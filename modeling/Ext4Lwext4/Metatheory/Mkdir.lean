import Ext4Lwext4.Metatheory.MetadataReports

/-! # Creating a directory

`mkdir` creates with lwext4's own mode and then sets the mode asked for. A
directory whose mode could not be set stays, and the mode `0` is never set. -/

namespace Ext4Lwext4.Metatheory

open Ext4Lwext4.Framework Ext4Lwext4.Model

/-! ## What lwext4 does with the paths -/

/-- The mode of a directory that `ext4_dir_mk` has just created. -/
def newDirectoryMode : UInt32 := 0o040777

/-- The mode with other permission bits. -/
def withPermissions (old mode : UInt32) : UInt32 := (old &&& ~~~0o7777) ||| (mode &&& 0o7777)

/-- The modes of a filesystem's paths, and what the calls of `mkdir` do to
them. Every call returns. -/
structure KeepsModes (E : Environment Call Reply) (modes : E.State → CString → Option UInt32) :
    Prop where
  returns (s : E.State) (c : Call) : ∃ r t, E.step s c r t
  made {s t : E.State} {p : CString} : E.step s (.ext4DirMk p) (0 : Int32) t →
    modes s p = none ∧ modes t = Function.update (modes s) p (some newDirectoryMode)
  notMade {s t : E.State} {p : CString} {code : Int32} : code ≠ 0 →
    E.step s (.ext4DirMk p) code t → modes t = modes s
  modeSet {s t : E.State} {p : CString} {mode : UInt32} :
    E.step s (.ext4ModeSet p mode) (0 : Int32) t → ∃ old, modes s p = some old ∧
      modes t = Function.update (modes s) p (some (withPermissions old mode))
  modeNotSet {s t : E.State} {p : CString} {mode : UInt32} {code : Int32} : code ≠ 0 →
    E.step s (.ext4ModeSet p mode) code t → modes t = modes s
  modeGet {s t : E.State} {p : CString} {arg mode mode' : UInt32} {code : Int32} :
    modes s p = some mode → E.step s (.ext4ModeGet p arg) (code, mode') t →
    code = 0 ∧ mode' = mode

/-! ## The promise -/

/-- What `metadata` says of the path, in a state. -/
def ReportsDirectory (E : Environment Call Reply) (fs : Ext4Fs) (path : String) (mode : UInt32)
    (t : E.State) : Prop :=
  ∀ tr o u, Exec E (fs.metadata path).run t tr o u →
    ∃ m, o = .ok (.ok m) ∧ m.fileType = .directory ∧ m.mode = mode

/-- On `Ok` the directory is there with its mode, on `Err` nothing happened. -/
structure MkdirAtomic {E : Environment Call Reply} (modes : E.State → CString → Option UInt32)
    (fs : Ext4Fs) (path : String) (mode : UInt32) (s : E.State) (result : Except Error Unit)
    (t : E.State) : Prop where
  ok : result = .ok () → ReportsDirectory E fs path mode t
  error : ∀ e, result = .error e → modes t = modes s

/-- The directory was created and the mode asked for was not set: it was not
asked of lwext4, or refused. -/
def LeftWithDefaultMode (mode : UInt32) (tr : List SysEvent) : Prop :=
  ∃ p, ⟨.ext4DirMk p, (0 : Int32)⟩ ∈ tr ∧
    (mode = 0 ∨ ∃ q, ∃ code : Int32, code ≠ 0 ∧ ⟨.ext4ModeSet q mode, code⟩ ∈ tr)

/-! ## Permission bits -/

theorem or_and_distrib (a b c : UInt32) : (a ||| b) &&& c = (a &&& c) ||| (b &&& c) := by
  apply UInt32.toNat_inj.mp
  rw [UInt32.toNat_and, UInt32.toNat_or, UInt32.toNat_or, UInt32.toNat_and, UInt32.toNat_and]
  exact Nat.and_or_distrib_right ..

/-- A new directory given a mode has just that mode. -/
theorem permissions_newDirectory {mode : UInt32} (h : mode ≤ 0o7777) :
    withPermissions newDirectoryMode mode &&& 0o7777 = mode := by
  have hold : newDirectoryMode &&& ~~~0o7777 &&& 0o7777 = 0 := by decide
  rw [withPermissions, or_and_distrib, hold, UInt32.and_assoc, UInt32.and_self, UInt32.zero_or]
  -- the mask keeps what fits in twelve bits
  apply UInt32.toNat_inj.mp
  have hle : mode.toNat ≤ 0o7777 := UInt32.le_iff_toNat_le.mp h
  rw [UInt32.toNat_and]
  show mode.toNat &&& 2 ^ 12 - 1 = _
  rw [Nat.and_two_pow_sub_one_eq_mod]
  omega

/-- And it is still a directory. -/
theorem fileType_newDirectory (mode : UInt32) :
    Ext4Fs.fileTypeOfMode (withPermissions newDirectoryMode mode) = .directory := by
  have hbits : withPermissions newDirectoryMode mode &&& 0o170000 = 0o040000 := by
    have hmask : (0o7777 : UInt32) &&& 0o170000 = 0 := by decide
    rw [withPermissions, or_and_distrib, UInt32.and_assoc mode, hmask, UInt32.and_zero,
      UInt32.or_zero]
    decide
  unfold Ext4Fs.fileTypeOfMode
  rw [hbits]
  rfl

/-! ## Runs -/

section Run

variable {E : Environment Call Reply} {fs : Ext4Fs} {path : String} {mode : UInt32}
  {s t : E.State} {tr : List SysEvent}

/-- An operation on a path is refused before any call, or it is its call and
the check of the code. -/
theorem changePath_exec {call : CString → Sys Int32} {o : Outcome (Except Error Unit)}
    (h : Exec E (fs.changePath path call).run s tr o t) :
    (tr = [] ∧ t = s ∧ (∃ e, o = .ok (.error e)) ∧
      (fs.readOnly = true ∨ ∃ e, fs.makePath path = .error e)) ∨
    ∃ p, fs.readOnly = false ∧ fs.makePath path = .ok p ∧
      Exec E (call p >>= fun ret => .done (checkErrnoWithPath ret path)) s tr o t := by
  unfold Ext4Fs.changePath at h
  cases hro : fs.readOnly with
  | true =>
      simp only [hro, if_true] at h
      obtain ⟨rfl, rfl, rfl⟩ := exec_run_error h
      exact .inl ⟨rfl, rfl, ⟨_, rfl⟩, .inl rfl⟩
  | false =>
      simp only [hro, Bool.false_eq_true, if_false] at h
      cases hp : fs.makePath path with
      | error e =>
          rw [hp] at h
          obtain ⟨rfl, rfl, rfl⟩ := Exec.done_iff.mp h
          exact .inl ⟨rfl, rfl, ⟨e, rfl⟩, .inr ⟨e, rfl⟩⟩
      | ok p =>
          rw [hp] at h
          refine .inr ⟨p, rfl, rfl, ?_⟩
          change Exec E (ExceptT.run (liftM (call p) >>= fun ret =>
            liftM (checkErrnoWithPath ret path))) s tr o t at h
          rwa [run_lift_bind] at h

/-- The ways `mkdir` can go. -/
inductive MkdirRun (E : Environment Call Reply) (fs : Ext4Fs) (path : String) (mode : UInt32)
    (s : E.State) : List SysEvent → Except Error Unit → E.State → Prop
  | refused (e : Error) : MkdirRun E fs path mode s [] (.error e) s
  | notMade {p : CString} {code : Int32} {t : E.State} (e : Error) : code ≠ 0 →
      E.step s (.ext4DirMk p) code t →
      MkdirRun E fs path mode s [⟨.ext4DirMk p, code⟩] (.error e) t
  | unset {p : CString} {t : E.State} : fs.makePath path = .ok p → mode = 0 →
      E.step s (.ext4DirMk p) (0 : Int32) t →
      MkdirRun E fs path mode s [⟨.ext4DirMk p, (0 : Int32)⟩] (.ok ()) t
  | set {p : CString} {code : Int32} {t u : E.State} : fs.makePath path = .ok p → mode ≠ 0 →
      E.step s (.ext4DirMk p) (0 : Int32) u → E.step u (.ext4ModeSet p mode) code t →
      MkdirRun E fs path mode s [⟨.ext4DirMk p, (0 : Int32)⟩, ⟨.ext4ModeSet p mode, code⟩]
        (checkErrnoWithPath code path) t

/-- `set_permissions` behind a directory that was made checks what `mkdir`
has checked already, so it comes to its call. -/
theorem mkdir_run {o : Outcome (Except Error Unit)}
    (h : Exec E (fs.mkdir path mode).run s tr o t) :
    ∃ result, o = .ok result ∧ MkdirRun E fs path mode s tr result t := by
  unfold Ext4Fs.mkdir at h
  rw [run_bind] at h
  rcases Exec.bind_iff.mp h with ⟨made, u, tr₁, tr₂, rfl, hmake, hrest⟩ | ⟨why, rfl, hmake⟩
  · rcases changePath_exec hmake with ⟨rfl, rfl, ⟨e, ho⟩, -⟩ | ⟨p, hro, hp, hmake⟩
    · cases ho
      obtain ⟨rfl, rfl, rfl⟩ := Exec.done_iff.mp hrest
      exact ⟨_, rfl, .refused e⟩
    obtain ⟨code, u', tr₁, rfl, hstep, hmake⟩ := Exec.request_bind hmake
    obtain ⟨rfl, ho, rfl⟩ := Exec.done_iff.mp hmake
    cases ho
    cases hcheck : checkErrnoWithPath code path with
    | error e =>
        rw [hcheck] at hrest
        obtain ⟨rfl, rfl, rfl⟩ := Exec.done_iff.mp hrest
        exact ⟨_, rfl, .notMade e (checkErrnoWithPath_ne_zero hcheck) hstep⟩
    | ok _ =>
        rw [hcheck] at hrest
        obtain rfl := checkErrnoWithPath_eq_ok.mp hcheck
        by_cases hmode : mode = 0
        · simp only [hmode, ne_eq, not_true_eq_false, if_false] at hrest
          obtain ⟨rfl, rfl, rfl⟩ := exec_run_ok hrest
          exact ⟨_, rfl, .unset hp hmode hstep⟩
        · simp only [ne_eq, hmode, not_false_eq_true, if_true] at hrest
          rcases changePath_exec hrest with ⟨-, -, -, hro' | ⟨e, hp'⟩⟩ | ⟨q, -, hq, hset⟩
          · exact absurd hro' (by rw [hro]; exact Bool.false_ne_true)
          · cases hp.symm.trans hp'
          · cases hq.symm.trans hp
            obtain ⟨code, v, tr₂, rfl, hset, hdone⟩ := Exec.request_bind hset
            obtain ⟨rfl, rfl, rfl⟩ := Exec.done_iff.mp hdone
            exact ⟨_, rfl, .set hp hmode hstep hset⟩
  · rcases changePath_exec hmake with ⟨-, -, ⟨e, ho⟩, -⟩ | ⟨p, -, -, hmake⟩
    · cases ho
    · obtain ⟨code, u', tr₁, rfl, -, hmake⟩ := Exec.request_bind hmake
      cases (Exec.done_iff.mp hmake).2.1

/-- `metadata` says of a path that exists what its mode says. -/
theorem metadata_of_mode {modes : E.State → CString → Option UInt32} (hE : KeepsModes E modes)
    {p : CString} (hp : fs.makePath path = .ok p) {m : UInt32} (hm : modes s p = some m)
    {o : Outcome (Except Error Metadata)} (h : Exec E (fs.metadata path).run s tr o t) :
    ∃ md, o = .ok (.ok md) ∧ md.fileType = Ext4Fs.fileTypeOfMode m ∧ md.mode = m &&& 0o7777 := by
  obtain ⟨result, rfl, ⟨rfl, e, he, -⟩ | ⟨q, hq, htrace⟩⟩ := metadata_trace h
  · cases hp.symm.trans he
  · cases hq.symm.trans hp
    cases htrace with
    | missing mode hcheck =>
        obtain ⟨u, hstep⟩ := h.head_step
        obtain ⟨rfl, -⟩ := hE.modeGet hm hstep
        cases hcheck
    | found =>
        obtain ⟨u, hstep⟩ := h.head_step
        obtain ⟨-, rfl⟩ := hE.modeGet hm hstep
        exact ⟨_, rfl, rfl, rfl⟩

/-- The step lemma: each way `mkdir` can go, against the promise. -/
theorem MkdirRun.atomic_iff {modes : E.State → CString → Option UInt32} (hE : KeepsModes E modes)
    (hmode : mode ≤ 0o7777) {result : Except Error Unit}
    (h : MkdirRun E fs path mode s tr result t) :
    MkdirAtomic modes fs path mode s result t ↔ ¬ LeftWithDefaultMode mode tr := by
  cases h with
  | refused e =>
      refine iff_of_true ⟨nofun, fun _ _ => rfl⟩ ?_
      rintro ⟨p, hmade, -⟩
      cases hmade
  | notMade e hcode hstep =>
      refine iff_of_true ⟨nofun, fun _ _ => hE.notMade hcode hstep⟩ ?_
      rintro ⟨q, hmade, -⟩
      simp only [List.mem_singleton, Sigma.mk.injEq, Call.ext4DirMk.injEq] at hmade
      obtain ⟨rfl, hzero⟩ := hmade
      exact hcode (eq_of_heq hzero).symm
  | @unset p _ hp hzero hstep =>
      refine iff_of_false ?_ (not_not.mpr ⟨p, by simp, .inl hzero⟩)
      -- what is reported is the mode lwext4 chose
      intro hatomic
      have hnew : modes t p = some newDirectoryMode := by
        rw [(hE.made hstep).2, Function.update_self]
      obtain ⟨tr, o, u, hrun⟩ := Exec.exists_of_returns hE.returns (fs.metadata path).run t
      obtain ⟨md, rfl, -, hbits⟩ := metadata_of_mode hE hp hnew hrun
      obtain ⟨md', ho, -, hmd⟩ := hatomic.ok rfl _ _ _ hrun
      cases ho
      rw [hmd, hzero] at hbits
      exact absurd hbits (by decide)
  | @set p code _ u hp hne hmake hset =>
      obtain ⟨habsent, hmade⟩ := hE.made hmake
      by_cases hcode : code = 0
      · subst hcode
        have hresult : checkErrnoWithPath 0 path = .ok () := rfl
        obtain ⟨old, hold, hmodes⟩ := hE.modeSet hset
        rw [hmade, Function.update_self] at hold
        cases hold
        refine iff_of_true ⟨fun _ => ?_, fun e he => nomatch hresult.symm.trans he⟩ ?_
        · intro tr o v hrun
          have hnew : modes t p = some (withPermissions newDirectoryMode mode) := by
            rw [hmodes, Function.update_self]
          obtain ⟨md, rfl, htype, hbits⟩ := metadata_of_mode hE hp hnew hrun
          exact ⟨md, rfl, htype.trans (fileType_newDirectory mode),
            hbits.trans (permissions_newDirectory hmode)⟩
        · rintro ⟨q, -, hzero | ⟨q', code, hcode, hmem⟩⟩
          · exact hne hzero
          · simp only [List.mem_cons, List.not_mem_nil, or_false, Sigma.mk.injEq, reduceCtorEq,
              false_and, false_or, Call.ext4ModeSet.injEq] at hmem
            exact hcode (eq_of_heq hmem.2)
      · refine iff_of_false ?_ (not_not.mpr ⟨p, by simp, .inr ⟨p, code, hcode, by simp⟩⟩)
        -- the directory is there, though `mkdir` failed
        intro hatomic
        obtain ⟨e, he⟩ := checkErrnoWithPath_of_ne path hcode
        have hsame := hatomic.error e he
        rw [hE.modeNotSet hcode hset, hmade] at hsame
        have hat := congrFun hsame p
        rw [Function.update_self, habsent] at hat
        cases hat

end Run

/-- For every state, path and mode, and whatever the two calls return: `mkdir`
is atomic and sets the mode asked for, unless it leaves a directory behind
with the mode lwext4 gave it. -/
theorem mkdir_atomic_iff {E : Environment Call Reply}
    {modes : E.State → CString → Option UInt32} (hE : KeepsModes E modes) {fs : Ext4Fs}
    {path : String} {mode : UInt32} (hmode : mode ≤ 0o7777) {s t : E.State}
    {tr : List SysEvent} {o : Outcome (Except Error Unit)}
    (h : Exec E (fs.mkdir path mode).run s tr o t) :
    ∃ result, o = .ok result ∧
      (MkdirAtomic modes fs path mode s result t ↔ ¬ LeftWithDefaultMode mode tr) := by
  obtain ⟨result, rfl, hrun⟩ := mkdir_run h
  exact ⟨result, rfl, hrun.atomic_iff hE hmode⟩

/-! ## A lwext4 that does this -/

/-- The state is the modes themselves; either call may fail. -/
def modesLwext4 : Environment Call Reply where
  State := CString → Option UInt32
  step s c r t :=
    match c, r with
    | .ext4DirMk p, r =>
        r = (0 : Int32) ∧ s p = none ∧ t = Function.update s p (some newDirectoryMode) ∨
          r ≠ (0 : Int32) ∧ t = s
    | .ext4ModeSet p mode, r =>
        (r = (0 : Int32) ∧ ∃ old, s p = some old ∧
            t = Function.update s p (some (withPermissions old mode))) ∨
          r ≠ (0 : Int32) ∧ t = s
    | .ext4ModeGet p _, r => r = ((s p).elim (ENOENT, 0) fun mode => (0, mode)) ∧ t = s
    | _, _ => t = s

theorem modesLwext4_keepsModes : KeepsModes modesLwext4 id where
  returns s c := by
    obtain ⟨r⟩ := nonempty_reply c
    cases c with
    | ext4DirMk p => exact ⟨_, s, .inr ⟨EIO_ne_zero, rfl⟩⟩
    | ext4ModeSet p mode => exact ⟨_, s, .inr ⟨EIO_ne_zero, rfl⟩⟩
    | ext4ModeGet p arg => exact ⟨_, s, rfl, rfl⟩
    | _ => exact ⟨r, s, rfl⟩
  made h := by
    rcases h with ⟨-, habsent, hmade⟩ | ⟨hne, -⟩
    · exact ⟨habsent, hmade⟩
    · exact absurd rfl hne
  notMade hne h := by
    rcases h with ⟨hzero, -⟩ | ⟨-, hsame⟩
    · exact absurd hzero hne
    · exact hsame
  modeSet h := by
    rcases h with ⟨-, hset⟩ | ⟨hne, -⟩
    · exact hset
    · exact absurd rfl hne
  modeNotSet hne h := by
    rcases h with ⟨hzero, -⟩ | ⟨-, hsame⟩
    · exact absurd hzero hne
    · exact hsame
  modeGet {s t p arg mode mode' code} hmode h := by
    obtain ⟨hreply, -⟩ := h
    rw [show s p = some mode from hmode] at hreply
    cases hreply
    exact ⟨rfl, rfl⟩

theorem mkdir_exec {E : Environment Call Reply} {fs : Ext4Fs} {path : String} {mode : UInt32}
    {p : CString} {s t u : E.State} {code : Int32} (hro : fs.readOnly = false)
    (hp : fs.makePath path = .ok p) (hne : mode ≠ 0) (hmake : E.step s (.ext4DirMk p) (0 : Int32) u)
    (hset : E.step u (.ext4ModeSet p mode) code t) :
    Exec E (fs.mkdir path mode).run s
      [⟨.ext4DirMk p, (0 : Int32)⟩, ⟨.ext4ModeSet p mode, code⟩]
      (.ok (checkErrnoWithPath code path)) t := by
  unfold Ext4Fs.mkdir Ext4Fs.setPermissions Ext4Fs.changePath
  simp only [hro, hp, Bool.false_eq_true, if_false, if_pos hne]
  refine .call hmake (.call hset ?_)
  exact .done _ _

/-- From a filesystem with no path at all, whether or not the mode can be set. -/
theorem mkdir_log {p : CString} (hp : sampleFs.makePath "log" = .ok p) (code : Int32) :
    ∃ t : modesLwext4.State, t p ≠ none ∧
      Exec modesLwext4 (sampleFs.mkdir "log" 0o755).run (fun _ => none)
        [⟨.ext4DirMk p, (0 : Int32)⟩, ⟨.ext4ModeSet p 0o755, code⟩]
        (.ok (checkErrnoWithPath code "log")) t := by
  have hmake : modesLwext4.step (fun _ => none) (.ext4DirMk p) (0 : Int32)
      (Function.update (fun _ => none) p (some newDirectoryMode)) := .inl ⟨rfl, rfl, rfl⟩
  by_cases hcode : code = 0
  · refine ⟨_, ?_, mkdir_exec rfl hp (by decide) hmake
      (.inl ⟨hcode, newDirectoryMode, Function.update_self .., rfl⟩)⟩
    rw [Function.update_self]
    exact Option.some_ne_none _
  · refine ⟨_, ?_, mkdir_exec rfl hp (by decide) hmake (.inr ⟨hcode, rfl⟩)⟩
    rw [Function.update_self]
    exact Option.some_ne_none _

theorem mkdir_atomic_iff_log :
    ∃ p t, sampleFs.makePath "log" = .ok p ∧
      ∃ result, (Except.ok (checkErrnoWithPath 0 "log") : Outcome (Except Error Unit)) =
          .ok result ∧
        (MkdirAtomic (E := modesLwext4) id sampleFs "log" 0o755 (fun _ => none) result t ↔
          ¬ LeftWithDefaultMode 0o755
            [⟨.ext4DirMk p, (0 : Int32)⟩, ⟨.ext4ModeSet p 0o755, (0 : Int32)⟩]) := by
  obtain ⟨p, hp⟩ := sampleFs_log
  obtain ⟨t, -, hrun⟩ := mkdir_log hp 0
  exact ⟨p, t, hp, mkdir_atomic_iff modesLwext4_keepsModes (by decide) hrun⟩

/-- The mode cannot be set: `mkdir` returns an error, and the directory is there. -/
theorem mkdir_not_rolled_back :
    KeepsModes modesLwext4 id ∧
    ¬ ∀ (fs : Ext4Fs) (path : String) (mode : UInt32) (s t : modesLwext4.State)
        (tr : List SysEvent) (result : Except Error Unit), mode ≤ 0o7777 →
      Exec modesLwext4 (fs.mkdir path mode).run s tr (.ok result) t →
      MkdirAtomic id fs path mode s result t := by
  refine ⟨modesLwext4_keepsModes, ?_⟩
  intro h
  obtain ⟨p, hp⟩ := sampleFs_log
  obtain ⟨t, hthere, hrun⟩ := mkdir_log hp EIO
  have hatomic := h _ _ _ _ _ _ _ (by decide) hrun
  obtain ⟨e, he⟩ := checkErrnoWithPath_of_ne "log" EIO_ne_zero
  have hsame : t = fun _ => none := hatomic.error e he
  exact hthere (congrFun hsame p)

end Ext4Lwext4.Metatheory
