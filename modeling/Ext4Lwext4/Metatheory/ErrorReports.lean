import Ext4Lwext4.Metatheory.Callbacks
import Ext4Lwext4.Metatheory.MetadataReports

/-! # How a failure of the device is reported

A callback turns the device's error into a code, lwext4 returns the code, and
the operation turns it into an error again. The code of an operating-system
error is kept on the way, so it is read as lwext4's own: `ENOENT` of the
backing store becomes an answer about a path. -/

namespace Ext4Lwext4.Metatheory

open Ext4Lwext4.Framework Ext4Lwext4.Model

/-! ## Errors and codes -/

/-- The errors that say something about what is in the namespace. -/
def IsAnswer : Error → Prop
  | .notFound _ | .alreadyExists _ | .notADirectory _ | .isADirectory _ | .notEmpty _ => True
  | _ => False

/-- The codes that are turned into such an error. -/
def answerCodes : List Int32 := [ENOENT, EEXIST, ENOTDIR, EISDIR, ENOTEMPTY]

/-- The result of one of the two checks of a code. -/
def IsCheck (code : Int32) (result : Except Error Unit) : Prop :=
  result = checkErrno code ∨ ∃ path, result = checkErrnoWithPath code path

/-- An error that one of the checks makes of the code. -/
abbrev MadeOf (code : Int32) (e : Error) : Prop := IsCheck code (.error e)

theorem ite_or_iff {α : Type} {P : α → Prop} {p q : Prop} [Decidable p] {a b : α} (ha : P a)
    (hb : P b ↔ q) : P (if p then a else b) ↔ p ∨ q := by
  by_cases h : p
  · rw [if_pos h]
    exact iff_of_true ha (.inl h)
  · rw [if_neg h, hb]
    exact (or_iff_right h).symm

theorem isAnswer_fromErrno_iff {code : Int32} (h : code ≠ 0) :
    IsAnswer (Error.fromErrno code h) ↔ code ∈ answerCodes := by
  simp only [answerCodes, List.mem_cons]
  unfold Error.fromErrno
  iterate 5 refine ite_or_iff (P := IsAnswer) trivial ?_
  -- no other branch is about the namespace
  refine iff_of_false ?_ (List.not_mem_nil)
  repeat refine iteInduction (motive := fun e => ¬ IsAnswer e) (fun _ => id) fun _ => ?_
  exact id

theorem isAnswer_withPath_iff {code : Int32} (h : code ≠ 0) (path : String) :
    (∃ e, checkErrnoWithPath code path = .error e ∧ IsAnswer e) ↔ code ∈ answerCodes := by
  let P : Except Error Unit → Prop := fun r => ∃ e, r = .error e ∧ IsAnswer e
  have hlast : P (.error (Error.fromErrno code h)) ↔ code ∈ answerCodes := by
    rw [← isAnswer_fromErrno_iff h]
    constructor
    · rintro ⟨e, he, hanswer⟩
      cases he
      exact hanswer
    · exact fun hanswer => ⟨_, rfl, hanswer⟩
  have hiff : P (checkErrnoWithPath code path) ↔ code = ENOENT ∨ code = EEXIST ∨ code = ENOTDIR ∨
      code = EISDIR ∨ code = ENOTEMPTY ∨ code ∈ answerCodes := by
    unfold checkErrnoWithPath
    rw [dif_neg h]
    iterate 5 refine ite_or_iff (P := P) ⟨_, rfl, trivial⟩ ?_
    exact hlast
  refine hiff.trans ⟨?_, fun hmem => .inr (.inr (.inr (.inr (.inr hmem))))⟩
  rintro (rfl | rfl | rfl | rfl | rfl | hmem)
  · decide
  · decide
  · decide
  · decide
  · decide
  · exact hmem

theorem MadeOf.ne_zero {code : Int32} {e : Error} (h : MadeOf code e) : code ≠ 0 := by
  rintro rfl
  rcases h with h | ⟨path, h⟩
  · cases h
  · cases h

/-- An error that was made of a code is an answer for five codes. -/
theorem MadeOf.isAnswer_iff {code : Int32} {e : Error} (h : MadeOf code e) :
    IsAnswer e ↔ code ∈ answerCodes := by
  have hne := h.ne_zero
  rcases h with h | ⟨path, h⟩
  · rw [checkErrno_of_ne hne] at h
    cases h
    exact isAnswer_fromErrno_iff hne
  · rw [← isAnswer_withPath_iff hne path, ← h]
    constructor
    · exact fun hanswer => ⟨e, rfl, hanswer⟩
    · rintro ⟨e', he, hanswer⟩
      cases he
      exact hanswer

theorem IsCheck.error_of_ne {code : Int32} {result : Except Error Unit} (hne : code ≠ 0)
    (h : IsCheck code result) : ∃ e, result = .error e ∧ MadeOf code e := by
  rcases h with rfl | ⟨path, rfl⟩
  · rw [checkErrno_of_ne hne]
    exact ⟨_, rfl, .inl (checkErrno_of_ne hne).symm⟩
  · obtain ⟨e, he⟩ := checkErrnoWithPath_of_ne path hne
    exact ⟨e, he, .inr ⟨path, he.symm⟩⟩

/-- The crate's own error, also where the `std::io` traits put another around it. -/
def unwrapIo : Error → Error
  | .io (.wrapped _ e) => e
  | e => e

/-- No check makes an error of `std::io`. -/
theorem MadeOf.ne_io {code : Int32} {e : Error} (h : MadeOf code e) (io : IoError) :
    e ≠ .io io := by
  rintro rfl
  have hne := h.ne_zero
  rcases h with h | ⟨path, h⟩
  · rw [checkErrno_of_ne hne] at h
    exact Error.fromErrno_ne_io hne io (Except.error.inj h).symm
  · refine absurd h.symm ?_
    unfold checkErrnoWithPath
    rw [dif_neg hne]
    iterate 5 refine ite_ne_of nofun ?_
    exact fun h => Error.fromErrno_ne_io hne io (Except.error.inj h)

theorem MadeOf.unwrapIo_eq {code : Int32} {e : Error} (h : MadeOf code e) : unwrapIo e = e := by
  cases e with
  | io io => exact absurd rfl (h.ne_io io)
  | _ => rfl

/-! ## Operations that look at every code -/

/-- The result is an error made of the code of the call. -/
def FailsWith {α : Type} (ev : SysEvent) (result : Except Error α) : Prop :=
  ∃ e, result = .error e ∧ MadeOf (returnCode ev.1 ev.2) e

/-- The same, looking through `io::Error::new`. -/
def Tells (ev : SysEvent) (result : ApiResult) : Prop :=
  ∃ e, result = .error e ∧ MadeOf (returnCode ev.1 ev.2) (unwrapIo e)

section FailsFast

variable {α β : Type}

/-- A failed call ends the program with an error that is made of its code. -/
abbrev Surfaces (p : Sys (Except Error α)) : Prop := p.FailsFast Failed FailsWith

theorem surfaces_except_bind {x : Except Error α} {f : α → ExceptT Error Sys β}
    (hf : ∀ a, x = .ok a → Surfaces (f a).run) : Surfaces (ExceptT.run (liftM x >>= f)) := by
  cases x with
  | ok a => exact hf a rfl
  | error e => trivial

theorem surfaces_bind {p : ExceptT Error Sys α} {f : α → ExceptT Error Sys β}
    (hp : Surfaces p.run) (hf : ∀ a, Surfaces (f a).run) : Surfaces (p >>= f).run := by
  rw [run_bind]
  refine Prog.FailsFast.bind hp ?_ fun x => ?_
  · rintro ev x ⟨e, rfl, hmade⟩
    exact ⟨.error e, rfl, e, rfl, hmade⟩
  · cases x with
    | ok a => exact hf a
    | error e => trivial

theorem failsWith_check {c : Call} {r : Reply c} {x : Except Error Unit}
    (hx : IsCheck (returnCode c r) x) (hfail : Failed ⟨c, r⟩) : FailsWith ⟨c, r⟩ x :=
  hx.error_of_ne hfail

/-- The check of the code of a call, and what follows it. -/
theorem surfaces_check {c : Call} {r : Reply c} {x : Except Error Unit}
    {f : Unit → ExceptT Error Sys β} (hx : IsCheck (returnCode c r) x)
    (hf : Surfaces (f ()).run) :
    (Failed ⟨c, r⟩ → ∃ a, ExceptT.run (liftM x >>= f) = .done a ∧ FailsWith ⟨c, r⟩ a) ∧
      Surfaces (ExceptT.run (liftM x >>= f)) := by
  refine ⟨?_, surfaces_except_bind fun _ _ => hf⟩
  intro hfail
  obtain ⟨e, rfl, hmade⟩ := failsWith_check hx hfail
  exact ⟨.error e, rfl, e, rfl, hmade⟩

theorem surfaces_last_check {c : Call} {r : Reply c} {x : Except Error Unit}
    (hx : IsCheck (returnCode c r) x) :
    (Failed ⟨c, r⟩ → ∃ a, (ExceptT.run (liftM x) : Sys (Except Error Unit)) = .done a ∧
        FailsWith ⟨c, r⟩ a) ∧
      Surfaces (ExceptT.run (liftM x) : Sys (Except Error Unit)) :=
  ⟨fun hfail => ⟨x, rfl, failsWith_check hx hfail⟩, trivial⟩

variable {fs : Ext4Fs} {path : String}

/-- A call of which the program goes on with the code alone. -/
def ReturnsCode (ev : SysEvent) (code : Int32) : Prop :=
  code = returnCode ev.1 ev.2 ∧ Failed ev

theorem returnsCode_of_eq {c : Call} {f : Reply c → Int32} (hf : ∀ r, f r = returnCode c r) :
    (Prog.call c fun r => .done (f r)).FailsFast Failed ReturnsCode :=
  fun r => ⟨fun hfail => ⟨f r, rfl, hf r, hfail⟩, trivial⟩

theorem changePath_surfaces {call : CString → Sys Int32}
    (h : ∀ p, (call p).FailsFast Failed ReturnsCode) : Surfaces (fs.changePath path call).run := by
  unfold Ext4Fs.changePath
  cases fs.readOnly with
  | true => trivial
  | false =>
      apply surfaces_except_bind
      intro p _
      rw [run_lift_bind]
      refine (h p).bind ?_ fun _ => trivial
      rintro ev code ⟨rfl, hfail⟩
      exact ⟨_, rfl, failsWith_check (.inr ⟨path, rfl⟩) hfail⟩

theorem changePaths_surfaces {src dst : String} {call : CString → CString → Sys Int32}
    (h : ∀ p q, (call p q).FailsFast Failed ReturnsCode) :
    Surfaces (fs.changePaths src dst call).run := by
  unfold Ext4Fs.changePaths
  cases fs.readOnly with
  | true => trivial
  | false =>
      refine surfaces_except_bind fun p _ => surfaces_except_bind fun q _ => ?_
      rw [run_lift_bind]
      refine (h p q).bind ?_ fun _ => trivial
      rintro ev code ⟨rfl, hfail⟩
      exact ⟨_, rfl, failsWith_check (.inr ⟨src, rfl⟩) hfail⟩

theorem symlink_surfaces {target : String} : Surfaces (fs.symlink target path).run := by
  unfold Ext4Fs.symlink
  cases fs.readOnly with
  | true => trivial
  | false =>
      refine surfaces_except_bind fun t _ => surfaces_except_bind fun p _ => ?_
      exact fun r => surfaces_last_check (.inr ⟨path, rfl⟩)

theorem readlink_surfaces : Surfaces (fs.readlink path).run := by
  apply surfaces_except_bind
  intro p _
  refine fun r => surfaces_check (.inr ⟨path, rfl⟩) ?_
  cases fromUtf8 (r.2.1.val.take r.2.2.toNat) with
  | some target => trivial
  | none => trivial

theorem openFile_surfaces {flags : OpenFlags} : Surfaces (File.openFile fs path flags).run :=
  surfaces_except_bind fun _ _ _ => surfaces_check (.inr ⟨path, rfl⟩) trivial

theorem openDir_surfaces : Surfaces (Dir.openDir fs path).run :=
  surfaces_except_bind fun _ _ _ => surfaces_check (.inr ⟨path, rfl⟩) trivial

theorem sync_surfaces : Surfaces fs.sync.run := fun _ => surfaces_last_check (.inl rfl)

theorem tells_of_madeOf {ev : SysEvent} {e : Error} (h : MadeOf (returnCode ev.1 ev.2) e) :
    Tells ev (.error e) := by
  refine ⟨e, rfl, ?_⟩
  rw [h.unwrapIo_eq]
  exact h

theorem surfaces_answering {f : α → ApiValue} {p : Sys (Except Error α)} (hp : Surfaces p) :
    (answering f p).FailsFast Failed Tells := by
  refine hp.bind ?_ fun _ => trivial
  rintro ev x ⟨e, rfl, hmade⟩
  exact ⟨.error e, rfl, tells_of_madeOf hmade⟩

/-! ## Files -/

/-- The same where the program leaves a handle beside its result. -/
abbrev SurfacesWith {H : Type} (p : Sys (Except Error α × H)) : Prop :=
  p.FailsFast Failed fun ev r => FailsWith ev r.1

theorem surfaces_answeringWith {H : Type} {f : α → ApiValue} {p : Sys (Except Error α × H)}
    (hp : SurfacesWith p) : (answeringWith f p).FailsFast Failed fun ev r => Tells ev r.1 := by
  refine hp.bind ?_ fun _ => trivial
  rintro ev ⟨x, handle⟩ ⟨e, rfl, hmade⟩
  exact ⟨(.error e, handle), rfl, tells_of_madeOf hmade⟩

theorem surfaces_answeringFilled {H : Type} {f : α → β → ApiValue}
    {p : Sys (Except Error α × β × H)} (hp : SurfacesWith p) :
    (answeringFilled f p).FailsFast Failed fun ev r => Tells ev r.1 := by
  refine hp.bind ?_ fun _ => trivial
  rintro ev ⟨x, buf, handle⟩ ⟨e, rfl, hmade⟩
  exact ⟨(.error e, handle), rfl, tells_of_madeOf hmade⟩

/-- A program that hands an error of its first half on. -/
theorem surfacesWith_bind {H K : Type} {p : Sys (Except Error α × H)}
    {f : Except Error α × H → Sys (Except Error β × K)} (hp : SurfacesWith p)
    (herror : ∀ e handle, ∃ handle', f (.error e, handle) = .done (.error e, handle'))
    (hok : ∀ a handle, SurfacesWith (f (.ok a, handle))) : SurfacesWith (p >>= f) := by
  refine Prog.FailsFast.bind hp ?_ ?_
  · rintro ev ⟨x, handle⟩ ⟨e, rfl, hmade⟩
    obtain ⟨handle', hf⟩ := herror e handle
    exact ⟨_, hf, e, rfl, hmade⟩
  · rintro ⟨x, handle⟩
    cases x with
    | ok a => exact hok a handle
    | error e =>
        obtain ⟨handle', hf⟩ := herror e handle
        rw [hf]
        trivial

variable {build : Build} {file : File}

/-- A count beside the code is kept only where the code is `0`. -/
theorem failsWith_map {c : Call} {r : Reply c} {x : Except Error Unit} {f : Unit → α}
    (hx : IsCheck (returnCode c r) x) (hfail : Failed ⟨c, r⟩) : FailsWith ⟨c, r⟩ (x.map f) := by
  obtain ⟨e, rfl, hmade⟩ := failsWith_check hx hfail
  exact ⟨e, rfl, hmade⟩

theorem read_surfaces {buf : Bytes} : SurfacesWith (file.read buf) :=
  fun _ => ⟨fun hfail => ⟨_, rfl, failsWith_map (.inl rfl) hfail⟩, trivial⟩

theorem write_surfaces {buf : Bytes} : SurfacesWith (file.write buf) :=
  fun _ => ⟨fun hfail => ⟨_, rfl, failsWith_map (.inl rfl) hfail⟩, trivial⟩

theorem truncate_surfaces {size : UInt64} : SurfacesWith (file.truncate size) :=
  fun _ => ⟨fun hfail => ⟨_, rfl, failsWith_check (.inl rfl) hfail⟩, trivial⟩

/-- A call without a code does not fail. -/
theorem failsFast_codeless_bind {c : Call} {f : Reply c → Sys β} {T : SysEvent → β → Prop}
    (hc : ∀ r, returnCode c r = 0) (hf : ∀ r, (f r).FailsFast Failed T) :
    (sys c >>= f).FailsFast Failed T :=
  Prog.failsFast_request_bind fun r => ⟨fun hfail => absurd (hc r) hfail, hf r⟩

theorem seek_surfaces {pos : SeekFrom} : SurfacesWith (file.seek pos) := by
  refine Prog.failsFast_request_bind ?_
  rintro ⟨ret, inner⟩
  dsimp only
  by_cases hret : ret = 0
  · subst hret
    refine ⟨fun hfail => absurd rfl hfail, ?_⟩
    exact failsFast_codeless_bind (fun _ => rfl) fun _ => trivial
  · rw [checkErrno_of_ne hret]
    exact ⟨fun _ => ⟨_, rfl, _, rfl, .inl (checkErrno_of_ne hret).symm⟩, trivial⟩

theorem readChunks_surfaces {fuel : ℕ} {file : File} {buf : ByteVec} {chunk : Bytes}
    {total : UInt64} : SurfacesWith (File.readChunks build fuel file buf chunk total) := by
  -- on the rounds that are left
  induction fuel generalizing file buf chunk total with
  | zero => trivial
  | succ fuel ih =>
      refine surfacesWith_bind read_surfaces (fun _ _ => ⟨_, rfl⟩) ?_
      rintro n ⟨chunk, file⟩
      by_cases hn : n = 0
      · simp only [hn, if_true]
        trivial
      · simp only [hn, if_false]
        apply Prog.failsFast_ofOutcome_bind
        intro part
        apply Prog.failsFast_ofOutcome_bind
        intro buf
        exact Prog.failsFast_ofOutcome_bind fun total => ih

theorem readToEnd_surfaces {fuel : ℕ} {buf : ByteVec} :
    SurfacesWith (file.readToEnd build fuel buf) := by
  apply failsFast_codeless_bind (fun _ => rfl)
  intro size
  apply Prog.failsFast_ofOutcome_bind
  intro _
  refine surfacesWith_bind seek_surfaces (fun _ _ => ⟨_, rfl⟩) ?_
  intro pos file
  exact readChunks_surfaces

theorem readToString_surfaces {fuel : ℕ} {text : String} :
    SurfacesWith (file.readToString build fuel text) := by
  refine surfacesWith_bind readToEnd_surfaces (fun _ _ => ⟨_, rfl⟩) ?_
  rintro n ⟨bytes, file⟩
  dsimp only
  cases fromUtf8 bytes.bytes with
  | some text => trivial
  | none => trivial

theorem writeRest_surfaces {buf : Bytes} {fuel : ℕ} {file : File} {written : UInt64} :
    SurfacesWith (File.writeRest build buf fuel file written) := by
  induction fuel generalizing file written with
  | zero =>
      unfold File.writeRest
      split
      · trivial
      · trivial
  | succ fuel ih =>
      unfold File.writeRest
      by_cases hlt : written < len buf
      · simp only [hlt, if_true]
        apply Prog.failsFast_ofOutcome_bind
        intro rest
        refine surfacesWith_bind write_surfaces (fun _ _ => ⟨_, rfl⟩) ?_
        intro n file
        by_cases hn : n = 0
        · simp only [hn, if_true]
          trivial
        · simp only [hn, if_false]
          exact Prog.failsFast_ofOutcome_bind fun written => ih
      · simp only [hlt, if_false]
        trivial

/-- An error that is made of the code of the call, within `io::Error::new`. -/
def FailsWithIo (ev : SysEvent) (result : Except IoError α) : Prop :=
  ∃ x : Except Error α, result = File.toIo x ∧ FailsWith ev x

theorem FailsWithIo.tells {ev : SysEvent} {result : Except IoError α}
    (h : FailsWithIo ev result) (f : α → ApiValue) : Tells ev ((ofIo result).map f) := by
  obtain ⟨_, rfl, e, rfl, hmade⟩ := h
  exact ⟨_, rfl, hmade⟩

/-- The `std::io` form of an operation. -/
theorem surfaces_toIo {H : Type} {p : Sys (Except Error α × H)} (hp : SurfacesWith p) :
    (p >>= fun r => pure (File.toIo r.1, r.2)).FailsFast Failed fun ev r => FailsWithIo ev r.1 :=
  hp.bind (fun _ r h => ⟨_, rfl, r.1, rfl, h⟩) fun _ => trivial

theorem sync_file_surfaces : SurfacesWith file.sync :=
  Prog.FailsFast.bind sync_surfaces (fun _ _ h => ⟨_, rfl, h⟩) fun _ => trivial

end FailsFast

/-! ## What an operation looks at -/

/-- The codes an operation looks at: the operations that return a bare `bool`
and the drops look at none, and `metadata` at the first. -/
def Checks : ApiOp → Call → Prop
  | .fs (.existsPath _), _ | .fs (.isFile _), _ | .fs (.isDir _), _ => False
  | .dropFile _, _ | .dropDir _, _ => False
  | .fs (.metadata _), c | .file _ .metadata, c => IsModeGet c
  | _, _ => True
where
  IsModeGet : Call → Prop
    | .ext4ModeGet _ _ => True
    | _ => False

section Performing

variable {E : Environment Call Reply} {s t : E.State} {tr : List SysEvent} {fs : Ext4Fs}
  {path : String} {ev : SysEvent}

theorem fsOp_failsFast {op : FsOp} (hop : ∀ c, Checks (.fs op) c) :
    (op.perform fs).FailsFast Failed Tells := by
  cases op with
  | isReadOnly => trivial
  | stat => exact surfaces_answering fun _ => surfaces_check (.inl rfl) trivial
  | mkdir path mode =>
      refine surfaces_answering (surfaces_bind ?_ ?_)
      · exact changePath_surfaces fun p => returnsCode_of_eq fun _ => rfl
      · intro _
        by_cases hmode : mode ≠ 0
        · rw [if_pos hmode]
          exact changePath_surfaces fun p => returnsCode_of_eq fun _ => rfl
        · rw [if_neg hmode]
          trivial
  | remove path =>
      exact surfaces_answering (changePath_surfaces fun p => returnsCode_of_eq fun _ => rfl)
  | rmdir path =>
      exact surfaces_answering (changePath_surfaces fun p => returnsCode_of_eq fun _ => rfl)
  | rename src dst =>
      exact surfaces_answering (changePaths_surfaces fun p q => returnsCode_of_eq fun _ => rfl)
  | link src dst =>
      exact surfaces_answering (changePaths_surfaces fun p q => returnsCode_of_eq fun _ => rfl)
  | symlink target path => exact surfaces_answering symlink_surfaces
  | readlink path => exact surfaces_answering readlink_surfaces
  | setPermissions path mode =>
      exact surfaces_answering (changePath_surfaces fun p => returnsCode_of_eq fun _ => rfl)
  | setOwner path uid gid =>
      exact surfaces_answering (changePath_surfaces fun p => returnsCode_of_eq fun _ => rfl)
  | sync => exact surfaces_answering sync_surfaces
  | existsPath path => exact (hop .deviceCounterFetchAdd).elim
  | isFile path => exact (hop .deviceCounterFetchAdd).elim
  | isDir path => exact (hop .deviceCounterFetchAdd).elim
  | metadata path => exact (hop .deviceCounterFetchAdd).elim

theorem fileOp_failsFast {build : Build} {file : File} {handle : ℕ} {op : FileOp}
    (hop : ∀ c, Checks (.file handle op) c) :
    (op.perform build file).FailsFast Failed fun ev r => Tells ev r.1 := by
  cases op with
  | read buf => exact surfaces_answeringFilled read_surfaces
  | write buf => exact surfaces_answeringWith write_surfaces
  | seek pos => exact surfaces_answeringWith seek_surfaces
  | position => exact failsFast_codeless_bind (fun _ => rfl) fun _ => trivial
  | size => exact failsFast_codeless_bind (fun _ => rfl) fun _ => trivial
  | truncate size => exact surfaces_answeringWith truncate_surfaces
  | flush => trivial
  | sync => exact surfaces_answeringWith sync_file_surfaces
  | readToEnd fuel buf =>
      rw [FileOp.perform]
      exact surfaces_answeringFilled readToEnd_surfaces
  | readToString fuel buf =>
      rw [FileOp.perform]
      exact surfaces_answeringFilled readToString_surfaces
  | writeAll fuel buf => exact surfaces_answeringWith writeRest_surfaces
  | ioRead buf =>
      exact Prog.FailsFast.bind (surfaces_toIo read_surfaces) (fun _ _ h => ⟨_, rfl, h.tells _⟩)
        fun _ => trivial
  | ioWrite buf =>
      exact Prog.FailsFast.bind (surfaces_toIo write_surfaces) (fun _ _ h => ⟨_, rfl, h.tells _⟩)
        fun _ => trivial
  | ioFlush => trivial
  | ioSeek pos =>
      exact Prog.FailsFast.bind (surfaces_toIo seek_surfaces) (fun _ _ h => ⟨_, rfl, h.tells _⟩)
        fun _ => trivial
  | metadata => exact (hop .deviceCounterFetchAdd).elim

/-- An operation that returns a `bool` makes no error of anything. -/
theorem ensures_bool (q : Sys Bool) (client : Client) :
    ((q >>= fun b => pure (.ok (.bool b))) >>= fun result => pure (result, client) :
      Sys (ApiResult × Client)).Ensures (fun _ => True) fun r => ∃ v, r.1 = .ok v := by
  have hq : (q >>= fun b => pure (.ok (.bool b)) : Sys ApiResult).Ensures (fun _ => True)
      fun r => ∃ v, r = .ok v := by
    apply Prog.allCalls_bind q.ensures_true
    intro b
    exact ⟨.bool b, rfl⟩
  exact Prog.ensures_bind hq fun _ hr => hr

/-- `metadata` looks at the code of its first call, and returns an `Ok` when
it has made another. -/
theorem metadata_treats {o : Outcome (Except Error Metadata)}
    (h : Exec E (fs.metadata path).run s tr o t) (hev : ev ∈ tr) :
    ∃ result, o = .ok result ∧
      (Checks.IsModeGet ev.1 → Failed ev → FailsWith ev result) ∧
      (¬ Checks.IsModeGet ev.1 → ∃ m, result = .ok m) := by
  obtain ⟨result, rfl, ⟨rfl, -⟩ | ⟨p, -, htrace⟩⟩ := metadata_trace h
  · cases hev
  refine ⟨result, rfl, ?_⟩
  cases result with
  | error e =>
      cases htrace with
      | @missing code mode _ hcheck =>
          rw [List.mem_singleton.mp hev]
          exact ⟨fun _ _ => ⟨e, rfl, .inr ⟨path, hcheck.symm⟩⟩, fun hno => absurd trivial hno⟩
  | ok m =>
      refine ⟨?_, fun _ => ⟨m, rfl⟩⟩
      intro hmode hfail
      obtain ⟨c, reply⟩ := ev
      cases c with
      | ext4ModeGet q mode => exact absurd hfail (htrace.not_first_failed hev)
      | _ => cases hmode

/-- What a run of an operation makes of the code of one of its calls. -/
structure Treats (op : ApiOp) (ev : SysEvent) (o : Outcome (ApiResult × Client)) : Prop where
  surfaces : Checks op ev.1 → Failed ev → ∃ r, o = .ok r ∧ Tells ev r.1
  ignores : ¬ Checks op ev.1 → ∀ r, o = .ok r → ∃ v, r.1 = .ok v

variable {op : ApiOp} {p : Sys (ApiResult × Client)} {o : Outcome (ApiResult × Client)}

theorem treats_of_failsFast (hop : ∀ c, Checks op c)
    (hp : p.FailsFast Failed fun ev r => Tells ev r.1) (h : Exec E p s tr o t) (hev : ev ∈ tr) :
    Treats op ev o where
  surfaces _ hfail := hp.result_of_exec h hev hfail
  ignores hno := absurd (hop _) hno

theorem treats_of_ensures (hop : ¬ Checks op ev.1)
    (hp : p.Ensures (fun _ => True) fun r => ∃ v, r.1 = .ok v) (h : Exec E p s tr o t) :
    Treats op ev o where
  surfaces hyes := absurd hyes hop
  ignores _ r ho := by
    subst ho
    exact hp.result_of_exec h

/-- The result of `metadata`, handed on with whatever handle there is. -/
theorem treats_metadata {client : Except Error Metadata → Client}
    (hop : Checks op ev.1 ↔ Checks.IsModeGet ev.1)
    (h : Exec E ((fs.metadata path).run >>= fun result =>
      pure (result.map ApiValue.metadata, client result)) s tr o t) (hev : ev ∈ tr) :
    Treats op ev o := by
  rcases Exec.bind_iff.mp h with ⟨result, u, tr₁, tr₂, rfl, hmeta, h⟩ | ⟨why, rfl, hmeta⟩
  · obtain ⟨rfl, rfl, rfl⟩ := Exec.done_iff.mp h
    rw [List.append_nil] at hev
    obtain ⟨_, ⟨⟩, hsurfaces, hignores⟩ := metadata_treats hmeta hev
    constructor
    · intro hyes hfail
      obtain ⟨e, rfl, hmade⟩ := hsurfaces (hop.mp hyes) hfail
      exact ⟨_, rfl, tells_of_madeOf hmade⟩
    · rintro hno _ ⟨⟩
      obtain ⟨m, rfl⟩ := hignores (mt hop.mpr hno)
      exact ⟨_, rfl⟩
  · obtain ⟨_, ⟨⟩, -⟩ := metadata_treats hmeta hev

/-- An operation that opens a handle. -/
theorem opens_failsFast {H : Type} {q : Sys (Except Error H)} {client : Client}
    {f : Except Error H → Sys (ApiResult × Client)} (hq : Surfaces q)
    (herror : ∀ e, f (.error e) = .done (.error e, client))
    (hok : ∀ handle, ∃ r, f (.ok handle) = .done r) :
    (q >>= f).FailsFast Failed fun ev r => Tells ev r.1 := by
  refine hq.bind ?_ ?_
  · rintro ev x ⟨e, rfl, hmade⟩
    exact ⟨_, herror e, tells_of_madeOf hmade⟩
  · intro x
    cases x with
    | ok handle =>
        obtain ⟨r, hr⟩ := hok handle
        rw [hr]
        trivial
    | error e =>
        rw [herror]
        trivial

theorem perform_treats {build : Build} {client : Client} (hp : client.perform build op = some p)
    (h : Exec E p s tr o t) (hev : ev ∈ tr) : Treats op ev o := by
  cases op with
  | fs op =>
      cases hp
      by_cases hall : ∀ c, Checks (.fs op) c
      · refine treats_of_failsFast hall ?_ h hev
        exact (fsOp_failsFast hall).bind (fun _ r hr => ⟨_, rfl, hr⟩) fun _ => trivial
      · cases op with
        | existsPath path =>
            exact treats_of_ensures id (ensures_bool (client.fs.existsPath path) client) h
        | isFile path => exact treats_of_ensures id (ensures_bool (client.fs.isFile path) client) h
        | isDir path => exact treats_of_ensures id (ensures_bool (client.fs.isDir path) client) h
        | metadata path =>
            change Exec E (answering .metadata (client.fs.metadata path).run >>= _) s tr o t at h
            rw [answering, Prog.bind_assoc] at h
            exact treats_metadata Iff.rfl h hev
        | _ => exact absurd (fun _ => trivial) hall
  | openFile path flags =>
      cases hp
      refine treats_of_failsFast (fun _ => trivial) ?_ h hev
      exact opens_failsFast openFile_surfaces (fun _ => rfl) fun _ => ⟨_, rfl⟩
  | openDir path =>
      cases hp
      refine treats_of_failsFast (fun _ => trivial) ?_ h hev
      exact opens_failsFast openDir_surfaces (fun _ => rfl) fun _ => ⟨_, rfl⟩
  | file handle op =>
      obtain ⟨file, -, rfl⟩ := Option.map_eq_some_iff.mp hp
      by_cases hall : ∀ c, Checks (.file handle op) c
      · refine treats_of_failsFast hall ?_ h hev
        exact (fileOp_failsFast hall).bind (fun _ r hr => ⟨_, rfl, hr⟩) fun _ => trivial
      · cases op with
        | metadata =>
            change Exec E (answeringWith .metadata file.metadata >>= _) s tr o t at h
            rw [answeringWith, File.metadata, Prog.bind_assoc, Prog.bind_assoc] at h
            exact treats_metadata Iff.rfl h hev
        | _ => exact absurd (fun _ => trivial) hall
  | dir handle op =>
      obtain ⟨dir, -, rfl⟩ := Option.map_eq_some_iff.mp hp
      refine treats_of_failsFast (fun _ => trivial) ?_ h hev
      cases op with
      | nextEntry => exact failsFast_codeless_bind (fun _ => rfl) fun _ => trivial
      | next => exact failsFast_codeless_bind (fun _ => rfl) fun _ => trivial
      | rewind => exact failsFast_codeless_bind (fun _ => rfl) fun _ => trivial
  | dropFile handle =>
      obtain ⟨file, -, rfl⟩ := Option.map_eq_some_iff.mp hp
      refine treats_of_ensures id ?_ h
      exact ⟨trivial, fun _ => ⟨_, rfl⟩⟩
  | dropDir handle =>
      obtain ⟨dir, -, rfl⟩ := Option.map_eq_some_iff.mp hp
      refine treats_of_ensures id ?_ h
      exact ⟨trivial, fun _ => ⟨_, rfl⟩⟩

end Performing

/-! ## The device behind a call -/

/-- The device fails a transfer with `e`, and the callback that asked for it
returns `code`. -/
inductive DeviceFails (D : Type) [BlockDevice D] (build : Build) (e : Error) (code : Int32) : Prop
  | read {wrapper after : BlockDeviceWrapper D} {buf buf' : RawMemory} {blkId : UInt64}
      {blkCnt : UInt32} {out : Bytes} {device : D} :
      BlockDevice.readBlocks build wrapper.device blkId (transferSlice wrapper buf blkCnt) =
        .ok (.error e, out, device) →
      blockdevBread build wrapper buf blkId blkCnt = .ok (code, buf', after) →
      DeviceFails D build e code
  | write {wrapper after : BlockDeviceWrapper D} {buf : RawMemory} {blkId : UInt64}
      {blkCnt : UInt32} {device : D} :
      BlockDevice.writeBlocks build wrapper.device blkId (transferSlice wrapper buf blkCnt) =
        .ok (.error e, device) →
      blockdevBwrite build wrapper buf blkId blkCnt = .ok (code, after) →
      DeviceFails D build e code

/-- An operating-system error of a code that the checks take for something
other than a failure of the device. -/
def Mistakable (e : Error) : Prop :=
  ∃ io code, e = .io io ∧ io.rawOsError = some code ∧ (code = 0 ∨ code ∈ answerCodes)

/-- The caller gets an error that says nothing about the namespace. -/
def GivesError (o : Outcome ApiResult) : Prop :=
  ∃ e, o = .ok (.error e) ∧ ¬ IsAnswer (unwrapIo e)

/-- The caller gets such an error, and gets it for this call. -/
def ReportsFailure (ev : SysEvent) (o : Outcome ApiResult) : Prop :=
  ∃ e, o = .ok (.error e) ∧ MadeOf (returnCode ev.1 ev.2) (unwrapIo e) ∧ ¬ IsAnswer (unwrapIo e)

theorem DeviceFails.code_eq {D : Type} [BlockDevice D] {build : Build} {e : Error} {code : Int32}
    (h : DeviceFails D build e code) : code = callbackErrno e := by
  cases h with
  | read hread hcallback =>
      rw [blockdevBread_eq hread] at hcallback
      cases hcallback
      rfl
  | write hwrite hcallback =>
      rw [blockdevBwrite_eq hwrite] at hcallback
      cases hcallback
      rfl

theorem mistakable_iff {e : Error} :
    Mistakable e ↔ callbackErrno e = 0 ∨ callbackErrno e ∈ answerCodes := by
  -- the errno of every other error
  have hother : ¬ (callbackErrno .noSpace = 0 ∨ callbackErrno .noSpace ∈ answerCodes) := by decide
  constructor
  · rintro ⟨io, code, rfl, hraw, hcode⟩
    rw [callbackErrno, hraw]
    exact hcode
  · intro h
    cases e with
    | io io =>
        cases hraw : io.rawOsError with
        | some code =>
            rw [callbackErrno, hraw] at h
            exact ⟨io, code, rfl, hraw, h⟩
        | none =>
            rw [callbackErrno, hraw] at h
            exact absurd h hother
    | _ => exact absurd h hother

section Reporting

variable {build : Build} {E : Environment Call Reply} {a b : Option Client × E.State}
  {performed : Performed} {ev : SysEvent}

theorem step_surfaces (h : Client.Step build E a performed b) (hev : ev ∈ performed.trace)
    (hchecks : Checks performed.op ev.1) (hfail : Failed ev) :
    ∃ result, performed.outcome = .ok result ∧ Tells ev result := by
  cases h with
  | returned hp hexec =>
      obtain ⟨_, ⟨⟩, htells⟩ := (perform_treats hp hexec hev).surfaces hchecks hfail
      exact ⟨_, rfl, htells⟩
  | halted hp hexec =>
      obtain ⟨_, ⟨⟩, -⟩ := (perform_treats hp hexec hev).surfaces hchecks hfail

theorem step_ignores (h : Client.Step build E a performed b) (hev : ev ∈ performed.trace)
    (hchecks : ¬ Checks performed.op ev.1) (e : Error) : performed.outcome ≠ .ok (.error e) := by
  intro ho
  cases h with
  | returned hp hexec =>
      obtain ⟨v, hv⟩ := (perform_treats hp hexec hev).ignores hchecks _ rfl
      cases ho
      cases hv
  | halted hp hexec => cases ho

/-- An error is about the call that failed, if one did. -/
theorem givesError_iff_of_failed (h : Client.Step build E a performed b)
    (hev : ev ∈ performed.trace) (hfail : Failed ev) :
    GivesError performed.outcome ↔ ReportsFailure ev performed.outcome := by
  constructor
  · rintro ⟨e, ho, hanswer⟩
    by_cases hchecks : Checks performed.op ev.1
    · obtain ⟨result, hresult, e', rfl, hmade⟩ := step_surfaces h hev hchecks hfail
      cases ho.symm.trans hresult
      exact ⟨e, ho, hmade, hanswer⟩
    · exact absurd ho (step_ignores h hev hchecks e)
  · rintro ⟨e, ho, -, hanswer⟩
    exact ⟨e, ho, hanswer⟩

theorem reportsFailure_iff (h : Client.Step build E a performed b) (hev : ev ∈ performed.trace) :
    ReportsFailure ev performed.outcome ↔ Checks performed.op ev.1 ∧
      ¬ (returnCode ev.1 ev.2 = 0 ∨ returnCode ev.1 ev.2 ∈ answerCodes) := by
  constructor
  · rintro ⟨e, ho, hmade, hanswer⟩
    refine ⟨?_, ?_⟩
    · by_contra hchecks
      exact step_ignores h hev hchecks e ho
    · rintro (hzero | hmem)
      · exact hmade.ne_zero hzero
      · exact hanswer (hmade.isAnswer_iff.mpr hmem)
  · rintro ⟨hchecks, hcode⟩
    obtain ⟨hne, hmem⟩ := not_or.mp hcode
    obtain ⟨_, ho, e, rfl, hmade⟩ := step_surfaces h hev hchecks hne
    exact ⟨e, ho, hmade, mt hmade.isAnswer_iff.mp hmem⟩

end Reporting

/-- In every run of a client, whatever the device and its error: a call that
returned what the callback made of the error is reported as a failure exactly
where the operation looks at its code and the error is not mistakable. Where
the code is not `0` no other error comes in its place. -/
theorem device_failure_reported_iff {D : Type} [BlockDevice D] {build : Build}
    {E : Environment Call Reply} {a b : Option Client × E.State} {run : List Performed}
    (h : Runs (Client.Step build E) a run b) {performed : Performed} (hp : performed ∈ run)
    {ev : SysEvent} (hev : ev ∈ performed.trace) {e : Error}
    (hfails : DeviceFails D build e (returnCode ev.1 ev.2)) :
    (ReportsFailure ev performed.outcome ↔ Checks performed.op ev.1 ∧ ¬ Mistakable e) ∧
      (callbackErrno e ≠ 0 →
        (GivesError performed.outcome ↔ Checks performed.op ev.1 ∧ ¬ Mistakable e)) := by
  obtain ⟨u, v, hstep, -⟩ := h.forall_mem (I := fun _ => True) (fun _ _ _ _ _ => trivial) trivial
    performed hp
  have hiff : ReportsFailure ev performed.outcome ↔
      Checks performed.op ev.1 ∧ ¬ Mistakable e := by
    rw [reportsFailure_iff hstep hev, mistakable_iff, hfails.code_eq]
  refine ⟨hiff, ?_⟩
  intro hne
  have hfail : Failed ev := by
    rw [Failed, hfails.code_eq]
    exact hne
  exact (givesError_iff_of_failed hstep hev hfail).trans hiff

/-! ## A store that fails -/

/-- A device of eight-byte blocks that fails every transfer with its error. -/
structure FailingDevice where
  error : Error

instance : BlockDevice FailingDevice where
  readBlocks _ self _ buf := .ok (.error self.error, buf, self)
  writeBlocks _ self _ _ := .ok (.error self.error, self)
  flush self := .ok (.ok (), self)
  blockSize _ := 8
  blockCount _ := 8

def failingWrapper (e : Error) : BlockDeviceWrapper FailingDevice :=
  ⟨⟨e⟩, stalledWrapper.bdev⟩

theorem failingDevice_fails (e : Error) :
    DeviceFails FailingDevice .checked e (callbackErrno e) := by
  have hread : BlockDevice.readBlocks .checked (failingWrapper e).device 0
      (transferSlice (failingWrapper e) (fun _ => 0) 1) = .ok (.error e, _, ⟨e⟩) := rfl
  have hcallback := blockdevBread_eq hread
  exact .read hread hcallback

/-- The lookup of a path, of which the call fails. -/
def failedLookup (op : FsOp) (p : CString) (code : Int32) (result : ApiResult) : Performed :=
  ⟨.fs op, .ok result, [⟨.ext4ModeGet p 0, (code, 0)⟩]⟩

theorem metadata_failed {p : CString} (hp : sampleFs.makePath "log" = .ok p) {code : Int32}
    {e : Error} (hcheck : checkErrnoWithPath code "log" = .error e) :
    Client.Step .checked (.chaos Call Reply) (some (.mounted sampleFs), ())
      (failedLookup (.metadata "log") p code (.error e)) (some (.mounted sampleFs), ()) := by
  have hmeta := MetadataTrace.exec hp (.missing 0 hcheck)
  have hperform : Exec _ (FsOp.perform sampleFs (.metadata "log")) _ _ _ _ := hmeta.bind_done rfl
  exact .returned rfl (hperform.bind_done rfl)

theorem existsPath_failed {p : CString} (hp : sampleFs.makePath "log" = .ok p) {code : Int32}
    {e : Error} (hcheck : checkErrnoWithPath code "log" = .error e) :
    Client.Step .checked (.chaos Call Reply) (some (.mounted sampleFs), ())
      (failedLookup (.existsPath "log") p code (.ok (.bool false)))
      (some (.mounted sampleFs), ()) := by
  have hmeta := MetadataTrace.exec hp (.missing 0 hcheck)
  have hexists : Exec _ (sampleFs.existsPath "log") _ _ _ _ := hmeta.bind_done rfl
  have hperform : Exec _ (FsOp.perform sampleFs (.existsPath "log")) _ _ _ _ :=
    hexists.bind_done rfl
  exact .returned rfl (hperform.bind_done rfl)

/-- The general code of a failed transfer arrives as an error. -/
theorem device_failure_reported_iff_lookup :
    ∃ p, sampleFs.makePath "log" = .ok p ∧
      (ReportsFailure ⟨.ext4ModeGet p 0, ((5 : Int32), 0)⟩ (.ok (.error (.filesystem 5))) ↔
        Checks (.fs (.metadata "log")) (.ext4ModeGet p 0) ∧ ¬ Mistakable (.io (.os 5))) := by
  obtain ⟨p, hp⟩ := sampleFs_log
  have hcheck : checkErrnoWithPath 5 "log" = .error (.filesystem 5) := by decide
  have hrun := Runs.single (metadata_failed hp hcheck)
  exact ⟨p, hp, (device_failure_reported_iff hrun List.mem_cons_self List.mem_cons_self
    (failingDevice_fails (.io (.os 5)))).1⟩

/-- The store is gone, its reads fail with `ENOENT`, and the path is said to be
missing. -/
theorem failed_store_reported_missing :
    DeviceFails FailingDevice .checked (.io (.os ENOENT)) ENOENT ∧
      ∃ p, sampleFs.makePath "log" = .ok p ∧
        Runs (Client.Step .checked (.chaos Call Reply)) (some (.mounted sampleFs), ())
          [failedLookup (.metadata "log") p ENOENT (.error (.notFound "log")),
            failedLookup (.existsPath "log") p ENOENT (.ok (.bool false))]
          (some (.mounted sampleFs), ()) ∧
        ¬ GivesError (failedLookup (.metadata "log") p ENOENT (.error (.notFound "log"))).outcome ∧
        ¬ GivesError (failedLookup (.existsPath "log") p ENOENT (.ok (.bool false))).outcome := by
  obtain ⟨p, hp⟩ := sampleFs_log
  have hcheck : checkErrnoWithPath ENOENT "log" = .error (.notFound "log") := rfl
  refine ⟨failingDevice_fails _, p, hp, ?_, ?_, ?_⟩
  · exact .cons (metadata_failed hp hcheck) (.single (existsPath_failed hp hcheck))
  · rintro ⟨e, he, hanswer⟩
    cases he
    exact hanswer trivial
  · rintro ⟨e, he, -⟩
    cases he

end Ext4Lwext4.Metatheory
