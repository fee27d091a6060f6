import Ext4Lwext4.Framework.Commits
import Ext4Lwext4.Metatheory.MetadataReports

/-! # The namespace follows from the results

Nothing a client is told about paths comes from the crate: every operation
hands its change to lwext4 and passes on the code. Whatever the changes do to
the namespace, its state after a run is therefore that of the results alone:
an `Ok` is the whole change and an error is none of it. Two operations are apart.
`mkdir` makes two calls for one change, and an error of it may have made the
directory. `rmdir` is one call that removes a whole tree, and where it fails
nothing is asked of how far it came. -/

namespace Ext4Lwext4.Metatheory

open Ext4Lwext4.Framework Ext4Lwext4.Model

/-- The calls that may change which paths there are, and the modes and owners
of what they name. -/
def changesNames : Call → Bool
  | .ext4Fopen2 _ _ flags => flags &&& O_CREAT != 0
  | .ext4Fremove _ | .ext4Frename _ _ | .ext4Flink _ _ | .ext4Fsymlink _ _ | .ext4DirMk _
  | .ext4DirRm _ | .ext4ModeSet _ _ | .ext4OwnerSet _ _ _ => true
  | _ => false

/-- Such a call that succeeded. -/
def changedNames (ev : SysEvent) : Bool := changesNames ev.1 && returnCode ev.1 ev.2 == 0

/-- `ext4_dir_rm` removes a directory with all that is in it. -/
def removesTree : Call → Bool
  | .ext4DirRm _ => true
  | _ => false

/-- Such a call that failed: it may have removed a part. -/
def halfRemoved (ev : SysEvent) : Bool := removesTree ev.1 && returnCode ev.1 ev.2 != 0

/-! ## What an operation promises -/

/-- The calls for a path, if it can be handed to lwext4. -/
def withPath (fs : Ext4Fs) (path : String) (f : CString → List Call) : List Call :=
  match fs.makePath path with
  | .ok p => f p
  | .error _ => []

def symlinkChange (fs : Ext4Fs) (target path : String) : List Call :=
  match CString.new (strBytes target) with
  | .ok t => withPath fs path fun p => [.ext4Fsymlink t p]
  | .error _ => []

/-- A file is created where it is opened to be; whether there was one is up to lwext4. -/
def openChange (fs : Ext4Fs) (path : String) (flags : OpenFlags) : List Call :=
  if flags.contains .CREATE then withPath fs path fun p => [.ext4Fopen2 .default p flags.toRaw]
  else []

/-- The changes of an operation that returns `Ok`. -/
def promised (fs : Ext4Fs) : ApiOp → List Call
  | .fs (.mkdir path mode) => withPath fs path fun p =>
      .ext4DirMk p :: if mode ≠ 0 then [.ext4ModeSet p mode] else []
  | .fs (.remove path) => withPath fs path fun p => [.ext4Fremove p]
  | .fs (.rmdir path) => withPath fs path fun p => [.ext4DirRm p]
  | .fs (.rename src dst) => withPath fs src fun p => withPath fs dst fun q => [.ext4Frename p q]
  | .fs (.link src dst) => withPath fs src fun p => withPath fs dst fun q => [.ext4Flink p q]
  | .fs (.symlink target path) => symlinkChange fs target path
  | .fs (.setPermissions path mode) => withPath fs path fun p => [.ext4ModeSet p mode]
  | .fs (.setOwner path uid gid) => withPath fs path fun p => [.ext4OwnerSet p uid gid]
  | .openFile path flags => openChange fs path flags
  | _ => []

/-- A `mkdir` that made the directory and could not set its mode. -/
def HalfMade (fs : Ext4Fs) (op : ApiOp) (cs : List Call) : Prop :=
  ∃ path mode p, op = .fs (.mkdir path mode) ∧ mode ≠ 0 ∧ fs.makePath path = .ok p ∧
    cs = [.ext4DirMk p]

/-- What an operation committed, against what it returned. -/
def Reveals (fs : Ext4Fs) (op : ApiOp) (outcome : Outcome ApiResult) (cs : List Call) : Prop :=
  match outcome with
  | .ok (.ok _) => cs = promised fs op
  | .ok (.error _) => cs = [] ∨ HalfMade fs op cs
  | .error _ => cs = []

/-! ## The operations that change something -/

/-- It returns, and has made all of a change or nothing, by its result. -/
def Settles {α : Type} (change : List Call) (cs : List Call) : Outcome (Except Error α) → Prop
  | .ok (.ok _) => cs = change
  | .ok (.error _) => cs = []
  | .error _ => False

/-- A call of which the program goes on with the code alone. -/
def SettlesCode (c : Call) (cs : List Call) (o : Outcome Int32) : Prop :=
  ∃ code, o = .ok code ∧ cs = if code = 0 then [c] else []

theorem changedNames_of {c : Call} (hc : changesNames c = true) (r : Reply c) :
    (if changedNames ⟨c, r⟩ then [c] else []) ++ [] = if returnCode c r = 0 then [c] else [] := by
  simp only [changedNames, hc, Bool.true_and, beq_iff_eq, List.append_nil]

section Operations

variable {fs : Ext4Fs} {path : String}

/-- The check of the code of the one call of an operation. -/
theorem settles_check {c : Call} {cs : List Call} {code : Int32} {x : Except Error Unit}
    (hcs : cs = if code = 0 then [c] else []) (hx : x = .ok () ↔ code = 0) :
    Settles [c] cs (.ok x) := by
  by_cases hcode : code = 0
  · rw [hx.mpr hcode, hcs, if_pos hcode]
    exact rfl
  · cases x with
    | ok u => exact absurd (hx.mp rfl) hcode
    | error e =>
        rw [hcs, if_neg hcode]
        exact rfl

theorem changePath_commits {call : CString → Sys Int32} {c : CString → Call}
    (h : ∀ p, (call p).Commits changedNames (SettlesCode (c p))) :
    (fs.changePath path call).run.Commits changedNames
      (Settles (withPath fs path fun p => [c p])) := by
  unfold Ext4Fs.changePath withPath
  cases fs.readOnly with
  | true => exact rfl
  | false =>
      cases fs.makePath path with
      | error e => exact rfl
      | ok p =>
          show Prog.Commits _ (ExceptT.run (liftM (call p) >>= _)) _
          rw [run_lift_bind]
          refine Prog.commits_bind_done (h p) ?_ ?_
          · rintro cs why ⟨code, ho, -⟩
            cases ho
          · rintro cs ret ⟨code, ho, hcs⟩
            cases ho
            exact settles_check hcs checkErrnoWithPath_eq_ok

theorem changePaths_commits {src dst : String} {call : CString → CString → Sys Int32}
    {c : CString → CString → Call}
    (h : ∀ p q, (call p q).Commits changedNames (SettlesCode (c p q))) :
    (fs.changePaths src dst call).run.Commits changedNames
      (Settles (withPath fs src fun p => withPath fs dst fun q => [c p q])) := by
  unfold Ext4Fs.changePaths withPath
  cases fs.readOnly with
  | true => exact rfl
  | false =>
      cases fs.makePath src with
      | error e => exact rfl
      | ok p =>
          cases fs.makePath dst with
          | error e => exact rfl
          | ok q =>
              show Prog.Commits _ (ExceptT.run (liftM (call p q) >>= _)) _
              rw [run_lift_bind]
              refine Prog.commits_bind_done (h p q) ?_ ?_
              · rintro cs why ⟨code, ho, -⟩
                cases ho
              · rintro cs ret ⟨code, ho, hcs⟩
                cases ho
                exact settles_check hcs checkErrnoWithPath_eq_ok

theorem symlink_commits {target : String} : (fs.symlink target path).run.Commits changedNames
    (Settles (symlinkChange fs target path)) := by
  unfold Ext4Fs.symlink symlinkChange withPath
  cases fs.readOnly with
  | true => exact rfl
  | false =>
      cases CString.new (strBytes target) with
      | error e => exact rfl
      | ok t =>
          cases fs.makePath path with
          | error e => exact rfl
          | ok p =>
              intro r
              exact settles_check (changedNames_of (c := .ext4Fsymlink t p) rfl r)
                checkErrnoWithPath_eq_ok

theorem setPermissions_commits {mode : UInt32} :
    (fs.setPermissions path mode).run.Commits changedNames
      (Settles (withPath fs path fun p => [.ext4ModeSet p mode])) :=
  changePath_commits (c := fun p => .ext4ModeSet p mode)
    fun p r => ⟨r, rfl, changedNames_of (c := .ext4ModeSet p mode) rfl r⟩

theorem setOwner_commits {uid gid : UInt32} : (fs.setOwner path uid gid).run.Commits changedNames
    (Settles (withPath fs path fun p => [.ext4OwnerSet p uid gid])) :=
  changePath_commits (c := fun p => .ext4OwnerSet p uid gid)
    fun p r => ⟨r, rfl, changedNames_of (c := .ext4OwnerSet p uid gid) rfl r⟩

theorem remove_commits : (fs.remove path).run.Commits changedNames
    (Settles (withPath fs path fun p => [.ext4Fremove p])) :=
  changePath_commits (c := .ext4Fremove)
    fun p r => ⟨r, rfl, changedNames_of (c := .ext4Fremove p) rfl r⟩

theorem rmdir_commits : (fs.rmdir path).run.Commits changedNames
    (Settles (withPath fs path fun p => [.ext4DirRm p])) :=
  changePath_commits (c := .ext4DirRm)
    fun p r => ⟨r, rfl, changedNames_of (c := .ext4DirRm p) rfl r⟩

theorem rename_commits {src dst : String} : (fs.rename src dst).run.Commits changedNames
    (Settles (withPath fs src fun p => withPath fs dst fun q => [.ext4Frename p q])) :=
  changePaths_commits (c := .ext4Frename)
    fun p q r => ⟨r, rfl, changedNames_of (c := .ext4Frename p q) rfl r⟩

theorem link_commits {src dst : String} : (fs.link src dst).run.Commits changedNames
    (Settles (withPath fs src fun p => withPath fs dst fun q => [.ext4Flink p q])) :=
  changePaths_commits (c := .ext4Flink)
    fun p q r => ⟨r, rfl, changedNames_of (c := .ext4Flink p q) rfl r⟩

/-- `mkdir` settles the directory and, behind that, its mode. -/
theorem mkdir_commits {mode : UInt32} : (fs.mkdir path mode).run.Commits changedNames
    fun cs o => Reveals fs (.fs (.mkdir path mode)) (o.map fun r => r.map fun _ => .unit) cs := by
  have hmake : (fs.changePath path fun p => sys (.ext4DirMk p)).run.Commits changedNames
      (Settles (withPath fs path fun p => [.ext4DirMk p])) :=
    changePath_commits fun p r => ⟨r, rfl, changedNames_of (c := .ext4DirMk p) rfl r⟩
  unfold Ext4Fs.mkdir
  rw [run_bind]
  refine Prog.commits_bind hmake (fun cs why h => h.elim) ?_
  rintro cs (e | u) (rfl : cs = _)
  · exact .inl rfl
  · by_cases hmode : mode = 0
    · subst hmode
      show _ ++ [] = withPath fs path fun p => [.ext4DirMk p]
      exact List.append_nil _
    · show Prog.Commits _
        (ExceptT.run (if mode ≠ 0 then fs.setPermissions path mode else pure ())) _
      rw [if_pos hmode]
      refine setPermissions_commits.mono ?_
      -- both calls are for the one path, if there is one
      rintro ds (why | e | u) h
      · exact h.elim
      · obtain rfl : ds = [] := h
        cases hp : fs.makePath path with
        | error e' =>
            refine .inl ?_
            simp only [withPath, hp, List.append_nil]
        | ok p =>
            refine .inr ⟨path, mode, p, rfl, hmode, hp, ?_⟩
            simp only [withPath, hp, List.append_nil]
      · obtain rfl : ds = withPath fs path fun p => [.ext4ModeSet p mode] := h
        show _ ++ _ = withPath fs path fun p => .ext4DirMk p :: if mode ≠ 0 then _ else _
        unfold withPath
        cases fs.makePath path with
        | error e => rfl
        | ok p =>
            show [Call.ext4DirMk p] ++ _ = .ext4DirMk p :: if mode ≠ 0 then _ else _
            rw [if_pos hmode]
            rfl

/-- lwext4 is told to create a file by a bit of the flags. -/
theorem openFile_changes {flags : OpenFlags} {p : CString}
    (r : Reply (.ext4Fopen2 .default p flags.toRaw)) :
    (if changedNames ⟨.ext4Fopen2 .default p flags.toRaw, r⟩ then
        [Call.ext4Fopen2 .default p flags.toRaw] else []) ++ [] =
      if r.1 = 0 then
        if flags.contains .CREATE then [.ext4Fopen2 .default p flags.toRaw] else []
      else [] := by
  have hcreat := flags.toRaw_creat
  rw [List.append_nil]
  by_cases hcreate : flags.contains .CREATE = true
  · have hnames : changesNames (.ext4Fopen2 .default p flags.toRaw) = true :=
      bne_iff_ne.mpr (hcreat.mpr hcreate)
    rw [if_pos hcreate, ← List.append_nil (ite _ _ _)]
    exact changedNames_of hnames r
  · have hnames : changesNames (.ext4Fopen2 .default p flags.toRaw) = false :=
      bne_eq_false_iff_eq.mpr (not_not.mp fun h => hcreate (hcreat.mp h))
    simp only [changedNames, hnames, Bool.false_and, Bool.false_eq_true, if_false, hcreate,
      ite_self]

theorem openFile_commits {flags : OpenFlags} : (File.openFile fs path flags).run.Commits
    changedNames (Settles (openChange fs path flags)) := by
  unfold File.openFile openChange withPath
  cases fs.makePath path with
  | error e => exact rfl
  | ok p =>
      intro r
      have hcs := openFile_changes r
      show Prog.Commits _ (ExceptT.run (liftM (checkErrnoWithPath r.1 path) >>= _)) _
      cases hcheck : checkErrnoWithPath r.1 path with
      | error e =>
          refine hcs.trans ?_
          exact if_neg (checkErrnoWithPath_ne_zero hcheck)
      | ok u =>
          refine hcs.trans ?_
          exact if_pos (checkErrnoWithPath_eq_ok.mp hcheck)

end Operations

/-! ## Every operation -/

section Perform

variable {fs : Ext4Fs} {op : ApiOp} {build : Build} {client : Client}

theorem reveals_nil (hop : promised fs op = []) (o : Outcome ApiResult) : Reveals fs op o [] := by
  rcases o with why | e | v
  · exact rfl
  · exact .inl rfl
  · exact hop.symm

theorem reveals_answering {α : Type} {f : α → ApiValue} {p : Sys (Except Error α)}
    (hp : p.Commits changedNames (Settles (promised fs op))) :
    (answering f p).Commits changedNames fun cs o => Reveals fs op o cs := by
  refine Prog.commits_bind_done hp (fun cs why h => h.elim) ?_
  rintro cs (e | a) h
  · exact .inl h
  · exact h

/-- An operation that can make no change promises none. -/
theorem perform_quiet (hclient : ClientOf fs client) {p : Sys (ApiResult × Client)}
    (h : client.perform build op = some p) (hop : promised fs op = [])
    (hquiet : ∀ c, MayCall fs op c → changesNames c = false) :
    p.Commits changedNames fun cs o => Reveals fs op (o.map Prod.fst) cs := by
  have hcalls : p.AllCalls fun c => ∀ r, changedNames ⟨c, r⟩ = false := by
    refine (perform_ensures hclient h).mono (fun c hc r => ?_) fun _ _ => trivial
    rw [changedNames, hquiet c hc, Bool.false_and]
  refine (Prog.commits_of_allCalls hcalls).mono ?_
  rintro cs o rfl
  exact reveals_nil hop _

/-- An operation of `Ext4Fs` leaves the client as it is. -/
theorem perform_fs {q : FsOp} (h : (q.perform fs).Commits changedNames
      fun cs o => Reveals fs (.fs q) o cs) (client : Client) :
    (q.perform fs >>= fun result => .done (result, client)).Commits changedNames
      fun cs o => Reveals fs (.fs q) (o.map Prod.fst) cs :=
  Prog.commits_bind_done h (fun _ _ h => h) fun _ _ h => h

theorem MetadataCall.names {path : String} {c : Call} (h : MetadataCall fs path c) :
    changesNames c = false := by
  cases h with
  | fopen _ => exact (by decide : (OpenFlags.toRaw .READ &&& O_CREAT != 0) = false)
  | _ => rfl

/-- No operation of a file changes a name. -/
theorem FileMayCall.names {path : String} {q : FileOp} {c : Call} (h : FileMayCall fs path q c) :
    changesNames c = false := by
  have hseek : ∀ {c}, (∃ inner, c = Call.ext4Ftell inner ∨ ∃ off origin,
      c = .ext4Fseek inner off origin) → changesNames c = false := by
    rintro c ⟨inner, rfl | ⟨off, origin, rfl⟩⟩ <;> rfl
  have hwhole : ∀ {c}, FileMayCall.ReadsWhole c → changesNames c = false := by
    rintro c ⟨inner, rfl | rfl | ⟨off, origin, rfl⟩ | ⟨buf, rfl⟩⟩ <;> rfl
  cases q with
  | read buf => obtain ⟨inner, part, rfl⟩ := h; rfl
  | ioRead buf => obtain ⟨inner, part, rfl⟩ := h; rfl
  | write buf => obtain ⟨inner, part, rfl⟩ := h; rfl
  | ioWrite buf => obtain ⟨inner, part, rfl⟩ := h; rfl
  | writeAll fuel buf => obtain ⟨-, -, inner, part, rfl⟩ := h; rfl
  | seek pos => exact hseek h
  | ioSeek pos => exact hseek h
  | position => obtain ⟨inner, rfl⟩ := h; rfl
  | size => obtain ⟨inner, rfl⟩ := h; rfl
  | truncate size => obtain ⟨inner, rfl⟩ := h; rfl
  | flush => exact h.elim
  | ioFlush => exact h.elim
  | sync => rw [show c = _ from h]; rfl
  | metadata => exact MetadataCall.names h
  | readToEnd fuel buf => exact hwhole h
  | readToString fuel text => exact hwhole h

/-- However an operation goes, its result says what it has changed. -/
theorem perform_reveals (hclient : ClientOf fs client) {p : Sys (ApiResult × Client)}
    (h : client.perform build op = some p) :
    p.Commits changedNames fun cs o => Reveals fs op (o.map Prod.fst) cs := by
  have hquiet := perform_quiet hclient h
  cases op with
  | fs q =>
      have hfs := hclient.fs_eq
      subst hfs
      cases q with
      | mkdir path mode =>
          cases h
          refine perform_fs (q := .mkdir path mode) ?_ client
          exact Prog.commits_bind_done mkdir_commits (fun _ _ h => h) fun _ _ h => h
      | remove path =>
          cases h
          exact perform_fs (q := .remove path) (reveals_answering remove_commits) client
      | rmdir path =>
          cases h
          exact perform_fs (q := .rmdir path) (reveals_answering rmdir_commits) client
      | rename src dst =>
          cases h
          exact perform_fs (q := .rename src dst) (reveals_answering rename_commits) client
      | link src dst =>
          cases h
          exact perform_fs (q := .link src dst) (reveals_answering link_commits) client
      | symlink target path =>
          cases h
          exact perform_fs (q := .symlink target path) (reveals_answering symlink_commits) client
      | setPermissions path mode =>
          cases h
          exact perform_fs (q := .setPermissions path mode)
            (reveals_answering setPermissions_commits) client
      | setOwner path uid gid =>
          cases h
          exact perform_fs (q := .setOwner path uid gid) (reveals_answering setOwner_commits) client
      | isReadOnly => exact hquiet rfl nofun
      | stat => exact hquiet rfl fun c hc => by rw [show c = _ from hc]; rfl
      | sync => exact hquiet rfl fun c hc => by rw [show c = _ from hc]; rfl
      | readlink path =>
          refine hquiet rfl ?_
          rintro c ⟨p, buf, -, rfl⟩
          rfl
      | existsPath path => exact hquiet rfl fun c hc => MetadataCall.names hc
      | metadata path => exact hquiet rfl fun c hc => MetadataCall.names hc
      | isFile path =>
          refine hquiet rfl ?_
          rintro c ⟨p, type, -, rfl⟩
          rfl
      | isDir path =>
          refine hquiet rfl ?_
          rintro c ⟨p, type, -, rfl⟩
          rfl
  | openFile path flags =>
      have hfs := hclient.fs_eq
      subst hfs
      cases h
      refine Prog.commits_bind openFile_commits (fun cs why h => h.elim) ?_
      rintro cs (e | file) h
      · exact .inl ((List.append_nil cs).trans h)
      · exact (List.append_nil cs).trans h
  | openDir path =>
      refine hquiet rfl ?_
      rintro c ⟨p, -, rfl⟩
      rfl
  | file handle q =>
      refine hquiet rfl ?_
      rintro c ⟨path, hc⟩
      exact FileMayCall.names hc
  | dir handle q =>
      refine hquiet rfl ?_
      rintro c ⟨inner, rfl | rfl⟩ <;> rfl
  | dropFile handle =>
      refine hquiet rfl ?_
      rintro c ⟨inner, rfl⟩
      rfl
  | dropDir handle =>
      refine hquiet rfl ?_
      rintro c ⟨inner, rfl⟩
      rfl

end Perform

/-! ## Runs -/

/-- The changes the client was told of. -/
def told (fs : Ext4Fs) (e : Performed) : List Call :=
  match e.outcome with
  | .ok (.ok _) => promised fs e.op
  | _ => []

/-- A `mkdir` that was to set a mode, and failed. -/
def FailedMkdir (e : Performed) : Prop :=
  ∃ path mode err, e.op = .fs (.mkdir path mode) ∧ mode ≠ 0 ∧ e.outcome = .ok (.error err)

def FailedRmdir (e : Performed) : Prop :=
  ∃ path err, e.op = .fs (.rmdir path) ∧ e.outcome = .ok (.error err)

/-- An operation that may have changed something though it failed. -/
def LeavesOpen (e : Performed) : Prop := FailedMkdir e ∨ FailedRmdir e

theorem Reveals.eq_told {fs : Ext4Fs} {e : Performed} {cs : List Call}
    (h : Reveals fs e.op e.outcome cs) (he : ¬ FailedMkdir e) : cs = told fs e := by
  obtain ⟨op, outcome, trace⟩ := e
  rcases outcome with why | err | v
  · exact h
  · rcases h with h | ⟨path, mode, p, hop, hmode, -, -⟩
    · exact h
    · exact absurd ⟨path, mode, err, hop, hmode, rfl⟩ he
  · exact h

theorem not_leavesOpen_of_ok {e : Performed} {v : ApiValue} (h : e.outcome = .ok (.ok v)) :
    ¬ LeavesOpen e := by
  rintro (⟨_, _, _, -, -, herr⟩ | ⟨_, _, -, herr⟩)
  · cases h.symm.trans herr
  · cases h.symm.trans herr

section Run

variable {build : Build} {E : Environment Call Reply} {fs : Ext4Fs} {path : String}
  {a b : Option Client × E.State} {e : Performed} {performed : List Performed}
  {s t : E.State} {tr : List SysEvent}

/-- An operation of the instance, out of the step of its client. -/
theorem fsOp_exec {client : Client} {q : FsOp} (h : Client.Step build E (some client, s) e b)
    (hop : e.op = .fs q) : Exec E (q.perform client.fs) s e.trace e.outcome b.2 := by
  cases h with
  | returned hp hexec =>
      cases hop
      cases hp
      obtain ⟨result, u, tr₁, tr₂, rfl, hrun, hdone⟩ := hexec.bind_ok
      obtain ⟨rfl, ⟨⟩, rfl⟩ := Exec.done_iff.mp hdone
      rwa [List.append_nil]
  | halted hp hexec =>
      cases hop
      cases hp
      rcases Exec.bind_iff.mp hexec with ⟨result, u, tr₁, tr₂, -, -, hdone⟩ | ⟨why, ⟨⟩, hrun⟩
      · obtain ⟨-, ⟨⟩, -⟩ := Exec.done_iff.mp hdone
      · exact hrun

/-- Only `rmdir` removes a tree. -/
theorem MayCall.rmdir_of_removesTree {op : ApiOp} {c : Call} (h : MayCall fs op c)
    (hc : removesTree c = true) : ∃ path, op = .fs (.rmdir path) := by
  have hnames : changesNames c ≠ false := by
    cases c with
    | ext4DirRm p => exact Bool.noConfusion
    | _ => cases hc
  cases op with
  | fs q =>
      cases q with
      | rmdir path => exact ⟨path, rfl⟩
      | mkdir path mode =>
          obtain ⟨-, p, -, rfl | rfl⟩ := h
          · cases hc
          · cases hc
      | remove path | setPermissions path mode | setOwner path uid gid =>
          obtain ⟨-, p, -, rfl⟩ := h
          cases hc
      | rename src dst | link src dst =>
          obtain ⟨-, p, q, -, -, rfl⟩ := h
          cases hc
      | symlink target path =>
          obtain ⟨-, t, p, -, rfl⟩ := h
          cases hc
      | metadata path | existsPath path => exact absurd (MetadataCall.names h) hnames
      | isReadOnly => cases h
      | stat | sync =>
          cases h
          cases hc
      | readlink path =>
          obtain ⟨p, buf, -, rfl⟩ := h
          cases hc
      | isFile path | isDir path =>
          obtain ⟨p, type, -, rfl⟩ := h
          cases hc
  | openFile path flags =>
      obtain ⟨p, -, rfl⟩ := h
      cases hc
  | openDir path =>
      obtain ⟨p, -, rfl⟩ := h
      cases hc
  | file handle q =>
      obtain ⟨path, h⟩ := h
      exact absurd (FileMayCall.names h) hnames
  | dir handle q =>
      obtain ⟨inner, rfl | rfl⟩ := h
      · cases hc
      · cases hc
  | dropFile handle | dropDir handle =>
      obtain ⟨inner, rfl⟩ := h
      cases hc

/-- Where the one call of `rmdir` fails, the client is told. -/
theorem rmdir_tells {o : Outcome ApiResult}
    (h : Exec E (FsOp.perform fs (.rmdir path)) s tr o t) :
    (∀ ev ∈ tr, ¬ Failed ev) ∨ ∃ err, o = .ok (.error err) := by
  rw [FsOp.perform, Ext4Fs.rmdir] at h
  unfold Ext4Fs.changePath at h
  cases hro : fs.readOnly with
  | true =>
      rw [hro] at h
      obtain ⟨rfl, -, -⟩ := Exec.done_iff.mp h
      exact .inl fun ev hev => absurd hev List.not_mem_nil
  | false =>
      cases hp : fs.makePath path with
      | error err =>
          rw [hro, hp] at h
          obtain ⟨rfl, -, -⟩ := Exec.done_iff.mp h
          exact .inl fun ev hev => absurd hev List.not_mem_nil
      | ok p =>
          rw [hro, hp] at h
          obtain ⟨code, u, tr', rfl, -, h⟩ := Exec.call_iff.mp h
          obtain ⟨rfl, rfl, -⟩ := Exec.done_iff.mp h
          by_cases hcode : code = 0
          · left
            intro ev hev hfailed
            obtain rfl := List.mem_singleton.mp hev
            exact hfailed hcode
          · right
            cases hcheck : checkErrnoWithPath code path with
            | ok u => exact absurd (checkErrnoWithPath_eq_ok.mp hcheck) hcode
            | error err => exact ⟨err, rfl⟩

/-- Where no `rmdir` fails, it is clear what every call has done. -/
theorem step_clear (h : Client.Step build E a e b) (ha : Serves fs a) (he : ¬ FailedRmdir e) :
    ∀ ev ∈ e.trace, halfRemoved ev = false := by
  intro ev hev
  by_contra hhalf
  obtain ⟨htree, hfailed⟩ := Bool.and_eq_true_iff.mp (Bool.of_not_eq_false hhalf)
  obtain ⟨path, hop⟩ := (step_mayCall h ha ev hev).rmdir_of_removesTree htree
  obtain ⟨client, s⟩ := a
  cases client with
  | none => cases h
  | some client =>
      have hexec := fsOp_exec h hop
      rcases rmdir_tells hexec with hnone | ⟨err, herr⟩
      · exact hnone ev hev (bne_iff_ne.mp hfailed)
      · exact he ⟨path, err, hop, herr⟩

theorem step_reveals (h : Client.Step build E a e b) (ha : Serves fs a) :
    Reveals fs e.op e.outcome (committed changedNames e.trace) := by
  cases h with
  | returned hp hexec => exact (perform_reveals (ha _ rfl) hp).of_exec hexec
  | halted hp hexec => exact (perform_reveals (ha _ rfl) hp).of_exec hexec

theorem run_reveals (h : Runs (Client.Step build E) a performed b) (ha : Serves fs a) :
    ∀ e ∈ performed, Reveals fs e.op e.outcome (committed changedNames e.trace) := by
  intro e he
  obtain ⟨u, v, hstep, hu⟩ := h.forall_mem (I := Serves fs) (fun _ _ _ => step_serves) ha e he
  exact step_reveals hstep hu

section Observed

variable {N : Type*} {obs : E.State → N} {effect : N → Call → N}

theorem step_observed (hE : Observes E changedNames halfRemoved obs effect)
    (h : Client.Step build E a e b) (ha : Serves fs a) (he : ¬ FailedRmdir e) :
    obs b.2 = (committed changedNames e.trace).foldl effect (obs a.2) := by
  have hclear := step_clear h ha he
  cases h with
  | returned hp hexec => exact hE.exec hexec hclear
  | halted hp hexec => exact hE.exec hexec hclear

/-- The run lemma: the changes of the operations, one after another. -/
theorem run_observed (hE : Observes E changedNames halfRemoved obs effect)
    (h : Runs (Client.Step build E) a performed b) (ha : Serves fs a)
    (hrmdir : ∀ e ∈ performed, ¬ FailedRmdir e) :
    obs b.2 = (performed.flatMap fun e => committed changedNames e.trace).foldl effect
      (obs a.2) := by
  induction h with
  | nil _ => rfl
  | cons hstep _ ih =>
      rw [ih (step_serves hstep ha) fun e he => hrmdir e (List.mem_cons_of_mem _ he),
        step_observed hE hstep ha (hrmdir _ List.mem_cons_self), List.flatMap_cons,
        List.foldl_append]

/-- If no operation was left open, the results say it all. -/
theorem run_told (hE : Observes E changedNames halfRemoved obs effect)
    (h : Runs (Client.Step build E) a performed b) (ha : Serves fs a)
    (hopen : ∀ e ∈ performed, ¬ LeavesOpen e) :
    obs b.2 = (performed.flatMap (told fs)).foldl effect (obs a.2) := by
  have hchanges : (performed.flatMap fun e => committed changedNames e.trace) =
      performed.flatMap (told fs) := by
    rw [List.flatMap_def, List.flatMap_def]
    congr 1
    refine List.map_congr_left fun e he => ?_
    exact (run_reveals h ha e he).eq_told fun hmkdir => hopen e he (.inl hmkdir)
  rw [run_observed hE h ha fun e he hrmdir => hopen e he (.inr hrmdir), hchanges]

/-- Whatever the changes do to whatever is seen of the namespace, as long as a
call that fails does nothing to it, `ext4_dir_rm` apart: each operation of a run
is told by its result what it has changed. If no `rmdir` failed, what is seen
after the run is what these changes make of it; if no `mkdir` with a mode failed
either, they are those of the operations that returned `Ok`. -/
theorem namespace_follows_results (hE : Observes E changedNames halfRemoved obs effect)
    (h : Runs (Client.Step build E) a performed b) (ha : Serves fs a) :
    (∀ e ∈ performed, Reveals fs e.op e.outcome (committed changedNames e.trace)) ∧
    ((∀ e ∈ performed, ¬ FailedRmdir e) → obs b.2 =
      (performed.flatMap fun e => committed changedNames e.trace).foldl effect (obs a.2)) ∧
    ((∀ e ∈ performed, ¬ LeavesOpen e) →
      obs b.2 = (performed.flatMap (told fs)).foldl effect (obs a.2)) :=
  ⟨run_reveals h ha, run_observed hE h ha, run_told hE h ha⟩

end Observed

end Run

/-! ## Directories that come and go -/

/-- The state says which paths there are, as far as directories go. -/
def directoryEffect (paths : CString → Bool) : Call → CString → Bool
  | .ext4DirMk p => Function.update paths p true
  | .ext4DirRm p => Function.update paths p false
  | _ => paths

/-- After a removal that failed, anything may be left. -/
def directoriesLwext4 : Environment Call Reply where
  State := CString → Bool
  step s c r t := halfRemoved ⟨c, r⟩ = false →
    t = if changedNames ⟨c, r⟩ then directoryEffect s c else s

theorem changedNames_not_halfRemoved {ev : SysEvent} (h : changedNames ev = true) :
    halfRemoved ev = false := by
  obtain ⟨-, hcode⟩ := Bool.and_eq_true_iff.mp h
  rw [halfRemoved, bne, hcode, Bool.not_true, Bool.and_false]

theorem directoriesLwext4_observes :
    Observes directoriesLwext4 changedNames halfRemoved id directoryEffect where
  changed hc h := (h (changedNames_not_halfRemoved hc)).trans (if_pos hc)
  kept hc hclear h := (h hclear).trans (if_neg (by rw [hc]; exact Bool.false_ne_true))

/-- A directory is looked for where there is none, and then made. -/
def missedAndMade (p : CString) : List Performed :=
  [⟨.fs (.remove "log"), .ok (.error (.notFound "log")), [⟨.ext4Fremove p, ENOENT⟩]⟩,
    ⟨.fs (.mkdir "log" 0), .ok (.ok .unit), [⟨.ext4DirMk p, (0 : Int32)⟩]⟩]

theorem missedAndMade_run {p : CString} (hp : sampleFs.makePath "log" = .ok p) :
    Runs (Client.Step .checked directoriesLwext4) (some (.mounted sampleFs), fun _ => false)
      (missedAndMade p) (some (.mounted sampleFs), Function.update (fun _ => false) p true) := by
  have hmiss : Exec directoriesLwext4 (sampleFs.remove "log").run (fun _ => false)
      [⟨.ext4Fremove p, ENOENT⟩] (.ok (.error (.notFound "log"))) fun _ => false := by
    unfold Ext4Fs.remove Ext4Fs.changePath
    simp only [hp]
    exact .call (fun _ => rfl) (.done _ _)
  have hmake : Exec directoriesLwext4 (sampleFs.mkdir "log" 0).run (fun _ => false)
      [⟨.ext4DirMk p, (0 : Int32)⟩] (.ok (.ok ())) (Function.update (fun _ => false) p true) := by
    unfold Ext4Fs.mkdir Ext4Fs.changePath
    simp only [hp]
    exact .call (fun _ => rfl) (.done _ _)
  have hmissed : Exec _ (FsOp.perform sampleFs (.remove "log")) _ _ _ _ := hmiss.bind_done rfl
  have hmade : Exec _ (FsOp.perform sampleFs (.mkdir "log" 0)) _ _ _ _ := hmake.bind_done rfl
  exact .cons (.returned rfl (hmissed.bind_done rfl))
    (.single (.returned rfl (hmade.bind_done rfl)))

theorem missedAndMade_settled {p : CString} : ∀ e ∈ missedAndMade p, ¬ LeavesOpen e := by
  intro e he
  rcases List.mem_cons.mp he with rfl | he
  · rintro (⟨path, mode, err, hop, -, -⟩ | ⟨path, err, hop, -⟩)
    · cases hop
    · cases hop
  · obtain rfl := List.mem_singleton.mp he
    exact not_leavesOpen_of_ok rfl

theorem namespace_follows_results_directories : ∃ p, sampleFs.makePath "log" = .ok p ∧
    (∀ e ∈ missedAndMade p, Reveals sampleFs e.op e.outcome (committed changedNames e.trace)) ∧
    Function.update (fun _ => false) p true =
      ((missedAndMade p).flatMap (told sampleFs)).foldl directoryEffect fun _ => false := by
  obtain ⟨p, hp⟩ := sampleFs_log
  obtain ⟨hreveals, -, htold⟩ := namespace_follows_results directoriesLwext4_observes
    (missedAndMade_run hp) (serves_mounted _)
  exact ⟨p, hp, hreveals, htold missedAndMade_settled⟩

end Ext4Lwext4.Metatheory
