import Ext4Lwext4.Metatheory.Teardown

/-! # Read-only mounts

Eight operations check `read_only` before anything else. The four that open a
file for creation or truncation, write to it or truncate it do not, and hand
their call on to lwext4. -/

namespace Ext4Lwext4.Metatheory

open Ext4Lwext4.Framework Ext4Lwext4.Model

/-- The calls that change the contents of a filesystem. -/
def Mutates : Call → Prop
  | .ext4DirMk _ | .ext4Fremove _ | .ext4DirRm _ | .ext4Frename _ _ | .ext4Flink _ _
  | .ext4Fsymlink _ _ | .ext4ModeSet _ _ | .ext4OwnerSet _ _ _ | .ext4Fwrite _ _ _ _
  | .ext4Ftruncate _ _ | .ext4JournalStart _ => True
  | .ext4Fopen2 _ _ flags => flags &&& O_CREAT ≠ 0 ∨ flags &&& O_TRUNC ≠ 0
  | _ => False

/-- The operations that check `read_only`. -/
def Guarded : FsOp → Prop
  | .mkdir _ _ | .remove _ | .rmdir _ | .rename _ _ | .link _ _ | .symlink _ _
  | .setPermissions _ _ | .setOwner _ _ _ => True
  | _ => False

/-- The operations that need a content-changing call and check nothing. A path
with a NUL byte is refused before the call, and `write_all` needs one where it
has something to write and a round to write it in. -/
def Unguarded : ApiOp → Prop
  | .openFile path flags => 0 ∉ strBytes path ∧
      (flags.contains .CREATE = true ∨ flags.contains .TRUNCATE = true)
  | .file _ (.write _) | .file _ (.ioWrite _) | .file _ (.truncate _) => True
  | .file _ (.writeAll fuel buf) => 0 < fuel ∧ 0 < len buf
  | _ => False

/-- The operations that need a content-changing call. -/
def NeedsWrite (op : ApiOp) : Prop := (∃ fsOp, op = .fs fsOp ∧ Guarded fsOp) ∨ Unguarded op

/-- The operation was refused with `Error::ReadOnly`, by an `std::io` method
inside an `io::Error`. -/
def Refused (outcome : Outcome ApiResult) : Prop :=
  outcome = .ok (.error .readOnly) ∨
    outcome = .ok (.error (.io (.wrapped .other .readOnly)))

variable {fs : Ext4Fs}

/-! ## Guarded operations -/

theorem changePath_readOnly (hro : fs.readOnly = true) (path : String)
    (call : CString → Sys Int32) : (fs.changePath path call).run = .done (.error .readOnly) := by
  unfold Ext4Fs.changePath
  rw [hro]
  rfl

theorem changePaths_readOnly (hro : fs.readOnly = true) (src dst : String)
    (call : CString → CString → Sys Int32) :
    (fs.changePaths src dst call).run = .done (.error .readOnly) := by
  unfold Ext4Fs.changePaths
  rw [hro]
  rfl

theorem symlink_readOnly (hro : fs.readOnly = true) (target path : String) :
    (fs.symlink target path).run = .done (.error .readOnly) := by
  unfold Ext4Fs.symlink
  rw [hro]
  rfl

theorem mkdir_readOnly (hro : fs.readOnly = true) (path : String) (mode : UInt32) :
    (fs.mkdir path mode).run = .done (.error .readOnly) := by
  unfold Ext4Fs.mkdir
  rw [run_bind, changePath_readOnly hro]
  rfl

/-- The guard comes before everything else. -/
theorem guarded_refuses (hro : fs.readOnly = true) {op : FsOp} (h : Guarded op) :
    op.perform fs = .done (.error .readOnly) := by
  cases op with
  | mkdir path mode =>
      rw [FsOp.perform, mkdir_readOnly hro]
      rfl
  | remove path =>
      rw [FsOp.perform, Ext4Fs.remove, changePath_readOnly hro]
      rfl
  | rmdir path =>
      rw [FsOp.perform, Ext4Fs.rmdir, changePath_readOnly hro]
      rfl
  | rename src dst =>
      rw [FsOp.perform, Ext4Fs.rename, changePaths_readOnly hro]
      rfl
  | link src dst =>
      rw [FsOp.perform, Ext4Fs.link, changePaths_readOnly hro]
      rfl
  | symlink target path =>
      rw [FsOp.perform, symlink_readOnly hro]
      rfl
  | setPermissions path mode =>
      rw [FsOp.perform, Ext4Fs.setPermissions, changePath_readOnly hro]
      rfl
  | setOwner path uid gid =>
      rw [FsOp.perform, Ext4Fs.setOwner, changePath_readOnly hro]
      rfl
  | _ => cases h

/-! ## Calls -/

/-- The paths an instance does not refuse are those without a NUL byte. -/
theorem makePath_ok_iff (hfs : ∃ id, fs.mountPoint = mountPointOf id) {path : String} :
    (∃ p, fs.makePath path = .ok p) ↔ 0 ∉ strBytes path := by
  obtain ⟨id, hid⟩ := hfs
  constructor
  · rintro ⟨p, hp⟩ hnul
    obtain ⟨e, he⟩ := Ext4Fs.makePath_nul hid hnul
    cases hp.symm.trans he
  · intro hnul
    obtain ⟨p, hp, -⟩ := Ext4Fs.makePath_ok hid hnul
    exact ⟨p, hp⟩

theorem metadataCall_not_mutates {path : String} {c : Call} (h : MetadataCall fs path c) :
    ¬ Mutates c := by
  cases h with
  | fopen hp =>
      rintro (hm | hm)
      · exact absurd hm (by decide)
      · exact absurd hm (by decide)
  | _ => exact id

theorem fsMayCall_not_mutates (hro : fs.readOnly = true) {op : FsOp} {c : Call}
    (h : FsMayCall fs op c) : ¬ Mutates c := by
  have hguard : fs.readOnly ≠ false := by
    rw [hro]
    exact Bool.noConfusion
  cases op with
  | mkdir path mode | remove path | rmdir path | rename src dst | link src dst
  | symlink target path | setPermissions path mode | setOwner path uid gid =>
      exact absurd h.1 hguard
  | metadata path | existsPath path => exact metadataCall_not_mutates h
  | isReadOnly => cases h
  | stat | sync =>
      cases h
      exact id
  | readlink path =>
      obtain ⟨p, buf, -, rfl⟩ := h
      exact id
  | isFile path | isDir path =>
      obtain ⟨p, type, -, rfl⟩ := h
      exact id

theorem fileMayCall_not_mutates {path : String} {handle : ℕ} {op : FileOp} {c : Call}
    (hop : ¬ Unguarded (.file handle op)) (h : FileMayCall fs path op c) : ¬ Mutates c := by
  cases op with
  | write buf | ioWrite buf | truncate size => exact absurd trivial hop
  | writeAll fuel buf => exact absurd ⟨h.1, h.2.1⟩ hop
  | flush | ioFlush => cases h
  | sync =>
      cases h
      exact id
  | metadata => exact metadataCall_not_mutates h
  | read buf | ioRead buf =>
      obtain ⟨inner, part, rfl⟩ := h
      exact id
  | position | size =>
      obtain ⟨inner, rfl⟩ := h
      exact id
  | seek pos | ioSeek pos =>
      obtain ⟨inner, rfl | ⟨off, origin, rfl⟩⟩ := h
      · exact id
      · exact id
  | readToEnd fuel buf | readToString fuel buf =>
      obtain ⟨inner, rfl | rfl | ⟨off, origin, rfl⟩ | ⟨buf, rfl⟩⟩ := h
      · exact id
      · exact id
      · exact id
      · exact id

/-- Without an unguarded operation a read-only instance changes nothing. -/
theorem mayCall_not_mutates (hfs : ∃ id, fs.mountPoint = mountPointOf id)
    (hro : fs.readOnly = true) {op : ApiOp} {c : Call} (hop : ¬ Unguarded op)
    (h : MayCall fs op c) : ¬ Mutates c := by
  cases op with
  | fs op => exact fsMayCall_not_mutates hro h
  | openFile path flags =>
      obtain ⟨p, hp, rfl⟩ := h
      have hnul := (makePath_ok_iff hfs).mp ⟨p, hp⟩
      rintro (hm | hm)
      · exact hop ⟨hnul, .inl ((OpenFlags.toRaw_creat flags).mp hm)⟩
      · exact hop ⟨hnul, .inr ((OpenFlags.toRaw_trunc flags).mp hm)⟩
  | file handle op =>
      obtain ⟨path, h⟩ := h
      exact fileMayCall_not_mutates hop h
  | openDir path =>
      obtain ⟨p, -, rfl⟩ := h
      exact id
  | dir handle op =>
      obtain ⟨inner, rfl | rfl⟩ := h
      · exact id
      · exact id
  | dropFile handle | dropDir handle =>
      obtain ⟨inner, rfl⟩ := h
      exact id

/-! ## Unguarded operations -/

/-- What an operation on a read-only mount owes: no content-changing call, and
a refusal where it needs one. -/
structure Isolated (e : Performed) : Prop where
  calls : ∀ ev ∈ e.trace, ¬ Mutates ev.1
  refused : NeedsWrite e.op → Refused e.outcome

section Step

variable {build : Build} {E : Environment Call Reply} {s t : E.State} {tr : List SysEvent}
  {a b : Option Client × E.State} {e : Performed}

/-- A run that begins with a content-changing call is not isolated. -/
theorem exec_mutates {α : Type} {c : Call} {k : Reply c → Sys α} {o : Outcome α}
    (h : Exec E (.call c k) s tr o t) (hc : Mutates c) : ¬ ∀ ev ∈ tr, ¬ Mutates ev.1 := by
  obtain ⟨r, u, tr', rfl, -, -⟩ := Exec.call_iff.mp h
  exact fun hno => hno _ List.mem_cons_self hc

/-- A step of a live client is a run of its operation. -/
theorem step_exec {client : Client} (h : Client.Step build E (some client, s) e b) :
    ∃ p o, client.perform build e.op = some p ∧ Exec E p s e.trace o b.2 ∧
      e.outcome = o.map Prod.fst := by
  cases h with
  | returned hp hexec => exact ⟨_, _, hp, hexec, rfl⟩
  | halted hp hexec => exact ⟨_, _, hp, hexec, rfl⟩

/-- `write_all` begins with a write. -/
theorem writeAll_begins (build : Build) {fuel : ℕ} (hfuel : 0 < fuel) (file : File) {buf : Bytes}
    (hlen : 0 < len buf) :
    ∃ k, file.writeAll build fuel buf = .call (.ext4Fwrite file.inner buf (len buf) 0) k := by
  obtain ⟨fuel, rfl⟩ := Nat.exists_eq_succ_of_ne_zero hfuel.ne'
  have hslice : sliceRange buf 0 buf.length = .ok buf := by simp [sliceRange]
  unfold File.writeAll File.writeRest
  simp only [hlen, if_true]
  rw [show (0 : UInt64).toNat = 0 from rfl, hslice]
  exact ⟨_, rfl⟩

/-- An operation that needs a content-changing call and checks nothing makes
the call, or ends in some other way than the refusal. -/
theorem unguarded_not_isolated {client : Client} (hclient : ClientOf fs client)
    (hfs : ∃ id, fs.mountPoint = mountPointOf id)
    (h : Client.Step build E (some client, s) e b) (hop : Unguarded e.op) : ¬ Isolated e := by
  rintro ⟨hcalls, hrefused⟩
  obtain ⟨p, o, hp, hexec, hout⟩ := step_exec h
  have hrefused := hrefused (.inr hop)
  rw [hout] at hrefused
  obtain ⟨op, outcome, trace⟩ := e
  dsimp only at *
  cases op with
  | openFile path flags =>
      cases hp
      obtain ⟨p, hpath⟩ := (makePath_ok_iff hfs).mpr hop.1
      unfold File.openFile at hexec
      -- nothing stands between the path and `ext4_fopen2`
      rw [hclient.fs_eq, hpath] at hexec
      refine exec_mutates hexec ?_ hcalls
      rcases hop.2 with hflag | hflag
      · exact .inl ((OpenFlags.toRaw_creat flags).mpr hflag)
      · exact .inr ((OpenFlags.toRaw_trunc flags).mpr hflag)
  | file handle op =>
      obtain ⟨file, -, rfl⟩ := Option.map_eq_some_iff.mp hp
      cases op with
      | write buf => exact exec_mutates hexec trivial hcalls
      | ioWrite buf => exact exec_mutates hexec trivial hcalls
      | truncate size => exact exec_mutates hexec trivial hcalls
      | writeAll fuel buf =>
          rw [FileOp.perform] at hexec
          obtain ⟨k, hw⟩ := writeAll_begins build hop.1 file hop.2
          rw [hw] at hexec
          exact exec_mutates hexec trivial hcalls
      | _ => cases hop
  | _ => cases hop

theorem guarded_isolated {client : Client} (hclient : ClientOf fs client)
    (hfs : ∃ id, fs.mountPoint = mountPointOf id) (hro : fs.readOnly = true)
    (h : Client.Step build E (some client, s) e b) (hop : ¬ Unguarded e.op) : Isolated e := by
  have hserves : Serves fs (some client, s) := by
    rintro _ ⟨rfl⟩
    exact hclient
  refine ⟨fun ev hev => mayCall_not_mutates hfs hro hop (step_mayCall h hserves ev hev), ?_⟩
  rintro (⟨op, heq, hguarded⟩ | hun)
  · obtain ⟨p, o, hp, hexec, hout⟩ := step_exec h
    rw [heq] at hp
    cases hp
    rw [guarded_refuses (hclient.fs_eq ▸ hro) hguarded] at hexec
    obtain ⟨-, rfl, -⟩ := Exec.done_iff.mp hexec
    exact .inl hout
  · exact absurd hun hop

/-- One operation of a client on a read-only mount. -/
theorem step_isolated_iff {client : Client} (hclient : ClientOf fs client)
    (hfs : ∃ id, fs.mountPoint = mountPointOf id) (hro : fs.readOnly = true)
    (h : Client.Step build E (some client, s) e b) : Isolated e ↔ ¬ Unguarded e.op :=
  ⟨fun hi hop => unguarded_not_isolated hclient hfs h hop hi, guarded_isolated hclient hfs hro h⟩

end Step

/-! ## Whole runs -/

theorem mount_readOnly {tr : List SysEvent} (h : MountTrace true tr (.ok (.ok fs))) :
    fs.readOnly = true ∧ (∃ id, fs.mountPoint = mountPointOf id) ∧ ∀ ev ∈ tr, ¬ Mutates ev.1 := by
  cases h with
  | mounted id bdev wrapper hbody =>
      cases hbody with
      | readOnly recover => exact ⟨rfl, ⟨id, rfl⟩, by simp [Mutates]⟩

theorem finish_not_mutates {ending : Ending} {tr : List SysEvent} {result : Except Error Unit}
    (h : FinishTrace fs ending tr result) : ∀ ev ∈ tr, ¬ Mutates ev.1 := by
  obtain ⟨rest, rfl, hrest⟩ := h.eq_concat
  rintro ⟨c, r⟩ hev
  rcases List.mem_append.mp hev with hev | hev
  · have hc : ReleaseCall fs c := hrest _ hev
    cases hc <;> exact id
  · cases List.mem_singleton.mp hev
    exact id

/-- On a read-only mount nothing is changed, and what would change it is
refused, exactly when the client performs no unguarded operation. -/
theorem readOnly_isolated_iff {D : Type} [BlockDevice D] (build : Build) {device : D}
    {E : Environment Call Reply} {s u t : E.State} {c : Option Client}
    {mountTrace : List SysEvent} {performed : List Performed}
    (hmount : Exec E (Ext4Fs.mount build device true) s mountTrace (.ok (.ok fs)) u)
    (hrun : Runs (Client.Step build E) (some (.mounted fs), u) performed (c, t)) :
    ((∀ ev ∈ mountTrace, ¬ Mutates ev.1) ∧ (∀ e ∈ performed, Isolated e) ∧
      ∀ ending endTrace o v, Exec E (fs.finish ending) t endTrace o v →
        ∀ ev ∈ endTrace, ¬ Mutates ev.1) ↔
      ∀ e ∈ performed, ¬ Unguarded e.op := by
  obtain ⟨hro, hfs, hmutates⟩ := mount_readOnly (mount_trace hmount)
  have hstep : ∀ e ∈ performed, Isolated e ↔ ¬ Unguarded e.op := by
    intro e he
    obtain ⟨⟨client, s'⟩, b, hst, hserves⟩ :=
      hrun.forall_mem (I := Serves fs) (fun _ _ _ => step_serves) (serves_mounted u) e he
    cases client with
    | none => cases hst
    | some client => exact step_isolated_iff (hserves client rfl) hfs hro hst
  constructor
  · exact fun h e he => (hstep e he).mp (h.2.1 e he)
  · refine fun h => ⟨hmutates, fun e he => (hstep e he).mpr (h e he), ?_⟩
    intro ending endTrace o v hend
    obtain ⟨result, -, hfinish⟩ := finish_trace hend
    exact finish_not_mutates hfinish

def readOnlyFs : Ext4Fs := ⟨9, deviceNameOf 4, mountPointOf 4, true, false⟩

theorem readOnlyFs_mounted :
    Exec (.chaos Call Reply) (Ext4Fs.mount .checked sampleMemory true) ()
      [⟨.deviceCounterFetchAdd, (4 : UInt64)⟩, ⟨.boxWrapper sampleBdev, (9 : UInt64)⟩,
        ⟨.ext4DeviceRegister 9 (deviceNameOf 4), (0 : Int32)⟩,
        ⟨.ext4Mount (deviceNameOf 4) (mountPointOf 4) true, (0 : Int32)⟩,
        ⟨.ext4Recover (mountPointOf 4), (0 : Int32)⟩]
      (.ok (.ok readOnlyFs)) () :=
  mount_exec sampleMemory_wraps 4 9 (.readOnly 0)

/-- `mkdir` is refused. -/
theorem readOnlyFs_mkdir :
    Runs (Client.Step .checked (.chaos Call Reply)) (some (.mounted readOnlyFs), ())
      [⟨.fs (.mkdir "d" 0), .ok (.error .readOnly), []⟩] (some (.mounted readOnlyFs), ()) := by
  have hrefuses : FsOp.perform readOnlyFs (.mkdir "d" 0) = .done (.error .readOnly) :=
    guarded_refuses rfl trivial
  refine .single (.returned (p := .done (.error .readOnly, .mounted readOnlyFs)) ?_ (.done _ _))
  simp only [Client.perform, Client.mounted, hrefuses]
  rfl

theorem readOnly_isolated_iff_mkdir :
    ((∀ ev ∈ ([⟨.deviceCounterFetchAdd, (4 : UInt64)⟩, ⟨.boxWrapper sampleBdev, (9 : UInt64)⟩,
        ⟨.ext4DeviceRegister 9 (deviceNameOf 4), (0 : Int32)⟩,
        ⟨.ext4Mount (deviceNameOf 4) (mountPointOf 4) true, (0 : Int32)⟩,
        ⟨.ext4Recover (mountPointOf 4), (0 : Int32)⟩] : List SysEvent), ¬ Mutates ev.1) ∧
      (∀ e ∈ ([⟨.fs (.mkdir "d" 0), .ok (.error .readOnly), []⟩] : List Performed), Isolated e) ∧
      ∀ ending endTrace o v, Exec (.chaos Call Reply) (readOnlyFs.finish ending) () endTrace o v →
        ∀ ev ∈ endTrace, ¬ Mutates ev.1) ↔
      ∀ e ∈ ([⟨.fs (.mkdir "d" 0), .ok (.error .readOnly), []⟩] : List Performed),
        ¬ Unguarded e.op :=
  readOnly_isolated_iff .checked readOnlyFs_mounted readOnlyFs_mkdir

/-- `open` with `CREATE` hands `O_CREAT` to lwext4 and returns a file. -/
theorem readOnlyFs_create : ∃ p client,
    Client.Step .checked (.chaos Call Reply) (some (.mounted readOnlyFs), ())
      ⟨.openFile "f" (.union .WRITE .CREATE), .ok (.ok (.handle 0)),
        [⟨.ext4Fopen2 .default p (OpenFlags.union .WRITE .CREATE).toRaw, ((0 : Int32), .default)⟩]⟩
      (some client, ()) := by
  have hname : readOnlyFs.mountPoint = mountPointOf 4 := rfl
  obtain ⟨p, hp, -⟩ := Ext4Fs.makePath_ok hname (show 0 ∉ strBytes "f" by decide)
  refine ⟨p, ⟨readOnlyFs, [some ⟨readOnlyFs, .default, "f"⟩], []⟩, .returned rfl ?_⟩
  unfold File.openFile
  simp only [Client.mounted]
  rw [hp]
  exact Exec.chaos_call (.done _ _)

/-- A read-only mount lets a file be created. -/
theorem readOnly_creates :
    ¬ ∀ (fs : Ext4Fs) (mountTrace : List SysEvent) (performed : List Performed)
        (c : Option Client),
      Exec (.chaos Call Reply) (Ext4Fs.mount .checked sampleMemory true) () mountTrace
        (.ok (.ok fs)) () →
      Runs (Client.Step .checked (.chaos Call Reply)) (some (.mounted fs), ()) performed (c, ()) →
      ∀ e ∈ performed, Isolated e := by
  intro h
  obtain ⟨p, client, hstep⟩ := readOnlyFs_create
  have hisolated := h _ _ _ _ readOnlyFs_mounted (.single hstep) _ List.mem_cons_self
  refine hisolated.calls _ List.mem_cons_self (.inl ?_)
  decide

end Ext4Lwext4.Metatheory
