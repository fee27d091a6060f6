import Ext4Lwext4.Model.Api

/-! # What each operation asks of lwext4

`MayCall` says once, for every public operation, which calls it can make
whatever lwext4 replies. Every law about the calls of a client's run follows
from it without looking into an operation again. -/

namespace Ext4Lwext4.Metatheory

open Ext4Lwext4.Framework Ext4Lwext4.Model

/-! ## Operations of `Ext4Fs` -/

/-- `p` is the path lwext4 is given for the user's `path`. -/
abbrev PathOf (fs : Ext4Fs) (path : String) (p : CString) : Prop := fs.makePath path = .ok p

/-- The calls of `metadata`. -/
inductive MetadataCall (fs : Ext4Fs) (path : String) : Call → Prop
  | modeGet {p} : PathOf fs path p → MetadataCall fs path (.ext4ModeGet p 0)
  | ownerGet {p} : PathOf fs path p → MetadataCall fs path (.ext4OwnerGet p 0 0)
  | atimeGet {p} : PathOf fs path p → MetadataCall fs path (.ext4AtimeGet p 0)
  | mtimeGet {p} : PathOf fs path p → MetadataCall fs path (.ext4MtimeGet p 0)
  | ctimeGet {p} : PathOf fs path p → MetadataCall fs path (.ext4CtimeGet p 0)
  | fopen {p} : PathOf fs path p →
      MetadataCall fs path (.ext4Fopen2 .default p (OpenFlags.toRaw .READ))
  | fsize (inner) : MetadataCall fs path (.ext4Fsize inner)
  | fclose (inner) : MetadataCall fs path (.ext4Fclose inner)

def FsMayCall (fs : Ext4Fs) (op : FsOp) (c : Call) : Prop :=
  match op with
  | .isReadOnly => False
  | .stat => c = .ext4MountPointStats fs.mountPoint .default
  | .mkdir path mode => fs.readOnly = false ∧ ∃ p, PathOf fs path p ∧
      (c = .ext4DirMk p ∨ c = .ext4ModeSet p mode)
  | .remove path => fs.readOnly = false ∧ ∃ p, PathOf fs path p ∧ c = .ext4Fremove p
  | .rmdir path => fs.readOnly = false ∧ ∃ p, PathOf fs path p ∧ c = .ext4DirRm p
  | .rename src dst => fs.readOnly = false ∧
      ∃ p q, PathOf fs src p ∧ PathOf fs dst q ∧ c = .ext4Frename p q
  | .link src dst => fs.readOnly = false ∧
      ∃ p q, PathOf fs src p ∧ PathOf fs dst q ∧ c = .ext4Flink p q
  | .symlink _ path => fs.readOnly = false ∧
      ∃ target p, PathOf fs path p ∧ c = .ext4Fsymlink target p
  | .readlink path => ∃ p buf, PathOf fs path p ∧ c = .ext4Readlink p buf (len buf) 0
  | .existsPath path => MetadataCall fs path c
  | .metadata path => MetadataCall fs path c
  | .isFile path => ∃ p type, PathOf fs path p ∧ c = .ext4InodeExist p type
  | .isDir path => ∃ p type, PathOf fs path p ∧ c = .ext4InodeExist p type
  | .setPermissions path mode => fs.readOnly = false ∧
      ∃ p, PathOf fs path p ∧ c = .ext4ModeSet p mode
  | .setOwner path uid gid => fs.readOnly = false ∧
      ∃ p, PathOf fs path p ∧ c = .ext4OwnerSet p uid gid
  | .sync => c = .ext4CacheFlush fs.mountPoint

section Calls

variable {P : Call → Prop} {fs : Ext4Fs} {path : String}

theorem allCalls_answering {α : Type} {f : α → ApiValue} {p : Sys (Except Error α)}
    (h : p.AllCalls P) : (answering f p).AllCalls P :=
  Prog.allCalls_bind h fun _ => trivial

theorem changePath_allCalls {call : CString → Sys Int32}
    (h : fs.readOnly = false → ∀ p, PathOf fs path p → (call p).AllCalls P) :
    (fs.changePath path call).run.AllCalls P := by
  unfold Ext4Fs.changePath
  cases hro : fs.readOnly with
  | true => trivial
  | false =>
      apply allCalls_run_except_bind
      intro p hp
      apply allCalls_run_lift_bind (h hro p hp)
      intro ret
      trivial

theorem changePaths_allCalls {src dst : String} {call : CString → CString → Sys Int32}
    (h : fs.readOnly = false → ∀ p q, PathOf fs src p → PathOf fs dst q →
      (call p q).AllCalls P) :
    (fs.changePaths src dst call).run.AllCalls P := by
  unfold Ext4Fs.changePaths
  cases hro : fs.readOnly with
  | true => trivial
  | false =>
      apply allCalls_run_except_bind
      intro p hp
      apply allCalls_run_except_bind
      intro q hq
      apply allCalls_run_lift_bind (h hro p q hp hq)
      intro ret
      trivial

theorem openFile_ensures {flags : OpenFlags}
    (h : ∀ p, PathOf fs path p → P (.ext4Fopen2 .default p flags.toRaw)) :
    (File.openFile fs path flags).run.Ensures P fun r => ∀ file, r = .ok file → file.fs = fs := by
  unfold File.openFile
  cases hp : fs.makePath path with
  | error e => exact nofun
  | ok p =>
      refine ⟨h p hp, ?_⟩
      intro reply
      show Prog.Ensures P _ (ExceptT.run (liftM (checkErrnoWithPath reply.1 path) >>= _))
      cases checkErrnoWithPath reply.1 path with
      | error e => exact nofun
      | ok u =>
          intro file hfile
          cases hfile
          rfl

theorem sizeOfFile_allCalls : (fs.sizeOfFile path).AllCalls (MetadataCall fs path) := by
  refine Prog.ensures_bind (openFile_ensures fun p => .fopen) fun result _ => ?_
  cases result with
  | ok file => exact ⟨.fsize _, fun _ => ⟨.fclose _, fun _ => trivial⟩⟩
  | error e => trivial

theorem metadata_allCalls : (fs.metadata path).run.AllCalls (MetadataCall fs path) := by
  apply allCalls_run_except_bind
  intro p hp
  apply allCalls_run_request_bind (.modeGet hp)
  intro ret
  apply allCalls_run_except_bind
  intro _ _
  apply allCalls_run_request_bind (.ownerGet hp)
  intro owner
  apply allCalls_run_request_bind (.atimeGet hp)
  intro atime
  apply allCalls_run_request_bind (.mtimeGet hp)
  intro mtime
  apply allCalls_run_request_bind (.ctimeGet hp)
  intro ctime
  by_cases hreg : Ext4Fs.fileTypeOfMode ret.2 = .regularFile
  · simp only [hreg, if_true]
    exact allCalls_run_lift_bind sizeOfFile_allCalls fun _ => trivial
  · simp only [hreg, if_false]
    trivial

theorem inodeExist_allCalls {type : FileType}
    (h : ∀ p, PathOf fs path p → P (.ext4InodeExist p type.toRaw.toUInt32.toInt32)) :
    (fs.inodeExist path type).AllCalls P := by
  unfold Ext4Fs.inodeExist
  cases hp : fs.makePath path with
  | error e => trivial
  | ok p => exact ⟨h p hp, fun _ => trivial⟩

theorem readlink_allCalls
    (h : ∀ p buf, PathOf fs path p → P (.ext4Readlink p buf (len buf) 0)) :
    (fs.readlink path).run.AllCalls P := by
  apply allCalls_run_except_bind
  intro p hp
  apply allCalls_run_request_bind (h p _ hp)
  intro reply
  apply allCalls_run_except_bind
  intro _ _
  cases fromUtf8 (reply.2.1.val.take reply.2.2.toNat) with
  | some target => trivial
  | none => trivial

theorem symlink_allCalls {target : String}
    (h : fs.readOnly = false → ∀ t p, PathOf fs path p → P (.ext4Fsymlink t p)) :
    (fs.symlink target path).run.AllCalls P := by
  unfold Ext4Fs.symlink
  cases hro : fs.readOnly with
  | true => trivial
  | false =>
      apply allCalls_run_except_bind
      intro t _
      apply allCalls_run_except_bind
      intro p hp
      exact allCalls_run_request_bind (h hro t p hp) fun _ => trivial

/-- Whatever lwext4 replies, an operation of `Ext4Fs` makes the calls that are
its own. -/
theorem fsOp_allCalls (fs : Ext4Fs) (op : FsOp) : (op.perform fs).AllCalls (FsMayCall fs op) := by
  cases op with
  | isReadOnly => trivial
  | stat =>
      refine allCalls_answering (allCalls_run_request_bind rfl fun _ => ?_)
      exact allCalls_run_except_bind fun _ _ => trivial
  | mkdir path mode =>
      refine allCalls_answering (allCalls_run_bind ?_ fun _ => ?_)
      · exact changePath_allCalls fun hro p hp => ⟨⟨hro, p, hp, .inl rfl⟩, fun _ => trivial⟩
      · -- a mode is set by a second operation
        by_cases hmode : mode ≠ 0
        · rw [if_pos hmode]
          exact changePath_allCalls fun hro p hp => ⟨⟨hro, p, hp, .inr rfl⟩, fun _ => trivial⟩
        · rw [if_neg hmode]
          trivial
  | remove path =>
      exact allCalls_answering <|
        changePath_allCalls fun hro p hp => ⟨⟨hro, p, hp, rfl⟩, fun _ => trivial⟩
  | rmdir path =>
      exact allCalls_answering <|
        changePath_allCalls fun hro p hp => ⟨⟨hro, p, hp, rfl⟩, fun _ => trivial⟩
  | rename src dst =>
      exact allCalls_answering <|
        changePaths_allCalls fun hro p q hp hq => ⟨⟨hro, p, q, hp, hq, rfl⟩, fun _ => trivial⟩
  | link src dst =>
      exact allCalls_answering <|
        changePaths_allCalls fun hro p q hp hq => ⟨⟨hro, p, q, hp, hq, rfl⟩, fun _ => trivial⟩
  | symlink target path =>
      exact allCalls_answering <| symlink_allCalls fun hro t p hp => ⟨hro, t, p, hp, rfl⟩
  | readlink path => exact allCalls_answering <| readlink_allCalls fun p buf hp => ⟨p, buf, hp, rfl⟩
  | existsPath path =>
      exact Prog.allCalls_bind (Prog.allCalls_bind metadata_allCalls fun _ => trivial)
        fun _ => trivial
  | isFile path =>
      exact Prog.allCalls_bind (inodeExist_allCalls fun p hp => ⟨p, _, hp, rfl⟩) fun _ => trivial
  | isDir path =>
      exact Prog.allCalls_bind (inodeExist_allCalls fun p hp => ⟨p, _, hp, rfl⟩) fun _ => trivial
  | metadata path => exact allCalls_answering metadata_allCalls
  | setPermissions path mode =>
      exact allCalls_answering <|
        changePath_allCalls fun hro p hp => ⟨⟨hro, p, hp, rfl⟩, fun _ => trivial⟩
  | setOwner path uid gid =>
      exact allCalls_answering <|
        changePath_allCalls fun hro p hp => ⟨⟨hro, p, hp, rfl⟩, fun _ => trivial⟩
  | sync => exact allCalls_answering (allCalls_run_request_bind rfl fun _ => trivial)

/-! ## Operations of `File` -/

/-- The calls of one read, write or seek are on some `ext4_file`: the one the
calls before left. -/
def FileMayCall (fs : Ext4Fs) (path : String) (op : FileOp) (c : Call) : Prop :=
  match op with
  | .read _ => ∃ inner buf, c = .ext4Fread inner buf (len buf) 0
  | .ioRead _ => ∃ inner buf, c = .ext4Fread inner buf (len buf) 0
  | .write _ => ∃ inner buf, c = .ext4Fwrite inner buf (len buf) 0
  | .ioWrite _ => ∃ inner buf, c = .ext4Fwrite inner buf (len buf) 0
  | .writeAll fuel buf =>
      0 < fuel ∧ 0 < len buf ∧ ∃ inner part, c = .ext4Fwrite inner part (len part) 0
  | .seek _ => ∃ inner, c = .ext4Ftell inner ∨ ∃ off origin, c = .ext4Fseek inner off origin
  | .ioSeek _ => ∃ inner, c = .ext4Ftell inner ∨ ∃ off origin, c = .ext4Fseek inner off origin
  | .position => ∃ inner, c = .ext4Ftell inner
  | .size => ∃ inner, c = .ext4Fsize inner
  | .truncate size => ∃ inner, c = .ext4Ftruncate inner size
  | .flush => False
  | .ioFlush => False
  | .sync => c = .ext4CacheFlush fs.mountPoint
  | .metadata => MetadataCall fs path c
  | .readToEnd _ _ => ReadsWhole c
  | .readToString _ _ => ReadsWhole c
where
  ReadsWhole (c : Call) : Prop :=
    ∃ inner, c = .ext4Fsize inner ∨ c = .ext4Ftell inner ∨
      (∃ off origin, c = .ext4Fseek inner off origin) ∨ ∃ buf, c = .ext4Fread inner buf (len buf) 0

theorem ensures_answeringWith {α H : Type} {S : H → Prop} {f : α → ApiValue}
    {p : Sys (Except Error α × H)} (h : p.Ensures P fun r => S r.2) :
    (answeringWith f p).Ensures P fun r => S r.2 :=
  Prog.ensures_bind h fun _ hr => hr

theorem ensures_answeringFilled {α β H : Type} {S : H → Prop} {f : α → β → ApiValue}
    {p : Sys (Except Error α × β × H)} (h : p.Ensures P fun r => S r.2.2) :
    (answeringFilled f p).Ensures P fun r => S r.2 :=
  Prog.ensures_bind h fun _ hr => hr

section File

variable {build : Build} {file : File}

/-- A file operation leaves a file of the same instance. -/
abbrev SameFs (file file' : File) : Prop := file'.fs = file.fs

theorem read_ensures {buf : Bytes} (h : P (.ext4Fread file.inner buf (len buf) 0)) :
    (file.read buf).Ensures P fun r => SameFs file r.2.2 :=
  ⟨h, fun _ => rfl⟩

theorem write_ensures {buf : Bytes} (h : P (.ext4Fwrite file.inner buf (len buf) 0)) :
    (file.write buf).Ensures P fun r => SameFs file r.2 :=
  ⟨h, fun _ => rfl⟩

theorem seek_ensures {pos : SeekFrom}
    (h : ∀ inner, P (.ext4Ftell inner) ∧ ∀ off origin, P (.ext4Fseek inner off origin)) :
    (file.seek pos).Ensures P fun r => SameFs file r.2 := by
  apply Prog.ensures_request_bind ((h _).2 _ _)
  intro reply
  obtain ⟨ret, inner⟩ := reply
  dsimp only
  cases checkErrno ret with
  | error e => exact rfl
  | ok u => exact ⟨(h _).1, fun _ => rfl⟩

theorem readChunks_ensures (h : ∀ inner buf, P (.ext4Fread inner buf (len buf) 0)) (fuel : ℕ)
    (file' : File) (buf : ByteVec) (chunk : Bytes) (total : UInt64) (hfs : SameFs file file') :
    (File.readChunks build fuel file' buf chunk total).Ensures P fun r => SameFs file r.2.2 := by
  induction fuel generalizing file' buf chunk total with
  | zero => trivial
  | succ fuel ih =>
      refine Prog.ensures_bind (read_ensures (h _ _)) ?_
      rintro ⟨result, chunk, file''⟩ hr
      have hfs' : SameFs file file'' := hr.trans hfs
      cases result with
      | error e => exact hfs'
      | ok n =>
          by_cases hn : n = 0
          · simp only [hn, if_true]
            exact hfs'
          · simp only [hn, if_false]
            apply Prog.ensures_ofOutcome_bind
            intro part _
            apply Prog.ensures_ofOutcome_bind
            intro buf _
            exact Prog.ensures_ofOutcome_bind fun total _ => ih _ _ _ _ hfs'

theorem readToEnd_ensures {fuel : ℕ} {buf : ByteVec} :
    (file.readToEnd build fuel buf).Ensures FileMayCall.ReadsWhole
      fun r => SameFs file r.2.2 := by
  apply Prog.ensures_request_bind ⟨_, .inl rfl⟩
  intro size
  apply Prog.ensures_ofOutcome_bind
  intro _ _
  refine Prog.ensures_bind (seek_ensures fun inner => ?_) ?_
  · exact ⟨⟨inner, .inr (.inl rfl)⟩,
      fun off origin => ⟨inner, .inr (.inr (.inl ⟨off, origin, rfl⟩))⟩⟩
  · rintro ⟨result, file'⟩ hr
    cases result with
    | error e => exact hr
    | ok _ =>
        exact readChunks_ensures (fun inner buf => ⟨inner, .inr (.inr (.inr ⟨buf, rfl⟩))⟩)
          _ _ _ _ _ hr

theorem readToString_ensures {fuel : ℕ} {buf : String} :
    (file.readToString build fuel buf).Ensures FileMayCall.ReadsWhole
      fun r => SameFs file r.2.2 := by
  refine Prog.ensures_bind readToEnd_ensures ?_
  rintro ⟨result, bytes, file'⟩ hr
  cases result with
  | error e => exact hr
  | ok n =>
      dsimp only
      cases fromUtf8 bytes.bytes with
      | some text => exact hr
      | none => exact hr

theorem writeRest_ensures {buf : Bytes}
    (h : ∀ inner part, P (.ext4Fwrite inner part (len part) 0)) (fuel : ℕ) (file' : File)
    (written : UInt64) (hfs : SameFs file file') :
    (File.writeRest build buf fuel file' written).Ensures P fun r => SameFs file r.2 := by
  induction fuel generalizing file' written with
  | zero =>
      unfold File.writeRest
      split
      · trivial
      · exact hfs
  | succ fuel ih =>
      unfold File.writeRest
      by_cases hlt : written < len buf
      · simp only [hlt, if_true]
        apply Prog.ensures_ofOutcome_bind
        intro rest _
        refine Prog.ensures_bind (write_ensures (h _ _)) ?_
        rintro ⟨result, file''⟩ hr
        have hfs' : SameFs file file'' := hr.trans hfs
        cases result with
        | error e => exact hfs'
        | ok n =>
            by_cases hn : n = 0
            · simp only [hn, if_true]
              exact hfs'
            · simp only [hn, if_false]
              exact Prog.ensures_ofOutcome_bind fun written _ => ih _ _ hfs'
      · simp only [hlt, if_false]
        exact hfs

/-- An empty buffer is written without a call, and so is any in no round. -/
theorem writeAll_ensures {fuel : ℕ} {buf : Bytes}
    (h : 0 < fuel → 0 < len buf → ∀ inner part, P (.ext4Fwrite inner part (len part) 0)) :
    (file.writeAll build fuel buf).Ensures P fun r => SameFs file r.2 := by
  by_cases hlt : 0 < len buf
  · cases fuel with
    | zero =>
        unfold File.writeAll File.writeRest
        simp only [hlt, if_true]
        trivial
    | succ fuel => exact writeRest_ensures (h fuel.succ_pos hlt) _ _ _ rfl
  · unfold File.writeAll File.writeRest
    simp only [hlt, if_false]
    exact rfl

theorem ioRead_ensures {buf : Bytes} (h : P (.ext4Fread file.inner buf (len buf) 0)) :
    (file.ioRead buf).Ensures P fun r => SameFs file r.2.2 :=
  Prog.ensures_bind (read_ensures h) fun _ hr => hr

theorem ioWrite_ensures {buf : Bytes} (h : P (.ext4Fwrite file.inner buf (len buf) 0)) :
    (file.ioWrite buf).Ensures P fun r => SameFs file r.2 :=
  Prog.ensures_bind (write_ensures h) fun _ hr => hr

theorem ioSeek_ensures {pos : SeekFrom}
    (h : ∀ inner, P (.ext4Ftell inner) ∧ ∀ off origin, P (.ext4Fseek inner off origin)) :
    (file.ioSeek pos).Ensures P fun r => SameFs file r.2 :=
  Prog.ensures_bind (seek_ensures h) fun _ hr => hr

theorem fileOp_ensures (build : Build) (file : File) (op : FileOp) :
    (op.perform build file).Ensures (FileMayCall file.fs file.path op)
      fun r => SameFs file r.2 := by
  have hseek (inner : Ext4File) :
      (∃ i, Call.ext4Ftell inner = .ext4Ftell i ∨
        ∃ off origin, Call.ext4Ftell inner = .ext4Fseek i off origin) ∧
      ∀ off origin, ∃ i, Call.ext4Fseek inner off origin = .ext4Ftell i ∨
        ∃ off' origin', Call.ext4Fseek inner off origin = .ext4Fseek i off' origin' :=
    ⟨⟨inner, .inl rfl⟩, fun off origin => ⟨inner, .inr ⟨off, origin, rfl⟩⟩⟩
  cases op with
  | read buf => exact ensures_answeringFilled (read_ensures ⟨_, _, rfl⟩)
  | write buf => exact ensures_answeringWith (write_ensures ⟨_, _, rfl⟩)
  | seek pos => exact ensures_answeringWith (seek_ensures hseek)
  | position => exact ⟨⟨_, rfl⟩, fun _ => rfl⟩
  | size => exact ⟨⟨_, rfl⟩, fun _ => rfl⟩
  | truncate size => exact ⟨⟨_, rfl⟩, fun _ => rfl⟩
  | flush => exact rfl
  | sync =>
      refine ensures_answeringWith (Prog.allCalls_bind ?_ fun _ => rfl)
      exact allCalls_run_request_bind rfl fun _ => trivial
  | metadata => exact ensures_answeringWith (Prog.allCalls_bind metadata_allCalls fun _ => rfl)
  | readToEnd fuel buf =>
      rw [FileOp.perform]
      exact ensures_answeringFilled readToEnd_ensures
  | readToString fuel buf =>
      rw [FileOp.perform]
      exact ensures_answeringFilled readToString_ensures
  | writeAll fuel buf =>
      exact ensures_answeringWith
        (writeAll_ensures fun hfuel hlen inner part => ⟨hfuel, hlen, inner, part, rfl⟩)
  | ioRead buf => exact Prog.ensures_bind (ioRead_ensures ⟨_, _, rfl⟩) fun _ hr => hr
  | ioWrite buf => exact Prog.ensures_bind (ioWrite_ensures ⟨_, _, rfl⟩) fun _ hr => hr
  | ioFlush => exact rfl
  | ioSeek pos => exact Prog.ensures_bind (ioSeek_ensures hseek) fun _ hr => hr

end File

/-! ## Operations of a client -/

theorem dirOp_allCalls (dir : Dir) (op : DirOp) :
    (op.perform dir).AllCalls
      fun c => ∃ inner, c = .ext4DirEntryNext inner ∨ c = .ext4DirEntryRewind inner := by
  cases op with
  | nextEntry => exact ⟨⟨_, .inl rfl⟩, fun _ => trivial⟩
  | next => exact ⟨⟨_, .inl rfl⟩, fun _ => trivial⟩
  | rewind => exact ⟨⟨_, .inr rfl⟩, fun _ => trivial⟩

/-- The calls a client's operation on `fs` can make. -/
def MayCall (fs : Ext4Fs) (op : ApiOp) (c : Call) : Prop :=
  match op with
  | .fs op => FsMayCall fs op c
  | .openFile path flags => ∃ p, PathOf fs path p ∧ c = .ext4Fopen2 .default p flags.toRaw
  | .openDir path => ∃ p, PathOf fs path p ∧ c = .ext4DirOpen .default p
  | .file _ op => ∃ path, FileMayCall fs path op c
  | .dir _ _ => ∃ inner, c = .ext4DirEntryNext inner ∨ c = .ext4DirEntryRewind inner
  | .dropFile _ => ∃ inner, c = .ext4Fclose inner
  | .dropDir _ => ∃ inner, c = .ext4DirClose inner

/-- The calls that begin and end an instance. -/
def Call.isLifecycle : Call → Bool
  | .deviceCounterFetchAdd | .boxWrapper _ | .dropWrapper _ | .ext4DeviceRegister _ _
  | .ext4DeviceUnregister _ | .ext4Mount _ _ _ | .ext4Umount _ | .ext4Recover _
  | .ext4JournalStart _ | .ext4JournalStop _ => true
  | _ => false

theorem MetadataCall.not_lifecycle {c : Call} (h : MetadataCall fs path c) :
    Call.isLifecycle c = false := by
  cases h <;> rfl

theorem FsMayCall.not_lifecycle {op : FsOp} {c : Call} (h : FsMayCall fs op c) :
    Call.isLifecycle c = false := by
  cases op with
  | isReadOnly => cases h
  | stat | sync =>
      cases h
      rfl
  | metadata path | existsPath path => exact MetadataCall.not_lifecycle h
  | mkdir path mode =>
      obtain ⟨-, p, -, rfl | rfl⟩ := h
      · rfl
      · rfl
  | remove path | rmdir path | setPermissions path mode | setOwner path uid gid =>
      obtain ⟨-, p, -, rfl⟩ := h
      rfl
  | rename src dst | link src dst =>
      obtain ⟨-, p, q, -, -, rfl⟩ := h
      rfl
  | symlink target path =>
      obtain ⟨-, target, p, -, rfl⟩ := h
      rfl
  | readlink path =>
      obtain ⟨p, buf, -, rfl⟩ := h
      rfl
  | isFile path | isDir path =>
      obtain ⟨p, type, -, rfl⟩ := h
      rfl

theorem FileMayCall.not_lifecycle {op : FileOp} {c : Call} (h : FileMayCall fs path op c) :
    Call.isLifecycle c = false := by
  cases op with
  | flush | ioFlush => cases h
  | sync =>
      cases h
      rfl
  | metadata => exact MetadataCall.not_lifecycle h
  | read buf | ioRead buf | write buf | ioWrite buf =>
      obtain ⟨inner, part, rfl⟩ := h
      rfl
  | writeAll fuel buf =>
      obtain ⟨-, -, inner, part, rfl⟩ := h
      rfl
  | position | size | truncate size =>
      obtain ⟨inner, rfl⟩ := h
      rfl
  | seek pos | ioSeek pos =>
      obtain ⟨inner, rfl | ⟨off, origin, rfl⟩⟩ := h
      · rfl
      · rfl
  | readToEnd fuel buf | readToString fuel buf =>
      obtain ⟨inner, rfl | rfl | ⟨off, origin, rfl⟩ | ⟨buf, rfl⟩⟩ := h
      · rfl
      · rfl
      · rfl
      · rfl

/-- No operation begins or ends an instance. -/
theorem MayCall.not_lifecycle {op : ApiOp} {c : Call} (h : MayCall fs op c) :
    Call.isLifecycle c = false := by
  cases op with
  | fs op => exact FsMayCall.not_lifecycle h
  | openFile path flags =>
      obtain ⟨p, -, rfl⟩ := h
      rfl
  | openDir path =>
      obtain ⟨p, -, rfl⟩ := h
      rfl
  | file handle op =>
      obtain ⟨path, h⟩ := h
      exact FileMayCall.not_lifecycle h
  | dir handle op =>
      obtain ⟨inner, rfl | rfl⟩ := h
      · rfl
      · rfl
  | dropFile handle | dropDir handle =>
      obtain ⟨inner, rfl⟩ := h
      rfl

/-- The client of an instance: every file it has open was opened through it. -/
structure ClientOf (fs : Ext4Fs) (client : Client) : Prop where
  fs_eq : client.fs = fs
  files : ∀ file, some file ∈ client.files → file.fs = fs

namespace ClientOf

theorem mounted (fs : Ext4Fs) : ClientOf fs (.mounted fs) := ⟨rfl, nofun⟩

variable {client : Client} {handle : ℕ} {file file' : File}

theorem file? (h : ClientOf fs client) (hf : client.file? handle = some file) : file.fs = fs := by
  have := Option.join_eq_some_iff.mp hf
  exact h.files file (List.mem_of_getElem? this)

theorem addFile (h : ClientOf fs client) (hfile : file.fs = fs) :
    ClientOf fs { client with files := client.files ++ [some file] } where
  fs_eq := h.fs_eq
  files file' hmem := by
    rcases List.mem_append.mp hmem with hmem | hmem
    · exact h.files file' hmem
    · cases List.mem_singleton.mp hmem
      exact hfile

theorem setFile (h : ClientOf fs client) {o : Option File}
    (ho : ∀ file, o = some file → file.fs = fs) :
    ClientOf fs { client with files := client.files.set handle o } where
  fs_eq := h.fs_eq
  files file' hmem := by
    rcases List.mem_or_eq_of_mem_set hmem with hmem | heq
    · exact h.files file' hmem
    · exact ho file' heq.symm

theorem withDirs (h : ClientOf fs client) (dirs : List (Option Dir)) :
    ClientOf fs { client with dirs } := ⟨h.fs_eq, h.files⟩

end ClientOf

theorem openDir_allCalls (h : ∀ p, PathOf fs path p → P (.ext4DirOpen .default p)) :
    (Dir.openDir fs path).run.AllCalls P := by
  apply allCalls_run_except_bind
  intro p hp
  apply allCalls_run_request_bind (h p hp)
  intro ret
  exact allCalls_run_except_bind fun _ _ => trivial

/-- Whatever lwext4 replies, an operation makes its own calls and leaves a
client of the same instance. -/
theorem perform_ensures {build : Build} {client : Client} {op : ApiOp}
    {p : Sys (ApiResult × Client)} (hclient : ClientOf fs client)
    (h : client.perform build op = some p) :
    p.Ensures (MayCall fs op) fun r => ClientOf fs r.2 := by
  obtain rfl := hclient.fs_eq
  cases op with
  | fs op =>
      cases h
      exact Prog.allCalls_bind (fsOp_allCalls _ _) fun _ => hclient
  | openFile path flags =>
      cases h
      refine Prog.ensures_bind (openFile_ensures fun p hp => ⟨p, hp, rfl⟩) fun result hr => ?_
      cases result with
      | ok file => exact hclient.addFile (hr file rfl)
      | error e => exact hclient
  | openDir path =>
      cases h
      refine Prog.allCalls_bind (openDir_allCalls fun p hp => ⟨p, hp, rfl⟩) fun result => ?_
      cases result with
      | ok dir => exact hclient.withDirs _
      | error e => exact hclient
  | file handle op =>
      obtain ⟨file, hfile, rfl⟩ := Option.map_eq_some_iff.mp h
      -- the file is one of the client's, so its instance is the client's
      have hfs := hclient.file? hfile
      refine Prog.ensures_bind ((fileOp_ensures build file op).mono (fun c hc => ?_)
        fun _ hr => hr) ?_
      · rw [hfs] at hc
        exact ⟨file.path, hc⟩
      · rintro ⟨result, file'⟩ hr
        apply hclient.setFile
        intro f hf
        cases hf
        exact Eq.trans hr hfs
  | dir handle op =>
      obtain ⟨dir, -, rfl⟩ := Option.map_eq_some_iff.mp h
      exact Prog.allCalls_bind (dirOp_allCalls dir op) fun _ => hclient.withDirs _
  | dropFile handle =>
      obtain ⟨file, -, rfl⟩ := Option.map_eq_some_iff.mp h
      exact ⟨⟨_, rfl⟩, fun _ => hclient.setFile nofun⟩
  | dropDir handle =>
      obtain ⟨dir, -, rfl⟩ := Option.map_eq_some_iff.mp h
      exact ⟨⟨_, rfl⟩, fun _ => hclient.withDirs _⟩

end Calls

/-! ## Runs of a client -/

section Run

variable {build : Build} {E : Environment Call Reply} {fs : Ext4Fs}
  {a b : Option Client × E.State} {e : Performed} {performed : List Performed}

/-- As long as the run goes on, the client is one of `fs`. -/
def Serves (fs : Ext4Fs) (a : Option Client × E.State) : Prop :=
  ∀ client, a.1 = some client → ClientOf fs client

theorem serves_mounted (s : E.State) : Serves (E := E) fs (some (.mounted fs), s) := by
  rintro client ⟨rfl⟩
  exact .mounted fs

theorem step_serves (h : Client.Step build E a e b) (ha : Serves fs a) : Serves fs b := by
  cases h with
  | returned hp hexec =>
      rintro client ⟨rfl⟩
      exact (perform_ensures (ha _ rfl) hp).result_of_exec hexec
  | halted hp hexec => exact nofun

theorem step_mayCall (h : Client.Step build E a e b) (ha : Serves fs a) :
    ∀ ev ∈ e.trace, MayCall fs e.op ev.1 := by
  cases h with
  | returned hp hexec => exact (perform_ensures (ha _ rfl) hp).calls_of_exec hexec
  | halted hp hexec => exact (perform_ensures (ha _ rfl) hp).calls_of_exec hexec

/-- The run lemma: every call of a client's run is one its operation can make. -/
theorem run_mayCall (h : Runs (Client.Step build E) a performed b) (ha : Serves fs a) :
    ∀ e ∈ performed, ∀ ev ∈ e.trace, MayCall fs e.op ev.1 := by
  intro e he
  obtain ⟨u, v, hstep, hu⟩ := h.forall_mem (I := Serves fs) (fun _ _ _ => step_serves) ha e he
  exact step_mayCall hstep hu

theorem calls_mayCall (h : Runs (Client.Step build E) a performed b) (ha : Serves fs a) :
    ∀ ev ∈ calls performed, ∃ op, MayCall fs op ev.1 := by
  intro ev hev
  obtain ⟨e, he, hev⟩ := List.mem_flatMap.mp hev
  exact ⟨e.op, run_mayCall h ha e he ev hev⟩

end Run

end Ext4Lwext4.Metatheory
