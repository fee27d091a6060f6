import Mathlib.Data.List.ReduceOption
import Ext4Lwext4.Framework.Ledger
import Ext4Lwext4.Metatheory.MountNames

/-! # What the crate holds

lwext4 and the heap hand out resources that have to be given back: the box of
a wrapper, a registered device, a mount, a running journal, open files and
open directories. The ledger of the C interface says what each call needs of
them and what it leaves. An instance and a client stand for what they hold,
and every operation of the public interface balances. -/

namespace Ext4Lwext4.Metatheory

open Ext4Lwext4.Framework Ext4Lwext4.Model

/-! ## The ledger -/

/-- A resource; an open file or directory is known by the structure lwext4
last left in it. -/
inductive Resource
  | box (wrapper : BdevPtr)
  | device (name : CString)
  | mount (point : Bytes)
  | journal (point : Bytes)
  | file (inner : Ext4File)
  | dir (inner : Ext4Dir)
  deriving DecidableEq

/-- The mount point a path begins with: all up to its second slash. -/
def mountOf (path : CString) : Bytes :=
  path.bytes.take 1 ++ (path.bytes.drop 1).takeWhile (· ≠ 47) ++ [47]

/-- Handed out on success. -/
def granted (code : Int32) (resource : Resource) : Multiset Resource :=
  if code = 0 then {resource} else 0

/-- Not taken back on failure. -/
def kept (code : Int32) (resource : Resource) : Multiset Resource :=
  if code = 0 then 0 else {resource}

@[simp] theorem granted_zero (resource : Resource) : granted 0 resource = {resource} := rfl

@[simp] theorem kept_zero (resource : Resource) : kept 0 resource = 0 := rfl

theorem granted_of_ne {code : Int32} (h : code ≠ 0) (resource : Resource) :
    granted code resource = 0 := if_neg h

def needed : Call → Multiset Resource
  | .deviceCounterFetchAdd | .boxWrapper _ => 0
  | .dropWrapper wrapper | .ext4DeviceRegister wrapper _ => {.box wrapper}
  | .ext4DeviceUnregister name | .ext4Mount name _ _ => {.device name}
  | .ext4JournalStop mp => {.journal mp.bytes} + {.mount mp.bytes}
  | .ext4Umount mp | .ext4MountPointStats mp _ | .ext4JournalStart mp | .ext4Recover mp
  | .ext4CacheFlush mp => {.mount mp.bytes}
  | .ext4Fopen2 _ path _ | .ext4DirOpen _ path | .ext4Fremove path
  | .ext4Fsymlink _ path | .ext4Readlink path _ _ _ | .ext4DirMk path
  | .ext4DirRm path | .ext4ModeGet path _ | .ext4ModeSet path _ | .ext4OwnerGet path _ _
  | .ext4OwnerSet path _ _ | .ext4AtimeGet path _ | .ext4MtimeGet path _
  | .ext4CtimeGet path _ | .ext4InodeExist path _ => {.mount (mountOf path)}
  | .ext4Frename path newPath | .ext4Flink path newPath =>
      {.mount (mountOf path)} ∪ {.mount (mountOf newPath)}
  | .ext4Fclose file | .ext4Ftruncate file _ | .ext4Fread file _ _ _ | .ext4Fwrite file _ _ _
  | .ext4Fseek file _ _ | .ext4Ftell file | .ext4Fsize file => {.file file}
  | .ext4DirClose dir | .ext4DirEntryNext dir | .ext4DirEntryRewind dir => {.dir dir}

/-- Closing an open file or directory ends it, whatever the code. -/
def left : (c : Call) → Reply c → Multiset Resource
  | .boxWrapper _, wrapper => {.box wrapper}
  | .dropWrapper _, _ => 0
  | .ext4DeviceRegister wrapper name, code => granted code (.device name) + {.box wrapper}
  | .ext4DeviceUnregister name, code => kept code (.device name)
  | .ext4Mount name mp _, code => granted code (.mount mp.bytes) + {.device name}
  | .ext4Umount mp, code => kept code (.mount mp.bytes)
  | .ext4JournalStart mp, code => granted code (.journal mp.bytes) + {.mount mp.bytes}
  | .ext4JournalStop mp, code => kept code (.journal mp.bytes) + {.mount mp.bytes}
  | .ext4Fopen2 _ path _, reply => granted reply.1 (.file reply.2) + {.mount (mountOf path)}
  | .ext4DirOpen _ path, reply => granted reply.1 (.dir reply.2) + {.mount (mountOf path)}
  | .ext4Fclose _, _ | .ext4DirClose _, _ => 0
  | .ext4Ftruncate _ _, reply => {.file reply.2}
  | .ext4Fread _ _ _ _, reply => {.file reply.2.1}
  | .ext4Fwrite _ _ _ _, reply => {.file reply.2.1}
  | .ext4Fseek _ _ _, reply => {.file reply.2}
  | .ext4DirEntryNext _, reply => {.dir reply.2}
  | .ext4DirEntryRewind _, dir => {.dir dir}
  | c, _ => needed c

def ledger : Ledger Call Reply Resource := ⟨needed, left⟩

/-! ## Instances, files and clients -/

/-- What an instance holds. -/
def held (fs : Ext4Fs) : Multiset Resource :=
  {.box fs.wrapper} + {.device fs.deviceName} + {.mount fs.mountPoint.bytes} +
    if fs.journalActive then {.journal fs.mountPoint.bytes} else 0

/-- The slots of a client's table that are in use, as resources. -/
def openSlots {α : Type} (resource : α → Resource) (slots : List (Option α)) :
    Multiset Resource :=
  slots.reduceOption.map resource

abbrev ofFile (file : File) : Resource := .file file.inner

abbrev ofDir (dir : Dir) : Resource := .dir dir.inner

/-- The files and directories a client has open. -/
def openHandles (client : Client) : Multiset Resource :=
  openSlots ofFile client.files + openSlots ofDir client.dirs

section Slots

variable {α : Type} {resource : α → Resource} {slots : List (Option α)} {a : α}

@[simp] theorem openSlots_nil : openSlots resource [] = 0 := rfl

theorem openSlots_cons (slot : Option α) :
    openSlots resource (slot :: slots) =
      openSlots resource [slot] + openSlots resource slots := by
  rcases slot with _ | a
  · exact (zero_add _).symm
  · exact (Multiset.singleton_add (resource a) (openSlots resource slots)).symm

theorem openSlots_some : openSlots resource [some a] = {resource a} := rfl

theorem openSlots_none : openSlots resource [none] = 0 := rfl

theorem openSlots_append (slots' : List (Option α)) :
    openSlots resource (slots ++ slots') =
      openSlots resource slots + openSlots resource slots' := by
  simp [openSlots, List.reduceOption_append]

/-- A slot in use stands for one resource beside the others, and another slot
in its place leaves the others. -/
theorem openSlots_set (resource : α → Resource) {handle : ℕ} (h : slots[handle]?.join = some a) :
    ∃ rest, openSlots resource slots = {resource a} + rest ∧
      ∀ slot, openSlots resource (slots.set handle slot) =
        openSlots resource [slot] + rest := by
  induction slots generalizing handle with
  | nil => simp at h
  | cons first slots ih =>
      rcases handle with _ | handle
      · obtain rfl : first = some a := h
        refine ⟨openSlots resource slots, openSlots_cons _, fun slot => ?_⟩
        rw [List.set_cons_zero, openSlots_cons]
      · obtain ⟨rest, hrest, hset⟩ := ih (show slots[handle]?.join = some a from h)
        refine ⟨openSlots resource [first] + rest, ?_, fun slot => ?_⟩
        · rw [openSlots_cons, hrest, add_left_comm]
        · rw [List.set_cons_succ, openSlots_cons, hset, add_left_comm]

end Slots

/-! ## Operations that only borrow -/

section Borrow

variable {fs : Ext4Fs} {id : UInt64} {path : String} {p : CString}

/-- A path lies below the mount point of the instance that made it. -/
theorem mountOf_makePath (h : fs.mountPoint = mountPointOf id) (hp : PathOf fs path p) :
    mountOf p = fs.mountPoint.bytes := by
  have hbytes : ∃ rest, p.bytes = (mountPointOf id).bytes ++ rest := by
    by_cases hnul : 0 ∈ strBytes path
    · obtain ⟨e, he⟩ := Ext4Fs.makePath_nul h hnul
      cases hp.symm.trans he
    · obtain ⟨p', hp', hb⟩ := Ext4Fs.makePath_ok h hnul
      cases hp.symm.trans hp'
      exact ⟨_, h ▸ hb⟩
  obtain ⟨rest, hbytes⟩ := hbytes
  -- the slash that closes the mount point is the second one of the path
  have hname : (47 : UInt8) ∉ strBytes "mp" ++ decimal id := by
    rw [List.mem_append, not_or]
    exact ⟨by decide, slash_notMem_decimal id⟩
  have hmp : (mountPointOf id).bytes = [47] ++ (strBytes "mp" ++ decimal id) ++ [47] := rfl
  have hdrop : ([47] ++ (strBytes "mp" ++ decimal id) ++ [47] ++ rest).drop 1 =
      (strBytes "mp" ++ decimal id) ++ 47 :: rest := by simp
  rw [h, mountOf, hbytes, hmp, hdrop, takeWhile_delimited hname]
  rfl

theorem mount_le_held : {.mount fs.mountPoint.bytes} ≤ held fs := by
  unfold held
  exact (Multiset.le_add_left _ _).trans (Multiset.le_add_right _ _)

/-- A call that names the mount of an instance and leaves it. -/
theorem borrows_mount {c : Call} (hc : needed c = {.mount fs.mountPoint.bytes})
    (hleft : ∀ r, left c r = needed c) : ledger.Borrows (held fs) c :=
  ⟨hc.le.trans mount_le_held, hleft⟩

theorem borrows_path {c : Call} (h : fs.mountPoint = mountPointOf id) (hp : PathOf fs path p)
    (hc : needed c = {.mount (mountOf p)}) (hleft : ∀ r, left c r = needed c) :
    ledger.Borrows (held fs) c :=
  borrows_mount (by rw [hc, mountOf_makePath h hp]) hleft

/-- The same of a call with two paths, which lie on one mount. -/
theorem borrows_paths {c : Call} {path' : String} {q : CString}
    (h : fs.mountPoint = mountPointOf id)
    (hp : PathOf fs path p) (hq : PathOf fs path' q)
    (hc : needed c = {.mount (mountOf p)} ∪ {.mount (mountOf q)})
    (hleft : ∀ r, left c r = needed c) : ledger.Borrows (held fs) c := by
  refine borrows_mount ?_ hleft
  rw [hc, mountOf_makePath h hp, mountOf_makePath h hq]
  exact Multiset.eq_union_left le_rfl

/-- All operations of `Ext4Fs` but those that ask for the metadata of a path
leave what the instance holds untouched. -/
theorem FsMayCall.borrows {op : FsOp} {c : Call} (h : fs.mountPoint = mountPointOf id)
    (hc : FsMayCall fs op c) (hmeta : ∀ path, op ≠ .metadata path ∧ op ≠ .existsPath path) :
    ledger.Borrows (held fs) c := by
  cases op with
  | isReadOnly => exact hc.elim
  | stat =>
      obtain rfl := hc
      exact borrows_mount rfl fun _ => rfl
  | mkdir path mode =>
      obtain ⟨-, p, hp, rfl | rfl⟩ := hc
      · exact borrows_path h hp rfl fun _ => rfl
      · exact borrows_path h hp rfl fun _ => rfl
  | remove path =>
      obtain ⟨-, p, hp, rfl⟩ := hc
      exact borrows_path h hp rfl fun _ => rfl
  | rmdir path =>
      obtain ⟨-, p, hp, rfl⟩ := hc
      exact borrows_path h hp rfl fun _ => rfl
  | rename src dst =>
      obtain ⟨-, p, q, hp, hq, rfl⟩ := hc
      exact borrows_paths h hp hq rfl fun _ => rfl
  | link src dst =>
      obtain ⟨-, p, q, hp, hq, rfl⟩ := hc
      exact borrows_paths h hp hq rfl fun _ => rfl
  | symlink target path =>
      obtain ⟨-, target, p, hp, rfl⟩ := hc
      exact borrows_path h hp rfl fun _ => rfl
  | readlink path =>
      obtain ⟨p, buf, hp, rfl⟩ := hc
      exact borrows_path h hp rfl fun _ => rfl
  | existsPath path => exact absurd rfl (hmeta path).2
  | isFile path =>
      obtain ⟨p, type, hp, rfl⟩ := hc
      exact borrows_path h hp rfl fun _ => rfl
  | isDir path =>
      obtain ⟨p, type, hp, rfl⟩ := hc
      exact borrows_path h hp rfl fun _ => rfl
  | metadata path => exact absurd rfl (hmeta path).1
  | setPermissions path mode =>
      obtain ⟨-, p, hp, rfl⟩ := hc
      exact borrows_path h hp rfl fun _ => rfl
  | setOwner path uid gid =>
      obtain ⟨-, p, hp, rfl⟩ := hc
      exact borrows_path h hp rfl fun _ => rfl
  | sync =>
      obtain rfl := hc
      exact borrows_mount rfl fun _ => rfl

end Borrow

/-! ## Operations that open -/

section Open

variable {fs : Ext4Fs} {id : UInt64} {path : String}

/-- What the result of an open stands for. -/
def opened {α : Type} (resource : α → Resource) : Except Error α → Multiset Resource
  | .ok a => {resource a}
  | .error _ => 0

theorem needs_path (h : fs.mountPoint = mountPointOf id) {p : CString} (hp : PathOf fs path p)
    {rest : Multiset Resource} : {.mount (mountOf p)} ≤ held fs + rest := by
  rw [mountOf_makePath h hp]
  exact mount_le_held.trans (Multiset.le_add_right _ _)

/-- An open that returned an error holds nothing: lwext4 opened nothing then. -/
theorem open_owns {α : Type} {resource : α → Resource} (h : fs.mountPoint = mountPointOf id)
    (c : CString → Call) (code : ∀ p, Reply (c p) → Int32) (make : ∀ p, Reply (c p) → α)
    (hc : ∀ p, needed (c p) = {.mount (mountOf p)})
    (hleft : ∀ p r, left (c p) r = granted (code p r) (resource (make p r)) + needed (c p))
    {rest : Multiset Resource} :
    ledger.Owns (ExceptT.run (do
        let p ← liftM (fs.makePath path)
        let r ← sys (c p)
        liftM (checkErrnoWithPath (code p r) path)
        return make p r)) (held fs + rest)
      fun result held' => held' = opened resource result + (held fs + rest) := by
  refine Ledger.owns_run_except_bind (fun p hp => ?_) fun e _ => (zero_add _).symm
  refine Ledger.owns_grant_bind (fun r => granted (code p r) (resource (make p r)))
    ((hc p).le.trans (needs_path h hp)) (hleft p) fun r => ?_
  show ledger.Owns (ExceptT.run (liftM (checkErrnoWithPath (code p r) path) >>= _)) _ _
  by_cases hret : code p r = 0
  · rw [checkErrnoWithPath_eq_ok (u := ()) |>.mpr hret, granted, if_pos hret]
    exact rfl
  · obtain ⟨e, he⟩ := checkErrnoWithPath_of_ne path hret
    rw [he, granted, if_neg hret]
    exact rfl

theorem openFile_owns (h : fs.mountPoint = mountPointOf id) (flags : OpenFlags)
    {rest : Multiset Resource} :
    ledger.Owns (File.openFile fs path flags).run (held fs + rest) fun result held' =>
      held' = opened ofFile result + (held fs + rest) :=
  open_owns h (fun p => .ext4Fopen2 .default p flags.toRaw) (fun _ r => r.1)
    (fun _ r => File.mk fs r.2 path) (fun _ => rfl) fun _ _ => rfl

theorem openDir_owns (h : fs.mountPoint = mountPointOf id) {rest : Multiset Resource} :
    ledger.Owns (Dir.openDir fs path).run (held fs + rest) fun result held' =>
      held' = opened ofDir result + (held fs + rest) :=
  open_owns h (fun p => .ext4DirOpen .default p) (fun _ r => r.1)
    (fun _ r => Dir.mk fs r.2) (fun _ => rfl) fun _ _ => rfl

/-- The file opened for its size is closed again. -/
theorem sizeOfFile_owns (h : fs.mountPoint = mountPointOf id) {rest : Multiset Resource} :
    ledger.Owns (fs.sizeOfFile path) (held fs + rest) fun _ held' => held' = held fs + rest := by
  refine Ledger.owns_bind (openFile_owns h .READ) ?_
  rintro result _ rfl
  rcases result with e | file
  · exact zero_add _
  · refine Ledger.owns_swap_bind (c := Call.ext4Fsize file.inner) fun size => ?_
    refine Ledger.owns_swap_bind (c := Call.ext4Fclose file.inner) fun _ => ?_
    exact zero_add _

/-- The metadata of a path are read through calls that borrow, and one file
that is opened and closed. -/
theorem metadata_owns (h : fs.mountPoint = mountPointOf id) {rest : Multiset Resource} :
    ledger.Owns (fs.metadata path).run (held fs + rest) fun _ held' =>
      held' = held fs + rest := by
  refine Ledger.owns_run_except_bind (fun p hp => ?_) fun e _ => rfl
  have hpath : {Resource.mount (mountOf p)} ≤ held fs + rest := needs_path h hp
  refine Ledger.owns_run_borrow_bind ⟨hpath, fun _ => rfl⟩ fun mode => ?_
  refine Ledger.owns_run_except_bind (fun _ _ => ?_) fun e _ => rfl
  refine Ledger.owns_run_borrow_bind ⟨hpath, fun _ => rfl⟩ fun owner => ?_
  refine Ledger.owns_run_borrow_bind ⟨hpath, fun _ => rfl⟩ fun atime => ?_
  refine Ledger.owns_run_borrow_bind ⟨hpath, fun _ => rfl⟩ fun mtime => ?_
  refine Ledger.owns_run_borrow_bind ⟨hpath, fun _ => rfl⟩ fun ctime => ?_
  by_cases hreg : Ext4Fs.fileTypeOfMode mode.2 = .regularFile
  · simp only [hreg, if_true]
    exact Ledger.owns_run_lift_bind (sizeOfFile_owns h) fun _ _ hheld => hheld
  · simp only [hreg, if_false]
    exact rfl

theorem fsOp_owns (h : fs.mountPoint = mountPointOf id) (op : FsOp) {rest : Multiset Resource} :
    ledger.Owns (op.perform fs) (held fs + rest) fun _ held' => held' = held fs + rest := by
  by_cases hmeta : ∃ path, op = .metadata path ∨ op = .existsPath path
  · obtain ⟨path, rfl | rfl⟩ := hmeta
    · exact Ledger.owns_bind (metadata_owns h) fun _ _ hheld => hheld
    · refine Ledger.owns_bind (Ledger.owns_bind (metadata_owns h) ?_) fun _ _ hheld => hheld
      exact fun _ _ hheld => hheld
  · have hborrow : (op.perform fs).AllCalls (ledger.Borrows (held fs)) := by
      refine (fsOp_allCalls fs op).mono (fun c hc => hc.borrows h fun path => ?_) fun _ _ => trivial
      exact not_or.mp fun hop => hmeta ⟨path, hop⟩
    refine ((Ledger.owns_of_allCalls hborrow).frame rest).mono ?_
    rintro _ _ ⟨own, rfl, rfl⟩
    rfl

end Open

/-! ## Operations of an open file or directory

Each of them works on the handle it has and leaves the one lwext4 left. -/

section Handles

variable {build : Build} {file : File} {rest : Multiset Resource}

/-- What a file holds, and the instance besides. -/
abbrev heldWith (file : File) (rest : Multiset Resource) : Multiset Resource :=
  {ofFile file} + rest

theorem read_owns (buf : Bytes) :
    ledger.Owns (file.read buf) (heldWith file rest) fun r held' =>
      held' = heldWith r.2.2 rest :=
  Ledger.owns_swap_bind fun _ => rfl

theorem write_owns (buf : Bytes) :
    ledger.Owns (file.write buf) (heldWith file rest) fun r held' =>
      held' = heldWith r.2 rest :=
  Ledger.owns_swap_bind fun _ => rfl

theorem position_owns :
    ledger.Owns file.position (heldWith file rest) fun _ held' => held' = heldWith file rest :=
  ⟨rest, rfl, fun _ => rfl⟩

theorem size_owns :
    ledger.Owns file.size (heldWith file rest) fun _ held' => held' = heldWith file rest :=
  ⟨rest, rfl, fun _ => rfl⟩

theorem seek_owns (pos : SeekFrom) :
    ledger.Owns (file.seek pos) (heldWith file rest) fun r held' =>
      held' = heldWith r.2 rest := by
  refine Ledger.owns_swap_bind fun reply => ?_
  obtain ⟨ret, inner⟩ := reply
  dsimp only
  rcases checkErrno ret with e | _
  · exact rfl
  · exact Ledger.owns_bind position_owns fun _ _ hheld => hheld

theorem truncate_owns (newSize : UInt64) :
    ledger.Owns (file.truncate newSize) (heldWith file rest) fun r held' =>
      held' = heldWith r.2 rest :=
  Ledger.owns_swap_bind fun _ => rfl

theorem readChunks_owns (fuel : ℕ) (file : File) (buf : ByteVec) (chunk : Bytes)
    (total : UInt64) :
    ledger.Owns (File.readChunks build fuel file buf chunk total) (heldWith file rest)
      fun r held' => held' = heldWith r.2.2 rest := by
  induction fuel generalizing file buf chunk total with
  | zero => trivial
  | succ fuel ih =>
      refine Ledger.owns_bind (read_owns chunk) ?_
      rintro ⟨result, chunk, file⟩ _ rfl
      rcases result with e | n
      · exact rfl
      · by_cases hn : n = 0
        · simp only [hn, if_true]
          exact rfl
        · simp only [hn, if_false]
          refine Ledger.owns_ofOutcome_bind fun part _ => ?_
          refine Ledger.owns_ofOutcome_bind fun buf _ => ?_
          exact Ledger.owns_ofOutcome_bind fun total _ => ih file buf chunk total

theorem readToEnd_owns (fuel : ℕ) (buf : ByteVec) :
    ledger.Owns (file.readToEnd build fuel buf) (heldWith file rest) fun r held' =>
      held' = heldWith r.2.2 rest := by
  refine Ledger.owns_bind size_owns ?_
  rintro size _ rfl
  refine Ledger.owns_ofOutcome_bind fun _ _ => ?_
  refine Ledger.owns_bind (seek_owns _) ?_
  rintro ⟨result, file⟩ _ rfl
  rcases result with e | _
  · exact rfl
  · exact readChunks_owns fuel file buf _ 0

theorem readToString_owns (fuel : ℕ) (buf : String) :
    ledger.Owns (file.readToString build fuel buf) (heldWith file rest) fun r held' =>
      held' = heldWith r.2.2 rest := by
  refine Ledger.owns_bind (readToEnd_owns fuel _) ?_
  rintro ⟨result, bytes, file⟩ _ rfl
  rcases result with e | n
  · exact rfl
  · dsimp only
    rcases fromUtf8 bytes.bytes with _ | text
    · exact rfl
    · exact rfl

theorem writeRest_owns (buf : Bytes) (fuel : ℕ) (file : File) (written : UInt64) :
    ledger.Owns (File.writeRest build buf fuel file written) (heldWith file rest) fun r held' =>
      held' = heldWith r.2 rest := by
  induction fuel generalizing file written with
  | zero =>
      unfold File.writeRest
      split
      · trivial
      · exact rfl
  | succ fuel ih =>
      unfold File.writeRest
      by_cases hlt : written < len buf
      · simp only [hlt, if_true]
        refine Ledger.owns_ofOutcome_bind fun part _ => ?_
        refine Ledger.owns_bind (write_owns part) ?_
        rintro ⟨result, file⟩ _ rfl
        rcases result with e | n
        · exact rfl
        · by_cases hn : n = 0
          · simp only [hn, if_true]
            exact rfl
          · simp only [hn, if_false]
            exact Ledger.owns_ofOutcome_bind fun written _ => ih file written
      · simp only [hlt, if_false]
        exact rfl

theorem owns_answering {α : Type} {p : Sys (Except Error α × File)} {before : Multiset Resource}
    (f : α → ApiValue) (h : ledger.Owns p before fun r held' => held' = heldWith r.2 rest) :
    ledger.Owns (answeringWith f p) before fun r held' => held' = heldWith r.2 rest :=
  Ledger.owns_bind h fun _ _ hheld => hheld

theorem owns_answeringFilled {α β : Type} {p : Sys (Except Error α × β × File)}
    {before : Multiset Resource} (f : α → β → ApiValue)
    (h : ledger.Owns p before fun r held' => held' = heldWith r.2.2 rest) :
    ledger.Owns (answeringFilled f p) before fun r held' => held' = heldWith r.2 rest :=
  Ledger.owns_bind h fun _ _ hheld => hheld

/-- Every operation of a file balances: it holds one open file, before and after. -/
theorem fileOp_owns {id : UInt64} (h : file.fs.mountPoint = mountPointOf id) (op : FileOp)
    {rest : Multiset Resource} :
    ledger.Owns (op.perform build file) (heldWith file (held file.fs + rest)) fun r held' =>
      held' = heldWith r.2 (held file.fs + rest) := by
  -- the two operations that go through the instance see the file as one of the others
  have hsync : ledger.Owns file.sync (heldWith file (held file.fs + rest)) fun r held' =>
      held' = heldWith r.2 (held file.fs + rest) := by
    have hle : {Resource.mount file.fs.mountPoint.bytes} ≤ heldWith file (held file.fs + rest) :=
      (mount_le_held.trans (Multiset.le_add_right _ rest)).trans (Multiset.le_add_left _ _)
    have hflush : file.fs.sync.run.AllCalls
        (ledger.Borrows (heldWith file (held file.fs + rest))) :=
      allCalls_run_request_bind ⟨hle, fun _ => rfl⟩ fun _ => trivial
    exact Ledger.owns_bind (Ledger.owns_of_allCalls hflush) fun _ _ hheld => hheld
  have hmetadata : ledger.Owns file.metadata (heldWith file (held file.fs + rest))
      fun r held' => held' = heldWith r.2 (held file.fs + rest) := by
    unfold heldWith
    rw [add_left_comm]
    refine Ledger.owns_bind (metadata_owns h) ?_
    rintro _ _ rfl
    exact add_left_comm _ _ _
  cases op with
  | read buf => exact owns_answeringFilled _ (read_owns buf)
  | write buf => exact owns_answering _ (write_owns buf)
  | seek pos => exact owns_answering _ (seek_owns pos)
  | position => exact Ledger.owns_bind position_owns fun _ _ hheld => hheld
  | size => exact Ledger.owns_bind size_owns fun _ _ hheld => hheld
  | truncate newSize => exact owns_answering _ (truncate_owns newSize)
  | flush => exact rfl
  | sync => exact owns_answering _ hsync
  | metadata => exact owns_answering _ hmetadata
  | readToEnd fuel buf =>
      rw [FileOp.perform]
      exact owns_answeringFilled _ (readToEnd_owns fuel buf)
  | readToString fuel buf =>
      rw [FileOp.perform]
      exact owns_answeringFilled _ (readToString_owns fuel buf)
  | writeAll fuel buf => exact owns_answering _ (writeRest_owns buf fuel file 0)
  | ioRead buf =>
      refine Ledger.owns_bind (Ledger.owns_bind (read_owns buf) ?_) fun _ _ hheld => hheld
      exact fun _ _ hheld => hheld
  | ioWrite buf =>
      refine Ledger.owns_bind (Ledger.owns_bind (write_owns buf) ?_) fun _ _ hheld => hheld
      exact fun _ _ hheld => hheld
  | ioFlush => exact rfl
  | ioSeek pos =>
      refine Ledger.owns_bind (Ledger.owns_bind (seek_owns pos) ?_) fun _ _ hheld => hheld
      exact fun _ _ hheld => hheld

theorem dirOp_owns (dir : Dir) (op : DirOp) :
    ledger.Owns (op.perform dir) ({ofDir dir} + rest) fun r held' =>
      held' = {ofDir r.2} + rest := by
  cases op with
  | nextEntry => exact Ledger.owns_swap_bind fun _ => rfl
  | next => exact Ledger.owns_swap_bind fun _ => rfl
  | rewind => exact Ledger.owns_swap_bind fun _ => rfl

end Handles

end Ext4Lwext4.Metatheory
