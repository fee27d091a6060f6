import Ext4Lwext4.Model.Sys

/-! # Filesystem operations

`Ext4Fs`: mounting and unmounting, the paths handed to lwext4, and the
operations that work on a path alone. Those that open a file or a directory
are in `Model.File` and `Model.Dir`. -/

namespace Ext4Lwext4.Model

open Ext4Lwext4.Framework

/-! ## Names -/

theorem zero_notMem_decimal (id : UInt64) : 0 ∉ decimal id := by
  intro h
  have := (digit_of_mem_decimal h).1
  simp at this

/-- `CString::new(format!("ext4dev{}", id)).unwrap()`: there is no NUL in the
name, so the unwrap never panics. -/
def deviceNameOf (id : UInt64) : CString where
  bytes := strBytes "ext4dev" ++ decimal id
  noNul h := by
    rcases List.mem_append.mp h with h | h
    · exact absurd h (by decide)
    · exact zero_notMem_decimal id h

/-- `CString::new(format!("/mp{}/", id)).unwrap()`. -/
def mountPointOf (id : UInt64) : CString where
  bytes := strBytes "/mp" ++ decimal id ++ strBytes "/"
  noNul h := by
    rcases List.mem_append.mp h with h | h
    · rcases List.mem_append.mp h with h | h
      · exact absurd h (by decide)
      · exact zero_notMem_decimal id h
    · exact absurd h (by decide)

theorem mountPointOf_bytes (id : UInt64) :
    (mountPointOf id).bytes = strBytes ("/mp" ++ toString id.toNat ++ "/") := by
  simp only [mountPointOf, decimal, strBytes_append]

/-- `path.strip_prefix('/').unwrap_or(path)`. -/
def stripSlash (path : String) : String :=
  match path.toList with
  | '/' :: rest => String.ofList rest
  | _ => path

theorem stripSlash_slash (path : String) : stripSlash ("/" ++ path) = path := by
  unfold stripSlash
  rw [String.toList_append]
  exact String.ofList_toList

theorem stripSlash_of_no_slash {path : String} (h : ∀ rest, path.toList ≠ '/' :: rest) :
    stripSlash path = path := by
  unfold stripSlash
  split
  · rename_i rest heq
    exact absurd heq (h rest)
  · rfl

/-- A slash is not a NUL, so nothing is lost with it. -/
theorem zero_mem_stripSlash (path : String) :
    0 ∈ strBytes (stripSlash path) ↔ 0 ∈ strBytes path := by
  by_cases h : ∃ rest, path.toList = '/' :: rest
  · obtain ⟨rest, hrest⟩ := h
    have hpath : path = "/" ++ String.ofList rest := by
      apply String.toList_inj.mp
      simp [hrest]
    rw [hpath, stripSlash_slash, strBytes_append]
    have hslash : (0 : UInt8) ∉ strBytes "/" := by decide
    simp [hslash]
  · rw [stripSlash_of_no_slash fun rest hrest => h ⟨rest, hrest⟩]

/-! ## The instance -/

/-- `Ext4Fs`, with the box it owns given by the address of its `ext4_blockdev`. -/
structure Ext4Fs where
  wrapper : BdevPtr
  deviceName : CString
  mountPoint : CString
  readOnly : Bool
  journalActive : Bool
  deriving DecidableEq

namespace Ext4Fs

/-! ## Mounting -/

/-- `mount` from the registration of the device on: the part with early
returns, at which the wrapper is still a local. -/
def mountRegistered (wrapper : BdevPtr) (deviceName mountPoint : CString) (readOnly : Bool) :
    ExceptT Error Sys Ext4Fs := do
  let ret ← sys (.ext4DeviceRegister wrapper deviceName)
  liftM (checkErrno ret)
  let ret ← sys (.ext4Mount deviceName mountPoint readOnly)
  if h : ret ≠ 0 then
    -- Unregister device on mount failure
    let _ ← sys (.ext4DeviceUnregister deviceName)
    throw (Error.fromErrno ret h)
  -- The code of the recovery is not looked at: there might be no journal.
  let _ ← sys (.ext4Recover mountPoint)
  let journalActive ← if readOnly then pure false else do
    let ret ← sys (.ext4JournalStart mountPoint)
    pure (decide (ret = 0))
  return { wrapper, deviceName, mountPoint, readOnly, journalActive }

/-- `Ext4Fs::mount`. The wrapper is moved into the instance, and dropped where
an early return leaves none. -/
def mount {D : Type} [BlockDevice D] (build : Build) (device : D) (readOnly : Bool) :
    Sys (Except Error Ext4Fs) := do
  let id ← sys .deviceCounterFetchAdd
  let deviceName := deviceNameOf id
  let mountPoint := mountPointOf id
  let wrapper ← Prog.ofOutcome (BlockDeviceWrapper.new build device)
  let wrapper ← sys (.boxWrapper wrapper.bdev)
  let result ← (mountRegistered wrapper deviceName mountPoint readOnly).run
  match result with
  | .ok fs => return .ok fs
  | .error e => do
      let _ ← sys (.dropWrapper wrapper)
      return .error e

/-! ## Unmounting -/

/-- How both `umount` and `drop` begin: the code of the stop is not looked at. -/
def stopJournal (self : Ext4Fs) : Sys Unit := do
  if self.journalActive then
    let _ ← sys (.ext4JournalStop self.mountPoint)

/-- `impl Drop for Ext4Fs`. -/
def drop (self : Ext4Fs) : Sys Unit := do
  self.stopJournal
  let _ ← sys (.ext4CacheFlush self.mountPoint)
  let _ ← sys (.ext4Umount self.mountPoint)
  let _ ← sys (.ext4DeviceUnregister self.deviceName)

/-- What the end of an instance's scope runs: `drop`, then the drop of its fields. -/
def dropGlue (self : Ext4Fs) : Sys Unit := do
  self.drop
  let _ ← sys (.dropWrapper self.wrapper)

def umountBody (self : Ext4Fs) : ExceptT Error Sys Unit := do
  liftM self.stopJournal
  let _ ← sys (.ext4CacheFlush self.mountPoint)
  let ret ← sys (.ext4Umount self.mountPoint)
  liftM (checkErrno ret)
  let ret ← sys (.ext4DeviceUnregister self.deviceName)
  liftM (checkErrno ret)

/-- `Ext4Fs::umount(self)`: the receiver goes out of scope at every return. -/
def umount (self : Ext4Fs) : Sys (Except Error Unit) := do
  let result ← self.umountBody.run
  self.dropGlue
  return result

/-! ## Paths -/

def makePath (self : Ext4Fs) (path : String) : Except Error CString :=
  let path := stripSlash path
  match fromUtf8 self.mountPoint.bytes with
  | none => .error (.invalidArgument "invalid mount point")
  | some mountPoint => (CString.new (strBytes (mountPoint ++ path))).mapError .nulError

/-- On the mount point of an instance only a NUL in the path can fail. -/
theorem makePath_eq {self : Ext4Fs} {id : UInt64} (h : self.mountPoint = mountPointOf id)
    (path : String) : self.makePath path =
      (CString.new (self.mountPoint.bytes ++ strBytes (stripSlash path))).mapError .nulError := by
  have hbytes : self.mountPoint.bytes = strBytes ("/mp" ++ toString id.toNat ++ "/") := by
    rw [h, mountPointOf_bytes]
  unfold makePath
  rw [hbytes, fromUtf8_strBytes, ← strBytes_append]

/-- A path without a NUL goes to lwext4 whole, behind the mount point. -/
theorem makePath_ok {self : Ext4Fs} {id : UInt64} (h : self.mountPoint = mountPointOf id)
    {path : String} (hpath : 0 ∉ strBytes path) :
    ∃ p, self.makePath path = .ok p ∧
      p.bytes = self.mountPoint.bytes ++ strBytes (stripSlash path) := by
  have hnul : 0 ∉ self.mountPoint.bytes ++ strBytes (stripSlash path) := by
    rw [List.mem_append, zero_mem_stripSlash]
    exact not_or.mpr ⟨self.mountPoint.noNul, hpath⟩
  refine ⟨⟨_, hnul⟩, ?_, rfl⟩
  rw [makePath_eq h, CString.new_ok hnul]
  rfl

/-- One with a NUL does not go at all. -/
theorem makePath_nul {self : Ext4Fs} {id : UInt64} (h : self.mountPoint = mountPointOf id)
    {path : String} (hpath : 0 ∈ strBytes path) :
    ∃ e, self.makePath path = .error (.nulError e) := by
  have hnul : 0 ∈ self.mountPoint.bytes ++ strBytes (stripSlash path) :=
    List.mem_append_right _ ((zero_mem_stripSlash path).mpr hpath)
  have hmake := makePath_eq h path
  rw [CString.new_error hnul] at hmake
  exact ⟨_, hmake⟩

def isReadOnly (self : Ext4Fs) : Bool := self.readOnly

/-! ## Operations -/

/-- The volume name, up to its first NUL. -/
def volumeNameOf (stats : Ext4MountStats) : String :=
  fromUtf8Lossy (stats.volumeName.takeWhile (· ≠ 0))

def stat (self : Ext4Fs) : ExceptT Error Sys FsStats := do
  let (ret, stats) ← sys (.ext4MountPointStats self.mountPoint .default)
  liftM (checkErrno ret)
  return {
    blockSize := stats.blockSize
    totalBlocks := stats.blocksCount
    freeBlocks := stats.freeBlocksCount
    totalInodes := stats.inodesCount.toUInt64
    freeInodes := stats.freeInodesCount.toUInt64
    blockGroupCount := stats.blockGroupCount
    blocksPerGroup := stats.blocksPerGroup
    inodesPerGroup := stats.inodesPerGroup
    volumeName := volumeNameOf stats }

/-- The shape of the operations that change what one path names. -/
def changePath (self : Ext4Fs) (path : String) (call : CString → Sys Int32) :
    ExceptT Error Sys Unit := do
  if self.readOnly then throw .readOnly
  let fullPath ← liftM (self.makePath path)
  let ret ← call fullPath
  liftM (checkErrnoWithPath ret path)

/-- The shape of the operations that change two paths; an error names the first. -/
def changePaths (self : Ext4Fs) (src dst : String) (call : CString → CString → Sys Int32) :
    ExceptT Error Sys Unit := do
  if self.readOnly then throw .readOnly
  let srcPath ← liftM (self.makePath src)
  let dstPath ← liftM (self.makePath dst)
  let ret ← call srcPath dstPath
  liftM (checkErrnoWithPath ret src)

def setPermissions (self : Ext4Fs) (path : String) (mode : UInt32) : ExceptT Error Sys Unit :=
  self.changePath path fun fullPath => sys (.ext4ModeSet fullPath mode)

def setOwner (self : Ext4Fs) (path : String) (uid gid : UInt32) : ExceptT Error Sys Unit :=
  self.changePath path fun fullPath => sys (.ext4OwnerSet fullPath uid gid)

/-- `mkdir` checks `read_only` once for the directory and, through
`set_permissions`, once more for its mode. -/
def mkdir (self : Ext4Fs) (path : String) (mode : UInt32) : ExceptT Error Sys Unit := do
  self.changePath path fun fullPath => sys (.ext4DirMk fullPath)
  if mode ≠ 0 then
    self.setPermissions path mode

def remove (self : Ext4Fs) (path : String) : ExceptT Error Sys Unit :=
  self.changePath path fun fullPath => sys (.ext4Fremove fullPath)

def rmdir (self : Ext4Fs) (path : String) : ExceptT Error Sys Unit :=
  self.changePath path fun fullPath => sys (.ext4DirRm fullPath)

def rename (self : Ext4Fs) (src dst : String) : ExceptT Error Sys Unit :=
  self.changePaths src dst fun fromPath toPath => sys (.ext4Frename fromPath toPath)

def link (self : Ext4Fs) (src dst : String) : ExceptT Error Sys Unit :=
  self.changePaths src dst fun srcPath dstPath => sys (.ext4Flink srcPath dstPath)

def symlink (self : Ext4Fs) (target path : String) : ExceptT Error Sys Unit := do
  if self.readOnly then throw .readOnly
  let targetCstr ← liftM ((CString.new (strBytes target)).mapError Error.nulError)
  let pathFull ← liftM (self.makePath path)
  let ret ← sys (.ext4Fsymlink targetCstr pathFull)
  liftM (checkErrnoWithPath ret path)

def readlink (self : Ext4Fs) (path : String) : ExceptT Error Sys String := do
  let fullPath ← liftM (self.makePath path)
  let buf : Bytes := List.replicate 4096 0
  let (ret, buf, rcnt) ← sys (.ext4Readlink fullPath buf (len buf) 0)
  liftM (checkErrnoWithPath ret path)
  match fromUtf8 (buf.val.take rcnt.toNat) with
  | some target => return target
  | none => throw (.invalidArgument "invalid UTF-8 in symlink")

/-- `is_file` and `is_dir`: whether lwext4 knows an inode of the type there. -/
def inodeExist (self : Ext4Fs) (path : String) (type : FileType) : Sys Bool :=
  match self.makePath path with
  | .error _ => return false
  | .ok fullPath => do
      let ret ← sys (.ext4InodeExist fullPath type.toRaw.toUInt32.toInt32)
      return decide (ret = 0)

def isFile (self : Ext4Fs) (path : String) : Sys Bool := self.inodeExist path .regularFile

def isDir (self : Ext4Fs) (path : String) : Sys Bool := self.inodeExist path .directory

def sync (self : Ext4Fs) : ExceptT Error Sys Unit := do
  let ret ← sys (.ext4CacheFlush self.mountPoint)
  liftM (checkErrno ret)

end Ext4Fs

end Ext4Lwext4.Model
