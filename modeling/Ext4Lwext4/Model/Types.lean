import Ext4Lwext4.Model.Error

/-! # Common types

The file types, open flags, seek origins and records of the public API, with
their translations to the constants of lwext4. -/

namespace Ext4Lwext4.Model

open Ext4Lwext4.Framework

/-! ## Constants of lwext4 -/

def O_RDONLY : Int32 := 0o0
def O_WRONLY : Int32 := 0o1
def O_RDWR : Int32 := 0o2
def O_CREAT : Int32 := 0o100
def O_EXCL : Int32 := 0o200
def O_TRUNC : Int32 := 0o1000
def O_APPEND : Int32 := 0o2000

def SEEK_SET : UInt32 := 0
def SEEK_CUR : UInt32 := 1
def SEEK_END : UInt32 := 2

def EXT4_DE_UNKNOWN : UInt8 := 0
def EXT4_DE_REG_FILE : UInt8 := 1
def EXT4_DE_DIR : UInt8 := 2
def EXT4_DE_CHRDEV : UInt8 := 3
def EXT4_DE_BLKDEV : UInt8 := 4
def EXT4_DE_FIFO : UInt8 := 5
def EXT4_DE_SOCK : UInt8 := 6
def EXT4_DE_SYMLINK : UInt8 := 7

def F_SET_EXT2 : Int32 := 2
def F_SET_EXT3 : Int32 := 3
def F_SET_EXT4 : Int32 := 4

def UUID_SIZE : ℕ := 16

/-! ## Filesystem types -/

inductive FsType
  | ext2
  | ext3
  | ext4
  deriving DecidableEq, Repr

def FsType.toRaw : FsType → Int32
  | .ext2 => F_SET_EXT2
  | .ext3 => F_SET_EXT3
  | .ext4 => F_SET_EXT4

/-! ## File types -/

inductive FileType
  | regularFile
  | directory
  | symlink
  | blockDevice
  | charDevice
  | fifo
  | socket
  | unknown
  deriving DecidableEq, Repr

def FileType.fromRaw (raw : UInt8) : FileType :=
  if raw = EXT4_DE_REG_FILE then .regularFile
  else if raw = EXT4_DE_DIR then .directory
  else if raw = EXT4_DE_SYMLINK then .symlink
  else if raw = EXT4_DE_BLKDEV then .blockDevice
  else if raw = EXT4_DE_CHRDEV then .charDevice
  else if raw = EXT4_DE_FIFO then .fifo
  else if raw = EXT4_DE_SOCK then .socket
  else .unknown

def FileType.toRaw : FileType → UInt8
  | .regularFile => EXT4_DE_REG_FILE
  | .directory => EXT4_DE_DIR
  | .symlink => EXT4_DE_SYMLINK
  | .blockDevice => EXT4_DE_BLKDEV
  | .charDevice => EXT4_DE_CHRDEV
  | .fifo => EXT4_DE_FIFO
  | .socket => EXT4_DE_SOCK
  | .unknown => EXT4_DE_UNKNOWN

/-- The codes of directory entries are read back as they are written. -/
theorem FileType.fromRaw_toRaw (t : FileType) : FileType.fromRaw t.toRaw = t := by
  cases t <;> rfl

/-- A raw type that is known is the one of its type. -/
theorem FileType.toRaw_fromRaw {raw : UInt8} (h : FileType.fromRaw raw ≠ .unknown) :
    (FileType.fromRaw raw).toRaw = raw := by
  grind [FileType.fromRaw, FileType.toRaw]

/-! ## Open flags -/

/-- The `bitflags` type: any `u32`, named bits or not. -/
structure OpenFlags where
  bits : UInt32
  deriving DecidableEq, Repr

namespace OpenFlags

def READ : OpenFlags := ⟨0b00000001⟩
def WRITE : OpenFlags := ⟨0b00000010⟩
def CREATE : OpenFlags := ⟨0b00000100⟩
def TRUNCATE : OpenFlags := ⟨0b00001000⟩
def APPEND : OpenFlags := ⟨0b00010000⟩
def EXCLUSIVE : OpenFlags := ⟨0b00100000⟩

def contains (self other : OpenFlags) : Bool := self.bits &&& other.bits == other.bits

def union (self other : OpenFlags) : OpenFlags := ⟨self.bits ||| other.bits⟩

def toRaw (self : OpenFlags) : Int32 :=
  let access :=
    if self.contains READ && self.contains WRITE then O_RDWR
    else if self.contains WRITE then O_WRONLY
    else O_RDONLY
  let create := if self.contains CREATE then O_CREAT else 0
  let truncate := if self.contains TRUNCATE then O_TRUNC else 0
  let append := if self.contains APPEND then O_APPEND else 0
  let exclusive := if self.contains EXCLUSIVE then O_EXCL else 0
  access ||| create ||| truncate ||| append ||| exclusive

/-- The raw flags carry `O_CREAT` exactly when `CREATE` was asked for. -/
theorem toRaw_creat (self : OpenFlags) :
    self.toRaw &&& O_CREAT ≠ 0 ↔ self.contains CREATE = true := by
  unfold toRaw
  cases self.contains READ <;> cases self.contains WRITE <;> cases self.contains CREATE <;>
    cases self.contains TRUNCATE <;> cases self.contains APPEND <;>
    cases self.contains EXCLUSIVE <;> decide

theorem toRaw_trunc (self : OpenFlags) :
    self.toRaw &&& O_TRUNC ≠ 0 ↔ self.contains TRUNCATE = true := by
  unfold toRaw
  cases self.contains READ <;> cases self.contains WRITE <;> cases self.contains CREATE <;>
    cases self.contains TRUNCATE <;> cases self.contains APPEND <;>
    cases self.contains EXCLUSIVE <;> decide

end OpenFlags

/-! ## Seeking -/

inductive SeekFrom
  | start (pos : UInt64)
  | fromEnd (pos : Int64)
  | current (pos : Int64)
  deriving DecidableEq, Repr

def SeekFrom.toRaw : SeekFrom → Int64 × UInt32
  | .start pos => (pos.toInt64, SEEK_SET)
  | .fromEnd pos => (pos, SEEK_END)
  | .current pos => (pos, SEEK_CUR)

/-! ## Records -/

structure Metadata where
  fileType : FileType
  size : UInt64
  blocks : UInt64
  mode : UInt32
  uid : UInt32
  gid : UInt32
  atime : UInt64
  mtime : UInt64
  ctime : UInt64
  nlink : UInt32
  deriving DecidableEq, Repr

structure FsStats where
  blockSize : UInt32
  totalBlocks : UInt64
  freeBlocks : UInt64
  totalInodes : UInt64
  freeInodes : UInt64
  blockGroupCount : UInt32
  blocksPerGroup : UInt32
  inodesPerGroup : UInt32
  volumeName : String
  deriving DecidableEq, Repr

namespace FsStats

/-- Total filesystem size in bytes. -/
def totalSize (build : Build) (self : FsStats) : Outcome UInt64 :=
  build.mul64 self.totalBlocks self.blockSize.toUInt64

/-- Free space in bytes. -/
def freeSize (build : Build) (self : FsStats) : Outcome UInt64 :=
  build.mul64 self.freeBlocks self.blockSize.toUInt64

/-- Used space in bytes. -/
def usedSize (build : Build) (self : FsStats) : Outcome UInt64 := do
  let used ← build.sub64 self.totalBlocks self.freeBlocks
  build.mul64 used self.blockSize.toUInt64

end FsStats

end Ext4Lwext4.Model
