import Ext4Lwext4.Model.BlockDeviceWrapper
import Ext4Lwext4.Model.Types

/-! # Filesystem creation

`mkfs` needs no mount: it calls two functions of lwext4 that no other part of
the crate calls, so they are an interface of their own. -/

namespace Ext4Lwext4.Model

open Ext4Lwext4.Framework

/-! ## Options -/

structure MkfsOptions where
  fsType : FsType
  blockSize : UInt32
  inodeSize : UInt32
  journal : Bool
  label : Option String
  uuid : Option (Vector UInt8 UUID_SIZE)
  deriving DecidableEq

namespace MkfsOptions

def default : MkfsOptions :=
  { fsType := .ext4, blockSize := 4096, inodeSize := 256, journal := true, label := none,
    uuid := none }

/-- An ext2 filesystem has no journal. -/
def ext2 : MkfsOptions := { default with fsType := .ext2, journal := false }

def ext3 : MkfsOptions := { default with fsType := .ext3 }

def ext4 : MkfsOptions := default

def withLabel (self : MkfsOptions) (label : String) : MkfsOptions :=
  { self with label := some label }

def withUuid (self : MkfsOptions) (uuid : Vector UInt8 UUID_SIZE) : MkfsOptions :=
  { self with uuid := some uuid }

def withBlockSize (self : MkfsOptions) (size : UInt32) : MkfsOptions :=
  { self with blockSize := size }

def withJournal (self : MkfsOptions) (enabled : Bool) : MkfsOptions :=
  { self with journal := enabled }

end MkfsOptions

/-! ## The C interface -/

/-- `ext4_mkfs_info`; the label is a pointer, which may be null. -/
structure Ext4MkfsInfo where
  len : UInt64
  blockSize : UInt32
  blocksPerGroup : UInt32
  inodesPerGroup : UInt32
  inodeSize : UInt32
  inodes : UInt32
  journalBlocks : UInt32
  featRoCompat : UInt32
  featCompat : UInt32
  featIncompat : UInt32
  bgDescReserveBlocks : UInt32
  dscSize : UInt16
  uuid : Vector UInt8 UUID_SIZE
  journal : Bool
  label : Option CString
  deriving DecidableEq

inductive MkfsCall
  | lwext4SizeofExt4Fs
  | ext4Mkfs (fs : ByteVec) (bd : Ext4Blockdev) (info : Ext4MkfsInfo) (fsType : Int32)
  deriving DecidableEq

@[reducible] def MkfsReply : MkfsCall → Type
  | .lwext4SizeofExt4Fs => UInt64
  | .ext4Mkfs _ _ _ _ => Int32

/-! ## mkfs -/

/-- `CString::new(l.as_str()).unwrap()` for a label that is provided. -/
def labelCstring (options : MkfsOptions) : Outcome (Option CString) :=
  match options.label with
  | none => .ok none
  | some l => (unwrap (CString.new (strBytes l))).map some

/-- The fields that are zero are for lwext4 to calculate. -/
def mkfsInfo (options : MkfsOptions) (partSize : UInt64) (label : Option CString) :
    Ext4MkfsInfo where
  len := partSize
  blockSize := options.blockSize
  blocksPerGroup := 0
  inodesPerGroup := 0
  inodeSize := options.inodeSize
  inodes := 0
  journalBlocks := 0
  featRoCompat := 0
  featCompat := 0
  featIncompat := 0
  bgDescReserveBlocks := 0
  dscSize := 0
  uuid := options.uuid.getD (Vector.replicate UUID_SIZE 0)
  journal := options.journal && options.fsType != .ext2
  label := label

/-- What lwext4 writes into the buffer and the info is not read again. -/
def mkfs {D : Type} [BlockDevice D] (build : Build) (device : D) (options : MkfsOptions) :
    Prog MkfsCall MkfsReply (Except Error Unit) := do
  let wrapper ← Prog.ofOutcome (BlockDeviceWrapper.new build device)
  let label ← Prog.ofOutcome (labelCstring options)
  let info := mkfsInfo options wrapper.bdev.partSize label
  let fsSize ← Prog.request .lwext4SizeofExt4Fs
  let fsBuf ← Prog.ofOutcome (ByteVec.zeroed fsSize)
  let ret ← Prog.request (.ext4Mkfs fsBuf wrapper.bdev info options.fsType.toRaw)
  return checkErrno ret

end Ext4Lwext4.Model
