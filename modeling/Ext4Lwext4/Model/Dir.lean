import Ext4Lwext4.Model.Ext4Fs

/-! # Directory operations -/

namespace Ext4Lwext4.Model

open Ext4Lwext4.Framework

structure DirEntry where
  name : String
  inode : UInt64
  fileType : FileType
  deriving DecidableEq, Repr

structure Dir where
  fs : Ext4Fs
  inner : Ext4Dir
  deriving DecidableEq

namespace Dir

/-- `Dir::open`. -/
def openDir (fs : Ext4Fs) (path : String) : ExceptT Error Sys Dir := do
  let fullPath ← liftM (fs.makePath path)
  let (ret, inner) ← sys (.ext4DirOpen .default fullPath)
  liftM (checkErrnoWithPath ret path)
  return { fs, inner }

/-- `impl Drop for Dir`. -/
def drop (self : Dir) : Sys Unit := do
  let _ ← sys (.ext4DirClose self.inner)

/-- A name that is not UTF-8 is converted lossily. The slice of the name is in
bounds whatever its length says: the array has 255 bytes. -/
def entryOf (entry : Ext4Direntry) : DirEntry :=
  let nameBytes := entry.name.take entry.nameLength.toNat
  { name := (fromUtf8 nameBytes).getD (fromUtf8Lossy nameBytes)
    inode := entry.inode.toUInt64
    fileType := .fromRaw entry.inodeType }

def nextEntry (self : Dir) : Sys (Option (Except Error DirEntry) × Dir) := do
  let (entry, inner) ← sys (.ext4DirEntryNext self.inner)
  return (entry.map fun entry => .ok (entryOf entry), { self with inner })

/-- `Iterator::next`. -/
def next (self : Dir) : Sys (Option (Except Error DirEntry) × Dir) := self.nextEntry

def rewind (self : Dir) : Sys Dir := do
  let inner ← sys (.ext4DirEntryRewind self.inner)
  return { self with inner }

end Dir

end Ext4Lwext4.Model
