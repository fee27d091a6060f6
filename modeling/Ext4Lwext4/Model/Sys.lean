import Ext4Lwext4.Model.BlockDeviceWrapper
import Ext4Lwext4.Model.Types

/-! # The C interface

The lwext4 functions the crate calls, with the structures it passes to them.
lwext4 itself is not part of the crate: a function of the crate is a program
over these calls, and what lwext4 does with a call is up to the environment
the program runs in. A pointer argument that C writes through is passed with
its present content and returned with the content C left. -/

namespace Ext4Lwext4.Model

open Ext4Lwext4.Framework

/-! ## Structures (`ext4.h`) -/

structure Ext4File where
  mp : UInt64
  inode : UInt32
  flags : UInt32
  fsize : UInt64
  fpos : UInt64
  deriving DecidableEq, Repr

def Ext4File.default : Ext4File := ⟨0, 0, 0, 0, 0⟩

structure Ext4Direntry where
  inode : UInt32
  entryLength : UInt16
  nameLength : UInt8
  inodeType : UInt8
  name : Bytes
  name_length : name.length = 255
  deriving DecidableEq

def Ext4Direntry.default : Ext4Direntry :=
  ⟨0, 0, 0, 0, List.replicate 255 0, List.length_replicate⟩

structure Ext4Dir where
  f : Ext4File
  de : Ext4Direntry
  nextOff : UInt64
  deriving DecidableEq

def Ext4Dir.default : Ext4Dir := ⟨.default, .default, 0⟩

structure Ext4MountStats where
  inodesCount : UInt32
  freeInodesCount : UInt32
  blocksCount : UInt64
  freeBlocksCount : UInt64
  blockSize : UInt32
  blockGroupCount : UInt32
  blocksPerGroup : UInt32
  inodesPerGroup : UInt32
  volumeName : Bytes
  volumeName_length : volumeName.length = 16
  deriving DecidableEq

def Ext4MountStats.default : Ext4MountStats :=
  ⟨0, 0, 0, 0, 0, 0, 0, 0, List.replicate 16 0, List.length_replicate⟩

/-! ## Calls -/

/-- The address of an `ext4_blockdev`, which lives in a boxed
`BlockDeviceWrapper`. -/
abbrev BdevPtr : Type := UInt64

/-- A buffer after C wrote into it: it has the length it had. -/
abbrev Filled (buf : Bytes) : Type := { out : Bytes // out.length = buf.length }

/-- The calls of the crate on what it does not own: its static counter, the
heap its wrappers live in, and lwext4. -/
inductive Call
  /-- `DEVICE_COUNTER.fetch_add(1, SeqCst)` -/
  | deviceCounterFetchAdd
  /-- `Box::new(wrapper)`, after which lwext4 can be given its address -/
  | boxWrapper (bdev : Ext4Blockdev)
  /-- the drop of the box -/
  | dropWrapper (wrapper : BdevPtr)
  | ext4DeviceRegister (bd : BdevPtr) (devName : CString)
  | ext4DeviceUnregister (devName : CString)
  | ext4Mount (devName mountPoint : CString) (readOnly : Bool)
  | ext4Umount (mountPoint : CString)
  | ext4MountPointStats (mountPoint : CString) (stats : Ext4MountStats)
  | ext4JournalStart (mountPoint : CString)
  | ext4JournalStop (mountPoint : CString)
  | ext4Recover (mountPoint : CString)
  | ext4CacheFlush (path : CString)
  | ext4Fopen2 (file : Ext4File) (path : CString) (flags : Int32)
  | ext4Fclose (file : Ext4File)
  | ext4Ftruncate (file : Ext4File) (size : UInt64)
  | ext4Fread (file : Ext4File) (buf : Bytes) (size : UInt64) (rcnt : UInt64)
  | ext4Fwrite (file : Ext4File) (buf : Bytes) (size : UInt64) (wcnt : UInt64)
  | ext4Fseek (file : Ext4File) (offset : Int64) (origin : UInt32)
  | ext4Ftell (file : Ext4File)
  | ext4Fsize (file : Ext4File)
  | ext4Fremove (path : CString)
  | ext4Frename (path newPath : CString)
  | ext4Flink (path hardlinkPath : CString)
  | ext4Fsymlink (target path : CString)
  | ext4Readlink (path : CString) (buf : Bytes) (bufsize : UInt64) (rcnt : UInt64)
  | ext4DirMk (path : CString)
  | ext4DirRm (path : CString)
  | ext4DirOpen (dir : Ext4Dir) (path : CString)
  | ext4DirClose (dir : Ext4Dir)
  | ext4DirEntryNext (dir : Ext4Dir)
  | ext4DirEntryRewind (dir : Ext4Dir)
  | ext4ModeGet (path : CString) (mode : UInt32)
  | ext4ModeSet (path : CString) (mode : UInt32)
  | ext4OwnerGet (path : CString) (uid gid : UInt32)
  | ext4OwnerSet (path : CString) (uid gid : UInt32)
  | ext4AtimeGet (path : CString) (atime : UInt32)
  | ext4MtimeGet (path : CString) (mtime : UInt32)
  | ext4CtimeGet (path : CString) (ctime : UInt32)
  | ext4InodeExist (path : CString) (inodeType : Int32)
  deriving DecidableEq

@[reducible] def Reply : Call → Type
  | .deviceCounterFetchAdd => UInt64
  | .boxWrapper _ => BdevPtr
  | .dropWrapper _ => Unit
  | .ext4MountPointStats _ _ => Int32 × Ext4MountStats
  | .ext4Fopen2 _ _ _ => Int32 × Ext4File
  | .ext4Ftruncate _ _ => Int32 × Ext4File
  | .ext4Fread _ buf _ _ => Int32 × Ext4File × Filled buf × UInt64
  | .ext4Fwrite _ _ _ _ => Int32 × Ext4File × UInt64
  | .ext4Fseek _ _ _ => Int32 × Ext4File
  | .ext4Ftell _ => UInt64
  | .ext4Fsize _ => UInt64
  | .ext4Readlink _ buf _ _ => Int32 × Filled buf × UInt64
  | .ext4DirOpen _ _ => Int32 × Ext4Dir
  | .ext4DirEntryNext _ => Option Ext4Direntry × Ext4Dir
  | .ext4DirEntryRewind _ => Ext4Dir
  | .ext4ModeGet _ _ => Int32 × UInt32
  | .ext4OwnerGet _ _ _ => Int32 × UInt32 × UInt32
  | .ext4AtimeGet _ _ => Int32 × UInt32
  | .ext4MtimeGet _ _ => Int32 × UInt32
  | .ext4CtimeGet _ _ => Int32 × UInt32
  | .ext4DeviceRegister _ _ | .ext4DeviceUnregister _ | .ext4Mount _ _ _ | .ext4Umount _
  | .ext4JournalStart _ | .ext4JournalStop _ | .ext4Recover _ | .ext4CacheFlush _
  | .ext4Fclose _ | .ext4Fremove _ | .ext4Frename _ _ | .ext4Flink _ _ | .ext4Fsymlink _ _
  | .ext4DirMk _ | .ext4DirRm _ | .ext4DirClose _ | .ext4ModeSet _ _ | .ext4OwnerSet _ _ _
  | .ext4InodeExist _ _ => Int32

instance : Inhabited Ext4File := ⟨.default⟩
instance : Inhabited Ext4Dir := ⟨.default⟩
instance : Inhabited Ext4MountStats := ⟨.default⟩

/-- There is something to reply to every call. -/
theorem nonempty_reply (c : Call) : Nonempty (Reply c) := by
  cases c with
  | ext4Fread file buf size rcnt => exact ⟨((0 : Int32), default, ⟨buf, rfl⟩, (0 : UInt64))⟩
  | ext4Readlink path buf bufsize rcnt => exact ⟨((0 : Int32), ⟨buf, rfl⟩, (0 : UInt64))⟩
  | _ => exact ⟨default⟩

/-- A program of the crate. -/
abbrev Sys (α : Type) : Type := Prog Call Reply α

abbrev sys (c : Call) : Sys (Reply c) := Prog.request c

/-- A call with its reply. -/
abbrev SysEvent : Type := Event Call Reply

/-- The return code of a call; `0` for one that has none. -/
def returnCode : (c : Call) → Reply c → Int32
  | .deviceCounterFetchAdd, _ | .boxWrapper _, _ | .dropWrapper _, _ | .ext4Ftell _, _
  | .ext4Fsize _, _ | .ext4DirEntryNext _, _ | .ext4DirEntryRewind _, _ => 0
  | .ext4MountPointStats _ _, r => r.1
  | .ext4Fopen2 _ _ _, r => r.1
  | .ext4Ftruncate _ _, r => r.1
  | .ext4Fread _ _ _ _, r => r.1
  | .ext4Fwrite _ _ _ _, r => r.1
  | .ext4Fseek _ _ _, r => r.1
  | .ext4Readlink _ _ _ _, r => r.1
  | .ext4DirOpen _ _, r => r.1
  | .ext4ModeGet _ _, r => r.1
  | .ext4OwnerGet _ _ _, r => r.1
  | .ext4AtimeGet _ _, r => r.1
  | .ext4MtimeGet _ _, r => r.1
  | .ext4CtimeGet _ _, r => r.1
  | .ext4DeviceRegister _ _, code | .ext4DeviceUnregister _, code | .ext4Mount _ _ _, code
  | .ext4Umount _, code | .ext4JournalStart _, code | .ext4JournalStop _, code
  | .ext4Recover _, code | .ext4CacheFlush _, code | .ext4Fclose _, code
  | .ext4Fremove _, code | .ext4Frename _ _, code | .ext4Flink _ _, code
  | .ext4Fsymlink _ _, code | .ext4DirMk _, code | .ext4DirRm _, code | .ext4DirClose _, code
  | .ext4ModeSet _ _, code | .ext4OwnerSet _ _ _, code | .ext4InodeExist _ _, code => code

def Failed (e : SysEvent) : Prop := returnCode e.1 e.2 ≠ 0

end Ext4Lwext4.Model
