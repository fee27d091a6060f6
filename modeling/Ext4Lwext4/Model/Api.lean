import Ext4Lwext4.Framework.Transition
import Ext4Lwext4.Model.Dir
import Ext4Lwext4.Model.File

/-! # The public interface as a system

A client holds a mounted instance and the files and directories it has open
on it, and performs one public operation after another. Handles are numbered
in the order they were opened; an operation on a handle that is not open has
no step, as it has no Rust program. -/

namespace Ext4Lwext4.Model

open Ext4Lwext4.Framework

/-! ## Operations -/

/-- The public operations of `Ext4Fs` that open no handle. -/
inductive FsOp
  | isReadOnly
  | stat
  | mkdir (path : String) (mode : UInt32)
  | remove (path : String)
  | rmdir (path : String)
  | rename (src dst : String)
  | link (src dst : String)
  | symlink (target path : String)
  | readlink (path : String)
  | existsPath (path : String)
  | isFile (path : String)
  | isDir (path : String)
  | metadata (path : String)
  | setPermissions (path : String) (mode : UInt32)
  | setOwner (path : String) (uid gid : UInt32)
  | sync
  deriving DecidableEq

/-- The public operations of `File`, its `std::io` traits included; the loops
come with their fuel. -/
inductive FileOp
  | read (buf : Bytes)
  | write (buf : Bytes)
  | seek (pos : SeekFrom)
  | position
  | size
  | truncate (size : UInt64)
  | flush
  | sync
  | metadata
  | readToEnd (fuel : ℕ) (buf : ByteVec)
  | readToString (fuel : ℕ) (buf : String)
  | writeAll (fuel : ℕ) (buf : Bytes)
  | ioRead (buf : Bytes)
  | ioWrite (buf : Bytes)
  | ioFlush
  | ioSeek (pos : SeekFrom)
  deriving DecidableEq

inductive DirOp
  | nextEntry
  | next
  | rewind
  deriving DecidableEq

inductive ApiOp
  | fs (op : FsOp)
  | openFile (path : String) (flags : OpenFlags)
  | openDir (path : String)
  | file (handle : ℕ) (op : FileOp)
  | dir (handle : ℕ) (op : DirOp)
  | dropFile (handle : ℕ)
  | dropDir (handle : ℕ)
  deriving DecidableEq

/-- What an operation returns in `Ok`, with the caller's buffer where it has one. -/
inductive ApiValue
  | unit
  | bool (b : Bool)
  | count (n : UInt64)
  | filled (n : UInt64) (buf : Bytes)
  | text (s : String)
  | counted (n : UInt64) (s : String)
  | metadata (m : Metadata)
  | stats (s : FsStats)
  | entry (e : Option DirEntry)
  | handle (i : ℕ)
  deriving DecidableEq

abbrev ApiResult : Type := Except Error ApiValue

/-! ## Performing them -/

/-- The result of an operation as the client sees it. -/
def answering {α : Type} (f : α → ApiValue) (p : Sys (Except Error α)) : Sys ApiResult := do
  let result ← p
  return result.map f

/-- The same for an operation that leaves a handle. -/
def answeringWith {α H : Type} (f : α → ApiValue) (p : Sys (Except Error α × H)) :
    Sys (ApiResult × H) := do
  let (result, handle) ← p
  return (result.map f, handle)

/-- The same for an operation that fills a buffer. -/
def answeringFilled {α β H : Type} (f : α → β → ApiValue) (p : Sys (Except Error α × β × H)) :
    Sys (ApiResult × H) := do
  let (result, buf, handle) ← p
  return (result.map fun a => f a buf, handle)

/-- An `io::Result`, seen as a result of the crate. -/
def ofIo {α : Type} (result : Except IoError α) : Except Error α := result.mapError .io

def FsOp.perform (fs : Ext4Fs) : FsOp → Sys ApiResult
  | .isReadOnly => return .ok (.bool fs.isReadOnly)
  | .stat => answering .stats fs.stat.run
  | .mkdir path mode => answering (fun _ => .unit) (fs.mkdir path mode).run
  | .remove path => answering (fun _ => .unit) (fs.remove path).run
  | .rmdir path => answering (fun _ => .unit) (fs.rmdir path).run
  | .rename src dst => answering (fun _ => .unit) (fs.rename src dst).run
  | .link src dst => answering (fun _ => .unit) (fs.link src dst).run
  | .symlink target path => answering (fun _ => .unit) (fs.symlink target path).run
  | .readlink path => answering .text (fs.readlink path).run
  | .existsPath path => do
      let b ← fs.existsPath path
      return .ok (.bool b)
  | .isFile path => do
      let b ← fs.isFile path
      return .ok (.bool b)
  | .isDir path => do
      let b ← fs.isDir path
      return .ok (.bool b)
  | .metadata path => answering .metadata (fs.metadata path).run
  | .setPermissions path mode => answering (fun _ => .unit) (fs.setPermissions path mode).run
  | .setOwner path uid gid => answering (fun _ => .unit) (fs.setOwner path uid gid).run
  | .sync => answering (fun _ => .unit) fs.sync.run

def FileOp.perform (build : Build) (file : File) : FileOp → Sys (ApiResult × File)
  | .read buf => answeringFilled .filled (file.read buf)
  | .write buf => answeringWith .count (file.write buf)
  | .seek pos => answeringWith .count (file.seek pos)
  | .position => do
      let n ← file.position
      return (.ok (.count n), file)
  | .size => do
      let n ← file.size
      return (.ok (.count n), file)
  | .truncate newSize => answeringWith (fun _ => .unit) (file.truncate newSize)
  | .flush => answeringWith (fun _ => .unit) file.flush
  | .sync => answeringWith (fun _ => .unit) file.sync
  | .metadata => answeringWith .metadata file.metadata
  | .readToEnd fuel buf =>
      answeringFilled (fun n (out : ByteVec) => .filled n out.bytes) (file.readToEnd build fuel buf)
  | .readToString fuel buf => answeringFilled .counted (file.readToString build fuel buf)
  | .writeAll fuel buf => answeringWith (fun _ => .unit) (file.writeAll build fuel buf)
  | .ioRead buf => do
      let (result, buf, file) ← file.ioRead buf
      return ((ofIo result).map fun n => .filled n buf, file)
  | .ioWrite buf => do
      let (result, file) ← file.ioWrite buf
      return ((ofIo result).map .count, file)
  | .ioFlush => do
      let (result, file) ← file.ioFlush
      return ((ofIo result).map fun _ => .unit, file)
  | .ioSeek pos => do
      let (result, file) ← file.ioSeek pos
      return ((ofIo result).map .count, file)

/-- `next_entry` yields `Some(Ok(_))` or `None`. -/
def DirOp.perform (dir : Dir) : DirOp → Sys (ApiResult × Dir)
  | .nextEntry => do
      let (entry, dir) ← dir.nextEntry
      return (yielded entry, dir)
  | .next => do
      let (entry, dir) ← dir.next
      return (yielded entry, dir)
  | .rewind => do
      let dir ← dir.rewind
      return (.ok .unit, dir)
where
  yielded : Option (Except Error DirEntry) → ApiResult
    | none => .ok (.entry none)
    | some result => result.map fun entry => .entry (some entry)

/-! ## Clients -/

structure Client where
  fs : Ext4Fs
  files : List (Option File)
  dirs : List (Option Dir)

namespace Client

/-- A client that has just mounted. -/
def mounted (fs : Ext4Fs) : Client := ⟨fs, [], []⟩

def file? (client : Client) (handle : ℕ) : Option File := client.files[handle]?.join

def dir? (client : Client) (handle : ℕ) : Option Dir := client.dirs[handle]?.join

def perform (build : Build) (client : Client) : ApiOp → Option (Sys (ApiResult × Client))
  | .fs op => some do
      let result ← op.perform client.fs
      return (result, client)
  | .openFile path flags => some do
      match ← (File.openFile client.fs path flags).run with
      | .ok file =>
          return (.ok (.handle client.files.length),
            { client with files := client.files ++ [some file] })
      | .error e => return (.error e, client)
  | .openDir path => some do
      match ← (Dir.openDir client.fs path).run with
      | .ok dir =>
          return (.ok (.handle client.dirs.length),
            { client with dirs := client.dirs ++ [some dir] })
      | .error e => return (.error e, client)
  | .file handle op => (client.file? handle).map fun file => do
      let (result, file) ← op.perform build file
      return (result, { client with files := client.files.set handle (some file) })
  | .dir handle op => (client.dir? handle).map fun dir => do
      let (result, dir) ← op.perform dir
      return (result, { client with dirs := client.dirs.set handle (some dir) })
  | .dropFile handle => (client.file? handle).map fun file => do
      file.drop
      return (.ok .unit, { client with files := client.files.set handle none })
  | .dropDir handle => (client.dir? handle).map fun dir => do
      dir.drop
      return (.ok .unit, { client with dirs := client.dirs.set handle none })

end Client

/-! ## Runs of a client -/

/-- An operation that was performed: how it ended and the calls it made. -/
structure Performed where
  op : ApiOp
  outcome : Outcome ApiResult
  trace : List SysEvent

/-- One operation of a client. One that panics ends the client's run. -/
inductive Client.Step (build : Build) (E : Environment Call Reply) :
    Option Client × E.State → Performed → Option Client × E.State → Prop
  | returned {client client' : Client} {s t : E.State} {op : ApiOp}
      {p : Sys (ApiResult × Client)} {tr : List SysEvent} {result : ApiResult} :
      client.perform build op = some p → Exec E p s tr (.ok (result, client')) t →
      Client.Step build E (some client, s) ⟨op, .ok result, tr⟩ (some client', t)
  | halted {client : Client} {s t : E.State} {op : ApiOp} {p : Sys (ApiResult × Client)}
      {tr : List SysEvent} {why : Halt} :
      client.perform build op = some p → Exec E p s tr (.error why) t →
      Client.Step build E (some client, s) ⟨op, .error why, tr⟩ (none, t)

/-- The calls of a run, in order. -/
def calls (performed : List Performed) : List SysEvent := performed.flatMap Performed.trace

/-! ## The end of an instance -/

inductive Ending
  | umount
  | drop
  deriving DecidableEq, Repr

/-- The end of an instance: `umount`, or the end of its scope. -/
def Ext4Fs.finish (fs : Ext4Fs) : Ending → Sys (Except Error Unit)
  | .umount => fs.umount
  | .drop => do
      fs.dropGlue
      return .ok ()

end Ext4Lwext4.Model
