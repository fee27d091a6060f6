import Ext4Lwext4.Model.Ext4Fs

/-! # File operations

`File` and the operations of `Ext4Fs` that open one. A method that borrows the
file mutably returns the file it leaves, also when it fails: lwext4 writes into
the `ext4_file` whatever code it returns. The loops take the number of rounds
they may make as fuel, since lwext4 may keep them going. -/

namespace Ext4Lwext4.Model

open Ext4Lwext4.Framework

structure File where
  fs : Ext4Fs
  inner : Ext4File
  path : String
  deriving DecidableEq

namespace File

/-- `File::open`. -/
def openFile (fs : Ext4Fs) (path : String) (flags : OpenFlags) : ExceptT Error Sys File := do
  let fullPath ← liftM (fs.makePath path)
  let (ret, inner) ← sys (.ext4Fopen2 .default fullPath flags.toRaw)
  liftM (checkErrnoWithPath ret path)
  return { fs, inner, path }

/-- `impl Drop for File`. -/
def drop (self : File) : Sys Unit := do
  let _ ← sys (.ext4Fclose self.inner)

def read (self : File) (buf : Bytes) : Sys (Except Error UInt64 × Bytes × File) := do
  let (ret, inner, buf, rcnt) ← sys (.ext4Fread self.inner buf (len buf) 0)
  return ((checkErrno ret).map fun _ => rcnt, buf.val, { self with inner })

def write (self : File) (buf : Bytes) : Sys (Except Error UInt64 × File) := do
  let (ret, inner, wcnt) ← sys (.ext4Fwrite self.inner buf (len buf) 0)
  return ((checkErrno ret).map fun _ => wcnt, { self with inner })

def position (self : File) : Sys UInt64 := sys (.ext4Ftell self.inner)

def size (self : File) : Sys UInt64 := sys (.ext4Fsize self.inner)

def seek (self : File) (pos : SeekFrom) : Sys (Except Error UInt64 × File) := do
  let (offset, origin) := pos.toRaw
  let (ret, inner) ← sys (.ext4Fseek self.inner offset origin)
  let self := { self with inner }
  match checkErrno ret with
  | .error e => return (.error e, self)
  | .ok () => do
      let pos ← self.position
      return (.ok pos, self)

def truncate (self : File) (size : UInt64) : Sys (Except Error Unit × File) := do
  let (ret, inner) ← sys (.ext4Ftruncate self.inner size)
  return (checkErrno ret, { self with inner })

/-- `File::flush`: lwext4 has no flush of one file. -/
def flush (self : File) : Sys (Except Error Unit × File) := return (.ok (), self)

def sync (self : File) : Sys (Except Error Unit × File) := do
  let result ← self.fs.sync.run
  return (result, self)

/-! ## Whole files -/

/-- The loop of `read_to_end`, with the chunk it reads into. -/
def readChunks (build : Build) : ℕ → File → ByteVec → Bytes → UInt64 →
    Sys (Except Error UInt64 × ByteVec × File)
  | 0, _, _, _, _ => .halt .outOfFuel
  | fuel + 1, self, buf, chunk, totalRead => do
      let (result, chunk, self) ← self.read chunk
      match result with
      | .error e => return (.error e, buf, self)
      | .ok n =>
          if n = 0 then return (.ok totalRead, buf, self)
          else do
            let part ← Prog.ofOutcome (sliceRange chunk 0 n.toNat)
            let buf ← Prog.ofOutcome (buf.extend part)
            let totalRead ← Prog.ofOutcome (build.add64 totalRead n)
            readChunks build fuel self buf chunk totalRead

def readToEnd (build : Build) (fuel : ℕ) (self : File) (buf : ByteVec) :
    Sys (Except Error UInt64 × ByteVec × File) := do
  let size ← self.size
  Prog.ofOutcome (buf.reserve size)
  let (result, self) ← self.seek (.start 0)
  match result with
  | .error e => return (.error e, buf, self)
  | .ok _ => readChunks build fuel self buf (List.replicate 8192 0) 0

def readToString (build : Build) (fuel : ℕ) (self : File) (buf : String) :
    Sys (Except Error UInt64 × String × File) := do
  let (result, bytes, self) ← readToEnd build fuel self ⟨[], Nat.zero_le _⟩
  match result with
  | .error e => return (.error e, buf, self)
  | .ok n =>
      match fromUtf8 bytes.bytes with
      | some text => return (.ok n, text, self)
      | none => return (.error (.invalidArgument "file contains invalid UTF-8"), buf, self)

/-- The loop of `write_all` from `written` on. -/
def writeRest (build : Build) (buf : Bytes) : ℕ → File → UInt64 →
    Sys (Except Error Unit × File)
  | fuel, self, written =>
      if written < len buf then
        match fuel with
        | 0 => .halt .outOfFuel
        | fuel + 1 => do
            let rest ← Prog.ofOutcome (sliceRange buf written.toNat buf.length)
            let (result, self) ← self.write rest
            match result with
            | .error e => return (.error e, self)
            | .ok n =>
                if n = 0 then
                  return (.error (.io (.message .writeZero "failed to write whole buffer")), self)
                else do
                  let written ← Prog.ofOutcome (build.add64 written n)
                  writeRest build buf fuel self written
      else return (.ok (), self)

def writeAll (build : Build) (fuel : ℕ) (self : File) (buf : Bytes) :
    Sys (Except Error Unit × File) :=
  writeRest build buf fuel self 0

end File

/-! ## Metadata -/

namespace Ext4Fs

def fileTypeOfMode (mode : UInt32) : FileType :=
  let bits := mode &&& 0o170000
  if bits = 0o100000 then .regularFile
  else if bits = 0o040000 then .directory
  else if bits = 0o120000 then .symlink
  else if bits = 0o060000 then .blockDevice
  else if bits = 0o020000 then .charDevice
  else if bits = 0o010000 then .fifo
  else if bits = 0o140000 then .socket
  else .unknown

/-- The size of a regular file, which is opened for it; zero if that fails. -/
def sizeOfFile (self : Ext4Fs) (path : String) : Sys UInt64 := do
  match ← (File.openFile self path .READ).run with
  | .ok file => do
      let size ← file.size
      file.drop
      return size
  | .error _ => return 0

def metadata (self : Ext4Fs) (path : String) : ExceptT Error Sys Metadata := do
  let fullPath ← liftM (self.makePath path)
  let (ret, mode) ← sys (.ext4ModeGet fullPath 0)
  liftM (checkErrnoWithPath ret path)
  let fileType := fileTypeOfMode mode
  let (_, uid, gid) ← sys (.ext4OwnerGet fullPath 0 0)
  let (_, atime) ← sys (.ext4AtimeGet fullPath 0)
  let (_, mtime) ← sys (.ext4MtimeGet fullPath 0)
  let (_, ctime) ← sys (.ext4CtimeGet fullPath 0)
  let size ← if fileType = .regularFile then liftM (self.sizeOfFile path) else pure 0
  return {
    fileType
    size
    blocks := 0
    mode := mode &&& 0o7777
    uid
    gid
    atime := atime.toUInt64
    mtime := mtime.toUInt64
    ctime := ctime.toUInt64
    nlink := 1 }

/-- `Ext4Fs::exists`. -/
def existsPath (self : Ext4Fs) (path : String) : Sys Bool := do
  let result ← (self.metadata path).run
  return result.isOk

end Ext4Fs

namespace File

def metadata (self : File) : Sys (Except Error Metadata × File) := do
  let result ← (self.fs.metadata self.path).run
  return (result, self)

/-! ## The `std::io` traits -/

/-- `io::Error::new(io::ErrorKind::Other, e)`. -/
def toIo {α : Type} (result : Except Error α) : Except IoError α :=
  result.mapError (.wrapped .other)

def ioRead (self : File) (buf : Bytes) : Sys (Except IoError UInt64 × Bytes × File) := do
  let (result, buf, self) ← self.read buf
  return (toIo result, buf, self)

def ioWrite (self : File) (buf : Bytes) : Sys (Except IoError UInt64 × File) := do
  let (result, self) ← self.write buf
  return (toIo result, self)

/-- The default of `io::Write::write_all`, which `File` does not override. -/
def ioWriteAll : ℕ → File → Bytes → Sys (Except IoError Unit × File)
  | fuel, self, buf =>
      if buf = [] then return (.ok (), self)
      else
        match fuel with
        | 0 => .halt .outOfFuel
        | fuel + 1 => do
            let (result, self) ← self.ioWrite buf
            match result with
            | .ok n =>
                if n = 0 then
                  return (.error (.message .writeZero "failed to write whole buffer"), self)
                else do
                  let rest ← Prog.ofOutcome (sliceRange buf n.toNat buf.length)
                  ioWriteAll fuel self rest
            | .error e =>
                if e.isInterrupted then ioWriteAll fuel self buf
                else return (.error e, self)

def ioFlush (self : File) : Sys (Except IoError Unit × File) := do
  let (result, self) ← self.flush
  return (toIo result, self)

/-- `io::SeekFrom` has the constructors of `SeekFrom`, which it is mapped to. -/
def ioSeek (self : File) (pos : SeekFrom) : Sys (Except IoError UInt64 × File) := do
  let (result, self) ← self.seek pos
  return (toIo result, self)

end File

end Ext4Lwext4.Model
