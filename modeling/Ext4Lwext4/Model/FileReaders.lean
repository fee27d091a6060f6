import Mathlib.Logic.Function.Basic
import Ext4Lwext4.Framework.Transition
import Ext4Lwext4.Model.FileBlockDevice

/-! # Threads that read one file device

`read_blocks` takes `&self`, so any number of calls run on one file device at
a time. They share the mutex and, behind it, the cursor of the host file.
`read_exact` asks the host for the rest of the buffer until there is none, and
the host may move fewer bytes than it is asked for. -/

namespace Ext4Lwext4.Model

open Ext4Lwext4.Framework

/-- A call of `read_blocks`. -/
structure ReadCall where
  blockId : UInt64
  buf : Bytes
  deriving DecidableEq

/-- Where a call is. In `reading` the buffer is `done ++ rest`, and the host is
still to fill `rest`. -/
inductive ReadPhase
  | called (call : ReadCall)
  | waiting (offset : UInt64) (blockCount : UInt32) (buf : Bytes)
  | locked (offset : UInt64) (blockCount : UInt32) (buf : Bytes)
  | reading (blockCount : UInt32) (done rest : Bytes)
  | unlocking (result : Except Error UInt32) (buf : Bytes)
  | returned (result : Except Error UInt32) (buf : Bytes)
  | panicked

/-- The device, the call that holds the guard of its mutex, and all calls. -/
structure FileReaders (ι : Type) where
  device : FileBlockDevice
  holder : Option ι
  phase : ι → ReadPhase

inductive ReadAction
  | compute
  | lock
  | seek
  | read (n : ℕ)
  | interrupted
  | finish
  | unlock
  deriving DecidableEq

/-- What `read_blocks` computes before it takes the lock. -/
def FileBlockDevice.readRequest (build : Build) (self : FileBlockDevice) (call : ReadCall) :
    Outcome (UInt64 × UInt32) := do
  let offset ← build.mul64 call.blockId self.blockSize.toUInt64
  let blockCount ← div32 (len call.buf).toUInt32 self.blockSize
  return (offset, blockCount)

/-- The bytes that are there for a read of `n` bytes at the cursor. -/
def HostFile.available (self : HostFile) (n : ℕ) : Bytes := window self.bytes self.cursor n

namespace FileReaders

variable {ι : Type} [DecidableEq ι]

/-- All calls are made, and none has done anything yet. -/
def start (device : FileBlockDevice) (calls : ι → ReadCall) : FileReaders ι :=
  ⟨device, none, fun i => .called (calls i)⟩

/-- Call `i` goes on to `phase`. -/
def goto (s : FileReaders ι) (i : ι) (phase : ReadPhase) : FileReaders ι :=
  { s with phase := Function.update s.phase i phase }

@[simp] theorem goto_phase_self (s : FileReaders ι) (i : ι) (p : ReadPhase) :
    (s.goto i p).phase i = p := Function.update_self _ _ _

theorem goto_phase_of_ne (s : FileReaders ι) {i j : ι} (p : ReadPhase) (h : j ≠ i) :
    (s.goto i p).phase j = s.phase j := Function.update_of_ne h _ _

inductive Step (build : Build) : FileReaders ι → ι × ReadAction → FileReaders ι → Prop
  | compute {s : FileReaders ι} {i : ι} {call : ReadCall} {offset : UInt64} {blockCount : UInt32}
      (hi : s.phase i = .called call)
      (hrequest : s.device.readRequest build call = .ok (offset, blockCount)) :
      Step build s (i, .compute) (s.goto i (.waiting offset blockCount call.buf))
  | overflow {s : FileReaders ι} {i : ι} {call : ReadCall} {why : Halt}
      (hi : s.phase i = .called call)
      (hrequest : s.device.readRequest build call = .error why) :
      Step build s (i, .compute) (s.goto i .panicked)
  /-- `lock()` blocks while another call holds the guard -/
  | lock {s : FileReaders ι} {i : ι} {offset : UInt64} {blockCount : UInt32} {buf : Bytes}
      {file : HostFile} (hi : s.phase i = .waiting offset blockCount buf)
      (hfree : s.holder = none) (hlock : s.device.file.lock = .ok file) :
      Step build s (i, .lock) { s.goto i (.locked offset blockCount buf) with holder := some i }
  | poisoned {s : FileReaders ι} {i : ι} {offset : UInt64} {blockCount : UInt32} {buf : Bytes}
      {e : Error} (hi : s.phase i = .waiting offset blockCount buf)
      (hfree : s.holder = none) (hlock : s.device.file.lock = .error e) :
      Step build s (i, .lock) (s.goto i (.returned (.error e) buf))
  | seek {s : FileReaders ι} {i : ι} {offset : UInt64} {blockCount : UInt32} {buf : Bytes}
      {file : HostFile} (hi : s.phase i = .locked offset blockCount buf)
      (hseek : s.device.file.inner.seekStart offset = .ok file) :
      Step build s (i, .seek)
        { s.goto i (.reading blockCount [] buf) with device := s.device.setFile file }
  | seekFailed {s : FileReaders ι} {i : ι} {offset : UInt64} {blockCount : UInt32} {buf : Bytes}
      {e : IoError} (hi : s.phase i = .locked offset blockCount buf)
      (hseek : s.device.file.inner.seekStart offset = .error e) :
      Step build s (i, .seek) (s.goto i (.unlocking (.error (.io e)) buf))
  /-- one `read` of `read_exact`: some of the bytes that are there -/
  | read {s : FileReaders ι} {i : ι} {blockCount : UInt32} {done rest : Bytes} {n : ℕ}
      (hi : s.phase i = .reading blockCount done rest) (hpos : 0 < n)
      (hn : n ≤ (s.device.file.inner.available rest.length).length) :
      Step build s (i, .read n)
        { s.goto i (.reading blockCount (done ++ s.device.file.inner.available n)
            (rest.drop n)) with
          device := s.device.setFile
            { s.device.file.inner with cursor := s.device.file.inner.cursor + n } }
  /-- `read_exact` goes on after an interruption -/
  | interrupted {s : FileReaders ι} {i : ι} {blockCount : UInt32} {done rest : Bytes}
      (hi : s.phase i = .reading blockCount done rest) (hrest : rest ≠ []) :
      Step build s (i, .interrupted) s
  | endOfFile {s : FileReaders ι} {i : ι} {blockCount : UInt32} {done rest : Bytes}
      (hi : s.phase i = .reading blockCount done rest) (hrest : rest ≠ [])
      (hnone : s.device.file.inner.available rest.length = []) :
      Step build s (i, .finish) (s.goto i
        (.unlocking (.error (.io (.message .unexpectedEof "failed to fill whole buffer")))
          (done ++ rest)))
  | filled {s : FileReaders ι} {i : ι} {blockCount : UInt32} {done : Bytes}
      (hi : s.phase i = .reading blockCount done []) :
      Step build s (i, .finish) (s.goto i (.unlocking (.ok blockCount) done))
  /-- the drop of the guard -/
  | unlock {s : FileReaders ι} {i : ι} {result : Except Error UInt32} {buf : Bytes}
      (hi : s.phase i = .unlocking result buf) :
      Step build s (i, .unlock) { s.goto i (.returned result buf) with holder := none }

end FileReaders

end Ext4Lwext4.Model
