import Ext4Lwext4.Model.MemoryBlockDevice

/-! # The file-backed device

The host file is a byte vector with one cursor (`HostFile`): seeking sets the
cursor, reads and writes move bytes at it and advance it, and a write past the
end grows the file, zero filled. The device holds it behind a mutex. -/

namespace Ext4Lwext4.Model

open Ext4Lwext4.Framework

/-! ## The host file -/

/-- An open file of the host. No offset in it exceeds `i64::MAX`. -/
structure HostFile where
  bytes : Bytes
  fits : bytes.length ≤ isizeMax
  cursor : ℕ
  writable : Bool

namespace HostFile

theorem length_lt (self : HostFile) : self.bytes.length < 2 ^ 63 := by
  have := self.fits
  unfold isizeMax at this
  omega

/-- `seek(SeekFrom::Start(offset))`; the host refuses what is no `off_t`. -/
def seekStart (self : HostFile) (offset : UInt64) : Except IoError HostFile :=
  if offset.toNat ≤ isizeMax then .ok { self with cursor := offset.toNat }
  else .error (.os EINVAL)

/-- `read_exact`: on a short file the bytes that are there are moved all the
same before the call fails. -/
def readExact (self : HostFile) (buf : Bytes) : Except IoError Unit × Bytes × HostFile :=
  let there := window self.bytes self.cursor buf.length
  let result :=
    if there.length = buf.length then .ok ()
    else .error (.message .unexpectedEof "failed to fill whole buffer")
  (result, there ++ buf.drop there.length, { self with cursor := self.cursor + there.length })

/-- `write_all`. Nothing is asked of the host for an empty buffer, and Linux
refuses a write whose end is no `off_t`. -/
def writeAll (self : HostFile) (buf : Bytes) : Except IoError Unit × HostFile :=
  if buf = [] then (.ok (), self)
  else if self.writable then
    if h : self.cursor + buf.length ≤ isizeMax then
      (.ok (),
        { self with
          bytes := overlayGrow 0 self.bytes self.cursor buf
          fits := by
            rw [length_overlayGrow]
            exact Nat.max_le.mpr ⟨self.fits, h⟩
          cursor := self.cursor + buf.length })
    else (.error (.os EINVAL), self)
  else (.error (.os EBADF), self)

/-- `set_len`: cut short or filled up with zeros. A size that is no `off_t` is
refused by the standard library, before the host is asked. -/
def setLen (self : HostFile) (size : UInt64) : Except IoError HostFile :=
  if h : size.toNat ≤ isizeMax then
    .ok { self with
      bytes := self.bytes.take size.toNat ++
        List.replicate (size.toNat - self.bytes.length) 0
      fits := by
        simp only [List.length_append, List.length_take, List.length_replicate]
        omega }
  else .error (.message .invalidInput "out of range integral type conversion attempted")

def syncAll (_ : HostFile) : Except IoError Unit := .ok ()

/-- `metadata()?.len()`. -/
def metadataLen (self : HostFile) : Except IoError UInt64 := .ok (len self.bytes)

end HostFile

structure OpenOptions where
  read : Bool := false
  write : Bool := false
  create : Bool := false
  truncate : Bool := false
  deriving DecidableEq

/-- How the host answers an `open` of one path: with an error of its own
choosing, or with a file that is as the options ask. -/
structure Host where
  openFile : OpenOptions → Except IoError HostFile
  writable_eq : ∀ {o f}, openFile o = .ok f → f.writable = o.write
  cursor_eq : ∀ {o f}, openFile o = .ok f → f.cursor = 0
  truncated : ∀ {o f}, openFile o = .ok f → o.truncate = true → f.bytes = []

/-- `std::sync::Mutex`, poisoned by a panic of the thread that holds it. -/
structure Mutex (α : Type) where
  inner : α
  poisoned : Bool

def Mutex.new {α : Type} (inner : α) : Mutex α := ⟨inner, false⟩

/-- `lock()` with the crate's `map_err`. -/
def Mutex.lock {α : Type} (self : Mutex α) : Except Error α :=
  if self.poisoned then .error (.io (.message .other "lock poisoned")) else .ok self.inner

theorem Mutex.lock_ok {α : Type} {mutex : Mutex α} {inner : α} (h : mutex.lock = .ok inner) :
    inner = mutex.inner := by
  unfold Mutex.lock at h
  split at h
  · cases h
  · exact (Except.ok.inj h).symm

/-! ## The device -/

structure FileBlockDevice where
  file : Mutex HostFile
  blockSize : UInt32
  blockCount : UInt64

namespace FileBlockDevice

/-- Build the device around an opened file of `size` bytes. -/
def ofFile (file : HostFile) (size : UInt64) (blockSize : UInt32) :
    Outcome (Except Error FileBlockDevice) := do
  let blockCount ← div64 size blockSize.toUInt64
  return .ok { file := Mutex.new file, blockSize, blockCount }

def createWithBlockSize (host : Host) (size : UInt64) (blockSize : UInt32) :
    Outcome (Except Error FileBlockDevice) :=
  match host.openFile { read := true, write := true, create := true, truncate := true } with
  | .error e => .ok (.error (.io e))
  | .ok file =>
      match file.setLen size with
      | .error e => .ok (.error (.io e))
      | .ok file => ofFile file size blockSize

def create (host : Host) (size : UInt64) : Outcome (Except Error FileBlockDevice) :=
  createWithBlockSize host size 512

/-- The two ways an existing image is opened. -/
def openExisting (host : Host) (options : OpenOptions) (blockSize : UInt32) :
    Outcome (Except Error FileBlockDevice) :=
  match host.openFile options with
  | .error e => .ok (.error (.io e))
  | .ok file =>
      match file.metadataLen with
      | .error e => .ok (.error (.io e))
      | .ok size => ofFile file size blockSize

def openWithBlockSize (host : Host) (blockSize : UInt32) :
    Outcome (Except Error FileBlockDevice) :=
  openExisting host { read := true, write := true } blockSize

/-- `open`, of blocks of 512 bytes. -/
def openPath (host : Host) : Outcome (Except Error FileBlockDevice) :=
  openWithBlockSize host 512

def openReadOnlyWithBlockSize (host : Host) (blockSize : UInt32) :
    Outcome (Except Error FileBlockDevice) :=
  openExisting host { read := true } blockSize

def openReadOnly (host : Host) : Outcome (Except Error FileBlockDevice) :=
  openReadOnlyWithBlockSize host 512

/-- Leave the mutex holding `file`. -/
def setFile (self : FileBlockDevice) (file : HostFile) : FileBlockDevice :=
  { self with file := { self.file with inner := file } }

/-- The bytes of the backing file. -/
def bytes (self : FileBlockDevice) : Bytes := self.file.inner.bytes

def readBlocks (build : Build) (self : FileBlockDevice) (blockId : UInt64) (buf : Bytes) :
    Outcome (Except Error UInt32 × Bytes × FileBlockDevice) := do
  let offset ← build.mul64 blockId self.blockSize.toUInt64
  let blockCount ← div32 (len buf).toUInt32 self.blockSize
  match self.file.lock with
  | .error e => return (.error e, buf, self)
  | .ok file =>
      match file.seekStart offset with
      | .error e => return (.error (.io e), buf, self)
      | .ok file =>
          match file.readExact buf with
          | (.error e, buf, file) => return (.error (.io e), buf, self.setFile file)
          | (.ok (), buf, file) => return (.ok blockCount, buf, self.setFile file)

def writeBlocks (build : Build) (self : FileBlockDevice) (blockId : UInt64) (buf : Bytes) :
    Outcome (Except Error UInt32 × FileBlockDevice) := do
  let offset ← build.mul64 blockId self.blockSize.toUInt64
  let blockCount ← div32 (len buf).toUInt32 self.blockSize
  match self.file.lock with
  | .error e => return (.error e, self)
  | .ok file =>
      match file.seekStart offset with
      | .error e => return (.error (.io e), self)
      | .ok file =>
          match file.writeAll buf with
          | (.error e, file) => return (.error (.io e), self.setFile file)
          | (.ok (), file) => return (.ok blockCount, self.setFile file)

def flush (self : FileBlockDevice) : Outcome (Except Error Unit × FileBlockDevice) :=
  match self.file.lock with
  | .error e => .ok (.error e, self)
  | .ok file =>
      match file.syncAll with
      | .error e => .ok (.error (.io e), self)
      | .ok () => .ok (.ok (), self)

instance : BlockDevice FileBlockDevice where
  readBlocks := readBlocks
  writeBlocks := writeBlocks
  flush := flush
  blockSize := blockSize
  blockCount := blockCount

/-- The writable devices that the constructors give. -/
inductive Built : FileBlockDevice → Prop
  | create {host : Host} {size : UInt64} {blockSize : UInt32} {self : FileBlockDevice} :
      createWithBlockSize host size blockSize = .ok (.ok self) → Built self
  | openExisting {host : Host} {blockSize : UInt32} {self : FileBlockDevice} :
      openWithBlockSize host blockSize = .ok (.ok self) → Built self

/-- What the constructors establish and every call that stays in range keeps:
a usable file that holds at least the blocks. -/
structure Geometry (dev : FileBlockDevice) : Prop where
  pos : dev.blockSize ≠ 0
  holds : dev.blockCount.toNat * dev.blockSize.toNat ≤ dev.bytes.length
  unpoisoned : dev.file.poisoned = false
  writable : dev.file.inner.writable = true

theorem ofFile_built {file : HostFile} {size : UInt64} {blockSize : UInt32}
    {self : FileBlockDevice} (h : ofFile file size blockSize = .ok (.ok self))
    (hsize : size.toNat = file.bytes.length) (hw : file.writable = true) :
    self.Geometry ∧ self.blockCount.toNat = self.bytes.length / self.blockSize.toNat := by
  obtain ⟨blockCount, hcount, h⟩ := bind_eq_ok.mp h
  obtain ⟨hb, rfl⟩ := div64_eq_ok.mp hcount
  cases h
  have hnat : (size / blockSize.toUInt64).toNat = file.bytes.length / blockSize.toNat := by
    simp only [UInt64.toNat_div, UInt32.toNat_toUInt64, hsize]
  refine ⟨⟨?_, ?_, rfl, hw⟩, hnat⟩
  · rintro rfl
    exact hb rfl
  · rw [hnat]
    exact Nat.div_mul_le_self _ _

theorem Built.geometry_count {self : FileBlockDevice} (h : Built self) :
    self.Geometry ∧ self.blockCount.toNat = self.bytes.length / self.blockSize.toNat := by
  cases h with
  | @create host size blockSize _ h =>
      unfold createWithBlockSize at h
      split at h
      · exact nomatch h
      rename_i file hopen
      split at h
      · exact nomatch h
      rename_i file' hset
      unfold HostFile.setLen at hset
      split at hset
      · cases hset
        refine ofFile_built h ?_ (host.writable_eq hopen)
        simp only [List.length_append, List.length_take, List.length_replicate]
        omega
      · cases hset
  | @openExisting host blockSize _ h =>
      unfold openWithBlockSize FileBlockDevice.openExisting at h
      split at h
      · exact nomatch h
      rename_i file hopen
      have hlt : file.bytes.length < 2 ^ 64 := Nat.lt_trans file.length_lt (by decide)
      exact ofFile_built h (toNat_len hlt) (host.writable_eq hopen)

theorem Built.geometry {self : FileBlockDevice} (h : Built self) : self.Geometry :=
  h.geometry_count.1

/-! ## What a transfer does

A seek comes first, so where earlier calls left the cursor plays no part. -/

/-- Two devices that differ at most in the bytes and the cursor of the file. -/
structure SameShape (dev dev' : FileBlockDevice) : Prop where
  blockSize : dev'.blockSize = dev.blockSize
  blockCount : dev'.blockCount = dev.blockCount
  poisoned : dev'.file.poisoned = dev.file.poisoned
  writable : dev'.file.inner.writable = dev.file.inner.writable

/-- A device of the same shape that holds as many bytes has the geometry too. -/
theorem Geometry.of_sameShape {dev dev' : FileBlockDevice} (hg : dev.Geometry)
    (hs : SameShape dev dev') (hlen : dev.bytes.length ≤ dev'.bytes.length) : dev'.Geometry where
  pos := hs.blockSize ▸ hg.pos
  holds := by
    rw [hs.blockSize, hs.blockCount]
    exact hg.holds.trans hlen
  unpoisoned := hs.poisoned.trans hg.unpoisoned
  writable := hs.writable.trans hg.writable

theorem offset_arith (build : Build) (blockId : UInt64) (blockSize : UInt32)
    (h : blockId.toNat * blockSize.toNat ≤ isizeMax) :
    ∃ offset, build.mul64 blockId blockSize.toUInt64 = .ok offset ∧
      offset.toNat = blockId.toNat * blockSize.toNat := by
  unfold isizeMax at h
  obtain ⟨offset, _, hmul, _, hoff, _⟩ :=
    MemoryBlockDevice.range_arith build blockId blockSize [] (by
      simp only [List.length_nil]
      omega)
  exact ⟨offset, hmul, hoff⟩

/-- The lock is free and the seek goes to the block's offset. -/
theorem seek_block (build : Build) {self : FileBlockDevice} {blockId : UInt64}
    (hp : self.file.poisoned = false)
    (h : blockId.toNat * self.blockSize.toNat ≤ isizeMax) :
    ∃ offset, build.mul64 blockId self.blockSize.toUInt64 = .ok offset ∧
      self.file.lock = .ok self.file.inner ∧
      self.file.inner.seekStart offset =
        .ok { self.file.inner with cursor := blockId.toNat * self.blockSize.toNat } := by
  obtain ⟨offset, hmul, hoff⟩ := offset_arith build blockId self.blockSize h
  refine ⟨offset, hmul, by simp [Mutex.lock, hp], ?_⟩
  rw [HostFile.seekStart, if_pos (by rw [hoff]; exact h), hoff]

/-- A read hands the request on to the file, from the block's offset. -/
theorem readBlocks_eq (build : Build) {self : FileBlockDevice} {blockId : UInt64} {buf : Bytes}
    (hb : self.blockSize ≠ 0) (hp : self.file.poisoned = false)
    (h : blockId.toNat * self.blockSize.toNat ≤ isizeMax) :
    readBlocks build self blockId buf =
      match { self.file.inner with
          cursor := blockId.toNat * self.blockSize.toNat }.readExact buf with
      | (.error e, buf, file) => .ok (.error (.io e), buf, self.setFile file)
      | (.ok (), buf', file) =>
          .ok (.ok ((len buf).toUInt32 / self.blockSize), buf', self.setFile file) := by
  obtain ⟨offset, hmul, hlock, hseek⟩ := seek_block build hp h
  simp only [readBlocks, hmul, ok_bind, div32_of_ne hb, hlock, hseek]
  split <;> rfl

theorem writeBlocks_eq (build : Build) {self : FileBlockDevice} {blockId : UInt64} {buf : Bytes}
    (hb : self.blockSize ≠ 0) (hp : self.file.poisoned = false)
    (h : blockId.toNat * self.blockSize.toNat ≤ isizeMax) :
    writeBlocks build self blockId buf =
      match { self.file.inner with
          cursor := blockId.toNat * self.blockSize.toNat }.writeAll buf with
      | (.error e, file) => .ok (.error (.io e), self.setFile file)
      | (.ok (), file) =>
          .ok (.ok ((len buf).toUInt32 / self.blockSize), self.setFile file) := by
  obtain ⟨offset, hmul, hlock, hseek⟩ := seek_block build hp h
  simp only [writeBlocks, hmul, ok_bind, div32_of_ne hb, hlock, hseek]
  split <;> rfl

section Calls

variable {build : Build} {self self' : FileBlockDevice} {blockId : UInt64} {buf out : Bytes}
  {result : Except Error UInt32}

/-- A read that returned found no way to the block, or left the file as
`read_exact` did. -/
theorem readBlocks_cases (h : readBlocks build self blockId buf = .ok (result, out, self')) :
    ∃ count, div32 (len buf).toUInt32 self.blockSize = .ok count ∧
      ((∃ e, result = .error e) ∧ self' = self ∨
        ∃ offset file read file', self.file.inner.seekStart offset = .ok file ∧
          file.readExact buf = (read, out, file') ∧ self' = self.setFile file' ∧
          result = (read.mapError Error.io).map fun _ => count) := by
  obtain ⟨offset, -, h⟩ := bind_eq_ok.mp h
  obtain ⟨count, hcount, h⟩ := bind_eq_ok.mp h
  refine ⟨count, hcount, ?_⟩
  split at h
  · cases h
    exact .inl ⟨⟨_, rfl⟩, rfl⟩
  · rename_i file hlock
    obtain rfl : file = self.file.inner := Mutex.lock_ok hlock
    split at h
    · cases h
      exact .inl ⟨⟨_, rfl⟩, rfl⟩
    · rename_i file hseek
      split at h
      · rename_i hread
        cases h
        exact .inr ⟨offset, file, _, _, hseek, hread, rfl, rfl⟩
      · rename_i hread
        cases h
        exact .inr ⟨offset, file, _, _, hseek, hread, rfl, rfl⟩

theorem writeBlocks_cases (h : writeBlocks build self blockId buf = .ok (result, self')) :
    ∃ count, div32 (len buf).toUInt32 self.blockSize = .ok count ∧
      ((∃ e, result = .error e) ∧ self' = self ∨
        ∃ offset file written file', self.file.inner.seekStart offset = .ok file ∧
          file.writeAll buf = (written, file') ∧ self' = self.setFile file' ∧
          result = (written.mapError Error.io).map fun _ => count) := by
  obtain ⟨offset, -, h⟩ := bind_eq_ok.mp h
  obtain ⟨count, hcount, h⟩ := bind_eq_ok.mp h
  refine ⟨count, hcount, ?_⟩
  split at h
  · cases h
    exact .inl ⟨⟨_, rfl⟩, rfl⟩
  · rename_i file hlock
    obtain rfl : file = self.file.inner := Mutex.lock_ok hlock
    split at h
    · cases h
      exact .inl ⟨⟨_, rfl⟩, rfl⟩
    · rename_i file hseek
      split at h
      · rename_i hwrite
        cases h
        exact .inr ⟨offset, file, _, _, hseek, hwrite, rfl, rfl⟩
      · rename_i hwrite
        cases h
        exact .inr ⟨offset, file, _, _, hseek, hwrite, rfl, rfl⟩

end Calls

/-- A read of bytes that are there returns them and leaves them. -/
theorem readBlocks_inside (build : Build) {self : FileBlockDevice} {blockId : UInt64}
    {buf : Bytes} (hb : self.blockSize ≠ 0) (hp : self.file.poisoned = false)
    (h : blockId.toNat * self.blockSize.toNat ≤ isizeMax)
    (hin : buf = [] ∨ blockId.toNat * self.blockSize.toNat + buf.length ≤ self.bytes.length) :
    ∃ self', readBlocks build self blockId buf =
        .ok (.ok ((len buf).toUInt32 / self.blockSize),
          window self.bytes (blockId.toNat * self.blockSize.toNat) buf.length, self') ∧
      self'.bytes = self.bytes ∧ SameShape self self' := by
  have hlen : (window self.bytes (blockId.toNat * self.blockSize.toNat) buf.length).length =
      buf.length := by
    rcases hin with rfl | hin
    · simp [window]
    · exact length_window hin
  rw [readBlocks_eq build hb hp h]
  refine ⟨self.setFile { self.file.inner with
    cursor := blockId.toNat * self.blockSize.toNat + buf.length }, ?_, rfl, rfl, rfl, rfl, rfl⟩
  simp only [bytes] at hlen
  simp only [HostFile.readExact, hlen, if_true, List.drop_length, List.append_nil, bytes]

/-- A read past the end fails and leaves the bytes. -/
theorem readBlocks_outside (build : Build) {self : FileBlockDevice} {blockId : UInt64}
    {buf : Bytes} (hb : self.blockSize ≠ 0) (hp : self.file.poisoned = false)
    (h : blockId.toNat * self.blockSize.toNat ≤ isizeMax) (hne : buf ≠ [])
    (hout : self.bytes.length < blockId.toNat * self.blockSize.toNat + buf.length) :
    ∃ e buf' self', readBlocks build self blockId buf = .ok (.error e, buf', self') ∧
      self'.bytes = self.bytes ∧ SameShape self self' := by
  have hlen : (window self.bytes (blockId.toNat * self.blockSize.toNat) buf.length).length <
      buf.length := length_window_lt hout (List.length_pos_of_ne_nil hne)
  rw [readBlocks_eq build hb hp h]
  simp only [bytes] at hlen
  simp only [HostFile.readExact, if_neg (Nat.ne_of_lt hlen)]
  exact ⟨_, _, _, rfl, rfl, rfl, rfl, rfl, rfl⟩

/-- A write succeeds wherever it starts; past the end it grows the file. -/
theorem writeBlocks_ok (build : Build) {self : FileBlockDevice} {blockId : UInt64}
    {buf : Bytes} (hb : self.blockSize ≠ 0) (hp : self.file.poisoned = false)
    (hw : self.file.inner.writable = true)
    (h : blockId.toNat * self.blockSize.toNat + buf.length ≤ isizeMax) :
    ∃ self', writeBlocks build self blockId buf =
        .ok (.ok ((len buf).toUInt32 / self.blockSize), self') ∧
      self'.bytes = (if buf = [] then self.bytes else
        overlayGrow 0 self.bytes (blockId.toNat * self.blockSize.toNat) buf) ∧
      SameShape self self' := by
  rw [writeBlocks_eq build hb hp (by omega)]
  by_cases hnil : buf = []
  · simp only [HostFile.writeAll, if_pos hnil]
    exact ⟨_, rfl, rfl, rfl, rfl, rfl, rfl⟩
  · simp only [HostFile.writeAll, if_neg hnil, if_pos hw, dif_pos h]
    exact ⟨_, rfl, rfl, rfl, rfl, rfl, rfl⟩

/-- Inside the file a write is an overlay: nothing is padded, and an empty
write is no write. -/
theorem writeBlocks_inside (build : Build) {self : FileBlockDevice} {blockId : UInt64}
    {buf : Bytes} (hg : self.Geometry)
    (hin : blockId.toNat * self.blockSize.toNat + buf.length ≤ self.bytes.length) :
    ∃ self', writeBlocks build self blockId buf =
        .ok (.ok ((len buf).toUInt32 / self.blockSize), self') ∧
      self'.bytes = overlay self.bytes (blockId.toNat * self.blockSize.toNat) buf ∧
      SameShape self self' := by
  obtain ⟨self', hwrite, hbytes, hshape⟩ := writeBlocks_ok build hg.pos hg.unpoisoned hg.writable
    (hin.trans self.file.inner.fits)
  refine ⟨self', hwrite, ?_, hshape⟩
  rw [hbytes]
  by_cases hnil : buf = []
  · rw [if_pos hnil, hnil, overlay_nil]
  · rw [if_neg hnil, overlayGrow_eq (Nat.le_of_add_right_le hin)]

end FileBlockDevice

end Ext4Lwext4.Model
