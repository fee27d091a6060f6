import Ext4Lwext4.Model.BlockDevice
import Ext4Lwext4.Framework.Overlay

/-! # The in-memory device -/

namespace Ext4Lwext4.Model

open Ext4Lwext4.Framework

structure MemoryBlockDevice where
  data : ByteVec
  blockSize : UInt32
  blockCount : UInt64
  deriving DecidableEq

namespace MemoryBlockDevice

def new (build : Build) (size : UInt64) (blockSize : UInt32) : Outcome MemoryBlockDevice := do
  let blockCount ← div64 size blockSize.toUInt64
  let actualSize ← build.mul64 blockCount blockSize.toUInt64
  let data ← ByteVec.zeroed actualSize
  return { data, blockSize, blockCount }

def withSize (build : Build) (size : UInt64) : Outcome MemoryBlockDevice := new build size 512

/-- `from_vec`, whose assertion panics on a length that is no multiple of the
block size. -/
def fromVec (data : ByteVec) (blockSize : UInt32) : Outcome MemoryBlockDevice := do
  let excess ← rem64 (len data.bytes) blockSize.toUInt64
  if excess = 0 then
    let blockCount ← div64 (len data.bytes) blockSize.toUInt64
    return { data, blockSize, blockCount }
  else
    throw .panic

def asSlice (self : MemoryBlockDevice) : Bytes := self.data.bytes

def intoVec (self : MemoryBlockDevice) : ByteVec := self.data

/-- `as_mut_slice()[i] = byte`: all a caller can do to the slice is made of
these. An index past the end panics. -/
def asMutSliceSet (self : MemoryBlockDevice) (i : ℕ) (byte : UInt8) :
    Outcome MemoryBlockDevice :=
  if i < self.data.bytes.length then
    .ok { self with data := ⟨self.data.bytes.set i byte, by
      rw [List.length_set]
      exact self.data.fits⟩ }
  else .error .panic

def readBlocks (build : Build) (self : MemoryBlockDevice) (blockId : UInt64) (buf : Bytes) :
    Outcome (Except Error UInt32 × Bytes × MemoryBlockDevice) := do
  let offset ← build.mul64 blockId self.blockSize.toUInt64
  let stop ← build.add64 offset (len buf)
  if stop.toNat > self.data.bytes.length then
    return (.error (.io (.message .unexpectedEof "read past end of device")), buf, self)
  else
    let src ← sliceRange self.data.bytes offset.toNat stop.toNat
    let out ← copyFromSlice buf src
    let count ← div64 (len buf) self.blockSize.toUInt64
    return (.ok count.toUInt32, out, self)

def writeBlocks (build : Build) (self : MemoryBlockDevice) (blockId : UInt64) (buf : Bytes) :
    Outcome (Except Error UInt32 × MemoryBlockDevice) := do
  let offset ← build.mul64 blockId self.blockSize.toUInt64
  let stop ← build.add64 offset (len buf)
  if stop.toNat > self.data.bytes.length then
    return (.error (.io (.message .unexpectedEof "write past end of device")), self)
  else
    let data ← self.data.copyInto offset.toNat stop.toNat buf
    let count ← div64 (len buf) self.blockSize.toUInt64
    return (.ok count.toUInt32, { self with data })

instance : BlockDevice MemoryBlockDevice where
  readBlocks := readBlocks
  writeBlocks := writeBlocks
  flush self := .ok (.ok (), self)
  blockSize := blockSize
  blockCount := blockCount

section Calls

variable {build : Build} {self self' : MemoryBlockDevice} {blockId : UInt64} {buf out : Bytes}
  {result : Except Error UInt32}

/-- A read that returned was refused, or counted the blocks of the buffer; it
left the device as it was. -/
theorem readBlocks_cases (h : readBlocks build self blockId buf = .ok (result, out, self')) :
    self' = self ∧ ((∃ e, result = .error e) ∨
      ∃ count, div64 (len buf) self.blockSize.toUInt64 = .ok count ∧
        result = .ok count.toUInt32) := by
  obtain ⟨offset, -, h⟩ := bind_eq_ok.mp h
  obtain ⟨stop, -, h⟩ := bind_eq_ok.mp h
  split at h
  · cases h
    exact ⟨rfl, .inl ⟨_, rfl⟩⟩
  · obtain ⟨src, -, h⟩ := bind_eq_ok.mp h
    obtain ⟨filled, -, h⟩ := bind_eq_ok.mp h
    obtain ⟨count, hcount, h⟩ := bind_eq_ok.mp h
    cases h
    exact ⟨rfl, .inr ⟨count, hcount, rfl⟩⟩

theorem readBlocks_self (h : readBlocks build self blockId buf = .ok (result, out, self')) :
    self' = self := (readBlocks_cases h).1

/-- A write that returned was refused, or copied the buffer into the data. -/
theorem writeBlocks_cases (h : writeBlocks build self blockId buf = .ok (result, self')) :
    ((∃ e, result = .error e) ∧ self' = self) ∨
      ∃ start stop data count, self.data.copyInto start stop buf = .ok data ∧
        div64 (len buf) self.blockSize.toUInt64 = .ok count ∧
        result = .ok count.toUInt32 ∧ self' = { self with data } := by
  obtain ⟨offset, -, h⟩ := bind_eq_ok.mp h
  obtain ⟨stop, -, h⟩ := bind_eq_ok.mp h
  split at h
  · cases h
    exact .inl ⟨⟨_, rfl⟩, rfl⟩
  · obtain ⟨data, hcopy, h⟩ := bind_eq_ok.mp h
    obtain ⟨count, hcount, h⟩ := bind_eq_ok.mp h
    cases h
    exact .inr ⟨_, _, data, count, hcopy, hcount, rfl, rfl⟩

end Calls

/-- The devices that the constructors give. -/
inductive Built (build : Build) : MemoryBlockDevice → Prop
  | new {size : UInt64} {blockSize : UInt32} {self : MemoryBlockDevice} :
      MemoryBlockDevice.new build size blockSize = .ok self → Built build self
  | fromVec {data : ByteVec} {blockSize : UInt32} {self : MemoryBlockDevice} :
      MemoryBlockDevice.fromVec data blockSize = .ok self → Built build self

/-- What the constructors establish and every call keeps: the data are exactly
the blocks. -/
structure Geometry (dev : MemoryBlockDevice) : Prop where
  pos : dev.blockSize ≠ 0
  exact : dev.blockCount.toNat * dev.blockSize.toNat = dev.data.bytes.length

theorem new_geometry {build : Build} {size : UInt64} {blockSize : UInt32}
    {self : MemoryBlockDevice} (h : new build size blockSize = .ok self) : self.Geometry := by
  obtain ⟨blockCount, hcount, h⟩ := bind_eq_ok.mp h
  obtain ⟨actualSize, hactual, h⟩ := bind_eq_ok.mp h
  obtain ⟨data, hdata, h⟩ := bind_eq_ok.mp h
  cases h
  obtain ⟨hb, rfl⟩ := div64_eq_ok.mp hcount
  have hle : size.toNat / blockSize.toNat * blockSize.toNat ≤ size.toNat :=
    Nat.div_mul_le_self _ _
  have hnat : actualSize.toNat = size.toNat / blockSize.toNat * blockSize.toNat := by
    have hlt : (size / blockSize.toUInt64).toNat * blockSize.toUInt64.toNat < 2 ^ 64 := by
      have := size.toNat_lt
      simp only [UInt64.toNat_div, UInt32.toNat_toUInt64]
      omega
    simpa using toNat_arith hlt hactual
  constructor
  · rintro rfl
    exact hb rfl
  · unfold ByteVec.zeroed at hdata
    split at hdata
    · cases hdata
      simpa using hnat.symm
    · cases hdata

theorem fromVec_geometry {data : ByteVec} {blockSize : UInt32} {self : MemoryBlockDevice}
    (h : fromVec data blockSize = .ok self) : self.Geometry := by
  obtain ⟨excess, hexcess, h⟩ := bind_eq_ok.mp h
  obtain ⟨hb, rfl⟩ := rem64_eq_ok.mp hexcess
  split at h
  · rename_i hrem
    obtain ⟨blockCount, hcount, h⟩ := bind_eq_ok.mp h
    obtain ⟨_, rfl⟩ := div64_eq_ok.mp hcount
    cases h
    have hlen : (len data.bytes).toNat = data.bytes.length := by
      have := data.fits
      exact toNat_len (by unfold isizeMax at this; omega)
    have hdvd : data.bytes.length % blockSize.toNat = 0 := by
      have := congrArg UInt64.toNat hrem
      simpa [hlen] using this
    constructor
    · rintro rfl
      exact hb rfl
    · simp only [UInt64.toNat_div, UInt32.toNat_toUInt64, hlen]
      exact Nat.div_mul_cancel (Nat.dvd_of_mod_eq_zero hdvd)
  · cases h

theorem Built.geometry {build : Build} {self : MemoryBlockDevice} (h : Built build self) :
    self.Geometry := by
  cases h with
  | new h => exact new_geometry h
  | fromVec h => exact fromVec_geometry h

/-! ## What a transfer does

Both calls compute the end of the range first. Where that does not overflow,
they compare it with the length of the data and do all or nothing. -/

/-- The end of a range that fits in 64 bits is computed exactly. -/
theorem range_arith (build : Build) (blockId : UInt64) (blockSize : UInt32) (buf : Bytes)
    (h : blockId.toNat * blockSize.toNat + buf.length < 2 ^ 64) :
    ∃ offset stop, build.mul64 blockId blockSize.toUInt64 = .ok offset ∧
      build.add64 offset (len buf) = .ok stop ∧
      offset.toNat = blockId.toNat * blockSize.toNat ∧
      stop.toNat = blockId.toNat * blockSize.toNat + buf.length := by
  have hlen : (len buf).toNat = buf.length := toNat_len (by omega)
  have hmul : blockId.toNat * blockSize.toUInt64.toNat < 2 ^ 64 := by
    simp only [UInt32.toNat_toUInt64]
    omega
  have hoff : (UInt64.ofNat (blockId.toNat * blockSize.toUInt64.toNat)).toNat =
      blockId.toNat * blockSize.toNat := by
    simpa using Nat.mod_eq_of_lt hmul
  refine ⟨_, _, Build.mul64_of_lt hmul, Build.add64_of_lt (by rw [hoff, hlen]; exact h), hoff, ?_⟩
  rw [hoff, hlen]
  simpa using Nat.mod_eq_of_lt h

theorem readBlocks_inside (build : Build) {self : MemoryBlockDevice} {blockId : UInt64}
    {buf : Bytes} (hb : self.blockSize ≠ 0)
    (h : blockId.toNat * self.blockSize.toNat + buf.length ≤ self.data.bytes.length) :
    readBlocks build self blockId buf =
      .ok (.ok (len buf / self.blockSize.toUInt64).toUInt32,
        window self.data.bytes (blockId.toNat * self.blockSize.toNat) buf.length, self) := by
  have hfits := self.data.length_lt
  obtain ⟨offset, stop, hmul, hadd, hoff, hstop⟩ :=
    range_arith build blockId self.blockSize buf (by omega)
  have hslice : sliceRange self.data.bytes offset.toNat stop.toNat =
      .ok (window self.data.bytes (blockId.toNat * self.blockSize.toNat) buf.length) := by
    rw [sliceRange, if_pos (by omega), hstop, hoff, Nat.add_sub_cancel_left, window]
  have hcopy : copyFromSlice buf
      (window self.data.bytes (blockId.toNat * self.blockSize.toNat) buf.length) =
      .ok (window self.data.bytes (blockId.toNat * self.blockSize.toNat) buf.length) :=
    if_pos (length_window h).symm
  simp only [readBlocks, hmul, hadd, ok_bind, hslice, hcopy,
    div64_of_ne (toUInt64_ne_zero hb)]
  rw [if_neg (by omega)]
  rfl

theorem readBlocks_outside (build : Build) {self : MemoryBlockDevice} {blockId : UInt64}
    {buf : Bytes} (hov : blockId.toNat * self.blockSize.toNat + buf.length < 2 ^ 64)
    (h : self.data.bytes.length < blockId.toNat * self.blockSize.toNat + buf.length) :
    readBlocks build self blockId buf =
      .ok (.error (.io (.message .unexpectedEof "read past end of device")), buf, self) := by
  obtain ⟨offset, stop, hmul, hadd, hoff, hstop⟩ :=
    range_arith build blockId self.blockSize buf hov
  simp only [readBlocks, hmul, hadd, ok_bind]
  rw [if_pos (by omega)]
  rfl

theorem writeBlocks_inside (build : Build) {self : MemoryBlockDevice} {blockId : UInt64}
    {buf : Bytes} (hb : self.blockSize ≠ 0)
    (h : blockId.toNat * self.blockSize.toNat + buf.length ≤ self.data.bytes.length) :
    ∃ data, data.bytes =
        overlay self.data.bytes (blockId.toNat * self.blockSize.toNat) buf ∧
      writeBlocks build self blockId buf =
        .ok (.ok (len buf / self.blockSize.toUInt64).toUInt32, { self with data }) := by
  have hfits := self.data.length_lt
  obtain ⟨offset, stop, hmul, hadd, hoff, hstop⟩ :=
    range_arith build blockId self.blockSize buf (by omega)
  obtain ⟨data, hdata, hcopy⟩ : ∃ data, data.bytes =
        overlay self.data.bytes (blockId.toNat * self.blockSize.toNat) buf ∧
      self.data.copyInto offset.toNat stop.toNat buf = .ok data := by
    rw [ByteVec.copyInto, dif_pos (by omega)]
    exact ⟨_, by simp only [hoff, hstop, overlay], rfl⟩
  refine ⟨data, hdata, ?_⟩
  simp only [writeBlocks, hmul, hadd, ok_bind, hcopy, div64_of_ne (toUInt64_ne_zero hb)]
  rw [if_neg (by omega)]
  rfl

theorem writeBlocks_outside (build : Build) {self : MemoryBlockDevice} {blockId : UInt64}
    {buf : Bytes} (hov : blockId.toNat * self.blockSize.toNat + buf.length < 2 ^ 64)
    (h : self.data.bytes.length < blockId.toNat * self.blockSize.toNat + buf.length) :
    writeBlocks build self blockId buf =
      .ok (.error (.io (.message .unexpectedEof "write past end of device")), self) := by
  obtain ⟨offset, stop, hmul, hadd, hoff, hstop⟩ :=
    range_arith build blockId self.blockSize buf hov
  simp only [writeBlocks, hmul, hadd, ok_bind]
  rw [if_pos (by omega)]
  rfl

end MemoryBlockDevice

end Ext4Lwext4.Model
