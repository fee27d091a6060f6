import Ext4Lwext4.Model.BlockDevice

/-! # The bridge to the C library

`BlockDeviceWrapper` and the callbacks that lwext4 reaches a device through. A
callback turns the device's `Result` into an errno. The structures lwext4
keeps for itself (its cache, its counters, the back pointer `p_user`) are not
read by the crate and are left out. -/

namespace Ext4Lwext4.Model

open Ext4Lwext4.Framework

/-! ## Raw memory -/

/-- The bytes behind a pointer that C passes. -/
abbrev RawMemory : Type := ℕ → UInt8

/-- `std::slice::from_raw_parts`: the first `n` bytes behind the pointer. -/
def fromRawParts (buf : RawMemory) (n : UInt64) : Bytes := (List.range n.toNat).map buf

/-- What is behind the pointer once the slice made from it holds `slice`. -/
def RawMemory.store (buf : RawMemory) (slice : Bytes) : RawMemory := fun i => slice.getD i (buf i)

@[simp] theorem length_fromRawParts (buf : RawMemory) (n : UInt64) :
    (fromRawParts buf n).length = n.toNat := by
  simp [fromRawParts]

/-! ## The wrapper -/

structure Ext4BlockdevIface where
  phBsize : UInt32
  phBcnt : UInt64
  phBbuf : ByteVec
  deriving DecidableEq

structure Ext4Blockdev where
  bdif : Ext4BlockdevIface
  partOffset : UInt64
  partSize : UInt64
  deriving DecidableEq

structure BlockDeviceWrapper (D : Type) where
  device : D
  bdev : Ext4Blockdev

namespace BlockDeviceWrapper

variable {D : Type} [BlockDevice D]

def new (build : Build) (device : D) : Outcome (BlockDeviceWrapper D) := do
  let blockSize := BlockDevice.blockSize device
  let blockCount := BlockDevice.blockCount device
  let buffer ← ByteVec.zeroed blockSize.toUInt64
  let bdif := { phBsize := blockSize, phBcnt := blockCount, phBbuf := buffer }
  let partSize ← build.mul64 blockCount blockSize.toUInt64
  return { device, bdev := { bdif, partOffset := 0, partSize } }

end BlockDeviceWrapper

/-! ## The callbacks -/

/-- The errno a callback makes of the device's error. -/
def callbackErrno : Error → Int32
  | .io io => io.rawOsError.getD EIO
  | _ => EIO

/-- The code a callback returns for the device's result, whatever an `Ok` holds. -/
def callbackCode {α : Type} : Except Error α → Int32
  | .ok _ => 0
  | .error e => callbackErrno e

section Callbacks

variable {D : Type} [BlockDevice D]

def blockdevOpen (wrapper : BlockDeviceWrapper D) :
    Outcome (Int32 × BlockDeviceWrapper D) := do
  let (result, device) ← BlockDevice.openDevice wrapper.device
  return (callbackCode result, { wrapper with device })

def blockdevBread (build : Build) (wrapper : BlockDeviceWrapper D) (buf : RawMemory)
    (blkId : UInt64) (blkCnt : UInt32) :
    Outcome (Int32 × RawMemory × BlockDeviceWrapper D) := do
  let blockSize := (BlockDevice.blockSize wrapper.device).toUInt64
  let totalSize ← build.mul64 blockSize blkCnt.toUInt64
  let slice := fromRawParts buf totalSize
  let (result, slice, device) ← BlockDevice.readBlocks build wrapper.device blkId slice
  return (callbackCode result, buf.store slice, { wrapper with device })

def blockdevBwrite (build : Build) (wrapper : BlockDeviceWrapper D) (buf : RawMemory)
    (blkId : UInt64) (blkCnt : UInt32) : Outcome (Int32 × BlockDeviceWrapper D) := do
  let blockSize := (BlockDevice.blockSize wrapper.device).toUInt64
  let totalSize ← build.mul64 blockSize blkCnt.toUInt64
  let slice := fromRawParts buf totalSize
  let (result, device) ← BlockDevice.writeBlocks build wrapper.device blkId slice
  return (callbackCode result, { wrapper with device })

def blockdevClose (wrapper : BlockDeviceWrapper D) :
    Outcome (Int32 × BlockDeviceWrapper D) := do
  let (result, device) ← BlockDevice.closeDevice wrapper.device
  return (callbackCode result, { wrapper with device })

def blockdevLock (wrapper : BlockDeviceWrapper D) : Int32 × BlockDeviceWrapper D := (0, wrapper)

def blockdevUnlock (wrapper : BlockDeviceWrapper D) : Int32 × BlockDeviceWrapper D := (0, wrapper)

end Callbacks

/-- The entries of the callback table `BlockDeviceWrapper::new` fills in, with
the arguments lwext4 passes to them. -/
inductive Callback
  | openDevice
  | bread (buf : RawMemory) (blkId : UInt64) (blkCnt : UInt32)
  | bwrite (buf : RawMemory) (blkId : UInt64) (blkCnt : UInt32)
  | closeDevice
  | lock
  | unlock

/-- A call through the table: the code it returns and the wrapper it leaves. -/
def Callback.invoke {D : Type} [BlockDevice D] (build : Build) (wrapper : BlockDeviceWrapper D) :
    Callback → Outcome (Int32 × BlockDeviceWrapper D)
  | .openDevice => blockdevOpen wrapper
  | .bread buf blkId blkCnt => do
      let (code, _, wrapper) ← blockdevBread build wrapper buf blkId blkCnt
      return (code, wrapper)
  | .bwrite buf blkId blkCnt => blockdevBwrite build wrapper buf blkId blkCnt
  | .closeDevice => blockdevClose wrapper
  | .lock => .ok (blockdevLock wrapper)
  | .unlock => .ok (blockdevUnlock wrapper)

/-- The same call with the memory a read leaves behind its pointer. -/
def Callback.reply {D : Type} [BlockDevice D] (build : Build) (wrapper : BlockDeviceWrapper D) :
    Callback → Outcome ((Int32 × Option RawMemory) × BlockDeviceWrapper D)
  | .bread buf blkId blkCnt => do
      let (code, buf, wrapper) ← blockdevBread build wrapper buf blkId blkCnt
      return ((code, some buf), wrapper)
  | callback => do
      let (code, wrapper) ← callback.invoke build wrapper
      return ((code, none), wrapper)

/-- What is seen of a call is its code and no less than that. -/
theorem Callback.reply_of_invoke {D : Type} [BlockDevice D] {build : Build}
    {wrapper wrapper' : BlockDeviceWrapper D} {callback : Callback} {code : Int32}
    (h : callback.invoke build wrapper = .ok (code, wrapper')) :
    ∃ memory, callback.reply build wrapper = .ok ((code, memory), wrapper') := by
  cases callback with
  | bread buf blkId blkCnt =>
      obtain ⟨⟨code, memory, wrapper⟩, hread, h⟩ := bind_eq_ok.mp h
      cases h
      exact ⟨some memory, bind_eq_ok.mpr ⟨_, hread, rfl⟩⟩
  | _ => exact ⟨none, bind_eq_ok.mpr ⟨_, h, rfl⟩⟩

/-! ## What a callback does, given what the device does -/

section Spec

variable {D : Type} [BlockDevice D] {build : Build} {wrapper : BlockDeviceWrapper D}
  {buf : RawMemory} {blkId : UInt64} {blkCnt : UInt32}

/-- The size of a transfer never overflows: both factors come from a `u32`. -/
theorem totalSize_lt (bs cnt : UInt32) : bs.toUInt64.toNat * cnt.toUInt64.toNat < 2 ^ 64 := by
  have hb : bs.toNat < 2 ^ 32 := bs.toNat_lt
  have hc : cnt.toNat < 2 ^ 32 := cnt.toNat_lt
  rw [UInt32.toNat_toUInt64, UInt32.toNat_toUInt64]
  calc bs.toNat * cnt.toNat
      ≤ 2 ^ 32 * cnt.toNat := Nat.mul_le_mul_right _ hb.le
    _ < 2 ^ 32 * 2 ^ 32 := Nat.mul_lt_mul_of_pos_left hc (by decide)

/-- The slice a transfer of `blkCnt` blocks makes of the caller's buffer. -/
def transferSlice (wrapper : BlockDeviceWrapper D) (buf : RawMemory) (blkCnt : UInt32) : Bytes :=
  (List.range ((BlockDevice.blockSize wrapper.device).toNat * blkCnt.toNat)).map buf

@[simp] theorem length_transferSlice :
    (transferSlice wrapper buf blkCnt).length =
      (BlockDevice.blockSize wrapper.device).toNat * blkCnt.toNat := by
  simp [transferSlice]

/-- The slice is the caller's own bytes. -/
theorem getElem?_transferSlice {i : ℕ} (h : i < (transferSlice wrapper buf blkCnt).length) :
    (transferSlice wrapper buf blkCnt)[i]? = some (buf i) := by
  rw [length_transferSlice] at h
  simp [transferSlice, h]

theorem totalSize_eq (build : Build) (bs cnt : UInt32) :
    ∃ total, build.mul64 bs.toUInt64 cnt.toUInt64 = .ok total ∧
      total.toNat = bs.toNat * cnt.toNat := by
  refine ⟨_, Build.mul64_of_lt (totalSize_lt bs cnt), ?_⟩
  have := totalSize_lt bs cnt
  simp only [UInt32.toNat_toUInt64] at this ⊢
  simpa using Nat.mod_eq_of_lt this

theorem blockdevBread_eq {result : Except Error UInt32} {out : Bytes} {device : D}
    (h : BlockDevice.readBlocks build wrapper.device blkId (transferSlice wrapper buf blkCnt) =
      .ok (result, out, device)) :
    blockdevBread build wrapper buf blkId blkCnt =
      .ok (callbackCode result, buf.store out, { wrapper with device }) := by
  obtain ⟨total, hmul, htotal⟩ := totalSize_eq build (BlockDevice.blockSize wrapper.device) blkCnt
  rw [transferSlice, ← htotal] at h
  simp only [blockdevBread, hmul, ok_bind, fromRawParts, h]
  rfl

theorem blockdevBwrite_eq {result : Except Error UInt32} {device : D}
    (h : BlockDevice.writeBlocks build wrapper.device blkId (transferSlice wrapper buf blkCnt) =
      .ok (result, device)) :
    blockdevBwrite build wrapper buf blkId blkCnt =
      .ok (callbackCode result, { wrapper with device }) := by
  obtain ⟨total, hmul, htotal⟩ := totalSize_eq build (BlockDevice.blockSize wrapper.device) blkCnt
  rw [transferSlice, ← htotal] at h
  simp only [blockdevBwrite, hmul, ok_bind, fromRawParts, h]
  rfl

theorem blockdevOpen_eq {result : Except Error Unit} {device : D}
    (h : BlockDevice.openDevice wrapper.device = .ok (result, device)) :
    blockdevOpen wrapper = .ok (callbackCode result, { wrapper with device }) := by
  rw [blockdevOpen, h]
  rfl

theorem blockdevClose_eq {result : Except Error Unit} {device : D}
    (h : BlockDevice.closeDevice wrapper.device = .ok (result, device)) :
    blockdevClose wrapper = .ok (callbackCode result, { wrapper with device }) := by
  rw [blockdevClose, h]
  rfl

/-! ## What the device did, given what a callback returned -/

theorem blockdevBread_ok {code : Int32} {out : RawMemory} {wrapper' : BlockDeviceWrapper D}
    (h : blockdevBread build wrapper buf blkId blkCnt = .ok (code, out, wrapper')) :
    ∃ slice result filled, code = callbackCode result ∧
      BlockDevice.readBlocks build wrapper.device blkId slice =
        .ok (result, filled, wrapper'.device) := by
  obtain ⟨total, -, h⟩ := bind_eq_ok.mp h
  obtain ⟨⟨result, filled, device⟩, hread, h⟩ := bind_eq_ok.mp h
  obtain ⟨hcode, hrest⟩ := Prod.mk.inj (Except.ok.inj h)
  obtain ⟨-, hwrapper⟩ := Prod.mk.inj hrest
  subst hwrapper
  exact ⟨_, result, filled, hcode.symm, hread⟩

theorem blockdevBwrite_ok {code : Int32} {wrapper' : BlockDeviceWrapper D}
    (h : blockdevBwrite build wrapper buf blkId blkCnt = .ok (code, wrapper')) :
    ∃ slice result, code = callbackCode result ∧
      BlockDevice.writeBlocks build wrapper.device blkId slice =
        .ok (result, wrapper'.device) := by
  obtain ⟨total, -, h⟩ := bind_eq_ok.mp h
  obtain ⟨⟨result, device⟩, hwrite, h⟩ := bind_eq_ok.mp h
  obtain ⟨hcode, hwrapper⟩ := Prod.mk.inj (Except.ok.inj h)
  subst hwrapper
  exact ⟨_, result, hcode.symm, hwrite⟩

theorem blockdevOpen_ok {code : Int32} {wrapper' : BlockDeviceWrapper D}
    (h : blockdevOpen wrapper = .ok (code, wrapper')) :
    ∃ result, code = callbackCode result ∧
      BlockDevice.openDevice wrapper.device = .ok (result, wrapper'.device) := by
  obtain ⟨⟨result, device⟩, hopen, h⟩ := bind_eq_ok.mp h
  obtain ⟨hcode, hwrapper⟩ := Prod.mk.inj (Except.ok.inj h)
  subst hwrapper
  exact ⟨result, hcode.symm, hopen⟩

theorem blockdevClose_ok {code : Int32} {wrapper' : BlockDeviceWrapper D}
    (h : blockdevClose wrapper = .ok (code, wrapper')) :
    ∃ result, code = callbackCode result ∧
      BlockDevice.closeDevice wrapper.device = .ok (result, wrapper'.device) := by
  obtain ⟨⟨result, device⟩, hclose, h⟩ := bind_eq_ok.mp h
  obtain ⟨hcode, hwrapper⟩ := Prod.mk.inj (Except.ok.inj h)
  subst hwrapper
  exact ⟨result, hcode.symm, hclose⟩

end Spec

theorem EIO_ne_zero : EIO ≠ 0 := by decide

/-- A callback hides an error in exactly one case: an operating-system error
whose code is `0`. -/
theorem callbackErrno_eq_zero {e : Error} :
    callbackErrno e = 0 ↔ ∃ io, e = .io io ∧ io.rawOsError = some 0 := by
  cases e with
  | io io =>
      simp only [callbackErrno, Error.io.injEq, exists_eq_left']
      cases h : io.rawOsError with
      | none => simp [EIO_ne_zero]
      | some code => simp
  | _ => simp [callbackErrno, EIO_ne_zero]

theorem callbackCode_eq_zero {α : Type} {result : Except Error α} :
    callbackCode result = 0 ↔
      (∃ a, result = .ok a) ∨ ∃ io, result = .error (.io io) ∧ io.rawOsError = some 0 := by
  cases result with
  | ok a => simp [callbackCode]
  | error e => simp [callbackCode, callbackErrno_eq_zero]

end Ext4Lwext4.Model
