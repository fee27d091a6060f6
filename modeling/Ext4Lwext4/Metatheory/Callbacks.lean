import Ext4Lwext4.Model.BlockDeviceWrapper

/-! # What the callbacks tell lwext4

A callback moves as many bytes as lwext4 asked for and returns one code. The
code is `0` for a complete transfer, and also in two other cases: the count in
an `Ok` is not looked at, and an operating-system error carries its own code
across, which may be `0`. -/

namespace Ext4Lwext4.Metatheory

open Ext4Lwext4.Framework Ext4Lwext4.Model

/-- The contract of the trait: a method returns, a transfer keeps the length of
the buffer and reports at most the blocks that the buffer holds, and the block
size never changes. -/
structure KeepsContract (D : Type) [BlockDevice D] : Prop where
  read (build : Build) (dev : D) (blockId : UInt64) (buf : Bytes) (blocks : ℕ) :
    buf.length = (BlockDevice.blockSize dev).toNat * blocks →
    ∃ result out dev', BlockDevice.readBlocks build dev blockId buf = .ok (result, out, dev') ∧
      out.length = buf.length ∧ BlockDevice.blockSize dev' = BlockDevice.blockSize dev ∧
      ∀ n, result = .ok n → n.toNat ≤ blocks
  write (build : Build) (dev : D) (blockId : UInt64) (buf : Bytes) (blocks : ℕ) :
    buf.length = (BlockDevice.blockSize dev).toNat * blocks →
    ∃ result dev', BlockDevice.writeBlocks build dev blockId buf = .ok (result, dev') ∧
      BlockDevice.blockSize dev' = BlockDevice.blockSize dev ∧
      ∀ n, result = .ok n → n.toNat ≤ blocks
  openDevice (dev : D) : ∃ result dev', BlockDevice.openDevice dev = .ok (result, dev') ∧
    BlockDevice.blockSize dev' = BlockDevice.blockSize dev
  closeDevice (dev : D) : ∃ result dev', BlockDevice.closeDevice dev = .ok (result, dev') ∧
    BlockDevice.blockSize dev' = BlockDevice.blockSize dev

/-- The code tells lwext4 what became of the request: `0` exactly when all of
it was done, and an errno for a part of it and for every error. -/
structure Reports {α : Type} (code : Int32) (full : α) (result : Except Error α) : Prop where
  zero_iff : code = 0 ↔ result = .ok full
  partly : ∀ a, result = .ok a → a ≠ full → code ≠ 0
  failed : ∀ e, result = .error e → code ≠ 0

/-- The device did a part of the transfer only. -/
def ShortCount (blkCnt : UInt32) (result : Except Error UInt32) : Prop :=
  ∃ n, result = .ok n ∧ n < blkCnt

/-- The device failed with an operating-system error of code `0`. -/
def ZeroOsError {α : Type} (result : Except Error α) : Prop :=
  ∃ io, result = .error (.io io) ∧ io.rawOsError = some 0

/-- Either way of going wrong is a result other than the full one that is
given the code `0`, and there is no third. -/
theorem reports_callbackCode_iff {α : Type} {full : α} {result : Except Error α} :
    Reports (callbackCode result) full result ↔
      (∀ a, result = .ok a → a = full) ∧ ¬ ZeroOsError result := by
  constructor
  · intro h
    refine ⟨?_, ?_⟩
    · intro a ha
      by_contra hne
      exact h.partly a ha hne (callbackCode_eq_zero.mpr (.inl ⟨a, ha⟩))
    · rintro ⟨io, hio, hraw⟩
      exact h.failed _ hio (callbackCode_eq_zero.mpr (.inr ⟨io, hio, hraw⟩))
  · rintro ⟨hfull, hos⟩
    have hzero : callbackCode result = 0 ↔ result = .ok full := by
      rw [callbackCode_eq_zero]
      constructor
      · rintro (⟨a, rfl⟩ | h)
        · rw [hfull a rfl]
        · exact absurd h hos
      · exact fun h => .inl ⟨full, h⟩
    refine ⟨hzero, ?_, ?_⟩
    · intro a ha hne h0
      exact hne (hfull a ha)
    · intro e he h0
      exact nomatch he.symm.trans (hzero.mp h0)

theorem reports_transfer_iff {blkCnt : UInt32} {result : Except Error UInt32}
    (hle : ∀ n, result = .ok n → n.toNat ≤ blkCnt.toNat) :
    Reports (callbackCode result) blkCnt result ↔
      ¬ (ShortCount blkCnt result ∨ ZeroOsError result) := by
  rw [reports_callbackCode_iff, not_or]
  refine and_congr_left fun _ => ⟨?_, ?_⟩
  · rintro h ⟨n, hn, hlt⟩
    rw [h n hn] at hlt
    exact absurd (UInt32.lt_iff_toNat_lt.mp hlt) (Nat.lt_irrefl _)
  · intro h n hn
    by_contra hne
    have hne' : n.toNat ≠ blkCnt.toNat := fun he => hne (UInt32.toNat_inj.mp he)
    exact h ⟨n, hn, UInt32.lt_iff_toNat_lt.mpr (lt_of_le_of_ne (hle n hn) hne')⟩

theorem reports_unit_iff {result : Except Error Unit} :
    (callbackCode result = 0 ↔ result = .ok ()) ↔ ¬ ZeroOsError result := by
  constructor
  · rintro h ⟨io, hio, hraw⟩
    have h0 := h.mp (callbackCode_eq_zero.mpr (.inr ⟨io, hio, hraw⟩))
    exact nomatch hio.symm.trans h0
  · intro hos
    exact (reports_callbackCode_iff.mpr ⟨fun _ _ => rfl, hos⟩).zero_iff

/-- Each callback hands the device exactly the request, and its code reports
the outcome exactly when the device neither stopped short nor failed with the
operating-system code `0`. -/
theorem callbacks_report_iff {D : Type} [BlockDevice D] (contract : KeepsContract D)
    (build : Build) (wrapper : BlockDeviceWrapper D) :
    (∀ buf blkId blkCnt, ∃ slice result out device code,
      slice.length = blkCnt.toNat * (BlockDevice.blockSize wrapper.device).toNat ∧
      (∀ i < slice.length, slice[i]? = some (buf i)) ∧
      BlockDevice.readBlocks build wrapper.device blkId slice = .ok (result, out, device) ∧
      blockdevBread build wrapper buf blkId blkCnt =
        .ok (code, buf.store out, { wrapper with device }) ∧
      (Reports code blkCnt result ↔ ¬ (ShortCount blkCnt result ∨ ZeroOsError result))) ∧
    (∀ buf blkId blkCnt, ∃ slice result device code,
      slice.length = blkCnt.toNat * (BlockDevice.blockSize wrapper.device).toNat ∧
      (∀ i < slice.length, slice[i]? = some (buf i)) ∧
      BlockDevice.writeBlocks build wrapper.device blkId slice = .ok (result, device) ∧
      blockdevBwrite build wrapper buf blkId blkCnt = .ok (code, { wrapper with device }) ∧
      (Reports code blkCnt result ↔ ¬ (ShortCount blkCnt result ∨ ZeroOsError result))) ∧
    (∃ result device code, BlockDevice.openDevice wrapper.device = .ok (result, device) ∧
      blockdevOpen wrapper = .ok (code, { wrapper with device }) ∧
      ((code = 0 ↔ result = .ok ()) ↔ ¬ ZeroOsError result)) ∧
    (∃ result device code, BlockDevice.closeDevice wrapper.device = .ok (result, device) ∧
      blockdevClose wrapper = .ok (code, { wrapper with device }) ∧
      ((code = 0 ↔ result = .ok ()) ↔ ¬ ZeroOsError result)) := by
  refine ⟨?_, ?_, ?_, ?_⟩
  · intro buf blkId blkCnt
    obtain ⟨result, out, device, hread, -, -, hle⟩ := contract.read build wrapper.device blkId
      (transferSlice wrapper buf blkCnt) blkCnt.toNat length_transferSlice
    exact ⟨_, result, out, device, _, by rw [length_transferSlice, Nat.mul_comm],
      fun _ => getElem?_transferSlice, hread, blockdevBread_eq hread, reports_transfer_iff hle⟩
  · intro buf blkId blkCnt
    obtain ⟨result, device, hwrite, -, hle⟩ := contract.write build wrapper.device blkId
      (transferSlice wrapper buf blkCnt) blkCnt.toNat length_transferSlice
    exact ⟨_, result, device, _, by rw [length_transferSlice, Nat.mul_comm],
      fun _ => getElem?_transferSlice, hwrite, blockdevBwrite_eq hwrite,
      reports_transfer_iff hle⟩
  · obtain ⟨result, device, hopen, -⟩ := contract.openDevice wrapper.device
    exact ⟨result, device, _, hopen, blockdevOpen_eq hopen, reports_unit_iff⟩
  · obtain ⟨result, device, hclose, -⟩ := contract.closeDevice wrapper.device
    exact ⟨result, device, _, hclose, blockdevClose_eq hclose, reports_unit_iff⟩

/-! ## A device that stops short -/

/-- A device of eight-byte blocks that transfers nothing and says so. -/
inductive StalledDevice
  | stalled
  deriving DecidableEq, Repr

instance : BlockDevice StalledDevice where
  readBlocks _ self _ buf := .ok (.ok 0, buf, self)
  writeBlocks _ self _ _ := .ok (.ok 0, self)
  flush self := .ok (.ok (), self)
  blockSize _ := 8
  blockCount _ := 8

theorem stalledDevice_keepsContract : KeepsContract StalledDevice where
  read _ dev _ buf _ _ := ⟨.ok 0, buf, dev, rfl, rfl, rfl, by rintro n ⟨rfl⟩; exact Nat.zero_le _⟩
  write _ dev _ _ _ _ := ⟨.ok 0, dev, rfl, rfl, by rintro n ⟨rfl⟩; exact Nat.zero_le _⟩
  openDevice dev := ⟨.ok (), dev, rfl, rfl⟩
  closeDevice dev := ⟨.ok (), dev, rfl, rfl⟩

def stalledWrapper : BlockDeviceWrapper StalledDevice :=
  ⟨.stalled, ⟨⟨8, 8, ⟨[0, 0, 0, 0, 0, 0, 0, 0], by decide⟩⟩, 0, 64⟩⟩

theorem callbacks_report_iff_stalled :
    ∃ slice result device code, slice.length = 3 * 8 ∧
      (∀ i < slice.length, slice[i]? = some 7) ∧
      BlockDevice.writeBlocks .checked stalledWrapper.device 1 slice = .ok (result, device) ∧
      blockdevBwrite .checked stalledWrapper (fun _ => 7) 1 3 =
        .ok (code, { stalledWrapper with device }) ∧
      (Reports code 3 result ↔ ¬ (ShortCount 3 result ∨ ZeroOsError result)) :=
  (callbacks_report_iff stalledDevice_keepsContract .checked stalledWrapper).2.1 (fun _ => 7) 1 3

/-- A write of three blocks of which none was written returns `0`. -/
theorem short_write_reported_complete :
    KeepsContract StalledDevice ∧
    ¬ ∀ (wrapper : BlockDeviceWrapper StalledDevice) (buf : RawMemory) (blkId : UInt64)
        (blkCnt : UInt32) (result : Except Error UInt32) (device : StalledDevice) (code : Int32)
        (wrapper' : BlockDeviceWrapper StalledDevice),
      BlockDevice.writeBlocks .checked wrapper.device blkId (transferSlice wrapper buf blkCnt) =
        .ok (result, device) →
      blockdevBwrite .checked wrapper buf blkId blkCnt = .ok (code, wrapper') →
      Reports code blkCnt result := by
  refine ⟨stalledDevice_keepsContract, ?_⟩
  intro h
  have hreports := h stalledWrapper (fun _ => 7) 1 3 (.ok 0) .stalled 0 stalledWrapper rfl rfl
  exact absurd (hreports.zero_iff.mp rfl) (by decide)

end Ext4Lwext4.Metatheory
