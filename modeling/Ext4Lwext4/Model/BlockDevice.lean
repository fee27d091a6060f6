import Ext4Lwext4.Model.Error

/-! # The `BlockDevice` trait

The trait as a class over the device's state. A method that borrows the device
mutably returns the device it leaves. So does `readBlocks`, whose `&self`
hides interior mutability: the file-backed device moves a cursor under it. -/

namespace Ext4Lwext4.Model

open Ext4Lwext4.Framework

class BlockDevice (D : Type) where
  /-- The result, the caller's buffer and the device after the call. -/
  readBlocks (build : Build) (self : D) (blockId : UInt64) (buf : Bytes) :
    Outcome (Except Error UInt32 × Bytes × D)
  writeBlocks (build : Build) (self : D) (blockId : UInt64) (buf : Bytes) :
    Outcome (Except Error UInt32 × D)
  flush (self : D) : Outcome (Except Error Unit × D)
  blockSize : D → UInt32
  blockCount : D → UInt64
  openDevice (self : D) : Outcome (Except Error Unit × D) := .ok (.ok (), self)
  closeDevice (self : D) : Outcome (Except Error Unit × D) := .ok (.ok (), self)

/-- `BlockDeviceExt::total_size`. -/
def BlockDevice.totalSize {D : Type} [BlockDevice D] (build : Build) (self : D) :
    Outcome UInt64 :=
  build.mul64 (blockCount self) (blockSize self).toUInt64

/-! ## Sequences of transfers -/

/-- A call that moves blocks, with the buffer the caller lends it. -/
inductive Transfer
  | read (blockId : UInt64) (buf : Bytes)
  | write (blockId : UInt64) (buf : Bytes)
  deriving DecidableEq, Repr

namespace Transfer

def blockId : Transfer → UInt64
  | .read id _ => id
  | .write id _ => id

def buf : Transfer → Bytes
  | .read _ buf => buf
  | .write _ buf => buf

/-- The byte of the image a transfer starts at. -/
def offset (blockSize : UInt32) (t : Transfer) : ℕ := t.blockId.toNat * blockSize.toNat

/-- Whole blocks that the device has. -/
def InRange (blockSize : UInt32) (blockCount : UInt64) (t : Transfer) : Prop :=
  ∃ k, t.buf.length = k * blockSize.toNat ∧ t.blockId.toNat + k ≤ blockCount.toNat

/-- What a caller sees of a transfer: its result and its buffer afterwards. -/
def perform {D : Type} [BlockDevice D] (build : Build) (self : D) :
    Transfer → Outcome ((Except Error UInt32 × Bytes) × D)
  | .read id buf => do
      let (result, buf, self) ← BlockDevice.readBlocks build self id buf
      return ((result, buf), self)
  | .write id buf => do
      let (result, self) ← BlockDevice.writeBlocks build self id buf
      return ((result, buf), self)

section Perform

variable {D : Type} [BlockDevice D] {build : Build} {self self' : D} {id : UInt64} {buf : Bytes}

theorem perform_read {result : Except Error UInt32} {out : Bytes}
    (h : BlockDevice.readBlocks build self id buf = .ok (result, out, self')) :
    (Transfer.read id buf).perform build self = .ok ((result, out), self') := by
  rw [perform, h]
  rfl

theorem perform_write {result : Except Error UInt32}
    (h : BlockDevice.writeBlocks build self id buf = .ok (result, self')) :
    (Transfer.write id buf).perform build self = .ok ((result, buf), self') := by
  rw [perform, h]
  rfl

end Perform

theorem InRange.offset_add_le {blockSize : UInt32} {blockCount : UInt64} {t : Transfer}
    (h : t.InRange blockSize blockCount) :
    t.offset blockSize + t.buf.length ≤ blockCount.toNat * blockSize.toNat := by
  obtain ⟨k, hk, hle⟩ := h
  rw [hk, offset, ← Nat.add_mul]
  exact Nat.mul_le_mul_right _ hle

end Transfer

end Ext4Lwext4.Model
