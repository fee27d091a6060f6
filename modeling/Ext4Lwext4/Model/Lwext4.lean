import Ext4Lwext4.Model.Sys

/-! # lwext4 and the device

What lwext4 computes is not part of the crate, but what it can do to the device
is: it has the callback table and nothing else. A call to lwext4 is any
sequence of callbacks on the wrapper it was given. Of its block cache only the
blocks are kept that the device does not have yet. -/

namespace Ext4Lwext4.Model

open Ext4Lwext4.Framework

/-- One callback, whatever code it returns. -/
def CallbackStep {D : Type} [BlockDevice D] (build : Build) (wrapper : BlockDeviceWrapper D)
    (callback : Callback) (wrapper' : BlockDeviceWrapper D) : Prop :=
  ∃ code, callback.invoke build wrapper = .ok (code, wrapper')

def Callback.IsWrite : Callback → Prop
  | .bwrite _ _ _ => True
  | _ => False

/-- The callback is handed the block. -/
def Callback.HandsOver (block : UInt64) : Callback → Prop
  | .bwrite _ blkId blkCnt => blkId ≤ block ∧ block.toNat < blkId.toNat + blkCnt.toNat
  | _ => False

/-- Within the blocks lwext4 was told of. -/
def Callback.InRange (blockCount : UInt64) : Callback → Prop
  | .bread _ blkId blkCnt => blkId.toNat + blkCnt.toNat ≤ blockCount.toNat
  | .bwrite _ blkId blkCnt => blkId.toNat + blkCnt.toNat ≤ blockCount.toNat
  | _ => True

/-- The calls that are not calls of lwext4. -/
def Call.Own : Call → Prop
  | .deviceCounterFetchAdd | .boxWrapper _ | .dropWrapper _ => True
  | _ => False

/-- The calls after which, on success, lwext4 has no dirty block. -/
def Flushed : (c : Call) → Reply c → Prop
  | .ext4CacheFlush _, ret => ret = (0 : Int32)
  | .ext4Umount _, ret => ret = (0 : Int32)
  | _, _ => False

/-- lwext4 with the wrapper it was given, the dirty blocks of its cache and the
callbacks it has made. -/
structure Lwext4 (D : Type) where
  wrapper : BlockDeviceWrapper D
  dirty : List UInt64
  history : List Callback

namespace Lwext4

variable {D : Type} [BlockDevice D]

inductive Step (build : Build) : Lwext4 D → (c : Call) → Reply c → Lwext4 D → Prop
  | fetchAdd (s : Lwext4 D) (id : UInt64) : Step build s .deviceCounterFetchAdd id s
  | boxed (s : Lwext4 D) (bdev : Ext4Blockdev) (address : BdevPtr) :
      Step build s (.boxWrapper bdev) address { s with wrapper := { s.wrapper with bdev } }
  | dropped (s : Lwext4 D) (address : BdevPtr) : Step build s (.dropWrapper address) () s
  | call {s : Lwext4 D} {c : Call} {r : Reply c} {callbacks : List Callback}
      {wrapper : BlockDeviceWrapper D} {dirty : List UInt64} (hc : ¬ c.Own)
      (hrun : Runs (CallbackStep build) s.wrapper callbacks wrapper)
      (hflush : Flushed c r → (∀ block ∈ s.dirty, ∃ cb ∈ callbacks, cb.HandsOver block) ∧
        dirty = []) :
      Step build s c r ⟨wrapper, dirty, s.history ++ callbacks⟩

/-- A call that leaves the device alone. -/
theorem Step.quiet {build : Build} (s : Lwext4 D) {c : Call} {r : Reply c} (hc : ¬ c.Own)
    (hflush : ¬ Flushed c r) : Step build s c r s := by
  have hstep : Step build s c r ⟨s.wrapper, s.dirty, s.history ++ []⟩ :=
    .call hc (.nil _) fun h => absurd h hflush
  rwa [List.append_nil] at hstep

end Lwext4

/-- The crate's programs run against it. -/
def lwext4 (D : Type) [BlockDevice D] (build : Build) : Environment Call Reply where
  State := Lwext4 D
  step := Lwext4.Step build

end Ext4Lwext4.Model
