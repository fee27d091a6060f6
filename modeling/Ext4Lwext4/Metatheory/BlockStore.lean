import Ext4Lwext4.Model.FileBlockDevice

/-! # Both devices are block stores

What a block device is for, said without a representation: an image of bytes,
transfers that read a window of it or overlay a part of it. `ImageDevice` is
the obligation on a device, one step at a time. The run over any sequence of
transfers is proved once from it, and each device discharges it. -/

namespace Ext4Lwext4.Metatheory

open Ext4Lwext4.Framework Ext4Lwext4.Model

/-! ## The abstract store -/

/-- What the caller's buffer holds after a transfer on `image`. -/
def answer (blockSize : UInt32) (image : Bytes) (t : Transfer) : Bytes :=
  match t with
  | .read _ buf => window image (t.offset blockSize) buf.length
  | .write _ buf => buf

/-- The writes a transfer makes. -/
def writes (blockSize : UInt32) (t : Transfer) : List (Write UInt8) :=
  match t with
  | .read _ _ => []
  | .write _ buf => [(t.offset blockSize, buf)]

/-- A device that keeps its blocks in an image, as far as calls in range go. -/
class ImageDevice (D : Type) extends BlockDevice D where
  image : D → Bytes
  Ready : D → Prop
  holds {self : D} (h : Ready self) :
    (blockCount self).toNat * (blockSize self).toNat ≤ (image self).length
  perform_ok (build : Build) {self : D} {t : Transfer} (h : Ready self)
    (hr : t.InRange (blockSize self) (blockCount self)) :
    ∃ n self', t.perform build self = .ok ((.ok n, answer (blockSize self) (image self) t), self') ∧
      image self' = applyWrites (image self) (writes (blockSize self) t) ∧
      Ready self' ∧ blockSize self' = blockSize self ∧ blockCount self' = blockCount self

open ImageDevice

/-- Every call of the sequence succeeds; a read returns at each place the byte
of the most recent write there, or of the initial image; a place that a call
does not write keeps its byte. -/
def StoresBlocks {D : Type} [ImageDevice D] (build : Build) (initial : Bytes) :
    List (Write UInt8) → D → List Transfer → Prop
  | _, _, [] => True
  | written, self, t :: ts =>
      ∃ n buf self', t.perform build self = .ok ((.ok n, buf), self') ∧
        buf.length = t.buf.length ∧
        (∀ id out, t = .read id out → ∀ i < out.length,
          buf[i]? = lastWritten initial written (t.offset (BlockDevice.blockSize self) + i)) ∧
        (∀ i, (∀ w ∈ writes (BlockDevice.blockSize self) t, w.covers i = false) →
          (image self')[i]? = (image self)[i]?) ∧
        StoresBlocks build initial (written ++ writes (BlockDevice.blockSize self) t) self' ts

section Run

variable {D : Type} [ImageDevice D] {build : Build}

theorem fits_writes {blockSize : UInt32} {blockCount : UInt64} {t : Transfer} {n : ℕ}
    (hr : t.InRange blockSize blockCount) (h : blockCount.toNat * blockSize.toNat ≤ n) :
    Fits n (writes blockSize t) := by
  intro w hw
  cases t with
  | read id buf => simp [writes] at hw
  | write id buf =>
      have hle := hr.offset_add_le
      simp only [writes, List.mem_singleton] at hw
      subst hw
      exact hle.trans h

/-- The run lemma: a device whose image is the initial one under the writes so
far goes on as a store. -/
theorem storesBlocks_of_image {initial : Bytes} {ts : List Transfer} :
    ∀ {written : List (Write UInt8)} {self : D}, Ready self →
      Fits initial.length written → image self = applyWrites initial written →
      (∀ t ∈ ts, t.InRange (BlockDevice.blockSize self) (BlockDevice.blockCount self)) →
      StoresBlocks build initial written self ts := by
  induction ts with
  | nil => exact fun _ _ _ _ => trivial
  | cons t ts ih =>
      intro written self hready hfits himage hrange
      have hr := hrange t List.mem_cons_self
      have hlen : (image self).length = initial.length := by
        rw [himage, length_applyWrites hfits]
      have hin : t.offset (BlockDevice.blockSize self) + t.buf.length ≤ (image self).length :=
        hr.offset_add_le.trans (holds hready)
      have hnew : Fits initial.length (writes (BlockDevice.blockSize self) t) :=
        fits_writes hr (hlen ▸ holds hready)
      obtain ⟨n, self', hperform, himage', hready', hsize, hcount⟩ := perform_ok build hready hr
      refine ⟨n, _, self', hperform, ?_, ?_, ?_, ?_⟩
      · cases t with
        | read id buf => exact length_window hin
        | write id buf => rfl
      · -- the image is the history of writes, so the window shows the last of them
        rintro id out rfl i hi
        rw [answer, getElem?_window, if_pos hi, himage, getElem?_applyWrites hfits]
      · intro i hi
        rw [himage']
        exact applyWrites_frame (hlen ▸ hnew) hi
      · -- the next call finds the image under one more write
        refine ih hready' (hfits.append hnew) ?_ ?_
        · rw [himage', himage, applyWrites_append]
        · intro t' ht'
          rw [hsize, hcount]
          exact hrange t' (List.mem_cons_of_mem _ ht')

/-- From the image it starts with, a ready device is a store. -/
theorem storesBlocks {self : D} {ts : List Transfer} (hready : Ready self)
    (hrange : ∀ t ∈ ts,
      t.InRange (BlockDevice.blockSize self) (BlockDevice.blockCount self)) :
    StoresBlocks build (image self) [] self ts :=
  storesBlocks_of_image hready nofun rfl hrange

end Run

/-! ## The two devices -/

instance : ImageDevice MemoryBlockDevice where
  image self := self.data.bytes
  Ready self := self.Geometry
  holds h := h.exact.le
  perform_ok build self t hg hr := by
    have hin : t.offset self.blockSize + t.buf.length ≤ self.data.bytes.length :=
      hr.offset_add_le.trans hg.exact.le
    cases t with
    | read id buf =>
        exact ⟨_, self, Transfer.perform_read
          (MemoryBlockDevice.readBlocks_inside build hg.pos hin), rfl, hg, rfl, rfl⟩
    | write id buf =>
        obtain ⟨data, hdata, hwrite⟩ :=
          MemoryBlockDevice.writeBlocks_inside build hg.pos hin
        refine ⟨_, { self with data }, Transfer.perform_write hwrite, hdata, ⟨hg.pos, ?_⟩, rfl, rfl⟩
        rw [hdata]
        exact hg.exact.trans (length_overlay hin).symm

instance : ImageDevice FileBlockDevice where
  image self := self.bytes
  Ready self := self.Geometry
  holds h := h.holds
  perform_ok build self t hg hr := by
    have hin : t.offset self.blockSize + t.buf.length ≤ self.bytes.length :=
      hr.offset_add_le.trans hg.holds
    have hmax : t.offset self.blockSize + t.buf.length ≤ isizeMax :=
      hin.trans self.file.inner.fits
    cases t with
    | read id buf =>
        obtain ⟨self', hread, hbytes, hshape⟩ := FileBlockDevice.readBlocks_inside build
          hg.pos hg.unpoisoned (Nat.le_of_add_right_le hmax) (.inr hin)
        exact ⟨_, self', Transfer.perform_read hread, hbytes,
          hg.of_sameShape hshape (by rw [hbytes]), hshape.blockSize, hshape.blockCount⟩
    | write id buf =>
        obtain ⟨self', hwrite, hbytes, hshape⟩ :=
          FileBlockDevice.writeBlocks_inside build hg hin
        refine ⟨_, self', Transfer.perform_write hwrite, hbytes,
          hg.of_sameShape hshape ?_, hshape.blockSize, hshape.blockCount⟩
        rw [hbytes]
        exact (length_overlay hin).ge

/-- Both devices, a file created or opened for reading and writing, store blocks:
any sequence of calls in range succeeds in both builds, reads return what was
last written, and writes stay inside their ranges. -/
theorem devices_store_blocks (build : Build) (ts : List Transfer) :
    (∀ self : MemoryBlockDevice, self.Built build →
      (∀ t ∈ ts, t.InRange self.blockSize self.blockCount) →
      StoresBlocks build self.data.bytes [] self ts) ∧
    (∀ self : FileBlockDevice, self.Built →
      (∀ t ∈ ts, t.InRange self.blockSize self.blockCount) →
      StoresBlocks build self.bytes [] self ts) :=
  ⟨fun _ h hrange => storesBlocks h.geometry hrange,
    fun _ h hrange => storesBlocks h.geometry hrange⟩

/-- Devices of two two-byte blocks, to run the theorems on. -/
def sampleMemory : MemoryBlockDevice := ⟨⟨[0, 0, 0, 0], by decide⟩, 2, 2⟩

def sampleHost : Host where
  openFile o := .ok ⟨if o.truncate then [] else [7, 7, 7, 7, 7], by split <;> decide, 0, o.write⟩
  writable_eq h := by cases h; rfl
  cursor_eq h := by cases h; rfl
  truncated h ht := by cases h; simp [ht]

def sampleFile : FileBlockDevice :=
  ⟨⟨⟨[7, 7, 7, 7, 7], by decide, 0, true⟩, false⟩, 2, 2⟩

theorem devices_store_blocks_sample :
    StoresBlocks .checked [0, 0, 0, 0] [] sampleMemory
      [.write 0 [1, 2, 3, 4], .write 1 [5, 6], .read 0 [9, 9, 9, 9]] ∧
    StoresBlocks .checked [7, 7, 7, 7, 7] [] sampleFile
      [.write 0 [1, 2, 3, 4], .write 1 [5, 6], .read 0 [9, 9, 9, 9]] := by
  have hrange : ∀ t ∈ ([.write 0 [1, 2, 3, 4], .write 1 [5, 6], .read 0 [9, 9, 9, 9]] :
      List Transfer), t.InRange 2 2 := by
    intro t ht
    simp only [List.mem_cons, List.not_mem_nil, or_false] at ht
    rcases ht with rfl | rfl | rfl
    · exact ⟨2, by decide, by decide⟩
    · exact ⟨1, by decide, by decide⟩
    · exact ⟨2, by decide, by decide⟩
  have hstore := devices_store_blocks .checked
    [.write 0 [1, 2, 3, 4], .write 1 [5, 6], .read 0 [9, 9, 9, 9]]
  refine ⟨hstore.1 sampleMemory ?_ hrange, hstore.2 sampleFile ?_ hrange⟩
  · exact @MemoryBlockDevice.Built.new _ 5 2 _ rfl
  · exact @FileBlockDevice.Built.openExisting sampleHost 2 _ rfl

end Ext4Lwext4.Metatheory
