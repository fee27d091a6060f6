import Ext4Lwext4.Metatheory.BlockStore

/-! # The two devices side by side

Tests run on the memory device, images on the file device. Started on the same
image and sent the same transfers, the two answer alike as long as no transfer
reaches past the end in one of the two ways only the memory device refuses:
a write, or an empty read. -/

namespace Ext4Lwext4.Metatheory

open Ext4Lwext4.Framework Ext4Lwext4.Model

/-- Both calls succeed or both fail, a successful one leaves the same buffer,
both images have the length of the blocks and the same bytes, and so on with
the rest of the sequence. -/
def Lockstep (build : Build) : MemoryBlockDevice → FileBlockDevice → List Transfer → Prop
  | _, _, [] => True
  | m, f, t :: ts =>
      ∃ rm m' rf f', t.perform build m = .ok (rm, m') ∧ t.perform build f = .ok (rf, f') ∧
        rm.1.isOk = rf.1.isOk ∧ (rm.1.isOk = true → rm.2 = rf.2) ∧
        m'.data.bytes.length = m.blockCount.toNat * m.blockSize.toNat ∧
        f'.bytes.length = f.blockCount.toNat * f.blockSize.toNat ∧
        m'.data.bytes = f'.bytes ∧ Lockstep build m' f' ts

/-- Inside the `total` bytes of the image, or a read of at least one byte. -/
def Compatible (blockSize : UInt32) (total : ℕ) (t : Transfer) : Prop :=
  t.offset blockSize + t.buf.length ≤ total ∨ ∃ id buf, t = .read id buf ∧ buf ≠ []

/-- The two devices on one image. -/
structure Twins (m : MemoryBlockDevice) (f : FileBlockDevice) : Prop where
  memory : m.Geometry
  file : f.Geometry
  size : f.blockSize = m.blockSize
  count : f.blockCount = m.blockCount
  bytes : f.bytes = m.data.bytes

namespace Twins

variable {build : Build} {m : MemoryBlockDevice} {f : FileBlockDevice}

theorem length (h : Twins m f) :
    f.bytes.length = f.blockCount.toNat * f.blockSize.toNat := by
  rw [h.bytes, h.count, h.size]
  exact h.memory.exact.symm

/-- A file device left with the bytes it had is still a twin. -/
theorem of_bytes {f' : FileBlockDevice} (h : Twins m f) (hbytes : f'.bytes = f.bytes)
    (hshape : FileBlockDevice.SameShape f f') : Twins m f' where
  memory := h.memory
  file := h.file.of_sameShape hshape (by rw [hbytes])
  size := hshape.blockSize.trans h.size
  count := hshape.blockCount.trans h.count
  bytes := hbytes.trans h.bytes

theorem of_overlay {f' : FileBlockDevice} {data : ByteVec} {off : ℕ} {buf : Bytes}
    (h : Twins m f) (hin : off + buf.length ≤ m.data.bytes.length)
    (hdata : data.bytes = overlay m.data.bytes off buf)
    (hbytes : f'.bytes = overlay m.data.bytes off buf)
    (hshape : FileBlockDevice.SameShape f f') : Twins { m with data } f' where
  memory := ⟨h.memory.pos, by
    rw [hdata, length_overlay hin]
    exact h.memory.exact⟩
  file := h.file.of_sameShape hshape (by rw [hbytes, length_overlay hin, h.bytes])
  size := hshape.blockSize.trans h.size
  count := hshape.blockCount.trans h.count
  bytes := hbytes.trans hdata.symm

end Twins

/-! ## One transfer -/

/-- What `Lockstep` asks of one transfer, with twins left behind. -/
def StepAgrees (build : Build) (m : MemoryBlockDevice) (f : FileBlockDevice) (t : Transfer) :
    Prop :=
  ∃ rm m' rf f', t.perform build m = .ok (rm, m') ∧ t.perform build f = .ok (rf, f') ∧
    rm.1.isOk = rf.1.isOk ∧ (rm.1.isOk = true → rm.2 = rf.2) ∧ Twins m' f' ∧
    m'.blockSize = m.blockSize ∧ m'.blockCount = m.blockCount

section Step

variable {m : MemoryBlockDevice} {f : FileBlockDevice} {id : UInt64} {buf : Bytes}

theorem read_agrees_inside (build : Build) (h : Twins m f)
    (hin : id.toNat * m.blockSize.toNat + buf.length ≤ m.data.bytes.length) :
    StepAgrees build m f (.read id buf) := by
  have hin' : id.toNat * f.blockSize.toNat + buf.length ≤ f.bytes.length := by
    rw [h.size, h.bytes]
    exact hin
  obtain ⟨f', hread, hbytes, hshape⟩ := FileBlockDevice.readBlocks_inside build
    h.file.pos h.file.unpoisoned
    (Nat.le_of_add_right_le (hin'.trans f.file.inner.fits)) (.inr hin')
  refine ⟨_, m, _, f', Transfer.perform_read (MemoryBlockDevice.readBlocks_inside build
    h.memory.pos hin), Transfer.perform_read hread, rfl, fun _ => ?_,
    h.of_bytes hbytes hshape, rfl, rfl⟩
  rw [h.bytes, h.size]

theorem write_agrees_inside (build : Build) (h : Twins m f)
    (hin : id.toNat * m.blockSize.toNat + buf.length ≤ m.data.bytes.length) :
    StepAgrees build m f (.write id buf) := by
  have hin' : id.toNat * f.blockSize.toNat + buf.length ≤ f.bytes.length := by
    rw [h.size, h.bytes]
    exact hin
  obtain ⟨data, hdata, hwrite⟩ := MemoryBlockDevice.writeBlocks_inside build h.memory.pos hin
  obtain ⟨f', hwrite', hbytes, hshape⟩ := FileBlockDevice.writeBlocks_inside build h.file hin'
  rw [h.bytes, h.size] at hbytes
  exact ⟨_, { m with data }, _, f', Transfer.perform_write hwrite,
    Transfer.perform_write hwrite', rfl, fun _ => rfl,
    h.of_overlay hin hdata hbytes hshape, rfl, rfl⟩

/-- Past the end a read of at least one byte fails on both. -/
theorem read_agrees_outside (build : Build) (h : Twins m f)
    (hmax : id.toNat * m.blockSize.toNat + buf.length ≤ isizeMax)
    (hout : m.data.bytes.length < id.toNat * m.blockSize.toNat + buf.length) (hne : buf ≠ []) :
    StepAgrees build m f (.read id buf) := by
  have hov : id.toNat * m.blockSize.toNat + buf.length < 2 ^ 64 := by
    unfold isizeMax at hmax
    omega
  rw [← h.size] at hmax
  obtain ⟨e, buf', f', hread, hbytes, hshape⟩ := FileBlockDevice.readBlocks_outside build
    h.file.pos h.file.unpoisoned (Nat.le_of_add_right_le hmax) hne
    (by rw [h.bytes, h.size]; exact hout)
  exact ⟨_, m, _, f', Transfer.perform_read (MemoryBlockDevice.readBlocks_outside build hov hout),
    Transfer.perform_read hread, rfl, nofun, h.of_bytes hbytes hshape, rfl, rfl⟩

theorem step_compatible (build : Build) {t : Transfer} (h : Twins m f)
    (hmax : t.offset m.blockSize + t.buf.length ≤ isizeMax)
    (hc : Compatible m.blockSize m.data.bytes.length t) : StepAgrees build m f t := by
  by_cases hin : t.offset m.blockSize + t.buf.length ≤ m.data.bytes.length
  · cases t with
    | read id buf => exact read_agrees_inside build h hin
    | write id buf => exact write_agrees_inside build h hin
  · obtain ⟨id, buf, rfl, hne⟩ := hc.resolve_left hin
    exact read_agrees_outside build h hmax (Nat.lt_of_not_le hin) hne

/-- The other transfers are refused by the memory device, never by the file. -/
theorem step_incompatible (build : Build) {t : Transfer} (h : Twins m f)
    (hmax : t.offset m.blockSize + t.buf.length ≤ isizeMax)
    (hc : ¬ Compatible m.blockSize m.data.bytes.length t) :
    ∃ rm m' rf f', t.perform build m = .ok (rm, m') ∧ t.perform build f = .ok (rf, f') ∧
      rm.1.isOk = false ∧ rf.1.isOk = true := by
  have hout : m.data.bytes.length < t.offset m.blockSize + t.buf.length :=
    Nat.lt_of_not_le fun hle => hc (.inl hle)
  have hov : t.offset m.blockSize + t.buf.length < 2 ^ 64 := by
    unfold isizeMax at hmax
    omega
  have hmax' : t.offset f.blockSize + t.buf.length ≤ isizeMax := by
    rw [h.size]
    exact hmax
  cases t with
  | read id buf =>
      -- the only read that is left is an empty one
      have hnil : buf = [] := by
        by_contra hne
        exact hc (.inr ⟨id, buf, rfl, hne⟩)
      obtain ⟨f', hread, _, _⟩ := FileBlockDevice.readBlocks_inside build
        h.file.pos h.file.unpoisoned (Nat.le_of_add_right_le hmax') (.inl hnil)
      exact ⟨_, m, _, f',
        Transfer.perform_read (MemoryBlockDevice.readBlocks_outside build hov hout),
        Transfer.perform_read hread, rfl, rfl⟩
  | write id buf =>
      obtain ⟨f', hwrite, _, _⟩ := FileBlockDevice.writeBlocks_ok build
        h.file.pos h.file.unpoisoned h.file.writable hmax'
      exact ⟨_, m, _, f',
        Transfer.perform_write (MemoryBlockDevice.writeBlocks_outside build hov hout),
        Transfer.perform_write hwrite, rfl, rfl⟩

end Step

/-! ## Any sequence of transfers -/

/-- Twins stay in lockstep exactly as long as every transfer is compatible. -/
theorem lockstep_iff_of_twins (build : Build) (ts : List Transfer) :
    ∀ {m : MemoryBlockDevice} {f : FileBlockDevice}, Twins m f →
      (∀ t ∈ ts, t.offset m.blockSize + t.buf.length ≤ isizeMax) →
      (Lockstep build m f ts ↔
        ∀ t ∈ ts, Compatible m.blockSize (m.blockCount.toNat * m.blockSize.toNat) t) := by
  induction ts with
  | nil => simp [Lockstep]
  | cons t ts ih =>
      intro m f h hmax
      have hmaxt := hmax t List.mem_cons_self
      rw [List.forall_mem_cons]
      constructor
      · rintro ⟨rm, m', rf, f', hpm, hpf, hok, -, -, -, -, hrest⟩
        -- a transfer that is not compatible would part the two at once
        have hct : Compatible m.blockSize m.data.bytes.length t := by
          by_contra hc
          obtain ⟨rm', _, rf', _, hpm', hpf', hrm, hrf⟩ := step_incompatible build h hmaxt hc
          rw [hpm] at hpm'
          rw [hpf] at hpf'
          cases hpm'
          cases hpf'
          rw [hrm, hrf] at hok
          exact Bool.false_ne_true hok
        -- so it left twins, and the rest of the run is theirs
        obtain ⟨_, _, _, _, hpm', hpf', -, -, h', hsize, hcount⟩ :=
          step_compatible build h hmaxt hct
        rw [hpm] at hpm'
        rw [hpf] at hpf'
        cases hpm'
        cases hpf'
        rw [h.memory.exact]
        refine ⟨hct, ?_⟩
        have hts := (ih h' (by
          rw [hsize]
          exact fun u hu => hmax u (List.mem_cons_of_mem _ hu))).mp hrest
        rw [hsize, hcount, h.memory.exact] at hts
        exact hts
      · rintro ⟨hct, hcts⟩
        rw [h.memory.exact] at hct
        obtain ⟨rm, m', rf, f', hpm, hpf, hok, hbuf, h', hsize, hcount⟩ :=
          step_compatible build h hmaxt hct
        have hrest : Lockstep build m' f' ts := by
          refine (ih h' ?_).mpr ?_
          · rw [hsize]
            exact fun u hu => hmax u (List.mem_cons_of_mem _ hu)
          · rw [hsize, hcount]
            exact hcts
        refine ⟨rm, m', rf, f', hpm, hpf, hok, hbuf, ?_, ?_, h'.bytes.symm, hrest⟩
        · rw [← h'.memory.exact, hsize, hcount]
        · rw [h'.length, h'.size, h'.count, h.size, h.count, hsize, hcount]

/-- Devices built with one block size on one image are twins. -/
theorem twins_of_built {build : Build} {m : MemoryBlockDevice} {f : FileBlockDevice}
    (hm : m.Built build) (hf : f.Built) (hsize : f.blockSize = m.blockSize)
    (hbytes : f.bytes = m.data.bytes) : Twins m f where
  memory := hm.geometry
  file := hf.geometry
  size := hsize
  count := by
    apply UInt64.toNat_inj.mp
    rw [hf.geometry_count.2, hbytes, hsize, ← hm.geometry.exact]
    exact Nat.mul_div_cancel _ (toNat_pos hm.geometry.pos)
  bytes := hbytes

/-- The devices are observationally equivalent on exactly the sequences whose
transfers all lie inside the image or are reads of at least one byte. -/
theorem devices_agree_iff (build : Build) (m : MemoryBlockDevice) (f : FileBlockDevice)
    (ts : List Transfer) (hm : m.Built build) (hf : f.Built) (hsize : f.blockSize = m.blockSize)
    (hbytes : f.bytes = m.data.bytes)
    (hmax : ∀ t ∈ ts, t.offset m.blockSize + t.buf.length < 2 ^ 63) :
    Lockstep build m f ts ↔
      ∀ t ∈ ts, Compatible m.blockSize (m.blockCount.toNat * m.blockSize.toNat) t := by
  refine lockstep_iff_of_twins build ts (twins_of_built hm hf hsize hbytes) fun t ht => ?_
  have := hmax t ht
  unfold isizeMax
  omega

/-- A new image of two two-byte blocks in a file. -/
def blankFile : FileBlockDevice := ⟨⟨⟨[0, 0, 0, 0], sampleMemory.data.fits, 0, true⟩, false⟩, 2, 2⟩

theorem blankFile_built : blankFile.Built := @FileBlockDevice.Built.create sampleHost 4 2 _ rfl

theorem sampleMemory_built : sampleMemory.Built .checked := @MemoryBlockDevice.Built.new _ 4 2 _ rfl

theorem devices_agree_iff_sample :
    Lockstep .checked sampleMemory blankFile [.write 1 [1, 2], .read 5 [0, 0]] ↔
      ∀ t ∈ ([.write 1 [1, 2], .read 5 [0, 0]] : List Transfer), Compatible 2 4 t :=
  devices_agree_iff .checked sampleMemory blankFile _ sampleMemory_built blankFile_built rfl rfl
    (by decide)

/-- A write to the block after the last one: the file grows, the memory device
refuses. -/
theorem devices_disagree :
    ¬ ∀ (build : Build) (m : MemoryBlockDevice) (f : FileBlockDevice) (ts : List Transfer),
      m.Built build → f.Built → f.blockSize = m.blockSize → f.bytes = m.data.bytes →
      (∀ t ∈ ts, m.blockSize.toNat ∣ t.buf.length ∧
        t.offset m.blockSize + t.buf.length < 2 ^ 63) →
      Lockstep build m f ts := by
  intro hagree
  obtain ⟨rm, m', rf, f', hpm, hpf, hok, -⟩ := hagree .checked sampleMemory blankFile
    [.write 2 [1, 2]] sampleMemory_built blankFile_built rfl rfl (by decide)
  cases hpm
  cases hpf
  exact Bool.false_ne_true hok

end Ext4Lwext4.Metatheory
