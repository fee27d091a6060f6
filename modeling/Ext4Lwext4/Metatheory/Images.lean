import Ext4Lwext4.Metatheory.DeviceEquivalence
import Ext4Lwext4.Metatheory.DeviceGeometry

/-! # Images that outlive their device

A device is made around an image and can be taken off it again: a memory
device gives its vector back, a file device leaves its file. Whatever was done
to the device, another one made around what it left, of either kind, finds the
same blocks. A file that grew past its blocks is found with the blocks it grew by. -/

namespace Ext4Lwext4.Metatheory

open Ext4Lwext4.Framework Ext4Lwext4.Model

/-- The host has the image and opens it for reading and writing. -/
def HasImage (host : Host) (image : Bytes) : Prop :=
  ∃ file, host.openFile { read := true, write := true } = .ok file ∧ file.bytes = image

/-- One image, and the same answers to the same transfers: both builds keep the
two in lockstep exactly as long as every transfer stays inside the image or
reads at least a byte. -/
def AnswersAlike (m : MemoryBlockDevice) (f : FileBlockDevice) : Prop :=
  Twins m f ∧ ∀ build ts, (∀ t ∈ ts, t.offset m.blockSize + t.buf.length ≤ isizeMax) →
    (Lockstep build m f ts ↔
      ∀ t ∈ ts, Compatible m.blockSize (m.blockCount.toNat * m.blockSize.toNat) t)

theorem Twins.answersAlike {m : MemoryBlockDevice} {f : FileBlockDevice} (h : Twins m f) :
    AnswersAlike m f := ⟨h, fun build ts hmax => lockstep_iff_of_twins build ts h hmax⟩

/-- Within the blocks of the device, as far as the operation writes. -/
def DeviceOp.InRange (blockSize : UInt32) (blockCount : UInt64) : DeviceOp → Prop
  | .writeBlocks blockId buf => (Transfer.write blockId buf).InRange blockSize blockCount
  | _ => True

/-! ## Making a device again -/

section Remake

variable {blockSize : UInt32}

/-- A vector of whole blocks is taken as it is. -/
theorem fromVec_ok (data : ByteVec) (hpos : blockSize ≠ 0)
    (hdvd : blockSize.toNat ∣ data.bytes.length) :
    ∃ m, MemoryBlockDevice.fromVec data blockSize = .ok m ∧ m.data = data ∧
      m.blockSize = blockSize ∧ m.blockCount = len data.bytes / blockSize.toUInt64 := by
  have hne := toUInt64_ne_zero hpos
  have hlen : (len data.bytes).toNat = data.bytes.length :=
    toNat_len (Nat.lt_trans data.length_lt (by decide))
  have hrem : len data.bytes % blockSize.toUInt64 = 0 := by
    apply UInt64.toNat_inj.mp
    rw [UInt64.toNat_mod, UInt32.toNat_toUInt64, hlen]
    exact Nat.mod_eq_zero_of_dvd hdvd
  refine ⟨⟨data, blockSize, len data.bytes / blockSize.toUInt64⟩, ?_, rfl, rfl, rfl⟩
  simp only [MemoryBlockDevice.fromVec, rem64_of_ne hne, div64_of_ne hne, ok_bind, hrem, if_true]
  rfl

/-- An image that the host has can be opened with blocks of any size. -/
theorem openWithBlockSize_ok {host : Host} {image : Bytes} (h : HasImage host image)
    (hpos : blockSize ≠ 0) :
    ∃ f, FileBlockDevice.openWithBlockSize host blockSize = .ok (.ok f) ∧ f.bytes = image ∧
      f.blockSize = blockSize ∧ f.blockCount.toNat = image.length / blockSize.toNat := by
  obtain ⟨file, hopen, rfl⟩ := h
  have hlen : (len file.bytes).toNat = file.bytes.length :=
    toNat_len (Nat.lt_trans file.length_lt (by decide))
  refine ⟨⟨Mutex.new file, blockSize, len file.bytes / blockSize.toUInt64⟩, ?_, rfl, rfl, ?_⟩
  · simp only [FileBlockDevice.openWithBlockSize, FileBlockDevice.openExisting, hopen,
      HostFile.metadataLen, FileBlockDevice.ofFile, div64_of_ne (toUInt64_ne_zero hpos), ok_bind]
    rfl
  · rw [UInt64.toNat_div, UInt32.toNat_toUInt64, hlen]

end Remake

/-! ## Memory devices -/

section Memory

variable {m : MemoryBlockDevice}

theorem geometry_dvd (hg : m.Geometry) : m.blockSize.toNat ∣ m.data.bytes.length :=
  ⟨m.blockCount.toNat, by rw [Nat.mul_comm]; exact hg.exact.symm⟩

/-- The device made of its own vector is the device. -/
theorem fromVec_intoVec (hg : m.Geometry) :
    MemoryBlockDevice.fromVec m.intoVec m.blockSize = .ok m := by
  obtain ⟨m', hm', hdata, hsize, hcount⟩ := fromVec_ok m.intoVec hg.pos (geometry_dvd hg)
  rw [hm']
  have hlen : (len m.intoVec.bytes).toNat = m.blockCount.toNat * m.blockSize.toNat := by
    rw [hg.exact]
    exact toNat_len (Nat.lt_trans m.data.length_lt (by decide))
  have hcount : m'.blockCount = m.blockCount := by
    apply UInt64.toNat_inj.mp
    rw [hcount, UInt64.toNat_div, UInt32.toNat_toUInt64, hlen]
    exact Nat.mul_div_cancel _ (toNat_pos hg.pos)
  obtain ⟨data, size, count⟩ := m'
  obtain rfl := hdata
  obtain rfl := hsize
  obtain rfl := hcount
  rfl

/-- Saved to a file and opened there, the device goes on as its twin. -/
theorem saved_twins (hg : m.Geometry) {host : Host} (hhost : HasImage host m.asSlice) :
    ∃ f, FileBlockDevice.openWithBlockSize host m.blockSize = .ok (.ok f) ∧ Twins m f := by
  obtain ⟨f, hopen, hbytes, hsize, hcount⟩ := openWithBlockSize_ok hhost hg.pos
  refine ⟨f, hopen, hg, (FileBlockDevice.Built.openExisting hopen).geometry, hsize, ?_, hbytes⟩
  apply UInt64.toNat_inj.mp
  rw [hcount, MemoryBlockDevice.asSlice, ← hg.exact]
  exact Nat.mul_div_cancel _ (toNat_pos hg.pos)

theorem SameExtent.geometry {m' : MemoryBlockDevice} (h : SameExtent m m') (hg : m.Geometry) :
    m'.Geometry where
  pos := h.blockSize ▸ hg.pos
  exact := by rw [h.blockCount, h.blockSize, h.length, hg.exact]

end Memory

/-! ## File devices -/

section File

variable {build : Build} {f : FileBlockDevice}

theorem writeAll_keeps_length {file file' : HostFile} {buf : Bytes}
    {result : Except IoError Unit} (hin : file.cursor + buf.length ≤ file.bytes.length)
    (h : file.writeAll buf = (result, file')) : file'.bytes.length = file.bytes.length := by
  unfold HostFile.writeAll at h
  split at h
  · cases h
    rfl
  · split at h
    · split at h
      · cases h
        show (overlayGrow 0 file.bytes file.cursor buf).length = _
        rw [length_overlayGrow, Nat.max_eq_left hin]
      · cases h
        rfl
    · cases h
      rfl

/-- A write inside the blocks does not grow the file. -/
theorem writeBlocks_keeps_length {f' : FileBlockDevice} {blockId : UInt64} {buf : Bytes}
    {result : Except Error UInt32}
    (hholds : f.blockCount.toNat * f.blockSize.toNat ≤ f.bytes.length)
    (hr : (Transfer.write blockId buf).InRange f.blockSize f.blockCount)
    (h : f.writeBlocks build blockId buf = .ok (result, f')) :
    f'.bytes.length = f.bytes.length := by
  have hin : blockId.toNat * f.blockSize.toNat + buf.length ≤ f.bytes.length :=
    hr.offset_add_le.trans hholds
  have hlt : f.bytes.length < 2 ^ 64 := Nat.lt_trans f.file.inner.length_lt (by decide)
  obtain ⟨offset, hmul, h⟩ := bind_eq_ok.mp h
  have hoffset : offset.toNat = blockId.toNat * f.blockSize.toNat := by
    rw [toNat_arith _ hmul, UInt32.toNat_toUInt64]
    rw [UInt32.toNat_toUInt64]
    omega
  obtain ⟨count, -, h⟩ := bind_eq_ok.mp h
  split at h
  · cases h
    rfl
  · rename_i file hlock
    obtain rfl : file = f.file.inner := Mutex.lock_ok hlock
    split at h
    · cases h
      rfl
    · rename_i file hseek
      have hfile : file.bytes = f.bytes ∧ file.cursor = offset.toNat := by
        unfold HostFile.seekStart at hseek
        split at hseek
        · cases hseek
          exact ⟨rfl, rfl⟩
        · cases hseek
      have hkeep {result : Except IoError Unit} {file' : HostFile}
          (hwrite : file.writeAll buf = (result, file')) : file'.bytes.length = f.bytes.length := by
        rw [← hfile.1]
        refine writeAll_keeps_length ?_ hwrite
        rw [hfile.1, hfile.2, hoffset]
        exact hin
      split at h
      · rename_i hwrite
        cases h
        exact hkeep hwrite
      · rename_i hwrite
        cases h
        exact hkeep hwrite

theorem flush_self {f' : FileBlockDevice} {result : Except Error Unit}
    (h : f.flush = .ok (result, f')) : f' = f := by
  unfold FileBlockDevice.flush at h
  split at h
  · cases h
    rfl
  · cases h
    rfl

theorem deviceOp_keeps_length (build : Build) {op : DeviceOp}
    (hholds : f.blockCount.toNat * f.blockSize.toNat ≤ f.bytes.length)
    (hr : DeviceOp.InRange f.blockSize f.blockCount op) :
    (op.apply build f).bytes.length = f.bytes.length := by
  cases op with
  | readBlocks blockId buf =>
      simp only [DeviceOp.apply]
      split
      · rename_i hread
        obtain ⟨_, -, ⟨-, rfl⟩ | ⟨_, file, _, file', hseek, hexact, rfl, -⟩⟩ :=
          FileBlockDevice.readBlocks_cases hread
        · rfl
        · exact congrArg List.length ((readExact_bytes hexact).trans (seekStart_bytes hseek))
      · rfl
  | writeBlocks blockId buf =>
      simp only [DeviceOp.apply]
      split
      · rename_i hwrite
        exact writeBlocks_keeps_length hholds hr hwrite
      · rfl
  | flush =>
      simp only [DeviceOp.apply]
      split
      · rename_i hflush
        rw [flush_self hflush]
      · rfl
  | openDevice => rfl
  | closeDevice => rfl

theorem runFile_keeps_length {ops : List DeviceOp}
    (hholds : f.blockCount.toNat * f.blockSize.toNat ≤ f.bytes.length)
    (hr : ∀ op ∈ ops, DeviceOp.InRange f.blockSize f.blockCount op) :
    (runFile build f ops).bytes.length = f.bytes.length := by
  induction ops generalizing f with
  | nil => rfl
  | cons op ops ih =>
      have hlen := deviceOp_keeps_length build hholds (hr op List.mem_cons_self)
      have hsame := deviceOp_sameBlocks build f op
      rw [← hlen]
      refine ih ?_ fun op hop => ?_
      · rw [hsame.blockCount, hsame.blockSize, hlen]
        exact hholds
      · rw [hsame.blockCount, hsame.blockSize]
        exact hr op (List.mem_cons_of_mem _ hop)

/-- The file of a device, opened again: the same bytes, and the blocks they
make. Those are the blocks the device had unless the file has grown by one. -/
theorem reopened (hpos : f.blockSize ≠ 0)
    (hholds : f.blockCount.toNat * f.blockSize.toNat ≤ f.bytes.length) {host : Host}
    (hhost : HasImage host f.bytes) :
    ∃ f', FileBlockDevice.openWithBlockSize host f.blockSize = .ok (.ok f') ∧
      f'.bytes = f.bytes ∧ f'.blockSize = f.blockSize ∧
      (f'.blockCount = f.blockCount ↔
        f.bytes.length < (f.blockCount.toNat + 1) * f.blockSize.toNat) := by
  obtain ⟨f', hopen, hbytes, hsize, hcount⟩ := openWithBlockSize_ok hhost hpos
  refine ⟨f', hopen, hbytes, hsize, ?_⟩
  rw [← UInt64.toNat_inj, hcount, Nat.div_eq_iff (toNat_pos hpos)]
  have := toNat_pos hpos
  rw [Nat.add_mul]
  omega

/-- A file of whole blocks, read into a vector, makes its twin in memory. -/
theorem loaded_twins (hf : f.Built) (hdvd : f.blockSize.toNat ∣ f.bytes.length) {data : ByteVec}
    (hdata : data.bytes = f.bytes) :
    ∃ m, MemoryBlockDevice.fromVec data f.blockSize = .ok m ∧ Twins m f := by
  obtain ⟨hfile, hcount⟩ := hf.geometry_count
  obtain ⟨m, hm, hmdata, hmsize, hmcount⟩ := fromVec_ok data hfile.pos (hdata ▸ hdvd)
  refine ⟨m, hm, MemoryBlockDevice.fromVec_geometry hm, hfile, hmsize.symm, ?_, ?_⟩
  · have hlen : (len data.bytes).toNat = f.bytes.length := by
      rw [toNat_len (Nat.lt_trans data.length_lt (by decide)), hdata]
    apply UInt64.toNat_inj.mp
    rw [hcount, hmcount, UInt64.toNat_div, UInt32.toNat_toUInt64, hlen]
  · rw [hmdata, hdata]

end File

/-! ## Any history -/

/-- Whatever was done to a device of either kind, its image survives it. A
memory device is found again in its vector as it was, and its slice, saved to a
file, opens as a file device that answers alike. A file opens again with the
bytes it was left with; the blocks are the same unless the file has grown by a
block, which no operation within them does; and read into memory, whole blocks
make a memory device that answers alike. -/
theorem images_survive (build : Build) (size : ℕ) (blockSize : UInt32) :
    (∀ m, MemoryMade build size blockSize m → ∀ ops,
      MemoryBlockDevice.fromVec (runMemory build m ops).intoVec blockSize =
        .ok (runMemory build m ops) ∧
      ∀ host, HasImage host (runMemory build m ops).asSlice →
        ∃ f, FileBlockDevice.openWithBlockSize host blockSize = .ok (.ok f) ∧
          AnswersAlike (runMemory build m ops) f) ∧
    ∀ host f, FileMade host size blockSize f → ∀ ops host',
      HasImage host' (runFile build f ops).bytes →
      ∃ f', FileBlockDevice.openWithBlockSize host' blockSize = .ok (.ok f') ∧
        f'.bytes = (runFile build f ops).bytes ∧
        (f'.blockCount = f.blockCount ↔
          (runFile build f ops).bytes.length < (f.blockCount.toNat + 1) * blockSize.toNat) ∧
        ((∀ op ∈ ops, DeviceOp.InRange blockSize f.blockCount op) →
          f'.blockCount = f.blockCount) ∧
        (blockSize.toNat ∣ (runFile build f ops).bytes.length →
          ∀ data : ByteVec, data.bytes = (runFile build f ops).bytes →
            ∃ m, MemoryBlockDevice.fromVec data blockSize = .ok m ∧ AnswersAlike m f') := by
  constructor
  · intro m h ops
    obtain ⟨hsize, -⟩ := h.wholeBlocks
    have hsame := runMemory_sameExtent build m ops
    have hg := hsame.geometry h.geometry
    obtain rfl : (runMemory build m ops).blockSize = blockSize := hsame.blockSize.trans hsize
    refine ⟨fromVec_intoVec hg, fun host hhost => ?_⟩
    obtain ⟨f, hopen, htwins⟩ := saved_twins hg hhost
    exact ⟨f, hopen, htwins.answersAlike⟩
  · intro host f h ops host' hhost
    obtain ⟨hsize, hlength, -, hblocks⟩ := h.fresh
    have hsame := runFile_sameBlocks build f ops
    obtain rfl : (runFile build f ops).blockSize = blockSize := hsame.blockSize.trans hsize
    have hholds : (runFile build f ops).blockCount.toNat *
        (runFile build f ops).blockSize.toNat ≤ (runFile build f ops).bytes.length := by
      rw [hsame.blockCount]
      exact hblocks.le.trans (hlength ▸ hsame.length)
    obtain ⟨f', hopen, hbytes, hsize', hcount⟩ := reopened hblocks.pos hholds hhost
    rw [hsame.blockCount] at hcount
    refine ⟨f', hopen, hbytes, hcount, fun hr => hcount.mpr ?_, fun hdvd data hdata => ?_⟩
    · -- inside the blocks the file keeps its length, which makes no further block
      have hkeep : (runFile build f ops).bytes.length = size := by
        rw [← hlength]
        refine runFile_keeps_length ?_ (by rwa [hsize])
        rw [hsize, hlength]
        exact hblocks.le
      rw [hkeep, Nat.add_mul, Nat.one_mul]
      exact hblocks.gt
    · have hwhole : f'.blockSize.toNat ∣ f'.bytes.length := by
        rw [hsize', hbytes]
        exact hdvd
      obtain ⟨m, hm, htwins⟩ :=
        loaded_twins (.openExisting hopen) hwhole (hdata.trans hbytes.symm)
      exact ⟨m, hsize' ▸ hm, htwins.answersAlike⟩

/-- A host with one file. -/
def hostWith (image : Bytes) (h : image.length ≤ isizeMax) : Host where
  openFile o := .ok ⟨if o.truncate then [] else image, by
    split
    · exact Nat.zero_le _
    · exact h, 0, o.write⟩
  writable_eq h := by cases h; rfl
  cursor_eq h := by cases h; rfl
  truncated h ht := by cases h; simp [ht]

/-- A block written in memory is found in the file, and a file that grew by one
is found with a block more. -/
theorem images_survive_sample :
    (∃ f, FileBlockDevice.openWithBlockSize (hostWith [0, 0, 1, 2] (by decide)) 2 = .ok (.ok f) ∧
      AnswersAlike (runMemory .checked sampleMemory [.device (.writeBlocks 1 [1, 2])]) f) ∧
    ∃ f, FileBlockDevice.openWithBlockSize
        (hostWith [7, 7, 7, 7, 1, 2] (by decide)) 2 = .ok (.ok f) ∧
      f.bytes = [7, 7, 7, 7, 1, 2] ∧ f.blockCount ≠ 2 := by
  have hmemory : MemoryMade .checked 4 2 sampleMemory := @MemoryMade.new _ 4 2 _ rfl
  have hfile : FileMade sampleHost 5 2 sampleFile :=
    @FileMade.openWithBlockSize sampleHost 2 _ ⟨[7, 7, 7, 7, 7], by decide, 0, true⟩ rfl rfl
  constructor
  · have hsaved := ((images_survive .checked 4 2).1 sampleMemory hmemory
      [.device (.writeBlocks 1 [1, 2])]).2
    exact hsaved _ ⟨_, rfl, rfl⟩
  · obtain ⟨f, hopen, hbytes, hcount, -⟩ := (images_survive .checked 5 2).2 sampleHost sampleFile
      hfile [.writeBlocks 2 [1, 2]] (hostWith [7, 7, 7, 7, 1, 2] (by decide)) ⟨_, rfl, rfl⟩
    exact ⟨f, hopen, hbytes, fun hsame => absurd (hcount.mp hsame) (by decide)⟩

end Ext4Lwext4.Metatheory
