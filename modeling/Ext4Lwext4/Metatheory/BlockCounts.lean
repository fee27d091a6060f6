import Ext4Lwext4.Metatheory.BlockStore

/-! # The count a transfer returns

A successful transfer returns how many blocks it moved. The memory device
divides the length of the buffer and casts the quotient to `u32`; the file
device casts the length and divides what the cast left of it. -/

namespace Ext4Lwext4.Metatheory

open Ext4Lwext4.Framework Ext4Lwext4.Model

/-! ## The two computations -/

section Arithmetic

variable {buf : Bytes} {bs : UInt32} {k : ℕ}

/-- Whole blocks counted in 32 bits never make a buffer of `2 ^ 64` bytes. -/
theorem length_lt_of_blocks (hk : k < 2 ^ 32) (hbuf : buf.length = k * bs.toNat) :
    buf.length < 2 ^ 64 := by
  rw [hbuf]
  calc k * bs.toNat
      ≤ k * 2 ^ 32 := Nat.mul_le_mul_left _ bs.toNat_lt.le
    _ < 2 ^ 32 * 2 ^ 32 := Nat.mul_lt_mul_of_pos_right hk (by decide)

theorem divide_then_cast (hbs : bs ≠ 0) (hk : k < 2 ^ 32) (hbuf : buf.length = k * bs.toNat) :
    (len buf / bs.toUInt64).toUInt32.toNat = k := by
  rw [UInt64.toNat_toUInt32, UInt64.toNat_div, toNat_len (length_lt_of_blocks hk hbuf),
    UInt32.toNat_toUInt64, hbuf, Nat.mul_div_cancel _ (toNat_pos hbs)]
  exact Nat.mod_eq_of_lt hk

/-- The cast first drops the bytes past 4 GiB, and the quotient with them. -/
theorem cast_then_divide (hk : k < 2 ^ 32) (hbuf : buf.length = k * bs.toNat) :
    ((len buf).toUInt32 / bs).toNat = k * bs.toNat % 2 ^ 32 / bs.toNat := by
  rw [UInt32.toNat_div, UInt64.toNat_toUInt32, toNat_len (length_lt_of_blocks hk hbuf), hbuf]

theorem cast_then_divide_iff (hbs : bs ≠ 0) (hk : k < 2 ^ 32) (hbuf : buf.length = k * bs.toNat) :
    ((len buf).toUInt32 / bs).toNat = k ↔ k * bs.toNat < 2 ^ 32 := by
  have hpos : 0 < bs.toNat := toNat_pos hbs
  rw [cast_then_divide hk hbuf]
  constructor
  · intro h
    have hle : k * bs.toNat ≤ k * bs.toNat % 2 ^ 32 := (Nat.le_div_iff_mul_le hpos).mp h.ge
    exact hle.trans_lt (Nat.mod_lt _ (by decide))
  · intro h
    rw [Nat.mod_eq_of_lt h, Nat.mul_div_cancel _ hpos]

end Arithmetic

/-! ## What a successful call returned -/

section Returned

variable {build : Build} {id : UInt64} {buf out : Bytes} {n : UInt32}

theorem memory_count {self : MemoryBlockDevice} {count : UInt64}
    (h : div64 (len buf) self.blockSize.toUInt64 = .ok count) :
    self.blockSize ≠ 0 ∧ count.toUInt32 = (len buf / self.blockSize.toUInt64).toUInt32 := by
  obtain ⟨hne, rfl⟩ := div64_eq_ok.mp h
  refine ⟨?_, rfl⟩
  intro hzero
  exact hne (by rw [hzero]; rfl)

theorem memory_readBlocks_count {self self' : MemoryBlockDevice}
    (h : self.readBlocks build id buf = .ok (.ok n, out, self')) :
    self.blockSize ≠ 0 ∧ n = (len buf / self.blockSize.toUInt64).toUInt32 := by
  obtain ⟨-, ⟨e, he⟩ | ⟨count, hcount, hn⟩⟩ := MemoryBlockDevice.readBlocks_cases h
  · cases he
  · cases hn
    exact memory_count hcount

theorem memory_writeBlocks_count {self self' : MemoryBlockDevice}
    (h : self.writeBlocks build id buf = .ok (.ok n, self')) :
    self.blockSize ≠ 0 ∧ n = (len buf / self.blockSize.toUInt64).toUInt32 := by
  obtain ⟨⟨e, he⟩, -⟩ | ⟨_, _, _, count, -, hcount, hn, -⟩ := MemoryBlockDevice.writeBlocks_cases h
  · cases he
  · cases hn
    exact memory_count hcount

theorem file_readBlocks_count {self self' : FileBlockDevice}
    (h : self.readBlocks build id buf = .ok (.ok n, out, self')) :
    self.blockSize ≠ 0 ∧ n = (len buf).toUInt32 / self.blockSize := by
  obtain ⟨count, hcount, ⟨⟨e, he⟩, -⟩ | ⟨_, _, read, _, -, -, -, hn⟩⟩ :=
    FileBlockDevice.readBlocks_cases h
  · cases he
  · cases read with
    | error e => cases hn
    | ok _ =>
        cases hn
        exact div32_eq_ok.mp hcount

theorem file_writeBlocks_count {self self' : FileBlockDevice}
    (h : self.writeBlocks build id buf = .ok (.ok n, self')) :
    self.blockSize ≠ 0 ∧ n = (len buf).toUInt32 / self.blockSize := by
  obtain ⟨count, hcount, ⟨⟨e, he⟩, -⟩ | ⟨_, _, written, _, -, -, -, hn⟩⟩ :=
    FileBlockDevice.writeBlocks_cases h
  · cases he
  · cases written with
    | error e => cases hn
    | ok _ =>
        cases hn
        exact div32_eq_ok.mp hcount

end Returned

/-! ## The count of `k` blocks -/

/-- A transfer of a buffer of exactly `k` blocks, in either direction, returned
`Ok(n)`. -/
inductive Counted {D : Type} [BlockDevice D] (build : Build) (self : D) (k : ℕ) (n : UInt32) : Prop
  | read {id : UInt64} {buf out : Bytes} {self' : D} :
      buf.length = k * (BlockDevice.blockSize self).toNat →
      BlockDevice.readBlocks build self id buf = .ok (.ok n, out, self') →
      Counted build self k n
  | write {id : UInt64} {buf : Bytes} {self' : D} :
      buf.length = k * (BlockDevice.blockSize self).toNat →
      BlockDevice.writeBlocks build self id buf = .ok (.ok n, self') →
      Counted build self k n

/-- Whatever count a transfer of `k` blocks returns, it is `k`. -/
def CountsBlocks {D : Type} [BlockDevice D] (build : Build) (self : D) (k : ℕ) : Prop :=
  ∀ n, Counted build self k n → n.toNat = k

section Count

variable {build : Build} {k : ℕ}

theorem memory_countsBlocks (hk : k < 2 ^ 32) (self : MemoryBlockDevice) :
    CountsBlocks build self k := by
  intro n h
  cases h with
  | read hbuf h =>
      obtain ⟨hbs, rfl⟩ := memory_readBlocks_count h
      exact divide_then_cast hbs hk hbuf
  | write hbuf h =>
      obtain ⟨hbs, rfl⟩ := memory_writeBlocks_count h
      exact divide_then_cast hbs hk hbuf

/-- Of each count the file device returns: right exactly below 4 GiB. -/
theorem file_counted_iff (hk : k < 2 ^ 32) {self : FileBlockDevice} {n : UInt32}
    (h : Counted build self k n) : n.toNat = k ↔ k * self.blockSize.toNat < 2 ^ 32 := by
  cases h with
  | read hbuf h =>
      obtain ⟨hbs, rfl⟩ := file_readBlocks_count h
      exact cast_then_divide_iff hbs hk hbuf
  | write hbuf h =>
      obtain ⟨hbs, rfl⟩ := file_writeBlocks_count h
      exact cast_then_divide_iff hbs hk hbuf

/-- An image of exactly `k` blocks of zeros. -/
def zeroImage (bs : UInt32) (k : ℕ) (h : k * bs.toNat ≤ isizeMax) : FileBlockDevice where
  file := Mutex.new
    { bytes := List.replicate (k * bs.toNat) 0, fits := by simpa using h, cursor := 0,
      writable := true }
  blockSize := bs
  blockCount := UInt64.ofNat k

/-- A read of the whole of that image succeeds, so its count is seen. -/
theorem zeroImage_counted (build : Build) {bs : UInt32} (hbs : bs ≠ 0) (hk : k < 2 ^ 32)
    (h : k * bs.toNat ≤ isizeMax) :
    ∃ n, Counted build (zeroImage bs k h) k n ∧ n.toNat = k * bs.toNat % 2 ^ 32 / bs.toNat := by
  have hlen : (zeroImage bs k h).bytes.length = k * bs.toNat := List.length_replicate
  have hin : (0 : UInt64).toNat * bs.toNat + (List.replicate (k * bs.toNat) (0 : UInt8)).length ≤
      (zeroImage bs k h).bytes.length := by
    rw [hlen, List.length_replicate, UInt64.toNat_zero, Nat.zero_mul, Nat.zero_add]
  obtain ⟨self', hread, -⟩ :=
    @FileBlockDevice.readBlocks_inside build (zeroImage bs k h) 0 _ hbs rfl (by simp) (.inr hin)
  exact ⟨_, .read List.length_replicate hread, cast_then_divide hk List.length_replicate⟩

end Count

/-- The memory device always counts right. The file device counts right
exactly the transfers of less than 4 GiB: each count it returns is `k` if and
only if the `k` blocks are fewer bytes than that. -/
theorem block_counts_iff (build : Build) {k : ℕ} (hk : k < 2 ^ 32) :
    (∀ self : MemoryBlockDevice, CountsBlocks build self k) ∧
    (∀ (self : FileBlockDevice) n, Counted build self k n →
      (n.toNat = k ↔ k * self.blockSize.toNat < 2 ^ 32)) ∧
    ∀ bs : UInt32, bs ≠ 0 → k * bs.toNat ≤ isizeMax →
      ((∀ self : FileBlockDevice, self.blockSize = bs → CountsBlocks build self k) ↔
        k * bs.toNat < 2 ^ 32) := by
  refine ⟨memory_countsBlocks hk, fun _ _ h => file_counted_iff hk h, ?_⟩
  intro bs hbs hfits
  constructor
  · intro h
    obtain ⟨n, hn, -⟩ := zeroImage_counted build hbs hk hfits
    exact (file_counted_iff hk hn).mp (h _ rfl n hn)
  · rintro h self rfl n hn
    exact (file_counted_iff hk hn).mpr h

theorem block_counts_iff_sample :
    CountsBlocks .checked sampleMemory 2 ∧ CountsBlocks .wrapping sampleFile 2 := by
  refine ⟨(block_counts_iff .checked (by decide)).1 sampleMemory, ?_⟩
  intro n h
  exact ((block_counts_iff .wrapping (by decide)).2.1 sampleFile n h).mpr (by decide)

/-- `create` makes that image, where the size is `k` blocks. -/
theorem create_zeroImage {size : UInt64} {bs : UInt32} {k : ℕ} (hbs : bs ≠ 0)
    (hsize : size.toNat = k * bs.toNat) (h : k * bs.toNat ≤ isizeMax) :
    FileBlockDevice.createWithBlockSize sampleHost size bs = .ok (.ok (zeroImage bs k h)) := by
  have hcount : size / bs.toUInt64 = UInt64.ofNat k := by
    have hk : k < 2 ^ 64 := by
      have := Nat.le_mul_of_pos_right k (toNat_pos hbs)
      have := size.toNat_lt
      omega
    apply UInt64.toNat_inj.mp
    rw [UInt64.toNat_div, UInt32.toNat_toUInt64, hsize, Nat.mul_div_cancel _ (toNat_pos hbs)]
    exact (by simpa using (Nat.mod_eq_of_lt hk).symm)
  have hset : size.toNat ≤ isizeMax := hsize ▸ h
  simp only [FileBlockDevice.createWithBlockSize, sampleHost, HostFile.setLen, dif_pos hset,
    FileBlockDevice.ofFile, div64_of_ne (toUInt64_ne_zero hbs), ok_bind, hcount]
  simp only [zeroImage, if_true, List.take_nil, List.length_nil, List.nil_append, Nat.sub_zero,
    hsize]
  rfl

/-- Four GiB in blocks of 4096 bytes: the read moves all of them and reports
that it moved none. -/
theorem file_counts_4GiB_as_zero :
    FileBlockDevice.createWithBlockSize sampleHost 4294967296 4096 =
        .ok (.ok (zeroImage 4096 1048576 (by decide))) ∧
      Counted .checked (zeroImage 4096 1048576 (by decide)) 1048576 0 ∧
      ¬ CountsBlocks .checked (zeroImage 4096 1048576 (by decide)) 1048576 := by
  have hfits : 1048576 * (4096 : UInt32).toNat ≤ isizeMax := by decide
  obtain ⟨n, hn, hzero⟩ := zeroImage_counted .checked (by decide) (by decide) hfits
  have hn0 : n = 0 := UInt32.toNat_inj.mp (hzero.trans (by decide))
  rw [hn0] at hn
  refine ⟨create_zeroImage (by decide) (by decide) (by decide), hn, ?_⟩
  intro h
  exact absurd (h 0 hn) (by decide)

end Ext4Lwext4.Metatheory
