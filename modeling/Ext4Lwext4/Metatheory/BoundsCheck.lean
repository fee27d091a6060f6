import Ext4Lwext4.Metatheory.BlockStore

/-! # The bounds check of the in-memory device

A transfer is checked by a product and a sum in `u64`. As long as the exact end
of its range fits in 64 bits the check is exact. Past that, an
overflow-checking build panics, and a wrapping build compares the end modulo
`2 ^ 64`, which may lie inside the data. -/

namespace Ext4Lwext4.Metatheory

open Ext4Lwext4.Framework Ext4Lwext4.Model

/-- Where a transfer ends, over the natural numbers. -/
def rangeEnd (dev : MemoryBlockDevice) (blockId : UInt64) (buf : Bytes) : ℕ :=
  blockId.toNat * dev.blockSize.toNat + buf.length

/-- A read returns: with `Ok` exactly when its range lies in the data, and
otherwise with the buffer as it was. -/
def ReadsExactly (build : Build) (dev : MemoryBlockDevice) (blockId : UInt64)
    (buf : Bytes) : Prop :=
  ∃ result out dev', dev.readBlocks build blockId buf = .ok (result, out, dev') ∧
    ((∃ n, result = .ok n) ↔ rangeEnd dev blockId buf ≤ dev.data.bytes.length) ∧
    ∀ e, result = .error e → out = buf

/-- A write returns: with `Ok` exactly when its range lies in the data, and
otherwise with the data as they were. -/
def WritesExactly (build : Build) (dev : MemoryBlockDevice) (blockId : UInt64)
    (buf : Bytes) : Prop :=
  ∃ result dev', dev.writeBlocks build blockId buf = .ok (result, dev') ∧
    ((∃ n, result = .ok n) ↔ rangeEnd dev blockId buf ≤ dev.data.bytes.length) ∧
    ∀ e, result = .error e → dev'.data = dev.data

/-- The end fits in 64 bits, or it wraps to a place past the data as well. -/
def EndIsSafe (build : Build) (dev : MemoryBlockDevice) (blockId : UInt64)
    (buf : Bytes) : Prop :=
  rangeEnd dev blockId buf < 2 ^ 64 ∨
    build = .wrapping ∧ dev.data.bytes.length < rangeEnd dev blockId buf % 2 ^ 64

/-! ## Past 64 bits -/

section Overflow

variable {dev : MemoryBlockDevice} {blockId : UInt64} {buf : Bytes}

/-- One of the two operations panics in the overflow-checking build. -/
theorem range_checked_overflow (hbuf : buf.length < 2 ^ 64)
    (hov : 2 ^ 64 ≤ rangeEnd dev blockId buf) :
    Build.checked.mul64 blockId dev.blockSize.toUInt64 = .error .panic ∨
      ∃ offset, Build.checked.mul64 blockId dev.blockSize.toUInt64 = .ok offset ∧
        Build.checked.add64 offset (len buf) = .error .panic := by
  have hlen : (len buf).toNat = buf.length := toNat_len hbuf
  have hmul : blockId.toNat * dev.blockSize.toUInt64.toNat =
      blockId.toNat * dev.blockSize.toNat := by rw [UInt32.toNat_toUInt64]
  unfold rangeEnd at hov
  by_cases hprod : blockId.toNat * dev.blockSize.toNat < 2 ^ 64
  · refine .inr ⟨_, Build.mul64_of_lt (by rw [hmul]; exact hprod), if_neg ?_⟩
    rw [hlen, hmul, UInt64.toNat_ofNat', Nat.mod_eq_of_lt hprod]
    exact Nat.not_lt.mpr hov
  · refine .inl (if_neg ?_)
    rw [hmul]
    exact hprod

/-- Neither operation fails in the wrapping build, which compares the end
modulo `2 ^ 64`. -/
theorem range_wrapping (dev : MemoryBlockDevice) (blockId : UInt64)
    (hbuf : buf.length < 2 ^ 64) :
    ∃ offset stop, Build.wrapping.mul64 blockId dev.blockSize.toUInt64 = .ok offset ∧
      Build.wrapping.add64 offset (len buf) = .ok stop ∧
      stop.toNat = rangeEnd dev blockId buf % 2 ^ 64 := by
  refine ⟨_, _, rfl, rfl, ?_⟩
  rw [UInt64.toNat_ofNat', UInt64.toNat_ofNat', toNat_len hbuf, UInt32.toNat_toUInt64,
    Nat.mod_add_mod, rangeEnd]

/-- No range that ends past 64 bits lies in the data. -/
theorem not_rangeEnd_le (hov : 2 ^ 64 ≤ rangeEnd dev blockId buf) :
    ¬ rangeEnd dev blockId buf ≤ dev.data.bytes.length := by
  have hfits := dev.data.length_lt
  omega

end Overflow

/-! ## The two calls -/

section Calls

variable {σ : Type} {build : Build} {dev : MemoryBlockDevice} {blockId : UInt64} {buf : Bytes}

/-- How both calls begin: the range is computed, and refused where it ends
behind the data. -/
def rangeCall (build : Build) (dev : MemoryBlockDevice) (blockId : UInt64) (buf : Bytes)
    (refused : σ) (inside : UInt64 → UInt64 → Outcome σ) : Outcome σ := do
  let offset ← build.mul64 blockId dev.blockSize.toUInt64
  let stop ← build.add64 offset (len buf)
  if stop.toNat > dev.data.bytes.length then .ok refused else inside offset stop

/-- The call returns, with an answer exactly when the range lies in the data,
and otherwise with things as they were. -/
def Exactly (dev : MemoryBlockDevice) (blockId : UInt64) (buf : Bytes) (answered same : σ → Prop)
    (call : Outcome σ) : Prop :=
  ∃ r, call = .ok r ∧ (answered r ↔ rangeEnd dev blockId buf ≤ dev.data.bytes.length) ∧
    (¬ answered r → same r)

variable {refused : σ} {inside : UInt64 → UInt64 → Outcome σ} {answered same : σ → Prop}

theorem rangeCall_checked_overflow (hbuf : buf.length < 2 ^ 64)
    (hov : 2 ^ 64 ≤ rangeEnd dev blockId buf) :
    rangeCall .checked dev blockId buf refused inside = .error .panic := by
  rcases range_checked_overflow hbuf hov with h | ⟨offset, h, h'⟩
  · rw [rangeCall, h, error_bind]
  · rw [rangeCall, h, ok_bind, h', error_bind]

/-- The check compares what the build computes of the end. -/
theorem rangeCall_of_ok {offset stop : UInt64}
    (hmul : build.mul64 blockId dev.blockSize.toUInt64 = .ok offset)
    (hadd : build.add64 offset (len buf) = .ok stop) :
    rangeCall build dev blockId buf refused inside =
      if dev.data.bytes.length < stop.toNat then .ok refused else inside offset stop := by
  rw [rangeCall, hmul, ok_bind, hadd, ok_bind]

/-- A call that begins so, answers from there on and never refuses otherwise
is exact for the transfers whose end is safe. -/
theorem rangeCall_exactly_iff (hbuf : buf.length < 2 ^ 64) (hrefused : ¬ answered refused)
    (hsame : same refused) (hinside : ∀ offset stop r, inside offset stop = .ok r → answered r)
    (hfits : rangeEnd dev blockId buf ≤ dev.data.bytes.length →
      ∃ r, rangeCall build dev blockId buf refused inside = .ok r ∧ answered r) :
    Exactly dev blockId buf answered same (rangeCall build dev blockId buf refused inside) ↔
      EndIsSafe build dev blockId buf := by
  have hrefuses : rangeCall build dev blockId buf refused inside = .ok refused →
      ¬ rangeEnd dev blockId buf ≤ dev.data.bytes.length →
      Exactly dev blockId buf answered same (rangeCall build dev blockId buf refused inside) :=
    fun h hout => ⟨refused, h, iff_of_false hrefused hout, fun _ => hsame⟩
  by_cases hlt : rangeEnd dev blockId buf < 2 ^ 64
  · refine iff_of_true ?_ (.inl hlt)
    by_cases hin : rangeEnd dev blockId buf ≤ dev.data.bytes.length
    · obtain ⟨r, hr, hanswered⟩ := hfits hin
      exact ⟨r, hr, iff_of_true hanswered hin, fun h => absurd hanswered h⟩
    · obtain ⟨offset, stop, hmul, hadd, -, hstop⟩ :=
        MemoryBlockDevice.range_arith build blockId dev.blockSize buf hlt
      refine hrefuses ?_ hin
      rw [rangeCall_of_ok hmul hadd, if_pos]
      rw [hstop]
      exact Nat.lt_of_not_le hin
  · have hov := Nat.le_of_not_lt hlt
    cases build with
    | checked =>
        refine iff_of_false ?_ ?_
        · rintro ⟨r, hr, -⟩
          cases (rangeCall_checked_overflow hbuf hov).symm.trans hr
        · rintro (h | ⟨h, -⟩)
          · exact hlt h
          · cases h
    | wrapping =>
        obtain ⟨offset, stop, hmul, hadd, hstop⟩ := range_wrapping dev blockId hbuf
        constructor
        · rintro ⟨r, hr, hiff, -⟩
          refine .inr ⟨rfl, ?_⟩
          -- past the check there would be an answer, for a range that is not in the data
          by_contra hle
          rw [rangeCall_of_ok hmul hadd, hstop, if_neg hle] at hr
          exact not_rangeEnd_le hov (hiff.mp (hinside _ _ _ hr))
        · rintro (h | ⟨-, h⟩)
          · exact absurd h hlt
          · refine hrefuses ?_ (not_rangeEnd_le hov)
            rw [rangeCall_of_ok hmul hadd, hstop, if_pos h]

theorem not_ok_iff {result : Except Error UInt32} :
    (¬ ∃ n, result = .ok n) ↔ ∃ e, result = .error e := by
  cases result <;> simp

theorem readsExactly_iff : ReadsExactly build dev blockId buf ↔
    Exactly dev blockId buf (fun r => ∃ n, r.1 = .ok n) (fun r => r.2.1 = buf)
      (dev.readBlocks build blockId buf) := by
  simp only [ReadsExactly, Exactly, Prod.exists, not_ok_iff, forall_exists_index]

theorem writesExactly_iff : WritesExactly build dev blockId buf ↔
    Exactly dev blockId buf (fun r => ∃ n, r.1 = .ok n) (fun r => r.2.data = dev.data)
      (dev.writeBlocks build blockId buf) := by
  simp only [WritesExactly, Exactly, Prod.exists, not_ok_iff, forall_exists_index]

end Calls

/-- The check of a device that a constructor built is exact for just the
transfers whose end is safe. -/
theorem bounds_check_exact_iff {build : Build} {dev : MemoryBlockDevice}
    (hbuilt : dev.Built build) (blockId : UInt64) {buf : Bytes} (hbuf : buf.length < 2 ^ 64) :
    (ReadsExactly build dev blockId buf ↔ EndIsSafe build dev blockId buf) ∧
      (WritesExactly build dev blockId buf ↔ EndIsSafe build dev blockId buf) := by
  have hpos := hbuilt.geometry.pos
  rw [readsExactly_iff, writesExactly_iff]
  constructor
  · refine rangeCall_exactly_iff hbuf (by rintro ⟨n, ⟨⟩⟩) rfl ?_ fun hin =>
      ⟨_, MemoryBlockDevice.readBlocks_inside build hpos hin, _, rfl⟩
    intro offset stop r hr
    obtain ⟨src, -, hr⟩ := bind_eq_ok.mp hr
    obtain ⟨out, -, hr⟩ := bind_eq_ok.mp hr
    obtain ⟨count, -, hr⟩ := bind_eq_ok.mp hr
    cases hr
    exact ⟨_, rfl⟩
  · refine rangeCall_exactly_iff hbuf (by rintro ⟨n, ⟨⟩⟩) rfl ?_ fun hin => ?_
    · intro offset stop r hr
      obtain ⟨data, -, hr⟩ := bind_eq_ok.mp hr
      obtain ⟨count, -, hr⟩ := bind_eq_ok.mp hr
      cases hr
      exact ⟨_, rfl⟩
    · obtain ⟨data, -, hwrite⟩ := MemoryBlockDevice.writeBlocks_inside build hpos hin
      exact ⟨_, hwrite, _, rfl⟩

theorem bounds_check_exact_iff_sample :
    (ReadsExactly .checked sampleMemory 1 [0, 0] ↔ EndIsSafe .checked sampleMemory 1 [0, 0]) ∧
      (WritesExactly .checked sampleMemory 1 [0, 0] ↔ EndIsSafe .checked sampleMemory 1 [0, 0]) :=
  bounds_check_exact_iff (@MemoryBlockDevice.Built.new _ 5 2 _ rfl) 1 (by decide)

/-- Block `2 ^ 63` of a four-byte device with blocks of two bytes: the
wrapping build reads and overwrites block `0`, the overflow-checking build panics. -/
theorem far_block_not_rejected :
    sampleMemory.Built .wrapping ∧ sampleMemory.Built .checked ∧
    sampleMemory.writeBlocks .wrapping 0x8000000000000000 [1, 2] =
      .ok (.ok 1, ⟨⟨[1, 2, 0, 0], by decide⟩, 2, 2⟩) ∧
    sampleMemory.readBlocks .checked 0x8000000000000000 [1, 2] = .error .panic ∧
    ¬ (ReadsExactly .wrapping sampleMemory 0x8000000000000000 [1, 2] ∧
      WritesExactly .wrapping sampleMemory 0x8000000000000000 [1, 2]) := by
  have hwrite : sampleMemory.writeBlocks .wrapping 0x8000000000000000 [1, 2] =
      .ok (.ok 1, ⟨⟨[1, 2, 0, 0], by decide⟩, 2, 2⟩) := by decide +kernel
  refine ⟨@MemoryBlockDevice.Built.new _ 5 2 _ rfl, @MemoryBlockDevice.Built.new _ 5 2 _ rfl,
    hwrite, by decide +kernel, ?_⟩
  rintro ⟨-, result, dev', hwrite', hiff, -⟩
  cases hwrite.symm.trans hwrite'
  exact absurd (hiff.mp ⟨_, rfl⟩) (by decide)

end Ext4Lwext4.Metatheory
