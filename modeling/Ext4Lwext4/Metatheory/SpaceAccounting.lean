import Ext4Lwext4.Metatheory.Teardown

/-! # Space in bytes

`stat` copies the counts of blocks as lwext4 reports them, and lwext4 reports
what is in the superblock. `FsStats` multiplies and subtracts them in `u64`. -/

namespace Ext4Lwext4.Metatheory

open Ext4Lwext4.Framework Ext4Lwext4.Model

/-! ## What `stat` copies -/

/-- The record made of a reply of lwext4. -/
def recordOf (stats : Ext4MountStats) : FsStats where
  blockSize := stats.blockSize
  totalBlocks := stats.blocksCount
  freeBlocks := stats.freeBlocksCount
  totalInodes := stats.inodesCount.toUInt64
  freeInodes := stats.freeInodesCount.toUInt64
  blockGroupCount := stats.blockGroupCount
  blocksPerGroup := stats.blocksPerGroup
  inodesPerGroup := stats.inodesPerGroup
  volumeName := Ext4Fs.volumeNameOf stats

section Stat

variable {E : Environment Call Reply} {s t : E.State} {tr : List SysEvent} {fs : Ext4Fs}

/-- `stat` makes one call and looks at nothing but its code. -/
theorem stat_exec {o : Outcome (Except Error FsStats)} (h : Exec E fs.stat.run s tr o t) :
    ∃ code stats, tr = [⟨.ext4MountPointStats fs.mountPoint .default, (code, stats)⟩] ∧
      E.step s (.ext4MountPointStats fs.mountPoint .default) (code, stats) t ∧
      o = .ok ((checkErrno code).map fun _ => recordOf stats) := by
  obtain ⟨⟨code, stats⟩, u, tr, rfl, hstep, h⟩ := exec_run_request_bind h
  simp only [run_except_bind] at h
  cases hcheck : checkErrno code with
  | ok _ =>
      rw [hcheck] at h
      obtain ⟨rfl, rfl, rfl⟩ := exec_run_ok h
      refine ⟨code, stats, rfl, hstep, ?_⟩
      rw [hcheck]
      rfl
  | error e =>
      rw [hcheck] at h
      obtain ⟨rfl, rfl, rfl⟩ := Exec.done_iff.mp h
      refine ⟨code, stats, rfl, hstep, ?_⟩
      rw [hcheck]
      rfl

theorem stat_run {stats : Ext4MountStats}
    (hstep : E.step s (.ext4MountPointStats fs.mountPoint .default) ((0 : Int32), stats) t) :
    Exec E fs.stat.run s [⟨.ext4MountPointStats fs.mountPoint .default, ((0 : Int32), stats)⟩]
      (.ok (.ok (recordOf stats))) t := by
  refine .call hstep ?_
  show Exec _ (ExceptT.run (liftM (checkErrno 0) >>= _)) _ _ _ _
  rw [run_except_bind, checkErrno_zero]
  exact .done _ _

/-- Some run of `stat` on which lwext4 reports `stats` returns the record. -/
def Copies (fs : Ext4Fs) (stats : Ext4MountStats) (record : FsStats) : Prop :=
  ∃ (E : Environment Call Reply) (s t : E.State) (code : Int32),
    Exec E fs.stat.run s [⟨.ext4MountPointStats fs.mountPoint .default, (code, stats)⟩]
      (.ok (.ok record)) t

theorem copies_iff {stats : Ext4MountStats} {record : FsStats} :
    Copies fs stats record ↔ record = recordOf stats := by
  constructor
  · rintro ⟨E, s, t, code, h⟩
    obtain ⟨code', stats', htr, -, ho⟩ := stat_exec h
    cases htr
    cases hcheck : checkErrno code with
    | ok _ =>
        rw [hcheck] at ho
        cases ho
        rfl
    | error e =>
        rw [hcheck] at ho
        cases ho
  · rintro rfl
    exact ⟨.chaos Call Reply, (), (), 0, stat_run trivial⟩

end Stat

/-! ## The three sizes -/

/-- In both builds the three sizes are computed, each is the exact number of
bytes, and what is free and what is used make up the whole. -/
def AccountsSpace (self : FsStats) : Prop :=
  ∀ build, ∃ total free used, self.totalSize build = .ok total ∧
    self.freeSize build = .ok free ∧ self.usedSize build = .ok used ∧
    total.toNat = self.totalBlocks.toNat * self.blockSize.toNat ∧
    free.toNat = self.freeBlocks.toNat * self.blockSize.toNat ∧
    free.toNat + used.toNat = total.toNat ∧ free ≤ total ∧ used ≤ total

/-- What the superblock must satisfy: no more blocks free than there are, and
all of them together counted in 64 bits. -/
def SaneCounts (totalBlocks freeBlocks : UInt64) (blockSize : UInt32) : Prop :=
  freeBlocks ≤ totalBlocks ∧ totalBlocks.toNat * blockSize.toNat < 2 ^ 64

section Sizes

variable {self : FsStats}

/-- A part of the blocks is a part of the bytes. -/
theorem accountsSpace_of_sane
    (h : SaneCounts self.totalBlocks self.freeBlocks self.blockSize) : AccountsSpace self := by
  obtain ⟨hle, hfits⟩ := h
  intro build
  have hfree : self.freeBlocks.toNat ≤ self.totalBlocks.toNat := UInt64.le_iff_toNat_le.mp hle
  have hsub : (self.totalBlocks - self.freeBlocks).toNat =
      self.totalBlocks.toNat - self.freeBlocks.toNat := UInt64.toNat_sub_of_le _ _ hle
  have hsum : self.freeBlocks.toNat * self.blockSize.toNat +
      (self.totalBlocks.toNat - self.freeBlocks.toNat) * self.blockSize.toNat =
      self.totalBlocks.toNat * self.blockSize.toNat := by
    rw [← Nat.add_mul, Nat.add_sub_cancel' hfree]
  obtain ⟨total, htotal, htotalNat⟩ := build.mul64_exact hfits
  have hfreeFits : self.freeBlocks.toNat * self.blockSize.toNat < 2 ^ 64 := by omega
  have husedFits : (self.totalBlocks - self.freeBlocks).toNat * self.blockSize.toNat < 2 ^ 64 := by
    rw [hsub]
    omega
  obtain ⟨free, hfreeSize, hfreeNat⟩ := build.mul64_exact hfreeFits
  obtain ⟨used, hused, husedNat⟩ := build.mul64_exact husedFits
  rw [hsub] at husedNat
  refine ⟨total, free, used, htotal, hfreeSize, ?_, htotalNat, hfreeNat, ?_, ?_, ?_⟩
  · rw [FsStats.usedSize, Build.sub64_of_le hle]
    exact hused
  · omega
  · exact UInt64.le_iff_toNat_le.mpr (by omega)
  · exact UInt64.le_iff_toNat_le.mpr (by omega)

theorem accountsSpace_iff :
    AccountsSpace self ↔ SaneCounts self.totalBlocks self.freeBlocks self.blockSize := by
  refine ⟨?_, accountsSpace_of_sane⟩
  intro h
  -- the overflow-checking build tells: it computes only what fits
  obtain ⟨total, free, used, htotal, -, hused, -⟩ := h .checked
  constructor
  · obtain ⟨blocks, hsub, -⟩ := bind_eq_ok.mp hused
    by_contra hlt
    cases (if_neg hlt).symm.trans hsub
  · have hlt := (Build.arith_checked_eq_ok.mp htotal).1
    rwa [UInt32.toNat_toUInt64] at hlt

end Sizes

/-- For every reply that `stat` copies: the sizes are right exactly when the
counts are sane. -/
theorem space_accounting_iff (fs : Ext4Fs) (stats : Ext4MountStats) :
    (∃ record, Copies fs stats record) ∧
    ∀ record, Copies fs stats record →
      (AccountsSpace record ↔
        SaneCounts stats.blocksCount stats.freeBlocksCount stats.blockSize) := by
  refine ⟨⟨_, copies_iff.mpr rfl⟩, ?_⟩
  intro record h
  rw [copies_iff.mp h]
  exact accountsSpace_iff

/-- The superblock of a damaged image, with more blocks free than there are. -/
def damagedStats : Ext4MountStats :=
  { Ext4MountStats.default with blockSize := 1024, blocksCount := 10, freeBlocksCount := 11 }

/-- One build panics on it, the other reports almost all of 16 EiB as used. -/
theorem damaged_used_size :
    ∃ record, Copies sampleFs damagedStats record ∧
      record.usedSize .checked = .error .panic ∧
      record.usedSize .wrapping = .ok 18446744073709550592 ∧ ¬ AccountsSpace record := by
  refine ⟨recordOf damagedStats, copies_iff.mpr rfl, rfl, rfl, ?_⟩
  intro h
  exact absurd (accountsSpace_iff.mp h).1 (by decide)

end Ext4Lwext4.Metatheory
