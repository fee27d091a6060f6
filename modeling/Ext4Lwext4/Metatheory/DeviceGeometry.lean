import Ext4Lwext4.Model.BlockDeviceWrapper
import Ext4Lwext4.Metatheory.BlockStore

/-! # How many blocks a device has

Every constructor divides the bytes it is given into whole blocks and forgets
the remainder, and nothing a caller can do to the device changes the number. So
the product of the two is the same wherever the crate computes it: it never
overflows, and it never says more than the backing store holds. -/

namespace Ext4Lwext4.Metatheory

open Ext4Lwext4.Framework Ext4Lwext4.Model

/-! ## Whole blocks -/

/-- As many whole blocks as `size` bytes hold. -/
structure WholeBlocks (size : ℕ) (blockSize : UInt32) (blockCount : UInt64) : Prop where
  pos : blockSize ≠ 0
  noOverflow : blockCount.toNat * blockSize.toNat < 2 ^ 64
  le : blockCount.toNat * blockSize.toNat ≤ size
  gt : size < blockCount.toNat * blockSize.toNat + blockSize.toNat

/-- The division every constructor makes. -/
theorem div64_wholeBlocks {size blockCount : UInt64} {blockSize : UInt32}
    (h : div64 size blockSize.toUInt64 = .ok blockCount) :
    WholeBlocks size.toNat blockSize blockCount := by
  obtain ⟨hne, rfl⟩ := div64_eq_ok.mp h
  have hpos : blockSize ≠ 0 := by
    rintro rfl
    exact hne rfl
  have hcount : (size / blockSize.toUInt64).toNat = size.toNat / blockSize.toNat := by
    rw [UInt64.toNat_div, UInt32.toNat_toUInt64]
  have hle : size.toNat / blockSize.toNat * blockSize.toNat ≤ size.toNat :=
    Nat.div_mul_le_self _ _
  have hgt : size.toNat < size.toNat / blockSize.toNat * blockSize.toNat + blockSize.toNat :=
    Nat.lt_div_mul_add (toNat_pos hpos)
  refine ⟨hpos, ?_, ?_, ?_⟩
  · rw [hcount]
    exact hle.trans_lt size.toNat_lt
  · rw [hcount]
    exact hle
  · rw [hcount]
    exact hgt

/-- What the crate computes from the two numbers, and the bytes behind it: the
total size and the size of the partition are the product, exactly. -/
structure SizesExact {D : Type} [BlockDevice D] (build : Build) (dev : D) (store : ℕ) : Prop where
  totalSize : ∃ total, BlockDevice.totalSize build dev = .ok total ∧
    total.toNat = (BlockDevice.blockCount dev).toNat * (BlockDevice.blockSize dev).toNat
  partSize : ∃ wrapper, BlockDeviceWrapper.new build dev = .ok wrapper ∧
    wrapper.device = dev ∧
    wrapper.bdev.partSize.toNat =
      (BlockDevice.blockCount dev).toNat * (BlockDevice.blockSize dev).toNat
  le : (BlockDevice.blockCount dev).toNat * (BlockDevice.blockSize dev).toNat ≤ store

section Sizes

variable {D : Type} [BlockDevice D] {build : Build} {self : D} {store : ℕ}

/-- A block is at most 4 GiB, which one allocation can hold. -/
theorem zeroed_block (blockSize : UInt32) :
    ∃ buffer, ByteVec.zeroed blockSize.toUInt64 = .ok buffer := by
  have hfits : blockSize.toUInt64.toNat ≤ isizeMax := by
    have := blockSize.toNat_lt
    rw [UInt32.toNat_toUInt64, isizeMax]
    omega
  exact ⟨_, dif_pos hfits⟩

theorem sizesExact (hstore : store < 2 ^ 64)
    (h : (BlockDevice.blockCount self).toNat * (BlockDevice.blockSize self).toNat ≤ store) :
    SizesExact build self store := by
  obtain ⟨total, hmul, htotal⟩ := build.mul64_exact (h.trans_lt hstore)
  obtain ⟨buffer, hbuffer⟩ := zeroed_block (BlockDevice.blockSize self)
  refine ⟨⟨total, hmul, htotal⟩, ?_, h⟩
  simp only [BlockDeviceWrapper.new, hbuffer, hmul, ok_bind]
  exact ⟨_, rfl, rfl, htotal⟩

end Sizes

/-! ## What can be done to a device -/

/-- The methods of the trait that take the device and may leave it another. -/
inductive DeviceOp
  | readBlocks (blockId : UInt64) (buf : Bytes)
  | writeBlocks (blockId : UInt64) (buf : Bytes)
  | flush
  | openDevice
  | closeDevice

/-- The device a call leaves, whatever it returns. Where a call of the two
devices panics it has changed nothing. -/
def DeviceOp.apply {D : Type} [BlockDevice D] (build : Build) (self : D) : DeviceOp → D
  | .readBlocks blockId buf =>
      match BlockDevice.readBlocks build self blockId buf with
      | .ok (_, _, self) => self
      | .error _ => self
  | .writeBlocks blockId buf =>
      match BlockDevice.writeBlocks build self blockId buf with
      | .ok (_, self) => self
      | .error _ => self
  | .flush =>
      match BlockDevice.flush self with
      | .ok (_, self) => self
      | .error _ => self
  | .openDevice =>
      match BlockDevice.openDevice self with
      | .ok (_, self) => self
      | .error _ => self
  | .closeDevice =>
      match BlockDevice.closeDevice self with
      | .ok (_, self) => self
      | .error _ => self

/-- What can be done to a memory device: its slice can be written as well. -/
inductive MemoryOp
  | device (op : DeviceOp)
  | asMutSlice (i : ℕ) (byte : UInt8)

def MemoryOp.apply (build : Build) (self : MemoryBlockDevice) : MemoryOp → MemoryBlockDevice
  | .device op => op.apply build self
  | .asMutSlice i byte =>
      match self.asMutSliceSet i byte with
      | .ok self => self
      | .error _ => self

/-- `self` after the operations, one after another. -/
def runMemory (build : Build) (self : MemoryBlockDevice) (ops : List MemoryOp) :
    MemoryBlockDevice :=
  ops.foldl (MemoryOp.apply build) self

def runFile (build : Build) (self : FileBlockDevice) (ops : List DeviceOp) : FileBlockDevice :=
  ops.foldl (DeviceOp.apply build) self

/-! ## What stays -/

section Memory

variable {build : Build} {self self' : MemoryBlockDevice}

/-- Whatever has been written, it is as many bytes in as many blocks. -/
structure SameExtent (dev dev' : MemoryBlockDevice) : Prop where
  blockSize : dev'.blockSize = dev.blockSize
  blockCount : dev'.blockCount = dev.blockCount
  length : dev'.data.bytes.length = dev.data.bytes.length

theorem SameExtent.refl (self : MemoryBlockDevice) : SameExtent self self := ⟨rfl, rfl, rfl⟩

theorem SameExtent.trans {self'' : MemoryBlockDevice} (h : SameExtent self self')
    (h' : SameExtent self' self'') : SameExtent self self'' where
  blockSize := h'.blockSize.trans h.blockSize
  blockCount := h'.blockCount.trans h.blockCount
  length := h'.length.trans h.length

theorem writeBlocks_sameExtent {blockId : UInt64} {buf : Bytes} {result : Except Error UInt32}
    (h : self.writeBlocks build blockId buf = .ok (result, self')) : SameExtent self self' := by
  rcases MemoryBlockDevice.writeBlocks_cases h with ⟨-, rfl⟩ | ⟨_, _, _, _, hcopy, -, -, rfl⟩
  · exact .refl _
  · exact ⟨rfl, rfl, ByteVec.length_copyInto hcopy⟩

theorem asMutSliceSet_sameExtent {i : ℕ} {byte : UInt8}
    (h : self.asMutSliceSet i byte = .ok self') : SameExtent self self' := by
  unfold MemoryBlockDevice.asMutSliceSet at h
  split at h
  · cases h
    exact ⟨rfl, rfl, List.length_set⟩
  · cases h

theorem memoryOp_sameExtent (build : Build) (self : MemoryBlockDevice) (op : MemoryOp) :
    SameExtent self (op.apply build self) := by
  cases op with
  | device op =>
      cases op with
      | readBlocks blockId buf =>
          simp only [MemoryOp.apply, DeviceOp.apply]
          split
          · rename_i hread
            rw [MemoryBlockDevice.readBlocks_self hread]
            exact .refl self
          · exact .refl self
      | writeBlocks blockId buf =>
          simp only [MemoryOp.apply, DeviceOp.apply]
          split
          · rename_i hwrite
            exact writeBlocks_sameExtent hwrite
          · exact .refl self
      | flush => exact .refl self
      | openDevice => exact .refl self
      | closeDevice => exact .refl self
  | asMutSlice i byte =>
      simp only [MemoryOp.apply]
      split
      · rename_i hset
        exact asMutSliceSet_sameExtent hset
      · exact .refl self

theorem runMemory_sameExtent (build : Build) (self : MemoryBlockDevice) (ops : List MemoryOp) :
    SameExtent self (runMemory build self ops) := by
  induction ops generalizing self with
  | nil => exact .refl self
  | cons op ops ih => exact (memoryOp_sameExtent build self op).trans (ih (op.apply build self))

end Memory

section File

variable {build : Build} {self self' : FileBlockDevice}

/-- The file may have grown; the blocks are as many. -/
structure SameBlocks (dev dev' : FileBlockDevice) : Prop where
  blockSize : dev'.blockSize = dev.blockSize
  blockCount : dev'.blockCount = dev.blockCount
  poisoned : dev'.file.poisoned = dev.file.poisoned
  length : dev.bytes.length ≤ dev'.bytes.length

theorem SameBlocks.refl (self : FileBlockDevice) : SameBlocks self self := ⟨rfl, rfl, rfl, le_rfl⟩

theorem SameBlocks.trans {self'' : FileBlockDevice} (h : SameBlocks self self')
    (h' : SameBlocks self' self'') : SameBlocks self self'' where
  blockSize := h'.blockSize.trans h.blockSize
  blockCount := h'.blockCount.trans h.blockCount
  poisoned := h'.poisoned.trans h.poisoned
  length := h.length.trans h'.length

/-- A file that is no shorter than the one the mutex held. -/
theorem setFile_sameBlocks {file : HostFile} (h : self.bytes.length ≤ file.bytes.length) :
    SameBlocks self (self.setFile file) := ⟨rfl, rfl, rfl, h⟩

theorem writeAll_length {file file' : HostFile} {buf : Bytes} {result : Except IoError Unit}
    (h : file.writeAll buf = (result, file')) : file.bytes.length ≤ file'.bytes.length := by
  unfold HostFile.writeAll at h
  split at h
  · cases h
    exact le_rfl
  · split at h
    · split at h
      · cases h
        show _ ≤ (overlayGrow 0 file.bytes file.cursor buf).length
        rw [length_overlayGrow]
        exact Nat.le_max_left _ _
      · cases h
        exact le_rfl
    · cases h
      exact le_rfl

theorem readExact_bytes {file file' : HostFile} {buf out : Bytes} {result : Except IoError Unit}
    (h : file.readExact buf = (result, out, file')) : file'.bytes = file.bytes := by
  cases h
  rfl

theorem seekStart_bytes {file file' : HostFile} {offset : UInt64}
    (h : file.seekStart offset = .ok file') : file'.bytes = file.bytes := by
  unfold HostFile.seekStart at h
  split at h
  · cases h
    rfl
  · cases h

/-- A read moves the cursor only. -/
theorem file_readBlocks_sameBlocks {blockId : UInt64} {buf out : Bytes}
    {result : Except Error UInt32}
    (h : self.readBlocks build blockId buf = .ok (result, out, self')) : SameBlocks self self' := by
  obtain ⟨_, -, ⟨-, rfl⟩ | ⟨_, file, _, file', hseek, hread, rfl, -⟩⟩ :=
    FileBlockDevice.readBlocks_cases h
  · exact .refl _
  · have hbytes : file'.bytes = self.bytes := (readExact_bytes hread).trans (seekStart_bytes hseek)
    exact setFile_sameBlocks (hbytes ▸ le_rfl)

theorem file_writeBlocks_sameBlocks {blockId : UInt64} {buf : Bytes}
    {result : Except Error UInt32}
    (h : self.writeBlocks build blockId buf = .ok (result, self')) : SameBlocks self self' := by
  obtain ⟨_, -, ⟨-, rfl⟩ | ⟨_, file, _, file', hseek, hwrite, rfl, -⟩⟩ :=
    FileBlockDevice.writeBlocks_cases h
  · exact .refl _
  · have hbytes : file.bytes = self.bytes := seekStart_bytes hseek
    exact setFile_sameBlocks (hbytes ▸ writeAll_length hwrite)

theorem flush_sameBlocks {result : Except Error Unit}
    (h : self.flush = .ok (result, self')) : SameBlocks self self' := by
  unfold FileBlockDevice.flush at h
  split at h
  · cases h
    exact .refl self
  · cases h
    exact .refl self

theorem deviceOp_sameBlocks (build : Build) (self : FileBlockDevice) (op : DeviceOp) :
    SameBlocks self (op.apply build self) := by
  cases op with
  | readBlocks blockId buf =>
      simp only [DeviceOp.apply]
      split
      · rename_i hread
        exact file_readBlocks_sameBlocks hread
      · exact .refl self
  | writeBlocks blockId buf =>
      simp only [DeviceOp.apply]
      split
      · rename_i hwrite
        exact file_writeBlocks_sameBlocks hwrite
      · exact .refl self
  | flush =>
      simp only [DeviceOp.apply]
      split
      · rename_i hflush
        exact flush_sameBlocks hflush
      · exact .refl self
  | openDevice => exact .refl self
  | closeDevice => exact .refl self

theorem runFile_sameBlocks (build : Build) (self : FileBlockDevice) (ops : List DeviceOp) :
    SameBlocks self (runFile build self ops) := by
  induction ops generalizing self with
  | nil => exact .refl self
  | cons op ops ih => exact (deviceOp_sameBlocks build self op).trans (ih (op.apply build self))

end File

/-! ## The constructors -/

/-- A memory device that a constructor made from `size` bytes. -/
inductive MemoryMade (build : Build) : ℕ → UInt32 → MemoryBlockDevice → Prop
  | new {size : UInt64} {blockSize : UInt32} {self : MemoryBlockDevice} :
      MemoryBlockDevice.new build size blockSize = .ok self →
      MemoryMade build size.toNat blockSize self
  | withSize {size : UInt64} {self : MemoryBlockDevice} :
      MemoryBlockDevice.withSize build size = .ok self → MemoryMade build size.toNat 512 self
  | fromVec {data : ByteVec} {blockSize : UInt32} {self : MemoryBlockDevice} :
      MemoryBlockDevice.fromVec data blockSize = .ok self →
      MemoryMade build data.bytes.length blockSize self

/-- A file device that a constructor made from `size` bytes: those asked of
`create`, and those that are there when an image is opened. -/
inductive FileMade (host : Host) : ℕ → UInt32 → FileBlockDevice → Prop
  | create {size : UInt64} {self : FileBlockDevice} :
      FileBlockDevice.create host size = .ok (.ok self) → FileMade host size.toNat 512 self
  | createWithBlockSize {size : UInt64} {blockSize : UInt32} {self : FileBlockDevice} :
      FileBlockDevice.createWithBlockSize host size blockSize = .ok (.ok self) →
      FileMade host size.toNat blockSize self
  | openPath {self : FileBlockDevice} {file : HostFile} :
      host.openFile { read := true, write := true } = .ok file →
      FileBlockDevice.openPath host = .ok (.ok self) → FileMade host file.bytes.length 512 self
  | openWithBlockSize {blockSize : UInt32} {self : FileBlockDevice} {file : HostFile} :
      host.openFile { read := true, write := true } = .ok file →
      FileBlockDevice.openWithBlockSize host blockSize = .ok (.ok self) →
      FileMade host file.bytes.length blockSize self
  | openReadOnly {self : FileBlockDevice} {file : HostFile} :
      host.openFile { read := true } = .ok file →
      FileBlockDevice.openReadOnly host = .ok (.ok self) → FileMade host file.bytes.length 512 self
  | openReadOnlyWithBlockSize {blockSize : UInt32} {self : FileBlockDevice} {file : HostFile} :
      host.openFile { read := true } = .ok file →
      FileBlockDevice.openReadOnlyWithBlockSize host blockSize = .ok (.ok self) →
      FileMade host file.bytes.length blockSize self

section Constructors

variable {build : Build} {host : Host} {size : ℕ} {blockSize : UInt32}

theorem new_wholeBlocks {size : UInt64} {self : MemoryBlockDevice}
    (h : MemoryBlockDevice.new build size blockSize = .ok self) :
    self.blockSize = blockSize ∧ WholeBlocks size.toNat blockSize self.blockCount := by
  obtain ⟨blockCount, hcount, h⟩ := bind_eq_ok.mp h
  obtain ⟨actualSize, -, h⟩ := bind_eq_ok.mp h
  obtain ⟨data, -, h⟩ := bind_eq_ok.mp h
  cases h
  exact ⟨rfl, div64_wholeBlocks hcount⟩

theorem fromVec_wholeBlocks {data : ByteVec} {self : MemoryBlockDevice}
    (h : MemoryBlockDevice.fromVec data blockSize = .ok self) :
    self.blockSize = blockSize ∧ WholeBlocks data.bytes.length blockSize self.blockCount := by
  obtain ⟨excess, -, h⟩ := bind_eq_ok.mp h
  split at h
  · obtain ⟨blockCount, hcount, h⟩ := bind_eq_ok.mp h
    cases h
    have hlen : (len data.bytes).toNat = data.bytes.length :=
      toNat_len (Nat.lt_trans data.length_lt (by decide))
    exact ⟨rfl, hlen ▸ div64_wholeBlocks hcount⟩
  · cases h

theorem MemoryMade.wholeBlocks {self : MemoryBlockDevice}
    (h : MemoryMade build size blockSize self) :
    self.blockSize = blockSize ∧ WholeBlocks size blockSize self.blockCount := by
  cases h with
  | new h => exact new_wholeBlocks h
  | withSize h => exact new_wholeBlocks h
  | fromVec h => exact fromVec_wholeBlocks h

theorem MemoryMade.geometry {self : MemoryBlockDevice}
    (h : MemoryMade build size blockSize self) : self.Geometry := by
  cases h with
  | new h => exact MemoryBlockDevice.new_geometry h
  | withSize h => exact MemoryBlockDevice.new_geometry h
  | fromVec h => exact MemoryBlockDevice.fromVec_geometry h

/-- A file device as the constructors leave it. -/
structure Fresh (size : ℕ) (bs : UInt32) (dev : FileBlockDevice) : Prop where
  blockSize : dev.blockSize = bs
  length : dev.bytes.length = size
  unpoisoned : dev.file.poisoned = false
  blocks : WholeBlocks size bs dev.blockCount

/-- Where the size is the length of the file, the device has the file's whole
blocks. -/
theorem ofFile_fresh {file : HostFile} {size : UInt64} {self : FileBlockDevice}
    (h : FileBlockDevice.ofFile file size blockSize = .ok (.ok self))
    (hsize : size.toNat = file.bytes.length) : Fresh size.toNat blockSize self := by
  obtain ⟨blockCount, hcount, h⟩ := bind_eq_ok.mp h
  cases h
  exact ⟨rfl, hsize.symm, rfl, div64_wholeBlocks hcount⟩

theorem setLen_length {file file' : HostFile} {size : UInt64}
    (h : file.setLen size = .ok file') : size.toNat = file'.bytes.length := by
  unfold HostFile.setLen at h
  split at h
  · cases h
    simp only [List.length_append, List.length_take, List.length_replicate]
    omega
  · cases h

theorem createWithBlockSize_fresh {size : UInt64} {self : FileBlockDevice}
    (h : FileBlockDevice.createWithBlockSize host size blockSize = .ok (.ok self)) :
    Fresh size.toNat blockSize self := by
  unfold FileBlockDevice.createWithBlockSize at h
  split at h
  · cases h
  · split at h
    · cases h
    · rename_i hset
      exact ofFile_fresh h (setLen_length hset)

theorem openExisting_fresh {options : OpenOptions} {file : HostFile}
    {self : FileBlockDevice} (hopen : host.openFile options = .ok file)
    (h : FileBlockDevice.openExisting host options blockSize = .ok (.ok self)) :
    Fresh file.bytes.length blockSize self := by
  have hlen : (len file.bytes).toNat = file.bytes.length :=
    toNat_len (Nat.lt_trans file.length_lt (by decide))
  unfold FileBlockDevice.openExisting at h
  rw [hopen] at h
  have hfile := ofFile_fresh h hlen
  rwa [hlen] at hfile

theorem FileMade.fresh {self : FileBlockDevice} (h : FileMade host size blockSize self) :
    Fresh size blockSize self := by
  cases h with
  | create h => exact createWithBlockSize_fresh h
  | createWithBlockSize h => exact createWithBlockSize_fresh h
  | openPath hopen h => exact openExisting_fresh hopen h
  | openWithBlockSize hopen h => exact openExisting_fresh hopen h
  | openReadOnly hopen h => exact openExisting_fresh hopen h
  | openReadOnlyWithBlockSize hopen h => exact openExisting_fresh hopen h

end Constructors

/-- Every constructor gives a device the whole blocks of its `size` bytes.
Whatever is done to the device then, the number of blocks stays, the data of a
memory device are exactly the blocks and a file holds them, and the sizes
computed from the number are exact. -/
theorem devices_keep_geometry (build : Build) (size : ℕ) (blockSize : UInt32) :
    (∀ self, MemoryMade build size blockSize self → ∀ ops,
      WholeBlocks size blockSize (runMemory build self ops).blockCount ∧
      (runMemory build self ops).blockSize = blockSize ∧
      (runMemory build self ops).data.bytes.length =
        (runMemory build self ops).blockCount.toNat * blockSize.toNat ∧
      SizesExact build (runMemory build self ops)
        (runMemory build self ops).data.bytes.length) ∧
    ∀ host self, FileMade host size blockSize self → ∀ ops,
      WholeBlocks size blockSize (runFile build self ops).blockCount ∧
      (runFile build self ops).blockSize = blockSize ∧
      SizesExact build (runFile build self ops) size ∧
      SizesExact build (runFile build self ops) (runFile build self ops).bytes.length := by
  constructor
  · intro self h ops
    obtain ⟨hsize, hblocks⟩ := h.wholeBlocks
    have hsame := runMemory_sameExtent build self ops
    have hexact : (runMemory build self ops).blockCount.toNat *
        (runMemory build self ops).blockSize.toNat =
        (runMemory build self ops).data.bytes.length := by
      rw [hsame.blockCount, hsame.blockSize, hsame.length]
      exact h.geometry.exact
    have hbs : (runMemory build self ops).blockSize = blockSize := hsame.blockSize.trans hsize
    refine ⟨?_, hbs, ?_, ?_⟩
    · rw [hsame.blockCount]
      exact hblocks
    · rw [← hbs]
      exact hexact.symm
    · refine sizesExact ?_ hexact.le
      exact Nat.lt_trans (runMemory build self ops).data.length_lt (by decide)
  · intro host self h ops
    obtain ⟨hsize, hlength, -, hblocks⟩ := h.fresh
    have hsame := runFile_sameBlocks build self ops
    have hbs : (runFile build self ops).blockSize = blockSize := hsame.blockSize.trans hsize
    have hle : (runFile build self ops).blockCount.toNat *
        (runFile build self ops).blockSize.toNat ≤ size := by
      rw [hsame.blockCount, hbs]
      exact hblocks.le
    have hgrown : size ≤ (runFile build self ops).bytes.length := hlength ▸ hsame.length
    have hfile : (runFile build self ops).bytes.length < 2 ^ 64 :=
      Nat.lt_trans (runFile build self ops).file.inner.length_lt (by decide)
    refine ⟨?_, hbs, sizesExact (hgrown.trans_lt hfile) hle, sizesExact hfile (hle.trans hgrown)⟩
    rw [hsame.blockCount]
    exact hblocks

theorem devices_keep_geometry_sample :
    (runMemory .checked sampleMemory
        [.device (.writeBlocks 1 [1, 2]), .device (.writeBlocks 2 [3]),
          .asMutSlice 0 7]).data.bytes.length = 4 ∧
      WholeBlocks 5 2 (runFile .checked sampleFile [.writeBlocks 4 [1, 2]]).blockCount := by
  have hmemory : MemoryMade .checked 5 2 sampleMemory := @MemoryMade.new _ 5 2 _ rfl
  have hfile : FileMade sampleHost 5 2 sampleFile :=
    @FileMade.openWithBlockSize sampleHost 2 _ ⟨[7, 7, 7, 7, 7], by decide, 0, true⟩ rfl rfl
  have hgeometry := devices_keep_geometry .checked 5 2
  obtain ⟨-, -, hlength, -⟩ := hgeometry.1 sampleMemory hmemory
    [.device (.writeBlocks 1 [1, 2]), .device (.writeBlocks 2 [3]), .asMutSlice 0 7]
  exact ⟨hlength, (hgeometry.2 sampleHost sampleFile hfile [.writeBlocks 4 [1, 2]]).1⟩

end Ext4Lwext4.Metatheory
