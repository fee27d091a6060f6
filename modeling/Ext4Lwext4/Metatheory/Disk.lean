import Ext4Lwext4.Metatheory.Teardown
import Ext4Lwext4.Model.Lwext4

/-! # The disk lwext4 sees

lwext4 is handed a callback table and two numbers, the size of a block and how
many there are. Behind them stands a disk: an image that a write changes where
it says, and a read shows. The callbacks of a wrapper refine it as long as
lwext4 stays within the blocks it was told of, so the device holds at every
moment what the history of the callbacks put there. -/

namespace Ext4Lwext4.Metatheory

open Ext4Lwext4.Framework Ext4Lwext4.Model

/-! ## The disk -/

/-- What a callback puts on the disk. -/
def puts (blockSize : UInt32) : Callback → List (Write UInt8)
  | .bwrite buf blkId blkCnt =>
      [(blkId.toNat * blockSize.toNat, (List.range (blockSize.toNat * blkCnt.toNat)).map buf)]
  | _ => []

/-- The memory a read leaves behind its pointer: the blocks, and what was there
behind them. -/
def shows (blockSize : UInt32) (image : Bytes) : Callback → Option RawMemory
  | .bread buf blkId blkCnt =>
      some (buf.store (window image (blkId.toNat * blockSize.toNat)
        (blockSize.toNat * blkCnt.toNat)))
  | _ => none

/-- A callback and what lwext4 saw of it. -/
abbrev Seen : Type := Callback × Int32 × Option RawMemory

/-- The disk: every callback succeeds, a read shows the image, a write changes
it, and nothing else does. -/
def DiskStep (blockSize : UInt32) (image : Bytes) (seen : Seen) (image' : Bytes) : Prop :=
  seen.2 = (0, shows blockSize image seen.1) ∧ image' = applyWrites image (puts blockSize seen.1)

/-- The wrapper behind the table, observed the same way. -/
def TableStep {D : Type} [BlockDevice D] (build : Build) (wrapper : BlockDeviceWrapper D)
    (seen : Seen) (wrapper' : BlockDeviceWrapper D) : Prop :=
  seen.1.reply build wrapper = .ok (seen.2, wrapper')

/-! ## Devices that make a disk -/

/-- An image device whose `open` and `close` do nothing. -/
class DiskDevice (D : Type) extends ImageDevice D where
  open_eq (self : D) : BlockDevice.openDevice self = .ok (.ok (), self)
  close_eq (self : D) : BlockDevice.closeDevice self = .ok (.ok (), self)

instance : DiskDevice MemoryBlockDevice where
  open_eq _ := rfl
  close_eq _ := rfl

instance : DiskDevice FileBlockDevice where
  open_eq _ := rfl
  close_eq _ := rfl

open ImageDevice

section Table

variable {D : Type} [DiskDevice D] {build : Build} {bs : UInt32} {count : UInt64}

/-- A device that serves as a disk of so many blocks of that size. -/
structure Serving (bs : UInt32) (count : UInt64) (device : D) : Prop where
  ready : Ready device
  blockSize_eq : BlockDevice.blockSize device = bs
  blockCount_eq : BlockDevice.blockCount device = count

theorem Serving.fits {device : D} (h : Serving bs count device) {callback : Callback}
    (hr : callback.InRange count) : Fits (image device).length (puts bs callback) := by
  intro w hw
  cases callback with
  | bwrite buf blkId blkCnt =>
      cases List.mem_singleton.mp hw
      have hholds := holds h.ready
      rw [h.blockSize_eq, h.blockCount_eq] at hholds
      have hle : blkId.toNat * bs.toNat + bs.toNat * blkCnt.toNat ≤ count.toNat * bs.toNat := by
        rw [Nat.mul_comm bs.toNat, ← Nat.add_mul]
        exact Nat.mul_le_mul_right _ hr
      simpa using hle.trans hholds
  | _ => simp [puts] at hw

/-- A transfer in range. -/
theorem transfer_step (build : Build) {wrapper : BlockDeviceWrapper D}
    (h : Serving bs count wrapper.device) {t : Transfer} {blkId : UInt64} {blkCnt : UInt32}
    (ht : t.blockId = blkId)
    (hlen : t.buf.length = bs.toNat * blkCnt.toNat)
    (hr : blkId.toNat + blkCnt.toNat ≤ count.toNat) :
    ∃ n device, t.perform build wrapper.device =
        .ok ((.ok n, answer bs (image wrapper.device) t), device) ∧
      image device = applyWrites (image wrapper.device) (writes bs t) ∧
      Serving bs count device := by
  have hrange : t.InRange (BlockDevice.blockSize wrapper.device)
      (BlockDevice.blockCount wrapper.device) := by
    refine ⟨blkCnt.toNat, ?_, ?_⟩
    · rw [hlen, h.blockSize_eq, Nat.mul_comm]
    · rw [ht, h.blockCount_eq]
      exact hr
  obtain ⟨n, device, hperform, himage, hready, hsize, hcount⟩ :=
    perform_ok build h.ready hrange
  rw [h.blockSize_eq] at hperform himage hsize
  rw [h.blockCount_eq] at hcount
  exact ⟨n, device, hperform, himage, hready, hsize, hcount⟩

theorem readBlocks_of_perform {device device' : D} {id : UInt64} {buf out : Bytes}
    {result : Except Error UInt32}
    (h : (Transfer.read id buf).perform build device = .ok ((result, out), device')) :
    BlockDevice.readBlocks build device id buf = .ok (result, out, device') := by
  obtain ⟨⟨result, out, device⟩, hread, h⟩ := bind_eq_ok.mp h
  cases h
  exact hread

theorem writeBlocks_of_perform {device device' : D} {id : UInt64} {buf out : Bytes}
    {result : Except Error UInt32}
    (h : (Transfer.write id buf).perform build device = .ok ((result, out), device')) :
    BlockDevice.writeBlocks build device id buf = .ok (result, device') := by
  obtain ⟨⟨result, device⟩, hwrite, h⟩ := bind_eq_ok.mp h
  cases h
  exact hwrite

/-- Every callback in range is a step of the disk. -/
theorem callback_step (build : Build) {wrapper : BlockDeviceWrapper D}
    (h : Serving bs count wrapper.device) {callback : Callback} (hr : callback.InRange count) :
    ∃ wrapper', callback.reply build wrapper =
        .ok ((0, shows bs (image wrapper.device) callback), wrapper') ∧
      image wrapper'.device = applyWrites (image wrapper.device) (puts bs callback) ∧
      Serving bs count wrapper'.device := by
  cases callback with
  | bread buf blkId blkCnt =>
      have hlen : (transferSlice wrapper buf blkCnt).length = bs.toNat * blkCnt.toNat := by
        rw [length_transferSlice, h.blockSize_eq]
      obtain ⟨n, device, hperform, himage, hserve⟩ := transfer_step build h
        (t := .read blkId (transferSlice wrapper buf blkCnt)) rfl hlen hr
      have hread := blockdevBread_eq (readBlocks_of_perform hperform)
      refine ⟨{ wrapper with device }, bind_eq_ok.mpr ⟨_, hread, ?_⟩, himage, hserve⟩
      simp only [shows, answer, Transfer.offset, Transfer.blockId, hlen]
      rfl
  | bwrite buf blkId blkCnt =>
      have hlen : (transferSlice wrapper buf blkCnt).length = bs.toNat * blkCnt.toNat := by
        rw [length_transferSlice, h.blockSize_eq]
      obtain ⟨n, device, hperform, himage, hserve⟩ := transfer_step build h
        (t := .write blkId (transferSlice wrapper buf blkCnt)) rfl hlen hr
      have hwrite := blockdevBwrite_eq (writeBlocks_of_perform hperform)
      refine ⟨{ wrapper with device }, bind_eq_ok.mpr ⟨_, hwrite, rfl⟩, ?_, hserve⟩
      rw [himage, puts, writes, transferSlice, h.blockSize_eq]
      rfl
  | openDevice =>
      exact ⟨wrapper, bind_eq_ok.mpr ⟨_, blockdevOpen_eq (DiskDevice.open_eq _), rfl⟩, rfl, h⟩
  | closeDevice =>
      exact ⟨wrapper, bind_eq_ok.mpr ⟨_, blockdevClose_eq (DiskDevice.close_eq _), rfl⟩, rfl, h⟩
  | lock => exact ⟨wrapper, rfl, rfl, h⟩
  | unlock => exact ⟨wrapper, rfl, rfl, h⟩

/-- The table has a run of any callbacks in range. -/
theorem table_runs {wrapper : BlockDeviceWrapper D} (h : Serving bs count wrapper.device)
    {callbacks : List Callback} (hr : ∀ callback ∈ callbacks, callback.InRange count) :
    ∃ seen wrapper', seen.map Prod.fst = callbacks ∧
      Runs (TableStep build) wrapper seen wrapper' := by
  induction callbacks generalizing wrapper with
  | nil => exact ⟨[], wrapper, rfl, .nil _⟩
  | cons callback callbacks ih =>
      obtain ⟨next, hreply, -, hserve⟩ := callback_step build h (hr _ List.mem_cons_self)
      obtain ⟨seen, wrapper', hseen, hrun⟩ :=
        ih hserve fun callback hmem => hr callback (List.mem_cons_of_mem _ hmem)
      refine ⟨(callback, _) :: seen, wrapper', ?_, .cons hreply hrun⟩
      rw [List.map_cons, hseen]

/-- And what lwext4 sees of it is what the disk shows. -/
theorem table_refines {wrapper wrapper' : BlockDeviceWrapper D}
    (h : Serving bs count wrapper.device) {seen : List Seen}
    (hr : ∀ callback ∈ seen.map Prod.fst, callback.InRange count)
    (hrun : Runs (TableStep build) wrapper seen wrapper') :
    Runs (DiskStep bs) (image wrapper.device) seen (image wrapper'.device) ∧
      Serving bs count wrapper'.device := by
  induction hrun with
  | nil _ => exact ⟨.nil _, h⟩
  | @cons wrapper next wrapper' first seen hst _ ih =>
      obtain ⟨next', hreply, himage, hserve⟩ := callback_step build h
        (hr first.1 List.mem_cons_self)
      -- the table is a function: the step of the run is this one
      obtain ⟨hseen, rfl⟩ := Prod.mk.inj (Except.ok.inj (hst.symm.trans hreply))
      obtain ⟨hrest, hlast⟩ :=
        ih hserve fun callback hmem => hr callback (List.mem_cons_of_mem _ hmem)
      exact ⟨.cons ⟨hseen, himage⟩ hrest, hlast⟩

end Table

/-! ## Both devices, behind a wrapper -/

section Wrapper

variable {D : Type} [DiskDevice D] {build : Build} {device : D} {wrapper : BlockDeviceWrapper D}

/-- A new wrapper tells lwext4 the size and the number of the blocks. -/
theorem new_serving (hready : Ready device)
    (hnew : BlockDeviceWrapper.new build device = .ok wrapper) :
    wrapper.device = device ∧
      Serving wrapper.bdev.bdif.phBsize wrapper.bdev.bdif.phBcnt wrapper.device := by
  obtain ⟨buffer, -, hnew⟩ := bind_eq_ok.mp hnew
  obtain ⟨partSize, -, hnew⟩ := bind_eq_ok.mp hnew
  cases hnew
  exact ⟨rfl, hready, rfl, rfl⟩

/-- The table of a wrapper around the device is a disk of the geometry lwext4
is told: the callbacks, within its blocks, succeed, and what lwext4 sees of
them is what the disk shows from the image of the device to its image at the end. -/
def MakesDisk (build : Build) (device : D) (callbacks : List Callback) : Prop :=
  ∀ wrapper, BlockDeviceWrapper.new build device = .ok wrapper →
    (∀ callback ∈ callbacks, callback.InRange wrapper.bdev.bdif.phBcnt) →
    (∃ seen wrapper', seen.map Prod.fst = callbacks ∧
      Runs (TableStep build) wrapper seen wrapper') ∧
    ∀ seen wrapper', seen.map Prod.fst = callbacks →
      Runs (TableStep build) wrapper seen wrapper' →
      Runs (DiskStep wrapper.bdev.bdif.phBsize) (image device) seen (image wrapper'.device)

theorem makesDisk (hready : Ready device) (callbacks : List Callback) :
    MakesDisk build device callbacks := by
  intro wrapper hnew hrange
  obtain ⟨rfl, hserve⟩ := new_serving hready hnew
  refine ⟨table_runs hserve hrange, fun seen wrapper' hseen hrun => ?_⟩
  exact (table_refines hserve (hseen ▸ hrange) hrun).1

/-- Both devices, a file created or opened for reading and writing, make a disk:
any callbacks in range, in any order and number, and in both builds. -/
theorem callbacks_are_disk (build : Build) (callbacks : List Callback) :
    (∀ device : MemoryBlockDevice, device.Built build → MakesDisk build device callbacks) ∧
    ∀ device : FileBlockDevice, device.Built → MakesDisk build device callbacks :=
  ⟨fun _ h => makesDisk h.geometry callbacks, fun _ h => makesDisk h.geometry callbacks⟩

end Wrapper

/-! ## The device under a mounted filesystem -/

section History

variable {D : Type} [DiskDevice D] {build : Build} {bs : UInt32} {count : UInt64}
  {initial : Bytes}

/-- What the callbacks of a history put on the disk, in order. -/
def putsAll (bs : UInt32) (history : List Callback) : List (Write UInt8) :=
  history.flatMap (puts bs)

/-- As long as lwext4 has stayed in range, the device holds what its callbacks
put there. -/
def HoldsHistory (bs : UInt32) (count : UInt64) (initial : Bytes) (s : Lwext4 D) : Prop :=
  (∀ callback ∈ s.history, callback.InRange count) →
    image s.wrapper.device = applyWrites initial (putsAll bs s.history) ∧
    Serving bs count s.wrapper.device

/-- Callbacks in range put what they say. -/
theorem callbacks_put {wrapper wrapper' : BlockDeviceWrapper D} {callbacks : List Callback}
    (hrun : Runs (CallbackStep build) wrapper callbacks wrapper')
    (h : Serving bs count wrapper.device) (hr : ∀ callback ∈ callbacks, callback.InRange count) :
    image wrapper'.device = applyWrites (image wrapper.device) (putsAll bs callbacks) ∧
      Serving bs count wrapper'.device := by
  induction hrun with
  | nil _ => exact ⟨rfl, h⟩
  | @cons wrapper next wrapper' first callbacks hst _ ih =>
      obtain ⟨code, hinvoke⟩ := hst
      obtain ⟨memory, hreply⟩ := Callback.reply_of_invoke hinvoke
      obtain ⟨next', hreply', himage, hserve⟩ := callback_step build h (hr first List.mem_cons_self)
      obtain ⟨-, rfl⟩ := Prod.mk.inj (Except.ok.inj (hreply.symm.trans hreply'))
      obtain ⟨hrest, hlast⟩ :=
        ih hserve fun callback hmem => hr callback (List.mem_cons_of_mem _ hmem)
      refine ⟨?_, hlast⟩
      rw [hrest, himage, putsAll, putsAll, List.flatMap_cons, applyWrites_append]

theorem lwext4_step_holds {s t : Lwext4 D} {c : Call} {r : Reply c}
    (hst : Lwext4.Step build s c r t) (h : HoldsHistory bs count initial s) :
    HoldsHistory bs count initial t := by
  cases hst with
  | fetchAdd => exact h
  | boxed => exact h
  | dropped => exact h
  | @call _ _ callbacks wrapper dirty hc hrun hflush =>
      intro hr
      obtain ⟨himage, hserve⟩ := h fun callback hmem => hr callback (List.mem_append_left _ hmem)
      obtain ⟨himage', hserve'⟩ := callbacks_put hrun hserve fun callback hmem =>
        hr callback (List.mem_append_right _ hmem)
      refine ⟨?_, hserve'⟩
      rw [himage', himage, putsAll, putsAll, putsAll, List.flatMap_append, applyWrites_append]

theorem client_step_holds {a b : Option Client × (lwext4 D build).State} {e : Performed}
    (hst : Client.Step build (lwext4 D build) a e b) (h : HoldsHistory bs count initial a.2) :
    HoldsHistory bs count initial b.2 := by
  cases hst with
  | returned _ hexec => exact hexec.invariant (fun _ _ _ _ => lwext4_step_holds) h
  | halted _ hexec => exact hexec.invariant (fun _ _ _ _ => lwext4_step_holds) h

theorem putsAll_fits {device : D} (h : Serving bs count device) {history : List Callback}
    (hr : ∀ callback ∈ history, callback.InRange count) :
    Fits (image device).length (putsAll bs history) := by
  intro w hw
  obtain ⟨callback, hmem, hw⟩ := List.mem_flatMap.mp hw
  exact h.fits (hr callback hmem) w hw

/-- From the mount of a device to the end of the instance, and whatever a client
does in between: if lwext4 stayed within the blocks it was told of, the device
has the size it had, and holds at every place the byte of the last callback
that wrote there, or the one it held at the mount. -/
def HoldsItsHistory (build : Build) (device : D) : Prop :=
  ∀ (readOnly : Bool) (s u v : Lwext4 D) (fs : Ext4Fs) (mountTrace endTrace : List SysEvent)
    (performed : List Performed) (last : Option Client × (lwext4 D build).State) (ending : Ending)
    (o : Outcome (Except Error Unit)),
    s.wrapper.device = device → s.history = [] →
    Exec (lwext4 D build) (Ext4Fs.mount build device readOnly) s mountTrace (.ok (.ok fs)) u →
    Runs (Client.Step build (lwext4 D build)) (some (.mounted fs), u) performed last →
    Exec (lwext4 D build) (fs.finish ending) last.2 endTrace o v →
    (∀ callback ∈ v.history, callback.InRange (BlockDevice.blockCount device)) →
    (image v.wrapper.device).length = (image device).length ∧
      ∀ i, (image v.wrapper.device)[i]? =
        lastWritten (image device) (putsAll (BlockDevice.blockSize device) v.history) i

theorem holdsItsHistory {device : D} (hready : Ready device) : HoldsItsHistory build device := by
  intro readOnly s u v fs mountTrace endTrace performed last ending o hs hnil hmount hrun hend hr
  have hserve : Serving (BlockDevice.blockSize device) (BlockDevice.blockCount device) device :=
    ⟨hready, rfl, rfl⟩
  have hstart : HoldsHistory (BlockDevice.blockSize device) (BlockDevice.blockCount device)
      (image device) s := by
    intro _
    rw [hnil, hs]
    exact ⟨rfl, hserve⟩
  have hmounted := hmount.invariant (fun _ _ _ _ => lwext4_step_holds) hstart
  have hclient := hrun.invariant (fun _ _ _ hst => client_step_holds hst) hmounted
  have hlast := hend.invariant (fun _ _ _ _ => lwext4_step_holds) hclient
  obtain ⟨himage, -⟩ := hlast hr
  have hfits := putsAll_fits hserve hr
  refine ⟨?_, fun i => ?_⟩
  · rw [himage, length_applyWrites hfits]
  · rw [himage, getElem?_applyWrites hfits]

end History

/-- Both devices, a file created or opened for reading and writing, hold their
history, whatever the crate asks of lwext4 and whatever lwext4 makes of it. -/
theorem devices_hold_history (build : Build) :
    (∀ device : MemoryBlockDevice, device.Built build → HoldsItsHistory build device) ∧
    ∀ device : FileBlockDevice, device.Built → HoldsItsHistory build device :=
  ⟨fun _ h => holdsItsHistory h.geometry, fun _ h => holdsItsHistory h.geometry⟩

/-! ## Two blocks of two bytes -/

/-- The first block is written, and both are read. -/
def sampleCallbacks : List Callback :=
  [.bwrite (fun _ => 7) 0 1, .lock, .bread (fun _ => 9) 0 2]

theorem sampleCallbacks_inRange : ∀ callback ∈ sampleCallbacks, callback.InRange 2 := by
  intro callback hmem
  simp only [sampleCallbacks, List.mem_cons, List.not_mem_nil, or_false] at hmem
  rcases hmem with rfl | rfl | rfl
  · show (0 : UInt64).toNat + (1 : UInt32).toNat ≤ (2 : UInt64).toNat
    decide
  · exact trivial
  · show (0 : UInt64).toNat + (2 : UInt32).toNat ≤ (2 : UInt64).toNat
    decide

theorem callbacks_are_disk_sample :
    (∃ seen wrapper', seen.map Prod.fst = sampleCallbacks ∧
      Runs (TableStep .checked) ⟨sampleMemory, sampleBdev⟩ seen wrapper' ∧
      Runs (DiskStep 2) [0, 0, 0, 0] seen (image wrapper'.device)) ∧
    ∃ seen wrapper', seen.map Prod.fst = sampleCallbacks ∧
      Runs (TableStep .checked) ⟨sampleFile, sampleBdev⟩ seen wrapper' ∧
      Runs (DiskStep 2) [7, 7, 7, 7, 7] seen (image wrapper'.device) := by
  obtain ⟨hmemory, hfile⟩ := callbacks_are_disk .checked sampleCallbacks
  constructor
  · obtain ⟨⟨seen, wrapper', hseen, hrun⟩, hdisk⟩ :=
      hmemory sampleMemory (@MemoryBlockDevice.Built.new _ 4 2 _ rfl) _ rfl sampleCallbacks_inRange
    exact ⟨seen, wrapper', hseen, hrun, hdisk seen wrapper' hseen hrun⟩
  · obtain ⟨⟨seen, wrapper', hseen, hrun⟩, hdisk⟩ :=
      hfile sampleFile (@FileBlockDevice.Built.openExisting sampleHost 2 _ rfl) _ rfl
        sampleCallbacks_inRange
    exact ⟨seen, wrapper', hseen, hrun, hdisk seen wrapper' hseen hrun⟩

/-- The memory device before its mount, after it, and with a block written. -/
def memoryLwext4 : Lwext4 MemoryBlockDevice := ⟨⟨sampleMemory, sampleBdev⟩, [], []⟩

def memoryMounted : Lwext4 MemoryBlockDevice :=
  ⟨⟨sampleMemory, sampleBdev⟩, [], [.openDevice]⟩

def memoryWritten : Lwext4 MemoryBlockDevice :=
  ⟨⟨⟨⟨[0, 0, 7, 7], by decide⟩, 2, 2⟩, sampleBdev⟩, [],
    [.openDevice, .lock, .bwrite (fun _ => 7) 1 1, .unlock]⟩

theorem memory_mounted :
    Exec (lwext4 MemoryBlockDevice .checked) (Ext4Fs.mount .checked sampleMemory false)
      memoryLwext4 (journaledMount 4 sampleBdev 9 0 0) (.ok (.ok sampleFs)) memoryMounted := by
  have hmount : Lwext4.Step .checked memoryLwext4
      (.ext4Mount (deviceNameOf 4) (mountPointOf 4) false) (0 : Int32) memoryMounted :=
    .call id (.single ⟨0, rfl⟩) nofun
  refine (journaledMount_exec sampleMemory_wraps 4 9 0 0).of_chaos ?_
  refine .cons (.fetchAdd _ 4) (.cons (.boxed memoryLwext4 sampleBdev 9) ?_)
  refine .cons (.quiet memoryLwext4 id id) (.cons hmount ?_)
  exact .cons (.quiet _ id id) (.cons (.quiet _ id id) (.nil _))

/-- A file is opened, what is written to it reaches the device, and it is closed. -/
theorem memory_written : ∃ performed client,
    Runs (Client.Step .checked (lwext4 MemoryBlockDevice .checked))
      (some (.mounted sampleFs), memoryMounted) performed (some client, memoryWritten) ∧
    performed.map Performed.op =
      [.openFile "log" .WRITE, .file 0 (.writeAll 1 [7]), .dropFile 0] := by
  obtain ⟨p, hp, -⟩ := Ext4Fs.makePath_ok (show sampleFs.mountPoint = mountPointOf 4 from rfl)
    (show 0 ∉ strBytes "log" by decide)
  have hopen : Client.Step .checked (lwext4 MemoryBlockDevice .checked)
      (some (.mounted sampleFs), memoryMounted)
      ⟨.openFile "log" .WRITE, .ok (.ok (.handle 0)),
        [⟨.ext4Fopen2 .default p OpenFlags.WRITE.toRaw, ((0 : Int32), .default)⟩]⟩
      (some ⟨sampleFs, [some ⟨sampleFs, .default, "log"⟩], []⟩, memoryMounted) := by
    refine .returned rfl ?_
    unfold File.openFile
    simp only [Client.mounted]
    rw [hp]
    have hquiet : Lwext4.Step .checked memoryMounted
        (.ext4Fopen2 .default p OpenFlags.WRITE.toRaw) ((0 : Int32), .default) memoryMounted :=
      .quiet memoryMounted id id
    exact .call hquiet (.done _ _)
  have hcallbacks : Runs (CallbackStep .checked) memoryMounted.wrapper
      [.lock, .bwrite (fun _ => 7) 1 1, .unlock] memoryWritten.wrapper :=
    .cons ⟨0, rfl⟩ (.cons ⟨0, rfl⟩ (.single ⟨0, rfl⟩))
  have hwrite : Lwext4.Step .checked memoryMounted (.ext4Fwrite .default [7] 1 0)
      ((0 : Int32), .default, (1 : UInt64)) memoryWritten := .call id hcallbacks nofun
  have hclose : Lwext4.Step .checked memoryWritten (.ext4Fclose .default) (0 : Int32)
      memoryWritten := .quiet memoryWritten id id
  have hwritten : Client.Step .checked (lwext4 MemoryBlockDevice .checked)
      (some ⟨sampleFs, [some ⟨sampleFs, .default, "log"⟩], []⟩, memoryMounted)
      ⟨.file 0 (.writeAll 1 [7]), .ok (.ok .unit),
        [⟨.ext4Fwrite .default [7] 1 0, ((0 : Int32), .default, (1 : UInt64))⟩]⟩
      (some ⟨sampleFs, [some ⟨sampleFs, .default, "log"⟩], []⟩, memoryWritten) :=
    .returned rfl (.call hwrite (.done _ _))
  have hclosed : Client.Step .checked (lwext4 MemoryBlockDevice .checked)
      (some ⟨sampleFs, [some ⟨sampleFs, .default, "log"⟩], []⟩, memoryWritten)
      ⟨.dropFile 0, .ok (.ok .unit), [⟨.ext4Fclose .default, (0 : Int32)⟩]⟩
      (some ⟨sampleFs, [none], []⟩, memoryWritten) :=
    .returned rfl (.call hclose (.done _ _))
  exact ⟨_, _, .cons hopen (.cons hwritten (.single hclosed)), rfl⟩

theorem memory_dropped : ∃ tr,
    Exec (lwext4 MemoryBlockDevice .checked) (sampleFs.finish .drop) memoryWritten tr
      (.ok (.ok ())) memoryWritten := by
  have hflush : ∀ {c : Call} {r : Reply c}, ¬ c.Own →
      Lwext4.Step .checked memoryWritten c r memoryWritten := by
    intro c r hc
    have hstep : Lwext4.Step .checked memoryWritten c r
        { memoryWritten with history := memoryWritten.history ++ [] } :=
      .call hc (.nil _) fun _ => ⟨nofun, rfl⟩
    exact hstep
  refine ⟨_, (sampleFs_dropped 0).of_chaos ?_⟩
  refine .cons (hflush id) (.cons (hflush id) (.cons (hflush id) ?_))
  exact .cons (hflush id) (.cons (.dropped _ _) (.nil _))

/-- Two bytes that were there, and the two of the block that was written. -/
theorem devices_hold_history_memory :
    ([0, 0, 7, 7] : Bytes).length = 4 ∧ ∀ i, ([0, 0, 7, 7] : Bytes)[i]? =
      lastWritten [0, 0, 0, 0] [(2, [7, 7])] i := by
  obtain ⟨performed, client, hrun, -⟩ := memory_written
  obtain ⟨tr, hend⟩ := memory_dropped
  refine (devices_hold_history .checked).1 sampleMemory (@MemoryBlockDevice.Built.new _ 4 2 _ rfl)
    false memoryLwext4 memoryMounted memoryWritten sampleFs _ tr performed _ .drop _ rfl rfl
    memory_mounted hrun hend ?_
  intro callback hmem
  simp only [memoryWritten, List.mem_cons, List.not_mem_nil, or_false] at hmem
  rcases hmem with rfl | rfl | rfl | rfl
  · exact trivial
  · exact trivial
  · show (1 : UInt64).toNat + (1 : UInt32).toNat ≤ (2 : UInt64).toNat
    decide
  · exact trivial

end Ext4Lwext4.Metatheory
