import Ext4Lwext4.Metatheory.ApiCalls
import Ext4Lwext4.Metatheory.MountRecovery
import Ext4Lwext4.Model.Lwext4

/-! # Durability

A device with a write buffer keeps what was written to it only after a
`flush`. lwext4 hands its dirty blocks to `write_blocks`, and the callback
table it does so through has no entry for `flush`: the last of the three
layers is never told. -/

namespace Ext4Lwext4.Metatheory

open Ext4Lwext4.Framework Ext4Lwext4.Model

/-- A device with a volatile write buffer: what is written goes to the volatile
image, and a flush alone moves the persistent one. -/
structure WriteBuffered {D Image : Type} [BlockDevice D] (volatile persistent : D → Image) :
    Prop where
  read : ∀ {build dev blockId buf result out dev'},
    BlockDevice.readBlocks build dev blockId buf = .ok (result, out, dev') →
      volatile dev' = volatile dev ∧ persistent dev' = persistent dev
  write : ∀ {build dev blockId buf result dev'},
    BlockDevice.writeBlocks build dev blockId buf = .ok (result, dev') →
      persistent dev' = persistent dev
  flush : ∀ {dev dev'}, BlockDevice.flush dev = .ok (.ok (), dev') →
    volatile dev' = volatile dev ∧ persistent dev' = volatile dev
  openDevice : ∀ dev : D, BlockDevice.openDevice dev = .ok (.ok (), dev)
  closeDevice : ∀ dev : D, BlockDevice.closeDevice dev = .ok (.ok (), dev)

/-! ## Recording a device -/

inductive Method
  | readBlocks
  | writeBlocks
  | flush
  | openDevice
  | closeDevice
  deriving DecidableEq, Repr

/-- A device with the methods that were called on it, in order. -/
structure Recorded (D : Type) where
  device : D
  log : List Method

instance {D : Type} [BlockDevice D] : BlockDevice (Recorded D) where
  readBlocks build self blockId buf := do
    let (result, out, device) ← BlockDevice.readBlocks build self.device blockId buf
    return (result, out, ⟨device, self.log ++ [.readBlocks]⟩)
  writeBlocks build self blockId buf := do
    let (result, device) ← BlockDevice.writeBlocks build self.device blockId buf
    return (result, ⟨device, self.log ++ [.writeBlocks]⟩)
  flush self := do
    let (result, device) ← BlockDevice.flush self.device
    return (result, ⟨device, self.log ++ [.flush]⟩)
  blockSize self := BlockDevice.blockSize self.device
  blockCount self := BlockDevice.blockCount self.device
  openDevice self := do
    let (result, device) ← BlockDevice.openDevice self.device
    return (result, ⟨device, self.log ++ [.openDevice]⟩)
  closeDevice self := do
    let (result, device) ← BlockDevice.closeDevice self.device
    return (result, ⟨device, self.log ++ [.closeDevice]⟩)

/-- The wrapper of the device without its record. -/
def forget {D : Type} (w : BlockDeviceWrapper (Recorded D)) : BlockDeviceWrapper D :=
  ⟨w.device.device, w.bdev⟩

/-- Recording changes nothing: a callback does to the recorded device what it
does to the device. -/
theorem invoke_forget {D : Type} [BlockDevice D] (build : Build)
    (w : BlockDeviceWrapper (Recorded D)) (cb : Callback) :
    (cb.invoke build w).map (fun r => (r.1, forget r.2)) = cb.invoke build (forget w) := by
  cases cb with
  | openDevice =>
      simp only [Callback.invoke, blockdevOpen, BlockDevice.openDevice, forget]
      cases BlockDevice.openDevice w.device.device <;> rfl
  | bread buf blkId blkCnt =>
      simp only [Callback.invoke, blockdevBread, BlockDevice.readBlocks, BlockDevice.blockSize,
        forget]
      cases build.mul64 (BlockDevice.blockSize w.device.device).toUInt64 blkCnt.toUInt64 with
      | error why => rfl
      | ok total =>
          simp only [ok_bind]
          cases BlockDevice.readBlocks build w.device.device blkId (fromRawParts buf total) <;> rfl
  | bwrite buf blkId blkCnt =>
      simp only [Callback.invoke, blockdevBwrite, BlockDevice.writeBlocks, BlockDevice.blockSize,
        forget]
      cases build.mul64 (BlockDevice.blockSize w.device.device).toUInt64 blkCnt.toUInt64 with
      | error why => rfl
      | ok total =>
          simp only [ok_bind]
          cases BlockDevice.writeBlocks build w.device.device blkId (fromRawParts buf total) <;> rfl
  | closeDevice =>
      simp only [Callback.invoke, blockdevClose, BlockDevice.closeDevice, forget]
      cases BlockDevice.closeDevice w.device.device <;> rfl
  | lock => rfl
  | unlock => rfl

/-- The methods a callback calls. -/
def methodsOf : Callback → List Method
  | .openDevice => [.openDevice]
  | .bread _ _ _ => [.readBlocks]
  | .bwrite _ _ _ => [.writeBlocks]
  | .closeDevice => [.closeDevice]
  | .lock | .unlock => []

/-- No entry of the callback table leads to `flush`. -/
theorem flush_notMem_methodsOf (cb : Callback) : Method.flush ∉ methodsOf cb := by
  cases cb <;> simp [methodsOf]

theorem writeBlocks_mem_methodsOf {cb : Callback} :
    Method.writeBlocks ∈ methodsOf cb ↔ cb.IsWrite := by
  cases cb <;> simp [methodsOf, Callback.IsWrite]

section Callbacks

variable {D Image : Type} [BlockDevice D] {volatile persistent : D → Image} {build : Build}

/-- What one callback does to the device behind it. -/
structure Moved (volatile persistent : D → Image) (cb : Callback) (dev dev' : Recorded D) :
    Prop where
  log : dev'.log = dev.log ++ methodsOf cb
  persistent : persistent dev'.device = persistent dev.device
  volatile : ¬ cb.IsWrite → volatile dev'.device = volatile dev.device

theorem callback_moves (hD : WriteBuffered volatile persistent)
    {w w' : BlockDeviceWrapper (Recorded D)} {cb : Callback} (h : CallbackStep build w cb w') :
    Moved volatile persistent cb w.device w'.device := by
  obtain ⟨code, h⟩ := h
  cases cb with
  | openDevice =>
      obtain ⟨result, -, hopen⟩ := blockdevOpen_ok h
      obtain ⟨⟨result, device⟩, hdevice, hopen⟩ := bind_eq_ok.mp hopen
      obtain ⟨-, hlog⟩ := Prod.mk.inj (Except.ok.inj hopen)
      rw [hD.openDevice] at hdevice
      cases hdevice
      rw [← hlog]
      exact ⟨rfl, rfl, fun _ => rfl⟩
  | bread buf blkId blkCnt =>
      obtain ⟨⟨code, out, wrapper⟩, h, hw⟩ := bind_eq_ok.mp h
      cases hw
      obtain ⟨slice, result, filled, -, hread⟩ := blockdevBread_ok h
      obtain ⟨⟨result, filled, device⟩, hdevice, hread⟩ := bind_eq_ok.mp hread
      obtain ⟨hvolatile, hpersistent⟩ := hD.read hdevice
      obtain ⟨-, hrest⟩ := Prod.mk.inj (Except.ok.inj hread)
      obtain ⟨-, hlog⟩ := Prod.mk.inj hrest
      rw [← hlog]
      exact ⟨rfl, hpersistent, fun _ => hvolatile⟩
  | bwrite buf blkId blkCnt =>
      obtain ⟨slice, result, -, hwrite⟩ := blockdevBwrite_ok h
      obtain ⟨⟨result, device⟩, hdevice, hwrite⟩ := bind_eq_ok.mp hwrite
      obtain ⟨-, hlog⟩ := Prod.mk.inj (Except.ok.inj hwrite)
      rw [← hlog]
      exact ⟨rfl, hD.write hdevice, fun hno => absurd trivial hno⟩
  | closeDevice =>
      obtain ⟨result, -, hclose⟩ := blockdevClose_ok h
      obtain ⟨⟨result, device⟩, hdevice, hclose⟩ := bind_eq_ok.mp hclose
      obtain ⟨-, hlog⟩ := Prod.mk.inj (Except.ok.inj hclose)
      rw [hD.closeDevice] at hdevice
      cases hdevice
      rw [← hlog]
      exact ⟨rfl, rfl, fun _ => rfl⟩
  | lock =>
      cases h
      exact ⟨by simp [methodsOf], rfl, fun _ => rfl⟩
  | unlock =>
      cases h
      exact ⟨by simp [methodsOf], rfl, fun _ => rfl⟩

/-- The same for the callbacks of a whole call. -/
theorem callbacks_move (hD : WriteBuffered volatile persistent)
    {w w' : BlockDeviceWrapper (Recorded D)} {cbs : List Callback}
    (h : Runs (CallbackStep build) w cbs w') :
    w'.device.log = w.device.log ++ cbs.flatMap methodsOf ∧
      persistent w'.device.device = persistent w.device.device ∧
      ((∀ cb ∈ cbs, ¬ cb.IsWrite) → volatile w'.device.device = volatile w.device.device) := by
  induction h with
  | nil w => exact ⟨by simp, rfl, fun _ => rfl⟩
  | @cons w u v cb cbs hst _ ih =>
      obtain ⟨hlog, hpersistent, hvolatile⟩ := ih
      have hmoved := callback_moves hD hst
      refine ⟨?_, hpersistent.trans hmoved.persistent, ?_⟩
      · rw [hlog, hmoved.log, List.flatMap_cons, List.append_assoc]
      · intro hno
        rw [List.forall_mem_cons] at hno
        exact (hvolatile hno.2).trans (hmoved.volatile hno.1)

end Callbacks

/-! ## Runs -/

section Runs

variable {D Image : Type} [BlockDevice D] {volatile persistent : D → Image} {build : Build}
  {device : D}

/-- What a device handed over as `device` has come to after the callbacks made
so far: it was never flushed, and without a write it is as it was. -/
structure Tracks (volatile persistent : D → Image) (device : D) (s : Lwext4 (Recorded D)) :
    Prop where
  log : s.wrapper.device.log = s.history.flatMap methodsOf
  persistent : persistent s.wrapper.device.device = persistent device
  volatile : (∀ cb ∈ s.history, ¬ cb.IsWrite) →
    volatile s.wrapper.device.device = volatile device

theorem step_tracks (hD : WriteBuffered volatile persistent) {s t : Lwext4 (Recorded D)}
    {c : Call} {r : Reply c} (h : Lwext4.Step build s c r t)
    (hs : Tracks volatile persistent device s) : Tracks volatile persistent device t := by
  cases h with
  | fetchAdd => exact hs
  | boxed => exact ⟨hs.log, hs.persistent, hs.volatile⟩
  | dropped => exact hs
  | call _ hrun _ =>
      obtain ⟨hlog, hpersistent, hvolatile⟩ := callbacks_move hD hrun
      refine ⟨?_, hpersistent.trans hs.persistent, ?_⟩
      · rw [hlog, hs.log, List.flatMap_append]
      · intro hno
        have hold := hs.volatile fun cb hcb => hno cb (List.mem_append_left _ hcb)
        exact (hvolatile fun cb hcb => hno cb (List.mem_append_right _ hcb)).trans hold

theorem exec_tracks (hD : WriteBuffered volatile persistent) {α : Type} {p : Sys α}
    {s t : Lwext4 (Recorded D)} {tr : List SysEvent} {o : Outcome α}
    (h : Exec (lwext4 (Recorded D) build) p s tr o t) (hs : Tracks volatile persistent device s) :
    Tracks volatile persistent device t :=
  Exec.invariant (I := Tracks volatile persistent device) (fun _ _ _ _ => step_tracks hD) h hs

theorem run_tracks (hD : WriteBuffered volatile persistent)
    {a b : Option Client × Lwext4 (Recorded D)} {performed : List Performed}
    (h : Runs (Client.Step build (lwext4 (Recorded D) build)) a performed b)
    (ha : Tracks volatile persistent device a.2) : Tracks volatile persistent device b.2 := by
  refine h.invariant (I := fun a => Tracks volatile persistent device a.2) ?_ ha
  intro a e b hstep ha
  cases hstep with
  | returned _ hexec => exact exec_tracks hD hexec ha
  | halted _ hexec => exact exec_tracks hD hexec ha

end Runs

/-! ## What a sync owes -/

/-- The device holds on to everything: its images are the same, and every write
was followed by a flush. -/
structure Synced {D Image : Type} (volatile persistent : D → Image) (dev : Recorded D) : Prop where
  images : persistent dev.device = volatile dev.device
  flushed : ∀ before after, dev.log = before ++ .writeBlocks :: after → .flush ∈ after

theorem synced_iff_of_tracks {D Image : Type} {volatile persistent : D → Image} {device : D}
    {s : Lwext4 (Recorded D)} (h : Tracks volatile persistent device s) :
    Synced volatile persistent s.wrapper.device ↔
      persistent device = volatile device ∧ ∀ cb ∈ s.history, ¬ cb.IsWrite := by
  -- the log is the callbacks' methods: a write where one was made, a flush nowhere
  have hwrite (hno : ∀ cb ∈ s.history, ¬ cb.IsWrite) : .writeBlocks ∉ s.wrapper.device.log := by
    intro hmem
    rw [h.log, List.mem_flatMap] at hmem
    obtain ⟨cb, hcb, hmethod⟩ := hmem
    exact hno cb hcb (writeBlocks_mem_methodsOf.mp hmethod)
  have hflush : .flush ∉ s.wrapper.device.log := by
    intro hmem
    rw [h.log, List.mem_flatMap] at hmem
    obtain ⟨cb, -, hmethod⟩ := hmem
    exact flush_notMem_methodsOf cb hmethod
  constructor
  · intro hsynced
    have hno : ∀ cb ∈ s.history, ¬ cb.IsWrite := by
      intro cb hcb hw
      have hmem : .writeBlocks ∈ s.wrapper.device.log := by
        rw [h.log, List.mem_flatMap]
        exact ⟨cb, hcb, writeBlocks_mem_methodsOf.mpr hw⟩
      obtain ⟨before, after, hlog⟩ := List.append_of_mem hmem
      apply hflush
      rw [hlog]
      have hafter := hsynced.flushed before after hlog
      exact List.mem_append_right _ (List.mem_cons_of_mem _ hafter)
    refine ⟨?_, hno⟩
    rw [← h.persistent, hsynced.images, h.volatile hno]
  · rintro ⟨hclean, hno⟩
    refine ⟨?_, ?_⟩
    · rw [h.persistent, hclean, h.volatile hno]
    · intro before after hlog
      exact absurd (by simp [hlog]) (hwrite hno)

/-- The operations that promise the data are on disk. -/
def Syncs : ApiOp → Prop
  | .fs .sync | .file _ .sync => True
  | _ => False

/-- `v` is reached when a sync of the instance, or its unmount, returns `Ok`. -/
inductive SyncReturned (build : Build) (E : Environment Call Reply) (fs : Ext4Fs) (u : E.State) :
    E.State → Prop
  | synced {performed : List Performed} {e : Performed} {client : Option Client} {v : E.State} :
      Runs (Client.Step build E) (some (.mounted fs), u) (performed ++ [e]) (client, v) →
      Syncs e.op → e.outcome = .ok (.ok .unit) → SyncReturned build E fs u v
  | unmounted {performed : List Performed} {client : Option Client} {t v : E.State}
      {endTrace : List SysEvent} :
      Runs (Client.Step build E) (some (.mounted fs), u) performed (client, t) →
      Exec E (fs.finish .umount) t endTrace (.ok (.ok ())) v → SyncReturned build E fs u v

/-- The first two layers do their part: after a sync lwext4 has nothing dirty. -/
theorem dirty_eq_nil_of_sync {D : Type} [BlockDevice D] {build : Build} {fs : Ext4Fs}
    {s t : Lwext4 D} {tr : List SysEvent}
    (h : Exec (lwext4 D build) fs.sync.run s tr (.ok (.ok ())) t) : t.dirty = [] := by
  obtain ⟨ret, u, tr', rfl, hstep, h⟩ := exec_run_request_bind h
  obtain ⟨-, hret, rfl⟩ := Exec.done_iff.mp h
  have hzero : ret = 0 := (checkErrno_eq_ok).mp (Except.ok.inj hret).symm
  cases hstep with
  | call _ _ hflush => exact (hflush hzero).2

/-- Whenever a sync or an unmount returns `Ok`, the persistent image is still the
one the device was handed over with, and the data are safe exactly when there
were none: the device was clean and no block was handed to it. -/
theorem synced_iff {D Image : Type} [BlockDevice D] {volatile persistent : D → Image}
    (hD : WriteBuffered volatile persistent) (build : Build) {device : D} {readOnly : Bool}
    {s u v : (lwext4 (Recorded D) build).State} (hdevice : s.wrapper.device = ⟨device, []⟩)
    (hhistory : s.history = []) {mountTrace : List SysEvent} {fs : Ext4Fs}
    (hmount : Exec (lwext4 (Recorded D) build)
      (Ext4Fs.mount build (⟨device, []⟩ : Recorded D) readOnly) s mountTrace (.ok (.ok fs)) u)
    (hreturned : SyncReturned build (lwext4 (Recorded D) build) fs u v) :
    persistent v.wrapper.device.device = persistent device ∧
    (Synced volatile persistent v.wrapper.device ↔
      persistent device = volatile device ∧ ∀ cb ∈ v.history, ¬ cb.IsWrite) := by
  have hs : Tracks volatile persistent device s := by
    refine ⟨?_, ?_, ?_⟩
    · rw [hdevice, hhistory]
      rfl
    · rw [hdevice]
    · intro _
      rw [hdevice]
  have hu := exec_tracks hD hmount hs
  have hv : Tracks volatile persistent device v := by
    cases hreturned with
    | synced hrun _ _ => exact run_tracks hD hrun hu
    | unmounted hrun hend => exact exec_tracks hD hend (run_tracks hD hrun hu)
  exact ⟨hv.persistent, synced_iff_of_tracks hv⟩

/-! ## A buffered memory -/

/-- A memory device behind a write buffer. -/
structure BufferedMemory where
  volatile : MemoryBlockDevice
  persistent : MemoryBlockDevice
  deriving DecidableEq

instance : BlockDevice BufferedMemory where
  readBlocks build self blockId buf := do
    let (result, out, volatile) ← BlockDevice.readBlocks build self.volatile blockId buf
    return (result, out, { self with volatile })
  writeBlocks build self blockId buf := do
    let (result, volatile) ← BlockDevice.writeBlocks build self.volatile blockId buf
    return (result, { self with volatile })
  flush self := .ok (.ok (), { self with persistent := self.volatile })
  blockSize self := self.volatile.blockSize
  blockCount self := self.volatile.blockCount

theorem bufferedMemory_writeBuffered :
    WriteBuffered BufferedMemory.volatile BufferedMemory.persistent where
  read {build dev blockId buf result out dev'} h := by
    obtain ⟨⟨result, out, volatile⟩, hread, h⟩ := bind_eq_ok.mp h
    obtain ⟨-, hrest⟩ := Prod.mk.inj (Except.ok.inj h)
    obtain ⟨-, rfl⟩ := Prod.mk.inj hrest
    exact ⟨MemoryBlockDevice.readBlocks_self hread, rfl⟩
  write {build dev blockId buf result dev'} h := by
    obtain ⟨⟨result, volatile⟩, -, h⟩ := bind_eq_ok.mp h
    obtain ⟨-, rfl⟩ := Prod.mk.inj (Except.ok.inj h)
    rfl
  flush {dev dev'} h := by
    cases h
    exact ⟨rfl, rfl⟩
  openDevice _ := rfl
  closeDevice _ := rfl

def sampleBuffered : BufferedMemory := ⟨sampleMemory, sampleMemory⟩

theorem sampleBuffered_wraps :
    BlockDeviceWrapper.new .checked (⟨sampleBuffered, []⟩ : Recorded BufferedMemory) =
      .ok ⟨⟨sampleBuffered, []⟩, sampleBdev⟩ := rfl

/-- What the first block becomes. -/
def sampleWritten : BufferedMemory := ⟨⟨⟨[7, 7, 0, 0], by decide⟩, 2, 2⟩, sampleMemory⟩

/-- Before the mount, after it with the first block dirty, and after the block
was handed over. -/
def unmountedBuffer : Lwext4 (Recorded BufferedMemory) :=
  ⟨⟨⟨sampleBuffered, []⟩, sampleBdev⟩, [], []⟩

def mountedBuffer : Lwext4 (Recorded BufferedMemory) :=
  ⟨⟨⟨sampleBuffered, [.openDevice]⟩, sampleBdev⟩, [0], [.openDevice]⟩

def flushedBuffer : Lwext4 (Recorded BufferedMemory) :=
  ⟨⟨⟨sampleWritten, [.openDevice, .writeBlocks]⟩, sampleBdev⟩, [],
    [.openDevice, .lock, .bwrite (fun _ => 7) 0 1, .unlock]⟩

def bufferedFs : Ext4Fs := ⟨9, deviceNameOf 4, mountPointOf 4, false, true⟩

theorem buffered_mounted :
    Exec (lwext4 (Recorded BufferedMemory) .checked)
      (Ext4Fs.mount .checked (⟨sampleBuffered, []⟩ : Recorded BufferedMemory) false)
      unmountedBuffer (journaledMount 4 sampleBdev 9 0 0)
      (.ok (.ok bufferedFs)) mountedBuffer := by
  have hopen : Runs (CallbackStep .checked) unmountedBuffer.wrapper [.openDevice]
      mountedBuffer.wrapper := .single ⟨0, rfl⟩
  have hmount : Lwext4.Step .checked unmountedBuffer
      (.ext4Mount (deviceNameOf 4) (mountPointOf 4) false) (0 : Int32) mountedBuffer :=
    .call id hopen nofun
  refine (journaledMount_exec sampleBuffered_wraps 4 9 0 0).of_chaos ?_
  refine .cons (.fetchAdd _ 4) (.cons (.boxed unmountedBuffer sampleBdev 9) ?_)
  refine .cons (.quiet unmountedBuffer id id) (.cons hmount ?_)
  exact .cons (.quiet _ id id) (.cons (.quiet _ id id) (.nil _))

/-- The sync hands the dirty block over and returns `Ok`. -/
theorem buffered_synced :
    SyncReturned .checked (lwext4 (Recorded BufferedMemory) .checked)
      bufferedFs mountedBuffer flushedBuffer := by
  have hwrite : Runs (CallbackStep .checked) mountedBuffer.wrapper
      [.lock, .bwrite (fun _ => 7) 0 1, .unlock] flushedBuffer.wrapper :=
    .cons ⟨0, rfl⟩ (.cons ⟨0, rfl⟩ (.single ⟨0, rfl⟩))
  have hflush : Lwext4.Step .checked mountedBuffer (.ext4CacheFlush (mountPointOf 4)) (0 : Int32)
      flushedBuffer := by
    refine .call id hwrite fun _ => ⟨fun block hblock => ?_, rfl⟩
    cases List.mem_singleton.mp hblock
    exact ⟨.bwrite (fun _ => 7) 0 1, by simp, by decide, by decide⟩
  have hstep : Client.Step .checked (lwext4 (Recorded BufferedMemory) .checked)
      (some (.mounted bufferedFs), mountedBuffer)
      ⟨.fs .sync, .ok (.ok .unit), [⟨.ext4CacheFlush (mountPointOf 4), (0 : Int32)⟩]⟩
      (some (.mounted bufferedFs), flushedBuffer) :=
    .returned rfl (.call hflush (.done _ _))
  have hrun : Runs (Client.Step .checked (lwext4 (Recorded BufferedMemory) .checked))
      (some (.mounted bufferedFs), mountedBuffer) ([] ++ [_])
      (some (.mounted bufferedFs), flushedBuffer) := .single hstep
  exact .synced hrun trivial rfl

theorem synced_iff_buffered :
    flushedBuffer.wrapper.device.device.persistent = sampleBuffered.persistent ∧
    (Synced BufferedMemory.volatile BufferedMemory.persistent flushedBuffer.wrapper.device ↔
      sampleBuffered.persistent = sampleBuffered.volatile ∧
        ∀ cb ∈ flushedBuffer.history, ¬ cb.IsWrite) :=
  synced_iff bufferedMemory_writeBuffered .checked rfl rfl buffered_mounted buffered_synced

/-- A sync returned `Ok` and the block is not on disk. -/
theorem synced_but_volatile :
    ¬ ∀ (s u v : Lwext4 (Recorded BufferedMemory)) (mountTrace : List SysEvent) (fs : Ext4Fs),
      s.wrapper.device = ⟨sampleBuffered, []⟩ → s.history = [] →
      Exec (lwext4 (Recorded BufferedMemory) .checked)
        (Ext4Fs.mount .checked (⟨sampleBuffered, []⟩ : Recorded BufferedMemory) false) s mountTrace
        (.ok (.ok fs)) u →
      SyncReturned .checked (lwext4 (Recorded BufferedMemory) .checked) fs u v →
      v.wrapper.device.device.persistent = v.wrapper.device.device.volatile := by
  intro h
  have himages := h _ _ _ _ _ rfl rfl buffered_mounted buffered_synced
  exact absurd himages (by decide)

end Ext4Lwext4.Metatheory
