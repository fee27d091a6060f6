import Ext4Lwext4.Metatheory.BlockStore
import Ext4Lwext4.Metatheory.Lifecycle

/-! # Recovery before the journal

A read-write mount replays the journal before it starts journaling. What the
replay returned decides nothing: a filesystem without a journal fails it too,
and `mount` goes on in every case. -/

namespace Ext4Lwext4.Metatheory

open Ext4Lwext4.Framework Ext4Lwext4.Model

/-- The calls of a read-write mount that succeeds. -/
def journaledMount (id : UInt64) (bdev : Ext4Blockdev) (wrapper : BdevPtr)
    (recover start : Int32) : List SysEvent :=
  [⟨.deviceCounterFetchAdd, id⟩, ⟨.boxWrapper bdev, wrapper⟩,
    ⟨.ext4DeviceRegister wrapper (deviceNameOf id), (0 : Int32)⟩,
    ⟨.ext4Mount (deviceNameOf id) (mountPointOf id) false, (0 : Int32)⟩,
    ⟨.ext4Recover (mountPointOf id), recover⟩, ⟨.ext4JournalStart (mountPointOf id), start⟩]

/-- The calls of a mount whose device could not be registered. -/
def refusedRegistration (id : UInt64) (bdev : Ext4Blockdev) (wrapper : BdevPtr)
    (register : Int32) : List SysEvent :=
  [⟨.deviceCounterFetchAdd, id⟩, ⟨.boxWrapper bdev, wrapper⟩,
    ⟨.ext4DeviceRegister wrapper (deviceNameOf id), register⟩, ⟨.dropWrapper wrapper, ()⟩]

/-- The calls of a mount that failed on a registered device. -/
def refusedMount (id : UInt64) (bdev : Ext4Blockdev) (wrapper : BdevPtr) (readOnly : Bool)
    (mount unregister : Int32) : List SysEvent :=
  [⟨.deviceCounterFetchAdd, id⟩, ⟨.boxWrapper bdev, wrapper⟩,
    ⟨.ext4DeviceRegister wrapper (deviceNameOf id), (0 : Int32)⟩,
    ⟨.ext4Mount (deviceNameOf id) (mountPointOf id) readOnly, mount⟩,
    ⟨.ext4DeviceUnregister (deviceNameOf id), unregister⟩, ⟨.dropWrapper wrapper, ()⟩]

section

variable {D : Type} [BlockDevice D] {build : Build} {device : D}

/-- Whatever the recovery returned, the mount succeeds. -/
theorem journaledMount_exec {w : BlockDeviceWrapper D}
    (hnew : BlockDeviceWrapper.new build device = .ok w) (id : UInt64) (wrapper : BdevPtr)
    (recover start : Int32) :
    Exec (.chaos Call Reply) (Ext4Fs.mount build device false) ()
      (journaledMount id w.bdev wrapper recover start)
      (.ok (.ok ⟨wrapper, deviceNameOf id, mountPointOf id, false, decide (start = 0)⟩)) () :=
  mount_exec hnew id wrapper (.readWrite recover start)

/-- Every read-write mount that returns goes one of three ways. In `Ok` the
recovery comes right after the mount and right before the journal is started,
and there is such a run for every code of the two. In `Err` no mount was made,
and a device that was registered has been unregistered before its wrapper is
dropped. -/
theorem mount_recovers_before_journal :
    (∀ (E : Environment Call Reply) (s t : E.State) (tr : List SysEvent)
        (result : Except Error Ext4Fs),
      Exec E (Ext4Fs.mount build device false) s tr (.ok result) t →
      ∃ id bdev wrapper,
        ((∃ fs, result = .ok fs) ∧ ∃ recover start,
          tr = journaledMount id bdev wrapper recover start) ∨
        ((∃ e, result = .error e) ∧
          ((∃ register, register ≠ 0 ∧ tr = refusedRegistration id bdev wrapper register) ∨
            ∃ mount unregister, mount ≠ 0 ∧
              tr = refusedMount id bdev wrapper false mount unregister))) ∧
    ∀ w, BlockDeviceWrapper.new build device = .ok w → ∀ id wrapper recover start,
      ∃ fs, Exec (.chaos Call Reply) (Ext4Fs.mount build device false) ()
        (journaledMount id w.bdev wrapper recover start) (.ok (.ok fs)) () := by
  refine ⟨fun E s t tr result h => ?_, fun w hnew id wrapper recover start =>
    ⟨_, journaledMount_exec hnew id wrapper recover start⟩⟩
  cases mount_trace h with
  | mounted id bdev wrapper hbody =>
      refine ⟨id, bdev, wrapper, .inl ⟨⟨_, rfl⟩, ?_⟩⟩
      cases hbody with
      | readWrite recover start => exact ⟨recover, start, rfl⟩
  | failed id bdev wrapper hbody =>
      refine ⟨id, bdev, wrapper, .inr ⟨⟨_, rfl⟩, ?_⟩⟩
      cases hbody with
      | registerFailed hcode => exact .inl ⟨_, hcode, rfl⟩
      | mountFailed hcode unregister => exact .inr ⟨_, unregister, hcode, rfl⟩

end

def sampleBdev : Ext4Blockdev := ⟨⟨2, 2, ⟨[0, 0], by decide⟩⟩, 0, 4⟩

theorem sampleMemory_wraps :
    BlockDeviceWrapper.new .checked sampleMemory = .ok ⟨sampleMemory, sampleBdev⟩ := rfl

theorem mount_recovers_before_journal_sample :
    (∃ id bdev wrapper,
      ((∃ fs, (Except.ok ⟨9, deviceNameOf 4, mountPointOf 4, false, true⟩ : Except Error Ext4Fs) =
        .ok fs) ∧ ∃ recover start,
          journaledMount 4 sampleBdev 9 EIO 0 = journaledMount id bdev wrapper recover start) ∨
      ((∃ e, (Except.ok ⟨9, deviceNameOf 4, mountPointOf 4, false, true⟩ : Except Error Ext4Fs) =
        .error e) ∧
        ((∃ register, register ≠ 0 ∧ journaledMount 4 sampleBdev 9 EIO 0 =
          refusedRegistration id bdev wrapper register) ∨
          ∃ mount unregister, mount ≠ 0 ∧ journaledMount 4 sampleBdev 9 EIO 0 =
            refusedMount id bdev wrapper false mount unregister))) ∧
    ∃ fs, Exec (.chaos Call Reply) (Ext4Fs.mount .checked sampleMemory false) ()
      (journaledMount 4 sampleBdev 9 EIO 0) (.ok (.ok fs)) () :=
  ⟨mount_recovers_before_journal.1 _ _ _ _ _ (journaledMount_exec sampleMemory_wraps 4 9 EIO 0),
    mount_recovers_before_journal.2 _ sampleMemory_wraps 4 9 EIO 0⟩

/-- A recovery that failed with an I/O error is journaled over. -/
theorem failed_recovery_journaled :
    ¬ ∀ (tr : List SysEvent) (fs : Ext4Fs) (noJournal : Int32), noJournal = ENOTSUP →
      Exec (.chaos Call Reply) (Ext4Fs.mount .checked sampleMemory false) () tr (.ok (.ok fs)) () →
      (∃ mp start, (⟨.ext4JournalStart mp, start⟩ : SysEvent) ∈ tr) →
      ∀ mp code, (⟨.ext4Recover mp, code⟩ : SysEvent) ∈ tr → code = 0 ∨ code = noJournal := by
  intro h
  have hcode := h (journaledMount 4 sampleBdev 9 EIO 0) _ ENOTSUP rfl
    (journaledMount_exec sampleMemory_wraps 4 9 EIO 0)
    ⟨mountPointOf 4, (0 : Int32), by simp [journaledMount]⟩
    (mountPointOf 4) EIO (by simp [journaledMount])
  exact absurd hcode (by decide)

end Ext4Lwext4.Metatheory
