import Ext4Lwext4.Metatheory.MountRecovery

/-! # Teardown

What is sent to lwext4 at the end of an instance. `umount` takes the instance
by value, so its `drop` runs behind it and sends the teardown a second time:
harmless where the first unmount failed, a call on a mount point that is gone
where it succeeded. -/

namespace Ext4Lwext4.Metatheory

open Ext4Lwext4.Framework Ext4Lwext4.Model

variable {fs : Ext4Fs}

/-- The calls of a teardown that name the mount point. -/
def NamesMountPoint (mp : CString) (c : Call) : Prop :=
  c = .ext4JournalStop mp ∨ c = .ext4CacheFlush mp ∨ c = .ext4Umount mp

/-- What may be sent after `a`: nothing that names the mount point once it has
been unmounted, no second unregistration once the device is unregistered. -/
structure MayPrecede (fs : Ext4Fs) (a b : SysEvent) : Prop where
  umounted : a = ⟨.ext4Umount fs.mountPoint, (0 : Int32)⟩ → ¬ NamesMountPoint fs.mountPoint b.1
  unregistered : a = ⟨.ext4DeviceUnregister fs.deviceName, (0 : Int32)⟩ →
    b.1 ≠ .ext4DeviceUnregister fs.deviceName

def TornDownOnce (fs : Ext4Fs) (tr : List SysEvent) : Prop := tr.Pairwise (MayPrecede fs)

/-- An event that ends nothing. -/
def Inert (fs : Ext4Fs) (a : SysEvent) : Prop :=
  a ≠ ⟨.ext4Umount fs.mountPoint, (0 : Int32)⟩ ∧
    a ≠ ⟨.ext4DeviceUnregister fs.deviceName, (0 : Int32)⟩

theorem Inert.mayPrecede {a : SysEvent} (h : Inert fs a) (b : SysEvent) : MayPrecede fs a b :=
  ⟨fun ha => absurd ha h.1, fun ha => absurd ha h.2⟩

/-- Whatever comes before the first end does not matter. -/
theorem tornDownOnce_append {l₁ l₂ : List SysEvent} (h : ∀ a ∈ l₁, Inert fs a) :
    TornDownOnce fs (l₁ ++ l₂) ↔ TornDownOnce fs l₂ := by
  unfold TornDownOnce
  rw [List.pairwise_append]
  constructor
  · exact fun hp => hp.2.1
  · refine fun hp => ⟨?_, hp, fun a ha b _ => (h a ha).mayPrecede b⟩
    exact List.pairwise_of_forall_mem_list fun a ha b _ => (h a ha).mayPrecede b

/-! ## Up to the end -/

theorem inert_of_lifecycle {a : SysEvent} (h : Call.isLifecycle a.1 = false) : Inert fs a := by
  constructor <;> rintro rfl <;> cases h

theorem inert_mount {wrapper : BdevPtr} {dn mp : CString} {readOnly : Bool} {fs' : Ext4Fs}
    {body : List SysEvent} (h : RegisteredTrace wrapper dn mp readOnly body (.ok fs')) :
    ∀ a ∈ body, Inert fs a := by
  cases h with
  | readOnly recover => simp [Inert]
  | readWrite recover start => simp [Inert]

theorem inert_mountTrace {readOnly : Bool} {tr : List SysEvent}
    (h : MountTrace readOnly tr (.ok (.ok fs))) : ∀ a ∈ tr, Inert fs a := by
  cases h with
  | mounted id bdev wrapper hbody =>
      intro a ha
      rcases List.mem_cons.mp ha with rfl | ha
      · simp [Inert]
      rcases List.mem_cons.mp ha with rfl | ha
      · simp [Inert]
      · exact inert_mount hbody a ha

theorem inert_stopCalls (stop : Int32) : ∀ a ∈ stopCalls fs stop, Inert fs a := by
  unfold stopCalls
  cases fs.journalActive <;> simp [Inert]

/-! ## The end -/

/-- The instance was ended by `umount`, and its own unmount returned `0`. -/
def UnmountSucceeded (fs : Ext4Fs) (ending : Ending) (tr : List SysEvent) : Prop :=
  ending = .umount ∧ ∃ stop flush rest, tr = stopCalls fs stop ++
    ⟨.ext4CacheFlush fs.mountPoint, flush⟩ :: ⟨.ext4Umount fs.mountPoint, (0 : Int32)⟩ :: rest

theorem length_stopCalls (stop stop' : Int32) :
    (stopCalls fs stop).length = (stopCalls fs stop').length := by
  unfold stopCalls
  cases fs.journalActive <;> rfl

/-- The drop alone tears down once. -/
theorem DropTrace.tornDownOnce {tr : List SysEvent} (h : DropTrace fs tr) : TornDownOnce fs tr := by
  cases h with
  | mk stop flush umount unregister =>
      rw [tornDownOnce_append (inert_stopCalls stop)]
      unfold TornDownOnce
      simp only [List.pairwise_cons, List.mem_cons, List.not_mem_nil, or_false, forall_eq_or_imp,
        forall_eq, List.Pairwise.nil, and_true, IsEmpty.forall_iff, implies_true]
      refine ⟨⟨?_, ?_, ?_⟩, ⟨?_, ?_⟩, ?_⟩ <;> constructor <;>
        simp [NamesMountPoint]

/-- The drop behind a successful unmount flushes a mount point that is gone. -/
theorem not_tornDownOnce_of_umounted {tr₁ tr₂ : List SysEvent} (hdrop : DropTrace fs tr₂)
    (h : ⟨.ext4Umount fs.mountPoint, (0 : Int32)⟩ ∈ tr₁) : ¬ TornDownOnce fs (tr₁ ++ tr₂) := by
  intro hp
  cases hdrop with
  | mk stop flush umount unregister =>
      have hnot := ((List.pairwise_append.mp hp).2.2 _ h
        ⟨.ext4CacheFlush fs.mountPoint, flush⟩ (by simp)).umounted rfl
      exact hnot (.inr (.inl rfl))

theorem finish_tornDownOnce_iff {ending : Ending} {tr : List SysEvent}
    {result : Except Error Unit} (h : FinishTrace fs ending tr result) :
    TornDownOnce fs tr ↔ ¬ UnmountSucceeded fs ending tr := by
  cases h with
  | dropped hdrop => exact iff_of_true hdrop.tornDownOnce (fun h => nomatch h.1)
  | @umounted tr₁ tr₂ _ humount hdrop =>
      cases humount with
      | @umountFailed stop flush code hcode =>
          -- the mount point is still there, so the drop's teardown is the only one
          rw [tornDownOnce_append]
          · refine iff_of_true hdrop.tornDownOnce ?_
            rintro ⟨-, stop', flush', rest, htr⟩
            rw [List.append_assoc] at htr
            obtain ⟨-, htr⟩ := List.append_inj htr (length_stopCalls stop stop')
            simp only [List.cons_append, List.cons.injEq, Sigma.mk.injEq, heq_eq_eq,
              true_and] at htr
            exact hcode htr.2.1
          · intro a ha
            rcases List.mem_append.mp ha with ha | ha
            · exact inert_stopCalls stop a ha
            · simp only [List.mem_cons, List.not_mem_nil, or_false] at ha
              rcases ha with rfl | rfl
              · simp [Inert]
              · simp [Inert, hcode]
      | @unregisterFailed stop flush code hcode =>
          refine iff_of_false (not_tornDownOnce_of_umounted hdrop (by simp)) (not_not.mpr ?_)
          exact ⟨rfl, stop, flush, _, by rw [List.append_assoc]; rfl⟩
      | unmounted stop flush =>
          refine iff_of_false (not_tornDownOnce_of_umounted hdrop (by simp)) (not_not.mpr ?_)
          exact ⟨rfl, stop, flush, _, by rw [List.append_assoc]; rfl⟩

/-! ## Whole lives -/

/-- Over everything sent for an instance from its mount to its end, whatever
the client did in between and whatever lwext4 returned: the teardown is sent
once unless `umount` unmounted. -/
theorem teardown_once_iff {D : Type} [BlockDevice D] (build : Build) {device : D}
    {readOnly : Bool} {E : Environment Call Reply} {s u t v : E.State} {c : Option Client}
    {mountTrace endTrace : List SysEvent} {performed : List Performed} {ending : Ending}
    {result : Except Error Unit}
    (hmount : Exec E (Ext4Fs.mount build device readOnly) s mountTrace (.ok (.ok fs)) u)
    (hrun : Runs (Client.Step build E) (some (.mounted fs), u) performed (c, t))
    (hend : Exec E (fs.finish ending) t endTrace (.ok result) v) :
    TornDownOnce fs (mountTrace ++ calls performed ++ endTrace) ↔
      ¬ UnmountSucceeded fs ending endTrace := by
  rw [tornDownOnce_append]
  · obtain ⟨_, -, hfinish⟩ := finish_trace hend
    exact finish_tornDownOnce_iff hfinish
  · intro a ha
    rcases List.mem_append.mp ha with ha | ha
    · exact inert_mountTrace (mount_trace hmount) a ha
    · obtain ⟨op, hop⟩ := calls_mayCall hrun (serves_mounted u) a ha
      exact inert_of_lifecycle hop.not_lifecycle

def sampleFs : Ext4Fs := ⟨9, deviceNameOf 4, mountPointOf 4, false, true⟩

theorem sampleFs_mounted :
    Exec (.chaos Call Reply) (Ext4Fs.mount .checked sampleMemory false) ()
      (journaledMount 4 sampleBdev 9 0 0) (.ok (.ok sampleFs)) () :=
  journaledMount_exec sampleMemory_wraps 4 9 0 0

/-- An unmount whose every call succeeds, and the drop behind it. -/
theorem sampleFs_umounted (umount unregister : Int32) :
    Exec (.chaos Call Reply) (sampleFs.finish .umount) ()
      (stopCalls sampleFs 0 ++ [⟨.ext4CacheFlush sampleFs.mountPoint, (0 : Int32)⟩,
        ⟨.ext4Umount sampleFs.mountPoint, (0 : Int32)⟩,
        ⟨.ext4DeviceUnregister sampleFs.deviceName, (0 : Int32)⟩] ++
        (stopCalls sampleFs 0 ++ [⟨.ext4CacheFlush sampleFs.mountPoint, (0 : Int32)⟩,
          ⟨.ext4Umount sampleFs.mountPoint, umount⟩,
          ⟨.ext4DeviceUnregister sampleFs.deviceName, unregister⟩,
          ⟨.dropWrapper sampleFs.wrapper, ()⟩]))
      (.ok (.ok ())) () :=
  FinishTrace.exec (.umounted (.unmounted 0 0) (.mk 0 0 umount unregister))

theorem sampleFs_dropped (umount : Int32) :
    Exec (.chaos Call Reply) (sampleFs.finish .drop) ()
      (stopCalls sampleFs 0 ++ [⟨.ext4CacheFlush sampleFs.mountPoint, (0 : Int32)⟩,
        ⟨.ext4Umount sampleFs.mountPoint, umount⟩,
        ⟨.ext4DeviceUnregister sampleFs.deviceName, (0 : Int32)⟩,
        ⟨.dropWrapper sampleFs.wrapper, ()⟩])
      (.ok (.ok ())) () :=
  FinishTrace.exec (.dropped (.mk 0 0 umount 0))

theorem teardown_once_iff_dropped :
    TornDownOnce sampleFs (journaledMount 4 sampleBdev 9 0 0 ++ calls [] ++
        (stopCalls sampleFs 0 ++ [⟨.ext4CacheFlush sampleFs.mountPoint, (0 : Int32)⟩,
          ⟨.ext4Umount sampleFs.mountPoint, (0 : Int32)⟩,
          ⟨.ext4DeviceUnregister sampleFs.deviceName, (0 : Int32)⟩,
          ⟨.dropWrapper sampleFs.wrapper, ()⟩])) ↔
      ¬ UnmountSucceeded sampleFs .drop
        (stopCalls sampleFs 0 ++ [⟨.ext4CacheFlush sampleFs.mountPoint, (0 : Int32)⟩,
          ⟨.ext4Umount sampleFs.mountPoint, (0 : Int32)⟩,
          ⟨.ext4DeviceUnregister sampleFs.deviceName, (0 : Int32)⟩,
          ⟨.dropWrapper sampleFs.wrapper, ()⟩]) :=
  teardown_once_iff .checked sampleFs_mounted (.nil _) (sampleFs_dropped 0)

/-- An unmount that returned `Ok` is followed by a second teardown. -/
theorem umount_tears_down_twice :
    ¬ ∀ (fs : Ext4Fs) (mountTrace endTrace : List SysEvent) (result : Except Error Unit),
      Exec (.chaos Call Reply) (Ext4Fs.mount .checked sampleMemory false) () mountTrace
        (.ok (.ok fs)) () →
      Exec (.chaos Call Reply) (fs.finish .umount) () endTrace (.ok result) () →
      TornDownOnce fs (mountTrace ++ endTrace) := by
  intro h
  have honce := h sampleFs _ _ _ sampleFs_mounted (sampleFs_umounted 0 0)
  rw [← List.append_assoc] at honce
  refine not_tornDownOnce_of_umounted (.mk 0 0 0 0) ?_ honce
  simp

end Ext4Lwext4.Metatheory
