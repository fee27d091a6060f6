import Ext4Lwext4.Metatheory.ApiCalls

/-! # From mount to the end of an instance

The calls that begin and end an instance, for every choice of return codes:
`mount` has four ways to go, dropping an instance has one, and `umount` has
three, each with the drop of its receiver behind it. -/

namespace Ext4Lwext4.Metatheory

open Ext4Lwext4.Framework Ext4Lwext4.Model

variable {E : Environment Call Reply} {s t : E.State} {tr : List SysEvent}

/-! ## Mounting -/

/-- The calls of `mount` from the registration of the device on. -/
inductive RegisteredTrace (wrapper : BdevPtr) (dn mp : CString) :
    Bool → List SysEvent → Except Error Ext4Fs → Prop
  | registerFailed {readOnly : Bool} {code : Int32} (h : code ≠ 0) :
      RegisteredTrace wrapper dn mp readOnly [⟨.ext4DeviceRegister wrapper dn, code⟩]
        (.error (.fromErrno code h))
  | mountFailed {readOnly : Bool} {code : Int32} (h : code ≠ 0) (unregister : Int32) :
      RegisteredTrace wrapper dn mp readOnly
        [⟨.ext4DeviceRegister wrapper dn, (0 : Int32)⟩, ⟨.ext4Mount dn mp readOnly, code⟩,
          ⟨.ext4DeviceUnregister dn, unregister⟩]
        (.error (.fromErrno code h))
  | readOnly (recover : Int32) :
      RegisteredTrace wrapper dn mp true
        [⟨.ext4DeviceRegister wrapper dn, (0 : Int32)⟩, ⟨.ext4Mount dn mp true, (0 : Int32)⟩,
          ⟨.ext4Recover mp, recover⟩]
        (.ok ⟨wrapper, dn, mp, true, false⟩)
  | readWrite (recover start : Int32) :
      RegisteredTrace wrapper dn mp false
        [⟨.ext4DeviceRegister wrapper dn, (0 : Int32)⟩, ⟨.ext4Mount dn mp false, (0 : Int32)⟩,
          ⟨.ext4Recover mp, recover⟩, ⟨.ext4JournalStart mp, start⟩]
        (.ok ⟨wrapper, dn, mp, false, decide (start = 0)⟩)

theorem mountRegistered_trace {wrapper : BdevPtr} {dn mp : CString} {readOnly : Bool}
    {o : Outcome (Except Error Ext4Fs)}
    (h : Exec E (Ext4Fs.mountRegistered wrapper dn mp readOnly).run s tr o t) :
    ∃ result, o = .ok result ∧ RegisteredTrace wrapper dn mp readOnly tr result := by
  obtain ⟨ret, u, tr, rfl, -, h⟩ := exec_run_request_bind h
  by_cases hret : ret = 0
  · subst hret
    rw [checkErrno_zero] at h
    obtain ⟨ret, u, tr, rfl, -, h⟩ := exec_run_request_bind h
    by_cases hret : ret = 0
    · subst hret
      obtain ⟨recover, u, tr, rfl, -, h⟩ := exec_run_request_bind h
      cases readOnly with
      | true =>
          obtain ⟨rfl, rfl, rfl⟩ := exec_run_ok h
          exact ⟨_, rfl, .readOnly recover⟩
      | false =>
          obtain ⟨start, u, tr, rfl, -, h⟩ := exec_run_request_bind h
          obtain ⟨rfl, rfl, rfl⟩ := exec_run_ok h
          exact ⟨_, rfl, .readWrite recover start⟩
    · simp only [dif_pos hret] at h
      obtain ⟨unregister, u, tr, rfl, -, h⟩ := exec_run_request_bind h
      obtain ⟨rfl, rfl, rfl⟩ := exec_run_error h
      exact ⟨_, rfl, .mountFailed hret unregister⟩
  · rw [checkErrno_of_ne hret] at h
    obtain ⟨rfl, rfl, rfl⟩ := Exec.done_iff.mp h
    exact ⟨_, rfl, .registerFailed hret⟩

/-- All calls of `mount`. The wrapper is dropped where no instance holds it. -/
inductive MountTrace (readOnly : Bool) : List SysEvent → Outcome (Except Error Ext4Fs) → Prop
  | panicked (id : UInt64) (why : Halt) :
      MountTrace readOnly [⟨.deviceCounterFetchAdd, id⟩] (.error why)
  | mounted (id : UInt64) (bdev : Ext4Blockdev) (wrapper : BdevPtr) {body : List SysEvent}
      {fs : Ext4Fs} :
      RegisteredTrace wrapper (deviceNameOf id) (mountPointOf id) readOnly body (.ok fs) →
      MountTrace readOnly (⟨.deviceCounterFetchAdd, id⟩ :: ⟨.boxWrapper bdev, wrapper⟩ :: body)
        (.ok (.ok fs))
  | failed (id : UInt64) (bdev : Ext4Blockdev) (wrapper : BdevPtr) {body : List SysEvent}
      {e : Error} :
      RegisteredTrace wrapper (deviceNameOf id) (mountPointOf id) readOnly body (.error e) →
      MountTrace readOnly (⟨.deviceCounterFetchAdd, id⟩ :: ⟨.boxWrapper bdev, wrapper⟩ ::
        (body ++ [⟨.dropWrapper wrapper, ()⟩])) (.ok (.error e))

theorem mount_trace {D : Type} [BlockDevice D] {build : Build} {device : D} {readOnly : Bool}
    {o : Outcome (Except Error Ext4Fs)}
    (h : Exec E (Ext4Fs.mount build device readOnly) s tr o t) : MountTrace readOnly tr o := by
  obtain ⟨id, u, tr, rfl, -, h⟩ := Exec.request_bind h
  cases hnew : BlockDeviceWrapper.new build device with
  | error why =>
      rw [hnew] at h
      obtain ⟨rfl, rfl, rfl⟩ := Exec.halt_iff.mp h
      exact .panicked id why
  | ok w =>
      rw [hnew] at h
      obtain ⟨wrapper, u, tr, rfl, -, h⟩ := Exec.request_bind h
      -- the wrapper is boxed: from here on it is an instance's or dropped
      rcases Exec.bind_iff.mp h with ⟨result, v, tr₁, tr₂, rfl, hbody, h⟩ | ⟨why, rfl, hbody⟩
      · obtain ⟨_, ⟨⟩, htrace⟩ := mountRegistered_trace hbody
        cases result with
        | ok fs =>
            obtain ⟨rfl, rfl, rfl⟩ := Exec.done_iff.mp h
            rw [List.append_nil]
            exact .mounted id w.bdev wrapper htrace
        | error e =>
            obtain ⟨_, u, tr, rfl, -, h⟩ := Exec.request_bind h
            obtain ⟨rfl, rfl, rfl⟩ := Exec.done_iff.mp h
            exact .failed id w.bdev wrapper htrace
      · obtain ⟨_, ⟨⟩, -⟩ := mountRegistered_trace hbody

/-! All four ways are open to a lwext4 that may return anything. -/

theorem RegisteredTrace.exec {wrapper : BdevPtr} {dn mp : CString} {readOnly : Bool}
    {result : Except Error Ext4Fs} (h : RegisteredTrace wrapper dn mp readOnly tr result) :
    Exec (.chaos Call Reply) (Ext4Fs.mountRegistered wrapper dn mp readOnly).run () tr
      (.ok result) () := by
  cases h with
  | @registerFailed _ code h =>
      refine Exec.chaos_call ?_
      show Exec _ (ExceptT.run (liftM (checkErrno code) >>= _)) _ _ _ _
      rw [checkErrno_of_ne h]
      exact .done _ _
  | @mountFailed _ code h unregister =>
      refine Exec.chaos_call (Exec.chaos_call ?_)
      show Exec _ (ExceptT.run (dite (code ≠ 0) _ _)) _ _ _ _
      rw [dif_pos h]
      exact Exec.chaos_call (.done _ _)
  | readOnly recover =>
      exact Exec.chaos_call (Exec.chaos_call (Exec.chaos_call (.done _ _)))
  | readWrite recover start =>
      exact Exec.chaos_call (Exec.chaos_call (Exec.chaos_call (Exec.chaos_call (.done _ _))))

section Exec

variable {D : Type} [BlockDevice D] {build : Build} {device : D} {w : BlockDeviceWrapper D}
  {readOnly : Bool} {body : List SysEvent}

theorem mount_exec (hnew : BlockDeviceWrapper.new build device = .ok w) (id : UInt64)
    (wrapper : BdevPtr) {fs : Ext4Fs}
    (h : RegisteredTrace wrapper (deviceNameOf id) (mountPointOf id) readOnly body (.ok fs)) :
    Exec (.chaos Call Reply) (Ext4Fs.mount build device readOnly) ()
      (⟨.deviceCounterFetchAdd, id⟩ :: ⟨.boxWrapper w.bdev, wrapper⟩ :: body)
      (.ok (.ok fs)) () := by
  refine Exec.chaos_call ?_
  rw [hnew]
  refine Exec.chaos_call ?_
  show Exec _ ((Ext4Fs.mountRegistered wrapper _ _ readOnly).run >>= _) _ _ _ _
  rw [← List.append_nil body]
  exact Exec.bind h.exec (.done _ _)

end Exec

/-! ## Dropping and unmounting -/

/-- The journal is stopped where it was started. -/
def stopCalls (fs : Ext4Fs) (code : Int32) : List SysEvent :=
  if fs.journalActive then [⟨.ext4JournalStop fs.mountPoint, code⟩] else []

/-- The calls of the drop of an instance, which looks at no code. -/
inductive DropTrace (fs : Ext4Fs) : List SysEvent → Prop
  | mk (stop flush umount unregister : Int32) :
      DropTrace fs (stopCalls fs stop ++ [⟨.ext4CacheFlush fs.mountPoint, flush⟩,
        ⟨.ext4Umount fs.mountPoint, umount⟩, ⟨.ext4DeviceUnregister fs.deviceName, unregister⟩,
        ⟨.dropWrapper fs.wrapper, ()⟩])

/-- The calls `umount` makes itself. -/
inductive UmountTrace (fs : Ext4Fs) : List SysEvent → Except Error Unit → Prop
  | umountFailed (stop flush : Int32) {code : Int32} (h : code ≠ 0) :
      UmountTrace fs (stopCalls fs stop ++ [⟨.ext4CacheFlush fs.mountPoint, flush⟩,
        ⟨.ext4Umount fs.mountPoint, code⟩]) (.error (.fromErrno code h))
  | unregisterFailed (stop flush : Int32) {code : Int32} (h : code ≠ 0) :
      UmountTrace fs (stopCalls fs stop ++ [⟨.ext4CacheFlush fs.mountPoint, flush⟩,
        ⟨.ext4Umount fs.mountPoint, (0 : Int32)⟩, ⟨.ext4DeviceUnregister fs.deviceName, code⟩])
        (.error (.fromErrno code h))
  | unmounted (stop flush : Int32) :
      UmountTrace fs (stopCalls fs stop ++ [⟨.ext4CacheFlush fs.mountPoint, flush⟩,
        ⟨.ext4Umount fs.mountPoint, (0 : Int32)⟩,
        ⟨.ext4DeviceUnregister fs.deviceName, (0 : Int32)⟩]) (.ok ())

/-- The calls that end an instance: those of the ending, and then the drop. -/
inductive FinishTrace (fs : Ext4Fs) : Ending → List SysEvent → Except Error Unit → Prop
  | dropped {tr : List SysEvent} : DropTrace fs tr → FinishTrace fs .drop tr (.ok ())
  | umounted {tr₁ tr₂ : List SysEvent} {result : Except Error Unit} :
      UmountTrace fs tr₁ result → DropTrace fs tr₂ → FinishTrace fs .umount (tr₁ ++ tr₂) result

variable {fs : Ext4Fs}

/-- The calls that let go of the mount and of the device. -/
inductive ReleaseCall (fs : Ext4Fs) : Call → Prop
  | journalStop : ReleaseCall fs (.ext4JournalStop fs.mountPoint)
  | cacheFlush : ReleaseCall fs (.ext4CacheFlush fs.mountPoint)
  | umount : ReleaseCall fs (.ext4Umount fs.mountPoint)
  | unregister : ReleaseCall fs (.ext4DeviceUnregister fs.deviceName)

theorem releaseCall_stopCalls (stop : Int32) : ∀ e ∈ stopCalls fs stop, ReleaseCall fs e.1 := by
  unfold stopCalls
  cases fs.journalActive with
  | true => simp [ReleaseCall.journalStop]
  | false => simp

/-- A list of calls is one of releases if what follows the stop is. -/
theorem releaseCall_append {stop : Int32} {rest : List SysEvent}
    (h : ∀ e ∈ rest, ReleaseCall fs e.1) : ∀ e ∈ stopCalls fs stop ++ rest, ReleaseCall fs e.1 := by
  intro e he
  rcases List.mem_append.mp he with he | he
  · exact releaseCall_stopCalls stop e he
  · exact h e he

theorem UmountTrace.releases {tr : List SysEvent} {result : Except Error Unit}
    (h : UmountTrace fs tr result) : ∀ e ∈ tr, ReleaseCall fs e.1 := by
  cases h with
  | umountFailed stop flush hcode =>
      exact releaseCall_append (by simp [ReleaseCall.cacheFlush, ReleaseCall.umount])
  | unregisterFailed stop flush hcode =>
      exact releaseCall_append
        (by simp [ReleaseCall.cacheFlush, ReleaseCall.umount, ReleaseCall.unregister])
  | unmounted stop flush =>
      exact releaseCall_append
        (by simp [ReleaseCall.cacheFlush, ReleaseCall.umount, ReleaseCall.unregister])

/-- The drop of the wrapper is the last thing a drop does. -/
theorem DropTrace.eq_concat {tr : List SysEvent} (h : DropTrace fs tr) :
    ∃ rest, tr = rest ++ [⟨.dropWrapper fs.wrapper, ()⟩] ∧ ∀ e ∈ rest, ReleaseCall fs e.1 := by
  cases h with
  | mk stop flush umount unregister =>
      refine ⟨stopCalls fs stop ++ [⟨.ext4CacheFlush fs.mountPoint, flush⟩,
        ⟨.ext4Umount fs.mountPoint, umount⟩, ⟨.ext4DeviceUnregister fs.deviceName, unregister⟩],
        by simp, releaseCall_append ?_⟩
      simp [ReleaseCall.cacheFlush, ReleaseCall.umount, ReleaseCall.unregister]

/-- So it is the last thing of every ending. -/
theorem FinishTrace.eq_concat {ending : Ending} {tr : List SysEvent} {result : Except Error Unit}
    (h : FinishTrace fs ending tr result) :
    ∃ rest, tr = rest ++ [⟨.dropWrapper fs.wrapper, ()⟩] ∧ ∀ e ∈ rest, ReleaseCall fs e.1 := by
  cases h with
  | dropped hdrop => exact hdrop.eq_concat
  | @umounted tr₁ tr₂ _ humount hdrop =>
      obtain ⟨rest, rfl, hrest⟩ := hdrop.eq_concat
      refine ⟨tr₁ ++ rest, (List.append_assoc ..).symm, ?_⟩
      intro e he
      rcases List.mem_append.mp he with he | he
      · exact humount.releases e he
      · exact hrest e he

theorem stopJournal_trace {o : Outcome Unit} (h : Exec E fs.stopJournal s tr o t) :
    o = .ok () ∧ ∃ code, tr = stopCalls fs code := by
  unfold Ext4Fs.stopJournal at h
  unfold stopCalls
  cases hj : fs.journalActive with
  | true =>
      simp only [hj, if_true] at h ⊢
      obtain ⟨code, u, tr, rfl, -, h⟩ := Exec.request_bind h
      obtain ⟨rfl, rfl, rfl⟩ := Exec.done_iff.mp h
      exact ⟨rfl, code, rfl⟩
  | false =>
      simp only [hj] at h ⊢
      obtain ⟨rfl, rfl, rfl⟩ := Exec.done_iff.mp h
      exact ⟨rfl, 0, rfl⟩

theorem dropGlue_trace {o : Outcome Unit} (h : Exec E fs.dropGlue s tr o t) :
    o = .ok () ∧ DropTrace fs tr := by
  unfold Ext4Fs.dropGlue Ext4Fs.drop at h
  rw [Prog.bind_assoc] at h
  rcases Exec.bind_iff.mp h with ⟨_, u, tr₁, tr₂, rfl, hstop, hrest⟩ | ⟨why, rfl, hstop⟩
  · obtain ⟨-, stop, rfl⟩ := stopJournal_trace hstop
    obtain ⟨flush, u, tr, rfl, -, h⟩ := Exec.request_bind hrest
    obtain ⟨umount, u, tr, rfl, -, h⟩ := Exec.request_bind h
    obtain ⟨unregister, u, tr, rfl, -, h⟩ := Exec.request_bind h
    obtain ⟨_, u, tr, rfl, -, h⟩ := Exec.request_bind h
    obtain ⟨rfl, rfl, rfl⟩ := Exec.done_iff.mp h
    exact ⟨rfl, .mk stop flush umount unregister⟩
  · exact nomatch (stopJournal_trace hstop).1

theorem umountBody_trace {o : Outcome (Except Error Unit)}
    (h : Exec E fs.umountBody.run s tr o t) :
    ∃ result, o = .ok result ∧ UmountTrace fs tr result := by
  unfold Ext4Fs.umountBody at h
  rcases exec_run_lift_bind h with ⟨_, u, tr₁, tr₂, rfl, hstop, hrest⟩ | ⟨why, rfl, hstop⟩
  · obtain ⟨-, stop, rfl⟩ := stopJournal_trace hstop
    obtain ⟨flush, u, tr, rfl, -, h⟩ := exec_run_request_bind hrest
    obtain ⟨ret, u, tr, rfl, -, h⟩ := exec_run_request_bind h
    by_cases hret : ret = 0
    · subst hret
      rw [checkErrno_zero] at h
      obtain ⟨ret, u, tr, rfl, -, h⟩ := exec_run_request_bind h
      obtain ⟨rfl, rfl, rfl⟩ := Exec.done_iff.mp h
      by_cases hret : ret = 0
      · subst hret
        exact ⟨_, rfl, .unmounted stop flush⟩
      · rw [checkErrno_of_ne hret]
        exact ⟨_, rfl, .unregisterFailed stop flush hret⟩
    · rw [checkErrno_of_ne hret] at h
      obtain ⟨rfl, rfl, rfl⟩ := Exec.done_iff.mp h
      exact ⟨_, rfl, .umountFailed stop flush hret⟩
  · exact nomatch (stopJournal_trace hstop).1

theorem finish_trace {ending : Ending} {o : Outcome (Except Error Unit)}
    (h : Exec E (fs.finish ending) s tr o t) :
    ∃ result, o = .ok result ∧ FinishTrace fs ending tr result := by
  cases ending with
  | drop =>
      rcases Exec.bind_iff.mp h with ⟨_, u, tr₁, tr₂, rfl, hdrop, h⟩ | ⟨why, rfl, hdrop⟩
      · obtain ⟨rfl, rfl, rfl⟩ := Exec.done_iff.mp h
        rw [List.append_nil]
        exact ⟨_, rfl, .dropped (dropGlue_trace hdrop).2⟩
      · exact nomatch (dropGlue_trace hdrop).1
  | umount =>
      rcases Exec.bind_iff.mp h with ⟨result, u, tr₁, tr₂, rfl, hbody, h⟩ | ⟨why, rfl, hbody⟩
      · obtain ⟨_, ⟨⟩, hbody⟩ := umountBody_trace hbody
        -- `self` goes out of scope, whatever the body returned
        rcases Exec.bind_iff.mp h with ⟨_, v, tr₂, tr₃, rfl, hdrop, h⟩ | ⟨why, rfl, hdrop⟩
        · obtain ⟨rfl, rfl, rfl⟩ := Exec.done_iff.mp h
          rw [List.append_nil]
          exact ⟨_, rfl, .umounted hbody (dropGlue_trace hdrop).2⟩
        · exact nomatch (dropGlue_trace hdrop).1
      · obtain ⟨_, ⟨⟩, -⟩ := umountBody_trace hbody

theorem stopJournal_exec (stop : Int32) :
    Exec (.chaos Call Reply) fs.stopJournal () (stopCalls fs stop) (.ok ()) () := by
  unfold Ext4Fs.stopJournal stopCalls
  cases fs.journalActive with
  | true => exact Exec.chaos_call (.done _ _)
  | false => exact .done _ _

theorem DropTrace.exec (h : DropTrace fs tr) :
    Exec (.chaos Call Reply) fs.dropGlue () tr (.ok ()) () := by
  cases h with
  | mk stop flush umount unregister =>
      unfold Ext4Fs.dropGlue Ext4Fs.drop
      rw [Prog.bind_assoc]
      refine Exec.bind (stopJournal_exec stop) ?_
      exact Exec.chaos_call (Exec.chaos_call (Exec.chaos_call (Exec.chaos_call (.done _ _))))

theorem UmountTrace.exec {result : Except Error Unit} (h : UmountTrace fs tr result) :
    Exec (.chaos Call Reply) fs.umountBody.run () tr (.ok result) () := by
  unfold Ext4Fs.umountBody
  rw [run_lift_bind]
  cases h with
  | @umountFailed stop flush code h =>
      refine Exec.bind (stopJournal_exec stop) (Exec.chaos_call (Exec.chaos_call ?_))
      show Exec _ (ExceptT.run (liftM (checkErrno code) >>= _)) _ _ _ _
      rw [checkErrno_of_ne h]
      exact .done _ _
  | @unregisterFailed stop flush code h =>
      refine Exec.bind (stopJournal_exec stop) (Exec.chaos_call (Exec.chaos_call ?_))
      refine Exec.chaos_call ?_
      show Exec _ (.done (checkErrno code)) _ _ _ _
      rw [checkErrno_of_ne h]
      exact .done _ _
  | unmounted stop flush =>
      refine Exec.bind (stopJournal_exec stop) (Exec.chaos_call (Exec.chaos_call ?_))
      exact Exec.chaos_call (.done _ _)

theorem FinishTrace.exec {ending : Ending} {result : Except Error Unit}
    (h : FinishTrace fs ending tr result) :
    Exec (.chaos Call Reply) (fs.finish ending) () tr (.ok result) () := by
  cases h with
  | dropped h =>
      rw [← List.append_nil tr]
      exact Exec.bind h.exec (.done _ _)
  | @umounted tr₁ tr₂ _ h hdrop =>
      show Exec _ (fs.umountBody.run >>= fun result => fs.dropGlue >>= fun _ => .done result)
        _ _ _ _
      refine Exec.bind h.exec ?_
      rw [← List.append_nil tr₂]
      exact Exec.bind hdrop.exec (.done _ _)

end Ext4Lwext4.Metatheory
