import Ext4Lwext4.Metatheory.Teardown

/-! # What `umount` reports

`umount` stops the journal and flushes the cache before it unmounts, and looks
at the codes of the last two of its four calls only. A write that the first two
could not bring to the device is reported exactly when a later call fails as
well. -/

namespace Ext4Lwext4.Metatheory

open Ext4Lwext4.Framework Ext4Lwext4.Model

/-- The calls that bring what is pending to the device. -/
def Commits : Call → Prop
  | .ext4JournalStop _ | .ext4CacheFlush _ => True
  | _ => False

/-- The result tells of the calls: `Ok` exactly when none of them failed, and
an error is the code of one that did. -/
structure ReportsFailures (body : List SysEvent) (result : Except Error Unit) : Prop where
  ok_iff : result = .ok () ↔ ∀ e ∈ body, ¬ Failed e
  error : ∀ err, result = .error err →
    ∃ e ∈ body, ∃ h : returnCode e.1 e.2 ≠ 0, err = .fromErrno (returnCode e.1 e.2) h

/-- No commit failed, or a call after the commits failed too. -/
def LossIsSeen (body : List SysEvent) : Prop :=
  (∀ e ∈ body, Commits e.1 → ¬ Failed e) ∨ ∃ e ∈ body, ¬ Commits e.1 ∧ Failed e

section Body

variable {fs : Ext4Fs} {stop : Int32}

theorem commits_stopCalls : ∀ e ∈ stopCalls fs stop, Commits e.1 := by
  unfold stopCalls
  cases fs.journalActive with
  | true => simp [Commits]
  | false => simp

/-- A body that returned an error reports it and was seen to fail. -/
theorem reportsFailures_of_failed {body : List SysEvent} {e : SysEvent} (he : e ∈ body)
    (hc : ¬ Commits e.1) (h : returnCode e.1 e.2 ≠ 0) :
    ReportsFailures body (.error (.fromErrno (returnCode e.1 e.2) h)) ↔ LossIsSeen body := by
  refine iff_of_true ⟨⟨nofun, fun hall => absurd h (hall e he)⟩, ?_⟩ (.inr ⟨e, he, hc, h⟩)
  intro err herr
  cases herr
  exact ⟨e, he, h, rfl⟩

/-- Over the calls `umount` makes itself, with any codes. -/
theorem UmountTrace.reportsFailures_iff {body : List SysEvent} {result : Except Error Unit}
    (h : UmountTrace fs body result) : ReportsFailures body result ↔ LossIsSeen body := by
  cases h with
  | @umountFailed stop flush code hcode =>
      exact reportsFailures_of_failed (e := ⟨.ext4Umount fs.mountPoint, code⟩) (by simp) id hcode
  | @unregisterFailed stop flush code hcode =>
      exact reportsFailures_of_failed (e := ⟨.ext4DeviceUnregister fs.deviceName, code⟩)
        (by simp) id hcode
  | unmounted stop flush =>
      -- the two calls whose codes are looked at succeeded
      have hrest : ∀ e ∈ stopCalls fs stop ++ [⟨.ext4CacheFlush fs.mountPoint, flush⟩,
          ⟨.ext4Umount fs.mountPoint, (0 : Int32)⟩,
          ⟨.ext4DeviceUnregister fs.deviceName, (0 : Int32)⟩], Failed e → Commits e.1 := by
        intro e he hfail
        rcases List.mem_append.mp he with he | he
        · exact commits_stopCalls e he
        · simp only [List.mem_cons, List.not_mem_nil, or_false] at he
          rcases he with rfl | rfl | rfl
          · trivial
          · exact absurd rfl hfail
          · exact absurd rfl hfail
      constructor
      · exact fun hr => .inl fun e he _ => hr.ok_iff.mp rfl e he
      · rintro (hall | ⟨e, he, hc, hfail⟩)
        · exact ⟨⟨fun _ e he hf => hall e he (hrest e he hf) hf, fun _ => rfl⟩, nofun⟩
        · exact absurd (hrest e he hfail) hc

end Body

/-- Whatever lwext4 returns, `umount` returns, and its result tells of its
calls exactly when no loss was hidden from it. -/
theorem umount_reports_iff {E : Environment Call Reply} {fs : Ext4Fs} {s t : E.State}
    {tr : List SysEvent} {o : Outcome (Except Error Unit)} (h : Exec E fs.umount s tr o t) :
    ∃ result body rest, o = .ok result ∧ tr = body ++ rest ∧ UmountTrace fs body result ∧
      DropTrace fs rest ∧ (ReportsFailures body result ↔ LossIsSeen body) := by
  have hend : Exec E (fs.finish .umount) s tr o t := h
  obtain ⟨result, rfl, hfinish⟩ := finish_trace hend
  cases hfinish with
  | @umounted body rest _ hbody hrest =>
      exact ⟨result, body, rest, rfl, rfl, hbody, hrest, hbody.reportsFailures_iff⟩

theorem umount_reports_iff_sample :
    ∃ result body rest, (Except.ok (.ok ()) : Outcome (Except Error Unit)) = .ok result ∧
      stopCalls sampleFs 0 ++ [⟨.ext4CacheFlush sampleFs.mountPoint, (0 : Int32)⟩,
        ⟨.ext4Umount sampleFs.mountPoint, (0 : Int32)⟩,
        ⟨.ext4DeviceUnregister sampleFs.deviceName, (0 : Int32)⟩] ++
        (stopCalls sampleFs 0 ++ [⟨.ext4CacheFlush sampleFs.mountPoint, (0 : Int32)⟩,
          ⟨.ext4Umount sampleFs.mountPoint, ENOENT⟩,
          ⟨.ext4DeviceUnregister sampleFs.deviceName, ENOENT⟩,
          ⟨.dropWrapper sampleFs.wrapper, ()⟩]) = body ++ rest ∧
      UmountTrace sampleFs body result ∧ DropTrace sampleFs rest ∧
      (ReportsFailures body result ↔ LossIsSeen body) :=
  umount_reports_iff (sampleFs_umounted ENOENT ENOENT)

/-- The flush fails with `EIO`, and `umount` returns `Ok`. -/
theorem failed_flush_not_reported :
    ¬ ∀ (fs : Ext4Fs) (body rest : List SysEvent) (result : Except Error Unit),
      Exec (.chaos Call Reply) fs.umount () (body ++ rest) (.ok result) () →
      UmountTrace fs body result → DropTrace fs rest → ReportsFailures body result := by
  intro h
  have hreports := h sampleFs _ _ _ (FinishTrace.exec (.umounted (.unmounted 0 EIO)
    (.mk 0 0 ENOENT ENOENT))) (.unmounted 0 EIO) (.mk 0 0 ENOENT ENOENT)
  exact hreports.ok_iff.mp rfl ⟨.ext4CacheFlush sampleFs.mountPoint, EIO⟩ (by simp) EIO_ne_zero

end Ext4Lwext4.Metatheory
