import Ext4Lwext4.Metatheory.MountRecovery
import Ext4Lwext4.Model.Threads

/-! # Exclusive access to the device

The device sits in an `UnsafeCell`, and its callbacks take references to it on
the word of the lock callbacks. These return at once, so the device is
exclusive exactly as long as the threads never need them. -/

namespace Ext4Lwext4.Metatheory

open Ext4Lwext4.Framework Ext4Lwext4.Model

variable {ι D : Type}

/-- A thread that has the device by `as_mut` has it alone. -/
def Exclusive (s : Threads ι D) : Prop :=
  ∀ i j cb cb', i ≠ j → s.phase i = .inside cb → s.phase j = .inside cb' → ¬ cb.TakesMut

/-- Between the two lock callbacks. -/
def Critical : Phase → Prop
  | .locked | .left => True
  | .inside cb => cb.IsTransfer
  | .idle | .running => False

/-- The lock callback is called only when no other thread is between its lock
and its unlock. -/
def Uncontended (s : Threads ι D) (l : ι × ThreadAction) : Prop :=
  l.2 = .lock → ∀ j, j ≠ l.1 → ¬ Critical (s.phase j)

/-! ## Uncontended runs -/

/-- At most one thread is between the lock callbacks, and only the owner of an
instance that is not shared does anything at all. -/
structure Serial (s : Threads ι D) : Prop where
  critical : ∀ i j, Critical (s.phase i) → Critical (s.phase j) → i = j
  alone : ∀ i j, s.stage.OwnedBy i → j ≠ i → s.phase j = .idle
  owned : ∀ i cb, s.phase i = .inside cb → ¬ cb.IsTransfer → s.stage.OwnedBy i

theorem serial_of_quiet {s : Threads ι D} {i : ι}
    (hi : s.phase i = .idle ∨ s.phase i = .running) (hothers : ∀ j, j ≠ i → s.phase j = .idle)
    (howner : ∀ j, s.stage.OwnedBy j → j = i) : Serial s := by
  have hquiet : ∀ j, s.phase j = .idle ∨ s.phase j = .running := by
    intro j
    by_cases hj : j = i
    · rw [hj]
      exact hi
    · exact .inl (hothers j hj)
  refine ⟨?_, ?_, ?_⟩
  · intro j k hj _
    -- nobody is between the lock callbacks
    rcases hquiet j with h | h
    · rw [h] at hj
      cases hj
    · rw [h] at hj
      cases hj
  · intro j k hj hk
    rw [howner j hj] at hk
    exact hothers k hk
  · intro j cb hj _
    rcases hquiet j with h | h
    · cases h.symm.trans hj
    · cases h.symm.trans hj

theorem Serial.exclusive {s : Threads ι D} (hs : Serial s) : Exclusive s := by
  intro i j cb cb' hij hi hj hmut
  by_cases hcb : cb.IsTransfer
  · by_cases hcb' : cb'.IsTransfer
    · -- both would be between the lock callbacks
      have hci : Critical (s.phase i) := by
        rw [hi]
        exact hcb
      have hcj : Critical (s.phase j) := by
        rw [hj]
        exact hcb'
      exact hij (hs.critical i j hci hcj)
    · cases hi.symm.trans (hs.alone j i (hs.owned j cb' hj hcb') hij)
  · cases hj.symm.trans (hs.alone i j (hs.owned i cb hi hcb) (Ne.symm hij))

section Step

variable [DecidableEq ι]

/-- A thread that owns the instance, or found it shared, may go on to `p`
where nobody else is between the lock callbacks. -/
theorem Serial.goto {s : Threads ι D} (hs : Serial s) {i : ι} {p : Phase}
    {w : BlockDeviceWrapper D} (hi : s.phase i ≠ .idle ∨ s.stage = .shared)
    (hcritical : Critical p → ∀ j, j ≠ i → ¬ Critical (s.phase j))
    (howned : ∀ cb, p = .inside cb → ¬ cb.IsTransfer → s.stage.OwnedBy i) :
    Serial { s.goto i p with wrapper := w } := by
  refine ⟨?_, ?_, ?_⟩
  · intro j k hj hk
    change Critical ((s.goto i p).phase j) at hj
    change Critical ((s.goto i p).phase k) at hk
    by_cases hji : j = i
    · by_cases hki : k = i
      · rw [hji, hki]
      · rw [hji, Threads.goto_phase_self] at hj
        rw [s.goto_phase_of_ne p hki] at hk
        exact absurd hk (hcritical hj k hki)
    · rw [s.goto_phase_of_ne p hji] at hj
      by_cases hki : k = i
      · rw [hki, Threads.goto_phase_self] at hk
        exact absurd hj (hcritical hk j hji)
      · rw [s.goto_phase_of_ne p hki] at hk
        exact hs.critical j k hj hk
  · intro j k hj hk
    show (s.goto i p).phase k = .idle
    change s.stage.OwnedBy j at hj
    by_cases hki : k = i
    · rcases hi with hi | hshared
      · exact absurd (hs.alone j i hj (hki ▸ hk)) hi
      · rw [hshared] at hj
        cases hj
    · rw [s.goto_phase_of_ne p hki]
      exact hs.alone j k hj hk
  · intro j cb hj hcb
    change (s.goto i p).phase j = .inside cb at hj
    show s.stage.OwnedBy j
    by_cases hji : j = i
    · rw [hji, Threads.goto_phase_self] at hj
      rw [hji]
      exact howned cb hj hcb
    · rw [s.goto_phase_of_ne p hji] at hj
      exact hs.owned j cb hj hcb

theorem mounting_serial (w : BlockDeviceWrapper D) (i : ι) : Serial (Threads.mounting w i) :=
  serial_of_quiet (.inr (Threads.mounting_phase_self w i))
    (fun _ hj => Threads.mounting_phase_of_ne w hj) fun _ h => Eq.symm h

theorem not_isTransfer_of_opensOrCloses {cb : Callback} (h : cb.OpensOrCloses) :
    ¬ cb.IsTransfer := by
  cases cb <;> first | exact id | cases h

variable [BlockDevice D] {build : Build}

/-- As long as no lock is contended, the threads stay in line. -/
theorem step_serial {s t : Threads ι D} {l : ι × ThreadAction}
    (h : Guarded Uncontended (Threads.Step build) s l t) (hs : Serial s) : Serial t := by
  obtain ⟨hguard, hstep⟩ := h
  -- a thread that is between the lock callbacks already keeps the others out
  have hholds {i : ι} (hi : Critical (s.phase i)) : ∀ j, j ≠ i → ¬ Critical (s.phase j) := by
    intro j hj hc
    exact hj (hs.critical j i hc hi)
  cases hstep with
  | @mounted i hstage hi =>
      refine serial_of_quiet (.inl (s.goto_phase_self i _)) (fun j hj => ?_) nofun
      have howned : s.stage.OwnedBy i := by
        rw [hstage]
        rfl
      exact (s.goto_phase_of_ne _ hj).trans (hs.alone i j howned hj)
  | call hstage hi => exact hs.goto (.inr hstage) nofun nofun
  | reply hstage hi => exact hs.goto (.inr hstage) nofun nofun
  | @take i hstage hidle =>
      refine serial_of_quiet (.inr (s.goto_phase_self i _)) (fun j hj => ?_) ?_
      · exact (s.goto_phase_of_ne _ hj).trans (hidle j)
      · exact fun j hj => Eq.symm hj
  | lock hi hcode =>
      refine hs.goto (.inl ?_) (fun _ => hguard rfl) nofun
      rw [hi]
      exact nofun
  | enter hi hcb =>
      refine hs.goto (.inl ?_) (fun _ => hholds ?_) ?_
      · rw [hi]
        exact nofun
      · rw [hi]
        trivial
      · rintro _ ⟨rfl⟩ hno
        exact absurd hcb hno
  | leave hi hcb hcode =>
      refine hs.goto (.inl ?_) (fun _ => hholds ?_) nofun
      · rw [hi]
        exact nofun
      · rw [hi]
        exact hcb
  | unlock hi hcode =>
      refine hs.goto (.inl ?_) nofun nofun
      rw [hi]
      exact nofun
  | enterAlone hstage hi hcb =>
      refine hs.goto (.inl ?_) (fun hc => ?_) fun _ _ _ => hstage
      · rw [hi]
        exact nofun
      · exact absurd hc (not_isTransfer_of_opensOrCloses hcb)
  | leaveAlone hi hcb hcode =>
      refine hs.goto (.inl ?_) nofun nofun
      rw [hi]
      exact nofun

end Step

/-! ## Contended runs -/

/-- A write of one block, as good as any other. -/
def someWrite : Callback := .bwrite (fun _ => 0) 0 1

theorem not_exclusive {s : Threads ι D} {i j : ι} {cb : Callback} (hij : i ≠ j)
    (hi : s.phase i = .inside someWrite) (hj : s.phase j = .inside cb) : ¬ Exclusive s := by
  intro h
  exact h i j _ cb hij hi hj trivial

section Contended

variable [DecidableEq ι] [BlockDevice D]

/-- Two threads whose lock callbacks have returned can both enter `bwrite`. -/
theorem both_enter (build : Build) {s : Threads ι D} {i j : ι} (hij : i ≠ j)
    (hi : s.phase i = .locked) (hj : s.phase j = .locked) :
    ∃ ls t, Runs (Threads.Step build) s ls t ∧ ¬ Exclusive t := by
  have hj' : (s.goto i (.inside someWrite)).phase j = .locked := by
    rw [s.goto_phase_of_ne _ (Ne.symm hij)]
    exact hj
  have henter : Threads.Step build s (i, .enter someWrite) (s.goto i (.inside someWrite)) :=
    .enter hi trivial
  have henter' : Threads.Step build (s.goto i (.inside someWrite)) (j, .enter someWrite)
      ((s.goto i (.inside someWrite)).goto j (.inside someWrite)) := .enter hj' trivial
  refine ⟨_, _, .cons henter (.single henter'), ?_⟩
  refine not_exclusive hij ?_ (Threads.goto_phase_self _ _ _)
  rw [Threads.goto_phase_of_ne _ _ hij, Threads.goto_phase_self]

/-- Once the lock callback of a thread has returned while another thread was
between its own, nothing keeps the two apart. -/
theorem overlap_reaches (build : Build) {s : Threads ι D} {i j : ι} (hij : i ≠ j)
    (hi : s.phase i = .locked) (hj : Critical (s.phase j)) :
    ∃ ls t, Runs (Threads.Step build) s ls t ∧ ¬ Exclusive t := by
  cases hphase : s.phase j with
  | idle =>
      rw [hphase] at hj
      cases hj
  | running =>
      rw [hphase] at hj
      cases hj
  | locked => exact both_enter build hij hi hphase
  | inside cb =>
      have henter : Threads.Step build s (i, .enter someWrite) (s.goto i (.inside someWrite)) :=
        .enter hi trivial
      have hinside : (s.goto i (.inside someWrite)).phase j = .inside cb := by
        rw [s.goto_phase_of_ne _ (Ne.symm hij)]
        exact hphase
      exact ⟨_, _, .single henter, not_exclusive hij (Threads.goto_phase_self _ _ _) hinside⟩
  | left =>
      -- the other thread unlocks and locks again, and is where the first one is
      have hi' : ((s.goto j .running).goto j .locked).phase i = .locked := by
        rw [Threads.goto_phase_of_ne _ _ hij, Threads.goto_phase_of_ne _ _ hij]
        exact hi
      obtain ⟨ls, t, hrun, ht⟩ := both_enter build hij hi' (Threads.goto_phase_self _ _ _)
      have hunlock : Threads.Step build s (j, .unlock) (s.goto j .running) :=
        .unlock hphase rfl
      have hlock : Threads.Step build (s.goto j .running) (j, .lock)
          ((s.goto j .running).goto j .locked) := .lock (Threads.goto_phase_self _ _ _) rfl
      exact ⟨_, t, .cons hunlock (.cons hlock hrun), ht⟩

/-- The device is exclusive in every state of a run in which no lock callback is
contended, and a single contended one can be followed by an overlap. -/
theorem device_exclusive (build : Build) (wrapper : BlockDeviceWrapper D) (i : ι) :
    (∀ ls s, Runs (Guarded Uncontended (Threads.Step build)) (Threads.mounting wrapper i) ls s →
      Exclusive s) ∧
    ∀ ls s l t, Runs (Threads.Step build) (Threads.mounting wrapper i) ls s →
      Threads.Step build s l t → ¬ Uncontended s l →
      ∃ ls' u, Runs (Threads.Step build) t ls' u ∧ ¬ Exclusive u := by
  refine ⟨?_, ?_⟩
  · intro ls s hrun
    have hserial : Serial s :=
      hrun.invariant (I := Serial) (fun _ _ _ => step_serial) (mounting_serial wrapper i)
    exact hserial.exclusive
  · intro ls s l t _ hstep hcontended
    obtain ⟨hlock, hothers⟩ := Classical.not_imp.mp hcontended
    obtain ⟨j, hj⟩ := Classical.not_forall.mp hothers
    obtain ⟨hj, hcritical⟩ := Classical.not_imp.mp hj
    rw [not_not] at hcritical
    cases hstep with
    | @lock i _ hi hcode =>
        refine overlap_reaches build (Ne.symm hj) (Threads.goto_phase_self s i .locked) ?_
        show Critical ((s.goto i .locked).phase j)
        rw [s.goto_phase_of_ne _ hj]
        exact hcritical
    | _ => cases hlock

end Contended

/-- Two threads write to one device at the same time. -/
theorem writes_overlap :
    ¬ ∀ ls s, Runs (Threads.Step .checked)
      (Threads.mounting (⟨sampleMemory, sampleBdev⟩ : BlockDeviceWrapper MemoryBlockDevice) false)
      ls s → Exclusive s := by
  intro h
  have hlocked : ∃ ls s, Runs (Threads.Step .checked)
      (Threads.mounting (⟨sampleMemory, sampleBdev⟩ : BlockDeviceWrapper MemoryBlockDevice) false)
      ls s ∧ s.phase false = .locked ∧ s.phase true = .locked :=
    ⟨[(false, .mounted), (false, .call), (true, .call), (false, .lock), (true, .lock)], _,
      .cons (.mounted rfl rfl) (.cons (.call rfl rfl) (.cons (.call rfl rfl)
        (.cons (.lock rfl rfl) (.single (.lock rfl rfl))))), rfl, rfl⟩
  obtain ⟨ls, s, hrun, hfalse, htrue⟩ := hlocked
  obtain ⟨ms, t, hrun', ht⟩ := both_enter .checked Bool.false_ne_true hfalse htrue
  exact ht (h _ t (hrun.append hrun'))

end Ext4Lwext4.Metatheory
