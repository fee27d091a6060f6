import Mathlib.Logic.Relation
import Mathlib.Data.List.Basic

/-! # Labelled transition systems

Finite runs of a labelled step relation, and the two ways an invariant is
carried along them: by every step of the system, or by every step that
meets a guard on the state it starts from. -/

namespace Ext4Lwext4.Framework

variable {σ ℓ : Type*}

/-- Finite runs, remembering the labels of their steps. -/
inductive Runs (step : σ → ℓ → σ → Prop) : σ → List ℓ → σ → Prop
  | nil (s : σ) : Runs step s [] s
  | cons {s t u : σ} {l : ℓ} {ls : List ℓ} :
      step s l t → Runs step t ls u → Runs step s (l :: ls) u

namespace Runs

variable {step : σ → ℓ → σ → Prop}

theorem single {s t : σ} {l : ℓ} (h : step s l t) : Runs step s [l] t :=
  .cons h (.nil t)

theorem append {s t u : σ} {ls ms : List ℓ} (h : Runs step s ls t)
    (h' : Runs step t ms u) : Runs step s (ls ++ ms) u := by
  induction h with
  | nil _ => exact h'
  | cons hs _ ih => exact .cons hs (ih h')

/-- The run lemma: what every step preserves, every run preserves. -/
theorem invariant {I : σ → Prop} (hstep : ∀ s l t, step s l t → I s → I t)
    {s t : σ} {ls : List ℓ} (h : Runs step s ls t) (hs : I s) : I t := by
  induction h with
  | nil _ => exact hs
  | cons hst _ ih => exact ih (hstep _ _ _ hst hs)

/-- Every label of a run labels a step from a state where the invariant holds. -/
theorem forall_mem {I : σ → Prop} (hstep : ∀ s l t, step s l t → I s → I t)
    {s t : σ} {ls : List ℓ} (h : Runs step s ls t) (hs : I s) :
    ∀ l ∈ ls, ∃ u v, step u l v ∧ I u := by
  induction h with
  | nil _ => simp
  | cons hst _ ih =>
      intro l hl
      rcases List.mem_cons.mp hl with rfl | hl
      · exact ⟨_, _, hst, hs⟩
      · exact ih (hstep _ _ _ hst hs) l hl

/-- Forward simulation: where each step of one system is answered by a step of
the other with the same label, each run is answered by a run. -/
theorem simulated {τ : Type*} {step' : τ → ℓ → τ → Prop} {R : σ → τ → Prop}
    (hstep : ∀ s l t s', R s s' → step s l t → ∃ t', step' s' l t' ∧ R t t') {s t : σ} {ls : List ℓ}
    (h : Runs step s ls t) {s' : τ} (hs : R s s') : ∃ t', Runs step' s' ls t' ∧ R t t' := by
  induction h generalizing s' with
  | nil _ => exact ⟨s', .nil s', hs⟩
  | cons hst _ ih =>
      obtain ⟨u', hst', hu⟩ := hstep _ _ _ _ hs hst
      obtain ⟨t', hrun, ht⟩ := ih hu
      exact ⟨t', .cons hst' hrun, ht⟩

/-- The rule of progress: where every state that is not final has a step down,
every state has a run to a final one. -/
theorem exists_final {I final : σ → Prop} (rank : σ → ℕ)
    (hstep : ∀ s, I s → ¬ final s → ∃ l t, step s l t ∧ I t ∧ rank t < rank s) {s : σ}
    (hs : I s) : ∃ ls t, Runs step s ls t ∧ final t := by
  induction hn : rank s using Nat.strongRecOn generalizing s with
  | ind n ih =>
      by_cases hfinal : final s
      · exact ⟨[], s, .nil s, hfinal⟩
      · obtain ⟨l, t, hst, ht, hlt⟩ := hstep s hs hfinal
        obtain ⟨ls, u, hrun, hu⟩ := ih _ (hn ▸ hlt) ht rfl
        exact ⟨l :: ls, u, .cons hst hrun, hu⟩

/-- Where every step but those with an idle label goes down, a run has no more
of them than its rank. -/
theorem countP_le_rank (rank : σ → ℕ) (busy : ℓ → Bool)
    (hstep : ∀ s l t, step s l t → rank t + (busy l).toNat ≤ rank s) {s t : σ} {ls : List ℓ}
    (h : Runs step s ls t) : rank t + ls.countP busy ≤ rank s := by
  induction h with
  | nil _ => exact Nat.le_refl _
  | @cons _ _ _ l _ hst _ ih =>
      have hle := hstep _ _ _ hst
      rw [List.countP_cons]
      cases hl : busy l with
      | true =>
          rw [hl, Bool.toNat_true] at hle
          rw [if_pos rfl]
          omega
      | false =>
          rw [hl, Bool.toNat_false] at hle
          rw [if_neg Bool.false_ne_true]
          omega

end Runs

/-- The steps of a system that are taken only where a guard on the state
before the step admits them. -/
def Guarded (G : σ → ℓ → Prop) (step : σ → ℓ → σ → Prop) (s : σ) (l : ℓ) (t : σ) : Prop :=
  G s l ∧ step s l t

end Ext4Lwext4.Framework
