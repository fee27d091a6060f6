import Mathlib.Logic.Function.Basic
import Ext4Lwext4.Framework.Interaction
import Ext4Lwext4.Framework.Transition

/-! # Programs that run at the same time

A pool of programs over one environment: each step is one call of one of them,
in any order. What a single program sees of such a run is a run of its own,
against an environment that may reply anything. -/

namespace Ext4Lwext4.Framework

variable {ι C : Type} {R : C → Type} {α : Type} [DecidableEq ι] {E : Environment C R}

inductive PoolStep (E : Environment C R) :
    E.State × (ι → Prog C R α) → ι × Event C R → E.State × (ι → Prog C R α) → Prop
  | call {s t : E.State} {pool : ι → Prog C R α} {i : ι} {c : C} {k : R c → Prog C R α} {r : R c} :
      pool i = .call c k → E.step s c r t →
      PoolStep E (s, pool) (i, ⟨c, r⟩) (t, Function.update pool i (k r))

/-- The events of one program, in order. -/
def eventsOf (i : ι) (ls : List (ι × Event C R)) : List (Event C R) :=
  ls.filterMap fun l => if l.1 = i then some l.2 else none

theorem eventsOf_cons_self (i : ι) (e : Event C R) (ls : List (ι × Event C R)) :
    eventsOf i ((i, e) :: ls) = e :: eventsOf i ls := by
  simp [eventsOf]

theorem eventsOf_cons_of_ne {i j : ι} (h : j ≠ i) (e : Event C R) (ls : List (ι × Event C R)) :
    eventsOf i ((j, e) :: ls) = eventsOf i ls := by
  simp [eventsOf, h]

theorem mem_eventsOf {i : ι} {e : Event C R} {ls : List (ι × Event C R)} :
    e ∈ eventsOf i ls ↔ (i, e) ∈ ls := by
  constructor
  · intro h
    obtain ⟨⟨j, e'⟩, hmem, heq⟩ := List.mem_filterMap.mp h
    by_cases hj : j = i
    · simp only [hj, if_true, Option.some.injEq] at heq
      rwa [← hj, ← heq]
    · simp [hj] at heq
  · intro h
    exact List.mem_filterMap.mpr ⟨_, h, if_pos rfl⟩

/-- Each program of a pool is under way with its own events. -/
theorem underway_of_pool {a b : E.State × (ι → Prog C R α)} {ls : List (ι × Event C R)}
    (h : Runs (PoolStep E) a ls b) (i : ι) :
    Underway (.chaos C R) (a.2 i) () (eventsOf i ls) (b.2 i) () := by
  induction h with
  | nil _ => exact .start
  | cons hst _ ih =>
      cases hst with
      | @call s t pool j c k r hpool hstep =>
          by_cases hj : j = i
          · -- a step of its own
            subst hj
            rw [eventsOf_cons_self, show (s, pool).2 j = .call c k from hpool]
            simp only [Function.update_self] at ih
            exact .cons trivial ih
          · -- a step of another program leaves it where it was
            rw [eventsOf_cons_of_ne hj]
            simpa [Function.update_of_ne (Ne.symm hj)] using ih

/-- A program that is done has had a run of its own. -/
theorem exec_of_pool {a b : E.State × (ι → Prog C R α)} {ls : List (ι × Event C R)}
    (h : Runs (PoolStep E) a ls b) (i : ι) {x : α} (hdone : b.2 i = .done x) :
    Exec (.chaos C R) (a.2 i) () (eventsOf i ls) (.ok x) () := by
  have hunder := underway_of_pool h i
  rw [hdone] at hunder
  have hexec := hunder.exec (Exec.done (E := .chaos C R) x ())
  rwa [List.append_nil] at hexec

end Ext4Lwext4.Framework
