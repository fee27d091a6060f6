import Mathlib.Logic.Function.Basic
import Ext4Lwext4.Framework.Ledger

/-! # Parts of an environment

An environment may be several that do not know of each other: every resource
belongs to one of them, a call is served by the one whose resources it takes,
and what it hands out belongs there too. A program that starts with resources
of one part never leaves it, whatever other programs do in between: each of
its steps is a step of that part alone. -/

namespace Ext4Lwext4.Framework

variable {C : Type} {R : C → Type} {ρ ι α : Type}

namespace Ledger

variable {L : Ledger C R ρ} {mine : ρ → Prop} {p : Prog C R α} {Q : α → Multiset ρ → Prop}

/-- A call that takes something, and nothing but what is `mine`. -/
def CallOf (L : Ledger C R ρ) (mine : ρ → Prop) (c : C) : Prop :=
  L.takes c ≠ 0 ∧ ∀ x ∈ L.takes c, mine x

/-- The program lives on resources that are `mine`, and none of its calls is
for free. -/
structure Stays (L : Ledger C R ρ) (mine : ρ → Prop) (p : Prog C R α)
    (Q : α → Multiset ρ → Prop) : Prop where
  owns : ∃ held, (∀ x ∈ held, mine x) ∧ L.Owns p held Q
  takes : p.AllCalls fun c => L.takes c ≠ 0

/-- It stays there, as long as it is given nothing else. -/
theorem Stays.call {c : C} {k : R c → Prog C R α} (h : L.Stays mine (.call c k) Q) :
    L.CallOf mine c ∧ ∀ r, (∀ x ∈ L.gives c r, mine x) → L.Stays mine (k r) Q := by
  obtain ⟨⟨held, hmine, rest, rfl, hk⟩, htakes⟩ := h
  refine ⟨⟨htakes.1, fun x hx => hmine x (Multiset.mem_add.mpr (.inl hx))⟩, fun r hr => ?_⟩
  refine ⟨⟨_, fun x hx => ?_, hk r⟩, htakes.2 r⟩
  rcases Multiset.mem_add.mp hx with hx | hx
  · exact hr x hx
  · exact hmine x (Multiset.mem_add.mpr (.inr hx))

end Ledger

/-- The environment has parts, seen through `view`: a call of one of them is a
step of it, and of none of the others. -/
structure Separate (L : Ledger C R ρ) (mine : ι → ρ → Prop) (E : Environment C R)
    (part : ι → Environment C R) (view : (i : ι) → E.State → (part i).State) : Prop where
  own {s t : E.State} {c : C} {r : R c} {i : ι} : E.step s c r t → L.CallOf (mine i) c →
    (part i).step (view i s) c r (view i t)
  gives {s t : E.State} {c : C} {r : R c} {i : ι} : E.step s c r t → L.CallOf (mine i) c →
    ∀ x ∈ L.gives c r, mine i x
  others {s t : E.State} {c : C} {r : R c} {i j : ι} : E.step s c r t → L.CallOf (mine i) c →
    j ≠ i → view j t = view j s

section Separate

variable {L : Ledger C R ρ} {mine : ι → ρ → Prop} {E : Environment C R}
  {part : ι → Environment C R} {view : (i : ι) → E.State → (part i).State}
  {Q : α → Multiset ρ → Prop}

/-- The step lemma: a call of a program of one part. -/
theorem Separate.step (hE : Separate L mine E part view) {i : ι} {c : C} {k : R c → Prog C R α}
    (h : L.Stays (mine i) (.call c k) Q) {s t : E.State} {r : R c} (hstep : E.step s c r t) :
    (part i).step (view i s) c r (view i t) ∧ L.Stays (mine i) (k r) Q ∧
      ∀ j, j ≠ i → view j t = view j s := by
  obtain ⟨hcall, hk⟩ := h.call
  exact ⟨hE.own hstep hcall, hk r (hE.gives hstep hcall), fun j hj => hE.others hstep hcall hj⟩

end Separate

/-! ## Putting parts together -/

/-- The environment that consists of these parts. -/
def Environment.shared (L : Ledger C R ρ) (mine : ι → ρ → Prop) (part : ι → Environment C R) :
    Environment C R where
  State := (i : ι) → (part i).State
  step s c r t := ∀ i,
    (L.CallOf (mine i) c → (part i).step (s i) c r (t i) ∧ ∀ x ∈ L.gives c r, mine i x) ∧
      (¬ L.CallOf (mine i) c → t i = s i)

theorem shared_separate {L : Ledger C R ρ} {mine : ι → ρ → Prop} (part : ι → Environment C R)
    (hdisjoint : ∀ i j x, mine i x → mine j x → i = j) :
    Separate L mine (.shared L mine part) part fun i s => s i where
  own h hcall := ((h _).1 hcall).1
  gives h hcall := ((h _).1 hcall).2
  others {s t c r i j} h hcall hj := by
    refine (h j).2 fun hother => hj ?_
    obtain ⟨x, hx⟩ := Multiset.exists_mem_of_ne_zero hcall.1
    exact hdisjoint j i x (hother.2 x hx) (hcall.2 x hx)

end Ext4Lwext4.Framework
