import Mathlib.Algebra.Order.Group.Multiset
import Ext4Lwext4.Framework.Interaction

/-! # Ledgers

Some calls hand out a resource, others need one. A ledger says what a call
takes from its caller and what its reply gives, and a trace balances if every
call of it takes what is held at that time: nothing is used before it is
given or after it is taken back, and nothing is taken back twice. `Owns` says
of a program that all its traces balance. Its rules are those of a logic of
resources: a bind, a frame, and calls that only borrow. -/

namespace Ext4Lwext4.Framework

variable {C : Type} {R : C → Type} {ρ α β ε : Type}

structure Ledger (C : Type) (R : C → Type) (ρ : Type) where
  takes : C → Multiset ρ
  gives : (c : C) → R c → Multiset ρ

namespace Ledger

variable {L : Ledger C R ρ} {held held' : Multiset ρ}

/-- One call: what it takes is held, and the rest stays as it is. -/
def Step (L : Ledger C R ρ) (held : Multiset ρ) (e : Event C R) (held' : Multiset ρ) : Prop :=
  ∃ rest, held = L.takes e.1 + rest ∧ held' = L.gives e.1 e.2 + rest

/-- The trace balances, from what is held before it to what is held after. -/
abbrev Balances (L : Ledger C R ρ) : Multiset ρ → List (Event C R) → Multiset ρ → Prop :=
  Runs L.Step

/-- A call that gives back what it takes, and takes what is held. -/
def Borrows (L : Ledger C R ρ) (held : Multiset ρ) (c : C) : Prop :=
  L.takes c ≤ held ∧ ∀ r, L.gives c r = L.takes c

/-- Whatever the replies, the program takes only what it holds, and a value it
returns satisfies `Q` of what it holds then. -/
def Owns (L : Ledger C R ρ) : Prog C R α → Multiset ρ → (α → Multiset ρ → Prop) → Prop
  | .done a, held, Q => Q a held
  | .halt _, _, _ => True
  | .call c k, held, Q =>
      ∃ rest, held = L.takes c + rest ∧ ∀ r, L.Owns (k r) (L.gives c r + rest) Q

variable {Q Q' : α → Multiset ρ → Prop} {S : β → Multiset ρ → Prop} {p : Prog C R α}

theorem Owns.mono (h : L.Owns p held Q) (hQ : ∀ a held, Q a held → Q' a held) :
    L.Owns p held Q' := by
  induction p generalizing held with
  | done a => exact hQ a held h
  | halt why => trivial
  | call c k ih =>
      obtain ⟨rest, rfl, hk⟩ := h
      exact ⟨rest, rfl, fun r => ih r (hk r)⟩

theorem owns_bind {f : α → Prog C R β} (hp : L.Owns p held Q)
    (hf : ∀ a held, Q a held → L.Owns (f a) held S) : L.Owns (p >>= f) held S := by
  induction p generalizing held with
  | done a => exact hf a held hp
  | halt why => trivial
  | call c k ih =>
      obtain ⟨rest, rfl, hk⟩ := hp
      exact ⟨rest, rfl, fun r => ih r (hk r)⟩

/-- The frame rule. -/
theorem Owns.frame (h : L.Owns p held Q) (extra : Multiset ρ) :
    L.Owns p (held + extra) fun a held' => ∃ own, Q a own ∧ held' = own + extra := by
  induction p generalizing held with
  | done a => exact ⟨held, h, rfl⟩
  | halt why => trivial
  | call c k ih =>
      obtain ⟨rest, rfl, hk⟩ := h
      refine ⟨rest + extra, add_assoc _ _ _, fun r => ?_⟩
      rw [← add_assoc]
      exact ih r (hk r)

/-- A program whose calls only borrow holds in the end what it held before. -/
theorem owns_of_ensures {P : α → Prop} (h : p.Ensures (L.Borrows held) P) :
    L.Owns p held fun a held' => P a ∧ held' = held := by
  induction p with
  | done a => exact ⟨h, rfl⟩
  | halt why => trivial
  | call c k ih =>
      obtain ⟨⟨hle, hgives⟩, hk⟩ := h
      obtain ⟨rest, hrest⟩ := Multiset.le_iff_exists_add.mp hle
      refine ⟨rest, hrest, fun r => ?_⟩
      rw [hgives, ← hrest]
      exact ih r (hk r)

theorem owns_of_allCalls (h : p.AllCalls (L.Borrows held)) :
    L.Owns p held fun _ held' => held' = held :=
  (owns_of_ensures h).mono fun _ _ hr => hr.2

/-- A call that gives back what it takes and more. -/
theorem owns_grant_bind {c : C} {f : R c → Prog C R β} (extra : R c → Multiset ρ)
    (hc : L.takes c ≤ held) (hgives : ∀ r, L.gives c r = extra r + L.takes c)
    (hf : ∀ r, L.Owns (f r) (extra r + held) S) : L.Owns (Prog.request c >>= f) held S := by
  obtain ⟨rest, hrest⟩ := Multiset.le_iff_exists_add.mp hc
  refine ⟨rest, hrest, fun r => ?_⟩
  rw [hgives, add_assoc, ← hrest]
  exact hf r

theorem owns_borrow_bind {c : C} {f : R c → Prog C R β} (hc : L.Borrows held c)
    (hf : ∀ r, L.Owns (f r) held S) : L.Owns (Prog.request c >>= f) held S := by
  refine owns_grant_bind (fun _ => 0) hc.1 (fun r => ?_) fun r => ?_
  · rw [hc.2, zero_add]
  · rw [zero_add]
    exact hf r

/-- A call that takes one resource and leaves others in its place. -/
theorem owns_swap_bind {c : C} {f : R c → Prog C R β} {rest : Multiset ρ}
    (hf : ∀ r, L.Owns (f r) (L.gives c r + rest) S) :
    L.Owns (Prog.request c >>= f) (L.takes c + rest) S := ⟨rest, rfl, hf⟩

theorem owns_ofOutcome_bind {o : Outcome α} {f : α → Prog C R β}
    (hf : ∀ a, o = .ok a → L.Owns (f a) held S) :
    L.Owns ((Prog.ofOutcome o : Prog C R α) >>= f) held S := by
  rcases o with why | a
  · trivial
  · exact hf a rfl

/-! Programs with early returns. -/

theorem owns_run_except_bind {x : Except ε α} {f : α → ExceptT ε (Prog C R) β}
    {S : Except ε β → Multiset ρ → Prop} (hf : ∀ a, x = .ok a → L.Owns (f a).run held S)
    (herror : ∀ e, x = .error e → S (.error e) held) :
    L.Owns (ExceptT.run (liftM x >>= f)) held S := by
  rcases x with e | a
  · exact herror e rfl
  · exact hf a rfl

theorem owns_run_lift_bind {f : α → ExceptT ε (Prog C R) β}
    {S : Except ε β → Multiset ρ → Prop} (hp : L.Owns p held Q)
    (hf : ∀ a held, Q a held → L.Owns (f a).run held S) :
    L.Owns (ExceptT.run (liftM p >>= f)) held S := by
  rw [run_lift_bind]
  exact owns_bind hp hf

theorem owns_run_borrow_bind {c : C} {f : R c → ExceptT ε (Prog C R) β}
    {S : Except ε β → Multiset ρ → Prop} (hc : L.Borrows held c)
    (hf : ∀ r, L.Owns (f r).run held S) :
    L.Owns (ExceptT.run (liftM (Prog.request c : Prog C R (R c)) >>= f)) held S :=
  owns_borrow_bind hc hf

/-- Every trace of such a program balances. -/
theorem Owns.balances {E : Environment C R} {s t : E.State} {tr : List (Event C R)}
    {o : Outcome α} (h : L.Owns p held Q) (hexec : Exec E p s tr o t) :
    ∃ held', L.Balances held tr held' ∧ ∀ a, o = .ok a → Q a held' := by
  induction hexec generalizing held with
  | done a _ =>
      refine ⟨held, .nil _, ?_⟩
      rintro _ ⟨⟩
      exact h
  | halt why _ => exact ⟨held, .nil _, nofun⟩
  | call _ _ ih =>
      obtain ⟨rest, rfl, hk⟩ := h
      obtain ⟨held', hbal, hQ⟩ := ih (hk _)
      exact ⟨held', .cons ⟨rest, rfl, rfl⟩ hbal, hQ⟩

end Ledger

end Ext4Lwext4.Framework
