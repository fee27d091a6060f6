import Ext4Lwext4.Framework.Interaction

/-! # Pre- and postconditions

A triple bounds the runs of a program against an environment: from a state
where the precondition holds, a program that returns leaves a state where the
postcondition of its value holds, and one that stops does so for a reason the
triple admits. One rule for each thing a program is built from, and the rule
of consequence. -/

namespace Ext4Lwext4.Framework

variable {C : Type} {R : C → Type} {α β ε : Type} {E : Environment C R}

/-- `Triple E P p Q H`: from `P`, the program `p` returns with `Q`, or stops
for a reason in `H`. -/
def Triple (E : Environment C R) (P : E.State → Prop) (p : Prog C R α)
    (Q : α → E.State → Prop) (H : Halt → Prop) : Prop :=
  ∀ ⦃s : E.State⦄ ⦃tr : List (Event C R)⦄ ⦃o : Outcome α⦄ ⦃t : E.State⦄, P s → Exec E p s tr o t →
    match o with
    | .ok a => Q a t
    | .error why => H why

namespace Triple

variable {P P' : E.State → Prop} {Q Q' : α → E.State → Prop} {S : β → E.State → Prop}
  {H H' : Halt → Prop}

theorem returned {p : Prog C R α} {s t : E.State} {tr : List (Event C R)} {a : α}
    (h : Triple E P p Q H) (hs : P s) (hp : Exec E p s tr (.ok a) t) : Q a t := h hs hp

theorem halted {p : Prog C R α} {s t : E.State} {tr : List (Event C R)} {why : Halt}
    (h : Triple E P p Q H) (hs : P s) (hp : Exec E p s tr (.error why) t) : H why := h hs hp

theorem done {a : α} (h : ∀ s, P s → Q a s) : Triple E P (.done a) Q H := by
  intro s tr o t hs hp
  obtain ⟨rfl, rfl, rfl⟩ := Exec.done_iff.mp hp
  exact h _ hs

theorem halt {why : Halt} (h : ∀ s, P s → H why) : Triple E P (.halt why : Prog C R α) Q H := by
  intro s tr o t hs hp
  obtain ⟨rfl, rfl, rfl⟩ := Exec.halt_iff.mp hp
  exact h _ hs

/-- A call, with what its reply is known to leave. -/
theorem call {c : C} {k : R c → Prog C R α} (M : R c → E.State → Prop)
    (hstep : ∀ s r t, P s → E.step s c r t → M r t) (hk : ∀ r, Triple E (M r) (k r) Q H) :
    Triple E P (.call c k) Q H := by
  intro s tr o t hs hp
  obtain ⟨r, u, tr', rfl, hst, hp⟩ := Exec.call_iff.mp hp
  exact hk r (hstep s r u hs hst) hp

/-- The rule of sequence. -/
theorem bind {p : Prog C R α} {f : α → Prog C R β} (hp : Triple E P p Q H)
    (hf : ∀ a, Triple E (Q a) (f a) S H) : Triple E P (p >>= f) S H := by
  intro s tr o t hs hrun
  rcases Exec.bind_iff.mp hrun with ⟨a, u, tr₁, tr₂, rfl, h₁, h₂⟩ | ⟨why, rfl, h₁⟩
  · exact hf a (hp.returned hs h₁) h₂
  · exact hp.halted hs h₁

/-- The rule of consequence. -/
theorem mono {p : Prog C R α} (hp : Triple E P' p Q' H') (hP : ∀ s, P s → P' s)
    (hQ : ∀ a s, Q' a s → Q a s) (hH : ∀ why, H' why → H why) : Triple E P p Q H := by
  intro s tr o t hs hrun
  have h := hp (hP s hs) hrun
  cases o with
  | ok a => exact hQ a t h
  | error why => exact hH why h

/-- What the precondition says of no state is there for the proof. -/
theorem of_exists {ι : Sort*} {P : ι → E.State → Prop} {p : Prog C R α}
    (h : ∀ i, Triple E (P i) p Q H) : Triple E (fun s => ∃ i, P i s) p Q H := by
  rintro s tr o t ⟨i, hs⟩ hrun
  exact h i hs hrun

theorem of_and {φ : Prop} {p : Prog C R α} (h : φ → Triple E P p Q H) :
    Triple E (fun s => φ ∧ P s) p Q H := by
  rintro s tr o t ⟨hφ, hs⟩ hrun
  exact h hφ hs hrun

/-- A computation without calls that returns. -/
theorem ofOutcome_bind {x : Outcome α} {a : α} {f : α → Prog C R β} (hx : x = .ok a)
    (hf : Triple E P (f a) S H) : Triple E P (Prog.ofOutcome x >>= f) S H := by
  subst hx
  exact hf

/-- A program within one that may return early. -/
theorem run_lift_bind {p : Prog C R α} {f : α → ExceptT ε (Prog C R) β}
    {S : Except ε β → E.State → Prop} (hp : Triple E P p Q H)
    (hf : ∀ a, Triple E (Q a) (f a).run S H) :
    Triple E P (ExceptT.run (liftM p >>= f)) S H := by
  rw [Framework.run_lift_bind]
  exact hp.bind hf

/-- A check that returns early where it fails. -/
theorem run_except_bind {x : Except ε α} {f : α → ExceptT ε (Prog C R) β}
    {Q : Except ε β → E.State → Prop} (herror : ∀ e s, P s → Q (.error e) s)
    (hf : ∀ a, x = .ok a → Triple E P (f a).run Q H) :
    Triple E P (ExceptT.run (liftM x >>= f)) Q H := by
  cases x with
  | ok a => exact hf a rfl
  | error e => exact done (herror e)

end Triple

end Ext4Lwext4.Framework
