import Ext4Lwext4.Framework.Interaction

/-! # Programs cut short

The order in which a halt is below everything: `Approx p q` says that `q` does
what `p` does as long as `p` does not stop without a value. It is a congruence
for binds, so two versions of a program that differ in one computation are
compared there only, and what the lower one returns the upper one returns, by
the same calls. -/

namespace Ext4Lwext4.Framework

variable {C : Type} {R : C → Type} {α β : Type}

/-! ## Computations -/

def ApproxOutcome (x y : Outcome α) : Prop := ∀ a, x = .ok a → y = .ok a

theorem approxOutcome_refl (x : Outcome α) : ApproxOutcome x x := fun _ h => h

theorem approxOutcome_bind {x y : Outcome α} {f g : α → Outcome β} (hxy : ApproxOutcome x y)
    (hfg : ∀ a, ApproxOutcome (f a) (g a)) : ApproxOutcome (x >>= f) (y >>= g) := by
  intro b hb
  obtain ⟨a, ha, hb⟩ := bind_eq_ok.mp hb
  exact bind_eq_ok.mpr ⟨a, hxy a ha, hfg a b hb⟩

/-! ## Programs -/

inductive Approx : Prog C R α → Prog C R α → Prop
  | done (a : α) : Approx (.done a) (.done a)
  | halt (why : Halt) (q : Prog C R α) : Approx (.halt why) q
  | call {c : C} {k k' : R c → Prog C R α} :
      (∀ r, Approx (k r) (k' r)) → Approx (.call c k) (.call c k')

namespace Approx

theorem refl (p : Prog C R α) : Approx p p := by
  induction p with
  | done a => exact .done a
  | halt why => exact .halt why _
  | call c k ih => exact .call ih

theorem bind {p q : Prog C R α} {f g : α → Prog C R β} (hpq : Approx p q)
    (hfg : ∀ a, Approx (f a) (g a)) : Approx (p >>= f) (q >>= g) := by
  induction hpq with
  | done a => exact hfg a
  | halt why q => exact .halt why _
  | call _ ih => exact .call ih

/-- The same program, continued in two ways. -/
theorem bind_right (p : Prog C R α) {f g : α → Prog C R β} (hfg : ∀ a, Approx (f a) (g a)) :
    Approx (p >>= f) (p >>= g) := (refl p).bind hfg

theorem ofOutcome {x y : Outcome α} (h : ApproxOutcome x y) :
    Approx (Prog.ofOutcome x : Prog C R α) (Prog.ofOutcome y) := by
  rcases x with why | a
  · exact .halt why _
  · rw [h a rfl]
    exact .done a

/-- What the lower program returns, the upper one returns by the same calls. -/
theorem exec {E : Environment C R} {p q : Prog C R α} {s t : E.State} {tr : List (Event C R)}
    {a : α} (h : Approx p q) (hexec : Exec E p s tr (.ok a) t) : Exec E q s tr (.ok a) t := by
  induction h generalizing s tr with
  | done b => exact hexec
  | halt why q => exact nomatch (Exec.halt_iff.mp hexec).2.1
  | call _ ih =>
      obtain ⟨r, u, tr', rfl, hstep, hexec⟩ := Exec.call_iff.mp hexec
      exact .call hstep (ih r hexec)

end Approx

/-! ## Environments -/

/-- A run against an environment is one against any environment that can do
all it does. -/
theorem Exec.simulated {E F : Environment C R} (φ : E.State → F.State)
    (hstep : ∀ {s c r t}, E.step s c r t → F.step (φ s) c r (φ t)) {p : Prog C R α}
    {s t : E.State} {tr : List (Event C R)} {o : Outcome α} (h : Exec E p s tr o t) :
    Exec F p (φ s) tr o (φ t) := by
  induction h with
  | done a s => exact .done a _
  | halt why s => exact .halt why _
  | call hst _ ih => exact .call (hstep hst) ih

end Ext4Lwext4.Framework
