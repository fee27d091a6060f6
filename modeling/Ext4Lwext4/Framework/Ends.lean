import Ext4Lwext4.Framework.Interaction

/-! # Values judged against the calls made

A program that returns as soon as it does not like a reply returns a value
that is about its made call, and one that collects what it is told returns a
value about all of them. `Ends` follows a program down to its leaves with the
events behind it in hand. -/

namespace Ext4Lwext4.Framework.Prog

variable {C : Type} {R : C → Type} {α β : Type} {K : List (Event C R) → α → Prop}
  {made : List (Event C R)}

/-- Where the program returns, `K` holds of the events behind it and the value. -/
def Ends (K : List (Event C R) → α → Prop) : List (Event C R) → Prog C R α → Prop
  | made, .done a => K made a
  | _, .halt _ => True
  | made, .call c k => ∀ r, (k r).Ends K (made ++ [⟨c, r⟩])

theorem Ends.of_exec {E : Environment C R} {p : Prog C R α} {s t : E.State}
    {tr : List (Event C R)} {a : α} (hp : p.Ends K made) (h : Exec E p s tr (.ok a) t) :
    K (made ++ tr) a := by
  generalize ho : (Except.ok a : Outcome α) = o at h
  induction h generalizing made with
  | done b _ =>
      cases ho
      rw [List.append_nil]
      exact hp
  | halt _ _ => cases ho
  | @call c k s u t r tr o _ _ ih =>
      have hmade := ih (hp r) ho
      rwa [List.append_assoc, List.singleton_append] at hmade

theorem Ends.mono {p : Prog C R α} {K' : List (Event C R) → α → Prop} (hp : p.Ends K made)
    (h : ∀ made a, K made a → K' made a) : p.Ends K' made := by
  induction p generalizing made with
  | done a => exact h _ _ hp
  | halt why => trivial
  | call c k ih => exact fun r => ih r (hp r)

theorem ends_of_forall (p : Prog C R α) (h : ∀ made a, K made a) : p.Ends K made := by
  induction p generalizing made with
  | done a => exact h made a
  | halt why => trivial
  | call c k ih => exact fun r => ih r

theorem ends_bind {p : Prog C R α} {f : α → Prog C R β} {S : List (Event C R) → β → Prop}
    (hp : p.Ends (fun made a => (f a).Ends S made) made) : (p >>= f).Ends S made := by
  induction p generalizing made with
  | done a => exact hp
  | halt why => trivial
  | call c k ih => exact fun r => ih r (hp r)

theorem ends_ofOutcome_bind {x : Outcome α} {f : α → Prog C R β}
    {S : List (Event C R) → β → Prop} (hf : ∀ a, x = .ok a → (f a).Ends S made) :
    ((ofOutcome x : Prog C R α) >>= f).Ends S made := by
  cases x with
  | ok a => exact hf a rfl
  | error why => trivial

section EarlyReturn

variable {ε : Type} {S : List (Event C R) → Except ε β → Prop}

theorem ends_run_bind {p : ExceptT ε (Prog C R) α} {f : α → ExceptT ε (Prog C R) β}
    (hp : p.run.Ends (fun made x => match x with
      | .ok a => (f a).run.Ends S made
      | .error e => S made (.error e)) made) : (p >>= f).run.Ends S made := by
  rw [run_bind]
  refine ends_bind (hp.mono fun made x hx => ?_)
  cases x with
  | ok a => exact hx
  | error e => exact hx

theorem ends_run_except_bind {x : Except ε α} {f : α → ExceptT ε (Prog C R) β}
    (herror : ∀ e, x = .error e → S made (.error e)) (hf : ∀ a, x = .ok a → (f a).run.Ends S made) :
    (ExceptT.run (liftM x >>= f)).Ends S made := by
  cases x with
  | ok a => exact hf a rfl
  | error e => exact herror e rfl

theorem ends_run_lift_bind {p : Prog C R α} {f : α → ExceptT ε (Prog C R) β}
    (hp : p.Ends (fun made a => (f a).run.Ends S made) made) :
    (ExceptT.run (liftM p >>= f)).Ends S made := by
  rw [run_lift_bind]
  exact ends_bind hp

end EarlyReturn

end Ext4Lwext4.Framework.Prog
