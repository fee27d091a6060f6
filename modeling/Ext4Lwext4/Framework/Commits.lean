import Ext4Lwext4.Framework.Interaction

/-! # The changes a program commits

Some events of a run change what an observer sees, each in a way that its call
alone decides; the others are reads and failures. `Commits` follows a program
down to its leaves and collects the changes on the way, so what it commits can
be told next to what it returns. -/

namespace Ext4Lwext4.Framework

variable {C : Type} {R : C → Type} {α β : Type}

/-- The calls of the events that change something, in order. -/
def committed (changes : Event C R → Bool) (tr : List (Event C R)) : List C :=
  (tr.filter changes).map Sigma.fst

/-- What an observer sees of an environment: a change has the effect of its
call, and nothing else has any, unless it is unclear what it has done. -/
structure Observes {N : Type*} (E : Environment C R) (changes unclear : Event C R → Bool)
    (obs : E.State → N) (effect : N → C → N) : Prop where
  changed {s t : E.State} {c : C} {r : R c} : changes ⟨c, r⟩ = true → E.step s c r t →
    obs t = effect (obs s) c
  kept {s t : E.State} {c : C} {r : R c} : changes ⟨c, r⟩ = false → unclear ⟨c, r⟩ = false →
    E.step s c r t → obs t = obs s

variable {changes unclear : Event C R → Bool}

@[simp] theorem committed_nil : committed changes [] = [] := rfl

theorem committed_cons (c : C) (r : R c) (tr : List (Event C R)) :
    committed changes (⟨c, r⟩ :: tr) =
      (if changes ⟨c, r⟩ then [c] else []) ++ committed changes tr := by
  unfold committed
  rw [List.filter_cons]
  split <;> rfl

/-- What is seen after a run is what its changes make of what was seen before. -/
theorem Observes.exec {N : Type*} {E : Environment C R} {obs : E.State → N} {effect : N → C → N}
    (hE : Observes E changes unclear obs effect) {p : Prog C R α} {s t : E.State}
    {tr : List (Event C R)} {o : Outcome α} (h : Exec E p s tr o t)
    (hclear : ∀ ev ∈ tr, unclear ev = false) :
    obs t = (committed changes tr).foldl effect (obs s) := by
  induction h with
  | done _ _ => rfl
  | halt _ _ => rfl
  | @call c _ s u t r tr o hstep _ ih =>
      rw [ih fun ev hev => hclear ev (List.mem_cons_of_mem _ hev), committed_cons,
        List.foldl_append]
      cases hr : changes ⟨c, r⟩ with
      | true => rw [hE.changed hr hstep, if_pos rfl, List.foldl_cons, List.foldl_nil]
      | false =>
          rw [hE.kept hr (hclear _ List.mem_cons_self) hstep, if_neg Bool.false_ne_true,
            List.foldl_nil]

namespace Prog

/-- However a run of the program goes, `Φ` holds of what it commits and of how
it ends. -/
def Commits (changes : Event C R → Bool) : Prog C R α → (List C → Outcome α → Prop) → Prop
  | .done a, Φ => Φ [] (.ok a)
  | .halt why, Φ => Φ [] (.error why)
  | .call c k, Φ => ∀ r, (k r).Commits changes fun cs o =>
      Φ ((if changes ⟨c, r⟩ then [c] else []) ++ cs) o

theorem Commits.of_exec {p : Prog C R α} {Φ : List C → Outcome α → Prop}
    (hp : p.Commits changes Φ) {E : Environment C R} {s t : E.State} {tr : List (Event C R)}
    {o : Outcome α} (h : Exec E p s tr o t) : Φ (committed changes tr) o := by
  induction h generalizing Φ with
  | done _ _ => exact hp
  | halt _ _ => exact hp
  | call _ _ ih =>
      rw [committed_cons]
      exact ih (hp _)

theorem Commits.mono {p : Prog C R α} {Φ Ψ : List C → Outcome α → Prop}
    (hp : p.Commits changes Φ) (h : ∀ cs o, Φ cs o → Ψ cs o) : p.Commits changes Ψ := by
  induction p generalizing Φ Ψ with
  | done a => exact h _ _ hp
  | halt why => exact h _ _ hp
  | call c k ih => exact fun r => ih r (hp r) fun cs o => h _ o

/-- The changes of a program before those of the one it is followed by. -/
theorem commits_bind {p : Prog C R α} {f : α → Prog C R β} {Φ : List C → Outcome α → Prop}
    {Ψ : List C → Outcome β → Prop} (hp : p.Commits changes Φ)
    (hhalt : ∀ cs why, Φ cs (.error why) → Ψ cs (.error why))
    (hf : ∀ cs a, Φ cs (.ok a) → (f a).Commits changes fun ds o => Ψ (cs ++ ds) o) :
    (p >>= f).Commits changes Ψ := by
  induction p generalizing Φ Ψ with
  | done a => exact hf [] a hp
  | halt why => exact hhalt [] why hp
  | call c k ih =>
      intro r
      refine ih r (hp r) (fun cs why => hhalt _ why) fun cs a ha => ?_
      refine (hf _ a ha).mono fun ds o h => ?_
      rwa [List.append_assoc] at h

/-- What comes behind it makes no call. -/
theorem commits_bind_done {p : Prog C R α} {f : α → β} {Φ : List C → Outcome α → Prop}
    {Ψ : List C → Outcome β → Prop} (hp : p.Commits changes Φ)
    (hhalt : ∀ cs why, Φ cs (.error why) → Ψ cs (.error why))
    (hf : ∀ cs a, Φ cs (.ok a) → Ψ cs (.ok (f a))) :
    (p >>= fun a => .done (f a)).Commits changes Ψ := by
  refine commits_bind hp hhalt fun cs a ha => ?_
  show Ψ (cs ++ []) _
  rw [List.append_nil]
  exact hf cs a ha

/-- A program that can make no call that changes something commits nothing. -/
theorem commits_of_allCalls {p : Prog C R α}
    (hp : p.AllCalls fun c => ∀ r, changes ⟨c, r⟩ = false) :
    p.Commits changes fun cs _ => cs = [] := by
  induction p with
  | done a => rfl
  | halt why => rfl
  | call c k ih =>
      intro r
      refine (ih r (hp.2 r)).mono fun cs o h => ?_
      rw [h, hp.1 r]
      rfl

end Prog

end Ext4Lwext4.Framework
