import Ext4Lwext4.Framework.Transition

/-! # Programs that call an environment they do not control

A program is a tree of calls: each call hands its reply, whatever it is, to
the continuation. An environment is a relation over a state of its own, so
one program runs against every behaviour the relation leaves open. The
rules below are the ones a proof about a sequential program needs: how a run
splits at a bind, what a run preserves, and which calls a program can make
at all. -/

namespace Ext4Lwext4.Framework

/-- Why a program stops without a value. -/
inductive Halt
  | panic
  | outOfFuel
  deriving DecidableEq, Repr

/-- The result of a computation that may panic. -/
abbrev Outcome (α : Type) : Type := Except Halt α

/-- Peel one step off a computation that may stop. -/
theorem bind_eq_ok {ε α β : Type} {x : Except ε α} {f : α → Except ε β} {b : β} :
    (x >>= f) = .ok b ↔ ∃ a, x = .ok a ∧ f a = .ok b := by
  cases x with
  | error e =>
      constructor
      · exact nofun
      · rintro ⟨_, h, _⟩
        cases h
  | ok a =>
      constructor
      · exact fun h => ⟨a, rfl, h⟩
      · rintro ⟨_, h, hf⟩
        cases h
        exact hf

@[simp] theorem ok_bind {ε α β : Type} (a : α) (f : α → Except ε β) :
    (Except.ok a >>= f) = f a := rfl

@[simp] theorem error_bind {ε α β : Type} (e : ε) (f : α → Except ε β) :
    ((Except.error e : Except ε α) >>= f) = .error e := rfl

inductive Prog (C : Type) (R : C → Type) (α : Type) : Type
  | done (a : α)
  | halt (why : Halt)
  | call (c : C) (k : R c → Prog C R α)

/-- A call together with the reply it got. -/
abbrev Event (C : Type) (R : C → Type) : Type := (c : C) × R c

structure Environment (C : Type) (R : C → Type) where
  State : Type
  /-- `step s c r t`: from state `s` the call `c` may reply `r` and leave `t`. -/
  step : State → (c : C) → R c → State → Prop

/-- The environment that may reply anything to anything. -/
def Environment.chaos (C : Type) (R : C → Type) : Environment C R where
  State := Unit
  step _ _ _ _ := True

variable {C : Type} {R : C → Type} {α β ε : Type}

namespace Prog

def bind (p : Prog C R α) (f : α → Prog C R β) : Prog C R β :=
  match p with
  | .done a => f a
  | .halt why => .halt why
  | .call c k => .call c fun r => (k r).bind f

instance : Monad (Prog C R) where
  pure := .done
  bind := Prog.bind

/-- One call, returning its reply. -/
def request (c : C) : Prog C R (R c) := .call c .done

/-- A pure computation that may panic, as a step of a program. -/
def ofOutcome (o : Outcome α) : Prog C R α :=
  match o with
  | .ok a => .done a
  | .error why => .halt why

@[simp] theorem pure_eq (a : α) : (pure a : Prog C R α) = .done a := rfl
@[simp] theorem done_bind (a : α) (f : α → Prog C R β) : Prog.done a >>= f = f a := rfl
@[simp] theorem halt_bind (why : Halt) (f : α → Prog C R β) :
    (Prog.halt why : Prog C R α) >>= f = .halt why := rfl
@[simp] theorem call_bind (c : C) (k : R c → Prog C R α) (f : α → Prog C R β) :
    Prog.call c k >>= f = .call c fun r => k r >>= f := rfl
@[simp] theorem request_bind (c : C) (f : R c → Prog C R β) :
    (request c : Prog C R (R c)) >>= f = .call c f := rfl
@[simp] theorem ofOutcome_ok_bind (a : α) (f : α → Prog C R β) :
    (ofOutcome (.ok a) : Prog C R α) >>= f = f a := rfl

theorem bind_assoc (p : Prog C R α) (f : α → Prog C R β) {γ : Type} (g : β → Prog C R γ) :
    p >>= f >>= g = p >>= fun a => f a >>= g := by
  induction p with
  | done a => rfl
  | halt why => rfl
  | call c k ih =>
      simp only [call_bind]
      congr 1
      funext r
      exact ih r

theorem bind_done (p : Prog C R α) : p >>= Prog.done = p := by
  induction p with
  | done a => rfl
  | halt why => rfl
  | call c k ih =>
      simp only [call_bind]
      congr 1
      funext r
      exact ih r

instance : LawfulMonad (Prog C R) :=
  LawfulMonad.mk' (Prog C R) (fun p => bind_done p) (fun _ _ => rfl)
    (fun p f g => bind_assoc p f g)

end Prog

/-- `Exec E p s tr o t`: against `E`, the program `p` started in `s` makes the
calls of `tr`, gets the replies of `tr`, stops with `o` and leaves `t`. -/
inductive Exec (E : Environment C R) : Prog C R α → E.State → List (Event C R) →
    Outcome α → E.State → Prop
  | done (a : α) (s : E.State) : Exec E (.done a) s [] (.ok a) s
  | halt (why : Halt) (s : E.State) : Exec E (.halt why) s [] (.error why) s
  | call {c : C} {k : R c → Prog C R α} {s u t : E.State} {r : R c}
      {tr : List (Event C R)} {o : Outcome α} :
      E.step s c r u → Exec E (k r) u tr o t → Exec E (.call c k) s (⟨c, r⟩ :: tr) o t

namespace Exec

variable {E : Environment C R} {s t : E.State} {tr : List (Event C R)}

@[simp] theorem done_iff {a : α} {o : Outcome α} :
    Exec E (.done a) s tr o t ↔ tr = [] ∧ o = .ok a ∧ t = s := by
  constructor
  · intro h
    cases h
    exact ⟨rfl, rfl, rfl⟩
  · rintro ⟨rfl, rfl, rfl⟩
    exact .done a _

@[simp] theorem halt_iff {why : Halt} {o : Outcome α} :
    Exec E (.halt why) s tr o t ↔ tr = [] ∧ o = .error why ∧ t = s := by
  constructor
  · intro h
    cases h
    exact ⟨rfl, rfl, rfl⟩
  · rintro ⟨rfl, rfl, rfl⟩
    exact .halt why _

@[simp] theorem call_iff {c : C} {k : R c → Prog C R α} {o : Outcome α} :
    Exec E (.call c k) s tr o t ↔
      ∃ r u tr', tr = ⟨c, r⟩ :: tr' ∧ E.step s c r u ∧ Exec E (k r) u tr' o t := by
  constructor
  · intro h
    cases h with
    | call hs hk => exact ⟨_, _, _, rfl, hs, hk⟩
  · rintro ⟨r, u, tr', rfl, hs, hk⟩
    exact .call hs hk

/-- A run of a bind is a run of its first half and, unless that stopped, a run
of the second half from where the first ended. -/
theorem bind_iff {p : Prog C R α} {f : α → Prog C R β} {o : Outcome β} :
    Exec E (p >>= f) s tr o t ↔
      (∃ a u tr₁ tr₂, tr = tr₁ ++ tr₂ ∧ Exec E p s tr₁ (.ok a) u ∧ Exec E (f a) u tr₂ o t) ∨
      ∃ why, o = .error why ∧ Exec E p s tr (.error why) t := by
  constructor
  · -- the first half is a tree: follow the run down to the leaf where it ends
    intro h
    induction p generalizing s tr with
    | done a => exact .inl ⟨a, s, [], tr, rfl, .done a s, h⟩
    | halt why =>
        obtain ⟨rfl, rfl, rfl⟩ := halt_iff.mp h
        exact .inr ⟨why, rfl, .halt why _⟩
    | call c k ih =>
        obtain ⟨r, u, tr', rfl, hs, hk⟩ := call_iff.mp h
        rcases ih r hk with ⟨a, v, tr₁, tr₂, rfl, h₁, h₂⟩ | ⟨why, rfl, h₁⟩
        · exact .inl ⟨a, v, _, tr₂, rfl, .call hs h₁, h₂⟩
        · exact .inr ⟨why, rfl, .call hs h₁⟩
  · rintro (⟨a, u, tr₁, tr₂, rfl, h₁, h₂⟩ | ⟨why, rfl, h₁⟩)
    · induction p generalizing s tr₁ with
      | done b =>
          obtain ⟨rfl, hb, rfl⟩ := done_iff.mp h₁
          cases hb
          exact h₂
      | halt why => exact nomatch (halt_iff.mp h₁).2.1
      | call c k ih =>
          obtain ⟨r, v, tr', rfl, hs, hk⟩ := call_iff.mp h₁
          exact .call hs (ih r _ hk)
    · induction p generalizing s tr with
      | done b => exact nomatch (done_iff.mp h₁).2.1
      | halt why' =>
          obtain ⟨rfl, hw, rfl⟩ := halt_iff.mp h₁
          cases hw
          exact .halt why _
      | call c k ih =>
          obtain ⟨r, v, tr', rfl, hs, hk⟩ := call_iff.mp h₁
          exact .call hs (ih r hk)

theorem bind_ok {p : Prog C R α} {f : α → Prog C R β} {b : β}
    (h : Exec E (p >>= f) s tr (.ok b) t) :
    ∃ a u tr₁ tr₂, tr = tr₁ ++ tr₂ ∧ Exec E p s tr₁ (.ok a) u ∧
      Exec E (f a) u tr₂ (.ok b) t := by
  rcases bind_iff.mp h with h | ⟨_, h, _⟩
  · exact h
  · cases h

/-- A run that begins with a call is a step of the environment and a run from there. -/
theorem request_bind {c : C} {f : R c → Prog C R β} {o : Outcome β}
    (h : Exec E (Prog.request c >>= f) s tr o t) :
    ∃ r u tr', tr = ⟨c, r⟩ :: tr' ∧ E.step s c r u ∧ Exec E (f r) u tr' o t :=
  call_iff.mp h

/-- Against the environment that may reply anything, choose the reply. -/
theorem chaos_call {c : C} {k : R c → Prog C R α} {tr : List (Event C R)} {o : Outcome α} {r : R c}
    (h : Exec (.chaos C R) (k r) () tr o ()) :
    Exec (.chaos C R) (.call c k) () (⟨c, r⟩ :: tr) o () :=
  .call trivial h

theorem bind {p : Prog C R α} {f : α → Prog C R β} {a : α} {o : Outcome β} {u : E.State}
    {tr' : List (Event C R)} (h₁ : Exec E p s tr (.ok a) u) (h₂ : Exec E (f a) u tr' o t) :
    Exec E (p >>= f) s (tr ++ tr') o t :=
  bind_iff.mpr (.inl ⟨a, u, tr, tr', rfl, h₁, h₂⟩)

/-- A second half that makes no call. -/
theorem bind_done {p : Prog C R α} {f : α → Prog C R β} {a : α} {b : β}
    (h : Exec E p s tr (.ok a) t) (hf : f a = .done b) : Exec E (p >>= f) s tr (.ok b) t := by
  rw [← List.append_nil tr]
  refine h.bind ?_
  rw [hf]
  exact .done b t

/-- What every step of the environment keeps, every run keeps. -/
theorem invariant {I : E.State → Prop} (hstep : ∀ s c r t, E.step s c r t → I s → I t)
    {p : Prog C R α} {o : Outcome α} (h : Exec E p s tr o t) (hs : I s) : I t := by
  induction h with
  | done _ _ => exact hs
  | halt _ _ => exact hs
  | call hst _ ih => exact ih (hstep _ _ _ _ hst hs)

/-- The first call of a run is a step of the environment. -/
theorem head_step {p : Prog C R α} {c : C} {r : R c} {o : Outcome α}
    (h : Exec E p s (⟨c, r⟩ :: tr) o t) : ∃ u, E.step s c r u := by
  cases h with
  | call hs _ => exact ⟨_, hs⟩

/-- Where every call returns, every program has a run. -/
theorem exists_of_returns (hE : ∀ s c, ∃ r t, E.step s c r t) (p : Prog C R α) (s : E.State) :
    ∃ tr o t, Exec E p s tr o t := by
  induction p generalizing s with
  | done a => exact ⟨_, _, _, .done a s⟩
  | halt why => exact ⟨_, _, _, .halt why s⟩
  | call c k ih =>
      obtain ⟨r, u, hstep⟩ := hE s c
      obtain ⟨tr, o, t, h⟩ := ih r u
      exact ⟨_, _, _, .call hstep h⟩

/-- The environment `E` gives the replies of `tr` to the calls of `tr`. -/
abbrev Replies (E : Environment C R) : E.State → List (Event C R) → E.State → Prop :=
  Runs fun s e t => E.step s e.1 e.2 t

/-- What a program does against anything it does against an environment that
gives these replies. -/
theorem of_chaos {p : Prog C R α} {a b : (Environment.chaos C R).State} {o : Outcome α}
    (h : Exec (.chaos C R) p a tr o b) (hreplies : Replies E s tr t) : Exec E p s tr o t := by
  induction h generalizing s with
  | done x _ =>
      cases hreplies
      exact .done x _
  | halt why _ =>
      cases hreplies
      exact .halt why _
  | call _ _ ih =>
      cases hreplies with
      | cons hst hrest => exact .call hst (ih hrest)

end Exec

namespace Prog

/-- Under whatever replies, every call the program makes satisfies `P` and
every value it returns satisfies `Q`. -/
def Ensures (P : C → Prop) (Q : α → Prop) : Prog C R α → Prop
  | .done a => Q a
  | .halt _ => True
  | .call c k => P c ∧ ∀ r, (k r).Ensures P Q

/-- Every call the program can make satisfies `P`. -/
abbrev AllCalls (P : C → Prop) (p : Prog C R α) : Prop := p.Ensures P fun _ => True

variable {P P' : C → Prop} {Q Q' : α → Prop} {S : β → Prop}

theorem ensures_bind {p : Prog C R α} {f : α → Prog C R β} (hp : p.Ensures P Q)
    (hf : ∀ a, Q a → (f a).Ensures P S) : (p >>= f).Ensures P S := by
  induction p with
  | done a => exact hf a hp
  | halt why => trivial
  | call c k ih => exact ⟨hp.1, fun r => ih r (hp.2 r)⟩

theorem ensures_request_bind {c : C} {f : R c → Prog C R β} (hc : P c)
    (hf : ∀ r, (f r).Ensures P S) : (request c >>= f).Ensures P S := ⟨hc, hf⟩

/-- A pure computation makes no call. -/
theorem ensures_ofOutcome_bind {o : Outcome α} {f : α → Prog C R β}
    (hf : ∀ a, o = .ok a → (f a).Ensures P S) : ((ofOutcome o : Prog C R α) >>= f).Ensures P S := by
  cases o with
  | ok a => exact hf a rfl
  | error why => trivial

theorem allCalls_bind {p : Prog C R α} {f : α → Prog C R β} (hp : p.AllCalls P)
    (hf : ∀ a, (f a).Ensures P S) : (p >>= f).Ensures P S :=
  ensures_bind hp fun a _ => hf a

/-- Nothing is asked. -/
theorem ensures_true (p : Prog C R α) : p.Ensures (fun _ => True) fun _ => True := by
  induction p with
  | done a => trivial
  | halt why => trivial
  | call c k ih => exact ⟨trivial, ih⟩

theorem Ensures.mono {p : Prog C R α} (hp : p.Ensures P Q) (hP : ∀ c, P c → P' c)
    (hQ : ∀ a, Q a → Q' a) : p.Ensures P' Q' := by
  induction p with
  | done a => exact hQ a hp
  | halt why => trivial
  | call c k ih => exact ⟨hP c hp.1, fun r => ih r (hp.2 r)⟩

/-- The calls of a run are calls the program can make. -/
theorem Ensures.calls_of_exec {E : Environment C R} {p : Prog C R α} {s t : E.State}
    {tr : List (Event C R)} {o : Outcome α} (hp : p.Ensures P Q) (h : Exec E p s tr o t) :
    ∀ e ∈ tr, P e.1 := by
  induction h with
  | done _ _ => simp
  | halt _ _ => simp
  | call _ _ ih =>
      intro e he
      rcases List.mem_cons.mp he with rfl | he
      · exact hp.1
      · exact ih (hp.2 _) e he

theorem Ensures.result_of_exec {E : Environment C R} {p : Prog C R α} {s t : E.State}
    {tr : List (Event C R)} {a : α} (hp : p.Ensures P Q) (h : Exec E p s tr (.ok a) t) :
    Q a := by
  generalize ho : (Except.ok a : Outcome α) = o at h
  induction h with
  | done b _ =>
      cases ho
      exact hp
  | halt _ _ => cases ho
  | call _ _ ih => exact ih (hp.2 _) ho

end Prog

/-! ## Programs under way -/

/-- The program `p` was started in `s`, has made the calls of `tr`, and has
`rest` to do. -/
inductive Underway (E : Environment C R) (p : Prog C R α) (s : E.State) :
    List (Event C R) → Prog C R α → E.State → Prop
  | start : Underway E p s [] p s
  | call {tr : List (Event C R)} {c : C} {k : R c → Prog C R α} {u t : E.State} {r : R c} :
      Underway E p s tr (.call c k) u → E.step u c r t →
      Underway E p s (tr ++ [⟨c, r⟩]) (k r) t

namespace Underway

variable {E : Environment C R} {s t u : E.State} {tr tr' : List (Event C R)}

theorem cons {c : C} {k : R c → Prog C R α} {r : R c} {rest : Prog C R α}
    (hstep : E.step s c r u) (h : Underway E (k r) u tr rest t) :
    Underway E (.call c k) s (⟨c, r⟩ :: tr) rest t := by
  induction h with
  | start => exact .call .start hstep
  | call _ hst ih => exact .call ih hst

/-- A program that begins with a call is still at it or has made it. -/
theorem uncons {c : C} {k : R c → Prog C R α} {rest : Prog C R α}
    (h : Underway E (.call c k) s tr rest t) :
    (tr = [] ∧ rest = .call c k ∧ t = s) ∨
      ∃ r u tr', tr = ⟨c, r⟩ :: tr' ∧ E.step s c r u ∧ Underway E (k r) u tr' rest t := by
  induction h with
  | start => exact .inl ⟨rfl, rfl, rfl⟩
  | @call _ _ _ u t r _ hstep ih =>
      rcases ih with ⟨rfl, heq, rfl⟩ | ⟨r', v, tr', rfl, hs, hu⟩
      · cases heq
        exact .inr ⟨r, t, [], rfl, hstep, .start⟩
      · exact .inr ⟨r', v, _, rfl, hs, .call hu hstep⟩

/-- When the rest is done, so is the program. -/
theorem exec {p rest : Prog C R α} {o : Outcome α} (h : Underway E p s tr rest u)
    (hrest : Exec E rest u tr' o t) : Exec E p s (tr ++ tr') o t := by
  induction h generalizing tr' with
  | start => exact hrest
  | call _ hstep ih =>
      rw [List.append_assoc]
      exact ih (.call hstep hrest)

/-- What is ensured holds of the calls that were made and of the rest. -/
theorem ensures {p rest : Prog C R α} {P : C → Prop} {Q : α → Prop}
    (h : Underway E p s tr rest t) (hp : p.Ensures P Q) :
    (∀ e ∈ tr, P e.1) ∧ rest.Ensures P Q := by
  induction h with
  | start => exact ⟨fun e he => (List.not_mem_nil he).elim, hp⟩
  | call _ _ ih =>
      refine ⟨fun e he => ?_, ih.2.2 _⟩
      rcases List.mem_append.mp he with he | he
      · exact ih.1 e he
      · obtain rfl := List.mem_singleton.mp he
        exact ih.2.1

end Underway

namespace Prog

variable {P : C → Prop} {Q : α → Prop} {S : β → Prop}

/-! A program that looks at a reply and stops where it does not like it: the
event is the last of the run, and the value tells of it. -/

/-- Every reply that makes an event satisfy `F` ends the program, with a value
that satisfies `T` of the event. -/
def FailsFast (F : Event C R → Prop) (T : Event C R → α → Prop) : Prog C R α → Prop
  | .done _ => True
  | .halt _ => True
  | .call c k => ∀ r, (F ⟨c, r⟩ → ∃ a, k r = .done a ∧ T ⟨c, r⟩ a) ∧ (k r).FailsFast F T

variable {F : Event C R → Prop} {T : Event C R → α → Prop} {U : Event C R → β → Prop}

/-- What comes behind the end of a program that failed must be an end as well. -/
theorem FailsFast.bind {p : Prog C R α} {f : α → Prog C R β} (hp : p.FailsFast F T)
    (hend : ∀ e a, T e a → ∃ b, f a = .done b ∧ U e b) (hf : ∀ a, (f a).FailsFast F U) :
    (p >>= f).FailsFast F U := by
  induction p with
  | done a => exact hf a
  | halt why => trivial
  | call c k ih =>
      intro r
      obtain ⟨hfail, hrest⟩ := hp r
      refine ⟨?_, ih r hrest⟩
      intro hF
      obtain ⟨a, hk, ha⟩ := hfail hF
      obtain ⟨b, hfa, hb⟩ := hend _ a ha
      refine ⟨b, ?_, hb⟩
      show k r >>= f = .done b
      rw [hk]
      exact hfa

theorem failsFast_request_bind {c : C} {f : R c → Prog C R β}
    (h : ∀ r, (F ⟨c, r⟩ → ∃ b, f r = .done b ∧ U ⟨c, r⟩ b) ∧ (f r).FailsFast F U) :
    (request c >>= f).FailsFast F U := h

theorem failsFast_ofOutcome_bind {o : Outcome α} {f : α → Prog C R β}
    (hf : ∀ a, (f a).FailsFast F U) : ((ofOutcome o : Prog C R α) >>= f).FailsFast F U := by
  cases o with
  | ok a => exact hf a
  | error why => trivial

/-- A run with such an event returns, and what it returns tells of the event. -/
theorem FailsFast.result_of_exec {E : Environment C R} {p : Prog C R α} {s t : E.State}
    {tr : List (Event C R)} {o : Outcome α} (hp : p.FailsFast F T) (h : Exec E p s tr o t)
    {e : Event C R} (he : e ∈ tr) (hF : F e) : ∃ a, o = .ok a ∧ T e a := by
  induction h with
  | done _ _ => cases he
  | halt _ _ => cases he
  | call _ hk ih =>
      obtain ⟨hfail, hrest⟩ := hp _
      rcases List.mem_cons.mp he with rfl | he
      · obtain ⟨a, hdone, ha⟩ := hfail hF
        rw [hdone] at hk
        obtain ⟨-, rfl, -⟩ := Exec.done_iff.mp hk
        exact ⟨a, rfl, ha⟩
      · exact ih hrest he

end Prog

/-! ## Programs that return a `Result`

`ExceptT ε (Prog C R)` is a program with early returns. The lemmas compute its
`run` at the three things a step of such a program can be: a call, a check
that was made without one, and another such program. -/

section EarlyReturn

variable {ε : Type} {P : C → Prop}

@[simp] theorem run_request_bind (c : C) (f : R c → ExceptT ε (Prog C R) β) :
    ExceptT.run (liftM (Prog.request c : Prog C R (R c)) >>= f) =
      .call c fun r => (f r).run := rfl

@[simp] theorem run_request (c : C) :
    ExceptT.run (liftM (Prog.request c : Prog C R (R c)) : ExceptT ε (Prog C R) (R c)) =
      .call c fun r => .done (.ok r) := rfl

theorem run_lift_bind (p : Prog C R α) (f : α → ExceptT ε (Prog C R) β) :
    ExceptT.run (liftM p >>= f) = p >>= fun a => (f a).run :=
  ExceptT.run_bind_lift p f

@[simp] theorem run_except_bind (x : Except ε α) (f : α → ExceptT ε (Prog C R) β) :
    ExceptT.run (liftM x >>= f) =
      match x with
      | .ok a => (f a).run
      | .error e => .done (.error e) := by
  cases x <;> rfl

@[simp] theorem run_except (x : Except ε α) :
    ExceptT.run (liftM x : ExceptT ε (Prog C R) α) = .done x := rfl

theorem run_bind (p : ExceptT ε (Prog C R) α) (f : α → ExceptT ε (Prog C R) β) :
    (p >>= f).run = p.run >>= fun x =>
      match x with
      | .ok a => (f a).run
      | .error e => .done (.error e) := by
  rw [ExceptT.run_bind]
  congr 1
  funext x
  cases x <;> rfl

theorem allCalls_run_bind {p : ExceptT ε (Prog C R) α} {f : α → ExceptT ε (Prog C R) β}
    (hp : p.run.AllCalls P) (hf : ∀ a, (f a).run.AllCalls P) : (p >>= f).run.AllCalls P := by
  rw [run_bind]
  refine Prog.allCalls_bind hp fun x => ?_
  cases x with
  | ok a => exact hf a
  | error e => trivial

theorem allCalls_run_except_bind {x : Except ε α} {f : α → ExceptT ε (Prog C R) β}
    (hf : ∀ a, x = .ok a → (f a).run.AllCalls P) :
    ExceptT.run (liftM x >>= f) |>.AllCalls P := by
  cases x with
  | ok a => exact hf a rfl
  | error e => trivial

theorem allCalls_run_lift_bind {p : Prog C R α} {f : α → ExceptT ε (Prog C R) β}
    (hp : p.AllCalls P) (hf : ∀ a, (f a).run.AllCalls P) :
    ExceptT.run (liftM p >>= f) |>.AllCalls P := by
  rw [run_lift_bind]
  exact Prog.allCalls_bind hp hf

theorem allCalls_run_request_bind {c : C} {f : R c → ExceptT ε (Prog C R) β} (hc : P c)
    (hf : ∀ r, (f r).run.AllCalls P) :
    ExceptT.run (liftM (Prog.request c : Prog C R (R c)) >>= f) |>.AllCalls P :=
  ⟨hc, hf⟩

theorem exec_run_request_bind {E : Environment C R} {s t : E.State} {tr : List (Event C R)}
    {c : C} {f : R c → ExceptT ε (Prog C R) β} {o : Outcome (Except ε β)}
    (h : Exec E (ExceptT.run (liftM (Prog.request c : Prog C R (R c)) >>= f)) s tr o t) :
    ∃ r u tr', tr = ⟨c, r⟩ :: tr' ∧ E.step s c r u ∧ Exec E (f r).run u tr' o t :=
  Exec.call_iff.mp h

theorem exec_run_lift_bind {E : Environment C R} {s t : E.State} {tr : List (Event C R)}
    {p : Prog C R α} {f : α → ExceptT ε (Prog C R) β} {o : Outcome (Except ε β)}
    (h : Exec E (ExceptT.run (liftM p >>= f)) s tr o t) :
    (∃ a u tr₁ tr₂, tr = tr₁ ++ tr₂ ∧ Exec E p s tr₁ (.ok a) u ∧ Exec E (f a).run u tr₂ o t) ∨
      ∃ why, o = .error why ∧ Exec E p s tr (.error why) t := by
  rw [run_lift_bind] at h
  exact Exec.bind_iff.mp h

theorem exec_run_ok {E : Environment C R} {s t : E.State} {tr : List (Event C R)} {a : α}
    {o : Outcome (Except ε α)} (h : Exec E (ExceptT.run (pure a)) s tr o t) :
    tr = [] ∧ o = .ok (.ok a) ∧ t = s := Exec.done_iff.mp h

theorem exec_run_error {E : Environment C R} {s t : E.State} {tr : List (Event C R)} {e : ε}
    {o : Outcome (Except ε α)} (h : Exec E (ExceptT.run (throw e)) s tr o t) :
    tr = [] ∧ o = .ok (.error e) ∧ t = s := Exec.done_iff.mp h

end EarlyReturn

end Ext4Lwext4.Framework
