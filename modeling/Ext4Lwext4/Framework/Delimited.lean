import Mathlib.Data.List.Infix

/-! # Delimited words

A word without a delimiter, followed by the delimiter, can be read off any
string that begins with it. So delimited words are a prefix-free code, and a
table of them is looked up by prefix without ambiguity. -/

namespace Ext4Lwext4.Framework

variable {α : Type*} {d : α} {u v x y : List α}

/-- The word before the first delimiter is determined, and so is the rest. -/
theorem append_delimiter_inj (hu : d ∉ u) (hv : d ∉ v) :
    u ++ d :: x = v ++ d :: y ↔ u = v ∧ x = y := by
  constructor
  · intro h
    induction u generalizing v with
    | nil =>
        cases v with
        | nil =>
            cases h
            exact ⟨rfl, rfl⟩
        | cons b v =>
            cases h
            exact absurd List.mem_cons_self hv
    | cons a u ih =>
        cases v with
        | nil =>
            cases h
            exact absurd List.mem_cons_self hu
        | cons b v =>
            rw [List.cons_append, List.cons_append, List.cons.injEq] at h
            obtain ⟨rfl, h⟩ := h
            obtain ⟨rfl, rfl⟩ := ih (fun hd => hu (List.mem_cons_of_mem _ hd))
              (fun hd => hv (List.mem_cons_of_mem _ hd)) h
            exact ⟨rfl, rfl⟩
  · rintro ⟨rfl, rfl⟩
    rfl

/-- Likewise the word behind the last delimiter. -/
theorem delimiter_append_inj (hu : d ∉ u) (hv : d ∉ v) :
    x ++ d :: u = y ++ d :: v ↔ x = y ∧ u = v := by
  rw [← List.reverse_inj, List.reverse_append, List.reverse_append, List.reverse_cons,
    List.reverse_cons, List.append_assoc, List.append_assoc, List.singleton_append,
    List.singleton_append, append_delimiter_inj (by simpa using hu) (by simpa using hv),
    List.reverse_inj, List.reverse_inj]
  exact and_comm

/-- The word before the first delimiter is all up to it. -/
theorem takeWhile_delimited [DecidableEq α] (hu : d ∉ u) :
    (u ++ d :: x).takeWhile (· ≠ d) = u := by
  have hall : ∀ a ∈ u, decide (a ≠ d) = true := by
    intro a ha
    rw [decide_eq_true_eq]
    rintro rfl
    exact hu ha
  rw [List.takeWhile_append_of_pos hall, List.takeWhile_cons_of_neg (by simp), List.append_nil]

/-- A delimited word is a prefix of a string that begins with one only if it
is that word. -/
theorem delimited_prefix_iff (hu : d ∉ u) (hv : d ∉ v) :
    u ++ [d] <+: v ++ d :: y ↔ u = v := by
  constructor
  · rintro ⟨x, h⟩
    rw [List.append_assoc, List.singleton_append] at h
    exact ((append_delimiter_inj hu hv).mp h).1
  · rintro rfl
    exact ⟨y, by simp⟩

/-- A lookup of the first element that satisfies a predicate finds the only
one there is. -/
theorem find?_eq_some_of_unique {p : α → Bool} {l : List α} {a : α} (ha : a ∈ l)
    (hp : ∀ b ∈ l, p b = true ↔ b = a) : l.find? p = some a := by
  cases hf : l.find? p with
  | none =>
      have := List.find?_eq_none.mp hf a ha
      exact absurd ((hp a ha).mpr rfl) this
  | some b =>
      have hb := (hp b (List.mem_of_find?_eq_some hf)).mp (List.find?_some hf)
      rw [hb]

end Ext4Lwext4.Framework
