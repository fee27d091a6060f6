import Ext4Lwext4.Framework.Overlay

/-! # A list with a place in it

What a reader and writer of a sequential file sees: cells, and the place where
the next transfer starts, which is never behind the last cell. Transfers that
follow each other are one transfer. -/

namespace Ext4Lwext4.Framework

variable {α : Type*}

@[ext]
structure Cursor (α : Type*) where
  cells : List α
  pos : ℕ
  pos_le : pos ≤ cells.length

namespace Cursor

/-- The cells from the place on. -/
def rest (c : Cursor α) : List α := c.cells.drop c.pos

/-- The next `n` cells. -/
def peek (c : Cursor α) (n : ℕ) : List α := window c.cells c.pos n

/-- Go to a place, or to the end where there is no such place. -/
def moveTo (c : Cursor α) (p : ℕ) : Cursor α :=
  ⟨c.cells, min p c.cells.length, Nat.min_le_right _ _⟩

def skip (c : Cursor α) (n : ℕ) : Cursor α := c.moveTo (c.pos + n)

theorem length_overlay_max {image cells : List α} {off : ℕ} (h : off ≤ image.length) :
    (overlay image off cells).length = max image.length (off + cells.length) := by
  simp only [overlay, List.length_append, List.length_take, List.length_drop]
  omega

/-- Write over the next cells, and go behind what was written. -/
def put (c : Cursor α) (xs : List α) : Cursor α where
  cells := overlay c.cells c.pos xs
  pos := c.pos + xs.length
  pos_le := by
    rw [length_overlay_max c.pos_le]
    exact Nat.le_max_right _ _

/-- A list cut off, or filled up to a length. -/
def resized (fill : Option α) (cells : List α) (n : ℕ) : List α :=
  match fill with
  | some zero => cells.take n ++ List.replicate (n - cells.length) zero
  | none => cells.take n

theorem le_length_resized {fill : Option α} {cells : List α} {p : ℕ} (h : p ≤ cells.length)
    (n : ℕ) : min p n ≤ (resized fill cells n).length := by
  unfold resized
  cases fill <;> simp only [List.length_append, List.length_take, List.length_replicate] <;> omega

/-- Cut off behind `n` cells, or fill up to them where there is something to fill with. -/
def resize (c : Cursor α) (fill : Option α) (n : ℕ) : Cursor α :=
  ⟨resized fill c.cells n, min c.pos n, le_length_resized c.pos_le n⟩

variable {c : Cursor α}

theorem length_rest : c.rest.length = c.cells.length - c.pos := List.length_drop

@[simp] theorem moveTo_cells (p : ℕ) : (c.moveTo p).cells = c.cells := rfl
@[simp] theorem skip_cells (n : ℕ) : (c.skip n).cells = c.cells := rfl
@[simp] theorem put_cells (xs : List α) : (c.put xs).cells = overlay c.cells c.pos xs := rfl
@[simp] theorem put_pos (xs : List α) : (c.put xs).pos = c.pos + xs.length := rfl

theorem moveTo_pos {p : ℕ} (h : p ≤ c.cells.length) : (c.moveTo p).pos = p := Nat.min_eq_left h

theorem skip_pos {n : ℕ} (h : n ≤ c.rest.length) : (c.skip n).pos = c.pos + n := by
  have hle := c.pos_le
  rw [length_rest] at h
  exact moveTo_pos (by omega)

@[simp] theorem skip_zero : c.skip 0 = c := Cursor.ext rfl (Nat.min_eq_left c.pos_le)

theorem length_peek {n : ℕ} (h : n ≤ c.rest.length) : (c.peek n).length = n := by
  have hle := c.pos_le
  rw [length_rest] at h
  exact length_window (by omega)

/-- The front part of what is left, and what is left behind it. -/
theorem peek_append_rest {n : ℕ} (h : n ≤ c.rest.length) :
    c.peek n ++ (c.skip n).rest = c.rest := by
  rw [rest, rest, skip_cells, skip_pos h, ← List.drop_drop]
  exact List.take_append_drop _ _

theorem length_rest_skip {n : ℕ} (h : n ≤ c.rest.length) :
    (c.skip n).rest.length = c.rest.length - n := by
  rw [length_rest, length_rest, skip_cells, skip_pos h, Nat.sub_sub]

/-- At the end nothing is left. -/
theorem rest_eq_nil : c.rest = [] ↔ c = c.moveTo c.cells.length := by
  have hle := c.pos_le
  rw [rest, List.drop_eq_nil_iff]
  constructor
  · intro h
    refine Cursor.ext rfl ?_
    rw [moveTo_pos (Nat.le_refl _)]
    omega
  · intro h
    rw [h, moveTo_pos (Nat.le_refl _)]
    exact Nat.le_refl _

@[simp] theorem rest_moveTo_zero : (c.moveTo 0).rest = c.cells := by
  rw [rest, moveTo_pos (Nat.zero_le _), moveTo_cells, List.drop_zero]

theorem put_nil : c.put [] = c := Cursor.ext (overlay_nil _ _) rfl

/-- Two writes that follow each other are one. -/
theorem put_append (xs ys : List α) : (c.put xs).put ys = c.put (xs ++ ys) := by
  have htake : (c.cells.take c.pos ++ xs).length = c.pos + xs.length := by
    rw [List.length_append, List.length_take, Nat.min_eq_left c.pos_le]
  refine Cursor.ext ?_ ?_
  · simp only [put_cells, put_pos, overlay]
    rw [List.take_left' htake, ← List.drop_drop, List.drop_left' htake, List.drop_drop,
      List.length_append, Nat.add_assoc, List.append_assoc _ xs ys]
  · rw [put_pos, put_pos, put_pos, List.length_append, Nat.add_assoc]

end Cursor

end Ext4Lwext4.Framework
