import Mathlib.Data.List.Induction
import Mathlib.Tactic.Common

/-! # Writes into a finite image

An image is a list, a write puts a run of cells at an offset. Read cell by
cell, the image after any number of writes holds at each place what the most
recent write covering that place put there (`getElem?_applyWrites`); nothing
is asked about how the ranges of the writes overlap. -/

namespace Ext4Lwext4.Framework

variable {α : Type*}

/-- The `n` cells from `off` on. -/
def window (image : List α) (off n : ℕ) : List α := (image.drop off).take n

def overlay (image : List α) (off : ℕ) (cells : List α) : List α :=
  image.take off ++ cells ++ image.drop (off + cells.length)

/-- A write that may reach past the end: the image is first padded with `zero`
up to the place where the write starts. -/
def overlayGrow (zero : α) (image : List α) (off : ℕ) (cells : List α) : List α :=
  overlay (image ++ List.replicate (off - image.length) zero) off cells

theorem length_window {image : List α} {off n : ℕ} (h : off + n ≤ image.length) :
    (window image off n).length = n := by
  simp only [window, List.length_take, List.length_drop]
  omega

theorem getElem?_window (image : List α) (off n i : ℕ) :
    (window image off n)[i]? = if i < n then image[off + i]? else none := by
  rw [window, List.getElem?_take, List.getElem?_drop]

/-- Two windows side by side are one. -/
theorem window_append (image : List α) (off a b : ℕ) :
    window image off a ++ window image (off + a) b = window image off (a + b) := by
  rw [window, window, window, List.take_add, List.drop_drop]

/-- A window reaching past the end is cut short. -/
theorem length_window_lt {image : List α} {off n : ℕ} (h : image.length < off + n)
    (hn : 0 < n) : (window image off n).length < n := by
  simp only [window, List.length_take, List.length_drop]
  omega

theorem length_overlay {image : List α} {off : ℕ} {cells : List α}
    (h : off + cells.length ≤ image.length) :
    (overlay image off cells).length = image.length := by
  simp only [overlay, List.length_append, List.length_take, List.length_drop]
  omega

theorem length_overlayGrow (zero : α) (image : List α) (off : ℕ) (cells : List α) :
    (overlayGrow zero image off cells).length = max image.length (off + cells.length) := by
  simp only [overlayGrow, overlay, List.length_append, List.length_take, List.length_drop,
    List.length_replicate]
  omega

/-- Inside its range a write is all that is left. -/
theorem overlay_inside {image : List α} {off : ℕ} {cells : List α} {i : ℕ}
    (h : off ≤ image.length) (hlo : off ≤ i) (hhi : i < off + cells.length) :
    (overlay image off cells)[i]? = cells[i - off]? := by
  have htake : (image.take off).length = off := by
    rw [List.length_take, Nat.min_eq_left h]
  unfold overlay
  rw [List.append_assoc, List.getElem?_append_right (by omega), htake,
    List.getElem?_append_left (by omega)]

/-- Outside its range a write changes nothing. -/
theorem overlay_outside {image : List α} {off : ℕ} {cells : List α} {i : ℕ}
    (h : off ≤ image.length) (hout : i < off ∨ off + cells.length ≤ i) :
    (overlay image off cells)[i]? = image[i]? := by
  have htake : (image.take off).length = off := by
    rw [List.length_take, Nat.min_eq_left h]
  unfold overlay
  rcases hout with hlt | hge
  · rw [List.append_assoc, List.getElem?_append_left (by omega), List.getElem?_take,
      if_pos hlt]
  · rw [List.getElem?_append_right (by simp only [List.length_append]; omega),
      List.getElem?_drop]
    congr 1
    simp only [List.length_append, htake]
    omega

@[simp] theorem overlay_nil (image : List α) (off : ℕ) : overlay image off [] = image := by
  simp [overlay]

/-- A write that stays inside the image does not grow it. -/
theorem overlayGrow_eq {zero : α} {image : List α} {off : ℕ} {cells : List α}
    (h : off ≤ image.length) : overlayGrow zero image off cells = overlay image off cells := by
  have hpad : off - image.length = 0 := by omega
  simp [overlayGrow, hpad]

/-! ## Writes into a file -/

/-- A write at any offset. One of nothing leaves the image alone. -/
def overwrite (zero : α) (image : List α) (off : ℕ) (cells : List α) : List α :=
  if cells.length = 0 then image else overlayGrow zero image off cells

@[simp] theorem overwrite_nil (zero : α) (image : List α) (off : ℕ) :
    overwrite zero image off [] = image := rfl

/-- A write that starts in the image, or right behind it, leaves no gap to fill. -/
theorem overwrite_eq {zero : α} {image : List α} {off : ℕ} {cells : List α}
    (h : off ≤ image.length) : overwrite zero image off cells = overlay image off cells := by
  by_cases hcells : cells.length = 0
  · obtain rfl := List.length_eq_zero_iff.mp hcells
    rw [overwrite_nil, overlay_nil]
  · rw [overwrite, if_neg hcells, overlayGrow_eq h]

/-- Two writes of which the second starts where the first ends are one. -/
theorem overwrite_append (zero : α) (image : List α) (off : ℕ) (front back : List α) :
    overwrite zero (overwrite zero image off front) (off + front.length) back =
      overwrite zero image off (front ++ back) := by
  by_cases hf : front.length = 0
  · obtain rfl := List.length_eq_zero_iff.mp hf
    rw [overwrite_nil, List.length_nil, Nat.add_zero, List.nil_append]
  by_cases hb : back.length = 0
  · obtain rfl := List.length_eq_zero_iff.mp hb
    rw [overwrite_nil, List.append_nil]
  have hfb : (front ++ back).length ≠ 0 := by
    rw [List.length_append]
    omega
  have hlen := length_overlayGrow zero image off front
  -- the first write has padded the image up to where it starts
  rw [overwrite, overwrite, overwrite, if_neg hf, if_neg hb, if_neg hfb,
    overlayGrow_eq (by omega)]
  generalize hpad : image ++ List.replicate (off - image.length) zero = padded
  have hoff : off ≤ padded.length := by
    rw [← hpad, List.length_append, List.length_replicate]
    omega
  have htake : (padded.take off ++ front).length = off + front.length := by
    rw [List.length_append, List.length_take, Nat.min_eq_left hoff]
  simp only [overlayGrow, hpad, overlay]
  rw [List.take_left' htake, ← List.drop_drop, List.drop_left' htake, List.drop_drop,
    List.length_append, Nat.add_assoc, List.append_assoc _ front back]

/-! ## Histories of writes -/

/-- A write: where it starts and what it puts there. -/
abbrev Write (α : Type*) : Type _ := ℕ × List α

def Write.covers (w : Write α) (i : ℕ) : Bool := w.1 ≤ i && i < w.1 + w.2.length

def applyWrites (image : List α) (ws : List (Write α)) : List α :=
  ws.foldl (fun image w => overlay image w.1 w.2) image

/-- What place `i` holds by the history alone: the cell of the most recent
write that covers `i`, or of the initial image where none does. -/
def lastWritten (image : List α) (ws : List (Write α)) (i : ℕ) : Option α :=
  match ws.reverse.find? (·.covers i) with
  | some w => w.2[i - w.1]?
  | none => image[i]?

@[simp] theorem applyWrites_nil (image : List α) : applyWrites image [] = image := rfl

theorem applyWrites_append (image : List α) (ws vs : List (Write α)) :
    applyWrites image (ws ++ vs) = applyWrites (applyWrites image ws) vs := by
  simp [applyWrites, List.foldl_append]

theorem applyWrites_append_singleton (image : List α) (ws : List (Write α)) (w : Write α) :
    applyWrites image (ws ++ [w]) = overlay (applyWrites image ws) w.1 w.2 := by
  simp [applyWrites, List.foldl_append]

@[simp] theorem lastWritten_nil (image : List α) (i : ℕ) : lastWritten image [] i = image[i]? := rfl

theorem lastWritten_append_singleton (image : List α) (ws : List (Write α)) (w : Write α) (i : ℕ) :
    lastWritten image (ws ++ [w]) i =
      if w.covers i then w.2[i - w.1]? else lastWritten image ws i := by
  unfold lastWritten
  rw [List.reverse_append, List.reverse_singleton, List.singleton_append, List.find?_cons]
  cases h : w.covers i <;> simp

/-- Every write of the history lies inside an image of `n` cells. -/
def Fits (n : ℕ) (ws : List (Write α)) : Prop := ∀ w ∈ ws, w.1 + w.2.length ≤ n

theorem length_applyWrites {image : List α} {ws : List (Write α)} (h : Fits image.length ws) :
    (applyWrites image ws).length = image.length := by
  induction ws using List.reverseRecOn with
  | nil => rfl
  | append_singleton ws w ih =>
      have hws : Fits image.length ws := fun v hv => h v (List.mem_append_left _ hv)
      have hw : w.1 + w.2.length ≤ image.length := h w (by simp)
      rw [applyWrites_append_singleton, length_overlay (by rw [ih hws]; exact hw), ih hws]

theorem getElem?_applyWrites {image : List α} {ws : List (Write α)} (h : Fits image.length ws)
    (i : ℕ) : (applyWrites image ws)[i]? = lastWritten image ws i := by
  induction ws using List.reverseRecOn with
  | nil => rfl
  | append_singleton ws w ih =>
      have hws : Fits image.length ws := fun v hv => h v (List.mem_append_left _ hv)
      have hw : w.1 + w.2.length ≤ image.length := h w (by simp)
      have hoff : w.1 ≤ (applyWrites image ws).length := by
        rw [length_applyWrites hws]
        omega
      rw [applyWrites_append_singleton, lastWritten_append_singleton, ← ih hws]
      -- the newest write decides where it covers the place, the older ones elsewhere
      cases hc : w.covers i with
      | true =>
          have hc' : w.1 ≤ i ∧ i < w.1 + w.2.length := by simpa [Write.covers] using hc
          rw [overlay_inside hoff hc'.1 hc'.2, if_pos rfl]
      | false =>
          have hc' : i < w.1 ∨ w.1 + w.2.length ≤ i := by
            simp only [Write.covers, Bool.and_eq_false_iff, decide_eq_false_iff_not] at hc
            omega
          rw [overlay_outside hoff hc', if_neg (by simp)]

theorem Fits.append {n : ℕ} {ws vs : List (Write α)} (hw : Fits n ws) (hv : Fits n vs) :
    Fits n (ws ++ vs) := by
  intro w h
  rcases List.mem_append.mp h with h | h
  · exact hw w h
  · exact hv w h

/-- A place that no write of the history covers keeps its cell. -/
theorem applyWrites_frame {image : List α} {ws : List (Write α)} {i : ℕ}
    (h : Fits image.length ws) (hi : ∀ w ∈ ws, w.covers i = false) :
    (applyWrites image ws)[i]? = image[i]? := by
  have hnone : ws.reverse.find? (·.covers i) = none := by
    rw [List.find?_eq_none]
    intro w hw
    rw [hi w (List.mem_reverse.mp hw)]
    exact Bool.false_ne_true
  rw [getElem?_applyWrites h, lastWritten, hnone]

end Ext4Lwext4.Framework
