import Ext4Lwext4.Model.Rust

/-! # Lossy conversion

What `String::from_utf8_lossy` makes of a text, whole or cut off at a byte.
Well-formed text comes back as it is, so the conversion only ever changes what
a `str` could not hold; a cut inside a character leaves U+FFFD in its place. -/

namespace Ext4Lwext4.Metatheory

open Ext4Lwext4.Model

/-! ## The encoding of a character -/

/-- The byte strings a chunk is read from whole. -/
inductive CharShape : Bytes → Prop
  | one {a : UInt8} : utf8Width a = 1 → CharShape [a]
  | two {a b : UInt8} : utf8Width a = 2 → secondByteOk a b = true → CharShape [a, b]
  | three {a b d : UInt8} : utf8Width a = 3 → secondByteOk a b = true →
      isContinuation d = true → CharShape [a, b, d]
  | four {a b d e : UInt8} : utf8Width a = 4 → secondByteOk a b = true →
      isContinuation d = true → isContinuation e = true → CharShape [a, b, d, e]

theorem utf8Width_eq (b : UInt8) :
    utf8Width b =
      if b.toNat < 0x80 then 1
      else if 0xC2 ≤ b.toNat ∧ b.toNat ≤ 0xDF then 2
      else if 0xE0 ≤ b.toNat ∧ b.toNat ≤ 0xEF then 3
      else if 0xF0 ≤ b.toNat ∧ b.toNat ≤ 0xF4 then 4
      else 0 := by
  simp only [utf8Width, UInt8.lt_iff_toNat_lt, UInt8.le_iff_toNat_le]
  rfl

theorem isContinuation_iff {b : UInt8} :
    isContinuation b = true ↔ 0x80 ≤ b.toNat ∧ b.toNat < 0xC0 := by
  have hall : ∀ n : Fin 256,
      isContinuation (UInt8.ofNat n) = true ↔ 0x80 ≤ n.val ∧ n.val < 0xC0 := by
    decide +kernel
  simpa using hall ⟨b.toNat, b.toNat_lt⟩

theorem secondByteOk_iff {a b : UInt8} :
    secondByteOk a b = true ↔ 0x80 ≤ b.toNat ∧ b.toNat < 0xC0 ∧
      (a.toNat = 0xE0 → 0xA0 ≤ b.toNat) ∧ (a.toNat = 0xED → b.toNat ≤ 0x9F) ∧
      (a.toNat = 0xF0 → 0x90 ≤ b.toNat) ∧ (a.toNat = 0xF4 → b.toNat ≤ 0x8F) := by
  have hcont := @isContinuation_iff b
  unfold secondByteOk
  simp only [← UInt8.toNat_inj, UInt8.le_iff_toNat_le, UInt8.reduceToNat]
  -- the four first bytes that narrow the second one, and all others
  split
  · rw [decide_eq_true_eq]
    omega
  split
  · rw [decide_eq_true_eq]
    omega
  split
  · rw [decide_eq_true_eq]
    omega
  split
  · rw [decide_eq_true_eq]
    omega
  · rw [hcont]
    omega

/-- The shape of an encoding: surrogates and the bound on code points give the
second byte. -/
theorem charShape (c : Char) : CharShape (String.utf8EncodeChar c) := by
  have hvalid : c.val.toNat < 0xD800 ∨ 0xDFFF < c.val.toNat ∧ c.val.toNat < 0x110000 := c.valid
  unfold String.utf8EncodeChar
  dsimp only
  generalize c.val.toNat = v at hvalid
  split
  · refine .one ?_
    rw [utf8Width_eq, UInt8.toNat_ofNat', if_pos (by omega)]
  split
  · refine .two ?_ ?_
    · rw [utf8Width_eq, UInt8.toNat_ofNat', if_neg (by omega), if_pos (by omega)]
    · rw [secondByteOk_iff, UInt8.toNat_ofNat', UInt8.toNat_ofNat']
      omega
  split
  · refine .three ?_ ?_ ?_
    · rw [utf8Width_eq, UInt8.toNat_ofNat', if_neg (by omega), if_neg (by omega),
        if_pos (by omega)]
    · rw [secondByteOk_iff, UInt8.toNat_ofNat', UInt8.toNat_ofNat']
      omega
    · rw [isContinuation_iff, UInt8.toNat_ofNat']
      omega
  · refine .four ?_ ?_ ?_ ?_
    · rw [utf8Width_eq, UInt8.toNat_ofNat', if_neg (by omega), if_neg (by omega),
        if_neg (by omega), if_pos (by omega)]
    · rw [secondByteOk_iff, UInt8.toNat_ofNat', UInt8.toNat_ofNat']
      omega
    · rw [isContinuation_iff, UInt8.toNat_ofNat']
      omega
    · rw [isContinuation_iff, UInt8.toNat_ofNat']
      omega

/-! ## Chunks -/

section Chunks

variable {bytes : Bytes}

/-- A character is one chunk, whatever follows it. -/
theorem CharShape.chunk (h : CharShape bytes) (rest : Bytes) :
    utf8Chunk (bytes ++ rest) = (true, bytes.length) := by
  cases h with
  | one hwidth => simp [utf8Chunk, hwidth]
  | two hwidth hb => simp [utf8Chunk, hwidth, hb]
  | three hwidth hb hd => simp [utf8Chunk, hwidth, hb, hd]
  | four hwidth hb hd he => simp [utf8Chunk, hwidth, hb, hd, he]

/-- The front of one is a broken chunk, and all of it is. -/
theorem CharShape.chunk_take (h : CharShape bytes) {k : ℕ} (hpos : 0 < k)
    (hlt : k < bytes.length) : utf8Chunk (bytes.take k) = (false, k) := by
  cases h with
  | one hwidth =>
      rw [List.length_singleton] at hlt
      omega
  | two hwidth hb =>
      obtain rfl : k = 1 := by
        simp only [List.length_cons, List.length_nil] at hlt
        omega
      simp [utf8Chunk, hwidth]
  | three hwidth hb hd =>
      obtain rfl | rfl : k = 1 ∨ k = 2 := by
        simp only [List.length_cons, List.length_nil] at hlt
        omega
      · simp [utf8Chunk, hwidth]
      · simp [utf8Chunk, hwidth, hb]
  | four hwidth hb hd he =>
      obtain rfl | rfl | rfl : k = 1 ∨ k = 2 ∨ k = 3 := by
        simp only [List.length_cons, List.length_nil] at hlt
        omega
      · simp [utf8Chunk, hwidth]
      · simp [utf8Chunk, hwidth, hb]
      · simp [utf8Chunk, hwidth, hb, hd]

theorem lossyBytes_nil (fuel : ℕ) : lossyBytes fuel [] = [] := by
  cases fuel <;> rfl

theorem lossyBytes_of_ne_nil (fuel : ℕ) (h : bytes ≠ []) :
    lossyBytes (fuel + 1) bytes =
      (if (utf8Chunk bytes).1 then bytes.take (utf8Chunk bytes).2 else [0xEF, 0xBF, 0xBD]) ++
      lossyBytes fuel (bytes.drop (utf8Chunk bytes).2) := by
  cases bytes with
  | nil => exact absurd rfl h
  | cons b rest => rfl

/-- Nothing is written but the bytes read and those of U+FFFD. -/
theorem mem_lossyBytes {fuel : ℕ} {b : UInt8} (h : b ∈ lossyBytes fuel bytes) :
    b ∈ bytes ∨ b ∈ strBytes "\uFFFD" := by
  induction fuel generalizing bytes with
  | zero => cases h
  | succ fuel ih =>
      by_cases hnil : bytes = []
      · rw [hnil, lossyBytes_nil] at h
        cases h
      · rw [lossyBytes_of_ne_nil fuel hnil] at h
        rcases List.mem_append.mp h with h | h
        · split at h
          · exact .inl (List.mem_of_mem_take h)
          · exact .inr h
        · rcases ih h with h | h
          · exact .inl (List.mem_of_mem_drop h)
          · exact .inr h

end Chunks

theorem mem_fromUtf8Lossy {bytes : Bytes} {b : UInt8}
    (h : b ∈ strBytes (fromUtf8Lossy bytes)) : b ∈ bytes ∨ b ∈ strBytes "\uFFFD" := by
  unfold fromUtf8Lossy at h
  cases hutf : fromUtf8 (lossyBytes bytes.length bytes) with
  | none =>
      rw [hutf] at h
      cases h
  | some text =>
      rw [hutf, Option.getD_some, strBytes_of_fromUtf8 hutf] at h
      exact mem_lossyBytes h

/-! ## Text that is cut off -/

/-- The bytes of a list of characters. -/
def charBytes (cs : List Char) : Bytes := cs.flatMap String.utf8EncodeChar

@[simp] theorem charBytes_nil : charBytes [] = [] := rfl

@[simp] theorem charBytes_cons (c : Char) (cs : List Char) :
    charBytes (c :: cs) = String.utf8EncodeChar c ++ charBytes cs := rfl

theorem charBytes_toList (text : String) : charBytes text.toList = strBytes text := by
  rw [charBytes, ← strBytes_ofList, String.ofList_toList]

/-- What lossy conversion leaves of these characters where their bytes are cut
off after `n`. -/
def cutChars : List Char → ℕ → List Char
  | _, 0 => []
  | [], _ => []
  | c :: cs, n => if c.utf8Size ≤ n then c :: cutChars cs (n - c.utf8Size) else ['\uFFFD']

@[simp] theorem cutChars_zero (cs : List Char) : cutChars cs 0 = [] := by
  cases cs <;> rfl

@[simp] theorem cutChars_nil (n : ℕ) : cutChars [] n = [] := by
  cases n <;> rfl

theorem cutChars_cons (c : Char) (cs : List Char) {n : ℕ} (h : 0 < n) :
    cutChars (c :: cs) n =
      if c.utf8Size ≤ n then c :: cutChars cs (n - c.utf8Size) else ['\uFFFD'] := by
  obtain ⟨n, rfl⟩ := Nat.exists_eq_succ_of_ne_zero h.ne'
  rfl

theorem lossyBytes_take (cs : List Char) {n fuel : ℕ}
    (hfuel : ((charBytes cs).take n).length ≤ fuel) :
    lossyBytes fuel ((charBytes cs).take n) = charBytes (cutChars cs n) := by
  induction cs generalizing n fuel with
  | nil => rw [charBytes_nil, List.take_nil, lossyBytes_nil, cutChars_nil, charBytes_nil]
  | cons c cs ih =>
      rcases Nat.eq_zero_or_pos n with rfl | hpos
      · rw [List.take_zero, lossyBytes_nil, cutChars_zero, charBytes_nil]
      have hshape := charShape c
      have hsize := String.length_utf8EncodeChar c
      have hsizePos := c.utf8Size_pos
      have hne : (charBytes (c :: cs)).take n ≠ [] := by
        intro h
        have hlen := congrArg List.length h
        rw [charBytes_cons, List.length_take, List.length_append, List.length_nil] at hlen
        omega
      obtain ⟨fuel, rfl⟩ : ∃ m, fuel = m + 1 := by
        refine Nat.exists_eq_succ_of_ne_zero ?_
        rintro rfl
        exact hne (List.length_eq_zero_iff.mp (Nat.le_zero.mp hfuel))
      rw [lossyBytes_of_ne_nil fuel hne, cutChars_cons c cs hpos]
      by_cases hle : c.utf8Size ≤ n
      · -- the character is there whole, and the cut is further on
        have htake : (charBytes (c :: cs)).take n =
            String.utf8EncodeChar c ++ (charBytes cs).take (n - c.utf8Size) := by
          rw [charBytes_cons, List.take_append, hsize, List.take_of_length_le (hsize.trans_le hle)]
        rw [htake] at hfuel ⊢
        rw [List.length_append, hsize] at hfuel
        rw [hshape.chunk, if_pos rfl, List.take_left, List.drop_left, ih (by omega), if_pos hle,
          charBytes_cons]
      · -- the cut is inside it
        have hlt : n < (String.utf8EncodeChar c).length := by omega
        have htake : (charBytes (c :: cs)).take n = (String.utf8EncodeChar c).take n := by
          rw [charBytes_cons, List.take_append_of_le_length hlt.le]
        rw [htake, hshape.chunk_take hpos hlt, if_neg hle]
        have hdrop : ((String.utf8EncodeChar c).take n).drop n = [] :=
          List.drop_of_length_le (by rw [List.length_take]; omega)
        show _ ++ lossyBytes fuel (((String.utf8EncodeChar c).take n).drop n) = _
        rw [hdrop, lossyBytes_nil]
        rfl

/-- The lossy conversion of the first `n` bytes of a text. -/
theorem fromUtf8Lossy_take (text : String) (n : ℕ) :
    fromUtf8Lossy ((strBytes text).take n) = String.ofList (cutChars text.toList n) := by
  unfold fromUtf8Lossy
  rw [← charBytes_toList, lossyBytes_take text.toList le_rfl, charBytes, ← strBytes_ofList,
    fromUtf8_strBytes, Option.getD_some]

/-- A cut behind the last character changes nothing, and neither does one
inside it where that character is U+FFFD itself. -/
theorem cutChars_eq_self_iff {cs : List Char} {n : ℕ} :
    cutChars cs n = cs ↔ (charBytes cs).length ≤ n ∨
      ∃ front, cs = front ++ ['\uFFFD'] ∧ (charBytes front).length < n := by
  induction cs generalizing n with
  | nil => simp
  | cons c cs ih =>
      have hsize := String.length_utf8EncodeChar c
      have hsizePos := c.utf8Size_pos
      have hlen : (charBytes (c :: cs)).length = c.utf8Size + (charBytes cs).length := by
        rw [charBytes_cons, List.length_append, hsize]
      rw [hlen]
      rcases Nat.eq_zero_or_pos n with rfl | hpos
      · rw [cutChars_zero]
        refine iff_of_false (List.cons_ne_nil c cs).symm ?_
        rintro (hle | ⟨front, -, hlt⟩)
        · omega
        · omega
      rw [cutChars_cons c cs hpos]
      by_cases hle : c.utf8Size ≤ n
      · rw [if_pos hle, List.cons.injEq, eq_self_iff_true, true_and, ih]
        constructor
        · rintro (hfits | ⟨front, rfl, hlt⟩)
          · exact .inl (by omega)
          · refine .inr ⟨c :: front, rfl, ?_⟩
            rw [charBytes_cons, List.length_append, hsize]
            omega
        · rintro (hfits | ⟨front, hcs, hlt⟩)
          · exact .inl (by omega)
          · cases front with
            | nil =>
                obtain ⟨-, rfl⟩ := List.cons.inj hcs
                exact .inl (Nat.zero_le _)
            | cons d front =>
                obtain ⟨rfl, rfl⟩ := List.cons.inj hcs
                rw [charBytes_cons, List.length_append, hsize] at hlt
                exact .inr ⟨front, rfl, by omega⟩
      · rw [if_neg hle]
        constructor
        · intro h
          obtain ⟨rfl, rfl⟩ := List.cons.inj h
          exact .inr ⟨[], rfl, hpos⟩
        · rintro (hfits | ⟨front, hcs, hlt⟩)
          · omega
          · cases front with
            | nil => exact hcs.symm
            | cons d front =>
                obtain ⟨rfl, -⟩ := List.cons.inj hcs
                rw [charBytes_cons, List.length_append, hsize] at hlt
                omega

/-- The same of a text. -/
theorem fromUtf8Lossy_take_eq_self_iff {text : String} {n : ℕ} :
    fromUtf8Lossy ((strBytes text).take n) = text ↔ (strBytes text).length ≤ n ∨
      ∃ front, text = front ++ "\uFFFD" ∧ (strBytes front).length < n := by
  have hself : String.ofList (cutChars text.toList n) = text ↔
      cutChars text.toList n = text.toList := by
    rw [← String.toList_inj, String.toList_ofList]
  rw [fromUtf8Lossy_take, hself, cutChars_eq_self_iff, charBytes_toList]
  refine or_congr_right ?_
  constructor
  · rintro ⟨front, htext, hlt⟩
    refine ⟨String.ofList front, ?_, by rwa [strBytes_ofList]⟩
    rw [← String.toList_inj, String.toList_append, String.toList_ofList]
    exact htext
  · rintro ⟨front, rfl, hlt⟩
    refine ⟨front.toList, String.toList_append, ?_⟩
    rwa [charBytes_toList]

/-- Text comes back as it is. -/
theorem fromUtf8Lossy_strBytes (text : String) : fromUtf8Lossy (strBytes text) = text := by
  have hself : fromUtf8Lossy ((strBytes text).take (strBytes text).length) = text :=
    fromUtf8Lossy_take_eq_self_iff.mpr (.inl le_rfl)
  rwa [List.take_length] at hself

end Ext4Lwext4.Metatheory
