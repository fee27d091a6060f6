import Mathlib.Algebra.Order.Ring.Nat
import Mathlib.Tactic.Common
import Ext4Lwext4.Framework.Interaction

/-! # The Rust the crate is written in

Machine arithmetic in the two builds rustc makes (an overflow panics in one
and wraps in the other), checked slicing, `Vec<u8>`, `CString`, and the
conversions between bytes and strings. The target is 64-bit, so `usize` and
`u64` are one type. -/

namespace Ext4Lwext4.Model

open Ext4Lwext4.Framework

abbrev Bytes : Type := List UInt8

/-! ## Arithmetic -/

inductive Build
  | checked
  | wrapping
  deriving DecidableEq, Repr

/-- The `u64` result of an operation whose exact value is `n`. -/
def Build.arith (build : Build) (n : ℕ) : Outcome UInt64 :=
  match build with
  | .wrapping => .ok (UInt64.ofNat n)
  | .checked => if n < 2 ^ 64 then .ok (UInt64.ofNat n) else .error .panic

def Build.add64 (build : Build) (x y : UInt64) : Outcome UInt64 :=
  build.arith (x.toNat + y.toNat)

def Build.mul64 (build : Build) (x y : UInt64) : Outcome UInt64 :=
  build.arith (x.toNat * y.toNat)

/-- `x - y`, which overflows below zero. -/
def Build.sub64 (build : Build) (x y : UInt64) : Outcome UInt64 :=
  match build with
  | .wrapping => .ok (x - y)
  | .checked => if y ≤ x then .ok (x - y) else .error .panic

theorem Build.arith_of_lt {build : Build} {n : ℕ} (h : n < 2 ^ 64) :
    build.arith n = .ok (UInt64.ofNat n) := by
  cases build with
  | wrapping => rfl
  | checked => exact if_pos h

theorem Build.add64_of_lt {build : Build} {x y : UInt64}
    (h : x.toNat + y.toNat < 2 ^ 64) :
    build.add64 x y = .ok (UInt64.ofNat (x.toNat + y.toNat)) :=
  Build.arith_of_lt h

theorem Build.mul64_of_lt {build : Build} {x y : UInt64}
    (h : x.toNat * y.toNat < 2 ^ 64) :
    build.mul64 x y = .ok (UInt64.ofNat (x.toNat * y.toNat)) :=
  Build.arith_of_lt h

theorem Build.arith_checked_eq_ok {n : ℕ} {x : UInt64} :
    Build.checked.arith n = .ok x ↔ n < 2 ^ 64 ∧ x = UInt64.ofNat n := by
  by_cases h : n < 2 ^ 64
  · rw [Build.arith_of_lt h]
    simp only [Except.ok.injEq, h, true_and]
    exact eq_comm
  · constructor
    · intro hx
      cases (if_neg h).symm.trans hx
    · rintro ⟨hlt, _⟩
      exact absurd hlt h

theorem Build.sub64_of_le {build : Build} {x y : UInt64} (h : y ≤ x) :
    build.sub64 x y = .ok (x - y) := by
  cases build with
  | wrapping => rfl
  | checked => exact if_pos h

/-- The product of a `u64` and a `u32` that fits in 64 bits. -/
theorem Build.mul64_exact (build : Build) {x : UInt64} {y : UInt32}
    (h : x.toNat * y.toNat < 2 ^ 64) :
    ∃ z, build.mul64 x y.toUInt64 = .ok z ∧ z.toNat = x.toNat * y.toNat := by
  have hmul : x.toNat * y.toUInt64.toNat < 2 ^ 64 := by rwa [UInt32.toNat_toUInt64]
  refine ⟨_, Build.mul64_of_lt hmul, ?_⟩
  rw [UInt64.toNat_ofNat', UInt32.toNat_toUInt64]
  exact Nat.mod_eq_of_lt h

theorem toNat_arith {build : Build} {n : ℕ} {x : UInt64} (h : n < 2 ^ 64)
    (hx : build.arith n = .ok x) : x.toNat = n := by
  rw [Build.arith_of_lt h] at hx
  cases hx
  simpa using Nat.mod_eq_of_lt h

/-- Division by zero panics in both builds. -/
def div64 (x y : UInt64) : Outcome UInt64 :=
  if y = 0 then .error .panic else .ok (x / y)

def rem64 (x y : UInt64) : Outcome UInt64 :=
  if y = 0 then .error .panic else .ok (x % y)

def div32 (x y : UInt32) : Outcome UInt32 :=
  if y = 0 then .error .panic else .ok (x / y)

theorem toUInt64_ne_zero {x : UInt32} (h : x ≠ 0) : x.toUInt64 ≠ 0 := by
  intro h'
  apply h
  have hnat := congrArg UInt64.toNat h'
  exact UInt32.toNat_inj.mp (by simpa using hnat)

theorem toNat_pos {x : UInt32} (h : x ≠ 0) : 0 < x.toNat := by
  have hne : x.toNat ≠ (0 : UInt32).toNat := fun he => h (UInt32.toNat_inj.mp he)
  exact Nat.pos_of_ne_zero hne

theorem div64_eq_ok {x y q : UInt64} : div64 x y = .ok q ↔ y ≠ 0 ∧ q = x / y := by
  unfold div64
  by_cases h : y = 0
  · simp [h]
  · simp [h, eq_comm]

theorem rem64_eq_ok {x y r : UInt64} : rem64 x y = .ok r ↔ y ≠ 0 ∧ r = x % y := by
  unfold rem64
  by_cases h : y = 0
  · simp [h]
  · simp [h, eq_comm]

theorem div32_eq_ok {x y q : UInt32} : div32 x y = .ok q ↔ y ≠ 0 ∧ q = x / y := by
  unfold div32
  by_cases h : y = 0
  · simp [h]
  · simp [h, eq_comm]

@[simp] theorem div64_of_ne {x y : UInt64} (h : y ≠ 0) : div64 x y = .ok (x / y) := if_neg h
@[simp] theorem rem64_of_ne {x y : UInt64} (h : y ≠ 0) : rem64 x y = .ok (x % y) := if_neg h
@[simp] theorem div32_of_ne {x y : UInt32} (h : y ≠ 0) : div32 x y = .ok (x / y) := if_neg h

/-! ## Slices and vectors -/

/-- `isize::MAX`, the most bytes one allocation can hold. -/
def isizeMax : ℕ := 2 ^ 63 - 1

/-- `xs.len()`. -/
def len (xs : Bytes) : UInt64 := UInt64.ofNat xs.length

theorem toNat_len {xs : Bytes} (h : xs.length < 2 ^ 64) : (len xs).toNat = xs.length := by
  rw [len, UInt64.toNat_ofNat']
  exact Nat.mod_eq_of_lt h

/-- `&xs[start..stop]`, which panics on an inverted or overlong range. -/
def sliceRange (xs : Bytes) (start stop : ℕ) : Outcome Bytes :=
  if start ≤ stop ∧ stop ≤ xs.length then .ok ((xs.drop start).take (stop - start))
  else .error .panic

theorem bytes_of_sliceRange_zero {xs ys : Bytes} {n : ℕ} (h : sliceRange xs 0 n = .ok ys) :
    ys = xs.take n := by
  unfold sliceRange at h
  split at h
  · cases h
    rfl
  · cases h

/-- `dst.copy_from_slice(src)`, which panics unless the lengths agree. -/
def copyFromSlice (dst src : Bytes) : Outcome Bytes :=
  if dst.length = src.length then .ok src else .error .panic

/-- A `Vec<u8>`: an allocation never exceeds `isize::MAX` bytes. -/
structure ByteVec where
  bytes : Bytes
  fits : bytes.length ≤ isizeMax
  deriving DecidableEq

theorem ByteVec.length_lt (v : ByteVec) : v.bytes.length < 2 ^ 63 := by
  have := v.fits
  unfold isizeMax at this
  omega

/-- `vec![0u8; n]`, which panics with a capacity overflow past `isize::MAX`. -/
def ByteVec.zeroed (n : UInt64) : Outcome ByteVec :=
  if h : n.toNat ≤ isizeMax then .ok ⟨List.replicate n.toNat 0, by simpa using h⟩
  else .error .panic

/-- `v[start..stop].copy_from_slice(src)`. -/
def ByteVec.copyInto (v : ByteVec) (start stop : ℕ) (src : Bytes) : Outcome ByteVec :=
  if h : (start ≤ stop ∧ stop ≤ v.bytes.length) ∧ stop - start = src.length then
    .ok ⟨v.bytes.take start ++ src ++ v.bytes.drop stop, by
      have := v.fits
      simp only [List.length_append, List.length_take, List.length_drop]
      omega⟩
  else .error .panic

theorem ByteVec.length_copyInto {v w : ByteVec} {start stop : ℕ} {src : Bytes}
    (h : v.copyInto start stop src = .ok w) : w.bytes.length = v.bytes.length := by
  unfold ByteVec.copyInto at h
  split at h
  · rename_i hrange
    cases h
    simp only [List.length_append, List.length_take, List.length_drop]
    omega
  · cases h

/-- `v.reserve(additional)`, which panics with a capacity overflow. An allocator
that refuses a smaller request aborts the process; that is not modelled. -/
def ByteVec.reserve (v : ByteVec) (additional : UInt64) : Outcome Unit :=
  if v.bytes.length + additional.toNat ≤ isizeMax then .ok () else .error .panic

/-- `v.extend_from_slice(src)`. -/
def ByteVec.extend (v : ByteVec) (src : Bytes) : Outcome ByteVec :=
  if h : v.bytes.length + src.length ≤ isizeMax then .ok ⟨v.bytes ++ src, by simpa using h⟩
  else .error .panic

theorem ByteVec.extend_ok {v : ByteVec} {src : Bytes}
    (h : v.bytes.length + src.length ≤ isizeMax) :
    ∃ w, v.extend src = .ok w ∧ w.bytes = v.bytes ++ src :=
  ⟨_, dif_pos h, rfl⟩

theorem ByteVec.bytes_of_extend {v w : ByteVec} {src : Bytes} (h : v.extend src = .ok w) :
    w.bytes = v.bytes ++ src := by
  unfold ByteVec.extend at h
  split at h
  · cases h
    rfl
  · cases h

/-! ## C strings -/

/-- The bytes of a `str`. -/
def strBytes (s : String) : Bytes := s.toByteArray.data.toList

@[simp] theorem strBytes_append (s t : String) : strBytes (s ++ t) = strBytes s ++ strBytes t := by
  simp [strBytes]

theorem strBytes_injective {s t : String} (h : strBytes s = strBytes t) : s = t := by
  apply String.toByteArray_inj.mp
  exact ByteArray.ext (Array.toList_inj.mp h)

/-- A string is the encodings of its characters. -/
theorem strBytes_ofList (cs : List Char) :
    strBytes (String.ofList cs) = cs.flatMap String.utf8EncodeChar := by
  rw [strBytes, String.toByteArray_ofList, List.utf8Encode, List.data_toByteArray]

/-- `format!("{}", n)` of a `u64`. -/
def decimal (n : UInt64) : Bytes := strBytes (toString n.toNat)

theorem utf8EncodeChar_digit {c : Char} (h : c.isDigit = true) :
    String.utf8EncodeChar c = [c.val.toUInt8] := by
  apply String.utf8EncodeChar_eq_singleton
  rw [Char.utf8Size_eq_one_iff]
  simp only [Char.isDigit, ge_iff_le, Bool.and_eq_true, decide_eq_true_eq] at h
  exact UInt32.le_trans h.2 (by decide)

/-- A decimal number is written with the bytes of the ten digits. -/
theorem digit_of_mem_decimal {n : UInt64} {b : UInt8} (h : b ∈ decimal n) :
    48 ≤ b.toNat ∧ b.toNat ≤ 57 := by
  rw [decimal, Nat.toString_eq_repr, Nat.repr_eq_ofList_toDigits, strBytes_ofList,
    List.mem_flatMap] at h
  obtain ⟨c, hc, hb⟩ := h
  have hd := Nat.isDigit_of_mem_toDigits (by decide) (by decide) hc
  rw [utf8EncodeChar_digit hd, List.mem_singleton] at hb
  subst hb
  simp only [Char.isDigit, ge_iff_le, Bool.and_eq_true, decide_eq_true_eq] at hd
  have h₁ : 48 ≤ c.val.toNat := UInt32.le_iff_toNat_le.mp hd.1
  have h₂ : c.val.toNat ≤ 57 := UInt32.le_iff_toNat_le.mp hd.2
  rw [UInt32.toNat_toUInt8]
  omega

theorem decimal_injective {m n : UInt64} (h : decimal m = decimal n) : m = n := by
  have hs := strBytes_injective h
  rw [Nat.toString_eq_repr, Nat.toString_eq_repr] at hs
  have hd := congrArg String.toList hs
  rw [Nat.toList_repr, Nat.toList_repr] at hd
  have hn := congrArg (fun l => Nat.ofDigitChars 10 l 0) hd
  simp only [Nat.ofDigitChars_toDigits (b := 10) (by decide) (by decide)] at hn
  exact UInt64.toNat_inj.mp hn

/-- `std::ffi::NulError`: where the first NUL byte is, and the bytes refused. -/
structure NulError where
  position : ℕ
  bytes : Bytes
  deriving DecidableEq, Repr

structure CString where
  bytes : Bytes
  noNul : 0 ∉ bytes
  deriving DecidableEq

/-- `CString::new`, which refuses an interior NUL. -/
def CString.new (bytes : Bytes) : Except NulError CString :=
  if h : 0 ∈ bytes then .error ⟨bytes.idxOf 0, bytes⟩ else .ok ⟨bytes, h⟩

theorem CString.new_ok {bytes : Bytes} (h : 0 ∉ bytes) : CString.new bytes = .ok ⟨bytes, h⟩ :=
  dif_neg h

theorem CString.new_error {bytes : Bytes} (h : 0 ∈ bytes) :
    CString.new bytes = .error ⟨bytes.idxOf 0, bytes⟩ :=
  dif_pos h

/-- `result.unwrap()`. -/
def unwrap {ε α : Type} : Except ε α → Outcome α
  | .ok a => .ok a
  | .error _ => .error .panic

/-! ## UTF-8 -/

/-- `String::from_utf8`. -/
def fromUtf8 (bytes : Bytes) : Option String := String.fromUTF8? ⟨bytes.toArray⟩

/-- The bytes of a `str` are read back as that `str`. -/
@[simp] theorem fromUtf8_strBytes (s : String) : fromUtf8 (strBytes s) = some s :=
  dif_pos s.isValidUTF8

/-- And a `str` is read back from its own bytes only. -/
theorem strBytes_of_fromUtf8 {bytes : Bytes} {s : String} (h : fromUtf8 bytes = some s) :
    strBytes s = bytes := by
  unfold fromUtf8 String.fromUTF8? at h
  split at h
  · cases h
    rfl
  · cases h

/-- How many bytes a character with this first byte takes; zero for a byte
that starts none. -/
def utf8Width (b : UInt8) : ℕ :=
  if b < 0x80 then 1
  else if 0xC2 ≤ b ∧ b ≤ 0xDF then 2
  else if 0xE0 ≤ b ∧ b ≤ 0xEF then 3
  else if 0xF0 ≤ b ∧ b ≤ 0xF4 then 4
  else 0

def isContinuation (b : UInt8) : Bool := b &&& 0xC0 = 0x80

/-- The second bytes a first byte admits: overlong forms, surrogates and code
points past `10FFFF` are ruled out here. -/
def secondByteOk (first second : UInt8) : Bool :=
  if first = 0xE0 then 0xA0 ≤ second ∧ second ≤ 0xBF
  else if first = 0xED then 0x80 ≤ second ∧ second ≤ 0x9F
  else if first = 0xF0 then 0x90 ≤ second ∧ second ≤ 0xBF
  else if first = 0xF4 then 0x80 ≤ second ∧ second ≤ 0x8F
  else isContinuation second

/-- The first chunk of a byte string: whether it is a character, and how many
bytes it takes. A broken character ends before the byte that breaks it. -/
def utf8Chunk : Bytes → Bool × ℕ
  | [] => (false, 0)
  | b :: rest =>
      match utf8Width b, rest with
      | 1, _ => (true, 1)
      | 2, c :: _ => if secondByteOk b c then (true, 2) else (false, 1)
      | 3, c :: rest =>
          if secondByteOk b c then
            match rest with
            | d :: _ => if isContinuation d then (true, 3) else (false, 2)
            | [] => (false, 2)
          else (false, 1)
      | 4, c :: rest =>
          if secondByteOk b c then
            match rest with
            | d :: rest =>
                if isContinuation d then
                  match rest with
                  | e :: _ => if isContinuation e then (true, 4) else (false, 3)
                  | [] => (false, 3)
                else (false, 2)
            | [] => (false, 2)
          else (false, 1)
      | _, _ => (false, 1)

/-- The chunks of a byte string, each broken one replaced by U+FFFD. -/
def lossyBytes : ℕ → Bytes → Bytes
  | 0, _ => []
  | _ + 1, [] => []
  | fuel + 1, bytes =>
      let (valid, n) := utf8Chunk bytes
      (if valid then bytes.take n else [0xEF, 0xBF, 0xBD]) ++ lossyBytes fuel (bytes.drop n)

/-- `String::from_utf8_lossy`: a chunk is never empty, so as many steps as
there are bytes reach the end, and what they leave is well formed. -/
def fromUtf8Lossy (bytes : Bytes) : String :=
  (fromUtf8 (lossyBytes bytes.length bytes)).getD ""

example : fromUtf8Lossy [0x61, 0xE2, 0x82, 0x62, 0xFF] = "a\uFFFDb\uFFFD" := by decide +kernel

end Ext4Lwext4.Model
