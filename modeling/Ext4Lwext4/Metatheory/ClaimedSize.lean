import Ext4Lwext4.Metatheory.WholeFiles

/-! # The size an inode claims

`read_to_end` reserves the size that lwext4 reports before it reads a byte, and
the reservation panics where the vector could not hold so much. The loop behind
it asks for room as the data come: it ends by itself, and panics only where
they are too many. An allocator that refuses a size a vector can have aborts
the process, which is not modelled. -/

namespace Ext4Lwext4.Metatheory

open Ext4Lwext4.Framework Ext4Lwext4.Model

variable {E : Environment Call Reply} {s t : E.State} {tr : List SysEvent}

/-! ## What the reads of a run delivered -/

/-- The bytes a call delivered: those a read that did not fail counts. -/
def delivered : SysEvent → ℕ
  | ⟨.ext4Fread _ _ _ _, (code, _, _, count)⟩ => if code = 0 then count.toNat else 0
  | _ => 0

def dataRead (tr : List SysEvent) : ℕ := (tr.map delivered).sum

@[simp] theorem dataRead_cons (e : SysEvent) (tr : List SysEvent) :
    dataRead (e :: tr) = delivered e + dataRead tr := by
  rw [dataRead, List.map_cons, List.sum_cons]
  rfl

/-- A read counts at most the bytes that were asked of it. -/
def CountsWithin : SysEvent → Prop
  | ⟨.ext4Fread _ _ size _, (_, _, _, count)⟩ => count ≤ size
  | _ => True

/-- A run returned, or more was delivered than a vector that held `held` bytes
can take. -/
def ReturnsOrFills {α : Type} (held : ℕ) (tr : List SysEvent) (o : Outcome α) : Prop :=
  (∃ a, o = .ok a) ∨ isizeMax < held + dataRead tr

theorem ReturnsOrFills.cons {α : Type} {held n : ℕ} {e : SysEvent} {o : Outcome α}
    (h : ReturnsOrFills (held + n) tr o) (hn : n = delivered e) :
    ReturnsOrFills held (e :: tr) o := by
  rcases h with hok | hfull
  · exact .inl hok
  · refine .inr ?_
    rw [dataRead_cons]
    omega

/-! ## The loop -/

/-- A round that reads something leaves less room in the vector, so the room
there is bounds the rounds. The counter never passes the vector's length. -/
theorem readChunks_returns {build : Build} {fuel : ℕ} :
    ∀ {file : File} {buf : ByteVec} {chunk : Bytes} {total : UInt64} {s : E.State}
      {tr : List SysEvent} {o : Outcome (Except Error UInt64 × ByteVec × File)},
      chunk.length = 8192 → total.toNat ≤ buf.bytes.length →
      isizeMax < buf.bytes.length + fuel → (∀ e ∈ tr, CountsWithin e) →
      Exec E (File.readChunks build fuel file buf chunk total) s tr o t →
      ReturnsOrFills buf.bytes.length tr o := by
  induction fuel with
  | zero =>
      intro file buf chunk total s tr o hchunk htotal hfuel hwithin h
      exact absurd buf.fits (Nat.not_le.mpr hfuel)
  | succ fuel ih =>
      intro file buf chunk total s tr o hchunk htotal hfuel hwithin h
      rw [readChunks_round] at h
      obtain ⟨⟨code, inner, out, count⟩, u, tr, rfl, hstep, h⟩ := Exec.call_iff.mp h
      have hrest : ∀ e ∈ tr, CountsWithin e := fun e he => hwithin e (List.mem_cons_of_mem _ he)
      by_cases hcode : code = 0
      · subst hcode
        by_cases hzero : count = 0
        · subst hzero
          obtain ⟨rfl, rfl, rfl⟩ := Exec.done_iff.mp h
          exact .inl ⟨_, rfl⟩
        · have hcount : count.toNat ≤ 8192 := by
            have hle : count ≤ len chunk := hwithin _ List.mem_cons_self
            have hnat := UInt64.le_iff_toNat_le.mp hle
            rwa [toNat_len (by omega), hchunk] at hnat
          have hpos : 0 < count.toNat := by
            refine Nat.pos_of_ne_zero ?_
            exact fun hn => hzero (UInt64.toNat_inj.mp hn)
          have hout : out.val.length = 8192 := out.property.trans hchunk
          have hslice : sliceRange out.val 0 count.toNat = .ok (out.val.take count.toNat) := by
            rw [sliceRange, if_pos ⟨Nat.zero_le _, by omega⟩, List.drop_zero, Nat.sub_zero]
          have hpart : (out.val.take count.toNat).length = count.toNat := by
            rw [List.length_take, hout]
            exact Nat.min_eq_left hcount
          simp only [checkErrno_zero, if_neg hzero, hslice, Prog.ofOutcome_ok_bind] at h
          by_cases hroom : buf.bytes.length + count.toNat ≤ isizeMax
          · obtain ⟨longer, hextend, hlonger⟩ := ByteVec.extend_ok (hpart.symm ▸ hroom)
            have hgrown : longer.bytes.length = buf.bytes.length + count.toNat := by
              rw [hlonger, List.length_append, hpart]
            have hsum : total.toNat + count.toNat < 2 ^ 64 := by
              unfold isizeMax at hroom
              omega
            have hnext : (UInt64.ofNat (total.toNat + count.toNat)).toNat =
                total.toNat + count.toNat := by
              rw [UInt64.toNat_ofNat', Nat.mod_eq_of_lt hsum]
            simp only [hextend, Build.add64_of_lt hsum, Prog.ofOutcome_ok_bind] at h
            have hloop := ih hout (by rw [hnext]; omega) (by omega) hrest h
            rw [hgrown] at hloop
            exact hloop.cons rfl
          · -- the vector is full: what was delivered is more than it takes
            refine .inr ?_
            have hdelivered : delivered ⟨.ext4Fread file.inner chunk (len chunk) 0,
                ((0 : Int32), inner, out, count)⟩ = count.toNat := rfl
            rw [dataRead_cons, hdelivered]
            omega
      · rw [checkErrno_of_ne hcode] at h
        obtain ⟨rfl, rfl, rfl⟩ := Exec.done_iff.mp h
        exact .inl ⟨_, rfl⟩

/-! ## Both functions -/

section Whole

variable {build : Build} {fuel : ℕ} {file : File} {size : UInt64}

theorem readToEnd_returns {buf : ByteVec} (hfuel : isizeMax < fuel)
    (hfits : buf.bytes.length + size.toNat ≤ isizeMax) (hwithin : ∀ e ∈ tr, CountsWithin e)
    {o : Outcome (Except Error UInt64 × ByteVec × File)}
    (h : Exec E (file.readToEnd build fuel buf) s (⟨.ext4Fsize file.inner, size⟩ :: tr) o t) :
    ReturnsOrFills buf.bytes.length tr o := by
  obtain ⟨_, u, _, htr, hsize, h⟩ := Exec.request_bind h
  cases htr
  have hreserve : buf.reserve size = .ok () := if_pos hfits
  rw [hreserve, Prog.ofOutcome_ok_bind] at h
  obtain ⟨⟨code, inner⟩, u, tr, rfl, hseek, h⟩ := Exec.request_bind h
  have htail : ∀ e ∈ tr, CountsWithin e := fun e he => hwithin e (List.mem_cons_of_mem _ he)
  refine ReturnsOrFills.cons (n := 0) ?_ rfl
  dsimp only [Prog.bind] at h
  cases hcheck : checkErrno code with
  | error e =>
      simp only [hcheck] at h
      obtain ⟨rfl, rfl, rfl⟩ := Exec.done_iff.mp h
      exact .inl ⟨_, rfl⟩
  | ok _ =>
      simp only [hcheck] at h
      obtain ⟨pos, u, tr, rfl, -, h⟩ := Exec.request_bind h
      refine ReturnsOrFills.cons (n := 0) ?_ rfl
      exact readChunks_returns List.length_replicate (Nat.zero_le _) (by omega)
        (fun e he => htail e (List.mem_cons_of_mem _ he)) h

/-- The string is read through a vector of its own, which starts empty. -/
theorem readToString_returns {text : String} (hfuel : isizeMax < fuel)
    (hfits : size.toNat ≤ isizeMax) (hwithin : ∀ e ∈ tr, CountsWithin e)
    {o : Outcome (Except Error UInt64 × String × File)}
    (h : Exec E (file.readToString build fuel text) s (⟨.ext4Fsize file.inner, size⟩ :: tr) o t) :
    ReturnsOrFills 0 tr o := by
  have hempty : ([] : Bytes).length + size.toNat ≤ isizeMax := by
    rw [List.length_nil, Nat.zero_add]
    exact hfits
  rcases Exec.bind_iff.mp h with ⟨⟨result, bytes, file'⟩, u, tr₁, tr₂, htr, hread, h⟩ |
    ⟨why, rfl, hread⟩
  · -- what follows the vector makes no call and returns
    left
    cases result with
    | error e =>
        obtain ⟨-, rfl, -⟩ := Exec.done_iff.mp h
        exact ⟨_, rfl⟩
    | ok n =>
        dsimp only at h
        cases hutf : fromUtf8 bytes.bytes with
        | some text' =>
            rw [hutf] at h
            obtain ⟨-, rfl, -⟩ := Exec.done_iff.mp h
            exact ⟨_, rfl⟩
        | none =>
            rw [hutf] at h
            obtain ⟨-, rfl, -⟩ := Exec.done_iff.mp h
            exact ⟨_, rfl⟩
  · rcases readToEnd_returns hfuel hempty hwithin hread with ⟨_, ho⟩ | hfull
    · cases ho
    · exact .inr hfull

/-- The reservation that does not fit, before any other call. -/
theorem readToEnd_reserve_panics (build : Build) (fuel : ℕ) (file : File) {buf : ByteVec}
    (hfits : ¬ buf.bytes.length + size.toNat ≤ isizeMax) :
    Exec (.chaos Call Reply) (file.readToEnd build fuel buf) () [⟨.ext4Fsize file.inner, size⟩]
      (.error .panic) () := by
  refine Exec.chaos_call ?_
  have hreserve : buf.reserve size = .error .panic := if_neg hfits
  show Exec (.chaos Call Reply) (Prog.ofOutcome (buf.reserve size) >>= _) () [] (.error .panic) ()
  rw [hreserve]
  exact .halt .panic _

theorem readToString_reserve_panics (build : Build) (fuel : ℕ) (file : File) (text : String)
    (hfits : ¬ size.toNat ≤ isizeMax) :
    Exec (.chaos Call Reply) (file.readToString build fuel text) ()
      [⟨.ext4Fsize file.inner, size⟩] (.error .panic) () := by
  have hempty : ¬ ([] : Bytes).length + size.toNat ≤ isizeMax := by
    rw [List.length_nil, Nat.zero_add]
    exact hfits
  exact Exec.bind_iff.mpr
    (.inr ⟨.panic, rfl, readToEnd_reserve_panics build fuel file hempty⟩)

end Whole

/-- With `size` reported for the file, and whatever the reads return within
what was asked of them: every run returns, unless more was delivered than a
vector of `held` bytes takes. More rounds than bytes fit are never needed. -/
def ReadsAtAnySize {α : Type} (file : File) (size : UInt64) (held : ℕ) (read : ℕ → Sys α) : Prop :=
  ∀ fuel, isizeMax < fuel → ∀ (E : Environment Call Reply) (s t : E.State) (tr : List SysEvent)
    (o : Outcome α), (∀ e ∈ tr, CountsWithin e) →
    Exec E (read fuel) s (⟨.ext4Fsize file.inner, size⟩ :: tr) o t → ReturnsOrFills held tr o

/-- A run that panics with nothing delivered is the size's fault. -/
theorem not_readsAtAnySize {α : Type} {file : File} {size : UInt64} {held : ℕ} {read : ℕ → Sys α}
    (hheld : held ≤ isizeMax) (h : ∀ fuel, Exec (.chaos Call Reply) (read fuel) ()
      [⟨.ext4Fsize file.inner, size⟩] (.error .panic) ()) :
    ¬ ReadsAtAnySize file size held read := by
  intro hreads
  have hpanic := hreads (isizeMax + 1) (Nat.lt_succ_self isizeMax) (.chaos Call Reply) () () []
    (.error .panic) (List.forall_mem_nil _) (h (isizeMax + 1))
  rcases hpanic with ⟨_, ho⟩ | hfull
  · cases ho
  · exact absurd hfull (Nat.not_lt.mpr hheld)

/-- For every size that is reported, into any vector or string: the claimed
size makes neither function panic exactly when it fits behind what the vector
holds already. -/
theorem claimed_size_iff (build : Build) (file : File) (size : UInt64) :
    (∀ buf : ByteVec, ReadsAtAnySize file size buf.bytes.length
        (fun fuel => file.readToEnd build fuel buf) ↔
      buf.bytes.length + size.toNat ≤ isizeMax) ∧
    ∀ text : String, ReadsAtAnySize file size 0 (fun fuel => file.readToString build fuel text) ↔
      size.toNat ≤ isizeMax := by
  constructor
  · intro buf
    constructor
    · intro h
      by_contra hfits
      exact not_readsAtAnySize buf.fits
        (fun fuel => readToEnd_reserve_panics build fuel file hfits) h
    · exact fun hfits fuel hfuel E s t tr o hwithin h => readToEnd_returns hfuel hfits hwithin h
  · intro text
    constructor
    · intro h
      by_contra hfits
      exact not_readsAtAnySize (Nat.zero_le _)
        (fun fuel => readToString_reserve_panics build fuel file text hfits) h
    · exact fun hfits fuel hfuel E s t tr o hwithin h => readToString_returns hfuel hfits hwithin h

/-- An inode that claims 8 EiB, read into an empty vector. -/
theorem claimed_8EiB_panics :
    Exec (.chaos Call Reply) ((twoByteFile 0).readToEnd .checked 1 ⟨[], by decide⟩) ()
        [⟨.ext4Fsize (twoByteFile 0).inner, (9223372036854775808 : UInt64)⟩] (.error .panic) () ∧
      ¬ ReadsAtAnySize (twoByteFile 0) 9223372036854775808 0
        (fun fuel => (twoByteFile 0).readToEnd .checked fuel ⟨[], by decide⟩) := by
  have hfits : ¬ ([] : Bytes).length + (9223372036854775808 : UInt64).toNat ≤ isizeMax := by decide
  refine ⟨readToEnd_reserve_panics .checked 1 (twoByteFile 0) hfits, ?_⟩
  exact not_readsAtAnySize (Nat.zero_le _)
    fun fuel => readToEnd_reserve_panics .checked fuel (twoByteFile 0) hfits

end Ext4Lwext4.Metatheory
