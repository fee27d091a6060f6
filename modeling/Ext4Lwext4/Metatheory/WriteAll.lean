import Ext4Lwext4.Metatheory.ByteAccounting

/-! # Writing a whole buffer

`write_all` goes on behind every short write and gives up at one that makes no
progress. Its runs are those of `WriteRun`, which says nothing of counters and
slices; so are the runs of the default of `io::Write`, which keeps the rest of
the buffer where `write_all` keeps a counter. -/

namespace Ext4Lwext4.Metatheory

open Ext4Lwext4.Framework Ext4Lwext4.Model

/-- What is asked of `ext4_fwrite`: it fails and transfers nothing, or writes
as much as it counts and moves past it. -/
structure WritesOrFails (E : Environment Call Reply) (contents : E.State → Bytes) : Prop where
  wrote {s t : E.State} {file file' : Ext4File} {buf : Bytes} {size wcnt count : UInt64} :
    E.step s (.ext4Fwrite file buf size wcnt) ((0 : Int32), file', count) t →
    count ≤ size ∧ file'.fpos.toNat = file.fpos.toNat + count.toNat ∧
      contents t = overwrite 0 (contents s) file.fpos.toNat (buf.take count.toNat)
  failed {s t : E.State} {file file' : Ext4File} {buf : Bytes} {size wcnt count : UInt64}
    {code : Int32} : code ≠ 0 → E.step s (.ext4Fwrite file buf size wcnt) (code, file', count) t →
    file'.fpos = file.fpos ∧ contents t = contents s

def writeZero : Error := .io (.message .writeZero "failed to write whole buffer")

/-! ## The runs -/

/-- The ways to write out `rest`. -/
inductive WriteRun (E : Environment Call Reply) :
    File → Bytes → E.State → List SysEvent → Except Error Unit → File → E.State → Prop
  | done (file : File) (s : E.State) : WriteRun E file [] s [] (.ok ()) file s
  | failed {file : File} {rest : Bytes} {s t : E.State} {code : Int32} {inner : Ext4File}
      {count : UInt64} (hrest : rest ≠ []) (hcode : code ≠ 0) :
      E.step s (.ext4Fwrite file.inner rest (len rest) 0) (code, inner, count) t →
      WriteRun E file rest s
        [⟨.ext4Fwrite file.inner rest (len rest) 0, (code, inner, count)⟩]
        (.error (.fromErrno code hcode)) { file with inner } t
  | stuck {file : File} {rest : Bytes} {s t : E.State} {inner : Ext4File} (hrest : rest ≠ []) :
      E.step s (.ext4Fwrite file.inner rest (len rest) 0) ((0 : Int32), inner, (0 : UInt64)) t →
      WriteRun E file rest s
        [⟨.ext4Fwrite file.inner rest (len rest) 0, ((0 : Int32), inner, (0 : UInt64))⟩]
        (.error writeZero) { file with inner } t
  | wrote {file file' : File} {rest : Bytes} {s t u : E.State} {inner : Ext4File}
      {count : UInt64} {tr : List SysEvent} {result : Except Error Unit} (hrest : rest ≠ [])
      (hcount : count ≠ 0) :
      E.step s (.ext4Fwrite file.inner rest (len rest) 0) ((0 : Int32), inner, count) u →
      WriteRun E { file with inner } (rest.drop count.toNat) u tr result file' t →
      WriteRun E file rest s
        (⟨.ext4Fwrite file.inner rest (len rest) 0, ((0 : Int32), inner, count)⟩ :: tr)
        result file' t

variable {E : Environment Call Reply} {contents : E.State → Bytes} {s t : E.State}
  {tr : List SysEvent} {file : File}

/-- A successful write takes off a front part of what is left. -/
theorem wrote_le (hE : WritesOrFails E contents) {rest : Bytes} (hlen : rest.length < 2 ^ 64)
    {inner : Ext4File} {count : UInt64}
    (h : E.step s (.ext4Fwrite file.inner rest (len rest) 0) ((0 : Int32), inner, count) t) :
    count.toNat ≤ rest.length := by
  have hle := UInt64.le_iff_toNat_le.mp (hE.wrote h).1
  rwa [toNat_len hlen] at hle

theorem length_drop_lt {rest : Bytes} {count : UInt64} (hrest : rest ≠ []) (hcount : count ≠ 0) :
    (rest.drop count.toNat).length < rest.length := by
  have hpos : 0 < rest.length := List.length_pos_iff.mpr hrest
  have hne : count.toNat ≠ 0 := fun h => hcount (UInt64.toNat_inj.mp h)
  rw [List.length_drop]
  omega

/-- A slice up to the end is what is left behind its start. -/
theorem sliceRange_drop {bytes : Bytes} {n : ℕ} (h : n ≤ bytes.length) :
    sliceRange bytes n bytes.length = .ok (bytes.drop n) := by
  rw [sliceRange, if_pos ⟨h, le_rfl⟩, List.take_of_length_le (by rw [List.length_drop])]

/-- What comes after a `write` goes by the code of its call. -/
theorem write_bind {α : Type} (file : File) (buf : Bytes) (f : Except Error UInt64 × File → Sys α) :
    file.write buf >>= f = .call (.ext4Fwrite file.inner buf (len buf) 0) fun r =>
      match checkErrno r.1 with
      | .error e => f (.error e, { file with inner := r.2.1 })
      | .ok () => f (.ok r.2.2, { file with inner := r.2.1 }) := by
  show Prog.call _ _ = _
  congr 1
  funext r
  obtain ⟨code, inner, count⟩ := r
  dsimp only [Prog.bind, Prog.pure_eq]
  cases checkErrno code with
  | error e => rfl
  | ok _ => rfl

/-- One round of the loop of `write_all`. -/
theorem writeRest_round {build : Build} {buf : Bytes} {fuel : ℕ} {written : UInt64}
    (hlen : buf.length < 2 ^ 64) (hlt : written.toNat < buf.length) :
    File.writeRest build buf (fuel + 1) file written =
      .call (.ext4Fwrite file.inner (buf.drop written.toNat) (len (buf.drop written.toNat)) 0)
        fun r => match checkErrno r.1 with
          | .error e => .done (.error e, { file with inner := r.2.1 })
          | .ok () =>
              if r.2.2 = 0 then .done (.error writeZero, { file with inner := r.2.1 })
              else Prog.ofOutcome (build.add64 written r.2.2) >>= fun written =>
                File.writeRest build buf fuel { file with inner := r.2.1 } written := by
  have hcond : written < len buf := by
    rw [UInt64.lt_iff_toNat_lt, toNat_len hlen]
    exact hlt
  rw [File.writeRest.eq_def]
  simp only [if_pos hcond, sliceRange_drop hlt.le]
  exact write_bind _ _ _

theorem writeRest_end {build : Build} {buf : Bytes} {fuel : ℕ} {written : UInt64}
    (hlen : buf.length < 2 ^ 64) (hge : buf.length ≤ written.toNat) :
    File.writeRest build buf fuel file written = .done (.ok (), file) := by
  have hcond : ¬ written < len buf := by
    rw [UInt64.lt_iff_toNat_lt, toNat_len hlen]
    exact Nat.not_lt.mpr hge
  rw [File.writeRest.eq_def]
  exact if_neg hcond

/-- One round of the default of `io::Write`. -/
theorem ioWriteAll_round {rest : Bytes} {fuel : ℕ} (hrest : rest ≠ []) :
    File.ioWriteAll (fuel + 1) file rest =
      .call (.ext4Fwrite file.inner rest (len rest) 0)
        fun r => match checkErrno r.1 with
          | .error e => .done (.error (.wrapped .other e), { file with inner := r.2.1 })
          | .ok () =>
              if r.2.2 = 0 then
                .done (.error (.message .writeZero "failed to write whole buffer"),
                  { file with inner := r.2.1 })
              else Prog.ofOutcome (sliceRange rest r.2.2.toNat rest.length) >>= fun rest =>
                File.ioWriteAll fuel { file with inner := r.2.1 } rest := by
  rw [File.ioWriteAll.eq_def]
  simp only [if_neg hrest]
  rw [File.ioWrite, Prog.bind_assoc]
  exact write_bind _ _ _

/-- A run over nothing makes no call. -/
theorem writeRun_nil {result : Except Error Unit} {file' : File} :
    WriteRun E file [] s tr result file' t ↔ tr = [] ∧ result = .ok () ∧ file' = file ∧ t = s := by
  constructor
  · intro h
    cases h with
    | done _ _ => exact ⟨rfl, rfl, rfl, rfl⟩
    | failed hrest _ _ => exact absurd rfl hrest
    | stuck hrest _ => exact absurd rfl hrest
    | wrote hrest _ _ _ => exact absurd rfl hrest
  · rintro ⟨rfl, rfl, rfl, rfl⟩
    exact .done _ _

/-- A program that has nothing to write returns. -/
theorem exec_written_iff {α : Type} {f : Except Error Unit × File → α} {o : Outcome α} :
    Exec E (.done (f (.ok (), file)) : Sys α) s tr o t ↔
      ∃ result file', o = .ok (f (result, file')) ∧ WriteRun E file [] s tr result file' t := by
  rw [Exec.done_iff]
  constructor
  · rintro ⟨rfl, rfl, rfl⟩
    exact ⟨_, _, rfl, .done _ _⟩
  · rintro ⟨result, file', rfl, hrun⟩
    obtain ⟨rfl, rfl, rfl, rfl⟩ := writeRun_nil.mp hrun
    exact ⟨rfl, rfl, rfl⟩

/-- A program that writes all of something: it calls once, stops where the
call failed or made no progress, and goes on with the rest otherwise. -/
theorem exec_write_iff {α : Type} {f : Except Error Unit × File → α} {rest : Bytes}
    (hrest : rest ≠ []) {k : Int32 × Ext4File × UInt64 → Sys α} {o : Outcome α}
    (hfailed : ∀ code inner count, ∀ h : code ≠ 0, k (code, inner, count) =
      .done (f (.error (.fromErrno code h), { file with inner })))
    (hstuck : ∀ inner, k (0, inner, 0) = .done (f (.error writeZero, { file with inner })))
    (hwrote : ∀ inner count u tr,
      E.step s (.ext4Fwrite file.inner rest (len rest) 0) ((0 : Int32), inner, count) u →
      count ≠ 0 →
        (Exec E (k (0, inner, count)) u tr o t ↔ ∃ result file', o = .ok (f (result, file')) ∧
          WriteRun E { file with inner } (rest.drop count.toNat) u tr result file' t)) :
    Exec E (.call (.ext4Fwrite file.inner rest (len rest) 0) k) s tr o t ↔
      ∃ result file', o = .ok (f (result, file')) ∧ WriteRun E file rest s tr result file' t := by
  rw [Exec.call_iff]
  constructor
  · rintro ⟨⟨code, inner, count⟩, u, tr', rfl, hstep, h⟩
    by_cases hcode : code = 0
    · subst hcode
      by_cases hcount : count = 0
      · subst hcount
        rw [hstuck] at h
        obtain ⟨rfl, rfl, rfl⟩ := Exec.done_iff.mp h
        exact ⟨_, _, rfl, .stuck hrest hstep⟩
      · obtain ⟨result, file', rfl, hrun⟩ := (hwrote inner count u tr' hstep hcount).mp h
        exact ⟨_, _, rfl, .wrote hrest hcount hstep hrun⟩
    · rw [hfailed code inner count hcode] at h
      obtain ⟨rfl, rfl, rfl⟩ := Exec.done_iff.mp h
      exact ⟨_, _, rfl, .failed hrest hcode hstep⟩
  · rintro ⟨result, file', rfl, hrun⟩
    cases hrun with
    | done _ _ => exact absurd rfl hrest
    | @failed _ _ _ _ code inner count _ hcode hstep =>
        refine ⟨_, t, [], rfl, hstep, ?_⟩
        rw [hfailed code inner count hcode]
        exact .done _ _
    | @stuck _ _ _ _ inner _ hstep =>
        refine ⟨_, t, [], rfl, hstep, ?_⟩
        rw [hstuck]
        exact .done _ _
    | @wrote _ _ _ _ _ u inner count tr' _ _ hcount hstep hrun =>
        exact ⟨_, u, tr', rfl, hstep,
          (hwrote inner count u tr' hstep hcount).mpr ⟨result, file', rfl, hrun⟩⟩

/-- The loop of `write_all` from any point on: its runs are those that write
out what is left, and it neither panics nor runs out of rounds. -/
theorem writeRest_iff (hE : WritesOrFails E contents) {build : Build} {buf : Bytes}
    (hlen : buf.length < 2 ^ 64) {fuel : ℕ} :
    ∀ {file : File} {written : UInt64} {s : E.State} {tr : List SysEvent}
      {o : Outcome (Except Error Unit × File)}, written.toNat ≤ buf.length →
      buf.length ≤ fuel + written.toNat →
      (Exec E (File.writeRest build buf fuel file written) s tr o t ↔
        ∃ result file', o = .ok (result, file') ∧
          WriteRun E file (buf.drop written.toNat) s tr result file' t) := by
  have hend : ∀ {fuel : ℕ} {file : File} {written : UInt64} {s : E.State} {tr : List SysEvent}
      {o : Outcome (Except Error Unit × File)}, buf.length ≤ written.toNat →
      (Exec E (File.writeRest build buf fuel file written) s tr o t ↔
        ∃ result file', o = .ok (result, file') ∧
          WriteRun E file (buf.drop written.toNat) s tr result file' t) := by
    intro fuel file written s tr o hge
    rw [writeRest_end hlen hge, List.drop_eq_nil_of_le hge]
    exact exec_written_iff (f := id)
  -- on the rounds that are left: each takes off at least one byte
  induction fuel with
  | zero =>
      intro file written s tr o hle hfuel
      exact hend (by omega)
  | succ fuel ih =>
      intro file written s tr o hle hfuel
      by_cases hlt : written.toNat < buf.length
      · have hrest : buf.drop written.toNat ≠ [] := by
          rw [ne_eq, List.drop_eq_nil_iff]
          exact Nat.not_le.mpr hlt
        have hrestlen : (buf.drop written.toNat).length < 2 ^ 64 := by
          rw [List.length_drop]
          omega
        rw [writeRest_round hlen hlt]
        refine exec_write_iff (f := id) hrest ?_ (fun _ => rfl) ?_
        · intro code inner count hcode
          simp only [checkErrno_of_ne hcode, id]
        · intro inner count u tr hstep hcount
          have hcle := wrote_le hE hrestlen hstep
          have hpos : count.toNat ≠ 0 := fun h => hcount (UInt64.toNat_inj.mp h)
          rw [List.length_drop] at hcle
          have hsum : written.toNat + count.toNat < 2 ^ 64 := by omega
          have hnext : (UInt64.ofNat (written.toNat + count.toNat)).toNat =
              written.toNat + count.toNat := by
            rw [UInt64.toNat_ofNat', Nat.mod_eq_of_lt hsum]
          simp only [checkErrno_zero, if_neg hcount, Build.add64_of_lt hsum]
          have hrounds := @ih { file with inner } (UInt64.ofNat (written.toNat + count.toNat))
            u tr o (by omega) (by omega)
          rw [hnext, ← List.drop_drop] at hrounds
          exact hrounds
      · exact hend (Nat.le_of_not_lt hlt)

/-- What the default of `io::Write` returns where `write_all` returns this. -/
def defaultResult : Except Error Unit → Except IoError Unit
  | .ok () => .ok ()
  | .error (.io e) => .error e
  | .error e => .error (.wrapped .other e)

theorem defaultResult_error {e : Error} (h : ∀ io, e ≠ .io io) :
    defaultResult (.error e) = .error (.wrapped .other e) := by
  cases e with
  | io io => exact absurd rfl (h io)
  | _ => rfl

theorem ioWriteAll_iff (hE : WritesOrFails E contents) {fuel : ℕ} :
    ∀ {file : File} {rest : Bytes} {s : E.State} {tr : List SysEvent}
      {o : Outcome (Except IoError Unit × File)}, rest.length < 2 ^ 64 → rest.length ≤ fuel →
      (Exec E (File.ioWriteAll fuel file rest) s tr o t ↔
        ∃ result file', o = .ok (defaultResult result, file') ∧
          WriteRun E file rest s tr result file' t) := by
  have hend : ∀ (fuel : ℕ) (file : File),
      File.ioWriteAll fuel file [] = .done (.ok (), file) := by
    intro fuel file
    rw [File.ioWriteAll.eq_def]
    exact if_pos rfl
  induction fuel with
  | zero =>
      intro file rest s tr o hlen hfuel
      obtain rfl := List.length_eq_zero_iff.mp (Nat.le_zero.mp hfuel)
      rw [hend]
      exact exec_written_iff (f := fun r => (defaultResult r.1, r.2))
  | succ fuel ih =>
      intro file rest s tr o hlen hfuel
      by_cases hrest : rest = []
      · subst hrest
        rw [hend]
        exact exec_written_iff (f := fun r => (defaultResult r.1, r.2))
      · rw [ioWriteAll_round hrest]
        refine exec_write_iff (f := fun r => (defaultResult r.1, r.2)) hrest ?_ (fun _ => rfl) ?_
        · intro code inner count hcode
          have herr := defaultResult_error fun io => Error.fromErrno_ne_io hcode io
          simp only [checkErrno_of_ne hcode, herr]
        · intro inner count u tr hstep hcount
          have hcle := wrote_le hE hlen hstep
          have hshort := length_drop_lt hrest hcount
          simp only [checkErrno_zero, if_neg hcount, sliceRange_drop hcle]
          exact ih (by omega) (by omega)

/-! ## What a run writes -/

/-- The bytes that a call of `ext4_fwrite` wrote. -/
def sent : SysEvent → Bytes
  | ⟨.ext4Fwrite _ buf _ _, (code, _, count)⟩ => if code = 0 then buf.take count.toNat else []
  | _ => []

/-- A call that was given bytes, succeeded, and wrote none of them. -/
def MadeNoProgress : SysEvent → Prop
  | ⟨.ext4Fwrite _ buf _ _, (code, _, count)⟩ => buf ≠ [] ∧ code = 0 ∧ count = 0
  | _ => False

/-- What became of a buffer of which the first `k` bytes were written. -/
structure WrotePrefix (contents : E.State → Bytes) (buf : Bytes) (file : File) (s : E.State)
    (tr : List SysEvent) (result : Except Error Unit) (file' : File) (t : E.State) (k : ℕ) :
    Prop where
  le : k ≤ buf.length
  calls : tr.length ≤ buf.length + 1
  /-- The calls wrote each byte once and in order. -/
  sent_eq : tr.flatMap sent = buf.take k
  contents_eq : contents t = overwrite 0 (contents s) file.inner.fpos.toNat (buf.take k)
  position : file'.inner.fpos.toNat = file.inner.fpos.toNat + k
  ok_iff : result = .ok () ↔ k = buf.length
  zero_iff : result = .error writeZero ↔ ∃ e ∈ tr, MadeNoProgress e
  error : ∀ err, result = .error err → err ≠ writeZero →
    ∃ e ∈ tr, ∃ h : returnCode e.1 e.2 ≠ 0, err = .fromErrno (returnCode e.1 e.2) h

/-- The run lemma: induction on the calls, each of which takes a front part off
what is left and appends it to what is in the file. -/
theorem WriteRun.wrotePrefix (hE : WritesOrFails E contents) {buf : Bytes} {file' : File}
    {result : Except Error Unit} (h : WriteRun E file buf s tr result file' t)
    (hlen : buf.length < 2 ^ 64) :
    ∃ k, WrotePrefix contents buf file s tr result file' t k ∧ tr.length ≤ buf.length := by
  induction h with
  | done file s =>
      refine ⟨0, ⟨le_rfl, Nat.zero_le _, rfl, rfl, rfl, by simp, ?_, nofun⟩, le_rfl⟩
      exact iff_of_false nofun (by simp)
  | @failed file rest s t code inner count hrest hcode hstep =>
      have hpos : 0 < rest.length := List.length_pos_iff.mpr hrest
      obtain ⟨hfpos, hsame⟩ := hE.failed hcode hstep
      refine ⟨0, ⟨Nat.zero_le _, by simp, ?_, ?_, ?_, ?_, ?_, ?_⟩, hpos⟩
      · simp [sent, hcode]
      · rw [hsame, List.take_zero, overwrite_nil]
      · exact congrArg UInt64.toNat hfpos
      · exact iff_of_false nofun (by omega)
      · refine iff_of_false ?_ (by simp [MadeNoProgress, hcode])
        intro heq
        exact Error.fromErrno_ne_io hcode _ (Except.error.inj heq)
      · rintro err heq -
        exact ⟨_, List.mem_cons_self, hcode, (Except.error.inj heq).symm⟩
  | @stuck file rest s t inner hrest hstep =>
      have hpos : 0 < rest.length := List.length_pos_iff.mpr hrest
      obtain ⟨-, hfpos, hbytes⟩ := hE.wrote hstep
      refine ⟨0, ⟨Nat.zero_le _, by simp, by simp [sent], hbytes, hfpos, ?_, ?_, ?_⟩, hpos⟩
      · exact iff_of_false nofun (by omega)
      · exact iff_of_true rfl ⟨_, List.mem_cons_self, hrest, rfl, rfl⟩
      · intro err heq hne
        exact absurd (Except.error.inj heq).symm hne
  | @wrote file file' rest s t u inner count tr result hrest hcount hstep _ ih =>
      have hcle := wrote_le hE hlen hstep
      have hshort := length_drop_lt hrest hcount
      have hlength : (rest.drop count.toNat).length = rest.length - count.toNat :=
        List.length_drop
      obtain ⟨-, hfpos, hbytes⟩ := hE.wrote hstep
      obtain ⟨k, hk, hcalls⟩ := ih (by omega)
      have hle := hk.le
      -- what this call wrote, with what the others write behind it
      have hprefix : rest.take count.toNat ++ (rest.drop count.toNat).take k =
          rest.take (count.toNat + k) := (List.take_add ..).symm
      have hfirst : (rest.take count.toNat).length = count.toNat := by
        rw [List.length_take, Nat.min_eq_left hcle]
      refine ⟨count.toNat + k, ⟨by omega, ?_, ?_, ?_, ?_, ?_, ?_, ?_⟩, ?_⟩
      · rw [List.length_cons]
        omega
      · rw [List.flatMap_cons, hk.sent_eq, ← hprefix]
        rfl
      · rw [hk.contents_eq, hbytes, hfpos, ← hprefix, ← overwrite_append, hfirst]
      · rw [hk.position, hfpos, Nat.add_assoc]
      · rw [hk.ok_iff]
        omega
      · rw [hk.zero_iff]
        simp [MadeNoProgress, hcount]
      · intro err heq hne
        obtain ⟨e, he, hcode⟩ := hk.error err heq hne
        exact ⟨e, List.mem_cons_of_mem _ he, hcode⟩
      · rw [List.length_cons]
        omega

/-- `write_all` returns after at most one call more than there are bytes,
without a panic, and has written a prefix of the buffer: all of it exactly on
`Ok`. The default of `io::Write` makes the same calls and succeeds in the same
cases. -/
theorem write_all_once {E : Environment Call Reply} {contents : E.State → Bytes}
    (hE : WritesOrFails E contents) (build : Build) {buf : Bytes} (hlen : buf.length < 2 ^ 64)
    {fuel : ℕ} (hfuel : buf.length ≤ fuel) (file : File) (s : E.State) :
    (∀ tr o t, Exec E (file.writeAll build fuel buf) s tr o t →
      ∃ result file' k, o = .ok (result, file') ∧
        WrotePrefix contents buf file s tr result file' t k) ∧
    (∀ tr o t, Exec E (file.ioWriteAll fuel buf) s tr o t ↔
      ∃ result file', o = .ok (defaultResult result, file') ∧
        Exec E (file.writeAll build fuel buf) s tr (.ok (result, file')) t) := by
  have hrun : ∀ tr o t, Exec E (file.writeAll build fuel buf) s tr o t ↔
      ∃ result file', o = .ok (result, file') ∧ WriteRun E file buf s tr result file' t := by
    intro tr o t
    have hle : (0 : UInt64).toNat ≤ buf.length := Nat.zero_le _
    exact writeRest_iff hE hlen hle hfuel
  refine ⟨?_, ?_⟩
  · intro tr o t h
    obtain ⟨result, file', rfl, hwrite⟩ := (hrun tr o t).mp h
    obtain ⟨k, hk, -⟩ := hwrite.wrotePrefix hE hlen
    exact ⟨result, file', k, rfl, hk⟩
  · intro tr o t
    rw [ioWriteAll_iff hE hlen hfuel]
    constructor
    · rintro ⟨result, file', rfl, h⟩
      exact ⟨result, file', rfl, (hrun tr _ t).mpr ⟨result, file', rfl, h⟩⟩
    · rintro ⟨result, file', rfl, h⟩
      obtain ⟨result', file'', heq, hwrite⟩ := (hrun tr _ t).mp h
      cases heq
      exact ⟨result, file', rfl, hwrite⟩

/-! ## A lwext4 that writes byte by byte -/

/-- The state is the contents; a write of anything writes its first byte, or fails. -/
def trickleLwext4 : Environment Call Reply where
  State := Bytes
  step s c r t :=
    match c, r with
    | .ext4Fwrite file buf size _, r =>
        (r.1 = (0 : Int32) ∧ r.2.2 ≤ size ∧ r.2.2 ≤ 1 ∧ file.fpos.toNat < 2 ^ 63 ∧
          r.2.1 = { file with fpos := file.fpos + r.2.2 } ∧
          t = overwrite 0 s file.fpos.toNat (buf.take r.2.2.toNat)) ∨
        (r.1 ≠ (0 : Int32) ∧ r.2.1 = file ∧ t = s)
    | _, _ => t = s

theorem trickleLwext4_writes : WritesOrFails trickleLwext4 id where
  wrote {s t file file' buf size wcnt count} h := by
    rcases h with ⟨-, hle, hone, hpos, hfile, rfl⟩ | ⟨hne, -⟩
    · refine ⟨hle, ?_, rfl⟩
      have hcount : count.toNat ≤ 1 := UInt64.le_iff_toNat_le.mp hone
      have hlt : file.fpos.toNat < 2 ^ 63 := hpos
      rw [show file' = _ from hfile]
      show (file.fpos + count).toNat = _
      rw [UInt64.toNat_add]
      exact Nat.mod_eq_of_lt (by omega)
    · exact absurd rfl hne
  failed {s t file file' buf size wcnt count code} hcode h := by
    rcases h with ⟨hzero, -⟩ | ⟨-, hfile, rfl⟩
    · exact absurd hzero hcode
    · rw [show file' = file from hfile]
      exact ⟨rfl, rfl⟩

/-- The calls that write two bytes one by one, over the second of the file on. -/
def trickleTrace : List SysEvent :=
  [⟨.ext4Fwrite (twoByteFile 1).inner [7, 8] 2 0,
      ((0 : Int32), (twoByteFile 2).inner, (1 : UInt64))⟩,
    ⟨.ext4Fwrite (twoByteFile 2).inner [8] 1 0,
      ((0 : Int32), (twoByteFile 3).inner, (1 : UInt64))⟩]

theorem trickle_exec :
    Exec trickleLwext4 ((twoByteFile 1).writeAll .checked 2 [7, 8]) [1, 2] trickleTrace
      (.ok (.ok (), twoByteFile 3)) [1, 7, 8] := by
  have hrun : WriteRun trickleLwext4 (twoByteFile 1) [7, 8] [1, 2] trickleTrace (.ok ())
      (twoByteFile 3) [1, 7, 8] :=
    .wrote (u := [1, 7]) nofun (by decide)
      (.inl ⟨rfl, by decide, by decide, by decide, rfl, by decide⟩)
      (.wrote (u := [1, 7, 8]) nofun (by decide)
        (.inl ⟨rfl, by decide, by decide, by decide, rfl, by decide⟩) (.done _ _))
  have hle : (0 : UInt64).toNat ≤ 2 := by decide
  exact (writeRest_iff trickleLwext4_writes (by decide) hle (by decide)).mpr
    ⟨_, _, rfl, hrun⟩

theorem write_all_once_trickle :
    (∃ result file' k, (Except.ok (.ok (), twoByteFile 3) : Outcome (Except Error Unit × File)) =
        .ok (result, file') ∧ WrotePrefix (E := trickleLwext4) id [7, 8] (twoByteFile 1) [1, 2]
          trickleTrace result file' [1, 7, 8] k) ∧
      Exec trickleLwext4 ((twoByteFile 1).ioWriteAll 2 [7, 8]) [1, 2] trickleTrace
        (.ok (.ok (), twoByteFile 3)) [1, 7, 8] := by
  have hlen : ([7, 8] : Bytes).length < 2 ^ 64 := by decide
  have hfuel : ([7, 8] : Bytes).length ≤ 2 := le_rfl
  have hall := write_all_once trickleLwext4_writes .checked hlen hfuel (twoByteFile 1) [1, 2]
  exact ⟨hall.1 _ _ _ trickle_exec, (hall.2 _ _ _).mpr ⟨_, _, rfl, trickle_exec⟩⟩

end Ext4Lwext4.Metatheory
