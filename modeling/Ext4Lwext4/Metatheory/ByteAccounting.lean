import Ext4Lwext4.Framework.Overlay
import Ext4Lwext4.Model.Api

/-! # The bytes a file transfers

`ext4_fread` and `ext4_fwrite` return a code and a count, and a call that fails
may have transferred a part. `read` and `write` return the one or the other:
behind an error the count is lost, and with it the place the file is at. -/

namespace Ext4Lwext4.Metatheory

open Ext4Lwext4.Framework Ext4Lwext4.Model

/-- What is asked of the two calls: they transfer as many bytes as they count,
from the position on, and move it past them, whatever code they return. -/
structure TransfersCounted (E : Environment Call Reply) (contents : E.State → Bytes) : Prop where
  read {s t : E.State} {file file' : Ext4File} {buf : Bytes} {size rcnt count : UInt64}
    {code : Int32} {out : Filled buf} :
    E.step s (.ext4Fread file buf size rcnt) (code, file', out, count) t →
    count ≤ size ∧ file'.fpos.toNat = file.fpos.toNat + count.toNat ∧ contents t = contents s ∧
      out.val = window (contents s) file.fpos.toNat count.toNat ++ buf.drop count.toNat
  write {s t : E.State} {file file' : Ext4File} {buf : Bytes} {size wcnt count : UInt64}
    {code : Int32} : E.step s (.ext4Fwrite file buf size wcnt) (code, file', count) t →
    count ≤ size ∧ file'.fpos.toNat = file.fpos.toNat + count.toNat ∧
      contents t = overwrite 0 (contents s) file.fpos.toNat (buf.take count.toNat)

/-! ## Runs of reads and writes -/

/-- Reads and writes, through the inherent methods or the traits of `std::io`. -/
def Transfers : FileOp → Prop
  | .read _ | .write _ | .ioRead _ | .ioWrite _ => True
  | _ => False

/-- The position of a file and its bytes. -/
structure Place where
  pos : UInt64
  bytes : Bytes
  deriving DecidableEq

/-- One operation: what it returned, the calls it made, and the places before
and after it. -/
structure FileTurn where
  op : FileOp
  result : ApiResult
  trace : List SysEvent
  before : Place
  after : Place

section Run

variable {E : Environment Call Reply} (contents : E.State → Bytes)

def placeOf (a : File × E.State) : Place := ⟨a.1.inner.fpos, contents a.2⟩

def FileTurn.Step (build : Build) (a : File × E.State) (turn : FileTurn) (b : File × E.State) :
    Prop :=
  Transfers turn.op ∧ turn.before = placeOf contents a ∧ turn.after = placeOf contents b ∧
    Exec E (turn.op.perform build a.1) a.2 turn.trace (.ok (turn.result, b.1)) b.2

end Run

/-- The bytes an operation says it transferred. -/
def counted : ApiResult → ℕ
  | .ok (.filled n _) => n.toNat
  | .ok (.count n) => n.toNat
  | _ => 0

/-- The position has moved by the counts that were returned, and where an error
was, nothing has happened. -/
structure Accounted (start : Place) (turns : List FileTurn) (final : Place) : Prop where
  position : final.pos.toNat = start.pos.toNat + (turns.map fun turn => counted turn.result).sum
  errors : ∀ turn ∈ turns, ∀ e, turn.result = .error e → turn.after = turn.before

/-- A call that failed after a part of the transfer. -/
def FailsMidway : SysEvent → Prop
  | ⟨.ext4Fread _ _ _ _, (code, _, _, count)⟩ => code ≠ 0 ∧ count ≠ 0
  | ⟨.ext4Fwrite _ _ _ _, (code, _, count)⟩ => code ≠ 0 ∧ count ≠ 0
  | _ => False

/-! ## One operation -/

/-- An operation against the code and the count of its one call. -/
structure FileTurn.Makes (turn : FileTurn) (code : Int32) (count : UInt64) : Prop where
  midway : (∃ e ∈ turn.trace, FailsMidway e) ↔ code ≠ 0 ∧ count ≠ 0
  succeeded : code = 0 → (∃ v, turn.result = .ok v) ∧ counted turn.result = count.toNat
  failed : code ≠ 0 → ∃ e, turn.result = .error e
  moved : turn.after.pos.toNat = turn.before.pos.toNat + count.toNat
  kept : count = 0 → turn.after = turn.before

/-- The result of an operation is that of its one call: the count where the code
is `0`, and an error otherwise. -/
structure Answers (result : ApiResult) (value : UInt64 → ApiValue) (code : Int32)
    (count : UInt64) : Prop where
  ok : code = 0 → result = .ok (value count)
  error : code ≠ 0 → ∃ e, result = .error e

theorem answers_checked (value : UInt64 → ApiValue) (code : Int32) (count : UInt64) :
    Answers (((checkErrno code).map fun _ => count).map value) value code count := by
  refine ⟨?_, ?_⟩
  · rintro rfl
    rfl
  · intro hcode
    rw [checkErrno_of_ne hcode]
    exact ⟨_, rfl⟩

/-- The traits of `std::io` wrap the error and keep the rest. -/
theorem answers_io (value : UInt64 → ApiValue) (code : Int32) (count : UInt64) :
    Answers ((ofIo (File.toIo ((checkErrno code).map fun _ => count))).map value) value code
      count := by
  refine ⟨?_, ?_⟩
  · rintro rfl
    rfl
  · intro hcode
    rw [checkErrno_of_ne hcode]
    exact ⟨_, rfl⟩

/-- What is left to show of an operation that answers with the count. -/
theorem Answers.makes {turn : FileTurn} {value : UInt64 → ApiValue} {code : Int32}
    {count : UInt64} (h : Answers turn.result value code count)
    (hvalue : counted (.ok (value count)) = count.toNat) {e : SysEvent} (htrace : turn.trace = [e])
    (hmidway : FailsMidway e ↔ code ≠ 0 ∧ count ≠ 0)
    (hmoved : turn.after.pos.toNat = turn.before.pos.toNat + count.toNat)
    (hkept : count = 0 → turn.after = turn.before) : turn.Makes code count where
  midway := by
    rw [htrace]
    simp only [List.mem_singleton, exists_eq_left]
    exact hmidway
  succeeded hcode := by
    rw [h.ok hcode]
    exact ⟨⟨_, rfl⟩, hvalue⟩
  failed := h.error
  moved := hmoved
  kept := hkept

section Turn

variable {E : Environment Call Reply} {contents : E.State → Bytes} {s t : E.State}
  {tr : List SysEvent} {file file' : File} {buf out : Bytes}

theorem read_makes (hE : TransfersCounted E contents) {inner : Ext4File} {code : Int32}
    {count : UInt64} {filled : Filled buf}
    (hstep : E.step s (.ext4Fread file.inner buf (len buf) 0) (code, inner, filled, count) t)
    {turn : FileTurn} (hbefore : turn.before = placeOf contents (file, s))
    (hafter : turn.after = placeOf contents ({ file with inner }, t))
    (htrace : turn.trace = [⟨.ext4Fread file.inner buf (len buf) 0, (code, inner, filled, count)⟩])
    (hresult : Answers turn.result (.filled · filled.val) code count) :
    turn.Makes code count := by
  obtain ⟨-, hpos, hsame, -⟩ := hE.read hstep
  refine hresult.makes rfl htrace Iff.rfl ?_ ?_
  · rw [hbefore, hafter]
    exact hpos
  · rintro rfl
    have hpos' : inner.fpos = file.inner.fpos := UInt64.toNat_inj.mp hpos
    rw [hbefore, hafter]
    simp only [placeOf, hpos', hsame]

theorem write_makes (hE : TransfersCounted E contents) {inner : Ext4File} {code : Int32}
    {count : UInt64}
    (hstep : E.step s (.ext4Fwrite file.inner buf (len buf) 0) (code, inner, count) t)
    {turn : FileTurn} (hbefore : turn.before = placeOf contents (file, s))
    (hafter : turn.after = placeOf contents ({ file with inner }, t))
    (htrace : turn.trace = [⟨.ext4Fwrite file.inner buf (len buf) 0, (code, inner, count)⟩])
    (hresult : Answers turn.result .count code count) : turn.Makes code count := by
  obtain ⟨-, hpos, hbytes⟩ := hE.write hstep
  refine hresult.makes rfl htrace Iff.rfl ?_ ?_
  · rw [hbefore, hafter]
    exact hpos
  · rintro rfl
    have hpos' : inner.fpos = file.inner.fpos := UInt64.toNat_inj.mp hpos
    rw [hbefore, hafter]
    simp only [placeOf, hpos', hbytes]
    rfl

/-- Each of the four operations is one call and what is made of it. -/
theorem fileTurn_makes {build : Build} {a b : File × E.State} {turn : FileTurn}
    (hE : TransfersCounted E contents) (h : turn.Step contents build a b) :
    ∃ code count, turn.Makes code count := by
  obtain ⟨file, s⟩ := a
  obtain ⟨file', t⟩ := b
  obtain ⟨op, result, trace, before, after⟩ := turn
  obtain ⟨hop, hbefore, hafter, h⟩ := h
  cases op with
  | read buf =>
      obtain ⟨⟨code, inner, filled, count⟩, u, tr, rfl, hstep, h⟩ := Exec.request_bind h
      obtain ⟨rfl, ho, rfl⟩ := Exec.done_iff.mp h
      cases ho
      exact ⟨code, count, read_makes hE hstep hbefore hafter rfl (answers_checked _ code count)⟩
  | ioRead buf =>
      obtain ⟨⟨code, inner, filled, count⟩, u, tr, rfl, hstep, h⟩ := Exec.request_bind h
      obtain ⟨rfl, ho, rfl⟩ := Exec.done_iff.mp h
      cases ho
      exact ⟨code, count, read_makes hE hstep hbefore hafter rfl (answers_io _ code count)⟩
  | write buf =>
      obtain ⟨⟨code, inner, count⟩, u, tr, rfl, hstep, h⟩ := Exec.request_bind h
      obtain ⟨rfl, ho, rfl⟩ := Exec.done_iff.mp h
      cases ho
      exact ⟨code, count, write_makes hE hstep hbefore hafter rfl (answers_checked _ code count)⟩
  | ioWrite buf =>
      obtain ⟨⟨code, inner, count⟩, u, tr, rfl, hstep, h⟩ := Exec.request_bind h
      obtain ⟨rfl, ho, rfl⟩ := Exec.done_iff.mp h
      cases ho
      exact ⟨code, count, write_makes hE hstep hbefore hafter rfl (answers_io _ code count)⟩
  | _ => exact hop.elim

/-- An error says truly that nothing happened exactly where the call did not
fail midway. -/
theorem FileTurn.Makes.errors_iff {turn : FileTurn} {code : Int32} {count : UInt64}
    (h : turn.Makes code count) :
    (∀ e, turn.result = .error e → turn.after = turn.before) ↔
      ∀ e ∈ turn.trace, ¬ FailsMidway e := by
  have hmidway : (∀ e ∈ turn.trace, ¬ FailsMidway e) ↔ ¬ (code ≠ 0 ∧ count ≠ 0) := by
    rw [← h.midway]
    simp only [not_exists, not_and]
  rw [hmidway]
  constructor
  · rintro herrors ⟨hcode, hcount⟩
    obtain ⟨e, he⟩ := h.failed hcode
    have hmoved := h.moved
    rw [herrors e he] at hmoved
    have hzero : count.toNat = 0 := by omega
    exact hcount (UInt64.toNat_inj.mp hzero)
  · intro hnot e he
    apply h.kept
    by_contra hcount
    have hcode : code = 0 := by
      by_contra hcode
      exact hnot ⟨hcode, hcount⟩
    obtain ⟨v, hv⟩ := (h.succeeded hcode).1
    cases hv.symm.trans he

/-- And then the position moves by what was returned. -/
theorem FileTurn.Makes.position_eq {turn : FileTurn} {code : Int32} {count : UInt64}
    (h : turn.Makes code count)
    (herrors : ∀ e, turn.result = .error e → turn.after = turn.before) :
    turn.after.pos.toNat = turn.before.pos.toNat + counted turn.result := by
  by_cases hcode : code = 0
  · rw [h.moved, (h.succeeded hcode).2]
  · obtain ⟨e, he⟩ := h.failed hcode
    rw [herrors e he, he]
    rfl

/-- The run lemma: positions add up over the turns whose errors are true. -/
theorem accounted_of_errors {build : Build} {a b : File × E.State} {turns : List FileTurn}
    (hE : TransfersCounted E contents) (h : Runs (FileTurn.Step contents build) a turns b)
    (herrors : ∀ turn ∈ turns, ∀ e, turn.result = .error e → turn.after = turn.before) :
    Accounted (placeOf contents a) turns (placeOf contents b) := by
  refine ⟨?_, herrors⟩
  induction h with
  | nil _ => rfl
  | @cons a c b turn turns hstep _ ih =>
      obtain ⟨code, count, hmakes⟩ := fileTurn_makes hE hstep
      have hturn := hmakes.position_eq (herrors turn List.mem_cons_self)
      have hrest := ih fun turn hmem => herrors turn (List.mem_cons_of_mem _ hmem)
      obtain ⟨-, hbefore, hafter, -⟩ := hstep
      rw [hbefore, hafter] at hturn
      rw [hrest, hturn, List.map_cons, List.sum_cons, Nat.add_assoc]

end Turn

/-- For every sequence of reads and writes, inherent or of `std::io`: the
bytes are accounted for exactly when no call failed midway. -/
theorem byte_accounting_iff {E : Environment Call Reply} {contents : E.State → Bytes}
    {build : Build} {a b : File × E.State} {turns : List FileTurn}
    (hE : TransfersCounted E contents) (h : Runs (FileTurn.Step contents build) a turns b) :
    Accounted (placeOf contents a) turns (placeOf contents b) ↔
      ∀ turn ∈ turns, ∀ e ∈ turn.trace, ¬ FailsMidway e := by
  have hmakes : ∀ turn ∈ turns, ∃ code count, turn.Makes code count := by
    intro turn hmem
    obtain ⟨u, v, hstep, -⟩ := h.forall_mem (I := fun _ => True) (fun _ _ _ _ _ => trivial)
      trivial turn hmem
    exact fileTurn_makes hE hstep
  constructor
  · intro hacc turn hmem
    obtain ⟨code, count, hturn⟩ := hmakes turn hmem
    exact hturn.errors_iff.mp (hacc.errors turn hmem)
  · intro hnone
    apply accounted_of_errors hE h
    intro turn hmem
    obtain ⟨code, count, hturn⟩ := hmakes turn hmem
    exact hturn.errors_iff.mpr (hnone turn hmem)

/-! ## A disk that fills up -/

/-- The state is the contents of the file. A write for which there is no room
transfers what there is room for, and fails. -/
def fillingLwext4 : Environment Call Reply where
  State := Bytes
  step s c r t :=
    match c, r with
    | .ext4Fread file buf _ _, r =>
        r.1 = EINVAL ∧ r.2.1 = file ∧ r.2.2.1.val = buf ∧ r.2.2.2 = 0 ∧ t = s
    | .ext4Fwrite file buf size _, r =>
        r.2.2 ≤ size ∧ file.fpos.toNat + r.2.2.toNat < 2 ^ 64 ∧
          (r.1 = if r.2.2 = size then (0 : Int32) else ENOSPC) ∧
          r.2.1 = { file with fpos := UInt64.ofNat (file.fpos.toNat + r.2.2.toNat) } ∧
          t = overwrite 0 s file.fpos.toNat (buf.take r.2.2.toNat)
    | _, _ => t = s

theorem fillingLwext4_counted : TransfersCounted fillingLwext4 id where
  read {s t file file' buf size rcnt count code out} h := by
    obtain ⟨-, hfile, hout, hcount, rfl⟩ := h
    obtain rfl : file' = file := hfile
    obtain rfl : count = 0 := hcount
    exact ⟨UInt64.zero_le, rfl, rfl, hout⟩
  write {s t file file' buf size wcnt count code} h := by
    obtain ⟨hle, hlt, -, hfile, rfl⟩ := h
    refine ⟨hle, ?_, rfl⟩
    rw [show file' = _ from hfile]
    exact (UInt64.toNat_ofNat' ..).trans (Nat.mod_eq_of_lt hlt)

/-- A file of two bytes, with its position. -/
def twoByteFile (pos : UInt64) : File :=
  ⟨⟨9, deviceNameOf 4, mountPointOf 4, false, true⟩, ⟨0, 12, 0, 2, pos⟩, "log"⟩

/-- The turn of a write of three bytes at its end, of which some are written. -/
def appendTurn (result : ApiResult) (code : Int32) (count pos : UInt64) (bytes : Bytes) :
    FileTurn where
  op := .write [7, 8, 9]
  result := result
  trace := [⟨.ext4Fwrite (twoByteFile 2).inner [7, 8, 9] 3 0,
    (code, (twoByteFile pos).inner, count)⟩]
  before := ⟨2, [1, 2]⟩
  after := ⟨pos, bytes⟩

theorem append_all :
    FileTurn.Step (E := fillingLwext4) id .checked (twoByteFile 2, [1, 2])
      (appendTurn (.ok (.count 3)) 0 3 5 [1, 2, 7, 8, 9]) (twoByteFile 5, [1, 2, 7, 8, 9]) :=
  ⟨trivial, rfl, rfl, .call (u := [1, 2, 7, 8, 9])
    ⟨by decide, by decide, rfl, rfl, by decide⟩ (.done _ _)⟩

theorem append_part :
    FileTurn.Step (E := fillingLwext4) id .checked (twoByteFile 2, [1, 2])
      (appendTurn (.error .noSpace) ENOSPC 1 3 [1, 2, 7]) (twoByteFile 3, [1, 2, 7]) :=
  ⟨trivial, rfl, rfl, .call (u := [1, 2, 7]) ⟨by decide, by decide, rfl, rfl, by decide⟩
    (.done _ _)⟩

theorem byte_accounting_iff_append :
    Accounted ⟨2, [1, 2]⟩ [appendTurn (.ok (.count 3)) 0 3 5 [1, 2, 7, 8, 9]]
        ⟨5, [1, 2, 7, 8, 9]⟩ ↔
      ∀ turn ∈ [appendTurn (.ok (.count 3)) 0 3 5 [1, 2, 7, 8, 9]],
        ∀ e ∈ turn.trace, ¬ FailsMidway e :=
  byte_accounting_iff fillingLwext4_counted (.single append_all)

/-- One byte of three was written when the disk was full, and `write` returned
an error. -/
theorem partial_write_lost :
    TransfersCounted fillingLwext4 id ∧
    ¬ ∀ (a b : File × fillingLwext4.State) (turns : List FileTurn),
      Runs (FileTurn.Step id .checked) a turns b →
      Accounted (placeOf id a) turns (placeOf id b) := by
  refine ⟨fillingLwext4_counted, ?_⟩
  intro h
  have hacc := h _ _ _ (.single append_part)
  have hsame := hacc.errors _ List.mem_cons_self .noSpace rfl
  exact absurd hsame (by decide)

end Ext4Lwext4.Metatheory
