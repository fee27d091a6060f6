import Ext4Lwext4.Metatheory.FileCursor

/-! # What the history of a file says of it

A client that keeps its operations and what they returned knows the bytes of
its file: they follow from the history, and what it reads is what it wrote. -/

namespace Ext4Lwext4.Metatheory

open Ext4Lwext4.Framework Ext4Lwext4.Model

/-! ## What the client can tell -/

/-- Where the machine is after an operation, told by what it returned. -/
def observe (fill : Option UInt8) (c : Cursor UInt8) (use : FileUse) : Cursor UInt8 :=
  match use.op, use.outcome with
  | .read _, .ok (.ok (.filled n _)) | .ioRead _, .ok (.ok (.filled n _)) => c.skip n.toNat
  | .write buf, .ok (.ok (.count n)) | .ioWrite buf, .ok (.ok (.count n)) =>
      c.put (buf.take n.toNat)
  | .seek _, .ok (.ok (.count p)) | .ioSeek _, .ok (.ok (.count p)) => c.moveTo p.toNat
  | .truncate size, .ok (.ok _) => c.resize fill size.toNat
  | .readToEnd _ _, .ok (.ok _) | .readToString _ _, .ok (.ok _) => c.moveTo c.cells.length
  | .writeAll _ buf, .ok (.ok _) => c.put buf
  | _, _ => c

/-- It succeeded, or failed as an operation that then has done nothing. -/
def Conclusive (use : FileUse) : Prop :=
  match use.op with
  | .seek _ | .ioSeek _ | .sync | .metadata => ∃ result, use.outcome = .ok result
  | _ => ∃ v, use.outcome = .ok (.ok v)

/-- The operations that change the bytes of a file. -/
def Edits : FileOp → Prop
  | .write _ | .ioWrite _ | .writeAll _ _ | .truncate _ => True
  | _ => False

/-- What an operation that succeeds tells of a file with these bytes, by a handle
at this position, is true. A read gives the bytes that stand there, and at least
one where there is one to give. -/
def TrueOf (bytes : Bytes) (pos : ℕ) (op : FileOp) (value : ApiValue) : Prop :=
  match op, value with
  | .read buf, .filled n out | .ioRead buf, .filled n out =>
      n.toNat ≤ buf.length ∧ pos + n.toNat ≤ bytes.length ∧
        out = window bytes pos n.toNat ++ buf.drop n.toNat ∧
        (buf ≠ [] → pos < bytes.length → 0 < n.toNat)
  | .position, .count n => n.toNat = pos
  | .readToEnd _ before, .filled n out => n.toNat = bytes.length ∧ out = before.bytes ++ bytes
  | .readToString _ _, .counted n text => n.toNat = bytes.length ∧ strBytes text = bytes
  | .size, .count n => n.toNat = bytes.length
  | _, _ => True

section Observed

variable {fill : Option UInt8} {c c' : Cursor UInt8}

theorem map_eq_ok {ε α β : Type} {r : Except ε α} {f : α → β} {b : β} (h : r.map f = .ok b) :
    ∃ a, r = .ok a ∧ f a = b := by
  cases r with
  | error e => cases h
  | ok a => exact ⟨a, rfl, Except.ok.inj h⟩

theorem ofIo_eq_ok {α : Type} {r : Except IoError α} {a : α} (h : ofIo r = .ok a) : r = .ok a := by
  cases r with
  | error e => cases h
  | ok b => exact congrArg _ (Except.ok.inj h)

theorem Reads.observed {ε : Type} {buf out : Bytes} {n : UInt64}
    (h : Reads (ε := ε) c buf (.ok n) out c') : c' = c.skip n.toNat := by
  obtain ⟨k, -, -, -, rfl, hcount⟩ := h
  rw [(hcount n rfl).1]

theorem Writes.observed {ε : Type} {buf : Bytes} {n : UInt64}
    (h : Writes (ε := ε) c buf (.ok n) c') : c' = c.put (buf.take n.toNat) := by
  obtain ⟨k, -, rfl, hcount⟩ := h
  rw [hcount n rfl]

/-- A seek goes where it says, or nowhere. -/
theorem Seeks.observed {ε : Type} {pos : SeekFrom} {r : Except ε UInt64} (h : Seeks c pos r c') :
    (∀ p, r = .ok p → c' = c.moveTo p.toNat) ∧ ∀ e, r = .error e → c' = c := by
  unfold Seeks at h
  cases htarget : seekTarget c pos with
  | none =>
      simp only [htarget] at h
      obtain ⟨⟨e, rfl⟩, rfl⟩ := h
      exact ⟨nofun, fun _ _ => rfl⟩
  | some p =>
      simp only [htarget] at h
      obtain ⟨⟨k, rfl, rfl⟩, rfl⟩ := h
      refine ⟨fun p hp => ?_, nofun⟩
      rw [Except.ok.inj hp]

/-- The outcome tells where the machine is. -/
theorem Allows.observed {op : FileOp} {result : ApiResult} (h : Allows fill c op result c')
    (hc : Conclusive ⟨op, .ok result⟩) : c' = observe fill c ⟨op, .ok result⟩ := by
  cases op with
  | read buf =>
      obtain ⟨r, out, hread, rfl⟩ := h
      obtain ⟨v, hv⟩ := hc
      obtain ⟨n, rfl, -⟩ := map_eq_ok (Except.ok.inj hv)
      exact hread.observed
  | ioRead buf =>
      obtain ⟨r, out, hread, rfl⟩ := h
      obtain ⟨v, hv⟩ := hc
      obtain ⟨n, hn, -⟩ := map_eq_ok (Except.ok.inj hv)
      obtain rfl := ofIo_eq_ok hn
      exact hread.observed
  | write buf =>
      obtain ⟨r, hwrite, rfl⟩ := h
      obtain ⟨v, hv⟩ := hc
      obtain ⟨n, rfl, -⟩ := map_eq_ok (Except.ok.inj hv)
      exact hwrite.observed
  | ioWrite buf =>
      obtain ⟨r, hwrite, rfl⟩ := h
      obtain ⟨v, hv⟩ := hc
      obtain ⟨n, hn, -⟩ := map_eq_ok (Except.ok.inj hv)
      obtain rfl := ofIo_eq_ok hn
      exact hwrite.observed
  | seek pos =>
      obtain ⟨r, hseek, rfl⟩ := h
      cases r with
      | error e => exact hseek.observed.2 e rfl
      | ok p => exact hseek.observed.1 p rfl
  | ioSeek pos =>
      obtain ⟨r, hseek, rfl⟩ := h
      cases r with
      | error e => exact hseek.observed.2 e rfl
      | ok p => exact hseek.observed.1 p rfl
  | truncate size =>
      obtain ⟨r, htruncate, rfl⟩ := h
      obtain ⟨v, hv⟩ := hc
      obtain ⟨u, rfl, -⟩ := map_eq_ok (Except.ok.inj hv)
      rcases htruncate with ⟨-, rfl⟩ | ⟨⟨e, he⟩, -⟩
      · rfl
      · cases he
  | readToEnd fuel buf =>
      obtain ⟨r, out, hread, rfl⟩ := h
      obtain ⟨v, hv⟩ := hc
      obtain ⟨n, rfl, -⟩ := map_eq_ok (Except.ok.inj hv)
      rcases hread with ⟨-, -, rfl⟩ | ⟨⟨e, he⟩, -⟩
      · rfl
      · cases he
  | readToString fuel text =>
      obtain ⟨r, after, hread, rfl⟩ := h
      obtain ⟨v, hv⟩ := hc
      obtain ⟨n, rfl, -⟩ := map_eq_ok (Except.ok.inj hv)
      rcases hread with ⟨-, -, rfl⟩ | ⟨⟨e, he⟩, -⟩
      · rfl
      · cases he
  | writeAll fuel buf =>
      obtain ⟨r, hwrite, rfl⟩ := h
      obtain ⟨v, hv⟩ := hc
      obtain ⟨u, rfl, -⟩ := map_eq_ok (Except.ok.inj hv)
      rcases hwrite with ⟨-, rfl⟩ | ⟨⟨e, he⟩, -⟩
      · rfl
      · cases he
  | position => exact h.2
  | size => exact h.2
  | flush => exact h.2
  | ioFlush => exact h.2
  | sync => exact h
  | metadata => exact h

/-- An operation that edits nothing may fail, and moves at most. -/
theorem Allows.cells_eq {op : FileOp} {result : ApiResult} (h : Allows fill c op result c')
    (hop : ¬ Edits op) : c'.cells = c.cells := by
  have hseek : ∀ {ε : Type} {pos : SeekFrom} {r : Except ε UInt64}, Seeks c pos r c' →
      c'.cells = c.cells := by
    intro ε pos r hseek
    cases r with
    | error e => rw [hseek.observed.2 e rfl]
    | ok p => rw [hseek.observed.1 p rfl, Cursor.moveTo_cells]
  cases op with
  | read buf =>
      obtain ⟨r, out, ⟨n, -, -, -, rfl, -⟩, -⟩ := h
      rfl
  | ioRead buf =>
      obtain ⟨r, out, ⟨n, -, -, -, rfl, -⟩, -⟩ := h
      rfl
  | seek pos =>
      obtain ⟨r, h, -⟩ := h
      exact hseek h
  | ioSeek pos =>
      obtain ⟨r, h, -⟩ := h
      exact hseek h
  | readToEnd fuel buf =>
      obtain ⟨r, out, ⟨-, -, rfl⟩ | ⟨-, -, hcells⟩, -⟩ := h
      · rfl
      · exact hcells
  | readToString fuel text =>
      obtain ⟨r, after, ⟨-, -, rfl⟩ | ⟨-, -, hcells⟩, -⟩ := h
      · rfl
      · exact hcells
  | position => rw [h.2]
  | size => rw [h.2]
  | flush => rw [h.2]
  | ioFlush => rw [h.2]
  | sync => rw [show c' = c from h]
  | metadata => rw [show c' = c from h]
  | _ => exact absurd trivial hop

theorem Reads.trueOf {ε : Type} {buf out : Bytes} {n : UInt64}
    (h : Reads (ε := ε) c buf (.ok n) out c') :
    TrueOf c.cells c.pos (.read buf) (.filled n out) := by
  obtain ⟨k, hrest, hle, hout, -, hcount⟩ := h
  obtain ⟨rfl, hsome⟩ := hcount n rfl
  have hpos := c.pos_le
  rw [Cursor.length_rest] at hrest
  refine ⟨hle, by omega, hout, fun hbuf hlt => Nat.pos_of_ne_zero (hsome hbuf ?_)⟩
  rw [Cursor.rest, ne_eq, List.drop_eq_nil_iff]
  omega

/-- What the machine answers is true of its bytes and its place. -/
theorem Allows.trueOf {op : FileOp} {value : ApiValue} (h : Allows fill c op (.ok value) c') :
    TrueOf c.cells c.pos op value := by
  cases op with
  | read buf =>
      obtain ⟨r, out, hread, hvalue⟩ := h
      obtain ⟨n, rfl, rfl⟩ := map_eq_ok hvalue.symm
      exact hread.trueOf
  | ioRead buf =>
      obtain ⟨r, out, hread, hvalue⟩ := h
      obtain ⟨n, hn, rfl⟩ := map_eq_ok hvalue.symm
      obtain rfl := ofIo_eq_ok hn
      exact hread.trueOf
  | position =>
      obtain ⟨⟨n, hn, hvalue⟩, -⟩ := h
      cases hvalue
      exact hn
  | readToEnd fuel buf =>
      obtain ⟨r, out, hread, hvalue⟩ := h
      obtain ⟨n, rfl, rfl⟩ := map_eq_ok hvalue.symm
      rcases hread with ⟨⟨k, hk, hlen⟩, hout, -⟩ | ⟨⟨e, he⟩, -⟩
      · cases hk
        rw [Cursor.rest_moveTo_zero] at hout
        exact ⟨hlen, hout⟩
      · cases he
  | readToString fuel text =>
      obtain ⟨r, after, hread, hvalue⟩ := h
      obtain ⟨n, rfl, rfl⟩ := map_eq_ok hvalue.symm
      rcases hread with ⟨⟨k, hk, hlen⟩, hafter, -⟩ | ⟨⟨e, he⟩, -⟩
      · cases hk
        exact ⟨hlen, hafter⟩
      · cases he
  | size =>
      obtain ⟨⟨n, hn, hvalue⟩, -⟩ := h
      cases hvalue
      exact hn
  | _ => exact trivial

/-- The run lemma for what is observed. -/
theorem cursor_observed {uses : List FileUse} {d : Option (Cursor UInt8)}
    (h : Runs (CursorStep fill) (some c) uses d) (hall : ∀ use ∈ uses, Conclusive use) :
    d = some (uses.foldl (observe fill) c) := by
  generalize hstart : some c = start at h
  induction h generalizing c with
  | nil _ => exact hstart.symm
  | @cons a b e use uses hstep _ ih =>
      have hlast := hall use List.mem_cons_self
      cases hstep with
      | returned hallows =>
          cases hstart
          have hobserved := hallows.observed hlast
          subst hobserved
          exact ih (fun use hmem => hall use (List.mem_cons_of_mem _ hmem)) rfl
      | @halted c op why hwhy =>
          cases op <;> (obtain ⟨v, hv⟩ := hlast; cases hv)

/-- The run lemma for the bytes. -/
theorem cursor_cells_eq {uses : List FileUse}
    (h : Runs (CursorStep fill) (some c) uses (some c')) (hquiet : ∀ use ∈ uses, ¬ Edits use.op) :
    c'.cells = c.cells := by
  generalize hstart : some c = start at h
  generalize hend : some c' = d at h
  induction h generalizing c with
  | nil _ =>
      cases hstart.trans hend.symm
      rfl
  | @cons a b e use uses hstep hrest ih =>
      cases hstep with
      | @returned _ next op result hallows =>
          cases hstart
          have hfirst := hallows.cells_eq (hquiet _ List.mem_cons_self)
          have hothers := ih (fun use hmem => hquiet use (List.mem_cons_of_mem _ hmem)) rfl hend
          exact hothers.trans hfirst
      | halted hwhy =>
          -- there is no run behind an operation that did not return
          cases hrest with
          | nil _ => cases hend
          | cons hstep _ => cases hstep

end Observed

section Histories

variable {E : Environment Call Reply} {contents : E.State → Bytes} {fill : Option UInt8}
  {build : Build} {file : File} {s : E.State} {c : Cursor UInt8}

/-- A run on an open file, as a run of the machine from the cursor it shows. -/
theorem shown_runs (hE : ServesFile E contents fill) (hs : Shows contents file.inner c s)
    {uses : List FileUse} {b : Option File × E.State}
    (h : Runs (FileUse.Step build E) (some file, s) uses b) :
    ∃ d, Runs (CursorStep fill) (some c) uses d ∧ Represents contents b d := by
  have hrep : Represents contents (some file, s) (some c) := hs
  exact h.simulated (fileUse_simulated hE) hrep

/-- Where every operation was conclusive, the file is open still, its bytes and
its position are those of the history, and so is all it answers next. -/
theorem file_holds_history (hE : ServesFile E contents fill) (hs : Shows contents file.inner c s)
    {uses : List FileUse} {b : Option File × E.State}
    (h : Runs (FileUse.Step build E) (some file, s) uses b)
    (hall : ∀ use ∈ uses, Conclusive use) :
    ∃ file' t, b = (some file', t) ∧ Shows contents file'.inner (uses.foldl (observe fill) c) t ∧
      ∀ op result d, FileUse.Step build E b ⟨op, .ok result⟩ d →
        ∃ c', Allows fill (uses.foldl (observe fill) c) op result c' := by
  obtain ⟨d, hrun, hrep⟩ := shown_runs hE hs h
  have hd := cursor_observed hrun hall
  subst hd
  obtain ⟨file', t⟩ := b
  cases file' with
  | none => exact hrep.elim
  | some file' =>
      refine ⟨file', t, rfl, hrep, ?_⟩
      intro op result d hstep
      obtain ⟨d', hmove, -⟩ := fileUse_simulated hE _ _ _ (some _) hrep hstep
      cases hmove with
      | returned hallows => exact ⟨_, hallows⟩

/-- What `write_all` wrote is read back, over the bytes that were there, after
any seeks, reads and other operations that edit nothing, whichever of them
fail, until the file is written to again: a read gives those of them that stand
at the handle's position. -/
theorem written_is_read_back (hE : ServesFile E contents fill)
    (hs : Shows contents file.inner c s) {fuel : ℕ} {buf : Bytes} {uses : List FileUse}
    {file' : File} {t : E.State}
    (h : Runs (FileUse.Step build E) (some file, s)
      (⟨.writeAll fuel buf, .ok (.ok .unit)⟩ :: uses) (some file', t))
    (hquiet : ∀ use ∈ uses, ¬ Edits use.op) :
    contents t = overlay (contents s) c.pos buf ∧
      ∀ op value d, FileUse.Step build E (some file', t) ⟨op, .ok (.ok value)⟩ d →
        TrueOf (overlay (contents s) c.pos buf) file'.inner.fpos.toNat op value := by
  obtain ⟨d, hrun, hrep⟩ := shown_runs hE hs h
  cases d with
  | none => exact hrep.elim
  | some c' =>
      rw [hs.cells]
      have hcells : c'.cells = overlay c.cells c.pos buf := by
        cases hrun with
        | cons hwrite hrest =>
            cases hwrite with
            | @returned _ next _ _ hallows =>
                rw [cursor_cells_eq hrest hquiet, hallows.observed ⟨_, rfl⟩]
                rfl
      refine ⟨hrep.cells.trans hcells, ?_⟩
      intro op value d hstep
      obtain ⟨d', hmove, -⟩ := fileUse_simulated hE _ _ _ (some c') hrep hstep
      cases hmove with
      | returned hallows =>
          rw [← hcells, hrep.pos]
          exact hallows.trueOf

end Histories

/-! ## Two bytes of a file -/

theorem file_holds_history_grown : ∃ file' t,
    (some (grownFile 3 3), ([1, 7, 8] : Bytes)) = (some file', t) ∧
      Shows id file'.inner ([⟨.writeAll 2 [7, 8], .ok (.ok .unit)⟩,
        ⟨.seek (.current (-9)), .ok (.error (.invalidArgument ""))⟩].foldl (observe none)
          shortCursor) t ∧
      ∀ op result d, FileUse.Step .checked storingLwext4 (some (grownFile 3 3), [1, 7, 8])
        ⟨op, .ok result⟩ d → ∃ c', Allows none ([⟨.writeAll 2 [7, 8], .ok (.ok .unit)⟩,
          ⟨.seek (.current (-9)), .ok (.error (.invalidArgument ""))⟩].foldl (observe none)
            shortCursor) op result c' := by
  refine file_holds_history storingLwext4_serves ⟨rfl, rfl, rfl⟩ grown_run ?_
  intro use hmem
  rcases List.mem_cons.mp hmem with rfl | hmem
  · exact ⟨_, rfl⟩
  · obtain rfl := List.mem_singleton.mp hmem
    exact ⟨_, rfl⟩

/-- Back to where they were written, to read them. -/
theorem grown_sought : Runs (FileUse.Step .checked storingLwext4) (some (grownFile 2 1), [1, 2])
    [⟨.writeAll 2 [7, 8], .ok (.ok .unit)⟩, ⟨.seek (.start 1), .ok (.ok (.count 1))⟩]
    (some (grownFile 3 1), [1, 7, 8]) := by
  have hseek : Exec storingLwext4 ((grownFile 3 3).seek (.start 1)) [1, 7, 8]
      [⟨.ext4Fseek (grownFile 3 3).inner 1 SEEK_SET, ((0 : Int32), (grownFile 3 1).inner)⟩,
        ⟨.ext4Ftell (grownFile 3 1).inner, (1 : UInt64)⟩]
      (.ok (.ok 1, grownFile 3 1)) [1, 7, 8] :=
    .call (u := [1, 7, 8]) ⟨by change _ = fseekReply _ (1 : Int64).toInt SEEK_SET; decide, rfl⟩
      (.call (u := [1, 7, 8]) ⟨rfl, rfl⟩ (.done _ _))
  exact .cons grown_written (.single (.returned trivial (hseek.bind_done rfl)))

theorem grown_read : FileUse.Step .checked storingLwext4 (some (grownFile 3 1), [1, 7, 8])
    ⟨.read [0, 0, 0], .ok (.ok (.filled 2 [7, 8, 0]))⟩ (some (grownFile 3 3), [1, 7, 8]) := by
  have hread : Exec storingLwext4 ((grownFile 3 1).read [0, 0, 0]) [1, 7, 8]
      [⟨.ext4Fread (grownFile 3 1).inner [0, 0, 0] 3 0,
        ((0 : Int32), (grownFile 3 3).inner, ⟨[7, 8, 0], rfl⟩, (2 : UInt64))⟩]
      (.ok (.ok 2, [7, 8, 0], grownFile 3 3)) [1, 7, 8] :=
    .call (u := [1, 7, 8])
      ⟨by decide, by decide, rfl, by decide, by decide, fun _ _ _ => by decide⟩ (.done _ _)
  have hsized : ([0, 0, 0] : Bytes).length ≤ isizeMax := by decide
  exact .returned hsized (hread.bind_done rfl)

theorem written_is_read_back_grown :
    ([1, 7, 8] : Bytes) = overlay [1, 2] 1 [7, 8] ∧
      TrueOf (overlay [1, 2] 1 [7, 8]) 1 (.read [0, 0, 0]) (.filled 2 [7, 8, 0]) := by
  have hs : Shows id (grownFile 2 1).inner shortCursor ([1, 2] : Bytes) := ⟨rfl, rfl, rfl⟩
  obtain ⟨hcells, htrue⟩ := written_is_read_back storingLwext4_serves hs grown_sought (by
    intro use hmem
    obtain rfl := List.mem_singleton.mp hmem
    exact id)
  exact ⟨hcells, htrue _ _ _ grown_read⟩

end Ext4Lwext4.Metatheory
