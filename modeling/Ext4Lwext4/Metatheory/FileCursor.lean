import Ext4Lwext4.Framework.Cursor
import Ext4Lwext4.Framework.Triples
import Ext4Lwext4.Metatheory.ByteAccounting
import Ext4Lwext4.Metatheory.Seeking
import Ext4Lwext4.Metatheory.WriteAll

/-! # A file is bytes with a place in them

A `File` keeps two numbers in an `ext4_file` and everything else in lwext4. To
the one who uses it, it is a `Cursor`: every public operation, with its short
transfers, its loops and its errors, is a move of that machine. -/

namespace Ext4Lwext4.Metatheory

open Ext4Lwext4.Framework Ext4Lwext4.Model

/-! ## What is asked of lwext4 -/

/-- The calls that leave the contents of every file as they are. -/
def LeavesContents : Call → Prop
  | .ext4Fopen2 _ _ flags => flags &&& (O_CREAT ||| O_TRUNC) = 0
  | .ext4Fclose _ | .ext4Fseek _ _ _ | .ext4Ftell _ | .ext4Fsize _ | .ext4CacheFlush _
  | .ext4ModeGet _ _ | .ext4OwnerGet _ _ _ | .ext4AtimeGet _ _ | .ext4MtimeGet _ _
  | .ext4CtimeGet _ _ => True
  | _ => False

/-- The calls on one file, with what `ext4_ftruncate` fills the file up with
where it lets it grow. The size in the handle is that of the file; a transfer
or a truncation that fails may have been carried out in part. -/
structure ServesFile (E : Environment Call Reply) (contents : E.State → Bytes)
    (fill : Option UInt8) : Prop extends TransfersCounted E contents, SeeksInFile E where
  progress {s t : E.State} {file file' : Ext4File} {buf : Bytes} {size rcnt count : UInt64}
    {out : Filled buf} :
    E.step s (.ext4Fread file buf size rcnt) ((0 : Int32), file', out, count) t →
    0 < size → file.fpos.toNat < (contents s).length → 0 < count
  readSize {s t : E.State} {file file' : Ext4File} {buf : Bytes} {size rcnt count : UInt64}
    {code : Int32} {out : Filled buf} :
    E.step s (.ext4Fread file buf size rcnt) (code, file', out, count) t →
    file'.fsize.toNat = (contents t).length
  writeSize {s t : E.State} {file file' : Ext4File} {buf : Bytes} {size wcnt count : UInt64}
    {code : Int32} : E.step s (.ext4Fwrite file buf size wcnt) (code, file', count) t →
    file'.fsize.toNat = (contents t).length
  seekSize {s t : E.State} {file file' : Ext4File} {offset : Int64} {origin : UInt32}
    {ret : Int32} : E.step s (.ext4Fseek file offset origin) (ret, file') t →
    file'.fsize = file.fsize
  sizeOf {s t : E.State} {file : Ext4File} {n : UInt64} :
    E.step s (.ext4Fsize file) n t → n = file.fsize
  truncated {s t : E.State} {file file' : Ext4File} {size : UInt64} :
    E.step s (.ext4Ftruncate file size) ((0 : Int32), file') t →
    contents t = Cursor.resized fill (contents s) size.toNat ∧
      file'.fpos.toNat = min file.fpos.toNat size.toNat ∧
      file'.fsize.toNat = (contents t).length
  truncateFailed {s t : E.State} {file file' : Ext4File} {size : UInt64} {code : Int32} :
    code ≠ 0 → E.step s (.ext4Ftruncate file size) (code, file') t →
    (contents t).take size.toNat = (contents s).take size.toNat ∧ file'.fpos ≤ file'.fsize ∧
      file'.fsize.toNat = (contents t).length
  kept {s t : E.State} {c : Call} {r : Reply c} : LeavesContents c → E.step s c r t →
    contents t = contents s

/-- The handle shows this place of these bytes. -/
structure Shows {S : Type} (contents : S → Bytes) (inner : Ext4File) (c : Cursor UInt8) (s : S) :
    Prop where
  cells : contents s = c.cells
  pos : inner.fpos.toNat = c.pos
  size : inner.fsize.toNat = c.cells.length

/-- A handle whose position is in its file shows it. -/
def cursorAt (bytes : Bytes) (inner : Ext4File) (h : inner.fpos.toNat ≤ bytes.length) :
    Cursor UInt8 := ⟨bytes, inner.fpos.toNat, h⟩

/-! ## The machine -/

section Moves

variable {ε : Type}

/-- Some of the next bytes are read, at least one where that is possible. -/
def Reads (c : Cursor UInt8) (buf : Bytes) (result : Except ε UInt64) (out : Bytes)
    (c' : Cursor UInt8) : Prop :=
  ∃ n ≤ c.rest.length, n ≤ buf.length ∧ out = c.peek n ++ buf.drop n ∧ c' = c.skip n ∧
    ∀ k, result = .ok k → k.toNat = n ∧ (buf ≠ [] → c.rest ≠ [] → n ≠ 0)

/-- A front part of the buffer is written. -/
def Writes (c : Cursor UInt8) (buf : Bytes) (result : Except ε UInt64) (c' : Cursor UInt8) :
    Prop :=
  ∃ n ≤ buf.length, c' = c.put (buf.take n) ∧ ∀ k, result = .ok k → k.toNat = n

/-- A place of the file, or none where it would lie outside. -/
def placeIn (c : Cursor UInt8) (target : ℤ) : Option ℕ :=
  if 0 ≤ target ∧ target ≤ c.cells.length then some target.toNat else none

/-- Where a seek goes. From the end it goes back, and a start is read as signed. -/
def seekTarget (c : Cursor UInt8) : SeekFrom → Option ℕ
  | .start n => placeIn c n.toInt64.toInt
  | .fromEnd n => (placeIn c n.toInt).map fun d => c.cells.length - d
  | .current n => placeIn c (c.pos + n.toInt)

def Seeks (c : Cursor UInt8) (pos : SeekFrom) (result : Except ε UInt64) (c' : Cursor UInt8) :
    Prop :=
  match seekTarget c pos with
  | some p => (∃ k, result = .ok k ∧ k.toNat = p) ∧ c' = c.moveTo p
  | none => (∃ e, result = .error e) ∧ c' = c

def Truncates (fill : Option UInt8) (c : Cursor UInt8) (size : UInt64) (result : Except ε Unit)
    (c' : Cursor UInt8) : Prop :=
  (result = .ok () ∧ c' = c.resize fill size.toNat) ∨
    ((∃ e, result = .error e) ∧ c'.cells.take size.toNat = c.cells.take size.toNat)

/-- All that is left is appended, or a front part of it and an error is returned.
What is counted is the whole file. -/
def ReadsOut (c : Cursor UInt8) (before : Bytes) (result : Except ε UInt64) (after : Bytes)
    (c' : Cursor UInt8) : Prop :=
  ((∃ k, result = .ok k ∧ k.toNat = c.cells.length) ∧ after = before ++ c.rest ∧
      c' = c.moveTo c.cells.length) ∨
    ((∃ e, result = .error e) ∧ (∃ n, after = before ++ c.rest.take n) ∧ c'.cells = c.cells)

/-- The text becomes the file, or stays as it was. -/
def ReadsText (c : Cursor UInt8) (before : String) (result : Except ε UInt64) (after : String)
    (c' : Cursor UInt8) : Prop :=
  ((∃ k, result = .ok k ∧ k.toNat = c.cells.length) ∧ strBytes after = c.cells ∧
      c' = c.moveTo c.cells.length) ∨
    ((∃ e, result = .error e) ∧ after = before ∧ c'.cells = c.cells)

/-- The whole buffer is written, or a front part of it and an error is returned. -/
def WritesOut (c : Cursor UInt8) (buf : Bytes) (result : Except ε Unit) (c' : Cursor UInt8) :
    Prop :=
  (result = .ok () ∧ c' = c.put buf) ∨
    ((∃ e, result = .error e) ∧ ∃ n ≤ buf.length, c' = c.put (buf.take n))

end Moves

/-! ## One call -/

section Calls

variable {E : Environment Call Reply} {contents : E.State → Bytes} {fill : Option UInt8}
  {build : Build} {file : File} {c : Cursor UInt8} {H : Halt → Prop}

/-- A call that leaves the contents, before a program that goes on from there. -/
theorem ServesFile.kept_call {α : Type} {Q : α → E.State → Prop} {inner : Ext4File}
    (hE : ServesFile E contents fill) {q : Call} (hq : LeavesContents q) {k : Reply q → Sys α}
    (hk : ∀ r, Triple E (Shows contents inner c) (k r) Q H) :
    Triple E (Shows contents inner c) (.call q k) Q H := by
  refine .call (fun _ => Shows contents inner c) (fun s r t hs hstep => ?_) hk
  exact ⟨(hE.kept hq hstep).trans hs.cells, hs.pos, hs.size⟩

theorem read_triple (hE : ServesFile E contents fill) (buf : Bytes)
    (hbuf : buf.length < 2 ^ 64) :
    Triple E (Shows contents file.inner c) (file.read buf)
      (fun r t => ∃ c', Reads c buf r.1 r.2.1 c' ∧ Shows contents r.2.2.inner c' t) H := by
  refine .call (fun r t => ∃ n ≤ c.rest.length, n ≤ buf.length ∧ n = r.2.2.2.toNat ∧
      r.2.2.1.val = c.peek n ++ buf.drop n ∧ Shows contents r.2.1 (c.skip n) t ∧
      (r.1 = 0 → buf ≠ [] → c.rest ≠ [] → n ≠ 0)) ?_ ?_
  · rintro s ⟨code, inner, out, count⟩ t hs hstep
    obtain ⟨hcount, hpos, hsame, hout⟩ := hE.read hstep
    rw [hs.cells, hs.pos] at hout
    have hsize : count.toNat ≤ buf.length := by
      have hle := UInt64.le_iff_toNat_le.mp hcount
      rwa [toNat_len hbuf] at hle
    -- the buffer keeps its length, so the bytes that were counted are there
    have hrest : count.toNat ≤ c.rest.length := by
      have hlen := congrArg List.length hout
      rw [out.property, List.length_append, List.length_drop, window, List.length_take] at hlen
      rw [Cursor.rest]
      omega
    refine ⟨count.toNat, hrest, hsize, rfl, hout, ⟨?_, ?_, ?_⟩, ?_⟩
    · rw [hsame, hs.cells, Cursor.skip_cells]
    · rw [hpos, hs.pos, Cursor.skip_pos hrest]
    · rw [hE.readSize hstep, hsame, hs.cells, Cursor.skip_cells]
    · rintro rfl hne hleft hzero
      have hlt : file.inner.fpos.toNat < (contents s).length := by
        have := List.length_pos_iff.mpr hleft
        rw [Cursor.length_rest] at this
        rw [hs.cells, hs.pos]
        omega
      have hroom : 0 < len buf := by
        rw [UInt64.lt_iff_toNat_lt, toNat_len hbuf]
        exact List.length_pos_iff.mpr hne
      have hsome := UInt64.lt_iff_toNat_lt.mp (hE.progress hstep hroom hlt)
      exact absurd hzero (Nat.ne_of_gt hsome)
  · rintro ⟨code, inner, out, count⟩
    refine .done ?_
    rintro t ⟨n, hrest, hle, hn, hout, hshows, hsome⟩
    refine ⟨c.skip n, ⟨n, hrest, hle, hout, rfl, ?_⟩, hshows⟩
    intro k hk
    obtain ⟨hcode, rfl⟩ := checkErrno_map_eq_ok.mp hk
    exact ⟨hn.symm, hsome hcode⟩

theorem write_triple (hE : ServesFile E contents fill) (buf : Bytes) (hbuf : buf.length < 2 ^ 64) :
    Triple E (Shows contents file.inner c) (file.write buf)
      (fun r t => ∃ c', Writes c buf r.1 c' ∧ Shows contents r.2.inner c' t) H := by
  refine .call (fun r t => r.2.2.toNat ≤ buf.length ∧
      Shows contents r.2.1 (c.put (buf.take r.2.2.toNat)) t) ?_ ?_
  · rintro s ⟨code, inner, count⟩ t hs hstep
    obtain ⟨hcount, hpos, hbytes⟩ := hE.write hstep
    have hsize : count.toNat ≤ buf.length := by
      have hle := UInt64.le_iff_toNat_le.mp hcount
      rwa [toNat_len hbuf] at hle
    have hcells : contents t = (c.put (buf.take count.toNat)).cells := by
      rw [hbytes, hs.cells, hs.pos, overwrite_eq c.pos_le, Cursor.put_cells]
    refine ⟨hsize, hcells, ?_, ?_⟩
    · rw [hpos, hs.pos, Cursor.put_pos, List.length_take, Nat.min_eq_left hsize]
    · rw [hE.writeSize hstep, hcells]
  · rintro ⟨code, inner, count⟩
    refine .done ?_
    rintro t ⟨hsize, hshows⟩
    refine ⟨_, ⟨count.toNat, hsize, rfl, ?_⟩, hshows⟩
    intro k hk
    obtain ⟨rfl, rfl⟩ := checkErrno_map_eq_ok.mp hk
    rfl

/-- The place lwext4 goes to is the place the cursor goes to. -/
theorem placed_eq {inner : Ext4File} (hsize : inner.fsize.toNat = c.cells.length) (target : ℤ) :
    (placed inner target).map Int.toNat = placeIn c target := by
  rw [placed, placeIn, hsize]
  split <;> rfl

theorem fseekTarget_eq {inner : Ext4File} {s : E.State} (hs : Shows contents inner c s)
    (pos : SeekFrom) :
    (fseekTarget inner pos.toRaw.1.toInt pos.toRaw.2).map Int.toNat = seekTarget c pos := by
  cases pos with
  | start n => exact placed_eq hs.size _
  | current n =>
      show (placed inner (inner.fpos.toNat + n.toInt)).map Int.toNat = _
      rw [hs.pos]
      exact placed_eq hs.size _
  | fromEnd n =>
      show ((placed inner n.toInt).map fun d => (inner.fsize.toNat : ℤ) - d).map Int.toNat =
        (placeIn c n.toInt).map fun d => c.cells.length - d
      rw [← placed_eq hs.size, Option.map_map, Option.map_map, hs.size]
      cases hplace : placed inner n.toInt with
      | none => rfl
      | some d =>
          unfold placed at hplace
          split_ifs at hplace with hin
          cases hplace
          simp only [Option.map_some, Function.comp_apply, Option.some_inj]
          omega

theorem seekTarget_le {pos : SeekFrom} {p : ℕ} (h : seekTarget c pos = some p) :
    p ≤ c.cells.length := by
  have hplace : ∀ {target : ℤ} {q : ℕ}, placeIn c target = some q → q ≤ c.cells.length := by
    intro target q hq
    unfold placeIn at hq
    split_ifs at hq with hin
    cases hq
    omega
  cases pos with
  | start n => exact hplace h
  | current n => exact hplace h
  | fromEnd n =>
      obtain ⟨d, -, rfl⟩ := Option.map_eq_some_iff.mp h
      exact Nat.sub_le _ _

/-- What `ext4_fseek` does with what it is handed. -/
theorem fseek_step (hE : ServesFile E contents fill) {inner inner' : Ext4File} {pos : SeekFrom}
    {ret : Int32} {s t : E.State} (hs : Shows contents inner c s)
    (hstep : E.step s (.ext4Fseek inner pos.toRaw.1 pos.toRaw.2) (ret, inner') t) :
    match seekTarget c pos with
    | some p => ret = 0 ∧ Shows contents inner' (c.moveTo p) t
    | none => ret ≠ 0 ∧ Shows contents inner' c t := by
  have hsame : contents t = c.cells :=
    (hE.kept (c := .ext4Fseek _ _ _) trivial hstep).trans hs.cells
  have hsize : inner'.fsize.toNat = c.cells.length :=
    (congrArg UInt64.toNat (hE.seekSize hstep)).trans hs.size
  have htarget := fseekTarget_eq hs pos
  cases hraw : fseekTarget inner pos.toRaw.1.toInt pos.toRaw.2 with
  | none =>
      obtain ⟨rfl, hpos⟩ := hE.refused hraw hstep
      rw [hraw, Option.map_none] at htarget
      rw [← htarget]
      exact ⟨by decide, hsame, (congrArg UInt64.toNat hpos).trans hs.pos, hsize⟩
  | some target =>
      obtain ⟨rfl, hpos⟩ := hE.accepted hraw hstep
      rw [hraw, Option.map_some] at htarget
      have hle := seekTarget_le htarget.symm
      rw [← htarget]
      refine ⟨rfl, hsame, ?_, hsize⟩
      rw [Cursor.moveTo_pos hle]
      omega

theorem seek_triple (hE : ServesFile E contents fill) (pos : SeekFrom) :
    Triple E (Shows contents file.inner c) (file.seek pos)
      (fun r t => ∃ c', Seeks c pos r.1 c' ∧ Shows contents r.2.inner c' t) H := by
  have hraw : ∀ s r t, Shows contents file.inner c s →
      E.step s (.ext4Fseek file.inner pos.toRaw.1 pos.toRaw.2) r t → _ :=
    fun s r t hs hstep => fseek_step hE hs hstep
  cases htarget : seekTarget c pos with
  | none =>
      simp only [htarget] at hraw
      refine .call (fun r t => r.1 ≠ 0 ∧ Shows contents r.2 c t) hraw ?_
      rintro ⟨ret, inner⟩
      refine .of_and fun hret => ?_
      dsimp only [Prog.bind, Prog.pure_eq]
      rw [checkErrno_of_ne hret]
      refine .done fun t hs => ⟨c, ?_, hs⟩
      rw [Seeks, htarget]
      exact ⟨⟨_, rfl⟩, rfl⟩
  | some p =>
      simp only [htarget] at hraw
      refine .call (fun r t => r.1 = 0 ∧ Shows contents r.2 (c.moveTo p) t) hraw ?_
      rintro ⟨ret, inner⟩
      refine .of_and fun hret => ?_
      dsimp only at hret
      subst hret
      refine .call (fun place t => place = inner.fpos ∧ Shows contents inner (c.moveTo p) t) ?_ ?_
      · intro s place t hs hstep
        exact ⟨hE.tell hstep, (hE.kept (c := .ext4Ftell _) trivial hstep).trans hs.cells, hs.pos,
          hs.size⟩
      · intro place
        refine .done ?_
        rintro t ⟨rfl, hs⟩
        refine ⟨_, ?_, hs⟩
        rw [Seeks, htarget]
        refine ⟨⟨_, rfl, ?_⟩, rfl⟩
        rw [hs.pos, Cursor.moveTo_pos (seekTarget_le htarget)]

theorem truncate_triple (hE : ServesFile E contents fill) (size : UInt64) :
    Triple E (Shows contents file.inner c) (file.truncate size)
      (fun r t => ∃ c', Truncates fill c size r.1 c' ∧ Shows contents r.2.inner c' t) H := by
  refine .call (fun r t => ∃ c', Truncates fill c size (checkErrno r.1) c' ∧
    Shows contents r.2 c' t) ?_ fun r => .done fun _ hs => hs
  rintro s ⟨code, inner⟩ t hs hstep
  by_cases hcode : code = 0
  · subst hcode
    obtain ⟨hcells, hpos, hsize⟩ := hE.truncated hstep
    rw [hs.cells] at hcells
    refine ⟨c.resize fill size.toNat, .inl ⟨rfl, rfl⟩, hcells, ?_, ?_⟩
    · rw [hpos, hs.pos]
      rfl
    · rw [hsize, hcells]
      rfl
  · obtain ⟨hkept, hpos, hsize⟩ := hE.truncateFailed hcode hstep
    have hle : inner.fpos.toNat ≤ (contents t).length := by
      rw [← hsize]
      exact UInt64.le_iff_toNat_le.mp hpos
    rw [hs.cells] at hkept
    refine ⟨cursorAt (contents t) inner hle, .inr ⟨?_, hkept⟩, rfl, rfl, hsize⟩
    rw [checkErrno_of_ne hcode]
    exact ⟨_, rfl⟩

theorem position_triple (hE : ServesFile E contents fill) :
    Triple E (Shows contents file.inner c) file.position
      (fun n t => n.toNat = c.pos ∧ Shows contents file.inner c t) H := by
  refine .call (fun n t => n = file.inner.fpos ∧ Shows contents file.inner c t) ?_ fun n => ?_
  · intro s n t hs hstep
    exact ⟨hE.tell hstep, (hE.kept (c := .ext4Ftell _) trivial hstep).trans hs.cells, hs.pos,
      hs.size⟩
  · refine .done ?_
    rintro t ⟨rfl, hs⟩
    exact ⟨hs.pos, hs⟩

theorem size_triple (hE : ServesFile E contents fill) :
    Triple E (Shows contents file.inner c) file.size
      (fun n t => n.toNat = c.cells.length ∧ Shows contents file.inner c t) H := by
  refine .call (fun n t => n = file.inner.fsize ∧ Shows contents file.inner c t) ?_ fun n => ?_
  · intro s n t hs hstep
    exact ⟨hE.sizeOf hstep, (hE.kept (c := .ext4Fsize _) trivial hstep).trans hs.cells, hs.pos,
      hs.size⟩
  · refine .done ?_
    rintro t ⟨rfl, hs⟩
    exact ⟨hs.size, hs⟩

theorem sync_triple (hE : ServesFile E contents fill) :
    Triple E (Shows contents file.inner c) file.sync
      (fun r t => Shows contents r.2.inner c t) H :=
  hE.kept_call (q := .ext4CacheFlush _) trivial fun _ => .done fun _ hs => hs

/-- The size in the metadata is read through a second handle. -/
theorem sizeOfFile_triple (hE : ServesFile E contents fill) {inner : Ext4File} (fs : Ext4Fs)
    (path : String) :
    Triple E (Shows contents inner c) (fs.sizeOfFile path) (fun _ t => Shows contents inner c t)
      H := by
  refine .bind (Q := fun _ t => Shows contents inner c t) ?_ fun result => ?_
  · unfold File.openFile
    refine .run_except_bind (fun _ _ hs => hs) fun p _ => ?_
    have hread : OpenFlags.READ.toRaw &&& (O_CREAT ||| O_TRUNC) = 0 := by decide
    refine hE.kept_call (q := .ext4Fopen2 _ _ _) hread fun r => ?_
    exact .run_except_bind (fun _ _ hs => hs) fun _ _ => .done fun _ hs => hs
  · cases result with
    | error e => exact .done fun _ hs => hs
    | ok other =>
        refine hE.kept_call (q := .ext4Fsize _) trivial fun n => ?_
        exact hE.kept_call (q := .ext4Fclose _) trivial fun _ => .done fun _ hs => hs

theorem metadata_triple (hE : ServesFile E contents fill) :
    Triple E (Shows contents file.inner c) file.metadata
      (fun r t => Shows contents r.2.inner c t) H := by
  refine .bind (Q := fun _ t => Shows contents file.inner c t) ?_ fun _ => .done fun _ hs => hs
  unfold Ext4Fs.metadata
  refine .run_except_bind (fun _ _ hs => hs) fun p _ => ?_
  refine hE.kept_call (q := .ext4ModeGet _ _) trivial fun mode => ?_
  refine .run_except_bind (fun _ _ hs => hs) fun _ _ => ?_
  refine hE.kept_call (q := .ext4OwnerGet _ _ _) trivial fun owner => ?_
  refine hE.kept_call (q := .ext4AtimeGet _ _) trivial fun atime => ?_
  refine hE.kept_call (q := .ext4MtimeGet _ _) trivial fun mtime => ?_
  refine hE.kept_call (q := .ext4CtimeGet _ _) trivial fun ctime => ?_
  by_cases hregular : Ext4Fs.fileTypeOfMode mode.2 = .regularFile
  · simp only [hregular, if_true]
    exact .run_lift_bind (sizeOfFile_triple hE _ _) fun _ => .done fun _ hs => hs
  · simp only [hregular, if_false]
    exact .done fun _ hs => hs

end Calls

/-! ## Loops of calls -/

/-- Nothing came, and there was room for something. -/
theorem ReadsOut.nothing {ε : Type} {c : Cursor UInt8} {before : Bytes} {total : UInt64}
    (htotal : total.toNat = c.pos) (hrest : c.rest = []) :
    ReadsOut (ε := ε) c before (.ok total) before c := by
  have hend := Cursor.rest_eq_nil.mp hrest
  refine .inl ⟨⟨total, rfl, ?_⟩, by rw [hrest, List.append_nil], hend⟩
  rw [htotal, hend, Cursor.moveTo_pos (Nat.le_refl _)]
  rfl

/-- A part that was appended, before the rest. -/
theorem ReadsOut.append {ε : Type} {c c' : Cursor UInt8} {before after : Bytes} {n : ℕ}
    {result : Except ε UInt64} (hn : n ≤ c.rest.length)
    (h : ReadsOut (c.skip n) (before ++ c.peek n) result after c') :
    ReadsOut c before result after c' := by
  rcases h with ⟨hok, hafter, hc'⟩ | ⟨herr, ⟨m, hafter⟩, hcells⟩
  · refine .inl ⟨hok, ?_, hc'⟩
    rw [hafter, List.append_assoc, Cursor.peek_append_rest hn]
  · refine .inr ⟨herr, ⟨n + m, ?_⟩, hcells⟩
    have htake : (c.peek n ++ (c.skip n).rest).take (n + m) =
        c.peek n ++ (c.skip n).rest.take m := by
      have hfront := @List.take_length_add_append _ (c.peek n) (c.skip n).rest m
      rwa [Cursor.length_peek hn] at hfront
    rw [hafter, List.append_assoc, ← htake, Cursor.peek_append_rest hn]

section Loops

variable {E : Environment Call Reply} {contents : E.State → Bytes} {fill : Option UInt8}
  {c : Cursor UInt8}

/-- The loop of `read_to_end`, by induction on the rounds: each but the last
takes something off the rest. -/
theorem readChunks_triple (hE : ServesFile E contents fill) {build : Build} {fuel : ℕ} :
    ∀ {file : File} {buf : ByteVec} {chunk : Bytes} {total : UInt64} {c : Cursor UInt8},
      chunk.length = 8192 → total.toNat = c.pos → c.cells.length < 2 ^ 64 →
      buf.bytes.length + c.rest.length ≤ isizeMax →
      Triple E (Shows contents file.inner c) (File.readChunks build fuel file buf chunk total)
        (fun r t => ∃ c', ReadsOut c buf.bytes r.1 r.2.1.bytes c' ∧
          Shows contents r.2.2.inner c' t)
        (fun why => why = .outOfFuel ∧ fuel ≤ c.rest.length) := by
  induction fuel with
  | zero =>
      intro file buf chunk total c _ _ _ _
      exact .halt fun _ _ => ⟨rfl, Nat.zero_le _⟩
  | succ fuel ih =>
      intro file buf chunk total c hchunk htotal hlen hroom
      refine .bind (read_triple hE chunk (by omega)) ?_
      rintro ⟨result, out, file'⟩
      refine .of_exists fun c' => .of_and ?_
      rintro ⟨n, hrest, hle, rfl, rfl, hcount⟩
      cases result with
      | error e =>
          refine .done fun t hs => ⟨c.skip n, .inr ⟨⟨e, rfl⟩, ⟨0, ?_⟩, rfl⟩, hs⟩
          rw [List.take_zero, List.append_nil]
      | ok k =>
          obtain ⟨hk, hsome⟩ := hcount k rfl
          by_cases hzero : k = 0
          · subst hzero
            have hchunk' : chunk ≠ [] := List.ne_nil_of_length_pos (by omega)
            have hnil : c.rest = [] := by
              by_contra hne
              exact hsome hchunk' hne hk.symm
            have hn : n = 0 := hk.symm
            subst hn
            rw [Cursor.skip_zero]
            exact .done fun t hs => ⟨c, .nothing htotal hnil, hs⟩
          · have hpos : k.toNat ≠ 0 := fun h => hzero (UInt64.toNat_inj.mp h)
            have hpeek : (c.peek n).length = n := Cursor.length_peek hrest
            have hslice : sliceRange (c.peek n ++ chunk.drop n) 0 k.toNat = .ok (c.peek n) := by
              have hbound : 0 ≤ k.toNat ∧ k.toNat ≤ (c.peek n ++ chunk.drop n).length := by
                rw [List.length_append, hpeek]
                omega
              rw [sliceRange, if_pos hbound, List.drop_zero, Nat.sub_zero, hk,
                List.take_left' hpeek]
            obtain ⟨longer, hextend, hlonger⟩ :=
              @ByteVec.extend_ok buf (c.peek n) (by omega)
            have hend : c.pos + n ≤ c.cells.length := by
              rw [← Cursor.skip_pos hrest]
              exact (c.skip n).pos_le
            have hsum : total.toNat + k.toNat < 2 ^ 64 := by omega
            have hnext : (UInt64.ofNat (total.toNat + k.toNat)).toNat = (c.skip n).pos := by
              rw [UInt64.toNat_ofNat', Nat.mod_eq_of_lt hsum, Cursor.skip_pos hrest]
              omega
            have hleft := Cursor.length_rest_skip hrest
            dsimp only
            rw [if_neg hzero]
            refine .ofOutcome_bind hslice (.ofOutcome_bind hextend
              (.ofOutcome_bind (Build.add64_of_lt hsum) ?_))
            have hrounds := @ih file' longer (c.peek n ++ chunk.drop n) _ (c.skip n)
              (by rw [List.length_append, hpeek, List.length_drop]; omega) hnext hlen
              (by rw [hlonger, List.length_append]; omega)
            rw [hlonger] at hrounds
            refine hrounds.mono (fun _ hs => hs) ?_ ?_
            · rintro r t ⟨c', hout, hs⟩
              exact ⟨c', hout.append hrest, hs⟩
            · rintro why ⟨hwhy, hfuel⟩
              exact ⟨hwhy, by omega⟩

/-- A vector has room for the file. -/
def RoomFor (c : Cursor UInt8) (bytes : Bytes) : Prop := bytes.length + c.cells.length ≤ isizeMax

/-- Why a whole file is not read: no room, or too few rounds. -/
def ReadHalts (fuel : ℕ) (c : Cursor UInt8) (bytes : Bytes) (why : Halt) : Prop :=
  (why = .panic ∧ ¬ RoomFor c bytes) ∨ (why = .outOfFuel ∧ fuel ≤ c.cells.length)

theorem seekTarget_start : seekTarget c (.start 0) = some 0 := by
  have hplace : (0 : ℤ) ≤ 0 ∧ (0 : ℤ) ≤ c.cells.length := ⟨le_rfl, Int.natCast_nonneg _⟩
  rw [seekTarget, placeIn]
  exact if_pos hplace

theorem readToEnd_triple (hE : ServesFile E contents fill) {build : Build} {fuel : ℕ}
    {file : File} (buf : ByteVec) :
    Triple E (Shows contents file.inner c) (file.readToEnd build fuel buf)
      (fun r t => ∃ c', ReadsOut (c.moveTo 0) buf.bytes r.1 r.2.1.bytes c' ∧
        Shows contents r.2.2.inner c' t)
      (ReadHalts fuel c buf.bytes) := by
  refine .bind (size_triple hE) fun size => .of_and fun hsize => ?_
  by_cases hroom : RoomFor c buf.bytes
  · have hreserve : buf.reserve size = .ok () := by
      rw [ByteVec.reserve, hsize]
      exact if_pos hroom
    refine .ofOutcome_bind hreserve (.bind (seek_triple hE _) ?_)
    rintro ⟨result, file'⟩
    refine .of_exists fun c' => .of_and fun hseek => ?_
    dsimp only at hseek
    rw [Seeks, seekTarget_start] at hseek
    obtain ⟨⟨k, rfl, -⟩, rfl⟩ := hseek
    have hlen : c.cells.length ≤ isizeMax := (Nat.le_add_left _ _).trans hroom
    have hstart : (0 : UInt64).toNat = (c.moveTo 0).pos := (Nat.zero_min _).symm
    refine (readChunks_triple hE List.length_replicate hstart ?_ ?_).mono (fun _ hs => hs)
      (fun _ _ hr => hr) ?_
    · rw [Cursor.moveTo_cells]
      exact hlen.trans_lt (by decide)
    · rw [Cursor.rest_moveTo_zero]
      exact hroom
    · rintro why ⟨hwhy, hfuel⟩
      rw [Cursor.rest_moveTo_zero] at hfuel
      exact .inr ⟨hwhy, hfuel⟩
  · have hreserve : buf.reserve size = .error .panic := by
      rw [ByteVec.reserve, hsize]
      exact if_neg hroom
    rw [hreserve]
    exact .halt fun _ _ => .inl ⟨rfl, hroom⟩

theorem readToString_triple (hE : ServesFile E contents fill) {build : Build} {fuel : ℕ}
    {file : File} (text : String) :
    Triple E (Shows contents file.inner c) (file.readToString build fuel text)
      (fun r t => ∃ c', ReadsText c text r.1 r.2.1 c' ∧ Shows contents r.2.2.inner c' t)
      (ReadHalts fuel c []) := by
  refine .bind (readToEnd_triple hE _) ?_
  rintro ⟨result, bytes, file'⟩
  refine .of_exists fun c' => .of_and ?_
  rintro (⟨⟨k, rfl, hk⟩, hbytes, rfl⟩ | ⟨⟨e, rfl⟩, -, hcells⟩)
  · rw [Cursor.rest_moveTo_zero, List.nil_append] at hbytes
    dsimp only at hbytes ⊢
    cases hutf : fromUtf8 bytes.bytes with
    | some after =>
        have hafter := strBytes_of_fromUtf8 hutf
        exact .done fun t hs => ⟨_, .inl ⟨⟨k, rfl, hk⟩, hafter.trans hbytes, rfl⟩, hs⟩
    | none => exact .done fun t hs => ⟨c.moveTo c.cells.length, .inr ⟨⟨_, rfl⟩, rfl, rfl⟩, hs⟩
  · exact .done fun t hs => ⟨_, .inr ⟨⟨e, rfl⟩, rfl, hcells⟩, hs⟩

/-- A part that was written, before the rest. -/
theorem WritesOut.append {ε : Type} {c c' : Cursor UInt8} {front rest : Bytes}
    {result : Except ε Unit} (h : WritesOut (c.put front) rest result c') :
    WritesOut c (front ++ rest) result c' := by
  rcases h with ⟨rfl, rfl⟩ | ⟨herr, n, hn, rfl⟩
  · exact .inl ⟨rfl, Cursor.put_append _ _⟩
  · refine .inr ⟨herr, front.length + n, ?_, ?_⟩
    · rw [List.length_append]
      omega
    · rw [Cursor.put_append, List.take_length_add_append]

/-- The loop of `write_all`, by induction on the rounds: each takes a front
part off what is left. -/
theorem writeRest_triple (hE : ServesFile E contents fill) {build : Build} {buf : Bytes}
    (hbuf : buf.length < 2 ^ 64) {fuel : ℕ} :
    ∀ {file : File} {written : UInt64} {c : Cursor UInt8}, written.toNat ≤ buf.length →
      Triple E (Shows contents file.inner c) (File.writeRest build buf fuel file written)
        (fun r t => ∃ c', WritesOut c (buf.drop written.toNat) r.1 c' ∧
          Shows contents r.2.inner c' t)
        (fun why => why = .outOfFuel ∧ fuel + written.toNat < buf.length) := by
  induction fuel with
  | zero =>
      intro file written c hle
      by_cases hlt : written.toNat < buf.length
      · have hcond : written < len buf := by
          rwa [UInt64.lt_iff_toNat_lt, toNat_len hbuf]
        rw [File.writeRest.eq_def]
        simp only [if_pos hcond]
        exact .halt fun _ _ => ⟨rfl, by omega⟩
      · rw [writeRest_end hbuf (Nat.le_of_not_lt hlt), List.drop_eq_nil_of_le (by omega)]
        exact .done fun t hs => ⟨c, .inl ⟨rfl, Cursor.put_nil.symm⟩, hs⟩
  | succ fuel ih =>
      intro file written c hle
      by_cases hlt : written.toNat < buf.length
      · have hcond : written < len buf := by
          rwa [UInt64.lt_iff_toNat_lt, toNat_len hbuf]
        rw [File.writeRest.eq_def]
        simp only [if_pos hcond, sliceRange_drop hlt.le]
        have hlength : (buf.drop written.toNat).length = buf.length - written.toNat :=
          List.length_drop
        refine .ofOutcome_bind rfl (.bind (write_triple hE (buf.drop written.toNat) (by omega)) ?_)
        rintro ⟨result, file'⟩
        refine .of_exists fun c' => .of_and ?_
        rintro ⟨n, hn, rfl, hcount⟩
        dsimp only at hcount ⊢
        cases result with
        | error e =>
            refine .done fun t hs => ⟨_, .inr ⟨⟨e, rfl⟩, n, hn, rfl⟩, hs⟩
        | ok k =>
            have hk := hcount k rfl
            dsimp only
            by_cases hzero : k = 0
            · rw [if_pos hzero]
              exact .done fun t hs => ⟨_, .inr ⟨⟨_, rfl⟩, n, hn, rfl⟩, hs⟩
            · have hpos : k.toNat ≠ 0 := fun h => hzero (UInt64.toNat_inj.mp h)
              have hsum : written.toNat + k.toNat < 2 ^ 64 := by omega
              have hnext : (UInt64.ofNat (written.toNat + k.toNat)).toNat = written.toNat + n := by
                rw [UInt64.toNat_ofNat', Nat.mod_eq_of_lt hsum, hk]
              rw [if_neg hzero]
              refine .ofOutcome_bind (Build.add64_of_lt hsum) ?_
              refine (ih (by omega)).mono (fun _ hs => hs) ?_ ?_
              · rintro r t ⟨c', hout, hs⟩
                rw [hnext, ← List.drop_drop] at hout
                have hsplit := hout.append
                rw [List.take_append_drop] at hsplit
                exact ⟨c', hsplit, hs⟩
              · rintro why ⟨hwhy, hfuel⟩
                rw [hnext] at hfuel
                exact ⟨hwhy, by omega⟩
      · rw [writeRest_end hbuf (Nat.le_of_not_lt hlt), List.drop_eq_nil_of_le (by omega)]
        exact .done fun t hs => ⟨c, .inl ⟨rfl, Cursor.put_nil.symm⟩, hs⟩

end Loops

/-! ## The operations -/

/-- The buffer of an operation is a slice. -/
def Sized : FileOp → Prop
  | .read buf | .write buf | .ioRead buf | .ioWrite buf | .writeAll _ buf =>
      buf.length ≤ isizeMax
  | _ => True

/-- What the machine may answer to an operation, and where it goes. -/
def Allows (fill : Option UInt8) (c : Cursor UInt8) (op : FileOp) (result : ApiResult)
    (c' : Cursor UInt8) : Prop :=
  match op with
  | .read buf => ∃ (r : Except Error UInt64) (out : Bytes), Reads c buf r out c' ∧
      result = r.map (.filled · out)
  | .ioRead buf => ∃ (r : Except IoError UInt64) (out : Bytes), Reads c buf r out c' ∧
      result = (ofIo r).map (.filled · out)
  | .write buf => ∃ r : Except Error UInt64, Writes c buf r c' ∧ result = r.map .count
  | .ioWrite buf => ∃ r : Except IoError UInt64, Writes c buf r c' ∧ result = (ofIo r).map .count
  | .seek pos => ∃ r : Except Error UInt64, Seeks c pos r c' ∧ result = r.map .count
  | .ioSeek pos => ∃ r : Except IoError UInt64, Seeks c pos r c' ∧ result = (ofIo r).map .count
  | .position => (∃ n, n.toNat = c.pos ∧ result = .ok (.count n)) ∧ c' = c
  | .size => (∃ n, n.toNat = c.cells.length ∧ result = .ok (.count n)) ∧ c' = c
  | .truncate size => ∃ r : Except Error Unit, Truncates fill c size r c' ∧
      result = r.map fun _ => .unit
  | .flush | .ioFlush => result = .ok .unit ∧ c' = c
  | .sync | .metadata => c' = c
  | .readToEnd _ buf => ∃ (r : Except Error UInt64) (out : Bytes),
      ReadsOut (c.moveTo 0) buf.bytes r out c' ∧ result = r.map (.filled · out)
  | .readToString _ text => ∃ (r : Except Error UInt64) (after : String),
      ReadsText c text r after c' ∧ result = r.map (.counted · after)
  | .writeAll _ buf => ∃ r : Except Error Unit, WritesOut c buf r c' ∧ result = r.map fun _ => .unit

/-- Why an operation does not return: its loop was given too few rounds, or
its vector cannot hold the file. -/
def MayHalt (c : Cursor UInt8) : FileOp → Halt → Prop
  | .readToEnd fuel buf, why => ReadHalts fuel c buf.bytes why
  | .readToString fuel _, why => ReadHalts fuel c [] why
  | .writeAll fuel buf, why => why = .outOfFuel ∧ fuel < buf.length
  | _, _ => False

section Operations

variable {E : Environment Call Reply} {contents : E.State → Bytes} {fill : Option UInt8}
  {build : Build} {c : Cursor UInt8} {H : Halt → Prop}

/-- The traits of `std::io` return what the methods return. -/
theorem toIo_eq_ok {α : Type} {r : Except Error α} {a : α} : File.toIo r = .ok a ↔ r = .ok a := by
  cases r with
  | ok b => exact ⟨fun h => congrArg _ (Except.ok.inj h), fun h => congrArg _ (Except.ok.inj h)⟩
  | error e => exact ⟨nofun, nofun⟩

theorem Reads.toIo {buf out : Bytes} {r : Except Error UInt64} {c' : Cursor UInt8}
    (h : Reads c buf r out c') : Reads c buf (File.toIo r) out c' := by
  obtain ⟨n, hrest, hle, hout, hc', hcount⟩ := h
  exact ⟨n, hrest, hle, hout, hc', fun k hk => hcount k (toIo_eq_ok.mp hk)⟩

theorem Writes.toIo {buf : Bytes} {r : Except Error UInt64} {c' : Cursor UInt8}
    (h : Writes c buf r c') : Writes c buf (File.toIo r) c' := by
  obtain ⟨n, hle, hc', hcount⟩ := h
  exact ⟨n, hle, hc', fun k hk => hcount k (toIo_eq_ok.mp hk)⟩

theorem Seeks.toIo {pos : SeekFrom} {r : Except Error UInt64} {c' : Cursor UInt8}
    (h : Seeks c pos r c') : Seeks c pos (File.toIo r) c' := by
  unfold Seeks at h ⊢
  cases htarget : seekTarget c pos with
  | none =>
      simp only [htarget] at h ⊢
      obtain ⟨⟨e, rfl⟩, hc'⟩ := h
      exact ⟨⟨_, rfl⟩, hc'⟩
  | some p =>
      simp only [htarget] at h ⊢
      obtain ⟨⟨k, hk, hp⟩, hc'⟩ := h
      exact ⟨⟨k, toIo_eq_ok.mpr hk, hp⟩, hc'⟩

theorem ioRead_triple (hE : ServesFile E contents fill) {file : File} (buf : Bytes)
    (hbuf : buf.length < 2 ^ 64) :
    Triple E (Shows contents file.inner c) (file.ioRead buf)
      (fun r t => ∃ c', Reads c buf r.1 r.2.1 c' ∧ Shows contents r.2.2.inner c' t) H := by
  refine .bind (read_triple hE buf hbuf) fun r => .done ?_
  rintro t ⟨c', h, hs⟩
  exact ⟨c', h.toIo, hs⟩

theorem ioWrite_triple (hE : ServesFile E contents fill) {file : File} (buf : Bytes)
    (hbuf : buf.length < 2 ^ 64) :
    Triple E (Shows contents file.inner c) (file.ioWrite buf)
      (fun r t => ∃ c', Writes c buf r.1 c' ∧ Shows contents r.2.inner c' t) H := by
  refine .bind (write_triple hE buf hbuf) fun r => .done ?_
  rintro t ⟨c', h, hs⟩
  exact ⟨c', h.toIo, hs⟩

theorem ioSeek_triple (hE : ServesFile E contents fill) {file : File} (pos : SeekFrom) :
    Triple E (Shows contents file.inner c) (file.ioSeek pos)
      (fun r t => ∃ c', Seeks c pos r.1 c' ∧ Shows contents r.2.inner c' t) H := by
  refine .bind (seek_triple hE pos) fun r => .done ?_
  rintro t ⟨c', h, hs⟩
  exact ⟨c', h.toIo, hs⟩

/-- What is left to show of an operation is what its value says of the move. -/
theorem triple_answered {α : Type} {P : E.State → Prop} {p : Sys α} {f : α → ApiResult × File}
    {M : α → Cursor UInt8 → Prop} {op : FileOp} {H : Halt → Prop} {inner : α → Ext4File}
    (hp : Triple E P p (fun a t => ∃ c', M a c' ∧ Shows contents (inner a) c' t) H)
    (hf : ∀ a c', M a c' → Allows fill c op (f a).1 c')
    (hinner : ∀ a, (f a).2.inner = inner a) :
    Triple E P (p >>= fun a => .done (f a))
      (fun r t => ∃ c', Allows fill c op r.1 c' ∧ Shows contents r.2.inner c' t) H := by
  refine .bind hp fun a => .done ?_
  rintro t ⟨c', h, hs⟩
  exact ⟨c', hf a c' h, (hinner a).symm ▸ hs⟩

/-- Every operation is a move of the machine. -/
theorem perform_triple (hE : ServesFile E contents fill) {op : FileOp} (hop : Sized op)
    (file : File) :
    Triple E (Shows contents file.inner c) (op.perform build file)
      (fun r t => ∃ c', Allows fill c op r.1 c' ∧ Shows contents r.2.inner c' t)
      (MayHalt c op) := by
  have hslice : ∀ {n : ℕ}, n ≤ isizeMax → n < 2 ^ 64 := fun h => h.trans_lt (by decide)
  cases op with
  | read buf =>
      exact triple_answered (read_triple hE buf (hslice hop)) (fun _ _ h => ⟨_, _, h, rfl⟩)
        fun _ => rfl
  | ioRead buf =>
      exact triple_answered (ioRead_triple hE buf (hslice hop)) (fun _ _ h => ⟨_, _, h, rfl⟩)
        fun _ => rfl
  | write buf =>
      exact triple_answered (write_triple hE buf (hslice hop)) (fun _ _ h => ⟨_, h, rfl⟩)
        fun _ => rfl
  | ioWrite buf =>
      exact triple_answered (ioWrite_triple hE buf (hslice hop)) (fun _ _ h => ⟨_, h, rfl⟩)
        fun _ => rfl
  | seek pos =>
      exact triple_answered (seek_triple hE pos) (fun _ _ h => ⟨_, h, rfl⟩) fun _ => rfl
  | ioSeek pos =>
      exact triple_answered (ioSeek_triple hE pos) (fun _ _ h => ⟨_, h, rfl⟩) fun _ => rfl
  | truncate size =>
      exact triple_answered (truncate_triple hE size) (fun _ _ h => ⟨_, h, rfl⟩) fun _ => rfl
  | position =>
      refine .bind (position_triple hE) fun n => .done ?_
      rintro t ⟨hn, hs⟩
      exact ⟨c, ⟨⟨n, hn, rfl⟩, rfl⟩, hs⟩
  | size =>
      refine .bind (size_triple hE) fun n => .done ?_
      rintro t ⟨hn, hs⟩
      exact ⟨c, ⟨⟨n, hn, rfl⟩, rfl⟩, hs⟩
  | flush => exact .done fun t hs => ⟨c, ⟨rfl, rfl⟩, hs⟩
  | ioFlush => exact .done fun t hs => ⟨c, ⟨rfl, rfl⟩, hs⟩
  | sync => exact .bind (sync_triple hE) fun r => .done fun t hs => ⟨c, rfl, hs⟩
  | metadata => exact .bind (metadata_triple hE) fun r => .done fun t hs => ⟨c, rfl, hs⟩
  | readToEnd fuel buf =>
      exact triple_answered (readToEnd_triple hE buf) (fun _ _ h => ⟨_, _, h, rfl⟩) fun _ => rfl
  | readToString fuel text =>
      exact triple_answered (readToString_triple hE text) (fun _ _ h => ⟨_, _, h, rfl⟩) fun _ => rfl
  | writeAll fuel buf =>
      have hstart : (0 : UInt64).toNat ≤ buf.length := Nat.zero_le _
      refine triple_answered (writeRest_triple hE (hslice hop) hstart) (fun _ _ h => ⟨_, h, rfl⟩)
        fun _ => rfl

end Operations

/-! ## Runs -/

/-- An operation that was performed on a file, and how it ended. -/
structure FileUse where
  op : FileOp
  outcome : Outcome ApiResult

/-- One operation after another on an open file. One that does not return is
the last. -/
inductive FileUse.Step (build : Build) (E : Environment Call Reply) :
    Option File × E.State → FileUse → Option File × E.State → Prop
  | returned {file file' : File} {s t : E.State} {op : FileOp} {tr : List SysEvent}
      {result : ApiResult} : Sized op →
      Exec E (op.perform build file) s tr (.ok (result, file')) t →
      FileUse.Step build E (some file, s) ⟨op, .ok result⟩ (some file', t)
  | halted {file : File} {s t : E.State} {op : FileOp} {tr : List SysEvent} {why : Halt} :
      Sized op → Exec E (op.perform build file) s tr (.error why) t →
      FileUse.Step build E (some file, s) ⟨op, .error why⟩ (none, t)

/-- The same of the machine. -/
inductive CursorStep (fill : Option UInt8) :
    Option (Cursor UInt8) → FileUse → Option (Cursor UInt8) → Prop
  | returned {c c' : Cursor UInt8} {op : FileOp} {result : ApiResult} :
      Allows fill c op result c' → CursorStep fill (some c) ⟨op, .ok result⟩ (some c')
  | halted {c : Cursor UInt8} {op : FileOp} {why : Halt} : MayHalt c op why →
      CursorStep fill (some c) ⟨op, .error why⟩ none

/-- The file and what lwext4 holds of it, as a state of the machine. -/
def Represents {S : Type} (contents : S → Bytes) : Option File × S → Option (Cursor UInt8) → Prop
  | (some file, s), some c => Shows contents file.inner c s
  | (none, _), none => True
  | _, _ => False

section Runs

variable {E : Environment Call Reply} {contents : E.State → Bytes} {fill : Option UInt8}
  {build : Build}

/-- The step lemma. -/
theorem fileUse_simulated (hE : ServesFile E contents fill) (a : Option File × E.State)
    (use : FileUse) (b : Option File × E.State) (c : Option (Cursor UInt8))
    (hc : Represents contents a c) (h : FileUse.Step build E a use b) :
    ∃ c', CursorStep fill c use c' ∧ Represents contents b c' := by
  cases h with
  | @returned file file' s t op tr result hop hrun =>
      cases c with
      | none => exact hc.elim
      | some c =>
          obtain ⟨c', hallows, hshows⟩ := (perform_triple hE hop file).returned hc hrun
          exact ⟨some c', .returned hallows, hshows⟩
  | @halted file s t op tr why hop hrun =>
      cases c with
      | none => exact hc.elim
      | some c => exact ⟨none, .halted ((perform_triple hE hop file).halted hc hrun), trivial⟩

/-- Any operations on an open file, one after another, with whatever they
return, are those of a cursor over its bytes. -/
theorem file_refines_cursor (hE : ServesFile E contents fill) {a b : Option File × E.State}
    {uses : List FileUse} (h : Runs (FileUse.Step build E) a uses b) {c : Option (Cursor UInt8)}
    (hc : Represents contents a c) :
    ∃ c', Runs (CursorStep fill) c uses c' ∧ Represents contents b c' :=
  h.simulated (fileUse_simulated hE) hc

end Runs

/-! ## A file that does this -/

/-- The state is the bytes of the file, which is never made longer by a truncation. -/
def storingLwext4 : Environment Call Reply where
  State := Bytes
  step s c r t :=
    match c, r with
    | .ext4Fread file buf size _, r =>
        r.2.2.2 ≤ size ∧ r.2.1.fpos.toNat = file.fpos.toNat + r.2.2.2.toNat ∧ t = s ∧
          r.2.2.1.val = window s file.fpos.toNat r.2.2.2.toNat ++ buf.drop r.2.2.2.toNat ∧
          r.2.1.fsize.toNat = s.length ∧
          (r.1 = (0 : Int32) → 0 < size → file.fpos.toNat < s.length → 0 < r.2.2.2)
    | .ext4Fwrite file buf size _, r =>
        r.2.2 ≤ size ∧ r.2.1.fpos.toNat = file.fpos.toNat + r.2.2.toNat ∧
          t = overwrite 0 s file.fpos.toNat (buf.take r.2.2.toNat) ∧ r.2.1.fsize.toNat = t.length
    | .ext4Fseek file offset origin, r => r = fseekReply file offset.toInt origin ∧ t = s
    | .ext4Ftell file, r => r = file.fpos ∧ t = s
    | .ext4Fsize file, r => r = file.fsize ∧ t = s
    | .ext4Ftruncate file size, r =>
        r.1 = (0 : Int32) ∧ t = Cursor.resized none s size.toNat ∧
          r.2.fpos.toNat = min file.fpos.toNat size.toNat ∧ r.2.fsize.toNat = t.length
    | _, _ => t = s

theorem storingLwext4_serves : ServesFile storingLwext4 id none where
  read h := ⟨h.1, h.2.1, h.2.2.1, h.2.2.2.1⟩
  write h := ⟨h.1, h.2.1, h.2.2.1⟩
  accepted htarget h := seekingLwext4_seeks.accepted (s := ()) (t := ()) htarget h.1
  refused htarget h := seekingLwext4_seeks.refused (s := ()) (t := ()) htarget h.1
  tell h := h.1
  progress h := h.2.2.2.2.2 rfl
  readSize h := h.2.2.2.2.1.trans (congrArg List.length h.2.2.1.symm)
  writeSize h := h.2.2.2
  seekSize {s t file file' offset origin ret} h := by
    have hreply : (ret, file') = fseekReply file offset.toInt origin := h.1
    unfold fseekReply at hreply
    split at hreply <;> (cases hreply; rfl)
  sizeOf h := h.1
  truncated h := ⟨h.2.1, h.2.2.1, h.2.2.2⟩
  truncateFailed hcode h := absurd h.1 hcode
  kept {s t c r} hc h := by
    cases c with
    | ext4Fseek file offset origin => exact h.2
    | ext4Ftell file => exact h.2
    | ext4Fsize file => exact h.2
    | ext4Fread file buf size rcnt => exact hc.elim
    | ext4Fwrite file buf size wcnt => exact hc.elim
    | ext4Ftruncate file size => exact hc.elim
    | _ => exact h

/-- The file of `twoByteFile`, which grows. -/
def grownFile (size pos : UInt64) : File :=
  ⟨⟨9, deviceNameOf 4, mountPointOf 4, false, true⟩, ⟨0, 12, 0, size, pos⟩, "log"⟩

/-- Its two bytes, and the second of them next. -/
def shortCursor : Cursor UInt8 := ⟨[1, 2], 1, by decide⟩

/-- Two bytes are written from there on, in two calls. -/
theorem grown_written : FileUse.Step .checked storingLwext4 (some (grownFile 2 1), [1, 2])
    ⟨.writeAll 2 [7, 8], .ok (.ok .unit)⟩ (some (grownFile 3 3), [1, 7, 8]) := by
  have hrun : Exec storingLwext4 ((grownFile 2 1).writeAll .checked 2 [7, 8]) [1, 2]
      [⟨.ext4Fwrite (grownFile 2 1).inner [7, 8] 2 0,
          ((0 : Int32), (grownFile 2 2).inner, (1 : UInt64))⟩,
        ⟨.ext4Fwrite (grownFile 2 2).inner [8] 1 0,
          ((0 : Int32), (grownFile 3 3).inner, (1 : UInt64))⟩]
      (.ok (.ok (), grownFile 3 3)) [1, 7, 8] :=
    .call (u := [1, 7]) ⟨by decide, by decide, by decide, by decide⟩
      (.call (u := [1, 7, 8]) ⟨by decide, by decide, by decide, by decide⟩ (.done _ _))
  have hsized : ([7, 8] : Bytes).length ≤ isizeMax := by decide
  exact .returned hsized (hrun.bind_done rfl)

/-- A seek to before the file fails. -/
theorem grown_run : Runs (FileUse.Step .checked storingLwext4) (some (grownFile 2 1), [1, 2])
    [⟨.writeAll 2 [7, 8], .ok (.ok .unit)⟩,
      ⟨.seek (.current (-9)), .ok (.error (.invalidArgument ""))⟩]
    (some (grownFile 3 3), [1, 7, 8]) := by
  have hseek : Exec storingLwext4 ((grownFile 3 3).seek (.current (-9))) [1, 7, 8]
      [⟨.ext4Fseek (grownFile 3 3).inner (-9) SEEK_CUR, (EINVAL, (grownFile 3 3).inner)⟩]
      (.ok (.error (.invalidArgument ""), grownFile 3 3)) [1, 7, 8] :=
    .call (u := [1, 7, 8])
      ⟨by change _ = fseekReply _ (-9 : Int64).toInt SEEK_CUR; decide, rfl⟩ (.done _ _)
  exact .cons grown_written (.single (.returned trivial (hseek.bind_done rfl)))

theorem file_refines_cursor_grown :
    ∃ c', Runs (CursorStep none) (some shortCursor)
        [⟨.writeAll 2 [7, 8], .ok (.ok .unit)⟩,
          ⟨.seek (.current (-9)), .ok (.error (.invalidArgument ""))⟩] c' ∧
      Represents id (some (grownFile 3 3), ([1, 7, 8] : Bytes)) c' := by
  have hshort : Represents id (some (grownFile 2 1), ([1, 2] : Bytes)) (some shortCursor) :=
    ⟨rfl, rfl, rfl⟩
  exact file_refines_cursor storingLwext4_serves grown_run hshort

end Ext4Lwext4.Metatheory
