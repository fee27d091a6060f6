import Ext4Lwext4.Metatheory.ByteAccounting

/-! # Reading a whole file

`read_to_end` seeks to the start and appends chunks until a read returns
nothing. The position, the counter and what has been appended go forward
together, so the bytes of the file are appended once and in order however
short the reads are. -/

namespace Ext4Lwext4.Metatheory

open Ext4Lwext4.Framework Ext4Lwext4.Model

/-- What is asked of lwext4 over a file with these bytes: `ext4_fsize` is how
many there are, which the room that is reserved depends on, a seek to the start
succeeds, and a read that does not fail returns bytes from the position on, at
least one where there is one. -/
structure ReadsFile (E : Environment Call Reply) (file : Bytes) : Prop where
  size {s t : E.State} {f : Ext4File} {n : UInt64} :
    E.step s (.ext4Fsize f) n t → n.toNat = file.length
  rewound {s t : E.State} {f f' : Ext4File} {code : Int32} :
    E.step s (.ext4Fseek f 0 SEEK_SET) (code, f') t → code = 0 ∧ f'.fpos = 0
  read {s t : E.State} {f f' : Ext4File} {buf : Bytes} {size rcnt count : UInt64}
    {out : Filled buf} : E.step s (.ext4Fread f buf size rcnt) ((0 : Int32), f', out, count) t →
    count.toNat ≤ min size.toNat (file.length - f.fpos.toNat) ∧
      out.val.take count.toNat = window file f.fpos.toNat count.toNat ∧
      f'.fpos.toNat = f.fpos.toNat + count.toNat ∧
      (0 < size.toNat → f.fpos.toNat < file.length → 0 < count.toNat)

def ReadFailed : SysEvent → Prop
  | ⟨.ext4Fread _ _ _ _, (code, _, _, _)⟩ => code ≠ 0
  | _ => False

/-- What became of a vector that `rest` was to be appended to, where `total`
is the size of the file: all of it, or a front part and an error. -/
structure ReadOut (rest : Bytes) (total : ℕ) (before : Bytes) (tr : List SysEvent)
    (result : Except Error UInt64) (after : Bytes) : Prop where
  complete : (∀ e ∈ tr, ¬ ReadFailed e) →
    (∃ n, result = .ok n ∧ n.toNat = total) ∧ after = before ++ rest
  cut : (∃ e ∈ tr, ReadFailed e) →
    (∃ e, result = .error e) ∧ ∃ k, after = before ++ rest.take k

variable {E : Environment Call Reply} {C : Bytes} {s t : E.State} {tr : List SysEvent}

/-- A call that is no failed read changes nothing about this. -/
theorem ReadOut.cons {rest : Bytes} {total : ℕ} {before after : Bytes}
    {result : Except Error UInt64} {e : SysEvent} (he : ¬ ReadFailed e)
    (h : ReadOut rest total before tr result after) :
    ReadOut rest total before (e :: tr) result after := by
  constructor
  · intro hnone
    exact h.complete fun e' he' => hnone e' (List.mem_cons_of_mem _ he')
  · rintro ⟨e', he', hfail⟩
    rcases List.mem_cons.mp he' with rfl | he'
    · exact absurd hfail he
    · exact h.cut ⟨e', he', hfail⟩

/-- A read of the front part of what is left, before the rest. -/
theorem ReadOut.append {front rest : Bytes} {total : ℕ} {before after : Bytes}
    {result : Except Error UInt64} (h : ReadOut rest total (before ++ front) tr result after) :
    ReadOut (front ++ rest) total before tr result after := by
  constructor
  · intro hnone
    obtain ⟨hok, hafter⟩ := h.complete hnone
    exact ⟨hok, by rw [hafter, List.append_assoc]⟩
  · intro hfail
    obtain ⟨herr, k, hafter⟩ := h.cut hfail
    refine ⟨herr, front.length + k, ?_⟩
    rw [hafter, List.append_assoc, List.take_length_add_append]

/-! ## The loop -/

theorem readChunks_round {build : Build} {fuel : ℕ} {file : File} {buf : ByteVec} {chunk : Bytes}
    {total : UInt64} : File.readChunks build (fuel + 1) file buf chunk total =
      .call (.ext4Fread file.inner chunk (len chunk) 0) fun r =>
        match checkErrno r.1 with
        | .error e => .done (.error e, buf, { file with inner := r.2.1 })
        | .ok () =>
            if r.2.2.2 = 0 then .done (.ok total, buf, { file with inner := r.2.1 })
            else Prog.ofOutcome (sliceRange r.2.2.1.val 0 r.2.2.2.toNat) >>= fun part =>
              Prog.ofOutcome (buf.extend part) >>= fun buf =>
                Prog.ofOutcome (build.add64 total r.2.2.2) >>= fun total =>
                  File.readChunks build fuel { file with inner := r.2.1 } buf r.2.2.1.val
                    total := by
  rw [File.readChunks]
  show Prog.call _ _ = _
  congr 1
  funext r
  obtain ⟨code, inner, out, count⟩ := r
  dsimp only [Prog.bind, Prog.pure_eq]
  cases checkErrno code with
  | error e => rfl
  | ok _ => rfl

/-- The loop of `read_to_end`, with the counter at the position and every byte
before it appended. -/
theorem readChunks_out (hE : ReadsFile E C) {build : Build} (hC : C.length < 2 ^ 63) {fuel : ℕ} :
    ∀ {file : File} {buf : ByteVec} {chunk : Bytes} {total : UInt64} {s : E.State}
      {tr : List SysEvent} {o : Outcome (Except Error UInt64 × ByteVec × File)},
      chunk.length = 8192 → file.inner.fpos.toNat = total.toNat → total.toNat ≤ C.length →
      buf.bytes.length + (C.length - total.toNat) ≤ isizeMax → C.length - total.toNat < fuel →
      Exec E (File.readChunks build fuel file buf chunk total) s tr o t →
      ∃ result buf' file', o = .ok (result, buf', file') ∧
        ReadOut (C.drop total.toNat) C.length buf.bytes tr result buf'.bytes := by
  -- on the rounds that are left: every round but the last appends a byte
  induction fuel with
  | zero =>
      intro file buf chunk total s tr o hchunk hpos hle hfits hfuel
      omega
  | succ fuel ih =>
      intro file buf chunk total s tr o hchunk hpos hle hfits hfuel h
      rw [readChunks_round] at h
      obtain ⟨⟨code, inner, out, count⟩, u, tr, rfl, hstep, h⟩ := Exec.call_iff.mp h
      have hsize : (len chunk).toNat = 8192 := by
        rw [toNat_len (by omega), hchunk]
      by_cases hcode : code = 0
      · subst hcode
        obtain ⟨hcount, hbytes, hfpos, hprogress⟩ := hE.read hstep
        have hok : ¬ ReadFailed ⟨.ext4Fread file.inner chunk (len chunk) 0,
            ((0 : Int32), inner, out, count)⟩ := fun hne => hne rfl
        rw [hsize, hpos] at hcount hprogress
        by_cases hzero : count = 0
        · -- nothing was read: the position is at the end
          subst hzero
          obtain ⟨rfl, rfl, rfl⟩ := Exec.done_iff.mp h
          have hnone : ¬ total.toNat < C.length := fun hlt =>
            absurd (hprogress (by decide) hlt) (Nat.lt_irrefl 0)
          have hend : total.toNat = C.length := by omega
          refine ⟨_, _, _, rfl, ReadOut.cons hok ⟨fun _ => ⟨⟨total, rfl, hend⟩, ?_⟩, ?_⟩⟩
          · rw [hend, List.drop_length, List.append_nil]
          · rintro ⟨e, he, -⟩
            cases he
        · have hcle : count.toNat ≤ 8192 := hcount.trans (Nat.min_le_left _ _)
          have hrest : count.toNat ≤ C.length - total.toNat := hcount.trans (Nat.min_le_right _ _)
          have hpos' : count.toNat ≠ 0 := fun hn => hzero (UInt64.toNat_inj.mp hn)
          have hout : out.val.length = 8192 := out.property.trans hchunk
          have hslice : sliceRange out.val 0 count.toNat =
              .ok (window C total.toNat count.toNat) := by
            rw [sliceRange, if_pos ⟨Nat.zero_le _, by omega⟩, List.drop_zero, Nat.sub_zero, hbytes,
              hpos]
          have hwindow : (window C total.toNat count.toNat).length = count.toNat :=
            length_window (by omega)
          have hcap : buf.bytes.length + (window C total.toNat count.toNat).length ≤ isizeMax := by
            omega
          obtain ⟨longer, hextend, hlonger⟩ := ByteVec.extend_ok hcap
          have hsum : total.toNat + count.toNat < 2 ^ 64 := by omega
          have hnext : (UInt64.ofNat (total.toNat + count.toNat)).toNat =
              total.toNat + count.toNat := by
            rw [UInt64.toNat_ofNat', Nat.mod_eq_of_lt hsum]
          simp only [checkErrno_zero, if_neg hzero, hslice, hextend, Build.add64_of_lt hsum,
            Prog.ofOutcome_ok_bind] at h
          have hgrown : longer.bytes.length = buf.bytes.length + count.toNat := by
            rw [hlonger, List.length_append, hwindow]
          have hsplit : C.drop total.toNat = window C total.toNat count.toNat ++
              C.drop (total.toNat + count.toNat) := by
            rw [window, ← List.drop_drop, List.take_append_drop]
          obtain ⟨result, buf', file', rfl, hread⟩ := ih hout (hfpos.trans (by rw [hnext, hpos]))
            (by omega) (by omega) (by omega) h
          rw [hnext, hlonger] at hread
          rw [hsplit]
          exact ⟨result, buf', file', rfl, ReadOut.cons hok hread.append⟩
      · rw [checkErrno_of_ne hcode] at h
        obtain ⟨rfl, rfl, rfl⟩ := Exec.done_iff.mp h
        refine ⟨_, _, _, rfl, ?_, fun _ => ⟨⟨_, rfl⟩, 0, ?_⟩⟩
        · intro hnone
          exact absurd hcode (hnone _ List.mem_cons_self)
        · rw [List.take_zero, List.append_nil]

/-- `read_to_end` from wherever the file is. -/
theorem readToEnd_out (hE : ReadsFile E C) {build : Build} {fuel : ℕ} (hfuel : C.length < fuel)
    {file : File} {buf : ByteVec} (hfits : buf.bytes.length + C.length ≤ isizeMax)
    {o : Outcome (Except Error UInt64 × ByteVec × File)}
    (h : Exec E (file.readToEnd build fuel buf) s tr o t) :
    ∃ result buf' file', o = .ok (result, buf', file') ∧
      ReadOut C C.length buf.bytes tr result buf'.bytes := by
  obtain ⟨size, u, tr, rfl, hsize, h⟩ := Exec.request_bind h
  have hreserve : buf.reserve size = .ok () := by
    rw [ByteVec.reserve, hE.size hsize, if_pos hfits]
  rw [hreserve, Prog.ofOutcome_ok_bind] at h
  obtain ⟨⟨code, inner⟩, u, tr, rfl, hseek, h⟩ := Exec.request_bind h
  obtain ⟨rfl, hpos⟩ := hE.rewound hseek
  obtain ⟨pos, u, tr, rfl, -, h⟩ := Exec.request_bind h
  have hC : C.length < 2 ^ 63 := by
    unfold isizeMax at hfits
    omega
  have hstart : inner.fpos.toNat = (0 : UInt64).toNat := congrArg UInt64.toNat hpos
  obtain ⟨result, buf', file', rfl, hread⟩ := readChunks_out hE hC List.length_replicate hstart
    (Nat.zero_le _) hfits hfuel h
  exact ⟨result, buf', file', rfl, .cons id (.cons id (.cons id hread))⟩

/-- A UTF-8 string with these bytes. -/
def IsText (bytes : Bytes) : Prop := ∃ text, strBytes text = bytes

theorem isText_iff {bytes : Bytes} : IsText bytes ↔ ∃ text, fromUtf8 bytes = some text := by
  constructor
  · rintro ⟨text, rfl⟩
    exact ⟨text, fromUtf8_strBytes text⟩
  · rintro ⟨text, h⟩
    exact ⟨text, strBytes_of_fromUtf8 h⟩

/-- What became of a string that the file was to be read into. -/
structure TextOut (C : Bytes) (before : String) (tr : List SysEvent)
    (result : Except Error UInt64) (after : String) : Prop where
  ok_iff : (∃ n, result = .ok n ∧ n.toNat = C.length ∧ strBytes after = C) ↔
    (∀ e ∈ tr, ¬ ReadFailed e) ∧ IsText C
  ok : ∀ n, result = .ok n → n.toNat = C.length ∧ strBytes after = C
  error : ∀ e, result = .error e → after = before

theorem readToString_out (hE : ReadsFile E C) {build : Build} {fuel : ℕ} (hfuel : C.length < fuel)
    {file : File} {text : String} (hfits : C.length ≤ isizeMax)
    {o : Outcome (Except Error UInt64 × String × File)}
    (h : Exec E (file.readToString build fuel text) s tr o t) :
    ∃ result text' file', o = .ok (result, text', file') ∧ TextOut C text tr result text' := by
  have hempty : ([] : Bytes).length + C.length ≤ isizeMax := by
    rw [List.length_nil, Nat.zero_add]
    exact hfits
  rcases Exec.bind_iff.mp h with ⟨⟨result, bytes, file'⟩, u, tr₁, tr₂, rfl, hread, h⟩ |
    ⟨why, rfl, hread⟩
  · obtain ⟨_, _, _, ho, hout⟩ := readToEnd_out hE hfuel hempty hread
    cases ho
    by_cases hfail : ∃ e ∈ tr₁, ReadFailed e
    · obtain ⟨⟨e, rfl⟩, -⟩ := hout.cut hfail
      obtain ⟨rfl, rfl, rfl⟩ := Exec.done_iff.mp h
      rw [List.append_nil]
      refine ⟨_, _, _, rfl, iff_of_false nofun ?_, nofun, fun _ _ => rfl⟩
      rintro ⟨hnone, -⟩
      obtain ⟨e', he', hfail⟩ := hfail
      exact hnone e' he' hfail
    · have hnone : ∀ e ∈ tr₁, ¬ ReadFailed e := fun e he hf => hfail ⟨e, he, hf⟩
      obtain ⟨⟨n, rfl, hn⟩, hbytes⟩ := hout.complete hnone
      rw [List.nil_append] at hbytes
      subst hbytes
      cases hutf : fromUtf8 bytes.bytes with
      | some text' =>
          simp only [hutf] at h
          obtain ⟨rfl, rfl, rfl⟩ := Exec.done_iff.mp h
          rw [List.append_nil]
          have htext := strBytes_of_fromUtf8 hutf
          refine ⟨_, _, _, rfl, iff_of_true ⟨n, rfl, hn, htext⟩ ⟨hnone, text', htext⟩, ?_, nofun⟩
          intro m hm
          cases hm
          exact ⟨hn, htext⟩
      | none =>
          simp only [hutf] at h
          obtain ⟨rfl, rfl, rfl⟩ := Exec.done_iff.mp h
          rw [List.append_nil]
          refine ⟨_, _, _, rfl, iff_of_false nofun ?_, nofun, fun _ _ => rfl⟩
          rintro ⟨-, htext⟩
          obtain ⟨text', htext'⟩ := isText_iff.mp htext
          cases hutf.symm.trans htext'
  · obtain ⟨_, _, _, ho, -⟩ := readToEnd_out hE hfuel hempty hread
    cases ho

/-- Over a file that fits in memory, from any position, into any vector or
string, and however short its reads are and whichever of them fails: both
functions return, and what they return and leave is the whole file once, or
an error with a front part of it, or, for the string, with nothing. -/
theorem whole_file_read_once {E : Environment Call Reply} {C : Bytes} (hE : ReadsFile E C)
    (build : Build) {fuel : ℕ} (hfuel : C.length < fuel) (file : File) :
    (∀ (buf : ByteVec) s tr o t, buf.bytes.length + C.length ≤ isizeMax →
      Exec E (file.readToEnd build fuel buf) s tr o t →
      ∃ result buf' file', o = .ok (result, buf', file') ∧
        ReadOut C C.length buf.bytes tr result buf'.bytes) ∧
    (∀ (text : String) s tr o t, C.length ≤ isizeMax →
      Exec E (file.readToString build fuel text) s tr o t →
      ∃ result text' file', o = .ok (result, text', file') ∧ TextOut C text tr result text') :=
  ⟨fun _ _ _ _ _ hfits h => readToEnd_out hE hfuel hfits h,
    fun _ _ _ _ _ hfits h => readToString_out hE hfuel hfits h⟩

/-! ## A file of two bytes -/

/-- The bytes of the file; any read may fail. -/
def readingLwext4 (C : Bytes) : Environment Call Reply where
  State := Unit
  step _ c r _ :=
    match c, r with
    | .ext4Fsize _, r => r.toNat = C.length
    | .ext4Fseek f _ _, r => r = ((0 : Int32), { f with fpos := 0 })
    | .ext4Fread f _ size _, r => r.1 ≠ (0 : Int32) ∨
        (r.2.2.2.toNat ≤ min size.toNat (C.length - f.fpos.toNat) ∧
          r.2.2.1.val.take r.2.2.2.toNat = window C f.fpos.toNat r.2.2.2.toNat ∧
          r.2.1.fpos.toNat = f.fpos.toNat + r.2.2.2.toNat ∧
          (0 < size.toNat → f.fpos.toNat < C.length → 0 < r.2.2.2.toNat))
    | _, _ => True

theorem readingLwext4_reads (C : Bytes) : ReadsFile (readingLwext4 C) C where
  size h := h
  rewound {s t f f' code} h := by
    cases h
    exact ⟨rfl, rfl⟩
  read h := by
    rcases h with hne | h
    · exact absurd rfl hne
    · exact h

/-- A round that reads something. -/
theorem readChunks_exec {build : Build} {fuel : ℕ} {file : File} {inner : Ext4File}
    {buf longer : ByteVec} {chunk : Bytes} {out : Filled chunk} {total count : UInt64} {u : E.State}
    {o : Outcome (Except Error UInt64 × ByteVec × File)}
    (hstep : E.step s (.ext4Fread file.inner chunk (len chunk) 0)
      ((0 : Int32), inner, out, count) u)
    (hcount : count ≠ 0) (hle : count.toNat ≤ out.val.length)
    (hextend : buf.extend (out.val.take count.toNat) = .ok longer)
    (hsum : total.toNat + count.toNat < 2 ^ 64)
    (h : Exec E (File.readChunks build fuel { file with inner } longer out.val
      (UInt64.ofNat (total.toNat + count.toNat))) u tr o t) :
    Exec E (File.readChunks build (fuel + 1) file buf chunk total) s
      (⟨.ext4Fread file.inner chunk (len chunk) 0, ((0 : Int32), inner, out, count)⟩ :: tr)
      o t := by
  have hslice : sliceRange out.val 0 count.toNat = .ok (out.val.take count.toNat) := by
    rw [sliceRange, if_pos ⟨Nat.zero_le _, hle⟩, List.drop_zero, Nat.sub_zero]
  rw [readChunks_round]
  refine .call hstep ?_
  simp only [checkErrno_zero, if_neg hcount, hslice, hextend, Build.add64_of_lt hsum,
    Prog.ofOutcome_ok_bind]
  exact h

/-- The chunk `read_to_end` reads into, with the file in its first places. -/
def filledChunk : Filled (List.replicate 8192 (0 : UInt8)) :=
  ⟨104 :: 105 :: List.replicate 8190 0, by simp only [List.length_cons, List.length_replicate]⟩

/-- A run over the file, from its end, into a vector of one byte. -/
theorem twoByteFile_readToEnd : ∃ tr, Exec (readingLwext4 [104, 105])
    ((twoByteFile 2).readToEnd .checked 3 ⟨[1], by decide⟩) () tr
    (.ok (.ok 2, ⟨[1, 104, 105], by decide⟩, twoByteFile 2)) () := by
  have hlen : filledChunk.val.length = 8192 := by
    rw [filledChunk.property, List.length_replicate]
  have hsize : (len (List.replicate 8192 (0 : UInt8))).toNat = 8192 := by
    rw [toNat_len (by rw [List.length_replicate]; decide), List.length_replicate]
  have hread : (readingLwext4 [104, 105]).step () (.ext4Fread (twoByteFile 0).inner
      (List.replicate 8192 0) (len (List.replicate 8192 (0 : UInt8))) 0)
      ((0 : Int32), (twoByteFile 2).inner, filledChunk, 2) () := by
    refine .inr ⟨?_, rfl, rfl, fun _ _ => by decide⟩
    rw [hsize]
    decide
  have hend : (readingLwext4 [104, 105]).step () (.ext4Fread (twoByteFile 2).inner
      filledChunk.val (len filledChunk.val) 0)
      ((0 : Int32), (twoByteFile 2).inner, ⟨filledChunk.val, rfl⟩, 0) () :=
    .inr ⟨Nat.zero_le _, rfl, rfl, fun _ h => absurd h (by decide)⟩
  obtain ⟨tr, hlast⟩ : ∃ tr, Exec (readingLwext4 [104, 105]) (File.readChunks .checked 2
      (twoByteFile 2) ⟨[1, 104, 105], by decide⟩ filledChunk.val 2) () tr
      (.ok (.ok 2, ⟨[1, 104, 105], by decide⟩, twoByteFile 2)) () := by
    rw [readChunks_round]
    exact ⟨_, .call hend (.done _ _)⟩
  obtain ⟨tr, hloop⟩ : ∃ tr, Exec (readingLwext4 [104, 105]) (File.readChunks .checked 3
      (twoByteFile 0) ⟨[1], by decide⟩ (List.replicate 8192 0) 0) () tr
      (.ok (.ok 2, ⟨[1, 104, 105], by decide⟩, twoByteFile 2)) () :=
    ⟨_, readChunks_exec hread (by decide) (by rw [hlen]; decide) rfl (by decide) hlast⟩
  refine ⟨⟨.ext4Fsize (twoByteFile 2).inner, (2 : UInt64)⟩ ::
    ⟨.ext4Fseek (twoByteFile 2).inner 0 SEEK_SET, ((0 : Int32), (twoByteFile 0).inner)⟩ ::
      ⟨.ext4Ftell (twoByteFile 0).inner, (0 : UInt64)⟩ :: tr, ?_⟩
  refine .call (u := ()) rfl (.call (u := ()) rfl (.call (u := ()) trivial ?_))
  simp only [Prog.bind, Prog.pure_eq]
  exact hloop

/-- The file is read once behind the byte that was there. -/
theorem whole_file_read_once_two_bytes :
    ∃ tr, (Exec (readingLwext4 [104, 105])
        ((twoByteFile 2).readToEnd .checked 3 ⟨[1], by decide⟩) () tr
        (.ok (.ok 2, ⟨[1, 104, 105], by decide⟩, twoByteFile 2)) ()) ∧
      ReadOut [104, 105] 2 [1] tr (.ok 2) [1, 104, 105] := by
  obtain ⟨tr, h⟩ := twoByteFile_readToEnd
  obtain ⟨hbytes, -⟩ := whole_file_read_once (readingLwext4_reads [104, 105]) .checked
    (show 2 < 3 by decide) (twoByteFile 2)
  obtain ⟨result, buf, file, ho, hread⟩ := hbytes ⟨[1], by decide⟩ () tr _ () (by decide) h
  cases ho
  exact ⟨tr, h, hread⟩

end Ext4Lwext4.Metatheory
