import Ext4Lwext4.Metatheory.Teardown

/-! # What `metadata` reports

`metadata` merges up to seven calls into one record and looks at the code of
the first, and of the open of a regular file. The fields behind the other codes
start at zero, and a call that fails leaves them there. -/

namespace Ext4Lwext4.Metatheory

open Ext4Lwext4.Framework Ext4Lwext4.Model

variable {E : Environment Call Reply} {s t : E.State} {tr : List SysEvent}

/-! ## The calls -/

/-- The calls that find the size, which is asked of a regular file only. The
file is closed again, whatever that returns. -/
inductive SizeTrace (p : CString) (mode : UInt32) : List SysEvent → UInt64 → Prop
  | notRegular : Ext4Fs.fileTypeOfMode mode ≠ .regularFile → SizeTrace p mode [] 0
  | openFailed {code : Int32} (inner : Ext4File) :
      Ext4Fs.fileTypeOfMode mode = .regularFile → code ≠ 0 →
      SizeTrace p mode [⟨.ext4Fopen2 .default p OpenFlags.READ.toRaw, (code, inner)⟩] 0
  | opened (inner : Ext4File) (size : UInt64) (close : Int32) :
      Ext4Fs.fileTypeOfMode mode = .regularFile →
      SizeTrace p mode [⟨.ext4Fopen2 .default p OpenFlags.READ.toRaw, ((0 : Int32), inner)⟩,
        ⟨.ext4Fsize inner, size⟩, ⟨.ext4Fclose inner, close⟩] size

/-- All calls of `metadata`, with any replies. -/
inductive MetadataTrace (path : String) (p : CString) :
    List SysEvent → Except Error Metadata → Prop
  | missing {code : Int32} (mode : UInt32) {e : Error} :
      checkErrnoWithPath code path = .error e →
      MetadataTrace path p [⟨.ext4ModeGet p 0, (code, mode)⟩] (.error e)
  | found (mode uid gid atime mtime ctime : UInt32) (owner acode mcode ccode : Int32)
      {sizeTrace : List SysEvent} {size : UInt64} : SizeTrace p mode sizeTrace size →
      MetadataTrace path p (⟨.ext4ModeGet p 0, ((0 : Int32), mode)⟩ ::
          ⟨.ext4OwnerGet p 0 0, (owner, uid, gid)⟩ :: ⟨.ext4AtimeGet p 0, (acode, atime)⟩ ::
          ⟨.ext4MtimeGet p 0, (mcode, mtime)⟩ :: ⟨.ext4CtimeGet p 0, (ccode, ctime)⟩ ::
          sizeTrace)
        (.ok ⟨Ext4Fs.fileTypeOfMode mode, size, 0, mode &&& 0o7777, uid, gid, atime.toUInt64,
          mtime.toUInt64, ctime.toUInt64, 1⟩)

theorem openFile_exec {fs : Ext4Fs} {path : String} {flags : OpenFlags} {p : CString}
    {o : Outcome (Except Error File)} (hp : fs.makePath path = .ok p)
    (h : Exec E (File.openFile fs path flags).run s tr o t) :
    ∃ code inner, tr = [⟨.ext4Fopen2 .default p flags.toRaw, (code, inner)⟩] ∧
      E.step s (.ext4Fopen2 .default p flags.toRaw) (code, inner) t ∧
      o = .ok ((checkErrnoWithPath code path).map fun _ => ⟨fs, inner, path⟩) := by
  unfold File.openFile at h
  rw [run_except_bind, hp] at h
  obtain ⟨⟨code, inner⟩, u, tr, rfl, hopen, h⟩ := exec_run_request_bind h
  simp only [run_except_bind] at h
  cases hcheck : checkErrnoWithPath code path with
  | ok _ =>
      rw [hcheck] at h
      obtain ⟨rfl, rfl, rfl⟩ := exec_run_ok h
      exact ⟨code, inner, rfl, hopen, by rw [hcheck]; rfl⟩
  | error e =>
      rw [hcheck] at h
      obtain ⟨rfl, rfl, rfl⟩ := Exec.done_iff.mp h
      exact ⟨code, inner, rfl, hopen, by rw [hcheck]; rfl⟩

theorem sizeOfFile_trace {fs : Ext4Fs} {path : String} {p : CString} {mode : UInt32}
    {o : Outcome UInt64} (hp : fs.makePath path = .ok p)
    (hmode : Ext4Fs.fileTypeOfMode mode = .regularFile)
    (h : Exec E (fs.sizeOfFile path) s tr o t) :
    ∃ size, o = .ok size ∧ SizeTrace p mode tr size := by
  rcases Exec.bind_iff.mp h with ⟨result, u, tr₁, tr₂, rfl, hopen, h⟩ | ⟨why, rfl, hopen⟩
  · obtain ⟨code, inner, rfl, -, ho⟩ := openFile_exec hp hopen
    cases ho
    cases hcheck : checkErrnoWithPath code path with
    | ok _ =>
        rw [hcheck] at h
        obtain ⟨size, v, tr, rfl, -, h⟩ := Exec.request_bind h
        obtain ⟨close, v, tr, rfl, -, h⟩ := Exec.request_bind h
        obtain ⟨rfl, rfl, rfl⟩ := Exec.done_iff.mp h
        rw [checkErrnoWithPath_eq_ok.mp hcheck]
        exact ⟨size, rfl, .opened inner size close hmode⟩
    | error e =>
        rw [hcheck] at h
        obtain ⟨rfl, rfl, rfl⟩ := Exec.done_iff.mp h
        exact ⟨0, rfl, .openFailed inner hmode (checkErrnoWithPath_ne_zero hcheck)⟩
  · obtain ⟨_, _, -, -, ho⟩ := openFile_exec hp hopen
    cases ho

theorem metadata_trace {fs : Ext4Fs} {path : String} {o : Outcome (Except Error Metadata)}
    (h : Exec E (fs.metadata path).run s tr o t) :
    ∃ result, o = .ok result ∧
      ((tr = [] ∧ ∃ e, fs.makePath path = .error e ∧ result = .error e) ∨
        ∃ p, fs.makePath path = .ok p ∧ MetadataTrace path p tr result) := by
  unfold Ext4Fs.metadata at h
  rw [run_except_bind] at h
  cases hp : fs.makePath path with
  | error e =>
      rw [hp] at h
      obtain ⟨rfl, rfl, rfl⟩ := Exec.done_iff.mp h
      exact ⟨_, rfl, .inl ⟨rfl, e, rfl, rfl⟩⟩
  | ok p =>
      rw [hp] at h
      obtain ⟨⟨code, mode⟩, u, tr, rfl, -, h⟩ := exec_run_request_bind h
      simp only [run_except_bind] at h
      cases hcheck : checkErrnoWithPath code path with
      | error e =>
          rw [hcheck] at h
          obtain ⟨rfl, rfl, rfl⟩ := Exec.done_iff.mp h
          exact ⟨_, rfl, .inr ⟨p, rfl, .missing mode hcheck⟩⟩
      | ok _ =>
          rw [hcheck] at h
          rw [checkErrnoWithPath_eq_ok.mp hcheck]
          -- from here on no code is looked at until the open
          obtain ⟨⟨owner, uid, gid⟩, u, tr, rfl, -, h⟩ := exec_run_request_bind h
          obtain ⟨⟨acode, atime⟩, u, tr, rfl, -, h⟩ := exec_run_request_bind h
          obtain ⟨⟨mcode, mtime⟩, u, tr, rfl, -, h⟩ := exec_run_request_bind h
          obtain ⟨⟨ccode, ctime⟩, u, tr, rfl, -, h⟩ := exec_run_request_bind h
          by_cases hmode : Ext4Fs.fileTypeOfMode mode = .regularFile
          · simp only [if_pos hmode] at h
            rcases exec_run_lift_bind h with ⟨size, v, tr₁, tr₂, rfl, hsize, h⟩ | ⟨why, rfl, hsize⟩
            · obtain ⟨_, ⟨⟩, htrace⟩ := sizeOfFile_trace hp hmode hsize
              obtain ⟨rfl, rfl, rfl⟩ := exec_run_ok h
              rw [List.append_nil]
              exact ⟨_, rfl, .inr ⟨p, rfl, .found _ _ _ _ _ _ _ _ _ _ htrace⟩⟩
            · obtain ⟨_, ⟨⟩, -⟩ := sizeOfFile_trace hp hmode hsize
          · simp only [if_neg hmode] at h
            obtain ⟨rfl, rfl, rfl⟩ := exec_run_ok h
            exact ⟨_, rfl, .inr ⟨p, rfl, .found _ _ _ _ _ _ _ _ _ _ (.notRegular hmode)⟩⟩

/-! All these ways are open to a lwext4 that may return anything. -/

theorem SizeTrace.exec {fs : Ext4Fs} {path : String} {p : CString} {mode : UInt32} {size : UInt64}
    (hp : fs.makePath path = .ok p) (hmode : Ext4Fs.fileTypeOfMode mode = .regularFile)
    (h : SizeTrace p mode tr size) :
    Exec (.chaos Call Reply) (fs.sizeOfFile path) () tr (.ok size) () := by
  unfold Ext4Fs.sizeOfFile File.openFile
  rw [run_except_bind, hp]
  cases h with
  | notRegular h => exact absurd hmode h
  | @openFailed code inner _ hcode =>
      refine Exec.chaos_call ?_
      obtain ⟨e, hcheck⟩ := checkErrnoWithPath_of_ne path hcode
      show Exec _ (ExceptT.run (liftM (checkErrnoWithPath code path) >>= _) >>= _) _ _ _ _
      rw [run_except_bind, hcheck]
      exact .done _ _
  | opened inner size close _ =>
      exact Exec.chaos_call (Exec.chaos_call (Exec.chaos_call (.done _ _)))

theorem MetadataTrace.exec {fs : Ext4Fs} {path : String} {p : CString}
    {result : Except Error Metadata} (hp : fs.makePath path = .ok p)
    (h : MetadataTrace path p tr result) :
    Exec (.chaos Call Reply) (fs.metadata path).run () tr (.ok result) () := by
  unfold Ext4Fs.metadata
  rw [run_except_bind, hp]
  cases h with
  | @missing code mode _ hcheck =>
      refine Exec.chaos_call ?_
      show Exec _ (ExceptT.run (liftM (checkErrnoWithPath code path) >>= _)) _ _ _ _
      rw [run_except_bind, hcheck]
      exact .done _ _
  | @found mode uid gid atime mtime ctime owner acode mcode ccode sizeTrace size hsize =>
      have hcheck : checkErrnoWithPath 0 path = .ok () := checkErrnoWithPath_eq_ok.mpr rfl
      refine Exec.chaos_call ?_
      show Exec _ (ExceptT.run (liftM (checkErrnoWithPath 0 path) >>= _)) _ _ _ _
      rw [run_except_bind, hcheck]
      refine Exec.chaos_call (Exec.chaos_call (Exec.chaos_call (Exec.chaos_call ?_)))
      by_cases hmode : Ext4Fs.fileTypeOfMode mode = .regularFile
      · simp only [if_pos hmode]
        show Exec _ (ExceptT.run ((liftM (fs.sizeOfFile path) : ExceptT Error Sys UInt64) >>= _))
          _ _ _ _
        rw [run_lift_bind, ← List.append_nil sizeTrace]
        exact Exec.bind (hsize.exec hp hmode) (.done _ _)
      · simp only [if_neg hmode]
        cases hsize with
        | notRegular _ => exact .done _ _
        | openFailed _ h _ => exact absurd h hmode
        | opened _ _ _ h => exact absurd h hmode

/-- A regular file whose owner cannot be read and that cannot be opened. -/
def unreadableLog (p : CString) (code : Int32) : List SysEvent :=
  [⟨.ext4ModeGet p 0, ((0 : Int32), 0o100644)⟩, ⟨.ext4OwnerGet p 0 0, (code, 0, 0)⟩,
    ⟨.ext4AtimeGet p 0, ((0 : Int32), 7)⟩, ⟨.ext4MtimeGet p 0, ((0 : Int32), 8)⟩,
    ⟨.ext4CtimeGet p 0, ((0 : Int32), 9)⟩,
    ⟨.ext4Fopen2 .default p OpenFlags.READ.toRaw, (code, .default)⟩]

theorem sampleFs_log : ∃ p, sampleFs.makePath "log" = .ok p := by
  have hmp : sampleFs.mountPoint = mountPointOf 4 := rfl
  have hnul : (0 : UInt8) ∉ strBytes "log" := by decide
  obtain ⟨p, hp, -⟩ := Ext4Fs.makePath_ok hmp hnul
  exact ⟨p, hp⟩

theorem unreadableLog_exec {p : CString} (hp : sampleFs.makePath "log" = .ok p) :
    Exec (.chaos Call Reply) (sampleFs.metadata "log").run () (unreadableLog p EIO)
      (.ok (.ok ⟨.regularFile, 0, 0, 0o644, 0, 0, 7, 8, 9, 1⟩)) () :=
  (MetadataTrace.found 0o100644 0 0 7 8 9 EIO 0 0 0
    (.openFailed .default rfl EIO_ne_zero)).exec hp

/-! ## The record and the calls -/

/-- The calls the record is made of: all but the close. -/
def Contributes : Call → Prop
  | .ext4Fclose _ => False
  | _ => True

/-- Every field is what a successful call of the trace returned for it. -/
structure Reported (p : CString) (tr : List SysEvent) (m : Metadata) : Prop where
  mode : ∃ mode, ⟨.ext4ModeGet p 0, ((0 : Int32), mode)⟩ ∈ tr ∧
    m.fileType = Ext4Fs.fileTypeOfMode mode ∧ m.mode = mode &&& 0o7777
  owner : ⟨.ext4OwnerGet p 0 0, ((0 : Int32), m.uid, m.gid)⟩ ∈ tr
  atime : ∃ atime, ⟨.ext4AtimeGet p 0, ((0 : Int32), atime)⟩ ∈ tr ∧ m.atime = atime.toUInt64
  mtime : ∃ mtime, ⟨.ext4MtimeGet p 0, ((0 : Int32), mtime)⟩ ∈ tr ∧ m.mtime = mtime.toUInt64
  ctime : ∃ ctime, ⟨.ext4CtimeGet p 0, ((0 : Int32), ctime)⟩ ∈ tr ∧ m.ctime = ctime.toUInt64
  size : m.fileType = .regularFile → ∃ inner,
    ⟨.ext4Fopen2 .default p OpenFlags.READ.toRaw, ((0 : Int32), inner)⟩ ∈ tr ∧
      ⟨.ext4Fsize inner, m.size⟩ ∈ tr

/-- The `S_IFMT` bits of a mode, for the types that have some. -/
def typeBits : FileType → Option UInt32
  | .regularFile => some 0o100000
  | .directory => some 0o040000
  | .symlink => some 0o120000
  | .blockDevice => some 0o060000
  | .charDevice => some 0o020000
  | .fifo => some 0o010000
  | .socket => some 0o140000
  | .unknown => none

theorem fileTypeOfMode_of_typeBits {mode : UInt32} {type : FileType}
    (h : typeBits type = some (mode &&& 0o170000)) : Ext4Fs.fileTypeOfMode mode = type := by
  unfold Ext4Fs.fileTypeOfMode
  cases type with
  | unknown => cases h
  | _ => rw [← Option.some.inj h]; rfl

/-- The type of a mode is the one that has its bits, if there is one. -/
theorem fileTypeOfMode_eq_iff {mode : UInt32} {type : FileType} (h : type ≠ .unknown) :
    Ext4Fs.fileTypeOfMode mode = type ↔ typeBits type = some (mode &&& 0o170000) := by
  refine ⟨?_, fileTypeOfMode_of_typeBits⟩
  rintro rfl
  unfold Ext4Fs.fileTypeOfMode at h ⊢
  generalize mode &&& 0o170000 = bits at h ⊢
  dsimp only at h ⊢
  split_ifs at h ⊢ with hreg hdir hlink hblk hchr hfifo hsock
  · rw [hreg]; rfl
  · rw [hdir]; rfl
  · rw [hlink]; rfl
  · rw [hblk]; rfl
  · rw [hchr]; rfl
  · rw [hfifo]; rfl
  · rw [hsock]; rfl
  · exact absurd rfl h

/-- The type of the record has the bits of the mode that was reported. -/
theorem Reported.fileType_bits {p : CString} {m : Metadata} (h : Reported p tr m) :
    ∃ mode, ⟨.ext4ModeGet p 0, ((0 : Int32), mode)⟩ ∈ tr ∧ ∀ type, type ≠ .unknown →
      (m.fileType = type ↔ typeBits type = some (mode &&& 0o170000)) := by
  obtain ⟨mode, hmem, htype, -⟩ := h.mode
  exact ⟨mode, hmem, fun type hknown => htype ▸ fileTypeOfMode_eq_iff hknown⟩

/-- An `Ok` holds nothing but what the calls reported, and a failed call is an `Err`. -/
structure NeverInvents (fs : Ext4Fs) (path : String) (tr : List SysEvent)
    (result : Except Error Metadata) : Prop where
  ok : ∀ m, result = .ok m → (∀ e ∈ tr, Contributes e.1 → ¬ Failed e) ∧
    ∃ p, fs.makePath path = .ok p ∧ Reported p tr m
  error : (∃ e ∈ tr, Contributes e.1 ∧ Failed e) → ∃ err, result = .error err

/-- All calls succeeded, or already the first did not. -/
def AllOrFirstFailed (tr : List SysEvent) : Prop :=
  (∀ e ∈ tr, Contributes e.1 → ¬ Failed e) ∨
    ∃ p m reply, ⟨.ext4ModeGet p m, reply⟩ ∈ tr ∧ Failed ⟨.ext4ModeGet p m, reply⟩

theorem MetadataTrace.reported {path : String} {p : CString} {m : Metadata}
    (h : MetadataTrace path p tr (.ok m))
    (hall : ∀ e ∈ tr, Contributes e.1 → ¬ Failed e) : Reported p tr m := by
  have hcode : ∀ e ∈ tr, Contributes e.1 → returnCode e.1 e.2 = 0 :=
    fun e he hc => not_not.mp (hall e he hc)
  cases h with
  | found mode uid gid atime mtime ctime owner acode mcode ccode hsize =>
      have howner : owner = 0 := hcode ⟨.ext4OwnerGet p 0 0, (owner, uid, gid)⟩ (by simp) trivial
      have ha : acode = 0 := hcode ⟨.ext4AtimeGet p 0, (acode, atime)⟩ (by simp) trivial
      have hm : mcode = 0 := hcode ⟨.ext4MtimeGet p 0, (mcode, mtime)⟩ (by simp) trivial
      have hc : ccode = 0 := hcode ⟨.ext4CtimeGet p 0, (ccode, ctime)⟩ (by simp) trivial
      subst howner ha hm hc
      refine ⟨⟨mode, by simp, rfl, rfl⟩, by simp, ⟨atime, by simp, rfl⟩, ⟨mtime, by simp, rfl⟩,
        ⟨ctime, by simp, rfl⟩, fun hregular => ?_⟩
      cases hsize with
      | notRegular hmode => exact absurd hregular hmode
      | @openFailed code inner _ hne =>
          exact absurd (hcode ⟨.ext4Fopen2 .default p OpenFlags.READ.toRaw, (code, inner)⟩
            (by simp) trivial) hne
      | opened inner size close hmode => exact ⟨inner, by simp, by simp⟩

/-- The only call whose failure `metadata` turns into an `Err` is the first. -/
theorem MetadataTrace.not_first_failed {path : String} {p q : CString} {m : Metadata}
    {mode : UInt32} {reply : Int32 × UInt32} (h : MetadataTrace path p tr (.ok m))
    (hmem : ⟨.ext4ModeGet q mode, reply⟩ ∈ tr) : ¬ Failed ⟨.ext4ModeGet q mode, reply⟩ := by
  cases h with
  | found mode uid gid atime mtime ctime owner acode mcode ccode hsize =>
      rcases List.mem_cons.mp hmem with heq | hmem
      · cases heq
        exact fun hfail => hfail rfl
      · -- no other call asks for the mode
        exfalso
        cases hsize <;> simp at hmem

theorem MetadataTrace.neverInvents_iff {fs : Ext4Fs} {path : String} {p : CString}
    {result : Except Error Metadata} (hp : fs.makePath path = .ok p)
    (h : MetadataTrace path p tr result) :
    NeverInvents fs path tr result ↔ AllOrFirstFailed tr := by
  cases result with
  | error err =>
      have hnever : NeverInvents fs path tr (.error err) := by
        refine ⟨?_, fun _ => ⟨err, rfl⟩⟩
        intro m hm
        cases hm
      refine iff_of_true hnever ?_
      cases h with
      | @missing code mode _ hcheck =>
          exact .inr ⟨p, 0, (code, mode), by simp, checkErrnoWithPath_ne_zero hcheck⟩
  | ok m =>
      constructor
      · exact fun hnever => .inl (hnever.ok m rfl).1
      · rintro (hall | ⟨q, mode, reply, hmem, hfail⟩)
        · refine ⟨?_, fun ⟨e, he, hc, hfail⟩ => absurd hfail (hall e he hc)⟩
          intro m' hm
          cases hm
          exact ⟨hall, p, hp, h.reported hall⟩
        · exact absurd hfail (h.not_first_failed hmem)

/-- Whatever its calls return, `metadata` returns, and it invents nothing
exactly when all calls succeeded or the first failed. -/
theorem metadata_never_invents_iff {E : Environment Call Reply} {fs : Ext4Fs} {path : String}
    {s t : E.State} {tr : List SysEvent} {o : Outcome (Except Error Metadata)}
    (h : Exec E (fs.metadata path).run s tr o t) :
    ∃ result, o = .ok result ∧ (NeverInvents fs path tr result ↔ AllOrFirstFailed tr) := by
  obtain ⟨result, rfl, ⟨rfl, e, -, rfl⟩ | ⟨p, hp, htrace⟩⟩ := metadata_trace h
  · have hnone : ∀ e ∈ ([] : List SysEvent), Contributes e.1 → ¬ Failed e :=
      fun e he => absurd he List.not_mem_nil
    refine ⟨_, rfl, iff_of_true ⟨?_, ?_⟩ (.inl hnone)⟩
    · intro m hm
      cases hm
    · exact fun _ => ⟨e, rfl⟩
  · exact ⟨result, rfl, htrace.neverInvents_iff hp⟩

/-- A regular file whose owner cannot be read and that cannot be opened. -/
theorem metadata_never_invents_iff_sample :
    ∃ p, sampleFs.makePath "log" = .ok p ∧
      ∃ result, (Except.ok (.ok ⟨.regularFile, 0, 0, 0o644, 0, 0, 7, 8, 9, 1⟩) :
          Outcome (Except Error Metadata)) = .ok result ∧
        (NeverInvents sampleFs "log" (unreadableLog p EIO) result ↔
          AllOrFirstFailed (unreadableLog p EIO)) := by
  obtain ⟨p, hp⟩ := sampleFs_log
  exact ⟨p, hp, metadata_never_invents_iff (unreadableLog_exec hp)⟩

/-- Its size, its owner and its group are made up. -/
theorem metadata_invents :
    ¬ ∀ (fs : Ext4Fs) (path : String) (tr : List SysEvent) (result : Except Error Metadata),
      Exec (.chaos Call Reply) (fs.metadata path).run () tr (.ok result) () →
      NeverInvents fs path tr result := by
  intro h
  obtain ⟨p, hp⟩ := sampleFs_log
  have hnever := h _ _ _ _ (unreadableLog_exec hp)
  exact (hnever.ok _ rfl).1 _ (List.mem_cons_of_mem _ List.mem_cons_self) trivial EIO_ne_zero

end Ext4Lwext4.Metatheory
