import Ext4Lwext4.Framework.Ends
import Ext4Lwext4.Metatheory.ErrorReports
import Ext4Lwext4.Metatheory.WriteAll

/-! # Where an error comes from

No operation makes an error up. It is made of the code of the last call, which
the operation then looks at, and of the path the caller gave; or the crate has
refused an argument before any call, a text that it was given by lwext4, or a
write that made no progress. -/

namespace Ext4Lwext4.Metatheory

open Ext4Lwext4.Framework Ext4Lwext4.Model

/-! ## Causes -/

theorem error_ite {p : Prop} [Decidable p] {a b : Error} {x : Except Error Unit}
    (h : ¬ p → .error b = x) :
    Except.error (if p then a else b) = if p then Except.error a else x := by
  by_cases hp : p
  · rw [if_pos hp, if_pos hp]
  · rw [if_neg hp, if_neg hp, h hp]

/-- Without a path to name, an error names the empty one. -/
theorem checkErrno_eq_withPath (code : Int32) : checkErrno code = checkErrnoWithPath code "" := by
  by_cases h : code = 0
  · subst h
    rfl
  · rw [checkErrno_of_ne h, checkErrnoWithPath, dif_neg h]
    refine error_ite fun h1 => error_ite fun h2 => error_ite fun h3 => error_ite fun h4 =>
      error_ite fun h5 => ?_
    rw [Error.fromErrno, if_neg h1, if_neg h2, if_neg h3, if_neg h4, if_neg h5]

/-- The path an error of the operation names. -/
def errorPath (client : Client) : ApiOp → String
  | .fs (.mkdir path _) | .fs (.remove path) | .fs (.rmdir path) | .fs (.rename path _)
  | .fs (.link path _) | .fs (.symlink _ path) | .fs (.readlink path) | .fs (.metadata path)
  | .fs (.setPermissions path _) | .fs (.setOwner path _ _) | .openFile path _
  | .openDir path => path
  | .file handle .metadata => ((client.file? handle).map File.path).getD ""
  | _ => ""

/-- The texts an operation hands to C. -/
def texts (client : Client) : ApiOp → List String
  | .fs (.mkdir path _) | .fs (.remove path) | .fs (.rmdir path) | .fs (.readlink path)
  | .fs (.metadata path) | .fs (.setPermissions path _) | .fs (.setOwner path _ _)
  | .openFile path _ | .openDir path => [path]
  | .fs (.rename src dst) | .fs (.link src dst) => [src, dst]
  | .fs (.symlink target path) => [target, path]
  | .file handle .metadata => ((client.file? handle).map File.path).toList
  | _ => []

/-- The operations that look at `read_only` first. -/
def ChecksReadOnly : ApiOp → Prop
  | .fs (.mkdir _ _) | .fs (.remove _) | .fs (.rmdir _) | .fs (.rename _ _) | .fs (.link _ _)
  | .fs (.symlink _ _) | .fs (.setPermissions _ _) | .fs (.setOwner _ _ _) => True
  | _ => False

/-- The traits of `std::io` put their own error around the crate's. -/
def asReturned : ApiOp → Error → Error
  | .file _ (.ioRead _), e | .file _ (.ioWrite _), e | .file _ (.ioSeek _), e =>
      .io (.wrapped .other e)
  | _, e => e

/-- The bytes that the reads of a trace have brought. -/
def bytesRead (tr : List SysEvent) : Bytes := tr.flatMap brought
where
  brought : SysEvent → Bytes
    | ⟨.ext4Fread _ _ _ _, code, _, out, rcnt⟩ => if code = 0 then out.val.take rcnt.toNat else []
    | _ => []

theorem bytesRead_concat (tr : List SysEvent) (ev : SysEvent) :
    bytesRead (tr ++ [ev]) = bytesRead tr ++ bytesRead.brought ev := by
  rw [bytesRead, List.flatMap_append, List.flatMap_singleton]
  rfl

/-- Why an operation returned an error, by the calls it has made: the last of
them, or none at all. -/
inductive Cause (client : Client) (op : ApiOp) : List SysEvent → Error → Prop
  | code {made : List SysEvent} {c : Call} {r : Reply c} {e : Error} : Checks op c →
      checkErrnoWithPath (returnCode c r) (errorPath client op) = .error e →
      Cause client op (made ++ [⟨c, r⟩]) (asReturned op e)
  | readOnly : client.fs.readOnly = true → ChecksReadOnly op → Cause client op [] .readOnly
  | nul {text : String} {e : NulError} : text ∈ texts client op → 0 ∈ strBytes text →
      Cause client op [] (.nulError e)
  | linkText {made : List SysEvent} {path : String} {p : CString} {buf : Bytes}
      {size rcnt n : UInt64} {out : Filled buf} : op = .fs (.readlink path) →
      fromUtf8 (out.val.take n.toNat) = none →
      Cause client op (made ++ [⟨.ext4Readlink p buf size rcnt, ((0 : Int32), out, n)⟩])
        (.invalidArgument "invalid UTF-8 in symlink")
  | fileText {made : List SysEvent} {handle fuel : ℕ} {text : String} :
      op = .file handle (.readToString fuel text) → fromUtf8 (bytesRead made) = none →
      Cause client op made (.invalidArgument "file contains invalid UTF-8")
  | noProgress {made : List SysEvent} {handle fuel : ℕ} {buf rest : Bytes}
      {inner inner' : Ext4File} {size wcnt : UInt64} : op = .file handle (.writeAll fuel buf) →
      rest ≠ [] → Cause client op
        (made ++ [⟨.ext4Fwrite inner rest size wcnt, ((0 : Int32), inner', (0 : UInt64))⟩])
        writeZero

/-! ## What an operation blames -/

/-- An error is one that `W` knows a reason for. -/
def Blames {α : Type} (W : List SysEvent → Error → Prop) (made : List SysEvent)
    (x : Except Error α) : Prop := ∀ e, x = .error e → W made e

/-- What goes wrong with a path: it cannot be handed over, or the call fails. -/
structure BlamesPath (W : List SysEvent → Error → Prop) (P : Call → Prop) (fs : Ext4Fs)
    (path : String) : Prop where
  refused {e : Error} : fs.makePath path = .error e → W [] e
  code {made : List SysEvent} {c : Call} {r : Reply c} {e : Error} : P c →
    checkErrnoWithPath (returnCode c r) path = .error e → W (made ++ [⟨c, r⟩]) e

section Operations

variable {α β : Type} {W : List SysEvent → Error → Prop} {P : Call → Prop} {fs : Ext4Fs}
  {path : String} {made : List SysEvent}

theorem blames_ok (a : α) : Blames W made (.ok a) := nofun

theorem blames_error {e : Error} (h : W made e) : Blames (α := α) W made (.error e) := by
  rintro e' ⟨rfl⟩
  exact h

theorem blames_map {x : Except Error α} (f : α → β) (h : Blames W made x) :
    Blames W made (x.map f) := by
  cases x with
  | ok a => exact blames_ok _
  | error e => exact blames_error (h e rfl)

/-- A call of which the program goes on with the code alone. -/
def EndsWithCode (P : Call → Prop) (made : List SysEvent) (code : Int32) : Prop :=
  ∃ before c r, made = before ++ [⟨c, r⟩] ∧ P c ∧ code = returnCode c r

/-- Where an instance takes the path, only the call can fail. -/
theorem changePath_ends_taken (hro : fs.readOnly = false) {p : CString}
    (hp : fs.makePath path = .ok p) (h : BlamesPath W P fs path) {call : CString → Sys Int32}
    (hcall : (call p).Ends (EndsWithCode P) made) :
    (fs.changePath path call).run.Ends (Blames W) made := by
  unfold Ext4Fs.changePath
  rw [hro, hp]
  refine Prog.ends_run_lift_bind (hcall.mono ?_)
  rintro _ code ⟨before, c, r, rfl, hc, rfl⟩ e he
  exact h.code hc he

/-- Where it does not, there is no call. -/
theorem changePath_refuses (hro : fs.readOnly = true → W [] .readOnly) (h : BlamesPath W P fs path)
    (call : CString → Sys Int32) :
    (∃ e, (fs.changePath path call).run = .done (.error e) ∧ W [] e) ∨
      fs.readOnly = false ∧ ∃ p, fs.makePath path = .ok p := by
  unfold Ext4Fs.changePath
  cases hfs : fs.readOnly with
  | true => exact .inl ⟨.readOnly, rfl, hro hfs⟩
  | false =>
      cases hp : fs.makePath path with
      | error e => exact .inl ⟨e, rfl, h.refused hp⟩
      | ok p => exact .inr ⟨rfl, p, rfl⟩

theorem changePath_ends (hro : fs.readOnly = true → W [] .readOnly) (h : BlamesPath W P fs path)
    {call : CString → Sys Int32} (hcall : ∀ p, (call p).Ends (EndsWithCode P) []) :
    (fs.changePath path call).run.Ends (Blames W) [] := by
  rcases changePath_refuses hro h call with ⟨e, hdone, he⟩ | ⟨hfs, p, hp⟩
  · rw [hdone]
    exact blames_error he
  · exact changePath_ends_taken hfs hp h (hcall p)

theorem changePaths_ends {src dst : String} (hro : fs.readOnly = true → W [] .readOnly)
    (h : BlamesPath W P fs src) (hdst : ∀ {e}, fs.makePath dst = .error e → W [] e)
    {call : CString → CString → Sys Int32}
    (hcall : ∀ p q, (call p q).Ends (EndsWithCode P) []) :
    (fs.changePaths src dst call).run.Ends (Blames W) [] := by
  unfold Ext4Fs.changePaths
  cases hfs : fs.readOnly with
  | true => exact blames_error (hro hfs)
  | false =>
      refine Prog.ends_run_except_bind (fun e he => blames_error (h.refused he)) fun p _ => ?_
      refine Prog.ends_run_except_bind (fun e he => blames_error (hdst he)) fun q _ => ?_
      refine Prog.ends_run_lift_bind ((hcall p q).mono ?_)
      rintro _ code ⟨before, c, r, rfl, hc, rfl⟩ e he
      exact h.code hc he

/-- The check of the code of a call, and what follows it. -/
theorem ends_check {c : Call} {r : Reply c} {f : Unit → ExceptT Error Sys β}
    (h : BlamesPath W P fs path) (hc : P c) {code : Int32} (hcode : code = returnCode c r)
    (hf : code = 0 → (f ()).run.Ends (Blames W) (made ++ [⟨c, r⟩])) :
    (ExceptT.run (liftM (checkErrnoWithPath code path) >>= f)).Ends (Blames W)
      (made ++ [⟨c, r⟩]) := by
  subst hcode
  refine Prog.ends_run_except_bind (fun e he => blames_error (h.code hc he)) fun u hu => ?_
  exact hf (checkErrnoWithPath_eq_ok.mp hu)

theorem symlink_ends {target : String} (hro : fs.readOnly = true → W [] .readOnly)
    (h : BlamesPath W P fs path) (hP : ∀ t p, P (.ext4Fsymlink t p))
    (htarget : ∀ {e}, CString.new (strBytes target) = .error e → W [] (.nulError e)) :
    (fs.symlink target path).run.Ends (Blames W) [] := by
  unfold Ext4Fs.symlink
  cases hfs : fs.readOnly with
  | true => exact blames_error (hro hfs)
  | false =>
      refine Prog.ends_run_except_bind ?_ fun t _ => ?_
      · intro e he
        cases hnew : CString.new (strBytes target) with
        | ok t =>
            rw [hnew] at he
            cases he
        | error e' =>
            rw [hnew] at he
            cases he
            exact blames_error (htarget hnew)
      · refine Prog.ends_run_except_bind (fun e he => blames_error (h.refused he)) fun p _ => ?_
        exact fun r e he => h.code (hP t p) he

theorem readlink_ends (h : BlamesPath W P fs path)
    (hP : ∀ p buf size rcnt, P (.ext4Readlink p buf size rcnt))
    (htext : ∀ made p buf size rcnt n (out : Filled buf), fromUtf8 (out.val.take n.toNat) = none →
      W (made ++ [⟨.ext4Readlink p buf size rcnt, ((0 : Int32), out, n)⟩])
        (.invalidArgument "invalid UTF-8 in symlink")) :
    (fs.readlink path).run.Ends (Blames W) [] := by
  refine Prog.ends_run_except_bind (fun e he => blames_error (h.refused he)) fun p _ => ?_
  rintro ⟨code, out, n⟩
  refine ends_check h (hP p _ _ _) rfl fun hcode => ?_
  obtain rfl : code = 0 := hcode
  cases hutf : fromUtf8 (out.val.take n.toNat) with
  | some target => exact blames_ok target
  | none => exact blames_error (htext [] p _ _ _ n out hutf)

/-- Once the directory is made, the instance has taken the path. -/
theorem mkdir_ends {mode : UInt32} (hro : fs.readOnly = true → W [] .readOnly)
    (h : BlamesPath W P fs path) (hP : ∀ p, P (.ext4DirMk p) ∧ P (.ext4ModeSet p mode)) :
    (fs.mkdir path mode).run.Ends (Blames W) [] := by
  unfold Ext4Fs.mkdir
  rcases changePath_refuses hro h fun p => sys (.ext4DirMk p) with ⟨e, hdone, he⟩ | ⟨hfs, p, hp⟩
  · refine Prog.ends_run_bind ?_
    rw [hdone]
    exact blames_error he
  · have hmake : (fs.changePath path fun p => sys (.ext4DirMk p)).run.Ends (Blames W) [] :=
      changePath_ends_taken hfs hp h fun r => ⟨[], .ext4DirMk p, r, rfl, (hP p).1, rfl⟩
    have hmode : ∀ made, (fs.setPermissions path mode).run.Ends (Blames W) made := fun made =>
      changePath_ends_taken hfs hp h fun r => ⟨made, .ext4ModeSet p mode, r, rfl, (hP p).2, rfl⟩
    refine Prog.ends_run_bind (hmake.mono ?_)
    intro made x hx
    cases x with
    | error e => exact hx
    | ok u =>
        show (ExceptT.run (if mode ≠ 0 then fs.setPermissions path mode else pure ())).Ends _ _
        by_cases hzero : mode = 0
        · rw [if_neg (not_not.mpr hzero)]
          exact blames_ok ()
        · rw [if_pos hzero]
          exact hmode made

theorem openFile_ends {flags : OpenFlags} (h : BlamesPath W P fs path)
    (hP : ∀ p, P (.ext4Fopen2 .default p flags.toRaw)) :
    (File.openFile fs path flags).run.Ends (Blames W) [] := by
  refine Prog.ends_run_except_bind (fun e he => blames_error (h.refused he)) fun p _ => ?_
  exact fun r => ends_check h (hP p) rfl fun _ => blames_ok _

theorem openDir_ends (h : BlamesPath W P fs path) (hP : ∀ p, P (.ext4DirOpen .default p)) :
    (Dir.openDir fs path).run.Ends (Blames W) [] := by
  refine Prog.ends_run_except_bind (fun e he => blames_error (h.refused he)) fun p _ => ?_
  exact fun r => ends_check h (hP p) rfl fun _ => blames_ok _

/-- Behind the first check `metadata` has what it needs. -/
theorem metadata_ends (h : BlamesPath W P fs path) (hP : ∀ p, P (.ext4ModeGet p 0)) :
    (fs.metadata path).run.Ends (Blames W) [] := by
  refine Prog.ends_run_except_bind (fun e he => blames_error (h.refused he)) fun p _ => ?_
  refine fun mode => ends_check h (hP p) rfl fun _ => ?_
  refine fun owner atime mtime ctime => ?_
  by_cases hregular : Ext4Fs.fileTypeOfMode mode.2 = .regularFile
  · simp only [hregular, if_true]
    exact Prog.ends_run_lift_bind (Prog.ends_of_forall _ fun made size => blames_ok _)
  · simp only [hregular, if_false]
    exact blames_ok _

/-- The operations that name no path. -/
structure BlamesCode (W : List SysEvent → Error → Prop) (P : Call → Prop) : Prop where
  code {made : List SysEvent} {c : Call} {r : Reply c} {e : Error} : P c →
    checkErrno (returnCode c r) = .error e → W (made ++ [⟨c, r⟩]) e

theorem stat_ends (h : BlamesCode W P)
    (hP : ∀ stats, P (.ext4MountPointStats fs.mountPoint stats)) :
    fs.stat.run.Ends (Blames W) made := by
  refine fun r => Prog.ends_run_except_bind (fun e he => ?_) fun _ _ => blames_ok _
  exact blames_error (h.code (hP _) he)

theorem sync_ends (h : BlamesCode W P) (hP : P (.ext4CacheFlush fs.mountPoint)) :
    fs.sync.run.Ends (Blames W) made := by
  intro r e he
  exact h.code hP he

end Operations

/-! ## Files -/

section Files

variable {α : Type} {W : List SysEvent → Error → Prop} {P : Call → Prop} {build : Build}
  {file : File} {made : List SysEvent}

/-- The call of a read that succeeded brings the bytes it tells of. -/
theorem read_ends (h : BlamesCode W P) {buf : Bytes}
    (hP : ∀ inner buf size, P (.ext4Fread inner buf size 0)) :
    (file.read buf).Ends (fun after r => Blames W after r.1 ∧ ∀ n, r.1 = .ok n →
      bytesRead after = bytesRead made ++ r.2.1.take n.toNat) made := by
  rintro ⟨code, inner, out, n⟩
  refine ⟨blames_map _ fun e he => h.code (hP _ _ _) he, ?_⟩
  intro k hk
  rw [bytesRead_concat]
  obtain ⟨rfl, rfl⟩ := checkErrno_map_eq_ok.mp hk
  rfl

/-- The last call of a write that succeeded tells how much was written. -/
theorem write_ends (h : BlamesCode W P) {buf : Bytes}
    (hP : ∀ inner buf size, P (.ext4Fwrite inner buf size 0)) :
    (file.write buf).Ends (fun after r => Blames W after r.1 ∧ ∀ n, r.1 = .ok n →
      after = made ++ [⟨.ext4Fwrite file.inner buf (len buf) 0, ((0 : Int32), r.2.inner, n)⟩])
      made := by
  rintro ⟨code, inner, n⟩
  refine ⟨blames_map _ fun e he => h.code (hP _ _ _) he, ?_⟩
  intro k hk
  obtain ⟨rfl, rfl⟩ := checkErrno_map_eq_ok.mp hk
  rfl

theorem seek_ends (h : BlamesCode W P) {pos : SeekFrom}
    (hP : ∀ inner offset origin, P (.ext4Fseek inner offset origin)) :
    (file.seek pos).Ends (fun after r => Blames W after r.1 ∧ bytesRead after = bytesRead made)
      made := by
  rintro ⟨code, inner⟩
  dsimp only [Prog.bind, Prog.pure_eq]
  have hnone : bytesRead (made ++ [⟨.ext4Fseek file.inner pos.toRaw.1 pos.toRaw.2, code, inner⟩]) =
      bytesRead made := (bytesRead_concat ..).trans (List.append_nil _)
  by_cases hcode : code = 0
  · subst hcode
    exact fun place => ⟨blames_ok _,
      (bytesRead_concat ..).trans ((List.append_nil _).trans hnone)⟩
  · have he := checkErrno_of_ne hcode
    rw [he]
    exact ⟨blames_error (h.code (c := .ext4Fseek _ _ _) (r := (code, inner)) (hP _ _ _) he), hnone⟩

theorem truncate_ends (h : BlamesCode W P) {size : UInt64}
    (hP : ∀ inner, P (.ext4Ftruncate inner size)) :
    (file.truncate size).Ends (fun after r => Blames W after r.1) made :=
  fun r _ he => h.code (c := .ext4Ftruncate _ _) (r := r) (hP _) he

/-- What `read_to_end` appends is what its reads have brought. -/
theorem readChunks_ends (h : BlamesCode W P)
    (hP : ∀ inner buf size, P (.ext4Fread inner buf size 0)) {start : Bytes} {fuel : ℕ}
    {file : File} {buf : ByteVec} {chunk : Bytes} {total : UInt64}
    (hbuf : buf.bytes = start ++ bytesRead made) :
    (File.readChunks build fuel file buf chunk total).Ends (fun after r => Blames W after r.1 ∧
      ∀ n, r.1 = .ok n → r.2.1.bytes = start ++ bytesRead after) made := by
  -- on the rounds that are left
  induction fuel generalizing file buf chunk total made with
  | zero => trivial
  | succ fuel ih =>
      refine Prog.ends_bind ((read_ends h hP).mono ?_)
      rintro after ⟨x, chunk', file'⟩ ⟨hx, hread⟩
      cases x with
      | error e => exact ⟨blames_error (hx e rfl), nofun⟩
      | ok n =>
          have hread := hread n rfl
          dsimp only at hread ⊢
          by_cases hn : n = 0
          · subst hn
            rw [if_pos rfl]
            refine ⟨blames_ok _, fun _ _ => ?_⟩
            rw [hread, show (0 : UInt64).toNat = 0 from rfl, List.take_zero, List.append_nil]
            exact hbuf
          · rw [if_neg hn]
            refine Prog.ends_ofOutcome_bind fun part hpart => ?_
            refine Prog.ends_ofOutcome_bind fun buf' hextend => ?_
            refine Prog.ends_ofOutcome_bind fun _ _ => ih ?_
            rw [ByteVec.bytes_of_extend hextend, bytes_of_sliceRange_zero hpart, hbuf, hread,
              List.append_assoc]

theorem readToEnd_ends (h : BlamesCode W P)
    (hP : ∀ inner buf size, P (.ext4Fread inner buf size 0))
    (hseek : ∀ inner offset origin, P (.ext4Fseek inner offset origin)) {fuel : ℕ}
    {buf : ByteVec} :
    (file.readToEnd build fuel buf).Ends (fun after r => Blames W after r.1 ∧
      ∀ n, r.1 = .ok n → r.2.1.bytes = buf.bytes ++ bytesRead after) [] := by
  refine fun size => Prog.ends_ofOutcome_bind fun _ _ => ?_
  refine Prog.ends_bind ((seek_ends h hseek).mono ?_)
  rintro after ⟨x, file'⟩ ⟨hx, hnone⟩
  cases x with
  | error e => exact ⟨blames_error (hx e rfl), nofun⟩
  | ok n =>
      refine readChunks_ends h hP ?_
      rw [hnone]
      exact (List.append_nil _).symm

/-- The text that is refused is all that was read. -/
theorem readToString_ends (h : BlamesCode W P)
    (hP : ∀ inner buf size, P (.ext4Fread inner buf size 0))
    (hseek : ∀ inner offset origin, P (.ext4Fseek inner offset origin))
    (htext : ∀ made, fromUtf8 (bytesRead made) = none →
      W made (.invalidArgument "file contains invalid UTF-8")) {fuel : ℕ} {text : String} :
    (file.readToString build fuel text).Ends (fun after r => Blames W after r.1) [] := by
  refine Prog.ends_bind ((readToEnd_ends h hP hseek).mono ?_)
  rintro after ⟨x, bytes, file'⟩ ⟨hx, hbytes⟩
  cases x with
  | error e => exact blames_error (hx e rfl)
  | ok n =>
      have hall : bytes.bytes = bytesRead after := hbytes n rfl
      dsimp only
      rw [hall]
      cases hutf : fromUtf8 (bytesRead after) with
      | some text => exact blames_ok _
      | none => exact blames_error (htext after hutf)

theorem writeRest_ends (h : BlamesCode W P)
    (hP : ∀ inner buf size, P (.ext4Fwrite inner buf size 0))
    (hzero : ∀ made inner rest inner', rest ≠ [] → W (made ++
      [⟨.ext4Fwrite inner rest (len rest) 0, ((0 : Int32), inner', (0 : UInt64))⟩]) writeZero)
    {buf : Bytes} {fuel : ℕ} {file : File} {written : UInt64} :
    (File.writeRest build buf fuel file written).Ends (fun after r => Blames W after r.1) made := by
  induction fuel generalizing file written made with
  | zero =>
      unfold File.writeRest
      split
      · trivial
      · exact blames_ok _
  | succ fuel ih =>
      unfold File.writeRest
      by_cases hlt : written < len buf
      · have hle : written.toNat < buf.length := by
          refine (UInt64.lt_iff_toNat_lt.mp hlt).trans_le ?_
          rw [len, UInt64.toNat_ofNat']
          exact Nat.mod_le _ _
        simp only [hlt, if_true]
        refine Prog.ends_ofOutcome_bind fun rest hrest => ?_
        refine Prog.ends_bind ((write_ends h hP).mono ?_)
        rintro after ⟨x, file'⟩ ⟨hx, hlast⟩
        cases x with
        | error e => exact blames_error (hx e rfl)
        | ok n =>
            dsimp only
            by_cases hn : n = 0
            · rw [if_pos hn]
              have hne : rest ≠ [] := by
                rintro rfl
                rw [sliceRange_drop hle.le] at hrest
                exact hle.not_ge (List.drop_eq_nil_iff.mp (Except.ok.inj hrest))
              have hwrite := hlast n rfl
              subst hn
              rw [hwrite]
              exact blames_error (hzero _ _ _ _ hne)
            · rw [if_neg hn]
              exact Prog.ends_ofOutcome_bind fun _ _ => ih
      · simp only [hlt, if_false]
        exact blames_ok _

theorem file_sync_ends (h : BlamesCode W P) (hP : P (.ext4CacheFlush file.fs.mountPoint)) :
    file.sync.Ends (fun after r => Blames W after r.1) made :=
  Prog.ends_bind (sync_ends h hP)

theorem file_metadata_ends (h : BlamesPath W P file.fs file.path)
    (hP : ∀ p, P (.ext4ModeGet p 0)) :
    file.metadata.Ends (fun after r => Blames W after r.1) [] :=
  Prog.ends_bind (metadata_ends h hP)

theorem ends_toIo {α : Type} {op : ApiOp} {client : Client} {x : Except Error α}
    (f : α → ApiValue) (hop : ∀ e, asReturned op e = .io (.wrapped .other e))
    (h : Blames (fun made e => Cause client op made (asReturned op e)) made x) :
    Blames (Cause client op) made ((ofIo (File.toIo x)).map f) := by
  cases x with
  | ok a => exact blames_ok _
  | error e => exact blames_error (hop e ▸ h e rfl)

end Files

/-! ## Clients -/

section Perform

variable {build : Build} {client : Client} {op : ApiOp} {fs : Ext4Fs} {id : UInt64}
  {made : List SysEvent}

theorem makePath_refused (hmp : fs.mountPoint = mountPointOf id) {path : String} {e : Error}
    (h : fs.makePath path = .error e) : ∃ nul, e = .nulError nul ∧ 0 ∈ strBytes path := by
  by_cases hpath : 0 ∈ strBytes path
  · obtain ⟨nul, hnul⟩ := Ext4Fs.makePath_nul hmp hpath
    rw [hnul] at h
    cases h
    exact ⟨nul, rfl, hpath⟩
  · obtain ⟨p, hp, -⟩ := Ext4Fs.makePath_ok hmp hpath
    rw [hp] at h
    cases h

/-- An operation on a path, and what it makes of it. -/
theorem Cause.blamesPath (hmp : fs.mountPoint = mountPointOf id) {path : String}
    (hname : errorPath client op = path) (htext : path ∈ texts client op)
    (hop : ∀ e, asReturned op e = e) : BlamesPath (Cause client op) (Checks op) fs path where
  refused h := by
    obtain ⟨nul, rfl, hpath⟩ := makePath_refused hmp h
    exact .nul htext hpath
  code {made c r e} hc h := by
    subst hname
    have hcause : Cause client op (made ++ [⟨c, r⟩]) (asReturned op e) := .code hc h
    rwa [hop] at hcause

/-- An operation that names no path. -/
theorem Cause.blamesCode (client : Client) (op : ApiOp) (hname : errorPath client op = "") :
    BlamesCode (fun made e => Cause client op made (asReturned op e)) (Checks op) where
  code hc h := by
    rw [checkErrno_eq_withPath, ← hname] at h
    exact .code hc h

theorem ends_answering {α : Type} {W : List SysEvent → Error → Prop} {f : α → ApiValue}
    {p : Sys (Except Error α)} (h : p.Ends (Blames W) made) :
    (answering f p).Ends (Blames W) made :=
  Prog.ends_bind (h.mono fun _ _ hx => blames_map f hx)

theorem fsOp_ends (hmp : client.fs.mountPoint = mountPointOf id) (q : FsOp) :
    (q.perform client.fs).Ends (Blames (Cause client (.fs q))) [] := by
  have hro : ∀ q, ChecksReadOnly (.fs q) → client.fs.readOnly = true →
      Cause client (.fs q) [] .readOnly := fun _ hq hfs => .readOnly hfs hq
  have hpath : ∀ {q path}, errorPath client (.fs q) = path → path ∈ texts client (.fs q) →
      BlamesPath (Cause client (.fs q)) (Checks (.fs q)) client.fs path :=
    fun hname htext => Cause.blamesPath hmp hname htext fun _ => rfl
  have hcode : ∀ q, errorPath client (.fs q) = "" →
      BlamesCode (fun made e => Cause client (.fs q) made (asReturned (.fs q) e))
        (Checks (.fs q)) :=
    fun q hname => Cause.blamesCode client (.fs q) hname
  cases q with
  | isReadOnly => exact blames_ok _
  | stat => exact ends_answering (stat_ends (hcode .stat rfl) fun _ => trivial)
  | mkdir path mode =>
      exact ends_answering (mkdir_ends (hro (.mkdir path mode) trivial)
        (hpath rfl List.mem_cons_self) fun _ => ⟨trivial, trivial⟩)
  | remove path =>
      exact ends_answering (changePath_ends (hro (.remove path) trivial)
        (hpath rfl List.mem_cons_self) fun p r => ⟨[], .ext4Fremove p, r, rfl, trivial, rfl⟩)
  | rmdir path =>
      exact ends_answering (changePath_ends (hro (.rmdir path) trivial)
        (hpath rfl List.mem_cons_self) fun p r => ⟨[], .ext4DirRm p, r, rfl, trivial, rfl⟩)
  | rename src dst =>
      refine ends_answering (changePaths_ends (hro (.rename src dst) trivial)
        (hpath rfl List.mem_cons_self) ?_ fun p q r => ⟨[], .ext4Frename p q, r, rfl, trivial, rfl⟩)
      intro e he
      obtain ⟨nul, rfl, hdst⟩ := makePath_refused hmp he
      exact .nul (List.mem_cons_of_mem _ List.mem_cons_self) hdst
  | link src dst =>
      refine ends_answering (changePaths_ends (hro (.link src dst) trivial)
        (hpath rfl List.mem_cons_self) ?_ fun p q r => ⟨[], .ext4Flink p q, r, rfl, trivial, rfl⟩)
      intro e he
      obtain ⟨nul, rfl, hdst⟩ := makePath_refused hmp he
      exact .nul (List.mem_cons_of_mem _ List.mem_cons_self) hdst
  | symlink target path =>
      refine ends_answering (symlink_ends (hro (.symlink target path) trivial)
        (hpath rfl (List.mem_cons_of_mem _ List.mem_cons_self)) (fun _ _ => trivial) ?_)
      intro e he
      by_cases htarget : 0 ∈ strBytes target
      · exact .nul List.mem_cons_self htarget
      · rw [CString.new_ok htarget] at he
        cases he
  | readlink path =>
      exact ends_answering (readlink_ends (hpath rfl List.mem_cons_self) (fun _ _ _ _ => trivial)
        fun _ _ _ _ _ _ _ hutf => .linkText rfl hutf)
  | existsPath path => exact Prog.ends_bind (Prog.ends_of_forall _ fun _ _ => blames_ok _)
  | isFile path => exact Prog.ends_bind (Prog.ends_of_forall _ fun _ _ => blames_ok _)
  | isDir path => exact Prog.ends_bind (Prog.ends_of_forall _ fun _ _ => blames_ok _)
  | metadata path =>
      exact ends_answering (metadata_ends (hpath rfl List.mem_cons_self) fun _ => trivial)
  | setPermissions path mode =>
      exact ends_answering (changePath_ends (hro (.setPermissions path mode) trivial)
        (hpath rfl List.mem_cons_self) fun p r => ⟨[], .ext4ModeSet p mode, r, rfl, trivial, rfl⟩)
  | setOwner path uid gid =>
      exact ends_answering (changePath_ends (hro (.setOwner path uid gid) trivial)
        (hpath rfl List.mem_cons_self) fun p r =>
          ⟨[], .ext4OwnerSet p uid gid, r, rfl, trivial, rfl⟩)
  | sync => exact ends_answering (sync_ends (hcode .sync rfl) trivial)

theorem ends_answeringWith {α H : Type} {W : List SysEvent → Error → Prop} {f : α → ApiValue}
    {p : Sys (Except Error α × H)} (h : p.Ends (fun after r => Blames W after r.1) made) :
    (answeringWith f p).Ends (fun after r => Blames W after r.1) made :=
  Prog.ends_bind (h.mono fun _ _ hx => blames_map f hx)

theorem ends_answeringFilled {α β H : Type} {W : List SysEvent → Error → Prop}
    {f : α → β → ApiValue} {p : Sys (Except Error α × β × H)}
    (h : p.Ends (fun after r => Blames W after r.1) made) :
    (answeringFilled f p).Ends (fun after r => Blames W after r.1) made :=
  Prog.ends_bind (h.mono fun _ r hx => blames_map (fun a => f a r.2.1) hx)

theorem fileOp_ends {file : File} {handle : ℕ} (hfile : client.file? handle = some file)
    (hmp : file.fs.mountPoint = mountPointOf id) (q : FileOp) :
    (q.perform build file).Ends (fun after r => Blames (Cause client (.file handle q)) after r.1)
      [] := by
  have hcode : ∀ q, errorPath client (.file handle q) = "" →
      BlamesCode (fun made e => Cause client (.file handle q) made (asReturned (.file handle q) e))
        (Checks (.file handle q)) := fun q hname => Cause.blamesCode client (.file handle q) hname
  cases q with
  | read buf =>
      refine ends_answeringFilled ((read_ends (hcode (.read buf) rfl) fun _ _ _ => trivial).mono ?_)
      exact fun _ _ h => h.1
  | write buf =>
      refine ends_answeringWith ((write_ends (hcode (.write buf) rfl) fun _ _ _ => trivial).mono ?_)
      exact fun _ _ h => h.1
  | seek pos =>
      refine ends_answeringWith ((seek_ends (hcode (.seek pos) rfl) fun _ _ _ => trivial).mono ?_)
      exact fun _ _ h => h.1
  | position => exact Prog.ends_bind (Prog.ends_of_forall _ fun _ _ => blames_ok _)
  | size => exact Prog.ends_bind (Prog.ends_of_forall _ fun _ _ => blames_ok _)
  | truncate size =>
      exact ends_answeringWith (truncate_ends (hcode (.truncate size) rfl) fun _ => trivial)
  | flush => exact blames_ok _
  | sync => exact ends_answeringWith (file_sync_ends (hcode .sync rfl) trivial)
  | metadata =>
      have hpath : file.path ∈ texts client (.file handle .metadata) := by
        rw [texts, hfile]
        exact List.mem_cons_self
      have hname : errorPath client (.file handle .metadata) = file.path := by
        rw [errorPath, hfile]
        rfl
      exact ends_answeringWith (file_metadata_ends
        (Cause.blamesPath hmp hname hpath fun _ => rfl) fun _ => trivial)
  | readToEnd fuel buf =>
      rw [FileOp.perform]
      refine ends_answeringFilled ((readToEnd_ends (hcode (.readToEnd fuel buf) rfl)
        (fun _ _ _ => trivial) fun _ _ _ => trivial).mono ?_)
      exact fun _ _ h => h.1
  | readToString fuel text =>
      rw [FileOp.perform]
      exact ends_answeringFilled (readToString_ends (hcode (.readToString fuel text) rfl)
        (fun _ _ _ => trivial) (fun _ _ _ => trivial) fun _ => .fileText rfl)
  | writeAll fuel buf =>
      exact ends_answeringWith (writeRest_ends (hcode (.writeAll fuel buf) rfl)
        (fun _ _ _ => trivial) fun _ _ _ _ hrest => .noProgress rfl hrest)
  | ioRead buf =>
      refine Prog.ends_bind (Prog.ends_bind ?_)
      refine (read_ends (hcode (.ioRead buf) rfl) fun _ _ _ => trivial).mono fun _ r hx => ?_
      exact ends_toIo _ (fun _ => rfl) hx.1
  | ioWrite buf =>
      refine Prog.ends_bind (Prog.ends_bind ?_)
      refine (write_ends (hcode (.ioWrite buf) rfl) fun _ _ _ => trivial).mono fun _ r hx => ?_
      exact ends_toIo _ (fun _ => rfl) hx.1
  | ioFlush => exact blames_ok _
  | ioSeek pos =>
      refine Prog.ends_bind (Prog.ends_bind ?_)
      refine (seek_ends (hcode (.ioSeek pos) rfl) fun _ _ _ => trivial).mono fun _ r hx => ?_
      exact ends_toIo _ (fun _ => rfl) hx.1

/-- An operation that opens a handle. -/
theorem opens_ends {H : Type} {W : List SysEvent → Error → Prop} {q : Sys (Except Error H)}
    {f : Except Error H → Sys (ApiResult × Client)} (hq : q.Ends (Blames W) made)
    (herror : ∀ e, f (.error e) = .done (.error e, client))
    (hok : ∀ handle, ∃ v after, f (.ok handle) = .done (.ok v, after)) :
    (q >>= f).Ends (fun after r => Blames W after r.1) made := by
  refine Prog.ends_bind (hq.mono ?_)
  intro made x hx
  cases x with
  | error e =>
      rw [herror]
      exact blames_error (hx e rfl)
  | ok handle =>
      obtain ⟨v, after, hv⟩ := hok handle
      rw [hv]
      exact blames_ok v

/-- The code of `ext4_dir_entry_next` does not reach the crate. -/
theorem nextEntry_ends {dir : Dir} {handle : ℕ} {W : List SysEvent → Error → Prop} :
    (DirOp.perform dir .nextEntry >>= fun r =>
      pure (r.1, { client with dirs := client.dirs.set handle (some r.2) }) :
        Sys (ApiResult × Client)).Ends (fun after r => Blames W after r.1) made := by
  rintro ⟨entry, inner⟩
  cases entry with
  | none => exact blames_ok _
  | some entry => exact blames_ok _

/-- Every operation of the interface: one that returns an error can account for it. -/
theorem perform_ends (hclient : ClientOf fs client) (hmp : fs.mountPoint = mountPointOf id)
    {p : Sys (ApiResult × Client)} (h : client.perform build op = some p) :
    p.Ends (fun after r => Blames (Cause client op) after r.1) [] := by
  have hfs : client.fs.mountPoint = mountPointOf id := by
    rw [hclient.fs_eq]
    exact hmp
  cases op with
  | fs q =>
      cases h
      exact Prog.ends_bind (fsOp_ends hfs q)
  | openFile path flags =>
      cases h
      have hpath : BlamesPath (Cause client (.openFile path flags)) (Checks (.openFile path flags))
          client.fs path := Cause.blamesPath hfs rfl List.mem_cons_self fun _ => rfl
      exact opens_ends (openFile_ends hpath fun _ => trivial) (fun _ => rfl) fun _ => ⟨_, _, rfl⟩
  | openDir path =>
      cases h
      have hpath : BlamesPath (Cause client (.openDir path)) (Checks (.openDir path))
          client.fs path := Cause.blamesPath hfs rfl List.mem_cons_self fun _ => rfl
      exact opens_ends (openDir_ends hpath fun _ => trivial) (fun _ => rfl) fun _ => ⟨_, _, rfl⟩
  | file handle q =>
      obtain ⟨file, hfile, rfl⟩ := Option.map_eq_some_iff.mp h
      have hmount : file.fs.mountPoint = mountPointOf id := by
        rw [hclient.file? hfile]
        exact hmp
      exact Prog.ends_bind (fileOp_ends hfile hmount q)
  | dir handle q =>
      obtain ⟨dir, -, rfl⟩ := Option.map_eq_some_iff.mp h
      cases q with
      | nextEntry => exact nextEntry_ends
      | next => exact nextEntry_ends
      | rewind => exact fun _ => blames_ok _
  | dropFile handle =>
      obtain ⟨file, -, rfl⟩ := Option.map_eq_some_iff.mp h
      exact Prog.ends_bind (Prog.ends_of_forall _ fun _ _ => blames_ok _)
  | dropDir handle =>
      obtain ⟨dir, -, rfl⟩ := Option.map_eq_some_iff.mp h
      exact Prog.ends_bind (Prog.ends_of_forall _ fun _ _ => blames_ok _)

end Perform

/-! ## Runs -/

/-- The path that an error names. -/
def namedPath : Error → Option String
  | .notFound path | .alreadyExists path | .notADirectory path | .isADirectory path
  | .notEmpty path => some path
  | _ => none

theorem cases_ite {p : Prop} [Decidable p] {a e : Error} {x : Except Error Unit}
    (Q : Error → Prop) (h : (if p then .error a else x) = .error e) (ha : Q a)
    (hx : ¬ p → x = .error e → Q e) : Q e := by
  by_cases hp : p
  · rw [if_pos hp] at h
    cases h
    exact ha
  · rw [if_neg hp] at h
    exact hx hp h

/-- A check names the path it was given, or none. -/
theorem namedPath_of_check {code : Int32} {path : String} {e : Error}
    (h : checkErrnoWithPath code path = .error e) :
    namedPath e = some path ∨ namedPath e = none := by
  rw [checkErrnoWithPath, dif_neg (checkErrnoWithPath_ne_zero h)] at h
  let Names (e : Error) : Prop := namedPath e = some path ∨ namedPath e = none
  refine cases_ite Names h (.inl rfl) fun h1 h => ?_
  refine cases_ite Names h (.inl rfl) fun h2 h => ?_
  refine cases_ite Names h (.inl rfl) fun h3 h => ?_
  refine cases_ite Names h (.inl rfl) fun h4 h => ?_
  refine cases_ite Names h (.inl rfl) fun h5 h => ?_
  -- the codes that come with a path are behind
  rw [Error.fromErrno, if_neg h1, if_neg h2, if_neg h3, if_neg h4, if_neg h5] at h
  cases h
  right
  simp only [apply_ite namedPath]
  simp only [namedPath, ite_self]

theorem unwrapIo_asReturned {op : ApiOp} {e : Error} (h : unwrapIo e = e) :
    unwrapIo (asReturned op e) = e := by
  unfold asReturned
  split
  · rfl
  · rfl
  · rfl
  · exact h

/-- The error of an operation, without what `std::io` puts around it, names no
path but the one the operation was given. -/
theorem Cause.namedPath_eq {client : Client} {op : ApiOp} {made : List SysEvent} {err : Error}
    {q : String} (h : Cause client op made err) (hq : namedPath (unwrapIo err) = some q) :
    q = errorPath client op := by
  cases h with
  | @code made c r e hc hcheck =>
      have hmade : MadeOf (returnCode c r) e := .inr ⟨_, hcheck.symm⟩
      have hnamed : namedPath e = some q := by
        rwa [unwrapIo_asReturned hmade.unwrapIo_eq] at hq
      rcases namedPath_of_check hcheck with hpath | hnone
      · exact Option.some.inj (hnamed.symm.trans hpath)
      · rw [hnone] at hnamed
        cases hnamed
  | readOnly _ _ => cases hq
  | nul _ _ => cases hq
  | linkText _ _ => cases hq
  | fileText _ _ => cases hq
  | noProgress _ _ => cases hq

section Run

variable {build : Build} {E : Environment Call Reply} {fs : Ext4Fs} {id : UInt64}
  {a b : Option Client × E.State} {client : Client} {s : E.State} {performed : List Performed}
  {e : Performed} {err : Error}

theorem step_cause (h : Client.Step build E (some client, s) e b) (hclient : ClientOf fs client)
    (hmp : fs.mountPoint = mountPointOf id) (herr : e.outcome = .ok (.error err)) :
    Cause client e.op e.trace err := by
  cases h with
  | @returned _ client' _ _ op p tr result hp hexec =>
      have hends : p.Ends (fun after r => Blames (Cause client op) after r.1) [] :=
        perform_ends hclient hmp hp
      exact hends.of_exec hexec err (Except.ok.inj herr)
  | halted hp hexec => cases herr

/-- Whatever a client has done before: where an operation returns an error, a
call it made is why, or an argument for which it made none; and no other path
is named than the one it was given. -/
theorem errors_have_causes (hmp : fs.mountPoint = mountPointOf id) (ha : Serves fs a)
    (h : Runs (Client.Step build E) a performed (some client, s))
    (hstep : Client.Step build E (some client, s) e b) (herr : e.outcome = .ok (.error err)) :
    Cause client e.op e.trace err ∧
      ∀ path, namedPath (unwrapIo err) = some path → path = errorPath client e.op := by
  have hserves : Serves fs (some client, s) :=
    h.invariant (I := Serves fs) (fun _ _ _ => step_serves) ha
  have hcause := step_cause hstep (hserves client rfl) hmp herr
  exact ⟨hcause, fun _ => hcause.namedPath_eq⟩

end Run

/-- A lookup that finds nothing. -/
theorem errors_have_causes_missing : ∃ p, sampleFs.makePath "log" = .ok p ∧
    Cause (.mounted sampleFs) (.fs (.metadata "log")) [⟨.ext4ModeGet p 0, (ENOENT, 0)⟩]
      (.notFound "log") ∧
    ∀ path, namedPath (unwrapIo (.notFound "log")) = some path → path = "log" := by
  obtain ⟨p, hp⟩ := sampleFs_log
  have hmp : sampleFs.mountPoint = mountPointOf 4 := rfl
  have hcheck : checkErrnoWithPath ENOENT "log" = .error (.notFound "log") := by decide
  exact ⟨p, hp, errors_have_causes hmp (serves_mounted _) (.nil _) (metadata_failed hp hcheck) rfl⟩

end Ext4Lwext4.Metatheory
