import Ext4Lwext4.Metatheory.MetadataReports

/-! # Symbolic links

`symlink` hands lwext4 the whole target. `readlink` offers a buffer of 4096
bytes and takes what lwext4 puts in it for the target, also where there was
more: ext4 stores targets up to the block size, which may be larger. -/

namespace Ext4Lwext4.Metatheory

open Ext4Lwext4.Framework Ext4Lwext4.Model

/-- What is asked of lwext4 on a filesystem with blocks of `blockSize` bytes:
it takes any target that fits in one, stores its bytes, and copies as many of
them as fit in the buffer of a reader. `link` is the target stored at a path. -/
structure StoresLinks (E : Environment Call Reply) (blockSize : ℕ)
    (link : E.State → CString → Option Bytes) : Prop where
  accepts {s : E.State} {target path : CString} : link s path = none →
    target.bytes.length ≤ blockSize → ∃ t, E.step s (.ext4Fsymlink target path) (0 : Int32) t
  stores {s t : E.State} {target path : CString} :
    E.step s (.ext4Fsymlink target path) (0 : Int32) t → link t path = some target.bytes
  copies {s t : E.State} {path : CString} {buf target : Bytes} {bufsize rcnt count : UInt64}
    {code : Int32} {out : Filled buf} :
    E.step s (.ext4Readlink path buf bufsize rcnt) (code, out, count) t →
    link s path = some target →
    code = 0 ∧ count.toNat = min target.length bufsize.toNat ∧
      out.val.take count.toNat = target.take count.toNat

variable {E : Environment Call Reply} {s t u : E.State} {tr tr' : List SysEvent} {fs : Ext4Fs}
  {target path : String}

/-! ## The two operations -/

/-- A path with a NUL never becomes a path of lwext4, whatever the mount point. -/
theorem makePath_error_of_nul (fs : Ext4Fs) (h : 0 ∈ strBytes path) :
    ∃ e, fs.makePath path = .error e := by
  unfold Ext4Fs.makePath
  split
  · exact ⟨_, rfl⟩
  · rename_i mountPoint _
    have hnul : 0 ∈ strBytes (mountPoint ++ stripSlash path) := by
      rw [strBytes_append]
      exact List.mem_append_right _ ((zero_mem_stripSlash path).mpr h)
    dsimp only
    rw [CString.new_error hnul]
    exact ⟨_, rfl⟩

/-- `symlink` refuses before it calls lwext4, or hands on what it was given and
returns what lwext4 answers. -/
theorem symlink_exec {o : Outcome (Except Error Unit)}
    (h : Exec E (fs.symlink target path).run s tr o t) :
    (tr = [] ∧ t = s ∧ ∃ e, o = .ok (.error e)) ∨
    ∃ (hnul : 0 ∉ strBytes target) (p : CString) (code : Int32), fs.makePath path = .ok p ∧
      tr = [⟨.ext4Fsymlink ⟨strBytes target, hnul⟩ p, code⟩] ∧
      E.step s (.ext4Fsymlink ⟨strBytes target, hnul⟩ p) code t ∧
      o = .ok (checkErrnoWithPath code path) := by
  unfold Ext4Fs.symlink at h
  cases hro : fs.readOnly with
  | true =>
      rw [hro] at h
      obtain ⟨rfl, rfl, rfl⟩ := Exec.done_iff.mp h
      exact .inl ⟨rfl, rfl, _, rfl⟩
  | false =>
      rw [hro] at h
      by_cases hnul : 0 ∈ strBytes target
      · rw [CString.new_error hnul] at h
        obtain ⟨rfl, rfl, rfl⟩ := Exec.done_iff.mp h
        exact .inl ⟨rfl, rfl, _, rfl⟩
      · rw [CString.new_ok hnul] at h
        cases hp : fs.makePath path with
        | error e =>
            rw [hp] at h
            obtain ⟨rfl, rfl, rfl⟩ := Exec.done_iff.mp h
            exact .inl ⟨rfl, rfl, _, rfl⟩
        | ok p =>
            rw [hp] at h
            obtain ⟨code, u, tr, rfl, hstep, h⟩ := exec_run_request_bind h
            rw [run_except] at h
            obtain ⟨rfl, rfl, rfl⟩ := Exec.done_iff.mp h
            exact .inr ⟨hnul, p, code, rfl, rfl, hstep, rfl⟩

/-- What `readlink` makes of the bytes it is left with. -/
def linkText (bytes : Bytes) : Except Error String :=
  match fromUtf8 bytes with
  | some target => .ok target
  | none => .error (.invalidArgument "invalid UTF-8 in symlink")

theorem readlink_exec {p : CString} (hp : fs.makePath path = .ok p)
    {o : Outcome (Except Error String)} (h : Exec E (fs.readlink path).run s tr o t) :
    ∃ (code : Int32) (out : Filled (List.replicate 4096 (0 : UInt8))) (count : UInt64),
      E.step s (.ext4Readlink p (List.replicate 4096 0) (len (List.replicate 4096 0)) 0)
        (code, out, count) t ∧
      o = .ok (checkErrnoWithPath code path >>= fun _ => linkText (out.val.take count.toNat)) := by
  unfold Ext4Fs.readlink at h
  rw [run_except_bind, hp] at h
  obtain ⟨⟨code, out, count⟩, u, tr, rfl, hstep, h⟩ := exec_run_request_bind h
  refine ⟨code, out, count, ?_⟩
  simp only [run_except_bind] at h
  cases hcheck : checkErrnoWithPath code path with
  | error e =>
      rw [hcheck] at h
      obtain ⟨rfl, rfl, rfl⟩ := Exec.done_iff.mp h
      exact ⟨hstep, rfl⟩
  | ok _ =>
      rw [hcheck] at h
      dsimp only at h
      unfold linkText
      cases hutf : fromUtf8 (out.val.take count.toNat) with
      | some text =>
          rw [hutf] at h
          obtain ⟨rfl, rfl, rfl⟩ := exec_run_ok h
          exact ⟨hstep, rfl⟩
      | none =>
          rw [hutf] at h
          obtain ⟨rfl, rfl, rfl⟩ := exec_run_error h
          exact ⟨hstep, rfl⟩

/-! ## There and back -/

theorem linkText_strBytes (text : String) : linkText (strBytes text) = .ok text := by
  rw [linkText, fromUtf8_strBytes]

theorem strBytes_of_linkText {bytes : Bytes} {text : String} (h : linkText bytes = .ok text) :
    strBytes text = bytes := by
  unfold linkText at h
  cases hutf : fromUtf8 bytes with
  | some text' =>
      rw [hutf] at h
      cases h
      exact strBytes_of_fromUtf8 hutf
  | none =>
      rw [hutf] at h
      cases h

theorem fromUtf8_of_linkText {bytes : Bytes} {text : String} (h : linkText bytes = .ok text) :
    fromUtf8 bytes = some text := by
  rw [← strBytes_of_linkText h, fromUtf8_strBytes]

section StoresLinks

variable {blockSize : ℕ} {link : E.State → CString → Option Bytes}

/-- `readlink` returns what is stored as far as its buffer goes. -/
theorem readlink_stored (hE : StoresLinks E blockSize link) {p : CString}
    (hp : fs.makePath path = .ok p) {bytes : Bytes} (hlink : link s p = some bytes)
    {o : Outcome (Except Error String)} (h : Exec E (fs.readlink path).run s tr o t) :
    o = .ok (linkText (bytes.take 4096)) := by
  obtain ⟨code, out, count, hstep, rfl⟩ := readlink_exec hp h
  obtain ⟨rfl, hcount, hout⟩ := hE.copies hstep hlink
  have hsize : (len (List.replicate 4096 (0 : UInt8))).toNat = 4096 := by
    rw [toNat_len (by rw [List.length_replicate]; decide), List.length_replicate]
  have htake : bytes.take (min bytes.length 4096) = bytes.take 4096 := by
    rw [List.take_eq_take_iff]
    omega
  have hcheck : checkErrnoWithPath 0 path = .ok () := checkErrnoWithPath_eq_ok.mpr rfl
  rw [hcheck, hout, hcount, hsize, htake]
  rfl

/-- A `symlink` that returned `Ok` stored the target. -/
theorem stored_of_symlink (hE : StoresLinks E blockSize link)
    (h : Exec E (fs.symlink target path).run s tr (.ok (.ok ())) t) :
    ∃ p, fs.makePath path = .ok p ∧ link t p = some (strBytes target) := by
  rcases symlink_exec h with ⟨-, -, e, ho⟩ | ⟨hnul, p, code, hp, -, hstep, ho⟩
  · cases ho
  · have hcode : code = 0 := checkErrnoWithPath_eq_ok.mp (Except.ok.inj ho).symm
    subst hcode
    exact ⟨p, hp, hE.stores hstep⟩

theorem readlink_symlink_iff (hE : StoresLinks E blockSize link)
    (hsymlink : Exec E (fs.symlink target path).run s tr (.ok (.ok ())) t)
    {o : Outcome (Except Error String)} (hreadlink : Exec E (fs.readlink path).run t tr' o u) :
    o = .ok (.ok target) ↔ (strBytes target).length ≤ 4096 := by
  obtain ⟨p, hp, hlink⟩ := stored_of_symlink hE hsymlink
  rw [readlink_stored hE hp hlink hreadlink]
  constructor
  · intro h
    -- what was cut to the buffer is no longer than the buffer
    have hbytes := strBytes_of_linkText (Except.ok.inj h)
    rw [hbytes, List.length_take]
    exact Nat.min_le_left _ _
  · intro hle
    rw [List.take_of_length_le hle, linkText_strBytes]

theorem symlink_succeeds (hE : StoresLinks E blockSize link) {p : CString}
    (hro : fs.readOnly = false) (hnul : 0 ∉ strBytes target) (hp : fs.makePath path = .ok p)
    (hfree : link s p = none) (hle : (strBytes target).length ≤ blockSize) :
    ∃ t, Exec E (fs.symlink target path).run s
      [⟨.ext4Fsymlink ⟨strBytes target, hnul⟩ p, (0 : Int32)⟩] (.ok (.ok ())) t := by
  have haccepts : ∃ t, E.step s (.ext4Fsymlink ⟨strBytes target, hnul⟩ p) (0 : Int32) t :=
    hE.accepts hfree hle
  obtain ⟨t, hstep⟩ := haccepts
  refine ⟨t, ?_⟩
  unfold Ext4Fs.symlink
  rw [hro, CString.new_ok hnul, hp]
  refine .call hstep ?_
  show Exec E (ExceptT.run (liftM (checkErrnoWithPath 0 path))) t [] _ t
  rw [run_except, checkErrnoWithPath_eq_ok.mpr rfl]
  exact .done _ _

end StoresLinks

/-- Over a lwext4 that stores targets up to its block size. A `readlink` that
follows a successful `symlink` returns the target exactly when that is at most
4096 bytes; every target up to the block size gets so far; and a target or path
with a NUL is refused before lwext4 is called. -/
theorem readlink_undoes_symlink_iff {E : Environment Call Reply} {blockSize : ℕ}
    {link : E.State → CString → Option Bytes} (hE : StoresLinks E blockSize link) (fs : Ext4Fs)
    (target path : String) :
    (∀ s t u tr tr' o, Exec E (fs.symlink target path).run s tr (.ok (.ok ())) t →
      Exec E (fs.readlink path).run t tr' o u →
      (o = .ok (.ok target) ↔ (strBytes target).length ≤ 4096)) ∧
    (∀ s p, fs.readOnly = false → 0 ∉ strBytes target → fs.makePath path = .ok p →
      link s p = none → (strBytes target).length ≤ blockSize →
      ∃ tr t, Exec E (fs.symlink target path).run s tr (.ok (.ok ())) t) ∧
    (0 ∈ strBytes target ∨ 0 ∈ strBytes path → ∀ s t tr o,
      Exec E (fs.symlink target path).run s tr o t →
        tr = [] ∧ t = s ∧ ∃ e, o = .ok (.error e)) := by
  refine ⟨?_, ?_, ?_⟩
  · intro s t u tr tr' o hsymlink hreadlink
    exact readlink_symlink_iff hE hsymlink hreadlink
  · intro s p hro hnul hp hfree hle
    obtain ⟨t, h⟩ := symlink_succeeds hE hro hnul hp hfree hle
    exact ⟨_, t, h⟩
  · intro hzero s t tr o h
    rcases symlink_exec h with hrefused | ⟨hnul, p, code, hp, -⟩
    · exact hrefused
    · rcases hzero with htarget | hpath
      · exact absurd htarget hnul
      · obtain ⟨e, he⟩ := makePath_error_of_nul fs hpath
        cases hp.symm.trans he

/-! ## Blocks of 64 KiB -/

/-- lwext4 as it is assumed to be, with nothing but links. -/
def linkLwext4 (blockSize : ℕ) : Environment Call Reply where
  State := CString → Option Bytes
  step s c r t :=
    match c, r with
    | .ext4Fsymlink target path, code =>
        (code = 0 ∧ s path = none ∧ target.bytes.length ≤ blockSize ∧
          t = Function.update s path (some target.bytes)) ∨ (code ≠ 0 ∧ t = s)
    | .ext4Readlink path _ bufsize _, r =>
        t = s ∧ ∀ target, s path = some target → r.1 = (0 : Int32) ∧
          r.2.2.toNat = min target.length bufsize.toNat ∧
          r.2.1.val.take r.2.2.toNat = target.take r.2.2.toNat
    | _, _ => t = s

theorem linkLwext4_stores (blockSize : ℕ) :
    StoresLinks (linkLwext4 blockSize) blockSize fun s path => s path where
  accepts hfree hle := ⟨_, .inl ⟨rfl, hfree, hle, rfl⟩⟩
  stores := by
    rintro s t target path (⟨-, -, -, rfl⟩ | ⟨hne, -⟩)
    · exact Function.update_self _ _ _
    · exact absurd rfl hne
  copies h hlink := h.2 _ hlink

/-- A buffer after the bytes of a link were copied to its front. -/
def copied (bytes buf : Bytes) : Filled buf :=
  ⟨bytes.take buf.length ++ buf.drop bytes.length, by
    rw [List.length_append, List.length_take, List.length_drop]
    omega⟩

theorem take_copied {bytes buf : Bytes} {n : ℕ} (h : n ≤ min bytes.length buf.length) :
    (copied bytes buf).val.take n = bytes.take n := by
  have hn : n ≤ (bytes.take buf.length).length := by
    rw [List.length_take]
    omega
  rw [copied, List.take_append_of_le_length hn, List.take_take]
  congr 1
  omega

theorem readlink_run {blockSize : ℕ} {p : CString} {text : String} {bytes : Bytes}
    {s : CString → Option Bytes} (hp : fs.makePath path = .ok p) (hlink : s p = some bytes)
    (htext : linkText (bytes.take 4096) = .ok text) :
    ∃ tr, Exec (linkLwext4 blockSize) (fs.readlink path).run s tr (.ok (.ok text)) s := by
  have hlen : (List.replicate 4096 (0 : UInt8)).length = 4096 := List.length_replicate
  have hsize : (len (List.replicate 4096 (0 : UInt8))).toNat = 4096 := by
    rw [toNat_len (by rw [hlen]; decide), hlen]
  have hcount : (UInt64.ofNat (min bytes.length 4096)).toNat = min bytes.length 4096 := by
    rw [UInt64.toNat_ofNat']
    omega
  have hout : (copied bytes (List.replicate 4096 0)).val.take (min bytes.length 4096) =
      bytes.take (min bytes.length 4096) := take_copied (by rw [hlen])
  have hstep : (linkLwext4 blockSize).step s
      (.ext4Readlink p (List.replicate 4096 0) (len (List.replicate 4096 0)) 0)
      ((0 : Int32), copied bytes (List.replicate 4096 0), UInt64.ofNat (min bytes.length 4096))
      s := by
    refine ⟨rfl, ?_⟩
    intro target htarget
    cases hlink.symm.trans htarget
    refine ⟨rfl, ?_, ?_⟩
    · rw [hcount, hsize]
    · rw [hcount, hout]
  have htake : bytes.take (min bytes.length 4096) = bytes.take 4096 := by
    rw [List.take_eq_take_iff]
    omega
  unfold Ext4Fs.readlink
  rw [run_except_bind, hp]
  refine ⟨[⟨.ext4Readlink p (List.replicate 4096 0) (len (List.replicate 4096 0)) 0,
    ((0 : Int32), copied bytes (List.replicate 4096 0), UInt64.ofNat (min bytes.length 4096))⟩],
    .call hstep ?_⟩
  show Exec (linkLwext4 blockSize) (ExceptT.run (liftM (checkErrnoWithPath 0 path) >>= _)) s [] _ s
  have hcheck : checkErrnoWithPath 0 path = .ok () := checkErrnoWithPath_eq_ok.mpr rfl
  rw [run_except_bind, hcheck]
  dsimp only
  rw [hcount, hout, htake, fromUtf8_of_linkText htext]
  exact .done _ _

/-- A path of `n` bytes. -/
def pathOf (n : ℕ) : String := String.ofList (List.replicate n 'a')

theorem strBytes_pathOf (n : ℕ) : strBytes (pathOf n) = List.replicate n 97 := by
  rw [pathOf, strBytes_ofList]
  induction n with
  | zero => rfl
  | succ n ih =>
      rw [List.replicate_succ, List.flatMap_cons, ih, List.replicate_succ]
      rfl

theorem zero_notMem_pathOf (n : ℕ) : 0 ∉ strBytes (pathOf n) := by
  rw [strBytes_pathOf]
  intro h
  exact absurd (List.eq_of_mem_replicate h) (by decide)

theorem pathOf_length (n : ℕ) : (strBytes (pathOf n)).length = n := by
  rw [strBytes_pathOf, List.length_replicate]

/-- A target of more than 4096 bytes is returned without its end. -/
theorem long_target_run {blockSize n : ℕ} (hlong : 4096 < n) (hle : n ≤ blockSize) :
    ∃ tr tr' t, Exec (linkLwext4 blockSize) (sampleFs.symlink (pathOf n) "log").run
        (fun _ => none) tr (.ok (.ok ())) t ∧
      Exec (linkLwext4 blockSize) (sampleFs.readlink "log").run t tr'
        (.ok (.ok (pathOf 4096))) t ∧ pathOf 4096 ≠ pathOf n := by
  obtain ⟨p, hp⟩ := sampleFs_log
  have hfits : (strBytes (pathOf n)).length ≤ blockSize := by
    rw [pathOf_length]
    exact hle
  obtain ⟨t, hsymlink⟩ := symlink_succeeds (linkLwext4_stores blockSize) (s := fun _ => none)
    rfl (zero_notMem_pathOf n) hp rfl hfits
  obtain ⟨q, hq, hlink⟩ := stored_of_symlink (linkLwext4_stores blockSize) hsymlink
  have htext : linkText ((strBytes (pathOf n)).take 4096) = .ok (pathOf 4096) := by
    rw [strBytes_pathOf, List.take_replicate, Nat.min_eq_left hlong.le, ← strBytes_pathOf,
      linkText_strBytes]
  obtain ⟨tr, hreadlink⟩ := readlink_run hq hlink htext
  refine ⟨_, tr, t, hsymlink, hreadlink, ?_⟩
  intro heq
  have hlen := congrArg (fun text => (strBytes text).length) heq
  simp only [pathOf_length] at hlen
  omega

/-- Blocks of 64 KiB hold a target of 4097 bytes, and `readlink` returns all
but the last. -/
theorem long_target_cut :
    ∃ tr tr' t, Exec (linkLwext4 65536) (sampleFs.symlink (pathOf 4097) "log").run
        (fun _ => none) tr (.ok (.ok ())) t ∧
      Exec (linkLwext4 65536) (sampleFs.readlink "log").run t tr'
        (.ok (.ok (pathOf 4096))) t ∧ pathOf 4096 ≠ pathOf 4097 :=
  long_target_run (by decide) (by decide)

/-- A target that fits the buffer comes back. -/
theorem readlink_undoes_symlink_short :
    ∃ tr tr' t, Exec (linkLwext4 1024) (sampleFs.symlink "a" "log").run (fun _ => none) tr
        (.ok (.ok ())) t ∧
      Exec (linkLwext4 1024) (sampleFs.readlink "log").run t tr' (.ok (.ok "a")) t ∧
      (strBytes "a").length ≤ 4096 := by
  obtain ⟨p, hp⟩ := sampleFs_log
  obtain ⟨hback, hgets, -⟩ :=
    readlink_undoes_symlink_iff (linkLwext4_stores 1024) sampleFs "a" "log"
  obtain ⟨tr, t, hsymlink⟩ := hgets (fun _ => none) p rfl (by decide) hp rfl (by decide)
  obtain ⟨q, hq, hlink⟩ := stored_of_symlink (linkLwext4_stores 1024) hsymlink
  have htext : linkText ((strBytes "a").take 4096) = .ok "a" := linkText_strBytes "a"
  obtain ⟨tr', hreadlink⟩ := readlink_run hq hlink htext
  exact ⟨tr, tr', t, hsymlink, hreadlink, (hback _ _ _ _ _ _ hsymlink hreadlink).mp rfl⟩

end Ext4Lwext4.Metatheory
