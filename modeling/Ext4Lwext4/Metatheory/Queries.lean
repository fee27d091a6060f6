import Ext4Lwext4.Metatheory.Mkdir
import Ext4Lwext4.Metatheory.Namespace
import Ext4Lwext4.Metatheory.Symlinks

/-! # Queries follow the history

What a path names is what the changes have made of it, and the changes are
those the client was told of. So the answer to a query can be foretold from
the results alone, and attributes that were set are read back. -/

namespace Ext4Lwext4.Metatheory

open Ext4Lwext4.Framework Ext4Lwext4.Model

/-! ## Inodes -/

/-- What the queries show of an inode. -/
structure Inode where
  mode : UInt32
  uid : UInt32
  gid : UInt32
  /-- of a symbolic link -/
  target : Bytes
  deriving DecidableEq

def Inode.fileType (i : Inode) : FileType := Ext4Fs.fileTypeOfMode i.mode

/-- What is asked of the getters of lwext4: on success they tell of the inode
of the path, and `ENOENT` is for a path that names none, or none of the type
that was asked for. -/
structure AnswersFrom {N : Type*} (E : Environment Call Reply) (obs : E.State → N)
    (look : N → CString → Option Inode) : Prop where
  modeGet {s t : E.State} {p : CString} {arg mode : UInt32} :
    E.step s (.ext4ModeGet p arg) ((0 : Int32), mode) t →
    ∃ i, look (obs s) p = some i ∧ mode = i.mode
  missing {s t : E.State} {p : CString} {arg mode : UInt32} :
    E.step s (.ext4ModeGet p arg) (ENOENT, mode) t → look (obs s) p = none
  ownerGet {s t : E.State} {p : CString} {u g uid gid : UInt32} :
    E.step s (.ext4OwnerGet p u g) ((0 : Int32), uid, gid) t →
    ∃ i, look (obs s) p = some i ∧ uid = i.uid ∧ gid = i.gid
  inodeExist {s t : E.State} {p : CString} {type : FileType} :
    E.step s (.ext4InodeExist p type.toRaw.toUInt32.toInt32) (0 : Int32) t →
    ∃ i, look (obs s) p = some i ∧ i.fileType = type
  inodeMissing {s t : E.State} {p : CString} {type : FileType} :
    E.step s (.ext4InodeExist p type.toRaw.toUInt32.toInt32) ENOENT t →
    ∀ i, look (obs s) p = some i → i.fileType ≠ type
  readlink {s t : E.State} {p : CString} {buf : Bytes} {size rcnt count : UInt64}
    {out : Filled buf} : E.step s (.ext4Readlink p buf size rcnt) ((0 : Int32), out, count) t →
    ∃ i, look (obs s) p = some i ∧ out.val.take count.toNat = i.target.take size.toNat

/-- No call failed but for want of what it was asked for. -/
def OnlyMissing (tr : List SysEvent) : Prop :=
  ∀ ev ∈ tr, Failed ev → returnCode ev.1 ev.2 = ENOENT

/-- What a result says of the inodes. The owner is behind a code that
`metadata` does not look at, and `false` is the answer to every failure. -/
def Truthful (fs : Ext4Fs) (look : CString → Option Inode) (e : Performed) : Prop :=
  match e.op, e.outcome with
  | .fs (.metadata path), .ok (.ok (.metadata m)) =>
      ∃ p i, fs.makePath path = .ok p ∧ look p = some i ∧ m.fileType = i.fileType ∧
        m.mode = i.mode &&& 0o7777 ∧
        ((∀ ev ∈ e.trace, ¬ Failed ev) → m.uid = i.uid ∧ m.gid = i.gid)
  | .fs (.metadata path), .ok (.error (.notFound _)) =>
      ∃ p, fs.makePath path = .ok p ∧ look p = none
  | .fs (.existsPath path), .ok (.ok (.bool true)) =>
      ∃ p i, fs.makePath path = .ok p ∧ look p = some i
  | .fs (.existsPath path), .ok (.ok (.bool false)) => OnlyMissing e.trace →
      ∀ p, fs.makePath path = .ok p → look p = none
  | .fs (.isFile path), .ok (.ok (.bool true)) =>
      ∃ p i, fs.makePath path = .ok p ∧ look p = some i ∧ i.fileType = .regularFile
  | .fs (.isFile path), .ok (.ok (.bool false)) => OnlyMissing e.trace →
      ∀ p, fs.makePath path = .ok p → ∀ i, look p = some i → i.fileType ≠ .regularFile
  | .fs (.isDir path), .ok (.ok (.bool true)) =>
      ∃ p i, fs.makePath path = .ok p ∧ look p = some i ∧ i.fileType = .directory
  | .fs (.isDir path), .ok (.ok (.bool false)) => OnlyMissing e.trace →
      ∀ p, fs.makePath path = .ok p → ∀ i, look p = some i → i.fileType ≠ .directory
  | .fs (.readlink path), .ok (.ok (.text target)) =>
      ∃ p i, fs.makePath path = .ok p ∧ look p = some i ∧ strBytes target = i.target.take 4096
  | _, _ => True

/-! ## The queries -/

section Queries

variable {N : Type*} {E : Environment Call Reply} {obs : E.State → N}
  {look : N → CString → Option Inode} {effect : N → Call → N} {fs : Ext4Fs} {path : String}
  {s t : E.State} {tr : List SysEvent}

theorem answering_exec {α : Type} {f : α → ApiValue} {p : Sys (Except Error α)}
    {result : ApiResult} (h : Exec E (answering f p) s tr (.ok result) t) :
    ∃ x : Except Error α, result = x.map f ∧ Exec E p s tr (.ok x) t := by
  obtain ⟨x, u, tr₁, tr₂, rfl, hrun, hdone⟩ := h.bind_ok
  obtain ⟨rfl, ⟨⟩, rfl⟩ := Exec.done_iff.mp hdone
  rw [List.append_nil]
  exact ⟨x, rfl, hrun⟩

/-- What is left of a run behind its first call. -/
theorem exec_uncons {α : Type} {p : Sys α} {c : Call} {r : Reply c} {o : Outcome α}
    (h : Exec E p s (⟨c, r⟩ :: tr) o t) :
    ∃ (rest : Sys α) (u : E.State), E.step s c r u ∧ Exec E rest u tr o t := by
  cases h with
  | call hstep hrest => exact ⟨_, _, hstep, hrest⟩

/-- `ENOENT` is the only code that becomes `NotFound`. -/
theorem check_notFound {code : Int32} {q : String}
    (h : checkErrnoWithPath code path = .error (.notFound q)) : code = ENOENT := by
  have hne := checkErrnoWithPath_ne_zero h
  by_contra hcode
  rw [checkErrnoWithPath, dif_neg hne, if_neg hcode] at h
  refine absurd h ?_
  iterate 4 refine ite_ne_of nofun ?_
  intro h
  refine absurd (Except.error.inj h) ?_
  rw [Error.fromErrno, if_neg hcode]
  repeat refine ite_ne_of nofun ?_
  exact nofun

theorem makePath_ne_notFound {q : String} : fs.makePath path ≠ .error (.notFound q) := by
  unfold Ext4Fs.makePath
  cases fromUtf8 fs.mountPoint.bytes with
  | none => nofun
  | some mountPoint =>
      dsimp only
      cases CString.new (strBytes (mountPoint ++ stripSlash path)) with
      | ok p => nofun
      | error e => nofun

/-- The first call of `metadata` tells of the inode; so does the second, if it
succeeds. -/
theorem metadata_answers (hN : Observes E changedNames halfRemoved obs effect)
    (hA : AnswersFrom E obs look) {m : Metadata}
    (h : Exec E (fs.metadata path).run s tr (.ok (.ok m)) t) :
    ∃ p i, fs.makePath path = .ok p ∧ look (obs s) p = some i ∧ m.fileType = i.fileType ∧
      m.mode = i.mode &&& 0o7777 ∧
      ((∀ ev ∈ tr, ¬ Failed ev) → m.uid = i.uid ∧ m.gid = i.gid) := by
  obtain ⟨_, ⟨⟩, ⟨-, e, -, ⟨⟩⟩ | ⟨p, hp, htrace⟩⟩ := metadata_trace h
  cases htrace with
  | found mode uid gid atime mtime ctime owner acode mcode ccode hsize =>
      obtain ⟨rest, u, hmode, hrest⟩ := exec_uncons h
      obtain ⟨i, hlook, rfl⟩ := hA.modeGet hmode
      refine ⟨p, i, hp, hlook, rfl, rfl, ?_⟩
      intro hno
      have howner : owner = 0 := by
        by_contra hne
        exact hno _ (List.mem_cons_of_mem _ List.mem_cons_self) hne
      subst howner
      obtain ⟨v, hown⟩ := hrest.head_step
      obtain ⟨j, hlook', rfl, rfl⟩ := hA.ownerGet hown
      -- the first call has changed nothing
      rw [hN.kept rfl rfl hmode, hlook] at hlook'
      cases hlook'
      exact ⟨rfl, rfl⟩

theorem metadata_missing (hA : AnswersFrom E obs look) {q : String}
    (h : Exec E (fs.metadata path).run s tr (.ok (.error (.notFound q))) t) :
    ∃ p, fs.makePath path = .ok p ∧ look (obs s) p = none := by
  obtain ⟨_, ⟨⟩, ⟨-, e, he, ⟨⟩⟩ | ⟨p, hp, htrace⟩⟩ := metadata_trace h
  · exact absurd he makePath_ne_notFound
  · cases htrace with
    | missing mode hcheck =>
        obtain rfl := check_notFound hcheck
        obtain ⟨u, hstep⟩ := h.head_step
        exact ⟨p, hp, hA.missing hstep⟩

theorem inodeExist_answers (hA : AnswersFrom E obs look) {type : FileType}
    (h : Exec E (fs.inodeExist path type) s tr (.ok true) t) :
    ∃ p i, fs.makePath path = .ok p ∧ look (obs s) p = some i ∧ i.fileType = type := by
  unfold Ext4Fs.inodeExist at h
  cases hp : fs.makePath path with
  | error e =>
      rw [hp] at h
      obtain ⟨-, ⟨⟩, -⟩ := Exec.done_iff.mp h
  | ok p =>
      rw [hp] at h
      obtain ⟨code, u, tr', rfl, hstep, h⟩ := Exec.request_bind h
      obtain ⟨rfl, hcode, rfl⟩ := Exec.done_iff.mp h
      obtain rfl : code = 0 := of_decide_eq_true (Except.ok.inj hcode).symm
      obtain ⟨i, hlook, htype⟩ := hA.inodeExist hstep
      exact ⟨p, i, rfl, hlook, htype⟩

/-- `false` without another failure. -/
theorem inodeExist_denies (hA : AnswersFrom E obs look) {type : FileType}
    (h : Exec E (fs.inodeExist path type) s tr (.ok false) t) (hmissing : OnlyMissing tr)
    {p : CString} (hp : fs.makePath path = .ok p) :
    ∀ i, look (obs s) p = some i → i.fileType ≠ type := by
  unfold Ext4Fs.inodeExist at h
  rw [hp] at h
  obtain ⟨code, u, tr', rfl, hstep, h⟩ := Exec.request_bind h
  obtain ⟨rfl, hcode, rfl⟩ := Exec.done_iff.mp h
  have hne : code ≠ 0 := of_decide_eq_false (Except.ok.inj hcode).symm
  obtain rfl : code = ENOENT := hmissing _ List.mem_cons_self hne
  exact hA.inodeMissing hstep

theorem readlink_answers (hA : AnswersFrom E obs look) {target : String}
    (h : Exec E (fs.readlink path).run s tr (.ok (.ok target)) t) :
    ∃ p i, fs.makePath path = .ok p ∧ look (obs s) p = some i ∧
      strBytes target = i.target.take 4096 := by
  cases hp : fs.makePath path with
  | error e =>
      unfold Ext4Fs.readlink at h
      rw [run_except_bind, hp] at h
      obtain ⟨-, ⟨⟩, -⟩ := Exec.done_iff.mp h
  | ok p =>
      obtain ⟨code, out, count, hstep, hout⟩ := readlink_exec hp h
      cases hcheck : checkErrnoWithPath code path with
      | error e =>
          rw [hcheck] at hout
          cases hout
      | ok _ =>
          rw [hcheck] at hout
          obtain rfl := checkErrnoWithPath_eq_ok.mp hcheck
          obtain ⟨i, hlook, htarget⟩ := hA.readlink hstep
          refine ⟨p, i, rfl, hlook, ?_⟩
          rw [strBytes_of_linkText (Except.ok.inj hout).symm, htarget,
            toNat_len (by rw [List.length_replicate]; decide), List.length_replicate]

theorem existsPath_answers (hN : Observes E changedNames halfRemoved obs effect)
    (hA : AnswersFrom E obs look)
    (h : Exec E (fs.existsPath path) s tr (.ok true) t) :
    ∃ p i, fs.makePath path = .ok p ∧ look (obs s) p = some i := by
  obtain ⟨result, u, tr₁, tr₂, rfl, hmeta, hdone⟩ := h.bind_ok
  obtain ⟨-, hok, -⟩ := Exec.done_iff.mp hdone
  cases result with
  | error e => cases hok
  | ok m =>
      obtain ⟨p, i, hp, hlook, -⟩ := metadata_answers hN hA hmeta
      exact ⟨p, i, hp, hlook⟩

/-- `exists` looks at the first code of `metadata` alone. -/
theorem existsPath_denies (hA : AnswersFrom E obs look)
    (h : Exec E (fs.existsPath path) s tr (.ok false) t) (hmissing : OnlyMissing tr)
    {p : CString} (hp : fs.makePath path = .ok p) : look (obs s) p = none := by
  obtain ⟨result, u, tr₁, tr₂, rfl, hmeta, hdone⟩ := h.bind_ok
  obtain ⟨rfl, hno, -⟩ := Exec.done_iff.mp hdone
  rw [List.append_nil] at hmissing
  cases result with
  | ok m => cases hno
  | error err =>
      obtain ⟨_, ⟨⟩, ⟨-, e', he', -⟩ | ⟨q, hq, htrace⟩⟩ := metadata_trace hmeta
      · cases hp.symm.trans he'
      · obtain rfl : p = q := Except.ok.inj (hp.symm.trans hq)
        cases htrace with
        | @missing code mode err hcheck =>
            obtain rfl : code = ENOENT :=
              hmissing _ List.mem_cons_self (checkErrnoWithPath_ne_zero hcheck)
            obtain ⟨v, hstep⟩ := hmeta.head_step
            exact hA.missing hstep

/-- What an operation that returns a `bool` returns. -/
theorem bool_exec {q : Sys Bool} {b : Bool}
    (h : Exec E (q >>= fun b => pure (.ok (.bool b)) : Sys ApiResult) s tr
      (.ok (.ok (.bool b))) t) : Exec E q s tr (.ok b) t := by
  obtain ⟨b', u, tr₁, tr₂, rfl, hrun, hdone⟩ := h.bind_ok
  obtain ⟨rfl, ⟨⟩, rfl⟩ := Exec.done_iff.mp hdone
  rwa [List.append_nil]

/-- The step lemma: a query answers from the state it is made in. -/
theorem step_truthful {build : Build} {client : Client} {e : Performed}
    {b : Option Client × E.State} (hN : Observes E changedNames halfRemoved obs effect)
    (hA : AnswersFrom E obs look) (h : Client.Step build E (some client, s) e b)
    (hfs : client.fs = fs) : Truthful fs (look (obs s)) e := by
  subst hfs
  unfold Truthful
  split
  · rename_i path m hop hout
    have hexec := fsOp_exec h hop
    rw [hout] at hexec
    obtain ⟨x, hx, hmeta⟩ := answering_exec hexec
    cases x with
    | error e => cases hx
    | ok m' =>
        cases hx
        exact metadata_answers hN hA hmeta
  · rename_i path q hop hout
    have hexec := fsOp_exec h hop
    rw [hout] at hexec
    obtain ⟨x, hx, hmeta⟩ := answering_exec hexec
    cases x with
    | ok m => cases hx
    | error e =>
        cases hx
        exact metadata_missing hA hmeta
  · rename_i path hop hout
    have hexec := fsOp_exec h hop
    rw [hout] at hexec
    exact existsPath_answers hN hA (bool_exec hexec)
  · rename_i path hop hout
    have hexec := fsOp_exec h hop
    rw [hout] at hexec
    exact fun hmissing _ hp => existsPath_denies hA (bool_exec hexec) hmissing hp
  · rename_i path hop hout
    have hexec := fsOp_exec h hop
    rw [hout] at hexec
    exact inodeExist_answers hA (bool_exec hexec)
  · rename_i path hop hout
    have hexec := fsOp_exec h hop
    rw [hout] at hexec
    exact fun hmissing _ hp => inodeExist_denies hA (bool_exec hexec) hmissing hp
  · rename_i path hop hout
    have hexec := fsOp_exec h hop
    rw [hout] at hexec
    exact inodeExist_answers hA (bool_exec hexec)
  · rename_i path hop hout
    have hexec := fsOp_exec h hop
    rw [hout] at hexec
    exact fun hmissing _ hp => inodeExist_denies hA (bool_exec hexec) hmissing hp
  · rename_i path target hop hout
    have hexec := fsOp_exec h hop
    rw [hout] at hexec
    obtain ⟨x, hx, hlink⟩ := answering_exec hexec
    cases x with
    | error e => cases hx
    | ok target' =>
        cases hx
        exact readlink_answers hA hlink
  · trivial

end Queries

/-! ## Runs -/

section Run

variable {N : Type*} {build : Build} {E : Environment Call Reply} {obs : E.State → N}
  {look : N → CString → Option Inode} {effect : N → Call → N} {fs : Ext4Fs}
  {a b : Option Client × E.State} {client : Client} {s : E.State} {performed : List Performed}
  {e : Performed}

/-- After any run in which no `mkdir` with a mode and no `rmdir` failed: a query
answers from what the operations that returned `Ok` have made of the namespace. -/
theorem queries_follow_history (hN : Observes E changedNames halfRemoved obs effect)
    (hA : AnswersFrom E obs look) (ha : Serves fs a)
    (h : Runs (Client.Step build E) a performed (some client, s))
    (hopen : ∀ e ∈ performed, ¬ LeavesOpen e)
    (hstep : Client.Step build E (some client, s) e b) :
    Truthful fs (look ((performed.flatMap (told fs)).foldl effect (obs a.2))) e := by
  have hserves : Serves fs (some client, s) :=
    h.invariant (I := Serves fs) (fun _ _ _ => step_serves) ha
  rw [← run_told hN h ha hopen]
  exact step_truthful hN hA hstep (hserves client rfl).fs_eq

end Run

/-! ## Attributes -/

/-- The permission bits and the type of an inode do not mix. -/
theorem permissions_withPermissions (old mode : UInt32) :
    withPermissions old mode &&& 0o7777 = mode &&& 0o7777 := by
  have hmask : ~~~(0o7777 : UInt32) &&& 0o7777 = 0 := by decide
  rw [withPermissions, or_and_distrib, UInt32.and_assoc, hmask, UInt32.and_zero, UInt32.zero_or,
    UInt32.and_assoc, UInt32.and_self]

/-- What the two setters of lwext4 do to the inode of a path. -/
structure SetsAttributes {N : Type*} (look : N → CString → Option Inode) (effect : N → Call → N) :
    Prop where
  mode (n : N) (p : CString) (mode : UInt32) : look (effect n (.ext4ModeSet p mode)) p =
    (look n p).map fun i => { i with mode := withPermissions i.mode mode }
  owner (n : N) (p : CString) (uid gid : UInt32) : look (effect n (.ext4OwnerSet p uid gid)) p =
    (look n p).map fun i => { i with uid, gid }

/-- The operation leaves these permissions at the path. -/
def SetsMode (path : String) (mode : UInt32) : ApiOp → Prop
  | .fs (.setPermissions path' mode') => path' = path ∧ mode' = mode
  | .fs (.mkdir path' mode') => path' = path ∧ mode' = mode ∧ mode ≠ 0
  | _ => False

section ReadBack

variable {N : Type*} {build : Build} {E : Environment Call Reply} {obs : E.State → N}
  {look : N → CString → Option Inode} {effect : N → Call → N} {fs : Ext4Fs}
  {a b : Option Client × E.State} {client : Client} {s : E.State} {after : List Performed}
  {e set : Performed} {path : String} {p : CString}

/-- What leaves a path alone leaves its inode alone. -/
theorem look_foldl {cs : List Call} (hkept : ∀ c ∈ cs, ∀ n, look (effect n c) p = look n p)
    (n : N) : look (cs.foldl effect n) p = look n p := by
  induction cs generalizing n with
  | nil => rfl
  | cons c cs ih =>
      rw [List.foldl_cons, ih (fun c hc => hkept c (List.mem_cons_of_mem _ hc)),
        hkept c List.mem_cons_self]

theorem told_setPermissions {mode : UInt32} {v : ApiValue} (hp : fs.makePath path = .ok p)
    (hop : SetsMode path mode set.op) (hok : set.outcome = .ok (.ok v)) :
    ∃ cs, told fs set = cs ++ [.ext4ModeSet p mode] := by
  obtain ⟨op, outcome, trace⟩ := set
  cases hok
  cases op with
  | fs q =>
      cases q with
      | setPermissions path' mode' =>
          obtain ⟨rfl, rfl⟩ := hop
          refine ⟨[], ?_⟩
          simp only [told, promised, withPath, hp, List.nil_append]
      | mkdir path' mode' =>
          obtain ⟨rfl, rfl, hmode⟩ := hop
          refine ⟨[.ext4DirMk p], ?_⟩
          simp only [told, promised, withPath, hp, if_pos hmode, List.singleton_append]
      | _ => exact hop.elim
  | _ => exact hop.elim

theorem told_setOwner {uid gid : UInt32} {v : ApiValue} (hp : fs.makePath path = .ok p)
    (hop : set.op = .fs (.setOwner path uid gid)) (hok : set.outcome = .ok (.ok v)) :
    told fs set = [.ext4OwnerSet p uid gid] := by
  obtain ⟨op, outcome, trace⟩ := set
  cases hop
  cases hok
  simp only [told, promised, withPath, hp]

end ReadBack

/-! ## A lwext4 that does this -/

/-- The changes, each on the inode of its path alone. -/
def inodeEffect (s : CString → Option Inode) : Call → CString → Option Inode
  | .ext4DirMk p => Function.update s p (some ⟨newDirectoryMode, 0, 0, []⟩)
  | .ext4Fsymlink target p => Function.update s p (some ⟨0o120777, 0, 0, target.bytes⟩)
  | .ext4DirRm p | .ext4Fremove p => Function.update s p none
  | .ext4Frename p q => Function.update (Function.update s p none) q (s p)
  | .ext4Flink p q => Function.update s q (s p)
  | .ext4ModeSet p mode =>
      Function.update s p ((s p).map fun i => { i with mode := withPermissions i.mode mode })
  | .ext4OwnerSet p uid gid => Function.update s p ((s p).map fun i => { i with uid, gid })
  | _ => s

/-- What the getters tell of the inodes. -/
def ShowsInodes (s : CString → Option Inode) : (c : Call) → Reply c → Prop
  | .ext4ModeGet p _, r => r = (s p).elim (ENOENT, 0) fun i => (0, i.mode)
  | .ext4OwnerGet p _ _, r => r = (s p).elim (ENOENT, 0, 0) fun i => (0, i.uid, i.gid)
  | .ext4InodeExist p raw, r => ∀ type : FileType, raw = type.toRaw.toUInt32.toInt32 →
      (r = (0 : Int32) → ∃ i, s p = some i ∧ i.fileType = type) ∧
      (r = ENOENT → ∀ i, s p = some i → i.fileType ≠ type)
  | .ext4Readlink p _ size _, r => r.1 = (0 : Int32) →
      ∃ i, s p = some i ∧ r.2.1.val.take r.2.2.toNat = i.target.take size.toNat
  | _, _ => True

/-- After a removal that failed, anything may be left. -/
def inodesLwext4 : Environment Call Reply where
  State := CString → Option Inode
  step s c r t := ShowsInodes s c r ∧
    (halfRemoved ⟨c, r⟩ = false → t = if changedNames ⟨c, r⟩ then inodeEffect s c else s)

theorem inodesLwext4_observes :
    Observes inodesLwext4 changedNames halfRemoved id inodeEffect where
  changed hc h := (h.2 (changedNames_not_halfRemoved hc)).trans (if_pos hc)
  kept hc hclear h := (h.2 hclear).trans (if_neg (by rw [hc]; exact Bool.false_ne_true))

theorem inodesLwext4_answers : AnswersFrom inodesLwext4 id fun s p => s p where
  modeGet {s t p arg mode} h := by
    have hreply : ((0 : Int32), mode) = (s p).elim (ENOENT, 0) fun i => (0, i.mode) := h.1
    cases hp : s p with
    | none =>
        rw [hp] at hreply
        cases hreply
    | some i =>
        rw [hp] at hreply
        cases hreply
        exact ⟨i, hp, rfl⟩
  missing {s t p arg mode} h := by
    have hreply : (ENOENT, mode) = (s p).elim (ENOENT, 0) fun i => (0, i.mode) := h.1
    cases hp : s p with
    | none => exact hp
    | some i =>
        rw [hp] at hreply
        cases hreply
  ownerGet {s t p u g uid gid} h := by
    have hreply : ((0 : Int32), uid, gid) = (s p).elim (ENOENT, 0, 0) fun i => (0, i.uid, i.gid) :=
      h.1
    cases hp : s p with
    | none =>
        rw [hp] at hreply
        cases hreply
    | some i =>
        rw [hp] at hreply
        cases hreply
        exact ⟨i, hp, rfl, rfl⟩
  inodeExist h := (h.1 _ rfl).1 rfl
  inodeMissing h := (h.1 _ rfl).2 rfl
  readlink h := h.1 rfl

theorem inodesLwext4_sets : SetsAttributes (fun (s : CString → Option Inode) p => s p)
    inodeEffect where
  mode _ _ _ := Function.update_self ..
  owner _ _ _ _ := Function.update_self ..

/-- The calls of `metadata` on a directory, none of which fails. -/
def directoryCalls (p : CString) (i : Inode) : List SysEvent :=
  [⟨.ext4ModeGet p 0, ((0 : Int32), i.mode)⟩, ⟨.ext4OwnerGet p 0 0, ((0 : Int32), i.uid, i.gid)⟩,
    ⟨.ext4AtimeGet p 0, ((0 : Int32), 0)⟩, ⟨.ext4MtimeGet p 0, ((0 : Int32), 0)⟩,
    ⟨.ext4CtimeGet p 0, ((0 : Int32), 0)⟩]

def directoryMetadata (i : Inode) : Metadata :=
  ⟨.directory, 0, 0, i.mode &&& 0o7777, i.uid, i.gid, 0, 0, 0, 1⟩

theorem metadata_directory {s : CString → Option Inode} {p : CString} {i : Inode}
    (hp : sampleFs.makePath "log" = .ok p) (hi : s p = some i) (hdir : i.fileType = .directory) :
    Exec inodesLwext4 (sampleFs.metadata "log").run s (directoryCalls p i)
      (.ok (.ok (directoryMetadata i))) s := by
  have hnot : Ext4Fs.fileTypeOfMode i.mode ≠ .regularFile := by
    rw [show Ext4Fs.fileTypeOfMode i.mode = .directory from hdir]
    decide
  have hmeta : directoryMetadata i =
      ⟨Ext4Fs.fileTypeOfMode i.mode, 0, 0, i.mode &&& 0o7777, i.uid, i.gid, 0, 0, 0, 1⟩ := by
    rw [show Ext4Fs.fileTypeOfMode i.mode = .directory from hdir]
    rfl
  have hmode : inodesLwext4.step s (.ext4ModeGet p 0) ((0 : Int32), i.mode) s :=
    ⟨by show _ = (s p).elim _ _; rw [hi]; rfl, fun _ => rfl⟩
  have howner : inodesLwext4.step s (.ext4OwnerGet p 0 0) ((0 : Int32), i.uid, i.gid) s :=
    ⟨by show _ = (s p).elim _ _; rw [hi]; rfl, fun _ => rfl⟩
  unfold Ext4Fs.metadata
  rw [run_except_bind, hp, hmeta]
  refine .call hmode (.call howner (.call ⟨trivial, fun _ => rfl⟩ (.call ⟨trivial, fun _ => rfl⟩
    (.call ⟨trivial, fun _ => rfl⟩ ?_))))
  simp only [if_neg hnot]
  exact .done _ _

/-- A directory is made with a mode. -/
def madeLog (p : CString) : Performed :=
  ⟨.fs (.mkdir "log" 0o700), .ok (.ok .unit),
    [⟨.ext4DirMk p, (0 : Int32)⟩, ⟨.ext4ModeSet p 0o700, (0 : Int32)⟩]⟩

/-- And another one. -/
def madeTmp (q : CString) : Performed :=
  ⟨.fs (.mkdir "tmp" 0), .ok (.ok .unit), [⟨.ext4DirMk q, (0 : Int32)⟩]⟩

def logInode : Inode := ⟨withPermissions newDirectoryMode 0o700, 0, 0, []⟩

def lookedAtLog (p : CString) : Performed :=
  ⟨.fs (.metadata "log"), .ok (.ok (.metadata (directoryMetadata logInode))),
    directoryCalls p logInode⟩

theorem log_ne_tmp : ∃ p q, sampleFs.makePath "log" = .ok p ∧ sampleFs.makePath "tmp" = .ok q ∧
    p ≠ q := by
  have hmp : sampleFs.mountPoint = mountPointOf 4 := rfl
  obtain ⟨p, hp, hpb⟩ := Ext4Fs.makePath_ok hmp (show 0 ∉ strBytes "log" by decide)
  obtain ⟨q, hq, hqb⟩ := Ext4Fs.makePath_ok hmp (show 0 ∉ strBytes "tmp" by decide)
  refine ⟨p, q, hp, hq, ?_⟩
  rintro rfl
  have htext := List.append_cancel_left (hpb.symm.trans hqb)
  exact absurd htext (by decide)

theorem madeLog_run {p q : CString} (hp : sampleFs.makePath "log" = .ok p)
    (hq : sampleFs.makePath "tmp" = .ok q) (hne : p ≠ q) : ∃ t : CString → Option Inode,
    Runs (Client.Step .checked inodesLwext4) (some (.mounted sampleFs), fun _ => none)
      [madeLog p, madeTmp q] (some (.mounted sampleFs), t) ∧
    Client.Step .checked inodesLwext4 (some (.mounted sampleFs), t) (lookedAtLog p)
      (some (.mounted sampleFs), t) := by
  let made : CString → Option Inode := inodeEffect (fun _ => none) (.ext4DirMk p)
  let withMode : CString → Option Inode := inodeEffect made (.ext4ModeSet p 0o700)
  have hthere : inodeEffect withMode (.ext4DirMk q) p = some logInode := by
    rw [inodeEffect, Function.update_of_ne hne]
    simp [withMode, made, inodeEffect, logInode]
  have hmake : Exec inodesLwext4 (sampleFs.mkdir "log" 0o700).run (fun _ => none)
      [⟨.ext4DirMk p, (0 : Int32)⟩, ⟨.ext4ModeSet p 0o700, (0 : Int32)⟩] (.ok (.ok ())) withMode :=
    mkdir_exec rfl hp (by decide) ⟨trivial, fun _ => rfl⟩ ⟨trivial, fun _ => rfl⟩
  have hother : Exec inodesLwext4 (sampleFs.mkdir "tmp" 0).run withMode
      [⟨.ext4DirMk q, (0 : Int32)⟩] (.ok (.ok ())) (inodeEffect withMode (.ext4DirMk q)) := by
    unfold Ext4Fs.mkdir Ext4Fs.changePath
    simp only [hq]
    exact .call ⟨trivial, fun _ => rfl⟩ (.done _ _)
  have hmade : Exec _ (FsOp.perform sampleFs (.mkdir "log" 0o700)) _ _ _ _ := hmake.bind_done rfl
  have htmp : Exec _ (FsOp.perform sampleFs (.mkdir "tmp" 0)) _ _ _ _ := hother.bind_done rfl
  have hlook := metadata_directory hp hthere (fileType_newDirectory _)
  have hlooked : Exec _ (FsOp.perform sampleFs (.metadata "log")) _ _ _ _ := hlook.bind_done rfl
  exact ⟨_, .cons (.returned rfl (hmade.bind_done rfl)) (.single (.returned rfl
    (htmp.bind_done rfl))), .returned rfl (hlooked.bind_done rfl)⟩

theorem madeTmp_settled {q : CString} : ∀ e ∈ [madeTmp q], ¬ LeavesOpen e := by
  intro e he
  obtain rfl := List.mem_singleton.mp he
  exact not_leavesOpen_of_ok rfl

theorem queries_follow_history_made : ∃ p q, sampleFs.makePath "log" = .ok p ∧
    Truthful sampleFs (([madeLog p, madeTmp q].flatMap (told sampleFs)).foldl inodeEffect
      fun _ => none) (lookedAtLog p) := by
  obtain ⟨p, q, hp, hq, hne⟩ := log_ne_tmp
  obtain ⟨t, hrun, hstep⟩ := madeLog_run hp hq hne
  have hsettled : ∀ e ∈ [madeLog p, madeTmp q], ¬ LeavesOpen e := by
    intro e he
    rcases List.mem_cons.mp he with rfl | he
    · exact not_leavesOpen_of_ok rfl
    · exact madeTmp_settled e he
  exact ⟨p, q, hp, queries_follow_history inodesLwext4_observes inodesLwext4_answers
    (serves_mounted _) hrun hsettled hstep⟩

end Ext4Lwext4.Metatheory
