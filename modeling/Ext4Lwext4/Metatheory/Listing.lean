import Mathlib.Data.List.Forall2
import Ext4Lwext4.Model.Api

/-! # Listing a directory

`ext4_dir_entry_next` returns `NULL` both at the end of the directory and where
it cannot read on, and `next_entry` makes `None` of either. Over runs of any
shape the entries yielded since the last rewind are a prefix of the directory,
and a `None` says no more than that. -/

namespace Ext4Lwext4.Metatheory

open Ext4Lwext4.Framework Ext4Lwext4.Model

/-- A directory with these entries, in this order; `offset` is how many of them
a handle has been given. `NULL` may come at any offset, and does not move it. -/
structure Lists (E : Environment Call Reply) (entries : List Ext4Direntry)
    (offset : Ext4Dir → ℕ) : Prop where
  opened {s t : E.State} {dir dir' : Ext4Dir} {path : CString} :
    E.step s (.ext4DirOpen dir path) ((0 : Int32), dir') t → offset dir' = 0
  next {s t : E.State} {dir dir' : Ext4Dir} {entry : Ext4Direntry} :
    E.step s (.ext4DirEntryNext dir) (some entry, dir') t →
      entries[offset dir]? = some entry ∧ offset dir' = offset dir + 1
  null {s t : E.State} {dir dir' : Ext4Dir} :
    E.step s (.ext4DirEntryNext dir) (none, dir') t → offset dir' = offset dir
  rewound {s t : E.State} {dir dir' : Ext4Dir} :
    E.step s (.ext4DirEntryRewind dir) dir' t → offset dir' = 0

/-! ## Runs over an open directory -/

/-- One operation on the directory, and what it gave the caller. -/
structure DirTurn where
  op : DirOp
  result : ApiResult

def DirTurn.Step (E : Environment Call Reply) (a : Dir × E.State) (turn : DirTurn)
    (b : Dir × E.State) : Prop :=
  ∃ tr, Exec E (turn.op.perform a.1) a.2 tr (.ok (turn.result, b.1)) b.2

/-- What the caller has seen since the last rewind: the entries, and whether an
item was an `Err`. -/
structure Iteration where
  entries : List DirEntry
  failed : Bool
  deriving DecidableEq, Repr

def Iteration.start : Iteration := ⟨[], false⟩

def Iteration.turn (it : Iteration) (turn : DirTurn) : Iteration :=
  match turn.op with
  | .rewind => .start
  | .nextEntry | .next =>
      match turn.result with
      | .ok (.entry (some entry)) => { it with entries := it.entries ++ [entry] }
      | .ok _ => it
      | .error _ => { it with failed := true }

def Iteration.ofTurns (turns : List DirTurn) : Iteration := turns.foldl Iteration.turn .start

/-- `None`. -/
def DirTurn.Exhausted (turn : DirTurn) : Prop := turn.result = .ok (.entry none)

/-- The iteration is complete or says that it is not. -/
def CompleteOrFailed (entries : List Ext4Direntry) (it : Iteration) : Prop :=
  it.failed = false → it.entries = entries.map Dir.entryOf

/-- What an entry shows of the one on disk: its number, its type where that is
one of the seven, and its name where that is text. -/
structure ShowsEntry (entry : Ext4Direntry) (shown : DirEntry) : Prop where
  name (text : String) : strBytes text = entry.name.take entry.nameLength.toNat →
    shown.name = text
  inode : shown.inode.toNat = entry.inode.toNat
  fileType (type : FileType) : type ≠ .unknown →
    (shown.fileType = type ↔ entry.inodeType = type.toRaw)

theorem entryOf_showsEntry (entry : Ext4Direntry) : ShowsEntry entry (Dir.entryOf entry) where
  name text htext := by
    rw [Dir.entryOf, ← htext, fromUtf8_strBytes]
    rfl
  inode := UInt32.toNat_toUInt64 _
  fileType type htype := by
    constructor
    · rintro rfl
      exact (FileType.toRaw_fromRaw htype).symm
    · intro hraw
      show FileType.fromRaw entry.inodeType = type
      rw [hraw, FileType.fromRaw_toRaw]

/-- A complete listing shows every entry, in order. -/
theorem CompleteOrFailed.shows {entries : List Ext4Direntry} {it : Iteration}
    (h : CompleteOrFailed entries it) (hok : it.failed = false) :
    List.Forall₂ ShowsEntry entries it.entries := by
  rw [h hok, List.forall₂_map_right_iff]
  exact List.forall₂_same.mpr fun entry _ => entryOf_showsEntry entry

section Run

variable {E : Environment Call Reply} {entries : List Ext4Direntry} {offset : Ext4Dir → ℕ}
  {a b : Dir × E.State} {turn : DirTurn}

/-- `next_entry` yields the entry lwext4 is at, or `None`, and never an `Err`. -/
theorem nextEntry_cases (hE : Lists E entries offset) {dir dir' : Dir} {s t : E.State}
    {tr : List SysEvent} {item : Option (Except Error DirEntry)}
    (h : Exec E dir.nextEntry s tr (.ok (item, dir')) t) :
    (∃ entry, item = some (.ok (Dir.entryOf entry)) ∧ entries[offset dir.inner]? = some entry ∧
      offset dir'.inner = offset dir.inner + 1) ∨
    item = none ∧ offset dir'.inner = offset dir.inner := by
  obtain ⟨⟨entry, inner⟩, u, tr, rfl, hnext, h⟩ := Exec.request_bind h
  obtain ⟨rfl, ho, rfl⟩ := Exec.done_iff.mp h
  cases ho
  cases entry with
  | some entry =>
      obtain ⟨hentry, hoffset⟩ := hE.next hnext
      exact .inl ⟨entry, rfl, hentry, hoffset⟩
  | none => exact .inr ⟨rfl, hE.null hnext⟩

/-- What a turn can do: rewind, yield the entry at the offset, or yield `None`. -/
theorem dirTurn_cases (hE : Lists E entries offset) (h : turn.Step E a b) :
    (turn.op = .rewind ∧ turn.result = .ok .unit ∧ offset b.1.inner = 0) ∨
    (turn.op ≠ .rewind ∧ (∃ entry, turn.result = .ok (.entry (some (Dir.entryOf entry))) ∧
      entries[offset a.1.inner]? = some entry ∧ offset b.1.inner = offset a.1.inner + 1)) ∨
    (turn.op ≠ .rewind ∧ turn.result = .ok (.entry none) ∧
      offset b.1.inner = offset a.1.inner) := by
  obtain ⟨dir, s⟩ := a
  obtain ⟨dir', t⟩ := b
  obtain ⟨op, result⟩ := turn
  obtain ⟨tr, h⟩ := h
  -- `next` is `next_entry`: one argument serves both
  have hitem : ∀ {tr : List SysEvent},
      Exec E (dir.nextEntry >>= fun r => .done (DirOp.perform.yielded r.1, r.2)) s tr
        (.ok (result, dir')) t →
      (∃ entry, result = .ok (.entry (some (Dir.entryOf entry))) ∧
        entries[offset dir.inner]? = some entry ∧ offset dir'.inner = offset dir.inner + 1) ∨
      result = .ok (.entry none) ∧ offset dir'.inner = offset dir.inner := by
    intro tr h
    obtain ⟨⟨item, dir''⟩, u, tr₁, tr₂, rfl, hnext, h⟩ := Exec.bind_ok h
    obtain ⟨rfl, ho, rfl⟩ := Exec.done_iff.mp h
    cases ho
    rcases nextEntry_cases hE hnext with ⟨entry, rfl, hentry, hoffset⟩ | ⟨rfl, hoffset⟩
    · exact .inl ⟨entry, rfl, hentry, hoffset⟩
    · exact .inr ⟨rfl, hoffset⟩
  cases op with
  | nextEntry =>
      rcases hitem h with hsome | hnone
      · exact .inr (.inl ⟨nofun, hsome⟩)
      · exact .inr (.inr ⟨nofun, hnone⟩)
  | next =>
      rcases hitem h with hsome | hnone
      · exact .inr (.inl ⟨nofun, hsome⟩)
      · exact .inr (.inr ⟨nofun, hnone⟩)
  | rewind =>
      obtain ⟨inner, u, tr, rfl, hrewind, h⟩ := Exec.request_bind h
      obtain ⟨rfl, ho, rfl⟩ := Exec.done_iff.mp h
      cases ho
      exact .inl ⟨rfl, rfl, hE.rewound hrewind⟩

/-- The invariant: the caller has seen the entries up to the offset, and no
`Err`. -/
structure SeenUpTo (entries : List Ext4Direntry) (it : Iteration) (n : ℕ) : Prop where
  le : n ≤ entries.length
  entries_eq : it.entries = (entries.take n).map Dir.entryOf
  not_failed : it.failed = false

theorem SeenUpTo.zero : SeenUpTo entries .start 0 := ⟨Nat.zero_le _, rfl, rfl⟩

/-- One turn keeps it. -/
theorem SeenUpTo.step {it : Iteration} (hE : Lists E entries offset) (h : turn.Step E a b)
    (hseen : SeenUpTo entries it (offset a.1.inner)) :
    SeenUpTo entries (it.turn turn) (offset b.1.inner) := by
  obtain ⟨op, result⟩ := turn
  rcases dirTurn_cases hE h with ⟨hop, -, hoffset⟩ | ⟨hop, entry, hresult, hentry, hoffset⟩ |
    ⟨hop, hresult, hoffset⟩
  · obtain rfl : op = .rewind := hop
    rw [hoffset]
    exact .zero
  · obtain rfl : result = .ok (.entry (some (Dir.entryOf entry))) := hresult
    obtain ⟨hlt, hget⟩ := List.getElem?_eq_some_iff.mp hentry
    have hturn : it.turn ⟨op, .ok (.entry (some (Dir.entryOf entry)))⟩ =
        { it with entries := it.entries ++ [Dir.entryOf entry] } := by
      cases op with
      | rewind => exact absurd rfl hop
      | nextEntry => rfl
      | next => rfl
    rw [hturn, hoffset]
    refine ⟨hlt, ?_, hseen.not_failed⟩
    show it.entries ++ [Dir.entryOf entry] = _
    rw [hseen.entries_eq, List.take_add_one, hentry, List.map_append]
    rfl
  · obtain rfl : result = .ok (.entry none) := hresult
    have hturn : it.turn ⟨op, .ok (.entry none)⟩ = it := by
      cases op with
      | rewind => exact absurd rfl hop
      | nextEntry => rfl
      | next => rfl
    rw [hturn, hoffset]
    exact hseen

/-- And so does every run. -/
theorem SeenUpTo.run {it : Iteration} {turns : List DirTurn} (hE : Lists E entries offset)
    (h : Runs (DirTurn.Step E) a turns b) (hseen : SeenUpTo entries it (offset a.1.inner)) :
    SeenUpTo entries (turns.foldl Iteration.turn it) (offset b.1.inner) := by
  induction h generalizing it with
  | nil _ => exact hseen
  | cons hstep _ ih => exact ih (hseen.step hE hstep)

/-- What has been seen is everything exactly when the offset is at the end. -/
theorem SeenUpTo.complete_iff {it : Iteration} {n : ℕ} (h : SeenUpTo entries it n) :
    CompleteOrFailed entries it ↔ n = entries.length := by
  have hle := h.le
  constructor
  · intro hcomplete
    have hlen := congrArg List.length (hcomplete h.not_failed)
    rw [h.entries_eq, List.length_map, List.length_map, List.length_take] at hlen
    omega
  · rintro rfl _
    rw [h.entries_eq, List.take_length]

end Run

theorem openDir_offset {E : Environment Call Reply} {entries : List Ext4Direntry}
    {offset : Ext4Dir → ℕ} (hE : Lists E entries offset) {fs : Ext4Fs} {path : String} {dir : Dir}
    {s t : E.State} {tr : List SysEvent}
    (h : Exec E (Dir.openDir fs path).run s tr (.ok (.ok dir)) t) : offset dir.inner = 0 := by
  unfold Dir.openDir at h
  rw [run_except_bind] at h
  cases hpath : fs.makePath path with
  | error e =>
      rw [hpath] at h
      cases (Exec.done_iff.mp h).2.1
  | ok p =>
      rw [hpath] at h
      obtain ⟨⟨ret, inner⟩, u, tr, rfl, hopen, h⟩ := exec_run_request_bind h
      simp only [run_except_bind] at h
      cases hcheck : checkErrnoWithPath ret path with
      | error e =>
          rw [hcheck] at h
          cases (Exec.done_iff.mp h).2.1
      | ok _ =>
          rw [hcheck] at h
          obtain ⟨rfl, ho, rfl⟩ := exec_run_ok h
          cases ho
          rw [checkErrnoWithPath_eq_ok.mp hcheck] at hopen
          exact hE.opened hopen

/-- After any run over an opened directory a `None` is the end of a complete
iteration, or of one that says otherwise, exactly when the `NULL` behind it
came at the end of the directory. -/
theorem listing_complete_iff {E : Environment Call Reply} {entries : List Ext4Direntry}
    {offset : Ext4Dir → ℕ} (hE : Lists E entries offset) {fs : Ext4Fs} {path : String}
    {dir dir' dir'' : Dir} {s t u v : E.State} {tr : List SysEvent} {turns : List DirTurn}
    {last : DirTurn} (hopen : Exec E (Dir.openDir fs path).run s tr (.ok (.ok dir)) t)
    (hrun : Runs (DirTurn.Step E) (dir, t) turns (dir', u))
    (hlast : last.Step E (dir', u) (dir'', v)) (hnone : last.Exhausted) :
    CompleteOrFailed entries (.ofTurns (turns ++ [last])) ↔
      offset dir'.inner = entries.length := by
  have hstart : SeenUpTo entries .start (offset dir.inner) := by
    rw [openDir_offset hE hopen]
    exact .zero
  have hseen : SeenUpTo entries (.ofTurns (turns ++ [last])) (offset dir''.inner) :=
    hstart.run hE (hrun.append (.single hlast))
  rw [hseen.complete_iff]
  -- `NULL` does not move the offset
  rcases dirTurn_cases hE hlast with ⟨-, hunit, -⟩ | ⟨-, entry, hsome, -⟩ | ⟨-, -, hoffset⟩
  · cases hunit.symm.trans hnone
  · cases hsome.symm.trans hnone
  · rw [hoffset]

/-! ## A directory of two entries -/

def direntryNamed (inode : UInt32) (b : UInt8) : Ext4Direntry :=
  ⟨inode, 12, 1, EXT4_DE_REG_FILE, b :: List.replicate 254 0, by
    rw [List.length_cons, List.length_replicate]⟩

def twoEntries : List Ext4Direntry := [direntryNamed 12 97, direntryNamed 13 98]

/-- A lwext4 over a directory of these entries, any of whose reads may fail. -/
def directoryLwext4 (entries : List Ext4Direntry) : Environment Call Reply where
  State := Unit
  step _ c r _ :=
    match c, r with
    | .ext4DirOpen dir _, r => r = ((0 : Int32), { dir with nextOff := 0 })
    | .ext4DirEntryNext dir, r => r = (none, dir) ∨
        ∃ entry, entries[dir.nextOff.toNat]? = some entry ∧
          r = (some entry, { dir with nextOff := dir.nextOff + 1 })
    | .ext4DirEntryRewind dir, r => r = { dir with nextOff := 0 }
    | _, _ => True

theorem directoryLwext4_lists {entries : List Ext4Direntry} (h : entries.length < 2 ^ 64) :
    Lists (directoryLwext4 entries) entries fun dir => dir.nextOff.toNat where
  opened {s t dir dir' path} h := by
    cases h
    rfl
  next {s t dir dir' entry} hstep := by
    rcases hstep with hnull | ⟨entry', hentry, hstep⟩
    · cases hnull
    · cases hstep
      obtain ⟨hlt, -⟩ := List.getElem?_eq_some_iff.mp hentry
      refine ⟨hentry, ?_⟩
      show (dir.nextOff + 1).toNat = dir.nextOff.toNat + 1
      rw [UInt64.toNat_add]
      exact Nat.mod_eq_of_lt (by change dir.nextOff.toNat + 1 < 2 ^ 64; omega)
  null {s t dir dir'} h := by
    rcases h with h | ⟨entry, -, h⟩
    · cases h
      rfl
    · cases h
  rewound {s t dir dir'} h := by
    cases h
    rfl

/-- A handle on it after `n` entries. -/
def twoEntryDir (n : UInt64) : Dir :=
  ⟨⟨9, deviceNameOf 4, mountPointOf 4, false, true⟩, { Ext4Dir.default with nextOff := n }⟩

section Handle

variable (entries : List Ext4Direntry)

theorem twoEntryDir_opened : ∃ tr,
    Exec (directoryLwext4 entries) (Dir.openDir (twoEntryDir 0).fs "etc").run () tr
      (.ok (.ok (twoEntryDir 0))) () := by
  have hmp : (twoEntryDir 0).fs.mountPoint = mountPointOf 4 := rfl
  have hnul : (0 : UInt8) ∉ strBytes "etc" := by decide
  obtain ⟨p, hp, -⟩ := Ext4Fs.makePath_ok hmp hnul
  unfold Dir.openDir
  rw [run_except_bind, hp]
  exact ⟨_, .call (u := ()) rfl (.done _ _)⟩

theorem twoEntryDir_yields {n : UInt64} {entry : Ext4Direntry}
    (h : entries[n.toNat]? = some entry) :
    DirTurn.Step (directoryLwext4 entries) (twoEntryDir n, ())
      ⟨.nextEntry, .ok (.entry (some (Dir.entryOf entry)))⟩ (twoEntryDir (n + 1), ()) :=
  ⟨_, .call (u := ()) (.inr ⟨entry, h, rfl⟩) (.done _ _)⟩

theorem twoEntryDir_stops (n : UInt64) :
    DirTurn.Step (directoryLwext4 entries) (twoEntryDir n, ()) ⟨.next, .ok (.entry none)⟩
      (twoEntryDir n, ()) :=
  ⟨_, .call (u := ()) (.inl rfl) (.done _ _)⟩

end Handle

theorem listing_complete_iff_two :
    CompleteOrFailed twoEntries (.ofTurns
        [⟨.nextEntry, .ok (.entry (some (Dir.entryOf (direntryNamed 12 97))))⟩,
          ⟨.nextEntry, .ok (.entry (some (Dir.entryOf (direntryNamed 13 98))))⟩,
          ⟨.next, .ok (.entry none)⟩]) ↔
      (twoEntryDir 2).inner.nextOff.toNat = twoEntries.length := by
  obtain ⟨tr, hopen⟩ := twoEntryDir_opened twoEntries
  exact listing_complete_iff (directoryLwext4_lists (by decide)) hopen
    (.cons (twoEntryDir_yields _ rfl) (.single (twoEntryDir_yields _ rfl)))
    (twoEntryDir_stops _ 2) rfl

/-- The block of the second entry cannot be read, and the listing ends after
the first. -/
theorem listing_cut_short :
    Lists (directoryLwext4 twoEntries) twoEntries (fun dir => dir.nextOff.toNat) ∧
    ¬ ∀ (dir dir' : Dir) (tr : List SysEvent) (turns : List DirTurn) (last : DirTurn),
      Exec (directoryLwext4 twoEntries) (Dir.openDir dir.fs "etc").run () tr (.ok (.ok dir)) () →
      Runs (DirTurn.Step (directoryLwext4 twoEntries)) (dir, ()) (turns ++ [last]) (dir', ()) →
      last.Exhausted → CompleteOrFailed twoEntries (.ofTurns (turns ++ [last])) := by
  refine ⟨directoryLwext4_lists (by decide), ?_⟩
  intro h
  obtain ⟨tr, hopen⟩ := twoEntryDir_opened twoEntries
  have hcomplete := h _ _ tr
    [⟨.nextEntry, .ok (.entry (some (Dir.entryOf (direntryNamed 12 97))))⟩] _ hopen
    (.cons (twoEntryDir_yields _ rfl) (.single (twoEntryDir_stops _ 1))) rfl
  have hlen := congrArg List.length (hcomplete rfl)
  exact absurd hlen (by decide)

end Ext4Lwext4.Metatheory
