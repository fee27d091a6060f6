import Mathlib.Data.List.Forall2
import Mathlib.Data.List.Nodup
import Ext4Lwext4.Framework.Delimited
import Ext4Lwext4.Metatheory.Listing
import Ext4Lwext4.Metatheory.LossyText
import Ext4Lwext4.Metatheory.WholeFiles

/-! # The names of a listing

A name is bytes on disk and a `str` in a `DirEntry`. `next_entry` falls back on
lossy conversion, so each name comes out as some `str`, and goes back into a
path: it names its entry again exactly when it was text. -/

namespace Ext4Lwext4.Metatheory

open Ext4Lwext4.Framework Ext4Lwext4.Model

/-- The bytes of the name, which no NUL ends. -/
def onDiskName (entry : Ext4Direntry) : Bytes := entry.name.take entry.nameLength.toNat

/-- The names of a directory: not empty, without `/` and NUL, and no two alike.
They may be any bytes otherwise. -/
structure ProperNames (entries : List Ext4Direntry) : Prop where
  nonempty : ∀ entry ∈ entries, entry.nameLength ≠ 0
  noSlash : ∀ entry ∈ entries, 47 ∉ onDiskName entry
  noNul : ∀ entry ∈ entries, 0 ∉ onDiskName entry
  distinct : (entries.map onDiskName).Nodup

/-- The directory's path, `/` and `name` make a path whose last component is
exactly `bytes`. -/
def PathEndsIn (fs : Ext4Fs) (path name : String) (bytes : Bytes) : Prop :=
  ∃ p front, fs.makePath (path ++ "/" ++ name) = .ok p ∧ p.bytes = front ++ 47 :: bytes

/-- No two entries share a name, and each is found under its own. -/
def Identify (fs : Ext4Fs) (path : String) (entries : List Ext4Direntry)
    (names : List String) : Prop :=
  names.Nodup ∧
    List.Forall₂ (fun entry name => PathEndsIn fs path name (onDiskName entry)) entries names

/-! ## From a name to a path -/

theorem stripSlash_append {front : String} (h : front.toList ≠ []) (name : String) :
    stripSlash (front ++ name) = stripSlash front ++ name := by
  by_cases hslash : ∃ rest, front.toList = '/' :: rest
  · obtain ⟨rest, hrest⟩ := hslash
    obtain rfl : front = "/" ++ String.ofList rest := by
      rw [← String.toList_inj, hrest, String.toList_append]
      simp
    rw [String.append_assoc, stripSlash_slash, stripSlash_slash]
  · have hfront : ∀ rest, front.toList ≠ '/' :: rest := fun rest hrest => hslash ⟨rest, hrest⟩
    rw [stripSlash_of_no_slash hfront, stripSlash_of_no_slash]
    intro rest hrest
    rw [String.toList_append] at hrest
    obtain ⟨c, cs, hcs⟩ := List.exists_cons_of_ne_nil h
    rw [hcs, List.cons_append] at hrest
    obtain ⟨rfl, -⟩ := List.cons.inj hrest
    exact hfront cs hcs

section Path

variable {fs : Ext4Fs} {id : UInt64} {path name : String} {bytes : Bytes}

/-- What stands before the name ends in a slash: the directory's own, or that
of the mount point where the directory is the root. -/
theorem front_ends_in_slash (hfs : fs.mountPoint = mountPointOf id) (path : String) :
    ∃ front, fs.mountPoint.bytes ++ strBytes (stripSlash (path ++ "/")) = front ++ [47] := by
  by_cases hpath : path.toList = []
  · obtain rfl : path = "" := String.toList_inj.mp hpath
    refine ⟨strBytes "/mp" ++ decimal id, ?_⟩
    have hstrip : strBytes (stripSlash ("" ++ "/")) = [] := by decide
    rw [hstrip, List.append_nil, hfs]
    rfl
  · refine ⟨fs.mountPoint.bytes ++ strBytes (stripSlash path), ?_⟩
    rw [stripSlash_append hpath, strBytes_append, List.append_assoc]
    rfl

/-- The last component of the path of a name is the name's own bytes. -/
theorem pathEndsIn_iff (hfs : fs.mountPoint = mountPointOf id) (hpath : 0 ∉ strBytes path)
    (hnul : 0 ∉ strBytes name) (hslash : 47 ∉ strBytes name) (hbytes : 47 ∉ bytes) :
    PathEndsIn fs path name bytes ↔ strBytes name = bytes := by
  have hne : (path ++ "/").toList ≠ [] := by
    rw [String.toList_append]
    exact List.append_ne_nil_of_right_ne_nil _ (by decide)
  have hwhole : 0 ∉ strBytes (path ++ "/" ++ name) := by
    rw [strBytes_append, strBytes_append, List.mem_append, List.mem_append]
    rintro ((h | h) | h)
    · exact hpath h
    · exact absurd h (by decide)
    · exact hnul h
  obtain ⟨p, hp, hpbytes⟩ := Ext4Fs.makePath_ok hfs hwhole
  obtain ⟨front, hfront⟩ := front_ends_in_slash hfs path
  rw [stripSlash_append hne, strBytes_append, ← List.append_assoc, hfront, List.append_assoc,
    List.singleton_append] at hpbytes
  constructor
  · rintro ⟨p', front', hp', hpbytes'⟩
    cases hp.symm.trans hp'
    exact ((delimiter_append_inj hslash hbytes).mp (hpbytes.symm.trans hpbytes')).2
  · rintro rfl
    exact ⟨p, front, hp, hpbytes⟩

end Path

/-! ## From an entry to a name -/

/-- Both branches of `next_entry` convert lossily: on text that changes nothing. -/
theorem entryOf_name (entry : Ext4Direntry) :
    (Dir.entryOf entry).name = fromUtf8Lossy (onDiskName entry) := by
  show (fromUtf8 (onDiskName entry)).getD (fromUtf8Lossy (onDiskName entry)) = _
  cases hutf : fromUtf8 (onDiskName entry) with
  | none => rfl
  | some text => rw [Option.getD_some, ← strBytes_of_fromUtf8 hutf, fromUtf8Lossy_strBytes]

/-- Only text survives the conversion. -/
theorem strBytes_fromUtf8Lossy_iff {bytes : Bytes} :
    strBytes (fromUtf8Lossy bytes) = bytes ↔ IsText bytes := by
  constructor
  · intro h
    exact ⟨_, h⟩
  · rintro ⟨text, rfl⟩
    rw [fromUtf8Lossy_strBytes]

theorem IsText.fromUtf8Lossy_inj {x y : Bytes} (hx : IsText x) (hy : IsText y)
    (h : fromUtf8Lossy x = fromUtf8Lossy y) : x = y := by
  rw [← strBytes_fromUtf8Lossy_iff.mpr hx, h, strBytes_fromUtf8Lossy_iff.mpr hy]

section Entry

variable {fs : Ext4Fs} {id : UInt64} {path : String}

/-- A listed name leads to its entry exactly when the name on disk is text. -/
theorem listedName_pathEndsIn_iff (hfs : fs.mountPoint = mountPointOf id)
    (hpath : 0 ∉ strBytes path) {entry : Ext4Direntry} (hslash : 47 ∉ onDiskName entry)
    (hnul : 0 ∉ onDiskName entry) :
    PathEndsIn fs path (fromUtf8Lossy (onDiskName entry)) (onDiskName entry) ↔
      IsText (onDiskName entry) := by
  rw [← strBytes_fromUtf8Lossy_iff]
  -- the conversion puts neither a NUL nor a slash into the name
  refine pathEndsIn_iff hfs hpath ?_ ?_ hslash
  · intro h
    rcases mem_fromUtf8Lossy h with h | h
    · exact hnul h
    · exact absurd h (by decide)
  · intro h
    rcases mem_fromUtf8Lossy h with h | h
    · exact hslash h
    · exact absurd h (by decide)

/-- So the names of a listing identify its entries exactly when all are text. -/
theorem identify_iff (hfs : fs.mountPoint = mountPointOf id) (hpath : 0 ∉ strBytes path)
    {listed : List Ext4Direntry} (hproper : ProperNames listed) :
    Identify fs path listed (listed.map fun entry => fromUtf8Lossy (onDiskName entry)) ↔
      ∀ entry ∈ listed, IsText (onDiskName entry) := by
  have hends : ∀ entry ∈ listed,
      (PathEndsIn fs path (fromUtf8Lossy (onDiskName entry)) (onDiskName entry) ↔
        IsText (onDiskName entry)) := fun entry hentry =>
    listedName_pathEndsIn_iff hfs hpath (hproper.noSlash entry hentry)
      (hproper.noNul entry hentry)
  unfold Identify
  rw [List.forall₂_map_right_iff, List.forall₂_same]
  constructor
  · rintro ⟨-, hpaths⟩ entry hentry
    exact (hends entry hentry).mp (hpaths entry hentry)
  · intro htext
    refine ⟨?_, fun entry hentry => (hends entry hentry).mpr (htext entry hentry)⟩
    refine List.Nodup.map_on ?_ hproper.distinct.of_map
    intro a ha b hb hname
    exact List.inj_on_of_nodup_map hproper.distinct ha hb
      ((htext a ha).fromUtf8Lossy_inj (htext b hb) hname)

end Entry

/-! ## Over any run -/

/-- The names yielded so far, for the entries they were yielded for. -/
structure YieldsNames (fs : Ext4Fs) (path : String) (listed : List Ext4Direntry)
    (names : List String) : Prop where
  names_eq : names = listed.map fun entry => fromUtf8Lossy (onDiskName entry)
  /-- A name leads to its entry where that name is text on disk, and only there. -/
  path_iff : ∀ entry ∈ listed,
    PathEndsIn fs path (fromUtf8Lossy (onDiskName entry)) (onDiskName entry) ↔
      IsText (onDiskName entry)
  text_distinct : listed.Pairwise fun a b => IsText (onDiskName a) → IsText (onDiskName b) →
    fromUtf8Lossy (onDiskName a) ≠ fromUtf8Lossy (onDiskName b)

theorem ProperNames.take {entries : List Ext4Direntry} (h : ProperNames entries) (n : ℕ) :
    ProperNames (entries.take n) where
  nonempty entry hentry := h.nonempty entry (List.mem_of_mem_take hentry)
  noSlash entry hentry := h.noSlash entry (List.mem_of_mem_take hentry)
  noNul entry hentry := h.noNul entry (List.mem_of_mem_take hentry)
  distinct := by
    rw [List.map_take]
    exact h.distinct.sublist (List.take_sublist n _)

theorem openDir_path {E : Environment Call Reply} {fs : Ext4Fs} {id : UInt64}
    (hfs : fs.mountPoint = mountPointOf id) {path : String} {dir : Dir} {s t : E.State}
    {tr : List SysEvent} (h : Exec E (Dir.openDir fs path).run s tr (.ok (.ok dir)) t) :
    0 ∉ strBytes path := by
  intro hnul
  obtain ⟨e, he⟩ := Ext4Fs.makePath_nul hfs hnul
  unfold Dir.openDir at h
  rw [run_except_bind, he] at h
  cases (Exec.done_iff.mp h).2.1

/-- After any run over an opened directory: text names are listed as they are
and lead to their entries, others are listed converted and do not, and the
names identify what was listed exactly when all of them are text. -/
theorem listed_names_identify_iff {E : Environment Call Reply} {entries : List Ext4Direntry}
    {offset : Ext4Dir → ℕ} (hE : Lists E entries offset) (hproper : ProperNames entries)
    {fs : Ext4Fs} {id : UInt64} (hfs : fs.mountPoint = mountPointOf id) {path : String}
    {dir dir' : Dir} {s t u : E.State} {tr : List SysEvent} {turns : List DirTurn}
    (hopen : Exec E (Dir.openDir fs path).run s tr (.ok (.ok dir)) t)
    (hrun : Runs (DirTurn.Step E) (dir, t) turns (dir', u)) :
    YieldsNames fs path (entries.take (offset dir'.inner))
      ((Iteration.ofTurns turns).entries.map DirEntry.name) ∧
    (Identify fs path (entries.take (offset dir'.inner))
        ((Iteration.ofTurns turns).entries.map DirEntry.name) ↔
      ∀ entry ∈ entries.take (offset dir'.inner), IsText (onDiskName entry)) := by
  have hpath := openDir_path hfs hopen
  have hlisted := hproper.take (offset dir'.inner)
  have hstart : SeenUpTo entries .start (offset dir.inner) := by
    rw [openDir_offset hE hopen]
    exact .zero
  have hseen : SeenUpTo entries (.ofTurns turns) (offset dir'.inner) := hstart.run hE hrun
  have hnames : (Iteration.ofTurns turns).entries.map DirEntry.name =
      (entries.take (offset dir'.inner)).map fun entry => fromUtf8Lossy (onDiskName entry) := by
    rw [hseen.entries_eq, List.map_map]
    exact List.map_congr_left fun entry _ => entryOf_name entry
  refine ⟨⟨hnames, ?_, ?_⟩, ?_⟩
  · intro entry hentry
    exact listedName_pathEndsIn_iff hfs hpath (hlisted.noSlash entry hentry)
      (hlisted.noNul entry hentry)
  · refine (List.pairwise_map.mp hlisted.distinct).imp ?_
    intro a b hne ha hb hname
    exact hne (ha.fromUtf8Lossy_inj hb hname)
  · rw [hnames]
    exact identify_iff hfs hpath hlisted

theorem twoEntries_proper : ProperNames twoEntries where
  nonempty := by decide
  noSlash := by decide
  noNul := by decide
  distinct := by decide

/-- Both entries of the sample directory. -/
theorem listed_names_identify_iff_two :
    Identify (twoEntryDir 0).fs "etc" twoEntries ["a", "b"] ↔
      ∀ entry ∈ twoEntries, IsText (onDiskName entry) := by
  obtain ⟨tr, hopen⟩ := twoEntryDir_opened twoEntries
  exact (listed_names_identify_iff (directoryLwext4_lists (by decide)) twoEntries_proper rfl hopen
    (.cons (twoEntryDir_yields _ rfl) (.single (twoEntryDir_yields _ rfl)))).2

/-! ## Two names that are not text -/

def oddEntries : List Ext4Direntry := [direntryNamed 12 0xFF, direntryNamed 13 0xFE]

theorem oddEntries_proper : ProperNames oddEntries where
  nonempty := by decide
  noSlash := by decide
  noNul := by decide
  distinct := by decide

/-- Both are listed as U+FFFD. -/
theorem odd_names_collide :
    ProperNames oddEntries ∧ Lists (directoryLwext4 oddEntries) oddEntries
      (fun dir => dir.nextOff.toNat) ∧
    ∃ tr turns, Exec (directoryLwext4 oddEntries) (Dir.openDir (twoEntryDir 0).fs "etc").run () tr
        (.ok (.ok (twoEntryDir 0))) () ∧
      Runs (DirTurn.Step (directoryLwext4 oddEntries)) (twoEntryDir 0, ()) turns
        (twoEntryDir 2, ()) ∧
      (Iteration.ofTurns turns).entries.map DirEntry.name = ["\uFFFD", "\uFFFD"] ∧
      ¬ Identify (twoEntryDir 0).fs "etc" oddEntries ["\uFFFD", "\uFFFD"] := by
  obtain ⟨tr, hopen⟩ := twoEntryDir_opened oddEntries
  refine ⟨oddEntries_proper, directoryLwext4_lists (by decide), tr,
    [⟨.nextEntry, .ok (.entry (some (Dir.entryOf (direntryNamed 12 0xFF))))⟩,
      ⟨.nextEntry, .ok (.entry (some (Dir.entryOf (direntryNamed 13 0xFE))))⟩], hopen,
    .cons (twoEntryDir_yields _ rfl) (.single (twoEntryDir_yields _ rfl)), ?_, ?_⟩
  · decide +kernel
  · rintro ⟨hnodup, -⟩
    exact absurd hnodup (by decide)

end Ext4Lwext4.Metatheory
