import Ext4Lwext4.Model.File

/-! # Seeking

`io::Seek` counts every target from a place of the file, and adds the offset:
the end of the file is no exception. lwext4 counts back from the end. The
offset is handed over with the sign it came with, so a seek from the end goes
to the mirrored place. -/

namespace Ext4Lwext4.Metatheory

open Ext4Lwext4.Framework Ext4Lwext4.Model

/-! ## What lwext4 does with a seek -/

/-- A place of the file, or none where it would lie outside. -/
def placed (file : Ext4File) (target : ℤ) : Option ℤ :=
  if 0 ≤ target ∧ target ≤ file.fsize.toNat then some target else none

/-- Where `ext4_fseek` goes, if it accepts the offset. From the end it takes
the distance, which it subtracts. -/
def fseekTarget (file : Ext4File) (offset : ℤ) (origin : UInt32) : Option ℤ :=
  if origin = SEEK_SET then placed file offset
  else if origin = SEEK_CUR then placed file (file.fpos.toNat + offset)
  else if origin = SEEK_END then (placed file offset).map fun d => file.fsize.toNat - d
  else none

/-- `ext4_fseek` and `ext4_ftell` as lwext4 has them. -/
structure SeeksInFile (E : Environment Call Reply) : Prop where
  accepted {s t : E.State} {file file' : Ext4File} {offset : Int64} {origin : UInt32}
    {ret : Int32} {target : ℤ} : fseekTarget file offset.toInt origin = some target →
    E.step s (.ext4Fseek file offset origin) (ret, file') t →
    ret = 0 ∧ (file'.fpos.toNat : ℤ) = target
  refused {s t : E.State} {file file' : Ext4File} {offset : Int64} {origin : UInt32}
    {ret : Int32} : fseekTarget file offset.toInt origin = none →
    E.step s (.ext4Fseek file offset origin) (ret, file') t →
    ret = EINVAL ∧ file'.fpos = file.fpos
  tell {s t : E.State} {file : Ext4File} {pos : UInt64} :
    E.step s (.ext4Ftell file) pos t → pos = file.fpos

/-! ## What the caller is promised -/

/-- The target of a seek, as an exact integer. -/
def exactTarget (file : Ext4File) : SeekFrom → ℤ
  | .start n => n.toNat
  | .fromEnd n => file.fsize.toNat + n.toInt
  | .current n => file.fpos.toNat + n.toInt

/-- The seek returned: at the target with its place, or, where there is none,
with an error and the position it had. -/
def Lands (file : Ext4File) (target : Option ℤ) (o : Outcome (Except IoError UInt64 × File)) :
    Prop :=
  match target with
  | some p => ∃ pos file', o = .ok (.ok pos, file') ∧ (pos.toNat : ℤ) = p ∧
      (file'.inner.fpos.toNat : ℤ) = p
  | none => ∃ e file', o = .ok (.error e, file') ∧ file'.inner.fpos = file.fpos

/-- A seek lands at one place at most. -/
theorem Lands.unique {file : Ext4File} {p q : Option ℤ}
    {o : Outcome (Except IoError UInt64 × File)} (hp : Lands file p o) (hq : Lands file q o) :
    p = q := by
  cases p with
  | none =>
      obtain ⟨e, file', rfl, -⟩ := hp
      cases q with
      | none => rfl
      | some q =>
          obtain ⟨_, _, h, -⟩ := hq
          cases h
  | some p =>
      obtain ⟨pos, file', rfl, hpos, -⟩ := hp
      cases q with
      | none =>
          obtain ⟨_, _, h, -⟩ := hq
          cases h
      | some q =>
          obtain ⟨_, _, h, hpos', -⟩ := hq
          cases h
          rw [← hpos, hpos']

/-- The contract of `io::Seek`. -/
def KeepsSeekContract (file : Ext4File) (pos : SeekFrom)
    (o : Outcome (Except IoError UInt64 × File)) : Prop :=
  Lands file (placed file (exactTarget file pos)) o

/-- A seek from the end, other than to the end, by no more than the size. -/
def FromEndInSize (file : Ext4File) : SeekFrom → Prop
  | .fromEnd n => n.toInt ≠ 0 ∧ n.toInt.natAbs ≤ file.fsize.toNat
  | _ => False

/-! ## Where the two agree -/

/-- A start too large for an `i64` turns negative: lwext4 refuses it, and it
lies past the end of any file. -/
theorem placed_start {file : Ext4File} (hsize : file.fsize.toNat < 2 ^ 63) (n : UInt64) :
    placed file n.toInt64.toInt = placed file n.toNat := by
  have hcast : n.toInt64.toInt = n.toBitVec.toInt := rfl
  have hnat : n.toBitVec.toNat = n.toNat := rfl
  have hlt := n.toNat_lt
  rw [hcast, BitVec.toInt_eq_toNat_cond, hnat]
  unfold placed
  split_ifs <;> first | rfl | omega

theorem placed_fromEnd_iff {file : Ext4File} (n : ℤ) :
    (placed file n).map (fun d => (file.fsize.toNat : ℤ) - d) =
        placed file (file.fsize.toNat + n) ↔
      ¬ (n ≠ 0 ∧ n.natAbs ≤ file.fsize.toNat) := by
  unfold placed
  split_ifs with hin hout hout
  · rw [Option.map_some, Option.some_inj]
    omega
  · refine iff_of_false nofun ?_
    omega
  · refine iff_of_false nofun ?_
    omega
  · refine iff_of_true rfl ?_
    omega

/-- What is handed to lwext4 has the exact target, save for the seeks from the
end within the size. -/
theorem fseekTarget_eq_iff {file : Ext4File} (hsize : file.fsize.toNat < 2 ^ 63)
    (pos : SeekFrom) :
    fseekTarget file pos.toRaw.1.toInt pos.toRaw.2 = placed file (exactTarget file pos) ↔
      ¬ FromEndInSize file pos := by
  cases pos with
  | start n => exact iff_of_true (placed_start hsize n) id
  | fromEnd n => exact placed_fromEnd_iff n.toInt
  | current n => exact iff_of_true rfl id

/-! ## Runs -/

/-- A seek lands where lwext4 goes with what it is handed. -/
theorem ioSeek_lands {E : Environment Call Reply} (hE : SeeksInFile E) {file : File}
    {pos : SeekFrom} {s t : E.State} {tr : List SysEvent}
    {o : Outcome (Except IoError UInt64 × File)} (h : Exec E (file.ioSeek pos) s tr o t) :
    Lands file.inner (fseekTarget file.inner pos.toRaw.1.toInt pos.toRaw.2) o := by
  obtain ⟨⟨ret, inner⟩, u, tr, rfl, hseek, h⟩ := Exec.request_bind h
  cases htarget : fseekTarget file.inner pos.toRaw.1.toInt pos.toRaw.2 with
  | none =>
      obtain ⟨rfl, hpos⟩ := hE.refused htarget hseek
      obtain ⟨rfl, rfl, rfl⟩ := Exec.done_iff.mp h
      exact ⟨_, _, rfl, hpos⟩
  | some target =>
      obtain ⟨rfl, hpos⟩ := hE.accepted htarget hseek
      obtain ⟨place, v, tr, rfl, htell, h⟩ := Exec.request_bind h
      obtain ⟨rfl, rfl, rfl⟩ := Exec.done_iff.mp h
      have hplace : place = inner.fpos := hE.tell htell
      subst hplace
      exact ⟨_, _, rfl, hpos, hpos⟩

/-- `Seek::seek` keeps the contract for every target but those counted from
the end within the size of the file. -/
theorem seek_contract_iff {E : Environment Call Reply} (hE : SeeksInFile E) {file : File}
    (hsize : file.inner.fsize.toNat < 2 ^ 63) {pos : SeekFrom} {s t : E.State}
    {tr : List SysEvent} {o : Outcome (Except IoError UInt64 × File)}
    (h : Exec E (file.ioSeek pos) s tr o t) :
    KeepsSeekContract file.inner pos o ↔ ¬ FromEndInSize file.inner pos := by
  have hlands := ioSeek_lands hE h
  rw [← fseekTarget_eq_iff hsize]
  constructor
  · exact fun hkeeps => hlands.unique hkeeps
  · intro heq
    rwa [KeepsSeekContract, ← heq]

/-! ## A lwext4 that does this -/

def fseekReply (file : Ext4File) (offset : ℤ) (origin : UInt32) : Int32 × Ext4File :=
  match fseekTarget file offset origin with
  | some target => (0, { file with fpos := UInt64.ofNat target.toNat })
  | none => (EINVAL, file)

def seekingLwext4 : Environment Call Reply where
  State := Unit
  step _ c r _ :=
    match c, r with
    | .ext4Fseek file offset origin, r => r = fseekReply file offset.toInt origin
    | .ext4Ftell file, r => r = file.fpos
    | _, _ => True

theorem fseekTarget_range {file : Ext4File} {offset target : ℤ} {origin : UInt32}
    (h : fseekTarget file offset origin = some target) :
    0 ≤ target ∧ target ≤ file.fsize.toNat := by
  have hplaced : ∀ {p q : ℤ}, placed file p = some q → 0 ≤ q ∧ q ≤ file.fsize.toNat := by
    intro p q hp
    unfold placed at hp
    split_ifs at hp with hin
    cases hp
    exact hin
  unfold fseekTarget at h
  split_ifs at h
  · exact hplaced h
  · exact hplaced h
  · obtain ⟨p, hp, rfl⟩ := Option.map_eq_some_iff.mp h
    have := hplaced hp
    omega

theorem seekingLwext4_seeks : SeeksInFile seekingLwext4 where
  accepted {s t file file' offset origin ret target} htarget hstep := by
    have hreply : (ret, file') = fseekReply file offset.toInt origin := hstep
    rw [fseekReply, htarget] at hreply
    cases hreply
    have hrange := fseekTarget_range htarget
    have hlt := file.fsize.toNat_lt
    refine ⟨rfl, ?_⟩
    rw [UInt64.toNat_ofNat', Nat.mod_eq_of_lt (by omega)]
    omega
  refused {s t file file' offset origin ret} htarget hstep := by
    have hreply : (ret, file') = fseekReply file offset.toInt origin := hstep
    rw [fseekReply, htarget] at hreply
    cases hreply
    exact ⟨rfl, rfl⟩
  tell hstep := hstep

/-- A file of ten bytes, at its seventh. -/
def tenByteFile : File :=
  ⟨⟨9, deviceNameOf 4, mountPointOf 4, false, true⟩, ⟨0, 12, 0, 10, 6⟩, "log"⟩

/-- Back by two from where it is. -/
theorem seek_contract_iff_current :
    KeepsSeekContract tenByteFile.inner (.current (-2))
        (.ok (.ok 4, { tenByteFile with inner := ⟨0, 12, 0, 10, 4⟩ })) ↔
      ¬ FromEndInSize tenByteFile.inner (.current (-2)) := by
  have hseek : Exec seekingLwext4 (tenByteFile.ioSeek (.current (-2))) ()
      [⟨.ext4Fseek tenByteFile.inner (-2) SEEK_CUR, ((0 : Int32), ⟨0, 12, 0, 10, 4⟩)⟩,
        ⟨.ext4Ftell ⟨0, 12, 0, 10, 4⟩, (4 : UInt64)⟩]
      (.ok (.ok 4, { tenByteFile with inner := ⟨0, 12, 0, 10, 4⟩ })) () :=
    .call (u := ()) (by change _ = fseekReply _ (-2 : Int64).toInt SEEK_CUR; decide)
      (.call (u := ()) rfl (.done _ _))
  exact seek_contract_iff seekingLwext4_seeks (by decide) hseek

/-- The fourth byte before the end is in the file, and the seek to it is refused. -/
theorem seek_before_end_refused :
    SeeksInFile seekingLwext4 ∧
    ¬ ∀ (file : File) (pos : SeekFrom) (tr : List SysEvent)
        (o : Outcome (Except IoError UInt64 × File)),
      file.inner.fsize.toNat < 2 ^ 63 → file.inner.fpos ≤ file.inner.fsize →
      Exec seekingLwext4 (file.ioSeek pos) () tr o () → KeepsSeekContract file.inner pos o := by
  refine ⟨seekingLwext4_seeks, ?_⟩
  intro h
  have hseek : Exec seekingLwext4 (tenByteFile.ioSeek (.fromEnd (-4))) ()
      [⟨.ext4Fseek tenByteFile.inner (-4) SEEK_END, (EINVAL, tenByteFile.inner)⟩]
      (.ok (.error (.wrapped .other (.invalidArgument "")), tenByteFile)) () :=
    .call (u := ()) (by change _ = fseekReply _ (-4 : Int64).toInt SEEK_END; decide) (.done _ _)
  have hkeeps := h tenByteFile (.fromEnd (-4)) _ _ (by decide) (by decide) hseek
  obtain ⟨_, _, hok, -⟩ := hkeeps
  cases hok

end Ext4Lwext4.Metatheory
