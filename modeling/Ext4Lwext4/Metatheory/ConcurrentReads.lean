import Mathlib.Algebra.BigOperators.Group.Finset.Basic
import Mathlib.Algebra.Order.BigOperators.Group.Finset
import Ext4Lwext4.Model.FileReaders
import Ext4Lwext4.Metatheory.DeviceGeometry

/-! # Reads of one file device at the same time

Every call seeks under the lock, so between its seek and its last read nobody
else moves the cursor. Whoever holds the guard has the cursor behind the bytes
it has read, and the order in which the guards are dropped is an order in which
the calls could have run one after another. -/

namespace Ext4Lwext4.Metatheory

open Ext4Lwext4.Framework Ext4Lwext4.Model

/-! ## One call alone -/

/-- A device whose blocks are in its file and whose lock is not poisoned,
writable or not. -/
structure Readable (dev : FileBlockDevice) : Prop where
  pos : dev.blockSize ≠ 0
  holds : dev.blockCount.toNat * dev.blockSize.toNat ≤ dev.bytes.length
  unpoisoned : dev.file.poisoned = false

/-- The device with its cursor elsewhere. -/
def withCursor (dev : FileBlockDevice) (cursor : ℕ) : FileBlockDevice :=
  dev.setFile { dev.file.inner with cursor := cursor }

/-- The byte of the image a call starts at. -/
def readOffset (dev : FileBlockDevice) (call : ReadCall) : ℕ :=
  call.blockId.toNat * dev.blockSize.toNat

/-- The bytes of the image a call is for. -/
def readBytes (dev : FileBlockDevice) (call : ReadCall) : Bytes :=
  window dev.bytes (readOffset dev call) call.buf.length

/-- The count it returns. -/
def readCount (dev : FileBlockDevice) (call : ReadCall) : UInt32 :=
  (len call.buf).toUInt32 / dev.blockSize

/-- A call of whole blocks that the device has. -/
def ReadCall.InRange (dev : FileBlockDevice) (call : ReadCall) : Prop :=
  (Transfer.read call.blockId call.buf).InRange dev.blockSize dev.blockCount

section Alone

variable {dev : FileBlockDevice} {call : ReadCall} {build : Build}

theorem readOffset_add_le (hdev : Readable dev) (hr : ReadCall.InRange dev call) :
    readOffset dev call + call.buf.length ≤ dev.bytes.length :=
  (Transfer.InRange.offset_add_le hr).trans hdev.holds

theorem readOffset_le_isizeMax (hdev : Readable dev) (hr : ReadCall.InRange dev call) :
    readOffset dev call ≤ isizeMax := by
  have hle := readOffset_add_le hdev hr
  have hfits : dev.bytes.length ≤ isizeMax := dev.file.inner.fits
  omega

theorem length_readBytes (hdev : Readable dev) (hr : ReadCall.InRange dev call) :
    (readBytes dev call).length = call.buf.length :=
  length_window (readOffset_add_le hdev hr)

/-- Wherever the cursor was, the call returns its bytes and leaves the cursor
behind them. -/
theorem readBlocks_withCursor (build : Build) (hdev : Readable dev)
    (hr : ReadCall.InRange dev call) (cursor : ℕ) :
    (withCursor dev cursor).readBlocks build call.blockId call.buf =
      .ok (.ok (readCount dev call), readBytes dev call,
        withCursor dev (readOffset dev call + call.buf.length)) := by
  have hmax := readOffset_le_isizeMax hdev hr
  have hlen : (window dev.file.inner.bytes (call.blockId.toNat * dev.blockSize.toNat)
      call.buf.length).length = call.buf.length := length_readBytes hdev hr
  have hread := @FileBlockDevice.readBlocks_eq build (withCursor dev cursor) call.blockId call.buf
    hdev.pos hdev.unpoisoned hmax
  rw [hread]
  simp only [HostFile.readExact, withCursor, FileBlockDevice.setFile, hlen, if_true,
    List.drop_length, List.append_nil]
  rfl

theorem readRequest_eq (build : Build) (hdev : Readable dev) (hr : ReadCall.InRange dev call)
    (cursor : ℕ) : ∃ offset, (withCursor dev cursor).readRequest build call =
      .ok (offset, readCount dev call) ∧ offset.toNat = readOffset dev call := by
  obtain ⟨offset, hmul, hoffset⟩ := FileBlockDevice.offset_arith build call.blockId dev.blockSize
    (readOffset_le_isizeMax hdev hr)
  refine ⟨offset, ?_, hoffset⟩
  simp only [FileBlockDevice.readRequest, withCursor, FileBlockDevice.setFile, hmul, ok_bind,
    div32_of_ne hdev.pos]
  rfl

end Alone

/-! ## The invariant -/

/-- Between the lock and the drop of its guard. -/
def Holding : ReadPhase → Prop
  | .locked _ _ _ | .reading _ _ _ | .unlocking _ _ => True
  | .called _ | .waiting _ _ _ | .returned _ _ | .panicked => False

/-- What is known of a call by where it is, with the cursor at `cursor`. -/
def PhaseOk (dev : FileBlockDevice) (call : ReadCall) (cursor : ℕ) : ReadPhase → Prop
  | .called call' => call' = call
  | .waiting offset blockCount buf | .locked offset blockCount buf =>
      offset.toNat = readOffset dev call ∧ blockCount = readCount dev call ∧ buf = call.buf
  | .reading blockCount done rest =>
      blockCount = readCount dev call ∧ done.length + rest.length = call.buf.length ∧
        done = window dev.bytes (readOffset dev call) done.length ∧
        cursor = readOffset dev call + done.length
  | .unlocking result buf =>
      result = .ok (readCount dev call) ∧ buf = readBytes dev call ∧
        cursor = readOffset dev call + call.buf.length
  | .returned result buf => result = .ok (readCount dev call) ∧ buf = readBytes dev call
  | .panicked => False

/-- Only a call with the guard knows where the cursor is. -/
theorem PhaseOk.of_not_holding {dev : FileBlockDevice} {call : ReadCall} {c c' : ℕ}
    {p : ReadPhase} (h : PhaseOk dev call c p) (hp : ¬ Holding p) : PhaseOk dev call c' p := by
  cases p with
  | called _ => exact h
  | waiting _ _ _ => exact h
  | locked _ _ _ => exact absurd trivial hp
  | reading _ _ _ => exact absurd trivial hp
  | unlocking _ _ => exact absurd trivial hp
  | returned _ _ => exact h
  | panicked => exact h

variable {ι : Type}

/-- The bytes of the file are what they were, every call is where it should be,
and the guard is with the call that took it. -/
structure Consistent (dev : FileBlockDevice) (calls : ι → ReadCall) (s : FileReaders ι) : Prop where
  device : ∃ cursor, s.device = withCursor dev cursor
  phases : ∀ i, PhaseOk dev (calls i) s.device.file.inner.cursor (s.phase i)
  holder : ∀ i, Holding (s.phase i) ↔ s.holder = some i

/-- How a step of one call may leave the guard. -/
inductive GuardMoves (i : ι) (p p' : ReadPhase) : Option ι → Option ι → Prop
  | without {h : Option ι} : ¬ Holding p → ¬ Holding p' → GuardMoves i p p' h h
  | taken : Holding p' → GuardMoves i p p' none (some i)
  | kept : Holding p' → GuardMoves i p p' (some i) (some i)
  | dropped : ¬ Holding p' → GuardMoves i p p' (some i) none

theorem GuardMoves.stays {i : ι} {p p' : ReadPhase} {h : Option ι} (hi : h = some i)
    (hp : Holding p') : GuardMoves i p p' h h := by
  rw [hi]
  exact .kept hp

theorem Consistent.phaseOk {dev : FileBlockDevice} {calls : ι → ReadCall} {s : FileReaders ι}
    (hs : Consistent dev calls s) {i : ι} {p : ReadPhase} (hi : s.phase i = p) :
    PhaseOk dev (calls i) s.device.file.inner.cursor p := by
  rw [← hi]
  exact hs.phases i

theorem Consistent.holds {dev : FileBlockDevice} {calls : ι → ReadCall} {s : FileReaders ι}
    (hs : Consistent dev calls s) {i : ι} {p : ReadPhase} (hi : s.phase i = p)
    (hp : Holding p) : s.holder = some i := by
  rw [← hi] at hp
  exact (hs.holder i).mp hp

theorem start_consistent (dev : FileBlockDevice) (calls : ι → ReadCall) :
    Consistent dev calls (.start dev calls) where
  device := ⟨dev.file.inner.cursor, rfl⟩
  phases _ := rfl
  holder i := by
    constructor
    · intro h
      cases h
    · intro h
      cases h

section Step

variable [DecidableEq ι] {dev : FileBlockDevice} {calls : ι → ReadCall} {s t : FileReaders ι}
  {build : Build}

/-- One call moves, and with it the cursor only if it has the guard. -/
theorem Consistent.move (hs : Consistent dev calls s) {i : ι} {p : ReadPhase}
    {device : FileBlockDevice} {holder : Option ι}
    (hdevice : ∃ cursor, device = withCursor dev cursor)
    (hcursor : device = s.device ∨ s.holder = some i)
    (hp : PhaseOk dev (calls i) device.file.inner.cursor p)
    (hguard : GuardMoves i (s.phase i) p s.holder holder) :
    Consistent dev calls { s.goto i p with device, holder } := by
  refine ⟨hdevice, ?_, ?_⟩
  · intro j
    show PhaseOk dev (calls j) device.file.inner.cursor ((s.goto i p).phase j)
    by_cases hj : j = i
    · rw [hj, FileReaders.goto_phase_self]
      exact hp
    · rw [s.goto_phase_of_ne p hj]
      rcases hcursor with rfl | hholder
      · exact hs.phases j
      · -- `i` has the guard, so `j` does not look at the cursor
        refine (hs.phases j).of_not_holding ?_
        intro hholding
        have hsome := ((hs.holder j).mp hholding).symm.trans hholder
        exact hj (Option.some.inj hsome)
  · intro j
    show Holding ((s.goto i p).phase j) ↔ holder = some j
    have hbefore := hs.holder j
    generalize s.holder = before at hguard hbefore
    by_cases hj : j = i
    · rw [hj, FileReaders.goto_phase_self]
      rw [hj] at hbefore
      cases hguard with
      | without hp₀ hp => exact iff_of_false hp fun h => hp₀ (hbefore.mpr h)
      | taken hp => exact iff_of_true hp rfl
      | kept hp => exact iff_of_true hp rfl
      | dropped hp => exact iff_of_false hp nofun
    · rw [s.goto_phase_of_ne p hj, hbefore]
      have hne : some i ≠ some j := fun h => hj (Option.some.inj h).symm
      cases hguard with
      | without _ _ => exact Iff.rfl
      | taken _ => exact iff_of_false nofun hne
      | kept _ => exact Iff.rfl
      | dropped _ => exact iff_of_false hne nofun

/-- The host has a byte for a read that is not done. -/
theorem available_ne_nil (hdev : Readable dev) {call : ReadCall} (hr : ReadCall.InRange dev call)
    {done rest : Bytes} (hlen : done.length + rest.length = call.buf.length) (hrest : rest ≠ [])
    {file : HostFile} (hbytes : file.bytes = dev.bytes)
    (hcursor : file.cursor = readOffset dev call + done.length) :
    file.available rest.length ≠ [] := by
  have hle := readOffset_add_le hdev hr
  have hpos : 0 < rest.length := List.length_pos_of_ne_nil hrest
  have hthere : (file.available rest.length).length = rest.length := by
    refine length_window ?_
    rw [hbytes, hcursor]
    omega
  intro hnil
  rw [hnil, List.length_nil] at hthere
  omega

/-- One read appends the bytes that come next. -/
theorem read_done {call : ReadCall} {done rest : Bytes} {n : ℕ}
    (hlen : done.length + rest.length = call.buf.length)
    (hdone : done = window dev.bytes (readOffset dev call) done.length)
    {file : HostFile} (hbytes : file.bytes = dev.bytes)
    (hcursor : file.cursor = readOffset dev call + done.length)
    (hn : n ≤ (file.available rest.length).length) :
    (done ++ file.available n).length = done.length + n ∧
      (done ++ file.available n).length + (rest.drop n).length = call.buf.length ∧
      done ++ file.available n =
        window dev.bytes (readOffset dev call) (done ++ file.available n).length := by
  have hthere : (file.available n).length = n := by
    simp only [HostFile.available, window, List.length_take, List.length_drop] at hn ⊢
    omega
  have hnrest : n ≤ rest.length := by
    simp only [HostFile.available, window, List.length_take, List.length_drop] at hn
    omega
  have hboth : (done ++ file.available n).length = done.length + n := by
    rw [List.length_append, hthere]
  refine ⟨hboth, ?_, ?_⟩
  · rw [hboth, List.length_drop]
    omega
  · rw [hboth, ← window_append, ← hdone, HostFile.available, hbytes, hcursor]

/-- The step lemma. -/
theorem step_consistent {l : ι × ReadAction} (hdev : Readable dev)
    (hrange : ∀ i, ReadCall.InRange dev (calls i))
    (h : FileReaders.Step build s l t) (hs : Consistent dev calls s) : Consistent dev calls t := by
  obtain ⟨cursor, hdevice⟩ := hs.device
  have hbytes : s.device.file.inner.bytes = dev.bytes := by
    rw [hdevice]
    rfl
  cases h with
  | @compute i call offset blockCount hi hrequest =>
      obtain rfl : call = calls i := hs.phaseOk hi
      obtain ⟨offset', hrequest', hoffset⟩ := readRequest_eq build hdev (hrange i) cursor
      rw [hdevice, hrequest'] at hrequest
      cases hrequest
      refine hs.move ⟨cursor, hdevice⟩ (.inl rfl) ⟨hoffset, rfl, rfl⟩ ?_
      rw [hi]
      exact .without id id
  | @overflow i call why hi hrequest =>
      obtain rfl : call = calls i := hs.phaseOk hi
      obtain ⟨offset, hrequest', -⟩ := readRequest_eq build hdev (hrange i) cursor
      rw [hdevice, hrequest'] at hrequest
      cases hrequest
  | @lock i offset blockCount buf file hi hfree hlock =>
      have hp := hs.phaseOk hi
      refine hs.move ⟨cursor, hdevice⟩ (.inl rfl) hp ?_
      rw [hfree]
      exact .taken trivial
  | @poisoned i offset blockCount buf e hi hfree hlock =>
      have hunpoisoned : s.device.file.poisoned = false := by
        rw [hdevice]
        exact hdev.unpoisoned
      rw [Mutex.lock, hunpoisoned] at hlock
      cases hlock
  | @seek i offset blockCount buf file hi hseek =>
      have hholder := hs.holds hi trivial
      obtain ⟨hoffset, hcount, rfl⟩ := hs.phaseOk hi
      have hmax : offset.toNat ≤ isizeMax := hoffset ▸ readOffset_le_isizeMax hdev (hrange i)
      rw [HostFile.seekStart, if_pos hmax] at hseek
      cases hseek
      refine hs.move ⟨offset.toNat, ?_⟩ (.inr hholder) ?_ ?_
      · rw [hdevice]
        rfl
      · refine ⟨hcount, Nat.zero_add _, ?_, hoffset⟩
        rw [List.length_nil, window, List.take_zero]
      · exact .stays hholder trivial
  | @seekFailed i offset blockCount buf e hi hseek =>
      have hp := hs.phaseOk hi
      have hmax : offset.toNat ≤ isizeMax := hp.1 ▸ readOffset_le_isizeMax hdev (hrange i)
      rw [HostFile.seekStart, if_pos hmax] at hseek
      cases hseek
  | @read i blockCount done rest n hi hpos hn =>
      have hholder := hs.holds hi trivial
      obtain ⟨hcount, hlen, hdone, hcursor⟩ := hs.phaseOk hi
      obtain ⟨hlen', hrest, hdone'⟩ := read_done hlen hdone hbytes hcursor hn
      refine hs.move (p := .reading blockCount _ _) ⟨s.device.file.inner.cursor + n, ?_⟩
        (.inr hholder) ⟨hcount, hrest, hdone', ?_⟩ ?_
      · rw [hdevice]
        rfl
      · show s.device.file.inner.cursor + n = _
        rw [hlen', hcursor, Nat.add_assoc]
      · exact .stays hholder trivial
  | interrupted _ _ => exact hs
  | @endOfFile i blockCount done rest hi hrest hnone =>
      obtain ⟨-, hlen, -, hcursor⟩ := hs.phaseOk hi
      exact absurd hnone (available_ne_nil hdev (hrange i) hlen hrest hbytes hcursor)
  | @filled i blockCount done hi =>
      have hholder := hs.holds hi trivial
      obtain ⟨hcount, hlen, hdone, hcursor⟩ := hs.phaseOk hi
      rw [List.length_nil, Nat.add_zero] at hlen
      refine hs.move (p := .unlocking _ _) ⟨cursor, hdevice⟩ (.inl rfl)
        ⟨by rw [hcount], ?_, ?_⟩ ?_
      · rw [hdone, hlen]
        rfl
      · rw [hcursor, hlen]
      · exact .stays hholder trivial
  | @unlock i result buf hi =>
      have hholder := hs.holds hi trivial
      have hp := hs.phaseOk hi
      refine hs.move ⟨cursor, hdevice⟩ (.inl rfl) ⟨hp.1, hp.2.1⟩ ?_
      rw [hholder]
      exact .dropped id

end Step

/-! ## The calls one after another -/

/-- A call that has returned, with its result and the caller's buffer. -/
abbrev ReadTurn (ι : Type) : Type := ι × Except Error UInt32 × Bytes

/-- The call is the only one. -/
def SequentialRead (build : Build) (calls : ι → ReadCall) (dev : FileBlockDevice)
    (turn : ReadTurn ι) (dev' : FileBlockDevice) : Prop :=
  dev.readBlocks build (calls turn.1).blockId (calls turn.1).buf = .ok (turn.2.1, turn.2.2, dev')

def Returned : ReadPhase → Prop
  | .returned _ _ => True
  | _ => False

/-- The calls that have returned, in the order in which they dropped the guard:
run one after another they return the same and leave the device that whoever
takes the guard next finds. -/
structure Linearized (build : Build) (dev : FileBlockDevice) (calls : ι → ReadCall)
    (turns : List (ReadTurn ι)) (s : FileReaders ι) : Prop where
  returned : ∀ i result buf, s.phase i = .returned result buf ↔ (i, result, buf) ∈ turns
  nodup : (turns.map Prod.fst).Nodup
  run : ∃ cursor, Runs (SequentialRead build calls) dev turns (withCursor dev cursor) ∧
    (s.holder = none → s.device = withCursor dev cursor)

theorem start_linearized (build : Build) (dev : FileBlockDevice) (calls : ι → ReadCall) :
    Linearized build dev calls [] (.start dev calls) where
  returned i result buf := by
    constructor
    · intro h
      cases h
    · intro h
      cases h
  nodup := List.nodup_nil
  run := ⟨dev.file.inner.cursor, .nil dev, fun _ => rfl⟩

section Linear

variable [DecidableEq ι] {dev : FileBlockDevice} {calls : ι → ReadCall} {s t : FileReaders ι}
  {build : Build} {turns : List (ReadTurn ι)}

/-- A step that returns from no call, and moves the cursor under the guard only. -/
theorem Linearized.quiet (hs : Linearized build dev calls turns s) {i : ι} {p : ReadPhase}
    (hi : ¬ Returned (s.phase i)) (hp : ¬ Returned p) {device : FileBlockDevice}
    {holder : Option ι} (hfree : holder = none → s.holder = none ∧ device = s.device) :
    Linearized build dev calls turns { s.goto i p with device, holder } := by
  obtain ⟨cursor, hrun, hcursor⟩ := hs.run
  refine ⟨?_, hs.nodup, cursor, hrun, ?_⟩
  · intro j result buf
    show (s.goto i p).phase j = .returned result buf ↔ _
    rw [← hs.returned]
    by_cases hj : j = i
    · rw [hj, FileReaders.goto_phase_self]
      refine iff_of_false ?_ ?_
      · rintro rfl
        exact hp trivial
      · intro hreturned
        rw [hreturned] at hi
        exact hi trivial
    · rw [s.goto_phase_of_ne p hj]
  · intro hnone
    obtain ⟨hbefore, hdevice⟩ := hfree hnone
    exact hdevice.trans (hcursor hbefore)

/-- The drop of the guard is the turn of the call. -/
theorem Linearized.unlock (hdev : Readable dev) (hrange : ∀ i, ReadCall.InRange dev (calls i))
    (hs : Linearized build dev calls turns s) (hc : Consistent dev calls s) {i : ι}
    {result : Except Error UInt32} {buf : Bytes} (hi : s.phase i = .unlocking result buf) :
    Linearized build dev calls (turns ++ [(i, result, buf)])
      { s.goto i (.returned result buf) with holder := none } := by
  obtain ⟨cursor, hrun, -⟩ := hs.run
  obtain ⟨now, hdevice⟩ := hc.device
  obtain ⟨rfl, rfl, hcursor⟩ := hc.phaseOk hi
  refine ⟨?_, ?_, readOffset dev (calls i) + (calls i).buf.length, ?_, ?_⟩
  · intro j result' buf'
    show (s.goto i _).phase j = .returned result' buf' ↔ _
    rw [List.mem_append, List.mem_singleton, ← hs.returned]
    by_cases hj : j = i
    · subst hj
      rw [FileReaders.goto_phase_self, hi]
      constructor
      · intro h
        cases h
        exact .inr rfl
      · rintro (h | h)
        · cases h
        · cases h
          rfl
    · rw [s.goto_phase_of_ne _ hj]
      refine (or_iff_left ?_).symm
      intro h
      exact hj (Prod.mk.inj h).1
  · -- the call has not returned before
    rw [List.map_append, List.map_singleton, List.nodup_append]
    refine ⟨hs.nodup, List.pairwise_singleton _ _, ?_⟩
    intro j hj k hk hjk
    have hji : j = i := hjk.trans (List.mem_singleton.mp hk)
    obtain ⟨⟨j', result', buf'⟩, hmem, hfst⟩ := List.mem_map.mp hj
    have hbefore := (hs.returned j' result' buf').mpr hmem
    rw [show j' = i from hfst.trans hji, hi] at hbefore
    cases hbefore
  · exact hrun.append (.single (readBlocks_withCursor build hdev (hrange i) cursor))
  · intro _
    show s.device = _
    rw [hdevice] at hcursor ⊢
    show withCursor dev now = withCursor dev _
    rw [← hcursor]
    rfl

theorem step_linearized {l : ι × ReadAction} (hdev : Readable dev)
    (hrange : ∀ i, ReadCall.InRange dev (calls i)) (h : FileReaders.Step build s l t)
    (hc : Consistent dev calls s) (hs : Linearized build dev calls turns s) :
    ∃ turns, Linearized build dev calls turns t := by
  have ht := step_consistent hdev hrange h hc
  cases h with
  | @compute i call offset blockCount hi _ =>
      exact ⟨turns, hs.quiet (by rw [hi]; exact id) (p := .waiting _ _ _) id fun h => ⟨h, rfl⟩⟩
  | @overflow i call why hi _ =>
      have hp := ht.phases i
      rw [FileReaders.goto_phase_self] at hp
      cases hp
  | @lock i offset blockCount buf file hi _ _ =>
      exact ⟨turns, hs.quiet (by rw [hi]; exact id) (p := .locked _ _ _) id nofun⟩
  | @poisoned i offset blockCount buf e hi _ _ =>
      have hp := ht.phases i
      rw [FileReaders.goto_phase_self] at hp
      cases hp.1
  | @seek i offset blockCount buf file hi _ =>
      have hholder := hc.holds hi trivial
      refine ⟨turns, hs.quiet (by rw [hi]; exact id) (p := .reading _ _ _) id ?_⟩
      intro hnone
      cases hholder.symm.trans hnone
  | @seekFailed i offset blockCount buf e hi _ =>
      exact ⟨turns, hs.quiet (by rw [hi]; exact id) (p := .unlocking _ _) id fun h => ⟨h, rfl⟩⟩
  | @read i blockCount done rest n hi _ _ =>
      have hholder := hc.holds hi trivial
      refine ⟨turns, hs.quiet (by rw [hi]; exact id) (p := .reading _ _ _) id ?_⟩
      intro hnone
      cases hholder.symm.trans hnone
  | interrupted _ _ => exact ⟨turns, hs⟩
  | @endOfFile i blockCount done rest hi _ _ =>
      exact ⟨turns, hs.quiet (by rw [hi]; exact id) (p := .unlocking _ _) id fun h => ⟨h, rfl⟩⟩
  | @filled i blockCount done hi =>
      exact ⟨turns, hs.quiet (by rw [hi]; exact id) (p := .unlocking _ _) id fun h => ⟨h, rfl⟩⟩
  | @unlock i result buf hi => exact ⟨_, hs.unlock hdev hrange hc hi⟩

end Linear

/-! ## Whole runs -/

/-- A device from a constructor stays readable whatever is done to it. -/
theorem FileMade.readable {host : Host} {size : ℕ} {blockSize : UInt32} {made : FileBlockDevice}
    (h : FileMade host size blockSize made) (build : Build) (ops : List DeviceOp) :
    Readable (runFile build made ops) := by
  obtain ⟨hsize, hlength, hunpoisoned, hblocks⟩ := h.fresh
  have hsame := runFile_sameBlocks build made ops
  have hbs : (runFile build made ops).blockSize = blockSize := hsame.blockSize.trans hsize
  refine ⟨hbs ▸ hblocks.pos, ?_, hsame.poisoned.trans hunpoisoned⟩
  rw [hsame.blockCount, hbs]
  exact hblocks.le.trans (hlength ▸ hsame.length)

section Run

variable [DecidableEq ι] {dev : FileBlockDevice} {calls : ι → ReadCall} {s : FileReaders ι}
  {build : Build}

/-- The run lemma. -/
theorem run_linearized (hdev : Readable dev) (hrange : ∀ i, ReadCall.InRange dev (calls i))
    {ls : List (ι × ReadAction)}
    (h : Runs (FileReaders.Step build) (.start dev calls) ls s) :
    Consistent dev calls s ∧ ∃ turns, Linearized build dev calls turns s := by
  refine h.invariant (I := fun s => Consistent dev calls s ∧
    ∃ turns, Linearized build dev calls turns s) ?_
    ⟨start_consistent dev calls, [], start_linearized build dev calls⟩
  rintro s l t hstep ⟨hc, turns, hs⟩
  exact ⟨step_consistent hdev hrange hstep hc, step_linearized hdev hrange hstep hc hs⟩

/-! ## Every call returns -/

/-- The steps a call has before it, where every read is of one byte and none is
interrupted. -/
def stepsLeft : ReadPhase → ℕ
  | .called call => call.buf.length + 5
  | .waiting _ _ buf => buf.length + 4
  | .locked _ _ buf => buf.length + 3
  | .reading _ _ rest => rest.length + 2
  | .unlocking _ _ => 1
  | .returned _ _ | .panicked => 0

/-- Anything but an interruption. -/
def busy (action : ReadAction) : Bool := decide (action ≠ .interrupted)

/-- A step takes its call one further, and no other call anywhere. -/
theorem step_advances {i : ι} {action : ReadAction} {t : FileReaders ι}
    (h : FileReaders.Step build s (i, action) t) : ∃ p, t.phase = Function.update s.phase i p ∧
      stepsLeft p + (busy action).toNat ≤ stepsLeft (s.phase i) := by
  cases h with
  | compute hi _ => exact ⟨_, rfl, hi ▸ Nat.le_refl _⟩
  | overflow hi _ => exact ⟨_, rfl, hi ▸ Nat.le_add_left 1 _⟩
  | lock hi _ _ => exact ⟨_, rfl, hi ▸ Nat.le_refl _⟩
  | poisoned hi _ _ => exact ⟨_, rfl, hi ▸ Nat.le_add_left 1 _⟩
  | seek hi _ => exact ⟨_, rfl, hi ▸ Nat.le_refl _⟩
  | seekFailed hi _ => exact ⟨_, rfl, hi ▸ Nat.le_add_left 2 _⟩
  | @read _ _ _ rest n hi hpos hn =>
      refine ⟨_, rfl, hi ▸ ?_⟩
      have hfits : n ≤ rest.length := by
        simp only [HostFile.available, window, List.length_take] at hn
        omega
      have hone : (busy (.read n)).toNat = 1 := rfl
      simp only [stepsLeft, List.length_drop, hone]
      omega
  | interrupted hi _ => exact ⟨s.phase i, (Function.update_eq_self i _).symm, Nat.le_refl _⟩
  | endOfFile hi _ _ => exact ⟨_, rfl, hi ▸ Nat.le_add_left 2 _⟩
  | filled hi => exact ⟨_, rfl, hi ▸ Nat.le_refl _⟩
  | unlock hi => exact ⟨_, rfl, hi ▸ Nat.le_refl _⟩

/-- The steps all calls have before them. -/
def allStepsLeft [Fintype ι] (s : FileReaders ι) : ℕ := ∑ i, stepsLeft (s.phase i)

theorem step_lowers [Fintype ι] {l : ι × ReadAction} {t : FileReaders ι}
    (h : FileReaders.Step build s l t) : allStepsLeft t + (busy l.2).toNat ≤ allStepsLeft s := by
  obtain ⟨i, action⟩ := l
  obtain ⟨p, hphase, hle⟩ := step_advances h
  unfold allStepsLeft
  rw [hphase, ← Finset.add_sum_erase _ _ (Finset.mem_univ i),
    ← Finset.add_sum_erase _ (fun j => stepsLeft (s.phase j)) (Finset.mem_univ i)]
  have hothers : ∑ j ∈ Finset.univ.erase i, stepsLeft (Function.update s.phase i p j) =
      ∑ j ∈ Finset.univ.erase i, stepsLeft (s.phase j) :=
    Finset.sum_congr rfl fun j hj => by
      rw [Function.update_of_ne (Finset.ne_of_mem_erase hj)]
  rw [hothers, Function.update_self]
  dsimp only
  omega

/-- Whoever has the guard can go on to its end. -/
theorem holder_steps (hdev : Readable dev) (hrange : ∀ i, ReadCall.InRange dev (calls i))
    (hc : Consistent dev calls s) {i : ι} (hi : Holding (s.phase i)) :
    ∃ l t, FileReaders.Step build s l t ∧ busy l.2 = true := by
  obtain ⟨cursor, hdevice⟩ := hc.device
  cases hphase : s.phase i with
  | locked offset blockCount buf =>
      have hp := hc.phaseOk hphase
      have hmax : offset.toNat ≤ isizeMax := hp.1 ▸ readOffset_le_isizeMax hdev (hrange i)
      exact ⟨_, _, .seek hphase (if_pos hmax), rfl⟩
  | reading blockCount done rest =>
      obtain ⟨-, hlen, -, hcursor⟩ := hc.phaseOk hphase
      by_cases hrest : rest = []
      · subst hrest
        exact ⟨_, _, .filled hphase, rfl⟩
      · have hbytes : s.device.file.inner.bytes = dev.bytes := by
          rw [hdevice]
          rfl
        have hsome := available_ne_nil hdev (hrange i) hlen hrest hbytes hcursor
        exact ⟨_, _, .read hphase Nat.one_pos (List.length_pos_of_ne_nil hsome), rfl⟩
  | unlocking result buf => exact ⟨_, _, .unlock hphase, rfl⟩
  | called _ | waiting _ _ _ | returned _ _ | panicked =>
      rw [hphase] at hi
      cases hi

/-- Nothing is stuck while a call has not returned. -/
theorem readers_progress (hdev : Readable dev) (hrange : ∀ i, ReadCall.InRange dev (calls i))
    (hc : Consistent dev calls s) {i : ι} (hi : ¬ Returned (s.phase i)) :
    ∃ l t, FileReaders.Step build s l t ∧ busy l.2 = true := by
  obtain ⟨cursor, hdevice⟩ := hc.device
  cases hholder : s.holder with
  | some j => exact holder_steps hdev hrange hc ((hc.holder j).mpr hholder)
  | none =>
      cases hphase : s.phase i with
      | called call =>
          obtain rfl : call = calls i := hc.phaseOk hphase
          obtain ⟨offset, hrequest, -⟩ := readRequest_eq build hdev (hrange i) cursor
          rw [← hdevice] at hrequest
          exact ⟨_, _, .compute hphase hrequest, rfl⟩
      | waiting offset blockCount buf =>
          have hlock : s.device.file.lock = .ok s.device.file.inner := by
            have hunpoisoned : s.device.file.poisoned = false := by
              rw [hdevice]
              exact hdev.unpoisoned
            rw [Mutex.lock, hunpoisoned]
            rfl
          exact ⟨_, _, .lock hphase hholder hlock, rfl⟩
      | locked _ _ _ | reading _ _ _ | unlocking _ _ =>
          exact holder_steps hdev hrange hc (i := i) (by rw [hphase]; trivial)
      | returned _ _ =>
          rw [hphase] at hi
          exact absurd trivial hi
      | panicked => exact (hc.phaseOk hphase).elim

/-- From every state of a run all calls can be brought to return. -/
theorem readers_return [Fintype ι] (hdev : Readable dev)
    (hrange : ∀ i, ReadCall.InRange dev (calls i)) (hc : Consistent dev calls s) :
    ∃ ls t, Runs (FileReaders.Step build) s ls t ∧ ∀ i, Returned (t.phase i) := by
  refine Runs.exists_final (I := Consistent dev calls) allStepsLeft (fun s hs hnot => ?_) hc
  obtain ⟨i, hi⟩ := not_forall.mp hnot
  have hmoves : ∃ l t, FileReaders.Step build s l t ∧ busy l.2 = true :=
    readers_progress hdev hrange hs hi
  obtain ⟨l, t, hstep, hbusy⟩ := hmoves
  have hlower := step_lowers hstep
  rw [hbusy, Bool.toNat_true] at hlower
  exact ⟨l, t, hstep, step_consistent hdev hrange hstep hs, hlower⟩

end Run

/-- On a device from any constructor, after whatever was done to it: in every
interleaving of calls in range no call panics, each that returns has the bytes
of the image at its own offset, the image is as it was, and the guard is back
when all have returned. Whenever nobody holds it, the calls that have returned
could have run one after another. However a run of finitely many calls has
begun, it can go on until all have returned, and it has only so many steps that
are no interruption. -/
theorem concurrent_reads_linearizable [DecidableEq ι] {host : Host} {size : ℕ}
    {blockSize : UInt32} {made dev : FileBlockDevice} {build : Build} {ops : List DeviceOp}
    (hmade : FileMade host size blockSize made) (hdev : dev = runFile build made ops)
    {calls : ι → ReadCall} (hrange : ∀ i, ReadCall.InRange dev (calls i))
    {ls : List (ι × ReadAction)} {s : FileReaders ι}
    (h : Runs (FileReaders.Step build) (.start dev calls) ls s) :
    (∀ i, s.phase i ≠ .panicked) ∧
    (∀ i result buf, s.phase i = .returned result buf →
      result = .ok (readCount dev (calls i)) ∧ buf = readBytes dev (calls i)) ∧
    s.device.bytes = dev.bytes ∧
    ((∀ i, Returned (s.phase i)) → s.holder = none) ∧
    (s.holder = none → ∃ turns : List (ReadTurn ι), (turns.map Prod.fst).Nodup ∧
      (∀ i result buf, s.phase i = .returned result buf ↔ (i, result, buf) ∈ turns) ∧
      Runs (SequentialRead build calls) dev turns s.device) ∧
    ∀ [Fintype ι],
      (∃ ls' t, Runs (FileReaders.Step build) s ls' t ∧ ∀ i, Returned (t.phase i)) ∧
      (ls.countP fun l => busy l.2) ≤ ∑ i, ((calls i).buf.length + 5) := by
  have hreadable : Readable dev := hdev ▸ hmade.readable build ops
  obtain ⟨hc, turns, hs⟩ := run_linearized hreadable hrange h
  refine ⟨?_, ?_, ?_, ?_, ?_, ?_⟩
  · intro i hi
    exact hc.phaseOk hi
  · intro i result buf hi
    exact hc.phaseOk hi
  · obtain ⟨cursor, hdevice⟩ := hc.device
    rw [hdevice]
    rfl
  · intro hall
    cases hholder : s.holder with
    | none => rfl
    | some i =>
        -- a call that has returned holds nothing
        have hholding := (hc.holder i).mpr hholder
        have hreturned := hall i
        cases hphase : s.phase i with
        | returned _ _ =>
            rw [hphase] at hholding
            cases hholding
        | _ =>
            rw [hphase] at hreturned
            cases hreturned
  · intro hfree
    obtain ⟨cursor, hrun, hdevice⟩ := hs.run
    refine ⟨turns, hs.nodup, hs.returned, ?_⟩
    rw [hdevice hfree]
    exact hrun
  · intro _
    have hcount := h.countP_le_rank allStepsLeft (fun l => busy l.2) fun _ _ _ => step_lowers
    have hstart : allStepsLeft (.start dev calls) = ∑ i, ((calls i).buf.length + 5) := rfl
    rw [hstart] at hcount
    exact ⟨readers_return hreadable hrange hc, (Nat.le_add_left _ _).trans hcount⟩

/-- A call of both blocks of the sample device and a call of the second one. -/
def sampleCalls (i : Bool) : ReadCall := if i then ⟨0, [0, 0, 0, 0]⟩ else ⟨1, [1, 1]⟩

/-- The one is still reading, a byte and then three, when the other is made. -/
theorem sampleCalls_run : ∃ ls s, Runs (FileReaders.Step .checked)
    (.start sampleFile sampleCalls) ls s ∧ ∀ i, Returned (s.phase i) := by
  refine ⟨_, _, .cons (.compute (i := true) rfl rfl) (.cons (.lock (i := true) rfl rfl rfl)
    (.cons (.seek (i := true) rfl rfl) (.cons (.read (i := true) (n := 1) rfl ?_ ?_)
    (.cons (.compute (i := false) rfl rfl) (.cons (.read (i := true) (n := 3) rfl ?_ ?_)
    (.cons (.filled (i := true) rfl) (.cons (.unlock (i := true) rfl)
    (.cons (.lock (i := false) rfl rfl rfl) (.cons (.seek (i := false) rfl rfl)
    (.cons (.read (i := false) (n := 2) rfl ?_ ?_) (.cons (.filled (i := false) rfl)
    (.cons (.unlock (i := false) rfl) (.nil _))))))))))))), ?_⟩
  · exact Nat.one_pos
  · decide
  · exact Nat.succ_pos 2
  · decide
  · exact Nat.succ_pos 1
  · decide
  · intro i
    cases i with
    | true => trivial
    | false => trivial

theorem concurrent_reads_linearizable_sample :
    ∃ ls s, Runs (FileReaders.Step .checked) (.start sampleFile sampleCalls) ls s ∧
      (∀ i, Returned (s.phase i)) ∧ s.holder = none ∧ s.device.bytes = [7, 7, 7, 7, 7] ∧
      (ls.countP fun l => busy l.2) ≤ ∑ i, ((sampleCalls i).buf.length + 5) := by
  obtain ⟨ls, s, hrun, hall⟩ := sampleCalls_run
  have hmade : FileMade sampleHost 5 2 sampleFile :=
    @FileMade.openWithBlockSize sampleHost 2 _ ⟨[7, 7, 7, 7, 7], by decide, 0, true⟩ rfl rfl
  have hrange : ∀ i, ReadCall.InRange sampleFile (sampleCalls i) := by
    intro i
    cases i with
    | true => exact ⟨2, by decide, by decide⟩
    | false => exact ⟨1, by decide, by decide⟩
  have hnothing : sampleFile = runFile .checked sampleFile [] := rfl
  obtain ⟨-, -, hbytes, hfree, -, hends⟩ :=
    concurrent_reads_linearizable hmade hnothing hrange hrun
  exact ⟨ls, s, hrun, hall, hfree hall, hbytes, hends.2⟩

end Ext4Lwext4.Metatheory
