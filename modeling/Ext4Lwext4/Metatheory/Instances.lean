import Ext4Lwext4.Framework.Separation
import Ext4Lwext4.Metatheory.Lives
import Ext4Lwext4.Model.Instances

/-! # Instances do not meet

Every call of a client takes something its instance holds or its client has
open. Where lwext4 keeps its mounts apart, a client in a process of many
therefore does what it could have done alone, however its calls and those of
the others come. -/

namespace Ext4Lwext4.Metatheory

open Ext4Lwext4.Framework Ext4Lwext4.Model

/-! ## What belongs to an instance -/

/-- The resources of an instance, whose mount point lwext4 keeps at `mp`: open
files and directories point to it. -/
def Belongs (fs : Ext4Fs) (mp : UInt64) : Resource → Prop
  | .box wrapper => wrapper = fs.wrapper
  | .device name => name = fs.deviceName
  | .mount point | .journal point => point = fs.mountPoint.bytes
  | .file inner => inner.mp = mp
  | .dir inner => inner.f.mp = mp

theorem held_belongs (fs : Ext4Fs) (mp : UInt64) : ∀ x ∈ held fs, Belongs fs mp x := by
  intro x hx
  simp only [held, Multiset.mem_add, Multiset.mem_singleton] at hx
  rcases hx with ((rfl | rfl) | rfl) | hx
  · exact rfl
  · exact rfl
  · exact rfl
  · split at hx
    · rw [Multiset.mem_singleton.mp hx]
      exact rfl
    · exact absurd hx (Multiset.notMem_zero x)

/-- No operation has a call for free. -/
theorem MayCall.takes {fs : Ext4Fs} {op : ApiOp} {c : Call} (h : MayCall fs op c) :
    ledger.takes c ≠ 0 := by
  have hlife := h.not_lifecycle
  have hpaths : ∀ x y : Resource, ({x} ∪ {y} : Multiset Resource) ≠ 0 := fun x y hzero =>
    Multiset.singleton_ne_zero x (Multiset.le_zero.mp (hzero ▸ Multiset.le_union_left))
  cases c <;> first | exact Multiset.singleton_ne_zero _ | exact hpaths _ _ | cases hlife

/-! ## A client among others -/

section Alone

variable {build : Build} {P : Environment Call Reply} {fs : Ext4Fs} {mp : UInt64}
  {start : Option Client × P.State} {done : List Performed}

/-- In its own part of lwext4 the client has performed the operations of `done`
one after another, and is where the session says. -/
def Alone (build : Build) (P : Environment Call Reply) (fs : Ext4Fs) (mp : UInt64)
    (start : Option Client × P.State) (done : List Performed) : Session → P.State → Prop
  | .idle client, t => Runs (Client.Step build P) start done (some client, t) ∧
      ClientOf fs client ∧ ∀ x ∈ held fs + openHandles client, Belongs fs mp x
  | .busy op made rest, t => ∃ client u p, Runs (Client.Step build P) start done (some client, u) ∧
      ClientOf fs client ∧ client.perform build op = some p ∧ Underway P p u made rest t ∧
      ledger.Stays (Belongs fs mp) rest fun r held' => held' = held fs + openHandles r.2
  | .ended, t => Runs (Client.Step build P) start done (none, t)

theorem alone_mounted (s : P.State) :
    Alone build P fs mp (some (.mounted fs), s) [] (.idle (.mounted fs)) s := by
  refine ⟨.nil _, .mounted fs, ?_⟩
  have hopen : openHandles (.mounted fs) = 0 := rfl
  rw [hopen, add_zero]
  exact held_belongs fs mp

theorem alone_begin {client : Client} {op : ApiOp} {p : Sys (ApiResult × Client)} {t : P.State}
    {id : UInt64} (hfs : fs.mountPoint = mountPointOf id)
    (h : Alone build P fs mp start done (.idle client) t) (hp : client.perform build op = some p) :
    Alone build P fs mp start done (.busy op [] p) t := by
  obtain ⟨hrun, hclient, hmine⟩ := h
  refine ⟨client, t, p, hrun, hclient, hp, .start, ⟨_, hmine, perform_owns hfs hclient hp⟩, ?_⟩
  exact (perform_ensures hclient hp).mono (fun _ hc => hc.takes) fun _ _ => trivial

theorem alone_returned {client : Client} {op : ApiOp} {made : List SysEvent} {result : ApiResult}
    {t : P.State} (h : Alone build P fs mp start done (.busy op made (.done (result, client))) t) :
    Alone build P fs mp start (done ++ [⟨op, .ok result, made⟩]) (.idle client) t := by
  obtain ⟨before, u, p, hrun, hclient, hp, hunder, ⟨holding, hmine, hQ⟩, -⟩ := h
  have hexec := hunder.exec (.done (result, client) t)
  rw [List.append_nil] at hexec
  have hholding : holding = held fs + openHandles client := hQ
  refine ⟨hrun.append (.single (.returned hp hexec)), ?_, hholding ▸ hmine⟩
  exact (perform_ensures hclient hp).result_of_exec hexec

theorem alone_halted {op : ApiOp} {made : List SysEvent} {why : Halt} {t : P.State}
    (h : Alone build P fs mp start done (.busy op made (.halt why)) t) :
    Alone build P fs mp start (done ++ [⟨op, .error why, made⟩]) .ended t := by
  obtain ⟨before, u, p, hrun, -, hp, hunder, -⟩ := h
  have hexec := hunder.exec (.halt why t)
  rw [List.append_nil] at hexec
  exact hrun.append (.single (.halted hp hexec))

end Alone

/-! ## Runs of a process -/

section Process

variable {ι : Type} [DecidableEq ι] {build : Build} {E : Environment Call Reply}
  {part : ι → Environment Call Reply} {view : (i : ι) → E.State → (part i).State}
  {fs : ι → Ext4Fs} {mp : ι → UInt64}
  {start : (i : ι) → Option Client × (part i).State} {done : ι → List Performed}

/-- The step lemma: the client that moves goes on alone, and no other notices. -/
theorem step_alone (hE : Separate ledger (fun i => Belongs (fs i) (mp i)) E part view)
    (hfs : ∀ i, ∃ id, (fs i).mountPoint = mountPointOf id) {a b : E.State × (ι → Session)}
    {l : ι × ProcessAction} (h : Process.Step build E a l b)
    (ha : ∀ i, Alone build (part i) (fs i) (mp i) (start i) (done i) (a.2 i) (view i a.1)) (i : ι) :
    Alone build (part i) (fs i) (mp i) (start i) (done i ++ performedBy i [l]) (b.2 i)
      (view i b.1) := by
  -- what a step does to a client that does not take it
  have hother : ∀ {j action s t} {session : Session}, j ≠ i → a.1 = s → view i t = view i s →
      Alone build (part i) (fs i) (mp i) (start i) (done i ++ performedBy i [(j, action)])
        (Function.update a.2 j session i) (view i t) := by
    rintro j action s t session hj rfl hview
    rw [performedBy_of_ne hj, List.append_nil, Function.update_of_ne (Ne.symm hj), hview]
    exact ha i
  have hself : ∀ {action t} {session : Session},
      Alone build (part i) (fs i) (mp i) (start i) (done i ++ action.performed?.toList) session
        (view i t) →
      Alone build (part i) (fs i) (mp i) (start i) (done i ++ performedBy i [(i, action)])
        (Function.update a.2 i session i) (view i t) := by
    intro action t session h
    rw [performedBy_self, Function.update_self]
    exact h
  have hmoves : ∀ {j session}, a.2 j = session →
      Alone build (part j) (fs j) (mp j) (start j) (done j) session (view j a.1) := by
    rintro j session rfl
    exact ha j
  cases h with
  | @begin s session j client op p hidle hp =>
      by_cases hj : j = i
      · subst hj
        obtain ⟨id, hid⟩ := hfs j
        refine hself ?_
        rw [show (ProcessAction.begin op).performed?.toList = [] from rfl, List.append_nil]
        exact alone_begin hid (hmoves hidle) hp
      · exact hother hj rfl rfl
  | @call s t session j op made c k r hbusy hstep =>
      obtain ⟨client, u, p, hrun, hclient, hp, hunder, hstays⟩ := hmoves hbusy
      obtain ⟨hown, hstays, hothers⟩ := hE.step hstays hstep
      by_cases hj : j = i
      · subst hj
        refine hself ?_
        rw [show (ProcessAction.call ⟨c, r⟩).performed?.toList = [] from rfl, List.append_nil]
        exact ⟨client, u, p, hrun, hclient, hp, hunder.call hown, hstays⟩
      · exact hother hj rfl (hothers i (Ne.symm hj))
  | @returned s session j op made result client hbusy =>
      by_cases hj : j = i
      · subst hj
        exact hself (alone_returned (hmoves hbusy))
      · exact hother hj rfl rfl
  | @halted s session j op made why hbusy =>
      by_cases hj : j = i
      · subst hj
        exact hself (alone_halted (hmoves hbusy))
      · exact hother hj rfl rfl

/-- The run lemma. -/
theorem run_alone (hE : Separate ledger (fun i => Belongs (fs i) (mp i)) E part view)
    (hfs : ∀ i, ∃ id, (fs i).mountPoint = mountPointOf id) {a b : E.State × (ι → Session)}
    {ls : List (ι × ProcessAction)} (h : Runs (Process.Step build E) a ls b)
    (ha : ∀ i, Alone build (part i) (fs i) (mp i) (start i) (done i) (a.2 i) (view i a.1)) (i : ι) :
    Alone build (part i) (fs i) (mp i) (start i) (done i ++ performedBy i ls) (b.2 i)
      (view i b.1) := by
  induction h generalizing done with
  | nil _ =>
      rw [show performedBy i [] = [] from rfl, List.append_nil]
      exact ha i
  | @cons _ _ _ l ls hst _ ih =>
      have hrest := ih (step_alone hE hfs hst ha)
      rwa [List.append_assoc, ← performedBy_append, List.singleton_append] at hrest

/-- Where a client is after the operations of `done`, in an environment it has
to itself. -/
def RunsAlone (build : Build) (P : Environment Call Reply) (start : Option Client × P.State)
    (done : List Performed) : Session → P.State → Prop
  | .idle client, t => Runs (Client.Step build P) start done (some client, t)
  | .busy op made rest, t => ∃ client u p, Runs (Client.Step build P) start done (some client, u) ∧
      client.perform build op = some p ∧ Underway P p u made rest t
  | .ended, t => Runs (Client.Step build P) start done (none, t)

theorem Alone.runsAlone {P : Environment Call Reply} {fs : Ext4Fs} {mp : UInt64}
    {start : Option Client × P.State} {done : List Performed} {session : Session} {t : P.State}
    (h : Alone build P fs mp start done session t) : RunsAlone build P start done session t := by
  cases session with
  | idle client => exact h.1
  | busy op made rest =>
      obtain ⟨client, u, p, hrun, -, hp, hunder, -⟩ := h
      exact ⟨client, u, p, hrun, hp, hunder⟩
  | ended => exact h

end Process

/-! ## Keeping mounts apart -/

/-- Instances of different numbers, in boxes and mounted at places of their
own, have nothing in common. -/
theorem belongs_disjoint {ι : Type} {fs : ι → Ext4Fs} {mp ids : ι → UInt64}
    (hids : Function.Injective ids) (hdevice : ∀ i, (fs i).deviceName = deviceNameOf (ids i))
    (hmount : ∀ i, (fs i).mountPoint = mountPointOf (ids i))
    (hbox : Function.Injective fun i => (fs i).wrapper) (hmp : Function.Injective mp) (i j : ι)
    (x : Resource) (hi : Belongs (fs i) (mp i) x) (hj : Belongs (fs j) (mp j) x) : i = j := by
  have hpoint : ∀ {b : Bytes}, b = (fs i).mountPoint.bytes → b = (fs j).mountPoint.bytes →
      i = j := by
    rintro b rfl hb
    have hsame : mountPointOf (ids i) = mountPointOf (ids j) := by
      rw [← hmount, ← hmount]
      cases hi : (fs i).mountPoint
      cases hj : (fs j).mountPoint
      simpa [hi, hj] using hb
    exact hids (mountPointOf_injective hsame)
  cases x with
  | box wrapper => exact hbox (Eq.trans (Eq.symm hi) hj)
  | device name =>
      have hsame : deviceNameOf (ids i) = deviceNameOf (ids j) := by
        rw [← hdevice, ← hdevice]
        exact Eq.trans (Eq.symm hi) hj
      exact hids (deviceNameOf_injective hsame)
  | mount point => exact hpoint hi hj
  | journal point => exact hpoint hi hj
  | file inner => exact hmp (Eq.trans (Eq.symm hi) hj)
  | dir inner => exact hmp (Eq.trans (Eq.symm hi) hj)

/-- Two instances, as they come from two mounts. -/
def twoFs : Bool → Ext4Fs
  | false => sampleFs
  | true => ⟨10, deviceNameOf 5, mountPointOf 5, false, false⟩

def twoMounts : Bool → UInt64
  | false => 1
  | true => 2

abbrev twoBelong (i : Bool) : Resource → Prop := Belongs (twoFs i) (twoMounts i)

/-- A lwext4 of two mounts, either of which may reply anything. -/
def twoLwext4 : Environment Call Reply := .shared ledger twoBelong fun _ => .chaos Call Reply

def twoIds : Bool → UInt64
  | false => 4
  | true => 5

theorem twoFs_mounted : ∀ i, (twoFs i).mountPoint = mountPointOf (twoIds i)
  | false => rfl
  | true => rfl

theorem twoFs_disjoint (i j : Bool) (x : Resource) : twoBelong i x → twoBelong j x → i = j := by
  have hids : Function.Injective twoIds := Bool.injective_iff.mpr (by decide)
  have hmounts : Function.Injective twoMounts := Bool.injective_iff.mpr (by decide)
  have hboxes : Function.Injective fun i => (twoFs i).wrapper := Bool.injective_iff.mpr (by decide)
  have hdevices : ∀ i, (twoFs i).deviceName = deviceNameOf (twoIds i)
    | false => rfl
    | true => rfl
  exact belongs_disjoint hids hdevices twoFs_mounted hboxes hmounts i j x

theorem twoLwext4_separate : Separate ledger twoBelong twoLwext4 (fun _ => .chaos Call Reply)
    fun i s => s i := shared_separate _ twoFs_disjoint

/-- The calls of paths are served by the mount of the path. -/
theorem twoLwext4_step {c : Call} (hc : ∀ r, left c r = needed c) (r : Reply c)
    (s : twoLwext4.State) : twoLwext4.step s c r s := by
  intro i
  refine ⟨fun h => ⟨trivial, ?_⟩, fun _ => rfl⟩
  rw [show ledger.gives c r = needed c from hc r]
  exact h.2

theorem rmdir_perform {fs : Ext4Fs} {p : CString} (hfs : fs.readOnly = false)
    (hp : fs.makePath "log" = .ok p) :
    (Client.mounted fs).perform .checked (.fs (.rmdir "log")) =
      some (.call (.ext4DirRm p) fun code =>
        .done ((checkErrnoWithPath code "log").map fun _ => .unit, .mounted fs)) := by
  show some (_ : Sys (ApiResult × Client)) = _
  simp only [FsOp.perform, Ext4Fs.rmdir, Ext4Fs.changePath, Client.mounted, hfs, hp]
  rfl

def removed (p : CString) (code : Int32) : Performed :=
  ⟨.fs (.rmdir "log"), .ok ((checkErrnoWithPath code "log").map fun _ => .unit),
    [⟨.ext4DirRm p, code⟩]⟩

/-- Both remove a directory of the same name, one in the middle of the other. -/
def removals (p q : CString) : List (Bool × ProcessAction) :=
  [(false, .begin (.fs (.rmdir "log"))), (true, .begin (.fs (.rmdir "log"))),
    (true, .call ⟨.ext4DirRm q, (0 : Int32)⟩), (true, .finish (removed q 0)),
    (false, .call ⟨.ext4DirRm p, ENOENT⟩), (false, .finish (removed p ENOENT))]

theorem removals_run {p q : CString} (hp : (twoFs false).makePath "log" = .ok p)
    (hq : (twoFs true).makePath "log" = .ok q) : ∃ session,
    Runs (Process.Step .checked twoLwext4) (fun _ => (), fun i => .idle (.mounted (twoFs i)))
      (removals p q) (fun _ => (), session) ∧ session false = .idle (.mounted (twoFs false)) := by
  have hstep : ∀ p code, twoLwext4.step (fun _ => ()) (.ext4DirRm p) code fun _ => () :=
    fun p code => twoLwext4_step (fun _ => rfl) code _
  exact ⟨_, .cons (.begin rfl (rmdir_perform rfl hp)) (.cons (.begin rfl (rmdir_perform rfl hq))
    (.cons (.call rfl (hstep q 0)) (.cons (.returned rfl)
      (.cons (.call rfl (hstep p ENOENT)) (.cons (.returned rfl) (.nil _)))))), rfl⟩

end Ext4Lwext4.Metatheory
