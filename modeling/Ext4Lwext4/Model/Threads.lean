import Mathlib.Logic.Function.Basic
import Ext4Lwext4.Framework.Transition
import Ext4Lwext4.Model.BlockDeviceWrapper

/-! # Threads that share an instance

`BlockDeviceWrapper` is declared `Sync`, so any number of threads call lwext4
through one `&Ext4Fs`. lwext4 brackets each transfer with the lock callbacks
and has no lock of its own, as `ext4_mount_setup_locks` is never called. A
callback takes a reference to the device when it is entered and gives it back
when it is left. -/

namespace Ext4Lwext4.Model

open Ext4Lwext4.Framework

/-- The callbacks that lwext4 brackets. -/
def Callback.IsTransfer : Callback → Prop
  | .bread _ _ _ | .bwrite _ _ _ => True
  | _ => False

/-- The callbacks of the device's life, which are not bracketed. -/
def Callback.OpensOrCloses : Callback → Prop
  | .openDevice | .closeDevice => True
  | _ => False

/-- The callbacks that take the device by `as_mut`. -/
def Callback.TakesMut : Callback → Prop
  | .bwrite _ _ _ | .openDevice | .closeDevice => True
  | _ => False

/-- Where a thread is: outside the crate, in lwext4, or in one of the callbacks
or between two of them. -/
inductive Phase
  | idle
  | running
  | locked
  | inside (cb : Callback)
  | left

/-- Who may use the instance. `mount` has not returned it yet, `umount` and
`drop` have taken it by value, and in between it is shared. -/
inductive Stage (ι : Type)
  | mounting (i : ι)
  | shared
  | ending (i : ι)

/-- The thread that has the instance to itself. -/
def Stage.OwnedBy {ι : Type} (i : ι) : Stage ι → Prop
  | .mounting j | .ending j => j = i
  | .shared => False

structure Threads (ι D : Type) where
  wrapper : BlockDeviceWrapper D
  stage : Stage ι
  phase : ι → Phase

inductive ThreadAction
  | mounted
  | call
  | reply
  | take
  | lock
  | enter (cb : Callback)
  | leave
  | unlock

namespace Threads

variable {ι D : Type} [DecidableEq ι]

/-- A thread in `mount`, the others without an instance. -/
def mounting (wrapper : BlockDeviceWrapper D) (i : ι) : Threads ι D :=
  ⟨wrapper, .mounting i, Function.update (fun _ => .idle) i .running⟩

theorem mounting_phase_self (wrapper : BlockDeviceWrapper D) (i : ι) :
    (mounting wrapper i).phase i = .running := by
  simp [mounting]

theorem mounting_phase_of_ne (wrapper : BlockDeviceWrapper D) {i j : ι} (h : j ≠ i) :
    (mounting wrapper i).phase j = .idle := by
  simp [mounting, h]

/-- Thread `i` goes on to `phase`. -/
def goto (s : Threads ι D) (i : ι) (phase : Phase) : Threads ι D :=
  { s with phase := Function.update s.phase i phase }

@[simp] theorem goto_phase_self (s : Threads ι D) (i : ι) (p : Phase) :
    (s.goto i p).phase i = p := Function.update_self _ _ _

theorem goto_phase_of_ne (s : Threads ι D) {i j : ι} (p : Phase) (h : j ≠ i) :
    (s.goto i p).phase j = s.phase j := Function.update_of_ne h _ _

variable [BlockDevice D]

inductive Step (build : Build) : Threads ι D → ι × ThreadAction → Threads ι D → Prop
  | mounted {s : Threads ι D} {i : ι} (hstage : s.stage = .mounting i)
      (hi : s.phase i = .running) :
      Step build s (i, .mounted) { s.goto i .idle with stage := .shared }
  /-- an operation on the shared instance or on a file of it -/
  | call {s : Threads ι D} {i : ι} (hstage : s.stage = .shared) (hi : s.phase i = .idle) :
      Step build s (i, .call) (s.goto i .running)
  | reply {s : Threads ι D} {i : ι} (hstage : s.stage = .shared) (hi : s.phase i = .running) :
      Step build s (i, .reply) (s.goto i .idle)
  /-- `umount` or `drop`, when nothing borrows the instance -/
  | take {s : Threads ι D} {i : ι} (hstage : s.stage = .shared)
      (hidle : ∀ j, s.phase j = .idle) :
      Step build s (i, .take) { s.goto i .running with stage := .ending i }
  | lock {s : Threads ι D} {i : ι} {wrapper : BlockDeviceWrapper D} (hi : s.phase i = .running)
      (hcode : Callback.lock.invoke build s.wrapper = .ok (0, wrapper)) :
      Step build s (i, .lock) { s.goto i .locked with wrapper }
  | enter {s : Threads ι D} {i : ι} {cb : Callback} (hi : s.phase i = .locked)
      (hcb : cb.IsTransfer) : Step build s (i, .enter cb) (s.goto i (.inside cb))
  | leave {s : Threads ι D} {i : ι} {cb : Callback} {code : Int32}
      {wrapper : BlockDeviceWrapper D} (hi : s.phase i = .inside cb) (hcb : cb.IsTransfer)
      (hcode : cb.invoke build s.wrapper = .ok (code, wrapper)) :
      Step build s (i, .leave) { s.goto i .left with wrapper }
  | unlock {s : Threads ι D} {i : ι} {wrapper : BlockDeviceWrapper D} (hi : s.phase i = .left)
      (hcode : Callback.unlock.invoke build s.wrapper = .ok (0, wrapper)) :
      Step build s (i, .unlock) { s.goto i .running with wrapper }
  | enterAlone {s : Threads ι D} {i : ι} {cb : Callback} (hstage : s.stage.OwnedBy i)
      (hi : s.phase i = .running) (hcb : cb.OpensOrCloses) :
      Step build s (i, .enter cb) (s.goto i (.inside cb))
  | leaveAlone {s : Threads ι D} {i : ι} {cb : Callback} {code : Int32}
      {wrapper : BlockDeviceWrapper D} (hi : s.phase i = .inside cb) (hcb : cb.OpensOrCloses)
      (hcode : cb.invoke build s.wrapper = .ok (code, wrapper)) :
      Step build s (i, .leave) { s.goto i .running with wrapper }

end Threads

end Ext4Lwext4.Model
