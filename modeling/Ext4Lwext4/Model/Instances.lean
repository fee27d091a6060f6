import Mathlib.Logic.Function.Basic
import Ext4Lwext4.Model.Api

/-! # Instances in one process

`DEVICE_COUNTER` is there so that a process can have several filesystems
mounted. Each has a client of its own, and all of them call the one lwext4:
between any two calls of an operation there may be calls of the others. -/

namespace Ext4Lwext4.Model

open Ext4Lwext4.Framework

/-- Where a client is: between two operations, in one of them with the calls it
has made so far, or ended by a panic. -/
inductive Session
  | idle (client : Client)
  | busy (op : ApiOp) (made : List SysEvent) (rest : Sys (ApiResult × Client))
  | ended

inductive ProcessAction
  | begin (op : ApiOp)
  | call (ev : SysEvent)
  | finish (performed : Performed)

variable {ι : Type} [DecidableEq ι]

/-- One step of one client. -/
inductive Process.Step (build : Build) (E : Environment Call Reply) :
    E.State × (ι → Session) → ι × ProcessAction → E.State × (ι → Session) → Prop
  | begin {s : E.State} {session : ι → Session} {i : ι} {client : Client} {op : ApiOp}
      {p : Sys (ApiResult × Client)} : session i = .idle client →
      client.perform build op = some p →
      Process.Step build E (s, session) (i, .begin op)
        (s, Function.update session i (.busy op [] p))
  | call {s t : E.State} {session : ι → Session} {i : ι} {op : ApiOp} {made : List SysEvent}
      {c : Call} {k : Reply c → Sys (ApiResult × Client)} {r : Reply c} :
      session i = .busy op made (.call c k) → E.step s c r t →
      Process.Step build E (s, session) (i, .call ⟨c, r⟩)
        (t, Function.update session i (.busy op (made ++ [⟨c, r⟩]) (k r)))
  | returned {s : E.State} {session : ι → Session} {i : ι} {op : ApiOp} {made : List SysEvent}
      {result : ApiResult} {client : Client} : session i = .busy op made (.done (result, client)) →
      Process.Step build E (s, session) (i, .finish ⟨op, .ok result, made⟩)
        (s, Function.update session i (.idle client))
  | halted {s : E.State} {session : ι → Session} {i : ι} {op : ApiOp} {made : List SysEvent}
      {why : Halt} : session i = .busy op made (.halt why) →
      Process.Step build E (s, session) (i, .finish ⟨op, .error why, made⟩)
        (s, Function.update session i .ended)

/-- The operation that an action ends. -/
def ProcessAction.performed? : ProcessAction → Option Performed
  | .finish performed => some performed
  | _ => none

/-- The operations a client has performed, in order. -/
def performedBy (i : ι) (ls : List (ι × ProcessAction)) : List Performed :=
  ls.filterMap fun l => if l.1 = i then l.2.performed? else none

theorem performedBy_append (i : ι) (ls ls' : List (ι × ProcessAction)) :
    performedBy i (ls ++ ls') = performedBy i ls ++ performedBy i ls' := List.filterMap_append

theorem performedBy_self (i : ι) (action : ProcessAction) :
    performedBy i [(i, action)] = action.performed?.toList := by
  cases action <;> simp [performedBy, ProcessAction.performed?]

theorem performedBy_of_ne {i j : ι} (h : j ≠ i) (action : ProcessAction) :
    performedBy i [(j, action)] = [] := by
  simp [performedBy, h]

end Ext4Lwext4.Model
