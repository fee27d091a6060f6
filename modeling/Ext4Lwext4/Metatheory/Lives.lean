import Mathlib.Algebra.BigOperators.Group.List.Basic
import Ext4Lwext4.Metatheory.Resources
import Ext4Lwext4.Metatheory.Teardown

/-! # Whole lives of an instance

From the mount to the end, with any client in between: at every moment what
is held is what the instance and the client's open handles stand for. An
instance that is dropped gives all of it back but what lwext4 refused to take. -/

namespace Ext4Lwext4.Metatheory

open Ext4Lwext4.Framework Ext4Lwext4.Model

/-! ## Clients -/

section Clients

variable {build : Build} {E : Environment Call Reply} {fs : Ext4Fs} {id : UInt64}
  {client : Client}

/-- Every operation of a client balances between the handles it had open
before and those it has open after. -/
theorem perform_owns (hfs : fs.mountPoint = mountPointOf id) (hclient : ClientOf fs client)
    {op : ApiOp} {p : Sys (ApiResult × Client)} (hp : client.perform build op = some p) :
    ledger.Owns p (held fs + openHandles client) fun r held' =>
      held' = held fs + openHandles r.2 := by
  obtain rfl := hclient.fs_eq
  cases op with
  | fs op =>
      cases hp
      refine Ledger.owns_bind (fsOp_owns hfs op) ?_
      rintro _ _ rfl
      exact rfl
  | openFile path flags =>
      cases hp
      refine Ledger.owns_bind (openFile_owns hfs flags) ?_
      rintro result _ rfl
      rcases result with e | file
      · exact zero_add _
      · show _ = held client.fs + openHandles { client with files := client.files ++ [some file] }
        rw [openHandles, openHandles, openSlots_append, openSlots_some, opened]
        ac_rfl
  | openDir path =>
      cases hp
      refine Ledger.owns_bind (openDir_owns hfs) ?_
      rintro result _ rfl
      rcases result with e | dir
      · exact zero_add _
      · show _ = held client.fs + openHandles { client with dirs := client.dirs ++ [some dir] }
        rw [openHandles, openHandles, openSlots_append, openSlots_some, opened]
        ac_rfl
  | file handle op =>
      obtain ⟨file, hfile, rfl⟩ := Option.map_eq_some_iff.mp hp
      -- the file of the handle beside all others
      obtain ⟨others, hothers, hset⟩ := openSlots_set ofFile hfile
      have hfile := hclient.file? hfile
      have hbefore : held client.fs + openHandles client =
          heldWith file (held file.fs + (others + openSlots ofDir client.dirs)) := by
        rw [openHandles, hothers, hfile, heldWith]
        ac_rfl
      rw [hbefore]
      refine Ledger.owns_bind (fileOp_owns (hfile ▸ hfs) op) ?_
      rintro ⟨result, file'⟩ _ rfl
      show _ = held client.fs +
        openHandles { client with files := client.files.set handle (some file') }
      rw [openHandles, hset, openSlots_some, hfile, heldWith]
      ac_rfl
  | dir handle op =>
      obtain ⟨dir, hdir, rfl⟩ := Option.map_eq_some_iff.mp hp
      obtain ⟨others, hothers, hset⟩ := openSlots_set ofDir hdir
      have hbefore : held client.fs + openHandles client =
          {ofDir dir} +
            (held client.fs + (openSlots ofFile client.files + others)) := by
        rw [openHandles, hothers]
        ac_rfl
      rw [hbefore]
      refine Ledger.owns_bind (dirOp_owns dir op) ?_
      rintro ⟨result, dir'⟩ _ rfl
      show _ = held client.fs +
        openHandles { client with dirs := client.dirs.set handle (some dir') }
      rw [openHandles, hset, openSlots_some]
      ac_rfl
  | dropFile handle =>
      obtain ⟨file, hfile, rfl⟩ := Option.map_eq_some_iff.mp hp
      obtain ⟨others, hothers, hset⟩ := openSlots_set ofFile hfile
      refine ⟨held client.fs + (others + openSlots ofDir client.dirs), ?_, ?_⟩
      · rw [openHandles, hothers]
        show _ = {ofFile file} + _
        ac_rfl
      · intro code
        show (0 : Multiset Resource) + _ =
          held client.fs + openHandles { client with files := client.files.set handle none }
        rw [openHandles, hset, openSlots_none, zero_add, zero_add]
  | dropDir handle =>
      obtain ⟨dir, hdir, rfl⟩ := Option.map_eq_some_iff.mp hp
      obtain ⟨others, hothers, hset⟩ := openSlots_set ofDir hdir
      refine ⟨held client.fs + (openSlots ofFile client.files + others), ?_, ?_⟩
      · rw [openHandles, hothers]
        show _ = {ofDir dir} + _
        ac_rfl
      · intro code
        show (0 : Multiset Resource) + _ =
          held client.fs + openHandles { client with dirs := client.dirs.set handle none }
        rw [openHandles, hset, openSlots_none, zero_add, zero_add]

/-- As long as the run goes on, what is held is what is in scope. -/
def Accounts (fs : Ext4Fs) (holding : Multiset Resource) (a : Option Client × E.State) : Prop :=
  ∀ client, a.1 = some client → holding = held fs + openHandles client

theorem accounts_mounted (s : E.State) : Accounts fs (held fs) (some (.mounted fs), s) := by
  rintro _ ⟨⟩
  exact (add_zero _).symm

variable {a b : Option Client × E.State} {e : Performed} {performed : List Performed}
  {holding : Multiset Resource}

theorem step_balances (hfs : fs.mountPoint = mountPointOf id)
    (h : Client.Step build E a e b) (ha : Serves fs a) (hacc : Accounts fs holding a) :
    ∃ holding', ledger.Balances holding e.trace holding' ∧ Accounts fs holding' b := by
  cases h with
  | returned hp hexec =>
      have howns := perform_owns hfs (ha _ rfl) hp
      rw [← hacc _ rfl] at howns
      obtain ⟨holding', hbal, hheld⟩ := howns.balances hexec
      refine ⟨holding', hbal, ?_⟩
      rintro client ⟨rfl⟩
      exact hheld _ rfl
  | halted hp hexec =>
      have howns := perform_owns hfs (ha _ rfl) hp
      rw [← hacc _ rfl] at howns
      obtain ⟨holding', hbal, -⟩ := howns.balances hexec
      exact ⟨holding', hbal, nofun⟩

theorem run_balances (hfs : fs.mountPoint = mountPointOf id)
    (h : Runs (Client.Step build E) a performed b) (ha : Serves fs a)
    (hacc : Accounts fs holding a) :
    ∃ holding', ledger.Balances holding (calls performed) holding' ∧ Accounts fs holding' b := by
  induction h generalizing holding with
  | nil _ => exact ⟨holding, .nil _, hacc⟩
  | cons hst _ ih =>
      obtain ⟨mid, hbal, hacc⟩ := step_balances hfs hst ha hacc
      obtain ⟨holding', hrest, hacc⟩ := ih (step_serves hst ha) hacc
      exact ⟨holding', hbal.append hrest, hacc⟩

end Clients

/-! ## Mounting -/

/-- What a call did not take back: the resources that a failed release leaves. -/
def unreleased : SysEvent → Multiset Resource
  | ⟨.ext4JournalStop mp, code⟩ => kept code (.journal mp.bytes)
  | ⟨.ext4Umount mp, code⟩ => kept code (.mount mp.bytes)
  | ⟨.ext4DeviceUnregister name, code⟩ => kept code (.device name)
  | _ => 0

def leaked (tr : List SysEvent) : Multiset Resource := (tr.map unreleased).sum

section Mount

variable {wrapper : BdevPtr} {dn mp : CString} {readOnly : Bool} {tr : List SysEvent}

/-- Take a step of a trace by naming what it leaves alone. -/
theorem balances_cons {holding next last : Multiset Resource} {c : Call} {r : Reply c}
    (rest : Multiset Resource) (hc : holding = needed c + rest) (hr : left c r + rest = next)
    (h : ledger.Balances next tr last) : ledger.Balances holding (⟨c, r⟩ :: tr) last :=
  .cons ⟨rest, hc, hr.symm⟩ h

theorem RegisteredTrace.balances_ok {fs : Ext4Fs}
    (h : RegisteredTrace wrapper dn mp readOnly tr (.ok fs)) :
    ledger.Balances {.box wrapper} tr (held fs) := by
  cases h with
  | readOnly recover =>
      refine balances_cons 0 rfl rfl ?_
      refine balances_cons {.box wrapper} rfl rfl ?_
      refine balances_cons ({.box wrapper} + {.device dn}) ?_ ?_ (.nil _)
      · simp only [left, needed, granted_zero]
        ac_rfl
      · simp only [left, needed, held, Bool.false_eq_true, if_false, add_zero]
        ac_rfl
  | readWrite recover start =>
      refine balances_cons 0 rfl rfl ?_
      refine balances_cons {.box wrapper} rfl rfl ?_
      refine balances_cons ({.box wrapper} + {.device dn}) ?_ rfl ?_
      · simp only [left, needed, granted_zero]
        ac_rfl
      refine balances_cons ({.box wrapper} + {.device dn}) rfl ?_ (.nil _)
      simp only [left, held, granted, decide_eq_true_eq]
      ac_rfl

/-- A mount that fails keeps no device but one lwext4 did not take back. -/
theorem RegisteredTrace.balances_error {e : Error}
    (h : RegisteredTrace wrapper dn mp readOnly tr (.error e)) :
    ledger.Balances {.box wrapper} tr ({.box wrapper} + leaked tr) := by
  cases h with
  | @registerFailed _ code h =>
      refine balances_cons 0 rfl ?_ (.nil _)
      simp [left, leaked, unreleased, granted_of_ne h]
  | @mountFailed _ code h unregister =>
      refine balances_cons 0 rfl rfl ?_
      refine balances_cons {.box wrapper} rfl rfl ?_
      refine balances_cons {.box wrapper} ?_ ?_ (.nil _)
      · simp [left, needed, granted_of_ne h]
      · simp [left, leaked, unreleased, add_comm]

/-- What `mount` holds when it is over: the instance it returns, or nothing. -/
theorem MountTrace.balances {o : Outcome (Except Error Ext4Fs)} (h : MountTrace readOnly tr o) :
    (∀ fs, o = .ok (.ok fs) → ledger.Balances 0 tr (held fs) ∧ leaked tr = 0 ∧
      ∃ id, fs.mountPoint = mountPointOf id) ∧
    ((∀ fs, o ≠ .ok (.ok fs)) → ledger.Balances 0 tr (leaked tr)) := by
  cases h with
  | panicked id why =>
      refine ⟨nofun, fun _ => ?_⟩
      exact balances_cons 0 rfl rfl (.nil _)
  | @mounted id bdev wrapper body fs hbody =>
      refine ⟨?_, fun hne => absurd rfl (hne fs)⟩
      rintro _ ⟨⟩
      refine ⟨?_, ?_, ?_⟩
      · refine balances_cons 0 rfl rfl ?_
        refine balances_cons 0 rfl (add_zero _) ?_
        exact hbody.balances_ok
      · cases hbody <;> rfl
      · cases hbody with
        | readOnly recover => exact ⟨id, rfl⟩
        | readWrite recover start => exact ⟨id, rfl⟩
  | @failed id bdev wrapper body e hbody =>
      refine ⟨nofun, fun _ => ?_⟩
      refine balances_cons 0 rfl rfl ?_
      refine balances_cons 0 rfl (add_zero _) ?_
      refine hbody.balances_error.append ?_
      refine balances_cons (leaked body) rfl ?_ (.nil _)
      simp [left, leaked, unreleased]

end Mount

/-! ## The end -/

section End

variable {fs : Ext4Fs} {tr : List SysEvent}

theorem leaked_append (tr tr' : List SysEvent) : leaked (tr ++ tr') = leaked tr + leaked tr' := by
  simp [leaked]

/-- Stopping the journal leaves the rest, and the journal where it failed. -/
theorem stopCalls_balances (fs : Ext4Fs) (stop : Int32) :
    ledger.Balances (held fs) (stopCalls fs stop)
      ({.box fs.wrapper} + {.device fs.deviceName} + {.mount fs.mountPoint.bytes} +
        leaked (stopCalls fs stop)) := by
  unfold held stopCalls
  rcases hjournal : fs.journalActive with _ | _
  · exact .nil _
  · refine balances_cons ({.box fs.wrapper} + {.device fs.deviceName}) ?_ ?_ (.nil _)
    · simp only [needed, if_true]
      ac_rfl
    · simp only [left, leaked, unreleased, if_true, List.map_cons, List.map_nil, List.sum_cons,
        List.sum_nil, add_zero]
      ac_rfl

/-- A drop gives back all an instance holds but what lwext4 did not take back. -/
theorem DropTrace.balances (h : DropTrace fs tr) : ledger.Balances (held fs) tr (leaked tr) := by
  obtain ⟨stop, flush, umount, unregister⟩ := h
  refine (stopCalls_balances fs stop).append ?_
  rw [leaked_append]
  refine balances_cons
    ({.box fs.wrapper} + {.device fs.deviceName} + leaked (stopCalls fs stop)) ?_ rfl ?_
  · simp only [needed]
    ac_rfl
  refine balances_cons
    ({.box fs.wrapper} + {.device fs.deviceName} + leaked (stopCalls fs stop)) rfl rfl ?_
  refine balances_cons ({.box fs.wrapper} + leaked (stopCalls fs stop) +
    kept umount (.mount fs.mountPoint.bytes)) ?_ rfl ?_
  · simp only [left, needed]
    ac_rfl
  refine balances_cons (leaked (stopCalls fs stop) + kept umount (.mount fs.mountPoint.bytes) +
    kept unregister (.device fs.deviceName)) ?_ ?_ (.nil _)
  · simp only [left, needed]
    ac_rfl
  · simp only [left, leaked, unreleased, List.map_cons, List.map_nil, List.sum_cons,
      List.sum_nil, add_zero, zero_add]
    ac_rfl

end End

/-! ## Lives -/

/-- No file and no directory is left open: the borrows of the instance have ended. -/
def AllClosed (client : Client) : Prop :=
  (∀ slot ∈ client.files, slot = none) ∧ ∀ slot ∈ client.dirs, slot = none

theorem openSlots_closed {α : Type} {resource : α → Resource} {slots : List (Option α)}
    (h : ∀ slot ∈ slots, slot = none) : openSlots resource slots = 0 := by
  induction slots with
  | nil => rfl
  | cons slot slots ih =>
      rw [openSlots_cons, h slot List.mem_cons_self, openSlots_none, zero_add]
      exact ih fun slot hslot => h slot (List.mem_cons_of_mem _ hslot)

theorem AllClosed.openHandles {client : Client} (h : AllClosed client) :
    openHandles client = 0 := by
  rw [Metatheory.openHandles, openSlots_closed h.1, openSlots_closed h.2, zero_add]

/-- The calls of one attempt to mount a device: those of a mount that leaves no
instance, or those of an instance that a client works with, closes all it
opened, and drops. -/
inductive Life {D : Type} [BlockDevice D] (build : Build) (device : D) (readOnly : Bool)
    (E : Environment Call Reply) : E.State → List SysEvent → E.State → Prop
  | unmounted {s t : E.State} {tr : List SysEvent} {o : Outcome (Except Error Ext4Fs)} :
      Exec E (Ext4Fs.mount build device readOnly) s tr o t → (∀ fs, o ≠ .ok (.ok fs)) →
      Life build device readOnly E s tr t
  | dropped {s u v t : E.State} {mountTrace dropTrace : List SysEvent} {fs : Ext4Fs}
      {performed : List Performed} {client : Client} :
      Exec E (Ext4Fs.mount build device readOnly) s mountTrace (.ok (.ok fs)) u →
      Runs (Client.Step build E) (some (.mounted fs), u) performed (some client, v) →
      AllClosed client → Exec E fs.dropGlue v dropTrace (.ok ()) t →
      Life build device readOnly E s (mountTrace ++ calls performed ++ dropTrace) t

section Lives

variable {D : Type} [BlockDevice D] {build : Build} {device : D} {readOnly : Bool}
  {E : Environment Call Reply} {s u t : E.State} {fs : Ext4Fs}

/-- From the mount on, and whatever lwext4 replies, every call of a client's
run names what is held at that time: a live mount, a file or directory that is
open and as lwext4 left it. What is held after the run is what the instance and
the open handles stand for. -/
theorem handles_accounted {mountTrace : List SysEvent} {performed : List Performed}
    {last : Option Client × E.State}
    (hmount : Exec E (Ext4Fs.mount build device readOnly) s mountTrace (.ok (.ok fs)) u)
    (hrun : Runs (Client.Step build E) (some (.mounted fs), u) performed last) :
    ∃ holding, ledger.Balances 0 (mountTrace ++ calls performed) holding ∧
      ∀ client, last.1 = some client → holding = held fs + openHandles client := by
  obtain ⟨hbal, -, id, hfs⟩ := (mount_trace hmount).balances.1 fs rfl
  obtain ⟨holding, hcalls, hacc⟩ := run_balances hfs hrun (serves_mounted u) (accounts_mounted u)
  exact ⟨holding, hbal.append hcalls, hacc⟩

/-- A client that has opened a file of `sampleFs`. -/
def sampleClient : Client := ⟨sampleFs, [some ⟨sampleFs, .default, "log"⟩], []⟩

def sampleOpened (p : CString) : Performed :=
  ⟨.openFile "log" .READ, .ok (.ok (.handle 0)),
    [⟨.ext4Fopen2 .default p (OpenFlags.toRaw .READ), ((0 : Int32), .default)⟩]⟩

def sampleClosed : Performed :=
  ⟨.dropFile 0, .ok (.ok .unit), [⟨.ext4Fclose .default, (0 : Int32)⟩]⟩

theorem sampleFs_opens : ∃ p,
    Client.Step .checked (.chaos Call Reply) (some (.mounted sampleFs), ()) (sampleOpened p)
      (some sampleClient, ()) := by
  obtain ⟨p, hp, -⟩ := Ext4Fs.makePath_ok (show sampleFs.mountPoint = mountPointOf 4 from rfl)
    (show 0 ∉ strBytes "log" by decide)
  refine ⟨p, .returned rfl ?_⟩
  unfold File.openFile
  simp only [Client.mounted]
  rw [hp]
  exact Exec.chaos_call (.done _ _)

theorem sampleClient_closes :
    Client.Step .checked (.chaos Call Reply) (some sampleClient, ()) sampleClosed
      (some ⟨sampleFs, [none], []⟩, ()) :=
  .returned rfl (Exec.chaos_call (.done _ _))

theorem handles_accounted_opened : ∃ p holding,
    ledger.Balances 0 (journaledMount 4 sampleBdev 9 0 0 ++ calls [sampleOpened p]) holding ∧
      holding = held sampleFs + openHandles sampleClient := by
  obtain ⟨p, hopen⟩ := sampleFs_opens
  obtain ⟨holding, hbal, hheld⟩ := handles_accounted sampleFs_mounted (.single hopen)
  exact ⟨p, holding, hbal, hheld sampleClient rfl⟩

/-- A client's own calls release nothing of the instance. -/
theorem leaked_calls {performed : List Performed} {last : Option Client × E.State}
    (hrun : Runs (Client.Step build E) (some (.mounted fs), u) performed last) :
    leaked (calls performed) = 0 := by
  refine List.sum_eq_zero fun resources hmem => ?_
  obtain ⟨ev, hev, rfl⟩ := List.mem_map.mp hmem
  obtain ⟨op, hop⟩ := calls_mayCall hrun (serves_mounted u) ev hev
  have hlife := hop.not_lifecycle
  obtain ⟨c, r⟩ := ev
  cases c <;> first | rfl | cases hlife

/-- Every life of an instance that ends with a drop, and every mount that
fails, gives back all it was given: nothing is used before it is given or
after it was given back, nothing is given back twice, and what is still held
at the end are the releases lwext4 refused. -/
theorem life_returns_everything {tr : List SysEvent} (h : Life build device readOnly E s tr t) :
    ledger.Balances 0 tr (leaked tr) := by
  cases h with
  | unmounted hmount hnone => exact (mount_trace hmount).balances.2 hnone
  | @dropped _ u v _ _ fs _ client hmount hrun hclosed hdrop =>
      obtain ⟨hbal, hleaked, id, hfs⟩ := (mount_trace hmount).balances.1 _ rfl
      obtain ⟨holding, hcalls, hacc⟩ := run_balances hfs hrun (serves_mounted u)
        (accounts_mounted u)
      have hall : holding = held fs := by
        rw [hacc _ rfl, hclosed.openHandles, add_zero]
      rw [leaked_append, leaked_append, hleaked, leaked_calls hrun, zero_add, zero_add]
      exact (hbal.append (hall ▸ hcalls)).append (dropGlue_trace hdrop).2.balances

/-- Mount, open, close, drop. -/
theorem sampleLife : ∃ p, Life .checked sampleMemory false (.chaos Call Reply) ()
    (journaledMount 4 sampleBdev 9 0 0 ++ calls [sampleOpened p, sampleClosed] ++
      (stopCalls sampleFs 0 ++ [⟨.ext4CacheFlush sampleFs.mountPoint, (0 : Int32)⟩,
        ⟨.ext4Umount sampleFs.mountPoint, (0 : Int32)⟩,
        ⟨.ext4DeviceUnregister sampleFs.deviceName, (0 : Int32)⟩,
        ⟨.dropWrapper sampleFs.wrapper, ()⟩])) () := by
  obtain ⟨p, hopen⟩ := sampleFs_opens
  refine ⟨p, .dropped sampleFs_mounted (.cons hopen (.single sampleClient_closes)) ?_
    (DropTrace.exec (.mk 0 0 0 0))⟩
  exact ⟨by simp, by simp⟩

theorem life_returns_everything_sample : ∃ tr,
    Life .checked sampleMemory false (.chaos Call Reply) () tr () ∧
      ledger.Balances 0 tr (leaked tr) ∧ leaked tr = 0 := by
  obtain ⟨p, hlife⟩ := sampleLife
  exact ⟨_, hlife, life_returns_everything hlife, rfl⟩

end Lives

end Ext4Lwext4.Metatheory
