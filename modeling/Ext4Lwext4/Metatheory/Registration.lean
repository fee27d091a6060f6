import Ext4Lwext4.Metatheory.Teardown

/-! # Registrations and the wrapper they point to

lwext4 keeps two global tables, of devices and of mount points, whose entries
refer to the `ext4_blockdev` inside a wrapper. Both tables are a function of
the calls made so far. The wrapper is freed at the end of every life, so what
matters is what the tables hold at that moment. -/

namespace Ext4Lwext4.Metatheory

open Ext4Lwext4.Framework Ext4Lwext4.Model

/-! ## The tables -/

structure Tables where
  devices : CString → Option BdevPtr
  mounts : CString → Option BdevPtr

namespace Tables

/-- A call changes the tables when it returns `0`, and only then. -/
def apply (T : Tables) : SysEvent → Tables
  | ⟨.ext4DeviceRegister bd name, ret⟩ =>
      if (ret : Int32) = 0 then { T with devices := Function.update T.devices name (some bd) }
      else T
  | ⟨.ext4DeviceUnregister name, ret⟩ =>
      if (ret : Int32) = 0 then { T with devices := Function.update T.devices name none } else T
  | ⟨.ext4Mount dn mp _, ret⟩ =>
      if (ret : Int32) = 0 then { T with mounts := Function.update T.mounts mp (T.devices dn) }
      else T
  | ⟨.ext4Umount mp, ret⟩ =>
      if (ret : Int32) = 0 then { T with mounts := Function.update T.mounts mp none } else T
  | _ => T

def after (T : Tables) (tr : List SysEvent) : Tables := tr.foldl apply T

/-- Some entry refers to the `ext4_blockdev` at `wrapper`. -/
def Refers (T : Tables) (wrapper : BdevPtr) : Prop :=
  (∃ name, T.devices name = some wrapper) ∨ ∃ mp, T.mounts mp = some wrapper

@[simp] theorem after_nil (T : Tables) : T.after [] = T := rfl

@[simp] theorem after_cons (T : Tables) (e : SysEvent) (tr : List SysEvent) :
    T.after (e :: tr) = (T.apply e).after tr := rfl

@[simp] theorem after_append (T : Tables) (tr tr' : List SysEvent) :
    T.after (tr ++ tr') = (T.after tr).after tr' := List.foldl_append ..

/-- An event that enters nothing into the tables. -/
def EntersNothing (e : SysEvent) : Prop :=
  (∀ bd name, e.1 ≠ .ext4DeviceRegister bd name) ∧ ∀ dn mp ro, e.1 ≠ .ext4Mount dn mp ro

/-- What every event of a trace keeps but for one event that removes it is there
afterwards when it was there before and that event did not occur. -/
theorem after_iff (entry : Tables → Prop) {removal : SysEvent} {tr : List SysEvent}
    (hstep : ∀ T, ∀ e ∈ tr, entry (apply T e) ↔ entry T ∧ removal ≠ e) (T : Tables) :
    entry (T.after tr) ↔ entry T ∧ removal ∉ tr := by
  induction tr generalizing T with
  | nil => simp
  | cons e tr ih =>
      rw [after_cons, ih fun T e he => hstep T e (List.mem_cons_of_mem _ he),
        hstep T e List.mem_cons_self, List.mem_cons, not_or, and_assoc]

/-- Removing a key from a table removes no other. -/
theorem update_none_eq_some_iff {table : CString → Option BdevPtr} {key name : CString}
    {wrapper : BdevPtr} :
    Function.update table key none name = some wrapper ↔
      table name = some wrapper ∧ name ≠ key := by
  by_cases hname : name = key
  · subst hname
    simp
  · rw [Function.update_of_ne hname]
    simp [hname]

/-- From then on an entry of the device table stays until it is unregistered. -/
theorem devices_after (T : Tables) {tr : List SysEvent} (h : ∀ e ∈ tr, EntersNothing e)
    (name : CString) (wrapper : BdevPtr) :
    (T.after tr).devices name = some wrapper ↔
      T.devices name = some wrapper ∧
        (⟨.ext4DeviceUnregister name, (0 : Int32)⟩ : SysEvent) ∉ tr := by
  refine after_iff (fun T => T.devices name = some wrapper) (fun T e he => ?_) T
  have hnothing := h e he
  obtain ⟨c, r⟩ := e
  cases c with
  | ext4DeviceRegister bd n => exact absurd rfl (hnothing.1 bd n)
  | ext4Mount dn mp ro => exact absurd rfl (hnothing.2 dn mp ro)
  | ext4DeviceUnregister n =>
      by_cases hr : r = (0 : Int32)
      · subst hr
        simp [apply, update_none_eq_some_iff]
      · simp [apply, hr, Ne.symm hr]
  | ext4Umount mp =>
      by_cases hr : r = (0 : Int32)
      · simp [apply, hr]
      · simp [apply, hr]
  | _ => simp [apply]

theorem mounts_after (T : Tables) {tr : List SysEvent} (h : ∀ e ∈ tr, EntersNothing e)
    (mp : CString) (wrapper : BdevPtr) :
    (T.after tr).mounts mp = some wrapper ↔
      T.mounts mp = some wrapper ∧ (⟨.ext4Umount mp, (0 : Int32)⟩ : SysEvent) ∉ tr := by
  refine after_iff (fun T => T.mounts mp = some wrapper) (fun T e he => ?_) T
  have hnothing := h e he
  obtain ⟨c, r⟩ := e
  cases c with
  | ext4DeviceRegister bd n => exact absurd rfl (hnothing.1 bd n)
  | ext4Mount dn mp ro => exact absurd rfl (hnothing.2 dn mp ro)
  | ext4Umount m =>
      by_cases hr : r = (0 : Int32)
      · subst hr
        simp [apply, update_none_eq_some_iff]
      · simp [apply, hr, Ne.symm hr]
  | ext4DeviceUnregister n =>
      by_cases hr : r = (0 : Int32)
      · simp [apply, hr]
      · simp [apply, hr]
  | _ => simp [apply]

end Tables

/-! ## Whole lives -/

/-- A life of an instance: a mount that fails, or a mount, what its client
does, and an ending. -/
inductive Lifetime {D : Type} [BlockDevice D] (build : Build) (E : Environment Call Reply)
    (device : D) (readOnly : Bool) (s : E.State) : List SysEvent → E.State → Prop
  | panicked {tr : List SysEvent} {t : E.State} {why : Halt} :
      Exec E (Ext4Fs.mount build device readOnly) s tr (.error why) t →
      Lifetime build E device readOnly s tr t
  | refused {tr : List SysEvent} {t : E.State} {e : Error} :
      Exec E (Ext4Fs.mount build device readOnly) s tr (.ok (.error e)) t →
      Lifetime build E device readOnly s tr t
  | ended {mountTrace endTrace : List SysEvent} {fs : Ext4Fs} {u t v : E.State}
      {performed : List Performed} {c : Option Client} {ending : Ending}
      {result : Except Error Unit} :
      Exec E (Ext4Fs.mount build device readOnly) s mountTrace (.ok (.ok fs)) u →
      Runs (Client.Step build E) (some (.mounted fs), u) performed (c, t) →
      Exec E (fs.finish ending) t endTrace (.ok result) v →
      Lifetime build E device readOnly s (mountTrace ++ calls performed ++ endTrace) v

/-- Whenever a wrapper is freed, no entry of the tables refers to it. -/
def NoDangling (T : Tables) (tr : List SysEvent) : Prop :=
  ∀ before wrapper after, tr = before ++ ⟨.dropWrapper wrapper, ()⟩ :: after →
    ¬ (T.after before).Refers wrapper

/-- Everything that was entered was also removed: each registration by an
unregistration that returned `0`, each mount by such an unmount. -/
structure Compensated (tr : List SysEvent) : Prop where
  unregistered : ∀ bd name, (⟨.ext4DeviceRegister bd name, (0 : Int32)⟩ : SysEvent) ∈ tr →
    (⟨.ext4DeviceUnregister name, (0 : Int32)⟩ : SysEvent) ∈ tr
  umounted : ∀ dn mp ro, (⟨.ext4Mount dn mp ro, (0 : Int32)⟩ : SysEvent) ∈ tr →
    (⟨.ext4Umount mp, (0 : Int32)⟩ : SysEvent) ∈ tr

/-- Where one wrapper is freed, at the end, the tables at that moment decide. -/
theorem noDangling_concat {T : Tables} (tr : List SysEvent) {wrapper : BdevPtr}
    (h : ∀ e ∈ tr, ∀ w, e.1 ≠ .dropWrapper w) :
    NoDangling T (tr ++ [⟨.dropWrapper wrapper, ()⟩]) ↔ ¬ (T.after tr).Refers wrapper := by
  constructor
  · exact fun hno => hno tr wrapper [] rfl
  · intro hno before w after htr
    rcases List.eq_nil_or_concat after with rfl | ⟨after', e, rfl⟩
    · obtain ⟨rfl, hw⟩ := List.append_inj' htr rfl
      cases hw
      exact hno
    · -- a drop before the last event would be one of `tr`
      rw [List.concat_eq_append, ← List.cons_append, ← List.append_assoc] at htr
      obtain ⟨rfl, -⟩ := List.append_inj' htr rfl
      exact absurd rfl (h ⟨.dropWrapper w, ()⟩ (by simp) w)

/-- The calls `pre` entered a wrapper under one device name and, if `mounted`,
one mount point, and removed nothing. -/
structure Entered (T : Tables) (pre : List SysEvent) (wrapper : BdevPtr) (dn mp : CString)
    (mounted : Prop) : Prop where
  devices : ∀ name, (T.after pre).devices name = some wrapper ↔ name = dn
  mounts : ∀ m, (T.after pre).mounts m = some wrapper ↔ m = mp ∧ mounted
  registered : ∀ bd name,
    (⟨.ext4DeviceRegister bd name, (0 : Int32)⟩ : SysEvent) ∈ pre ↔ bd = wrapper ∧ name = dn
  mounted_of : ∀ d m ro, (⟨.ext4Mount d m ro, (0 : Int32)⟩ : SysEvent) ∈ pre → m = mp ∧ mounted
  of_mounted : mounted → ∃ d ro, (⟨.ext4Mount d mp ro, (0 : Int32)⟩ : SysEvent) ∈ pre
  not_unregistered : ∀ name, (⟨.ext4DeviceUnregister name, (0 : Int32)⟩ : SysEvent) ∉ pre
  not_umounted : ∀ m, (⟨.ext4Umount m, (0 : Int32)⟩ : SysEvent) ∉ pre
  not_dropped : ∀ e ∈ pre, ∀ w, e.1 ≠ .dropWrapper w

/-- An event between the entries and the drop of the wrapper. -/
structure Between (e : SysEvent) : Prop where
  enters : Tables.EntersNothing e
  not_dropped : ∀ w, e.1 ≠ .dropWrapper w

section Entered

variable {T : Tables} {pre rest : List SysEvent} {wrapper : BdevPtr} {dn mp : CString}
  {mounted : Prop}

theorem Entered.refers_iff (h : Entered T pre wrapper dn mp mounted)
    (hrest : ∀ e ∈ rest, Between e) :
    (T.after (pre ++ rest)).Refers wrapper ↔
      (⟨.ext4DeviceUnregister dn, (0 : Int32)⟩ : SysEvent) ∉ rest ∨
        mounted ∧ (⟨.ext4Umount mp, (0 : Int32)⟩ : SysEvent) ∉ rest := by
  have henters : ∀ e ∈ rest, Tables.EntersNothing e := fun e he => (hrest e he).enters
  unfold Tables.Refers
  simp only [Tables.after_append, Tables.devices_after _ henters, Tables.mounts_after _ henters,
    h.devices, h.mounts, exists_eq_left, and_assoc]

theorem Entered.compensated_iff (h : Entered T pre wrapper dn mp mounted)
    (hrest : ∀ e ∈ rest, Between e) :
    Compensated (pre ++ rest ++ [⟨.dropWrapper wrapper, ()⟩]) ↔
      (⟨.ext4DeviceUnregister dn, (0 : Int32)⟩ : SysEvent) ∈ rest ∧
        (mounted → (⟨.ext4Umount mp, (0 : Int32)⟩ : SysEvent) ∈ rest) := by
  constructor
  · intro hc
    refine ⟨?_, ?_⟩
    · have hun := hc.unregistered wrapper dn (by simp [(h.registered wrapper dn).mpr ⟨rfl, rfl⟩])
      simpa [h.not_unregistered] using hun
    · intro hm
      obtain ⟨d, ro, hmem⟩ := h.of_mounted hm
      have hum := hc.umounted d mp ro (by simp [hmem])
      simpa [h.not_umounted] using hum
  · rintro ⟨hun, hum⟩
    refine ⟨?_, ?_⟩
    · intro bd name hmem
      have hpre : (⟨.ext4DeviceRegister bd name, (0 : Int32)⟩ : SysEvent) ∈ pre := by
        have hno : (⟨.ext4DeviceRegister bd name, (0 : Int32)⟩ : SysEvent) ∉ rest :=
          fun he => (hrest _ he).enters.1 bd name rfl
        simpa [hno] using hmem
      obtain ⟨rfl, rfl⟩ := (h.registered bd name).mp hpre
      simp [hun]
    · intro d m ro hmem
      have hpre : (⟨.ext4Mount d m ro, (0 : Int32)⟩ : SysEvent) ∈ pre := by
        have hno : (⟨.ext4Mount d m ro, (0 : Int32)⟩ : SysEvent) ∉ rest :=
          fun he => (hrest _ he).enters.2 d m ro rfl
        simpa [hno] using hmem
      obtain ⟨rfl, hm⟩ := h.mounted_of d m ro hpre
      simp [hum hm]

/-- What was entered is gone when the wrapper is freed exactly when it was
removed in between. -/
theorem Entered.noDangling_iff (h : Entered T pre wrapper dn mp mounted) (rest : List SysEvent)
    (hrest : ∀ e ∈ rest, Between e) :
    NoDangling T (pre ++ rest ++ [⟨.dropWrapper wrapper, ()⟩]) ↔
      Compensated (pre ++ rest ++ [⟨.dropWrapper wrapper, ()⟩]) := by
  rw [noDangling_concat, h.refers_iff hrest, h.compensated_iff hrest, not_or, not_not, not_and,
    not_not]
  intro e he
  rcases List.mem_append.mp he with he | he
  · exact h.not_dropped e he
  · exact (hrest e he).not_dropped

end Entered

/-- An entry made for a fresh wrapper is the only one that refers to it. -/
theorem update_eq_some_iff {f : CString → Option BdevPtr} {wrapper : BdevPtr} (name : CString)
    (hfresh : ∀ n, f n ≠ some wrapper) (n : CString) :
    Function.update f name (some wrapper) n = some wrapper ↔ n = name := by
  by_cases hn : n = name
  · simp [hn]
  · simpa [hn] using hfresh n

/-! ### The beginning of a life -/

section Begin

variable {T : Tables} {wrapper : BdevPtr} {dn mp : CString} {readOnly : Bool}

/-- The calls every mount begins with. -/
abbrev boxed (id : UInt64) (bdev : Ext4Blockdev) (wrapper : BdevPtr) : List SysEvent :=
  [⟨.deviceCounterFetchAdd, id⟩, ⟨.boxWrapper bdev, wrapper⟩]

theorem entered_refused (hfresh : ¬ T.Refers wrapper) (id : UInt64) (bdev : Ext4Blockdev)
    {code : Int32} (hcode : code ≠ 0) :
    Entered T (boxed id bdev wrapper ++ [⟨.ext4DeviceRegister wrapper dn, (0 : Int32)⟩,
      ⟨.ext4Mount dn mp readOnly, code⟩]) wrapper dn mp False where
  devices := by
    simpa [Tables.apply, hcode] using update_eq_some_iff dn fun n hn => hfresh (.inl ⟨n, hn⟩)
  mounts m := by
    simpa [Tables.apply, hcode] using fun hm => hfresh (.inr ⟨m, hm⟩)
  registered := by simp
  mounted_of := by simp [Ne.symm hcode]
  of_mounted := False.elim
  not_unregistered := by simp
  not_umounted := by simp
  not_dropped := by simp

theorem entered_mounted (hfresh : ¬ T.Refers wrapper) (id : UInt64) (bdev : Ext4Blockdev)
    {body : List SysEvent} {fs : Ext4Fs}
    (h : RegisteredTrace wrapper dn mp readOnly body (.ok fs)) :
    Entered T (boxed id bdev wrapper ++ body) wrapper dn mp True ∧
      fs.wrapper = wrapper := by
  have hdev := update_eq_some_iff dn fun n hn => hfresh (.inl ⟨n, hn⟩)
  have hmnt := update_eq_some_iff mp fun n hn => hfresh (.inr ⟨n, hn⟩)
  cases h with
  | readOnly recover =>
      refine ⟨?_, rfl⟩
      exact {
        devices := by simpa [Tables.apply] using hdev
        mounts := by simpa [Tables.apply] using hmnt
        registered := by simp
        mounted_of := by simp
        of_mounted := fun _ => ⟨dn, true, by simp⟩
        not_unregistered := by simp
        not_umounted := by simp
        not_dropped := by simp }
  | readWrite recover start =>
      refine ⟨?_, rfl⟩
      exact {
        devices := by simpa [Tables.apply] using hdev
        mounts := by simpa [Tables.apply] using hmnt
        registered := by simp
        mounted_of := by simp
        of_mounted := fun _ => ⟨dn, false, by simp⟩
        not_unregistered := by simp
        not_umounted := by simp
        not_dropped := by simp }

end Begin

/-! ### The end of a life -/

theorem between_of_not_lifecycle {e : SysEvent} (h : Call.isLifecycle e.1 = false) : Between e := by
  obtain ⟨c, r⟩ := e
  refine ⟨⟨?_, ?_⟩, ?_⟩
  · rintro bd name rfl
    cases h
  · rintro dn mp ro rfl
    cases h
  · rintro w rfl
    cases h

theorem between_of_release {fs : Ext4Fs} {e : SysEvent} (h : ReleaseCall fs e.1) : Between e := by
  obtain ⟨c, r⟩ := e
  cases h <;> exact ⟨⟨nofun, nofun⟩, nofun⟩

/-! ### From the beginning to the end -/

def noTables : Tables := ⟨fun _ => none, fun _ => none⟩

theorem noTables_refers (wrapper : BdevPtr) : ¬ noTables.Refers wrapper := by
  rintro (⟨_, ⟨⟩⟩ | ⟨_, ⟨⟩⟩)

/-- The sample instance, mounted and dropped at once, with the code its
unmount returns. -/
theorem sampleFs_lifetime (umount : Int32) :
    Lifetime .checked (.chaos Call Reply) sampleMemory false ()
      (journaledMount 4 sampleBdev 9 0 0 ++ calls [] ++
        (stopCalls sampleFs 0 ++ [⟨.ext4CacheFlush sampleFs.mountPoint, (0 : Int32)⟩,
          ⟨.ext4Umount sampleFs.mountPoint, umount⟩,
          ⟨.ext4DeviceUnregister sampleFs.deviceName, (0 : Int32)⟩,
          ⟨.dropWrapper sampleFs.wrapper, ()⟩])) () :=
  .ended sampleFs_mounted (.nil _) (sampleFs_dropped umount)

end Ext4Lwext4.Metatheory
