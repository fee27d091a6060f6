import Mathlib.Data.List.Nodup
import Ext4Lwext4.Framework.Delimited
import Ext4Lwext4.Framework.Interleaving
import Ext4Lwext4.Metatheory.MountRecovery

/-! # Names of mounts

Every mount takes a number from one atomic counter and makes its two names of
it. The slash that closes a mount point delimits the number, so the names are
a prefix-free code, and lwext4, which looks a path up by prefix, finds the
mount the path was made for. -/

namespace Ext4Lwext4.Metatheory

open Ext4Lwext4.Framework Ext4Lwext4.Model

/-! ## The code -/

theorem slash_notMem_decimal (id : UInt64) : 47 ∉ decimal id := by
  intro h
  have := (digit_of_mem_decimal h).1
  simp at this

theorem deviceNameOf_injective {i j : UInt64} (h : deviceNameOf i = deviceNameOf j) : i = j := by
  have hbytes := congrArg CString.bytes h
  exact decimal_injective (List.append_cancel_left hbytes)

/-- `/mp1/` begins no string that begins with `/mp10/`. -/
theorem mountPointOf_prefix_iff {i j : UInt64} {x : Bytes} :
    (mountPointOf i).bytes <+: (mountPointOf j).bytes ++ x ↔ i = j := by
  have hslash : strBytes "/" = [47] := by decide
  simp only [mountPointOf, hslash, List.append_assoc, List.singleton_append,
    List.prefix_append_right_inj]
  rw [delimited_prefix_iff (slash_notMem_decimal i) (slash_notMem_decimal j)]
  exact ⟨decimal_injective, fun h => h ▸ rfl⟩

theorem mountPointOf_injective {i j : UInt64} (h : mountPointOf i = mountPointOf j) : i = j := by
  have hprefix : (mountPointOf i).bytes <+: (mountPointOf j).bytes ++ [] := by
    rw [h, List.append_nil]
  exact mountPointOf_prefix_iff.mp hprefix

/-! ## The counter -/

/-- `DEVICE_COUNTER` in an environment: only `fetch_add` moves it. -/
structure AtomicCounter (E : Environment Call Reply) (counter : E.State → UInt64) : Prop where
  fetchAdd : ∀ {s t r}, E.step s .deviceCounterFetchAdd r t → r = counter s ∧
    counter t = counter s + 1
  other : ∀ {s c r t}, c ≠ .deviceCounterFetchAdd → E.step s c r t → counter t = counter s

/-- The number an event takes from the counter. -/
def taken : SysEvent → Option UInt64
  | ⟨.deviceCounterFetchAdd, id⟩ => some id
  | _ => none

/-- The numbers a run of mounts took, in order. -/
def ids {ι : Type} (ls : List (ι × SysEvent)) : List UInt64 := ls.filterMap fun l => taken l.2

theorem mem_ids {ι : Type} {i : ι} {id : UInt64} {ls : List (ι × SysEvent)}
    (h : (i, ⟨.deviceCounterFetchAdd, id⟩) ∈ ls) : id ∈ ids ls :=
  List.mem_filterMap.mpr ⟨_, h, rfl⟩

/-- Where no number was taken twice, only one event took it. -/
theorem eq_of_ids_nodup {ι : Type} {ls : List (ι × SysEvent)} (hnodup : (ids ls).Nodup)
    {i j : ι} {id : UInt64} (hi : (i, ⟨.deviceCounterFetchAdd, id⟩) ∈ ls)
    (hj : (j, ⟨.deviceCounterFetchAdd, id⟩) ∈ ls) : i = j := by
  induction ls with
  | nil => cases hi
  | cons l ls ih =>
      rw [ids, List.filterMap_cons] at hnodup
      have htail : (ids ls).Nodup := by
        cases ht : taken l.2 with
        | none => simpa [ht, ids] using hnodup
        | some n =>
            simp only [ht] at hnodup
            exact (List.nodup_cons.mp hnodup).2
      rcases List.mem_cons.mp hi with rfl | hi'
      · -- the head took `id`, so the tail did not
        simp only [taken] at hnodup
        rcases List.mem_cons.mp hj with heq | hj'
        · cases heq
          rfl
        · exact absurd (mem_ids hj') (List.nodup_cons.mp hnodup).1
      · rcases List.mem_cons.mp hj with rfl | hj'
        · simp only [taken] at hnodup
          exact absurd (mem_ids hi') (List.nodup_cons.mp hnodup).1
        · exact ih htail hi' hj'

section Counter

variable {ι : Type} [DecidableEq ι] {α : Type} {E : Environment Call Reply}
  {counter : E.State → UInt64}

/-- In whatever order the steps of the mounts come, the numbers are handed out
one after another. -/
theorem ids_eq_range (hE : AtomicCounter E counter) {a b : E.State × (ι → Sys α)}
    {ls : List (ι × SysEvent)} (h : Runs (PoolStep E) a ls b) :
    ids ls = (List.range (ids ls).length).map fun k => counter a.1 + UInt64.ofNat k := by
  induction h with
  | nil _ => rfl
  | @cons a _ _ l ls hst _ ih =>
      cases hst with
      | @call s t pool i c k r hpool hstep =>
          by_cases hc : c = .deviceCounterFetchAdd
          · -- the mount takes the number the counter stands at
            subst hc
            obtain ⟨rfl, hnext⟩ := hE.fetchAdd hstep
            have hids : ids ((i, (⟨.deviceCounterFetchAdd, counter s⟩ : SysEvent)) :: ls) =
              counter s :: ids ls := rfl
            have hshift (n : ℕ) : counter s + UInt64.ofNat (n + 1) =
                counter t + UInt64.ofNat n := by
              rw [hnext, UInt64.ofNat_add, UInt64.add_assoc, UInt64.add_comm (UInt64.ofNat n)]
              rfl
            rw [hids, List.length_cons, List.range_succ_eq_map, List.map_cons, List.map_map]
            refine congrArg₂ List.cons (by simp) ?_
            refine ih.trans (List.map_congr_left fun n _ => ?_)
            exact (hshift n).symm
          · -- any other step leaves the counter to the rest of the run
            have hids : ids ((i, (⟨c, r⟩ : SysEvent)) :: ls) = ids ls := by
              cases c <;> first | rfl | exact absurd rfl hc
            rw [hids]
            rw [hE.other hc hstep] at ih
            exact ih

/-- Fewer than `2 ^ 64` numbers of a `u64` counter are all different. -/
theorem ids_nodup (hE : AtomicCounter E counter) {a b : E.State × (ι → Sys α)}
    {ls : List (ι × SysEvent)} (h : Runs (PoolStep E) a ls b) (hlt : (ids ls).length < 2 ^ 64) :
    (ids ls).Nodup := by
  have heq := ids_eq_range hE h
  generalize (ids ls).length = n at heq hlt
  rw [heq]
  refine List.Nodup.map_on ?_ List.nodup_range
  intro x hx y hy hxy
  rw [List.mem_range] at hx hy
  have hnat := congrArg UInt64.toNat ((UInt64.add_right_inj _).mp hxy)
  rw [UInt64.toNat_ofNat', UInt64.toNat_ofNat', Nat.mod_eq_of_lt (hx.trans hlt),
    Nat.mod_eq_of_lt (hy.trans hlt)] at hnat
  exact hnat

end Counter

/-! ## Resolution -/

/-- lwext4's lookup: the first mount point that the path begins with. -/
def resolve (table : List CString) (path : CString) : Option CString :=
  table.find? fun m => m.bytes.isPrefixOf path.bytes

/-- `p` is one of the calls of `Ext4Fs::mount`, on any device. -/
def IsMount (p : Sys (Except Error Ext4Fs)) : Prop :=
  ∃ (D : Type) (_ : BlockDevice D) (build : Build) (device : D) (readOnly : Bool),
    p = Ext4Fs.mount build device readOnly

/-- The names a call hands to lwext4 are those of the number `id`. -/
def NamedAfter (id : UInt64) : Call → Prop
  | .ext4DeviceRegister _ name | .ext4DeviceUnregister name => name = deviceNameOf id
  | .ext4Mount name point _ => name = deviceNameOf id ∧ point = mountPointOf id
  | .ext4Recover point | .ext4JournalStart point => point = mountPointOf id
  | _ => True

/-- A mount takes one number, and every name it hands over is made of it. -/
def CallAfter (id : UInt64) (c : Call) : Prop := c ≠ .deviceCounterFetchAdd ∧ NamedAfter id c

theorem mountRegistered_ensures {id : UInt64} {wrapper : BdevPtr} {readOnly : Bool} :
    (Ext4Fs.mountRegistered wrapper (deviceNameOf id) (mountPointOf id) readOnly).run.AllCalls
      (CallAfter id) := by
  apply allCalls_run_request_bind ⟨by simp, rfl⟩
  intro ret
  apply allCalls_run_except_bind
  intro _ _
  apply allCalls_run_request_bind ⟨by simp, rfl, rfl⟩
  intro ret
  by_cases hret : ret ≠ 0
  · simp only [dif_pos hret]
    exact allCalls_run_request_bind ⟨by simp, rfl⟩ fun _ => trivial
  · simp only [dif_neg hret]
    apply allCalls_run_request_bind ⟨by simp, rfl⟩
    intro _
    cases readOnly with
    | true => trivial
    | false => exact allCalls_run_request_bind ⟨by simp, rfl⟩ fun _ => trivial

theorem mount_ensures {p : Sys (Except Error Ext4Fs)} (hp : IsMount p) :
    ∃ k : UInt64 → Sys (Except Error Ext4Fs), p = .call .deviceCounterFetchAdd k ∧
      ∀ id, (k id).AllCalls (CallAfter id) := by
  obtain ⟨D, _, build, device, readOnly, rfl⟩ := hp
  refine ⟨_, rfl, fun id => ?_⟩
  apply Prog.ensures_ofOutcome_bind
  intro w _
  apply Prog.ensures_request_bind ⟨by simp, trivial⟩
  intro wrapper
  refine Prog.allCalls_bind mountRegistered_ensures fun result => ?_
  cases result with
  | ok fs => trivial
  | error e => exact Prog.ensures_request_bind ⟨by simp, trivial⟩ fun _ => trivial

/-- A mount takes its number first, and no other. -/
theorem mount_events {p rest : Sys (Except Error Ext4Fs)} (hp : IsMount p) {tr : List SysEvent}
    (h : Underway (.chaos Call Reply) p () tr rest ()) : tr = [] ∨
      ∃ (id : UInt64) (tr' : List SysEvent), tr = ⟨.deviceCounterFetchAdd, id⟩ :: tr' ∧
        ∀ ev ∈ tr', CallAfter id ev.1 := by
  obtain ⟨k, rfl, hk⟩ := mount_ensures hp
  rcases h.uncons with ⟨rfl, -, -⟩ | ⟨id, u, tr', rfl, -, hrest⟩
  · exact .inl rfl
  · exact .inr ⟨id, tr', rfl, (hrest.ensures (hk id)).1⟩

/-- An instance is named after the number its mount took, and lwext4 has its
mount point. -/
theorem mount_names {p : Sys (Except Error Ext4Fs)} (hp : IsMount p) {tr : List SysEvent}
    {fs : Ext4Fs} (h : Exec (.chaos Call Reply) p () tr (.ok (.ok fs)) ()) :
    ∃ id : UInt64, (⟨.deviceCounterFetchAdd, id⟩ : SysEvent) ∈ tr ∧
      fs.deviceName = deviceNameOf id ∧ fs.mountPoint = mountPointOf id ∧
      ∃ name readOnly, (⟨.ext4Mount name fs.mountPoint readOnly, (0 : Int32)⟩ : SysEvent) ∈ tr := by
  obtain ⟨D, _, build, device, readOnly, rfl⟩ := hp
  cases mount_trace h with
  | mounted id bdev wrapper hbody =>
      refine ⟨id, List.mem_cons_self, ?_⟩
      cases hbody with
      | readOnly recover => exact ⟨rfl, rfl, deviceNameOf id, true, by simp⟩
      | readWrite recover start => exact ⟨rfl, rfl, deviceNameOf id, false, by simp⟩

section Paths

variable {fs : Ext4Fs} {id : UInt64} (h : fs.mountPoint = mountPointOf id)

include h

theorem makePath_slash {path : String} (hpath : ∀ rest, path.toList ≠ '/' :: rest) :
    fs.makePath ("/" ++ path) = fs.makePath path := by
  rw [Ext4Fs.makePath_eq h, Ext4Fs.makePath_eq h, stripSlash_slash, stripSlash_of_no_slash hpath]

/-- Among tables of mount points the lookup finds the one the path was made for. -/
theorem resolve_makePath {p : CString} {rest : Bytes} (hp : p.bytes = fs.mountPoint.bytes ++ rest)
    {table : List CString} (htable : ∀ m ∈ table, ∃ j, m = mountPointOf j)
    (hmem : fs.mountPoint ∈ table) : resolve table p = some fs.mountPoint := by
  refine find?_eq_some_of_unique hmem fun m hm => ?_
  obtain ⟨j, rfl⟩ := htable m hm
  rw [List.isPrefixOf_iff_prefix, hp, h, mountPointOf_prefix_iff]
  exact ⟨fun hj => hj ▸ rfl, mountPointOf_injective⟩

end Paths

/-! ## All mounts of a run -/

/-- The mount point of a mount that succeeded. -/
def mountedAt : SysEvent → Option CString
  | ⟨.ext4Mount _ point _, code⟩ => if (code : Int32) = 0 then some point else none
  | _ => none

/-- The table of lwext4 after a run of mounts. -/
def mountTable {ι : Type} (ls : List (ι × SysEvent)) : List CString :=
  ls.filterMap fun l => mountedAt l.2

theorem mem_mountTable {ι : Type} {ls : List (ι × SysEvent)} {point : CString} :
    point ∈ mountTable ls ↔
      ∃ i name readOnly, (i, ⟨.ext4Mount name point readOnly, (0 : Int32)⟩) ∈ ls := by
  constructor
  · intro h
    obtain ⟨⟨i, c, r⟩, hmem, heq⟩ := List.mem_filterMap.mp h
    cases c with
    | ext4Mount name point' readOnly =>
        by_cases hcode : (r : Int32) = 0
        · obtain rfl : point' = point := Option.some.inj ((if_pos hcode).symm.trans heq)
          exact ⟨i, name, readOnly, hcode ▸ hmem⟩
        · cases (if_neg hcode).symm.trans heq
    | _ => cases heq
  · rintro ⟨i, name, readOnly, hmem⟩
    exact List.mem_filterMap.mpr ⟨_, hmem, rfl⟩

/-- What the names of one instance owe to those of all mounts of a run. -/
structure ResolvesHere {ι : Type} (ls : List (ι × SysEvent)) (fs : Ext4Fs) : Prop where
  whole : ∀ path, 0 ∉ strBytes path → ∃ p, fs.makePath path = .ok p ∧
    p.bytes = fs.mountPoint.bytes ++ strBytes (stripSlash path)
  refused : ∀ path, 0 ∈ strBytes path → ∃ e, fs.makePath path = .error (.nulError e)
  slash : ∀ path : String, (∀ rest, path.toList ≠ '/' :: rest) →
    fs.makePath ("/" ++ path) = fs.makePath path
  only : ∀ path p, fs.makePath path = .ok p → ∀ id ∈ ids ls,
    ((mountPointOf id).bytes <+: p.bytes ↔ mountPointOf id = fs.mountPoint)
  mounted : fs.mountPoint ∈ mountTable ls
  resolved : ∀ path p, fs.makePath path = .ok p → resolve (mountTable ls) p = some fs.mountPoint
  /-- when others have gone from the table, or their order has changed -/
  remains : ∀ path p, fs.makePath path = .ok p → ∀ table : List CString,
    table ⊆ mountTable ls → fs.mountPoint ∈ table → resolve table p = some fs.mountPoint

theorem resolvesHere {ι : Type} {ls : List (ι × SysEvent)} {fs : Ext4Fs} {id : UInt64}
    (h : fs.mountPoint = mountPointOf id) (hmounted : fs.mountPoint ∈ mountTable ls)
    (htable : ∀ m ∈ mountTable ls, ∃ j, m = mountPointOf j) : ResolvesHere ls fs := by
  have hbytes {path : String} {p : CString} (hp : fs.makePath path = .ok p) :
      p.bytes = fs.mountPoint.bytes ++ strBytes (stripSlash path) := by
    by_cases hnul : 0 ∈ strBytes path
    · obtain ⟨e, he⟩ := Ext4Fs.makePath_nul h hnul
      cases hp.symm.trans he
    · obtain ⟨p', hp', hb⟩ := Ext4Fs.makePath_ok h hnul
      cases hp.symm.trans hp'
      exact hb
  have hremains : ∀ path p, fs.makePath path = .ok p → ∀ table : List CString,
      table ⊆ mountTable ls → fs.mountPoint ∈ table → resolve table p = some fs.mountPoint :=
    fun path p hp table hsub => resolve_makePath h (hbytes hp) fun m hm => htable m (hsub hm)
  refine ⟨fun _ => Ext4Fs.makePath_ok h, fun _ => Ext4Fs.makePath_nul h,
    fun _ => makePath_slash h, ?_, hmounted, ?_, hremains⟩
  · rintro path p hp j -
    rw [hbytes hp, h, mountPointOf_prefix_iff]
    exact ⟨fun hj => hj ▸ rfl, mountPointOf_injective⟩
  · exact fun path p hp => hremains path p hp _ (List.Subset.refl _) hmounted

section Mounts

variable {ι : Type} [DecidableEq ι] {E : Environment Call Reply} {s t : E.State}
  {mounts pool : ι → Sys (Except Error Ext4Fs)} {ls : List (ι × SysEvent)}

/-- Every call of a mount but the first comes behind the number that is its
own, and carries the names of it. -/
theorem mount_named (hmounts : ∀ i, IsMount (mounts i))
    (hrun : Runs (PoolStep E) (s, mounts) ls (t, pool)) {i : ι} {c : Call} {r : Reply c}
    (hmem : (i, ⟨c, r⟩) ∈ ls) : ∃ id, (∀ id' : UInt64,
      (i, (⟨.deviceCounterFetchAdd, id'⟩ : SysEvent)) ∈ ls ↔ id' = id) ∧ NamedAfter id c := by
  have hevent := mem_eventsOf.mpr hmem
  rcases mount_events (hmounts i) (underway_of_pool hrun i) with hnil | ⟨id, tr, htr, hafter⟩
  · rw [hnil] at hevent
    cases hevent
  · refine ⟨id, fun id' => ?_, ?_⟩
    · rw [← mem_eventsOf, htr, List.mem_cons]
      constructor
      · rintro (heq | hlater)
        · cases heq
          rfl
        · exact absurd rfl (hafter _ hlater).1
      · rintro rfl
        exact .inl rfl
    · rw [htr, List.mem_cons] at hevent
      rcases hevent with heq | hlater
      · cases heq
        trivial
      · exact (hafter _ hlater).2

/-- However the steps of any number of mounts come, as long as they take fewer
than `2 ^ 64` numbers: all names handed out are different, no mount point
begins another, each mount hands over the names of the one number it took, and
in the table of the mounts that succeeded every path made by an instance leads
to its own. -/
theorem mounts_isolated {counter : E.State → UInt64} (hE : AtomicCounter E counter)
    (hmounts : ∀ i, IsMount (mounts i)) (hrun : Runs (PoolStep E) (s, mounts) ls (t, pool))
    (hlt : (ids ls).length < 2 ^ 64) :
    ((ids ls).map deviceNameOf).Nodup ∧
    ((ids ls).map mountPointOf).Pairwise
      (fun m n => ¬ m.bytes <+: n.bytes ∧ ¬ n.bytes <+: m.bytes) ∧
    (∀ i c r, (i, ⟨c, r⟩) ∈ ls → ∃ id ∈ ids ls, (∀ id' : UInt64,
      (i, (⟨.deviceCounterFetchAdd, id'⟩ : SysEvent)) ∈ ls ↔ id' = id) ∧ NamedAfter id c) ∧
    ∀ i fs, pool i = .done (.ok fs) →
      (∃ id, (i, ⟨.deviceCounterFetchAdd, id⟩) ∈ ls ∧ fs.deviceName = deviceNameOf id ∧
        fs.mountPoint = mountPointOf id) ∧
      (∀ j fs', pool j = .done (.ok fs') → j ≠ i →
        fs'.deviceName ≠ fs.deviceName ∧ fs'.mountPoint ≠ fs.mountPoint) ∧
      ResolvesHere ls fs := by
  have hnodup := ids_nodup hE hrun hlt
  have hnames : ∀ i fs, pool i = .done (.ok fs) →
      ∃ id, (i, ⟨.deviceCounterFetchAdd, id⟩) ∈ ls ∧ fs.deviceName = deviceNameOf id ∧
        fs.mountPoint = mountPointOf id ∧ fs.mountPoint ∈ mountTable ls := by
    intro i fs hdone
    obtain ⟨id, hmem, hdn, hmp, name, readOnly, hmounted⟩ :=
      mount_names (hmounts i) (exec_of_pool hrun i hdone)
    exact ⟨id, mem_eventsOf.mp hmem, hdn, hmp,
      mem_mountTable.mpr ⟨i, name, readOnly, mem_eventsOf.mp hmounted⟩⟩
  refine ⟨hnodup.map fun _ _ => deviceNameOf_injective, ?_, ?_, ?_⟩
  · rw [List.pairwise_map]
    refine hnodup.imp fun {a b} hne => ⟨fun hp => hne ?_, fun hp => hne ?_⟩
    · rw [← List.append_nil (mountPointOf b).bytes] at hp
      exact mountPointOf_prefix_iff.mp hp
    · rw [← List.append_nil (mountPointOf a).bytes] at hp
      exact (mountPointOf_prefix_iff.mp hp).symm
  · intro i c r hmem
    obtain ⟨id, hid, hnamed⟩ := mount_named hmounts hrun hmem
    exact ⟨id, mem_ids ((hid id).mpr rfl), hid, hnamed⟩
  · intro i fs hdone
    obtain ⟨id, hmem, hdn, hmp, hmounted⟩ := hnames i fs hdone
    refine ⟨⟨id, hmem, hdn, hmp⟩, ?_, resolvesHere hmp hmounted fun m hm => ?_⟩
    · intro j fs' hdone' hne
      obtain ⟨id', hmem', hdn', hmp', -⟩ := hnames j fs' hdone'
      refine ⟨fun heq => hne ?_, fun heq => hne ?_⟩
      · rw [hdn, hdn'] at heq
        cases deviceNameOf_injective heq
        exact eq_of_ids_nodup hnodup hmem' hmem
      · rw [hmp, hmp'] at heq
        cases mountPointOf_injective heq
        exact eq_of_ids_nodup hnodup hmem' hmem
    · obtain ⟨j, name, readOnly, hmem⟩ := mem_mountTable.mp hm
      obtain ⟨id', -, -, hpoint⟩ := mount_named hmounts hrun hmem
      exact ⟨id', hpoint⟩

end Mounts

/-- An environment that keeps the counter and replies anything else. -/
def counting : Environment Call Reply where
  State := UInt64
  step s c r t :=
    match c, r with
    | .deviceCounterFetchAdd, r => (r : UInt64) = s ∧ t = s + 1
    | _, _ => t = s

theorem counting_atomic : AtomicCounter counting id where
  fetchAdd h := h
  other {s c r t} hc h := by
    cases c <;> first | exact h | exact absurd rfl hc

def sampleMounts (_ : Bool) : Sys (Except Error Ext4Fs) := Ext4Fs.mount .checked sampleMemory true

/-- The second takes its number after the first and returns before it. -/
theorem sample_race : ∃ ls t pool,
    Runs (PoolStep counting) ((9 : UInt64), sampleMounts) ls (t, pool) ∧ ids ls = [9, 10] ∧
      pool true = .done (.ok ⟨1, deviceNameOf 10, mountPointOf 10, true, false⟩) := by
  exact ⟨[(false, ⟨.deviceCounterFetchAdd, (9 : UInt64)⟩),
    (true, ⟨.deviceCounterFetchAdd, (10 : UInt64)⟩),
    (true, ⟨.boxWrapper sampleBdev, (1 : UInt64)⟩),
    (true, ⟨.ext4DeviceRegister 1 (deviceNameOf 10), (0 : Int32)⟩),
    (true, ⟨.ext4Mount (deviceNameOf 10) (mountPointOf 10) true, (0 : Int32)⟩),
    (true, ⟨.ext4Recover (mountPointOf 10), (0 : Int32)⟩)], _, _,
    .cons (.call rfl ⟨rfl, rfl⟩) (.cons (.call rfl ⟨rfl, rfl⟩) (.cons (.call rfl rfl)
      (.cons (.call rfl rfl) (.cons (.call rfl rfl) (.cons (.call rfl rfl) (.nil _)))))),
    rfl, rfl⟩

theorem mounts_isolated_sample : ∃ ls t pool,
    Runs (PoolStep counting) ((9 : UInt64), sampleMounts) ls (t, pool) ∧
    ((ids ls).map deviceNameOf).Nodup ∧
    ResolvesHere ls ⟨1, deviceNameOf 10, mountPointOf 10, true, false⟩ := by
  obtain ⟨ls, t, pool, hrun, hids, hdone⟩ := sample_race
  have hall := mounts_isolated counting_atomic
    (fun _ => ⟨_, inferInstance, .checked, sampleMemory, true, rfl⟩) hrun (by rw [hids]; decide)
  exact ⟨ls, t, pool, hrun, hall.1, (hall.2.2.2 true _ hdone).2.2⟩

end Ext4Lwext4.Metatheory
