import Ext4Lwext4.Metatheory.DeviceGeometry
import Ext4Lwext4.Metatheory.LossyText
import Ext4Lwext4.Metatheory.SpaceAccounting
import Ext4Lwext4.Model.Mkfs

/-! # The volume label

`mkfs` hands the label to lwext4 as a C string, and `stat` reads it out of a
field of 16 bytes that need not be terminated. The field keeps a label by
bytes and not by characters, and neither side looks at its length. -/

namespace Ext4Lwext4.Metatheory

open Ext4Lwext4.Framework Ext4Lwext4.Model

/-! ## What lwext4 does with a label -/

/-- The field of the superblock: the first 16 bytes of the string, zero-padded. -/
def labelField (label : CString) : Bytes :=
  label.bytes.take 16 ++ List.replicate (16 - label.bytes.length) 0

/-- A lwext4 that formats a volume: where `ext4_mkfs` succeeds, the field holds
the label. The size of a C structure fits in `isize`. -/
structure FormatsVolume (M : Environment MkfsCall MkfsReply) (field : M.State → Bytes) : Prop where
  sizeof {s t : M.State} {size : UInt64} :
    M.step s .lwext4SizeofExt4Fs size t → size.toNat ≤ isizeMax
  mkfs {s t : M.State} {fs : ByteVec} {bd : Ext4Blockdev} {info : Ext4MkfsInfo} {fsType : Int32}
    {label : CString} : M.step s (.ext4Mkfs fs bd info fsType) (0 : Int32) t →
      info.label = some label → field t = labelField label

/-- A lwext4 that mounts one: the field stays as it is, and is what
`ext4_mount_point_stats` reports. -/
structure MountsVolume (E : Environment Call Reply) (field : E.State → Bytes) : Prop where
  kept {s t : E.State} {c : Call} {r : Reply c} : E.step s c r t → field t = field s
  stats {s t : E.State} {mountPoint : CString} {before stats : Ext4MountStats} :
    E.step s (.ext4MountPointStats mountPoint before) ((0 : Int32), stats) t →
      stats.volumeName = field s

/-- Whoever mounts a volume with this field and asks for the name gets `label`. -/
def ReportedAs (D : Type) [BlockDevice D] (volumeName : Bytes) (label : String) : Prop :=
  ∀ (E : Environment Call Reply) (field : E.State → Bytes), MountsVolume E field →
    ∀ (build : Build) (device : D) (readOnly : Bool) (fs : Ext4Fs) (record : FsStats)
      (s t u : E.State) (tr tr' : List SysEvent), field s = volumeName →
      Exec E (Ext4Fs.mount build device readOnly) s tr (.ok (.ok fs)) t →
      Exec E fs.stat.run t tr' (.ok (.ok record)) u → record.volumeName = label

/-- `mkfs` never panics, and refuses the label or writes it so that it is
reported whole. -/
def LabelSurvives {D : Type} [BlockDevice D] (build : Build) (device : D)
    (options : MkfsOptions) (label : String) : Prop :=
  ∀ (M : Environment MkfsCall MkfsReply) (field : M.State → Bytes), FormatsVolume M field →
    ∀ (s t : M.State) (tr : List (Event MkfsCall MkfsReply)) (o : Outcome (Except Error Unit)),
      Exec M (mkfs build device (options.withLabel label)) s tr o t →
      ∃ result, o = .ok result ∧ (result = .ok () → ReportedAs D (field t) label)

/-- The size of the partition is computed. -/
def PartSizeFits {D : Type} [BlockDevice D] (build : Build) (device : D) : Prop :=
  build = .checked →
    (BlockDevice.blockCount device).toNat * (BlockDevice.blockSize device).toNat < 2 ^ 64

/-- The field brings the label back: it holds all of it, or all but a part of
a last character that is what a broken one is read as. -/
def FieldHolds (label : String) : Prop :=
  (strBytes label).length ≤ 16 ∨
    ∃ front, label = front ++ "\uFFFD" ∧ (strBytes front).length < 16

/-! ## Reading the field -/

theorem takeWhile_padded {bytes : Bytes} (h : 0 ∉ bytes) (n : ℕ) :
    (bytes ++ List.replicate n 0).takeWhile (· ≠ 0) = bytes := by
  induction bytes with
  | nil => cases n <;> rfl
  | cons b bytes ih =>
      obtain ⟨hb, hbytes⟩ := List.ne_and_not_mem_of_not_mem_cons h
      rw [List.cons_append, List.takeWhile_cons_of_pos (by simpa using Ne.symm hb), ih hbytes]

theorem length_labelField (label : CString) : (labelField label).length = 16 := by
  rw [labelField, List.length_append, List.length_take, List.length_replicate]
  omega

/-- What `stat` makes of the field: the lossy conversion of the bytes kept. -/
theorem volumeNameOf_labelField {label : CString} {stats : Ext4MountStats}
    (h : stats.volumeName = labelField label) :
    Ext4Fs.volumeNameOf stats = fromUtf8Lossy (label.bytes.take 16) := by
  have hnul : 0 ∉ label.bytes.take 16 := fun h => label.noNul (List.mem_of_mem_take h)
  rw [Ext4Fs.volumeNameOf, h, labelField, takeWhile_padded hnul]

section Stat

variable {D : Type} [BlockDevice D] {label : String} {name : CString}

/-- A field that brings the label back is reported as the label. -/
theorem reportedAs_of_holds (hname : name.bytes = strBytes label) (h : FieldHolds label) :
    ReportedAs D (labelField name) label := by
  intro E field hE build device readOnly fs record s t u tr tr' hfield hmount hstat
  -- whatever is called until then leaves the field alone
  have hkept : field t = labelField name :=
    hmount.invariant (fun _ _ _ _ hstep hs => (hE.kept hstep).trans hs) hfield
  obtain ⟨code, stats, -, hstep, ho⟩ := stat_exec hstat
  cases hcheck : checkErrno code with
  | error e =>
      rw [hcheck] at ho
      cases ho
  | ok _ =>
      rw [hcheck] at ho
      cases ho
      rw [checkErrno_eq_ok.mp hcheck] at hstep
      show Ext4Fs.volumeNameOf stats = label
      rw [volumeNameOf_labelField ((hE.stats hstep).trans hkept), hname]
      exact fromUtf8Lossy_take_eq_self_iff.mpr h

/-! A lwext4 with one volume, on which everything succeeds. -/

def volumeLwext4 (field : Bytes) : Environment Call Reply where
  State := Unit
  step _ c r _ :=
    match c, r with
    | .ext4MountPointStats _ _, r => r.2.volumeName = field
    | _, _ => True

theorem volumeLwext4_mounts (field : Bytes) :
    MountsVolume (volumeLwext4 field) fun _ => field where
  kept _ := rfl
  stats h := h

theorem volumeLwext4_mount {build : Build} {device : D} {w : BlockDeviceWrapper D}
    (hnew : BlockDeviceWrapper.new build device = .ok w) (field : Bytes) : ∃ tr fs,
    Exec (volumeLwext4 field) (Ext4Fs.mount build device true) () tr (.ok (.ok fs)) () := by
  have hmount := mount_exec hnew 0 0 (.readOnly 0)
  refine ⟨_, _, hmount.of_chaos ?_⟩
  exact .cons (t := ()) trivial (.cons (t := ()) trivial (.cons (t := ()) trivial
    (.cons (t := ()) trivial (.cons (t := ()) trivial (.nil _)))))

/-- And a label that is reported whole was in the field. -/
theorem holds_of_reportedAs {build : Build} {device : D} {w : BlockDeviceWrapper D}
    (hnew : BlockDeviceWrapper.new build device = .ok w) (hname : name.bytes = strBytes label)
    (h : ReportedAs D (labelField name) label) : FieldHolds label := by
  obtain ⟨tr, fs, hmount⟩ := volumeLwext4_mount hnew (labelField name)
  let stats : Ext4MountStats :=
    { Ext4MountStats.default with
      volumeName := labelField name, volumeName_length := length_labelField name }
  have hstep : (volumeLwext4 (labelField name)).step ()
      (.ext4MountPointStats fs.mountPoint .default) ((0 : Int32), stats) () := rfl
  have hreport : Ext4Fs.volumeNameOf stats = label :=
    h _ _ (volumeLwext4_mounts _) build device true fs (recordOf stats) () () () tr _ rfl hmount
      (stat_run hstep)
  rw [volumeNameOf_labelField rfl, hname] at hreport
  exact fromUtf8Lossy_take_eq_self_iff.mp hreport

end Stat

/-! ## Runs of mkfs -/

section Mkfs

variable {D : Type} [BlockDevice D] {build : Build} {device : D} {options : MkfsOptions}
  {label : String}

theorem wrapper_new_iff :
    (∃ w, BlockDeviceWrapper.new build device = .ok w) ↔ PartSizeFits build device := by
  constructor
  · rintro ⟨w, hnew⟩ rfl
    obtain ⟨_, -, hnew⟩ := bind_eq_ok.mp hnew
    obtain ⟨_, hmul, -⟩ := bind_eq_ok.mp hnew
    have hlt := (Build.arith_checked_eq_ok.mp hmul).1
    rwa [UInt32.toNat_toUInt64] at hlt
  · intro hfits
    obtain ⟨buffer, hbuffer⟩ := zeroed_block (BlockDevice.blockSize device)
    have hmul : ∃ partSize, build.mul64 (BlockDevice.blockCount device)
        (BlockDevice.blockSize device).toUInt64 = .ok partSize := by
      cases build with
      | wrapping => exact ⟨_, rfl⟩
      | checked =>
          obtain ⟨partSize, hmul, -⟩ := Build.checked.mul64_exact (hfits rfl)
          exact ⟨partSize, hmul⟩
    obtain ⟨partSize, hmul⟩ := hmul
    simp only [BlockDeviceWrapper.new, hbuffer, hmul, ok_bind]
    exact ⟨_, rfl⟩

/-- The devices of the crate, whose sizes are exact, are among those that fit. -/
theorem SizesExact.partSizeFits {store : ℕ} (h : SizesExact build device store) :
    PartSizeFits build device := by
  obtain ⟨w, hnew, -⟩ := h.partSize
  exact wrapper_new_iff.mp ⟨w, hnew⟩

theorem labelCstring_ok (hnul : 0 ∉ strBytes label) :
    labelCstring (options.withLabel label) = .ok (some ⟨strBytes label, hnul⟩) := by
  show (unwrap (CString.new (strBytes label))).map some = _
  rw [CString.new_ok hnul]
  rfl

theorem labelCstring_nul (hnul : 0 ∈ strBytes label) :
    labelCstring (options.withLabel label) = .error .panic := by
  show (unwrap (CString.new (strBytes label))).map some = _
  rw [CString.new_error hnul]
  rfl

variable {M : Environment MkfsCall MkfsReply} {field : M.State → Bytes} {s t : M.State}
  {tr : List (Event MkfsCall MkfsReply)} {o : Outcome (Except Error Unit)}

/-- A label without a NUL is formatted with, whatever its length. -/
theorem mkfs_formats (hM : FormatsVolume M field) (hfits : PartSizeFits build device)
    (hnul : 0 ∉ strBytes label)
    (h : Exec M (mkfs build device (options.withLabel label)) s tr o t) :
    ∃ code, o = .ok (checkErrno code) ∧
      (code = 0 → field t = labelField ⟨strBytes label, hnul⟩) := by
  obtain ⟨w, hnew⟩ := wrapper_new_iff.mpr hfits
  unfold mkfs at h
  rw [hnew, Prog.ofOutcome_ok_bind, labelCstring_ok hnul, Prog.ofOutcome_ok_bind] at h
  obtain ⟨size, u, tr, rfl, hsizeof, h⟩ := Exec.request_bind h
  have hbuf : ∃ buf, ByteVec.zeroed size = .ok buf := ⟨_, dif_pos (hM.sizeof hsizeof)⟩
  obtain ⟨buf, hbuf⟩ := hbuf
  rw [hbuf, Prog.ofOutcome_ok_bind] at h
  obtain ⟨code, u, tr, rfl, hmkfs, h⟩ := Exec.request_bind h
  obtain ⟨rfl, rfl, rfl⟩ := Exec.done_iff.mp h
  refine ⟨code, rfl, ?_⟩
  rintro rfl
  exact hM.mkfs hmkfs rfl

/-- One with a NUL is not handed to lwext4, and not refused either. -/
theorem mkfs_nul (hfits : PartSizeFits build device) (hnul : 0 ∈ strBytes label) (s : M.State) :
    Exec M (mkfs build device (options.withLabel label)) s [] (.error .panic) s := by
  obtain ⟨w, hnew⟩ := wrapper_new_iff.mpr hfits
  unfold mkfs
  rw [hnew, Prog.ofOutcome_ok_bind, labelCstring_nul hnul]
  exact .halt _ _

/-- Nor is a partition whose size overflows. -/
theorem mkfs_overflow (hfits : ¬ PartSizeFits build device) (s : M.State) :
    ∃ why, Exec M (mkfs build device (options.withLabel label)) s [] (.error why) s := by
  unfold mkfs
  cases hnew : BlockDeviceWrapper.new build device with
  | ok w => exact absurd (wrapper_new_iff.mp ⟨w, hnew⟩) hfits
  | error why => exact ⟨why, .halt _ _⟩

end Mkfs

/-! A lwext4 that formats whatever it is given. -/

def formattingLwext4 : Environment MkfsCall MkfsReply where
  State := Bytes
  step _ c r t :=
    match c, r with
    | .lwext4SizeofExt4Fs, r => r = 0
    | .ext4Mkfs _ _ info _, r => r = 0 ∧ ∀ label, info.label = some label → t = labelField label

theorem formattingLwext4_formats : FormatsVolume formattingLwext4 id where
  sizeof h := by
    cases h
    exact Nat.zero_le _
  mkfs h := h.2 _

theorem formattingLwext4_mkfs {D : Type} [BlockDevice D] {build : Build} {device : D}
    {options : MkfsOptions} {label : String} (hfits : PartSizeFits build device)
    (hnul : 0 ∉ strBytes label) (s : formattingLwext4.State) : ∃ tr,
    Exec formattingLwext4 (mkfs build device (options.withLabel label)) s tr (.ok (.ok ()))
      (labelField ⟨strBytes label, hnul⟩) := by
  obtain ⟨w, hnew⟩ := wrapper_new_iff.mpr hfits
  have hbuf : ∃ buf, ByteVec.zeroed 0 = .ok buf := ⟨_, dif_pos (Nat.zero_le _)⟩
  obtain ⟨buf, hbuf⟩ := hbuf
  unfold mkfs
  rw [hnew, Prog.ofOutcome_ok_bind, labelCstring_ok hnul, Prog.ofOutcome_ok_bind]
  dsimp only
  rw [Prog.request_bind]
  let info := mkfsInfo (options.withLabel label) w.bdev.partSize (some ⟨strBytes label, hnul⟩)
  have hsizeof : formattingLwext4.step s .lwext4SizeofExt4Fs (0 : UInt64) s := rfl
  have hmkfs : formattingLwext4.step s (.ext4Mkfs buf w.bdev info options.fsType.toRaw)
      (0 : Int32) (labelField ⟨strBytes label, hnul⟩) := by
    refine ⟨rfl, ?_⟩
    intro name hname
    cases hname
    rfl
  refine ⟨[⟨.lwext4SizeofExt4Fs, (0 : UInt64)⟩,
    ⟨.ext4Mkfs buf w.bdev info options.fsType.toRaw, (0 : Int32)⟩], .call hsizeof ?_⟩
  rw [hbuf, Prog.ofOutcome_ok_bind]
  exact .call hmkfs (.done _ _)

/-! ## When a label survives -/

section Survives

variable {D : Type} [BlockDevice D] {build : Build} {device : D} {options : MkfsOptions}
  {label : String}

theorem LabelSurvives.partSizeFits (h : LabelSurvives build device options label) :
    PartSizeFits build device := by
  by_contra hfits
  obtain ⟨s⟩ : Nonempty formattingLwext4.State := ⟨([] : Bytes)⟩
  obtain ⟨why, hexec⟩ := mkfs_overflow hfits s
  obtain ⟨result, ho, -⟩ := h _ _ formattingLwext4_formats _ _ _ _ hexec
  cases ho

theorem LabelSurvives.noNul (h : LabelSurvives build device options label) :
    0 ∉ strBytes label := by
  intro hnul
  obtain ⟨s⟩ : Nonempty formattingLwext4.State := ⟨([] : Bytes)⟩
  obtain ⟨result, ho, -⟩ :=
    h _ _ formattingLwext4_formats _ _ _ _ (mkfs_nul h.partSizeFits hnul s)
  cases ho

theorem LabelSurvives.holds (h : LabelSurvives build device options label) : FieldHolds label := by
  obtain ⟨s⟩ : Nonempty formattingLwext4.State := ⟨([] : Bytes)⟩
  obtain ⟨tr, hexec⟩ := formattingLwext4_mkfs h.partSizeFits h.noNul s
  obtain ⟨result, ho, hreported⟩ := h _ _ formattingLwext4_formats _ _ _ _ hexec
  cases ho
  obtain ⟨w, hnew⟩ := wrapper_new_iff.mpr h.partSizeFits
  exact holds_of_reportedAs hnew rfl (hreported rfl)

theorem labelSurvives_of_holds (hfits : PartSizeFits build device) (hnul : 0 ∉ strBytes label)
    (hholds : FieldHolds label) : LabelSurvives build device options label := by
  intro M field hM s t tr o hexec
  obtain ⟨code, rfl, hfield⟩ := mkfs_formats hM hfits hnul hexec
  refine ⟨_, rfl, ?_⟩
  intro hcheck
  rw [hfield (checkErrno_eq_ok.mp hcheck)]
  exact reportedAs_of_holds rfl hholds

end Survives

/-- For every device, label and choice of the other options: `mkfs` does not
panic and either refuses the label or has it reported whole, exactly when the
partition's size is computed, the label has no NUL and the field holds it. -/
theorem label_survives_iff {D : Type} [BlockDevice D] (build : Build) (device : D)
    (options : MkfsOptions) (label : String) :
    LabelSurvives build device options label ↔
      PartSizeFits build device ∧ 0 ∉ strBytes label ∧ FieldHolds label := by
  constructor
  · intro h
    exact ⟨h.partSizeFits, h.noNul, h.holds⟩
  · rintro ⟨hfits, hnul, hholds⟩
    exact labelSurvives_of_holds hfits hnul hholds

/-- Nine characters of two bytes each are reported as eight, and a NUL makes
`mkfs` panic. The device is sound, and both labels have at most 16 characters. -/
theorem short_labels_lost :
    PartSizeFits .checked sampleMemory ∧
    ¬ LabelSurvives .checked sampleMemory .default "ééééééééé" ∧
    fromUtf8Lossy ((strBytes "ééééééééé").take 16) = "éééééééé" ∧
    ¬ LabelSurvives .checked sampleMemory .default "a\x00b" ∧
    Exec formattingLwext4 (mkfs .checked sampleMemory (MkfsOptions.default.withLabel "a\x00b"))
      ([] : Bytes) [] (.error .panic) ([] : Bytes) := by
  have hfits : PartSizeFits .checked sampleMemory := fun _ => by decide
  have hcut : fromUtf8Lossy ((strBytes "ééééééééé").take 16) = "éééééééé" := by decide +kernel
  have hnul : (0 : UInt8) ∈ strBytes "a\x00b" := by decide
  refine ⟨hfits, ?_, hcut, fun h => h.noNul hnul, mkfs_nul hfits hnul _⟩
  intro h
  have hwhole := fromUtf8Lossy_take_eq_self_iff.mpr h.holds
  rw [hcut] at hwhole
  exact absurd hwhole (by decide)

end Ext4Lwext4.Metatheory
