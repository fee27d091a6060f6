import Ext4Lwext4.Framework.Approximation
import Ext4Lwext4.Metatheory.Disk
import Ext4Lwext4.Model.Mkfs

/-! # The two builds

rustc makes a build in which an overflow panics and one in which it wraps.
Every run of the first that does not panic is a run of the second, call by
call and callback by callback: the arithmetic agrees where it does not
overflow, and everything else follows by congruence. -/

namespace Ext4Lwext4.Metatheory

open Ext4Lwext4.Framework Ext4Lwext4.Model

/-! ## Arithmetic -/

theorem arith_approx (n : ℕ) : ApproxOutcome (Build.checked.arith n) (Build.wrapping.arith n) := by
  intro x hx
  obtain ⟨-, rfl⟩ := Build.arith_checked_eq_ok.mp hx
  rfl

theorem add64_approx (x y : UInt64) :
    ApproxOutcome (Build.checked.add64 x y) (Build.wrapping.add64 x y) := arith_approx _

theorem mul64_approx (x y : UInt64) :
    ApproxOutcome (Build.checked.mul64 x y) (Build.wrapping.mul64 x y) := arith_approx _

/-! ## Devices -/

/-- A device whose transfers agree in both builds where the first does not panic. -/
class ReleaseAgrees (D : Type) [BlockDevice D] : Prop where
  readBlocks (self : D) (blockId : UInt64) (buf : Bytes) :
    ApproxOutcome (BlockDevice.readBlocks .checked self blockId buf)
      (BlockDevice.readBlocks .wrapping self blockId buf)
  writeBlocks (self : D) (blockId : UInt64) (buf : Bytes) :
    ApproxOutcome (BlockDevice.writeBlocks .checked self blockId buf)
      (BlockDevice.writeBlocks .wrapping self blockId buf)

instance : ReleaseAgrees MemoryBlockDevice where
  readBlocks _ _ _ :=
    approxOutcome_bind (mul64_approx _ _) fun offset =>
      approxOutcome_bind (add64_approx offset _) fun _ => approxOutcome_refl _
  writeBlocks _ _ _ :=
    approxOutcome_bind (mul64_approx _ _) fun offset =>
      approxOutcome_bind (add64_approx offset _) fun _ => approxOutcome_refl _

instance : ReleaseAgrees FileBlockDevice where
  readBlocks _ _ _ :=
    approxOutcome_bind (mul64_approx _ _) fun _ => approxOutcome_refl _
  writeBlocks _ _ _ :=
    approxOutcome_bind (mul64_approx _ _) fun _ => approxOutcome_refl _

section Wrapper

variable {D : Type} [BlockDevice D]

theorem wrapper_approx (device : D) :
    ApproxOutcome (BlockDeviceWrapper.new .checked device)
      (BlockDeviceWrapper.new .wrapping device) :=
  approxOutcome_bind (approxOutcome_refl _) fun _ =>
    approxOutcome_bind (mul64_approx _ _) fun _ => approxOutcome_refl _

variable [ReleaseAgrees D]

theorem invoke_approx (wrapper : BlockDeviceWrapper D) (callback : Callback) :
    ApproxOutcome (callback.invoke .checked wrapper) (callback.invoke .wrapping wrapper) := by
  cases callback with
  | bread buf blkId blkCnt =>
      refine approxOutcome_bind ?_ fun _ => approxOutcome_refl _
      refine approxOutcome_bind (mul64_approx _ _) fun total => ?_
      exact approxOutcome_bind (ReleaseAgrees.readBlocks _ _ _) fun _ => approxOutcome_refl _
  | bwrite buf blkId blkCnt =>
      refine approxOutcome_bind (mul64_approx _ _) fun total => ?_
      exact approxOutcome_bind (ReleaseAgrees.writeBlocks _ _ _) fun _ => approxOutcome_refl _
  | openDevice => exact approxOutcome_refl _
  | closeDevice => exact approxOutcome_refl _
  | lock => exact approxOutcome_refl _
  | unlock => exact approxOutcome_refl _

/-- lwext4 reaches the same device in both builds. -/
theorem lwext4_step_release {s t : Lwext4 D} {c : Call} {r : Reply c}
    (h : Lwext4.Step .checked s c r t) : Lwext4.Step .wrapping s c r t := by
  have hcallbacks {w w' : BlockDeviceWrapper D} {callbacks : List Callback}
      (hrun : Runs (CallbackStep .checked) w callbacks w') :
      Runs (CallbackStep .wrapping) w callbacks w' := by
    induction hrun with
    | nil _ => exact .nil _
    | cons hst _ ih =>
        obtain ⟨code, hcode⟩ := hst
        exact .cons ⟨code, invoke_approx _ _ _ hcode⟩ ih
  cases h with
  | fetchAdd => exact .fetchAdd _ _
  | boxed => exact .boxed _ _ _
  | dropped => exact .dropped _ _
  | call hc hrun hflush => exact .call hc (hcallbacks hrun) hflush

end Wrapper

/-! ## Programs of the crate -/

theorem readChunks_approx (fuel : ℕ) (file : File) (buf : ByteVec) (chunk : Bytes)
    (total : UInt64) :
    Approx (File.readChunks .checked fuel file buf chunk total)
      (File.readChunks .wrapping fuel file buf chunk total) := by
  induction fuel generalizing file buf chunk total with
  | zero => exact .refl _
  | succ fuel ih =>
      refine .bind_right _ ?_
      rintro ⟨result, chunk, file⟩
      rcases result with e | n
      · exact .refl _
      · by_cases hn : n = 0
        · simp only [hn, if_true]
          exact .refl _
        · simp only [hn, if_false]
          refine .bind_right _ fun part => .bind_right _ fun buf => ?_
          exact (Approx.ofOutcome (add64_approx total n)).bind fun total => ih file buf chunk total

theorem readToEnd_approx (fuel : ℕ) (file : File) (buf : ByteVec) :
    Approx (file.readToEnd .checked fuel buf) (file.readToEnd .wrapping fuel buf) := by
  refine .bind_right _ fun size => .bind_right _ fun _ => .bind_right _ ?_
  rintro ⟨result, file⟩
  rcases result with e | _
  · exact .refl _
  · exact readChunks_approx fuel file buf _ 0

theorem readToString_approx (fuel : ℕ) (file : File) (buf : String) :
    Approx (file.readToString .checked fuel buf) (file.readToString .wrapping fuel buf) :=
  (readToEnd_approx fuel file _).bind fun _ => .refl _

theorem writeRest_approx (buf : Bytes) (fuel : ℕ) (file : File) (written : UInt64) :
    Approx (File.writeRest .checked buf fuel file written)
      (File.writeRest .wrapping buf fuel file written) := by
  induction fuel generalizing file written with
  | zero =>
      unfold File.writeRest
      exact .refl _
  | succ fuel ih =>
      unfold File.writeRest
      by_cases hlt : written < len buf
      · simp only [hlt, if_true]
        refine .bind_right _ fun part => .bind_right _ ?_
        rintro ⟨result, file⟩
        rcases result with e | n
        · exact .refl _
        · by_cases hn : n = 0
          · simp only [hn, if_true]
            exact .refl _
          · simp only [hn, if_false]
            exact (Approx.ofOutcome (add64_approx written n)).bind fun written => ih file written
      · simp only [hlt, if_false]
        exact .refl _

theorem fileOp_approx (file : File) (op : FileOp) :
    Approx (op.perform .checked file) (op.perform .wrapping file) := by
  cases op with
  | readToEnd fuel buf => exact (readToEnd_approx fuel file buf).bind fun _ => .refl _
  | readToString fuel buf => exact (readToString_approx fuel file buf).bind fun _ => .refl _
  | writeAll fuel buf => exact (writeRest_approx buf fuel file 0).bind fun _ => .refl _
  | _ => exact .refl _

theorem perform_approx (client : Client) {op : ApiOp} {p : Sys (ApiResult × Client)}
    (hp : client.perform .checked op = some p) :
    ∃ q, client.perform .wrapping op = some q ∧ Approx p q := by
  cases op with
  | file handle op =>
      obtain ⟨file, hfile, rfl⟩ := Option.map_eq_some_iff.mp hp
      refine ⟨_, Option.map_eq_some_iff.mpr ⟨file, hfile, rfl⟩, ?_⟩
      exact (fileOp_approx file op).bind fun _ => .refl _
  | _ => exact ⟨p, hp, .refl p⟩

theorem mount_approx {D : Type} [BlockDevice D] (device : D) (readOnly : Bool) :
    Approx (Ext4Fs.mount .checked device readOnly) (Ext4Fs.mount .wrapping device readOnly) :=
  .bind_right _ fun _ => (Approx.ofOutcome (wrapper_approx device)).bind fun _ => .refl _

theorem mkfs_approx {D : Type} [BlockDevice D] (device : D) (options : MkfsOptions) :
    Approx (mkfs .checked device options) (mkfs .wrapping device options) :=
  (Approx.ofOutcome (wrapper_approx device)).bind fun _ => .refl _

/-! ## Runs -/

section Release

variable {D : Type} [BlockDevice D] [ReleaseAgrees D]

theorem exec_release {α : Type} {p : Sys α} {s t : Lwext4 D} {tr : List SysEvent}
    {o : Outcome α} (h : Exec (lwext4 D .checked) p s tr o t) :
    Exec (lwext4 D .wrapping) p s tr o t :=
  Exec.simulated (E := lwext4 D .checked) (F := lwext4 D .wrapping) (fun s => s)
    (fun hst => lwext4_step_release hst) h

/-- A client's run that ends without a panic is one in the other build. -/
theorem run_release {a b : Option Client × (lwext4 D .checked).State} {performed : List Performed}
    (h : Runs (Client.Step .checked (lwext4 D .checked)) a performed b) (hb : b.1 ≠ none) :
    Runs (Client.Step .wrapping (lwext4 D .wrapping)) a performed b := by
  induction h with
  | nil _ => exact .nil _
  | cons hst hrest ih =>
      cases hst with
      | returned hp hexec =>
          obtain ⟨q, hq, happrox⟩ := perform_approx _ hp
          exact .cons (.returned hq (exec_release (happrox.exec hexec))) (ih hb)
      | halted hp hexec =>
          -- nothing comes after a panic
          cases hrest with
          | nil _ => exact absurd rfl hb
          | cons hst _ => cases hst

end Release

end Ext4Lwext4.Metatheory
