import Ext4Lwext4.Model.Rust

/-! # Errors

The crate's error type, `std::io::Error` as far as the crate looks into it,
and the two conversions of an lwext4 return code. -/

namespace Ext4Lwext4.Model

open Ext4Lwext4.Framework

/-! ## Error numbers (`libc`, Linux) -/

def EPERM : Int32 := 1
def ENOENT : Int32 := 2
def EINTR : Int32 := 4
def EIO : Int32 := 5
def ENXIO : Int32 := 6
def EBADF : Int32 := 9
def EACCES : Int32 := 13
def EEXIST : Int32 := 17
def ENODEV : Int32 := 19
def ENOTDIR : Int32 := 20
def EISDIR : Int32 := 21
def EINVAL : Int32 := 22
def ENFILE : Int32 := 23
def EMFILE : Int32 := 24
def ENOSPC : Int32 := 28
def EROFS : Int32 := 30
def ENAMETOOLONG : Int32 := 36
def ENOTEMPTY : Int32 := 39
def ENOTSUP : Int32 := 95

/-- The `std::io::ErrorKind`s the crate names, and that of a size `set_len` refuses. -/
inductive ErrorKind
  | unexpectedEof
  | writeZero
  | other
  | invalidInput
  deriving DecidableEq, Repr

mutual

/-- `std::io::Error`: an operating-system code, a kind with a message, or a
kind around one of the crate's own errors. -/
inductive IoError
  | os (code : Int32)
  | message (kind : ErrorKind) (text : String)
  | wrapped (kind : ErrorKind) (inner : Error)
  deriving DecidableEq, Repr

inductive Error
  | io (e : IoError)
  | notFound (path : String)
  | alreadyExists (path : String)
  | notADirectory (path : String)
  | isADirectory (path : String)
  | notEmpty (path : String)
  | permissionDenied
  | noSpace
  | readOnly
  | invalidArgument (what : String)
  | nulError (e : NulError)
  | filesystem (errno : Int32)
  | deviceNotFound
  | mountPointNotFound
  | nameTooLong
  | tooManyOpenFiles
  | invalidFilesystem
  deriving DecidableEq, Repr

end

/-- `io::Error::raw_os_error`. -/
def IoError.rawOsError : IoError → Option Int32
  | .os code => some code
  | .message _ _ => none
  | .wrapped _ _ => none

/-- `io::Error::is_interrupted`: no kind the crate names is `Interrupted`. -/
def IoError.isInterrupted : IoError → Bool
  | .os code => code = EINTR
  | .message _ _ => false
  | .wrapped _ _ => false

/-- `impl From<i32> for Error`. The source panics on `0`; here a caller has to
show that the code is not `0`, as every caller of the source has checked. -/
def Error.fromErrno (errno : Int32) (_ : errno ≠ 0) : Error :=
  if errno = ENOENT then .notFound ""
  else if errno = EEXIST then .alreadyExists ""
  else if errno = ENOTDIR then .notADirectory ""
  else if errno = EISDIR then .isADirectory ""
  else if errno = ENOTEMPTY then .notEmpty ""
  else if errno = EACCES ∨ errno = EPERM then .permissionDenied
  else if errno = ENOSPC then .noSpace
  else if errno = EROFS then .readOnly
  else if errno = EINVAL then .invalidArgument ""
  else if errno = ENXIO ∨ errno = ENODEV then .deviceNotFound
  else if errno = ENAMETOOLONG then .nameTooLong
  else if errno = EMFILE ∨ errno = ENFILE then .tooManyOpenFiles
  else .filesystem errno

def checkErrno (errno : Int32) : Except Error Unit :=
  if h : errno = 0 then .ok () else .error (Error.fromErrno errno h)

def checkErrnoWithPath (errno : Int32) (path : String) : Except Error Unit :=
  if h : errno = 0 then .ok ()
  else if errno = ENOENT then .error (.notFound path)
  else if errno = EEXIST then .error (.alreadyExists path)
  else if errno = ENOTDIR then .error (.notADirectory path)
  else if errno = EISDIR then .error (.isADirectory path)
  else if errno = ENOTEMPTY then .error (.notEmpty path)
  else .error (Error.fromErrno errno h)

theorem ite_ne_of {α : Type} {p : Prop} [Decidable p] {a b x : α} (ha : a ≠ x) (hb : b ≠ x) :
    (if p then a else b) ≠ x := by
  split
  · exact ha
  · exact hb

/-- A code never becomes an error of `std::io`. -/
theorem Error.fromErrno_ne_io {errno : Int32} (h : errno ≠ 0) (e : IoError) :
    Error.fromErrno errno h ≠ .io e := by
  unfold Error.fromErrno
  repeat refine ite_ne_of nofun ?_
  exact nofun

@[simp] theorem checkErrno_zero : checkErrno 0 = .ok () := rfl

theorem checkErrno_of_ne {errno : Int32} (h : errno ≠ 0) :
    checkErrno errno = .error (Error.fromErrno errno h) := dif_neg h

/-- The check passes on success only. -/
theorem checkErrno_eq_ok {errno : Int32} {u : Unit} : checkErrno errno = .ok u ↔ errno = 0 := by
  unfold checkErrno
  split <;> simp_all

/-- What the callers of the check count is told on success only. -/
theorem checkErrno_map_eq_ok {α : Type} {errno : Int32} {a b : α} :
    (checkErrno errno).map (fun _ => a) = .ok b ↔ errno = 0 ∧ a = b := by
  by_cases h : errno = 0
  · subst h
    exact ⟨fun heq => ⟨rfl, Except.ok.inj heq⟩, fun heq => congrArg Except.ok heq.2⟩
  · rw [checkErrno_of_ne h]
    exact ⟨nofun, fun heq => absurd heq.1 h⟩

theorem checkErrnoWithPath_eq_ok {errno : Int32} {path : String} {u : Unit} :
    checkErrnoWithPath errno path = .ok u ↔ errno = 0 := by
  unfold checkErrnoWithPath
  split
  · simp_all
  · rename_i h
    simp only [h, iff_false]
    split_ifs <;> exact nofun

theorem checkErrnoWithPath_ne_zero {errno : Int32} {path : String} {e : Error}
    (h : checkErrnoWithPath errno path = .error e) : errno ≠ 0 := by
  rintro rfl
  cases h

theorem checkErrnoWithPath_of_ne {errno : Int32} (path : String) (h : errno ≠ 0) :
    ∃ e, checkErrnoWithPath errno path = .error e := by
  cases hcheck : checkErrnoWithPath errno path with
  | ok _ => exact absurd (checkErrnoWithPath_eq_ok.mp hcheck) h
  | error e => exact ⟨e, rfl⟩

end Ext4Lwext4.Model
