import Mathlib.Logic.Basic

/-!
# What the writer and the reader share with `std` and `tokio`

Bytes, `io::Error`, the answer of a `poll_*` function and the error of a joined task.
-/

namespace MyS3

instance decidableEqExcept {ε α : Type} [DecidableEq ε] [DecidableEq α] :
    DecidableEq (Except ε α)
  | .ok a, .ok b => decidable_of_iff (a = b) ⟨congrArg Except.ok, Except.ok.inj⟩
  | .error e, .error f => decidable_of_iff (e = f) ⟨congrArg Except.error, Except.error.inj⟩
  | .ok _, .error _ => isFalse nofun
  | .error _, .ok _ => isFalse nofun

section Except

variable {ε ε' α β : Type} {x : Except ε α}

/-- A sequence succeeds only through its first part. -/
theorem bind_ok {f : α → Except ε β} {b : β} (h : (x >>= f) = .ok b) :
    ∃ a, x = .ok a ∧ f a = .ok b := by
  cases x with
  | error err => cases h
  | ok a => exact ⟨a, rfl, h⟩

theorem mapError_ok {f : ε → ε'} {a : α} (h : x.mapError f = .ok a) : x = .ok a := by
  cases x with
  | error err => cases h
  | ok a' =>
    cases h
    rfl

end Except

/-- Raw bytes: a buffer, a chunk, a body. -/
abbrev Bytes : Type := List UInt8

/-- The kinds of `io::Error` that the crate produces. -/
inductive IoErrorKind where
  | brokenPipe | invalidInput | unexpectedEof | invalidData | notFound | other
  deriving DecidableEq, Repr

/-- An `io::Error` with its kind and its text. -/
structure IoError where
  kind : IoErrorKind
  message : String
  deriving DecidableEq, Repr

/-- `io::Error::other`. -/
def IoError.other (message : String) : IoError := ⟨.other, message⟩

/-- The answer of a `poll_*` function. -/
inductive Poll (α : Type) where
  | pending
  | ready (a : α)
  deriving DecidableEq, Repr

/-- Why a spawned task was not run to its end, as its `Display` words it. -/
structure JoinError where
  display : String
  deriving DecidableEq, Repr

end MyS3
