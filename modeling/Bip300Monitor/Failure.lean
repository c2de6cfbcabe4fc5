import Mathlib.Data.Nat.Notation

/-!
# Errors

An error of the Rust code is an `anyhow::Error`: a message with the contexts it
was given on the way up, in which a gRPC status, or the typed error of a retained
conflict, can still be found. The message is kept as the alternate form prints
it, the outermost context first.
-/

namespace Bip300Monitor

/-- The gRPC status codes the code tells apart. -/
inductive Code where
  | cancelled | deadlineExceeded | notFound | resourceExhausted | unavailable | other
  deriving DecidableEq, Repr

/-- An error with its chain of causes. -/
structure Failure where
  /-- The message, contexts included. -/
  message : String
  /-- The codes of the gRPC statuses in the chain. -/
  codes : List Code
  /-- The chain holds the typed error of a retained conflict. -/
  historyConflict : Bool
  deriving DecidableEq, Repr

namespace Failure

/-- An error that is only a message. -/
def bail (message : String) : Failure := ⟨message, [], false⟩

/-- An error that is a gRPC status. -/
def status (code : Code) (message : String) : Failure := ⟨message, [code], false⟩

/-- The same error in a context. -/
def context (e : Failure) (text : String) : Failure :=
  { e with message := text ++ ": " ++ e.message }

@[simp] theorem codes_context (e : Failure) (text : String) : (e.context text).codes = e.codes := rfl

@[simp] theorem historyConflict_context (e : Failure) (text : String) :
    (e.context text).historyConflict = e.historyConflict := rfl

/-- `error_has_code`. -/
def hasCode (e : Failure) (code : Code) : Bool := code ∈ e.codes

end Failure

/-- A fallible computation of the code. -/
abbrev Result (α : Type) := Except Failure α

/-- A failed computation in a context. -/
def Result.context {α : Type} (x : Result α) (text : String) : Result α :=
  x.mapError fun e => e.context text

@[simp] theorem Result.context_eq_ok {α : Type} {x : Result α} {text : String} {a : α} :
    x.context text = .ok a ↔ x = .ok a := by
  cases x with
  | error e =>
    change Except.error (e.context text) = .ok a ↔ _
    simp
  | ok b => exact Iff.rfl

theorem Result.bind_eq_ok {α β : Type} {x : Result α} {f : α → Result β} {b : β} :
    (x >>= f) = .ok b ↔ ∃ a, x = .ok a ∧ f a = .ok b := by
  cases x with
  | error e => simp [bind, Except.bind]
  | ok a => simp [bind, Except.bind]

@[simp] theorem Result.pure_eq_ok {α : Type} {a b : α} : (pure a : Result α) = .ok b ↔ a = b := by
  simp [pure, Except.pure]

/-- `Option::transpose`: no value, or a computation that must succeed. -/
def Result.transpose {α : Type} : Option (Result α) → Result (Option α)
  | none => .ok none
  | some x => x.map some

theorem Result.transpose_map_eq_ok {α β : Type} {f : α → Result β} {x : Option α} {y : Option β} :
    transpose (x.map f) = .ok y ↔
      (x = none ∧ y = none) ∨ ∃ a b, x = some a ∧ f a = .ok b ∧ y = some b := by
  cases x with
  | none => simp [transpose, eq_comm]
  | some a =>
    cases h : f a with
    | error e => simp [transpose, h, Except.map]
    | ok b => simp [transpose, h, Except.map, eq_comm]

/-! ### Narrowing -/

/-- `TryFromIntError`: the checked conversion of an integer above the target's range. -/
def narrow (max n : ℕ) : Result ℕ :=
  if n ≤ max then .ok n
  else .error (.bail "out of range integral type conversion attempted")

@[simp] theorem narrow_eq_ok {max n m : ℕ} : narrow max n = .ok m ↔ n ≤ max ∧ m = n := by
  unfold narrow
  by_cases h : n ≤ max
  · simp [h, eq_comm]
  · simp [h]

/-- The largest `i16`, a Postgres `smallint`. -/
def maxSmallint : ℕ := 32767

/-- The largest `i32`, a Postgres `integer`. -/
def maxHeight : ℕ := 2147483647

/-- The largest `u64`. -/
def maxU64 : ℕ := 18446744073709551615

/-- `height_to_i32`. -/
def heightToI32 (height : ℕ) : Result ℕ :=
  (narrow maxHeight height).context
    ("block height " ++ toString height ++ " does not fit in an i32")

@[simp] theorem heightToI32_eq_ok {height n : ℕ} :
    heightToI32 height = .ok n ↔ height ≤ maxHeight ∧ n = height := by
  simp [heightToI32]

/-- The hexadecimal digits of a byte. -/
def hexByte (b : UInt8) : String :=
  String.ofList [Nat.digitChar (b.toNat / 16), Nat.digitChar (b.toNat % 16)]

/-- `hex::encode`. -/
def hexEncode (bytes : List UInt8) : String := String.join (bytes.map hexByte)

end Bip300Monitor
