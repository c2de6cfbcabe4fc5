import Bip300Monitor.Runtime.FeeMonitor
import Mathlib.Data.Rat.Defs

/-!
# The fee of a transaction

`transaction_fee` of `extractors/enforcer/src/fees.rs` adds up the values of the spent outputs and of
the outputs of a transaction, which `getblock` gives with verbosity 3 as decimal numbers of bitcoins.

## The model

The answer is a `serde_json::Value` whose numbers keep their texts (`arbitrary_precision`).
`Amount::from_str_in` is a parameter.

## What is proved

* `total_eq_ok` — a chain of checked additions is the sum, exactly if the sum is a `u64`;
* `transaction_fee_exact` — when there is a fee, and which.
-/

namespace Bip300Monitor

open Backfill

/-! ### JSON values -/

/-- A `serde_json::Value`. -/
inductive Value where
  | null
  | bool (b : Bool)
  /-- A number, with its text. -/
  | number (text : String)
  | string (text : String)
  | array (items : List Value)
  | object (fields : List (String × Value))

namespace Value

/-- `value[key]`, which is null if there is none. -/
def index (value : Value) (key : String) : Value :=
  match value with
  | .object fields => (fields.lookup key).getD .null
  | _ => .null

/-- `as_array`. -/
def asArray : Value → Option (List Value)
  | .array items => some items
  | _ => none

/-- `as_str`. -/
def asStr : Value → Option String
  | .string text => some text
  | _ => none

/-- The text of a string or a number. -/
def text : Value → Option String
  | .string text | .number text => some text
  | _ => none

end Value

namespace FeeAmounts

/-! ### The amounts -/

/-- The number that digits write to the base ten. -/
def natural (digits : List Char) : Option ℕ :=
  if digits.all Char.isDigit then some (digits.foldl (fun n digit => 10 * n + (digit.toNat - 48)) 0)
  else none

/-- What a decimal text is worth: digits, and maybe a point and further digits. -/
def decimal (text : String) : Option ℚ := do
  let whole ← natural (text.toList.takeWhile (· ≠ '.'))
  let digits := (text.toList.dropWhile (· ≠ '.')).tail
  let fraction ← natural digits
  pure (whole + fraction / 10 ^ digits.length)

/-- A bitcoin, in satoshis. -/
def satoshisPerBitcoin : ℚ := 100000000

/-- `Amount::from_str_in(_, Denomination::Bitcoin)` takes decimal numbers of bitcoins, to their
satoshis. -/
structure ParsesAmounts (fromStrIn : String → Result ℕ) : Prop where
  exact : ∀ text n, fromStrIn text = .ok n → decimal text = some (n / satoshisPerBitcoin)

section
variable (fromStrIn : String → Result ℕ)

/-- `sats`. -/
def sats : Value → Result ℕ
  | .string s => fromStrIn s
  | .number n => fromStrIn n
  | _ => .error (.bail "missing amount")

/-- What is read of a transaction. -/
def blockTransaction (tx : Value) : FeeMonitor.BlockTransaction where
  txid := (tx.index "txid").asStr
  vin := (tx.index "vin").asArray.map fun inputs => inputs.map fun i =>
    sats fromStrIn ((i.index "prevout").index "value")
  vout := (tx.index "vout").asArray.map fun outputs => outputs.map fun o =>
    sats fromStrIn (o.index "value")

/-- `transaction_fee`, of a transaction as the node answers it. -/
def transactionFee (tx : Value) : Result ℕ := FeeMonitor.transactionFee (blockTransaction fromStrIn tx)

end

variable {fromStrIn : String → Result ℕ}

/-! ### The sums -/

/-- **A chain of checked additions is the sum**, exactly if the sum is a `u64`. -/
theorem total_eq_ok {overflow : String} {amounts : List (Result ℕ)} {sum n : ℕ}
    (hsum : sum ≤ maxU64) :
    FeeMonitor.total overflow sum amounts = .ok n ↔
      ∃ values, List.Forall₂ (fun amount value => amount = .ok value) amounts values ∧
        sum + values.sum ≤ maxU64 ∧ n = sum + values.sum := by
  induction amounts generalizing sum with
  | nil =>
    constructor
    · intro h
      cases h
      exact ⟨[], .nil, by simpa using hsum, by simp⟩
    · rintro ⟨values, hvalues, -, rfl⟩
      cases hvalues
      rfl
  | cons amount amounts ih =>
    simp only [FeeMonitor.total, Result.bind_eq_ok, expect_eq_ok, FeeMonitor.checkedAdd]
    constructor
    · rintro ⟨value, rfl, next, hnext, h⟩
      split_ifs at hnext with hle
      cases hnext
      obtain ⟨values, hvalues, hbound, rfl⟩ := (ih hle).mp h
      refine ⟨value :: values, .cons rfl hvalues, ?_, ?_⟩
      · rw [List.sum_cons, ← Nat.add_assoc]
        exact hbound
      · rw [List.sum_cons, Nat.add_assoc]
    · rintro ⟨values, hvalues, hbound, rfl⟩
      cases hvalues with
      | @cons _ value _ values hvalue hvalues =>
        have hsplit : sum + (value :: values).sum = sum + value + values.sum := by
          rw [List.sum_cons, Nat.add_assoc]
        rw [hsplit] at hbound
        have hle : sum + value ≤ maxU64 := by omega
        exact ⟨value, hvalue, sum + value, if_pos hle, (ih hle).mpr ⟨values, hvalues, hbound, hsplit⟩⟩

/-! ### When there is a fee -/

/-- The value is a string or a number whose text is accepted, and is worth `n` satoshis. -/
def Pays (fromStrIn : String → Result ℕ) (value : Value) (n : ℕ) : Prop :=
  ∃ text, value.text = some text ∧ fromStrIn text = .ok n ∧ decimal text = some (n / satoshisPerBitcoin)

theorem sats_eq_ok (hparses : ParsesAmounts fromStrIn) {value : Value} {n : ℕ} :
    sats fromStrIn value = .ok n ↔ Pays fromStrIn value n := by
  have htext (text : String) : fromStrIn text = .ok n ↔
      fromStrIn text = .ok n ∧ decimal text = some (n / satoshisPerBitcoin) :=
    ⟨fun h => ⟨h, hparses.exact text n h⟩, And.left⟩
  cases value with
  | string text => simpa [sats, Pays, Value.text] using htext text
  | number text => simpa [sats, Pays, Value.text] using htext text
  | _ => simp [sats, Pays, Value.text]

/-- The inputs spend the amounts `ins`, the outputs hold the amounts `outs`, and neither sum overflows
nor do the outputs hold more than the inputs spend. -/
structure Spends (fromStrIn : String → Result ℕ) (tx : Value) (ins outs : List ℕ) : Prop where
  inputs : ∃ vin, (tx.index "vin").asArray = some vin ∧ vin ≠ [] ∧
    List.Forall₂ (fun i n => Pays fromStrIn ((i.index "prevout").index "value") n) vin ins
  outputs : ∃ vout, (tx.index "vout").asArray = some vout ∧
    List.Forall₂ (fun o n => Pays fromStrIn (o.index "value") n) vout outs
  inputSum : ins.sum ≤ maxU64
  outputSum : outs.sum ≤ maxU64
  notNegative : outs.sum ≤ ins.sum

/-- The sum of the amounts. -/
theorem total_sats_eq_ok (hparses : ParsesAmounts fromStrIn) {overflow : String} {values : List Value}
    {value : Value → Value} {n : ℕ} :
    FeeMonitor.total overflow 0 (values.map fun v => sats fromStrIn (value v)) = .ok n ↔
      ∃ amounts, List.Forall₂ (fun v amount => Pays fromStrIn (value v) amount) values amounts ∧
        amounts.sum ≤ maxU64 ∧ n = amounts.sum := by
  simp only [total_eq_ok (Nat.zero_le _), List.forall₂_map_left_iff, sats_eq_ok hparses, Nat.zero_add]

end FeeAmounts

open FeeAmounts in
/-- **The fee is exact.** There is a fee exactly if the amounts of all inputs and outputs are given, of
one input at least, no sum overflows and the outputs hold no more than the inputs spend; and then it is
the difference, in satoshis. -/
theorem transaction_fee_exact (fromStrIn : String → Result ℕ) (hparses : ParsesAmounts fromStrIn)
    (tx : Value) (fee : ℕ) :
    transactionFee fromStrIn tx = .ok fee ↔
      ∃ ins outs, Spends fromStrIn tx ins outs ∧ fee = ins.sum - outs.sum := by
  simp only [transactionFee, FeeMonitor.transactionFee, blockTransaction, Result.bind_eq_ok, expect_eq_ok,
    ensure_eq_ok, Option.map_eq_some_iff, checkedSub]
  constructor
  · rintro ⟨_, ⟨vin, hvin, rfl⟩, -, hne, _, hinput, _, ⟨vout, hvout, rfl⟩, _, houtput, hfee⟩
    obtain ⟨ins, hins, hinputSum, rfl⟩ := (total_sats_eq_ok hparses).mp hinput
    obtain ⟨outs, houts, houtputSum, rfl⟩ := (total_sats_eq_ok hparses).mp houtput
    split_ifs at hfee with hle
    cases hfee
    have hinputs : vin ≠ [] := fun h => hne (by rw [h]; rfl)
    exact ⟨ins, outs, ⟨⟨vin, hvin, hinputs, hins⟩, ⟨vout, hvout, houts⟩, hinputSum, houtputSum, hle⟩, rfl⟩
  · rintro ⟨ins, outs, ⟨⟨vin, hvin, hinputs, hins⟩, ⟨vout, hvout, houts⟩, hinputSum, houtputSum, hle⟩,
      rfl⟩
    refine ⟨_, ⟨vin, hvin, rfl⟩, (), fun h => hinputs ?_, _,
      (total_sats_eq_ok hparses).mpr ⟨ins, hins, hinputSum, rfl⟩, _, ⟨vout, hvout, rfl⟩, _,
      (total_sats_eq_ok hparses).mpr ⟨outs, houts, houtputSum, rfl⟩, if_pos hle⟩
    rw [List.length_map] at h
    exact List.length_eq_zero_iff.mp h

namespace FeeAmounts

/-- The decimal numbers of bitcoins that are a number of satoshis. -/
def parseBitcoins (text : String) : Result ℕ :=
  match decimal text with
  | none => .error (.bail "invalid amount")
  | some value =>
    let n := (value * satoshisPerBitcoin).num.toNat
    if value = n / satoshisPerBitcoin then .ok n else .error (.bail "amount is too precise")

theorem parsesAmounts_parseBitcoins : ParsesAmounts parseBitcoins where
  exact text n h := by
    unfold parseBitcoins at h
    split at h
    · cases h
    · next value hvalue =>
      simp only at h
      split_ifs at h with hexact
      cases h
      rw [hvalue]
      exact congrArg some hexact

/-- A transaction with one input and one output. -/
def pays (input output : String) : Value :=
  .object [("vin", .array [.object [("prevout", .object [("value", .number input)])]]),
    ("vout", .array [.object [("value", .number output)]])]

end FeeAmounts

open FeeAmounts in
/-- A fee of a satoshi. -/
theorem transaction_fee_exact_satoshi :
    ∃ ins outs, Spends parseBitcoins (pays "0.00000101" "0.00000100") ins outs ∧ 1 = ins.sum - outs.sum :=
  (transaction_fee_exact parseBitcoins parsesAmounts_parseBitcoins (pays "0.00000101" "0.00000100") 1).mp
    (by decide +kernel)

end Bip300Monitor
