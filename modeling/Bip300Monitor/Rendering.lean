import Bip300Monitor.Json
import Bip300Monitor.Runtime.Convert
import Bip300Monitor.Texts
import Mathlib.Algebra.Ring.Int.Defs

/-!
# What is rendered can be read back

`render` of `shared/src/json.rs` writes the byte fields of an event in hexadecimal. It goes by the
names of the fields, without the types of the messages.

## What is proved

* `hexDecode_hexEncode` — hexadecimal digits are read back;
* `Json.decodeByteFields_of_encode` — a value that is rendered is read back by the names of its fields;
* `Json.locate_rendered`, `Json.locate_bytes` — the byte fields are rendered, and nothing else changes;
* `Event.toJson_injective` — what serde makes of an event tells the event;
* `render_lossless` — so does what is rendered.
-/

namespace Bip300Monitor

open Protobuf

/-! ### Hexadecimal digits -/

/-- The digit of a number below sixteen, as a byte of the text. -/
def digitByte (n : ℕ) : UInt8 := UInt8.ofNat (if n < 10 then 48 + n else 87 + n)

theorem utf8EncodeChar_digitChar {n : ℕ} (hn : n < 16) :
    String.utf8EncodeChar n.digitChar = [digitByte n] := by
  have hall : ∀ n < 16, String.utf8EncodeChar (Nat.digitChar n) = [digitByte n] := by decide
  exact hall n hn

theorem hexValue_digitByte {n : ℕ} (hn : n < 16) : Convert.hexValue (digitByte n) = some n := by
  have hall : ∀ n < 16, Convert.hexValue (digitByte n) = some n := by decide
  exact hall n hn

theorem toUTF8_toList (text : String) :
    text.toUTF8.data.toList = text.toList.flatMap String.utf8EncodeChar := by
  have htext : text.toUTF8 = text.toList.utf8Encode := String.utf8Encode_toList.symm
  rw [htext, List.utf8Encode, List.data_toByteArray]

/-- The two digits of a byte, as bytes of the text. -/
def digitBytes (b : UInt8) : List UInt8 := [digitByte (b.toNat / 16), digitByte (b.toNat % 16)]

theorem toUTF8_hexEncode (bytes : Bytes) :
    (hexEncode bytes).toUTF8.data.toList = bytes.flatMap digitBytes := by
  rw [toUTF8_toList, toList_hexEncode, List.flatMap_assoc]
  refine List.flatMap_congr fun b _ => ?_
  have hb := b.toNat_lt
  simp only [hexDigits, List.flatMap_cons, List.flatMap_nil, List.append_nil, digitBytes,
    utf8EncodeChar_digitChar (show b.toNat / 16 < 16 by omega),
    utf8EncodeChar_digitChar (show b.toNat % 16 < 16 by omega), List.singleton_append]

theorem hexPairs_digitBytes (bytes : Bytes) (position : ℕ) :
    Convert.hexPairs position (bytes.flatMap digitBytes) = .ok bytes := by
  induction bytes generalizing position with
  | nil => rfl
  | cons b rest ih =>
    have hb := b.toNat_lt
    have hhigh : Convert.hexDigit (digitByte (b.toNat / 16)) position = .ok (b.toNat / 16) := by
      rw [Convert.hexDigit, hexValue_digitByte (by omega)]
    have hlow : Convert.hexDigit (digitByte (b.toNat % 16)) (position + 1) = .ok (b.toNat % 16) := by
      rw [Convert.hexDigit, hexValue_digitByte (by omega)]
    have hbyte : UInt8.ofNat (b.toNat / 16 * 16 + b.toNat % 16) = b := by
      rw [Nat.div_add_mod', UInt8.ofNat_toNat]
    rw [List.flatMap_cons]
    simp only [digitBytes, List.cons_append, List.nil_append, Convert.hexPairs, Result.bind_eq_ok,
      Result.pure_eq_ok]
    exact ⟨_, hhigh, _, hlow, _, ih _, by rw [hbyte]⟩

/-- **The digits are read back.** -/
theorem hexDecode_hexEncode (bytes : Bytes) : Convert.hexDecode (hexEncode bytes) = .ok bytes := by
  have heven : (bytes.flatMap digitBytes).length % 2 = 0 := by
    induction bytes with
    | nil => rfl
    | cons b rest ih =>
      rw [List.flatMap_cons, List.length_append, digitBytes, List.length_cons, List.length_singleton]
      omega
  unfold Convert.hexDecode
  simp only [toUTF8_hexEncode]
  rw [if_pos heven, hexPairs_digitBytes]

namespace Json

/-! ### Reading a value back -/

/-- The value of a byte field that was rendered. -/
def decodeBytes (value : Json) (field : String) : Result Json :=
  match value with
  | .null => .ok .null
  | .string s => do
    let decoded ← Convert.hexDecode s
    pure (bytes decoded)
  | _ => .error (.bail ("`" ++ field ++ "` is not a hexadecimal string"))

mutual

/-- Every string under a key of `BYTE_FIELDS` is decoded. -/
def decodeByteFields : Json → Result Json
  | .array values => do
    let values ← decodeValues values
    pure (.array values)
  | .object entries => do
    let entries ← decodeEntries entries
    pure (.object entries)
  | .null => .ok .null
  | .number n => .ok (.number n)
  | .string s => .ok (.string s)

def decodeValues : List Json → Result (List Json)
  | [] => .ok []
  | value :: rest => do
    let value ← decodeByteFields value
    let rest ← decodeValues rest
    pure (value :: rest)

def decodeEntries : List (String × Json) → Result (List (String × Json))
  | [] => .ok []
  | (key, value) :: rest => do
    let value ← (if key ∈ byteFields then decodeBytes value key else decodeByteFields value :
      Result Json)
    let rest ← decodeEntries rest
    pure ((key, value) :: rest)

end

theorem encodeByte_eq_ok {field : String} {value : Json} {b : UInt8} (h : encodeByte field value = .ok b) :
    value = .number b.toNat := by
  unfold encodeByte at h
  split at h
  · next n =>
    obtain ⟨byte, hbyte, hpure⟩ := Result.bind_eq_ok.mp h
    obtain ⟨hle, rfl⟩ := narrow_eq_ok.mp (Result.context_eq_ok.mp hbyte)
    cases hpure
    rw [UInt8.toNat_ofNat_of_lt' (Nat.lt_succ_of_le hle)]
    rfl
  · cases h

theorem mapM_encodeByte_eq_ok {field : String} {values : List Json} {b : Bytes}
    (h : values.mapM (encodeByte field) = .ok b) : values = b.map fun byte => .number byte.toNat := by
  induction values generalizing b with
  | nil =>
    cases h
    rfl
  | cons value rest ih =>
    rw [List.mapM_cons] at h
    obtain ⟨byte, hbyte, h⟩ := Result.bind_eq_ok.mp h
    obtain ⟨others, hothers, h⟩ := Result.bind_eq_ok.mp h
    cases h
    rw [List.map_cons, encodeByte_eq_ok hbyte, ih hothers]

/-- A byte field is nothing, or bytes, which are written in hexadecimal. -/
theorem encodeBytes_eq_ok {value encoded : Json} {field : String} :
    encodeBytes value field = .ok encoded ↔
      (value = .null ∧ encoded = .null) ∨
        ∃ b, value = bytes b ∧ encoded = .string (hexEncode b) := by
  constructor
  · intro h
    unfold encodeBytes at h
    split at h
    · cases h
      exact .inl ⟨rfl, rfl⟩
    · next values =>
      obtain ⟨b, hb, h⟩ := Result.bind_eq_ok.mp h
      cases h
      exact .inr ⟨b, congrArg Json.array (mapM_encodeByte_eq_ok hb), rfl⟩
    · cases h
  · rintro (⟨rfl, rfl⟩ | ⟨b, rfl, rfl⟩)
    · rfl
    · exact encodeBytes_bytes b field

theorem decodeBytes_of_encode {value encoded : Json} {field : String}
    (h : encodeBytes value field = .ok encoded) : decodeBytes encoded field = .ok value := by
  rcases encodeBytes_eq_ok.mp h with ⟨rfl, rfl⟩ | ⟨b, rfl, rfl⟩
  · rfl
  · rw [decodeBytes, hexDecode_hexEncode]
    rfl

/-! **What is rendered is read back.** -/

mutual

theorem decodeByteFields_of_encode : ∀ {value encoded : Json}, encodeByteFields value = .ok encoded →
    decodeByteFields encoded = .ok value
  | .array values, encoded, h => by
    unfold encodeByteFields at h
    obtain ⟨values', hvalues, h⟩ := Result.bind_eq_ok.mp h
    cases h
    rw [decodeByteFields, decodeValues_of_encode hvalues]
    rfl
  | .object entries, encoded, h => by
    unfold encodeByteFields at h
    obtain ⟨entries', hentries, h⟩ := Result.bind_eq_ok.mp h
    cases h
    rw [decodeByteFields, decodeEntries_of_encode hentries]
    rfl
  | .null, encoded, h => by
    cases h
    rfl
  | .number n, encoded, h => by
    cases h
    rfl
  | .string s, encoded, h => by
    cases h
    rfl

theorem decodeValues_of_encode : ∀ {values encoded : List Json}, encodeValues values = .ok encoded →
    decodeValues encoded = .ok values
  | [], encoded, h => by
    cases h
    rfl
  | value :: rest, encoded, h => by
    unfold encodeValues at h
    obtain ⟨value', hvalue, h⟩ := Result.bind_eq_ok.mp h
    obtain ⟨rest', hrest, h⟩ := Result.bind_eq_ok.mp h
    cases h
    rw [decodeValues, decodeByteFields_of_encode hvalue, decodeValues_of_encode hrest]
    rfl

theorem decodeEntries_of_encode : ∀ {entries encoded : List (String × Json)},
    encodeEntries entries = .ok encoded → decodeEntries encoded = .ok entries
  | [], encoded, h => by
    cases h
    rfl
  | (key, value) :: rest, encoded, h => by
    unfold encodeEntries at h
    obtain ⟨value', hvalue, h⟩ := Result.bind_eq_ok.mp h
    obtain ⟨rest', hrest, h⟩ := Result.bind_eq_ok.mp h
    cases h
    have hdecoded : (if key ∈ byteFields then decodeBytes value' key else decodeByteFields value') =
        .ok value := by
      split_ifs at hvalue ⊢
      · exact decodeBytes_of_encode hvalue
      · exact decodeByteFields_of_encode hvalue
    rw [decodeEntries, hdecoded, decodeEntries_of_encode hrest]
    rfl

end

/-! ### What stands where -/

/-- A step down a value. -/
inductive Step where
  | field (key : String)
  | item (i : ℕ)

/-- What is one step down. -/
def child : Json → Step → Option Json
  | .object entries, .field key => entries.lookup key
  | .array values, .item i => values[i]?
  | _, _ => none

/-- What is at the end of a path. -/
def locate : Json → List Step → Option Json
  | value, [] => some value
  | value, step :: path => (value.child step).bind fun v => v.locate path

/-- The path goes through no byte field. -/
def Plain (path : List Step) : Prop := ∀ key, .field key ∈ path → key ∉ byteFields

theorem locate_append (value : Json) (path path' : List Step) :
    value.locate (path ++ path') = (value.locate path).bind fun v => v.locate path' := by
  induction path generalizing value with
  | nil => rfl
  | cons step path ih =>
    rw [List.cons_append, locate, locate, Option.bind_assoc]
    simp only [ih]

/-- The items of an array are rendered in their places. -/
theorem encodeValues_getElem {values encoded : List Json} (h : encodeValues values = .ok encoded) (i : ℕ) :
    Option.Rel (fun v w => encodeByteFields v = .ok w) values[i]? encoded[i]? := by
  induction values generalizing encoded i with
  | nil =>
    cases h
    exact .none
  | cons value rest ih =>
    unfold encodeValues at h
    obtain ⟨value', hvalue, h⟩ := Result.bind_eq_ok.mp h
    obtain ⟨rest', hrest, h⟩ := Result.bind_eq_ok.mp h
    cases h
    cases i with
    | zero => exact .some hvalue
    | succ i => exact ih hrest i

/-- The fields of an object are rendered under their keys. -/
theorem encodeEntries_lookup {entries encoded : List (String × Json)}
    (h : encodeEntries entries = .ok encoded) (key : String) :
    Option.Rel (fun v w => (if key ∈ byteFields then encodeBytes v key else encodeByteFields v) = .ok w)
      (entries.lookup key) (encoded.lookup key) := by
  induction entries generalizing encoded with
  | nil =>
    cases h
    exact .none
  | cons entry rest ih =>
    obtain ⟨key', value⟩ := entry
    unfold encodeEntries at h
    obtain ⟨value', hvalue, h⟩ := Result.bind_eq_ok.mp h
    obtain ⟨rest', hrest, h⟩ := Result.bind_eq_ok.mp h
    cases h
    by_cases hkey : key = key'
    · subst hkey
      rw [List.lookup_cons_self, List.lookup_cons_self]
      exact .some hvalue
    · have hne : (key == key') = false := by simpa using hkey
      rw [List.lookup_cons, List.lookup_cons, hne]
      exact ih hrest

/-- A step that is no byte field. -/
theorem child_encode {value encoded : Json} (h : encodeByteFields value = .ok encoded) {step : Step}
    (hplain : Plain [step]) :
    Option.Rel (fun v w => encodeByteFields v = .ok w) (value.child step) (encoded.child step) := by
  cases value with
  | array values =>
    unfold encodeByteFields at h
    obtain ⟨values', hvalues, h⟩ := Result.bind_eq_ok.mp h
    cases h
    cases step with
    | field key => exact .none
    | item i => exact encodeValues_getElem hvalues i
  | object entries =>
    unfold encodeByteFields at h
    obtain ⟨entries', hentries, h⟩ := Result.bind_eq_ok.mp h
    cases h
    cases step with
    | field key =>
      have hlookup := encodeEntries_lookup hentries key
      simp only [if_neg (hplain key List.mem_cons_self)] at hlookup
      exact hlookup
    | item i => exact .none
  | _ =>
    cases h
    exact .none

/-- **Off the byte fields the walk goes on.** -/
theorem locate_encode {value encoded : Json} (h : encodeByteFields value = .ok encoded) {path : List Step}
    (hplain : Plain path) :
    Option.Rel (fun v w => encodeByteFields v = .ok w) (value.locate path) (encoded.locate path) := by
  induction path generalizing value encoded with
  | nil => exact .some h
  | cons step path ih =>
    have hstep : Plain [step] := fun key hkey =>
      hplain key (List.mem_cons.mpr (.inl (List.mem_singleton.mp hkey)))
    have hpath : Plain path := fun key hkey => hplain key (List.mem_cons_of_mem _ hkey)
    have hchild := child_encode h hstep
    rw [locate, locate]
    revert hchild
    cases value.child step with
    | none =>
      cases encoded.child step with
      | none => exact fun _ => .none
      | some w => exact fun hchild => by cases hchild
    | some v =>
      cases encoded.child step with
      | none => exact fun hchild => by cases hchild
      | some w =>
        intro hchild
        cases hchild with
        | some hchild => exact ih hchild hpath

/-- What a value becomes where it is no byte field: a scalar stays, an array keeps its length and an
object its keys. -/
def Rendered : Json → Json → Prop
  | .array values, encoded => ∃ values', encoded = .array values' ∧ values'.length = values.length
  | .object entries, encoded => ∃ entries', encoded = .object entries' ∧
      entries'.map (·.1) = entries.map (·.1)
  | value, encoded => encoded = value

/-- What a byte field becomes: nothing stays, and bytes are written in hexadecimal. -/
def RenderedBytes (value encoded : Json) : Prop :=
  (value = .null ∧ encoded = .null) ∨ ∃ b, value = bytes b ∧ encoded = .string (hexEncode b)

theorem length_encodeValues {values encoded : List Json} (h : encodeValues values = .ok encoded) :
    encoded.length = values.length := by
  induction values generalizing encoded with
  | nil =>
    cases h
    rfl
  | cons value rest ih =>
    unfold encodeValues at h
    obtain ⟨value', -, h⟩ := Result.bind_eq_ok.mp h
    obtain ⟨rest', hrest, h⟩ := Result.bind_eq_ok.mp h
    cases h
    rw [List.length_cons, List.length_cons, ih hrest]

theorem keys_encodeEntries {entries encoded : List (String × Json)}
    (h : encodeEntries entries = .ok encoded) : encoded.map (·.1) = entries.map (·.1) := by
  induction entries generalizing encoded with
  | nil =>
    cases h
    rfl
  | cons entry rest ih =>
    obtain ⟨key, value⟩ := entry
    unfold encodeEntries at h
    obtain ⟨value', -, h⟩ := Result.bind_eq_ok.mp h
    obtain ⟨rest', hrest, h⟩ := Result.bind_eq_ok.mp h
    cases h
    rw [List.map_cons, List.map_cons, ih hrest]

theorem rendered_of_encode {value encoded : Json} (h : encodeByteFields value = .ok encoded) :
    Rendered value encoded := by
  cases value with
  | array values =>
    unfold encodeByteFields at h
    obtain ⟨values', hvalues, h⟩ := Result.bind_eq_ok.mp h
    cases h
    exact ⟨values', rfl, length_encodeValues hvalues⟩
  | object entries =>
    unfold encodeByteFields at h
    obtain ⟨entries', hentries, h⟩ := Result.bind_eq_ok.mp h
    cases h
    exact ⟨entries', rfl, keys_encodeEntries hentries⟩
  | _ =>
    cases h
    rfl

/-- A step to a byte field. -/
theorem child_bytes {value encoded : Json} (h : encodeByteFields value = .ok encoded) {key : String}
    (hkey : key ∈ byteFields) :
    Option.Rel RenderedBytes (value.child (.field key)) (encoded.child (.field key)) := by
  cases value with
  | object entries =>
    unfold encodeByteFields at h
    obtain ⟨entries', hentries, h⟩ := Result.bind_eq_ok.mp h
    cases h
    have hlookup := encodeEntries_lookup hentries key
    simp only [if_pos hkey, encodeBytes_eq_ok] at hlookup
    exact hlookup
  | array values =>
    unfold encodeByteFields at h
    obtain ⟨values', -, h⟩ := Result.bind_eq_ok.mp h
    cases h
    exact .none
  | _ =>
    cases h
    exact .none

theorem locate_rendered {value encoded : Json} (h : encodeByteFields value = .ok encoded)
    {path : List Step} (hplain : Plain path) :
    Option.Rel Rendered (value.locate path) (encoded.locate path) := by
  have hlocate := locate_encode h hplain
  revert hlocate
  generalize value.locate path = v
  generalize encoded.locate path = w
  intro hlocate
  cases hlocate with
  | some hvalue => exact .some (rendered_of_encode hvalue)
  | none => exact .none

theorem locate_bytes {value encoded : Json} (h : encodeByteFields value = .ok encoded)
    {path : List Step} (hplain : Plain path) {key : String} (hkey : key ∈ byteFields) :
    Option.Rel RenderedBytes (value.locate (path ++ [.field key]))
      (encoded.locate (path ++ [.field key])) := by
  have hlocate := locate_encode h hplain
  have hsingle (v : Json) : v.locate [.field key] = v.child (.field key) := by
    rw [locate]
    cases v.child (.field key) with
    | none => rfl
    | some w => rfl
  rw [locate_append, locate_append]
  revert hlocate
  generalize value.locate path = v
  generalize encoded.locate path = w
  intro hlocate
  cases hlocate with
  | some hvalue =>
    simp only [Option.bind_some, hsingle]
    exact child_bytes hvalue hkey
  | none => exact .none

/-! ### What serde makes of a value tells it -/

/-- The values of `f` tell what they are made of, and are not null. -/
class Tells {α : Type} (f : α → Json) : Prop where
  injective : Function.Injective f
  ne_null : ∀ a, f a ≠ .null

@[simp] theorem option_inj {α : Type} {f : α → Json} [Tells f] {x y : Option α} :
    option f x = option f y ↔ x = y := by
  cases x with
  | none =>
    cases y with
    | none => simp
    | some b => simpa [option] using (Tells.ne_null (f := f) b).symm
  | some a =>
    cases y with
    | none => simpa [option] using Tells.ne_null (f := f) a
    | some b => simpa [option] using (Tells.injective (f := f)).eq_iff

@[simp] theorem map_inj {α : Type} {f : α → Json} [Tells f] {xs ys : List α} :
    xs.map f = ys.map f ↔ xs = ys :=
  (List.map_injective_iff.mpr (Tells.injective (f := f))).eq_iff

instance : Tells bytes where
  injective a b h := by
    refine List.map_injective_iff.mpr (fun x y hxy => ?_) (Json.array.inj h)
    exact UInt8.toNat_inj.mp (Int.ofNat.inj (Json.number.inj hxy))
  ne_null _ h := by cases h

@[simp] theorem bytes_inj {a b : Bytes} : bytes a = bytes b ↔ a = b := (Tells.injective (f := bytes)).eq_iff

instance : Tells fun n : ℕ => Json.number n where
  injective a b h := Int.natCast_inj.mp (Json.number.inj h)
  ne_null _ h := by cases h

end Json

namespace Protobuf

open Json

instance : Tells BlockHeader.toJson where
  injective a b h := by
    cases a
    cases b
    simp [BlockHeader.toJson] at h
    simp [h]
  ne_null _ := by simp [BlockHeader.toJson]

instance : Tells Bip300Constants.toJson where
  injective a b h := by
    cases a
    cases b
    simp [Bip300Constants.toJson] at h
    simp [h]
  ne_null _ := by simp [Bip300Constants.toJson]

instance : Tells ChainInfo.toJson where
  injective a b h := by
    cases a
    cases b
    simp [ChainInfo.toJson] at h
    simp [h]
  ne_null _ := by simp [ChainInfo.toJson]

instance : Tells ChainTip.toJson where
  injective a b h := by
    cases a
    cases b
    simp [ChainTip.toJson] at h
    simp [h]
  ne_null _ := by simp [ChainTip.toJson]

instance : Tells BmmRequest.toJson where
  injective a b h := by
    cases a
    cases b
    simp [BmmRequest.toJson] at h
    simp [h]
  ne_null _ := by simp [BmmRequest.toJson]

instance : Tells BmmRequestsSnapshot.toJson where
  injective a b h := by
    cases a
    cases b
    simp [BmmRequestsSnapshot.toJson] at h
    simp [h]
  ne_null _ := by simp [BmmRequestsSnapshot.toJson]

instance : Tells SidechainDeclarationV0.toJson where
  injective a b h := by
    cases a
    cases b
    simp [SidechainDeclarationV0.toJson] at h
    simp [h]
  ne_null _ := by simp [SidechainDeclarationV0.toJson]

instance : Tells fun v0 : SidechainDeclarationV0 => Json.object [("V0", v0.toJson)] where
  injective a b h := by
    simp at h
    exact Tells.injective h
  ne_null _ := by simp

instance : Tells SidechainDeclaration.toJson where
  injective a b h := by
    cases a
    cases b
    simp [SidechainDeclaration.toJson] at h
    simp [h]
  ne_null _ := by simp [SidechainDeclaration.toJson]

instance : Tells SidechainProposal.toJson where
  injective a b h := by
    cases a
    cases b
    simp [SidechainProposal.toJson] at h
    simp [h]
  ne_null _ := by simp [SidechainProposal.toJson]

instance : Tells ActiveSidechain.toJson where
  injective a b h := by
    cases a
    cases b
    simp [ActiveSidechain.toJson] at h
    simp [h]
  ne_null _ := by simp [ActiveSidechain.toJson]

instance : Tells Ctip.toJson where
  injective a b h := by
    cases a
    cases b
    simp [Ctip.toJson] at h
    simp [h]
  ne_null _ := by simp [Ctip.toJson]

instance : Tells CtipSnapshot.toJson where
  injective a b h := by
    cases a
    cases b
    simp [CtipSnapshot.toJson] at h
    simp [h]
  ne_null _ := by simp [CtipSnapshot.toJson]

instance : Tells OutPoint.toJson where
  injective a b h := by
    cases a
    cases b
    simp [OutPoint.toJson] at h
    simp [h]
  ne_null _ := by simp [OutPoint.toJson]

instance : Tells Deposit.toJson where
  injective a b h := by
    cases a
    cases b
    simp [Deposit.toJson] at h
    simp [h]
  ne_null _ := by simp [Deposit.toJson]

instance : Tells WithdrawalBundleState.toJson where
  injective a b h := by
    cases a <;> cases b <;> simp [WithdrawalBundleState.toJson] at h
    · rfl
    · rfl
    · simp [h]
  ne_null a := by cases a <;> simp [WithdrawalBundleState.toJson]

instance : Tells WithdrawalBundleEvent.toJson where
  injective a b h := by
    cases a
    cases b
    simp [WithdrawalBundleEvent.toJson] at h
    simp [h]
  ne_null _ := by simp [WithdrawalBundleEvent.toJson]

instance : Tells SidechainEvent.toJson where
  injective a b h := by
    cases a <;> cases b <;> simp [SidechainEvent.toJson] at h
    · rw [Tells.injective h]
    · rw [Tells.injective h]
  ne_null a := by cases a <;> simp [SidechainEvent.toJson]

instance : Tells fun event : Option SidechainEvent =>
    Json.object [("event", option SidechainEvent.toJson event)] where
  injective a b h := by simpa using h
  ne_null _ := by simp

instance : Tells WithdrawalBundleProposal.toJson where
  injective a b h := by
    cases a
    cases b
    simp [WithdrawalBundleProposal.toJson] at h
    simp [h]
  ne_null _ := by simp [WithdrawalBundleProposal.toJson]

instance : Tells WithdrawalBundleProposalsSnapshot.toJson where
  injective a b h := by
    cases a
    cases b
    simp [WithdrawalBundleProposalsSnapshot.toJson] at h
    simp [h]
  ne_null _ := by simp [WithdrawalBundleProposalsSnapshot.toJson]

instance : Tells BlockConnected.toJson where
  injective a b h := by
    cases a
    cases b
    simp [BlockConnected.toJson] at h
    simp [h]
  ne_null _ := by simp [BlockConnected.toJson]

instance : Tells BlockDisconnected.toJson where
  injective a b h := by
    cases a
    cases b
    simp [BlockDisconnected.toJson] at h
    simp [h]
  ne_null _ := by simp [BlockDisconnected.toJson]

instance : Tells BlockRef.toJson where
  injective a b h := by
    cases a
    cases b
    simp [BlockRef.toJson] at h
    simp [h]
  ne_null _ := by simp [BlockRef.toJson]

instance : Tells MainchainTransition.toJson where
  injective a b h := by
    cases a
    cases b
    simp [MainchainTransition.toJson] at h
    simp [h]
  ne_null _ := by simp [MainchainTransition.toJson]

instance : Tells ConfirmedBmmFee.toJson where
  injective a b h := by
    cases a
    cases b
    simp [ConfirmedBmmFee.toJson] at h
    simp [h]
  ne_null _ := by simp [ConfirmedBmmFee.toJson]

instance : Tells ConfirmedBmmFees.toJson where
  injective a b h := by
    cases a
    cases b
    simp [ConfirmedBmmFees.toJson] at h
    simp [h]
  ne_null _ := by simp [ConfirmedBmmFees.toJson]

instance : Tells MainchainBlock.toJson where
  injective a b h := by
    cases a
    cases b
    simp [MainchainBlock.toJson] at h
    simp [h]
  ne_null _ := by simp [MainchainBlock.toJson]

instance : Tells EnforcerEvent.toJson where
  injective a b h := by
    cases a <;> cases b <;> simp [EnforcerEvent.toJson] at h
    · rw [Tells.injective h]
    · rw [Tells.injective h]
    · rw [h]
    · rw [h]
    · rw [Tells.injective h]
    · rw [Tells.injective h]
    · rw [Tells.injective h]
    · rw [Tells.injective h]
    · rw [Tells.injective h]
    · rw [Tells.injective h]
  ne_null a := by cases a <;> simp [EnforcerEvent.toJson]

instance : Tells NodeEvent.toJson where
  injective a b h := by
    cases a <;> cases b <;> simp [NodeEvent.toJson] at h
    · rw [Tells.injective h]
    · rw [Tells.injective h]
    · rw [Tells.injective h]
  ne_null a := by cases a <;> simp [NodeEvent.toJson]

instance : Tells MonitorEvent.toJson where
  injective a b h := by
    cases a <;> cases b <;> simp [MonitorEvent.toJson] at h
    · rw [h]
    · rw [h]
  ne_null a := by cases a <;> simp [MonitorEvent.toJson]

instance : Tells observedBlockJson where
  injective a b h := by
    cases a
    cases b
    simp [observedBlockJson] at h
    simp [h]
  ne_null _ := by simp [observedBlockJson]

/-- **What serde makes of an event tells the event.** -/
theorem Event.toJson_injective : Function.Injective Event.toJson := by
  intro a b h
  cases a
  cases b
  simp [Event.toJson] at h
  simp [h]

end Protobuf

open Json

/-- **Rendering is lossless.** Every event is rendered; decoding the strings under the byte fields gives
back what serde makes of it, so that no two events are rendered alike. Off the byte fields nothing is
changed, and a byte field that is absent stays null while bytes, even of length zero, become a string. -/
theorem render_lossless (event : Event) :
    ∃ value, render event = .ok value ∧ decodeByteFields value = .ok event.toJson ∧
      (∀ other, render other = .ok value → other = event) ∧
      (∀ path, Plain path → Option.Rel Rendered (event.toJson.locate path) (value.locate path)) ∧
      ∀ path key, Plain path → key ∈ byteFields →
        Option.Rel RenderedBytes (event.toJson.locate (path ++ [.field key]))
          (value.locate (path ++ [.field key])) := by
  obtain ⟨value, hvalue⟩ := render_ok event
  have hdecoded : decodeByteFields value = .ok event.toJson := decodeByteFields_of_encode hvalue
  refine ⟨value, hvalue, hdecoded, fun other hother => ?_, fun path hplain => locate_rendered hvalue hplain,
    fun path key hplain hkey => locate_bytes hvalue hplain hkey⟩
  have hother := decodeByteFields_of_encode hother
  rw [hdecoded] at hother
  exact Event.toJson_injective (Except.ok.inj hother).symm

end Bip300Monitor
