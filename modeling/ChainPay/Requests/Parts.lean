import ChainPay.Lib.Base64
import ChainPay.Lib.Checked
import ChainPay.Lib.Document
import ChainPay.Sdk.Accounts

/-!
What the signed requests share: the checks of a single field, in the SDK and in the relay, and
the canonical JSON text that is signed. Each check has the equation that tells what it takes.
-/

namespace ChainPay.Requests
open ChainPay.Lib ChainPay.Sdk

/-- The Ed25519 verification of a key, a message and a signature, one for both languages. -/
class Ed25519 where
  verify : Bytes → Bytes → Bytes → Bool

def MAX_U64 : Nat := 18446744073709551615

/-! ## The SDK's checks -/

section

variable [PublicKey]

/-- `address`: the base58 text of the key that a text denotes. -/
def address (u : JsText) : Option JsText := do
  let t ← chars u
  let key ← PublicKey.ofText t
  return points (PublicKey.toBase58 key)

/-- The bytes of a key. -/
def publicKeyBytes (u : JsText) : Option Bytes := do
  PublicKey.ofText (← chars u)

def canonicalAddress (value : Option Doc) (name : JsText) : Except JsText JsText := do
  let u ← okOr (textOf value) (name ++ " must be a Solana address")
  let parsed ← okOr (address u) (name ++ " must be a Solana address")
  ensure (parsed = u) (name ++ " must be a canonical Solana address")
  return parsed

/-- The base58 text of a key. -/
def IsAddress (t : List Char) : Prop :=
  ∃ key, PublicKey.ofText t = some key ∧ PublicKey.toBase58 key = t

@[simp] theorem canonicalAddress_eq_ok {value : Option Doc} {name : JsText} {u : JsText} :
    canonicalAddress value name = .ok u ↔
      value = some (.str u) ∧ ∃ t, u = points t ∧ IsAddress t := by
  simp only [canonicalAddress, bind_eq_ok, okOr_eq_ok, ensure_eq_ok, exists_unit, pure_eq_ok,
    textOf_eq_some]
  constructor
  · rintro ⟨v, rfl, parsed, hparsed, rfl, rfl⟩
    refine ⟨rfl, ?_⟩
    simp only [address, Option.bind_eq_bind, Option.bind_eq_some_iff, Option.pure_def,
      Option.some.injEq] at hparsed
    obtain ⟨t, ht, key, hkey, htext⟩ := hparsed
    have hu := chars_eq_some.mp ht
    exact ⟨t, hu, key, hkey, points_injective (htext.trans hu)⟩
  · rintro ⟨rfl, t, rfl, key, hkey, htext⟩
    refine ⟨points t, rfl, points t, ?_, rfl, rfl⟩
    simp only [address, chars_points, hkey, htext, Option.bind_eq_bind, Option.bind_some,
      Option.pure_def]

end

/-- No member beyond the ones named; the error names the first that is. -/
def refuseExtra (names : List String) (error : JsText) (ms : List (JsText × Doc)) :
    Except JsText Unit :=
  match extraKeys names ms with
  | [] => .ok ()
  | k :: _ => .error (error ++ ": " ++ k)

@[simp] theorem refuseExtra_eq_ok {names : List String} {error : JsText}
    {ms : List (JsText × Doc)} {u : Unit} :
    refuseExtra names error ms = .ok u ↔ Known names ms := by
  rw [← extraKeys_eq_nil, refuseExtra]
  cases extraKeys names ms with
  | nil => simp
  | cons k ks => simp

/-- One of some texts. -/
def oneOf (value : Option Doc) (names : List String) (error : JsText) : Except JsText JsText := do
  let u ← okOr (textOf value) error
  ensure (u ∈ names.map key) error
  return u

@[simp] theorem oneOf_eq_ok {value : Option Doc} {names : List String} {error : JsText}
    {u : JsText} :
    oneOf value names error = .ok u ↔ value = some (.str u) ∧ u ∈ names.map key := by
  simp only [oneOf, bind_eq_ok, okOr_eq_ok, ensure_eq_ok, exists_unit, pure_eq_ok, textOf_eq_some]
  constructor
  · rintro ⟨v, hv, hmem, rfl⟩
    exact ⟨hv, hmem⟩
  · rintro ⟨hv, hmem⟩
    exact ⟨u, hv, hmem, rfl⟩

/-- A check that is made only of a value that is there. -/
def whenPresent {α : Type} (value : Option Doc) (check : Option Doc → Except JsText α) :
    Except JsText (Option α) :=
  match value with
  | none => .ok none
  | some v => (check (some v)).map some

@[simp] theorem whenPresent_eq_ok {α : Type} {value : Option Doc}
    {check : Option Doc → Except JsText α} {x : Option α} :
    whenPresent value check = .ok x ↔
      (value = none ∧ x = none) ∨ ∃ a, value ≠ none ∧ check value = .ok a ∧ x = some a := by
  cases value with
  | none =>
    simp only [whenPresent, Except.ok.injEq, true_and, ne_eq, not_true_eq_false, false_and,
      exists_false, or_false]
    exact eq_comm
  | some v =>
    simp only [whenPresent, reduceCtorEq, false_and, ne_eq, not_false_eq_true, true_and, false_or]
    cases check (some v) with
    | error e => simp [Except.map]
    | ok a => simp [Except.map, eq_comm]

/-- `/^(0|[1-9]\d*)$/`. -/
def CANONICAL_UINT : List Char → Bool
  | [] => false
  | c :: cs => (c = '0' && cs.isEmpty) || ('1' ≤ c && c ≤ '9' && cs.all isDecimalDigit)

/-- The text of an unsigned 64-bit integer, and the integer. -/
def u64String (value : Option Doc) (name : JsText) (positive : Bool) :
    Except JsText (JsText × Nat) := do
  let u ← okOr (textOf value) (name ++ " must be an unsigned integer string")
  let t ← okOr ((chars u).filter CANONICAL_UINT) (name ++ " must be an unsigned integer string")
  let parsed := decimalValue t
  ensure (parsed ≤ MAX_U64) (name ++ " must fit in u64")
  ensure (positive = true → parsed ≠ 0) (name ++ " must be greater than zero")
  return (u, parsed)

/-- A positive integer below `2 ^ 64`, spelled without a leading zero. -/
def IsAmount (t : List Char) : Prop :=
  CANONICAL_UINT t = true ∧ decimalValue t ≤ MAX_U64 ∧ decimalValue t ≠ 0

@[simp] theorem u64String_eq_ok {value : Option Doc} {name : JsText} {x : JsText × Nat} :
    u64String value name true = .ok x ↔
      value = some (.str x.1) ∧ ∃ t, x.1 = points t ∧ IsAmount t ∧ x.2 = decimalValue t := by
  simp only [u64String, bind_eq_ok, okOr_eq_ok, ensure_eq_ok, exists_unit, pure_eq_ok,
    textOf_eq_some, forall_const, Option.filter_eq_some_iff, chars_eq_some]
  constructor
  · rintro ⟨u, hu, t, ⟨rfl, hform⟩, hle, hpos, rfl⟩
    exact ⟨hu, t, rfl, ⟨hform, hle, hpos⟩, rfl⟩
  · rintro ⟨hu, t, ht, ⟨hform, hle, hpos⟩, hn⟩
    exact ⟨x.1, hu, t, ⟨ht, hform⟩, hle, hpos, Prod.ext rfl hn.symm⟩

/-! ## The relay's checks -/

/-- The relay's spelling check of an unsigned integer. -/
def canonicalUint (value : List Char) : Bool :=
  value = ['0'] || (value ≠ [] && value.head? ≠ some '0' && value.all isDecimalDigit)

theorem canonicalUint_eq (t : List Char) : canonicalUint t = CANONICAL_UINT t := by
  cases t with
  | nil => rfl
  | cons c cs =>
    by_cases h0 : c = '0'
    · subst h0
      cases cs with
      | nil => rfl
      | cons d ds => simp [canonicalUint, CANONICAL_UINT]
    · have hdigit : isDecimalDigit c = ('1' ≤ c && c ≤ '9') := by
        have hne : c.toNat ≠ 48 := fun h => h0 (Char.toNat_inj.mp h)
        have hone : ('1' ≤ c) ↔ 49 ≤ c.toNat := Iff.rfl
        have hzero : ('0' ≤ c) ↔ 48 ≤ c.toNat := Iff.rfl
        have hiff : ('0' ≤ c) ↔ ('1' ≤ c) := by
          rw [hone, hzero]
          omega
        simp only [isDecimalDigit, hiff]
      simp [canonicalUint, CANONICAL_UINT, h0, hdigit, Bool.and_assoc]

namespace Relay

def u64String (value : List Char) (name : String) (positive : Bool) : Except String Nat := do
  ensure (canonicalUint value = true) (name ++ " must be an unsigned integer string")
  let parsed := decimalValue value
  ensure (parsed ≤ MAX_U64) (name ++ " must fit in u64")
  ensure (positive = true → parsed ≠ 0) (name ++ " must be greater than zero")
  return parsed

@[simp] theorem u64String_eq_ok {t : List Char} {name : String} {n : Nat} :
    u64String t name true = .ok n ↔ IsAmount t ∧ n = decimalValue t := by
  simp only [u64String, bind_eq_ok, ensure_eq_ok, exists_unit, pure_eq_ok, forall_const,
    canonicalUint_eq]
  constructor
  · rintro ⟨hform, hle, hpos, rfl⟩
    exact ⟨⟨hform, hle, hpos⟩, rfl⟩
  · rintro ⟨⟨hform, hle, hpos⟩, rfl⟩
    exact ⟨hform, hle, hpos, rfl⟩

variable [PublicKey]

def decodeAddress (value : List Char) (name : String) : Except String Bytes := do
  let bytes ← okOr (PublicKey.ofText value) (name ++ " must be a Solana address")
  ensure (PublicKey.toBase58 bytes = value) (name ++ " must be a canonical Solana address")
  return bytes

theorem decodeAddress_eq_ok {t : List Char} {name : String} {key : Bytes} :
    decodeAddress t name = .ok key ↔
      PublicKey.ofText t = some key ∧ PublicKey.toBase58 key = t := by
  simp only [decodeAddress, bind_eq_ok, okOr_eq_ok, ensure_eq_ok, exists_unit, pure_eq_ok]
  constructor
  · rintro ⟨key, hkey, htext, rfl⟩
    exact ⟨hkey, htext⟩
  · rintro ⟨hkey, htext⟩
    exact ⟨key, hkey, htext, rfl⟩

end Relay

end ChainPay.Requests
