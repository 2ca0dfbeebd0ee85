import ChainPay.Lib.Checked
import Mathlib.Data.List.Basic
import Mathlib.Algebra.Order.Ring.Int

/-!
What the PayPal service reads and what it takes from its libraries: JSON values of the provider,
exact cents (`money.rs`), the catalogue of services (`services.rs`), and the parameters `Env` for
URLs, calendars and digests.
-/

namespace ChainPay.Paypal
open ChainPay.Lib

inductive Error where
  | invalid (message : String)
  | conflict
  | notFound
  | forbidden
  | storage
  /-- An `unwrap` or an index that failed: the request dies and its transaction is dropped. -/
  | panicked
  deriving DecidableEq, Repr

/-! ## JSON values -/

/-- `serde_json::Value`; a number is kept as what `as_u64` gives of it. -/
inductive Value where
  | null
  | bool (b : Bool)
  | num (u64 : Option Nat)
  | str (s : String)
  | arr (vs : List Value)
  | obj (ms : List (String × Value))
  deriving Inhabited

namespace Value

/-- `value.get(key)`; the last member of a name counts. -/
def get (v : Value) (key : String) : Option Value :=
  match v with
  | .obj ms => (ms.reverse.find? fun m => m.1 = key).map Prod.snd
  | _ => none

/-- `value[key]`. -/
def index (v : Value) (key : String) : Value := (v.get key).getD .null

def asStr : Value → Option String
  | .str s => some s
  | _ => none

def asArray : Value → Option (List Value)
  | .arr vs => some vs
  | _ => none

def asU64 : Value → Option Nat
  | .num n => n
  | _ => none

def asBool : Value → Option Bool
  | .bool b => some b
  | _ => none

def isNull : Value → Bool
  | .null => true
  | _ => false

/-- `value == "text"`. -/
def isStr (v : Value) (s : String) : Bool := v.asStr = some s

end Value

/-! ## Libraries -/

/-- The parts of a parsed URL the service looks at. -/
structure Url where
  scheme : String
  host : Option String
  port : Option Nat
  username : String
  password : Option String
  deriving DecidableEq, Repr

/-- A version of an output a decision is bound to. -/
structure Binding where
  unit : Nat
  revision : Nat
  outputHash : Option String
  deriving DecidableEq, Repr

/-- What is written as JSON and hashed. -/
inductive Hashed where
  | text (s : String)
  | documents (texts : List (String × String))
  | quote (service : String) (requirements : Option String) (id : String) (inputs : List String)
      (amount expires : Nat)
  | refund (id : String) (captureId : Option String) (failed : List (Nat × String)) (amount : Nat)
  | proposal (id : String) (captureId : Option String) (request : String) (bindings : List Binding)
      (reason : String) (amount : Nat)
  | delegation (workspace buyer subscription request : String)

/-- Rust's Unicode tables and the crates `url`, `chrono`, `serde_json` and `sha2`. -/
class Env where
  alphanumeric : Char → Bool
  parseUrl : String → Option Url
  /-- An RFC 3339 time: whole seconds and nanoseconds. -/
  instant : String → Option (Int × Nat)
  /-- `n` calendar months after a time. -/
  month : Int → Nat → Option Int
  hash : Hashed → String

/-- The origin an approval link must have. -/
def sandboxOrigin (u : Url) : Prop :=
  u.scheme = "https" ∧ u.host = some "www.sandbox.paypal.com" ∧ u.username = "" ∧
    u.password = none ∧ u.port = none

instance (u : Url) : Decidable (sandboxOrigin u) := by
  unfold sandboxOrigin
  infer_instance

/-! ## Money -/

def isDigit (c : Char) : Bool := '0' ≤ c && c ≤ '9'

def digitsValue (ds : List Char) : Nat := ds.foldl (fun n c => 10 * n + (c.toNat - 48)) 0

/-- `split_once`. -/
def splitOnce (c : Char) (s : List Char) : Option (List Char × List Char) :=
  if c ∈ s then some (s.takeWhile (· ≠ c), (s.dropWhile (· ≠ c)).drop 1) else none

/-- `Cents::parse`: an exact decimal that fits `u64`. -/
def parseCents (value : String) : Except Error Nat :=
  match splitOnce '.' value.toList with
  | none => .error (.invalid "Expected exact USD decimal")
  | some (whole, fraction) =>
    if whole = [] ∨ fraction.length ≠ 2 ∨ ¬ (whole ++ fraction).all isDigit then
      .error (.invalid "Expected exact USD decimal")
    else if 2 ^ 64 ≤ 100 * digitsValue whole + digitsValue fraction then
      .error (.invalid "Amount overflow")
    else .ok (100 * digitsValue whole + digitsValue fraction)

/-- `subscriptions::money`: also without the fraction or with one digit of it. -/
def money (v : Value) : Option Nat := do
  let raw ← v.asStr
  let normalized := match splitOnce '.' raw.toList with
    | none => raw ++ ".00"
    | some (w, f) => if f.length = 1 then String.ofList (w ++ '.' :: f) ++ "0" else raw
  match parseCents normalized with
  | .ok n => some n
  | .error _ => none

/-! ## Services -/

structure Service where
  id : String
  unitPrice : Nat
  minDocuments : Nat
  maxDocuments : Nat
  allowanceUnitsPerOutput : Nat
  requiresRequirements : Bool
  deriving DecidableEq, Repr

def OFFER_VERSION : String := "document-extract-v1"
def COMPARE : String := "document-compare-v1"
def CHECK : String := "requirements-check-v1"

def catalog : List Service :=
  [⟨OFFER_VERSION, 400, 1, 10, 1, false⟩, ⟨COMPARE, 800, 2, 2, 2, false⟩,
   ⟨CHECK, 400, 1, 10, 1, true⟩]

/-- `services::get`. -/
def getService (id : String) : Except Error Service :=
  match catalog.find? fun s => s.id = id with
  | some s => .ok s
  | none => .error (.invalid "Unknown service version")

structure Document where
  name : String
  text : String
  deriving DecidableEq, Repr

/-- Unicode White_Space. -/
def isWhitespace (c : Char) : Bool :=
  let n := c.toNat
  (9 ≤ n && n ≤ 13) || n = 0x20 || n = 0x85 || n = 0xA0 || n = 0x1680 ||
    (0x2000 ≤ n && n ≤ 0x200A) || n = 0x2028 || n = 0x2029 || n = 0x202F || n = 0x205F ||
    n = 0x3000

/-- `s.trim().is_empty()`. -/
def isBlank (s : String) : Bool := s.toList.all isWhitespace

def Service.validate (s : Service) (documents : List Document) (requirements : Option String) :
    Except Error Unit := do
  ensure (s.minDocuments ≤ documents.length ∧ documents.length ≤ s.maxDocuments)
    (.invalid "Document count does not match the selected service")
  if s.requiresRequirements then
    ensure (requirements.any fun r => !isBlank r && r.utf8ByteSize ≤ 4000)
      (.invalid "Supply requirements of 1–4000 bytes")
  else
    ensure (!requirements.any fun r => r ≠ "")
      (.invalid "This service does not accept requirements")

def Service.outputs (s : Service) (documents : Nat) : Nat :=
  if s.id = COMPARE then 1 else documents

/-- Shared byte and count constraints for raw quotes and preflight. -/
def validateInputs (documents : List Document) : Except Error Unit :=
  ensure (documents ≠ [] ∧ documents.length ≤ 10 ∧ ∀ d ∈ documents,
      ¬ (isBlank d.name ∨ 120 < d.name.utf8ByteSize ∨ 16000 < d.text.utf8ByteSize))
    (.invalid
      "Use 1–10 named documents, names up to 120 bytes and text up to 16,000 bytes each")

/-- At least 30 alphanumeric characters. -/
def readable [Env] (text : String) : Bool := 30 ≤ (text.toList.filter Env.alphanumeric).length

/-- Whether `preflight` finds the inputs ready. -/
def preflight [Env] (id : String) (documents : List Document) (requirements : Option String) :
    Except Error Bool := do
  let service ← getService id
  service.validate documents requirements
  validateInputs documents
  return documents.all fun d => readable d.text

end ChainPay.Paypal
