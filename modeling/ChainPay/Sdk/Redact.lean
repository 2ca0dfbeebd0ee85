import ChainPay.Lib.Checked
import ChainPay.Lib.Document
import ChainPay.Lib.Pattern
import Mathlib.Data.List.Forall2

/-!
Card data on its way to a model, a log or a screen: forbidden keys are dropped and runs of 13 to
19 digits are replaced. The classes of the patterns are ASCII, so a search by code points finds
what one by code units finds.
-/

namespace ChainPay.Sdk.Redact
open ChainPay.Lib Matcher

def CARD_DATA_REDACTION : JsText := points "[redacted]".toList

/-- A word in either case. -/
def word (name : String) : Matcher CodePoint :=
  name.toList.foldr (fun c m => seq (one (onChar fun x => x.toLower = c)) m) fun s => [s]

/-- Two words, an underscore between them or none. -/
def words (a b : String) : Matcher CodePoint := seq (word a) (seq (maybe (word "_")) (word b))

def anyOf (ms : List (Matcher CodePoint)) : Matcher CodePoint := ms.foldr either fun _ => []

def FORBIDDEN_KEY : Matcher CodePoint :=
  anyOf [word "pan", words "card" "number", word "cardnum",
    seq (words "primary" "account") (seq (maybe (word "_")) (word "number")),
    seq (word "cvv") (maybe (word "2")), seq (word "cvc") (maybe (word "2")), word "csc",
    words "security" "code",
    seq (word "exp") (seq (maybe (either (word "iry") (word "iration")))
      (maybe (seq (maybe (word "_")) (anyOf [word "date", word "month", word "year"])))),
    seq (word "exp") (seq (maybe (word "_")) (either (word "month") (word "year"))),
    word "pin", words "embed" "url", words "embed" "session", words "track" "data",
    words "tee" "token", words "auth" "token", words "access" "token"]

def isForbiddenCardKey (key : JsText) : Bool := FORBIDDEN_KEY.whole key

def isDigit : CodePoint → Bool := onChar isDecimalDigit

/-- `[ -]` -/
def isSeparator : CodePoint → Bool := onChar fun c => c = ' ' || c = '-'

/-- `[0-9A-Za-z_-]`: next to one of these a digit belongs to an identifier. -/
def isGlue : CodePoint → Bool :=
  onChar fun c => isDecimalDigit c || ('A' ≤ c && c ≤ 'Z') || ('a' ≤ c && c ≤ 'z') || c = '_' ||
    c = '-'

/-- `(?:[ -]?\d)` -/
def group : Matcher CodePoint := seq (maybe (one isSeparator)) (one isDigit)

def CARD_NUMBER_RUN : Pattern CodePoint where
  behind := isGlue
  body := seq (one isDigit) (seq (times 12 group) (upTo 6 group))
  ahead := isGlue

def findCardNumberLike (text : JsText) : List JsText := CARD_NUMBER_RUN.matchAll text

def redactCardNumbers (text : JsText) : JsText :=
  CARD_NUMBER_RUN.replace CARD_DATA_REDACTION text

/-! ## Values -/

inductive Value where
  | undefined
  | null
  | bool (b : Bool)
  | number (n : Number)
  | bigint (n : Int)
  | text (t : JsText)
  | bytes (bs : Bytes)
  | array (items : List Value)
  | object (entries : List (JsText × Value))

inductive RedactError where
  | nestedTooDeeply
  | cardData
  deriving DecidableEq, Repr

def PROTO : JsText := points "__proto__".toList

/-- `out[key] = item` on an object literal; under `__proto__` it sets no property. -/
def assign (out : List (JsText × Value)) (key : JsText) (item : Value) : List (JsText × Value) :=
  if key = PROTO then out
  else if key ∈ out.map Prod.fst then out.map fun e => if e.1 = key then (key, item) else e
  else out ++ [(key, item)]

/-- `toString` of a bigint. -/
def bigintText (n : Int) : JsText :=
  points (if n < 0 then '-' :: decimal n.natAbs else decimal n.natAbs)

/-- A number whose text shows a card number goes. -/
def redactNumeral (value : Value) (text : JsText) : Value × Nat :=
  if (findCardNumberLike text).length ≠ 0 then (.text CARD_DATA_REDACTION, 1) else (value, 0)

-- `toString` of a number, whatever it prints.
variable (numberText : Number → JsText)

/-- The walk with the levels that are left: `33 - depth`. -/
def walk : Nat → Value → Except RedactError (Value × Nat)
  | 0, _ => .error .nestedTooDeeply
  | _ + 1, .text t =>
    .ok (.text (redactCardNumbers t), if redactCardNumbers t ≠ t then 1 else 0)
  | _ + 1, .number n => .ok (redactNumeral (.number n) (numberText n))
  | _ + 1, .bigint n => .ok (redactNumeral (.bigint n) (bigintText n))
  | left + 1, .array items => do
    let out ← items.mapM (walk left)
    .ok (.array (out.map Prod.fst), (out.map Prod.snd).sum)
  | left + 1, .object entries => do
    let (out, redactions) ← entries.foldlM (fun (out, redactions) (key, item) =>
      if isForbiddenCardKey key then .ok (out, redactions + 1)
      else do
        let (item, found) ← walk left item
        .ok (assign out key item, redactions + found)) ([], 0)
    .ok (.object out, redactions)
  | _ + 1, value => .ok (value, 0)

def redactCardData (input : Value) : Except RedactError (Value × Nat) := walk numberText 33 input

def assertNoCardData (value : Value) : Except RedactError Unit := do
  let (_, redactions) ← redactCardData numberText value
  if redactions > 0 then .error .cardData else .ok ()

end ChainPay.Sdk.Redact
