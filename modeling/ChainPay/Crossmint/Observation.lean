import ChainPay.Lib.Checked
import ChainPay.Lib.Codec
import ChainPay.Lib.Json
import ChainPay.Lib.Text

/-!
What the backend reads off a Crossmint order after it was paid (`server.rs`), and the row that keeps
it (`put_crossmint_proof`). The provider's body is any JSON; a proof holds what was legible in it.
-/

namespace ChainPay.Crossmint
open ChainPay.Lib

abbrev Text := List Char

/-! ## JSON -/

/-- `value["name"]`: null where there is no such member. -/
def field (name : String) (value : Json) : Json := (value.get name.toList).getD .null

def asStr : Json → Option Text
  | .str s => some s
  | _ => none

def asArray : Json → Option (List Json)
  | .arr vs => some vs
  | _ => none

def isNull : Json → Bool
  | .null => true
  | _ => false

def boundedStr (value : Json) (max : Nat) : Option Text :=
  (asStr value).bind fun s =>
    if rustTrim s ≠ [] ∧ (encodeUtf8 (rustTrim s)).length ≤ max then some (rustTrim s) else none

structure Money where
  amount : Text
  currency : Option Text
  deriving DecidableEq, Repr

/-- An amount and its currency as Crossmint states them, or nothing. -/
def crossmintMoney (value : Json) : Option Money := do
  let amount ← boundedStr (field "amount" value) 64
  some ⟨amount, boundedStr (field "currency" value) 32⟩

/-- `strip_prefix("solana:")`. -/
def fromLocator (locator : Text) : Option Text :=
  if "solana:".toList.isPrefixOf locator then some (locator.drop 7) else none

/-- The wallet of a delivery, if any is stated; `some none` when it is ambiguous. -/
def crossmintDeliveryWallet (recipient : Json) : Option (Option Text) :=
  match boundedStr (field "walletAddress" recipient) 64,
    boundedStr (field "locator" recipient) 256 with
  | none, none => none
  | some w, none => some (some w)
  | none, some l => some (fromLocator l)
  | some w, some l => some (if fromLocator l = some w then some w else none)

/-! ## The observation -/

inductive ApiError where
  | badRequest (message : String)
  | notFound
  deriving DecidableEq, Repr

def phases : List String := ["quote", "payment", "delivery", "completed"]

def paymentStatuses : List String :=
  ["draft", "requires-quote", "requires-crypto-payer-address", "requires-email", "requires-kyc",
    "manual-kyc", "failed-kyc", "crypto-payer-insufficient-funds",
    "crypto-payer-insufficient-funds-for-gas", "awaiting-payment", "in-progress", "completed"]

def lineStatuses : List String := ["draft", "awaiting-payment", "in-progress", "failed", "completed"]

/-- A text that is one of some. -/
def oneOf (texts : List String) (value : Json) : Option Text :=
  (asStr value).filter fun s => (texts.map String.toList).contains s

def UNKNOWN : Text := "unknown".toList
def COMPLETED : Text := "completed".toList
def FAILED : Text := "failed".toList

structure LineProof where
  status : Text
  failureCode : Option Text
  txId : Option Text
  recipientMatches : Option Bool
  deriving DecidableEq, Repr

inductive DeliverySummary where
  | failed
  | unknown
  | delivered
  | pending
  deriving DecidableEq, Repr

/-- The proof of one readback; `fulfilled` is what verifies an order. -/
structure OrderProof where
  orderId : Text
  orderPhase : Text
  paymentStatus : Text
  delivery : DeliverySummary
  deliveries : List LineProof
  refunded : Option Money
  received : Option Money
  fulfilled : Bool
  reportedAtMs : Nat
  deriving DecidableEq, Repr

/-- What the loop over the lines has gathered. -/
structure Seen where
  deliveries : List LineProof := []
  allDelivered : Bool := true
  anyFailed : Bool := false
  anyUnknown : Bool := false
  deriving DecidableEq, Repr

def recipientMatches (wallet : Option (Option Text)) (bound : Option Text) : Option Bool :=
  match wallet, bound with
  | some (some wallet), some bound => some (decide (wallet = bound))
  | some none, _ => some false
  -- Older bindings predate delivery binding.
  | _, none => none
  | none, some _ => none

def lineStatus (line : Json) : Text :=
  (oneOf lineStatuses (field "status" (field "delivery" line))).getD UNKNOWN

def lineWallet (line : Json) : Option (Option Text) :=
  crossmintDeliveryWallet (field "recipient" (field "delivery" line))

def observeLine (bound : Option Text) (line : Json) (seen : Seen) : Seen :=
  let delivery := field "delivery" line
  let status := lineStatus line
  let found := recipientMatches (lineWallet line) bound
  let entry : LineProof :=
    { status := status
      failureCode := boundedStr (field "code" (field "failureReason" delivery)) 64
      txId := boundedStr (field "txId" delivery) 128
      recipientMatches := found }
  { deliveries := seen.deliveries ++ [entry]
    allDelivered := seen.allDelivered && decide (status = COMPLETED ∧ found = some true)
    anyFailed := seen.anyFailed || decide (status = FAILED)
    anyUnknown := seen.anyUnknown || decide (status = UNKNOWN ∨ found = some false) }

/-- The reviewed wallet of item `i`. -/
def boundRecipient (items : Option (List Json)) (i : Nat) : Option Text :=
  (items.bind fun items => items[i]?).bind fun item => asStr (field "deliveryRecipient" item)

def observeLines (items : Option (List Json)) : Nat → List Json → Seen → Seen
  | _, [], seen => seen
  | i, line :: lines, seen =>
    observeLines items (i + 1) lines (observeLine (boundRecipient items i) line seen)

def CROSSMINT_MAX_LINE_ITEMS : Nat := 32

def orderOf (body : Json) : Json := (body.get "order".toList).getD body

def orderIdOf (order : Json) : Option Text :=
  ((order.get "orderId".toList).or (order.get "id".toList)).bind asStr

def linesOf (order : Json) : List Json := (asArray (field "lineItems" order)).getD []

/-- Absent, null or the text. -/
def isNullOr (text : Text) (value : Json) : Bool := isNull value || asStr value = some text

def mismatch : ApiError := .badRequest "Crossmint order identity or payer did not match"

/-- Read what Crossmint reports about a settled order. -/
def crossmintObservation (body : Json) (orderId owner : Text) (binding : Json) (nowMs : Nat) :
    Except ApiError (Text × OrderProof) := do
  let order := orderOf body
  ensure (orderIdOf order = some orderId ∧ asStr (field "orderId" binding) = some orderId ∧
    asStr (field "payerAddress" binding) = some owner) mismatch
  let payment := field "payment" order
  ensure (isNullOr owner (field "payerAddress" (field "preparation" payment))) mismatch
  ensure (isNullOr "solana".toList (field "method" payment)) mismatch
  let phase ← okOr (oneOf phases (field "phase" order)) (.badRequest "Unknown Crossmint order phase")
  let paymentStatus := (oneOf paymentStatuses (field "status" payment)).getD UNKNOWN
  let refunded := crossmintMoney (field "refunded" payment)
  let received := crossmintMoney (field "received" payment)
  let boundItems := asArray (field "items" binding)
  let lines := linesOf order
  let uncounted := lines = [] ∨ CROSSMINT_MAX_LINE_ITEMS < lines.length
  let seen := observeLines boundItems 0 (lines.take CROSSMINT_MAX_LINE_ITEMS)
    { anyUnknown := decide uncounted }
  -- Lines added or dropped since review cannot be called delivered.
  let altered := boundItems.map List.length ≠ some lines.length
  let anyUnknown := seen.anyUnknown || decide altered
  let allDelivered := seen.allDelivered && !decide altered
  let delivery :=
    if seen.anyFailed then DeliverySummary.failed
    else if anyUnknown then .unknown
    else if allDelivered then .delivered
    else .pending
  let fulfilled := paymentStatus = COMPLETED ∧ delivery = .delivered ∧ refunded = none
  .ok (phase,
    { orderId := orderId
      orderPhase := phase
      paymentStatus := paymentStatus
      delivery := delivery
      deliveries := seen.deliveries
      refunded := refunded
      received := received
      fulfilled := decide fulfilled
      reportedAtMs := nowMs })

/-! ## The row -/

inductive ConnectorKind where
  | x402
  | crossmint
  deriving DecidableEq, Repr

inductive X402PaymentStatus where
  | prepared
  | submitted
  | confirmed
  | verified
  | failed
  deriving DecidableEq, Repr

/-- A job row: its order, the reviewed binding, and what the last observation left. -/
structure X402PaymentRecord where
  connector : ConnectorKind
  connectorReference : Option Text
  challenge : Json
  status : X402PaymentStatus
  proof : Option OrderProof
  responseStatus : Option Nat
  error : Option String
  updatedAtMs : Nat

/-- Settled, so that order evidence may be recorded. -/
def X402PaymentStatus.isSettled (status : X402PaymentStatus) : Bool :=
  status = .confirmed || status = .verified

/-- The row that an observation would leave. -/
def persistCrossmintObservation (record : X402PaymentRecord) (phase : Text) (proof : OrderProof)
    (responseStatus : Nat) (error : Option String) (nowMs : Nat) :
    Except ApiError X402PaymentRecord := do
  ensure (100 ≤ responseStatus ∧ responseStatus ≤ 599)
    (.badRequest "response_status must be a valid HTTP status")
  ensure (record.connector = .crossmint)
    (.badRequest "that settlement is not a Crossmint order")
  ensure record.status.isSettled
    (.badRequest "a Crossmint order proof can only be recorded after confirmed settlement")
  .ok { record with
    proof := some { proof with orderPhase := phase }
    responseStatus := some responseStatus
    error := error
    status := if (200 ≤ responseStatus ∧ responseStatus < 300) ∧ proof.fulfilled then .verified
      else .confirmed
    updatedAtMs := nowMs }

/-- A failed delivery or a refund, which alone may clear a verification. -/
def reverses (record : X402PaymentRecord) : Bool :=
  record.proof.any fun proof => proof.delivery = .failed || proof.refunded.isSome

/-- The row after an update; none where nothing is written. -/
def putCrossmintProof (old record : X402PaymentRecord) : Option X402PaymentRecord :=
  if old.connector = .crossmint ∧ old.status.isSettled ∧ old.updatedAtMs ≤ record.updatedAtMs then
    some { old with
      proof := record.proof
      responseStatus := record.responseStatus
      error := record.error
      status := if old.status ≠ .verified ∨ reverses record then record.status else old.status
      updatedAtMs := record.updatedAtMs }
  else none

/-- A readback of the order, and the outcome of the payment notice that went with it. -/
structure Readback where
  body : Json
  error : Option String
  nowMs : Nat

/-- `record_crossmint_order_proof`: an observation of the owner's order is stored, unless it is
older than the row. -/
def recordCrossmintOrderProof (owner : Text) (job : X402PaymentRecord) (r : Readback) :
    Except ApiError X402PaymentRecord := do
  ensure (job.connector = .crossmint) (.badRequest "Not a Crossmint operation")
  let orderId ← okOr job.connectorReference .notFound
  let (phase, proof) ← crossmintObservation r.body orderId owner job.challenge r.nowMs
  let record ← persistCrossmintObservation job phase proof 200 r.error r.nowMs
  .ok ((putCrossmintProof job record).getD job)

end ChainPay.Crossmint
