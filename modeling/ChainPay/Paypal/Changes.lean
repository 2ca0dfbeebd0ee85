import ChainPay.Paypal.Task

/-!
Provider observations (`observations.rs`), processing (`ai.rs`) and the remaining closures of the
routes, and `Task.apply`, which runs any of them on a stored task. A change that claims a provider
call hands out the call; the route makes it after the transaction has committed.
-/

namespace ChainPay.Paypal
open ChainPay.Lib

/-! ## Observations -/

def text (value : Value) (key : String) : Except Error String :=
  okOr ((value.get key).bind Value.asStr) (.invalid "Incomplete provider observation")

/-- `amount`: the exact sum in US dollars. -/
def checkAmount (value : Value) (expected : Nat) : Except Error Unit := do
  let currency ← text value "currency_code"
  let paid ← if currency ≠ "USD" then .error .conflict else text value "value"
  ensure ((← parseCents paid) = expected) .conflict

/-- The refunds this task reserved do not explain the capture's status. -/
def unexplainedRefund (t : Task) (status : Option String) : Bool :=
  if status = some "PARTIALLY_REFUNDED" then t.reservedRefunds = 0
  else if status = some "REFUNDED" then t.reservedRefunds < t.amount
  else false

def REVIEW_PAYMENT : String :=
  "Provider reports a payment change outside this task's approved operations; merchant review " ++
    "required"

/-- The one capture of an order. -/
def observeCapture (t : Task) (capture : Value) : Except Error Task := do
  checkAmount (capture.index "amount") t.amount
  let captureId ← text capture "id"
  ensure (¬ t.captureId.any fun old => old ≠ captureId) .conflict
  let status := (capture.index "status").asStr
  let review := status = some "DECLINED" || status = some "FAILED" || status = some "DENIED" ||
    status = some "REVERSED" || unexplainedRefund t status
  let t := { t with
    captureId := some captureId
    paymentReview := if review then some REVIEW_PAYMENT else t.paymentReview }
  if (← text capture "status") = "COMPLETED" then
    return { t with captured := true, capture := t.capture.map (·.observe capture) }
  else return t

section

variable [Env]

/-- Which links lead to the approval, and the errors for one without an address, with a bad one or
with one elsewhere. -/
structure LinkRule where
  rels : List String
  missing : Error
  malformed : Error
  elsewhere : Error

/-- The approval link of an order or a subscription. -/
def approvalLink (rule : LinkRule) (link : Value) : Except Error (Option String) := do
  if (link.index "rel").asStr.any fun rel => rel ∈ rule.rels then do
    let href ← okOr (link.index "href").asStr rule.missing
    let url ← okOr (Env.parseUrl href) rule.malformed
    ensure (sandboxOrigin url) rule.elsewhere
    return some href
  else return none

/-- The last approval link of a list, after all were checked. -/
def approvalLinks (rule : LinkRule) : Option String → List Value → Except Error (Option String)
  | url, [] => .ok url
  | url, link :: links => do
    let found ← approvalLink rule link
    approvalLinks rule (found.or url) links

omit [Env] in
def ORDER_LINKS : LinkRule :=
  ⟨["payer-action", "approve"], .invalid "Incomplete provider observation", .conflict, .conflict⟩

/-- The one purchase unit of an order. -/
def purchaseUnit (value : Value) : Except Error Value :=
  match value.index "purchase_units" with
  | .arr [unit] => .ok unit
  | _ => .error .conflict

/-- The captures of an order: none yet, or one. -/
def observeCaptures (t : Task) (captures : Option (List Value)) : Except Error Task :=
  match captures with
  | none => .ok t
  | some [capture] => observeCapture t capture
  | some _ => .error .conflict

/-- `observations::order`. -/
def observeOrder (t : Task) (value : Value) : Except Error Task := do
  ensure t.subscriptionFunding.isNone .conflict
  let orderId ← text value "id"
  let op ← okOr t.order .conflict
  ensure (¬ t.orderId.any fun old => old ≠ orderId) .conflict
  let unit ← purchaseUnit value
  ensure ((← text unit "custom_id") = t.id) .conflict
  checkAmount (unit.index "amount") t.amount
  let links := (value.index "links").asArray.getD []
  let approvalUrl ← approvalLinks ORDER_LINKS t.approvalUrl links
  let t := { t with orderId := some orderId, approvalUrl }
  let t ← observeCaptures t ((unit.index "payments").index "captures").asArray
  return { t with order := some (op.observe value) }

end

/-- `observations::refund`. -/
def observeRefund (t : Task) (value : Value) : Except Error Task := do
  let op ← okOr t.refund .conflict
  checkAmount (value.index "amount") t.refundAmount
  let id ← text value "id"
  ensure (¬ (t.refunds.any fun r => r.providerId = some id) ∧ ¬ t.refundId.any fun old => old ≠ id)
    .conflict
  let status ← text value "status"
  let t := { t with refundId := some id }
  if status = "COMPLETED" then
    return { t with refundConfirmed := true, refund := some (op.observe value) }
  else return t

/-- `observations::ledger_refund`. -/
def observeLedgerRefund (t : Task) (index : Nat) (value : Value) : Except Error Task := do
  let id ← text value "id"
  ensure (¬ (t.refundId = some id ∨
    t.refunds.zipIdx.any fun (r, i) => i ≠ index && r.providerId = some id)) .conflict
  let r ← okOr t.refunds[index]? .conflict
  let op ← okOr r.operation .conflict
  ensure (¬ r.providerId.any fun old => old ≠ id) .conflict
  ensure (¬ (value.get "invoice_id").any fun key => key.asStr ≠ some op.key) .conflict
  checkAmount (value.index "amount") r.amount
  let status ← text value "status"
  let seen : Refund :=
    if status = "COMPLETED" then
      { r with providerId := some id, confirmed := true, operation := some (op.observe value) }
    else { r with providerId := some id, operation := some op.unknown }
  return { t with refunds := t.refunds.set index seen }

/-! ## Processing -/

/-- What the model made of a unit. -/
inductive Outcome where
  | delivered (output : Value) (outputHash : String)
  | invalidOutput (reason : String)
  | unavailable

namespace WorkUnit

/-- The unit is taken for processing: its last attempt is over or out of time. -/
def claimed (u : WorkUnit) (attempt : String) (started : Nat) : WorkUnit :=
  { u with state := .processing, startedAt := some started, attempt := some attempt, reason := none }

def free (u : WorkUnit) (started : Nat) : Bool :=
  !(u.state = .delivered || u.state = .failed) &&
    !(u.state = .processing && u.startedAt.any fun s => started - s < 180)

def finished (u : WorkUnit) : Outcome → WorkUnit
  | .delivered output outputHash =>
    { u with outputHash := some outputHash, result := some output, state := .delivered }
  | .invalidOutput reason => { u with state := .failed, reason := some reason }
  | .unavailable =>
    { u with
      state := .unknown
      reason := some "Processing unavailable; retry this same task without a new payment" }

end WorkUnit

namespace Task

/-- Taking unit `index` for processing. -/
def claim (t : Task) (index : Nat) (attempt : String) (started : Nat) : Except Error Task := do
  if !t.verifiedFunded then return t
  else do
  let u ← okOr t.units[index]? .panicked
  if (t.refund.isSome && u.history.isEmpty) || !u.free started then return t
  else return { t with units := t.units.set index (u.claimed attempt started) }

/-- The result of an attempt, unless another took over. -/
def outcome (t : Task) (index : Nat) (attempt : String) (result : Outcome) : Except Error Task := do
  let u ← okOr t.units[index]? .panicked
  if u.state ≠ .processing ∨ u.attempt ≠ some attempt then return t
  else return { t with units := t.units.set index (u.finished result) }

/-- The claim in the capture route. -/
def startCapture (t : Task) (p : Principal) (key : Option String) (now : Nat) :
    Except Error (Task × Option String) := do
  t.buyer p
  if t.capture.isSome then return (t, none)
  else do
  let status := (t.order.bind (·.observation)).bind fun v => (v.index "status").asStr
  ensure (status = some "APPROVED") (.invalid "PayPal buyer approval has not been observed")
  let op ← Operation.start key now
  return ({ t with capture := some op }, some op.key)

end Task

/-! ## All changes -/

/-- A call to the provider that moves money. -/
inductive Dispatch where
  | createOrder (task : String)
  | captureOrder (task : String)
  | refundCapture (task : String)
  | resolutionRefund (task : String) (index : Nat)
  deriving DecidableEq, Repr

/-- The closures that run under `Store::update`; `key` is the random key of a new operation. -/
inductive Change where
  | checkout (digest : String) (key : Option String)
  | capture (key : Option String)
  | approveRefund (digest : String) (key : Option String)
  | proposeResolutionRefund (id : String) (bindings : List Binding) (reason : String)
  | approveResolutionRefund (id digest : String) (key : Option String)
  | decide (intent : Intent)
  | rework (intent : Intent)
  | order (value : Value)
  | refund (value : Value)
  | ledgerRefund (index : Nat) (value : Value)
  | orderUnknown
  | captureUnknown
  | refundUnknown
  | ledgerUnknown (index : Nat)
  | review (message : String)
  | share (token : Option String)
  | unshare
  | process
  | claim (index : Nat) (attempt : String)
  | outcome (index : Nat) (attempt : String) (result : Outcome)

section

variable [Env]

/-- The closure of the checkout route. -/
def Task.checkout (t : Task) (p : Principal) (digest : String) (key : Option String) (now : Nat) :
    Except Error (Task × Option String) := do
  t.buyer p
  if !t.captured && t.order.isNone then
    ensure (← preflight t.offerVersion t.documents t.requirements) (.invalid
      ("Input preflight failed: every source needs at least 30 alphanumeric characters; check " ++
        "inputs before checkout"))
  t.startCheckout p digest key now

/-- A change and the provider call it claims. -/
def Task.apply (t : Task) (p : Principal) (now : Nat) :
    Change → Except Error (Task × Option Dispatch)
  | .checkout digest key => do
    let (t, key) ← t.checkout p digest key now
    return (t, key.map fun _ => .createOrder t.id)
  | .capture key => do
    let (t, key) ← t.startCapture p key now
    return (t, key.map fun _ => .captureOrder t.id)
  | .approveRefund digest key => do
    let (t, key) ← t.approveRefund p digest key now
    return (t, key.map fun _ => .refundCapture t.id)
  | .approveResolutionRefund id digest key => do
    let (t, index) ← t.approveResolutionRefund p id digest key now
    return (t, index.map (.resolutionRefund t.id))
  | .proposeResolutionRefund id bindings reason => do
    return (← t.proposeResolutionRefund p id bindings reason now, none)
  | .decide intent => do return (← t.decide p intent now, none)
  | .rework intent => do return (← t.rework p intent now, none)
  | .order value => do return (← observeOrder t value, none)
  | .refund value => do return (← observeRefund t value, none)
  | .ledgerRefund index value => do return (← observeLedgerRefund t index value, none)
  | .orderUnknown => do
    let op ← okOr t.order .panicked
    return ({ t with order := some op.unknown }, none)
  | .captureUnknown => do
    let op ← okOr t.capture .panicked
    return ({ t with capture := some op.unknown }, none)
  | .refundUnknown => do
    let op ← okOr t.refund .panicked
    return ({ t with refund := some op.unknown }, none)
  | .ledgerUnknown index => do
    let r ← okOr t.refunds[index]? .panicked
    let op ← okOr r.operation .panicked
    return ({ t with refunds := t.refunds.set index { r with operation := some op.unknown } }, none)
  | .review message => .ok ({ t with paymentReview := some message }, none)
  | .share token => do
    t.buyer p
    if t.shareToken.isSome then return (t, none)
    else do
    let token ← okOr token (.invalid "Secure randomness unavailable")
    return ({ t with shareToken := some token }, none)
  | .unshare => do
    t.buyer p
    return ({ t with shareToken := none }, none)
  | .process => .ok (t, none)
  | .claim index attempt => do return (← t.claim index attempt now, none)
  | .outcome index attempt result => do return (← t.outcome index attempt result, none)

end

end ChainPay.Paypal
