import ChainPay.Paypal.Values
import Mathlib.Algebra.Order.Ring.Int

/-!
A PayPal task (`domain.rs`, `resolution.rs`, `observations.rs` and the closures that `routes.rs` and
`ai.rs` run under `Store::update`). Every change is a function of the stored task; `Task.apply`
gathers them and says which provider call a change claims.
-/

namespace ChainPay.Paypal
open ChainPay.Lib

/-! ## Records -/

inductive Role where
  | buyer
  | merchant
  | agent
  deriving DecidableEq, Repr

structure Principal where
  id : String
  workspace : String
  role : Role
  deriving DecidableEq, Repr

inductive OperationState where
  | dispatching
  | observed
  | unknown
  deriving DecidableEq, Repr

structure Operation where
  key : String
  startedAt : Nat
  state : OperationState
  observation : Option Value

/-- `Operation::begin`, with the random key if there is one. -/
def Operation.start (key : Option String) (now : Nat) : Except Error Operation := do
  let key ← okOr key (.invalid "Secure randomness unavailable")
  return ⟨key, now, .dispatching, none⟩

def Operation.observe (op : Operation) (value : Value) : Operation :=
  { op with state := .observed, observation := some value }

def Operation.unknown (op : Operation) : Operation :=
  if op.state ≠ .observed then { op with state := .unknown } else op

inductive UnitState where
  | pending
  | processing
  | delivered
  | failed
  | unknown
  deriving DecidableEq, Repr

structure Revision where
  revision : Nat
  outputHash : Option String
  result : Option Value
  state : UnitState
  reason : Option String
  archivedAt : Nat

/-- One output of a task. -/
structure WorkUnit where
  revision : Nat
  attempt : Option String
  history : List Revision
  inputHash : String
  state : UnitState
  startedAt : Option Nat
  result : Option Value
  outputHash : Option String
  reason : Option String

instance : Inhabited WorkUnit := ⟨⟨0, none, [], "", .pending, none, none, none, none⟩⟩

inductive Action where
  | accept
  | challenge
  | rework
  | proposeRefund
  | approveRefund
  deriving DecidableEq, Repr

structure Intent where
  requestId : String
  binding : Binding
  action : Action
  reason : String
  deriving DecidableEq, Repr

structure Decision where
  actor : String
  role : Role
  timestamp : Nat
  intent : Intent
  deriving DecidableEq, Repr

/-- A refund of the ledger route: proposed, then approved, then observed. -/
structure Refund where
  requestId : String
  bindings : List Binding
  reason : String
  amount : Nat
  digest : String
  proposedBy : String
  proposedAt : Nat
  approvalRequestId : Option String
  operation : Option Operation
  providerId : Option String
  confirmed : Bool

structure Funding where
  subscriptionId : String
  buyer : String
  periodStart : Int
  periodEnd : Int
  paymentId : String
  units : Nat
  delegationId : Option String
  deriving DecidableEq, Repr

structure Task where
  resolution : List Decision
  refunds : List Refund
  legacyRefundUnits : Option (List Nat)
  id : String
  workspace : String
  principal : String
  createdAt : Nat
  offerVersion : String
  requirements : Option String
  documents : List Document
  units : List WorkUnit
  amount : Nat
  quoteDigest : String
  quoteExpiresAt : Nat
  approvedAt : Option Nat
  order : Option Operation
  orderId : Option String
  approvalUrl : Option String
  capture : Option Operation
  captureId : Option String
  captured : Bool
  subscriptionFunding : Option Funding
  paymentReview : Option String
  refund : Option Operation
  refundId : Option String
  refundAmount : Nat
  refundConfirmed : Bool
  shareToken : Option String

/-! ## Quotes and access -/

section

variable [Env]

/-- `Task::quote_service`. A comparison is one output over all its documents. -/
def quoteService (p : Principal) (documents : List Document) (serviceId : String)
    (requirements : Option String) (key : Option String) (now : Nat) : Except Error Task := do
  let service ← getService serviceId
  service.validate documents requirements
  ensure (p.role = .buyer ∨ p.role = .agent) .forbidden
  validateInputs documents
  let id ← okOr key (.invalid "Secure randomness unavailable")
  let amount := service.outputs documents.length * service.unitPrice
  let blank (inputHash : String) : WorkUnit := { (default : WorkUnit) with inputHash }
  let units :=
    if serviceId = COMPARE then
      [blank (Env.hash (.documents (documents.map fun d => (d.name, d.text))))]
    else documents.map fun d => blank (Env.hash (.text d.text))
  return {
    resolution := [], refunds := [], legacyRefundUnits := none, id, workspace := p.workspace,
    principal := p.id, createdAt := now, offerVersion := service.id, requirements, documents, units,
    amount,
    quoteDigest := Env.hash
      (.quote service.id requirements id (units.map (·.inputHash)) amount (now + 1800)),
    quoteExpiresAt := now + 1800, approvedAt := none, order := none, orderId := none,
    approvalUrl := none, capture := none, captureId := none, captured := false,
    subscriptionFunding := none, paymentReview := none, refund := none, refundId := none,
    refundAmount := 0, refundConfirmed := false, shareToken := none }

end

namespace Task

def outputPrice (t : Task) : Except Error Nat := do
  ensure (¬ (t.units.length = 0 ∨ t.amount = 0 ∨ t.amount % t.units.length ≠ 0))
    (.invalid "Historical output allocation requires review")
  return t.amount / t.units.length

def allowanceUnits (t : Task) : Except Error Nat := do
  return t.units.length * (← getService t.offerVersion).allowanceUnitsPerOutput

def verifiedFunded (t : Task) : Bool :=
  t.paymentReview.isNone && (t.subscriptionFunding.isSome || t.captured)

def canRead (t : Task) (p : Principal) : Bool :=
  t.workspace = p.workspace && (p.role = .merchant || t.principal = p.id ||
    (p.role = .buyer && t.subscriptionFunding.any fun f => f.buyer = p.id))

def buyer (t : Task) (p : Principal) : Except Error Unit :=
  ensure (p.role = .buyer ∧ t.canRead p) .forbidden

def merchant (t : Task) (p : Principal) : Except Error Unit :=
  ensure (p.role = .merchant ∧ t.canRead p) .forbidden

/-! ## Refund arithmetic -/

def confirmedRefunds (t : Task) : Nat :=
  (if t.refundConfirmed then t.refundAmount else 0) +
    ((t.refunds.filter (·.confirmed)).map (·.amount)).sum

def reservedRefunds (t : Task) : Nat :=
  (if t.refund.isSome || t.refundConfirmed then t.refundAmount else 0) +
    ((t.refunds.filter (·.operation.isSome)).map (·.amount)).sum

def net (t : Task) : Option Nat :=
  if t.paymentReview.isSome || !t.captured then none
  else if t.confirmedRefunds ≤ t.amount then some (t.amount - t.confirmedRefunds) else none

/-- The positions of the units with a property. -/
def unitsWhere (t : Task) (f : WorkUnit → Bool) : List Nat :=
  (t.units.zipIdx.filter fun (u, _) => f u).map Prod.snd

def preserveLegacyRefund (t : Task) : Except Error Task := do
  if (t.refund.isSome || t.refundConfirmed) && t.legacyRefundUnits.isNone then
    let failed := t.unitsWhere fun u => u.state = .failed && u.history.isEmpty
    ensure (failed.length * (← t.outputPrice) = t.refundAmount)
      (.invalid "Historical refund unit mapping requires merchant review")
    return { t with legacyRefundUnits := some failed }
  else return t

def refundedUnit (t : Task) (index : Nat) : Bool :=
  (t.legacyRefundUnits.any fun v => index ∈ v) ||
    t.refunds.any fun r => r.operation.isSome && r.bindings.any fun b => b.unit = index

/-! ## The single refund -/

section

variable [Env]

/-- `start_checkout`: the key of the order to create, once. -/
def startCheckout (t : Task) (p : Principal) (digest : String) (key : Option String) (now : Nat) :
    Except Error (Task × Option String) := do
  t.buyer p
  ensure t.subscriptionFunding.isNone .conflict
  ensure (digest = t.quoteDigest) .conflict
  if t.order.isSome then return (t, none)
  else do
  ensure (now ≤ t.quoteExpiresAt) (.invalid "Quote expired; no payment submitted")
  let op ← Operation.start key now
  return ({ t with approvedAt := some now, order := some op }, some op.key)

def refundProposal (t : Task) : Except Error (Nat × String) := do
  ensure (¬ (t.subscriptionFunding.isSome ∨ t.refunds ≠ [] ∨ t.paymentReview.isSome ∨
      ¬ t.captured ∨ t.captureId.isNone ∨
      ∃ u ∈ t.units, u.state = .pending ∨ u.state = .processing ∨ u.state = .unknown))
    (.invalid "Refund requires captured payment and resolved work outcomes")
  let failed := t.unitsWhere fun u => u.state = .failed
  let amount := failed.length * (← t.outputPrice)
  ensure (amount ≠ 0) (.invalid "No failed units to refund")
  return (amount, Env.hash (.refund t.id t.captureId
    (failed.map fun i => (i, (t.units.getD i default).inputHash)) amount))

def approveRefund (t : Task) (p : Principal) (digest : String) (key : Option String) (now : Nat) :
    Except Error (Task × Option String) := do
  t.merchant p
  let (amount, expected) ← t.refundProposal
  ensure (digest = expected) .conflict
  if t.refund.isSome then return (t, none)
  else do
  let op ← Operation.start key now
  return ({ t with
    legacyRefundUnits := some (t.unitsWhere fun u => u.state = .failed)
    refundAmount := amount
    refund := some op }, some op.key)

end

/-! ## Decisions -/

/-- `request_id`. -/
def checkRequestId (id : String) : Except Error Unit :=
  ensure (16 ≤ id.utf8ByteSize ∧ id.utf8ByteSize ≤ 64 ∧
      id.toList.all fun c => c.isAlphanum || c = '-')
    (.invalid "Use a stable request ID of 16–64 characters")

/-- `binding`: the decision is about the current version of the output. -/
def checkBinding (t : Task) (b : Binding) : Except Error WorkUnit := do
  let u ← okOr t.units[b.unit]? .conflict
  ensure (u.revision = b.revision ∧ u.outputHash = b.outputHash) .conflict
  return u

/-- Whether the request was already recorded. -/
def replay (t : Task) (p : Principal) (intent : Intent) : Except Error Bool := do
  checkRequestId intent.requestId
  ensure (¬ (isBlank intent.reason ∨ 2000 < intent.reason.utf8ByteSize))
    (.invalid "Supply a reason of 1–2000 bytes")
  match t.resolution.find? fun e => e.intent.requestId = intent.requestId with
  | some e =>
    ensure (e.actor = p.id ∧ e.role = p.role ∧ e.intent = intent) .conflict
    return true
  | none =>
    ensure (¬ t.refunds.any fun r =>
      r.requestId = intent.requestId || r.approvalRequestId = some intent.requestId) .conflict
    ensure (t.resolution.length < 512) (.invalid
      "Resolution decision limit reached; existing approvals and recovery remain available")
    return false

def append (t : Task) (p : Principal) (now : Nat) (intent : Intent) : Task :=
  { t with resolution := t.resolution ++ [⟨p.id, p.role, now, intent⟩] }

def decide (t : Task) (p : Principal) (intent : Intent) (now : Nat) : Except Error Task := do
  t.buyer p
  ensure (intent.action = .accept ∨ intent.action = .challenge) .forbidden
  if ← t.replay p intent then return t
  else do
  let u ← t.checkBinding intent.binding
  ensure (u.state = .delivered ∧ intent.binding.outputHash.isSome) .conflict
  return t.append p now intent

/-- The latest verdict on this version of the output is a challenge. -/
def challenged (t : Task) (b : Binding) : Bool :=
  (t.resolution.reverse.find? fun e => e.intent.binding = b &&
    (e.intent.action = .accept || e.intent.action = .challenge)).any fun e =>
      e.intent.action = .challenge

/-- Failed, or delivered and challenged. -/
def Disputed (t : Task) (u : WorkUnit) (b : Binding) : Prop :=
  u.state = .failed ∨ (u.state = .delivered ∧ t.challenged b)

instance (t : Task) (u : WorkUnit) (b : Binding) : Decidable (t.Disputed u b) := by
  unfold Disputed
  infer_instance

/-- `Action::Rework` on a unit: its version is archived and it starts again. -/
def WorkUnit.reworked (u : WorkUnit) (now : Nat) : WorkUnit where
  revision := u.revision + 1
  attempt := none
  history := u.history ++ [⟨u.revision, u.outputHash, u.result, u.state, u.reason, now⟩]
  inputHash := u.inputHash
  state := .pending
  startedAt := none
  result := none
  outputHash := none
  reason := none

def rework (t : Task) (p : Principal) (intent : Intent) (now : Nat) : Except Error Task := do
  t.merchant p
  ensure (intent.action = .rework) .forbidden
  if ← t.replay p intent then return t
  else do
  let u ← t.checkBinding intent.binding
  let t ← t.preserveLegacyRefund
  ensure (t.verifiedFunded ∧ ¬ t.refundedUnit intent.binding.unit) .conflict
  ensure (t.Disputed u intent.binding) .conflict
  ensure (u.revision + 1 < 2 ^ 32) .conflict
  let t := { t with units := t.units.set intent.binding.unit (WorkUnit.reworked u now) }
  return t.append p now intent

/-! ## The refund ledger -/

def validateRefundBindings (t : Task) (bindings : List Binding) : Except Error Unit := do
  ensure (¬ (t.subscriptionFunding.isSome ∨ ¬ t.captured ∨ t.captureId.isNone ∨
      t.paymentReview.isSome))
    (.invalid "Cash refund requires an original verified Orders capture")
  let rec go (seen : List Nat) : List Binding → Except Error Unit
    | [] => .ok ()
    | b :: bs => do
      let u ← t.checkBinding b
      ensure (b.unit ∉ seen ∧ ¬ t.refundedUnit b.unit) .conflict
      ensure (t.Disputed u b) .conflict
      go (b.unit :: seen) bs
  go [] bindings

def proposeResolutionRefund [Env] (t : Task) (p : Principal) (id : String)
    (bindings : List Binding) (reason : String) (now : Nat) : Except Error Task := do
  t.merchant p
  checkRequestId id
  match t.refunds.find? fun r => r.requestId = id with
  | some r =>
    ensure (r.proposedBy = p.id ∧ r.bindings = bindings ∧ r.reason = reason) .conflict
    return t
  | none =>
    ensure (¬ (t.resolution.any fun e => e.intent.requestId = id) ∧
      ¬ (t.refunds.any fun r => r.approvalRequestId = some id)) .conflict
    ensure (¬ (isBlank reason ∨ 2000 < reason.utf8ByteSize ∨ bindings = [] ∨
        t.units.length < bindings.length))
      (.invalid "Select affected outputs and supply a reason")
    ensure (¬ (128 ≤ t.refunds.length ∨ 512 < t.resolution.length + bindings.length)) (.invalid
      "Resolution proposal limit reached; existing approvals and recovery remain available")
    let t ← t.preserveLegacyRefund
    t.validateRefundBindings bindings
    let amount := (← t.outputPrice) * bindings.length
    ensure (amount < 2 ^ 64) .conflict
    let digest := Env.hash (.proposal t.id t.captureId id bindings reason amount)
    let t := bindings.foldl (fun t b => t.append p now ⟨id, b, .proposeRefund, reason⟩) t
    return { t with refunds := t.refunds ++
      [⟨id, bindings, reason, amount, digest, p.id, now, none, none, none, false⟩] }

/-- `approve_resolution_refund`: the position of the refund to dispatch, once. -/
def approveResolutionRefund (t : Task) (p : Principal) (id digest : String) (key : Option String)
    (now : Nat) : Except Error (Task × Option Nat) := do
  t.merchant p
  checkRequestId id
  let index ← okOr (t.refunds.findIdx? fun r => r.digest = digest) .conflict
  let r ← okOr t.refunds[index]? .panicked
  if r.operation.isSome then
    ensure (r.approvalRequestId = some id) .conflict
    return (t, none)
  else do
  ensure (¬ (t.resolution.any fun e => e.intent.requestId = id) ∧
    ¬ (t.refunds.any fun r => r.requestId = id || r.approvalRequestId = some id)) .conflict
  let t ← t.preserveLegacyRefund
  t.validateRefundBindings r.bindings
  ensure (t.reservedRefunds + r.amount < 2 ^ 64 ∧ t.reservedRefunds + r.amount ≤ t.amount)
    .conflict
  let op ← Operation.start key now
  let approved : Refund := { r with operation := some op, approvalRequestId := some id }
  let t := { t with refunds := t.refunds.set index approved }
  let t := r.bindings.foldl (fun t b => t.append p now ⟨id, b, .approveRefund, r.reason⟩) t
  return (t, some index)

end Task

end ChainPay.Paypal
