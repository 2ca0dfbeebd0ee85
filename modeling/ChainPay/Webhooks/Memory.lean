import ChainPay.Lib.Rows
import Mathlib.Data.List.Sort
import Mathlib.Data.String.Basic

/-!
The owner webhook outbox (`storage/webhooks.rs`) over the in-memory backend: subscriptions, events
and deliveries, the writes that emit events, and the leases under which dispatchers send. Each call
holds the store's lock, so it is one function of the store.
-/

namespace ChainPay.Webhooks
open ChainPay.Lib

/-! ## Rows -/

inductive SubscriptionStatus where
  | active
  | disabled
  deriving DecidableEq, Repr

structure Subscription where
  subscriptionId : String
  ownerWallet : String
  url : String
  description : Option String
  status : SubscriptionStatus
  /-- The sealed secrets, as JSON text. -/
  secrets : String
  createdAtMs : Nat
  updatedAtMs : Nat
  deriving DecidableEq, Repr

structure Event where
  eventId : String
  ownerWallet : String
  eventType : String
  version : Nat
  receiptAddress : String
  body : String
  occurredAtMs : Nat
  createdAtMs : Nat
  deriving DecidableEq, Repr

inductive DeliveryState where
  | pending
  | delivering
  | delivered
  | retryScheduled
  | exhausted
  deriving DecidableEq, Repr

structure Delivery where
  deliveryId : String
  eventId : String
  subscriptionId : String
  ownerWallet : String
  eventType : String
  receiptAddress : String
  state : DeliveryState
  attempts : Nat
  nextAttemptAtMs : Nat
  leaseToken : Option String
  leaseExpiresAtMs : Option Nat
  lastStatus : Option Nat
  lastError : Option String
  deliveredAtMs : Option Nat
  createdAtMs : Nat
  updatedAtMs : Nat
  deriving DecidableEq, Repr

structure ClaimedDelivery where
  delivery : Delivery
  eventBody : String
  url : String
  secrets : String
  deriving DecidableEq, Repr

inductive DeliveryOutcome where
  | delivered (status : Nat)
  | retry (status : Option Nat) (error : String) (nextAttemptAtMs : Nat)
  | exhausted (status : Option Nat) (error : String)
  deriving DecidableEq, Repr

inductive RedeliverResult where
  | scheduled (delivery : Delivery)
  | notFound
  | inFlight
  | endpointDisabled
  deriving DecidableEq, Repr

inductive PaymentStatus where
  | prepared
  | submitted
  | confirmed
  | failed
  deriving DecidableEq, Repr

/-- A payment or a batch transaction; `rest` are the columns the outbox does not read. -/
structure Record where
  id : String
  status : PaymentStatus
  receiptAddress : Option String
  updatedAtMs : Nat
  rest : String
  deriving DecidableEq, Repr

/-! ## One delivery -/

/-- What follows the first underscore of an id. -/
def tail (id : String) : String :=
  if '_' ∈ id.toList then String.ofList ((id.toList.dropWhile (· ≠ '_')).drop 1) else id

def deliveryId (eventId subscriptionId : String) : String :=
  "dlv_" ++ tail eventId ++ "_" ++ tail subscriptionId

def MAX_ERROR_CHARS : Nat := 200
def MAX_SUBSCRIPTION_ROWS_PER_OWNER : Nat := 25

def truncateError (error : String) : String := String.ofList (error.toList.take MAX_ERROR_CHARS)

def newDelivery (event : Event) (subscriptionId : String) (now : Nat) : Delivery where
  deliveryId := deliveryId event.eventId subscriptionId
  eventId := event.eventId
  subscriptionId := subscriptionId
  ownerWallet := event.ownerWallet
  eventType := event.eventType
  receiptAddress := event.receiptAddress
  state := .pending
  attempts := 0
  nextAttemptAtMs := now
  leaseToken := none
  leaseExpiresAtMs := none
  lastStatus := none
  lastError := none
  deliveredAtMs := none
  createdAtMs := now
  updatedAtMs := now

def ENDPOINT_DISABLED : String := "Endpoint disabled before delivery"
def ATTEMPT_LIMIT : String :=
  "Attempt limit reached; the last attempt's outcome was not recorded"
def RECORD_MISSING : String := "Event or endpoint record missing"

inductive ClaimAction where
  | claim
  | exhaust (reason : String)
  deriving DecidableEq, Repr

def claimAction (d : Delivery) (active : Bool) (maxAttempts : Nat) : ClaimAction :=
  if !active then .exhaust ENDPOINT_DISABLED
  else if maxAttempts ≤ d.attempts then .exhaust ATTEMPT_LIMIT
  else .claim

namespace Delivery

def applyClaim (d : Delivery) (token : String) (now leaseMs : Nat) : Delivery :=
  { d with
    state := .delivering
    attempts := d.attempts + 1
    leaseToken := some token
    leaseExpiresAtMs := some (now + leaseMs)
    -- a crashed holder's row becomes due again exactly when its lease ends
    nextAttemptAtMs := now + leaseMs
    updatedAtMs := now }

def applyExhaust (d : Delivery) (error : String) (now : Nat) : Delivery :=
  { d with
    state := .exhausted
    leaseToken := none
    leaseExpiresAtMs := none
    lastError := some (truncateError error)
    updatedAtMs := now }

def applyOutcome (d : Delivery) (outcome : DeliveryOutcome) (now : Nat) : Delivery :=
  let d := { d with leaseToken := none, leaseExpiresAtMs := none, updatedAtMs := now }
  match outcome with
  | .delivered status =>
    { d with
      state := .delivered
      lastStatus := some status
      lastError := none
      deliveredAtMs := some now }
  | .retry status error next =>
    { d with
      state := .retryScheduled
      lastStatus := status
      lastError := some (truncateError error)
      nextAttemptAtMs := next }
  | .exhausted status error =>
    { d with
      state := .exhausted
      lastStatus := status
      lastError := some (truncateError error) }

def applyRedeliver (d : Delivery) (now : Nat) : Delivery :=
  { d with
    state := .pending
    attempts := 0
    nextAttemptAtMs := now
    leaseToken := none
    leaseExpiresAtMs := none
    deliveredAtMs := none
    updatedAtMs := now }

/-- Pending, scheduled again or being sent. -/
def Open (d : Delivery) : Prop :=
  d.state = .pending ∨ d.state = .retryScheduled ∨ d.state = .delivering

instance (d : Delivery) : Decidable d.Open := by
  unfold Open
  infer_instance

def isDue (d : Delivery) (now : Nat) : Bool := decide d.Open && d.nextAttemptAtMs ≤ now

/-- Queued: pending or scheduled again. -/
def queued (d : Delivery) : Bool := d.state = .pending || d.state = .retryScheduled

/-- The order in which due rows are taken. -/
def Before (d e : Delivery) : Prop :=
  d.nextAttemptAtMs < e.nextAttemptAtMs ∨
    (d.nextAttemptAtMs = e.nextAttemptAtMs ∧ d.deliveryId ≤ e.deliveryId)

instance (d e : Delivery) : Decidable (d.Before e) := by
  unfold Before
  infer_instance

end Delivery

/-! ## The store -/

structure Store where
  subscriptions : List Subscription
  events : List Event
  deliveries : List Delivery
  payments : List Record
  transactions : List Record
  deriving DecidableEq

namespace Store

def empty : Store := ⟨[], [], [], [], []⟩

def subscription (s : Store) (id : String) : Option Subscription :=
  s.subscriptions.find? fun x => x.subscriptionId = id

def event (s : Store) (id : String) : Option Event := s.events.find? fun e => e.eventId = id

def delivery (s : Store) (id : String) : Option Delivery :=
  s.deliveries.find? fun d => d.deliveryId = id

def active (s : Store) (id : String) : Bool :=
  (s.subscription id).any fun x => x.status = .active

/-! ### Emission -/

/-- The event, or one for the same receipt, type and version, is there. -/
def duplicate (s : Store) (e : Event) : Bool :=
  (s.event e.eventId).isSome || s.events.any fun old =>
    old.receiptAddress = e.receiptAddress && old.eventType = e.eventType && old.version = e.version

/-- The subscriptions that receive an event. -/
def receivers (s : Store) (e : Event) : List Subscription :=
  s.subscriptions.filter fun x =>
    x.ownerWallet = e.ownerWallet && x.status = .active && x.createdAtMs ≤ e.occurredAtMs

/-- A delivery, unless its id is taken. -/
def addDelivery (e : Event) (ds : List Delivery) (subscriptionId : String) : List Delivery :=
  let d := newDelivery e subscriptionId e.createdAtMs
  if ds.any fun old => old.deliveryId = d.deliveryId then ds else ds ++ [d]

/-- `memory_emit`. -/
def emit (s : Store) (e : Event) : Store × Bool :=
  if s.duplicate e then (s, false)
  else
    ({ s with
        events := s.events ++ [e]
        deliveries := ((s.receivers e).map (·.subscriptionId)).foldl (addDelivery e) s.deliveries },
      true)

/-- The events that pass `p`, one after another, with the number of new ones. -/
def emitAll (p : Event → Bool) : List Event → Store → Store × Nat
  | [], s => (s, 0)
  | e :: es, s =>
    if p e then
      let (s, new) := s.emit e
      let (s, n) := emitAll p es s
      (s, n + if new then 1 else 0)
    else emitAll p es s

/-- A row that a write may not replace: terminal, or newer. -/
def kept (rows : List Record) (r : Record) : Bool :=
  (rows.find? fun old => old.id = r.id).any fun old =>
    old.status = .confirmed || old.status = .failed || r.updatedAtMs < old.updatedAtMs

def putRow (rows : List Record) (r : Record) : List Record :=
  if kept rows r then rows
  else if rows.any fun old => old.id = r.id then updateWhere (fun old => old.id = r.id) (fun _ => r) rows
  else rows ++ [r]

/-- `put_payment_with_events`. -/
def putPayment (s : Store) (r : Record) (events : List Event) : Store × Nat :=
  let payments := putRow s.payments r
  match payments.find? fun x => x.id = r.id with
  | none => ({ s with payments }, 0)
  | some stored =>
    emitAll (fun e => stored.status = .confirmed && stored.receiptAddress = some e.receiptAddress)
      events { s with payments }

/-- `put_transaction_with_events`. -/
def putTransaction (s : Store) (r : Record) (events : List Event) : Store × Nat :=
  let transactions := putRow s.transactions r
  let confirmed := (transactions.find? fun x => x.id = r.id).any fun x => x.status = .confirmed
  emitAll (fun _ => confirmed) events { s with transactions }

/-! ### Subscriptions -/

def owned (s : Store) (owner : String) : List Subscription :=
  s.subscriptions.filter fun x => x.ownerWallet = owner

def createSubscription (s : Store) (x : Subscription) (maxActive : Nat) : Store × Bool :=
  let mine := s.owned x.ownerWallet
  if maxActive ≤ (mine.filter fun y => y.status = .active).length ∨
      MAX_SUBSCRIPTION_ROWS_PER_OWNER ≤ mine.length ∨ (s.subscription x.subscriptionId).isSome then
    (s, false)
  else ({ s with subscriptions := s.subscriptions ++ [x] }, true)

/-- Newest first, then by id. -/
def NewestSubscription (x y : Subscription) : Prop :=
  y.createdAtMs < x.createdAtMs ∨
    (x.createdAtMs = y.createdAtMs ∧ x.subscriptionId ≤ y.subscriptionId)

instance (x y : Subscription) : Decidable (NewestSubscription x y) := by
  unfold NewestSubscription
  infer_instance

def listSubscriptions (s : Store) (owner : String) : List Subscription :=
  (s.owned owner).insertionSort NewestSubscription

def ownSubscription (s : Store) (owner id : String) : Option Subscription :=
  (s.subscription id).filter fun x => x.ownerWallet = owner

def Subscription.disable (x : Subscription) (now : Nat) : Subscription :=
  if x.status = .active then { x with status := .disabled, updatedAtMs := now } else x

/-- `disable_webhook_subscription`: its queued deliveries are closed. -/
def disable (s : Store) (owner id : String) (now : Nat) : Store × Option Subscription :=
  match s.ownSubscription owner id with
  | none => (s, none)
  | some x =>
    let subscriptions := updateWhere (fun y => y.subscriptionId = id)
      (fun y => Subscription.disable y now) s.subscriptions
    let deliveries := updateWhere (fun d => d.subscriptionId = id && d.queued)
      (fun d => d.applyExhaust ENDPOINT_DISABLED now) s.deliveries
    ({ s with subscriptions, deliveries }, some (Subscription.disable x now))

def rotateSecrets (s : Store) (owner id secrets : String) (now : Nat) :
    Store × Option Subscription :=
  match (s.ownSubscription owner id).filter fun x => x.status = .active with
  | none => (s, none)
  | some x =>
    let subscriptions := updateWhere (fun y => y.subscriptionId = id)
      (fun y => { y with secrets, updatedAtMs := now }) s.subscriptions
    ({ s with subscriptions }, some { x with secrets, updatedAtMs := now })

/-! ### Deliveries -/

def clamp (lo hi n : Nat) : Nat := max lo (min n hi)

/-- The rows a claim takes. -/
def chosen (s : Store) (now limit : Nat) : List Delivery :=
  ((s.deliveries.filter fun d => d.isDue now).insertionSort Delivery.Before).take limit

/-- What a claim does with one due row: the row, and what the dispatcher is handed. -/
def claimRow (s : Store) (token : String) (now leaseMs maxAttempts : Nat) (d : Delivery) :
    Delivery × Option ClaimedDelivery :=
  match claimAction d (s.active d.subscriptionId) maxAttempts, s.subscription d.subscriptionId,
      s.event d.eventId with
  | .claim, some x, some e =>
    let d := d.applyClaim token now leaseMs
    (d, some ⟨d, e.body, x.url, x.secrets⟩)
  | .exhaust reason, _, _ => (d.applyExhaust reason now, none)
  | .claim, _, _ => (d.applyExhaust RECORD_MISSING now, none)

/-- The rows of a claim, rewritten. -/
def claimRows (s : Store) (rows : List Delivery) (token : String) (now leaseMs maxAttempts : Nat) :
    Store × List ClaimedDelivery :=
  let claimRow := s.claimRow token now leaseMs maxAttempts
  let deliveries := updateWhere (fun d => rows.any fun r => r.deliveryId = d.deliveryId)
    (fun d => (claimRow d).1) s.deliveries
  ({ s with deliveries }, rows.filterMap fun d => (claimRow d).2)

/-- `claim_webhook_deliveries`. -/
def claim (s : Store) (now limit leaseMs : Nat) (token : String) (maxAttempts : Nat) :
    Store × List ClaimedDelivery :=
  s.claimRows (s.chosen now (clamp 1 50 limit)) token now leaseMs maxAttempts

/-- The row is leased under this token. -/
def heldBy (token : String) (d : Delivery) : Bool :=
  d.state = .delivering && d.leaseToken = some token

/-- `complete_webhook_delivery`. -/
def complete (s : Store) (id token : String) (outcome : DeliveryOutcome) (now : Nat) :
    Store × Bool :=
  match (s.delivery id).filter (heldBy token) with
  | none => (s, false)
  | some _ =>
    let deliveries := updateWhere (fun d => d.deliveryId = id)
      (fun d => d.applyOutcome outcome now) s.deliveries
    ({ s with deliveries }, true)

/-- Newest first, then by id, the larger one first. -/
def NewestDelivery (d e : Delivery) : Prop :=
  e.createdAtMs < d.createdAtMs ∨ (d.createdAtMs = e.createdAtMs ∧ e.deliveryId ≤ d.deliveryId)

instance (d e : Delivery) : Decidable (NewestDelivery d e) := by
  unfold NewestDelivery
  infer_instance

def listDeliveries (s : Store) (owner id : String) (limit : Nat) : List Delivery :=
  ((s.deliveries.filter fun d => d.ownerWallet = owner && d.subscriptionId = id).insertionSort
    NewestDelivery).take (clamp 1 100 limit)

/-- `redeliver_webhook`. -/
def redeliver (s : Store) (owner id : String) (now : Nat) : Store × RedeliverResult :=
  match (s.delivery id).filter fun d => d.ownerWallet = owner with
  | none => (s, .notFound)
  | some d =>
    if d.state = .pending ∨ d.state = .delivering then (s, .inFlight)
    else if !s.active d.subscriptionId then (s, .endpointDisabled)
    else
      let deliveries := updateWhere (fun d => d.deliveryId = id)
        (fun d => d.applyRedeliver now) s.deliveries
      ({ s with deliveries }, .scheduled (d.applyRedeliver now))

/-! ### Reconcile -/

/-- `page_with_ties`, newest first. -/
def pageWithTies (rows : List Record) (since before limit : Nat) : List Record :=
  let items := (rows.filter fun r => since ≤ r.updatedAtMs && r.updatedAtMs < before).insertionSort
    fun a b => b.updatedAtMs ≤ a.updatedAtMs
  match items[limit - 1]? with
  | none => items
  | some last => items.takeWhile fun r => last.updatedAtMs ≤ r.updatedAtMs

/-- `list_confirmed_payments` and `list_confirmed_transactions`. -/
def listConfirmed (rows : List Record) (since before limit : Nat) : List Record :=
  pageWithTies (rows.filter fun r => r.status = .confirmed) since before (clamp 1 200 limit)

end Store

/-! ## Calls -/

inductive Op where
  | createSubscription (x : Subscription) (maxActive : Nat)
  | listSubscriptions (owner : String)
  | getSubscription (owner id : String)
  | disable (owner id : String) (now : Nat)
  | rotateSecrets (owner id secrets : String) (now : Nat)
  | putPayment (r : Record) (events : List Event)
  | putTransaction (r : Record) (events : List Event)
  | emit (events : List Event)
  | missingEvents (ids : List String)
  | getEvent (id : String)
  | claim (now limit leaseMs : Nat) (token : String) (maxAttempts : Nat)
  | complete (id token : String) (outcome : DeliveryOutcome) (now : Nat)
  | listDeliveries (owner id : String) (limit : Nat)
  | redeliver (owner id : String) (now : Nat)
  | listConfirmedPayments (since before limit : Nat)
  | listConfirmedTransactions (since before limit : Nat)

inductive Reply where
  | bool (b : Bool)
  | count (n : Nat)
  | subscription (x : Option Subscription)
  | subscriptions (xs : List Subscription)
  | ids (ids : List String)
  | event (e : Option Event)
  | claimed (ds : List ClaimedDelivery)
  | deliveries (ds : List Delivery)
  | redelivered (r : RedeliverResult)
  | records (rs : List Record)
  deriving DecidableEq

/-- A call of the in-memory store. -/
def Store.call (s : Store) : Op → Store × Reply
  | .createSubscription x maxActive =>
    let (s, b) := s.createSubscription x maxActive
    (s, .bool b)
  | .listSubscriptions owner => (s, .subscriptions (s.listSubscriptions owner))
  | .getSubscription owner id => (s, .subscription (s.ownSubscription owner id))
  | .disable owner id now =>
    let (s, x) := s.disable owner id now
    (s, .subscription x)
  | .rotateSecrets owner id secrets now =>
    let (s, x) := s.rotateSecrets owner id secrets now
    (s, .subscription x)
  | .putPayment r events =>
    let (s, n) := s.putPayment r events
    (s, .count n)
  | .putTransaction r events =>
    let (s, n) := s.putTransaction r events
    (s, .count n)
  | .emit events =>
    let (s, n) := emitAll (fun _ => true) events s
    (s, .count n)
  | .missingEvents ids => (s, .ids (ids.filter fun id => (s.event id).isNone))
  | .getEvent id => (s, .event (s.event id))
  | .claim now limit leaseMs token maxAttempts =>
    let (s, ds) := s.claim now limit leaseMs token maxAttempts
    (s, .claimed ds)
  | .complete id token outcome now =>
    let (s, b) := s.complete id token outcome now
    (s, .bool b)
  | .listDeliveries owner id limit => (s, .deliveries (s.listDeliveries owner id limit))
  | .redeliver owner id now =>
    let (s, r) := s.redeliver owner id now
    (s, .redelivered r)
  | .listConfirmedPayments since before limit =>
    (s, .records (Store.listConfirmed s.payments since before limit))
  | .listConfirmedTransactions since before limit =>
    (s, .records (Store.listConfirmed s.transactions since before limit))

end ChainPay.Webhooks
