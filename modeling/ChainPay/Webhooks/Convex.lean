import ChainPay.Lib.Index
import ChainPay.Lib.Json
import ChainPay.Lib.Text
import ChainPay.Webhooks.Memory

/-!
The outbox over the Convex backend (`convex/webhooks.ts`). Tables are lists in the order of
creation, which is also how an index breaks ties. A call that fails its checks changes nothing.
-/

namespace ChainPay.Webhooks
open ChainPay.Lib

namespace Convex

/-! ## Arguments -/

/-- The length of a text in UTF-16 code units. -/
def utf16Length (s : String) : Nat := (s.toList.map fun c => if c.toNat < 0x10000 then 1 else 2).sum

def isIdChar (c : Char) : Bool :=
  ('A' ≤ c && c ≤ 'Z') || ('a' ≤ c && c ≤ 'z') || ('0' ≤ c && c ≤ '9') || c = '_' || c = '-'

/-- `/^[A-Za-z0-9_-]{1,120}$/`. -/
def isId (s : String) : Bool := s.toList.all isIdChar && 1 ≤ s.length && s.length ≤ 120

/-- An argument that passes its check. -/
def check {α : Type} (p : α → Bool) (v : α) : Except Unit α := if p v then .ok v else .error ()

def id (s : String) : Except Unit String := check isId s

def string (s : String) : Except Unit String := check (fun s => s ≠ "") s

def MAX_SAFE : Nat := 2 ^ 53 - 1

def safeNumber (n : Nat) : Except Unit Nat := check (fun n => n ≤ MAX_SAFE) n

/-- The text of an unsigned 64-bit number, padded so that texts sort as numbers. -/
def sorted (n : Nat) : Except Unit Nat := check (fun n => n < 2 ^ 64) n

def wallet (owner : String) : Except Unit String := do
  let s := String.ofList (jsTrim (← string owner).toList)
  check (fun s => utf16Length s ≤ 64) s

def validEvent (e : Event) : Except Unit Event := do
  let body ← string e.body
  let body ← check (fun b => utf16Length b ≤ 16384) body
  let body ← check (fun b => (jsonParse b.toList).isSome) body
  let version ← safeNumber e.version
  let version ← check (fun v => 1 ≤ v) version
  return {
    eventId := ← id e.eventId
    ownerWallet := ← wallet e.ownerWallet
    eventType := ← string e.eventType
    version := version
    receiptAddress := ← string e.receiptAddress
    body := body
    occurredAtMs := ← safeNumber e.occurredAtMs
    createdAtMs := ← safeNumber e.createdAtMs }

/-- The text that the relay sends for events. -/
def eventsJson (events : List Event) : String :=
  let text (s : String) := quoteText s.toList
  String.ofList (arrayText (events.map fun e => objectText
    [("event_id".toList, text e.eventId), ("owner_wallet".toList, text e.ownerWallet),
      ("event_type".toList, text e.eventType), ("version".toList, decimal e.version),
      ("receipt_address".toList, text e.receiptAddress), ("body".toList, text e.body),
      ("occurred_at_ms".toList, decimal e.occurredAtMs),
      ("created_at_ms".toList, decimal e.createdAtMs)]))

def parseEvents (events : List Event) : Except Unit (List Event) := do
  let _ ← check (fun t => utf16Length t ≤ 400000) (eventsJson events)
  let events ← check (fun es => es.length ≤ 50) events
  events.mapM validEvent

def ENVELOPE_KEYS : List (List Char) :=
  ["alg", "ct", "iv", "kid", "v"].map String.toList

/-- `B64`, `/^[A-Za-z0-9+/]+={0,2}$/`. -/
def isBase64Text (s : List Char) : Bool :=
  let rest := s.dropWhile fun c => c ∈ base64Alphabet
  rest.length < s.length && rest.length ≤ 2 && rest.all fun c => c = '='

/-- The member is a text that passes. -/
def hasText (p : List Char → Bool) : Option Json → Bool
  | some (.str s) => p s
  | _ => false

/-- `String(value) === "1"`: the list of one value is written as that value. -/
def isOneText : Json → Bool
  | .num (some q) => decide (q = 1)
  | .str s => decide (s = ['1'])
  | .arr [v] => isOneText v
  | _ => false

/-- The member is the number one, or an object that is written as one. -/
def isOne : Option Json → Bool
  | some (.num (some q)) => decide (q = 1)
  | some (.arr [v]) => isOneText v
  | _ => false

local instance lawfulText : LawfulBEq (List Char) := inferInstance

/-- An AES-GCM envelope sealed by the relay. -/
def isEnvelope : Json → Bool
  | .obj members =>
    let get key := (Json.obj members).get key
    let keys := (members.map Prod.fst).eraseDups
    keys.length = ENVELOPE_KEYS.length && ENVELOPE_KEYS.all (· ∈ keys) && isOne (get "v".toList) &&
      hasText (fun s => s = "A256GCM".toList) (get "alg".toList) &&
      hasText (fun s => s.all isIdChar && 1 ≤ s.length && s.length ≤ 32) (get "kid".toList) &&
      hasText (fun s => s.length = 16 && isBase64Text s) (get "iv".toList) &&
      hasText (fun s => 24 ≤ s.length && s.length ≤ 400000 && isBase64Text s) (get "ct".toList)
  | _ => false

/-- A whole number within the safe range. -/
def isSafeNumber : Json → Bool
  | .num (some q) => q.den = 1 && 0 ≤ q.num && q.num ≤ MAX_SAFE
  | _ => false

def isSecretEntry (entry : Json) : Bool :=
  ((entry.get "envelope".toList).any isEnvelope) &&
    ((entry.get "created_at_ms".toList).any isSafeNumber) &&
    (match entry.get "expires_at_ms".toList with
      | some .null => true
      | some v => isSafeNumber v
      | none => false)

/-- One or two sealed secrets, and no plain one. -/
def isSecretSet (text : String) : Bool :=
  (match jsonParse text.toList with
    | some (.arr entries) => 1 ≤ entries.length && entries.length ≤ 2 && entries.all isSecretEntry
    | _ => false) &&
  !(text.toList.tails.any fun rest => "whsec_".toList.isPrefixOf rest)

def validSecrets (text : String) : Except Unit String := check isSecretSet text

variable (s : Store)

/-! ## Operations -/

/-- The endpoints that existed when an event happened. -/
def receivers (e : Event) : List Subscription :=
  ((byIndex (·.createdAtMs) ((s.owned e.ownerWallet).filter fun x =>
    x.createdAtMs ≤ e.occurredAtMs)).take 100).filter fun x => x.status = .active

def emitEvent (e : Event) : Store × Bool :=
  if s.duplicate e then (s, false)
  else
    let ids := (receivers s e).map (·.subscriptionId)
    ({ s with events := s.events ++ [e], deliveries := ids.foldl (Store.addDelivery e) s.deliveries },
      true)

def emitEvents : List Event → Store → Store × Nat
  | [], s => (s, 0)
  | e :: es, s =>
    let (s, new) := emitEvent s e
    let (s, n) := emitEvents es s
    (s, n + if new then 1 else 0)

/-- The label of an endpoint, if it has one. -/
def label : Option String → Except Unit (Option String)
  | none => .ok none
  | some d => do
    let d ← string d
    let d ← check (fun d => d.length ≤ 80) d
    return some d

/-- `create_webhook_subscription`. -/
def createSubscription (x : Subscription) (maxActive maxRows : Nat) :
    Except Unit (Store × Bool) := do
  let ownerWallet ← wallet x.ownerWallet
  let url ← string x.url
  let url ← check (fun u => "https://".toList.isPrefixOf u.toList && utf16Length u ≤ 2048) url
  let description ← label x.description
  let status ← check (fun st => decide (st = .active)) x.status
  let row : Subscription :=
    { subscriptionId := ← id x.subscriptionId
      ownerWallet, url, description, status
      secrets := ← validSecrets x.secrets
      createdAtMs := ← safeNumber x.createdAtMs
      updatedAtMs := ← safeNumber x.updatedAtMs }
  let maxActive ← safeNumber maxActive
  let maxRows ← safeNumber maxRows
  let owned := (byIndex (·.createdAtMs) (s.owned ownerWallet)).take (maxRows + 1)
  if maxRows ≤ owned.length ∨ maxActive ≤ (owned.filter fun o => o.status = .active).length then
    return (s, false)
  else if (s.subscription row.subscriptionId).isSome then return (s, false)
  else return ({ s with subscriptions := s.subscriptions ++ [row] }, true)

def listSubscriptions (owner : String) : List Subscription :=
  (byIndexDesc (·.createdAtMs) (s.owned owner)).take 100

/-- Closes the first thousand rows of a subscription in a state. -/
def closeQueued (id : String) (now : Nat) (ds : List Delivery) (state : DeliveryState) :
    List Delivery :=
  let queued := (ds.filter fun d => d.subscriptionId = id && d.state = state).take 1000
  updateWhere (fun d => queued.any fun q => q.deliveryId = d.deliveryId)
    (fun d =>
      { d with
        state := .exhausted, lastError := some ENDPOINT_DISABLED, leaseToken := none
        leaseExpiresAtMs := none, updatedAtMs := now }) ds

/-- The subscription of an owner; another owner's reads like a missing one. -/
def ownSubscription (owner i : String) : Except Unit (Option Subscription) := do
  match s.subscription (← id i) with
  | none => return none
  | some x => return if x.ownerWallet = (← wallet owner) then some x else none

def disable (owner i : String) (now : Nat) : Except Unit (Store × Option Subscription) := do
  match ← ownSubscription s owner i with
  | none => return (s, none)
  | some x =>
    let now ← safeNumber now
    let subscriptions := updateWhere (fun y => y.subscriptionId = i)
      (fun y => Store.Subscription.disable y now) s.subscriptions
    let deliveries := [.pending, .retryScheduled].foldl (closeQueued i now) s.deliveries
    return ({ s with subscriptions, deliveries }, some (Store.Subscription.disable x now))

def rotateSecrets (owner i secrets : String) (now : Nat) :
    Except Unit (Store × Option Subscription) := do
  match ← ownSubscription s owner i with
  | none => return (s, none)
  | some x =>
    let now ← safeNumber now
    if x.status ≠ .active then return (s, none)
    else
      let secrets ← validSecrets secrets
      let subscriptions := updateWhere (fun y => y.subscriptionId = i)
        (fun y => { y with secrets, updatedAtMs := now }) s.subscriptions
      return ({ s with subscriptions }, some { x with secrets, updatedAtMs := now })

/-- The due rows, at most `limit` of each state, in the order they are taken. -/
def chosen (now limit : Nat) : List Delivery :=
  let due (state : DeliveryState) := (byIndex (·.nextAttemptAtMs) (s.deliveries.filter fun d =>
    d.state = state && d.nextAttemptAtMs ≤ now)).take limit
  (([.pending, .retryScheduled, .delivering].flatMap due).insertionSort Delivery.Before).take limit

/-- What a claim does with one row. -/
def claimRow (token : String) (now leaseMs maxAttempts : Nat) (d : Delivery) :
    Delivery × Option ClaimedDelivery :=
  let close (reason : String) : Delivery :=
    { d with
      state := .exhausted, leaseToken := none, leaseExpiresAtMs := none, lastError := some reason
      updatedAtMs := now }
  match s.subscription d.subscriptionId, s.event d.eventId with
  | some x, some e =>
    match claimAction d (x.status = .active) maxAttempts with
    | .exhaust reason => (close reason, none)
    | .claim =>
      let d := d.applyClaim token now leaseMs
      (d, some ⟨d, e.body, x.url, x.secrets⟩)
  | _, _ => (close RECORD_MISSING, none)

def claim (now limit leaseMs : Nat) (token : String) (maxAttempts : Nat) :
    Store × List ClaimedDelivery :=
  let rows := chosen s now (Store.clamp 1 50 limit)
  let claimRow := claimRow s token now leaseMs maxAttempts
  let deliveries := updateWhere (fun d => rows.any fun r => r.deliveryId = d.deliveryId)
    (fun d => (claimRow d).1) s.deliveries
  ({ s with deliveries }, rows.filterMap fun d => (claimRow d).2)

/-- An HTTP status, if there is one. -/
def checkStatus (status : Option Nat) : Except Unit (Option Nat) :=
  check (fun st : Option Nat => st.all fun n => 100 ≤ n && n ≤ 599) status

/-- What an outcome says, after its checks. -/
def checkOutcome : DeliveryOutcome → Except Unit DeliveryOutcome
  | .delivered status => do
    let _ ← checkStatus (some status)
    return .delivered status
  | .retry status error next => do
    return .retry (← checkStatus status) (← string error) (← safeNumber next)
  | .exhausted status error => do
    return .exhausted (← checkStatus status) (← string error)

def complete (id token : String) (outcome : DeliveryOutcome) (now : Nat) :
    Except Unit (Store × Bool) := do
  match s.delivery id with
  | none => return (s, false)
  | some d =>
    if d.state ≠ .delivering then return (s, false)
    else
      let token ← string token
      if d.leaseToken ≠ some token then return (s, false)
      else
        let now ← safeNumber now
        let outcome ← checkOutcome outcome
        let deliveries := updateWhere (fun d => d.deliveryId = id)
          (fun d => d.applyOutcome outcome now) s.deliveries
        return ({ s with deliveries }, true)

def listDeliveries (owner id : String) (limit : Nat) : List Delivery :=
  ((byIndexDesc (·.createdAtMs) (s.deliveries.filter fun d => d.subscriptionId = id)).take
    (Store.clamp 1 100 limit)).filter fun d => d.ownerWallet = owner

def redeliver (owner i : String) (now : Nat) : Except Unit (Store × RedeliverResult) := do
  match s.delivery (← id i) with
  | none => return (s, .notFound)
  | some d =>
    if d.ownerWallet ≠ (← wallet owner) then return (s, .notFound)
    else if d.state = .pending ∨ d.state = .delivering then return (s, .inFlight)
    else if !s.active d.subscriptionId then return (s, .endpointDisabled)
    else
      let now ← safeNumber now
      let deliveries := updateWhere (fun d => d.deliveryId = i)
        (fun d => d.applyRedeliver now) s.deliveries
      return ({ s with deliveries }, .scheduled (d.applyRedeliver now))

/-- The loop of `confirmedPage`: at most `budget` rows are looked at, and rows older than the last
of the page end it. -/
def scan (limit : Nat) : Nat → Option Nat → List Record → List Record → List Record
  | 0, _, page, _ => page
  | _, _, page, [] => page
  | budget + 1, boundary, page, row :: rows =>
    if boundary.any fun b => row.updatedAtMs < b then page
    else if row.status ≠ .confirmed then scan limit budget boundary page rows
    else
      let page := page ++ [row]
      scan limit budget (if page.length = limit then some row.updatedAtMs else boundary) page rows

def confirmedPage (rows : List Record) (since before limit : Nat) : List Record :=
  scan (Store.clamp 1 200 limit) 5000 none []
    (byIndexDesc (·.updatedAtMs)
      (rows.filter fun r => since ≤ r.updatedAtMs && r.updatedAtMs < before))

/-- `webhookOperation`. Payments and transactions are put by other operations. -/
def call : Op → Except Unit (Store × Reply)
  | .createSubscription x maxActive => do
    let (s, b) ← createSubscription s x maxActive MAX_SUBSCRIPTION_ROWS_PER_OWNER
    return (s, .bool b)
  | .listSubscriptions owner => do
    return (s, .subscriptions (listSubscriptions s (← wallet owner)))
  | .getSubscription owner i => do
    return (s, .subscription (← ownSubscription s owner i))
  | .disable owner i now => do
    let (s, x) ← disable s owner i now
    return (s, .subscription x)
  | .rotateSecrets owner i secrets now => do
    let (s, x) ← rotateSecrets s owner i secrets now
    return (s, .subscription x)
  | .putPayment _ _ => .error ()
  | .putTransaction _ _ => .error ()
  | .emit events => do
    let (s, n) := emitEvents (← parseEvents events) s
    return (s, .count n)
  | .missingEvents ids => do
    let ids ← check (fun ids => ids.length ≤ 200) ids
    let ids ← ids.mapM id
    return (s, .ids (ids.filter fun i => (s.event i).isNone))
  | .getEvent i => do
    return (s, .event (s.event (← id i)))
  | .claim now limit leaseMs token maxAttempts => do
    let (s, ds) := claim s (← safeNumber now) (← safeNumber limit) (← safeNumber leaseMs)
      (← id token) (← safeNumber maxAttempts)
    return (s, .claimed ds)
  | .complete i token outcome now => do
    let (s, b) ← complete s (← id i) token outcome now
    return (s, .bool b)
  | .listDeliveries owner i limit => do
    return (s, .deliveries (listDeliveries s (← wallet owner) (← id i) (← safeNumber limit)))
  | .redeliver owner i now => do
    let (s, r) ← redeliver s owner i now
    return (s, .redelivered r)
  | .listConfirmedPayments since before limit => do
    return (s, .records (confirmedPage s.payments (← sorted since) (← sorted before)
      (← safeNumber limit)))
  | .listConfirmedTransactions since before limit => do
    return (s, .records (confirmedPage s.transactions (← sorted since) (← sorted before)
      (← safeNumber limit)))

end Convex

end ChainPay.Webhooks
