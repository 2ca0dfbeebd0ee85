import ChainPay.Paypal.Subscriptions
import ChainPay.Lib.Runs

/-!
The PayPal store: its tables and its transactions (`store.rs`, the `Store` part of
`subscriptions.rs` and the statements of the routes). A transaction is one step under its row locks;
one that fails leaves the tables as they were. The clock reads of a transaction are in its `now`, in
the order in which they are made.
-/

namespace ChainPay.Paypal
open ChainPay.Lib

structure TaskRow where
  requestId : String
  fingerprint : String
  task : Task

structure SubscriptionRow where
  requestId : String
  record : Subscription

structure DelegationRow where
  subscription : String
  record : Delegation

structure State where
  tasks : List TaskRow
  subscriptions : List SubscriptionRow
  delegations : List DelegationRow
  wallet : Wallet
  /-- The provider calls that a committed change claimed and its route has not made. -/
  outstanding : List Dispatch
  dispatched : List Dispatch

namespace State

def initial : State := ⟨[], [], [], ⟨[], []⟩, [], []⟩

/-! ## Tasks -/

/-- `UPDATE paypal_tasks SET record`. -/
def putTask (st : State) (t : Task) : State :=
  { st with tasks := updateWhere (fun r => r.task.id = t.id) (fun r => { r with task := t }) st.tasks }

/-- `Store::create`. -/
def createTask (st : State) (t : Task) (requestId fingerprint : String) : Except Error State := do
  Task.checkRequestId requestId
  match st.tasks.find? fun r => r.task.workspace = t.workspace && r.task.principal = t.principal &&
      r.requestId = requestId with
  | some r => do
    ensure (r.fingerprint = fingerprint) .conflict
    return st
  | none => do
    ensure (¬ st.tasks.any fun r => r.task.id = t.id) .storage
    return { st with tasks := st.tasks ++ [⟨requestId, fingerprint, t⟩] }

/-- `Store::update`: outcomes are accounted before the change and after it. -/
def update [Env] (st : State) (p : Principal) (id : String) (change : Change) (now : Nat → Nat) :
    Except Error State := do
  let row ← okOr (st.tasks.find? fun r => r.task.id = id && r.task.canRead p) .notFound
  let n := 3 * row.task.units.length
  let (t, wallet) ← accountAllowance row.task st.wallet now
  let (t, call) ← t.apply p (now n) change
  let (t, wallet) ← accountAllowance t wallet fun k => now (n + 1 + k)
  let st := { st with wallet, outstanding := st.outstanding ++ call.toList }
  return st.putTask t

/-- The route makes the call it claimed. -/
def dispatch (st : State) (call : Dispatch) : Except Error State := do
  ensure (call ∈ st.outstanding) .panicked
  return { st with
    outstanding := st.outstanding.erase call
    dispatched := st.dispatched ++ [call] }

/-! ## Subscriptions -/

/-- `Store::subscription`. -/
def subscription (st : State) (id : String) (p : Principal) : Except Error Subscription := do
  let row ← okOr (st.subscriptions.find? fun r => r.record.id = id &&
    r.record.workspace = p.workspace && (r.record.buyer = p.id || p.role = .merchant ||
      (p.role = .agent && st.delegations.any fun d => d.subscription = id &&
        d.record.agent = p.id))) .notFound
  return row.record

/-- The row of a subscription, without a check of access. -/
def record (st : State) (id : String) : Except Error Subscription := do
  let row ← okOr (st.subscriptions.find? fun r => r.record.id = id) .storage
  return row.record

/-- `UPDATE paypal_subscriptions SET record`; a provider id is unique. -/
def putSubscription (st : State) (s : Subscription) : Except Error State := do
  ensure (¬ st.subscriptions.any fun r =>
    r.record.id ≠ s.id && s.providerId.isSome && r.record.providerId = s.providerId) .storage
  let subscriptions :=
    updateWhere (fun r => r.record.id = s.id) (fun r => { r with record := s }) st.subscriptions
  return { st with subscriptions }

/-- The insertion of a new subscription. -/
def subscribe (st : State) (p : Principal) (requestId planId : String) (id key : Option String)
    (now : Nat) : Except Error State := do
  ensure (p.role = .buyer) .forbidden
  ensure (16 ≤ requestId.utf8ByteSize ∧ requestId.utf8ByteSize ≤ 64) .conflict
  match st.subscriptions.find? fun r => r.record.workspace = p.workspace &&
      r.record.buyer = p.id && r.requestId = requestId with
  | some r => do
    ensure (r.record.planId = planId) .conflict
    return st
  | none => do
    let id ← okOr id (.invalid "Secure randomness unavailable")
    let create ← Operation.start key now
    ensure (¬ st.subscriptions.any fun r => r.record.id = id) .storage
    return { st with subscriptions := st.subscriptions ++ [⟨requestId,
      ⟨id, p.workspace, p.id, planId, create, none, none, none, "CREATE_PENDING", none, none, none,
        []⟩⟩] }

/-- An update of a subscription's operations alone. -/
def touch (st : State) (p : Subscription → Bool) (create : Operation → Operation)
    (cancel : Option Operation → Option Operation) : State :=
  let subscriptions := updateWhere (fun r => p r.record)
    (fun r => { r with record :=
      { r.record with create := create r.record.create, cancel := cancel r.record.cancel } })
    st.subscriptions
  { st with subscriptions }

/-- The provider did not answer the creation. -/
def createUnknown (st : State) (id : String) : State :=
  st.touch (fun s => s.id = id && s.create.state = .dispatching)
    (fun op => { op with state := .unknown }) fun op => op

/-- The claim in the cancel route. -/
def cancel (st : State) (p : Principal) (id terms reason : String) (key : Option String)
    (now : Nat) : Except Error State := do
  let s ← st.subscription id p
  ensure (p.role = .buyer ∧ s.buyer = p.id) .forbidden
  ensure (terms = "cancel:" ++ id ++ ":stop-renewal-keep-paid-access" ∧ reason ≠ "" ∧
    reason.length ≤ 128) .conflict
  ensure s.providerId.isSome (.invalid "Provider subscription unresolved")
  let op ← Operation.start key now
  let op := { op with observation := some (.obj [("reason", .str reason), ("terms", .str terms)]) }
  return st.touch (fun s => s.id = id && s.cancel.isNone) (fun op => op) fun _ => some op

/-- The provider's answer to the cancellation. -/
def cancelAnswered (st : State) (id : String) (ok : Bool) : State :=
  let state : OperationState := if ok then .observed else .unknown
  st.touch (fun s => s.id = id) (fun op => op) fun op => op.map fun op => { op with state }

section

variable [Env]

/-- The periods of the schedule on record. -/
def schedulePeriods (s : Subscription) (periods : List Period) : Except Error (List Period) :=
  match s.anchor, s.observedNext with
  | some anchor, some next => recordPeriods s.id anchor next 1200 0 periods
  | _, _ => .ok periods

/-- `observe_subscription`. -/
def observeSubscription (st : State) (p : Principal) (id : String) (v : Value) :
    Except Error State := do
  let s ← st.subscription id p
  let s ← s.observe v
  let periods ← schedulePeriods s st.wallet.periods
  let wallet := { st.wallet with periods }
  let wallet := if s.paymentReview.isSome then wallet.block id else wallet
  { st with wallet }.putSubscription s

/-- `grant_payments`. -/
def grant (st : State) (id : String) (history : Value) (now : Nat → Nat) : Except Error State := do
  let current ← st.record id
  let pass ← grantPayments current st.wallet history now
  { st with wallet := pass.wallet }.putSubscription pass.current

omit [Env] in
/-- The latest paid period that a time lies in. -/
def currentPeriod (w : Wallet) (sid : String) (now : Int) : Option Period :=
  ((w.periods.filter fun π => π.subscription = sid && π.startAt ≤ now && now < π.endAt &&
    π.paymentId.isSome).insertionSort fun a b => b.startAt ≤ a.startAt).head?

omit [Env] in
/-- The delegation allows this task so many units. -/
def checkDelegation (st : State) (p : Principal) (t : Task) (sid : String) (start : Int)
    (units : Nat) (delegation : Option String) (now : Nat) : Except Error Unit :=
  match delegation with
  | none => ensure (p.role = .buyer) .forbidden
  | some did => do
    let d ← okOr (st.delegations.find? fun d => d.record.id = did && d.subscription = sid) .forbidden
    ensure (p.role = .agent ∧ d.record.agent = p.id ∧ ¬ d.record.revoked ∧
      now < d.record.expiresAt ∧ t.offerVersion ∈ d.record.services ∧ units ≤ d.record.taskLimit ∧
      st.wallet.spent did start + units ≤ d.record.periodLimit) .forbidden

/-- Units of the current period for a task that has no funding and no order. -/
def reserve (st : State) (p : Principal) (t : Task) (s : Subscription)
    (delegation : Option String) (now : Nat → Nat) : Except Error State := do
  ensure (t.order.isNone ∧ ¬ t.captured ∧ t.capture.isNone ∧ now 0 ≤ t.quoteExpiresAt) .conflict
  ensure (← preflight t.offerVersion t.documents t.requirements)
    (.invalid "Input preflight failed; no allowance allocated")
  let π ← okOr (currentPeriod st.wallet s.id (now 1))
    (.invalid "No verified paid allowance for the current service period")
  let units ← t.allowanceUnits
  let current ← st.record s.id
  ensure (¬ (π.blocked ∨ current.paymentReview.isSome ∨ π.remaining < units))
    (.invalid "Allowance unavailable; no automatic charge")
  st.checkDelegation p t s.id π.startAt units delegation (now 2)
  let wallet ← st.wallet.adjust s.id π.startAt fun π => { π with remaining := π.remaining - units }
  let (wallet, _) := wallet.post ⟨.reserve t.id, s.id, π.startAt, some t.id, delegation, .reserve,
    units, now 3⟩
  let paymentId ← okOr π.paymentId .storage
  let funding : Funding := ⟨s.id, s.buyer, π.startAt, π.endAt, paymentId, units, delegation⟩
  return { st with wallet }.putTask
    { t with subscriptionFunding := some funding, approvedAt := some (now 4) }

/-- `allocate`. -/
def allocate (st : State) (p : Principal) (id sid digest : String) (delegation : Option String)
    (now : Nat → Nat) : Except Error State := do
  ensure (p.role = .buyer ∨ p.role = .agent) .forbidden
  let s ← st.subscription sid p
  ensure (¬ ((p.role = .buyer ∧ s.buyer ≠ p.id) ∨ (p.role = .agent ∧ delegation.isNone))) .forbidden
  let row ← okOr (st.tasks.find? fun r => r.task.id = id && r.task.workspace = p.workspace &&
    r.task.principal = p.id) .notFound
  ensure (row.task.quoteDigest = digest) .conflict
  match row.task.subscriptionFunding with
  | some f => do
    ensure (f.subscriptionId = sid ∧ f.delegationId = delegation) .conflict
    return st
  | none => st.reserve p row.task s delegation now

omit [Env] in
/-- `subscription_view`, as far as it writes. -/
def view (st : State) (p : Principal) (id : String) (now : Nat → Nat) : Except Error State := do
  let _ ← st.subscription id p
  let wallet ← expireView id st.wallet now
  return { st with wallet }

omit [Env] in
/-- The transaction of `block_subscription`. -/
def block (st : State) (id reason : String) : State :=
  let subscriptions := updateWhere (fun r => r.record.id = id)
    (fun r => { r with record := { r.record with paymentReview := some reason } }) st.subscriptions
  { st with subscriptions, wallet := st.wallet.block id }

omit [Env] in
/-- The statement after it, on the tasks funded by the subscription. -/
def blockTasks (st : State) (id reason : String) : State :=
  let tasks := updateWhere (fun r => r.task.subscriptionFunding.any fun f => f.subscriptionId = id)
    (fun r => { r with task := { r.task with paymentReview := some reason } }) st.tasks
  { st with tasks }

/-! ## Delegations -/

/-- What the buyer approves for an agent. -/
structure Mandate where
  requestId : String
  agent : String
  services : List String
  taskLimit : Nat
  periodLimit : Nat
  expiresAt : Nat
  approve : Bool

def delegate (st : State) (p : Principal) (id : String) (m : Mandate) (now : Nat → Nat) :
    Except Error State := do
  let s ← st.subscription id p
  ensure (p.role = .buyer ∧ s.buyer = p.id) .forbidden
  ensure (16 ≤ m.requestId.utf8ByteSize ∧ m.requestId.utf8ByteSize ≤ 64 ∧
      (m.requestId.toList.all fun c => c.isAlphanum || c = '-') ∧ m.approve ∧
      m.agent ≠ "" ∧ m.agent.utf8ByteSize ≤ 80 ∧ m.agent ≠ p.id ∧ m.services ≠ [] ∧
      (m.services.all fun s => (getService s).isOk) ∧ m.taskLimit ≠ 0 ∧
      m.taskLimit ≤ m.periodLimit ∧ m.periodLimit ≤ 10 ∧ now 0 < m.expiresAt ∧
      m.expiresAt ≤ now 1 + 366 * 86400)
    (.invalid "Approve exact agent, services, task/cycle ceilings and expiry")
  let did := String.ofList ((Env.hash (.delegation p.workspace p.id id m.requestId)).toList.take 32)
  let d : Delegation := ⟨did, m.agent, m.services, m.taskLimit, m.periodLimit, m.expiresAt, false⟩
  match st.delegations.find? fun d => d.record.id = did with
  | some old => do
    ensure (old.subscription = id) .storage
    ensure ({ old.record with revoked := false } = d) .conflict
    return st
  | none => return { st with delegations := st.delegations ++ [⟨id, d⟩] }

omit [Env] in
def revoke (st : State) (p : Principal) (id did : String) : Except Error State := do
  let s ← st.subscription id p
  ensure (p.role = .buyer ∧ s.buyer = p.id) .forbidden
  let delegations := updateWhere (fun d => d.record.id = did && d.subscription = id)
    (fun d => { d with record := { d.record with revoked := true } }) st.delegations
  return { st with delegations }

end

end State

/-! ## Steps -/

inductive Op where
  | quote (p : Principal) (documents : List Document) (service : String)
      (requirements key : Option String) (requestId fingerprint : String) (now : Nat)
  | update (p : Principal) (id : String) (change : Change) (now : Nat → Nat)
  | dispatch (call : Dispatch)
  | subscribe (p : Principal) (requestId planId : String) (id key : Option String) (now : Nat)
  | createUnknown (id : String)
  | cancel (p : Principal) (id terms reason : String) (key : Option String) (now : Nat)
  | cancelAnswered (id : String) (ok : Bool)
  | observe (p : Principal) (id : String) (value : Value)
  | grant (id : String) (history : Value) (now : Nat → Nat)
  | allocate (p : Principal) (id sid digest : String) (delegation : Option String)
      (now : Nat → Nat)
  | view (p : Principal) (id : String) (now : Nat → Nat)
  | block (id reason : String)
  | blockTasks (id reason : String)
  | delegate (p : Principal) (id : String) (mandate : State.Mandate) (now : Nat → Nat)
  | revoke (p : Principal) (id did : String)

def step [Env] (st : State) : Op → Except Error State
  | .quote p documents service requirements key requestId fingerprint now => do
    let t ← quoteService p documents service requirements key now
    st.createTask t requestId fingerprint
  | .update p id change now => st.update p id change now
  | .dispatch call => st.dispatch call
  | .subscribe p requestId planId id key now => st.subscribe p requestId planId id key now
  | .createUnknown id => .ok (st.createUnknown id)
  | .cancel p id terms reason key now => st.cancel p id terms reason key now
  | .cancelAnswered id ok => .ok (st.cancelAnswered id ok)
  | .observe p id value => st.observeSubscription p id value
  | .grant id history now => st.grant id history now
  | .allocate p id sid digest delegation now => st.allocate p id sid digest delegation now
  | .view p id now => st.view p id now
  | .block id reason => .ok (st.block id reason)
  | .blockTasks id reason => .ok (st.blockTasks id reason)
  | .delegate p id mandate now => st.delegate p id mandate now
  | .revoke p id did => st.revoke p id did

end ChainPay.Paypal
