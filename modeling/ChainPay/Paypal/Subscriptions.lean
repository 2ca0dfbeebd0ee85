import ChainPay.Lib.Rows
import ChainPay.Paypal.Changes
import Mathlib.Data.List.Sort
import Mathlib.Algebra.Order.Ring.Int

/-!
Prepaid service access (`subscriptions.rs`): what a subscription's record learns from the provider,
which payments of a history are canonical, and how periods and the allowance ledger change when
payments are granted, units are reserved for a task, its outcomes are accounted and periods expire.
-/

namespace ChainPay.Paypal
open ChainPay.Lib

/-! ## Records -/

structure PaymentProof where
  amountCents : Nat
  currency : String
  time : Int
  subsecondNanos : Nat
  deriving DecidableEq, Repr

/-- `BTreeMap<String, α>`: sorted by key. -/
abbrev Sorted (α : Type) := List (String × α)

def Sorted.lookup {α : Type} (m : Sorted α) (k : String) : Option α :=
  (m.find? fun e => e.1 = k).map Prod.snd

def Sorted.insert {α : Type} (k : String) (v : α) : Sorted α → Sorted α
  | [] => [(k, v)]
  | e :: m =>
    if k = e.1 then (k, v) :: m
    else if k < e.1 then (k, v) :: e :: m
    else e :: Sorted.insert k v m

structure Subscription where
  id : String
  workspace : String
  buyer : String
  planId : String
  create : Operation
  cancel : Option Operation
  providerId : Option String
  approvalUrl : Option String
  status : String
  paymentReview : Option String
  anchor : Option Int
  observedNext : Option Int
  paymentProofs : Sorted PaymentProof

structure Delegation where
  id : String
  agent : String
  services : List String
  taskLimit : Nat
  periodLimit : Nat
  expiresAt : Nat
  revoked : Bool
  deriving DecidableEq, Repr

/-- A row of `paypal_subscription_periods`. -/
structure Period where
  subscription : String
  startAt : Int
  endAt : Int
  paymentId : Option String
  remaining : Int
  blocked : Bool
  deriving DecidableEq, Repr

/-- `entry_key`: the ids in it hold no colon. -/
inductive Key where
  | grant (payment : String)
  | reserve (task : String)
  | outcome (task : String) (output : Nat)
  | expiry (subscription : String) (start : Int)
  | expiryRestore (task : String) (output : Nat)
  deriving DecidableEq, Repr

inductive Kind where
  | grant
  | reserve
  | consume
  | restore
  | expiry
  deriving DecidableEq, Repr

/-- A row of `paypal_allowance_ledger`. -/
structure Entry where
  key : Key
  subscription : String
  periodStart : Int
  task : Option String
  delegation : Option String
  kind : Kind
  units : Int
  createdAt : Nat
  deriving DecidableEq, Repr

/-- The two tables of the allowance. -/
structure Wallet where
  periods : List Period
  ledger : List Entry
  deriving DecidableEq, Repr

section

variable [Env]

/-! ## Provider histories -/

def epoch (v : Value) : Option Int := (v.asStr.bind Env.instant).map Prod.fst

omit [Env] in
/-- Forty US dollars, the price of the plan. -/
def atPrice (p : Value) : Bool :=
  let amount := (p.index "amount_with_breakdown").index "gross_amount"
  (amount.index "currency_code").isStr "USD" && money (amount.index "value") = some 4000

omit [Env] in
def completed (p : Value) : Bool := (p.index "status").isStr "COMPLETED"

omit [Env] in
def returned (p : Value) : Bool :=
  (p.index "status").asStr.any fun s => s ∈ ["REFUNDED", "PARTIALLY_REFUNDED", "REVERSED"]

omit [Env] in
/-- A payment's reference. -/
def paymentRef (p : Value) : Option String := (p.index "id").asStr.filter fun s => s ≠ ""

def paymentProof (p : Value) : Except Error PaymentProof := do
  ensure (completed p ∧ atPrice p) (.invalid "Contrary subscription payment status or amount")
  let raw ← okOr (p.index "time").asStr (.invalid "Payment time missing")
  let instant ← okOr (Env.instant raw) (.invalid "Payment time invalid")
  return ⟨4000, "USD", instant.1, instant.2⟩

def HISTORY_RECORDS : Nat := 1200

omit [Env] in
def completeHistory (history : Value) : Bool :=
  ((history.index "transactions").asArray.any fun ps =>
    ps.length ≤ HISTORY_RECORDS && (history.index "total_items").asU64 = some ps.length) &&
    ((history.index "total_pages").asU64.any fun n => n ≤ 1) &&
    !((history.index "links").asArray.any fun ls => ls.any fun l => (l.index "rel").isStr "next")

/-- What a history has shown so far: proofs of the payments, and the status of each reference. -/
structure Shown where
  unique : Sorted (PaymentProof × Value)
  statuses : Sorted String

def Shown.payment (seen : Shown) (s : Subscription) (p : Value) : Except Error Shown := do
  let id ← okOr (paymentRef p) (.invalid "Payment reference missing")
  let status := (p.index "status").asStr.getD "UNKNOWN"
  ensure (¬ (seen.statuses.lookup id).any fun old => old ≠ status)
    (.invalid "Contradictory statuses for one payment ID")
  let statuses := seen.statuses.insert id status
  ensure (¬ (returned p ∨ ((s.paymentProofs.lookup id).isSome ∧ ¬ completed p)))
    (.invalid "Contrary payment status")
  if !completed p then return { seen with statuses }
  else do
  let proof ← paymentProof p
  ensure (¬ (((s.paymentProofs.lookup id).any fun old => old ≠ proof) ∨
      ((seen.unique.lookup id).any fun old => old.1 ≠ proof)))
    (.invalid "Contradictory payment proof")
  return ⟨seen.unique.insert id (proof, p), statuses⟩

/-- The periods from the `n`-th on whose first hour a payment falls into, none of them taken. -/
def matchPeriods (anchor time : Int) : Nat → Nat → List Int → Except Error (List Int)
  | 0, _, periods => .ok periods
  | fuel + 1, n, periods =>
    match Env.month anchor n with
    | none => .ok periods
    | some start =>
      if time < start then .ok periods
      else if time ≤ start + 3600 then do
        ensure (start ∉ periods) (.invalid "Multiple payment IDs match the same service period")
        matchPeriods anchor time fuel (n + 1) (start :: periods)
      else matchPeriods anchor time fuel (n + 1) periods

omit [Env] in
/-- Earlier payments first. -/
def PaymentProof.notAfter (p q : PaymentProof) : Prop :=
  p.time < q.time ∨ (p.time = q.time ∧ p.subsecondNanos ≤ q.subsecondNanos)

instance (p q : PaymentProof) : Decidable (p.notAfter q) := by
  unfold PaymentProof.notAfter
  infer_instance

def canonicalPayments (s : Subscription) (payments : List Value) : Except Error (List Value) := do
  let seen ← payments.foldlM (fun seen p => Shown.payment seen s p) ⟨[], []⟩
  let proofs := seen.unique.foldl (fun m e => Sorted.insert e.1 e.2.1 m) s.paymentProofs
  match s.anchor with
  | none => pure ()
  | some anchor => do
    let _ ← proofs.foldlM (fun periods e => matchPeriods anchor e.2.time 1200 0 periods) []
    pure ()
  let sorted := (seen.unique.map Prod.snd).insertionSort fun a b => a.1.notAfter b.1
  return sorted.map Prod.snd

/-! ## Observing the subscription -/

omit [Env] in
def SUBSCRIPTION_LINKS : LinkRule :=
  ⟨["approve"], .invalid "Invalid approval link", .invalid "Invalid approval link",
    .invalid "Unexpected approval origin"⟩

/-- The schedule the provider reports, if it fits the one on record. -/
def Subscription.schedule (s : Subscription) (start next : Int) : Subscription :=
  let anchor := s.anchor.getD start
  if anchor ≠ start ∨ ¬ (∃ n ∈ List.range 1200, Env.month anchor (n + 1) = some next) ∨
      (s.observedNext.any fun old => next < old) then
    { s with
      paymentReview := some "Contradictory subscription schedule; merchant review required" }
  else { s with anchor := some anchor, observedNext := some next }

omit [Env] in
/-- The provider reports the terms that were approved. -/
def Subscription.sameTerms (s : Subscription) (v : Value) : Bool :=
  (v.index "custom_id").isStr s.id && (v.index "plan_id").isStr s.planId &&
    !((v.get "plan").any fun x => !x.isNull) &&
    !(decide ((v.index "plan_overridden").asBool = some true)) &&
    !((v.index "quantity").asStr.any fun q => q ≠ "1")

/-- `Subscription::observe`. -/
def Subscription.observe (s : Subscription) (v : Value) : Except Error Subscription := do
  if !s.sameTerms v then
    return { s with paymentReview := some "Subscription terms differ from approved terms" }
  else do
  let id ← okOr ((v.index "id").asStr.filter fun x => x ≠ "")
    (.invalid "Provider subscription ID missing")
  ensure (¬ s.providerId.any fun old => old ≠ id) .conflict
  let status := (v.index "status").asStr.getD "UNKNOWN"
  let cancel :=
    if status = "CANCELLED" then
      s.cancel.map (·.observe (.obj [("status", .str "CANCELLED")]))
    else s.cancel
  let links := (v.index "links").asArray.getD []
  let approvalUrl ← approvalLinks SUBSCRIPTION_LINKS s.approvalUrl links
  let s := { s with providerId := some id, status, cancel, approvalUrl }
  let s := match epoch (v.index "start_time"),
      epoch ((v.index "billing_info").index "next_billing_time") with
    | some start, some next => s.schedule start next
    | _, _ => s
  return { s with create := s.create.observe v }

/-- The candidate periods from the `n`-th on that start before the next billing. -/
def recordPeriods (sid : String) (anchor next : Int) :
    Nat → Nat → List Period → Except Error (List Period)
  | 0, _, periods => .ok periods
  | fuel + 1, n, periods => do
    let start ← okOr (Env.month anchor n) (.invalid "Invalid calendar period")
    if next ≤ start then return periods
    else do
    let endAt ← okOr (Env.month anchor (n + 1)) (.invalid "Invalid calendar period")
    if periods.any fun π => π.subscription = sid && π.startAt = start then
      recordPeriods sid anchor next fuel (n + 1) periods
    else
      recordPeriods sid anchor next fuel (n + 1) (periods ++ [⟨sid, start, endAt, none, 0, false⟩])

/-! ## Periods and the ledger -/

namespace Wallet

omit [Env]

/-- `ledger`: an entry is added unless its key is there; the answer says whether it was. -/
def post (w : Wallet) (e : Entry) : Wallet × Bool :=
  if w.ledger.any fun old => old.key = e.key then (w, false)
  else ({ w with ledger := w.ledger ++ [e] }, true)

/-- An update of one period, within the column's CHECK. -/
def adjust (w : Wallet) (sid : String) (start : Int) (f : Period → Period) :
    Except Error Wallet := do
  let periods := updateWhere (fun π => π.subscription = sid && π.startAt = start) f w.periods
  ensure (∀ π ∈ periods, 0 ≤ π.remaining ∧ π.remaining ≤ 10) .storage
  return { w with periods }

def block (w : Wallet) (sid : String) : Wallet :=
  { w with periods :=
      updateWhere (fun π => π.subscription = sid) (fun π => { π with blocked := true }) w.periods }

/-- The units reserved under a delegation in a period. -/
def spent (w : Wallet) (delegation : String) (start : Int) : Int :=
  ((w.ledger.filter fun e => e.delegation = some delegation && e.periodStart = start &&
    e.kind = .reserve).map (·.units)).sum

end Wallet

/-! ## Grants -/

/-- The work of a grant pass after its savepoint. -/
structure Pass where
  current : Subscription
  wallet : Wallet

omit [Env] in
def Pass.review (w : Pass) (reason : String) : Pass :=
  { w with current := { w.current with paymentReview := some reason } }

/-- The grant of period `π` for a payment; `now` are the clock reads of this payment. -/
def Pass.grant (w : Pass) (π : Period) (id : String) (payment : Value) (now : Nat → Nat) :
    Except Error Pass := do
  let wallet ← w.wallet.adjust π.subscription π.startAt fun π =>
    { π with paymentId := some id, remaining := 10 }
  let proof ← paymentProof payment
  let current :=
    { w.current with paymentProofs := Sorted.insert id proof w.current.paymentProofs }
  let entry (key : Key) (kind : Kind) (stamp : Nat) : Entry :=
    ⟨key, π.subscription, π.startAt, none, none, kind, 10, stamp⟩
  let (wallet, _) := wallet.post (entry (.grant id) .grant (now 0))
  if π.endAt ≤ now 1 then do
    let (wallet, _) := wallet.post (entry (.expiry π.subscription π.startAt) .expiry (now 2))
    let wallet ← wallet.adjust π.subscription π.startAt fun π => { π with remaining := 0 }
    return ⟨current, wallet⟩
  else return ⟨current, wallet⟩

/-- The periods without a payment that started by then. -/
def Wallet.candidates (w : Wallet) (sid : String) (time : Int) : List Period :=
  w.periods.filter fun π => π.subscription = sid && π.paymentId.isNone && π.startAt ≤ time

/-- A completed payment that no period has: it must match one period, and alone. -/
def Pass.assign (w : Pass) (sid : String) (payments : List Value) (id : String) (payment : Value)
    (now : Nat → Nat) : Except Error (Pass × Bool) :=
  match epoch (payment.index "time"), w.current.anchor, atPrice payment with
  | some time, some _, true =>
    match w.wallet.candidates sid time with
    | [π] => do
      let count := (payments.filter fun p => completed p &&
        (epoch (p.index "time")).any fun t => π.startAt ≤ t && t ≤ π.startAt + 3600).length
      if π.startAt + 3600 < time then
        return (w.review "Late payment does not establish a unique on-time service period", true)
      else if count ≠ 1 then return (w.review "Multiple payments match a service period", true)
      else return (← w.grant π id payment now, false)
    | _ => .ok (w.review ("Payment has no unique recorded on-time service period; merchant " ++
        "review required"), true)
  | _, _, _ =>
    .ok (w.review "Payment amount or schedule evidence requires merchant review", true)

/-- One payment of the history; the answer says whether the pass ends here. -/
def Pass.payment (w : Pass) (sid : String) (payments : List Value) (payment : Value)
    (now : Nat → Nat) : Except Error (Pass × Bool) :=
  match paymentRef payment with
  | none => .ok (w.review "Payment reference missing", true)
  | some id =>
    if returned payment then
      .ok (w.review "Subscription payment refunded or reversed; merchant billing review required",
        true)
    else if !completed payment then .ok (w, false)
    else
      match w.wallet.periods.find? fun π => π.paymentId = some id with
      | none => w.assign sid payments id payment now
      | some π =>
        if π.subscription ≠ sid then .ok (w.review "Payment reference conflicts", false)
        else do
          let proof ← paymentProof payment
          if w.current.paymentProofs.lookup id = some proof then return (w, false)
          else return (w.review "Payment reference conflicts", false)

/-- The loop over the payments from the `k`-th on. -/
def Pass.run (sid : String) (payments : List Value) (now : Nat → Nat) :
    Nat → List Value → Pass → Except Error Pass
  | _, [], w => .ok w
  | k, p :: ps, w => do
    let (w, ends) ← w.payment sid payments p fun j => now (3 * k + j)
    if ends then return w else Pass.run sid payments now (k + 1) ps w

/-- `grant_payments` on a subscription's record: the record and the tables it leaves. -/
def grantPayments (current : Subscription) (w : Wallet) (history : Value) (now : Nat → Nat) :
    Except Error Pass := do
  let transactions ← okOr (history.index "transactions").asArray
    (.invalid "Subscription transactions missing")
  let canonical := canonicalPayments current transactions
  let payments := match canonical with
    | .ok ps => ps
    | .error _ => []
  let opened : Pass := ⟨current, w⟩
  let opened :=
    if !completeHistory history || !canonical.isOk then
      opened.review "Incomplete or contradictory payment history; merchant review required"
    else opened
  let pass ← if opened.current.paymentReview.isNone then
      Pass.run current.id payments now 0 payments opened
    else .ok opened
  if pass.current.paymentReview.isSome then
    -- back to the savepoint: no grant of this pass stays
    return ⟨{ pass.current with paymentProofs := current.paymentProofs }, w.block current.id⟩
  else return pass

/-! ## Outcomes -/

omit [Env]

def FUNDING_REVIEW : String := "Subscription funding requires merchant billing review"

/-- One output in `account_allowance`. An output that was reworked was accounted before. -/
def accountUnit (t : Task) (f : Funding) (per : Nat) (endAt : Int) (now : Nat → Nat) (i : Nat)
    (u : WorkUnit) (w : Wallet) : Except Error Wallet :=
  let entry (key : Key) (kind : Kind) (stamp : Nat) : Entry :=
    ⟨key, f.subscriptionId, f.periodStart, some t.id, f.delegationId, kind, per, stamp⟩
  if !u.history.isEmpty then .ok w
  else
    match u.state with
    | .delivered => .ok (w.post (entry (.outcome t.id i) .consume (now 0))).1
    | .failed => do
      let (w, added) := w.post (entry (.outcome t.id i) .restore (now 0))
      if !added then return w
      else if (now 1 : Int) < endAt then
        w.adjust f.subscriptionId f.periodStart fun π =>
          { π with remaining := π.remaining + per }
      else return (w.post (entry (.expiryRestore t.id i) .expiry (now 2))).1
    | _ => .ok w

def accountUnits (t : Task) (f : Funding) (per : Nat) (endAt : Int) (now : Nat → Nat) :
    Nat → List WorkUnit → Wallet → Except Error Wallet
  | _, [], w => .ok w
  | i, u :: us, w => do
    let w ← accountUnit t f per endAt (fun j => now (3 * i + j)) i u w
    accountUnits t f per endAt now (i + 1) us w

/-- `account_allowance`, inside the task's transaction. -/
def accountAllowance (t : Task) (w : Wallet) (now : Nat → Nat) : Except Error (Task × Wallet) :=
  match t.subscriptionFunding with
  | none => .ok (t, w)
  | some f => do
    let π ← okOr (w.periods.find? fun π =>
      π.subscription = f.subscriptionId && π.startAt = f.periodStart) .storage
    let t := if π.blocked then { t with paymentReview := some FUNDING_REVIEW } else t
    let service ← getService t.offerVersion
    let w ← accountUnits t f service.allowanceUnitsPerOutput π.endAt now 0 t.units w
    return (t, w)

/-! ## Expiry -/

/-- The expired periods of a subscription, one after another. -/
def expirePeriods (sid : String) (now : Nat → Nat) :
    Nat → List Period → Wallet → Except Error Wallet
  | _, [], w => .ok w
  | k, π :: πs, w => do
    let (w, _) := w.post ⟨.expiry sid π.startAt, sid, π.startAt, none, none, .expiry, π.remaining,
      now k⟩
    let w ← w.adjust sid π.startAt fun π => { π with remaining := 0 }
    expirePeriods sid now (k + 1) πs w

/-- The transaction of `subscription_view`; the clock is read once for the query and once for each
entry. -/
def expireView (sid : String) (w : Wallet) (now : Nat → Nat) : Except Error Wallet :=
  expirePeriods sid now 1
    (w.periods.filter fun π => π.subscription = sid && π.endAt ≤ now 0 && 0 < π.remaining) w

end

end ChainPay.Paypal
