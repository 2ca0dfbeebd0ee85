import ChainPay.Backend.Close
import ChainPay.Backend.Events
import ChainPay.Card.Replay

/-!
One transaction of one card, as the backend works on it: any number of
`apply_transaction` passes (webhooks, retries, reconciliation) and closing sweeps, the
one ASA `decide`, and the rollup.

A `Stage` is where a pass waits: every constructor is one await, with the local variables
that are live there; `Pass.run` performs that call and goes on to the next await. A
submitted transaction is `sent` until it lands or is dropped, at any later time and
whether or not the sender still listens. Everything a run cannot know in advance comes
in as an `Answer`.
-/

namespace ChainPay.Backend
open ChainPay.Lib ChainPay.Card

/-! ## The rollup -/

inductive TxStatus where
  | sent
  | landed
  | refused (e : Err)
  | dropped
  deriving DecidableEq

/-- A submitted transaction. Its signature is its position. -/
structure Tx where
  /-- The issuer event it was sent for. -/
  event : Option Hash
  instr : Instr
  status : TxStatus

/-- What a sender hears of its transaction. -/
inductive Heard where
  | confirmed
  | programError (e : Err)
  | failed
  | unknown
  deriving DecidableEq

/-- What the surroundings answer at one await. -/
structure Answer where
  now : Nat
  /-- The call gets through: a read returns, a transaction is sent, its outcome heard. -/
  ok : Bool
  /-- The watched account is seen. -/
  seen : Bool
  fee : Option Nat
  deriving DecidableEq

/-! ## The authorization request -/

/-- An ASA request, with the checkout intent that was found for it. -/
structure Request where
  args : AuthorizeArgs
  usd : Bool
  cashCents : Nat
  /-- Whether the intent has verified another token; none without an intent. -/
  intent : Option Bool

structure Decision where
  state : TxnState
  reservedCents : Nat := 0
  capturedCents : Option Nat := none
  deriving DecidableEq

/-- What is decided before the rollup is asked. -/
def Request.early (req : Request) (attested : Bool) : Option Decision :=
  if req.usd = false ∨ 0 < req.cashCents then some ⟨.declined, 0, none⟩
  else if attested = false then some ⟨.declinedInternal, 0, none⟩
  else
    match req.intent with
    | none => some ⟨.declined, 0, none⟩
    | some verified =>
      if req.args.amountCents = 0 ∧ (req.args.singleMessage = true ∨ verified = true) then
        some ⟨.declined, 0, none⟩
      else none

/-- The decision a visible Reservation supports. -/
def reservationDecision (r : Reservation) (amount : Nat) (singleMessage : Bool) : Decision :=
  if singleMessage = false ∧ r.state = .reserved ∧ r.amountReservedCents = amount then
    ⟨.reserved, amount, none⟩
  else if singleMessage = true ∧ r.state = .captured ∧ r.capturedCents = amount then
    ⟨.captured, 0, some amount⟩
  else ⟨.ambiguous, 0, none⟩

/-- Where the one `decide` of the token waits. -/
inductive Asa where
  | start
  | createPending (req : Request)
  | evaluate (req : Request)
  | verify
  | watch (req : Request) (signature : Nat)
  | guardRead (req : Request)
  | observe (req : Request)
  | persistRead (d : Decision) (tries : Nat)
  | persistWrite (d : Decision) (tries : Nat) (row : Row Txn)
  | post (amount : Nat)
  | done (persisted : Bool)

/-! ## Passes -/

/-- The local variables of a pass over the events. -/
structure Scan where
  original : Txn
  record : Txn
  present : Bool
  closed : Bool
  applied : List Hash
  newly : List Hash := []
  postings : List (Hash × StepLabel × Nat) := []
  stop : Bool := false
  deriving DecidableEq

namespace Scan

/-- What a pass starts from. -/
def start (record : Txn) : Scan where
  original := record
  record := record
  present := hasReservation record
  closed := record.reservationClosed
  applied := record.appliedEventIds

def isOpen (s : Scan) : Bool := s.present && !s.closed

def mark (s : Scan) (id : Hash) : Scan := { s with newly := s.newly ++ [id] }

/-- Marks an event that nothing is sent for. -/
def leave (s : Scan) (id : Hash) : Scan :=
  { s with
    record := { s.record with unsent := s.record.unsent ++ [id] }
    newly := s.newly ++ [id] }

/-- The step is booked: a confirmation, or a duplicate of an earlier attempt. -/
def book (s : Scan) (id : Hash) (label : StepLabel) (amount : Nat) : Scan :=
  { s with
    record := applyLabel s.record label amount
    postings := s.postings ++ [(id, label, amount)]
    newly := s.newly ++ [id] }

def halt (s : Scan) : Scan := { s with stop := true }

/-- Remembers the signature of an unheard submission. -/
def await (s : Scan) (id : Hash) (p : PendingEvent) : Scan :=
  { s with
    record := { s.record with
      pendingEvents := (id, p) :: s.record.pendingEvents.filter fun q => !decide (q.1 = id) }
    stop := true }

def clear (s : Scan) (id : Hash) : Scan := { s with record := clearPending s.record id }

/-- The Reservation was found gone. -/
def shut (s : Scan) : Scan :=
  { s with
    closed := true
    record := { s.record with reservationClosed := true }
    stop := true }

def progressed (s : Scan) : Bool := !s.newly.isEmpty

/-- The pass has something to write. -/
def isDirty (s : Scan) : Bool :=
  s.progressed || decide (s.record.reservationClosed ≠ s.original.reservationClosed) ||
    decide (s.record.pendingEvents ≠ s.original.pendingEvents)

end Scan

/-- One update of the row, as its writer computes it from the latest copy. -/
inductive Edit where
  | merge (s : Scan)
  | resolve (state : TxnState) (seen approved : Bool) (money : Option Reservation)
      (single : Option Nat)
  | markClosed
  | notFinal (atMs : Nat)
  deriving DecidableEq

/-- The row after a decision was resolved from the rollup. -/
def resolveRow (state : TxnState) (seen approved : Bool) (money : Option Reservation)
    (record : Txn) : Txn :=
  { record with
    state := state
    hasReservation := seen
    unsolicited := if !seen && approved then true else record.unsolicited
    reservedCents := (money.map Reservation.amountReservedCents).getD record.reservedCents
    capturedCents := (money.map Reservation.capturedCents).getD record.capturedCents
    reversedCents := (money.map Reservation.reversedCents).getD record.reversedCents
    refundedCents := (money.map Reservation.refundedCents).getD record.refundedCents }

/-- `none` leaves the row as it is. -/
def Edit.apply (status : IssuerStatus) : Edit → Txn → Option Txn
  | .merge s, record =>
    some (Backend.merge s.original s.record (s.applied ++ s.newly) s.progressed status record)
  | .resolve state seen approved money _, record =>
    if record.state.isOpenDecision then some (resolveRow state seen approved money record) else none
  | .markClosed, record =>
    if record.reservationClosed then none else some { record with reservationClosed := true }
  | .notFinal atMs, record => some { record with closeNotFinalAtMs := some atMs }

inductive Stage where
  | read
  | create
  | resolvePolicy
  | resolveHold
  | voidSend (r : Reservation)
  | voidConfirm (signature : Nat) (single : Option Nat)
  | resolveMoney (state : TxnState) (seen : Bool) (single : Option Nat)
  | updateRead (e : Edit) (tries : Nat)
  | updateWrite (e : Edit) (tries : Nat) (row : Row Txn)
  | postSingle (amount : Nat)
  | reread
  | status (s : Scan) (e : IssuerEvent) (rest : List IssuerEvent) (instr : Instr)
      (label : StepLabel) (p : PendingEvent)
  | send (s : Scan) (e : IssuerEvent) (rest : List IssuerEvent) (instr : Instr) (label : StepLabel)
  | confirm (s : Scan) (e : IssuerEvent) (rest : List IssuerEvent) (label : StepLabel)
      (signature : Nat)
  | gone (s : Scan)
  | overHoldSend (s : Scan) (e : IssuerEvent) (rest : List IssuerEvent)
  | overHoldConfirm (s : Scan) (e : IssuerEvent) (rest : List IssuerEvent) (excess signature : Nat)
  | refresh (s : Scan)
  | post (s : Scan) (id : Hash) (label : StepLabel) (amount : Nat)
      (left : List (Hash × StepLabel × Nat))
  | close (s : Scan)
  | closeConfirm (signature : Nat)
  | closeGone
  | sweepRead
  | done

structure Pass where
  truth : Truth
  stage : Stage

def Pass.goto (p : Pass) (stage : Stage) : Pass := { p with stage := stage }

/-- Attempts of one update. -/
def UPDATE_TRIES : Nat := 6

def PENDING_EVENT_GRACE_MS : Nat := 120000

/-- Marks everything applied once every posting is stored. -/
def Scan.toUpdate (s : Scan) : Stage :=
  if s.isDirty then .updateRead (.merge s) UPDATE_TRIES else .close s

def Scan.toPost (s : Scan) : List (Hash × StepLabel × Nat) → Stage
  | [] => s.toUpdate
  | (id, label, amount) :: left => .post s id label amount left

/-- After the last event. -/
def Scan.finish (s : Scan) : Stage := if s.isOpen then .refresh s else s.toPost s.postings

/-- Goes over the events up to the next one that needs the program. -/
def Scan.advance (t : Token) (s : Scan) : List IssuerEvent → Stage
  | [] => s.finish
  | e :: rest =>
    if e.id ∈ s.applied then s.advance t rest
    -- declined issuer events move no money
    else if e.result = some false then (s.leave e.id).advance t rest
    else
      match route t s.present s.closed s.record e with
      | .skip => (s.leave e.id).advance t rest
      | .note _ => (s.leave e.id).advance t rest
      | .program instr label =>
        match s.record.pendingEvents.lookup e.id with
        | some p => .status s e rest instr label p
        | none => .send s e rest instr label

/-- Where an update goes on. -/
def Edit.after : Edit → Stage
  | .merge s => .close s
  | .resolve _ _ _ _ (some amount) => .postSingle amount
  | .resolve _ _ _ _ none => .reread
  | .markClosed => .done
  | .notFinal _ => .done

/-! ## One await -/

/-- Everything the passes, the request and the rollup share. -/
structure Desk where
  row : Option (Row Txn)
  postings : Table Hash (Row Posting)
  chain : State
  txs : List Tx
  /-- The instructions the program accepted, oldest first. -/
  history : List Instr
  asa : Asa

namespace Desk

def submit (d : Desk) (event : Option Hash) (instr : Instr) : Desk :=
  { d with txs := d.txs ++ [⟨event, instr, .sent⟩] }

def hear (d : Desk) (signature : Nat) (hears : Bool) : Heard :=
  if hears then
    match d.txs[signature]? with
    | some ⟨_, _, .landed⟩ => .confirmed
    | some ⟨_, _, .refused e⟩ => .programError e
    | some ⟨_, _, .dropped⟩ => .failed
    | _ => .unknown
  else .unknown

def hold (d : Desk) (t : Token) : Option Reservation := d.chain.reservations.lookup t.authId

/-- Books a posting, as `recordPosting` does. -/
def record (d : Desk) (id : Hash) (label : StepLabel) (amount : Nat) (a : Answer) : Desk :=
  { d with
    postings := (recordPosting id label amount a.fee a.now a.now ⟨none, ∅, d.postings⟩).postings }

/-- Stores an update computed from `row`; the flag tells whether it landed. -/
def write (d : Desk) (v : Txn) (row : Row Txn) (now : Nat) : Desk × Bool :=
  match cas d.row v (some row.rev) now with
  | (slot, .written _) => ({ d with row := slot }, true)
  | (_, .conflict _) => (d, false)

end Desk

/-- The money fields `record_exception(OVER_HOLD)` covers. -/
def overHoldExcess (s : Scan) (e : IssuerEvent) : Nat := eventAmount e - centsOf s.record.reservedCents

/-- An increase the policy refuses. -/
def refusesIncrease : Err → Bool
  | .policy .budgetExceeded | .policy .amountExceedsMax | .policy .cardFrozen
  | .policy .recoveryFrozen | .policy .policyExpired => true
  | _ => false

/-- What the outcome of an event's instruction leads to. -/
def Scan.settle (t : Token) (s : Scan) (e : IssuerEvent) (rest : List IssuerEvent)
    (label : StepLabel) (signature now : Nat) : Heard → Stage
  | .confirmed => (s.book e.id label (eventAmount e)).advance t rest
  | .programError err =>
    -- already applied by an earlier attempt
    if err = .policy .duplicateCapture ∨ err = .policy .duplicateEvent then
      (s.book e.id label (eventAmount e)).advance t rest
    -- closed by a concurrent pass: the retry routes the event without it
    else if err = .account ∧ s.isOpen = true then .gone s
    else if err = .policy .reservationClosed ∧ (label = .reverse ∨ label = .expire) then
      (s.mark e.id).advance t rest
    else if label = .adjust ∧ refusesIncrease err = true then .overHoldSend s e rest
    else (s.mark e.id).advance t rest
  | .failed => s.halt.finish
  | .unknown => (s.await e.id ⟨signature, now⟩).finish

/-- Performs the call a pass waits at. -/
def Pass.run (t : Token) (p : Pass) (a : Answer) (d : Desk) : Desk × Pass :=
  match p.stage with
  | .read =>
    match d.row with
    | none => (d, p.goto .create)
    | some row =>
      match row.value.state with
      | .pending => (d, p.goto .done)
      | .ambiguous => (d, p.goto .resolvePolicy)
      | _ => (d, p.goto .reread)
  | .create =>
    match cas d.row (unsolicitedRow p.truth) none a.now with
    | (slot, .written _) => ({ d with row := slot }, p.goto .reread)
    | (_, .conflict (some row)) =>
      match row.value.state with
      | .pending => (d, p.goto .done)
      | .ambiguous => (d, p.goto .resolvePolicy)
      | _ => (d, p.goto .reread)
    | (_, .conflict none) => (d, p.goto .done)
  | .resolvePolicy => (d, p.goto (if a.ok then .resolveHold else .done))
  | .resolveHold =>
    if a.ok then
      match d.hold t with
      | none =>
        (d, p.goto (.updateRead (.resolve .declined false (issuerApproved p.truth) none none)
          UPDATE_TRIES))
      | some r =>
        let single :=
          if r.flags &&& FLAG_SINGLE_MESSAGE ≠ 0 ∧ 0 < r.capturedCents then some r.capturedCents
          else none
        if issuerApproved p.truth then
          (d, p.goto (.resolveMoney (.ofReservation r.state) true single))
        else if r.amountReservedCents = 0 ∨ r.state = .reversed ∨ r.state = .expired then
          (d, p.goto (.resolveMoney .reversed true single))
        else (d, p.goto (.voidSend r))
    else (d, p.goto .done)
  | .voidSend r =>
    if a.ok then
      let instr := Instr.reverse t.authorizer t.authId r.amountReservedCents REVERSE_VOID t.voidId
      let single :=
        if r.flags &&& FLAG_SINGLE_MESSAGE ≠ 0 ∧ 0 < r.capturedCents then some r.capturedCents
        else none
      (d.submit none instr, p.goto (.voidConfirm d.txs.length single))
    else (d, p.goto .done)
  | .voidConfirm signature single =>
    match d.hear signature a.ok with
    | .confirmed => (d, p.goto (.resolveMoney .reversed true single))
    | .programError e =>
      if e = .policy .duplicateEvent ∨ e = .policy .reservationClosed then
        (d, p.goto (.resolveMoney .reversed true single))
      else (d, p.goto .done)
    | _ => (d, p.goto .done)
  | .resolveMoney state seen single =>
    let money := if a.ok then d.hold t else none
    (d, p.goto (.updateRead (.resolve state seen (issuerApproved p.truth) money single)
      UPDATE_TRIES))
  | .updateRead _ 0 => (d, p.goto .done)
  | .updateRead e (tries + 1) =>
    match d.row with
    | none => (d, p.goto e.after)
    | some row => (d, p.goto (.updateWrite e tries row))
  | .updateWrite e tries row =>
    match e.apply p.truth.status row.value with
    | none => (d, p.goto e.after)
    | some v =>
      match d.write v row a.now with
      | (d, true) => (d, p.goto e.after)
      | (d, false) => (d, p.goto (.updateRead e tries))
  | .postSingle amount =>
    if a.ok then (d.record t.authId .singleMessage amount a, p.goto .reread)
    else (d, p.goto .reread)
  | .reread =>
    match d.row with
    | none => (d, p.goto .done)
    | some row => (d, p.goto ((Scan.start row.value).advance t (sortedEvents p.truth)))
  | .status s e rest instr label pending =>
    match d.hear pending.signature a.ok with
    | .confirmed =>
      (d, p.goto (((s.book e.id label (eventAmount e)).clear e.id).advance t rest))
    | .programError _ => (d, p.goto (.send (s.clear e.id) e rest instr label))
    | .failed => (d, p.goto (.send (s.clear e.id) e rest instr label))
    | .unknown =>
      if a.now - pending.atMs < PENDING_EVENT_GRACE_MS then (d, p.goto s.halt.finish)
      else (d, p.goto (.send (s.clear e.id) e rest instr label))
  | .send s e rest instr label =>
    if a.ok then (d.submit (some e.id) instr, p.goto (.confirm s e rest label d.txs.length))
    else (d, p.goto s.halt.finish)
  | .confirm s e rest label signature =>
    (d, p.goto (s.settle t e rest label signature a.now (d.hear signature a.ok)))
  | .gone s =>
    if a.ok = true ∧ d.hold t = none then (d, p.goto s.shut.finish)
    else (d, p.goto s.halt.finish)
  | .overHoldSend s e rest =>
    if a.ok then
      let instr := Instr.recordException t.authorizer (some t.authId) ExceptionKind.overHold.code
        (overHoldExcess s e) e.id
      (d.submit (some e.id) instr,
        p.goto (.overHoldConfirm s e rest (overHoldExcess s e) d.txs.length))
    else (d, p.goto s.halt.finish)
  | .overHoldConfirm s e rest excess signature =>
    match d.hear signature a.ok with
    | .confirmed =>
      let s := { s with record := applyLabel s.record .overHold excess }
      (d, p.goto ((s.mark e.id).advance t rest))
    | .programError err =>
      if err = .policy .duplicateEvent then (d, p.goto ((s.mark e.id).advance t rest))
      else (d, p.goto s.halt.finish)
    | _ => (d, p.goto s.halt.finish)
  | .refresh s =>
    match (if a.ok then d.hold t else none) with
    | none => (d, p.goto (s.toPost s.postings))
    | some r =>
      let s := { s with record := refreshFromReservation s.record r }
      (d, p.goto (s.toPost s.postings))
  | .post s id label amount left =>
    if a.ok then (d.record id label amount a, p.goto (s.toPost left)) else (d, p.goto .done)
  | .close s =>
    let record := { s.record with
      issuerStatus := some p.truth.status
      closeNotFinalAtMs := if s.progressed then none else s.record.closeNotFinalAtMs }
    if s.stop = false ∧ s.isOpen = true ∧ closable record a.now = true ∧ a.ok = true then
      (d.submit none (.closeReservation t.authorizer t.authId), p.goto (.closeConfirm d.txs.length))
    else (d, p.goto .done)
  | .closeConfirm signature =>
    match d.hear signature a.ok with
    | .confirmed => (d, p.goto (.updateRead .markClosed UPDATE_TRIES))
    | .programError (.policy .reservationNotFinal) =>
      (d, p.goto (.updateRead (.notFinal a.now) UPDATE_TRIES))
    | .programError .account => (d, p.goto .closeGone)
    | _ => (d, p.goto .done)
  | .closeGone =>
    if a.ok = true ∧ d.hold t = none then (d, p.goto (.updateRead .markClosed UPDATE_TRIES))
    else (d, p.goto .done)
  | .sweepRead =>
    match d.row with
    | none => (d, p.goto .done)
    | some row =>
      if closable row.value a.now = true ∧ a.ok = true then
        (d.submit none (.closeReservation t.authorizer t.authId),
          p.goto (.closeConfirm d.txs.length))
      else (d, p.goto .done)
  | .done => (d, p.goto .done)

/-! ## The request -/

/-- The row after the decision was stored; another writer's state is kept. -/
def persistRow (x : Decision) (record : Txn) : Txn :=
  if record.state = .pending then
    { record with
      state := x.state
      reservedCents := x.reservedCents
      capturedCents := x.capturedCents.getD record.capturedCents }
  else record

def Desk.persist (d : Desk) (x : Decision) : Desk :=
  { d with asa := .persistRead x UPDATE_TRIES }

/-- Performs the call the request waits at. -/
def Desk.decide (t : Token) (a : Answer) (d : Desk) : Desk :=
  match d.asa with
  | .start => d
  | .createPending req =>
    -- a row that is there already is taken as created
    { d with row := (cas d.row { state := .pending } none a.now).1, asa := .evaluate req }
  | .evaluate req =>
    match req.early a.seen with
    | some x => d.persist x
    | none =>
      if req.args.amountCents = 0 then { d with asa := .verify }
      else if a.ok then
        { d.submit none (.authorize t.authorizer req.args) with asa := .watch req d.txs.length }
      else d.persist ⟨.declinedInternal, 0, none⟩
  | .verify =>
    if a.ok then
      if d.chain.policy.frozen = false ∧ d.chain.policy.recoveryState = .normal ∧
          d.chain.policy.authorizer = t.authorizer then
        d.persist ⟨.accountVerification, 0, none⟩
      else d.persist ⟨.declined, 0, none⟩
    else d.persist ⟨.declinedInternal, 0, none⟩
  | .watch req signature =>
    match d.hear signature a.ok with
    | .programError e =>
      if e = .policy .duplicateAuthorization then { d with asa := .guardRead req }
      else d.persist ⟨.declined, 0, none⟩
    | .failed => d.persist ⟨.declinedInternal, 0, none⟩
    | heard =>
      match (if a.seen then d.hold t else none) with
      | some r => d.persist (reservationDecision r req.args.amountCents req.args.singleMessage)
      | none =>
        if heard = .confirmed then { d with asa := .observe req }
        else d.persist ⟨.ambiguous, 0, none⟩
  | .guardRead req =>
    if a.ok = true ∧ recentlyClosed d.chain.guard t.authId = true then
      d.persist ⟨.declined, 0, none⟩
    else { d with asa := .observe req }
  | .observe req =>
    match (if a.ok then d.hold t else none) with
    | some r => d.persist (reservationDecision r req.args.amountCents req.args.singleMessage)
    | none => d.persist ⟨.ambiguous, 0, none⟩
  | .persistRead _ 0 => { d with asa := .done false }
  | .persistRead x (tries + 1) =>
    match d.row with
    | none => { d with asa := .done false }
    | some row => { d with asa := .persistWrite x tries row }
  | .persistWrite x tries row =>
    match d.write (persistRow x row.value) row a.now with
    | (d, true) =>
      match x.capturedCents with
      | some amount =>
        if (persistRow x row.value).state = .captured then { d with asa := .post amount }
        else { d with asa := .done true }
      | none => { d with asa := .done true }
    | (d, false) => { d with asa := .persistRead x tries }
  | .post amount =>
    { (if a.ok then d.record t.authId .singleMessage amount a else d) with asa := .done true }
  | .done b => { d with asa := .done b }

/-- The decision is stored on the row. -/
def Asa.persisted : Asa → Bool
  | .post _ => true
  | .done b => b
  | _ => false

/-! ## The system -/

/-- What the issuer has on record for the transaction. An event never changes, and its
id is neither the hold's nor the void's. -/
structure Issuer (t : Token) where
  event : Hash → Option IssuerEvent
  id_eq : ∀ i e, event i = some e → e.id = i
  not_hold : event t.authId = none
  not_void : event t.voidId = none

/-- An instruction that is no business of the transaction: it neither creates, captures
on nor closes its hold, carries none of its ids and leaves the card in place. -/
def Issuer.isForeign {t : Token} (issuer : Issuer t) (i : Instr) : Bool :=
  !i.wipes && decide (i.creates ≠ some t.authId) && decide (i.closes ≠ some t.authId) &&
    decide (i.capturedId t.authId = none) &&
    (i.recordedId.all fun id => (issuer.event id).isNone) &&
    (i.moneyId.all fun id => (issuer.event id).isNone)

/-- One event of an interleaving. -/
inductive TxnAction where
  /-- The authorization request arrives. -/
  | decide (req : Request)
  | asa (a : Answer)
  | asaStop
  /-- A webhook, a retry or reconciliation starts a pass over a snapshot. -/
  | start (truth : Truth)
  | sweep
  | run (i : Nat) (a : Answer)
  | stop (i : Nat)
  | land (signature : Nat) (ctx : Ctx)
  | drop (signature : Nat)
  /-- Another instruction on the card. -/
  | other (call : Call)
  /-- Reconciliation finds the row pending for too long. -/
  | stale (updated : Nat)
  /-- Another writer of the row changes other fields of it. -/
  | touchRow (dispute : Option Nat) (status : Option IssuerStatus) (notFinal : Option Nat)
      (updated : Nat)

abbrev TxnSystem := World Desk Pass

/-- A new card and no trace of the transaction. -/
def TxnSystem.initial (chain : State) : TxnSystem := ⟨⟨none, ∅, chain, [], [], .start⟩, []⟩

def Desk.touchRow (d : Desk) (dispute : Option Nat) (status : Option IssuerStatus)
    (notFinal : Option Nat) (updated : Nat) : Desk :=
  { d with
    row := d.row.map fun row =>
      let value := { row.value with
        disputeState := dispute, issuerStatus := status, closeNotFinalAtMs := notFinal }
      ⟨row.rev + 1, value, updated⟩ }

/-- A pending row that is given up as ambiguous. -/
def Desk.stale (d : Desk) (updated : Nat) : Desk :=
  { d with
    row := d.row.map fun row =>
      if row.value.state = .pending then
        ⟨row.rev + 1, { row.value with state := .ambiguous }, updated⟩
      else row }

section System

variable [Runtime]

/-- The transaction reaches the program. -/
def Desk.land (d : Desk) (signature : Nat) (ctx : Ctx) : Option Desk :=
  match d.txs[signature]? with
  | some ⟨event, instr, .sent⟩ =>
    match exec d.chain ⟨ctx, instr⟩ with
    | .ok chain =>
      some { d with
        chain := chain
        txs := d.txs.set signature ⟨event, instr, .landed⟩
        history := d.history ++ [instr] }
    | .error e => some { d with txs := d.txs.set signature ⟨event, instr, .refused e⟩ }
  | _ => none

/-- It never will. -/
def Desk.drop (d : Desk) (signature : Nat) : Option Desk :=
  match d.txs[signature]? with
  | some ⟨event, instr, .sent⟩ =>
    some { d with txs := d.txs.set signature ⟨event, instr, .dropped⟩ }
  | _ => none

/-- Somebody else's instruction. -/
def Desk.other (d : Desk) (call : Call) : Option Desk :=
  match exec d.chain call with
  | .ok chain => some { d with chain := chain, history := d.history ++ [call.instr] }
  | .error _ => none

/-- One event; an event that cannot happen fails. -/
def TxnSystem.step (t : Token) (issuer : Issuer t) (w : TxnSystem) :
    TxnAction → Except Unit TxnSystem
  | .decide req =>
    match w.store.asa with
    | .start =>
      if req.args.authIdHash = t.authId then
        .ok { w with store := { w.store with asa := .createPending req } }
      else .error ()
    | _ => .error ()
  | .asa a => .ok { w with store := w.store.decide t a }
  | .asaStop => .ok { w with store := { w.store with asa := .done w.store.asa.persisted } }
  | .start truth =>
    if ∀ e ∈ truth.events, issuer.event e.id = some e then
      .ok { w with procs := w.procs ++ [⟨truth, .read⟩] }
    else .error ()
  | .sweep => .ok { w with procs := w.procs ++ [⟨⟨.other, false, []⟩, .sweepRead⟩] }
  | .run i a =>
    match w.procs[i]? with
    | none => .error ()
    | some p => .ok ⟨(p.run t a w.store).1, w.procs.set i (p.run t a w.store).2⟩
  | .stop i =>
    match w.procs[i]? with
    | none => .error ()
    | some p => .ok { w with procs := w.procs.set i (p.goto .done) }
  | .land signature ctx =>
    match w.store.land signature ctx with
    | some d => .ok { w with store := d }
    | none => .error ()
  | .drop signature =>
    match w.store.drop signature with
    | some d => .ok { w with store := d }
    | none => .error ()
  | .other call =>
    if issuer.isForeign call.instr then
      match w.store.other call with
      | some d => .ok { w with store := d }
      | none => .error ()
    else .error ()
  | .stale updated => .ok { w with store := w.store.stale updated }
  | .touchRow dispute status notFinal updated =>
    .ok { w with store := w.store.touchRow dispute status notFinal updated }

end System

end ChainPay.Backend
