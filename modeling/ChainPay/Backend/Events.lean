import ChainPay.Backend.Billing
import ChainPay.Card.Exec
import Mathlib.Data.List.Sort

/-!
Issuer events of one transaction: the transaction row, the issuer's snapshot, and the
rules of `apply_transaction` that read nothing but these. `route` maps an event to its
`card_policy` instruction, `applyLabel` projects a confirmed step onto the row, `merge`
writes a pass's changes onto the latest copy of the row.
-/

namespace ChainPay.Backend
open ChainPay.Lib ChainPay.Card

/-! ## The transaction row -/

inductive TxnState where
  | pending
  | ambiguous
  | reserved
  | partiallyCaptured
  | captured
  | reversed
  | expired
  | declined
  | declinedInternal
  | accountVerification
  | unsolicited
  | forcedCapture
  | refunded
  deriving DecidableEq, Repr

def TxnState.ofReservation : ReservationState → TxnState
  | .reserved => .reserved
  | .partiallyCaptured => .partiallyCaptured
  | .captured => .captured
  | .reversed => .reversed
  | .expired => .expired

/-- A state the row takes over from a Reservation. -/
def TxnState.isHold : TxnState → Bool
  | .reserved | .partiallyCaptured | .captured | .reversed | .expired => true
  | _ => false

inductive IssuerStatus where
  | pending
  | settled
  | voided
  | expired
  | declined
  | other
  deriving DecidableEq, Repr

/-- The transaction moves no more holds. -/
def IssuerStatus.isFinal : IssuerStatus → Bool
  | .settled | .voided | .expired | .declined => true
  | .pending | .other => false

/-- A submission of an event whose outcome was never heard. -/
structure PendingEvent where
  signature : Nat
  atMs : Nat
  deriving DecidableEq, Repr

/-- A transaction row. Amounts stand for their decimal texts. -/
structure Txn where
  state : TxnState
  unsolicited : Bool := false
  hasReservation : Bool := false
  reservationClosed : Bool := false
  reservedCents : Nat := 0
  capturedCents : Nat := 0
  reversedCents : Nat := 0
  refundedCents : Nat := 0
  exceptionCents : Nat := 0
  appliedEventIds : List Hash := []
  pendingEvents : List (Hash × PendingEvent) := []
  disputeState : Option Nat := none
  issuerStatus : Option IssuerStatus := none
  closeNotFinalAtMs : Option Nat := none
  /-- Ghost: the applied ids that no instruction was sent for. -/
  unsent : List Hash := []
  deriving DecidableEq, Repr

/-- States in which `card_policy` holds a Reservation for this transaction. -/
def hasReservation (record : Txn) : Bool :=
  record.hasReservation || (record.state.isHold && !record.unsolicited)

/-- The authorization decision is still open. -/
def TxnState.isOpenDecision : TxnState → Bool
  | .pending | .ambiguous => true
  | _ => false

def centsOf (n : Nat) : Nat := (parseCents n).getD 0

def addCents (current amount : Nat) : Nat := min (centsOf current + amount) (2 ^ 64 - 1)

/-! ## Issuer snapshots -/

inductive EventKind where
  | authorization
  | financialAuthorization
  | authorizationAdvice
  | authorizationReversal
  | authorizationExpiry
  | clearing
  | returned
  | financialCreditAuthorization
  | returnReversal
  | correctionDebit
  | correctionCredit
  | other
  deriving DecidableEq, Repr

/-- One event of an issuer transaction; `id` is the hash of its token. -/
structure IssuerEvent where
  id : Hash
  created : Nat
  /-- Whether the result reads APPROVED, if there is one. -/
  result : Option Bool
  credit : Bool
  kind : EventKind
  cardholder : Option Int
  amount : Option Int
  settlement : Option Int
  deriving DecidableEq, Repr

/-- The issuer's view of a transaction at one time. -/
structure Truth where
  status : IssuerStatus
  approved : Bool
  events : List IssuerEvent
  deriving DecidableEq, Repr

/-- The first non-zero of cardholder, event and settlement amount. -/
def eventAmount (e : IssuerEvent) : Nat :=
  (([e.cardholder, e.amount, e.settlement].filterMap fun v => v.map Int.natAbs).find?
    fun v => decide (0 < v)).getD 0

def createdBefore (a b : IssuerEvent) : Prop := a.created ≤ b.created

instance : DecidableRel createdBefore := fun _ _ => inferInstanceAs (Decidable (_ ≤ _))

def sortedEvents (truth : Truth) : List IssuerEvent := truth.events.insertionSort createdBefore

def issuerApproved (truth : Truth) : Bool :=
  truth.approved || truth.events.any fun e =>
    decide (e.kind = .authorization ∨ e.kind = .financialAuthorization) && decide (e.result = some true)

/-- The row a webhook creates for a transaction it finds none for. -/
def unsolicitedRow (truth : Truth) : Txn where
  state := if truth.events.any fun e => decide (e.result = some true) then .unsolicited else .declined
  unsolicited := true

/-! ## Routing -/

inductive NoteLabel where
  | refundOverCapture
  | unpairedAuthorization
  | afterCloseNoop
  deriving DecidableEq, Repr

/-- What an event asks for: an instruction, a note on the row, or nothing. -/
inductive Step where
  | program (instr : Instr) (label : StepLabel)
  | note (label : NoteLabel)
  | skip

/-- The amount when a refund of it fits what the hold captured and has not refunded. -/
def refundable (captured refunded amount : Nat) : Option Nat :=
  if refunded + amount < 2 ^ 64 ∧ refunded + amount ≤ captured then some amount else none

def isRefund (e : IssuerEvent) : Bool :=
  match e.kind with
  | .returned | .financialCreditAuthorization => true
  | .clearing => e.credit
  | _ => false

/-- The refund is above what the transaction captured. -/
def overRefund (record : Txn) (e : IssuerEvent) : Bool :=
  isRefund e && !record.unsolicited &&
    (refundable (centsOf record.capturedCents) (centsOf record.refundedCents)
      (eventAmount e)).isNone

/-- The hold of the transaction and the key that signs for the backend. -/
structure Token where
  authorizer : Pubkey
  authId : Hash
  /-- The event id of the void that resolves an ambiguous decision. -/
  voidId : Hash

def exception (t : Token) (o : Option Hash) (kind : ExceptionKind) (e : IssuerEvent) : Instr :=
  .recordException t.authorizer o kind.code (eventAmount e) e.id

/-- The instruction of an event. `present` tells that the transaction has a Reservation,
`closed` that it was closed. -/
def route (t : Token) (present closed : Bool) (record : Txn) (e : IssuerEvent) : Step :=
  let isOpen := present && !closed
  let onHold := if isOpen then some t.authId else none
  if overRefund record e then .note .refundOverCapture
  else
    match e.kind with
    | .authorization =>
      if present then .skip
      -- a verification of nothing, which has no hold
      else if record.state = .accountVerification ∧ eventAmount e = 0 then .skip
      else .note .unpairedAuthorization
    | .financialAuthorization =>
      if present then .skip
      else .program (exception t none .unpairedCapture e) .unpairedCapture
    | .authorizationAdvice =>
      if closed then .note .afterCloseNoop
      else if isOpen then
        .program (.adjustReservation t.authorizer t.authId (eventAmount e)) .adjust
      else .skip
    | .clearing =>
      if e.credit then .program (.refund t.authorizer onHold (eventAmount e) e.id) .refund
      else if isOpen then
        .program (.capture t.authorizer t.authId (eventAmount e) e.id) .capture
      else if closed then
        if record.state = .reversed ∨ record.state = .expired then
          .program (exception t none .lateCapture e) .lateCapture
        else .program (exception t none .overCapture e) .overCapture
      -- a capture with no authorization we reserved
      else .program (exception t none .forcedCapture e) .forcedCapture
    | .authorizationReversal =>
      if closed then .note .afterCloseNoop
      else if isOpen then
        .program (.reverse t.authorizer t.authId (eventAmount e) REVERSE_VOID e.id) .reverse
      else .skip
    | .authorizationExpiry =>
      if closed then .note .afterCloseNoop
      else if isOpen then
        .program (.reverse t.authorizer t.authId (eventAmount e) REVERSE_EXPIRY e.id) .expire
      else .skip
    | .returned | .financialCreditAuthorization =>
      .program (.refund t.authorizer onHold (eventAmount e) e.id) .refund
    | .returnReversal => .program (exception t onHold .returnReversal e) .returnReversal
    | .correctionDebit => .program (exception t onHold .correctionDebit e) .correctionDebit
    | .correctionCredit => .program (exception t onHold .correctionCredit e) .correctionCredit
    | .other => .skip

/-! ## The row after a step -/

/-- Local projection of a confirmed step. -/
def applyLabel (record : Txn) (label : StepLabel) (amount : Nat) : Txn :=
  match label with
  | .capture | .lateCapture =>
    { record with capturedCents := addCents record.capturedCents amount }
  | .reverse | .expire => { record with reversedCents := addCents record.reversedCents amount }
  | .overCapture =>
    { record with
      capturedCents := addCents record.capturedCents amount
      exceptionCents := addCents record.exceptionCents amount }
  | .refund =>
    { record with
      refundedCents := addCents record.refundedCents amount
      state := if record.unsolicited then .refunded else record.state }
  | .forcedCapture | .unpairedCapture =>
    { record with
      capturedCents := addCents record.capturedCents amount
      exceptionCents := addCents record.exceptionCents amount
      state := .forcedCapture }
  | .overHold | .returnReversal | .correctionDebit =>
    { record with exceptionCents := addCents record.exceptionCents amount }
  | .correctionCredit | .adjust | .singleMessage => record

/-- The rollup is the source of truth for the money fields and the lifecycle. -/
def refreshFromReservation (record : Txn) (r : Reservation) : Txn :=
  { record with
    hasReservation := true
    reservedCents := r.amountReservedCents
    capturedCents := r.capturedCents
    reversedCents := r.reversedCents
    refundedCents := r.refundedCents
    state := .ofReservation r.state
    disputeState := some r.disputeState.toNat }

def clearPending (record : Txn) (id : Hash) : Txn :=
  { record with pendingEvents := record.pendingEvents.filter fun p => !decide (p.1 = id) }

/-- The value of a field that the pass changed, else the current one. -/
def changed {α : Type} [DecidableEq α] (current original value : α) : α :=
  if value = original then current else value

/-- Appends the ids that are not there yet. -/
def addIds (ids new : List Hash) : List Hash :=
  new.foldl (fun ids id => if id ∈ ids then ids else ids ++ [id]) ids

/-- Writes the fields a pass changed, and its applied ids, onto the latest row. -/
def merge (original record : Txn) (applied : List Hash) (progressed : Bool)
    (status : IssuerStatus) (current : Txn) : Txn :=
  { current with
    state := changed current.state original.state record.state
    reservedCents := changed current.reservedCents original.reservedCents record.reservedCents
    capturedCents := changed current.capturedCents original.capturedCents record.capturedCents
    reversedCents := changed current.reversedCents original.reversedCents record.reversedCents
    refundedCents := changed current.refundedCents original.refundedCents record.refundedCents
    exceptionCents := changed current.exceptionCents original.exceptionCents record.exceptionCents
    disputeState := changed current.disputeState original.disputeState record.disputeState
    reservationClosed :=
      changed current.reservationClosed original.reservationClosed record.reservationClosed
    pendingEvents := changed current.pendingEvents original.pendingEvents record.pendingEvents
    appliedEventIds := addIds current.appliedEventIds applied
    closeNotFinalAtMs := if progressed then none else current.closeNotFinalAtMs
    issuerStatus := some status
    unsent := current.unsent ++ record.unsent }

def NOT_FINAL_BACKOFF_MS : Nat := 3600000

/-- The row describes a final hold that the program will close. -/
def programFinal (record : Txn) (now : Nat) : Bool :=
  decide (record.state = .captured ∨ record.state = .reversed ∨ record.state = .expired) &&
    decide (record.reservedCents = 0) && decide (record.disputeState ≠ some 1) &&
    hasReservation record && !record.reservationClosed &&
    !(record.closeNotFinalAtMs.any fun at_ => decide (now - at_ < NOT_FINAL_BACKOFF_MS))

/-- And the issuer agrees. -/
def closable (record : Txn) (now : Nat) : Bool :=
  programFinal record now && record.issuerStatus.any IssuerStatus.isFinal

end ChainPay.Backend
