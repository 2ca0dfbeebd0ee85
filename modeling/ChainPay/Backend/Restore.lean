import ChainPay.Backend.Close
import ChainPay.Backend.Events
import ChainPay.Card.Audit
import ChainPay.Card.Budget
import ChainPay.Lib.Floor
import ChainPay.Lib.Pages
import Mathlib.Algebra.Order.BigOperators.Group.List
import Mathlib.Algebra.Order.Group.Nat
import Mathlib.Algebra.Order.Ring.Int

/-!
The numbers a lost card is restored with: the counters of a snapshot plus what was
booked after it. The program books postings and repayments as they come and cuts the
outstanding balance off at zero each time; `restored_numbers` replays the postings in
the order of their rows and takes the repayments off at the end. It reads all rows by
pages of the index, which leave out a row that ties with the last one of a page.
-/

namespace ChainPay.Backend
open ChainPay.Lib ChainPay.Card

/-! ## The snapshot -/

/-- What `restored_numbers` reads of a snapshot. -/
structure Snapshot where
  periodIndex : Nat
  capturedCents : Nat
  refundedCents : Nat
  exceptionCents : Nat
  purchasesCount : Nat
  feeBps : Nat
  statementOutstandingCents : Nat
  ledgerHead : Hash
  ledgerSeq : Nat
  takenAt : Nat
  deriving DecidableEq, Repr

def snapshot (s : Card.State) (takenAt : Nat) : Snapshot where
  periodIndex := s.period.periodIndex
  capturedCents := s.period.capturedCents
  refundedCents := s.period.refundedCents
  exceptionCents := s.period.exceptionCents
  purchasesCount := s.period.purchasesCount
  feeBps := s.policy.feeBps
  statementOutstandingCents := s.policy.statementOutstandingCents
  ledgerHead := s.policy.ledgerHead
  ledgerSeq := s.policy.ledgerSeq
  takenAt := takenAt

/-! ## Restored numbers -/

/-- `internal` is the error it returns; an addition past 64 bits panics. -/
inductive RestoreError where
  | internal
  | overflow
  deriving DecidableEq, Repr

def plus (a b : Nat) : Except RestoreError Nat := okOr (checkedAdd 64 a b) .overflow

@[simp] theorem plus_eq_ok {a b c : Nat} : plus a b = .ok c ↔ a + b < 2 ^ 64 ∧ a + b = c := by
  simp [plus]

structure Tally where
  captured : Nat
  refunded : Nat
  exception : Nat
  outstanding : Nat
  postingsApplied : Nat
  deriving DecidableEq, Repr

/-- One posting after the snapshot. -/
def Tally.post (feeBps : Nat) (t : Tally) (p : Posting) : Except RestoreError Tally := do
  let amount ← okOr (parseCents p.amount) .internal
  let gross ← plus amount (feeCents amount (p.feeBps.getD feeBps))
  match p.kind with
  | .purchase => do
    let captured ← plus t.captured amount
    let outstanding ← plus t.outstanding gross
    return { t with
      captured := captured, outstanding := outstanding, postingsApplied := t.postingsApplied + 1 }
  | .adjustmentDebit => do
    let captured ← plus t.captured amount
    let exception ← plus t.exception amount
    let outstanding ← plus t.outstanding gross
    return { t with
      captured := captured, exception := exception, outstanding := outstanding
      postingsApplied := t.postingsApplied + 1 }
  | .refund | .adjustmentCredit => do
    let refunded ← plus t.refunded amount
    return { t with
      refunded := refunded, outstanding := t.outstanding - gross
      postingsApplied := t.postingsApplied + 1 }

def Tally.postAll (feeBps : Nat) : Tally → List Posting → Except RestoreError Tally
  | t, [] => .ok t
  | t, p :: rest => do
    let t ← t.post feeBps p
    t.postAll feeBps rest

/-- The references postings are filed under: open, then one for each statement. -/
def postingReferences (nextSeq : Option Nat) : List (Option Nat) :=
  none :: (List.range' 1 (nextSeq.getD 1 - 1)).map some

/-- A statement row as far as its repayment goes. -/
structure Discharge where
  state : StatementState
  /-- The `discharged` entries of its history. -/
  dischargedAt : List Nat
  amountCents : Option Nat
  updated : Nat
  deriving DecidableEq, Repr

def Discharge.isAfter (d : Discharge) (takenAt : Nat) : Bool :=
  decide (d.state = .discharged) && d.dischargedAt.any fun t => decide (takenAt < t)

def Discharge.cents (d : Discharge) : Nat := d.amountCents.getD 0

/-- A transaction row with the time its authorization was approved. -/
structure TxnRow where
  txn : Txn
  approvedAt : Option Nat
  deriving DecidableEq, Repr

/-- A row among the events of a card: a transaction, or an entry of the owner's history. -/
structure EventRow where
  txn : Option TxnRow
  updated : Nat
  deriving DecidableEq, Repr

/-- The rows of a card that recovery reads, each kind in the order of creation. -/
structure CardRows where
  nextSeq : Option Nat
  postings : List PostingRow
  statements : List Discharge
  events : List EventRow

/-- The postings filed under one reference. -/
def CardRows.under (rows : CardRows) (ref : Option Nat) : List PostingRow :=
  rows.postings.filter fun r => decide (r.2.value.statementSeq = ref)

def isPostedAfter (takenAt : Nat) (r : PostingRow) : Bool := decide (takenAt < r.2.value.postedAt)

/-- Postings after the snapshot, in posting order: open ones and any a later statement
already filed. -/
def CardRows.postedAfter (rows : CardRows) (takenAt : Nat) : List PostingRow :=
  (((postingReferences rows.nextSeq).flatMap fun ref =>
    Pages.all updatedOf PAGE (rows.under ref)).filter (isPostedAfter takenAt)).insertionSort
      oldestPosted

/-- Repayments recorded on the rollup after the snapshot. -/
def repaidAfter (discharges : List Discharge) (takenAt : Nat) : List Nat :=
  (discharges.filter fun d => d.isAfter takenAt).map fun d => centsOf d.cents

def TxnRow.isHeld (r : TxnRow) : Bool :=
  decide (r.txn.state = .reserved ∨ r.txn.state = .partiallyCaptured)

def TxnRow.isApprovedAfter (r : TxnRow) (takenAt : Nat) : Bool :=
  (r.approvedAt.any fun t => decide (takenAt < t)) && decide (r.txn.state ≠ .accountVerification)

def sumHeld : List TxnRow → Nat → Except RestoreError Nat
  | [], sum => .ok sum
  | r :: rest, sum =>
    if r.isHeld then do
      let sum ← plus sum (centsOf r.txn.reservedCents)
      sumHeld rest sum
    else sumHeld rest sum

/-- The transactions the pages hold. -/
def CardRows.txns (rows : CardRows) : List TxnRow :=
  (Pages.all EventRow.updated PAGE rows.events).filterMap EventRow.txn

structure Restored where
  periodIndex : Nat
  capturedCents : Nat
  reservedCents : Nat
  refundedCents : Nat
  exceptionCents : Nat
  purchasesCount : Nat
  statementOutstandingCents : Nat
  ledgerHead : Hash
  ledgerSeq : Nat
  postingsSinceSnapshot : Nat
  deriving DecidableEq, Repr

def restoredNumbers (rows : CardRows) (snap : Snapshot) : Except RestoreError Restored := do
  let start : Tally :=
    ⟨centsOf snap.capturedCents, centsOf snap.refundedCents, centsOf snap.exceptionCents,
      centsOf snap.statementOutstandingCents, 0⟩
  let t ← start.postAll snap.feeBps
    ((rows.postedAfter snap.takenAt).map fun r => r.2.value)
  let outstanding := (repaidAfter (Pages.all Discharge.updated PAGE rows.statements)
    snap.takenAt).foldl (fun o a => o - a) t.outstanding
  let reserved ← sumHeld rows.txns 0
  return {
    periodIndex := snap.periodIndex
    capturedCents := t.captured
    reservedCents := reserved
    refundedCents := t.refunded
    exceptionCents := t.exception
    purchasesCount := min
      (snap.purchasesCount + (rows.txns.filter fun r => r.isApprovedAfter snap.takenAt).length)
      (2 ^ 16 - 1)
    statementOutstandingCents := outstanding
    ledgerHead := snap.ledgerHead
    ledgerSeq := snap.ledgerSeq
    postingsSinceSnapshot := t.postingsApplied }

/-! ## What the program books -/

/-- A movement of the program's counters. -/
inductive Booking where
  | posting (kind : PostingKind) (amount : Nat)
  | repayment (amount : Nat)
  deriving DecidableEq, Repr

namespace Booking

/-- Its change of the outstanding balance. -/
def delta (feeBps : Nat) : Booking → Int
  | .posting kind a => if kind.isCredit then -(grossOf a feeBps : Int) else grossOf a feeBps
  | .repayment a => -(a : Int)

def captured : Booking → Nat
  | .posting kind a => if kind.isCredit then 0 else a
  | .repayment _ => 0

def refunded : Booking → Nat
  | .posting kind a => if kind.isCredit then a else 0
  | .repayment _ => 0

def isPosting : Booking → Bool
  | .posting .. => true
  | .repayment _ => false

end Booking

def exceptionLabel : ExceptionKind → StepLabel
  | .forcedCapture => .forcedCapture
  | .overCapture => .overCapture
  | .overHold => .overHold
  | .correctionDebit => .correctionDebit
  | .correctionCredit => .correctionCredit
  | .returnReversal => .returnReversal
  | .unpairedCapture => .unpairedCapture
  | .lateCapture => .lateCapture

/-- The step an instruction is confirmed as, with its amount. -/
def confirmedStep : Instr → Option (StepLabel × Nat)
  | .authorize _ args => if args.singleMessage then some (.singleMessage, args.amountCents) else none
  | .capture _ _ a _ => some (.capture, a)
  | .refund _ _ a _ => some (.refund, a)
  | .recordException _ _ code a _ =>
    (ExceptionKind.ofCode code).map fun kind => (exceptionLabel kind, a)
  | .adjustReservation _ _ n => some (.adjust, n)
  | .reverse _ _ a reason _ => some (if reason = REVERSE_EXPIRY then .expire else .reverse, a)
  | _ => none

/-- What an instruction books, as the backend stores it. -/
def bookings : Instr → List Booking
  | .recordRepayment _ _ a _ _ _ => [.repayment a]
  | .recordPrivateRepayment _ _ a => [.repayment a]
  | instr =>
    match confirmedStep instr with
    | none => []
    | some (label, a) =>
      match postingForLabel label with
      | none => []
      | some (kind, _) => [.posting kind a]

/-- Instructions that leave the terms and the period as they are: everything but
`set_policy`, `roll_period`, `wipe_card` and `restore`. -/
def keepsPeriod (instr : Instr) : Bool :=
  match instr.label with
  | .terms | .roll | .wipe | .restore => false
  | _ => true

/-- The counters moved by these bookings, and by nothing else. -/
structure Booked (s s' : Card.State) (bs : List Booking) : Prop where
  rate : s'.policy.feeBps = s.policy.feeBps
  budget : s'.policy.budgetCents = s.policy.budgetCents
  outstanding : s'.policy.statementOutstandingCents =
    floorWalk s.policy.statementOutstandingCents (bs.map (Booking.delta s.policy.feeBps))
  captured : s'.period.capturedCents = s.period.capturedCents + (bs.map Booking.captured).sum
  within : (bs.map Booking.captured).sum = 0 ∨ s'.period.capturedCents ≤ s.policy.budgetCents
  refunded : s'.period.refundedCents = s.period.refundedCents + (bs.map Booking.refunded).sum
  fits : (bs.map Booking.refunded).sum = 0 ∨ s'.period.refundedCents < 2 ^ 64
  positive : ∀ kind a, .posting kind a ∈ bs → 0 < a

section Booked

variable {s s₁ s' : Card.State} {bs bs' : List Booking}

theorem Booked.refl (s : Card.State) : Booked s s [] :=
  ⟨rfl, rfl, rfl, rfl, .inl rfl, rfl, .inl rfl, fun _ _ h => by cases h⟩

theorem Booked.trans (h : Booked s s₁ bs) (h' : Booked s₁ s' bs') : Booked s s' (bs ++ bs') where
  rate := h'.rate.trans h.rate
  budget := h'.budget.trans h.budget
  outstanding := by
    rw [h'.outstanding, h.outstanding, h.rate, List.map_append, floorWalk_append]
  captured := by
    rw [h'.captured, h.captured, List.map_append, List.sum_append, Nat.add_assoc]
  within := by
    have hcap := h'.captured
    have hw := h.within
    have hw' := h'.within
    rw [h.budget] at hw'
    rw [List.map_append, List.sum_append]
    omega
  refunded := by
    rw [h'.refunded, h.refunded, List.map_append, List.sum_append, Nat.add_assoc]
  fits := by
    have href := h'.refunded
    have hf := h.fits
    have hf' := h'.fits
    rw [List.map_append, List.sum_append]
    omega
  positive := by
    intro kind a hmem
    rcases List.mem_append.mp hmem with hmem | hmem
    · exact h.positive kind a hmem
    · exact h'.positive kind a hmem

/-- A move that touches none of the counters. -/
theorem Booked.idle (hterms : s'.policy.terms.outstanding = s.policy.terms.outstanding)
    (hrate : s'.policy.terms.feeBps = s.policy.terms.feeBps)
    (hbudget : s'.policy.terms.budgetCents = s.policy.terms.budgetCents)
    (hcap : s'.period.capturedCents = s.period.capturedCents)
    (href : s'.period.refundedCents = s.period.refundedCents) : Booked s s' [] where
  rate := hrate
  budget := hbudget
  outstanding := hterms
  captured := hcap
  within := .inl rfl
  refunded := href
  fits := .inl rfl
  positive _ _ hmem := by cases hmem

theorem posting_singleton {kind kind' : PostingKind} {a a' : Nat} (hpos : 0 < a)
    (hmem : Booking.posting kind' a' ∈ [.posting kind a]) : 0 < a' := by
  rw [List.mem_singleton, Booking.posting.injEq] at hmem
  exact hmem.2 ▸ hpos

theorem Booked.debit {a : Nat} {kind : PostingKind} (hkind : kind.isCredit = false) (hpos : 0 < a)
    (hterms : s'.policy.terms = Credit.bill s.policy.terms a)
    (hcap : s'.period.capturedCents = s.period.capturedCents + a)
    (hfits : s'.period.capturedCents ≤ s.policy.budgetCents)
    (href : s'.period.refundedCents = s.period.refundedCents) :
    Booked s s' [.posting kind a] where
  rate := congrArg Terms.feeBps hterms
  budget := congrArg Terms.budgetCents hterms
  outstanding := by
    have hout : s'.policy.statementOutstandingCents = _ := congrArg Terms.outstanding hterms
    simp only [hout, List.map_singleton, floorWalk, List.foldl_cons, List.foldl_nil, Booking.delta,
      hkind, Bool.false_eq_true, if_false, floorStep_add]
    rfl
  captured := by
    simp only [hcap, List.map_singleton, Booking.captured, hkind, Bool.false_eq_true, if_false,
      List.sum_singleton]
  within := .inr hfits
  refunded := by
    simp only [href, List.map_singleton, Booking.refunded, hkind, Bool.false_eq_true, if_false,
      List.sum_singleton, Nat.add_zero]
  fits := .inl (by simp only [List.map_singleton, Booking.refunded, hkind, Bool.false_eq_true,
    if_false, List.sum_singleton])
  positive _ _ := posting_singleton hpos

theorem Booked.credit {a : Nat} {kind : PostingKind} (hkind : kind.isCredit = true) (hpos : 0 < a)
    (hterms : s'.policy.terms = Credit.unbill s.policy.terms a)
    (hcap : s'.period.capturedCents = s.period.capturedCents)
    (href : s'.period.refundedCents = s.period.refundedCents + a)
    (hfits : s'.period.refundedCents < 2 ^ 64) :
    Booked s s' [.posting kind a] where
  rate := congrArg Terms.feeBps hterms
  budget := congrArg Terms.budgetCents hterms
  outstanding := by
    have hout : s'.policy.statementOutstandingCents = _ := congrArg Terms.outstanding hterms
    simp only [hout, List.map_singleton, floorWalk, List.foldl_cons, List.foldl_nil, Booking.delta,
      hkind, if_true, floorStep_sub]
    rfl
  captured := by
    simp only [hcap, List.map_singleton, Booking.captured, hkind, if_true, List.sum_singleton,
      Nat.add_zero]
  within := .inl (by simp only [List.map_singleton, Booking.captured, hkind, if_true,
    List.sum_singleton])
  refunded := by
    simp only [href, List.map_singleton, Booking.refunded, hkind, if_true, List.sum_singleton]
  fits := .inr hfits
  positive _ _ := posting_singleton hpos

theorem Booked.repay {a : Nat}
    (hout : s'.policy.statementOutstandingCents = s.policy.statementOutstandingCents - a)
    (hrate : s'.policy.feeBps = s.policy.feeBps)
    (hbudget : s'.policy.budgetCents = s.policy.budgetCents) (hperiod : s'.period = s.period) :
    Booked s s' [.repayment a] where
  rate := hrate
  budget := hbudget
  outstanding := by
    simp only [hout, List.map_singleton, floorWalk, List.foldl_cons, List.foldl_nil, Booking.delta,
      floorStep_sub]
  captured := by
    rw [hperiod]
    rfl
  within := .inl rfl
  refunded := by
    rw [hperiod]
    rfl
  fits := .inl rfl
  positive kind a' hmem := by
    rw [List.mem_singleton] at hmem
    cases hmem

end Booked

/-! ## Instructions -/

/-- A debit of `a` within the budget. -/
structure Debited (c c' : Credit) (a : Nat) : Prop where
  positive : 0 < a
  terms : c'.terms = Credit.bill c.terms a
  captured : c'.period.capturedCents = c.period.capturedCents + a
  within : c'.period.capturedCents ≤ c.terms.budgetCents

section Moves

variable {signers : List Pubkey} {c c' : Credit} {h : Hash} {o : Option Hash} {a : Nat}

theorem charge_debited (hm : Move signers c (.charge h a) c') : Debited c c' a := by
  cases hm with
  | charge _ _ hpos hfits _ _ _ _ hq =>
    unfold Credit.used at hfits
    exact ⟨hpos, rfl, hq.captured, by rw [hq.captured]; omega⟩

theorem capture_debited (hm : Move signers c (.capture h a) c') : Debited c c' a := by
  cases hm with
  | capture _ _ hpos _ _ _ _ hfits hq =>
    exact ⟨hpos, rfl, hq.captured, by rw [hq.captured]; omega⟩

theorem debit_debited (hm : Move signers c (.debit o a) c') : Debited c c' a := by
  cases hm with
  | debit _ hpos _ hfits hq =>
    unfold Credit.used at hfits
    exact ⟨hpos, rfl, hq.captured, by rw [hq.captured]; omega⟩

/-- The terms and the spend counter stay. -/
structure Idle (c c' : Credit) : Prop where
  outstanding : c'.terms.outstanding = c.terms.outstanding
  rate : c'.terms.feeBps = c.terms.feeBps
  budget : c'.terms.budgetCents = c.terms.budgetCents
  captured : c'.period.capturedCents = c.period.capturedCents

theorem hold_idle (hm : Move signers c (.hold h a) c') : Idle c c' := by
  cases hm with
  | hold _ _ _ _ _ _ _ _ hq => exact ⟨rfl, rfl, rfl, hq.captured⟩

theorem adjust_idle (hm : Move signers c (.adjust h a) c') : Idle c c' := by
  cases hm with
  | adjustDown _ _ _ _ _ hq => exact ⟨rfl, rfl, rfl, hq.captured⟩
  | adjustUp _ _ _ _ _ _ hq => exact ⟨rfl, rfl, rfl, hq.captured⟩

theorem reverse_idle (hm : Move signers c (.reverse h a) c') : Idle c c' := by
  cases hm with
  | reverse _ _ _ _ hq => exact ⟨rfl, rfl, rfl, hq.captured⟩

theorem overHold_idle (hm : Move signers c (.overHold h a) c') : Idle c c' := by
  cases hm with
  | overHold _ _ _ _ _ hq => exact ⟨rfl, rfl, rfl, hq.captured⟩

theorem correct_unbilled (hm : Move signers c (.correct o a) c') :
    c'.terms = Credit.unbill c.terms a := by
  cases hm with
  | correct _ _ _ => rfl

/-- The labels of instructions that leave the whole period. -/
def isApart : Label → Bool
  | .quiet | .members | .dispute _ | .close _ => true
  | _ => false

theorem apart_idle {l : Label} (hm : Move signers c l c') (hl : isApart l = true) :
    Idle c c' ∧ c'.period = c.period := by
  cases hm with
  | quiet => exact ⟨⟨rfl, rfl, rfl, rfl⟩, rfl⟩
  | members _ _ => exact ⟨⟨rfl, rfl, rfl, rfl⟩, rfl⟩
  | dispute _ _ => exact ⟨⟨rfl, rfl, rfl, rfl⟩, rfl⟩
  | close _ _ _ => exact ⟨⟨rfl, rfl, rfl, rfl⟩, rfl⟩
  | _ => cases hl

theorem repay_paid {d : Hash} (hm : Move signers c (.repay d a) c') :
    c'.terms.outstanding = c.terms.outstanding - a ∧ c'.terms.feeBps = c.terms.feeBps ∧
      c'.terms.budgetCents = c.terms.budgetCents ∧ c'.period = c.period := by
  cases hm with
  | repay _ _ _ _ _ => exact ⟨rfl, rfl, rfl, rfl⟩

end Moves

section Instructions

variable {ctx : Ctx} {k : Pubkey} {s s' : Card.State} {h : Hash}

theorem Booked.of_debited {a : Nat} {kind : PostingKind} (hkind : kind.isCredit = false)
    (hd : Debited s.credit s'.credit a)
    (href : s'.period.refundedCents = s.period.refundedCents) : Booked s s' [.posting kind a] :=
  .debit hkind hd.positive hd.terms hd.captured hd.within href

theorem Booked.of_idle (hi : Idle s.credit s'.credit)
    (href : s'.period.refundedCents = s.period.refundedCents) : Booked s s' [] :=
  .idle hi.outstanding hi.rate hi.budget hi.captured href

theorem authorize_booked {args : AuthorizeArgs} (ha : authorize ctx k args s = .ok s') :
    Booked s s' (bookings (.authorize k args)) := by
  have hm := authorize_move ha
  have href : s'.period.refundedCents = s.period.refundedCents := by
    simp only [authorize, bind_eq_ok, exists_unit, increment_eq_ok, pure_eq_ok] at ha
    obtain ⟨-, -, -, -, -, x, -, -, -, -, expires, -, p, -, _, ⟨-, rfl⟩, ⟨r, q, p₂⟩, hbook, p₃, -,
      rfl⟩ := ha
    unfold bookAuthorization at hbook
    split at hbook
    · simp only [bind_eq_ok, pure_eq_ok, Prod.mk.injEq] at hbook
      obtain ⟨_, -, p₁, -, rfl, rfl, rfl⟩ := hbook
      rfl
    · simp only [bind_eq_ok, pure_eq_ok, Prod.mk.injEq] at hbook
      obtain ⟨_, -, rfl, rfl, rfl⟩ := hbook
      rfl
  unfold AuthorizeArgs.label at hm
  simp only [bookings, confirmedStep]
  split at hm
  · rename_i hsingle
    rw [if_pos hsingle]
    exact .of_debited rfl (charge_debited hm) href
  · rename_i hsingle
    rw [if_neg hsingle]
    exact .of_idle (hold_idle hm) href

theorem adjustReservation_booked {n : Nat} (ha : adjustReservation ctx k h n s = .ok s') :
    Booked s s' [] := by
  have hm := adjustReservation_move ha
  simp only [adjustReservation, bind_eq_ok, exists_unit, pure_eq_ok] at ha
  obtain ⟨r, -, -, -, ⟨q, r₁⟩, hres, p, -, rfl⟩ := ha
  have hspend := (resize_spend hres).2.2.2 fun _ => none
  exact .of_idle (adjust_idle hm) (congrArg SpendState.refunded hspend)

theorem capture_booked {a : Nat} {i : Hash} (hc : capture ctx k h a i s = .ok s') :
    Booked s s' [.posting .purchase a] := by
  have hm := capture_move hc
  simp only [capture, bind_eq_ok, exists_unit, pure_eq_ok] at hc
  obtain ⟨r, -, -, -, -, -, -, ⟨p, q, r₁⟩, htake, -, _, -, _, -, p₂, -, p₃, -, rfl⟩ := hc
  have hspend := (takeFromHold_spend htake).2.2 fun _ => none
  exact .of_debited rfl (capture_debited hm) (congrArg SpendState.refunded hspend)

theorem reverse_booked {a : Nat} {b : UInt8} {i : Hash} (hr : reverse ctx k h a b i s = .ok s') :
    Booked s s' [] := by
  have hm := reverse_move hr
  simp only [reverse, bind_eq_ok, exists_unit, releaseHold_eq, ok_bind, pure_eq_ok] at hr
  obtain ⟨r, -, -, -, -, p, -, -, _, -, p₂, -, rfl⟩ := hr
  exact .of_idle (reverse_idle hm) rfl

theorem refund_booked {o : Option Hash} {a : Nat} {i : Hash}
    (hr : refund ctx k o a i s = .ok s') : Booked s s' [.posting .refund a] := by
  simp only [refund, bind_eq_ok, exists_unit, add_eq_ok, pure_eq_ok] at hr
  obtain ⟨r, -, -, hpos, p, hp, _, ⟨hfit, rfl⟩, r', -, p₂, hp₂, p₃, hp₃, rfl⟩ := hr
  refine .credit rfl (ensure_eq_ok.mp hpos) ?_ rfl rfl hfit
  change p₃.terms = _
  rw [appendLedger_terms hp₃, reduceExposure_terms hp₂, recordEventId_terms hp]

theorem recordException_booked {o : Option Hash} {code : UInt8} {a : Nat} {i : Hash}
    (hr : recordException ctx k o code a i s = .ok s') :
    Booked s s' (bookings (.recordException k o code a i)) := by
  have hm := recordException_move hr
  simp only [recordException, bind_eq_ok, exists_unit, okOr_eq_ok, pure_eq_ok] at hr
  obtain ⟨r, hctx, -, kind, hkind, hpos, p, hp, ⟨p₁, q, r'⟩, hbook, p₂, hp₂, p₃, hp₃, rfl⟩ := hr
  obtain ⟨kind', hkind', hm⟩ := hm
  cases hkind.symm.trans hkind'
  simp only [bookings, confirmedStep, hkind, Option.map_some]
  have hdebit : ∀ kind, bookDebit kind a p s.period r = .ok (p₁, q, r') →
      q.refundedCents = s.period.refundedCents := by
    intro kind hb
    simp only [bookDebit, bind_eq_ok, exists_unit, pure_eq_ok, Prod.mk.injEq] at hb
    obtain ⟨-, _, -, _, -, r₁, -, p₄, -, rfl, rfl, rfl⟩ := hb
    rfl
  cases kind with
  | lateCapture =>
    simp only [ExceptionKind.book, bookLate, bind_eq_ok, exists_unit, pure_eq_ok,
      Prod.mk.injEq] at hbook
    obtain ⟨-, -, _, -, p₄, -, rfl, rfl, rfl⟩ := hbook
    exact .of_debited rfl (debit_debited hm) rfl
  | overHold =>
    simp only [ExceptionKind.book, bookOverHold, bind_eq_ok, exists_unit, okOr_eq_ok, pure_eq_ok,
      Prod.mk.injEq] at hbook
    obtain ⟨r₁, hsome, -, _, -, _, -, _, -, rfl, rfl, rfl⟩ := hbook
    cases o with
    | none =>
      rw [(cardContext_ok hctx).2] at hsome
      cases hsome
    | some h => exact .of_idle (overHold_idle hm) rfl
  | correctionCredit =>
    simp only [ExceptionKind.book, bookCredit, bind_eq_ok, add_eq_ok, pure_eq_ok,
      Prod.mk.injEq] at hbook
    obtain ⟨_, ⟨hfit, rfl⟩, r₁, -, p₄, -, rfl, rfl, rfl⟩ := hbook
    exact .credit rfl (ensure_eq_ok.mp hpos) (correct_unbilled hm) rfl rfl hfit
  | forcedCapture => exact .of_debited rfl (debit_debited hm) (hdebit _ hbook)
  | overCapture => exact .of_debited rfl (debit_debited hm) (hdebit _ hbook)
  | correctionDebit => exact .of_debited rfl (debit_debited hm) (hdebit _ hbook)
  | returnReversal => exact .of_debited rfl (debit_debited hm) (hdebit _ hbook)
  | unpairedCapture => exact .of_debited rfl (debit_debited hm) (hdebit _ hbook)

variable [Runtime]

/-- **Step.** Between two policies, periods and restores an instruction moves the
counters by what it books. -/
theorem exec_booked {call : Call} (hx : exec s call = .ok s')
    (hk : keepsPeriod call.instr = true) : Booked s s' (bookings call.instr) := by
  have hm := exec_move hx
  have hapart : isApart call.instr.label = true → Booked s s' [] := by
    intro hl
    obtain ⟨hidle, hperiod⟩ := apart_idle hm hl
    have href : s'.period.refundedCents = s.period.refundedCents :=
      congrArg CardPeriod.refundedCents hperiod
    exact .of_idle hidle href
  have hrepay : ∀ d a, call.instr.label = .repay d a → Booked s s' [.repayment a] := by
    intro d a hl
    rw [hl] at hm
    obtain ⟨hout, hrate, hbudget, hperiod⟩ := repay_paid hm
    exact .repay hout hrate hbudget hperiod
  obtain ⟨ctx, instr⟩ := call
  cases instr with
  | authorize key args => exact authorize_booked hx
  | adjustReservation key r n => exact adjustReservation_booked hx
  | capture key r a i => exact capture_booked hx
  | reverse key r a b i =>
    have hnone : bookings (.reverse key r a b i) = [] := by
      simp only [bookings, confirmedStep]
      by_cases hb : b = REVERSE_EXPIRY
      · rw [if_pos hb]
        rfl
      · rw [if_neg hb]
        rfl
    rw [hnone]
    exact reverse_booked hx
  | refund key o a i => exact refund_booked hx
  | recordException key o code a i => exact recordException_booked hx
  | recordRepayment key d a r t m => exact hrepay d a rfl
  | recordPrivateRepayment key d a => exact hrepay d a rfl
  | setPolicy o args first => cases hk
  | rollPeriod key rest => cases hk
  | restore o a args => cases hk
  | wipeCard o rest => cases hk
  | _ => exact hapart rfl

/-- What a run books. -/
def history (s : Card.State) (calls : List Call) : List Booking :=
  Runs.logged exec (fun _ call _ => bookings call.instr) s calls

/-- **Run.** -/
theorem run_booked {calls : List Call}
    (hk : Runs.Along exec (fun _ call _ => keepsPeriod call.instr = true) s calls) :
    Booked s (Runs.after exec s calls) (history s calls) := by
  refine Runs.after_logged (f := fun _ call _ => bookings call.instr)
    (I := fun s' bs => Booked s s' bs) (fun s₁ call s₂ bs hP hx hi => ?_) hk (.refl s)
  exact hi.trans (exec_booked hx hP)

end Instructions

/-! ## Replaying the rows -/

/-- What a row was booked as. -/
def Posting.booking (p : Posting) : Booking := .posting p.kind p.amount

/-- The sums of a list of bookings. -/
def capturedSum (bs : List Booking) : Nat := (bs.map Booking.captured).sum

def refundedSum (bs : List Booking) : Nat := (bs.map Booking.refunded).sum

theorem centsOf_lt (n : Nat) : centsOf n < CENTS_LIMIT := by
  unfold centsOf
  cases h : parseCents n with
  | none => decide
  | some m =>
    obtain ⟨hlt, rfl⟩ := parseCents_eq_some h
    exact hlt

theorem centsOf_of_lt {n : Nat} (h : n < CENTS_LIMIT) : centsOf n = n := by
  unfold centsOf
  rw [parseCents_natCast h]
  rfl

theorem centsOf_le (n : Nat) : centsOf n ≤ n := by
  by_cases h : n < CENTS_LIMIT
  · rw [centsOf_of_lt h]
  · unfold centsOf
    rw [parseCents_natCast_none (Nat.not_lt.mp h)]
    exact Nat.zero_le n

/-- A counter is read back exactly when its text has at most 16 digits. -/
theorem centsOf_eq_iff {n : Nat} : centsOf n = n ↔ n < CENTS_LIMIT := by
  refine ⟨fun h => ?_, centsOf_of_lt⟩
  rw [← h]
  exact centsOf_lt n

section Replay

variable {f : Nat} {p : Posting} {ps : List Posting} {t t' : Tally}

theorem feeCents_eq {a : Nat} (ha : a < CENTS_LIMIT) (hf : f ≤ MAX_FEE_BPS) :
    feeCents a f = feeOf a f ∧ feeOf a f ≤ a := by
  have hlimit : CENTS_LIMIT < 2 ^ 64 := by decide
  have hle : a * f ≤ a * 10000 := Nat.mul_le_mul_left a (hf.trans (by decide))
  have hdiv : a * f / 10000 ≤ a := Nat.div_le_of_le_mul (by omega)
  refine ⟨Nat.mod_eq_of_lt ?_, hdiv⟩
  omega

/-- One row moves the tally as its booking moved the program's counters. -/
theorem post_ok (hf : f ≤ MAX_FEE_BPS) (hrate : p.feeBps.getD f = f)
    (hp : t.post f p = .ok t') :
    p.amount < CENTS_LIMIT ∧ t'.captured = t.captured + p.booking.captured ∧
      t'.refunded = t.refunded + p.booking.refunded ∧
      t'.outstanding = floorStep t.outstanding (p.booking.delta f) := by
  simp only [Tally.post, bind_eq_ok, okOr_eq_ok, plus_eq_ok, hrate] at hp
  obtain ⟨_, hamount, _, ⟨-, rfl⟩, hp⟩ := hp
  obtain ⟨hlt, rfl⟩ := parseCents_eq_some hamount
  obtain ⟨hfee, -⟩ := feeCents_eq hlt hf
  rw [hfee] at hp
  unfold Posting.booking
  cases hkind : p.kind with
  | purchase =>
    simp only [hkind, bind_eq_ok, plus_eq_ok, pure_eq_ok] at hp
    obtain ⟨_, ⟨-, rfl⟩, _, ⟨-, rfl⟩, rfl⟩ := hp
    exact ⟨hlt, rfl, rfl, (floorStep_add _ _).symm⟩
  | adjustmentDebit =>
    simp only [hkind, bind_eq_ok, plus_eq_ok, pure_eq_ok] at hp
    obtain ⟨_, ⟨-, rfl⟩, _, ⟨-, rfl⟩, _, ⟨-, rfl⟩, rfl⟩ := hp
    exact ⟨hlt, rfl, rfl, (floorStep_add _ _).symm⟩
  | refund =>
    simp only [hkind, bind_eq_ok, plus_eq_ok, pure_eq_ok] at hp
    obtain ⟨_, ⟨-, rfl⟩, rfl⟩ := hp
    exact ⟨hlt, rfl, rfl, (floorStep_sub _ _).symm⟩
  | adjustmentCredit =>
    simp only [hkind, bind_eq_ok, plus_eq_ok, pure_eq_ok] at hp
    obtain ⟨_, ⟨-, rfl⟩, rfl⟩ := hp
    exact ⟨hlt, rfl, rfl, (floorStep_sub _ _).symm⟩

theorem postAll_ok (hf : f ≤ MAX_FEE_BPS) (hrate : ∀ p ∈ ps, p.feeBps.getD f = f)
    (hp : t.postAll f ps = .ok t') :
    (∀ p ∈ ps, p.amount < CENTS_LIMIT) ∧
      t'.captured = t.captured + capturedSum (ps.map Posting.booking) ∧
      t'.refunded = t.refunded + refundedSum (ps.map Posting.booking) ∧
      t'.outstanding = floorWalk t.outstanding ((ps.map Posting.booking).map (Booking.delta f)) := by
  induction ps generalizing t with
  | nil =>
    cases hp
    exact ⟨nofun, rfl, rfl, rfl⟩
  | cons p ps ih =>
    simp only [Tally.postAll, bind_eq_ok] at hp
    obtain ⟨t₁, h₁, hp⟩ := hp
    obtain ⟨hlt, hcap, href, hout⟩ := post_ok hf (hrate p List.mem_cons_self) h₁
    obtain ⟨hall, hcap', href', hout'⟩ := ih (fun q hq => hrate q (List.mem_cons_of_mem p hq)) hp
    refine ⟨?_, ?_, ?_, ?_⟩
    · intro q hq
      rcases List.mem_cons.mp hq with rfl | hq
      · exact hlt
      · exact hall q hq
    · rw [hcap', hcap]
      simp only [capturedSum, List.map_cons, List.sum_cons, Nat.add_assoc]
    · rw [href', href]
      simp only [refundedSum, List.map_cons, List.sum_cons, Nat.add_assoc]
    · rw [hout', hout]
      rfl

/-- A row that can be read replays, as long as the sums stay inside 64 bits. -/
theorem post_exists (hf : f ≤ MAX_FEE_BPS) (hrate : p.feeBps.getD f = f)
    (hlt : p.amount < CENTS_LIMIT) (hcap : t.captured + p.booking.captured < 2 ^ 64)
    (href : t.refunded + p.booking.refunded < 2 ^ 64)
    (hexc : t.exception + p.booking.captured < 2 ^ 64)
    (hout : t.outstanding + 2 * p.booking.captured < 2 ^ 64) :
    ∃ t', t.post f p = .ok t' ∧ t'.exception ≤ t.exception + p.booking.captured ∧
      t'.outstanding ≤ t.outstanding + 2 * p.booking.captured := by
  have hlimit : CENTS_LIMIT * 2 < 2 ^ 64 := by decide
  obtain ⟨hfee, hsmall⟩ := feeCents_eq hlt hf
  have hread : okOr (parseCents p.amount) RestoreError.internal = .ok p.amount :=
    okOr_eq_ok.mpr (parseCents_natCast hlt)
  have hgross : plus p.amount (feeOf p.amount f) = .ok (p.amount + feeOf p.amount f) :=
    plus_eq_ok.mpr ⟨by omega, rfl⟩
  unfold Tally.post
  rw [hread, hrate, ok_bind, hfee, hgross, ok_bind]
  cases hkind : p.kind with
  | purchase =>
    have hb : p.booking.captured = p.amount := by simp [Posting.booking, hkind, Booking.captured,
      PostingKind.isCredit]
    rw [hb] at hcap hout ⊢
    have h₁ := plus_eq_ok.mpr ⟨hcap, rfl⟩
    have h₂ : plus t.outstanding (p.amount + feeOf p.amount f) = .ok _ :=
      plus_eq_ok.mpr ⟨by omega, rfl⟩
    simp only [h₁, h₂, ok_bind]
    exact ⟨_, rfl, Nat.le_add_right _ _, by simp only; omega⟩
  | adjustmentDebit =>
    have hb : p.booking.captured = p.amount := by simp [Posting.booking, hkind, Booking.captured,
      PostingKind.isCredit]
    rw [hb] at hcap hout hexc ⊢
    have h₁ := plus_eq_ok.mpr ⟨hcap, rfl⟩
    have h₂ := plus_eq_ok.mpr ⟨hexc, rfl⟩
    have h₃ : plus t.outstanding (p.amount + feeOf p.amount f) = .ok _ :=
      plus_eq_ok.mpr ⟨by omega, rfl⟩
    simp only [h₁, h₂, h₃, ok_bind]
    exact ⟨_, rfl, Nat.le_refl _, by simp only; omega⟩
  | refund =>
    have hb : p.booking.refunded = p.amount := by simp [Posting.booking, hkind, Booking.refunded,
      PostingKind.isCredit]
    rw [hb] at href
    have h₁ := plus_eq_ok.mpr ⟨href, rfl⟩
    simp only [h₁, ok_bind]
    exact ⟨_, rfl, Nat.le_add_right _ _, by simp only; omega⟩
  | adjustmentCredit =>
    have hb : p.booking.refunded = p.amount := by simp [Posting.booking, hkind, Booking.refunded,
      PostingKind.isCredit]
    rw [hb] at href
    have h₁ := plus_eq_ok.mpr ⟨href, rfl⟩
    simp only [h₁, ok_bind]
    exact ⟨_, rfl, Nat.le_add_right _ _, by simp only; omega⟩

theorem postAll_exists (hf : f ≤ MAX_FEE_BPS) (hrate : ∀ p ∈ ps, p.feeBps.getD f = f)
    (hread : ∀ p ∈ ps, p.amount < CENTS_LIMIT)
    (hcap : t.captured + capturedSum (ps.map Posting.booking) < 2 ^ 64)
    (href : t.refunded + refundedSum (ps.map Posting.booking) < 2 ^ 64)
    (hexc : t.exception + capturedSum (ps.map Posting.booking) < 2 ^ 64)
    (hout : t.outstanding + 2 * capturedSum (ps.map Posting.booking) < 2 ^ 64) :
    ∃ t', t.postAll f ps = .ok t' := by
  induction ps generalizing t with
  | nil => exact ⟨t, rfl⟩
  | cons p ps ih =>
    simp only [capturedSum, refundedSum, List.map_cons, List.sum_cons] at hcap href hexc hout
    have hp := hrate p List.mem_cons_self
    obtain ⟨t₁, h₁, hexc₁, hout₁⟩ := post_exists hf hp (hread p List.mem_cons_self)
      (by omega : t.captured + p.booking.captured < 2 ^ 64) (by omega) (by omega) (by omega)
    obtain ⟨-, hcap₁, href₁, -⟩ := post_ok hf hp h₁
    obtain ⟨t', h'⟩ := ih (t := t₁) (fun q hq => hrate q (List.mem_cons_of_mem p hq))
      (fun q hq => hread q (List.mem_cons_of_mem p hq))
      (by simp only [capturedSum]; omega) (by simp only [refundedSum]; omega)
      (by simp only [capturedSum]; omega) (by simp only [capturedSum]; omega)
    exact ⟨t', by rw [Tally.postAll, h₁, ok_bind, h']⟩

end Replay

/-- What the open rows hold. -/
def heldCents (txns : List TxnRow) : Nat :=
  ((txns.filter TxnRow.isHeld).map fun r => centsOf r.txn.reservedCents).sum

theorem sumHeld_exists {txns : List TxnRow} {n : Nat} (h : n + heldCents txns < 2 ^ 64) :
    ∃ m, sumHeld txns n = .ok m := by
  induction txns generalizing n with
  | nil => exact ⟨n, rfl⟩
  | cons r rest ih =>
    unfold sumHeld
    unfold heldCents at h
    by_cases hr : r.isHeld = true
    · rw [List.filter_cons_of_pos hr, List.map_cons, List.sum_cons] at h
      have h₁ : plus n (centsOf r.txn.reservedCents) = .ok _ := plus_eq_ok.mpr ⟨by omega, rfl⟩
      rw [if_pos hr, h₁, ok_bind]
      exact ih (by unfold heldCents; omega)
    · rw [List.filter_cons_of_neg hr] at h
      rw [if_neg hr]
      exact ih h

/-! ## The stored history -/

/-- Gathering by key finds every row once. -/
theorem flatMap_filter_perm {α κ : Type} [DecidableEq κ] (key : α → κ) {ks : List κ}
    (hnd : ks.Nodup) (xs : List α) (h : ∀ x ∈ xs, key x ∈ ks) :
    (ks.flatMap fun k => xs.filter fun x => decide (key x = k)).Perm xs := by
  induction ks generalizing xs with
  | nil =>
    cases xs with
    | nil => exact .nil
    | cons x xs => cases h x List.mem_cons_self
  | cons k ks ih =>
    obtain ⟨hk, hnd⟩ := List.nodup_cons.mp hnd
    -- under the later keys, only rows with another key than `k` are found
    have hrest : (ks.flatMap fun k' => xs.filter fun x => decide (key x = k')) =
        ks.flatMap fun k' => (xs.filter fun x => !decide (key x = k)).filter
          fun x => decide (key x = k') := by
      refine List.flatMap_congr fun k' hk' => ?_
      rw [List.filter_filter]
      refine List.filter_congr fun x _ => ?_
      by_cases hx : key x = k'
      · have hne : key x ≠ k := fun he => hk ((he.symm.trans hx) ▸ hk')
        simp [hx, hx ▸ hne]
      · simp [hx]
    rw [List.flatMap_cons, hrest]
    refine (List.Perm.append_left _ (ih hnd _ fun x hx => ?_)).trans (List.filter_append_perm _ xs)
    obtain ⟨hx, hne⟩ := List.mem_filter.mp hx
    rcases List.mem_cons.mp (h x hx) with he | hmem
    · simp [he] at hne
    · exact hmem

def repayments (bs : List Booking) : List Nat :=
  bs.filterMap fun
    | .posting .. => none
    | .repayment a => some a

/-- A booking with the time and the event id of its row. -/
structure Filed where
  booking : Booking
  postedAt : Nat
  id : Hash
  deriving DecidableEq, Repr

def filedOf (r : PostingRow) : Filed := ⟨r.2.value.booking, r.2.value.postedAt, r.1⟩

def Filed.isPosting (x : Filed) : Bool := x.booking.isPosting

/-- The rows are those of the history: one posting for each booking, at the rate of the
snapshot or with none, and one discharged statement for each repayment, of an amount the
database takes. Transaction rows mirror the rollup, whose own sum of holds has 64 bits. -/
structure Stored (feeBps takenAt : Nat) (hist : List Filed) (rows : CardRows) : Prop where
  filed : ∀ r ∈ rows.postings, r.2.value.statementSeq ∈ postingReferences rows.nextSeq
  distinct : (rows.postings.map Prod.fst).Nodup
  postings : ((rows.postings.filter (isPostedAfter takenAt)).map filedOf).Perm
    (hist.filter Filed.isPosting)
  rates : ∀ r ∈ rows.postings, takenAt < r.2.value.postedAt → r.2.value.feeBps.getD feeBps = feeBps
  discharged : (((rows.statements.filter fun d => d.isAfter takenAt).map Discharge.cents).filter
    fun a => decide (0 < a)).Perm (repayments (hist.map Filed.booking))
  taken : ∀ d ∈ rows.statements, d.cents < CENTS_LIMIT
  held : heldCents (rows.events.filterMap EventRow.txn) < 2 ^ 64

/-- The postings after the snapshot that no page holds. -/
def CardRows.unlisted (rows : CardRows) (takenAt : Nat) : List PostingRow :=
  ((postingReferences rows.nextSeq).flatMap fun ref =>
    Pages.leftOut updatedOf PAGE (rows.under ref)).filter (isPostedAfter takenAt)

/-- What the statements discharged after the snapshot that no page holds have repaid. -/
def CardRows.unlistedRepaid (rows : CardRows) (takenAt : Nat) : Nat :=
  (((Pages.leftOut Discharge.updated PAGE rows.statements).filter fun d =>
    d.isAfter takenAt).map Discharge.cents).sum

theorem postingReferences_nodup (n : Option Nat) : (postingReferences n).Nodup := by
  unfold postingReferences
  rw [List.nodup_cons]
  refine ⟨?_, (List.nodup_range' (n := n.getD 1 - 1)).map (Option.some_injective Nat)⟩
  simp

/-! ### What the pages hold -/

section Stored

variable {f takenAt : Nat} {hist : List Filed} {rows : CardRows}

theorem page_size : 0 < PAGE := by decide

/-- Recovery finds the postings of the history but those no page holds. -/
theorem Stored.postedAfter_perm (h : Stored f takenAt hist rows) :
    (rows.postedAfter takenAt ++ rows.unlisted takenAt).Perm
      (rows.postings.filter (isPostedAfter takenAt)) := by
  have hrefs : ((postingReferences rows.nextSeq).flatMap fun ref => rows.under ref).Perm
      rows.postings :=
    flatMap_filter_perm (fun r : PostingRow => r.2.value.statementSeq)
      (postingReferences_nodup _) _ h.filed
  have hpages := (List.flatMap_append_perm (postingReferences rows.nextSeq)
      (fun ref => Pages.all updatedOf PAGE (rows.under ref))
      fun ref => Pages.leftOut updatedOf PAGE (rows.under ref)).trans
    (List.Perm.flatMap_left _ fun ref _ => Pages.all_perm page_size (rows.under ref))
  have hafter := (hpages.trans hrefs).filter (isPostedAfter takenAt)
  rw [List.filter_append] at hafter
  exact ((List.perm_insertionSort _ _).append_right _).trans hafter

theorem Stored.postedAfter_mem (h : Stored f takenAt hist rows) {r : PostingRow}
    (hr : r ∈ rows.postedAfter takenAt) : r ∈ rows.postings ∧ takenAt < r.2.value.postedAt := by
  obtain ⟨hmem, hafter⟩ := List.mem_filter.mp
    (h.postedAfter_perm.mem_iff.mp (List.mem_append_left _ hr))
  exact ⟨hmem, of_decide_eq_true hafter⟩

theorem Stored.read_rates (h : Stored f takenAt hist rows) :
    ∀ p ∈ (rows.postedAfter takenAt).map fun r => r.2.value, p.feeBps.getD f = f := by
  intro p hp
  obtain ⟨r, hr, rfl⟩ := List.mem_map.mp hp
  obtain ⟨hmem, hafter⟩ := h.postedAfter_mem hr
  exact h.rates r hmem hafter

/-- A sum over the postings of the history, in the part recovery finds and the rest. -/
theorem Stored.sum_split (h : Stored f takenAt hist rows) (g : Booking → Nat)
    (hg : ∀ a, g (.repayment a) = 0) :
    ((rows.postedAfter takenAt).map fun r => g r.2.value.booking).sum +
        ((rows.unlisted takenAt).map fun r => g r.2.value.booking).sum =
      ((hist.map Filed.booking).map g).sum := by
  have hrows := h.postedAfter_perm.map fun r => g r.2.value.booking
  have hhist := h.postings.map fun x => g x.booking
  rw [List.map_map] at hhist
  have hall : ∀ xs : List Filed, ((xs.filter Filed.isPosting).map fun x => g x.booking).sum =
      ((xs.map Filed.booking).map g).sum := by
    intro xs
    induction xs with
    | nil => rfl
    | cons x xs ih =>
      rw [List.map_cons, List.map_cons, List.sum_cons, ← ih]
      obtain ⟨booking, t, id⟩ := x
      cases booking with
      | posting kind a => rw [List.filter_cons_of_pos rfl, List.map_cons, List.sum_cons]
      | repayment a =>
        rw [List.filter_cons_of_neg (by simp [Filed.isPosting, Booking.isPosting]), hg,
          Nat.zero_add]
  rw [← hall, ← hhist.sum_eq, ← List.sum_append, ← List.map_append, hrows.sum_eq]
  rfl

/-- Earliest first, then by event id. -/
def Filed.earlier (a b : Filed) : Prop :=
  a.postedAt < b.postedAt ∨ (a.postedAt = b.postedAt ∧ a.id.toNat ≤ b.id.toNat)

instance : DecidableRel Filed.earlier := fun _ _ => inferInstanceAs (Decidable (_ ∨ _))

instance : Std.Total oldestPosted where
  total a b := by
    unfold oldestPosted
    omega

instance : IsTrans PostingRow oldestPosted where
  trans a b c hab hbc := by
    unfold oldestPosted at *
    omega

instance : Std.Total Filed.earlier where
  total a b := by
    unfold Filed.earlier
    omega

instance : IsTrans Filed Filed.earlier where
  trans a b c hab hbc := by
    unfold Filed.earlier at *
    omega

/-- When the pages hold them all, recovery replays the postings of the history by the times
of their rows. -/
theorem Stored.replayed (h : Stored f takenAt hist rows) (hlisted : rows.unlisted takenAt = []) :
    (rows.postedAfter takenAt).map filedOf =
      (hist.filter Filed.isPosting).insertionSort Filed.earlier := by
  have hperm := h.postedAfter_perm
  rw [hlisted, List.append_nil] at hperm
  have hids : (((rows.postedAfter takenAt).map filedOf).map Filed.id).Nodup := by
    have hsub : ((rows.postings.filter (isPostedAfter takenAt)).map Prod.fst).Nodup :=
      h.distinct.sublist (List.filter_sublist.map _)
    rw [List.map_map]
    exact (hperm.map Prod.fst).nodup_iff.mpr hsub
  have hsorted : ((rows.postedAfter takenAt).map filedOf).Pairwise Filed.earlier :=
    List.pairwise_map.mpr (List.pairwise_insertionSort oldestPosted _)
  have hsame : ((rows.postedAfter takenAt).map filedOf).Perm
      ((hist.filter Filed.isPosting).insertionSort Filed.earlier) :=
    ((hperm.map filedOf).trans h.postings).trans (List.perm_insertionSort _ _).symm
  refine List.Perm.eq_of_pairwise ?_ hsorted (List.pairwise_insertionSort _ _) hsame
  intro a b ha hb hab hba
  refine List.inj_on_of_nodup_map hids ha (hsame.mem_iff.mpr hb) ?_
  unfold Filed.earlier at hab hba
  exact BitVec.eq_of_toNat_eq (by omega)

end Stored

/-! ## Sums -/

/-- The change of the balance is that of the postings, less the repayments. -/
theorem delta_sum (f : Nat) (bs : List Booking) :
    (bs.map (Booking.delta f)).sum =
      ((bs.filter Booking.isPosting).map (Booking.delta f)).sum - (repayments bs).sum := by
  induction bs with
  | nil => rfl
  | cons b bs ih =>
    cases b with
    | posting kind a =>
      have hp : repayments (.posting kind a :: bs) = repayments bs := rfl
      rw [List.filter_cons_of_pos rfl, List.map_cons, List.sum_cons, List.map_cons, List.sum_cons,
        ih, hp]
      omega
    | repayment a =>
      have hp : repayments (.repayment a :: bs) = a :: repayments bs := rfl
      have hd : Booking.delta f (.repayment a) = -(a : Int) := rfl
      rw [List.filter_cons_of_neg (by simp [Booking.isPosting]), List.map_cons, List.sum_cons, ih,
        hp, List.sum_cons, hd]
      push_cast
      omega

/-- The part of a number that its text loses when it has more than 16 digits. -/
def unread (n : Nat) : Nat := n - centsOf n

theorem centsOf_add_unread (n : Nat) : centsOf n + unread n = n := by
  have := centsOf_le n
  unfold unread
  omega

/-- What recovery reads of the repayments, with what no page holds, is all of them. -/
theorem Stored.repaid_sum {f takenAt : Nat} {hist : List Filed} {rows : CardRows}
    (h : Stored f takenAt hist rows) :
    (repaidAfter (Pages.all Discharge.updated PAGE rows.statements) takenAt).sum +
        rows.unlistedRepaid takenAt = (repayments (hist.map Filed.booking)).sum := by
  have hpages : (Pages.all Discharge.updated PAGE rows.statements ++
      Pages.leftOut Discharge.updated PAGE rows.statements).Perm rows.statements :=
    Pages.all_perm page_size rows.statements
  have hpositive : ∀ as : List Nat, (as.filter fun a => decide (0 < a)).sum = as.sum := by
    intro as
    induction as with
    | nil => rfl
    | cons a as ih =>
      by_cases ha : 0 < a
      · rw [List.filter_cons_of_pos (by simpa using ha), List.sum_cons, List.sum_cons, ih]
      · rw [List.filter_cons_of_neg (by simpa using ha), List.sum_cons, ih]
        omega
  have hread : repaidAfter (Pages.all Discharge.updated PAGE rows.statements) takenAt =
      ((Pages.all Discharge.updated PAGE rows.statements).filter fun d => d.isAfter takenAt).map
        Discharge.cents := by
    refine List.map_congr_left fun d hd => centsOf_of_lt (h.taken d ?_)
    exact hpages.mem_iff.mp (List.mem_append_left _ (List.mem_of_mem_filter hd))
  rw [← h.discharged.sum_eq, hpositive, hread, CardRows.unlistedRepaid, ← List.sum_append,
    ← List.map_append, ← List.filter_append]
  exact ((hpages.filter _).map _).sum_eq

theorem foldl_sub_eq (x : Nat) (as : List Nat) : as.foldl (fun o a => o - a) x = x - as.sum := by
  induction as generalizing x with
  | nil => rfl
  | cons a as ih =>
    rw [List.foldl_cons, ih, List.sum_cons]
    omega

/-- The changes of the balance with the postings first, by the times of their rows, and
then what was repaid. -/
def postingsFirst (feeBps : Nat) (hist : List Filed) (repaid : Nat) : List Int :=
  ((hist.filter Filed.isPosting).insertionSort Filed.earlier).map
    (fun x => x.booking.delta feeBps) ++ [-(repaid : Int)]

/-! ## Limits -/

theorem Limited.move {signers : List Pubkey} {c c' : Credit} {l : Label}
    (hl : Credit.Limited c.terms) (hm : Move signers c l c') : Credit.Limited c'.terms := by
  cases hm with
  | terms _ _ _ _ _ _ hlim => exact hlim
  | wipe _ _ _ _ hlim => exact hlim
  | restore _ _ _ _ _ _ _ hlim => exact hlim
  | roll _ hexp _ _ _ =>
    rw [(Credit.Expire.frame hexp).1]
    exact hl
  | _ => exact hl

theorem run_limited [Runtime] {s : Card.State} (hs : Fresh s) (calls : List Call) :
    Credit.Limited (Runs.after exec s calls).policy.terms :=
  run_inv (I := fun c => Credit.Limited c.terms) (fun _ _ _ _ hm hl => Limited.move hl hm)
    (Runs.along_true s calls) hs.capped.limited

/-! ## When the numbers are exact -/

/-- What the repayments of a history come to. -/
def repaidCents (hist : List Filed) : Nat := (repayments (hist.map Filed.booking)).sum

/-- Every number that counts can be read, every posting stands on a page, and the plain
running balance dips equally far below zero in the order of the program and with the
postings first. A repayment whose statement stands on no page is missing from the second
order, and an outstanding balance of more than 16 digits is read as zero: the two dips then
differ by what is lost. -/
structure Recoverable (s : Card.State) (hist : List Filed) (rows : CardRows) (takenAt : Nat) :
    Prop where
  captured : s.period.capturedCents < CENTS_LIMIT
  refunded : s.period.refundedCents < CENTS_LIMIT
  amounts : ∀ kind a, .posting kind a ∈ hist.map Filed.booking → a < CENTS_LIMIT
  listed : rows.unlisted takenAt = []
  dips : dip s.policy.statementOutstandingCents
        ((hist.map Filed.booking).map (Booking.delta s.policy.feeBps)) +
      unread s.policy.statementOutstandingCents =
    dip (centsOf s.policy.statementOutstandingCents)
        (postingsFirst s.policy.feeBps hist (repaidCents hist - rows.unlistedRepaid takenAt)) +
      rows.unlistedRepaid takenAt

section Exact

variable {s s' : Card.State} {takenAt : Nat} {hist : List Filed} {rows : CardRows}

/-- Both ends of the walk, as plain sums and dips. -/
theorem walks_iff (hst : Stored s.policy.feeBps takenAt hist rows) :
    floorWalk (centsOf s.policy.statementOutstandingCents)
        (postingsFirst s.policy.feeBps hist (repaidCents hist - rows.unlistedRepaid takenAt)) =
      floorWalk s.policy.statementOutstandingCents
        ((hist.map Filed.booking).map (Booking.delta s.policy.feeBps)) ↔
    dip s.policy.statementOutstandingCents
          ((hist.map Filed.booking).map (Booking.delta s.policy.feeBps)) +
        unread s.policy.statementOutstandingCents =
      dip (centsOf s.policy.statementOutstandingCents)
          (postingsFirst s.policy.feeBps hist (repaidCents hist - rows.unlistedRepaid takenAt)) +
        rows.unlistedRepaid takenAt := by
  have hprogram := floorWalk_eq s.policy.statementOutstandingCents
    ((hist.map Filed.booking).map (Booking.delta s.policy.feeBps))
  have hrecovery := floorWalk_eq (centsOf s.policy.statementOutstandingCents)
    (postingsFirst s.policy.feeBps hist (repaidCents hist - rows.unlistedRepaid takenAt))
  have hsum : (postingsFirst s.policy.feeBps hist
      (repaidCents hist - rows.unlistedRepaid takenAt)).sum =
      (((hist.map Filed.booking).filter Booking.isPosting).map
        (Booking.delta s.policy.feeBps)).sum -
          ((repaidCents hist - rows.unlistedRepaid takenAt : Nat) : Int) := by
    unfold postingsFirst
    rw [List.sum_append, List.sum_singleton,
      ((List.perm_insertionSort _ _).map fun x : Filed =>
        x.booking.delta s.policy.feeBps).sum_eq, List.filter_map, List.map_map]
    rfl
  have hrepaid := hst.repaid_sum
  have hread := centsOf_add_unread s.policy.statementOutstandingCents
  rw [delta_sum] at hprogram
  rw [hsum] at hrecovery
  unfold repaidCents at *
  omega

/-- The numbers recovery computes, when it returns. -/
theorem restored_ok (hf : s.policy.feeBps ≤ MAX_FEE_BPS)
    (hst : Stored s.policy.feeBps takenAt hist rows) {r : Restored}
    (hr : restoredNumbers rows (snapshot s takenAt) = .ok r) :
    (∀ x ∈ rows.postedAfter takenAt, x.2.value.amount < CENTS_LIMIT) ∧
      r.capturedCents = centsOf s.period.capturedCents +
        ((rows.postedAfter takenAt).map fun x => x.2.value.booking.captured).sum ∧
      r.refundedCents = centsOf s.period.refundedCents +
        ((rows.postedAfter takenAt).map fun x => x.2.value.booking.refunded).sum ∧
      (rows.unlisted takenAt = [] → r.statementOutstandingCents =
        floorWalk (centsOf s.policy.statementOutstandingCents)
          (postingsFirst s.policy.feeBps hist
            (repaidCents hist - rows.unlistedRepaid takenAt))) := by
  simp only [restoredNumbers, bind_eq_ok, pure_eq_ok] at hr
  obtain ⟨t, ht, _, -, rfl⟩ := hr
  obtain ⟨hread, hcap, href, hout⟩ := postAll_ok hf hst.read_rates ht
  simp only [capturedSum, refundedSum, List.map_map] at hcap href hout
  refine ⟨fun x hx => hread _ (List.mem_map_of_mem hx), hcap, href, fun hlisted => ?_⟩
  have hseen : (repaidAfter (Pages.all Discharge.updated PAGE rows.statements) takenAt).sum =
      repaidCents hist - rows.unlistedRepaid takenAt := by
    have hrepaid := hst.repaid_sum
    unfold repaidCents
    omega
  have hbooked : (rows.postedAfter takenAt).map
      ((Booking.delta s.policy.feeBps ∘ Posting.booking) ∘ fun x => x.2.value) =
      ((hist.filter Filed.isPosting).insertionSort Filed.earlier).map fun x =>
        x.booking.delta s.policy.feeBps := by
    rw [← hst.replayed hlisted, List.map_map]
    rfl
  change (repaidAfter (Pages.all Discharge.updated PAGE rows.statements) takenAt).foldl _ _ = _
  rw [foldl_sub_eq, hseen, hout, postingsFirst, floorWalk_append, ← hbooked]
  exact (floorStep_sub _ _).symm

theorem txns_held (hst : Stored s.policy.feeBps takenAt hist rows) :
    heldCents rows.txns < 2 ^ 64 := by
  have hsub : rows.txns.Subperm (rows.events.filterMap EventRow.txn) := by
    have hall : (Pages.all EventRow.updated PAGE rows.events).Subperm rows.events :=
      Pages.all_subperm page_size rows.events
    obtain ⟨l, hl, hle⟩ := hall
    exact ⟨_, hl.filterMap EventRow.txn, hle.filterMap EventRow.txn⟩
  obtain ⟨l, hl, hle⟩ := hsub
  have hsum : ∀ xs ys : List TxnRow, xs.Sublist ys → heldCents xs ≤ heldCents ys := by
    intro xs ys h
    exact ((h.filter _).map _).sum_le_sum fun _ _ => Nat.zero_le _
  have hperm : heldCents l = heldCents rows.txns := ((hl.filter _).map _).sum_eq
  exact hperm ▸ Nat.lt_of_le_of_lt (hsum _ _ hle) hst.held

/-- Recovery returns when every amount can be read. -/
theorem restored_exists (hlim : Credit.Limited s.policy.terms)
    (hb : Booked s s' (hist.map Filed.booking)) (hst : Stored s.policy.feeBps takenAt hist rows)
    (hrefunded : s.period.refundedCents < CENTS_LIMIT)
    (hread : ∀ kind a, .posting kind a ∈ hist.map Filed.booking → a < CENTS_LIMIT) :
    ∃ r, restoredNumbers rows (snapshot s takenAt) = .ok r := by
  have hcap := hst.sum_split Booking.captured fun _ => rfl
  have href := hst.sum_split Booking.refunded fun _ => rfl
  -- what is billed after the snapshot stays within the budget
  have hbudget : s.policy.budgetCents ≤ MAX_BUDGET_CENTS := hlim.1
  have hmax : MAX_BUDGET_CENTS = 1000000 := rfl
  have hlimit : CENTS_LIMIT = 10000000000000000 := rfl
  have hcaptured := hb.captured
  have hwithin := hb.within
  have hrefs := hb.refunded
  have hfits := hb.fits
  have hc := centsOf_lt s.period.capturedCents
  have he := centsOf_lt s.period.exceptionCents
  have ho := centsOf_lt s.policy.statementOutstandingCents
  have hr := centsOf_of_lt hrefunded
  have hamounts : ∀ p ∈ (rows.postedAfter takenAt).map fun r => r.2.value,
      p.amount < CENTS_LIMIT := by
    intro p hp
    obtain ⟨r, hr, rfl⟩ := List.mem_map.mp hp
    have hin := hst.postedAfter_perm.mem_iff.mp (List.mem_append_left _ hr)
    have hfiled := List.mem_of_mem_filter (hst.postings.mem_iff.mp (List.mem_map_of_mem hin))
    exact hread _ _ (List.mem_map_of_mem (f := Filed.booking) hfiled)
  have hcapSum : capturedSum (((rows.postedAfter takenAt).map fun r => r.2.value).map
      Posting.booking) =
      ((rows.postedAfter takenAt).map fun r => r.2.value.booking.captured).sum := by
    simp only [capturedSum, List.map_map]
    rfl
  have hrefSum : refundedSum (((rows.postedAfter takenAt).map fun r => r.2.value).map
      Posting.booking) =
      ((rows.postedAfter takenAt).map fun r => r.2.value.booking.refunded).sum := by
    simp only [refundedSum, List.map_map]
    rfl
  obtain ⟨t, ht⟩ := postAll_exists (t := ⟨centsOf s.period.capturedCents,
      centsOf s.period.refundedCents, centsOf s.period.exceptionCents,
      centsOf s.policy.statementOutstandingCents, 0⟩) hlim.2 hst.read_rates hamounts
    (by rw [hcapSum]; simp only; omega) (by rw [hrefSum]; simp only; omega)
    (by rw [hcapSum]; simp only; omega) (by rw [hcapSum]; simp only; omega)
  have hheld := txns_held hst
  obtain ⟨m, hm⟩ : ∃ m, sumHeld rows.txns 0 = .ok m := sumHeld_exists (by omega)
  simp only [restoredNumbers, bind_eq_ok, pure_eq_ok]
  exact ⟨_, t, ht, m, hm, rfl⟩

/-- A posting no page holds is missing from the captured or from the refunded cents. -/
theorem unlisted_nil (hb : Booked s s' (hist.map Filed.booking))
    (hst : Stored s.policy.feeBps takenAt hist rows)
    (hcap : ((rows.unlisted takenAt).map fun r => r.2.value.booking.captured).sum = 0)
    (href : ((rows.unlisted takenAt).map fun r => r.2.value.booking.refunded).sum = 0) :
    rows.unlisted takenAt = [] := by
  refine List.eq_nil_iff_forall_not_mem.mpr fun r hr => ?_
  have hin := hst.postedAfter_perm.mem_iff.mp (List.mem_append_right _ hr)
  have hfiled := List.mem_of_mem_filter (hst.postings.mem_iff.mp (List.mem_map_of_mem hin))
  have hpos : 0 < r.2.value.amount :=
    hb.positive r.2.value.kind _ (List.mem_map_of_mem (f := Filed.booking) hfiled)
  have hcaptured := List.sum_eq_zero_iff_forall_eq_nat.mp hcap _ (List.mem_map_of_mem hr)
  have hrefunded := List.sum_eq_zero_iff_forall_eq_nat.mp href _ (List.mem_map_of_mem hr)
  simp only [Posting.booking, Booking.captured, Booking.refunded] at hcaptured hrefunded
  cases hkind : r.2.value.kind.isCredit with
  | true =>
    rw [hkind, if_pos rfl] at hrefunded
    omega
  | false =>
    rw [hkind, if_neg Bool.false_ne_true] at hcaptured
    omega

/-- **Exact numbers.** -/
theorem restored_iff (hlim : Credit.Limited s.policy.terms)
    (hb : Booked s s' (hist.map Filed.booking)) (hst : Stored s.policy.feeBps takenAt hist rows) :
    (∃ r, restoredNumbers rows (snapshot s takenAt) = .ok r ∧
      r.capturedCents = s'.period.capturedCents ∧ r.refundedCents = s'.period.refundedCents ∧
      r.statementOutstandingCents = s'.policy.statementOutstandingCents) ↔
    Recoverable s hist rows takenAt := by
  have hcapSplit := hst.sum_split Booking.captured fun _ => rfl
  have hrefSplit := hst.sum_split Booking.refunded fun _ => rfl
  have hcaptured := hb.captured
  have hrefunded := hb.refunded
  have hcapLe := centsOf_le s.period.capturedCents
  have hrefLe := centsOf_le s.period.refundedCents
  constructor
  · rintro ⟨r, hr, hcap, href, hout⟩
    obtain ⟨hread, hcap', href', hout'⟩ := restored_ok hlim.2 hst hr
    have hlisted : rows.unlisted takenAt = [] := unlisted_nil hb hst (by omega) (by omega)
    refine ⟨centsOf_eq_iff.mp (by omega), centsOf_eq_iff.mp (by omega), ?_, hlisted, ?_⟩
    · intro kind a hmem
      obtain ⟨x, hx, hbooking⟩ := List.mem_map.mp hmem
      have hperm := hst.postedAfter_perm
      rw [hlisted, List.append_nil] at hperm
      have hposted : x ∈ (rows.postedAfter takenAt).map filedOf := by
        refine ((hperm.map filedOf).trans hst.postings).mem_iff.mpr (List.mem_filter.mpr ⟨hx, ?_⟩)
        rw [Filed.isPosting, hbooking]
        rfl
      obtain ⟨row, hrow, rfl⟩ := List.mem_map.mp hposted
      have hlt := hread row hrow
      cases hbooking
      exact hlt
    · rw [hb.outstanding, hout' hlisted] at hout
      exact (walks_iff hst).mp hout
  · intro h
    obtain ⟨r, hr⟩ := restored_exists hlim hb hst h.refunded h.amounts
    obtain ⟨-, hcap, href, hout⟩ := restored_ok hlim.2 hst hr
    simp only [h.listed, List.map_nil, List.sum_nil, Nat.add_zero] at hcapSplit hrefSplit
    refine ⟨r, hr, ?_, ?_, ?_⟩
    · rw [hcap, hcapSplit, hcaptured, centsOf_of_lt h.captured]
    · rw [href, hrefSplit, hrefunded, centsOf_of_lt h.refunded]
    · rw [hout h.listed, hb.outstanding]
      exact (walks_iff hst).mpr h.dips

end Exact

/-- **Recovery numbers.** A snapshot of any card, and any later history within the period
that the stored rows record: the captured, refunded and outstanding cents that recovery
computes are those of the program exactly when the history is recoverable. -/
theorem restored_exact_iff [Runtime] (s₀ : Card.State) (before calls : List Call) (hs : Fresh s₀)
    (hk : Runs.Along exec (fun _ call _ => keepsPeriod call.instr = true)
      (Runs.after exec s₀ before) calls)
    (takenAt : Nat) (hist : List Filed) (rows : CardRows)
    (hhist : hist.map Filed.booking = history (Runs.after exec s₀ before) calls)
    (hst : Stored (Runs.after exec s₀ before).policy.feeBps takenAt hist rows) :
    let s := Runs.after exec s₀ before
    let s' := Runs.after exec s calls
    (∃ r, restoredNumbers rows (snapshot s takenAt) = .ok r ∧
      r.capturedCents = s'.period.capturedCents ∧ r.refundedCents = s'.period.refundedCents ∧
      r.statementOutstandingCents = s'.policy.statementOutstandingCents) ↔
    Recoverable s hist rows takenAt := by
  intro s s'
  exact restored_iff (run_limited hs before) (hhist ▸ run_booked hk) hst

namespace Sample
open Card.Sample

/-- A purchase of 2000, before the snapshot. -/
def firstPurchase : List Call := setup 5000 3000 50 ++ purchase 20 2000 true

def repaid : Call := byAuthorizer (.recordPrivateRepayment authorizer (key 50) 2010)

/-- The statement is repaid, then the purchase refunded, then another one made. -/
def refundedLater : List Call :=
  [repaid, byAuthorizer (.refund authorizer none 2000 (key 34))] ++ purchase 21 1000 true

/-- The statement is repaid, and another purchase made. -/
def boughtLater : List Call := repaid :: purchase 21 1000 true

def row (kind : PostingKind) (amount postedAt : Nat) (seq : Option Nat) : Row Posting :=
  ⟨1, ⟨kind, amount, some 50, postedAt, none, seq⟩, postedAt⟩

/-- The first purchase is on statement 1, the other postings are open; the statement was
repaid after the snapshot. -/
def rowsOf (later : List PostingRow) : CardRows where
  nextSeq := some 2
  postings := (key 20, row .purchase 2000 5 (some 1)) :: later
  statements := [⟨.discharged, [15], some 2010, 15⟩]
  events := []

def boughtRows : CardRows := rowsOf [(key 21, row .purchase 1000 30 none)]

def refundedRows : CardRows :=
  rowsOf [(key 34, row .refund 2000 20 none), (key 21, row .purchase 1000 30 none)]

def boughtHistory : List Filed := [⟨.repayment 2010, 15, 0⟩, ⟨.posting .purchase 1000, 30, key 21⟩]

def refundedHistory : List Filed :=
  [⟨.repayment 2010, 15, 0⟩, ⟨.posting .refund 2000, 20, key 34⟩,
    ⟨.posting .purchase 1000, 30, key 21⟩]

end Sample

open Sample Card.Sample in
theorem restored_exact_boughtLater :
    Fresh start ∧ ∃ r, restoredNumbers boughtRows
        (snapshot (Runs.after exec start firstPurchase) 10) = .ok r ∧
      r.statementOutstandingCents = 1005 := by
  have hk : Runs.Along exec (fun _ call _ => keepsPeriod call.instr = true)
      (Runs.after exec start firstPurchase) boughtLater := by decide
  have hhist : boughtHistory.map Filed.booking =
      history (Runs.after exec start firstPurchase) boughtLater := by decide
  have hfee : (Runs.after exec start firstPurchase).policy.feeBps = 50 := by decide
  have hst : Stored (Runs.after exec start firstPurchase).policy.feeBps 10 boughtHistory
      boughtRows := by
    rw [hfee]
    exact ⟨by decide, by decide, by decide, by decide, by decide, by decide, by decide⟩
  have hout : (Runs.after exec (Runs.after exec start firstPurchase)
      boughtLater).policy.statementOutstandingCents = 1005 := by decide
  have hamounts : ∀ kind a, Booking.posting kind a ∈ boughtHistory.map Filed.booking →
      a < CENTS_LIMIT := by
    intro kind a hmem
    simp only [boughtHistory, List.map_cons, List.map_nil, List.mem_cons, Booking.posting.injEq,
      reduceCtorEq, List.not_mem_nil, or_false, false_or] at hmem
    rw [hmem.2]
    decide
  obtain ⟨r, hr, -, -, hrout⟩ := (restored_exact_iff start firstPurchase boughtLater start_fresh hk 10
    boughtHistory boughtRows hhist hst).mpr
      ⟨by decide, by decide, hamounts, by decide, by decide⟩
  exact ⟨start_fresh, r, hr, hrout.trans hout⟩

open Sample Card.Sample in
/-- A refund that the program books at zero is taken off the next purchase by recovery. -/
theorem restored_refund_counted_twice :
    Fresh start ∧
      Runs.Along exec (fun _ call _ => keepsPeriod call.instr = true)
        (Runs.after exec start firstPurchase) refundedLater ∧
      refundedHistory.map Filed.booking =
        history (Runs.after exec start firstPurchase) refundedLater ∧
      Stored (Runs.after exec start firstPurchase).policy.feeBps 10 refundedHistory
        refundedRows ∧
      (Runs.after exec (Runs.after exec start firstPurchase)
        refundedLater).policy.statementOutstandingCents = 1005 ∧
      (restoredNumbers refundedRows
        (snapshot (Runs.after exec start firstPurchase) 10)).toOption.map
          Restored.statementOutstandingCents = some 0 := by
  have hfee : (Runs.after exec start firstPurchase).policy.feeBps = 50 := by decide
  refine ⟨start_fresh, by decide, by decide, ?_, by decide, by decide⟩
  rw [hfee]
  exact ⟨by decide, by decide, by decide, by decide, by decide, by decide, by decide⟩

end ChainPay.Backend
