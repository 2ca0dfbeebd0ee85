import ChainPay.Card.Policy
import ChainPay.Lib.Cas
import Mathlib.Algebra.Order.Ring.Int

/-!
What the backend bills: postings, statement lines and statement totals, and the
billing part of the card row with its two updates, reserving a statement number and
clearing the reservation.

Times are milliseconds; the source keeps them as RFC 3339 texts of fixed width,
which compare alike.
-/

namespace ChainPay.Backend
open ChainPay.Lib ChainPay.Card

/-! ## Money -/

/-- The first amount whose text has more than 16 digits. -/
def CENTS_LIMIT : Nat := 10000000000000000

/-- Reads a decimal text of at most 16 digits; a minus sign is no digit. -/
def parseCents : Int → Option Nat
  | .ofNat n => if n < CENTS_LIMIT then some n else none
  | .negSucc _ => none

theorem parseCents_natCast {n : Nat} (h : n < CENTS_LIMIT) : parseCents n = some n := if_pos h

theorem parseCents_natCast_none {n : Nat} (h : CENTS_LIMIT ≤ n) : parseCents n = none :=
  if_neg (Nat.not_lt.mpr h)

/-- An amount that parses is read back. -/
theorem parseCents_eq_some {n m : Nat} (h : parseCents n = some m) : n < CENTS_LIMIT ∧ m = n := by
  by_cases hn : n < CENTS_LIMIT
  · rw [parseCents_natCast hn] at h
    exact ⟨hn, (Option.some.inj h).symm⟩
  · rw [parseCents_natCast_none (Nat.not_lt.mp hn)] at h
    cases h

/-- `floor(amount * fee_bps / 10_000)`, cut to 64 bits. -/
def feeCents (amount feeBps : Nat) : Nat := amount * feeBps / 10000 % 2 ^ 64

inductive PostingKind where
  | purchase
  | refund
  | adjustmentDebit
  | adjustmentCredit
  deriving DecidableEq, Repr

def PostingKind.isCredit : PostingKind → Bool
  | .refund | .adjustmentCredit => true
  | .purchase | .adjustmentDebit => false

/-- The `card_policy` step that was confirmed. -/
inductive StepLabel where
  | capture
  | singleMessage
  | lateCapture
  | overCapture
  | refund
  | forcedCapture
  | unpairedCapture
  | returnReversal
  | correctionDebit
  | correctionCredit
  | adjust
  | reverse
  | expire
  | overHold
  deriving DecidableEq, Repr

/-- The posting a confirmed step books, and the exception it is marked with. A step on
the hold alone books none. -/
def postingForLabel : StepLabel → Option (PostingKind × Option StepLabel)
  | .capture | .singleMessage | .lateCapture | .overCapture => some (.purchase, none)
  | .refund => some (.refund, none)
  | .forcedCapture => some (.adjustmentDebit, some .forcedCapture)
  | .unpairedCapture => some (.adjustmentDebit, some .unpairedCapture)
  | .returnReversal => some (.adjustmentDebit, some .returnReversal)
  | .correctionDebit => some (.adjustmentDebit, some .correctionDebit)
  | .correctionCredit => some (.adjustmentCredit, some .correctionCredit)
  | .adjust | .reverse | .expire | .overHold => none

structure Posting where
  kind : PostingKind
  amount : Nat
  /-- The rate read at posting time, if the rollup was readable. -/
  feeBps : Option Nat
  postedAt : Nat
  exception : Option StepLabel
  /-- The statement it is filed under; open while there is none. -/
  statementSeq : Option Nat
  deriving DecidableEq, Repr

def Posting.isOpen (p : Posting) : Prop := p.statementSeq = none

instance (p : Posting) : Decidable p.isOpen := inferInstanceAs (Decidable (_ = _))

structure Line where
  eventId : Hash
  kind : PostingKind
  amount : Nat
  fee : Nat
  postedAt : Nat
  exception : Option StepLabel
  deriving DecidableEq, Repr

def Line.signedFee (l : Line) : Int := if l.kind.isCredit then -(l.fee : Int) else l.fee

/-- The line of a posting, and whether its fee rate is the fallback. -/
def lineFromPosting (id : Hash) (p : Posting) (fallbackBps : Nat) : Option (Line × Bool) :=
  match parseCents p.amount with
  | none => none
  | some amount =>
    some (⟨id, p.kind, amount, feeCents amount (p.feeBps.getD fallbackBps), p.postedAt,
      p.exception⟩, p.feeBps.isNone)

structure Totals where
  purchases : Int
  refunds : Int
  fees : Int
  /-- `purchases - refunds + fees`; negative when credits exceed debits. -/
  total : Int
  carriedCredit : Int
  /-- `max(0, total - carried_credit)`. -/
  amountDue : Int
  /-- `max(0, carried_credit - total)`. -/
  creditForward : Int
  deriving DecidableEq, Repr

def totals (lines : List Line) (carriedCredit : Nat) : Totals :=
  let purchases : Int := ((lines.filter fun l => !l.kind.isCredit).map fun l => (l.amount : Int)).sum
  let refunds : Int := ((lines.filter fun l => l.kind.isCredit).map fun l => (l.amount : Int)).sum
  let fees : Int := (lines.map Line.signedFee).sum
  let total := purchases - refunds + fees
  let net := total - carriedCredit
  { purchases := purchases
    refunds := refunds
    fees := fees
    total := total
    carriedCredit := carriedCredit
    amountDue := max net 0
    creditForward := max (-net) 0 }

/-- Adds the digits of a number from the last, every second one doubled. -/
def luhnSum : Nat → Nat → Bool → Nat
  | 0, _, _ => 0
  | digits + 1, n, double =>
    let d := if double then 2 * (n % 10) else n % 10
    (if 9 < d then d - 9 else d) + luhnSum digits (n / 10) (!double)

/-- At least 13 digits that pass the Luhn check. -/
def panLike (n : Nat) : Prop := 1000000000000 ≤ n ∧ luhnSum 19 n false % 10 = 0

/-- What the database takes as an amount of a statement: at most 16 digits with a sign, and
nothing that looks like a card number. -/
def isSignedCents (n : Int) : Prop := n.natAbs < CENTS_LIMIT ∧ ¬ panLike n.natAbs

instance (n : Nat) : Decidable (panLike n) := inferInstanceAs (Decidable (_ ∧ _))

instance (n : Int) : Decidable (isSignedCents n) := inferInstanceAs (Decidable (_ ∧ _))

/-- The amounts of a statement record. -/
def Totals.amounts (t : Totals) : List Int :=
  [t.purchases, t.refunds, t.fees, t.total, t.carriedCredit, t.amountDue, t.creditForward]

/-- The database takes the record with these amounts. -/
def Totals.valid (t : Totals) : Prop := ∀ n ∈ t.amounts, isSignedCents n

instance (t : Totals) : Decidable t.valid := inferInstanceAs (Decidable (∀ n ∈ t.amounts, _))

theorem Totals.valid.forward_lt {t : Totals} (h : t.valid) : t.creditForward < CENTS_LIMIT := by
  have hlt := (h t.creditForward (by simp [Totals.amounts])).1
  omega

/-! ## Statements -/

inductive CloseKind where
  | periodEnd (periodIndex : Nat)
  | interim (periodIndex : Nat)
  deriving DecidableEq, Repr

/-- A reserved statement number. -/
structure Closing where
  seq : Nat
  kind : CloseKind
  cut : Nat
  op : Option Hash
  deriving DecidableEq, Repr

def DUE_DAYS : Nat := 21

/-- What a statement bills. Written once. -/
structure Statement where
  statementSeq : Nat
  closeKind : CloseKind
  closedAt : Nat
  dueAt : Nat
  totals : Totals
  lines : List Line
  feeAssumed : Bool
  closeOperation : Option Hash
  deriving DecidableEq, Repr

def Statement.lineIds (st : Statement) : List Hash := st.lines.map Line.eventId

/-- The credit the next statement takes over, read back from the record's text. -/
def Statement.forward (st : Statement) : Nat := (parseCents st.totals.creditForward).getD 0

inductive StatementState where
  | closed
  | repaymentMismatch
  | repaymentObserved
  | partnerConfirmed
  | discharged
  deriving DecidableEq, Repr

structure StatementRecord where
  statement : Statement
  state : StatementState
  deriving DecidableEq, Repr

/-- The statement a closer writes. -/
def statementRecord (c : Closing) (lines : List Line) (carried : Nat) (feeAssumed : Bool) :
    StatementRecord :=
  let t := totals lines carried
  { statement :=
      { statementSeq := c.seq
        closeKind := c.kind
        closedAt := c.cut
        dueAt := c.cut + DUE_DAYS * 86400000
        totals := t
        lines := lines
        feeAssumed := feeAssumed
        closeOperation := c.op }
    state := if t.amountDue = 0 then .discharged else .closed }

/-! ## The card row -/

/-- The `billing` object of the card row; fields are absent until first written. -/
structure Billing where
  closing : Option Closing := none
  nextSeq : Option Nat := none
  carriedCreditCents : Option Nat := none
  lastStatementSeq : Option Nat := none
  closedPeriodIndex : Option Nat := none
  deriving DecidableEq, Repr

def Billing.carried (b : Billing) : Nat :=
  (b.carriedCreditCents.bind fun n => parseCents n).getD 0

/-- Reserves the next statement number, or resumes the reservation that is there. -/
def Billing.reserve (b : Billing) (kind : CloseKind) (cut : Nat) (op : Option Hash) :
    Billing × Closing :=
  match b.closing with
  | some c => (b, c)
  | none =>
    let seq := b.nextSeq.getD 1
    let c : Closing := ⟨seq, kind, cut, op⟩
    ({ b with closing := some c, nextSeq := some (seq + 1) }, c)

/-- Clears the reservation of `c`, if it is still the one. With no credit to carry,
nothing was billed and the number goes back. -/
def Billing.clear (b : Billing) (c : Closing) (creditForward : Option Nat) : Billing :=
  if b.closing.map Closing.seq ≠ some c.seq then b
  else
    { closing := none
      nextSeq :=
        if creditForward = none ∧ b.nextSeq = some (c.seq + 1) then some c.seq else b.nextSeq
      carriedCreditCents := creditForward.elim b.carriedCreditCents some
      lastStatementSeq := creditForward.elim b.lastStatementSeq fun _ => some c.seq
      closedPeriodIndex :=
        match c.kind with
        | .periodEnd i => some i
        | .interim _ => b.closedPeriodIndex }

end ChainPay.Backend
