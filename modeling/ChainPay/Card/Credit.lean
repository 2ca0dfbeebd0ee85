import ChainPay.Card.Policy

/-!
The credit line behind a card, as an abstract machine.

`Credit` keeps of a card only what money and its control depend on: the credit
terms with the outstanding balance and the authorizer's member slot, the period
and the holds. `Move signers c l c'` lists what one instruction signed by
`signers` can do to it, with the guard that allowed it. The instruction modules
prove that each instruction is a move; the invariants are proved on the moves.
-/

namespace ChainPay.Card
open ChainPay.Lib

/-- The part of the policy that credit depends on. `second` is `members[1]`. -/
structure Terms where
  owner : Pubkey
  authorizer : Pubkey
  budgetCents : Nat
  periodSeconds : Nat
  feeBps : Nat
  outstanding : Nat
  repayments : Ring Hash REPAYMENT_RING
  memberCount : Nat
  second : Pubkey
  deriving DecidableEq

def CardPolicy.terms (p : CardPolicy) : Terms where
  owner := p.owner
  authorizer := p.authorizer
  budgetCents := p.budgetCents
  periodSeconds := p.periodSeconds
  feeBps := p.feeBps
  outstanding := p.statementOutstandingCents
  repayments := p.repayments
  memberCount := p.memberCount
  second := secondOf p.members

structure Credit where
  terms : Terms
  period : CardPeriod
  holds : Table Hash Reservation

def State.credit (s : State) : Credit := ⟨s.policy.terms, s.period, s.reservations⟩

namespace Credit

/-- What is spent or held in this period. -/
def used (c : Credit) : Nat := c.period.capturedCents + c.period.reservedCents

/-- The policy is set and its authorizer is among the signers. -/
def Authorized (signers : List Pubkey) (c : Credit) : Prop :=
  c.terms.authorizer ≠ 0 ∧ c.terms.authorizer ∈ signers

/-- The limits every validated policy keeps. -/
def Limited (t : Terms) : Prop := t.budgetCents ≤ MAX_BUDGET_CENTS ∧ t.feeBps ≤ MAX_FEE_BPS

/-- A debit of `a` added to the outstanding balance. -/
def bill (t : Terms) (a : Nat) : Terms :=
  { t with outstanding := t.outstanding + grossOf a t.feeBps }

/-- A credit of `a` taken off the outstanding balance, down to zero. -/
def unbill (t : Terms) (a : Nat) : Terms :=
  { t with outstanding := t.outstanding - grossOf a t.feeBps }

/-- How much of a capture of `a` comes out of the hold. -/
def fromHold (r : Reservation) (a : Nat) : Nat :=
  if r.state.isOpen ∨ r.state = .captured then min a r.amountReservedCents else 0

/-- `q` is `p` with these spend and hold counters, inside the same period. -/
structure Counted (p q : CardPeriod) (captured reserved : Nat) : Prop where
  index : q.periodIndex = p.periodIndex
  start : q.periodStart = p.periodStart
  stop : q.periodEnd = p.periodEnd
  captured : q.capturedCents = captured
  reserved : q.reservedCents = reserved

/-- `r'` is `r` after its hold became `n`; a hold at zero is no longer open. -/
structure Resized (r r' : Reservation) (n : Nat) : Prop where
  amount : r'.amountReservedCents = n
  captured : r'.capturedCents = r.capturedCents
  refunded : r'.refundedCents = r.refundedCents
  closed : n = 0 → ¬ r'.state.isOpen
  kept : n ≠ 0 → r'.state = r.state

/-- The state rule of a capture: an open or captured hold follows its amount, any
other keeps its state. -/
def CapturedState (r r' : Reservation) : Prop :=
  if r.state.isOpen ∨ r.state = .captured then
    (r'.amountReservedCents = 0 → ¬ r'.state.isOpen) ∧
      (r'.amountReservedCents ≠ 0 → r'.state.isOpen)
  else r'.state = r.state

/-- `r'` is `r` with `a` more captured and `b` more refunded, the hold untouched. -/
structure Posted (r r' : Reservation) (a b : Nat) : Prop where
  amount : r'.amountReservedCents = r.amountReservedCents
  captured : r'.capturedCents = r.capturedCents + a
  refunded : r'.refundedCents = r.refundedCents + b
  state : r'.state = r.state

/-- `hs'` is `hs` with one posting on the named hold, or `hs` itself. -/
inductive OnHold (hs : Table Hash Reservation) (a b : Nat) :
    Option Hash → Table Hash Reservation → Prop where
  | none : OnHold hs a b none hs
  | some {h : Hash} {r r' : Reservation} (hr : hs.lookup h = some r) (hr' : Posted r r' a b) :
      OnHold hs a b (some h) (hs.insert h r')

/-- One expired hold released by `roll_period`. -/
inductive Expire : Credit → Credit → Prop where
  | mk {c : Credit} {h : Hash} {r : Reservation} (hr : c.holds.lookup h = some r)
      (hopen : r.state.isOpen) :
      Expire c
        { c with
          period := { c.period with
            reservedCents := c.period.reservedCents - r.amountReservedCents }
          holds := c.holds.insert h { r with amountReservedCents := 0, state := .expired } }

end Credit

/-! ## How the policy helpers move the terms -/

section Terms

variable {p p' : CardPolicy}

theorem budget_of_terms (h : p.terms = p'.terms) : p.budgetCents = p'.budgetCents :=
  congrArg Terms.budgetCents h

theorem appendLedger_terms {e : LedgerEvent} {i : Nat} {t : Int}
    (h : appendLedger p e i t = .ok p') : p'.terms = p.terms := by
  obtain ⟨head, rfl⟩ := appendLedger_ok h
  rfl

theorem recordEventId_terms {h : Hash} (hr : recordEventId p h = .ok p') : p'.terms = p.terms := by
  obtain ⟨-, -, rfl⟩ := recordEventId_ok hr
  rfl

theorem ephemeralCreated_terms (h : ephemeralCreated p = .ok p') : p'.terms = p.terms := by
  rw [ephemeralCreated_ok h]
  rfl

theorem addExposure_terms {a : Nat} (h : addExposure p a = .ok p') :
    p'.terms = Credit.bill p.terms a := by
  rw [addExposure_ok h]
  rfl

theorem reduceExposure_terms {a : Nat} (h : reduceExposure p a = .ok p') :
    p'.terms = Credit.unbill p.terms a := by
  rw [reduceExposure_ok h]
  rfl

end Terms

/-! ## Moves -/

/-- The kind of a move and the amounts it carries. -/
inductive Label where
  | quiet
  | members
  | terms
  | hold (h : Hash) (a : Nat)
  | charge (h : Hash) (a : Nat)
  | adjust (h : Hash) (n : Nat)
  | capture (h : Hash) (a : Nat)
  | reverse (h : Hash) (a : Nat)
  | refund (h : Option Hash) (a : Nat)
  | dispute (h : Hash)
  | overHold (h : Hash) (a : Nat)
  | correct (h : Option Hash) (a : Nat)
  | debit (h : Option Hash) (a : Nat)
  | repay (digest : Hash) (a : Nat)
  | roll
  | close (h : Hash)
  | wipe
  | restore
  deriving DecidableEq, Repr

open Credit in
/-- What one instruction signed by `signers` can do to the credit line. -/
inductive Move (signers : List Pubkey) (c : Credit) : Label → Credit → Prop where
  | quiet : Move signers c .quiet c
  | members {n : Nat} {k : Pubkey}
      (hfirst : c.terms.memberCount = 0 → n = 2)
      (hlater : c.terms.memberCount ≠ 0 → k = c.terms.second ∧ (2 ≤ c.terms.memberCount → 2 ≤ n)) :
      Move signers c .members { c with terms := { c.terms with memberCount := n, second := k } }
  | terms {t : Terms} {q : CardPeriod}
      (hmembers : 2 ≤ c.terms.memberCount) (hcount : t.memberCount = c.terms.memberCount)
      (hsecond : t.second = t.authorizer) (hset : t.authorizer ≠ 0)
      (howner : t.owner = c.terms.owner) (hother : t.authorizer ≠ t.owner) (hlim : Limited t)
      (hout : t.outstanding = c.terms.outstanding) (hrep : t.repayments = c.terms.repayments)
      (hcosign : c.terms.authorizer ≠ 0 → c.terms.authorizer ∉ signers →
        t.authorizer = c.terms.authorizer ∧ t.feeBps = c.terms.feeBps ∧
        t.budgetCents ≤ c.terms.budgetCents ∧ c.terms.periodSeconds ≤ t.periodSeconds)
      (hbudget : c.terms.authorizer ≠ 0 →
        c.terms.budgetCents ≤ t.budgetCents ∨ c.used ≤ t.budgetCents)
      (hq : c.period.periodIndex ≠ 0 → q = c.period) (hindex : q.periodIndex ≠ 0)
      (hcap : q.capturedCents = c.period.capturedCents)
      (hres : q.reservedCents = c.period.reservedCents) :
      Move signers c .terms { c with terms := t, period := q }
  | hold {h : Hash} {r : Reservation} {q : CardPeriod} {a : Nat}
      (hauth : Authorized signers c) (hnew : c.holds.lookup h = none) (hpos : 0 < a)
      (hfits : a ≤ c.terms.budgetCents - c.used)
      (hamount : r.amountReservedCents = a) (hcaptured : r.capturedCents = 0)
      (hrefunded : r.refundedCents = 0) (hstate : r.state = .reserved)
      (hq : Counted c.period q c.period.capturedCents (c.period.reservedCents + a)) :
      Move signers c (.hold h a) { c with period := q, holds := c.holds.insert h r }
  | charge {h : Hash} {r : Reservation} {q : CardPeriod} {a : Nat}
      (hauth : Authorized signers c) (hnew : c.holds.lookup h = none) (hpos : 0 < a)
      (hfits : a ≤ c.terms.budgetCents - c.used)
      (hamount : r.amountReservedCents = 0) (hcaptured : r.capturedCents = a)
      (hrefunded : r.refundedCents = 0) (hstate : r.state = .captured)
      (hq : Counted c.period q (c.period.capturedCents + a) c.period.reservedCents) :
      Move signers c (.charge h a)
        { terms := bill c.terms a, period := q, holds := c.holds.insert h r }
  | adjustDown {h : Hash} {r r' : Reservation} {q : CardPeriod} {n : Nat}
      (hauth : Authorized signers c) (hr : c.holds.lookup h = some r) (hopen : r.state.isOpen)
      (hn : n ≤ r.amountReservedCents) (hr' : Resized r r' n)
      (hq : Counted c.period q c.period.capturedCents
        (c.period.reservedCents - (r.amountReservedCents - n))) :
      Move signers c (.adjust h n) { c with period := q, holds := c.holds.insert h r' }
  | adjustUp {h : Hash} {r r' : Reservation} {q : CardPeriod} {n : Nat}
      (hauth : Authorized signers c) (hr : c.holds.lookup h = some r) (hopen : r.state.isOpen)
      (hn : r.amountReservedCents < n) (hr' : Resized r r' n)
      (hfits : n - r.amountReservedCents ≤ c.terms.budgetCents - c.used)
      (hq : Counted c.period q c.period.capturedCents
        (c.period.reservedCents + (n - r.amountReservedCents))) :
      Move signers c (.adjust h n) { c with period := q, holds := c.holds.insert h r' }
  | capture {h : Hash} {r r' : Reservation} {q : CardPeriod} {a : Nat}
      (hauth : Authorized signers c) (hr : c.holds.lookup h = some r) (hpos : 0 < a)
      (hamount : r'.amountReservedCents = r.amountReservedCents - fromHold r a)
      (hcaptured : r'.capturedCents = r.capturedCents + a)
      (hrefunded : r'.refundedCents = r.refundedCents)
      (hstate : CapturedState r r')
      (hfits : c.period.capturedCents + (c.period.reservedCents - fromHold r a) + a ≤
        c.terms.budgetCents)
      (hq : Counted c.period q (c.period.capturedCents + a)
        (c.period.reservedCents - fromHold r a)) :
      Move signers c (.capture h a)
        { terms := bill c.terms a, period := q, holds := c.holds.insert h r' }
  | reverse {h : Hash} {r r' : Reservation} {q : CardPeriod} {a : Nat}
      (hauth : Authorized signers c) (hr : c.holds.lookup h = some r) (hopen : r.state.isOpen)
      (hr' : Resized r r' (r.amountReservedCents - min a r.amountReservedCents))
      (hq : Counted c.period q c.period.capturedCents
        (c.period.reservedCents - min a r.amountReservedCents)) :
      Move signers c (.reverse h a) { c with period := q, holds := c.holds.insert h r' }
  | refund {o : Option Hash} {hs : Table Hash Reservation} {q : CardPeriod} {a : Nat}
      (hauth : Authorized signers c) (hpos : 0 < a)
      (hfits : ∀ h r, o = some h → c.holds.lookup h = some r →
        r.refundedCents + a ≤ r.capturedCents)
      (hon : OnHold c.holds 0 a o hs)
      (hq : Counted c.period q c.period.capturedCents c.period.reservedCents) :
      Move signers c (.refund o a) { terms := unbill c.terms a, period := q, holds := hs }
  | dispute {h : Hash} {hs : Table Hash Reservation} (hauth : Authorized signers c)
      (hon : OnHold c.holds 0 0 (some h) hs) :
      Move signers c (.dispute h) { c with holds := hs }
  | overHold {h : Hash} {r r' : Reservation} {q : CardPeriod} {a : Nat}
      (hauth : Authorized signers c) (hr : c.holds.lookup h = some r) (hopen : r.state.isOpen)
      (hpos : 0 < a) (hr' : Resized r r' (r.amountReservedCents + a))
      (hq : Counted c.period q c.period.capturedCents (c.period.reservedCents + a)) :
      Move signers c (.overHold h a) { c with period := q, holds := c.holds.insert h r' }
  | correct {o : Option Hash} {hs : Table Hash Reservation} {q : CardPeriod} {a : Nat}
      (hauth : Authorized signers c) (hon : OnHold c.holds 0 a o hs)
      (hq : Counted c.period q c.period.capturedCents c.period.reservedCents) :
      Move signers c (.correct o a) { terms := unbill c.terms a, period := q, holds := hs }
  | debit {o : Option Hash} {hs : Table Hash Reservation} {q : CardPeriod} {a : Nat}
      (hauth : Authorized signers c) (hpos : 0 < a) (hon : OnHold c.holds a 0 o hs)
      (hfits : c.used + a ≤ c.terms.budgetCents)
      (hq : Counted c.period q (c.period.capturedCents + a) c.period.reservedCents) :
      Move signers c (.debit o a) { terms := bill c.terms a, period := q, holds := hs }
  | repay {d : Hash} {a : Nat} (hauth : Authorized signers c) (hpos : 0 < a)
      (hd : d ≠ 0) (hnew : c.terms.repayments.contains d = false) (ha : a ≤ c.terms.outstanding) :
      Move signers c (.repay d a)
        { c with terms := { c.terms with
            outstanding := c.terms.outstanding - a
            repayments := c.terms.repayments.push d } }
  | roll {c₁ : Credit} {q : CardPeriod} (hauth : Authorized signers c)
      (hexp : Relation.ReflTransGen Expire c c₁) (hcap : q.capturedCents = 0)
      (hres : q.reservedCents = c₁.period.reservedCents)
      (hindex : q.periodIndex = c.period.periodIndex + 1) :
      Move signers c .roll { c₁ with period := q }
  | close {h : Hash} {r : Reservation} (hr : c.holds.lookup h = some r)
      (hclosed : ¬ r.state.isOpen) (hamount : r.amountReservedCents = 0) :
      Move signers c (.close h) { c with holds := c.holds.erase h }
  | wipe {t : Terms} {q : CardPeriod} {hs : Table Hash Reservation}
      (hres : c.period.reservedCents = 0) (hout : c.terms.outstanding = 0)
      (hset : t.authorizer = 0) (hcount : t.memberCount = 0) (hlim : Limited t)
      (hout' : t.outstanding = 0)
      (hindex' : q.periodIndex = 0) (hcap' : q.capturedCents = 0) (hres' : q.reservedCents = 0)
      (hkept : ∀ h r, hs.lookup h = some r → c.holds.lookup h = some r) :
      Move signers c .wipe ⟨t, q, hs⟩
  | restore {t : Terms} {q : CardPeriod} (hsigned : c.terms.second ∈ signers)
      (hmembers : 2 ≤ c.terms.memberCount) (hcount : t.memberCount = c.terms.memberCount)
      (hsecond : t.second = t.authorizer) (hset : t.authorizer ≠ 0)
      (howner : t.owner = c.terms.owner) (hother : t.authorizer ≠ t.owner) (hlim : Limited t)
      (hrep : t.repayments = c.terms.repayments) (hindex : q.periodIndex ≠ 0) :
      Move signers c .restore { c with terms := t, period := q }

theorem Move.to {signers : List Pubkey} {c c₁ c₂ : Credit} {l : Label}
    (h : Move signers c l c₁) (he : c₂ = c₁) : Move signers c l c₂ := he ▸ h

end ChainPay.Card
