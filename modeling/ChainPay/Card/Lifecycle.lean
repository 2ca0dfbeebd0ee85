import ChainPay.Card.Spend

/-!
Issuer lifecycle events after an authorization: `adjust_reservation`, `capture`,
`reverse`, `refund`, `record_dispute`, `record_exception` and
`resolve_exception`. They post issuer truth, so a freeze never blocks them.
-/

namespace ChainPay.Card
open ChainPay.Lib

/-! ## Shared parts -/

/-- The account checks of an instruction on one Reservation. -/
def reservationContext (ctx : Ctx) (authorizer : Pubkey) (h : Hash) (s : State) :
    Except Err Reservation := do
  signerContext ctx authorizer s
  okOr (s.reservations.lookup h) .account

/-- The account checks of an instruction whose Reservation is optional. -/
def cardContext (ctx : Ctx) (authorizer : Pubkey) (o : Option Hash) (s : State) :
    Except Err (Option Reservation) := do
  signerContext ctx authorizer s
  match o with
  | none => return none
  | some h => do
    let r ← okOr (s.reservations.lookup h) .account
    return some r

/-- The reservations with the named one written back. -/
def writeBack (hs : Table Hash Reservation) : Option Hash → Option Reservation →
    Table Hash Reservation
  | some h, some r => hs.insert h r
  | _, _ => hs

/-- Applies a checked update to a Reservation, if there is one. -/
def onReservation (f : Reservation → Except Err Reservation) :
    Option Reservation → Except Err (Option Reservation)
  | none => .ok none
  | some r => do
    let r ← f r
    return some r

def event (kind : LedgerKind) (r : Option Reservation) (eventIdHash : Hash) (amount : Nat)
    (stateAfter : UInt8) : LedgerEvent where
  kind := kind
  authIdHash := (r.map Reservation.authIdHash).getD 0
  eventIdHash := eventIdHash
  amountCents := amount
  stateAfter := stateAfter

/-- Releases up to `amount` of the open hold; returns what was released. -/
def releaseHold (period : CardPeriod) (r : Reservation) (amount : Nat) :
    Except Err (CardPeriod × Reservation × Nat) := do
  let released := min amount r.amountReservedCents
  let rest ← sub r.amountReservedCents released
  return ({ period with reservedCents := period.reservedCents - released },
    { r with amountReservedCents := rest }, released)

theorem releaseHold_eq (q : CardPeriod) (r : Reservation) (a : Nat) :
    releaseHold q r a = .ok
      ({ q with reservedCents := q.reservedCents - min a r.amountReservedCents },
        { r with amountReservedCents := r.amountReservedCents - min a r.amountReservedCents },
        min a r.amountReservedCents) := by
  have hle : min a r.amountReservedCents ≤ r.amountReservedCents := Nat.min_le_right _ _
  simp [releaseHold, sub, checkedSub, okOr, hle, pure, Except.pure]

/-! ## Instructions -/

/-- The hold after `adjust_reservation`, before the final state is read off. -/
def resize (ctx : Ctx) (policy : CardPolicy) (period : CardPeriod) (r : Reservation)
    (newAmountCents : Nat) : Except Err (CardPeriod × Reservation) :=
  let hold := r.amountReservedCents
  if newAmountCents < hold then do
    let (period, r, _) ← releaseHold period r (hold - newAmountCents)
    return (period, r)
  else if hold < newAmountCents then do
    -- an increase is new spending: it must fit, and never on a frozen card
    ensure (policy.frozen = false) (.policy .cardFrozen)
    ensure (policy.recoveryState = .normal) (.policy .recoveryFrozen)
    ensure (¬ isExpired policy ctx.now) (.policy .policyExpired)
    let purchase ← add newAmountCents r.capturedCents
    ensure (purchase ≤ policy.maxPurchaseCents) (.policy .amountExceedsMax)
    ensure (purchase ≤ r.maxAmountCents) (.policy .amountExceedsMax)
    let left ← available policy period
    ensure (newAmountCents - hold ≤ left) (.policy .budgetExceeded)
    let reserved ← add period.reservedCents (newAmountCents - hold)
    return ({ period with reservedCents := reserved },
      { r with amountReservedCents := newAmountCents })
  else return (period, r)

/-- A hold that is used up ends captured, or otherwise in the given state. -/
def settleEmpty (r : Reservation) (otherwise : ReservationState) : Reservation :=
  if r.amountReservedCents = 0 then
    { r with state := if 0 < r.capturedCents then .captured else otherwise }
  else r

def adjustReservation (ctx : Ctx) (authorizer : Pubkey) (h : Hash) (newAmountCents : Nat)
    (s : State) : Except Err State := do
  let r ← reservationContext ctx authorizer h s
  requireAuthorizer s.policy authorizer
  ensure r.state.isOpen (.policy .reservationClosed)
  let (period, r) ← resize ctx s.policy s.period r newAmountCents
  let r := settleEmpty r .reversed
  let policy ← appendLedger s.policy (event .adjust (some r) 0 newAmountCents r.state.code)
    period.periodIndex ctx.now
  return { s with
    policy := policy, period := period, reservations := s.reservations.insert h r }

/-- The part of a capture before it is billed: the hold release and the flags. -/
def takeFromHold (policy : CardPolicy) (period : CardPeriod) (r : Reservation) (amount : Nat) :
    Except Err (CardPolicy × CardPeriod × Reservation) :=
  if r.state.isOpen ∨ r.state = .captured then do
    let (period, r, fromHold) ← releaseHold period r amount
    let excess := amount - fromHold
    let r := { r with
      state := if r.amountReservedCents = 0 then .captured else .partiallyCaptured }
    if 0 < excess then
      -- captured above the approved hold: counted and flagged
      let exception ← add period.exceptionCents excess
      let opened ← increment 16 policy.exceptionsOpen .mathOverflow
      return ({ policy with exceptionsOpen := opened },
        { period with exceptionCents := exception },
        { r with flags := r.flags ||| FLAG_OVER_CAPTURE })
    else return (policy, period, r)
  else
    -- clearing after the hold was reversed or expired never re-reserves
    return (policy, period, { r with flags := r.flags ||| FLAG_LATE_CAPTURE })

def capture (ctx : Ctx) (authorizer : Pubkey) (h : Hash) (amountCents : Nat)
    (captureIdHash : Hash) (s : State) : Except Err State := do
  let r ← reservationContext ctx authorizer h s
  requireAuthorizer s.policy authorizer
  ensure (0 < amountCents) (.policy .invalidAmount)
  requireEventId captureIdHash
  ensure (captureIdHash ∉ r.captureIds) (.policy .duplicateCapture)
  ensure (r.captureIds.length < CAPTURE_RING) (.policy .captureLimit)
  let (policy, period, r) ← takeFromHold s.policy s.period r amountCents
  requireBillable policy period amountCents
  let captured ← add period.capturedCents amountCents
  let holdCaptured ← add r.capturedCents amountCents
  let policy ← addExposure policy amountCents
  let r := { r with
    capturedCents := holdCaptured, captureIds := r.captureIds ++ [captureIdHash] }
  let policy ← appendLedger policy
    (event .capture (some r) captureIdHash amountCents r.state.code) period.periodIndex ctx.now
  return { s with
    policy := policy
    period := { period with capturedCents := captured }
    reservations := s.reservations.insert h r }

def REVERSE_VOID : UInt8 := 0
def REVERSE_EXPIRY : UInt8 := 1

def reverse (ctx : Ctx) (authorizer : Pubkey) (h : Hash) (amountCents : Nat) (reason : UInt8)
    (eventIdHash : Hash) (s : State) : Except Err State := do
  let r ← reservationContext ctx authorizer h s
  requireAuthorizer s.policy authorizer
  ensure (0 < amountCents) (.policy .invalidAmount)
  ensure (reason = REVERSE_VOID ∨ reason = REVERSE_EXPIRY) (.policy .invalidPolicy)
  let policy ← recordEventId s.policy eventIdHash
  ensure r.state.isOpen (.policy .reservationClosed)
  let (period, r, released) ← releaseHold s.period r amountCents
  let reversed ← add r.reversedCents released
  let r := settleEmpty { r with reversedCents := reversed }
    (if reason = REVERSE_EXPIRY then .expired else .reversed)
  let policy ← appendLedger policy (event .reverse (some r) eventIdHash released r.state.code)
    period.periodIndex ctx.now
  return { s with
    policy := policy, period := period, reservations := s.reservations.insert h r }

def refund (ctx : Ctx) (authorizer : Pubkey) (o : Option Hash) (amountCents : Nat)
    (eventIdHash : Hash) (s : State) : Except Err State := do
  let r ← cardContext ctx authorizer o s
  requireAuthorizer s.policy authorizer
  ensure (0 < amountCents) (.policy .invalidAmount)
  let policy ← recordEventId s.policy eventIdHash
  -- a refund is a credit against the statement, it does not restore budget
  let refunded ← add s.period.refundedCents amountCents
  let r ← onReservation (fun r => do
    requireRefundable r.capturedCents r.refundedCents amountCents
    let refunded ← add r.refundedCents amountCents
    return { r with refundedCents := refunded }) r
  let policy ← reduceExposure policy amountCents
  let policy ← appendLedger policy
    (event .refund r eventIdHash amountCents ((r.map fun r => r.state.code).getD 0))
    s.period.periodIndex ctx.now
  return { s with
    policy := policy
    period := { s.period with refundedCents := refunded }
    reservations := writeBack s.reservations o r }

def recordDispute (ctx : Ctx) (authorizer : Pubkey) (h : Hash) (state : UInt8)
    (eventIdHash : Hash) (s : State) : Except Err State := do
  let r ← reservationContext ctx authorizer h s
  requireAuthorizer s.policy authorizer
  ensure (state ≤ DISPUTE_WITHDRAWN) (.policy .invalidPolicy)
  let policy ← recordEventId s.policy eventIdHash
  let r := { r with disputeState := state }
  let policy ← appendLedger policy (event .dispute (some r) eventIdHash 0 state)
    s.period.periodIndex ctx.now
  return { s with policy := policy, reservations := s.reservations.insert h r }

/-! ## Exceptions -/

inductive ExceptionKind where
  | forcedCapture
  | overCapture
  | overHold
  | correctionDebit
  | correctionCredit
  | returnReversal
  | unpairedCapture
  | lateCapture
  deriving DecidableEq, Repr

def ExceptionKind.code : ExceptionKind → UInt8
  | .forcedCapture => 1
  | .overCapture => 2
  | .overHold => 3
  | .correctionDebit => 4
  | .correctionCredit => 5
  | .returnReversal => 6
  | .unpairedCapture => 7
  | .lateCapture => 8

def ExceptionKind.ofCode (code : UInt8) : Option ExceptionKind :=
  [.forcedCapture, .overCapture, .overHold, .correctionDebit, .correctionCredit,
    .returnReversal, .unpairedCapture, .lateCapture].find? (fun k => k.code = code)

/-- A debit that counts as spend and as exposure while it fits the budget. -/
def bookDebit (kind : ExceptionKind) (amount : Nat) (policy : CardPolicy) (period : CardPeriod)
    (r : Option Reservation) : Except Err (CardPolicy × CardPeriod × Option Reservation) := do
  requireBillable policy period amount
  let captured ← add period.capturedCents amount
  let exception ← add period.exceptionCents amount
  let r ← onReservation (fun r => do
    let captured ← add r.capturedCents amount
    return { r with
      capturedCents := captured
      flags := if kind = .overCapture then r.flags ||| FLAG_OVER_CAPTURE else r.flags }) r
  let policy ← addExposure policy amount
  return (policy, { period with capturedCents := captured, exceptionCents := exception }, r)

/-- A late capture needs no Reservation and no owner review. -/
def bookLate (amount : Nat) (policy : CardPolicy) (period : CardPeriod)
    (r : Option Reservation) : Except Err (CardPolicy × CardPeriod × Option Reservation) := do
  ensure (r = none) (.policy .invalidAccount)
  requireBillable policy period amount
  let captured ← add period.capturedCents amount
  let policy ← addExposure policy amount
  return (policy, { period with capturedCents := captured }, none)

/-- The issuer holds more than the policy allowed: track the real hold. -/
def bookOverHold (amount : Nat) (policy : CardPolicy) (period : CardPeriod)
    (r : Option Reservation) : Except Err (CardPolicy × CardPeriod × Option Reservation) := do
  let r ← okOr r (.policy .invalidAccount)
  ensure r.state.isOpen (.policy .reservationClosed)
  let hold ← add r.amountReservedCents amount
  let reserved ← add period.reservedCents amount
  let exception ← add period.exceptionCents amount
  return (policy, { period with reservedCents := reserved, exceptionCents := exception },
    some { r with amountReservedCents := hold })

def bookCredit (amount : Nat) (policy : CardPolicy) (period : CardPeriod)
    (r : Option Reservation) : Except Err (CardPolicy × CardPeriod × Option Reservation) := do
  let refunded ← add period.refundedCents amount
  let r ← onReservation (fun r => do
    let refunded ← add r.refundedCents amount
    return { r with refundedCents := refunded }) r
  let policy ← reduceExposure policy amount
  return (policy, { period with refundedCents := refunded }, r)

/-- What each kind of exception books. -/
def ExceptionKind.book (kind : ExceptionKind) :
    Nat → CardPolicy → CardPeriod → Option Reservation →
      Except Err (CardPolicy × CardPeriod × Option Reservation) :=
  match kind with
  | .lateCapture => bookLate
  | .overHold => bookOverHold
  | .correctionCredit => bookCredit
  | _ => bookDebit kind

/-- Every kind but a late capture waits for the owner's review. -/
def raiseException (kind : ExceptionKind) (policy : CardPolicy) : Except Err CardPolicy :=
  if kind = .lateCapture then .ok policy
  else do
    let opened ← increment 16 policy.exceptionsOpen .mathOverflow
    return { policy with exceptionsOpen := opened }

def recordException (ctx : Ctx) (authorizer : Pubkey) (o : Option Hash) (code : UInt8)
    (amountCents : Nat) (eventIdHash : Hash) (s : State) : Except Err State := do
  let r ← cardContext ctx authorizer o s
  requireAuthorizer s.policy authorizer
  let kind ← okOr (ExceptionKind.ofCode code) (.policy .invalidPolicy)
  ensure (0 < amountCents) (.policy .invalidAmount)
  let policy ← recordEventId s.policy eventIdHash
  let (policy, period, r) ← kind.book amountCents policy s.period r
  let policy ← raiseException kind policy
  let policy ← appendLedger policy (event .exception r eventIdHash amountCents code)
    period.periodIndex ctx.now
  return { s with
    policy := policy, period := period, reservations := writeBack s.reservations o r }

def RESOLVE_DOMAIN : Bytes := ascii "chainpay-card-resolve:v1\n"

/-- The exception's own id is already in the ring, so a resolution is recorded
under a separate domain. -/
def resolveKey (eventIdHash : Hash) : Hash := hashv [RESOLVE_DOMAIN, Hash.bytes eventIdHash]

def resolveException (ctx : Ctx) (owner : Pubkey) (eventIdHash : Hash) (resolution : UInt8)
    (s : State) : Except Err State := do
  ownerContext ctx owner s
  requireEventId eventIdHash
  let policy ← recordEventId s.policy (resolveKey eventIdHash)
  ensure (0 < policy.exceptionsOpen) (.policy .noOpenExceptions)
  let policy ← appendLedger { policy with exceptionsOpen := policy.exceptionsOpen - 1 }
    (event .resolveException none eventIdHash 0 resolution) s.period.periodIndex ctx.now
  return { s with policy := policy }

/-! ## Moves -/

section Moves

variable {ctx : Ctx} {k : Pubkey} {s s' : State} {h : Hash}

theorem reservationContext_ok {r : Reservation} (hr : reservationContext ctx k h s = .ok r) :
    k ∈ ctx.signers ∧ s.reservations.lookup h = some r := by
  simp only [reservationContext, bind_eq_ok, exists_unit, signerContext_eq_ok, okOr_eq_ok] at hr
  exact ⟨hr.1.1, hr.2⟩

theorem cardContext_ok {o : Option Hash} {r : Option Reservation}
    (hr : cardContext ctx k o s = .ok r) :
    k ∈ ctx.signers ∧ r = o.bind fun h => s.reservations.lookup h := by
  simp only [cardContext, bind_eq_ok, exists_unit, signerContext_eq_ok] at hr
  obtain ⟨⟨hsig, -⟩, hr⟩ := hr
  cases o with
  | none =>
    cases hr
    exact ⟨hsig, rfl⟩
  | some h =>
    simp only [bind_eq_ok, okOr_eq_ok, pure_eq_ok] at hr
    obtain ⟨r', hl, rfl⟩ := hr
    exact ⟨hsig, hl.symm⟩

theorem settleEmpty_resized {r r' : Reservation} {e : ReservationState} {n : Nat}
    (hopen : ¬ e.isOpen) (hamount : r'.amountReservedCents = n)
    (hcaptured : r'.capturedCents = r.capturedCents)
    (hrefunded : r'.refundedCents = r.refundedCents) (hstate : r'.state = r.state) :
    Credit.Resized r (settleEmpty r' e) n := by
  unfold settleEmpty
  split
  · rename_i hzero
    refine ⟨hamount, hcaptured, hrefunded, fun _ => ?_, fun hn => absurd (hamount ▸ hzero) hn⟩
    change ¬ (if 0 < r'.capturedCents then ReservationState.captured else e).isOpen
    split
    · decide
    · exact hopen
  · rename_i hne
    exact ⟨hamount, hcaptured, hrefunded, fun h0 => absurd (hamount.trans h0) hne,
      fun _ => hstate⟩

theorem adjustReservation_move {n : Nat} (hr : adjustReservation ctx k h n s = .ok s') :
    Move ctx.signers s.credit (.adjust h n) s'.credit := by
  simp only [adjustReservation, bind_eq_ok, exists_unit, requireAuthorizer_eq_ok, ensure_eq_ok,
    pure_eq_ok] at hr
  obtain ⟨r, hctx, ⟨hset, hk⟩, hopen, ⟨q, r₁⟩, hres, p, hp, hs'⟩ := hr
  obtain ⟨hsig, hlook⟩ := reservationContext_ok hctx
  have hauth := authorized_of hsig hset hk
  have hcredit : s'.credit =
      ⟨s.policy.terms, q, s.reservations.insert h (settleEmpty r₁ .reversed)⟩ := by
    rw [← hs', ← appendLedger_terms hp]
    rfl
  rw [hcredit]
  simp only [resize] at hres
  split at hres
  · rename_i hlt
    simp only [releaseHold_eq, ok_bind, pure_eq_ok, Prod.mk.injEq] at hres
    obtain ⟨rfl, rfl⟩ := hres
    have hmin : min (r.amountReservedCents - n) r.amountReservedCents =
        r.amountReservedCents - n := Nat.min_eq_left (Nat.sub_le _ _)
    refine .adjustDown hauth hlook hopen hlt.le (settleEmpty_resized (by decide) ?_ rfl rfl rfl)
      ⟨rfl, rfl, rfl, rfl, ?_⟩
    · change r.amountReservedCents - min _ _ = n
      rw [hmin]
      omega
    · change s.period.reservedCents - min _ _ = s.period.reservedCents - _
      rw [hmin]
  · split at hres
    · rename_i hgt
      simp only [bind_eq_ok, exists_unit, add_eq_ok, ensure_eq_ok, pure_eq_ok,
        Prod.mk.injEq] at hres
      obtain ⟨-, -, -, _, -, -, -, left, hleft, hfits, _, ⟨-, rfl⟩, rfl, rfl⟩ := hres
      rw [available_ok hleft] at hfits
      exact .adjustUp hauth hlook hopen hgt (settleEmpty_resized (by decide) rfl rfl rfl rfl)
        hfits ⟨rfl, rfl, rfl, rfl, rfl⟩
    · rename_i hlt hgt
      simp only [pure_eq_ok, Prod.mk.injEq] at hres
      obtain ⟨rfl, rfl⟩ := hres
      have hn : n = r.amountReservedCents := by omega
      exact .adjustDown hauth hlook hopen hn.le
        (settleEmpty_resized (by decide) hn.symm rfl rfl rfl) ⟨rfl, rfl, rfl, rfl, by
          change s.period.reservedCents = s.period.reservedCents - _
          omega⟩

/-- A capture counts at most one more open exception. -/
theorem takeFromHold_policy {p p' : CardPolicy} {q q' : CardPeriod} {r r' : Reservation} {a : Nat}
    (ht : takeFromHold p q r a = .ok (p', q', r')) : ∃ n, p' = { p with exceptionsOpen := n } := by
  unfold takeFromHold at ht
  split at ht
  · simp only [releaseHold_eq, ok_bind] at ht
    split at ht
    · simp only [bind_eq_ok, add_eq_ok, increment_eq_ok, pure_eq_ok, Prod.mk.injEq] at ht
      obtain ⟨_, ⟨-, rfl⟩, _, ⟨-, rfl⟩, rfl, rfl, rfl⟩ := ht
      exact ⟨_, rfl⟩
    · simp only [pure_eq_ok, Prod.mk.injEq] at ht
      obtain ⟨rfl, rfl, rfl⟩ := ht
      exact ⟨p.exceptionsOpen, rfl⟩
  · simp only [pure_eq_ok, Prod.mk.injEq] at ht
    obtain ⟨rfl, rfl, rfl⟩ := ht
    exact ⟨p.exceptionsOpen, rfl⟩

theorem takeFromHold_ok {p p' : CardPolicy} {q q' : CardPeriod} {r r' : Reservation} {a : Nat}
    (ht : takeFromHold p q r a = .ok (p', q', r')) :
    p'.terms = p.terms ∧
      Credit.Counted q q' q.capturedCents (q.reservedCents - Credit.fromHold r a) ∧
      r'.amountReservedCents = r.amountReservedCents - Credit.fromHold r a ∧
      r'.capturedCents = r.capturedCents ∧ r'.refundedCents = r.refundedCents ∧
      Credit.CapturedState r r' := by
  unfold takeFromHold at ht
  unfold Credit.CapturedState Credit.fromHold
  split at ht
  · rename_i hstate
    simp only [if_pos hstate]
    simp only [releaseHold_eq, ok_bind] at ht
    -- with or without an excess, the hold ends captured exactly when it is used up
    split at ht
    · simp only [bind_eq_ok, add_eq_ok, increment_eq_ok, pure_eq_ok, Prod.mk.injEq] at ht
      obtain ⟨_, ⟨-, rfl⟩, _, ⟨-, rfl⟩, rfl, rfl, rfl⟩ := ht
      refine ⟨rfl, ⟨rfl, rfl, rfl, rfl, rfl⟩, rfl, rfl, rfl, fun h0 => ?_, fun h0 => ?_⟩
      · simp only [if_pos h0]
        decide
      · simp only [if_neg h0]
        decide
    · simp only [pure_eq_ok, Prod.mk.injEq] at ht
      obtain ⟨rfl, rfl, rfl⟩ := ht
      refine ⟨rfl, ⟨rfl, rfl, rfl, rfl, rfl⟩, rfl, rfl, rfl, fun h0 => ?_, fun h0 => ?_⟩
      · simp only [if_pos h0]
        decide
      · simp only [if_neg h0]
        decide
  · rename_i hstate
    simp only [if_neg hstate]
    simp only [pure_eq_ok, Prod.mk.injEq] at ht
    obtain ⟨rfl, rfl, rfl⟩ := ht
    exact ⟨rfl, ⟨rfl, rfl, rfl, rfl, rfl⟩, rfl, rfl, rfl, rfl⟩

theorem capture_move {a : Nat} {i : Hash} (hr : capture ctx k h a i s = .ok s') :
    Move ctx.signers s.credit (.capture h a) s'.credit := by
  simp only [capture, bind_eq_ok, exists_unit, requireAuthorizer_eq_ok, ensure_eq_ok, add_eq_ok,
    pure_eq_ok] at hr
  obtain ⟨r, hctx, ⟨hset, hk⟩, hpos, -, -, -, ⟨p, q, r₁⟩, htake, hbill, _, ⟨-, rfl⟩, _,
    ⟨-, rfl⟩, p₂, hp₂, p₃, hp₃, hs'⟩ := hr
  obtain ⟨hsig, hlook⟩ := reservationContext_ok hctx
  obtain ⟨hterms, hq, hamount, hcaptured, hrefunded, hstate⟩ := takeFromHold_ok htake
  have hfits := requireBillable_ok hbill
  rw [hq.captured, hq.reserved, budget_of_terms hterms] at hfits
  have hcredit : s'.credit = ⟨Credit.bill s.policy.terms a,
      { q with capturedCents := q.capturedCents + a },
      s.reservations.insert h { r₁ with
        capturedCents := r₁.capturedCents + a, captureIds := r₁.captureIds ++ [i] }⟩ := by
    rw [← hs', ← hterms, ← addExposure_terms hp₂, ← appendLedger_terms hp₃]
    rfl
  rw [hcredit]
  refine .capture (authorized_of hsig hset hk) hlook hpos hamount ?_ hrefunded hstate hfits
    ⟨hq.index, hq.start, hq.stop, ?_, hq.reserved⟩
  · change r₁.capturedCents + a = _
    rw [hcaptured]
  · change q.capturedCents + a = _
    rw [hq.captured]
    rfl

theorem reverse_move {a : Nat} {b : UInt8} {i : Hash} (hr : reverse ctx k h a b i s = .ok s') :
    Move ctx.signers s.credit (.reverse h a) s'.credit := by
  simp only [reverse, bind_eq_ok, exists_unit, requireAuthorizer_eq_ok, ensure_eq_ok, add_eq_ok,
    releaseHold_eq, ok_bind, pure_eq_ok] at hr
  obtain ⟨r, hctx, ⟨hset, hk⟩, -, -, p, hp, hopen, _, ⟨-, rfl⟩, p₂, hp₂, hs'⟩ := hr
  obtain ⟨hsig, hlook⟩ := reservationContext_ok hctx
  have hend : ¬ (if b = REVERSE_EXPIRY then ReservationState.expired
      else ReservationState.reversed).isOpen := by
    split <;> decide
  have hterms : p₂.terms = s.policy.terms := by
    rw [appendLedger_terms hp₂, recordEventId_terms hp]
  rw [← hs']
  simp only [State.credit, hterms]
  exact .reverse (authorized_of hsig hset hk) hlook hopen
    (settleEmpty_resized hend rfl rfl rfl rfl) ⟨rfl, rfl, rfl, rfl, rfl⟩

/-- A checked posting to the named Reservation, or to none, is a posting on the holds. -/
theorem onReservation_onHold {f : Reservation → Except Err Reservation} {o : Option Hash}
    {r' : Option Reservation} {hs : Table Hash Reservation} {a b : Nat}
    (hf : ∀ r r', f r = .ok r' → Credit.Posted r r' a b)
    (hctx : ∀ h, o = some h → (hs.lookup h).isSome)
    (hr : onReservation f (o.bind fun h => hs.lookup h) = .ok r') :
    Credit.OnHold hs a b o (writeBack hs o r') := by
  cases o with
  | none =>
    cases hr
    exact .none
  | some h =>
    obtain ⟨r, hlook⟩ := Option.isSome_iff_exists.mp (hctx h rfl)
    simp only [Option.bind_some, hlook, onReservation, bind_eq_ok, pure_eq_ok] at hr
    obtain ⟨r₁, hr₁, rfl⟩ := hr
    exact .some hlook (hf r r₁ hr₁)

theorem cardContext_isSome {o : Option Hash} {r : Option Reservation}
    (hr : cardContext ctx k o s = .ok r) :
    ∀ h, o = some h → (s.reservations.lookup h).isSome := by
  rintro h rfl
  simp only [cardContext, bind_eq_ok, exists_unit, okOr_eq_ok] at hr
  obtain ⟨-, r', hl, -⟩ := hr
  rw [hl]
  rfl

theorem refund_move {o : Option Hash} {a : Nat} {i : Hash}
    (hr : refund ctx k o a i s = .ok s') :
    Move ctx.signers s.credit (.refund o a) s'.credit := by
  simp only [refund, bind_eq_ok, exists_unit, requireAuthorizer_eq_ok, ensure_eq_ok, add_eq_ok,
    pure_eq_ok] at hr
  obtain ⟨r, hctx, ⟨hset, hk⟩, hpos, p, hp, _, ⟨-, rfl⟩, r', hpost, p₂, hp₂, p₃, hp₃, hs'⟩ := hr
  have hsome := cardContext_isSome hctx
  obtain ⟨hsig, rfl⟩ := cardContext_ok hctx
  have hterms : p₃.terms = Credit.unbill s.policy.terms a := by
    rw [appendLedger_terms hp₃, reduceExposure_terms hp₂, recordEventId_terms hp]
  rw [← hs']
  simp only [State.credit, hterms]
  refine .refund (authorized_of hsig hset hk) hpos ?_ (onReservation_onHold ?_ hsome hpost)
    ⟨rfl, rfl, rfl, rfl, rfl⟩
  · rintro h r rfl hlook
    have hlook' : s.reservations.lookup h = some r := hlook
    simp only [Option.bind_some, hlook', onReservation, bind_eq_ok, exists_unit, add_eq_ok,
      pure_eq_ok] at hpost
    obtain ⟨_, ⟨hcap, -⟩, -⟩ := hpost
    exact requireRefundable_ok hcap
  · intro r₁ r₂ hpost
    simp only [bind_eq_ok, exists_unit, add_eq_ok, pure_eq_ok] at hpost
    obtain ⟨-, _, ⟨-, rfl⟩, rfl⟩ := hpost
    exact ⟨rfl, rfl, rfl, rfl⟩

theorem recordDispute_move {b : UInt8} {i : Hash} (hr : recordDispute ctx k h b i s = .ok s') :
    Move ctx.signers s.credit (.dispute h) s'.credit := by
  simp only [recordDispute, bind_eq_ok, exists_unit, requireAuthorizer_eq_ok, ensure_eq_ok,
    pure_eq_ok] at hr
  obtain ⟨r, hctx, ⟨hset, hk⟩, -, p, hp, p₂, hp₂, hs'⟩ := hr
  obtain ⟨hsig, hlook⟩ := reservationContext_ok hctx
  have hterms : p₂.terms = s.policy.terms := by
    rw [appendLedger_terms hp₂, recordEventId_terms hp]
  rw [← hs']
  simp only [State.credit, hterms]
  exact .dispute (authorized_of hsig hset hk) (.some hlook ⟨rfl, rfl, rfl, rfl⟩)

/-- What an exception is to the credit line. -/
def ExceptionKind.label (kind : ExceptionKind) (o : Option Hash) (a : Nat) : Label :=
  match kind, o with
  | .overHold, some h => .overHold h a
  | .correctionCredit, o => .correct o a
  | _, o => .debit o a

section Booking

variable {o : Option Hash} {a : Nat} {p p' : CardPolicy} {q' : CardPeriod} {r' : Option Reservation}

theorem bookDebit_move {kind : ExceptionKind} (hauth : Credit.Authorized ctx.signers s.credit)
    (hpos : 0 < a) (hp : p.terms = s.policy.terms)
    (hsome : ∀ h, o = some h → (s.reservations.lookup h).isSome)
    (hb : bookDebit kind a p s.period (o.bind fun h => s.reservations.lookup h) =
      .ok (p', q', r')) :
    Move ctx.signers s.credit (.debit o a)
      ⟨p'.terms, q', writeBack s.reservations o r'⟩ := by
  simp only [bookDebit, bind_eq_ok, exists_unit, add_eq_ok, pure_eq_ok, Prod.mk.injEq] at hb
  obtain ⟨hbill, _, ⟨-, rfl⟩, _, ⟨-, rfl⟩, r₁, hpost, p₁, hp₁, rfl, rfl, rfl⟩ := hb
  have hfits := requireBillable_ok hbill
  rw [budget_of_terms hp] at hfits
  rw [addExposure_terms hp₁, hp]
  refine .debit hauth hpos (onReservation_onHold ?_ hsome hpost) hfits ⟨rfl, rfl, rfl, rfl, rfl⟩
  intro r₂ r₃ hpost
  simp only [bind_eq_ok, add_eq_ok, pure_eq_ok] at hpost
  obtain ⟨_, ⟨-, rfl⟩, rfl⟩ := hpost
  exact ⟨rfl, rfl, rfl, rfl⟩

theorem bookLate_move (hauth : Credit.Authorized ctx.signers s.credit) (hpos : 0 < a)
    (hp : p.terms = s.policy.terms)
    (hsome : ∀ h, o = some h → (s.reservations.lookup h).isSome)
    (hb : bookLate a p s.period (o.bind fun h => s.reservations.lookup h) = .ok (p', q', r')) :
    Move ctx.signers s.credit (.debit o a)
      ⟨p'.terms, q', writeBack s.reservations o r'⟩ := by
  simp only [bookLate, bind_eq_ok, exists_unit, ensure_eq_ok, add_eq_ok, pure_eq_ok,
    Prod.mk.injEq] at hb
  obtain ⟨hnone, hbill, _, ⟨-, rfl⟩, p₁, hp₁, rfl, rfl, rfl⟩ := hb
  have ho : o = none := by
    cases o with
    | none => rfl
    | some h =>
      have hl := hsome h rfl
      rw [show s.reservations.lookup h = none from hnone] at hl
      cases hl
  subst ho
  have hfits := requireBillable_ok hbill
  rw [budget_of_terms hp] at hfits
  rw [addExposure_terms hp₁, hp]
  exact .debit hauth hpos .none hfits ⟨rfl, rfl, rfl, rfl, rfl⟩

theorem bookOverHold_move (hauth : Credit.Authorized ctx.signers s.credit) (hpos : 0 < a)
    (hp : p.terms = s.policy.terms)
    (hb : bookOverHold a p s.period (o.bind fun h => s.reservations.lookup h) =
      .ok (p', q', r')) :
    ∃ h, o = some h ∧ Move ctx.signers s.credit (.overHold h a)
      ⟨p'.terms, q', writeBack s.reservations o r'⟩ := by
  simp only [bookOverHold, bind_eq_ok, exists_unit, okOr_eq_ok, ensure_eq_ok, add_eq_ok,
    pure_eq_ok, Prod.mk.injEq, Option.bind_eq_some_iff] at hb
  obtain ⟨r, ⟨h, rfl, hlook⟩, hopen, _, ⟨-, rfl⟩, _, ⟨-, rfl⟩, _, ⟨-, rfl⟩, rfl, rfl, rfl⟩ := hb
  refine ⟨h, rfl, ?_⟩
  rw [hp]
  refine .overHold hauth hlook hopen hpos ⟨rfl, rfl, rfl, fun h0 => ?_, fun _ => rfl⟩
    ⟨rfl, rfl, rfl, rfl, rfl⟩
  omega

theorem bookCredit_move (hauth : Credit.Authorized ctx.signers s.credit)
    (hp : p.terms = s.policy.terms)
    (hsome : ∀ h, o = some h → (s.reservations.lookup h).isSome)
    (hb : bookCredit a p s.period (o.bind fun h => s.reservations.lookup h) = .ok (p', q', r')) :
    Move ctx.signers s.credit (.correct o a)
      ⟨p'.terms, q', writeBack s.reservations o r'⟩ := by
  simp only [bookCredit, bind_eq_ok, add_eq_ok, pure_eq_ok, Prod.mk.injEq] at hb
  obtain ⟨_, ⟨-, rfl⟩, r₁, hpost, p₁, hp₁, rfl, rfl, rfl⟩ := hb
  rw [reduceExposure_terms hp₁, hp]
  refine .correct hauth (onReservation_onHold ?_ hsome hpost) ⟨rfl, rfl, rfl, rfl, rfl⟩
  intro r₂ r₃ hpost
  simp only [bind_eq_ok, add_eq_ok, pure_eq_ok] at hpost
  obtain ⟨_, ⟨-, rfl⟩, rfl⟩ := hpost
  exact ⟨rfl, rfl, rfl, rfl⟩

end Booking

theorem raiseException_policy {kind : ExceptionKind} {p p' : CardPolicy}
    (hr : raiseException kind p = .ok p') : ∃ n, p' = { p with exceptionsOpen := n } := by
  unfold raiseException at hr
  split at hr
  · cases hr
    exact ⟨p.exceptionsOpen, rfl⟩
  · simp only [bind_eq_ok, increment_eq_ok, pure_eq_ok] at hr
    obtain ⟨_, ⟨-, rfl⟩, rfl⟩ := hr
    exact ⟨_, rfl⟩

theorem raiseException_terms {kind : ExceptionKind} {p p' : CardPolicy}
    (hr : raiseException kind p = .ok p') : p'.terms = p.terms := by
  obtain ⟨n, rfl⟩ := raiseException_policy hr
  rfl

/-- An exception writes the outstanding balance only. -/
theorem book_policy {kind : ExceptionKind} {a : Nat} {p p' : CardPolicy} {q q' : CardPeriod}
    {r r' : Option Reservation} (hb : kind.book a p q r = .ok (p', q', r')) :
    ∃ n, p' = { p with statementOutstandingCents := n } := by
  have hdebit : ∀ kind, bookDebit kind a p q r = .ok (p', q', r') →
      ∃ n, p' = { p with statementOutstandingCents := n } := by
    intro kind hb
    simp only [bookDebit, bind_eq_ok, exists_unit, add_eq_ok, pure_eq_ok, Prod.mk.injEq] at hb
    obtain ⟨-, _, ⟨-, rfl⟩, _, ⟨-, rfl⟩, r₁, -, p₁, hp₁, rfl, rfl, rfl⟩ := hb
    exact ⟨_, addExposure_ok hp₁⟩
  cases kind with
  | lateCapture =>
    simp only [ExceptionKind.book, bookLate, bind_eq_ok, exists_unit, ensure_eq_ok, add_eq_ok,
      pure_eq_ok, Prod.mk.injEq] at hb
    obtain ⟨-, -, _, ⟨-, rfl⟩, p₁, hp₁, rfl, rfl, rfl⟩ := hb
    exact ⟨_, addExposure_ok hp₁⟩
  | overHold =>
    simp only [ExceptionKind.book, bookOverHold, bind_eq_ok, exists_unit, okOr_eq_ok,
      ensure_eq_ok, add_eq_ok, pure_eq_ok, Prod.mk.injEq] at hb
    obtain ⟨r₁, -, -, _, ⟨-, rfl⟩, _, ⟨-, rfl⟩, _, ⟨-, rfl⟩, rfl, rfl, rfl⟩ := hb
    exact ⟨p.statementOutstandingCents, rfl⟩
  | correctionCredit =>
    simp only [ExceptionKind.book, bookCredit, bind_eq_ok, add_eq_ok, pure_eq_ok,
      Prod.mk.injEq] at hb
    obtain ⟨_, ⟨-, rfl⟩, r₁, -, p₁, hp₁, rfl, rfl, rfl⟩ := hb
    exact ⟨_, reduceExposure_ok hp₁⟩
  | forcedCapture => exact hdebit _ hb
  | overCapture => exact hdebit _ hb
  | correctionDebit => exact hdebit _ hb
  | returnReversal => exact hdebit _ hb
  | unpairedCapture => exact hdebit _ hb

theorem recordException_move {o : Option Hash} {code : UInt8} {a : Nat} {i : Hash}
    (hr : recordException ctx k o code a i s = .ok s') :
    ∃ kind, ExceptionKind.ofCode code = some kind ∧
      Move ctx.signers s.credit (kind.label o a) s'.credit := by
  simp only [recordException, bind_eq_ok, exists_unit, requireAuthorizer_eq_ok, okOr_eq_ok,
    ensure_eq_ok, pure_eq_ok] at hr
  obtain ⟨r, hctx, ⟨hset, hk⟩, kind, hkind, hpos, p, hp, ⟨p₁, q, r'⟩, hbook, p₂, hp₂, p₃, hp₃,
    hs'⟩ := hr
  have hsome := cardContext_isSome hctx
  obtain ⟨hsig, rfl⟩ := cardContext_ok hctx
  have hauth := authorized_of hsig hset hk
  have hevent := recordEventId_terms hp
  have hcredit : s'.credit = ⟨p₁.terms, q, writeBack s.reservations o r'⟩ := by
    rw [← hs', ← raiseException_terms hp₂, ← appendLedger_terms hp₃]
    rfl
  refine ⟨kind, hkind, ?_⟩
  rw [hcredit]
  cases kind with
  | lateCapture => exact bookLate_move hauth hpos hevent hsome hbook
  | overHold =>
    obtain ⟨h, rfl, hmove⟩ := bookOverHold_move hauth hpos hevent hbook
    exact hmove
  | correctionCredit => exact bookCredit_move hauth hevent hsome hbook
  | forcedCapture => exact bookDebit_move hauth hpos hevent hsome hbook
  | overCapture => exact bookDebit_move hauth hpos hevent hsome hbook
  | correctionDebit => exact bookDebit_move hauth hpos hevent hsome hbook
  | returnReversal => exact bookDebit_move hauth hpos hevent hsome hbook
  | unpairedCapture => exact bookDebit_move hauth hpos hevent hsome hbook

theorem resolveException_credit {i : Hash} {b : UInt8}
    (hr : resolveException ctx k i b s = .ok s') : s'.credit = s.credit := by
  simp only [resolveException, bind_eq_ok, exists_unit, ensure_eq_ok, pure_eq_ok] at hr
  obtain ⟨-, -, p, hp, -, p₂, hp₂, rfl⟩ := hr
  have hterms : p₂.terms = s.policy.terms := by
    rw [appendLedger_terms hp₂, ← recordEventId_terms hp]
    rfl
  simp only [State.credit, hterms]

end Moves

end ChainPay.Card
