import ChainPay.Card.Setup

/-!
New spending: checkout intents and `authorize`. Intents leave the credit line
alone. An approved authorization either places a hold or, when it is
single-message, captures at once; both are bounded by what the budget leaves.
-/

namespace ChainPay.Card
open ChainPay.Lib

/-! ## Checkout intents -/

def openCheckoutIntent (ctx : Ctx) (authorizer : Pubkey) (args : IntentArgs) (s : State) :
    Except Err State := do
  signerContext ctx authorizer s
  requireAuthorizer s.policy authorizer
  validateOpenIntent s.policy s.period args ctx.now
  ensure (s.intents.lookup args.intentId = none) (.policy .intentInvalid)
  cpi ctx
  privateMembers s.policy
  let policy ← ephemeralCreated s.policy
  return { s with
    policy := policy
    intents := s.intents.insert args.intentId {
      intentId := args.intentId
      agent := args.agent
      merchantIdHash := args.merchantIdHash
      mcc := args.mcc
      maxAmountCents := args.maxAmountCents
      currency := args.currency
      policyVersion := s.policy.policyVersion
      expiresAt := args.expiresAt
      state := .open
      reservation := none } }

def cancelCheckoutIntent (ctx : Ctx) (signer : Pubkey) (intentId : IntentId) (s : State) :
    Except Err State := do
  signerContext ctx signer s
  let intent ← okOr (s.intents.lookup intentId) .account
  let _ ← requireOwnerOrAuthorizer s.policy signer
  ensure (intent.state = .open) (.policy .intentInvalid)
  return { s with intents := s.intents.insert intentId { intent with state := .cancelled } }

/-- Returns a used, cancelled or expired intent's rent. -/
def closeCheckoutIntent (ctx : Ctx) (signer : Pubkey) (intentId : IntentId) (s : State) :
    Except Err State := do
  signerContext ctx signer s
  let _ ← requireOwnerOrAuthorizer s.policy signer
  let intent ← okOr (s.intents.lookup intentId) (.policy .invalidAccount)
  ensure (intent.state ≠ .open ∨ intent.expiresAt < ctx.now) (.policy .intentInvalid)
  cpi ctx
  return { s with policy := ephemeralClosed s.policy, intents := s.intents.erase intentId }

/-! ## Authorize -/

/-- A closed reservation for this `auth_id_hash` is still inside the guard's window. -/
def recentlyClosed (guard : Option AuthGuard) (authIdHash : Hash) : Bool :=
  match guard with
  | none => false
  | some g => g.recent.toList.contains authIdHash

/-- The Reservation of an approved authorization, as a hold. -/
def newReservation (args : AuthorizeArgs) (intent : CheckoutIntent) (periodIndex : Nat)
    (now expires : Int) : Reservation where
  authIdHash := args.authIdHash
  intent := args.intentId
  periodIndex := periodIndex
  amountReservedCents := args.amountCents
  capturedCents := 0
  reversedCents := 0
  refundedCents := 0
  state := .reserved
  disputeState := 0
  flags := (if args.singleMessage then FLAG_SINGLE_MESSAGE else 0) |||
    (if args.merchantInitiated then FLAG_RECURRING else 0)
  createdAt := now
  holdExpiresAt := expires
  captureIds := []
  maxAmountCents := intent.maxAmountCents

/-- Places the hold, or settles a single-message transaction at once. -/
def bookAuthorization (args : AuthorizeArgs) (r : Reservation) (period : CardPeriod)
    (policy : CardPolicy) : Except Err (Reservation × CardPeriod × CardPolicy) :=
  if args.singleMessage then do
    let captured ← add period.capturedCents args.amountCents
    let policy ← addExposure policy args.amountCents
    return ({ r with
      amountReservedCents := 0, capturedCents := args.amountCents, state := .captured },
      { period with capturedCents := captured }, policy)
  else do
    let reserved ← add period.reservedCents args.amountCents
    return (r, { period with reservedCents := reserved }, policy)

def authorize (ctx : Ctx) (authorizer : Pubkey) (args : AuthorizeArgs) (s : State) :
    Except Err State := do
  signerContext ctx authorizer s
  requireAuthorizer s.policy authorizer
  -- replay first: a duplicate always comes back as DuplicateAuthorization
  ensure (s.reservations.lookup args.authIdHash = none) (.policy .duplicateAuthorization)
  ensure (recentlyClosed s.guard args.authIdHash = false) (.policy .duplicateAuthorization)
  ensure (args.authIdHash ≠ 0) (.policy .invalidEventId)
  let intent ← okOr (s.intents.lookup args.intentId) (.policy .intentInvalid)
  validateAuthorize s.policy s.period intent args ctx.now
  cpi ctx
  privateMembers s.policy
  let expires ← later ctx.now HOLD_TTL_SECONDS
  let policy ← ephemeralCreated s.policy
  let count ← increment 16 s.period.purchasesCount .mathOverflow
  let (r, period, policy) ← bookAuthorization args
    (newReservation args intent s.period.periodIndex ctx.now expires)
    { s.period with purchasesCount := count } policy
  let policy ← appendLedger policy
    { kind := .authorize, authIdHash := args.authIdHash, amountCents := args.amountCents
      stateAfter := r.state.code }
    period.periodIndex ctx.now
  return { s with
    policy := policy
    period := period
    reservations := s.reservations.insert args.authIdHash r
    intents := s.intents.insert args.intentId
      { intent with state := .consumed, reservation := some args.authIdHash } }

section Moves

variable {ctx : Ctx} {k : Pubkey} {s s' : State}

theorem openCheckoutIntent_credit {args : IntentArgs}
    (h : openCheckoutIntent ctx k args s = .ok s') : s'.credit = s.credit := by
  simp only [openCheckoutIntent, bind_eq_ok, exists_unit, pure_eq_ok] at h
  obtain ⟨-, -, -, -, -, -, p, hp, rfl⟩ := h
  simp only [State.credit, ephemeralCreated_terms hp]

theorem cancelCheckoutIntent_credit {i : IntentId}
    (h : cancelCheckoutIntent ctx k i s = .ok s') : s'.credit = s.credit := by
  simp only [cancelCheckoutIntent, bind_eq_ok, exists_unit, pure_eq_ok] at h
  obtain ⟨-, _, -, -, -, -, rfl⟩ := h
  rfl

theorem closeCheckoutIntent_credit {i : IntentId}
    (h : closeCheckoutIntent ctx k i s = .ok s') : s'.credit = s.credit := by
  simp only [closeCheckoutIntent, bind_eq_ok, exists_unit, pure_eq_ok] at h
  obtain ⟨-, -, -, _, -, -, -, rfl⟩ := h
  rfl

/-- Booking writes the outstanding balance only. -/
theorem bookAuthorization_policy {args : AuthorizeArgs} {r r' : Reservation} {q q' : CardPeriod}
    {p p' : CardPolicy} (h : bookAuthorization args r q p = .ok (r', q', p')) :
    ∃ n, p' = { p with statementOutstandingCents := n } := by
  unfold bookAuthorization at h
  split at h
  · simp only [bind_eq_ok, add_eq_ok, pure_eq_ok, Prod.mk.injEq] at h
    obtain ⟨_, ⟨-, rfl⟩, p₁, hp₁, rfl, rfl, rfl⟩ := h
    exact ⟨_, addExposure_ok hp₁⟩
  · simp only [bind_eq_ok, add_eq_ok, pure_eq_ok, Prod.mk.injEq] at h
    obtain ⟨_, ⟨-, rfl⟩, rfl, rfl, rfl⟩ := h
    exact ⟨p.statementOutstandingCents, rfl⟩

/-- An authorizer-signed instruction runs on a card whose authorizer signed. -/
theorem authorized_of (hsig : k ∈ ctx.signers) (hset : s.policy.isSet)
    (hk : s.policy.authorizer = k) : Credit.Authorized ctx.signers s.credit :=
  ⟨hset, by change s.policy.authorizer ∈ _; rw [hk]; exact hsig⟩

/-- The label of an authorization: a charge when it is single-message. -/
def AuthorizeArgs.label (args : AuthorizeArgs) : Label :=
  if args.singleMessage then .charge args.authIdHash args.amountCents
  else .hold args.authIdHash args.amountCents

theorem authorize_move {args : AuthorizeArgs} (h : authorize ctx k args s = .ok s') :
    Move ctx.signers s.credit args.label s'.credit := by
  simp only [authorize, bind_eq_ok, exists_unit, signerContext_eq_ok, requireAuthorizer_eq_ok,
    ensure_eq_ok, increment_eq_ok, pure_eq_ok] at h
  obtain ⟨⟨hsig, -⟩, ⟨hset, hk⟩, hnew, -, -, intent, -, hval, -, -, expires, -, p, hp,
    _, ⟨-, rfl⟩, ⟨r, q, p₂⟩, hbook, p₃, hp₃, hs'⟩ := h
  obtain ⟨hpos, hfits⟩ := validateAuthorize_ok hval
  have hauth := authorized_of hsig hset hk
  have hcredit : s'.credit = ⟨p₂.terms, q, s.reservations.insert args.authIdHash r⟩ := by
    rw [← hs', ← appendLedger_terms hp₃]
    rfl
  unfold bookAuthorization at hbook
  unfold AuthorizeArgs.label
  split at hbook
  · rename_i hsingle
    simp only [bind_eq_ok, add_eq_ok, pure_eq_ok, Prod.mk.injEq] at hbook
    obtain ⟨_, ⟨-, rfl⟩, p₄, hp₄, rfl, rfl, rfl⟩ := hbook
    rw [hcredit, addExposure_terms hp₄, ephemeralCreated_terms hp, if_pos hsingle]
    exact .charge hauth hnew hpos hfits rfl rfl rfl rfl ⟨rfl, rfl, rfl, rfl, rfl⟩
  · rename_i hsingle
    simp only [bind_eq_ok, add_eq_ok, pure_eq_ok, Prod.mk.injEq] at hbook
    obtain ⟨_, ⟨-, rfl⟩, rfl, rfl, rfl⟩ := hbook
    rw [hcredit, ephemeralCreated_terms hp, if_neg hsingle]
    exact .hold hauth hnew hpos hfits rfl rfl rfl rfl ⟨rfl, rfl, rfl, rfl, rfl⟩

end Moves

end ChainPay.Card
