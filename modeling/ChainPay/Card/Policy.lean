import ChainPay.Card.State

/-!
The card policy rules: fee, exposure and budget arithmetic, the argument checks,
the `authorize` rule chain, signer checks, the issuer event ring and the ledger
hash chain. All of it is pure, the first failing rule wins, and every amount is
a number of US cents.
-/

namespace ChainPay.Card
open ChainPay.Lib

/-! ## Checked arithmetic -/

/-- `u64` addition. -/
def add (a b : Nat) : Except Err Nat := okOr (checkedAdd 64 a b) (.policy .mathOverflow)

/-- `u64` subtraction. -/
def sub (a b : Nat) : Except Err Nat := okOr (checkedSub a b) (.policy .mathOverflow)

@[simp] theorem add_eq_ok {a b c : Nat} : add a b = .ok c ↔ a + b < 2 ^ 64 ∧ a + b = c := by
  simp [add]

@[simp] theorem sub_eq_ok {a b c : Nat} : sub a b = .ok c ↔ b ≤ a ∧ a - b = c := by
  simp [sub]

theorem add_eq_error {a b : Nat} {e : Err} :
    add a b = .error e ↔ 2 ^ 64 ≤ a + b ∧ e = .policy .mathOverflow := by
  simp only [add, okOr_eq_error, checkedAdd]
  split
  · rename_i hfit
    simp only [reduceCtorEq, false_and, false_iff]
    omega
  · rename_i hfit
    simp only [true_and]
    constructor
    · intro he
      exact ⟨by omega, he.symm⟩
    · intro h
      exact h.2.symm

/-- A `u16` or `u32` counter plus one. -/
def increment (w n : Nat) (e : CardPolicyError) : Except Err Nat := okOr (checkedAdd w n 1) (.policy e)

@[simp] theorem increment_eq_ok {w n m : Nat} {e : CardPolicyError} :
    increment w n e = .ok m ↔ n + 1 < 2 ^ w ∧ n + 1 = m := by
  simp [increment]

/-- `i64` addition of seconds to a timestamp. -/
def later (t d : Int) : Except Err Int := okOr (checkedAddI64 t d) (.policy .mathOverflow)

@[simp] theorem later_eq_ok {t d u : Int} :
    later t d = .ok u ↔ (-(2 ^ 63) ≤ t + d ∧ t + d < 2 ^ 63) ∧ t + d = u := by
  simp [later]

/-! ## Fee and exposure -/

/-- `floor(amount * fee_bps / 10_000)`. -/
def fee (amountCents feeBps : Nat) : Except Err Nat := do
  ensure (amountCents * feeBps < 2 ^ 128) (.policy .mathOverflow)
  ensure (amountCents * feeBps / BPS_DENOMINATOR < 2 ^ 64) (.policy .mathOverflow)
  return amountCents * feeBps / BPS_DENOMINATOR

/-- Amount plus its fee. -/
def withFee (amountCents feeBps : Nat) : Except Err Nat := do
  add amountCents (← fee amountCents feeBps)

/-- The fee as a number, for statements about amounts that fit. -/
def feeOf (amountCents feeBps : Nat) : Nat := amountCents * feeBps / BPS_DENOMINATOR

/-- What one debit or credit of `amountCents` weighs on the exposure. -/
def grossOf (amountCents feeBps : Nat) : Nat := amountCents + feeOf amountCents feeBps

/-- Splitting an amount never raises its fees. -/
theorem feeOf_add_le (a b f : Nat) : feeOf a f + feeOf b f ≤ feeOf (a + b) f := by
  unfold feeOf
  rw [Nat.add_mul]
  exact Nat.div_add_div_le_add_div

theorem feeOf_mono {a b : Nat} (f : Nat) (h : a ≤ b) : feeOf a f ≤ feeOf b f :=
  Nat.div_le_div_right (Nat.mul_le_mul_right f h)

theorem grossOf_add_le (a b f : Nat) : grossOf a f + grossOf b f ≤ grossOf (a + b) f := by
  have := feeOf_add_le a b f
  unfold grossOf
  omega

theorem grossOf_mono {a b : Nat} (f : Nat) (h : a ≤ b) : grossOf a f ≤ grossOf b f :=
  Nat.add_le_add h (feeOf_mono f h)

/-- The fee of any amount within the policy limits. -/
theorem fee_eq {a f : Nat} (ha : a ≤ MAX_BUDGET_CENTS) (hf : f ≤ MAX_FEE_BPS) :
    fee a f = .ok (feeOf a f) := by
  have hprod : a * f ≤ MAX_BUDGET_CENTS * MAX_FEE_BPS := Nat.mul_le_mul ha hf
  have hdiv : a * f / BPS_DENOMINATOR ≤ a * f := Nat.div_le_self _ _
  have hmax : MAX_BUDGET_CENTS * MAX_FEE_BPS < 2 ^ 64 := by decide
  rw [fee, ensure_pos (by omega), ok_bind, ensure_pos (by omega), ok_bind]
  rfl

theorem fee_ok {a f c : Nat} (h : fee a f = .ok c) : c = feeOf a f := by
  simp only [fee, bind_eq_ok, exists_unit, ensure_eq_ok, pure_eq_ok] at h
  obtain ⟨-, -, rfl⟩ := h
  rfl

theorem withFee_ok {a f c : Nat} (h : withFee a f = .ok c) : c = grossOf a f := by
  simp only [withFee, bind_eq_ok, add_eq_ok] at h
  obtain ⟨k, hk, -, rfl⟩ := h
  rw [fee_ok hk]
  rfl

/-- `captured + reserved + amount <= budget`. -/
def requireBillable (policy : CardPolicy) (period : CardPeriod) (amountCents : Nat) :
    Except Err Unit := do
  let used ← add period.capturedCents period.reservedCents
  let total ← add used amountCents
  ensure (total ≤ policy.budgetCents) (.policy .budgetExceeded)

/-- `available = budget - (captured + reserved)`, never negative. -/
def available (policy : CardPolicy) (period : CardPeriod) : Except Err Nat := do
  let used ← add period.capturedCents period.reservedCents
  return policy.budgetCents - used

theorem requireBillable_ok {p : CardPolicy} {q : CardPeriod} {a : Nat} {u : Unit}
    (h : requireBillable p q a = .ok u) :
    q.capturedCents + q.reservedCents + a ≤ p.budgetCents := by
  simp only [requireBillable, bind_eq_ok, add_eq_ok, ensure_eq_ok] at h
  obtain ⟨_, ⟨-, rfl⟩, _, ⟨-, rfl⟩, hb⟩ := h
  exact hb

/-- The refusal itself: the sum fits 64 bits and passes the budget. -/
theorem requireBillable_refused {p : CardPolicy} {q : CardPeriod} {a : Nat} :
    requireBillable p q a = .error (.policy .budgetExceeded) ↔
      q.capturedCents + q.reservedCents + a < 2 ^ 64 ∧
        p.budgetCents < q.capturedCents + q.reservedCents + a := by
  simp only [requireBillable, bind_eq_error, add_eq_error, add_eq_ok, ensure_eq_error]
  constructor
  · rintro (⟨-, h⟩ | ⟨_, ⟨-, rfl⟩, ⟨-, h⟩ | ⟨_, ⟨hlt, rfl⟩, hle, -⟩⟩)
    · cases h
    · cases h
    · exact ⟨hlt, Nat.lt_of_not_le hle⟩
  · rintro ⟨hlt, hle⟩
    exact .inr ⟨_, ⟨by omega, rfl⟩, .inr ⟨_, ⟨hlt, rfl⟩, Nat.not_le_of_lt hle, trivial⟩⟩

theorem available_ok {p : CardPolicy} {q : CardPeriod} {v : Nat} (h : available p q = .ok v) :
    v = p.budgetCents - (q.capturedCents + q.reservedCents) := by
  simp only [available, bind_eq_ok, add_eq_ok, pure_eq_ok] at h
  obtain ⟨_, ⟨-, rfl⟩, rfl⟩ := h
  rfl

/-- Adds captured spend plus fee to the credit exposure. -/
def addExposure (policy : CardPolicy) (amountCents : Nat) : Except Err CardPolicy := do
  let gross ← withFee amountCents policy.feeBps
  let outstanding ← add policy.statementOutstandingCents gross
  return { policy with statementOutstandingCents := outstanding }

/-- `outstanding -= min(amount + fee(amount), outstanding)`. -/
def reduceExposure (policy : CardPolicy) (amountCents : Nat) : Except Err CardPolicy := do
  let credit ← withFee amountCents policy.feeBps
  return { policy with
    statementOutstandingCents := policy.statementOutstandingCents -
      min credit policy.statementOutstandingCents }

theorem addExposure_ok {p p' : CardPolicy} {a : Nat} (h : addExposure p a = .ok p') :
    p' = { p with
      statementOutstandingCents := p.statementOutstandingCents + grossOf a p.feeBps } := by
  simp only [addExposure, bind_eq_ok, add_eq_ok, pure_eq_ok] at h
  obtain ⟨g, hg, _, ⟨-, rfl⟩, rfl⟩ := h
  rw [withFee_ok hg]

theorem fee_error {a f : Nat} {e : Err} (h : fee a f = .error e) : e = .policy .mathOverflow := by
  simp only [fee, bind_eq_error, ensure_eq_error] at h
  rcases h with ⟨-, rfl⟩ | ⟨_, -, ⟨-, rfl⟩ | ⟨_, -, h⟩⟩
  · rfl
  · rfl
  · cases h

theorem addExposure_error {p : CardPolicy} {a : Nat} {e : Err} (h : addExposure p a = .error e) :
    e = .policy .mathOverflow := by
  simp only [addExposure, withFee, bind_eq_error, add_eq_error] at h
  rcases h with (h | ⟨_, -, -, rfl⟩) | ⟨_, -, ⟨-, rfl⟩ | ⟨_, -, h⟩⟩
  · exact fee_error h
  · rfl
  · rfl
  · cases h

theorem reduceExposure_ok {p p' : CardPolicy} {a : Nat} (h : reduceExposure p a = .ok p') :
    p' = { p with
      statementOutstandingCents := p.statementOutstandingCents - grossOf a p.feeBps } := by
  simp only [reduceExposure, bind_eq_ok, pure_eq_ok] at h
  obtain ⟨g, hg, rfl⟩ := h
  rw [withFee_ok hg]
  congr 1
  omega

/-- `refunded + amount <= captured`. -/
def requireRefundable (capturedCents refundedCents amountCents : Nat) : Except Err Unit := do
  let total ← add refundedCents amountCents
  ensure (total ≤ capturedCents) (.policy .refundExceedsCapture)

theorem requireRefundable_ok {c r a : Nat} {u : Unit} (h : requireRefundable c r a = .ok u) :
    r + a ≤ c := by
  simp only [requireRefundable, bind_eq_ok, add_eq_ok, ensure_eq_ok] at h
  obtain ⟨_, ⟨-, rfl⟩, hc⟩ := h
  exact hc

/-! ## Policy arguments -/

structure PolicyArgs where
  budgetCents : Nat
  maxPurchaseCents : Nat
  maxPurchasesPerPeriod : Nat
  periodSeconds : Nat
  currency : Currency
  merchantIdHashes : List Hash
  mccs : List Nat
  expiresAt : Int
  recurringAllowed : Bool
  feeBps : Nat
  authorizer : Pubkey
  deriving DecidableEq, Repr

structure AuthorizeArgs where
  authIdHash : Hash
  intentId : IntentId
  amountCents : Nat
  currency : Currency
  merchantIdHash : Hash
  mcc : Nat
  merchantInitiated : Bool
  singleMessage : Bool
  deriving DecidableEq, Repr

structure IntentArgs where
  intentId : IntentId
  agent : Pubkey
  merchantIdHash : Hash
  mcc : Nat
  maxAmountCents : Nat
  currency : Currency
  expiresAt : Int
  deriving DecidableEq, Repr

def validatePolicyArgs (args : PolicyArgs) (owner : Pubkey) (now : Int) : Except Err Unit := do
  ensure (0 < args.maxPurchaseCents) (.policy .invalidPolicy)
  ensure (args.maxPurchaseCents ≤ args.budgetCents) (.policy .invalidPolicy)
  ensure (args.budgetCents ≤ MAX_BUDGET_CENTS) (.policy .invalidPolicy)
  ensure (MIN_PERIOD_SECONDS ≤ args.periodSeconds) (.policy .invalidPolicy)
  ensure (args.currency = USD) (.policy .invalidPolicy)
  ensure (args.feeBps ≤ MAX_FEE_BPS) (.policy .invalidPolicy)
  ensure (args.merchantIdHashes.length ≤ MAX_MERCHANTS ∧ args.mccs.length ≤ MAX_MCCS)
    (.policy .invalidPolicy)
  ensure (args.merchantIdHashes ≠ [] ∨ args.mccs ≠ []) (.policy .invalidPolicy)
  ensure (args.merchantIdHashes.Nodup ∧ args.mccs.Nodup) (.policy .invalidPolicy)
  ensure (0 ∉ args.merchantIdHashes ∧ 0 ∉ args.mccs) (.policy .invalidPolicy)
  ensure (args.expiresAt = 0 ∨ now < args.expiresAt) (.policy .invalidPolicy)
  ensure (args.authorizer ≠ 0 ∧ args.authorizer ≠ owner) (.policy .invalidPolicy)

theorem validatePolicyArgs_ok {args : PolicyArgs} {owner : Pubkey} {now : Int} {u : Unit}
    (h : validatePolicyArgs args owner now = .ok u) :
    args.budgetCents ≤ MAX_BUDGET_CENTS ∧ args.feeBps ≤ MAX_FEE_BPS ∧
      args.authorizer ≠ 0 ∧ args.authorizer ≠ owner := by
  simp only [validatePolicyArgs, bind_eq_ok, ensure_eq_ok, exists_unit] at h
  obtain ⟨-, -, hb, -, -, hf, -, -, -, -, -, ha⟩ := h
  exact ⟨hb, hf, ha⟩

/-- Writes validated policy fields. Never touches period counters, holds, credit
exposure, membership or the ledger. -/
def applyPolicyArgs (policy : CardPolicy) (args : PolicyArgs) : CardPolicy :=
  { policy with
    budgetCents := args.budgetCents
    maxPurchaseCents := args.maxPurchaseCents
    maxPurchasesPerPeriod := args.maxPurchasesPerPeriod
    periodSeconds := args.periodSeconds
    currency := args.currency
    merchantIdHashes := args.merchantIdHashes
    mccs := args.mccs
    expiresAt := args.expiresAt
    recurringAllowed := args.recurringAllowed
    feeBps := args.feeBps
    authorizer := args.authorizer }

def isExpired (policy : CardPolicy) (now : Int) : Prop :=
  policy.expiresAt ≠ 0 ∧ policy.expiresAt ≤ now

instance (policy : CardPolicy) (now : Int) : Decidable (isExpired policy now) :=
  inferInstanceAs (Decidable (_ ∧ _))

/-- An empty merchant list means "any merchant inside the allowed MCCs". -/
def merchantAllowed (policy : CardPolicy) (merchantIdHash : Hash) : Prop :=
  policy.merchantIdHashes = [] ∨ merchantIdHash ∈ policy.merchantIdHashes

instance (policy : CardPolicy) (h : Hash) : Decidable (merchantAllowed policy h) :=
  inferInstanceAs (Decidable (_ ∨ _))

/-- An empty MCC list means "any MCC". -/
def mccAllowed (policy : CardPolicy) (mcc : Nat) : Prop := policy.mccs = [] ∨ mcc ∈ policy.mccs

instance (policy : CardPolicy) (mcc : Nat) : Decidable (mccAllowed policy mcc) :=
  inferInstanceAs (Decidable (_ ∨ _))

/-- Set, not frozen, not in recovery, not expired. -/
def requireSpendable (policy : CardPolicy) (now : Int) : Except Err Unit := do
  ensure policy.isSet (.policy .policyNotSet)
  ensure (policy.frozen = false) (.policy .cardFrozen)
  ensure (policy.recoveryState = .normal) (.policy .recoveryFrozen)
  ensure (¬ isExpired policy now) (.policy .policyExpired)

def validateOpenIntent (policy : CardPolicy) (period : CardPeriod) (args : IntentArgs)
    (now : Int) : Except Err Unit := do
  requireSpendable policy now
  ensure (args.intentId ≠ 0 ∧ args.agent ≠ 0) (.policy .intentInvalid)
  -- the `&&` of the source only reaches the addition when the first half holds
  ensure (now < args.expiresAt) (.policy .intentInvalid)
  let latest ← later now MAX_INTENT_TTL_SECONDS
  ensure (args.expiresAt ≤ latest) (.policy .intentInvalid)
  ensure (merchantAllowed policy args.merchantIdHash) (.policy .merchantNotAllowed)
  ensure (args.mcc = 0 ∨ mccAllowed policy args.mcc) (.policy .mccNotAllowed)
  ensure (args.currency = policy.currency) (.policy .currencyMismatch)
  ensure (0 < args.maxAmountCents) (.policy .invalidAmount)
  ensure (args.maxAmountCents ≤ policy.maxPurchaseCents) (.policy .amountExceedsMax)
  let left ← available policy period
  ensure (args.maxAmountCents ≤ left) (.policy .budgetExceeded)

/-- The `authorize` rule chain, in its fixed order. -/
def validateAuthorize (policy : CardPolicy) (period : CardPeriod) (intent : CheckoutIntent)
    (args : AuthorizeArgs) (now : Int) : Except Err Unit := do
  requireSpendable policy now
  ensure (intent.state = .open ∧ intent.intentId = args.intentId) (.policy .intentInvalid)
  ensure (now ≤ intent.expiresAt) (.policy .intentExpired)
  ensure (intent.policyVersion = policy.policyVersion) (.policy .intentStale)
  ensure (args.merchantIdHash = intent.merchantIdHash) (.policy .merchantMismatch)
  ensure (merchantAllowed policy args.merchantIdHash) (.policy .merchantNotAllowed)
  ensure (mccAllowed policy args.mcc ∧ (intent.mcc = 0 ∨ intent.mcc = args.mcc))
    (.policy .mccNotAllowed)
  ensure (args.currency = intent.currency ∧ args.currency = policy.currency)
    (.policy .currencyMismatch)
  ensure (0 < args.amountCents) (.policy .invalidAmount)
  ensure (args.amountCents ≤ intent.maxAmountCents) (.policy .amountExceedsIntent)
  ensure (args.amountCents ≤ policy.maxPurchaseCents) (.policy .amountExceedsMax)
  let left ← available policy period
  ensure (args.amountCents ≤ left) (.policy .budgetExceeded)
  let nextCount ← increment 16 period.purchasesCount .velocityExceeded
  ensure (policy.maxPurchasesPerPeriod = 0 ∨ nextCount ≤ policy.maxPurchasesPerPeriod)
    (.policy .velocityExceeded)
  ensure (args.merchantInitiated = false ∨ policy.recurringAllowed = true)
    (.policy .recurringNotAllowed)

theorem validateAuthorize_ok {p : CardPolicy} {q : CardPeriod} {i : CheckoutIntent}
    {args : AuthorizeArgs} {now : Int} {u : Unit} (h : validateAuthorize p q i args now = .ok u) :
    0 < args.amountCents ∧
      args.amountCents ≤ p.budgetCents - (q.capturedCents + q.reservedCents) := by
  simp only [validateAuthorize, bind_eq_ok, ensure_eq_ok, exists_unit] at h
  obtain ⟨-, -, -, -, -, -, -, -, hpos, -, -, left, hleft, hle, -⟩ := h
  rw [available_ok hleft] at hle
  exact ⟨hpos, hle⟩

/-! ## Signers -/

def requireSigner (ctx : Ctx) (key : Pubkey) : Except Err Unit :=
  ensure (key ∈ ctx.signers) .missingSignature

def requireOwner (policy : CardPolicy) (signer : Pubkey) : Except Err Unit :=
  ensure (policy.owner = signer) (.policy .unauthorized)

def requireAuthorizer (policy : CardPolicy) (signer : Pubkey) : Except Err Unit := do
  ensure policy.isSet (.policy .policyNotSet)
  ensure (policy.authorizer = signer) (.policy .unauthorized)

/-- Returns `true` when the signer is the owner, `false` for the authorizer. -/
def requireOwnerOrAuthorizer (policy : CardPolicy) (signer : Pubkey) : Except Err Bool :=
  if policy.owner = signer then .ok true
  else do
    ensure (policy.isSet ∧ policy.authorizer = signer) (.policy .unauthorized)
    return false

@[simp] theorem requireSigner_eq_ok {ctx : Ctx} {k : Pubkey} {u : Unit} :
    requireSigner ctx k = .ok u ↔ k ∈ ctx.signers := by
  simp [requireSigner]

@[simp] theorem requireOwner_eq_ok {p : CardPolicy} {k : Pubkey} {u : Unit} :
    requireOwner p k = .ok u ↔ p.owner = k := by
  simp [requireOwner]

@[simp] theorem requireAuthorizer_eq_ok {p : CardPolicy} {k : Pubkey} {u : Unit} :
    requireAuthorizer p k = .ok u ↔ p.isSet ∧ p.authorizer = k := by
  simp [requireAuthorizer]

/-- A call into the permission, magic, system or ChainPay program. -/
def cpi (ctx : Ctx) : Except Err Unit := ensure (ctx.cpiOk = true) .cpi

@[simp] theorem cpi_eq_ok {ctx : Ctx} {u : Unit} : cpi ctx = .ok u ↔ ctx.cpiOk = true := by
  simp [cpi]

/-- Members are always private and never empty. -/
def privateMembers (policy : CardPolicy) : Except Err Unit :=
  ensure (policy.memberList ≠ []) (.policy .disclosureBlocked)

@[simp] theorem privateMembers_eq_ok {p : CardPolicy} {u : Unit} :
    privateMembers p = .ok u ↔ p.memberList ≠ [] := by
  simp [privateMembers]

/-! ## Issuer event ring and ephemeral count -/

def requireEventId (eventIdHash : Hash) : Except Err Unit :=
  ensure (eventIdHash ≠ 0) (.policy .invalidEventId)

@[simp] theorem requireEventId_eq_ok {h : Hash} {u : Unit} :
    requireEventId h = .ok u ↔ h ≠ 0 := by
  simp [requireEventId]

/-- Replay guard for issuer events that have no account of their own. -/
def recordEventId (policy : CardPolicy) (eventIdHash : Hash) : Except Err CardPolicy := do
  requireEventId eventIdHash
  ensure (policy.events.contains eventIdHash = false) (.policy .duplicateEvent)
  return { policy with events := policy.events.push eventIdHash }

theorem recordEventId_ok {p p' : CardPolicy} {h : Hash} (hr : recordEventId p h = .ok p') :
    h ≠ 0 ∧ p.events.contains h = false ∧ p' = { p with events := p.events.push h } := by
  simp only [recordEventId, bind_eq_ok, exists_unit, requireEventId_eq_ok, ensure_eq_ok,
    pure_eq_ok] at hr
  obtain ⟨hne, hnew, rfl⟩ := hr
  exact ⟨hne, hnew, rfl⟩

def ephemeralCreated (policy : CardPolicy) : Except Err CardPolicy := do
  let n ← increment 16 policy.ephemeralCount .mathOverflow
  return { policy with ephemeralCount := n }

def ephemeralClosed (policy : CardPolicy) : CardPolicy :=
  { policy with ephemeralCount := policy.ephemeralCount - 1 }

theorem ephemeralCreated_ok {p p' : CardPolicy} (h : ephemeralCreated p = .ok p') :
    p' = { p with ephemeralCount := p.ephemeralCount + 1 } := by
  simp only [ephemeralCreated, bind_eq_ok, increment_eq_ok, pure_eq_ok] at h
  obtain ⟨_, ⟨-, rfl⟩, rfl⟩ := h
  rfl

/-! ## Ledger -/

/-- Ledger event kinds. -/
inductive LedgerKind where
  | authorize | capture | reverse | refund | dispute | exception | roll | freeze | unfreeze
  | policySet | permissionChange | recoveryFreeze | restore | adjust | repayment
  | resolveException | confirmReconciled | closeReservation
  deriving DecidableEq, Repr

def LedgerKind.code : LedgerKind → UInt8
  | .authorize => 1 | .capture => 2 | .reverse => 3 | .refund => 4 | .dispute => 5
  | .exception => 6 | .roll => 7 | .freeze => 8 | .unfreeze => 9 | .policySet => 10
  | .permissionChange => 11 | .recoveryFreeze => 12 | .restore => 13 | .adjust => 14
  | .repayment => 15 | .resolveException => 16 | .confirmReconciled => 17
  | .closeReservation => 18

structure LedgerEvent where
  kind : LedgerKind
  authIdHash : Hash := 0
  eventIdHash : Hash := 0
  amountCents : Nat := 0
  stateAfter : UInt8 := 0
  deriving DecidableEq, Repr

def LEDGER_DOMAIN : Bytes := ascii "chainpay-card-ledger:v1\n"

/-- The 94 bytes of one event, integers little-endian. -/
def ledgerEventBytes (seq : Nat) (e : LedgerEvent) (periodIndex : Nat) (unixTs : Int) : Bytes :=
  leBytes 8 seq ++ [e.kind.code] ++ Hash.bytes e.authIdHash ++ Hash.bytes e.eventIdHash ++
    leBytes 8 e.amountCents ++ [e.stateAfter] ++ leBytes 4 periodIndex ++
    leBytes 8 (unixTs % 2 ^ 64).toNat

def nextLedgerHead (head : Hash) (eventBytes : Bytes) : Hash :=
  hashv [LEDGER_DOMAIN, Hash.bytes head, eventBytes]

/-- Appends one lifecycle event to the policy's hash chain. -/
def appendLedger (policy : CardPolicy) (e : LedgerEvent) (periodIndex : Nat) (unixTs : Int) :
    Except Err CardPolicy := do
  let seq ← add policy.ledgerSeq 1
  let bytes := ledgerEventBytes seq e periodIndex unixTs
  return { policy with ledgerHead := nextLedgerHead policy.ledgerHead bytes, ledgerSeq := seq }

/-- The ledger only moves its own two fields. -/
theorem appendLedger_ok {p p' : CardPolicy} {e : LedgerEvent} {i : Nat} {t : Int}
    (h : appendLedger p e i t = .ok p') :
    ∃ head, p' = { p with ledgerHead := head, ledgerSeq := p.ledgerSeq + 1 } := by
  simp only [appendLedger, bind_eq_ok, add_eq_ok, pure_eq_ok] at h
  obtain ⟨_, ⟨-, rfl⟩, rfl⟩ := h
  exact ⟨_, rfl⟩

theorem appendLedger_error {p : CardPolicy} {e : LedgerEvent} {i : Nat} {t : Int} {x : Err}
    (h : appendLedger p e i t = .error x) : x = .policy .mathOverflow := by
  simp only [appendLedger, bind_eq_error, add_eq_error] at h
  rcases h with ⟨-, rfl⟩ | ⟨_, -, h⟩
  · rfl
  · cases h

end ChainPay.Card
