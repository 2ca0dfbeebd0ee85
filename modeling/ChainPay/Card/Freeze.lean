import ChainPay.Card.Setup

/-!
Freezing, recovery and restore. Freezing and recovery never touch the credit
line; `restore` rewrites it from the reconciled numbers and needs both the owner
and the member in slot 1.
-/

namespace ChainPay.Card
open ChainPay.Lib

def freeze (ctx : Ctx) (signer : Pubkey) (reason : UInt8) (s : State) : Except Err State := do
  signerContext ctx signer s
  let isOwner ← requireOwnerOrAuthorizer s.policy signer
  (if isOwner then
    ensure (reason = FREEZE_OWNER ∨ reason = FREEZE_EXPIRY) (.policy .invalidPolicy)
  else ensure (reason = FREEZE_AUTHORIZER_SAFETY) (.policy .unauthorized))
  let policy :=
    if s.policy.frozen then s.policy
    else { s.policy with frozen := true, freezeReason := reason }
  let policy ← appendLedger policy { kind := .freeze, stateAfter := reason }
    s.period.periodIndex ctx.now
  return { s with policy := policy }

def unfreeze (ctx : Ctx) (owner : Pubkey) (s : State) : Except Err State := do
  ownerContext ctx owner s
  ensure (s.policy.recoveryState = .normal) (.policy .recoveryFrozen)
  ensure (s.policy.exceptionsOpen = 0) (.policy .exceptionsOpen)
  let policy ← appendLedger { s.policy with frozen := false, freezeReason := FREEZE_NONE }
    { kind := .unfreeze } s.period.periodIndex ctx.now
  return { s with policy := policy }

def recoveryFreeze (ctx : Ctx) (signer : Pubkey) (reason : UInt8) (s : State) :
    Except Err State := do
  signerContext ctx signer s
  let _ ← requireOwnerOrAuthorizer s.policy signer
  let policy ← appendLedger
    { s.policy with frozen := true, freezeReason := FREEZE_RECOVERY, recoveryState := .frozen }
    { kind := .recoveryFreeze, stateAfter := reason } s.period.periodIndex ctx.now
  return { s with policy := policy }

structure RestoreArgs where
  policy : PolicyArgs
  periodIndex : Nat
  capturedCents : Nat
  reservedCents : Nat
  refundedCents : Nat
  purchasesCount : Nat
  exceptionCents : Nat
  statementOutstandingCents : Nat
  ledgerHead : Hash
  ledgerSeq : Nat
  reconDigest : Hash
  deriving DecidableEq, Repr

/-- Writes the reconciled values; the card stays frozen. -/
def restore (ctx : Ctx) (owner authorizer : Pubkey) (args : RestoreArgs) (s : State) :
    Except Err State := do
  requireSigner ctx owner
  requireSigner ctx authorizer
  requireLive s
  requireOwner s.policy owner
  ensure (2 ≤ s.policy.memberCount ∧ secondOf s.policy.members = authorizer) (.policy .unauthorized)
  ensure (s.policy.recoveryState = .frozen) (.policy .notInRecovery)
  ensure (args.reconDigest ≠ 0) (.policy .invalidEventId)
  validatePolicyArgs args.policy s.policy.owner ctx.now
  -- rotating the authorizer goes through `set_policy`
  ensure (2 ≤ s.policy.memberCount ∧ secondOf s.policy.members = args.policy.authorizer)
    (.policy .invalidPolicy)
  ensure (1 ≤ args.periodIndex) (.policy .invalidPolicy)
  let policy := applyPolicyArgs s.policy args.policy
  let version ← increment 32 policy.policyVersion .mathOverflow
  let policy := { policy with
    policyVersion := version
    statementOutstandingCents := args.statementOutstandingCents
    ledgerHead := args.ledgerHead
    ledgerSeq := args.ledgerSeq
    reconDigest := args.reconDigest
    recoveryState := .restoredPending
    frozen := true
    freezeReason := FREEZE_RECOVERY }
  let stop ← later ctx.now args.policy.periodSeconds
  let period : CardPeriod :=
    { periodIndex := args.periodIndex
      periodStart := ctx.now
      periodEnd := stop
      capturedCents := args.capturedCents
      reservedCents := args.reservedCents
      refundedCents := args.refundedCents
      purchasesCount := args.purchasesCount
      exceptionCents := args.exceptionCents }
  let policy ← appendLedger policy
    { kind := .restore, eventIdHash := args.reconDigest
      stateAfter := RecoveryState.restoredPending.code }
    args.periodIndex ctx.now
  return { s with policy := policy, period := period }

def confirmReconciled (ctx : Ctx) (owner : Pubkey) (reconDigest : Hash) (s : State) :
    Except Err State := do
  ownerContext ctx owner s
  ensure (s.policy.recoveryState = .restoredPending) (.policy .notInRecovery)
  ensure (s.policy.reconDigest = reconDigest) (.policy .reconDigestMismatch)
  let policy ← appendLedger { s.policy with recoveryState := .normal }
    { kind := .confirmReconciled, eventIdHash := reconDigest } s.period.periodIndex ctx.now
  return { s with policy := policy }

section Moves

variable {ctx : Ctx} {k : Pubkey} {s s' : State}

theorem freeze_credit {reason : UInt8} (h : freeze ctx k reason s = .ok s') :
    s'.credit = s.credit := by
  simp only [freeze, bind_eq_ok, exists_unit, pure_eq_ok] at h
  obtain ⟨-, -, -, -, p, hp, rfl⟩ := h
  simp only [State.credit, appendLedger_terms hp]
  split <;> rfl

theorem unfreeze_credit (h : unfreeze ctx k s = .ok s') : s'.credit = s.credit := by
  simp only [unfreeze, bind_eq_ok, exists_unit, pure_eq_ok] at h
  obtain ⟨-, -, -, p, hp, rfl⟩ := h
  simp only [State.credit, appendLedger_terms hp]
  rfl

theorem recoveryFreeze_credit {reason : UInt8} (h : recoveryFreeze ctx k reason s = .ok s') :
    s'.credit = s.credit := by
  simp only [recoveryFreeze, bind_eq_ok, exists_unit, pure_eq_ok] at h
  obtain ⟨-, -, -, p, hp, rfl⟩ := h
  simp only [State.credit, appendLedger_terms hp]
  rfl

theorem confirmReconciled_credit {d : Hash} (h : confirmReconciled ctx k d s = .ok s') :
    s'.credit = s.credit := by
  simp only [confirmReconciled, bind_eq_ok, exists_unit, pure_eq_ok] at h
  obtain ⟨-, -, -, p, hp, rfl⟩ := h
  simp only [State.credit, appendLedger_terms hp]
  rfl

theorem restore_move {a : Pubkey} {args : RestoreArgs} (h : restore ctx k a args s = .ok s') :
    Move ctx.signers s.credit .restore s'.credit := by
  simp only [restore, bind_eq_ok, exists_unit, requireSigner_eq_ok, requireOwner_eq_ok,
    ensure_eq_ok, increment_eq_ok, later_eq_ok, pure_eq_ok] at h
  obtain ⟨-, hsig, -, hown, ⟨hcount, ha⟩, -, -, hargs, ⟨-, hsecond⟩, hindex, v, ⟨-, rfl⟩,
    stop, -, p, hp, rfl⟩ := h
  obtain ⟨hmax, hfee, hset, hother⟩ := validatePolicyArgs_ok hargs
  have hterms := appendLedger_terms hp
  refine Move.to (.restore (t := p.terms) (q := _) ?_ hcount ?_ ?_ ?_ ?_ ?_ ?_ ?_ ?_) rfl
  · change secondOf s.policy.members ∈ ctx.signers
    rw [ha]
    exact hsig
  · rw [hterms]
    rfl
  · rw [hterms]
    exact hsecond
  · rw [hterms]
    exact hset
  · rw [hterms]
    rfl
  · rw [hterms]
    exact hother
  · rw [hterms]
    exact ⟨hmax, hfee⟩
  · rw [hterms]
    rfl
  · exact Nat.one_le_iff_ne_zero.mp hindex

end Moves

end ChainPay.Card
