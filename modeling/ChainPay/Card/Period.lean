import ChainPay.Card.Lifecycle

/-!
The end of a period and the end of a hold: `roll_period`, with its loop over the
reservations passed to it, and `close_reservation`, which moves a finished
hold's `auth_id_hash` into the replay guard.
-/

namespace ChainPay.Card
open ChainPay.Lib

/-! ## Rolling the period -/

/-- One round of the loop over the remaining accounts: an open hold past its
expiry is released. A reservation passed twice is read again, already expired. -/
def expireOne (ctx : Ctx) (account : AccountRef) (isWritable : Bool) (s : State) :
    Except Err State := do
  ensure (isWritable = true) (.policy .invalidAccount)
  match account with
  | .ephemeral (.reservation h) => do
    let r ← okOr (s.reservations.lookup h) .account
    if r.state.isOpen ∧ r.holdExpiresAt ≤ ctx.now then
      let policy ← appendLedger s.policy
        { kind := .reverse, authIdHash := r.authIdHash, amountCents := r.amountReservedCents
          stateAfter := ReservationState.expired.code }
        s.period.periodIndex ctx.now
      return { s with
        policy := policy
        period := { s.period with
          reservedCents := s.period.reservedCents - r.amountReservedCents }
        reservations := s.reservations.insert h
          { r with amountReservedCents := 0, state := .expired } }
    else return s
  | _ => .error .account

def expireAll (ctx : Ctx) : List (AccountRef × Bool) → State → Except Err State
  | [], s => .ok s
  | (account, isWritable) :: rest, s => do
    let s ← expireOne ctx account isWritable s
    expireAll ctx rest s

/-- Resets the purchase allowance only. Open holds and credit exposure carry over. -/
def rollPeriod (ctx : Ctx) (authorizer : Pubkey) (remaining : List (AccountRef × Bool))
    (s : State) : Except Err State := do
  signerContext ctx authorizer s
  requireAuthorizer s.policy authorizer
  ensure (s.period.periodEnd ≤ ctx.now) (.policy .periodNotEnded)
  let s ← expireAll ctx remaining s
  let index ← increment 32 s.period.periodIndex .mathOverflow
  let stop ← later ctx.now s.policy.periodSeconds
  let period := { s.period with
    periodIndex := index
    periodStart := ctx.now
    periodEnd := stop
    capturedCents := 0
    refundedCents := 0
    purchasesCount := 0
    exceptionCents := 0 }
  let policy ← appendLedger s.policy { kind := .roll, amountCents := period.reservedCents }
    index ctx.now
  return { s with policy := policy, period := period }

/-! ## Closing a reservation -/

/-- Nothing remains reserved and the issuer can no longer move the hold. -/
def isFinal (r : Reservation) : Prop :=
  (r.state = .captured ∨ r.state = .reversed ∨ r.state = .expired) ∧
    r.amountReservedCents = 0 ∧ r.disputeState ≠ DISPUTE_OPEN

instance (r : Reservation) : Decidable (isFinal r) := inferInstanceAs (Decidable (_ ∧ _))

def CLOSED_DOMAIN : Bytes := ascii "chainpay-card-closed:v1\n"

/-- The hash chain over every closed reservation's final numbers. -/
def closedHead (head : Hash) (r : Reservation) : Hash :=
  hashv [CLOSED_DOMAIN, Hash.bytes head, Hash.bytes r.authIdHash, leBytes 8 r.capturedCents,
    leBytes 8 r.reversedCents, leBytes 8 r.refundedCents, [r.state.code, r.disputeState, r.flags]]

def emptyGuard : AuthGuard := ⟨0, 0, Vector.replicate _ 0⟩

/-- Records one closed reservation: ring slot, count, hash chain. -/
def AuthGuard.push (g : AuthGuard) (authIdHash head : Hash) (count : Nat) : AuthGuard where
  closedCount := count
  closedHead := head
  recent := g.recent.setIfInBounds (g.closedCount % GUARD_RING) authIdHash

/-- The card's guard, created on the first close. -/
def openGuard (ctx : Ctx) (s : State) : Except Err AuthGuard :=
  match s.guard with
  | some g => .ok g
  | none => do
    cpi ctx
    privateMembers s.policy
    return emptyGuard

/-- The count after a close: the reservation is gone, a first guard is new. -/
def countClose (policy : CardPolicy) (createdGuard : Bool) : Except Err CardPolicy :=
  if createdGuard then ephemeralCreated (ephemeralClosed policy)
  else .ok (ephemeralClosed policy)

def closeReservation (ctx : Ctx) (signer : Pubkey) (h : Hash) (s : State) :
    Except Err State := do
  signerContext ctx signer s
  let _ ← requireOwnerOrAuthorizer s.policy signer
  let r ← okOr (s.reservations.lookup h) (.policy .invalidAccount)
  ensure (isFinal r) (.policy .reservationNotFinal)
  let g ← openGuard ctx s
  let count ← add g.closedCount 1
  let g := g.push r.authIdHash (closedHead g.closedHead r) count
  cpi ctx
  let policy ← countClose s.policy s.guard.isNone
  let policy ← appendLedger policy
    { kind := .closeReservation, authIdHash := r.authIdHash, amountCents := r.capturedCents
      stateAfter := r.state.code }
    s.period.periodIndex ctx.now
  return { s with
    policy := policy, reservations := s.reservations.erase h, guard := some g }

/-! ## Moves -/

section Moves

variable {ctx : Ctx} {k : Pubkey} {s s' : State}

/-- One round of the loop releases at most one expired hold. -/
theorem expireOne_credit {account : AccountRef} {w : Bool}
    (h : expireOne ctx account w s = .ok s') :
    s'.credit = s.credit ∨ Credit.Expire s.credit s'.credit := by
  simp only [expireOne, bind_eq_ok, exists_unit, ensure_eq_ok] at h
  obtain ⟨-, h⟩ := h
  split at h
  · rename_i hash
    simp only [bind_eq_ok, okOr_eq_ok] at h
    obtain ⟨r, hlook, h⟩ := h
    split at h
    · rename_i hcond
      simp only [bind_eq_ok, pure_eq_ok] at h
      obtain ⟨p, hp, rfl⟩ := h
      right
      simp only [State.credit, appendLedger_terms hp]
      exact .mk hlook hcond.1
    · simp only [pure_eq_ok] at h
      exact .inl (congrArg State.credit h.symm)
  · cases h

theorem expireAll_credit {accounts : List (AccountRef × Bool)}
    (h : expireAll ctx accounts s = .ok s') :
    Relation.ReflTransGen Credit.Expire s.credit s'.credit := by
  induction accounts generalizing s with
  | nil =>
    cases h
    exact .refl
  | cons a rest ih =>
    obtain ⟨account, w⟩ := a
    simp only [expireAll, bind_eq_ok] at h
    obtain ⟨s₁, h₁, h⟩ := h
    rcases expireOne_credit h₁ with he | he
    · rw [← he]
      exact ih h
    · exact .head he (ih h)

/-- Expiry keeps the terms and the period's identity. -/
theorem Credit.Expire.frame {c c' : Credit} (h : Relation.ReflTransGen Credit.Expire c c') :
    c'.terms = c.terms ∧ c'.period.periodIndex = c.period.periodIndex ∧
      c'.period.capturedCents = c.period.capturedCents := by
  induction h with
  | refl => exact ⟨rfl, rfl, rfl⟩
  | tail _ hstep ih =>
    cases hstep
    exact ih

theorem rollPeriod_move {accounts : List (AccountRef × Bool)}
    (h : rollPeriod ctx k accounts s = .ok s') :
    Move ctx.signers s.credit .roll s'.credit := by
  simp only [rollPeriod, bind_eq_ok, exists_unit, signerContext_eq_ok, requireAuthorizer_eq_ok,
    ensure_eq_ok, increment_eq_ok, later_eq_ok, pure_eq_ok] at h
  obtain ⟨⟨hsig, -⟩, ⟨hset, hk⟩, -, s₁, hloop, _, ⟨-, rfl⟩, stop, -, p, hp, rfl⟩ := h
  have hexp := expireAll_credit hloop
  simp only [State.credit, appendLedger_terms hp]
  refine .roll (authorized_of hsig hset hk) hexp rfl rfl ?_
  exact congrArg (· + 1) (Credit.Expire.frame hexp).2.1

theorem countClose_ok {p p' : CardPolicy} {b : Bool} (h : countClose p b = .ok p') :
    p' = { p with ephemeralCount := p.ephemeralCount - 1 + if b then 1 else 0 } := by
  unfold countClose at h
  split at h
  · rename_i hb
    rw [ephemeralCreated_ok h, if_pos hb]
    rfl
  · rename_i hb
    cases h
    rw [if_neg hb]
    rfl

theorem countClose_terms {p p' : CardPolicy} {b : Bool} (h : countClose p b = .ok p') :
    p'.terms = p.terms := by
  rw [countClose_ok h]
  rfl

theorem closeReservation_move {h : Hash} (hc : closeReservation ctx k h s = .ok s') :
    Move ctx.signers s.credit (.close h) s'.credit := by
  simp only [closeReservation, bind_eq_ok, exists_unit, okOr_eq_ok, ensure_eq_ok,
    pure_eq_ok] at hc
  obtain ⟨-, -, -, r, hlook, ⟨hstate, hamount, -⟩, g, -, _, -, -, p, hp, p₂, hp₂, rfl⟩ := hc
  have hterms : p₂.terms = s.policy.terms := by
    rw [appendLedger_terms hp₂, countClose_terms hp]
  simp only [State.credit, hterms]
  refine .close hlook ?_ hamount
  rcases hstate with hst | hst | hst <;> rw [hst] <;> decide

end Moves

end ChainPay.Card
