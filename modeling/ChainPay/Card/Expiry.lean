import ChainPay.Card.Exec

/-!
The two ways a hold past its expiry is released: the loop of `roll_period`, and
`reverse` with `REVERSE_EXPIRY` for the whole hold. Both leave nothing reserved and the
captured money alone, but `roll_period` neither counts the released cents as reversed nor
ends a partly captured hold CAPTURED (`expiry_paths_differ`), so a later capture is booked
as late where the other path flags it as over the hold.
-/

namespace ChainPay.Card
open ChainPay.Lib

/-! ## Expiry by `roll_period` -/

section Roll

variable {ctx : Ctx} {k : Pubkey} {s s' : State} {h : Hash} {r : Reservation}

/-- The Reservation `roll_period` leaves of an open hold past its expiry. -/
def Reservation.rolled (r : Reservation) : Reservation :=
  { r with amountReservedCents := 0, state := .expired }

theorem rolled_closed (r : Reservation) : ¬ r.rolled.state.isOpen := by
  rintro (he | he) <;> cases he

/-- One round touches the Reservation it is given, and only while that is open. -/
theorem expireOne_lookup {account : AccountRef} {w : Bool}
    (hstep : expireOne ctx account w s = .ok s') (hr : s.reservations.lookup h = some r) :
    s'.reservations.lookup h = some (if account = .ephemeral (.reservation h) ∧
      r.state.isOpen ∧ r.holdExpiresAt ≤ ctx.now then r.rolled else r) := by
  simp only [expireOne, bind_eq_ok, exists_unit, ensure_eq_ok] at hstep
  obtain ⟨-, hstep⟩ := hstep
  split at hstep
  · rename_i h'
    simp only [bind_eq_ok, okOr_eq_ok] at hstep
    obtain ⟨r', hr', hstep⟩ := hstep
    by_cases hh : h' = h
    · subst hh
      rw [hr] at hr'
      cases hr'
      split at hstep
      · rename_i hdue
        simp only [bind_eq_ok, pure_eq_ok] at hstep
        obtain ⟨p, -, rfl⟩ := hstep
        rw [if_pos ⟨rfl, hdue⟩, AList.lookup_insert]
        rfl
      · rename_i hdue
        rw [pure_eq_ok] at hstep
        subst hstep
        rw [if_neg fun hc => hdue hc.2]
        exact hr
    · have hne : ¬ (AccountRef.ephemeral (.reservation h') = .ephemeral (.reservation h)) := by
        intro he
        cases he
        exact hh rfl
      rw [if_neg fun hc => hne hc.1]
      split at hstep
      · simp only [bind_eq_ok, pure_eq_ok] at hstep
        obtain ⟨p, -, rfl⟩ := hstep
        rw [AList.lookup_insert_ne (Ne.symm hh)]
        exact hr
      · rw [pure_eq_ok] at hstep
        subst hstep
        exact hr
  · cases hstep

theorem expireAll_rolled {accounts : List (AccountRef × Bool)}
    (hloop : expireAll ctx accounts s = .ok s') (hr : s.reservations.lookup h = some r.rolled) :
    s'.reservations.lookup h = some r.rolled := by
  induction accounts generalizing s with
  | nil =>
    cases hloop
    exact hr
  | cons a rest ih =>
    simp only [expireAll, bind_eq_ok] at hloop
    obtain ⟨s₁, hstep, hloop⟩ := hloop
    have hmid := expireOne_lookup hstep hr
    rw [if_neg fun hc => rolled_closed r hc.2.1] at hmid
    exact ih hloop hmid

/-- An expired hold passed to the loop ends expired, however often it is passed. -/
theorem expireAll_lookup {accounts : List (AccountRef × Bool)}
    (hloop : expireAll ctx accounts s = .ok s') (hr : s.reservations.lookup h = some r)
    (hopen : r.state.isOpen) (hdue : r.holdExpiresAt ≤ ctx.now)
    (hin : AccountRef.ephemeral (.reservation h) ∈ accounts.map Prod.fst) :
    s'.reservations.lookup h = some r.rolled := by
  induction accounts generalizing s with
  | nil => cases hin
  | cons a rest ih =>
    obtain ⟨account, w⟩ := a
    simp only [expireAll, bind_eq_ok] at hloop
    obtain ⟨s₁, hstep, hloop⟩ := hloop
    have hmid := expireOne_lookup hstep hr
    by_cases hhere : account = .ephemeral (.reservation h)
    · rw [if_pos ⟨hhere, hopen, hdue⟩] at hmid
      exact expireAll_rolled hloop hmid
    · rw [if_neg fun hc => hhere hc.1] at hmid
      rw [List.map_cons, List.mem_cons] at hin
      exact ih hloop hmid (hin.resolve_left fun he => hhere he.symm)

/-- `roll_period` expires the open holds it is given. -/
theorem rollPeriod_lookup {accounts : List (AccountRef × Bool)}
    (hroll : rollPeriod ctx k accounts s = .ok s')
    (hin : AccountRef.ephemeral (.reservation h) ∈ accounts.map Prod.fst)
    (hr : s.reservations.lookup h = some r) (hopen : r.state.isOpen)
    (hdue : r.holdExpiresAt ≤ ctx.now) : s'.reservations.lookup h = some r.rolled := by
  simp only [rollPeriod, bind_eq_ok, exists_unit, pure_eq_ok] at hroll
  obtain ⟨-, -, -, s₁, hloop, _, -, _, -, p, -, rfl⟩ := hroll
  have hlook := expireAll_lookup hloop hr hopen hdue hin
  exact hlook

end Roll

/-! ## Expiry by `reverse` -/

section Reverse

variable {ctx : Ctx} {k : Pubkey} {s s' : State} {h i : Hash} {r : Reservation} {a : Nat}

/-- The Reservation `reverse` leaves of an open hold it releases whole, as an expiry. -/
def Reservation.reversedWhole (r : Reservation) : Reservation :=
  { r with
    amountReservedCents := 0
    reversedCents := r.reversedCents + r.amountReservedCents
    state := if 0 < r.capturedCents then .captured else .expired }

theorem reverse_lookup
    (hrev : reverse ctx k h r.amountReservedCents REVERSE_EXPIRY i s = .ok s')
    (hr : s.reservations.lookup h = some r) :
    0 < r.amountReservedCents ∧ s'.reservations.lookup h = some r.reversedWhole := by
  simp only [reverse, bind_eq_ok, exists_unit, ensure_eq_ok, add_eq_ok, releaseHold_eq, ok_bind,
    pure_eq_ok] at hrev
  obtain ⟨r', hctx, -, hpos, -, p, -, -, _, ⟨-, rfl⟩, p₂, -, rfl⟩ := hrev
  have hsame := (reservationContext_ok hctx).2
  rw [hr] at hsame
  cases hsame
  refine ⟨hpos, ?_⟩
  rw [AList.lookup_insert, Nat.min_self, Nat.sub_self]
  rfl

/-- A capture on an emptied hold is flagged over the hold where the hold ended CAPTURED, and
late where it did not. -/
theorem capture_flags (hcap : capture ctx k h a i s = .ok s')
    (hr : s.reservations.lookup h = some r) (hempty : r.amountReservedCents = 0) :
    ∃ c, s'.reservations.lookup h = some c ∧
      c.flags = r.flags ||| (if r.state.isOpen ∨ r.state = .captured then FLAG_OVER_CAPTURE
        else FLAG_LATE_CAPTURE) := by
  simp only [capture, bind_eq_ok, exists_unit, ensure_eq_ok, add_eq_ok, pure_eq_ok] at hcap
  obtain ⟨r', hctx, -, hpos, -, -, -, ⟨p, q, r₁⟩, htake, -, _, ⟨-, rfl⟩, _, ⟨-, rfl⟩, p₂, -, p₃, -,
    rfl⟩ := hcap
  have hsame := (reservationContext_ok hctx).2
  rw [hr] at hsame
  cases hsame
  refine ⟨_, AList.lookup_insert _, ?_⟩
  dsimp only
  unfold takeFromHold at htake
  split at htake
  · rename_i hheld
    simp only [releaseHold_eq, ok_bind, hempty, Nat.min_zero, Nat.sub_zero, if_pos hpos,
      bind_eq_ok, pure_eq_ok, Prod.mk.injEq] at htake
    obtain ⟨_, -, _, -, -, -, rfl⟩ := htake
    rw [if_pos hheld]
  · rename_i hheld
    simp only [pure_eq_ok, Prod.mk.injEq] at htake
    obtain ⟨-, -, rfl⟩ := htake
    rw [if_neg hheld]

end Reverse

/-! ## The two paths -/

/-- What the two paths are to leave alike. -/
structure SameHold (r₁ r₂ : Reservation) : Prop where
  state : r₁.state = r₂.state
  reserved : r₁.amountReservedCents = r₂.amountReservedCents
  captured : r₁.capturedCents = r₂.capturedCents
  reversed : r₁.reversedCents = r₂.reversedCents

/-- **The two expiry paths.** Whatever the hold captured before, `roll_period` and `reverse`
never leave the same Reservation: both release the whole hold and keep what was captured, but
only `reverse` counts the release as reversed, and only `reverse` ends a hold that captured
money CAPTURED, so that the next capture is flagged alike exactly when none was captured. -/
theorem expiry_paths_differ {s s₁ s₂ : State} {ctx₁ ctx₂ : Ctx} {k₁ k₂ : Pubkey} {h i : Hash}
    {r : Reservation} {accounts : List (AccountRef × Bool)}
    (hr : s.reservations.lookup h = some r) (hopen : r.state.isOpen)
    (hdue : r.holdExpiresAt ≤ ctx₁.now)
    (hin : AccountRef.ephemeral (.reservation h) ∈ accounts.map Prod.fst)
    (hroll : rollPeriod ctx₁ k₁ accounts s = .ok s₁)
    (hrev : reverse ctx₂ k₂ h r.amountReservedCents REVERSE_EXPIRY i s = .ok s₂) :
    ∃ r₁ r₂, s₁.reservations.lookup h = some r₁ ∧ s₂.reservations.lookup h = some r₂ ∧
      ¬ SameHold r₁ r₂ ∧
      r₁.amountReservedCents = 0 ∧ r₂.amountReservedCents = 0 ∧
      r₁.capturedCents = r.capturedCents ∧ r₂.capturedCents = r.capturedCents ∧
      r₁.reversedCents < r₂.reversedCents ∧
      (r₁.state = r₂.state ↔ r.capturedCents = 0) ∧
      (∀ ctx k a j s', capture ctx k h a j s₁ = .ok s' →
        ∃ c, s'.reservations.lookup h = some c ∧ c.flags = r.flags ||| FLAG_LATE_CAPTURE) ∧
      (∀ ctx k a j s', capture ctx k h a j s₂ = .ok s' →
        ∃ c, s'.reservations.lookup h = some c ∧ c.flags = r.flags |||
          (if 0 < r.capturedCents then FLAG_OVER_CAPTURE else FLAG_LATE_CAPTURE)) := by
  have hl₁ := rollPeriod_lookup hroll hin hr hopen hdue
  obtain ⟨hpos, hl₂⟩ := reverse_lookup hrev hr
  have hreversed : r.rolled.reversedCents < r.reversedWhole.reversedCents := by
    simp only [Reservation.rolled, Reservation.reversedWhole]
    omega
  refine ⟨r.rolled, r.reversedWhole, hl₁, hl₂, ?_, rfl, rfl, rfl, rfl, hreversed, ?_, ?_, ?_⟩
  · intro hsame
    exact absurd hsame.reversed (Nat.ne_of_lt hreversed)
  · simp only [Reservation.rolled, Reservation.reversedWhole]
    split
    · rename_i hcaptured
      exact ⟨nofun, fun hzero => absurd hzero hcaptured.ne'⟩
    · rename_i hzero
      exact ⟨fun _ => by omega, fun _ => rfl⟩
  · intro ctx k a j s' hcap
    obtain ⟨c, hc, hflags⟩ := capture_flags hcap hl₁ rfl
    refine ⟨c, hc, ?_⟩
    rw [hflags, if_neg (not_or.mpr ⟨rolled_closed r, nofun⟩)]
    rfl
  · intro ctx k a j s' hcap
    obtain ⟨c, hc, hflags⟩ := capture_flags hcap hl₂ rfl
    refine ⟨c, hc, ?_⟩
    rw [hflags]
    simp only [Reservation.reversedWhole]
    split <;> simp [ReservationState.isOpen]

namespace Sample

/-- A hold of 2000 with 500 captured, and nothing later than its expiry. -/
def partlyCaptured : State :=
  Runs.after exec start (setup 5000 3000 50 ++ purchase 20 2000 false ++
    [byAuthorizer (.capture authorizer (key 20) 500 (key 33))])

def rolledCard : Except Err State :=
  rollPeriod (ctxAt 1900000000 [authorizer]) authorizer
    [(.ephemeral (.reservation (key 20)), true)] partlyCaptured

def reversedCard : Except Err State :=
  reverse (ctxAt 1900000000 [authorizer]) authorizer (key 20) 1500 REVERSE_EXPIRY (key 34)
    partlyCaptured

/-- The four fields of the hold after a path. -/
def holdAfter (path : Except Err State) : Option (ReservationState × Nat × Nat × Nat) :=
  match path with
  | .ok s => (s.reservations.lookup (key 20)).map fun r =>
    (r.state, r.amountReservedCents, r.capturedCents, r.reversedCents)
  | .error _ => none

end Sample

open Sample in
theorem expiry_paths_differ_sample :
    ∃ s₁ s₂ r₁ r₂, rolledCard = .ok s₁ ∧ reversedCard = .ok s₂ ∧
      s₁.reservations.lookup (key 20) = some r₁ ∧ s₂.reservations.lookup (key 20) = some r₂ ∧
      ¬ SameHold r₁ r₂ := by
  obtain ⟨r, hr, hopen, hdue, hheld⟩ : ∃ r, partlyCaptured.reservations.lookup (key 20) = some r ∧
      r.state.isOpen ∧ r.holdExpiresAt ≤ 1900000000 ∧ r.amountReservedCents = 1500 := by
    refine ⟨(partlyCaptured.reservations.lookup (key 20)).get (by decide),
      (Option.some_get _).symm, ?_, ?_, ?_⟩ <;> decide
  cases h₁ : rolledCard with
  | error e =>
    have hnone : (holdAfter rolledCard).isSome = true := by decide
    rw [h₁] at hnone
    cases hnone
  | ok s₁ =>
    cases h₂ : reversedCard with
    | error e =>
      have hnone : (holdAfter reversedCard).isSome = true := by decide
      rw [h₂] at hnone
      cases hnone
    | ok s₂ =>
      have hrev : reverse (ctxAt 1900000000 [authorizer]) authorizer (key 20)
          r.amountReservedCents REVERSE_EXPIRY (key 34) partlyCaptured = .ok s₂ := by
        rw [hheld]
        exact h₂
      obtain ⟨r₁, r₂, hl₁, hl₂, hne, -⟩ := expiry_paths_differ hr hopen hdue
        (List.mem_singleton_self _) h₁ hrev
      exact ⟨s₁, s₂, r₁, r₂, rfl, rfl, hl₁, hl₂, hne⟩

open Sample in
/-- A hold of 2000 of which 500 were captured ends EXPIRED with nothing reversed one way, and
CAPTURED with 1500 reversed the other way. -/
theorem expiry_paths_disagree :
    Fresh start ∧
      (∃ r, partlyCaptured.reservations.lookup (key 20) = some r ∧ r.state.isOpen ∧
        r.amountReservedCents = 1500 ∧ r.holdExpiresAt ≤ 1900000000) ∧
      holdAfter rolledCard = some (.expired, 0, 500, 0) ∧
      holdAfter reversedCard = some (.captured, 0, 500, 1500) := by
  refine ⟨start_fresh, ⟨(partlyCaptured.reservations.lookup (key 20)).get (by decide),
    (Option.some_get _).symm, ?_, ?_, ?_⟩, ?_, ?_⟩ <;> decide

end ChainPay.Card
