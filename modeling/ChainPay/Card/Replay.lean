import ChainPay.Card.Exec

/-!
The two replay guards of issuer events. An event without an account of its own
leaves its id on the policy's event ring; a capture leaves it on its Reservation,
for as long as that is open. `exec_guards` says for every instruction what it does
to both: which id it found unused and recorded, on which guard.
-/

namespace ChainPay.Card
open ChainPay.Lib

/-- The id an instruction records on the event ring. -/
def Instr.recordedId : Instr → Option Hash
  | .reverse _ _ _ _ i | .refund _ _ _ i | .recordDispute _ _ _ i | .recordException _ _ _ _ i =>
    some i
  | .resolveException _ i _ => some (resolveKey i)
  | _ => none

/-- The id a capture records on the Reservation `h`. -/
def Instr.capturedId (h : Hash) : Instr → Option Hash
  | .capture _ h' _ i => if h' = h then some i else none
  | _ => none

/-- The event whose money an instruction moves. -/
def Instr.moneyId : Instr → Option Hash
  | .capture _ _ _ i | .reverse _ _ _ _ i | .refund _ _ _ i | .recordException _ _ _ _ i => some i
  | _ => none

/-- The Reservation an instruction creates. -/
def Instr.creates : Instr → Option Hash
  | .authorize _ args => some args.authIdHash
  | _ => none

/-- The Reservation an instruction closes. -/
def Instr.closes : Instr → Option Hash
  | .closeReservation _ h => some h
  | _ => none

/-- The instruction empties the card. -/
def Instr.wipes : Instr → Bool
  | .wipeCard .. => true
  | _ => false

/-- The ids captured on a Reservation that is there. -/
def State.capturedOn (s : State) (h : Hash) : Option (List Hash) :=
  (s.reservations.lookup h).map Reservation.captureIds

/-- The ring after an instruction that records `id`, if any. -/
def Recorded (before after : Ring Hash EVENT_RING) : Option Hash → Prop
  | none => after = before
  | some i => i ≠ 0 ∧ before.contains i = false ∧ after = before.push i

/-- What one instruction does to the capture ids of Reservation `h`. -/
inductive CapturedStep (instr : Instr) (h : Hash) : Option (List Hash) → Option (List Hash) → Prop
  | same {o : Option (List Hash)} (hc : instr.capturedId h = none) (hn : instr.creates ≠ some h)
      (hk : instr.closes ≠ some h) : CapturedStep instr h o o
  | captured {ids : List Hash} {i : Hash} (hc : instr.capturedId h = some i) (hnew : i ∉ ids) :
      CapturedStep instr h (some ids) (some (ids ++ [i]))
  | created (hc : instr.creates = some h) : CapturedStep instr h none (some [])
  | closed {ids : List Hash} (hc : instr.closes = some h) : CapturedStep instr h (some ids) none

theorem CapturedStep.of_eq {instr : Instr} {h : Hash} {o o' : Option (List Hash)}
    (hc : instr.capturedId h = none) (hn : instr.creates ≠ some h) (hk : instr.closes ≠ some h)
    (he : o' = o) : CapturedStep instr h o o' := by
  rw [he]
  exact .same hc hn hk

/-! ## The event ring -/

section Ring

variable {p p' : CardPolicy}

theorem appendLedger_events {e : LedgerEvent} {i : Nat} {t : Int}
    (h : appendLedger p e i t = .ok p') : p'.events = p.events := by
  obtain ⟨head, rfl⟩ := appendLedger_ok h
  rfl

theorem recordEventId_events {i : Hash} (h : recordEventId p i = .ok p') :
    Recorded p.events p'.events (some i) := by
  obtain ⟨hne, hnew, rfl⟩ := recordEventId_ok h
  exact ⟨hne, hnew, rfl⟩

theorem addExposure_events {a : Nat} (h : addExposure p a = .ok p') : p'.events = p.events := by
  rw [addExposure_ok h]

theorem reduceExposure_events {a : Nat} (h : reduceExposure p a = .ok p') :
    p'.events = p.events := by
  rw [reduceExposure_ok h]

theorem ephemeralCreated_events (h : ephemeralCreated p = .ok p') : p'.events = p.events := by
  rw [ephemeralCreated_ok h]

theorem raiseException_events {kind : ExceptionKind} (h : raiseException kind p = .ok p') :
    p'.events = p.events := by
  obtain ⟨n, rfl⟩ := raiseException_policy h
  rfl

theorem countClose_events {b : Bool} (h : countClose p b = .ok p') : p'.events = p.events := by
  rw [countClose_ok h]

theorem editMembers_events {op : PermissionOp} {k : Pubkey} {b : UInt8}
    (h : editMembers p op = .ok (p', k, b)) : p'.events = p.events := by
  obtain ⟨_, _, _, rfl⟩ := editMembers_policy h
  rfl

theorem rotateAuthorizer_events {k : Pubkey} (h : rotateAuthorizer p k = .ok p') :
    p'.events = p.events := by
  obtain ⟨_, rfl⟩ := rotateAuthorizer_policy h
  rfl

theorem bookAuthorization_events {args : AuthorizeArgs} {r r' : Reservation} {q q' : CardPeriod}
    (h : bookAuthorization args r q p = .ok (r', q', p')) :
    p'.events = p.events ∧ r'.captureIds = r.captureIds := by
  unfold bookAuthorization at h
  split at h
  · simp only [bind_eq_ok, add_eq_ok, pure_eq_ok, Prod.mk.injEq] at h
    obtain ⟨_, ⟨-, rfl⟩, p₁, hp₁, rfl, rfl, rfl⟩ := h
    exact ⟨addExposure_events hp₁, rfl⟩
  · simp only [bind_eq_ok, add_eq_ok, pure_eq_ok, Prod.mk.injEq] at h
    obtain ⟨_, ⟨-, rfl⟩, rfl, rfl, rfl⟩ := h
    exact ⟨rfl, rfl⟩

theorem takeFromHold_guards {q q' : CardPeriod} {r r' : Reservation} {a : Nat}
    (h : takeFromHold p q r a = .ok (p', q', r')) :
    p'.events = p.events ∧ r'.captureIds = r.captureIds := by
  unfold takeFromHold at h
  split at h
  · simp only [releaseHold_eq, ok_bind] at h
    split at h
    · simp only [bind_eq_ok, add_eq_ok, increment_eq_ok, pure_eq_ok, Prod.mk.injEq] at h
      obtain ⟨_, ⟨-, rfl⟩, _, ⟨-, rfl⟩, rfl, rfl, rfl⟩ := h
      exact ⟨rfl, rfl⟩
    · simp only [pure_eq_ok, Prod.mk.injEq] at h
      obtain ⟨rfl, rfl, rfl⟩ := h
      exact ⟨rfl, rfl⟩
  · simp only [pure_eq_ok, Prod.mk.injEq] at h
    obtain ⟨rfl, rfl, rfl⟩ := h
    exact ⟨rfl, rfl⟩

end Ring

/-! ## Capture ids -/

section Captures

variable {hs : Table Hash Reservation} {h k : Hash} {r r' : Reservation}

theorem map_lookup_insert (hr : hs.lookup k = some r) (hids : r'.captureIds = r.captureIds)
    (h : Hash) : ((hs.insert k r').lookup h).map Reservation.captureIds =
      (hs.lookup h).map Reservation.captureIds := by
  by_cases hk : h = k
  · subst hk
    rw [AList.lookup_insert, hr]
    simp only [Option.map_some, hids]
  · rw [AList.lookup_insert_ne hk]

/-- Posting to the named Reservation, or to none, keeps all capture ids. -/
theorem map_lookup_writeBack {o : Option Hash} {f : Reservation → Except Err Reservation}
    {x : Option Reservation}
    (hf : ∀ r r', f r = .ok r' → r'.captureIds = r.captureIds)
    (hsome : ∀ k, o = some k → (hs.lookup k).isSome)
    (hx : onReservation f (o.bind fun k => hs.lookup k) = .ok x) (h : Hash) :
    ((writeBack hs o x).lookup h).map Reservation.captureIds =
      (hs.lookup h).map Reservation.captureIds := by
  cases o with
  | none =>
    cases hx
    rfl
  | some k =>
    obtain ⟨r, hlook⟩ := Option.isSome_iff_exists.mp (hsome k rfl)
    simp only [Option.bind_some, hlook, onReservation, bind_eq_ok, pure_eq_ok] at hx
    obtain ⟨r₁, hr₁, rfl⟩ := hx
    exact map_lookup_insert hlook (hf r r₁ hr₁) h

theorem resize_captureIds {ctx : Ctx} {p : CardPolicy} {q q' : CardPeriod} {n : Nat}
    (hres : resize ctx p q r n = .ok (q', r')) : r'.captureIds = r.captureIds := by
  simp only [resize] at hres
  split at hres
  · simp only [releaseHold_eq, ok_bind, pure_eq_ok, Prod.mk.injEq] at hres
    obtain ⟨rfl, rfl⟩ := hres
    rfl
  · split at hres
    · simp only [bind_eq_ok, exists_unit, add_eq_ok, ensure_eq_ok, pure_eq_ok,
        Prod.mk.injEq] at hres
      obtain ⟨-, -, -, _, -, -, -, left, -, -, _, ⟨-, rfl⟩, rfl, rfl⟩ := hres
      rfl
    · simp only [pure_eq_ok, Prod.mk.injEq] at hres
      obtain ⟨rfl, rfl⟩ := hres
      rfl

theorem settleEmpty_captureIds (r : Reservation) (e : ReservationState) :
    (settleEmpty r e).captureIds = r.captureIds := by
  unfold settleEmpty
  split <;> rfl

theorem book_guards {kind : ExceptionKind} {a : Nat} {p p' : CardPolicy} {q q' : CardPeriod}
    {o : Option Hash} {x : Option Reservation}
    (hsome : ∀ k, o = some k → (hs.lookup k).isSome)
    (hb : kind.book a p q (o.bind fun k => hs.lookup k) = .ok (p', q', x)) (h : Hash) :
    p'.events = p.events ∧ ((writeBack hs o x).lookup h).map Reservation.captureIds =
      (hs.lookup h).map Reservation.captureIds := by
  have hdebit : ∀ kind, bookDebit kind a p q (o.bind fun k => hs.lookup k) = .ok (p', q', x) →
      p'.events = p.events ∧ ((writeBack hs o x).lookup h).map Reservation.captureIds =
        (hs.lookup h).map Reservation.captureIds := by
    intro kind hb
    simp only [bookDebit, bind_eq_ok, exists_unit, add_eq_ok, pure_eq_ok, Prod.mk.injEq] at hb
    obtain ⟨-, _, ⟨-, rfl⟩, _, ⟨-, rfl⟩, r₁, hpost, p₁, hp₁, rfl, rfl, rfl⟩ := hb
    refine ⟨addExposure_events hp₁, map_lookup_writeBack ?_ hsome hpost h⟩
    intro r₂ r₃ hpost
    simp only [bind_eq_ok, add_eq_ok, pure_eq_ok] at hpost
    obtain ⟨_, ⟨-, rfl⟩, rfl⟩ := hpost
    rfl
  cases kind with
  | lateCapture =>
    simp only [ExceptionKind.book, bookLate, bind_eq_ok, exists_unit, ensure_eq_ok, add_eq_ok,
      pure_eq_ok, Prod.mk.injEq] at hb
    obtain ⟨-, -, _, ⟨-, rfl⟩, p₁, hp₁, rfl, rfl, rfl⟩ := hb
    refine ⟨addExposure_events hp₁, ?_⟩
    cases o with
    | none => rfl
    | some k => rfl
  | overHold =>
    simp only [ExceptionKind.book, bookOverHold, bind_eq_ok, exists_unit, okOr_eq_ok,
      ensure_eq_ok, add_eq_ok, pure_eq_ok, Prod.mk.injEq, Option.bind_eq_some_iff] at hb
    obtain ⟨r, ⟨k, rfl, hlook⟩, -, _, ⟨-, rfl⟩, _, ⟨-, rfl⟩, _, ⟨-, rfl⟩, rfl, rfl, rfl⟩ := hb
    have hids : ({ r with amountReservedCents := r.amountReservedCents + a } :
      Reservation).captureIds = r.captureIds := rfl
    exact ⟨rfl, map_lookup_insert hlook hids h⟩
  | correctionCredit =>
    simp only [ExceptionKind.book, bookCredit, bind_eq_ok, add_eq_ok, pure_eq_ok,
      Prod.mk.injEq] at hb
    obtain ⟨_, ⟨-, rfl⟩, r₁, hpost, p₁, hp₁, rfl, rfl, rfl⟩ := hb
    refine ⟨reduceExposure_events hp₁, map_lookup_writeBack ?_ hsome hpost h⟩
    intro r₂ r₃ hpost
    simp only [bind_eq_ok, add_eq_ok, pure_eq_ok] at hpost
    obtain ⟨_, ⟨-, rfl⟩, rfl⟩ := hpost
    rfl
  | forcedCapture => exact hdebit _ hb
  | overCapture => exact hdebit _ hb
  | correctionDebit => exact hdebit _ hb
  | returnReversal => exact hdebit _ hb
  | unpairedCapture => exact hdebit _ hb

end Captures

/-! ## Instructions -/

/-- What an instruction does to both guards. -/
structure Guarded (instr : Instr) (s s' : State) : Prop where
  ring : Recorded s.policy.events s'.policy.events instr.recordedId
  holds : ∀ h, CapturedStep instr h (s.capturedOn h) (s'.capturedOn h)

section Instructions

variable {ctx : Ctx} {k : Pubkey} {s s' : State} {h : Hash}

/-- An instruction that records nothing and keeps every Reservation. -/
theorem Guarded.quiet {instr : Instr} (hid : instr.recordedId = none)
    (hmade : instr.creates = none) (hleft : instr.closes = none)
    (hcap : ∀ h, instr.capturedId h = none) (hevents : s'.policy.events = s.policy.events)
    (hres : s'.reservations = s.reservations) : Guarded instr s s' where
  ring := by
    rw [hid]
    exact hevents
  holds := by
    intro h
    refine .of_eq (hcap h) (by rw [hmade]; nofun) (by rw [hleft]; nofun) ?_
    unfold State.capturedOn
    rw [hres]

/-- An instruction that keeps all capture ids. -/
theorem Guarded.kept {instr : Instr} (hmade : instr.creates = none) (hleft : instr.closes = none)
    (hcap : ∀ h, instr.capturedId h = none)
    (hring : Recorded s.policy.events s'.policy.events instr.recordedId)
    (hres : ∀ h, s'.capturedOn h = s.capturedOn h) : Guarded instr s s' where
  ring := hring
  holds := fun h => .of_eq (hcap h) (by rw [hmade]; nofun) (by rw [hleft]; nofun) (hres h)

theorem authorize_guards {args : AuthorizeArgs} (ha : authorize ctx k args s = .ok s') :
    Guarded (.authorize k args) s s' := by
  simp only [authorize, bind_eq_ok, exists_unit, signerContext_eq_ok, requireAuthorizer_eq_ok,
    ensure_eq_ok, increment_eq_ok, pure_eq_ok] at ha
  obtain ⟨-, -, hnew, -, -, intent, -, -, -, -, expires, -, p, hp,
    _, ⟨-, rfl⟩, ⟨r, q, p₂⟩, hbook, p₃, hp₃, rfl⟩ := ha
  obtain ⟨hevents, hids⟩ := bookAuthorization_events hbook
  refine ⟨?_, ?_⟩
  · change p₃.events = s.policy.events
    rw [appendLedger_events hp₃, hevents, ephemeralCreated_events hp]
  · intro h
    by_cases hh : h = args.authIdHash
    · subst hh
      have hbefore : s.capturedOn args.authIdHash = none := by
        unfold State.capturedOn
        rw [hnew]
        rfl
      have hafter : State.capturedOn { s with
          policy := p₃
          period := q
          reservations := s.reservations.insert args.authIdHash r
          intents := s.intents.insert args.intentId
            { intent with state := .consumed, reservation := some args.authIdHash } }
          args.authIdHash = some [] := by
        unfold State.capturedOn
        rw [AList.lookup_insert]
        exact congrArg some hids
      rw [hbefore, hafter]
      exact .created rfl
    · refine .of_eq rfl (fun he => hh (Option.some.inj he).symm) (by rintro ⟨⟩) ?_
      unfold State.capturedOn
      rw [AList.lookup_insert_ne hh]

theorem adjustReservation_guards {n : Nat} (ha : adjustReservation ctx k h n s = .ok s') :
    Guarded (.adjustReservation k h n) s s' := by
  simp only [adjustReservation, bind_eq_ok, exists_unit, requireAuthorizer_eq_ok, ensure_eq_ok,
    pure_eq_ok] at ha
  obtain ⟨r, hctx, -, -, ⟨q, r₁⟩, hres, p, hp, rfl⟩ := ha
  refine .kept rfl rfl (fun _ => rfl) (appendLedger_events hp) ?_
  refine map_lookup_insert (reservationContext_ok hctx).2 ?_
  rw [settleEmpty_captureIds, resize_captureIds hres]

theorem capture_guards {a : Nat} {i : Hash} (ha : capture ctx k h a i s = .ok s') :
    Guarded (.capture k h a i) s s' ∧ 0 < a ∧ (s.capturedOn h).isSome := by
  simp only [capture, bind_eq_ok, exists_unit, requireAuthorizer_eq_ok, ensure_eq_ok, add_eq_ok,
    pure_eq_ok] at ha
  obtain ⟨r, hctx, -, hpos, -, hnew, -, ⟨p, q, r₁⟩, htake, -, _, ⟨-, rfl⟩, _,
    ⟨-, rfl⟩, p₂, hp₂, p₃, hp₃, rfl⟩ := ha
  obtain ⟨hevents, hids⟩ := takeFromHold_guards htake
  have hlook := (reservationContext_ok hctx).2
  have hbefore : s.capturedOn h = some r.captureIds := by
    unfold State.capturedOn
    rw [hlook]
    rfl
  refine ⟨⟨?_, ?_⟩, hpos, by rw [hbefore]; rfl⟩
  · change p₃.events = s.policy.events
    rw [appendLedger_events hp₃, addExposure_events hp₂, hevents]
  · intro h'
    by_cases hh : h' = h
    · subst hh
      have hafter : State.capturedOn { s with
          policy := p₃
          period := { q with capturedCents := q.capturedCents + a }
          reservations := s.reservations.insert h' { r₁ with
            capturedCents := r₁.capturedCents + a
            captureIds := r₁.captureIds ++ [i] } } h' = some (r.captureIds ++ [i]) := by
        unfold State.capturedOn
        rw [AList.lookup_insert, ← hids]
        rfl
      rw [hbefore, hafter]
      exact .captured (if_pos rfl) hnew
    · refine .of_eq (if_neg fun he => hh he.symm) (by rintro ⟨⟩) (by rintro ⟨⟩) ?_
      unfold State.capturedOn
      rw [AList.lookup_insert_ne hh]

theorem reverse_guards {a : Nat} {b : UInt8} {i : Hash}
    (ha : reverse ctx k h a b i s = .ok s') : Guarded (.reverse k h a b i) s s' := by
  simp only [reverse, bind_eq_ok, exists_unit, requireAuthorizer_eq_ok, ensure_eq_ok, add_eq_ok,
    releaseHold_eq, ok_bind, pure_eq_ok] at ha
  obtain ⟨r, hctx, -, -, -, p, hp, -, _, ⟨-, rfl⟩, p₂, hp₂, rfl⟩ := ha
  refine .kept rfl rfl (fun _ => rfl) ?_ ?_
  · change Recorded s.policy.events p₂.events (some i)
    rw [appendLedger_events hp₂]
    exact recordEventId_events hp
  · refine map_lookup_insert (reservationContext_ok hctx).2 ?_
    rw [settleEmpty_captureIds]

theorem refund_guards {o : Option Hash} {a : Nat} {i : Hash}
    (ha : refund ctx k o a i s = .ok s') : Guarded (.refund k o a i) s s' ∧ 0 < a := by
  simp only [refund, bind_eq_ok, exists_unit, requireAuthorizer_eq_ok, ensure_eq_ok, add_eq_ok,
    pure_eq_ok] at ha
  obtain ⟨r, hctx, -, hpos, p, hp, _, ⟨-, rfl⟩, r', hpost, p₂, hp₂, p₃, hp₃, rfl⟩ := ha
  have hsome := cardContext_isSome hctx
  obtain ⟨-, rfl⟩ := cardContext_ok hctx
  refine ⟨.kept rfl rfl (fun _ => rfl) ?_ ?_, hpos⟩
  · change Recorded s.policy.events p₃.events (some i)
    rw [appendLedger_events hp₃, reduceExposure_events hp₂]
    exact recordEventId_events hp
  · refine map_lookup_writeBack ?_ hsome hpost
    intro r₁ r₂ hpost
    simp only [bind_eq_ok, exists_unit, add_eq_ok, pure_eq_ok] at hpost
    obtain ⟨-, _, ⟨-, rfl⟩, rfl⟩ := hpost
    rfl

theorem recordDispute_guards {b : UInt8} {i : Hash}
    (ha : recordDispute ctx k h b i s = .ok s') : Guarded (.recordDispute k h b i) s s' := by
  simp only [recordDispute, bind_eq_ok, exists_unit, requireAuthorizer_eq_ok, ensure_eq_ok,
    pure_eq_ok] at ha
  obtain ⟨r, hctx, -, -, p, hp, p₂, hp₂, rfl⟩ := ha
  refine .kept rfl rfl (fun _ => rfl) ?_ ?_
  · change Recorded s.policy.events p₂.events (some i)
    rw [appendLedger_events hp₂]
    exact recordEventId_events hp
  · have hids : ({ r with disputeState := b } : Reservation).captureIds = r.captureIds := rfl
    exact map_lookup_insert (reservationContext_ok hctx).2 hids

theorem recordException_guards {o : Option Hash} {code : UInt8} {a : Nat} {i : Hash}
    (ha : recordException ctx k o code a i s = .ok s') :
    Guarded (.recordException k o code a i) s s' ∧ 0 < a := by
  simp only [recordException, bind_eq_ok, exists_unit, requireAuthorizer_eq_ok, okOr_eq_ok,
    ensure_eq_ok, pure_eq_ok] at ha
  obtain ⟨r, hctx, -, kind, -, hpos, p, hp, ⟨p₁, q, r'⟩, hbook, p₂, hp₂, p₃, hp₃, rfl⟩ := ha
  have hsome := cardContext_isSome hctx
  obtain ⟨-, rfl⟩ := cardContext_ok hctx
  refine ⟨.kept rfl rfl (fun _ => rfl) ?_ fun h => (book_guards hsome hbook h).2, hpos⟩
  change Recorded s.policy.events p₃.events (some i)
  rw [appendLedger_events hp₃, raiseException_events hp₂, (book_guards hsome hbook 0).1]
  exact recordEventId_events hp

theorem resolveException_guards {i : Hash} {b : UInt8}
    (ha : resolveException ctx k i b s = .ok s') : Guarded (.resolveException k i b) s s' := by
  simp only [resolveException, bind_eq_ok, exists_unit, ensure_eq_ok, pure_eq_ok] at ha
  obtain ⟨-, -, p, hp, -, p₂, hp₂, rfl⟩ := ha
  refine .kept rfl rfl (fun _ => rfl) ?_ fun _ => rfl
  have hring := recordEventId_events hp
  have hledger := appendLedger_events hp₂
  have hevents : p₂.events = p.events := hledger
  rw [← hevents] at hring
  exact hring

theorem expireAll_guards {accounts : List (AccountRef × Bool)}
    (ha : expireAll ctx accounts s = .ok s') :
    s'.policy.events = s.policy.events ∧ ∀ h, s'.capturedOn h = s.capturedOn h := by
  induction accounts generalizing s with
  | nil =>
    cases ha
    exact ⟨rfl, fun _ => rfl⟩
  | cons a rest ih =>
    obtain ⟨account, w⟩ := a
    simp only [expireAll, expireOne, bind_eq_ok, exists_unit, ensure_eq_ok] at ha
    obtain ⟨s₁, ⟨-, h₁⟩, ha⟩ := ha
    obtain ⟨hevents, hids⟩ := ih ha
    split at h₁
    · simp only [bind_eq_ok, okOr_eq_ok] at h₁
      obtain ⟨r, hlook, h₁⟩ := h₁
      split at h₁
      · simp only [bind_eq_ok, pure_eq_ok] at h₁
        obtain ⟨p, hp, rfl⟩ := h₁
        refine ⟨hevents.trans (appendLedger_events hp), fun h => (hids h).trans ?_⟩
        have hsame : ({ r with amountReservedCents := 0, state := .expired } :
          Reservation).captureIds = r.captureIds := rfl
        exact map_lookup_insert hlook hsame h
      · simp only [pure_eq_ok] at h₁
        subst h₁
        exact ⟨hevents, hids⟩
    · cases h₁

theorem rollPeriod_guards {accounts : List (AccountRef × Bool)}
    (ha : rollPeriod ctx k accounts s = .ok s') : Guarded (.rollPeriod k accounts) s s' := by
  simp only [rollPeriod, bind_eq_ok, exists_unit, ensure_eq_ok, increment_eq_ok, later_eq_ok,
    pure_eq_ok] at ha
  obtain ⟨-, -, -, s₁, hloop, _, ⟨-, rfl⟩, stop, -, p, hp, rfl⟩ := ha
  obtain ⟨hevents, hids⟩ := expireAll_guards hloop
  exact .kept rfl rfl (fun _ => rfl) ((appendLedger_events hp).trans hevents) hids

theorem closeReservation_guards (ha : closeReservation ctx k h s = .ok s') :
    Guarded (.closeReservation k h) s s' := by
  simp only [closeReservation, bind_eq_ok, exists_unit, okOr_eq_ok, ensure_eq_ok,
    pure_eq_ok] at ha
  obtain ⟨-, -, -, r, hlook, -, g, -, _, -, -, p, hp, p₂, hp₂, rfl⟩ := ha
  refine ⟨(appendLedger_events hp₂).trans (countClose_events hp), ?_⟩
  intro h'
  by_cases hh : h' = h
  · subst hh
    have hbefore : s.capturedOn h' = some r.captureIds := by
      unfold State.capturedOn
      rw [hlook]
      rfl
    rw [hbefore]
    unfold State.capturedOn
    rw [AList.lookup_erase]
    exact .closed rfl
  · refine .of_eq rfl (by rintro ⟨⟩) (fun he => hh (Option.some.inj he).symm) ?_
    unfold State.capturedOn
    rw [AList.lookup_erase_ne hh]

/-- The policy after `init_permission` keeps the ring. -/
theorem initPermission_guards {o : Pubkey} (ha : initPermission ctx o k s = .ok s') :
    s'.policy.events = s.policy.events ∧ s'.reservations = s.reservations := by
  simp only [initPermission, bind_eq_ok, exists_unit, ensure_eq_ok] at ha
  obtain ⟨-, -, ha⟩ := ha
  split at ha
  · simp only [bind_eq_ok, exists_unit, pure_eq_ok] at ha
    obtain ⟨-, p, hp, rfl⟩ := ha
    have hledger := appendLedger_events hp
    exact ⟨hledger, rfl⟩
  · simp only [bind_eq_ok, exists_unit, ensure_eq_ok, pure_eq_ok] at ha
    obtain ⟨-, -, rfl⟩ := ha
    exact ⟨rfl, rfl⟩

theorem setPolicy_guards {args : PolicyArgs} {first : Option Pubkey}
    (ha : setPolicy ctx k args first s = .ok s') :
    s'.policy.events = s.policy.events ∧ s'.reservations = s.reservations := by
  simp only [setPolicy, bind_eq_ok, exists_unit, ensure_eq_ok, increment_eq_ok, pure_eq_ok] at ha
  obtain ⟨-, -, -, -, -, -, p, hp, v, ⟨-, rfl⟩, q, -, -, p', hp', rfl⟩ := ha
  have hledger := appendLedger_events hp'
  have hevents : p'.events = p.events := hledger
  exact ⟨hevents.trans (rotateAuthorizer_events hp), rfl⟩

theorem applyRepayment_events {p p' : CardPolicy} {n a : Nat} {d : Hash} {b : UInt8} {t : Int}
    (ha : applyRepayment p n d a b t = .ok p') : p'.events = p.events := by
  simp only [applyRepayment, bind_eq_ok, exists_unit, ensure_eq_ok, sub_eq_ok] at ha
  obtain ⟨-, -, -, -, _, ⟨-, rfl⟩, hp⟩ := ha
  have hledger := appendLedger_events hp
  exact hledger

variable [Runtime]

/-- **Replay guards.** What every instruction but a wipe does to the event ring and to
the capture ids of every Reservation. -/
theorem exec_guards {call : Call} (ha : exec s call = .ok s') (hw : call.instr.wipes = false) :
    Guarded call.instr s s' := by
  obtain ⟨ctx, instr⟩ := call
  cases instr with
  | initCard o => cases ha
  | delegateCard o v =>
    simp only [exec, delegateCard, bind_eq_ok, exists_unit, ensure_eq_ok] at ha
    obtain ⟨-, -, -, -, ha⟩ := ha
    split at ha
    · simp only [pure_eq_ok] at ha
      subst ha
      exact .quiet rfl rfl rfl (fun _ => rfl) rfl rfl
    · simp only [bind_eq_ok, exists_unit, pure_eq_ok] at ha
      obtain ⟨-, rfl⟩ := ha
      exact .quiet rfl rfl rfl (fun _ => rfl) rfl rfl
  | initPermission o a =>
    obtain ⟨hevents, hres⟩ := initPermission_guards ha
    exact .quiet rfl rfl rfl (fun _ => rfl) hevents hres
  | updatePermission o op rest =>
    simp only [exec, updatePermission, bind_eq_ok, exists_unit, ensure_eq_ok, pure_eq_ok] at ha
    obtain ⟨-, -, ⟨p, key, b⟩, hedit, -, -, -, p', hp', rfl⟩ := ha
    exact .quiet rfl rfl rfl (fun _ => rfl) ((appendLedger_events hp').trans (editMembers_events hedit)) rfl
  | syncPermission key t p =>
    simp only [exec, syncPermission, bind_eq_ok, exists_unit, ensure_eq_ok, pure_eq_ok] at ha
    obtain ⟨-, -, -, -, -, rfl⟩ := ha
    exact .quiet rfl rfl rfl (fun _ => rfl) rfl rfl
  | setPolicy o args first =>
    obtain ⟨hevents, hres⟩ := setPolicy_guards ha
    exact .quiet rfl rfl rfl (fun _ => rfl) hevents hres
  | openCheckoutIntent key args =>
    simp only [exec, openCheckoutIntent, bind_eq_ok, exists_unit, pure_eq_ok] at ha
    obtain ⟨-, -, -, -, -, -, p, hp, rfl⟩ := ha
    exact .quiet rfl rfl rfl (fun _ => rfl) (ephemeralCreated_events hp) rfl
  | cancelCheckoutIntent key i =>
    simp only [exec, cancelCheckoutIntent, bind_eq_ok, exists_unit, pure_eq_ok] at ha
    obtain ⟨-, _, -, -, -, -, rfl⟩ := ha
    exact .quiet rfl rfl rfl (fun _ => rfl) rfl rfl
  | closeCheckoutIntent key i =>
    simp only [exec, closeCheckoutIntent, bind_eq_ok, exists_unit, pure_eq_ok] at ha
    obtain ⟨-, -, -, _, -, -, -, rfl⟩ := ha
    exact .quiet rfl rfl rfl (fun _ => rfl) rfl rfl
  | authorize key args => exact authorize_guards ha
  | adjustReservation key r n => exact adjustReservation_guards ha
  | capture key r a i => exact (capture_guards ha).1
  | reverse key r a b i => exact reverse_guards ha
  | refund key o a i => exact (refund_guards ha).1
  | recordDispute key r b i => exact recordDispute_guards ha
  | recordException key o code a i => exact (recordException_guards ha).1
  | resolveException o i b => exact resolveException_guards ha
  | rollPeriod key rest => exact rollPeriod_guards ha
  | freeze key b =>
    simp only [exec, freeze, bind_eq_ok, exists_unit, pure_eq_ok] at ha
    obtain ⟨-, -, -, -, p, hp, rfl⟩ := ha
    refine .quiet rfl rfl rfl (fun _ => rfl) ((appendLedger_events hp).trans ?_) rfl
    split <;> rfl
  | unfreeze o =>
    simp only [exec, unfreeze, bind_eq_ok, exists_unit, pure_eq_ok] at ha
    obtain ⟨-, -, -, p, hp, rfl⟩ := ha
    have hevents := appendLedger_events hp
    exact .quiet rfl rfl rfl (fun _ => rfl) hevents rfl
  | recoveryFreeze key b =>
    simp only [exec, recoveryFreeze, bind_eq_ok, exists_unit, pure_eq_ok] at ha
    obtain ⟨-, -, -, p, hp, rfl⟩ := ha
    have hevents := appendLedger_events hp
    exact .quiet rfl rfl rfl (fun _ => rfl) hevents rfl
  | restore o a args =>
    simp only [exec, restore, bind_eq_ok, exists_unit, ensure_eq_ok, increment_eq_ok, later_eq_ok,
      pure_eq_ok] at ha
    obtain ⟨-, -, -, -, -, -, -, -, -, -, v, ⟨-, rfl⟩, stop, -, p, hp, rfl⟩ := ha
    have hevents := appendLedger_events hp
    exact .quiet rfl rfl rfl (fun _ => rfl) hevents rfl
  | confirmReconciled o d =>
    simp only [exec, confirmReconciled, bind_eq_ok, exists_unit, pure_eq_ok] at ha
    obtain ⟨-, -, -, p, hp, rfl⟩ := ha
    have hevents := appendLedger_events hp
    exact .quiet rfl rfl rfl (fun _ => rfl) hevents rfl
  | checkpoint key m n =>
    simp only [exec, checkpoint, bind_eq_ok, exists_unit, pure_eq_ok] at ha
    obtain ⟨-, -, _, -, -, -, -, rfl⟩ := ha
    exact .quiet rfl rfl rfl (fun _ => rfl) rfl rfl
  | writeCommitment a =>
    simp only [exec, writeCommitment, bind_eq_ok, exists_unit, pure_eq_ok] at ha
    obtain ⟨-, -, rfl⟩ := ha
    exact .quiet rfl rfl rfl (fun _ => rfl) rfl rfl
  | wipeCard o rest => cases hw
  | closeCard o =>
    simp only [exec, closeCard, bind_eq_ok, exists_unit, pure_eq_ok] at ha
    obtain ⟨-, -, -, -, -, rfl⟩ := ha
    exact .quiet rfl rfl rfl (fun _ => rfl) rfl rfl
  | closeReservation key r => exact closeReservation_guards ha
  | recordRepayment key d a r t m =>
    simp only [exec, recordRepayment, bind_eq_ok, exists_unit, pure_eq_ok] at ha
    obtain ⟨-, -, _, -, -, p, hp, rfl⟩ := ha
    exact .quiet rfl rfl rfl (fun _ => rfl) (applyRepayment_events hp) rfl
  | repayStatement o m r d a =>
    simp only [exec, repayStatement, bind_eq_ok, exists_unit, pure_eq_ok] at ha
    obtain ⟨-, -, -, -, -, -, -, -, rfl⟩ := ha
    exact .quiet rfl rfl rfl (fun _ => rfl) rfl rfl
  | recordPrivateRepayment key d a =>
    simp only [exec, recordPrivateRepayment, bind_eq_ok, exists_unit, pure_eq_ok] at ha
    obtain ⟨-, -, p, hp, rfl⟩ := ha
    exact .quiet rfl rfl rfl (fun _ => rfl) (applyRepayment_events hp) rfl

end Instructions

/-! ## Refusals -/

section Refusals

variable {ctx : Ctx} {k : Pubkey} {s : State} {h : Hash}

/-- The error of a guard that knows the id. -/
def Err.isRepeat : Err → Bool
  | .policy .duplicateCapture | .policy .duplicateEvent => true
  | _ => false

theorem signerContext_error {e : Err} (h : signerContext ctx k s = .error e) :
    e.isRepeat = false := by
  simp only [signerContext, requireSigner, requireLive, bind_eq_error, ensure_eq_error] at h
  rcases h with ⟨-, rfl⟩ | ⟨_, -, -, rfl⟩ <;> rfl

theorem requireAuthorizer_error {p : CardPolicy} {e : Err}
    (h : requireAuthorizer p k = .error e) : e.isRepeat = false := by
  simp only [requireAuthorizer, bind_eq_error, ensure_eq_error] at h
  rcases h with ⟨-, rfl⟩ | ⟨_, -, -, rfl⟩ <;> rfl

theorem reservationContext_error {e : Err} (hc : reservationContext ctx k h s = .error e) :
    e.isRepeat = false := by
  simp only [reservationContext, bind_eq_error, okOr_eq_error] at hc
  rcases hc with hc | ⟨_, -, -, rfl⟩
  · exact signerContext_error hc
  · rfl

theorem cardContext_error {o : Option Hash} {e : Err} (hc : cardContext ctx k o s = .error e) :
    e.isRepeat = false := by
  unfold cardContext at hc
  rw [bind_eq_error] at hc
  rcases hc with hc | ⟨_, -, hc⟩
  · exact signerContext_error hc
  · cases o with
    | none => cases hc
    | some h =>
      simp only [bind_eq_error, okOr_eq_error] at hc
      rcases hc with ⟨-, rfl⟩ | ⟨_, -, hc⟩
      · rfl
      · cases hc

/-- The amount is checked before the guards are asked. -/
theorem capture_repeat {a : Nat} {i : Hash} {e : Err} (ha : capture ctx k h a i s = .error e)
    (he : e.isRepeat = true) : 0 < a := by
  simp only [capture, bind_eq_error, ensure_eq_error, ensure_eq_ok] at ha
  rcases ha with hc | ⟨r, -, hc | ⟨_, -, ⟨-, rfl⟩ | ⟨_, hpos, -⟩⟩⟩
  · cases (reservationContext_error hc).symm.trans he
  · cases (requireAuthorizer_error hc).symm.trans he
  · cases he
  · exact hpos

theorem refund_repeat {o : Option Hash} {a : Nat} {i : Hash} {e : Err}
    (ha : refund ctx k o a i s = .error e) (he : e.isRepeat = true) : 0 < a := by
  simp only [refund, bind_eq_error, ensure_eq_error, ensure_eq_ok] at ha
  rcases ha with hc | ⟨r, -, hc | ⟨_, -, ⟨-, rfl⟩ | ⟨_, hpos, -⟩⟩⟩
  · cases (cardContext_error hc).symm.trans he
  · cases (requireAuthorizer_error hc).symm.trans he
  · cases he
  · exact hpos

theorem recordException_repeat {o : Option Hash} {code : UInt8} {a : Nat} {i : Hash} {e : Err}
    (ha : recordException ctx k o code a i s = .error e) (he : e.isRepeat = true) : 0 < a := by
  simp only [recordException, bind_eq_error, ensure_eq_error, ensure_eq_ok, okOr_eq_error] at ha
  rcases ha with hc | ⟨r, -, hc | ⟨_, -, ⟨-, rfl⟩ | ⟨kind, -, ⟨-, rfl⟩ | ⟨_, hpos, -⟩⟩⟩⟩
  · cases (cardContext_error hc).symm.trans he
  · cases (requireAuthorizer_error hc).symm.trans he
  · cases he
  · cases he
  · exact hpos

end Refusals

end ChainPay.Card
