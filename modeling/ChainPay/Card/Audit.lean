import ChainPay.Card.Ledger
import ChainPay.Card.Holds

/-!
The ledger determines the spend state. `SpendState.apply` is what an auditor can
rebuild from the records alone: one event moves the period's counters and the hold
it names, `roll` resets the period, everything else leaves them. `exec_replays` says
that it does to the counters exactly what the instruction did.
-/

namespace ChainPay.Card
open ChainPay.Lib

/-- The numbers and the state of one live Reservation. -/
structure HoldView where
  reserved : Nat
  captured : Nat
  refunded : Nat
  state : ReservationState
  deriving DecidableEq, Repr

/-- The spend counters of the period and every live hold. -/
structure SpendState where
  captured : Nat
  reserved : Nat
  refunded : Nat
  purchases : Nat
  exceptions : Nat
  holds : Hash → Option HoldView

def Reservation.view (r : Reservation) : HoldView :=
  ⟨r.amountReservedCents, r.capturedCents, r.refundedCents, r.state⟩

def views (hs : Table Hash Reservation) (h : Hash) : Option HoldView :=
  (hs.lookup h).map Reservation.view

def CardPeriod.spend (q : CardPeriod) (holds : Hash → Option HoldView) : SpendState where
  captured := q.capturedCents
  reserved := q.reservedCents
  refunded := q.refundedCents
  purchases := q.purchasesCount
  exceptions := q.exceptionCents
  holds := holds

def State.spend (s : State) : SpendState := s.period.spend (views s.reservations)

/-! ## Rebuilding it from the ledger -/

def ReservationState.ofCode (code : UInt8) : ReservationState :=
  if code = 1 then .reserved
  else if code = 2 then .partiallyCaptured
  else if code = 3 then .captured
  else if code = 4 then .reversed
  else .expired

theorem ReservationState.ofCode_code (x : ReservationState) : ofCode x.code = x := by
  cases x <;> rfl

namespace SpendState

/-- The holds with one of them changed, if it is live. -/
def post (σ : SpendState) (h : Hash) (f : HoldView → HoldView) : Hash → Option HoldView :=
  Function.update σ.holds h ((σ.holds h).map f)

/-- An approved authorization: settled at once, or a hold. -/
def applyAuthorize (σ : SpendState) (h : Hash) (a : Nat) (code : UInt8) : SpendState :=
  if code = ReservationState.captured.code then
    { σ with
      captured := σ.captured + a
      purchases := σ.purchases + 1
      holds := Function.update σ.holds h (some ⟨0, a, 0, .captured⟩) }
  else
    { σ with
      reserved := σ.reserved + a
      purchases := σ.purchases + 1
      holds := Function.update σ.holds h (some ⟨a, 0, 0, .reserved⟩) }

/-- A hold that now is `n`. -/
def applyAdjust (σ : SpendState) (h : Hash) (n : Nat) (code : UInt8) : SpendState :=
  match σ.holds h with
  | none => σ
  | some v =>
    { σ with
      reserved := if n < v.reserved then σ.reserved - (v.reserved - n)
        else σ.reserved + (n - v.reserved)
      holds := Function.update σ.holds h
        (some { v with reserved := n, state := .ofCode code }) }

/-- How much of a capture comes out of the hold. -/
def HoldView.fromHold (v : HoldView) (a : Nat) : Nat :=
  if v.state.isOpen ∨ v.state = .captured then min a v.reserved else 0

def applyCapture (σ : SpendState) (h : Hash) (a : Nat) (code : UInt8) : SpendState :=
  match σ.holds h with
  | none => σ
  | some v =>
    { σ with
      captured := σ.captured + a
      reserved := σ.reserved - HoldView.fromHold v a
      exceptions := σ.exceptions +
        if v.state.isOpen ∨ v.state = .captured then a - HoldView.fromHold v a else 0
      holds := Function.update σ.holds h (some { v with
        reserved := v.reserved - HoldView.fromHold v a
        captured := v.captured + a
        state := .ofCode code }) }

def applyException (σ : SpendState) (h : Hash) (a : Nat) : Option ExceptionKind → SpendState
  | none => σ
  | some .lateCapture => { σ with captured := σ.captured + a }
  | some .overHold =>
    { σ with
      reserved := σ.reserved + a
      exceptions := σ.exceptions + a
      holds := σ.post h fun v => { v with reserved := v.reserved + a } }
  | some .correctionCredit =>
    { σ with
      refunded := σ.refunded + a
      holds := σ.post h fun v => { v with refunded := v.refunded + a } }
  | some _ =>
    { σ with
      captured := σ.captured + a
      exceptions := σ.exceptions + a
      holds := σ.post h fun v => { v with captured := v.captured + a } }

/-- What one record does to the spend state. -/
def apply (σ : SpendState) (e : LedgerEvent) : SpendState :=
  match e.kind with
  | .authorize => σ.applyAuthorize e.authIdHash e.amountCents e.stateAfter
  | .adjust => σ.applyAdjust e.authIdHash e.amountCents e.stateAfter
  | .capture => σ.applyCapture e.authIdHash e.amountCents e.stateAfter
  | .reverse =>
    { σ with
      reserved := σ.reserved - e.amountCents
      holds := σ.post e.authIdHash fun v =>
        { v with reserved := v.reserved - e.amountCents, state := .ofCode e.stateAfter } }
  | .refund =>
    { σ with
      refunded := σ.refunded + e.amountCents
      holds := σ.post e.authIdHash fun v => { v with refunded := v.refunded + e.amountCents } }
  | .exception =>
    σ.applyException e.authIdHash e.amountCents (ExceptionKind.ofCode e.stateAfter)
  | .roll => { σ with captured := 0, refunded := 0, purchases := 0, exceptions := 0 }
  | .closeReservation => { σ with holds := Function.update σ.holds e.authIdHash none }
  | .dispute | .freeze | .unfreeze | .policySet | .permissionChange | .recoveryFreeze | .restore
  | .repayment | .resolveException | .confirmReconciled => σ

def start : SpendState := ⟨0, 0, 0, 0, 0, fun _ => none⟩

end SpendState

/-- The event as its bytes carry it. -/
def LedgerEvent.wire (e : LedgerEvent) : LedgerEvent :=
  { e with amountCents := e.amountCents % 2 ^ 64 }

/-- The spend state rebuilt from entries. -/
def replayed (σ : SpendState) (es : List Entry) : SpendState :=
  (es.map fun e => e.event.wire).foldl SpendState.apply σ

/-! ## Reading a record back -/

theorem LedgerKind.code_inj {k k' : LedgerKind} (h : k.code = k'.code) : k = k' := by
  revert h
  cases k <;> cases k' <;> decide

/-- The bytes of a record fix its event as the bytes carry it. -/
theorem wire_of_bytes {r r' : LedgerRecord} (h : r.bytes = r'.bytes) :
    r.entry.event.wire = r'.entry.event.wire := by
  unfold LedgerRecord.bytes ledgerEventBytes at h
  obtain ⟨h, -⟩ := List.append_inj h (by simp [Hash.bytes])
  obtain ⟨h, -⟩ := List.append_inj h (by simp [Hash.bytes])
  obtain ⟨h, hstate⟩ := List.append_inj h (by simp [Hash.bytes])
  obtain ⟨h, hamount⟩ := List.append_inj h (by simp [Hash.bytes])
  obtain ⟨h, hevent⟩ := List.append_inj h (by simp [Hash.bytes])
  obtain ⟨h, hauth⟩ := List.append_inj h (by simp)
  obtain ⟨-, hkind⟩ := List.append_inj h (by simp)
  have hk := LedgerKind.code_inj (List.singleton_injective hkind)
  have ha := leBytes_inj hamount
  have hpow : (256 : Nat) ^ 8 = 2 ^ 64 := by decide
  rw [hpow] at ha
  unfold LedgerEvent.wire
  rw [hk, Hash.bytes_inj hauth, Hash.bytes_inj hevent, ha, List.singleton_injective hstate]

/-! ## What each instruction does to the spend state -/

/-- Every live hold lies under its own nonzero id and fits 64 bits. -/
def Sized (hs : Table Hash Reservation) : Prop :=
  ∀ h r, hs.lookup h = some r →
    r.authIdHash = h ∧ h ≠ 0 ∧ r.amountReservedCents < 2 ^ 64

/-- The instruction did what its entries say. -/
structure Replays (s s' : State) (es : List Entry) : Prop where
  spend : s'.spend = replayed s.spend es
  sized : Sized s'.reservations

/-- Events that say nothing about spending. -/
def LedgerKind.isNeutral : LedgerKind → Bool
  | .dispute | .freeze | .unfreeze | .policySet | .permissionChange | .recoveryFreeze | .restore
  | .repayment | .resolveException | .confirmReconciled => true
  | _ => false

section Views

variable {hs : Table Hash Reservation} {h : Hash} {r r' : Reservation}

theorem views_insert (hs : Table Hash Reservation) (h : Hash) (r : Reservation) :
    views (hs.insert h r) = Function.update (views hs) h (some r.view) := by
  funext k
  unfold views
  by_cases hk : k = h
  · subst hk
    rw [AList.lookup_insert, Function.update_self]
    rfl
  · rw [AList.lookup_insert_ne hk, Function.update_of_ne hk]

theorem views_erase (hs : Table Hash Reservation) (h : Hash) :
    views (hs.erase h) = Function.update (views hs) h none := by
  funext k
  unfold views
  by_cases hk : k = h
  · subst hk
    rw [AList.lookup_erase, Function.update_self]
    rfl
  · rw [AList.lookup_erase_ne hk, Function.update_of_ne hk]

theorem views_eq (hr : hs.lookup h = some r) : views hs h = some r.view := by
  unfold views
  rw [hr]
  rfl

/-- Writing back a Reservation whose view did not change. -/
theorem views_insert_same (hr : hs.lookup h = some r) (hv : r'.view = r.view) :
    views (hs.insert h r') = views hs := by
  rw [views_insert, hv, ← views_eq hr, Function.update_eq_self]

theorem Sized.insert (hz : Sized hs) (hne : h ≠ 0) (hid : r.authIdHash = h)
    (hfit : r.amountReservedCents < 2 ^ 64) : Sized (hs.insert h r) :=
  forall_lookup_insert hz ⟨hid, hne, hfit⟩

theorem Sized.erase (hz : Sized hs) (h : Hash) : Sized (hs.erase h) := forall_lookup_erase hz

/-- Writing back a hold that did not grow. -/
theorem Sized.shrink (hz : Sized hs) (hr : hs.lookup h = some r)
    (hid : r'.authIdHash = r.authIdHash)
    (hle : r'.amountReservedCents ≤ r.amountReservedCents) : Sized (hs.insert h r') := by
  obtain ⟨hid₀, hne, hfit⟩ := hz h r hr
  exact hz.insert hne (hid.trans hid₀) (Nat.lt_of_le_of_lt hle hfit)

theorem Sized.views_zero (hz : Sized hs) : views hs 0 = none := by
  unfold views
  cases h0 : hs.lookup 0 with
  | none => rfl
  | some r => exact absurd rfl (hz 0 r h0).2.1

end Views

section Instructions

variable {ctx : Ctx} {k : Pubkey} {s s' : State} {h : Hash}

theorem wire_eq {e : LedgerEvent} (h : e.amountCents < 2 ^ 64) : e.wire = e := by
  unfold LedgerEvent.wire
  rw [Nat.mod_eq_of_lt h]

/-- One entry whose amount fits. -/
theorem replayed_one {σ : SpendState} {e : LedgerEvent} {i : Nat} (h : e.amountCents < 2 ^ 64) :
    replayed σ [⟨e, i⟩] = σ.apply e := by
  unfold replayed
  rw [List.map_singleton, List.foldl_cons, List.foldl_nil, wire_eq h]

theorem replayed_append (σ : SpendState) (es es' : List Entry) :
    replayed σ (es ++ es') = replayed (replayed σ es) es' := by
  unfold replayed
  rw [List.map_append, List.foldl_append]

theorem apply_neutral {σ : SpendState} {e : LedgerEvent} (h : e.kind.isNeutral = true) :
    σ.apply e = σ := by
  unfold SpendState.apply
  cases hk : e.kind <;> first | rfl | (rw [hk] at h; cases h)

/-- An instruction that leaves the counters and the holds alone, with neutral entries. -/
theorem Replays.quiet {es : List Entry} (hz : Sized s.reservations)
    (hspend : s'.spend = s.spend) (hres : s'.reservations = s.reservations)
    (hes : ∀ e ∈ es, e.event.kind.isNeutral = true) : Replays s s' es where
  spend := by
    rw [hspend]
    unfold replayed
    induction es with
    | nil => rfl
    | cons e rest ih =>
      have hneutral : e.event.wire.kind.isNeutral = true := hes e List.mem_cons_self
      rw [List.map_cons, List.foldl_cons, apply_neutral hneutral]
      exact ih fun x hx => hes x (List.mem_cons_of_mem e hx)
  sized := by
    rw [hres]
    exact hz

theorem authorize_replays {args : AuthorizeArgs} (hz : Sized s.reservations)
    (ha : authorize ctx k args s = .ok s') :
    Replays s s' ((Instr.authorize k args).entries ctx s s') := by
  simp only [authorize, bind_eq_ok, exists_unit, ensure_eq_ok, okOr_eq_ok, increment_eq_ok,
    pure_eq_ok] at ha
  obtain ⟨-, -, -, -, hne, x, -, -, -, -, expires, -, p, hp, _, ⟨-, rfl⟩, ⟨r, q, p₂⟩, hbook, p₃,
    hp₃, hs'⟩ := ha
  have hlook : s'.reservations.lookup args.authIdHash = some r := by
    rw [← hs']
    exact AList.lookup_insert _
  have hcode := codeOf_eq hlook
  have hspend : s'.spend = q.spend (views (s.reservations.insert args.authIdHash r)) := by
    rw [← hs']
    rfl
  have hres : s'.reservations = s.reservations.insert args.authIdHash r := by rw [← hs']
  simp only [Instr.entries, hcode]
  unfold bookAuthorization at hbook
  split at hbook
  · simp only [bind_eq_ok, add_eq_ok, pure_eq_ok, Prod.mk.injEq] at hbook
    obtain ⟨_, ⟨hfit, rfl⟩, p₁, -, rfl, rfl, rfl⟩ := hbook
    have hsmall : args.amountCents < 2 ^ 64 := by omega
    refine ⟨?_, ?_⟩
    · rw [replayed_one hsmall, hspend, views_insert]
      rfl
    · rw [hres]
      exact hz.insert hne rfl (Nat.two_pow_pos 64)
  · simp only [bind_eq_ok, add_eq_ok, pure_eq_ok, Prod.mk.injEq] at hbook
    obtain ⟨_, ⟨hfit, rfl⟩, rfl, rfl, rfl⟩ := hbook
    have hsmall : args.amountCents < 2 ^ 64 := by omega
    refine ⟨?_, ?_⟩
    · rw [replayed_one hsmall, hspend, views_insert]
      rfl
    · rw [hres]
      exact hz.insert hne rfl hsmall

/-- The view of a hold that settles when it is empty. -/
theorem settleEmpty_view (r : Reservation) (e : ReservationState) :
    (settleEmpty r e).view = { r.view with state := .ofCode (settleEmpty r e).state.code } := by
  rw [ReservationState.ofCode_code]
  unfold settleEmpty
  split <;> rfl

theorem resize_spend {q q' : CardPeriod} {r r₁ : Reservation} {p : CardPolicy} {n : Nat}
    (hres : resize ctx p q r n = .ok (q', r₁)) :
    r₁.view = { r.view with reserved := n } ∧ r₁.authIdHash = r.authIdHash ∧
      (n < 2 ^ 64 ∨ n ≤ r.amountReservedCents) ∧
      ∀ holds, q'.spend holds = { q.spend holds with
        reserved := if n < r.amountReservedCents then
            q.reservedCents - (r.amountReservedCents - n)
          else q.reservedCents + (n - r.amountReservedCents) } := by
  simp only [resize] at hres
  split at hres
  · rename_i hlt
    simp only [releaseHold_eq, ok_bind, pure_eq_ok, Prod.mk.injEq] at hres
    obtain ⟨rfl, rfl⟩ := hres
    have hmin : min (r.amountReservedCents - n) r.amountReservedCents =
        r.amountReservedCents - n := Nat.min_eq_left (Nat.sub_le _ _)
    have hleft : r.amountReservedCents - (r.amountReservedCents - n) = n := by omega
    refine ⟨?_, rfl, .inr (by omega), fun holds => ?_⟩
    · unfold Reservation.view
      rw [hmin, hleft]
    · rw [if_pos hlt, hmin]
      rfl
  · rename_i hlt
    split at hres
    · simp only [bind_eq_ok, exists_unit, add_eq_ok, ensure_eq_ok, pure_eq_ok,
        Prod.mk.injEq] at hres
      obtain ⟨-, -, -, _, ⟨hfit, rfl⟩, -, -, left, -, -, _, ⟨-, rfl⟩, rfl, rfl⟩ := hres
      refine ⟨rfl, rfl, .inl (by omega), fun holds => ?_⟩
      rw [if_neg hlt]
      rfl
    · rename_i hgt
      simp only [pure_eq_ok, Prod.mk.injEq] at hres
      obtain ⟨rfl, rfl⟩ := hres
      have hn : n = r.amountReservedCents := by omega
      refine ⟨?_, rfl, .inr (by omega), fun holds => ?_⟩
      · rw [hn]
        rfl
      · rw [if_neg hlt, hn, Nat.sub_self, Nat.add_zero]
        rfl

theorem settleEmpty_amount (r : Reservation) (e : ReservationState) :
    (settleEmpty r e).amountReservedCents = r.amountReservedCents ∧
      (settleEmpty r e).authIdHash = r.authIdHash := by
  unfold settleEmpty
  split <;> exact ⟨rfl, rfl⟩

theorem adjustReservation_replays {n : Nat} (hz : Sized s.reservations)
    (ha : adjustReservation ctx k h n s = .ok s') :
    Replays s s' ((Instr.adjustReservation k h n).entries ctx s s') := by
  simp only [adjustReservation, bind_eq_ok, exists_unit, ensure_eq_ok, pure_eq_ok] at ha
  obtain ⟨r, hctx, -, -, ⟨q, r₁⟩, hres, p, hp, hs'⟩ := ha
  have hlook := (reservationContext_ok hctx).2
  obtain ⟨hid, hne, hfit⟩ := hz h r hlook
  obtain ⟨hview, hid₁, hn, hspend⟩ := resize_spend hres
  obtain ⟨hamount, hid₂⟩ := settleEmpty_amount r₁ .reversed
  have hsmall : n < 2 ^ 64 := by omega
  have hr₁ : r₁.amountReservedCents = n := congrArg HoldView.reserved hview
  have hlook' : s'.reservations.lookup h = some (settleEmpty r₁ .reversed) := by
    rw [← hs']
    exact AList.lookup_insert _
  have hnew : s'.reservations = s.reservations.insert h (settleEmpty r₁ .reversed) := by rw [← hs']
  simp only [Instr.entries, idOf_eq hlook', codeOf_eq hlook', hid₂, hid₁, hid]
  refine ⟨?_, ?_⟩
  · rw [replayed_one hsmall]
    have hs : s'.spend = q.spend (views (s.reservations.insert h (settleEmpty r₁ .reversed))) := by
      rw [← hs']
      rfl
    rw [hs, hspend, views_insert, settleEmpty_view, hview]
    simp only [SpendState.apply, SpendState.applyAdjust, State.spend, CardPeriod.spend,
      views_eq hlook]
    rfl
  · rw [hnew]
    refine hz.insert hne ?_ ?_
    · rw [hid₂, hid₁, hid]
    · rw [hamount, hr₁]
      exact hsmall

theorem takeFromHold_spend {p p' : CardPolicy} {q q' : CardPeriod} {r r₁ : Reservation} {a : Nat}
    (ht : takeFromHold p q r a = .ok (p', q', r₁)) :
    r₁.authIdHash = r.authIdHash ∧
      r₁.view = { r.view with
        reserved := r.amountReservedCents - SpendState.HoldView.fromHold r.view a
        state := r₁.state } ∧
      ∀ holds, q'.spend holds = { q.spend holds with
        reserved := q.reservedCents - SpendState.HoldView.fromHold r.view a
        exceptions := q.exceptionCents +
          if r.state.isOpen ∨ r.state = .captured then
            a - SpendState.HoldView.fromHold r.view a
          else 0 } := by
  unfold takeFromHold at ht
  split at ht
  · rename_i hstate
    have hfrom : SpendState.HoldView.fromHold r.view a = min a r.amountReservedCents :=
      if_pos hstate
    rw [hfrom, if_pos hstate]
    simp only [releaseHold_eq, ok_bind] at ht
    split at ht
    · simp only [bind_eq_ok, add_eq_ok, increment_eq_ok, pure_eq_ok, Prod.mk.injEq] at ht
      obtain ⟨_, ⟨-, rfl⟩, _, ⟨-, rfl⟩, rfl, rfl, rfl⟩ := ht
      exact ⟨rfl, rfl, fun holds => rfl⟩
    · rename_i hexcess
      simp only [pure_eq_ok, Prod.mk.injEq] at ht
      obtain ⟨rfl, rfl, rfl⟩ := ht
      refine ⟨rfl, rfl, fun holds => ?_⟩
      rw [show a - min a r.amountReservedCents = 0 by omega]
      rfl
  · rename_i hstate
    have hfrom : SpendState.HoldView.fromHold r.view a = 0 := if_neg hstate
    rw [hfrom, if_neg hstate]
    simp only [pure_eq_ok, Prod.mk.injEq] at ht
    obtain ⟨rfl, rfl, rfl⟩ := ht
    exact ⟨rfl, rfl, fun holds => rfl⟩

theorem capture_replays {a : Nat} {i : Hash} (hz : Sized s.reservations)
    (hc : capture ctx k h a i s = .ok s') :
    Replays s s' ((Instr.capture k h a i).entries ctx s s') := by
  simp only [capture, bind_eq_ok, exists_unit, ensure_eq_ok, add_eq_ok, pure_eq_ok] at hc
  obtain ⟨r, hctx, -, -, -, -, -, ⟨p, q, r₁⟩, htake, -, _, ⟨hfit₁, rfl⟩, _, ⟨-, rfl⟩, p₂, hp₂, p₃,
    hp₃, hs'⟩ := hc
  have hlook := (reservationContext_ok hctx).2
  obtain ⟨hid, -, -⟩ := hz h r hlook
  obtain ⟨hid₁, hview, hspend⟩ := takeFromHold_spend htake
  have hsmall : a < 2 ^ 64 := by omega
  have hheld : r₁.amountReservedCents ≤ r.amountReservedCents := by
    have hr₁ := congrArg HoldView.reserved hview
    change r₁.amountReservedCents = _ at hr₁
    rw [hr₁]
    exact Nat.sub_le _ _
  have hlook' : s'.reservations.lookup h = some { r₁ with
      capturedCents := r₁.capturedCents + a, captureIds := r₁.captureIds ++ [i] } := by
    rw [← hs']
    exact AList.lookup_insert _
  have hnew : s'.reservations = s.reservations.insert h { r₁ with
      capturedCents := r₁.capturedCents + a, captureIds := r₁.captureIds ++ [i] } := by rw [← hs']
  simp only [Instr.entries, idOf_eq hlook', codeOf_eq hlook', hid₁, hid]
  refine ⟨?_, ?_⟩
  · rw [replayed_one hsmall]
    have hs : s'.spend = { q.spend (views s'.reservations) with
        captured := q.capturedCents + a } := by
      rw [← hs']
      rfl
    have hview' : Reservation.view { r₁ with
        capturedCents := r₁.capturedCents + a, captureIds := r₁.captureIds ++ [i] } =
        { r₁.view with captured := r₁.capturedCents + a } := rfl
    have hcap : r₁.capturedCents = r.capturedCents := congrArg HoldView.captured hview
    have hqcap : q.capturedCents = s.period.capturedCents :=
      congrArg SpendState.captured (hspend fun _ => none)
    rw [hs, hspend, hnew, views_insert, hview', hview, hcap, hqcap]
    simp only [SpendState.apply, SpendState.applyCapture, State.spend, CardPeriod.spend,
      views_eq hlook, ReservationState.ofCode_code]
    rfl
  · rw [hnew]
    exact hz.shrink hlook hid₁ hheld

theorem reverse_replays {a : Nat} {b : UInt8} {i : Hash} (hz : Sized s.reservations)
    (hr : reverse ctx k h a b i s = .ok s') :
    Replays s s' ((Instr.reverse k h a b i).entries ctx s s') := by
  simp only [reverse, bind_eq_ok, exists_unit, ensure_eq_ok, add_eq_ok, releaseHold_eq, ok_bind,
    pure_eq_ok] at hr
  obtain ⟨r, hctx, -, -, -, p, hp, -, _, ⟨-, rfl⟩, p₂, hp₂, hs'⟩ := hr
  have hlook := (reservationContext_ok hctx).2
  obtain ⟨hid, -, hfit⟩ := hz h r hlook
  -- the Reservation before it settles
  generalize hr₀ : ({ r with
    amountReservedCents := r.amountReservedCents - min a r.amountReservedCents
    reversedCents := r.reversedCents + min a r.amountReservedCents } : Reservation) = r₀ at hs'
  generalize (if b = REVERSE_EXPIRY then ReservationState.expired else .reversed) = e at hs'
  have hview₀ : r₀.view = { r.view with
      reserved := r.amountReservedCents - min a r.amountReservedCents } := by
    rw [← hr₀]
    rfl
  obtain ⟨hamount, hid₂⟩ := settleEmpty_amount r₀ e
  have hid₀ : r₀.authIdHash = r.authIdHash := by rw [← hr₀]
  have hamount₀ : r₀.amountReservedCents = r.amountReservedCents - min a r.amountReservedCents :=
    congrArg HoldView.reserved hview₀
  have hnew : s'.reservations = s.reservations.insert h (settleEmpty r₀ e) := by rw [← hs']
  have hlook' : s'.reservations.lookup h = some (settleEmpty r₀ e) := by
    rw [hnew]
    exact AList.lookup_insert _
  have hsmall : min a r.amountReservedCents < 2 ^ 64 := by omega
  simp only [Instr.entries, idOf_eq hlook', codeOf_eq hlook', heldOn_eq hlook, hid₂, hid₀, hid]
  refine ⟨?_, ?_⟩
  · rw [replayed_one hsmall]
    have hs : s'.spend = { s.period.spend (views s'.reservations) with
        reserved := s.period.reservedCents - min a r.amountReservedCents } := by
      rw [← hs']
      rfl
    rw [hs, hnew, views_insert, settleEmpty_view, hview₀]
    simp only [SpendState.apply, SpendState.post, State.spend, CardPeriod.spend, views_eq hlook]
    rfl
  · rw [hnew]
    refine hz.shrink hlook (hid₂.trans hid₀) ?_
    rw [hamount, hamount₀]
    exact Nat.sub_le _ _

/-- What a posting did to the Reservation it names, if it names one. -/
inductive Posted (hs : Table Hash Reservation) (g : HoldView → HoldView) :
    Option Hash → Option Reservation → Prop
  | unnamed : Posted hs g none none
  | named {h : Hash} {r r' : Reservation} (hlook : hs.lookup h = some r)
      (hview : r'.view = g r.view) (hid : r'.authIdHash = r.authIdHash)
      (hfit : r'.amountReservedCents < 2 ^ 64) : Posted hs g (some h) (some r')

theorem onReservation_posted {f : Reservation → Except Err Reservation} {g : HoldView → HoldView}
    {o : Option Hash} {x : Option Reservation} (hz : Sized s.reservations)
    (hsome : ∀ h, o = some h → (s.reservations.lookup h).isSome)
    (hpost : onReservation f (o.bind fun h => s.reservations.lookup h) = .ok x)
    (hf : ∀ r r', f r = .ok r' → r'.view = g r.view ∧ r'.authIdHash = r.authIdHash ∧
      r'.amountReservedCents = r.amountReservedCents) : Posted s.reservations g o x := by
  cases o with
  | none =>
    cases hpost
    exact .unnamed
  | some h =>
    obtain ⟨r, hlook⟩ := Option.isSome_iff_exists.mp (hsome h rfl)
    simp only [Option.bind_some, hlook, onReservation, bind_eq_ok, pure_eq_ok] at hpost
    obtain ⟨r', hr', rfl⟩ := hpost
    obtain ⟨hview, hid, hamount⟩ := hf r r' hr'
    refine .named hlook hview hid ?_
    rw [hamount]
    exact (hz h r hlook).2.2

/-- A posting in the ledger names the hold by the id it carries; zero names none. -/
theorem Posted.holds {g : HoldView → HoldView} {o : Option Hash} {x : Option Reservation}
    (hpost : Posted s.reservations g o x) (hz : Sized s.reservations)
    (hs' : s'.reservations = writeBack s.reservations o x) :
    views s'.reservations = s.spend.post ((o.map s'.idOf).getD 0) g ∧ Sized s'.reservations := by
  cases hpost with
  | unnamed =>
    rw [hs']
    refine ⟨?_, hz⟩
    have hzero : s.spend.holds 0 = none := hz.views_zero
    change views s.reservations = Function.update s.spend.holds 0 ((s.spend.holds 0).map g)
    rw [hzero, Option.map_none, ← hzero, Function.update_eq_self]
    rfl
  | @named h r r' hlook hview hid hfit =>
    obtain ⟨hid₀, hne, -⟩ := hz h r hlook
    have hlook' : s'.reservations.lookup h = some r' := by
      rw [hs']
      exact AList.lookup_insert _
    have hname : ((some h).map s'.idOf).getD 0 = h := (idOf_eq hlook').trans (hid.trans hid₀)
    have hold : s.spend.holds h = some r.view := views_eq hlook
    rw [hname, hs']
    refine ⟨?_, hz.insert hne (hid.trans hid₀) hfit⟩
    unfold SpendState.post
    rw [hold, Option.map_some, ← hview]
    exact views_insert s.reservations h r'

theorem refund_replays {o : Option Hash} {a : Nat} {i : Hash} (hz : Sized s.reservations)
    (hr : refund ctx k o a i s = .ok s') :
    Replays s s' ((Instr.refund k o a i).entries ctx s s') := by
  simp only [refund, bind_eq_ok, exists_unit, ensure_eq_ok, add_eq_ok, pure_eq_ok] at hr
  obtain ⟨r, hctx, -, -, p, hp, _, ⟨hfit, rfl⟩, r', hpost, p₂, hp₂, p₃, hp₃, hs'⟩ := hr
  have hsome := cardContext_isSome hctx
  obtain ⟨-, rfl⟩ := cardContext_ok hctx
  have hposted : Posted s.reservations (fun v => { v with refunded := v.refunded + a }) o r' := by
    refine onReservation_posted hz hsome hpost fun r r' hf => ?_
    simp only [bind_eq_ok, exists_unit, add_eq_ok, pure_eq_ok] at hf
    obtain ⟨-, _, ⟨-, rfl⟩, rfl⟩ := hf
    exact ⟨rfl, rfl, rfl⟩
  have hback : s'.reservations = writeBack s.reservations o r' := by rw [← hs']
  obtain ⟨hviews, hsized⟩ := hposted.holds hz hback
  refine ⟨?_, hsized⟩
  have hsmall : a < 2 ^ 64 := by omega
  have hspend : s'.spend = { s.period.spend (views s'.reservations) with
      refunded := s.period.refundedCents + a } := by
    rw [← hs']
    rfl
  simp only [Instr.entries]
  rw [replayed_one hsmall, hspend, hviews]
  rfl

theorem recordDispute_replays {b : UInt8} {i : Hash} (hz : Sized s.reservations)
    (hr : recordDispute ctx k h b i s = .ok s') :
    Replays s s' ((Instr.recordDispute k h b i).entries ctx s s') := by
  simp only [recordDispute, bind_eq_ok, exists_unit, ensure_eq_ok, pure_eq_ok] at hr
  obtain ⟨r, hctx, -, -, p, hp, p₂, hp₂, hs'⟩ := hr
  have hlook := (reservationContext_ok hctx).2
  have hnew : s'.reservations = s.reservations.insert h { r with disputeState := b } := by
    rw [← hs']
  have hspend : s'.spend = s.period.spend (views s'.reservations) := by
    rw [← hs']
    rfl
  have hviews : views s'.reservations = views s.reservations := by
    rw [hnew]
    exact views_insert_same hlook rfl
  refine ⟨?_, ?_⟩
  · simp only [Instr.entries]
    rw [replayed_one (Nat.two_pow_pos 64), apply_neutral rfl, hspend, hviews]
    rfl
  · rw [hnew]
    exact hz.shrink hlook rfl (Nat.le_refl _)

/-- What an exception of each kind books, as its record tells it. -/
theorem book_spend {kind : ExceptionKind} {a : Nat} {p p' : CardPolicy} {q' : CardPeriod}
    {o : Option Hash} {x : Option Reservation} (hz : Sized s.reservations)
    (hsome : ∀ h, o = some h → (s.reservations.lookup h).isSome)
    (hb : kind.book a p s.period (o.bind fun h => s.reservations.lookup h) = .ok (p', q', x))
    (hs' : s'.reservations = writeBack s.reservations o x) :
    a < 2 ^ 64 ∧ Sized s'.reservations ∧
      q'.spend (views s'.reservations) =
        s.spend.applyException ((o.map s'.idOf).getD 0) a (some kind) := by
  have hdebit : ∀ kind, bookDebit kind a p s.period (o.bind fun h => s.reservations.lookup h) =
      .ok (p', q', x) → a < 2 ^ 64 ∧ Sized s'.reservations ∧
        q'.spend (views s'.reservations) =
          s.spend.applyException ((o.map s'.idOf).getD 0) a (some .forcedCapture) := by
    intro kind hb
    simp only [bookDebit, bind_eq_ok, exists_unit, add_eq_ok, pure_eq_ok, Prod.mk.injEq] at hb
    obtain ⟨-, _, ⟨hfit, rfl⟩, _, ⟨-, rfl⟩, r₁, hpost, p₁, -, rfl, rfl, rfl⟩ := hb
    have hposted : Posted s.reservations (fun v => { v with captured := v.captured + a }) o r₁ := by
      refine onReservation_posted hz hsome hpost fun r r' hf => ?_
      simp only [bind_eq_ok, add_eq_ok, pure_eq_ok] at hf
      obtain ⟨_, ⟨-, rfl⟩, rfl⟩ := hf
      exact ⟨rfl, rfl, rfl⟩
    obtain ⟨hviews, hsized⟩ := hposted.holds hz hs'
    refine ⟨by omega, hsized, ?_⟩
    rw [hviews]
    rfl
  cases kind with
  | lateCapture =>
    have hx := book_isSome hsome hb
    simp only [ExceptionKind.book, bookLate, bind_eq_ok, exists_unit, add_eq_ok, pure_eq_ok,
      Prod.mk.injEq] at hb
    obtain ⟨-, -, _, ⟨hfit, rfl⟩, p₁, -, rfl, rfl, rfl⟩ := hb
    cases o with
    | some h => cases hx
    | none =>
      have hsame : s'.reservations = s.reservations := hs'
      rw [hsame]
      exact ⟨by omega, hz, rfl⟩
  | overHold =>
    simp only [ExceptionKind.book, bookOverHold, bind_eq_ok, exists_unit, okOr_eq_ok,
      add_eq_ok, pure_eq_ok, Prod.mk.injEq, Option.bind_eq_some_iff] at hb
    obtain ⟨r, ⟨h, rfl, hlook⟩, -, _, ⟨hfit, rfl⟩, _, ⟨-, rfl⟩, _, ⟨-, rfl⟩, rfl, rfl, rfl⟩ := hb
    have hposted : Posted s.reservations (fun v => { v with reserved := v.reserved + a }) (some h)
        (some { r with amountReservedCents := r.amountReservedCents + a }) :=
      .named hlook rfl rfl hfit
    obtain ⟨hviews, hsized⟩ := hposted.holds hz hs'
    refine ⟨by omega, hsized, ?_⟩
    rw [hviews]
    rfl
  | correctionCredit =>
    simp only [ExceptionKind.book, bookCredit, bind_eq_ok, add_eq_ok, pure_eq_ok,
      Prod.mk.injEq] at hb
    obtain ⟨_, ⟨hfit, rfl⟩, r₁, hpost, p₁, -, rfl, rfl, rfl⟩ := hb
    have hposted : Posted s.reservations (fun v => { v with refunded := v.refunded + a }) o r₁ := by
      refine onReservation_posted hz hsome hpost fun r r' hf => ?_
      simp only [bind_eq_ok, add_eq_ok, pure_eq_ok] at hf
      obtain ⟨_, ⟨-, rfl⟩, rfl⟩ := hf
      exact ⟨rfl, rfl, rfl⟩
    obtain ⟨hviews, hsized⟩ := hposted.holds hz hs'
    refine ⟨by omega, hsized, ?_⟩
    rw [hviews]
    rfl
  | forcedCapture => exact hdebit _ hb
  | overCapture => exact hdebit _ hb
  | correctionDebit => exact hdebit _ hb
  | returnReversal => exact hdebit _ hb
  | unpairedCapture => exact hdebit _ hb

theorem recordException_replays {o : Option Hash} {code : UInt8} {a : Nat} {i : Hash}
    (hz : Sized s.reservations) (hr : recordException ctx k o code a i s = .ok s') :
    Replays s s' ((Instr.recordException k o code a i).entries ctx s s') := by
  simp only [recordException, bind_eq_ok, exists_unit, okOr_eq_ok, ensure_eq_ok,
    pure_eq_ok] at hr
  obtain ⟨r, hctx, -, kind, hkind, -, p, hp, ⟨p₁, q, r'⟩, hbook, p₂, hp₂, p₃, hp₃, hs'⟩ := hr
  have hsome := cardContext_isSome hctx
  obtain ⟨-, rfl⟩ := cardContext_ok hctx
  have hback : s'.reservations = writeBack s.reservations o r' := by rw [← hs']
  obtain ⟨hsmall, hsized, hspend⟩ := book_spend hz hsome hbook hback
  refine ⟨?_, hsized⟩
  have hs : s'.spend = q.spend (views s'.reservations) := by
    rw [← hs']
    rfl
  simp only [Instr.entries]
  rw [replayed_one hsmall, hs, hspend, ← hkind]
  rfl

/-- The loop of `roll_period`: every round that released a hold left its record. -/
theorem expireAll_replays {accounts : List (AccountRef × Bool)} (hz : Sized s.reservations)
    (he : expireAll ctx accounts s = .ok s') :
    Replays s s' (expireEntries ctx accounts s) := by
  induction accounts generalizing s with
  | nil =>
    cases he
    exact ⟨rfl, hz⟩
  | cons a rest ih =>
    obtain ⟨account, w⟩ := a
    simp only [expireAll, bind_eq_ok] at he
    obtain ⟨s₁, h₁, he⟩ := he
    simp only [expireEntries, h₁]
    have hone : Replays s s₁ (expireEntry ctx account s) := by
      simp only [expireOne, bind_eq_ok, exists_unit, ensure_eq_ok] at h₁
      obtain ⟨-, h₁⟩ := h₁
      unfold expireEntry
      split at h₁
      · rename_i h
        simp only [bind_eq_ok, okOr_eq_ok] at h₁
        obtain ⟨r, hlook, h₁⟩ := h₁
        obtain ⟨hid, hne, hfit⟩ := hz h r hlook
        simp only [hlook]
        split at h₁
        · rename_i hcond
          simp only [bind_eq_ok, pure_eq_ok] at h₁
          obtain ⟨p, hp, rfl⟩ := h₁
          rw [if_pos hcond]
          refine ⟨?_, hz.shrink hlook rfl (Nat.zero_le _)⟩
          rw [replayed_one hfit]
          simp only [State.spend, CardPeriod.spend, SpendState.apply, SpendState.post, hid,
            views_insert, views_eq hlook, Option.map_some, Reservation.view, Nat.sub_self]
          rfl
        · rename_i hcond
          simp only [pure_eq_ok] at h₁
          subst h₁
          rw [if_neg hcond]
          exact ⟨rfl, hz⟩
      · cases h₁
    obtain ⟨hspend, hsized⟩ := ih hone.sized he
    refine ⟨?_, hsized⟩
    rw [replayed_append, ← hone.spend]
    exact hspend

theorem rollPeriod_replays {accounts : List (AccountRef × Bool)} (hz : Sized s.reservations)
    (hr : rollPeriod ctx k accounts s = .ok s') :
    Replays s s' ((Instr.rollPeriod k accounts).entries ctx s s') := by
  simp only [rollPeriod, bind_eq_ok, exists_unit, ensure_eq_ok, increment_eq_ok, later_eq_ok,
    pure_eq_ok] at hr
  obtain ⟨-, -, -, s₁, hloop, _, ⟨-, rfl⟩, stop, -, p, hp, rfl⟩ := hr
  obtain ⟨hspend, hsized⟩ := expireAll_replays hz hloop
  refine ⟨?_, hsized⟩
  simp only [Instr.entries]
  rw [replayed_append, ← hspend]
  rfl

theorem closeReservation_replays (hz : Sized s.reservations)
    (hc : closeReservation ctx k h s = .ok s') :
    Replays s s' ((Instr.closeReservation k h).entries ctx s s') := by
  simp only [closeReservation, bind_eq_ok, exists_unit, okOr_eq_ok, ensure_eq_ok, add_eq_ok,
    pure_eq_ok] at hc
  obtain ⟨-, -, -, r, hlook, -, g, -, _, ⟨-, rfl⟩, -, p, hp, p₂, hp₂, rfl⟩ := hc
  obtain ⟨hid, -, -⟩ := hz h r hlook
  simp only [Instr.entries, idOf_eq hlook, hid]
  refine ⟨?_, hz.erase h⟩
  simp only [State.spend, CardPeriod.spend, views_erase]
  rfl

theorem setPolicy_replays {args : PolicyArgs} {first : Option Pubkey} (hz : Sized s.reservations)
    (ha : setPolicy ctx k args first s = .ok s') :
    Replays s s' ((Instr.setPolicy k args first).entries ctx s s') := by
  simp only [setPolicy, bind_eq_ok, exists_unit, ensure_eq_ok, increment_eq_ok, pure_eq_ok] at ha
  obtain ⟨-, -, -, -, -, -, p, hp, v, ⟨-, rfl⟩, q, hq, -, p', hp', rfl⟩ := ha
  have hspend : ∀ holds, q.spend holds = s.period.spend holds := by
    unfold openFirstPeriod at hq
    split at hq
    · simp only [bind_eq_ok, pure_eq_ok] at hq
      obtain ⟨_, -, rfl⟩ := hq
      exact fun _ => rfl
    · cases hq
      exact fun _ => rfl
  refine .quiet hz (hspend _) rfl fun e he => ?_
  rw [List.mem_singleton.mp he]
  rfl

variable [Runtime]

/-- **Replay.** Every call but a `restore` or a wipe does to the spend state what its
records say. -/
theorem exec_replays {call : Call} (hz : Sized s.reservations) (ha : exec s call = .ok s')
    (hr : call.instr.label ≠ .restore) (hw : call.instr.wipes = false) :
    Replays s s' (call.instr.entries call.ctx s s') := by
  -- one neutral record
  have hone : ∀ e : Entry, e.event.kind.isNeutral = true →
      ∀ x ∈ [e], x.event.kind.isNeutral = true := by
    intro e he x hx
    rw [List.mem_singleton.mp hx]
    exact he
  have hnothing : ∀ x ∈ ([] : List Entry), x.event.kind.isNeutral = true := by
    intro x hx
    cases hx
  obtain ⟨ctx, instr⟩ := call
  cases instr with
  | initCard o => cases ha
  | delegateCard o v =>
    simp only [exec, delegateCard, bind_eq_ok, exists_unit, ensure_eq_ok] at ha
    obtain ⟨-, -, -, -, ha⟩ := ha
    split at ha
    · simp only [pure_eq_ok] at ha
      subst ha
      exact .quiet hz rfl rfl hnothing
    · simp only [bind_eq_ok, exists_unit, pure_eq_ok] at ha
      obtain ⟨-, rfl⟩ := ha
      exact .quiet hz rfl rfl hnothing
  | initPermission o a =>
    simp only [exec, initPermission, bind_eq_ok, exists_unit, ensure_eq_ok] at ha
    obtain ⟨-, -, ha⟩ := ha
    simp only [Instr.entries]
    split at ha
    · rename_i hzero
      simp only [bind_eq_ok, exists_unit, pure_eq_ok] at ha
      obtain ⟨-, p, hp, rfl⟩ := ha
      rw [if_pos hzero]
      exact .quiet hz rfl rfl (hone _ rfl)
    · rename_i hzero
      simp only [bind_eq_ok, exists_unit, ensure_eq_ok, pure_eq_ok] at ha
      obtain ⟨-, -, rfl⟩ := ha
      rw [if_neg hzero]
      exact .quiet hz rfl rfl hnothing
  | updatePermission o op rest =>
    simp only [exec, updatePermission, bind_eq_ok, exists_unit, ensure_eq_ok, pure_eq_ok] at ha
    obtain ⟨-, -, ⟨p, key, b⟩, hedit, -, -, -, p', hp', rfl⟩ := ha
    exact .quiet hz rfl rfl (hone _ rfl)
  | syncPermission key t p =>
    simp only [exec, syncPermission, bind_eq_ok, exists_unit, ensure_eq_ok, pure_eq_ok] at ha
    obtain ⟨-, -, -, -, -, rfl⟩ := ha
    exact .quiet hz rfl rfl hnothing
  | setPolicy o args first => exact setPolicy_replays hz ha
  | openCheckoutIntent key args =>
    simp only [exec, openCheckoutIntent, bind_eq_ok, exists_unit, pure_eq_ok] at ha
    obtain ⟨-, -, -, -, -, -, p, hp, rfl⟩ := ha
    exact .quiet hz rfl rfl hnothing
  | cancelCheckoutIntent key i =>
    simp only [exec, cancelCheckoutIntent, bind_eq_ok, exists_unit, pure_eq_ok] at ha
    obtain ⟨-, _, -, -, -, -, rfl⟩ := ha
    exact .quiet hz rfl rfl hnothing
  | closeCheckoutIntent key i =>
    simp only [exec, closeCheckoutIntent, bind_eq_ok, exists_unit, pure_eq_ok] at ha
    obtain ⟨-, -, -, _, -, -, -, rfl⟩ := ha
    exact .quiet hz rfl rfl hnothing
  | authorize key args => exact authorize_replays hz ha
  | adjustReservation key r n => exact adjustReservation_replays hz ha
  | capture key r a i => exact capture_replays hz ha
  | reverse key r a b i => exact reverse_replays hz ha
  | refund key o a i => exact refund_replays hz ha
  | recordDispute key r b i => exact recordDispute_replays hz ha
  | recordException key o code a i => exact recordException_replays hz ha
  | resolveException o i b =>
    simp only [exec, resolveException, bind_eq_ok, exists_unit, ensure_eq_ok, pure_eq_ok] at ha
    obtain ⟨-, -, p, hp, -, p₂, hp₂, rfl⟩ := ha
    exact .quiet hz rfl rfl (hone _ rfl)
  | rollPeriod key rest => exact rollPeriod_replays hz ha
  | freeze key b =>
    simp only [exec, freeze, bind_eq_ok, exists_unit, pure_eq_ok] at ha
    obtain ⟨-, -, -, -, p, hp, rfl⟩ := ha
    exact .quiet hz rfl rfl (hone _ rfl)
  | unfreeze o =>
    simp only [exec, unfreeze, bind_eq_ok, exists_unit, pure_eq_ok] at ha
    obtain ⟨-, -, -, p, hp, rfl⟩ := ha
    exact .quiet hz rfl rfl (hone _ rfl)
  | recoveryFreeze key b =>
    simp only [exec, recoveryFreeze, bind_eq_ok, exists_unit, pure_eq_ok] at ha
    obtain ⟨-, -, -, p, hp, rfl⟩ := ha
    exact .quiet hz rfl rfl (hone _ rfl)
  | restore o a args => exact absurd rfl hr
  | confirmReconciled o d =>
    simp only [exec, confirmReconciled, bind_eq_ok, exists_unit, pure_eq_ok] at ha
    obtain ⟨-, -, -, p, hp, rfl⟩ := ha
    exact .quiet hz rfl rfl (hone _ rfl)
  | checkpoint key m n =>
    simp only [exec, checkpoint, bind_eq_ok, exists_unit, pure_eq_ok] at ha
    obtain ⟨-, -, _, -, -, -, -, rfl⟩ := ha
    exact .quiet hz rfl rfl hnothing
  | writeCommitment a =>
    simp only [exec, writeCommitment, bind_eq_ok, exists_unit, pure_eq_ok] at ha
    obtain ⟨-, -, rfl⟩ := ha
    exact .quiet hz rfl rfl hnothing
  | wipeCard o rest => cases hw
  | closeCard o =>
    simp only [exec, closeCard, bind_eq_ok, exists_unit, pure_eq_ok] at ha
    obtain ⟨-, -, -, -, -, rfl⟩ := ha
    exact .quiet hz rfl rfl hnothing
  | closeReservation key r => exact closeReservation_replays hz ha
  | recordRepayment key d a r t m =>
    simp only [exec, recordRepayment, bind_eq_ok, exists_unit, pure_eq_ok] at ha
    obtain ⟨-, -, _, -, -, p, hp, rfl⟩ := ha
    exact .quiet hz rfl rfl (hone _ rfl)
  | repayStatement o m r d a =>
    simp only [exec, repayStatement, bind_eq_ok, exists_unit, pure_eq_ok] at ha
    obtain ⟨-, -, -, -, -, -, -, -, rfl⟩ := ha
    exact .quiet hz rfl rfl hnothing
  | recordPrivateRepayment key d a =>
    simp only [exec, recordPrivateRepayment, bind_eq_ok, exists_unit, pure_eq_ok] at ha
    obtain ⟨-, -, p, hp, rfl⟩ := ha
    exact .quiet hz rfl rfl (hone _ rfl)

end Instructions

/-! ## Whole runs -/

/-- What one record is hashed as, together with the head before it. -/
def ledgerInput (head : Hash) (eventBytes : Bytes) : Bytes :=
  LEDGER_DOMAIN ++ Hash.bytes head ++ eventBytes

def ledgerHash (input : Bytes) : Hash := hashv [input]

theorem nextLedgerHead_eq (head : Hash) (b : Bytes) :
    nextLedgerHead head b = ledgerHash (ledgerInput head b) := by
  unfold nextLedgerHead ledgerHash hashv ledgerInput
  simp

theorem ledgerInput_inj {h h' : Hash} {b b' : Bytes} (he : ledgerInput h b = ledgerInput h' b') :
    h = h' ∧ b = b' := by
  unfold ledgerInput at he
  obtain ⟨he, hb⟩ := List.append_inj he (by simp [Hash.bytes])
  obtain ⟨-, hh⟩ := List.append_inj he rfl
  exact ⟨Hash.bytes_inj hh, hb⟩

theorem numbered_map_entry (now : Int) (seq : Nat) (es : List Entry) :
    (numbered now seq es).map LedgerRecord.entry = es := by
  induction es generalizing seq with
  | nil => rfl
  | cons e rest ih => rw [numbered, List.map_cons, ih]

/-- Everything hashed into the ledger head by these records. -/
def ledgerInputs (bytes : List Bytes) : List Bytes := chainInputs ledgerHash ledgerInput 0 bytes

section Program

variable [Runtime] {s : State} {calls : List Call}

/-- The records of a run in bytes, oldest first. -/
def recordBytes (s : State) (calls : List Call) : List Bytes :=
  (records s calls).map LedgerRecord.bytes

/-- The spend state after a run is what its records rebuild. -/
theorem run_replays (hs : Fresh s) (hr : NoRestore s calls) (hw : NoWipe s calls) :
    (Runs.after exec s calls).spend =
      replayed .start ((records s calls).map LedgerRecord.entry) := by
  have hinv : Sized (Runs.after exec s calls).reservations ∧ (Runs.after exec s calls).spend =
      replayed .start ((records s calls).map LedgerRecord.entry) := by
    refine Runs.after_logged (f := appended)
      (I := fun s log => Sized s.reservations ∧
        s.spend = replayed .start (log.map LedgerRecord.entry))
      (fun s call s' log hP hx hi => ?_) (Runs.along_and hr hw) ?_
    · obtain ⟨hz, hspend⟩ := hi
      obtain ⟨hafter, hsized⟩ := exec_replays hz hx hP.1 hP.2
      refine ⟨hsized, ?_⟩
      rw [List.map_append, replayed_append, ← hspend]
      unfold appended
      rw [numbered_map_entry]
      exact hafter
    · obtain ⟨b, -, hq, hres, -⟩ := hs.eq
      refine ⟨?_, ?_⟩
      · intro h r hl
        rw [hres] at hl
        simp at hl
      · unfold State.spend
        rw [hq, hres]
        rfl
  exact hinv.2

/-- The head of the ledger after a run is the chain over its records. -/
theorem run_chain (hs : Fresh s) (hr : NoRestore s calls) (hw : NoWipe s calls) :
    (Runs.after exec s calls).policy.ledgerHead =
      chainHead ledgerHash ledgerInput 0 (recordBytes s calls) := by
  refine Runs.after_logged (f := appended)
    (I := fun s log => s.policy.ledgerHead =
      chainHead ledgerHash ledgerInput 0 (log.map LedgerRecord.bytes))
    (fun s call s' log hP hx hi => ?_) (Runs.along_and hr hw) ?_
  · have hext := (exec_ledger hx hP.1 hP.2).head
    have hhash : (fun head b => ledgerHash (ledgerInput head b)) = nextLedgerHead := by
      funext head b
      exact (nextLedgerHead_eq head b).symm
    rw [hext, hi]
    unfold chainHead
    rw [hhash, List.map_append, List.foldl_append, appended, List.foldl_map, List.foldl_map]
  · obtain ⟨b, hp, -⟩ := hs.eq
    rw [hp]
    rfl

end Program

/-- Equal bytes, equal rebuilding. -/
theorem replayed_of_bytes {rs rs' : List LedgerRecord}
    (h : rs.map LedgerRecord.bytes = rs'.map LedgerRecord.bytes) (σ : SpendState) :
    replayed σ (rs.map LedgerRecord.entry) = replayed σ (rs'.map LedgerRecord.entry) := by
  unfold replayed
  congr 1
  rw [List.map_map, List.map_map]
  have hlen : rs.length = rs'.length := by simpa using congrArg List.length h
  refine List.ext_getElem (by simpa using hlen) fun n h₁ h₂ => ?_
  rw [List.getElem_map, List.getElem_map]
  refine wire_of_bytes ?_
  have hn := congrArg (fun l => l[n]?) h
  rw [List.length_map] at h₁ h₂
  simpa [List.getElem?_map, List.getElem?_eq_getElem h₁, List.getElem?_eq_getElem h₂] using hn

/-- **The ledger determines the spend state.** Two runs from fresh cards, without
`restore` and `wipe_card`, whose records agree byte for byte end with the same period
counters and the same live Reservations; and equal ledger heads come from equal
records, as far as the hash tells apart what the two runs hashed. -/
theorem ledger_determines_spend [Runtime] (s₁ s₂ : State) (calls₁ calls₂ : List Call)
    (hs₁ : Fresh s₁) (hs₂ : Fresh s₂) (hr₁ : NoRestore s₁ calls₁) (hr₂ : NoRestore s₂ calls₂)
    (hw₁ : NoWipe s₁ calls₁) (hw₂ : NoWipe s₂ calls₂) :
    let a₁ := Runs.after exec s₁ calls₁
    let a₂ := Runs.after exec s₂ calls₂
    (recordBytes s₁ calls₁ = recordBytes s₂ calls₂ →
      a₁.period.capturedCents = a₂.period.capturedCents ∧
      a₁.period.reservedCents = a₂.period.reservedCents ∧
      a₁.period.refundedCents = a₂.period.refundedCents ∧
      a₁.period.purchasesCount = a₂.period.purchasesCount ∧
      a₁.period.exceptionCents = a₂.period.exceptionCents ∧
      ∀ h, (a₁.reservations.lookup h).map Reservation.view =
        (a₂.reservations.lookup h).map Reservation.view) ∧
    (HeadsDistinct ledgerHash 0
        (ledgerInputs (recordBytes s₁ calls₁) ++ ledgerInputs (recordBytes s₂ calls₂)) →
      a₁.policy.ledgerHead = a₂.policy.ledgerHead →
        recordBytes s₁ calls₁ = recordBytes s₂ calls₂) := by
  refine ⟨fun hbytes => ?_, fun hfree hhead => ?_⟩
  · have hspend : (Runs.after exec s₁ calls₁).spend = (Runs.after exec s₂ calls₂).spend := by
      rw [run_replays hs₁ hr₁ hw₁, run_replays hs₂ hr₂ hw₂]
      exact replayed_of_bytes hbytes _
    exact ⟨congrArg SpendState.captured hspend, congrArg SpendState.reserved hspend,
      congrArg SpendState.refunded hspend, congrArg SpendState.purchases hspend,
      congrArg SpendState.exceptions hspend, congrFun (congrArg SpendState.holds hspend)⟩
  · rw [run_chain hs₁ hr₁ hw₁, run_chain hs₂ hr₂ hw₂] at hhead
    exact chainHead_inj (fun _ _ _ _ he => ledgerInput_inj he) hfree hhead

namespace Sample

/-- The same purchase with a second intent that is never used. -/
def secondIntent : List Call :=
  oneCapture ++ [byAuthorizer (.openCheckoutIntent authorizer
    ⟨BitVec.ofNat 128 21, key 5, merchant, 0, 100, USD, 1800000300⟩)]

theorem recordBytes_secondIntent :
    recordBytes start secondIntent = recordBytes start oneCapture := by
  decide +kernel

def recordAt (n : Nat) : Bytes := (recordBytes start oneCapture).getD n []

/-- What is hashed for the purchase, with the heads. -/
def heads : List (Bytes × Hash) :=
  [(ledgerInput 0 (recordAt 0),
      0x84fe73050431e4d5e2f73a5ff31036da46a29cc55fbd9fcf7f9841e4a227a415#256),
   (ledgerInput 0x84fe73050431e4d5e2f73a5ff31036da46a29cc55fbd9fcf7f9841e4a227a415#256
      (recordAt 1), 0x74e8571432d9b84763d9dc95f21c6f9b47c67be74daf81d692c33e4dd5fd5073#256),
   (ledgerInput 0x74e8571432d9b84763d9dc95f21c6f9b47c67be74daf81d692c33e4dd5fd5073#256
      (recordAt 2), 0x5b02b3aeb0aab037a39c5347f471c11835cf02e95715e8ce7623da0ad4faa66e#256),
   (ledgerInput 0x5b02b3aeb0aab037a39c5347f471c11835cf02e95715e8ce7623da0ad4faa66e#256
      (recordAt 3), 0x868495e0f40e19a4e0f96437c2e22a14621834673b14f9c06b3cbe4573825ba2#256)]

theorem ledgerHash_tabled : tabled heads ledgerHash = ledgerHash := by
  refine tabled_eq fun p hp => ?_
  simp only [heads, List.mem_cons, List.not_mem_nil, or_false] at hp
  rcases hp with rfl | rfl | rfl | rfl
  all_goals decide +kernel

end Sample

open Sample in
theorem ledger_determines_secondIntent :
    Fresh start ∧
      HeadsDistinct ledgerHash 0
        (ledgerInputs (recordBytes start oneCapture) ++
          ledgerInputs (recordBytes start secondIntent)) ∧
      (recordBytes start oneCapture).length = 4 ∧
      (Runs.after exec start oneCapture).policy.ephemeralCount ≠
        (Runs.after exec start secondIntent).policy.ephemeralCount ∧
      (Runs.after exec start oneCapture).period.reservedCents =
        (Runs.after exec start secondIntent).period.reservedCents := by
  have hr₁ : NoRestore start oneCapture := by decide +kernel
  have hr₂ : NoRestore start secondIntent := by decide +kernel
  have hw₁ : NoWipe start oneCapture := by decide +kernel
  have hw₂ : NoWipe start secondIntent := by decide +kernel
  have hfree : HeadsDistinct ledgerHash 0
      (ledgerInputs (recordBytes start oneCapture) ++
        ledgerInputs (recordBytes start secondIntent)) := by
    unfold ledgerInputs
    rw [recordBytes_secondIntent, ← ledgerHash_tabled]
    decide +kernel
  have hhead : (Runs.after exec start oneCapture).policy.ledgerHead =
      (Runs.after exec start secondIntent).policy.ledgerHead := by
    rw [run_chain start_fresh hr₁ hw₁, run_chain start_fresh hr₂ hw₂, recordBytes_secondIntent]
  obtain ⟨hspend, hchain⟩ := ledger_determines_spend start start oneCapture secondIntent start_fresh
    start_fresh hr₁ hr₂ hw₁ hw₂
  exact ⟨start_fresh, hfree, by decide +kernel, by decide +kernel,
    (hspend (hchain hfree hhead)).2.1⟩

end ChainPay.Card
