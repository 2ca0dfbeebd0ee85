import ChainPay.Backend.Apply

/-!
What the rules of a pass guarantee. `Routed` lists every instruction an event can be
sent as and under which reading of the row. A row whose decision is settled either has a
Reservation (`Present`) or has none (`Absent`), and no update of it turns one into the
other.
-/

namespace ChainPay.Backend
open ChainPay.Lib ChainPay.Card

/-! ## Routes -/

/-- A clearing that debits: the only kind of event that a capture is for. -/
def IssuerEvent.debits (e : IssuerEvent) : Prop := e.kind = .clearing ∧ e.credit = false

/-- The events whose instruction books a posting. -/
def IssuerEvent.bills (e : IssuerEvent) : Bool :=
  match e.kind with
  | .financialAuthorization | .clearing | .returned | .financialCreditAuthorization
  | .returnReversal | .correctionDebit | .correctionCredit => true
  | _ => false

/-- The Reservation an instruction names, while it is open. -/
def onHold (t : Token) (present closed : Bool) : Option Hash :=
  if present && !closed then some t.authId else none

/-- The instructions of an event, the exception for an advice the policy refuses among
them. -/
inductive Routed (t : Token) (present closed : Bool) (e : IssuerEvent) : Instr → StepLabel → Prop
  | unpaired (hkind : e.kind = .financialAuthorization) (hp : present = false) :
      Routed t present closed e (exception t none .unpairedCapture e) .unpairedCapture
  | adjust (hkind : e.kind = .authorizationAdvice) (hp : present = true) (hc : closed = false) :
      Routed t present closed e (.adjustReservation t.authorizer t.authId (eventAmount e)) .adjust
  | overHold (hkind : e.kind = .authorizationAdvice) (hp : present = true) (hc : closed = false)
      (excess : Nat) :
      Routed t present closed e
        (.recordException t.authorizer (some t.authId) ExceptionKind.overHold.code excess e.id)
        .overHold
  | refund (hkind : isRefund e = true) :
      Routed t present closed e
        (.refund t.authorizer (onHold t present closed) (eventAmount e) e.id) .refund
  | capture (hkind : e.debits) (hp : present = true) (hc : closed = false) :
      Routed t present closed e (.capture t.authorizer t.authId (eventAmount e) e.id) .capture
  | late (hkind : e.debits) (hc : closed = true) :
      Routed t present closed e (exception t none .lateCapture e) .lateCapture
  | over (hkind : e.debits) (hc : closed = true) :
      Routed t present closed e (exception t none .overCapture e) .overCapture
  | forced (hkind : e.debits) (hp : present = false) :
      Routed t present closed e (exception t none .forcedCapture e) .forcedCapture
  | reverse (hkind : e.kind = .authorizationReversal) (hp : present = true) (hc : closed = false) :
      Routed t present closed e
        (.reverse t.authorizer t.authId (eventAmount e) REVERSE_VOID e.id) .reverse
  | expire (hkind : e.kind = .authorizationExpiry) (hp : present = true) (hc : closed = false) :
      Routed t present closed e
        (.reverse t.authorizer t.authId (eventAmount e) REVERSE_EXPIRY e.id) .expire
  | returnReversal (hkind : e.kind = .returnReversal) :
      Routed t present closed e (exception t (onHold t present closed) .returnReversal e)
        .returnReversal
  | correctionDebit (hkind : e.kind = .correctionDebit) :
      Routed t present closed e (exception t (onHold t present closed) .correctionDebit e)
        .correctionDebit
  | correctionCredit (hkind : e.kind = .correctionCredit) :
      Routed t present closed e (exception t (onHold t present closed) .correctionCredit e)
        .correctionCredit

section Routes

variable {t : Token} {present closed : Bool} {record : Txn} {e : IssuerEvent} {instr : Instr}
  {label : StepLabel}

theorem route_routed (h : route t present closed record e = .program instr label) :
    Routed t present closed e instr label := by
  have hopen : ∀ {a b : Bool}, (a && !b) = true → a = true ∧ b = false := by
    intro a b hab
    cases a <;> cases b <;> simp_all
  simp only [route] at h
  split at h
  · cases h
  split at h
  · split at h
    · cases h
    · split at h <;> cases h
  · rename_i hkind
    split at h
    · cases h
    · rename_i hp
      cases h
      exact .unpaired hkind (Bool.not_eq_true _ ▸ hp)
  · rename_i hkind
    split at h
    · cases h
    · split at h
      · rename_i ho
        cases h
        exact .adjust hkind (hopen ho).1 (hopen ho).2
      · cases h
  · rename_i hkind
    split at h
    · rename_i hcredit
      cases h
      exact .refund (by simp only [isRefund, hkind, hcredit])
    · rename_i hcredit
      have hdebit : e.debits := ⟨hkind, Bool.not_eq_true _ ▸ hcredit⟩
      split at h
      · rename_i ho
        cases h
        exact .capture hdebit (hopen ho).1 (hopen ho).2
      · rename_i ho
        split at h
        · rename_i hc
          split at h
          · cases h
            exact .late hdebit hc
          · cases h
            exact .over hdebit hc
        · rename_i hc
          cases h
          refine .forced hdebit ?_
          cases present with
          | false => rfl
          | true => exact absurd (by simp only [hc, Bool.not_false, Bool.and_self]) ho
  · rename_i hkind
    split at h
    · cases h
    · split at h
      · rename_i ho
        cases h
        exact .reverse hkind (hopen ho).1 (hopen ho).2
      · cases h
  · rename_i hkind
    split at h
    · cases h
    · split at h
      · rename_i ho
        cases h
        exact .expire hkind (hopen ho).1 (hopen ho).2
      · cases h
  · rename_i hkind
    cases h
    exact .refund (by simp only [isRefund, hkind])
  · rename_i hkind
    cases h
    exact .refund (by simp only [isRefund, hkind])
  · rename_i hkind
    cases h
    exact .returnReversal hkind
  · rename_i hkind
    cases h
    exact .correctionDebit hkind
  · rename_i hkind
    cases h
    exact .correctionCredit hkind
  · cases h

/-- Whether a step books a posting depends on its event alone. -/
theorem Routed.bills (h : Routed t present closed e instr label) :
    (postingForLabel label).isSome = e.bills := by
  cases h with
  | unpaired hkind => simp only [IssuerEvent.bills, hkind, postingForLabel, Option.isSome_some]
  | adjust hkind => simp only [IssuerEvent.bills, hkind, postingForLabel, Option.isSome_none]
  | overHold hkind => simp only [IssuerEvent.bills, hkind, postingForLabel, Option.isSome_none]
  | refund hkind =>
    unfold isRefund at hkind
    unfold IssuerEvent.bills
    split at hkind <;> simp_all [postingForLabel]
  | capture hkind => simp only [IssuerEvent.bills, hkind.1, postingForLabel, Option.isSome_some]
  | late hkind => simp only [IssuerEvent.bills, hkind.1, postingForLabel, Option.isSome_some]
  | «over» hkind => simp only [IssuerEvent.bills, hkind.1, postingForLabel, Option.isSome_some]
  | forced hkind => simp only [IssuerEvent.bills, hkind.1, postingForLabel, Option.isSome_some]
  | reverse hkind => simp only [IssuerEvent.bills, hkind, postingForLabel, Option.isSome_none]
  | expire hkind => simp only [IssuerEvent.bills, hkind, postingForLabel, Option.isSome_none]
  | returnReversal hkind =>
    simp only [IssuerEvent.bills, hkind, postingForLabel, Option.isSome_some]
  | correctionDebit hkind =>
    simp only [IssuerEvent.bills, hkind, postingForLabel, Option.isSome_some]
  | correctionCredit hkind =>
    simp only [IssuerEvent.bills, hkind, postingForLabel, Option.isSome_some]

/-- Every id an instruction of the event carries is the event's. -/
theorem Routed.ids (h : Routed t present closed e instr label) :
    (∀ i, instr.moneyId = some i → i = e.id) ∧ (∀ i, instr.recordedId = some i → i = e.id) ∧
      (∀ i, instr.capturedId t.authId = some i → i = e.id) ∧ instr.creates = none ∧
      instr.closes = none ∧ instr.wipes = false := by
  cases h <;>
    simp [exception, Instr.moneyId, Instr.recordedId, Instr.capturedId, Instr.creates,
      Instr.closes, Instr.wipes]

/-- Only a debit is captured, and only on an open hold. -/
theorem Routed.of_captured {i : Hash} (h : Routed t present closed e instr label)
    (hi : instr.capturedId t.authId = some i) : e.debits ∧ present = true ∧ closed = false := by
  cases h with
  | capture hkind hp hc => exact ⟨hkind, hp, hc⟩
  | unpaired | adjust | overHold | refund | late | «over» | forced | reverse | expire | returnReversal
    | correctionDebit | correctionCredit => cases hi

/-- A debit that is recorded on the ring had no open hold. -/
theorem Routed.of_recorded {i : Hash} (h : Routed t present closed e instr label)
    (hdebit : e.debits) (hi : instr.recordedId = some i) : present = false ∨ closed = true := by
  obtain ⟨hkind, hcredit⟩ := hdebit
  cases h with
  | late _ hc => exact .inr hc
  | «over» _ hc => exact .inr hc
  | forced _ hp => exact .inl hp
  | capture => cases hi
  | adjust => cases hi
  | overHold hk => cases hkind.symm.trans hk
  | refund hr => simp only [isRefund, hkind, hcredit, Bool.false_eq_true] at hr
  | unpaired hk => cases hkind.symm.trans hk
  | reverse hk => cases hkind.symm.trans hk
  | expire hk => cases hkind.symm.trans hk
  | returnReversal hk => cases hkind.symm.trans hk
  | correctionDebit hk => cases hkind.symm.trans hk
  | correctionCredit hk => cases hkind.symm.trans hk

theorem Routed.posting (h : Routed t present closed e instr label)
    (hbills : e.bills = true) : ∃ x, postingForLabel label = some x := by
  rw [← h.bills] at hbills
  exact Option.isSome_iff_exists.mp hbills

end Routes

/-! ## Settled rows -/

/-- The decision is made and the row has a Reservation. -/
def Txn.Present (v : Txn) : Prop := v.state.isHold = true ∧ v.unsolicited = false

/-- The decision is made and there is none. -/
def Txn.Absent (v : Txn) : Prop :=
  v.state.isOpenDecision = false ∧ v.state.isHold = false ∧ v.hasReservation = false

/-- The decision is open and nothing else is on the row yet. -/
def Txn.Undecided (v : Txn) : Prop :=
  v.state.isOpenDecision = true ∧ v.hasReservation = false ∧ v.unsolicited = false ∧
    v.reservationClosed = false ∧ v.appliedEventIds = []

/-- What a write of the row keeps. -/
structure Txn.Follows (v v' : Txn) : Prop where
  present : v.Present → v'.Present
  absent : v.Absent → v'.Absent
  notPending : v.state ≠ .pending → v'.state ≠ .pending
  decided : v.state.isOpenDecision = false → v'.state.isOpenDecision = false
  applied : ∀ i ∈ v.appliedEventIds, i ∈ v'.appliedEventIds
  unsent : ∀ i ∈ v.unsent, i ∈ v'.unsent

section Rows

variable {v v' record : Txn}

theorem isOpenDecision_of_isHold {s : TxnState} (h : s.isHold = true) :
    s.isOpenDecision = false := by
  cases s <;> first | rfl | cases h

theorem isOpenDecision_of_ne {s : TxnState} (hpending : s ≠ .pending) (hambiguous : s ≠ .ambiguous) :
    s.isOpenDecision = false := by
  cases s with
  | pending => exact absurd rfl hpending
  | ambiguous => exact absurd rfl hambiguous
  | reserved | partiallyCaptured | captured | reversed | expired | declined | declinedInternal
    | accountVerification | unsolicited | forcedCapture | refunded => rfl

theorem Txn.Present.isOpenDecision (h : v.Present) : v.state.isOpenDecision = false :=
  isOpenDecision_of_isHold h.1

theorem Txn.Present.not_absent (h : v.Present) : ¬ v.Absent := by
  intro ha
  cases h.1.symm.trans ha.2.1

theorem Txn.Present.hasReservation (h : v.Present) : Backend.hasReservation v = true := by
  simp only [Backend.hasReservation, h.1, h.2, Bool.not_false, Bool.and_self, Bool.or_true]

theorem Txn.Absent.hasReservation (h : v.Absent) : Backend.hasReservation v = false := by
  simp only [Backend.hasReservation, h.2.1, h.2.2, Bool.false_and, Bool.or_self]

theorem Txn.Undecided.hasReservation (h : v.Undecided) : Backend.hasReservation v = false := by
  have hhold : v.state.isHold = false := by
    by_contra hc
    have hopen := isOpenDecision_of_isHold (Bool.not_eq_false _ ▸ hc)
    cases h.1.symm.trans hopen
  simp only [Backend.hasReservation, h.2.1, hhold, Bool.false_and, Bool.or_self]

theorem Txn.Follows.of_eq (hstate : v'.state = v.state)
    (hunsolicited : v'.unsolicited = v.unsolicited)
    (hflag : v'.hasReservation = v.hasReservation)
    (happlied : v'.appliedEventIds = v.appliedEventIds) (hunsent : v'.unsent = v.unsent) :
    v.Follows v' where
  present := by
    unfold Txn.Present
    rw [hstate, hunsolicited]
    exact id
  absent := by
    unfold Txn.Absent
    rw [hstate, hflag]
    exact id
  notPending := by
    rw [hstate]
    exact id
  decided := by
    rw [hstate]
    exact id
  applied := by
    rw [happlied]
    exact fun i hi => hi
  unsent := by
    rw [hunsent]
    exact fun i hi => hi

theorem Txn.Follows.refl (v : Txn) : v.Follows v := .of_eq rfl rfl rfl rfl rfl

theorem Txn.Follows.of_undecided (h : v.Undecided)
    (hstate : v.state ≠ .pending → v'.state ≠ .pending)
    (hunsent : ∀ i ∈ v.unsent, i ∈ v'.unsent) : v.Follows v' where
  present := by
    intro hp
    cases h.1.symm.trans hp.isOpenDecision
  absent := by
    intro ha
    cases h.1.symm.trans ha.1
  notPending := hstate
  decided := by
    intro hd
    cases h.1.symm.trans hd
  applied := by
    rw [h.2.2.2.2]
    exact fun i hi => absurd hi List.not_mem_nil
  unsent := hunsent

/-! ### The rules of a pass -/

theorem mem_addIds {ids new : List Hash} {i : Hash} :
    i ∈ addIds ids new ↔ i ∈ ids ∨ i ∈ new := by
  unfold addIds
  induction new generalizing ids with
  | nil => simp only [List.foldl_nil, List.not_mem_nil, or_false]
  | cons j new ih =>
    rw [List.foldl_cons, ih]
    by_cases hj : j ∈ ids
    · rw [if_pos hj, List.mem_cons]
      constructor
      · rintro (h | h)
        · exact .inl h
        · exact .inr (.inr h)
      · rintro (h | rfl | h)
        · exact .inl h
        · exact .inl hj
        · exact .inr h
    · rw [if_neg hj, List.mem_append, List.mem_singleton, List.mem_cons, or_assoc]

theorem changed_cases {α : Type} [DecidableEq α] (current original value : α) :
    changed current original value = current ∨ changed current original value = value := by
  unfold changed
  split
  · exact .inl rfl
  · exact .inr rfl

theorem applyLabel_present {label : StepLabel} (n : Nat) (h : record.Present)
    (hforced : label ≠ .forcedCapture) (hunpaired : label ≠ .unpairedCapture) :
    (applyLabel record label n).Present := by
  have hsolicited : record.unsolicited = false := h.2
  cases label with
  | forcedCapture => exact absurd rfl hforced
  | unpairedCapture => exact absurd rfl hunpaired
  | refund =>
    refine ⟨?_, h.2⟩
    simp only [applyLabel, hsolicited, Bool.false_eq_true, if_false]
    exact h.1
  | capture | lateCapture | reverse | expire | overCapture | overHold | returnReversal
    | correctionDebit | correctionCredit | adjust | singleMessage => exact h

theorem applyLabel_absent (label : StepLabel) (n : Nat) (h : record.Absent) :
    (applyLabel record label n).Absent := by
  cases label with
  | forcedCapture | unpairedCapture => exact ⟨rfl, rfl, h.2.2⟩
  | refund =>
    simp only [applyLabel]
    by_cases hu : record.unsolicited = true
    · rw [if_pos hu]
      exact ⟨rfl, rfl, h.2.2⟩
    · rw [if_neg hu]
      exact h
  | capture | lateCapture | reverse | expire | overCapture | overHold | returnReversal
    | correctionDebit | correctionCredit | adjust | singleMessage => exact h

theorem applyLabel_frame (record : Txn) (label : StepLabel) (n : Nat) :
    (applyLabel record label n).reservationClosed = record.reservationClosed ∧
      (applyLabel record label n).pendingEvents = record.pendingEvents ∧
      (applyLabel record label n).unsent = record.unsent := by
  cases label <;> exact ⟨rfl, rfl, rfl⟩

theorem refreshFromReservation_present (r : Reservation) (h : record.Present) :
    (refreshFromReservation record r).Present := by
  refine ⟨?_, h.2⟩
  simp only [refreshFromReservation]
  cases r.state <;> rfl

theorem unsolicitedRow_absent (truth : Truth) : (unsolicitedRow truth).Absent := by
  unfold unsolicitedRow Txn.Absent
  split <;> exact ⟨rfl, rfl, rfl⟩

section Merge

variable {original : Txn} {applied : List Hash} {progressed : Bool} {status : IssuerStatus}

theorem merge_present (hv : v.Present) (hr : record.Present) :
    (merge original record applied progressed status v).Present := by
  refine ⟨?_, hv.2⟩
  rcases changed_cases v.state original.state record.state with h | h
  · simp only [merge, h, hv.1]
  · simp only [merge, h, hr.1]

theorem merge_absent (hv : v.Absent) (hr : record.Absent) :
    (merge original record applied progressed status v).Absent := by
  rcases changed_cases v.state original.state record.state with h | h
  · simp only [Txn.Absent, merge, h]
    exact hv
  · simp only [Txn.Absent, merge, h]
    exact ⟨hr.1, hr.2.1, hv.2.2⟩

/-- Both sides agree on whether there is a Reservation. -/
theorem merge_decided (h : v.Present ∧ record.Present ∨ v.Absent ∧ record.Absent) :
    (merge original record applied progressed status v).state.isOpenDecision = false := by
  rcases h with ⟨hp, hr⟩ | ⟨ha, hr⟩
  · exact (merge_present hp hr).isOpenDecision
  · exact (merge_absent ha hr).1

theorem merge_follows (h : v.Present ∧ record.Present ∨ v.Absent ∧ record.Absent) :
    v.Follows (merge original record applied progressed status v) where
  present := by
    intro hv
    rcases h with ⟨-, hr⟩ | ⟨ha, -⟩
    · exact merge_present hv hr
    · exact absurd ha hv.not_absent
  absent := by
    intro hv
    rcases h with ⟨hp, -⟩ | ⟨-, hr⟩
    · exact absurd hv hp.not_absent
    · exact merge_absent hv hr
  notPending := by
    intro _ hpending
    have hopen := (congrArg TxnState.isOpenDecision hpending).symm.trans (merge_decided h)
    cases hopen
  decided := fun _ => merge_decided h
  applied := fun i hi => mem_addIds.mpr (.inl hi)
  unsent := fun i hi => List.mem_append_left _ hi

end Merge

end Rows

end ChainPay.Backend
