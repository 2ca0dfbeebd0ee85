import ChainPay.Card.Exec
import ChainPay.Sdk.Accounts

/-!
What the `card_policy` program can leave in its accounts: every number fits the type of its field,
lists fit their arrays, and the coded fields hold codes the program knows. Each instruction keeps
this (`exec_typed`), so every account of every run has it (`run_typed`), as long as the arguments
of the calls are values of their own types (`Call.Fits`).
-/

namespace ChainPay.Sdk
open ChainPay.Lib ChainPay.Card

/-! ## Accounts -/

/-- A policy as its own types and the program's checks have it. -/
structure TypedPolicy (p : CardPolicy) : Prop where
  policyVersion : p.policyVersion < 2 ^ 32
  budgetCents : p.budgetCents < 2 ^ 64
  maxPurchaseCents : p.maxPurchaseCents < 2 ^ 64
  maxPurchasesPerPeriod : p.maxPurchasesPerPeriod < 2 ^ 16
  periodSeconds : p.periodSeconds < 2 ^ 32
  merchants : p.merchantIdHashes.length ≤ MAX_MERCHANTS
  mccs : p.mccs.length ≤ MAX_MCCS
  mcc : ∀ m ∈ p.mccs, m < 2 ^ 16
  expiresAt : FitsI64 p.expiresAt
  feeBps : p.feeBps < 2 ^ 16
  freezeReason : p.freezeReason ≤ FREEZE_EXPIRY
  statementOutstandingCents : p.statementOutstandingCents < 2 ^ 64
  exceptionsOpen : p.exceptionsOpen < 2 ^ 16
  memberCount : p.memberCount ≤ MAX_MEMBERS
  ledgerSeq : p.ledgerSeq < 2 ^ 64
  commitSeq : p.commitSeq < 2 ^ 64

structure TypedReservation (r : Reservation) : Prop where
  periodIndex : r.periodIndex < 2 ^ 32
  amountReservedCents : r.amountReservedCents < 2 ^ 64
  capturedCents : r.capturedCents < 2 ^ 64
  reversedCents : r.reversedCents < 2 ^ 64
  refundedCents : r.refundedCents < 2 ^ 64
  disputeState : r.disputeState ≤ DISPUTE_WITHDRAWN
  createdAt : FitsI64 r.createdAt
  holdExpiresAt : FitsI64 r.holdExpiresAt
  captureIds : r.captureIds.length ≤ CAPTURE_RING
  maxAmountCents : r.maxAmountCents < 2 ^ 64

structure TypedIntent (i : CheckoutIntent) : Prop where
  mcc : i.mcc < 2 ^ 16
  maxAmountCents : i.maxAmountCents < 2 ^ 64
  policyVersion : i.policyVersion < 2 ^ 32
  expiresAt : FitsI64 i.expiresAt

structure Typed (s : State) : Prop where
  policy : TypedPolicy s.policy
  period : HeldPeriod s.period
  commitment : HeldCommitment s.commitment
  scheduled : ∀ a ∈ s.scheduled, a.seq < 2 ^ 64 ∧ a.policyVersion < 2 ^ 32 ∧ a.periodIndex < 2 ^ 32
  reservations : ∀ h r, s.reservations.lookup h = some r → TypedReservation r
  intents : ∀ i x, s.intents.lookup i = some x → TypedIntent x

/-! ## Calls -/

def PolicyArgsFit (a : PolicyArgs) : Prop :=
  a.maxPurchasesPerPeriod < 2 ^ 16 ∧ a.periodSeconds < 2 ^ 32 ∧ (∀ m ∈ a.mccs, m < 2 ^ 16) ∧
    FitsI64 a.expiresAt

instance (a : PolicyArgs) : Decidable (PolicyArgsFit a) := inferInstanceAs (Decidable (_ ∧ _))

def RestoreArgsFit (a : RestoreArgs) : Prop :=
  PolicyArgsFit a.policy ∧ a.periodIndex < 2 ^ 32 ∧ a.capturedCents < 2 ^ 64 ∧
    a.reservedCents < 2 ^ 64 ∧ a.refundedCents < 2 ^ 64 ∧ a.purchasesCount < 2 ^ 16 ∧
    a.exceptionCents < 2 ^ 64 ∧ a.statementOutstandingCents < 2 ^ 64 ∧ a.ledgerSeq < 2 ^ 64

instance (a : RestoreArgs) : Decidable (RestoreArgsFit a) := inferInstanceAs (Decidable (_ ∧ _))

/-- The arguments are values of the instruction's own types. -/
def InstrFits : Instr → Prop
  | .setPolicy _ args _ => PolicyArgsFit args
  | .openCheckoutIntent _ args =>
    args.mcc < 2 ^ 16 ∧ args.maxAmountCents < 2 ^ 64 ∧ FitsI64 args.expiresAt
  | .authorize _ args => args.amountCents < 2 ^ 64
  | .adjustReservation _ _ n => n < 2 ^ 64
  | .restore _ _ args => RestoreArgsFit args
  | _ => True

instance (i : Instr) : Decidable (InstrFits i) := by
  cases i <;> unfold InstrFits <;> infer_instance

/-- The clock, the slot and the arguments are values of their own types. -/
def CallFits (c : Call) : Prop := FitsI64 c.ctx.now ∧ c.ctx.slot < 2 ^ 64 ∧ InstrFits c.instr

instance (c : Call) : Decidable (CallFits c) := inferInstanceAs (Decidable (_ ∧ _))

/-! ## What the parts of instructions keep -/

section Parts

variable {p p' : CardPolicy}

theorem appendLedger_typed {e : LedgerEvent} {i : Nat} {t : Int} (hp : TypedPolicy p)
    (h : appendLedger p e i t = .ok p') : TypedPolicy p' := by
  have hfit : p.ledgerSeq + 1 < 2 ^ 64 := by
    simp only [appendLedger, bind_eq_ok, add_eq_ok] at h
    obtain ⟨_, ⟨hfit, -⟩, -⟩ := h
    exact hfit
  obtain ⟨head, rfl⟩ := appendLedger_ok h
  exact { hp with ledgerSeq := hfit }

theorem recordEventId_typed {x : Hash} (hp : TypedPolicy p) (h : recordEventId p x = .ok p') :
    TypedPolicy p' := by
  obtain ⟨-, -, rfl⟩ := recordEventId_ok h
  exact { hp with }

theorem addExposure_typed {a : Nat} (hp : TypedPolicy p) (h : addExposure p a = .ok p') :
    TypedPolicy p' := by
  simp only [addExposure, bind_eq_ok, add_eq_ok, pure_eq_ok] at h
  obtain ⟨g, -, _, ⟨hfit, rfl⟩, rfl⟩ := h
  exact { hp with statementOutstandingCents := hfit }

theorem reduceExposure_typed {a : Nat} (hp : TypedPolicy p) (h : reduceExposure p a = .ok p') :
    TypedPolicy p' := by
  rw [reduceExposure_ok h]
  exact { hp with
    statementOutstandingCents := Nat.lt_of_le_of_lt (Nat.sub_le _ _) hp.statementOutstandingCents }

theorem ephemeralCreated_typed (hp : TypedPolicy p) (h : ephemeralCreated p = .ok p') :
    TypedPolicy p' := by
  rw [ephemeralCreated_ok h]
  exact { hp with }

theorem ephemeralClosed_typed (hp : TypedPolicy p) : TypedPolicy (ephemeralClosed p) :=
  { hp with }

theorem validatePolicyArgs_lists {args : PolicyArgs} {owner : Pubkey} {now : Int} {u : Unit}
    (h : validatePolicyArgs args owner now = .ok u) :
    args.maxPurchaseCents ≤ args.budgetCents ∧ args.merchantIdHashes.length ≤ MAX_MERCHANTS ∧
      args.mccs.length ≤ MAX_MCCS := by
  simp only [validatePolicyArgs, bind_eq_ok, ensure_eq_ok, exists_unit] at h
  obtain ⟨-, hle, -, -, -, -, ⟨hmerchants, hmccs⟩, -⟩ := h
  exact ⟨hle, hmerchants, hmccs⟩

theorem applyPolicyArgs_typed {args : PolicyArgs} {owner : Pubkey} {now : Int} {u : Unit}
    (hp : TypedPolicy p) (hfit : PolicyArgsFit args)
    (h : validatePolicyArgs args owner now = .ok u) : TypedPolicy (applyPolicyArgs p args) := by
  obtain ⟨hbudget, hfee, -, -⟩ := validatePolicyArgs_ok h
  obtain ⟨hpurchase, hmerchants, hmccs⟩ := validatePolicyArgs_lists h
  obtain ⟨hcount, hseconds, hmcc, hexpires⟩ := hfit
  have hmax : MAX_BUDGET_CENTS < 2 ^ 64 := by decide
  have hbps : MAX_FEE_BPS < 2 ^ 16 := by decide
  exact { hp with
    budgetCents := Nat.lt_of_le_of_lt hbudget hmax
    maxPurchaseCents := Nat.lt_of_le_of_lt (Nat.le_trans hpurchase hbudget) hmax
    maxPurchasesPerPeriod := hcount
    periodSeconds := hseconds
    merchants := hmerchants
    mccs := hmccs
    mcc := hmcc
    expiresAt := hexpires
    feeBps := Nat.lt_of_le_of_lt hfee hbps }

theorem zeroedPolicy_typed (binding owner : Pubkey) : TypedPolicy (zeroedPolicy binding owner) where
  policyVersion := Nat.two_pow_pos 32
  budgetCents := Nat.two_pow_pos 64
  maxPurchaseCents := Nat.two_pow_pos 64
  maxPurchasesPerPeriod := Nat.two_pow_pos 16
  periodSeconds := Nat.two_pow_pos 32
  merchants := Nat.zero_le _
  mccs := Nat.zero_le _
  mcc _ h := nomatch h
  expiresAt := (by decide : FitsI64 0)
  feeBps := Nat.two_pow_pos 16
  freezeReason := (by decide : (0 : UInt8) ≤ FREEZE_EXPIRY)
  statementOutstandingCents := Nat.two_pow_pos 64
  exceptionsOpen := Nat.two_pow_pos 16
  memberCount := Nat.zero_le _
  ledgerSeq := Nat.two_pow_pos 64
  commitSeq := Nat.two_pow_pos 64

theorem zeroedPeriod_typed : HeldPeriod zeroedPeriod := by
  constructor <;> decide

theorem applyRepayment_typed {i a : Nat} {d : Hash} {b : UInt8} {t : Int} (hp : TypedPolicy p)
    (h : applyRepayment p i d a b t = .ok p') : TypedPolicy p' := by
  simp only [applyRepayment, bind_eq_ok, exists_unit, sub_eq_ok] at h
  obtain ⟨-, -, -, -, _, ⟨-, rfl⟩, h⟩ := h
  refine appendLedger_typed ?_ h
  exact { hp with
    statementOutstandingCents := Nat.lt_of_le_of_lt (Nat.sub_le _ _) hp.statementOutstandingCents }

theorem editMembers_typed {op : PermissionOp} {k : Pubkey} {b : UInt8} (hp : TypedPolicy p)
    (h : editMembers p op = .ok (p', k, b)) : TypedPolicy p' := by
  cases op with
  | addReader pubkey =>
    simp only [editMembers, bind_eq_ok, exists_unit, ensure_eq_ok, pure_eq_ok, Prod.mk.injEq] at h
    obtain ⟨-, -, hroom, rfl, -⟩ := h
    exact { hp with memberCount := hroom }
  | removeReader pubkey =>
    simp only [editMembers, bind_eq_ok, exists_unit, okOr_eq_ok, ensure_eq_ok, pure_eq_ok,
      Prod.mk.injEq] at h
    obtain ⟨index, -, -, rfl, -⟩ := h
    exact { hp with memberCount := Nat.le_trans (Nat.sub_le _ _) hp.memberCount }

end Parts

/-! ## Reservations and intents -/

/-- A table whose entries all have a property, after one of them is written. -/
theorem lookup_insert_all {κ ν : Type} [DecidableEq κ] {t : Table κ ν} {k : κ} {v : ν} {P : ν → Prop}
    (h : ∀ k v, t.lookup k = some v → P v) (hv : P v) :
    ∀ k' v', (t.insert k v).lookup k' = some v' → P v' := by
  intro k' v' hlookup
  by_cases hk : k' = k
  · subst hk
    rw [AList.lookup_insert] at hlookup
    cases hlookup
    exact hv
  · rw [AList.lookup_insert_ne hk] at hlookup
    exact h k' v' hlookup

theorem lookup_erase_all {κ ν : Type} [DecidableEq κ] {t : Table κ ν} {k : κ} {P : ν → Prop}
    (h : ∀ k v, t.lookup k = some v → P v) :
    ∀ k' v', (t.erase k).lookup k' = some v' → P v' := by
  intro k' v' hlookup
  by_cases hk : k' = k
  · subst hk
    rw [AList.lookup_erase] at hlookup
    cases hlookup
  · rw [AList.lookup_erase_ne hk] at hlookup
    exact h k' v' hlookup

section Holds

variable {q : CardPeriod} {r : Reservation}

theorem releaseHold_typed {q' : CardPeriod} {r' : Reservation} {a n : Nat} (hq : HeldPeriod q)
    (hr : TypedReservation r) (h : releaseHold q r a = .ok (q', r', n)) :
    HeldPeriod q' ∧ TypedReservation r' := by
  rw [releaseHold_eq] at h
  cases h
  exact ⟨{ hq with reservedCents := Nat.lt_of_le_of_lt (Nat.sub_le _ _) hq.reservedCents },
    { hr with
      amountReservedCents := Nat.lt_of_le_of_lt (Nat.sub_le _ _) hr.amountReservedCents }⟩

theorem settleEmpty_typed {st : ReservationState} (hr : TypedReservation r) :
    TypedReservation (settleEmpty r st) := by
  unfold settleEmpty
  split
  · exact { hr with }
  · exact hr

theorem resize_typed {ctx : Ctx} {p : CardPolicy} {q' : CardPeriod} {r' : Reservation} {n : Nat}
    (hn : n < 2 ^ 64) (hq : HeldPeriod q) (hr : TypedReservation r)
    (h : resize ctx p q r n = .ok (q', r')) : HeldPeriod q' ∧ TypedReservation r' := by
  unfold resize at h
  dsimp only at h
  split at h
  · simp only [bind_eq_ok, pure_eq_ok] at h
    obtain ⟨⟨q₁, r₁, released⟩, hrelease, h⟩ := h
    cases h
    exact releaseHold_typed hq hr hrelease
  · split at h
    · simp only [bind_eq_ok, exists_unit, add_eq_ok, pure_eq_ok] at h
      obtain ⟨-, -, -, _, -, -, -, _, -, -, _, ⟨hfit, rfl⟩, h⟩ := h
      cases h
      exact ⟨{ hq with reservedCents := hfit }, { hr with amountReservedCents := hn }⟩
    · cases h
      exact ⟨hq, hr⟩

theorem takeFromHold_typed {p p' : CardPolicy} {q' : CardPeriod} {r' : Reservation} {a : Nat}
    (hp : TypedPolicy p) (hq : HeldPeriod q) (hr : TypedReservation r)
    (h : takeFromHold p q r a = .ok (p', q', r')) :
    TypedPolicy p' ∧ HeldPeriod q' ∧ TypedReservation r' := by
  unfold takeFromHold at h
  split at h
  · simp only [bind_eq_ok] at h
    obtain ⟨⟨q₁, r₁, taken⟩, hrelease, h⟩ := h
    obtain ⟨hq₁, hr₁⟩ := releaseHold_typed hq hr hrelease
    dsimp only at h
    split at h
    · simp only [bind_eq_ok, add_eq_ok, increment_eq_ok, pure_eq_ok] at h
      obtain ⟨_, ⟨hexception, rfl⟩, _, ⟨hopened, rfl⟩, h⟩ := h
      cases h
      exact ⟨{ hp with exceptionsOpen := hopened }, { hq₁ with exceptionCents := hexception },
        { hr₁ with }⟩
    · cases h
      exact ⟨hp, hq₁, { hr₁ with }⟩
  · cases h
    exact ⟨hp, hq, { hr with }⟩

theorem takeFromHold_captureIds {p p' : CardPolicy} {q' : CardPeriod} {r' : Reservation} {a : Nat}
    (h : takeFromHold p q r a = .ok (p', q', r')) : r'.captureIds = r.captureIds := by
  unfold takeFromHold at h
  split at h
  · simp only [bind_eq_ok, releaseHold_eq, Except.ok.injEq] at h
    obtain ⟨_, rfl, h⟩ := h
    dsimp only at h
    split at h
    · simp only [bind_eq_ok, pure_eq_ok] at h
      obtain ⟨_, -, _, -, h⟩ := h
      cases h
      rfl
    · cases h
      rfl
  · cases h
    rfl

/-- An optional reservation that is typed. -/
def TypedOption (o : Option Reservation) : Prop := ∀ r, o = some r → TypedReservation r

theorem onReservation_typed {o o' : Option Reservation} {f : Reservation → Except Err Reservation}
    (ho : TypedOption o) (hf : ∀ r r', TypedReservation r → f r = .ok r' → TypedReservation r')
    (h : onReservation f o = .ok o') : TypedOption o' := by
  cases o with
  | none =>
    cases h
    exact ho
  | some r =>
    simp only [onReservation, bind_eq_ok, pure_eq_ok] at h
    obtain ⟨r', hr', rfl⟩ := h
    intro x hx
    cases hx
    exact hf r r' (ho r rfl) hr'

theorem book_typed {kind : ExceptionKind} {a : Nat} {p p' : CardPolicy} {q' : CardPeriod}
    {o o' : Option Reservation} (hp : TypedPolicy p) (hq : HeldPeriod q) (ho : TypedOption o)
    (h : kind.book a p q o = .ok (p', q', o')) :
    TypedPolicy p' ∧ HeldPeriod q' ∧ TypedOption o' := by
  have hdebit : ∀ {kind}, bookDebit kind a p q o = .ok (p', q', o') →
      TypedPolicy p' ∧ HeldPeriod q' ∧ TypedOption o' := by
    intro kind h
    simp only [bookDebit, bind_eq_ok, exists_unit, add_eq_ok, pure_eq_ok] at h
    obtain ⟨-, _, ⟨hcaptured, rfl⟩, _, ⟨hexception, rfl⟩, o₁, ho₁, p₁, hp₁, h⟩ := h
    cases h
    refine ⟨addExposure_typed hp hp₁,
      { hq with capturedCents := hcaptured, exceptionCents := hexception },
      onReservation_typed ho (fun r r' hr hr' => ?_) ho₁⟩
    simp only [bind_eq_ok, add_eq_ok, pure_eq_ok] at hr'
    obtain ⟨_, ⟨hfit, rfl⟩, rfl⟩ := hr'
    exact { hr with capturedCents := hfit }
  cases kind with
  | lateCapture =>
    simp only [ExceptionKind.book, bookLate, bind_eq_ok, exists_unit, add_eq_ok, pure_eq_ok] at h
    obtain ⟨-, -, _, ⟨hcaptured, rfl⟩, p₁, hp₁, h⟩ := h
    cases h
    exact ⟨addExposure_typed hp hp₁, { hq with capturedCents := hcaptured }, fun r hr => by cases hr⟩
  | overHold =>
    simp only [ExceptionKind.book, bookOverHold, bind_eq_ok, exists_unit, okOr_eq_ok, add_eq_ok,
      pure_eq_ok] at h
    obtain ⟨r, hr, -, _, ⟨hhold, rfl⟩, _, ⟨hreserved, rfl⟩, _, ⟨hexception, rfl⟩, h⟩ := h
    cases h
    refine ⟨hp, { hq with reservedCents := hreserved, exceptionCents := hexception }, ?_⟩
    intro x hx
    cases hx
    exact { ho r hr with amountReservedCents := hhold }
  | correctionCredit =>
    simp only [ExceptionKind.book, bookCredit, bind_eq_ok, add_eq_ok, pure_eq_ok] at h
    obtain ⟨_, ⟨hrefunded, rfl⟩, o₁, ho₁, p₁, hp₁, h⟩ := h
    cases h
    refine ⟨reduceExposure_typed hp hp₁, { hq with refundedCents := hrefunded },
      onReservation_typed ho (fun r r' hr hr' => ?_) ho₁⟩
    simp only [bind_eq_ok, add_eq_ok, pure_eq_ok] at hr'
    obtain ⟨_, ⟨hfit, rfl⟩, rfl⟩ := hr'
    exact { hr with refundedCents := hfit }
  | forcedCapture => exact hdebit h
  | overCapture => exact hdebit h
  | correctionDebit => exact hdebit h
  | returnReversal => exact hdebit h
  | unpairedCapture => exact hdebit h

theorem raiseException_typed {kind : ExceptionKind} {p p' : CardPolicy} (hp : TypedPolicy p)
    (h : raiseException kind p = .ok p') : TypedPolicy p' := by
  unfold raiseException at h
  split at h
  · cases h
    exact hp
  · simp only [bind_eq_ok, increment_eq_ok, pure_eq_ok] at h
    obtain ⟨_, ⟨hfit, rfl⟩, rfl⟩ := h
    exact { hp with exceptionsOpen := hfit }

end Holds

section Accounts

variable {ctx : Ctx} {k : Pubkey} {s s' : State}

theorem reservationContext_typed {x : Hash} {r : Reservation} (hs : Typed s)
    (h : reservationContext ctx k x s = .ok r) : TypedReservation r :=
  hs.reservations x r (reservationContext_ok h).2

theorem cardContext_typed {o : Option Hash} {r : Option Reservation} (hs : Typed s)
    (h : cardContext ctx k o s = .ok r) : TypedOption r := by
  cases o with
  | none =>
    simp only [cardContext, bind_eq_ok, exists_unit, pure_eq_ok] at h
    obtain ⟨-, rfl⟩ := h
    exact fun x hx => nomatch hx
  | some x =>
    simp only [cardContext, bind_eq_ok, exists_unit, okOr_eq_ok, pure_eq_ok] at h
    obtain ⟨-, y, hy, rfl⟩ := h
    intro z hz
    cases hz
    exact hs.reservations x y hy

theorem writeBack_typed {o : Option Hash} {r : Option Reservation} (hs : Typed s)
    (hr : TypedOption r) :
    ∀ h x, (writeBack s.reservations o r).lookup h = some x → TypedReservation x := by
  cases o with
  | none => exact hs.reservations
  | some i =>
    cases r with
    | none => exact hs.reservations
    | some r => exact lookup_insert_all hs.reservations (hr r rfl)

end Accounts

/-! ## Instructions -/

/-- The parts of a card that an instruction wrote, the rest as it was. -/
theorem Typed.write {s : State} {p : CardPolicy} {q : CardPeriod} {rs : Table Hash Reservation}
    {b : CardBinding} {is : Table IntentId CheckoutIntent} {g : Option AuthGuard} {d : Bool}
    (hs : Typed s) (hp : TypedPolicy p) (hq : HeldPeriod q)
    (hr : ∀ h r, rs.lookup h = some r → TypedReservation r)
    (hi : ∀ i x, is.lookup i = some x → TypedIntent x) :
    Typed ⟨b, p, q, s.commitment, rs, is, g, d, s.scheduled⟩ :=
  ⟨hp, hq, hs.commitment, hs.scheduled, hr, hi⟩

theorem Typed.writePolicy {s : State} {p : CardPolicy} (hs : Typed s) (hp : TypedPolicy p) :
    Typed { s with policy := p } :=
  hs.write hp hs.period hs.reservations hs.intents

section Setup

variable {ctx : Ctx} {k : Pubkey} {s s' : State}

theorem delegateCard_typed {v : Pubkey} (hs : Typed s) (h : delegateCard ctx k v s = .ok s') :
    Typed s' := by
  simp only [delegateCard, bind_eq_ok, exists_unit] at h
  obtain ⟨-, -, -, -, h⟩ := h
  split at h
  · cases h
    exact hs
  · simp only [bind_eq_ok, exists_unit, pure_eq_ok] at h
    obtain ⟨-, rfl⟩ := h
    exact hs.write hs.policy hs.period hs.reservations hs.intents

theorem initPermission_typed {a : Pubkey} (hs : Typed s)
    (h : initPermission ctx k a s = .ok s') : Typed s' := by
  simp only [initPermission, bind_eq_ok, exists_unit] at h
  obtain ⟨-, -, h⟩ := h
  split at h
  · simp only [bind_eq_ok, exists_unit, pure_eq_ok] at h
    obtain ⟨-, p, hp, rfl⟩ := h
    have hfirst : TypedPolicy (firstMembers s.policy k a) :=
      { hs.policy with memberCount := (by decide : 2 ≤ MAX_MEMBERS) }
    exact hs.writePolicy (appendLedger_typed hfirst hp)
  · simp only [bind_eq_ok, exists_unit, pure_eq_ok] at h
    obtain ⟨-, -, rfl⟩ := h
    exact hs

theorem updatePermission_typed {op : PermissionOp} {rest : List AccountRef} (hs : Typed s)
    (h : updatePermission ctx k op rest s = .ok s') : Typed s' := by
  simp only [updatePermission, bind_eq_ok, exists_unit, pure_eq_ok] at h
  obtain ⟨-, -, ⟨p, key, code⟩, hedit, -, -, -, p', hp', rfl⟩ := h
  exact hs.writePolicy (appendLedger_typed (editMembers_typed hs.policy hedit) hp')

theorem syncPermission_typed {t p : AccountRef} (hs : Typed s)
    (h : syncPermission ctx k t p s = .ok s') : Typed s' := by
  simp only [syncPermission, bind_eq_ok, exists_unit, pure_eq_ok] at h
  obtain ⟨-, _, -, -, -, rfl⟩ := h
  exact hs

theorem rotateAuthorizer_typed {p p' : CardPolicy} {a : Pubkey} (hp : TypedPolicy p)
    (h : rotateAuthorizer p a = .ok p') : TypedPolicy p' := by
  obtain ⟨members, rfl⟩ := rotateAuthorizer_policy h
  exact { hp with }

theorem openFirstPeriod_typed {q q' : CardPeriod} {now : Int} {n : Nat} (hnow : FitsI64 now)
    (hq : HeldPeriod q) (h : openFirstPeriod q now n = .ok q') : HeldPeriod q' := by
  unfold openFirstPeriod at h
  split at h
  · simp only [bind_eq_ok, later_eq_ok, pure_eq_ok] at h
    obtain ⟨_, ⟨hfit, rfl⟩, rfl⟩ := h
    exact { hq with
      periodIndex := (by decide : 1 < 2 ^ 32)
      periodStart := hnow
      periodEnd := hfit }
  · cases h
    exact hq

theorem setPolicy_typed {args : PolicyArgs} {first : Option Pubkey} (hnow : FitsI64 ctx.now)
    (hargs : PolicyArgsFit args) (hs : Typed s) (h : setPolicy ctx k args first s = .ok s') :
    Typed s' := by
  simp only [setPolicy, bind_eq_ok, exists_unit, increment_eq_ok, pure_eq_ok] at h
  obtain ⟨-, -, -, hvalid, -, -, p, hp, _, ⟨hversion, rfl⟩, q, hq, -, p', hp', rfl⟩ := h
  have hterms := applyPolicyArgs_typed (rotateAuthorizer_typed hs.policy hp) hargs hvalid
  refine hs.write (appendLedger_typed ?_ hp') (openFirstPeriod_typed hnow hs.period hq)
    hs.reservations hs.intents
  exact { hterms with policyVersion := hversion }

end Setup

section Spend

variable {ctx : Ctx} {k : Pubkey} {s s' : State}

theorem openCheckoutIntent_typed {args : IntentArgs}
    (hargs : args.mcc < 2 ^ 16 ∧ args.maxAmountCents < 2 ^ 64 ∧ FitsI64 args.expiresAt)
    (hs : Typed s) (h : openCheckoutIntent ctx k args s = .ok s') : Typed s' := by
  simp only [openCheckoutIntent, bind_eq_ok, exists_unit, pure_eq_ok] at h
  obtain ⟨-, -, -, -, -, -, p, hp, rfl⟩ := h
  exact hs.write (ephemeralCreated_typed hs.policy hp) hs.period hs.reservations
    (lookup_insert_all hs.intents ⟨hargs.1, hargs.2.1, hs.policy.policyVersion, hargs.2.2⟩)

theorem cancelCheckoutIntent_typed {i : IntentId} (hs : Typed s)
    (h : cancelCheckoutIntent ctx k i s = .ok s') : Typed s' := by
  simp only [cancelCheckoutIntent, bind_eq_ok, exists_unit, okOr_eq_ok, pure_eq_ok] at h
  obtain ⟨-, x, hx, _, -, -, rfl⟩ := h
  exact hs.write hs.policy hs.period hs.reservations
    (lookup_insert_all hs.intents { hs.intents i x hx with })

theorem closeCheckoutIntent_typed {i : IntentId} (hs : Typed s)
    (h : closeCheckoutIntent ctx k i s = .ok s') : Typed s' := by
  simp only [closeCheckoutIntent, bind_eq_ok, exists_unit, pure_eq_ok] at h
  obtain ⟨-, _, -, _, -, -, -, rfl⟩ := h
  exact hs.write (ephemeralClosed_typed hs.policy) hs.period hs.reservations
    (lookup_erase_all hs.intents)

theorem newReservation_typed {args : AuthorizeArgs} {x : CheckoutIntent} {n : Nat} {now e : Int}
    (hargs : args.amountCents < 2 ^ 64) (hx : TypedIntent x) (hn : n < 2 ^ 32)
    (hnow : FitsI64 now) (he : FitsI64 e) : TypedReservation (newReservation args x n now e) where
  periodIndex := hn
  amountReservedCents := hargs
  capturedCents := Nat.two_pow_pos 64
  reversedCents := Nat.two_pow_pos 64
  refundedCents := Nat.two_pow_pos 64
  disputeState := (by decide : (0 : UInt8) ≤ DISPUTE_WITHDRAWN)
  createdAt := hnow
  holdExpiresAt := he
  captureIds := Nat.zero_le _
  maxAmountCents := hx.maxAmountCents

theorem bookAuthorization_typed {args : AuthorizeArgs} {r r' : Reservation} {q q' : CardPeriod}
    {p p' : CardPolicy} (hargs : args.amountCents < 2 ^ 64) (hr : TypedReservation r)
    (hq : HeldPeriod q) (hp : TypedPolicy p)
    (h : bookAuthorization args r q p = .ok (r', q', p')) :
    TypedReservation r' ∧ HeldPeriod q' ∧ TypedPolicy p' := by
  unfold bookAuthorization at h
  split at h
  · simp only [bind_eq_ok, add_eq_ok, pure_eq_ok, Prod.mk.injEq] at h
    obtain ⟨_, ⟨hcaptured, rfl⟩, p₁, hp₁, rfl, rfl, rfl⟩ := h
    exact ⟨{ hr with amountReservedCents := Nat.two_pow_pos 64, capturedCents := hargs },
      { hq with capturedCents := hcaptured }, addExposure_typed hp hp₁⟩
  · simp only [bind_eq_ok, add_eq_ok, pure_eq_ok, Prod.mk.injEq] at h
    obtain ⟨_, ⟨hreserved, rfl⟩, rfl, rfl, rfl⟩ := h
    exact ⟨hr, { hq with reservedCents := hreserved }, hp⟩

theorem authorize_typed {args : AuthorizeArgs} (hnow : FitsI64 ctx.now)
    (hargs : args.amountCents < 2 ^ 64) (hs : Typed s) (h : authorize ctx k args s = .ok s') :
    Typed s' := by
  simp only [authorize, bind_eq_ok, exists_unit, okOr_eq_ok, later_eq_ok, increment_eq_ok,
    pure_eq_ok] at h
  obtain ⟨-, -, -, -, -, x, hx, -, -, -, _, ⟨hexpires, rfl⟩, p, hp, _, ⟨hcount, rfl⟩,
    ⟨r, q, p₂⟩, hbook, p₃, hp₃, rfl⟩ := h
  have htx := hs.intents _ x hx
  have hcounted : HeldPeriod { s.period with purchasesCount := s.period.purchasesCount + 1 } :=
    { hs.period with purchasesCount := hcount }
  obtain ⟨hr, hq, hp₂⟩ := bookAuthorization_typed hargs
    (newReservation_typed hargs htx hs.period.periodIndex hnow hexpires) hcounted
    (ephemeralCreated_typed hs.policy hp) hbook
  exact hs.write (appendLedger_typed hp₂ hp₃) hq (lookup_insert_all hs.reservations hr)
    (lookup_insert_all hs.intents { htx with })

end Spend

section Lifecycle

variable {ctx : Ctx} {k : Pubkey} {s s' : State} {x e : Hash} {a : Nat}

theorem adjustReservation_typed {n : Nat} (hn : n < 2 ^ 64) (hs : Typed s)
    (h : adjustReservation ctx k x n s = .ok s') : Typed s' := by
  simp only [adjustReservation, bind_eq_ok, exists_unit, pure_eq_ok] at h
  obtain ⟨r, hr, -, -, ⟨q, r₁⟩, hsize, p, hp, rfl⟩ := h
  obtain ⟨hq, hr₁⟩ := resize_typed hn hs.period (reservationContext_typed hs hr) hsize
  exact hs.write (appendLedger_typed hs.policy hp) hq
    (lookup_insert_all hs.reservations (settleEmpty_typed hr₁)) hs.intents

theorem capture_typed {i : Hash} (hs : Typed s) (h : capture ctx k x a i s = .ok s') :
    Typed s' := by
  simp only [capture, bind_eq_ok, exists_unit, ensure_eq_ok, add_eq_ok, pure_eq_ok] at h
  obtain ⟨r, hr, -, -, -, -, hroom, ⟨p, q, r₁⟩, htake, -, _, ⟨hcaptured, rfl⟩, _,
    ⟨hheld, rfl⟩, p₁, hp₁, p₂, hp₂, rfl⟩ := h
  have htr := reservationContext_typed hs hr
  obtain ⟨hp, hq, hr₁⟩ := takeFromHold_typed hs.policy hs.period htr htake
  have hids : r₁.captureIds = r.captureIds := takeFromHold_captureIds htake
  have hlength : (r₁.captureIds ++ [i]).length ≤ CAPTURE_RING := by
    rw [hids, List.length_append]
    exact hroom
  exact hs.write (appendLedger_typed (addExposure_typed hp hp₁) hp₂)
    { hq with capturedCents := hcaptured }
    (lookup_insert_all hs.reservations { hr₁ with capturedCents := hheld, captureIds := hlength })
    hs.intents

theorem reverse_typed {b : UInt8} (hs : Typed s) (h : reverse ctx k x a b e s = .ok s') :
    Typed s' := by
  simp only [reverse, bind_eq_ok, exists_unit, add_eq_ok, pure_eq_ok] at h
  obtain ⟨r, hr, -, -, -, p, hp, -, ⟨q, r₁, n⟩, hrelease, _, ⟨hfit, rfl⟩, p₁, hp₁, rfl⟩ := h
  obtain ⟨hq, hr₁⟩ := releaseHold_typed hs.period (reservationContext_typed hs hr) hrelease
  exact hs.write (appendLedger_typed (recordEventId_typed hs.policy hp) hp₁) hq
    (lookup_insert_all hs.reservations (settleEmpty_typed { hr₁ with reversedCents := hfit }))
    hs.intents

theorem refund_typed {o : Option Hash} (hs : Typed s) (h : refund ctx k o a e s = .ok s') :
    Typed s' := by
  simp only [refund, bind_eq_ok, exists_unit, add_eq_ok, pure_eq_ok] at h
  obtain ⟨r, hr, -, -, p, hp, _, ⟨hrefunded, rfl⟩, r₁, hr₁, p₁, hp₁, p₂, hp₂, rfl⟩ := h
  have htyped : TypedOption r₁ := by
    refine onReservation_typed (cardContext_typed hs hr) (fun r r' hr hr' => ?_) hr₁
    simp only [bind_eq_ok, exists_unit, add_eq_ok, pure_eq_ok] at hr'
    obtain ⟨-, _, ⟨hfit, rfl⟩, rfl⟩ := hr'
    exact { hr with refundedCents := hfit }
  exact hs.write
    (appendLedger_typed (reduceExposure_typed (recordEventId_typed hs.policy hp) hp₁) hp₂)
    { hs.period with refundedCents := hrefunded } (writeBack_typed hs htyped) hs.intents

theorem recordDispute_typed {b : UInt8} (hs : Typed s)
    (h : recordDispute ctx k x b e s = .ok s') : Typed s' := by
  simp only [recordDispute, bind_eq_ok, exists_unit, ensure_eq_ok, pure_eq_ok] at h
  obtain ⟨r, hr, -, hcode, p, hp, p₁, hp₁, rfl⟩ := h
  exact hs.write (appendLedger_typed (recordEventId_typed hs.policy hp) hp₁) hs.period
    (lookup_insert_all hs.reservations
      { reservationContext_typed hs hr with disputeState := hcode }) hs.intents

theorem recordException_typed {o : Option Hash} {c : UInt8} (hs : Typed s)
    (h : recordException ctx k o c a e s = .ok s') : Typed s' := by
  simp only [recordException, bind_eq_ok, exists_unit, pure_eq_ok] at h
  obtain ⟨r, hr, -, kind, -, -, p, hp, ⟨p₁, q, r₁⟩, hbook, p₂, hp₂, p₃, hp₃, rfl⟩ := h
  obtain ⟨hp₁, hq, hr₁⟩ := book_typed (recordEventId_typed hs.policy hp) hs.period
    (cardContext_typed hs hr) hbook
  exact hs.write (appendLedger_typed (raiseException_typed hp₁ hp₂) hp₃) hq
    (writeBack_typed hs hr₁) hs.intents

theorem resolveException_typed {b : UInt8} (hs : Typed s)
    (h : resolveException ctx k e b s = .ok s') : Typed s' := by
  simp only [resolveException, bind_eq_ok, exists_unit, pure_eq_ok] at h
  obtain ⟨-, -, p, hp, -, p₁, hp₁, rfl⟩ := h
  have htp := recordEventId_typed hs.policy hp
  have hless : p.exceptionsOpen - 1 < 2 ^ 16 := Nat.lt_of_le_of_lt (Nat.sub_le _ _) htp.exceptionsOpen
  refine hs.writePolicy (appendLedger_typed ?_ hp₁)
  exact { htp with exceptionsOpen := hless }

end Lifecycle

section Period

variable {ctx : Ctx} {k : Pubkey} {s s' : State}

theorem expireOne_typed {account : AccountRef} {w : Bool} (hs : Typed s)
    (h : expireOne ctx account w s = .ok s') : Typed s' := by
  simp only [expireOne, bind_eq_ok, exists_unit] at h
  obtain ⟨-, h⟩ := h
  split at h
  · simp only [bind_eq_ok, okOr_eq_ok] at h
    obtain ⟨r, hr, h⟩ := h
    split at h
    · simp only [bind_eq_ok, pure_eq_ok] at h
      obtain ⟨p, hp, rfl⟩ := h
      have hless : s.period.reservedCents - r.amountReservedCents < 2 ^ 64 :=
        Nat.lt_of_le_of_lt (Nat.sub_le _ _) hs.period.reservedCents
      exact hs.write (appendLedger_typed hs.policy hp) { hs.period with reservedCents := hless }
        (lookup_insert_all hs.reservations
          { hs.reservations _ r hr with amountReservedCents := Nat.two_pow_pos 64 }) hs.intents
    · cases h
      exact hs
  · cases h

theorem expireAll_typed {accounts : List (AccountRef × Bool)} (hs : Typed s)
    (h : expireAll ctx accounts s = .ok s') : Typed s' := by
  induction accounts generalizing s with
  | nil =>
    cases h
    exact hs
  | cons a rest ih =>
    simp only [expireAll, bind_eq_ok] at h
    obtain ⟨s₁, h₁, h⟩ := h
    exact ih (expireOne_typed hs h₁) h

theorem rollPeriod_typed {accounts : List (AccountRef × Bool)} (hnow : FitsI64 ctx.now)
    (hs : Typed s) (h : rollPeriod ctx k accounts s = .ok s') : Typed s' := by
  simp only [rollPeriod, bind_eq_ok, exists_unit, increment_eq_ok, later_eq_ok, pure_eq_ok] at h
  obtain ⟨-, -, -, s₁, hloop, _, ⟨hindex, rfl⟩, _, ⟨hstop, rfl⟩, p, hp, rfl⟩ := h
  have hs₁ := expireAll_typed hs hloop
  have hq : HeldPeriod { s₁.period with
      periodIndex := s₁.period.periodIndex + 1
      periodStart := ctx.now
      periodEnd := ctx.now + s₁.policy.periodSeconds
      capturedCents := 0
      refundedCents := 0
      purchasesCount := 0
      exceptionCents := 0 } :=
    ⟨hindex, hnow, hstop, Nat.two_pow_pos 64, hs₁.period.reservedCents, Nat.two_pow_pos 64,
      Nat.two_pow_pos 16, Nat.two_pow_pos 64⟩
  exact hs₁.write (appendLedger_typed hs₁.policy hp) hq hs₁.reservations hs₁.intents

theorem closeReservation_typed {x : Hash} (hs : Typed s)
    (h : closeReservation ctx k x s = .ok s') : Typed s' := by
  simp only [closeReservation, bind_eq_ok, exists_unit, pure_eq_ok] at h
  obtain ⟨-, _, -, r, -, -, g, -, _, -, -, p, hp, p₁, hp₁, rfl⟩ := h
  have htp : TypedPolicy p := by
    rw [countClose_ok hp]
    exact { hs.policy with }
  exact hs.write (appendLedger_typed htp hp₁) hs.period (lookup_erase_all hs.reservations)
    hs.intents

end Period

section Control

variable {ctx : Ctx} {k : Pubkey} {s s' : State}

theorem freeze_typed {b : UInt8} (hs : Typed s) (h : freeze ctx k b s = .ok s') : Typed s' := by
  simp only [freeze, bind_eq_ok, exists_unit, pure_eq_ok] at h
  obtain ⟨-, isOwner, -, hreason, p, hp, rfl⟩ := h
  have hcode : b ≤ FREEZE_EXPIRY := by
    split at hreason
    · rw [ensure_eq_ok] at hreason
      rcases hreason with rfl | rfl <;> decide
    · rw [ensure_eq_ok] at hreason
      subst hreason
      decide
  refine hs.writePolicy (appendLedger_typed ?_ hp)
  split
  · exact hs.policy
  · exact { hs.policy with freezeReason := hcode }

theorem unfreeze_typed (hs : Typed s) (h : unfreeze ctx k s = .ok s') : Typed s' := by
  simp only [unfreeze, bind_eq_ok, exists_unit, pure_eq_ok] at h
  obtain ⟨-, -, -, p, hp, rfl⟩ := h
  have hcode : FREEZE_NONE ≤ FREEZE_EXPIRY := by decide
  refine hs.writePolicy (appendLedger_typed ?_ hp)
  exact { hs.policy with freezeReason := hcode }

theorem recoveryFreeze_typed {b : UInt8} (hs : Typed s)
    (h : recoveryFreeze ctx k b s = .ok s') : Typed s' := by
  simp only [recoveryFreeze, bind_eq_ok, exists_unit, pure_eq_ok] at h
  obtain ⟨-, _, -, p, hp, rfl⟩ := h
  have hcode : FREEZE_RECOVERY ≤ FREEZE_EXPIRY := by decide
  refine hs.writePolicy (appendLedger_typed ?_ hp)
  exact { hs.policy with freezeReason := hcode }

theorem restore_typed {a : Pubkey} {args : RestoreArgs} (hnow : FitsI64 ctx.now)
    (hargs : RestoreArgsFit args) (hs : Typed s) (h : restore ctx k a args s = .ok s') :
    Typed s' := by
  simp only [restore, bind_eq_ok, exists_unit, increment_eq_ok, later_eq_ok, pure_eq_ok] at h
  obtain ⟨-, -, -, -, -, -, -, hvalid, -, -, _, ⟨hversion, rfl⟩, _, ⟨hstop, rfl⟩, p, hp, rfl⟩ := h
  obtain ⟨hpolicy, hindex, hcaptured, hreserved, hrefunded, hcount, hexception, hout, hseq⟩ := hargs
  have hterms := applyPolicyArgs_typed hs.policy hpolicy hvalid
  have hcode : FREEZE_RECOVERY ≤ FREEZE_EXPIRY := by decide
  refine hs.write (appendLedger_typed ?_ hp) ?_ hs.reservations hs.intents
  · exact { hterms with
      policyVersion := hversion
      statementOutstandingCents := hout
      ledgerSeq := hseq
      freezeReason := hcode }
  · exact ⟨hindex, hnow, hstop, hcaptured, hreserved, hrefunded, hcount, hexception⟩

theorem confirmReconciled_typed {d : Hash} (hs : Typed s)
    (h : confirmReconciled ctx k d s = .ok s') : Typed s' := by
  simp only [confirmReconciled, bind_eq_ok, exists_unit, pure_eq_ok] at h
  obtain ⟨-, -, -, p, hp, rfl⟩ := h
  refine hs.writePolicy (appendLedger_typed ?_ hp)
  exact { hs.policy with }

theorem checkpoint_typed {m : Hash} {n : Nat} (hs : Typed s)
    (h : checkpoint ctx k m n s = .ok s') : Typed s' := by
  simp only [checkpoint, bind_eq_ok, exists_unit, add_eq_ok, ensure_eq_ok, pure_eq_ok] at h
  obtain ⟨-, -, _, ⟨hfit, rfl⟩, rfl, -, -, rfl⟩ := h
  refine ⟨{ hs.policy with commitSeq := hfit }, hs.period, hs.commitment, ?_, hs.reservations,
    hs.intents⟩
  intro action haction
  rcases List.mem_append.mp haction with hold | hnew
  · exact hs.scheduled action hold
  · rw [List.mem_singleton] at hnew
    subst hnew
    exact ⟨hfit, hs.policy.policyVersion, hs.period.periodIndex⟩

theorem writeCommitment_typed {action : CommitmentAction} (hslot : ctx.slot < 2 ^ 64)
    (hs : Typed s) (h : writeCommitment ctx action s = .ok s') : Typed s' := by
  simp only [writeCommitment, bind_eq_ok, exists_unit, ensure_eq_ok, pure_eq_ok] at h
  obtain ⟨hmem, -, rfl⟩ := h
  obtain ⟨hseq, hversion, hindex⟩ := hs.scheduled action hmem
  exact ⟨hs.policy, hs.period, ⟨hseq, hversion, hindex, hslot⟩, hs.scheduled, hs.reservations,
    hs.intents⟩

theorem drop_typed (hs : Typed s) (x : Ephemeral) : Typed (s.drop x) := by
  cases x with
  | reservation y =>
    exact hs.write hs.policy hs.period (lookup_erase_all hs.reservations) hs.intents
  | intent y => exact hs.write hs.policy hs.period hs.reservations (lookup_erase_all hs.intents)
  | authGuard => exact hs.write hs.policy hs.period hs.reservations hs.intents

theorem closePairs_typed {accounts : List AccountRef} {n n' : Nat} (hs : Typed s)
    (h : closePairs ctx accounts s n = .ok (s', n')) : Typed s' := by
  induction accounts, s, n using closePairs.induct with
  | case1 target permission rest s n ih =>
    simp only [closePairs, bind_eq_ok, exists_unit] at h
    obtain ⟨x, -, -, -, h⟩ := h
    exact ih x (drop_typed hs x) h
  | case2 accounts s n hshort =>
    rw [closePairs.eq_2 _ _ _ _ hshort] at h
    cases h
    exact hs

theorem wipeCard_typed {accounts : List AccountRef} (hs : Typed s)
    (h : wipeCard ctx k accounts s = .ok s') : Typed s' := by
  simp only [wipeCard, bind_eq_ok, exists_unit, pure_eq_ok] at h
  obtain ⟨-, -, -, -, -, ⟨s₁, n⟩, hclose, -, -, rfl⟩ := h
  have hs₁ := closePairs_typed hs hclose
  exact hs₁.write (zeroedPolicy_typed _ _) zeroedPeriod_typed hs₁.reservations hs₁.intents

theorem closeCard_typed (hs : Typed s) (h : closeCard ctx k s = .ok s') : Typed s' := by
  simp only [closeCard, bind_eq_ok, exists_unit, pure_eq_ok] at h
  obtain ⟨-, -, -, -, -, rfl⟩ := h
  exact hs.write hs.policy hs.period hs.reservations hs.intents

end Control

section Repayment

variable [Runtime] {ctx : Ctx} {k : Pubkey} {s s' : State} {d : Hash} {a : Nat}

theorem recordRepayment_typed {r t m : AccountInfo} (hs : Typed s)
    (h : recordRepayment ctx k d a r t m s = .ok s') : Typed s' := by
  simp only [recordRepayment, bind_eq_ok, exists_unit, pure_eq_ok] at h
  obtain ⟨-, -, _, -, -, p, hp, rfl⟩ := h
  exact hs.writePolicy (applyRepayment_typed hs.policy hp)

theorem repayStatement_typed {m : MandateRef} {r : Pubkey} (hs : Typed s)
    (h : repayStatement ctx k m r d a s = .ok s') : Typed s' := by
  simp only [repayStatement, bind_eq_ok, exists_unit, pure_eq_ok] at h
  obtain ⟨-, -, -, -, -, -, -, -, rfl⟩ := h
  exact hs

omit [Runtime] in
theorem recordPrivateRepayment_typed (hs : Typed s)
    (h : recordPrivateRepayment ctx k d a s = .ok s') : Typed s' := by
  simp only [recordPrivateRepayment, bind_eq_ok, exists_unit, pure_eq_ok] at h
  obtain ⟨-, -, p, hp, rfl⟩ := h
  exact hs.writePolicy (applyRepayment_typed hs.policy hp)

end Repayment

/-! ## Runs -/

section Runs

variable [Runtime] {s s' : State}

/-- **Step.** A call whose arguments have their types leaves typed accounts. -/
theorem exec_typed {call : Call} (hfit : CallFits call) (hs : Typed s)
    (h : exec s call = .ok s') : Typed s' := by
  obtain ⟨ctx, instr⟩ := call
  obtain ⟨hnow, hslot, hargs⟩ := hfit
  cases instr with
  | initCard o => cases h
  | delegateCard o v => exact delegateCard_typed hs h
  | initPermission o a => exact initPermission_typed hs h
  | updatePermission o op rest => exact updatePermission_typed hs h
  | syncPermission k t p => exact syncPermission_typed hs h
  | setPolicy o args first => exact setPolicy_typed hnow hargs hs h
  | openCheckoutIntent k args => exact openCheckoutIntent_typed hargs hs h
  | cancelCheckoutIntent k i => exact cancelCheckoutIntent_typed hs h
  | closeCheckoutIntent k i => exact closeCheckoutIntent_typed hs h
  | authorize k args => exact authorize_typed hnow hargs hs h
  | adjustReservation k x n => exact adjustReservation_typed hargs hs h
  | capture k x a i => exact capture_typed hs h
  | reverse k x a b i => exact reverse_typed hs h
  | refund k o a i => exact refund_typed hs h
  | recordDispute k x b i => exact recordDispute_typed hs h
  | recordException k o c a i => exact recordException_typed hs h
  | resolveException o i b => exact resolveException_typed hs h
  | rollPeriod k rest => exact rollPeriod_typed hnow hs h
  | freeze k b => exact freeze_typed hs h
  | unfreeze o => exact unfreeze_typed hs h
  | recoveryFreeze k b => exact recoveryFreeze_typed hs h
  | restore o a args => exact restore_typed hnow hargs hs h
  | confirmReconciled o d => exact confirmReconciled_typed hs h
  | checkpoint k m n => exact checkpoint_typed hs h
  | writeCommitment a => exact writeCommitment_typed hslot hs h
  | wipeCard o rest => exact wipeCard_typed hs h
  | closeCard o => exact closeCard_typed hs h
  | closeReservation k x => exact closeReservation_typed hs h
  | recordRepayment k d a r t m => exact recordRepayment_typed hs h
  | repayStatement o m r d a => exact repayStatement_typed hs h
  | recordPrivateRepayment k d a => exact recordPrivateRepayment_typed hs h

theorem fresh_typed (hs : Fresh s) : Typed s := by
  obtain ⟨ctx, owner, cardId, issuer, ref, prefund, h⟩ := hs
  simp only [initCard, bind_eq_ok, exists_unit, pure_eq_ok] at h
  obtain ⟨-, -, -, -, -, rfl⟩ := h
  exact {
    policy := zeroedPolicy_typed _ _
    period := zeroedPeriod_typed
    commitment := ⟨Nat.two_pow_pos 64, Nat.two_pow_pos 32, Nat.two_pow_pos 32, Nat.two_pow_pos 64⟩
    scheduled := fun _ h => absurd h (List.not_mem_nil)
    reservations := fun _ _ h => by cases (AList.lookup_empty _).symm.trans h
    intents := fun _ _ h => by cases (AList.lookup_empty _).symm.trans h }

/-- **Run.** Every run of such calls does. -/
theorem run_typed {calls : List Call} (hs : Fresh s) (hfit : ∀ call ∈ calls, CallFits call) :
    Typed (Runs.after exec s calls) :=
  Runs.after_inv (P := fun _ call _ => CallFits call)
    (fun _ _ _ hcall hstep ht => exec_typed hcall ht hstep) (Runs.along_of_calls hfit)
    (fresh_typed hs)

end Runs

end ChainPay.Sdk
