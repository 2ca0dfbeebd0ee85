import ChainPay.Card.Replay

/-!
What one instruction does to the control of a card. `Control` keeps the fields of
the policy that decide whether anything may be spent, and the number of ephemeral
accounts; beside it stand the intents, the replay guard and the reservations.
`exec_turn` lists for every instruction what it can do to them and under which
guard, so that a property of whole runs is proved by cases on `Turn` alone.
-/

namespace ChainPay.Card
open ChainPay.Lib

/-- The part of the policy that opens and closes the card for spending. -/
structure Control where
  frozen : Bool
  recoveryState : RecoveryState
  reconDigest : Hash
  policyVersion : Nat
  ephemeralCount : Nat
  deriving DecidableEq

def CardPolicy.control (p : CardPolicy) : Control where
  frozen := p.frozen
  recoveryState := p.recoveryState
  reconDigest := p.reconDigest
  policyVersion := p.policyVersion
  ephemeralCount := p.ephemeralCount

/-- The card is neither frozen nor in recovery. -/
def Control.spendable (c : Control) : Prop := c.frozen = false ∧ c.recoveryState = .normal

/-- No capture of this Reservation went past its hold. -/
def Reservation.clean (r : Reservation) : Prop :=
  r.flags &&& (FLAG_OVER_CAPTURE ||| FLAG_LATE_CAPTURE) = 0

instance (r : Reservation) : Decidable r.clean := inferInstanceAs (Decidable (_ = _))

/-- What is captured and still held stays within the amount the intent allowed. -/
def Reservation.within (r : Reservation) : Prop :=
  r.capturedCents + r.amountReservedCents ≤ r.maxAmountCents

instance (r : Reservation) : Decidable r.within := inferInstanceAs (Decidable (_ ≤ _))

/-- The instruction is a `record_exception` on the Reservation `h`. -/
def Instr.excepts (h : Hash) : Instr → Bool
  | .recordException _ o _ _ _ => o = some h
  | _ => false

/-- A Reservation after an instruction that neither created nor closed it. -/
structure Carried (instr : Instr) (h : Hash) (r r' : Reservation) : Prop where
  id : r'.authIdHash = r.authIdHash
  limit : r'.maxAmountCents = r.maxAmountCents
  clean : r'.clean → r.clean
  within : r'.clean → instr.excepts h = false → r.within → r'.within

theorem Carried.refl (instr : Instr) (h : Hash) (r : Reservation) : Carried instr h r r :=
  ⟨rfl, rfl, fun hc => hc, fun _ _ hw => hw⟩

/-- Every Reservation after an instruction that neither creates nor closes one. -/
def AllCarried (instr : Instr) (hs hs' : Table Hash Reservation) : Prop :=
  ∀ h, Option.Rel (Carried instr h) (hs.lookup h) (hs'.lookup h)

section Carried

variable {instr : Instr} {hs : Table Hash Reservation} {h : Hash} {r r' : Reservation}

theorem AllCarried.refl (instr : Instr) (hs : Table Hash Reservation) : AllCarried instr hs hs := by
  intro h
  cases hs.lookup h with
  | none => exact .none
  | some r => exact .some (.refl instr h r)

theorem AllCarried.insert (hr : hs.lookup h = some r) (hk : Carried instr h r r') :
    AllCarried instr hs (hs.insert h r') := by
  intro k
  by_cases hkh : k = h
  · subst hkh
    rw [hr, AList.lookup_insert]
    exact .some hk
  · rw [AList.lookup_insert_ne hkh]
    exact AllCarried.refl instr hs k

theorem AllCarried.trans {hs₁ hs₂ hs₃ : Table Hash Reservation} (h₁ : AllCarried instr hs₁ hs₂)
    (h₂ : AllCarried instr hs₂ hs₃) : AllCarried instr hs₁ hs₃ := by
  intro h
  have ha := h₁ h
  have hb := h₂ h
  generalize hs₁.lookup h = x, hs₂.lookup h = y, hs₃.lookup h = z at ha hb
  cases ha with
  | none => exact hb
  | some ha =>
    cases hb with
    | some hb =>
      refine .some ⟨hb.id.trans ha.id, hb.limit.trans ha.limit, ?_, ?_⟩
      · exact fun hc => ha.clean (hb.clean hc)
      · exact fun hc he hw => hb.within hc he (ha.within (hb.clean hc) he hw)

/-- A posting to the named Reservation, or to none. -/
theorem AllCarried.writeBack {o : Option Hash} {f : Reservation → Except Err Reservation}
    {x : Option Reservation} (hf : ∀ h r r', o = some h → f r = .ok r' → Carried instr h r r')
    (hsome : ∀ k, o = some k → (hs.lookup k).isSome)
    (hx : onReservation f (o.bind fun k => hs.lookup k) = .ok x) :
    AllCarried instr hs (ChainPay.Card.writeBack hs o x) := by
  cases o with
  | none =>
    cases hx
    exact .refl instr hs
  | some k =>
    obtain ⟨r, hlook⟩ := Option.isSome_iff_exists.mp (hsome k rfl)
    simp only [Option.bind_some, hlook, onReservation, bind_eq_ok, pure_eq_ok] at hx
    obtain ⟨r₁, hr₁, rfl⟩ := hx
    exact .insert hlook (hf k r r₁ rfl hr₁)

end Carried

/-! ## How the instructions post to a Reservation -/

section Posting

variable {instr : Instr} {h : Hash} {r r' : Reservation}

/-- A hold that shrinks, with nothing captured. -/
theorem Carried.shrunk (hid : r'.authIdHash = r.authIdHash)
    (hmax : r'.maxAmountCents = r.maxAmountCents) (hflags : r'.flags = r.flags)
    (hcap : r'.capturedCents = r.capturedCents)
    (hle : r'.amountReservedCents ≤ r.amountReservedCents) : Carried instr h r r' where
  id := hid
  limit := hmax
  clean := by
    unfold Reservation.clean
    rw [hflags]
    exact fun hc => hc
  within := by
    intro _ _ hw
    unfold Reservation.within at hw ⊢
    omega

theorem settleEmpty_carried (hk : Carried instr h r r') (e : ReservationState) :
    Carried instr h r (settleEmpty r' e) := by
  unfold settleEmpty
  split
  · exact ⟨hk.id, hk.limit, hk.clean, hk.within⟩
  · exact hk

theorem resize_carried {ctx : Ctx} {p : CardPolicy} {q q' : CardPeriod} {n : Nat}
    (hres : resize ctx p q r n = .ok (q', r')) :
    Carried instr h r r' ∧ (r.amountReservedCents < n → p.control.spendable) := by
  simp only [resize] at hres
  split at hres
  · rename_i hlt
    simp only [releaseHold_eq, ok_bind, pure_eq_ok, Prod.mk.injEq] at hres
    obtain ⟨rfl, rfl⟩ := hres
    exact ⟨.shrunk rfl rfl rfl rfl (Nat.sub_le _ _), fun hgt => absurd hgt (by omega)⟩
  · split at hres
    · simp only [bind_eq_ok, exists_unit, add_eq_ok, ensure_eq_ok, pure_eq_ok,
        Prod.mk.injEq] at hres
      obtain ⟨hfrozen, hnormal, -, _, ⟨-, rfl⟩, -, hmax, left, -, -, _, ⟨-, rfl⟩, rfl, rfl⟩ := hres
      refine ⟨⟨rfl, rfl, fun hc => hc, fun _ _ _ => ?_⟩, fun _ => ⟨hfrozen, hnormal⟩⟩
      -- the new hold and what is captured already were checked together
      unfold Reservation.within
      change r.capturedCents + n ≤ r.maxAmountCents
      omega
    · rename_i hgt
      simp only [pure_eq_ok, Prod.mk.injEq] at hres
      obtain ⟨rfl, rfl⟩ := hres
      exact ⟨.refl _ _ _, fun hlt => absurd hlt hgt⟩

/-- A flagged capture is never clean. -/
theorem not_clean_of_flag {f flag : UInt8}
    (hflag : flag &&& (FLAG_OVER_CAPTURE ||| FLAG_LATE_CAPTURE) ≠ 0) :
    (f ||| flag) &&& (FLAG_OVER_CAPTURE ||| FLAG_LATE_CAPTURE) ≠ 0 := by
  intro hc
  apply hflag
  apply UInt8.toBitVec_inj.mp
  have hbits := congrArg UInt8.toBitVec hc
  rw [UInt8.toBitVec_and, UInt8.toBitVec_or, BitVec.and_or_distrib_right] at hbits
  exact (BitVec.or_eq_zero_iff.mp hbits).2

/-- A flagged Reservation promises nothing. -/
theorem Carried.flagged (hid : r'.authIdHash = r.authIdHash)
    (hmax : r'.maxAmountCents = r.maxAmountCents) (hc : ¬ r'.clean) : Carried instr h r r' :=
  ⟨hid, hmax, fun h => absurd h hc, fun h => absurd h hc⟩

theorem takeFromHold_carried {p p' : CardPolicy} {q q' : CardPeriod} {a : Nat} {ids : List Hash}
    (ht : takeFromHold p q r a = .ok (p', q', r')) :
    Carried instr h r { r' with capturedCents := r'.capturedCents + a, captureIds := ids } := by
  unfold takeFromHold at ht
  split at ht
  · simp only [releaseHold_eq, ok_bind] at ht
    split at ht
    · simp only [bind_eq_ok, add_eq_ok, increment_eq_ok, pure_eq_ok, Prod.mk.injEq] at ht
      obtain ⟨_, ⟨-, rfl⟩, _, ⟨-, rfl⟩, rfl, rfl, rfl⟩ := ht
      exact .flagged rfl rfl (not_clean_of_flag (by decide))
    · rename_i hfit
      simp only [pure_eq_ok, Prod.mk.injEq] at ht
      obtain ⟨rfl, rfl, rfl⟩ := ht
      refine ⟨rfl, rfl, fun hc => hc, fun _ _ hw => ?_⟩
      -- the whole capture came out of the hold
      unfold Reservation.within at hw ⊢
      change r.capturedCents + a + (r.amountReservedCents - min a r.amountReservedCents) ≤
        r.maxAmountCents
      omega
  · simp only [pure_eq_ok, Prod.mk.injEq] at ht
    obtain ⟨rfl, rfl, rfl⟩ := ht
    exact .flagged rfl rfl (not_clean_of_flag (by decide))

end Posting

/-! ## How the policy helpers move the control -/

section Control

variable {p p' : CardPolicy}

theorem appendLedger_control {e : LedgerEvent} {i : Nat} {t : Int}
    (h : appendLedger p e i t = .ok p') : p'.control = p.control := by
  obtain ⟨head, rfl⟩ := appendLedger_ok h
  rfl

theorem recordEventId_control {i : Hash} (h : recordEventId p i = .ok p') :
    p'.control = p.control := by
  obtain ⟨-, -, rfl⟩ := recordEventId_ok h
  rfl

theorem addExposure_control {a : Nat} (h : addExposure p a = .ok p') :
    p'.control = p.control := by
  rw [addExposure_ok h]
  rfl

theorem reduceExposure_control {a : Nat} (h : reduceExposure p a = .ok p') :
    p'.control = p.control := by
  rw [reduceExposure_ok h]
  rfl

theorem raiseException_control {kind : ExceptionKind} (h : raiseException kind p = .ok p') :
    p'.control = p.control := by
  obtain ⟨n, rfl⟩ := raiseException_policy h
  rfl

theorem editMembers_control {op : PermissionOp} {k : Pubkey} {b : UInt8}
    (h : editMembers p op = .ok (p', k, b)) : p'.control = p.control := by
  obtain ⟨_, _, _, rfl⟩ := editMembers_policy h
  rfl

theorem rotateAuthorizer_control {k : Pubkey} (h : rotateAuthorizer p k = .ok p') :
    p'.control = p.control := by
  obtain ⟨_, rfl⟩ := rotateAuthorizer_policy h
  rfl

theorem takeFromHold_control {q q' : CardPeriod} {r r' : Reservation} {a : Nat}
    (h : takeFromHold p q r a = .ok (p', q', r')) : p'.control = p.control := by
  obtain ⟨n, rfl⟩ := takeFromHold_policy h
  rfl

theorem applyRepayment_control {n a : Nat} {d : Hash} {b : UInt8} {t : Int}
    (h : applyRepayment p n d a b t = .ok p') : p'.control = p.control := by
  simp only [applyRepayment, bind_eq_ok, exists_unit, ensure_eq_ok, sub_eq_ok] at h
  obtain ⟨-, -, -, -, _, ⟨-, rfl⟩, hp⟩ := h
  have hledger := appendLedger_control hp
  exact hledger

theorem countClose_control {b : Bool} (h : countClose p b = .ok p') :
    p'.control = { p.control with
      ephemeralCount := p.ephemeralCount - 1 + if b then 1 else 0 } := by
  rw [countClose_ok h]
  rfl

theorem bookAuthorization_control {args : AuthorizeArgs} {r r' : Reservation} {q q' : CardPeriod}
    (h : bookAuthorization args r q p = .ok (r', q', p')) : p'.control = p.control := by
  obtain ⟨n, rfl⟩ := bookAuthorization_policy h
  rfl

end Control

/-! ## Turns -/

def State.control (s : State) : Control := s.policy.control

/-- The instruction enlarges an open hold. -/
def Instr.raises (s : State) : Instr → Bool
  | .adjustReservation _ h n => (s.reservations.lookup h).any fun r => r.amountReservedCents < n
  | _ => false

/-- The instruction leaves control, intents, guard and reservations alone. -/
def Instr.isQuiet : Instr → Bool
  | .delegateCard .. | .initPermission .. | .updatePermission .. | .syncPermission ..
  | .resolveException .. | .checkpoint .. | .writeCommitment .. | .closeCard ..
  | .recordRepayment .. | .repayStatement .. | .recordPrivateRepayment .. => true
  | _ => false

/-- The instruction posts to reservations that stay. -/
def Instr.isPosting : Instr → Bool
  | .adjustReservation .. | .capture .. | .reverse .. | .refund .. | .recordDispute ..
  | .recordException .. | .rollPeriod .. => true
  | _ => false

/-- Intents, guard and reservations are what they were. -/
structure SameAccounts (s s' : State) : Prop where
  intents : s'.intents = s.intents
  guard : s'.guard = s.guard
  reservations : s'.reservations = s.reservations

/-- The Reservation an approved authorization leaves. -/
structure Booked (args : AuthorizeArgs) (intent : CheckoutIntent) (r : Reservation) : Prop where
  id : r.authIdHash = args.authIdHash
  limit : r.maxAmountCents = intent.maxAmountCents
  clean : r.clean
  within : r.within

/-- What the instructions on the policy alone do to its control. -/
inductive GateTurn (ctx : Ctx) (p : CardPolicy) (c' : Control) : Instr → Prop where
  | quiet {instr : Instr} (hq : instr.isQuiet = true) (hc : c' = p.control) :
      GateTurn ctx p c' instr
  | setPolicy {o : Pubkey} {args : PolicyArgs} {first : Option Pubkey}
      (hnormal : p.recoveryState = .normal)
      (hc : c' = { p.control with policyVersion := p.policyVersion + 1 }) :
      GateTurn ctx p c' (.setPolicy o args first)
  | freeze {k : Pubkey} {b : UInt8} (hc : c' = { p.control with frozen := true }) :
      GateTurn ctx p c' (.freeze k b)
  | unfreeze {o : Pubkey} (howner : p.owner = o) (hsig : o ∈ ctx.signers)
      (hnormal : p.recoveryState = .normal) (hexc : p.exceptionsOpen = 0)
      (hc : c' = { p.control with frozen := false }) : GateTurn ctx p c' (.unfreeze o)
  | recoveryFreeze {k : Pubkey} {b : UInt8}
      (hc : c' = { p.control with frozen := true, recoveryState := .frozen }) :
      GateTurn ctx p c' (.recoveryFreeze k b)
  | restore {o a : Pubkey} {args : RestoreArgs} (howner : p.owner = o) (hsigo : o ∈ ctx.signers)
      (hmembers : 2 ≤ p.memberCount) (hsecond : p.members[1] = a) (hsiga : a ∈ ctx.signers)
      (hfrozen : p.recoveryState = .frozen)
      (hc : c' = { p.control with
        policyVersion := p.policyVersion + 1
        reconDigest := args.reconDigest
        recoveryState := .restoredPending
        frozen := true }) : GateTurn ctx p c' (.restore o a args)
  | confirm {o : Pubkey} {d : Hash} (howner : p.owner = o) (hsig : o ∈ ctx.signers)
      (hpending : p.recoveryState = .restoredPending) (hdigest : p.reconDigest = d)
      (hc : c' = { p.control with recoveryState := .normal }) :
      GateTurn ctx p c' (.confirmReconciled o d)

/-- What one successful instruction can do to the control of the card. -/
inductive Turn (ctx : Ctx) (s s' : State) : Instr → Prop where
  | gate {instr : Instr} (hgate : GateTurn ctx s.policy s'.control instr)
      (ha : SameAccounts s s') : Turn ctx s s' instr
  | post {instr : Instr} (hq : instr.isPosting = true) (hc : s'.control = s.control)
      (hi : s'.intents = s.intents) (hg : s'.guard = s.guard)
      (hres : AllCarried instr s.reservations s'.reservations)
      (hup : instr.raises s = true → s.control.spendable) : Turn ctx s s' instr
  | openIntent {k : Pubkey} {args : IntentArgs} {x : CheckoutIntent}
      (hspend : s.control.spendable) (hnew : s.intents.lookup args.intentId = none)
      (hx : x = ⟨args.intentId, args.agent, args.merchantIdHash, args.mcc, args.maxAmountCents,
        args.currency, s.policy.policyVersion, args.expiresAt, .open, none⟩)
      (hi : s'.intents = s.intents.insert args.intentId x)
      (hc : s'.control = { s.control with ephemeralCount := s.policy.ephemeralCount + 1 })
      (hg : s'.guard = s.guard) (hr : s'.reservations = s.reservations) :
      Turn ctx s s' (.openCheckoutIntent k args)
  | cancelIntent {k : Pubkey} {i : IntentId} {x : CheckoutIntent}
      (hx : s.intents.lookup i = some x)
      (hi : s'.intents = s.intents.insert i { x with state := .cancelled })
      (hc : s'.control = s.control) (hg : s'.guard = s.guard)
      (hr : s'.reservations = s.reservations) : Turn ctx s s' (.cancelCheckoutIntent k i)
  | closeIntent {k : Pubkey} {i : IntentId} {x : CheckoutIntent}
      (hx : s.intents.lookup i = some x) (hi : s'.intents = s.intents.erase i)
      (hc : s'.control = { s.control with ephemeralCount := s.policy.ephemeralCount - 1 })
      (hg : s'.guard = s.guard) (hr : s'.reservations = s.reservations) :
      Turn ctx s s' (.closeCheckoutIntent k i)
  | authorize {k : Pubkey} {args : AuthorizeArgs} {x : CheckoutIntent} {r : Reservation}
      (hspend : s.control.spendable) (hnew : s.reservations.lookup args.authIdHash = none)
      (hne : args.authIdHash ≠ 0) (hx : s.intents.lookup args.intentId = some x)
      (hopen : x.state = .open) (hid : x.intentId = args.intentId)
      (htime : ctx.now ≤ x.expiresAt) (hversion : x.policyVersion = s.policy.policyVersion)
      (hmerchant : args.merchantIdHash = x.merchantIdHash) (hcurrency : args.currency = x.currency)
      (hbooked : Booked args x r)
      (hr : s'.reservations = s.reservations.insert args.authIdHash r)
      (hi : s'.intents = s.intents.insert args.intentId
        { x with state := .consumed, reservation := some args.authIdHash })
      (hc : s'.control = { s.control with ephemeralCount := s.policy.ephemeralCount + 1 })
      (hg : s'.guard = s.guard) : Turn ctx s s' (.authorize k args)
  | close {k : Pubkey} {h head : Hash} {r : Reservation} {g : AuthGuard}
      (hlook : s.reservations.lookup h = some r)
      (hold : s.guard = some g ∨ s.guard = none ∧ g = emptyGuard)
      (hg : s'.guard = some (g.push r.authIdHash head (g.closedCount + 1)))
      (hr : s'.reservations = s.reservations.erase h)
      (hc : s'.control = { s.control with
        ephemeralCount := s.policy.ephemeralCount - 1 + if s.guard.isNone then 1 else 0 })
      (hi : s'.intents = s.intents) : Turn ctx s s' (.closeReservation k h)
  | wipe {o : Pubkey} {rest : List AccountRef} {s₁ : State} {n : Nat}
      (hclose : closePairs ctx rest s 0 = .ok (s₁, n)) (hall : s.policy.ephemeralCount ≤ n)
      (hc : s'.control = (zeroedPolicy s.policy.binding s.policy.owner).control)
      (ha : SameAccounts s₁ s') : Turn ctx s s' (.wipeCard o rest)

section Instructions

variable {ctx : Ctx} {k : Pubkey} {s s' : State} {h : Hash}

theorem setPolicy_turn {args : PolicyArgs} {first : Option Pubkey}
    (ha : setPolicy ctx k args first s = .ok s') : Turn ctx s s' (.setPolicy k args first) := by
  simp only [setPolicy, bind_eq_ok, exists_unit, ensure_eq_ok, increment_eq_ok, pure_eq_ok] at ha
  obtain ⟨-, -, hnormal, -, -, -, p, hp, v, ⟨-, rfl⟩, q, -, -, p', hp', rfl⟩ := ha
  refine .gate (.setPolicy hnormal ?_) ⟨rfl, rfl, rfl⟩
  have hrotate := rotateAuthorizer_control hp
  have hversion : p.policyVersion = s.policy.policyVersion := congrArg Control.policyVersion hrotate
  change p'.control = _
  rw [appendLedger_control hp', ← hversion, ← hrotate]
  rfl

theorem restore_turn {a : Pubkey} {args : RestoreArgs} (hr : restore ctx k a args s = .ok s') :
    Turn ctx s s' (.restore k a args) := by
  simp only [restore, bind_eq_ok, exists_unit, requireSigner_eq_ok, requireOwner_eq_ok,
    ensure_eq_ok, increment_eq_ok, later_eq_ok, pure_eq_ok] at hr
  obtain ⟨hsigo, hsiga, -, howner, ⟨hcount, hsecond⟩, hfrozen, -, -, -, -, v, ⟨-, rfl⟩, stop, -,
    p, hp, rfl⟩ := hr
  refine .gate (.restore howner hsigo hcount hsecond hsiga hfrozen ?_) ⟨rfl, rfl, rfl⟩
  have hledger := appendLedger_control hp
  exact hledger

theorem openCheckoutIntent_turn {args : IntentArgs}
    (ho : openCheckoutIntent ctx k args s = .ok s') :
    Turn ctx s s' (.openCheckoutIntent k args) := by
  simp only [openCheckoutIntent, validateOpenIntent, requireSpendable, bind_eq_ok, exists_unit,
    ensure_eq_ok, pure_eq_ok] at ho
  obtain ⟨-, -, ⟨⟨-, hfrozen, hnormal, -⟩, -⟩, hnew, -, -, p, hp, rfl⟩ := ho
  refine .openIntent ⟨hfrozen, hnormal⟩ hnew rfl rfl ?_ rfl rfl
  change p.control = _
  rw [ephemeralCreated_ok hp]
  rfl

theorem bookAuthorization_booked {args : AuthorizeArgs} {intent : CheckoutIntent} {n : Nat}
    {now expires : Int} {r : Reservation} {q q' : CardPeriod} {p p' : CardPolicy}
    (hle : args.amountCents ≤ intent.maxAmountCents)
    (hb : bookAuthorization args (newReservation args intent n now expires) q p =
      .ok (r, q', p')) : Booked args intent r := by
  have hflags : ∀ single recurring : Bool,
      ((if single then FLAG_SINGLE_MESSAGE else 0) ||| (if recurring then FLAG_RECURRING else 0)) &&&
        (FLAG_OVER_CAPTURE ||| FLAG_LATE_CAPTURE) = 0 := by decide
  have hclean : (newReservation args intent n now expires).clean := hflags _ _
  unfold bookAuthorization at hb
  split at hb
  · simp only [bind_eq_ok, add_eq_ok, pure_eq_ok, Prod.mk.injEq] at hb
    obtain ⟨_, ⟨-, rfl⟩, p₁, hp₁, rfl, rfl, rfl⟩ := hb
    exact ⟨rfl, rfl, hclean, hle⟩
  · simp only [bind_eq_ok, add_eq_ok, pure_eq_ok, Prod.mk.injEq] at hb
    obtain ⟨_, ⟨-, rfl⟩, rfl, rfl, rfl⟩ := hb
    refine ⟨rfl, rfl, hclean, ?_⟩
    change 0 + args.amountCents ≤ intent.maxAmountCents
    omega

theorem authorize_turn {args : AuthorizeArgs} (ha : authorize ctx k args s = .ok s') :
    Turn ctx s s' (.authorize k args) := by
  simp only [authorize, validateAuthorize, requireSpendable, bind_eq_ok, exists_unit,
    ensure_eq_ok, okOr_eq_ok, increment_eq_ok, pure_eq_ok] at ha
  obtain ⟨-, -, hnew, -, hne, x, hx, ⟨⟨-, hfrozen, hnormal, -⟩, ⟨hopen, hid⟩, htime, hversion,
    hmerchant, -, -, ⟨hcurrency, -⟩, -, hle, -⟩, -, -, expires, -, p, hp, _, ⟨-, rfl⟩,
    ⟨r, q, p₂⟩, hbook, p₃, hp₃, rfl⟩ := ha
  refine .authorize ⟨hfrozen, hnormal⟩ hnew hne hx hopen hid htime hversion hmerchant hcurrency
    (bookAuthorization_booked hle hbook) rfl rfl ?_ rfl
  change p₃.control = _
  rw [appendLedger_control hp₃, bookAuthorization_control hbook, ephemeralCreated_ok hp]
  rfl

theorem closeReservation_turn (hc : closeReservation ctx k h s = .ok s') :
    Turn ctx s s' (.closeReservation k h) := by
  simp only [closeReservation, bind_eq_ok, exists_unit, okOr_eq_ok, ensure_eq_ok, add_eq_ok,
    pure_eq_ok] at hc
  obtain ⟨-, -, -, r, hlook, -, g, hguard, _, ⟨-, rfl⟩, -, p, hp, p₂, hp₂, rfl⟩ := hc
  refine .close hlook ?_ rfl rfl ?_ rfl
  · unfold openGuard at hguard
    split at hguard
    · rename_i g' hg'
      cases hguard
      exact .inl hg'
    · rename_i hnone
      simp only [bind_eq_ok, exists_unit, pure_eq_ok] at hguard
      obtain ⟨-, -, rfl⟩ := hguard
      exact .inr ⟨hnone, rfl⟩
  · change p₂.control = _
    rw [appendLedger_control hp₂, countClose_control hp]
    rfl

theorem adjustReservation_turn {n : Nat} (ha : adjustReservation ctx k h n s = .ok s') :
    Turn ctx s s' (.adjustReservation k h n) := by
  simp only [adjustReservation, bind_eq_ok, exists_unit, ensure_eq_ok, pure_eq_ok] at ha
  obtain ⟨r, hctx, -, -, ⟨q, r₁⟩, hres, p, hp, rfl⟩ := ha
  have hlook := (reservationContext_ok hctx).2
  obtain ⟨hkept, hup⟩ := resize_carried hres
  refine .post rfl (appendLedger_control hp) rfl rfl
    (.insert hlook (settleEmpty_carried hkept .reversed)) ?_
  intro hraise
  rw [Instr.raises, hlook, Option.any_some, decide_eq_true_eq] at hraise
  exact hup hraise

theorem capture_turn {a : Nat} {i : Hash} (hc : capture ctx k h a i s = .ok s') :
    Turn ctx s s' (.capture k h a i) := by
  simp only [capture, bind_eq_ok, exists_unit, ensure_eq_ok, add_eq_ok, pure_eq_ok] at hc
  obtain ⟨r, hctx, -, -, -, -, -, ⟨p, q, r₁⟩, htake, -, _, ⟨-, rfl⟩, _, ⟨-, rfl⟩, p₂, hp₂, p₃, hp₃,
    rfl⟩ := hc
  refine .post rfl ?_ rfl rfl (.insert (reservationContext_ok hctx).2 (takeFromHold_carried htake))
    (by rintro ⟨⟩)
  change p₃.control = s.policy.control
  rw [appendLedger_control hp₃, addExposure_control hp₂, takeFromHold_control htake]

theorem reverse_turn {a : Nat} {b : UInt8} {i : Hash} (hr : reverse ctx k h a b i s = .ok s') :
    Turn ctx s s' (.reverse k h a b i) := by
  simp only [reverse, bind_eq_ok, exists_unit, ensure_eq_ok, add_eq_ok, releaseHold_eq, ok_bind,
    pure_eq_ok] at hr
  obtain ⟨r, hctx, -, -, -, p, hp, -, _, ⟨-, rfl⟩, p₂, hp₂, rfl⟩ := hr
  refine .post rfl ?_ rfl rfl (.insert (reservationContext_ok hctx).2 (settleEmpty_carried ?_ _))
    (by rintro ⟨⟩)
  · change p₂.control = s.policy.control
    rw [appendLedger_control hp₂, recordEventId_control hp]
  · exact .shrunk rfl rfl rfl rfl (Nat.sub_le _ _)

theorem refund_turn {o : Option Hash} {a : Nat} {i : Hash} (hr : refund ctx k o a i s = .ok s') :
    Turn ctx s s' (.refund k o a i) := by
  simp only [refund, bind_eq_ok, exists_unit, ensure_eq_ok, add_eq_ok, pure_eq_ok] at hr
  obtain ⟨r, hctx, -, -, p, hp, _, ⟨-, rfl⟩, r', hpost, p₂, hp₂, p₃, hp₃, rfl⟩ := hr
  have hsome := cardContext_isSome hctx
  obtain ⟨-, rfl⟩ := cardContext_ok hctx
  refine .post rfl ?_ rfl rfl (.writeBack ?_ hsome hpost) (by rintro ⟨⟩)
  · change p₃.control = s.policy.control
    rw [appendLedger_control hp₃, reduceExposure_control hp₂, recordEventId_control hp]
  · intro h r₁ r₂ _ hf
    simp only [bind_eq_ok, exists_unit, add_eq_ok, pure_eq_ok] at hf
    obtain ⟨-, _, ⟨-, rfl⟩, rfl⟩ := hf
    exact .shrunk rfl rfl rfl rfl (Nat.le_refl _)

theorem recordDispute_turn {b : UInt8} {i : Hash} (hr : recordDispute ctx k h b i s = .ok s') :
    Turn ctx s s' (.recordDispute k h b i) := by
  simp only [recordDispute, bind_eq_ok, exists_unit, ensure_eq_ok, pure_eq_ok] at hr
  obtain ⟨r, hctx, -, -, p, hp, p₂, hp₂, rfl⟩ := hr
  refine .post rfl ?_ rfl rfl (.insert (reservationContext_ok hctx).2 ?_)
    (by rintro ⟨⟩)
  · change p₂.control = s.policy.control
    rw [appendLedger_control hp₂, recordEventId_control hp]
  · exact .shrunk rfl rfl rfl rfl (Nat.le_refl _)

/-- An exception on a Reservation keeps its name and its limit, whatever it books. -/
theorem book_carried {kind : ExceptionKind} {key : Pubkey} {code : UInt8} {i : Hash} {a : Nat}
    {p p' : CardPolicy} {q q' : CardPeriod} {o : Option Hash} {x : Option Reservation}
    {hs : Table Hash Reservation} (hsome : ∀ k, o = some k → (hs.lookup k).isSome)
    (hb : kind.book a p q (o.bind fun k => hs.lookup k) = .ok (p', q', x)) :
    p'.control = p.control ∧
      AllCarried (.recordException key o code a i) hs (writeBack hs o x) := by
  -- the instruction names `h`, so its own amounts promise nothing
  have hnamed : ∀ h r r', o = some h → r'.authIdHash = r.authIdHash →
      r'.maxAmountCents = r.maxAmountCents → (r'.clean → r.clean) →
      Carried (.recordException key o code a i) h r r' := by
    intro h r r' ho hid hmax hclean
    refine ⟨hid, hmax, hclean, fun _ he => ?_⟩
    rw [ho, Instr.excepts, decide_eq_false_iff_not] at he
    exact absurd rfl he
  have hdebit : ∀ kind, bookDebit kind a p q (o.bind fun k => hs.lookup k) = .ok (p', q', x) →
      p'.control = p.control ∧
        AllCarried (.recordException key o code a i) hs (writeBack hs o x) := by
    intro kind hb
    simp only [bookDebit, bind_eq_ok, exists_unit, add_eq_ok, pure_eq_ok, Prod.mk.injEq] at hb
    obtain ⟨-, _, ⟨-, rfl⟩, _, ⟨-, rfl⟩, r₁, hpost, p₁, hp₁, rfl, rfl, rfl⟩ := hb
    refine ⟨addExposure_control hp₁, .writeBack ?_ hsome hpost⟩
    intro h r₂ r₃ ho hf
    simp only [bind_eq_ok, add_eq_ok, pure_eq_ok] at hf
    obtain ⟨_, ⟨-, rfl⟩, rfl⟩ := hf
    refine hnamed h _ _ ho rfl rfl fun hc => ?_
    by_cases hkind : kind = .overCapture
    · simp only [Reservation.clean, if_pos hkind] at hc
      exact absurd hc (not_clean_of_flag (by decide))
    · simp only [Reservation.clean, if_neg hkind] at hc
      exact hc
  cases kind with
  | lateCapture =>
    simp only [ExceptionKind.book, bookLate, bind_eq_ok, exists_unit, ensure_eq_ok, add_eq_ok,
      pure_eq_ok, Prod.mk.injEq] at hb
    obtain ⟨-, -, _, ⟨-, rfl⟩, p₁, hp₁, rfl, rfl, rfl⟩ := hb
    refine ⟨addExposure_control hp₁, ?_⟩
    cases o with
    | none => exact .refl _ hs
    | some k => exact .refl _ hs
  | overHold =>
    simp only [ExceptionKind.book, bookOverHold, bind_eq_ok, exists_unit, okOr_eq_ok,
      ensure_eq_ok, add_eq_ok, pure_eq_ok, Prod.mk.injEq, Option.bind_eq_some_iff] at hb
    obtain ⟨r, ⟨h, rfl, hlook⟩, -, _, ⟨-, rfl⟩, _, ⟨-, rfl⟩, _, ⟨-, rfl⟩, rfl, rfl, rfl⟩ := hb
    exact ⟨rfl, .insert hlook (hnamed h _ _ rfl rfl rfl fun hc => hc)⟩
  | correctionCredit =>
    simp only [ExceptionKind.book, bookCredit, bind_eq_ok, add_eq_ok, pure_eq_ok,
      Prod.mk.injEq] at hb
    obtain ⟨_, ⟨-, rfl⟩, r₁, hpost, p₁, hp₁, rfl, rfl, rfl⟩ := hb
    refine ⟨reduceExposure_control hp₁, .writeBack ?_ hsome hpost⟩
    intro h r₂ r₃ ho hf
    simp only [bind_eq_ok, add_eq_ok, pure_eq_ok] at hf
    obtain ⟨_, ⟨-, rfl⟩, rfl⟩ := hf
    exact hnamed h _ _ ho rfl rfl fun hc => hc
  | forcedCapture => exact hdebit _ hb
  | overCapture => exact hdebit _ hb
  | correctionDebit => exact hdebit _ hb
  | returnReversal => exact hdebit _ hb
  | unpairedCapture => exact hdebit _ hb

theorem recordException_turn {o : Option Hash} {code : UInt8} {a : Nat} {i : Hash}
    (hr : recordException ctx k o code a i s = .ok s') :
    Turn ctx s s' (.recordException k o code a i) := by
  simp only [recordException, bind_eq_ok, exists_unit, okOr_eq_ok, ensure_eq_ok,
    pure_eq_ok] at hr
  obtain ⟨r, hctx, -, kind, -, -, p, hp, ⟨p₁, q, r'⟩, hbook, p₂, hp₂, p₃, hp₃, rfl⟩ := hr
  have hsome := cardContext_isSome hctx
  obtain ⟨-, rfl⟩ := cardContext_ok hctx
  obtain ⟨hcontrol, hkept⟩ := book_carried (i := i) hsome hbook
  refine .post rfl ?_ rfl rfl hkept (by rintro ⟨⟩)
  change p₃.control = s.policy.control
  rw [appendLedger_control hp₃, raiseException_control hp₂, hcontrol, recordEventId_control hp]

theorem expireAll_carried {instr : Instr} {accounts : List (AccountRef × Bool)}
    (he : expireAll ctx accounts s = .ok s') :
    s'.control = s.control ∧ s'.intents = s.intents ∧ s'.guard = s.guard ∧
      AllCarried instr s.reservations s'.reservations := by
  induction accounts generalizing s with
  | nil =>
    cases he
    exact ⟨rfl, rfl, rfl, .refl instr _⟩
  | cons a rest ih =>
    obtain ⟨account, w⟩ := a
    simp only [expireAll, expireOne, bind_eq_ok, exists_unit, ensure_eq_ok] at he
    obtain ⟨s₁, ⟨-, h₁⟩, he⟩ := he
    obtain ⟨hc, hi, hg, hres⟩ := ih he
    split at h₁
    · simp only [bind_eq_ok, okOr_eq_ok] at h₁
      obtain ⟨r, hlook, h₁⟩ := h₁
      split at h₁
      · simp only [bind_eq_ok, pure_eq_ok] at h₁
        obtain ⟨p, hp, rfl⟩ := h₁
        refine ⟨hc.trans (appendLedger_control hp), hi, hg, .trans (.insert hlook ?_) hres⟩
        exact .shrunk rfl rfl rfl rfl (Nat.zero_le _)
      · simp only [pure_eq_ok] at h₁
        subst h₁
        exact ⟨hc, hi, hg, hres⟩
    · cases h₁

theorem rollPeriod_turn {accounts : List (AccountRef × Bool)}
    (hr : rollPeriod ctx k accounts s = .ok s') : Turn ctx s s' (.rollPeriod k accounts) := by
  simp only [rollPeriod, bind_eq_ok, exists_unit, ensure_eq_ok, increment_eq_ok, later_eq_ok,
    pure_eq_ok] at hr
  obtain ⟨-, -, -, s₁, hloop, _, ⟨-, rfl⟩, stop, -, p, hp, rfl⟩ := hr
  obtain ⟨hc, hi, hg, hres⟩ := expireAll_carried hloop
  exact .post rfl ((appendLedger_control hp).trans hc) hi hg hres (by rintro ⟨⟩)

theorem wipeCard_turn {accounts : List AccountRef} (hw : wipeCard ctx k accounts s = .ok s') :
    Turn ctx s s' (.wipeCard k accounts) := by
  simp only [wipeCard, bind_eq_ok, exists_unit, ensure_eq_ok, pure_eq_ok] at hw
  obtain ⟨-, -, -, -, -, ⟨s₁, n⟩, hclose, hall, -, rfl⟩ := hw
  have hpolicy := (closePairs_ok hclose).1
  refine .wipe hclose ?_ ?_ ⟨rfl, rfl, rfl⟩
  · rw [← hpolicy]
    exact hall
  · change (zeroedPolicy s₁.policy.binding s₁.policy.owner).control = _
    rw [hpolicy]

variable [Runtime]

/-- **Control of a card.** Every successful call is a turn. -/
theorem exec_turn {call : Call} (ha : exec s call = .ok s') : Turn call.ctx s s' call.instr := by
  obtain ⟨ctx, instr⟩ := call
  cases instr with
  | initCard o => cases ha
  | delegateCard o v =>
    simp only [exec, delegateCard, bind_eq_ok, exists_unit, ensure_eq_ok] at ha
    obtain ⟨-, -, -, -, ha⟩ := ha
    split at ha
    · simp only [pure_eq_ok] at ha
      subst ha
      exact .gate (.quiet rfl rfl) ⟨rfl, rfl, rfl⟩
    · simp only [bind_eq_ok, exists_unit, pure_eq_ok] at ha
      obtain ⟨-, rfl⟩ := ha
      exact .gate (.quiet rfl rfl) ⟨rfl, rfl, rfl⟩
  | initPermission o a =>
    simp only [exec, initPermission, bind_eq_ok, exists_unit, ensure_eq_ok] at ha
    obtain ⟨-, -, ha⟩ := ha
    split at ha
    · simp only [bind_eq_ok, exists_unit, pure_eq_ok] at ha
      obtain ⟨-, p, hp, rfl⟩ := ha
      have hledger := appendLedger_control hp
      exact .gate (.quiet rfl hledger) ⟨rfl, rfl, rfl⟩
    · simp only [bind_eq_ok, exists_unit, ensure_eq_ok, pure_eq_ok] at ha
      obtain ⟨-, -, rfl⟩ := ha
      exact .gate (.quiet rfl rfl) ⟨rfl, rfl, rfl⟩
  | updatePermission o op rest =>
    simp only [exec, updatePermission, bind_eq_ok, exists_unit, ensure_eq_ok, pure_eq_ok] at ha
    obtain ⟨-, -, ⟨p, key, b⟩, hedit, -, -, -, p', hp', rfl⟩ := ha
    have hledger := (appendLedger_control hp').trans (editMembers_control hedit)
    exact .gate (.quiet rfl hledger) ⟨rfl, rfl, rfl⟩
  | syncPermission key t p =>
    simp only [exec, syncPermission, bind_eq_ok, exists_unit, ensure_eq_ok, pure_eq_ok] at ha
    obtain ⟨-, -, -, -, -, rfl⟩ := ha
    exact .gate (.quiet rfl rfl) ⟨rfl, rfl, rfl⟩
  | setPolicy o args first => exact setPolicy_turn ha
  | openCheckoutIntent key args => exact openCheckoutIntent_turn ha
  | cancelCheckoutIntent key i =>
    simp only [exec, cancelCheckoutIntent, bind_eq_ok, exists_unit, okOr_eq_ok, pure_eq_ok] at ha
    obtain ⟨-, x, hx, -, -, -, rfl⟩ := ha
    exact .cancelIntent hx rfl rfl rfl rfl
  | closeCheckoutIntent key i =>
    simp only [exec, closeCheckoutIntent, bind_eq_ok, exists_unit, okOr_eq_ok, pure_eq_ok] at ha
    obtain ⟨-, -, -, x, hx, -, -, rfl⟩ := ha
    exact .closeIntent hx rfl rfl rfl rfl
  | authorize key args => exact authorize_turn ha
  | adjustReservation key r n => exact adjustReservation_turn ha
  | capture key r a i => exact capture_turn ha
  | reverse key r a b i => exact reverse_turn ha
  | refund key o a i => exact refund_turn ha
  | recordDispute key r b i => exact recordDispute_turn ha
  | recordException key o code a i => exact recordException_turn ha
  | resolveException o i b =>
    simp only [exec, resolveException, bind_eq_ok, exists_unit, ensure_eq_ok, pure_eq_ok] at ha
    obtain ⟨-, -, p, hp, -, p₂, hp₂, rfl⟩ := ha
    have hledger := appendLedger_control hp₂
    have hevent := recordEventId_control hp
    exact .gate (.quiet rfl (hledger.trans hevent)) ⟨rfl, rfl, rfl⟩
  | rollPeriod key rest => exact rollPeriod_turn ha
  | freeze key b =>
    simp only [exec, freeze, bind_eq_ok, exists_unit, pure_eq_ok] at ha
    obtain ⟨-, -, -, -, p, hp, rfl⟩ := ha
    refine .gate (.freeze ((appendLedger_control hp).trans ?_)) ⟨rfl, rfl, rfl⟩
    split
    · rename_i hfrozen
      unfold CardPolicy.control
      rw [hfrozen]
    · rfl
  | unfreeze o =>
    simp only [exec, unfreeze, bind_eq_ok, exists_unit, ownerContext_eq_ok, ensure_eq_ok,
      pure_eq_ok] at ha
    obtain ⟨⟨hsig, -, howner⟩, hnormal, hexc, p, hp, rfl⟩ := ha
    have hledger := appendLedger_control hp
    exact .gate (.unfreeze howner hsig hnormal hexc hledger) ⟨rfl, rfl, rfl⟩
  | recoveryFreeze key b =>
    simp only [exec, recoveryFreeze, bind_eq_ok, exists_unit, pure_eq_ok] at ha
    obtain ⟨-, -, -, p, hp, rfl⟩ := ha
    have hledger := appendLedger_control hp
    exact .gate (.recoveryFreeze hledger) ⟨rfl, rfl, rfl⟩
  | restore o a args => exact restore_turn ha
  | confirmReconciled o d =>
    simp only [exec, confirmReconciled, bind_eq_ok, exists_unit, ownerContext_eq_ok, ensure_eq_ok,
      pure_eq_ok] at ha
    obtain ⟨⟨hsig, -, howner⟩, hpending, hdigest, p, hp, rfl⟩ := ha
    have hledger := appendLedger_control hp
    exact .gate (.confirm howner hsig hpending hdigest hledger) ⟨rfl, rfl, rfl⟩
  | checkpoint key m n =>
    simp only [exec, checkpoint, bind_eq_ok, exists_unit, pure_eq_ok] at ha
    obtain ⟨-, -, _, -, -, -, -, rfl⟩ := ha
    exact .gate (.quiet rfl rfl) ⟨rfl, rfl, rfl⟩
  | writeCommitment a =>
    simp only [exec, writeCommitment, bind_eq_ok, exists_unit, pure_eq_ok] at ha
    obtain ⟨-, -, rfl⟩ := ha
    exact .gate (.quiet rfl rfl) ⟨rfl, rfl, rfl⟩
  | wipeCard o rest => exact wipeCard_turn ha
  | closeCard o =>
    simp only [exec, closeCard, bind_eq_ok, exists_unit, pure_eq_ok] at ha
    obtain ⟨-, -, -, -, -, rfl⟩ := ha
    exact .gate (.quiet rfl rfl) ⟨rfl, rfl, rfl⟩
  | closeReservation key r => exact closeReservation_turn ha
  | recordRepayment key d a r t m =>
    simp only [exec, recordRepayment, bind_eq_ok, exists_unit, pure_eq_ok] at ha
    obtain ⟨-, -, _, -, -, p, hp, rfl⟩ := ha
    exact .gate (.quiet rfl (applyRepayment_control hp)) ⟨rfl, rfl, rfl⟩
  | repayStatement o m r d a =>
    simp only [exec, repayStatement, bind_eq_ok, exists_unit, pure_eq_ok] at ha
    obtain ⟨-, -, -, -, -, -, -, -, rfl⟩ := ha
    exact .gate (.quiet rfl rfl) ⟨rfl, rfl, rfl⟩
  | recordPrivateRepayment key d a =>
    simp only [exec, recordPrivateRepayment, bind_eq_ok, exists_unit, pure_eq_ok] at ha
    obtain ⟨-, -, p, hp, rfl⟩ := ha
    exact .gate (.quiet rfl (applyRepayment_control hp)) ⟨rfl, rfl, rfl⟩

/-- The run has no successful `wipe_card`. -/
def NoWipe (s : State) (calls : List Call) : Prop :=
  Runs.Along exec (fun _ call _ => call.instr.wipes = false) s calls

instance (s : State) (calls : List Call) : Decidable (NoWipe s calls) :=
  inferInstanceAs (Decidable (Runs.Along ..))

end Instructions

end ChainPay.Card
