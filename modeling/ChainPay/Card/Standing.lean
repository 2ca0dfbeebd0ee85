import ChainPay.Card.Turn

/-!
The standing of a card: its owner, its authorizer, its members and the number of its last
checkpoint. Money, holds and freezes never touch it. `exec_standing` says what each
instruction does to it, and to the commitments that were scheduled and written.
-/

namespace ChainPay.Card
open ChainPay.Lib

structure Standing where
  binding : Pubkey
  owner : Pubkey
  authorizer : Pubkey
  memberCount : Nat
  members : Vector Pubkey MAX_MEMBERS
  memberFlags : Vector UInt8 MAX_MEMBERS
  commitSeq : Nat
  deriving DecidableEq

def CardPolicy.standing (p : CardPolicy) : Standing where
  binding := p.binding
  owner := p.owner
  authorizer := p.authorizer
  memberCount := p.memberCount
  members := p.members
  memberFlags := p.memberFlags
  commitSeq := p.commitSeq

/-! ## The policy helpers -/

section Helpers

variable {p p' : CardPolicy}

theorem appendLedger_standing {e : LedgerEvent} {i : Nat} {t : Int}
    (h : appendLedger p e i t = .ok p') : p'.standing = p.standing := by
  obtain ⟨head, rfl⟩ := appendLedger_ok h
  rfl

theorem recordEventId_standing {i : Hash} (h : recordEventId p i = .ok p') :
    p'.standing = p.standing := by
  obtain ⟨-, -, rfl⟩ := recordEventId_ok h
  rfl

theorem addExposure_standing {a : Nat} (h : addExposure p a = .ok p') :
    p'.standing = p.standing := by
  rw [addExposure_ok h]
  rfl

theorem reduceExposure_standing {a : Nat} (h : reduceExposure p a = .ok p') :
    p'.standing = p.standing := by
  rw [reduceExposure_ok h]
  rfl

theorem ephemeralCreated_standing (h : ephemeralCreated p = .ok p') :
    p'.standing = p.standing := by
  rw [ephemeralCreated_ok h]
  rfl

theorem countClose_standing {b : Bool} (h : countClose p b = .ok p') :
    p'.standing = p.standing := by
  rw [countClose_ok h]
  rfl

theorem raiseException_standing {kind : ExceptionKind} (h : raiseException kind p = .ok p') :
    p'.standing = p.standing := by
  obtain ⟨n, rfl⟩ := raiseException_policy h
  rfl

theorem book_standing {kind : ExceptionKind} {a : Nat} {q q' : CardPeriod}
    {r r' : Option Reservation} (h : kind.book a p q r = .ok (p', q', r')) :
    p'.standing = p.standing := by
  obtain ⟨n, rfl⟩ := book_policy h
  rfl

theorem takeFromHold_standing {q q' : CardPeriod} {r r' : Reservation} {a : Nat}
    (h : takeFromHold p q r a = .ok (p', q', r')) : p'.standing = p.standing := by
  obtain ⟨n, rfl⟩ := takeFromHold_policy h
  rfl

theorem bookAuthorization_standing {args : AuthorizeArgs} {r r' : Reservation}
    {q q' : CardPeriod} (h : bookAuthorization args r q p = .ok (r', q', p')) :
    p'.standing = p.standing := by
  obtain ⟨n, rfl⟩ := bookAuthorization_policy h
  rfl

theorem applyRepayment_standing {n a : Nat} {d : Hash} {b : UInt8} {t : Int}
    (h : applyRepayment p n d a b t = .ok p') : p'.standing = p.standing := by
  simp only [applyRepayment, bind_eq_ok, exists_unit, ensure_eq_ok, sub_eq_ok] at h
  obtain ⟨-, -, -, -, _, ⟨-, rfl⟩, hp⟩ := h
  have hledger := appendLedger_standing hp
  exact hledger

end Helpers

/-! ## Instructions -/

/-- The instruction writes the standing or a commitment. -/
def Instr.isClerical : Instr → Bool
  | .initPermission .. | .updatePermission .. | .setPolicy .. | .restore .. | .checkpoint ..
  | .writeCommitment .. | .wipeCard .. => true
  | _ => false

/-- Standing, owner and commitments are what they were. -/
structure SameStanding (s s' : State) : Prop where
  standing : s'.policy.standing = s.policy.standing
  owner : s'.binding.owner = s.binding.owner
  commitment : s'.commitment = s.commitment
  scheduled : s'.scheduled = s.scheduled

section Instructions

variable {ctx : Ctx} {k : Pubkey} {s s' : State} {h : Hash}

theorem SameStanding.refl (s : State) : SameStanding s s := ⟨rfl, rfl, rfl, rfl⟩

theorem SameStanding.trans {s₁ s₂ s₃ : State} (h₁ : SameStanding s₁ s₂)
    (h₂ : SameStanding s₂ s₃) : SameStanding s₁ s₃ :=
  ⟨h₂.1.trans h₁.1, h₂.2.trans h₁.2, h₂.3.trans h₁.3, h₂.4.trans h₁.4⟩

theorem authorize_standing {args : AuthorizeArgs} (ha : authorize ctx k args s = .ok s') :
    SameStanding s s' := by
  simp only [authorize, bind_eq_ok, exists_unit, pure_eq_ok] at ha
  obtain ⟨-, -, -, -, -, intent, -, -, -, -, expires, -, p, hp, n, -, ⟨r, q, p₂⟩, hbook, p₃, hp₃,
    rfl⟩ := ha
  refine ⟨?_, rfl, rfl, rfl⟩
  exact (appendLedger_standing hp₃).trans
    ((bookAuthorization_standing hbook).trans (ephemeralCreated_standing hp))

theorem adjustReservation_standing {n : Nat} (ha : adjustReservation ctx k h n s = .ok s') :
    SameStanding s s' := by
  simp only [adjustReservation, bind_eq_ok, exists_unit, pure_eq_ok] at ha
  obtain ⟨r, -, -, -, ⟨q, r₁⟩, -, p, hp, rfl⟩ := ha
  exact ⟨appendLedger_standing hp, rfl, rfl, rfl⟩

theorem capture_standing {a : Nat} {i : Hash} (ha : capture ctx k h a i s = .ok s') :
    SameStanding s s' := by
  simp only [capture, bind_eq_ok, exists_unit, pure_eq_ok] at ha
  obtain ⟨r, -, -, -, -, -, -, ⟨p, q, r₁⟩, htake, -, _, -, _, -, p₂, hp₂, p₃, hp₃, rfl⟩ := ha
  refine ⟨?_, rfl, rfl, rfl⟩
  exact (appendLedger_standing hp₃).trans
    ((addExposure_standing hp₂).trans (takeFromHold_standing htake))

theorem reverse_standing {a : Nat} {b : UInt8} {i : Hash}
    (ha : reverse ctx k h a b i s = .ok s') : SameStanding s s' := by
  simp only [reverse, bind_eq_ok, exists_unit, releaseHold_eq, ok_bind, pure_eq_ok] at ha
  obtain ⟨r, -, -, -, -, p, hp, -, _, -, p₂, hp₂, rfl⟩ := ha
  exact ⟨(appendLedger_standing hp₂).trans (recordEventId_standing hp), rfl, rfl, rfl⟩

theorem refund_standing {o : Option Hash} {a : Nat} {i : Hash}
    (ha : refund ctx k o a i s = .ok s') : SameStanding s s' := by
  simp only [refund, bind_eq_ok, exists_unit, pure_eq_ok] at ha
  obtain ⟨r, -, -, -, p, hp, _, -, r₁, -, p₂, hp₂, p₃, hp₃, rfl⟩ := ha
  refine ⟨?_, rfl, rfl, rfl⟩
  exact (appendLedger_standing hp₃).trans
    ((reduceExposure_standing hp₂).trans (recordEventId_standing hp))

theorem recordDispute_standing {b : UInt8} {i : Hash}
    (ha : recordDispute ctx k h b i s = .ok s') : SameStanding s s' := by
  simp only [recordDispute, bind_eq_ok, exists_unit, pure_eq_ok] at ha
  obtain ⟨r, -, -, -, p, hp, p₂, hp₂, rfl⟩ := ha
  exact ⟨(appendLedger_standing hp₂).trans (recordEventId_standing hp), rfl, rfl, rfl⟩

theorem recordException_standing {o : Option Hash} {code : UInt8} {a : Nat} {i : Hash}
    (ha : recordException ctx k o code a i s = .ok s') : SameStanding s s' := by
  simp only [recordException, bind_eq_ok, exists_unit, pure_eq_ok] at ha
  obtain ⟨r, -, -, kind, -, -, p, hp, ⟨p₁, q, r₁⟩, hbook, p₂, hp₂, p₃, hp₃, rfl⟩ := ha
  refine ⟨?_, rfl, rfl, rfl⟩
  exact (appendLedger_standing hp₃).trans ((raiseException_standing hp₂).trans
    ((book_standing hbook).trans (recordEventId_standing hp)))

theorem expireOne_standing {account : AccountRef} {w : Bool}
    (ha : expireOne ctx account w s = .ok s') : SameStanding s s' := by
  simp only [expireOne, bind_eq_ok, exists_unit, ensure_eq_ok] at ha
  obtain ⟨-, ha⟩ := ha
  split at ha
  · simp only [bind_eq_ok, okOr_eq_ok] at ha
    obtain ⟨r, -, ha⟩ := ha
    split at ha
    · simp only [bind_eq_ok, pure_eq_ok] at ha
      obtain ⟨p, hp, rfl⟩ := ha
      exact ⟨appendLedger_standing hp, rfl, rfl, rfl⟩
    · simp only [pure_eq_ok] at ha
      rw [ha]
      exact .refl _
  · cases ha

theorem expireAll_standing {accounts : List (AccountRef × Bool)}
    (ha : expireAll ctx accounts s = .ok s') : SameStanding s s' := by
  induction accounts generalizing s with
  | nil =>
    cases ha
    exact .refl _
  | cons a rest ih =>
    obtain ⟨account, w⟩ := a
    simp only [expireAll, bind_eq_ok] at ha
    obtain ⟨s₁, h₁, ha⟩ := ha
    exact (expireOne_standing h₁).trans (ih ha)

theorem rollPeriod_standing {accounts : List (AccountRef × Bool)}
    (ha : rollPeriod ctx k accounts s = .ok s') : SameStanding s s' := by
  simp only [rollPeriod, bind_eq_ok, exists_unit, pure_eq_ok] at ha
  obtain ⟨-, -, -, s₁, hloop, _, -, stop, -, p, hp, rfl⟩ := ha
  exact (expireAll_standing hloop).trans ⟨appendLedger_standing hp, rfl, rfl, rfl⟩

theorem closeReservation_standing (ha : closeReservation ctx k h s = .ok s') :
    SameStanding s s' := by
  simp only [closeReservation, bind_eq_ok, exists_unit, pure_eq_ok] at ha
  obtain ⟨-, -, -, r, -, -, g, -, _, -, -, p, hp, p₂, hp₂, rfl⟩ := ha
  exact ⟨(appendLedger_standing hp₂).trans (countClose_standing hp), rfl, rfl, rfl⟩

/-- Closing ephemeral accounts leaves the other accounts alone. -/
theorem closePairs_kept {accounts : List AccountRef} {n n' : Nat}
    (ha : closePairs ctx accounts s n = .ok (s', n')) :
    s'.binding = s.binding ∧ s'.commitment = s.commitment ∧ s'.scheduled = s.scheduled := by
  induction accounts, s, n using closePairs.induct with
  | case1 target permission rest s n ih =>
    simp only [closePairs, bind_eq_ok, exists_unit] at ha
    obtain ⟨e, -, -, -, ha⟩ := ha
    have hrest := ih e ha
    cases e with
    | reservation x => exact hrest
    | intent x => exact hrest
    | authGuard => exact hrest
  | case2 accounts s n hshort =>
    rw [closePairs.eq_2 _ _ _ _ hshort] at ha
    cases ha
    exact ⟨rfl, rfl, rfl⟩

variable [Runtime]

/-- Every instruction but the clerical ones leaves the standing alone. -/
theorem exec_standing {call : Call} (ha : exec s call = .ok s')
    (hq : call.instr.isClerical = false) : SameStanding s s' := by
  obtain ⟨ctx, instr⟩ := call
  cases instr with
  | initCard o => cases ha
  | initPermission o a => cases hq
  | updatePermission o op rest => cases hq
  | setPolicy o args first => cases hq
  | restore o a args => cases hq
  | checkpoint key m n => cases hq
  | writeCommitment a => cases hq
  | wipeCard o rest => cases hq
  | delegateCard o v =>
    simp only [exec, delegateCard, bind_eq_ok, exists_unit, ensure_eq_ok] at ha
    obtain ⟨-, -, -, -, ha⟩ := ha
    split at ha
    · simp only [pure_eq_ok] at ha
      rw [ha]
      exact .refl s'
    · simp only [bind_eq_ok, exists_unit, pure_eq_ok] at ha
      obtain ⟨-, rfl⟩ := ha
      exact ⟨rfl, rfl, rfl, rfl⟩
  | syncPermission key t p =>
    simp only [exec, syncPermission, bind_eq_ok, exists_unit, ensure_eq_ok, pure_eq_ok] at ha
    obtain ⟨-, -, -, -, -, rfl⟩ := ha
    exact .refl _
  | openCheckoutIntent key args =>
    simp only [exec, openCheckoutIntent, bind_eq_ok, exists_unit, pure_eq_ok] at ha
    obtain ⟨-, -, -, -, -, -, p, hp, rfl⟩ := ha
    exact ⟨ephemeralCreated_standing hp, rfl, rfl, rfl⟩
  | cancelCheckoutIntent key i =>
    simp only [exec, cancelCheckoutIntent, bind_eq_ok, exists_unit, pure_eq_ok] at ha
    obtain ⟨-, x, -, -, -, -, rfl⟩ := ha
    exact ⟨rfl, rfl, rfl, rfl⟩
  | closeCheckoutIntent key i =>
    simp only [exec, closeCheckoutIntent, bind_eq_ok, exists_unit, pure_eq_ok] at ha
    obtain ⟨-, -, -, x, -, -, -, rfl⟩ := ha
    exact ⟨rfl, rfl, rfl, rfl⟩
  | authorize key args => exact authorize_standing ha
  | adjustReservation key r n => exact adjustReservation_standing ha
  | capture key r a i => exact capture_standing ha
  | reverse key r a b i => exact reverse_standing ha
  | refund key o a i => exact refund_standing ha
  | recordDispute key r b i => exact recordDispute_standing ha
  | recordException key o code a i => exact recordException_standing ha
  | resolveException o i b =>
    simp only [exec, resolveException, bind_eq_ok, exists_unit, ensure_eq_ok, pure_eq_ok] at ha
    obtain ⟨-, -, p, hp, -, p₂, hp₂, rfl⟩ := ha
    have hevent := recordEventId_standing hp
    have hledger := appendLedger_standing hp₂
    exact ⟨hledger.trans hevent, rfl, rfl, rfl⟩
  | rollPeriod key rest => exact rollPeriod_standing ha
  | freeze key b =>
    simp only [exec, freeze, bind_eq_ok, exists_unit, pure_eq_ok] at ha
    obtain ⟨-, -, -, -, p, hp, rfl⟩ := ha
    refine ⟨(appendLedger_standing hp).trans ?_, rfl, rfl, rfl⟩
    split
    all_goals rfl
  | unfreeze o =>
    simp only [exec, unfreeze, bind_eq_ok, exists_unit, pure_eq_ok] at ha
    obtain ⟨-, -, -, p, hp, rfl⟩ := ha
    have hledger := appendLedger_standing hp
    exact ⟨hledger, rfl, rfl, rfl⟩
  | recoveryFreeze key b =>
    simp only [exec, recoveryFreeze, bind_eq_ok, exists_unit, pure_eq_ok] at ha
    obtain ⟨-, -, -, p, hp, rfl⟩ := ha
    have hledger := appendLedger_standing hp
    exact ⟨hledger, rfl, rfl, rfl⟩
  | confirmReconciled o d =>
    simp only [exec, confirmReconciled, bind_eq_ok, exists_unit, pure_eq_ok] at ha
    obtain ⟨-, -, -, p, hp, rfl⟩ := ha
    have hledger := appendLedger_standing hp
    exact ⟨hledger, rfl, rfl, rfl⟩
  | closeCard o =>
    simp only [exec, closeCard, bind_eq_ok, exists_unit, pure_eq_ok] at ha
    obtain ⟨-, -, -, -, -, rfl⟩ := ha
    exact ⟨rfl, rfl, rfl, rfl⟩
  | closeReservation key r => exact closeReservation_standing ha
  | recordRepayment key d a r t m =>
    simp only [exec, recordRepayment, bind_eq_ok, exists_unit, pure_eq_ok] at ha
    obtain ⟨-, -, _, -, -, p, hp, rfl⟩ := ha
    exact ⟨applyRepayment_standing hp, rfl, rfl, rfl⟩
  | repayStatement o m r d a =>
    simp only [exec, repayStatement, bind_eq_ok, exists_unit, pure_eq_ok] at ha
    obtain ⟨-, -, -, -, -, -, -, -, rfl⟩ := ha
    exact .refl _
  | recordPrivateRepayment key d a =>
    simp only [exec, recordPrivateRepayment, bind_eq_ok, exists_unit, pure_eq_ok] at ha
    obtain ⟨-, -, p, hp, rfl⟩ := ha
    exact ⟨applyRepayment_standing hp, rfl, rfl, rfl⟩

/-- Nothing ever moves a card to another owner. -/
theorem exec_owner {call : Call} (ha : exec s call = .ok s') :
    s'.policy.owner = s.policy.owner ∧ s'.binding.owner = s.binding.owner := by
  by_cases hq : call.instr.isClerical = true
  · obtain ⟨ctx, instr⟩ := call
    cases instr with
    | initPermission o a =>
      simp only [exec, initPermission, bind_eq_ok, exists_unit, ensure_eq_ok] at ha
      obtain ⟨-, -, ha⟩ := ha
      split at ha
      · simp only [bind_eq_ok, exists_unit, pure_eq_ok] at ha
        obtain ⟨-, p, hp, rfl⟩ := ha
        have hstand := appendLedger_standing hp
        exact ⟨congrArg Standing.owner hstand, rfl⟩
      · simp only [bind_eq_ok, exists_unit, ensure_eq_ok, pure_eq_ok] at ha
        obtain ⟨-, -, rfl⟩ := ha
        exact ⟨rfl, rfl⟩
    | updatePermission o op rest =>
      simp only [exec, updatePermission, bind_eq_ok, exists_unit, ensure_eq_ok, pure_eq_ok] at ha
      obtain ⟨-, -, ⟨p, key, code⟩, hedit, -, -, -, p', hp', rfl⟩ := ha
      obtain ⟨_, _, _, rfl⟩ := editMembers_policy hedit
      have hstand := appendLedger_standing hp'
      exact ⟨congrArg Standing.owner hstand, rfl⟩
    | setPolicy o args first =>
      simp only [exec, setPolicy, bind_eq_ok, exists_unit, ensure_eq_ok, pure_eq_ok] at ha
      obtain ⟨-, -, -, -, -, -, p, hp, v, -, q, -, -, p', hp', rfl⟩ := ha
      obtain ⟨_, rfl⟩ := rotateAuthorizer_policy hp
      have hstand := appendLedger_standing hp'
      exact ⟨congrArg Standing.owner hstand, rfl⟩
    | restore o a args =>
      simp only [exec, restore, bind_eq_ok, exists_unit, ensure_eq_ok, pure_eq_ok] at ha
      obtain ⟨-, -, -, -, -, -, -, -, -, -, v, -, stop, -, p, hp, rfl⟩ := ha
      have hstand := appendLedger_standing hp
      exact ⟨congrArg Standing.owner hstand, rfl⟩
    | checkpoint key m n =>
      simp only [exec, checkpoint, bind_eq_ok, exists_unit, pure_eq_ok] at ha
      obtain ⟨-, -, _, -, -, -, -, rfl⟩ := ha
      exact ⟨rfl, rfl⟩
    | writeCommitment a =>
      simp only [exec, writeCommitment, bind_eq_ok, exists_unit, pure_eq_ok] at ha
      obtain ⟨-, -, rfl⟩ := ha
      exact ⟨rfl, rfl⟩
    | wipeCard o rest =>
      simp only [exec, wipeCard, bind_eq_ok, exists_unit, pure_eq_ok] at ha
      obtain ⟨-, -, -, -, -, ⟨s₁, n⟩, hclose, -, -, rfl⟩ := ha
      have hpolicy := (closePairs_ok hclose).1
      have hbinding := (closePairs_kept hclose).1
      have howner : s₁.policy.owner = s.policy.owner := congrArg CardPolicy.owner hpolicy
      exact ⟨howner, congrArg CardBinding.owner hbinding⟩
    | _ => cases hq
  · have hsame := exec_standing ha (Bool.eq_false_iff.mpr hq)
    exact ⟨congrArg Standing.owner hsame.standing, hsame.owner⟩

end Instructions

end ChainPay.Card
