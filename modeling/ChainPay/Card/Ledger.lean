import ChainPay.Card.Window
import ChainPay.Lib.Chain

/-!
The records an instruction appends to the ledger. `Instr.entries` lists them in
order; `exec_ledger` proves that they are what the hash chain took in, so `records`
is the ledger of a run, record by record, as `ledger_event_bytes` writes it.
-/

namespace ChainPay.Card
open ChainPay.Lib

/-- One event with the period it is booked in. -/
structure Entry where
  event : LedgerEvent
  periodIndex : Nat
  deriving DecidableEq, Repr

/-- One appended record. -/
structure LedgerRecord where
  seq : Nat
  entry : Entry
  unixTs : Int
  deriving DecidableEq, Repr

def LedgerRecord.bytes (r : LedgerRecord) : Bytes :=
  ledgerEventBytes r.seq r.entry.event r.entry.periodIndex r.unixTs

/-- The entries one call appends, numbered on from `seq`. -/
def numbered (now : Int) : Nat → List Entry → List LedgerRecord
  | _, [] => []
  | seq, e :: rest => ⟨seq + 1, e, now⟩ :: numbered now (seq + 1) rest

/-- The id, state and numbers of a Reservation, zero when there is none. -/
def State.idOf (s : State) (h : Hash) : Hash :=
  ((s.reservations.lookup h).map Reservation.authIdHash).getD 0

def State.codeOf (s : State) (h : Hash) : UInt8 :=
  ((s.reservations.lookup h).map fun r => r.state.code).getD 0

def State.heldOn (s : State) (h : Hash) : Nat :=
  ((s.reservations.lookup h).map Reservation.amountReservedCents).getD 0

def State.capturedAmount (s : State) (h : Hash) : Nat :=
  ((s.reservations.lookup h).map Reservation.capturedCents).getD 0

/-- The key an edit of the member list names, and its ledger code. -/
def PermissionOp.target : PermissionOp → Pubkey × UInt8
  | .addReader k => (k, 1)
  | .removeReader k => (k, 2)

/-- What one round of the `roll_period` loop appends. -/
def expireEntry (ctx : Ctx) (account : AccountRef) (s : State) : List Entry :=
  match account with
  | .ephemeral (.reservation h) =>
    match s.reservations.lookup h with
    | some r =>
      if r.state.isOpen ∧ r.holdExpiresAt ≤ ctx.now then
        [⟨{ kind := .reverse, authIdHash := r.authIdHash, amountCents := r.amountReservedCents
            stateAfter := ReservationState.expired.code }, s.period.periodIndex⟩]
      else []
    | none => []
  | _ => []

def expireEntries (ctx : Ctx) : List (AccountRef × Bool) → State → List Entry
  | [], _ => []
  | (account, isWritable) :: rest, s =>
    match expireOne ctx account isWritable s with
    | .ok s₁ => expireEntry ctx account s ++ expireEntries ctx rest s₁
    | .error _ => []

/-- The entries of a successful call that took the card from `s` to `s'`. -/
def Instr.entries (ctx : Ctx) (s s' : State) : Instr → List Entry
  | .initPermission _ a =>
    if s.policy.memberCount = 0 then
      [⟨{ kind := .permissionChange, eventIdHash := a }, s.period.periodIndex⟩]
    else []
  | .updatePermission _ op _ =>
    [⟨{ kind := .permissionChange, eventIdHash := op.target.1, stateAfter := op.target.2 },
      s.period.periodIndex⟩]
  | .setPolicy _ args _ =>
    [⟨{ kind := .policySet, amountCents := args.budgetCents
        stateAfter := if s.policy.frozen then 1 else 0 }, s'.period.periodIndex⟩]
  | .authorize _ args =>
    [⟨{ kind := .authorize, authIdHash := args.authIdHash, amountCents := args.amountCents
        stateAfter := s'.codeOf args.authIdHash }, s'.period.periodIndex⟩]
  | .adjustReservation _ h n =>
    [⟨{ kind := .adjust, authIdHash := s'.idOf h, amountCents := n, stateAfter := s'.codeOf h },
      s'.period.periodIndex⟩]
  | .capture _ h a i =>
    [⟨{ kind := .capture, authIdHash := s'.idOf h, eventIdHash := i, amountCents := a
        stateAfter := s'.codeOf h }, s'.period.periodIndex⟩]
  | .reverse _ h a _ i =>
    [⟨{ kind := .reverse, authIdHash := s'.idOf h, eventIdHash := i
        amountCents := min a (s.heldOn h), stateAfter := s'.codeOf h }, s'.period.periodIndex⟩]
  | .refund _ o a i =>
    [⟨{ kind := .refund, authIdHash := (o.map s'.idOf).getD 0, eventIdHash := i, amountCents := a
        stateAfter := (o.map s'.codeOf).getD 0 }, s'.period.periodIndex⟩]
  | .recordDispute _ h b i =>
    [⟨{ kind := .dispute, authIdHash := s'.idOf h, eventIdHash := i, stateAfter := b },
      s'.period.periodIndex⟩]
  | .recordException _ o code a i =>
    [⟨{ kind := .exception, authIdHash := (o.map s'.idOf).getD 0, eventIdHash := i
        amountCents := a, stateAfter := code }, s'.period.periodIndex⟩]
  | .resolveException _ i b =>
    [⟨{ kind := .resolveException, eventIdHash := i, stateAfter := b }, s.period.periodIndex⟩]
  | .rollPeriod _ rest =>
    expireEntries ctx rest s ++
      [⟨{ kind := .roll, amountCents := s'.period.reservedCents }, s'.period.periodIndex⟩]
  | .freeze _ b => [⟨{ kind := .freeze, stateAfter := b }, s.period.periodIndex⟩]
  | .unfreeze _ => [⟨{ kind := .unfreeze }, s.period.periodIndex⟩]
  | .recoveryFreeze _ b => [⟨{ kind := .recoveryFreeze, stateAfter := b }, s.period.periodIndex⟩]
  | .restore _ _ args =>
    [⟨{ kind := .restore, eventIdHash := args.reconDigest
        stateAfter := RecoveryState.restoredPending.code }, args.periodIndex⟩]
  | .confirmReconciled _ d =>
    [⟨{ kind := .confirmReconciled, eventIdHash := d }, s.period.periodIndex⟩]
  | .closeReservation _ h =>
    [⟨{ kind := .closeReservation, authIdHash := s.idOf h, amountCents := s.capturedAmount h
        stateAfter := s.codeOf h }, s.period.periodIndex⟩]
  | .recordRepayment _ d a _ _ _ =>
    [⟨{ kind := .repayment, eventIdHash := d, amountCents := a
        stateAfter := REPAYMENT_CHAINPAY_RECEIPT }, s.period.periodIndex⟩]
  | .recordPrivateRepayment _ d a =>
    [⟨{ kind := .repayment, eventIdHash := d, amountCents := a
        stateAfter := REPAYMENT_PRIVATE_ATTESTED }, s.period.periodIndex⟩]
  | .initCard .. | .delegateCard .. | .syncPermission .. | .openCheckoutIntent ..
  | .cancelCheckoutIntent .. | .closeCheckoutIntent .. | .checkpoint .. | .writeCommitment ..
  | .wipeCard .. | .closeCard .. | .repayStatement .. => []

/-- The records a successful call appends. -/
def appended (s : State) (call : Call) (s' : State) : List LedgerRecord :=
  numbered call.ctx.now s.policy.ledgerSeq (call.instr.entries call.ctx s s')

section Program

variable [Runtime]

/-- The ledger a run appends, oldest first. -/
def records (s : State) (calls : List Call) : List LedgerRecord :=
  Runs.logged exec appended s calls

end Program

/-! ## The chain -/

/-- The policy's chain went on by these entries. -/
structure Extends (now : Int) (p p' : CardPolicy) (es : List Entry) : Prop where
  seq : p'.ledgerSeq = p.ledgerSeq + es.length
  head : p'.ledgerHead = (numbered now p.ledgerSeq es).foldl
    (fun h r => nextLedgerHead h r.bytes) p.ledgerHead

section Extends

variable {now : Int} {p p₁ p' : CardPolicy} {es es' : List Entry}

theorem Extends.nil (hseq : p'.ledgerSeq = p.ledgerSeq) (hhead : p'.ledgerHead = p.ledgerHead) :
    Extends now p p' [] := ⟨hseq, hhead⟩

theorem numbered_append (seq : Nat) (es es' : List Entry) :
    numbered now seq (es ++ es') = numbered now seq es ++ numbered now (seq + es.length) es' := by
  induction es generalizing seq with
  | nil => rfl
  | cons e rest ih =>
    simp only [List.cons_append, numbered, ih, List.length_cons]
    congr 3
    omega

theorem Extends.trans (h : Extends now p p₁ es) (h' : Extends now p₁ p' es') :
    Extends now p p' (es ++ es') where
  seq := by
    rw [h'.seq, h.seq, List.length_append, Nat.add_assoc]
  head := by
    rw [h'.head, h.head, numbered_append, List.foldl_append, h.seq]

/-- One `append_ledger`, after a change to other fields of the policy. -/
theorem Extends.append {e : LedgerEvent} {i : Nat} (hp : appendLedger p₁ e i now = .ok p')
    (hseq : p₁.ledgerSeq = p.ledgerSeq) (hhead : p₁.ledgerHead = p.ledgerHead) :
    Extends now p p' [⟨e, i⟩] := by
  simp only [appendLedger, bind_eq_ok, add_eq_ok, pure_eq_ok] at hp
  obtain ⟨_, ⟨-, rfl⟩, rfl⟩ := hp
  rw [hseq, hhead]
  exact ⟨rfl, rfl⟩

end Extends

section Instructions

variable {ctx : Ctx} {k : Pubkey} {s s' : State} {h : Hash}

theorem idOf_eq {r : Reservation} (hr : s.reservations.lookup h = some r) :
    s.idOf h = r.authIdHash := by
  unfold State.idOf
  rw [hr]
  rfl

theorem codeOf_eq {r : Reservation} (hr : s.reservations.lookup h = some r) :
    s.codeOf h = r.state.code := by
  unfold State.codeOf
  rw [hr]
  rfl

theorem heldOn_eq {r : Reservation} (hr : s.reservations.lookup h = some r) :
    s.heldOn h = r.amountReservedCents := by
  unfold State.heldOn
  rw [hr]
  rfl

theorem capturedAmount_eq {r : Reservation} (hr : s.reservations.lookup h = some r) :
    s.capturedAmount h = r.capturedCents := by
  unfold State.capturedAmount
  rw [hr]
  rfl

theorem authorize_extends {args : AuthorizeArgs} (ha : authorize ctx k args s = .ok s') :
    Extends ctx.now s.policy s'.policy ((Instr.authorize k args).entries ctx s s') := by
  simp only [authorize, bind_eq_ok, exists_unit, ensure_eq_ok, okOr_eq_ok, increment_eq_ok,
    pure_eq_ok] at ha
  obtain ⟨-, -, -, -, -, x, -, -, -, -, expires, -, p, hp, _, ⟨-, rfl⟩, ⟨r, q, p₂⟩, hbook, p₃,
    hp₃, hs'⟩ := ha
  obtain ⟨n, rfl⟩ := bookAuthorization_policy hbook
  have hlook : s'.reservations.lookup args.authIdHash = some r := by
    rw [← hs']
    exact AList.lookup_insert _
  have hcode := codeOf_eq hlook
  simp only [Instr.entries, hcode]
  rw [← hs']
  exact .append hp₃ (by rw [ephemeralCreated_ok hp]) (by rw [ephemeralCreated_ok hp])

theorem adjustReservation_extends {n : Nat} (ha : adjustReservation ctx k h n s = .ok s') :
    Extends ctx.now s.policy s'.policy ((Instr.adjustReservation k h n).entries ctx s s') := by
  simp only [adjustReservation, bind_eq_ok, exists_unit, ensure_eq_ok, pure_eq_ok] at ha
  obtain ⟨r, hctx, -, -, ⟨q, r₁⟩, hres, p, hp, hs'⟩ := ha
  have hlook : s'.reservations.lookup h = some (settleEmpty r₁ .reversed) := by
    rw [← hs']
    exact AList.lookup_insert _
  simp only [Instr.entries, idOf_eq hlook, codeOf_eq hlook]
  rw [← hs']
  exact .append hp rfl rfl

theorem capture_extends {a : Nat} {i : Hash} (hc : capture ctx k h a i s = .ok s') :
    Extends ctx.now s.policy s'.policy ((Instr.capture k h a i).entries ctx s s') := by
  simp only [capture, bind_eq_ok, exists_unit, ensure_eq_ok, add_eq_ok, pure_eq_ok] at hc
  obtain ⟨r, hctx, -, -, -, -, -, ⟨p, q, r₁⟩, htake, -, _, ⟨-, rfl⟩, _, ⟨-, rfl⟩, p₂, hp₂, p₃, hp₃,
    hs'⟩ := hc
  obtain ⟨n, rfl⟩ := takeFromHold_policy htake
  have hlook : s'.reservations.lookup h = some { r₁ with
      capturedCents := r₁.capturedCents + a, captureIds := r₁.captureIds ++ [i] } := by
    rw [← hs']
    exact AList.lookup_insert _
  simp only [Instr.entries, idOf_eq hlook, codeOf_eq hlook]
  rw [← hs']
  exact .append hp₃ (by rw [addExposure_ok hp₂]) (by rw [addExposure_ok hp₂])

theorem reverse_extends {a : Nat} {b : UInt8} {i : Hash} (hr : reverse ctx k h a b i s = .ok s') :
    Extends ctx.now s.policy s'.policy ((Instr.reverse k h a b i).entries ctx s s') := by
  simp only [reverse, bind_eq_ok, exists_unit, ensure_eq_ok, add_eq_ok, releaseHold_eq, ok_bind,
    pure_eq_ok] at hr
  obtain ⟨r, hctx, -, -, -, p, hp, -, _, ⟨-, rfl⟩, p₂, hp₂, hs'⟩ := hr
  obtain ⟨-, -, rfl⟩ := recordEventId_ok hp
  have hold := heldOn_eq (reservationContext_ok hctx).2
  have hlook : ∃ r', s'.reservations.lookup h = some r' ∧ s'.policy = p₂ ∧
      appendLedger { s.policy with events := s.policy.events.push i }
        (event .reverse (some r') i (min a r.amountReservedCents) r'.state.code)
        s'.period.periodIndex ctx.now = .ok p₂ := by
    rw [← hs']
    exact ⟨_, AList.lookup_insert _, rfl, hp₂⟩
  obtain ⟨r', hlook, hpol, hp'⟩ := hlook
  simp only [Instr.entries, idOf_eq hlook, codeOf_eq hlook, hold]
  rw [hpol]
  exact .append hp' rfl rfl

/-- The id of the named Reservation after a posting to it. -/
theorem posted_id {o : Option Hash} {x : Option Reservation} (hx : x.isSome = o.isSome)
    (hs' : s'.reservations = writeBack s.reservations o x) :
    (o.map s'.idOf).getD 0 = (x.map Reservation.authIdHash).getD 0 ∧
      (o.map s'.codeOf).getD 0 = (x.map fun r => r.state.code).getD 0 := by
  cases o with
  | none =>
    cases x with
    | none => exact ⟨rfl, rfl⟩
    | some r => cases hx
  | some h =>
    cases x with
    | none => cases hx
    | some r =>
      have hlook : s'.reservations.lookup h = some r := by
        rw [hs']
        exact AList.lookup_insert _
      exact ⟨idOf_eq hlook, codeOf_eq hlook⟩

theorem onReservation_isSome {f : Reservation → Except Err Reservation} {o : Option Hash}
    {x : Option Reservation} (hsome : ∀ h, o = some h → (s.reservations.lookup h).isSome)
    (hpost : onReservation f (o.bind fun h => s.reservations.lookup h) = .ok x) :
    x.isSome = o.isSome := by
  cases o with
  | none =>
    cases hpost
    rfl
  | some h =>
    obtain ⟨r, hlook⟩ := Option.isSome_iff_exists.mp (hsome h rfl)
    simp only [Option.bind_some, hlook, onReservation, bind_eq_ok, pure_eq_ok] at hpost
    obtain ⟨r₁, -, rfl⟩ := hpost
    rfl

theorem refund_extends {o : Option Hash} {a : Nat} {i : Hash}
    (hr : refund ctx k o a i s = .ok s') :
    Extends ctx.now s.policy s'.policy ((Instr.refund k o a i).entries ctx s s') := by
  simp only [refund, bind_eq_ok, exists_unit, ensure_eq_ok, add_eq_ok, pure_eq_ok] at hr
  obtain ⟨r, hctx, -, -, p, hp, _, ⟨-, rfl⟩, r', hpost, p₂, hp₂, p₃, hp₃, hs'⟩ := hr
  have hsome := cardContext_isSome hctx
  obtain ⟨-, rfl⟩ := cardContext_ok hctx
  obtain ⟨-, -, rfl⟩ := recordEventId_ok hp
  have hback : s'.reservations = writeBack s.reservations o r' := by rw [← hs']
  obtain ⟨hid, hcode⟩ := posted_id (onReservation_isSome hsome hpost) hback
  simp only [Instr.entries, hid, hcode]
  rw [← hs']
  exact .append hp₃ (by rw [reduceExposure_ok hp₂]) (by rw [reduceExposure_ok hp₂])

theorem recordDispute_extends {b : UInt8} {i : Hash} (hr : recordDispute ctx k h b i s = .ok s') :
    Extends ctx.now s.policy s'.policy ((Instr.recordDispute k h b i).entries ctx s s') := by
  simp only [recordDispute, bind_eq_ok, exists_unit, ensure_eq_ok, pure_eq_ok] at hr
  obtain ⟨r, hctx, -, -, p, hp, p₂, hp₂, hs'⟩ := hr
  obtain ⟨-, -, rfl⟩ := recordEventId_ok hp
  have hlook : s'.reservations.lookup h = some { r with disputeState := b } := by
    rw [← hs']
    exact AList.lookup_insert _
  simp only [Instr.entries, idOf_eq hlook]
  rw [← hs']
  exact .append hp₂ rfl rfl

/-- An exception on a Reservation leaves that Reservation. -/
theorem book_isSome {kind : ExceptionKind} {a : Nat} {p p' : CardPolicy} {q q' : CardPeriod}
    {o : Option Hash} {x : Option Reservation}
    (hsome : ∀ h, o = some h → (s.reservations.lookup h).isSome)
    (hb : kind.book a p q (o.bind fun h => s.reservations.lookup h) = .ok (p', q', x)) :
    x.isSome = o.isSome := by
  have hdebit : ∀ kind, bookDebit kind a p q (o.bind fun h => s.reservations.lookup h) =
      .ok (p', q', x) → x.isSome = o.isSome := by
    intro kind hb
    simp only [bookDebit, bind_eq_ok, exists_unit, add_eq_ok, pure_eq_ok, Prod.mk.injEq] at hb
    obtain ⟨-, _, ⟨-, rfl⟩, _, ⟨-, rfl⟩, r₁, hpost, p₁, -, rfl, rfl, rfl⟩ := hb
    exact onReservation_isSome hsome hpost
  cases kind with
  | lateCapture =>
    simp only [ExceptionKind.book, bookLate, bind_eq_ok, exists_unit, ensure_eq_ok, add_eq_ok,
      pure_eq_ok, Prod.mk.injEq] at hb
    obtain ⟨hnone, -, _, ⟨-, rfl⟩, p₁, -, rfl, rfl, rfl⟩ := hb
    cases o with
    | none => rfl
    | some h =>
      have hl := hsome h rfl
      rw [show s.reservations.lookup h = none from hnone] at hl
      cases hl
  | overHold =>
    simp only [ExceptionKind.book, bookOverHold, bind_eq_ok, exists_unit, okOr_eq_ok,
      ensure_eq_ok, add_eq_ok, pure_eq_ok, Prod.mk.injEq, Option.bind_eq_some_iff] at hb
    obtain ⟨r, ⟨h, rfl, -⟩, -, _, ⟨-, rfl⟩, _, ⟨-, rfl⟩, _, ⟨-, rfl⟩, rfl, rfl, rfl⟩ := hb
    rfl
  | correctionCredit =>
    simp only [ExceptionKind.book, bookCredit, bind_eq_ok, add_eq_ok, pure_eq_ok,
      Prod.mk.injEq] at hb
    obtain ⟨_, ⟨-, rfl⟩, r₁, hpost, p₁, -, rfl, rfl, rfl⟩ := hb
    exact onReservation_isSome hsome hpost
  | forcedCapture => exact hdebit _ hb
  | overCapture => exact hdebit _ hb
  | correctionDebit => exact hdebit _ hb
  | returnReversal => exact hdebit _ hb
  | unpairedCapture => exact hdebit _ hb

theorem recordException_extends {o : Option Hash} {code : UInt8} {a : Nat} {i : Hash}
    (hr : recordException ctx k o code a i s = .ok s') :
    Extends ctx.now s.policy s'.policy ((Instr.recordException k o code a i).entries ctx s s') := by
  simp only [recordException, bind_eq_ok, exists_unit, okOr_eq_ok, ensure_eq_ok,
    pure_eq_ok] at hr
  obtain ⟨r, hctx, -, kind, -, -, p, hp, ⟨p₁, q, r'⟩, hbook, p₂, hp₂, p₃, hp₃, hs'⟩ := hr
  have hsome := cardContext_isSome hctx
  obtain ⟨-, rfl⟩ := cardContext_ok hctx
  obtain ⟨-, -, rfl⟩ := recordEventId_ok hp
  obtain ⟨n, hn⟩ := book_policy hbook
  obtain ⟨m, hm⟩ := raiseException_policy hp₂
  have hback : s'.reservations = writeBack s.reservations o r' := by rw [← hs']
  obtain ⟨hid, -⟩ := posted_id (book_isSome hsome hbook) hback
  simp only [Instr.entries, hid]
  rw [← hs']
  exact .append hp₃ (by rw [hm]; simp only [hn]) (by rw [hm]; simp only [hn])

theorem expireAll_extends {accounts : List (AccountRef × Bool)}
    (he : expireAll ctx accounts s = .ok s') :
    Extends ctx.now s.policy s'.policy (expireEntries ctx accounts s) := by
  induction accounts generalizing s with
  | nil =>
    cases he
    exact .nil rfl rfl
  | cons a rest ih =>
    obtain ⟨account, w⟩ := a
    simp only [expireAll, bind_eq_ok] at he
    obtain ⟨s₁, h₁, he⟩ := he
    simp only [expireEntries, h₁]
    refine .trans ?_ (ih he)
    -- one round appends its own entry, or nothing
    simp only [expireOne, bind_eq_ok, exists_unit, ensure_eq_ok] at h₁
    obtain ⟨-, h₁⟩ := h₁
    unfold expireEntry
    split at h₁
    · simp only [bind_eq_ok, okOr_eq_ok] at h₁
      obtain ⟨r, hlook, h₁⟩ := h₁
      simp only [hlook]
      split at h₁
      · rename_i hcond
        simp only [bind_eq_ok, pure_eq_ok] at h₁
        obtain ⟨p, hp, rfl⟩ := h₁
        rw [if_pos hcond]
        exact .append hp rfl rfl
      · rename_i hcond
        simp only [pure_eq_ok] at h₁
        subst h₁
        rw [if_neg hcond]
        exact .nil rfl rfl
    · cases h₁

theorem rollPeriod_extends {accounts : List (AccountRef × Bool)}
    (hr : rollPeriod ctx k accounts s = .ok s') :
    Extends ctx.now s.policy s'.policy ((Instr.rollPeriod k accounts).entries ctx s s') := by
  simp only [rollPeriod, bind_eq_ok, exists_unit, ensure_eq_ok, increment_eq_ok, later_eq_ok,
    pure_eq_ok] at hr
  obtain ⟨-, -, -, s₁, hloop, _, ⟨-, rfl⟩, stop, -, p, hp, rfl⟩ := hr
  exact (expireAll_extends hloop).trans (.append hp rfl rfl)

theorem closeReservation_extends (hc : closeReservation ctx k h s = .ok s') :
    Extends ctx.now s.policy s'.policy ((Instr.closeReservation k h).entries ctx s s') := by
  simp only [closeReservation, bind_eq_ok, exists_unit, okOr_eq_ok, ensure_eq_ok, add_eq_ok,
    pure_eq_ok] at hc
  obtain ⟨-, -, -, r, hlook, -, g, -, _, ⟨-, rfl⟩, -, p, hp, p₂, hp₂, rfl⟩ := hc
  simp only [Instr.entries, idOf_eq hlook, codeOf_eq hlook, capturedAmount_eq hlook]
  exact .append hp₂ (by rw [countClose_ok hp]) (by rw [countClose_ok hp])

theorem setPolicy_extends {args : PolicyArgs} {first : Option Pubkey}
    (ha : setPolicy ctx k args first s = .ok s') :
    Extends ctx.now s.policy s'.policy ((Instr.setPolicy k args first).entries ctx s s') := by
  simp only [setPolicy, bind_eq_ok, exists_unit, ensure_eq_ok, increment_eq_ok, pure_eq_ok] at ha
  obtain ⟨-, -, -, -, -, -, p, hp, v, ⟨-, rfl⟩, q, -, -, p', hp', rfl⟩ := ha
  obtain ⟨m, rfl⟩ := rotateAuthorizer_policy hp
  exact .append hp' rfl rfl

theorem initPermission_extends {a : Pubkey} (ha : initPermission ctx k a s = .ok s') :
    Extends ctx.now s.policy s'.policy ((Instr.initPermission k a).entries ctx s s') := by
  simp only [initPermission, bind_eq_ok, exists_unit, ensure_eq_ok] at ha
  obtain ⟨-, -, ha⟩ := ha
  unfold Instr.entries
  split at ha
  · rename_i hzero
    simp only [bind_eq_ok, exists_unit, pure_eq_ok] at ha
    obtain ⟨-, p, hp, rfl⟩ := ha
    simp only [if_pos hzero]
    exact .append hp rfl rfl
  · rename_i hzero
    simp only [bind_eq_ok, exists_unit, ensure_eq_ok, pure_eq_ok] at ha
    obtain ⟨-, -, rfl⟩ := ha
    simp only [if_neg hzero]
    exact .nil rfl rfl

theorem updatePermission_extends {op : PermissionOp} {rest : List AccountRef}
    (ha : updatePermission ctx k op rest s = .ok s') :
    Extends ctx.now s.policy s'.policy ((Instr.updatePermission k op rest).entries ctx s s') := by
  simp only [updatePermission, bind_eq_ok, exists_unit, ensure_eq_ok, pure_eq_ok] at ha
  obtain ⟨-, -, ⟨p, key, b⟩, hedit, -, -, -, p', hp', rfl⟩ := ha
  have htarget : op.target = (key, b) := by
    cases op with
    | addReader pubkey =>
      simp only [editMembers, bind_eq_ok, exists_unit, pure_eq_ok, Prod.mk.injEq] at hedit
      obtain ⟨-, -, -, -, rfl, rfl⟩ := hedit
      rfl
    | removeReader pubkey =>
      simp only [editMembers, bind_eq_ok, exists_unit, pure_eq_ok, Prod.mk.injEq] at hedit
      obtain ⟨_, -, -, -, rfl, rfl⟩ := hedit
      rfl
  obtain ⟨m, f, c, rfl⟩ := editMembers_policy hedit
  simp only [Instr.entries, htarget]
  exact .append hp' rfl rfl

theorem applyRepayment_extends {p p' : CardPolicy} {n a : Nat} {d : Hash} {b : UInt8} {t : Int}
    (h : applyRepayment p n d a b t = .ok p') :
    Extends t p p' [⟨{ kind := .repayment, eventIdHash := d, amountCents := a, stateAfter := b },
      n⟩] := by
  simp only [applyRepayment, bind_eq_ok, exists_unit, ensure_eq_ok, sub_eq_ok] at h
  obtain ⟨-, -, -, -, _, ⟨-, rfl⟩, hp⟩ := h
  exact .append hp rfl rfl

variable [Runtime]

/-- **Ledger.** Every call but a `restore` or a wipe appends its entries to the chain,
and nothing else. -/
theorem exec_ledger {call : Call} (ha : exec s call = .ok s') (hr : call.instr.label ≠ .restore)
    (hw : call.instr.wipes = false) :
    Extends call.ctx.now s.policy s'.policy (call.instr.entries call.ctx s s') := by
  obtain ⟨ctx, instr⟩ := call
  cases instr with
  | initCard o => cases ha
  | delegateCard o v =>
    simp only [exec, delegateCard, bind_eq_ok, exists_unit, ensure_eq_ok] at ha
    obtain ⟨-, -, -, -, ha⟩ := ha
    split at ha
    · simp only [pure_eq_ok] at ha
      subst ha
      exact .nil rfl rfl
    · simp only [bind_eq_ok, exists_unit, pure_eq_ok] at ha
      obtain ⟨-, rfl⟩ := ha
      exact .nil rfl rfl
  | initPermission o a => exact initPermission_extends ha
  | updatePermission o op rest => exact updatePermission_extends ha
  | syncPermission key t p =>
    simp only [exec, syncPermission, bind_eq_ok, exists_unit, ensure_eq_ok, pure_eq_ok] at ha
    obtain ⟨-, -, -, -, -, rfl⟩ := ha
    exact .nil rfl rfl
  | setPolicy o args first => exact setPolicy_extends ha
  | openCheckoutIntent key args =>
    simp only [exec, openCheckoutIntent, bind_eq_ok, exists_unit, pure_eq_ok] at ha
    obtain ⟨-, -, -, -, -, -, p, hp, rfl⟩ := ha
    exact .nil (by rw [ephemeralCreated_ok hp]) (by rw [ephemeralCreated_ok hp])
  | cancelCheckoutIntent key i =>
    simp only [exec, cancelCheckoutIntent, bind_eq_ok, exists_unit, pure_eq_ok] at ha
    obtain ⟨-, _, -, -, -, -, rfl⟩ := ha
    exact .nil rfl rfl
  | closeCheckoutIntent key i =>
    simp only [exec, closeCheckoutIntent, bind_eq_ok, exists_unit, pure_eq_ok] at ha
    obtain ⟨-, -, -, _, -, -, -, rfl⟩ := ha
    exact .nil rfl rfl
  | authorize key args => exact authorize_extends ha
  | adjustReservation key r n => exact adjustReservation_extends ha
  | capture key r a i => exact capture_extends ha
  | reverse key r a b i => exact reverse_extends ha
  | refund key o a i => exact refund_extends ha
  | recordDispute key r b i => exact recordDispute_extends ha
  | recordException key o code a i => exact recordException_extends ha
  | resolveException o i b =>
    simp only [exec, resolveException, bind_eq_ok, exists_unit, ensure_eq_ok, pure_eq_ok] at ha
    obtain ⟨-, -, p, hp, -, p₂, hp₂, rfl⟩ := ha
    obtain ⟨-, -, rfl⟩ := recordEventId_ok hp
    exact .append hp₂ rfl rfl
  | rollPeriod key rest => exact rollPeriod_extends ha
  | freeze key b =>
    simp only [exec, freeze, bind_eq_ok, exists_unit, pure_eq_ok] at ha
    obtain ⟨-, -, -, -, p, hp, rfl⟩ := ha
    exact .append hp (by split <;> rfl) (by split <;> rfl)
  | unfreeze o =>
    simp only [exec, unfreeze, bind_eq_ok, exists_unit, pure_eq_ok] at ha
    obtain ⟨-, -, -, p, hp, rfl⟩ := ha
    exact .append hp rfl rfl
  | recoveryFreeze key b =>
    simp only [exec, recoveryFreeze, bind_eq_ok, exists_unit, pure_eq_ok] at ha
    obtain ⟨-, -, -, p, hp, rfl⟩ := ha
    exact .append hp rfl rfl
  | restore o a args => exact absurd rfl hr
  | confirmReconciled o d =>
    simp only [exec, confirmReconciled, bind_eq_ok, exists_unit, pure_eq_ok] at ha
    obtain ⟨-, -, -, p, hp, rfl⟩ := ha
    exact .append hp rfl rfl
  | checkpoint key m n =>
    simp only [exec, checkpoint, bind_eq_ok, exists_unit, pure_eq_ok] at ha
    obtain ⟨-, -, _, -, -, -, -, rfl⟩ := ha
    exact .nil rfl rfl
  | writeCommitment a =>
    simp only [exec, writeCommitment, bind_eq_ok, exists_unit, pure_eq_ok] at ha
    obtain ⟨-, -, rfl⟩ := ha
    exact .nil rfl rfl
  | wipeCard o rest => cases hw
  | closeCard o =>
    simp only [exec, closeCard, bind_eq_ok, exists_unit, pure_eq_ok] at ha
    obtain ⟨-, -, -, -, -, rfl⟩ := ha
    exact .nil rfl rfl
  | closeReservation key r => exact closeReservation_extends ha
  | recordRepayment key d a r t m =>
    simp only [exec, recordRepayment, bind_eq_ok, exists_unit, pure_eq_ok] at ha
    obtain ⟨-, -, _, -, -, p, hp, rfl⟩ := ha
    exact applyRepayment_extends hp
  | repayStatement o m r d a =>
    simp only [exec, repayStatement, bind_eq_ok, exists_unit, pure_eq_ok] at ha
    obtain ⟨-, -, -, -, -, -, -, -, rfl⟩ := ha
    exact .nil rfl rfl
  | recordPrivateRepayment key d a =>
    simp only [exec, recordPrivateRepayment, bind_eq_ok, exists_unit, pure_eq_ok] at ha
    obtain ⟨-, -, p, hp, rfl⟩ := ha
    exact applyRepayment_extends hp

end Instructions

end ChainPay.Card
