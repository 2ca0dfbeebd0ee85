import ChainPay.Card.Freeze
import ChainPay.Card.Repayment
import ChainPay.Card.Retire
import ChainPay.Lib.Runs

/-!
The instruction set of `card_policy` on one card, and its runs.

`exec` runs one call; a failed call leaves the card as it was. `exec_move` says
that every successful call is a `Move` of the credit line behind the card, so
what the moves keep, every run keeps (`run_inv`).
-/

namespace ChainPay.Card
open ChainPay.Lib

/-- One instruction with the keys and accounts it names. `init_card` is the start
of every run: a second one on the same binding fails. -/
inductive Instr where
  | initCard (owner : Pubkey)
  | delegateCard (owner validator : Pubkey)
  | initPermission (owner authorizer : Pubkey)
  | updatePermission (owner : Pubkey) (op : PermissionOp) (remaining : List AccountRef)
  | syncPermission (signer : Pubkey) (target permission : AccountRef)
  | setPolicy (owner : Pubkey) (args : PolicyArgs) (first : Option Pubkey)
  | openCheckoutIntent (authorizer : Pubkey) (args : IntentArgs)
  | cancelCheckoutIntent (signer : Pubkey) (intentId : IntentId)
  | closeCheckoutIntent (signer : Pubkey) (intentId : IntentId)
  | authorize (authorizer : Pubkey) (args : AuthorizeArgs)
  | adjustReservation (authorizer : Pubkey) (h : Hash) (newAmountCents : Nat)
  | capture (authorizer : Pubkey) (h : Hash) (amountCents : Nat) (captureIdHash : Hash)
  | reverse (authorizer : Pubkey) (h : Hash) (amountCents : Nat) (reason : UInt8)
      (eventIdHash : Hash)
  | refund (authorizer : Pubkey) (o : Option Hash) (amountCents : Nat) (eventIdHash : Hash)
  | recordDispute (authorizer : Pubkey) (h : Hash) (state : UInt8) (eventIdHash : Hash)
  | recordException (authorizer : Pubkey) (o : Option Hash) (kind : UInt8) (amountCents : Nat)
      (eventIdHash : Hash)
  | resolveException (owner : Pubkey) (eventIdHash : Hash) (resolution : UInt8)
  | rollPeriod (authorizer : Pubkey) (remaining : List (AccountRef × Bool))
  | freeze (signer : Pubkey) (reason : UInt8)
  | unfreeze (owner : Pubkey)
  | recoveryFreeze (signer : Pubkey) (reason : UInt8)
  | restore (owner authorizer : Pubkey) (args : RestoreArgs)
  | confirmReconciled (owner : Pubkey) (reconDigest : Hash)
  | checkpoint (authorizer : Pubkey) (masterSalt : Hash) (seq : Nat)
  | writeCommitment (action : CommitmentAction)
  | wipeCard (owner : Pubkey) (remaining : List AccountRef)
  | closeCard (owner : Pubkey)
  | closeReservation (signer : Pubkey) (h : Hash)
  | recordRepayment (signer : Pubkey) (statementDigest : Hash) (amountCents : Nat)
      (receipt recipientTokenAccount mint : AccountInfo)
  | repayStatement (owner : Pubkey) (mandate : MandateRef) (receipt : Pubkey)
      (statementDigest : Hash) (amount : Nat)
  | recordPrivateRepayment (signer : Pubkey) (statementDigest : Hash) (amountCents : Nat)

structure Call where
  ctx : Ctx
  instr : Instr

section Program

variable [Runtime]

/-- Runs one call on the card. -/
def exec (s : State) (call : Call) : Except Err State :=
  let ctx := call.ctx
  match call.instr with
  | .initCard _ => .error .account
  | .delegateCard o v => delegateCard ctx o v s
  | .initPermission o a => initPermission ctx o a s
  | .updatePermission o op rest => updatePermission ctx o op rest s
  | .syncPermission k t p => syncPermission ctx k t p s
  | .setPolicy o args first => setPolicy ctx o args first s
  | .openCheckoutIntent k args => openCheckoutIntent ctx k args s
  | .cancelCheckoutIntent k i => cancelCheckoutIntent ctx k i s
  | .closeCheckoutIntent k i => closeCheckoutIntent ctx k i s
  | .authorize k args => authorize ctx k args s
  | .adjustReservation k h n => adjustReservation ctx k h n s
  | .capture k h a i => capture ctx k h a i s
  | .reverse k h a b i => reverse ctx k h a b i s
  | .refund k o a i => refund ctx k o a i s
  | .recordDispute k h b i => recordDispute ctx k h b i s
  | .recordException k o code a i => recordException ctx k o code a i s
  | .resolveException o i b => resolveException ctx o i b s
  | .rollPeriod k rest => rollPeriod ctx k rest s
  | .freeze k b => freeze ctx k b s
  | .unfreeze o => unfreeze ctx o s
  | .recoveryFreeze k b => recoveryFreeze ctx k b s
  | .restore o a args => restore ctx o a args s
  | .confirmReconciled o d => confirmReconciled ctx o d s
  | .checkpoint k m n => checkpoint ctx k m n s
  | .writeCommitment a => writeCommitment ctx a s
  | .wipeCard o rest => wipeCard ctx o rest s
  | .closeCard o => closeCard ctx o s
  | .closeReservation k h => closeReservation ctx k h s
  | .recordRepayment k d a r t m => recordRepayment ctx k d a r t m s
  | .repayStatement o m r d a => repayStatement ctx o m r d a s
  | .recordPrivateRepayment k d a => recordPrivateRepayment ctx k d a s

omit [Runtime] in
/-- What an instruction is to the credit line. -/
def Instr.label : Instr → Label
  | .initPermission .. | .updatePermission .. => .members
  | .setPolicy .. => .terms
  | .authorize _ args => args.label
  | .adjustReservation _ h n => .adjust h n
  | .capture _ h a _ => .capture h a
  | .reverse _ h a _ _ => .reverse h a
  | .refund _ o a _ => .refund o a
  | .recordDispute _ h _ _ => .dispute h
  | .recordException _ o code a _ =>
    match ExceptionKind.ofCode code with
    | some kind => kind.label o a
    | none => .quiet
  | .rollPeriod .. => .roll
  | .restore .. => .restore
  | .wipeCard .. => .wipe
  | .closeReservation _ h => .close h
  | .recordRepayment _ d a _ _ _ => .repay d a
  | .recordPrivateRepayment _ d a => .repay d a
  | _ => .quiet

/-- **Refinement.** Every successful call is a move of the credit line. -/
theorem exec_move {s s' : State} {call : Call} (h : exec s call = .ok s') :
    Move call.ctx.signers s.credit call.instr.label s'.credit := by
  obtain ⟨ctx, instr⟩ := call
  cases instr with
  | initCard o => cases h
  | delegateCard o v => exact Move.to .quiet (delegateCard_credit h)
  | initPermission o a => exact initPermission_move h
  | updatePermission o op rest => exact updatePermission_move h
  | syncPermission k t p => exact Move.to .quiet (syncPermission_credit h)
  | setPolicy o args first => exact setPolicy_move h
  | openCheckoutIntent k args => exact Move.to .quiet (openCheckoutIntent_credit h)
  | cancelCheckoutIntent k i => exact Move.to .quiet (cancelCheckoutIntent_credit h)
  | closeCheckoutIntent k i => exact Move.to .quiet (closeCheckoutIntent_credit h)
  | authorize k args => exact authorize_move h
  | adjustReservation k r n => exact adjustReservation_move h
  | capture k r a i => exact capture_move h
  | reverse k r a b i => exact reverse_move h
  | refund k o a i => exact refund_move h
  | recordDispute k r b i => exact recordDispute_move h
  | recordException k o code a i =>
    obtain ⟨kind, hkind, hmove⟩ := recordException_move h
    simpa only [Instr.label, hkind] using hmove
  | resolveException o i b => exact Move.to .quiet (resolveException_credit h)
  | rollPeriod k rest => exact rollPeriod_move h
  | freeze k b => exact Move.to .quiet (freeze_credit h)
  | unfreeze o => exact Move.to .quiet (unfreeze_credit h)
  | recoveryFreeze k b => exact Move.to .quiet (recoveryFreeze_credit h)
  | restore o a args => exact restore_move h
  | confirmReconciled o d => exact Move.to .quiet (confirmReconciled_credit h)
  | checkpoint k m n => exact Move.to .quiet (checkpoint_credit h)
  | writeCommitment a => exact Move.to .quiet (writeCommitment_credit h)
  | wipeCard o rest => exact wipeCard_move h
  | closeCard o => exact Move.to .quiet (closeCard_credit h)
  | closeReservation k r => exact closeReservation_move h
  | recordRepayment k d a r t m => exact (recordRepayment_move h).2
  | repayStatement o m r d a => exact Move.to .quiet (repayStatement_credit h)
  | recordPrivateRepayment k d a => exact recordPrivateRepayment_move h

/-! ## Runs -/

/-- The card right after a successful `init_card`. -/
def Fresh (s : State) : Prop :=
  ∃ ctx owner cardId issuer ref prefund, initCard ctx owner cardId issuer ref prefund = .ok s

theorem Fresh.eq {s : State} (h : Fresh s) :
    ∃ binding, s.policy = zeroedPolicy binding s.binding.owner ∧ s.period = zeroedPeriod ∧
      s.reservations = ∅ ∧ s.intents = ∅ ∧ s.guard = none ∧ s.binding.status = .active := by
  obtain ⟨ctx, owner, cardId, issuer, ref, prefund, h⟩ := h
  simp only [initCard, bind_eq_ok, exists_unit, pure_eq_ok] at h
  obtain ⟨-, -, -, -, -, rfl⟩ := h
  exact ⟨_, rfl, rfl, rfl, rfl, rfl, rfl⟩

/-- The run has no successful `restore`. -/
def NoRestore (s : State) (calls : List Call) : Prop :=
  Runs.Along exec (fun _ call _ => call.instr.label ≠ .restore) s calls

instance (s : State) (calls : List Call) : Decidable (NoRestore s calls) :=
  inferInstanceAs (Decidable (Runs.Along ..))

/-- What the successful calls of a run were to the credit line. -/
def labels (s : State) (calls : List Call) : List Label :=
  Runs.logged exec (fun _ call _ => [call.instr.label]) s calls

/-- What the allowed moves keep, every run of them keeps. -/
theorem run_inv {I : Credit → Prop} {P : State → Call → State → Prop}
    (hmove : ∀ s call s', P s call s' → Move call.ctx.signers s.credit call.instr.label s'.credit →
      I s.credit → I s'.credit)
    {s : State} {calls : List Call} (h : Runs.Along exec P s calls) (hi : I s.credit) :
    I (Runs.after exec s calls).credit :=
  Runs.after_inv (I := fun s => I s.credit)
    (fun s call s' hP hstep => hmove s call s' hP (exec_move hstep)) h hi

end Program

/-! ## A card to run -/

namespace Sample

/-- Program derived addresses as Solana computes them, for seeds whose hash at the
first bump lies off the curve, as the sample card's do. -/
scoped instance runtime : Runtime where
  createProgramAddress seeds program :=
    some (hashv (seeds ++ [Hash.bytes program, ascii "ProgramDerivedAddress"]))
  findProgramAddress seeds program :=
    (hashv (seeds ++ [[255], Hash.bytes program, ascii "ProgramDerivedAddress"]), 255)
  minPrefund := 100000000

/-- 32 equal bytes. -/
def key (n : Nat) : BitVec 256 := BitVec.ofNat 256 (n * ((2 ^ 256 - 1) / 255))

def owner : Pubkey := key 7
def authorizer : Pubkey := key 9
def merchant : Hash := key 1

def ctxAt (now : Int) (signers : List Pubkey) : Ctx := ⟨signers, now, 1, true⟩

/-- The address of the sample card's binding. -/
def bindingKey : Pubkey :=
  0x6f5d29bec483b60adfc9f17d615ba44b5270bc767919fd78f3f3541e73fea812#256

theorem bindingKey_eq : (Runtime.findProgramAddress
    [CARD_BINDING_SEED, Hash.bytes owner, Hash.bytes (key 2)] ID).1 = bindingKey := by
  decide +kernel

def start : State where
  binding := ⟨owner, key 2, ISSUER_CARD_SIM, key 3, .active, 1800000000⟩
  policy := zeroedPolicy bindingKey owner
  period := zeroedPeriod
  commitment := ⟨0, 0, 0, 0, 0⟩
  reservations := ∅
  intents := ∅
  guard := none
  delegated := false
  scheduled := []

theorem start_init : initCard (ctxAt 1800000000 [owner]) owner (key 2) ISSUER_CARD_SIM (key 3)
    2000000000 = .ok start := by
  have hid : key 2 ≠ 0 := by decide
  have hprefund : Runtime.minPrefund ≤ 2000000000 := by decide
  have hsigned : owner ∈ (ctxAt 1800000000 [owner]).signers := List.mem_singleton_self _
  simp only [initCard, requireSigner, ensure_pos hsigned, ensure_pos hid,
    ensure_pos hprefund, cpi, ensure_pos (show (ctxAt 1800000000 [owner]).cpiOk = true from rfl),
    ok_bind, bindingKey_eq]
  rfl

theorem start_fresh : Fresh start :=
  ⟨ctxAt 1800000000 [owner], owner, key 2, ISSUER_CARD_SIM, key 3, 2000000000, start_init⟩

def policyArgs (budget maxPurchase feeBps : Nat) : PolicyArgs where
  budgetCents := budget
  maxPurchaseCents := maxPurchase
  maxPurchasesPerPeriod := 0
  periodSeconds := 2592000
  currency := USD
  merchantIdHashes := [merchant]
  mccs := []
  expiresAt := 0
  recurringAllowed := false
  feeBps := feeBps
  authorizer := authorizer

/-- A call of the sample authorizer. -/
def byAuthorizer (instr : Instr) : Call := ⟨ctxAt 1800000000 [authorizer], instr⟩

/-- Permissions and the first policy. -/
def setup (budget maxPurchase feeBps : Nat) : List Call :=
  [⟨ctxAt 1800000000 [owner], .initPermission owner authorizer⟩,
   ⟨ctxAt 1800000000 [owner], .setPolicy owner (policyArgs budget maxPurchase feeBps) none⟩]

/-- An intent and the authorization that consumes it. -/
def purchase (n : Nat) (amount : Nat) (singleMessage : Bool) : List Call :=
  [byAuthorizer (.openCheckoutIntent authorizer
    ⟨BitVec.ofNat 128 n, key 5, merchant, 0, amount, USD, 1800000300⟩),
   byAuthorizer (.authorize authorizer
    ⟨key n, BitVec.ofNat 128 n, amount, USD, merchant, 0, false, singleMessage⟩)]

end Sample

end ChainPay.Card
