import ChainPay.Card.Period

/-!
Statement repayment. `repay_statement` pays through the ChainPay program and
writes nothing of the card. `record_repayment` lowers the outstanding balance
when a ChainPay receipt proves the payment; `record_private_repayment` takes the
authorizer's word for it. Both go through `apply_repayment` and its ring of
statement digests.
-/

namespace ChainPay.Card
open ChainPay.Lib

/-- An account as the runtime hands it over. -/
structure AccountInfo where
  key : Pubkey
  owner : Pubkey
  data : Bytes
  deriving DecidableEq, Repr

/-! ## The ChainPay receipt -/

def CHAINPAY_RECEIPT_SEED : Bytes := ascii "receipt"
def REPAY_AGENT_SEED : Bytes := ascii "repay_agent"
def CHAINPAY_RECEIPT_SPACE_V1 : Nat := 8 + 32 * 8 + 8 * 2 + 2
def CHAINPAY_RECEIPT_SPACE : Nat := 8 + 32 * 8 + 8 * 2 + 2 + 1 + 8 * 7 + 32
def CHAINPAY_RECEIPT_SETTLED : UInt8 := 1
def RECEIPT_DISCRIMINATOR : Bytes := [168, 198, 209, 4, 60, 235, 126, 109]

/-- The receipt fields `record_repayment` checks. -/
structure ChainpayReceiptFields where
  mandate : Pubkey
  invoiceHash : Hash
  mint : Pubkey
  recipientTokenAccount : Pubkey
  amount : Nat
  agent : Pubkey
  status : UInt8
  bump : UInt8
  deriving DecidableEq, Repr

/-- The 32 bytes from `start` on. -/
def bytes32 (data : Bytes) (start : Nat) : Hash :=
  BitVec.ofNat 256 (ofBeBytes ((data.drop start).take 32))

/-- Decodes either layout ChainPay has written. Every field read here has the same
offset in both, and every 371-byte account decodes as the current receipt. -/
def decodeChainpayReceipt (data : Bytes) : Except Err ChainpayReceiptFields := do
  ensure ((data.length = CHAINPAY_RECEIPT_SPACE_V1 ∨ data.length = CHAINPAY_RECEIPT_SPACE) ∧
    data.take 8 = RECEIPT_DISCRIMINATOR) (.policy .invalidRepaymentReceipt)
  return {
    mandate := bytes32 data 8
    invoiceHash := bytes32 data 40
    mint := bytes32 data 104
    recipientTokenAccount := bytes32 data 168
    amount := ofLeBytes ((data.drop 200).take 8)
    agent := bytes32 data 208
    status := data.getD 280 0
    bump := data.getD 281 0 }

def repayAgentAddress [Runtime] (binding : Pubkey) : Pubkey × UInt8 :=
  Runtime.findProgramAddress [REPAY_AGENT_SEED, Hash.bytes binding] ID

/-- Every check on the ChainPay receipt; returns what it proves paid, in cents. -/
def verifyRepaymentReceipt [Runtime] (binding : Pubkey) (statementDigest : Hash)
    (receipt recipientTokenAccount mint : AccountInfo) : Except Err Nat := do
  ensure (receipt.owner = CHAINPAY_ID) (.policy .invalidRepaymentReceipt)
  let r ← decodeChainpayReceipt receipt.data
  let expected ← okOr (Runtime.createProgramAddress
    [CHAINPAY_RECEIPT_SEED, Hash.bytes r.mandate, Hash.bytes statementDigest, [r.bump]]
    CHAINPAY_ID) (.policy .invalidRepaymentReceipt)
  ensure (expected = receipt.key ∧ r.invoiceHash = statementDigest ∧
    r.status = CHAINPAY_RECEIPT_SETTLED ∧ r.agent = (repayAgentAddress binding).1)
    (.policy .invalidRepaymentReceipt)
  ensure (r.recipientTokenAccount = recipientTokenAccount.key)
    (.policy .repaymentRecipientMismatch)
  let tokenProgram := recipientTokenAccount.owner
  ensure (tokenProgram = SPL_TOKEN ∨ tokenProgram = TOKEN_2022)
    (.policy .repaymentRecipientMismatch)
  ensure (165 ≤ recipientTokenAccount.data.length ∧ bytes32 recipientTokenAccount.data 0 = r.mint)
    (.policy .repaymentRecipientMismatch)
  ensure (mint.key = r.mint ∧ mint.owner = tokenProgram) (.policy .invalidRepaymentReceipt)
  ensure (82 ≤ mint.data.length) (.policy .invalidRepaymentReceipt)
  let decimals := (mint.data.getD 44 0).toNat
  -- base units per cent; a payment that is no whole number of cents rounds down
  ensure (2 ≤ decimals) (.policy .invalidRepaymentReceipt)
  ensure (10 ^ (decimals - 2) < 2 ^ 64) (.policy .mathOverflow)
  return r.amount / 10 ^ (decimals - 2)

/-! ## Instructions -/

/-- The owner's ChainPay mandate, as far as this program checks it. -/
structure MandateRef where
  key : Pubkey
  owner : Pubkey
  approvedAgent : Pubkey
  deriving DecidableEq, Repr

def repayStatement [Runtime] (ctx : Ctx) (owner : Pubkey) (mandate : MandateRef)
    (receipt : Pubkey) (statementDigest : Hash) (amount : Nat) (s : State) :
    Except Err State := do
  requireSigner ctx owner
  ensure (s.binding.owner = owner) (.policy .unauthorized)
  ensure (mandate.owner = s.binding.owner) (.policy .invalidRepaymentMandate)
  ensure (mandate.approvedAgent = (repayAgentAddress s.policy.binding).1)
    (.policy .invalidRepaymentMandate)
  ensure (0 < amount) (.policy .invalidAmount)
  requireEventId statementDigest
  ensure ((Runtime.findProgramAddress
      [CHAINPAY_RECEIPT_SEED, Hash.bytes mandate.key, Hash.bytes statementDigest]
      CHAINPAY_ID).1 = receipt) (.policy .invalidRepaymentReceipt)
  cpi ctx
  return s

def REPAYMENT_CHAINPAY_RECEIPT : UInt8 := 1
def REPAYMENT_PRIVATE_ATTESTED : UInt8 := 2

/-- Lowers the outstanding balance once per digest still in the ring. -/
def applyRepayment (policy : CardPolicy) (periodIndex : Nat) (statementDigest : Hash)
    (amountCents : Nat) (method : UInt8) (now : Int) : Except Err CardPolicy := do
  ensure (0 < amountCents) (.policy .invalidAmount)
  requireEventId statementDigest
  ensure (policy.repayments.contains statementDigest = false) (.policy .duplicateRepayment)
  ensure (amountCents ≤ policy.statementOutstandingCents) (.policy .repaymentExceedsOutstanding)
  let outstanding ← sub policy.statementOutstandingCents amountCents
  appendLedger
    { policy with
      statementOutstandingCents := outstanding
      repayments := policy.repayments.push statementDigest }
    { kind := .repayment, eventIdHash := statementDigest, amountCents := amountCents
      stateAfter := method }
    periodIndex now

def recordRepayment [Runtime] (ctx : Ctx) (signer : Pubkey) (statementDigest : Hash)
    (amountCents : Nat) (receipt recipientTokenAccount mint : AccountInfo) (s : State) :
    Except Err State := do
  signerContext ctx signer s
  requireAuthorizer s.policy signer
  let paidCents ← verifyRepaymentReceipt s.policy.binding statementDigest receipt
    recipientTokenAccount mint
  ensure (amountCents ≤ paidCents) (.policy .repaymentExceedsReceipt)
  let policy ← applyRepayment s.policy s.period.periodIndex statementDigest amountCents
    REPAYMENT_CHAINPAY_RECEIPT ctx.now
  return { s with policy := policy }

def recordPrivateRepayment (ctx : Ctx) (signer : Pubkey) (statementDigest : Hash)
    (amountCents : Nat) (s : State) : Except Err State := do
  signerContext ctx signer s
  requireAuthorizer s.policy signer
  let policy ← applyRepayment s.policy s.period.periodIndex statementDigest amountCents
    REPAYMENT_PRIVATE_ATTESTED ctx.now
  return { s with policy := policy }

/-! ## Moves -/

section Moves

variable {ctx : Ctx} {k : Pubkey} {s s' : State} {d : Hash} {a : Nat}

theorem repayStatement_credit [Runtime] {m : MandateRef} {r : Pubkey}
    (h : repayStatement ctx k m r d a s = .ok s') : s'.credit = s.credit := by
  simp only [repayStatement, bind_eq_ok, exists_unit, pure_eq_ok] at h
  obtain ⟨-, -, -, -, -, -, -, -, rfl⟩ := h
  rfl

theorem applyRepayment_move {p : CardPolicy} {i : Nat} {b : UInt8} {t : Int}
    (hauth : Credit.Authorized ctx.signers s.credit)
    (h : applyRepayment s.policy i d a b t = .ok p) :
    Move ctx.signers s.credit (.repay d a) ({ s with policy := p } : State).credit := by
  simp only [applyRepayment, bind_eq_ok, exists_unit, requireEventId_eq_ok, ensure_eq_ok,
    sub_eq_ok] at h
  obtain ⟨hpos, hd, hnew, hle, _, ⟨-, rfl⟩, hp⟩ := h
  simp only [State.credit, appendLedger_terms hp]
  exact .repay hauth hpos hd hnew hle

theorem recordRepayment_move [Runtime] {r t m : AccountInfo}
    (h : recordRepayment ctx k d a r t m s = .ok s') :
    (∃ paid, verifyRepaymentReceipt s.policy.binding d r t m = .ok paid ∧ a ≤ paid) ∧
      Move ctx.signers s.credit (.repay d a) s'.credit := by
  simp only [recordRepayment, bind_eq_ok, exists_unit, signerContext_eq_ok,
    requireAuthorizer_eq_ok, ensure_eq_ok, pure_eq_ok] at h
  obtain ⟨⟨hsig, -⟩, ⟨hset, hk⟩, paid, hver, hle, p, hp, rfl⟩ := h
  exact ⟨⟨paid, hver, hle⟩, applyRepayment_move (authorized_of hsig hset hk) hp⟩

theorem recordPrivateRepayment_move (h : recordPrivateRepayment ctx k d a s = .ok s') :
    Move ctx.signers s.credit (.repay d a) s'.credit := by
  simp only [recordPrivateRepayment, bind_eq_ok, exists_unit, signerContext_eq_ok,
    requireAuthorizer_eq_ok, pure_eq_ok] at h
  obtain ⟨⟨hsig, -⟩, ⟨hset, hk⟩, p, hp, rfl⟩ := h
  exact applyRepayment_move (authorized_of hsig hset hk) hp

end Moves

end ChainPay.Card
