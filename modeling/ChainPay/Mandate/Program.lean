import ChainPay.Card.State
import ChainPay.Lib.Checked
import ChainPay.Lib.Table
import ChainPay.Lib.Runs

/-!
The `chainpay` program: an owner's mandate lets an approved agent pay invoices out of
the owner's token account, within limits the owner can change, pause and revoke. Every
payment leaves a receipt account, at an address derived from the mandate and the
invoice.

All accounts of the program live in one address space. An instruction gets the token
accounts it names as values, since the token program keeps them.
-/

namespace ChainPay.Mandate
open ChainPay.Lib ChainPay.Card

/-! ## Accounts -/

structure ProtocolConfig where
  authority : Pubkey
  supportedMints : Vector Pubkey 3
  deriving DecidableEq

structure SupportedAsset where
  authority : Pubkey
  mint : Pubkey
  tokenProgram : Pubkey
  enabled : Bool
  deriving DecidableEq, Repr

structure PaymentMandate where
  owner : Pubkey
  approvedAgent : Pubkey
  sourceTokenAccount : Pubkey
  allowedMint : Pubkey
  /-- The nonce of a new mandate, the fixed recipient of an old one. -/
  legacyAllowedRecipient : Pubkey
  maxPerPayment : Nat
  totalLimit : Nat
  amountSpent : Nat
  paymentCount : Nat
  expiresAtSlot : Nat
  /-- Zero for no limit. -/
  maxPaymentCount : Nat
  cooldownSlots : Nat
  /-- Zero before the first payment. -/
  lastPaymentSlot : Nat
  paused : Bool
  revoked : Bool
  deriving DecidableEq, Repr

structure PaymentReceipt where
  mandate : Pubkey
  invoiceHash : Hash
  paymentId : Hash
  mint : Pubkey
  sourceTokenAccount : Pubkey
  recipientTokenAccount : Pubkey
  amount : Nat
  agent : Pubkey
  executedAtSlot : Nat
  signatureReference : Hash
  status : UInt8
  snapshotVersion : UInt8
  policyMaxPerPayment : Nat
  policyTotalLimit : Nat
  policyAmountSpentAfter : Nat
  policyPaymentCountAfter : Nat
  policyMaxPaymentCount : Nat
  policyExpiresAtSlot : Nat
  policyCooldownSlots : Nat
  deriving DecidableEq, Repr

inductive Account where
  | config (c : ProtocolConfig)
  | asset (a : SupportedAsset)
  | mandate (x : PaymentMandate)
  | receipt (r : PaymentReceipt)
  deriving DecidableEq

abbrev State := Table Pubkey Account

def mandateAt (s : State) (m : Pubkey) : Option PaymentMandate :=
  match s.lookup m with
  | some (.mandate x) => some x
  | _ => none

def receiptAt (s : State) (a : Pubkey) : Option PaymentReceipt :=
  match s.lookup a with
  | some (.receipt r) => some r
  | _ => none

/-- A mint account: its address and the token program that owns it. -/
structure Mint where
  key : Pubkey
  program : Pubkey
  deriving DecidableEq, Repr

structure TokenAccount where
  key : Pubkey
  owner : Pubkey
  mint : Pubkey
  delegate : Option Pubkey
  delegatedAmount : Nat
  program : Pubkey
  deriving DecidableEq, Repr

/-! ## Errors -/

inductive ChainPayError where
  | invalidConfigAuthority
  | unsupportedMint
  | invalidSupportedMintList
  | assetNotEnabled
  | invalidAssetAuthority
  | invalidTokenProgram
  | invalidAgent
  | invalidMandateNonce
  | invalidSourceTokenAccount
  | invalidSourceMint
  | invalidRecipientMint
  | invalidRecipient
  | invalidMint
  | invalidPerPaymentLimit
  | invalidTotalLimit
  | invalidExpiry
  | mandatePaused
  | mandateRevoked
  | mandateExpired
  | invalidPaymentAmount
  | amountExceedsPerPayment
  | totalLimitExceeded
  | paymentCountExceeded
  | paymentCooldownActive
  | invalidInvoiceHash
  | invalidPaymentId
  | invalidSignatureReference
  deriving DecidableEq, Repr

/-- A failure of the program, of its account checks, or of a call to the token program. -/
inductive Err where
  | program (e : ChainPayError)
  | account
  | transfer
  deriving DecidableEq, Repr

/-- What an instruction sees besides its accounts. -/
structure Ctx where
  signers : List Pubkey
  slot : Nat
  /-- Whether the transfer succeeds. -/
  transferOk : Bool
  deriving DecidableEq, Repr

section Addresses

variable [Runtime]

def configAddress : Pubkey := (Runtime.findProgramAddress [ascii "config"] CHAINPAY_ID).1

def assetAddress (mint : Pubkey) : Pubkey :=
  (Runtime.findProgramAddress [ascii "asset", Hash.bytes mint] CHAINPAY_ID).1

def mandateAddress (owner mint nonce : Pubkey) : Pubkey :=
  (Runtime.findProgramAddress
    [ascii "mandate", Hash.bytes owner, Hash.bytes mint, Hash.bytes nonce] CHAINPAY_ID).1

def receiptAddress (mandate : Pubkey) (invoiceHash : Hash) : Pubkey :=
  (Runtime.findProgramAddress
    [ascii "receipt", Hash.bytes mandate, Hash.bytes invoiceHash] CHAINPAY_ID).1

end Addresses

/-- Creates an account, which must not be there. -/
def init (s : State) (address : Pubkey) (a : Account) : Except Err State := do
  ensure (s.lookup address = none) .account
  return s.insert address a

/-! ## Configuration and assets -/

/-- Unset slots apart, no mint is listed twice, and one is listed. -/
def validateSupportedMints (mints : Vector Pubkey 3) : Except Err Unit := do
  let listed := mints.toList.filter fun m => decide (m ≠ 0)
  ensure listed.Nodup (.program .invalidSupportedMintList)
  ensure (listed ≠ []) (.program .invalidSupportedMintList)

section Program

variable [Runtime]

/-- The configuration, which its authority signs for. -/
def configContext (ctx : Ctx) (authority : Pubkey) (s : State) : Except Err ProtocolConfig :=
  match s.lookup configAddress with
  | some (.config c) => do
    ensure (authority ∈ ctx.signers) .account
    ensure (c.authority = authority) (.program .invalidConfigAuthority)
    return c
  | _ => .error .account

def initializeConfig (ctx : Ctx) (authority : Pubkey) (mints : Vector Pubkey 3) (s : State) :
    Except Err State := do
  ensure (authority ∈ ctx.signers) .account
  validateSupportedMints mints
  init s configAddress (.config ⟨authority, mints⟩)

def updateConfig (ctx : Ctx) (authority : Pubkey) (mints : Vector Pubkey 3) (s : State) :
    Except Err State := do
  let config ← configContext ctx authority s
  validateSupportedMints mints
  return s.insert configAddress (.config { config with supportedMints := mints })

def registerAsset (ctx : Ctx) (authority : Pubkey) (mint : Mint) (tokenProgram : Pubkey)
    (s : State) : Except Err State := do
  let _ ← configContext ctx authority s
  ensure (mint.program = tokenProgram) (.program .invalidTokenProgram)
  init s (assetAddress mint.key) (.asset ⟨authority, mint.key, tokenProgram, true⟩)

def setAssetStatus (ctx : Ctx) (authority : Pubkey) (address : Pubkey) (enabled : Bool)
    (s : State) : Except Err State := do
  let _ ← configContext ctx authority s
  match s.lookup address with
  | some (.asset a) => do
    ensure (address = assetAddress a.mint) .account
    ensure (a.authority = authority) (.program .invalidAssetAuthority)
    return s.insert address (.asset { a with enabled := enabled })
  | _ => .error .account

/-- The registry entry of a mint, enabled and for this token program. -/
def assetContext (s : State) (mint tokenProgram : Pubkey) : Except Err Unit :=
  match s.lookup configAddress, s.lookup (assetAddress mint) with
  | some (.config _), some (.asset a) => do
    ensure (a.enabled = true) (.program .assetNotEnabled)
    ensure (a.mint = mint) (.program .invalidMint)
    ensure (a.tokenProgram = tokenProgram) (.program .invalidTokenProgram)
  | _, _ => .error .account

/-! ## Mandates -/

structure MandateParams where
  approvedAgent : Pubkey
  sourceTokenAccount : Pubkey
  allowedMint : Pubkey
  maxPerPayment : Nat
  totalLimit : Nat
  expiresAtSlot : Nat
  maxPaymentCount : Nat
  cooldownSlots : Nat
  mandateNonce : Pubkey
  deriving DecidableEq, Repr

/-- The reserved field holds a nonce, and no fixed recipient. -/
def isMandateNonce (value : Pubkey) : Bool :=
  decide ((Hash.bytes value).take 8 = ascii "CPNONCE!")

def validateMandateParams (params : MandateParams) (currentSlot : Nat) : Except Err Unit := do
  ensure (params.approvedAgent ≠ 0) (.program .invalidAgent)
  ensure (params.mandateNonce ≠ 0 ∧ isMandateNonce params.mandateNonce = true)
    (.program .invalidMandateNonce)
  ensure (params.sourceTokenAccount ≠ 0) (.program .invalidSourceTokenAccount)
  ensure (params.allowedMint ≠ 0) (.program .invalidMint)
  ensure (0 < params.maxPerPayment) (.program .invalidPerPaymentLimit)
  ensure (params.maxPerPayment ≤ params.totalLimit) (.program .invalidTotalLimit)
  ensure (currentSlot < params.expiresAtSlot) (.program .invalidExpiry)
  ensure (params.maxPaymentCount = 0 ∨ 1 ≤ params.maxPaymentCount) (.program .paymentCountExceeded)

/-- The token accounts a mandate is created with. -/
structure CreateAccounts where
  allowedMint : Mint
  sourceTokenAccount : TokenAccount
  tokenProgram : Pubkey
  deriving DecidableEq, Repr

def createContext (ctx : Ctx) (owner : Pubkey) (params : MandateParams)
    (accounts : CreateAccounts) (s : State) : Except Err Unit := do
  assetContext s params.allowedMint accounts.tokenProgram
  ensure (owner ∈ ctx.signers) .account
  ensure (accounts.allowedMint.key = params.allowedMint) (.program .invalidMint)
  ensure (accounts.allowedMint.program = accounts.tokenProgram) (.program .invalidTokenProgram)
  ensure (accounts.sourceTokenAccount.key = params.sourceTokenAccount)
    (.program .invalidSourceTokenAccount)
  ensure (accounts.sourceTokenAccount.owner = owner) (.program .invalidSourceTokenAccount)
  ensure (accounts.sourceTokenAccount.mint = params.allowedMint) (.program .invalidSourceMint)
  ensure (accounts.sourceTokenAccount.program = accounts.tokenProgram)
    (.program .invalidTokenProgram)

def newMandate (owner : Pubkey) (params : MandateParams) : PaymentMandate where
  owner := owner
  approvedAgent := params.approvedAgent
  sourceTokenAccount := params.sourceTokenAccount
  allowedMint := params.allowedMint
  legacyAllowedRecipient := params.mandateNonce
  maxPerPayment := params.maxPerPayment
  totalLimit := params.totalLimit
  amountSpent := 0
  paymentCount := 0
  expiresAtSlot := params.expiresAtSlot
  maxPaymentCount := params.maxPaymentCount
  cooldownSlots := params.cooldownSlots
  lastPaymentSlot := 0
  paused := false
  revoked := false

def createMandate (ctx : Ctx) (owner : Pubkey) (params : MandateParams)
    (accounts : CreateAccounts) (s : State) : Except Err State := do
  createContext ctx owner params accounts s
  validateMandateParams params ctx.slot
  init s (mandateAddress owner params.allowedMint params.mandateNonce)
    (.mandate (newMandate owner params))

/-- The mandate, which its owner signs for. -/
def mandateContext (ctx : Ctx) (owner m : Pubkey) (s : State) : Except Err PaymentMandate := do
  let x ← okOr (mandateAt s m) .account
  ensure (x.owner = owner) .account
  ensure (owner ∈ ctx.signers) .account
  return x

structure MandateUpdate where
  approvedAgent : Pubkey
  maxPerPayment : Nat
  totalLimit : Nat
  expiresAtSlot : Nat
  maxPaymentCount : Nat
  cooldownSlots : Nat
  paused : Bool
  deriving DecidableEq, Repr

def PaymentMandate.update (x : PaymentMandate) (params : MandateUpdate) : PaymentMandate :=
  { x with
    approvedAgent := params.approvedAgent
    maxPerPayment := params.maxPerPayment
    totalLimit := params.totalLimit
    expiresAtSlot := params.expiresAtSlot
    maxPaymentCount := params.maxPaymentCount
    cooldownSlots := params.cooldownSlots
    paused := params.paused }

def updateMandate (ctx : Ctx) (owner m : Pubkey) (params : MandateUpdate) (s : State) :
    Except Err State := do
  let x ← mandateContext ctx owner m s
  ensure (x.revoked = false) (.program .mandateRevoked)
  ensure (params.approvedAgent ≠ 0) (.program .invalidAgent)
  ensure (0 < params.maxPerPayment) (.program .invalidPerPaymentLimit)
  ensure (params.maxPerPayment ≤ params.totalLimit ∧ x.amountSpent ≤ params.totalLimit)
    (.program .invalidTotalLimit)
  ensure (ctx.slot < params.expiresAtSlot) (.program .invalidExpiry)
  ensure (params.maxPaymentCount = 0 ∨ x.paymentCount ≤ params.maxPaymentCount)
    (.program .paymentCountExceeded)
  return s.insert m (.mandate (x.update params))

def pauseMandate (ctx : Ctx) (owner m : Pubkey) (s : State) : Except Err State := do
  let x ← mandateContext ctx owner m s
  ensure (x.revoked = false) (.program .mandateRevoked)
  return s.insert m (.mandate { x with paused := true })

def revokeMandate (ctx : Ctx) (owner m : Pubkey) (s : State) : Except Err State := do
  let x ← mandateContext ctx owner m s
  return s.insert m (.mandate { x with paused := true, revoked := true })

/-! ## Payments -/

structure PaymentParams where
  invoiceHash : Hash
  paymentId : Hash
  signatureReference : Hash
  amount : Nat
  deriving DecidableEq, Repr

/-- A mandate that was never used, or whose cooldown has passed. -/
def cooledDown (x : PaymentMandate) (currentSlot : Nat) : Except Err Unit :=
  if 0 < x.lastPaymentSlot then do
    let next ← okOr (checkedAdd 64 x.lastPaymentSlot x.cooldownSlots)
      (.program .paymentCooldownActive)
    ensure (next ≤ currentSlot) (.program .paymentCooldownActive)
  else .ok ()

def validatePayment (x : PaymentMandate) (params : PaymentParams) (currentSlot : Nat) :
    Except Err Unit := do
  ensure (x.revoked = false) (.program .mandateRevoked)
  ensure (x.paused = false) (.program .mandatePaused)
  ensure (currentSlot < x.expiresAtSlot) (.program .mandateExpired)
  ensure (0 < params.amount) (.program .invalidPaymentAmount)
  ensure (params.amount ≤ x.maxPerPayment) (.program .amountExceedsPerPayment)
  ensure (params.invoiceHash ≠ 0) (.program .invalidInvoiceHash)
  ensure (params.paymentId ≠ 0) (.program .invalidPaymentId)
  ensure (params.signatureReference ≠ 0) (.program .invalidSignatureReference)
  let spent ← okOr (checkedAdd 64 x.amountSpent params.amount) (.program .totalLimitExceeded)
  ensure (spent ≤ x.totalLimit) (.program .totalLimitExceeded)
  let count ← okOr (checkedAdd 64 x.paymentCount 1) (.program .paymentCountExceeded)
  ensure (x.maxPaymentCount = 0 ∨ count ≤ x.maxPaymentCount) (.program .paymentCountExceeded)
  cooledDown x currentSlot

/-- The token accounts of a payment. -/
structure PayAccounts where
  allowedMint : Mint
  sourceTokenAccount : TokenAccount
  recipientTokenAccount : TokenAccount
  tokenProgram : Pubkey
  deriving DecidableEq, Repr

/-- The account checks of a payment, the receipt's creation apart. -/
def payContext (ctx : Ctx) (agent m : Pubkey) (params : PaymentParams) (accounts : PayAccounts)
    (s : State) : Except Err PaymentMandate := do
  let x ← okOr (mandateAt s m) .account
  assetContext s x.allowedMint accounts.tokenProgram
  ensure (agent = x.approvedAgent ∧ agent ∈ ctx.signers) .account
  ensure (accounts.allowedMint.key = x.allowedMint) (.program .invalidMint)
  ensure (accounts.allowedMint.program = accounts.tokenProgram) (.program .invalidTokenProgram)
  let source := accounts.sourceTokenAccount
  ensure (source.key = x.sourceTokenAccount) .account
  ensure (source.owner = x.owner) (.program .invalidSourceTokenAccount)
  ensure (source.mint = x.allowedMint) (.program .invalidSourceMint)
  ensure (source.delegate = some m) (.program .invalidSourceTokenAccount)
  ensure (params.amount ≤ source.delegatedAmount) (.program .invalidSourceTokenAccount)
  ensure (source.program = accounts.tokenProgram) (.program .invalidTokenProgram)
  let recipient := accounts.recipientTokenAccount
  ensure (isMandateNonce x.legacyAllowedRecipient = true ∨ x.legacyAllowedRecipient = 0 ∨
    recipient.key = x.legacyAllowedRecipient) (.program .invalidRecipient)
  ensure (recipient.mint = x.allowedMint) (.program .invalidRecipientMint)
  ensure (recipient.program = accounts.tokenProgram) (.program .invalidTokenProgram)
  return x

def RECEIPT_STATUS_SETTLED : UInt8 := 1
def RECEIPT_SNAPSHOT_VERSION : UInt8 := 1

/-- The mandate after a payment of `amount`. -/
def PaymentMandate.pay (x : PaymentMandate) (amount slot : Nat) : PaymentMandate :=
  { x with
    amountSpent := x.amountSpent + amount
    paymentCount := x.paymentCount + 1
    lastPaymentSlot := slot }

/-- The receipt of a payment, with the limits it was checked against and the spend and
count after it. -/
def PaymentMandate.receipt (x : PaymentMandate) (m agent recipient : Pubkey)
    (params : PaymentParams) (slot : Nat) : PaymentReceipt where
  mandate := m
  invoiceHash := params.invoiceHash
  paymentId := params.paymentId
  mint := x.allowedMint
  sourceTokenAccount := x.sourceTokenAccount
  recipientTokenAccount := recipient
  amount := params.amount
  agent := agent
  executedAtSlot := slot
  signatureReference := params.signatureReference
  status := RECEIPT_STATUS_SETTLED
  snapshotVersion := RECEIPT_SNAPSHOT_VERSION
  policyMaxPerPayment := x.maxPerPayment
  policyTotalLimit := x.totalLimit
  policyAmountSpentAfter := x.amountSpent
  policyPaymentCountAfter := x.paymentCount
  policyMaxPaymentCount := x.maxPaymentCount
  policyExpiresAtSlot := x.expiresAtSlot
  policyCooldownSlots := x.cooldownSlots

def executePayment (ctx : Ctx) (agent m : Pubkey) (params : PaymentParams)
    (accounts : PayAccounts) (s : State) : Except Err State := do
  let x ← payContext ctx agent m params accounts s
  ensure (s.lookup (receiptAddress m params.invoiceHash) = none) .account
  validatePayment x params ctx.slot
  ensure (ctx.transferOk = true) .transfer
  -- the two additions are checked again here; `validatePayment` found that they fit
  let x := x.pay params.amount ctx.slot
  let r := x.receipt m agent accounts.recipientTokenAccount.key params ctx.slot
  return (s.insert m (.mandate x)).insert (receiptAddress m params.invoiceHash) (.receipt r)

/-! ## The program -/

inductive Instr where
  | initializeConfig (authority : Pubkey) (mints : Vector Pubkey 3)
  | updateConfig (authority : Pubkey) (mints : Vector Pubkey 3)
  | registerAsset (authority : Pubkey) (mint : Mint) (tokenProgram : Pubkey)
  | setAssetStatus (authority address : Pubkey) (enabled : Bool)
  | createMandate (owner : Pubkey) (params : MandateParams) (accounts : CreateAccounts)
  | updateMandate (owner m : Pubkey) (params : MandateUpdate)
  | pauseMandate (owner m : Pubkey)
  | revokeMandate (owner m : Pubkey)
  | executePayment (agent m : Pubkey) (params : PaymentParams) (accounts : PayAccounts)

structure Call where
  ctx : Ctx
  instr : Instr

def exec (s : State) (call : Call) : Except Err State :=
  match call.instr with
  | .initializeConfig a mints => initializeConfig call.ctx a mints s
  | .updateConfig a mints => updateConfig call.ctx a mints s
  | .registerAsset a mint p => registerAsset call.ctx a mint p s
  | .setAssetStatus a address enabled => setAssetStatus call.ctx a address enabled s
  | .createMandate o params accounts => createMandate call.ctx o params accounts s
  | .updateMandate o m params => updateMandate call.ctx o m params s
  | .pauseMandate o m => pauseMandate call.ctx o m s
  | .revokeMandate o m => revokeMandate call.ctx o m s
  | .executePayment a m params accounts => executePayment call.ctx a m params accounts s

end Program

end ChainPay.Mandate
