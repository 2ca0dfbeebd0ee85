import ChainPay.Relay.Store
import Mathlib.Data.List.Infix

/-!
The relay's payment handlers, as calls over the store: submitting a payment signed by the
owner or by a managed signer, taking up a submission that exists, recovering one from its
signed bytes, cancelling a key that was never used, and reading a payment's status. Each
await of the source is one operation here, in the same order.
-/

namespace ChainPay.Relay
open ChainPay.Lib

abbrev M := Call Op Op.Ans ApiError

/-! ## Awaits -/

def need {β : Type} : Option β → M β
  | some b => .ret b
  | none => .fail .storage

def rpc {β : Type} : Except RpcError β → M β
  | .ok b => .ret b
  | .error e => .fail (.rpc e)

def findPaymentByIdempotency (key : String) : M (Option PaymentRecord) :=
  .await (.findPaymentByIdempotency key) need

def operationRecord (id : String) : M (Option Claim) := .await (.operationRecord id) need

def operationOwner (id : String) : M (Option String) := .await (.operationOwner id) need

def getPayment (id : String) : M (Option PaymentRecord) := .await (.getPayment id) need

def getTransaction (id : String) : M Bool := .await (.getTransaction id) need

def claimOperation (id owner : String) (intent : Bound) (initial : Initial) : M (Bool × Claim) :=
  .await (.claimOperation id owner intent initial) need

def putPayment (record : PaymentRecord) : M Unit := .await (.putPayment record) need

def findX402 (key : String) : M (Option Job) := .await (.findX402 key) need

def findOtherJob (owner reference key : String) : M Bool :=
  .await (.findOtherJob owner reference key) need

def putX402 (job : Job) : M Unit := .await (.putX402 job) need

def putReceiptRequest : M Unit := .await .putReceiptRequest need

def findManagedSigner (publicKey : String) : M (Option ManagedSigner) :=
  .await (.findManagedSigner publicKey) need

def putManagedSigner (signer : ManagedSigner) : M Unit := .await (.putManagedSigner signer) need

def signTransaction (walletId unsigned : String) : M String :=
  .await (.signTransaction walletId unsigned) fun
    | some signed => .ret signed
    | none => .fail .signerProvider

def accountInfo (address : String) : M (Option RpcAccount) := .await (.accountInfo address) rpc

def currentSlot : M Nat := .await .currentSlot rpc

def signatureStatus (signature : String) : M (Option SignatureStatus) :=
  .await (.signatureStatus signature) rpc

/-- The status with the error the caller looks at itself. -/
def trySignatureStatus (signature : String) : M (Except RpcError (Option SignatureStatus)) :=
  .await (.signatureStatus signature) .ret

def blockhashValid (blockhash : String) : M Bool := .await (.blockhashValid blockhash) rpc

def sendTransaction (origin : Origin) (bytes : String) : M (Except RpcError Unit) :=
  .await (.sendTransaction origin bytes) .ret

def now : M Nat := Call.now

/-! ## Errors -/

def conflict : ApiError := .conflict "Idempotency key already binds a different immutable intent"

def orderConflict : ApiError :=
  .conflict ("this Crossmint order already has a payment operation; recover that operation " ++
    "instead of paying again")

def duplicateInvoiceMessage : String := "This invoice was already paid. Nothing new was submitted."

def outcomeUnknown : String :=
  "Submission outcome unknown; awaiting chain reconciliation. Keep this operation and signature."

/-- The error of one send proves that the transaction was refused. -/
def deterministicFailure : RpcError → Bool
  | .transactionFailed _ => true
  | .remote code message =>
    let squeezed := (message.toList.map Char.toLower).filter (· ≠ ' ')
    !decide ("alreadyprocessed".toList <:+: squeezed) &&
      (code = -32002 || code = -32003 || code = -32602)
  | .busy | .other => false

/-- No byte of the transaction left the process. -/
def provablyUnsent : RpcError → Bool
  | .busy => true
  | _ => false

def rejectionReason (error : RpcError) : String :=
  let start := "Transaction rejected by chain or preflight"
  let detail := match error with
    | .remote _ message | .transactionFailed message => rustTrim message.toList
    | .busy | .other => []
  if detail.isEmpty then start
  else start ++ ": " ++ String.ofList ((rustTrim (detail.takeWhile (· ≠ '\n'))).take 200)

def isDuplicateReceiptError (message : String) (receiptAddress : Option String) : Bool :=
  receiptAddress.any fun receipt => contains message "already in use" && contains message receipt

/-- The record after a failed send, by the error alone. -/
def paymentError (record : PaymentRecord) (error : RpcError) (now : Nat) : PaymentRecord :=
  let duplicate := match error with
    | .remote _ message => isDuplicateReceiptError message record.receiptAddress
    | _ => false
  { record with
    status := if deterministicFailure error then .failed else .submitted
    error := some (
      if deterministicFailure error && duplicate then duplicateInvoiceMessage
      else if deterministicFailure error then rejectionReason error
      else outcomeUnknown)
    updatedAtMs := now }

def busyMessage : String := "RPC capacity is busy; retry the existing operation later"

/-- Back to Prepared: the same bytes may be sent again. -/
def unsentRecord (record : PaymentRecord) (now : Nat) : PaymentRecord :=
  { record with status := .prepared, error := some busyMessage, updatedAtMs := now }

def knownUnsent (record : PaymentRecord) : Bool := record.status = .prepared

/-! ## Reading the chain -/

def hexDigit (c : Char) : Option Nat :=
  if '0' ≤ c ∧ c ≤ '9' then some (c.toNat - 48)
  else if 'a' ≤ c ∧ c ≤ 'f' then some (c.toNat - 87)
  else if 'A' ≤ c ∧ c ≤ 'F' then some (c.toNat - 55)
  else none

def hexBytes : List Char → Option (List Nat)
  | [] => some []
  | [_] => none
  | a :: b :: rest => do
    let hi ← hexDigit a
    let lo ← hexDigit b
    let bytes ← hexBytes rest
    return (16 * hi + lo) :: bytes

def dropHexPrefix : List Char → List Char
  | '0' :: 'x' :: rest => dropHexPrefix rest
  | l => l

def decodeHex32 (value : String) : Option (List Nat) :=
  let digits := dropHexPrefix (rustTrim value.toList)
  if digits.length = 64 then hexBytes digits else none

section

variable [R : Deployment]

/-- A settled receipt of exactly this payment. -/
def verifyReceiptAccount (account : RpcAccount) (record : PaymentRecord) : Bool :=
  match account.data with
  | .receipt data =>
    account.owner = R.programId && data.mandate = record.mandate &&
      some data.invoiceHash = decodeHex32 record.invoiceHash &&
      record.mint.all (data.mint = ·) && record.recipient.all (data.recipient = ·) &&
      record.amount.all (data.amount = ·) && record.agent.all (data.agent = ·) &&
      data.status = 1
  | _ => false

def verifyFinalizedReceipt (record : PaymentRecord) : M Bool :=
  match record.receiptAddress with
  | none => .ret false
  | some address =>
    .await (.accountInfo address) fun
      | .ok (some account) => .ret (verifyReceiptAccount account record)
      | _ => .ret false

def ensureMandateSendable (account : RpcAccount) (slot : Nat) : Except ApiError MandateData :=
  match account.data with
  | .mandate data =>
    if account.owner ≠ R.programId then .error .unauthorized
    else if data.paused ∨ data.revoked then
      .error (.badRequest "payment mandate is paused or revoked")
    else if data.expiresAtSlot ≤ slot then .error (.badRequest "payment mandate has expired")
    else .ok data
  | _ => .error .unauthorized

def accountsMissing : ApiError := .badRequest "Payment instruction accounts are missing"

/-- The payment names the mandate's own agent, mint and source. -/
def checkBinding (accounts : List (Option String)) (data : MandateData) : Except ApiError Unit :=
  [(4, data.agent), (5, data.mint), (6, data.source)].forM fun (position, expected) =>
    match accounts[position]?.join with
    | none => .error accountsMissing
    | some key =>
      if key = expected then .ok ()
      else .error (.badRequest "Payment agent/mint/source differs from on-chain mandate")

def validateLivePaymentAt (tx : Transaction) (mandate : String) : M Unit :=
  match tx.message.accounts with
  | none => .fail (.badRequest "Payment instruction is missing")
  | some accounts => do
    match ← accountInfo mandate with
    | none => .fail .notFound
    | some account => do
      let slot ← currentSlot
      let data ← Call.ofExcept (ensureMandateSendable account slot)
      match accounts[3]?.join with
      | none => .fail accountsMissing
      | some receipt => do
        match ← accountInfo receipt with
        | some _ => .fail (.duplicateInvoice receipt)
        | none => Call.ofExcept (checkBinding accounts data)

def validateLivePayment (request : PaymentSubmissionRequest) : M Unit := do
  let tx ← Call.ofExcept (decodeTransaction request.signedTransaction)
  validateLivePaymentAt tx request.mandate

/-! ## Authorization -/

def Scope.permits (scope : Scope) (address tool : String) : Bool :=
  scope.mandates.contains address &&
    (scope.tools.contains tool || (tool = "get_payment" && scope.tools.contains "wait_for_payment"))

/-- The live mandate account of this owner. -/
def ownedMandateAccount (wallet address : String) : M MandateData :=
  if R.validAddress address = false then .fail (.badRequest "mandate must be a Solana address")
  else do
    match ← accountInfo address with
    | none => .fail (.forbidden "Mandate unavailable")
    | some account =>
      match account.data with
      | .mandate data =>
        if account.owner ≠ R.programId then .fail (.forbidden "Invalid mandate")
        else if data.owner ≠ wallet then .fail (.forbidden "Mandate belongs to another owner")
        else .ret data
      | _ => .fail (.forbidden "Invalid mandate")

def mandate (principal : Principal) (address tool : String) : M Unit :=
  if principal.scope.any fun scope => !scope.permits address tool then
    .fail (.forbidden "Connection does not permit this mandate or tool")
  else do
    let data ← ownedMandateAccount principal.wallet address
    if principal.scope.any fun scope => scope.agents.lookup address ≠ some data.agent then
      .fail (.forbidden "Mandate agent changed. Reconnect.")
    else .ret ()

def authorizePayment (principal : Principal) (record : PaymentRecord) (tool : String) : M Unit := do
  match ← operationOwner record.paymentId with
  | some owner =>
    if owner ≠ principal.wallet then .fail (.forbidden "Operation belongs to another owner")
    else if principal.scope.isNone then .ret ()
    else mandate principal record.mandate tool
  | none => mandate principal record.mandate tool

/-! ## Connectors -/

inductive ConnectorMetadata where
  | x402 (metadata : X402Metadata)
  | crossmint (metadata : CrossmintMetadata)
  deriving DecidableEq

/-- The connector of a payment: x402 comes first. -/
def connectorOf (x402 : Option X402Metadata) (crossmint : Option CrossmintMetadata) :
    Option ConnectorMetadata :=
  match x402 with
  | some metadata => some (.x402 metadata)
  | none => crossmint.map .crossmint

def connectorMetadata (request : PaymentSubmissionRequest) : Option ConnectorMetadata :=
  connectorOf request.x402 request.crossmint

def connectorOperation (request : PaymentSubmissionRequest) : String :=
  match connectorMetadata request with
  | some (.x402 _) => "execute_x402_payment"
  | some (.crossmint _) => "execute_crossmint_payment"
  | none => "execute_payment"

def PaymentStatus.job : PaymentStatus → JobStatus
  | .prepared => .prepared
  | .submitted => .submitted
  | .confirmed => .confirmed
  | .failed => .failed

def jobOf (payment : PaymentRecord) : ConnectorMetadata → Job
  | .x402 x402 =>
    { x402PaymentId := deterministicId "x402" payment.idempotencyKey
      idempotencyKey := payment.idempotencyKey
      connector := .x402
      connectorReference := none
      resource := x402.resource
      challenge := x402.challenge
      status := payment.status.job
      updatedAtMs := payment.updatedAtMs }
  | .crossmint crossmint =>
    { x402PaymentId := deterministicId "crossmint" payment.idempotencyKey
      idempotencyKey := payment.idempotencyKey
      connector := .crossmint
      connectorReference := some crossmint.orderId
      resource := crossmint.orderUrl.getD ("crossmint:order:" ++ crossmint.orderId)
      challenge := crossmint.terms
      status := payment.status.job
      updatedAtMs := payment.updatedAtMs }

def persistPayment (payment : PaymentRecord) (metadata : Option ConnectorMetadata) : M Unit := do
  putPayment payment
  match metadata with
  | none => .ret ()
  | some metadata => putX402 (jobOf payment metadata)

def crossmintMetadataFromJob (job : Job) : Except ApiError CrossmintMetadata :=
  match job.connectorReference with
  | none => .error conflict
  | some orderId =>
    .ok ⟨orderId, if job.resource = "crossmint:order:" ++ orderId then none else some job.resource,
      job.challenge⟩

/-- The connector a stored payment is kept with: its job's, or the one its claim binds. -/
def storedConnector (record : PaymentRecord) : M (Option ConnectorMetadata) := do
  match ← findX402 record.idempotencyKey with
  | some job =>
    match job.connector with
    | .x402 => .ret (some (.x402 ⟨job.resource, job.challenge⟩))
    | .crossmint => do
      let metadata ← Call.ofExcept (crossmintMetadataFromJob job)
      .ret (some (.crossmint metadata))
  | none => do
    match (← operationRecord record.paymentId).map Claim.intent with
    | some (.payment intent) => .ret (connectorOf intent.x402 intent.crossmint)
    | _ => .ret none

/-- Binds the owner's order to one payment operation. -/
def reserveCrossmintOrder (principal : Principal) (request : PaymentSubmissionRequest) : M Unit :=
  match request.crossmint with
  | none => .ret ()
  | some crossmint => do
    if ← findOtherJob principal.wallet crossmint.orderId request.idempotencyKey then
      .fail orderConflict
    else do
      let (_, claim) ← claimOperation (orderClaimId principal.wallet crossmint.orderId)
        principal.wallet (.order request.idempotencyKey) .null
      if claim.owner ≠ principal.wallet ∨ claim.intent ≠ .order request.idempotencyKey then
        .fail orderConflict
      else .ret ()

/-! ## Reservation and reconciliation -/

def signature (encoded : String) : Except ApiError String := do
  let tx ← decodeTransaction encoded
  match tx.signatures.head? with
  | some signature => .ok signature
  | none => .error (.badRequest "Transaction has no signature")

def messageHash (tx : Transaction) : String := R.sha256Hex tx.message.serialized

def intent (request : PaymentSubmissionRequest) (mode : SigningMode) : Except ApiError Intent := do
  let tx ← decodeTransaction request.signedTransaction
  .ok
    { mandate := request.mandate
      invoice := R.lowercase request.invoiceHash
      receipt := request.receiptAddress
      agent := request.agent
      mint := request.mint
      recipient := request.recipient
      amount := request.amount
      tokenProgram := request.tokenProgram
      mode := mode
      message := messageHash tx
      x402 := request.x402
      crossmint := request.crossmint }

def reservedMessage : String :=
  "Reserved and not yet sent. Retry this same request or recover with the original signed " ++
    "bytes; do not sign a replacement."

/-- The record a payment starts with. -/
def initialRecord (request : PaymentSubmissionRequest) (mode : SigningMode)
    (signature : Option String) (created updated : Nat) : PaymentRecord where
  paymentId := paymentId request.idempotencyKey
  idempotencyKey := request.idempotencyKey
  mandate := request.mandate
  invoiceHash := request.invoiceHash
  receiptAddress := request.receiptAddress
  agent := request.agent
  mint := request.mint
  recipient := some request.recipient
  amount := request.amount
  tokenProgram := request.tokenProgram
  signingMode := mode
  signature := signature
  slot := none
  status := .prepared
  error := some reservedMessage
  createdAtMs := created
  updatedAtMs := updated

/-- Only the owner's signature is known in advance. -/
def ownSignature (request : PaymentSubmissionRequest) :
    SigningMode → Except ApiError (Option String)
  | .human => (signature request.signedTransaction).map some
  | .delegated => .ok none

def initial (request : PaymentSubmissionRequest) (mode : SigningMode) : M PaymentRecord := do
  let signature ← Call.ofExcept (ownSignature request mode)
  let created ← now
  let updated ← now
  .ret (initialRecord request mode signature created updated)

def chainFailed : String := "Transaction failed on chain"

def receiptPending : String :=
  "Transaction finalized; receipt verification pending. Do not create a replacement payment."

def outcomePending : String :=
  "Submission outcome pending chain reconciliation. Keep the existing operation."

/-- The record a signature's status supports, and whether it is confirmed now. -/
def reconcile (record : PaymentRecord) :
    Except RpcError (Option SignatureStatus) → M (PaymentRecord × Bool)
  | .ok (some status) =>
    if status.finalized then
      if status.error.isSome then
        .ret ({ record with status := .failed, error := some chainFailed }, false)
      else do
        if ← verifyFinalizedReceipt record then
          .ret ({ record with status := .confirmed, slot := status.slot, error := none }, true)
        else .ret ({ record with status := .submitted, error := some receiptPending }, false)
    else .ret (pending record, false)
  | _ => .ret (pending record, false)
where
  pending (record : PaymentRecord) : PaymentRecord :=
    if record.status = .prepared then record
    else { record with status := .submitted, error := some outcomePending }

/-- A confirmed payment's owner is read for the webhook events. -/
def announce (record : PaymentRecord) (confirmedNow : Bool) : M Unit :=
  if confirmedNow && R.webhooks then do
    let _ ← operationOwner record.paymentId
    .ret ()
  else .ret ()

/-- Reconciles a record with the chain and stores it. -/
def payment (record : PaymentRecord) : M PaymentRecord :=
  if record.status.terminal then .ret record
  else
    match record.signature with
    | none => .ret record
    | some signature => do
      let (record, confirmedNow) ← reconcile record (← trySignatureStatus signature)
      let time ← now
      let record := { record with updatedAtMs := time }
      let connector ← storedConnector record
      announce record confirmedNow
      persistPayment record connector
      let stored ← getPayment record.paymentId
      .ret (stored.getD record)

/-- The stored row, or else the record the operation was claimed with. -/
def storedOr (initial : Initial) (unreadable : ApiError) : Option PaymentRecord → M PaymentRecord
  | some record => .ret record
  | none =>
    match initial with
    | .payment record => .ret record
    | _ => .fail unreadable

/-- The record of a claimed submission, once its owner and intent are the caller's. -/
def takeUp (principal : Principal) (request : PaymentSubmissionRequest) (mode : SigningMode)
    (claim : Claim) : M PaymentRecord :=
  if claim.owner ≠ principal.wallet then .fail .unauthorized
  else do
    let desired ← Call.ofExcept (intent request mode)
    if claim.intent ≠ .payment desired then .fail conflict
    else do
      let stored ← getPayment (paymentId request.idempotencyKey)
      let record ← storedOr claim.initial (.conflict "Operation reservation needs recovery") stored
      authorizePayment principal record (connectorOperation request)
      payment record

def existingPayment (principal : Principal) (request : PaymentSubmissionRequest)
    (mode : SigningMode) : M (Option PaymentRecord) :=
  match stripPrefix (principal.wallet ++ ":") request.idempotencyKey with
  | none => .fail .unauthorized
  | some userKey => do
    let legacyKey := principal.wallet ++ ":" ++ request.mandate ++ ":" ++ userKey
    match ← findPaymentByIdempotency legacyKey with
    | some old => do
      authorizePayment principal old (connectorOperation request)
      .fail (.conflict ("Existing operation " ++ old.paymentId ++
        " predates intent hashes; query that operation instead of submitting again"))
    | none => do
      match ← operationRecord (paymentId request.idempotencyKey) with
      | some claim => some <$> takeUp principal request mode claim
      | none => do
        match ← getPayment (paymentId request.idempotencyKey) with
        | some _ =>
          .fail (.conflict ("Legacy operation has no authenticated intent reservation; " ++
            "use its status endpoint"))
        | none => .ret none

def reservePayment (principal : Principal) (request : PaymentSubmissionRequest)
    (mode : SigningMode) : M (Bool × PaymentRecord) := do
  let record ← initial request mode
  let desired ← Call.ofExcept (intent request mode)
  let (won, claim) ← claimOperation record.paymentId principal.wallet (.payment desired)
    (.payment record)
  if claim.owner ≠ principal.wallet ∨ claim.intent ≠ .payment desired then .fail conflict
  else do
    let stored ← getPayment record.paymentId
    let existing ← storedOr claim.initial conflict stored
    -- the payment intent is bound first, the order second
    reserveCrossmintOrder principal request
    .ret (won, existing)

/-! ## Settlement -/

/-- What a failed send leaves of the record. -/
def classifySend (record : PaymentRecord) (error : RpcError) : M PaymentRecord :=
  if provablyUnsent error then do
    let time ← now
    .ret (unsentRecord record time)
  else
    match record.signature with
    | none => do
      let time ← now
      .ret (paymentError record error time)
    | some signature => do
      let status ← trySignatureStatus signature
      let time ← now
      match status with
      | .ok (some _) =>
        payment { record with
          status := .submitted, error := some outcomeUnknown, updatedAtMs := time }
      | .ok none =>
        if deterministicFailure error then .ret (paymentError record error time)
        else .ret { record with
          status := .submitted, error := some outcomeUnknown, updatedAtMs := time }
      | .error _ =>
        .ret { record with
          status := .submitted, error := some outcomeUnknown, updatedAtMs := time }

def keepReceiptRequest (request : PaymentSubmissionRequest) : M Unit := do
  if ← Call.ofExcept (R.receiptRequestRecord request) then putReceiptRequest
  else .ret ()

/-- The record as it is stored just before its bytes are sent. -/
def PaymentRecord.submitted (record : PaymentRecord) (signature : String) (time : Nat) :
    PaymentRecord :=
  { record with signature := some signature, status := .submitted, updatedAtMs := time }

/-- The live checks passed: store Submitted, send, and store what became of it. -/
def broadcast (request : PaymentSubmissionRequest) (record : PaymentRecord) : M PaymentRecord := do
  keepReceiptRequest request
  let own ← Call.ofExcept (signature request.signedTransaction)
  let time ← now
  let record := record.submitted own time
  persistPayment record (connectorMetadata request)
  match ← sendTransaction ⟨record.paymentId, request.crossmint.map (·.orderId), false⟩
    request.signedTransaction with
  | .ok () => payment record
  | .error error => do
    let record ← classifySend record error
    persistPayment record (connectorMetadata request)
    if record.status = .failed ∧ record.error = some duplicateInvoiceMessage then
      .fail (.duplicateInvoice (record.receiptAddress.getD ""))
    else do
      let stored ← getPayment record.paymentId
      .ret (stored.getD record)

/-- The receipt exists: if these bytes created it, this is the caller's own payment. -/
def reconcileOwn (request : PaymentSubmissionRequest) (record : PaymentRecord)
    (receipt : String) : M PaymentRecord := do
  let own ← Call.ofExcept (signature request.signedTransaction)
  match ← signatureStatus own with
  | none => .fail (.duplicateInvoice receipt)
  | some _ => do
    let time ← now
    let record := record.submitted own time
    persistPayment record (connectorMetadata request)
    payment record

def settlePayment (request : PaymentSubmissionRequest) (record : PaymentRecord) :
    M PaymentRecord := do
  match ← (validateLivePayment request).attempt with
  | .error (.duplicateInvoice receipt) => reconcileOwn request record receipt
  | .error e => .fail e
  | .ok () => broadcast request record

def requireCrossmintCheckoutEnabled (request : PaymentSubmissionRequest) : M Unit :=
  if request.crossmint.isSome && !R.crossmintEnabled then
    .fail (.forbidden "Crossmint checkout is disabled pending provider acceptance")
  else .ret ()

def verifyCrossmintAuthorization (request : PaymentSubmissionRequest) (owner : String) : M Unit :=
  if request.crossmint.isNone then .ret ()
  else do
    let time ← now
    Call.ofExcept (R.crossmintAuthorized request owner time)

/-- The checks a live payment passes before it is reserved or sent again. -/
def checkLive (principal : Principal) (request : PaymentSubmissionRequest) : M Unit := do
  mandate principal request.mandate (connectorOperation request)
  validateLivePayment request

/-! ## Payments signed by the owner -/

def scopedRequest (principal : Principal) (request : PaymentSubmissionRequest) :
    PaymentSubmissionRequest :=
  { request with idempotencyKey := principal.wallet ++ ":" ++ request.idempotencyKey }

def submitPayment (principal : Principal) (request : PaymentSubmissionRequest) :
    M PaymentRecord := do
  Call.ofExcept (R.validatePaymentRequest request)
  let _ ← Call.ofExcept (R.receiptRequestRecord request)
  let request := scopedRequest principal request
  match ← existingPayment principal request .human with
  | some existing =>
    if knownUnsent existing then do
      checkLive principal request
      reserveCrossmintOrder principal request
      settlePayment request existing
    else .ret existing
  | none => do
    requireCrossmintCheckoutEnabled request
    checkLive principal request
    verifyCrossmintAuthorization request principal.wallet
    let (won, record) ← reservePayment principal request .human
    if won then settlePayment request record
    else if knownUnsent record then settlePayment request record
    else payment record

/-! ## Payments signed by a managed signer -/

def signerMismatch (field : String) : ApiError :=
  .badRequest ("on-chain mandate " ++ field ++ " does not match the managed signer registry")

/-- The mandate is the one the managed signer was provisioned for. -/
def verifyManagedMandate (signer : ManagedSigner) (request : PaymentSubmissionRequest) : M Unit := do
  match ← accountInfo request.mandate with
  | none => .fail (.badRequest "managed payment mandate was not found")
  | some account =>
    match account.data with
    | .mandate data =>
      if account.owner ≠ R.programId then
        .fail (.badRequest "managed payment mandate is not a valid ChainPay mandate")
      else if data.owner ≠ signer.ownerWallet then .fail (signerMismatch "owner")
      else if data.agent ≠ signer.publicKey then .fail (signerMismatch "approved agent")
      else
        match request.mint with
        | none => .fail (.badRequest "mint is required")
        | some mint =>
          if data.mint ≠ mint then .fail (signerMismatch "mint")
          else do
            let slot ← currentSlot
            match ensureMandateSendable account slot with
            | .error (.badRequest message) => .fail (.badRequest ("managed " ++ message))
            | .error e => .fail e
            | .ok _ => .ret ()
    | _ => .fail (.badRequest "managed payment mandate is not a valid ChainPay mandate")

def validateProviderSigned (unsigned signed : String) (request : PaymentSubmissionRequest) :
    Except ApiError Unit := do
  let before ← decodeTransaction unsigned
  let after ← decodeTransaction signed
  if before.message.serialized ≠ after.message.serialized then
    .error (.badRequest "managed signer provider changed the reviewed transaction message")
  else R.checkProviderSigned after request

/-- A signer that signs for the first time becomes active. -/
def activate (signer : ManagedSigner) : M Unit :=
  if signer.status = .provisioning then do
    let time ← now
    putManagedSigner { signer with status := .active, updatedAtMs := time }
  else .ret ()

def signAndSettleManaged (agent : String) (request : PaymentSubmissionRequest)
    (record : PaymentRecord) : M PaymentRecord := do
  match ← findManagedSigner agent with
  | none => .fail .notFound
  | some signer =>
    if signer.mandatePda ≠ request.mandate ∨
        (signer.status ≠ .provisioning ∧ signer.status ≠ .active) then
      .fail (.badRequest "managed signer is not active for this mandate")
    else do
      verifyManagedMandate signer request
      let signed ← signTransaction signer.providerWalletId request.signedTransaction
      Call.ofExcept (validateProviderSigned request.signedTransaction signed request)
      activate signer
      settlePayment { request with signedTransaction := signed } record

def resumeManagedPayment (principal : Principal) (agent : String)
    (request : PaymentSubmissionRequest) (existing : PaymentRecord) : M PaymentRecord := do
  let existing ← payment existing
  if knownUnsent existing = false ∨ existing.signature.isSome then .ret existing
  else do
    checkLive principal request
    reserveCrossmintOrder principal request
    persistPayment existing (connectorMetadata request)
    signAndSettleManaged agent request existing

def managedRequest (principal : Principal) (request : ManagedPaymentSubmissionRequest)
    (amount : Nat) : PaymentSubmissionRequest where
  idempotencyKey := principal.wallet ++ ":" ++ request.idempotencyKey
  mandate := request.mandate
  invoiceHash := request.invoiceHash
  receiptAddress := request.receiptAddress
  signedTransaction := request.unsignedTransaction
  agent := some request.agent
  mint := some request.mint
  recipient := request.recipient
  amount := some amount
  tokenProgram := some request.tokenProgram
  x402 := request.x402
  crossmint := request.crossmint
  paymentRequest := request.paymentRequest

def submitManagedPayment (principal : Principal) (request : ManagedPaymentSubmissionRequest) :
    M PaymentRecord :=
  if R.signerProvider = false then .fail .managedSignerUnavailable
  else
    match request.amount with
    | none => .fail (.badRequest "amount is required")
    | some amount => do
      let agent := request.agent
      let request := managedRequest principal request amount
      Call.ofExcept (R.validateManagedPaymentRequest request.signedTransaction request)
      let _ ← Call.ofExcept (R.receiptRequestRecord request)
      match ← existingPayment principal request .delegated with
      | some existing => resumeManagedPayment principal agent request existing
      | none => do
        requireCrossmintCheckoutEnabled request
        checkLive principal request
        verifyCrossmintAuthorization request principal.wallet
        let (won, record) ← reservePayment principal request .delegated
        if won then do
          persistPayment record (connectorMetadata request)
          signAndSettleManaged agent request record
        else resumeManagedPayment principal agent request record

/-! ## Recovery, cancellation, status -/

def expired : ApiError :=
  .conflict ("Original blockhash expired. Do not sign a replacement: query archival " ++
    "signature/receipt evidence or contact the operator.")

/-- The bytes are not on chain and may still get there. -/
def canResubmit (signature : String) (tx : Transaction) : M Bool := do
  match ← signatureStatus signature with
  | some _ => .ret false
  | none => do
    if ← blockhashValid tx.message.recentBlockhash then .ret true
    else .fail expired

def recoveryUnknown : String := "Recovery submission outcome unknown; retain the same signature."

/-- The submission a claimed operation stands for, with the recovered bytes. -/
def recoveredRequest (record : PaymentRecord) (recipient : String) (bound : Bound)
    (signed : String) : PaymentSubmissionRequest where
  idempotencyKey := record.idempotencyKey
  mandate := record.mandate
  invoiceHash := record.invoiceHash
  receiptAddress := record.receiptAddress
  signedTransaction := signed
  agent := record.agent
  mint := record.mint
  recipient := recipient
  amount := record.amount
  tokenProgram := record.tokenProgram
  x402 := match bound with
    | .payment intent => intent.x402
    | _ => none
  crossmint := match bound with
    | .payment intent => intent.crossmint
    | _ => none
  paymentRequest := none

/-- The bytes carry the message the operation was claimed for. -/
def sameMessage (bound : Bound) (tx : Transaction) : Bool :=
  match bound with
  | .payment intent => intent.message = messageHash tx
  | _ => false

/-- Sends the recovered bytes once more, if the chain does not know them. -/
def resubmitPayment (principal : Principal) (request : PaymentSubmissionRequest)
    (signature : String) (tx : Transaction) (record : PaymentRecord) : M PaymentRecord := do
  checkLive principal request
  reserveCrossmintOrder principal request
  if ← canResubmit signature tx then
    match ← sendTransaction ⟨record.paymentId, request.crossmint.map (·.orderId), true⟩
      request.signedTransaction with
    | .ok () => .ret record
    | .error _ => do
      let time ← now
      let record := { record with
        status := .submitted, error := some recoveryUnknown, updatedAtMs := time }
      persistPayment record (connectorMetadata request)
      .ret record
  else .ret record

/-- The recovered bytes are the operation's: store their signature and reconcile. -/
def recoverSigned (principal : Principal) (request : PaymentSubmissionRequest)
    (tx : Transaction) (record : PaymentRecord) (resubmit : Bool) : M PaymentRecord := do
  let own ← Call.ofExcept (signature request.signedTransaction)
  if record.signature.any (· ≠ own) then .fail conflict
  else do
    let time ← now
    let record := { record with signature := some own, updatedAtMs := time }
    persistPayment record (connectorMetadata request)
    let record ← payment record
    if resubmit && !record.status.terminal then do
      let record ← resubmitPayment principal request own tx record
      payment record
    else payment record

def recoverPayment (principal : Principal) (id signed : String) (resubmit : Bool) :
    M PaymentRecord := do
  match ← operationRecord id with
  | none => .fail .notFound
  | some claim =>
    if claim.owner ≠ principal.wallet then .fail .unauthorized
    else do
      let stored ← getPayment id
      let record ← storedOr claim.initial conflict stored
      match record.recipient with
      | none => do
        authorizePayment principal record
          (connectorOperation (recoveredRequest record "" claim.intent signed))
        .fail conflict
      | some recipient => do
        let request := recoveredRequest record recipient claim.intent signed
        authorizePayment principal record (connectorOperation request)
        Call.ofExcept (R.validatePaymentRequest request)
        let tx ← Call.ofExcept (decodeTransaction signed)
        if sameMessage claim.intent tx then recoverSigned principal request tx record resubmit
        else .fail conflict

/-- The kinds of operation a key can be cancelled for. -/
inductive CancelKind where
  | payments
  | transactions
  deriving DecidableEq

def CancelKind.name : CancelKind → String
  | .payments => "payment"
  | .transactions => "transaction"

/-- Claims an unused key, so that nothing can be submitted under it. -/
def cancelUnstarted (principal : Principal) (kind : Option CancelKind) (key : String) :
    M String :=
  if principal.scope.isSome then .fail (.forbidden "Owner session required")
  else if (utf8 key).length > 8192 ∨ rustTrim key.toList = [] then
    .fail (.badRequest "key must not be empty")
  else
    match kind with
    | none => .fail (.badRequest "Unknown operation kind")
    | some kind => do
      let id := deterministicId kind.name (principal.wallet ++ ":" ++ key)
      let exists_ : ApiError := .conflict "Operation already exists; reconcile it"
      if (← getPayment id).isSome then .fail exists_
      else do
        if ← getTransaction id then .fail exists_
        else do
          let (_, claim) ← claimOperation id principal.wallet .cancelledBeforeReservation .cancelled
          if claim.owner ≠ principal.wallet ∨ claim.intent ≠ .cancelledBeforeReservation then
            .fail (.conflict
              "Operation is already reserved; it cannot be canceled as unstarted")
          else .ret id

/-- The stored row of a payment, or the record its owner reserved. -/
def storedPayment (principal : Principal) (id : String) : M PaymentRecord := do
  match ← getPayment id with
  | some record => .ret record
  | none => do
    match ← operationRecord id with
    | none => .fail .notFound
    | some claim =>
      if claim.owner ≠ principal.wallet then .fail .unauthorized
      else storedOr claim.initial .notFound none

def paymentStatus (principal : Principal) (id : String) : M PaymentRecord := do
  let record ← storedPayment principal id
  authorizePayment principal record "get_payment"
  payment record

def crossmintReadOperation (principal : Principal) : String :=
  if principal.scope.any fun scope => scope.tools.contains "get_crossmint_payment" then
    "get_crossmint_payment"
  else "execute_crossmint_payment"

/-- A payment with its connector job. -/
def x402Context (principal : Principal) (id : String) : M (PaymentRecord × Job) := do
  match ← getPayment id with
  | none => .fail .notFound
  | some record => do
    match ← findX402 record.idempotencyKey with
    | none => .fail .notFound
    | some job => do
      authorizePayment principal record (match job.connector with
        | .x402 => "execute_x402_payment"
        | .crossmint => crossmintReadOperation principal)
      let record ← payment record
      let job := (← findX402 record.idempotencyKey).getD job
      if (stripPrefix (principal.wallet ++ ":") record.idempotencyKey).isNone then
        .fail .unauthorized
      else .ret (record, job)

end

end ChainPay.Relay
