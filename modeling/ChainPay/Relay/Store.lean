import Mathlib.Data.List.Infix
import ChainPay.Lib.Bytes
import ChainPay.Lib.Calls
import ChainPay.Lib.Table
import ChainPay.Lib.Text

/-!
What the payment relay works with: requests, the rows it keeps, the operations claimed
in its store, and the storage, RPC and signer calls its handlers await. An `Op` is one
such call and `perform` what it does to the store; everything the relay cannot know in
advance (faults, the clock, what the chain and the signer answer) comes in with an `Env`.
-/

namespace ChainPay.Relay
open ChainPay.Lib

/-! ## Texts -/

/-- A JSON value, as its text. -/
abbrev Json := String

def contains (text part : String) : Bool := decide (part.toList <:+: text.toList)

def startsWith (text start : String) : Bool := decide (start.toList <+: text.toList)

def stripPrefix (start text : String) : Option String :=
  if startsWith text start then some (String.ofList (text.toList.drop start.toList.length)) else none

/-! ## Requests -/

inductive SigningMode where
  | human
  | delegated
  deriving DecidableEq, Repr

/-- A transaction message. `accounts` are the keys its payment instruction names. -/
structure Message where
  serialized : Bytes
  recentBlockhash : String
  accounts : Option (List (Option String))
  deriving DecidableEq

structure Transaction where
  message : Message
  signatures : List String
  deriving DecidableEq

structure X402Metadata where
  resource : String
  challenge : Json
  deriving DecidableEq, Repr

structure CrossmintMetadata where
  orderId : String
  orderUrl : Option String
  terms : Json
  deriving DecidableEq, Repr

structure PaymentSubmissionRequest where
  idempotencyKey : String
  mandate : String
  invoiceHash : String
  receiptAddress : Option String
  signedTransaction : String
  agent : Option String
  mint : Option String
  recipient : String
  amount : Option Nat
  tokenProgram : Option String
  x402 : Option X402Metadata
  crossmint : Option CrossmintMetadata
  paymentRequest : Option Json
  deriving DecidableEq

structure ManagedPaymentSubmissionRequest where
  idempotencyKey : String
  mandate : String
  invoiceHash : String
  receiptAddress : Option String
  unsignedTransaction : String
  agent : String
  mint : String
  recipient : String
  amount : Option Nat
  tokenProgram : String
  x402 : Option X402Metadata
  crossmint : Option CrossmintMetadata
  paymentRequest : Option Json
  deriving DecidableEq

/-- What a scoped connection may do. -/
structure Scope where
  mandates : List String
  tools : List String
  agents : List (String × String)
  deriving DecidableEq

/-- The authenticated caller. -/
structure Principal where
  wallet : String
  scope : Option Scope
  deriving DecidableEq

/-! ## Rows -/

inductive PaymentStatus where
  | prepared
  | submitted
  | confirmed
  | failed
  deriving DecidableEq, Repr

/-- Confirmed and Failed rows are never written again. -/
def PaymentStatus.terminal : PaymentStatus → Bool
  | .confirmed | .failed => true
  | .prepared | .submitted => false

structure PaymentRecord where
  paymentId : String
  idempotencyKey : String
  mandate : String
  invoiceHash : String
  receiptAddress : Option String
  agent : Option String
  mint : Option String
  recipient : Option String
  amount : Option Nat
  tokenProgram : Option String
  signingMode : SigningMode
  signature : Option String
  slot : Option Nat
  status : PaymentStatus
  error : Option String
  createdAtMs : Nat
  updatedAtMs : Nat
  deriving DecidableEq

/-- What a submission binds its key to. -/
structure Intent where
  mandate : String
  invoice : String
  receipt : Option String
  agent : Option String
  mint : Option String
  recipient : String
  amount : Option Nat
  tokenProgram : Option String
  mode : SigningMode
  message : String
  x402 : Option X402Metadata
  crossmint : Option CrossmintMetadata
  deriving DecidableEq

/-- The intent of a claimed operation. -/
inductive Bound where
  | payment (intent : Intent)
  | cancelledBeforeReservation
  | order (paymentIdempotencyKey : String)
  deriving DecidableEq

/-- The first record of a claimed operation. -/
inductive Initial where
  | payment (record : PaymentRecord)
  | cancelled
  | null
  deriving DecidableEq

structure Claim where
  owner : String
  intent : Bound
  initial : Initial
  deriving DecidableEq

inductive ConnectorKind where
  | x402
  | crossmint
  deriving DecidableEq, Repr

inductive JobStatus where
  | prepared
  | submitted
  | confirmed
  | verified
  | failed
  deriving DecidableEq, Repr

/-- The job of the connector a payment was made for. -/
structure Job where
  x402PaymentId : String
  idempotencyKey : String
  connector : ConnectorKind
  connectorReference : Option String
  resource : String
  challenge : Json
  status : JobStatus
  updatedAtMs : Nat
  deriving DecidableEq

inductive ManagedSignerStatus where
  | provisioning
  | active
  | suspended
  | revoked
  deriving DecidableEq, Repr

structure ManagedSigner where
  ownerWallet : String
  publicKey : String
  providerWalletId : String
  mandatePda : String
  status : ManagedSignerStatus
  updatedAtMs : Nat
  deriving DecidableEq

/-! ## The chain as the RPC shows it -/

structure MandateData where
  owner : String
  agent : String
  source : String
  mint : String
  expiresAtSlot : Nat
  paused : Bool
  revoked : Bool
  deriving DecidableEq

structure ReceiptData where
  mandate : String
  invoiceHash : List Nat
  mint : String
  recipient : String
  amount : Nat
  agent : String
  status : Nat
  deriving DecidableEq

/-- An account's data by its length and discriminator. -/
inductive AccountData where
  | mandate (data : MandateData)
  | receipt (data : ReceiptData)
  | other
  deriving DecidableEq

structure RpcAccount where
  owner : String
  data : AccountData
  deriving DecidableEq

structure SignatureStatus where
  slot : Option Nat
  confirmationStatus : Option String
  error : Option String
  deriving DecidableEq

def SignatureStatus.finalized (st : SignatureStatus) : Bool :=
  st.confirmationStatus = some "finalized"

inductive RpcError where
  | busy
  | remote (code : Int) (message : String)
  | transactionFailed (message : String)
  /-- A transport, decoding or timeout error. -/
  | other
  deriving DecidableEq

/-! ## Errors -/

inductive ApiError where
  | badRequest (message : String)
  | conflict (message : String)
  | unauthorized
  | forbidden (message : String)
  | rateLimited
  | notFound
  | rpc (error : RpcError)
  | storage
  | signerProvider
  | managedSignerUnavailable
  | duplicateInvoice (receiptAddress : String)
  deriving DecidableEq

/-- The HTTP status of an error. -/
def ApiError.status : ApiError → Nat
  | .badRequest _ => 400
  | .conflict _ => 409
  | .unauthorized => 401
  | .forbidden _ => 403
  | .rateLimited => 429
  | .notFound => 404
  | .rpc .busy => 429
  | .rpc _ => 502
  | .storage => 500
  | .signerProvider => 502
  | .managedSignerUnavailable => 503
  | .duplicateInvoice _ => 422

/-! ## The deployment

What a deployment fixes and no call changes: its configuration, the decoder of wire
transactions, SHA-256, and the checks a request must pass before anything is read. -/

class Deployment where
  programId : String
  /-- Whether a managed signer provider is configured. -/
  signerProvider : Bool
  crossmintEnabled : Bool
  /-- Whether owner webhooks are configured. -/
  webhooks : Bool
  /-- `str::to_lowercase`, whatever it makes of letters beyond ASCII. -/
  lowercase : String → String
  /-- The hexadecimal SHA-256 digest. -/
  sha256Hex : Bytes → String
  /-- Base64 and wire format. -/
  decode : String → Option Transaction
  validAddress : String → Bool
  validatePaymentRequest : PaymentSubmissionRequest → Except ApiError Unit
  validateManagedPaymentRequest : String → PaymentSubmissionRequest → Except ApiError Unit
  /-- Whether there is a merchant request to keep. -/
  receiptRequestRecord : PaymentSubmissionRequest → Except ApiError Bool
  crossmintAuthorized : PaymentSubmissionRequest → (owner : String) → (now : Nat) →
    Except ApiError Unit
  /-- The checks on a provider-signed transaction besides the one on its message. -/
  checkProviderSigned : Transaction → PaymentSubmissionRequest → Except ApiError Unit

def utf8 (text : String) : Bytes := text.toByteArray.data.toList

section

variable [R : Deployment]

def deterministicId (kind input : String) : String := kind ++ "_" ++ R.sha256Hex (utf8 input)

/-- The id of the payment a scoped key names. -/
def paymentId (key : String) : String := deterministicId "payment" key

/-- A character inside a JSON string: quotes and backslashes (34, 92) and control characters
are escaped. -/
def jsonChar (c : Char) : List Char :=
  let backslash := Char.ofNat 92
  if c.toNat = 34 ∨ c.toNat = 92 then [backslash, c]
  else if c.toNat = 8 then [backslash, 'b']
  else if c.toNat = 9 then [backslash, 't']
  else if c.toNat = 10 then [backslash, 'n']
  else if c.toNat = 12 then [backslash, 'f']
  else if c.toNat = 13 then [backslash, 'r']
  else if c.toNat < 32 then
    [backslash, 'u', '0', '0', Nat.digitChar (c.toNat / 16), Nat.digitChar (c.toNat % 16)]
  else [c]

def jsonString (text : String) : List Char :=
  Char.ofNat 34 :: text.toList.flatMap jsonChar ++ [Char.ofNat 34]

/-- The text of a JSON array of two strings. -/
def jsonPair (a b : String) : String :=
  String.ofList ('[' :: jsonString a ++ ',' :: jsonString b ++ [']'])

/-- The id an owner's Crossmint order is claimed under. -/
def orderClaimId (wallet orderId : String) : String :=
  deterministicId "crossmint-order" (jsonPair wallet orderId)

def decodeTransaction (encoded : String) : Except ApiError Transaction :=
  match R.decode encoded with
  | some tx => .ok tx
  | none => .error (.badRequest "transaction is not a supported Solana transaction")

end

/-! ## The store and its operations -/

/-- Which operation and order a broadcast belongs to, and whether it is a resubmission. -/
structure Origin where
  paymentId : String
  order : Option String
  resubmit : Bool
  deriving DecidableEq

/-- A call of `send_transaction`, with what it answered. -/
structure Sent where
  origin : Origin
  bytes : String
  result : Except RpcError Unit

/-- The rows, with what was sent (`sent`) and what the chain made final (`final`: a
signature's outcome, `receipts`: the receipt accounts). -/
structure Store where
  operations : Table String Claim := ∅
  payments : Table String PaymentRecord := ∅
  transactions : List String := []
  jobs : Table String Job := ∅
  signers : Table String ManagedSigner := ∅
  sent : List Sent := []
  final : Table String Bool := ∅
  receipts : Table String RpcAccount := ∅

inductive Op where
  | findPaymentByIdempotency (key : String)
  | operationRecord (id : String)
  | operationOwner (id : String)
  | getPayment (id : String)
  | getTransaction (id : String)
  | claimOperation (id owner : String) (intent : Bound) (initial : Initial)
  | putPayment (record : PaymentRecord)
  | findX402 (key : String)
  | findOtherJob (owner reference key : String)
  | putX402 (job : Job)
  | putReceiptRequest
  | findManagedSigner (publicKey : String)
  | putManagedSigner (signer : ManagedSigner)
  | signTransaction (walletId unsigned : String)
  | accountInfo (address : String)
  | currentSlot
  | signatureStatus (signature : String)
  | blockhashValid (blockhash : String)
  | sendTransaction (origin : Origin) (bytes : String)

/-- What an operation answers; `none` is a storage or provider error. -/
@[reducible] def Op.Ans : Op → Type
  | .findPaymentByIdempotency _ => Option (Option PaymentRecord)
  | .operationRecord _ => Option (Option Claim)
  | .operationOwner _ => Option (Option String)
  | .getPayment _ => Option (Option PaymentRecord)
  | .getTransaction _ => Option Bool
  | .claimOperation _ _ _ _ => Option (Bool × Claim)
  | .putPayment _ => Option Unit
  | .findX402 _ => Option (Option Job)
  | .findOtherJob _ _ _ => Option Bool
  | .putX402 _ => Option Unit
  | .putReceiptRequest => Option Unit
  | .findManagedSigner _ => Option (Option ManagedSigner)
  | .putManagedSigner _ => Option Unit
  | .signTransaction _ _ => Option String
  | .accountInfo _ => Except RpcError (Option RpcAccount)
  | .currentSlot => Except RpcError Nat
  | .signatureStatus _ => Except RpcError (Option SignatureStatus)
  | .blockhashValid _ => Except RpcError Bool
  | .sendTransaction _ _ => Except RpcError Unit

/-- A storage call works, is lost before it takes effect, or takes effect and its answer
is lost. -/
inductive Fault where
  | fine
  | lost
  | late
  deriving DecidableEq

/-- What the surroundings answer at one await. -/
structure Env where
  storage : Fault := .fine
  signed : Option String := none
  account : Except RpcError (Option RpcAccount) := .ok none
  slot : Except RpcError Nat := .ok 0
  status : Except RpcError (Option SignatureStatus) := .ok none
  blockhash : Except RpcError Bool := .ok true
  send : Except RpcError Unit := .ok ()

def Store.read {β : Type} (s : Store) (e : Env) (v : β) : Store × Option β :=
  (s, if e.storage = .fine then some v else none)

/-- A write that leads to `s'`. -/
def Store.write {β : Type} (s : Store) (e : Env) (s' : Store) (v : β) : Store × Option β :=
  match e.storage with
  | .fine => (s', some v)
  | .lost => (s, none)
  | .late => (s', none)

/-- First write wins. -/
def Store.claim (s : Store) (id : String) (c : Claim) : Store :=
  match s.operations.lookup id with
  | some _ => s
  | none => { s with operations := s.operations.insert id c }

/-- A terminal or newer row stays. -/
def Store.putPayment (s : Store) (record : PaymentRecord) : Store :=
  match s.payments.lookup record.paymentId with
  | some old =>
    if old.status.terminal ∨ record.updatedAtMs < old.updatedAtMs then s
    else { s with payments := s.payments.insert record.paymentId record }
  | none => { s with payments := s.payments.insert record.paymentId record }

/-- A verified or newer job stays, and a settled one is not reopened. -/
def Store.putX402 (s : Store) (job : Job) : Store :=
  match s.jobs.lookup job.x402PaymentId with
  | some old =>
    if old.status = .verified ∨ job.updatedAtMs < old.updatedAtMs then s
    else if (old.status = .confirmed ∨ old.status = .failed) ∧
        (job.status = .prepared ∨ job.status = .submitted) then s
    else { s with jobs := s.jobs.insert job.x402PaymentId job }
  | none => { s with jobs := s.jobs.insert job.x402PaymentId job }

def Store.findPayment (s : Store) (key : String) : Option PaymentRecord :=
  (s.payments.entries.find? fun row => row.2.idempotencyKey = key).map (·.2)

def Store.findJob (s : Store) (key : String) : Option Job :=
  (s.jobs.entries.find? fun row => row.2.idempotencyKey = key).map (·.2)

/-- Another job of the owner for the same Crossmint order. -/
def Store.otherJob (s : Store) (owner reference key : String) : Bool :=
  s.jobs.entries.any fun row =>
    row.2.connector = .crossmint && row.2.connectorReference = some reference &&
      startsWith row.2.idempotencyKey (owner ++ ":") && row.2.idempotencyKey ≠ key

/-- One job for each idempotency key. -/
def Store.jobConflict (s : Store) (job : Job) : Bool :=
  s.jobs.entries.any fun row =>
    row.2.idempotencyKey = job.idempotencyKey && row.2.x402PaymentId ≠ job.x402PaymentId

def perform (o : Op) (e : Env) (s : Store) : Store × o.Ans :=
  match o with
  | .findPaymentByIdempotency key => s.read e (s.findPayment key)
  | .operationRecord id => s.read e (s.operations.lookup id)
  | .operationOwner id => s.read e ((s.operations.lookup id).map Claim.owner)
  | .getPayment id => s.read e (s.payments.lookup id)
  | .getTransaction id => s.read e (s.transactions.contains id)
  | .claimOperation id owner intent initial =>
    s.write e (s.claim id ⟨owner, intent, initial⟩)
      ((s.operations.lookup id).isNone, (s.operations.lookup id).getD ⟨owner, intent, initial⟩)
  | .putPayment record => s.write e (s.putPayment record) ()
  | .findX402 key => s.read e (s.findJob key)
  | .findOtherJob owner reference key => s.read e (s.otherJob owner reference key)
  | .putX402 job => if s.jobConflict job then (s, none) else s.write e (s.putX402 job) ()
  | .putReceiptRequest => s.read e ()
  | .findManagedSigner key => s.read e (s.signers.lookup key)
  | .putManagedSigner signer =>
    s.write e { s with signers := s.signers.insert signer.publicKey signer } ()
  | .signTransaction _ _ => (s, e.signed)
  | .accountInfo _ => (s, e.account)
  | .currentSlot => (s, e.slot)
  | .signatureStatus _ => (s, e.status)
  | .blockhashValid _ => (s, e.blockhash)
  | .sendTransaction origin bytes => ({ s with sent := s.sent ++ [⟨origin, bytes, e.send⟩] }, e.send)

end ChainPay.Relay
