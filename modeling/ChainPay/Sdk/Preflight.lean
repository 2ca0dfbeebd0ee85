import ChainPay.Mandate.Program
import Mathlib.Algebra.Order.Ring.Int

/-!
The SDK's preflight (`sdk/src/payment.ts`): the checks it makes on a payment and on a batch of
payments before anything is signed, over mandates as it decodes them.
-/

namespace ChainPay.Sdk
open ChainPay.Lib ChainPay.Mandate
open ChainPay.Card (Pubkey Hash)

/-! ## Decoded mandates -/

inductive MandateStatus where
  | active
  | paused
  | revoked
  | expired
  deriving DecidableEq, Repr

def MandateStatus.text : MandateStatus → String
  | .active => "active"
  | .paused => "paused"
  | .revoked => "revoked"
  | .expired => "expired"

inductive TokenProgram where
  | splToken
  | token2022
  deriving DecidableEq, Repr

def mandateStatus (paused revoked : Bool) (expiresAtSlot : Nat) (currentSlot : Option Nat) :
    MandateStatus :=
  if revoked then .revoked
  else if paused then .paused
  else if currentSlot.any fun slot => expiresAtSlot ≤ slot then .expired
  else .active

/-- A mandate as the SDK shows it: the account's fields, its address, and a status. -/
structure Mandate extends PaymentMandate where
  address : Pubkey
  status : MandateStatus
  tokenProgram : Option TokenProgram
  deriving DecidableEq

/-- `decodeMandate`, from the fields of the account. -/
def decodeMandate (x : PaymentMandate) (address : Pubkey) (currentSlot : Option Nat)
    (tokenProgram : Option TokenProgram) : Mandate :=
  { x with
    address
    status := mandateStatus x.paused x.revoked x.expiresAtSlot currentSlot
    tokenProgram }

structure PaymentRequest where
  invoiceHash : Hash
  paymentId : Hash
  signatureReference : Hash
  mint : Pubkey
  recipient : Pubkey
  amount : Int
  tokenProgram : Option TokenProgram
  deriving DecidableEq, Repr

/-- What the instruction carries of a request. -/
def PaymentRequest.params (r : PaymentRequest) : PaymentParams :=
  ⟨r.invoiceHash, r.paymentId, r.signatureReference, r.amount.toNat⟩

/-- The source token account, as it was read. -/
structure PaymentPreflightContext where
  sourceBalance : Nat
  sourceOwner : Pubkey
  delegate : Option Pubkey
  delegatedAmount : Nat
  deriving DecidableEq, Repr

structure BatchPreflightEntry where
  request : PaymentRequest
  mandate : Mandate
  agent : Option Pubkey
  receiptAlreadyExists : Option Bool
  sourceContext : Option PaymentPreflightContext
  deriving DecidableEq

/-! ## Checks -/

structure PolicyCheck where
  name : String
  ok : Bool
  message : String
  deriving DecidableEq, Repr

/-- A check with its message when it passes and when it does not. -/
def check (name : String) (ok : Bool) (pass fail : String) : PolicyCheck :=
  ⟨name, ok, if ok then pass else fail⟩

def SYSTEM_PROGRAM_ID : Pubkey := 0

def sourceAccountChecks (request : PaymentRequest) (mandate : Mandate)
    (context : PaymentPreflightContext) : List PolicyCheck :=
  [check "source_owner" (context.sourceOwner = mandate.owner)
      "Source token account owner matches the mandate owner"
      "Source token account owner does not match the mandate owner",
    check "source_balance" (request.amount ≤ context.sourceBalance)
      "Source token account balance covers this payment"
      "Source token account balance is insufficient for this payment",
    check "delegate_identity" (context.delegate = some mandate.address)
      "Source token account delegates spending authority to this mandate"
      "Source token account is not delegated to this mandate",
    check "delegated_amount"
      (0 < context.delegatedAmount && request.amount ≤ context.delegatedAmount)
      "Remaining delegated allowance covers this payment"
      (if context.delegatedAmount = 0 then
        "Source token account has no remaining delegated allowance"
      else "Payment exceeds the remaining delegated allowance")]

structure PaymentPreflight where
  valid : Bool
  currentSlot : Nat
  checks : List PolicyCheck
  deriving DecidableEq, Repr

/-- The checks of one payment, in their order; the last four need the source account. -/
def paymentChecks (request : PaymentRequest) (mandate : Mandate) (currentSlot : Nat)
    (agent : Option Pubkey) (receiptAlreadyExists : Bool)
    (sourceContext : Option PaymentPreflightContext) : List PolicyCheck :=
  [check "mandate_status" (mandate.status = .active) "Mandate is active"
      ("Mandate is " ++ mandate.status.text),
    check "approved_agent" (agent = none || agent = some mandate.approvedAgent)
      "Payment agent matches the mandate" "Payment agent does not match the mandate",
    check "mint" (request.mint = mandate.allowedMint) "Payment mint matches the mandate"
      "Payment mint does not match the mandate",
    check "recipient" (request.recipient ≠ SYSTEM_PROGRAM_ID)
      "Payment recipient is specified for this request" "Payment recipient must be specified",
    check "amount_positive" (0 < request.amount) "Payment amount is positive"
      "Payment amount must be positive",
    check "per_payment_limit" (request.amount ≤ mandate.maxPerPayment)
      "Payment is within the per-payment limit" "Payment exceeds the per-payment limit",
    check "total_limit"
      (0 ≤ request.amount && mandate.amountSpent + request.amount ≤ mandate.totalLimit)
      "Payment is within the total spend limit" "Payment exceeds the total spend limit",
    check "payment_count_limit"
      (mandate.maxPaymentCount = 0 || mandate.paymentCount + 1 ≤ mandate.maxPaymentCount)
      "Payment is within the payment-count limit" "Payment exceeds the payment-count limit",
    check "cooldown" (mandate.lastPaymentSlot = 0 ||
        mandate.lastPaymentSlot + mandate.cooldownSlots ≤ currentSlot)
      "Mandate cooldown has elapsed" "Mandate cooldown is still active",
    check "expiry" (currentSlot < mandate.expiresAtSlot) "Mandate has not expired"
      "Mandate has expired",
    check "invoice_hash" (request.invoiceHash ≠ 0) "Invoice hash is non-zero"
      "Invoice hash must not be all zeroes",
    check "payment_id" (request.paymentId ≠ 0) "Payment ID is non-zero"
      "Payment ID must not be all zeroes",
    check "signature_reference" (request.signatureReference ≠ 0) "Signature reference is non-zero"
      "Signature reference must not be all zeroes",
    check "duplicate_invoice" (!receiptAlreadyExists) "No receipt exists for this invoice hash"
      "This invoice hash already has a receipt under the mandate",
    check "token_program" (request.tokenProgram = none || mandate.tokenProgram = none ||
        request.tokenProgram = mandate.tokenProgram)
      "Token program matches the loaded mandate context"
      "Token program does not match the source token account"] ++
  match sourceContext with
  | none => []
  | some context => sourceAccountChecks request mandate context

def preflightPayment (request : PaymentRequest) (mandate : Mandate) (currentSlot : Nat)
    (agent : Option Pubkey) (receiptAlreadyExists : Bool)
    (sourceContext : Option PaymentPreflightContext) : PaymentPreflight :=
  let checks := paymentChecks request mandate currentSlot agent receiptAlreadyExists sourceContext
  ⟨checks.all (·.ok), currentSlot, checks⟩

/-! ## Batches -/

abbrev Group := List BatchPreflightEntry

def Group.totalAmount (group : Group) : Int := (group.map (·.request.amount)).sum

/-- The cumulative checks on the entries of one mandate. -/
def batchChecksForMandateGroup (group : Group) (mandate : Mandate) : List PolicyCheck :=
  let totalAmount := group.totalAmount
  [check "batch_total_limit" (mandate.amountSpent + totalAmount ≤ mandate.totalLimit)
      "Batch total is within the mandate spending limit"
      "Together, these payments exceed the mandate total spending limit",
    check "batch_payment_count"
      (mandate.maxPaymentCount = 0 || mandate.paymentCount + group.length ≤ mandate.maxPaymentCount)
      "Batch size is within the mandate payment-count limit"
      "Together, these payments exceed the mandate payment-count limit",
    check "batch_cooldown" (group.length ≤ 1 || mandate.cooldownSlots = 0)
      "Batch respects the mandate cooldown policy"
      "This mandate has a cooldown and can only settle once per atomic batch"] ++
  match group.findSome? (·.sourceContext) with
  | none => []
  | some context =>
    [check "batch_source_balance" (totalAmount ≤ context.sourceBalance)
        "Source token account balance covers the batch total"
        "Source token account balance is insufficient for the batch total",
      check "batch_delegated_amount"
        (0 < context.delegatedAmount && totalAmount ≤ context.delegatedAmount)
        "Remaining delegated allowance covers the batch total"
        (if context.delegatedAmount = 0 then
          "Source token account has no remaining delegated allowance for this batch"
        else "Batch total exceeds the remaining delegated allowance")]

/-- Adds an entry to the group of its mandate, which it opens if need be. -/
def addToGroup (groups : List (Pubkey × Group)) (entry : BatchPreflightEntry) :
    List (Pubkey × Group) :=
  let key := entry.mandate.address
  if groups.any fun g => g.1 = key then
    groups.map fun g => if g.1 = key then (g.1, g.2 ++ [entry]) else g
  else groups ++ [(key, [entry])]

def groups (entries : List BatchPreflightEntry) : List (Pubkey × Group) :=
  entries.foldl addToGroup []

/-- The checks of a group, against the mandate of its first entry. -/
def groupChecks : Group → List PolicyCheck
  | [] => []
  | entry :: rest => batchChecksForMandateGroup (entry :: rest) entry.mandate

structure PaymentBatchPreflight where
  valid : Bool
  currentSlot : Nat
  entries : List PaymentPreflight
  batchChecks : List PolicyCheck
  deriving DecidableEq, Repr

def BatchPreflightEntry.preflight (entry : BatchPreflightEntry) (currentSlot : Nat) :
    PaymentPreflight :=
  preflightPayment entry.request entry.mandate currentSlot entry.agent
    (entry.receiptAlreadyExists.getD false) entry.sourceContext

def preflightPaymentBatch (entries : List BatchPreflightEntry) (currentSlot : Nat) :
    PaymentBatchPreflight :=
  let preparedEntries := entries.map fun entry => entry.preflight currentSlot
  let batchChecks := (groups entries).flatMap fun g => groupChecks g.2
  ⟨preparedEntries.all (·.valid) && batchChecks.all (·.ok), currentSlot, preparedEntries,
    batchChecks⟩

/-- The checks that stand for the program's policy, `validate_payment`. -/
def policyNames : List String :=
  ["mandate_status", "amount_positive", "per_payment_limit", "total_limit", "payment_count_limit",
    "cooldown", "expiry", "invoice_hash", "payment_id", "signature_reference",
    "batch_total_limit", "batch_payment_count", "batch_cooldown"]

/-! ## Settlement -/

/-- A token account, as far as a payment out of it or into it goes. -/
structure Holding where
  owner : Pubkey
  balance : Nat
  delegate : Option Pubkey
  delegatedAmount : Nat
  deriving DecidableEq, Repr

/-- What payments read and write: mandates, the receipts by mandate and invoice, and token
accounts. -/
structure Ledger where
  mandates : Table Pubkey PaymentMandate
  receipts : List (Pubkey × Hash)
  tokens : Table Pubkey Holding

/-- What is left of a delegation. -/
def Holding.spend (a : Holding) (amount : Nat) : Holding :=
  { a with
    balance := a.balance - amount
    delegatedAmount := a.delegatedAmount - amount
    -- the token program drops a delegation that is used up
    delegate := if a.delegatedAmount = amount then none else a.delegate }

/-- Tokens that arrive at an account of the table. -/
def credit (tokens : Table Pubkey Holding) (key : Pubkey) (amount : Nat) : Table Pubkey Holding :=
  match tokens.lookup key with
  | none => tokens
  | some a => tokens.insert key { a with balance := a.balance + amount }

/-- The token program's transfer by a delegate. -/
def transfer (tokens : Table Pubkey Holding) (source recipient authority : Pubkey) (amount : Nat) :
    Except Err (Table Pubkey Holding) := do
  let a ← okOr (tokens.lookup source) .transfer
  ensure (amount ≤ a.balance) .transfer
  ensure (a.delegate = some authority) .transfer
  ensure (amount ≤ a.delegatedAmount) .transfer
  if source = recipient then return tokens
  else return credit (tokens.insert source (a.spend amount)) recipient amount

/-- The source account's part of the account checks. -/
def checkSource (x : PaymentMandate) (m : Pubkey) (amount : Nat) (tokens : Table Pubkey Holding) :
    Except Err Unit := do
  let a ← okOr (tokens.lookup x.sourceTokenAccount) .account
  ensure (a.owner = x.owner) (.program .invalidSourceTokenAccount)
  ensure (a.delegate = some m) (.program .invalidSourceTokenAccount)
  ensure (amount ≤ a.delegatedAmount) (.program .invalidSourceTokenAccount)

/-- `execute_payment` for one entry of a batch, over the ledger. -/
def settle (slot : Nat) (l : Ledger) (entry : BatchPreflightEntry) : Except Err Ledger := do
  let m := entry.mandate.address
  let params := entry.request.params
  let x ← okOr (l.mandates.lookup m) .account
  checkSource x m params.amount l.tokens
  ensure ((m, params.invoiceHash) ∉ l.receipts) .account
  validatePayment x params slot
  let tokens ← transfer l.tokens x.sourceTokenAccount entry.request.recipient m params.amount
  return ⟨l.mandates.insert m (x.pay params.amount slot), (m, params.invoiceHash) :: l.receipts,
    tokens⟩

/-- The entries of a batch, one after another; the first failure stops it. -/
def settleAll (slot : Nat) (l : Ledger) (entries : List BatchPreflightEntry) : Except Err Ledger :=
  entries.foldlM (settle slot) l

end ChainPay.Sdk
