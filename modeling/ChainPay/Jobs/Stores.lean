import ChainPay.Lib.Index
import ChainPay.Lib.Json

/-!
The jobs of the payment connectors in the three stores of the relay: the in-memory map and the
PostgreSQL table of `storage/mod.rs`, and the Convex table that `convex/records.ts` writes. A call
that fails leaves its store as it was. Tables are lists in the order of insertion.
-/

namespace ChainPay.Jobs
open ChainPay.Lib

/-! ## Jobs -/

inductive ConnectorKind where
  | x402
  | crossmint
  deriving DecidableEq, Repr

inductive JobStatus where
  | prepared
  | submitted
  | confirmed
  | verified
  | failed
  deriving DecidableEq, Repr

/-- `X402PaymentRecord`; `τ` is what a time is held as. -/
structure Job (τ : Type) where
  x402PaymentId : String
  idempotencyKey : String
  connector : ConnectorKind
  connectorReference : Option String
  resource : String
  paymentId : Option String
  receiptAddress : Option String
  transactionSignature : Option String
  status : JobStatus
  challenge : Json
  proof : Option Json
  responseStatus : Option Nat
  error : Option String
  createdAt : τ
  updatedAt : τ

namespace Job

variable {τ : Type}

/-- The job is past what the incoming status could say. -/
def terminal (old : Job τ) (incoming : JobStatus) : Bool :=
  old.status = .verified || ((old.status = .confirmed || old.status = .failed) &&
    (incoming = .prepared || incoming = .submitted))

/-- An order whose evidence can still be refreshed. -/
def refreshable (old : Job τ) : Bool :=
  old.connector = .crossmint && (old.status = .confirmed || old.status = .verified)

/-- A provider's report that the delivery failed or was refunded. -/
def reverses (proof : Option Json) : Bool :=
  proof.any fun p =>
    (match p.get "delivery".toList with
      | some (.str s) => s = "failed".toList
      | _ => false) ||
    (match p.get "refunded".toList with
      | some (.obj _) => true
      | _ => false)

/-- What `put_crossmint_proof` changes. -/
def refresh (old : Job τ) (reverses : Bool) (r : Job τ) : Job τ :=
  { old with
    proof := r.proof
    responseStatus := r.responseStatus
    error := r.error
    status := if old.status ≠ .verified || reverses then r.status else old.status
    updatedAt := r.updatedAt }

end Job

/-- What is asked about another job for the same order. -/
structure Query where
  owner : String
  connector : ConnectorKind
  reference : String
  currentKey : String

inductive Op where
  /-- A payment that jobs can be linked to is stored. -/
  | putPayment (id : String)
  | putX402 (r : Job Nat)
  | putCrossmintProof (r : Job Nat)

/-! ## Memory -/

structure Memory where
  payments : List String
  jobs : List (Job Nat)

namespace Memory

variable (s : Memory)

def job (id : String) : Option (Job Nat) := s.jobs.find? fun r => r.x402PaymentId = id

def findByIdempotency (key : String) : Option (Job Nat) :=
  s.jobs.find? fun r => r.idempotencyKey = key

/-- The jobs that a query is about. -/
def others (q : Query) : List (Job Nat) :=
  s.jobs.filter fun r => r.connector = q.connector && r.connectorReference = some q.reference &&
    (q.owner ++ ":").toList.isPrefixOf r.idempotencyKey.toList && r.idempotencyKey ≠ q.currentKey

def findOther (q : Query) : Option (Job Nat) :=
  ((s.others q).insertionSort fun a b => b.updatedAt ≤ a.updatedAt).head?

/-- What a write leaves of the stored job. -/
def merge (old r : Job Nat) : Job Nat :=
  { r with
    proof := if r.proof.isNone then old.proof else r.proof
    responseStatus := if r.responseStatus.isNone then old.responseStatus else r.responseStatus }

def putX402 (r : Job Nat) : Except Unit Memory :=
  if s.jobs.any fun old => old.idempotencyKey = r.idempotencyKey &&
      old.x402PaymentId ≠ r.x402PaymentId then .error ()
  else
    match s.job r.x402PaymentId with
    | none => .ok { s with jobs := s.jobs ++ [r] }
    | some old =>
      if old.terminal r.status || r.updatedAt < old.updatedAt then .ok s
      else
        let jobs := updateWhere (fun x => x.x402PaymentId = r.x402PaymentId)
          (fun _ => merge old r) s.jobs
        .ok { s with jobs }

def putCrossmintProof (r : Job Nat) : Except Unit Memory :=
  let jobs := updateWhere (fun old => old.x402PaymentId = r.x402PaymentId && old.refreshable &&
      old.updatedAt ≤ r.updatedAt) (fun old => old.refresh (Job.reverses r.proof) r) s.jobs
  .ok { s with jobs }

def call : Op → Except Unit Memory
  | .putPayment id => .ok { s with payments := id :: s.payments }
  | .putX402 r => s.putX402 r
  | .putCrossmintProof r => s.putCrossmintProof r

end Memory

/-! ## PostgreSQL -/

/-- The columns of the server: timestamps of a resolution of their own, and JSON in a binary form.
Both refuse what they cannot hold. -/
structure Columns where
  Stamp : Type
  order : LinearOrder Stamp
  /-- `TO_TIMESTAMP(ms / 1000.0)`. -/
  toTimestamp : Nat → Option Stamp
  /-- `(EXTRACT(EPOCH FROM t) * 1000)::BIGINT`. -/
  toMillis : Stamp → Nat
  toTimestamp_mono : ∀ {a b : Nat} {x y : Stamp}, toTimestamp a = some x → toTimestamp b = some y →
    a ≤ b → order.le x y
  toMillis_mono : ∀ {x y : Stamp}, order.le x y → toMillis x ≤ toMillis y
  /-- What a `JSONB` column reads back. -/
  jsonb : Json → Option Json

/-- PostgreSQL's texts do not hold U+0000. -/
def hasNul (s : String) : Bool := s.toList.any fun c => c.toNat = 0

namespace Job

variable {τ : Type}

/-- The texts of a job. -/
def texts (r : Job τ) : List String :=
  [r.x402PaymentId, r.idempotencyKey, r.resource] ++ r.connectorReference.toList ++
    r.paymentId.toList ++ r.receiptAddress.toList ++ r.transactionSignature.toList ++ r.error.toList

end Job

structure Postgres (P : Columns) where
  payments : List String
  rows : List (Job P.Stamp)

namespace Postgres

variable {P : Columns} (s : Postgres P)

def text (t : String) : Except Unit String := if hasNul t then .error () else .ok t

def stamp (ms : Nat) : Except Unit P.Stamp :=
  if ms < 2 ^ 63 then
    match P.toTimestamp ms with
    | some t => .ok t
    | none => .error ()
  else .error ()

def json (v : Json) : Except Unit Json :=
  match P.jsonb v with
  | some v => .ok v
  | none => .error ()

def optionalJson : Option Json → Except Unit (Option Json)
  | none => .ok none
  | some v => do return some (← json (P := P) v)

/-- The values bound to the columns of a row. -/
def bind (r : Job Nat) : Except Unit (Job P.Stamp) := do
  let _ ← r.texts.mapM text
  return {
    x402PaymentId := r.x402PaymentId
    idempotencyKey := r.idempotencyKey
    connector := r.connector
    connectorReference := r.connectorReference
    resource := r.resource
    paymentId := r.paymentId
    receiptAddress := r.receiptAddress
    transactionSignature := r.transactionSignature
    status := r.status
    challenge := ← json (P := P) r.challenge
    proof := ← optionalJson (P := P) r.proof
    responseStatus := r.responseStatus
    error := r.error
    createdAt := ← stamp r.createdAt
    updatedAt := ← stamp r.updatedAt }

/-- `x402_from_row`. -/
def fromRow (r : Job P.Stamp) : Job Nat :=
  { r with createdAt := P.toMillis r.createdAt, updatedAt := P.toMillis r.updatedAt }

def row (id : String) : Option (Job P.Stamp) := s.rows.find? fun r => r.x402PaymentId = id

def job (id : String) : Option (Job Nat) := (s.row id).map fromRow

def findByIdempotency (key : String) : Except Unit (Option (Job Nat)) := do
  let key ← text key
  return (s.rows.find? fun r => r.idempotencyKey = key).map fromRow

/-- `split_part(key, ':', 1)`. -/
def splitPart (key : String) : String := String.ofList (key.toList.takeWhile (· ≠ ':'))

def others (q : Query) : List (Job P.Stamp) :=
  s.rows.filter fun r => r.connector = q.connector && r.connectorReference = some q.reference &&
    splitPart r.idempotencyKey = q.owner && r.idempotencyKey ≠ q.currentKey

def findOther (q : Query) : Except Unit (Option (Job Nat)) := do
  let _ ← [q.reference, q.owner, q.currentKey].mapM text
  letI := P.order
  return (((s.others q).insertionSort fun a b => b.updatedAt ≤ a.updatedAt).head?).map fromRow

/-- The foreign key of `payment_id`. -/
def linked (r : Job P.Stamp) : Bool := r.paymentId.all fun id => id ∈ s.payments

/-- The `DO UPDATE SET` list. -/
def merge (old r : Job P.Stamp) : Job P.Stamp :=
  { r with
    idempotencyKey := old.idempotencyKey
    connectorReference := r.connectorReference <|> old.connectorReference
    proof := r.proof <|> old.proof
    responseStatus := r.responseStatus <|> old.responseStatus
    createdAt := old.createdAt }

def putX402 (r : Job Nat) : Except Unit (Postgres P) := do
  let r ← bind r
  letI := P.order
  match s.row r.x402PaymentId with
  | none =>
    if s.rows.any fun old => old.idempotencyKey = r.idempotencyKey then .error ()
    else if s.linked r then .ok { s with rows := s.rows ++ [r] }
    else .error ()
  | some old =>
    if !(old.terminal r.status) && old.updatedAt ≤ r.updatedAt then
      if s.linked r then
        let rows := updateWhere (fun x => x.x402PaymentId = r.x402PaymentId)
          (fun x => merge x r) s.rows
        .ok { s with rows }
      else .error ()
    else .ok s

def putCrossmintProof (r : Job Nat) : Except Unit (Postgres P) := do
  let id ← text r.x402PaymentId
  let proof ← optionalJson (P := P) r.proof
  let _ ← r.error.toList.mapM text
  let updatedAt ← stamp (P := P) r.updatedAt
  letI := P.order
  let rows := updateWhere
    (fun old => old.x402PaymentId = id && old.refreshable && old.updatedAt ≤ updatedAt)
    (fun old =>
      { old with
        proof, updatedAt
        responseStatus := r.responseStatus
        error := r.error
        status := if old.status = .verified && !(Job.reverses r.proof) then old.status
          else r.status }) s.rows
  return { s with rows }

def call : Op → Except Unit (Postgres P)
  | .putPayment id => .ok { s with payments := id :: s.payments }
  | .putX402 r => s.putX402 r
  | .putCrossmintProof r => s.putCrossmintProof r

end Postgres

/-! ## Convex -/

/-- The JSON library of the deployment, and the sizes that it accepts. -/
structure Deployment where
  /-- A value after `parse` and `stringify`. -/
  lossless : Json → Json
  /-- The text of a record has at most 700000 bytes. -/
  textFits : Job Nat → Bool
  /-- The document of a record has at most 900000 bytes. -/
  documentFits : Job Nat → Bool

/-- The columns that the indexes are on. -/
structure Fields where
  key : String
  updated : Nat
  idempotency : String
  owner : Option String
  connector : ConnectorKind
  reference : Option String
  deriving DecidableEq

structure Row where
  record : Job Nat
  fields : Fields

structure Convex (D : Deployment) where
  payments : List String
  rows : List Row

namespace Convex

variable {D : Deployment} (s : Convex D)

def string (t : String) : Except Unit String := if t = "" then .error () else .ok t

def optional : Option String → Except Unit (Option String)
  | none => .ok none
  | some t => do return some (← string t)

def isNull : Json → Bool
  | .null => true
  | _ => false

/-- A record as it is read from its text; `null` says nothing. -/
def json (r : Job Nat) : Except Unit (Job Nat) :=
  if D.textFits r then
    .ok { r with
      challenge := D.lossless r.challenge
      proof := (r.proof.map D.lossless).filter fun p => !isNull p }
  else .error ()

/-- A stored record, read again. -/
def stored (r : Job Nat) : Except Unit (Job Nat) := if D.textFits r then .ok r else .error ()

/-- The part of a key before its first colon. -/
def ownerOf (key : String) : Option String :=
  if ':' ∈ key.toList then some (String.ofList (key.toList.takeWhile (· ≠ ':'))) else none

def metadata (r : Job Nat) : Except Unit Fields := do
  let key ← string r.x402PaymentId
  let idempotency ← string r.idempotencyKey
  let _ ← optional r.receiptAddress
  let reference ← optional r.connectorReference
  return {
    key, idempotency, reference
    updated := r.updatedAt
    owner := ownerOf r.idempotencyKey
    connector := r.connector }

def row (key : String) : Option Row := s.rows.find? fun x => x.fields.key = key

def job (id : String) : Option (Job Nat) := (s.row id).map (·.record)

def findByIdempotency (key : String) : Except Unit (Option (Job Nat)) := do
  let key ← string key
  return (s.rows.find? fun x => x.fields.idempotency = key).map (·.record)

/-- The rows of an order, through the index. -/
def ofOrder (q : Query) : List Row :=
  byIndexDesc (·.fields.updated) (s.rows.filter fun x => x.fields.owner = some q.owner &&
    x.fields.connector = q.connector && x.fields.reference = some q.reference)

def findOther (q : Query) : Except Unit (Option (Job Nat)) := do
  let _ ← string q.owner
  let _ ← string q.reference
  let rows := (s.ofOrder q).take 2
  -- the key is looked at with the first row
  if rows.isEmpty then return none
  else
    let currentKey ← string q.currentKey
    return (rows.find? fun x => x.fields.idempotency ≠ currentKey).map (·.record)

/-- The linked payment exists. -/
def checkLink (payments : List String) : Option String → Except Unit Unit
  | none => .ok ()
  | some id => do
    let id ← string id
    if id ∈ payments then .ok () else .error ()

/-- What a write leaves of the stored record. -/
def merge (prior r : Job Nat) : Job Nat :=
  { r with
    createdAt := prior.createdAt
    idempotencyKey := prior.idempotencyKey
    proof := r.proof <|> prior.proof
    responseStatus := r.responseStatus <|> prior.responseStatus }

/-- The end of `writeRecord`: the record's row, after the checks across rows. -/
def finish (old : Option Row) (r : Job Nat) : Except Unit (Convex D) := do
  let fields ← metadata r
  checkLink s.payments r.paymentId
  if s.rows.any fun x => x.fields.idempotency = fields.idempotency &&
      !(old.any fun o => o.fields.key = x.fields.key) then .error ()
  else if !(D.documentFits r) then .error ()
  else
    match old with
    | none => return { s with rows := s.rows ++ [⟨r, fields⟩] }
    | some o =>
      let rows := updateWhere (fun x => x.fields.key = o.fields.key) (fun _ => ⟨r, fields⟩) s.rows
      return { s with rows }

/-- `writeRecord` of a job that was not imported. -/
def putX402 (r : Job Nat) : Except Unit (Convex D) := do
  let r ← json (D := D) r
  let fields ← metadata r
  match s.row fields.key with
  | none => s.finish none r
  | some old =>
    let prior ← stored (D := D) old.record
    if prior.terminal r.status || fields.updated < old.fields.updated then return s
    else s.finish (some old) (merge prior r)

/-- `typeof value === "object"`, where numbers are objects that hold their text. -/
def reverses (proof : Option Json) : Bool :=
  proof.any fun p =>
    (match p.get "delivery".toList with
      | some (.str s) => s = "failed".toList
      | _ => false) ||
    (match p.get "refunded".toList with
      | some (.obj _) => true
      | some (.arr _) => true
      | some (.num _) => true
      | _ => false)

def putCrossmintProof (r : Job Nat) : Except Unit (Convex D) := do
  let r ← json (D := D) r
  let key ← string r.x402PaymentId
  match s.row key with
  | none => return s
  | some old =>
    let prior ← stored (D := D) old.record
    if !prior.refreshable || r.updatedAt < old.fields.updated then return s
    else if r.status ≠ .confirmed ∧ r.status ≠ .verified then .error ()
    else
      let record := prior.refresh (reverses r.proof) r
      let rows := updateWhere (fun x => x.fields.key = key)
        (fun x => ⟨record, { x.fields with updated := record.updatedAt }⟩) s.rows
      return { s with rows }

def call : Op → Except Unit (Convex D)
  | .putPayment id => .ok { s with payments := id :: s.payments }
  | .putX402 r => s.putX402 r
  | .putCrossmintProof r => s.putCrossmintProof r

end Convex

end ChainPay.Jobs
