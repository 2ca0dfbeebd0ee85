import ChainPay.Requests.Parts

/-!
Requester-signed mandate requests. The SDK verifies what `JSON.parse` made of a document; the
relay reads a struct from it and verifies that. Both check every field and the role rules, write
the payload as canonical JSON with its fields in a fixed order, and verify the requester's
signature over it.
-/

namespace ChainPay.Requests
open ChainPay.Lib ChainPay.Sdk

/-- `τ` is the type of texts: those of JavaScript or those of Rust. -/
structure MandateRequestPayload (τ : Type) where
  version : Nat
  cluster : τ
  role : τ
  requester : τ
  requesterName : Option τ
  agent : Option τ
  mint : τ
  tokenProgram : τ
  recipient : Option τ
  suggestedMaxPerPayment : τ
  suggestedTotal : τ
  decimals : Nat
  suggestedExpirySlot : Option τ
  validUntilSlot : Option τ
  description : τ
  poNumber : Option τ
  nonce : τ
  deriving DecidableEq

def MandateRequestPayload.map {α β : Type} (f : α → β) (p : MandateRequestPayload α) :
    MandateRequestPayload β where
  version := p.version
  cluster := f p.cluster
  role := f p.role
  requester := f p.requester
  requesterName := p.requesterName.map f
  agent := p.agent.map f
  mint := f p.mint
  tokenProgram := f p.tokenProgram
  recipient := p.recipient.map f
  suggestedMaxPerPayment := f p.suggestedMaxPerPayment
  suggestedTotal := f p.suggestedTotal
  decimals := p.decimals
  suggestedExpirySlot := p.suggestedExpirySlot.map f
  validUntilSlot := p.validUntilSlot.map f
  description := f p.description
  poNumber := p.poNumber.map f
  nonce := f p.nonce

structure SignedMandateRequest (τ : Type) where
  payload : MandateRequestPayload τ
  signature : τ
  deriving DecidableEq

/-- What a verification reports of a valid request. -/
structure VerifiedRequest where
  canonical : Bytes
  requestHash : List Char
  deriving DecidableEq

def MAX_REQUESTER_NAME_LENGTH : Nat := 64
def MAX_REQUEST_DESCRIPTION_LENGTH : Nat := 280
def MAX_PO_NUMBER_LENGTH : Nat := 64
def MAX_REQUEST_NONCE_LENGTH : Nat := 128

/-- A member of the canonical JSON. -/
def member (name : String) (text : List Char) : List Char × List Char := (name.toList, text)

/-- A member that appears only when present. -/
def optionalMember {τ : Type} (quote : τ → List Char) (name : String) (value : Option τ) :
    List (List Char × List Char) :=
  value.toList.map fun v => member name (quote v)

/-! ## The SDK -/

def PAYLOAD_KEYS : List String :=
  ["version", "cluster", "role", "requester", "requesterName", "agent", "mint", "tokenProgram",
   "recipient", "suggestedMaxPerPayment", "suggestedTotal", "decimals", "suggestedExpirySlot",
   "validUntilSlot", "description", "poNumber", "nonce"]

def ENVELOPE_KEYS : List String := ["payload", "signature"]

/-- The members of a plain object. -/
def plainObject : Option Doc → Option (List (JsText × Doc))
  | some (.obj ms) => some ms
  | _ => none

/-- `JSON.stringify` of the ordered payload. -/
def canonicalMandateRequest (p : MandateRequestPayload JsText) : List Char :=
  objectText <|
    [member "version" (decimal p.version), member "cluster" (quotePoints p.cluster),
     member "role" (quotePoints p.role), member "requester" (quotePoints p.requester)] ++
    optionalMember quotePoints "requesterName" p.requesterName ++
    optionalMember quotePoints "agent" p.agent ++
    [member "mint" (quotePoints p.mint), member "tokenProgram" (quotePoints p.tokenProgram)] ++
    optionalMember quotePoints "recipient" p.recipient ++
    [member "suggestedMaxPerPayment" (quotePoints p.suggestedMaxPerPayment),
     member "suggestedTotal" (quotePoints p.suggestedTotal),
     member "decimals" (decimal p.decimals)] ++
    optionalMember quotePoints "suggestedExpirySlot" p.suggestedExpirySlot ++
    optionalMember quotePoints "validUntilSlot" p.validUntilSlot ++
    [member "description" (quotePoints p.description)] ++
    optionalMember quotePoints "poNumber" p.poNumber ++
    [member "nonce" (quotePoints p.nonce)]

/-- `[\u0000-\u001f\u007f]`. -/
def isControlCharacter (c : Char) : Bool := c.toNat ≤ 0x1f || c.toNat = 0x7f

/-- A text that must be there. -/
def boundedText (value : Option Doc) (name : JsText) (max : Nat) : Except JsText JsText := do
  let u ← okOr (textOf value) (name ++ " must be text")
  ensure (trimPoints u ≠ []) (name ++ " must not be empty")
  ensure (u = trimPoints u) (name ++ " must not start or end with spaces")
  ensure (u.length ≤ max) (name ++ " must be at most " ++ points (decimal max) ++ " characters")
  ensure (u.any (onChar isControlCharacter) = false) (name ++ " must not contain control characters")
  return u

section

variable [PublicKey]

/-- The role rules: a vendor names a recipient, a grantee an agent, and neither the other. -/
def parties (role : JsText) (recipient agent : Option Doc) :
    Except JsText (Option JsText × Option JsText) :=
  if role = key "vendor" then do
    let r ← canonicalAddress recipient "recipient"
    ensure (agent.isNone = true) "A vendor request must not name an agent"
    return (some r, none)
  else do
    let a ← canonicalAddress agent "agent"
    ensure (recipient.isNone = true) "A budget request must not name a recipient"
    return (none, some a)

def parseMandateRequestPayload (value : Option Doc) :
    Except JsText (MandateRequestPayload JsText) := do
  let ms ← okOr (plainObject value) "Mandate request payload must be an object"
  refuseExtra PAYLOAD_KEYS "Unknown mandate request field" ms
  let get := lastOf ms
  ensure (naturalOf (get "version") = some 1) "Unsupported mandate request version"
  let cluster ← oneOf (get "cluster") ["devnet", "mainnet-beta"] "Unsupported Solana cluster"
  let role ← oneOf (get "role") ["vendor", "grantee"] "Role must be vendor or grantee"
  let tokenProgram ← oneOf (get "tokenProgram") ["spl-token", "token-2022"]
    "Unsupported token program"
  let requester ← canonicalAddress (get "requester") "requester"
  let mint ← canonicalAddress (get "mint") "mint"
  let (recipient, agent) ← parties role (get "recipient") (get "agent")
  let requesterName ← whenPresent (get "requesterName") fun v =>
    boundedText v "requesterName" MAX_REQUESTER_NAME_LENGTH
  let description ← boundedText (get "description") "description" MAX_REQUEST_DESCRIPTION_LENGTH
  let poNumber ← whenPresent (get "poNumber") fun v =>
    boundedText v "poNumber" MAX_PO_NUMBER_LENGTH
  let nonce ← boundedText (get "nonce") "nonce" MAX_REQUEST_NONCE_LENGTH
  let (perText, perPayment) ← u64String (get "suggestedMaxPerPayment") "suggestedMaxPerPayment" true
  let (totalText, total) ← u64String (get "suggestedTotal") "suggestedTotal" true
  ensure (perPayment ≤ total) "suggestedTotal must be at least suggestedMaxPerPayment"
  let decimals ← okOr ((naturalOf (get "decimals")).filter (· ≤ 255))
    "decimals must be an integer between 0 and 255"
  let expiry ← whenPresent (get "suggestedExpirySlot") fun v =>
    u64String v "suggestedExpirySlot" true
  let until_ ← whenPresent (get "validUntilSlot") fun v => u64String v "validUntilSlot" true
  return {
    version := 1
    cluster
    role
    requester
    requesterName
    agent
    mint
    tokenProgram
    recipient
    suggestedMaxPerPayment := perText
    suggestedTotal := totalText
    decimals
    suggestedExpirySlot := expiry.map Prod.fst
    validUntilSlot := until_.map Prod.fst
    description
    poNumber
    nonce }

def parseSignedMandateRequest (value : Doc) : Except JsText (SignedMandateRequest JsText) := do
  let ms ← okOr (plainObject (some value)) "Mandate request must be an object"
  refuseExtra ENVELOPE_KEYS "Unknown mandate request envelope field" ms
  let signature ← okOr (textOf (lastOf ms "signature")) "Mandate request signature is required"
  let payload ← parseMandateRequestPayload (lastOf ms "payload")
  return { payload, signature }

/-- `base64UrlToBytes`: a text of base64url, padded to whole groups for `atob`. -/
def base64UrlToBytes (value : JsText) : Option Bytes := do
  let t ← chars value
  if t.all isUrlChar = true ∧ t.length % 4 ≠ 1 then
    atob (replaceAll '_' '/' (replaceAll '-' '+' t) ++ padding t.length)
  else none

/-- Whether a stated slot is not after the current one, if that is given. -/
def isPast (slot : Option JsText) : Option Nat → Bool
  | none => false
  | some current => (slot.bind chars).any fun t => decimalValue t ≤ current

variable [Ed25519]

/-- With `currentSlot`, an expired link or a suggested expiry in the past is refused. -/
def verifyMandateRequest (request : Doc) (currentSlot : Option Nat) :
    Except JsText VerifiedRequest := do
  let signed ← parseSignedMandateRequest request
  let payload := signed.payload
  let message := encodeUtf8 (canonicalMandateRequest payload)
  ensure (isPast payload.validUntilSlot currentSlot = false) "This request link has expired"
  ensure (isPast payload.suggestedExpirySlot currentSlot = false)
    "The suggested expiry has already passed"
  let signature ← okOr (base64UrlToBytes signed.signature) "Signature must be base64url"
  ensure (signature.length = 64) "Ed25519 signature must be 64 bytes"
  let key ← okOr (publicKeyBytes payload.requester) "Invalid public key input"
  ensure (Ed25519.verify key message signature = true) "Mandate request signature is invalid"
  return { canonical := message, requestHash := toHex (sha256 message) }

end

/-! ## The relay -/

namespace Relay

def payloadFields : Fields := { names := PAYLOAD_KEYS, strict := true, least := 17 }

def envelopeFields : Fields := { names := ENVELOPE_KEYS, strict := true, least := 2 }

/-- The derived reader of `MandateRequestPayload`. -/
def readPayload (r : Reading) (d : Doc) : Option (MandateRequestPayload (List Char)) :=
  let get := payloadFields.find d
  if payloadFields.Admits r d then do
    return {
      version := ← serdeByte (get "version")
      cluster := ← serdeString (get "cluster")
      role := ← serdeString (get "role")
      requester := ← serdeString (get "requester")
      requesterName := ← serdeOption (get "requesterName")
      agent := ← serdeOption (get "agent")
      mint := ← serdeString (get "mint")
      tokenProgram := ← serdeString (get "tokenProgram")
      recipient := ← serdeOption (get "recipient")
      suggestedMaxPerPayment := ← serdeString (get "suggestedMaxPerPayment")
      suggestedTotal := ← serdeString (get "suggestedTotal")
      decimals := ← serdeByte (get "decimals")
      suggestedExpirySlot := ← serdeOption (get "suggestedExpirySlot")
      validUntilSlot := ← serdeOption (get "validUntilSlot")
      description := ← serdeString (get "description")
      poNumber := ← serdeOption (get "poNumber")
      nonce := ← serdeString (get "nonce") }
  else none

/-- The derived reader of `SignedMandateRequest`. The relay takes the body as a
`serde_json::Value` first. -/
def readSigned [SerdeJson] (r : Reading) (d : Doc) :
    Option (SignedMandateRequest (List Char)) :=
  if r.takes d ∧ envelopeFields.Admits r d then do
    let payload ← readPayload r (← envelopeFields.find d "payload")
    let signature ← serdeString (envelopeFields.find d "signature")
    return { payload, signature }
  else none

/-- `serde_json::to_vec`: the fields of the struct in order, absent options skipped. -/
def canonicalMandateRequest (p : MandateRequestPayload (List Char)) : Bytes :=
  encodeUtf8 <| objectText <|
    [member "version" (decimal p.version), member "cluster" (quoteText p.cluster),
     member "role" (quoteText p.role), member "requester" (quoteText p.requester)] ++
    optionalMember quoteText "requesterName" p.requesterName ++
    optionalMember quoteText "agent" p.agent ++
    [member "mint" (quoteText p.mint), member "tokenProgram" (quoteText p.tokenProgram)] ++
    optionalMember quoteText "recipient" p.recipient ++
    [member "suggestedMaxPerPayment" (quoteText p.suggestedMaxPerPayment),
     member "suggestedTotal" (quoteText p.suggestedTotal),
     member "decimals" (decimal p.decimals)] ++
    optionalMember quoteText "suggestedExpirySlot" p.suggestedExpirySlot ++
    optionalMember quoteText "validUntilSlot" p.validUntilSlot ++
    [member "description" (quoteText p.description)] ++
    optionalMember quoteText "poNumber" p.poNumber ++
    [member "nonce" (quoteText p.nonce)]

def boundedText (value : Option (List Char)) (name : String) (max : Nat) (required : Bool) :
    Except String Unit :=
  match value with
  | none => if required then .error (name ++ " must be text") else .ok ()
  | some s => do
    ensure (rustTrim s ≠ []) (name ++ " must not be empty")
    ensure (s = rustTrim s) (name ++ " must not start or end with spaces")
    ensure (s.length ≤ max) (name ++ " must be at most " ++ toString max ++ " characters")
    ensure (s.any (fun c => c.toNat < 0x20 || c.toNat = 0x7f) = false)
      (name ++ " must not contain control characters")

/-- The check of a value that may be missing. -/
def transpose (value : Option (List Char)) (check : List Char → Except String Nat) :
    Except String (Option Nat) :=
  match value with
  | none => .ok none
  | some s => (check s).map some

section

variable [PublicKey]

def checkParties (p : MandateRequestPayload (List Char)) : Except String Unit :=
  if p.role = "vendor".toList then do
    let _ ← decodeAddress (p.recipient.getD []) "recipient"
    ensure (p.agent.isNone = true) "A vendor request must not name an agent"
  else if p.role = "grantee".toList then do
    let _ ← decodeAddress (p.agent.getD []) "agent"
    ensure (p.recipient.isNone = true) "A budget request must not name a recipient"
  else .error "Role must be vendor or grantee"

/-- Every field and the role rules; the requester's key. -/
def checkFields (p : MandateRequestPayload (List Char)) : Except String Bytes := do
  ensure (p.version = 1) "Unsupported mandate request version"
  ensure (p.cluster = "devnet".toList ∨ p.cluster = "mainnet-beta".toList)
    "Unsupported Solana cluster"
  ensure (p.tokenProgram = "spl-token".toList ∨ p.tokenProgram = "token-2022".toList)
    "Unsupported token program"
  let requester ← decodeAddress p.requester "requester"
  let _ ← decodeAddress p.mint "mint"
  checkParties p
  boundedText p.requesterName "requesterName" MAX_REQUESTER_NAME_LENGTH false
  boundedText (some p.description) "description" MAX_REQUEST_DESCRIPTION_LENGTH true
  boundedText p.poNumber "poNumber" MAX_PO_NUMBER_LENGTH false
  boundedText (some p.nonce) "nonce" MAX_REQUEST_NONCE_LENGTH true
  let perPayment ← u64String p.suggestedMaxPerPayment "suggestedMaxPerPayment" true
  let total ← u64String p.suggestedTotal "suggestedTotal" true
  ensure (perPayment ≤ total) "suggestedTotal must be at least suggestedMaxPerPayment"
  let _ ← transpose p.suggestedExpirySlot fun s => u64String s "suggestedExpirySlot" true
  let _ ← transpose p.validUntilSlot fun s => u64String s "validUntilSlot" true
  return requester

variable [Ed25519]

def verifyMandateRequest (request : SignedMandateRequest (List Char)) :
    Except String VerifiedRequest := do
  let requester ← checkFields request.payload
  let canonical := canonicalMandateRequest request.payload
  let signature ← okOr (strictUrl request.signature) "Signature must be base64url"
  ensure (signature.length = 64) "Ed25519 signature must be 64 bytes"
  ensure (Ed25519.verify requester canonical signature = true)
    "Mandate request signature is invalid"
  return { canonical, requestHash := toHex (sha256 canonical) }

/-- What the relay makes of a document. -/
def verifyDocument [SerdeJson] (r : Reading) (d : Doc) : Except String VerifiedRequest := do
  let signed ← okOr (readSigned r d) "mandate request is malformed"
  verifyMandateRequest signed

end

end Relay

end ChainPay.Requests
