import ChainPay.Lib.Base58
import ChainPay.Lib.Base64
import ChainPay.Lib.Checked
import ChainPay.Lib.Document
import ChainPay.Lib.Wire

/-!
A Crossmint order before it is paid: what the SDK reads off the provider's body
(`crossmint-order.ts`), what the prepared transaction charges, and the memo as the SDK and the relay
(`server_transactions.rs`) read it.
-/

namespace ChainPay.Checkout
open ChainPay.Lib ChainPay.Lib.Wire

structure CompiledInstruction where
  programIdIndex : Nat
  accountKeyIndexes : List Nat
  data : Bytes
  deriving DecidableEq, Repr

/-- A message of a `VersionedTransaction`; of its address table lookups only the number counts. -/
structure VersionedMessage where
  numRequiredSignatures : Nat
  staticAccountKeys : List Key
  addressTableLookups : Nat
  compiledInstructions : List CompiledInstruction
  deriving DecidableEq, Repr

/-- What the SDK takes from `@solana/web3.js` and from the runtime's `Date`. -/
class Web3 where
  /-- The message of `VersionedTransaction.deserialize`, unless that throws. -/
  deserialize : Bytes → Option VersionedMessage
  /-- `new PublicKey(text)`, unless that throws. -/
  publicKey : List Char → Option Key
  /-- `Date.parse`, unless that is no finite number. -/
  dateParse : JsText → Option Int

inductive CrossmintOrderErrorCode where
  | malformed
  | orderNotPayable
  | termsUnavailable
  | termsMismatch
  | unsupportedTokenProgram
  deriving DecidableEq, Repr

abbrev Checked := Except CrossmintOrderErrorCode

def MAX_ORDER_ID_CHARS : Nat := 128
def MAX_SERIALIZED_TRANSACTION_CHARS : Nat := 16 * 1024
def MAX_LINE_ITEM_LOCATORS : Nat := 32
def MAX_LOCATOR_CHARS : Nat := 256
def MAX_ITEM_NAME_CHARS : Nat := 200
def MAX_ITEM_DESCRIPTION_CHARS : Nat := 2000
def MAX_ITEM_IMAGE_URL_CHARS : Nat := 1024
def MAX_CROSSMINT_MEMO_BYTES : Nat := 512
def MAX_U64 : Nat := 2 ^ 64 - 1
def MAX_SAFE_INTEGER : Nat := 2 ^ 53 - 1

def SPL_TRANSFER_TAG : UInt8 := 3
def SPL_TRANSFER_CHECKED_TAG : UInt8 := 12

def SPL_TOKEN_PROGRAM_ID : JsText := key "TokenkegQfeZyiNwAJbNbGKPFXCWuBvf9Ss623VQ5DA"
def TOKEN_2022_PROGRAM_ID : JsText := key "TokenzQdBNbLqP5VEhdkAS6EPFLC1PHnBqCXEpPxuEb"
def MEMO_PROGRAM_ID : JsText := key "MemoSq4gqABAXKb96qnH8TysNcWxMyWCqXgDLGmfcHr"
def DEVNET_USDC : JsText := key "4zMMC9srt5Ri5X14GAgXhaHii3GnPAEERYPJgZJDncDU"

/-- `PublicKey.default.toBase58()`. -/
def DEFAULT_ADDRESS : JsText := points (List.replicate 32 '1')

def address (k : Key) : JsText := points (toBase58 k.bytes)

/-! ## Reading the body -/

def isRecord : Doc → Bool
  | .obj _ => true
  | _ => false

def optionalRecord (value : Option Doc) : Option Doc := value.filter isRecord

/-- `record?.name`. -/
def member (name : String) (record : Option Doc) : Option Doc := record.bind (Doc.prop name)

/-- A value that is neither `undefined` nor `null`. -/
def stated (value : Option Doc) : Option Doc :=
  match value with
  | some .null => none
  | v => v

def optionalString (value : Option Doc) (max : Nat) : Option JsText := do
  let trimmed := trimPoints (← textOf value)
  if trimmed = [] ∨ max < utf16 trimmed then none else some trimmed

def boundedString (value : Option Doc) (max : Nat) : Checked JsText := do
  let text ← okOr (textOf value) .malformed
  ensure (trimPoints text ≠ []) .malformed
  ensure (utf16 (trimPoints text) ≤ max) .malformed
  return trimPoints text

/-- `/^(\d+)(?:\.(\d+))?$/`: the digits before and after the point. -/
def decimalParts (text : List Char) : Option (List Char × List Char) :=
  let whole := text.takeWhile isDecimalDigit
  if whole = [] then none
  else
    match text.drop whole.length with
    | [] => some (whole, [])
    | '.' :: digits =>
      if digits ≠ [] ∧ digits.all isDecimalDigit = true then some (whole, digits) else none
    | _ => none

/-- Scale a decimal display amount to base units without floating point. -/
def scaleDecimalString (value : JsText) (decimals : Nat) : Option Nat :=
  if 20 < decimals then none
  else do
    let (whole, digits) ← decimalParts (← chars (trimPoints value))
    if decimals < digits.length ∧ (digits.drop decimals).all (· = '0') = false then none
    else
      let padded := (digits ++ List.replicate decimals '0').take decimals
      some (decimalValue (whole ++ padded))

def lineItemLocator (record : Option Doc) : Option JsText :=
  optionalString (member "tokenLocator" record) MAX_LOCATOR_CHARS <|>
    optionalString (member "collectionLocator" record) MAX_LOCATOR_CHARS

def elements : Option Doc → List Doc
  | some (.arr vs) => vs
  | _ => []

def lineItemLocators (value : Option Doc) : List JsText :=
  ((elements value).take MAX_LINE_ITEM_LOCATORS).filterMap fun item =>
    lineItemLocator (optionalRecord (some item))

/-- A text of `/^\d{1,9}$/`. -/
def shortDigits (text : JsText) : Option Nat := do
  let digits ← chars text
  if digits ≠ [] ∧ digits.length ≤ 9 ∧ digits.all isDecimalDigit = true then
    some (decimalValue digits)
  else none

def positiveInteger (value : Doc) : Option Nat :=
  let parsed := match value with
    | .str u => shortDigits (trimPoints u)
    | .num n => n.natural.filter (· ≤ MAX_SAFE_INTEGER)
    | _ => none
  parsed.filter (0 < ·)

variable [Web3]

/-- What follows the `solana:` of a locator, or a text without a colon. -/
def walletCandidate (text : JsText) : Option JsText :=
  if .char ':' ∈ text then
    if text.takeWhile (· ≠ .char ':') = key "solana" then
      some (text.dropWhile (· ≠ .char ':')).tail
    else none
  else some text

/-- Normalize a delivery wallet. Only a Solana address counts; an email is not a wallet. -/
def solanaWallet (value : Doc) : Option JsText := do
  let text ← optionalString (some value) MAX_LOCATOR_CHARS
  let candidate ← walletCandidate text
  let k ← Web3.publicKey (← chars candidate)
  if candidate ≠ [] ∧ address k = candidate ∧ candidate ≠ DEFAULT_ADDRESS then some candidate
  else none

/-- What several fields state of one thing. -/
inductive Agreed (α : Type) where
  | absent
  | value (a : α)
  | conflict
  deriving DecidableEq, Repr

/-- Every stated value must agree; disagreement is a conflict, never a choice. -/
def agreed {α : Type} [DecidableEq α] (values : List α) : Agreed α :=
  match values with
  | [] => .absent
  | v :: vs => if (v :: vs).all (· = v) then .value v else .conflict

/-- The stated ones of some fields; one that cannot be read is a conflict too. -/
def agreement {α : Type} [DecidableEq α] (read : Doc → Option α) (fields : List (Option Doc)) :
    Agreed α :=
  let raw := fields.filterMap stated
  if none ∈ raw.map read then .conflict else agreed (raw.filterMap read)

/-- A string Crossmint may state. -/
inductive Stated where
  | absent
  | unreadable
  | text (u : JsText)
  deriving DecidableEq, Repr

def statedString (value : Option Doc) (max : Nat) : Stated :=
  match stated value with
  | none => .absent
  | some v =>
    match optionalString (some v) max with
    | none => .unreadable
    | some u => .text u

def Stated.toOption : Stated → Option JsText
  | .text u => some u
  | _ => none

structure Price where
  amount : JsText
  currency : Option JsText
  deriving DecidableEq, Repr

structure CrossmintLineItem where
  locator : Option JsText
  name : Option JsText
  description : Option JsText
  imageUrl : Option JsText
  metadataUnreadable : Bool
  chain : Option JsText
  executionMode : Option JsText
  quantity : Agreed Nat
  deliveryRecipient : Agreed JsText
  totalPrice : Option Price
  deriving DecidableEq, Repr

/-- An amount with its currency. -/
def readPrice (total : Option Doc) : Option Price := do
  let amount ← optionalString (member "amount" total) 64
  some ⟨amount, optionalString (member "currency" total) 32⟩

def quoteTotal (record : Option Doc) : Option Price :=
  readPrice (optionalRecord (member "totalPrice" (optionalRecord (member "quote" record))))

def lineItem (value : Doc) : Option CrossmintLineItem := do
  let record ← optionalRecord (some value)
  let callData := optionalRecord (member "callData" record)
  let executionParams := optionalRecord (member "executionParams" record)
  let recipient :=
    optionalRecord (member "recipient" (optionalRecord (member "delivery" record)))
  let metadata := optionalRecord (member "metadata" record)
  let name := statedString (member "name" metadata) MAX_ITEM_NAME_CHARS
  let description := statedString (member "description" metadata) MAX_ITEM_DESCRIPTION_CHARS
  let imageUrl := statedString (member "imageUrl" metadata) MAX_ITEM_IMAGE_URL_CHARS
  return {
    locator := lineItemLocator record
    name := name.toOption
    description := description.toOption
    imageUrl := imageUrl.toOption
    metadataUnreadable :=
      (stated (member "metadata" record)).isSome && metadata.isNone ||
        [name, description, imageUrl].any (· = .unreadable)
    chain := optionalString (member "chain" record) 64
    executionMode := optionalString (member "executionMode" record) 32
    quantity := agreement positiveInteger
      [member "quantity" record, member "quantity" callData, member "quantity" executionParams]
    deliveryRecipient := agreement solanaWallet
      [member "walletAddress" recipient, member "locator" recipient]
    totalPrice := quoteTotal record }

def lineItems (value : Option Doc) : List CrossmintLineItem × Nat :=
  (((elements value).take MAX_LINE_ITEM_LOCATORS).filterMap lineItem, (elements value).length)

structure CrossmintOrderSummary where
  orderId : JsText
  phase : JsText
  paymentStatus : Option JsText
  paymentMethod : Option JsText
  currency : Option JsText
  quotedTotal : Option Price
  lineItemLocators : List JsText
  lineItems : List CrossmintLineItem
  lineItemCount : Nat
  serializedTransaction : Option JsText
  transactionMemo : Option JsText
  transactionAmount : Option JsText
  payerAddress : Option JsText
  preparationChain : Option JsText
  quoteExpiresAt : Option JsText
  quoteStatus : Option JsText
  deriving DecidableEq, Repr

/-- A text of `/^\d{1,20}$/`. -/
def isAmount (text : JsText) : Bool :=
  text ≠ [] && text.length ≤ 20 && text.all (onChar isDecimalDigit)

/-- The order of an envelope, or the body itself. -/
def orderOf (envelope : Doc) : Doc := (optionalRecord (member "order" envelope)).getD envelope

def parseCrossmintOrder (value : Doc) : Checked CrossmintOrderSummary := do
  let envelope ← okOr (optionalRecord (some value)) .malformed
  let order := orderOf envelope
  let orderId ← boundedString (stated (member "orderId" order) <|> member "id" order)
    MAX_ORDER_ID_CHARS
  let phase ← boundedString (member "phase" order) 64
  let payment := optionalRecord (member "payment" order)
  let preparation := optionalRecord (member "preparation" payment)
  let parameters := optionalRecord (member "transactionParameters" preparation)
  let quote := optionalRecord (member "quote" order)
  let (items, count) := lineItems (member "lineItems" order)
  return {
    orderId := orderId
    phase := phase
    paymentStatus := optionalString (member "status" payment) 64
    paymentMethod := optionalString (member "method" payment) 64
    currency := optionalString (member "currency" payment) 32
    quotedTotal := quoteTotal order
    lineItemLocators := lineItemLocators (member "lineItems" order)
    lineItems := items
    lineItemCount := count
    serializedTransaction := optionalString (member "serializedTransaction" preparation)
      MAX_SERIALIZED_TRANSACTION_CHARS
    -- Kept exactly as sent: the memo must match the prepared instruction byte for byte.
    transactionMemo := (textOf (member "memo" parameters)).filter fun memo =>
      memo ≠ [] ∧ (encodePoints memo).length ≤ MAX_CROSSMINT_MEMO_BYTES
    transactionAmount := (textOf (member "amount" parameters)).filter isAmount
    payerAddress := optionalString (member "payerAddress" preparation) 64
    preparationChain := optionalString (member "chain" preparation) 64
    quoteExpiresAt := optionalString (member "expiresAt" quote) 64
    quoteStatus := optionalString (member "status" quote) 32 }

/-! ## The prepared transaction -/

inductive TokenProgram where
  | splToken
  | token2022
  deriving DecidableEq, Repr

/-- The memo instruction's text and the accounts it names. -/
structure Memo where
  text : JsText
  signers : List JsText
  deriving DecidableEq, Repr

structure CrossmintTransferTerms where
  mint : JsText
  recipient : JsText
  source : JsText
  amount : JsText
  decimals : Option Nat
  tokenProgram : TokenProgram
  memo : Option Memo
  deriving DecidableEq, Repr

structure ExpectedTerms where
  mint : Option JsText
  tokenProgram : Option TokenProgram
  strict : Bool
  deriving DecidableEq, Repr

def base58Decode (value : JsText) : Option Bytes := (chars value).bind ofBase58

/-- `/^[A-Za-z0-9+/]+={0,2}$/`, read as `Buffer.from` does. -/
def base64Decode (value : JsText) : Option Bytes := do
  let text ← chars value
  let body := text.takeWhile (· ≠ '=')
  let padding := text.drop body.length
  let groups ← body.mapM base64Value
  if body = [] ∨ 2 < padding.length ∨ padding.all (· = '=') = false then none
  else some (looseSextets groups)

def deserializeWith (decode : JsText → Option Bytes) (wire : JsText) : Option VersionedMessage := do
  let bytes ← decode wire
  if bytes = [] then none else Web3.deserialize bytes

/-- Base58 as Crossmint documents it; base64 is still accepted. -/
def deserializeCrossmintTransaction (wire : JsText) : Checked VersionedMessage :=
  okOr (deserializeWith base58Decode wire <|> deserializeWith base64Decode wire) .malformed

def canonicalAddress (k : Key) : Checked JsText := do
  ensure (address k ≠ DEFAULT_ADDRESS) .malformed
  return address k

def tokenProgramFrom (programId : JsText) : Checked TokenProgram :=
  if programId = SPL_TOKEN_PROGRAM_ID then .ok .splToken
  else if programId = TOKEN_2022_PROGRAM_ID then .ok .token2022
  else .error .unsupportedTokenProgram

def decodeMemoText (data : Bytes) : Checked JsText := do
  ensure (data ≠ [] ∧ data.length ≤ MAX_CROSSMINT_MEMO_BYTES) .termsUnavailable
  let text ← okOr (strictUtf8 data) .termsUnavailable
  return points text

/-- What one instruction adds to what was read. -/
inductive Decoded where
  | nothing
  | memo (m : Memo)
  | transfer (t : CrossmintTransferTerms)
  deriving DecidableEq, Repr

section

variable (message : VersionedMessage) (expected : ExpectedTerms)

def keyAt (index : Nat) : Checked Key :=
  okOr message.staticAccountKeys[index]? .termsUnavailable

def decodeMemo (compiled : CompiledInstruction) : Checked Memo := do
  ensure (compiled.accountKeyIndexes.all (· < message.numRequiredSignatures) = true)
    .termsUnavailable
  let text ← decodeMemoText compiled.data
  let signers ← compiled.accountKeyIndexes.mapM fun index => do
    canonicalAddress (← keyAt message index)
  return ⟨text, signers⟩

/-- The account at a position of an instruction; every position asked for is below `minimumAccounts`. -/
def accountAt (compiled : CompiledInstruction) (position : Nat) : Checked JsText := do
  let index ← okOr compiled.accountKeyIndexes[position]? .termsUnavailable
  canonicalAddress (← keyAt message index)

def decodeTransfer (programId : JsText) (compiled : CompiledInstruction) (checked : Bool) :
    Checked CrossmintTransferTerms := do
  ensure (compiled.data.length = if checked then 10 else 9) .malformed
  let minimumAccounts := if checked then 4 else 3
  ensure (minimumAccounts ≤ compiled.accountKeyIndexes.length) .malformed
  ensure (¬ (expected.strict = true ∧
    (checked = false ∨ compiled.accountKeyIndexes.length ≠ minimumAccounts))) .termsUnavailable
  let amount := ofLeBytes ((compiled.data.drop 1).take 8)
  ensure (0 < amount ∧ amount ≤ MAX_U64) .malformed
  let source ← accountAt message compiled 0
  let recipient ← accountAt message compiled (if checked then 2 else 1)
  let tokenProgram ← tokenProgramFrom programId
  if checked then
    let mint ← accountAt message compiled 1
    return {
      mint := mint
      recipient := recipient
      source := source
      amount := points (decimal amount)
      decimals := (compiled.data[9]?).map UInt8.toNat
      tokenProgram := tokenProgram
      memo := none }
  else
    -- An unchecked transfer does not name its mint.
    let mint ← okOr (expected.mint.filter (· ≠ [])) .termsUnavailable
    return {
      mint := mint
      recipient := recipient
      source := source
      amount := points (decimal amount)
      decimals := none
      tokenProgram := tokenProgram
      memo := none }

def decodeInstruction (compiled : CompiledInstruction) : Checked Decoded := do
  let programId := address (← keyAt message compiled.programIdIndex)
  if expected.strict = true ∧ programId = MEMO_PROGRAM_ID then
    let m ← decodeMemo message compiled
    return .memo m
  else if programId ≠ SPL_TOKEN_PROGRAM_ID ∧ programId ≠ TOKEN_2022_PROGRAM_ID then
    ensure (expected.strict = false) .termsUnavailable
    return .nothing
  else
    let tag := compiled.data.head?
    if tag ≠ some SPL_TRANSFER_TAG ∧ tag ≠ some SPL_TRANSFER_CHECKED_TAG then
      ensure (expected.strict = false) .termsUnavailable
      return .nothing
    else
      let t ← decodeTransfer message expected programId compiled
        (decide (tag = some SPL_TRANSFER_CHECKED_TAG))
      return .transfer t

end

def Decoded.transfer? : Decoded → Option CrossmintTransferTerms
  | .transfer t => some t
  | _ => none

def Decoded.memo? : Decoded → Option Memo
  | .memo m => some m
  | _ => none

/-- Derive what a Crossmint order actually charges from the transaction Crossmint prepared. -/
def decodeCrossmintTransferTerms (serializedTransaction : JsText) (expected : ExpectedTerms) :
    Checked CrossmintTransferTerms := do
  let wire := trimPoints serializedTransaction
  ensure (wire ≠ [] ∧ utf16 wire ≤ MAX_SERIALIZED_TRANSACTION_CHARS) .malformed
  let message ← deserializeCrossmintTransaction wire
  ensure (message.addressTableLookups = 0) .termsUnavailable
  ensure (message.staticAccountKeys ≠ []) .termsUnavailable
  let decoded ← message.compiledInstructions.mapM (decodeInstruction message expected)
  let transfers := decoded.filterMap Decoded.transfer?
  let memos := decoded.filterMap Decoded.memo?
  let transfer ← okOr transfers.head? .termsUnavailable
  ensure (transfers.length ≤ 1) .termsUnavailable
  ensure (memos.length ≤ 1) .termsUnavailable
  let terms := { transfer with memo := memos.head? }
  ensure (∀ mint ∈ expected.mint, mint ≠ [] → mint = terms.mint) .termsMismatch
  ensure (∀ program ∈ expected.tokenProgram, program = terms.tokenProgram) .termsMismatch
  return terms

/-! ## The memo -/

def MEMO_BEGIN : List Char := "------BEGIN MEMO------".toList
def MEMO_END : List Char := "------END MEMO------".toList

def stripPrefix (pre s : List Char) : Option (List Char) :=
  if pre.isPrefixOf s then some (s.drop pre.length) else none

def stripSuffix (suf s : List Char) : Option (List Char) :=
  if suf.isSuffixOf s then some (s.take (s.length - suf.length)) else none

/-- The three segments of `------BEGIN MEMO------<JWT>------END MEMO------`. Each is a base64url
text, so the pattern of the SDK and the splitting of the relay find the same ones. -/
def memoSegments (memo : List Char) : Option (List Char × List Char × List Char) := do
  let jwt ← stripSuffix MEMO_END (← stripPrefix MEMO_BEGIN memo)
  match jwt.splitOn '.' with
  | [header, payload, signature] =>
    if [header, payload, signature].all fun s => s ≠ [] && s.all isUrlChar then
      some (header, payload, signature)
    else none
  | _ => none

/-- `JSON.parse(Buffer.from(segment, "base64url").toString("utf8"))`. -/
def base64UrlJson (segment : List Char) : Option Doc := do
  let groups ← segment.mapM urlValue
  docParse (utf8Read (looseSextets groups) {})

/-- Check Crossmint's order memo and return it unchanged. -/
def crossmintOrderMemo (memo orderId : JsText) : Checked JsText := do
  ensure ((encodePoints memo).length ≤ MAX_CROSSMINT_MEMO_BYTES) .termsUnavailable
  let (header, payload, _) ← okOr ((chars memo).bind memoSegments) .termsUnavailable
  let _ ← okOr (optionalRecord (base64UrlJson header)) .termsUnavailable
  let payload ← okOr (optionalRecord (base64UrlJson payload)) .termsUnavailable
  ensure (textOf (member "orderIdentifier" payload) = some orderId) .termsMismatch
  return memo

/-- The order a Crossmint memo names, as the relay reads it. -/
def crossmint_memo_order [SerdeJson] (memo : List Char) : Option (List Char) := do
  let (_, payload, _) ← memoSegments memo
  let text ← strictUtf8 (← strictUrl payload)
  let value ← (docParse text).filter (·.held MAX_LEVELS)
  serdeString (value.prop "orderIdentifier")

/-! ## Checkout -/

inductive QuoteCheck where
  | matched
  | mismatch
  | unavailable
  deriving DecidableEq, Repr

def quoteCheckFor (order : CrossmintOrderSummary) (terms : CrossmintTransferTerms) : QuoteCheck :=
  match order.quotedTotal, terms.decimals with
  | some total, some decimals =>
    if order.currency = none ∨ total.currency ≠ order.currency then .unavailable
    else
      match scaleDecimalString total.amount decimals with
      | none => .unavailable
      | some units =>
        if some units = (chars terms.amount).map decimalValue then .matched else .mismatch
  | _, _ => .unavailable

/-- The material terms of one item, bound into the reviewed approval. -/
structure CrossmintBoundItem where
  locator : Option JsText
  name : Option JsText
  description : Option JsText
  imageUrl : Option JsText
  chain : Option JsText
  executionMode : Option JsText
  quantity : Option Nat
  deliveryRecipient : Option JsText
  totalPrice : Option Price
  deriving DecidableEq, Repr

def Agreed.toOption {α : Type} : Agreed α → Option α
  | .value a => some a
  | _ => none

def boundItem (item : CrossmintLineItem) : CrossmintBoundItem :=
  { locator := item.locator
    name := item.name
    description := item.description
    imageUrl := item.imageUrl
    chain := item.chain
    executionMode := item.executionMode
    quantity := item.quantity.toOption
    deliveryRecipient := item.deliveryRecipient.toOption
    totalPrice := item.totalPrice }

/-- Every line states what it delivers, how many, where to and on no other chain. -/
def requireBindableItems (order : CrossmintOrderSummary) : Checked Unit := do
  ensure (order.lineItemCount ≠ 0 ∧ order.lineItemCount ≤ MAX_LINE_ITEM_LOCATORS ∧
    order.lineItems.length = order.lineItemCount) .termsUnavailable
  order.lineItems.forM fun item => do
    ensure (item.name.isSome = true ∧ item.metadataUnreadable = false) .termsUnavailable
    ensure (∀ chain ∈ item.chain, chain = key "solana") .termsUnavailable
    ensure (item.quantity.toOption.isSome = true) .termsUnavailable
    ensure (item.deliveryRecipient.toOption.isSome = true) .termsUnavailable

structure CrossmintPaymentTerms where
  orderId : JsText
  phase : JsText
  mint : JsText
  recipient : JsText
  amount : JsText
  decimals : Option Nat
  tokenProgram : TokenProgram
  quoteCheck : QuoteCheck
  quotedTotal : Option Price
  lineItemLocators : List JsText
  items : List CrossmintBoundItem
  payerAddress : Option JsText
  crossmintSourceTokenAccount : JsText
  memo : Option JsText
  deriving DecidableEq, Repr

/-- Turn a Crossmint order into the terms ChainPay will check against a mandate. -/
def crossmintPaymentTerms (order : CrossmintOrderSummary) (expected : ExpectedTerms) :
    Checked CrossmintPaymentTerms := do
  ensure (order.phase = key "payment") .orderNotPayable
  let wire ← okOr order.serializedTransaction .termsUnavailable
  let terms ← decodeCrossmintTransferTerms wire expected
  return {
    orderId := order.orderId
    phase := order.phase
    mint := terms.mint
    recipient := terms.recipient
    amount := terms.amount
    decimals := terms.decimals
    tokenProgram := terms.tokenProgram
    quoteCheck := quoteCheckFor order terms
    quotedTotal := order.quotedTotal
    lineItemLocators := order.lineItemLocators
    items := order.lineItems.map boundItem
    payerAddress := order.payerAddress
    crossmintSourceTokenAccount := terms.source
    memo := none }

structure ExpectedCheckout where
  orderId : JsText
  owner : JsText
  source : JsText
  mint : JsText
  now : Int
  deriving DecidableEq, Repr

def validateCrossmintCheckoutOrder (order : CrossmintOrderSummary) (expected : ExpectedCheckout) :
    Checked CrossmintPaymentTerms := do
  ensure (order.orderId = expected.orderId ∧ order.payerAddress = some expected.owner)
    .termsMismatch
  ensure (order.paymentMethod = some (key "solana") ∧ order.preparationChain = some (key "solana"))
    .termsUnavailable
  ensure (order.currency = some (key "usdc") ∧ expected.mint = DEVNET_USDC) .termsUnavailable
  let expires ← okOr (Web3.dateParse (order.quoteExpiresAt.getD [])) .orderNotPayable
  ensure (order.quoteStatus = some (key "valid") ∧ expected.now < expires) .orderNotPayable
  ensure (order.paymentStatus = some (key "awaiting-payment")) .orderNotPayable
  requireBindableItems order
  let transfer ← decodeCrossmintTransferTerms (order.serializedTransaction.getD [])
    ⟨some expected.mint, some .splToken, true⟩
  ensure (transfer.source = expected.source ∧ transfer.decimals = some 6) .termsMismatch
  ensure (∀ amount ∈ order.transactionAmount, amount = transfer.amount) .termsMismatch
  -- Crossmint pays every order into one shared treasury account; only the memo tells them apart.
  let stated ← okOr order.transactionMemo .termsUnavailable
  let carried ← okOr transfer.memo .termsUnavailable
  ensure (carried.text = stated) .termsMismatch
  ensure (carried.signers.length ≤ 1 ∧ ∀ signer ∈ carried.signers, signer = expected.owner)
    .termsMismatch
  let memo ← crossmintOrderMemo stated order.orderId
  let terms ← crossmintPaymentTerms order ⟨some expected.mint, some .splToken, false⟩
  ensure (terms.quoteCheck = .matched) .termsMismatch
  return { terms with memo := some memo }

end ChainPay.Checkout
