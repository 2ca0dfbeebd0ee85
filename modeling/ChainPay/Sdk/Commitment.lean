import ChainPay.Lib.Json
import ChainPay.Lib.Merkle
import ChainPay.Sdk.Accounts

/-!
Salted commitment leaves and single-field disclosure (`sdk/src/cards/commitment.ts`). The owner
builds a bundle for the picked fields, and anyone recomputes the leaf and its Merkle path against
the root of the public commitment.
-/

namespace ChainPay.Sdk
open ChainPay.Lib ChainPay.Card

def COMMITMENT_LEAF_COUNT : Nat := 16
def LEAF_DOMAIN : Bytes := ascii "chainpay-card-leaf:v1\n"
def DISCLOSURE_PARAM : Text := "disclose".toList

structure DisclosedLeaf where
  i : Nat
  value : Text
  leafSalt : Text
  proof : List Text
  deriving DecidableEq, Repr

/-- A bundle; its version is always 1. -/
structure DisclosureBundle where
  binding : Text
  commitmentSeq : Text
  leaves : List DisclosedLeaf
  deriving DecidableEq, Repr

/-! ## Bytes -/

def hexToBytes (value : Text) : Except String Bytes :=
  match ofHex value with
  | some bs => .ok bs
  | none => .error "Expected lowercase hex"

/-- The `bytes` low bytes of a number, two's complement. -/
def le (value : Int) (bytes : Nat) : Bytes := leBytes bytes (value % 256 ^ bytes).toNat

/-- Negative, zero or positive, as the first difference is; then as the lengths are. -/
def compareBytes : Bytes → Bytes → Int
  | a :: as, b :: bs => if a ≠ b then (a.toNat : Int) - b.toNat else compareBytes as bs
  | as, bs => (as.length : Int) - bs.length

def recoveryByte : CardRecoveryState → UInt8
  | .normal => 0
  | .recoveryFrozen => 1
  | .restoredPendingReconcile => 2

/-! ## Leaves -/

def leafSalt (masterSalt : Bytes) (index : Nat) : Except String Bytes :=
  if masterSalt.length ≠ 32 then .error "master salt must be 32 bytes"
  else .ok (sha256 (masterSalt ++ [UInt8.ofNat index]))

def leafHash (index : Nat) (salt value : Bytes) : Bytes :=
  sha256 (LEAF_DOMAIN ++ [UInt8.ofNat index] ++ salt ++ value)

def nodeHash (left right : Bytes) : Bytes := sha256 ([1] ++ left ++ right)

/-- The levels of the tree; sixteen leaves halve four times. -/
def levels (leaves : List Bytes) : Except String (List (List Bytes)) :=
  if leaves.length ≠ COMMITMENT_LEAF_COUNT then .error "a commitment has exactly 16 leaves"
  else .ok (Merkle.tower nodeHash 4 leaves)

section

variable [PublicKey]

/-- `new PublicKey(text)`, as its bytes. -/
def publicKey (text : Text) : Except String Bytes :=
  match PublicKey.ofText text with
  | some bs => .ok bs
  | none => .error "Invalid public key input"

/-- Leaf value bytes, fixed per index. -/
def commitmentLeafValues (policy : Policy) (period : Period) : Except String (List Bytes) := do
  let merchants := policy.merchantIdHashes.mergeSort fun a b => compareBytes a b ≤ 0
  let mccs := policy.mccs.mergeSort fun a b => (a : Int) - b ≤ 0
  let binding ← publicKey policy.binding
  return [
    binding,
    le policy.policyVersion 4,
    le policy.budgetCents 8,
    le policy.maxPurchaseCents 8,
    le policy.maxPurchasesPerPeriod 2,
    sha256 merchants.flatten,
    sha256 (mccs.map fun mcc : Nat => le mcc 2).flatten,
    le policy.expiresAt 8 ++ [if policy.recurringAllowed then 1 else 0] ++ le policy.feeBps 2,
    le period.periodIndex 4 ++ le period.periodStart 8 ++ le period.periodEnd 8,
    le period.capturedCents 8,
    le period.reservedCents 8,
    le period.refundedCents 8,
    le period.purchasesCount 2,
    le policy.statementOutstandingCents 8,
    [if policy.frozen then 1 else 0, recoveryByte policy.recoveryState],
    policy.ledgerHead ++ le policy.ledgerSeq 8]

/-- Root for the given policy, period and checkpoint salt. -/
def commitmentRoot (policy : Policy) (period : Period) (masterSalt : Bytes) :
    Except String Bytes := do
  let values ← commitmentLeafValues policy period
  let leaves ← values.zipIdx.mapM fun (value, i) => do
    return leafHash i (← leafSalt masterSalt i) value
  let tree ← levels leaves
  return (tree.getLastD []).headD []

/-! ## Building a bundle -/

structure DisclosureInput where
  policy : Policy
  period : Period
  masterSalt : Bytes
  commitmentSeq : Nat
  indices : List Rat

/-- The number is the index of a leaf. -/
def isField (i : Rat) : Bool := i.den = 1 && 0 ≤ i && i < COMMITMENT_LEAF_COUNT

omit [PublicKey] in
/-- The sibling at each level below the root, lowest first. -/
def proofOf : List (List Bytes) → Nat → List Text
  | level :: next :: rest, idx =>
    toHex (level.getD (idx ^^^ 1) []) :: proofOf (next :: rest) (idx / 2)
  | _, _ => []

/-- Owner side: disclose only the picked leaves. -/
def buildDisclosureBundle (input : DisclosureInput) : Except String DisclosureBundle := do
  let indices := input.indices.eraseDups.mergeSort fun a b => a - b ≤ 0
  if indices.length = 0 then .error "Pick at least one field to share"
  else if indices.any fun i => !isField i then .error "Unknown field"
  else do
  let values ← commitmentLeafValues input.policy input.period
  let salts ← values.zipIdx.mapM fun (_, i) => leafSalt input.masterSalt i
  let leaves := values.mapIdx fun i value => leafHash i (salts.getD i []) value
  let tree ← levels leaves
  let binding ← publicKey input.policy.binding
  return {
    binding := PublicKey.toBase58 binding
    commitmentSeq := decimal input.commitmentSeq
    leaves := indices.map fun q =>
      let i := q.num.toNat
      { i, value := toHex (values.getD i []), leafSalt := toHex (salts.getD i []),
        proof := proofOf tree i } }

end

/-! ## The fragment -/

def leafText (leaf : DisclosedLeaf) : Text :=
  objectText [("i".toList, decimal leaf.i), ("value".toList, quoteText leaf.value),
    ("leafSalt".toList, quoteText leaf.leafSalt),
    ("proof".toList, arrayText (leaf.proof.map quoteText))]

/-- `JSON.stringify(bundle)`. -/
def bundleText (bundle : DisclosureBundle) : Text :=
  objectText [("v".toList, decimal 1), ("binding".toList, quoteText bundle.binding),
    ("commitmentSeq".toList, quoteText bundle.commitmentSeq),
    ("leaves".toList, arrayText (bundle.leaves.map leafText))]

def encodeDisclosureFragment (bundle : DisclosureBundle) : Text :=
  DISCLOSURE_PARAM ++ ['='] ++ base64Url (encodeUtf8 (bundleText bundle))

/-- `disclose=` and the longest run of URL characters, which is not empty. -/
def paramAt (s : Text) : Option Text :=
  let key := DISCLOSURE_PARAM ++ ['=']
  if key.isPrefixOf s then
    let value := (s.drop key.length).takeWhile isUrlChar
    if value = [] then none else some value
  else none

/-- The parameter after the first `&` that has one. -/
def paramAfter : Text → Option Text
  | [] => none
  | c :: s => if c = '&' then (paramAt s).or (paramAfter s) else paramAfter s

/-- The first match of `/(?:^#?|&)disclose=([A-Za-z0-9_-]+)/`. -/
def disclosureParam (fragment : Text) : Option Text :=
  let start := match fragment with
    | '#' :: s => paramAt s
    | s => paramAt s
  start.or (paramAfter fragment)

/-- `/^(0|[1-9][0-9]{0,19})$/`. -/
def isSeq (s : Text) : Bool :=
  s = ['0'] ||
    (s.all isDecimalDigit && s ≠ [] && s.head? ≠ some '0' && s.length ≤ 20)

/-- `hexToBytes` of a JSON value: only strings pass. -/
def hexField : Option Json → Except String (Text × Bytes)
  | some (.str s) => do return (s, ← hexToBytes s)
  | _ => .error "Expected lowercase hex"

/-- A falsy JSON value. -/
def isFalsy : Json → Bool
  | .null => true
  | .bool b => !b
  | .num n => n = some 0
  | .str s => s = []
  | _ => false

def isNull : Json → Bool
  | .null => true
  | _ => false

def isOne : Option Json → Bool
  | some (.num n) => n = some 1
  | _ => false

/-- A proof node: a string of 32 bytes in hex. -/
def proofNode : Json → Except String Text
  | .str s => do
    if (← hexToBytes s).length ≠ 32 then .error "A field's proof has the wrong shape" else return s
  | _ => .error "A field's proof has the wrong shape"

def fieldIndex : Option Json → Option Nat
  | some (.num (some q)) => if isField q then some q.num.toNat else none
  | _ => none

def decodeLeaf (seen : List Nat) (leaf : Json) : Except String DisclosedLeaf := do
  if isFalsy leaf then .error "The card record has an unknown field"
  else
    match fieldIndex (leaf.get "i".toList) with
    | none => .error "The card record has an unknown field"
    | some i =>
      if i ∈ seen then .error "The card record has an unknown field"
      else do
      let (value, _) ← hexField (leaf.get "value".toList)
      let (leafSalt, salt) ← hexField (leaf.get "leafSalt".toList)
      if salt.length ≠ 32 then .error "A field's salt has the wrong length"
      else
        match leaf.get "proof".toList with
        | some (.arr nodes) =>
          if nodes.length ≠ 4 then .error "A field's proof has the wrong shape"
          else do
          let proof ← nodes.mapM proofNode
          return { i, value, leafSalt, proof }
        | _ => .error "A field's proof has the wrong shape"

def decodeLeaves : List Nat → List Json → Except String (List DisclosedLeaf)
  | _, [] => .ok []
  | seen, v :: vs => do
    let leaf ← decodeLeaf seen v
    return leaf :: (← decodeLeaves (leaf.i :: seen) vs)

section

variable [PublicKey]

/-- The checks on the parsed record. -/
def decodeRecord (raw : Json) : Except String DisclosureBundle := do
  if isNull raw then .error "Cannot read properties of null (reading 'v')"
  else if !isOne (raw.get "v".toList) then .error "Unsupported card record version"
  else
    match raw.get "binding".toList with
    | some (.str binding) => do
      let _ ← publicKey binding
      match raw.get "commitmentSeq".toList with
      | some (.str commitmentSeq) =>
        if !isSeq commitmentSeq then .error "The card record has no commitment number"
        else
          match raw.get "leaves".toList with
          | some (.arr vs) =>
            if vs.length = 0 ∨ COMMITMENT_LEAF_COUNT < vs.length then
              .error "The card record has no fields"
            else do
            let leaves ← decodeLeaves [] vs
            return { binding, commitmentSeq, leaves }
          | _ => .error "The card record has no fields"
      | _ => .error "The card record has no commitment number"
    | _ => .error "The card record has no card link"

/-- Strict parse: unknown shapes are rejected. -/
def decodeDisclosureFragment (fragment : Text) : Except String DisclosureBundle :=
  match disclosureParam fragment with
  | none => .error "No shared card record in this link"
  | some param =>
    match (ofBase64Url param).bind fun bs => jsonParse (decodeUtf8 bs) with
    | none => .error "The shared card record in this link can't be read"
    | some raw => decodeRecord raw

/-! ## Verifying -/

/-- A checked field: its index and whether its path leads to the root. -/
abbrev LeafCheck := Nat × Bool

inductive DisclosureCheck where
  | verified (seq root writtenSlot : Text) (leaves : List LeafCheck)
  | mismatch (seq root writtenSlot : Text) (leaves : List LeafCheck)
  | superseded (bundleSeq chainSeq : Text) (leaves : List LeafCheck)
  | wrongCard (leaves : List LeafCheck)
  deriving DecidableEq, Repr

omit [PublicKey] in
def recomputeDisclosedRoot (leaf : DisclosedLeaf) : Except String Bytes := do
  let salt ← hexToBytes leaf.leafSalt
  let value ← hexToBytes leaf.value
  let proof ← leaf.proof.mapM hexToBytes
  return Merkle.climb nodeHash leaf.i (leafHash leaf.i salt value) proof

/-- Check every disclosed field against the public commitment account. -/
def verifyDisclosureBundle (bundle : DisclosureBundle) (commitment : Commitment) :
    Except String DisclosureCheck := do
  let described ← bundle.leaves.mapM fun leaf => do
    let _ ← hexToBytes leaf.value
    return (leaf.i, false)
  let card ← publicKey commitment.binding
  let named ← publicKey bundle.binding
  if PublicKey.toBase58 card ≠ PublicKey.toBase58 named then return .wrongCard described
  else if (bundle.leaves.find? fun leaf => leaf.i = 0).any fun leaf => leaf.value ≠ toHex named then
    return .wrongCard described
  else if decimal commitment.seq ≠ bundle.commitmentSeq then
    return .superseded bundle.commitmentSeq (decimal commitment.seq) described
  else do
  let root := toHex commitment.root
  let leaves ← bundle.leaves.mapM fun leaf => do
    return (leaf.i, decide (toHex (← recomputeDisclosedRoot leaf) = root))
  if leaves.all fun leaf => leaf.2 then
    return .verified (decimal commitment.seq) root (decimal commitment.writtenSlot) leaves
  else return .mismatch (decimal commitment.seq) root (decimal commitment.writtenSlot) leaves

end

end ChainPay.Sdk
