import ChainPay.Lib.Base58
import ChainPay.Lib.Base64
import ChainPay.Lib.Checked
import ChainPay.Lib.Json
import ChainPay.Lib.Text
import ChainPay.Lib.Wire

/-!
What the owner is asked to sign (`sdk/src/cards/private-repayment.ts`). MagicBlock builds the
transactions of a private repayment; the SDK decodes them and checks them before the wallet signs.
Accepted ones ask for the owner's signature only, and pay, or deposit, one expected amount. The
SDK counts the lamports of plain transfers only, and takes two kinds of deposit on trust.
-/

namespace ChainPay.Signing
open ChainPay.Lib ChainPay.Lib.Wire

abbrev Address := List Char

/-- What the SDK takes from `@solana/web3.js`: the bytes of an address, the point test, and program
derived addresses. Each may throw. -/
class Web3 where
  publicKey : Address → Option Bytes
  isOnCurve : Bytes → Bool
  findProgramAddress : List Bytes → Bytes → Option Bytes

/-! ## The decoder -/

def base58 (bytes : Bytes) : Address := toBase58 bytes

def SYSTEM_PROGRAM : Address := "11111111111111111111111111111111".toList
def COMPUTE_BUDGET_PROGRAM : Address := "ComputeBudget111111111111111111111111111111".toList
def SPL_TOKEN_PROGRAM : Address := "TokenkegQfeZyiNwAJbNbGKPFXCWuBvf9Ss623VQ5DA".toList
def ASSOCIATED_TOKEN_PROGRAM : Address := "ATokenGPvbdGVxr1b2hvZbsiqW5xWH25efTNsLJA8knL".toList
def EPHEMERAL_SPL_PROGRAM : Address := "SPLxh1LVZzEkX99H6rqYizhytLWPZVV296zyYDPagv2".toList
def DELEGATION_PROGRAM : Address := "DELeGGvXpWV2fqJUhqcF5ZSYMS4JTLjteaAMARRSaeSh".toList
def PERMISSION_PROGRAM : Address := "ACLseoPoyC3cBqoUtkbjZ4aDrkurZW86v19pXz2XQnp1".toList
def MAGIC_PROGRAM : Address := "Magic11111111111111111111111111111111111111".toList

def MAX_LAMPORTS : Nat := 50000000

structure DecodedInstruction where
  programId : Address
  accounts : List Address
  data : Bytes
  deriving DecidableEq, Repr

structure DecodedTransaction where
  signers : List Address
  instructions : List DecodedInstruction
  deriving DecidableEq, Repr

/-- Eight bytes from an offset, the low one first. -/
def u64 (data : Bytes) (offset : Nat) : Option Nat :=
  if data.length < offset + 8 then none else some (ofLeBytes ((data.drop offset).take 8))

/-- An instruction with its keys in place of their indices. -/
def resolve (keys : List Address) (ix : Instruction) : Option DecodedInstruction := do
  let programId ← keys[ix.program.toNat]?
  let accounts ← ix.accounts.mapM fun i => keys[i.toNat]?
  if programId = [] then none else some ⟨programId, accounts, ix.data⟩

def readResolved (keys : List Address) (bs : Bytes) : Option (DecodedInstruction × Bytes) := do
  let (ix, rest) ← readInstruction bs
  let ix ← resolve keys ix
  some (ix, rest)

/-- Past the lookups of a message of version 0, of which there must be none. -/
def readNoLookups (versioned : Bool) (bs : Bytes) : Option Bytes :=
  if versioned then do
    let (n, rest) ← readCompact bs
    if n ≠ 0 then none else some rest
  else some bs

def decodeBuiltTransaction (base64 : List Char) : Option DecodedTransaction := do
  let bytes ← atob base64
  let rest ← skipSignatures bytes
  let (versioned, rest) ← readVersion rest
  let ((required, keys, count), rest) ← readHead rest
  let keys := keys.map base58
  let (instructions, rest) ← readMany (readResolved keys) count rest
  let rest ← readNoLookups versioned rest
  if rest ≠ [] then none else some ⟨keys.take required.toNat, instructions⟩

/-! ## The check -/

inductive Kind where
  | deposit
  | transfer
  deriving DecidableEq, Repr

def Kind.text : Kind → String
  | .deposit => "deposit"
  | .transfer => "transfer"

structure Expect where
  kind : Kind
  owner : Address
  mint : Address
  amountBaseUnits : Int
  recipientWallet : Option Address := none
  clientRefId : Option (List Char) := none
  minDelayMs : Option (List Char) := none
  maxDelayMs : Option (List Char) := none
  deriving DecidableEq, Repr

/-- The message of a refusal. -/
def refuse (kind : Kind) (why : String) : String :=
  "MagicBlock's " ++ kind.text ++ " transaction " ++ why ++ "; nothing was signed"

def DEPOSIT_TAGS : List UInt8 := [0, 1, 2, 4, 6, 7, 11, 13, 24, 34]
def TRANSFER_TAGS : List UInt8 := [0, 16, 17]

/-- `depositSplTokens`, `depositAndQueueTransfer`, `setupAndDelegateShuttleEphemeralAtaWithMerge`
and `depositAndDelegateShuttleWithMergeToEncryptedDestination`. -/
def MOVE_TAGS : List UInt8 := [2, 16, 24, 34]

def allowedPrograms : List Address :=
  [SYSTEM_PROGRAM, COMPUTE_BUDGET_PROGRAM, ASSOCIATED_TOKEN_PROGRAM, EPHEMERAL_SPL_PROGRAM,
    DELEGATION_PROGRAM, PERMISSION_PROGRAM, MAGIC_PROGRAM]

def Kind.tags : Kind → List UInt8
  | .deposit => DEPOSIT_TAGS
  | .transfer => TRANSFER_TAGS

/-- Whether the SDK counts the lamports of an instruction. -/
def isTransfer (ix : DecodedInstruction) : Bool :=
  ix.programId = SYSTEM_PROGRAM && 12 ≤ ix.data.length && ix.data[0]? = some 2 &&
    ix.data[1]? = some 0 && ix.data[2]? = some 0 && ix.data[3]? = some 0

/-- An amount-bearing instruction of Ephemeral SPL Token. -/
def isMove (ix : DecodedInstruction) : Bool :=
  ix.programId = EPHEMERAL_SPL_PROGRAM && ix.data.head?.any fun tag => MOVE_TAGS.contains tag

/-- One instruction in turn, after the lamports and the moves so far. -/
def inspect (kind : Kind) (seen : Nat × List DecodedInstruction) (ix : DecodedInstruction) :
    Except String (Nat × List DecodedInstruction) := do
  ensure (ix.programId ∈ allowedPrograms) (refuse kind "calls a program ChainPay doesn't expect")
  let more ← (if isTransfer ix then okOr (u64 ix.data 4) "truncated" else .ok 0)
  let seen := (seen.1 + more, seen.2)
  if ix.programId ≠ EPHEMERAL_SPL_PROGRAM then .ok seen
  else
    ensure (ix.data.head?.any fun tag => kind.tags.contains tag)
      (refuse kind "includes a token instruction ChainPay doesn't expect")
    if isMove ix then .ok (seen.1, seen.2 ++ [ix]) else .ok seen

/-- The digits of a number in a base, as texts write them. -/
def digitIn (base : Nat) (c : Char) : Option Nat :=
  let value :=
    if '0' ≤ c ∧ c ≤ '9' then c.toNat - 48
    else if 'a' ≤ c ∧ c ≤ 'f' then c.toNat - 87
    else if 'A' ≤ c ∧ c ≤ 'F' then c.toNat - 55
    else base
  if value < base then some value else none

def digitsIn (base : Nat) (text : List Char) : Option Int :=
  if text = [] then none
  else (text.mapM (digitIn base)).map fun ds => Int.ofNat (ds.foldl (fun n d => base * n + d) 0)

/-- JavaScript's `BigInt` of a text. -/
def bigInt (text : List Char) : Option Int :=
  match jsTrim text with
  | [] => some 0
  | '0' :: 'x' :: ds => digitsIn 16 ds
  | '0' :: 'X' :: ds => digitsIn 16 ds
  | '0' :: 'o' :: ds => digitsIn 8 ds
  | '0' :: 'O' :: ds => digitsIn 8 ds
  | '0' :: 'b' :: ds => digitsIn 2 ds
  | '0' :: 'B' :: ds => digitsIn 2 ds
  | '-' :: ds => (digitsIn 10 ds).map fun n => -n
  | '+' :: ds => digitsIn 10 ds
  | ds => digitsIn 10 ds

/-- A byte as JavaScript's bit operators take it; one that is not there is 0. -/
def octet (data : Bytes) (i : Nat) : BitVec 32 := BitVec.ofNat 32 (data[i]?.elim 0 UInt8.toNat)

def split (data : Bytes) : BitVec 32 :=
  octet data 28 ||| octet data 29 <<< 8 ||| octet data 30 <<< 16 ||| octet data 31 <<< 24

section

variable [Web3]

def associatedTokenAccount (owner mint : Address) (allowOffCurve : Bool) : Option Address := do
  let ownerKey ← Web3.publicKey owner
  if ¬ allowOffCurve ∧ ¬ Web3.isOnCurve ownerKey then none
  else
    let token ← Web3.publicKey SPL_TOKEN_PROGRAM
    let mint ← Web3.publicKey mint
    let program ← Web3.publicKey ASSOCIATED_TOKEN_PROGRAM
    let account ← Web3.findProgramAddress [ownerKey, token, mint] program
    some (base58 account)

def vaultOf (mint : Address) : Option Address := do
  let mint ← Web3.publicKey mint
  let program ← Web3.publicKey EPHEMERAL_SPL_PROGRAM
  let vault ← Web3.findProgramAddress [mint] program
  some (base58 vault)

def checkShuttleDepositWithMerge (move : DecodedInstruction) (expect : Expect) :
    Except String Unit := do
  let refuse := refuse expect.kind
  let unread := refuse "could not be read"
  let a := move.accounts
  ensure (move.data.length = 13 ∨ move.data.length = 45) (refuse "has an unexpected deposit layout")
  ensure (a.length = 19) (refuse "has an unexpected deposit layout")
  ensure (a[0]? = some expect.owner ∧ a[5]? = some expect.owner)
    (refuse "deposits for a different owner")
  ensure (a[14]? = some expect.mint ∧ a[15]? = some SPL_TOKEN_PROGRAM)
    (refuse "deposits from the wrong account or mint")
  ensure (a[6]? = some EPHEMERAL_SPL_PROGRAM ∧ a[10]? = some DELEGATION_PROGRAM ∧
    a[11]? = some ASSOCIATED_TOKEN_PROGRAM ∧ a[12]? = some SYSTEM_PROGRAM)
    (refuse "has an unexpected deposit layout")
  let ownerAta ← okOr (associatedTokenAccount expect.owner expect.mint false) unread
  ensure (a[17]? = some ownerAta) (refuse "deposits from the wrong account or mint")
  ensure (a[13]? = some ownerAta) (refuse "deposits into someone else's balance")
  let vault ← okOr (vaultOf expect.mint) unread
  ensure (a[16]? = some vault) (refuse "deposits into a vault ChainPay doesn't expect")
  let vaultAta ← okOr (associatedTokenAccount vault expect.mint true) unread
  ensure (a[18]? = some vaultAta) (refuse "deposits into a vault ChainPay doesn't expect")
  let amount ← okOr (u64 move.data 5) unread
  ensure ((amount : Int) = expect.amountBaseUnits) (refuse "deposits a different amount")

/-- A delay, where one is expected. -/
def checkDelay (kind : Kind) (data : Bytes) (offset : Nat) (delay : Option (List Char)) :
    Except String Unit :=
  match delay with
  | none => .ok ()
  | some text => do
    let found ← okOr (u64 data offset) (refuse kind "could not be read")
    let wanted ← okOr (bigInt text) (refuse kind "could not be read")
    ensure ((found : Int) = wanted) (refuse kind "uses a different delay")

def checkMove (move : DecodedInstruction) (expect : Expect) : Except String Unit := do
  let refuse := refuse expect.kind
  let unread := refuse "could not be read"
  let a := move.accounts
  if move.data.head? = some 2 then
    ensure (move.data.length = 9 ∧ a[2]? = some expect.mint ∧ a[5]? = some expect.owner)
      (refuse "deposits from the wrong account or mint")
    let amount ← okOr (u64 move.data 1) unread
    ensure ((amount : Int) = expect.amountBaseUnits) (refuse "deposits a different amount")
  else if move.data.head? = some 24 then
    ensure (expect.kind = .deposit) (refuse "is not a transfer")
    checkShuttleDepositWithMerge move expect
  else if move.data.head? = some 34 then
    ensure (a[0]? = some expect.owner ∧ a[5]? = some expect.owner ∧ a[13]? = some expect.mint)
      (refuse "deposits from the wrong account or mint")
    let amount ← okOr (u64 move.data 5) unread
    ensure ((amount : Int) = expect.amountBaseUnits) (refuse "deposits a different amount")
  else
    ensure (expect.kind = .transfer) (refuse "is not a deposit")
    ensure (a[2]? = some expect.mint ∧ a[5]? = expect.recipientWallet ∧ a[6]? = some expect.owner)
      (refuse "pays a different recipient or mint")
    let amount ← okOr (u64 move.data 1) unread
    ensure ((amount : Int) = expect.amountBaseUnits) (refuse "pays a different amount")
    ensure (split move.data = 1) (refuse "splits the payment")
    checkDelay expect.kind move.data 12 expect.minDelayMs
    checkDelay expect.kind move.data 20 expect.maxDelayMs
    ensure (move.data.length = 40 ∨ move.data.length = 41)
      (refuse "carries no statement reference")
    let reference ← okOr (u64 move.data (move.data.length - 8)) unread
    ensure (some (decimal reference) = expect.clientRefId)
      (refuse "carries a different statement reference")

def verifyBuiltTransaction (transactionBase64 : List Char) (expect : Expect) :
    Except String Unit := do
  let refuse := refuse expect.kind
  let tx ← okOr (decodeBuiltTransaction transactionBase64) (refuse "could not be read")
  ensure (tx.signers.length = 1 ∧ tx.signers[0]? = some expect.owner)
    (refuse "asks for a signer other than your wallet")
  let (lamports, moves) ← tx.instructions.foldlM (inspect expect.kind) (0, [])
  ensure (lamports ≤ MAX_LAMPORTS) (refuse "moves more SOL than rent needs")
  match moves with
  | [move] => checkMove move expect
  | _ => .error (refuse "doesn't move exactly one amount")

end

end ChainPay.Signing
