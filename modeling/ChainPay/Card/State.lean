import ChainPay.Lib.Bytes
import ChainPay.Lib.Checked
import ChainPay.Lib.Ring
import ChainPay.Lib.Table

/-!
Accounts, constants and error codes of the `card_policy` program.

A card is the state of all its accounts: the public binding and commitment, the
policy and period, the ephemeral reservations and intents, and the replay guard.
An account that only this card's seeds can produce is named by the seed that
varies, so a `Reservation` is looked up by its `auth_id_hash`.
-/

namespace ChainPay.Card
open ChainPay.Lib

/-- A 32-byte hash, most significant byte first. -/
abbrev Hash := BitVec 256

abbrev Pubkey := BitVec 256

instance : LawfulBEq Pubkey := inferInstance

abbrev IntentId := BitVec 128

abbrev Currency := BitVec 24

def Hash.bytes (h : Hash) : Bytes := beBytes 32 h.toNat

theorem Hash.bytes_inj {h h' : Hash} (he : Hash.bytes h = Hash.bytes h') : h = h' := by
  have hn := beBytes_inj he
  have hpow : (256 : Nat) ^ 32 = 2 ^ 256 := by decide
  rw [hpow, Nat.mod_eq_of_lt h.isLt, Nat.mod_eq_of_lt h'.isLt] at hn
  exact BitVec.eq_of_toNat_eq hn

/-! ## Constants -/

def MAX_MERCHANTS : Nat := 8
def MAX_MCCS : Nat := 16
/-- owner + authorizer + 4 finance readers -/
abbrev MAX_MEMBERS : Nat := 6

/-- The second place of a member list is the authorizer's. -/
abbrev secondOf {α : Type} (v : Vector α MAX_MEMBERS) : α := v[1]

abbrev setSecond {α : Type} (v : Vector α MAX_MEMBERS) (x : α) : Vector α MAX_MEMBERS := v.set 1 x
def CAPTURE_RING : Nat := 8
abbrev REPAYMENT_RING : Nat := 8
abbrev EVENT_RING : Nat := 16
abbrev GUARD_RING : Nat := 256

def MAX_BUDGET_CENTS : Nat := 1000000
def MIN_PERIOD_SECONDS : Nat := 86400
def MAX_FEE_BPS : Nat := 1000
def BPS_DENOMINATOR : Nat := 10000
def MAX_INTENT_TTL_SECONDS : Int := 600
def HOLD_TTL_SECONDS : Int := 7 * 86400
/-- The bytes of "USD". -/
def USD : Currency := 0x555344#24

def ISSUER_LITHIC_SANDBOX : UInt8 := 1
def ISSUER_CARD_SIM : UInt8 := 2

def FREEZE_NONE : UInt8 := 0
def FREEZE_OWNER : UInt8 := 1
def FREEZE_AUTHORIZER_SAFETY : UInt8 := 2
def FREEZE_RECOVERY : UInt8 := 3
def FREEZE_EXPIRY : UInt8 := 4

def FLAG_LATE_CAPTURE : UInt8 := 1
def FLAG_OVER_CAPTURE : UInt8 := 2
def FLAG_SINGLE_MESSAGE : UInt8 := 4
def FLAG_RECURRING : UInt8 := 8

def DISPUTE_OPEN : UInt8 := 1
def DISPUTE_WITHDRAWN : UInt8 := 4

/-- Member flags of the permission program; bit 0 is its authority flag. -/
def TX_LOGS_FLAG : UInt8 := 2
def TX_BALANCES_FLAG : UInt8 := 4
def TX_MESSAGE_FLAG : UInt8 := 8

def OWNER_FLAGS : UInt8 := TX_LOGS_FLAG ||| TX_MESSAGE_FLAG ||| TX_BALANCES_FLAG
def AUTHORIZER_FLAGS : UInt8 := TX_LOGS_FLAG ||| TX_MESSAGE_FLAG
def READER_FLAGS : UInt8 := TX_LOGS_FLAG ||| TX_MESSAGE_FLAG

/-- The program's own address, ChainPay's, the two token programs' and the one
TEE validator a card may be delegated to. -/
def ID : Pubkey := 0xee6434475c581262f784922aa89b259e7412ae3bc004fe5cc84284dcd2be87d1#256
def CHAINPAY_ID : Pubkey := 0x21da3a8c8306278db626651aa4773f879aee1dda4c678775f581e64ef184810d#256
def SPL_TOKEN : Pubkey := 0x06ddf6e1d765a193d9cbe146ceeb79ac1cb485ed5f5b37913a8cf5857eff00a9#256
def TOKEN_2022 : Pubkey := 0x06ddf6e1ee758fde18425dbce46ccddab61afc4d83b90d27febdf928d8a18bfc#256
def TEE_VALIDATOR_ALLOWLIST : List Pubkey :=
  [0x053d471a859e732e680bc958f841072b8f3fbc19739be697c4c681126f8c1f74#256]

/-- What the program takes from the Solana runtime and the rollup SDK: program
derived addresses and the rent that fixes the smallest prefund. -/
class Runtime where
  createProgramAddress : List Bytes → Pubkey → Option Pubkey
  findProgramAddress : List Bytes → Pubkey → Pubkey × UInt8
  minPrefund : Nat

/-! ## Errors -/

/-- The program's own error codes, in declaration order from 6000. -/
inductive CardPolicyError where
  | unauthorized
  | validatorNotAllowed
  | policyNotSet
  | invalidPolicy
  | cardFrozen
  | recoveryFrozen
  | policyExpired
  | intentInvalid
  | intentExpired
  | intentStale
  | merchantMismatch
  | merchantNotAllowed
  | mccNotAllowed
  | currencyMismatch
  | amountExceedsIntent
  | amountExceedsMax
  | budgetExceeded
  | velocityExceeded
  | recurringNotAllowed
  | duplicateAuthorization
  | duplicateCapture
  | reservationClosed
  | periodNotEnded
  | disclosureBlocked
  | memberLimit
  | exceptionsOpen
  | notInRecovery
  | staleCommitment
  | openReservations
  | outstandingBalance
  | mathOverflow
  | authorizerChangeRequiresFreeze
  | duplicateRepayment
  | memberNotFound
  | permissionNotInitialized
  | invalidAmount
  | noOpenExceptions
  | reconDigestMismatch
  | repaymentExceedsOutstanding
  | invalidAccount
  | prefundTooLow
  | notWiped
  | invalidEventId
  | duplicateEvent
  | ephemeralAccountsOpen
  | reservationNotFinal
  | coSignerRequired
  | refundExceedsCapture
  | captureLimit
  | budgetBelowCommitted
  | invalidRepaymentReceipt
  | repaymentRecipientMismatch
  | repaymentExceedsReceipt
  | invalidRepaymentMandate
  deriving DecidableEq, Repr

/-- How an instruction fails: with the program's own code, in the account checks
that run before the handler, or inside a call to another program. -/
inductive Err where
  | policy (e : CardPolicyError)
  | account
  | missingSignature
  | cpi
  deriving DecidableEq, Repr

instance : Coe CardPolicyError Err := ⟨.policy⟩

/-! ## Accounts -/

inductive BindingStatus where
  | active
  | closed
  deriving DecidableEq, Repr

structure CardBinding where
  owner : Pubkey
  cardId : Hash
  issuer : UInt8
  issuerCardRefHash : Hash
  status : BindingStatus
  createdAt : Int
  deriving DecidableEq, Repr

inductive RecoveryState where
  | normal
  | frozen
  | restoredPending
  deriving DecidableEq, Repr

def RecoveryState.code : RecoveryState → UInt8
  | .normal => 0
  | .frozen => 1
  | .restoredPending => 2

structure CardPolicy where
  binding : Pubkey
  owner : Pubkey
  authorizer : Pubkey
  policyVersion : Nat
  budgetCents : Nat
  maxPurchaseCents : Nat
  maxPurchasesPerPeriod : Nat
  periodSeconds : Nat
  currency : Currency
  merchantIdHashes : List Hash
  mccs : List Nat
  expiresAt : Int
  recurringAllowed : Bool
  feeBps : Nat
  frozen : Bool
  freezeReason : UInt8
  recoveryState : RecoveryState
  statementOutstandingCents : Nat
  exceptionsOpen : Nat
  memberCount : Nat
  members : Vector Pubkey MAX_MEMBERS
  memberFlags : Vector UInt8 MAX_MEMBERS
  ledgerHead : Hash
  ledgerSeq : Nat
  commitSeq : Nat
  reconDigest : Hash
  repayments : Ring Hash REPAYMENT_RING
  events : Ring Hash EVENT_RING
  ephemeralCount : Nat
  deriving DecidableEq

/-- A policy is set once it names an authorizer. -/
def CardPolicy.isSet (p : CardPolicy) : Prop := p.authorizer ≠ 0

instance (p : CardPolicy) : Decidable p.isSet := inferInstanceAs (Decidable (_ ≠ _))

def CardPolicy.memberList (p : CardPolicy) : List Pubkey := p.members.toList.take p.memberCount

structure CardPeriod where
  periodIndex : Nat
  periodStart : Int
  periodEnd : Int
  capturedCents : Nat
  reservedCents : Nat
  refundedCents : Nat
  purchasesCount : Nat
  exceptionCents : Nat
  deriving DecidableEq, Repr

inductive ReservationState where
  | reserved
  | partiallyCaptured
  | captured
  | reversed
  | expired
  deriving DecidableEq, Repr

def ReservationState.code : ReservationState → UInt8
  | .reserved => 1
  | .partiallyCaptured => 2
  | .captured => 3
  | .reversed => 4
  | .expired => 5

def ReservationState.isOpen (s : ReservationState) : Prop := s = .reserved ∨ s = .partiallyCaptured

instance (s : ReservationState) : Decidable s.isOpen := inferInstanceAs (Decidable (_ ∨ _))

structure Reservation where
  authIdHash : Hash
  intent : IntentId
  periodIndex : Nat
  /-- Open hold still reserved against the budget. -/
  amountReservedCents : Nat
  capturedCents : Nat
  reversedCents : Nat
  refundedCents : Nat
  state : ReservationState
  disputeState : UInt8
  flags : UInt8
  createdAt : Int
  holdExpiresAt : Int
  /-- The used slots of the capture ring; it never wraps. -/
  captureIds : List Hash
  maxAmountCents : Nat
  deriving DecidableEq, Repr

/-- `recent` holds the last closed `auth_id_hash`es; the slot is the count
modulo the ring size. -/
structure AuthGuard where
  closedCount : Nat
  closedHead : Hash
  recent : Vector Hash GUARD_RING
  deriving DecidableEq

inductive IntentState where
  | «open»
  | consumed
  | cancelled
  deriving DecidableEq, Repr

structure CheckoutIntent where
  intentId : IntentId
  agent : Pubkey
  merchantIdHash : Hash
  mcc : Nat
  maxAmountCents : Nat
  currency : Currency
  policyVersion : Nat
  expiresAt : Int
  state : IntentState
  /-- The `auth_id_hash` of the Reservation that consumed it. -/
  reservation : Option Hash
  deriving DecidableEq, Repr

structure CardCommitment where
  seq : Nat
  root : Hash
  policyVersion : Nat
  periodIndex : Nat
  writtenSlot : Nat
  deriving DecidableEq, Repr

/-- A scheduled base-layer action that writes one commitment. -/
structure CommitmentAction where
  root : Hash
  seq : Nat
  policyVersion : Nat
  periodIndex : Nat
  deriving DecidableEq, Repr

/-- Every account of one card. `delegated` tells whether the policy and period
live on the rollup, `scheduled` lists the base-layer actions sent from there. -/
structure State where
  binding : CardBinding
  policy : CardPolicy
  period : CardPeriod
  commitment : CardCommitment
  reservations : Table Hash Reservation
  intents : Table IntentId CheckoutIntent
  guard : Option AuthGuard
  delegated : Bool
  scheduled : List CommitmentAction
  deriving DecidableEq

/-- An ephemeral account of the card. -/
inductive Ephemeral where
  | reservation (authIdHash : Hash)
  | intent (intentId : IntentId)
  | authGuard
  deriving DecidableEq, Repr

/-- An account passed after the named ones. -/
inductive AccountRef where
  | ephemeral (e : Ephemeral)
  | permissionOf (e : Ephemeral)
  | other
  deriving DecidableEq, Repr

/-- The account exists on the rollup. -/
def State.live (s : State) : Ephemeral → Bool
  | .reservation h => (s.reservations.lookup h).isSome
  | .intent i => (s.intents.lookup i).isSome
  | .authGuard => s.guard.isSome

/-- What surrounds one instruction: who signed, the clock, and whether the calls
it makes into other programs succeed. -/
structure Ctx where
  signers : List Pubkey
  now : Int
  slot : Nat
  cpiOk : Bool
  deriving DecidableEq, Repr

end ChainPay.Card
