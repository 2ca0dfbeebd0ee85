import ChainPay.Card.Retire

/-!
Account data of the `card_policy` program, and the SDK's decoders for it. The data is the Rust
struct in field order, Borsh little-endian, after the 8-byte Anchor discriminator; `Held` says
what the program's own types and checks guarantee of a policy, a period and a commitment. The
decoders read every such account (`decodeCardPolicy_data`, `decodeCardPeriod_data`,
`decodeCardCommitment_data`).
-/

namespace ChainPay.Sdk
open ChainPay.Lib ChainPay.Card

/-- A text of the SDK, as its characters. -/
abbrev Text := List Char

/-- What the SDK takes from `@solana/web3.js`: the base58 text of 32 bytes, and the bytes a
text denotes, if it is an address. -/
class PublicKey where
  toBase58 : Bytes → Text
  ofText : Text → Option Bytes

/-! ## Account data -/

/-- What an account holds beside the modelled fields: the unused slots of its lists, the
address of its policy, and its bump. -/
structure Spare where
  merchants : List Hash
  mccs : List Nat
  policy : Pubkey
  bump : UInt8

/-- `sha256("account:<name>")[0..8]`. -/
def discriminator (name : String) : Bytes := (sha256 (ascii ("account:" ++ name))).take 8

/-- The fields of a `CardPolicy` account. -/
def policyFields (p : CardPolicy) (x : Spare) : List Bytes :=
  [Hash.bytes p.binding, Hash.bytes p.owner, Hash.bytes p.authorizer, leBytes 4 p.policyVersion,
   leBytes 8 p.budgetCents, leBytes 8 p.maxPurchaseCents, leBytes 2 p.maxPurchasesPerPeriod,
   leBytes 4 p.periodSeconds, beBytes 3 p.currency.toNat,
   [UInt8.ofNat p.merchantIdHashes.length],
   ((p.merchantIdHashes ++ x.merchants).map Hash.bytes).flatten,
   [UInt8.ofNat p.mccs.length], ((p.mccs ++ x.mccs).map (leBytes 2)).flatten,
   timeBytes p.expiresAt, [boolByte p.recurringAllowed], leBytes 2 p.feeBps, [boolByte p.frozen],
   [p.freezeReason], [p.recoveryState.code], leBytes 8 p.statementOutstandingCents,
   leBytes 2 p.exceptionsOpen, [UInt8.ofNat p.memberCount],
   (p.members.toList.map Hash.bytes).flatten, p.memberFlags.toList, Hash.bytes p.ledgerHead,
   leBytes 8 p.ledgerSeq, leBytes 8 p.commitSeq, [x.bump], Hash.bytes p.reconDigest,
   (p.repayments.slots.toList.map Hash.bytes).flatten, [p.repayments.count],
   (p.events.slots.toList.map Hash.bytes).flatten, [p.events.count], leBytes 2 p.ephemeralCount]

def policyData (p : CardPolicy) (x : Spare) : Bytes :=
  discriminator "CardPolicy" ++ (policyFields p x).flatten

def periodFields (q : CardPeriod) (x : Spare) : List Bytes :=
  [Hash.bytes x.policy, leBytes 4 q.periodIndex, timeBytes q.periodStart, timeBytes q.periodEnd,
   leBytes 8 q.capturedCents, leBytes 8 q.reservedCents, leBytes 8 q.refundedCents,
   leBytes 2 q.purchasesCount, leBytes 8 q.exceptionCents, [x.bump]]

def periodData (q : CardPeriod) (x : Spare) : Bytes :=
  discriminator "CardPeriod" ++ (periodFields q x).flatten

def commitmentFields (c : CardCommitment) (binding : Pubkey) (bump : UInt8) : List Bytes :=
  [Hash.bytes binding, leBytes 8 c.seq, Hash.bytes c.root, leBytes 4 c.policyVersion,
   leBytes 4 c.periodIndex, leBytes 8 c.writtenSlot, [bump]]

def commitmentData (c : CardCommitment) (binding : Pubkey) (bump : UInt8) : Bytes :=
  discriminator "CardCommitment" ++ (commitmentFields c binding bump).flatten

/-- The value fits the `i64` of its field. -/
def FitsI64 (t : Int) : Prop := -2 ^ 63 ≤ t ∧ t < 2 ^ 63

instance (t : Int) : Decidable (FitsI64 t) :=
  inferInstanceAs (Decidable (-2 ^ 63 ≤ t ∧ t < 2 ^ 63))

/-- What the program's types and checks guarantee of a policy account. -/
structure Held (p : CardPolicy) (x : Spare) : Prop where
  policyVersion : p.policyVersion < 2 ^ 32
  budgetCents : p.budgetCents < 2 ^ 64
  maxPurchaseCents : p.maxPurchaseCents < 2 ^ 64
  maxPurchasesPerPeriod : p.maxPurchasesPerPeriod < 2 ^ 16
  periodSeconds : p.periodSeconds < 2 ^ 32
  merchants : (p.merchantIdHashes ++ x.merchants).length = MAX_MERCHANTS
  mccs : (p.mccs ++ x.mccs).length = MAX_MCCS
  mcc : ∀ m ∈ p.mccs ++ x.mccs, m < 2 ^ 16
  expiresAt : FitsI64 p.expiresAt
  feeBps : p.feeBps < 2 ^ 16
  freezeReason : p.freezeReason ≤ FREEZE_EXPIRY
  statementOutstandingCents : p.statementOutstandingCents < 2 ^ 64
  exceptionsOpen : p.exceptionsOpen < 2 ^ 16
  memberCount : p.memberCount ≤ MAX_MEMBERS
  ledgerSeq : p.ledgerSeq < 2 ^ 64
  commitSeq : p.commitSeq < 2 ^ 64

structure HeldPeriod (q : CardPeriod) : Prop where
  periodIndex : q.periodIndex < 2 ^ 32
  periodStart : FitsI64 q.periodStart
  periodEnd : FitsI64 q.periodEnd
  capturedCents : q.capturedCents < 2 ^ 64
  reservedCents : q.reservedCents < 2 ^ 64
  refundedCents : q.refundedCents < 2 ^ 64
  purchasesCount : q.purchasesCount < 2 ^ 16
  exceptionCents : q.exceptionCents < 2 ^ 64

structure HeldCommitment (c : CardCommitment) : Prop where
  seq : c.seq < 2 ^ 64
  policyVersion : c.policyVersion < 2 ^ 32
  periodIndex : c.periodIndex < 2 ^ 32
  writtenSlot : c.writtenSlot < 2 ^ 64

/-! ## The reader -/

/-- Reads from the front of what is left of the data. -/
def Reader (α : Type) : Type := Bytes → Except String (α × Bytes)

namespace Reader

variable {α β : Type}

instance : Monad Reader where
  pure a := fun bs => .ok (a, bs)
  bind r f := fun bs =>
    match r bs with
    | .ok (a, rest) => f a rest
    | .error e => .error e

theorem bind_ok {r : Reader α} {f : α → Reader β} {bs rest : Bytes} {a : α}
    (h : r bs = .ok (a, rest)) : (r >>= f) bs = f a rest := by
  change (match r bs with
    | .ok (a, rest) => f a rest
    | .error e => .error e) = _
  rw [h]

def fail (e : String) : Reader α := fun _ => .error e

def remaining : Reader Nat := fun bs => .ok (bs.length, bs)

def fixed (length : Nat) (name : String) : Reader Bytes := fun bs =>
  if bs.length < length then .error ("Data ended while reading " ++ name)
  else .ok (bs.take length, bs.drop length)

/-- An unsigned little-endian number. -/
def unsigned (length : Nat) (name : String) : Reader Nat := do
  return ofLeBytes (← fixed length name)

def u8 (name : String) : Reader Nat := unsigned 1 name
def u16 (name : String) : Reader Nat := unsigned 2 name
def u32 (name : String) : Reader Nat := unsigned 4 name
def u64 (name : String) : Reader Nat := unsigned 8 name

def i64 (name : String) : Reader Int := do
  let n ← unsigned 8 name
  return if n < 2 ^ 63 then (n : Int) else n - 2 ^ 64

def bool (name : String) : Reader Bool := do
  let value ← u8 name
  if 1 < value then fail (name ++ " is not a valid bool") else return value = 1

def pubkey [PublicKey] (name : String) : Reader Text := do
  return PublicKey.toBase58 (← fixed 32 name)

/-- `Array.from({ length: n }, (_, i) => read(name[i]))`, from index `i` on. -/
def timesFrom (r : String → Reader α) (name : String) : Nat → Nat → Reader (List α)
  | _, 0 => pure []
  | i, n + 1 => do
    let a ← r (name ++ "[" ++ toString i ++ "]")
    return a :: (← timesFrom r name (i + 1) n)

def times (r : String → Reader α) (n : Nat) (name : String) : Reader (List α) :=
  timesFrom r name 0 n

end Reader

/-- `enumValue`: the entry of a table, or an error. -/
def enumValue {α : Type} (values : List α) (raw : Nat) (name : String) : Reader α :=
  match values[raw]? with
  | some value => pure value
  | none => Reader.fail ("Unknown " ++ name ++ " value " ++ toString raw)

/-- `header`: the discriminator and the least length. -/
def header (data expected : Bytes) (name : String) (minLength : Nat) : Except String Bytes :=
  if data.length < expected.length then .error (name ++ " account data is truncated")
  else if data.take expected.length ≠ expected then
    .error ("Invalid " ++ name ++ " account discriminator")
  else if data.length < minLength then .error (name ++ " account data is truncated")
  else .ok (data.drop 8)

/-! ## Decoded accounts -/

inductive CardFreezeReason where
  | none
  | owner
  | authorizerSafety
  | recovery
  | expiry
  deriving DecidableEq, Repr

inductive CardRecoveryState where
  | normal
  | recoveryFrozen
  | restoredPendingReconcile
  deriving DecidableEq, Repr

structure PolicyTail where
  reconDigest : Bytes
  repaymentDigests : List Bytes
  deriving DecidableEq, Repr

/-- The SDK's `CardPolicy`. -/
structure Policy where
  binding : Text
  owner : Text
  authorizer : Text
  policyVersion : Nat
  budgetCents : Nat
  maxPurchaseCents : Nat
  maxPurchasesPerPeriod : Nat
  periodSeconds : Nat
  currency : Text
  merchantIdHashes : List Bytes
  mccs : List Nat
  expiresAt : Int
  recurringAllowed : Bool
  feeBps : Nat
  frozen : Bool
  freezeReason : CardFreezeReason
  recoveryState : CardRecoveryState
  statementOutstandingCents : Nat
  exceptionsOpen : Nat
  members : List (Text × Nat)
  ledgerHead : Bytes
  ledgerSeq : Nat
  commitSeq : Nat
  bump : Nat
  tail : Option PolicyTail
  deriving DecidableEq, Repr

/-- The SDK's `CardPeriod`. -/
structure Period where
  policy : Text
  periodIndex : Nat
  periodStart : Int
  periodEnd : Int
  capturedCents : Nat
  reservedCents : Nat
  refundedCents : Nat
  purchasesCount : Nat
  exceptionCents : Nat
  bump : Nat
  deriving DecidableEq, Repr

/-- The SDK's `CardCommitment`. -/
structure Commitment where
  binding : Text
  seq : Nat
  root : Bytes
  policyVersion : Nat
  periodIndex : Nat
  writtenSlot : Nat
  bump : Nat
  deriving DecidableEq, Repr

def FREEZE_REASONS : List CardFreezeReason := [.none, .owner, .authorizerSafety, .recovery, .expiry]

def RECOVERY_STATES : List CardRecoveryState :=
  [.normal, .recoveryFrozen, .restoredPendingReconcile]

def CARD_POLICY_DISCRIMINATOR : Bytes := [196, 159, 33, 83, 231, 156, 65, 71]
def CARD_PERIOD_DISCRIMINATOR : Bytes := [112, 201, 91, 227, 87, 121, 62, 2]
def CARD_COMMITMENT_DISCRIMINATOR : Bytes := [43, 146, 163, 253, 221, 147, 4, 9]

def CARD_POLICY_LENGTH : Nat :=
  8 + 32 * 3 + 4 + 8 + 8 + 2 + 4 + 3 + 1 + 32 * MAX_MERCHANTS + 1 + 2 * MAX_MCCS + 8 + 1 + 2 + 1 +
    1 + 1 + 8 + 2 + 1 + 32 * MAX_MEMBERS + MAX_MEMBERS + 32 + 8 + 8 + 1
def CARD_PERIOD_LENGTH : Nat := 8 + 32 + 4 + 8 + 8 + 8 + 8 + 8 + 2 + 8 + 1
def CARD_COMMITMENT_LENGTH : Nat := 8 + 32 + 8 + 32 + 4 + 4 + 8 + 1

def currencyFromBytes (bs : Bytes) : Text :=
  if bs.all (· = 0) then [] else bs.map fun b => Char.ofNat b.toNat

/-- The fields the program appended, where the account is long enough. -/
def policyTail : Reader (Option PolicyTail) := do
  if (← Reader.remaining) < 32 + 32 * REPAYMENT_RING + 1 then return none
  else do
    let reconDigest ← Reader.fixed 32 "reconDigest"
    let ring ← Reader.times (Reader.fixed 32) REPAYMENT_RING "repaymentDigests"
    let count ← Reader.u8 "repaymentCount"
    return some ⟨reconDigest, ring.take (min count REPAYMENT_RING)⟩

section

variable [PublicKey]

def readPolicy : Reader Policy := do
  let binding ← Reader.pubkey "binding"
  let owner ← Reader.pubkey "owner"
  let authorizer ← Reader.pubkey "authorizer"
  let policyVersion ← Reader.u32 "policyVersion"
  let budgetCents ← Reader.u64 "budgetCents"
  let maxPurchaseCents ← Reader.u64 "maxPurchaseCents"
  let maxPurchasesPerPeriod ← Reader.u16 "maxPurchasesPerPeriod"
  let periodSeconds ← Reader.u32 "periodSeconds"
  let currency ← Reader.fixed 3 "currency"
  let merchantCount ← Reader.u8 "merchantCount"
  if MAX_MERCHANTS < merchantCount then Reader.fail "CardPolicy merchant_count exceeds capacity"
  else do
  let allMerchants ← Reader.times (Reader.fixed 32) MAX_MERCHANTS "merchantIdHashes"
  let mccCount ← Reader.u8 "mccCount"
  if MAX_MCCS < mccCount then Reader.fail "CardPolicy mcc_count exceeds capacity"
  else do
  let allMccs ← Reader.times Reader.u16 MAX_MCCS "mccs"
  let expiresAt ← Reader.i64 "expiresAt"
  let recurringAllowed ← Reader.bool "recurringAllowed"
  let feeBps ← Reader.u16 "feeBps"
  let frozen ← Reader.bool "frozen"
  let freezeReason ← enumValue FREEZE_REASONS (← Reader.u8 "freezeReason") "freeze reason"
  let recoveryState ← enumValue RECOVERY_STATES (← Reader.u8 "recoveryState") "recovery state"
  let statementOutstandingCents ← Reader.u64 "statementOutstandingCents"
  let exceptionsOpen ← Reader.u16 "exceptionsOpen"
  let memberCount ← Reader.u8 "memberCount"
  if MAX_MEMBERS < memberCount then Reader.fail "CardPolicy member_count exceeds capacity"
  else do
  let allMembers ← Reader.times Reader.pubkey MAX_MEMBERS "members"
  let allFlags ← Reader.times Reader.u8 MAX_MEMBERS "memberFlags"
  let ledgerHead ← Reader.fixed 32 "ledgerHead"
  let ledgerSeq ← Reader.u64 "ledgerSeq"
  let commitSeq ← Reader.u64 "commitSeq"
  let bump ← Reader.u8 "bump"
  let tail ← policyTail
  return {
    binding, owner, authorizer, policyVersion, budgetCents, maxPurchaseCents,
    maxPurchasesPerPeriod, periodSeconds,
    currency := currencyFromBytes currency
    merchantIdHashes := allMerchants.take merchantCount
    mccs := allMccs.take mccCount
    expiresAt, recurringAllowed, feeBps, frozen, freezeReason, recoveryState,
    statementOutstandingCents, exceptionsOpen,
    members := (allMembers.zip allFlags).take memberCount
    ledgerHead, ledgerSeq, commitSeq, bump, tail }

def decodeCardPolicy (data : Bytes) : Except String Policy := do
  let rest ← header data CARD_POLICY_DISCRIMINATOR "CardPolicy" CARD_POLICY_LENGTH
  return (← readPolicy rest).1

def readPeriod : Reader Period := do
  let policy ← Reader.pubkey "policy"
  let periodIndex ← Reader.u32 "periodIndex"
  let periodStart ← Reader.i64 "periodStart"
  let periodEnd ← Reader.i64 "periodEnd"
  let capturedCents ← Reader.u64 "capturedCents"
  let reservedCents ← Reader.u64 "reservedCents"
  let refundedCents ← Reader.u64 "refundedCents"
  let purchasesCount ← Reader.u16 "purchasesCount"
  let exceptionCents ← Reader.u64 "exceptionCents"
  let bump ← Reader.u8 "bump"
  return {
    policy, periodIndex, periodStart, periodEnd, capturedCents, reservedCents, refundedCents,
    purchasesCount, exceptionCents, bump }

def decodeCardPeriod (data : Bytes) : Except String Period := do
  let rest ← header data CARD_PERIOD_DISCRIMINATOR "CardPeriod" CARD_PERIOD_LENGTH
  return (← readPeriod rest).1

def readCommitment : Reader Commitment := do
  let binding ← Reader.pubkey "binding"
  let seq ← Reader.u64 "seq"
  let root ← Reader.fixed 32 "root"
  let policyVersion ← Reader.u32 "policyVersion"
  let periodIndex ← Reader.u32 "periodIndex"
  let writtenSlot ← Reader.u64 "writtenSlot"
  let bump ← Reader.u8 "bump"
  return { binding, seq, root, policyVersion, periodIndex, writtenSlot, bump }

def decodeCardCommitment (data : Bytes) : Except String Commitment := do
  let rest ← header data CARD_COMMITMENT_DISCRIMINATOR "CardCommitment" CARD_COMMITMENT_LENGTH
  return (← readCommitment rest).1

end

/-! ## Reading what the program wrote -/

theorem hash_length (h : Hash) : (Hash.bytes h).length = 32 := beBytes_length 32 _

namespace Reader

variable {α β : Type} {bs : Bytes} {segs : List Bytes} {name : String}

theorem fixed_ok {n : Nat} (h : bs.length = n) :
    fixed n name ((bs :: segs).flatten) = .ok (bs, segs.flatten) := by
  simp only [fixed, List.flatten_cons, List.length_append, h]
  rw [if_neg (by omega), List.take_left' h, List.drop_left' h]

theorem unsigned_ok {n v : Nat} (h : v < 256 ^ n) :
    unsigned n name ((leBytes n v :: segs).flatten) = .ok (v, segs.flatten) := by
  rw [unsigned, bind_ok (fixed_ok (leBytes_length n v)), ofLeBytes_leBytes, Nat.mod_eq_of_lt h]
  rfl

theorem u16_ok {v : Nat} (h : v < 2 ^ 16) :
    u16 name ((leBytes 2 v :: segs).flatten) = .ok (v, segs.flatten) :=
  unsigned_ok h

theorem u32_ok {v : Nat} (h : v < 2 ^ 32) :
    u32 name ((leBytes 4 v :: segs).flatten) = .ok (v, segs.flatten) :=
  unsigned_ok h

theorem u64_ok {v : Nat} (h : v < 2 ^ 64) :
    u64 name ((leBytes 8 v :: segs).flatten) = .ok (v, segs.flatten) :=
  unsigned_ok h

theorem byte_ok (b : UInt8) : u8 name (([b] :: segs).flatten) = .ok (b.toNat, segs.flatten) := by
  have hread : fixed 1 name (([b] :: segs).flatten) = .ok ([b], segs.flatten) := fixed_ok rfl
  rw [u8, unsigned, bind_ok hread]
  simp only [ofLeBytes, Nat.mul_zero, Nat.add_zero]
  rfl

theorem count_ok {v : Nat} (h : v < 256) :
    u8 name (([UInt8.ofNat v] :: segs).flatten) = .ok (v, segs.flatten) := by
  have hbyte : (UInt8.ofNat v).toNat = v % 256 := UInt8.toNat_ofNat'
  rw [byte_ok, hbyte, Nat.mod_eq_of_lt h]

theorem i64_ok {t : Int} (h : FitsI64 t) :
    i64 name ((timeBytes t :: segs).flatten) = .ok (t, segs.flatten) := by
  obtain ⟨hlow, hhigh⟩ := h
  have hlt : (t % 2 ^ 64).toNat < 256 ^ 8 := by
    rw [show (256 : Nat) ^ 8 = 2 ^ 64 by decide]
    omega
  rw [i64, timeBytes, bind_ok (unsigned_ok hlt)]
  have hvalue : (if (t % 2 ^ 64).toNat < 2 ^ 63 then ((t % 2 ^ 64).toNat : Int)
      else (t % 2 ^ 64).toNat - 2 ^ 64) = t := by
    split
    · omega
    · omega
  rw [hvalue]
  rfl

theorem bool_ok (b : Bool) :
    bool name (([boolByte b] :: segs).flatten) = .ok (b, segs.flatten) := by
  rw [bool, bind_ok (byte_ok _)]
  cases b with
  | false => rfl
  | true => rfl

theorem pubkey_ok [PublicKey] (k : Pubkey) :
    pubkey name ((Hash.bytes k :: segs).flatten) =
      .ok (PublicKey.toBase58 (Hash.bytes k), segs.flatten) := by
  rw [pubkey, bind_ok (fixed_ok (hash_length k))]
  rfl

theorem timesFrom_ok {r : String → Reader β} {enc : α → Bytes} {dec : α → β} {xs : List α}
    {i : Nat} (h : ∀ a ∈ xs, ∀ name segs,
      r name ((enc a :: segs).flatten) = .ok (dec a, segs.flatten)) :
    timesFrom r name i xs.length (((xs.map enc).flatten :: segs).flatten) =
      .ok (xs.map dec, segs.flatten) := by
  induction xs generalizing i with
  | nil => rfl
  | cons a xs ih =>
    have hhead := h a (List.mem_cons_self ..) (name ++ "[" ++ toString i ++ "]")
      ((xs.map enc).flatten :: segs)
    have htail := ih (i := i + 1) fun b hb => h b (List.mem_cons_of_mem _ hb)
    have htext : ((((a :: xs).map enc).flatten) :: segs).flatten =
        (enc a :: (xs.map enc).flatten :: segs).flatten := by
      simp
    rw [htext, List.length_cons, timesFrom, bind_ok hhead, bind_ok htail]
    rfl

theorem times_ok {r : String → Reader β} {enc : α → Bytes} {dec : α → β} {xs : List α} {n : Nat}
    (hn : xs.length = n)
    (h : ∀ a ∈ xs, ∀ name segs, r name ((enc a :: segs).flatten) = .ok (dec a, segs.flatten)) :
    times r n name (((xs.map enc).flatten :: segs).flatten) = .ok (xs.map dec, segs.flatten) := by
  rw [times, ← hn]
  exact timesFrom_ok h

end Reader

theorem enumValue_ok {α : Type} {values : List α} {raw : Nat} {name : String} {a : α} {bs : Bytes}
    (h : values[raw]? = some a) : enumValue values raw name bs = .ok (a, bs) := by
  rw [enumValue, h]
  rfl

/-- What a code of the program stands for. -/
def freezeReason (code : UInt8) : CardFreezeReason :=
  if code = FREEZE_OWNER then .owner
  else if code = FREEZE_AUTHORIZER_SAFETY then .authorizerSafety
  else if code = FREEZE_RECOVERY then .recovery
  else if code = FREEZE_EXPIRY then .expiry
  else .none

theorem freezeReason_known {code : UInt8} (h : code ≤ FREEZE_EXPIRY) :
    FREEZE_REASONS[code.toNat]? = some (freezeReason code) := by
  have hcodes : code = FREEZE_NONE ∨ code = FREEZE_OWNER ∨ code = FREEZE_AUTHORIZER_SAFETY ∨
      code = FREEZE_RECOVERY ∨ code = FREEZE_EXPIRY := by
    simp only [UInt8.le_iff_toNat_le, ← UInt8.toNat_inj, FREEZE_NONE, FREEZE_OWNER,
      FREEZE_AUTHORIZER_SAFETY, FREEZE_RECOVERY, FREEZE_EXPIRY, UInt8.reduceToNat] at h ⊢
    omega
  rcases hcodes with rfl | rfl | rfl | rfl | rfl
  all_goals rfl

/-- The letters of a currency, none of the zero code. -/
def currencyLetters (c : Currency) : Text :=
  if c = 0 then []
  else [Char.ofNat (c.toNat / 65536), Char.ofNat (c.toNat / 256 % 256), Char.ofNat (c.toNat % 256)]

theorem currencyFromBytes_letters (c : Currency) :
    currencyFromBytes (beBytes 3 c.toNat) = currencyLetters c := by
  have hlt : c.toNat < 2 ^ 24 := c.isLt
  have hbytes : beBytes 3 c.toNat = [UInt8.ofNat (c.toNat / 256 / 256),
      UInt8.ofNat (c.toNat / 256), UInt8.ofNat c.toNat] := rfl
  have hhigh : (UInt8.ofNat (c.toNat / 256 / 256)).toNat = c.toNat / 65536 := by
    rw [UInt8.toNat_ofNat']
    omega
  have hzero : (beBytes 3 c.toNat).all (· = 0) = true ↔ c = 0 := by
    rw [hbytes]
    simp only [List.all_cons, List.all_nil, Bool.and_true, Bool.and_eq_true, decide_eq_true_eq,
      ← UInt8.toNat_inj, hhigh, UInt8.toNat_ofNat', UInt8.reduceToNat, ← BitVec.toNat_inj,
      show (0 : Currency).toNat = 0 from rfl]
    omega
  by_cases hc : c = 0
  · rw [currencyFromBytes, if_pos (hzero.mpr hc), currencyLetters, if_pos hc]
  · rw [currencyFromBytes, if_neg (mt hzero.mp hc), currencyLetters, if_neg hc, hbytes]
    simp only [List.map_cons, List.map_nil, hhigh, UInt8.toNat_ofNat']

def recoveryState : RecoveryState → CardRecoveryState
  | .normal => .normal
  | .frozen => .recoveryFrozen
  | .restoredPending => .restoredPendingReconcile

theorem recoveryState_known (s : RecoveryState) :
    RECOVERY_STATES[s.code.toNat]? = some (recoveryState s) := by
  cases s with
  | normal => rfl
  | frozen => rfl
  | restoredPending => rfl

section

variable [PublicKey]

/-- What the SDK makes of a policy account. -/
def decodedPolicy (p : CardPolicy) (x : Spare) : Policy where
  binding := PublicKey.toBase58 (Hash.bytes p.binding)
  owner := PublicKey.toBase58 (Hash.bytes p.owner)
  authorizer := PublicKey.toBase58 (Hash.bytes p.authorizer)
  policyVersion := p.policyVersion
  budgetCents := p.budgetCents
  maxPurchaseCents := p.maxPurchaseCents
  maxPurchasesPerPeriod := p.maxPurchasesPerPeriod
  periodSeconds := p.periodSeconds
  currency := currencyLetters p.currency
  merchantIdHashes := p.merchantIdHashes.map Hash.bytes
  mccs := p.mccs
  expiresAt := p.expiresAt
  recurringAllowed := p.recurringAllowed
  feeBps := p.feeBps
  frozen := p.frozen
  freezeReason := freezeReason p.freezeReason
  recoveryState := recoveryState p.recoveryState
  statementOutstandingCents := p.statementOutstandingCents
  exceptionsOpen := p.exceptionsOpen
  members := ((p.members.toList.map fun k => PublicKey.toBase58 (Hash.bytes k)).zip
    (p.memberFlags.toList.map UInt8.toNat)).take p.memberCount
  ledgerHead := Hash.bytes p.ledgerHead
  ledgerSeq := p.ledgerSeq
  commitSeq := p.commitSeq
  bump := x.bump.toNat
  tail := some ⟨Hash.bytes p.reconDigest,
    (p.repayments.slots.toList.map Hash.bytes).take (min p.repayments.count.toNat REPAYMENT_RING)⟩

def decodedPeriod (q : CardPeriod) (x : Spare) : Period where
  policy := PublicKey.toBase58 (Hash.bytes x.policy)
  periodIndex := q.periodIndex
  periodStart := q.periodStart
  periodEnd := q.periodEnd
  capturedCents := q.capturedCents
  reservedCents := q.reservedCents
  refundedCents := q.refundedCents
  purchasesCount := q.purchasesCount
  exceptionCents := q.exceptionCents
  bump := x.bump.toNat

def decodedCommitment (c : CardCommitment) (binding : Pubkey) (bump : UInt8) : Commitment where
  binding := PublicKey.toBase58 (Hash.bytes binding)
  seq := c.seq
  root := Hash.bytes c.root
  policyVersion := c.policyVersion
  periodIndex := c.periodIndex
  writtenSlot := c.writtenSlot
  bump := bump.toNat

omit [PublicKey] in
theorem discriminator_policy : discriminator "CardPolicy" = CARD_POLICY_DISCRIMINATOR := by
  decide +kernel

omit [PublicKey] in
theorem discriminator_period : discriminator "CardPeriod" = CARD_PERIOD_DISCRIMINATOR := by
  decide +kernel

omit [PublicKey] in
theorem discriminator_commitment :
    discriminator "CardCommitment" = CARD_COMMITMENT_DISCRIMINATOR := by
  decide +kernel

omit [PublicKey] in
theorem header_ok {expected fields : Bytes} {name : String} {minLength : Nat}
    (hlen : expected.length = 8) (hmin : minLength ≤ 8 + fields.length) :
    header (expected ++ fields) expected name minLength = .ok fields := by
  have hlong : ¬ (expected ++ fields).length < expected.length := by
    simp
  have hshort : ¬ (expected ++ fields).length < minLength := by
    rw [List.length_append]
    omega
  rw [header, if_neg hlong, List.take_left, if_neg (fun h => h rfl), if_neg hshort,
    List.drop_left' hlen]

omit [PublicKey] in
theorem hashes_ok {name : String} {hs : List Hash} {n : Nat} {segs : List Bytes}
    (hn : hs.length = n) :
    Reader.times (Reader.fixed 32) n name (((hs.map Hash.bytes).flatten :: segs).flatten) =
      .ok (hs.map Hash.bytes, segs.flatten) := by
  refine Reader.times_ok hn fun h _ name segs => ?_
  exact Reader.fixed_ok (hash_length h)

omit [PublicKey] in
theorem hashes_length (hs : List Hash) : (hs.map Hash.bytes).flatten.length = 32 * hs.length := by
  induction hs with
  | nil => rfl
  | cons h hs ih =>
    rw [List.map_cons, List.flatten_cons, List.length_append, ih, hash_length, List.length_cons]
    omega

omit [PublicKey] in
theorem shorts_length (vs : List Nat) : (vs.map (leBytes 2)).flatten.length = 2 * vs.length := by
  induction vs with
  | nil => rfl
  | cons v vs ih =>
    rw [List.map_cons, List.flatten_cons, List.length_append, ih, leBytes_length, List.length_cons]
    omega

omit [PublicKey] in
theorem read_ok {α : Type} {data : Except String Bytes} {fields rest : Bytes} {r : Reader α} {a : α}
    (hdata : data = .ok fields) (hread : r fields = .ok (a, rest)) :
    (do
      let bs ← data
      return (← r bs).1 : Except String α) = .ok a := by
  rw [hdata]
  change (r fields >>= fun r => pure r.1) = _
  rw [hread]
  rfl

theorem policyTail_ok (p : CardPolicy) (x : Spare) (segs : List Bytes) :
    policyTail ((Hash.bytes p.reconDigest ::
      (p.repayments.slots.toList.map Hash.bytes).flatten :: [p.repayments.count] ::
        segs).flatten) =
      .ok ((decodedPolicy p x).tail, segs.flatten) := by
  have hring : p.repayments.slots.toList.length = REPAYMENT_RING := Vector.length_toList
  have hlong : ¬ ((Hash.bytes p.reconDigest ::
      (p.repayments.slots.toList.map Hash.bytes).flatten :: [p.repayments.count] ::
        segs).flatten).length < 32 + 32 * REPAYMENT_RING + 1 := by
    simp only [List.flatten_cons, List.length_append, hash_length, hashes_length, hring,
      List.length_singleton]
    omega
  rw [policyTail, Reader.bind_ok (r := Reader.remaining) rfl, if_neg hlong,
    Reader.bind_ok (Reader.fixed_ok (hash_length _)), Reader.bind_ok (hashes_ok hring),
    Reader.bind_ok (Reader.byte_ok _)]
  rfl

theorem readPolicy_ok {p : CardPolicy} {x : Spare} (h : Held p x) :
    ∃ rest, readPolicy (policyFields p x).flatten = .ok (decodedPolicy p x, rest) := by
  have hmembers : p.members.toList.length = MAX_MEMBERS := Vector.length_toList
  have hflags : p.memberFlags.toList.length = MAX_MEMBERS := Vector.length_toList
  have hmerchants : p.merchantIdHashes.length ≤ MAX_MERCHANTS := by
    rw [← h.merchants, List.length_append]
    omega
  have hmccs : p.mccs.length ≤ MAX_MCCS := by
    rw [← h.mccs, List.length_append]
    omega
  have hmerchantByte : p.merchantIdHashes.length < 256 := Nat.lt_of_le_of_lt hmerchants (by decide)
  have hmccByte : p.mccs.length < 256 := Nat.lt_of_le_of_lt hmccs (by decide)
  have hmemberByte : p.memberCount < 256 := Nat.lt_of_le_of_lt h.memberCount (by decide)
  -- the lists, each read element by element
  have hreadMccs : ∀ segs : List Bytes, Reader.times Reader.u16 MAX_MCCS "mccs"
      ((((p.mccs ++ x.mccs).map (leBytes 2)).flatten :: segs).flatten) =
        .ok (p.mccs ++ x.mccs, segs.flatten) := by
    intro segs
    have hread : Reader.times Reader.u16 MAX_MCCS "mccs"
        ((((p.mccs ++ x.mccs).map (leBytes 2)).flatten :: segs).flatten) =
          .ok ((p.mccs ++ x.mccs).map id, segs.flatten) :=
      Reader.times_ok h.mccs fun m hm _ segs => Reader.u16_ok (h.mcc m hm)
    rwa [List.map_id] at hread
  have hreadFlags : ∀ segs : List Bytes, Reader.times Reader.u8 MAX_MEMBERS "memberFlags"
      ((p.memberFlags.toList :: segs).flatten) =
        .ok (p.memberFlags.toList.map UInt8.toNat, segs.flatten) := by
    intro segs
    have hread : Reader.times Reader.u8 MAX_MEMBERS "memberFlags"
        (((p.memberFlags.toList.map fun b => [b]).flatten :: segs).flatten) =
          .ok (p.memberFlags.toList.map UInt8.toNat, segs.flatten) :=
      Reader.times_ok hflags fun b _ _ segs => Reader.byte_ok b
    rwa [← List.flatMap_def, List.flatMap_singleton'] at hread
  dsimp only [policyFields, readPolicy]
  rw [Reader.bind_ok (Reader.pubkey_ok _), Reader.bind_ok (Reader.pubkey_ok _),
    Reader.bind_ok (Reader.pubkey_ok _), Reader.bind_ok (Reader.u32_ok h.policyVersion),
    Reader.bind_ok (Reader.u64_ok h.budgetCents), Reader.bind_ok (Reader.u64_ok h.maxPurchaseCents),
    Reader.bind_ok (Reader.u16_ok h.maxPurchasesPerPeriod),
    Reader.bind_ok (Reader.u32_ok h.periodSeconds),
    Reader.bind_ok (Reader.fixed_ok (beBytes_length 3 _)),
    Reader.bind_ok (Reader.count_ok hmerchantByte), if_neg (Nat.not_lt.mpr hmerchants),
    Reader.bind_ok (hashes_ok h.merchants), Reader.bind_ok (Reader.count_ok hmccByte),
    if_neg (Nat.not_lt.mpr hmccs), Reader.bind_ok (hreadMccs _),
    Reader.bind_ok (Reader.i64_ok h.expiresAt), Reader.bind_ok (Reader.bool_ok _),
    Reader.bind_ok (Reader.u16_ok h.feeBps), Reader.bind_ok (Reader.bool_ok _),
    Reader.bind_ok (Reader.byte_ok _),
    Reader.bind_ok (enumValue_ok (freezeReason_known h.freezeReason)),
    Reader.bind_ok (Reader.byte_ok _), Reader.bind_ok (enumValue_ok (recoveryState_known _)),
    Reader.bind_ok (Reader.u64_ok h.statementOutstandingCents),
    Reader.bind_ok (Reader.u16_ok h.exceptionsOpen), Reader.bind_ok (Reader.count_ok hmemberByte),
    if_neg (Nat.not_lt.mpr h.memberCount),
    Reader.bind_ok (Reader.times_ok hmembers fun k _ _ segs => Reader.pubkey_ok k),
    Reader.bind_ok (hreadFlags _), Reader.bind_ok (Reader.fixed_ok (hash_length _)),
    Reader.bind_ok (Reader.u64_ok h.ledgerSeq), Reader.bind_ok (Reader.u64_ok h.commitSeq),
    Reader.bind_ok (Reader.byte_ok _), Reader.bind_ok (policyTail_ok p x _)]
  rw [List.map_append, List.take_left' (List.length_map _), List.take_left' rfl,
    currencyFromBytes_letters]
  exact ⟨_, rfl⟩

theorem decodeCardPolicy_data {p : CardPolicy} {x : Spare} (h : Held p x) :
    decodeCardPolicy (policyData p x) = .ok (decodedPolicy p x) := by
  obtain ⟨rest, hread⟩ := readPolicy_ok h
  have hlong : CARD_POLICY_LENGTH ≤ 8 + (policyFields p x).flatten.length := by
    simp only [policyFields, List.flatten_cons, List.length_append, hash_length, leBytes_length,
      beBytes_length, hashes_length, shorts_length, h.merchants, h.mccs, List.length_singleton,
      timeBytes, Vector.length_toList]
    simp only [CARD_POLICY_LENGTH, MAX_MERCHANTS, MAX_MCCS, MAX_MEMBERS, REPAYMENT_RING]
    omega
  rw [decodeCardPolicy, policyData, discriminator_policy]
  exact read_ok (header_ok rfl hlong) hread

theorem decodeCardPeriod_data {q : CardPeriod} {x : Spare} (h : HeldPeriod q) :
    decodeCardPeriod (periodData q x) = .ok (decodedPeriod q x) := by
  have hlong : CARD_PERIOD_LENGTH ≤ 8 + (periodFields q x).flatten.length := by
    simp only [periodFields, List.flatten_cons, List.length_append, hash_length, leBytes_length,
      List.length_singleton, timeBytes]
    simp only [CARD_PERIOD_LENGTH]
    omega
  rw [decodeCardPeriod, periodData, discriminator_period]
  have hread : readPeriod (periodFields q x).flatten = .ok (decodedPeriod q x, []) := by
    rw [periodFields, readPeriod, Reader.bind_ok (Reader.pubkey_ok _),
      Reader.bind_ok (Reader.u32_ok h.periodIndex), Reader.bind_ok (Reader.i64_ok h.periodStart),
      Reader.bind_ok (Reader.i64_ok h.periodEnd), Reader.bind_ok (Reader.u64_ok h.capturedCents),
      Reader.bind_ok (Reader.u64_ok h.reservedCents),
      Reader.bind_ok (Reader.u64_ok h.refundedCents),
      Reader.bind_ok (Reader.u16_ok h.purchasesCount),
      Reader.bind_ok (Reader.u64_ok h.exceptionCents), Reader.bind_ok (Reader.byte_ok _)]
    rfl
  exact read_ok (header_ok rfl hlong) hread

theorem decodeCardCommitment_data {c : CardCommitment} {binding : Pubkey} {bump : UInt8}
    (h : HeldCommitment c) :
    decodeCardCommitment (commitmentData c binding bump) =
      .ok (decodedCommitment c binding bump) := by
  have hlong : CARD_COMMITMENT_LENGTH ≤ 8 + (commitmentFields c binding bump).flatten.length := by
    simp only [commitmentFields, List.flatten_cons, List.length_append, hash_length,
      leBytes_length, List.length_singleton]
    simp only [CARD_COMMITMENT_LENGTH]
    omega
  rw [decodeCardCommitment, commitmentData, discriminator_commitment]
  have hread : readCommitment (commitmentFields c binding bump).flatten =
      .ok (decodedCommitment c binding bump, []) := by
    rw [commitmentFields, readCommitment, Reader.bind_ok (Reader.pubkey_ok _),
      Reader.bind_ok (Reader.u64_ok h.seq), Reader.bind_ok (Reader.fixed_ok (hash_length _)),
      Reader.bind_ok (Reader.u32_ok h.policyVersion),
      Reader.bind_ok (Reader.u32_ok h.periodIndex), Reader.bind_ok (Reader.u64_ok h.writtenSlot),
      Reader.bind_ok (Reader.byte_ok _)]
    rfl
  exact read_ok (header_ok rfl hlong) hread

end

end ChainPay.Sdk
