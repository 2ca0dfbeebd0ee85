import ChainPay.Sdk.Ephemeral

/-!
The relay's own decoders of the card accounts. They keep keys and hashes as bytes and codes as
they are stored, read the merchants, MCCs and the repayment ring in full, and fail only on a wrong
discriminator or on data that ends early.
-/

namespace ChainPay.Backend.Readers
open ChainPay.Lib ChainPay.Card ChainPay.Sdk

inductive DecodeError where
  | discriminator
  | short
  deriving DecidableEq, Repr

/-- Reads from the front of what is left of the data. -/
abbrev Reader (α : Type) := StateT Bytes (Except DecodeError) α

namespace Reader

variable {α β : Type}

/-- What is left after the account's discriminator. -/
def new (data : Bytes) (name : String) : Except DecodeError Bytes :=
  if data.length < 8 then .error .short
  else if data.take 8 ≠ discriminator name then .error .discriminator
  else .ok (data.drop 8)

def take (n : Nat) : Reader Bytes := fun data =>
  if data.length < n then .error .short else .ok (data.take n, data.drop n)

/-- An unsigned little-endian number of `n` bytes. -/
def number (n : Nat) : Reader Nat := do
  return ofLeBytes (← take n)

def u8 : Reader UInt8 := do
  return (← take 1).headD 0

def u16 : Reader Nat := number 2
def u32 : Reader Nat := number 4
def u64 : Reader Nat := number 8

def i64 : Reader Int := do
  let n ← number 8
  return if n < 2 ^ 63 then (n : Int) else n - 2 ^ 64

def key : Reader Bytes := take 32

def repeated (r : Reader α) : Nat → Reader (List α)
  | 0 => pure []
  | n + 1 => do
    let a ← r
    return a :: (← r.repeated n)

end Reader

structure CardPolicyAccount where
  binding : Bytes
  owner : Bytes
  authorizer : Bytes
  policyVersion : Nat
  budgetCents : Nat
  maxPurchaseCents : Nat
  maxPurchasesPerPeriod : Nat
  periodSeconds : Nat
  currency : Bytes
  merchantIdHashes : List Bytes
  mccs : List Nat
  expiresAt : Int
  recurringAllowed : Bool
  feeBps : Nat
  frozen : Bool
  freezeReason : UInt8
  recoveryState : UInt8
  statementOutstandingCents : Nat
  exceptionsOpen : Nat
  ledgerHead : Bytes
  ledgerSeq : Nat
  commitSeq : Nat
  reconDigest : Bytes
  repaymentDigests : List Bytes
  deriving DecidableEq, Repr

structure CardPeriodAccount where
  policy : Bytes
  periodIndex : Nat
  periodStart : Int
  periodEnd : Int
  capturedCents : Nat
  reservedCents : Nat
  refundedCents : Nat
  purchasesCount : Nat
  exceptionCents : Nat
  deriving DecidableEq, Repr

structure ReservationAccount where
  policy : Bytes
  authIdHash : Bytes
  intent : Bytes
  periodIndex : Nat
  amountReservedCents : Nat
  capturedCents : Nat
  reversedCents : Nat
  refundedCents : Nat
  state : UInt8
  disputeState : UInt8
  flags : UInt8
  createdAt : Int
  holdExpiresAt : Int
  deriving DecidableEq, Repr

structure CheckoutIntentAccount where
  policy : Bytes
  intentId : Bytes
  agent : Bytes
  merchantIdHash : Bytes
  mcc : Nat
  maxAmountCents : Nat
  currency : Bytes
  policyVersion : Nat
  expiresAt : Int
  state : UInt8
  deriving DecidableEq, Repr

structure CommitmentAccount where
  binding : Bytes
  seq : Nat
  root : Bytes
  policyVersion : Nat
  periodIndex : Nat
  writtenSlot : Nat
  deriving DecidableEq, Repr

/-! ## Decoders -/

/-- Appended fields: every non-zero slot of the ring is a recorded digest. -/
def policyTail : Reader (Bytes × List Bytes) := do
  let _ ← Reader.u8
  let recon ← Reader.take 32
  let ring ← (Reader.take 32).repeated 8
  let _ ← Reader.u8
  return (recon, ring.filter (· ≠ List.replicate 32 0))

/-- The closure over the reader: on an account that ends early the fields are absent. -/
def appended : Reader (Bytes × List Bytes) := fun data =>
  match policyTail data with
  | .ok (tail, rest) => .ok (tail, rest)
  | .error _ => .ok ((List.replicate 32 0, []), data)

def readPolicy : Reader CardPolicyAccount := do
  let binding ← Reader.key
  let owner ← Reader.key
  let authorizer ← Reader.key
  let policyVersion ← Reader.u32
  let budgetCents ← Reader.u64
  let maxPurchaseCents ← Reader.u64
  let maxPurchasesPerPeriod ← Reader.u16
  let periodSeconds ← Reader.u32
  let currency ← Reader.take 3
  let merchantCount ← Reader.u8
  let merchants ← (Reader.take 32).repeated 8
  let mccCount ← Reader.u8
  let mccs ← Reader.u16.repeated 16
  let expiresAt ← Reader.i64
  let recurringAllowed ← Reader.u8
  let feeBps ← Reader.u16
  let frozen ← Reader.u8
  let freezeReason ← Reader.u8
  let recoveryState ← Reader.u8
  let statementOutstandingCents ← Reader.u64
  let exceptionsOpen ← Reader.u16
  let _ ← Reader.u8
  let _ ← Reader.take (32 * 6)
  let _ ← Reader.take 6
  let ledgerHead ← Reader.take 32
  let ledgerSeq ← Reader.u64
  let commitSeq ← Reader.u64
  let tail ← appended
  return {
    binding, owner, authorizer, policyVersion, budgetCents, maxPurchaseCents,
    maxPurchasesPerPeriod, periodSeconds, currency,
    merchantIdHashes := merchants.take (min merchantCount.toNat 8)
    mccs := mccs.take (min mccCount.toNat 16)
    expiresAt, recurringAllowed := recurringAllowed ≠ 0, feeBps, frozen := frozen ≠ 0,
    freezeReason, recoveryState, statementOutstandingCents, exceptionsOpen, ledgerHead, ledgerSeq,
    commitSeq, reconDigest := tail.1, repaymentDigests := tail.2 }

def decodePolicy (data : Bytes) : Except DecodeError CardPolicyAccount := do
  readPolicy.run' (← Reader.new data "CardPolicy")

def readPeriod : Reader CardPeriodAccount := do
  let policy ← Reader.key
  let periodIndex ← Reader.u32
  let periodStart ← Reader.i64
  let periodEnd ← Reader.i64
  let capturedCents ← Reader.u64
  let reservedCents ← Reader.u64
  let refundedCents ← Reader.u64
  let purchasesCount ← Reader.u16
  let exceptionCents ← Reader.u64
  return {
    policy, periodIndex, periodStart, periodEnd, capturedCents, reservedCents, refundedCents,
    purchasesCount, exceptionCents }

def decodePeriod (data : Bytes) : Except DecodeError CardPeriodAccount := do
  readPeriod.run' (← Reader.new data "CardPeriod")

def readReservation : Reader ReservationAccount := do
  let policy ← Reader.key
  let authIdHash ← Reader.take 32
  let intent ← Reader.key
  let periodIndex ← Reader.u32
  let amountReservedCents ← Reader.u64
  let capturedCents ← Reader.u64
  let reversedCents ← Reader.u64
  let refundedCents ← Reader.u64
  let state ← Reader.u8
  let disputeState ← Reader.u8
  let flags ← Reader.u8
  let createdAt ← Reader.i64
  let holdExpiresAt ← Reader.i64
  return {
    policy, authIdHash, intent, periodIndex, amountReservedCents, capturedCents, reversedCents,
    refundedCents, state, disputeState, flags, createdAt, holdExpiresAt }

def decodeReservation (data : Bytes) : Except DecodeError ReservationAccount := do
  readReservation.run' (← Reader.new data "Reservation")

def readIntent : Reader CheckoutIntentAccount := do
  let policy ← Reader.key
  let intentId ← Reader.take 16
  let agent ← Reader.key
  let merchantIdHash ← Reader.take 32
  let mcc ← Reader.u16
  let maxAmountCents ← Reader.u64
  let currency ← Reader.take 3
  let policyVersion ← Reader.u32
  let expiresAt ← Reader.i64
  let state ← Reader.u8
  return {
    policy, intentId, agent, merchantIdHash, mcc, maxAmountCents, currency, policyVersion,
    expiresAt, state }

def decodeIntent (data : Bytes) : Except DecodeError CheckoutIntentAccount := do
  readIntent.run' (← Reader.new data "CheckoutIntent")

def readCommitment : Reader CommitmentAccount := do
  let binding ← Reader.key
  let seq ← Reader.u64
  let root ← Reader.take 32
  let policyVersion ← Reader.u32
  let periodIndex ← Reader.u32
  let writtenSlot ← Reader.u64
  return { binding, seq, root, policyVersion, periodIndex, writtenSlot }

def decodeCommitment (data : Bytes) : Except DecodeError CommitmentAccount := do
  readCommitment.run' (← Reader.new data "CardCommitment")

/-! ## Reading what the program wrote -/

namespace Reader

variable {α β : Type} {bs : Bytes} {segs : List Bytes}

theorem bind_ok {r : Reader α} {f : α → Reader β} {bs rest : Bytes} {a : α}
    (h : r bs = .ok (a, rest)) : (r >>= f) bs = f a rest := by
  change (r bs >>= fun x => f x.1 x.2) = _
  rw [h]
  rfl

theorem take_ok {n : Nat} (h : bs.length = n) :
    take n ((bs :: segs).flatten) = .ok (bs, segs.flatten) := by
  simp only [take, List.flatten_cons, List.length_append, h]
  rw [if_neg (by omega), List.take_left' h, List.drop_left' h]

theorem number_ok {n v : Nat} (h : v < 256 ^ n) :
    number n ((leBytes n v :: segs).flatten) = .ok (v, segs.flatten) := by
  rw [number, bind_ok (take_ok (leBytes_length n v)), ofLeBytes_leBytes, Nat.mod_eq_of_lt h]
  rfl

theorem u8_ok (b : UInt8) : u8 (([b] :: segs).flatten) = .ok (b, segs.flatten) := by
  have hread : take 1 (([b] :: segs).flatten) = .ok ([b], segs.flatten) := take_ok rfl
  rw [u8, bind_ok hread]
  rfl

theorem u16_ok {v : Nat} (h : v < 2 ^ 16) :
    u16 ((leBytes 2 v :: segs).flatten) = .ok (v, segs.flatten) :=
  number_ok h

theorem u32_ok {v : Nat} (h : v < 2 ^ 32) :
    u32 ((leBytes 4 v :: segs).flatten) = .ok (v, segs.flatten) :=
  number_ok h

theorem u64_ok {v : Nat} (h : v < 2 ^ 64) :
    u64 ((leBytes 8 v :: segs).flatten) = .ok (v, segs.flatten) :=
  number_ok h

theorem i64_ok {t : Int} (h : FitsI64 t) :
    i64 ((timeBytes t :: segs).flatten) = .ok (t, segs.flatten) := by
  obtain ⟨hlow, hhigh⟩ := h
  have hlt : (t % 2 ^ 64).toNat < 256 ^ 8 := by
    rw [show (256 : Nat) ^ 8 = 2 ^ 64 by decide]
    omega
  rw [i64, timeBytes, bind_ok (number_ok hlt)]
  have hvalue : (if (t % 2 ^ 64).toNat < 2 ^ 63 then ((t % 2 ^ 64).toNat : Int)
      else (t % 2 ^ 64).toNat - 2 ^ 64) = t := by
    split
    · omega
    · omega
  rw [hvalue]
  rfl

theorem key_ok (k : Pubkey) :
    key ((Hash.bytes k :: segs).flatten) = .ok (Hash.bytes k, segs.flatten) :=
  take_ok (hash_length k)

theorem repeated_ok {r : Reader β} {enc : α → Bytes} {dec : α → β} {xs : List α} {n : Nat}
    (hn : xs.length = n)
    (h : ∀ a ∈ xs, ∀ segs, r ((enc a :: segs).flatten) = .ok (dec a, segs.flatten)) :
    r.repeated n (((xs.map enc).flatten :: segs).flatten) = .ok (xs.map dec, segs.flatten) := by
  subst hn
  induction xs with
  | nil => rfl
  | cons a xs ih =>
    have hhead := h a (List.mem_cons_self ..) ((xs.map enc).flatten :: segs)
    have htail := ih fun b hb => h b (List.mem_cons_of_mem _ hb)
    have htext : ((((a :: xs).map enc).flatten) :: segs).flatten =
        (enc a :: (xs.map enc).flatten :: segs).flatten := by
      simp
    rw [htext, List.length_cons, repeated, bind_ok hhead, bind_ok htail]
    rfl

theorem hashes_ok {hs : List Hash} {n : Nat} (hn : hs.length = n) :
    (take 32).repeated n (((hs.map Hash.bytes).flatten :: segs).flatten) =
      .ok (hs.map Hash.bytes, segs.flatten) :=
  repeated_ok hn fun h _ _ => take_ok (hash_length h)

theorem new_ok {name : String} {expected fields : Bytes} (hname : discriminator name = expected)
    (hlen : expected.length = 8) : new (discriminator name ++ fields) name = .ok fields := by
  rw [hname]
  have hlong : ¬ (expected ++ fields).length < 8 := by
    rw [List.length_append]
    omega
  rw [new, if_neg hlong, List.take_left' hlen, hname, if_neg (fun h => h rfl), List.drop_left' hlen]

theorem run_ok {data : Except DecodeError Bytes} {fields rest : Bytes} {r : Reader α} {a : α}
    (hdata : data = .ok fields) (hread : r fields = .ok (a, rest)) :
    (do r.run' (← data) : Except DecodeError α) = .ok a := by
  rw [hdata]
  change ((fun x => x.1) <$> r fields) = _
  rw [hread]
  rfl

end Reader

/-- The digests in a ring: its non-zero slots. -/
def digests (p : CardPolicy) : List Hash := p.repayments.slots.toList.filter (· ≠ 0)

/-- The stored value of every field the relay reads. -/
def storedPolicy (p : CardPolicy) : CardPolicyAccount where
  binding := Hash.bytes p.binding
  owner := Hash.bytes p.owner
  authorizer := Hash.bytes p.authorizer
  policyVersion := p.policyVersion
  budgetCents := p.budgetCents
  maxPurchaseCents := p.maxPurchaseCents
  maxPurchasesPerPeriod := p.maxPurchasesPerPeriod
  periodSeconds := p.periodSeconds
  currency := beBytes 3 p.currency.toNat
  merchantIdHashes := p.merchantIdHashes.map Hash.bytes
  mccs := p.mccs
  expiresAt := p.expiresAt
  recurringAllowed := p.recurringAllowed
  feeBps := p.feeBps
  frozen := p.frozen
  freezeReason := p.freezeReason
  recoveryState := p.recoveryState.code
  statementOutstandingCents := p.statementOutstandingCents
  exceptionsOpen := p.exceptionsOpen
  ledgerHead := Hash.bytes p.ledgerHead
  ledgerSeq := p.ledgerSeq
  commitSeq := p.commitSeq
  reconDigest := Hash.bytes p.reconDigest
  repaymentDigests := (digests p).map Hash.bytes

def storedPeriod (q : CardPeriod) (x : Spare) : CardPeriodAccount where
  policy := Hash.bytes x.policy
  periodIndex := q.periodIndex
  periodStart := q.periodStart
  periodEnd := q.periodEnd
  capturedCents := q.capturedCents
  reservedCents := q.reservedCents
  refundedCents := q.refundedCents
  purchasesCount := q.purchasesCount
  exceptionCents := q.exceptionCents

def storedReservation (r : Reservation) (x : EphemeralSpare) : ReservationAccount where
  policy := Hash.bytes x.policy
  authIdHash := Hash.bytes r.authIdHash
  intent := Hash.bytes (x.address (.intent r.intent))
  periodIndex := r.periodIndex
  amountReservedCents := r.amountReservedCents
  capturedCents := r.capturedCents
  reversedCents := r.reversedCents
  refundedCents := r.refundedCents
  state := r.state.code
  disputeState := r.disputeState
  flags := r.flags
  createdAt := r.createdAt
  holdExpiresAt := r.holdExpiresAt

def storedIntent (i : CheckoutIntent) (x : EphemeralSpare) : CheckoutIntentAccount where
  policy := Hash.bytes x.policy
  intentId := beBytes 16 i.intentId.toNat
  agent := Hash.bytes i.agent
  merchantIdHash := Hash.bytes i.merchantIdHash
  mcc := i.mcc
  maxAmountCents := i.maxAmountCents
  currency := beBytes 3 i.currency.toNat
  policyVersion := i.policyVersion
  expiresAt := i.expiresAt
  state := intentCode i.state

def storedCommitment (c : CardCommitment) (binding : Pubkey) : CommitmentAccount where
  binding := Hash.bytes binding
  seq := c.seq
  root := Hash.bytes c.root
  policyVersion := c.policyVersion
  periodIndex := c.periodIndex
  writtenSlot := c.writtenSlot

/-- Only the zero hash is 32 zero bytes. -/
theorem bytes_eq_zero (h : Hash) : Hash.bytes h = List.replicate 32 0 ↔ h = 0 := by
  have hzero : Hash.bytes 0 = List.replicate 32 0 := by decide
  rw [← hzero]
  exact ⟨fun he => Hash.bytes_inj he, fun he => by rw [he]⟩

theorem filter_digests (hs : List Hash) :
    (hs.map Hash.bytes).filter (· ≠ List.replicate 32 0) = (hs.filter (· ≠ 0)).map Hash.bytes := by
  rw [List.filter_map]
  congr 2
  funext h
  simp only [Function.comp, ne_eq, bytes_eq_zero]

theorem boolByte_ne_zero (b : Bool) : decide (boolByte b ≠ 0) = b := by
  cases b with
  | false => rfl
  | true => rfl

theorem appended_ok (p : CardPolicy) (x : Spare) (segs : List Bytes) :
    appended (([x.bump] :: Hash.bytes p.reconDigest ::
      (p.repayments.slots.toList.map Hash.bytes).flatten :: [p.repayments.count] ::
        segs).flatten) =
      .ok ((Hash.bytes p.reconDigest, (digests p).map Hash.bytes), segs.flatten) := by
  have hring : p.repayments.slots.toList.length = 8 := Vector.length_toList
  have htail : policyTail (([x.bump] :: Hash.bytes p.reconDigest ::
      (p.repayments.slots.toList.map Hash.bytes).flatten :: [p.repayments.count] ::
        segs).flatten) =
      .ok ((Hash.bytes p.reconDigest, (digests p).map Hash.bytes), segs.flatten) := by
    rw [policyTail, Reader.bind_ok (Reader.u8_ok _),
      Reader.bind_ok (Reader.take_ok (hash_length _)), Reader.bind_ok (Reader.hashes_ok hring),
      Reader.bind_ok (Reader.u8_ok _), filter_digests]
    rfl
  rw [appended, htail]

theorem readPolicy_ok {p : CardPolicy} {x : Spare} (h : Held p x) :
    ∃ rest, readPolicy (policyFields p x).flatten = .ok (storedPolicy p, rest) := by
  have hmerchants : p.merchantIdHashes.length ≤ 8 := by
    have hlength := h.merchants
    rw [List.length_append, MAX_MERCHANTS] at hlength
    omega
  have hmccs : p.mccs.length ≤ 16 := by
    have hlength := h.mccs
    rw [List.length_append, MAX_MCCS] at hlength
    omega
  have hmerchantCount : min (UInt8.ofNat p.merchantIdHashes.length).toNat 8 =
      p.merchantIdHashes.length := by
    rw [UInt8.toNat_ofNat', Nat.mod_eq_of_lt (by omega)]
    omega
  have hmccCount : min (UInt8.ofNat p.mccs.length).toNat 16 = p.mccs.length := by
    rw [UInt8.toNat_ofNat', Nat.mod_eq_of_lt (by omega)]
    omega
  have hslots : (p.merchantIdHashes ++ x.merchants).length = 8 := h.merchants
  have hmembers : ((p.members.toList.map Hash.bytes).flatten).length = 32 * 6 := by
    rw [hashes_length, Vector.length_toList]
  have hflags : p.memberFlags.toList.length = 6 := Vector.length_toList
  have hreadMccs : ∀ segs : List Bytes, Reader.u16.repeated 16
      ((((p.mccs ++ x.mccs).map (leBytes 2)).flatten :: segs).flatten) =
        .ok (p.mccs ++ x.mccs, segs.flatten) := by
    intro segs
    have hread : Reader.u16.repeated 16
        ((((p.mccs ++ x.mccs).map (leBytes 2)).flatten :: segs).flatten) =
          .ok ((p.mccs ++ x.mccs).map id, segs.flatten) :=
      Reader.repeated_ok h.mccs fun m hm segs => Reader.u16_ok (h.mcc m hm)
    rwa [List.map_id] at hread
  dsimp only [policyFields, readPolicy]
  rw [Reader.bind_ok (Reader.key_ok _), Reader.bind_ok (Reader.key_ok _),
    Reader.bind_ok (Reader.key_ok _), Reader.bind_ok (Reader.u32_ok h.policyVersion),
    Reader.bind_ok (Reader.u64_ok h.budgetCents), Reader.bind_ok (Reader.u64_ok h.maxPurchaseCents),
    Reader.bind_ok (Reader.u16_ok h.maxPurchasesPerPeriod),
    Reader.bind_ok (Reader.u32_ok h.periodSeconds),
    Reader.bind_ok (Reader.take_ok (beBytes_length 3 _)), Reader.bind_ok (Reader.u8_ok _),
    Reader.bind_ok (Reader.hashes_ok hslots), Reader.bind_ok (Reader.u8_ok _),
    Reader.bind_ok (hreadMccs _), Reader.bind_ok (Reader.i64_ok h.expiresAt),
    Reader.bind_ok (Reader.u8_ok _), Reader.bind_ok (Reader.u16_ok h.feeBps),
    Reader.bind_ok (Reader.u8_ok _), Reader.bind_ok (Reader.u8_ok _),
    Reader.bind_ok (Reader.u8_ok _), Reader.bind_ok (Reader.u64_ok h.statementOutstandingCents),
    Reader.bind_ok (Reader.u16_ok h.exceptionsOpen), Reader.bind_ok (Reader.u8_ok _),
    Reader.bind_ok (Reader.take_ok hmembers), Reader.bind_ok (Reader.take_ok hflags),
    Reader.bind_ok (Reader.take_ok (hash_length _)), Reader.bind_ok (Reader.u64_ok h.ledgerSeq),
    Reader.bind_ok (Reader.u64_ok h.commitSeq), Reader.bind_ok (appended_ok p x _)]
  rw [hmerchantCount, hmccCount, List.map_append, List.take_left' (List.length_map _),
    List.take_left' rfl, boolByte_ne_zero, boolByte_ne_zero]
  exact ⟨_, rfl⟩

theorem decodePolicy_data {p : CardPolicy} {x : Spare} (h : Held p x) :
    decodePolicy (policyData p x) = .ok (storedPolicy p) := by
  obtain ⟨rest, hread⟩ := readPolicy_ok h
  exact Reader.run_ok (Reader.new_ok discriminator_policy rfl) hread

theorem decodePeriod_data {q : CardPeriod} {x : Spare} (h : HeldPeriod q) :
    decodePeriod (periodData q x) = .ok (storedPeriod q x) := by
  have hread : readPeriod (periodFields q x).flatten = .ok (storedPeriod q x, [x.bump]) := by
    rw [periodFields, readPeriod, Reader.bind_ok (Reader.key_ok _),
      Reader.bind_ok (Reader.u32_ok h.periodIndex), Reader.bind_ok (Reader.i64_ok h.periodStart),
      Reader.bind_ok (Reader.i64_ok h.periodEnd), Reader.bind_ok (Reader.u64_ok h.capturedCents),
      Reader.bind_ok (Reader.u64_ok h.reservedCents),
      Reader.bind_ok (Reader.u64_ok h.refundedCents),
      Reader.bind_ok (Reader.u16_ok h.purchasesCount),
      Reader.bind_ok (Reader.u64_ok h.exceptionCents)]
    rfl
  exact Reader.run_ok (Reader.new_ok discriminator_period rfl) hread

theorem decodeReservation_data {r : Reservation} {x : EphemeralSpare} (h : TypedReservation r) :
    decodeReservation (reservationData r x) = .ok (storedReservation r x) := by
  have hread : ∃ rest, readReservation (reservationFields r x).flatten =
      .ok (storedReservation r x, rest) := by
    rw [reservationFields, readReservation, Reader.bind_ok (Reader.key_ok _),
      Reader.bind_ok (Reader.take_ok (hash_length _)), Reader.bind_ok (Reader.key_ok _),
      Reader.bind_ok (Reader.u32_ok h.periodIndex),
      Reader.bind_ok (Reader.u64_ok h.amountReservedCents),
      Reader.bind_ok (Reader.u64_ok h.capturedCents),
      Reader.bind_ok (Reader.u64_ok h.reversedCents),
      Reader.bind_ok (Reader.u64_ok h.refundedCents), Reader.bind_ok (Reader.u8_ok _),
      Reader.bind_ok (Reader.u8_ok _), Reader.bind_ok (Reader.u8_ok _),
      Reader.bind_ok (Reader.i64_ok h.createdAt), Reader.bind_ok (Reader.i64_ok h.holdExpiresAt)]
    exact ⟨_, rfl⟩
  obtain ⟨rest, hread⟩ := hread
  exact Reader.run_ok (Reader.new_ok discriminator_reservation rfl) hread

theorem decodeIntent_data {i : CheckoutIntent} {x : EphemeralSpare} (h : TypedIntent i) :
    decodeIntent (intentData i x) = .ok (storedIntent i x) := by
  have hread : ∃ rest, readIntent (intentFields i x).flatten = .ok (storedIntent i x, rest) := by
    rw [intentFields, readIntent, Reader.bind_ok (Reader.key_ok _),
      Reader.bind_ok (Reader.take_ok (beBytes_length 16 _)), Reader.bind_ok (Reader.key_ok _),
      Reader.bind_ok (Reader.take_ok (hash_length _)), Reader.bind_ok (Reader.u16_ok h.mcc),
      Reader.bind_ok (Reader.u64_ok h.maxAmountCents),
      Reader.bind_ok (Reader.take_ok (beBytes_length 3 _)),
      Reader.bind_ok (Reader.u32_ok h.policyVersion), Reader.bind_ok (Reader.i64_ok h.expiresAt),
      Reader.bind_ok (Reader.u8_ok _)]
    exact ⟨_, rfl⟩
  obtain ⟨rest, hread⟩ := hread
  exact Reader.run_ok (Reader.new_ok discriminator_intent rfl) hread

theorem decodeCommitment_data {c : CardCommitment} {binding : Pubkey} {bump : UInt8}
    (h : HeldCommitment c) :
    decodeCommitment (commitmentData c binding bump) = .ok (storedCommitment c binding) := by
  have hread : readCommitment (commitmentFields c binding bump).flatten =
      .ok (storedCommitment c binding, [bump]) := by
    rw [commitmentFields, readCommitment, Reader.bind_ok (Reader.key_ok _),
      Reader.bind_ok (Reader.u64_ok h.seq), Reader.bind_ok (Reader.take_ok (hash_length _)),
      Reader.bind_ok (Reader.u32_ok h.policyVersion),
      Reader.bind_ok (Reader.u32_ok h.periodIndex), Reader.bind_ok (Reader.u64_ok h.writtenSlot)]
    rfl
  exact Reader.run_ok (Reader.new_ok discriminator_commitment rfl) hread

end ChainPay.Backend.Readers
