import ChainPay.Sdk.Reachable

/-!
The account data of a `Reservation` and a `CheckoutIntent`, and the SDK's decoders for them. What
the model leaves out of such an account, the addresses it names, the unused slots of its capture
ring and its bump, is a parameter (`EphemeralSpare`).
-/

namespace ChainPay.Sdk
open ChainPay.Lib ChainPay.Card

/-! ## Account data -/

structure EphemeralSpare where
  policy : Pubkey
  /-- The address of an ephemeral account of the card. -/
  address : Ephemeral → Pubkey
  captures : List Hash
  bump : UInt8

def INTENT_OPEN : UInt8 := 0
def INTENT_CONSUMED : UInt8 := 1
def INTENT_CANCELLED : UInt8 := 3

def intentCode : Card.IntentState → UInt8
  | .open => INTENT_OPEN
  | .consumed => INTENT_CONSUMED
  | .cancelled => INTENT_CANCELLED

/-- The fields of a `Reservation` account. -/
def reservationFields (r : Reservation) (x : EphemeralSpare) : List Bytes :=
  [Hash.bytes x.policy, Hash.bytes r.authIdHash, Hash.bytes (x.address (.intent r.intent)),
   leBytes 4 r.periodIndex, leBytes 8 r.amountReservedCents, leBytes 8 r.capturedCents,
   leBytes 8 r.reversedCents, leBytes 8 r.refundedCents, [r.state.code], [r.disputeState],
   [r.flags], timeBytes r.createdAt, timeBytes r.holdExpiresAt, [x.bump],
   [UInt8.ofNat r.captureIds.length], ((r.captureIds ++ x.captures).map Hash.bytes).flatten,
   leBytes 8 r.maxAmountCents]

def reservationData (r : Reservation) (x : EphemeralSpare) : Bytes :=
  discriminator "Reservation" ++ (reservationFields r x).flatten

/-- The address of the Reservation that consumed an intent, zero before. -/
def consumer (i : CheckoutIntent) (x : EphemeralSpare) : Pubkey :=
  match i.reservation with
  | some h => x.address (.reservation h)
  | none => 0

/-- The fields of a `CheckoutIntent` account. -/
def intentFields (i : CheckoutIntent) (x : EphemeralSpare) : List Bytes :=
  [Hash.bytes x.policy, beBytes 16 i.intentId.toNat, Hash.bytes i.agent,
   Hash.bytes i.merchantIdHash, leBytes 2 i.mcc, leBytes 8 i.maxAmountCents,
   beBytes 3 i.currency.toNat, leBytes 4 i.policyVersion, timeBytes i.expiresAt,
   [intentCode i.state], Hash.bytes (consumer i x), [x.bump]]

def intentData (i : CheckoutIntent) (x : EphemeralSpare) : Bytes :=
  discriminator "CheckoutIntent" ++ (intentFields i x).flatten

/-! ## Decoders -/

inductive DisputeState where
  | none
  | open
  | won
  | lost
  | withdrawn
  deriving DecidableEq, Repr

inductive IntentState where
  | open
  | consumed
  | expired
  | cancelled
  deriving DecidableEq, Repr

def DISPUTE_STATES : List DisputeState := [.none, .open, .won, .lost, .withdrawn]

def INTENT_STATES : List IntentState := [.open, .consumed, .expired, .cancelled]

/-- The SDK's `Reservation`. -/
structure Hold where
  policy : Text
  authIdHash : Bytes
  intent : Text
  periodIndex : Nat
  amountReservedCents : Nat
  capturedCents : Nat
  reversedCents : Nat
  refundedCents : Nat
  state : Nat
  disputeState : DisputeState
  flags : Nat
  createdAt : Int
  holdExpiresAt : Int
  bump : Nat
  captureIdHashes : Option (List Bytes)
  maxAmountCents : Option Nat
  deriving DecidableEq, Repr

/-- The SDK's `CheckoutIntent`. -/
structure Intent where
  policy : Text
  intentId : Bytes
  agent : Text
  merchantIdHash : Bytes
  mcc : Nat
  maxAmountCents : Nat
  currency : Text
  policyVersion : Nat
  expiresAt : Int
  state : IntentState
  reservation : Text
  bump : Nat
  deriving DecidableEq, Repr

def RESERVATION_DISCRIMINATOR : Bytes := [188, 235, 0, 111, 208, 253, 247, 212]
def CHECKOUT_INTENT_DISCRIMINATOR : Bytes := [39, 73, 4, 146, 212, 151, 108, 241]

def RESERVATION_LENGTH : Nat := 8 + 32 + 32 + 32 + 4 + 8 * 4 + 1 + 1 + 1 + 8 + 8 + 1
def CHECKOUT_INTENT_LENGTH : Nat := 8 + 32 + 16 + 32 + 32 + 2 + 8 + 3 + 4 + 8 + 1 + 32 + 1

/-- The capture ring and the intent's maximum, where the account is long enough for them. -/
def captureTail : Reader (Option (List Bytes) × Option Nat) := do
  if (← Reader.remaining) < 1 + 32 * CAPTURE_RING then return (none, none)
  else do
    let count ← Reader.u8 "captureCount"
    let ring ← Reader.times (Reader.fixed 32) CAPTURE_RING "captureIds"
    if (← Reader.remaining) < 8 then return (some (ring.take (min count CAPTURE_RING)), none)
    else do
      let maxAmountCents ← Reader.u64 "maxAmountCents"
      return (some (ring.take (min count CAPTURE_RING)), some maxAmountCents)

section

variable [PublicKey]

def readReservation : Reader Hold := do
  let policy ← Reader.pubkey "policy"
  let authIdHash ← Reader.fixed 32 "authIdHash"
  let intent ← Reader.pubkey "intent"
  let periodIndex ← Reader.u32 "periodIndex"
  let amountReservedCents ← Reader.u64 "amountReservedCents"
  let capturedCents ← Reader.u64 "capturedCents"
  let reversedCents ← Reader.u64 "reversedCents"
  let refundedCents ← Reader.u64 "refundedCents"
  let state ← Reader.u8 "state"
  let disputeState ← enumValue DISPUTE_STATES (← Reader.u8 "disputeState") "dispute state"
  let flags ← Reader.u8 "flags"
  let createdAt ← Reader.i64 "createdAt"
  let holdExpiresAt ← Reader.i64 "holdExpiresAt"
  let bump ← Reader.u8 "bump"
  let tail ← captureTail
  return {
    policy, authIdHash, intent, periodIndex, amountReservedCents, capturedCents, reversedCents,
    refundedCents, state, disputeState, flags, createdAt, holdExpiresAt, bump,
    captureIdHashes := tail.1, maxAmountCents := tail.2 }

def decodeReservation (data : Bytes) : Except String Hold := do
  let rest ← header data RESERVATION_DISCRIMINATOR "Reservation" RESERVATION_LENGTH
  return (← readReservation rest).1

def readIntent : Reader Intent := do
  let policy ← Reader.pubkey "policy"
  let intentId ← Reader.fixed 16 "intentId"
  let agent ← Reader.pubkey "agent"
  let merchantIdHash ← Reader.fixed 32 "merchantIdHash"
  let mcc ← Reader.u16 "mcc"
  let maxAmountCents ← Reader.u64 "maxAmountCents"
  let currency ← Reader.fixed 3 "currency"
  let policyVersion ← Reader.u32 "policyVersion"
  let expiresAt ← Reader.i64 "expiresAt"
  let state ← enumValue INTENT_STATES (← Reader.u8 "state") "intent state"
  let reservation ← Reader.pubkey "reservation"
  let bump ← Reader.u8 "bump"
  return {
    policy, intentId, agent, merchantIdHash, mcc, maxAmountCents,
    currency := currencyFromBytes currency
    policyVersion, expiresAt, state, reservation, bump }

def decodeCheckoutIntent (data : Bytes) : Except String Intent := do
  let rest ← header data CHECKOUT_INTENT_DISCRIMINATOR "CheckoutIntent" CHECKOUT_INTENT_LENGTH
  return (← readIntent rest).1

/-! ## Reading what the program wrote -/

/-- What a dispute code stands for. The program names 1 and 4; the relay records 2 for a case
that was won and 3 for one that was lost. -/
def disputeState (code : UInt8) : DisputeState :=
  if code = DISPUTE_OPEN then .open
  else if code = 2 then .won
  else if code = 3 then .lost
  else if code = DISPUTE_WITHDRAWN then .withdrawn
  else .none

/-- The stored value of every field of a reservation. -/
def storedHold (r : Reservation) (x : EphemeralSpare) : Hold where
  policy := PublicKey.toBase58 (Hash.bytes x.policy)
  authIdHash := Hash.bytes r.authIdHash
  intent := PublicKey.toBase58 (Hash.bytes (x.address (.intent r.intent)))
  periodIndex := r.periodIndex
  amountReservedCents := r.amountReservedCents
  capturedCents := r.capturedCents
  reversedCents := r.reversedCents
  refundedCents := r.refundedCents
  state := r.state.code.toNat
  disputeState := disputeState r.disputeState
  flags := r.flags.toNat
  createdAt := r.createdAt
  holdExpiresAt := r.holdExpiresAt
  bump := x.bump.toNat
  captureIdHashes := some (r.captureIds.map Hash.bytes)
  maxAmountCents := some r.maxAmountCents

def intentState : Card.IntentState → IntentState
  | .open => .open
  | .consumed => .consumed
  | .cancelled => .cancelled

/-- The stored value of every field of an intent. -/
def storedIntent (i : CheckoutIntent) (x : EphemeralSpare) : Intent where
  policy := PublicKey.toBase58 (Hash.bytes x.policy)
  intentId := beBytes 16 i.intentId.toNat
  agent := PublicKey.toBase58 (Hash.bytes i.agent)
  merchantIdHash := Hash.bytes i.merchantIdHash
  mcc := i.mcc
  maxAmountCents := i.maxAmountCents
  currency := currencyLetters i.currency
  policyVersion := i.policyVersion
  expiresAt := i.expiresAt
  state := intentState i.state
  reservation := PublicKey.toBase58 (Hash.bytes (consumer i x))
  bump := x.bump.toNat

omit [PublicKey] in
theorem discriminator_reservation : discriminator "Reservation" = RESERVATION_DISCRIMINATOR := by
  decide +kernel

omit [PublicKey] in
theorem discriminator_intent : discriminator "CheckoutIntent" = CHECKOUT_INTENT_DISCRIMINATOR := by
  decide +kernel

omit [PublicKey] in
theorem disputeState_known {code : UInt8} (h : code ≤ DISPUTE_WITHDRAWN) :
    DISPUTE_STATES[code.toNat]? = some (disputeState code) := by
  have hcodes : code = 0 ∨ code = DISPUTE_OPEN ∨ code = 2 ∨ code = 3 ∨
      code = DISPUTE_WITHDRAWN := by
    simp only [UInt8.le_iff_toNat_le, ← UInt8.toNat_inj, DISPUTE_OPEN, DISPUTE_WITHDRAWN,
      UInt8.reduceToNat] at h ⊢
    omega
  rcases hcodes with rfl | rfl | rfl | rfl | rfl
  all_goals rfl

omit [PublicKey] in
theorem intentState_known (s : Card.IntentState) :
    INTENT_STATES[(intentCode s).toNat]? = some (intentState s) := by
  cases s with
  | «open» => rfl
  | consumed => rfl
  | cancelled => rfl

omit [PublicKey] in
theorem captureTail_ok {r : Reservation} {x : EphemeralSpare}
    (hring : (r.captureIds ++ x.captures).length = CAPTURE_RING) (hmax : r.maxAmountCents < 2 ^ 64) :
    captureTail ([[UInt8.ofNat r.captureIds.length],
      ((r.captureIds ++ x.captures).map Hash.bytes).flatten, leBytes 8 r.maxAmountCents].flatten) =
      .ok ((some (r.captureIds.map Hash.bytes), some r.maxAmountCents), []) := by
  have hle : r.captureIds.length ≤ CAPTURE_RING := by
    rw [← hring, List.length_append]
    omega
  have hbyte : r.captureIds.length < 256 := Nat.lt_of_le_of_lt hle (by decide)
  have hlong : ¬ ([[UInt8.ofNat r.captureIds.length],
      ((r.captureIds ++ x.captures).map Hash.bytes).flatten,
      leBytes 8 r.maxAmountCents].flatten).length < 1 + 32 * CAPTURE_RING := by
    simp only [List.flatten_cons, List.length_append, hashes_length, List.length_singleton] at hring ⊢
    omega
  have hmore : ¬ ([leBytes 8 r.maxAmountCents].flatten).length < 8 := by
    simp only [List.flatten_cons, List.flatten_nil, List.append_nil, leBytes_length]
    omega
  rw [captureTail, Reader.bind_ok (r := Reader.remaining) rfl, if_neg hlong,
    Reader.bind_ok (Reader.count_ok hbyte), Reader.bind_ok (hashes_ok hring),
    Reader.bind_ok (r := Reader.remaining) rfl, if_neg hmore, Reader.bind_ok (Reader.u64_ok hmax),
    Nat.min_eq_left hle, List.map_append, List.take_left' (List.length_map _)]
  rfl

theorem decodeReservation_data {r : Reservation} {x : EphemeralSpare} (h : TypedReservation r)
    (hring : (r.captureIds ++ x.captures).length = CAPTURE_RING) :
    decodeReservation (reservationData r x) = .ok (storedHold r x) := by
  have hlong : RESERVATION_LENGTH ≤ 8 + (reservationFields r x).flatten.length := by
    simp only [reservationFields, List.flatten_cons, List.length_append, hash_length,
      leBytes_length, List.length_singleton, timeBytes]
    simp only [RESERVATION_LENGTH]
    omega
  rw [decodeReservation, reservationData, discriminator_reservation]
  have hread : readReservation (reservationFields r x).flatten = .ok (storedHold r x, []) := by
    rw [reservationFields, readReservation, Reader.bind_ok (Reader.pubkey_ok _),
      Reader.bind_ok (Reader.fixed_ok (hash_length _)), Reader.bind_ok (Reader.pubkey_ok _),
      Reader.bind_ok (Reader.u32_ok h.periodIndex),
      Reader.bind_ok (Reader.u64_ok h.amountReservedCents),
      Reader.bind_ok (Reader.u64_ok h.capturedCents),
      Reader.bind_ok (Reader.u64_ok h.reversedCents),
      Reader.bind_ok (Reader.u64_ok h.refundedCents), Reader.bind_ok (Reader.byte_ok _),
      Reader.bind_ok (Reader.byte_ok _),
      Reader.bind_ok (enumValue_ok (disputeState_known h.disputeState)),
      Reader.bind_ok (Reader.byte_ok _), Reader.bind_ok (Reader.i64_ok h.createdAt),
      Reader.bind_ok (Reader.i64_ok h.holdExpiresAt), Reader.bind_ok (Reader.byte_ok _),
      Reader.bind_ok (captureTail_ok hring h.maxAmountCents)]
    rfl
  exact read_ok (header_ok rfl hlong) hread

theorem decodeCheckoutIntent_data {i : CheckoutIntent} {x : EphemeralSpare} (h : TypedIntent i) :
    decodeCheckoutIntent (intentData i x) = .ok (storedIntent i x) := by
  have hlong : CHECKOUT_INTENT_LENGTH ≤ 8 + (intentFields i x).flatten.length := by
    simp only [intentFields, List.flatten_cons, List.length_append, hash_length, leBytes_length,
      beBytes_length, List.length_singleton, timeBytes]
    simp only [CHECKOUT_INTENT_LENGTH]
    omega
  rw [decodeCheckoutIntent, intentData, discriminator_intent]
  have hread : readIntent (intentFields i x).flatten = .ok (storedIntent i x, []) := by
    rw [intentFields, readIntent, Reader.bind_ok (Reader.pubkey_ok _),
      Reader.bind_ok (Reader.fixed_ok (beBytes_length 16 _)), Reader.bind_ok (Reader.pubkey_ok _),
      Reader.bind_ok (Reader.fixed_ok (hash_length _)), Reader.bind_ok (Reader.u16_ok h.mcc),
      Reader.bind_ok (Reader.u64_ok h.maxAmountCents),
      Reader.bind_ok (Reader.fixed_ok (beBytes_length 3 _)),
      Reader.bind_ok (Reader.u32_ok h.policyVersion), Reader.bind_ok (Reader.i64_ok h.expiresAt),
      Reader.bind_ok (Reader.byte_ok _), Reader.bind_ok (enumValue_ok (intentState_known _)),
      Reader.bind_ok (Reader.pubkey_ok _), Reader.bind_ok (Reader.byte_ok _),
      currencyFromBytes_letters]
    rfl
  exact read_ok (header_ok rfl hlong) hread

end

end ChainPay.Sdk
