import ChainPay.Card.Setup

/-!
Checkpoints and the end of a card: `checkpoint` schedules the salted root of the
private state, `write_commitment` stores it on the base layer, `wipe_card` closes
every ephemeral account and zeroes the rest, `close_card` retires the binding.
-/

namespace ChainPay.Card
open ChainPay.Lib

/-! ## Commitment root -/

def LEAF_DOMAIN : Bytes := ascii "chainpay-card-leaf:v1\n"

def leafSalt (masterSalt : Hash) (index : Nat) : Hash :=
  hashv [Hash.bytes masterSalt, [UInt8.ofNat index]]

def leafHash (index : Nat) (salt : Hash) (value : Bytes) : Hash :=
  hashv [LEAF_DOMAIN, [UInt8.ofNat index], Hash.bytes salt, value]

def nodeHash (left right : Hash) : Hash := hashv [[1], Hash.bytes left, Hash.bytes right]

def boolByte (b : Bool) : UInt8 := if b then 1 else 0

/-- A timestamp as its eight two's complement bytes. -/
def timeBytes (t : Int) : Bytes := leBytes 8 (t % 2 ^ 64).toNat

/-- The sixteen leaf values, little-endian, the lists sorted before hashing. -/
def leafValues (policy : CardPolicy) (period : CardPeriod) : List Bytes :=
  let merchants := (policy.merchantIdHashes.mergeSort (· ≤ ·)).map Hash.bytes
  let mccs := (policy.mccs.mergeSort (· ≤ ·)).flatMap (leBytes 2)
  [Hash.bytes policy.binding,
   leBytes 4 policy.policyVersion,
   leBytes 8 policy.budgetCents,
   leBytes 8 policy.maxPurchaseCents,
   leBytes 2 policy.maxPurchasesPerPeriod,
   Hash.bytes (hashv merchants),
   Hash.bytes (hashv [mccs]),
   timeBytes policy.expiresAt ++ [boolByte policy.recurringAllowed] ++ leBytes 2 policy.feeBps,
   leBytes 4 period.periodIndex ++ timeBytes period.periodStart ++ timeBytes period.periodEnd,
   leBytes 8 period.capturedCents,
   leBytes 8 period.reservedCents,
   leBytes 8 period.refundedCents,
   leBytes 2 period.purchasesCount,
   leBytes 8 policy.statementOutstandingCents,
   [boolByte policy.frozen, policy.recoveryState.code],
   Hash.bytes policy.ledgerHead ++ leBytes 8 policy.ledgerSeq]

/-- One level up: neighbours are hashed together. -/
def pairUp : List Hash → List Hash
  | left :: right :: rest => nodeHash left right :: pairUp rest
  | _ => []

/-- Sixteen leaves make four levels. -/
def merkleRoot (leaves : List Hash) : Hash := (pairUp (pairUp (pairUp (pairUp leaves)))).headD 0

def commitmentRoot (policy : CardPolicy) (period : CardPeriod) (masterSalt : Hash) : Hash :=
  merkleRoot ((leafValues policy period).mapIdx fun i v => leafHash i (leafSalt masterSalt i) v)

/-- Schedules the base-layer action that writes only the root. -/
def checkpoint (ctx : Ctx) (authorizer : Pubkey) (masterSalt : Hash) (seq : Nat) (s : State) :
    Except Err State := do
  signerContext ctx authorizer s
  requireAuthorizer s.policy authorizer
  let expectedSeq ← add s.policy.commitSeq 1
  ensure (seq = expectedSeq) (.policy .staleCommitment)
  ensure (masterSalt ≠ 0) (.policy .invalidEventId)
  cpi ctx
  return { s with
    policy := { s.policy with commitSeq := seq }
    scheduled := s.scheduled ++
      [⟨commitmentRoot s.policy s.period masterSalt, seq, s.policy.policyVersion,
        s.period.periodIndex⟩] }

/-- Only the delegation program can sign for the card's escrow, and it runs what
the card scheduled, in any order and more than once. -/
def writeCommitment (ctx : Ctx) (action : CommitmentAction) (s : State) : Except Err State := do
  ensure (action ∈ s.scheduled) (.policy .unauthorized)
  ensure (s.commitment.seq < action.seq) (.policy .staleCommitment)
  return { s with
    commitment := ⟨action.seq, action.root, action.policyVersion, action.periodIndex, ctx.slot⟩ }

/-! ## Wipe and close -/

/-- The state without one ephemeral account. -/
def State.drop (s : State) : Ephemeral → State
  | .reservation h => { s with reservations := s.reservations.erase h }
  | .intent i => { s with intents := s.intents.erase i }
  | .authGuard => { s with guard := none }

/-- Closes the listed pairs of an ephemeral account and its permission and counts
them. A closed account passed again is no account of this card any more. -/
def closePairs (ctx : Ctx) : List AccountRef → State → Nat → Except Err (State × Nat)
  | target :: permission :: rest, s, closed => do
    let e ← ephemeralIdentity s target
    ensure (permission = .permissionOf e) (.policy .invalidAccount)
    cpi ctx
    closePairs ctx rest (s.drop e) (min (closed + 1) 65535)
  | _, s, closed => .ok (s, closed)

def wipeCard (ctx : Ctx) (owner : Pubkey) (remaining : List AccountRef) (s : State) :
    Except Err State := do
  ownerContext ctx owner s
  ensure (s.policy.frozen = true) (.policy .cardFrozen)
  ensure (s.period.reservedCents = 0) (.policy .openReservations)
  ensure (s.policy.statementOutstandingCents = 0) (.policy .outstandingBalance)
  ensure (remaining.length % 2 = 0) (.policy .invalidAccount)
  let (s, closed) ← closePairs ctx remaining s 0
  ensure (s.policy.ephemeralCount ≤ closed) (.policy .ephemeralAccountsOpen)
  cpi ctx
  return { s with
    policy := zeroedPolicy s.policy.binding s.policy.owner
    period := zeroedPeriod
    delegated := false }

def closeCard (ctx : Ctx) (owner : Pubkey) (s : State) : Except Err State := do
  requireSigner ctx owner
  ensure (s.binding.owner = owner) (.policy .unauthorized)
  requireLive s
  -- on the base layer the program owns the accounts again only after the wipe
  ensure (s.delegated = false) .account
  ensure (s.policy = zeroedPolicy s.policy.binding s.policy.owner ∧ s.period = zeroedPeriod)
    (.policy .notWiped)
  return { s with binding := { s.binding with status := .closed } }

/-! ## Moves -/

section Moves

variable {ctx : Ctx} {k : Pubkey} {s s' : State}

theorem checkpoint_credit {m : Hash} {n : Nat} (h : checkpoint ctx k m n s = .ok s') :
    s'.credit = s.credit := by
  simp only [checkpoint, bind_eq_ok, exists_unit, pure_eq_ok] at h
  obtain ⟨-, -, _, -, -, -, -, rfl⟩ := h
  rfl

theorem writeCommitment_credit {a : CommitmentAction} (h : writeCommitment ctx a s = .ok s') :
    s'.credit = s.credit := by
  simp only [writeCommitment, bind_eq_ok, exists_unit, pure_eq_ok] at h
  obtain ⟨-, -, rfl⟩ := h
  rfl

theorem closeCard_credit (h : closeCard ctx k s = .ok s') : s'.credit = s.credit := by
  simp only [closeCard, bind_eq_ok, exists_unit, pure_eq_ok] at h
  obtain ⟨-, -, -, -, -, rfl⟩ := h
  rfl

/-- Closing accounts only removes reservations. -/
theorem closePairs_ok {accounts : List AccountRef} {n n' : Nat}
    (h : closePairs ctx accounts s n = .ok (s', n')) :
    s'.policy = s.policy ∧ ∀ hash r, s'.reservations.lookup hash = some r →
      s.reservations.lookup hash = some r := by
  induction accounts, s, n using closePairs.induct with
  | case1 target permission rest s n ih =>
    simp only [closePairs, bind_eq_ok, exists_unit] at h
    obtain ⟨e, -, -, -, h⟩ := h
    obtain ⟨hp, hres⟩ := ih e h
    refine ⟨hp.trans (by cases e <;> rfl), fun hash r hr => ?_⟩
    have hlook := hres hash r hr
    cases e with
    | reservation x =>
      change (s.reservations.erase x).lookup hash = some r at hlook
      by_cases hx : hash = x
      · subst hx
        simp at hlook
      · rwa [AList.lookup_erase_ne hx] at hlook
    | intent x => exact hlook
    | authGuard => exact hlook
  | case2 accounts s n hshort =>
    rw [closePairs.eq_2 _ _ _ _ hshort] at h
    cases h
    exact ⟨rfl, fun _ _ hr => hr⟩

theorem wipeCard_move {accounts : List AccountRef} (h : wipeCard ctx k accounts s = .ok s') :
    Move ctx.signers s.credit .wipe s'.credit := by
  simp only [wipeCard, bind_eq_ok, exists_unit, ensure_eq_ok, pure_eq_ok] at h
  obtain ⟨-, -, hres, hout, -, ⟨s₁, n⟩, hclose, -, -, rfl⟩ := h
  exact .wipe hres hout rfl rfl ⟨Nat.zero_le _, Nat.zero_le _⟩ rfl rfl rfl rfl
    (closePairs_ok hclose).2

end Moves

end ChainPay.Card
