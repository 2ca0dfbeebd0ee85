import ChainPay.Card.Credit

/-!
Setting a card up: `init_card`, `delegate_card`, the permission member list,
and `set_policy`, which writes the terms and opens the first period.
-/

namespace ChainPay.Card
open ChainPay.Lib

/-! ## Fresh accounts -/

def CARD_BINDING_SEED : Bytes := ascii "card_binding"

def zeroedPolicy (binding owner : Pubkey) : CardPolicy where
  binding := binding
  owner := owner
  authorizer := 0
  policyVersion := 0
  budgetCents := 0
  maxPurchaseCents := 0
  maxPurchasesPerPeriod := 0
  periodSeconds := 0
  currency := 0
  merchantIdHashes := []
  mccs := []
  expiresAt := 0
  recurringAllowed := false
  feeBps := 0
  frozen := false
  freezeReason := 0
  recoveryState := .normal
  statementOutstandingCents := 0
  exceptionsOpen := 0
  memberCount := 0
  members := Vector.replicate _ 0
  memberFlags := Vector.replicate _ 0
  ledgerHead := 0
  ledgerSeq := 0
  commitSeq := 0
  reconDigest := 0
  repayments := Ring.init _ 0
  events := Ring.init _ 0
  ephemeralCount := 0

def zeroedPeriod : CardPeriod := ⟨0, 0, 0, 0, 0, 0, 0, 0⟩

/-- Everything but the identity of the card starts at zero. -/
def initCard [Runtime] (ctx : Ctx) (owner : Pubkey) (cardId : Hash) (issuer : UInt8)
    (issuerCardRefHash : Hash) (prefundLamports : Nat) : Except Err State := do
  requireSigner ctx owner
  ensure (cardId ≠ 0) (.policy .invalidPolicy)
  ensure (issuer = ISSUER_LITHIC_SANDBOX ∨ issuer = ISSUER_CARD_SIM) (.policy .invalidPolicy)
  ensure (Runtime.minPrefund ≤ prefundLamports) (.policy .prefundTooLow)
  cpi ctx
  let binding :=
    (Runtime.findProgramAddress [CARD_BINDING_SEED, Hash.bytes owner, Hash.bytes cardId] ID).1
  return {
    binding := ⟨owner, cardId, issuer, issuerCardRefHash, .active, ctx.now⟩
    policy := zeroedPolicy binding owner
    period := zeroedPeriod
    commitment := ⟨0, 0, 0, 0, 0⟩
    reservations := ∅
    intents := ∅
    guard := none
    delegated := false
    scheduled := [] }

/-- The policy and period accounts exist until `close_card`. -/
def requireLive (s : State) : Except Err Unit := ensure (s.binding.status = .active) .account

@[simp] theorem requireLive_eq_ok {s : State} {u : Unit} :
    requireLive s = .ok u ↔ s.binding.status = .active := by
  simp [requireLive]

/-- The account checks of an owner-signed instruction. -/
def ownerContext (ctx : Ctx) (owner : Pubkey) (s : State) : Except Err Unit := do
  requireSigner ctx owner
  requireLive s
  requireOwner s.policy owner

/-- The account checks of an instruction any key may sign. -/
def signerContext (ctx : Ctx) (signer : Pubkey) (s : State) : Except Err Unit := do
  requireSigner ctx signer
  requireLive s

@[simp] theorem ownerContext_eq_ok {ctx : Ctx} {o : Pubkey} {s : State} {u : Unit} :
    ownerContext ctx o s = .ok u ↔
      o ∈ ctx.signers ∧ s.binding.status = .active ∧ s.policy.owner = o := by
  simp [ownerContext]

@[simp] theorem signerContext_eq_ok {ctx : Ctx} {k : Pubkey} {s : State} {u : Unit} :
    signerContext ctx k s = .ok u ↔ k ∈ ctx.signers ∧ s.binding.status = .active := by
  simp [signerContext]

def delegateCard (ctx : Ctx) (owner validator : Pubkey) (s : State) : Except Err State := do
  requireSigner ctx owner
  ensure (s.binding.owner = owner) (.policy .unauthorized)
  ensure (validator ∈ TEE_VALIDATOR_ALLOWLIST) (.policy .validatorNotAllowed)
  ensure (s.binding.status = .active) (.policy .invalidAccount)
  -- already delegated accounts are left alone
  if s.delegated then return s
  cpi ctx
  return { s with delegated := true }

/-! ## Permissions -/

/-- Applies the member list to the policy and period permissions. -/
def writeCardPermissions (ctx : Ctx) (policy : CardPolicy) : Except Err Unit := do
  privateMembers policy
  cpi ctx

/-- The policy after the first `init_permission`: owner and authorizer. -/
def firstMembers (policy : CardPolicy) (owner authorizer : Pubkey) : CardPolicy :=
  { policy with
    members := setSecond (policy.members.set 0 owner) authorizer
    memberFlags := setSecond (policy.memberFlags.set 0 OWNER_FLAGS) AUTHORIZER_FLAGS
    memberCount := 2 }

def initPermission (ctx : Ctx) (owner authorizer : Pubkey) (s : State) : Except Err State := do
  ownerContext ctx owner s
  ensure (authorizer ≠ 0 ∧ authorizer ≠ owner) (.policy .invalidPolicy)
  if s.policy.memberCount = 0 then
    let policy := firstMembers s.policy owner authorizer
    writeCardPermissions ctx policy
    let policy ← appendLedger policy { kind := .permissionChange, eventIdHash := authorizer }
      s.period.periodIndex ctx.now
    return { s with policy := policy }
  else
    ensure (secondOf s.policy.members = authorizer) (.policy .invalidPolicy)
    writeCardPermissions ctx s.policy
    return s

inductive PermissionOp where
  | addReader (pubkey : Pubkey)
  | removeReader (pubkey : Pubkey)
  deriving DecidableEq, Repr

/-- Slots `index + 1 .. count` move down by one and slot `count - 1` is cleared. -/
def shiftDown {α : Type} (v : Vector α MAX_MEMBERS) (blank : α) (index count : Nat) :
    Vector α MAX_MEMBERS :=
  Vector.ofFn fun i =>
    if index ≤ i.val ∧ i.val + 1 < count then v[i.val + 1]?.getD blank
    else if i.val + 1 = count then blank
    else v[i]

/-- The member list after one edit, with the edited key and its ledger code. -/
def editMembers (policy : CardPolicy) : PermissionOp → Except Err (CardPolicy × Pubkey × UInt8)
  | .addReader pubkey => do
    ensure (pubkey ≠ 0) (.policy .invalidPolicy)
    ensure (pubkey ∉ policy.memberList) (.policy .invalidPolicy)
    ensure (policy.memberCount < MAX_MEMBERS) (.policy .memberLimit)
    return ({ policy with
      members := policy.members.setIfInBounds policy.memberCount pubkey
      memberFlags := policy.memberFlags.setIfInBounds policy.memberCount READER_FLAGS
      memberCount := policy.memberCount + 1 }, pubkey, 1)
  | .removeReader pubkey => do
    let index ← okOr (policy.memberList.findIdx? (· = pubkey)) (.policy .memberNotFound)
    -- slot 0 is the owner and slot 1 the authorizer
    ensure (2 ≤ index) (.policy .unauthorized)
    return ({ policy with
      members := shiftDown policy.members 0 index policy.memberCount
      memberFlags := shiftDown policy.memberFlags 0 index policy.memberCount
      memberCount := policy.memberCount - 1 }, pubkey, 2)

/-- The seeds identity of an ephemeral account that belongs to this card. -/
def ephemeralIdentity (s : State) : AccountRef → Except Err Ephemeral
  | .ephemeral e => do
    ensure (s.live e = true) (.policy .invalidAccount)
    return e
  | _ => .error (.policy .invalidAccount)

/-- Re-applies the members to one ephemeral account's permission. -/
def syncOne (ctx : Ctx) (s : State) (policy : CardPolicy) (target permission : AccountRef) :
    Except Err Unit := do
  let e ← ephemeralIdentity s target
  ensure (permission = .permissionOf e) (.policy .invalidAccount)
  privateMembers policy
  cpi ctx

def syncPairs (ctx : Ctx) (s : State) (policy : CardPolicy) : List AccountRef → Except Err Unit
  | target :: permission :: rest => do
    syncOne ctx s policy target permission
    syncPairs ctx s policy rest
  | _ => .ok ()

def updatePermission (ctx : Ctx) (owner : Pubkey) (op : PermissionOp)
    (remaining : List AccountRef) (s : State) : Except Err State := do
  ownerContext ctx owner s
  ensure (2 ≤ s.policy.memberCount) (.policy .permissionNotInitialized)
  let (policy, pubkey, stateAfter) ← editMembers s.policy op
  writeCardPermissions ctx policy
  ensure (remaining.length % 2 = 0) (.policy .invalidAccount)
  syncPairs ctx s policy remaining
  let policy ← appendLedger policy
    { kind := .permissionChange, eventIdHash := pubkey, stateAfter := stateAfter }
    s.period.periodIndex ctx.now
  return { s with policy := policy }

def syncPermission (ctx : Ctx) (signer : Pubkey) (target permission : AccountRef) (s : State) :
    Except Err State := do
  signerContext ctx signer s
  let _ ← requireOwnerOrAuthorizer s.policy signer
  ensure (2 ≤ s.policy.memberCount) (.policy .permissionNotInitialized)
  syncOne ctx s s.policy target permission
  return s

/-! ## Policy -/

/-- A change that only the current authorizer may wave through. -/
def creditTermsChange (policy : CardPolicy) (args : PolicyArgs) : Prop :=
  args.authorizer ≠ policy.authorizer ∨ args.feeBps ≠ policy.feeBps ∨
    policy.budgetCents < args.budgetCents ∨ args.periodSeconds < policy.periodSeconds

instance (policy : CardPolicy) (args : PolicyArgs) : Decidable (creditTermsChange policy args) :=
  inferInstanceAs (Decidable (_ ∨ _))

/-- The first remaining account is the current authorizer, as a signer. -/
def cosigned (ctx : Ctx) (policy : CardPolicy) (first : Option Pubkey) : Prop :=
  first = some policy.authorizer ∧ policy.authorizer ∈ ctx.signers

instance (ctx : Ctx) (policy : CardPolicy) (first : Option Pubkey) :
    Decidable (cosigned ctx policy first) := inferInstanceAs (Decidable (_ ∧ _))

/-- What a change of a policy that is already set must meet. -/
def requireTermsChange (ctx : Ctx) (s : State) (args : PolicyArgs) (first : Option Pubkey) :
    Except Err Unit :=
  if s.policy.isSet then do
    ensure (s.policy.authorizer = args.authorizer ∨ s.policy.frozen = true)
      (.policy .authorizerChangeRequiresFreeze)
    ensure (creditTermsChange s.policy args → cosigned ctx s.policy first)
      (.policy .coSignerRequired)
    if args.budgetCents < s.policy.budgetCents then
      let committed ← add s.period.capturedCents s.period.reservedCents
      ensure (committed ≤ args.budgetCents) (.policy .budgetBelowCommitted)
  else .ok ()

/-- The member list follows the authorizer. -/
def rotateAuthorizer (policy : CardPolicy) (authorizer : Pubkey) : Except Err CardPolicy :=
  if secondOf policy.members = authorizer then .ok policy
  else do
    ensure (authorizer ∉ policy.memberList.drop 2) (.policy .invalidPolicy)
    return { policy with members := setSecond policy.members authorizer }

/-- The first `set_policy` opens period 1. -/
def openFirstPeriod (period : CardPeriod) (now : Int) (seconds : Nat) : Except Err CardPeriod :=
  if period.periodIndex = 0 then do
    let stop ← later now seconds
    return { period with periodIndex := 1, periodStart := now, periodEnd := stop }
  else .ok period

def setPolicy (ctx : Ctx) (owner : Pubkey) (args : PolicyArgs) (first : Option Pubkey)
    (s : State) : Except Err State := do
  ownerContext ctx owner s
  ensure (2 ≤ s.policy.memberCount) (.policy .permissionNotInitialized)
  ensure (s.policy.recoveryState = .normal) (.policy .recoveryFrozen)
  validatePolicyArgs args owner ctx.now
  requireTermsChange ctx s args first
  -- the freeze check is made a second time next to the member rotation
  ensure (s.policy.isSet ∧ s.policy.authorizer ≠ args.authorizer → s.policy.frozen = true)
    (.policy .authorizerChangeRequiresFreeze)
  let policy ← rotateAuthorizer s.policy args.authorizer
  let policy := applyPolicyArgs policy args
  let version ← increment 32 policy.policyVersion .mathOverflow
  let policy := { policy with policyVersion := version }
  let period ← openFirstPeriod s.period ctx.now args.periodSeconds
  (if secondOf s.policy.members ≠ args.authorizer then writeCardPermissions ctx policy else .ok ())
  let policy ← appendLedger policy
    { kind := .policySet, amountCents := policy.budgetCents
      stateAfter := if policy.frozen then 1 else 0 }
    period.periodIndex ctx.now
  return { s with policy := policy, period := period }

/-! ## What these instructions move -/

section Moves

variable {ctx : Ctx} {owner : Pubkey} {s s' : State}

theorem delegateCard_credit {v : Pubkey} (h : delegateCard ctx owner v s = .ok s') :
    s'.credit = s.credit := by
  simp only [delegateCard, bind_eq_ok, exists_unit, requireSigner_eq_ok, ensure_eq_ok] at h
  obtain ⟨-, -, -, -, h⟩ := h
  split at h
  · simp only [pure_eq_ok] at h
    rw [h]
  · simp only [bind_eq_ok, exists_unit, cpi_eq_ok, pure_eq_ok] at h
    obtain ⟨-, rfl⟩ := h
    rfl

theorem initPermission_move {a : Pubkey} (h : initPermission ctx owner a s = .ok s') :
    Move ctx.signers s.credit .members s'.credit := by
  simp only [initPermission, bind_eq_ok, exists_unit, ownerContext_eq_ok, ensure_eq_ok] at h
  obtain ⟨-, -, h⟩ := h
  split at h
  · simp only [bind_eq_ok, exists_unit, pure_eq_ok] at h
    obtain ⟨-, p, hp, rfl⟩ := h
    rename_i hzero
    refine Move.to (.members (n := 2) (k := a) (fun _ => rfl) fun hne => absurd hzero hne) ?_
    simp only [State.credit, appendLedger_terms hp]
    simp [firstMembers, CardPolicy.terms]
  · simp only [bind_eq_ok, exists_unit, ensure_eq_ok, pure_eq_ok] at h
    obtain ⟨-, -, rfl⟩ := h
    rename_i hne
    exact .members (fun h0 => absurd h0 hne) (fun _ => ⟨rfl, fun h2 => h2⟩)

/-- An edit writes the member list only. -/
theorem editMembers_policy {p p' : CardPolicy} {op : PermissionOp} {k : Pubkey} {b : UInt8}
    (h : editMembers p op = .ok (p', k, b)) :
    ∃ members flags count,
      p' = { p with members := members, memberFlags := flags, memberCount := count } := by
  cases op with
  | addReader pubkey =>
    simp only [editMembers, bind_eq_ok, exists_unit, ensure_eq_ok, pure_eq_ok,
      Prod.mk.injEq] at h
    obtain ⟨-, -, -, rfl, -⟩ := h
    exact ⟨_, _, _, rfl⟩
  | removeReader pubkey =>
    simp only [editMembers, bind_eq_ok, exists_unit, okOr_eq_ok, ensure_eq_ok, pure_eq_ok,
      Prod.mk.injEq] at h
    obtain ⟨index, -, -, rfl, -⟩ := h
    exact ⟨_, _, _, rfl⟩

theorem rotateAuthorizer_policy {p p' : CardPolicy} {k : Pubkey}
    (h : rotateAuthorizer p k = .ok p') : ∃ members, p' = { p with members := members } := by
  unfold rotateAuthorizer at h
  split at h
  · cases h
    exact ⟨p.members, rfl⟩
  · simp only [bind_eq_ok, exists_unit, ensure_eq_ok, pure_eq_ok] at h
    obtain ⟨-, rfl⟩ := h
    exact ⟨_, rfl⟩

/-- An edit keeps the first two members in their slots. -/
theorem editMembers_ok {p p' : CardPolicy} {op : PermissionOp} {k : Pubkey} {b : UInt8}
    (hp : 2 ≤ p.memberCount) (h : editMembers p op = .ok (p', k, b)) :
    2 ≤ p'.memberCount ∧ p'.terms = { p.terms with memberCount := p'.memberCount } := by
  cases op with
  | addReader pubkey =>
    simp only [editMembers, bind_eq_ok, exists_unit, ensure_eq_ok, pure_eq_ok,
      Prod.mk.injEq] at h
    obtain ⟨-, -, -, rfl, -⟩ := h
    refine ⟨Nat.le_succ_of_le hp, ?_⟩
    have hne : p.memberCount ≠ 1 := by omega
    simp [CardPolicy.terms, hne]
  | removeReader pubkey =>
    simp only [editMembers, bind_eq_ok, exists_unit, okOr_eq_ok, ensure_eq_ok, pure_eq_ok,
      Prod.mk.injEq] at h
    obtain ⟨index, hfind, hindex, rfl, -⟩ := h
    have hlt : index < p.memberList.length := (List.findIdx?_eq_some_iff_getElem.mp hfind).1
    have hcount : p.memberList.length ≤ p.memberCount := by simp [CardPolicy.memberList]
    have h1 : (shiftDown p.members 0 index p.memberCount)[1] = p.members[1] := by
      have h2 : ¬ (index ≤ 1 ∧ 1 + 1 < p.memberCount) := by omega
      have h3 : ¬ (1 + 1 = p.memberCount) := by omega
      simp [shiftDown, h2, h3]
    refine ⟨by change 2 ≤ p.memberCount - 1; omega, ?_⟩
    simp only [CardPolicy.terms, h1]

theorem updatePermission_move {op : PermissionOp} {rest : List AccountRef}
    (h : updatePermission ctx owner op rest s = .ok s') :
    Move ctx.signers s.credit .members s'.credit := by
  simp only [updatePermission, bind_eq_ok, exists_unit, ownerContext_eq_ok, ensure_eq_ok,
    pure_eq_ok] at h
  obtain ⟨-, hcount, ⟨p, k, b⟩, hedit, -, -, -, p', hp', rfl⟩ := h
  obtain ⟨hcount', hterms⟩ := editMembers_ok hcount hedit
  have hne : s.credit.terms.memberCount ≠ 0 := by
    change s.policy.memberCount ≠ 0
    omega
  refine Move.to (.members (fun h0 => absurd h0 hne) fun _ => ⟨rfl, fun _ => hcount'⟩) ?_
  simp only [State.credit, appendLedger_terms hp', hterms]

theorem requireTermsChange_ok {args : PolicyArgs} {first : Option Pubkey} {u : Unit}
    (h : requireTermsChange ctx s args first = .ok u) (hset : s.policy.isSet) :
    (creditTermsChange s.policy args → s.policy.authorizer ∈ ctx.signers) ∧
      (s.policy.budgetCents ≤ args.budgetCents ∨
        s.period.capturedCents + s.period.reservedCents ≤ args.budgetCents) := by
  simp only [requireTermsChange, if_pos hset, bind_eq_ok, exists_unit, ensure_eq_ok] at h
  obtain ⟨-, hco, h⟩ := h
  refine ⟨fun hc => (hco hc).2, ?_⟩
  split at h
  · simp only [bind_eq_ok, add_eq_ok, ensure_eq_ok] at h
    obtain ⟨_, ⟨-, rfl⟩, hle⟩ := h
    exact .inr hle
  · rename_i hlow
    exact .inl (Nat.le_of_not_lt hlow)

/-- The authorizer ends up in slot 1 and nothing else of the terms moves. -/
theorem rotateAuthorizer_ok {p p' : CardPolicy} {k : Pubkey} (h : rotateAuthorizer p k = .ok p') :
    p'.terms = { p.terms with second := k } := by
  unfold rotateAuthorizer at h
  split at h
  · rename_i hk
    cases h
    simp [CardPolicy.terms, hk]
  · simp only [bind_eq_ok, exists_unit, ensure_eq_ok, pure_eq_ok] at h
    obtain ⟨-, rfl⟩ := h
    simp [CardPolicy.terms]

theorem openFirstPeriod_ok {q q' : CardPeriod} {now : Int} {d : Nat}
    (h : openFirstPeriod q now d = .ok q') :
    (q.periodIndex ≠ 0 → q' = q) ∧ q'.periodIndex ≠ 0 ∧
      q'.capturedCents = q.capturedCents ∧ q'.reservedCents = q.reservedCents := by
  unfold openFirstPeriod at h
  split at h
  · rename_i hzero
    simp only [bind_eq_ok, pure_eq_ok] at h
    obtain ⟨_, -, rfl⟩ := h
    exact ⟨fun hne => absurd hzero hne, Nat.one_ne_zero, rfl, rfl⟩
  · rename_i hne
    cases h
    exact ⟨fun _ => rfl, hne, rfl, rfl⟩

theorem setPolicy_move {args : PolicyArgs} {first : Option Pubkey}
    (h : setPolicy ctx owner args first s = .ok s') :
    Move ctx.signers s.credit .terms s'.credit := by
  simp only [setPolicy, bind_eq_ok, exists_unit, ownerContext_eq_ok, ensure_eq_ok,
    increment_eq_ok, pure_eq_ok] at h
  obtain ⟨⟨-, -, hown⟩, hcount, -, hargs, hchange, -, p, hp, v, ⟨-, rfl⟩, q, hq, -,
    p', hp', rfl⟩ := h
  obtain ⟨hmax, hfee, hset, hother⟩ := validatePolicyArgs_ok hargs
  obtain ⟨hsame, hindex, hcap, hres⟩ := openFirstPeriod_ok hq
  have hterms := rotateAuthorizer_ok hp
  have hpol : p'.terms = { s.policy.terms with
      authorizer := args.authorizer
      budgetCents := args.budgetCents
      periodSeconds := args.periodSeconds
      feeBps := args.feeBps
      second := args.authorizer } := by
    rw [appendLedger_terms hp']
    simp only [CardPolicy.terms, applyPolicyArgs, Terms.mk.injEq] at hterms ⊢
    obtain ⟨h1, h2, h3, h4, h5, h6, h7, h8, h9⟩ := hterms
    exact ⟨h1, trivial, trivial, trivial, trivial, h6, h7, h8, h9⟩
  refine Move.to (.terms (t := p'.terms) (q := q) hcount ?_ ?_ ?_ ?_ ?_ ?_ ?_ ?_ ?_ ?_
    hsame hindex hcap hres) rfl
  · rw [hpol]
    rfl
  · rw [hpol]
  · rw [hpol]
    exact hset
  · rw [hpol]
    rfl
  · rw [hpol]
    change args.authorizer ≠ s.policy.owner
    rw [hown]
    exact hother
  · rw [hpol]
    exact ⟨hmax, hfee⟩
  · rw [hpol]
    rfl
  · rw [hpol]
    rfl
  · intro hs hno
    have hnc : ¬ creditTermsChange s.policy args := fun hc =>
      hno ((requireTermsChange_ok hchange hs).1 hc)
    simp only [creditTermsChange, not_or, not_not, not_lt] at hnc
    rw [hpol]
    exact hnc
  · intro hs
    rw [hpol]
    exact (requireTermsChange_ok hchange hs).2

theorem syncPermission_credit {k : Pubkey} {t q : AccountRef}
    (h : syncPermission ctx k t q s = .ok s') : s'.credit = s.credit := by
  simp only [syncPermission, bind_eq_ok, exists_unit, signerContext_eq_ok, ensure_eq_ok,
    pure_eq_ok] at h
  obtain ⟨-, -, -, -, -, rfl⟩ := h
  rfl

end Moves

end ChainPay.Card
