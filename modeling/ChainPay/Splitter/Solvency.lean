import Mathlib.Tactic.NormNum
import ChainPay.Splitter.Program

/-!
The splitter stays solvent and equal. Each ledger keeps three identities (`Solvent`): a
side's owed and paid balances add up to what each side was allocated, the vault holds its
reserve and all it owes, and what it holds and has paid is its reserve and all it received.
-/

namespace ChainPay.Splitter
open ChainPay.Lib ChainPay.Card

/-! ## Ledgers -/

structure Solvent (l : Ledger) (balance reserve received : Nat) : Prop where
  equal : ∀ side, l.owed.get side + l.paid.get side = l.allocatedEach
  covered : reserve + l.owed.a + l.owed.b ≤ balance
  total : balance + l.paid.a + l.paid.b = reserve + received

variable {l l' : Ledger} {balance reserve received : Nat} {side : Side}

theorem solvent_default (h : reserve ≤ balance) :
    Solvent .default balance reserve (balance - reserve) where
  equal := by
    intro side
    cases side with
    | a => rfl
    | b => rfl
  covered := h
  total := by
    simp only [Ledger.default]
    omega

/-- What an allocation that succeeds does. -/
theorem allocate_ok (h : allocate l balance reserve = .ok l') :
    reserve + l.owed.a + l.owed.b ≤ balance ∧
      l' = { l with
        owed := ⟨l.owed.a + (balance - (reserve + l.owed.a + l.owed.b)) / 2,
          l.owed.b + (balance - (reserve + l.owed.a + l.owed.b)) / 2⟩
        allocatedEach := l.allocatedEach + (balance - (reserve + l.owed.a + l.owed.b)) / 2 } := by
  unfold allocate at h
  simp only [bind_eq_ok, okOr_eq_ok, checkedAdd_eq_some, checkedSub_eq_some] at h
  obtain ⟨first, ⟨-, rfl⟩, committed, ⟨-, rfl⟩, unallocated, ⟨hle, rfl⟩, h⟩ := h
  refine ⟨hle, ?_⟩
  split at h
  · rename_i hzero
    cases h
    rw [hzero]
    rfl
  · simp only [bind_eq_ok, okOr_eq_ok, checkedAdd_eq_some] at h
    obtain ⟨a, ⟨-, rfl⟩, b, ⟨-, rfl⟩, each, ⟨-, rfl⟩, h⟩ := h
    cases h
    rfl

theorem Solvent.allocate (hs : Solvent l balance reserve received)
    (h : allocate l balance reserve = .ok l') :
    Solvent l' balance reserve received ∧ balance - (reserve + l'.owed.a + l'.owed.b) ≤ 1 := by
  obtain ⟨hle, rfl⟩ := allocate_ok h
  refine ⟨⟨?_, ?_, hs.total⟩, ?_⟩
  · intro side
    have he := hs.equal side
    cases side with
    | a =>
      simp only [Pair.get] at he ⊢
      omega
    | b =>
      simp only [Pair.get] at he ⊢
      omega
  · simp only
    omega
  · simp only
    omega

theorem takeOwed_ok {amount : Nat} (h : takeOwed l side = .ok (l', amount)) :
    amount = l.owed.get side ∧
      l' = { l with
        owed := l.owed.set 0 side
        paid := l.paid.set (l.paid.get side + l.owed.get side) side } := by
  unfold takeOwed at h
  simp only [bind_eq_ok, okOr_eq_ok, checkedAdd_eq_some] at h
  obtain ⟨paid, ⟨-, rfl⟩, h⟩ := h
  cases h
  exact ⟨rfl, rfl⟩

/-- Paying out what one side is owed. -/
theorem Solvent.take {amount less : Nat} (hs : Solvent l balance reserve received)
    (h : takeOwed l side = .ok (l', amount)) (hless : less + amount = balance) :
    Solvent l' less reserve received := by
  obtain ⟨rfl, rfl⟩ := takeOwed_ok h
  have hcov := hs.covered
  have htot := hs.total
  refine ⟨fun i => ?_, ?_, ?_⟩
  · have hi := hs.equal i
    cases side <;> cases i <;> simp only [Pair.get, Pair.set] at hi ⊢ <;> omega
  · cases side <;> simp only [Pair.get, Pair.set] at hless ⊢ <;> omega
  · cases side <;> simp only [Pair.get, Pair.set] at hless ⊢ <;> omega

theorem Solvent.receive (hs : Solvent l balance reserve received) (amount : Nat) :
    Solvent l (balance + amount) reserve (received + amount) where
  equal := hs.equal
  covered := Nat.le_trans hs.covered (Nat.le_add_right _ _)
  total := by
    have htot := hs.total
    omega

/-! ## The vault -/

variable {c : Config} {s s' : Chain} {v : Vault}

structure Sound (c : Config) (s : Chain) (v : Vault) : Prop where
  sol : Solvent v.sol (s.lamports c.vault) c.rent (s.received .sol)
  usdc : ∃ account, s.tokens c.vaultUsdc = some account ∧
    Solvent v.usdc account.amount 0 (s.received .usdc)
  distinct : v.recipients.a ≠ v.recipients.b
  apart : ∀ side, v.recipients.get side ≠ c.vault ∧ v.recipients.get side ≠ c.vaultUsdc

/-- What an instruction pays, and what an allocation leaves over. -/
def Proper (c : Config) (s : Chain) (i : Instruction) (s' : Chain) : Prop :=
  match i with
  | .allocateSol => ∃ v', s'.vault = some v' ∧ s'.lamports = s.lamports ∧ s'.tokens = s.tokens ∧
      s'.lamports c.vault - (c.rent + v'.sol.owed.a + v'.sol.owed.b) ≤ 1
  | .allocateUsdc => ∃ v' account, s'.vault = some v' ∧ s'.lamports = s.lamports ∧
      s'.tokens = s.tokens ∧ s'.tokens c.vaultUsdc = some account ∧
      account.amount - (v'.usdc.owed.a + v'.usdc.owed.b) ≤ 1
  | .paySol side recipient => ∃ v, s.vault = some v ∧ recipient = v.recipients.get side ∧
      s'.lamports c.vault + v.sol.owed.get side = s.lamports c.vault ∧
      s'.lamports recipient = s.lamports recipient + v.sol.owed.get side ∧
      (∀ k, k ≠ c.vault → k ≠ recipient → s'.lamports k = s.lamports k) ∧ s'.tokens = s.tokens
  | .payUsdc side destination => ∃ v account target, s.vault = some v ∧
      s.tokens c.vaultUsdc = some account ∧ s.tokens destination = some target ∧
      target.owner = v.recipients.get side ∧ target.mint = c.usdcMint ∧
      v.usdc.owed.get side ≤ account.amount ∧
      s'.tokens c.vaultUsdc =
        some { account with amount := account.amount - v.usdc.owed.get side } ∧
      s'.tokens destination = some { target with amount := target.amount + v.usdc.owed.get side } ∧
      (∀ k, k ≠ c.vaultUsdc → k ≠ destination → s'.tokens k = s.tokens k) ∧
      s'.lamports = s.lamports
  | .rotateRecipient _ _ _ _ => s'.lamports = s.lamports ∧ s'.tokens = s.tokens
  | _ => True

/-- A vault that exists is sound. -/
def Kept (c : Config) (s : Chain) : Prop := ∀ v, s.vault = some v → Sound c s v

theorem vaultUsdc_ok {account : TokenAccount} (h : vaultUsdc c s = .ok account) :
    s.tokens c.vaultUsdc = some account := by
  unfold vaultUsdc at h
  simp only [bind_eq_ok, okOr_eq_ok, exists_unit] at h
  obtain ⟨account', hs, -, h⟩ := h
  cases h
  exact hs

theorem kept_initializeVault {a b : Pubkey} {funded : Bool}
    (h : initializeVault c s a b funded = .ok s') : Kept c s' := by
  unfold initializeVault at h
  simp only [bind_eq_ok, ensure_eq_ok, exists_unit] at h
  obtain ⟨-, -, -, hne, ha, hb, account, -, -, h⟩ := h
  cases h
  rintro v ⟨⟩
  refine ⟨?_, ⟨account, ?_, ?_⟩, hne, ?_⟩
  · simp only [Function.update_self]
    exact solvent_default (Nat.le_max_left _ _)
  · simp only [Function.update_self]
  · exact solvent_default (Nat.zero_le _)
  · intro side
    cases side with
    | a => exact ha
    | b => exact hb

theorem step_allocateSol (hk : Kept c s) (h : allocateSol c s = .ok s') :
    Kept c s' ∧ Proper c s .allocateSol s' := by
  unfold allocateSol at h
  simp only [bind_eq_ok, okOr_eq_ok] at h
  obtain ⟨v, hv, l, hl, h⟩ := h
  cases h
  have hs := hk v hv
  obtain ⟨hsol, hrest⟩ := hs.sol.allocate hl
  refine ⟨?_, { v with sol := l }, rfl, rfl, rfl, hrest⟩
  rintro v' ⟨⟩
  exact ⟨hsol, hs.usdc, hs.distinct, hs.apart⟩

theorem step_allocateUsdc (hk : Kept c s) (h : allocateUsdc c s = .ok s') :
    Kept c s' ∧ Proper c s .allocateUsdc s' := by
  unfold allocateUsdc at h
  simp only [bind_eq_ok, okOr_eq_ok] at h
  obtain ⟨v, hv, account, hacc, l, hl, h⟩ := h
  cases h
  have hs := hk v hv
  have htok := vaultUsdc_ok hacc
  obtain ⟨account', htok', husdc⟩ := hs.usdc
  cases htok.symm.trans htok'
  obtain ⟨husdc', hrest⟩ := husdc.allocate hl
  rw [Nat.zero_add] at hrest
  refine ⟨?_, { v with usdc := l }, account, rfl, rfl, rfl, htok, hrest⟩
  rintro v' ⟨⟩
  exact ⟨hs.sol, ⟨account, htok, husdc'⟩, hs.distinct, hs.apart⟩

theorem step_paySol {recipient : Pubkey} (hk : Kept c s)
    (h : paySol c s side recipient = .ok s') :
    Kept c s' ∧ Proper c s (.paySol side recipient) s' := by
  unfold paySol at h
  simp only [bind_eq_ok, okOr_eq_ok, ensure_eq_ok, exists_unit, Prod.exists] at h
  obtain ⟨v, hv, rfl, l, amount, hl, h⟩ := h
  have hs := hk v hv
  have hne : v.recipients.get side ≠ c.vault := (hs.apart side).1
  have hamount : amount = v.sol.owed.get side := (takeOwed_ok hl).1
  split at h
  · rename_i hzero
    cases h
    rw [hzero] at hamount
    refine ⟨?_, v, hv, rfl, ?_, ?_, fun _ _ _ => rfl, rfl⟩
    · rintro v' ⟨⟩
      exact ⟨hs.sol.take hl (by rw [hzero]; rfl), hs.usdc, hs.distinct, hs.apart⟩
    · rw [← hamount]
      rfl
    · rw [← hamount]
      rfl
  · simp only [bind_eq_ok, okOr_eq_ok, checkedSub_eq_some, checkedAdd_eq_some, exists_unit] at h
    obtain ⟨less, ⟨hle, rfl⟩, more, ⟨-, rfl⟩, -, h⟩ := h
    cases h
    have hvault : Function.update (Function.update s.lamports c.vault (s.lamports c.vault - amount))
        (v.recipients.get side)
        (Function.update s.lamports c.vault (s.lamports c.vault - amount)
          (v.recipients.get side) + amount) c.vault = s.lamports c.vault - amount := by
      rw [Function.update_of_ne hne.symm, Function.update_self]
    have hless : s.lamports c.vault - amount + amount = s.lamports c.vault := Nat.sub_add_cancel hle
    refine ⟨?_, v, hv, rfl, ?_, ?_, ?_, rfl⟩
    · rintro v' ⟨⟩
      refine ⟨?_, hs.usdc, hs.distinct, hs.apart⟩
      simp only [hvault]
      exact hs.sol.take hl hless
    · simp only [hvault]
      rw [← hamount]
      exact hless
    · simp only [Function.update_self]
      rw [Function.update_of_ne hne, hamount]
    · intro k hkv hkr
      simp only
      rw [Function.update_of_ne hkr, Function.update_of_ne hkv]

theorem step_payUsdc {destination : Pubkey} (hk : Kept c s)
    (h : payUsdc c s side destination = .ok s') :
    Kept c s' ∧ Proper c s (.payUsdc side destination) s' := by
  unfold payUsdc at h
  simp only [bind_eq_ok, okOr_eq_ok, ensure_eq_ok, exists_unit, Prod.exists] at h
  obtain ⟨v, hv, account, hacc, target, htarget, hmint, howner, hne, l, amount, hl, h⟩ := h
  have hs := hk v hv
  have htok := vaultUsdc_ok hacc
  obtain ⟨account', htok', husdc⟩ := hs.usdc
  cases htok.symm.trans htok'
  have hamount : amount = v.usdc.owed.get side := (takeOwed_ok hl).1
  split at h
  · rename_i hzero
    cases h
    rw [hzero] at hamount
    refine ⟨?_, v, account, target, hv, htok, htarget, howner, hmint, ?_, ?_, ?_,
      fun _ _ _ => rfl, rfl⟩
    · rintro v' ⟨⟩
      exact ⟨hs.sol, ⟨account, htok, husdc.take hl (by rw [hzero]; rfl)⟩, hs.distinct, hs.apart⟩
    · rw [← hamount]
      exact Nat.zero_le _
    · rw [← hamount]
      exact htok
    · rw [← hamount]
      exact htarget
  · simp only [bind_eq_ok, okOr_eq_ok, checkedSub_eq_some, checkedAdd_eq_some, exists_unit,
      ensure_eq_ok] at h
    obtain ⟨-, less, ⟨hle, rfl⟩, more, ⟨-, rfl⟩, -, h⟩ := h
    cases h
    have hvault : Function.update (Function.update s.tokens c.vaultUsdc
        (some { account with amount := account.amount - amount })) destination
        (some { target with amount := target.amount + amount }) c.vaultUsdc =
        some { account with amount := account.amount - amount } := by
      rw [Function.update_of_ne hne.symm, Function.update_self]
    refine ⟨?_, v, account, target, hv, htok, htarget, howner, hmint, ?_, ?_, ?_, ?_, rfl⟩
    · rintro v' ⟨⟩
      refine ⟨hs.sol, ⟨_, hvault, ?_⟩, hs.distinct, hs.apart⟩
      exact husdc.take hl (Nat.sub_add_cancel hle)
    · rw [← hamount]
      exact hle
    · rw [← hamount]
      exact hvault
    · rw [← hamount]
      exact Function.update_self ..
    · intro k hkv hkd
      simp only
      rw [Function.update_of_ne hkd, Function.update_of_ne hkv]

theorem step_rotateRecipient {new current incoming : Pubkey} (hk : Kept c s)
    (h : rotateRecipient c s side new current incoming = .ok s') :
    Kept c s' ∧ Proper c s (.rotateRecipient side new current incoming) s' := by
  unfold rotateRecipient at h
  simp only [bind_eq_ok, okOr_eq_ok, ensure_eq_ok, exists_unit] at h
  obtain ⟨v, hv, -, -, -, hapart, hother, -, h⟩ := h
  cases h
  have hs := hk v hv
  refine ⟨?_, rfl, rfl⟩
  rintro v' ⟨⟩
  refine ⟨hs.sol, hs.usdc, ?_, ?_⟩
  · cases side with
    | a => exact hother
    | b => exact Ne.symm hother
  · intro i
    have hi := hs.apart i
    cases side <;> cases i <;> first | exact hapart | exact hi

theorem kept_receive {asset : Asset} {amount : Nat} (hk : Kept c s)
    (h : receive c s asset amount = .ok s') : Kept c s' := by
  unfold receive at h
  cases asset with
  | sol =>
    simp only [bind_eq_ok, okOr_eq_ok, checkedAdd_eq_some] at h
    obtain ⟨more, ⟨-, rfl⟩, h⟩ := h
    cases h
    intro v hv
    have hs := hk v hv
    refine ⟨?_, ?_, hs.distinct, hs.apart⟩
    · simp only [Function.update_self]
      exact hs.sol.receive amount
    · obtain ⟨account, htok, husdc⟩ := hs.usdc
      refine ⟨account, htok, ?_⟩
      simp only [ne_eq, reduceCtorEq, not_false_eq_true, Function.update_of_ne]
      exact husdc
  | usdc =>
    simp only [bind_eq_ok, okOr_eq_ok, checkedAdd_eq_some, ensure_eq_ok, exists_unit] at h
    obtain ⟨-, more, ⟨-, rfl⟩, h⟩ := h
    cases h
    intro v hv
    have hs := hk v hv
    obtain ⟨account, htok, husdc⟩ := hs.usdc
    refine ⟨?_, ⟨_, Function.update_self .., ?_⟩, hs.distinct, hs.apart⟩
    · simp only [ne_eq, reduceCtorEq, not_false_eq_true, Function.update_of_ne]
      exact hs.sol
    · simp only [Function.update_self, htok, Option.getD_some]
      exact husdc.receive amount

theorem kept_freeze {frozen : Bool} (hk : Kept c s) (h : freeze c s frozen = .ok s') :
    Kept c s' := by
  unfold freeze at h
  simp only [bind_eq_ok, okOr_eq_ok] at h
  obtain ⟨account, htok, h⟩ := h
  cases h
  intro v hv
  have hs := hk v hv
  obtain ⟨account', htok', husdc⟩ := hs.usdc
  cases htok.symm.trans htok'
  exact ⟨hs.sol, ⟨_, Function.update_self .., husdc⟩, hs.distinct, hs.apart⟩

/-- Every instruction keeps the vault sound and pays only as it may. -/
theorem step_sound {i : Instruction} (h : step c s i = .ok s') (hk : Kept c s) :
    Kept c s' ∧ Proper c s i s' := by
  cases i with
  | initializeVault a b funded => exact ⟨kept_initializeVault h, trivial⟩
  | allocateSol => exact step_allocateSol hk h
  | allocateUsdc => exact step_allocateUsdc hk h
  | paySol side recipient => exact step_paySol hk h
  | payUsdc side destination => exact step_payUsdc hk h
  | rotateRecipient side new current incoming => exact step_rotateRecipient hk h
  | receive asset amount => exact ⟨kept_receive hk h, trivial⟩
  | freeze frozen => exact ⟨kept_freeze hk h, trivial⟩
  | elsewhere lamports tokens =>
    cases h
    refine ⟨?_, trivial⟩
    intro v hv
    have hs := hk v hv
    obtain ⟨account, htok, husdc⟩ := hs.usdc
    refine ⟨?_, ⟨account, ?_, husdc⟩, hs.distinct, hs.apart⟩
    · simp only [Function.update_self]
      exact hs.sol
    · simp only [Function.update_self]
      exact htok

/-- **The splitter is always solvent and equal**, whatever is run in whatever order. -/
theorem splitter_solvent (c : Config) {s : Chain} (h : s.vault = none)
    (is : List Instruction) :
    (∀ v, (Runs.after (step c) s is).vault = some v → Sound c (Runs.after (step c) s is) v) ∧
      Runs.Along (step c) (Proper c) s is ∧
      ∀ i e, step c (Runs.after (step c) s is) i = .error e →
        (Runs.after (step c) s (is ++ [i])).vault = (Runs.after (step c) s is).vault := by
  have hk : Kept c s := by
    intro v hv
    cases h.symm.trans hv
  have hstep : ∀ t i t', step c t i = .ok t' → Kept c t → Kept c t' ∧ Proper c t i t' :=
    fun _ _ _ hs hi => step_sound hs hi
  refine ⟨?_, Runs.along_of_inv hstep is hk, ?_⟩
  · exact Runs.after_inv (I := Kept c) (fun t i t' _ hs hi => (hstep t i t' hs hi).1)
      (Runs.along_true s is) hk
  · intro i e he
    rw [Runs.after_append, Runs.after_cons, Runs.next_error he, Runs.after_nil]

/-- A vault for the wallets 11 and 22, with its accounts at 90 and 91. -/
def pinned : Config := ⟨11, 22, 33, 90, 91, 1955760⟩

/-- SOL and USDC arrive, both are split, one side is paid and the other moves to a new wallet. -/
def supported : List Instruction :=
  [.receive .sol 2000000, .initializeVault 11 22 true, .receive .usdc 11, .receive .sol 7,
    .allocateSol, .allocateUsdc, .paySol .a 11, .rotateRecipient .b 44 22 44, .paySol .b 22]

theorem splitter_solvent_supported :
    (Runs.after (step pinned) ⟨none, fun _ => 0, fun _ => none, fun _ => 0⟩ supported).vault =
        some ⟨⟨11, 44⟩, ⟨⟨0, 22123⟩, 22123, ⟨22123, 0⟩⟩, ⟨⟨5, 5⟩, 5, ⟨0, 0⟩⟩⟩ ∧
      Sound pinned (Runs.after (step pinned) ⟨none, fun _ => 0, fun _ => none, fun _ => 0⟩ supported)
        ⟨⟨11, 44⟩, ⟨⟨0, 22123⟩, 22123, ⟨22123, 0⟩⟩, ⟨⟨5, 5⟩, 5, ⟨0, 0⟩⟩⟩ :=
  ⟨by decide, (splitter_solvent pinned rfl supported).1 _ (by decide)⟩

end ChainPay.Splitter
