import ChainPay.Card.Repayment

/-!
The lamports of `repay_statement`. The repay agent pays the rent of a receipt whose
size ChainPay chooses, so the owner tops it up for the larger receipt and gets back
what the receipt did not use. `repayLamports` follows the instruction's transfers;
`repayLamports_settled` says where every lamport ends, in each regime of the agent's
starting balance.
-/

namespace ChainPay.Card
open ChainPay.Lib

/-- `u64` addition and subtraction that stop at the ends of the range. -/
def saturatingAdd (a b : Nat) : Nat := min (a + b) (2 ^ 64 - 1)

def saturatingSub (a b : Nat) : Nat := a - b

/-- The accounts whose lamports one repayment moves. -/
structure Lamports where
  owner : Nat
  agent : Nat
  receipt : Nat
  deriving DecidableEq, Repr

def Lamports.total (b : Lamports) : Nat := b.owner + b.agent + b.receipt

/-- The balances are `u64`. -/
structure Lamports.Fits (b : Lamports) : Prop where
  owner : b.owner < 2 ^ 64
  agent : b.agent < 2 ^ 64
  receipt : b.receipt < 2 ^ 64

/-- A transfer of the System program: the balances of the payer and of the payee after it. -/
def transferLamports (amount payer payee : Nat) : Except Err (Nat × Nat) := do
  let payer ← okOr (checkedSub payer amount) .cpi
  let payee ← okOr (checkedAdd 64 payee amount) .cpi
  return (payer, payee)

theorem transferLamports_ok {amount payer payee : Nat} (hpay : amount ≤ payer)
    (hfit : payee + amount < 2 ^ 64) :
    transferLamports amount payer payee = .ok (payer - amount, payee + amount) := by
  have hsub : checkedSub payer amount = some (payer - amount) := if_pos hpay
  have hadd : checkedAdd 64 payee amount = some (payee + amount) := if_pos hfit
  rw [transferLamports, hsub, hadd]
  rfl

/-- No transfer is made of nothing. -/
def transferPositive (amount payer payee : Nat) : Except Err (Nat × Nat) :=
  if 0 < amount then transferLamports amount payer payee else .ok (payer, payee)

theorem transferPositive_ok {amount payer payee : Nat} (hpay : amount ≤ payer)
    (hfit : payee + amount < 2 ^ 64) :
    transferPositive amount payer payee = .ok (payer - amount, payee + amount) := by
  unfold transferPositive
  split
  · exact transferLamports_ok hpay hfit
  · have hzero : amount = 0 := by omega
    subst hzero
    rfl

/-- The agent is funded for the larger receipt, and kept rent-exempt if it held anything. -/
def repayTopUp (minimumBalance : Nat → Nat) (held : Nat) : Nat :=
  if held = 0 then minimumBalance CHAINPAY_RECEIPT_SPACE
  else
    saturatingSub
      (saturatingAdd (minimumBalance CHAINPAY_RECEIPT_SPACE) (minimumBalance 0)) held

/-- What the payer of an `init` account pays: its rent, less what the account already holds. -/
def initCharge (rent held : Nat) : Nat :=
  if held = 0 then rent else saturatingSub (max rent 1) held

theorem initCharge_le (rent held : Nat) : initCharge rent held ≤ rent := by
  unfold initCharge saturatingSub
  split <;> omega

/-- What a repayment moved, and the balances it left. -/
structure Repaid where
  topUp : Nat
  refund : Nat
  balances : Lamports
  deriving DecidableEq, Repr

/-- The transfers of `repay_statement`, around an `execute_payment` that creates a receipt
with rent `receiptRent`. -/
def repayLamports (minimumBalance : Nat → Nat) (receiptRent : Nat) (b : Lamports) :
    Except Err Repaid := do
  let held := b.agent
  let topUp := repayTopUp minimumBalance held
  let (owner, agent) ← transferPositive topUp b.owner b.agent
  let funded := saturatingAdd held topUp
  -- `execute_payment` takes nothing from the agent but the receipt's rent
  let (agent, receipt) ← transferLamports (initCharge receiptRent b.receipt) agent b.receipt
  let spent := saturatingSub funded agent
  let refund := saturatingSub topUp spent
  let (agent, owner) ← transferPositive refund agent owner
  return ⟨topUp, refund, ⟨owner, agent, receipt⟩⟩

section Settled

variable {minimumBalance : Nat → Nat} {b : Lamports}

/-- The top-up does not overflow the agent, and covers the larger receipt on top of what keeps
the agent as it was. -/
theorem repayTopUp_covers
    (hrent : minimumBalance CHAINPAY_RECEIPT_SPACE + minimumBalance 0 < 2 ^ 64)
    (hfit : b.agent < 2 ^ 64) :
    b.agent + repayTopUp minimumBalance b.agent < 2 ^ 64 ∧
    (b.agent = 0 → repayTopUp minimumBalance b.agent = minimumBalance CHAINPAY_RECEIPT_SPACE) ∧
    (b.agent ≠ 0 → minimumBalance CHAINPAY_RECEIPT_SPACE + minimumBalance 0 ≤
      b.agent + repayTopUp minimumBalance b.agent) := by
  unfold repayTopUp saturatingSub saturatingAdd
  split
  · rename_i hzero
    exact ⟨by omega, fun _ => rfl, fun hne => absurd hzero hne⟩
  · rename_i hne
    exact ⟨by omega, fun hzero => absurd hzero hne, fun _ => by omega⟩

/-- The three transfers succeed; the refund is what the receipt left of the top-up. -/
theorem repayLamports_eq {r : Nat}
    (hrent : minimumBalance CHAINPAY_RECEIPT_SPACE + minimumBalance 0 < 2 ^ 64)
    (hr : r ≤ minimumBalance CHAINPAY_RECEIPT_SPACE) (hfit : b.Fits)
    (howner : repayTopUp minimumBalance b.agent ≤ b.owner) :
    repayLamports minimumBalance r b = .ok {
      topUp := repayTopUp minimumBalance b.agent
      refund := repayTopUp minimumBalance b.agent - initCharge r b.receipt
      balances := {
        owner := b.owner - repayTopUp minimumBalance b.agent +
          (repayTopUp minimumBalance b.agent - initCharge r b.receipt)
        agent := b.agent + repayTopUp minimumBalance b.agent - initCharge r b.receipt -
          (repayTopUp minimumBalance b.agent - initCharge r b.receipt)
        receipt := b.receipt + initCharge r b.receipt } } := by
  obtain ⟨hagent, hempty, hheld⟩ := repayTopUp_covers hrent hfit.agent
  have hcharge := initCharge_le r b.receipt
  have hreceipt : b.receipt + initCharge r b.receipt < 2 ^ 64 := by
    have hheld := hfit.receipt
    unfold initCharge saturatingSub
    split <;> omega
  have hcovered : initCharge r b.receipt ≤ b.agent + repayTopUp minimumBalance b.agent := by
    by_cases hzero : b.agent = 0
    · have := hempty hzero
      omega
    · have := hheld hzero
      omega
  have hfunded : saturatingAdd b.agent (repayTopUp minimumBalance b.agent) =
      b.agent + repayTopUp minimumBalance b.agent := by
    unfold saturatingAdd
    omega
  have hspent : saturatingSub (b.agent + repayTopUp minimumBalance b.agent)
      (b.agent + repayTopUp minimumBalance b.agent - initCharge r b.receipt) =
      initCharge r b.receipt := by
    unfold saturatingSub
    omega
  have hback := hfit.owner
  simp only [repayLamports]
  rw [transferPositive_ok howner hagent, ok_bind]
  dsimp only
  rw [transferLamports_ok hcovered hreceipt, ok_bind]
  dsimp only
  rw [hfunded, hspent]
  unfold saturatingSub
  rw [transferPositive_ok (by omega) (by omega), ok_bind]
  rfl

/-- **Repay agent lamports.** However much the agent holds and whichever receipt ChainPay
creates, no lamport is lost, an empty agent stays empty and another one rent-exempt, the refund
is within the top-up, and the owner pays at most the receipt's rent: all of it when the agent
was empty or the top-up covers it. -/
theorem repayLamports_settled (minimumBalance : Nat → Nat) (r : Nat) (b : Lamports)
    (hrent : minimumBalance CHAINPAY_RECEIPT_SPACE + minimumBalance 0 < 2 ^ 64)
    (hr : r ≤ minimumBalance CHAINPAY_RECEIPT_SPACE) (hfit : b.Fits)
    (hagent : b.agent = 0 ∨ minimumBalance 0 ≤ b.agent)
    (howner : repayTopUp minimumBalance b.agent ≤ b.owner) :
    ∃ paid, repayLamports minimumBalance r b = .ok paid ∧
      paid.topUp = repayTopUp minimumBalance b.agent ∧
      paid.balances.total = b.total ∧
      paid.balances.receipt = b.receipt + initCharge r b.receipt ∧
      (b.agent = 0 → paid.balances.agent = 0) ∧
      (b.agent ≠ 0 → minimumBalance 0 ≤ paid.balances.agent) ∧
      paid.refund ≤ paid.topUp ∧
      paid.balances.owner ≤ b.owner ∧
      b.owner ≤ paid.balances.owner + initCharge r b.receipt ∧
      initCharge r b.receipt ≤ r ∧ (b.receipt = 0 → initCharge r b.receipt = r) ∧
      (b.agent = 0 ∨ r ≤ paid.topUp →
        b.owner = paid.balances.owner + initCharge r b.receipt) := by
  obtain ⟨-, hempty, hheld⟩ := repayTopUp_covers hrent hfit.agent
  have hcharge := initCharge_le r b.receipt
  refine ⟨_, repayLamports_eq hrent hr hfit howner, rfl, ?_, rfl, ?_, ?_, ?_, ?_, ?_, hcharge,
    fun hzero => if_pos hzero, ?_⟩
  · unfold Lamports.total
    dsimp only
    by_cases hzero : b.agent = 0
    · have := hempty hzero
      omega
    · have := hheld hzero
      omega
  · intro hzero
    have := hempty hzero
    dsimp only
    omega
  · intro hne
    have := hheld hne
    dsimp only
    omega
  · exact Nat.sub_le _ _
  · dsimp only
    omega
  · dsimp only
    omega
  · dsimp only
    rintro (hzero | hle)
    · have := hempty hzero
      omega
    · omega

/-- The first repayment of a card against the smaller receipt, at 6960 lamports a byte. -/
theorem repayLamports_settled_first :
    ∃ paid, repayLamports (fun space => (128 + space) * 6960)
        ((128 + CHAINPAY_RECEIPT_SPACE_V1) * 6960) ⟨10000000, 0, 0⟩ = .ok paid ∧
      paid.balances.agent = 0 ∧
      10000000 = paid.balances.owner + (128 + CHAINPAY_RECEIPT_SPACE_V1) * 6960 := by
  obtain ⟨paid, hpaid, -, -, -, hempty, -, -, -, -, -, hcharge, hexact⟩ :=
    repayLamports_settled (fun space => (128 + space) * 6960)
      ((128 + CHAINPAY_RECEIPT_SPACE_V1) * 6960) ⟨10000000, 0, 0⟩ (by decide) (by decide)
      ⟨by decide, by decide, by decide⟩ (.inl rfl) (by decide)
  have howner := hexact (.inl rfl)
  rw [hcharge rfl] at howner
  exact ⟨paid, hpaid, hempty rfl, howner⟩

end Settled

end ChainPay.Card
