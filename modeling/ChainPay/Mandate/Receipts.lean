import ChainPay.Mandate.Program
import ChainPay.Card.Exec

/-!
What the receipts say about a mandate. `exec_effect` lists what an instruction can do to
the accounts; from it, `Accounted` holds in every run: the mandate's counters are the sum
and the number of its receipts, every receipt fits the policy it was checked against, and
the payments follow each other at the distance that policy asks for.
-/

namespace ChainPay.Mandate
open ChainPay.Lib ChainPay.Card

/-! ## What an instruction does -/

/-- A configuration or an asset. -/
def Account.isPlain : Account → Bool
  | .config _ | .asset _ => true
  | .mandate _ | .receipt _ => false

/-- The fields no owner can edit, and the limits that hold after an edit. -/
structure Edited (x x' : PaymentMandate) : Prop where
  spent : x'.amountSpent = x.amountSpent
  count : x'.paymentCount = x.paymentCount
  last : x'.lastPaymentSlot = x.lastPaymentSlot
  within : x.amountSpent ≤ x.totalLimit → x'.amountSpent ≤ x'.totalLimit
  counted : (x.maxPaymentCount = 0 ∨ x.paymentCount ≤ x.maxPaymentCount) →
    x'.maxPaymentCount = 0 ∨ x'.paymentCount ≤ x'.maxPaymentCount
  revoked : x.revoked = true → x'.revoked = true

/-- What a payment was checked for. -/
structure Payable (x : PaymentMandate) (params : PaymentParams) (slot : Nat) : Prop where
  live : x.revoked = false
  unexpired : slot < x.expiresAtSlot
  amount : params.amount ≤ x.maxPerPayment
  within : x.amountSpent + params.amount ≤ x.totalLimit
  counted : x.maxPaymentCount = 0 ∨ x.paymentCount + 1 ≤ x.maxPaymentCount
  cooled : 0 < x.lastPaymentSlot → x.lastPaymentSlot + x.cooldownSlots ≤ slot

theorem validatePayment_ok {x : PaymentMandate} {params : PaymentParams} {slot : Nat} {u : Unit}
    (h : validatePayment x params slot = .ok u) : Payable x params slot := by
  simp only [validatePayment, bind_eq_ok, exists_unit, ensure_eq_ok, okOr_eq_ok,
    checkedAdd_eq_some] at h
  obtain ⟨hlive, -, hexp, -, hamount, -, -, -, _, ⟨-, rfl⟩, hwithin, _, ⟨-, rfl⟩, hcount, hcool⟩ := h
  refine ⟨hlive, hexp, hamount, hwithin, hcount, fun hpos => ?_⟩
  unfold cooledDown at hcool
  rw [if_pos hpos] at hcool
  simp only [bind_eq_ok, okOr_eq_ok, checkedAdd_eq_some, ensure_eq_ok] at hcool
  obtain ⟨_, ⟨-, rfl⟩, hle⟩ := hcool
  exact hle

theorem mandateContext_ok {ctx : Ctx} {s : State} {owner m : Pubkey}
    {x : PaymentMandate}
    (h : mandateContext ctx owner m s = .ok x) : mandateAt s m = some x := by
  simp only [mandateContext, bind_eq_ok, exists_unit, okOr_eq_ok, pure_eq_ok] at h
  obtain ⟨_, hx, -, -, rfl⟩ := h
  exact hx

section Effect

variable [Runtime]

/-- Everything one instruction can do to the accounts. -/
inductive Effect (slot : Nat) (s : State) : State → Prop where
  | plain {address : Pubkey} {b : Account} (hold : ∀ a, s.lookup address = some a → a.isPlain = true)
      (hnew : b.isPlain = true) : Effect slot s (s.insert address b)
  | created {owner : Pubkey} {params : MandateParams} {m : Pubkey} (hfree : s.lookup m = none) :
      Effect slot s (s.insert m (.mandate (newMandate owner params)))
  | edited {m : Pubkey} {x x' : PaymentMandate} (hx : mandateAt s m = some x)
      (hedit : Edited x x') : Effect slot s (s.insert m (.mandate x'))
  | paid {m agent recipient : Pubkey} {x : PaymentMandate} {params : PaymentParams}
      (hx : mandateAt s m = some x) (hfree : s.lookup (receiptAddress m params.invoiceHash) = none)
      (hok : Payable x params slot) :
      Effect slot s ((s.insert m (.mandate (x.pay params.amount slot))).insert
        (receiptAddress m params.invoiceHash)
        (.receipt ((x.pay params.amount slot).receipt m agent recipient params slot)))

variable {s s' : State} {ctx : Ctx}

theorem configContext_ok {authority : Pubkey} {c : ProtocolConfig}
    (h : configContext ctx authority s = .ok c) : s.lookup configAddress = some (.config c) := by
  unfold configContext at h
  split at h
  · rename_i c' hc
    simp only [bind_eq_ok, exists_unit, pure_eq_ok] at h
    obtain ⟨-, -, rfl⟩ := h
    exact hc
  · cases h

theorem payContext_ok {agent m : Pubkey} {params : PaymentParams} {accounts : PayAccounts}
    {x : PaymentMandate} (h : payContext ctx agent m params accounts s = .ok x) :
    mandateAt s m = some x := by
  simp only [payContext, bind_eq_ok, exists_unit, okOr_eq_ok, pure_eq_ok] at h
  obtain ⟨_, hx, -, -, -, -, -, -, -, -, -, -, -, -, -, rfl⟩ := h
  exact hx

/-- **Step.** -/
theorem exec_effect {call : Call} (h : exec s call = .ok s') : Effect call.ctx.slot s s' := by
  obtain ⟨ctx, instr⟩ := call
  cases instr with
  | initializeConfig a mints =>
    simp only [exec, initializeConfig, init, bind_eq_ok, exists_unit, ensure_eq_ok, pure_eq_ok] at h
    obtain ⟨-, -, hfree, rfl⟩ := h
    exact .plain (fun b hb => by rw [hfree] at hb; cases hb) rfl
  | updateConfig a mints =>
    simp only [exec, updateConfig, bind_eq_ok, exists_unit, pure_eq_ok] at h
    obtain ⟨c, hc, -, rfl⟩ := h
    refine .plain (fun b hb => ?_) rfl
    rw [configContext_ok hc] at hb
    cases hb
    rfl
  | registerAsset a mint p =>
    simp only [exec, registerAsset, init, bind_eq_ok, exists_unit, ensure_eq_ok, pure_eq_ok] at h
    obtain ⟨c, -, -, hfree, rfl⟩ := h
    exact .plain (fun b hb => by rw [hfree] at hb; cases hb) rfl
  | setAssetStatus a address enabled =>
    simp only [exec, setAssetStatus, bind_eq_ok] at h
    obtain ⟨c, -, h⟩ := h
    split at h
    · rename_i asset hasset
      simp only [bind_eq_ok, exists_unit, pure_eq_ok] at h
      obtain ⟨-, -, rfl⟩ := h
      refine .plain (fun b hb => ?_) rfl
      rw [hasset] at hb
      cases hb
      rfl
    · cases h
  | createMandate o params accounts =>
    simp only [exec, createMandate, init, bind_eq_ok, exists_unit, ensure_eq_ok, pure_eq_ok] at h
    obtain ⟨-, -, hfree, rfl⟩ := h
    exact .created hfree
  | updateMandate o m params =>
    simp only [exec, updateMandate, bind_eq_ok, exists_unit, ensure_eq_ok, pure_eq_ok] at h
    obtain ⟨x, hx, hlive, -, -, ⟨-, hlimit⟩, -, hcount, rfl⟩ := h
    refine .edited (mandateContext_ok hx) ⟨rfl, rfl, rfl, fun _ => hlimit, fun _ => hcount, ?_⟩
    intro hr
    rw [hlive] at hr
    cases hr
  | pauseMandate o m =>
    simp only [exec, pauseMandate, bind_eq_ok, exists_unit, pure_eq_ok] at h
    obtain ⟨x, hx, -, rfl⟩ := h
    exact .edited (mandateContext_ok hx) ⟨rfl, rfl, rfl, id, id, id⟩
  | revokeMandate o m =>
    simp only [exec, revokeMandate, bind_eq_ok, pure_eq_ok] at h
    obtain ⟨x, hx, rfl⟩ := h
    exact .edited (mandateContext_ok hx) ⟨rfl, rfl, rfl, id, id, fun _ => rfl⟩
  | executePayment a m params accounts =>
    simp only [exec, executePayment, bind_eq_ok, exists_unit, ensure_eq_ok, pure_eq_ok] at h
    obtain ⟨x, hx, hfree, hok, -, rfl⟩ := h
    exact .paid (payContext_ok hx) hfree (validatePayment_ok hok)

end Effect

/-! ## Accounts -/

def Account.isReceipt : Account → Bool
  | .receipt _ => true
  | _ => false

theorem Account.isReceipt_of_isPlain {a : Account} (h : a.isPlain = true) : a.isReceipt = false := by
  cases a <;> first | rfl | cases h

/-- What an account adds to the sum and to the number of a mandate's receipts. -/
def amountOf (m : Pubkey) : Account → Nat
  | .receipt r => if r.mandate = m then r.amount else 0
  | _ => 0

def countOf (m : Pubkey) : Account → Nat
  | .receipt r => if r.mandate = m then 1 else 0
  | _ => 0

section Accounts

variable {s s' : State} {a m : Pubkey} {b : Account} {x : PaymentMandate} {r : PaymentReceipt}

theorem mandateAt_eq_some : mandateAt s m = some x ↔ s.lookup m = some (.mandate x) := by
  unfold mandateAt
  split
  · rename_i x' hx
    simp [hx]
  · rename_i hno
    refine ⟨nofun, fun h => absurd h (hno x)⟩

theorem receiptAt_eq_some : receiptAt s a = some r ↔ s.lookup a = some (.receipt r) := by
  unfold receiptAt
  split
  · rename_i r' hr
    simp [hr]
  · rename_i hno
    refine ⟨nofun, fun h => absurd h (hno r)⟩

theorem mandateAt_insert_self (s : State) (m : Pubkey) (x : PaymentMandate) :
    mandateAt (s.insert m (.mandate x)) m = some x :=
  mandateAt_eq_some.mpr (AList.lookup_insert _)

theorem mandateAt_insert_ne (h : m ≠ a) : mandateAt (s.insert a b) m = mandateAt s m := by
  unfold mandateAt
  rw [AList.lookup_insert_ne h]

theorem receiptAt_insert_ne {c : Pubkey} (h : c ≠ a) :
    receiptAt (s.insert a b) c = receiptAt s c := by
  unfold receiptAt
  rw [AList.lookup_insert_ne h]

/-- Writing one account changes a sum by what the two contents add to it. -/
theorem sumOf_write (f : Account → Nat) (hold : ∀ c, s.lookup a = some c → f c = 0) :
    sumOf f (s.insert a b) = sumOf f s + f b := by
  cases h : s.lookup a with
  | none => exact sumOf_insert_new f s a b h
  | some c =>
    have hsum := sumOf_insert f s a c b h
    rw [hold c h] at hsum
    exact hsum

/-- The receipts of `m` are the same in both states. -/
structure Frame (m : Pubkey) (s s' : State) : Prop where
  spent : sumOf (amountOf m) s' = sumOf (amountOf m) s
  count : sumOf (countOf m) s' = sumOf (countOf m) s
  receipts : ∀ a r, r.mandate = m → (receiptAt s' a = some r ↔ receiptAt s a = some r)

theorem Frame.trans {s₁ : State} (h : Frame m s s₁) (h' : Frame m s₁ s') : Frame m s s' where
  spent := h'.spent.trans h.spent
  count := h'.count.trans h.count
  receipts a r hr := (h'.receipts a r hr).trans (h.receipts a r hr)

theorem counts_of_other (h : ∀ r, b = .receipt r → r.mandate ≠ m) :
    amountOf m b = 0 ∧ countOf m b = 0 := by
  cases b with
  | receipt r => exact ⟨if_neg (h r rfl), if_neg (h r rfl)⟩
  | _ => exact ⟨rfl, rfl⟩

/-- Writing an account that neither was a receipt nor becomes one of `m`. -/
theorem Frame.write (hold : ∀ c, s.lookup a = some c → c.isReceipt = false)
    (hnew : ∀ r, b = .receipt r → r.mandate ≠ m) : Frame m s (s.insert a b) := by
  have hzero : ∀ c, s.lookup a = some c → amountOf m c = 0 ∧ countOf m c = 0 := by
    intro c hc
    refine counts_of_other fun r hr => ?_
    have hno := hold c hc
    rw [hr] at hno
    cases hno
  obtain ⟨hamount, hcount⟩ := counts_of_other hnew
  refine ⟨?_, ?_, fun c r hr => ?_⟩
  · rw [sumOf_write _ fun c hc => (hzero c hc).1, hamount, Nat.add_zero]
  · rw [sumOf_write _ fun c hc => (hzero c hc).2, hcount, Nat.add_zero]
  · by_cases hc : c = a
    · subst hc
      rw [receiptAt_eq_some, receiptAt_eq_some, AList.lookup_insert]
      constructor
      · intro hb
        exact absurd hr (hnew r (Option.some.inj hb))
      · intro hl
        cases hold _ hl
    · rw [receiptAt_insert_ne hc]

end Accounts

/-! ## The invariant -/

/-- The limits a receipt was checked against, and its place among the payments. -/
structure Sound (r : PaymentReceipt) : Prop where
  amount : r.amount ≤ r.policyMaxPerPayment
  within : r.policyAmountSpentAfter ≤ r.policyTotalLimit
  unexpired : r.executedAtSlot < r.policyExpiresAtSlot

section Invariant

variable [Runtime]

/-- The receipts account for the mandate `x` at `m`. Payments are numbered by the count
after them. -/
structure Accounted (s : State) (m : Pubkey) (x : PaymentMandate) : Prop where
  spent : x.amountSpent = sumOf (amountOf m) s
  count : x.paymentCount = sumOf (countOf m) s
  within : x.amountSpent ≤ x.totalLimit
  counted : x.maxPaymentCount = 0 ∨ x.paymentCount ≤ x.maxPaymentCount
  place : ∀ a r, receiptAt s a = some r → r.mandate = m → a = receiptAddress m r.invoiceHash
  sound : ∀ a r, receiptAt s a = some r → r.mandate = m → Sound r
  number : ∀ a r, receiptAt s a = some r → r.mandate = m →
    1 ≤ r.policyPaymentCountAfter ∧ r.policyPaymentCountAfter ≤ x.paymentCount
  distinct : ∀ a r a' r', receiptAt s a = some r → receiptAt s a' = some r' → r.mandate = m →
    r'.mandate = m → r.policyPaymentCountAfter = r'.policyPaymentCountAfter → a = a'
  spaced : ∀ a r, receiptAt s a = some r → r.mandate = m → r.policyPaymentCountAfter ≠ 1 →
    ∃ a' r', receiptAt s a' = some r' ∧ r'.mandate = m ∧
      r'.policyPaymentCountAfter + 1 = r.policyPaymentCountAfter ∧
      r'.executedAtSlot + r.policyCooldownSlots ≤ r.executedAtSlot
  last : x.paymentCount ≠ 0 → ∃ a r, receiptAt s a = some r ∧ r.mandate = m ∧
    r.policyPaymentCountAfter = x.paymentCount ∧ r.executedAtSlot = x.lastPaymentSlot
  started : x.paymentCount ≠ 0 → 0 < x.lastPaymentSlot

section Steps

variable {s s' : State} {m : Pubkey} {x x' : PaymentMandate}

/-- A new mandate without receipts. -/
theorem Accounted.new {owner : Pubkey} {params : MandateParams}
    (hno : ∀ a r, receiptAt s a = some r → r.mandate ≠ m) :
    Accounted s m (newMandate owner params) := by
  have hzero : ∀ f : Account → Nat, (∀ b, (∀ r, b = .receipt r → r.mandate ≠ m) → f b = 0) →
      sumOf f s = 0 := by
    intro f hf
    refine sumOf_eq_zero f s fun a b hb => hf b fun r hr => ?_
    rw [hr] at hb
    exact hno a r (receiptAt_eq_some.mpr hb)
  exact {
    spent := (hzero _ fun b hb => (counts_of_other hb).1).symm
    count := (hzero _ fun b hb => (counts_of_other hb).2).symm
    within := Nat.zero_le _
    counted := .inr (Nat.zero_le _)
    place := fun a r hr hm => absurd hm (hno a r hr)
    sound := fun a r hr hm => absurd hm (hno a r hr)
    number := fun a r hr hm => absurd hm (hno a r hr)
    distinct := fun a r _ _ hr _ hm => absurd hm (hno a r hr)
    spaced := fun a r hr hm => absurd hm (hno a r hr)
    last := fun h => absurd rfl h
    started := fun h => absurd rfl h }

/-- The same receipts account for a mandate that was only edited. -/
theorem Accounted.edit (h : Accounted s m x) (hf : Frame m s s') (he : Edited x x') :
    Accounted s' m x' where
  spent := by rw [he.spent, h.spent, hf.spent]
  count := by rw [he.count, h.count, hf.count]
  within := he.within h.within
  counted := he.counted h.counted
  place a r hr hm := h.place a r ((hf.receipts a r hm).mp hr) hm
  sound a r hr hm := h.sound a r ((hf.receipts a r hm).mp hr) hm
  number a r hr hm := by
    rw [he.count]
    exact h.number a r ((hf.receipts a r hm).mp hr) hm
  distinct a r a' r' hr hr' hm hm' :=
    h.distinct a r a' r' ((hf.receipts a r hm).mp hr) ((hf.receipts a' r' hm').mp hr') hm hm'
  spaced a r hr hm hne := by
    obtain ⟨a', r', hr', hm', hrest⟩ := h.spaced a r ((hf.receipts a r hm).mp hr) hm hne
    exact ⟨a', r', (hf.receipts a' r' hm').mpr hr', hm', hrest⟩
  last hne := by
    rw [he.count] at hne ⊢
    rw [he.last]
    obtain ⟨a, r, hr, hm, hrest⟩ := h.last hne
    exact ⟨a, r, (hf.receipts a r hm).mpr hr, hm, hrest⟩
  started hne := by
    rw [he.count] at hne
    rw [he.last]
    exact h.started hne

/-- A payment adds one receipt. -/
structure Added (m address : Pubkey) (r₁ : PaymentReceipt) (s s' : State) : Prop where
  spent : sumOf (amountOf m) s' = sumOf (amountOf m) s + r₁.amount
  count : sumOf (countOf m) s' = sumOf (countOf m) s + 1
  new : receiptAt s' address = some r₁
  kept : ∀ a r, receiptAt s a = some r → r.mandate = m → receiptAt s' a = some r
  cases : ∀ a r, receiptAt s' a = some r → r.mandate = m →
    a = address ∧ r = r₁ ∨ receiptAt s a = some r

omit [Runtime] in
theorem added_pay {address : Pubkey} {r₁ : PaymentReceipt} (hx : mandateAt s m = some x)
    (hfree : s.lookup address = none) (hm₁ : r₁.mandate = m) :
    Added m address r₁ s ((s.insert m (.mandate x')).insert address (.receipt r₁)) := by
  have hlook := mandateAt_eq_some.mp hx
  have hne : address ≠ m := by
    intro he
    rw [he, hlook] at hfree
    cases hfree
  have hfree' : (s.insert m (.mandate x')).lookup address = none := by
    rw [AList.lookup_insert_ne hne]
    exact hfree
  have hframe : Frame m s (s.insert m (.mandate x')) := by
    refine .write (fun c hc => ?_) nofun
    rw [hlook] at hc
    cases hc
    rfl
  have hamount : amountOf m (.receipt r₁) = r₁.amount := if_pos hm₁
  have hcount : countOf m (.receipt r₁) = 1 := if_pos hm₁
  refine ⟨?_, ?_, ?_, fun a r hr hm => ?_, fun a r hr hm => ?_⟩
  · rw [sumOf_insert_new _ _ _ _ hfree', hframe.spent, hamount]
  · rw [sumOf_insert_new _ _ _ _ hfree', hframe.count, hcount]
  · exact receiptAt_eq_some.mpr (AList.lookup_insert _)
  · have ha : a ≠ address := by
      intro he
      rw [receiptAt_eq_some, he, hfree] at hr
      cases hr
    rw [receiptAt_insert_ne ha]
    exact (hframe.receipts a r hm).mpr hr
  · by_cases ha : a = address
    · rw [receiptAt_eq_some, ha, AList.lookup_insert] at hr
      cases hr
      exact .inl ⟨ha, rfl⟩
    · rw [receiptAt_insert_ne ha] at hr
      exact .inr ((hframe.receipts a r hm).mp hr)

/-- A payment keeps the account. -/
theorem Accounted.paid {agent recipient : Pubkey} {params : PaymentParams} {slot : Nat}
    (h : Accounted s m x) (hpos : 0 < slot) (hok : Payable x params slot)
    (ha : Added m (receiptAddress m params.invoiceHash)
      ((x.pay params.amount slot).receipt m agent recipient params slot) s s') :
    Accounted s' m (x.pay params.amount slot) where
  spent := by
    rw [ha.spent, ← h.spent]
    rfl
  count := by
    rw [ha.count, ← h.count]
    rfl
  within := hok.within
  counted := hok.counted
  place a r hr hm := by
    rcases ha.cases a r hr hm with ⟨rfl, rfl⟩ | hr
    · rfl
    · exact h.place a r hr hm
  sound a r hr hm := by
    rcases ha.cases a r hr hm with ⟨rfl, rfl⟩ | hr
    · exact ⟨hok.amount, hok.within, hok.unexpired⟩
    · exact h.sound a r hr hm
  number a r hr hm := by
    change 1 ≤ _ ∧ _ ≤ x.paymentCount + 1
    rcases ha.cases a r hr hm with ⟨rfl, rfl⟩ | hr
    · exact ⟨Nat.le_add_left 1 _, Nat.le_refl _⟩
    · obtain ⟨hone, hle⟩ := h.number a r hr hm
      exact ⟨hone, Nat.le_succ_of_le hle⟩
  distinct a r a' r' hr hr' hm hm' he := by
    -- the new receipt has a number of its own
    have hnew : ((x.pay params.amount slot).receipt m agent recipient params
        slot).policyPaymentCountAfter = x.paymentCount + 1 := rfl
    rcases ha.cases a r hr hm with ⟨rfl, rfl⟩ | hr <;>
      rcases ha.cases a' r' hr' hm' with ⟨rfl, rfl⟩ | hr'
    · rfl
    · have hle := (h.number a' r' hr' hm').2
      omega
    · have hle := (h.number a r hr hm).2
      omega
    · exact h.distinct a r a' r' hr hr' hm hm' he
  spaced a r hr hm hne := by
    rcases ha.cases a r hr hm with ⟨rfl, rfl⟩ | hr
    · have hcount : x.paymentCount ≠ 0 := by
        intro h0
        apply hne
        change x.paymentCount + 1 = 1
        omega
      obtain ⟨a', r', hr', hm', hlast, hslot⟩ := h.last hcount
      refine ⟨a', r', ha.kept a' r' hr' hm', hm', ?_, ?_⟩
      · rw [hlast]
        rfl
      · rw [hslot]
        exact hok.cooled (h.started hcount)
    · obtain ⟨a', r', hr', hm', hrest⟩ := h.spaced a r hr hm hne
      exact ⟨a', r', ha.kept a' r' hr' hm', hm', hrest⟩
  last _ := ⟨_, _, ha.new, rfl, rfl, rfl⟩
  started _ := hpos

omit [Runtime] in
theorem Edited.refl (x : PaymentMandate) : Edited x x := ⟨rfl, rfl, rfl, id, id, id⟩

/-- The receipts of `m` that one instruction adds, and what it does to the mandate. -/
theorem Effect.on_mandate {slot : Nat} (he : Effect slot s s') (m : Pubkey) :
    Frame m s s' ∧ mandateAt s' m = mandateAt s m ∨
    (∃ owner params, Frame m s s' ∧ mandateAt s m = none ∧
      mandateAt s' m = some (newMandate owner params)) ∨
    (∃ x x', Frame m s s' ∧ mandateAt s m = some x ∧ mandateAt s' m = some x' ∧ Edited x x') ∨
    ∃ x agent recipient params, mandateAt s m = some x ∧
      mandateAt s' m = some (x.pay params.amount slot) ∧ Payable x params slot ∧
      Added m (receiptAddress m params.invoiceHash)
        ((x.pay params.amount slot).receipt m agent recipient params slot) s s' := by
  have hmandate : ∀ {m' : Pubkey} {y : PaymentMandate}, mandateAt s m' = some y →
      ∀ c, s.lookup m' = some c → c.isReceipt = false := by
    intro m' y hy c hc
    rw [mandateAt_eq_some.mp hy] at hc
    cases hc
    rfl
  cases he with
  | @plain address b hold hnew =>
    left
    refine ⟨.write (fun c hc => Account.isReceipt_of_isPlain (hold c hc)) ?_, ?_⟩
    · intro r hr
      rw [hr] at hnew
      cases hnew
    · by_cases hm : m = address
      · subst hm
        have hnone : ∀ t : State, (∀ c, t.lookup m = some c → c.isPlain = true) →
            mandateAt t m = none := by
          intro t ht
          cases hx : mandateAt t m with
          | none => rfl
          | some x => cases ht _ (mandateAt_eq_some.mp hx)
        rw [hnone s hold, hnone _ fun c hc => ?_]
        rw [AList.lookup_insert] at hc
        cases hc
        exact hnew
      · exact mandateAt_insert_ne hm
  | @created owner params m' hfree =>
    have hframe : Frame m s (s.insert m' (.mandate (newMandate owner params))) :=
      .write (fun c hc => by rw [hfree] at hc; cases hc) nofun
    by_cases hm : m = m'
    · subst hm
      refine .inr (.inl ⟨owner, params, hframe, ?_, mandateAt_insert_self _ _ _⟩)
      unfold mandateAt
      rw [hfree]
    · exact .inl ⟨hframe, mandateAt_insert_ne hm⟩
  | @edited m' x x' hx hedit =>
    have hframe : Frame m s (s.insert m' (.mandate x')) := .write (hmandate hx) nofun
    by_cases hm : m = m'
    · subst hm
      exact .inr (.inr (.inl ⟨x, x', hframe, hx, mandateAt_insert_self _ _ _, hedit⟩))
    · exact .inl ⟨hframe, mandateAt_insert_ne hm⟩
  | @paid m' agent recipient x params hx hfree hok =>
    have hne : m' ≠ receiptAddress m' params.invoiceHash := by
      intro he
      rw [← he, mandateAt_eq_some.mp hx] at hfree
      cases hfree
    by_cases hm : m = m'
    · subst hm
      refine .inr (.inr (.inr ⟨x, agent, recipient, params, hx, ?_, hok, added_pay hx hfree rfl⟩))
      rw [mandateAt_insert_ne hne]
      exact mandateAt_insert_self _ _ _
    · -- a receipt of another mandate
      left
      have hfirst : Frame m s (s.insert m' (.mandate (x.pay params.amount slot))) :=
        .write (hmandate hx) nofun
      refine ⟨hfirst.trans (.write (fun c hc => ?_) fun r hr hmr => ?_), ?_⟩
      · rw [AList.lookup_insert_ne hne.symm, hfree] at hc
        cases hc
      · cases hr
        exact hm hmr.symm
      · by_cases hadr : m = receiptAddress m' params.invoiceHash
        · unfold mandateAt
          rw [hadr, AList.lookup_insert, hfree]
        · rw [mandateAt_insert_ne hadr, mandateAt_insert_ne hm]

/-- There is no mandate at `m` and no receipt of it, or the receipts account for it. -/
def Settled (s : State) (m : Pubkey) : Prop :=
  (mandateAt s m = none ∧ ∀ a r, receiptAt s a = some r → r.mandate ≠ m) ∨
    ∃ x, mandateAt s m = some x ∧ Accounted s m x

theorem Settled.step {slot : Nat} (h : Settled s m) (hpos : 0 < slot) (he : Effect slot s s') :
    Settled s' m := by
  rcases he.on_mandate m with ⟨hf, hsame⟩ | ⟨owner, params, hf, hnone, hnew⟩ |
    ⟨x, x', hf, hx, hx', hedit⟩ | ⟨x, agent, recipient, params, hx, hx', hok, hadd⟩
  · rcases h with ⟨hnone, hno⟩ | ⟨x, hx, hacc⟩
    · refine .inl ⟨hsame.trans hnone, fun a r hr hm => ?_⟩
      exact hno a r ((hf.receipts a r hm).mp hr) hm
    · exact .inr ⟨x, hsame.trans hx, hacc.edit hf (.refl x)⟩
  · rcases h with ⟨-, hno⟩ | ⟨x, hx, -⟩
    · refine .inr ⟨_, hnew, .new fun a r hr hm => ?_⟩
      exact hno a r ((hf.receipts a r hm).mp hr) hm
    · cases hnone.symm.trans hx
  · rcases h with ⟨hnone, -⟩ | ⟨y, hy, hacc⟩
    · cases hnone.symm.trans hx
    · cases hy.symm.trans hx
      exact .inr ⟨x', hx', hacc.edit hf hedit⟩
  · rcases h with ⟨hnone, -⟩ | ⟨y, hy, hacc⟩
    · cases hnone.symm.trans hx
    · cases hy.symm.trans hx
      exact .inr ⟨_, hx', hacc.paid hpos hok hadd⟩

/-- A revoked mandate with the receipts it had. -/
def RevokedSince (s₀ : State) (m : Pubkey) (s : State) : Prop :=
  (∃ x, mandateAt s m = some x ∧ x.revoked = true) ∧ Frame m s₀ s

theorem RevokedSince.step {s₀ : State} {slot : Nat} (h : RevokedSince s₀ m s)
    (he : Effect slot s s') : RevokedSince s₀ m s' := by
  obtain ⟨⟨y, hy, hrev⟩, hframe⟩ := h
  rcases he.on_mandate m with ⟨hf, hsame⟩ | ⟨owner, params, hf, hnone, -⟩ |
    ⟨x, x', hf, hx, hx', hedit⟩ | ⟨x, agent, recipient, params, hx, -, hok, -⟩
  · exact ⟨⟨y, hsame.trans hy, hrev⟩, hframe.trans hf⟩
  · cases hnone.symm.trans hy
  · cases hy.symm.trans hx
    exact ⟨⟨x', hx', hedit.revoked hrev⟩, hframe.trans hf⟩
  · -- a revoked mandate pays nothing
    cases hy.symm.trans hx
    cases hrev.symm.trans hok.live

end Steps

/-! ## Runs -/

theorem run_settled {s : State} {m : Pubkey} {calls : List Call} (h : Settled s m)
    (hslots : ∀ call ∈ calls, 0 < call.ctx.slot) : Settled (Runs.after exec s calls) m := by
  induction calls generalizing s with
  | nil => exact h
  | cons call rest ih =>
    rw [Runs.after_cons]
    refine ih ?_ fun c hc => hslots c (List.mem_cons_of_mem call hc)
    cases hx : exec s call with
    | ok s' =>
      rw [Runs.next_ok hx]
      exact h.step (hslots call List.mem_cons_self) (exec_effect hx)
    | error e =>
      rw [Runs.next_error hx]
      exact h

theorem run_revoked {s : State} {m : Pubkey} {x : PaymentMandate} (hx : mandateAt s m = some x)
    (hrev : x.revoked = true) (calls : List Call) :
    RevokedSince s m (Runs.after exec s calls) :=
  Runs.after_inv (I := RevokedSince s m) (fun _ _ _ _ hs hi => hi.step (exec_effect hs))
    (Runs.along_true s calls) ⟨⟨x, hx, hrev⟩, rfl, rfl, fun _ _ _ => Iff.rfl⟩

/-- **Mandate accounting.** A mandate created in a run with positive slots, in every
state reached: its spend and its count are those of its receipts and stay within its
limits; no two receipts share an invoice; every receipt fits the policy it recorded and
comes a cooldown after the payment before it, the one with the count before its own.
Once it is revoked it stays so, and its receipts stay the same. -/
theorem mandate_accounting (s₀ : State) (m : Pubkey) (hnew : mandateAt s₀ m = none)
    (hnone : ∀ a r, receiptAt s₀ a = some r → r.mandate ≠ m) (calls : List Call)
    (hslots : ∀ call ∈ calls, 0 < call.ctx.slot) :
    let s := Runs.after exec s₀ calls
    (∀ x, mandateAt s m = some x →
      x.amountSpent = sumOf (amountOf m) s ∧ x.paymentCount = sumOf (countOf m) s ∧
      x.amountSpent ≤ x.totalLimit ∧
      (x.maxPaymentCount = 0 ∨ x.paymentCount ≤ x.maxPaymentCount) ∧
      (∀ a r a' r', receiptAt s a = some r → receiptAt s a' = some r' → r.mandate = m →
        r'.mandate = m → r.invoiceHash = r'.invoiceHash → a = a') ∧
      (∀ a r, receiptAt s a = some r → r.mandate = m →
        r.amount ≤ r.policyMaxPerPayment ∧ r.policyAmountSpentAfter ≤ r.policyTotalLimit ∧
        r.executedAtSlot < r.policyExpiresAtSlot ∧
        (r.policyPaymentCountAfter ≠ 1 → ∃ a' r', receiptAt s a' = some r' ∧ r'.mandate = m ∧
          r'.policyPaymentCountAfter + 1 = r.policyPaymentCountAfter ∧
          r'.executedAtSlot + r.policyCooldownSlots ≤ r.executedAtSlot)) ∧
      (∀ a r a' r', receiptAt s a = some r → receiptAt s a' = some r' → r.mandate = m →
        r'.mandate = m → r.policyPaymentCountAfter = r'.policyPaymentCountAfter → a = a') ∧
      ∀ a r, receiptAt s a = some r → r.mandate = m →
        1 ≤ r.policyPaymentCountAfter ∧ r.policyPaymentCountAfter ≤ x.paymentCount) ∧
    ∀ first later x, calls = first ++ later →
      mandateAt (Runs.after exec s₀ first) m = some x → x.revoked = true →
      (∃ x', mandateAt s m = some x' ∧ x'.revoked = true) ∧
      ∀ a r, r.mandate = m →
        (receiptAt s a = some r ↔ receiptAt (Runs.after exec s₀ first) a = some r) := by
  intro s
  refine ⟨fun x hx => ?_, fun first later x hcalls hx hrev => ?_⟩
  · rcases run_settled (.inl ⟨hnew, hnone⟩) hslots with ⟨hno, -⟩ | ⟨y, hy, h⟩
    · cases hno.symm.trans hx
    · cases hy.symm.trans hx
      refine ⟨h.spent, h.count, h.within, h.counted, ?_, ?_, h.distinct, h.number⟩
      · intro a r a' r' hr hr' hm hm' he
        rw [h.place a r hr hm, h.place a' r' hr' hm', he]
      · intro a r hr hm
        have hsound := h.sound a r hr hm
        exact ⟨hsound.amount, hsound.within, hsound.unexpired, h.spaced a r hr hm⟩
  · have hafter : s = Runs.after exec (Runs.after exec s₀ first) later := by
      rw [← Runs.after_append, ← hcalls]
    obtain ⟨hstill, hframe⟩ := run_revoked hx hrev later
    rw [hafter]
    exact ⟨hstill, hframe.receipts⟩

end Invariant

/-! ## A mandate to run -/

namespace Sample
open Card.Sample

def nonce : Pubkey :=
  0x43504e4f4e434521000000000000000000000000000000000000000000000001#256

def mint : Mint := ⟨key 60, SPL_TOKEN⟩

def agent : Pubkey := key 8

/-- The address of the sample mandate. -/
def mandateKey : Pubkey :=
  0x0c5e30021c699cdceef1db97690693661ad2402c65d1cb3996a9fda5b02fda95#256

/-- The owner's token account, delegated to the mandate. -/
def source : TokenAccount := ⟨key 61, owner, mint.key, some mandateKey, 1000, SPL_TOKEN⟩

def shop : TokenAccount := ⟨key 62, key 63, mint.key, none, 0, SPL_TOKEN⟩

def at_ (slot : Nat) (signer : Pubkey) (instr : Instr) : Call := ⟨⟨[signer], slot, true⟩, instr⟩

def pay (slot : Nat) (invoice : Nat) (amount : Nat) : Call :=
  at_ slot agent (.executePayment agent mandateKey ⟨key invoice, key 71, key 72, amount⟩
    ⟨mint, source, shop, SPL_TOKEN⟩)

/-- Two payments, between which the owner raises the limit; then the mandate is revoked
and pays no more. -/
def paidTwice : List Call :=
  [at_ 1 owner (.initializeConfig owner #v[mint.key, 0, 0]),
   at_ 1 owner (.registerAsset owner mint SPL_TOKEN),
   at_ 2 owner (.createMandate owner ⟨agent, source.key, mint.key, 25, 100, 50, 0, 5, nonce⟩
    ⟨mint, source, SPL_TOKEN⟩),
   pay 3 80 20,
   at_ 4 owner (.updateMandate owner mandateKey ⟨agent, 40, 100, 60, 3, 2, false⟩),
   pay 5 81 40,
   at_ 7 owner (.revokeMandate owner mandateKey),
   pay 20 82 1]

/-- The addresses of the run. -/
def addresses : List ((List Bytes × Pubkey) × Pubkey × UInt8) :=
  [(([ascii "config"], CHAINPAY_ID),
      (0x4e9a2b3b00505b820b364053be4d4c4019fb80c48b8f17bbe044bae069de0610#256, 255)),
   (([ascii "asset", Hash.bytes mint.key], CHAINPAY_ID),
      (0x170d3e95ed015949ada2ce573b2acbfc682db9d73f477abd2e72f4afc7db7f18#256, 255)),
   (([ascii "mandate", Hash.bytes owner, Hash.bytes mint.key, Hash.bytes nonce], CHAINPAY_ID),
      (mandateKey, 255)),
   (([ascii "receipt", Hash.bytes mandateKey, Hash.bytes (key 80)], CHAINPAY_ID),
      (0x54dc730c5b8bb1a15c57e438835e50371c3bb953801ca3c15592c7d182335bc6#256, 255)),
   (([ascii "receipt", Hash.bytes mandateKey, Hash.bytes (key 81)], CHAINPAY_ID),
      (0xcdc58c84b35d9516b04856a6737ecb15267be27f0028b35269411fb81fe08f9d#256, 255))]

theorem findProgramAddress_tabled : (fun seeds program =>
    tabled addresses (fun a => runtime.findProgramAddress a.1 a.2) (seeds, program)) =
      runtime.findProgramAddress := by
  rw [tabled_eq]
  intro p hp
  simp only [addresses, List.mem_cons, List.not_mem_nil, or_false] at hp
  rcases hp with rfl | rfl | rfl | rfl | rfl
  all_goals decide +kernel

/-- The same runtime; the addresses of the run are looked up. -/
@[reducible] def tabledRuntime : Runtime :=
  { runtime with
    findProgramAddress := fun seeds program =>
      tabled addresses (fun a => runtime.findProgramAddress a.1 a.2) (seeds, program) }

theorem runtime_eq : runtime = tabledRuntime := by
  unfold tabledRuntime
  rw [findProgramAddress_tabled]

end Sample

open Sample Card.Sample in
theorem mandate_accounting_paidTwice :
    ∃ x, mandateAt (Runs.after exec ∅ paidTwice) mandateKey = some x ∧
      x.paymentCount = 2 ∧ x.revoked = true ∧
      sumOf (amountOf mandateKey) (Runs.after exec ∅ paidTwice) = 60 := by
  have hlook : (mandateAt (Runs.after exec ∅ paidTwice) mandateKey).map
      (fun x => (x.amountSpent, x.paymentCount, x.revoked)) = some (60, 2, true) := by
    rw [runtime_eq]
    decide +kernel
  obtain ⟨x, hx, hvals⟩ := Option.map_eq_some_iff.mp hlook
  simp only [Prod.mk.injEq] at hvals
  obtain ⟨hspent, hcount, hrev⟩ := hvals
  have hslots : ∀ call ∈ paidTwice, 0 < call.ctx.slot := by decide +kernel
  have hacc := ((mandate_accounting ∅ mandateKey rfl nofun paidTwice hslots).1 x hx).1
  exact ⟨x, hx, hcount, hrev, hacc.symm.trans hspent⟩

end ChainPay.Mandate
