import ChainPay.Mandate.Receipts
import ChainPay.Sdk.Preflight
import Mathlib.Algebra.Order.BigOperators.Group.List
import Mathlib.Algebra.Order.Group.Nat

/-!
Preflight against the program. A batch that passes is settled entry by entry; what the cumulative
checks say of the start has to be carried along: for each mandate, what is left of its limits, of
its delegation and of the balance covers the entries that are still to come.
-/

namespace ChainPay.Sdk
open ChainPay.Lib ChainPay.Mandate
open ChainPay.Card (Pubkey Hash Runtime)

namespace BatchPreflightEntry

/-- The mandate that pays. -/
abbrev payer (e : BatchPreflightEntry) : Pubkey := e.mandate.address

/-- The receipt of an entry: mandate and invoice. -/
def receipt (e : BatchPreflightEntry) : Pubkey × Hash := (e.payer, e.request.invoiceHash)

def amount (e : BatchPreflightEntry) : Nat := e.request.amount.toNat

end BatchPreflightEntry

/-- The entries of a mandate. -/
def entriesOf (m : Pubkey) (es : List BatchPreflightEntry) : Group :=
  es.filter fun e => e.payer = m

/-- What a mandate pays. -/
def totalOf (m : Pubkey) (es : List BatchPreflightEntry) : Nat :=
  ((entriesOf m es).map (·.amount)).sum

theorem entriesOf_cons_self {e : BatchPreflightEntry} (es : List BatchPreflightEntry) :
    entriesOf e.payer (e :: es) = e :: entriesOf e.payer es := by
  simp [entriesOf]

theorem entriesOf_cons_ne {e : BatchPreflightEntry} {m : Pubkey} (h : e.payer ≠ m)
    (es : List BatchPreflightEntry) : entriesOf m (e :: es) = entriesOf m es := by
  simp [entriesOf, h]

theorem totalOf_cons_self {e : BatchPreflightEntry} (es : List BatchPreflightEntry) :
    totalOf e.payer (e :: es) = e.amount + totalOf e.payer es := by
  rw [totalOf, entriesOf_cons_self, List.map_cons, List.sum_cons, totalOf]

theorem totalOf_cons_ne {e : BatchPreflightEntry} {m : Pubkey} (h : e.payer ≠ m)
    (es : List BatchPreflightEntry) : totalOf m (e :: es) = totalOf m es := by
  rw [totalOf, entriesOf_cons_ne h, totalOf]

theorem mem_entriesOf {e : BatchPreflightEntry} {es : List BatchPreflightEntry} (h : e ∈ es) :
    e ∈ entriesOf e.payer es :=
  List.mem_filter.mpr ⟨h, decide_eq_true rfl⟩

theorem amount_le_totalOf {e : BatchPreflightEntry} {es : List BatchPreflightEntry} (h : e ∈ es) :
    e.amount ≤ totalOf e.payer es :=
  List.single_le_sum (fun _ _ => Nat.zero_le _) _ (List.mem_map_of_mem (mem_entriesOf h))

/-! ## One payment -/

/-- When the policy lets a payment through. -/
theorem validatePayment_ok {x : PaymentMandate} {params : PaymentParams} {slot : Nat} :
    validatePayment x params slot = .ok () ↔
      x.revoked = false ∧ x.paused = false ∧ slot < x.expiresAtSlot ∧ 0 < params.amount ∧
      params.amount ≤ x.maxPerPayment ∧ params.invoiceHash ≠ 0 ∧ params.paymentId ≠ 0 ∧
      params.signatureReference ≠ 0 ∧ x.amountSpent + params.amount < 2 ^ 64 ∧
      x.amountSpent + params.amount ≤ x.totalLimit ∧ x.paymentCount + 1 < 2 ^ 64 ∧
      (x.maxPaymentCount = 0 ∨ x.paymentCount + 1 ≤ x.maxPaymentCount) ∧
      (x.lastPaymentSlot = 0 ∨
        (x.lastPaymentSlot + x.cooldownSlots < 2 ^ 64 ∧
          x.lastPaymentSlot + x.cooldownSlots ≤ slot)) := by
  have hcool : cooledDown x slot = .ok () ↔ (x.lastPaymentSlot = 0 ∨
      (x.lastPaymentSlot + x.cooldownSlots < 2 ^ 64 ∧
        x.lastPaymentSlot + x.cooldownSlots ≤ slot)) := by
    unfold cooledDown
    by_cases hlast : 0 < x.lastPaymentSlot
    · have hne : x.lastPaymentSlot ≠ 0 := by omega
      simp [hlast, hne, and_assoc]
    · have hzero : x.lastPaymentSlot = 0 := by omega
      simp [hzero]
  simp only [validatePayment, bind_eq_ok, ensure_eq_ok, okOr_eq_ok, checkedAdd_eq_some, exists_unit,
    hcool]
  constructor
  · rintro ⟨h1, h2, h3, h4, h5, h6, h7, h8, spent, ⟨h9, rfl⟩, h10, count, ⟨h11, rfl⟩, h12, h13⟩
    exact ⟨h1, h2, h3, h4, h5, h6, h7, h8, h9, h10, h11, h12, h13⟩
  · rintro ⟨h1, h2, h3, h4, h5, h6, h7, h8, h9, h10, h11, h12, h13⟩
    exact ⟨h1, h2, h3, h4, h5, h6, h7, h8, _, ⟨h9, rfl⟩, h10, _, ⟨h11, rfl⟩, h12, h13⟩

/-- What a transfer leaves of an account that it does not draw on. -/
structure Holding.Keeps (a b : Holding) : Prop where
  owner : b.owner = a.owner
  delegate : b.delegate = a.delegate
  delegatedAmount : b.delegatedAmount = a.delegatedAmount
  balance : a.balance ≤ b.balance

theorem Holding.Keeps.refl (a : Holding) : a.Keeps a := ⟨rfl, rfl, rfl, Nat.le_refl _⟩

/-- Tokens that arrive change nothing but balances, which grow. -/
theorem credit_keeps {tokens : Table Pubkey Holding} {recipient key : Pubkey} {amount : Nat}
    {a : Holding} (h : tokens.lookup key = some a) :
    ∃ b, (credit tokens recipient amount).lookup key = some b ∧ a.Keeps b := by
  unfold credit
  cases hr : tokens.lookup recipient with
  | none => exact ⟨a, h, .refl a⟩
  | some r =>
    dsimp only
    by_cases hk : key = recipient
    · subst hk
      cases h.symm.trans hr
      exact ⟨_, AList.lookup_insert _, rfl, rfl, rfl, Nat.le_add_right ..⟩
    · exact ⟨a, (AList.lookup_insert_ne hk).trans h, .refl a⟩

/-- What a transfer leaves of the account it draws on. -/
structure Holding.Spent (a b : Holding) (amount : Nat) : Prop where
  owner : b.owner = a.owner
  balance : a.balance ≤ b.balance + amount
  delegatedAmount : a.delegatedAmount ≤ b.delegatedAmount + amount
  delegate : amount < a.delegatedAmount → b.delegate = a.delegate

/-- A transfer within balance and delegation goes through. -/
theorem transfer_ok {tokens : Table Pubkey Holding} {source m : Pubkey} {amount : Nat}
    {a : Holding} (recipient : Pubkey) (h : tokens.lookup source = some a)
    (hbalance : amount ≤ a.balance) (hdelegate : a.delegate = some m)
    (hallowed : amount ≤ a.delegatedAmount) :
    ∃ tokens', transfer tokens source recipient m amount = .ok tokens' ∧
      (∃ b, tokens'.lookup source = some b ∧ a.Spent b amount) ∧
      ∀ key c, key ≠ source → tokens.lookup key = some c →
        ∃ b, tokens'.lookup key = some b ∧ c.Keeps b := by
  by_cases hself : source = recipient
  · refine ⟨tokens, ?_, ⟨a, h, rfl, by omega, by omega, fun _ => rfl⟩, ?_⟩
    · simp [transfer, h, okOr, ensure_pos, hbalance, hdelegate, hallowed, hself]
    · exact fun key c _ hc => ⟨c, hc, .refl c⟩
  · refine ⟨credit (tokens.insert source (a.spend amount)) recipient amount, ?_, ?_, ?_⟩
    · simp [transfer, h, okOr, ensure_pos, hbalance, hdelegate, hallowed, hself]
    · obtain ⟨b, hb, hkeeps⟩ : ∃ b, (credit (tokens.insert source (a.spend amount)) recipient
          amount).lookup source = some b ∧ (a.spend amount).Keeps b :=
        credit_keeps (AList.lookup_insert (a := source) (b := a.spend amount) tokens)
      have hleft : (a.spend amount).balance = a.balance - amount := rfl
      have hrest : (a.spend amount).delegatedAmount = a.delegatedAmount - amount := rfl
      have hgrown := hkeeps.balance
      have hsame := hkeeps.delegatedAmount
      refine ⟨b, hb, hkeeps.owner, by omega, by omega, fun hless => ?_⟩
      rw [hkeeps.delegate, Holding.spend, if_neg (by omega)]
    · intro key c hne hc
      exact credit_keeps ((AList.lookup_insert_ne hne).trans hc)

/-! ## Covered batches -/

/-- The mandate and the source account of an entry cover it and what comes after it. -/
structure Covers (slot : Nat) (es : List BatchPreflightEntry) (e : BatchPreflightEntry)
    (x : PaymentMandate) (a : Holding) : Prop where
  revoked : x.revoked = false
  paused : x.paused = false
  expiry : slot < x.expiresAtSlot
  positive : 0 < e.amount
  perPayment : e.amount ≤ x.maxPerPayment
  invoiceHash : e.request.invoiceHash ≠ 0
  paymentId : e.request.paymentId ≠ 0
  signatureReference : e.request.signatureReference ≠ 0
  width : x.totalLimit < 2 ^ 64
  total : x.amountSpent + totalOf e.payer es ≤ x.totalLimit
  countWidth : x.paymentCount + (entriesOf e.payer es).length < 2 ^ 64
  count : x.maxPaymentCount = 0 ∨
    x.paymentCount + (entriesOf e.payer es).length ≤ x.maxPaymentCount
  cooldown : x.lastPaymentSlot = 0 ∨ x.lastPaymentSlot + x.cooldownSlots ≤ slot
  /-- More than one payment in a slot only without a cooldown. -/
  again : (entriesOf e.payer es).length ≤ 1 ∨ x.cooldownSlots = 0
  owner : a.owner = x.owner
  delegate : a.delegate = some e.payer
  balance : totalOf e.payer es ≤ a.balance
  allowance : totalOf e.payer es ≤ a.delegatedAmount

/-- Every entry that is still to come is covered, and its receipt is not there. -/
structure Enough (slot : Nat) (l : Ledger) (es : List BatchPreflightEntry) : Prop where
  width : slot < 2 ^ 64
  covered : ∀ e ∈ es, ∃ x a, l.mandates.lookup e.payer = some x ∧
    l.tokens.lookup x.sourceTokenAccount = some a ∧ Covers slot es e x a
  fresh : ∀ e ∈ es, e.receipt ∉ l.receipts
  distinct : (es.map (·.receipt)).Nodup

variable {slot : Nat} {l l' : Ledger} {e : BatchPreflightEntry} {es : List BatchPreflightEntry}

theorem Covers.valid {x : PaymentMandate} {a : Holding} (h : Covers slot es e x a)
    (hslot : slot < 2 ^ 64) (he : e ∈ es) : validatePayment x e.request.params slot = .ok () := by
  have htotal := h.total
  have hamount := amount_le_totalOf he
  have hcount := List.length_pos_of_mem (mem_entriesOf he)
  have hwidth := h.width
  have hcountWidth := h.countWidth
  refine validatePayment_ok.mpr ⟨h.revoked, h.paused, h.expiry, h.positive, h.perPayment,
    h.invoiceHash, h.paymentId, h.signatureReference, ?_, ?_, by omega, ?_, ?_⟩
  · change x.amountSpent + e.amount < 2 ^ 64
    omega
  · change x.amountSpent + e.amount ≤ x.totalLimit
    omega
  · rcases h.count with hmax | hmax
    · exact .inl hmax
    · exact .inr (by omega)
  · rcases h.cooldown with hlast | hlast
    · exact .inl hlast
    · exact .inr ⟨by omega, hlast⟩

/-- An entry of another mandate settles: nothing that covers this one is touched. -/
theorem Covers.other {f : BatchPreflightEntry} {x : PaymentMandate} {a b : Holding}
    (h : Covers slot (e :: es) f x a) (hne : e.payer ≠ f.payer) (hkeeps : a.Keeps b) :
    Covers slot es f x b := by
  have htotal := totalOf_cons_ne hne es
  have hentries := entriesOf_cons_ne hne es
  have hbalance := h.balance
  have hallowance := h.allowance
  have hgrown := hkeeps.balance
  have hsame := hkeeps.delegatedAmount
  exact
    { revoked := h.revoked, paused := h.paused, expiry := h.expiry, positive := h.positive
      perPayment := h.perPayment, invoiceHash := h.invoiceHash, paymentId := h.paymentId
      signatureReference := h.signatureReference, width := h.width
      total := htotal ▸ h.total
      countWidth := hentries ▸ h.countWidth
      count := hentries ▸ h.count
      cooldown := h.cooldown
      again := hentries ▸ h.again
      owner := hkeeps.owner.trans h.owner
      delegate := hkeeps.delegate.trans h.delegate
      balance := by omega
      allowance := by omega }

/-- An entry of the same mandate settles: what it took was counted before. -/
theorem Covers.same {f : BatchPreflightEntry} {x : PaymentMandate} {a b : Holding}
    (h : Covers slot (e :: es) f x a) (heq : f.payer = e.payer) (hf : f ∈ es)
    (hspent : a.Spent b e.amount) : Covers slot es f (x.pay e.amount slot) b := by
  have hfirst := totalOf_cons_self (e := e) es
  have hlength : (entriesOf e.payer (e :: es)).length = (entriesOf e.payer es).length + 1 := by
    rw [entriesOf_cons_self, List.length_cons]
  have hmore := List.length_pos_of_mem (mem_entriesOf hf)
  have hamount := amount_le_totalOf hf
  have hpos := h.positive
  have htotal := h.total
  have hcountWidth := h.countWidth
  have hbalance := h.balance
  have hallowance := h.allowance
  have hleft := hspent.balance
  have hrest := hspent.delegatedAmount
  have hcount := h.count
  have hagain := h.again
  rw [heq] at hmore hamount htotal hcountWidth hbalance hallowance hcount hagain
  -- two entries of the mandate, so it has no cooldown
  have hcool : x.cooldownSlots = 0 := hagain.resolve_left (by omega)
  exact
    { revoked := h.revoked, paused := h.paused, expiry := h.expiry, positive := hpos
      perPayment := h.perPayment, invoiceHash := h.invoiceHash, paymentId := h.paymentId
      signatureReference := h.signatureReference, width := h.width
      total := by
        rw [heq]
        change x.amountSpent + e.amount + _ ≤ x.totalLimit
        omega
      countWidth := by
        rw [heq]
        change x.paymentCount + 1 + _ < 2 ^ 64
        omega
      count := by
        rw [heq]
        change x.maxPaymentCount = 0 ∨ x.paymentCount + 1 + _ ≤ x.maxPaymentCount
        omega
      cooldown := .inr (by
        change slot + x.cooldownSlots ≤ slot
        omega)
      again := .inr hcool
      owner := hspent.owner.trans h.owner
      delegate := (hspent.delegate (by omega)).trans h.delegate
      balance := by rw [heq]; omega
      allowance := by rw [heq]; omega }

/-- **One entry.** A covered batch settles its first entry and stays covered. -/
theorem Enough.settle (h : Enough slot l (e :: es)) :
    ∃ l', Sdk.settle slot l e = .ok l' ∧ Enough slot l' es := by
  obtain ⟨x, a, hx, ha, hcov⟩ := h.covered e List.mem_cons_self
  have hvalid := hcov.valid h.width List.mem_cons_self
  have htotal := totalOf_cons_self (e := e) es
  have hlength : (entriesOf e.payer (e :: es)).length = (entriesOf e.payer es).length + 1 := by
    rw [entriesOf_cons_self, List.length_cons]
  have hbalance := hcov.balance
  have hallowance := hcov.allowance
  obtain ⟨tokens, htransfer, ⟨b, hb, hspent⟩, hothers⟩ := transfer_ok e.request.recipient ha
    (show e.amount ≤ a.balance by omega) hcov.delegate (show e.amount ≤ a.delegatedAmount by omega)
  have hsource : checkSource x e.payer e.amount l.tokens = .ok () := by
    simp only [checkSource, bind_eq_ok, ensure_eq_ok, okOr_eq_ok, exists_unit]
    exact ⟨a, ha, hcov.owner, hcov.delegate, by omega⟩
  refine ⟨⟨l.mandates.insert e.payer (x.pay e.amount slot), e.receipt :: l.receipts, tokens⟩,
    ?_, ?_⟩
  · simp only [Sdk.settle, bind_eq_ok, ensure_eq_ok, okOr_eq_ok, exists_unit, pure_eq_ok]
    exact ⟨x, hx, hsource, h.fresh e List.mem_cons_self, hvalid, tokens, htransfer, rfl⟩
  · obtain ⟨hnew, hdistinct⟩ := List.nodup_cons.mp h.distinct
    refine ⟨h.width, fun f hf => ?_, fun f hf hmem => ?_, hdistinct⟩
    · obtain ⟨y, c, hy, hc, hcovf⟩ := h.covered f (List.mem_cons_of_mem _ hf)
      by_cases hsame : f.payer = e.payer
      · rw [hsame] at hy
        cases hx.symm.trans hy
        cases ha.symm.trans hc
        refine ⟨x.pay e.amount slot, b, ?_, hb, hcovf.same hsame hf hspent⟩
        rw [hsame]
        exact AList.lookup_insert _
      · -- another mandate draws on another account, since the delegates differ
        have hne : y.sourceTokenAccount ≠ x.sourceTokenAccount := by
          intro hkey
          rw [hkey] at hc
          cases ha.symm.trans hc
          exact hsame (Option.some.inj (hcovf.delegate.symm.trans hcov.delegate))
        obtain ⟨c', hc', hkeeps⟩ := hothers _ c hne hc
        exact ⟨y, c', (AList.lookup_insert_ne hsame).trans hy, hc',
          hcovf.other (Ne.symm hsame) hkeeps⟩
    · rcases List.mem_cons.mp hmem with heq | hmem
      · exact hnew (List.mem_map.mpr ⟨f, hf, heq⟩)
      · exact h.fresh f (List.mem_cons_of_mem _ hf) hmem

/-- **A covered batch settles.** -/
theorem Enough.settleAll (h : Enough slot l es) : ∃ l', Sdk.settleAll slot l es = .ok l' := by
  induction es generalizing l with
  | nil => exact ⟨l, rfl⟩
  | cons e es ih =>
    obtain ⟨mid, hmid, hrest⟩ := h.settle
    obtain ⟨l', hl'⟩ := ih hrest
    refine ⟨l', ?_⟩
    unfold Sdk.settleAll at hl' ⊢
    rw [List.foldlM_cons, hmid]
    exact hl'

/-! ## What a settled batch shows -/

/-- What a settled entry shows and leaves. -/
theorem settle_spec (h : settle slot l e = .ok l') :
    e.receipt ∉ l.receipts ∧ l'.receipts = e.receipt :: l.receipts ∧
      ∃ x, l.mandates.lookup e.payer = some x ∧ x.paymentCount + 1 < 2 ^ 64 ∧
        l'.mandates = l.mandates.insert e.payer (x.pay e.amount slot) := by
  simp only [settle, bind_eq_ok, ensure_eq_ok, okOr_eq_ok, exists_unit, pure_eq_ok] at h
  obtain ⟨x, hx, -, hnew, hvalid, tokens, -, rfl⟩ := h
  obtain ⟨-, -, -, -, -, -, -, -, -, -, hcount, -⟩ := validatePayment_ok.mp hvalid
  exact ⟨hnew, rfl, x, hx, hcount, rfl⟩

/-- A batch that settles has one entry per receipt, none of which was there. -/
theorem settled_distinct (h : settleAll slot l es = .ok l') :
    (es.map (·.receipt)).Nodup ∧ ∀ e ∈ es, e.receipt ∉ l.receipts := by
  induction es generalizing l with
  | nil => exact ⟨List.nodup_nil, fun _ he => nomatch he⟩
  | cons e es ih =>
    unfold settleAll at h ih
    rw [List.foldlM_cons, bind_eq_ok] at h
    obtain ⟨mid, hmid, hrest⟩ := h
    obtain ⟨hnew, hreceipts, -⟩ := settle_spec hmid
    obtain ⟨hdistinct, hfresh⟩ := ih hrest
    rw [hreceipts] at hfresh
    refine ⟨List.nodup_cons.mpr ⟨fun hmem => ?_, hdistinct⟩, fun f hf => ?_⟩
    · obtain ⟨f, hf, heq⟩ := List.mem_map.mp hmem
      exact hfresh f hf (List.mem_cons.mpr (.inl heq))
    · rcases List.mem_cons.mp hf with rfl | hf
      · exact hnew
      · exact fun hmem => hfresh f hf (List.mem_cons_of_mem _ hmem)

/-- A batch that settles keeps the payment counts in their width. -/
theorem settled_count (h : settleAll slot l es = .ok l') {m : Pubkey} {x : PaymentMandate}
    (hx : l.mandates.lookup m = some x) (hwidth : x.paymentCount < 2 ^ 64) :
    x.paymentCount + (entriesOf m es).length < 2 ^ 64 := by
  induction es generalizing l x with
  | nil => exact hwidth
  | cons e es ih =>
    unfold settleAll at h ih
    rw [List.foldlM_cons, bind_eq_ok] at h
    obtain ⟨mid, hmid, hrest⟩ := h
    obtain ⟨-, -, y, hy, hcount, hmandates⟩ := settle_spec hmid
    by_cases hm : m = e.payer
    · subst hm
      cases hx.symm.trans hy
      have hnext : mid.mandates.lookup e.payer = some (x.pay e.amount slot) := by
        rw [hmandates]
        exact AList.lookup_insert _
      have htail := ih hrest hnext hcount
      rw [entriesOf_cons_self, List.length_cons]
      change x.paymentCount + 1 + _ < 2 ^ 64 at htail
      omega
    · have hnext : mid.mandates.lookup m = some x := by
        rw [hmandates]
        exact (AList.lookup_insert_ne hm).trans hx
      rw [entriesOf_cons_ne (Ne.symm hm)]
      exact ih hrest hnext hwidth

/-! ## The ledger and the program -/

section Program

variable [Runtime]

/-- The accounts of an entry's instruction, as its builder names them: all that the preflight does
not look at (registry, mint, programs, recipient, signer) fits the mandate, the source account is
the ledger's, and the receipt is there when the ledger has it. -/
structure Named (ctx : Ctx) (s : State) (l : Ledger) (e : BatchPreflightEntry) (x : PaymentMandate)
    (a : Holding) (accounts : PayAccounts) : Prop where
  mandate : mandateAt s e.payer = some x ∧ l.mandates.lookup e.payer = some x
  asset : assetContext s x.allowedMint accounts.tokenProgram = .ok ()
  agent : x.approvedAgent ∈ ctx.signers
  mint : accounts.allowedMint = ⟨x.allowedMint, accounts.tokenProgram⟩
  source : l.tokens.lookup x.sourceTokenAccount = some a ∧ accounts.sourceTokenAccount =
    ⟨x.sourceTokenAccount, a.owner, x.allowedMint, a.delegate, a.delegatedAmount,
      accounts.tokenProgram⟩
  recipient : accounts.recipientTokenAccount.mint = x.allowedMint ∧
    accounts.recipientTokenAccount.program = accounts.tokenProgram ∧
    (isMandateNonce x.legacyAllowedRecipient = true ∨ x.legacyAllowedRecipient = 0 ∨
      accounts.recipientTokenAccount.key = x.legacyAllowedRecipient)
  receipt : s.lookup (receiptAddress e.payer e.request.invoiceHash) = none ↔ e.receipt ∉ l.receipts
  transfer : ctx.transferOk = true ↔ ∃ tokens, Sdk.transfer l.tokens x.sourceTokenAccount
    e.request.recipient e.payer e.amount = .ok tokens

/-- **Ledger and program.** An entry settles over the ledger exactly when the program executes it,
and then the mandate is left the same in both. -/
theorem settle_iff_execute {ctx : Ctx} {s : State} {l : Ledger} {e : BatchPreflightEntry}
    {x : PaymentMandate} {a : Holding} {accounts : PayAccounts}
    (h : Named ctx s l e x a accounts) :
    ((∃ l', settle ctx.slot l e = .ok l') ↔
      ∃ s', executePayment ctx x.approvedAgent e.payer e.request.params accounts s = .ok s') ∧
    ∀ l' s', settle ctx.slot l e = .ok l' →
      executePayment ctx x.approvedAgent e.payer e.request.params accounts s = .ok s' →
      mandateAt s' e.payer = l'.mandates.lookup e.payer := by
  have hcontext : payContext ctx x.approvedAgent e.payer e.request.params accounts s = .ok x ↔
      checkSource x e.payer e.amount l.tokens = .ok () := by
    simp only [payContext, checkSource, bind_eq_ok, ensure_eq_ok, okOr_eq_ok, exists_unit,
      pure_eq_ok, h.mandate.1, h.source.1, h.source.2, h.mint]
    constructor
    · rintro ⟨y, hy, -, -, -, -, -, howner, -, hdelegate, hamount, -⟩
      cases hy
      exact ⟨a, rfl, howner, hdelegate, hamount⟩
    · rintro ⟨b, hb, howner, hdelegate, hamount⟩
      cases hb
      exact ⟨x, rfl, h.asset, ⟨rfl, h.agent⟩, rfl, trivial, rfl, howner, rfl, hdelegate,
        hamount, trivial, h.recipient.2.2, h.recipient.1, h.recipient.2.1, rfl⟩
  have honly : ∀ y, payContext ctx x.approvedAgent e.payer e.request.params accounts s = .ok y →
      y = x := by
    intro y hy
    simp only [payContext, bind_eq_ok, ensure_eq_ok, okOr_eq_ok, exists_unit, pure_eq_ok,
      h.mandate.1, Option.some.injEq] at hy
    obtain ⟨z, rfl, -, -, -, -, -, -, -, -, -, -, -, -, -, rfl⟩ := hy
    rfl
  constructor
  · constructor
    · rintro ⟨l', hl'⟩
      simp only [settle, bind_eq_ok, ensure_eq_ok, okOr_eq_ok, exists_unit, pure_eq_ok,
        h.mandate.2, Option.some.injEq] at hl'
      obtain ⟨y, rfl, hsource, hnew, hvalid, tokens, htokens, -⟩ := hl'
      simp only [executePayment, bind_eq_ok, ensure_eq_ok, exists_unit, pure_eq_ok]
      exact ⟨_, _, hcontext.mpr hsource, h.receipt.mpr hnew, hvalid,
        h.transfer.mpr ⟨tokens, htokens⟩, rfl⟩
    · rintro ⟨s', hs'⟩
      simp only [executePayment, bind_eq_ok, ensure_eq_ok, exists_unit, pure_eq_ok] at hs'
      obtain ⟨y, hy, hreceipt, hvalid, htransfer, -⟩ := hs'
      cases honly y hy
      obtain ⟨tokens, htokens⟩ := h.transfer.mp htransfer
      simp only [settle, bind_eq_ok, ensure_eq_ok, okOr_eq_ok, exists_unit, pure_eq_ok]
      exact ⟨_, x, h.mandate.2, hcontext.mp hy, h.receipt.mp hreceipt, hvalid, tokens, htokens, rfl⟩
  · intro l' s' hl' hs'
    obtain ⟨-, -, y, hy, -, hmandates⟩ := settle_spec hl'
    cases h.mandate.2.symm.trans hy
    simp only [executePayment, bind_eq_ok, ensure_eq_ok, exists_unit, pure_eq_ok] at hs'
    obtain ⟨z, hz, hreceipt, -, -, rfl⟩ := hs'
    cases honly z hz
    change s.lookup (receiptAddress e.payer e.request.invoiceHash) = none at hreceipt
    -- the receipt is created where no account was, so not at the mandate
    have hne : e.payer ≠ receiptAddress e.payer e.request.invoiceHash := by
      intro heq
      have hmandate := h.mandate.1
      rw [mandateAt, heq, hreceipt] at hmandate
      cases hmandate
    rw [hmandates, AList.lookup_insert]
    exact (mandateAt_insert_ne hne).trans (mandateAt_insert_self s e.payer _)

end Program
/-! ## What a preflight shows -/

/-- The groups of a batch are the entries of its mandates. -/
theorem groups_spec (es : List BatchPreflightEntry) :
    (∀ g ∈ groups es, g.2 = entriesOf g.1 es) ∧ ∀ e ∈ es, ∃ g ∈ groups es, g.1 = e.payer := by
  induction es using List.reverseRecOn with
  | nil => exact ⟨fun _ hg => (nomatch hg), fun _ he => (nomatch he)⟩
  | append_singleton es e ih =>
    obtain ⟨hgroups, hall⟩ := ih
    have hadd : groups (es ++ [e]) = addToGroup (groups es) e := by
      rw [groups, List.foldl_append]
      rfl
    have hkeep : ∀ m, m ≠ e.payer → entriesOf m (es ++ [e]) = entriesOf m es := by
      intro m hm
      simp [entriesOf, Ne.symm hm]
    have hmine : entriesOf e.payer (es ++ [e]) = entriesOf e.payer es ++ [e] := by
      simp [entriesOf]
    rw [hadd, addToGroup]
    by_cases hany : ((groups es).any fun g => g.1 = e.mandate.address) = true
    · rw [if_pos hany]
      obtain ⟨old, hold, hkey⟩ := List.any_eq_true.mp hany
      have hkey : old.1 = e.payer := of_decide_eq_true hkey
      refine ⟨fun g hg => ?_, fun f hf => ?_⟩
      · obtain ⟨r, hr, rfl⟩ := List.mem_map.mp hg
        split
        · rename_i hre
          rw [hgroups r hr, hre, hmine]
        · rename_i hre
          rw [hgroups r hr, hkeep _ hre]
      · have hin : ∃ g ∈ groups es, g.1 = f.payer := by
          rcases List.mem_append.mp hf with hf | hf
          · exact hall f hf
          · rw [List.mem_singleton.mp hf]
            exact ⟨old, hold, hkey⟩
        obtain ⟨g, hg, hgf⟩ := hin
        refine ⟨_, List.mem_map_of_mem hg, ?_⟩
        split
        · exact hgf
        · exact hgf
    · rw [if_neg hany]
      have hnone : ∀ g ∈ groups es, g.1 ≠ e.payer := by
        intro g hg hkey
        exact hany (List.any_eq_true.mpr ⟨g, hg, decide_eq_true hkey⟩)
      have hempty : entriesOf e.payer es = [] := by
        refine List.filter_eq_nil_iff.mpr fun f hf hfe => ?_
        obtain ⟨g, hg, hgf⟩ := hall f hf
        exact hnone g hg (hgf.trans (of_decide_eq_true hfe))
      refine ⟨fun g hg => ?_, fun f hf => ?_⟩
      · rcases List.mem_append.mp hg with hg | hg
        · rw [hgroups g hg, hkeep _ (hnone g hg)]
        · rw [List.mem_singleton.mp hg, hmine, hempty]
          rfl
      · rcases List.mem_append.mp hf with hf | hf
        · obtain ⟨g, hg, hgf⟩ := hall f hf
          exact ⟨g, List.mem_append_left _ hg, hgf⟩
        · rw [List.mem_singleton.mp hf]
          exact ⟨_, List.mem_append_right _ (List.mem_singleton_self _), rfl⟩

/-- What a valid batch shows: every entry passes, and so does the group of every entry. -/
theorem valid_spec (h : (preflightPaymentBatch es slot).valid = true) (he : e ∈ es) :
    (∀ c ∈ (e.preflight slot).checks, c.ok = true) ∧
      ∀ c ∈ groupChecks (entriesOf e.payer es), c.ok = true := by
  unfold preflightPaymentBatch at h
  dsimp only at h
  rw [Bool.and_eq_true] at h
  obtain ⟨heach, hgroups⟩ := h
  constructor
  · have hone := List.all_eq_true.mp heach _ (List.mem_map_of_mem he)
    exact List.all_eq_true.mp hone
  · obtain ⟨hspec, hall⟩ := groups_spec es
    obtain ⟨g, hg, hge⟩ := hall e he
    intro c hc
    refine List.all_eq_true.mp hgroups c (List.mem_flatMap.mpr ⟨g, hg, ?_⟩)
    rw [hspec g hg, hge]
    exact hc

/-- The entry was filled in from the ledger: the mandate as decoded at this slot or before, the
source account as it is, and whether the receipt is there. -/
structure Describes (l : Ledger) (slot : Nat) (e : BatchPreflightEntry) (x : PaymentMandate)
    (a : Holding) : Prop where
  mandate : l.mandates.lookup e.payer = some x
  decoded : ∃ seen : Option Nat, (∀ t ∈ seen, t ≤ slot) ∧
    e.mandate = decodeMandate x e.payer seen e.mandate.tokenProgram
  source : l.tokens.lookup x.sourceTokenAccount = some a
  context : e.sourceContext = some ⟨a.balance, a.owner, a.delegate, a.delegatedAmount⟩
  receipt : e.receiptAlreadyExists.getD false = decide (e.receipt ∈ l.receipts)
  width : x.totalLimit < 2 ^ 64
  count : x.paymentCount < 2 ^ 64 - 1

structure Truthful (l : Ledger) (slot : Nat) (es : List BatchPreflightEntry) : Prop where
  width : slot < 2 ^ 64
  entries : ∀ e ∈ es, ∃ x a, Describes l slot e x a

/-- One entry per mandate and invoice, and counts that stay within 64 bits. -/
def Apart (es : List BatchPreflightEntry) : Prop :=
  (es.map (·.receipt)).Nodup ∧
    ∀ e ∈ es, e.mandate.paymentCount + (entriesOf e.payer es).length < 2 ^ 64

variable {x : PaymentMandate} {a : Holding}

/-- An active mandate was neither revoked nor paused. -/
theorem mandateStatus_active {paused revoked : Bool} {expires : Nat} {seen : Option Nat}
    (h : mandateStatus paused revoked expires seen = .active) :
    revoked = false ∧ paused = false := by
  unfold mandateStatus at h
  cases revoked
  · cases paused
    · exact ⟨rfl, rfl⟩
    · cases h
  · cases h

/-- A mandate that was neither revoked nor paused and has not expired shows as active. -/
theorem mandateStatus_of_live {expires : Nat} {seen : Option Nat} (hexpires : slot < expires)
    (hseen : ∀ t ∈ seen, t ≤ slot) : mandateStatus false false expires seen = .active := by
  unfold mandateStatus
  cases seen with
  | none => rfl
  | some t =>
    have ht := hseen t rfl
    have hnot : ¬ expires ≤ t := by omega
    simp [hnot]

/-- What the total of a group is when its amounts are positive. -/
theorem totalAmount_eq {group : Group} (h : ∀ e ∈ group, 0 < e.request.amount) :
    group.totalAmount = ((group.map (·.amount)).sum : Nat) := by
  induction group with
  | nil => rfl
  | cons e group ih =>
    have hfirst := h e List.mem_cons_self
    have hrest := ih fun f hf => h f (List.mem_cons_of_mem _ hf)
    have hamount : (e.amount : Int) = e.request.amount := Int.toNat_of_nonneg (Int.le_of_lt hfirst)
    unfold Group.totalAmount at hrest ⊢
    rw [List.map_cons, List.sum_cons, List.map_cons, List.sum_cons, hrest]
    push_cast
    rw [hamount]

/-- The decoded mandate has the fields of the account. -/
theorem Describes.fields (h : Describes l slot e x a) : e.mandate.toPaymentMandate = x := by
  obtain ⟨seen, -, hdec⟩ := h.decoded
  rw [hdec]
  rfl

theorem Describes.status (h : Describes l slot e x a) :
    ∃ seen : Option Nat, (∀ t ∈ seen, t ≤ slot) ∧
      e.mandate.status = mandateStatus x.paused x.revoked x.expiresAtSlot seen := by
  obtain ⟨seen, hseen, hdec⟩ := h.decoded
  refine ⟨seen, hseen, ?_⟩
  rw [hdec]
  rfl

/-- What the checks of one payment show, when the entry is true. -/
structure Passed (l : Ledger) (slot : Nat) (e : BatchPreflightEntry) (x : PaymentMandate)
    (a : Holding) : Prop where
  live : x.revoked = false ∧ x.paused = false ∧ slot < x.expiresAtSlot
  positive : 0 < e.request.amount
  perPayment : e.request.amount ≤ x.maxPerPayment
  cooldown : x.lastPaymentSlot = 0 ∨ x.lastPaymentSlot + x.cooldownSlots ≤ slot
  hashes : e.request.invoiceHash ≠ 0 ∧ e.request.paymentId ≠ 0 ∧ e.request.signatureReference ≠ 0
  fresh : e.receipt ∉ l.receipts
  owner : a.owner = x.owner
  delegate : a.delegate = some e.payer

theorem Describes.passed (h : Describes l slot e x a)
    (hpass : ∀ c ∈ (e.preflight slot).checks, c.ok = true) : Passed l slot e x a := by
  obtain ⟨seen, hseen, hstatus⟩ := h.status
  have hreceipt := h.receipt
  unfold BatchPreflightEntry.preflight preflightPayment paymentChecks at hpass
  rw [h.context] at hpass
  simp only [sourceAccountChecks, List.cons_append, List.nil_append, List.forall_mem_cons, check,
    decide_eq_true_eq, Bool.or_eq_true, Bool.and_eq_true, Bool.not_eq_true', h.fields, hstatus,
    hreceipt, decide_eq_false_iff_not] at hpass
  obtain ⟨hactive, -, -, -, hpos, hmax, -, -, hcool, hexpiry, hinvoice, hid, hreference, hfresh, -,
    howner, -, hdelegate, -⟩ := hpass
  obtain ⟨hrevoked, hpaused⟩ := mandateStatus_active hactive
  exact ⟨⟨hrevoked, hpaused, hexpiry⟩, hpos, hmax, hcool, ⟨hinvoice, hid, hreference⟩, hfresh,
    howner, hdelegate⟩

/-- What the checks of a group show, when its first entry is true. -/
theorem Describes.group (h : Describes l slot e x a) {rest : Group}
    (hpos : ∀ f ∈ e :: rest, 0 < f.request.amount)
    (hpass : ∀ c ∈ groupChecks (e :: rest), c.ok = true) :
    x.amountSpent + ((e :: rest).map (·.amount)).sum ≤ x.totalLimit ∧
      (x.maxPaymentCount = 0 ∨ x.paymentCount + (e :: rest).length ≤ x.maxPaymentCount) ∧
      ((e :: rest).length ≤ 1 ∨ x.cooldownSlots = 0) ∧
      ((e :: rest).map (·.amount)).sum ≤ a.balance ∧
      ((e :: rest).map (·.amount)).sum ≤ a.delegatedAmount := by
  have htotal := totalAmount_eq hpos
  change ∀ c ∈ batchChecksForMandateGroup (e :: rest) e.mandate, c.ok = true at hpass
  unfold batchChecksForMandateGroup at hpass
  rw [List.findSome?_cons, h.context] at hpass
  simp only [List.cons_append, List.nil_append, List.forall_mem_cons, check, decide_eq_true_eq,
    Bool.or_eq_true, Bool.and_eq_true, h.fields, htotal] at hpass
  obtain ⟨hlimit, hcount, hcool, hbalance, ⟨-, hallowance⟩, -⟩ := hpass
  exact ⟨by omega, hcount, hcool, by omega, by omega⟩

/-- A batch that is valid, true and apart is covered. -/
theorem Truthful.enough (h : Truthful l slot es)
    (hvalid : (preflightPaymentBatch es slot).valid = true) (hapart : Apart es) :
    Enough slot l es := by
  have hpassed : ∀ e ∈ es, ∃ x a, Describes l slot e x a ∧ Passed l slot e x a := by
    intro e he
    obtain ⟨x, a, hd⟩ := h.entries e he
    exact ⟨x, a, hd, hd.passed (valid_spec hvalid he).1⟩
  refine ⟨h.width, fun e he => ?_, fun e he => ?_, hapart.1⟩
  · obtain ⟨x, a, hd, hp⟩ := hpassed e he
    have hgroup := (valid_spec hvalid he).2
    have hcount := hapart.2 e he
    rw [hd.fields] at hcount
    -- the first entry of the group has the same mandate and the same account
    cases hentries : entriesOf e.payer es with
    | nil => exact absurd (mem_entriesOf he) (by rw [hentries]; exact List.not_mem_nil)
    | cons f rest =>
      have hmem : ∀ r ∈ f :: rest, r ∈ es ∧ r.payer = e.payer := by
        intro r hr
        rw [← hentries] at hr
        obtain ⟨hr, hpayer⟩ := List.mem_filter.mp hr
        exact ⟨hr, of_decide_eq_true hpayer⟩
      have hpos : ∀ r ∈ f :: rest, 0 < r.request.amount := by
        intro r hr
        obtain ⟨_, _, -, hpr⟩ := hpassed r (hmem r hr).1
        exact hpr.positive
      obtain ⟨hf, hfe⟩ := hmem f List.mem_cons_self
      obtain ⟨y, b, hdf, -⟩ := hpassed f hf
      have hy := hdf.mandate
      rw [hfe, hd.mandate] at hy
      cases hy
      cases hd.source.symm.trans hdf.source
      rw [hentries] at hgroup hcount
      obtain ⟨htotal, hmax, hagain, hbalance, hallowance⟩ := hdf.group hpos hgroup
      obtain ⟨hrevoked, hpaused, hexpiry⟩ := hp.live
      obtain ⟨hinvoice, hid, hreference⟩ := hp.hashes
      have hamount : (e.amount : Int) = e.request.amount :=
        Int.toNat_of_nonneg (Int.le_of_lt hp.positive)
      have hpositive := hp.positive
      have hper := hp.perPayment
      refine ⟨x, a, hd.mandate, hd.source, ?_⟩
      exact
        { revoked := hrevoked, paused := hpaused, expiry := hexpiry
          positive := by omega
          perPayment := by omega
          invoiceHash := hinvoice, paymentId := hid, signatureReference := hreference
          width := hd.width
          total := by rw [totalOf, hentries]; exact htotal
          countWidth := by rw [hentries]; exact hcount
          count := by rw [hentries]; exact hmax
          cooldown := hp.cooldown
          again := by rw [hentries]; exact hagain
          owner := hp.owner, delegate := hp.delegate
          balance := by rw [totalOf, hentries]; exact hbalance
          allowance := by rw [totalOf, hentries]; exact hallowance }
  · obtain ⟨x, a, -, hp⟩ := hpassed e he
    exact hp.fresh

/-- A payment that the policy lets through passes the checks that stand for the policy. -/
theorem Describes.policy_ok (h : Describes l slot e x a)
    (hvalid : validatePayment x e.request.params slot = .ok ()) :
    ∀ c ∈ (e.preflight slot).checks ++ groupChecks [e], c.name ∈ policyNames → c.ok = true := by
  obtain ⟨seen, hseen, hstatus⟩ := h.status
  obtain ⟨hrevoked, hpaused, hexpiry, hpos, hmax, hinvoice, hid, hreference, -, htotal, -, hcount,
    hcool⟩ := validatePayment_ok.mp hvalid
  have hactive : mandateStatus x.paused x.revoked x.expiresAtSlot seen = .active := by
    rw [hrevoked, hpaused]
    exact mandateStatus_of_live hexpiry hseen
  change 0 < e.request.amount.toNat at hpos
  change e.request.amount.toNat ≤ x.maxPerPayment at hmax
  change x.amountSpent + e.request.amount.toNat ≤ x.totalLimit at htotal
  have hpositive : 0 < e.request.amount := by omega
  have hper : e.request.amount ≤ x.maxPerPayment := by omega
  have hlimit : (x.amountSpent : Int) + e.request.amount ≤ x.totalLimit := by omega
  have hcooled : x.lastPaymentSlot = 0 ∨ x.lastPaymentSlot + x.cooldownSlots ≤ slot :=
    hcool.imp_right And.right
  rw [List.forall_mem_append]
  constructor
  · unfold BatchPreflightEntry.preflight preflightPayment paymentChecks
    rw [h.context]
    simp only [sourceAccountChecks, List.cons_append, List.nil_append, List.forall_mem_cons, check,
      decide_eq_true_eq, Bool.or_eq_true, Bool.and_eq_true, h.fields, hstatus, hactive]
    exact ⟨fun _ => trivial, fun hn => absurd hn (by decide), fun hn => absurd hn (by decide),
      fun hn => absurd hn (by decide), fun _ => hpositive, fun _ => hper,
      fun _ => ⟨Int.le_of_lt hpositive, hlimit⟩, fun _ => hcount, fun _ => hcooled,
      fun _ => hexpiry, fun _ => hinvoice, fun _ => hid, fun _ => hreference,
      fun hn => absurd hn (by decide), fun hn => absurd hn (by decide),
      fun hn => absurd hn (by decide), fun hn => absurd hn (by decide),
      fun hn => absurd hn (by decide), fun hn => absurd hn (by decide), fun _ hc => nomatch hc⟩
  · change ∀ c ∈ batchChecksForMandateGroup [e] e.mandate, c.name ∈ policyNames → c.ok = true
    unfold batchChecksForMandateGroup
    rw [List.findSome?_cons, h.context]
    simp only [List.cons_append, List.nil_append, List.forall_mem_cons, check, decide_eq_true_eq,
      Bool.or_eq_true, Bool.and_eq_true, h.fields, Group.totalAmount, List.map_cons, List.map_nil,
      List.sum_cons, List.sum_nil, List.length_singleton]
    exact ⟨fun _ => by omega, fun _ => hcount, fun _ => .inl (Nat.le_refl _),
      fun hn => absurd hn (by decide), fun hn => absurd hn (by decide), fun _ hc => nomatch hc⟩

/-- **Preflight and program.** Over a true picture of the chain, a batch that passes is settled
entry by entry exactly when no two of its entries have one mandate and invoice and no payment count
runs over; and a single payment that fails a policy check is refused by the program's policy. -/
theorem preflight_settles (h : Truthful l slot es) :
    ((preflightPaymentBatch es slot).valid = true →
      ((∃ l', settleAll slot l es = .ok l') ↔ Apart es)) ∧
    ∀ e, es = [e] → ∀ c ∈ (e.preflight slot).checks ++ (preflightPaymentBatch [e] slot).batchChecks,
      c.name ∈ policyNames → c.ok = false →
      ∀ x, l.mandates.lookup e.payer = some x →
        ∃ err, validatePayment x e.request.params slot = .error err := by
  constructor
  · intro hvalid
    constructor
    · rintro ⟨l', hl'⟩
      refine ⟨(settled_distinct hl').1, fun e he => ?_⟩
      obtain ⟨x, a, hd⟩ := h.entries e he
      have hcount := hd.count
      rw [hd.fields]
      exact settled_count hl' hd.mandate (by omega)
    · intro hapart
      exact (h.enough hvalid hapart).settleAll
  · rintro e rfl c hc hname hfail x hx
    obtain ⟨y, a, hd⟩ := h.entries e List.mem_cons_self
    cases hx.symm.trans hd.mandate
    cases hv : validatePayment x e.request.params slot with
    | error err => exact ⟨err, rfl⟩
    | ok u =>
      have hchecks : (preflightPaymentBatch [e] slot).batchChecks = groupChecks [e] := by
        simp [preflightPaymentBatch, groups, addToGroup]
      rw [hchecks] at hc
      exact nomatch (hd.policy_ok hv c hc hname).symm.trans hfail

/-! ### A batch that pays one invoice twice -/

def sampleMandate : PaymentMandate where
  owner := 1
  approvedAgent := 2
  sourceTokenAccount := 3
  allowedMint := 4
  legacyAllowedRecipient := 0
  maxPerPayment := 10
  totalLimit := 100
  amountSpent := 0
  paymentCount := 0
  expiresAtSlot := 50
  maxPaymentCount := 0
  cooldownSlots := 0
  lastPaymentSlot := 0
  paused := false
  revoked := false

/-- A mandate on another account, which has paid before. -/
def otherMandate : PaymentMandate :=
  { sampleMandate with
    sourceTokenAccount := 5
    amountSpent := 20
    paymentCount := 3
    maxPaymentCount := 9
    cooldownSlots := 4
    lastPaymentSlot := 12 }

def sampleLedger : Ledger where
  mandates := ((∅ : Table Pubkey PaymentMandate).insert 8 otherMandate).insert 7 sampleMandate
  receipts := [(8, 10)]
  tokens := ((∅ : Table Pubkey Holding).insert 5 ⟨1, 60, some 8, 60⟩).insert 3 ⟨1, 40, some 7, 30⟩

def sampleEntry : BatchPreflightEntry where
  request := ⟨11, 12, 13, 4, 9, 5, none⟩
  mandate := decodeMandate sampleMandate 7 (some 20) none
  agent := some 2
  receiptAlreadyExists := some false
  sourceContext := some ⟨40, 1, some 7, 30⟩

/-- The same invoice under the other mandate, paid into the first one's account. -/
def otherEntry : BatchPreflightEntry where
  request := ⟨11, 22, 23, 4, 3, 6, none⟩
  mandate := decodeMandate otherMandate 8 (some 18) none
  agent := some 2
  receiptAlreadyExists := some false
  sourceContext := some ⟨60, 1, some 8, 60⟩

/-- A second payment under the first mandate. -/
def laterEntry : BatchPreflightEntry :=
  { sampleEntry with request := ⟨31, 32, 33, 4, 9, 10, none⟩ }

def sampleEntries : List BatchPreflightEntry := [sampleEntry, otherEntry, laterEntry]

theorem sample_truthful {es : List BatchPreflightEntry} (h : es ⊆ sampleEntries) :
    Truthful sampleLedger 20 es where
  width := by decide
  entries := by
    intro e he
    have hmem := h he
    simp only [sampleEntries, List.mem_cons, List.not_mem_nil, or_false] at hmem
    rcases hmem with rfl | rfl | rfl
    · exact ⟨sampleMandate, ⟨1, 40, some 7, 30⟩, by decide, ⟨some 20, by simp, rfl⟩, by decide,
        rfl, by decide, by decide, by decide⟩
    · exact ⟨otherMandate, ⟨1, 60, some 8, 60⟩, by decide, ⟨some 18, by simp, rfl⟩, by decide,
        rfl, by decide, by decide, by decide⟩
    · exact ⟨sampleMandate, ⟨1, 40, some 7, 30⟩, by decide, ⟨some 20, by simp, rfl⟩, by decide,
        rfl, by decide, by decide, by decide⟩

/-- Three payments under two mandates, two of them for one invoice. -/
theorem preflight_settles_sample :
    (preflightPaymentBatch sampleEntries 20).valid = true ∧
      ∃ l', settleAll 20 sampleLedger sampleEntries = .ok l' := by
  have hvalid : (preflightPaymentBatch sampleEntries 20).valid = true := by decide
  have hapart : Apart sampleEntries := by
    refine ⟨by decide, ?_⟩
    intro e he
    simp only [sampleEntries, List.mem_cons, List.not_mem_nil, or_false] at he
    rcases he with rfl | rfl | rfl
    · decide
    · decide
    · decide
  have htrue := sample_truthful (List.Subset.refl sampleEntries)
  exact ⟨hvalid, ((preflight_settles htrue).1 hvalid).mpr hapart⟩

/-- The same entry twice passes, and its second payment finds the receipt of the first. -/
theorem repeated_invoice_passes :
    ∃ l slot es, Truthful l slot es ∧ (preflightPaymentBatch es slot).valid = true ∧
      ¬ ∃ l', settleAll slot l es = .ok l' := by
  refine ⟨sampleLedger, 20, [sampleEntry, sampleEntry], sample_truthful ?_, by decide, ?_⟩
  · intro e he
    rcases List.mem_pair.mp he with rfl | rfl
    · exact List.mem_cons_self
    · exact List.mem_cons_self
  · rintro ⟨l', hl'⟩
    have hnodup := (settled_distinct hl').1
    simp at hnodup

end ChainPay.Sdk
