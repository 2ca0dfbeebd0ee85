import ChainPay.Relay.Runs

/-!
What every interleaving of the relay's calls keeps in order. Claims are never changed and
terminal rows never written again (`Later`). A row belongs to the operation its key names,
a confirmed row is backed by the chain, and every send was licensed by two claims: the
payment's, for its message, and the order's, for its key (`Orderly`).

`Policy` lets a result say more: which submissions may be claimed when, and what follows
of the claims.
-/

namespace ChainPay.Relay
open ChainPay.Lib

/-! ## Later stores -/

structure Later (s s' : Store) : Prop where
  operations : ∀ id c, s.operations.lookup id = some c → s'.operations.lookup id = some c
  terminal : ∀ id r, s.payments.lookup id = some r → r.status.terminal = true →
    s'.payments.lookup id = some r
  stored : ∀ id, (s.payments.lookup id).isSome → (s'.payments.lookup id).isSome
  final : ∀ sig ok, s.final.lookup sig = some ok → s'.final.lookup sig = some ok
  receipts : ∀ a x, s.receipts.lookup a = some x → s'.receipts.lookup a = some x

theorem Later.refl (s : Store) : Later s s :=
  ⟨fun _ _ h => h, fun _ _ h _ => h, fun _ h => h, fun _ _ h => h, fun _ _ h => h⟩

theorem Later.trans {a b c : Store} (hab : Later a b) (hbc : Later b c) : Later a c where
  operations := fun id x h => hbc.operations id x (hab.operations id x h)
  terminal := fun id r h ht => hbc.terminal id r (hab.terminal id r h ht) ht
  stored := fun id h => hbc.stored id (hab.stored id h)
  final := fun sig ok h => hbc.final sig ok (hab.final sig ok h)
  receipts := fun a x h => hbc.receipts a x (hab.receipts a x h)

theorem SameCore.later {s s' : Store} (h : SameCore s s') : Later s s' := by
  refine ⟨?_, ?_, ?_, ?_, ?_⟩
  · rw [h.operations]
    exact fun _ _ h => h
  · rw [h.payments]
    exact fun _ _ h _ => h
  · rw [h.payments]
    exact fun _ h => h
  · rw [h.final]
    exact fun _ _ h => h
  · rw [h.receipts]
    exact fun _ _ h => h

/-- What a claim finds afterwards: the first one made. -/
theorem claim_lookup (s : Store) (id : String) (c : Claim) :
    (s.claim id c).operations.lookup id = some ((s.operations.lookup id).getD c) := by
  unfold Store.claim
  cases h : s.operations.lookup id with
  | none => exact AList.lookup_insert _
  | some c' => exact h

theorem claim_later (s : Store) (id : String) (c : Claim) : Later s (s.claim id c) := by
  unfold Store.claim
  cases h : s.operations.lookup id with
  | some c' => exact .refl s
  | none =>
    refine ⟨?_, fun _ _ h _ => h, fun _ h => h, fun _ _ h => h, fun _ _ h => h⟩
    intro j x hj
    have hne : j ≠ id := by
      rintro rfl
      cases h.symm.trans hj
    change (s.operations.insert id c).lookup j = some x
    rw [AList.lookup_insert_ne hne]
    exact hj

/-- A payment write replaces the row or leaves it, and leaves a terminal one. -/
theorem putPayment_cases (s : Store) (r : PaymentRecord) :
    (s.putPayment r = s ∧ (s.payments.lookup r.paymentId).isSome) ∨
      s.putPayment r = { s with payments := s.payments.insert r.paymentId r } ∧
        ∀ old, s.payments.lookup r.paymentId = some old → old.status.terminal = false := by
  cases h : s.payments.lookup r.paymentId with
  | none =>
    refine .inr ⟨?_, ?_⟩
    · simp only [Store.putPayment, h]
    · intro old hold
      cases hold
  | some old =>
    by_cases hc : old.status.terminal = true ∨ r.updatedAtMs < old.updatedAtMs
    · refine .inl ⟨?_, rfl⟩
      simp only [Store.putPayment, h, if_pos hc]
    · refine .inr ⟨?_, ?_⟩
      · simp only [Store.putPayment, h, if_neg hc]
      · intro old' hold
        cases hold
        rw [not_or] at hc
        exact Bool.eq_false_iff.mpr hc.1

theorem putPayment_later (s : Store) (r : PaymentRecord) : Later s (s.putPayment r) := by
  rcases putPayment_cases s r with ⟨h, -⟩ | ⟨h, hold⟩
  · rw [h]
    exact .refl s
  · rw [h]
    refine ⟨fun _ _ h => h, ?_, ?_, fun _ _ h => h, fun _ _ h => h⟩
    · intro id x hx ht
      have hne : id ≠ r.paymentId := by
        rintro rfl
        cases ht.symm.trans (hold x hx)
      change (s.payments.insert r.paymentId r).lookup id = some x
      rw [AList.lookup_insert_ne hne]
      exact hx
    · intro id hid
      change ((s.payments.insert r.paymentId r).lookup id).isSome
      by_cases hne : id = r.paymentId
      · rw [hne, AList.lookup_insert]
        rfl
      · rw [AList.lookup_insert_ne hne]
        exact hid

theorem putPayment_stored (s : Store) (r : PaymentRecord) :
    ((s.putPayment r).payments.lookup r.paymentId).isSome := by
  rcases putPayment_cases s r with ⟨h, hs⟩ | ⟨h, -⟩
  · rw [h]
    exact hs
  · rw [h]
    change ((s.payments.insert r.paymentId r).lookup r.paymentId).isSome
    rw [AList.lookup_insert]
    rfl

theorem finalize_later (s : Store) (sig : String) (ok : Bool) : Later s (s.finalize sig ok) := by
  unfold Store.finalize
  cases h : s.final.lookup sig with
  | some _ => exact .refl s
  | none =>
    refine ⟨fun _ _ h => h, fun _ _ h _ => h, fun _ h => h, ?_, fun _ _ h => h⟩
    intro j y hj
    have hne : j ≠ sig := by
      rintro rfl
      cases h.symm.trans hj
    change (s.final.insert sig ok).lookup j = some y
    rw [AList.lookup_insert_ne hne]
    exact hj

theorem addReceipt_later (s : Store) (address : String) (account : RpcAccount) :
    Later s (s.addReceipt address account) := by
  unfold Store.addReceipt
  cases h : s.receipts.lookup address with
  | some _ => exact .refl s
  | none =>
    refine ⟨fun _ _ h => h, fun _ _ h _ => h, fun _ h => h, fun _ _ h => h, ?_⟩
    intro j y hj
    have hne : j ≠ address := by
      rintro rfl
      cases h.symm.trans hj
    change (s.receipts.insert address account).lookup j = some y
    rw [AList.lookup_insert_ne hne]
    exact hj

theorem outside_later (x : Ext) (s : Store) : Later s (outside x s) := by
  cases x with
  | finalized sig ok => exact finalize_later s sig ok
  | receipt address account => exact addReceipt_later s address account

/-- What the chain does leaves the relay's rows and its log of sends alone. -/
theorem outside_rows (x : Ext) (s : Store) :
    (outside x s).operations = s.operations ∧ (outside x s).payments = s.payments ∧
      (outside x s).jobs = s.jobs ∧ (outside x s).sent = s.sent := by
  cases x with
  | finalized sig ok =>
    simp only [outside, Store.finalize]
    split
    all_goals exact ⟨rfl, rfl, rfl, rfl⟩
  | receipt address account =>
    simp only [outside, Store.addReceipt]
    split
    all_goals exact ⟨rfl, rfl, rfl, rfl⟩

/-- Claiming what is already claimed changes nothing. -/
theorem claim_taken {s : Store} {id : String} {c c' : Claim} (h : s.operations.lookup id = some c') :
    s.claim id c = s := by
  unfold Store.claim
  rw [h]

/-- The store after a send. -/
def Store.note (s : Store) (x : Sent) : Store := { s with sent := s.sent ++ [x] }

theorem note_later (s : Store) (x : Sent) : Later s (s.note x) :=
  ⟨fun _ _ h => h, fun _ _ h _ => h, fun _ h => h, fun _ _ h => h, fun _ _ h => h⟩

theorem putX402_cases (s : Store) (j : Job) :
    s.putX402 j = s ∨ s.putX402 j = { s with jobs := s.jobs.insert j.x402PaymentId j } := by
  unfold Store.putX402
  split
  · split
    · exact .inl rfl
    · split
      · exact .inl rfl
      · exact .inr rfl
  · exact .inr rfl

theorem putX402_later (s : Store) (j : Job) : Later s (s.putX402 j) := by
  rcases putX402_cases s j with h | h
  · rw [h]
    exact .refl s
  · rw [h]
    exact ⟨fun _ _ h => h, fun _ _ h _ => h, fun _ h => h, fun _ _ h => h, fun _ _ h => h⟩

/-- Two records of one operation. -/
structure SameOperation (r r' : PaymentRecord) : Prop where
  paymentId : r'.paymentId = r.paymentId
  idempotencyKey : r'.idempotencyKey = r.idempotencyKey
  mandate : r'.mandate = r.mandate
  invoiceHash : r'.invoiceHash = r.invoiceHash

theorem SameOperation.trans {a b c : PaymentRecord} (hab : SameOperation a b)
    (hbc : SameOperation b c) : SameOperation a c :=
  ⟨hbc.1.trans hab.1, hbc.2.trans hab.2, hbc.3.trans hab.3, hbc.4.trans hab.4⟩

section

variable [R : Deployment]

/-! ## Records -/

/-- The chain backs a confirmed record: its signature is final without an error, and the
receipt is there and matches. -/
def Backed (s : Store) (r : PaymentRecord) : Prop :=
  ∃ sig address account, r.signature = some sig ∧ s.final.lookup sig = some true ∧
    r.receiptAddress = some address ∧ s.receipts.lookup address = some account ∧
    verifyReceiptAccount account r = true

theorem Backed.mono {s s' : Store} {r : PaymentRecord} (h : Backed s r) (hl : Later s s') :
    Backed s' r := by
  obtain ⟨sig, address, account, h₁, h₂, h₃, h₄, h₅⟩ := h
  exact ⟨sig, address, account, h₁, hl.final _ _ h₂, h₃, hl.receipts _ _ h₄, h₅⟩

/-- Which submissions may be claimed, what the claims satisfy (`Extra`), and what every
record (`Row`) and every connector job (`Job`) satisfies. -/
structure Policy where
  Extra : Store → Prop
  May : Store → Principal → PaymentSubmissionRequest → SigningMode → Prop
  Row : Store → PaymentRecord → Prop
  Job : Store → Relay.Job → Prop
  may_mono : ∀ {s s' p r m}, Later s s' → May s p r m → May s' p r m
  row_mono : ∀ {s s' r}, Later s s' → Row s r → Row s' r
  row_congr : ∀ {s r r'}, SameOperation r r' → Row s r → Row s r'
  job_mono : ∀ {s s' j}, Later s s' → Job s j → Job s' j
  job_congr : ∀ {s j j'}, j'.idempotencyKey = j.idempotencyKey → j'.connector = j.connector →
    Job s j → Job s j'
  job_claimed : ∀ {s c i r x}, s.operations.lookup (paymentId r.idempotencyKey) = some c →
    c.intent = .payment i → connectorOf i.x402 i.crossmint = some x → Job s (jobOf r x)
  extra_mono : ∀ {s s'}, s'.operations = s.operations → Later s s' → Extra s → Extra s'
  extra_claim : ∀ {s p r m i} sig created updated, intent r m = .ok i → May s p r m →
    s.operations.lookup (paymentId r.idempotencyKey) = none → Extra s →
    let s' := s.claim (paymentId r.idempotencyKey)
      ⟨p.wallet, .payment i, .payment (initialRecord r m sig created updated)⟩
    Extra s' ∧ Row s' (initialRecord r m sig created updated)
  extra_other : ∀ {s id c}, s.operations.lookup id = none → (∀ i, c.intent ≠ .payment i) →
    Extra s → Extra (s.claim id c)

/-- Any submission may be claimed. -/
def Policy.open : Policy where
  Extra := fun _ => True
  May := fun _ _ _ _ => True
  Row := fun _ _ => True
  Job := fun _ _ => True
  may_mono := fun _ h => h
  row_mono := fun _ h => h
  row_congr := fun _ h => h
  job_mono := fun _ h => h
  job_congr := fun _ _ h => h
  job_claimed := fun _ _ _ => trivial
  extra_mono := fun _ _ h => h
  extra_claim := fun _ _ _ _ _ _ _ => ⟨trivial, trivial⟩
  extra_other := fun _ _ h => h

/-- A record a call holds: it belongs to the operation its key names, and is backed if it
is confirmed and the RPC is honest. -/
structure Good (P : Policy) (honest : Prop) (s : Store) (r : PaymentRecord) : Prop where
  named : r.paymentId = paymentId r.idempotencyKey
  row : P.Row s r
  backed : honest → r.status = .confirmed → Backed s r

variable {P : Policy} {honest : Prop} {s s' : Store} {r r' : PaymentRecord}

theorem Good.mono (h : Good P honest s r) (hl : Later s s') : Good P honest s' r :=
  ⟨h.named, P.row_mono hl h.row, fun hh hc => (h.backed hh hc).mono hl⟩

theorem Good.update (h : Good P honest s r) (hs : SameOperation r r')
    (hc : r'.status ≠ .confirmed) : Good P honest s r' where
  named := by rw [hs.paymentId, hs.idempotencyKey]; exact h.named
  row := P.row_congr hs h.row
  backed := fun _ h => absurd h hc

/-! ## The invariant -/

/-- A send belongs to a claimed payment with its message; if it pays an order, the order is
claimed for this payment's key. -/
def Licensed (s : Store) (x : Sent) : Prop :=
  ∃ c i tx, s.operations.lookup x.origin.paymentId = some c ∧ c.intent = .payment i ∧
    R.decode x.bytes = some tx ∧ i.message = messageHash tx ∧
    ∀ o, x.origin.order = some o → ∃ oc key,
      s.operations.lookup (orderClaimId c.owner o) = some oc ∧ oc.intent = .order key ∧
        x.origin.paymentId = paymentId key

theorem Licensed.mono {x : Sent} (h : Licensed s x) (hl : Later s s') : Licensed s' x := by
  obtain ⟨c, i, tx, hc, hi, hd, hm, ho⟩ := h
  refine ⟨c, i, tx, hl.operations _ _ hc, hi, hd, hm, fun o hx => ?_⟩
  obtain ⟨oc, key, hoc, hk, hid⟩ := ho o hx
  exact ⟨oc, key, hl.operations _ _ hoc, hk, hid⟩

structure Orderly (P : Policy) (honest : Prop) (s : Store) : Prop where
  rows : ∀ id r, s.payments.lookup id = some r → r.paymentId = id ∧ Good P honest s r
  claims : ∀ id c r, s.operations.lookup id = some c → c.initial = .payment r →
    r.paymentId = id ∧ Good P honest s r ∧ r.status = .prepared
  jobs : ∀ id j, s.jobs.lookup id = some j → P.Job s j
  sent : ∀ x ∈ s.sent, Licensed s x
  extra : P.Extra s

/-- Acts that leave claims, rows and sends as they are. -/
theorem Orderly.keep (h : Orderly P honest s) (hops : s'.operations = s.operations)
    (hpay : s'.payments = s.payments) (hjobs : s'.jobs = s.jobs) (hsent : s'.sent = s.sent)
    (hl : Later s s') : Orderly P honest s' where
  rows := by
    rw [hpay]
    exact fun id r hr => ⟨(h.rows id r hr).1, (h.rows id r hr).2.mono hl⟩
  claims := by
    rw [hops]
    intro id c r hc hr
    obtain ⟨h₁, h₂, h₃⟩ := h.claims id c r hc hr
    exact ⟨h₁, h₂.mono hl, h₃⟩
  jobs := by
    rw [hjobs]
    exact fun id j hj => P.job_mono hl (h.jobs id j hj)
  sent := by
    rw [hsent]
    exact fun x hx => (h.sent x hx).mono hl
  extra := P.extra_mono hops hl h.extra

theorem Orderly.core (h : Orderly P honest s) (hc : SameCore s s') : Orderly P honest s' :=
  h.keep hc.operations hc.payments hc.jobs hc.sent hc.later

theorem Orderly.outside (h : Orderly P honest s) (x : Ext) : Orderly P honest (outside x s) := by
  obtain ⟨hops, hpay, hjobs, hsent⟩ := outside_rows x s
  exact h.keep hops hpay hjobs hsent (outside_later x s)

/-- A new claim leaves the rest in order, once it is itself. -/
theorem Orderly.claim {id : String} {c : Claim} (h : Orderly P honest s)
    (hnone : s.operations.lookup id = none)
    (hnew : ∀ r, c.initial = .payment r →
      r.paymentId = id ∧ Good P honest (s.claim id c) r ∧ r.status = .prepared)
    (hextra : P.Extra (s.claim id c)) : Orderly P honest (s.claim id c) := by
  have hl := claim_later s id c
  have hops : (s.claim id c).operations = s.operations.insert id c := by
    unfold Store.claim
    rw [hnone]
  have hpay : (s.claim id c).payments = s.payments := by
    unfold Store.claim
    rw [hnone]
  have hjobs : (s.claim id c).jobs = s.jobs := by
    unfold Store.claim
    rw [hnone]
  have hsent : (s.claim id c).sent = s.sent := by
    unfold Store.claim
    rw [hnone]
  refine ⟨?_, ?_, ?_, ?_, hextra⟩
  · rw [hpay]
    exact fun j r hr => ⟨(h.rows j r hr).1, (h.rows j r hr).2.mono hl⟩
  · rw [hops]
    intro j x r hj hr
    by_cases hne : j = id
    · subst hne
      rw [AList.lookup_insert] at hj
      cases hj
      exact hnew r hr
    · rw [AList.lookup_insert_ne hne] at hj
      obtain ⟨h₁, h₂, h₃⟩ := h.claims j x r hj hr
      exact ⟨h₁, h₂.mono hl, h₃⟩
  · rw [hjobs]
    exact fun j x hx => P.job_mono hl (h.jobs j x hx)
  · rw [hsent]
    exact fun x hx => (h.sent x hx).mono hl

theorem Orderly.claimOther {id : String} {c : Claim} (h : Orderly P honest s)
    (hi : ∀ i, c.intent ≠ .payment i) (hr : ∀ r, c.initial ≠ .payment r) :
    Orderly P honest (s.claim id c) := by
  cases hn : s.operations.lookup id with
  | some c' =>
    rw [claim_taken hn]
    exact h
  | none => exact h.claim hn (fun r hr' => absurd hr' (hr r)) (P.extra_other hn hi h.extra)

theorem Orderly.claimPayment {p : Principal} {q : PaymentSubmissionRequest} {m : SigningMode}
    {i : Intent} {sig : Option String} {created updated : Nat} (h : Orderly P honest s)
    (hi : intent q m = .ok i) (hmay : P.May s p q m) :
    Orderly P honest (s.claim (paymentId q.idempotencyKey)
      ⟨p.wallet, .payment i, .payment (initialRecord q m sig created updated)⟩) := by
  cases hn : s.operations.lookup (paymentId q.idempotencyKey) with
  | some c' =>
    rw [claim_taken hn]
    exact h
  | none =>
    obtain ⟨hextra, hrow⟩ := P.extra_claim sig created updated hi hmay hn h.extra
    refine h.claim hn ?_ hextra
    rintro r ⟨⟩
    exact ⟨rfl, ⟨rfl, hrow, nofun⟩, rfl⟩

theorem Orderly.put (h : Orderly P honest s) (hr : Good P honest s r) :
    Orderly P honest (s.putPayment r) := by
  have hl := putPayment_later s r
  rcases putPayment_cases s r with ⟨hs, -⟩ | ⟨hs, -⟩
  · rw [hs]
    exact h
  · have hops : (s.putPayment r).operations = s.operations := by rw [hs]
    have hextra := P.extra_mono hops hl h.extra
    rw [hs] at hl hextra ⊢
    refine ⟨?_, ?_, fun id j hj => P.job_mono hl (h.jobs id j hj),
      fun x hx => (h.sent x hx).mono hl, hextra⟩
    · refine forall_lookup_insert (P := fun id x => x.paymentId = id ∧ Good P honest _ x) ?_ ?_
      · exact fun id x hx => ⟨(h.rows id x hx).1, (h.rows id x hx).2.mono hl⟩
      · exact ⟨rfl, hr.mono hl⟩
    · intro id c x hc hx
      obtain ⟨h₁, h₂, h₃⟩ := h.claims id c x hc hx
      exact ⟨h₁, h₂.mono hl, h₃⟩

theorem Orderly.send (h : Orderly P honest s) {x : Sent} (hx : Licensed s x) :
    Orderly P honest (s.note x) := by
  have hl := note_later s x
  have hops : (s.note x).operations = s.operations := rfl
  refine ⟨?_, ?_, ?_, ?_, P.extra_mono hops hl h.extra⟩
  · exact fun id r hr => ⟨(h.rows id r hr).1, (h.rows id r hr).2.mono hl⟩
  · intro id c r hc hr
    obtain ⟨h₁, h₂, h₃⟩ := h.claims id c r hc hr
    exact ⟨h₁, h₂.mono hl, h₃⟩
  · exact fun id j hj => P.job_mono hl (h.jobs id j hj)
  · intro y hy
    rcases List.mem_append.mp hy with hy | hy
    · exact (h.sent y hy).mono hl
    · rw [List.mem_singleton.mp hy]
      exact hx.mono hl

theorem Orderly.putJob {j : Job} (h : Orderly P honest s) (hj : P.Job s j) :
    Orderly P honest (s.putX402 j) := by
  have hl := putX402_later s j
  rcases putX402_cases s j with hs | hs
  · rw [hs]
    exact h
  · have hops : (s.putX402 j).operations = s.operations := by rw [hs]
    have hextra := P.extra_mono hops hl h.extra
    rw [hs] at hl hextra ⊢
    refine ⟨?_, ?_, ?_, fun x hx => (h.sent x hx).mono hl, hextra⟩
    · exact fun id r hr => ⟨(h.rows id r hr).1, (h.rows id r hr).2.mono hl⟩
    · intro id c r hc hr
      obtain ⟨h₁, h₂, h₃⟩ := h.claims id c r hc hr
      exact ⟨h₁, h₂.mono hl, h₃⟩
    · refine forall_lookup_insert (P := fun _ x => P.Job _ x) ?_ ?_
      · exact fun id x hx => P.job_mono hl (h.jobs id x hx)
      · exact P.job_mono hl hj

end

end ChainPay.Relay
