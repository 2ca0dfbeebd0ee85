import ChainPay.Relay.Orderly

/-!
Every handler of the relay keeps the store orderly, whatever the other calls do between
its awaits. From this: all transactions broadcast under one payment id carry the message
hashed into the first claimed intent, all broadcasts for one order belong to one payment
id, and a cancelled key never broadcasts.
-/

namespace ChainPay.Relay
open ChainPay.Lib

/-- What the RPC reports as final is final, and a receipt it shows exists. -/
def Honest (s : Store) (o : Op) (e : Env) : Prop :=
  match o with
  | .signatureStatus signature =>
    ∀ status, e.status = .ok (some status) → status.finalized = true →
      s.final.lookup signature = some status.error.isNone
  | .accountInfo address =>
    ∀ account data, e.account = .ok (some account) → account.data = .receipt data →
      s.receipts.lookup address = some account
  | _ => True

theorem findJob_some {s : Store} {key : String} {j : Job} (h : s.findJob key = some j) :
    j.idempotencyKey = key ∧ ∃ id, s.jobs.lookup id = some j := by
  unfold Store.findJob at h
  obtain ⟨row, hrow, rfl⟩ := Option.map_eq_some_iff.mp h
  have hkey := List.find?_some hrow
  have hmem := List.mem_of_find?_eq_some hrow
  refine ⟨of_decide_eq_true hkey, row.1, ?_⟩
  exact (List.mem_dlookup_iff s.jobs.nodupKeys).mpr hmem

theorem pending_same (r : PaymentRecord) : SameOperation r (reconcile.pending r) := by
  unfold reconcile.pending
  split
  all_goals exact ⟨rfl, rfl, rfl, rfl⟩

theorem pending_status (r : PaymentRecord) (h : r.status ≠ .confirmed) :
    (reconcile.pending r).status ≠ .confirmed := by
  unfold reconcile.pending
  split
  · exact h
  · exact nofun

section

variable [R : Deployment]

/-- Any calls, against an RPC that is honest if `honest` says so. -/
def orderly {Req δ : Type} (entry : Req → M δ) (Starts : Req → Prop) (P : Policy)
    (honest : Prop) : Discipline Store Op Op.Ans Env Req Ext ApiError δ Bool where
  sys := system entry
  terms :=
    { Starts := Starts
      Meets := fun _ _ s o e => honest → Honest s o e
      Outside := fun _ _ => True }
  Inv := Orderly P honest
  Rely := Later
  Fault := fun _ _ => True
  refl := Later.refl
  trans := Later.trans

variable {Req δ β : Type} {entry : Req → M δ} {Starts : Req → Prop} {P : Policy} {honest : Prop}
  {b : Store} {g : Bool}

/-! ## Awaits -/

theorem safe_calm {E : ApiError → Prop} {c : M β} (h : Calm E c) :
    (orderly entry Starts P honest).Safe (fun _ _ _ => True) c b g := by
  induction c generalizing b g with
  | ret a => trivial
  | fail e => trivial
  | clock k ih => exact fun t => ih t (h t)
  | await o k ih =>
    intro s e hi _ _
    have hc := perform_calm h.1 e s
    exact ⟨hi.core hc, hc.later, ih _ (h.2 _)⟩

theorem safe_getPayment (id : String) :
    (orderly entry Starts P honest).Safe (fun s _ v => s.payments.lookup id = v)
      (getPayment id) b g := by
  intro s e hi _ _
  exact ⟨hi, .refl s, safe_need_read rfl trivial⟩

theorem safe_operationRecord (id : String) :
    (orderly entry Starts P honest).Safe (fun s _ v => s.operations.lookup id = v)
      (operationRecord id) b g := by
  intro s e hi _ _
  exact ⟨hi, .refl s, safe_need_read rfl trivial⟩

theorem safe_putPayment {r : PaymentRecord} (hr : Good P honest b r) :
    (orderly entry Starts P honest).Safe (fun s _ _ => (s.payments.lookup r.paymentId).isSome)
      (putPayment r) b g := by
  intro s e hi hl _
  refine ⟨write_inv hi (hi.put (hr.mono hl)) e (), ?_, safe_need_write ?_ trivial rfl⟩
  · exact write_inv (I := Later s) (.refl s) (putPayment_later s r) e ()
  · intro hb
    rw [hb]
    exact putPayment_stored s r

theorem safe_findX402 (key : String) :
    (orderly entry Starts P honest).Safe
      (fun s _ v => ∀ j, v = some j → P.Job s j ∧ j.idempotencyKey = key) (findX402 key) b g := by
  intro s e hi _ _
  refine ⟨hi, .refl s, safe_need_read ?_ trivial⟩
  intro j hj
  obtain ⟨hkey, id, hid⟩ := findJob_some hj
  exact ⟨hi.jobs id j hid, hkey⟩

theorem safe_putX402 {j : Job} (hj : P.Job b j) :
    (orderly entry Starts P honest).Safe (fun _ _ _ => True) (putX402 j) b g := by
  intro s e hi hl _
  simp only [orderly, system, perform]
  split
  · exact ⟨hi, .refl s, trivial⟩
  · refine ⟨write_inv hi (hi.putJob (P.job_mono hl hj)) e (), ?_,
      safe_need_write (fun _ => trivial) trivial rfl⟩
    exact write_inv (I := Later s) (.refl s) (putX402_later s j) e ()

theorem safe_claimOther {id owner : String} {x : Bound} {y : Initial}
    (hx : ∀ i, x ≠ .payment i) (hy : ∀ r, y ≠ .payment r) :
    (orderly entry Starts P honest).Safe
      (fun s _ (v : Bool × Claim) => s.operations.lookup id = some v.2)
      (claimOperation id owner x y) b g := by
  intro s e hi _ _
  refine ⟨write_inv hi (hi.claimOther hx hy) e _, ?_, safe_need_write ?_ trivial rfl⟩
  · exact write_inv (I := Later s) (.refl s) (claim_later s id ⟨owner, x, y⟩) e _
  · intro hb
    rw [hb]
    exact claim_lookup s id ⟨owner, x, y⟩

theorem safe_claimPayment {p : Principal} {q : PaymentSubmissionRequest} {m : SigningMode}
    {i : Intent} {sig : Option String} {created updated : Nat} (hq : intent q m = .ok i)
    (hmay : P.May b p q m) :
    (orderly entry Starts P honest).Safe
      (fun s _ (v : Bool × Claim) =>
        s.operations.lookup (paymentId q.idempotencyKey) = some v.2)
      (claimOperation (paymentId q.idempotencyKey) p.wallet (.payment i)
        (.payment (initialRecord q m sig created updated))) b g := by
  intro s e hi hl _
  refine ⟨write_inv hi (hi.claimPayment hq (P.may_mono hl hmay)) e _, ?_,
    safe_need_write ?_ trivial rfl⟩
  · exact write_inv (I := Later s) (.refl s) (claim_later s _ _) e _
  · intro hb
    rw [hb]
    exact claim_lookup s _ _

theorem safe_send {origin : Origin} {bytes : String}
    (h : Licensed b ⟨origin, bytes, .ok ()⟩) :
    (orderly entry Starts P honest).Safe (fun _ _ _ => True) (sendTransaction origin bytes) b g := by
  intro s e hi hl _
  have hx : Licensed s ⟨origin, bytes, e.send⟩ := h.mono hl
  exact ⟨hi.send hx, note_later s _, trivial⟩

theorem safe_trySignatureStatus (signature : String) :
    (orderly entry Starts P honest).Safe
      (fun s _ v => honest → ∀ status, v = .ok (some status) → status.finalized = true →
        s.final.lookup signature = some status.error.isNone)
      (trySignatureStatus signature) b g := by
  intro s e hi _ hm
  exact ⟨hi, .refl s, hm⟩

/-! ## Reconciliation -/

theorem safe_persistPayment {r : PaymentRecord} {x : Option ConnectorMetadata}
    (hb : Orderly P honest b) (hr : Good P honest b r)
    (hx : ∀ y, x = some y → P.Job b (jobOf r y)) :
    (orderly entry Starts P honest).Safe (fun s _ _ => (s.payments.lookup r.paymentId).isSome)
      (persistPayment r x) b g := by
  refine (safe_putPayment hr).seq hb fun s g _ hs hi hl => ?_
  cases x with
  | none => exact hs
  | some y =>
    refine ((safe_putX402 (P.job_mono hl (hx y rfl))).framed hi).mono ?_
    rintro s' _ _ ⟨-, -, hl'⟩
    exact hl'.stored _ hs

theorem safe_verifyFinalizedReceipt (r : PaymentRecord) :
    (orderly entry Starts P honest).Safe
      (fun s _ ok => honest → ok = true → ∃ address account, r.receiptAddress = some address ∧
        s.receipts.lookup address = some account ∧ verifyReceiptAccount account r = true)
      (verifyFinalizedReceipt r) b g := by
  unfold verifyFinalizedReceipt
  cases ha : r.receiptAddress with
  | none => exact nofun
  | some address =>
    intro s e hi _ hm
    refine ⟨hi, .refl s, ?_⟩
    rcases hacc : e.account with err | _ | account
    · simp only [orderly, system, perform, hacc]
      exact nofun
    · simp only [orderly, system, perform, hacc]
      exact nofun
    · simp only [orderly, system, perform, hacc]
      intro hh hok
      refine ⟨address, account, rfl, ?_, hok⟩
      -- only a receipt account verifies
      cases hd : account.data with
      | receipt data => exact hm hh account data hacc hd
      | mandate data => simp [verifyReceiptAccount, hd] at hok
      | other => simp [verifyReceiptAccount, hd] at hok

theorem safe_reconcile {r : PaymentRecord} {sig : String}
    {v : Except RpcError (Option SignatureStatus)} (hb : Orderly P honest b)
    (hr : Good P honest b r) (hsig : r.signature = some sig) (hc : r.status ≠ .confirmed)
    (hv : honest → ∀ status, v = .ok (some status) → status.finalized = true →
      b.final.lookup sig = some status.error.isNone) :
    (orderly entry Starts P honest).Safe
      (fun s _ (x : PaymentRecord × Bool) => Good P honest s x.1 ∧ SameOperation r x.1)
      (reconcile r v) b g := by
  have hpending : Good P honest b (reconcile.pending r) :=
    hr.update (pending_same r) (pending_status r hc)
  have hfailed : Good P honest b { r with status := .failed, error := some chainFailed } :=
    hr.update ⟨rfl, rfl, rfl, rfl⟩ nofun
  unfold reconcile
  split
  · rename_i status
    by_cases hf : status.finalized = true
    · rw [if_pos hf]
      by_cases he : status.error.isSome = true
      · rw [if_pos he]
        exact ⟨hfailed, rfl, rfl, rfl, rfl⟩
      · rw [if_neg he]
        have hnone : status.error.isNone = true := by
          cases hn : status.error with
          | none => rfl
          | some x =>
            rw [hn] at he
            exact absurd rfl he
        refine (safe_verifyFinalizedReceipt r).seq hb fun s g ok hok hi hl => ?_
        by_cases hko : ok = true
        · rw [if_pos hko]
          have hrow : P.Row s { r with status := .confirmed, slot := status.slot, error := none } :=
            P.row_congr (r := r) ⟨rfl, rfl, rfl, rfl⟩ (hr.mono hl).row
          refine ⟨⟨hr.named, hrow, ?_⟩, rfl, rfl, rfl, rfl⟩
          intro hh _
          obtain ⟨address, account, haddr, hacc, hver⟩ := hok hh hko
          have hfinal := hv hh status rfl hf
          rw [hnone] at hfinal
          exact ⟨sig, address, account, hsig, hl.final _ _ hfinal, haddr, hacc, hver⟩
        · rw [if_neg hko]
          have hkept : Good P honest s { r with
              status := .submitted, error := some receiptPending } :=
            (hr.mono hl).update ⟨rfl, rfl, rfl, rfl⟩ nofun
          exact ⟨hkept, rfl, rfl, rfl, rfl⟩
    · rw [if_neg hf]
      exact ⟨hpending, pending_same r⟩
  · exact ⟨hpending, pending_same r⟩

theorem safe_storedConnector {r : PaymentRecord} (hb : Orderly P honest b)
    (hr : Good P honest b r) :
    (orderly entry Starts P honest).Safe
      (fun s _ x => ∀ y, x = some y → P.Job s (jobOf r y)) (storedConnector r) b g := by
  refine (safe_findX402 r.idempotencyKey).seq hb fun s g found hfound hi hl => ?_
  cases found with
  | some job =>
    obtain ⟨hjob, hkey⟩ := hfound job rfl
    simp only
    split
    · rename_i hk
      rintro y ⟨⟩
      exact P.job_congr hkey.symm hk.symm hjob
    · rename_i hk
      cases hm : crossmintMetadataFromJob job with
      | error e => trivial
      | ok x =>
        rintro y ⟨⟩
        exact P.job_congr hkey.symm hk.symm hjob
  | none =>
    refine (safe_operationRecord r.paymentId).seq hi fun s' g claim hclaim _ _ => ?_
    split
    · rename_i i hi'
      intro y hy
      obtain ⟨c, rfl, hc⟩ := Option.map_eq_some_iff.mp hi'
      rw [hr.named] at hclaim
      exact P.job_claimed hclaim hc hy
    · exact nofun

/-- Reconciling a record gives back one of the same operation; a terminal one is stored. -/
theorem safe_payment {r : PaymentRecord} (hb : Orderly P honest b) (hr : Good P honest b r) :
    (orderly entry Starts P honest).Safe
      (fun s _ r' => Good P honest s r' ∧ r'.paymentId = r.paymentId ∧
        (r' = r ∨ s.payments.lookup r.paymentId = some r'))
      (payment r) b g := by
  unfold payment
  by_cases ht : r.status.terminal = true
  · rw [if_pos ht]
    exact ⟨hr, rfl, .inl rfl⟩
  rw [if_neg ht]
  cases hsig : r.signature with
  | none => exact ⟨hr, rfl, .inl rfl⟩
  | some sig =>
    have hc : r.status ≠ .confirmed := by
      intro h
      rw [h] at ht
      exact ht rfl
    refine (safe_trySignatureStatus sig).seq hb fun s₁ g v hv hi₁ hl₁ => ?_
    refine (safe_reconcile hi₁ (hr.mono hl₁) hsig hc hv).seq hi₁ ?_
    rintro s₂ g ⟨r₂, confirmed⟩ ⟨hg₂, hsame⟩ hi₂ hl₂ time
    have hg₃ : Good P honest s₂ { r₂ with updatedAtMs := time } :=
      ⟨hg₂.named, P.row_congr (r := r₂) ⟨rfl, rfl, rfl, rfl⟩ hg₂.row, hg₂.backed⟩
    refine (safe_storedConnector hi₂ hg₃).seq hi₂ fun s₃ g x hx hi₃ hl₃ => ?_
    refine (safe_calm (calm_announce (E := fun _ => True) trivial _ _)).seq hi₃
      fun s₄ g _ _ hi₄ hl₄ => ?_
    have hg₄ := (hg₃.mono hl₃).mono hl₄
    refine (safe_persistPayment hi₄ hg₄ fun y hy => P.job_mono hl₄ (hx y hy)).seq hi₄
      fun s₅ g _ hs hi₅ hl₅ => ?_
    refine (safe_getPayment _).seq hi₅ fun s₆ g stored hst hi₆ hl₆ => ?_
    -- what was just written is there, so the stored row is returned
    obtain ⟨r', hr'⟩ := Option.isSome_iff_exists.mp (hl₆.stored _ hs)
    have hstored : stored = some r' := hst.symm.trans hr'
    rw [hstored]
    obtain ⟨hid, hgood⟩ := hi₆.rows _ _ hr'
    have hid' : r₂.paymentId = r.paymentId := hsame.paymentId
    refine ⟨hgood, hid.trans hid', .inr ?_⟩
    rw [← hid']
    exact hr'

/-! ## Reservation -/

/-- The operation of `q` is claimed by `owner` for the message and the connector of `q`. -/
def Stands (s : Store) (owner : String) (q : PaymentSubmissionRequest) : Prop :=
  ∃ c i tx, s.operations.lookup (paymentId q.idempotencyKey) = some c ∧ c.owner = owner ∧
    c.intent = .payment i ∧ R.decode q.signedTransaction = some tx ∧ i.message = messageHash tx ∧
    i.x402 = q.x402 ∧ i.crossmint = q.crossmint

/-- The order `q` pays is claimed for the key of `q`. -/
def Ordered (s : Store) (owner : String) (q : PaymentSubmissionRequest) : Prop :=
  ∀ x, q.crossmint = some x → ∃ oc,
    s.operations.lookup (orderClaimId owner x.orderId) = some oc ∧
      oc.intent = .order q.idempotencyKey

theorem Stands.mono {s s' : Store} {owner : String} {q : PaymentSubmissionRequest}
    (h : Stands s owner q) (hl : Later s s') : Stands s' owner q := by
  obtain ⟨c, i, tx, hc, hrest⟩ := h
  exact ⟨c, i, tx, hl.operations _ _ hc, hrest⟩

theorem Ordered.mono {s s' : Store} {owner : String} {q : PaymentSubmissionRequest}
    (h : Ordered s owner q) (hl : Later s s') : Ordered s' owner q := by
  intro x hx
  obtain ⟨oc, hoc, hk⟩ := h x hx
  exact ⟨oc, hl.operations _ _ hoc, hk⟩

/-- Both claims together license a send of the request's bytes. -/
theorem Stands.licensed {s : Store} {owner : String} {q : PaymentSubmissionRequest}
    {resubmit : Bool} {result : Except RpcError Unit} (h : Stands s owner q)
    (ho : Ordered s owner q) :
    Licensed s ⟨⟨paymentId q.idempotencyKey, q.crossmint.map (·.orderId), resubmit⟩,
      q.signedTransaction, result⟩ := by
  obtain ⟨c, i, tx, hc, hw, hi, hd, hm, -, -⟩ := h
  refine ⟨c, i, tx, hc, hi, hd, hm, fun o hx => ?_⟩
  obtain ⟨x, hq, rfl⟩ := Option.map_eq_some_iff.mp hx
  obtain ⟨oc, hoc, hk⟩ := ho x hq
  refine ⟨oc, q.idempotencyKey, ?_, hk, rfl⟩
  rw [hw]
  exact hoc

/-- A job kept with a record of the claimed operation. -/
theorem Stands.job {s : Store} {owner : String} {q : PaymentSubmissionRequest} {r : PaymentRecord}
    (h : Stands s owner q) (hr : Good P honest s r)
    (hid : r.paymentId = paymentId q.idempotencyKey) :
    ∀ y, connectorMetadata q = some y → P.Job s (jobOf r y) := by
  intro y hy
  obtain ⟨c, i, tx, hc, -, hi, -, -, hx, hcm⟩ := h
  have hc' : s.operations.lookup (paymentId r.idempotencyKey) = some c := by
    rw [← hr.named, hid]
    exact hc
  have hconn : connectorOf i.x402 i.crossmint = some y := by
    rw [hx, hcm]
    exact hy
  exact P.job_claimed hc' hi hconn

theorem decodeTransaction_ok {encoded : String} {tx : Transaction}
    (h : decodeTransaction encoded = .ok tx) : R.decode encoded = some tx := by
  unfold decodeTransaction at h
  split at h
  · rename_i hd
    cases h
    exact hd
  · cases h

theorem intent_ok {q : PaymentSubmissionRequest} {m : SigningMode} {i : Intent}
    (h : intent q m = .ok i) :
    ∃ tx, R.decode q.signedTransaction = some tx ∧ i.message = messageHash tx ∧
      i.x402 = q.x402 ∧ i.crossmint = q.crossmint := by
  unfold intent at h
  cases hd : decodeTransaction q.signedTransaction with
  | error e =>
    rw [hd] at h
    cases h
  | ok tx =>
    rw [hd] at h
    cases h
    exact ⟨tx, decodeTransaction_ok hd, rfl, rfl, rfl⟩

theorem stands_of_claim {s : Store} {c : Claim} {owner : String} {q : PaymentSubmissionRequest}
    {m : SigningMode} {i : Intent}
    (hc : s.operations.lookup (paymentId q.idempotencyKey) = some c) (hw : c.owner = owner)
    (hi : c.intent = .payment i) (hq : intent q m = .ok i) : Stands s owner q := by
  obtain ⟨tx, hd, hm, hx, hcm⟩ := intent_ok hq
  exact ⟨c, i, tx, hc, hw, hi, hd, hm, hx, hcm⟩

theorem safe_storedOr {c : Claim} {id : String} {v : Option PaymentRecord} {e : ApiError}
    (hb : Orderly P honest b) (hc : b.operations.lookup id = some c)
    (hv : ∀ r, v = some r → b.payments.lookup id = some r) :
    (orderly entry Starts P honest).Safe (fun s _ r => Good P honest s r ∧ r.paymentId = id)
      (storedOr c.initial e v) b g := by
  unfold storedOr
  split
  · rename_i r
    obtain ⟨hid, hr⟩ := hb.rows id r (hv r rfl)
    exact ⟨hr, hid⟩
  · split
    · rename_i r hinit
      obtain ⟨hid, hr, -⟩ := hb.claims id c r hc hinit
      exact ⟨hr, hid⟩
    · trivial

theorem safe_takeUp {p : Principal} {q : PaymentSubmissionRequest} {m : SigningMode} {c : Claim}
    (hb : Orderly P honest b)
    (hc : b.operations.lookup (paymentId q.idempotencyKey) = some c) :
    (orderly entry Starts P honest).Safe
      (fun s _ r => Good P honest s r ∧ r.paymentId = paymentId q.idempotencyKey ∧
        Stands s p.wallet q)
      (takeUp p q m c) b g := by
  unfold takeUp
  by_cases hw : c.owner ≠ p.wallet
  · rw [if_pos hw]
    trivial
  rw [if_neg hw]
  rw [ne_eq, not_not] at hw
  cases hq : intent q m with
  | error e => trivial
  | ok i =>
    by_cases hi : c.intent ≠ .payment i
    · simp only [Call.ofExcept, Call.ret_bind, if_pos hi]
      trivial
    simp only [Call.ofExcept, Call.ret_bind, if_neg hi]
    rw [ne_eq, not_not] at hi
    refine (safe_getPayment _).seq hb fun s₁ g v hv hi₁ hl₁ => ?_
    have hc₁ := hl₁.operations _ _ hc
    refine (safe_storedOr hi₁ hc₁ fun r hr => hv.trans hr).seq hi₁ ?_
    rintro s₂ g r ⟨hr, hid⟩ hi₂ hl₂
    refine (safe_calm (calm_authorizePayment p r _)).seq hi₂ fun s₃ g _ _ hi₃ hl₃ => ?_
    refine ((safe_payment hi₃ (hr.mono hl₃)).framed hi₃).mono ?_
    rintro s₄ g r' ⟨⟨hr', hid', -⟩, -, hl₄⟩
    have hstands := stands_of_claim (hl₂.operations _ _ hc₁) hw hi hq
    exact ⟨hr', hid'.trans hid, (hstands.mono hl₃).mono hl₄⟩

theorem safe_existingPayment {p : Principal} {q : PaymentSubmissionRequest} {m : SigningMode}
    (hb : Orderly P honest b) :
    (orderly entry Starts P honest).Safe
      (fun s _ v => ∀ r, v = some r → Good P honest s r ∧
        r.paymentId = paymentId q.idempotencyKey ∧ Stands s p.wallet q)
      (existingPayment p q m) b g := by
  unfold existingPayment
  split
  · trivial
  refine (safe_calm (calm_findPaymentByIdempotency (E := fun _ => True) trivial _)).seq hb
    fun s₁ g old _ hi₁ _ => ?_
  cases old with
  | some old =>
    exact (safe_calm (calm_authorizePayment p old _)).seq hi₁ fun _ _ _ _ _ _ => trivial
  | none =>
    refine (safe_operationRecord _).seq hi₁ fun s₂ g claim hclaim hi₂ _ => ?_
    cases claim with
    | some c =>
      refine (safe_takeUp hi₂ hclaim).map fun s₃ g r hr => ?_
      intro r' hr'
      rw [← Option.some.inj hr']
      exact hr
    | none =>
      refine (safe_getPayment _).seq hi₂ fun s₃ g stored _ _ _ => ?_
      cases stored with
      | some r => trivial
      | none =>
        intro r hr
        cases hr

theorem safe_reserveCrossmintOrder {p : Principal} {q : PaymentSubmissionRequest}
    (hb : Orderly P honest b) :
    (orderly entry Starts P honest).Safe (fun s _ _ => Ordered s p.wallet q)
      (reserveCrossmintOrder p q) b g := by
  unfold reserveCrossmintOrder
  cases hq : q.crossmint with
  | none =>
    intro x hx
    cases hq.symm.trans hx
  | some x =>
    refine (safe_calm (calm_findOtherJob (E := fun _ => True) trivial _ _ _)).seq hb
      fun s₁ g other _ hi₁ _ => ?_
    cases other with
    | true => trivial
    | false =>
      have horder : ∀ i, Bound.order q.idempotencyKey ≠ .payment i := by
        intro i hi
        cases hi
      have hnull : ∀ r, Initial.null ≠ .payment r := by
        intro r hr
        cases hr
      refine (safe_claimOther horder hnull).seq hi₁ ?_
      rintro s₂ g ⟨won, c⟩ hc _ _
      by_cases hbad : c.owner ≠ p.wallet ∨ c.intent ≠ .order q.idempotencyKey
      · simp only [if_pos hbad]
        trivial
      simp only [if_neg hbad]
      rw [not_or, ne_eq, not_not, ne_eq, not_not] at hbad
      intro y hy
      cases hq.symm.trans hy
      exact ⟨c, hc, hbad.2⟩

theorem safe_reservePayment {p : Principal} {q : PaymentSubmissionRequest} {m : SigningMode}
    (hb : Orderly P honest b) (hmay : P.May b p q m) :
    (orderly entry Starts P honest).Safe
      (fun s _ (v : Bool × PaymentRecord) => Good P honest s v.2 ∧
        v.2.paymentId = paymentId q.idempotencyKey ∧ Stands s p.wallet q ∧ Ordered s p.wallet q)
      (reservePayment p q m) b g := by
  unfold reservePayment initial
  cases hsig : ownSignature q m with
  | error e => trivial
  | ok sig =>
    intro created updated
    cases hq : intent q m with
    | error e => trivial
    | ok i =>
      refine (safe_claimPayment hq hmay).seq hb ?_
      rintro s₁ g ⟨won, c⟩ hc hi₁ hl₁
      by_cases hbad : c.owner ≠ p.wallet ∨ c.intent ≠ .payment i
      · simp only [if_pos hbad]
        trivial
      simp only [if_neg hbad]
      rw [not_or, ne_eq, not_not, ne_eq, not_not] at hbad
      refine (safe_getPayment _).seq hi₁ fun s₂ g v hv hi₂ hl₂ => ?_
      have hc₂ := hl₂.operations _ _ hc
      refine (safe_storedOr hi₂ hc₂ fun r hr => hv.trans hr).seq hi₂ ?_
      rintro s₃ g r ⟨hr, hid⟩ hi₃ hl₃
      refine (safe_reserveCrossmintOrder hi₃).seq hi₃ fun s₄ g _ ho hi₄ hl₄ => ?_
      have hstands := stands_of_claim (hl₃.operations _ _ hc₂) hbad.1 hbad.2 hq
      exact ⟨hr.mono hl₄, hid, hstands.mono hl₄, ho⟩

end

end ChainPay.Relay
