import Mathlib.Data.Set.Function
import ChainPay.Relay.Claims

/-!
From the reservation to the broadcast: settlement, submissions of both kinds, recovery and
cancellation keep the store orderly, whatever the other calls do between their awaits. From
this: all transactions broadcast under one payment id carry the message hashed into the
first claimed intent, all broadcasts for one order belong to one payment id, and a
cancelled key never broadcasts.
-/

namespace ChainPay.Relay
open ChainPay.Lib

theorem paymentError_status (r : PaymentRecord) (e : RpcError) (time : Nat) :
    (paymentError r e time).status ≠ .confirmed := by
  unfold paymentError
  simp only
  split
  · exact nofun
  · exact nofun

section

variable [R : Deployment] {Req δ : Type} {entry : Req → M δ} {Starts : Req → Prop} {P : Policy}
  {honest : Prop} {b : Store} {g : Bool}

/-! ## Settlement -/

/-- A record of the same operation that is not confirmed yet. -/
theorem safe_classifySend {r : PaymentRecord} {err : RpcError} (hb : Orderly P honest b)
    (hr : Good P honest b r) :
    (orderly entry Starts P honest).Safe
      (fun s _ r' => Good P honest s r' ∧ r'.paymentId = r.paymentId)
      (classifySend r err) b g := by
  have hunsent : ∀ time, Good P honest b (unsentRecord r time) :=
    fun time => hr.update ⟨rfl, rfl, rfl, rfl⟩ nofun
  have herror : ∀ s, Later b s → ∀ time, Good P honest s (paymentError r err time) :=
    fun s hl time => (hr.mono hl).update ⟨rfl, rfl, rfl, rfl⟩ (paymentError_status r err time)
  have hopen : ∀ s, Later b s → ∀ time, Good P honest s { r with
      status := .submitted, error := some outcomeUnknown, updatedAtMs := time } :=
    fun s hl time => (hr.mono hl).update ⟨rfl, rfl, rfl, rfl⟩ nofun
  unfold classifySend
  by_cases hu : provablyUnsent err = true
  · rw [if_pos hu]
    exact fun time => ⟨hunsent time, rfl⟩
  rw [if_neg hu]
  cases hsig : r.signature with
  | none => exact fun time => ⟨herror b (.refl b) time, rfl⟩
  | some sig =>
    rw [hsig] at hopen
    refine (safe_trySignatureStatus sig).seq hb fun s g v _ hi hl => ?_
    intro time
    rcases v with e | _ | status
    · exact ⟨hopen s hl time, rfl⟩
    · by_cases hd : deterministicFailure err = true
      · simp only [if_pos hd]
        exact ⟨herror s hl time, rfl⟩
      · simp only [if_neg hd]
        exact ⟨hopen s hl time, rfl⟩
    · exact (safe_payment hi (hopen s hl time)).mono fun s' g r' h => ⟨h.1, h.2.1⟩

variable {owner : String} {q : PaymentSubmissionRequest} {r : PaymentRecord}

/-- A row read back belongs to the record's operation. -/
theorem good_getD {s : Store} {v : Option PaymentRecord} (hs : Orderly P honest s)
    (hv : s.payments.lookup r.paymentId = v) (hr : Good P honest s r) :
    Good P honest s (v.getD r) ∧ (v.getD r).paymentId = r.paymentId := by
  cases v with
  | none => exact ⟨hr, rfl⟩
  | some x =>
    obtain ⟨hid, hx⟩ := hs.rows _ x hv
    exact ⟨hx, hid⟩

theorem safe_broadcast (hb : Orderly P honest b) (hr : Good P honest b r)
    (hid : r.paymentId = paymentId q.idempotencyKey) (hq : Stands b owner q)
    (ho : Ordered b owner q) :
    (orderly entry Starts P honest).Safe
      (fun s _ r' => Good P honest s r' ∧ r'.paymentId = r.paymentId) (broadcast q r) b g := by
  refine (safe_calm (calm_keepReceiptRequest q)).seq hb fun s₁ g _ _ hi₁ hl₁ => ?_
  cases hsig : signature q.signedTransaction with
  | error e => trivial
  | ok own =>
    intro time
    have hr₁ : Good P honest s₁ (r.submitted own time) :=
      (hr.mono hl₁).update ⟨rfl, rfl, rfl, rfl⟩ nofun
    have hq₁ := hq.mono hl₁
    refine (safe_persistPayment hi₁ hr₁ (hq₁.job hr₁ hid)).seq hi₁ fun s₂ g _ _ hi₂ hl₂ => ?_
    have hq₂ := hq₁.mono hl₂
    have ho₂ := (ho.mono hl₁).mono hl₂
    have hlic : Licensed s₂ ⟨⟨(r.submitted own time).paymentId, q.crossmint.map (·.orderId), false⟩,
        q.signedTransaction, .ok ()⟩ := by
      change Licensed s₂ ⟨⟨r.paymentId, q.crossmint.map (·.orderId), false⟩, _, _⟩
      rw [hid]
      exact hq₂.licensed ho₂
    refine (safe_send hlic).seq hi₂ fun s₃ g sent _ hi₃ hl₃ => ?_
    have hr₃ := (hr₁.mono hl₂).mono hl₃
    cases sent with
    | ok u => exact (safe_payment hi₃ hr₃).mono fun s g r' h => ⟨h.1, h.2.1⟩
    | error err =>
      refine (safe_classifySend hi₃ hr₃).seq hi₃ ?_
      rintro s₄ g r' ⟨hr', hid'⟩ hi₄ hl₄
      have hq₄ := (hq₂.mono hl₃).mono hl₄
      refine (safe_persistPayment hi₄ hr' (hq₄.job hr' (hid'.trans hid))).seq hi₄
        fun s₅ g _ _ hi₅ hl₅ => ?_
      by_cases hdup : r'.status = .failed ∧ r'.error = some duplicateInvoiceMessage
      · rw [if_pos hdup]
        trivial
      rw [if_neg hdup]
      refine (safe_getPayment _).seq hi₅ fun s₆ g v hv hi₆ hl₆ => ?_
      obtain ⟨hgood, hsame⟩ := good_getD hi₆ hv ((hr'.mono hl₅).mono hl₆)
      exact ⟨hgood, hsame.trans hid'⟩

theorem safe_reconcileOwn {receipt : String} (hb : Orderly P honest b) (hr : Good P honest b r)
    (hid : r.paymentId = paymentId q.idempotencyKey) (hq : Stands b owner q) :
    (orderly entry Starts P honest).Safe
      (fun s _ r' => Good P honest s r' ∧ r'.paymentId = r.paymentId)
      (reconcileOwn q r receipt) b g := by
  unfold reconcileOwn
  cases hsig : signature q.signedTransaction with
  | error e => trivial
  | ok own =>
    refine (safe_calm (calm_signatureStatus (E := fun _ => True) (fun _ => trivial) own)).seq hb
      fun s₁ g status _ hi₁ hl₁ => ?_
    cases status with
    | none => trivial
    | some status =>
      intro time
      have hr₁ : Good P honest s₁ (r.submitted own time) :=
        (hr.mono hl₁).update ⟨rfl, rfl, rfl, rfl⟩ nofun
      refine (safe_persistPayment hi₁ hr₁ ((hq.mono hl₁).job hr₁ hid)).seq hi₁
        fun s₂ g _ _ hi₂ hl₂ => ?_
      exact (safe_payment hi₂ (hr₁.mono hl₂)).mono fun s g r' h => ⟨h.1, h.2.1⟩

theorem safe_settlePayment (hb : Orderly P honest b) (hr : Good P honest b r)
    (hid : r.paymentId = paymentId q.idempotencyKey) (hq : Stands b owner q)
    (ho : Ordered b owner q) :
    (orderly entry Starts P honest).Safe
      (fun s _ r' => Good P honest s r' ∧ r'.paymentId = r.paymentId) (settlePayment q r) b g := by
  refine (safe_calm (calm_validateLivePayment q)).attempt.seq hb fun s g v _ hi hl => ?_
  have hr' := hr.mono hl
  have hq' := hq.mono hl
  cases v with
  | ok u => exact safe_broadcast hi hr' hid hq' (ho.mono hl)
  | error e =>
    cases e with
    | duplicateInvoice receipt => exact safe_reconcileOwn hi hr' hid hq'
    | _ => trivial

/-! ## Submissions -/

theorem safe_submitPayment {p : Principal} (hb : Orderly P honest b)
    (hmay : P.May b p (scopedRequest p q) .human) :
    (orderly entry Starts P honest).Safe
      (fun s _ r => Good P honest s r ∧
        r.paymentId = paymentId (scopedRequest p q).idempotencyKey)
      (submitPayment p q) b g := by
  unfold submitPayment
  cases R.validatePaymentRequest q with
  | error e => trivial
  | ok u =>
  cases R.receiptRequestRecord q with
  | error e => trivial
  | ok keep =>
  refine (safe_existingPayment hb).seq hb fun s₁ g found hfound hi₁ hl₁ => ?_
  cases found with
  | some r =>
    obtain ⟨hr, hid, hq⟩ := hfound r rfl
    by_cases hu : knownUnsent r = true
    · simp only [if_pos hu]
      refine (safe_calm (calm_checkLive p _)).seq hi₁ fun s₂ g _ _ hi₂ hl₂ => ?_
      refine (safe_reserveCrossmintOrder hi₂).seq hi₂ fun s₃ g _ ho hi₃ hl₃ => ?_
      refine (safe_settlePayment hi₃ ((hr.mono hl₂).mono hl₃) hid ((hq.mono hl₂).mono hl₃) ho).mono
        fun s g r' h => ?_
      exact ⟨h.1, h.2.trans hid⟩
    · simp only [if_neg hu]
      exact ⟨hr, hid⟩
  | none =>
    refine (safe_calm (calm_requireCrossmint _)).seq hi₁ fun s₂ g _ _ hi₂ hl₂ => ?_
    refine (safe_calm (calm_checkLive p _)).seq hi₂ fun s₃ g _ _ hi₃ hl₃ => ?_
    refine (safe_calm (calm_verifyCrossmint _ _)).seq hi₃ fun s₄ g _ _ hi₄ hl₄ => ?_
    have hmay₄ := P.may_mono (hl₁.trans (hl₂.trans (hl₃.trans hl₄))) hmay
    refine (safe_reservePayment hi₄ hmay₄).seq hi₄ ?_
    rintro s₅ g ⟨won, r⟩ ⟨hr, hid, hq, ho⟩ hi₅ hl₅
    have hsettle : (orderly entry Starts P honest).Safe
        (fun s _ r' => Good P honest s r' ∧
          r'.paymentId = paymentId (scopedRequest p q).idempotencyKey)
        (settlePayment (scopedRequest p q) r) s₅ g :=
      (safe_settlePayment hi₅ hr hid hq ho).mono fun s g r' h => ⟨h.1, h.2.trans hid⟩
    cases won with
    | true => exact hsettle
    | false =>
      by_cases hu : knownUnsent r = true
      · simp only [if_pos hu]
        exact hsettle
      · simp only [if_neg hu]
        exact (safe_payment hi₅ hr).mono fun s g r' h => ⟨h.1, h.2.1.trans hid⟩

/-- The provider may sign only the message it was given. -/
theorem validateProviderSigned_ok {unsigned signed : String} {u : Unit}
    (h : validateProviderSigned unsigned signed q = .ok u) :
    ∃ before after, R.decode unsigned = some before ∧ R.decode signed = some after ∧
      before.message.serialized = after.message.serialized := by
  unfold validateProviderSigned at h
  cases hb : decodeTransaction unsigned with
  | error e =>
    rw [hb] at h
    cases h
  | ok before =>
    cases ha : decodeTransaction signed with
    | error e =>
      rw [hb, ha] at h
      cases h
    | ok after =>
      rw [hb, ha] at h
      by_cases hne : before.message.serialized ≠ after.message.serialized
      · change (if before.message.serialized ≠ after.message.serialized then _ else _) = _ at h
        rw [if_pos hne] at h
        cases h
      · exact ⟨before, after, decodeTransaction_ok hb, decodeTransaction_ok ha, not_not.mp hne⟩

theorem Stands.signed {s : Store} {signed : String} {u : Unit} (h : Stands s owner q)
    (hv : validateProviderSigned q.signedTransaction signed q = .ok u) :
    Stands s owner { q with signedTransaction := signed } := by
  obtain ⟨c, i, tx, hc, hw, hi, hd, hm, hx, hcm⟩ := h
  obtain ⟨before, after, hbefore, hafter, hsame⟩ := validateProviderSigned_ok hv
  cases hd.symm.trans hbefore
  refine ⟨c, i, after, hc, hw, hi, hafter, ?_, hx, hcm⟩
  rw [hm, messageHash, messageHash, hsame]

theorem safe_signAndSettleManaged {agent : String} (hb : Orderly P honest b)
    (hr : Good P honest b r) (hid : r.paymentId = paymentId q.idempotencyKey)
    (hq : Stands b owner q) (ho : Ordered b owner q) :
    (orderly entry Starts P honest).Safe
      (fun s _ r' => Good P honest s r' ∧ r'.paymentId = r.paymentId)
      (signAndSettleManaged agent q r) b g := by
  refine (safe_calm (calm_findManagedSigner (E := fun _ => True) trivial agent)).seq hb
    fun s₁ g found _ hi₁ hl₁ => ?_
  cases found with
  | none => trivial
  | some signer =>
    simp only
    split
    · trivial
    refine (safe_calm (calm_verifyManagedMandate signer q)).seq hi₁ fun s₂ g _ _ hi₂ hl₂ => ?_
    refine (safe_calm (calm_signTransaction _ _)).seq hi₂ fun s₃ g signed _ hi₃ hl₃ => ?_
    cases hv : validateProviderSigned q.signedTransaction signed q with
    | error e => trivial
    | ok u =>
      refine (safe_calm (calm_activate signer)).seq hi₃ fun s₄ g _ _ hi₄ hl₄ => ?_
      have hl := hl₁.trans (hl₂.trans (hl₃.trans hl₄))
      exact safe_settlePayment hi₄ (hr.mono hl) hid ((hq.mono hl).signed hv) (ho.mono hl)

theorem safe_resumeManagedPayment {p : Principal} {agent : String} (hb : Orderly P honest b)
    (hr : Good P honest b r) (hid : r.paymentId = paymentId q.idempotencyKey)
    (hq : Stands b p.wallet q) :
    (orderly entry Starts P honest).Safe
      (fun s _ r' => Good P honest s r' ∧ r'.paymentId = r.paymentId)
      (resumeManagedPayment p agent q r) b g := by
  refine (safe_payment hb hr).seq hb ?_
  rintro s₁ g r₁ ⟨hr₁, hid₁, -⟩ hi₁ hl₁
  split
  · exact ⟨hr₁, hid₁⟩
  refine (safe_calm (calm_checkLive p q)).seq hi₁ fun s₂ g _ _ hi₂ hl₂ => ?_
  refine (safe_reserveCrossmintOrder hi₂).seq hi₂ fun s₃ g _ ho hi₃ hl₃ => ?_
  have hr₃ := (hr₁.mono hl₂).mono hl₃
  have hq₃ := ((hq.mono hl₁).mono hl₂).mono hl₃
  refine (safe_persistPayment hi₃ hr₃ (hq₃.job hr₃ (hid₁.trans hid))).seq hi₃
    fun s₄ g _ _ hi₄ hl₄ => ?_
  refine (safe_signAndSettleManaged hi₄ (hr₃.mono hl₄) (hid₁.trans hid) (hq₃.mono hl₄)
    (ho.mono hl₄)).mono fun s g r' h => ?_
  exact ⟨h.1, h.2.trans hid₁⟩

theorem safe_submitManagedPayment {p : Principal} {x : ManagedPaymentSubmissionRequest}
    (hb : Orderly P honest b)
    (hmay : ∀ amount, x.amount = some amount → P.May b p (managedRequest p x amount) .delegated) :
    (orderly entry Starts P honest).Safe
      (fun s _ r => Good P honest s r ∧
        r.paymentId = paymentId (p.wallet ++ ":" ++ x.idempotencyKey))
      (submitManagedPayment p x) b g := by
  unfold submitManagedPayment
  split
  · trivial
  cases hx : x.amount with
  | none => trivial
  | some amount =>
  simp only
  cases R.validateManagedPaymentRequest (managedRequest p x amount).signedTransaction
      (managedRequest p x amount) with
  | error e => trivial
  | ok u =>
  cases R.receiptRequestRecord (managedRequest p x amount) with
  | error e => trivial
  | ok keep =>
  refine (safe_existingPayment hb).seq hb fun s₁ g found hfound hi₁ hl₁ => ?_
  cases found with
  | some r =>
    obtain ⟨hr, hid, hq⟩ := hfound r rfl
    exact (safe_resumeManagedPayment hi₁ hr hid hq).mono fun s g r' h => ⟨h.1, h.2.trans hid⟩
  | none =>
    refine (safe_calm (calm_requireCrossmint _)).seq hi₁ fun s₂ g _ _ hi₂ hl₂ => ?_
    refine (safe_calm (calm_checkLive p _)).seq hi₂ fun s₃ g _ _ hi₃ hl₃ => ?_
    refine (safe_calm (calm_verifyCrossmint _ _)).seq hi₃ fun s₄ g _ _ hi₄ hl₄ => ?_
    have hmay₄ := P.may_mono (hl₁.trans (hl₂.trans (hl₃.trans hl₄))) (hmay amount hx)
    refine (safe_reservePayment hi₄ hmay₄).seq hi₄ ?_
    rintro s₅ g ⟨won, r⟩ ⟨hr, hid, hq, ho⟩ hi₅ hl₅
    cases won with
    | true =>
      refine (safe_persistPayment hi₅ hr (hq.job hr hid)).seq hi₅ fun s₆ g _ _ hi₆ hl₆ => ?_
      refine (safe_signAndSettleManaged hi₆ (hr.mono hl₆) hid (hq.mono hl₆) (ho.mono hl₆)).mono
        fun s g r' h => ?_
      exact ⟨h.1, h.2.trans hid⟩
    | false =>
      exact (safe_resumeManagedPayment hi₅ hr hid hq).mono fun s g r' h => ⟨h.1, h.2.trans hid⟩

/-! ## Recovery, cancellation, status -/

theorem safe_resubmitPayment {p : Principal} {sig : String} {tx : Transaction}
    (hb : Orderly P honest b) (hr : Good P honest b r)
    (hid : r.paymentId = paymentId q.idempotencyKey) (hq : Stands b p.wallet q) :
    (orderly entry Starts P honest).Safe
      (fun s _ r' => Good P honest s r' ∧ r'.paymentId = r.paymentId)
      (resubmitPayment p q sig tx r) b g := by
  refine (safe_calm (calm_checkLive p q)).seq hb fun s₁ g _ _ hi₁ hl₁ => ?_
  refine (safe_reserveCrossmintOrder hi₁).seq hi₁ fun s₂ g _ ho hi₂ hl₂ => ?_
  refine (safe_calm (calm_canResubmit sig tx)).seq hi₂ fun s₃ g can _ hi₃ hl₃ => ?_
  have hr₃ := hr.mono (hl₁.trans (hl₂.trans hl₃))
  have hq₃ := hq.mono (hl₁.trans (hl₂.trans hl₃))
  cases can with
  | false => exact ⟨hr₃, rfl⟩
  | true =>
    have hlic : Licensed s₃ ⟨⟨r.paymentId, q.crossmint.map (·.orderId), true⟩,
        q.signedTransaction, .ok ()⟩ := by
      rw [hid]
      exact hq₃.licensed (ho.mono hl₃)
    refine (safe_send hlic).seq hi₃ fun s₄ g sent _ hi₄ hl₄ => ?_
    cases sent with
    | ok u => exact ⟨hr₃.mono hl₄, rfl⟩
    | error err =>
      intro time
      have hr₄ : Good P honest s₄ { r with
          status := .submitted, error := some recoveryUnknown, updatedAtMs := time } :=
        (hr₃.mono hl₄).update ⟨rfl, rfl, rfl, rfl⟩ nofun
      refine (safe_persistPayment hi₄ hr₄ ((hq₃.mono hl₄).job hr₄ hid)).seq hi₄
        fun s₅ g _ _ hi₅ hl₅ => ?_
      exact ⟨hr₄.mono hl₅, rfl⟩

theorem safe_recoverSigned {p : Principal} {tx : Transaction} {resubmit : Bool}
    (hb : Orderly P honest b) (hr : Good P honest b r)
    (hid : r.paymentId = paymentId q.idempotencyKey) (hq : Stands b p.wallet q) :
    (orderly entry Starts P honest).Safe (fun s _ r' => Good P honest s r')
      (recoverSigned p q tx r resubmit) b g := by
  unfold recoverSigned
  cases hsig : signature q.signedTransaction with
  | error e => trivial
  | ok own =>
  simp only [Call.ofExcept, Call.ret_bind]
  split
  · trivial
  rename_i hsame
  intro time
  have hr₀ : Good P honest b { r with signature := some own, updatedAtMs := time } := by
    refine ⟨hr.named, P.row_congr (r := r) ⟨rfl, rfl, rfl, rfl⟩ hr.row, fun hh hc => ?_⟩
    -- a confirmed record has a signature, and it is this one
    obtain ⟨sig, address, account, hsig', hrest⟩ := hr.backed hh hc
    rw [hsig', Option.any_some, decide_eq_true_eq, ne_eq, not_not] at hsame
    rw [hsame] at hrest
    exact ⟨own, address, account, rfl, hrest⟩
  refine (safe_persistPayment hb hr₀ (hq.job hr₀ hid)).seq hb fun s₁ g _ _ hi₁ hl₁ => ?_
  refine (safe_payment hi₁ (hr₀.mono hl₁)).seq hi₁ ?_
  rintro s₂ g r₂ ⟨hr₂, hid₂, -⟩ hi₂ hl₂
  split
  · refine (safe_resubmitPayment hi₂ hr₂ (hid₂.trans hid) ((hq.mono hl₁).mono hl₂)).seq hi₂ ?_
    rintro s₃ g r₃ ⟨hr₃, -⟩ hi₃ _
    exact (safe_payment hi₃ hr₃).mono fun s g r' h => h.1
  · exact (safe_payment hi₂ hr₂).mono fun s g r' h => h.1

/-- Bytes whose message is the claimed one stand for the claimed operation. -/
theorem stands_of_message {s : Store} {c : Claim} {tx : Transaction} {recipient signed : String}
    (hc : s.operations.lookup r.paymentId = some c) (hr : Good P honest s r)
    (hd : R.decode signed = some tx) (hm : sameMessage c.intent tx = true) :
    Stands s c.owner (recoveredRequest r recipient c.intent signed) := by
  cases hi : c.intent with
  | payment i =>
    rw [hi] at hm
    have hk : s.operations.lookup (paymentId r.idempotencyKey) = some c := by
      rw [← hr.named]
      exact hc
    exact ⟨c, i, tx, hk, rfl, hi, hd, of_decide_eq_true hm, rfl, rfl⟩
  | cancelledBeforeReservation =>
    rw [hi] at hm
    cases hm
  | order key =>
    rw [hi] at hm
    cases hm

theorem safe_recoverPayment {p : Principal} {id signed : String} {resubmit : Bool}
    (hb : Orderly P honest b) :
    (orderly entry Starts P honest).Safe (fun s _ r' => Good P honest s r')
      (recoverPayment p id signed resubmit) b g := by
  refine (safe_operationRecord id).seq hb fun s₁ g found hfound hi₁ _ => ?_
  cases found with
  | none => trivial
  | some c =>
  by_cases hw : c.owner ≠ p.wallet
  · simp only [if_pos hw]
    trivial
  simp only [if_neg hw]
  rw [ne_eq, not_not] at hw
  refine (safe_getPayment id).seq hi₁ fun s₂ g v hv hi₂ hl₂ => ?_
  have hc₂ := hl₂.operations _ _ hfound
  refine (safe_storedOr hi₂ hc₂ fun r hr => hv.trans hr).seq hi₂ ?_
  rintro s₃ g r ⟨hr, hid⟩ hi₃ hl₃
  cases hrec : r.recipient with
  | none =>
    exact (safe_calm (calm_authorizePayment p r _)).seq hi₃ fun _ _ _ _ _ _ => trivial
  | some recipient =>
    refine (safe_calm (calm_authorizePayment p r _)).seq hi₃ fun s₄ g _ _ hi₄ hl₄ => ?_
    cases R.validatePaymentRequest (recoveredRequest r recipient c.intent signed) with
    | error e => trivial
    | ok u =>
    cases hd : decodeTransaction signed with
    | error e => trivial
    | ok tx =>
    by_cases hm : sameMessage c.intent tx = true
    · simp only [Call.ofExcept, Call.ret_bind, if_pos hm]
      have hc₄ : s₄.operations.lookup r.paymentId = some c := by
        rw [hid]
        exact hl₄.operations _ _ (hl₃.operations _ _ hc₂)
      have hstands : Stands s₄ c.owner (recoveredRequest r recipient c.intent signed) :=
        stands_of_message hc₄ (hr.mono hl₄) (decodeTransaction_ok hd) hm
      rw [hw] at hstands
      exact safe_recoverSigned hi₄ (hr.mono hl₄) hr.named hstands
    · simp only [Call.ofExcept, Call.ret_bind, if_neg hm]
      trivial

/-- A key that was cancelled stays claimed as cancelled. -/
def Cancelled (s : Store) (id : String) : Prop :=
  ∃ c, s.operations.lookup id = some c ∧ c.intent = .cancelledBeforeReservation

theorem safe_cancelUnstarted {p : Principal} {kind : Option CancelKind} {key : String}
    (hb : Orderly P honest b) :
    (orderly entry Starts P honest).Safe (fun s _ id => Cancelled s id)
      (cancelUnstarted p kind key) b g := by
  unfold cancelUnstarted
  split
  · trivial
  split
  · trivial
  cases kind with
  | none => trivial
  | some kind =>
    refine (safe_getPayment _).seq hb fun s₁ g stored _ hi₁ _ => ?_
    simp only
    split
    · trivial
    refine (safe_calm (calm_getTransaction (E := fun _ => True) trivial _)).seq hi₁
      fun s₂ g known _ hi₂ _ => ?_
    cases known with
    | true => trivial
    | false =>
      have hintent : ∀ i, Bound.cancelledBeforeReservation ≠ .payment i := by
        intro i hi
        cases hi
      have hinitial : ∀ r, Initial.cancelled ≠ .payment r := by
        intro r hr
        cases hr
      refine (safe_claimOther hintent hinitial).seq hi₂ ?_
      rintro s₃ g ⟨won, c⟩ hc _ _
      by_cases hbad : c.owner ≠ p.wallet ∨ c.intent ≠ .cancelledBeforeReservation
      · simp only [if_pos hbad]
        trivial
      simp only [if_neg hbad]
      rw [not_or, ne_eq, not_not, ne_eq, not_not] at hbad
      exact ⟨c, hc, hbad.2⟩

theorem safe_paymentStatus {p : Principal} {id : String} (hb : Orderly P honest b) :
    (orderly entry Starts P honest).Safe (fun s _ r => Good P honest s r)
      (paymentStatus p id) b g := by
  have hstored : (orderly entry Starts P honest).Safe (fun s _ r => Good P honest s r)
      (storedPayment p id) b g := by
    refine (safe_getPayment id).seq hb fun s₁ g v hv hi₁ _ => ?_
    cases v with
    | some r => exact (hi₁.rows id r hv).2
    | none =>
      refine (safe_operationRecord id).seq hi₁ fun s₂ g found hfound hi₂ _ => ?_
      cases found with
      | none => trivial
      | some c =>
        simp only
        split
        · trivial
        · have hnone : ∀ r, none = some r → s₂.payments.lookup id = some r := by
            intro r hr
            cases hr
          exact (safe_storedOr hi₂ hfound hnone).mono fun s g r h => h.1
  refine hstored.seq hb fun s₁ g r hr hi₁ _ => ?_
  refine (safe_calm (calm_authorizePayment p r _)).seq hi₁ fun s₂ g _ _ hi₂ hl₂ => ?_
  exact (safe_payment hi₂ (hr.mono hl₂)).mono fun s g r' h => h.1

/-- A terminal payment that is read with its job is stored so. -/
theorem safe_x402Context {p : Principal} {id : String} (hb : Orderly P honest b) :
    (orderly entry Starts P honest).Safe
      (fun s _ (v : PaymentRecord × Job) => Good P honest s v.1 ∧ v.1.paymentId = id ∧
        (v.1.status.terminal = true → s.payments.lookup id = some v.1))
      (x402Context p id) b g := by
  refine (safe_getPayment id).seq hb fun s₁ g v hv hi₁ _ => ?_
  cases v with
  | none => trivial
  | some r =>
  obtain ⟨hid, hr⟩ := hi₁.rows id r hv
  refine (safe_findX402 r.idempotencyKey).seq hi₁ fun s₂ g found _ hi₂ hl₂ => ?_
  cases found with
  | none => trivial
  | some job =>
  refine (safe_calm (calm_authorizePayment p r _)).seq hi₂ fun s₃ g _ _ hi₃ hl₃ => ?_
  refine (safe_payment hi₃ ((hr.mono hl₂).mono hl₃)).seq hi₃ ?_
  rintro s₄ g r' ⟨hr', hid', hkept⟩ hi₄ hl₄
  refine (safe_findX402 r'.idempotencyKey).seq hi₄ fun s₅ g found' _ hi₅ hl₅ => ?_
  simp only
  split
  · trivial
  refine ⟨hr'.mono hl₅, hid'.trans hid, fun ht => ?_⟩
  rcases hkept with rfl | hst
  · exact (hl₂.trans (hl₃.trans (hl₄.trans hl₅))).terminal _ _ hv ht
  · rw [hid] at hst
    exact hl₅.terminal _ _ hst ht

/-! ## Runs -/

/-- What a call's answer tells about the store. -/
def Told (P : Policy) (honest : Prop) (s : Store) : Response → Prop
  | .payment record => Good P honest s record
  | .cancelled id => Cancelled s id
  | .context record _ => Good P honest s record

theorem relay_rules (honest : Prop) :
    (orderly handle (fun _ => True) Policy.open honest).Rules
      fun s _ a => Told Policy.open honest s a where
  entry := by
    intro r s _ hs
    cases r with
    | submit p q => exact (safe_submitPayment hs trivial).map fun _ _ _ h => h.1
    | submitManaged p q =>
      exact (safe_submitManagedPayment hs fun _ _ => trivial).map fun _ _ _ h => h.1
    | recover p id signed resubmit => exact (safe_recoverPayment hs).map fun _ _ _ h => h
    | cancel p kind key => exact (safe_cancelUnstarted hs).map fun _ _ _ h => h
    | status p id => exact (safe_paymentStatus hs).map fun _ _ _ h => h
    | context p id => exact (safe_x402Context hs).map fun _ _ _ h => h.1
  outside := fun x s _ hs => ⟨hs.outside x, outside_later x s⟩

/-- A store before the relay's first operation; rows of earlier versions may be there. -/
structure Started (s : Store) : Prop where
  operations : s.operations = ∅
  sent : s.sent = []
  named : ∀ id r, s.payments.lookup id = some r →
    r.paymentId = id ∧ r.paymentId = paymentId r.idempotencyKey

theorem Started.orderly {s : Store} (h : Started s)
    (hbacked : honest → ∀ id r, s.payments.lookup id = some r → r.status = .confirmed →
      Backed s r) : Orderly Policy.open honest s where
  rows := by
    intro id r hr
    exact ⟨(h.named id r hr).1, (h.named id r hr).2, trivial, fun hh hc => hbacked hh id r hr hc⟩
  claims := by
    intro id c r hc
    rw [h.operations] at hc
    cases hc
  jobs := fun _ _ _ => trivial
  sent := by
    rw [h.sent]
    exact nofun
  extra := trivial

theorem kept_any {w : Pool Store Op Op.Ans ApiError Response Bool}
    (acts : List (Act Env Request Ext)) :
    relay.Kept (orderly handle (fun _ => True) Policy.open False).terms w acts := by
  induction acts generalizing w with
  | nil => trivial
  | cons a acts ih =>
    refine ⟨?_, ih⟩
    cases a with
    | start r t => trivial
    | outside x => trivial
    | go i e t =>
      simp only [System.Meets]
      split
      · exact nofun
      · trivial

theorem relay_sound {s : Store} (h : Started s) (acts : List (Act Env Request Ext)) :
    (orderly handle (fun _ => True) Policy.open False).Sound
      (fun s _ a => Told Policy.open False s a) (relay.run (.init s) acts) :=
  (Discipline.run_sound (relay_rules False)
    (Discipline.init_sound (h.orderly nofun)) (kept_any acts)).1

/-- Whatever happens later, the claims and terminal rows of now stay. -/
theorem run_later {s : Store} (h : Started s) (acts : List (Act Env Request Ext)) (n : Nat) :
    Later (relay.run (.init s) (acts.take n)).store (relay.run (.init s) acts).store := by
  have hrun : relay.run (.init s) acts =
      relay.run (relay.run (.init s) (acts.take n)) (acts.drop n) := by
    rw [← System.run_append, List.take_append_drop]
  rw [hrun]
  exact (Discipline.run_sound (relay_rules False) (relay_sound h (acts.take n))
    (kept_any (acts.drop n))).2

/-- The message a send carries. -/
def Sent.message (x : Sent) : Option Bytes := (R.decode x.bytes).map (·.message.serialized)

/-- The claim an id was first given in a run, and has since. -/
def FirstClaim (s : Store) (acts : List (Act Env Request Ext)) (id : String) (c : Claim) : Prop :=
  (relay.run (.init s) acts).store.operations.lookup id = some c ∧
    ∀ n c', (relay.run (.init s) (acts.take n)).store.operations.lookup id = some c' → c' = c

/-- What the sends of a run have in common. -/
structure Agreement (s : Store) (acts : List (Act Env Request Ext)) : Prop where
  /-- Each carries the message hashed into the first claimed intent of its operation. -/
  claimed : ∀ x ∈ (relay.run (.init s) acts).store.sent, ∃ c i tx,
    FirstClaim s acts x.origin.paymentId c ∧ c.intent = .payment i ∧
      R.decode x.bytes = some tx ∧ i.message = messageHash tx
  /-- Two of one operation carry one message, unless SHA-256 collides on what was sent. -/
  message : Set.InjOn R.sha256Hex
      {m | ∃ x ∈ (relay.run (.init s) acts).store.sent, x.message = some m} →
    ∀ x ∈ (relay.run (.init s) acts).store.sent,
      ∀ y ∈ (relay.run (.init s) acts).store.sent,
        x.origin.paymentId = y.origin.paymentId → x.message = y.message
  /-- Two for one order of one owner belong to one operation. -/
  order : ∀ x ∈ (relay.run (.init s) acts).store.sent,
    ∀ y ∈ (relay.run (.init s) acts).store.sent, ∀ o cx cy,
      x.origin.order = some o → y.origin.order = some o →
        FirstClaim s acts x.origin.paymentId cx → FirstClaim s acts y.origin.paymentId cy →
          cx.owner = cy.owner → x.origin.paymentId = y.origin.paymentId
  /-- None is made under a key that was cancelled. -/
  cancelled : ∀ a ∈ (relay.run (.init s) acts).answers, ∀ id, a.result = .ok (.cancelled id) →
    ∀ x ∈ (relay.run (.init s) acts).store.sent, x.origin.paymentId ≠ id

theorem sent_message_hash {s : Store} {x : Sent} {c : Claim} (h : Licensed s x)
    (hc : s.operations.lookup x.origin.paymentId = some c) :
    ∃ i m, c.intent = .payment i ∧ x.message = some m ∧ i.message = R.sha256Hex m := by
  obtain ⟨c', i, tx, hc', hi, hd, hm, -⟩ := h
  cases hc.symm.trans hc'
  refine ⟨i, tx.message.serialized, hi, ?_, hm⟩
  rw [Sent.message, hd, Option.map_some]

/-- **One operation broadcasts one message, one order one operation**, in every interleaving
of submissions, resumptions, recoveries and cancellations. -/
theorem broadcasts_agree {s : Store} (h : Started s) (acts : List (Act Env Request Ext)) :
    Agreement s acts := by
  have hsound := relay_sound h acts
  have hsent := hsound.inv.sent
  refine ⟨?_, ?_, ?_, ?_⟩
  · intro x hx
    obtain ⟨c, i, tx, hc, hi, hd, hm, -⟩ := hsent x hx
    refine ⟨c, i, tx, ⟨hc, fun n c' hc' => ?_⟩, hi, hd, hm⟩
    exact Option.some.inj (((run_later h acts n).operations _ _ hc').symm.trans hc)
  · intro hinj x hx y hy hid
    obtain ⟨c, -, -, hc, -⟩ := hsent x hx
    have hc' := hc
    rw [hid] at hc'
    obtain ⟨i, m, hi, hxm, hm⟩ := sent_message_hash (hsent x hx) hc
    obtain ⟨i', m', hi', hym, hm'⟩ := sent_message_hash (hsent y hy) hc'
    -- both hashes are the one in the claim
    cases hi.symm.trans hi'
    rw [hxm, hym, hinj ⟨x, hx, hxm⟩ ⟨y, hy, hym⟩ (hm.symm.trans hm')]
  · intro x hx y hy o cx cy hox hoy hcx hcy howner
    obtain ⟨c, -, -, hc, -, -, -, ho⟩ := hsent x hx
    obtain ⟨c', -, -, hc', -, -, -, ho'⟩ := hsent y hy
    cases hcx.1.symm.trans hc
    cases hcy.1.symm.trans hc'
    obtain ⟨oc, key, hoc, hk, hid⟩ := ho o hox
    obtain ⟨oc', key', hoc', hk', hid'⟩ := ho' o hoy
    -- the order has one claim, and it names one key
    rw [howner] at hoc
    cases hoc.symm.trans hoc'
    cases hk.symm.trans hk'
    exact hid.trans hid'.symm
  · intro a ha id hres x hx heq
    obtain ⟨-, c, hc, hcancel⟩ := hsound.answers a ha _ hres
    obtain ⟨c', i, tx, hc', hi, -⟩ := hsent x hx
    rw [heq] at hc'
    cases ((hsound.past a ha).operations _ _ hc).symm.trans hc'
    cases hcancel.symm.trans hi

end

/-! ## A run -/

/-- The digests of the texts and messages below. -/
def digests : List (Bytes × String) :=
  [(utf8 "owner:k1", "acfaf0c866c8f935265406750c12cd676459c55e846f426dd8b8eb52b1988cfe"),
    (utf8 "owner:k2", "24b6c2c744014d47f11117c12fe433ef14e68cc1256133cdf4929490074df6f8"),
    (utf8 "owner:k3", "d72c81d85e68afa884017fe70117ff34c6a5c2185ec4d2446cde558653181548"),
    (utf8 (jsonPair "owner" "o1"),
      "2b0c63356607093b0a0632426a1c615c38389e10fe5752ce82e77be31b4f99a7"),
    ([128, 1, 2, 3], "66d57b76224e2190e5389476642d16431a2818a758a106c0dbe918a9a9cfa245")]

def trialTransaction : Transaction :=
  ⟨⟨[128, 1, 2, 3], "recent", some [none, none, none, some "receipt", some "agent", some "mint",
    some "source"]⟩, ["signature"]⟩

@[reducible] def trial : Deployment where
  programId := "program"
  signerProvider := true
  crossmintEnabled := true
  webhooks := false
  lowercase := fun text => String.ofList (text.toList.map Char.toLower)
  sha256Hex := fun bytes => (digests.lookup bytes).getD ""
  decode := fun text => if text = "signed" then some trialTransaction else none
  validAddress := fun _ => true
  validatePaymentRequest := fun _ => .ok ()
  validateManagedPaymentRequest := fun _ _ => .ok ()
  receiptRequestRecord := fun _ => .ok false
  crossmintAuthorized := fun _ _ _ => .ok ()
  checkProviderSigned := fun _ _ => .ok ()

def trialRequest (key : String) (order : Option CrossmintMetadata) :
    PaymentSubmissionRequest where
  idempotencyKey := key
  mandate := "mandate"
  invoiceHash := "invoice"
  receiptAddress := some "receipt"
  signedTransaction := "signed"
  agent := some "agent"
  mint := some "mint"
  recipient := "recipient"
  amount := some 5
  tokenProgram := none
  x402 := none
  crossmint := order
  paymentRequest := none

/-- The RPC shows the mandate, neither paused nor expired. -/
def liveMandate : Env :=
  { account := .ok (some
      ⟨"program", .mandate ⟨"owner", "agent", "source", "mint", 9, false, false⟩⟩) }

/-- The answers a submission with an order goes through on. -/
def smooth : List Env :=
  [{}, {}, {}, liveMandate, liveMandate, {}, {}, {}, {}, {}, {}, liveMandate, {}, {}, {}, {}, {},
    {}, {}, {}, {}, {}]

/-- Thread `i` goes on with these answers. -/
def goes (i : Nat) (es : List Env) : List (Act Env Request Ext) :=
  es.map fun e => .go i e id

/-- One order is submitted under two keys, and a third key is cancelled. -/
def trialActs : List (Act Env Request Ext) :=
  let order := some ⟨"o1", none, "terms"⟩
  .start (.submit ⟨"owner", none⟩ (trialRequest "k1" order)) id :: goes 0 smooth ++
    .start (.submit ⟨"owner", none⟩ (trialRequest "k2" order)) id :: goes 1 smooth ++
    .start (.cancel ⟨"owner", none⟩ (some .payments) "k3") id :: goes 2 [{}, {}, {}]

theorem started_empty : @Started trial {} := by
  refine @Started.mk trial {} rfl rfl ?_
  intro id r hr
  cases hr

theorem broadcasts_agree_trial :
    ((@relay trial).run (.init {}) trialActs).store.sent.map (·.origin.paymentId) =
        ["payment_acfaf0c866c8f935265406750c12cd676459c55e846f426dd8b8eb52b1988cfe"] ∧
      ((@relay trial).run (.init {}) trialActs).answers.length = 3 ∧
      @Agreement trial {} trialActs :=
  ⟨by decide +kernel, by decide +kernel, broadcasts_agree (R := trial) started_empty trialActs⟩

end ChainPay.Relay
