import ChainPay.Paypal.Books
import ChainPay.Paypal.Changes

/-!
A task's changes are moves on its books (`apply_move`): whatever is observed, decided or approved,
in whatever order, the accounting of orders, captures and refunds only makes the moves of `Books`.
-/

namespace ChainPay.Paypal
open ChainPay.Lib

def Refund.line (r : Refund) : Line :=
  ⟨r.bindings.map (·.unit), r.amount, r.operation.isSome, r.confirmed, r.providerId⟩

namespace Task

def books (t : Task) : Books where
  amount := t.amount
  outputs := t.units.length
  funded := t.subscriptionFunding.isSome
  ordered := t.order.isSome
  capturing := t.capture.isSome
  captured := t.captured
  refunding := t.refund.isSome
  legacy := t.legacyRefundUnits
  refundAmount := t.refundAmount
  refundConfirmed := t.refundConfirmed
  refundId := t.refundId
  lines := t.refunds.map Refund.line

/-- The provider call that an operation makes. -/
def dispatch (t : Task) : Books.Slot → Dispatch
  | .order => .createOrder t.id
  | .capture => .captureOrder t.id
  | .refund => .refundCapture t.id
  | .line i => .resolutionRefund t.id i

/-- What most changes leave alone. -/
structure Same (t t' : Task) : Prop where
  id : t'.id = t.id
  offerVersion : t'.offerVersion = t.offerVersion
  funding : t'.subscriptionFunding = t.subscriptionFunding
  units : t'.units = t.units

theorem Same.rfl {t : Task} : t.Same t := ⟨.refl _, .refl _, .refl _, .refl _⟩

theorem Same.trans {t₁ t₂ t₃ : Task} (h : t₁.Same t₂) (h' : t₂.Same t₃) : t₁.Same t₃ :=
  ⟨h'.id.trans h.id, h'.offerVersion.trans h.offerVersion, h'.funding.trans h.funding,
    h'.units.trans h.units⟩

theorem books_confirmed (t : Task) : t.books.confirmed = t.confirmedRefunds := by
  simp only [Books.confirmed, books, confirmedRefunds, List.filter_map, List.map_map]
  rfl

theorem books_reserved (t : Task) : t.books.reserved = t.reservedRefunds := by
  simp only [Books.reserved, books, reservedRefunds, List.filter_map, List.map_map]
  rfl

variable {t t' : Task} {p : Principal} {now : Nat}

theorem outputPrice_ok {price : Nat} (h : t.outputPrice = .ok price) : price = t.books.price := by
  simp only [outputPrice, bind_eq_ok, pure_eq_ok] at h
  obtain ⟨_, -, rfl⟩ := h
  rfl

/-- The mapping of the single refund to its outputs is always on record. -/
theorem preserveLegacyRefund_ok (hs : t.books.Sound) (h : t.preserveLegacyRefund = .ok t') :
    t' = t := by
  unfold preserveLegacyRefund at h
  split at h
  · rename_i hlost
    simp only [Bool.and_eq_true, Bool.or_eq_true] at hlost
    obtain ⟨hsome, hnone⟩ := hlost
    have hrefunding : t.books.refunding = true := by
      rcases hsome with hr | hc
      · exact hr
      · by_contra hr
        rw [Bool.not_eq_true] at hr
        obtain ⟨-, hconf, -⟩ := hs.idle hr
        exact Bool.false_ne_true (hconf.symm.trans hc)
    obtain ⟨units, hunits, -⟩ := hs.single hrefunding
    have hlegacy : t.legacyRefundUnits = some units := hunits
    rw [hlegacy] at hnone
    cases hnone
  · rw [pure_eq_ok] at h
    exact h.symm

theorem refundedUnit_iff {i : Nat} : t.refundedUnit i = true ↔ i ∈ t.books.covered := by
  have hlegacy : (t.legacyRefundUnits.any fun v => i ∈ v) = true ↔
      i ∈ t.legacyRefundUnits.getD [] := by
    cases t.legacyRefundUnits with
    | none => simp
    | some units => simp
  have hlines : (t.refunds.any fun r => r.operation.isSome && r.bindings.any fun b => b.unit = i) =
      true ↔ i ∈ (t.books.lines.filter (·.approved)).flatMap (·.units) := by
    simp only [books, List.any_eq_true, Bool.and_eq_true, decide_eq_true_eq, List.mem_flatMap,
      List.mem_filter, List.mem_map]
    constructor
    · rintro ⟨r, hr, hop, b, hb, rfl⟩
      exact ⟨r.line, ⟨⟨r, hr, rfl⟩, hop⟩, List.mem_map.mpr ⟨b, hb, rfl⟩⟩
    · rintro ⟨_, ⟨⟨r, hr, rfl⟩, hop⟩, hi⟩
      obtain ⟨b, hb, hbi⟩ := List.mem_map.mp hi
      exact ⟨r, hr, hop, b, hb, hbi⟩
  rw [refundedUnit, Bool.or_eq_true, hlegacy, hlines, Books.covered, List.mem_append]
  rfl

theorem books_append (t : Task) (p : Principal) (now : Nat) (intent : Intent) :
    (t.append p now intent).books = t.books := rfl

theorem books_appends (t : Task) (p : Principal) (now : Nat) (f : Binding → Intent)
    (bs : List Binding) :
    (bs.foldl (fun t b => t.append p now (f b)) t).books = t.books := by
  induction bs generalizing t with
  | nil => rfl
  | cons b bs ih => rw [List.foldl_cons, ih, books_append]

/-! ## One lemma per change -/

theorem getElem?_lines {i : Nat} : t.books.lines[i]? = (t.refunds[i]?).map Refund.line := by
  rw [books, List.getElem?_map]

/-- `unitsWhere` lists positions of the task, each once. -/
theorem unitsWhere_nodup (f : WorkUnit → Bool) : (t.unitsWhere f).Nodup := by
  have hzip : (t.units.zipIdx.map Prod.snd).Nodup := by
    rw [List.zipIdx_map_snd]
    exact List.nodup_range' ..
  exact hzip.sublist (List.filter_sublist.map _)

theorem unitsWhere_lt (f : WorkUnit → Bool) : ∀ i ∈ t.unitsWhere f, i < t.units.length := by
  intro i hi
  obtain ⟨⟨u, j⟩, hj, rfl⟩ := List.mem_map.mp hi
  have hmem := List.mem_of_mem_filter hj
  obtain ⟨-, hlt, -⟩ := List.mem_zipIdx hmem
  simpa using hlt

section

variable [Env]

omit [Env] in
theorem startCheckout_move {digest : String} {key key' : Option String}
    (h : t.startCheckout p digest key now = .ok (t', key')) :
    t.Same t' ∧ ∃ slot, Books.Move t.books slot t'.books ∧
      (key'.map fun _ => Dispatch.createOrder t'.id) = slot.map t.dispatch := by
  simp only [startCheckout, bind_eq_ok, ensure_eq_ok, exists_unit] at h
  obtain ⟨-, hfund, -, h⟩ := h
  split at h
  · simp only [pure_eq_ok, Prod.mk.injEq] at h
    obtain ⟨rfl, rfl⟩ := h
    exact ⟨.rfl, none, .stay _, rfl⟩
  · rename_i hnew
    simp only [bind_eq_ok, ensure_eq_ok, exists_unit, pure_eq_ok, Prod.mk.injEq] at h
    obtain ⟨-, op, -, rfl, rfl⟩ := h
    refine ⟨⟨rfl, rfl, rfl, rfl⟩, some .order, .checkout ?_ ?_, rfl⟩
    · rw [Option.isNone_iff_eq_none] at hfund
      simp [books, hfund]
    · simpa [books] using hnew

theorem checkout_move {digest : String} {key key' : Option String}
    (h : t.checkout p digest key now = .ok (t', key')) :
    t.Same t' ∧ ∃ slot, Books.Move t.books slot t'.books ∧
      (key'.map fun _ => Dispatch.createOrder t'.id) = slot.map t.dispatch := by
  simp only [checkout, bind_eq_ok] at h
  obtain ⟨-, -, h⟩ := h
  split at h
  · simp only [bind_eq_ok] at h
    obtain ⟨_, -, _, -, h⟩ := h
    exact startCheckout_move h
  · exact startCheckout_move h

omit [Env] in
theorem startCapture_move {key key' : Option String}
    (h : t.startCapture p key now = .ok (t', key')) :
    t.Same t' ∧ ∃ slot, Books.Move t.books slot t'.books ∧
      (key'.map fun _ => Dispatch.captureOrder t'.id) = slot.map t.dispatch := by
  simp only [startCapture, bind_eq_ok] at h
  obtain ⟨-, -, h⟩ := h
  split at h
  · simp only [pure_eq_ok, Prod.mk.injEq] at h
    obtain ⟨rfl, rfl⟩ := h
    exact ⟨.rfl, none, .stay _, rfl⟩
  · rename_i hnew
    simp only [bind_eq_ok, ensure_eq_ok, exists_unit, pure_eq_ok, Prod.mk.injEq] at h
    obtain ⟨hstatus, op, -, rfl, rfl⟩ := h
    refine ⟨⟨rfl, rfl, rfl, rfl⟩, some .capture, .claimCapture ?_ ?_, rfl⟩
    · cases horder : t.order with
      | none =>
        rw [horder] at hstatus
        cases hstatus
      | some op => simp [books, horder]
    · simpa [books] using hnew

theorem approveRefund_move {digest : String} {key key' : Option String}
    (h : t.approveRefund p digest key now = .ok (t', key')) :
    t.Same t' ∧ ∃ slot, Books.Move t.books slot t'.books ∧
      (key'.map fun _ => Dispatch.refundCapture t'.id) = slot.map t.dispatch := by
  simp only [approveRefund, bind_eq_ok, ensure_eq_ok, exists_unit] at h
  obtain ⟨-, ⟨amount, expected⟩, hproposal, -, h⟩ := h
  split at h
  · simp only [pure_eq_ok, Prod.mk.injEq] at h
    obtain ⟨rfl, rfl⟩ := h
    exact ⟨.rfl, none, .stay _, rfl⟩
  · rename_i hnew
    simp only [bind_eq_ok, pure_eq_ok, Prod.mk.injEq] at h
    obtain ⟨op, -, rfl, rfl⟩ := h
    simp only [refundProposal, bind_eq_ok, ensure_eq_ok, exists_unit, pure_eq_ok,
      Prod.mk.injEq] at hproposal
    obtain ⟨hready, price, hprice, -, rfl, -⟩ := hproposal
    rw [outputPrice_ok hprice]
    refine ⟨⟨rfl, rfl, rfl, rfl⟩, some .refund, .approve ?_ ?_ (unitsWhere_nodup _) (unitsWhere_lt _), rfl⟩
    · simpa [books] using hnew
    · have hnone : t.refunds = [] := by
        by_contra hne
        exact hready (.inr (.inl hne))
      simp [books, hnone]

omit [Env] in
/-- The bindings that pass name distinct outputs of the task, none of them refunded. -/
theorem validateRefundBindings_ok {bs : List Binding} (h : t.validateRefundBindings bs = .ok ()) :
    (bs.map (·.unit)).Nodup ∧ (∀ i ∈ bs.map (·.unit), i < t.units.length) ∧
      ∀ i ∈ bs.map (·.unit), i ∉ t.books.covered := by
  simp only [validateRefundBindings, bind_eq_ok, ensure_eq_ok, exists_unit] at h
  obtain ⟨-, h⟩ := h
  have hgo : ∀ (seen : List Nat) (bs : List Binding),
      validateRefundBindings.go t seen bs = .ok () →
      (bs.map (·.unit)).Nodup ∧ ∀ i ∈ bs.map (·.unit), i ∉ seen ∧ i < t.units.length ∧
        i ∉ t.books.covered := by
    intro seen bs
    induction bs generalizing seen with
    | nil => exact fun _ => ⟨List.nodup_nil, fun _ hi => by cases hi⟩
    | cons b bs ih =>
      intro h
      simp only [validateRefundBindings.go, bind_eq_ok, ensure_eq_ok, exists_unit] at h
      obtain ⟨u, hu, ⟨hfresh, hfree⟩, -, hrest⟩ := h
      obtain ⟨hnodup, hall⟩ := ih _ hrest
      have hlt : b.unit < t.units.length := by
        simp only [checkBinding, bind_eq_ok, okOr_eq_ok] at hu
        obtain ⟨w, hw, -⟩ := hu
        exact (List.getElem?_eq_some_iff.mp hw).1
      refine ⟨?_, fun i hi => ?_⟩
      · rw [List.map_cons, List.nodup_cons]
        exact ⟨fun hmem => (hall b.unit hmem).1 (List.mem_cons_self ..), hnodup⟩
      · rw [List.map_cons, List.mem_cons] at hi
        rcases hi with rfl | hi
        · exact ⟨hfresh, hlt, fun hc => hfree (refundedUnit_iff.mpr hc)⟩
        · obtain ⟨hseen, hin, hout⟩ := hall i hi
          exact ⟨fun hs => hseen (List.mem_cons_of_mem _ hs), hin, hout⟩
  obtain ⟨hnodup, hall⟩ := hgo [] bs h
  exact ⟨hnodup, fun i hi => (hall i hi).2.1, fun i hi => (hall i hi).2.2⟩

omit [Env] in
theorem appends_same (t : Task) (p : Principal) (now : Nat) (f : Binding → Intent)
    (bs : List Binding) : t.Same (bs.foldl (fun t b => t.append p now (f b)) t) := by
  induction bs generalizing t with
  | nil => exact .rfl
  | cons b bs ih =>
    have hone : t.Same (t.append p now (f b)) := ⟨rfl, rfl, rfl, rfl⟩
    exact hone.trans (ih _)

theorem proposeResolutionRefund_move {id reason : String} {bindings : List Binding}
    (hs : t.books.Sound) (h : t.proposeResolutionRefund p id bindings reason now = .ok t') :
    t.Same t' ∧ Books.Move t.books none t'.books := by
  simp only [proposeResolutionRefund, bind_eq_ok] at h
  obtain ⟨-, -, -, -, h⟩ := h
  split at h
  · simp only [bind_eq_ok, pure_eq_ok] at h
    obtain ⟨-, -, rfl⟩ := h
    exact ⟨.rfl, .stay _⟩
  · simp only [bind_eq_ok, ensure_eq_ok, exists_unit, pure_eq_ok] at h
    obtain ⟨-, -, -, t₁, hpreserve, -, price, hprice, -, rfl⟩ := h
    have heq := preserveLegacyRefund_ok hs hpreserve
    subst heq
    rw [outputPrice_ok hprice]
    have hsame := appends_same t₁ p now (⟨id, ·, .proposeRefund, reason⟩) bindings
    have hbooks := books_appends t₁ p now (⟨id, ·, .proposeRefund, reason⟩) bindings
    generalize bindings.foldl (fun t b => t.append p now ⟨id, b, .proposeRefund, reason⟩) t₁ = t₂
      at hsame hbooks
    refine ⟨⟨hsame.id, hsame.offerVersion, hsame.funding, hsame.units⟩, ?_⟩
    have hnext : ({ t₂ with refunds := t₂.refunds ++ [⟨id, bindings, reason,
        t₁.books.price * bindings.length, Env.hash (.proposal t₁.id t₁.captureId id bindings reason
          (t₁.books.price * bindings.length)), p.id, now, none, none, none, false⟩] } : Task).books =
        { t₁.books with lines := t₁.books.lines ++ [⟨bindings.map (·.unit),
          t₁.books.price * (bindings.map (·.unit)).length, false, false, none⟩] } := by
      rw [← hbooks, List.length_map]
      simp only [books, List.map_append, List.map_cons, List.map_nil]
      rfl
    rw [hnext]
    exact .propose

omit [Env] in
theorem approveResolutionRefund_move {id digest : String} {key : Option String}
    {index' : Option Nat} (hs : t.books.Sound)
    (h : t.approveResolutionRefund p id digest key now = .ok (t', index')) :
    t.Same t' ∧ ∃ slot, Books.Move t.books slot t'.books ∧
      index'.map (Dispatch.resolutionRefund t'.id) = slot.map t.dispatch := by
  simp only [approveResolutionRefund, bind_eq_ok] at h
  obtain ⟨-, -, -, -, index, -, r, hr, h⟩ := h
  rw [okOr_eq_ok] at hr
  split at h
  · simp only [bind_eq_ok, pure_eq_ok, Prod.mk.injEq] at h
    obtain ⟨-, -, rfl, rfl⟩ := h
    exact ⟨.rfl, none, .stay _, rfl⟩
  · rename_i hnew
    simp only [bind_eq_ok, ensure_eq_ok, exists_unit, pure_eq_ok, Prod.mk.injEq] at h
    obtain ⟨-, t₁, hpreserve, hvalid, -, op, -, rfl, rfl⟩ := h
    have heq := preserveLegacyRefund_ok hs hpreserve
    subst heq
    obtain ⟨hnodup, hwithin, hfree⟩ := validateRefundBindings_ok hvalid
    have hunapproved : r.line.approved = false := by
      simpa [Refund.line] using hnew
    have hline : t₁.books.lines[index]? = some r.line := by
      rw [getElem?_lines, hr]
      rfl
    have hnext : ∀ r' : Refund, r'.line = r.line.approve →
        ({ t₁ with refunds := t₁.refunds.set index r' } : Task).books =
          t₁.books.setLine index r.line.approve := by
      intro r' hr'
      simp only [books, Books.setLine, List.map_set, hr']
    let approved : Refund := { r with operation := some op, approvalRequestId := some id }
    have hset : t₁.Same { t₁ with refunds := t₁.refunds.set index approved } := ⟨rfl, rfl, rfl, rfl⟩
    have hsame := hset.trans (appends_same _ p now (⟨id, ·, .approveRefund, r.reason⟩) r.bindings)
    refine ⟨hsame, some (.line index), ?_, ?_⟩
    · rw [books_appends, hnext _ rfl]
      exact .approveLine hline hunapproved hnodup hwithin hfree
    · rw [hsame.id]
      rfl

omit [Env] in
theorem observeCapture_move {capture : Value} (horder : t.books.ordered = true)
    (hfund : t.books.funded = false) (h : observeCapture t capture = .ok t') :
    t.Same t' ∧ t'.order = t.order ∧ Books.Move t.books none t'.books := by
  simp only [observeCapture, bind_eq_ok, ensure_eq_ok, exists_unit] at h
  obtain ⟨-, captureId, -, -, status, -, h⟩ := h
  split at h
  · rw [pure_eq_ok] at h
    subst h
    refine ⟨⟨rfl, rfl, rfl, rfl⟩, rfl, ?_⟩
    have hnext : ∀ (u : Task) (c : Option String) (review : Option String),
        ({ u with
          captureId := c
          paymentReview := review
          captured := true
          capture := u.capture.map (·.observe capture) } : Task).books =
            { u.books with captured := true } := by
      intro u c review
      simp [books]
    rw [hnext]
    exact .capture horder hfund
  · rw [pure_eq_ok] at h
    subst h
    exact ⟨⟨rfl, rfl, rfl, rfl⟩, rfl, .stay _⟩

omit [Env] in
theorem observeCaptures_move {captures : Option (List Value)} (horder : t.books.ordered = true)
    (hfund : t.books.funded = false) (h : observeCaptures t captures = .ok t') :
    t.Same t' ∧ t'.order = t.order ∧ Books.Move t.books none t'.books := by
  unfold observeCaptures at h
  split at h
  · cases h
    exact ⟨⟨rfl, rfl, rfl, rfl⟩, rfl, .stay _⟩
  · exact observeCapture_move horder hfund h
  · cases h

theorem observeOrder_move {value : Value} (h : observeOrder t value = .ok t') :
    t.Same t' ∧ Books.Move t.books none t'.books := by
  simp only [observeOrder, bind_eq_ok, ensure_eq_ok, exists_unit, okOr_eq_ok, pure_eq_ok] at h
  obtain ⟨hfund, orderId, -, op, hop, -, unit, -, -, -, -, -, url, -, t₁, ht₁, rfl⟩ := h
  have horder : t.books.ordered = true := by simp [books, hop]
  have hfunded : t.books.funded = false := by simpa [books] using hfund
  obtain ⟨hsame, hkept, hmove⟩ :=
    observeCaptures_move (t := { t with orderId := some orderId, approvalUrl := url }) horder hfunded
      ht₁
  have hkept' : t₁.order = t.order := hkept
  have hlast : ({ t₁ with order := some (op.observe value) } : Task).books = t₁.books := by
    simp [books, hkept', hop]
  refine ⟨⟨hsame.id, hsame.offerVersion, hsame.funding, hsame.units⟩, ?_⟩
  rw [hlast]
  exact hmove

omit [Env] in
theorem observeRefund_move {value : Value} (h : observeRefund t value = .ok t') :
    t.Same t' ∧ Books.Move t.books none t'.books := by
  simp only [observeRefund, bind_eq_ok, ensure_eq_ok, exists_unit, okOr_eq_ok] at h
  obtain ⟨op, hop, -, id, -, ⟨hother, hsame⟩, status, -, h⟩ := h
  have hclaim : t.books.refunding = true := by simp [books, hop]
  have hids : id ∉ t.books.lines.filterMap (·.providerId) := by
    intro hmem
    obtain ⟨l, hl, hid⟩ := List.mem_filterMap.mp hmem
    obtain ⟨r, hr, rfl⟩ := List.mem_map.mp hl
    exact hother (List.any_eq_true.mpr ⟨r, hr, decide_eq_true hid⟩)
  have hold : ∀ old ∈ t.books.refundId, old = id := by
    intro old hmem
    have hrefund : t.refundId = some old := hmem
    simpa [hrefund] using hsame
  split at h
  · rw [pure_eq_ok] at h
    subst h
    refine ⟨⟨rfl, rfl, rfl, rfl⟩, ?_⟩
    have hnext : ({ t with
        refundId := some id
        refundConfirmed := true
        refund := some (op.observe value) } : Task).books =
        { t.books with
          refundId := some id
          refundConfirmed := true || t.books.refundConfirmed } := by
      simp [books, hop]
    rw [hnext]
    exact .observe hclaim hids hold
  · rw [pure_eq_ok] at h
    subst h
    have hnext : ({ t with refundId := some id } : Task).books =
        { t.books with
          refundId := some id
          refundConfirmed := false || t.books.refundConfirmed } := rfl
    refine ⟨⟨rfl, rfl, rfl, rfl⟩, ?_⟩
    rw [hnext]
    exact .observe hclaim hids hold

omit [Env] in
theorem observeLedgerRefund_move {index : Nat} {value : Value}
    (h : observeLedgerRefund t index value = .ok t') :
    t.Same t' ∧ Books.Move t.books none t'.books := by
  simp only [observeLedgerRefund, bind_eq_ok, ensure_eq_ok, exists_unit, okOr_eq_ok, pure_eq_ok] at h
  obtain ⟨id, -, hother, r, hr, op, hop, hsame, -, -, status, -, rfl⟩ := h
  refine ⟨⟨rfl, rfl, rfl, rfl⟩, ?_⟩
  have hline : t.books.lines[index]? = some r.line := by
    rw [getElem?_lines, hr]
    rfl
  have hclaim : r.line.approved = true := by simp [Refund.line, hop]
  have hold : ∀ old ∈ r.line.providerId, old = id := by
    intro old hmem
    have hprovider : r.providerId = some old := hmem
    simpa [hprovider] using hsame
  have hlines : ∀ j m, t.books.lines[j]? = some m → j ≠ index → m.providerId ≠ some id := by
    intro j m hm hne hid
    rw [getElem?_lines, Option.map_eq_some_iff] at hm
    obtain ⟨r', hr', rfl⟩ := hm
    refine hother (.inr (List.any_eq_true.mpr ⟨(r', j), ?_, ?_⟩))
    · exact List.mem_zipIdx_iff_getElem?.mpr hr'
    · have hprovider : r'.providerId = some id := hid
      simp [hne, hprovider]
  have hnext : ∀ (r' : Refund) (done : Bool), r'.line = r.line.observe id done →
      Books.Move t.books none ({ t with refunds := t.refunds.set index r' } : Task).books := by
    intro r' done hr'
    have hset : ({ t with refunds := t.refunds.set index r' } : Task).books =
        t.books.setLine index (r.line.observe id done) := by
      simp only [books, Books.setLine, List.map_set, hr']
    rw [hset]
    exact .observeLine hline hclaim (fun hid => hother (.inl hid)) hlines hold
  split
  · refine hnext _ true ?_
    simp [Refund.line, Line.observe, hop]
  · refine hnext _ false ?_
    simp [Refund.line, Line.observe, hop]

/-! ## Outputs -/

/-- The version of an output: it changes when the output is reworked, and only then. -/
def version (t : Task) (i : Nat) : Option (Nat × List Revision) :=
  (t.units[i]?).map fun u => (u.revision, u.history)

/-- What any change does: it moves the books, and what is covered is not reworked. -/
structure Follows (t : Task) (slot : Option Books.Slot) (t' : Task) : Prop where
  id : t'.id = t.id
  offerVersion : t'.offerVersion = t.offerVersion
  funding : t'.subscriptionFunding = t.subscriptionFunding
  move : Books.Move t.books slot t'.books
  version : ∀ i ∈ t.books.covered, t'.version i = t.version i

omit [Env] in
theorem Same.follows {slot : Option Books.Slot} (h : t.Same t')
    (hmove : Books.Move t.books slot t'.books) : t.Follows slot t' where
  id := h.id
  offerVersion := h.offerVersion
  funding := h.funding
  move := hmove
  version := fun i _ => by rw [Task.version, Task.version, h.units]

omit [Env] in
theorem books_setUnit (i : Nat) (u : WorkUnit) :
    ({ t with units := t.units.set i u } : Task).books = t.books := by
  simp only [books, List.length_set]

omit [Env] in
/-- Replacing one output. -/
theorem follows_setUnit {i : Nat} {u u' : WorkUnit} (hu : t.units[i]? = some u)
    (hkept : i ∈ t.books.covered → u'.revision = u.revision ∧ u'.history = u.history) :
    t.Follows none { t with units := t.units.set i u' } where
  id := rfl
  offerVersion := rfl
  funding := rfl
  move := by
    rw [books_setUnit]
    exact .stay _
  version := by
    intro j hj
    obtain ⟨hi, -⟩ := List.getElem?_eq_some_iff.mp hu
    rw [Task.version, Task.version]
    by_cases hij : i = j
    · subst hij
      obtain ⟨hrevision, hhistory⟩ := hkept hj
      rw [List.getElem?_set, if_pos rfl, if_pos hi, hu, Option.map_some, Option.map_some, hrevision,
        hhistory]
    · rw [List.getElem?_set, if_neg hij]

omit [Env] in
theorem decide_follows {intent : Intent} (h : t.decide p intent now = .ok t') :
    t.Follows none t' := by
  simp only [decide, bind_eq_ok, ensure_eq_ok, exists_unit] at h
  obtain ⟨-, -, replayed, -, h⟩ := h
  split at h
  · rw [pure_eq_ok] at h
    subst h
    exact Same.rfl.follows (.stay _)
  · simp only [bind_eq_ok, ensure_eq_ok, exists_unit, pure_eq_ok] at h
    obtain ⟨u, -, -, rfl⟩ := h
    have hsame : t.Same (t.append p now intent) := ⟨rfl, rfl, rfl, rfl⟩
    exact hsame.follows (.stay _)

omit [Env] in
/-- Only an output that no approved refund covers is reworked. -/
theorem rework_follows {intent : Intent} (hs : t.books.Sound)
    (h : t.rework p intent now = .ok t') : t.Follows none t' := by
  simp only [rework, bind_eq_ok, ensure_eq_ok, exists_unit] at h
  obtain ⟨-, -, replayed, -, h⟩ := h
  split at h
  · rw [pure_eq_ok] at h
    subst h
    exact Same.rfl.follows (.stay _)
  · simp only [bind_eq_ok, ensure_eq_ok, exists_unit, pure_eq_ok] at h
    obtain ⟨u, hu, t₁, hpreserve, ⟨-, hfree⟩, -, -, rfl⟩ := h
    have heq := preserveLegacyRefund_ok hs hpreserve
    subst heq
    simp only [checkBinding, bind_eq_ok, okOr_eq_ok, ensure_eq_ok, exists_unit, pure_eq_ok] at hu
    obtain ⟨w, hw, -, rfl⟩ := hu
    have hset : t₁.Follows none
        { t₁ with units := t₁.units.set intent.binding.unit (WorkUnit.reworked w now) } :=
      follows_setUnit hw fun hc => (hfree (refundedUnit_iff.mpr hc)).elim
    exact ⟨hset.id, hset.offerVersion, hset.funding, hset.move, hset.version⟩

omit [Env] in
theorem claim_follows {i : Nat} {attempt : String} {started : Nat}
    (h : t.claim i attempt started = .ok t') : t.Follows none t' := by
  unfold claim at h
  split at h
  · rw [pure_eq_ok] at h
    subst h
    exact Same.rfl.follows (.stay _)
  · simp only [bind_eq_ok, okOr_eq_ok] at h
    obtain ⟨u, hu, h⟩ := h
    split at h
    · rw [pure_eq_ok] at h
      subst h
      exact Same.rfl.follows (.stay _)
    · rw [pure_eq_ok] at h
      subst h
      exact follows_setUnit hu fun _ => ⟨rfl, rfl⟩

omit [Env] in
theorem outcome_follows {i : Nat} {attempt : String} {result : Outcome}
    (h : t.outcome i attempt result = .ok t') : t.Follows none t' := by
  simp only [outcome, bind_eq_ok, okOr_eq_ok] at h
  obtain ⟨u, hu, h⟩ := h
  split at h
  · rw [pure_eq_ok] at h
    subst h
    exact Same.rfl.follows (.stay _)
  · rw [pure_eq_ok] at h
    subst h
    refine follows_setUnit hu fun _ => ?_
    cases result with
    | delivered output outputHash => exact ⟨rfl, rfl⟩
    | invalidOutput reason => exact ⟨rfl, rfl⟩
    | unavailable => exact ⟨rfl, rfl⟩

/-! ## Quotes -/

omit [Env] in
theorem getService_id {id : String} {service : Service} (h : getService id = .ok service) :
    service.id = id := by
  unfold getService at h
  split at h
  · rename_i found hfound
    cases h
    simpa using List.find?_some hfound
  · cases h

/-- A quote opens sound books: nothing ordered, and the price is shared evenly. -/
theorem quoteService_sound {documents : List Document} {serviceId : String}
    {requirements key : Option String}
    (h : quoteService p documents serviceId requirements key now = .ok t) : t.books.Sound := by
  simp only [quoteService, bind_eq_ok, ensure_eq_ok, exists_unit, okOr_eq_ok, pure_eq_ok,
    validateInputs] at h
  obtain ⟨service, hservice, -, -, ⟨hsome, -⟩, id, -, rfl⟩ := h
  have hid := getService_id hservice
  have hpos : 0 < documents.length := List.length_pos_of_ne_nil hsome
  have hcount : ∀ (blank : WorkUnit) (f : Document → WorkUnit),
      (if serviceId = COMPARE then [blank] else documents.map f).length =
        service.outputs documents.length ∧ 0 < service.outputs documents.length := by
    intro blank f
    by_cases hc : serviceId = COMPARE
    · simp [Service.outputs, hid, hc]
    · simpa [Service.outputs, hid, hc] using hpos
  obtain ⟨hlength, houtputs⟩ := hcount
    { (default : WorkUnit) with
      inputHash := Env.hash (.documents (documents.map fun d => (d.name, d.text))) }
    fun d => { (default : WorkUnit) with inputHash := Env.hash (.text d.text) }
  refine ⟨?_, ?_, fun _ => ⟨rfl, rfl, rfl⟩, fun hr => (Bool.false_ne_true hr).elim,
    fun _ hl => (List.not_mem_nil hl).elim, List.nodup_nil, fun _ hi => (List.not_mem_nil hi).elim,
    List.nodup_nil, fun _ => rfl, fun _ => ⟨rfl, rfl⟩⟩
  · simp only [books, hlength]
    exact houtputs
  · simp only [books, Books.price, hlength]
    rw [Nat.mul_div_cancel_left _ houtputs]

/-! ## Any change -/

/-- **Every change follows the books**, and the provider call it claims is that of the move. -/
theorem apply_follows {c : Change} {d : Option Dispatch} (hs : t.books.Sound)
    (h : t.apply p now c = .ok (t', d)) :
    ∃ slot, t.Follows slot t' ∧ d = slot.map t.dispatch := by
  -- a change that claims nothing
  have hquiet : t.Follows none t' → d = none →
      ∃ slot, t.Follows slot t' ∧ d = slot.map t.dispatch := fun hf hd => ⟨none, hf, hd⟩
  cases c with
  | checkout digest key =>
    simp only [apply, bind_eq_ok, pure_eq_ok, Prod.exists, Prod.mk.injEq] at h
    obtain ⟨_, key', h, rfl, rfl⟩ := h
    obtain ⟨hsame, slot, hmove, hd⟩ := checkout_move h
    exact ⟨slot, hsame.follows hmove, hd⟩
  | capture key =>
    simp only [apply, bind_eq_ok, pure_eq_ok, Prod.exists, Prod.mk.injEq] at h
    obtain ⟨_, key', h, rfl, rfl⟩ := h
    obtain ⟨hsame, slot, hmove, hd⟩ := startCapture_move h
    exact ⟨slot, hsame.follows hmove, hd⟩
  | approveRefund digest key =>
    simp only [apply, bind_eq_ok, pure_eq_ok, Prod.exists, Prod.mk.injEq] at h
    obtain ⟨_, key', h, rfl, rfl⟩ := h
    obtain ⟨hsame, slot, hmove, hd⟩ := approveRefund_move h
    exact ⟨slot, hsame.follows hmove, hd⟩
  | approveResolutionRefund id digest key =>
    simp only [apply, bind_eq_ok, pure_eq_ok, Prod.exists, Prod.mk.injEq] at h
    obtain ⟨_, index, h, rfl, rfl⟩ := h
    obtain ⟨hsame, slot, hmove, hd⟩ := approveResolutionRefund_move hs h
    exact ⟨slot, hsame.follows hmove, hd⟩
  | proposeResolutionRefund id bindings reason =>
    simp only [apply, bind_eq_ok, pure_eq_ok, Prod.mk.injEq] at h
    obtain ⟨_, h, rfl, rfl⟩ := h
    obtain ⟨hsame, hmove⟩ := proposeResolutionRefund_move hs h
    exact hquiet (hsame.follows hmove) rfl
  | decide intent =>
    simp only [apply, bind_eq_ok, pure_eq_ok, Prod.mk.injEq] at h
    obtain ⟨_, h, rfl, rfl⟩ := h
    exact hquiet (decide_follows h) rfl
  | rework intent =>
    simp only [apply, bind_eq_ok, pure_eq_ok, Prod.mk.injEq] at h
    obtain ⟨_, h, rfl, rfl⟩ := h
    exact hquiet (rework_follows hs h) rfl
  | order value =>
    simp only [apply, bind_eq_ok, pure_eq_ok, Prod.mk.injEq] at h
    obtain ⟨_, h, rfl, rfl⟩ := h
    obtain ⟨hsame, hmove⟩ := observeOrder_move h
    exact hquiet (hsame.follows hmove) rfl
  | refund value =>
    simp only [apply, bind_eq_ok, pure_eq_ok, Prod.mk.injEq] at h
    obtain ⟨_, h, rfl, rfl⟩ := h
    obtain ⟨hsame, hmove⟩ := observeRefund_move h
    exact hquiet (hsame.follows hmove) rfl
  | ledgerRefund index value =>
    simp only [apply, bind_eq_ok, pure_eq_ok, Prod.mk.injEq] at h
    obtain ⟨_, h, rfl, rfl⟩ := h
    obtain ⟨hsame, hmove⟩ := observeLedgerRefund_move h
    exact hquiet (hsame.follows hmove) rfl
  | orderUnknown =>
    simp only [apply, bind_eq_ok, okOr_eq_ok, pure_eq_ok, Prod.mk.injEq] at h
    obtain ⟨op, hop, rfl, rfl⟩ := h
    have hbooks : ({ t with order := some op.unknown } : Task).books = t.books := by
      simp [books, hop]
    refine hquiet (Same.follows ⟨rfl, rfl, rfl, rfl⟩ ?_) rfl
    rw [hbooks]
    exact .stay _
  | captureUnknown =>
    simp only [apply, bind_eq_ok, okOr_eq_ok, pure_eq_ok, Prod.mk.injEq] at h
    obtain ⟨op, hop, rfl, rfl⟩ := h
    have hbooks : ({ t with capture := some op.unknown } : Task).books = t.books := by
      simp [books, hop]
    refine hquiet (Same.follows ⟨rfl, rfl, rfl, rfl⟩ ?_) rfl
    rw [hbooks]
    exact .stay _
  | refundUnknown =>
    simp only [apply, bind_eq_ok, okOr_eq_ok, pure_eq_ok, Prod.mk.injEq] at h
    obtain ⟨op, hop, rfl, rfl⟩ := h
    have hbooks : ({ t with refund := some op.unknown } : Task).books = t.books := by
      simp [books, hop]
    refine hquiet (Same.follows ⟨rfl, rfl, rfl, rfl⟩ ?_) rfl
    rw [hbooks]
    exact .stay _
  | ledgerUnknown index =>
    simp only [apply, bind_eq_ok, okOr_eq_ok, pure_eq_ok, Prod.mk.injEq] at h
    obtain ⟨r, hr, op, hop, rfl, rfl⟩ := h
    have hline : ({ r with operation := some op.unknown } : Refund).line = r.line := by
      simp [Refund.line, hop]
    have hset : ∀ r' : Refund, r'.line = r.line →
        ({ t with refunds := t.refunds.set index r' } : Task).books = t.books := by
      intro r' hr'
      have hget : t.books.lines[index]? = some r.line := by
        rw [getElem?_lines, hr]
        rfl
      have hkept : (t.refunds.map Refund.line).set index r.line = t.refunds.map Refund.line := by
        obtain ⟨pre, post, hsplit, hsame, -⟩ := Books.set_split hget r.line
        exact hsame.trans hsplit.symm
      simp only [books, List.map_set, hr', hkept]
    refine hquiet (Same.follows ⟨rfl, rfl, rfl, rfl⟩ ?_) rfl
    rw [hset _ hline]
    exact .stay _
  | review message =>
    cases h
    exact hquiet (Same.follows ⟨rfl, rfl, rfl, rfl⟩ (.stay _)) rfl
  | share token =>
    simp only [apply, bind_eq_ok] at h
    obtain ⟨-, -, h⟩ := h
    split at h
    · cases h
      exact hquiet (Same.rfl.follows (.stay _)) rfl
    · simp only [bind_eq_ok, pure_eq_ok, Prod.mk.injEq] at h
      obtain ⟨token, -, rfl, rfl⟩ := h
      exact hquiet (Same.follows ⟨rfl, rfl, rfl, rfl⟩ (.stay _)) rfl
  | unshare =>
    simp only [apply, bind_eq_ok, pure_eq_ok, Prod.mk.injEq] at h
    obtain ⟨-, -, rfl, rfl⟩ := h
    exact hquiet (Same.follows ⟨rfl, rfl, rfl, rfl⟩ (.stay _)) rfl
  | process =>
    cases h
    exact hquiet (Same.rfl.follows (.stay _)) rfl
  | claim index attempt =>
    simp only [apply, bind_eq_ok, pure_eq_ok, Prod.mk.injEq] at h
    obtain ⟨_, h, rfl, rfl⟩ := h
    exact hquiet (claim_follows h) rfl
  | outcome index attempt result =>
    simp only [apply, bind_eq_ok, pure_eq_ok, Prod.mk.injEq] at h
    obtain ⟨_, h, rfl, rfl⟩ := h
    exact hquiet (outcome_follows h) rfl

end

end Task

end ChainPay.Paypal
