import ChainPay.Crossmint.Observation
import ChainPay.Lib.Runs
import Mathlib.Data.List.Forall2

/-!
When a Crossmint order counts as fulfilled, and what clears it. A proof says so on full evidence,
except that a refund whose amount is not legible is read as none; and later readbacks that are
stored clear it, except for such refunds and for failed lines that are not among the first 32.
-/

namespace ChainPay.Crossmint
open ChainPay.Lib

/-! ## What was reported -/

def paymentOf (body : Json) : Json := field "payment" (orderOf body)

def refundOf (body : Json) : Json := field "refunded" (paymentOf body)

def reportedStatus (line : Json) : Option Text := asStr (field "status" (field "delivery" line))

/-- A recipient whose legible `walletAddress` and `locator` name one wallet. -/
structure Names (recipient : Json) (wallet : Text) : Prop where
  stated : (boundedStr (field "walletAddress" recipient) 64).isSome = true ∨
    (boundedStr (field "locator" recipient) 256).isSome = true
  walletAddress : ∀ w ∈ boundedStr (field "walletAddress" recipient) 64, w = wallet
  locator : ∀ l ∈ boundedStr (field "locator" recipient) 256, l = "solana:".toList ++ wallet

/-- A line that was delivered to its item's reviewed wallet. -/
structure LineEvidence (line item : Json) : Prop where
  status : reportedStatus line = some COMPLETED
  wallet : ∃ wallet, asStr (field "deliveryRecipient" item) = some wallet ∧
    Names (field "recipient" (field "delivery" line)) wallet

/-- Full evidence of an order. -/
structure Evidence (body : Json) (orderId owner : Text) (binding : Json) : Prop where
  order : orderIdOf (orderOf body) = some orderId ∧ asStr (field "orderId" binding) = some orderId
  payer : asStr (field "payerAddress" binding) = some owner ∧
    isNullOr owner (field "payerAddress" (field "preparation" (paymentOf body))) = true
  method : isNullOr "solana".toList (field "method" (paymentOf body)) = true
  paid : asStr (field "status" (paymentOf body)) = some COMPLETED
  refunded : refundOf body = .null
  lines : ∃ lines items, asArray (field "lineItems" (orderOf body)) = some lines ∧
    asArray (field "items" binding) = some items ∧ lines.length = items.length ∧
    1 ≤ lines.length ∧ List.Forall₂ LineEvidence lines items

/-- No refund, or one whose amount is a text of 1 to 64 bytes between its blanks. -/
def Legible (refund : Json) : Prop :=
  refund = .null ∨ ∃ amount, asStr (field "amount" refund) = some amount ∧ rustTrim amount ≠ [] ∧
    (encodeUtf8 (rustTrim amount)).length ≤ 64

/-- A refund, or a delivery that failed. -/
def Reports (r : Readback) : Prop :=
  refundOf r.body ≠ .null ∨ ∃ line ∈ linesOf (orderOf r.body), reportedStatus line = some FAILED

/-- A readback whose report, if it is one, shows: in a legible refund, or in a failed line among the
first 32. -/
def Plain (r : Readback) : Prop :=
  Reports r → (refundOf r.body ≠ .null ∧ Legible (refundOf r.body)) ∨
    ∃ line ∈ (linesOf (orderOf r.body)).take CROSSMINT_MAX_LINE_ITEMS,
      reportedStatus line = some FAILED

/-! ## Fields -/

theorem boundedStr_eq_some {value : Json} {max : Nat} {s : Text} :
    boundedStr value max = some s ↔ ∃ t, asStr value = some t ∧ rustTrim t = s ∧ s ≠ [] ∧
      (encodeUtf8 s).length ≤ max := by
  unfold boundedStr
  rw [Option.bind_eq_some_iff]
  refine exists_congr fun t => and_congr_right fun _ => ?_
  split
  · rename_i h
    rw [Option.some.injEq]
    exact ⟨fun heq => heq ▸ ⟨rfl, h⟩, fun heq => heq.1⟩
  · rename_i h
    constructor
    · intro hnone
      cases hnone
    · rintro ⟨rfl, hs⟩
      exact absurd hs h

theorem crossmintMoney_isSome {value : Json} :
    (crossmintMoney value).isSome = true ↔ ∃ amount, asStr (field "amount" value) = some amount ∧
      rustTrim amount ≠ [] ∧ (encodeUtf8 (rustTrim amount)).length ≤ 64 := by
  have hbind : (crossmintMoney value).isSome = (boundedStr (field "amount" value) 64).isSome := by
    unfold crossmintMoney
    cases boundedStr (field "amount" value) 64 with
    | none => rfl
    | some amount => rfl
  rw [hbind, Option.isSome_iff_exists]
  constructor
  · rintro ⟨_, h⟩
    obtain ⟨t, ht, rfl, hs⟩ := boundedStr_eq_some.mp h
    exact ⟨t, ht, hs⟩
  · rintro ⟨t, ht, hs⟩
    exact ⟨rustTrim t, boundedStr_eq_some.mpr ⟨t, ht, rfl, hs⟩⟩

/-- Of the refunds that are read as none, the legible ones are none. -/
theorem legible_iff {refund : Json} (h : crossmintMoney refund = none) :
    Legible refund ↔ refund = .null := by
  constructor
  · rintro (hnull | hamount)
    · exact hnull
    · have hsome := crossmintMoney_isSome.mpr hamount
      rw [h] at hsome
      cases hsome
  · exact Or.inl

theorem oneOf_iff {texts : List String} {value : Json} {t : Text}
    (hmem : t ∈ texts.map String.toList) (hne : t ≠ UNKNOWN) :
    (oneOf texts value).getD UNKNOWN = t ↔ asStr value = some t := by
  unfold oneOf
  cases asStr value with
  | none => exact ⟨fun h => absurd h.symm hne, fun h => nomatch h⟩
  | some s =>
    rw [Option.filter_some, Option.some.injEq]
    split
    · rfl
    · rename_i hnot
      constructor
      · intro h
        exact absurd h.symm hne
      · rintro rfl
        exact absurd (List.contains_iff_mem.mpr hmem) hnot

theorem lineStatus_completed {line : Json} :
    lineStatus line = COMPLETED ↔ reportedStatus line = some COMPLETED :=
  oneOf_iff (by decide) (by decide)

theorem lineStatus_failed {line : Json} :
    lineStatus line = FAILED ↔ reportedStatus line = some FAILED :=
  oneOf_iff (by decide) (by decide)

theorem fromLocator_eq_some {locator wallet : Text} :
    fromLocator locator = some wallet ↔ locator = "solana:".toList ++ wallet := by
  unfold fromLocator
  split
  · rename_i h
    obtain ⟨rest, rfl⟩ := List.isPrefixOf_iff_prefix.mp h
    rw [Option.some.injEq, List.append_cancel_left_eq]
    rfl
  · rename_i h
    constructor
    · intro hnone
      cases hnone
    · rintro rfl
      exact absurd (List.isPrefixOf_iff_prefix.mpr (List.prefix_append _ _)) h

theorem crossmintDeliveryWallet_iff {recipient : Json} {wallet : Text} :
    crossmintDeliveryWallet recipient = some (some wallet) ↔ Names recipient wallet := by
  unfold crossmintDeliveryWallet
  constructor
  · intro h
    cases hw : boundedStr (field "walletAddress" recipient) 64 with
    | none =>
      cases hl : boundedStr (field "locator" recipient) 256 with
      | none =>
        rw [hw, hl] at h
        cases h
      | some l =>
        rw [hw, hl] at h
        refine ⟨.inr (by rw [hl]; rfl), fun w hmem => ?_, fun l' hmem => ?_⟩
        · rw [hw] at hmem
          cases hmem
        · rw [hl] at hmem
          cases hmem
          exact fromLocator_eq_some.mp (Option.some.inj h)
    | some w =>
      cases hl : boundedStr (field "locator" recipient) 256 with
      | none =>
        rw [hw, hl] at h
        cases h
        refine ⟨.inl (by rw [hw]; rfl), fun w' hmem => ?_, fun l' hmem => ?_⟩
        · rw [hw] at hmem
          cases hmem
          rfl
        · rw [hl] at hmem
          cases hmem
      | some l =>
        rw [hw, hl] at h
        dsimp only at h
        split at h
        · rename_i hsame
          cases h
          refine ⟨.inl (by rw [hw]; rfl), fun w' hmem => ?_, fun l' hmem => ?_⟩
          · rw [hw] at hmem
            cases hmem
            rfl
          · rw [hl] at hmem
            cases hmem
            exact fromLocator_eq_some.mp hsame
        · cases h
  · rintro ⟨hstated, hwallet, hlocator⟩
    cases hw : boundedStr (field "walletAddress" recipient) 64 with
    | none =>
      cases hl : boundedStr (field "locator" recipient) 256 with
      | none =>
        rw [hw, hl] at hstated
        rcases hstated with h | h <;> cases h
      | some l => exact congrArg some (fromLocator_eq_some.mpr (hlocator l hl))
    | some w =>
      obtain rfl := hwallet w hw
      cases hl : boundedStr (field "locator" recipient) 256 with
      | none => rfl
      | some l =>
        dsimp only
        rw [if_pos (fromLocator_eq_some.mpr (hlocator l hl))]

theorem recipientMatches_iff {wallet : Option (Option Text)} {bound : Option Text} :
    recipientMatches wallet bound = some true ↔ ∃ w, wallet = some (some w) ∧ bound = some w := by
  unfold recipientMatches
  rcases wallet with _ | _ | w <;> rcases bound with _ | b <;> simp [eq_comm]

/-! ## The loop -/

section

variable {items : Option (List Json)}

/-- A line that the loop takes for delivered. -/
def Delivered (items : Option (List Json)) (i : Nat) (line : Json) : Prop :=
  lineStatus line = COMPLETED ∧
    recipientMatches (lineWallet line) (boundRecipient items i) = some true

theorem observeLines_allDelivered {lines : List Json} {i : Nat} {seen : Seen} :
    (observeLines items i lines seen).allDelivered = true ↔ seen.allDelivered = true ∧
      ∀ j line, lines[j]? = some line → Delivered items (i + j) line := by
  induction lines generalizing i seen with
  | nil => simp [observeLines]
  | cons line lines ih =>
    rw [observeLines, ih]
    have hline : (observeLine (boundRecipient items i) line seen).allDelivered = true ↔
        seen.allDelivered = true ∧ Delivered items i line := by
      unfold observeLine Delivered
      dsimp only
      rw [Bool.and_eq_true, decide_eq_true_eq]
    rw [hline, and_assoc]
    refine and_congr_right fun _ => ?_
    constructor
    · rintro ⟨hfirst, hrest⟩ j line' hj
      cases j with
      | zero =>
        cases hj
        exact hfirst
      | succ j =>
        have h := hrest j line' hj
        rwa [Nat.add_right_comm] at h
    · intro h
      refine ⟨h 0 line rfl, fun j line' hj => ?_⟩
      have hnext := h (j + 1) line' hj
      rwa [← Nat.add_assoc, Nat.add_right_comm] at hnext

theorem observeLines_anyFailed {lines : List Json} {i : Nat} {seen : Seen} :
    (observeLines items i lines seen).anyFailed = true ↔ seen.anyFailed = true ∨
      ∃ line ∈ lines, reportedStatus line = some FAILED := by
  induction lines generalizing i seen with
  | nil => simp [observeLines]
  | cons line lines ih =>
    have hline : (observeLine (boundRecipient items i) line seen).anyFailed = true ↔
        seen.anyFailed = true ∨ reportedStatus line = some FAILED := by
      unfold observeLine
      dsimp only
      rw [Bool.or_eq_true, decide_eq_true_eq, lineStatus_failed]
    rw [observeLines, ih, hline, or_assoc]
    simp only [List.mem_cons, exists_eq_or_imp]

theorem observeLines_anyUnknown {lines : List Json} {i : Nat} {seen : Seen}
    (h : seen.anyUnknown = true) : (observeLines items i lines seen).anyUnknown = true := by
  induction lines generalizing i seen with
  | nil => exact h
  | cons line lines ih =>
    refine ih ?_
    unfold observeLine
    dsimp only
    rw [h, Bool.true_or]

end

/-! ## One readback -/

section

variable {body binding : Json} {orderId owner phase : Text} {nowMs : Nat} {proof : OrderProof}

/-- What an observation has checked, and what its proof says. -/
structure Observed (body : Json) (orderId owner : Text) (binding : Json) (proof : OrderProof) :
    Prop where
  order : orderIdOf (orderOf body) = some orderId ∧ asStr (field "orderId" binding) = some orderId
  payer : asStr (field "payerAddress" binding) = some owner ∧
    isNullOr owner (field "payerAddress" (field "preparation" (paymentOf body))) = true
  method : isNullOr "solana".toList (field "method" (paymentOf body)) = true
  refunded : proof.refunded = crossmintMoney (refundOf body)
  failed : proof.delivery = .failed ↔
    ∃ line ∈ (linesOf (orderOf body)).take CROSSMINT_MAX_LINE_ITEMS,
      reportedStatus line = some FAILED
  delivered : proof.delivery = .delivered → linesOf (orderOf body) ≠ [] ∧
    (linesOf (orderOf body)).length ≤ CROSSMINT_MAX_LINE_ITEMS ∧
    (asArray (field "items" binding)).map List.length = some (linesOf (orderOf body)).length ∧
    ∀ j line, (linesOf (orderOf body))[j]? = some line →
      Delivered (asArray (field "items" binding)) j line
  fulfilled : proof.fulfilled = true ↔ asStr (field "status" (paymentOf body)) = some COMPLETED ∧
    proof.delivery = .delivered ∧ proof.refunded = none

/-- What the four flags come to. -/
theorem summary_failed {failed unknown delivered : Bool} :
    (if failed then DeliverySummary.failed else if unknown then .unknown
      else if delivered then .delivered else .pending) = .failed ↔ failed = true := by
  cases failed <;> cases unknown <;> cases delivered <;> simp

theorem summary_delivered {failed unknown delivered : Bool} :
    (if failed then DeliverySummary.failed else if unknown then .unknown
      else if delivered then .delivered else .pending) = .delivered ↔
      failed = false ∧ unknown = false ∧ delivered = true := by
  cases failed <;> cases unknown <;> cases delivered <;> simp

theorem crossmintObservation_ok
    (h : crossmintObservation body orderId owner binding nowMs = .ok (phase, proof)) :
    Observed body orderId owner binding proof := by
  unfold crossmintObservation at h
  simp only [↓bind_eq_ok, ensure_eq_ok, okOr_eq_ok, exists_unit, Except.ok.injEq] at h
  obtain ⟨⟨horder, hbinding, hpayer⟩, hpreparation, hmethod, _, -, heq⟩ := h
  cases heq
  refine ⟨⟨horder, hbinding⟩, ⟨hpayer, hpreparation⟩, hmethod, rfl, ?_, ?_, ?_⟩
  · dsimp only
    rw [summary_failed, observeLines_anyFailed]
    exact ⟨fun h => h.resolve_left Bool.false_ne_true, Or.inr⟩
  · dsimp only
    rw [summary_delivered]
    rintro ⟨-, hunknown, hdelivered⟩
    rw [Bool.or_eq_false_iff, decide_eq_false_iff_not, not_not] at hunknown
    obtain ⟨hunknown, hcount⟩ := hunknown
    have hcounted : ¬ (linesOf (orderOf body) = [] ∨
        CROSSMINT_MAX_LINE_ITEMS < (linesOf (orderOf body)).length) := by
      intro hbad
      have htrue : (observeLines (asArray (field "items" binding)) 0
          ((linesOf (orderOf body)).take CROSSMINT_MAX_LINE_ITEMS)
          { anyUnknown := decide (linesOf (orderOf body) = [] ∨
            CROSSMINT_MAX_LINE_ITEMS < (linesOf (orderOf body)).length) }).anyUnknown = true :=
        observeLines_anyUnknown (decide_eq_true hbad)
      exact Bool.false_ne_true (hunknown.symm.trans htrue)
    rw [not_or, Nat.not_lt] at hcounted
    rw [Bool.and_eq_true, observeLines_allDelivered, List.take_of_length_le hcounted.2] at hdelivered
    refine ⟨hcounted.1, hcounted.2, hcount, fun j line hj => ?_⟩
    have hline := hdelivered.1.2 j line hj
    rwa [Nat.zero_add] at hline
  · dsimp only
    rw [decide_eq_true_eq, oneOf_iff (t := COMPLETED) (by decide) (by decide)]
    rfl

/-- The lines of a delivered order, each with its item. -/
theorem Observed.lines (h : Observed body orderId owner binding proof)
    (hdelivered : proof.delivery = .delivered) :
    ∃ lines items, asArray (field "lineItems" (orderOf body)) = some lines ∧
      asArray (field "items" binding) = some items ∧ lines.length = items.length ∧
      1 ≤ lines.length ∧ List.Forall₂ LineEvidence lines items := by
  obtain ⟨hne, -, hcount, hall⟩ := h.delivered hdelivered
  unfold linesOf at hne hcount hall
  cases hlines : asArray (field "lineItems" (orderOf body)) with
  | none =>
    rw [hlines] at hne
    exact absurd rfl hne
  | some lines =>
    rw [hlines, Option.getD_some] at hne hcount hall
    cases hitems : asArray (field "items" binding) with
    | none =>
      rw [hitems] at hcount
      cases hcount
    | some items =>
      rw [hitems] at hcount hall
      have hlen : lines.length = items.length := (Option.some.inj hcount).symm
      refine ⟨lines, items, rfl, rfl, hlen, List.length_pos_iff.mpr hne, ?_⟩
      refine List.forall₂_iff_get.mpr ⟨hlen, fun i hline hitem => ?_⟩
      obtain ⟨hstatus, hmatches⟩ := hall i _ (List.getElem?_eq_getElem hline)
      obtain ⟨wallet, hwallet, hbound⟩ := recipientMatches_iff.mp hmatches
      refine ⟨lineStatus_completed.mp hstatus, wallet, ?_, crossmintDeliveryWallet_iff.mp hwallet⟩
      unfold boundRecipient at hbound
      rwa [Option.bind_some, List.getElem?_eq_getElem hitem, Option.bind_some] at hbound

/-- A proof says fulfilled on full evidence, if the refund is legible. -/
theorem Observed.evidence_iff (h : Observed body orderId owner binding proof)
    (hfulfilled : proof.fulfilled = true) :
    Evidence body orderId owner binding ↔ Legible (refundOf body) := by
  obtain ⟨hpaid, hdelivered, hrefunded⟩ := h.fulfilled.mp hfulfilled
  rw [h.refunded] at hrefunded
  rw [legible_iff hrefunded]
  constructor
  · exact fun he => he.refunded
  · intro hnull
    exact ⟨h.order, h.payer, h.method, hpaid, hnull, h.lines hdelivered⟩

end

/-! ## Readbacks in turn -/

section

variable {owner : Text} {s s' start : X402PaymentRecord} {r : Readback}

/-- What a readback does to a row that is not newer. -/
structure Stored (owner : Text) (s : X402PaymentRecord) (r : Readback) (s' : X402PaymentRecord)
    (orderId : Text) (proof : OrderProof) : Prop where
  reference : s.connectorReference = some orderId
  observed : Observed r.body orderId owner s.challenge proof
  settled : s.status.isSettled = true
  frame : s'.connectorReference = s.connectorReference ∧ s'.challenge = s.challenge
  status : s'.status =
    if s.status ≠ .verified ∨ proof.delivery = .failed ∨ proof.refunded.isSome = true then
      if proof.fulfilled then .verified else .confirmed
    else .verified

theorem record_ok (h : recordCrossmintOrderProof owner s r = .ok s') :
    if s.updatedAtMs ≤ r.nowMs then ∃ orderId proof, Stored owner s r s' orderId proof
    else s' = s := by
  unfold recordCrossmintOrderProof at h
  simp only [↓bind_eq_ok, ensure_eq_ok, okOr_eq_ok, exists_unit] at h
  obtain ⟨hconnector, orderId, hreference, ⟨phase, proof⟩, hobserved, record, hrecord, h⟩ := h
  unfold persistCrossmintObservation at hrecord
  simp only [↓bind_eq_ok, ensure_eq_ok, exists_unit] at hrecord
  obtain ⟨-, -, hsettled, hrecord⟩ := hrecord
  cases hrecord
  cases h
  unfold putCrossmintProof
  by_cases hle : s.updatedAtMs ≤ r.nowMs
  · rw [if_pos hle, if_pos ⟨hconnector, hsettled, hle⟩]
    refine ⟨orderId, proof, hreference, crossmintObservation_ok hobserved, hsettled, ⟨rfl, rfl⟩, ?_⟩
    dsimp only [Option.getD_some]
    unfold reverses
    have hok : (200 ≤ 200 ∧ 200 < 300) = True := by decide
    simp only [Option.any_some, Bool.or_eq_true, decide_eq_true_eq, hok, true_and]
    by_cases hverified : s.status = .verified
    · simp only [hverified]
    · simp only [ne_eq, hverified, not_false_eq_true, true_or, if_true]
  · rw [if_neg hle, if_neg fun hbad => hle hbad.2.2]
    rfl

/-- **A report that is stored clears the row**, if it is plain. -/
theorem Stored.cleared {orderId : Text} {proof : OrderProof}
    (h : Stored owner s r s' orderId proof) (hplain : Plain r) (hreports : Reports r) :
    s'.status = .confirmed := by
  have hreverses : proof.delivery = .failed ∨ proof.refunded.isSome = true := by
    rcases hplain hreports with ⟨hrefund, hlegible⟩ | hfailed
    · right
      rw [h.observed.refunded]
      exact crossmintMoney_isSome.mpr (hlegible.resolve_left hrefund)
    · exact .inl (h.observed.failed.mpr hfailed)
  have hnot : proof.fulfilled = false := by
    rw [← Bool.not_eq_true, h.observed.fulfilled]
    rintro ⟨-, hdelivered, hnone⟩
    rcases hreverses with hfailed | hsome
    · rw [hdelivered] at hfailed
      cases hfailed
    · rw [hnone] at hsome
      cases hsome
  rw [h.status, if_pos (.inr hreverses), hnot]
  rfl

/-- A row is verified by full evidence, or was before and nothing was reported. -/
theorem Stored.verified {orderId : Text} {proof : OrderProof}
    (h : Stored owner s r s' orderId proof) (hplain : Plain r) (hverified : s'.status = .verified) :
    Evidence r.body orderId owner s.challenge ∨ s.status = .verified ∧ ¬ Reports r := by
  have hquiet : ¬ Reports r := by
    intro hreports
    rw [h.cleared hplain hreports] at hverified
    cases hverified
  cases hfulfilled : proof.fulfilled with
  | true =>
    have hnone : refundOf r.body = .null := not_not.mp fun hrefund => hquiet (.inl hrefund)
    exact .inl ((h.observed.evidence_iff hfulfilled).mpr (.inl hnone))
  | false =>
    refine .inr ⟨?_, hquiet⟩
    have hstatus := h.status
    rw [hverified, hfulfilled] at hstatus
    split at hstatus
    · cases hstatus
    · rename_i hkept
      rw [not_or, not_not] at hkept
      exact hkept.1

/-- The readbacks that were stored. -/
def storedOf (s : X402PaymentRecord) (r : Readback) (_ : X402PaymentRecord) : List Readback :=
  if s.updatedAtMs ≤ r.nowMs then [r] else []

/-- Full evidence stands behind a verified row, and nothing was reported since. -/
def Backed (owner : Text) (start : X402PaymentRecord) (stored : List Readback) : Prop :=
  (start.status = .verified ∧ ∀ r ∈ stored, ¬ Reports r) ∨
    ∃ orderId before r later, start.connectorReference = some orderId ∧
      stored = before ++ r :: later ∧ Evidence r.body orderId owner start.challenge ∧
      ∀ r' ∈ later, ¬ Reports r'

/-- The row over a run, with what was stored so far. -/
structure Standing (owner : Text) (start s : X402PaymentRecord) (stored : List Readback) : Prop where
  reference : s.connectorReference = start.connectorReference
  challenge : s.challenge = start.challenge
  backed : s.status = .verified → Backed owner start stored

theorem Backed.append {stored : List Readback} (h : Backed owner start stored)
    (hquiet : ¬ Reports r) : Backed owner start (stored ++ [r]) := by
  have hlast : ∀ rs : List Readback, (∀ r' ∈ rs, ¬ Reports r') → ∀ r' ∈ rs ++ [r], ¬ Reports r' := by
    intro rs hrs r' hr'
    rcases List.mem_append.mp hr' with hr' | hr'
    · exact hrs r' hr'
    · rwa [List.mem_singleton.mp hr']
  rcases h with ⟨hstart, hall⟩ | ⟨orderId, before, e, later, hreference, rfl, hevidence, hall⟩
  · exact .inl ⟨hstart, hlast stored hall⟩
  · refine .inr ⟨orderId, before, e, later ++ [r], hreference, ?_, hevidence, hlast later hall⟩
    rw [List.append_assoc, List.cons_append]

theorem Standing.step {stored : List Readback} (hplain : Plain r)
    (hstep : recordCrossmintOrderProof owner s r = .ok s') (h : Standing owner start s stored) :
    Standing owner start s' (stored ++ storedOf s r s') := by
  have hrecord := record_ok hstep
  unfold storedOf
  split at hrecord
  · rename_i hle
    obtain ⟨orderId, proof, hstored⟩ := hrecord
    rw [if_pos hle]
    refine ⟨hstored.frame.1.trans h.reference, hstored.frame.2.trans h.challenge, fun hverified => ?_⟩
    rcases hstored.verified hplain hverified with hevidence | ⟨hbefore, hquiet⟩
    · refine .inr ⟨orderId, stored, r, [], h.reference ▸ hstored.reference, rfl, ?_,
        fun r' hr' => nomatch hr'⟩
      rwa [← h.challenge]
    · exact (h.backed hbefore).append hquiet
  · rename_i hnewer
    rw [if_neg hnewer, List.append_nil, hrecord]
    exact h

end

/-- **Fulfilled only on full evidence.** A proof that says fulfilled has full evidence if and only if
the order's refund is legible. And over plain readbacks in any sequence, each stored report of a
refund or a failed delivery clears the row, and a verified row has full evidence with no report
since. -/
theorem crossmint_fulfilled (owner : List Char) :
    (∀ body orderId binding nowMs phase proof,
      crossmintObservation body orderId owner binding nowMs = .ok (phase, proof) →
      proof.fulfilled = true →
      (Evidence body orderId owner binding ↔ Legible (refundOf body))) ∧
    ∀ start readbacks, (∀ r ∈ readbacks, Plain r) →
      Runs.Along (recordCrossmintOrderProof owner)
        (fun s r s' => Reports r → s.updatedAtMs ≤ r.nowMs → s'.status = .confirmed)
        start readbacks ∧
      ((Runs.after (recordCrossmintOrderProof owner) start readbacks).status = .verified →
        Backed owner start
          (Runs.logged (recordCrossmintOrderProof owner) storedOf start readbacks)) := by
  refine ⟨fun body orderId binding nowMs phase proof h hfulfilled =>
    (crossmintObservation_ok h).evidence_iff hfulfilled, fun start readbacks hplain => ?_⟩
  have hcalls : Runs.Along (recordCrossmintOrderProof owner) (fun _ r _ => Plain r) start readbacks :=
    Runs.along_of_calls hplain
  have hran : Runs.Along (recordCrossmintOrderProof owner)
      (fun s r s' => recordCrossmintOrderProof owner s r = .ok s') start readbacks :=
    Runs.along_of_inv (I := fun _ => True) (fun s r s' hstep _ => ⟨trivial, hstep⟩) readbacks trivial
  constructor
  · refine (Runs.along_and hcalls hran).mono fun s r s' ⟨hr, hstep⟩ hreports hle => ?_
    have hrecord := record_ok hstep
    rw [if_pos hle] at hrecord
    obtain ⟨orderId, proof, hstored⟩ := hrecord
    exact hstored.cleared hr hreports
  · have hstanding := Runs.after_logged (f := storedOf)
      (I := fun s stored => Standing owner start s stored)
      (fun s r s' stored hr hstep hs => hs.step hr hstep) hcalls
      ⟨rfl, rfl, fun hverified => .inl ⟨hverified, fun r hr => nomatch hr⟩⟩
    exact hstanding.backed

/-! ## An order of one item -/

def text (s : String) : Json := .str s.toList

def object (ms : List (String × Json)) : Json := .obj (ms.map fun m => (m.1.toList, m.2))

/-- A completed order with its one line delivered, and what it says of a refund. -/
def sampleBody (refunded : Json) : Json :=
  object [("orderId", text "order_1"), ("phase", text "completed"),
    ("payment", object [("status", text "completed"), ("refunded", refunded)]),
    ("lineItems", .arr [object [("delivery", object [("status", text "completed"),
      ("recipient", object [("walletAddress", text "reviewed")])])]])]

def sampleBinding : Json :=
  object [("orderId", text "order_1"), ("payerAddress", text "owner"),
    ("items", .arr [object [("deliveryRecipient", text "reviewed")]])]

def sampleRecord : X402PaymentRecord :=
  ⟨.crossmint, some "order_1".toList, sampleBinding, .confirmed, none, none, none, 1⟩

/-- A refund whose amount is a number. -/
def illegibleRefund : Json := object [("amount", .num (some 5))]

def legibleRefund : Json := object [("amount", text "5")]

/-- Whether the sample order counts as fulfilled. -/
def sampleFulfilled (refunded : Json) : Bool :=
  (crossmintObservation (sampleBody refunded) "order_1".toList "owner".toList sampleBinding 7).toOption.any
    fun p => p.2.fulfilled

theorem observation_sample {refunded : Json} (h : sampleFulfilled refunded = true) :
    ∃ phase proof, crossmintObservation (sampleBody refunded) "order_1".toList "owner".toList
      sampleBinding 7 = .ok (phase, proof) ∧ proof.fulfilled = true := by
  unfold sampleFulfilled at h
  cases hobs : crossmintObservation (sampleBody refunded) "order_1".toList "owner".toList
      sampleBinding 7 with
  | error e =>
    rw [hobs] at h
    cases h
  | ok p =>
    rw [hobs] at h
    exact ⟨p.1, p.2, rfl, h⟩

theorem eq_null {v : Json} (h : isNull v = true) : v = .null := by
  cases v <;> first | rfl | cases h

theorem plain_sample {r : Readback} (h : Legible (refundOf r.body))
    (hfew : (linesOf (orderOf r.body)).length ≤ CROSSMINT_MAX_LINE_ITEMS) : Plain r := by
  rintro (hrefund | ⟨line, hline, hfailed⟩)
  · exact .inl ⟨hrefund, h⟩
  · rw [List.take_of_length_le hfew]
    exact .inr ⟨line, hline, hfailed⟩

theorem crossmint_fulfilled_sample :
    (∃ phase proof, crossmintObservation (sampleBody .null) "order_1".toList "owner".toList
      sampleBinding 7 = .ok (phase, proof) ∧
      (Evidence (sampleBody .null) "order_1".toList "owner".toList sampleBinding ↔
        Legible (refundOf (sampleBody .null)))) ∧
      ((Runs.after (recordCrossmintOrderProof "owner".toList) sampleRecord
        [⟨sampleBody .null, none, 2⟩, ⟨sampleBody legibleRefund, none, 3⟩]).status = .verified →
        Backed "owner".toList sampleRecord
          (Runs.logged (recordCrossmintOrderProof "owner".toList) storedOf sampleRecord
            [⟨sampleBody .null, none, 2⟩, ⟨sampleBody legibleRefund, none, 3⟩])) := by
  constructor
  · obtain ⟨phase, proof, h, hfulfilled⟩ := observation_sample (show sampleFulfilled .null = true by
      decide +kernel)
    exact ⟨phase, proof, h, (crossmint_fulfilled _).1 _ _ _ _ _ _ h hfulfilled⟩
  · refine ((crossmint_fulfilled "owner".toList).2 sampleRecord _ fun r hr => ?_).2
    rcases List.mem_cons.mp hr with rfl | hr
    · exact plain_sample (.inl (eq_null (by decide +kernel))) (by decide +kernel)
    · rw [List.mem_singleton.mp hr]
      exact plain_sample (.inr (crossmintMoney_isSome.mp (by decide +kernel))) (by decide +kernel)

/-- A refund is reported, and the order counts as fulfilled. -/
theorem crossmint_refund_unread :
    ∃ phase proof, crossmintObservation (sampleBody illegibleRefund) "order_1".toList "owner".toList
      sampleBinding 7 = .ok (phase, proof) ∧ proof.fulfilled = true ∧
      ¬ Evidence (sampleBody illegibleRefund) "order_1".toList "owner".toList sampleBinding := by
  obtain ⟨phase, proof, h, hfulfilled⟩ :=
    observation_sample (show sampleFulfilled illegibleRefund = true by decide +kernel)
  refine ⟨phase, proof, h, hfulfilled, fun hevidence => ?_⟩
  have hreported : isNull (refundOf (sampleBody illegibleRefund)) = false := by decide +kernel
  rw [hevidence.refunded] at hreported
  cases hreported

end ChainPay.Crossmint
