import ChainPay.Card.Authority
import ChainPay.Card.Holds

/-!
The budget as a spend ceiling. In every run without a `restore` the period never
captures more than the budget, and what the debits of one period add to the
outstanding balance stays within the budget and its fee, however they are split.

The last section asks whether a capture inside its own hold always fits: it does
exactly while spend and holds together are within the budget, which
`record_exception(over_hold)` on another reservation can break.
-/

namespace ChainPay.Card
open ChainPay.Lib

/-! ## The ceiling -/

/-- Captured spend is within the budget, and there is none without a policy. -/
structure Capped (c : Credit) : Prop where
  captured : c.period.capturedCents ≤ c.terms.budgetCents
  unset : c.terms.authorizer = 0 → c.period.capturedCents = 0
  limited : Credit.Limited c.terms

namespace Capped

variable {c c' : Credit} {t : Terms} {q : CardPeriod} {hs : Table Hash Reservation}

/-- Nothing is captured and the policy limits stay. -/
theorem same (hc : Capped c) (hq : q.capturedCents = c.period.capturedCents)
    (ha : t.authorizer = c.terms.authorizer) (hb : t.budgetCents = c.terms.budgetCents)
    (hf : t.feeBps = c.terms.feeBps) : Capped ⟨t, q, hs⟩ where
  captured := by
    change q.capturedCents ≤ t.budgetCents
    rw [hq, hb]
    exact hc.captured
  unset := by
    change t.authorizer = 0 → q.capturedCents = 0
    rw [hq, ha]
    exact hc.unset
  limited := by
    change t.budgetCents ≤ _ ∧ t.feeBps ≤ _
    rw [hb, hf]
    exact hc.limited

/-- A debit that fits the budget, on a card with a policy. -/
theorem debit {signers : List Pubkey} {n : Nat} (hc : Capped c)
    (hauth : Credit.Authorized signers c) (hfits : n ≤ c.terms.budgetCents)
    (hq : q.capturedCents ≤ n) (a : Nat) : Capped ⟨Credit.bill c.terms a, q, hs⟩ where
  captured := hq.trans hfits
  unset := fun h => absurd h hauth.1
  limited := hc.limited

/-- **Step.** Every move but a restore keeps captured spend within the budget. -/
theorem move {signers : List Pubkey} {l : Label} (hc : Capped c) (hl : l ≠ .restore)
    (hm : Move signers c l c') : Capped c' := by
  cases hm with
  | quiet => exact hc
  | members _ _ => exact hc.same rfl rfl rfl rfl
  | terms _ _ _ hset _ _ hlim _ _ _ hbudget _ _ hcap _ =>
    refine ⟨?_, fun h => absurd h hset, hlim⟩
    by_cases ha : c.terms.authorizer = 0
    · rw [hcap, hc.unset ha]
      exact Nat.zero_le _
    · rw [hcap]
      rcases hbudget ha with hb | hb
      · exact hc.captured.trans hb
      · exact (Nat.le_add_right _ c.period.reservedCents).trans hb
  | hold _ _ _ _ _ _ _ _ hq => exact hc.same hq.captured rfl rfl rfl
  | charge hauth _ hpos hfits _ _ _ _ hq =>
    unfold Credit.used at hfits
    exact hc.debit hauth (n := c.period.capturedCents + _) (by omega) hq.captured.le _
  | adjustDown _ _ _ _ _ hq => exact hc.same hq.captured rfl rfl rfl
  | adjustUp _ _ _ _ _ _ hq => exact hc.same hq.captured rfl rfl rfl
  | capture hauth _ _ _ _ _ _ hfits hq => exact hc.debit hauth hfits (by rw [hq.captured]; omega) _
  | reverse _ _ _ _ hq => exact hc.same hq.captured rfl rfl rfl
  | refund _ _ _ _ hq => exact hc.same hq.captured rfl rfl rfl
  | dispute _ _ => exact hc.same rfl rfl rfl rfl
  | overHold _ _ _ _ _ hq => exact hc.same hq.captured rfl rfl rfl
  | correct _ _ hq => exact hc.same hq.captured rfl rfl rfl
  | debit hauth _ _ hfits hq =>
    unfold Credit.used at hfits
    exact hc.debit hauth hfits (by rw [hq.captured]; omega) _
  | repay _ _ _ _ _ => exact hc.same rfl rfl rfl rfl
  | roll hauth hexp hcap _ _ =>
    obtain ⟨ht, -, -⟩ := Credit.Expire.frame hexp
    refine ⟨?_, fun _ => hcap, ?_⟩
    · rw [hcap]
      exact Nat.zero_le _
    · rw [ht]
      exact hc.limited
  | close _ _ _ => exact hc.same rfl rfl rfl rfl
  | wipe _ _ _ _ hlim _ _ hcap' _ _ =>
    refine ⟨?_, fun _ => hcap', hlim⟩
    rw [hcap']
    exact Nat.zero_le _
  | restore => exact absurd rfl hl

end Capped

theorem Fresh.capped [Runtime] {s : State} (h : Fresh s) : Capped s.credit := by
  obtain ⟨b, hp, hq, -⟩ := h.eq
  have hterms : s.credit.terms = (zeroedPolicy b s.binding.owner).terms := by
    simp only [State.credit, ← hp]
  have hperiod : s.credit.period = zeroedPeriod := hq
  refine ⟨?_, fun _ => ?_, ?_⟩
  · rw [hperiod]
    exact Nat.zero_le _
  · rw [hperiod]
    rfl
  · rw [hterms]
    exact ⟨Nat.zero_le _, Nat.zero_le _⟩

theorem run_capped [Runtime] {s : State} {calls : List Call} (hs : Fresh s)
    (hno : NoRestore s calls) : Capped (Runs.after exec s calls).credit :=
  run_inv (fun _ _ _ hl hm hc => hc.move hl hm) hno hs.capped

/-! ## What a period bills -/

/-- A move inside one period captures `c'.captured - c.captured` and raises the
outstanding balance by at most that amount with its fee. -/
structure Billed (c c' : Credit) : Prop where
  captured : c.period.capturedCents ≤ c'.period.capturedCents
  raised : c'.terms.outstanding - c.terms.outstanding ≤
    grossOf (c'.period.capturedCents - c.period.capturedCents) c.terms.feeBps

namespace Billed

variable {c c' : Credit} {t : Terms} {q : CardPeriod} {hs : Table Hash Reservation}

theorem quiet (hq : q.capturedCents = c.period.capturedCents)
    (ht : t.outstanding ≤ c.terms.outstanding) : Billed c ⟨t, q, hs⟩ := by
  refine ⟨hq.ge, ?_⟩
  change t.outstanding - c.terms.outstanding ≤ _
  rw [Nat.sub_eq_zero_of_le ht]
  exact Nat.zero_le _

theorem debit {a : Nat} (hq : q.capturedCents = c.period.capturedCents + a) :
    Billed c ⟨Credit.bill c.terms a, q, hs⟩ := by
  refine ⟨by rw [hq]; exact Nat.le_add_right _ _, ?_⟩
  have ha : q.capturedCents - c.period.capturedCents = a := by omega
  change c.terms.outstanding + grossOf a c.terms.feeBps - c.terms.outstanding ≤
    grossOf (q.capturedCents - c.period.capturedCents) c.terms.feeBps
  rw [ha, Nat.add_sub_cancel_left]

/-- **Step.** Inside one period every debit is counted as captured. -/
theorem move {signers : List Pubkey} {l : Label} (hg : Governed c) (hc : Capped c)
    (hl : l ≠ .restore) (hindex : c'.period.periodIndex = c.period.periodIndex)
    (hm : Move signers c l c') : Billed c c' := by
  cases hm with
  | quiet => exact quiet rfl le_rfl
  | members _ _ => exact quiet rfl le_rfl
  | terms _ _ _ _ _ _ _ hout _ _ _ _ _ hcap _ => exact quiet hcap hout.le
  | hold _ _ _ _ _ _ _ _ hq => exact quiet hq.captured le_rfl
  | charge _ _ _ _ _ _ _ _ hq => exact debit hq.captured
  | adjustDown _ _ _ _ _ hq => exact quiet hq.captured le_rfl
  | adjustUp _ _ _ _ _ _ hq => exact quiet hq.captured le_rfl
  | capture _ _ _ _ _ _ _ _ hq => exact debit hq.captured
  | reverse _ _ _ _ hq => exact quiet hq.captured le_rfl
  | refund _ _ _ _ hq => exact quiet hq.captured (Nat.sub_le _ _)
  | dispute _ _ => exact quiet rfl le_rfl
  | overHold _ _ _ _ _ hq => exact quiet hq.captured le_rfl
  | correct _ _ hq => exact quiet hq.captured (Nat.sub_le _ _)
  | debit _ _ _ _ hq => exact debit hq.captured
  | repay _ _ _ _ _ => exact quiet rfl (Nat.sub_le _ _)
  | roll _ _ _ _ hnext =>
    rw [hnext] at hindex
    omega
  | close _ _ _ => exact quiet rfl le_rfl
  | wipe _ _ _ _ _ hout' hzero hcap' _ _ =>
    -- only a card without a policy is in period zero, and it has captured nothing
    have hunset : c.terms.authorizer = 0 := by
      by_contra hset
      exact hg.index hset (hindex.symm.trans hzero)
    exact quiet (hcap'.trans (hc.unset hunset).symm) (by rw [hout']; exact Nat.zero_le _)
  | restore => exact absurd rfl hl

end Billed

/-- A step inside one period that changes neither the fee nor the budget. -/
def Steady (s : State) (_ : Call) (s' : State) : Prop :=
  s'.period.periodIndex = s.period.periodIndex ∧ s'.policy.feeBps = s.policy.feeBps ∧
    s'.policy.budgetCents = s.policy.budgetCents

instance (s : State) (call : Call) (s' : State) : Decidable (Steady s call s') :=
  inferInstanceAs (Decidable (_ ∧ _))

/-- What one step adds to the outstanding balance; only `add_exposure` adds. -/
def exposureAdded (s : State) (_ : Call) (s' : State) : Nat :=
  s'.policy.statementOutstandingCents - s.policy.statementOutstandingCents

/-- Over a steady stretch the exposure added is at most the captured spend with the
fee on its total: splitting never raises the fees. -/
theorem exposureAdded_le [Runtime] {s : State} {calls : List Call} (hg : Governed s.credit)
    (hc : Capped s.credit) (hno : NoRestore s calls) (hsteady : Runs.Along exec Steady s calls) :
    let s' := Runs.after exec s calls
    s.period.capturedCents ≤ s'.period.capturedCents ∧
      s'.policy.budgetCents = s.policy.budgetCents ∧
      Runs.total exec exposureAdded s calls ≤
        grossOf (s'.period.capturedCents - s.period.capturedCents) s.policy.feeBps := by
  induction calls generalizing s with
  | nil => exact ⟨le_rfl, rfl, Nat.zero_le _⟩
  | cons call calls ih =>
    cases h : exec s call with
    | error e =>
      rw [Runs.along_cons_error h] at hsteady
      rw [NoRestore, Runs.along_cons_error h] at hno
      rw [Runs.total_cons_error h, Runs.after_cons, Runs.next_error h]
      exact ih hg hc hno hsteady
    | ok s₁ =>
      rw [Runs.along_cons_ok h] at hsteady
      rw [NoRestore, Runs.along_cons_ok h] at hno
      rw [Runs.total_cons_ok h, Runs.after_cons, Runs.next_ok h]
      obtain ⟨⟨hindex, hfee, hbudget⟩, hsteady⟩ := hsteady
      have hm := exec_move h
      have hb := Billed.move hg hc hno.1 hindex hm
      obtain ⟨hcap, hbud, htotal⟩ := ih (hg.move hm) (hc.move hno.1 hm) hno.2 hsteady
      refine ⟨hb.captured.trans hcap, hbud.trans hbudget, ?_⟩
      have hfirst : exposureAdded s call s₁ ≤
          grossOf (s₁.period.capturedCents - s.period.capturedCents) s.policy.feeBps := hb.raised
      have hle : s.period.capturedCents ≤ s₁.period.capturedCents := hb.captured
      rw [hfee] at htotal
      calc exposureAdded s call s₁ + Runs.total exec exposureAdded s₁ calls
          ≤ grossOf (s₁.period.capturedCents - s.period.capturedCents) s.policy.feeBps +
            grossOf ((Runs.after exec s₁ calls).period.capturedCents -
              s₁.period.capturedCents) s.policy.feeBps := Nat.add_le_add hfirst htotal
        _ ≤ grossOf ((s₁.period.capturedCents - s.period.capturedCents) +
              ((Runs.after exec s₁ calls).period.capturedCents - s₁.period.capturedCents))
              s.policy.feeBps := grossOf_add_le _ _ _
        _ = grossOf ((Runs.after exec s₁ calls).period.capturedCents -
              s.period.capturedCents) s.policy.feeBps := by
            congr 1
            omega

/-- **Per-period spend ceiling.** After any calls without a successful `restore`
captured spend is within the budget, and over any stretch of them inside one period
at a constant fee and budget the exposure added is at most the budget plus its fee. -/
theorem spend_ceiling [Runtime] (s : State) (calls : List Call) (hs : Fresh s)
    (hno : NoRestore s calls) :
    (Runs.after exec s calls).period.capturedCents ≤
        (Runs.after exec s calls).policy.budgetCents ∧
      ∀ before stretch, calls = before ++ stretch →
        Runs.Along exec Steady (Runs.after exec s before) stretch →
        ∃ f, fee (Runs.after exec s before).policy.budgetCents
            (Runs.after exec s before).policy.feeBps = .ok f ∧
          Runs.total exec exposureAdded (Runs.after exec s before) stretch ≤
            (Runs.after exec s before).policy.budgetCents + f := by
  refine ⟨(run_capped hs hno).captured, ?_⟩
  rintro before stretch rfl hsteady
  have hcap := (run_capped hs hno).captured
  rw [Runs.after_append] at hcap
  obtain ⟨hno₁, hno₂⟩ := (Runs.along_append s before stretch).mp hno
  have hcapped : Capped (Runs.after exec s before).credit := run_capped hs hno₁
  have hgoverned : Governed (Runs.after exec s before).credit := run_governed before hs
  obtain ⟨-, hbudget, htotal⟩ := exposureAdded_le hgoverned hcapped hno₂ hsteady
  refine ⟨_, fee_eq hcapped.limited.1 hcapped.limited.2, htotal.trans (grossOf_mono _ ?_)⟩
  change _ ≤ (Runs.after exec (Runs.after exec s before) stretch).policy.budgetCents at hcap
  rw [hbudget] at hcap
  exact (Nat.sub_le _ _).trans hcap

open Sample in
theorem spend_ceiling_sample :
    let before := setup 5000 3000 50
    let stretch := purchase 20 2999 true ++ purchase 21 2001 true
    Fresh start ∧ NoRestore start (before ++ stretch) ∧
      Runs.Along exec Steady (Runs.after exec start before) stretch ∧
      Runs.total exec exposureAdded (Runs.after exec start before) stretch ≤ 5000 + 25 := by
  have hno : NoRestore start
      (setup 5000 3000 50 ++ (purchase 20 2999 true ++ purchase 21 2001 true)) := by decide
  have hsteady : Runs.Along exec Steady (Runs.after exec start (setup 5000 3000 50))
      (purchase 20 2999 true ++ purchase 21 2001 true) := by decide
  have hfee : fee (Runs.after exec start (setup 5000 3000 50)).policy.budgetCents
      (Runs.after exec start (setup 5000 3000 50)).policy.feeBps = .ok 25 := by decide
  have hbudget : (Runs.after exec start (setup 5000 3000 50)).policy.budgetCents = 5000 := by
    decide
  obtain ⟨f, hf, htotal⟩ := (spend_ceiling start _ start_fresh hno).2 _ _ rfl hsteady
  rw [hfee] at hf
  cases hf
  rw [hbudget] at htotal
  exact ⟨start_fresh, hno, hsteady, htotal⟩

/-! ## Captures inside their own hold -/

section InsideHold

variable {s : State} {ctx : Ctx} {k : Pubkey} {h i : Hash} {a : Nat} {r : Reservation}

/-- Inside its hold, a capture releases what it bills and raises no exception. -/
theorem takeFromHold_inside {p : CardPolicy} {q : CardPeriod} (hopen : r.state.isOpen)
    (ha : a ≤ r.amountReservedCents) :
    takeFromHold p q r a = .ok (p, { q with reservedCents := q.reservedCents - a },
      { r with
        amountReservedCents := r.amountReservedCents - a
        state := if r.amountReservedCents - a = 0 then .captured else .partiallyCaptured }) := by
  have hmin : min a r.amountReservedCents = a := Nat.min_eq_left ha
  simp only [takeFromHold, if_pos (Or.inl hopen : r.state.isOpen ∨ r.state = .captured),
    releaseHold_eq, ok_bind, hmin, Nat.sub_self, Nat.lt_irrefl, if_false]
  rfl

/-- After the hold is released only the budget check can refuse a capture with
`BudgetExceeded`. -/
theorem capture_refused_iff (hactive : s.binding.status = .active) (hset : s.policy.isSet)
    (hk : s.policy.authorizer = k) (hsig : k ∈ ctx.signers)
    (hr : s.reservations.lookup h = some r) (hopen : r.state.isOpen)
    (hcount : r.captureIds.length < CAPTURE_RING) (hi : i ≠ 0) (hnew : i ∉ r.captureIds)
    (hpos : 0 < a) (ha : a ≤ r.amountReservedCents) :
    capture ctx k h a i s = .error (.policy .budgetExceeded) ↔
      requireBillable s.policy { s.period with reservedCents := s.period.reservedCents - a } a =
        .error (.policy .budgetExceeded) := by
  have hctx : reservationContext ctx k h s = .ok r := by
    simp [reservationContext, hsig, hactive, hr]
  have hauth : requireAuthorizer s.policy k = .ok () := requireAuthorizer_eq_ok.mpr ⟨hset, hk⟩
  have hid : requireEventId i = .ok () := requireEventId_eq_ok.mpr hi
  rw [capture, hctx, ok_bind, hauth, ok_bind, ensure_pos hpos, ok_bind, hid, ok_bind,
    ensure_pos hnew, ok_bind, ensure_pos hcount, ok_bind, takeFromHold_inside hopen ha, ok_bind,
    bind_eq_error]
  constructor
  · rintro (hb | ⟨_, -, hrest⟩)
    · exact hb
    · -- what follows the budget check fails with an overflow only
      simp only [bind_eq_error, add_eq_error] at hrest
      rcases hrest with ⟨-, he⟩ | ⟨_, -, ⟨-, he⟩ | ⟨_, -, he | ⟨_, -, he | ⟨_, -, he⟩⟩⟩⟩
      · cases he
      · cases he
      · cases addExposure_error he
      · cases appendLedger_error he
      · cases he
  · exact .inl

/-- On a closed card, or before the first policy, the capture fails earlier. -/
theorem capture_unready (hready : s.binding.status ≠ .active ∨ ¬ s.policy.isSet)
    (hsig : k ∈ ctx.signers) (hr : s.reservations.lookup h = some r) :
    capture ctx k h a i s ≠ .error (.policy .budgetExceeded) := by
  by_cases hactive : s.binding.status = .active
  · have hset : ¬ s.policy.isSet := hready.resolve_left (fun hn => hn hactive)
    have hctx : reservationContext ctx k h s = .ok r := by
      simp [reservationContext, hsig, hactive, hr]
    have hauth : requireAuthorizer s.policy k = .error (.policy .policyNotSet) := by
      simp [requireAuthorizer, ensure, hset]
    rw [capture, hctx, ok_bind, hauth, error_bind]
    decide
  · have hctx : reservationContext ctx k h s = .error .account := by
      simp [reservationContext, signerContext, requireSigner, requireLive, ensure, hsig, hactive]
    rw [capture, hctx, error_bind]
    decide

end InsideHold

/-- **A capture inside its own hold fits exactly while the card is within budget.**
In every state reached without a `restore`, a capture that the authorizer signs, of at
most its own open hold, is not refused with `BudgetExceeded` if and only if spend and
holds are within the budget, or an earlier check or the overflow of their sum refuses
it first. -/
theorem capture_inside_hold_fits_iff [Runtime] (s₀ : State) (calls : List Call) (hs : Fresh s₀)
    (hno : NoRestore s₀ calls) (ctx : Ctx) (k : Pubkey) (h i : Hash) (a : Nat) (r : Reservation)
    (hk : (Runs.after exec s₀ calls).policy.authorizer = k) (hsig : k ∈ ctx.signers)
    (hr : (Runs.after exec s₀ calls).reservations.lookup h = some r) (hopen : r.state.isOpen)
    (hcount : r.captureIds.length < CAPTURE_RING) (hi : i ≠ 0) (hnew : i ∉ r.captureIds)
    (hpos : 0 < a) (ha : a ≤ r.amountReservedCents) :
    let s := Runs.after exec s₀ calls
    capture ctx k h a i s ≠ .error (.policy .budgetExceeded) ↔
      s.period.capturedCents + s.period.reservedCents ≤ s.policy.budgetCents ∨
        s.binding.status ≠ .active ∨ ¬ s.policy.isSet ∨
        2 ^ 64 ≤ s.period.capturedCents + s.period.reservedCents := by
  intro s
  by_cases hready : s.binding.status ≠ .active ∨ ¬ s.policy.isSet
  · have hearly := capture_unready (a := a) (i := i) hready hsig hr
    exact iff_of_true hearly (.inr (or_assoc.mp (.inl hready)))
  · obtain ⟨hactive, hset⟩ := not_or.mp hready
    have hle : r.amountReservedCents ≤ s.period.reservedCents := (run_balanced hs hno).hold_le hr
    -- what leaves the hold enters the spend, so the checked sum is the one from before
    have hsum : s.period.capturedCents + (s.period.reservedCents - a) + a =
        s.period.capturedCents + s.period.reservedCents := by omega
    rw [ne_eq, capture_refused_iff (not_not.mp hactive) (not_not.mp hset) hk hsig hr hopen hcount
      hi hnew hpos ha, requireBillable_refused]
    simp only [hsum]
    constructor
    · intro hfit
      by_cases hbudget : s.period.capturedCents + s.period.reservedCents ≤ s.policy.budgetCents
      · exact .inl hbudget
      · exact .inr (.inr (.inr (by omega)))
    · rintro (hfit | hc | hc | hfit) ⟨hlt, hgt⟩
      · omega
      · exact hactive hc
      · exact hset hc
      · omega

open Sample in
/-- Two holds of 2000 on a budget of 5000, and nothing above it. -/
theorem capture_inside_hold_fits_sample :
    capture (ctxAt 1800000000 [authorizer]) authorizer (key 20) 500 (key 33)
      (Runs.after exec start
        (setup 5000 3000 50 ++ purchase 20 2000 false ++ purchase 21 2000 false)) ≠
      .error (.policy .budgetExceeded) := by
  let calls := setup 5000 3000 50 ++ purchase 20 2000 false ++ purchase 21 2000 false
  have hno : NoRestore start calls := by decide
  have hk : (Runs.after exec start calls).policy.authorizer = authorizer := by decide
  have hr : ∃ r, (Runs.after exec start calls).reservations.lookup (key 20) = some r ∧
      r.state.isOpen ∧ r.captureIds = [] ∧ r.amountReservedCents = 2000 := by
    refine ⟨((Runs.after exec start calls).reservations.lookup (key 20)).get (by decide),
      (Option.some_get _).symm, ?_, ?_, ?_⟩ <;> decide
  obtain ⟨r, hr, hopen, hids, hamount⟩ := hr
  have hfits := capture_inside_hold_fits_iff start calls start_fresh hno
    (ctxAt 1800000000 [authorizer]) authorizer (key 20) (key 33) 500 r hk
    (List.mem_singleton_self _) hr hopen (by rw [hids]; decide) (by decide)
    (by rw [hids]; exact List.not_mem_nil) (by decide) (by rw [hamount]; decide)
  exact hfits.mpr (.inl (by decide))

open Sample in
/-- Once another hold was raised above the budget, a capture of 500 inside an open
hold of 2000 is refused. -/
theorem capture_inside_hold_refused :
    let calls := setup 5000 3000 50 ++ purchase 20 2000 false ++ purchase 21 2000 false ++
      [byAuthorizer (.recordException authorizer (some (key 21)) 3 2000 (key 34))]
    let s := Runs.after exec start calls
    Fresh start ∧ NoRestore start calls ∧
      (∃ r, s.reservations.lookup (key 20) = some r ∧ r.state.isOpen ∧ r.captureIds = [] ∧
        r.amountReservedCents = 2000) ∧
      s.policy.authorizer = authorizer ∧ s.binding.status = .active ∧
      capture (ctxAt 1800000000 [authorizer]) authorizer (key 20) 500 (key 33) s =
        .error (.policy .budgetExceeded) := by
  intro calls s
  refine ⟨start_fresh, by decide, ⟨(s.reservations.lookup (key 20)).get (by decide),
    (Option.some_get _).symm, ?_, ?_, ?_⟩, ?_, ?_, ?_⟩ <;> decide

end ChainPay.Card
