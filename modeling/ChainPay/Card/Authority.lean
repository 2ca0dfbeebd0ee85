import ChainPay.Card.Exec

/-!
Who controls the credit line. In every reachable state of a card whose policy is
set, the authorizer is a member in slot 1, differs from the owner, and a period is
open. From there, calls the owner signs without the authorizer can neither touch
the terms, the debt, the period nor a hold, short of wiping the card.
-/

namespace ChainPay.Card
open ChainPay.Lib

/-- What a card with a policy always satisfies. -/
structure Governed (c : Credit) : Prop where
  members : c.terms.authorizer ≠ 0 → 2 ≤ c.terms.memberCount
  second : c.terms.authorizer ≠ 0 → c.terms.second = c.terms.authorizer
  other : c.terms.authorizer ≠ 0 → c.terms.authorizer ≠ c.terms.owner
  index : c.terms.authorizer ≠ 0 → c.period.periodIndex ≠ 0

namespace Governed

variable {c c' : Credit} {q : CardPeriod} {hs : Table Hash Reservation}

/-- Billing, crediting and repaying leave control where it was. -/
theorem same {t : Terms} (hg : Governed c) (hi : q.periodIndex = c.period.periodIndex)
    (ho : t.owner = c.terms.owner) (ha : t.authorizer = c.terms.authorizer)
    (hm : t.memberCount = c.terms.memberCount) (h2 : t.second = c.terms.second) :
    Governed ⟨t, q, hs⟩ := by
  refine ⟨?_, ?_, ?_, ?_⟩
  · change t.authorizer ≠ 0 → 2 ≤ t.memberCount
    rw [ha, hm]
    exact hg.members
  · change t.authorizer ≠ 0 → t.second = t.authorizer
    rw [ha, h2]
    exact hg.second
  · change t.authorizer ≠ 0 → t.authorizer ≠ t.owner
    rw [ha, ho]
    exact hg.other
  · change t.authorizer ≠ 0 → q.periodIndex ≠ 0
    rw [ha, hi]
    exact hg.index

/-- **Step.** Every move keeps the card governed. -/
theorem move {signers : List Pubkey} {l : Label} (hg : Governed c) (hm : Move signers c l c') :
    Governed c' := by
  cases hm with
  | quiet => exact hg
  | members hfirst hlater =>
    have hcount : c.terms.authorizer ≠ 0 → c.terms.memberCount ≠ 0 := fun hset => by
      have := hg.members hset
      omega
    refine ⟨fun hset => (hlater (hcount hset)).2 (hg.members hset), fun hset => ?_, hg.other,
      hg.index⟩
    exact (hlater (hcount hset)).1.trans (hg.second hset)
  | terms hmembers hcount hsecond _ _ hother _ _ _ _ _ _ hindex =>
    exact ⟨fun _ => by rw [hcount]; exact hmembers, fun _ => hsecond,
      fun _ => hother, fun _ => hindex⟩
  | hold _ _ _ _ _ _ _ _ hq => exact hg.same hq.index rfl rfl rfl rfl
  | charge _ _ _ _ _ _ _ _ hq => exact hg.same hq.index rfl rfl rfl rfl
  | adjustDown _ _ _ _ _ hq => exact hg.same hq.index rfl rfl rfl rfl
  | adjustUp _ _ _ _ _ _ hq => exact hg.same hq.index rfl rfl rfl rfl
  | capture _ _ _ _ _ _ _ _ hq => exact hg.same hq.index rfl rfl rfl rfl
  | reverse _ _ _ _ hq => exact hg.same hq.index rfl rfl rfl rfl
  | refund _ _ _ _ hq => exact hg.same hq.index rfl rfl rfl rfl
  | dispute _ _ => exact hg.same rfl rfl rfl rfl rfl
  | overHold _ _ _ _ _ hq => exact hg.same hq.index rfl rfl rfl rfl
  | correct _ _ hq => exact hg.same hq.index rfl rfl rfl rfl
  | debit _ _ _ _ hq => exact hg.same hq.index rfl rfl rfl rfl
  | repay _ _ _ _ _ => exact hg.same rfl rfl rfl rfl rfl
  | roll _ hexp _ _ hindex =>
    obtain ⟨ht, -, -⟩ := Credit.Expire.frame hexp
    refine ⟨?_, ?_, ?_, fun _ => ?_⟩
    · rw [ht]
      exact hg.members
    · rw [ht]
      exact hg.second
    · rw [ht]
      exact hg.other
    · rw [hindex]
      exact Nat.succ_ne_zero _
  | close _ _ _ => exact hg.same rfl rfl rfl rfl rfl
  | wipe _ _ hset _ _ _ _ _ _ _ =>
    exact ⟨fun h => absurd hset h, fun h => absurd hset h, fun h => absurd hset h,
      fun h => absurd hset h⟩
  | restore _ hmembers hcount hsecond _ _ hother _ _ hindex =>
    exact ⟨fun _ => by rw [hcount]; exact hmembers, fun _ => hsecond,
      fun _ => hother, fun _ => hindex⟩

end Governed

theorem Fresh.governed [Runtime] {s : State} (h : Fresh s) : Governed s.credit := by
  obtain ⟨b, hp, -⟩ := h.eq
  have hset : s.credit.terms.authorizer = 0 := by
    simp only [State.credit, hp]
    rfl
  exact ⟨fun h => absurd hset h, fun h => absurd hset h, fun h => absurd hset h,
    fun h => absurd hset h⟩

theorem run_governed [Runtime] {s : State} (calls : List Call) (hs : Fresh s) :
    Governed (Runs.after exec s calls).credit := by
  have hall : Runs.Along exec (fun _ _ _ => True) s calls := Runs.along_true s calls
  exact run_inv (fun _ _ _ _ hm hg => hg.move hm) hall hs.governed

/-! ## The owner alone -/

/-- `c'` has the terms, the debt, the period and (of the holds still there) the
holds of `c`; only a lower budget and a longer period are allowed. -/
structure Kept (c c' : Credit) : Prop where
  authorizer : c'.terms.authorizer = c.terms.authorizer
  feeBps : c'.terms.feeBps = c.terms.feeBps
  outstanding : c'.terms.outstanding = c.terms.outstanding
  second : c'.terms.second = c.terms.second
  period : c'.period = c.period
  holds : ∀ h r, c'.holds.lookup h = some r → c.holds.lookup h = some r
  budget : c'.terms.budgetCents ≤ c.terms.budgetCents
  seconds : c.terms.periodSeconds ≤ c'.terms.periodSeconds

theorem Kept.refl (c : Credit) : Kept c c :=
  ⟨rfl, rfl, rfl, rfl, rfl, fun _ _ h => h, le_rfl, le_rfl⟩

theorem Kept.trans {c₁ c₂ c₃ : Credit} (h : Kept c₁ c₂) (h' : Kept c₂ c₃) : Kept c₁ c₃ where
  authorizer := h'.authorizer.trans h.authorizer
  feeBps := h'.feeBps.trans h.feeBps
  outstanding := h'.outstanding.trans h.outstanding
  second := h'.second.trans h.second
  period := h'.period.trans h.period
  holds := fun x r hr => h.holds x r (h'.holds x r hr)
  budget := h'.budget.trans h.budget
  seconds := h.seconds.trans h'.seconds

/-- **Step.** A move without the authorizer's signature keeps everything, unless it
wipes the card. -/
theorem Kept.move {signers : List Pubkey} {c c' : Credit} {l : Label} (hg : Governed c)
    (hset : c.terms.authorizer ≠ 0) (hno : c.terms.authorizer ∉ signers) (hl : l ≠ .wipe)
    (hm : Move signers c l c') : Kept c c' := by
  have hnot : ¬ Credit.Authorized signers c := fun h => hno h.2
  cases hm with
  | quiet => exact .refl c
  | members hfirst hlater =>
    have hcount : c.terms.memberCount ≠ 0 := by
      have := hg.members hset
      omega
    exact { Kept.refl c with second := (hlater hcount).1 }
  | terms _ _ hsecond _ _ _ _ hout _ hcosign _ hq _ _ _ =>
    obtain ⟨ha, hf, hb, hp⟩ := hcosign hset hno
    exact ⟨ha, hf, hout, (hsecond.trans ha).trans (hg.second hset).symm, hq (hg.index hset),
      fun _ _ h => h, hb, hp⟩
  | close hr _ _ =>
    exact { Kept.refl c with holds := forall_lookup_erase fun _ _ h => h }
  | wipe => exact absurd rfl hl
  | restore hsigned _ _ _ _ _ _ _ _ _ =>
    rw [hg.second hset] at hsigned
    exact absurd hsigned hno
  | hold hauth => exact absurd hauth hnot
  | charge hauth => exact absurd hauth hnot
  | adjustDown hauth => exact absurd hauth hnot
  | adjustUp hauth => exact absurd hauth hnot
  | capture hauth => exact absurd hauth hnot
  | reverse hauth => exact absurd hauth hnot
  | refund hauth => exact absurd hauth hnot
  | dispute hauth => exact absurd hauth hnot
  | overHold hauth => exact absurd hauth hnot
  | correct hauth => exact absurd hauth hnot
  | debit hauth => exact absurd hauth hnot
  | repay hauth => exact absurd hauth hnot
  | roll hauth => exact absurd hauth hnot

/-- A step the owner signs and the current authorizer does not, other than a wipe. -/
def OwnerOnly (s : State) (call : Call) (_ : State) : Prop :=
  s.policy.owner ∈ call.ctx.signers ∧ s.policy.authorizer ∉ call.ctx.signers ∧
    call.instr.label ≠ .wipe

instance (s : State) (call : Call) (s' : State) : Decidable (OwnerOnly s call s') :=
  inferInstanceAs (Decidable (_ ∧ _))

/-- **The owner alone cannot change credit terms or debt.** -/
theorem owner_alone_keeps_credit [Runtime] (s : State) (before calls : List Call) (hs : Fresh s)
    (hset : (Runs.after exec s before).policy.isSet)
    (howner : Runs.Along exec OwnerOnly (Runs.after exec s before) calls) :
    let s₁ := Runs.after exec s before
    let s₂ := Runs.after exec s₁ calls
    s₂.policy.authorizer = s₁.policy.authorizer ∧ s₂.policy.feeBps = s₁.policy.feeBps ∧
      s₂.policy.statementOutstandingCents = s₁.policy.statementOutstandingCents ∧
      s₂.policy.members[1] = s₁.policy.members[1] ∧ s₂.period = s₁.period ∧
      (∀ h r, s₂.reservations.lookup h = some r → s₁.reservations.lookup h = some r) ∧
      s₂.policy.budgetCents ≤ s₁.policy.budgetCents ∧
      s₁.policy.periodSeconds ≤ s₂.policy.periodSeconds := by
  intro s₁ s₂
  have hg : Governed s₁.credit := run_governed before hs
  have hkept : Governed s₂.credit ∧ Kept s₁.credit s₂.credit := by
    refine run_inv (I := fun c => Governed c ∧ Kept s₁.credit c) ?_ howner ⟨hg, .refl _⟩
    rintro s call s' ⟨-, hno, hl⟩ hm ⟨hgs, hks⟩
    have hsets : s.credit.terms.authorizer ≠ 0 := by
      rw [hks.authorizer]
      exact hset
    exact ⟨hgs.move hm, hks.trans (Kept.move hgs hsets hno hl hm)⟩
  have hk := hkept.2
  exact ⟨hk.authorizer, hk.feeBps, hk.outstanding, hk.second, hk.period, hk.holds, hk.budget,
    hk.seconds⟩

open Sample in
theorem owner_alone_keeps_credit_sample :
    let before := setup 5000 3000 50 ++ purchase 20 2000 true
    let calls := [⟨ctxAt 1800000000 [owner], .setPolicy owner (policyArgs 3000 3000 50) none⟩,
      ⟨ctxAt 1800000000 [owner], .setPolicy owner (policyArgs 4000 3000 0) none⟩]
    Fresh start ∧ (Runs.after exec start before).policy.isSet ∧
      Runs.Along exec OwnerOnly (Runs.after exec start before) calls ∧
      (Runs.after exec (Runs.after exec start before) calls).policy.statementOutstandingCents =
        2010 := by
  have hset : (Runs.after exec start (setup 5000 3000 50 ++ purchase 20 2000 true)).policy.isSet := by
    decide
  have halong : Runs.Along exec OwnerOnly
      (Runs.after exec start (setup 5000 3000 50 ++ purchase 20 2000 true))
      [⟨ctxAt 1800000000 [owner], .setPolicy owner (policyArgs 3000 3000 50) none⟩,
        ⟨ctxAt 1800000000 [owner], .setPolicy owner (policyArgs 4000 3000 0) none⟩] := by
    decide
  have hout : (Runs.after exec start
      (setup 5000 3000 50 ++ purchase 20 2000 true)).policy.statementOutstandingCents = 2010 := by
    decide
  obtain ⟨-, -, hsame, -⟩ := owner_alone_keeps_credit start _ _ start_fresh hset halong
  exact ⟨start_fresh, hset, halong, hsame.trans hout⟩

end ChainPay.Card
