import ChainPay.Card.Exec

/-!
What a hold was billed and what its refunds credited. `refund` caps the refunded
cents at the captured cents, but the floor fee is taken piece by piece on both
sides: captures in pieces can bill less fee than one refund of the whole credits.
The refunds of a hold stay within its debits in every run whose debits split no
fee, that is, where the fee of a further debit and the fee of what the hold had
captured add up to the fee of both together.
-/

namespace ChainPay.Card
open ChainPay.Lib

/-- Debits and refunds of one reservation so far, each with its fee. -/
structure HoldAccount where
  billed : Nat
  credited : Nat
  deriving DecidableEq, Repr

/-- One more successful call in the account of the hold `h` at the fee `f`. A new
reservation under `h` starts a new account. -/
def HoldAccount.post (f : Nat) (h : Hash) (b : HoldAccount) : Label → HoldAccount
  | .hold h' _ => if h' = h then ⟨0, 0⟩ else b
  | .charge h' a => if h' = h then ⟨grossOf a f, 0⟩ else b
  | .capture h' a => if h' = h then { b with billed := b.billed + grossOf a f } else b
  | .debit (some h') a => if h' = h then { b with billed := b.billed + grossOf a f } else b
  | .refund (some h') a => if h' = h then { b with credited := b.credited + grossOf a f } else b
  | _ => b

/-- A debit of `a` on a hold that captured `n` splits no fee. -/
def FeeAdds (f n a : Nat) : Prop := feeOf n f + feeOf a f = feeOf (n + a) f

instance (f n a : Nat) : Decidable (FeeAdds f n a) := inferInstanceAs (Decidable (_ = _))

/-- The move splits no fee of the hold it debits. -/
def Unsplit (f : Nat) (holds : Table Hash Reservation) : Label → Prop
  | .capture h a => ∀ r ∈ holds.lookup h, FeeAdds f r.capturedCents a
  | .debit (some h) a => ∀ r ∈ holds.lookup h, FeeAdds f r.capturedCents a
  | _ => True

instance (f : Nat) (holds : Table Hash Reservation) : ∀ l, Decidable (Unsplit f holds l)
  | .capture h a =>
    inferInstanceAs (Decidable (∀ r ∈ holds.lookup h, FeeAdds f r.capturedCents a))
  | .debit (some h) a =>
    inferInstanceAs (Decidable (∀ r ∈ holds.lookup h, FeeAdds f r.capturedCents a))
  | .debit none _ | .quiet | .members | .terms | .hold .. | .charge .. | .adjust ..
  | .reverse .. | .refund .. | .dispute .. | .overHold .. | .correct .. | .repay ..
  | .roll | .close .. | .wipe | .restore => .isTrue trivial

theorem FeeAdds.gross {f n a : Nat} (h : FeeAdds f n a) :
    grossOf n f + grossOf a f = grossOf (n + a) f := by
  unfold FeeAdds at h
  unfold grossOf
  omega

/-- The account of `h` against its live reservation. -/
structure Settled (f : Nat) (h : Hash) (c : Credit) (b : HoldAccount) : Prop where
  fee : c.terms.authorizer ≠ 0 → c.terms.feeBps = f
  within : b.credited ≤ b.billed
  billed : ∀ r, c.holds.lookup h = some r → b.billed = grossOf r.capturedCents f
  credited : ∀ r, c.holds.lookup h = some r →
    b.credited ≤ grossOf (min r.refundedCents r.capturedCents) f

namespace Settled

variable {f : Nat} {h : Hash} {c c' : Credit} {b : HoldAccount}

/-- A move that leaves the captured amount of `h` alone and takes no refund back. -/
theorem keep (hb : Settled f h c b) (hfee : c'.terms.authorizer ≠ 0 → c'.terms.feeBps = f)
    (hholds : ∀ r', c'.holds.lookup h = some r' → ∃ r, c.holds.lookup h = some r ∧
      r'.capturedCents = r.capturedCents ∧ r.refundedCents ≤ r'.refundedCents) :
    Settled f h c' b := by
  refine ⟨hfee, hb.within, fun r' hr' => ?_, fun r' hr' => ?_⟩
  · obtain ⟨r, hr, hcap, -⟩ := hholds r' hr'
    rw [hcap]
    exact hb.billed r hr
  · obtain ⟨r, hr, hcap, href⟩ := hholds r' hr'
    have hmin : min r.refundedCents r.capturedCents ≤ min r'.refundedCents r'.capturedCents := by
      omega
    exact (hb.credited r hr).trans (grossOf_mono f hmin)

/-- The same when one entry of the holds is rewritten. -/
theorem write {k : Hash} {r r' : Reservation} {t : Terms} {q : CardPeriod} (hb : Settled f h c b)
    (hfee : t.authorizer ≠ 0 → t.feeBps = f) (hr : k = h → c.holds.lookup k = some r)
    (hcap : k = h → r'.capturedCents = r.capturedCents)
    (href : k = h → r.refundedCents ≤ r'.refundedCents) :
    Settled f h ⟨t, q, c.holds.insert k r'⟩ b := by
  refine hb.keep hfee fun r₁ hr₁ => ?_
  by_cases hk : k = h
  · subst hk
    rw [AList.lookup_insert] at hr₁
    cases hr₁
    exact ⟨r, hr rfl, hcap rfl, href rfl⟩
  · rw [AList.lookup_insert_ne (Ne.symm hk)] at hr₁
    exact ⟨r₁, hr₁, rfl, le_rfl⟩

/-- A new reservation under `h`, with everything captured so far billed. -/
theorem fresh {r : Reservation} {t : Terms} {q : CardPeriod} {hs : Table Hash Reservation}
    (hfee : t.authorizer ≠ 0 → t.feeBps = f) :
    Settled f h ⟨t, q, hs.insert h r⟩ ⟨grossOf r.capturedCents f, 0⟩ := by
  refine ⟨hfee, Nat.zero_le _, fun r' hr' => ?_, fun _ _ => Nat.zero_le _⟩
  change (hs.insert h r).lookup h = some r' at hr'
  rw [AList.lookup_insert] at hr'
  cases hr'
  rfl

/-- A debit of `a` that splits no fee. -/
theorem debit {r r' : Reservation} {t : Terms} {q : CardPeriod} {a : Nat} (hb : Settled f h c b)
    (hfee : t.authorizer ≠ 0 → t.feeBps = f) (hr : c.holds.lookup h = some r)
    (hadd : FeeAdds f r.capturedCents a) (hcap : r'.capturedCents = r.capturedCents + a)
    (href : r'.refundedCents = r.refundedCents) :
    Settled f h ⟨t, q, c.holds.insert h r'⟩ { b with billed := b.billed + grossOf a f } := by
  have hbilled := hb.billed r hr
  have hcredited := hb.credited r hr
  refine ⟨hfee, hb.within.trans (Nat.le_add_right _ _), fun r₁ hr₁ => ?_, fun r₁ hr₁ => ?_⟩
  · change (c.holds.insert h r').lookup h = some r₁ at hr₁
    rw [AList.lookup_insert] at hr₁
    cases hr₁
    change b.billed + grossOf a f = _
    rw [hcap, hbilled, hadd.gross]
  · change (c.holds.insert h r').lookup h = some r₁ at hr₁
    rw [AList.lookup_insert] at hr₁
    cases hr₁
    have hmin : min r.refundedCents r.capturedCents ≤
        min r'.refundedCents r'.capturedCents := by omega
    exact hcredited.trans (grossOf_mono f hmin)

/-- A refund of `a` inside what the hold captured. -/
theorem refund {r r' : Reservation} {t : Terms} {q : CardPeriod} {a : Nat} (hb : Settled f h c b)
    (hfee : t.authorizer ≠ 0 → t.feeBps = f) (hr : c.holds.lookup h = some r)
    (hfits : r.refundedCents + a ≤ r.capturedCents)
    (hcap : r'.capturedCents = r.capturedCents)
    (href : r'.refundedCents = r.refundedCents + a) :
    Settled f h ⟨t, q, c.holds.insert h r'⟩ { b with credited := b.credited + grossOf a f } := by
  have hbilled := hb.billed r hr
  have hcredited := hb.credited r hr
  have hmin : min r.refundedCents r.capturedCents = r.refundedCents := by omega
  rw [hmin] at hcredited
  -- refunds in pieces never credit more than one refund of their sum
  have hsum : b.credited + grossOf a f ≤ grossOf (r.refundedCents + a) f :=
    (Nat.add_le_add_right hcredited _).trans (grossOf_add_le _ _ _)
  refine ⟨hfee, ?_, fun r₁ hr₁ => ?_, fun r₁ hr₁ => ?_⟩
  · change b.credited + grossOf a f ≤ b.billed
    rw [hbilled]
    exact hsum.trans (grossOf_mono f hfits)
  · change (c.holds.insert h r').lookup h = some r₁ at hr₁
    rw [AList.lookup_insert] at hr₁
    cases hr₁
    rw [hcap]
    exact hbilled
  · change (c.holds.insert h r').lookup h = some r₁ at hr₁
    rw [AList.lookup_insert] at hr₁
    cases hr₁
    have hmin' : min r'.refundedCents r'.capturedCents = r.refundedCents + a := by omega
    rw [hmin']
    exact hsum

/-- Expired holds keep what they captured and refunded. -/
theorem expireAll {q : CardPeriod} (hb : Settled f h c b)
    (hexp : Relation.ReflTransGen Credit.Expire c c') : Settled f h { c' with period := q } b := by
  have hend : Settled f h c' b := by
    induction hexp with
    | refl => exact hb
    | tail _ hstep ih =>
      cases hstep with
      | mk hr _ => exact ih.write ih.fee (fun _ => hr) (fun _ => rfl) (fun _ => le_rfl)
  exact hend.keep hend.fee fun r hr => ⟨r, hr, rfl, le_rfl⟩

/-- **Step.** Every move that splits no fee keeps the account settled. -/
theorem move {signers : List Pubkey} {l : Label} (hb : Settled f h c b)
    (hl : Unsplit f c.holds l) (hfee : c'.terms.authorizer ≠ 0 → c'.terms.feeBps = f)
    (hm : Move signers c l c') : Settled f h c' (b.post f h l) := by
  cases hm with
  | quiet => exact hb
  | members _ _ => exact hb.keep hfee fun r hr => ⟨r, hr, rfl, le_rfl⟩
  | terms => exact hb.keep hfee fun r hr => ⟨r, hr, rfl, le_rfl⟩
  | @hold k r _ _ _ hnew _ _ _ hcap _ _ _ =>
    by_cases hk : k = h
    · subst hk
      have hnone : grossOf r.capturedCents f = 0 := by
        rw [hcap]
        simp [grossOf, feeOf]
      simpa only [HoldAccount.post, if_true, hnone] using Settled.fresh (r := r) hfee
    · simp only [HoldAccount.post, if_neg hk]
      exact hb.write (r := r) hfee (fun he => absurd he hk) (fun _ => rfl) (fun _ => le_rfl)
  | @charge k r _ _ _ hnew _ _ _ hcap _ _ _ =>
    by_cases hk : k = h
    · subst hk
      simpa only [HoldAccount.post, if_true, hcap] using Settled.fresh (r := r) hfee
    · simp only [HoldAccount.post, if_neg hk]
      exact hb.write (r := r) hfee (fun he => absurd he hk) (fun _ => rfl) (fun _ => le_rfl)
  | adjustDown _ hr _ _ hr' _ =>
    exact hb.write hfee (fun _ => hr) (fun _ => hr'.captured) (fun _ => hr'.refunded.ge)
  | adjustUp _ hr _ _ hr' _ _ =>
    exact hb.write hfee (fun _ => hr) (fun _ => hr'.captured) (fun _ => hr'.refunded.ge)
  | @capture k r _ _ _ _ hr _ _ hcap href _ _ _ =>
    by_cases hk : k = h
    · subst hk
      simp only [HoldAccount.post, if_pos]
      exact hb.debit hfee hr (hl r hr) hcap href
    · simp only [HoldAccount.post, if_neg hk]
      exact hb.write (r := r) hfee (fun he => absurd he hk) (fun he => absurd he hk)
        (fun he => absurd he hk)
  | reverse _ hr _ hr' _ =>
    exact hb.write hfee (fun _ => hr) (fun _ => hr'.captured) (fun _ => hr'.refunded.ge)
  | refund _ _ hfits hon _ =>
    cases hon with
    | none => exact hb.keep hfee fun r hr => ⟨r, hr, rfl, le_rfl⟩
    | @some k r _ hr hr' =>
      by_cases hk : k = h
      · subst hk
        simp only [HoldAccount.post, if_pos]
        exact hb.refund hfee hr (hfits _ r rfl hr) hr'.captured hr'.refunded
      · simp only [HoldAccount.post, if_neg hk]
        exact hb.write (r := r) hfee (fun he => absurd he hk) (fun he => absurd he hk)
          (fun he => absurd he hk)
  | dispute _ hon =>
    cases hon with
    | some hr hr' =>
      exact hb.write hfee (fun _ => hr) (fun _ => hr'.captured) (fun _ => hr'.refunded.ge)
  | overHold _ hr _ _ hr' _ =>
    exact hb.write hfee (fun _ => hr) (fun _ => hr'.captured) (fun _ => hr'.refunded.ge)
  | correct _ hon _ =>
    -- a correction is no refund, yet it uses up what may still be refunded
    cases hon with
    | none => exact hb.keep hfee fun r hr => ⟨r, hr, rfl, le_rfl⟩
    | some hr hr' =>
      refine hb.write hfee (fun _ => hr) (fun _ => hr'.captured) (fun _ => ?_)
      rw [hr'.refunded]
      exact Nat.le_add_right _ _
  | debit _ _ hon _ _ =>
    cases hon with
    | none => exact hb.keep hfee fun r hr => ⟨r, hr, rfl, le_rfl⟩
    | @some k r _ hr hr' =>
      by_cases hk : k = h
      · subst hk
        simp only [HoldAccount.post, if_pos]
        exact hb.debit hfee hr (hl r hr) hr'.captured hr'.refunded
      · simp only [HoldAccount.post, if_neg hk]
        exact hb.write (r := r) hfee (fun he => absurd he hk) (fun he => absurd he hk)
          (fun he => absurd he hk)
  | repay => exact hb.keep hfee fun r hr => ⟨r, hr, rfl, le_rfl⟩
  | roll _ hexp _ _ _ => exact hb.expireAll hexp
  | close _ _ _ =>
    refine hb.keep hfee fun r hr => ⟨r, ?_, rfl, le_rfl⟩
    exact forall_lookup_erase (P := fun j w => c.holds.lookup j = some w) (fun _ _ hw => hw) _ _ hr
  | wipe _ _ _ _ _ _ _ _ _ hkept => exact hb.keep hfee fun r hr => ⟨r, hkept _ r hr, rfl, le_rfl⟩
  | restore => exact hb.keep hfee fun r hr => ⟨r, hr, rfl, le_rfl⟩

end Settled

/-! ## Runs -/

section Program

variable [Runtime]

/-- The account of the hold `h` after a run. -/
def holdAccount (f : Nat) (h : Hash) (s : State) (calls : List Call) : HoldAccount :=
  (labels s calls).foldl (HoldAccount.post f h) ⟨0, 0⟩

/-- Whenever the card has a policy, its fee is `f`. -/
def ConstantFee (f : Nat) (s : State) (calls : List Call) : Prop :=
  Runs.Along exec (fun _ _ s' => s'.policy.isSet → s'.policy.feeBps = f) s calls

/-- No debit of the run splits a fee. -/
def NoSplitFee (f : Nat) (s : State) (calls : List Call) : Prop :=
  Runs.Along exec (fun s call _ => Unsplit f s.reservations call.instr.label) s calls

instance (f : Nat) (s : State) (calls : List Call) : Decidable (ConstantFee f s calls) :=
  inferInstanceAs (Decidable (Runs.Along ..))

instance (f : Nat) (s : State) (calls : List Call) : Decidable (NoSplitFee f s calls) :=
  inferInstanceAs (Decidable (Runs.Along ..))

theorem Fresh.settled {s : State} (hs : Fresh s) (f : Nat) (h : Hash) :
    Settled f h s.credit ⟨0, 0⟩ := by
  obtain ⟨b, hp, -, hr, -⟩ := hs.eq
  have hunset : s.credit.terms.authorizer = 0 := by
    simp only [State.credit, hp]
    rfl
  have hnone : ∀ r, s.credit.holds.lookup h ≠ some r := by
    intro r hl
    simp only [State.credit, hr] at hl
    simp at hl
  exact ⟨fun hset => absurd hunset hset, le_rfl, fun r hl => absurd hl (hnone r),
    fun r hl => absurd hl (hnone r)⟩

/-- **Refunds stay within debits.** In every run at a constant fee whose debits split
no fee, the refunds of a hold credit at most what its debits billed. -/
theorem refunds_within_debits (s : State) (calls : List Call) (hs : Fresh s) (f : Nat)
    (hfee : ConstantFee f s calls) (hsplit : NoSplitFee f s calls) (h : Hash) :
    (holdAccount f h s calls).credited ≤ (holdAccount f h s calls).billed := by
  have hboth := Runs.along_and hfee hsplit
  have hend : Settled f h (Runs.after exec s calls).credit (holdAccount f h s calls) := by
    refine Runs.after_logged
      (I := fun s log => Settled f h s.credit (log.foldl (HoldAccount.post f h) ⟨0, 0⟩))
      ?_ hboth (hs.settled f h)
    intro s call s' log hP hstep hb
    rw [List.foldl_append]
    exact hb.move hP.2 hP.1 (exec_move hstep)
  exact hend.within

end Program

open Sample in
/-- A hold of 2000 captured in one piece and refunded in two. -/
theorem refunds_within_debits_sample :
    let calls := setup 5000 3000 50 ++ purchase 20 2000 true ++
      [byAuthorizer (.refund authorizer (some (key 20)) 900 (key 41)),
       byAuthorizer (.refund authorizer (some (key 20)) 1100 (key 42))]
    Fresh start ∧ ConstantFee 50 start calls ∧ NoSplitFee 50 start calls ∧
      holdAccount 50 (key 20) start calls = ⟨2010, 2009⟩ ∧
      (holdAccount 50 (key 20) start calls).credited ≤
        (holdAccount 50 (key 20) start calls).billed := by
  intro calls
  have hfee : ConstantFee 50 start calls := by decide
  have hsplit : NoSplitFee 50 start calls := by decide
  exact ⟨start_fresh, hfee, hsplit, by decide,
    refunds_within_debits start calls start_fresh 50 hfee hsplit (key 20)⟩

open Sample in
/-- A hold of 200 captured as 100 and 100 bills 200, and one refund of it credits 201. -/
theorem refund_exceeds_split_captures :
    let calls := setup 5000 3000 50 ++ purchase 20 200 false ++
      [byAuthorizer (.capture authorizer (key 20) 100 (key 33)),
       byAuthorizer (.capture authorizer (key 20) 100 (key 34)),
       byAuthorizer (.refund authorizer (some (key 20)) 200 (key 41))]
    Fresh start ∧ ConstantFee 50 start calls ∧
      holdAccount 50 (key 20) start calls = ⟨200, 201⟩ := by
  intro calls
  exact ⟨start_fresh, by decide, by decide⟩

end ChainPay.Card
