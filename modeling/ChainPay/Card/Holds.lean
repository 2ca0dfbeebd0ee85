import ChainPay.Card.Exec

/-!
Hold conservation. In every run without a `restore`, what the period counts as
reserved is exactly what the live reservations still hold, and only an open
reservation holds anything. So no release ever takes more than the period counts,
neither in `release_hold` nor at any round of the `roll_period` loop.
-/

namespace ChainPay.Card
open ChainPay.Lib

/-- The period's reserved total is the sum of the holds, and a closed hold is empty. -/
structure Balanced (c : Credit) : Prop where
  sum : c.period.reservedCents = sumOf Reservation.amountReservedCents c.holds
  closed : ∀ h r, c.holds.lookup h = some r → ¬ r.state.isOpen → r.amountReservedCents = 0

namespace Balanced

variable {c : Credit} {h : Hash} {r r' : Reservation} {t : Terms} {q : CardPeriod}

/-- A hold is part of the period's reserved total. -/
theorem hold_le (hb : Balanced c) (hr : c.holds.lookup h = some r) :
    r.amountReservedCents ≤ c.period.reservedCents := by
  rw [hb.sum]
  exact le_sumOf _ _ h r hr

theorem same (hb : Balanced c) (hq : q.reservedCents = c.period.reservedCents) :
    Balanced { c with terms := t, period := q } :=
  ⟨hq.trans hb.sum, hb.closed⟩

theorem add_new (hb : Balanced c) (hnew : c.holds.lookup h = none)
    (hclosed : ¬ r.state.isOpen → r.amountReservedCents = 0)
    (hq : q.reservedCents = c.period.reservedCents + r.amountReservedCents) :
    Balanced ⟨t, q, c.holds.insert h r⟩ where
  sum := by
    have hsum := sumOf_insert_new Reservation.amountReservedCents c.holds h r hnew
    rw [hq, hb.sum, hsum]
  closed := forall_lookup_insert hb.closed hclosed

theorem replace (hb : Balanced c) (hr : c.holds.lookup h = some r)
    (hclosed : ¬ r'.state.isOpen → r'.amountReservedCents = 0)
    (hq : q.reservedCents + r.amountReservedCents =
      c.period.reservedCents + r'.amountReservedCents) :
    Balanced ⟨t, q, c.holds.insert h r'⟩ where
  sum := by
    have hsum := sumOf_insert Reservation.amountReservedCents c.holds h r r' hr
    have hold := hb.sum
    change q.reservedCents = sumOf Reservation.amountReservedCents (c.holds.insert h r')
    omega
  closed := forall_lookup_insert hb.closed hclosed

/-- A posting leaves the hold and its state alone. -/
theorem onHold {a b : Nat} {o : Option Hash} {hs : Table Hash Reservation} (hb : Balanced c)
    (hon : Credit.OnHold c.holds a b o hs) (hq : q.reservedCents = c.period.reservedCents) :
    Balanced ⟨t, q, hs⟩ := by
  cases hon with
  | none => exact hb.same hq
  | some hr hr' =>
    refine hb.replace hr (fun hc => ?_) (by rw [hq, hr'.amount])
    rw [hr'.state] at hc
    rw [hr'.amount]
    exact hb.closed _ _ hr hc

/-- Releasing `k` of a hold, or adding to it, moves both sides alike. -/
theorem resized {n : Nat} (hb : Balanced c) (hr : c.holds.lookup h = some r)
    (hopen : r.state.isOpen) (hr' : Credit.Resized r r' n)
    (hq : q.reservedCents + r.amountReservedCents = c.period.reservedCents + n) :
    Balanced ⟨t, q, c.holds.insert h r'⟩ := by
  refine hb.replace hr (fun hc => ?_) (by rw [hr'.amount]; exact hq)
  by_contra hne
  rw [hr'.amount] at hne
  rw [hr'.kept hne] at hc
  exact hc hopen

theorem expire {c' : Credit} (hb : Balanced c) (he : Credit.Expire c c') : Balanced c' := by
  cases he with
  | mk hr hopen =>
    have hle := hb.hold_le hr
    refine hb.replace hr (fun _ => rfl) ?_
    simp only
    omega

theorem expireAll {c' : Credit} (hb : Balanced c)
    (he : Relation.ReflTransGen Credit.Expire c c') : Balanced c' := by
  induction he with
  | refl => exact hb
  | tail _ hstep ih => exact ih.expire hstep

theorem captured {a : Nat} (hb : Balanced c) (hr : c.holds.lookup h = some r)
    (hamount : r'.amountReservedCents = r.amountReservedCents - Credit.fromHold r a)
    (hstate : Credit.CapturedState r r')
    (hq : q.reservedCents = c.period.reservedCents - Credit.fromHold r a) :
    Balanced ⟨t, q, c.holds.insert h r'⟩ := by
  have hle := hb.hold_le hr
  have hfrom : Credit.fromHold r a ≤ r.amountReservedCents := by
    unfold Credit.fromHold
    split
    · exact Nat.min_le_right _ _
    · exact Nat.zero_le _
  refine hb.replace hr (fun hc => ?_) (by omega)
  unfold Credit.CapturedState at hstate
  split at hstate
  · by_contra hne
    exact hc (hstate.2 hne)
  · -- a reversed or expired hold was empty already
    rename_i hns
    have hzero := hb.closed _ _ hr (fun ho => hns (.inl ho))
    omega

/-- **Step.** Every move but a restore keeps the balance. -/
theorem move {signers : List Pubkey} {l : Label} {c' : Credit} (hb : Balanced c)
    (hl : l ≠ .restore) (hm : Move signers c l c') : Balanced c' := by
  cases hm with
  | quiet => exact hb
  | members _ _ => exact hb.same rfl
  | terms _ _ _ _ _ _ _ _ _ _ _ _ _ _ hres => exact hb.same hres
  | hold _ hnew _ _ hamount _ _ hstate hq =>
    refine hb.add_new hnew (fun hc => ?_) (by rw [hq.reserved, hamount])
    rw [hstate] at hc
    exact absurd (.inl rfl) hc
  | charge _ hnew _ _ hamount _ _ _ hq =>
    exact hb.add_new hnew (fun _ => hamount) (by rw [hq.reserved, hamount]; rfl)
  | adjustDown _ hr hopen hn hr' hq =>
    have hle := hb.hold_le hr
    exact hb.resized hr hopen hr' (by rw [hq.reserved]; omega)
  | adjustUp _ hr hopen hn hr' _ hq =>
    exact hb.resized hr hopen hr' (by rw [hq.reserved]; omega)
  | capture _ hr _ hamount _ _ hstate _ hq => exact hb.captured hr hamount hstate hq.reserved
  | reverse _ hr hopen hr' hq =>
    have hle := hb.hold_le hr
    exact hb.resized hr hopen hr' (by rw [hq.reserved]; omega)
  | refund _ _ _ hon hq => exact hb.onHold hon hq.reserved
  | dispute _ hon => exact hb.onHold hon rfl
  | overHold _ hr hopen _ hr' hq =>
    exact hb.resized hr hopen hr' (by rw [hq.reserved]; omega)
  | correct _ hon hq => exact hb.onHold hon hq.reserved
  | debit _ _ hon _ hq => exact hb.onHold hon hq.reserved
  | repay _ _ _ _ _ => exact hb.same rfl
  | roll _ hexp _ hres _ => exact (hb.expireAll hexp).same hres
  | close hr hclosed hamount =>
    refine ⟨?_, forall_lookup_erase hb.closed⟩
    have hsum := sumOf_erase Reservation.amountReservedCents c.holds _ _ hr
    have hold := hb.sum
    change c.period.reservedCents = sumOf Reservation.amountReservedCents (c.holds.erase _)
    omega
  | wipe hres _ _ _ _ _ _ _ hres' hkept =>
    -- nothing is reserved, so no hold of the wiped card holds anything
    have hempty : ∀ h r, c.holds.lookup h = some r → r.amountReservedCents = 0 := by
      intro h r hr
      have := hb.hold_le hr
      omega
    refine ⟨?_, fun h r hr _ => hempty h r (hkept h r hr)⟩
    rw [sumOf_eq_zero _ _ fun h r hr => hempty h r (hkept h r hr)]
    exact hres'
  | restore _ _ _ _ _ _ _ _ _ _ => exact absurd rfl hl

end Balanced

theorem Fresh.balanced [Runtime] {s : State} (h : Fresh s) : Balanced s.credit := by
  obtain ⟨b, -, hq, hr, -⟩ := h.eq
  simp only [State.credit, hq, hr]
  exact ⟨rfl, fun h r hl => by simp at hl⟩

theorem run_balanced [Runtime] {s : State} {calls : List Call} (hs : Fresh s)
    (hno : NoRestore s calls) : Balanced (Runs.after exec s calls).credit :=
  run_inv (fun _ _ _ hl hm hb => hb.move hl hm) hno hs.balanced

/-- **Hold conservation.** After any calls without a successful `restore`: the
reserved total is the sum of the live holds, a reservation that is not open holds
nothing, a release takes at most what the period counts, and so does every round
of a `roll_period` loop started here. -/
theorem hold_conservation [Runtime] (s : State) (calls : List Call) (hs : Fresh s)
    (hno : NoRestore s calls) :
    let s' := Runs.after exec s calls
    s'.period.reservedCents = sumOf Reservation.amountReservedCents s'.reservations ∧
      (∀ h r, s'.reservations.lookup h = some r → ¬ r.state.isOpen →
        r.amountReservedCents = 0) ∧
      (∀ h r a, s'.reservations.lookup h = some r →
        min a r.amountReservedCents ≤ s'.period.reservedCents) ∧
      (∀ ctx accounts s'', expireAll ctx accounts s' = .ok s'' →
        ∀ h r, s''.reservations.lookup h = some r →
          r.amountReservedCents ≤ s''.period.reservedCents) := by
  have hb := run_balanced hs hno
  refine ⟨hb.sum, hb.closed, fun h r a hr => ?_, fun ctx accounts s'' hloop h r hr => ?_⟩
  · exact (Nat.min_le_right _ _).trans (hb.hold_le hr)
  · exact (hb.expireAll (expireAll_credit hloop)).hold_le hr

namespace Sample

/-- A hold of 2000 with 500 captured. -/
def oneCapture : List Call :=
  setup 5000 3000 50 ++ purchase 20 2000 false ++
    [byAuthorizer (.capture authorizer (key 20) 500 (key 33))]

end Sample

open Sample in
theorem hold_conservation_sample :
    Fresh start ∧ NoRestore start oneCapture ∧
      (Runs.after exec start oneCapture).period.reservedCents = 1500 ∧
      sumOf Reservation.amountReservedCents (Runs.after exec start oneCapture).reservations =
        1500 := by
  have hno : NoRestore start oneCapture := by decide
  have hres : (Runs.after exec start oneCapture).period.reservedCents = 1500 := by decide
  obtain ⟨hsum, -⟩ := hold_conservation start oneCapture start_fresh hno
  exact ⟨start_fresh, hno, hres, hsum.symm.trans hres⟩

end ChainPay.Card
