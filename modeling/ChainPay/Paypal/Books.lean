import Mathlib.Data.List.Nodup
import Mathlib.Data.List.Perm.Subperm
import Mathlib.Algebra.Order.Ring.Int

/-!
The books of one paid task, apart from its record: what was ordered, captured and reserved for
refund. `Move` is what may happen to them, and `Sound` what then always holds: every output is
refunded at most once, the refunds stay within the price, and no provider id stands for two of them.
-/

namespace ChainPay.Paypal

/-- One refund of the ledger: the outputs it covers, and how far it got. -/
structure Line where
  units : List Nat
  amount : Nat
  approved : Bool
  confirmed : Bool
  providerId : Option String
  deriving DecidableEq, Repr

def Line.approve (l : Line) : Line := { l with approved := true }

def Line.observe (l : Line) (id : String) (done : Bool) : Line :=
  { l with providerId := some id, confirmed := done || l.confirmed }

structure Books where
  amount : Nat
  outputs : Nat
  funded : Bool
  ordered : Bool
  capturing : Bool
  captured : Bool
  /-- The single refund of the failed outputs was approved. -/
  refunding : Bool
  legacy : Option (List Nat)
  refundAmount : Nat
  refundConfirmed : Bool
  refundId : Option String
  lines : List Line
  deriving DecidableEq, Repr

namespace Books

def price (b : Books) : Nat := b.amount / b.outputs

/-- The outputs of the approved refunds, of both routes. -/
def covered (b : Books) : List Nat :=
  b.legacy.getD [] ++ (b.lines.filter (·.approved)).flatMap (·.units)

def providerIds (b : Books) : List String := b.refundId.toList ++ b.lines.filterMap (·.providerId)

def confirmed (b : Books) : Nat :=
  (if b.refundConfirmed then b.refundAmount else 0) +
    ((b.lines.filter (·.confirmed)).map (·.amount)).sum

def reserved (b : Books) : Nat :=
  (if b.refunding || b.refundConfirmed then b.refundAmount else 0) +
    ((b.lines.filter (·.approved)).map (·.amount)).sum

def setLine (b : Books) (i : Nat) (l : Line) : Books := { b with lines := b.lines.set i l }

/-- An operation that calls the provider at most once. -/
inductive Slot where
  | order
  | capture
  | refund
  | line (i : Nat)
  deriving DecidableEq, Repr

/-- The operation was claimed. -/
def taken (b : Books) : Slot → Bool
  | .order => b.ordered
  | .capture => b.capturing
  | .refund => b.refunding
  | .line i => (b.lines[i]?).any (·.approved)

/-- What a change does to the books, with the operation it claims. -/
inductive Move : Books → Option Slot → Books → Prop where
  | stay (b : Books) : Move b none b
  | checkout {b : Books} (hfund : b.funded = false) (hnew : b.ordered = false) :
    Move b (some .order) { b with ordered := true }
  | fund {b : Books} (horder : b.ordered = false) (hcap : b.captured = false)
    (hclaim : b.capturing = false) : Move b none { b with funded := true }
  | claimCapture {b : Books} (horder : b.ordered = true) (hnew : b.capturing = false) :
    Move b (some .capture) { b with capturing := true }
  | capture {b : Books} (horder : b.ordered = true) (hfund : b.funded = false) :
    Move b none { b with captured := true }
  | approve {b : Books} {units : List Nat} (hnew : b.refunding = false) (hlines : b.lines = [])
    (hunits : units.Nodup) (hwithin : ∀ i ∈ units, i < b.outputs) :
    Move b (some .refund)
      { b with refunding := true, legacy := some units, refundAmount := units.length * b.price }
  | propose {b : Books} {units : List Nat} :
    Move b none { b with lines := b.lines ++ [⟨units, b.price * units.length, false, false, none⟩] }
  | approveLine {b : Books} {i : Nat} {l : Line} (hline : b.lines[i]? = some l)
    (hnew : l.approved = false) (hunits : l.units.Nodup) (hwithin : ∀ j ∈ l.units, j < b.outputs)
    (hfree : ∀ j ∈ l.units, j ∉ b.covered) :
    Move b (some (.line i)) (b.setLine i l.approve)
  | observe {b : Books} {id : String} {done : Bool} (hclaim : b.refunding = true)
    (hother : id ∉ b.lines.filterMap (·.providerId)) (hsame : ∀ old ∈ b.refundId, old = id) :
    Move b none { b with refundId := some id, refundConfirmed := done || b.refundConfirmed }
  | observeLine {b : Books} {i : Nat} {l : Line} {id : String} {done : Bool}
    (hline : b.lines[i]? = some l) (hclaim : l.approved = true) (hlegacy : b.refundId ≠ some id)
    (hother : ∀ j m, b.lines[j]? = some m → j ≠ i → m.providerId ≠ some id)
    (hsame : ∀ old ∈ l.providerId, old = id) :
    Move b none (b.setLine i (l.observe id done))

/-- The state of the books after any sequence of moves. -/
structure Sound (b : Books) : Prop where
  outputs : 0 < b.outputs
  divides : b.outputs * b.price = b.amount
  idle : b.refunding = false → b.legacy = none ∧ b.refundConfirmed = false ∧ b.refundId = none
  single : b.refunding = true → ∃ units, b.legacy = some units ∧
    b.refundAmount = units.length * b.price
  line : ∀ l ∈ b.lines, l.amount = b.price * l.units.length ∧ (l.confirmed = true → l.approved = true)
  nodup : b.covered.Nodup
  within : ∀ i ∈ b.covered, i < b.outputs
  providers : b.providerIds.Nodup
  funded : b.funded = true → b.ordered = false
  unordered : b.ordered = false → b.captured = false ∧ b.capturing = false

/-! ## Replacing one line -/

theorem set_split {α : Type} {xs : List α} {i : Nat} {x : α} (h : xs[i]? = some x) (y : α) :
    ∃ pre post, xs = pre ++ x :: post ∧ xs.set i y = pre ++ y :: post ∧ pre.length = i := by
  obtain ⟨hi, rfl⟩ := List.getElem?_eq_some_iff.mp h
  refine ⟨xs.take i, xs.drop (i + 1), ?_, ?_, ?_⟩
  · rw [List.getElem_cons_drop, List.take_append_drop]
  · rw [List.set_eq_take_append_cons_drop, if_pos hi]
  · rw [List.length_take]
    omega

/-! ## Bounds -/

variable {b b' : Books} {slot : Option Slot}

theorem Sound.reserved_eq (h : b.Sound) : b.reserved = b.covered.length * b.price := by
  have hlines : ∀ ls : List Line, (∀ l ∈ ls, l.amount = b.price * l.units.length) →
      ((ls.filter (·.approved)).map (·.amount)).sum =
        ((ls.filter (·.approved)).flatMap (·.units)).length * b.price := by
    intro ls hls
    induction ls with
    | nil => simp
    | cons l ls ih =>
      have hrest := ih fun m hm => hls m (List.mem_cons_of_mem _ hm)
      have hl := hls l (List.mem_cons_self ..)
      by_cases ha : l.approved = true
      · simp only [List.filter_cons_of_pos ha, List.map_cons, List.sum_cons, List.flatMap_cons,
          List.length_append, hrest, hl, Nat.add_mul]
        rw [Nat.mul_comm b.price]
      · rw [List.filter_cons_of_neg ha]
        exact hrest
  rw [reserved, covered, List.length_append, Nat.add_mul, hlines b.lines fun l hl => (h.line l hl).1]
  cases hr : b.refunding with
  | false =>
    obtain ⟨hlegacy, hconf, -⟩ := h.idle hr
    simp [hlegacy, hconf]
  | true =>
    obtain ⟨units, hlegacy, hamount⟩ := h.single hr
    simp [hlegacy, hamount]

/-- **No more is reserved than was paid.** -/
theorem Sound.reserved_le (h : b.Sound) : b.reserved ≤ b.amount := by
  have hsub : b.covered ⊆ List.range b.outputs := fun i hi => List.mem_range.mpr (h.within i hi)
  have hle := (List.subperm_of_subset h.nodup hsub).length_le
  rw [List.length_range] at hle
  rw [h.reserved_eq, ← h.divides]
  exact Nat.mul_le_mul_right _ hle

theorem Sound.confirmed_le (h : b.Sound) : b.confirmed ≤ b.reserved := by
  have hlines : ∀ ls : List Line, (∀ l ∈ ls, l.confirmed = true → l.approved = true) →
      ((ls.filter (·.confirmed)).map (·.amount)).sum ≤
        ((ls.filter (·.approved)).map (·.amount)).sum := by
    intro ls hls
    induction ls with
    | nil => simp
    | cons l ls ih =>
      have hrest := ih fun m hm => hls m (List.mem_cons_of_mem _ hm)
      by_cases hc : l.confirmed = true
      · have ha := hls l (List.mem_cons_self ..) hc
        rw [List.filter_cons_of_pos hc, List.filter_cons_of_pos ha, List.map_cons, List.map_cons,
          List.sum_cons, List.sum_cons]
        exact Nat.add_le_add_left hrest _
      · rw [List.filter_cons_of_neg hc]
        by_cases ha : l.approved = true
        · rw [List.filter_cons_of_pos ha, List.map_cons, List.sum_cons]
          exact Nat.le_trans hrest (Nat.le_add_left _ _)
        · rwa [List.filter_cons_of_neg ha]
  have hsum := hlines b.lines fun l hl => (h.line l hl).2
  rw [confirmed, reserved]
  cases hc : b.refundConfirmed with
  | false => simpa using Nat.le_trans hsum (Nat.le_add_left _ _)
  | true => simpa using hsum

/-! ## Moves keep the books sound -/

/-- An approved line adds its outputs to the covered ones. -/
theorem covered_approve {i : Nat} {l : Line} (hline : b.lines[i]? = some l)
    (hnew : l.approved = false) :
    (b.setLine i l.approve).covered.Perm (b.covered ++ l.units) := by
  obtain ⟨pre, post, hsplit, hset, -⟩ := set_split hline l.approve
  have hpos : (pre ++ l.approve :: post).filter (·.approved) =
      pre.filter (·.approved) ++ l.approve :: post.filter (·.approved) := by
    rw [List.filter_append, List.filter_cons_of_pos rfl]
  have hneg : (pre ++ l :: post).filter (·.approved) =
      pre.filter (·.approved) ++ post.filter (·.approved) := by
    rw [List.filter_append, List.filter_cons_of_neg (by simp [hnew])]
  rw [covered, covered, setLine, hset, hpos, hsplit, hneg, List.flatMap_append, List.flatMap_append,
    List.flatMap_cons, List.append_assoc, List.append_assoc]
  refine List.Perm.append_left _ (List.Perm.append_left _ ?_)
  exact List.perm_append_comm

/-- Observing a line leaves the covered outputs as they are. -/
theorem covered_observe {i : Nat} {l : Line} {id : String} {done : Bool}
    (hline : b.lines[i]? = some l) : (b.setLine i (l.observe id done)).covered = b.covered := by
  obtain ⟨pre, post, hsplit, hset, -⟩ := set_split hline (l.observe id done)
  rw [covered, covered, setLine, hset, hsplit, List.filter_append, List.filter_append]
  cases ha : l.approved with
  | false => simp [Line.observe, ha]
  | true => simp [Line.observe, ha]

theorem lines_set {P : Line → Prop} {i : Nat} {l' : Line} (h : ∀ l ∈ b.lines, P l) (hl : P l') :
    ∀ l ∈ (b.setLine i l').lines, P l := by
  intro m hm
  rcases List.mem_or_eq_of_mem_set hm with hm | rfl
  · exact h m hm
  · exact hl

theorem providers_approve {i : Nat} {l : Line} (hline : b.lines[i]? = some l) :
    (b.setLine i l.approve).providerIds = b.providerIds := by
  obtain ⟨pre, post, hsplit, hset, -⟩ := set_split hline l.approve
  rw [providerIds, providerIds, setLine, hset, hsplit, List.filterMap_append, List.filterMap_append,
    List.filterMap_cons, List.filterMap_cons]
  rfl

theorem providers_observe {i : Nat} {l : Line} {id : String} {done : Bool}
    (hline : b.lines[i]? = some l) (hlegacy : b.refundId ≠ some id)
    (hother : ∀ j m, b.lines[j]? = some m → j ≠ i → m.providerId ≠ some id)
    (hsame : ∀ old ∈ l.providerId, old = id) (h : b.providerIds.Nodup) :
    (b.setLine i (l.observe id done)).providerIds.Nodup := by
  obtain ⟨pre, post, hsplit, hset, hlen⟩ := set_split hline (l.observe id done)
  have hpre : id ∉ pre.filterMap (·.providerId) := by
    rw [List.mem_filterMap]
    rintro ⟨m, hm, hid⟩
    obtain ⟨j, hj, rfl⟩ := List.getElem_of_mem hm
    refine hother j _ ?_ (by omega) hid
    rw [hsplit, List.getElem?_append_left hj, List.getElem?_eq_getElem hj]
  have hpost : id ∉ post.filterMap (·.providerId) := by
    rw [List.mem_filterMap]
    rintro ⟨m, hm, hid⟩
    obtain ⟨j, hj, rfl⟩ := List.getElem_of_mem hm
    refine hother (pre.length + 1 + j) _ ?_ (by omega) hid
    rw [hsplit, List.getElem?_append_right (by omega)]
    have hindex : pre.length + 1 + j - pre.length = j + 1 := by omega
    rw [hindex, List.getElem?_cons_succ, List.getElem?_eq_getElem hj]
  have hrefund : id ∉ b.refundId.toList := fun hmem => hlegacy (Option.mem_toList.mp hmem)
  -- the id is new, or the line had it already
  have hids : (b.setLine i (l.observe id done)).providerIds =
      b.refundId.toList ++ (pre.filterMap (·.providerId) ++ id :: post.filterMap (·.providerId)) := by
    rw [providerIds, setLine, hset, List.filterMap_append, List.filterMap_cons]
    rfl
  rw [hids]
  cases hprovider : l.providerId with
  | some old =>
    have hold := hsame old hprovider
    subst hold
    rw [providerIds, hsplit, List.filterMap_append, List.filterMap_cons, hprovider] at h
    exact h
  | none =>
    rw [providerIds, hsplit, List.filterMap_append, List.filterMap_cons, hprovider] at h
    have hperm : (b.refundId.toList ++
        (pre.filterMap (·.providerId) ++ id :: post.filterMap (·.providerId))).Perm
          (id :: (b.refundId.toList ++
            (pre.filterMap (·.providerId) ++ post.filterMap (·.providerId)))) := by
      rw [← List.append_assoc, ← List.append_assoc]
      exact List.perm_middle
    rw [hperm.nodup_iff, List.nodup_cons]
    refine ⟨fun hmem => ?_, h⟩
    simp only [List.mem_append] at hmem
    rcases hmem with hmem | hmem | hmem
    · exact hrefund hmem
    · exact hpre hmem
    · exact hpost hmem

/-- **Every move keeps the books sound.** -/
theorem Sound.move (h : b.Sound) (hmove : Move b slot b') : b'.Sound := by
  cases hmove with
  | stay => exact h
  | checkout hfund hnew =>
    have hfalse : b.funded = true → False := fun hf => Bool.false_ne_true (hfund.symm.trans hf)
    exact { h with
      funded := fun hf => (hfalse hf).elim
      unordered := fun ho => (Bool.false_ne_true ho.symm).elim }
  | fund horder hcap hclaim => exact { h with funded := fun _ => horder }
  | claimCapture horder hnew =>
    exact { h with unordered := fun ho => (Bool.false_ne_true (ho.symm.trans horder)).elim }
  | capture horder hfund =>
    exact { h with unordered := fun ho => (Bool.false_ne_true (ho.symm.trans horder)).elim }
  | @approve units hnew hlines hunits hwithin =>
    obtain ⟨hlegacy, hconf, hid⟩ := h.idle hnew
    have hcovered : ({ b with
        refunding := true
        legacy := some units
        refundAmount := units.length * b.price } : Books).covered = units := by
      simp [covered, hlines]
    exact { h with
      idle := fun hr => (Bool.false_ne_true hr.symm).elim
      single := fun _ => ⟨units, rfl, rfl⟩
      nodup := by rwa [hcovered]
      within := by rwa [hcovered] }
  | @propose units =>
    have hcovered : ({ b with lines := b.lines ++
        [⟨units, b.price * units.length, false, false, none⟩] } : Books).covered = b.covered := by
      simp [covered]
    have hids : ({ b with lines := b.lines ++
        [⟨units, b.price * units.length, false, false, none⟩] } : Books).providerIds =
          b.providerIds := by
      simp [providerIds]
    exact { h with
      line := by
        intro l hl
        rcases List.mem_append.mp hl with hl | hl
        · exact h.line l hl
        · rw [List.mem_singleton.mp hl]
          exact ⟨rfl, fun hc => hc⟩
      nodup := by
        rw [hcovered]
        exact h.nodup
      within := by
        rw [hcovered]
        exact h.within
      providers := by
        rw [hids]
        exact h.providers }
  | @approveLine i l hline hnew hunits hwithin hfree =>
    have hperm := covered_approve hline hnew
    have hmem : l ∈ b.lines := List.mem_of_getElem? hline
    exact { h with
      line := lines_set h.line ⟨(h.line l hmem).1, fun _ => rfl⟩
      nodup := by
        rw [hperm.nodup_iff]
        exact h.nodup.append hunits fun j hj hl => hfree j hl hj
      within := by
        intro j hj
        rcases List.mem_append.mp (hperm.mem_iff.mp hj) with hj | hj
        · exact h.within j hj
        · exact hwithin j hj
      providers := by
        rw [providers_approve hline]
        exact h.providers }
  | @observe id done hclaim hother hsame =>
    exact { h with
      idle := fun hr => (Bool.false_ne_true (hr.symm.trans hclaim)).elim
      providers := by
        have hids := h.providers
        rw [providerIds] at hids
        change ([id] ++ b.lines.filterMap (·.providerId)).Nodup
        cases hid : b.refundId with
        | none =>
          rw [hid] at hids
          exact List.nodup_cons.mpr ⟨hother, hids⟩
        | some old =>
          rw [hid, hsame old hid] at hids
          exact hids }
  | @observeLine i l id done hline hclaim hlegacy hother hsame =>
    have hmem : l ∈ b.lines := List.mem_of_getElem? hline
    exact { h with
      line := lines_set h.line ⟨(h.line l hmem).1, fun _ => hclaim⟩
      nodup := by
        rw [covered_observe hline]
        exact h.nodup
      within := by
        rw [covered_observe hline]
        exact h.within
      providers := providers_observe hline hlegacy hother hsame h.providers }

/-- What was covered stays covered. -/
theorem Move.covered_mono (hmove : Move b slot b') (h : b.Sound) :
    ∀ i ∈ b.covered, i ∈ b'.covered := by
  intro i hi
  cases hmove with
  | stay => exact hi
  | checkout => exact hi
  | fund => exact hi
  | claimCapture => exact hi
  | capture => exact hi
  | @approve units hnew hlines hunits hwithin =>
    obtain ⟨hlegacy, -, -⟩ := h.idle hnew
    simp [covered, hlegacy, hlines] at hi
  | propose => simpa [covered] using hi
  | @approveLine j l hline hnew hunits hwithin hfree =>
    exact (covered_approve hline hnew).mem_iff.mpr (List.mem_append_left _ hi)
  | observe => exact hi
  | observeLine hline => rwa [covered_observe hline]

theorem taken_line {i j : Nat} {l l' : Line} (hline : b.lines[i]? = some l)
    (hle : l.approved = true → l'.approved = true) (h : b.taken (.line j) = true) :
    (b.setLine i l').taken (.line j) = true := by
  obtain ⟨hi, -⟩ := List.getElem?_eq_some_iff.mp hline
  rw [taken, setLine, List.getElem?_set]
  by_cases hij : i = j
  · subst hij
    rw [taken, hline] at h
    rw [if_pos rfl, if_pos hi]
    exact hle h
  · rw [if_neg hij]
    exact h

/-- What was claimed stays claimed. -/
theorem Move.taken_mono (hmove : Move b slot b') {x : Slot} (hx : b.taken x = true) :
    b'.taken x = true := by
  cases hmove with
  | stay => exact hx
  | checkout =>
    cases x with
    | order => rfl
    | capture => exact hx
    | refund => exact hx
    | line => exact hx
  | fund => cases x <;> exact hx
  | claimCapture =>
    cases x with
    | order => exact hx
    | capture => rfl
    | refund => exact hx
    | line => exact hx
  | capture => cases x <;> exact hx
  | approve =>
    cases x with
    | order => exact hx
    | capture => exact hx
    | refund => rfl
    | line => exact hx
  | propose =>
    cases x with
    | order => exact hx
    | capture => exact hx
    | refund => exact hx
    | line i =>
      rw [taken, Option.any_eq_true] at hx ⊢
      obtain ⟨l, hl, ha⟩ := hx
      obtain ⟨hi, -⟩ := List.getElem?_eq_some_iff.mp hl
      exact ⟨l, by rw [List.getElem?_append_left hi]; exact hl, ha⟩
  | approveLine hline =>
    cases x with
    | order => exact hx
    | capture => exact hx
    | refund => exact hx
    | line j => exact taken_line hline (fun _ => rfl) hx
  | observe => cases x <;> exact hx
  | observeLine hline =>
    cases x with
    | order => exact hx
    | capture => exact hx
    | refund => exact hx
    | line j => exact taken_line hline (fun ha => ha) hx

/-- An operation is claimed once: it was free before the move and is taken after it. -/
theorem Move.claims {x : Slot} (hmove : Move b (some x) b') :
    b.taken x = false ∧ b'.taken x = true := by
  cases hmove with
  | checkout hfund hnew => exact ⟨hnew, rfl⟩
  | claimCapture horder hnew => exact ⟨hnew, rfl⟩
  | approve hnew => exact ⟨hnew, rfl⟩
  | @approveLine i l hline hnew =>
    obtain ⟨hi, -⟩ := List.getElem?_eq_some_iff.mp hline
    refine ⟨?_, ?_⟩
    · rw [taken, hline]
      exact hnew
    · rw [taken, setLine, List.getElem?_set, if_pos rfl, if_pos hi]
      rfl

end Books

end ChainPay.Paypal
