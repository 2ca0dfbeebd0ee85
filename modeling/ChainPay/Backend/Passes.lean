import ChainPay.Backend.Desk

/-!
What a pass knows while it waits. `Stage.Ok` says for every await what the local variables
of the pass still tell about the shared state; it survives whatever the other parties do
(`Stage.Ok.later`), and `run_ok` goes through the awaits one by one: the call a pass makes
keeps the invariant of the shared state and leads to a stage that is in order again.
-/

namespace ChainPay.Backend
open ChainPay.Lib ChainPay.Card

/-! ## Facts of a pass -/

/-- `record_posting` stores it. -/
def Billable (p : Hash × StepLabel × Nat) : Prop := (postingForLabel p.2.1).isSome ∧ 0 < p.2.2

def Desk.Decided (d : Desk) : Prop := d.RowIs fun v => v.state.isOpenDecision = false

section Facts

variable (t : Token) (Q : Promise) (issuer : Issuer t) (d : Desk)

/-- The local variables of a pass that still has the postings `left` to store. -/
structure Scan.Ok (s : Scan) (left : List (Hash × StepLabel × Nat)) : Prop where
  present : s.present = true → d.RowIs Txn.Present ∧ s.record.Present
  absent : s.present = false → d.RowIs Txn.Absent ∧ s.record.Absent
  closed : s.record.reservationClosed = true → d.Gone t
  applied : ∀ i ∈ s.applied, d.RowIs fun v => d.Accounts issuer v i
  newly : ∀ i ∈ s.newly, (d.RowIs fun v => d.Accounts issuer v i) ∨ i ∈ s.record.unsent ∨
    ∃ p ∈ left, p.1 = i ∧ Billable p
  pending : ∀ q ∈ s.record.pendingEvents, d.SentFor q.2.signature q.1

/-- The pass still routes events. -/
structure Scan.Routing (s : Scan) (events : List IssuerEvent) : Prop where
  ok : s.Ok t issuer d s.postings
  closed : s.closed = true → d.Gone t ∧ (Q.closes → ∀ i ∈ d.captured t, i ∈ s.applied)
  listed : ∀ e ∈ events, issuer.event e.id = some e

/-- It is at event `e`. -/
structure Scan.At (s : Scan) (e : IssuerEvent) (rest : List IssuerEvent) : Prop where
  routing : s.Routing t Q issuer d (e :: rest)
  new : e.id ∉ s.applied

def Edit.Ok : Edit → Prop
  | .merge s => s.Ok t issuer d []
  | .resolve state seen _ _ _ => d.row.isSome ∧
    (seen = true ∧ state.isHold = true ∧ d.Created t ∨
      seen = false ∧ state = .declined ∧ (Q.paired → d.Spent t ∨ d.RowIs Txn.Present))
  | .markClosed => d.Gone t
  | .notFinal _ => True

def Stage.Ok : Stage → Prop
  | .read | .create | .sweepRead | .done => True
  | .resolvePolicy | .resolveHold => d.row.isSome
  | .voidSend _ | .voidConfirm _ _ => d.row.isSome ∧ d.Created t
  | .resolveMoney state seen _ => d.row.isSome ∧ seen = true ∧ state.isHold = true ∧ d.Created t
  | .updateRead e _ => e.Ok t Q issuer d
  | .updateWrite e _ row => e.Ok t Q issuer d ∧ Newer (some row) d.row ∧
    (row.value.state.isOpenDecision = false → d.Decided)
  | .postSingle _ | .reread => d.Decided
  | .status s e rest instr label p => s.At t Q issuer d e rest ∧
    Routed t s.present s.closed e instr label ∧ d.SentFor p.signature e.id
  | .send s e rest instr label => s.At t Q issuer d e rest ∧
    Routed t s.present s.closed e instr label
  | .confirm s e rest label signature => s.At t Q issuer d e rest ∧
    d.SentFor signature e.id ∧ ∃ instr, Routed t s.present s.closed e instr label
  | .gone s => s.Ok t issuer d s.postings ∧ s.isOpen = true
  | .overHoldSend s e rest => s.At t Q issuer d e rest ∧ s.isOpen = true ∧
    e.kind = .authorizationAdvice
  | .overHoldConfirm s e rest _ _ => s.At t Q issuer d e rest ∧ s.isOpen = true ∧
    e.kind = .authorizationAdvice
  | .refresh s => s.Ok t issuer d s.postings ∧ s.present = true
  | .post s id label amount left => s.Ok t issuer d ((id, label, amount) :: left)
  | .close s => s.Ok t issuer d []
  | .closeConfirm signature => d.Created t ∧
    ∃ tx : Tx, d.txs[signature]? = some tx ∧ tx.instr.closes = some t.authId
  | .closeGone => d.Created t

structure Pass.Ok (p : Pass) : Prop where
  listed : ∀ e ∈ p.truth.events, issuer.event e.id = some e
  stage : p.stage.Ok t Q issuer d

end Facts

/-! ## Stability -/

section Stability

variable {t : Token} {Q : Promise} {issuer : Issuer t} {d d' : Desk} (L : Desk.Later t d d')

namespace Desk.Later

include L

theorem decided (h : d.Decided) : d'.Decided := L.rowIs (fun _ _ hf => hf.decided) h

theorem scanOk {s : Scan} {left : List (Hash × StepLabel × Nat)} (h : s.Ok t issuer d left) :
    s.Ok t issuer d' left where
  present := fun hp => ⟨L.present (h.present hp).1, (h.present hp).2⟩
  absent := fun hp => ⟨L.absent (h.absent hp).1, (h.absent hp).2⟩
  closed := fun hc => (L.gone (h.closed hc)).1
  applied := fun i hi => L.rowAccounts (h.applied i hi)
  newly := by
    intro i hi
    rcases h.newly i hi with ha | ha
    · exact .inl (L.rowAccounts ha)
    · exact .inr ha
  pending := fun q hq => L.sentFor (h.pending q hq)

theorem scanRouting {s : Scan} {events : List IssuerEvent} (h : s.Routing t Q issuer d events) :
    s.Routing t Q issuer d' events where
  ok := L.scanOk h.ok
  closed := by
    intro hc
    obtain ⟨hg, hi⟩ := h.closed hc
    obtain ⟨hg', hcaptured⟩ := L.gone hg
    rw [hcaptured]
    exact ⟨hg', hi⟩
  listed := h.listed

theorem scanAt {s : Scan} {e : IssuerEvent} {rest : List IssuerEvent}
    (h : s.At t Q issuer d e rest) : s.At t Q issuer d' e rest :=
  ⟨L.scanRouting h.routing, h.new⟩

theorem editOk {e : Edit} (h : e.Ok t Q issuer d) : e.Ok t Q issuer d' := by
  cases e with
  | merge s => exact L.scanOk h
  | resolve state seen approved money single =>
    obtain ⟨hrow, ⟨hs, hh, hc⟩ | ⟨hs, hh, hp⟩⟩ := h
    · exact ⟨L.isSome hrow, .inl ⟨hs, hh, L.created hc⟩⟩
    · refine ⟨L.isSome hrow, .inr ⟨hs, hh, fun hq => ?_⟩⟩
      rcases hp hq with h | h
      · exact .inl (L.spent h)
      · exact .inr (L.present h)
  | markClosed => exact (L.gone h).1
  | notFinal => trivial

theorem stageOk {g : Stage} (h : g.Ok t Q issuer d) : g.Ok t Q issuer d' := by
  cases g with
  | read | create | sweepRead | done => trivial
  | resolvePolicy | resolveHold => exact L.isSome h
  | voidSend | voidConfirm => exact ⟨L.isSome h.1, L.created h.2⟩
  | resolveMoney => exact ⟨L.isSome h.1, h.2.1, h.2.2.1, L.created h.2.2.2⟩
  | updateRead => exact L.editOk h
  | updateWrite => exact ⟨L.editOk h.1, L.snapshot h.2.1, fun hd => L.decided (h.2.2 hd)⟩
  | postSingle | reread => exact L.decided h
  | status => exact ⟨L.scanAt h.1, h.2.1, L.sentFor h.2.2⟩
  | send => exact ⟨L.scanAt h.1, h.2⟩
  | confirm => exact ⟨L.scanAt h.1, L.sentFor h.2.1, h.2.2⟩
  | gone | refresh => exact ⟨L.scanOk h.1, h.2⟩
  | overHoldSend | overHoldConfirm => exact ⟨L.scanAt h.1, h.2⟩
  | post | close => exact L.scanOk h
  | closeConfirm signature =>
    obtain ⟨hc, tx, htx, hi⟩ := h
    obtain ⟨tx', htx', -, hinstr, -⟩ := L.txs _ _ htx
    exact ⟨L.created hc, tx', htx', hinstr ▸ hi⟩
  | closeGone => exact L.created h

theorem passOk {p : Pass} (h : p.Ok t Q issuer d) : p.Ok t Q issuer d' :=
  ⟨h.listed, L.stageOk h.stage⟩

end Desk.Later

end Stability

/-! ## The rules of a pass -/

section Rules

variable {t : Token} {Q : Promise} {issuer : Issuer t} {d : Desk} {s : Scan}
  {left : List (Hash × StepLabel × Nat)} {e : IssuerEvent} {rest events : List IssuerEvent}

/-- A decided row has a Reservation or has none. -/
theorem Desk.RowOk.settled {v : Txn} (h : d.RowOk t issuer v)
    (hd : v.state.isOpenDecision = false) : v.Present ∨ v.Absent := by
  rcases h.shape with hu | h
  · cases hu.1.symm.trans hd
  · exact h

namespace Scan

theorem start_routing (h : d.Sound t Q issuer) {row : Row Txn} (hrow : d.row = some row)
    (hd : row.value.state.isOpenDecision = false)
    (hlisted : ∀ e ∈ events, issuer.event e.id = some e) :
    (Scan.start row.value).Routing t Q issuer d events where
  ok := by
    have hv := h.row row hrow
    have hsettled := hv.settled hd
    refine ⟨?_, ?_, hv.closed, fun i hi => ⟨row, hrow, hv.applied i hi⟩, ?_, hv.pending⟩
    · intro hp
      rcases hsettled with hs | hs
      · exact ⟨⟨row, hrow, hs⟩, hs⟩
      · cases hs.hasReservation.symm.trans hp
    · intro hp
      rcases hsettled with hs | hs
      · cases hs.hasReservation.symm.trans hp
      · exact ⟨⟨row, hrow, hs⟩, hs⟩
    · intro i hi
      cases hi
  closed := by
    intro hc
    have hg := (h.row row hrow).closed hc
    refine ⟨hg, fun hq i hi => ?_⟩
    exact ((h.gone hg).2 hq i hi).value hrow
  listed := hlisted

/-- Only the record's notes and the list of marked ids change. -/
theorem Ok.leave (h : s.Ok t issuer d left) (i : Hash) : (s.leave i).Ok t issuer d left where
  present := h.present
  absent := h.absent
  closed := h.closed
  applied := h.applied
  newly := by
    intro j hj
    simp only [Scan.leave, List.mem_append, List.mem_singleton] at hj ⊢
    rcases hj with hj | rfl
    · rcases h.newly j hj with ha | ha | ha
      · exact .inl ha
      · exact .inr (.inl (.inl ha))
      · exact .inr (.inr ha)
    · exact .inr (.inl (.inr rfl))
  pending := h.pending

theorem Ok.mark (h : s.Ok t issuer d left) {i : Hash}
    (hi : d.RowIs fun v => d.Accounts issuer v i) : (s.mark i).Ok t issuer d left where
  present := h.present
  absent := h.absent
  closed := h.closed
  applied := h.applied
  newly := by
    intro j hj
    simp only [Scan.mark, List.mem_append, List.mem_singleton] at hj
    rcases hj with hj | rfl
    · exact h.newly j hj
    · exact .inl hi
  pending := h.pending

/-- There is a row to mark the event on. -/
theorem Ok.row (h : s.Ok t issuer d left) : ∃ r, d.row = some r := by
  cases hp : s.present with
  | true =>
    obtain ⟨⟨r, hr, -⟩, -⟩ := h.present hp
    exact ⟨r, hr⟩
  | false =>
    obtain ⟨⟨r, hr, -⟩, -⟩ := h.absent hp
    exact ⟨r, hr⟩

theorem Ok.accounts (h : s.Ok t issuer d left) {i : Hash}
    (hi : ∀ v, d.Accounts issuer v i) : d.RowIs fun v => d.Accounts issuer v i := by
  obtain ⟨r, hr⟩ := h.row
  exact ⟨r, hr, hi r.value⟩

/-- A confirmed step, or one that had been applied before. -/
theorem Ok.book (h : s.Ok t issuer d s.postings) {instr : Instr} {label : StepLabel}
    (hroute : Routed t s.present s.closed e instr label) (he : issuer.event e.id = some e)
    (hpaid : e.bills = true → 0 < eventAmount e) :
    (s.book e.id label (eventAmount e)).Ok t issuer d
      (s.book e.id label (eventAmount e)).postings where
  present := by
    intro hp
    obtain ⟨hrow, hrecord⟩ := h.present hp
    have hp : s.present = true := hp
    refine ⟨hrow, applyLabel_present _ hrecord ?_ ?_⟩
    · rintro rfl
      cases hroute with
      | forced _ hn => cases hn.symm.trans hp
    · rintro rfl
      cases hroute with
      | unpaired _ hn => cases hn.symm.trans hp
  absent := by
    intro hp
    obtain ⟨hrow, hrecord⟩ := h.absent hp
    exact ⟨hrow, applyLabel_absent _ _ hrecord⟩
  closed := by
    intro hc
    rw [Scan.book, (applyLabel_frame _ _ _).1] at hc
    exact h.closed hc
  applied := h.applied
  newly := by
    intro j hj
    simp only [Scan.book, (applyLabel_frame _ _ _).2.2, List.mem_append, List.mem_singleton] at hj ⊢
    rcases hj with hj | rfl
    · rcases h.newly j hj with ha | ha | ⟨p, hp, hpi⟩
      · exact .inl ha
      · exact .inr (.inl ha)
      · exact .inr (.inr ⟨p, .inl hp, hpi⟩)
    · cases hb : e.bills with
      | true =>
        refine .inr (.inr ⟨_, .inr rfl, rfl, ?_, hpaid hb⟩)
        rw [hroute.bills]
        exact hb
      | false => exact .inl (h.accounts fun v => .inr (.inr (.inr ⟨e, he, hb⟩)))
  pending := by
    rw [Scan.book, (applyLabel_frame _ _ _).2.1]
    exact h.pending

theorem Ok.clear (h : s.Ok t issuer d left) (i : Hash) : (s.clear i).Ok t issuer d left where
  present := h.present
  absent := h.absent
  closed := h.closed
  applied := h.applied
  newly := h.newly
  pending := fun q hq => h.pending q (List.mem_of_mem_filter hq)

theorem Ok.halt (h : s.Ok t issuer d left) : s.halt.Ok t issuer d left :=
  ⟨h.present, h.absent, h.closed, h.applied, h.newly, h.pending⟩

theorem Ok.await (h : s.Ok t issuer d left) {i : Hash} {p : PendingEvent}
    (hsent : d.SentFor p.signature i) : (s.await i p).Ok t issuer d left where
  present := h.present
  absent := h.absent
  closed := h.closed
  applied := h.applied
  newly := h.newly
  pending := by
    intro q hq
    rcases List.mem_cons.mp hq with rfl | hq
    · exact hsent
    · exact h.pending q (List.mem_of_mem_filter hq)

theorem Ok.shut (h : s.Ok t issuer d left) (hg : d.Gone t) : s.shut.Ok t issuer d left where
  present := h.present
  absent := h.absent
  closed := fun _ => hg
  applied := h.applied
  newly := h.newly
  pending := h.pending

/-- A hold that is open has a Reservation. -/
theorem present_of_isOpen (h : s.isOpen = true) : s.present = true ∧ s.closed = false := by
  simp only [isOpen, Bool.and_eq_true, Bool.not_eq_true'] at h
  exact h

theorem Ok.refresh (h : s.Ok t issuer d left) (hp : s.present = true) (r : Reservation) :
    { s with record := refreshFromReservation s.record r }.Ok t issuer d left where
  present := fun _ => ⟨(h.present hp).1, refreshFromReservation_present r (h.present hp).2⟩
  absent := by
    intro hn
    cases hp.symm.trans hn
  closed := h.closed
  applied := h.applied
  newly := h.newly
  pending := h.pending

/-! ### Where a pass goes -/

theorem toPost_ok (h : s.Ok t issuer d left) : (s.toPost left).Ok t Q issuer d := by
  cases left with
  | nil =>
    simp only [toPost, toUpdate]
    split
    · exact h
    · exact h
  | cons p left => exact h

theorem finish_ok (h : s.Ok t issuer d s.postings) : s.finish.Ok t Q issuer d := by
  unfold finish
  split
  · rename_i ho
    exact ⟨h, (present_of_isOpen ho).1⟩
  · exact toPost_ok h

theorem Routing.tail (h : s.Routing t Q issuer d (e :: rest)) : s.Routing t Q issuer d rest :=
  ⟨h.ok, h.closed, fun e' he => h.listed e' (List.mem_cons_of_mem e he)⟩

theorem advance_ok (h : s.Routing t Q issuer d events) : (s.advance t events).Ok t Q issuer d := by
  induction events generalizing s with
  | nil => exact finish_ok h.ok
  | cons e rest ih =>
    -- an event that nothing is sent for
    have hleave : ((s.leave e.id).advance t rest).Ok t Q issuer d :=
      ih ⟨h.ok.leave e.id, h.closed, h.tail.listed⟩
    unfold advance
    split
    · exact ih h.tail
    · rename_i hnew
      split
      · exact hleave
      · split
        · exact hleave
        · exact hleave
        · rename_i instr label hroute
          split
          · rename_i p hp
            obtain ⟨before, after, hmem, -⟩ := List.lookup_eq_some_iff.mp hp
            refine ⟨⟨h, hnew⟩, route_routed hroute, h.ok.pending (e.id, p) ?_⟩
            rw [hmem]
            exact List.mem_append_right _ List.mem_cons_self
          · exact ⟨⟨h, hnew⟩, route_routed hroute⟩

theorem At.reads (h : s.At t Q issuer d e rest) : d.Reads t Q s.present s.closed e.id where
  ofPresent := fun hp => (h.routing.ok.present hp).1
  ofAbsent := fun hp => (h.routing.ok.absent hp).1
  ofClosed := by
    intro hc
    obtain ⟨hg, hi⟩ := h.routing.closed hc
    exact ⟨hg, fun hq hmem => h.new (hi hq e.id hmem)⟩

theorem At.event (h : s.At t Q issuer d e rest) : issuer.event e.id = some e :=
  h.routing.listed e List.mem_cons_self

end Scan

end Rules

/-! ## Updates of the row -/

section Updates

variable {t : Token} {Q : Promise} {issuer : Issuer t} {d : Desk} {row : Row Txn} {v : Txn}

/-- An update that changes nothing a reader relies on. -/
theorem Desk.RowOk.frame (h : d.RowOk t issuer v) {v' : Txn} (hstate : v'.state = v.state)
    (hunsolicited : v'.unsolicited = v.unsolicited) (hflag : v'.hasReservation = v.hasReservation)
    (hclosed : v'.reservationClosed = v.reservationClosed)
    (happlied : v'.appliedEventIds = v.appliedEventIds) (hunsent : v'.unsent = v.unsent)
    (hpending : v'.pendingEvents = v.pendingEvents) : d.RowOk t issuer v' where
  shape := by
    unfold Txn.Undecided Txn.Present Txn.Absent
    rw [hstate, hunsolicited, hflag, hclosed, happlied]
    exact h.shape
  created := by
    unfold Txn.Present
    rw [hstate, hunsolicited]
    exact h.created
  closed := by
    rw [hclosed]
    exact h.closed
  applied := by
    unfold Desk.Accounts
    rw [happlied, hunsent]
    exact h.applied
  pending := by
    rw [hpending]
    exact h.pending

/-- What an update may do to the stored row. -/
structure Desk.Allows (t : Token) (Q : Promise) (issuer : Issuer t) (d : Desk) (row : Row Txn)
    (v : Txn) : Prop where
  follows : row.value.Follows v
  ok : ∀ now, { d with row := some ⟨row.rev + 1, v, now⟩ : Desk }.RowOk t issuer v
  paired : Q.paired → v.Absent → d.Spent t ∨ d.asa.isFirst = true

theorem Desk.Sound.write (h : d.Sound t Q issuer) (hrow : d.row = some row)
    (hv : d.Allows t Q issuer row v) (now : Nat) :
    { d with row := some ⟨row.rev + 1, v, now⟩ : Desk }.Sound t Q issuer ∧
      Desk.Later t d { d with row := some ⟨row.rev + 1, v, now⟩ } :=
  ⟨h.setRow hrow hv.follows now (hv.ok now) hv.paired, .setRow hrow hv.follows now⟩

/-- An update that keeps everything a reader relies on is allowed. -/
theorem Desk.Sound.allows_frame (h : d.Sound t Q issuer) (hrow : d.row = some row)
    (hf : row.value.Follows v) (hv : d.RowOk t issuer v)
    (habsent : v.Absent → row.value.Absent) : d.Allows t Q issuer row v where
  follows := hf
  ok := fun now => (Desk.Later.setRow (t := t) hrow hf now).rowOk hv
  paired := fun hq ha => h.paired hq ⟨row, hrow, habsent ha⟩

theorem merge_allowed (h : d.Sound t Q issuer) (hrow : d.row = some row) {s : Scan}
    (hs : s.Ok t issuer d []) (status : IssuerStatus) :
    d.Allows t Q issuer row
      (merge s.original s.record (s.applied ++ s.newly) s.progressed status row.value) := by
  have hv := h.row row hrow
  have hagree : row.value.Present ∧ s.record.Present ∨ row.value.Absent ∧ s.record.Absent := by
    cases hp : s.present with
    | true => exact .inl ⟨(hs.present hp).1.value hrow, (hs.present hp).2⟩
    | false => exact .inr ⟨(hs.absent hp).1.value hrow, (hs.absent hp).2⟩
  have hf : row.value.Follows
      (merge s.original s.record (s.applied ++ s.newly) s.progressed status row.value) :=
    merge_follows hagree
  refine ⟨hf, fun now => ?_, ?_⟩
  · have L : Desk.Later t d _ := .setRow hrow hf now
    refine ⟨?_, ?_, ?_, ?_, ?_⟩
    · rcases hagree with ⟨h₁, h₂⟩ | ⟨h₁, h₂⟩
      · exact .inr (.inl (merge_present h₁ h₂))
      · exact .inr (.inr (merge_absent h₁ h₂))
    · intro hp
      rcases hagree with ⟨h₁, -⟩ | ⟨h₁, h₂⟩
      · exact L.created (hv.created h₁)
      · exact absurd (merge_absent h₁ h₂) hp.not_absent
    · intro hc
      refine (L.gone ?_).1
      rcases changed_cases row.value.reservationClosed s.original.reservationClosed
        s.record.reservationClosed with he | he
      · exact hv.closed (he.symm.trans hc)
      · exact hs.closed (he.symm.trans hc)
    · intro i hi
      rcases mem_addIds.mp hi with hi | hi
      · exact L.accounts hf.unsent (hv.applied i hi)
      · rcases List.mem_append.mp hi with hi | hi
        · exact L.accounts hf.unsent ((hs.applied i hi).value hrow)
        · rcases hs.newly i hi with ha | ha | ⟨p, hp, -⟩
          · exact L.accounts hf.unsent (ha.value hrow)
          · exact .inr (.inr (.inl (List.mem_append_right _ ha)))
          · cases hp
    · intro q hq
      refine L.sentFor ?_
      rcases changed_cases row.value.pendingEvents s.original.pendingEvents
        s.record.pendingEvents with he | he
      · exact hv.pending q (he ▸ hq)
      · exact hs.pending q (he ▸ hq)
  · intro hq ha
    rcases hagree with ⟨h₁, h₂⟩ | ⟨h₁, -⟩
    · exact absurd ha (merge_present h₁ h₂).not_absent
    · exact h.paired hq ⟨row, hrow, h₁⟩

theorem resolve_allowed (h : d.Sound t Q issuer) (hrow : d.row = some row) {state : TxnState}
    {seen : Bool} (approved : Bool) (money : Option Reservation) (single : Option Nat)
    (he : (Edit.resolve state seen approved money single).Ok t Q issuer d)
    (hopen : row.value.state.isOpenDecision = true) :
    d.Allows t Q issuer row (resolveRow state seen approved money row.value) ∧
      (resolveRow state seen approved money row.value).state.isOpenDecision = false := by
  have hv := h.row row hrow
  have hu : row.value.Undecided := by
    rcases hv.shape with hu | hp | ha
    · exact hu
    · cases hopen.symm.trans hp.isOpenDecision
    · cases hopen.symm.trans ha.1
  have ⟨_, _, hsolicited, hclosed, happlied⟩ := hu
  obtain ⟨-, ⟨rfl, hhold, hcreated⟩ | ⟨rfl, rfl, hpaired⟩⟩ := he
  · have hdecided := isOpenDecision_of_isHold hhold
    have hpresent : (resolveRow state true approved money row.value).Present := by
      refine ⟨hhold, ?_⟩
      simp only [resolveRow, Bool.not_true, Bool.false_and, Bool.false_eq_true, if_false]
      exact hsolicited
    have hf : row.value.Follows (resolveRow state true approved money row.value) := by
      refine .of_undecided hu ?_ fun i hi => hi
      intro _ hp
      have hp : state = .pending := hp
      rw [hp] at hhold
      cases hhold
    refine ⟨⟨hf, fun now => ?_, fun _ ha => absurd ha hpresent.not_absent⟩, hdecided⟩
    have L : Desk.Later t d _ := .setRow hrow hf now
    refine ⟨.inr (.inl hpresent), fun _ => L.created hcreated, ?_, ?_, ?_⟩
    · intro hc
      cases hclosed.symm.trans hc
    · intro i hi
      have hi : i ∈ row.value.appliedEventIds := hi
      rw [happlied] at hi
      cases hi
    · exact fun q hq => L.sentFor (hv.pending q hq)
  · have habsent : (resolveRow .declined false approved money row.value).Absent :=
      ⟨rfl, rfl, rfl⟩
    have hf : row.value.Follows (resolveRow .declined false approved money row.value) := by
      refine .of_undecided hu ?_ fun i hi => hi
      intro _ hp
      cases hp
    refine ⟨⟨hf, fun now => ?_, ?_⟩, rfl⟩
    · have L : Desk.Later t d _ := .setRow hrow hf now
      refine ⟨.inr (.inr habsent), fun hp => absurd habsent hp.not_absent, ?_, ?_, ?_⟩
      · intro hc
        cases hclosed.symm.trans hc
      · intro i hi
        have hi : i ∈ row.value.appliedEventIds := hi
        rw [happlied] at hi
        cases hi
      · exact fun q hq => L.sentFor (hv.pending q hq)
    · intro hq _
      rcases hpaired hq with hs | hs
      · exact .inl hs
      · cases hopen.symm.trans (hs.value hrow).isOpenDecision

theorem markClosed_allowed (h : d.Sound t Q issuer) (hrow : d.row = some row) (hg : d.Gone t) :
    d.Allows t Q issuer row { row.value with reservationClosed := true } := by
  have hv := h.row row hrow
  have hf : row.value.Follows { row.value with reservationClosed := true } :=
    .of_eq rfl rfl rfl rfl rfl
  have hp := (h.gone hg).1.value hrow
  exact h.allows_frame hrow hf
    ⟨.inr (.inl hp), hv.created, fun _ => hg, hv.applied, hv.pending⟩ id

/-- Every update leaves a row that may stand there. -/
theorem Edit.apply_allowed (h : d.Sound t Q issuer) (hrow : d.row = some row) {e : Edit}
    (he : e.Ok t Q issuer d) {status : IssuerStatus} (hv : e.apply status row.value = some v) :
    d.Allows t Q issuer row v := by
  cases e with
  | merge s =>
    cases hv
    exact merge_allowed h hrow he status
  | resolve state seen approved money single =>
    simp only [Edit.apply] at hv
    split at hv
    · rename_i hopen
      cases hv
      exact (resolve_allowed h hrow approved money single he hopen).1
    · cases hv
  | markClosed =>
    simp only [Edit.apply] at hv
    split at hv
    · cases hv
    · cases hv
      exact markClosed_allowed h hrow he
  | notFinal atMs =>
    cases hv
    exact h.allows_frame hrow (.of_eq rfl rfl rfl rfl rfl)
      ((h.row row hrow).frame rfl rfl rfl rfl rfl rfl rfl) id

/-- And its writer goes on. -/
theorem Edit.after_ok {e : Edit} (he : e.Ok t Q issuer d)
    (hd : (∃ state seen approved money single, e = .resolve state seen approved money single) →
      d.Decided) : e.after.Ok t Q issuer d := by
  cases e with
  | merge s => exact he
  | resolve state seen approved money single =>
    have hdecided := hd ⟨_, _, _, _, _, rfl⟩
    cases single with
    | none => exact hdecided
    | some amount => exact hdecided
  | markClosed => trivial
  | notFinal => trivial

end Updates

/-! ## One await -/

section Run

variable {t : Token} {Q : Promise} {issuer : Issuer t} {d : Desk} {p : Pass}

/-- A call went well: the shared state is in order, has only moved on, and the pass knows
what it needs for its next call. -/
structure Ran (t : Token) (Q : Promise) (issuer : Issuer t) (d : Desk) (x : Desk × Pass) :
    Prop where
  sound : x.1.Sound t Q issuer
  later : Desk.Later t d x.1
  pass : x.2.Ok t Q issuer x.1
  chain : x.1.chain = d.chain
  history : x.1.history = d.history

variable (h : d.Sound t Q issuer) (hp : p.Ok t Q issuer d)
include h hp

theorem Ran.stay {g : Stage} (hg : g.Ok t Q issuer d) : Ran t Q issuer d (d, p.goto g) :=
  ⟨h, .refl d, ⟨hp.listed, hg⟩, rfl, rfl⟩

theorem Ran.submit {event : Option Hash} {instr : Instr} (hc : instr.creates ≠ some t.authId)
    (htx : d.TxOk t Q issuer ⟨event, instr, .sent⟩) {g : Stage}
    (hg : g.Ok t Q issuer (d.submit event instr)) :
    Ran t Q issuer d (d.submit event instr, p.goto g) :=
  ⟨h.submit hc htx, .submit event fun he => absurd he hc, ⟨hp.listed, hg⟩, rfl, rfl⟩

theorem Ran.record (i : Hash) (label : StepLabel) (amount : Nat) (a : Answer) {g : Stage}
    (hg : g.Ok t Q issuer (d.record i label amount a)) :
    Ran t Q issuer d (d.record i label amount a, p.goto g) :=
  ⟨h.record i label amount a, .record d i label amount a, ⟨hp.listed, hg⟩, rfl, rfl⟩

/-- A pass sends the instruction of an event. -/
theorem Ran.send {s : Scan} {e : IssuerEvent} {rest : List IssuerEvent} {instr : Instr}
    {label : StepLabel} (hat : s.At t Q issuer d e rest)
    (hroute : Routed t s.present s.closed e instr label) {g : Stage}
    (hg : g.Ok t Q issuer (d.submit (some e.id) instr)) :
    Ran t Q issuer d (d.submit (some e.id) instr, p.goto g) := by
  refine .submit h hp ?_ (.of_sends ⟨e, _, _, label, hat.event, hat.reads, hroute⟩) hg
  rw [hroute.ids.2.2.2.1]
  nofun

/-- Reading a row that is there. -/
theorem read_stage {row : Row Txn} (hrow : d.row = some row) :
    Ran t Q issuer d
      (match row.value.state with
        | .pending => (d, p.goto .done)
        | .ambiguous => (d, p.goto .resolvePolicy)
        | _ => (d, p.goto .reread)) := by
  have hsome : d.row.isSome := by
    rw [hrow]
    rfl
  split
  · exact .stay h hp trivial
  · exact .stay h hp hsome
  · rename_i hpending hambiguous
    exact .stay h hp ⟨row, hrow, isOpenDecision_of_ne hpending hambiguous⟩

theorem run_read (a : Answer) (hstage : p.stage = .read) : Ran t Q issuer d (p.run t a d) := by
  unfold Pass.run
  rw [hstage]
  simp only
  split
  · exact .stay h hp trivial
  · rename_i row hrow
    exact read_stage h hp hrow

theorem run_create (a : Answer) (hstage : p.stage = .create) :
    Ran t Q issuer d (p.run t a d) := by
  unfold Pass.run
  rw [hstage]
  simp only
  rcases cas_create d.row (unsolicitedRow p.truth) a.now with ⟨hnone, hcas⟩ | ⟨row, hrow, hcas⟩
  · rw [hcas]
    simp only
    have habsent := unsolicitedRow_absent p.truth
    have L : Desk.Later t d { d with row := some ⟨1, unsolicitedRow p.truth, a.now⟩ } :=
      .newRow hnone
    refine ⟨?_, L, ⟨hp.listed, _, rfl, habsent.1⟩, rfl, rfl⟩
    refine h.edit L rfl rfl rfl id ?_ (L.asaOk h.asa) ?_
    · intro r hr
      cases hr
      refine ⟨.inr (.inr habsent), fun hpr => absurd habsent hpr.not_absent, ?_, ?_, ?_⟩
      · intro hc
        cases hc
      · intro i hi
        cases hi
      · intro q hq
        cases hq
    · -- nothing was sent for a transaction that has no row
      intro _ _
      have hasked : ¬ (d.Created t ∨ ∃ tx ∈ d.txs, tx.instr.creates = some t.authId) := by
        intro hc
        have hsome := h.asked hc
        rw [hnone] at hsome
        cases hsome
      have hasa := h.asa
      change Desk.Spent t _ ∨ d.asa.isFirst = true
      cases hstage' : d.asa with
      | start | createPending => exact .inr rfl
      | evaluate req =>
        rw [hstage'] at hasa
        have hsome := hasa.1
        rw [hnone] at hsome
        cases hsome
      | verify | watch | guardRead | observe | persistRead | persistWrite | post | done =>
        refine .inl ⟨fun hc => hasked (.inl hc), rfl, fun tx htx hc => ?_⟩
        exact absurd (.inr ⟨tx, htx, hc⟩) hasked
  · rw [hcas]
    exact read_stage h hp hrow

theorem run_resolve (a : Answer) (hstage : p.stage = .resolveHold)
    (hresolve : Q.paired → a.ok = true → d.hold t = none → d.asa.isAhead = false ∧
      ∀ tx ∈ d.txs, tx.instr.creates = some t.authId → tx.status ≠ .sent) :
    Ran t Q issuer d (p.run t a d) := by
  have hrow : d.row.isSome := by
    have hok := hp.stage
    rw [hstage] at hok
    exact hok
  unfold Pass.run
  rw [hstage]
  simp only
  split
  · rename_i hok
    split
    · rename_i hnone
      refine .stay h hp ⟨hrow, .inr ⟨rfl, rfl, fun hq => ?_⟩⟩
      obtain ⟨hasa, hsent⟩ := hresolve hq hok hnone
      by_cases hcreated : d.Created t
      · exact .inr (h.gone ⟨hcreated, Desk.hold_eq_none.mp hnone⟩).1
      · refine .inl ⟨hcreated, hasa, fun tx htx hc => ?_⟩
        have hlanded := h.landed tx htx hc
        have hne := hsent tx htx hc
        cases hst : tx.status with
        | sent => exact absurd hst hne
        | landed => exact absurd (hlanded.mp hst) hcreated
        | refused | dropped => rfl
    · rename_i r hr
      have hcreated : d.Created t := by
        refine (h.captured r.captureIds ?_).1
        unfold State.capturedOn
        have hr : d.chain.reservations.lookup t.authId = some r := hr
        rw [hr]
        rfl
      have hhold : (TxnState.ofReservation r.state).isHold = true := by
        cases r.state <;> rfl
      split
      · exact .stay h hp ⟨hrow, rfl, hhold, hcreated⟩
      · split
        · exact .stay h hp ⟨hrow, rfl, rfl, hcreated⟩
        · exact .stay h hp ⟨hrow, hcreated⟩
  · exact .stay h hp trivial

theorem run_void (a : Answer) {r : Reservation} (hstage : p.stage = .voidSend r) :
    Ran t Q issuer d (p.run t a d) := by
  have hok := hp.stage
  rw [hstage] at hok
  obtain ⟨hrow, hcreated⟩ := hok
  unfold Pass.run
  rw [hstage]
  simp only
  split
  · refine .submit h hp ?_ (.of_own rfl rfl ?_ ?_) ⟨hrow, hcreated⟩
    · intro hc
      cases hc
    · -- the void has an id of its own
      rintro i (hi | hi)
      · cases hi
        exact issuer.not_void
      · cases hi
        exact issuer.not_void
    · intro hc
      cases hc
  · exact .stay h hp trivial

theorem run_voidConfirm (a : Answer) {n : Nat} {single : Option Nat}
    (hstage : p.stage = .voidConfirm n single) : Ran t Q issuer d (p.run t a d) := by
  have hok := hp.stage
  rw [hstage] at hok
  obtain ⟨hrow, hcreated⟩ := hok
  have hmoney : (Stage.resolveMoney .reversed true single).Ok t Q issuer d :=
    ⟨hrow, rfl, rfl, hcreated⟩
  unfold Pass.run
  rw [hstage]
  simp only
  split
  · exact .stay h hp hmoney
  · split
    · exact .stay h hp hmoney
    · exact .stay h hp trivial
  · exact .stay h hp trivial

/-- The update is written, found to be unnecessary, or lost to another writer. -/
theorem run_updateWrite (a : Answer) {e : Edit} {tries : Nat} {row : Row Txn}
    (hstage : p.stage = .updateWrite e tries row) : Ran t Q issuer d (p.run t a d) := by
  have hok := hp.stage
  rw [hstage] at hok
  obtain ⟨he, hnewer, hdecided⟩ := hok
  unfold Pass.run
  rw [hstage]
  simp only
  split
  · rename_i hnone
    refine .stay h hp (Edit.after_ok he ?_)
    rintro ⟨state, seen, approved, money, single, rfl⟩
    simp only [Edit.apply] at hnone
    split at hnone
    · cases hnone
    · rename_i hopen
      exact hdecided (Bool.not_eq_true _ ▸ hopen)
  · rename_i v hv
    rcases Desk.write_cases hnewer v a.now with ⟨hrow, hw⟩ | hw
    · rw [hw]
      simp only
      obtain ⟨hsound, L⟩ := h.write hrow (Edit.apply_allowed h hrow he hv) a.now
      refine ⟨hsound, L, ⟨hp.listed, Edit.after_ok (L.editOk he) ?_⟩, rfl, rfl⟩
      rintro ⟨state, seen, approved, money, single, rfl⟩
      simp only [Edit.apply] at hv
      split at hv
      · rename_i hopen
        cases hv
        exact ⟨_, rfl, (resolve_allowed h hrow approved money single he hopen).2⟩
      · cases hv
    · rw [hw]
      exact .stay h hp he

theorem run_reread (a : Answer) (hstage : p.stage = .reread) : Ran t Q issuer d (p.run t a d) := by
  have hok := hp.stage
  rw [hstage] at hok
  have hok : d.Decided := hok
  unfold Pass.run
  rw [hstage]
  simp only
  split
  · exact .stay h hp trivial
  · rename_i row hrow
    refine .stay h hp (Scan.advance_ok (Scan.start_routing h hrow (hok.value hrow) ?_))
    intro e he
    exact hp.listed e ((List.mem_insertionSort createdBefore).mp he)

end Run

section Confirm

variable {t : Token} {Q : Promise} {issuer : Issuer t} {d : Desk} {p : Pass} {s : Scan}
  {e : IssuerEvent} {rest : List IssuerEvent} {instr : Instr} {label : StepLabel}

/-- What a status sounds like. -/
def TxStatus.heard : TxStatus → Heard
  | .landed => .confirmed
  | .refused e => .programError e
  | .dropped => .failed
  | .sent => .unknown

theorem Desk.hear_eq {n : Nat} {tx : Tx} (hget : d.txs[n]? = some tx) (ok : Bool) :
    d.hear n ok = if ok then tx.status.heard else .unknown := by
  obtain ⟨event, instr, status⟩ := tx
  unfold Desk.hear
  rw [hget]
  cases status <;> rfl

/-- Whatever is heard but silence is the status of the transaction. -/
theorem Desk.heard_status {n : Nat} {tx : Tx} (hget : d.txs[n]? = some tx) {ok : Bool} {x : Heard}
    (hh : d.hear n ok = x) (hx : x ≠ .unknown) : tx.status.heard = x := by
  rw [d.hear_eq hget] at hh
  split at hh
  · exact hh
  · exact absurd hh.symm hx

theorem Desk.hear_cases {n : Nat} {i : Hash} (hsent : d.SentFor n i) (ok : Bool) :
    (d.hear n ok = .confirmed ∧ ∃ tx, d.txs[n]? = some tx ∧ tx.event = some i ∧
        tx.status = .landed) ∨
      (∃ err, d.hear n ok = .programError err ∧ ∃ tx, d.txs[n]? = some tx ∧ tx.event = some i ∧
        tx.status = .refused err) ∨
      d.hear n ok = .failed ∨ d.hear n ok = .unknown := by
  obtain ⟨tx, hget, hev⟩ := hsent
  rw [d.hear_eq hget]
  cases ok with
  | false => exact .inr (.inr (.inr rfl))
  | true =>
    cases hst : tx.status with
    | landed => exact .inl ⟨rfl, tx, hget, hev, hst⟩
    | refused err => exact .inr (.inl ⟨err, rfl, tx, hget, hev, hst⟩)
    | dropped => exact .inr (.inr (.inl rfl))
    | sent => exact .inr (.inr (.inr rfl))

theorem Scan.At.book (h : d.Sound t Q issuer) (hat : s.At t Q issuer d e rest)
    (hroute : Routed t s.present s.closed e instr label) {n : Nat} {tx : Tx}
    (hget : d.txs[n]? = some tx) (hev : tx.event = some e.id)
    (hst : tx.status = .landed ∨ ∃ err, tx.status = .refused err ∧ err.isRepeat = true) :
    (s.book e.id label (eventAmount e)).Routing t Q issuer d rest := by
  have hpaid : e.bills = true → 0 < eventAmount e := fun hb =>
    (h.txs tx (List.mem_of_getElem? hget)).paid e.id e hev hat.event hb hst
  exact ⟨hat.routing.ok.book hroute hat.event hpaid, hat.routing.closed, hat.routing.tail.listed⟩

/-- An event that the program refused, or that is not billed, is marked. -/
theorem Scan.At.mark (hat : s.At t Q issuer d e rest)
    (hi : ∀ v, d.Accounts issuer v e.id) : (s.mark e.id).Routing t Q issuer d rest :=
  ⟨hat.routing.ok.mark (hat.routing.ok.accounts hi), hat.routing.closed, hat.routing.tail.listed⟩

theorem settle_ok (h : d.Sound t Q issuer) (hat : s.At t Q issuer d e rest)
    (hroute : Routed t s.present s.closed e instr label) {n : Nat} (hsent : d.SentFor n e.id)
    (now : Nat) (ok : Bool) :
    (s.settle t e rest label n now (d.hear n ok)).Ok t Q issuer d := by
  rcases d.hear_cases hsent ok with ⟨hh, tx, hget, hev, hst⟩ | ⟨err, hh, tx, hget, hev, hst⟩ | hh | hh
  · rw [hh]
    exact Scan.advance_ok (hat.book h hroute hget hev (.inl hst))
  · rw [hh]
    simp only [Scan.settle]
    split
    · rename_i hrepeat
      refine Scan.advance_ok (hat.book h hroute hget hev (.inr ⟨err, hst, ?_⟩))
      rcases hrepeat with rfl | rfl <;> rfl
    · rename_i hrepeat
      have hfirst : err.isRepeat = false := by
        cases hr : err.isRepeat with
        | false => rfl
        | true =>
          refine absurd ?_ hrepeat
          unfold Err.isRepeat at hr
          split at hr
          · exact .inl rfl
          · exact .inr rfl
          · cases hr
      have hmark := Scan.advance_ok (hat.mark fun v => .inr (.inl ⟨n, tx, err, hget, hev, hst, hfirst⟩))
      split
      · rename_i hgone
        exact ⟨hat.routing.ok, hgone.2⟩
      · split
        · exact hmark
        · split
          · rename_i hadjust
            obtain ⟨rfl, -⟩ := hadjust
            cases hroute with
            | adjust hkind hpresent hclosed =>
              refine ⟨hat, ?_, hkind⟩
              simp only [Scan.isOpen, hpresent, hclosed, Bool.not_false, Bool.and_self]
          · exact hmark
  · rw [hh]
    exact Scan.finish_ok hat.routing.ok.halt
  · rw [hh]
    exact Scan.finish_ok (hat.routing.ok.await hsent)

theorem Scan.At.clear (hat : s.At t Q issuer d e rest) : (s.clear e.id).At t Q issuer d e rest :=
  ⟨⟨hat.routing.ok.clear e.id, hat.routing.closed, hat.routing.listed⟩, hat.new⟩

variable (h : d.Sound t Q issuer) (hp : p.Ok t Q issuer d)
include h hp

theorem run_status (a : Answer) {pending : PendingEvent}
    (hstage : p.stage = .status s e rest instr label pending) :
    Ran t Q issuer d (p.run t a d) := by
  have hok := hp.stage
  rw [hstage] at hok
  obtain ⟨hat, hroute, hsent⟩ := hok
  have hagain : (Stage.send (s.clear e.id) e rest instr label).Ok t Q issuer d :=
    ⟨hat.clear, hroute⟩
  unfold Pass.run
  rw [hstage]
  simp only
  rcases d.hear_cases hsent a.ok with ⟨hh, tx, hget, hev, hst⟩ | ⟨err, hh, -⟩ | hh | hh
  · rw [hh]
    have hbook := hat.book h hroute hget hev (.inl hst)
    refine .stay h hp (Scan.advance_ok ⟨?_, hbook.closed, hbook.listed⟩)
    exact hbook.ok.clear e.id
  · rw [hh]
    exact .stay h hp hagain
  · rw [hh]
    exact .stay h hp hagain
  · rw [hh]
    simp only
    split
    · exact .stay h hp (Scan.finish_ok hat.routing.ok.halt)
    · exact .stay h hp hagain

theorem run_send (a : Answer) (hstage : p.stage = .send s e rest instr label) :
    Ran t Q issuer d (p.run t a d) := by
  have hok := hp.stage
  rw [hstage] at hok
  obtain ⟨hat, hroute⟩ := hok
  unfold Pass.run
  rw [hstage]
  simp only
  split
  · have hne : instr.creates ≠ some t.authId := by
      rw [hroute.ids.2.2.2.1]
      nofun
    have L : Desk.Later t d (d.submit (some e.id) instr) := .submit _ fun hc => absurd hc hne
    exact .send h hp hat hroute ⟨L.scanAt hat, ⟨_, d.submit_sent _ _, rfl⟩, instr, hroute⟩
  · exact .stay h hp (Scan.finish_ok hat.routing.ok.halt)

theorem run_gone (a : Answer) (hstage : p.stage = .gone s) : Ran t Q issuer d (p.run t a d) := by
  have hok := hp.stage
  rw [hstage] at hok
  obtain ⟨hs, hopen⟩ := hok
  unfold Pass.run
  rw [hstage]
  simp only
  split
  · rename_i hnone
    obtain ⟨r, hr, hpresent⟩ := (hs.present (Scan.present_of_isOpen hopen).1).1
    have hg : d.Gone t := ⟨(h.row r hr).created hpresent, Desk.hold_eq_none.mp hnone.2⟩
    exact .stay h hp (Scan.finish_ok (hs.shut hg))
  · exact .stay h hp (Scan.finish_ok hs.halt)

theorem run_overHold (a : Answer) (hstage : p.stage = .overHoldSend s e rest) :
    Ran t Q issuer d (p.run t a d) := by
  have hok := hp.stage
  rw [hstage] at hok
  obtain ⟨hat, hopen, hkind⟩ := hok
  obtain ⟨hpresent, hclosed⟩ := Scan.present_of_isOpen hopen
  unfold Pass.run
  rw [hstage]
  simp only
  split
  · have hroute := Routed.overHold (t := t) hkind hpresent hclosed (overHoldExcess s e)
    have hne : (Instr.recordException t.authorizer (some t.authId) ExceptionKind.overHold.code
        (overHoldExcess s e) e.id).creates ≠ some t.authId := by
      intro hc
      cases hc
    have L := Desk.Later.submit (t := t) (d := d) (some e.id) fun hc => absurd hc hne
    exact .send h hp hat hroute ⟨L.scanAt hat, hopen, hkind⟩
  · exact .stay h hp (Scan.finish_ok hat.routing.ok.halt)

theorem run_overHoldConfirm (a : Answer) {excess n : Nat}
    (hstage : p.stage = .overHoldConfirm s e rest excess n) : Ran t Q issuer d (p.run t a d) := by
  have hok := hp.stage
  rw [hstage] at hok
  obtain ⟨hat, hopen, hkind⟩ := hok
  have hfree : ∀ v, d.Accounts issuer v e.id := by
    intro v
    refine .inr (.inr (.inr ⟨e, hat.event, ?_⟩))
    simp only [IssuerEvent.bills, hkind]
  have hhalt : s.halt.finish.Ok t Q issuer d := Scan.finish_ok hat.routing.ok.halt
  unfold Pass.run
  rw [hstage]
  simp only
  split
  · refine .stay h hp (Scan.advance_ok ?_)
    have hok := hat.routing.ok
    have hpresent := (Scan.present_of_isOpen hopen).1
    refine Scan.At.mark ⟨⟨⟨?_, ?_, hok.closed, hok.applied, hok.newly, hok.pending⟩,
      hat.routing.closed, hat.routing.listed⟩, hat.new⟩ hfree
    · exact fun _ => ⟨(hok.present hpresent).1, (hok.present hpresent).2⟩
    · intro hn
      cases hpresent.symm.trans hn
  · split
    · exact .stay h hp (Scan.advance_ok (hat.mark hfree))
    · exact .stay h hp hhalt
  · exact .stay h hp hhalt

theorem run_refresh (a : Answer) (hstage : p.stage = .refresh s) :
    Ran t Q issuer d (p.run t a d) := by
  have hok := hp.stage
  rw [hstage] at hok
  obtain ⟨hs, hpresent⟩ := hok
  unfold Pass.run
  rw [hstage]
  simp only
  split
  · exact .stay h hp (Scan.toPost_ok hs)
  · rename_i r _
    exact .stay h hp (Scan.toPost_ok (hs.refresh hpresent r))

/-- A stored posting accounts for its event. -/
theorem run_post (a : Answer) {id : Hash} {amount : Nat} {left : List (Hash × StepLabel × Nat)}
    (hstage : p.stage = .post s id label amount left) : Ran t Q issuer d (p.run t a d) := by
  have hok := hp.stage
  rw [hstage] at hok
  have hs : s.Ok t issuer d ((id, label, amount) :: left) := hok
  unfold Pass.run
  rw [hstage]
  simp only
  split
  · have hs' := (Desk.Later.record (t := t) d id label amount a).scanOk hs
    refine .record h hp id label amount a (Scan.toPost_ok ?_)
    refine ⟨hs'.present, hs'.absent, hs'.closed, hs'.applied, ?_, hs'.pending⟩
    intro i hi
    rcases hs'.newly i hi with ha | ha | ⟨q, hq, rfl, hbill⟩
    · exact .inl ha
    · exact .inr (.inl ha)
    · rcases List.mem_cons.mp hq with rfl | hq
      · obtain ⟨x, hx⟩ := Option.isSome_iff_exists.mp hbill.1
        exact .inl (hs'.accounts fun v => .inl (d.record_stored id a hx hbill.2))
      · exact .inr (.inr ⟨q, hq, rfl, hbill⟩)
  · exact .stay h hp trivial

/-- A pass asks the program to close the Reservation of a row that has one. -/
theorem Ran.close (hrow : d.RowIs Txn.Present) :
    Ran t Q issuer d (d.submit none (.closeReservation t.authorizer t.authId),
      p.goto (.closeConfirm d.txs.length)) := by
  have hcreated : d.Created t := by
    obtain ⟨r, hr, hpresent⟩ := hrow
    exact (h.row r hr).created hpresent
  refine .submit h hp ?_ (.of_own rfl rfl ?_ fun _ => hrow) ⟨hcreated, _, d.submit_sent _ _, rfl⟩
  · intro hc
    cases hc
  · rintro i (hi | hi)
    · cases hi
    · cases hi

theorem run_close (a : Answer) (hstage : p.stage = .close s) : Ran t Q issuer d (p.run t a d) := by
  have hok := hp.stage
  rw [hstage] at hok
  have hs : s.Ok t issuer d [] := hok
  unfold Pass.run
  rw [hstage]
  simp only
  generalize closable _ a.now = c
  split
  · rename_i hclose
    exact .close h hp (hs.present (Scan.present_of_isOpen hclose.2.1).1).1
  · exact .stay h hp trivial

theorem run_closeConfirm (a : Answer) {n : Nat} (hstage : p.stage = .closeConfirm n) :
    Ran t Q issuer d (p.run t a d) := by
  have hok := hp.stage
  rw [hstage] at hok
  obtain ⟨hcreated, tx, hget, hcloses⟩ := hok
  unfold Pass.run
  rw [hstage]
  simp only
  split
  · rename_i hh
    have hheard := d.heard_status hget hh nofun
    have hlanded : tx.status = .landed := by
      cases hst : tx.status with
      | landed => rfl
      | sent | refused | dropped =>
        rw [hst] at hheard
        cases hheard
    exact .stay h hp (((h.txs _ (List.mem_of_getElem? hget)).closes hcloses).2 hlanded)
  · exact .stay h hp trivial
  · exact .stay h hp hcreated
  · exact .stay h hp trivial

theorem run_sweep (a : Answer) (hstage : p.stage = .sweepRead) :
    Ran t Q issuer d (p.run t a d) := by
  unfold Pass.run
  rw [hstage]
  simp only
  split
  · exact .stay h hp trivial
  · rename_i row hrow
    split
    · rename_i hclose
      refine .close h hp ⟨row, hrow, ?_⟩
      have hhas : hasReservation row.value = true := by
        have hc := hclose.1
        simp only [closable, programFinal, Bool.and_eq_true] at hc
        exact hc.1.1.1.2
      rcases (h.row row hrow).shape with hu | hpr | ha
      · cases hu.hasReservation.symm.trans hhas
      · exact hpr
      · cases ha.hasReservation.symm.trans hhas
    · exact .stay h hp trivial

end Confirm

/-- **One await.** Whatever a pass calls, the shared state stays in order, and so does
the pass. -/
theorem run_ok {t : Token} {Q : Promise} {issuer : Issuer t} {d : Desk} {p : Pass}
    (h : d.Sound t Q issuer) (hp : p.Ok t Q issuer d) (a : Answer)
    (hresolve : Q.paired → p.stage = .resolveHold → a.ok = true → d.hold t = none →
      d.asa.isAhead = false ∧
        ∀ tx ∈ d.txs, tx.instr.creates = some t.authId → tx.status ≠ .sent) :
    Ran t Q issuer d (p.run t a d) := by
  have hok := hp.stage
  cases hstage : p.stage with
  | read => exact run_read h hp a hstage
  | create => exact run_create h hp a hstage
  | resolvePolicy =>
    rw [hstage] at hok
    unfold Pass.run
    rw [hstage]
    simp only
    split
    · exact .stay h hp hok
    · exact .stay h hp trivial
  | resolveHold => exact run_resolve h hp a hstage fun hq => hresolve hq hstage
  | voidSend => exact run_void h hp a hstage
  | voidConfirm => exact run_voidConfirm h hp a hstage
  | resolveMoney state seen single =>
    rw [hstage] at hok
    unfold Pass.run
    rw [hstage]
    exact .stay h hp ⟨hok.1, .inl hok.2⟩
  | updateRead e tries =>
    rw [hstage] at hok
    unfold Pass.run
    rw [hstage]
    cases tries with
    | zero => exact .stay h hp trivial
    | succ tries =>
      have he : e.Ok t Q issuer d := hok
      simp only
      split
      · rename_i hnone
        refine .stay h hp (Edit.after_ok he ?_)
        rintro ⟨state, seen, approved, money, single, rfl⟩
        have hsome := he.1
        rw [hnone] at hsome
        cases hsome
      · rename_i row hrow
        refine .stay h hp ⟨he, ?_, fun hd => ⟨row, hrow, hd⟩⟩
        rw [hrow]
        exact Newer.refl _
  | updateWrite => exact run_updateWrite h hp a hstage
  | postSingle amount =>
    rw [hstage] at hok
    have hok : d.Decided := hok
    unfold Pass.run
    rw [hstage]
    simp only
    split
    · exact .record h hp _ _ _ a ((Desk.Later.record (t := t) d _ _ _ a).decided hok)
    · exact .stay h hp hok
  | reread => exact run_reread h hp a hstage
  | status => exact run_status h hp a hstage
  | send => exact run_send h hp a hstage
  | confirm s e rest label n =>
    rw [hstage] at hok
    obtain ⟨hat, hsent, instr, hroute⟩ := hok
    unfold Pass.run
    rw [hstage]
    exact .stay h hp (settle_ok h hat hroute hsent a.now a.ok)
  | gone => exact run_gone h hp a hstage
  | overHoldSend => exact run_overHold h hp a hstage
  | overHoldConfirm => exact run_overHoldConfirm h hp a hstage
  | refresh => exact run_refresh h hp a hstage
  | post => exact run_post h hp a hstage
  | close => exact run_close h hp a hstage
  | closeConfirm => exact run_closeConfirm h hp a hstage
  | closeGone =>
    rw [hstage] at hok
    unfold Pass.run
    rw [hstage]
    simp only
    split
    · rename_i hnone
      exact .stay h hp (show d.Gone t from ⟨hok, Desk.hold_eq_none.mp hnone.2⟩)
    · exact .stay h hp trivial
  | sweepRead => exact run_sweep h hp a hstage
  | done =>
    unfold Pass.run
    rw [hstage]
    exact .stay h hp trivial

end ChainPay.Backend
