import ChainPay.Backend.Request

/-!
The request and the passes agree about the hold. A row that says there is no Reservation
is only written when none can be made any more, provided the request's own row comes
first and no decision is resolved while `authorize` may still land; so once the
Reservation is there, every reader of the row finds it.
-/

namespace ChainPay.Backend
open ChainPay.Lib ChainPay.Card

/-- The Reservation an instruction posts to. -/
def postsTo : Instr → Option Hash
  | .adjustReservation _ h _ | .capture _ h _ _ | .reverse _ h _ _ _ => some h
  | .refund _ o _ _ | .recordException _ o _ _ _ => o
  | _ => none

/-- The local variables of a pass that routes events. -/
def Stage.scan : Stage → Option Scan
  | .status s _ _ _ _ _ | .send s _ _ _ _ | .confirm s _ _ _ _ | .overHoldSend s _ _
  | .overHoldConfirm s _ _ _ _ => some s
  | _ => none

section Reserved

variable {t : Token} {Q : Promise} {issuer : Issuer t} {d : Desk}

/-- What a pass that saw the Reservation sends names it, unless it is closed, and is no
forced capture. -/
theorem Routed.postsTo {closed : Bool} {e : IssuerEvent} {instr : Instr} {label : StepLabel}
    (h : Routed t true closed e instr label) :
    (closed = false → Backend.postsTo instr = some t.authId) ∧
      label ≠ .forcedCapture ∧ label ≠ .unpairedCapture := by
  have hhold : closed = false → onHold t true closed = some t.authId := by
    rintro rfl
    rfl
  cases h with
  | unpaired _ hp => cases hp
  | forced _ hp => cases hp
  | late _ hc | «over» _ hc =>
    refine ⟨fun hn => ?_, nofun, nofun⟩
    cases hc.symm.trans hn
  | adjust | overHold | capture | reverse | expire => exact ⟨fun _ => rfl, nofun, nofun⟩
  | refund | returnReversal | correctionDebit | correctionCredit => exact ⟨hhold, nofun, nofun⟩

/-- Once the Reservation was made no row says that there is none. -/
theorem Desk.Sound.not_absent (h : d.Sound t Q issuer) (hq : Q.paired) (hc : d.Created t) :
    ¬ d.RowIs Txn.Absent := by
  intro ha
  rcases h.paired hq ha with hs | hs
  · exact hs.created hc
  · refine (h.ahead ?_).1 hc
    cases hasa : d.asa with
    | start | createPending => rfl
    | evaluate | verify | watch | guardRead | observe | persistRead | persistWrite | post | done =>
      rw [hasa] at hs
      cases hs

theorem Desk.Sound.row_reserved (h : d.Sound t Q issuer) (hq : Q.paired) (hc : d.Created t)
    (hp : d.asa.persisted = true) :
    ∃ row, d.row = some row ∧ (row.value.state = .ambiguous ∨ hasReservation row.value = true) := by
  have hstored : d.RowIs fun v => v.state ≠ .pending := by
    have hok := h.asa
    cases hasa : d.asa with
    | post =>
      rw [hasa] at hok
      exact hok
    | done b =>
      rw [hasa] at hok hp
      exact hok hp
    | start | createPending | evaluate | verify | watch | guardRead | observe | persistRead
      | persistWrite =>
      rw [hasa] at hp
      cases hp
  obtain ⟨row, hrow, hne⟩ := hstored
  refine ⟨row, hrow, ?_⟩
  rcases (h.row row hrow).shape with hu | hpr | ha
  · refine .inl ?_
    by_contra hambiguous
    cases hu.1.symm.trans (isOpenDecision_of_ne hne hambiguous)
  · exact .inr hpr.hasReservation
  · exact absurd ⟨row, hrow, ha⟩ (h.not_absent hq hc)

theorem Desk.Sound.sent_reserved (h : d.Sound t Q issuer) (hq : Q.paired) (hc : d.Created t)
    {tx : Tx} (htx : tx ∈ d.txs) {i : Hash} (hi : tx.event = some i) :
    ∃ e closed label, issuer.event i = some e ∧ Routed t true closed e tx.instr label ∧
      (closed = true → d.Gone t) := by
  obtain ⟨e, present, closed, label, he, hreads, hroute⟩ := (h.txs tx htx).sends i hi
  cases present with
  | false => exact absurd (hreads.ofAbsent rfl) (h.not_absent hq hc)
  | true => exact ⟨e, closed, label, he, hroute, fun hcl => (hreads.ofClosed hcl).1⟩

theorem Stage.scan_present (h : d.Sound t Q issuer) (hq : Q.paired) (hc : d.Created t) {g : Stage}
    (hg : g.Ok t Q issuer d) {s : Scan} (hs : g.scan = some s) : s.present = true := by
  have hok : s.Ok t issuer d s.postings := by
    cases g with
    | status | send | confirm | overHoldSend | overHoldConfirm =>
      cases hs
      exact hg.1.routing.ok
    | _ => cases hs
  cases hp : s.present with
  | true => rfl
  | false => exact absurd (hok.absent hp).1 (h.not_absent hq hc)

end Reserved

section Runs

/-- The promise of this module's runs. -/
def Paired : Promise where
  closes := False
  paired := True

variable [Runtime] {t : Token} {issuer : Issuer t}

/-- The request's row comes first and no decision is resolved too early. -/
def Orderly (t : Token) (w : TxnSystem) (a : TxnAction) (_ : TxnSystem) : Prop :=
  PendingFirst w a ∧ ResolvedLate t w a

/-- **The request and the passes agree about the hold.** In every interleaving in which
`create_pending` finds no row and a decision is resolved without a Reservation only once
`authorize` cannot land any more: when the Reservation has been made, the stored decision
reads as a Reservation or is still to be resolved; everything sent for an issuer event
posts to the Reservation, or the Reservation has been closed, and is no forced capture;
and every pass that routes events sees the Reservation. -/
theorem decision_and_events_agree {chain : State} (hfresh : Fresh chain) {as : List TxnAction}
    (hrun : Runs.Along (TxnSystem.step t issuer) (Orderly t) (.initial chain) as)
    (hcreated : (Runs.after (TxnSystem.step t issuer) (.initial chain) as).store.Created t) :
    let w := Runs.after (TxnSystem.step t issuer) (.initial chain) as
    (w.store.asa.persisted = true → ∃ row, w.store.row = some row ∧
        (row.value.state = .ambiguous ∨ hasReservation row.value = true)) ∧
      (∀ tx ∈ w.store.txs, ∀ i, tx.event = some i →
        (postsTo tx.instr = some t.authId ∨ w.store.Gone t) ∧
          ∀ o amount, tx.instr ≠
            .recordException t.authorizer o ExceptionKind.forcedCapture.code amount i) ∧
      ∀ p ∈ w.procs, ∀ s, p.stage.scan = some s → s.present = true := by
  have hsafe : (Runs.after (TxnSystem.step t issuer) (.initial chain) as).Safe t Paired issuer := by
    refine Runs.after_inv ?_ hrun (initial_safe hfresh)
    rintro w a w' ⟨hpending, hresolved⟩ hstep hw
    exact (step_safe hw ⟨nofun, fun _ => hpending, fun _ => hresolved⟩ hstep).1
  have hinv := hsafe.inv
  refine ⟨hinv.row_reserved trivial hcreated, ?_, ?_⟩
  · intro tx htx i hi
    obtain ⟨e, closed, label, he, hroute, hgone⟩ := hinv.sent_reserved trivial hcreated htx hi
    refine ⟨?_, ?_⟩
    · cases closed with
      | false => exact .inl (hroute.postsTo.1 rfl)
      | true => exact .inr (hgone rfl)
    · intro o amount hforced
      rw [hforced] at hroute
      generalize hi' : Instr.recordException t.authorizer o ExceptionKind.forcedCapture.code
        amount i = instr at hroute
      cases hroute with
      | forced _ hp => cases hp
      | unpaired _ hp => cases hp
      | _ => cases hi'
  · intro p hp s hs
    exact Stage.scan_present hinv trivial hcreated (hsafe.procs p hp).stage hs

instance (w w' : TxnSystem) (a : TxnAction) : Decidable (Orderly t w a w') :=
  inferInstanceAs (Decidable (_ ∧ _))

instance (d : Desk) : Decidable (d.Created t) :=
  inferInstanceAs (Decidable (∃ instr ∈ d.history, instr.creates = some t.authId))

end Runs

namespace Sample
open Card.Sample

/-- An authorization and its clearing. -/
def authorization : IssuerEvent :=
  ⟨key 24, 1, some true, false, .authorization, some 1000, none, none⟩

def authorized : Issuer token :=
  issuerOf [authorization, clearing 25 2 1000] (by decide) (by decide)

def settled : Truth := ⟨.settled, true, [authorization, clearing 25 2 1000]⟩

/-- The request decides, then a pass comes to the clearing. -/
def requestFirst : List TxnAction :=
  opened 1000 ++ approved 1000 0 ++ [.start settled] ++ runs 0 3

theorem decision_and_events_agree_requestFirst :
    let w := Runs.after (TxnSystem.step token authorized) (.initial start) requestFirst
    w.store.Created token ∧ w.store.asa.persisted = true ∧
      w.store.txs.map Tx.event = [none, some (key 25)] ∧
      ∃ row, w.store.row = some row ∧
        (row.value.state = .ambiguous ∨ hasReservation row.value = true) := by
  have hrun : Runs.Along (TxnSystem.step token authorized) (Orderly token) (.initial start)
      requestFirst := by decide
  have hcreated : (Runs.after (TxnSystem.step token authorized) (.initial start)
      requestFirst).store.Created token := by decide
  have hstored : (Runs.after (TxnSystem.step token authorized) (.initial start)
      requestFirst).store.asa.persisted = true := by decide
  refine ⟨hcreated, hstored, by decide, ?_⟩
  exact (decision_and_events_agree start_fresh hrun hcreated).1 hstored

def exceptionCode : Instr → Option UInt8
  | .recordException _ _ code _ _ => some code
  | _ => none

/-- A webhook of the authorization creates the row before the request does. -/
def webhookFirst : List TxnAction :=
  opened 1000 ++ [.start ⟨.pending, true, [authorization]⟩] ++ runs 0 5 ++ approved 1000 0 ++
    [.start settled] ++ runs 1 3

/-- The Reservation is made and the decision stored, but the row says that there is no
Reservation, and the clearing is sent as a forced capture. -/
theorem webhook_first_forces_capture :
    let w := Runs.after (TxnSystem.step token authorized) (.initial start) webhookFirst
    w.store.Created token ∧ w.store.hold token ≠ none ∧ w.store.asa.persisted = true ∧
      w.store.row.map (fun row => (row.value.state, hasReservation row.value)) =
        some (.unsolicited, false) ∧
      w.store.txs.map (fun tx => (tx.event, exceptionCode tx.instr)) =
        [(none, none), (some (key 25), some ExceptionKind.forcedCapture.code)] := by
  decide

end Sample

end ChainPay.Backend
