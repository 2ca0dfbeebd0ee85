import ChainPay.Backend.Passes

/-!
The authorization request and the whole system. `decide_ok` goes through the awaits of
`decide` as `run_ok` does through those of a pass; `step_safe` puts both together with
the rollup and the other writers of the row, so that in every interleaving the shared
state is `Sound` and every pass is in order.
-/

namespace ChainPay.Backend
open ChainPay.Lib ChainPay.Card

section Request

variable {t : Token} {Q : Promise} {issuer : Issuer t} {d : Desk}

/-- A step of the request went well. -/
structure Decides (t : Token) (Q : Promise) (issuer : Issuer t) (d d' : Desk) : Prop where
  sound : d'.Sound t Q issuer
  later : Desk.Later t d d'
  chain : d'.chain = d.chain
  history : d'.history = d.history

theorem Decides.same (h : d.Sound t Q issuer) : Decides t Q issuer d d := ⟨h, .refl d, rfl, rfl⟩

theorem Decides.past (h : d.Sound t Q issuer) {x : Asa} (hfirst : d.asa.isFirst = false)
    (hahead : x.isAhead = false) (hx : x.Ok t { d with asa := x }) :
    Decides t Q issuer d { d with asa := x } := by
  refine ⟨h.setPast hfirst hahead hx, .setAsa ?_, rfl, rfl⟩
  intro ha
  cases hahead.symm.trans ha

/-- A request that never sends makes no Reservation. -/
theorem Desk.Sound.spent (h : d.Sound t Q issuer) (ha : d.asa.isAhead = true) {x : Asa}
    (hx : x.isAhead = false) : { d with asa := x : Desk }.Spent t := by
  obtain ⟨hcreated, hnone⟩ := h.ahead ha
  exact ⟨hcreated, hx, fun tx htx hc => absurd hc (hnone tx htx)⟩

/-- Nor does one whose transaction is known not to have landed. -/
theorem Desk.Sound.spent_of_dead (h : d.Sound t Q issuer) (ha : d.asa.isAhead = false) {n : Nat}
    {tx : Tx} (hget : d.txs[n]? = some tx) (hc : tx.instr.creates = some t.authId)
    (hdead : tx.status.isDead = true) : d.Spent t := by
  refine ⟨?_, ha, ?_⟩
  · intro hcreated
    rw [(h.landed tx (List.mem_of_getElem? hget) hc).mpr hcreated] at hdead
    cases hdead
  · intro tx' htx' hc'
    obtain ⟨m, hm⟩ := List.mem_iff_getElem?.mp htx'
    cases h.unique m n tx' tx hm hget hc' hc
    cases hm.symm.trans hget
    exact hdead

theorem Decision.Ok.of_refused {state : TxnState} (hs : d.Spent t)
    (hstate : state = .declined ∨ state = .declinedInternal ∨ state = .accountVerification) :
    (⟨state, 0, none⟩ : Decision).Ok t d := by
  rcases hstate with rfl | rfl | rfl
  · exact ⟨nofun, fun _ _ => hs, nofun⟩
  · exact ⟨nofun, fun _ _ => hs, nofun⟩
  · exact ⟨nofun, fun _ _ => hs, nofun⟩

theorem Decision.Ok.of_ambiguous : (⟨.ambiguous, 0, none⟩ : Decision).Ok t d :=
  ⟨nofun, nofun, nofun⟩

theorem Desk.Sound.created_of_hold (h : d.Sound t Q issuer) {r : Reservation}
    (hr : d.hold t = some r) : d.Created t := by
  refine (h.captured r.captureIds ?_).1
  unfold State.capturedOn
  have hr : d.chain.reservations.lookup t.authId = some r := hr
  rw [hr]
  rfl

theorem reservationDecision_ok (hc : d.Created t) (r : Reservation) (amount : Nat)
    (singleMessage : Bool) : (reservationDecision r amount singleMessage).Ok t d := by
  unfold reservationDecision
  split
  · exact ⟨fun _ => hc, nofun, nofun⟩
  · split
    · exact ⟨fun _ => hc, nofun, nofun⟩
    · exact .of_ambiguous

theorem early_state {req : Request} {seen : Bool} {x : Decision} (h : req.early seen = some x) :
    ∃ state, x = ⟨state, 0, none⟩ ∧
      (state = .declined ∨ state = .declinedInternal ∨ state = .accountVerification) := by
  unfold Request.early at h
  split at h
  · cases h
    exact ⟨_, rfl, .inl rfl⟩
  · split at h
    · cases h
      exact ⟨_, rfl, .inr (.inl rfl)⟩
    · split at h
      · cases h
        exact ⟨_, rfl, .inl rfl⟩
      · split at h
        · cases h
          exact ⟨_, rfl, .inl rfl⟩
        · cases h

/-- The request stores a decision. -/
theorem Decides.persist (h : d.Sound t Q issuer) {x : Decision} (hfirst : d.asa.isFirst = false)
    (hx : x.Ok t { d with asa := .persistRead x UPDATE_TRIES }) :
    Decides t Q issuer d (d.persist x) := .past h hfirst rfl hx

theorem Decides.persist_later (h : d.Sound t Q issuer) {x : Decision}
    (hahead : d.asa.isAhead = false) (hx : x.Ok t d) : Decides t Q issuer d (d.persist x) := by
  have hfirst : d.asa.isFirst = false := by
    cases hasa : d.asa with
    | start | createPending =>
      rw [hasa] at hahead
      cases hahead
    | evaluate | verify | watch | guardRead | observe | persistRead | persistWrite | post
      | done => rfl
  refine .persist h hfirst (Desk.Later.decisionOk (.setAsa ?_) hx)
  intro ha
  cases ha

theorem persist_allowed (h : d.Sound t Q issuer) {row : Row Txn} (hrow : d.row = some row)
    {x : Decision} (hx : x.Ok t d) :
    d.Allows t Q issuer row (persistRow x row.value) ∧
      (persistRow x row.value).state ≠ .pending := by
  have hv := h.row row hrow
  by_cases hpending : row.value.state = .pending
  · have hu : row.value.Undecided := by
      rcases hv.shape with hu | hp | ha
      · exact hu
      · have hd := hp.isOpenDecision
        rw [hpending] at hd
        cases hd
      · have hd := ha.1
        rw [hpending] at hd
        cases hd
    have ⟨_, hflag, hsolicited, hclosed, happlied⟩ := hu
    have hstate : (persistRow x row.value).state = x.state := by
      unfold persistRow
      rw [if_pos hpending]
    have hsame : (persistRow x row.value).hasReservation = false ∧
        (persistRow x row.value).unsolicited = false ∧
        (persistRow x row.value).reservationClosed = false ∧
        (persistRow x row.value).appliedEventIds = [] ∧
        (persistRow x row.value).unsent = row.value.unsent ∧
        (persistRow x row.value).pendingEvents = row.value.pendingEvents := by
      unfold persistRow
      rw [if_pos hpending]
      exact ⟨hflag, hsolicited, hclosed, happlied, rfl, rfl⟩
    generalize persistRow x row.value = v at hstate hsame
    obtain ⟨hflag', hsolicited', hclosed', happlied', hunsent', hpending'⟩ := hsame
    have hnp : v.state ≠ .pending := by
      rw [hstate]
      exact hx.notPending
    have hf : row.value.Follows v := by
      refine .of_undecided hu (fun _ => hnp) ?_
      rw [hunsent']
      exact fun i hi => hi
    refine ⟨⟨hf, fun now => ?_, ?_⟩, hnp⟩
    · have L : Desk.Later t d _ := .setRow hrow hf now
      refine ⟨?_, ?_, ?_, ?_, ?_⟩
      · by_cases hh : x.state.isHold = true
        · exact .inr (.inl ⟨hstate ▸ hh, hsolicited'⟩)
        · by_cases ho : x.state.isOpenDecision = true
          · exact .inl ⟨hstate ▸ ho, hflag', hsolicited', hclosed', happlied'⟩
          · exact .inr (.inr ⟨hstate ▸ Bool.not_eq_true _ ▸ ho, hstate ▸ Bool.not_eq_true _ ▸ hh,
              hflag'⟩)
      · intro hp
        exact L.created (hx.held (hstate ▸ hp.1))
      · intro hc
        cases hclosed'.symm.trans hc
      · rw [happlied']
        intro i hi
        cases hi
      · rw [hpending']
        exact fun q hq => L.sentFor (hv.pending q hq)
    · intro _ ha
      exact .inl (hx.spent (hstate ▸ ha.2.1) (hstate ▸ ha.1))
  · have hsame : persistRow x row.value = row.value := if_neg hpending
    rw [hsame]
    exact ⟨h.allows_frame hrow (.refl _) hv id, hpending⟩

variable (h : d.Sound t Q issuer)
include h

theorem decide_createPending (a : Answer) {req : Request} (hasa : d.asa = .createPending req)
    (hfirst : Q.paired → d.row = none) : Decides t Q issuer d (d.decide t a) := by
  have hok := h.asa
  rw [hasa] at hok
  have hahead : (Asa.evaluate req).isAhead = true → d.asa.isAhead = true := by
    intro _
    rw [hasa]
    rfl
  unfold Desk.decide
  rw [hasa]
  simp only
  rcases cas_create d.row { state := .pending } a.now with ⟨hnone, hcas⟩ | ⟨row, hrow, hcas⟩
  · rw [hcas]
    have L : Desk.Later t d { d with
        row := some ⟨1, { state := .pending }, a.now⟩, asa := .evaluate req } :=
      (Desk.Later.newRow hnone).trans (.setAsa hahead)
    refine ⟨h.edit L rfl rfl rfl hahead ?_ ⟨rfl, hok⟩ ?_, L, rfl, rfl⟩
    · intro r hr
      cases hr
      refine ⟨.inl ⟨rfl, rfl, rfl, rfl, rfl⟩, ?_, ?_, ?_, ?_⟩
      · intro hp
        cases hp.1
      · intro hc
        cases hc
      · intro i hi
        cases hi
      · intro q hq
        cases hq
    · rintro - ⟨r, hr, ha⟩
      cases hr
      cases ha.1
  · rw [hcas]
    refine ⟨h.setAsa hahead ⟨?_, hok⟩ ?_, .setAsa hahead, rfl, rfl⟩
    · rw [hrow]
      rfl
    · intro hq
      cases (hfirst hq).symm.trans hrow

theorem decide_evaluate (a : Answer) {req : Request} (hasa : d.asa = .evaluate req) :
    Decides t Q issuer d (d.decide t a) := by
  have hahead : d.asa.isAhead = true := by
    rw [hasa]
    rfl
  have hfirst : d.asa.isFirst = false := by
    rw [hasa]
    rfl
  have hrefuse : ∀ {state : TxnState},
      state = .declined ∨ state = .declinedInternal ∨ state = .accountVerification →
        Decides t Q issuer d (d.persist ⟨state, 0, none⟩) := fun hs =>
    .persist h hfirst (.of_refused (h.spent hahead rfl) hs)
  unfold Desk.decide
  rw [hasa]
  simp only
  split
  · rename_i x hx
    obtain ⟨state, rfl, hs⟩ := early_state hx
    exact hrefuse hs
  · split
    · exact .past h hfirst rfl (h.spent hahead rfl)
    · split
      · obtain ⟨hsound, L⟩ := h.authorize hasa
        exact ⟨hsound, L, rfl, rfl⟩
      · exact hrefuse (.inr (.inl rfl))

theorem decide_watch (a : Answer) {req : Request} {n : Nat} (hasa : d.asa = .watch req n) :
    Decides t Q issuer d (d.decide t a) := by
  have hok := h.asa
  rw [hasa] at hok
  obtain ⟨tx, hget, hcreates⟩ := hok
  have hahead : d.asa.isAhead = false := by
    rw [hasa]
    rfl
  have hfirst : d.asa.isFirst = false := by
    rw [hasa]
    rfl
  unfold Desk.decide
  rw [hasa]
  simp only
  split
  · rename_i e hh
    have hdead : tx.status.isDead = true := by
      have hheard := d.heard_status hget hh (by rintro ⟨⟩)
      cases hst : tx.status with
      | refused | dropped => rfl
      | landed | sent =>
        rw [hst] at hheard
        cases hheard
    have hspent := h.spent_of_dead hahead hget hcreates hdead
    split
    · exact .past h hfirst rfl (Desk.Later.spent (.setAsa (by rintro ⟨⟩)) hspent)
    · exact .persist_later h hahead (.of_refused hspent (.inl rfl))
  · rename_i hh
    have hdead : tx.status.isDead = true := by
      have hheard := d.heard_status hget hh (by rintro ⟨⟩)
      cases hst : tx.status with
      | refused | dropped => rfl
      | landed | sent =>
        rw [hst] at hheard
        cases hheard
    exact .persist_later h hahead
      (.of_refused (h.spent_of_dead hahead hget hcreates hdead) (.inr (.inl rfl)))
  -- without a refusal, the decision is what the rollup shows
  · split
    · rename_i r hr
      split at hr
      · exact .persist_later h hahead (reservationDecision_ok (h.created_of_hold hr) _ _ _)
      · cases hr
    · split
      · exact .past h hfirst rfl trivial
      · exact .persist_later h hahead .of_ambiguous

theorem decide_persistWrite (a : Answer) {x : Decision} {tries : Nat} {row : Row Txn}
    (hasa : d.asa = .persistWrite x tries row) : Decides t Q issuer d (d.decide t a) := by
  have hok := h.asa
  rw [hasa] at hok
  obtain ⟨hx, hnewer⟩ := hok
  have hfirst : d.asa.isFirst = false := by
    rw [hasa]
    rfl
  unfold Desk.decide
  rw [hasa]
  simp only
  rcases Desk.write_cases hnewer (persistRow x row.value) a.now with ⟨hrow, hw⟩ | hw
  · rw [hw]
    obtain ⟨hallowed, hnp⟩ := persist_allowed h hrow hx
    obtain ⟨hsound, L⟩ := h.write hrow hallowed a.now
    have hstored : { d with row := some ⟨row.rev + 1, persistRow x row.value, a.now⟩ : Desk }.RowIs
        fun v => v.state ≠ .pending := ⟨_, rfl, hnp⟩
    have hnext : ∀ {y : Asa}, y.isAhead = false →
        y.Ok t { d with row := some ⟨row.rev + 1, persistRow x row.value, a.now⟩, asa := y } →
        Decides t Q issuer d
          { d with row := some ⟨row.rev + 1, persistRow x row.value, a.now⟩, asa := y } := by
      intro y hy hyok
      have hstep := Decides.past hsound hfirst hy hyok
      exact ⟨hstep.sound, L.trans hstep.later, rfl, rfl⟩
    split
    · rename_i d' heq
      cases heq
      split
      · split
        · exact hnext rfl hstored
        · exact hnext rfl fun _ => hstored
      · exact hnext rfl fun _ => hstored
    · rename_i heq
      cases heq
  · rw [hw]
    refine .past h hfirst rfl (Desk.Later.decisionOk (.setAsa ?_) hx)
    intro ha
    cases ha

/-- **The request.** -/
theorem decide_ok (a : Answer)
    (hfirst : Q.paired → ∀ req, d.asa = .createPending req → d.row = none) :
    Decides t Q issuer d (d.decide t a) := by
  have hok := h.asa
  cases hasa : d.asa with
  | start =>
    unfold Desk.decide
    rw [hasa]
    exact .same h
  | createPending req => exact decide_createPending h a hasa fun hq => hfirst hq req hasa
  | evaluate req => exact decide_evaluate h a hasa
  | verify =>
    rw [hasa] at hok
    have hahead : d.asa.isAhead = false := by
      rw [hasa]
      rfl
    unfold Desk.decide
    rw [hasa]
    simp only
    split
    · split
      · exact .persist_later h hahead (.of_refused hok (.inr (.inr rfl)))
      · exact .persist_later h hahead (.of_refused hok (.inl rfl))
    · exact .persist_later h hahead (.of_refused hok (.inr (.inl rfl)))
  | watch req n => exact decide_watch h a hasa
  | guardRead req =>
    rw [hasa] at hok
    have hahead : d.asa.isAhead = false := by
      rw [hasa]
      rfl
    unfold Desk.decide
    rw [hasa]
    simp only
    split
    · exact .persist_later h hahead (.of_refused hok (.inl rfl))
    · exact .past h (by rw [hasa]; rfl) rfl trivial
  | observe req =>
    have hahead : d.asa.isAhead = false := by
      rw [hasa]
      rfl
    unfold Desk.decide
    rw [hasa]
    simp only
    split
    · rename_i r hr
      split at hr
      · exact .persist_later h hahead (reservationDecision_ok (h.created_of_hold hr) _ _ _)
      · cases hr
    · exact .persist_later h hahead .of_ambiguous
  | persistRead x tries =>
    rw [hasa] at hok
    have hx : x.Ok t d := hok
    have hf : d.asa.isFirst = false := by
      rw [hasa]
      rfl
    unfold Desk.decide
    rw [hasa]
    cases tries with
    | zero => exact .past h hf rfl nofun
    | succ tries =>
      simp only
      split
      · exact .past h hf rfl nofun
      · rename_i row hrow
        refine .past h hf rfl ⟨Desk.Later.decisionOk (.setAsa ?_) hx, ?_⟩
        · intro ha
          cases ha
        · change Newer (some row) d.row
          rw [hrow]
          exact Newer.refl _
  | persistWrite x tries row => exact decide_persistWrite h a hasa
  | post amount =>
    rw [hasa] at hok
    have hf : d.asa.isFirst = false := by
      rw [hasa]
      rfl
    unfold Desk.decide
    rw [hasa]
    simp only
    split
    · have L := Desk.Later.record (t := t) d t.authId .singleMessage amount a
      have hsound := h.record t.authId .singleMessage amount a
      have hstep := Decides.past hsound (x := .done true) hf rfl fun _ => L.notPending hok
      exact ⟨hstep.sound, L.trans hstep.later, rfl, rfl⟩
    · exact .past h hf rfl fun _ => hok
  | done b =>
    rw [hasa] at hok
    unfold Desk.decide
    rw [hasa]
    exact .past h (by rw [hasa]; rfl) rfl hok

end Request

/-! ## The system -/

/-- A Reservation is closed only when every capture on it is marked applied. -/
def ClosesApplied (t : Token) (w : TxnSystem) : TxnAction → Prop
  | .land n _ => ∀ tx ∈ w.store.txs[n]?, tx.instr.closes = some t.authId →
    ∀ i ∈ w.store.captured t, w.store.RowIs fun v => i ∈ v.appliedEventIds
  | _ => True

/-- The request's `create_pending` finds no row. -/
def PendingFirst (w : TxnSystem) : TxnAction → Prop
  | .asa _ =>
    match w.store.asa with
    | .createPending _ => w.store.row = none
    | _ => True
  | _ => True

/-- A pass that reads the Reservation of an open decision. -/
def Stage.resolves : Stage → Bool
  | .resolveHold => true
  | _ => false

/-- A decision is resolved without a Reservation only once `authorize` cannot land any
more. -/
def ResolvedLate (t : Token) (w : TxnSystem) : TxnAction → Prop
  | .run i a => ∀ p ∈ w.procs[i]?, p.stage.resolves = true → a.ok = true →
    w.store.hold t = none → w.store.asa.isAhead = false ∧
      ∀ tx ∈ w.store.txs, tx.instr.creates = some t.authId → tx.status ≠ .sent
  | _ => True

instance (d : Desk) (P : Txn → Prop) [DecidablePred P] : Decidable (d.RowIs P) :=
  match h : d.row with
  | none => .isFalse (by rintro ⟨r, hr, -⟩; cases h.symm.trans hr)
  | some r => decidable_of_iff (P r.value)
    ⟨fun hv => ⟨r, h, hv⟩, fun hv => hv.value h⟩

-- ids are 256 bits wide: quantifiers over them are decided along their lists
instance (priority := high) (ids : List Hash) (P : Hash → Prop) [DecidablePred P] :
    Decidable (∀ i ∈ ids, P i) := List.decidableBAll P ids

instance (priority := high) (id : Option Hash) (P : Hash → Prop) [DecidablePred P] :
    Decidable (∀ i ∈ id, P i) := Option.decidableForallMem id

instance (t : Token) (w : TxnSystem) : ∀ a, Decidable (ClosesApplied t w a)
  | .land n _ => inferInstanceAs (Decidable (∀ tx ∈ w.store.txs[n]?,
      tx.instr.closes = some t.authId →
        ∀ i ∈ w.store.captured t, w.store.RowIs fun v => i ∈ v.appliedEventIds))
  | .decide _ | .asa _ | .asaStop | .start _ | .sweep | .run _ _ | .stop _ | .drop _ | .other _
  | .stale _ | .touchRow _ _ _ _ => .isTrue trivial

instance (w : TxnSystem) : ∀ a, Decidable (PendingFirst w a)
  | .asa _ =>
    match h : w.store.asa with
    | .createPending _ => decidable_of_iff (w.store.row = none) (by simp only [PendingFirst, h])
    | .start | .evaluate _ | .verify | .watch _ _ | .guardRead _ | .observe _ | .persistRead _ _
    | .persistWrite _ _ _ | .post _ | .done _ => .isTrue (by simp only [PendingFirst, h])
  | .land _ _ | .decide _ | .asaStop | .start _ | .sweep | .run _ _ | .stop _ | .drop _
  | .other _ | .stale _ | .touchRow _ _ _ _ => .isTrue trivial

instance (t : Token) (w : TxnSystem) : ∀ a, Decidable (ResolvedLate t w a)
  | .run i a => inferInstanceAs (Decidable (∀ p ∈ w.procs[i]?, p.stage.resolves = true →
      a.ok = true → w.store.hold t = none → w.store.asa.isAhead = false ∧
        ∀ tx ∈ w.store.txs, tx.instr.creates = some t.authId → tx.status ≠ .sent))
  | .land _ _ | .decide _ | .asa _ | .asaStop | .start _ | .sweep | .stop _ | .drop _
  | .other _ | .stale _ | .touchRow _ _ _ _ => .isTrue trivial

/-- The step is as promised. -/
structure Promise.Keeps (Q : Promise) (t : Token) (w : TxnSystem) (a : TxnAction) : Prop where
  closes : Q.closes → ClosesApplied t w a
  pending : Q.paired → PendingFirst w a
  resolved : Q.paired → ResolvedLate t w a

theorem PendingFirst.row_none {w : TxnSystem} {a : Answer} (h : PendingFirst w (.asa a))
    {req : Request} (hasa : w.store.asa = .createPending req) : w.store.row = none := by
  simp only [PendingFirst, hasa] at h
  exact h

section System

variable {t : Token} {Q : Promise} {issuer : Issuer t} {w w' : TxnSystem}

/-- The shared state is in order, and so is every pass. -/
abbrev TxnSystem.Safe (t : Token) (Q : Promise) (issuer : Issuer t) (w : TxnSystem) : Prop :=
  World.Safe (Desk.Sound t Q issuer) (fun d p => Pass.Ok t Q issuer d p) w

/-- A change of the shared state that no pass makes. -/
theorem TxnSystem.Safe.outside (hw : w.Safe t Q issuer) {d : Desk} (hd : d.Sound t Q issuer)
    (L : Desk.Later t w.store d) :
    TxnSystem.Safe t Q issuer { w with store := d } ∧ Desk.Later t w.store d :=
  ⟨World.Safe.env hw (fun _ _ _ _ L hp => L.passOk hp) hd L, L⟩

theorem stale_ok {d : Desk} (h : d.Sound t Q issuer) (updated : Nat) :
    (d.stale updated).Sound t Q issuer ∧ Desk.Later t d (d.stale updated) := by
  unfold Desk.stale
  cases hrow : d.row with
  | none =>
    have hsame : ({ d with row := none } : Desk) = d := by rw [← hrow]
    simp only [Option.map_none]
    rw [hsame]
    exact ⟨h, .refl d⟩
  | some row =>
    simp only [Option.map_some]
    split
    · rename_i hpending
      have hv := h.row row hrow
      have hu : row.value.Undecided := by
        rcases hv.shape with hu | hp | ha
        · exact hu
        · have hd := hp.isOpenDecision
          rw [hpending] at hd
          cases hd
        · have hd := ha.1
          rw [hpending] at hd
          cases hd
      have hf : row.value.Follows { row.value with state := .ambiguous } :=
        .of_undecided hu (fun _ => nofun) fun i hi => hi
      have hv' : d.RowOk t issuer { row.value with state := .ambiguous } := by
        refine ⟨.inl ⟨rfl, hu.2⟩, ?_, hv.closed, hv.applied, hv.pending⟩
        intro hp
        cases hp.1
      refine h.write hrow (h.allows_frame hrow hf hv' ?_) updated
      intro ha
      cases ha.1
    · have hsame : ({ d with row := some row } : Desk) = d := by rw [← hrow]
      rw [hsame]
      exact ⟨h, .refl d⟩

theorem touchRow_ok {d : Desk} (h : d.Sound t Q issuer) (dispute : Option Nat)
    (status : Option IssuerStatus) (notFinal : Option Nat) (updated : Nat) :
    (d.touchRow dispute status notFinal updated).Sound t Q issuer ∧
      Desk.Later t d (d.touchRow dispute status notFinal updated) := by
  unfold Desk.touchRow
  cases hrow : d.row with
  | none =>
    have hsame : ({ d with row := none } : Desk) = d := by rw [← hrow]
    simp only [Option.map_none]
    rw [hsame]
    exact ⟨h, .refl d⟩
  | some row =>
    simp only [Option.map_some]
    refine h.write hrow ?_ updated
    refine h.allows_frame hrow (.of_eq rfl rfl rfl rfl rfl) ?_ id
    exact (h.row row hrow).frame rfl rfl rfl rfl rfl rfl rfl

theorem drop_ok {d d' : Desk} (h : d.Sound t Q issuer) {n : Nat} (hd : d.drop n = some d') :
    d'.Sound t Q issuer ∧ Desk.Later t d d' := by
  unfold Desk.drop at hd
  split at hd
  · rename_i event instr hget
    cases hd
    refine h.kill hget rfl rfl ?_
    rintro i e hi he hb ⟨err', herr, hr⟩
    cases herr
  · cases hd

variable [Runtime]

theorem land_ok {d d' : Desk} (h : d.Sound t Q issuer) {n : Nat} {ctx : Ctx}
    (hd : d.land n ctx = some d')
    (hclose : Q.closes → ∀ tx : Tx, d.txs[n]? = some tx → tx.instr.closes = some t.authId →
      ∀ i ∈ d.captured t, d.RowIs fun v => i ∈ v.appliedEventIds) :
    d'.Sound t Q issuer ∧ Desk.Later t d d' := by
  unfold Desk.land at hd
  split at hd
  · rename_i event instr hget
    split at hd
    · rename_i chain hx
      cases hd
      exact h.land hget rfl hx fun hq => hclose hq _ hget
    · rename_i err hx
      cases hd
      refine h.kill hget rfl rfl ?_
      rintro i e hi he hb ⟨err', herr, hr⟩
      cases herr
      obtain ⟨e', present, closed, label, he', -, hroute⟩ :=
        (h.txs _ (List.mem_of_getElem? hget)).sends i hi
      cases he.symm.trans he'
      exact Desk.routed_paid hroute hb (.inr ⟨err, hx, hr⟩)
  · cases hd

/-- **Every step** of every party keeps the system in order and only moves the shared
state on. -/
theorem step_safe {a : TxnAction} (hw : w.Safe t Q issuer) (hkeep : Q.Keeps t w a)
    (h : w.step t issuer a = .ok w') : w'.Safe t Q issuer ∧ Desk.Later t w.store w'.store := by
  have hinv := hw.inv
  cases a with
  | decide req =>
    simp only [TxnSystem.step] at h
    split at h
    · rename_i hasa
      split at h
      · rename_i hreq
        cases h
        have hahead : (Asa.createPending req).isAhead = true → w.store.asa.isAhead = true := by
          intro _
          rw [hasa]
          rfl
        refine hw.outside (hinv.setAsa hahead hreq fun _ _ _ => .inr rfl) (.setAsa hahead)
      · cases h
    · cases h
  | asa a =>
    cases h
    have hstep := decide_ok hinv a fun hq req hasa => (hkeep.pending hq).row_none hasa
    exact hw.outside hstep.sound hstep.later
  | asaStop =>
    cases h
    have hok := hinv.asa
    refine hw.outside (hinv.setAsa nofun ?_ ?_) (.setAsa nofun)
    · intro hp
      cases hasa : w.store.asa with
      | post =>
        rw [hasa] at hok
        exact hok
      | done b =>
        rw [hasa] at hok hp
        exact hok hp
      | start | createPending | evaluate | verify | watch | guardRead | observe | persistRead
        | persistWrite =>
        rw [hasa] at hp
        cases hp
    · intro _ _ hf
      refine .inl (hinv.spent ?_ rfl)
      cases hasa : w.store.asa with
      | start | createPending => rfl
      | evaluate | verify | watch | guardRead | observe | persistRead | persistWrite | post
        | done =>
        rw [hasa] at hf
        cases hf
  | start truth =>
    simp only [TxnSystem.step] at h
    split at h
    · rename_i hlisted
      cases h
      exact ⟨hw.spawn ⟨hlisted, trivial⟩, .refl _⟩
    · cases h
  | sweep =>
    cases h
    refine ⟨hw.spawn ⟨?_, trivial⟩, .refl _⟩
    intro e he
    cases he
  | run i a =>
    simp only [TxnSystem.step] at h
    split at h
    · cases h
    · rename_i p hp
      cases h
      have hstep := run_ok hinv (hw.procs p (List.mem_of_getElem? hp)) a
        fun hq hs => hkeep.resolved hq p hp (hs ▸ rfl)
      exact ⟨World.Safe.step hw (fun _ _ _ _ L hp => L.passOk hp) i hstep.sound hstep.later
        hstep.pass, hstep.later⟩
  | stop i =>
    simp only [TxnSystem.step] at h
    split at h
    · cases h
    · rename_i p hp
      cases h
      have hpass : (p.goto .done).Ok t Q issuer w.store :=
        ⟨(hw.procs p (List.mem_of_getElem? hp)).listed, trivial⟩
      exact ⟨World.Safe.step hw (fun _ _ _ _ L hp => L.passOk hp) i hinv (Desk.Later.refl (t := t) w.store)
        hpass, .refl _⟩
  | land n ctx =>
    simp only [TxnSystem.step] at h
    split at h
    · rename_i d hd
      cases h
      obtain ⟨hsound, L⟩ := land_ok hinv hd fun hq tx htx => hkeep.closes hq tx htx
      exact hw.outside hsound L
    · cases h
  | drop n =>
    simp only [TxnSystem.step] at h
    split at h
    · rename_i d hd
      cases h
      obtain ⟨hsound, L⟩ := drop_ok hinv hd
      exact hw.outside hsound L
    · cases h
  | other call =>
    simp only [TxnSystem.step] at h
    split at h
    · rename_i hforeign
      split at h
      · rename_i d hd
        cases h
        unfold Desk.other at hd
        split at hd
        · rename_i chain hx
          cases hd
          obtain ⟨hsound, L⟩ := hinv.other hforeign hx
          exact hw.outside hsound L
        · cases hd
      · cases h
    · cases h
  | stale updated =>
    cases h
    obtain ⟨hsound, L⟩ := stale_ok hinv updated
    exact hw.outside hsound L
  | touchRow dispute status notFinal updated =>
    cases h
    obtain ⟨hsound, L⟩ := touchRow_ok hinv dispute status notFinal updated
    exact hw.outside hsound L

theorem initial_safe {chain : State} (hfresh : Fresh chain) :
    (TxnSystem.initial chain).Safe t Q issuer where
  inv := Desk.sound_initial Q issuer hfresh
  procs := by
    intro p hp
    cases hp

end System

/-! ## A transaction to run -/

namespace Sample
open Card.Sample

def token : Token := ⟨authorizer, key 6, key 8⟩

/-- An issuer with these events. -/
def issuerOf (events : List IssuerEvent) (hhold : ∀ e ∈ events, e.id ≠ token.authId)
    (hvoid : ∀ e ∈ events, e.id ≠ token.voidId) : Issuer token where
  event i := events.find? fun e => decide (e.id = i)
  id_eq := by
    intro i e h
    have hid := List.find?_some h
    exact of_decide_eq_true hid
  not_hold := by
    refine List.find?_eq_none.mpr fun e he => ?_
    rw [decide_eq_true_eq]
    exact hhold e he
  not_void := by
    refine List.find?_eq_none.mpr fun e he => ?_
    rw [decide_eq_true_eq]
    exact hvoid e he

/-- An approved clearing. -/
def clearing (n created : Nat) (amount : Int) : IssuerEvent :=
  ⟨key n, created, some true, false, .clearing, some amount, none, none⟩

/-- Everything gets through. -/
def heard : Answer := ⟨1800000000000, true, true, some 250⟩

def request (amount : Nat) : Request :=
  ⟨⟨key 6, BitVec.ofNat 128 6, amount, USD, merchant, 0, false, false⟩, true, 0, some false⟩

/-- A card with an intent for the request. -/
def opened (amount : Nat) : List TxnAction :=
  (setup 100000 50000 250 ++ [byAuthorizer (.openCheckoutIntent authorizer
    ⟨BitVec.ofNat 128 6, key 5, merchant, 0, amount, USD, 1800000300⟩)]).map .other

def lands (n : Nat) : TxnAction := .land n (ctxAt 1800000000 [authorizer])

/-- The request decides and `authorize` lands, as transaction `n`. -/
def approved (amount n : Nat) : List TxnAction :=
  [.decide (request amount), .asa heard, .asa heard, lands n, .asa heard, .asa heard, .asa heard]

/-- `n` awaits of pass `i`. -/
def runs (i n : Nat) : List TxnAction := List.replicate n (.run i heard)

end Sample

end ChainPay.Backend
