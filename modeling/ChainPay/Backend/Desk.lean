import ChainPay.Backend.Routing

/-!
The shared state of one transaction. `Later` is what every step of every party keeps
of it, whatever it does; a fact that one party established survives the steps of the
others when it survives `Later`. `Sound` is the invariant: who sent what, on which
reading of the row, and what the row says about the Reservation.
-/

namespace ChainPay.Backend
open ChainPay.Lib ChainPay.Card

/-- What a run is taken to keep beyond what the code makes sure of. -/
structure Promise where
  /-- The Reservation is closed only when every capture on it is marked applied. -/
  closes : Prop
  /-- The request finds no row, and no decision is resolved while its Reservation may
  still be made. -/
  paired : Prop

def TxStatus.isDead : TxStatus → Bool
  | .refused _ | .dropped => true
  | .sent | .landed => false

/-- The request has not sent `authorize` yet. -/
def Asa.isAhead : Asa → Bool
  | .start | .createPending _ | .evaluate _ => true
  | _ => false

/-- It has not looked for the row yet. -/
def Asa.isFirst : Asa → Bool
  | .start | .createPending _ => true
  | _ => false

namespace Desk

variable (t : Token)

/-- The Reservation was made. -/
def Created (d : Desk) : Prop := ∃ instr ∈ d.history, instr.creates = some t.authId

/-- The captures on it, oldest first. -/
def captured (d : Desk) : List Hash := d.history.filterMap (Instr.capturedId t.authId)

/-- It was made and closed again. -/
def Gone (d : Desk) : Prop := d.Created t ∧ d.chain.capturedOn t.authId = none

/-- It was not made and never will be. -/
structure Spent (d : Desk) : Prop where
  created : ¬ d.Created t
  asa : d.asa.isAhead = false
  dead : ∀ tx ∈ d.txs, tx.instr.creates = some t.authId → tx.status.isDead = true

/-- There is a row and it is so. -/
def RowIs (d : Desk) (P : Txn → Prop) : Prop := ∃ r, d.row = some r ∧ P r.value

/-- Transaction `n` was sent for event `i`. -/
def SentFor (d : Desk) (n : Nat) (i : Hash) : Prop :=
  ∃ tx : Tx, d.txs[n]? = some tx ∧ tx.event = some i

/-- The program refused an instruction of event `i`, and not as a repetition. -/
def Refused (d : Desk) (i : Hash) : Prop :=
  ∃ (n : Nat) (tx : Tx) (e : Err), d.txs[n]? = some tx ∧ tx.event = some i ∧
    tx.status = .refused e ∧ e.isRepeat = false

/-- Event `i` may be marked applied on row `v`: its posting is stored, the program
refused it, nothing was sent for it, or it is of a kind that is not billed. -/
def Accounts {t : Token} (issuer : Issuer t) (d : Desk) (v : Txn) (i : Hash) : Prop :=
  (d.postings.lookup i).isSome ∨ d.Refused i ∨ i ∈ v.unsent ∨
    ∃ e, issuer.event i = some e ∧ e.bills = false

/-- What every step keeps. -/
structure Later (d d' : Desk) : Prop where
  newer : Newer d.row d'.row
  row : ∀ r, d.row = some r → ∃ r', d'.row = some r' ∧ r.value.Follows r'.value
  created : d.Created t → d'.Created t
  gone : d.Gone t → d'.Gone t ∧ d'.captured t = d.captured t
  spent : d.Spent t → d'.Spent t
  txs : ∀ (n : Nat) (tx : Tx), d.txs[n]? = some tx →
    ∃ tx', d'.txs[n]? = some tx' ∧ tx'.event = tx.event ∧ tx'.instr = tx.instr ∧
      (tx.status ≠ .sent → tx' = tx)
  postings : ∀ i r, d.postings.lookup i = some r → d'.postings.lookup i = some r

end Desk

/-! ## The invariant -/

section Invariant

variable (t : Token) (Q : Promise) (issuer : Issuer t)

namespace Desk

/-- A pass read the row so, and it is so still. -/
structure Reads (d : Desk) (present closed : Bool) (i : Hash) : Prop where
  ofPresent : present = true → d.RowIs Txn.Present
  ofAbsent : present = false → d.RowIs Txn.Absent
  ofClosed : closed = true → d.Gone t ∧ (Q.closes → i ∉ d.captured t)

/-- The instruction is one that event `i` was sent as. -/
def Sends (d : Desk) (i : Hash) (instr : Instr) : Prop :=
  ∃ e present closed label, issuer.event i = some e ∧ d.Reads t Q present closed i ∧
    Routed t present closed e instr label

structure TxOk (d : Desk) (tx : Tx) : Prop where
  sends : ∀ i, tx.event = some i → d.Sends t Q issuer i tx.instr
  /-- What is sent for no event carries no event's id. -/
  own : tx.event = none → tx.instr.wipes = false ∧ tx.instr.capturedId t.authId = none ∧
    ∀ i, tx.instr.moneyId = some i ∨ tx.instr.recordedId = some i → issuer.event i = none
  closes : tx.instr.closes = some t.authId →
    d.RowIs Txn.Present ∧ (tx.status = .landed → d.Gone t)
  /-- The program saw an amount in it. -/
  paid : ∀ i e, tx.event = some i → issuer.event i = some e → e.bills = true →
    tx.status = .landed ∨ (∃ err, tx.status = .refused err ∧ err.isRepeat = true) →
      0 < eventAmount e

structure RowOk (d : Desk) (v : Txn) : Prop where
  shape : v.Undecided ∨ v.Present ∨ v.Absent
  created : v.Present → d.Created t
  closed : v.reservationClosed = true → d.Gone t
  applied : ∀ i ∈ v.appliedEventIds, d.Accounts issuer v i
  pending : ∀ q ∈ v.pendingEvents, d.SentFor q.2.signature q.1

end Desk

/-- A decision of the request stands on what the rollup showed. -/
structure Decision.Ok (d : Desk) (x : Decision) : Prop where
  held : x.state.isHold = true → d.Created t
  spent : x.state.isHold = false → x.state.isOpenDecision = false → d.Spent t
  notPending : x.state ≠ .pending

def Asa.Ok (d : Desk) : Asa → Prop
  | .start | .observe _ => True
  | .createPending req => req.args.authIdHash = t.authId
  | .evaluate req => d.row.isSome ∧ req.args.authIdHash = t.authId
  | .verify | .guardRead _ => d.Spent t
  | .watch _ signature =>
    ∃ tx : Tx, d.txs[signature]? = some tx ∧ tx.instr.creates = some t.authId
  | .persistRead x _ => x.Ok t d
  | .persistWrite x _ row => x.Ok t d ∧ Newer (some row) d.row
  | .post _ => d.RowIs fun v => v.state ≠ .pending
  | .done b => b = true → d.RowIs fun v => v.state ≠ .pending

structure Desk.Sound (d : Desk) : Prop where
  captured : ∀ ids, d.chain.capturedOn t.authId = some ids → d.Created t ∧ ids = d.captured t
  uncaptured : ¬ d.Created t → d.captured t = []
  history : ∀ instr ∈ d.history, ∀ i, instr.moneyId = some i ∨ instr.recordedId = some i →
    (issuer.event i).isSome → d.Sends t Q issuer i instr
  txs : ∀ tx ∈ d.txs, d.TxOk t Q issuer tx
  /-- `authorize` is sent once. -/
  unique : ∀ (m n : Nat) (tx tx' : Tx), d.txs[m]? = some tx → d.txs[n]? = some tx' →
    tx.instr.creates = some t.authId → tx'.instr.creates = some t.authId → m = n
  ahead : d.asa.isAhead = true →
    ¬ d.Created t ∧ ∀ tx ∈ d.txs, tx.instr.creates ≠ some t.authId
  landed : ∀ tx ∈ d.txs, tx.instr.creates = some t.authId → (tx.status = .landed ↔ d.Created t)
  asked : d.Created t ∨ (∃ tx ∈ d.txs, tx.instr.creates = some t.authId) → d.row.isSome
  row : ∀ r, d.row = some r → d.RowOk t issuer r.value
  gone : d.Gone t → d.RowIs Txn.Present ∧
    (Q.closes → ∀ i ∈ d.captured t, d.RowIs fun v => i ∈ v.appliedEventIds)
  asa : d.asa.Ok t d
  paired : Q.paired → d.RowIs Txn.Absent → d.Spent t ∨ d.asa.isFirst = true

end Invariant

/-! ## Stability -/

section Stability

variable {t : Token} {Q : Promise} {issuer : Issuer t} {d d' : Desk}

namespace Desk

theorem hold_eq_none : d.hold t = none ↔ d.chain.capturedOn t.authId = none := by
  unfold hold State.capturedOn
  rw [Option.map_eq_none_iff]

theorem RowIs.imp {P P' : Txn → Prop} (h : d.RowIs P) (hP : ∀ v, P v → P' v) : d.RowIs P' := by
  obtain ⟨r, hr, hv⟩ := h
  exact ⟨r, hr, hP r.value hv⟩

theorem RowIs.value {P : Txn → Prop} (h : d.RowIs P) {r : Row Txn} (hr : d.row = some r) :
    P r.value := by
  obtain ⟨r', hr', hv⟩ := h
  cases hr.symm.trans hr'
  exact hv

theorem RowIs.isSome {P : Txn → Prop} (h : d.RowIs P) : d.row.isSome := by
  obtain ⟨r, hr, -⟩ := h
  rw [hr]
  rfl

/-- A row has a Reservation or has none. -/
theorem RowIs.not_absent (h : d.RowIs Txn.Present) : ¬ d.RowIs Txn.Absent := by
  intro ha
  obtain ⟨r, hr, hp⟩ := h
  exact hp.not_absent (ha.value hr)

namespace Later

theorem of_row_eq (hrow : d'.row = d.row) (hcreated : d.Created t → d'.Created t)
    (hgone : d.Gone t → d'.Gone t ∧ d'.captured t = d.captured t)
    (hspent : d.Spent t → d'.Spent t)
    (htxs : ∀ (n : Nat) (tx : Tx), d.txs[n]? = some tx →
      ∃ tx', d'.txs[n]? = some tx' ∧ tx'.event = tx.event ∧ tx'.instr = tx.instr ∧
        (tx.status ≠ .sent → tx' = tx))
    (hpostings : ∀ i r, d.postings.lookup i = some r → d'.postings.lookup i = some r) :
    Later t d d' where
  newer := by
    rw [hrow]
    exact Newer.refl _
  row := by
    intro r hr
    exact ⟨r, hrow.trans hr, .refl _⟩
  created := hcreated
  gone := hgone
  spent := hspent
  txs := htxs
  postings := hpostings

theorem same_tx {n : Nat} {tx : Tx} (h : d.txs[n]? = some tx) :
    ∃ tx', d.txs[n]? = some tx' ∧ tx'.event = tx.event ∧ tx'.instr = tx.instr ∧
      (tx.status ≠ .sent → tx' = tx) := ⟨tx, h, rfl, rfl, fun _ => rfl⟩

theorem refl (d : Desk) : Later t d d :=
  of_row_eq rfl id (fun h => ⟨h, rfl⟩) id (fun _ _ h => same_tx h) fun _ _ h => h

theorem rowIs {P : Txn → Prop} (L : Later t d d') (hP : ∀ v v', Txn.Follows v v' → P v → P v')
    (h : d.RowIs P) : d'.RowIs P := by
  obtain ⟨r, hr, hv⟩ := h
  obtain ⟨r', hr', hf⟩ := L.row r hr
  exact ⟨r', hr', hP _ _ hf hv⟩

theorem present (L : Later t d d') : d.RowIs Txn.Present → d'.RowIs Txn.Present :=
  L.rowIs fun _ _ hf => hf.present

theorem absent (L : Later t d d') : d.RowIs Txn.Absent → d'.RowIs Txn.Absent :=
  L.rowIs fun _ _ hf => hf.absent

theorem notPending (L : Later t d d') :
    d.RowIs (fun v => v.state ≠ .pending) → d'.RowIs fun v => v.state ≠ .pending :=
  L.rowIs fun _ _ hf => hf.notPending

theorem isSome (L : Later t d d') (h : d.row.isSome) : d'.row.isSome := by
  obtain ⟨r, hr⟩ := Option.isSome_iff_exists.mp h
  obtain ⟨r', hr', -⟩ := L.row r hr
  rw [hr']
  rfl

theorem snapshot (L : Later t d d') {r : Row Txn} (h : Newer (some r) d.row) :
    Newer (some r) d'.row := h.trans L.newer

theorem sentFor (L : Later t d d') {n : Nat} {i : Hash} (h : d.SentFor n i) : d'.SentFor n i := by
  obtain ⟨tx, htx, he⟩ := h
  obtain ⟨tx', htx', he', -⟩ := L.txs n tx htx
  exact ⟨tx', htx', he'.trans he⟩

theorem refused (L : Later t d d') {i : Hash} (h : d.Refused i) : d'.Refused i := by
  obtain ⟨n, tx, e, htx, hev, hst, hne⟩ := h
  obtain ⟨tx', htx', -, -, hsame⟩ := L.txs n tx htx
  have hsent : tx.status ≠ .sent := by
    rw [hst]
    exact nofun
  rw [hsame hsent] at htx'
  exact ⟨n, tx, e, htx', hev, hst, hne⟩

theorem accounts (L : Later t d d') {v v' : Txn} {i : Hash} (hv : ∀ i ∈ v.unsent, i ∈ v'.unsent)
    (h : d.Accounts issuer v i) : d'.Accounts issuer v' i := by
  rcases h with h | h | h | h
  · obtain ⟨r, hr⟩ := Option.isSome_iff_exists.mp h
    refine .inl ?_
    rw [L.postings i r hr]
    rfl
  · exact .inr (.inl (L.refused h))
  · exact .inr (.inr (.inl (hv i h)))
  · exact .inr (.inr (.inr h))

theorem rowAccounts (L : Later t d d') {i : Hash} (h : d.RowIs fun v => d.Accounts issuer v i) :
    d'.RowIs fun v => d'.Accounts issuer v i := by
  obtain ⟨r, hr, hv⟩ := h
  obtain ⟨r', hr', hf⟩ := L.row r hr
  exact ⟨r', hr', L.accounts hf.unsent hv⟩

theorem reads (L : Later t d d') {present closed : Bool} {i : Hash}
    (h : d.Reads t Q present closed i) : d'.Reads t Q present closed i where
  ofPresent := fun hp => L.present (h.ofPresent hp)
  ofAbsent := fun hp => L.absent (h.ofAbsent hp)
  ofClosed := by
    intro hc
    obtain ⟨hg, hi⟩ := h.ofClosed hc
    obtain ⟨hg', hcaptured⟩ := L.gone hg
    rw [hcaptured]
    exact ⟨hg', hi⟩

theorem sends (L : Later t d d') {i : Hash} {instr : Instr} (h : d.Sends t Q issuer i instr) :
    d'.Sends t Q issuer i instr := by
  obtain ⟨e, present, closed, label, he, hr, hroute⟩ := h
  exact ⟨e, present, closed, label, he, L.reads hr, hroute⟩

theorem txOk (L : Later t d d') {tx : Tx} (h : d.TxOk t Q issuer tx) : d'.TxOk t Q issuer tx where
  sends := fun i hi => L.sends (h.sends i hi)
  own := h.own
  closes := fun hc => ⟨L.present (h.closes hc).1, fun hl => (L.gone ((h.closes hc).2 hl)).1⟩
  paid := h.paid

theorem rowOk (L : Later t d d') {v : Txn} (h : d.RowOk t issuer v) : d'.RowOk t issuer v where
  shape := h.shape
  created := fun hv => L.created (h.created hv)
  closed := fun hc => (L.gone (h.closed hc)).1
  applied := fun i hi => L.accounts (fun _ hj => hj) (h.applied i hi)
  pending := fun q hq => L.sentFor (h.pending q hq)

theorem decisionOk (L : Later t d d') {x : Decision} (h : x.Ok t d) : x.Ok t d' where
  held := fun hx => L.created (h.held hx)
  spent := fun h₁ h₂ => L.spent (h.spent h₁ h₂)
  notPending := h.notPending

theorem asaOk (L : Later t d d') {x : Asa} (h : x.Ok t d) : x.Ok t d' := by
  cases x with
  | start | observe => trivial
  | createPending => exact h
  | evaluate => exact ⟨L.isSome h.1, h.2⟩
  | verify => exact L.spent h
  | guardRead => exact L.spent h
  | watch req signature =>
    obtain ⟨tx, htx, hc⟩ := h
    obtain ⟨tx', htx', -, hi, -⟩ := L.txs _ _ htx
    exact ⟨tx', htx', hi ▸ hc⟩
  | persistRead x tries => exact L.decisionOk h
  | persistWrite x tries row => exact ⟨L.decisionOk h.1, L.snapshot h.2⟩
  | post => exact L.notPending h
  | done b => exact fun hb => L.notPending (h hb)

theorem trans {d'' : Desk} (L : Later t d d') (L' : Later t d' d'') : Later t d d'' where
  newer := L.newer.trans L'.newer
  row := by
    intro r hr
    obtain ⟨r₁, hr₁, h₁⟩ := L.row r hr
    obtain ⟨r₂, hr₂, h₂⟩ := L'.row r₁ hr₁
    exact ⟨r₂, hr₂, fun h => h₂.present (h₁.present h), fun h => h₂.absent (h₁.absent h),
      fun h => h₂.notPending (h₁.notPending h), fun h => h₂.decided (h₁.decided h), fun i hi => h₂.applied i (h₁.applied i hi),
      fun i hi => h₂.unsent i (h₁.unsent i hi)⟩
  created := fun h => L'.created (L.created h)
  gone := by
    intro h
    obtain ⟨h₁, e₁⟩ := L.gone h
    obtain ⟨h₂, e₂⟩ := L'.gone h₁
    exact ⟨h₂, e₂.trans e₁⟩
  spent := fun h => L'.spent (L.spent h)
  txs := by
    intro n tx htx
    obtain ⟨tx₁, htx₁, he₁, hi₁, hs₁⟩ := L.txs n tx htx
    obtain ⟨tx₂, htx₂, he₂, hi₂, hs₂⟩ := L'.txs n tx₁ htx₁
    refine ⟨tx₂, htx₂, he₂.trans he₁, hi₂.trans hi₁, ?_⟩
    intro hs
    cases hs₁ hs
    exact hs₂ hs
  postings := fun i r h => L'.postings i r (L.postings i r h)

end Later

end Desk

end Stability

/-! ## Writes -/

section Writes

variable {t : Token} {Q : Promise} {issuer : Issuer t} {d d' : Desk}

namespace Desk

/-- What is made does not depend on the row, the postings and the request. -/
theorem Later.of_chain (hchain : d'.chain = d.chain) (hhistory : d'.history = d.history)
    (htxs : d'.txs = d.txs) (hahead : d'.asa.isAhead = true → d.asa.isAhead = true)
    (hnewer : Newer d.row d'.row)
    (hrow : ∀ r, d.row = some r → ∃ r', d'.row = some r' ∧ r.value.Follows r'.value)
    (hpostings : ∀ i r, d.postings.lookup i = some r → d'.postings.lookup i = some r) :
    Later t d d' where
  newer := hnewer
  row := hrow
  created := by
    unfold Created
    rw [hhistory]
    exact id
  gone := by
    unfold Gone Created captured
    rw [hhistory, hchain]
    exact fun h => ⟨h, rfl⟩
  spent := by
    intro h
    refine ⟨?_, ?_, ?_⟩
    · have hc := h.created
      unfold Created at hc ⊢
      rw [hhistory]
      exact hc
    · by_contra hc
      have ha := hahead (Bool.not_eq_false _ ▸ hc)
      cases h.asa.symm.trans ha
    · rw [htxs]
      exact h.dead
  txs := by
    rw [htxs]
    exact fun n tx h => Later.same_tx h
  postings := hpostings

/-- A write of the row, the postings or the request's stage. -/
theorem Sound.edit (h : d.Sound t Q issuer) (L : Later t d d') (hchain : d'.chain = d.chain)
    (hhistory : d'.history = d.history) (htxs : d'.txs = d.txs)
    (hahead : d'.asa.isAhead = true → d.asa.isAhead = true)
    (hrow : ∀ r, d'.row = some r → d'.RowOk t issuer r.value) (hasa : d'.asa.Ok t d')
    (hpaired : Q.paired → d'.RowIs Txn.Absent → d'.Spent t ∨ d'.asa.isFirst = true) :
    d'.Sound t Q issuer := by
  have hcreated : d'.Created t ↔ d.Created t := by
    unfold Created
    rw [hhistory]
  have hcaptured : d'.captured t = d.captured t := by
    unfold Desk.captured
    rw [hhistory]
  refine ⟨?_, ?_, ?_, ?_, ?_, ?_, ?_, ?_, hrow, ?_, hasa, hpaired⟩
  · rw [hchain, hcreated, hcaptured]
    exact h.captured
  · rw [hcreated, hcaptured]
    exact h.uncaptured
  · rw [hhistory]
    exact fun instr hi i hid he => L.sends (h.history instr hi i hid he)
  · rw [htxs]
    exact fun tx htx => L.txOk (h.txs tx htx)
  · rw [htxs]
    exact h.unique
  · rw [hcreated, htxs]
    exact fun ha => h.ahead (hahead ha)
  · rw [hcreated, htxs]
    exact h.landed
  · rw [hcreated, htxs]
    exact fun hc => L.isSome (h.asked hc)
  · unfold Gone
    rw [hcreated, hchain, hcaptured]
    intro hg
    obtain ⟨hp, hi⟩ := h.gone hg
    refine ⟨L.present hp, fun hq i hmem => ?_⟩
    exact L.rowIs (fun _ _ hf => hf.applied i) (hi hq i hmem)

/-! ### The row -/

theorem write_cases {row : Row Txn} (hnewer : Newer (some row) d.row) (v : Txn) (now : Nat) :
    (d.row = some row ∧
        d.write v row now = ({ d with row := some ⟨row.rev + 1, v, now⟩ }, true)) ∨
      d.write v row now = (d, false) := by
  unfold write
  rcases cas_snapshot hnewer v now with ⟨hrow, hw⟩ | hc
  · exact .inl ⟨hrow, by rw [hw]⟩
  · exact .inr (by rw [hc])

/-- The stored row is replaced by one that follows it. -/
theorem Later.setRow {row : Row Txn} {v : Txn} (hrow : d.row = some row)
    (hf : row.value.Follows v) (now : Nat) :
    Later t d { d with row := some ⟨row.rev + 1, v, now⟩ } := by
  refine .of_chain rfl rfl rfl id ?_ ?_ fun _ _ h => h
  · rw [hrow]
    rintro r hr
    cases hr
    exact ⟨_, rfl, .inr (Nat.lt_succ_self row.rev)⟩
  · intro r hr
    cases hrow.symm.trans hr
    exact ⟨_, rfl, hf⟩

theorem Sound.setRow (h : d.Sound t Q issuer) {row : Row Txn} {v : Txn} (hrow : d.row = some row)
    (hf : row.value.Follows v) (now : Nat)
    (hv : { d with row := some ⟨row.rev + 1, v, now⟩ : Desk }.RowOk t issuer v)
    (hpaired : Q.paired → v.Absent → d.Spent t ∨ d.asa.isFirst = true) :
    { d with row := some ⟨row.rev + 1, v, now⟩ : Desk }.Sound t Q issuer := by
  have L : Later t d { d with row := some ⟨row.rev + 1, v, now⟩ } := .setRow hrow hf now
  refine h.edit L rfl rfl rfl id ?_ (L.asaOk h.asa) ?_
  · intro r hr
    cases hr
    exact hv
  · rintro hq ⟨r, hr, ha⟩
    cases hr
    rcases hpaired hq ha with hs | hs
    · exact .inl (L.spent hs)
    · exact .inr hs

/-- A row is created. -/
theorem Later.newRow {row : Row Txn} (hrow : d.row = none) :
    Later t d { d with row := some row } := by
  refine .of_chain rfl rfl rfl id ?_ ?_ fun _ _ h => h
  · rw [hrow]
    rintro r hr
    cases hr
  · intro r hr
    cases hrow.symm.trans hr

/-! ### Postings -/

theorem record_lookup (d : Desk) (i : Hash) (label : StepLabel) (amount : Nat) (a : Answer)
    {j : Hash} {r : Row Posting} (h : d.postings.lookup j = some r) :
    (d.record i label amount a).postings.lookup j = some r := by
  unfold record recordPosting
  split
  · exact h
  · split
    · exact h
    · simp only
      rcases put_create d.postings i _ a.now with ⟨hnone, hput⟩ | ⟨r', hr', hput⟩
      · rw [hput]
        have hne : j ≠ i := by
          rintro rfl
          cases h.symm.trans hnone
        rw [AList.lookup_insert_ne hne]
        exact h
      · rw [hput]
        exact h

/-- A posting of an amount is stored afterwards, by this call or an earlier one. -/
theorem record_stored (d : Desk) (i : Hash) {label : StepLabel} {amount : Nat} (a : Answer)
    {x : PostingKind × Option StepLabel} (hlabel : postingForLabel label = some x)
    (hpos : 0 < amount) : ((d.record i label amount a).postings.lookup i).isSome := by
  unfold record recordPosting
  rw [hlabel]
  simp only [if_neg (Nat.pos_iff_ne_zero.mp hpos)]
  rcases put_create d.postings i _ a.now with ⟨-, hput⟩ | ⟨r', hr', hput⟩
  · rw [hput, AList.lookup_insert]
    rfl
  · rw [hput, hr']
    rfl

theorem Later.record (d : Desk) (i : Hash) (label : StepLabel) (amount : Nat) (a : Answer) :
    Later t d (d.record i label amount a) :=
  .of_chain rfl rfl rfl id (Newer.refl _) (fun r hr => ⟨r, hr, .refl _⟩)
    fun _ _ h => d.record_lookup i label amount a h

theorem Sound.record (h : d.Sound t Q issuer) (i : Hash) (label : StepLabel) (amount : Nat)
    (a : Answer) : (d.record i label amount a).Sound t Q issuer := by
  have L : Later t d (d.record i label amount a) := .record d i label amount a
  refine h.edit L rfl rfl rfl id (fun r hr => L.rowOk (h.row r hr)) (L.asaOk h.asa) ?_
  rintro hq ⟨r, hr, ha⟩
  rcases h.paired hq ⟨r, hr, ha⟩ with hs | hs
  · exact .inl (L.spent hs)
  · exact .inr hs

/-! ### The request's stage -/

theorem Later.setAsa {x : Asa} (hahead : x.isAhead = true → d.asa.isAhead = true) :
    Later t d { d with asa := x } :=
  .of_chain rfl rfl rfl hahead (Newer.refl _) (fun r hr => ⟨r, hr, .refl _⟩) fun _ _ h => h

theorem Sound.setAsa (h : d.Sound t Q issuer) {x : Asa}
    (hahead : x.isAhead = true → d.asa.isAhead = true) (hx : x.Ok t { d with asa := x })
    (hpaired : Q.paired → d.RowIs Txn.Absent → d.asa.isFirst = true →
      { d with asa := x : Desk }.Spent t ∨ x.isFirst = true) :
    { d with asa := x : Desk }.Sound t Q issuer := by
  have L : Later t d { d with asa := x } := .setAsa hahead
  refine h.edit L rfl rfl rfl hahead (fun r hr => L.rowOk (h.row r hr)) hx ?_
  rintro hq ⟨r, hr, ha⟩
  rcases h.paired hq ⟨r, hr, ha⟩ with hs | hs
  · exact .inl (L.spent hs)
  · exact hpaired hq ⟨r, hr, ha⟩ hs

/-- A later stage of the request. -/
theorem Sound.setPast (h : d.Sound t Q issuer) {x : Asa} (hfirst : d.asa.isFirst = false)
    (hahead : x.isAhead = false) (hx : x.Ok t { d with asa := x }) :
    { d with asa := x : Desk }.Sound t Q issuer := by
  refine h.setAsa ?_ hx ?_
  · intro ha
    cases hahead.symm.trans ha
  · intro _ _ hf
    cases hfirst.symm.trans hf

/-! ### Sending -/

theorem submit_get {event : Option Hash} {instr : Instr} {n : Nat} {tx : Tx}
    (h : (d.submit event instr).txs[n]? = some tx) :
    d.txs[n]? = some tx ∨ n = d.txs.length ∧ tx = ⟨event, instr, .sent⟩ := by
  simp only [submit] at h
  rcases Nat.lt_trichotomy n d.txs.length with hn | hn | hn
  · rw [List.getElem?_append_left hn] at h
    exact .inl h
  · subst hn
    rw [List.getElem?_concat_length] at h
    exact .inr ⟨rfl, (Option.some.inj h).symm⟩
  · rw [List.getElem?_eq_none (by simp only [List.length_append, List.length_singleton]; omega)] at h
    cases h

theorem mem_submit {event : Option Hash} {instr : Instr} {tx : Tx}
    (h : tx ∈ (d.submit event instr).txs) : tx ∈ d.txs ∨ tx = ⟨event, instr, .sent⟩ := by
  simp only [submit, List.mem_append, List.mem_singleton] at h
  exact h

theorem submit_sent (d : Desk) (event : Option Hash) (instr : Instr) :
    (d.submit event instr).txs[d.txs.length]? = some ⟨event, instr, .sent⟩ :=
  List.getElem?_concat_length

theorem Later.submit (event : Option Hash) {instr : Instr}
    (hc : instr.creates = some t.authId → d.asa.isAhead = true) :
    Later t d (d.submit event instr) := by
  refine .of_row_eq rfl id (fun h => ⟨h, rfl⟩) ?_ ?_ fun _ _ h => h
  · intro h
    refine ⟨h.created, h.asa, ?_⟩
    intro tx htx hcreates
    rcases mem_submit htx with htx | rfl
    · exact h.dead tx htx hcreates
    · cases h.asa.symm.trans (hc hcreates)
  · intro n tx htx
    refine ⟨tx, ?_, rfl, rfl, fun _ => rfl⟩
    obtain ⟨hn, -⟩ := List.getElem?_eq_some_iff.mp htx
    simp only [Desk.submit]
    rw [List.getElem?_append_left hn]
    exact htx

/-- What the backend sends on its own. -/
theorem TxOk.of_own {instr : Instr} (hwipes : instr.wipes = false)
    (hcaptured : instr.capturedId t.authId = none)
    (hids : ∀ i, instr.moneyId = some i ∨ instr.recordedId = some i → issuer.event i = none)
    (hcloses : instr.closes = some t.authId → d.RowIs Txn.Present) :
    d.TxOk t Q issuer ⟨none, instr, .sent⟩ where
  sends := by
    intro i hi
    cases hi
  own := fun _ => ⟨hwipes, hcaptured, hids⟩
  closes := by
    intro hc
    refine ⟨hcloses hc, fun hs => ?_⟩
    cases hs
  paid := by
    intro i e hi
    cases hi

/-- What it sends for an event. -/
theorem TxOk.of_sends {i : Hash} {instr : Instr} (h : d.Sends t Q issuer i instr) :
    d.TxOk t Q issuer ⟨some i, instr, .sent⟩ where
  sends := by
    intro j hj
    cases hj
    exact h
  own := by
    intro hn
    cases hn
  closes := by
    obtain ⟨e, present, closed, label, -, -, hroute⟩ := h
    intro hc
    cases hroute.ids.2.2.2.2.1.symm.trans hc
  paid := by
    intro j e _ _ _ hs
    rcases hs with hs | ⟨err, hs, -⟩ <;> cases hs

/-- An instruction other than `authorize` is sent. -/
theorem Sound.submit (h : d.Sound t Q issuer) {event : Option Hash} {instr : Instr}
    (hc : instr.creates ≠ some t.authId) (htx : d.TxOk t Q issuer ⟨event, instr, .sent⟩) :
    (d.submit event instr).Sound t Q issuer := by
  have L : Later t d (d.submit event instr) := .submit event fun he => absurd he hc
  refine ⟨h.captured, h.uncaptured, ?_, ?_, ?_, ?_, ?_, ?_, ?_, ?_, L.asaOk h.asa, ?_⟩
  · exact fun i hi j hid he => L.sends (h.history i hi j hid he)
  · intro tx hmem
    rcases mem_submit hmem with hmem | rfl
    · exact L.txOk (h.txs tx hmem)
    · exact L.txOk htx
  · intro m n tx tx' hm hn hm' hn'
    rcases submit_get hm with hm | ⟨-, rfl⟩
    · rcases submit_get hn with hn | ⟨-, rfl⟩
      · exact h.unique m n tx tx' hm hn hm' hn'
      · exact absurd hn' hc
    · exact absurd hm' hc
  · intro ha
    refine ⟨(h.ahead ha).1, fun tx hmem => ?_⟩
    rcases mem_submit hmem with hmem | rfl
    · exact (h.ahead ha).2 tx hmem
    · exact hc
  · intro tx hmem hcreates
    rcases mem_submit hmem with hmem | rfl
    · exact h.landed tx hmem hcreates
    · exact absurd hcreates hc
  · rintro (hcreated | ⟨tx, hmem, hcreates⟩)
    · exact h.asked (.inl hcreated)
    · rcases mem_submit hmem with hmem | rfl
      · exact h.asked (.inr ⟨tx, hmem, hcreates⟩)
      · exact absurd hcreates hc
  · exact fun r hr => L.rowOk (h.row r hr)
  · exact h.gone
  · intro hq ha
    rcases h.paired hq ha with hs | hs
    · exact .inl (L.spent hs)
    · exact .inr hs

/-- The request sends `authorize`. -/
theorem Sound.authorize (h : d.Sound t Q issuer) {req : Request} (hasa : d.asa = .evaluate req) :
    { d.submit none (.authorize t.authorizer req.args) with
      asa := .watch req d.txs.length : Desk }.Sound t Q issuer ∧
    Later t d { d.submit none (.authorize t.authorizer req.args) with
      asa := .watch req d.txs.length } := by
  have hok := h.asa
  rw [hasa] at hok
  have hcreates : (Instr.authorize t.authorizer req.args).creates = some t.authId := by
    simp only [Instr.creates, hok.2]
  have hahead : d.asa.isAhead = true := by
    rw [hasa]
    rfl
  obtain ⟨hnot, hnone⟩ := h.ahead hahead
  have L₁ : Later t d (d.submit none (.authorize t.authorizer req.args)) :=
    .submit none fun _ => hahead
  have L : Later t d { d.submit none (.authorize t.authorizer req.args) with
      asa := .watch req d.txs.length } := by
    refine L₁.trans (.setAsa ?_)
    intro ha
    cases ha
  refine ⟨⟨h.captured, h.uncaptured, ?_, ?_, ?_, ?_, ?_, ?_, ?_, ?_, ?_, ?_⟩, L⟩
  · exact fun i hi j hid he => L.sends (h.history i hi j hid he)
  · intro tx hmem
    rcases mem_submit hmem with hmem | rfl
    · exact L.txOk (h.txs tx hmem)
    · refine .of_own rfl rfl ?_ ?_
      · rintro i (hi | hi) <;> cases hi
      · intro hc
        cases hc
  · intro m n tx tx' hm hn hm' hn'
    rcases submit_get hm with hm | ⟨rfl, -⟩
    · exact absurd hm' (hnone tx (List.mem_of_getElem? hm))
    · rcases submit_get hn with hn | ⟨rfl, -⟩
      · exact absurd hn' (hnone tx' (List.mem_of_getElem? hn))
      · rfl
  · intro ha
    cases ha
  · intro tx hmem hc
    rcases mem_submit hmem with hmem | rfl
    · exact absurd hc (hnone tx hmem)
    · constructor
      · intro hs
        cases hs
      · intro hcreated
        exact absurd hcreated hnot
  · exact fun _ => hok.1
  · exact fun r hr => L.rowOk (h.row r hr)
  · exact h.gone
  · exact ⟨_, d.submit_sent none _, hcreates⟩
  · intro hq ha
    rcases h.paired hq ha with hs | hs
    · exact .inl (L.spent hs)
    · rw [hasa] at hs
      cases hs

end Desk

end Writes

/-! ## The rollup -/

section Rollup

variable {t : Token} {Q : Promise} {issuer : Issuer t} {d d' : Desk}

namespace Desk

theorem created_append {instr : Instr} (hhistory : d'.history = d.history ++ [instr]) :
    d'.Created t ↔ d.Created t ∨ instr.creates = some t.authId := by
  unfold Created
  rw [hhistory]
  constructor
  · rintro ⟨i, hi, hc⟩
    rcases List.mem_append.mp hi with hi | hi
    · exact .inl ⟨i, hi, hc⟩
    · rw [List.mem_singleton] at hi
      exact .inr (hi ▸ hc)
  · rintro (⟨i, hi, hc⟩ | hc)
    · exact ⟨i, List.mem_append_left _ hi, hc⟩
    · exact ⟨instr, List.mem_append_right _ (List.mem_singleton_self instr), hc⟩

theorem captured_append {instr : Instr} (hhistory : d'.history = d.history ++ [instr]) :
    d'.captured t = d.captured t ++ (instr.capturedId t.authId).toList := by
  unfold captured
  rw [hhistory, List.filterMap_append]
  cases hc : instr.capturedId t.authId <;>
    simp only [List.filterMap_cons, hc, List.filterMap_nil, Option.toList]

/-- The program accepts an instruction: what becomes of the Reservation. -/
structure Accepted (t : Token) (d d' : Desk) (instr : Instr) : Prop where
  held : ∀ ids, d'.chain.capturedOn t.authId = some ids →
    d'.Created t ∧ ids = d'.captured t
  unheld : ¬ d'.Created t → d'.captured t = []
  gone : d.Gone t → d'.Gone t ∧ d'.captured t = d.captured t
  closed : d'.Gone t → d.Gone t ∨ instr.closes = some t.authId ∧ d'.captured t = d.captured t
  shut : instr.closes = some t.authId → d'.Gone t

theorem Sound.accepted (h : d.Sound t Q issuer) {instr : Instr}
    (hhistory : d'.history = d.history ++ [instr]) (hg : Guarded instr d.chain d'.chain)
    (hcreates : instr.creates = some t.authId → ¬ d.Created t) : Accepted t d d' instr := by
  have hcreated := created_append (t := t) hhistory
  have hcaptured := captured_append (t := t) hhistory
  have hstep := hg.holds t.authId
  have hkept : instr.capturedId t.authId = none → d'.captured t = d.captured t := by
    intro hc
    rw [hcaptured, hc, Option.toList_none, List.append_nil]
  generalize hbefore : d.chain.capturedOn t.authId = before at hstep
  generalize hafter : d'.chain.capturedOn t.authId = after at hstep
  cases hstep with
  | same hc hn hk =>
    have hiff : d'.Created t ↔ d.Created t := by
      rw [hcreated]
      exact or_iff_left hn
    refine ⟨?_, ?_, ?_, ?_, fun hc' => absurd hc' hk⟩
    · intro ids hids
      obtain ⟨hd, rfl⟩ := h.captured ids (hbefore.trans (hafter.symm.trans hids))
      exact ⟨hiff.mpr hd, (hkept hc).symm⟩
    · intro hd
      rw [hkept hc]
      exact h.uncaptured fun hd' => hd (hiff.mpr hd')
    · intro hd
      exact ⟨⟨hiff.mpr hd.1, hafter.trans (hbefore.symm.trans hd.2)⟩, hkept hc⟩
    · intro hd
      exact .inl ⟨hiff.mp hd.1, hbefore.trans (hafter.symm.trans hd.2)⟩
  | @captured ids i hc hnew =>
    obtain ⟨hd, rfl⟩ := h.captured ids hbefore
    have hd' : d'.Created t := hcreated.mpr (.inl hd)
    have hopen : instr.closes = none := by
      cases instr <;> first | rfl | cases hc
    refine ⟨?_, fun hn => absurd hd' hn, ?_, ?_, fun hk => by cases hopen.symm.trans hk⟩
    · intro ids' hids
      refine ⟨hd', ?_⟩
      rw [hcaptured, hc, Option.toList_some]
      exact (Option.some.inj (hafter.symm.trans hids)).symm
    · intro hg
      cases hbefore.symm.trans hg.2
    · intro hg
      cases hafter.symm.trans hg.2
  | created hc =>
    have hnot := hcreates hc
    have hd' : d'.Created t := hcreated.mpr (.inr hc)
    have hnone : instr.capturedId t.authId = none := by
      cases instr <;> first | rfl | cases hc
    have hopen : instr.closes = none := by
      cases instr <;> first | rfl | cases hc
    refine ⟨?_, fun hn => absurd hd' hn, fun hg => absurd hg.1 hnot, ?_,
      fun hk => by cases hopen.symm.trans hk⟩
    · intro ids hids
      refine ⟨hd', ?_⟩
      rw [hkept hnone, h.uncaptured hnot]
      exact (Option.some.inj (hafter.symm.trans hids)).symm
    · intro hg
      cases hafter.symm.trans hg.2
  | @closed ids hc =>
    obtain ⟨hd, -⟩ := h.captured ids hbefore
    have hd' : d'.Created t := hcreated.mpr (.inl hd)
    have hnone : instr.capturedId t.authId = none := by
      cases instr <;> first | rfl | cases hc
    refine ⟨?_, fun hn => absurd hd' hn, ?_, fun _ => .inr ⟨hc, hkept hnone⟩,
      fun _ => ⟨hd', hafter⟩⟩
    · intro ids' hids
      cases hafter.symm.trans hids
    · intro hg
      cases hbefore.symm.trans hg.2

/-- The transaction has a new status. -/
def settle (d : Desk) (n : Nat) (tx : Tx) (status : TxStatus) : Desk :=
  { d with txs := d.txs.set n { tx with status := status } }

theorem settle_get {n m : Nat} {tx tx' : Tx} {status : TxStatus}
    (h : (d.settle n tx status).txs[m]? = some tx') :
    m ≠ n ∧ d.txs[m]? = some tx' ∨ m = n ∧ tx' = { tx with status := status } := by
  simp only [settle, List.getElem?_set] at h
  split at h
  · rename_i hn
    split at h
    · exact .inr ⟨hn.symm, (Option.some.inj h).symm⟩
    · cases h
  · rename_i hn
    exact .inl ⟨fun hm => hn hm.symm, h⟩

theorem mem_settle {n : Nat} {tx tx' : Tx} {status : TxStatus}
    (h : tx' ∈ (d.settle n tx status).txs) :
    tx' ∈ d.txs ∨ tx' = { tx with status := status } := List.mem_or_eq_of_mem_set h

theorem settle_txs {n : Nat} {tx : Tx} {status : TxStatus} (hget : d.txs[n]? = some tx)
    (hsent : tx.status = .sent) (m : Nat) (tx₁ : Tx) (hm : d.txs[m]? = some tx₁) :
    ∃ tx', (d.settle n tx status).txs[m]? = some tx' ∧ tx'.event = tx₁.event ∧
      tx'.instr = tx₁.instr ∧ (tx₁.status ≠ .sent → tx' = tx₁) := by
  by_cases hmn : n = m
  · subst hmn
    cases hget.symm.trans hm
    obtain ⟨hn, -⟩ := List.getElem?_eq_some_iff.mp hget
    refine ⟨{ tx with status := status }, ?_, rfl, rfl, fun hs => absurd hsent hs⟩
    simp only [settle, List.getElem?_set_self hn]
  · refine ⟨tx₁, ?_, rfl, rfl, fun _ => rfl⟩
    simp only [settle, List.getElem?_set_ne hmn]
    exact hm

theorem settle_unique (h : d.Sound t Q issuer) {n : Nat} {tx : Tx} {status : TxStatus}
    (hget : d.txs[n]? = some tx) (m k : Nat) (tx₁ tx₂ : Tx)
    (hm : (d.settle n tx status).txs[m]? = some tx₁)
    (hk : (d.settle n tx status).txs[k]? = some tx₂)
    (h₁ : tx₁.instr.creates = some t.authId) (h₂ : tx₂.instr.creates = some t.authId) :
    m = k := by
  have hback : ∀ (m : Nat) (tx₁ : Tx), (d.settle n tx status).txs[m]? = some tx₁ →
      ∃ tx₀, d.txs[m]? = some tx₀ ∧ tx₀.instr = tx₁.instr := by
    intro m tx₁ hm
    rcases settle_get hm with ⟨-, hm⟩ | ⟨rfl, rfl⟩
    · exact ⟨tx₁, hm, rfl⟩
    · exact ⟨tx, hget, rfl⟩
  obtain ⟨tx₃, hm', h₃⟩ := hback m tx₁ hm
  obtain ⟨tx₄, hk', h₄⟩ := hback k tx₂ hk
  exact h.unique m k tx₃ tx₄ hm' hk' (h₃ ▸ h₁) (h₄ ▸ h₂)

theorem settle_creates {n : Nat} {tx : Tx} {status : TxStatus}
    (hget : d.txs[n]? = some tx)
    (hex : ∃ tx' ∈ (d.settle n tx status).txs, tx'.instr.creates = some t.authId) :
    ∃ tx' ∈ d.txs, tx'.instr.creates = some t.authId := by
  obtain ⟨tx', hmem, hc⟩ := hex
  rcases mem_settle hmem with hmem | rfl
  · exact ⟨tx', hmem, hc⟩
  · exact ⟨tx, List.mem_of_getElem? hget, hc⟩

/-- It will not land any more. -/
theorem Sound.kill (h : d.Sound t Q issuer) {n : Nat} {tx : Tx} {status : TxStatus}
    (hget : d.txs[n]? = some tx) (hsent : tx.status = .sent) (hdead : status.isDead = true)
    (hpaid : ∀ i e, tx.event = some i → issuer.event i = some e → e.bills = true →
      (∃ err, status = .refused err ∧ err.isRepeat = true) → 0 < eventAmount e) :
    (d.settle n tx status).Sound t Q issuer ∧ Later t d (d.settle n tx status) := by
  have htx := List.mem_of_getElem? hget
  have hlanded : status ≠ .landed := by
    rintro rfl
    cases hdead
  have L : Later t d (d.settle n tx status) := by
    refine .of_row_eq rfl id (fun hg => ⟨hg, rfl⟩) ?_ (settle_txs hget hsent) fun _ _ hp => hp
    intro hs
    refine ⟨hs.created, hs.asa, ?_⟩
    intro tx' hmem hc
    rcases mem_settle hmem with hmem | rfl
    · exact hs.dead tx' hmem hc
    · exact hdead
  refine ⟨⟨h.captured, h.uncaptured, ?_, ?_, settle_unique h hget, ?_, ?_, ?_, ?_, ?_,
    L.asaOk h.asa, ?_⟩, L⟩
  · exact fun i hi j hid he => L.sends (h.history i hi j hid he)
  · intro tx' hmem
    rcases mem_settle hmem with hmem | rfl
    · exact L.txOk (h.txs tx' hmem)
    · have hok := L.txOk (h.txs tx htx)
      refine ⟨hok.sends, hok.own, fun hc => ⟨(hok.closes hc).1, fun hs => absurd hs hlanded⟩, ?_⟩
      intro i e hi he hb hs
      rcases hs with hs | hs
      · exact absurd hs hlanded
      · exact hpaid i e hi he hb hs
  · intro ha
    refine ⟨(h.ahead ha).1, fun tx' hmem => ?_⟩
    rcases mem_settle hmem with hmem | rfl
    · exact (h.ahead ha).2 tx' hmem
    · exact (h.ahead ha).2 tx htx
  · intro tx' hmem hc
    rcases mem_settle hmem with hmem | rfl
    · exact h.landed tx' hmem hc
    · constructor
      · intro hs
        exact absurd hs hlanded
      · intro hcreated
        have hl := (h.landed tx htx hc).mpr hcreated
        cases hsent.symm.trans hl
  · rintro (hc | hex)
    · exact h.asked (.inl hc)
    · exact h.asked (.inr (settle_creates hget hex))
  · exact fun r hr => L.rowOk (h.row r hr)
  · exact h.gone
  · intro hq ha
    rcases h.paired hq ha with hs | hs
    · exact .inl (L.spent hs)
    · exact .inr hs

/-- An instruction is accepted: what is left to say of the transactions. -/
theorem Sound.accept (h : d.Sound t Q issuer) {instr : Instr} (A : Accepted t d d' instr)
    (L : Later t d d') (hrow : d'.row = d.row) (hasa : d'.asa = d.asa)
    (hhistory : d'.history = d.history ++ [instr])
    (hinstr : ∀ i, instr.moneyId = some i ∨ instr.recordedId = some i → (issuer.event i).isSome →
      d.Sends t Q issuer i instr)
    (hclose : instr.closes = some t.authId → d.RowIs Txn.Present ∧
      (Q.closes → ∀ i ∈ d.captured t, d.RowIs fun v => i ∈ v.appliedEventIds))
    (htxs : ∀ tx ∈ d'.txs, d'.TxOk t Q issuer tx)
    (hunique : ∀ (m n : Nat) (tx tx' : Tx), d'.txs[m]? = some tx → d'.txs[n]? = some tx' →
      tx.instr.creates = some t.authId → tx'.instr.creates = some t.authId → m = n)
    (hahead : d'.asa.isAhead = true →
      ¬ d'.Created t ∧ ∀ tx ∈ d'.txs, tx.instr.creates ≠ some t.authId)
    (hlanded : ∀ tx ∈ d'.txs, tx.instr.creates = some t.authId →
      (tx.status = .landed ↔ d'.Created t))
    (hasked : d'.Created t ∨ (∃ tx ∈ d'.txs, tx.instr.creates = some t.authId) → d.row.isSome) :
    d'.Sound t Q issuer := by
  have happlied : ∀ {i : Hash}, d.RowIs (fun v => i ∈ v.appliedEventIds) →
      d'.RowIs fun v => i ∈ v.appliedEventIds := L.rowIs fun _ _ hf => hf.applied _
  refine ⟨A.held, A.unheld, ?_, htxs, hunique, hahead, hlanded, ?_, ?_, ?_, ?_, ?_⟩
  · rw [hhistory]
    intro i hi j hid he
    rcases List.mem_append.mp hi with hi | hi
    · exact L.sends (h.history i hi j hid he)
    · cases List.mem_singleton.mp hi
      exact L.sends (hinstr j hid he)
  · rw [hrow]
    exact hasked
  · rw [hrow]
    exact fun r hr => L.rowOk (h.row r hr)
  · intro hg
    rcases A.closed hg with hd | ⟨hc, hcaptured⟩
    · obtain ⟨hp, hi⟩ := h.gone hd
      rw [(A.gone hd).2]
      exact ⟨L.present hp, fun hq i hmem => happlied (hi hq i hmem)⟩
    · obtain ⟨hp, hi⟩ := hclose hc
      rw [hcaptured]
      exact ⟨L.present hp, fun hq i hmem => happlied (hi hq i hmem)⟩
  · rw [hasa]
    exact L.asaOk h.asa
  · rw [hasa]
    intro hq ha
    have hd : d.RowIs Txn.Absent := by
      unfold RowIs
      rw [← hrow]
      exact ha
    rcases h.paired hq hd with hs | hs
    · exact .inl (L.spent hs)
    · exact .inr hs

theorem TxOk.wipes {tx : Tx} (h : d.TxOk t Q issuer tx) : tx.instr.wipes = false := by
  cases he : tx.event with
  | none => exact (h.own he).1
  | some i =>
    obtain ⟨e, present, closed, label, -, -, hroute⟩ := h.sends i he
    exact hroute.ids.2.2.2.2.2

variable [Runtime]

/-- The program saw an amount before it accepted an instruction or called it a
repetition. -/
theorem routed_paid {present closed : Bool} {e : IssuerEvent} {instr : Instr} {label : StepLabel}
    (h : Routed t present closed e instr label) (hb : e.bills = true) {s : State} {ctx : Ctx}
    (hx : (∃ s', exec s ⟨ctx, instr⟩ = .ok s') ∨
      ∃ err, exec s ⟨ctx, instr⟩ = .error err ∧ err.isRepeat = true) : 0 < eventAmount e := by
  have hexception : ∀ o kind, instr = exception t o kind e → 0 < eventAmount e := by
    rintro o kind rfl
    rcases hx with ⟨s', hx⟩ | ⟨err, hx, hr⟩
    · exact (recordException_guards hx).2
    · exact recordException_repeat hx hr
  cases h with
  | adjust hkind => simp only [IssuerEvent.bills, hkind, Bool.false_eq_true] at hb
  | overHold hkind => simp only [IssuerEvent.bills, hkind, Bool.false_eq_true] at hb
  | reverse hkind => simp only [IssuerEvent.bills, hkind, Bool.false_eq_true] at hb
  | expire hkind => simp only [IssuerEvent.bills, hkind, Bool.false_eq_true] at hb
  | refund =>
    rcases hx with ⟨s', hx⟩ | ⟨err, hx, hr⟩
    · exact (refund_guards hx).2
    · exact refund_repeat hx hr
  | capture =>
    rcases hx with ⟨s', hx⟩ | ⟨err, hx, hr⟩
    · exact (capture_guards hx).2.1
    · exact capture_repeat hx hr
  | unpaired | late | «over» | forced | returnReversal | correctionDebit | correctionCredit =>
    exact hexception _ _ rfl

/-- A sent transaction reaches the program. -/
theorem Sound.land (h : d.Sound t Q issuer) {n : Nat} {tx : Tx} {ctx : Ctx} {chain : State}
    (hget : d.txs[n]? = some tx) (hsent : tx.status = .sent)
    (hx : exec d.chain ⟨ctx, tx.instr⟩ = .ok chain)
    (hclose : Q.closes → tx.instr.closes = some t.authId →
      ∀ i ∈ d.captured t, d.RowIs fun v => i ∈ v.appliedEventIds) :
    { d.settle n tx .landed with chain := chain, history := d.history ++ [tx.instr] : Desk }.Sound t
        Q issuer ∧
      Later t d { d.settle n tx .landed with
        chain := chain, history := d.history ++ [tx.instr] } := by
  have htx := List.mem_of_getElem? hget
  have hok := h.txs tx htx
  have hg := exec_guards hx hok.wipes
  have hnot : tx.instr.creates = some t.authId → ¬ d.Created t := by
    intro hc hd
    cases hsent.symm.trans ((h.landed tx htx hc).mpr hd)
  generalize hd' : ({ d.settle n tx .landed with
    chain := chain, history := d.history ++ [tx.instr] } : Desk) = d'
  have hhistory : d'.history = d.history ++ [tx.instr] := by rw [← hd']
  have htxs : d'.txs = (d.settle n tx .landed).txs := by rw [← hd']
  have hrow : d'.row = d.row := by rw [← hd']; rfl
  have hasa : d'.asa = d.asa := by rw [← hd']; rfl
  have hpostings : d'.postings = d.postings := by rw [← hd']; rfl
  have hcreated := created_append (t := t) hhistory
  have A : Accepted t d d' tx.instr := by
    refine h.accepted hhistory ?_ hnot
    rw [← hd']
    exact hg
  have L : Later t d d' := by
    refine .of_row_eq hrow (fun hd => hcreated.mpr (.inl hd)) A.gone ?_ ?_ ?_
    · intro hs
      have hne : tx.instr.creates ≠ some t.authId := by
        intro hc
        have hdead := hs.dead tx htx hc
        rw [hsent] at hdead
        cases hdead
      refine ⟨?_, hasa ▸ hs.asa, ?_⟩
      · rw [hcreated]
        rintro (hd | hc)
        · exact hs.created hd
        · exact hne hc
      · rw [htxs]
        intro tx' hmem hc
        rcases mem_settle hmem with hmem | rfl
        · exact hs.dead tx' hmem hc
        · exact absurd hc hne
    · rw [htxs]
      exact settle_txs hget hsent
    · rw [hpostings]
      exact fun i r hr => hr
  refine ⟨h.accept A L hrow hasa hhistory ?_ ?_ ?_ ?_ ?_ ?_ ?_, L⟩
  · intro i hid he
    cases hev : tx.event with
    | none =>
      rw [(hok.own hev).2.2 i hid] at he
      cases he
    | some j =>
      have hsends := hok.sends j hev
      obtain ⟨e, present, closed, label, hj, -, hroute⟩ := hok.sends j hev
      have hij : i = j := by
        rw [← issuer.id_eq j e hj]
        rcases hid with hid | hid
        · exact hroute.ids.1 i hid
        · exact hroute.ids.2.1 i hid
      rw [hij]
      exact hsends
  · intro hc
    exact ⟨(hok.closes hc).1, fun hq => hclose hq hc⟩
  · rw [htxs]
    intro tx' hmem
    rcases mem_settle hmem with hmem | rfl
    · exact L.txOk (h.txs tx' hmem)
    · have hok' := L.txOk hok
      refine ⟨hok'.sends, hok'.own, ?_, ?_⟩
      · intro hc
        exact ⟨(hok'.closes hc).1, fun _ => A.shut hc⟩
      · intro i e hi he hb _
        obtain ⟨e', present, closed, label, hi', -, hroute⟩ := hok.sends i hi
        cases he.symm.trans hi'
        exact routed_paid hroute hb (.inl ⟨chain, hx⟩)
  · rw [htxs]
    exact settle_unique h hget
  · rw [hasa, hcreated, htxs]
    intro ha
    obtain ⟨hd, hnone⟩ := h.ahead ha
    have hne := hnone tx htx
    refine ⟨fun hc => hc.elim hd hne, fun tx' hmem => ?_⟩
    rcases mem_settle hmem with hmem | rfl
    · exact hnone tx' hmem
    · exact hne
  · rw [hcreated, htxs]
    intro tx' hmem hc
    obtain ⟨m, hm⟩ := List.mem_iff_getElem?.mp hmem
    rcases settle_get hm with ⟨hne, hm⟩ | ⟨-, rfl⟩
    · rw [h.landed tx' (List.mem_of_getElem? hm) hc]
      refine ⟨.inl, fun hor => hor.elim id fun hc' => ?_⟩
      exact absurd (h.unique m n tx' tx hm hget hc hc') hne
    · exact ⟨fun _ => .inr hc, fun _ => rfl⟩
  · rw [hcreated, htxs]
    rintro ((hd | hc) | hex)
    · exact h.asked (.inl hd)
    · exact h.asked (.inr ⟨tx, htx, hc⟩)
    · exact h.asked (.inr (settle_creates hget hex))

/-- Somebody else's instruction is accepted. -/
theorem Sound.other (h : d.Sound t Q issuer) {call : Call} {chain : State}
    (hf : issuer.isForeign call.instr = true) (hx : exec d.chain call = .ok chain) :
    { d with chain := chain, history := d.history ++ [call.instr] : Desk }.Sound t Q issuer ∧
      Later t d { d with chain := chain, history := d.history ++ [call.instr] } := by
  simp only [Issuer.isForeign, Bool.and_eq_true, Bool.not_eq_true', decide_eq_true_eq,
    Option.all_eq_true] at hf
  obtain ⟨⟨⟨⟨⟨hwipes, hmakes⟩, hcloses⟩, -⟩, hrecorded⟩, hmoney⟩ := hf
  generalize hd' : ({ d with chain := chain, history := d.history ++ [call.instr] } : Desk) = d'
  have hhistory : d'.history = d.history ++ [call.instr] := by rw [← hd']
  have htxs : d'.txs = d.txs := by rw [← hd']
  have hrow : d'.row = d.row := by rw [← hd']
  have hasa : d'.asa = d.asa := by rw [← hd']
  have hpostings : d'.postings = d.postings := by rw [← hd']
  have hcreated : d'.Created t ↔ d.Created t := by
    rw [created_append hhistory]
    exact or_iff_left hmakes
  have A : Accepted t d d' call.instr := by
    refine h.accepted hhistory ?_ fun hc => absurd hc hmakes
    rw [← hd']
    exact exec_guards hx hwipes
  have L : Later t d d' := by
    refine .of_row_eq hrow hcreated.mpr A.gone ?_ ?_ ?_
    · intro hs
      exact ⟨fun hd => hs.created (hcreated.mp hd), hasa ▸ hs.asa, htxs ▸ hs.dead⟩
    · rw [htxs]
      exact fun n tx hn => Later.same_tx hn
    · rw [hpostings]
      exact fun i r hr => hr
  refine ⟨h.accept A L hrow hasa hhistory ?_ ?_ ?_ ?_ ?_ ?_ ?_, L⟩
  · intro i hid he
    have hnone : (issuer.event i).isNone = true := by
      rcases hid with hid | hid
      · exact hmoney i hid
      · exact hrecorded i hid
    rw [Option.isNone_iff_eq_none.mp hnone] at he
    cases he
  · exact fun hc => absurd hc hcloses
  · rw [htxs]
    exact fun tx hmem => L.txOk (h.txs tx hmem)
  · rw [htxs]
    exact h.unique
  · rw [hasa, hcreated, htxs]
    exact h.ahead
  · rw [hcreated, htxs]
    exact h.landed
  · rw [hcreated, htxs]
    exact h.asked

end Desk

end Rollup

/-! ## The first state -/

section First

variable [Runtime] {t : Token} (Q : Promise) (issuer : Issuer t)

theorem Desk.sound_initial {chain : State} (hfresh : Fresh chain) :
    (TxnSystem.initial chain).store.Sound t Q issuer := by
  obtain ⟨binding, -, -, hnone, -⟩ := hfresh.eq
  have hcreated : ¬ (TxnSystem.initial chain).store.Created t := by
    rintro ⟨i, hi, -⟩
    cases hi
  have hheld : chain.capturedOn t.authId = none := by
    unfold State.capturedOn
    rw [hnone]
    rfl
  refine ⟨?_, fun _ => rfl, ?_, ?_, ?_, ?_, ?_, ?_, ?_, fun hg => absurd hg.1 hcreated, trivial, ?_⟩
  · intro ids hids
    cases hheld.symm.trans hids
  · intro i hi
    cases hi
  · intro tx htx
    cases htx
  · intro m n tx tx' hm
    cases hm
  · intro _
    refine ⟨hcreated, fun tx htx => ?_⟩
    cases htx
  · intro tx htx
    cases htx
  · rintro (hc | ⟨tx, htx, -⟩)
    · exact absurd hc hcreated
    · cases htx
  · intro r hr
    cases hr
  · rintro - ⟨r, hr, -⟩
    cases hr

end First

end ChainPay.Backend
