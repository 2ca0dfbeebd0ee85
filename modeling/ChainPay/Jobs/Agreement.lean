import ChainPay.Jobs.Stores
import Mathlib.Data.List.Find
import Mathlib.Data.List.TakeWhile

/-!
The three stores side by side. They hold the same jobs as long as every write is one that each can
hold, and a write over a stored job repeats its key, its time of creation and, if it has one, its
order (`Plain`). Under the same condition no order is forgotten.
-/

namespace ChainPay.Jobs
open ChainPay.Lib

/-! ## When the three agree -/

/-- A time that a timestamp column reads back. -/
def Columns.Holds (P : Columns) (ms : Nat) : Prop :=
  ms < 2 ^ 63 ∧ ∃ t, P.toTimestamp ms = some t ∧ P.toMillis t = ms

/-- The part of a key that names its owner. -/
def HasOwner (key : String) : Prop := ∃ owner, Convex.ownerOf key = some owner ∧ owner ≠ ""

/-- A proof that both JSON columns keep. -/
def KeptProof (P : Columns) (D : Deployment) (proof : Option Json) : Prop :=
  ∀ p, proof = some p → P.jsonb p = some p ∧ D.lossless p = p ∧ Convex.isNull p = false

/-- A record that every store takes as it is. -/
structure Held (P : Columns) (D : Deployment) (r : Job Nat) : Prop where
  id : r.x402PaymentId ≠ ""
  owner : HasOwner r.idempotencyKey
  reference : r.connectorReference ≠ some ""
  payment : r.paymentId ≠ some ""
  receipt : r.receiptAddress ≠ some ""
  texts : ∀ t ∈ r.texts, hasNul t = false
  created : P.Holds r.createdAt
  updated : P.Holds r.updatedAt
  challenge : P.jsonb r.challenge = some r.challenge ∧ D.lossless r.challenge = r.challenge
  proof : KeptProof P D r.proof
  fits : D.textFits r = true

/-- A write that goes on with a stored job. -/
structure Continues (D : Deployment) (old r : Job Nat) : Prop where
  key : r.idempotencyKey = old.idempotencyKey
  created : r.createdAt = old.createdAt
  order : old.connectorReference ≠ none →
    r.connectorReference = old.connectorReference ∧ r.connector = old.connector
  textFits : D.textFits (Memory.merge old r) = true
  documentFits : D.documentFits (Memory.merge old r) = true

/-- The stores drop the write: the job is past it, or newer. -/
def Dropped (old r : Job Nat) : Prop := old.terminal r.status = true ∨ r.updatedAt < old.updatedAt

/-- A write over what may be stored under its id. -/
def Follows (D : Deployment) (r : Job Nat) : Option (Job Nat) → Prop
  | none => D.documentFits r = true
  | some old => Dropped old r ∨ Continues D old r

/-- Evidence that each store can hold and reads the same way. -/
structure Evidence (P : Columns) (D : Deployment) (m : Memory) (r : Job Nat) : Prop where
  id : r.x402PaymentId ≠ ""
  idText : hasNul r.x402PaymentId = false
  error : ∀ t ∈ r.error, hasNul t = false
  updated : P.Holds r.updatedAt
  challenge : D.lossless r.challenge = r.challenge
  proof : KeptProof P D r.proof
  fits : D.textFits r = true
  status : ∀ old, m.job r.x402PaymentId = some old → old.refreshable = true →
    old.updatedAt ≤ r.updatedAt → r.status = .confirmed ∨ r.status = .verified
  reverses : Convex.reverses r.proof = Job.reverses r.proof
  refreshed : ∀ old, m.job r.x402PaymentId = some old →
    D.textFits (old.refresh (Job.reverses r.proof) r) = true

/-- The write is one that the stores take alike. -/
def Plain (P : Columns) (D : Deployment) (m : Memory) : Op → Prop
  | .putPayment _ => True
  | .putX402 r => Held P D r ∧ (∀ p ∈ r.paymentId, p ∈ m.payments) ∧
    Follows D r (m.job r.x402PaymentId)
  | .putCrossmintProof r => Evidence P D m r

/-- A store after a call; one that fails changes nothing. -/
def after {σ : Type} (s : σ) : Except Unit σ → σ
  | .ok s' => s'
  | .error _ => s

/-- The texts of a job that questions are asked with. -/
structure Sayable (j : Job Nat) : Prop where
  key : hasNul j.idempotencyKey = false
  reference : ∀ t ∈ j.connectorReference, t ≠ "" ∧ hasNul t = false

/-- What holds of the three stores along a plain run. -/
structure Mirrors {P : Columns} {D : Deployment} (m : Memory) (p : Postgres P) (c : Convex D) :
    Prop where
  paymentsP : p.payments = m.payments
  paymentsC : c.payments = m.payments
  rowsP : p.rows.map Postgres.fromRow = m.jobs
  rowsC : c.rows.map (·.record) = m.jobs
  stamps : ∀ r ∈ p.rows, P.toTimestamp (P.toMillis r.updatedAt) = some r.updatedAt
  fields : ∀ x ∈ c.rows, Convex.metadata x.record = .ok x.fields
  ids : (m.jobs.map (·.x402PaymentId)).Nodup
  keys : (m.jobs.map (·.idempotencyKey)).Nodup
  fits : ∀ j ∈ m.jobs, D.textFits j = true
  owners : ∀ j ∈ m.jobs, HasOwner j.idempotencyKey
  texts : ∀ j ∈ m.jobs, Sayable j

variable {P : Columns} {D : Deployment} {m : Memory} {p : Postgres P} {c : Convex D}

/-! ## Values that every store takes -/

theorem string_ok {t : String} (h : t ≠ "") : Convex.string t = .ok t := by
  rw [Convex.string, if_neg h]

theorem optional_ok {t : Option String} (h : t ≠ some "") : Convex.optional t = .ok t := by
  cases t with
  | none => rfl
  | some t =>
    have ht : t ≠ "" := fun heq => h (congrArg some heq)
    rw [Convex.optional, string_ok ht]
    rfl

theorem Held.sayable {r : Job Nat} (h : Held P D r) : Sayable r where
  key := h.texts _ (by simp [Job.texts])
  reference := by
    intro t ht
    refine ⟨?_, h.texts t ?_⟩
    · rintro rfl
      exact h.reference ht
    · rw [Option.mem_def] at ht
      simp [Job.texts, ht]

theorem HasOwner.ne {key : String} (h : HasOwner key) : key ≠ "" := by
  obtain ⟨owner, howner, -⟩ := h
  rintro rfl
  cases howner

/-- The index columns of a record. -/
def fieldsOf (r : Job Nat) : Fields where
  key := r.x402PaymentId
  updated := r.updatedAt
  idempotency := r.idempotencyKey
  owner := Convex.ownerOf r.idempotencyKey
  connector := r.connector
  reference := r.connectorReference

theorem string_eq {t u : String} (h : Convex.string t = .ok u) : u = t := by
  unfold Convex.string at h
  split at h
  · cases h
  · cases h
    rfl

theorem optional_eq {t u : Option String} (h : Convex.optional t = .ok u) : u = t := by
  cases t with
  | none =>
    cases h
    rfl
  | some t =>
    simp only [Convex.optional, bind, Except.bind] at h
    cases hs : Convex.string t with
    | error e =>
      rw [hs] at h
      cases h
    | ok u =>
      rw [hs] at h
      cases h
      rw [string_eq hs]

theorem metadata_eq {r : Job Nat} {f : Fields} (h : Convex.metadata r = .ok f) : f = fieldsOf r := by
  unfold Convex.metadata at h
  simp only [bind, Except.bind] at h
  cases hid : Convex.string r.x402PaymentId with
  | error e =>
    rw [hid] at h
    cases h
  | ok key =>
    cases hkey : Convex.string r.idempotencyKey with
    | error e =>
      rw [hid, hkey] at h
      cases h
    | ok idempotency =>
      cases hreceipt : Convex.optional r.receiptAddress with
      | error e =>
        rw [hid, hkey, hreceipt] at h
        cases h
      | ok receipt =>
        cases href : Convex.optional r.connectorReference with
        | error e =>
          rw [hid, hkey, hreceipt, href] at h
          cases h
        | ok reference =>
          rw [hid, hkey, hreceipt, href] at h
          cases h
          rw [fieldsOf, string_eq hid, string_eq hkey, optional_eq href]

theorem metadata_ok {r : Job Nat} (hid : r.x402PaymentId ≠ "") (hkey : r.idempotencyKey ≠ "")
    (hreceipt : r.receiptAddress ≠ some "") (href : r.connectorReference ≠ some "") :
    Convex.metadata r = .ok (fieldsOf r) := by
  unfold Convex.metadata
  rw [string_ok hid, string_ok hkey, optional_ok hreceipt, optional_ok href]
  rfl

theorem optionalJson_ok {proof : Option Json} (h : KeptProof P D proof) :
    Postgres.optionalJson (P := P) proof = .ok proof := by
  cases proof with
  | none => rfl
  | some v => simp only [Postgres.optionalJson, Postgres.json, (h v rfl).1, bind, Except.bind, pure,
      Except.pure]

theorem keptProof_filter {proof : Option Json} (h : KeptProof P D proof) :
    (proof.map D.lossless).filter (fun v => !Convex.isNull v) = proof := by
  cases proof with
  | none => rfl
  | some v =>
    obtain ⟨-, hlossless, hnull⟩ := h v rfl
    rw [Option.map_some, hlossless, Option.filter_some, hnull]
    rfl

theorem json_ok {r : Job Nat} (hfits : D.textFits r = true)
    (hchallenge : D.lossless r.challenge = r.challenge) (hproof : KeptProof P D r.proof) :
    Convex.json (D := D) r = .ok r := by
  rw [Convex.json, if_pos hfits, hchallenge, keptProof_filter hproof]

theorem mapM_text {ts : List String} (h : ∀ t ∈ ts, hasNul t = false) :
    ts.mapM Postgres.text = .ok ts := by
  induction ts with
  | nil => rfl
  | cons t ts ih =>
    have ht : Postgres.text t = .ok t := by
      rw [Postgres.text, h t List.mem_cons_self]
      rfl
    rw [List.mapM_cons, ht, ih fun u hu => h u (List.mem_cons_of_mem t hu)]
    rfl

/-- A column's value for a time. -/
theorem stamp_ok {ms : Nat} (h : P.Holds ms) :
    ∃ t, Postgres.stamp (P := P) ms = .ok t ∧ P.toTimestamp ms = some t ∧ P.toMillis t = ms := by
  obtain ⟨hms, t, ht, hback⟩ := h
  refine ⟨t, ?_, ht, hback⟩
  rw [Postgres.stamp, if_pos hms, ht]

/-- The row that is bound for a record reads back as the record. -/
theorem bind_ok {r : Job Nat} (h : Held P D r) :
    ∃ row, Postgres.bind (P := P) r = .ok row ∧ Postgres.fromRow row = r ∧
      P.toTimestamp r.updatedAt = some row.updatedAt := by
  obtain ⟨created, hcreated, -, hcreatedBack⟩ := stamp_ok h.created
  obtain ⟨updated, hupdated, hstamp, hupdatedBack⟩ := stamp_ok h.updated
  have hchallenge : Postgres.json (P := P) r.challenge = .ok r.challenge := by
    rw [Postgres.json, h.challenge.1]
  unfold Postgres.bind
  rw [mapM_text h.texts, hchallenge, optionalJson_ok h.proof, hcreated, hupdated]
  refine ⟨_, rfl, ?_, hstamp⟩
  dsimp only [Postgres.fromRow]
  rw [hcreatedBack, hupdatedBack]

/-- Columns compare as the times do. -/
theorem stamp_le {x y : P.Stamp} {b : Nat} (hx : P.toTimestamp (P.toMillis x) = some x)
    (hy : P.toTimestamp b = some y) (hback : P.toMillis y = b) :
    P.order.le x y ↔ P.toMillis x ≤ b := by
  constructor
  · intro hle
    have hmono := P.toMillis_mono hle
    rw [hback] at hmono
    exact hmono
  · intro hle
    exact P.toTimestamp_mono hx hy hle

/-! ## Lookups -/

namespace Mirrors

theorem jobP (h : Mirrors m p c) (id : String) : p.job id = m.job id := by
  rw [Memory.job, ← h.rowsP, List.find?_map]
  rfl

theorem field (h : Mirrors m p c) {x : Row} (hx : x ∈ c.rows) : x.fields = fieldsOf x.record :=
  metadata_eq (h.fields x hx)

theorem jobC (h : Mirrors m p c) (id : String) : c.job id = m.job id := by
  rw [Memory.job, ← h.rowsC, List.find?_map, Convex.job, Convex.row]
  congr 1
  refine List.find?_congr fun x hx => ?_
  rw [h.field hx]
  rfl

theorem mem_rowP (h : Mirrors m p c) {r : Job P.Stamp} (hr : r ∈ p.rows) :
    Postgres.fromRow r ∈ m.jobs := by
  rw [← h.rowsP]
  exact List.mem_map_of_mem hr

theorem mem_rowC (h : Mirrors m p c) {x : Row} (hx : x ∈ c.rows) : x.record ∈ m.jobs := by
  rw [← h.rowsC]
  exact List.mem_map_of_mem hx

/-- A stored job is found by its id in the other two. -/
theorem rows_some (h : Mirrors m p c) {id : String} {old : Job Nat} (hold : m.job id = some old) :
    (∃ row, p.row id = some row ∧ Postgres.fromRow row = old) ∧
      ∃ x, c.row id = some x ∧ x.record = old := by
  have hp := h.jobP id
  have hc := h.jobC id
  rw [hold] at hp hc
  exact ⟨Option.map_eq_some_iff.mp hp, Option.map_eq_some_iff.mp hc⟩

theorem rows_none (h : Mirrors m p c) {id : String} (hnone : m.job id = none) :
    p.row id = none ∧ c.row id = none := by
  have hp := h.jobP id
  have hc := h.jobC id
  rw [hnone] at hp hc
  exact ⟨Option.map_eq_none_iff.mp hp, Option.map_eq_none_iff.mp hc⟩

theorem idsP (h : Mirrors m p c) : (p.rows.map (·.x402PaymentId)).Nodup := by
  have hids := h.ids
  rw [← h.rowsP, List.map_map] at hids
  exact hids

theorem idsC (h : Mirrors m p c) : (c.rows.map (·.fields.key)).Nodup := by
  have hids := h.ids
  rw [← h.rowsC, List.map_map] at hids
  have hsame : c.rows.map (·.fields.key) = c.rows.map ((·.x402PaymentId) ∘ (·.record)) := by
    refine List.map_congr_left fun x hx => ?_
    rw [h.field hx]
    rfl
  rw [hsame]
  exact hids

end Mirrors

theorem Memory.job_mem {id : String} {old : Job Nat} (h : m.job id = some old) :
    old ∈ m.jobs ∧ old.x402PaymentId = id := by
  obtain ⟨hmem, hid⟩ := find?_spec h
  exact ⟨hmem, of_decide_eq_true hid⟩

theorem Memory.job_none {id : String} (h : m.job id = none) {j : Job Nat} (hj : j ∈ m.jobs) :
    j.x402PaymentId ≠ id := by
  intro heq
  exact List.find?_eq_none.mp h j hj (decide_eq_true heq)

/-! ## Writes -/

/-- The payment that a held record names is there for every store. -/
theorem linked_ok (h : Mirrors m p c) {r : Job Nat} (hpayment : r.paymentId ≠ some "")
    (hlink : ∀ id ∈ r.paymentId, id ∈ m.payments) :
    Convex.checkLink c.payments r.paymentId = .ok () ∧
      ∀ row : Job P.Stamp, row.paymentId = r.paymentId → p.linked row = true := by
  constructor
  · cases hid : r.paymentId with
    | none => rfl
    | some id =>
      have hne : id ≠ "" := fun heq => hpayment (by rw [hid, heq])
      have hmem : id ∈ c.payments := by
        rw [h.paymentsC]
        exact hlink id (by rw [hid, Option.mem_def])
      simp only [Convex.checkLink, string_ok hne, bind, Except.bind, if_pos hmem]
  · intro row hrow
    rw [Postgres.linked, hrow, h.paymentsP]
    cases hid : r.paymentId with
    | none => rfl
    | some id => exact decide_eq_true (hlink id (by rw [hid, Option.mem_def]))

/-- A job that is added to every store. -/
theorem Mirrors.append (h : Mirrors m p c) {r : Job Nat} {row : Job P.Stamp}
    (hback : Postgres.fromRow row = r)
    (hstamp : P.toTimestamp (P.toMillis row.updatedAt) = some row.updatedAt)
    (hmeta : Convex.metadata r = .ok (fieldsOf r))
    (hfree : ∀ j ∈ m.jobs, j.x402PaymentId ≠ r.x402PaymentId ∧
      j.idempotencyKey ≠ r.idempotencyKey)
    (hfits : D.textFits r = true) (howner : HasOwner r.idempotencyKey) (htexts : Sayable r) :
    Mirrors ⟨m.payments, m.jobs ++ [r]⟩ ⟨p.payments, p.rows ++ [row]⟩
      (⟨c.payments, c.rows ++ [⟨r, fieldsOf r⟩]⟩ : Convex D) where
  paymentsP := h.paymentsP
  paymentsC := h.paymentsC
  rowsP := by rw [List.map_append, h.rowsP, List.map_singleton, hback]
  rowsC := by rw [List.map_append, h.rowsC, List.map_singleton]
  stamps := List.forall_mem_append.mpr ⟨h.stamps, List.forall_mem_singleton.mpr hstamp⟩
  fields := List.forall_mem_append.mpr ⟨h.fields, List.forall_mem_singleton.mpr hmeta⟩
  ids := by
    rw [List.map_append]
    refine List.nodup_append.mpr ⟨h.ids, List.nodup_singleton _, fun a ha b hb hab => ?_⟩
    obtain ⟨j, hj, rfl⟩ := List.mem_map.mp ha
    exact (hfree j hj).1 (hab.trans (List.mem_singleton.mp hb))
  keys := by
    rw [List.map_append]
    refine List.nodup_append.mpr ⟨h.keys, List.nodup_singleton _, fun a ha b hb hab => ?_⟩
    obtain ⟨j, hj, rfl⟩ := List.mem_map.mp ha
    exact (hfree j hj).2 (hab.trans (List.mem_singleton.mp hb))
  fits := List.forall_mem_append.mpr ⟨h.fits, List.forall_mem_singleton.mpr hfits⟩
  owners := List.forall_mem_append.mpr ⟨h.owners, List.forall_mem_singleton.mpr howner⟩
  texts := List.forall_mem_append.mpr ⟨h.texts, List.forall_mem_singleton.mpr htexts⟩

/-- A job that is rewritten in every store. -/
theorem Mirrors.rewrite (h : Mirrors m p c) {old new : Job Nat} {row : Job P.Stamp}
    (hold : old ∈ m.jobs) (hid : new.x402PaymentId = old.x402PaymentId)
    (hkey : new.idempotencyKey = old.idempotencyKey) (hback : Postgres.fromRow row = new)
    (hstamp : P.toTimestamp (P.toMillis row.updatedAt) = some row.updatedAt)
    (hmeta : Convex.metadata new = .ok (fieldsOf new)) (hfits : D.textFits new = true)
    (htexts : Sayable new) :
    Mirrors
      ⟨m.payments, updateWhere (fun x => x.x402PaymentId = old.x402PaymentId) (fun _ => new) m.jobs⟩
      ⟨p.payments, updateWhere (fun x => x.x402PaymentId = old.x402PaymentId) (fun _ => row) p.rows⟩
      (⟨c.payments, updateWhere (fun x => x.fields.key = old.x402PaymentId)
        (fun _ => ⟨new, fieldsOf new⟩) c.rows⟩ : Convex D) where
  paymentsP := h.paymentsP
  paymentsC := h.paymentsC
  rowsP := by
    dsimp only
    rw [← h.rowsP]
    exact map_updateWhere_of (fun r _ => rfl) fun _ _ _ => hback
  rowsC := by
    dsimp only
    rw [← h.rowsC]
    refine map_updateWhere_of (fun x hx => ?_) fun _ _ _ => rfl
    rw [h.field hx]
    rfl
  stamps := forall_updateWhere h.stamps fun _ _ _ => hstamp
  fields := forall_updateWhere h.fields fun _ _ _ => hmeta
  ids := by
    have hsame : (updateWhere (fun x => x.x402PaymentId = old.x402PaymentId) (fun _ => new)
        m.jobs).map (·.x402PaymentId) = m.jobs.map (·.x402PaymentId) := by
      rw [updateWhere, List.map_map]
      refine List.map_congr_left fun x _ => ?_
      rw [Function.comp_apply]
      by_cases hx : x.x402PaymentId = old.x402PaymentId
      · rw [if_pos (decide_eq_true hx), hid, hx]
      · rw [if_neg (by simpa using hx)]
    dsimp only
    rw [hsame]
    exact h.ids
  keys := by
    have hsame : (updateWhere (fun x => x.x402PaymentId = old.x402PaymentId) (fun _ => new)
        m.jobs).map (·.idempotencyKey) = m.jobs.map (·.idempotencyKey) := by
      rw [updateWhere, List.map_map]
      refine List.map_congr_left fun x hmem => ?_
      rw [Function.comp_apply]
      by_cases hx : x.x402PaymentId = old.x402PaymentId
      · rw [if_pos (decide_eq_true hx), hkey, eq_of_key h.ids hmem hold hx]
      · rw [if_neg (by simpa using hx)]
    dsimp only
    rw [hsame]
    exact h.keys
  fits := forall_updateWhere h.fits fun _ _ _ => hfits
  owners := forall_updateWhere h.owners fun _ _ _ => by
    rw [hkey]
    exact h.owners old hold
  texts := forall_updateWhere h.texts fun _ _ _ => htexts

/-- **A new job.** It is stored by all, or its key is taken and none stores it. -/
theorem put_new (h : Mirrors m p c) {r : Job Nat} (hheld : Held P D r)
    (hlink : ∀ id ∈ r.paymentId, id ∈ m.payments) (hnone : m.job r.x402PaymentId = none)
    (hdocument : D.documentFits r = true) :
    Mirrors (after m (m.putX402 r)) (after p (p.putX402 r)) (after c (c.putX402 r)) := by
  obtain ⟨row, hbind, hback, hstamp⟩ := bind_ok hheld
  have hid : row.x402PaymentId = r.x402PaymentId := congrArg (·.x402PaymentId) hback
  have hkey : row.idempotencyKey = r.idempotencyKey := congrArg (·.idempotencyKey) hback
  obtain ⟨hrowP, hrowC⟩ := h.rows_none hnone
  obtain ⟨hlinkC, hlinkP⟩ := linked_ok h hheld.payment hlink
  have hlinkP := hlinkP row (congrArg (·.paymentId) hback)
  have hjson := json_ok hheld.fits hheld.challenge.2 hheld.proof
  have hmeta := metadata_ok hheld.id hheld.owner.ne hheld.receipt hheld.reference
  have hfree : ∀ j ∈ m.jobs, j.x402PaymentId ≠ r.x402PaymentId := fun j => Memory.job_none hnone
  -- the three tests for a taken key are one
  have htakenM : (m.jobs.any fun old => old.idempotencyKey = r.idempotencyKey &&
      old.x402PaymentId ≠ r.x402PaymentId) = m.jobs.any fun old =>
        old.idempotencyKey = r.idempotencyKey := by
    refine any_congr_mem fun j hj => ?_
    rw [decide_eq_true (hfree j hj), Bool.and_true]
  have htakenP : (p.rows.any fun old => old.idempotencyKey = row.idempotencyKey) =
      m.jobs.any fun old => old.idempotencyKey = r.idempotencyKey := by
    rw [← h.rowsP, List.any_map, hkey]
    rfl
  have htakenC : (c.rows.any fun x => x.fields.idempotency = (fieldsOf r).idempotency &&
      !((none : Option Row).any fun o => o.fields.key = x.fields.key)) =
      m.jobs.any fun old => old.idempotencyKey = r.idempotencyKey := by
    rw [← h.rowsC, List.any_map]
    refine any_congr_mem fun x hx => ?_
    rw [h.field hx, Option.any_none, Bool.not_false, Bool.and_true]
    rfl
  unfold Memory.putX402 Postgres.putX402 Convex.putX402 Convex.finish
  simp only [hbind, hjson, hmeta, bind, Except.bind, hid, hnone, hrowP, hlinkC, hlinkP, htakenM,
    htakenP, htakenC, hdocument]
  have hrowC : c.row (fieldsOf r).key = none := hrowC
  rw [hrowC]
  by_cases htaken : (m.jobs.any fun old => old.idempotencyKey = r.idempotencyKey) = true
  · rw [if_pos htaken, if_pos htaken]
    dsimp only
    rw [if_pos htaken]
    exact h
  · rw [if_neg htaken, if_neg htaken, if_pos trivial]
    dsimp only
    rw [if_neg htaken, if_neg (by decide)]
    refine h.append hback ?_ hmeta (fun j hj => ⟨hfree j hj, fun hkey => htaken ?_⟩) hheld.fits
      hheld.owner hheld.sayable
    · rw [← hback] at hstamp
      exact hstamp
    · exact List.any_eq_true.mpr ⟨j, hj, decide_eq_true hkey⟩

theorem orElse_none {α : Type} (a b : Option α) : (a <|> b) = if a.isNone then b else a := by
  cases a with
  | none => rfl
  | some a => rfl

/-- What PostgreSQL's update reads back as. -/
theorem fromRow_merge (x y : Job P.Stamp) : Postgres.fromRow (Postgres.merge x y) =
    { Postgres.fromRow y with
      idempotencyKey := (Postgres.fromRow x).idempotencyKey
      connectorReference := (Postgres.fromRow y).connectorReference <|>
        (Postgres.fromRow x).connectorReference
      proof := (Postgres.fromRow y).proof <|> (Postgres.fromRow x).proof
      responseStatus := (Postgres.fromRow y).responseStatus <|> (Postgres.fromRow x).responseStatus
      createdAt := (Postgres.fromRow x).createdAt } :=
  rfl

theorem merge_eq {old r : Job Nat} (h : Continues D old r) :
    ({ r with
      idempotencyKey := old.idempotencyKey
      connectorReference := r.connectorReference <|> old.connectorReference
      proof := r.proof <|> old.proof
      responseStatus := r.responseStatus <|> old.responseStatus
      createdAt := old.createdAt } : Job Nat) = Memory.merge old r := by
  have hreference : (r.connectorReference <|> old.connectorReference) = r.connectorReference := by
    cases hold : old.connectorReference with
    | none =>
      cases r.connectorReference with
      | none => rfl
      | some t => rfl
    | some t =>
      have hsome : old.connectorReference ≠ none := by
        rw [hold]
        exact Option.some_ne_none t
      rw [(h.order hsome).1, hold]
      rfl
  unfold Memory.merge
  rw [← h.key, ← h.created, hreference, orElse_none, orElse_none]

/-- **A write over a stored job.** -/
theorem put_old (h : Mirrors m p c) {r old : Job Nat} (hheld : Held P D r)
    (hlink : ∀ id ∈ r.paymentId, id ∈ m.payments) (hold : m.job r.x402PaymentId = some old)
    (hfollows : Dropped old r ∨ Continues D old r) :
    Mirrors (after m (m.putX402 r)) (after p (p.putX402 r)) (after c (c.putX402 r)) := by
  obtain ⟨row, hbind, hback, hstamp⟩ := bind_ok hheld
  obtain ⟨⟨oldP, hrowP, hbackP⟩, ⟨oldC, hrowC, hbackC⟩⟩ := h.rows_some hold
  obtain ⟨hmem, hid⟩ := Memory.job_mem hold
  have hmemP : oldP ∈ p.rows := (find?_spec hrowP).1
  have hmemC : oldC ∈ c.rows := (find?_spec hrowC).1
  have hidOld : oldP.x402PaymentId = old.x402PaymentId := congrArg (·.x402PaymentId) hbackP
  have hidP : row.x402PaymentId = r.x402PaymentId := congrArg (·.x402PaymentId) hback
  have hjson := json_ok hheld.fits hheld.challenge.2 hheld.proof
  have hmeta := metadata_ok hheld.id hheld.owner.ne hheld.receipt hheld.reference
  have hstored : Convex.stored (D := D) oldC.record = .ok old := by
    rw [Convex.stored, hbackC, if_pos (h.fits old hmem)]
  have hfieldC : oldC.fields = fieldsOf old := by
    rw [h.field hmemC, hbackC]
  have hterminalP : oldP.terminal row.status = old.terminal r.status := by
    rw [← hbackP, ← hback]
    rfl
  have holder : P.order.le oldP.updatedAt row.updatedAt ↔ old.updatedAt ≤ r.updatedAt := by
    have hrow : P.toMillis row.updatedAt = r.updatedAt := congrArg (·.updatedAt) hback
    rw [stamp_le (h.stamps oldP hmemP) hstamp hrow, ← hbackP]
    rfl
  have hrowC : c.row (fieldsOf r).key = some oldC := hrowC
  have hdrop : (old.terminal r.status || decide (r.updatedAt < old.updatedAt)) = true ↔
      Dropped old r := by
    simp [Dropped]
  have hdropC : (old.terminal r.status || decide ((fieldsOf r).updated < (fieldsOf old).updated)) =
      true ↔ Dropped old r := hdrop
  by_cases hdropped : Dropped old r
  · have hm : after m (m.putX402 r) = m := by
      unfold Memory.putX402
      split
      · rfl
      · rw [hold]
        dsimp only
        rw [if_pos (hdrop.mpr hdropped)]
        rfl
    have hp : p.putX402 r = .ok p := by
      unfold Postgres.putX402
      simp only [hbind, bind, Except.bind, hidP, hrowP]
      rw [if_neg]
      rw [hterminalP, Bool.and_eq_true, Bool.not_eq_true', decide_eq_true_iff, holder]
      rintro ⟨hopen, hle⟩
      rcases hdropped with hterminal | hlt
      · rw [hopen] at hterminal
        cases hterminal
      · omega
    have hc : c.putX402 r = .ok c := by
      unfold Convex.putX402
      simp only [hjson, hmeta, bind, Except.bind, hrowC, hstored, hfieldC]
      rw [if_pos (hdropC.mpr hdropped)]
      rfl
    rw [hm, hp, hc]
    exact h
  · have hcont := hfollows.resolve_left hdropped
    have hopen := mt hdrop.mp hdropped
    have hm : m.putX402 r = .ok ⟨m.payments, updateWhere
        (fun x => x.x402PaymentId = old.x402PaymentId) (fun _ => Memory.merge old r) m.jobs⟩ := by
      unfold Memory.putX402
      rw [if_neg, hold]
      · dsimp only
        rw [if_neg hopen, hid]
      · intro hany
        obtain ⟨j, hj, hj'⟩ := List.any_eq_true.mp hany
        obtain ⟨hkey, hne⟩ := Bool.and_eq_true_iff.mp hj'
        have hsame := eq_of_key h.keys hj hmem ((of_decide_eq_true hkey).trans hcont.key)
        rw [hsame] at hne
        exact of_decide_eq_true hne hid
    obtain ⟨hlinkC, hlinkP⟩ := linked_ok h hheld.payment hlink
    have hlinkP := hlinkP row (congrArg (·.paymentId) hback)
    have hp : p.putX402 r = .ok ⟨p.payments, updateWhere
        (fun x => x.x402PaymentId = old.x402PaymentId) (fun _ => Postgres.merge oldP row)
        p.rows⟩ := by
      unfold Postgres.putX402
      simp only [hbind, bind, Except.bind, hidP, hrowP]
      rw [if_pos, if_pos hlinkP, ← hid]
      · have hone := updateWhere_key (q := fun _ => true) (f := fun x => Postgres.merge x row)
          h.idsP hmemP
        simpa [hidOld] using hone
      · rw [hterminalP, Bool.and_eq_true, Bool.not_eq_true', decide_eq_true_iff, holder]
        exact ⟨Bool.eq_false_iff.mpr fun ht => hdropped (.inl ht),
          Nat.le_of_not_lt fun hlt => hdropped (.inr hlt)⟩
    have hmergeC : Convex.merge old r = Memory.merge old r := by
      unfold Convex.merge Memory.merge
      rw [← hcont.key, ← hcont.created, orElse_none, orElse_none]
    have hlinkM : Convex.checkLink c.payments (Memory.merge old r).paymentId = .ok () := hlinkC
    have hmerged : Convex.metadata (Memory.merge old r) = .ok (fieldsOf (Memory.merge old r)) :=
      metadata_ok hheld.id hheld.owner.ne hheld.receipt hheld.reference
    have hc : c.putX402 r = .ok ⟨c.payments, updateWhere
        (fun x => x.fields.key = old.x402PaymentId)
        (fun _ => ⟨Memory.merge old r, fieldsOf (Memory.merge old r)⟩) c.rows⟩ := by
      unfold Convex.putX402
      simp only [hjson, hmeta, bind, Except.bind, hrowC, hstored, hfieldC]
      rw [if_neg (mt hdropC.mp hdropped), hmergeC]
      unfold Convex.finish
      simp only [hmerged, bind, Except.bind, hlinkM, hcont.documentFits]
      rw [if_neg, if_neg (by decide), hfieldC]
      · rfl
      · intro hany
        obtain ⟨x, hx, hmatch⟩ := List.any_eq_true.mp hany
        obtain ⟨hkey, hne⟩ := Bool.and_eq_true_iff.mp hmatch
        rw [h.field hx] at hkey hne
        have hkey : x.record.idempotencyKey = old.idempotencyKey :=
          (of_decide_eq_true hkey).trans hcont.key
        rw [eq_of_key h.keys (h.mem_rowC hx) hmem hkey, Option.any_some, hfieldC] at hne
        simp at hne
    rw [hm, hp, hc]
    refine h.rewrite hmem hid.symm hcont.key ?_ ?_ hmerged hcont.textFits
      ⟨hheld.sayable.key, hheld.sayable.reference⟩
    · rw [fromRow_merge, hback, hbackP]
      exact merge_eq hcont
    · have hrow : P.toMillis row.updatedAt = r.updatedAt := congrArg (·.updatedAt) hback
      rw [← hrow] at hstamp
      exact hstamp

/-! ## Evidence -/

/-- What PostgreSQL makes of a row. -/
def refreshRow (r : Job Nat) (t : P.Stamp) (old : Job P.Stamp) : Job P.Stamp :=
  { old with
    proof := r.proof
    updatedAt := t
    responseStatus := r.responseStatus
    error := r.error
    status := if old.status = .verified && !(Job.reverses r.proof) then old.status else r.status }

theorem fromRow_refreshRow {r : Job Nat} {t : P.Stamp} (ht : P.toMillis t = r.updatedAt)
    (old : Job P.Stamp) :
    Postgres.fromRow (refreshRow r t old) =
      (Postgres.fromRow old).refresh (Job.reverses r.proof) r := by
  have hstatus : (if old.status = .verified && !(Job.reverses r.proof) then old.status
      else r.status) =
      if old.status ≠ .verified || Job.reverses r.proof then r.status else old.status := by
    cases Job.reverses r.proof <;> by_cases hv : old.status = .verified <;> simp [hv]
  unfold refreshRow Job.refresh Postgres.fromRow
  dsimp only
  rw [hstatus, ht]

theorem evidence_ok {r : Job Nat} (hev : Evidence P D m r) : ∃ t,
    P.toTimestamp r.updatedAt = some t ∧ P.toMillis t = r.updatedAt ∧
    ∀ p : Postgres P, p.putCrossmintProof r = .ok ⟨p.payments, updateWhere
      (fun old => old.x402PaymentId = r.x402PaymentId && (old.refreshable &&
        letI := P.order; decide (old.updatedAt ≤ t))) (refreshRow r t) p.rows⟩ := by
  obtain ⟨t, hstamp, ht, hback⟩ := stamp_ok hev.updated
  have hid : Postgres.text r.x402PaymentId = .ok r.x402PaymentId := by
    rw [Postgres.text, hev.idText]
    rfl
  have herror : r.error.toList.mapM Postgres.text = .ok r.error.toList :=
    mapM_text fun u hu => hev.error u (Option.mem_toList.mp hu)
  refine ⟨t, ht, hback, fun p => ?_⟩
  unfold Postgres.putCrossmintProof
  rw [hid, optionalJson_ok hev.proof, herror, hstamp]
  simp only [bind, Except.bind, Bool.and_assoc]
  rfl

theorem metadata_refresh (old r : Job Nat) (b : Bool) : Convex.metadata (old.refresh b r) =
    (Convex.metadata old).map fun f => { f with updated := r.updatedAt } := by
  unfold Convex.metadata
  dsimp only [Job.refresh]
  cases Convex.string old.x402PaymentId with
  | error e => rfl
  | ok key =>
    cases Convex.string old.idempotencyKey with
    | error e => rfl
    | ok idempotency =>
      cases Convex.optional old.receiptAddress with
      | error e => rfl
      | ok receipt =>
        cases Convex.optional old.connectorReference with
        | error e => rfl
        | ok reference => rfl

/-- **Fresh evidence.** -/
theorem proof_agrees (h : Mirrors m p c) {r : Job Nat} (hev : Evidence P D m r) :
    Mirrors (after m (m.putCrossmintProof r)) (after p (p.putCrossmintProof r))
      (after c (c.putCrossmintProof r)) := by
  obtain ⟨t, ht, hback, hputP⟩ := evidence_ok hev
  have hjson := json_ok hev.fits hev.challenge hev.proof
  rw [hputP p]
  unfold Memory.putCrossmintProof
  simp only [Bool.and_assoc]
  cases hold : m.job r.x402PaymentId with
  | none =>
    obtain ⟨hrowP, hrowC⟩ := h.rows_none hold
    have hc : c.putCrossmintProof r = .ok c := by
      unfold Convex.putCrossmintProof
      simp only [hjson, bind, Except.bind, string_ok hev.id, hrowC, pure, Except.pure]
    rw [hc, updateWhere_none, updateWhere_none]
    · exact h
    · intro row hrow hmatch
      exact List.find?_eq_none.mp hrowP row hrow (Bool.and_eq_true_iff.mp hmatch).1
    · intro j hj hmatch
      exact List.find?_eq_none.mp hold j hj (Bool.and_eq_true_iff.mp hmatch).1
  | some old =>
    obtain ⟨⟨oldP, hrowP, hbackP⟩, ⟨oldC, hrowC, hbackC⟩⟩ := h.rows_some hold
    obtain ⟨hmem, hid⟩ := Memory.job_mem hold
    have hmemP : oldP ∈ p.rows := (find?_spec hrowP).1
    have hmemC : oldC ∈ c.rows := (find?_spec hrowC).1
    have hidP : oldP.x402PaymentId = old.x402PaymentId := congrArg (·.x402PaymentId) hbackP
    have hstored : Convex.stored (D := D) oldC.record = .ok old := by
      rw [Convex.stored, hbackC, if_pos (h.fits old hmem)]
    have hfieldC : oldC.fields = fieldsOf old := by
      rw [h.field hmemC, hbackC]
    have hkeyP := updateWhere_key (q := fun x => x.refreshable && letI := P.order
      decide (x.updatedAt ≤ t)) (f := refreshRow r t) h.idsP hmemP
    have hkeyM := updateWhere_key (q := fun x => x.refreshable && decide (x.updatedAt ≤ r.updatedAt))
      (f := fun x => x.refresh (Job.reverses r.proof) r) h.ids hmem
    have hsameP : (oldP.refreshable && letI := P.order; decide (oldP.updatedAt ≤ t)) =
        (old.refreshable && decide (old.updatedAt ≤ r.updatedAt)) := by
      have hle := stamp_le (h.stamps oldP hmemP) ht hback
      have hmillis : P.toMillis oldP.updatedAt = old.updatedAt := congrArg (·.updatedAt) hbackP
      rw [hmillis] at hle
      rw [show old.refreshable = oldP.refreshable by rw [← hbackP]; rfl]
      exact congrArg _ (decide_eq_decide.mpr hle)
    rw [hidP, hid, hsameP] at hkeyP
    rw [hid] at hkeyM
    rw [hkeyP, hkeyM]
    by_cases happlies : (old.refreshable && decide (old.updatedAt ≤ r.updatedAt)) = true
    · obtain ⟨hrefreshable, hle⟩ := Bool.and_eq_true_iff.mp happlies
      have hle := of_decide_eq_true hle
      have hstatus := hev.status old hold hrefreshable hle
      have hmeta : Convex.metadata (old.refresh (Job.reverses r.proof) r) =
          .ok (fieldsOf (old.refresh (Job.reverses r.proof) r)) := by
        have hfields := h.fields oldC hmemC
        rw [hbackC, hfieldC] at hfields
        rw [metadata_refresh, hfields]
        rfl
      have hc : c.putCrossmintProof r = .ok ⟨c.payments, updateWhere
          (fun x => x.fields.key = r.x402PaymentId)
          (fun _ => ⟨old.refresh (Job.reverses r.proof) r,
            fieldsOf (old.refresh (Job.reverses r.proof) r)⟩) c.rows⟩ := by
        unfold Convex.putCrossmintProof
        simp only [hjson, bind, Except.bind, string_ok hev.id, hrowC, hstored, hfieldC,
          hev.reverses]
        rw [if_neg, if_neg]
        · have hrewrite : updateWhere (fun x => decide (x.fields.key = r.x402PaymentId))
              (fun x : Row => ⟨old.refresh (Job.reverses r.proof) r, { x.fields with
                updated := (old.refresh (Job.reverses r.proof) r).updatedAt }⟩) c.rows =
              updateWhere (fun x => decide (x.fields.key = r.x402PaymentId))
                (fun _ => ⟨old.refresh (Job.reverses r.proof) r,
                  fieldsOf (old.refresh (Job.reverses r.proof) r)⟩) c.rows := by
            refine updateWhere_congr fun x hx => ?_
            by_cases hkey : x.fields.key = r.x402PaymentId
            · have hkeyC : oldC.fields.key = r.x402PaymentId := by
                rw [hfieldC]
                exact hid
              rw [if_pos (decide_eq_true hkey), if_pos (decide_eq_true hkey),
                eq_of_key h.idsC hx hmemC (hkey.trans hkeyC.symm), hfieldC]
              rfl
            · rw [if_neg (by simpa using hkey), if_neg (by simpa using hkey)]
          rw [hrewrite]
          rfl
        · rintro ⟨hnot, hnot'⟩
          exact hstatus.elim hnot hnot'
        · rw [hrefreshable, Bool.not_true, Bool.false_or, decide_eq_true_iff]
          exact Nat.not_lt.mpr hle
      rw [if_pos happlies, if_pos happlies, hc, ← hid]
      refine h.rewrite hmem rfl rfl ?_ ?_ hmeta (hev.refreshed old hold)
        ⟨(h.texts old hmem).key, (h.texts old hmem).reference⟩
      · rw [fromRow_refreshRow hback, hbackP]
      · rw [← hback] at ht
        exact ht
    · have hc : c.putCrossmintProof r = .ok c := by
        unfold Convex.putCrossmintProof
        simp only [hjson, bind, Except.bind, string_ok hev.id, hrowC, hstored, hfieldC]
        rw [if_pos]
        · rfl
        · have hnot : old.refreshable = true → r.updatedAt < old.updatedAt := by
            simpa using happlies
          cases hrefreshable : old.refreshable with
          | false => rfl
          | true =>
            rw [Bool.not_true, Bool.false_or]
            exact decide_eq_true (hnot hrefreshable)
      rw [if_neg happlies, if_neg happlies, hc]
      exact h

/-! ## Questions -/

/-- A question that every store takes, and whose answer no tie decides. -/
structure Asks (m : Memory) (q : Query) : Prop where
  owner : q.owner ≠ ""
  simple : ':' ∉ q.owner.toList
  reference : q.reference ≠ ""
  current : q.currentKey ≠ ""
  texts : ∀ t ∈ [q.reference, q.owner, q.currentKey], hasNul t = false
  times : ((m.others q).map (·.updatedAt)).Nodup

/-- Before the first colon of a text that goes on with one. -/
theorem takeWhile_colon {a b : List Char} (ha : ':' ∉ a) :
    (a ++ ':' :: b).takeWhile (· ≠ ':') = a := by
  rw [List.takeWhile_append_of_pos]
  · simp
  · intro x hx
    exact decide_eq_true fun heq => ha (heq ▸ hx)

/-- The three ways to find the owner in a key. -/
theorem owner_iff {key owner : String} (hkey : HasOwner key) (howner : ':' ∉ owner.toList) :
    ((owner ++ ":").toList.isPrefixOf key.toList = true ↔ Convex.ownerOf key = some owner) ∧
      (Postgres.splitPart key = owner ↔ Convex.ownerOf key = some owner) := by
  obtain ⟨name, hname, -⟩ := hkey
  have hcolon : ':' ∈ key.toList := by
    unfold Convex.ownerOf at hname
    split at hname
    · assumption
    · cases hname
  have hof : Convex.ownerOf key = some (Postgres.splitPart key) := by
    rw [Convex.ownerOf, if_pos hcolon, Postgres.splitPart]
  refine ⟨?_, by rw [hof, Option.some.injEq]⟩
  obtain ⟨front, rest, hkey, hfront⟩ := List.eq_append_cons_of_mem hcolon
  have htext : (owner ++ ":").toList = owner.toList ++ [':'] := String.toList_append
  rw [hof, Option.some.injEq, List.isPrefixOf_iff_prefix, Postgres.splitPart, htext, hkey,
    takeWhile_colon hfront]
  constructor
  · rintro ⟨rest', hrest⟩
    rw [List.append_assoc, List.singleton_append] at hrest
    have hsame := congrArg (List.takeWhile (· ≠ ':')) hrest
    rw [takeWhile_colon howner, takeWhile_colon hfront] at hsame
    rw [← hsame, String.ofList_toList]
  · rintro rfl
    rw [String.toList_ofList]
    exact ⟨rest, by rw [List.append_assoc, List.singleton_append]⟩

/-- The rows of PostgreSQL that a question is about. -/
theorem others_agree (h : Mirrors m p c) {q : Query} (hsimple : ':' ∉ q.owner.toList) :
    (p.others q).map Postgres.fromRow = m.others q := by
  unfold Postgres.others Memory.others
  rw [← h.rowsP, List.filter_map]
  congr 1
  refine List.filter_congr fun r hr => ?_
  obtain ⟨hmemory, hsplit⟩ := owner_iff (h.owners _ (h.mem_rowP hr)) hsimple
  have hsame : decide (Postgres.splitPart r.idempotencyKey = q.owner) =
      (q.owner ++ ":").toList.isPrefixOf r.idempotencyKey.toList := by
    rw [Bool.eq_iff_iff, decide_eq_true_iff]
    exact hsplit.trans hmemory.symm
  rw [hsame]
  rfl

theorem findOther_postgres (h : Mirrors m p c) {q : Query} (hsimple : ':' ∉ q.owner.toList)
    (htexts : ∀ t ∈ [q.reference, q.owner, q.currentKey], hasNul t = false) :
    p.findOther q = .ok (m.findOther q) := by
  unfold Postgres.findOther Memory.findOther
  rw [mapM_text htexts, ← others_agree h hsimple]
  let := P.order
  have hsort : ((p.others q).insertionSort fun a b => b.updatedAt ≤ a.updatedAt).map
      Postgres.fromRow = ((p.others q).map Postgres.fromRow).insertionSort
        fun a b => b.updatedAt ≤ a.updatedAt := by
    refine List.map_insertionSort _ _ _ _ fun a ha b hb => ?_
    have hrow : ∀ x ∈ p.others q, P.toTimestamp (P.toMillis x.updatedAt) = some x.updatedAt :=
      fun x hx => h.stamps x (List.mem_of_mem_filter hx)
    exact stamp_le (hrow b hb) (hrow a ha) rfl
  rw [← hsort, List.head?_map]
  rfl

/-- The rows that Convex reads, without the one that asks. -/
theorem ofOrder_others (h : Mirrors m p c) {q : Query} (hsimple : ':' ∉ q.owner.toList) :
    (((c.ofOrder q).filter fun x => x.fields.idempotency ≠ q.currentKey).map Row.record).Perm
      (m.others q) := by
  have hperm := ((byIndexDesc_perm (·.fields.updated) (c.rows.filter fun x =>
    x.fields.owner = some q.owner && x.fields.connector = q.connector &&
      x.fields.reference = some q.reference)).filter
        fun x => x.fields.idempotency ≠ q.currentKey).map Row.record
  refine hperm.trans (List.Perm.of_eq ?_)
  unfold Memory.others
  rw [← h.rowsC, List.filter_map, List.filter_filter]
  congr 1
  refine List.filter_congr fun x hx => ?_
  obtain ⟨hmemory, -⟩ := owner_iff (h.owners _ (h.mem_rowC hx)) hsimple
  rw [Function.comp_apply, Bool.eq_iff_iff]
  simp only [Bool.and_eq_true, decide_eq_true_iff, hmemory]
  rw [h.field hx]
  constructor
  · rintro ⟨hkey, ⟨howner, hconnector⟩, hreference⟩
    exact ⟨⟨⟨hconnector, hreference⟩, howner⟩, hkey⟩
  · rintro ⟨⟨⟨hconnector, hreference⟩, howner⟩, hkey⟩
    exact ⟨hkey, ⟨howner, hconnector⟩, hreference⟩

/-- Two rows are enough when at most one can fail the test. -/
theorem find?_take_two {α : Type} {l : List α} {test : α → Bool} (hnodup : l.Nodup)
    (hone : ∀ a ∈ l, ∀ b ∈ l, test a = false → test b = false → a = b) :
    (l.take 2).find? test = l.find? test := by
  match l with
  | [] => rfl
  | [a] => rfl
  | a :: b :: rest =>
    rw [List.take_succ_cons, List.take_succ_cons, List.take_zero]
    cases ha : test a with
    | true => rw [List.find?_cons_of_pos ha, List.find?_cons_of_pos ha]
    | false =>
      have ha' : ¬ test a = true := Bool.eq_false_iff.mp ha
      rw [List.find?_cons_of_neg ha', List.find?_cons_of_neg ha']
      cases hb : test b with
      | true => rw [List.find?_cons_of_pos hb, List.find?_cons_of_pos hb]
      | false =>
        have heq := hone a (by simp) b (by simp) ha hb
        exact absurd (heq ▸ List.mem_cons_self) (List.nodup_cons.mp hnodup).1

/-- What Convex answers: the first row that does not ask. -/
theorem findOther_convex (h : Mirrors m p c) {q : Query} (howner : q.owner ≠ "")
    (hreference : q.reference ≠ "") (hcurrent : q.currentKey ≠ "") :
    c.findOther q = .ok (((c.ofOrder q).filter fun x =>
      x.fields.idempotency ≠ q.currentKey).map Row.record).head? := by
  have hkeys : (c.rows.map (·.fields.idempotency)).Nodup := by
    have hkeys := h.keys
    rw [← h.rowsC, List.map_map] at hkeys
    have hsame : c.rows.map (·.fields.idempotency) =
        c.rows.map ((·.idempotencyKey) ∘ (·.record)) := by
      refine List.map_congr_left fun x hx => ?_
      rw [h.field hx]
      rfl
    rw [hsame]
    exact hkeys
  have hperm := byIndexDesc_perm (·.fields.updated) (c.rows.filter fun x =>
    x.fields.owner = some q.owner && x.fields.connector = q.connector &&
      x.fields.reference = some q.reference)
  have hnodup : (c.ofOrder q).Nodup :=
    hperm.symm.nodup ((List.Nodup.of_map _ hkeys).filter _)
  have hmem : ∀ x ∈ c.ofOrder q, x ∈ c.rows :=
    fun x hx => List.mem_of_mem_filter (hperm.subset hx)
  have htwo : ((c.ofOrder q).take 2).find? (fun x => x.fields.idempotency ≠ q.currentKey) =
      (c.ofOrder q).find? fun x => x.fields.idempotency ≠ q.currentKey := by
    refine find?_take_two hnodup fun a ha b hb hka hkb => ?_
    refine eq_of_key hkeys (hmem a ha) (hmem b hb) ?_
    simp only [ne_eq, decide_eq_false_iff_not, not_not] at hka hkb
    rw [hka, hkb]
  unfold Convex.findOther
  simp only [string_ok howner, string_ok hreference, string_ok hcurrent, bind, Except.bind, pure,
    Except.pure]
  rw [List.head?_map, List.head?_filter, ← htwo]
  by_cases hempty : ((c.ofOrder q).take 2).isEmpty = true
  · rw [if_pos hempty, List.isEmpty_iff.mp hempty]
    rfl
  · rw [if_neg hempty]

theorem findOther_agrees (h : Mirrors m p c) {q : Query} (hasks : Asks m q) :
    p.findOther q = .ok (m.findOther q) ∧ c.findOther q = .ok (m.findOther q) := by
  refine ⟨findOther_postgres h hasks.simple hasks.texts, ?_⟩
  rw [findOther_convex h hasks.owner hasks.reference hasks.current, Memory.findOther]
  have hperm := ofOrder_others h hasks.simple
  have hsorted : (((c.ofOrder q).filter fun x =>
      x.fields.idempotency ≠ q.currentKey).map Row.record).Pairwise
        fun a b => b.updatedAt ≤ a.updatedAt := by
    refine List.pairwise_map.mpr ?_
    refine List.Pairwise.imp_of_mem ?_ ((byIndexDesc_sorted (fun x : Row =>
      x.fields.updated) _).filter _)
    intro a b ha hb hab
    have hrow : ∀ x ∈ c.ofOrder q, x.record.updatedAt = x.fields.updated := by
      intro x hx
      rw [h.field (List.mem_of_mem_filter ((byIndexDesc_perm _ _).subset hx))]
      rfl
    rw [hrow a (List.mem_of_mem_filter ha), hrow b (List.mem_of_mem_filter hb)]
    exact hab
  have hleft := desc_eq hasks.times hperm hsorted (List.Perm.refl _)
  have hright := desc_eq hasks.times
    (List.perm_insertionSort (fun a b : Job Nat => b.updatedAt ≤ a.updatedAt) _)
    (List.pairwise_insertionSort _ _) (List.Perm.refl _)
  rw [← hleft, hright]

theorem findByIdempotency_agrees (h : Mirrors m p c) {key : String} (hne : key ≠ "")
    (hnul : hasNul key = false) :
    p.findByIdempotency key = .ok (m.findByIdempotency key) ∧
      c.findByIdempotency key = .ok (m.findByIdempotency key) := by
  constructor
  · have htext : Postgres.text key = .ok key := by
      rw [Postgres.text, hnul]
      rfl
    unfold Postgres.findByIdempotency Memory.findByIdempotency
    rw [htext, ← h.rowsP, List.find?_map]
    rfl
  · unfold Convex.findByIdempotency Memory.findByIdempotency
    rw [string_ok hne, ← h.rowsC, List.find?_map]
    simp only [bind, Except.bind, pure, Except.pure]
    congr 2
    refine List.find?_congr fun x hx => ?_
    rw [h.field hx]
    rfl

/-! ## Orders are not forgotten -/

/-- A job for the order of `j`, under its key. -/
def Stays (j : Job Nat) (m : Memory) : Prop :=
  ∃ k ∈ m.jobs, k.idempotencyKey = j.idempotencyKey ∧ k.connector = j.connector ∧
    k.connectorReference = j.connectorReference

theorem stays_call (hids : (m.jobs.map (·.x402PaymentId)).Nodup) {op : Op} (hplain : Plain P D m op)
    {j : Job Nat} (horder : j.connectorReference ≠ none) (h : Stays j m) :
    Stays j (after m (m.call op)) := by
  obtain ⟨k, hk, hsame⟩ := h
  cases op with
  | putPayment id => exact ⟨k, hk, hsame⟩
  | putX402 r =>
    obtain ⟨-, -, hfollows⟩ := hplain
    change Stays j (after m (m.putX402 r))
    unfold Memory.putX402
    split
    · exact ⟨k, hk, hsame⟩
    · cases hold : m.job r.x402PaymentId with
      | none => exact ⟨k, List.mem_append_left _ hk, hsame⟩
      | some old =>
        dsimp only
        split
        · exact ⟨k, hk, hsame⟩
        · rename_i hopen
          rw [hold] at hfollows
          have hcont : Continues D old r := by
            refine hfollows.resolve_left fun hdropped => hopen ?_
            simpa [Dropped] using hdropped
          obtain ⟨hmem, hid⟩ := Memory.job_mem hold
          by_cases hkid : k.x402PaymentId = r.x402PaymentId
          · -- the row that is written over
            have hkold : k = old := eq_of_key hids hk hmem (hkid.trans hid.symm)
            obtain ⟨hkey, hconnector, hreference⟩ := hsame
            rw [hkold] at hkey hconnector hreference
            have hsome : old.connectorReference ≠ none := by
              rw [hreference]
              exact horder
            obtain ⟨hreferenceR, hconnectorR⟩ := hcont.order hsome
            exact ⟨Memory.merge old r, mem_updateWhere_of_pos hk (decide_eq_true hkid),
              hcont.key.trans hkey, hconnectorR.trans hconnector, hreferenceR.trans hreference⟩
          · exact ⟨k, mem_updateWhere_of_not hk (by simpa using hkid), hsame⟩
  | putCrossmintProof r =>
    refine ⟨_, mem_updateWhere.mpr ⟨k, hk, rfl⟩, ?_⟩
    split
    · exact hsame
    · exact hsame

/-- With such a job, every store finds one. -/
theorem Stays.found (h : Mirrors m p c) {j : Job Nat} (hstays : Stays j m) {q : Query}
    (howner : Convex.ownerOf j.idempotencyKey = some q.owner) (hconnector : q.connector = j.connector)
    (hreference : j.connectorReference = some q.reference) (hcurrent : q.currentKey ≠ "")
    (hnul : hasNul q.currentKey = false) (hother : q.currentKey ≠ j.idempotencyKey) :
    (∃ a, m.findOther q = some a) ∧ (∃ a, p.findOther q = .ok (some a)) ∧
      ∃ a, c.findOther q = .ok (some a) := by
  obtain ⟨k, hk, hkey, hkind, hkref⟩ := hstays
  obtain ⟨name, hname, hnameNe⟩ := h.owners k hk
  rw [hkey, howner, Option.some.injEq] at hname
  rw [← hname] at hnameNe
  have hfront : ':' ∉ q.owner.toList ∧ ∀ ch ∈ q.owner.toList, ch ∈ k.idempotencyKey.toList := by
    unfold Convex.ownerOf at howner
    split at howner
    · rw [Option.some.injEq] at howner
      rw [← howner, String.toList_ofList, hkey]
      refine ⟨fun hmem => ?_, fun ch hch => (List.takeWhile_sublist _).subset hch⟩
      simpa using List.mem_takeWhile_imp hmem
    · cases howner
  obtain ⟨hrefNe, hrefNul⟩ := (h.texts k hk).reference q.reference (hkref.trans hreference)
  have hownerNul : hasNul q.owner = false := by
    have hkeyNul := (h.texts k hk).key
    unfold hasNul at hkeyNul ⊢
    rw [List.any_eq_false] at hkeyNul ⊢
    exact fun ch hch => hkeyNul ch (hfront.2 ch hch)
  have hmem : k ∈ m.others q := by
    refine List.mem_filter.mpr ⟨hk, ?_⟩
    have hpre := (owner_iff (h.owners k hk) hfront.1).1.mpr (by rw [hkey]; exact howner)
    rw [hpre]
    simp [hkind, hconnector, hkref, hreference, hkey, hother.symm]
  have hmemory : ∃ a, m.findOther q = some a := by
    have hsorted : k ∈ (m.others q).insertionSort fun a b => b.updatedAt ≤ a.updatedAt :=
      (List.mem_insertionSort _).mpr hmem
    unfold Memory.findOther
    exact Option.isSome_iff_exists.mp (List.isSome_head?.mpr (List.ne_nil_of_mem hsorted))
  refine ⟨hmemory, ?_, ?_⟩
  · obtain ⟨a, ha⟩ := hmemory
    refine ⟨a, ?_⟩
    rw [findOther_postgres h hfront.1, ha]
    intro t ht
    simp only [List.mem_cons, List.not_mem_nil, or_false] at ht
    rcases ht with rfl | rfl | rfl
    · exact hrefNul
    · exact hownerNul
    · exact hnul
  · rw [findOther_convex h hnameNe hrefNe hcurrent]
    have hmemC := (ofOrder_others h hfront.1).symm.subset hmem
    obtain ⟨a, ha⟩ := Option.isSome_iff_exists.mp
      (List.isSome_head?.mpr (List.ne_nil_of_mem hmemC))
    exact ⟨a, by rw [ha]⟩

/-! ## Runs -/

/-- The three stores, each given the same calls. -/
structure Stores (P : Columns) (D : Deployment) where
  memory : Memory
  postgres : Postgres P
  convex : Convex D

namespace Stores

def empty : Stores P D := ⟨⟨[], []⟩, ⟨[], []⟩, ⟨[], []⟩⟩

def step (s : Stores P D) (op : Op) : Stores P D where
  memory := after s.memory (s.memory.call op)
  postgres := after s.postgres (s.postgres.call op)
  convex := after s.convex (s.convex.call op)

def run (s : Stores P D) (ops : List Op) : Stores P D := ops.foldl step s

/-- Every write of the run is plain where it is made. -/
def PlainRun (s : Stores P D) : List Op → Prop
  | [] => True
  | op :: ops => Plain P D s.memory op ∧ PlainRun (s.step op) ops

/-- The same job for every id, and the same answers. -/
structure Agree (s : Stores P D) : Prop where
  jobs : ∀ id, s.postgres.job id = s.memory.job id ∧ s.convex.job id = s.memory.job id
  keys : ∀ key, key ≠ "" → hasNul key = false →
    s.postgres.findByIdempotency key = .ok (s.memory.findByIdempotency key) ∧
      s.convex.findByIdempotency key = .ok (s.memory.findByIdempotency key)
  others : ∀ q, Asks s.memory q → s.postgres.findOther q = .ok (s.memory.findOther q) ∧
    s.convex.findOther q = .ok (s.memory.findOther q)

/-- Whoever asks about the order of the job under another key is told of a job. -/
def Remember (s : Stores P D) (j : Job Nat) : Prop :=
  ∀ q : Query, Convex.ownerOf j.idempotencyKey = some q.owner → q.connector = j.connector →
    j.connectorReference = some q.reference → q.currentKey ≠ "" → hasNul q.currentKey = false →
    q.currentKey ≠ j.idempotencyKey →
    (∃ a, s.memory.findOther q = some a) ∧ (∃ a, s.postgres.findOther q = .ok (some a)) ∧
      ∃ a, s.convex.findOther q = .ok (some a)

end Stores

variable {s : Stores P D}

/-- **One write.** -/
theorem call_agrees (h : Mirrors m p c) {op : Op} (hplain : Plain P D m op) :
    Mirrors (after m (m.call op)) (after p (p.call op)) (after c (c.call op)) := by
  cases op with
  | putPayment id =>
    refine ⟨?_, ?_, h.rowsP, h.rowsC, h.stamps, h.fields, h.ids, h.keys, h.fits, h.owners, h.texts⟩
    · exact congrArg (id :: ·) h.paymentsP
    · exact congrArg (id :: ·) h.paymentsC
  | putX402 r =>
    obtain ⟨hheld, hlink, hfollows⟩ := hplain
    cases hold : m.job r.x402PaymentId with
    | none =>
      rw [hold] at hfollows
      exact put_new h hheld hlink hold hfollows
    | some old =>
      rw [hold] at hfollows
      exact put_old h hheld hlink hold hfollows
  | putCrossmintProof r => exact proof_agrees h hplain

theorem mirrors_run (h : Mirrors s.memory s.postgres s.convex) {ops : List Op}
    (hplain : s.PlainRun ops) :
    Mirrors (s.run ops).memory (s.run ops).postgres (s.run ops).convex := by
  induction ops generalizing s with
  | nil => exact h
  | cons op ops ih => exact ih (call_agrees h hplain.1) hplain.2

theorem stays_run (h : Mirrors s.memory s.postgres s.convex) {ops : List Op}
    (hplain : s.PlainRun ops) {j : Job Nat} (horder : j.connectorReference ≠ none)
    (hstays : Stays j s.memory) : Stays j (s.run ops).memory := by
  induction ops generalizing s with
  | nil => exact hstays
  | cons op ops ih =>
    exact ih (call_agrees h hplain.1) hplain.2 (stays_call h.ids hplain.1 horder hstays)

theorem plainRun_append {before later : List Op} (h : s.PlainRun (before ++ later)) :
    s.PlainRun before ∧ (s.run before).PlainRun later := by
  induction before generalizing s with
  | nil => exact ⟨trivial, h⟩
  | cons op before ih =>
    obtain ⟨hrest, hlater⟩ := ih h.2
    exact ⟨⟨h.1, hrest⟩, hlater⟩

theorem mirrors_empty : Mirrors (Stores.empty : Stores P D).memory
    (Stores.empty : Stores P D).postgres (Stores.empty : Stores P D).convex where
  paymentsP := rfl
  paymentsC := rfl
  rowsP := rfl
  rowsC := rfl
  stamps _ h := nomatch h
  fields _ h := nomatch h
  ids := List.nodup_nil
  keys := List.nodup_nil
  fits _ h := nomatch h
  owners _ h := nomatch h
  texts _ h := nomatch h

/-- **Three stores, one set of jobs.** Along a plain run they agree, and each job with an order is
found by that order for ever after. -/
theorem stores_agree (P : Columns) (D : Deployment) (before later : List Op)
    (hplain : (Stores.empty : Stores P D).PlainRun (before ++ later)) :
    ((Stores.empty : Stores P D).run (before ++ later)).Agree ∧
      ∀ j ∈ ((Stores.empty : Stores P D).run before).memory.jobs,
        ((Stores.empty : Stores P D).run (before ++ later)).Remember j := by
  obtain ⟨hbefore, hlater⟩ := plainRun_append hplain
  have hmid := mirrors_run mirrors_empty hbefore
  have hend := mirrors_run mirrors_empty hplain
  refine ⟨⟨fun id => ⟨hend.jobP id, hend.jobC id⟩,
    fun key hne hnul => findByIdempotency_agrees hend hne hnul,
    fun q hasks => findOther_agrees hend hasks⟩, ?_⟩
  intro j hj q howner hconnector hreference hcurrent hnul hother
  have horder : j.connectorReference ≠ none := by
    rw [hreference]
    exact Option.some_ne_none _
  have hstays := stays_run hmid hlater horder ⟨j, hj, rfl, rfl, rfl⟩
  have hrun : (Stores.empty : Stores P D).run (before ++ later) =
      ((Stores.empty : Stores P D).run before).run later := List.foldl_append
  rw [← hrun] at hstays
  exact hstays.found hend howner hconnector hreference hcurrent hnul hother

/-! ### Samples -/

/-- Microseconds, up to the largest exact double. -/
def sampleColumns : Columns where
  Stamp := Nat
  order := inferInstance
  toTimestamp ms := if ms < 2 ^ 53 then some (ms * 1000) else none
  toMillis t := (t + 500) / 1000
  toTimestamp_mono := by
    intro a b x y hx hy hle
    simp only [Option.ite_none_right_eq_some, Option.some.injEq] at hx hy
    obtain ⟨-, rfl⟩ := hx
    obtain ⟨-, rfl⟩ := hy
    exact Nat.mul_le_mul_right 1000 hle
  toMillis_mono := by
    intro x y hle
    exact Nat.div_le_div_right (Nat.add_le_add_right hle 500)
  jsonb := some

def sampleDeployment : Deployment where
  lossless := id
  textFits _ := true
  documentFits _ := true

def sampleJob : Job Nat where
  x402PaymentId := "job-1"
  idempotencyKey := "owner:key-1"
  connector := .crossmint
  connectorReference := some "order-1"
  resource := "resource"
  paymentId := none
  receiptAddress := none
  transactionSignature := none
  status := .prepared
  challenge := .null
  proof := none
  responseStatus := none
  error := none
  createdAt := 100
  updatedAt := 100

def sampleQuery : Query := ⟨"owner", .crossmint, "order-1", "owner:key-2"⟩

theorem held_sample {r : Job Nat} (hid : r.x402PaymentId = "job-1")
    (hkey : r.idempotencyKey = "owner:key-1") (hreference : r.connectorReference = some "order-1")
    (hpayment : r.paymentId = none) (hreceipt : r.receiptAddress = none)
    (htexts : ∀ t ∈ r.texts, hasNul t = false) (hcreated : r.createdAt < 1000)
    (hupdated : r.updatedAt < 1000) (hproof : r.proof = none) :
    Held sampleColumns sampleDeployment r := by
  have hholds : ∀ ms < 1000, sampleColumns.Holds ms := by
    intro ms hms
    refine ⟨by omega, ms * 1000, ?_, ?_⟩
    · change (if ms < 2 ^ 53 then some (ms * 1000) else none) = some (ms * 1000)
      rw [if_pos (by omega)]
    · change (ms * 1000 + 500) / 1000 = ms
      omega
  refine ⟨?_, ?_, ?_, ?_, ?_, htexts, hholds _ hcreated, hholds _ hupdated, ⟨rfl, rfl⟩, ?_, rfl⟩
  · rw [hid]
    decide
  · rw [hkey]
    exact ⟨"owner", by decide, by decide⟩
  · rw [hreference]
    decide
  · rw [hpayment]
    decide
  · rw [hreceipt]
    decide
  · intro v hv
    rw [hproof] at hv
    cases hv

theorem sample_plain : (Stores.empty : Stores sampleColumns sampleDeployment).PlainRun
    ([.putX402 sampleJob] ++ [.putX402 { sampleJob with status := .confirmed, updatedAt := 200 }]) := by
  refine ⟨⟨held_sample rfl rfl rfl rfl rfl (by decide) (by decide) (by decide) rfl,
    fun _ h => (nomatch h), rfl⟩, ⟨held_sample rfl rfl rfl rfl rfl (by decide) (by decide)
    (by decide) rfl, fun _ h => (nomatch h), ?_⟩, trivial⟩
  have hstored : ((Stores.empty : Stores sampleColumns sampleDeployment).step
      (.putX402 sampleJob)).memory.job "job-1" = some sampleJob := rfl
  change Follows _ _ (((Stores.empty : Stores sampleColumns sampleDeployment).step
    (.putX402 sampleJob)).memory.job "job-1")
  rw [hstored]
  exact .inr ⟨rfl, rfl, fun _ => ⟨rfl, rfl⟩, rfl, rfl⟩

theorem stores_agree_sample :
    ((Stores.empty : Stores sampleColumns sampleDeployment).run
      ([.putX402 sampleJob] ++
        [.putX402 { sampleJob with status := .confirmed, updatedAt := 200 }])).Agree ∧
      ∀ j ∈ ((Stores.empty : Stores sampleColumns sampleDeployment).run
        [.putX402 sampleJob]).memory.jobs,
        ((Stores.empty : Stores sampleColumns sampleDeployment).run
          ([.putX402 sampleJob] ++
            [.putX402 { sampleJob with status := .confirmed, updatedAt := 200 }])).Remember j :=
  stores_agree sampleColumns sampleDeployment [.putX402 sampleJob]
    [.putX402 { sampleJob with status := .confirmed, updatedAt := 200 }] sample_plain

/-- A later write without the order's id: the memory store forgets the order. -/
theorem order_forgotten :
    ¬ (((Stores.empty : Stores sampleColumns sampleDeployment).run
      ([.putX402 sampleJob] ++ [.putX402 { sampleJob with
        connectorReference := none, status := .submitted, updatedAt := 200 }])).Agree ∧
      ∀ j ∈ ((Stores.empty : Stores sampleColumns sampleDeployment).run
        [.putX402 sampleJob]).memory.jobs,
        ((Stores.empty : Stores sampleColumns sampleDeployment).run
          ([.putX402 sampleJob] ++ [.putX402 { sampleJob with
            connectorReference := none, status := .submitted, updatedAt := 200 }])).Remember j) := by
  rintro ⟨-, hremember⟩
  have hmem : sampleJob ∈ ((Stores.empty : Stores sampleColumns sampleDeployment).run
      [.putX402 sampleJob]).memory.jobs := List.mem_singleton.mpr rfl
  obtain ⟨⟨a, ha⟩, -⟩ := hremember sampleJob hmem sampleQuery (by decide) rfl rfl (by decide)
    (by decide) (by decide)
  have hnone : (((Stores.empty : Stores sampleColumns sampleDeployment).run
      ([.putX402 sampleJob] ++ [.putX402 { sampleJob with
        connectorReference := none, status := .submitted, updatedAt := 200 }])).memory.findOther
          sampleQuery).isSome = false := by decide +kernel
  rw [ha] at hnone
  cases hnone

end ChainPay.Jobs
