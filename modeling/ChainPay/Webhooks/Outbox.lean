import ChainPay.Lib.Checked
import ChainPay.Lib.Runs
import ChainPay.Webhooks.Memory

/-!
The outbox over whole runs. `System` adds to the store the clock of its callers and the leases its
dispatchers were handed; a call does not go back in time and never reuses a lease token. Every row a
call rewrites goes through one of five row functions (`Moves`), which keep lease, time and state in
step.
-/

namespace ChainPay.Webhooks
open ChainPay.Lib

/-- A lease that a dispatcher was handed and has recorded no outcome for. -/
structure Lease where
  token : String
  deliveryId : String
  expiresAtMs : Nat
  deriving DecidableEq, Repr

structure System where
  store : Store
  clock : Nat
  tokens : List String
  held : List Lease

/-- The clock of a call. -/
def Op.now : Op → Option Nat
  | .disable _ _ now => some now
  | .rotateSecrets _ _ _ now => some now
  | .claim now _ _ _ _ => some now
  | .complete _ _ _ now => some now
  | .redeliver _ _ now => some now
  | _ => none

/-- The lease token of a claim. -/
def Op.token : Op → Option String
  | .claim _ _ _ token _ => some token
  | _ => none

/-- The attempts a claim allows. -/
def Op.maxAttempts : Op → Nat
  | .claim _ _ _ _ maxAttempts => maxAttempts
  | _ => 0

namespace System

def initial : System := ⟨.empty, 0, [], []⟩

/-- The leases after a call. -/
def leases (s : System) (op : Op) (reply : Reply) : List Lease :=
  match op, reply with
  | .claim now _ leaseMs token _, .claimed ds =>
    s.held ++ ds.map fun c => ⟨token, c.delivery.deliveryId, now + leaseMs⟩
  | .complete id token _ _, .bool true =>
    s.held.filter fun l => !(l.token = token && l.deliveryId = id)
  | _, _ => s.held

/-- A call of the store by a caller whose clock is not behind and whose token is new. -/
def step (s : System) (op : Op) : Except Unit System := do
  ensure (∀ now ∈ op.now, s.clock ≤ now) ()
  ensure (∀ token ∈ op.token, token ∉ s.tokens) ()
  let (store, reply) := s.store.call op
  return ⟨store, op.now.getD s.clock, s.tokens ++ op.token.toList, s.leases op reply⟩

end System

/-! ## One row -/

/-- Lease, time and state of a delivery are in step. -/
structure Delivery.WellFormed (d : Delivery) : Prop where
  id : d.deliveryId = Webhooks.deliveryId d.eventId d.subscriptionId
  token : d.leaseToken.isSome = true ↔ d.state = .delivering
  lease : d.leaseExpiresAtMs.isSome = true ↔ d.state = .delivering
  delivered : d.deliveredAtMs.isSome = true ↔ d.state = .delivered
  /-- A leased row is due when its lease ends. -/
  due : ∀ t ∈ d.leaseExpiresAtMs, t = d.nextAttemptAtMs

/-- What a call may do to a row. -/
inductive Delivery.Moves (d : Delivery) : Delivery → Prop where
  | stay : Moves d d
  | claim (token : String) (now leaseMs : Nat) (hdue : d.isDue now = true) :
    Moves d (d.applyClaim token now leaseMs)
  | exhaust (error : String) (now : Nat) (hopen : d.Open) : Moves d (d.applyExhaust error now)
  | outcome (o : DeliveryOutcome) (now : Nat) (hheld : d.state = .delivering) :
    Moves d (d.applyOutcome o now)
  | redeliver (now : Nat) : Moves d (d.applyRedeliver now)

namespace Delivery

variable {d d' : Delivery}

theorem Moves.deliveryId (h : d.Moves d') : d'.deliveryId = d.deliveryId := by
  cases h with
  | stay => rfl
  | claim => rfl
  | exhaust => rfl
  | outcome o now => cases o <;> rfl
  | redeliver => rfl

theorem Moves.keys (h : d.Moves d') :
    d'.eventId = d.eventId ∧ d'.subscriptionId = d.subscriptionId ∧
      d'.ownerWallet = d.ownerWallet ∧ d'.createdAtMs = d.createdAtMs := by
  cases h with
  | stay => exact ⟨rfl, rfl, rfl, rfl⟩
  | claim => exact ⟨rfl, rfl, rfl, rfl⟩
  | exhaust => exact ⟨rfl, rfl, rfl, rfl⟩
  | outcome o now => cases o <;> exact ⟨rfl, rfl, rfl, rfl⟩
  | redeliver => exact ⟨rfl, rfl, rfl, rfl⟩

theorem open_not_delivered (h : d.Open) : d.state ≠ .delivered := by
  intro hd
  rcases h with h | h | h
  · exact nomatch hd.symm.trans h
  · exact nomatch hd.symm.trans h
  · exact nomatch hd.symm.trans h

/-- A row that was not delivered has no delivery time. -/
theorem WellFormed.undelivered (h : d.WellFormed) (hs : d.state ≠ .delivered) :
    d.deliveredAtMs = none := by
  cases ht : d.deliveredAtMs with
  | none => rfl
  | some t => exact (hs (h.delivered.mp (by rw [ht]; rfl))).elim

theorem isDue_open {now : Nat} (h : d.isDue now = true) : d.Open ∧ d.nextAttemptAtMs ≤ now := by
  simpa [isDue] using h

theorem WellFormed.moves (h : d.WellFormed) (hmove : d.Moves d') : d'.WellFormed := by
  cases hmove with
  | stay => exact h
  | claim token now leaseMs hdue =>
    have hnone := h.undelivered (open_not_delivered (isDue_open hdue).1)
    refine ⟨h.id, by simp [applyClaim], by simp [applyClaim], by simp [applyClaim, hnone], ?_⟩
    simp [applyClaim]
  | exhaust error now hopen =>
    have hnone := h.undelivered (open_not_delivered hopen)
    exact ⟨h.id, by simp [applyExhaust], by simp [applyExhaust], by simp [applyExhaust, hnone],
      by simp [applyExhaust]⟩
  | outcome o now hheld =>
    have hnone := h.undelivered (by rw [hheld]; exact fun h => nomatch h)
    cases o with
    | delivered status =>
      exact ⟨h.id, by simp [applyOutcome], by simp [applyOutcome], by simp [applyOutcome],
        by simp [applyOutcome]⟩
    | retry status error next =>
      exact ⟨h.id, by simp [applyOutcome], by simp [applyOutcome], by simp [applyOutcome, hnone],
        by simp [applyOutcome]⟩
    | exhausted status error =>
      exact ⟨h.id, by simp [applyOutcome], by simp [applyOutcome], by simp [applyOutcome, hnone],
        by simp [applyOutcome]⟩
  | redeliver now =>
    exact ⟨h.id, by simp [applyRedeliver], by simp [applyRedeliver], by simp [applyRedeliver],
      by simp [applyRedeliver]⟩

theorem newDelivery_wellFormed (e : Event) (id : String) (now : Nat) :
    (newDelivery e id now).WellFormed :=
  ⟨rfl, by simp [newDelivery], by simp [newDelivery], by simp [newDelivery], by simp [newDelivery]⟩

end Delivery

/-! ## The store -/

namespace Store

/-- The tables of a reachable store. -/
structure Sound (s : Store) : Prop where
  subscriptionIds : (s.subscriptions.map (·.subscriptionId)).Nodup
  eventIds : (s.events.map (·.eventId)).Nodup
  eventKeys : (s.events.map fun e => (e.receiptAddress, e.eventType, e.version)).Nodup
  ids : (s.deliveries.map (·.deliveryId)).Nodup
  rows : ∀ d ∈ s.deliveries, d.WellFormed
  events : ∀ d ∈ s.deliveries, ∃ e ∈ s.events, e.eventId = d.eventId
  endpoints : ∀ d ∈ s.deliveries, ∃ x ∈ s.subscriptions, x.subscriptionId = d.subscriptionId ∧
    x.ownerWallet = d.ownerWallet

variable {s : Store}

theorem subscription_mem {id : String} {x : Subscription} (h : s.subscription id = some x) :
    x ∈ s.subscriptions ∧ x.subscriptionId = id := by
  obtain ⟨hmem, hid⟩ := find?_spec h
  exact ⟨hmem, by simpa using hid⟩

theorem delivery_mem {id : String} {d : Delivery} (h : s.delivery id = some d) :
    d ∈ s.deliveries ∧ d.deliveryId = id := by
  obtain ⟨hmem, hid⟩ := find?_spec h
  exact ⟨hmem, by simpa using hid⟩

/-- A row is found by its key. -/
theorem Sound.subscription_eq (h : s.Sound) {x : Subscription} (hx : x ∈ s.subscriptions) :
    s.subscription x.subscriptionId = some x := by
  cases hf : s.subscription x.subscriptionId with
  | none =>
    have hnone := List.find?_eq_none.mp hf x hx
    simp at hnone
  | some y =>
    obtain ⟨hy, hid⟩ := subscription_mem hf
    rw [eq_of_key h.subscriptionIds hy hx hid]

theorem Sound.event_isSome (h : s.Sound) {d : Delivery} (hd : d ∈ s.deliveries) :
    (s.event d.eventId).isSome = true := by
  obtain ⟨e, he, hid⟩ := h.events d hd
  rw [event, List.find?_isSome]
  exact ⟨e, he, decide_eq_true hid⟩

/-- Deliveries rewritten one by one, and subscriptions that keep their key and owner. -/
theorem Sound.rewrite (h : s.Sound) {f : Delivery → Delivery} {g : Subscription → Subscription}
    (hmoves : ∀ d ∈ s.deliveries, d.Moves (f d))
    (hkeys : ∀ x, (g x).subscriptionId = x.subscriptionId ∧ (g x).ownerWallet = x.ownerWallet) :
    ({ s with
      subscriptions := s.subscriptions.map g
      deliveries := s.deliveries.map f } : Store).Sound where
  subscriptionIds := by
    rw [List.map_map]
    have hsame : s.subscriptions.map ((·.subscriptionId) ∘ g) =
        s.subscriptions.map (·.subscriptionId) := List.map_congr_left fun x _ => (hkeys x).1
    rw [hsame]
    exact h.subscriptionIds
  eventIds := h.eventIds
  eventKeys := h.eventKeys
  ids := by
    rw [List.map_map]
    have hsame : s.deliveries.map ((·.deliveryId) ∘ f) = s.deliveries.map (·.deliveryId) :=
      List.map_congr_left fun d hd => (hmoves d hd).deliveryId
    rw [hsame]
    exact h.ids
  rows := by
    intro d hd
    obtain ⟨e, he, rfl⟩ := List.mem_map.mp hd
    exact (h.rows e he).moves (hmoves e he)
  events := by
    intro d hd
    obtain ⟨e, he, rfl⟩ := List.mem_map.mp hd
    rw [(hmoves e he).keys.1]
    exact h.events e he
  endpoints := by
    intro d hd
    obtain ⟨e, he, rfl⟩ := List.mem_map.mp hd
    obtain ⟨-, hsub, howner, -⟩ := (hmoves e he).keys
    obtain ⟨x, hx, hid, hwallet⟩ := h.endpoints e he
    refine ⟨g x, List.mem_map_of_mem hx, ?_, ?_⟩
    · rw [(hkeys x).1, hsub, hid]
    · rw [(hkeys x).2, howner, hwallet]

theorem Sound.rewriteDeliveries (h : s.Sound) {f : Delivery → Delivery}
    (hmoves : ∀ d ∈ s.deliveries, d.Moves (f d)) :
    ({ s with deliveries := s.deliveries.map f } : Store).Sound := by
  have hall := h.rewrite (g := id) hmoves fun _ => ⟨rfl, rfl⟩
  rwa [List.map_id] at hall

/-! ### Emission -/

/-- A delivery that an emission may create. -/
def Fresh (s : Store) (e : Event) (d : Delivery) : Prop :=
  ∃ x ∈ s.subscriptions, x.status = .active ∧ x.ownerWallet = e.ownerWallet ∧
    d = newDelivery e x.subscriptionId e.createdAtMs

/-- Deliveries added for a list of subscriptions: new ids only. -/
theorem addDeliveries {e : Event} {ids : List String} {ds : List Delivery}
    (hids : (ds.map (·.deliveryId)).Nodup) :
    ∃ new, ids.foldl (addDelivery e) ds = ds ++ new ∧
      ((ds ++ new).map (·.deliveryId)).Nodup ∧
      ∀ d ∈ new, ∃ id ∈ ids, d = newDelivery e id e.createdAtMs := by
  induction ids generalizing ds with
  | nil => exact ⟨[], by simp, by simpa using hids, fun _ hd => nomatch hd⟩
  | cons id ids ih =>
    rw [List.foldl_cons]
    by_cases htaken : (ds.any fun old =>
        old.deliveryId = (newDelivery e id e.createdAtMs).deliveryId) = true
    · rw [addDelivery, if_pos htaken]
      obtain ⟨new, hnew, hnodup, hfrom⟩ := ih hids
      refine ⟨new, hnew, hnodup, fun d hd => ?_⟩
      obtain ⟨i, hi, heq⟩ := hfrom d hd
      exact ⟨i, List.mem_cons_of_mem _ hi, heq⟩
    · have hfree : ((ds ++ [newDelivery e id e.createdAtMs]).map (·.deliveryId)).Nodup := by
        rw [List.map_append, List.map_cons, List.map_nil, List.nodup_append]
        refine ⟨hids, List.nodup_singleton _, ?_⟩
        rintro a ha b hb rfl
        obtain ⟨old, hold, hid⟩ := List.mem_map.mp ha
        refine htaken (List.any_eq_true.mpr ⟨old, hold, decide_eq_true ?_⟩)
        exact hid.trans (List.mem_singleton.mp hb)
      rw [addDelivery, if_neg htaken]
      obtain ⟨new, hnew, hnodup, hfrom⟩ := ih hfree
      refine ⟨newDelivery e id e.createdAtMs :: new, ?_, ?_, ?_⟩
      · rw [hnew, List.append_assoc]
        rfl
      · rw [List.append_assoc] at hnodup
        exact hnodup
      · intro d hd
        rcases List.mem_cons.mp hd with rfl | hd
        · exact ⟨id, List.mem_cons_self .., rfl⟩
        · obtain ⟨i, hi, heq⟩ := hfrom d hd
          exact ⟨i, List.mem_cons_of_mem _ hi, heq⟩

/-- What an emission adds. -/
structure Emitted (s s' : Store) (ds : List Delivery) : Prop where
  subscriptions : s'.subscriptions = s.subscriptions
  deliveries : s'.deliveries = s.deliveries ++ ds
  fresh : ∀ d ∈ ds, ∃ e, s.Fresh e d
  sound : s'.Sound

theorem emit_emitted (h : s.Sound) (e : Event) : ∃ ds, Emitted s (s.emit e).1 ds := by
  unfold emit
  by_cases hdup : s.duplicate e = true
  · rw [if_pos hdup]
    exact ⟨[], rfl, (List.append_nil _).symm, fun _ hd => (nomatch hd), h⟩
  · rw [if_neg hdup]
    obtain ⟨new, hnew, hnodup, hfrom⟩ :=
      @addDeliveries e ((s.receivers e).map (·.subscriptionId)) _ h.ids
    have hfresh : ∀ d ∈ new, s.Fresh e d := by
      intro d hd
      obtain ⟨id, hid, rfl⟩ := hfrom d hd
      obtain ⟨x, hx, rfl⟩ := List.mem_map.mp hid
      simp only [receivers, List.mem_filter, Bool.and_eq_true, decide_eq_true_eq] at hx
      exact ⟨x, hx.1, hx.2.1.2, hx.2.1.1, rfl⟩
    simp only [duplicate, Bool.or_eq_true, not_or] at hdup
    obtain ⟨hid, hkey⟩ := hdup
    refine ⟨new, rfl, hnew, fun d hd => ⟨e, hfresh d hd⟩, ?_⟩
    rw [hnew]
    refine ⟨h.subscriptionIds, ?_, ?_, hnodup, ?_, ?_, ?_⟩
    · rw [List.map_append, List.map_cons, List.map_nil, List.nodup_append]
      refine ⟨h.eventIds, List.nodup_singleton _, ?_⟩
      rintro a ha b hb rfl
      obtain ⟨old, hold, heq⟩ := List.mem_map.mp ha
      refine hid ?_
      rw [event, List.find?_isSome]
      exact ⟨old, hold, decide_eq_true (heq.trans (List.mem_singleton.mp hb))⟩
    · rw [List.map_append, List.map_cons, List.map_nil, List.nodup_append]
      refine ⟨h.eventKeys, List.nodup_singleton _, ?_⟩
      rintro a ha b hb rfl
      obtain ⟨old, hold, heq⟩ := List.mem_map.mp ha
      refine hkey (List.any_eq_true.mpr ⟨old, hold, ?_⟩)
      have hsame := heq.trans (List.mem_singleton.mp hb)
      simp only [Prod.mk.injEq] at hsame
      simp [hsame.1, hsame.2.1, hsame.2.2]
    · intro d hd
      rcases List.mem_append.mp hd with hd | hd
      · exact h.rows d hd
      · obtain ⟨x, -, -, -, rfl⟩ := hfresh d hd
        exact Delivery.newDelivery_wellFormed ..
    · intro d hd
      rcases List.mem_append.mp hd with hd | hd
      · obtain ⟨e', he', hid'⟩ := h.events d hd
        exact ⟨e', List.mem_append_left _ he', hid'⟩
      · obtain ⟨x, -, -, -, rfl⟩ := hfresh d hd
        exact ⟨e, List.mem_append_right _ (List.mem_singleton_self _), rfl⟩
    · intro d hd
      rcases List.mem_append.mp hd with hd | hd
      · exact h.endpoints d hd
      · obtain ⟨x, hx, -, howner, rfl⟩ := hfresh d hd
        exact ⟨x, hx, rfl, howner⟩

theorem emitAll_emitted (h : s.Sound) (p : Event → Bool) (es : List Event) :
    ∃ ds, Emitted s (emitAll p es s).1 ds := by
  induction es generalizing s with
  | nil => exact ⟨[], rfl, (List.append_nil _).symm, fun _ hd => (nomatch hd), h⟩
  | cons e es ih =>
    unfold emitAll
    by_cases hp : p e = true
    · rw [if_pos hp]
      obtain ⟨ds, hone⟩ := emit_emitted h e
      obtain ⟨rest, hrest⟩ := ih hone.sound
      refine ⟨ds ++ rest, hrest.subscriptions.trans hone.subscriptions, ?_, ?_, hrest.sound⟩
      · rw [hrest.deliveries, hone.deliveries, List.append_assoc]
      · intro d hd
        rcases List.mem_append.mp hd with hd | hd
        · exact hone.fresh d hd
        · obtain ⟨e', x, hx, hactive, howner, heq⟩ := hrest.fresh d hd
          rw [hone.subscriptions] at hx
          exact ⟨e', x, hx, hactive, howner, heq⟩
    · rw [if_neg hp]
      exact ih h

/-! ### Calls -/

/-- What a call does to the deliveries, apart from what it answers. -/
inductive Effect (s s' : Store) : Op → Reply → Prop where
  /-- Deliveries are added at most. -/
  | grown {op : Op} {reply : Reply} (ds : List Delivery) (hgrown : s'.deliveries = s.deliveries ++ ds)
    (hfresh : ∀ d ∈ ds, ∃ e, s.Fresh e d) (hclaim : ∀ now limit leaseMs token maxAttempts,
      op ≠ .claim now limit leaseMs token maxAttempts)
    (hcomplete : ∀ id token o now, op = .complete id token o now → reply = .bool false) :
    Effect s s' op reply
  | disabled {owner id : String} {now : Nat} {reply : Reply}
    (hrows : s'.deliveries = updateWhere (fun d => d.subscriptionId = id && d.queued)
      (fun d => d.applyExhaust ENDPOINT_DISABLED now) s.deliveries) :
    Effect s s' (.disable owner id now) reply
  | claimed {now limit leaseMs maxAttempts : Nat} {token : String}
    (hrows : s'.deliveries = updateWhere
      (fun d => (s.chosen now (clamp 1 50 limit)).any fun r => r.deliveryId = d.deliveryId)
      (fun d => (s.claimRow token now leaseMs maxAttempts d).1) s.deliveries) :
    Effect s s' (.claim now limit leaseMs token maxAttempts)
      (.claimed ((s.chosen now (clamp 1 50 limit)).filterMap fun d =>
        (s.claimRow token now leaseMs maxAttempts d).2))
  | completed {id token : String} {o : DeliveryOutcome} {now : Nat} {d : Delivery}
    (hd : d ∈ s.deliveries) (hid : d.deliveryId = id) (hstate : d.state = .delivering)
    (htoken : d.leaseToken = some token)
    (hrows : s'.deliveries = updateWhere (fun d => d.deliveryId = id)
      (fun d => d.applyOutcome o now) s.deliveries) :
    Effect s s' (.complete id token o now) (.bool true)
  | redelivered {owner id : String} {now : Nat} {reply : Reply} {d : Delivery}
    (hd : d ∈ s.deliveries) (hid : d.deliveryId = id) (hstate : d.state ≠ .delivering)
    (hrows : s'.deliveries = updateWhere (fun d => d.deliveryId = id)
      (fun d => d.applyRedeliver now) s.deliveries) :
    Effect s s' (.redeliver owner id now) reply

theorem grown_same {s' : Store} {op : Op} {reply : Reply} (hsame : s'.deliveries = s.deliveries)
    (hclaim : ∀ now limit leaseMs token maxAttempts, op ≠ .claim now limit leaseMs token maxAttempts)
    (hcomplete : ∀ id token o now, op = .complete id token o now → reply = .bool false) :
    Effect s s' op reply :=
  .grown [] (by rw [hsame, List.append_nil]) (fun _ hd => nomatch hd) hclaim hcomplete

theorem disable_keys (x : Subscription) (now : Nat) :
    (Subscription.disable x now).subscriptionId = x.subscriptionId ∧
      (Subscription.disable x now).ownerWallet = x.ownerWallet := by
  unfold Subscription.disable
  split
  · exact ⟨rfl, rfl⟩
  · exact ⟨rfl, rfl⟩

/-- A chosen row is a due row of the store. -/
theorem mem_chosen {now limit : Nat} {d : Delivery} (h : d ∈ s.chosen now limit) :
    d ∈ s.deliveries ∧ d.isDue now = true := by
  have hmem := List.mem_of_mem_take h
  rw [List.mem_insertionSort, List.mem_filter] at hmem
  exact hmem

theorem claimRow_moves {token : String} {now leaseMs maxAttempts : Nat} {d : Delivery}
    (hdue : d.isDue now = true) : d.Moves (s.claimRow token now leaseMs maxAttempts d).1 := by
  have hopen := (Delivery.isDue_open hdue).1
  unfold claimRow
  split
  · exact .claim token now leaseMs hdue
  · exact .exhaust _ now hopen
  · exact .exhaust _ now hopen

/-- The row that a due row of the store has the id of is that row. -/
theorem Sound.chosen_self (h : s.Sound) {now limit : Nat} {d : Delivery} (hd : d ∈ s.deliveries)
    (hany : ((s.chosen now limit).any fun r => r.deliveryId = d.deliveryId) = true) :
    d ∈ s.chosen now limit := by
  obtain ⟨r, hr, hid⟩ := List.any_eq_true.mp hany
  have heq := eq_of_key h.ids (mem_chosen hr).1 hd (by simpa using hid)
  rwa [← heq]

/-- **What a call does.** -/
theorem Sound.call (h : s.Sound) (op : Op) :
    (s.call op).1.Sound ∧ Effect s (s.call op).1 op (s.call op).2 := by
  -- a call that reads, or that writes no delivery
  have hquiet : ∀ {s' : Store} {op : Op} {reply : Reply}, s'.deliveries = s.deliveries →
      s'.Sound → (∀ now limit leaseMs token maxAttempts,
        op ≠ .claim now limit leaseMs token maxAttempts) →
      (∀ id token o now, op = .complete id token o now → reply = .bool false) →
      s'.Sound ∧ Effect s s' op reply :=
    fun hsame hs hclaim hcomplete => ⟨hs, grown_same hsame hclaim hcomplete⟩
  cases op with
  | createSubscription x maxActive =>
    dsimp only [Store.call, createSubscription]
    split
    · exact hquiet rfl h (by rintro _ _ _ _ _ ⟨⟩) (by rintro _ _ _ _ ⟨⟩)
    · rename_i hok
      refine @hquiet _ (.createSubscription x maxActive) _ rfl
        ⟨?_, h.eventIds, h.eventKeys, h.ids, h.rows, h.events, ?_⟩
        (by rintro _ _ _ _ _ ⟨⟩) (by rintro _ _ _ _ ⟨⟩)
      · rw [List.map_append, List.map_cons, List.map_nil, List.nodup_append]
        refine ⟨h.subscriptionIds, List.nodup_singleton _, ?_⟩
        rintro a ha b hb rfl
        obtain ⟨y, hy, hid⟩ := List.mem_map.mp ha
        refine hok (.inr (.inr ?_))
        rw [subscription, List.find?_isSome]
        exact ⟨y, hy, decide_eq_true (hid.trans (List.mem_singleton.mp hb))⟩
      · intro d hd
        obtain ⟨y, hy, hy'⟩ := h.endpoints d hd
        exact ⟨y, List.mem_append_left _ hy, hy'⟩
  | listSubscriptions owner => exact hquiet rfl h (by rintro _ _ _ _ _ ⟨⟩) (by rintro _ _ _ _ ⟨⟩)
  | getSubscription owner id => exact hquiet rfl h (by rintro _ _ _ _ _ ⟨⟩) (by rintro _ _ _ _ ⟨⟩)
  | disable owner id now =>
    dsimp only [Store.call, disable]
    split
    · exact hquiet rfl h (by rintro _ _ _ _ _ ⟨⟩) (by rintro _ _ _ _ ⟨⟩)
    · refine ⟨h.rewrite ?_ ?_, .disabled rfl⟩
      · intro d _
        split
        · rename_i hp
          simp only [Bool.and_eq_true, Delivery.queued, Bool.or_eq_true, decide_eq_true_eq] at hp
          refine .exhaust _ _ ?_
          rcases hp.2 with hs | hs
          · exact .inl hs
          · exact .inr (.inl hs)
        · exact .stay
      · intro y
        split
        · exact disable_keys y now
        · exact ⟨rfl, rfl⟩
  | rotateSecrets owner id secrets now =>
    dsimp only [Store.call, rotateSecrets]
    split
    · exact hquiet rfl h (by rintro _ _ _ _ _ ⟨⟩) (by rintro _ _ _ _ ⟨⟩)
    · have hall := h.rewrite (f := fun d => d) (g := fun y => if y.subscriptionId = id then
        { y with secrets, updatedAtMs := now } else y) (fun _ _ => .stay) (by
          intro y
          split
          · exact ⟨rfl, rfl⟩
          · exact ⟨rfl, rfl⟩)
      rw [List.map_id'] at hall
      refine @hquiet _ (.rotateSecrets owner id secrets now) _ rfl ?_
        (by rintro _ _ _ _ _ ⟨⟩) (by rintro _ _ _ _ ⟨⟩)
      simpa only [updateWhere, decide_eq_true_eq] using hall
  | putPayment r events =>
    dsimp only [Store.call, putPayment]
    have hput : ({ s with payments := putRow s.payments r } : Store).Sound :=
      ⟨h.subscriptionIds, h.eventIds, h.eventKeys, h.ids, h.rows, h.events, h.endpoints⟩
    split
    · exact hquiet rfl hput (by rintro _ _ _ _ _ ⟨⟩) (by rintro _ _ _ _ ⟨⟩)
    · rename_i stored _
      obtain ⟨ds, hem⟩ := emitAll_emitted hput (fun e => stored.status = .confirmed &&
        stored.receiptAddress = some e.receiptAddress) events
      exact ⟨hem.sound, .grown ds hem.deliveries hem.fresh (by rintro _ _ _ _ _ ⟨⟩)
        (by rintro _ _ _ _ ⟨⟩)⟩
  | putTransaction r events =>
    have hput : ({ s with transactions := putRow s.transactions r } : Store).Sound :=
      ⟨h.subscriptionIds, h.eventIds, h.eventKeys, h.ids, h.rows, h.events, h.endpoints⟩
    obtain ⟨ds, hem⟩ := emitAll_emitted hput (fun _ =>
      ((putRow s.transactions r).find? fun x => x.id = r.id).any fun x => x.status = .confirmed)
        events
    exact ⟨hem.sound, .grown ds hem.deliveries hem.fresh (by rintro _ _ _ _ _ ⟨⟩)
      (by rintro _ _ _ _ ⟨⟩)⟩
  | emit events =>
    obtain ⟨ds, hem⟩ := emitAll_emitted h (fun _ => true) events
    exact ⟨hem.sound, .grown ds hem.deliveries hem.fresh (by rintro _ _ _ _ _ ⟨⟩)
      (by rintro _ _ _ _ ⟨⟩)⟩
  | missingEvents ids => exact hquiet rfl h (by rintro _ _ _ _ _ ⟨⟩) (by rintro _ _ _ _ ⟨⟩)
  | getEvent id => exact hquiet rfl h (by rintro _ _ _ _ _ ⟨⟩) (by rintro _ _ _ _ ⟨⟩)
  | claim now limit leaseMs token maxAttempts =>
    refine ⟨h.rewriteDeliveries ?_, .claimed rfl⟩
    intro d hd
    split
    · rename_i hany
      exact claimRow_moves (mem_chosen (h.chosen_self hd hany)).2
    · exact .stay
  | complete id token o now =>
    dsimp only [Store.call, complete]
    split
    · exact hquiet rfl h (by rintro _ _ _ _ _ ⟨⟩) fun _ _ _ _ _ => rfl
    · rename_i d hfound
      rw [Option.filter_eq_some_iff] at hfound
      obtain ⟨hfind, hheld⟩ := hfound
      obtain ⟨hd, hid⟩ := delivery_mem hfind
      simp only [heldBy, Bool.and_eq_true, decide_eq_true_eq] at hheld
      refine ⟨h.rewriteDeliveries ?_, .completed hd hid hheld.1 hheld.2 rfl⟩
      intro e he
      split
      · rename_i hsame
        have heq : e = d := eq_of_key h.ids he hd ((by simpa using hsame : e.deliveryId = id).trans
          hid.symm)
        subst heq
        exact .outcome o now hheld.1
      · exact .stay
  | listDeliveries owner id limit =>
    exact hquiet rfl h (by rintro _ _ _ _ _ ⟨⟩) (by rintro _ _ _ _ ⟨⟩)
  | redeliver owner id now =>
    dsimp only [Store.call, redeliver]
    split
    · exact hquiet rfl h (by rintro _ _ _ _ _ ⟨⟩) (by rintro _ _ _ _ ⟨⟩)
    · rename_i d hfound
      rw [Option.filter_eq_some_iff] at hfound
      obtain ⟨hd, hid⟩ := delivery_mem hfound.1
      split
      · exact hquiet rfl h (by rintro _ _ _ _ _ ⟨⟩) (by rintro _ _ _ _ ⟨⟩)
      · rename_i hflight
        split
        · exact hquiet rfl h (by rintro _ _ _ _ _ ⟨⟩) (by rintro _ _ _ _ ⟨⟩)
        · refine ⟨h.rewriteDeliveries ?_, .redelivered hd hid (fun hs => hflight (.inr hs)) rfl⟩
          intro e _
          split
          · exact .redeliver now
          · exact .stay
  | listConfirmedPayments since before limit =>
    exact hquiet rfl h (by rintro _ _ _ _ _ ⟨⟩) (by rintro _ _ _ _ ⟨⟩)
  | listConfirmedTransactions since before limit =>
    exact hquiet rfl h (by rintro _ _ _ _ _ ⟨⟩) (by rintro _ _ _ _ ⟨⟩)

end Store

/-! ## Leases -/

/-- The row of a lease is held under it. -/
def Lease.Current (l : Lease) (d : Delivery) : Prop :=
  d.deliveryId = l.deliveryId ∧ d.state = .delivering ∧ d.leaseToken = some l.token ∧
    d.leaseExpiresAtMs = some l.expiresAtMs

namespace System

/-- A reachable system: an unexpired lease is the one on its row, and a leased row's lease was
handed out. -/
structure Sound (s : System) : Prop where
  store : s.store.Sound
  used : ∀ l ∈ s.held, l.token ∈ s.tokens
  leases : (s.held.map fun l => (l.token, l.deliveryId)).Nodup
  current : ∀ l ∈ s.held, s.clock < l.expiresAtMs → ∃ d ∈ s.store.deliveries, l.Current d
  known : ∀ d ∈ s.store.deliveries, ∀ token, d.leaseToken = some token →
    ∃ l ∈ s.held, l.token = token ∧ l.Current d

variable {s s' : System}

/-- The claimed rows: the chosen ones that are leased now. -/
theorem claimRow_some {st : Store} {token : String} {now leaseMs maxAttempts : Nat} {d : Delivery}
    {c : ClaimedDelivery} (h : (st.claimRow token now leaseMs maxAttempts d).2 = some c) :
    (st.claimRow token now leaseMs maxAttempts d).1 = d.applyClaim token now leaseMs ∧
      c.delivery = d.applyClaim token now leaseMs ∧ st.active d.subscriptionId = true ∧
      d.attempts < maxAttempts := by
  unfold Store.claimRow at h ⊢
  split at h
  · rename_i x e hact hx he
    cases h
    unfold claimAction at hact
    split at hact
    · cases hact
    · rename_i hactive
      split at hact
      · cases hact
      · rename_i hmax
        exact ⟨rfl, rfl, by simpa using hactive, by omega⟩
  · cases h
  · cases h

theorem claimRow_none {st : Store} {token : String} {now leaseMs maxAttempts : Nat} {d : Delivery}
    (h : (st.claimRow token now leaseMs maxAttempts d).2 = none) :
    ∃ reason, (st.claimRow token now leaseMs maxAttempts d).1 = d.applyExhaust reason now := by
  unfold Store.claimRow at h ⊢
  split at h
  · cases h
  · exact ⟨_, rfl⟩
  · exact ⟨_, rfl⟩

theorem leases_same {op : Op} {reply : Reply}
    (hclaim : ∀ now limit leaseMs token maxAttempts, op ≠ .claim now limit leaseMs token maxAttempts)
    (hcomplete : ∀ id token o now, op = .complete id token o now → reply = .bool false) :
    s.leases op reply = s.held := by
  unfold leases
  split
  · exact (hclaim _ _ _ _ _ rfl).elim
  · cases hcomplete _ _ _ _ rfl
  · rfl

/-- A chosen row has no unexpired lease. -/
theorem Sound.chosen_free (h : s.Sound) {now limit : Nat} {d : Delivery} {l : Lease}
    (hd : d ∈ s.store.chosen now limit) (hl : l.Current d) : l.expiresAtMs ≤ now := by
  obtain ⟨hmem, hdue⟩ := Store.mem_chosen hd
  rw [(h.store.rows d hmem).due l.expiresAtMs hl.2.2.2]
  exact (Delivery.isDue_open hdue).2

/-- Each claimed delivery is handed out once. -/
theorem claimed_nodup {st : Store} (h : st.Sound) {now limit leaseMs maxAttempts : Nat}
    {token : String} :
    (((st.chosen now limit).filterMap fun d =>
      (st.claimRow token now leaseMs maxAttempts d).2).map (·.delivery.deliveryId)).Nodup := by
  have hchosen : ((st.chosen now limit).map (·.deliveryId)).Nodup := by
    have hsort : ((st.deliveries.filter fun d => d.isDue now).insertionSort
        Delivery.Before).Perm (st.deliveries.filter fun d => d.isDue now) :=
      List.perm_insertionSort ..
    have hfilter : ((st.deliveries.filter fun d => d.isDue now).map (·.deliveryId)).Nodup :=
      h.ids.sublist (List.filter_sublist.map _)
    exact ((hsort.map _).nodup_iff.mpr hfilter).sublist ((List.take_sublist _ _).map _)
  refine hchosen.sublist ?_
  generalize st.chosen now limit = rows
  induction rows with
  | nil => exact List.Sublist.slnil
  | cons d rows ih =>
    rw [List.filterMap_cons]
    cases hc : (st.claimRow token now leaseMs maxAttempts d).2 with
    | none => exact ih.cons _
    | some c =>
      obtain ⟨-, hdel, -, -⟩ := claimRow_some hc
      have hid : c.delivery.deliveryId = d.deliveryId := by
        rw [hdel]
        rfl
      rw [List.map_cons, List.map_cons, hid]
      exact ih.cons_cons _

/-- **Every call keeps the leases.** -/
theorem Sound.step (h : s.Sound) {op : Op} (hstep : s.step op = .ok s') : s'.Sound := by
  simp only [System.step, bind_eq_ok, ensure_eq_ok, exists_unit, pure_eq_ok] at hstep
  obtain ⟨hnow, htoken, rfl⟩ := hstep
  obtain ⟨hstore, heffect⟩ := h.store.call op
  have hclock : s.clock ≤ op.now.getD s.clock := by
    cases hop : op.now with
    | none => exact Nat.le_refl _
    | some now => exact hnow now hop
  -- the tables and the tokens, for any leases
  generalize hcall : s.store.call op = result at hstore heffect
  obtain ⟨st, reply⟩ := result
  dsimp only at hstore heffect ⊢
  have hused : ∀ l ∈ s.held, l.token ∈ s.tokens ++ op.token.toList :=
    fun l hl => List.mem_append_left _ (h.used l hl)
  cases heffect with
  | grown ds hgrown hfresh hclaim hcomplete =>
    rw [leases_same hclaim hcomplete]
    refine ⟨hstore, hused, h.leases, ?_, ?_⟩
    · intro l hl hexp
      obtain ⟨d, hd, hcur⟩ := h.current l hl (Nat.lt_of_le_of_lt hclock hexp)
      rw [hgrown]
      exact ⟨d, List.mem_append_left _ hd, hcur⟩
    · intro d hd token ht
      rw [hgrown] at hd
      rcases List.mem_append.mp hd with hd | hd
      · exact h.known d hd token ht
      · obtain ⟨e, x, -, -, -, rfl⟩ := hfresh d hd
        cases ht
  | disabled hrows =>
    refine ⟨hstore, hused, h.leases, ?_, ?_⟩
    · intro l hl hexp
      obtain ⟨d, hd, hcur⟩ := h.current l hl (Nat.lt_of_le_of_lt hclock hexp)
      rw [hrows]
      refine ⟨d, mem_updateWhere_of_not hd ?_, hcur⟩
      simp [Delivery.queued, hcur.2.1]
    · intro d hd token ht
      rw [hrows] at hd
      obtain ⟨r, hr, rfl⟩ := mem_updateWhere.mp hd
      split at ht
      · cases ht
      · rename_i hkept
        rw [if_neg hkept]
        exact h.known r hr token ht
  | @claimed now limit leaseMs maxAttempts token hrows =>
    have hnew : token ∉ s.tokens := htoken token rfl
    refine ⟨hstore, ?_, ?_, ?_, ?_⟩
    · intro l hl
      rcases List.mem_append.mp hl with hl | hl
      · exact hused l hl
      · obtain ⟨c, -, rfl⟩ := List.mem_map.mp hl
        exact List.mem_append_right _ (List.mem_singleton_self _)
    · change ((s.held ++ List.map _ _).map _).Nodup
      rw [List.map_append, List.map_map, List.nodup_append]
      refine ⟨h.leases, ?_, ?_⟩
      · have hids := @claimed_nodup s.store h.store now (Store.clamp 1 50 limit) leaseMs maxAttempts
          token
        have hinj : Function.Injective fun id : String => (token, id) :=
          fun a b hab => (Prod.mk.inj hab).2
        have hpair := hids.map hinj
        rwa [List.map_map] at hpair
      · rintro a ha b hb rfl
        obtain ⟨l, hl, rfl⟩ := List.mem_map.mp ha
        obtain ⟨c, -, heq⟩ := List.mem_map.mp hb
        have htok : token = l.token := (Prod.mk.inj heq).1
        exact hnew (htok ▸ h.used l hl)
    · intro l hl hexp
      rcases List.mem_append.mp hl with hl | hl
      · obtain ⟨d, hd, hcur⟩ := h.current l hl (Nat.lt_of_le_of_lt hclock hexp)
        rw [hrows]
        refine ⟨d, mem_updateWhere_of_not hd fun hany => ?_, hcur⟩
        have hle := h.chosen_free (h.store.chosen_self hd hany) hcur
        exact Nat.not_lt.mpr hle hexp
      · obtain ⟨c, hc, rfl⟩ := List.mem_map.mp hl
        obtain ⟨d, hd, hclaimed⟩ := List.mem_filterMap.mp hc
        obtain ⟨hrow, hdel, -, -⟩ := claimRow_some hclaimed
        rw [hrows]
        refine ⟨_, mem_updateWhere_of_pos (Store.mem_chosen hd).1
          (List.any_eq_true.mpr ⟨d, hd, decide_eq_true rfl⟩), ?_⟩
        rw [hrow, hdel]
        exact ⟨rfl, rfl, rfl, rfl⟩
    · intro d hd tok ht
      rw [hrows] at hd
      obtain ⟨r, hr, rfl⟩ := mem_updateWhere.mp hd
      split at ht
      · rename_i hany
        rw [if_pos hany]
        have hmem := h.store.chosen_self hr hany
        cases hc : (s.store.claimRow token now leaseMs maxAttempts r).2 with
        | none =>
          obtain ⟨reason, hrow⟩ := claimRow_none hc
          rw [hrow] at ht
          cases ht
        | some c =>
          obtain ⟨hrow, hdel, -, -⟩ := claimRow_some hc
          rw [hrow] at ht ⊢
          have htok : token = tok := Option.some.inj ht
          refine ⟨⟨token, c.delivery.deliveryId, now + leaseMs⟩, List.mem_append_right _
            (List.mem_map.mpr ⟨c, List.mem_filterMap.mpr ⟨r, hmem, hc⟩, rfl⟩), htok, ?_⟩
          rw [hdel]
          exact ⟨rfl, rfl, rfl, rfl⟩
      · rename_i hkept
        rw [if_neg hkept]
        obtain ⟨l, hl, hcur⟩ := h.known r hr tok ht
        exact ⟨l, List.mem_append_left _ hl, hcur⟩
  | @completed id token o now d hd hid hstate htok hrows =>
    refine ⟨hstore, ?_, ?_, ?_, ?_⟩
    · exact fun l hl => hused l (List.mem_of_mem_filter hl)
    · exact h.leases.sublist (List.filter_sublist.map _)
    · intro l hl hexp
      obtain ⟨hl, hother⟩ := List.mem_filter.mp hl
      obtain ⟨r, hr, hcur⟩ := h.current l hl (Nat.lt_of_le_of_lt hclock hexp)
      rw [hrows]
      refine ⟨r, mem_updateWhere_of_not hr fun hsame => ?_, hcur⟩
      have hrid : r.deliveryId = id := by simpa using hsame
      have heq : r = d := eq_of_key h.store.ids hr hd (hrid.trans hid.symm)
      subst heq
      have htoken' : l.token = token := Option.some.inj (hcur.2.2.1.symm.trans htok)
      have hlid : l.deliveryId = id := hcur.1.symm.trans hid
      simp [htoken', hlid] at hother
    · intro r' hr' tok ht
      rw [hrows] at hr'
      obtain ⟨r, hr, rfl⟩ := mem_updateWhere.mp hr'
      split at ht
      · cases o <;> cases ht
      · rename_i hkept
        rw [if_neg hkept]
        obtain ⟨l, hl, hltok, hcur⟩ := h.known r hr tok ht
        refine ⟨l, List.mem_filter.mpr ⟨hl, ?_⟩, hltok, hcur⟩
        have hne : l.deliveryId ≠ id := by
          rw [← hcur.1]
          simpa using hkept
        simp [hne]
  | @redelivered owner id now reply d hd hid hstate hrows =>
    refine ⟨hstore, hused, h.leases, ?_, ?_⟩
    · intro l hl hexp
      obtain ⟨r, hr, hcur⟩ := h.current l hl (Nat.lt_of_le_of_lt hclock hexp)
      rw [hrows]
      refine ⟨r, mem_updateWhere_of_not hr fun hsame => ?_, hcur⟩
      have hrid : r.deliveryId = id := by simpa using hsame
      have heq : r = d := eq_of_key h.store.ids hr hd (hrid.trans hid.symm)
      subst heq
      exact hstate hcur.2.1
    · intro r' hr' tok ht
      rw [hrows] at hr'
      obtain ⟨r, hr, rfl⟩ := mem_updateWhere.mp hr'
      split at ht
      · cases ht
      · rename_i hkept
        rw [if_neg hkept]
        exact h.known r hr tok ht

theorem sound_initial : initial.Sound where
  store := ⟨List.nodup_nil, List.nodup_nil, List.nodup_nil, List.nodup_nil, fun _ h => (nomatch h),
    fun _ h => (nomatch h), fun _ h => (nomatch h)⟩
  used := fun _ h => nomatch h
  leases := List.nodup_nil
  current := fun _ h => nomatch h
  known := fun _ h => nomatch h

end System

end ChainPay.Webhooks
