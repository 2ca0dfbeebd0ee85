import ChainPay.Webhooks.Outbox

/-!
What the outbox guarantees over whole runs: no event or delivery twice, rows in step with their
leases, one unexpired lease per delivery, and progress, since claiming at a time when a delivery is
due comes to it after finitely many claims.
-/

namespace ChainPay.Webhooks
open ChainPay.Lib

/-! ## Progress -/

instance : Std.Total Delivery.Before where
  total d e := by
    unfold Delivery.Before
    rcases Nat.lt_trichotomy d.nextAttemptAtMs e.nextAttemptAtMs with h | h | h
    · exact .inl (.inl h)
    · rcases le_total d.deliveryId e.deliveryId with hid | hid
      · exact .inl (.inr ⟨h, hid⟩)
      · exact .inr (.inr ⟨h.symm, hid⟩)
    · exact .inr (.inl h)

instance : IsTrans Delivery Delivery.Before where
  trans d e f hde hef := by
    unfold Delivery.Before at *
    rcases hde with h | ⟨h, hid⟩
    · rcases hef with h' | ⟨h', -⟩
      · exact .inl (Nat.lt_trans h h')
      · exact .inl (h' ▸ h)
    · rcases hef with h' | ⟨h', hid'⟩
      · exact .inl (h ▸ h')
      · exact .inr ⟨h.trans h', hid.trans hid'⟩

namespace Store

/-- `n` claims at one time, each with its own token. -/
def claims (now limit leaseMs maxAttempts : Nat) : (Nat → String) → Nat → Store → Store
  | _, 0, s => s
  | tokens, n + 1, s =>
    claims now limit leaseMs maxAttempts (fun k => tokens (k + 1)) n
      (s.claim now limit leaseMs (tokens 0) maxAttempts).1

variable {s : Store} {now limit leaseMs maxAttempts : Nat}

/-- The due rows before a row. -/
def ahead (s : Store) (now : Nat) (d : Delivery) : Nat :=
  s.deliveries.countP fun e => e.isDue now && decide (e.Before d ∧ e.deliveryId ≠ d.deliveryId)

/-- A due row that is not taken has a taken row before it. -/
theorem chosen_before (h : s.Sound) {d : Delivery} (hd : d ∈ s.deliveries)
    (hdue : d.isDue now = true) (hlimit : 0 < limit) (hnot : d ∉ s.chosen now limit) :
    ∃ e ∈ s.chosen now limit, e.Before d ∧ e.deliveryId ≠ d.deliveryId := by
  unfold chosen at hnot ⊢
  have hsorted := List.pairwise_insertionSort Delivery.Before
    (s.deliveries.filter fun d => d.isDue now)
  have hmem : d ∈ (s.deliveries.filter fun d => d.isDue now).insertionSort Delivery.Before :=
    (List.mem_insertionSort _).mpr (List.mem_filter.mpr ⟨hd, hdue⟩)
  have hrows : ∀ e ∈ (s.deliveries.filter fun d => d.isDue now).insertionSort Delivery.Before,
      e ∈ s.deliveries :=
    fun e he => List.mem_of_mem_filter ((List.mem_insertionSort _).mp he)
  generalize (s.deliveries.filter fun d => d.isDue now).insertionSort Delivery.Before = rows
    at hnot hsorted hmem hrows ⊢
  cases rows with
  | nil => cases hmem
  | cons e rows =>
    obtain ⟨n, rfl⟩ : ∃ n, limit = n + 1 := ⟨limit - 1, by omega⟩
    rw [List.take_succ_cons] at hnot ⊢
    have hne : d ≠ e := fun heq => hnot (heq ▸ List.mem_cons_self ..)
    have hrest : d ∈ rows := (List.mem_cons.mp hmem).resolve_left hne
    refine ⟨e, List.mem_cons_self .., (List.pairwise_cons.mp hsorted).1 d hrest, fun hid => ?_⟩
    exact hne (eq_of_key h.ids hd (hrows e (List.mem_cons_self ..)) hid.symm)

/-- A taken row is not due any more. -/
theorem claimRow_not_due {token : String} {d : Delivery} (hlease : 0 < leaseMs) :
    ¬ (s.claimRow token now leaseMs maxAttempts d).1.isDue now = true := by
  intro hdue
  obtain ⟨hopen, hnext⟩ := Delivery.isDue_open hdue
  cases hc : (s.claimRow token now leaseMs maxAttempts d).2 with
  | none =>
    obtain ⟨reason, hrow⟩ := System.claimRow_none hc
    rw [hrow] at hopen
    rcases hopen with h | h | h <;> cases h
  | some c =>
    obtain ⟨hrow, -⟩ := System.claimRow_some hc
    rw [hrow] at hnext
    have hle : now + leaseMs ≤ now := hnext
    omega

/-- A claim that does not take a due row leaves it, and fewer rows before it. -/
theorem claim_ahead (h : s.Sound) {d : Delivery} (hd : d ∈ s.deliveries)
    (hdue : d.isDue now = true) (hlease : 0 < leaseMs) (token : String)
    (hnot : d ∉ s.chosen now (clamp 1 50 limit)) :
    d ∈ (s.claim now limit leaseMs token maxAttempts).1.deliveries ∧
      (s.claim now limit leaseMs token maxAttempts).1.ahead now d < s.ahead now d := by
  refine ⟨mem_updateWhere_of_not hd fun hany => hnot (h.chosen_self hd hany), ?_⟩
  obtain ⟨e, he, hbefore, hne⟩ := chosen_before h hd hdue (by simp [clamp]) hnot
  obtain ⟨hemem, hedue⟩ := mem_chosen he
  have hany : ((s.chosen now (clamp 1 50 limit)).any fun r => r.deliveryId = e.deliveryId) = true :=
    List.any_eq_true.mpr ⟨e, he, decide_eq_true rfl⟩
  unfold ahead claim claimRows
  dsimp only
  rw [updateWhere, List.countP_map]
  refine countP_lt hemem ?_ (by simp [hedue, hbefore, hne]) ?_
  · intro r _ hr
    dsimp only [Function.comp_apply] at hr
    split at hr
    · simp [Bool.eq_false_of_not_eq_true (claimRow_not_due hlease)] at hr
    · exact hr
  · dsimp only [Function.comp_apply]
    rw [if_pos hany]
    simp [Bool.eq_false_of_not_eq_true (claimRow_not_due hlease)]

/-- **Claims come to every due row.** -/
theorem claims_take (h : s.Sound) {d : Delivery} (hd : d ∈ s.deliveries)
    (hdue : d.isDue now = true) (hlease : 0 < leaseMs) (tokens : Nat → String) :
    ∃ n, (claims now limit leaseMs maxAttempts tokens n s).Sound ∧
      d ∈ (claims now limit leaseMs maxAttempts tokens n s).chosen now (clamp 1 50 limit) ∧
      (claims now limit leaseMs maxAttempts tokens n s).subscriptions = s.subscriptions := by
  induction hm : s.ahead now d using Nat.strong_induction_on generalizing s tokens with
  | _ m ih =>
    by_cases hin : d ∈ s.chosen now (clamp 1 50 limit)
    · exact ⟨0, h, hin, rfl⟩
    · obtain ⟨hkept, hless⟩ := claim_ahead h hd hdue hlease (tokens 0) hin
      have hsound := (h.call (.claim now limit leaseMs (tokens 0) maxAttempts)).1
      obtain ⟨n, hs, hchosen, hsubs⟩ :=
        ih _ (hm ▸ hless) hsound hkept (fun k => tokens (k + 1)) rfl
      exact ⟨n + 1, hs, hchosen, hsubs⟩

/-- Which of the due rows a claim leases, and that it closes the others. -/
theorem Sound.claim_taken (h : s.Sound) {token : String} {d : Delivery}
    (hd : d ∈ s.chosen now (clamp 1 50 limit)) :
    if s.active d.subscriptionId ∧ d.attempts < maxAttempts then
      d.applyClaim token now leaseMs ∈
        (s.claim now limit leaseMs token maxAttempts).2.map (·.delivery)
    else ∃ reason, d.applyExhaust reason now ∈
      (s.claim now limit leaseMs token maxAttempts).1.deliveries := by
  obtain ⟨hmem, -⟩ := mem_chosen hd
  have hrow : (s.claimRow token now leaseMs maxAttempts d).1 ∈
      (s.claim now limit leaseMs token maxAttempts).1.deliveries :=
    mem_updateWhere_of_pos hmem (List.any_eq_true.mpr ⟨d, hd, decide_eq_true rfl⟩)
  cases hc : (s.claimRow token now leaseMs maxAttempts d).2 with
  | some c =>
    obtain ⟨-, hdel, hactive, hless⟩ := System.claimRow_some hc
    rw [if_pos ⟨hactive, hless⟩]
    exact List.mem_map.mpr ⟨c, List.mem_filterMap.mpr ⟨d, hd, hc⟩, hdel⟩
  | none =>
    obtain ⟨reason, hex⟩ := System.claimRow_none hc
    -- an active endpoint below the limit is leased: its event and its row are there
    have hnot : ¬ (s.active d.subscriptionId = true ∧ d.attempts < maxAttempts) := by
      rintro ⟨hactive, hless⟩
      obtain ⟨e, he⟩ := Option.isSome_iff_exists.mp (h.event_isSome hmem)
      obtain ⟨x, hx, hid, -⟩ := h.endpoints d hmem
      have hfound := h.subscription_eq hx
      rw [hid] at hfound
      have haction : claimAction d (s.active d.subscriptionId) maxAttempts = .claim := by
        rw [claimAction, hactive, if_neg (by simp), if_neg (by omega)]
      simp [claimRow, haction, hfound, he] at hc
    rw [if_neg hnot]
    rw [hex] at hrow
    exact ⟨reason, hrow⟩

/-! ## Attempts -/

theorem Sound.call_attempts (h : s.Sound) {op : Op} {M : Nat} (hM : op.maxAttempts ≤ M)
    (hall : ∀ d ∈ s.deliveries, d.attempts ≤ M) :
    ∀ d ∈ (s.call op).1.deliveries, d.attempts ≤ M := by
  obtain ⟨-, heffect⟩ := h.call op
  generalize hcall : s.call op = result at heffect
  obtain ⟨st, reply⟩ := result
  dsimp only at heffect ⊢
  cases heffect with
  | grown ds hgrown hfresh hclaim hcomplete =>
    intro d hd
    rw [hgrown] at hd
    rcases List.mem_append.mp hd with hd | hd
    · exact hall d hd
    · obtain ⟨e, x, -, -, -, rfl⟩ := hfresh d hd
      exact Nat.zero_le _
  | disabled hrows =>
    rw [hrows]
    exact forall_updateWhere hall fun d hd _ => hall d hd
  | @claimed now limit leaseMs maxAttempts token hrows =>
    rw [hrows]
    refine forall_updateWhere hall fun d hd _ => ?_
    cases hc : (s.claimRow token now leaseMs maxAttempts d).2 with
    | none =>
      obtain ⟨reason, hrow⟩ := System.claimRow_none hc
      rw [hrow]
      exact hall d hd
    | some c =>
      obtain ⟨hrow, -, -, hless⟩ := System.claimRow_some hc
      rw [hrow]
      exact Nat.le_trans hless hM
  | @completed id token o now d hd hid hstate htoken hrows =>
    rw [hrows]
    refine forall_updateWhere hall fun r hr _ => ?_
    cases o <;> exact hall r hr
  | redelivered hd hid hstate hrows =>
    rw [hrows]
    exact forall_updateWhere hall fun r hr _ => Nat.zero_le _

/-! ## Endpoints that were disabled -/

/-- The endpoint is there and disabled. -/
def Off (s : Store) (id : String) : Prop :=
  ∃ x ∈ s.subscriptions, x.subscriptionId = id ∧ x.status = .disabled

theorem emitAll_subscriptions (p : Event → Bool) (es : List Event) (s : Store) :
    (emitAll p es s).1.subscriptions = s.subscriptions := by
  induction es generalizing s with
  | nil => rfl
  | cons e es ih =>
    unfold emitAll
    by_cases hp : p e = true
    · rw [if_pos hp]
      have hone : (s.emit e).1.subscriptions = s.subscriptions := by
        unfold emit
        split
        · rfl
        · rfl
      exact (ih _).trans hone
    · rw [if_neg hp]
      exact ih s

/-- Nothing enables an endpoint again. -/
theorem Off.call {id : String} (h : s.Off id) (op : Op) : (s.call op).1.Off id := by
  obtain ⟨x, hx, hid, hoff⟩ := h
  cases op with
  | createSubscription y maxActive =>
    dsimp only [Store.call, createSubscription]
    split
    · exact ⟨x, hx, hid, hoff⟩
    · exact ⟨x, List.mem_append_left _ hx, hid, hoff⟩
  | disable owner i now =>
    dsimp only [Store.call, disable]
    split
    · exact ⟨x, hx, hid, hoff⟩
    · have hsame : Subscription.disable x now = x := by
        simp [Subscription.disable, hoff]
      by_cases hi : x.subscriptionId = i
      · refine ⟨x, ?_, hid, hoff⟩
        have hmem := mem_updateWhere_of_pos (p := fun y : Subscription => y.subscriptionId = i)
          (f := fun y => Subscription.disable y now) hx (decide_eq_true hi)
        rwa [hsame] at hmem
      · exact ⟨x, mem_updateWhere_of_not hx (by simpa using hi), hid, hoff⟩
  | rotateSecrets owner i secrets now =>
    dsimp only [Store.call, rotateSecrets]
    split
    · exact ⟨x, hx, hid, hoff⟩
    · by_cases hi : x.subscriptionId = i
      · exact ⟨{ x with secrets, updatedAtMs := now },
          mem_updateWhere_of_pos hx (decide_eq_true hi), hid, hoff⟩
      · exact ⟨x, mem_updateWhere_of_not hx (by simpa using hi), hid, hoff⟩
  | putPayment r events =>
    dsimp only [Store.call, putPayment]
    split
    · exact ⟨x, hx, hid, hoff⟩
    · unfold Off
      rw [emitAll_subscriptions]
      exact ⟨x, hx, hid, hoff⟩
  | putTransaction r events =>
    unfold Off
    dsimp only [Store.call, putTransaction]
    rw [emitAll_subscriptions]
    exact ⟨x, hx, hid, hoff⟩
  | emit events =>
    unfold Off
    dsimp only [Store.call]
    rw [emitAll_subscriptions]
    exact ⟨x, hx, hid, hoff⟩
  | complete i token o now =>
    dsimp only [Store.call, complete]
    split
    · exact ⟨x, hx, hid, hoff⟩
    · exact ⟨x, hx, hid, hoff⟩
  | redeliver owner i now =>
    dsimp only [Store.call, redeliver]
    split
    · exact ⟨x, hx, hid, hoff⟩
    · split
      · exact ⟨x, hx, hid, hoff⟩
      · split
        · exact ⟨x, hx, hid, hoff⟩
        · exact ⟨x, hx, hid, hoff⟩
  | listSubscriptions => exact ⟨x, hx, hid, hoff⟩
  | getSubscription => exact ⟨x, hx, hid, hoff⟩
  | missingEvents => exact ⟨x, hx, hid, hoff⟩
  | getEvent => exact ⟨x, hx, hid, hoff⟩
  | claim => exact ⟨x, hx, hid, hoff⟩
  | listDeliveries => exact ⟨x, hx, hid, hoff⟩
  | listConfirmedPayments => exact ⟨x, hx, hid, hoff⟩
  | listConfirmedTransactions => exact ⟨x, hx, hid, hoff⟩

theorem Off.inactive (hs : s.Sound) {id : String} (h : s.Off id) : s.active id = false := by
  obtain ⟨x, hx, rfl, hoff⟩ := h
  rw [active, hs.subscription_eq hx]
  simp [hoff]

/-- What a claim hands out: a delivery of an active endpoint, within its attempts. -/
theorem claim_active {token : String} {c : ClaimedDelivery}
    (h : c ∈ (s.claim now limit leaseMs token maxAttempts).2) :
    s.active c.delivery.subscriptionId = true ∧ c.delivery.attempts ≤ maxAttempts := by
  obtain ⟨d, -, hc⟩ := List.mem_filterMap.mp h
  obtain ⟨-, hdel, hactive, hless⟩ := System.claimRow_some hc
  rw [hdel]
  exact ⟨hactive, hless⟩

end Store

/-! ## Whole runs -/

namespace System

theorem sound_after (ops : List Op) : (Runs.after step initial ops).Sound :=
  Runs.after_inv (fun _ _ _ _ h hi => hi.step h) (Runs.along_true _ ops) sound_initial

/-- A call of a run, on the store. -/
theorem step_store {s s' : System} {op : Op} (h : s.step op = .ok s') :
    s'.store = (s.store.call op).1 := by
  simp only [step, bind_eq_ok, pure_eq_ok] at h
  obtain ⟨-, -, -, -, rfl⟩ := h
  rfl

/-- The most attempts that the claims of a run allow. -/
def attemptLimit : List Op → Nat
  | [] => 0
  | op :: ops => max op.maxAttempts (attemptLimit ops)

theorem maxAttempts_le {op : Op} {ops : List Op} (h : op ∈ ops) :
    op.maxAttempts ≤ attemptLimit ops := by
  induction ops with
  | nil => cases h
  | cons x ops ih =>
    rcases List.mem_cons.mp h with rfl | h
    · exact Nat.le_max_left ..
    · exact Nat.le_trans (ih h) (Nat.le_max_right ..)

theorem attempts_after (ops : List Op) :
    ∀ d ∈ (Runs.after step initial ops).store.deliveries, d.attempts ≤ attemptLimit ops := by
  have hall := Runs.after_inv (I := fun s : System =>
      s.Sound ∧ ∀ d ∈ s.store.deliveries, d.attempts ≤ attemptLimit ops)
    (fun s op s' hop hstep hi => ⟨hi.1.step hstep, by
      rw [step_store hstep]
      exact hi.1.store.call_attempts hop hi.2⟩)
    (Runs.along_of_calls fun op hop => maxAttempts_le hop)
    ⟨sound_initial, fun _ hd => nomatch hd⟩
  exact hall.2

/-- An outcome was written on the row. -/
def Recorded (d d' : Delivery) : Prop :=
  d'.lastStatus ≠ d.lastStatus ∨ (d'.state = .delivered ∧ d.state ≠ .delivered)

/-- What each call of a run keeps to: deliveries are created for endpoints that are active then, a
claim hands out deliveries of active endpoints within its attempts, and an outcome is recorded for
the holder of the lease on the row. -/
structure Kept (s : System) (op : Op) (s' : System) : Prop where
  created : ∀ d ∈ s'.store.deliveries, (∀ e ∈ s.store.deliveries, e.deliveryId ≠ d.deliveryId) →
    ∃ x ∈ s.store.subscriptions, x.subscriptionId = d.subscriptionId ∧ x.status = .active
  claimed : ∀ ds, (s.store.call op).2 = .claimed ds → ∀ c ∈ ds,
    s.store.active c.delivery.subscriptionId = true ∧ c.delivery.attempts ≤ op.maxAttempts
  recorded : ∀ d ∈ s.store.deliveries, ∀ d' ∈ s'.store.deliveries, d'.deliveryId = d.deliveryId →
    Recorded d d' → ∃ token o now, op = .complete d.deliveryId token o now ∧
      ∃ l ∈ s.held, l.token = token ∧ l.Current d

variable {s s' : System} {op : Op}

/-- Only a claim hands out deliveries. -/
theorem call_claimed {st : Store} {ds : List ClaimedDelivery} (h : (st.call op).2 = .claimed ds) :
    ∃ now limit leaseMs token maxAttempts, op = .claim now limit leaseMs token maxAttempts ∧
      ds = (st.claim now limit leaseMs token maxAttempts).2 := by
  cases op with
  | claim now limit leaseMs token maxAttempts =>
    exact ⟨now, limit, leaseMs, token, maxAttempts, rfl, (Reply.claimed.inj h).symm⟩
  | createSubscription => cases h
  | listSubscriptions => cases h
  | getSubscription => cases h
  | disable => cases h
  | rotateSecrets => cases h
  | putPayment => cases h
  | putTransaction => cases h
  | emit => cases h
  | missingEvents => cases h
  | getEvent => cases h
  | complete => cases h
  | listDeliveries => cases h
  | redeliver => cases h
  | listConfirmedPayments => cases h
  | listConfirmedTransactions => cases h

theorem claimRow_id {st : Store} {token : String} {now leaseMs maxAttempts : Nat} (d : Delivery) :
    (st.claimRow token now leaseMs maxAttempts d).1.deliveryId = d.deliveryId := by
  cases hc : (st.claimRow token now leaseMs maxAttempts d).2 with
  | none =>
    obtain ⟨reason, hrow⟩ := claimRow_none hc
    rw [hrow]
    rfl
  | some c =>
    obtain ⟨hrow, -⟩ := claimRow_some hc
    rw [hrow]
    rfl

/-- A row function that writes no outcome. -/
theorem not_recorded {d d' : Delivery} (hstatus : d'.lastStatus = d.lastStatus)
    (hstate : d'.state = .delivered → d.state = .delivered) : ¬ Recorded d d' := by
  rintro (h | ⟨h, hn⟩)
  · exact h hstatus
  · exact hn (hstate h)

theorem exhaust_not_recorded {d : Delivery} {reason : String} {now : Nat} :
    ¬ Recorded d (d.applyExhaust reason now) :=
  not_recorded rfl fun hs => nomatch hs

theorem claim_not_recorded {d : Delivery} {token : String} {now leaseMs : Nat} :
    ¬ Recorded d (d.applyClaim token now leaseMs) :=
  not_recorded rfl fun hs => nomatch hs

theorem redeliver_not_recorded {d : Delivery} {now : Nat} : ¬ Recorded d (d.applyRedeliver now) :=
  not_recorded rfl fun hs => nomatch hs

theorem Sound.kept (h : s.Sound) (hstep : s.step op = .ok s') : Kept s op s' := by
  have hstore := step_store hstep
  obtain ⟨-, heffect⟩ := h.store.call op
  rw [← hstore] at heffect
  -- a row that a rewriting leaves without an outcome
  have hrows : ∀ (p : Delivery → Bool) (f : Delivery → Delivery),
      s'.store.deliveries = updateWhere p f s.store.deliveries →
      (∀ d, (f d).deliveryId = d.deliveryId) → ∀ d ∈ s.store.deliveries,
      ∀ d' ∈ s'.store.deliveries, d'.deliveryId = d.deliveryId →
        d' = if p d then f d else d := by
    intro p f hw hkeys d hd d' hd' hid
    rw [hw] at hd'
    obtain ⟨r, hr, rfl⟩ := mem_updateWhere.mp hd'
    have hrid : r.deliveryId = d.deliveryId := by
      rw [← hid]
      split
      · exact (hkeys r).symm
      · rfl
    rw [eq_of_key h.store.ids hr hd hrid]
  have hold : ∀ (p : Delivery → Bool) (f : Delivery → Delivery),
      s'.store.deliveries = updateWhere p f s.store.deliveries →
      (∀ d, (f d).deliveryId = d.deliveryId) → ∀ d' ∈ s'.store.deliveries,
      ∃ d ∈ s.store.deliveries, d.deliveryId = d'.deliveryId := by
    intro p f hw hkeys d' hd'
    rw [hw] at hd'
    obtain ⟨r, hr, rfl⟩ := mem_updateWhere.mp hd'
    refine ⟨r, hr, ?_⟩
    split
    · exact (hkeys r).symm
    · rfl
  have hclaimed : ∀ ds, (s.store.call op).2 = .claimed ds → ∀ c ∈ ds,
      s.store.active c.delivery.subscriptionId = true ∧ c.delivery.attempts ≤ op.maxAttempts := by
    intro ds hds c hc
    obtain ⟨now, limit, leaseMs, token, maxAttempts, rfl, rfl⟩ := call_claimed hds
    exact Store.claim_active hc
  refine ⟨?_, hclaimed, ?_⟩
  · intro d hd hnew
    generalize (s.store.call op).2 = reply at heffect
    cases heffect with
    | grown ds hgrown hfresh hclaim hcomplete =>
      rw [hgrown] at hd
      rcases List.mem_append.mp hd with hd | hd
      · exact (hnew d hd rfl).elim
      · obtain ⟨e, x, hx, hactive, -, rfl⟩ := hfresh d hd
        exact ⟨x, hx, rfl, hactive⟩
    | disabled hw =>
      obtain ⟨r, hr, hid⟩ := hold _ _ hw (fun _ => rfl) d hd
      exact (hnew r hr hid).elim
    | claimed hw =>
      obtain ⟨r, hr, hid⟩ := hold _ _ hw claimRow_id d hd
      exact (hnew r hr hid).elim
    | @completed id token o now q hq hid hstate htok hw =>
      obtain ⟨r, hr, hid⟩ := hold _ _ hw (fun x => by cases o <;> rfl) d hd
      exact (hnew r hr hid).elim
    | redelivered hq hid hstate hw =>
      obtain ⟨r, hr, hid⟩ := hold _ _ hw (fun _ => rfl) d hd
      exact (hnew r hr hid).elim
  · intro d hd d' hd' hid hrec
    generalize (s.store.call op).2 = reply at heffect
    cases heffect with
    | grown ds hgrown hfresh hclaim hcomplete =>
      -- the row is the one that was there: the ids of the new ones are new
      have hsound := (h.step hstep).store
      have hmem : d ∈ s'.store.deliveries := by
        rw [hgrown]
        exact List.mem_append_left _ hd
      have heq : d' = d := eq_of_key hsound.ids hd' hmem hid
      subst heq
      exact (not_recorded rfl (fun hs => hs) hrec).elim
    | disabled hw =>
      have heq := hrows _ _ hw (fun _ => rfl) d hd d' hd' hid
      subst heq
      split at hrec
      · exact (exhaust_not_recorded hrec).elim
      · exact (not_recorded rfl (fun hs => hs) hrec).elim
    | @claimed now limit leaseMs maxAttempts token hw =>
      have heq := hrows _ _ hw claimRow_id d hd d' hd' hid
      subst heq
      split at hrec
      · cases hc : (s.store.claimRow token now leaseMs maxAttempts d).2 with
        | none =>
          obtain ⟨reason, hrow⟩ := claimRow_none hc
          rw [hrow] at hrec
          exact (exhaust_not_recorded hrec).elim
        | some c =>
          obtain ⟨hrow, -⟩ := claimRow_some hc
          rw [hrow] at hrec
          exact (claim_not_recorded hrec).elim
      · exact (not_recorded rfl (fun hs => hs) hrec).elim
    | @completed id token o now q hq hqid hstate htok hw =>
      have heq := hrows _ _ hw (fun x => by cases o <;> rfl) d hd d' hd' hid
      subst heq
      split at hrec
      · rename_i hsame
        have hdid : d.deliveryId = id := by simpa using hsame
        have heq : d = q := eq_of_key h.store.ids hd hq (hdid.trans hqid.symm)
        subst heq
        obtain ⟨l, hl, hltok, hcur⟩ := h.known d hd token htok
        exact ⟨token, o, now, by rw [hdid], l, hl, hltok, hcur⟩
      · exact (not_recorded rfl (fun hs => hs) hrec).elim
    | redelivered hq hqid hstate hw =>
      have heq := hrows _ _ hw (fun _ => rfl) d hd d' hd' hid
      subst heq
      split at hrec
      · exact (redeliver_not_recorded hrec).elim
      · exact (not_recorded rfl (fun hs => hs) hrec).elim

/-- Two unexpired leases on one delivery are the same lease. -/
theorem Sound.one_holder (h : s.Sound) {l l' : Lease} (hl : l ∈ s.held) (hl' : l' ∈ s.held)
    (hid : l.deliveryId = l'.deliveryId) (hexp : s.clock < l.expiresAtMs)
    (hexp' : s.clock < l'.expiresAtMs) : l = l' := by
  obtain ⟨d, hd, hcur⟩ := h.current l hl hexp
  obtain ⟨d', hd', hcur'⟩ := h.current l' hl' hexp'
  have heq : d = d' := eq_of_key h.store.ids hd hd' (hcur.1.trans (hid.trans hcur'.1.symm))
  subst heq
  have htoken : l.token = l'.token := Option.some.inj (hcur.2.2.1.symm.trans hcur'.2.2.1)
  exact eq_of_key h.leases hl hl' (Prod.ext htoken hid)

/-- An endpoint that was disabled stays so, and nothing of it is claimed again. -/
theorem off_never_claimed {ops : List Op} {id : String}
    (h : (Runs.after step initial ops).store.Off id) (later : List Op)
    (now limit leaseMs maxAttempts : Nat) (token : String) :
    ∀ c ∈ ((Runs.after step initial (ops ++ later)).store.claim now limit leaseMs token
      maxAttempts).2, c.delivery.subscriptionId ≠ id := by
  intro c hc hid
  obtain ⟨hactive, -⟩ := Store.claim_active hc
  have hoff : (Runs.after step initial (ops ++ later)).store.Off id := by
    rw [Runs.after_append]
    refine Runs.after_inv (I := fun s : System => s.store.Off id) (fun s op s' _ hstep hi => ?_)
      (Runs.along_true _ later) h
    rw [step_store hstep]
    exact hi.call op
  rw [hid, hoff.inactive (sound_after _).store] at hactive
  cases hactive

/-- One delivery per event and subscription. -/
theorem Sound.one_delivery {st : Store} (h : st.Sound) :
    (st.deliveries.map fun d => (d.eventId, d.subscriptionId)).Nodup := by
  have hinj : ∀ d ∈ st.deliveries, ∀ e ∈ st.deliveries,
      (d.eventId, d.subscriptionId) = (e.eventId, e.subscriptionId) → d = e := by
    intro d hd e he hde
    obtain ⟨hev, hsub⟩ := Prod.mk.inj hde
    refine eq_of_key h.ids hd he ?_
    rw [(h.rows d hd).id, (h.rows e he).id, hev, hsub]
  exact (List.Nodup.of_map _ h.ids).map_on hinj

end System

/-- **The outbox over any run.** Calls in any order, with new lease tokens and a clock that does not
run backwards: one event per receipt, type and version and one delivery per event and subscription,
rows in step with their leases, attempts within the limit, one unexpired lease per delivery, every
call as `Kept` says; and whenever claims are made at a time when an open delivery is due, they come
to it: it is leased if its endpoint is active and it has attempts left, and closed otherwise. -/
theorem outbox_invariant (ops : List Op) :
    let s := Runs.after System.step System.initial ops
    (s.store.events.map fun e => (e.receiptAddress, e.eventType, e.version)).Nodup ∧
    (s.store.deliveries.map fun d => (d.eventId, d.subscriptionId)).Nodup ∧
    (∀ d ∈ s.store.deliveries, d.WellFormed ∧ d.attempts ≤ System.attemptLimit ops) ∧
    (∀ l ∈ s.held, ∀ l' ∈ s.held, l.deliveryId = l'.deliveryId → s.clock < l.expiresAtMs →
      s.clock < l'.expiresAtMs → l = l') ∧
    Runs.Along System.step System.Kept System.initial ops ∧
    ∀ d ∈ s.store.deliveries, d.Open → ∀ now limit leaseMs maxAttempts tokens,
      d.nextAttemptAtMs ≤ now → 0 < leaseMs → ∃ n,
        let st := Store.claims now limit leaseMs maxAttempts tokens n s.store
        if s.store.active d.subscriptionId ∧ d.attempts < maxAttempts then
          d.applyClaim (tokens n) now leaseMs ∈
            (st.claim now limit leaseMs (tokens n) maxAttempts).2.map (·.delivery)
        else ∃ reason, d.applyExhaust reason now ∈
          (st.claim now limit leaseMs (tokens n) maxAttempts).1.deliveries := by
  intro s
  have hs : s.Sound := System.sound_after ops
  have hkept : Runs.Along System.step System.Kept System.initial ops :=
    Runs.along_of_inv (fun _ _ _ hstep hi => ⟨hi.step hstep, hi.kept hstep⟩) ops
      System.sound_initial
  refine ⟨hs.store.eventKeys, System.Sound.one_delivery hs.store,
    fun d hd => ⟨hs.store.rows d hd, System.attempts_after ops d hd⟩,
    fun l hl l' hl' hid => hs.one_holder hl hl' hid, hkept, ?_⟩
  intro d hd hopen now limit leaseMs maxAttempts tokens hnext hlease
  have hdue : d.isDue now = true := by simp [Delivery.isDue, hopen, hnext]
  obtain ⟨n, hsound, hchosen, hsubs⟩ := Store.claims_take hs.store hd hdue hlease tokens
  refine ⟨n, ?_⟩
  have hactive : s.store.active d.subscriptionId =
      (Store.claims now limit leaseMs maxAttempts tokens n s.store).active d.subscriptionId := by
    unfold Store.active Store.subscription
    rw [hsubs]
  rw [hactive]
  exact hsound.claim_taken hchosen

/-- A disabled endpoint's delivery that was being sent stays open, and is claimed by nobody again:
the claim that comes to it closes it. -/
theorem open_never_claimed :
    ∃ ops : List Op, ∃ d ∈ (Runs.after System.step System.initial ops).store.deliveries, d.Open ∧
      ∀ later now limit leaseMs maxAttempts token,
        ∀ c ∈ ((Runs.after System.step System.initial (ops ++ later)).store.claim now limit leaseMs
          token maxAttempts).2, c.delivery.subscriptionId ≠ d.subscriptionId := by
  let x : Subscription := ⟨"whk_1", "owner", "https://example.com", none, .active, "", 0, 0⟩
  let e : Event := ⟨"evt_1", "owner", "payment.confirmed", 1, "receipt", "body", 1, 1⟩
  let ops : List Op := [.createSubscription x 5, .emit [e], .claim 1 1 10 "t" 8,
    .disable "owner" "whk_1" 2]
  let d : Delivery := (newDelivery e "whk_1" 1).applyClaim "t" 1 10
  have hstore : (Runs.after System.step System.initial ops).store =
      ⟨[{ x with status := .disabled, updatedAtMs := 2 }], [e], [d], [], []⟩ := by
    decide
  have hoff : (Runs.after System.step System.initial ops).store.Off "whk_1" := by
    rw [hstore]
    exact ⟨_, List.mem_singleton_self _, rfl, rfl⟩
  refine ⟨ops, d, ?_, .inr (.inr rfl), ?_⟩
  · rw [hstore]
    exact List.mem_singleton_self d
  · intro later now limit leaseMs maxAttempts token
    exact System.off_never_claimed hoff later now limit leaseMs maxAttempts token

end ChainPay.Webhooks
