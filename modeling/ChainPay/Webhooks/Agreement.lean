import ChainPay.Lib.Ranked
import ChainPay.Webhooks.Convex
import ChainPay.Webhooks.Progress
import Mathlib.Data.Prod.Lex

/-!
The two outboxes side by side. They hold the same rows, in the order each keeps them, and answer
the same as long as a call passes Convex's argument checks, no tie decides an order, and no scan is
cut off (`Plain`).
-/

namespace ChainPay.Webhooks
open ChainPay.Lib

/-! ## When the two agree -/

/-- The rows of a state that are due. -/
def Store.due (s : Store) (now : Nat) (state : DeliveryState) : List Delivery :=
  s.deliveries.filter fun d => d.state = state && d.nextAttemptAtMs ≤ now

/-- The rows of a reconcile window. -/
def window (rows : List Record) (since before : Nat) : List Record :=
  rows.filter fun r => since ≤ r.updatedAtMs && r.updatedAtMs < before

/-- The confirmed rows of a window are not more than a scan looks at, and have different times. -/
structure PlainWindow (rows : List Record) (since before limit : Nat) : Prop where
  bottom : Convex.sorted since = .ok since
  top : Convex.sorted before = .ok before
  page : Convex.safeNumber limit = .ok limit
  scanned : (window rows since before).length ≤ 5000
  times : (((window rows since before).filter fun r => r.status = .confirmed).map
    (·.updatedAtMs)).Nodup

/-- The call passes the checks and meets no tie and no cut-off. -/
def Plain (m : Store) : Op → Prop
  | .createSubscription x maxActive =>
    Convex.wallet x.ownerWallet = .ok x.ownerWallet ∧
    (Convex.string x.url = .ok x.url ∧ "https://".toList.isPrefixOf x.url.toList = true ∧
      Convex.utf16Length x.url ≤ 2048) ∧
    Convex.label x.description = .ok x.description ∧ x.status = .active ∧
    Convex.id x.subscriptionId = .ok x.subscriptionId ∧
    Convex.validSecrets x.secrets = .ok x.secrets ∧
    Convex.safeNumber x.createdAtMs = .ok x.createdAtMs ∧
    Convex.safeNumber x.updatedAtMs = .ok x.updatedAtMs ∧
    Convex.safeNumber maxActive = .ok maxActive ∧
    ∀ y ∈ m.subscriptions, tail y.subscriptionId ≠ tail x.subscriptionId
  | .listSubscriptions owner =>
    Convex.wallet owner = .ok owner ∧ ((m.owned owner).map (·.createdAtMs)).Nodup
  | .getSubscription owner i => Convex.wallet owner = .ok owner ∧ Convex.id i = .ok i
  | .disable owner i now =>
    Convex.wallet owner = .ok owner ∧ Convex.id i = .ok i ∧ Convex.safeNumber now = .ok now ∧
    ∀ state ∈ [DeliveryState.pending, .retryScheduled],
      (m.deliveries.filter fun d => d.subscriptionId = i && d.state = state).length ≤ 1000
  | .rotateSecrets owner i secrets now =>
    Convex.wallet owner = .ok owner ∧ Convex.id i = .ok i ∧
    Convex.validSecrets secrets = .ok secrets ∧ Convex.safeNumber now = .ok now
  | .putPayment _ _ => False
  | .putTransaction _ _ => False
  | .emit events => Convex.parseEvents events = .ok events
  | .missingEvents ids => ids.length ≤ 200 ∧ ids.mapM Convex.id = .ok ids
  | .getEvent i => Convex.id i = .ok i
  | .claim now limit leaseMs token maxAttempts =>
    Convex.safeNumber now = .ok now ∧ Convex.safeNumber limit = .ok limit ∧
    Convex.safeNumber leaseMs = .ok leaseMs ∧ Convex.id token = .ok token ∧
    Convex.safeNumber maxAttempts = .ok maxAttempts ∧ now + leaseMs ≤ Convex.MAX_SAFE ∧
    ∀ state, (m.due now state).length ≤ Store.clamp 1 50 limit ∨
      ((m.due now state).map (·.nextAttemptAtMs)).Nodup
  | .complete i token outcome now =>
    Convex.id i = .ok i ∧ Convex.string token = .ok token ∧ Convex.safeNumber now = .ok now ∧
    Convex.checkOutcome outcome = .ok outcome
  | .listDeliveries owner i limit =>
    Convex.wallet owner = .ok owner ∧ Convex.id i = .ok i ∧ Convex.safeNumber limit = .ok limit ∧
    ((m.deliveries.filter fun d => d.subscriptionId = i).map (·.createdAtMs)).Nodup
  | .redeliver owner i now =>
    Convex.wallet owner = .ok owner ∧ Convex.id i = .ok i ∧ Convex.safeNumber now = .ok now
  | .listConfirmedPayments since before limit => PlainWindow m.payments since before limit
  | .listConfirmedTransactions since before limit => PlainWindow m.transactions since before limit

/-- The same rows; deliveries may stand in another order. -/
structure Mirrors (m c : Store) : Prop where
  subscriptions : c.subscriptions = m.subscriptions
  events : c.events = m.events
  deliveries : m.deliveries.Perm c.deliveries
  payments : c.payments = m.payments
  transactions : c.transactions = m.transactions

/-- What holds of every store that plain calls lead to. -/
structure Regular (m : Store) : Prop where
  sound : m.Sound
  few : ∀ owner, (m.owned owner).length ≤ MAX_SUBSCRIPTION_ROWS_PER_OWNER
  tails : (m.subscriptions.map fun x => tail x.subscriptionId).Nodup

variable {m c : Store}

namespace Mirrors

theorem subscription (h : Mirrors m c) (i : String) : c.subscription i = m.subscription i := by
  rw [Store.subscription, h.subscriptions, Store.subscription]

theorem event (h : Mirrors m c) (i : String) : c.event i = m.event i := by
  rw [Store.event, h.events, Store.event]

theorem active (h : Mirrors m c) (i : String) : c.active i = m.active i := by
  rw [Store.active, h.subscription, Store.active]

theorem owned (h : Mirrors m c) (owner : String) : c.owned owner = m.owned owner := by
  rw [Store.owned, h.subscriptions, Store.owned]

theorem delivery (h : Mirrors m c) (hm : m.Sound) (i : String) : c.delivery i = m.delivery i :=
  find?_perm hm.ids h.deliveries i

theorem duplicate (h : Mirrors m c) (e : Event) : c.duplicate e = m.duplicate e := by
  rw [Store.duplicate, h.event, h.events, Store.duplicate]

end Mirrors

/-! ## Emission -/

theorem deliveryId_inj {e a b : String} (h : deliveryId e a = deliveryId e b) : tail a = tail b := by
  have hlist := congrArg String.toList h
  simp only [deliveryId, String.toList_append, List.append_assoc] at hlist
  have hrest := List.append_cancel_left (List.append_cancel_left (List.append_cancel_left hlist))
  exact String.toList_inj.mp hrest

/-- The deliveries that an event adds, when its endpoints' ids lead to different ones. -/
theorem foldl_addDelivery {e : Event} {ids : List String} (hids : (ids.map tail).Nodup)
    (ds : List Delivery) :
    ids.foldl (Store.addDelivery e) ds =
      ds ++ (ids.filter fun i => !ds.any fun d => d.deliveryId = deliveryId e.eventId i).map
        fun i => newDelivery e i e.createdAtMs := by
  induction ids generalizing ds with
  | nil => simp
  | cons i ids ih =>
    obtain ⟨hnew, hrest⟩ := List.nodup_cons.mp hids
    have hid : (newDelivery e i e.createdAtMs).deliveryId = deliveryId e.eventId i := rfl
    rw [List.foldl_cons, ih hrest, Store.addDelivery]
    by_cases htaken : (ds.any fun d => d.deliveryId = deliveryId e.eventId i) = true
    · rw [hid, if_pos htaken, List.filter_cons_of_neg (by simpa using htaken)]
    · rw [hid, if_neg htaken, List.filter_cons_of_pos (by simpa using htaken), List.map_cons,
        List.append_assoc]
      -- the others have other ids
      have hothers : (ids.filter fun j => !(ds ++ [newDelivery e i e.createdAtMs]).any fun d =>
          d.deliveryId = deliveryId e.eventId j) =
          ids.filter fun j => !ds.any fun d => d.deliveryId = deliveryId e.eventId j := by
        refine List.filter_congr fun j hj => ?_
        have hne : deliveryId e.eventId i ≠ deliveryId e.eventId j := by
          intro heq
          exact hnew (deliveryId_inj heq ▸ List.mem_map_of_mem hj)
        simp [List.any_append, newDelivery, hne]
      rw [hothers]
      rfl

/-- The endpoints that receive an event, in the two orders. -/
theorem receivers_perm (hreg : Regular m) (h : Mirrors m c) (e : Event) :
    (m.receivers e).Perm (Convex.receivers c e) := by
  unfold Convex.receivers
  rw [h.owned]
  have hfew := hreg.few e.ownerWallet
  have hperm := byIndex_perm (·.createdAtMs)
    ((m.owned e.ownerWallet).filter fun x => x.createdAtMs ≤ e.occurredAtMs)
  have hlength : (byIndex (·.createdAtMs)
      ((m.owned e.ownerWallet).filter fun x => x.createdAtMs ≤ e.occurredAtMs)).length ≤ 100 := by
    rw [hperm.length_eq]
    have hle := List.length_filter_le (fun x : Subscription => x.createdAtMs ≤ e.occurredAtMs)
      (m.owned e.ownerWallet)
    rw [MAX_SUBSCRIPTION_ROWS_PER_OWNER] at hfew
    omega
  rw [List.take_of_length_le hlength]
  refine List.Perm.trans ?_ (hperm.filter _).symm
  unfold Store.receivers Store.owned
  rw [List.filter_filter, List.filter_filter]
  have hsame : ∀ x : Subscription, (decide (x.ownerWallet = e.ownerWallet) &&
      decide (x.status = .active) && decide (x.createdAtMs ≤ e.occurredAtMs)) =
      (decide (x.status = .active) && decide (x.createdAtMs ≤ e.occurredAtMs) &&
        decide (x.ownerWallet = e.ownerWallet)) := by
    intro x
    cases decide (x.ownerWallet = e.ownerWallet) <;> cases decide (x.status = .active) <;> simp
  simp only [hsame]
  exact List.Perm.refl _

theorem receivers_tails (hreg : Regular m) (e : Event) :
    (((m.receivers e).map (·.subscriptionId)).map tail).Nodup := by
  rw [List.map_map]
  exact hreg.tails.sublist (List.filter_sublist.map _)

/-- **One event.** -/
theorem emit_agrees (hreg : Regular m) (h : Mirrors m c) (e : Event) :
    (Convex.emitEvent c e).2 = (m.emit e).2 ∧ Mirrors (m.emit e).1 (Convex.emitEvent c e).1 := by
  unfold Convex.emitEvent Store.emit
  rw [h.duplicate]
  by_cases hdup : m.duplicate e = true
  · rw [if_pos hdup, if_pos hdup]
    exact ⟨rfl, h⟩
  · rw [if_neg hdup, if_neg hdup]
    refine ⟨rfl, ⟨h.subscriptions, ?_, ?_, h.payments, h.transactions⟩⟩
    · dsimp only
      rw [h.events]
    · dsimp only
      have hperm := (receivers_perm hreg h e).map (·.subscriptionId)
      rw [foldl_addDelivery (receivers_tails hreg e),
        foldl_addDelivery ((hperm.map tail).nodup (receivers_tails hreg e))]
      refine h.deliveries.append (List.Perm.map _ ?_)
      have hany : ∀ i, (c.deliveries.any fun d => d.deliveryId = deliveryId e.eventId i) =
          m.deliveries.any fun d => d.deliveryId = deliveryId e.eventId i :=
        fun i => (h.deliveries.any_eq).symm
      simp only [hany]
      exact hperm.filter _

/-! ## What plain calls keep -/

/-- A store with the same endpoints, as far as owners and ids go. -/
theorem Regular.of_endpoints {m' : Store} (h : Regular m) (hsound : m'.Sound)
    (hsame : m'.subscriptions.map (fun x => (x.ownerWallet, x.subscriptionId)) =
      m.subscriptions.map fun x => (x.ownerWallet, x.subscriptionId)) : Regular m' where
  sound := hsound
  few := by
    intro owner
    have hcount : ∀ s : Store, (s.owned owner).length =
        ((s.subscriptions.map fun x => (x.ownerWallet, x.subscriptionId)).filter
          fun p => p.1 = owner).length := by
      intro s
      rw [Store.owned, List.filter_map, List.length_map]
      rfl
    rw [hcount, hsame, ← hcount]
    exact h.few owner
  tails := by
    have htails : ∀ s : Store, s.subscriptions.map (fun x => tail x.subscriptionId) =
        (s.subscriptions.map fun x => (x.ownerWallet, x.subscriptionId)).map fun p => tail p.2 := by
      intro s
      rw [List.map_map]
      rfl
    rw [htails, hsame, ← htails]
    exact h.tails

theorem Regular.call (h : Regular m) {op : Op} (hplain : Plain m op) : Regular (m.call op).1 := by
  have hsound := (h.sound.call op).1
  -- calls that leave the endpoints, or change what is not asked about
  have hkeep : (m.call op).1.subscriptions.map (fun x => (x.ownerWallet, x.subscriptionId)) =
      m.subscriptions.map (fun x => (x.ownerWallet, x.subscriptionId)) → Regular (m.call op).1 :=
    h.of_endpoints hsound
  cases op with
  | createSubscription x maxActive =>
    obtain ⟨-, -, -, -, -, -, -, -, -, htail⟩ := hplain
    by_cases hfull : maxActive ≤ ((m.owned x.ownerWallet).filter fun y => y.status = .active).length ∨
        MAX_SUBSCRIPTION_ROWS_PER_OWNER ≤ (m.owned x.ownerWallet).length ∨
        (m.subscription x.subscriptionId).isSome = true
    · have hsame : (m.createSubscription x maxActive).1 = m := by
        unfold Store.createSubscription
        dsimp only
        rw [if_pos hfull]
      refine hkeep ?_
      dsimp only [Store.call]
      rw [hsame]
    · have hnew : (m.createSubscription x maxActive).1 =
          { m with subscriptions := m.subscriptions ++ [x] } := by
        unfold Store.createSubscription
        dsimp only
        rw [if_neg hfull]
      refine ⟨hsound, fun owner => ?_, ?_⟩
      · dsimp only [Store.call]
        rw [hnew, Store.owned, List.filter_append, List.length_append]
        by_cases howner : x.ownerWallet = owner
        · have hroom : (m.owned owner).length < MAX_SUBSCRIPTION_ROWS_PER_OWNER := by
            rw [← howner]
            omega
          have hone : ([x].filter fun y => y.ownerWallet = owner).length ≤ 1 :=
            List.length_filter_le ..
          unfold Store.owned at hroom
          omega
        · have hnone : ([x].filter fun y => y.ownerWallet = owner) = [] := by simp [howner]
          rw [hnone]
          exact h.few owner
      · dsimp only [Store.call]
        rw [hnew, List.map_append]
        refine List.nodup_append.mpr ⟨h.tails, List.nodup_singleton _, ?_⟩
        intro a ha b hb hab
        obtain ⟨y, hy, rfl⟩ := List.mem_map.mp ha
        rw [List.map_singleton, List.mem_singleton] at hb
        exact htail y hy (hab.trans hb)
  | disable owner i now =>
    refine hkeep ?_
    dsimp only [Store.call, Store.disable]
    split
    · rfl
    · refine map_updateWhere (fun y => ?_) _
      unfold Store.Subscription.disable
      split
      · rfl
      · rfl
  | rotateSecrets owner i secrets now =>
    refine hkeep ?_
    dsimp only [Store.call, Store.rotateSecrets]
    split
    · rfl
    · refine map_updateWhere (fun y => ?_) _
      rfl
  | emit events =>
    refine hkeep ?_
    dsimp only [Store.call]
    rw [Store.emitAll_subscriptions]
  | putPayment => exact hplain.elim
  | putTransaction => exact hplain.elim
  | listSubscriptions => exact hkeep rfl
  | getSubscription => exact hkeep rfl
  | missingEvents => exact hkeep rfl
  | getEvent => exact hkeep rfl
  | claim => exact hkeep rfl
  | complete i token o now =>
    refine hkeep ?_
    dsimp only [Store.call, Store.complete]
    split
    · rfl
    · rfl
  | listDeliveries => exact hkeep rfl
  | redeliver owner i now =>
    refine hkeep ?_
    dsimp only [Store.call, Store.redeliver]
    split
    · rfl
    · split
      · rfl
      · split
        · rfl
        · rfl
  | listConfirmedPayments => exact hkeep rfl
  | listConfirmedTransactions => exact hkeep rfl

/-! ## Call by call -/

theorem Regular.emit (h : Regular m) (e : Event) : Regular (m.emit e).1 := by
  refine h.of_endpoints (h.sound.call (.emit [e])).1 ?_
  unfold Store.emit
  split
  · rfl
  · rfl

theorem emits_agree (hreg : Regular m) (h : Mirrors m c) (events : List Event) :
    (Convex.emitEvents events c).2 = (Store.emitAll (fun _ => true) events m).2 ∧
      Mirrors (Store.emitAll (fun _ => true) events m).1 (Convex.emitEvents events c).1 := by
  induction events generalizing m c with
  | nil => exact ⟨rfl, h⟩
  | cons e events ih =>
    obtain ⟨hnew, hmirrors⟩ := emit_agrees hreg h e
    obtain ⟨hcount, hrest⟩ := ih (hreg.emit e) hmirrors
    refine ⟨?_, hrest⟩
    change (Convex.emitEvents events (Convex.emitEvent c e).1).2 +
        (if (Convex.emitEvent c e).2 then 1 else 0) =
      (Store.emitAll (fun _ => true) events (m.emit e).1).2 + if (m.emit e).2 then 1 else 0
    rw [hcount, hnew]

theorem newestSubscription_iff (x y : Subscription) : Store.NewestSubscription x y ↔
    toLex (OrderDual.toDual x.createdAtMs, x.subscriptionId) ≤
      toLex (OrderDual.toDual y.createdAtMs, y.subscriptionId) := by
  simp [Store.NewestSubscription, Prod.Lex.le_iff]

instance : Std.Total Store.NewestSubscription := total_of_key newestSubscription_iff
instance : IsTrans Subscription Store.NewestSubscription := trans_of_key newestSubscription_iff

theorem newestDelivery_iff (d e : Delivery) : Store.NewestDelivery d e ↔
    toLex (OrderDual.toDual d.createdAtMs, OrderDual.toDual d.deliveryId) ≤
      toLex (OrderDual.toDual e.createdAtMs, OrderDual.toDual e.deliveryId) := by
  simp [Store.NewestDelivery, Prod.Lex.le_iff]

instance : Std.Total Store.NewestDelivery := total_of_key newestDelivery_iff
instance : IsTrans Delivery Store.NewestDelivery := trans_of_key newestDelivery_iff

/-- The endpoints of an owner, listed. -/
theorem listSubscriptions_agree (hreg : Regular m) (h : Mirrors m c) {owner : String}
    (htimes : ((m.owned owner).map (·.createdAtMs)).Nodup) :
    Convex.listSubscriptions c owner = m.listSubscriptions owner := by
  have hfew := hreg.few owner
  rw [MAX_SUBSCRIPTION_ROWS_PER_OWNER] at hfew
  have hsorted : (m.listSubscriptions owner).Pairwise fun x y => y.createdAtMs ≤ x.createdAtMs := by
    refine (List.pairwise_insertionSort Store.NewestSubscription _).imp fun {x y} hxy => ?_
    rcases hxy with hlt | ⟨heq, -⟩
    · exact Nat.le_of_lt hlt
    · exact Nat.le_of_eq heq.symm
  have hdesc : byIndexDesc (·.createdAtMs) (m.owned owner) = m.listSubscriptions owner :=
    desc_eq htimes (List.perm_insertionSort _ _) hsorted (List.Perm.refl _)
  have hlength : (m.listSubscriptions owner).length ≤ 100 := by
    rw [Store.listSubscriptions, List.length_insertionSort]
    omega
  rw [Convex.listSubscriptions, h.owned, hdesc, List.take_of_length_le hlength]

/-- The deliveries of an endpoint, listed. -/
theorem listDeliveries_agree (hreg : Regular m) (h : Mirrors m c) {owner i : String} {limit : Nat}
    (htimes : ((m.deliveries.filter fun d => d.subscriptionId = i).map (·.createdAtMs)).Nodup) :
    Convex.listDeliveries c owner i limit = m.listDeliveries owner i limit := by
  have hperm : (m.deliveries.filter fun d => d.subscriptionId = i).Perm
      (c.deliveries.filter fun d => d.subscriptionId = i) := h.deliveries.filter _
  -- an endpoint's deliveries all have its owner
  have howners : ∀ d ∈ m.deliveries.filter (fun d => d.subscriptionId = i), ∀ e ∈
      m.deliveries.filter (fun d => d.subscriptionId = i), d.ownerWallet = e.ownerWallet := by
    intro d hd e he
    obtain ⟨hd, hdi⟩ := List.mem_filter.mp hd
    obtain ⟨he, hei⟩ := List.mem_filter.mp he
    obtain ⟨x, hx, hxd, howner⟩ := hreg.sound.endpoints d hd
    obtain ⟨y, hy, hye, howner'⟩ := hreg.sound.endpoints e he
    have hids : x.subscriptionId = y.subscriptionId :=
      hxd.trans ((of_decide_eq_true hdi).trans ((of_decide_eq_true hei).symm.trans hye.symm))
    rw [← howner, ← howner', eq_of_key hreg.sound.subscriptionIds hx hy hids]
  unfold Convex.listDeliveries Store.listDeliveries
  have hsplit : (m.deliveries.filter fun d => d.ownerWallet = owner && d.subscriptionId = i) =
      (m.deliveries.filter fun d => d.subscriptionId = i).filter fun d => d.ownerWallet = owner := by
    rw [List.filter_filter]
  rw [hsplit]
  generalize m.deliveries.filter (fun d => d.subscriptionId = i) = rows at hperm howners htimes
  generalize c.deliveries.filter (fun d => d.subscriptionId = i) = rows' at hperm
  by_cases hany : ∃ d ∈ rows, d.ownerWallet = owner
  · obtain ⟨d, hd, howner⟩ := hany
    have hall : ∀ e ∈ rows, e.ownerWallet = owner := fun e he => (howners e he d hd).trans howner
    have hself : rows.filter (fun d => d.ownerWallet = owner) = rows :=
      List.filter_eq_self.mpr fun e he => decide_eq_true (hall e he)
    have hsorted : (rows.insertionSort Store.NewestDelivery).Pairwise
        fun x y => y.createdAtMs ≤ x.createdAtMs := by
      refine (List.pairwise_insertionSort Store.NewestDelivery _).imp fun {x y} hxy => ?_
      rcases hxy with hlt | ⟨heq, -⟩
      · exact Nat.le_of_lt hlt
      · exact Nat.le_of_eq heq.symm
    rw [hself, desc_eq htimes (List.perm_insertionSort _ _) hsorted hperm]
    refine List.filter_eq_self.mpr fun e he => decide_eq_true (hall e ?_)
    exact (List.mem_insertionSort _).mp (List.mem_of_mem_take he)
  · have hnone : rows.filter (fun d => d.ownerWallet = owner) = [] :=
      List.filter_eq_nil_iff.mpr fun e he howner => hany ⟨e, he, of_decide_eq_true howner⟩
    rw [hnone, List.insertionSort_nil, List.take_nil]
    refine List.filter_eq_nil_iff.mpr fun e he howner => ?_
    have hmem : e ∈ rows' := (byIndexDesc_perm _ _).subset (List.mem_of_mem_take he)
    exact hany ⟨e, hperm.symm.subset hmem, of_decide_eq_true howner⟩

/-! ### Claims -/

theorem due_filter (s : Store) (now : Nat) (state : DeliveryState)
    (hopen : state = .pending ∨ state = .retryScheduled ∨ state = .delivering) :
    s.due now state = (s.deliveries.filter fun d => d.isDue now).filter fun d => d.state = state := by
  rw [Store.due, List.filter_filter]
  refine List.filter_congr fun d _ => ?_
  by_cases hd : d.state = state
  · have hd' : d.Open := by
      unfold Delivery.Open
      rw [hd]
      exact hopen
    simp [Delivery.isDue, hd, hd']
  · simp [hd]

theorem before_apart {rows : List Delivery} (hids : (rows.map (·.deliveryId)).Nodup) :
    Apart Delivery.Before rows := by
  intro a ha b hb hab hba
  refine eq_of_key hids ha hb ?_
  unfold Delivery.Before at hab hba
  rcases hab with hlt | ⟨heq, hid⟩
  · rcases hba with hlt' | ⟨heq', -⟩
    · omega
    · omega
  · rcases hba with hlt' | ⟨-, hid'⟩
    · omega
    · exact le_antisymm hid hid'

/-- The rows that Convex reads of one state: the first ones, in either order. -/
theorem due_agrees (h : Mirrors m c) {now limit : Nat} (state : DeliveryState)
    (hplain : (m.due now state).length ≤ limit ∨
      ((m.due now state).map (·.nextAttemptAtMs)).Nodup) {d : Delivery}
    (hd : d ∈ ((m.due now state).insertionSort Delivery.Before).take limit) :
    d ∈ (byIndex (·.nextAttemptAtMs) (c.due now state)).take limit := by
  have hperm : (m.due now state).Perm (c.due now state) := h.deliveries.filter _
  have hindex := byIndex_perm (·.nextAttemptAtMs) (c.due now state)
  rcases hplain with hfew | htimes
  · have hlength : (byIndex (·.nextAttemptAtMs) (c.due now state)).length ≤ limit := by
      rw [hindex.length_eq, ← hperm.length_eq]
      exact hfew
    rw [List.take_of_length_le hlength]
    exact hindex.symm.subset (hperm.subset ((List.mem_insertionSort _).mp (List.mem_of_mem_take hd)))
  · -- different times: the two orders are one
    have hsame : byIndex (·.nextAttemptAtMs) (c.due now state) =
        (m.due now state).insertionSort Delivery.Before := by
      have hbefore := (List.pairwise_insertionSort Delivery.Before (m.due now state)).imp
        (S := fun a b => a.nextAttemptAtMs ≤ b.nextAttemptAtMs) fun {a b} hab => by
          rcases hab with hlt | ⟨heq, -⟩
          · exact Nat.le_of_lt hlt
          · exact Nat.le_of_eq heq
      have hsorted := List.perm_insertionSort Delivery.Before (m.due now state)
      refine List.Perm.eq_of_pairwise (fun a b ha hb hab hba => ?_)
        (byIndex_sorted _ _) hbefore (hindex.trans (hperm.symm.trans hsorted.symm))
      exact eq_of_key htimes (hperm.symm.subset (hindex.subset ha)) (hsorted.subset hb)
        (Nat.le_antisymm hab hba)
    rw [hsame]
    exact hd

/-- The rows that a claim takes. -/
theorem chosen_agree (hreg : Regular m) (h : Mirrors m c) {now limit : Nat}
    (hplain : ∀ state, (m.due now state).length ≤ limit ∨
      ((m.due now state).map (·.nextAttemptAtMs)).Nodup) :
    Convex.chosen c now limit = m.chosen now limit := by
  let rows := m.deliveries.filter fun d => d.isDue now
  let first (state : DeliveryState) :=
    (byIndex (·.nextAttemptAtMs) (c.due now state)).take limit
  have hids : (rows.map (·.deliveryId)).Nodup := hreg.sound.ids.sublist (List.filter_sublist.map _)
  have hnodup : rows.Nodup := List.Nodup.of_map _ hids
  -- a row that Convex reads of a state is one of the due rows, in that state
  have hfirst : ∀ state, state = .pending ∨ state = .retryScheduled ∨ state = .delivering →
      ∀ d ∈ first state, d ∈ rows ∧ d.state = state := by
    intro state hopen d hd
    have hdue : d ∈ c.due now state := (byIndex_perm _ _).subset (List.mem_of_mem_take hd)
    have hdue : d ∈ m.due now state := (h.deliveries.filter _).symm.subset hdue
    rw [due_filter m now state hopen] at hdue
    obtain ⟨hrow, hstate⟩ := List.mem_filter.mp hdue
    exact ⟨hrow, of_decide_eq_true hstate⟩
  have heach : ∀ state, (first state).Nodup := by
    intro state
    have hsub : (c.due now state).Nodup :=
      (List.Nodup.of_map _ ((h.deliveries.map _).nodup hreg.sound.ids)).filter _
    exact ((byIndex_perm _ _).symm.nodup hsub).sublist (List.take_sublist _ _)
  have hpart : ([DeliveryState.pending, .retryScheduled, .delivering].flatMap first).Nodup := by
    rw [List.nodup_flatMap]
    refine ⟨fun state _ => heach state, ?_⟩
    have hdisjoint : ∀ a b, a ≠ b → (a = .pending ∨ a = .retryScheduled ∨ a = .delivering) →
        (b = .pending ∨ b = .retryScheduled ∨ b = .delivering) →
        List.Disjoint (first a) (first b) := by
      intro a b hne ha hb d hda hdb
      exact hne ((hfirst a ha d hda).2.symm.trans (hfirst b hb d hdb).2)
    simp only [List.pairwise_cons, List.mem_cons, List.not_mem_nil, or_false, forall_eq_or_imp,
      forall_eq, Function.onFun, List.Pairwise.nil, and_true, IsEmpty.forall_iff, implies_true]
    exact ⟨⟨hdisjoint _ _ (by decide) (by simp) (by simp),
      hdisjoint _ _ (by decide) (by simp) (by simp)⟩,
      hdisjoint _ _ (by decide) (by simp) (by simp)⟩
  have hsub : [DeliveryState.pending, .retryScheduled, .delivering].flatMap first ⊆ rows := by
    intro d hd
    obtain ⟨state, hstate, hd⟩ := List.mem_flatMap.mp hd
    exact (hfirst state (by simpa using hstate) d hd).1
  refine take_sort_eq (before_apart hids) hnodup hpart hsub fun d hd => ?_
  obtain ⟨hrow, -⟩ := (mem_take_sort (before_apart hids) hnodup).mp hd
  obtain ⟨hopen, -⟩ := Delivery.isDue_open (List.mem_filter.mp hrow).2
  refine List.mem_flatMap.mpr ⟨d.state, by simpa [Delivery.Open] using hopen, ?_⟩
  refine due_agrees h d.state (hplain d.state) ?_
  rw [due_filter m now d.state hopen]
  exact mem_take_part (before_apart hids) hnodup (fun e => e.state = d.state) hd (decide_eq_true rfl)

theorem claimAction_short {d : Delivery} {active : Bool} {maxAttempts : Nat} {reason : String}
    (h : claimAction d active maxAttempts = .exhaust reason) : truncateError reason = reason := by
  unfold claimAction at h
  split at h
  · cases h
    decide
  · split at h
    · cases h
      decide
    · cases h

/-- What a claim does with a row. -/
theorem claimRow_agrees (hreg : Regular m) (h : Mirrors m c) {token : String}
    {now leaseMs maxAttempts : Nat} {d : Delivery} (hd : d ∈ m.deliveries) :
    Convex.claimRow c token now leaseMs maxAttempts d =
      m.claimRow token now leaseMs maxAttempts d := by
  obtain ⟨e, he⟩ := Option.isSome_iff_exists.mp (hreg.sound.event_isSome hd)
  obtain ⟨x, hx, hid, -⟩ := hreg.sound.endpoints d hd
  have hsub := hreg.sound.subscription_eq hx
  rw [hid] at hsub
  have hactive : m.active d.subscriptionId = decide (x.status = .active) := by
    rw [Store.active, hsub]
    rfl
  unfold Convex.claimRow Store.claimRow
  rw [h.subscription, h.event, hsub, he, hactive]
  dsimp only
  cases ha : claimAction d (decide (x.status = .active)) maxAttempts with
  | claim => rfl
  | exhaust reason =>
    dsimp only
    rw [Delivery.applyExhaust, claimAction_short ha]

theorem claim_agrees (hreg : Regular m) (h : Mirrors m c) {now limit leaseMs maxAttempts : Nat}
    {token : String}
    (hplain : ∀ state, (m.due now state).length ≤ Store.clamp 1 50 limit ∨
      ((m.due now state).map (·.nextAttemptAtMs)).Nodup) :
    (Convex.claim c now limit leaseMs token maxAttempts).2 =
        (m.claim now limit leaseMs token maxAttempts).2 ∧
      Mirrors (m.claim now limit leaseMs token maxAttempts).1
        (Convex.claim c now limit leaseMs token maxAttempts).1 := by
  unfold Convex.claim Store.claim Store.claimRows
  rw [chosen_agree hreg h hplain]
  have hrows : ∀ d ∈ m.chosen now (Store.clamp 1 50 limit), d ∈ m.deliveries :=
    fun d hd => (Store.mem_chosen hd).1
  generalize m.chosen now (Store.clamp 1 50 limit) = rows at hrows
  refine ⟨?_, ⟨h.subscriptions, h.events, ?_, h.payments, h.transactions⟩⟩
  · refine List.filterMap_congr fun d hd => ?_
    rw [claimRow_agrees hreg h (hrows d hd)]
  · dsimp only
    refine (updateWhere_perm h.deliveries).trans ?_
    refine List.Perm.of_eq (updateWhere_congr fun d hd => ?_)
    rw [claimRow_agrees hreg h (h.deliveries.symm.subset hd)]

/-! ### Disabling -/

theorem closeQueued_eq {ds : List Delivery} {i : String} {now : Nat} {state : DeliveryState}
    (hids : (ds.map (·.deliveryId)).Nodup)
    (hfew : (ds.filter fun d => d.subscriptionId = i && d.state = state).length ≤ 1000) :
    Convex.closeQueued i now ds state =
      updateWhere (fun d => d.subscriptionId = i && d.state = state)
        (fun d => d.applyExhaust ENDPOINT_DISABLED now) ds := by
  unfold Convex.closeQueued
  rw [List.take_of_length_le hfew]
  refine updateWhere_congr fun d hd => ?_
  have htext : truncateError ENDPOINT_DISABLED = ENDPOINT_DISABLED := by decide
  by_cases hmatch : (d.subscriptionId = i && d.state = state) = true
  · have hany : ((ds.filter fun d => d.subscriptionId = i && d.state = state).any
        fun q => q.deliveryId = d.deliveryId) = true :=
      List.any_eq_true.mpr ⟨d, List.mem_filter.mpr ⟨hd, hmatch⟩, decide_eq_true rfl⟩
    rw [if_pos hany, if_pos hmatch, Delivery.applyExhaust, htext]
  · have hnone : ¬ ((ds.filter fun d => d.subscriptionId = i && d.state = state).any
        fun q => q.deliveryId = d.deliveryId) = true := by
      intro hany
      obtain ⟨q, hq, hqd⟩ := List.any_eq_true.mp hany
      obtain ⟨hq, hqmatch⟩ := List.mem_filter.mp hq
      rw [eq_of_key hids hq hd (of_decide_eq_true hqd)] at hqmatch
      exact hmatch hqmatch
    rw [if_neg hnone, if_neg hmatch]

/-- Closing the pending rows and then the scheduled ones closes the queued ones. -/
theorem close_twice {ds : List Delivery} {i : String} {now : Nat} :
    updateWhere (fun d => d.subscriptionId = i && d.state = .retryScheduled)
        (fun d => d.applyExhaust ENDPOINT_DISABLED now)
        (updateWhere (fun d => d.subscriptionId = i && d.state = .pending)
          (fun d => d.applyExhaust ENDPOINT_DISABLED now) ds) =
      updateWhere (fun d => d.subscriptionId = i && d.queued)
        (fun d => d.applyExhaust ENDPOINT_DISABLED now) ds := by
  unfold updateWhere
  rw [List.map_map]
  refine List.map_congr_left fun d _ => ?_
  rw [Function.comp_apply]
  by_cases hi : d.subscriptionId = i
  · cases hs : d.state with
    | pending => simp [hi, hs, Delivery.queued, Delivery.applyExhaust]
    | retryScheduled => simp [hi, hs, Delivery.queued]
    | delivering => simp [hi, hs, Delivery.queued]
    | delivered => simp [hi, hs, Delivery.queued]
    | exhausted => simp [hi, hs, Delivery.queued]
  · simp [hi]

theorem ownSubscription_agrees (h : Mirrors m c) {owner i : String}
    (howner : Convex.wallet owner = .ok owner) (hi : Convex.id i = .ok i) :
    Convex.ownSubscription c owner i = .ok (m.ownSubscription owner i) := by
  unfold Convex.ownSubscription Store.ownSubscription
  simp only [bind, Except.bind, hi, h.subscription]
  cases m.subscription i with
  | none => rfl
  | some x =>
    simp only [howner, pure, Except.pure, Option.filter_some, decide_eq_true_eq]

/-- Closing the pending rows makes no row scheduled. -/
theorem scheduled_closed (ds : List Delivery) (i : String) (now : Nat) :
    ((updateWhere (fun d => d.subscriptionId = i && d.state = .pending)
        (fun d => d.applyExhaust ENDPOINT_DISABLED now) ds).filter
          fun d => d.subscriptionId = i && d.state = .retryScheduled).length ≤
      (ds.filter fun d => d.subscriptionId = i && d.state = .retryScheduled).length := by
  rw [← List.countP_eq_length_filter, ← List.countP_eq_length_filter, updateWhere, List.countP_map]
  refine List.countP_mono_left fun d _ hd => ?_
  rw [Function.comp_apply] at hd
  by_cases hpending : (d.subscriptionId = i && d.state = .pending) = true
  · rw [if_pos hpending] at hd
    simp [Delivery.applyExhaust] at hd
  · rw [if_neg hpending] at hd
    exact hd

theorem disable_agrees (hreg : Regular m) (h : Mirrors m c) {owner i : String} {now : Nat}
    (howner : Convex.wallet owner = .ok owner) (hi : Convex.id i = .ok i)
    (hnow : Convex.safeNumber now = .ok now)
    (hfew : ∀ state ∈ [DeliveryState.pending, .retryScheduled], (m.deliveries.filter fun d =>
      d.subscriptionId = i && d.state = state).length ≤ 1000) :
    ∃ c', Convex.disable c owner i now = .ok (c', (m.disable owner i now).2) ∧
      Mirrors (m.disable owner i now).1 c' := by
  unfold Convex.disable
  rw [ownSubscription_agrees h howner hi]
  unfold Store.disable
  cases m.ownSubscription owner i with
  | none => exact ⟨c, rfl, h⟩
  | some x =>
    simp only [bind, Except.bind, hnow, pure, Except.pure]
    refine ⟨_, rfl, ⟨?_, h.events, ?_, h.payments, h.transactions⟩⟩
    · dsimp only
      rw [h.subscriptions]
    · dsimp only [List.foldl_cons, List.foldl_nil]
      have hids : (c.deliveries.map (·.deliveryId)).Nodup := (h.deliveries.map _).nodup hreg.sound.ids
      have hfew' : ∀ state ∈ [DeliveryState.pending, .retryScheduled],
          (c.deliveries.filter fun d =>
            d.subscriptionId = i && d.state = state).length ≤ 1000 := by
        intro state hstate
        rw [← (h.deliveries.filter _).length_eq]
        exact hfew state hstate
      rw [closeQueued_eq hids (hfew' .pending List.mem_cons_self), closeQueued_eq, close_twice]
      · exact updateWhere_perm h.deliveries
      · rw [map_updateWhere]
        · exact hids
        · exact fun d => rfl
      · exact (scheduled_closed c.deliveries i now).trans (hfew' .retryScheduled (by simp))

theorem rotate_agrees (h : Mirrors m c) {owner i secrets : String} {now : Nat}
    (howner : Convex.wallet owner = .ok owner) (hi : Convex.id i = .ok i)
    (hsecrets : Convex.validSecrets secrets = .ok secrets)
    (hnow : Convex.safeNumber now = .ok now) :
    ∃ c', Convex.rotateSecrets c owner i secrets now =
        .ok (c', (m.rotateSecrets owner i secrets now).2) ∧
      Mirrors (m.rotateSecrets owner i secrets now).1 c' := by
  unfold Convex.rotateSecrets
  rw [ownSubscription_agrees h howner hi]
  unfold Store.rotateSecrets
  cases m.ownSubscription owner i with
  | none => exact ⟨c, rfl, h⟩
  | some x =>
    simp only [bind, Except.bind, hnow, hsecrets, pure, Except.pure, Option.filter_some,
      decide_eq_true_eq]
    by_cases hstatus : x.status = .active
    · rw [if_neg (not_not_intro hstatus), if_pos hstatus]
      refine ⟨_, rfl, ⟨?_, h.events, h.deliveries, h.payments, h.transactions⟩⟩
      dsimp only
      rw [h.subscriptions]
    · rw [if_pos hstatus, if_neg hstatus]
      exact ⟨c, rfl, h⟩

/-! ### New endpoints -/

/-- The rows that Convex reads of an owner are all of them. -/
theorem owned_read (hreg : Regular m) (owner : String) :
    ((byIndex (·.createdAtMs) (m.owned owner)).take
      (MAX_SUBSCRIPTION_ROWS_PER_OWNER + 1)).Perm (m.owned owner) := by
  have hperm := byIndex_perm (·.createdAtMs) (m.owned owner)
  rw [List.take_of_length_le]
  · exact hperm
  · rw [hperm.length_eq]
    exact Nat.le_succ_of_le (hreg.few owner)

theorem create_agrees (hreg : Regular m) (h : Mirrors m c) {x : Subscription} {maxActive : Nat}
    (hplain : Plain m (.createSubscription x maxActive)) :
    ∃ c', Convex.createSubscription c x maxActive MAX_SUBSCRIPTION_ROWS_PER_OWNER =
        .ok (c', (m.createSubscription x maxActive).2) ∧
      Mirrors (m.createSubscription x maxActive).1 c' := by
  obtain ⟨howner, ⟨hurl, hhttps, hlong⟩, hlabel, hstatus, hid, hsecrets, hcreated, hupdated, hmax,
    -⟩ := hplain
  have hrows : Convex.safeNumber MAX_SUBSCRIPTION_ROWS_PER_OWNER =
      .ok MAX_SUBSCRIPTION_ROWS_PER_OWNER := by decide
  have hcheckUrl : Convex.check (fun u : String => "https://".toList.isPrefixOf u.toList &&
      decide (Convex.utf16Length u ≤ 2048)) x.url = .ok x.url := by
    rw [Convex.check, if_pos]
    rw [hhttps, Bool.true_and]
    exact decide_eq_true hlong
  have hcheckStatus : Convex.check (fun st => decide (st = .active)) x.status = .ok x.status := by
    rw [Convex.check, if_pos (decide_eq_true hstatus)]
  unfold Convex.createSubscription Store.createSubscription
  simp only [bind, Except.bind, howner, hurl, hcheckUrl, hlabel, hcheckStatus, hid, hsecrets,
    hcreated, hupdated, hmax, hrows, h.owned, h.subscription]
  have hperm := owned_read hreg x.ownerWallet
  rw [hperm.length_eq, (hperm.filter _).length_eq]
  by_cases hfull : MAX_SUBSCRIPTION_ROWS_PER_OWNER ≤ (m.owned x.ownerWallet).length ∨
      maxActive ≤ ((m.owned x.ownerWallet).filter fun o => o.status = .active).length
  · have hfull' : maxActive ≤ ((m.owned x.ownerWallet).filter fun o => o.status = .active).length ∨
        MAX_SUBSCRIPTION_ROWS_PER_OWNER ≤ (m.owned x.ownerWallet).length ∨
        (m.subscription x.subscriptionId).isSome = true := by
      rcases hfull with hall | hactive
      · exact .inr (.inl hall)
      · exact .inl hactive
    rw [if_pos hfull, if_pos hfull']
    exact ⟨c, rfl, h⟩
  · obtain ⟨hall, hactive⟩ := not_or.mp hfull
    rw [if_neg hfull]
    by_cases htaken : (m.subscription x.subscriptionId).isSome = true
    · rw [if_pos htaken, if_pos (.inr (.inr htaken))]
      exact ⟨c, rfl, h⟩
    · rw [if_neg htaken, if_neg]
      · refine ⟨_, rfl, ⟨?_, h.events, h.deliveries, h.payments, h.transactions⟩⟩
        dsimp only
        rw [h.subscriptions]
      · rintro (hmore | hmore | hmore)
        · exact hactive hmore
        · exact hall hmore
        · exact htaken hmore

/-! ### Outcomes and redelivery -/

theorem complete_agrees (hreg : Regular m) (h : Mirrors m c) {i token : String}
    {outcome : DeliveryOutcome} {now : Nat} (htoken : Convex.string token = .ok token)
    (hnow : Convex.safeNumber now = .ok now) (houtcome : Convex.checkOutcome outcome = .ok outcome) :
    ∃ c', Convex.complete c i token outcome now = .ok (c', (m.complete i token outcome now).2) ∧
      Mirrors (m.complete i token outcome now).1 c' := by
  unfold Convex.complete Store.complete
  rw [h.delivery hreg.sound]
  cases m.delivery i with
  | none => exact ⟨c, rfl, h⟩
  | some d =>
    simp only [bind, Except.bind, htoken, hnow, houtcome, pure, Except.pure, Option.filter_some]
    have hheld : Store.heldBy token d = true ↔
        d.state = .delivering ∧ d.leaseToken = some token := by
      simp [Store.heldBy]
    by_cases hstate : d.state = .delivering
    · by_cases hlease : d.leaseToken = some token
      · rw [if_neg (not_not_intro hstate), if_neg (not_not_intro hlease),
          if_pos (hheld.mpr ⟨hstate, hlease⟩)]
        exact ⟨_, rfl, ⟨h.subscriptions, h.events, updateWhere_perm h.deliveries, h.payments,
          h.transactions⟩⟩
      · rw [if_neg (not_not_intro hstate), if_pos hlease, if_neg fun held => hlease (hheld.mp held).2]
        exact ⟨c, rfl, h⟩
    · rw [if_pos hstate, if_neg fun held => hstate (hheld.mp held).1]
      exact ⟨c, rfl, h⟩

theorem redeliver_agrees (hreg : Regular m) (h : Mirrors m c) {owner i : String} {now : Nat}
    (howner : Convex.wallet owner = .ok owner) (hi : Convex.id i = .ok i)
    (hnow : Convex.safeNumber now = .ok now) :
    ∃ c', Convex.redeliver c owner i now = .ok (c', (m.redeliver owner i now).2) ∧
      Mirrors (m.redeliver owner i now).1 c' := by
  unfold Convex.redeliver Store.redeliver
  simp only [bind, Except.bind, hi, h.delivery hreg.sound]
  cases m.delivery i with
  | none => exact ⟨c, rfl, h⟩
  | some d =>
    simp only [howner, hnow, pure, Except.pure, Option.filter_some, h.active, decide_eq_true_eq]
    by_cases hown : d.ownerWallet = owner
    · rw [if_neg (not_not_intro hown), if_pos hown]
      dsimp only
      by_cases hflight : d.state = .pending ∨ d.state = .delivering
      · rw [if_pos hflight, if_pos hflight]
        exact ⟨c, rfl, h⟩
      · rw [if_neg hflight, if_neg hflight]
        by_cases hclosed : (!m.active d.subscriptionId) = true
        · rw [if_pos hclosed, if_pos hclosed]
          exact ⟨c, rfl, h⟩
        · rw [if_neg hclosed, if_neg hclosed]
          exact ⟨_, rfl, ⟨h.subscriptions, h.events, updateWhere_perm h.deliveries, h.payments,
            h.transactions⟩⟩
    · rw [if_pos hown, if_neg hown]
      exact ⟨c, rfl, h⟩

/-! ### Confirmed records -/

/-- After the page is full, rows that are older than its last one end the scan. -/
theorem scan_full {limit b : Nat} {page rows : List Record}
    (holder : ∀ r ∈ rows, r.status = .confirmed → r.updatedAtMs < b) (budget : Nat) :
    Convex.scan limit budget (some b) page rows = page := by
  induction rows generalizing budget with
  | nil =>
    cases budget with
    | zero => rfl
    | succ budget => rfl
  | cons r rows ih =>
    cases budget with
    | zero => rfl
    | succ budget =>
      rw [Convex.scan, Option.any_some]
      by_cases hold : r.updatedAtMs < b
      · rw [if_pos (decide_eq_true hold)]
      · have hstatus : r.status ≠ .confirmed := fun hc => hold (holder r List.mem_cons_self hc)
        rw [if_neg (by simpa using hold), if_pos hstatus]
        exact ih (fun q hq => holder q (List.mem_cons_of_mem r hq)) budget

/-- The scan reads the first confirmed rows. -/
theorem scan_eq {limit : Nat} {rows : List Record}
    (hsorted : (rows.filter fun r => r.status = .confirmed).Pairwise
      fun a b => b.updatedAtMs < a.updatedAtMs)
    {budget : Nat} (hbudget : rows.length ≤ budget) {page : List Record}
    (hroom : page.length < limit) :
    Convex.scan limit budget none page rows =
      page ++ (rows.filter fun r => r.status = .confirmed).take (limit - page.length) := by
  induction rows generalizing budget page with
  | nil =>
    cases budget with
    | zero => simp [Convex.scan]
    | succ budget => simp [Convex.scan]
  | cons r rows ih =>
    cases budget with
    | zero => exact absurd hbudget (by simp)
    | succ budget =>
      have hbudget' : rows.length ≤ budget := Nat.le_of_succ_le_succ hbudget
      rw [Convex.scan, Option.any_none, if_neg Bool.false_ne_true]
      by_cases hstatus : r.status = .confirmed
      · rw [List.filter_cons_of_pos (by simpa using hstatus)] at hsorted ⊢
        obtain ⟨holder, hsorted⟩ := List.pairwise_cons.mp hsorted
        rw [if_neg (not_not_intro hstatus)]
        dsimp only
        rw [List.length_append, List.length_singleton]
        obtain ⟨n, hn⟩ : ∃ n, limit - page.length = n + 1 :=
          ⟨limit - page.length - 1, by omega⟩
        rw [hn, List.take_succ_cons]
        by_cases hfull : page.length + 1 = limit
        · -- the page is full with this row
          have hzero : n = 0 := by omega
          rw [if_pos hfull, hzero, List.take_zero]
          exact scan_full (fun q hq hc =>
            holder q (List.mem_filter.mpr ⟨hq, decide_eq_true hc⟩)) budget
        · have hroom' : (page ++ [r]).length < limit := by
            rw [List.length_append, List.length_singleton]
            omega
          have hleft : limit - (page ++ [r]).length = n := by
            rw [List.length_append, List.length_singleton]
            omega
          rw [if_neg hfull, ih hsorted hbudget' hroom', hleft, List.append_assoc,
            List.singleton_append]
      · rw [List.filter_cons_of_neg (by simpa using hstatus)] at hsorted ⊢
        rw [if_pos hstatus]
        exact ih hsorted hbudget' hroom

/-- With different times, a page with its ties is a page. -/
theorem takeWhile_ties {rows : List Record}
    (hsorted : rows.Pairwise fun a b => b.updatedAtMs < a.updatedAtMs) {n : Nat} {last : Record}
    (hlast : rows[n]? = some last) :
    rows.takeWhile (fun r => last.updatedAtMs ≤ r.updatedAtMs) = rows.take (n + 1) := by
  induction rows generalizing n with
  | nil => cases hlast
  | cons r rows ih =>
    obtain ⟨holder, hrest⟩ := List.pairwise_cons.mp hsorted
    rw [List.take_succ_cons]
    cases n with
    | zero =>
      rw [List.getElem?_cons_zero, Option.some.injEq] at hlast
      subst hlast
      rw [List.takeWhile_cons_of_pos (by simp), List.take_zero]
      cases rows with
      | nil => rfl
      | cons q rows =>
        have hq := holder q List.mem_cons_self
        rw [List.takeWhile_cons_of_neg (by simpa using hq)]
    | succ n =>
      rw [List.getElem?_cons_succ] at hlast
      have hnewer := holder last (List.mem_of_getElem? hlast)
      rw [List.takeWhile_cons_of_pos (by simpa using Nat.le_of_lt hnewer), ih hrest hlast]

/-- Sorted by a key that no two rows share, rows stand strictly one below the other. -/
theorem strict_of_nodup {rows : List Record} (htimes : (rows.map (·.updatedAtMs)).Nodup)
    (hsorted : rows.Pairwise fun a b => b.updatedAtMs ≤ a.updatedAtMs) :
    rows.Pairwise fun a b => b.updatedAtMs < a.updatedAtMs := by
  refine (hsorted.and (List.pairwise_map.mp htimes)).imp fun {a b} hab => ?_
  exact Nat.lt_of_le_of_ne hab.1 fun heq => hab.2 heq.symm

theorem confirmedPage_agrees {rows : List Record} {since before limit : Nat}
    (hplain : PlainWindow rows since before limit) :
    Convex.confirmedPage rows since before limit = Store.listConfirmed rows since before limit := by
  obtain ⟨-, -, -, hscanned, htimes⟩ := hplain
  have hpos : 1 ≤ Store.clamp 1 200 limit := Nat.le_max_left _ _
  unfold Convex.confirmedPage Store.listConfirmed Store.pageWithTies
  generalize Store.clamp 1 200 limit = n at hpos
  have hwindow : (rows.filter fun r => r.status = .confirmed).filter
      (fun r => since ≤ r.updatedAtMs && r.updatedAtMs < before) =
      (window rows since before).filter fun r => r.status = .confirmed := by
    rw [window, List.filter_filter, List.filter_filter]
    exact List.filter_congr fun r _ => Bool.and_comm _ _
  rw [hwindow]
  change Convex.scan n 5000 none [] (byIndexDesc (·.updatedAtMs) (window rows since before)) =
    _
  generalize window rows since before = rows at hscanned htimes
  have hindex := byIndexDesc_perm (·.updatedAtMs) rows
  -- the index, restricted to the confirmed rows, is the memory store's order
  have hsame : (byIndexDesc (·.updatedAtMs) rows).filter (fun r => r.status = .confirmed) =
      (rows.filter fun r => r.status = .confirmed).insertionSort
        fun a b => b.updatedAtMs ≤ a.updatedAtMs := by
    have hleft := desc_eq htimes (hindex.filter _)
      ((byIndexDesc_sorted _ _).filter _) (List.Perm.refl _)
    have hright := desc_eq htimes
      (List.perm_insertionSort (fun a b : Record => b.updatedAtMs ≤ a.updatedAtMs) _)
      (List.pairwise_insertionSort _ _) (List.Perm.refl _)
    exact hleft.symm.trans hright
  have hstrict := strict_of_nodup (((hindex.filter _).map _).symm.nodup htimes)
    ((byIndexDesc_sorted (·.updatedAtMs) rows).filter _)
  have hlength : (byIndexDesc (·.updatedAtMs) rows).length ≤ 5000 := by
    rw [hindex.length_eq]
    exact hscanned
  rw [scan_eq hstrict hlength hpos, ← hsame, List.nil_append, List.length_nil, Nat.sub_zero]
  generalize (byIndexDesc (·.updatedAtMs) rows).filter
    (fun r => r.status = .confirmed) = items at hstrict
  dsimp only
  cases hlast : items[n - 1]? with
  | none =>
    have hshort := List.getElem?_eq_none_iff.mp hlast
    exact List.take_of_length_le (by omega)
  | some last =>
    have hties := takeWhile_ties hstrict hlast
    rw [Nat.sub_add_cancel hpos] at hties
    exact hties.symm

/-! ## Runs -/

theorem listDeliveries_call (h : Mirrors m c) {owner i : String} {limit : Nat}
    (hreg : Regular m) (hplain : Plain m (.listDeliveries owner i limit)) :
    Convex.call c (.listDeliveries owner i limit) =
      .ok (c, (m.call (.listDeliveries owner i limit)).2) := by
  obtain ⟨howner, hi, hlimit, htimes⟩ := hplain
  simp only [Convex.call, bind, Except.bind, howner, hi, hlimit, pure, Except.pure]
  rw [listDeliveries_agree hreg h htimes]
  rfl

/-- **One call.** Convex takes a plain call, answers as the memory store does, and holds its rows. -/
theorem call_agrees (hreg : Regular m) (h : Mirrors m c) {op : Op} (hplain : Plain m op) :
    ∃ c', Convex.call c op = .ok (c', (m.call op).2) ∧ Mirrors (m.call op).1 c' := by
  cases op with
  | createSubscription x maxActive =>
    obtain ⟨c', hcall, hmirrors⟩ := create_agrees hreg h hplain
    refine ⟨c', ?_, hmirrors⟩
    simp only [Convex.call, hcall, bind, Except.bind, pure, Except.pure]
    rfl
  | listSubscriptions owner =>
    obtain ⟨howner, htimes⟩ := hplain
    refine ⟨c, ?_, h⟩
    simp only [Convex.call, howner, bind, Except.bind, pure, Except.pure,
      listSubscriptions_agree hreg h htimes]
    rfl
  | getSubscription owner i =>
    refine ⟨c, ?_, h⟩
    simp only [Convex.call, ownSubscription_agrees h hplain.1 hplain.2, bind, Except.bind, pure,
      Except.pure]
    rfl
  | disable owner i now =>
    obtain ⟨howner, hi, hnow, hfew⟩ := hplain
    obtain ⟨c', hcall, hmirrors⟩ := disable_agrees hreg h howner hi hnow hfew
    refine ⟨c', ?_, hmirrors⟩
    simp only [Convex.call, hcall, bind, Except.bind, pure, Except.pure]
    rfl
  | rotateSecrets owner i secrets now =>
    obtain ⟨howner, hi, hsecrets, hnow⟩ := hplain
    obtain ⟨c', hcall, hmirrors⟩ := rotate_agrees h howner hi hsecrets hnow
    refine ⟨c', ?_, hmirrors⟩
    simp only [Convex.call, hcall, bind, Except.bind, pure, Except.pure]
    rfl
  | putPayment => exact hplain.elim
  | putTransaction => exact hplain.elim
  | emit events =>
    obtain ⟨hcount, hmirrors⟩ := emits_agree hreg h events
    refine ⟨_, ?_, hmirrors⟩
    have hparse : Convex.parseEvents events = .ok events := hplain
    simp only [Convex.call, hparse, bind, Except.bind, pure, Except.pure, hcount]
    rfl
  | missingEvents ids =>
    obtain ⟨hmany, hids⟩ := hplain
    have hcheck : Convex.check (fun ids : List String => ids.length ≤ 200) ids = .ok ids := by
      rw [Convex.check, if_pos (decide_eq_true hmany)]
    refine ⟨c, ?_, h⟩
    simp only [Convex.call, hcheck, hids, bind, Except.bind, pure, Except.pure, h.event]
    rfl
  | getEvent i =>
    refine ⟨c, ?_, h⟩
    have hi : Convex.id i = .ok i := hplain
    simp only [Convex.call, hi, bind, Except.bind, pure, Except.pure, h.event]
    rfl
  | claim now limit leaseMs token maxAttempts =>
    obtain ⟨hnow, hlimit, hlease, htoken, hmax, -, hdue⟩ := hplain
    obtain ⟨hclaimed, hmirrors⟩ := claim_agrees hreg h hdue
    refine ⟨_, ?_, hmirrors⟩
    simp only [Convex.call, hnow, hlimit, hlease, htoken, hmax, bind, Except.bind, pure, Except.pure,
      hclaimed]
    rfl
  | complete i token outcome now =>
    obtain ⟨hi, htoken, hnow, houtcome⟩ := hplain
    obtain ⟨c', hcall, hmirrors⟩ := complete_agrees hreg h htoken hnow houtcome
    refine ⟨c', ?_, hmirrors⟩
    simp only [Convex.call, hi, hcall, bind, Except.bind, pure, Except.pure]
    rfl
  | listDeliveries owner i limit => exact ⟨c, listDeliveries_call h hreg hplain, h⟩
  | redeliver owner i now =>
    obtain ⟨howner, hi, hnow⟩ := hplain
    obtain ⟨c', hcall, hmirrors⟩ := redeliver_agrees hreg h howner hi hnow
    refine ⟨c', ?_, hmirrors⟩
    simp only [Convex.call, hcall, bind, Except.bind, pure, Except.pure]
    rfl
  | listConfirmedPayments since before limit =>
    refine ⟨c, ?_, h⟩
    have hpage := confirmedPage_agrees hplain
    simp only [Convex.call, hplain.bottom, hplain.top, hplain.page, bind, Except.bind, pure,
      Except.pure, h.payments, hpage]
    rfl
  | listConfirmedTransactions since before limit =>
    refine ⟨c, ?_, h⟩
    have hpage := confirmedPage_agrees hplain
    simp only [Convex.call, hplain.bottom, hplain.top, hplain.page, bind, Except.bind, pure,
      Except.pure, h.transactions, hpage]
    rfl

/-- Every call of the run is plain where the memory store stands. -/
def PlainRun (m : Store) : List Op → Prop
  | [] => True
  | op :: ops => Plain m op ∧ PlainRun (m.call op).1 ops

/-- The two answer alike at each call of the run and hold the same rows after it. -/
def Agree (m c : Store) : List Op → Prop
  | [] => Mirrors m c
  | op :: ops => Mirrors m c ∧
    ∃ c', Convex.call c op = .ok (c', (m.call op).2) ∧ Agree (m.call op).1 c' ops

/-- A store with records and no webhooks yet. -/
def Store.start (payments transactions : List Record) : Store :=
  { Store.empty with payments, transactions }

theorem regular_start (payments transactions : List Record) :
    Regular (Store.start payments transactions) where
  sound := ⟨List.nodup_nil, List.nodup_nil, List.nodup_nil, List.nodup_nil,
    fun _ h => (nomatch h), fun _ h => (nomatch h), fun _ h => (nomatch h)⟩
  few _ := Nat.zero_le _
  tails := List.nodup_nil

theorem run_agrees (hreg : Regular m) (h : Mirrors m c) {ops : List Op} (hplain : PlainRun m ops) :
    Agree m c ops := by
  induction ops generalizing m c with
  | nil => exact h
  | cons op ops ih =>
    obtain ⟨hop, hrest⟩ := hplain
    obtain ⟨c', hcall, hmirrors⟩ := call_agrees hreg h hop
    exact ⟨h, c', hcall, ih (hreg.call hop) hmirrors hrest⟩

/-- **Two backends, one outbox.** -/
theorem backends_agree (payments transactions : List Record) (ops : List Op)
    (hplain : PlainRun (Store.start payments transactions) ops) :
    Agree (Store.start payments transactions) (Store.start payments transactions) ops :=
  run_agrees (regular_start payments transactions)
    ⟨rfl, rfl, List.Perm.refl _, rfl, rfl⟩ hplain

/-- One sealed secret. -/
def sampleSecrets : String :=
  "[\x7b\"envelope\":\x7b\"v\":1,\"alg\":\"A256GCM\",\"kid\":\"k1\",\"iv\":\"AAAAAAAAAAAAAAAA\"," ++
  "\"ct\":\"AAAAAAAAAAAAAAAAAAAAAAAA\"\x7d,\"created_at_ms\":10,\"expires_at_ms\":null\x7d]"

def sampleEndpoint (id : String) : Subscription where
  subscriptionId := id
  ownerWallet := "owner"
  url := "https://example.org/hook"
  description := none
  status := .active
  secrets := sampleSecrets
  createdAtMs := 10
  updatedAtMs := 10

def sampleEvent : Event where
  eventId := "evt_1"
  ownerWallet := "owner"
  eventType := "payment.confirmed"
  version := 1
  receiptAddress := "receipt"
  body := "1"
  occurredAtMs := 20
  createdAtMs := 21

def samplePlain : List Op :=
  [.createSubscription (sampleEndpoint "we_a") 5, .emit [sampleEvent],
    .claim 30 10 60 "lease_1" 5, .complete "dlv_1_a" "lease_1" (.delivered 200) 40,
    .listDeliveries "owner" "we_a" 25]

theorem samplePlain_plain : PlainRun (Store.start [] []) samplePlain := by
  refine ⟨by unfold Plain; decide +kernel, by unfold Plain; decide +kernel, ?_, ?_, ?_, trivial⟩
  · have hargs : Convex.safeNumber 30 = .ok 30 ∧ Convex.safeNumber 10 = .ok 10 ∧
        Convex.safeNumber 60 = .ok 60 ∧ Convex.id "lease_1" = .ok "lease_1" ∧
        Convex.safeNumber 5 = .ok 5 ∧ 30 + 60 ≤ Convex.MAX_SAFE := by decide +kernel
    obtain ⟨hnow, hlimit, hlease, htoken, hmax, hend⟩ := hargs
    refine ⟨hnow, hlimit, hlease, htoken, hmax, hend, fun state => ?_⟩
    cases state <;> decide +kernel
  · unfold Plain
    decide +kernel
  · unfold Plain
    decide +kernel

theorem backends_agree_sample :
    PlainRun (Store.start [] []) samplePlain ∧
      Agree (Store.start [] []) (Store.start [] []) samplePlain :=
  ⟨samplePlain_plain, backends_agree [] [] samplePlain samplePlain_plain⟩

theorem two_endpoints_listed : ¬ Agree (Store.start [] []) (Store.start [] [])
    [.createSubscription (sampleEndpoint "we_a") 5, .createSubscription (sampleEndpoint "we_b") 5,
      .listSubscriptions "owner"] := by
  rintro ⟨-, c₁, h₁, -, c₂, h₂, -, c₃, h₃, -⟩
  have hfirst : Convex.call (Store.start [] []) (.createSubscription (sampleEndpoint "we_a") 5) =
      .ok ({ Store.start [] [] with subscriptions := [sampleEndpoint "we_a"] }, .bool true) := by
    decide +kernel
  cases hfirst.symm.trans h₁
  have hsecond : Convex.call { Store.start [] [] with subscriptions := [sampleEndpoint "we_a"] }
      (.createSubscription (sampleEndpoint "we_b") 5) =
      .ok ({ Store.start [] [] with
        subscriptions := [sampleEndpoint "we_a", sampleEndpoint "we_b"] }, .bool true) := by
    decide +kernel
  cases hsecond.symm.trans h₂
  have hlisted : Convex.call { Store.start [] [] with
        subscriptions := [sampleEndpoint "we_a", sampleEndpoint "we_b"] }
      (.listSubscriptions "owner") =
      .ok ({ Store.start [] [] with
        subscriptions := [sampleEndpoint "we_a", sampleEndpoint "we_b"] },
        .subscriptions [sampleEndpoint "we_b", sampleEndpoint "we_a"]) := by
    decide +kernel
  obtain ⟨-, hreply⟩ := Prod.mk.inj (Except.ok.inj (hlisted.symm.trans h₃))
  exact absurd hreply (by decide)

end ChainPay.Webhooks
