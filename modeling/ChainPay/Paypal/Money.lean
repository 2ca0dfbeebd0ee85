import ChainPay.Paypal.Refunds
import ChainPay.Paypal.Store

/-!
The money of every task over whole runs. A step creates one task, moves the books of tasks without
claiming a call, or claims one call for one task (`step_tasks`); so the books of every task stay
sound, no call is claimed twice, and a refunded output is never reworked.
-/

namespace ChainPay.Paypal
open ChainPay.Lib

/-- A task's money after a step: the books moved, and what is covered was not reworked. -/
structure Task.Advances (t : Task) (slot : Option Books.Slot) (t' : Task) : Prop where
  id : t'.id = t.id
  move : Books.Move t.books slot t'.books
  version : ∀ i ∈ t.books.covered, t'.version i = t.version i

theorem Task.Advances.refl (t : Task) : t.Advances none t :=
  ⟨rfl, .stay _, fun _ _ => rfl⟩

theorem Task.Follows.advances {t t' : Task} {slot : Option Books.Slot} (h : t.Follows slot t') :
    t.Advances slot t' := ⟨h.id, h.move, h.version⟩

/-- Accounting writes nothing of a task but its review. -/
theorem accountAllowance_task {t t' : Task} {w w' : Wallet} {now : Nat → Nat}
    (h : accountAllowance t w now = .ok (t', w')) : ∃ r, t' = { t with paymentReview := r } := by
  unfold accountAllowance at h
  split at h
  · cases h
    exact ⟨t.paymentReview, rfl⟩
  · simp only [bind_eq_ok, pure_eq_ok, Prod.mk.injEq] at h
    obtain ⟨π, -, service, -, w₁, -, rfl, -⟩ := h
    split
    · exact ⟨_, rfl⟩
    · exact ⟨t.paymentReview, rfl⟩

theorem accountAllowance_money {t t' : Task} {w w' : Wallet} {now : Nat → Nat}
    (h : accountAllowance t w now = .ok (t', w')) :
    t'.id = t.id ∧ t'.books = t.books ∧ t'.version = t.version := by
  obtain ⟨review, rfl⟩ := accountAllowance_task h
  exact ⟨rfl, rfl, rfl⟩

/-- The money of a state. -/
structure Booked (s : State) : Prop where
  ids : (s.tasks.map (·.task.id)).Nodup
  sound : ∀ r ∈ s.tasks, r.task.books.Sound
  calls : (s.outstanding ++ s.dispatched).Nodup
  claimed : ∀ d ∈ s.outstanding ++ s.dispatched, ∃ r ∈ s.tasks, ∃ slot,
    r.task.books.taken slot = true ∧ d = r.task.dispatch slot

/-- What a step does to the tasks and to the calls. -/
inductive Effect (s s' : State) : Prop where
  | created (r : TaskRow) (hsound : r.task.books.Sound) (hfresh : ∀ q ∈ s.tasks, q.task.id ≠ r.task.id)
    (htasks : s'.tasks = s.tasks ++ [r])
    (hcalls : (s'.outstanding ++ s'.dispatched).Perm (s.outstanding ++ s.dispatched))
  | moved (f : TaskRow → TaskRow) (htasks : s'.tasks = s.tasks.map f)
    (hmoved : ∀ r ∈ s.tasks, r.task.Advances none (f r).task)
    (hcalls : (s'.outstanding ++ s'.dispatched).Perm (s.outstanding ++ s.dispatched))
  | claimed (r : TaskRow) (hr : r ∈ s.tasks) (slot : Books.Slot) (f : TaskRow → TaskRow)
    (htasks : s'.tasks = s.tasks.map f) (hclaim : r.task.Advances (some slot) (f r).task)
    (hmoved : ∀ q ∈ s.tasks, q.task.id ≠ r.task.id → f q = q)
    (hcalls : (s'.outstanding ++ s'.dispatched).Perm
      (r.task.dispatch slot :: (s.outstanding ++ s.dispatched)))

section

variable {s s' : State}

theorem Effect.same (htasks : s'.tasks = s.tasks) (hout : s'.outstanding = s.outstanding)
    (hdone : s'.dispatched = s.dispatched) : Effect s s' := by
  refine .moved id ?_ (fun _ _ => .refl _) ?_
  · rw [htasks, List.map_id]
  · rw [hout, hdone]

/-- Writing one task. -/
theorem Effect.put {r : TaskRow} {t : Task} {slot : Option Books.Slot}
    (hids : (s.tasks.map (·.task.id)).Nodup) (hr : r ∈ s.tasks) (hadv : r.task.Advances slot t)
    (htasks : s'.tasks =
      updateWhere (fun q => q.task.id = t.id) (fun q => { q with task := t }) s.tasks)
    (hout : s'.outstanding = s.outstanding ++ (slot.map r.task.dispatch).toList)
    (hdone : s'.dispatched = s.dispatched) : Effect s s' := by
  -- the row with the task's id is `r`
  have hself : (if r.task.id = t.id then { r with task := t } else r) = { r with task := t } :=
    if_pos hadv.id.symm
  cases slot with
  | none =>
    refine .moved (fun q => if q.task.id = t.id then { q with task := t } else q) ?_ ?_ ?_
    · rw [htasks, updateWhere]
      simp only [decide_eq_true_eq]
    · intro q hq
      by_cases hid : q.task.id = t.id
      · have heq : q = r := eq_of_key hids hq hr (hid.trans hadv.id)
        subst heq
        rw [hself]
        exact hadv
      · rw [if_neg hid]
        exact .refl _
    · rw [hout, hdone]
      simp
  | some slot =>
    refine .claimed r hr slot (fun q => if q.task.id = t.id then { q with task := t } else q) ?_ ?_
      ?_ ?_
    · rw [htasks, updateWhere]
      simp only [decide_eq_true_eq]
    · rw [hself]
      exact hadv
    · intro q hq hne
      rw [hadv.id, if_neg hne]
    · rw [hout, hdone, Option.map_some, Option.toList_some, List.append_assoc]
      exact List.perm_middle

variable [Env]

theorem update_effect {p : Principal} {id : String} {c : Change} {now : Nat → Nat} (hi : Booked s)
    (h : s.update p id c now = .ok s') : Effect s s' := by
  simp only [State.update, bind_eq_ok, okOr_eq_ok, pure_eq_ok, Prod.exists] at h
  obtain ⟨r, hr, t₁, w₁, hbefore, t₂, call, happly, t₃, w₃, hafter, rfl⟩ := h
  obtain ⟨hmem, -⟩ := find?_spec hr
  obtain ⟨hid₁, hbooks₁, hversion₁⟩ := accountAllowance_money hbefore
  obtain ⟨hid₃, hbooks₃, hversion₃⟩ := accountAllowance_money hafter
  have hsound : t₁.books.Sound := by
    rw [hbooks₁]
    exact hi.sound r hmem
  obtain ⟨slot, hfollows, hcall⟩ := Task.apply_follows hsound happly
  have hadv : r.task.Advances slot t₃ := by
    refine ⟨hid₃.trans (hfollows.id.trans hid₁), ?_, ?_⟩
    · rw [hbooks₃, ← hbooks₁]
      exact hfollows.move
    · intro i hi
      rw [hversion₃, ← hversion₁]
      refine hfollows.version i ?_
      rwa [hbooks₁]
  have hsame : slot.map t₁.dispatch = slot.map r.task.dispatch := by
    have hdispatch : t₁.dispatch = r.task.dispatch := by
      funext x
      cases x <;> simp only [Task.dispatch, hid₁]
    rw [hdispatch]
  rw [hsame] at hcall
  exact .put hi.ids hmem hadv rfl (by rw [← hcall]; rfl) rfl

theorem reserve_effect {p : Principal} {r : TaskRow} {sub : Subscription} {d : Option String}
    {now : Nat → Nat} (hi : Booked s) (hr : r ∈ s.tasks)
    (h : s.reserve p r.task sub d now = .ok s') : Effect s s' := by
  simp only [State.reserve, bind_eq_ok, ensure_eq_ok, exists_unit, okOr_eq_ok, pure_eq_ok] at h
  obtain ⟨⟨horder, hcap, hclaim, -⟩, -, -, -, π, -, units, -, -, -, -, -, w, -, pid, -, rfl⟩ := h
  have hmove : ∀ (f : Funding) (stamp : Option Nat), r.task.Advances none
      { r.task with subscriptionFunding := some f, approvedAt := stamp } := by
    intro f stamp
    refine ⟨rfl, Books.Move.fund ?_ ?_ ?_, fun _ _ => rfl⟩
    · simpa [Task.books] using horder
    · simpa [Task.books] using hcap
    · simpa [Task.books] using hclaim
  exact .put hi.ids hr (hmove _ _) rfl (List.append_nil _).symm rfl

theorem quote_effect {p : Principal} {documents : List Document} {service : String}
    {requirements key : Option String} {requestId fingerprint : String} {now : Nat}
    (h : step s (.quote p documents service requirements key requestId fingerprint now) = .ok s') :
    Effect s s' := by
  simp only [step, bind_eq_ok] at h
  obtain ⟨t, hquote, h⟩ := h
  simp only [State.createTask, bind_eq_ok] at h
  obtain ⟨-, -, h⟩ := h
  split at h
  · simp only [bind_eq_ok, pure_eq_ok] at h
    obtain ⟨-, -, rfl⟩ := h
    exact .same rfl rfl rfl
  · simp only [bind_eq_ok, ensure_eq_ok, exists_unit, pure_eq_ok] at h
    obtain ⟨hnew, rfl⟩ := h
    refine .created ⟨requestId, fingerprint, t⟩ (Task.quoteService_sound hquote) ?_ rfl
      (List.Perm.refl _)
    intro q hq hid
    exact hnew (List.any_eq_true.mpr ⟨q, hq, decide_eq_true hid⟩)

omit [Env] in
theorem dispatch_effect {call : Dispatch} (h : s.dispatch call = .ok s') : Effect s s' := by
  simp only [State.dispatch, bind_eq_ok, ensure_eq_ok, exists_unit, pure_eq_ok] at h
  obtain ⟨hmem, rfl⟩ := h
  refine .moved id (List.map_id _).symm (fun _ _ => .refl _) ?_
  calc (s.outstanding.erase call ++ (s.dispatched ++ [call])).Perm
        (call :: (s.outstanding.erase call ++ s.dispatched)) := by
        rw [← List.append_assoc]
        exact List.perm_append_singleton ..
    _ |>.Perm (s.outstanding ++ s.dispatched) := by
        rw [← List.cons_append]
        exact (List.perm_cons_erase hmem).symm.append_right _

theorem allocate_effect {p : Principal} {id sid digest : String} {d : Option String}
    {now : Nat → Nat} (hi : Booked s) (h : s.allocate p id sid digest d now = .ok s') :
    Effect s s' := by
  simp only [State.allocate, bind_eq_ok, ensure_eq_ok, exists_unit, okOr_eq_ok] at h
  obtain ⟨-, sub, -, -, r, hr, -, h⟩ := h
  split at h
  · simp only [bind_eq_ok, pure_eq_ok] at h
    obtain ⟨-, -, rfl⟩ := h
    exact .same rfl rfl rfl
  · exact reserve_effect hi (find?_spec hr).1 h

omit [Env] in
theorem blockTasks_effect (id reason : String) : Effect s (s.blockTasks id reason) := by
  refine .moved (fun r => if r.task.subscriptionFunding.any fun f => f.subscriptionId = id then
    { r with task := { r.task with paymentReview := some reason } } else r) rfl ?_ (List.Perm.refl _)
  intro r _
  dsimp only
  split
  · exact ⟨rfl, .stay _, fun _ _ => rfl⟩
  · exact .refl _

/-- **What a step does to the money.** -/
theorem step_effect {op : Op} (hi : Booked s) (h : step s op = .ok s') : Effect s s' := by
  cases op with
  | quote => exact quote_effect h
  | update p id c now => exact update_effect hi h
  | dispatch call => exact dispatch_effect h
  | subscribe p requestId planId id key now =>
    simp only [step, State.subscribe, bind_eq_ok] at h
    obtain ⟨-, -, -, -, h⟩ := h
    split at h
    · simp only [bind_eq_ok, pure_eq_ok] at h
      obtain ⟨-, -, rfl⟩ := h
      exact .same rfl rfl rfl
    · simp only [bind_eq_ok, pure_eq_ok] at h
      obtain ⟨_, -, _, -, -, -, rfl⟩ := h
      exact .same rfl rfl rfl
  | createUnknown id =>
    cases h
    exact .same rfl rfl rfl
  | cancel p id terms reason key now =>
    simp only [step, State.cancel, bind_eq_ok, pure_eq_ok] at h
    obtain ⟨_, -, -, -, -, -, -, -, _, -, rfl⟩ := h
    exact .same rfl rfl rfl
  | cancelAnswered id ok =>
    cases h
    exact .same rfl rfl rfl
  | observe p id v =>
    simp only [step, State.observeSubscription, State.putSubscription, bind_eq_ok, pure_eq_ok] at h
    obtain ⟨_, -, _, -, _, -, -, -, rfl⟩ := h
    exact .same rfl rfl rfl
  | grant id history now =>
    simp only [step, State.grant, State.putSubscription, bind_eq_ok, pure_eq_ok] at h
    obtain ⟨_, -, _, -, -, -, rfl⟩ := h
    exact .same rfl rfl rfl
  | allocate p id sid digest d now => exact allocate_effect hi h
  | view p id now =>
    simp only [step, State.view, bind_eq_ok, pure_eq_ok] at h
    obtain ⟨_, -, _, -, rfl⟩ := h
    exact .same rfl rfl rfl
  | block id reason =>
    cases h
    exact .same rfl rfl rfl
  | blockTasks id reason =>
    cases h
    exact blockTasks_effect id reason
  | delegate p id m now =>
    simp only [step, State.delegate, bind_eq_ok] at h
    obtain ⟨_, -, -, -, -, -, h⟩ := h
    split at h
    · simp only [bind_eq_ok, pure_eq_ok] at h
      obtain ⟨-, -, -, -, rfl⟩ := h
      exact .same rfl rfl rfl
    · cases h
      exact .same rfl rfl rfl
  | revoke p id did =>
    simp only [step, State.revoke, bind_eq_ok, pure_eq_ok] at h
    obtain ⟨_, -, -, -, rfl⟩ := h
    exact .same rfl rfl rfl

/-! ## Whole runs -/

omit [Env] in
theorem dispatch_inj {t t' : Task} {x y : Books.Slot} (h : t.dispatch x = t'.dispatch y) :
    t.id = t'.id ∧ x = y := by
  cases x <;> cases y <;> simp_all [Task.dispatch]

omit [Env] in
/-- Every task of the state is there after the step, advanced. -/
theorem Effect.advances (hi : Booked s) (h : Effect s s') :
    ∀ r ∈ s.tasks, ∃ r' ∈ s'.tasks, ∃ slot, r.task.Advances slot r'.task := by
  intro r hr
  cases h with
  | created q hsound hfresh htasks hcalls =>
    rw [htasks]
    exact ⟨r, List.mem_append_left _ hr, none, .refl _⟩
  | moved f htasks hmoved hcalls =>
    rw [htasks]
    exact ⟨f r, List.mem_map_of_mem hr, none, hmoved r hr⟩
  | claimed q hq slot f htasks hclaim hmoved hcalls =>
    rw [htasks]
    refine ⟨f r, List.mem_map_of_mem hr, ?_⟩
    by_cases hid : r.task.id = q.task.id
    · have heq := eq_of_key hi.ids hr hq hid
      subst heq
      exact ⟨some slot, hclaim⟩
    · rw [hmoved r hr hid]
      exact ⟨none, .refl _⟩

omit [Env] in
theorem Effect.booked (hi : Booked s) (h : Effect s s') : Booked s' := by
  -- calls that were claimed stay claimed
  have hkept : ∀ d ∈ s.outstanding ++ s.dispatched, ∃ r ∈ s'.tasks, ∃ slot,
      r.task.books.taken slot = true ∧ d = r.task.dispatch slot := by
    intro d hd
    obtain ⟨r, hr, slot, htaken, rfl⟩ := hi.claimed d hd
    obtain ⟨r', hr', x, hadv⟩ := h.advances hi r hr
    refine ⟨r', hr', slot, hadv.move.taken_mono htaken, ?_⟩
    cases slot <;> simp only [Task.dispatch, hadv.id]
  cases h with
  | created q hsound hfresh htasks hcalls =>
    refine ⟨?_, ?_, hcalls.nodup_iff.mpr hi.calls, fun d hd => hkept d (hcalls.mem_iff.mp hd)⟩
    · rw [htasks, List.map_append, List.map_cons, List.map_nil, List.nodup_append]
      refine ⟨hi.ids, List.nodup_singleton _, ?_⟩
      rintro a ha b hb rfl
      obtain ⟨r, hr, hid⟩ := List.mem_map.mp ha
      exact hfresh r hr (hid.trans (List.mem_singleton.mp hb))
    · intro r hr
      rw [htasks, List.mem_append, List.mem_singleton] at hr
      rcases hr with hr | rfl
      · exact hi.sound r hr
      · exact hsound
  | moved f htasks hmoved hcalls =>
    refine ⟨?_, ?_, hcalls.nodup_iff.mpr hi.calls, fun d hd => hkept d (hcalls.mem_iff.mp hd)⟩
    · have hids : s'.tasks.map (·.task.id) = s.tasks.map (·.task.id) := by
        rw [htasks, List.map_map]
        exact List.map_congr_left fun r hr => (hmoved r hr).id
      rw [hids]
      exact hi.ids
    · intro r hr
      rw [htasks] at hr
      obtain ⟨q, hq, rfl⟩ := List.mem_map.mp hr
      exact (hi.sound q hq).move (hmoved q hq).move
  | claimed q hq slot f htasks hclaim hmoved hcalls =>
    have hadv : ∀ r ∈ s.tasks, ∃ x, r.task.Advances x (f r).task := by
      intro r hr
      by_cases hid : r.task.id = q.task.id
      · have heq := eq_of_key hi.ids hr hq hid
        subst heq
        exact ⟨some slot, hclaim⟩
      · rw [hmoved r hr hid]
        exact ⟨none, .refl _⟩
    obtain ⟨hfree, htaken⟩ := hclaim.move.claims
    refine ⟨?_, ?_, ?_, ?_⟩
    · have hids : s'.tasks.map (·.task.id) = s.tasks.map (·.task.id) := by
        rw [htasks, List.map_map]
        refine List.map_congr_left fun r hr => ?_
        obtain ⟨x, hx⟩ := hadv r hr
        exact hx.id
      rw [hids]
      exact hi.ids
    · intro r hr
      rw [htasks] at hr
      obtain ⟨p, hp, rfl⟩ := List.mem_map.mp hr
      obtain ⟨x, hx⟩ := hadv p hp
      exact (hi.sound p hp).move hx.move
    · -- a call claimed before belongs to a slot that was taken; this one was free
      rw [hcalls.nodup_iff, List.nodup_cons]
      refine ⟨fun hd => ?_, hi.calls⟩
      obtain ⟨r, hr, x, hx, hsame⟩ := hi.claimed _ hd
      obtain ⟨hid, rfl⟩ := dispatch_inj hsame
      have heq := eq_of_key hi.ids hq hr hid
      subst heq
      rw [hfree] at hx
      cases hx
    · intro d hd
      rcases List.mem_cons.mp (hcalls.mem_iff.mp hd) with rfl | hd
      · refine ⟨f q, ?_, slot, htaken, ?_⟩
        · rw [htasks]
          exact List.mem_map_of_mem hq
        · cases slot <;> simp only [Task.dispatch, hclaim.id]
      · exact hkept d hd

omit [Env] in
theorem booked_initial : Booked State.initial where
  ids := List.nodup_nil
  sound := fun _ hr => (List.not_mem_nil hr).elim
  calls := List.nodup_nil
  claimed := fun _ hd => (List.not_mem_nil hd).elim

theorem booked_after {ops : List Op} (hi : Booked s) : Booked (Runs.after step s ops) :=
  Runs.after_inv (fun _ _ _ _ h hi => (step_effect hi h).booked hi) (Runs.along_true s ops) hi

/-- A covered output keeps its version over a run. -/
theorem version_after {ops : List Op} (hi : Booked s) {r : TaskRow} (hr : r ∈ s.tasks) {i : Nat}
    (hc : i ∈ r.task.books.covered) :
    ∃ r' ∈ (Runs.after step s ops).tasks, r'.task.id = r.task.id ∧
      r'.task.version i = r.task.version i := by
  have hall : Booked (Runs.after step s ops) ∧ ∃ r' ∈ (Runs.after step s ops).tasks,
      r'.task.id = r.task.id ∧ i ∈ r'.task.books.covered ∧
        r'.task.version i = r.task.version i := by
    refine Runs.after_inv (I := fun s' => Booked s' ∧ ∃ r' ∈ s'.tasks, r'.task.id = r.task.id ∧
      i ∈ r'.task.books.covered ∧ r'.task.version i = r.task.version i) ?_ (Runs.along_true s ops)
      ⟨hi, r, hr, rfl, hc, rfl⟩
    rintro s₁ op s₂ - hstep ⟨hb, r₁, hr₁, hid, hcovered, hversion⟩
    have heffect := step_effect hb hstep
    obtain ⟨r₂, hr₂, slot, hadv⟩ := heffect.advances hb r₁ hr₁
    exact ⟨heffect.booked hb, r₂, hr₂, hadv.id.trans hid,
      hadv.move.covered_mono (hb.sound r₁ hr₁) i hcovered,
      (hadv.version i hcovered).trans hversion⟩
  obtain ⟨-, r', hr', hid, -, hversion⟩ := hall
  exact ⟨r', hr', hid, hversion⟩

/-- **Task money is bounded and dispatched once.** After any operations in any order, every task's
confirmed refunds are within the reserved ones and these within its price, each output is covered by
one reserved refund at most and is not reworked after that, a provider's refund id stands for one
refund, no task is both funded by a subscription and captured, and no provider call was claimed or
made twice. -/
theorem task_money (ops later : List Op) :
    let s := Runs.after step State.initial ops
    (∀ r ∈ s.tasks,
      r.task.confirmedRefunds ≤ r.task.reservedRefunds ∧ r.task.reservedRefunds ≤ r.task.amount ∧
      (r.task.captured = true → r.task.paymentReview = none → r.task.net.isSome = true) ∧
      r.task.books.covered.Nodup ∧ r.task.books.providerIds.Nodup ∧
      ¬ (r.task.subscriptionFunding.isSome = true ∧ r.task.captured = true) ∧
      ∀ i ∈ r.task.books.covered, ∃ r' ∈ (Runs.after step State.initial (ops ++ later)).tasks,
        r'.task.id = r.task.id ∧ r'.task.version i = r.task.version i) ∧
    (s.outstanding ++ s.dispatched).Nodup := by
  intro s
  have hb : Booked s := booked_after booked_initial
  refine ⟨fun r hr => ?_, hb.calls⟩
  have hsound := hb.sound r hr
  have hconfirmed : r.task.confirmedRefunds ≤ r.task.reservedRefunds := by
    rw [← r.task.books_confirmed, ← r.task.books_reserved]
    exact hsound.confirmed_le
  have hreserved : r.task.reservedRefunds ≤ r.task.amount := by
    rw [← r.task.books_reserved]
    exact hsound.reserved_le
  refine ⟨hconfirmed, hreserved, ?_, hsound.nodup, hsound.providers, ?_, ?_⟩
  · intro hcap hreview
    rw [Task.net, hreview, hcap, if_neg (by simp), if_pos (hconfirmed.trans hreserved)]
    rfl
  · rintro ⟨hfund, hcap⟩
    obtain ⟨hnot, -⟩ := hsound.unordered (hsound.funded hfund)
    exact Bool.false_ne_true (hnot.symm.trans hcap)
  · intro i hi
    rw [Runs.after_append]
    exact version_after hb hr hi

end

end ChainPay.Paypal
