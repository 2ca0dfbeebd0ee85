import ChainPay.Backend.Request

/-!
Issuer events are applied and billed at most once. The id of an event is on the event
ring or among the capture ids of the Reservation once its money has moved; the two guards
are exclusive because a row that ever had a Reservation routes a clearing around it only
after the Reservation is gone, and by then every capture on it is marked applied.
-/

namespace ChainPay.Backend
open ChainPay.Lib ChainPay.Card

/-- The ids on the event ring, oldest first, as long as the card has lived. -/
def Desk.recorded (d : Desk) : List Hash := d.history.filterMap Instr.recordedId

/-- A repeated instruction arrives while the ring still holds the event. -/
def WithinRing {t : Token} (issuer : Issuer t) (w : TxnSystem) : TxnAction → Prop
  | .land n _ => ∀ tx ∈ w.store.txs[n]?, ∀ i ∈ tx.instr.recordedId, (issuer.event i).isSome →
    i ∈ w.store.recorded → i ∈ w.store.recorded.drop (w.store.recorded.length - EVENT_RING)
  | _ => True

instance {t : Token} (issuer : Issuer t) (w : TxnSystem) : ∀ a, Decidable (WithinRing issuer w a)
  | .land n _ => inferInstanceAs (Decidable (∀ tx ∈ w.store.txs[n]?, ∀ i ∈ tx.instr.recordedId,
      (issuer.event i).isSome → i ∈ w.store.recorded →
        i ∈ w.store.recorded.drop (w.store.recorded.length - EVENT_RING)))
  | .decide _ | .asa _ | .asaStop | .start _ | .sweep | .run _ _ | .stop _ | .drop _ | .other _
  | .stale _ | .touchRow _ _ _ _ => .isTrue trivial

/-! ## The guards -/

section Guards

variable {t : Token} {present closed : Bool} {e : IssuerEvent} {instr : Instr} {label : StepLabel}

/-- Money moves under a guard. -/
theorem Routed.guarded {i : Hash} (h : Routed t present closed e instr label)
    (hi : instr.moneyId = some i) :
    instr.capturedId t.authId = some i ∨ instr.recordedId = some i := by
  cases h with
  | capture =>
    refine .inl ?_
    simp only [Instr.capturedId, if_true]
    exact hi
  | adjust => cases hi
  | unpaired | overHold | refund | late | «over» | forced | reverse | expire | returnReversal
    | correctionDebit | correctionCredit => exact .inr hi

theorem capturedId_money {h i : Hash} (hi : instr.capturedId h = some i) :
    instr.moneyId = some i := by
  cases instr with
  | capture key h' a j =>
    simp only [Instr.capturedId] at hi
    split at hi
    · exact hi
    · cases hi
  | _ => cases hi

/-- Every movement of the event's money is found by one of the guards. -/
theorem count_money_le {i : Hash} (h : Hash) (instrs : List Instr)
    (hi : ∀ instr ∈ instrs, instr.moneyId = some i →
      instr.capturedId h = some i ∨ instr.recordedId = some i) :
    (instrs.filterMap Instr.moneyId).count i ≤
      (instrs.filterMap (Instr.capturedId h)).count i +
        (instrs.filterMap Instr.recordedId).count i := by
  induction instrs with
  | nil => exact Nat.zero_le _
  | cons instr instrs ih =>
    have ih := ih fun x hx => hi x (List.mem_cons_of_mem instr hx)
    have hgrow : ∀ f : Instr → Option Hash, (instrs.filterMap f).count i ≤
        ((instr :: instrs).filterMap f).count i := by
      intro f
      rw [List.filterMap_cons]
      split
      · exact Nat.le_refl _
      · exact List.count_le_count_cons
    have hcaptured := hgrow (Instr.capturedId h)
    have hrecorded := hgrow Instr.recordedId
    by_cases hm : instr.moneyId = some i
    · have hone : ((instr :: instrs).filterMap Instr.moneyId).count i =
          (instrs.filterMap Instr.moneyId).count i + 1 := by
        rw [List.filterMap_cons, hm]
        exact List.count_cons_self
      rcases hi instr List.mem_cons_self hm with hc | hc
      · have hadd : ((instr :: instrs).filterMap (Instr.capturedId h)).count i =
            (instrs.filterMap (Instr.capturedId h)).count i + 1 := by
          rw [List.filterMap_cons, hc]
          exact List.count_cons_self
        omega
      · have hadd : ((instr :: instrs).filterMap Instr.recordedId).count i =
            (instrs.filterMap Instr.recordedId).count i + 1 := by
          rw [List.filterMap_cons, hc]
          exact List.count_cons_self
        omega
    · have hsame : ((instr :: instrs).filterMap Instr.moneyId).count i =
          (instrs.filterMap Instr.moneyId).count i := by
        rw [List.filterMap_cons]
        split
        · rfl
        · rename_i j hj
          refine List.count_cons_of_ne ?_
          intro hji
          exact hm (hj.trans (congrArg some hji))
      omega

end Guards

/-! ## The invariant -/

/-- What the guards hold. -/
structure Desk.Once (t : Token) (issuer : Issuer t) (d : Desk) : Prop where
  tracks : Ring.Tracks 0 d.chain.policy.events d.recorded
  recorded : ∀ i, (issuer.event i).isSome → d.recorded.count i ≤ 1
  captured : (d.captured t).Nodup

section Once

variable {t : Token} {Q : Promise} {issuer : Issuer t} {d d' : Desk}

theorem Desk.Once.of_eq (h : d.Once t issuer) (hchain : d'.chain = d.chain)
    (hhistory : d'.history = d.history) : d'.Once t issuer := by
  obtain ⟨hr, hc, hn⟩ := h
  refine ⟨?_, ?_, ?_⟩
  · unfold Desk.recorded
    rw [hchain, hhistory]
    exact hr
  · unfold Desk.recorded
    rw [hhistory]
    exact hc
  · unfold Desk.captured
    rw [hhistory]
    exact hn

/-- An accepted instruction. -/
theorem Desk.Once.accept (h : d.Once t issuer) (hsound : d.Sound t Q issuer) {instr : Instr}
    (hhistory : d'.history = d.history ++ [instr]) (hg : Guarded instr d.chain d'.chain)
    (hwithin : ∀ i ∈ instr.recordedId, (issuer.event i).isSome → i ∈ d.recorded →
      i ∈ d.recorded.drop (d.recorded.length - EVENT_RING)) : d'.Once t issuer := by
  have hring := hg.ring
  have hrecorded : d'.recorded = d.recorded ++ instr.recordedId.toList := by
    unfold Desk.recorded
    rw [hhistory, List.filterMap_append]
    cases hc : instr.recordedId <;>
      simp only [List.filterMap_cons, hc, List.filterMap_nil, Option.toList]
  refine ⟨?_, ?_, ?_⟩
  · rw [hrecorded]
    cases hid : instr.recordedId with
    | none =>
      rw [hid] at hring
      have hsame : d'.chain.policy.events = d.chain.policy.events := hring
      rw [hsame, Option.toList_none, List.append_nil]
      exact h.tracks
    | some i =>
      rw [hid] at hring
      rw [hring.2.2, Option.toList_some]
      exact Ring.push_tracks (by decide) (by decide) h.tracks i
  · intro j hj
    rw [hrecorded]
    cases hid : instr.recordedId with
    | none =>
      rw [Option.toList_none, List.append_nil]
      exact h.recorded j hj
    | some i =>
      rw [hid] at hring
      obtain ⟨hne, hnew, -⟩ := hring
      rw [Option.toList_some, List.count_append]
      by_cases hij : i = j
      · subst hij
        -- the ring did not hold it, so it was never recorded
        have hnot : i ∉ d.recorded := by
          intro hmem
          have hlast := hwithin i hid hj hmem
          have hin := (Ring.contains_iff (by decide) h.tracks hne).mpr hlast
          cases hnew.symm.trans hin
        rw [List.count_eq_zero_of_not_mem hnot, List.count_singleton_self]
      · have hcount := h.recorded j hj
        rw [List.count_eq_zero_of_not_mem (List.not_mem_cons_of_ne_of_not_mem (Ne.symm hij)
          List.not_mem_nil)]
        exact hcount
  · have hcaptured := Desk.captured_append (t := t) hhistory
    rw [hcaptured]
    have hstep := hg.holds t.authId
    cases hid : instr.capturedId t.authId with
    | none =>
      rw [Option.toList_none, List.append_nil]
      exact h.captured
    | some i =>
      rw [Option.toList_some]
      generalize hbefore : d.chain.capturedOn t.authId = before at hstep
      generalize d'.chain.capturedOn t.authId = after at hstep
      cases hstep with
      | same hc => cases hc.symm.trans hid
      | @captured ids j hc hnew =>
        cases hc.symm.trans hid
        obtain ⟨-, rfl⟩ := hsound.captured ids hbefore
        exact List.Nodup.append h.captured (List.nodup_singleton i)
          (List.disjoint_singleton.mpr hnew)
      | created hc => cases instr <;> first | cases hid | cases hc
      | closed hc => cases instr <;> first | cases hid | cases hc

/-- **At most once.** The two guards never both hold an event. -/
theorem Desk.Once.money (h : d.Once t issuer) (hsound : d.Sound t Q issuer) (hq : Q.closes)
    {i : Hash} (he : (issuer.event i).isSome) : (d.history.filterMap Instr.moneyId).count i ≤ 1 := by
  have hguard : (d.history.filterMap Instr.moneyId).count i ≤
      (d.captured t).count i + d.recorded.count i := by
    refine count_money_le t.authId d.history fun instr hinstr hm => ?_
    obtain ⟨e, present, closed, label, -, -, hroute⟩ := hsound.history instr hinstr i (.inl hm) he
    exact hroute.guarded hm
  have hcaptured := List.nodup_iff_count_le_one.mp h.captured i
  have hrecorded := h.recorded i he
  by_cases hc : i ∈ d.captured t
  · have hnot : i ∉ d.recorded := by
      intro hr
      obtain ⟨x, hx, hxi⟩ := List.mem_filterMap.mp hc
      obtain ⟨y, hy, hyi⟩ := List.mem_filterMap.mp hr
      obtain ⟨e, present, closed, label, hev, hreads, hroute⟩ :=
        hsound.history x hx i (.inl (capturedId_money hxi)) he
      obtain ⟨e', present', closed', label', hev', hreads', hroute'⟩ :=
        hsound.history y hy i (.inr hyi) he
      cases hev.symm.trans hev'
      obtain ⟨hdebit, hp, -⟩ := hroute.of_captured hxi
      rcases hroute'.of_recorded hdebit hyi with hp' | hc'
      · exact (hreads.ofPresent hp).not_absent (hreads'.ofAbsent hp')
      · exact (hreads'.ofClosed hc').2 hq hc
    rw [List.count_eq_zero_of_not_mem hnot] at hguard
    omega
  · rw [List.count_eq_zero_of_not_mem hc] at hguard
    omega

end Once

/-! ## Runs -/

section Runs

/-- The promise of this module's runs. -/
def Applied : Promise where
  closes := True
  paired := False

variable {t : Token} {issuer : Issuer t} {w w' : TxnSystem}

theorem Applied.keeps {a : TxnAction} (h : ClosesApplied t w a) : Applied.Keeps t w a where
  closes := fun _ => h
  pending := nofun
  resolved := nofun

variable [Runtime]

/-- Only the program changes what the guards hold. -/
theorem step_once {a : TxnAction} (hw : w.Safe t Applied issuer) (ho : w.store.Once t issuer)
    (hring : WithinRing issuer w a) (hclose : ClosesApplied t w a)
    (h : w.step t issuer a = .ok w') : w'.store.Once t issuer := by
  have hinv := hw.inv
  cases a with
  | decide req =>
    simp only [TxnSystem.step] at h
    split at h
    · split at h
      · cases h
        exact ho.of_eq rfl rfl
      · cases h
    · cases h
  | asa a =>
    cases h
    have hstep := decide_ok hinv a (by rintro ⟨⟩)
    exact ho.of_eq hstep.chain hstep.history
  | asaStop =>
    cases h
    exact ho.of_eq rfl rfl
  | start truth =>
    simp only [TxnSystem.step] at h
    split at h
    · cases h
      exact ho
    · cases h
  | sweep =>
    cases h
    exact ho
  | run i a =>
    simp only [TxnSystem.step] at h
    split at h
    · cases h
    · rename_i p hp
      cases h
      have hstep := run_ok hinv (hw.procs p (List.mem_of_getElem? hp)) a
        (by rintro ⟨⟩)
      exact ho.of_eq hstep.chain hstep.history
  | stop i =>
    simp only [TxnSystem.step] at h
    split at h
    · cases h
    · cases h
      exact ho
  | land n ctx =>
    simp only [TxnSystem.step] at h
    split at h
    · rename_i d hd
      cases h
      unfold Desk.land at hd
      split at hd
      · rename_i event instr hget
        split at hd
        · rename_i chain hx
          cases hd
          refine ho.accept hinv rfl (exec_guards hx ?_) fun i hi => hring _ hget i hi
          exact (hinv.txs _ (List.mem_of_getElem? hget)).wipes
        · cases hd
          exact ho.of_eq rfl rfl
      · cases hd
    · cases h
  | drop n =>
    simp only [TxnSystem.step] at h
    split at h
    · rename_i d hd
      cases h
      unfold Desk.drop at hd
      split at hd
      · cases hd
        exact ho.of_eq rfl rfl
      · cases hd
    · cases h
  | other call =>
    simp only [TxnSystem.step] at h
    split at h
    · rename_i hforeign
      split at h
      · rename_i d hd
        cases h
        unfold Desk.other at hd
        split at hd
        · rename_i chain hx
          cases hd
          simp only [Issuer.isForeign, Bool.and_eq_true, Bool.not_eq_true',
            Option.all_eq_true] at hforeign
          obtain ⟨⟨⟨⟨⟨hwipes, -⟩, -⟩, -⟩, hrecorded⟩, -⟩ := hforeign
          refine ho.accept hinv rfl (exec_guards hx hwipes) fun i hi he => ?_
          rw [Option.isNone_iff_eq_none.mp (hrecorded i hi)] at he
          cases he
        · cases hd
      · cases h
    · cases h
  | stale updated =>
    cases h
    exact ho.of_eq rfl rfl
  | touchRow dispute status notFinal updated =>
    cases h
    exact ho.of_eq rfl rfl

theorem initial_once {chain : State} (hfresh : Fresh chain) :
    (TxnSystem.initial chain).store.Once t issuer := by
  obtain ⟨binding, hpolicy, -⟩ := hfresh.eq
  refine ⟨?_, fun _ _ => Nat.zero_le _, List.nodup_nil⟩
  have hevents : chain.policy.events = Ring.init EVENT_RING 0 := by
    rw [hpolicy]
    rfl
  change Ring.Tracks 0 chain.policy.events []
  rw [hevents]
  exact Ring.tracks_init EVENT_RING 0

/-- The step repeats nothing the ring has forgotten and closes nothing that is not
applied. -/
def Replayable (issuer : Issuer t) (w : TxnSystem) (a : TxnAction) (_ : TxnSystem) : Prop :=
  WithinRing issuer w a ∧ ClosesApplied t w a

theorem run_safe_once {w : TxnSystem} (hw : w.Safe t Applied issuer)
    (ho : w.store.Once t issuer) {as : List TxnAction}
    (hrun : Runs.Along (TxnSystem.step t issuer) (Replayable issuer) w as) :
    (Runs.after (TxnSystem.step t issuer) w as).Safe t Applied issuer ∧
      (Runs.after (TxnSystem.step t issuer) w as).store.Once t issuer := by
  refine Runs.after_inv (I := fun w => w.Safe t Applied issuer ∧ w.store.Once t issuer) ?_ hrun
    ⟨hw, ho⟩
  rintro w a w' ⟨hring, hclose⟩ hstep ⟨hw, ho⟩
  exact ⟨(step_safe hw (Applied.keeps hclose) hstep).1, step_once hw ho hring hclose hstep⟩

/-- A stored posting stays as it is. -/
theorem run_postings {w : TxnSystem} (hw : w.Safe t Applied issuer) {as : List TxnAction}
    (hrun : Runs.Along (TxnSystem.step t issuer) (Replayable issuer) w as) {i : Hash}
    {r : Row Posting} (hr : w.store.postings.lookup i = some r) :
    (Runs.after (TxnSystem.step t issuer) w as).store.postings.lookup i = some r := by
  refine (Runs.after_inv
    (I := fun w => w.Safe t Applied issuer ∧ w.store.postings.lookup i = some r) ?_ hrun
    ⟨hw, hr⟩).2
  rintro w a w' ⟨-, hclose⟩ hstep ⟨hw, hr⟩
  obtain ⟨hw', L⟩ := step_safe hw (Applied.keeps hclose) hstep
  exact ⟨hw', L.postings i r hr⟩

/-- **Issuer events are applied and billed at most once.** In every interleaving of the
request, passes and sweeps over a new card, whatever is dropped, lands late or is never
heard of, as long as no instruction is repeated after the ring has forgotten it and no
Reservation is closed before the captures on it are marked applied: the money of an event
moves at most once, a stored posting is never replaced, and an event is marked applied
only when it is accounted for. -/
theorem issuer_events_apply_once {chain : State} (hfresh : Fresh chain) {as : List TxnAction}
    (hrun : Runs.Along (TxnSystem.step t issuer) (Replayable issuer) (.initial chain) as) :
    let w := Runs.after (TxnSystem.step t issuer) (.initial chain) as
    (∀ i, (issuer.event i).isSome → (w.store.history.filterMap Instr.moneyId).count i ≤ 1) ∧
      (∀ before after i r, as = before ++ after →
        (Runs.after (TxnSystem.step t issuer) (.initial chain) before).store.postings.lookup i =
          some r → w.store.postings.lookup i = some r) ∧
      ∀ row, w.store.row = some row → ∀ i ∈ row.value.appliedEventIds,
        w.store.Accounts issuer row.value i := by
  have hfirst : (TxnSystem.initial chain).Safe t Applied issuer := initial_safe hfresh
  obtain ⟨hsafe, honce⟩ := run_safe_once hfirst (initial_once hfresh) hrun
  refine ⟨fun i he => honce.money hsafe.inv trivial he, ?_, ?_⟩
  · rintro before after i r rfl hr
    rw [Runs.along_append] at hrun
    obtain ⟨hmid, -⟩ := run_safe_once hfirst (initial_once hfresh) hrun.1
    rw [Runs.after_append]
    exact run_postings hmid hrun.2 hr
  · exact fun row hrow => (hsafe.inv.row row hrow).applied

instance (issuer : Issuer t) (w w' : TxnSystem) (a : TxnAction) :
    Decidable (Replayable issuer w a w') := inferInstanceAs (Decidable (_ ∧ _))

end Runs

namespace Sample
open Card.Sample

/-- Two clearings of one hold and a clearing the issuer declined. -/
def cleared : Issuer token :=
  issuerOf [clearing 21 1 400, clearing 22 2 600, { clearing 23 3 500 with result := some false }]
    (by decide) (by decide)

/-- The snapshot after both clearings, and after the first. -/
def both : Truth := ⟨.settled, true, [clearing 21 1 400, clearing 22 2 600]⟩
def firstOnly : Truth := ⟨.settled, true, [clearing 21 1 400]⟩

/-- Both clearings are captured and billed, then the Reservation is closed. -/
def billed : List TxnAction :=
  opened 1000 ++ approved 1000 0 ++ [.start both] ++ runs 0 3 ++ [lands 1] ++ runs 0 2 ++
    [lands 2] ++ runs 0 7 ++ [lands 3] ++ runs 0 4

theorem issuer_events_apply_once_billed :
    let w := Runs.after (TxnSystem.step token cleared) (.initial start) billed
    w.store.row.map (fun row => (row.value.appliedEventIds, row.value.reservationClosed)) =
        some ([key 21, key 22], true) ∧
      w.store.postings.entries.length = 2 ∧
      (w.store.history.filterMap Instr.moneyId).count (key 22) ≤ 1 := by
  have hrun : Runs.Along (TxnSystem.step token cleared) (Replayable cleared) (.initial start)
      billed := by decide
  refine ⟨by decide, by decide, ?_⟩
  exact (issuer_events_apply_once start_fresh hrun).1 (key 22) (by decide)

/-- A pass stops after its second capture landed; another, over the older snapshot, closes
the final hold; the retry books the second clearing again, without the Reservation. -/
def closedEarly : List TxnAction :=
  opened 1000 ++ approved 1000 0 ++ [.start both] ++ runs 0 3 ++ [lands 1] ++ runs 0 2 ++
    [lands 2, .stop 0, .start firstOnly] ++ runs 1 3 ++ [lands 3] ++ runs 1 6 ++ [lands 4] ++
    runs 1 4 ++ [.start both] ++ runs 2 3 ++ [lands 5]

/-- A clearing the issuer declined. -/
def declined : List TxnAction :=
  [.start ⟨.declined, false, [{ clearing 23 3 500 with result := some false }]⟩] ++ runs 0 5

/-- The money of a clearing moves twice although the ring forgets nothing, and a declined
event is marked applied with no posting and nothing sent. -/
theorem clearing_booked_twice :
    Runs.Along (TxnSystem.step token cleared) (fun w a _ => WithinRing cleared w a)
        (.initial start) closedEarly ∧
      ((Runs.after (TxnSystem.step token cleared) (.initial start)
        closedEarly).store.history.filterMap Instr.moneyId).count (key 22) = 2 ∧
      let w := Runs.after (TxnSystem.step token cleared) (.initial start) declined
      w.store.row.map (fun row => row.value.appliedEventIds) = some [key 23] ∧
        w.store.postings.lookup (key 23) = none ∧ w.store.txs.length = 0 := by
  decide +kernel

end Sample

end ChainPay.Backend
