import ChainPay.Card.Standing

/-!
Commitments between the two ledgers. A `checkpoint` on the rollup schedules a
`write_commitment` on the base layer; the scheduled actions may get lost, come twice or come
in any order. A delivery is any `write_commitment` of a scheduled action, stored or refused as
stale. Until the card is wiped the published root is the one with the greatest number that was
delivered, and no two checkpoints share a number.
-/

namespace ChainPay.Card
open ChainPay.Lib

/-- What `write_commitment` stores, less the slot. -/
def CardCommitment.action (c : CardCommitment) : CommitmentAction :=
  ⟨c.root, c.seq, c.policyVersion, c.periodIndex⟩

/-- The action that a checkpoint on the card computes. -/
def Instr.commits (s : State) : Instr → List CommitmentAction
  | .checkpoint _ m n =>
    [⟨commitmentRoot s.policy s.period m, n, s.policy.policyVersion, s.period.periodIndex⟩]
  | _ => []

/-- The scheduled action that the instruction brings to the base layer. -/
def Instr.delivers (s : State) : Instr → List CommitmentAction
  | .writeCommitment a => if a ∈ s.scheduled then [a] else []
  | _ => []

/-- What one instruction other than a wipe does to the commitments. -/
inductive OutboxStep (s : State) (instr : Instr) (s' : State) : Prop where
  | checkpoint {a : CommitmentAction} (hc : instr.commits s = [a])
      (hd : instr.delivers s = []) (hseq : a.seq = s.policy.commitSeq + 1)
      (hs : s'.scheduled = s.scheduled ++ [a]) (hnext : s'.policy.commitSeq = a.seq)
      (hsame : s'.commitment = s.commitment)
  | deliver {a : CommitmentAction} (hc : instr.commits s = []) (hd : instr.delivers s = [a])
      (hlt : s.commitment.seq < a.seq) (hs : s'.scheduled = s.scheduled)
      (hnext : s'.policy.commitSeq = s.policy.commitSeq) (hset : s'.commitment.action = a)
  | quiet (hc : instr.commits s = []) (hd : instr.delivers s = [])
      (hs : s'.scheduled = s.scheduled)
      (hnext : s'.policy.commitSeq = s.policy.commitSeq) (hsame : s'.commitment = s.commitment)

section Steps

variable [Runtime] {s s' : State} {call : Call}

theorem exec_outbox (h : exec s call = .ok s') (hno : call.instr.wipes = false) :
    OutboxStep s call.instr s' := by
  by_cases hq : call.instr.isClerical = true
  · obtain ⟨ctx, instr⟩ := call
    cases instr with
    | initPermission o a =>
      simp only [exec, initPermission, bind_eq_ok, exists_unit, ensure_eq_ok] at h
      obtain ⟨-, -, h⟩ := h
      split at h
      · simp only [bind_eq_ok, exists_unit, pure_eq_ok] at h
        obtain ⟨-, p, hp, rfl⟩ := h
        have hstand := appendLedger_standing hp
        exact .quiet rfl rfl rfl (congrArg Standing.commitSeq hstand) rfl
      · simp only [bind_eq_ok, exists_unit, ensure_eq_ok, pure_eq_ok] at h
        obtain ⟨-, -, rfl⟩ := h
        exact .quiet rfl rfl rfl rfl rfl
    | updatePermission o op rest =>
      simp only [exec, updatePermission, bind_eq_ok, exists_unit, ensure_eq_ok, pure_eq_ok] at h
      obtain ⟨-, -, ⟨p, key, code⟩, hedit, -, -, -, p', hp', rfl⟩ := h
      obtain ⟨_, _, _, rfl⟩ := editMembers_policy hedit
      have hstand := appendLedger_standing hp'
      exact .quiet rfl rfl rfl (congrArg Standing.commitSeq hstand) rfl
    | setPolicy o args first =>
      simp only [exec, setPolicy, bind_eq_ok, exists_unit, ensure_eq_ok, pure_eq_ok] at h
      obtain ⟨-, -, -, -, -, -, p, hp, v, -, q, -, -, p', hp', rfl⟩ := h
      obtain ⟨_, rfl⟩ := rotateAuthorizer_policy hp
      have hstand := appendLedger_standing hp'
      exact .quiet rfl rfl rfl (congrArg Standing.commitSeq hstand) rfl
    | restore o a args =>
      simp only [exec, restore, bind_eq_ok, exists_unit, ensure_eq_ok, pure_eq_ok] at h
      obtain ⟨-, -, -, -, -, -, -, -, -, -, v, -, stop, -, p, hp, rfl⟩ := h
      have hstand := appendLedger_standing hp
      exact .quiet rfl rfl rfl (congrArg Standing.commitSeq hstand) rfl
    | checkpoint key m n =>
      simp only [exec, checkpoint, bind_eq_ok, exists_unit, ensure_eq_ok, add_eq_ok,
        pure_eq_ok] at h
      obtain ⟨-, -, _, ⟨-, rfl⟩, rfl, -, -, rfl⟩ := h
      exact .checkpoint rfl rfl rfl rfl rfl rfl
    | writeCommitment a =>
      simp only [exec, writeCommitment, bind_eq_ok, exists_unit, ensure_eq_ok, pure_eq_ok] at h
      obtain ⟨hmem, hlt, rfl⟩ := h
      exact .deliver rfl (if_pos hmem) hlt rfl rfl rfl
    | wipeCard o rest => cases hno
    | _ => cases hq
  · have hsame := exec_standing h (Bool.eq_false_iff.mpr hq)
    have hseq : s'.policy.commitSeq = s.policy.commitSeq :=
      congrArg Standing.commitSeq hsame.standing
    obtain ⟨ctx, instr⟩ := call
    cases instr with
    | checkpoint key m n => exact absurd rfl hq
    | writeCommitment a => exact absurd rfl hq
    | _ => exact .quiet rfl rfl hsame.scheduled hseq hsame.commitment

/-- A refused delivery was stale. -/
theorem exec_refused {e : Err} (h : exec s call = .error e) {a : CommitmentAction}
    (ha : a ∈ call.instr.delivers s) : a.seq ≤ s.commitment.seq := by
  obtain ⟨ctx, instr⟩ := call
  cases instr with
  | writeCommitment b =>
    by_cases hmem : b ∈ s.scheduled
    · rw [Instr.delivers, if_pos hmem, List.mem_singleton] at ha
      subst ha
      by_contra hlt
      have hok : s.commitment.seq < a.seq := Nat.lt_of_not_le hlt
      simp only [exec, writeCommitment, ensure_pos hmem, ensure_pos hok, ok_bind] at h
      cases h
    · rw [Instr.delivers, if_neg hmem] at ha
      cases ha
  | _ => cases ha

/-- The outbox: what checkpoints computed, numbered without gaps from 1. -/
structure Outbox (s : State) (log : List CommitmentAction) : Prop where
  scheduled : s.scheduled = log
  increasing : log.Pairwise fun a b => a.seq < b.seq
  bounded : ∀ a ∈ log, 1 ≤ a.seq ∧ a.seq ≤ s.policy.commitSeq

omit [Runtime] in
theorem OutboxStep.outbox {instr : Instr} {log : List CommitmentAction} (h : OutboxStep s instr s')
    (ho : Outbox s log) : Outbox s' (log ++ instr.commits s) := by
  cases h with
  | checkpoint hc hd hseq hs hnext hsame =>
    rw [hc]
    refine ⟨by rw [hs, ho.scheduled], ?_, ?_⟩
    · rw [List.pairwise_append]
      refine ⟨ho.increasing, List.pairwise_singleton _ _, ?_⟩
      intro a ha b hb
      rw [List.mem_singleton] at hb
      have hle := (ho.bounded a ha).2
      rw [hb]
      omega
    · intro a ha
      rw [List.mem_append, List.mem_singleton] at ha
      rw [hnext]
      rcases ha with ha | rfl
      · have hle := ho.bounded a ha
        omega
      · omega
  | deliver hc hd hlt hs hnext hset =>
    rw [hc, List.append_nil]
    exact ⟨hs.trans ho.scheduled, ho.increasing, hnext ▸ ho.bounded⟩
  | quiet hc hd hs hnext hsame =>
    rw [hc, List.append_nil]
    exact ⟨hs.trans ho.scheduled, ho.increasing, hnext ▸ ho.bounded⟩

omit [Runtime] in
theorem OutboxStep.seq_le {instr : Instr} (h : OutboxStep s instr s') :
    s.commitment.seq ≤ s'.commitment.seq := by
  cases h with
  | checkpoint hc hd hseq hs hnext hsame => rw [hsame]
  | deliver hc hd hlt hs hnext hset =>
    have hseq := congrArg CommitmentAction.seq hset
    change s'.commitment.seq = _ at hseq
    omega
  | quiet hc hd hs hnext hsame => rw [hsame]

end Steps

section Runs

variable [Runtime] {s : State} {calls : List Call}

/-- What the checkpoints of a run computed, oldest first. -/
def checkpoints (s : State) (calls : List Call) : List CommitmentAction :=
  Runs.logged exec (fun s call _ => call.instr.commits s) s calls

/-- The scheduled actions that reached the base layer in a run, stored or stale. -/
def delivered : State → List Call → List CommitmentAction
  | _, [] => []
  | s, call :: calls => call.instr.delivers s ++ delivered (Runs.next exec s call) calls

/-- The newest of the delivered actions, or what was there before any came. -/
def Newest (first : CommitmentAction) (ds : List CommitmentAction) (a : CommitmentAction) : Prop :=
  (ds = [] ∧ a = first) ∨ (a ∈ ds ∧ ∀ b ∈ ds, b.seq ≤ a.seq)

theorem outbox_after (hs : Outbox s []) (hno : NoWipe s calls) :
    Outbox (Runs.after exec s calls) (checkpoints s calls) :=
  Runs.after_logged (fun _ _ _ _ hP hexec hi => (exec_outbox hexec hP).outbox hi) hno hs

theorem seq_le_after (hno : NoWipe s calls) :
    s.commitment.seq ≤ (Runs.after exec s calls).commitment.seq :=
  Runs.after_inv (I := fun t => s.commitment.seq ≤ t.commitment.seq)
    (fun _ _ _ hP hexec hi => hi.trans (exec_outbox hexec hP).seq_le) hno (Nat.le_refl _)

theorem scheduled_after (hno : NoWipe s calls) {a : CommitmentAction} (ha : a ∈ s.scheduled) :
    a ∈ (Runs.after exec s calls).scheduled := by
  refine Runs.after_inv (I := fun t => a ∈ t.scheduled) ?_ hno ha
  intro t call t' hP hexec hmem
  cases exec_outbox hexec hP with
  | checkpoint hc hd hseq hs hnext hsame =>
    rw [hs]
    exact List.mem_append_left _ hmem
  | deliver hc hd hlt hs hnext hset =>
    rw [hs]
    exact hmem
  | quiet hc hd hs hnext hsame =>
    rw [hs]
    exact hmem

omit [Runtime] in
theorem mem_delivers {instr : Instr} {a : CommitmentAction} (ha : a ∈ instr.delivers s) :
    a ∈ s.scheduled := by
  cases instr with
  | writeCommitment b =>
    by_cases hmem : b ∈ s.scheduled
    · rw [Instr.delivers, if_pos hmem, List.mem_singleton] at ha
      rw [ha]
      exact hmem
    · rw [Instr.delivers, if_neg hmem] at ha
      cases ha
  | _ => cases ha

/-- Only what was scheduled is ever delivered. -/
theorem mem_delivered (hno : NoWipe s calls) {a : CommitmentAction}
    (ha : a ∈ delivered s calls) : a ∈ (Runs.after exec s calls).scheduled := by
  induction calls generalizing s with
  | nil => cases ha
  | cons call calls ih =>
    rw [delivered, List.mem_append] at ha
    rcases ha with ha | ha
    · exact scheduled_after hno (mem_delivers ha)
    · rw [Runs.after_cons]
      refine ih ?_ ha
      cases hs : exec s call with
      | ok s' =>
        rw [Runs.next_ok hs]
        exact ((Runs.along_cons_ok hs).mp hno).2
      | error e =>
        rw [Runs.next_error hs]
        exact (Runs.along_cons_error hs).mp hno

/-- After a run the commitment is the old one or a delivered one, and no delivered one is
newer. -/
theorem commitment_after (hno : NoWipe s calls) :
    ((Runs.after exec s calls).commitment.action = s.commitment.action ∨
        (Runs.after exec s calls).commitment.action ∈ delivered s calls) ∧
      ∀ a ∈ delivered s calls, a.seq ≤ (Runs.after exec s calls).commitment.seq := by
  induction calls generalizing s with
  | nil => exact ⟨.inl rfl, fun a ha => absurd ha List.not_mem_nil⟩
  | cons call calls ih =>
    rw [Runs.after_cons, delivered]
    cases hs : exec s call with
    | error e =>
      have hrest := (Runs.along_cons_error hs).mp hno
      rw [Runs.next_error hs]
      obtain ⟨hnow, hmax⟩ := ih hrest
      refine ⟨hnow.imp id fun h => List.mem_append_right _ h, fun a ha => ?_⟩
      rcases List.mem_append.mp ha with ha | ha
      · exact (exec_refused hs ha).trans (seq_le_after hrest)
      · exact hmax a ha
    | ok s' =>
      obtain ⟨hP, hrest⟩ := (Runs.along_cons_ok hs).mp hno
      rw [Runs.next_ok hs]
      obtain ⟨hnow, hmax⟩ := ih hrest
      cases exec_outbox hs hP with
      | checkpoint hc hd hseq hsch hnext hsame =>
        rw [hd, List.nil_append, ← hsame]
        exact ⟨hnow, hmax⟩
      | deliver hc hd hlt hsch hnext hset =>
        rw [hd]
        refine ⟨.inr ?_, fun a ha => ?_⟩
        · rcases hnow with hnow | hnow
          · rw [hnow, hset]
            exact List.mem_cons_self
          · exact List.mem_append_right _ hnow
        · rcases List.mem_append.mp ha with ha | ha
          · rw [List.mem_singleton] at ha
            rw [ha, ← hset]
            exact seq_le_after hrest
          · exact hmax a ha
      | quiet hc hd hsch hnext hsame =>
        rw [hd, List.nil_append, ← hsame]
        exact ⟨hnow, hmax⟩

theorem Fresh.outbox (h : Fresh s) : Outbox s [] ∧ s.commitment.seq = 0 := by
  obtain ⟨ctx, owner, cardId, issuer, ref, prefund, h⟩ := h
  simp only [initCard, bind_eq_ok, exists_unit, pure_eq_ok] at h
  obtain ⟨-, -, -, -, -, rfl⟩ := h
  exact ⟨⟨rfl, List.Pairwise.nil, fun a ha => absurd ha List.not_mem_nil⟩, rfl⟩

/-- **Delivery.** The number of the published commitment never falls, it is the first one or
what one checkpoint computed, checkpoints are numbered apart, and whatever subset of them was
delivered, in whatever order and how often, the newest of it stands. -/
theorem commitments_monotone (s : State) (calls : List Call) (hs : Fresh s)
    (hno : NoWipe s calls) :
    Runs.Along exec (fun s _ s' => s.commitment.seq ≤ s'.commitment.seq) s calls ∧
      (checkpoints s calls).Pairwise (fun a b => a.seq < b.seq) ∧
      ((Runs.after exec s calls).commitment.action = s.commitment.action ∨
        (Runs.after exec s calls).commitment.action ∈ checkpoints s calls) ∧
      (∀ a ∈ delivered s calls, a ∈ checkpoints s calls) ∧
      Newest s.commitment.action (delivered s calls)
        (Runs.after exec s calls).commitment.action := by
  obtain ⟨hempty, hzero⟩ := hs.outbox
  have hout := outbox_after hempty hno
  have hsub : ∀ a ∈ delivered s calls, a ∈ checkpoints s calls := by
    intro a ha
    rw [← hout.scheduled]
    exact mem_delivered hno ha
  obtain ⟨hnow, hmax⟩ := commitment_after hno
  refine ⟨?_, hout.increasing, hnow.imp id (hsub _), hsub, ?_⟩
  · have hran : Runs.Along exec (fun s call s' => exec s call = .ok s') s calls :=
      Runs.along_of_inv (I := fun _ => True) (fun _ _ _ hexec _ => ⟨trivial, hexec⟩) calls trivial
    exact (Runs.along_and hno hran).mono fun s call s' h => (exec_outbox h.2 h.1).seq_le
  · cases hd : delivered s calls with
    | nil =>
      rw [hd] at hnow
      exact .inl ⟨rfl, hnow.resolve_right List.not_mem_nil⟩
    | cons b ds =>
      rw [← hd]
      have hb : b ∈ delivered s calls := by
        rw [hd]
        exact List.mem_cons_self
      -- checkpoints are numbered from 1, so the first delivery was already newer
      have hone := (hout.bounded b (hsub b hb)).1
      have hle := hmax b hb
      have hne : (Runs.after exec s calls).commitment.action ≠ s.commitment.action := by
        intro heq
        have hseq : (Runs.after exec s calls).commitment.seq = s.commitment.seq :=
          congrArg CommitmentAction.seq heq
        omega
      exact .inr ⟨hnow.resolve_left hne, hmax⟩

end Runs

namespace Sample

def checkpointed : List Call :=
  setup 5000 3000 50 ++
    [byAuthorizer (.checkpoint authorizer (key 50) 1),
     byAuthorizer (.checkpoint authorizer (key 51) 2)]

/-- Two checkpoints whose actions come in the wrong order. -/
def crossed : List Call :=
  checkpointed ++ (Runs.after exec start checkpointed).scheduled.reverse.map fun a =>
    ⟨ctxAt 1800000100 [], .writeCommitment a⟩

end Sample

open Sample in
theorem commitments_monotone_crossed :
    Fresh start ∧ NoWipe start crossed ∧
      (Runs.after exec start checkpointed).scheduled.map (·.seq) = [1, 2] ∧
      Newest start.commitment.action (delivered start crossed)
        (Runs.after exec start crossed).commitment.action := by
  have hseqs : (Runs.after exec start checkpointed).scheduled.map (·.seq) = [1, 2] := by
    decide
  have hcalls : ∀ call ∈ crossed, call.instr.wipes = false := by
    have hfirst : ∀ call ∈ checkpointed, call.instr.wipes = false := by decide
    intro call hcall
    rcases List.mem_append.mp hcall with hcall | hcall
    · exact hfirst call hcall
    · obtain ⟨a, -, rfl⟩ := List.mem_map.mp hcall
      rfl
  have hno : NoWipe start crossed := Runs.along_of_calls hcalls
  exact ⟨start_fresh, hno, hseqs, (commitments_monotone start crossed start_fresh hno).2.2.2.2⟩

end ChainPay.Card
