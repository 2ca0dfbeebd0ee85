import ChainPay.Repay.Attempts

/-!
Any number of passes over the statements, each stopping at any await. `update_attempt` and
the events of `check_attempt` set the state of an attempt whatever it has become meanwhile, so
a pass that was overtaken can open a closed attempt again. As long as every such write finds
its attempt still awaiting settlement, attempts only move forward: `attempts_move_forward`.
-/

namespace ChainPay.Repay
open ChainPay.Lib

/-! ## The system -/

inductive Request where
  | prepare (key : String)
  | submit (key : String) (id : Nat)
  | cron (key : String)

/-- What the rest of the connector does to a statement: it closes one, books a transparent
repayment, or moves it on after a repayment was observed. None of it touches the attempts. -/
inductive Ext where
  | closeStatement (key : String) (amountDueCents : Nat) (digest : String)
  | event (key : String) (event : StatementEvent) (mismatch : List String)

def otherRepayment (event : StatementEvent) (mismatch : List String) (s : Statement) :
    Option Repayment :=
  match event with
  | .receiptVerified => some ⟨.executePayment, none, [], []⟩
  | .receiptMismatch => some ⟨.executePayment, none, [], mismatch⟩
  | _ => s.repayment

def outside : Ext → Store → Store
  | .closeStatement key due digest, s =>
    match s.statements.lookup key with
    | some _ => s
    | none => { s with statements := s.statements.insert key ⟨1, ⟨.closed, due, digest, none, []⟩, 0⟩ }
  | .event key event mismatch, s =>
    match s.statements.lookup key with
    | none => s
    | some row =>
      match transition row.value.state event with
      | none => s
      | some next =>
        { s with statements := s.statements.insert key ⟨row.rev + 1,
          { row.value with
            state := next
            repayment := otherRepayment event mismatch row.value }, 0⟩ }

section

variable [Connector] (paysInto : Bytes → String → Option String)

def handle : Request → M Unit
  | .prepare key => (fun _ => ()) <$> prepare paysInto key
  | .submit key id => (fun _ => ()) <$> submit key id
  | .cron key => (fun _ => ()) <$> advanceOpenAttempt key

end

/-- A call, with the configuration of the process that serves it. -/
structure Served where
  connector : Connector
  request : Request

def passes (paysInto : Bytes → String → Option String) :
    System Store Op Op.Ans Env Served Ext CardsError Unit Unit where
  perform := perform
  entry := fun r => @handle r.connector paysInto r.request
  outside := outside
  first := ()
  note := fun _ g => g

/-! ## What holds of a statement -/

/-- A verified repayment was observed. -/
def Statement.repaid (s : Statement) : Prop := takesRepayment s = false

instance (s : Statement) : Decidable s.repaid := inferInstanceAs (Decidable (_ = _))

structure Good (v : Statement) : Prop where
  ids : v.attempts.map Attempt.seq = List.range' 1 v.attempts.length
  one : ∀ a ∈ v.attempts, ∀ a' ∈ v.attempts, a.state = .awaitingSettlement →
    a'.state = .awaitingSettlement → a.seq = a'.seq
  unapplied : ∀ a ∈ v.attempts, a.state = .unappliedPayout → v.repaid
  fresh : v.state = .closed → v.repayment = none
  settled : ∀ r, v.repaid → v.repayment = some r → r.method = .privatePayments →
    ∀ a ∈ v.attempts, a.state ≠ .awaitingSettlement ∧ a.state ≠ .unappliedPayout

structure Forward (v v' : Statement) : Prop where
  closed : ∀ a ∈ v.attempts, a.state ≠ .awaitingSettlement → ∀ a' ∈ v'.attempts,
    a'.seq = a.seq → a'.state ≠ .awaitingSettlement
  listed : ∀ a ∈ v.attempts, ∃ a' ∈ v'.attempts, a'.seq = a.seq
  repaid : v.repaid → v'.repaid ∧ v'.repayment = v.repayment

theorem Forward.trans {v₁ v₂ v₃ : Statement} (h₁ : Forward v₁ v₂) (h₂ : Forward v₂ v₃) :
    Forward v₁ v₃ where
  closed := by
    intro a ha hne a₃ ha₃ hseq₃
    obtain ⟨a₂, ha₂, hseq₂⟩ := h₁.listed a ha
    have hne₂ := h₁.closed a ha hne a₂ ha₂ hseq₂
    exact h₂.closed a₂ ha₂ hne₂ a₃ ha₃ (hseq₃.trans hseq₂.symm)
  listed := by
    intro a ha
    obtain ⟨a₂, ha₂, hseq₂⟩ := h₁.listed a ha
    obtain ⟨a₃, ha₃, hseq₃⟩ := h₂.listed a₂ ha₂
    exact ⟨a₃, ha₃, hseq₃.trans hseq₂⟩
  repaid := by
    intro hr
    obtain ⟨hr₂, hrep₂⟩ := h₁.repaid hr
    obtain ⟨hr₃, hrep₃⟩ := h₂.repaid hr₂
    exact ⟨hr₃, hrep₃.trans hrep₂⟩

section Good

variable {v : Statement} {id : Nat}

/-- Attempts with one number are one attempt. -/
theorem Good.seq_inj (h : Good v) {a a' : Attempt} (ha : a ∈ v.attempts) (ha' : a' ∈ v.attempts)
    (hseq : a.seq = a'.seq) : a = a' := by
  have hnodup : (v.attempts.map Attempt.seq).Nodup := by
    rw [h.ids]
    exact List.nodup_range'
  exact List.inj_on_of_nodup_map hnodup ha ha' hseq

theorem Forward.refl (h : Good v) : Forward v v where
  closed := by
    intro a ha hne a' ha' hseq
    rw [h.seq_inj ha' ha hseq]
    exact hne
  listed := fun a ha => ⟨a, ha, rfl⟩
  repaid := fun hr => ⟨hr, rfl⟩

/-- The attempt is still open in the statement. -/
def Statement.awaits (v : Statement) (id : Nat) : Prop :=
  ∃ a ∈ v.attempts, a.seq = id ∧ a.state = .awaitingSettlement

/-- The open attempt is the only one. -/
theorem Good.seq_of_awaiting (h : Good v) (ho : v.awaits id) {a : Attempt} (ha : a ∈ v.attempts)
    (hw : a.state = .awaitingSettlement) : a.seq = id := by
  obtain ⟨o, hmem, rfl, hstate⟩ := ho
  exact h.one a ha o hmem hw hstate

/-- Nothing is open once a private payout has settled the statement. -/
theorem Good.not_settled (h : Good v) (ho : v.awaits id) {r : Repayment} (hr : v.repaid)
    (hrep : v.repayment = some r) : r.method ≠ .privatePayments := by
  intro hm
  obtain ⟨o, hmem, -, hstate⟩ := ho
  exact (h.settled r hr hrep hm o hmem).1 hstate

variable {state : AttemptState} {f : Attempt → Attempt}

theorem setAttempt_ids (hf : ∀ a, (f a).seq = a.seq) :
    (setAttempt v id state f).attempts.map Attempt.seq = v.attempts.map Attempt.seq := by
  simp only [setAttempt, List.map_map]
  apply List.map_congr_left
  intro a _
  simp only [Function.comp]
  split
  · exact hf _
  · rfl

/-- An attempt of the list after the write: the one written, or an old one. -/
theorem mem_setAttempt {a' : Attempt} (h : a' ∈ (setAttempt v id state f).attempts) :
    (∃ a ∈ v.attempts, a.seq = id ∧ a' = f { a with state := state }) ∨
      (a' ∈ v.attempts ∧ a'.seq ≠ id) := by
  simp only [setAttempt, List.mem_map] at h
  obtain ⟨a, ha, rfl⟩ := h
  split
  · rename_i hid
    exact .inl ⟨a, ha, hid, rfl⟩
  · rename_i hid
    exact .inr ⟨ha, hid⟩

theorem setAttempt_listed (hf : ∀ a, (f a).seq = a.seq) {a : Attempt} (ha : a ∈ v.attempts) :
    ∃ a' ∈ (setAttempt v id state f).attempts, a'.seq = a.seq := by
  refine ⟨_, List.mem_map_of_mem ha, ?_⟩
  split
  · exact hf _
  · rfl

/-- What a write to the open attempt leaves of the attempts. -/
structure Written (v v' : Statement) (state : AttemptState) (id : Nat) : Prop where
  ids : v'.attempts.map Attempt.seq = List.range' 1 v'.attempts.length
  awaiting : ∀ a ∈ v'.attempts, a.state = .awaitingSettlement →
    a.seq = id ∧ state = .awaitingSettlement
  unapplied : ∀ a ∈ v'.attempts, a.state = .unappliedPayout →
    state = .unappliedPayout ∨ v.repaid
  closed : ∀ a ∈ v.attempts, a.state ≠ .awaitingSettlement → ∀ a' ∈ v'.attempts,
    a'.seq = a.seq → a'.state ≠ .awaitingSettlement
  listed : ∀ a ∈ v.attempts, ∃ a' ∈ v'.attempts, a'.seq = a.seq

theorem setAttempt_written (h : Good v) (ho : v.awaits id)
    (hf : ∀ a, (f a).seq = a.seq ∧ (f a).state = a.state) {w : Statement}
    (hw : w.attempts = v.attempts) : Written v (setAttempt w id state f) state id := by
  have hids : (setAttempt w id state f).attempts.map Attempt.seq =
      List.range' 1 (setAttempt w id state f).attempts.length := by
    rw [setAttempt_ids fun a => (hf a).1, hw, h.ids]
    simp only [setAttempt, List.length_map, hw]
  refine ⟨hids, ?_, ?_, ?_, ?_⟩
  · intro a ha hstate
    rcases mem_setAttempt ha with ⟨x, hx, hid, rfl⟩ | ⟨hx, hid⟩
    · rw [(hf _).2] at hstate
      rw [(hf _).1]
      exact ⟨hid, hstate⟩
    · rw [hw] at hx
      exact absurd (h.seq_of_awaiting ho hx hstate) hid
  · intro a ha hstate
    rcases mem_setAttempt ha with ⟨x, hx, hid, rfl⟩ | ⟨hx, hid⟩
    · rw [(hf _).2] at hstate
      exact .inl hstate
    · rw [hw] at hx
      exact .inr (h.unapplied a hx hstate)
  · intro a ha hne a' ha' hseq hstate
    rcases mem_setAttempt ha' with ⟨x, hx, hid, rfl⟩ | ⟨hx, hid⟩
    · -- the written attempt was open
      rw [(hf _).1] at hseq
      obtain ⟨o, hmem, hoid, howait⟩ := ho
      have heq : a = o := h.seq_inj ha hmem (hseq.symm.trans (hid.trans hoid.symm))
      exact hne (heq ▸ howait)
    · rw [hw] at hx
      exact absurd (h.seq_of_awaiting ho hx hstate) hid
  · intro a ha
    rw [← hw] at ha
    exact setAttempt_listed (fun a => (hf a).1) ha

end Good

/-! ## The writes -/

section Writes

variable {v : Statement} {id : Nat}

/-- `update_attempt` on an attempt that is still open. -/
theorem good_marked {state : AttemptState} {f : Attempt → Attempt} (h : Good v)
    (ho : v.awaits id) (hf : ∀ a, (f a).seq = a.seq ∧ (f a).state = a.state)
    (hun : state = .unappliedPayout → v.repaid) :
    Good (setAttempt v id state f) ∧ Forward v (setAttempt v id state f) := by
  have hw : Written v (setAttempt v id state f) state id := setAttempt_written h ho hf rfl
  refine ⟨⟨hw.ids, ?_, ?_, h.fresh, ?_⟩, hw.closed, hw.listed, fun hr => ⟨hr, rfl⟩⟩
  · intro a ha a' ha' hs hs'
    rw [(hw.awaiting a ha hs).1, (hw.awaiting a' ha' hs').1]
  · intro a ha hs
    rcases hw.unapplied a ha hs with hst | hr
    · exact hun hst
    · exact hr
  · intro r hr hrep hm
    exact absurd hm (h.not_settled ho hr hrep)

theorem takesRepayment_of_transition {s next : StatementState} {event : StatementEvent}
    (h : transition s event = some next) (he : event = .receiptVerified ∨ event = .receiptMismatch) :
    s = .closed ∨ s = .repaymentMismatch := by
  rcases he with rfl | rfl
  all_goals
    cases s with
    | closed => exact .inl rfl
    | repaymentMismatch => exact .inr rfl
    | _ => cases h

theorem not_repaid (h : v.state = .closed ∨ v.state = .repaymentMismatch) : ¬ v.repaid := by
  unfold Statement.repaid takesRepayment
  rcases h with h | h
  all_goals
    rw [h]
    decide

theorem transition_verified {s next : StatementState}
    (h : transition s .receiptVerified = some next) : next = .repaymentObserved := by
  cases s with
  | closed => exact (Option.some.inj h).symm
  | repaymentMismatch => exact (Option.some.inj h).symm
  | _ => cases h

theorem transition_mismatch {s next : StatementState}
    (h : transition s .receiptMismatch = some next) : next = .repaymentMismatch := by
  cases s with
  | closed => exact (Option.some.inj h).symm
  | repaymentMismatch => exact (Option.some.inj h).symm
  | _ => cases h

theorem good_verified {next : StatementState} {signature : String} (h : Good v)
    (ho : v.awaits id) (ht : transition v.state .receiptVerified = some next) :
    Good (recordVerified id signature { v with state := next }) ∧
      Forward v (recordVerified id signature { v with state := next }) := by
  have hfrom := not_repaid (takesRepayment_of_transition ht (.inl rfl))
  have hnext := transition_verified ht
  subst hnext
  have hw : Written v (recordVerified id signature { v with state := .repaymentObserved })
      .verified id := by
    refine setAttempt_written h ho ?_ rfl
    exact fun a => ⟨rfl, rfl⟩
  have hnone : ∀ a ∈ (recordVerified id signature { v with state := .repaymentObserved }).attempts,
      a.state ≠ .awaitingSettlement ∧ a.state ≠ .unappliedPayout := by
    intro a ha
    refine ⟨fun hs => ?_, fun hs => ?_⟩
    · cases (hw.awaiting a ha hs).2
    · rcases hw.unapplied a ha hs with hst | hr
      · cases hst
      · exact hfrom hr
  refine ⟨⟨hw.ids, ?_, ?_, ?_, fun r _ _ _ => hnone⟩, hw.closed, hw.listed, ?_⟩
  · intro a ha a' ha' hs hs'
    exact absurd hs (hnone a ha).1
  · intro a ha hs
    exact absurd hs (hnone a ha).2
  · intro hc
    cases hc
  · exact fun hr => absurd hr hfrom

theorem good_mismatch {next : StatementState} {observed fields : List String} (h : Good v)
    (ho : v.awaits id) (ht : transition v.state .receiptMismatch = some next) :
    Good (recordMismatch id observed fields { v with state := next }) ∧
      Forward v (recordMismatch id observed fields { v with state := next }) := by
  have hfrom := not_repaid (takesRepayment_of_transition ht (.inr rfl))
  have hnext := transition_mismatch ht
  subst hnext
  have hw : Written v (recordMismatch id observed fields { v with state := .repaymentMismatch })
      .mismatch id := by
    refine setAttempt_written h ho ?_ rfl
    exact fun a => ⟨rfl, rfl⟩
  refine ⟨⟨hw.ids, ?_, ?_, ?_, ?_⟩, hw.closed, hw.listed, ?_⟩
  · intro a ha a' ha' hs hs'
    cases (hw.awaiting a ha hs).2
  · intro a ha hs
    rcases hw.unapplied a ha hs with hst | hr
    · cases hst
    · exact absurd hr hfrom
  · intro hc
    cases hc
  · intro r hr
    cases hr
  · exact fun hr => absurd hr hfrom

/-- `prepare` adds an attempt to a statement without an open one. -/
theorem good_opened {a : Attempt} (h : Good v) (hopen : v.openAttempt = none)
    (hstate : takesRepayment v = true) (hseq : a.seq = v.attempts.length + 1)
    (hnew : a.state = .awaitingSettlement) :
    Good { v with attempts := v.attempts ++ [a] } ∧
      Forward v { v with attempts := v.attempts ++ [a] } := by
  have hfrom : ¬ v.repaid := by
    unfold Statement.repaid
    rw [hstate]
    decide
  have hnone : ∀ x ∈ v.attempts, x.state ≠ .awaitingSettlement := by
    intro x hx hs
    have hfind := List.find?_eq_none.mp hopen x hx
    exact hfind (decide_eq_true hs)
  have hold : ∀ x ∈ v.attempts, x.seq ≠ a.seq := by
    intro x hx heq
    have hmem : x.seq ∈ v.attempts.map Attempt.seq := List.mem_map_of_mem hx
    rw [h.ids, List.mem_range'_1] at hmem
    omega
  refine ⟨⟨?_, ?_, ?_, h.fresh, ?_⟩, ?_, ?_, ?_⟩
  · simp only [List.map_append, h.ids, List.map_cons, List.map_nil, hseq, List.length_append,
      List.length_singleton]
    rw [List.range'_concat, Nat.one_mul, Nat.add_comm]
  · intro x hx y hy hs hs'
    rcases List.mem_append.mp hx with hx | hx
    · exact absurd hs (hnone x hx)
    · rcases List.mem_append.mp hy with hy | hy
      · exact absurd hs' (hnone y hy)
      · rw [List.mem_singleton.mp hx, List.mem_singleton.mp hy]
  · intro x hx hs
    rcases List.mem_append.mp hx with hx | hx
    · exact h.unapplied x hx hs
    · rw [List.mem_singleton.mp hx, hnew] at hs
      cases hs
  · intro r hr
    exact absurd hr hfrom
  · intro x hx hne y hy heq
    rcases List.mem_append.mp hy with hy | hy
    · rw [h.seq_inj hy hx heq]
      exact hne
    · rw [List.mem_singleton.mp hy] at heq
      exact absurd heq.symm (hold x hx)
  · intro x hx
    exact ⟨x, List.mem_append_left _ hx, rfl⟩
  · exact fun hr => absurd hr hfrom

end Writes

/-! ## Interleavings -/

def Sound (s : Store) : Prop := ∀ key row, s.statements.lookup key = some row → Good row.value

/-- Rows only get newer, and their statements move forward. -/
def Onward (s s' : Store) : Prop :=
  ∀ key row, s.statements.lookup key = some row → ∃ row', s'.statements.lookup key = some row' ∧
    (row' = row ∨ row.rev < row'.rev ∧ Forward row.value row'.value)

theorem Onward.refl (s : Store) : Onward s s := fun _ row h => ⟨row, h, .inl rfl⟩

theorem Onward.trans {s₁ s₂ s₃ : Store} (h₁ : Onward s₁ s₂) (h₂ : Onward s₂ s₃) :
    Onward s₁ s₃ := by
  intro key row hrow
  obtain ⟨row₂, hrow₂, hcase₂⟩ := h₁ key row hrow
  obtain ⟨row₃, hrow₃, hcase₃⟩ := h₂ key row₂ hrow₂
  refine ⟨row₃, hrow₃, ?_⟩
  rcases hcase₂ with rfl | ⟨hlt₂, hf₂⟩
  · exact hcase₃
  · rcases hcase₃ with rfl | ⟨hlt₃, hf₃⟩
    · exact .inr ⟨hlt₂, hf₂⟩
    · exact .inr ⟨Nat.lt_trans hlt₂ hlt₃, hf₂.trans hf₃⟩

theorem Onward.newer {s s' : Store} (h : Onward s s') (key : String) :
    Newer (s.statements.lookup key) (s'.statements.lookup key) := by
  intro row hrow
  obtain ⟨row', hrow', hcase⟩ := h key row hrow
  exact ⟨row', hrow', hcase.imp id fun hc => hc.1⟩

/-- One statement was written; the others stand. -/
theorem onward_insert {s s' : Store} {key : String} {row row' : Row Statement} (hs : Sound s)
    (hrow : s.statements.lookup key = some row)
    (hput : s'.statements = s.statements.insert key row') (hrev : row.rev < row'.rev)
    (hgood : Good row'.value) (hfor : Forward row.value row'.value) :
    Sound s' ∧ Onward s s' := by
  constructor
  · unfold Sound
    rw [hput]
    exact forall_lookup_insert hs hgood
  · intro k r hr
    rw [hput]
    by_cases hk : k = key
    · subst hk
      rw [hrow] at hr
      cases hr
      exact ⟨row', AList.lookup_insert _, .inr ⟨hrev, hfor⟩⟩
    · exact ⟨r, by rw [AList.lookup_insert_ne hk]; exact hr, .inl rfl⟩

section Discipline

variable (paysInto : Bytes → String → Option String)

/-- A write of a check finds its attempt still awaiting settlement. -/
def InTime (s : Store) : Op → Prop
  | .putStatement key _ rev (some id) =>
    ∀ row, s.statements.lookup key = some row → row.rev = rev → row.value.awaits id
  | _ => True

def onward : Discipline Store Op Op.Ans Env Served Ext CardsError Unit Unit where
  sys := passes paysInto
  terms := { Starts := fun _ => True, Meets := fun _ _ s o _ => InTime s o, Outside := fun _ _ => True }
  Inv := Sound
  Rely := Onward
  Fault := fun _ _ => True
  refl := Onward.refl
  trans := Onward.trans

variable {paysInto} {b : Store} {g : Unit} {key : String} {id : Nat}

/-- Nothing is promised of an answer. -/
abbrev anything {γ α : Type} : Store → γ → α → Prop := fun _ _ _ => True

theorem safe_read {o : Op} {α : Type} {k : o.Ans → M α} {Q : Store → Unit → α → Prop}
    (hcalm : ∀ e s, (perform o e s).1 = s)
    (hk : ∀ s e, Sound s → Onward b s → (onward paysInto).Safe Q (k (perform o e s).2) s g) :
    (onward paysInto).Safe Q (.await o k) b g :=
  Discipline.safe_calm hcalm fun s e hi hr _ => hk s e hi hr

theorem safe_need {β : Type} {Q : Store → Unit → β → Prop} {x : Option β}
    (h : ∀ v, x = some v → Q b g v) : (onward paysInto).Safe Q (need x) b g := by
  cases x with
  | none => trivial
  | some v => exact h v rfl

theorem getStatement_reply {e : Env} {s : Store} {r : Option (Row Statement)}
    (hv : (perform (.getStatement key) e s).2 = some r) : s.statements.lookup key = r := by
  change (if e.storage = .fine then some (s.statements.lookup key) else none) = some r at hv
  split at hv
  · exact Option.some.inj hv
  · cases hv

theorem safe_getStatement :
    (onward paysInto).Safe (fun s _ r => s.statements.lookup key = r) (getStatement key) b g :=
  safe_read (fun _ _ => rfl) fun _ _ _ _ => safe_need fun _ hv => getStatement_reply hv

theorem safe_statementRow :
    (onward paysInto).Safe (fun s _ row => s.statements.lookup key = some row)
      (statementRow key) b g := by
  refine safe_getStatement.bind fun s g r hr => ?_
  cases r with
  | none => trivial
  | some row => exact hr

theorem write_cases {β : Type} (s : Store) (e : Env) (s' : Store) (v : β) :
    (s.write e s' v).1 = s ∨ (s.write e s' v).1 = s' := by
  unfold Store.write
  cases e.storage with
  | fine => exact .inr rfl
  | lost => exact .inl rfl
  | late => exact .inr rfl

/-- A write against the row just read lands on that row or nowhere. -/
theorem safe_putStatement {row : Row Statement} {v : Statement} {about : Option Nat}
    (hb : b.statements.lookup key = some row)
    (hwrite : Good row.value → (∀ id, about = some id → row.value.awaits id) →
      Good v ∧ Forward row.value v) :
    (onward paysInto).Safe anything (putStatement key v row.rev about) b g := by
  intro s e hi hr hm
  have hnewer : Newer (some row) (s.statements.lookup key) := by
    rw [← hb]
    exact hr.newer key
  have hput : ∀ s', (put s.statements key v (some row.rev) e.now).1 = s'.statements →
      Sound s' ∧ Onward s s' := by
    intro s' hs'
    rcases put_snapshot hnewer v e.now with ⟨hrow, hp⟩ | hp
    · have htime : ∀ id, about = some id → row.value.awaits id := by
        rintro id rfl
        exact hm row hrow rfl
      obtain ⟨hgood, hfor⟩ := hwrite (hi key row hrow) htime
      rw [hp] at hs'
      exact onward_insert hi hrow hs'.symm (Nat.lt_succ_self _) hgood hfor
    · rw [hp] at hs'
      constructor
      · intro k r h
        rw [← hs'] at h
        exact hi k r h
      · intro k r h
        exact ⟨r, by rw [← hs']; exact h, .inl rfl⟩
  have hstore : Sound (perform (.putStatement key v row.rev about) e s).1 ∧
      Onward s (perform (.putStatement key v row.rev about) e s).1 := by
    rcases write_cases s e { s with statements := (put s.statements key v (some row.rev) e.now).1 }
      (put s.statements key v (some row.rev) e.now).2 with h | h
    · change Sound (s.write e _ _).1 ∧ Onward s (s.write e _ _).1
      rw [h]
      exact ⟨hi, Onward.refl s⟩
    · change Sound (s.write e _ _).1 ∧ Onward s (s.write e _ _).1
      rw [h]
      exact hput _ rfl
  exact ⟨hstore.1, hstore.2, safe_need fun _ _ => trivial⟩

/-- Claims leave the statements alone. -/
theorem safe_claimSettlement {signature : String} :
    (onward paysInto).Safe anything (claimSettlement signature key) b g := by
  intro s e hi _ _
  have hsame : (perform (.claimSettlement signature key) e s).1.statements = s.statements := by
    rcases write_cases s e (s.claim signature key) ((s.claims.lookup signature).getD key) with h | h
    · change (s.write e _ _).1.statements = _
      rw [h]
    · change (s.write e _ _).1.statements = _
      rw [h]
      unfold Store.claim
      split
      · rfl
      · rfl
  refine ⟨?_, ?_, safe_need fun _ _ => trivial⟩
  · intro k r h
    change (perform (.claimSettlement signature key) e s).1.statements.lookup k = some r at h
    rw [hsame] at h
    exact hi k r h
  · intro k r h
    refine ⟨r, ?_, .inl rfl⟩
    change (perform (.claimSettlement signature key) e s).1.statements.lookup k = some r
    rw [hsame]
    exact h

theorem safe_claimSettlements {signature : String} :
    (onward paysInto).Safe anything (claimSettlements key signature) b g :=
  safe_claimSettlement.bind fun _ _ _ _ => trivial

theorem safe_listPages {cursor : Option String} (n : Nat) (before : Option String)
    (acc : List Listed) :
    (onward paysInto).Safe anything (listPages cursor n before acc) b g := by
  induction n generalizing before acc b with
  | zero => trivial
  | succ n ih =>
    refine safe_read (fun e s => rfl) fun s e _ _ => ?_
    cases (perform (.signatures before cursor) e s).2 with
    | none => trivial
    | some page =>
      by_cases hfull : page.length < PAGE_LIMIT
      · simp only [if_pos hfull]
        trivial
      · simp only [if_neg hfull]
        exact ih _ _

/-- The statement was repaid, and stays so. -/
def Repaid (s : Store) (key : String) : Prop :=
  ∃ row, s.statements.lookup key = some row ∧ row.value.repaid

theorem Repaid.mono {s s' : Store} (h : Repaid s key) (hr : Onward s s') : Repaid s' key := by
  obtain ⟨row, hrow, hrep⟩ := h
  obtain ⟨row', hrow', hcase⟩ := hr key row hrow
  refine ⟨row', hrow', ?_⟩
  rcases hcase with rfl | ⟨-, hf⟩
  · exact hrep
  · exact (hf.repaid hrep).1

theorem safe_updateAttempt {state : AttemptState} {f : Attempt → Attempt}
    (hf : ∀ a, (f a).seq = a.seq ∧ (f a).state = a.state) (n : Nat) (hb : Sound b)
    (hun : state = .unappliedPayout → Repaid b key) :
    (onward paysInto).Safe anything (updateAttempt key id state f n) b g := by
  induction n generalizing b with
  | zero => trivial
  | succ n ih =>
    refine safe_getStatement.seq hb fun s g r hr hs hon => ?_
    cases r with
    | none => trivial
    | some row =>
      have hput : (onward paysInto).Safe anything
          (putStatement key (setAttempt row.value id state f) row.rev (some id)) s g := by
        refine safe_putStatement hr fun hgood htime => ?_
        refine good_marked hgood (htime id rfl) hf fun hst => ?_
        obtain ⟨row', hrow', hrep⟩ := (hun hst).mono hon
        cases hr.symm.trans hrow'
        exact hrep
      refine hput.seq hs fun s₂ g p _ hs₂ hon₂ => ?_
      cases p with
      | written r => trivial
      | conflict c => exact ih hs₂ fun hst => ((hun hst).mono hon).mono hon₂

theorem safe_applyEvent {event : StatementEvent} {f : Statement → Statement}
    (hwrite : ∀ v next, Good v → v.awaits id → transition v.state event = some next →
      Good (f { v with state := next }) ∧ Forward v (f { v with state := next }))
    (n : Nat) (hb : Sound b) :
    (onward paysInto).Safe anything (applyEvent key event (some id) f n) b g := by
  induction n generalizing b with
  | zero => trivial
  | succ n ih =>
    refine safe_getStatement.seq hb fun s g r hr hs _ => ?_
    cases r with
    | none => trivial
    | some row =>
      cases ht : transition row.value.state event with
      | none =>
        simp only [ht]
        trivial
      | some next =>
        simp only [ht]
        have hput : (onward paysInto).Safe anything
            (putStatement key (f { row.value with state := next }) row.rev (some id)) s g :=
          safe_putStatement hr fun hgood htime => hwrite row.value next hgood (htime id rfl) ht
        refine hput.seq hs fun s₂ g p _ hs₂ _ => ?_
        cases p with
        | written r => trivial
        | conflict c => exact ih hs₂

theorem safe_moveCursor {a : Attempt} {advance : Option String} (hb : Sound b) :
    (onward paysInto).Safe anything (moveCursor key a advance) b g := by
  cases advance with
  | none => trivial
  | some next =>
    unfold moveCursor
    by_cases hsame : a.partnerCursor = some next
    · simp only [if_pos hsame]
      trivial
    · simp only [if_neg hsame]
      refine safe_updateAttempt ?_ RETRIES hb fun h => nomatch h
      exact fun a => ⟨rfl, rfl⟩

theorem safe_settleVerified {signature : String} (hb : Sound b) :
    (onward paysInto).Safe anything (settleVerified key id signature) b g := by
  refine (safe_applyEvent ?_ RETRIES hb).seq hb fun s g r _ hs _ => ?_
  · exact fun v next hgood ho ht => good_verified hgood ho ht
  · cases r with
    | some row => trivial
    | none =>
      refine safe_statementRow.bind fun s g row _ => ?_
      cases row.value.repayment with
      | none => trivial
      | some r =>
        by_cases hmine : r.attemptId = some id ∧ r.method = .privatePayments ∧ r.mismatch = []
        · simp only [if_pos hmine]
          trivial
        · simp only [if_neg hmine]
          trivial

theorem safe_settleMismatch {observed fields : List String} (hb : Sound b) :
    (onward paysInto).Safe anything (settleMismatch key id observed fields) b g := by
  refine (safe_applyEvent ?_ RETRIES hb).seq hb fun s g r _ hs _ => ?_
  · exact fun v next hgood ho ht => good_mismatch hgood ho ht
  · cases r with
    | some row => trivial
    | none =>
      refine safe_statementRow.bind fun s g row _ => ?_
      cases row.value.repayment with
      | none => trivial
      | some r =>
        by_cases hmine : r.attemptId = some id
        · simp only [if_pos hmine]
          trivial
        · simp only [if_neg hmine]
          trivial

variable [Connector]

theorem safe_readListed {reference : String} (ls : List Listed) (r : Reading) :
    (onward paysInto).Safe anything (readListed reference ls r) b g := by
  induction ls generalizing r b with
  | nil => trivial
  | cons l ls ih =>
    unfold readListed
    by_cases hok : l.ok = true
    · rw [if_pos hok]
      by_cases hread : TX_BUDGET ≤ r.read
      · rw [if_pos hread]
        trivial
      · rw [if_neg hread]
        refine safe_read (fun e s => rfl) fun s e _ _ => ?_
        cases (perform (.transaction l.signature) e s).2 with
        | none => trivial
        | some answer =>
          cases answer with
          | none => trivial
          | some tx => exact ih _
    · rw [if_neg hok]
      exact ih _

theorem safe_scan {cursor : Option String} {reference : String} :
    (onward paysInto).Safe anything (scan cursor reference) b g := by
  refine (safe_listPages _ _ _).bind fun s g listed _ => ?_
  cases listed with
  | none => trivial
  | some ls =>
    refine (safe_readListed _ _).bind fun s g r _ => ?_
    cases r with
    | none => trivial
    | some r => trivial

theorem safe_partnerAccount : (onward paysInto).Safe anything partnerAccount b g := by
  unfold partnerAccount
  cases Connector.partnerTokenAccount with
  | none => trivial
  | some partner => trivial

theorem safe_expectations {v : Statement} {a : Attempt} (hb : Sound b) :
    (onward paysInto).Safe anything (expectations key v a) b g := by
  have hdrift : ∀ s g, Sound s →
      (onward paysInto).Safe anything (expectations.drifted key a) s g := by
    intro s g hs
    have hupdate : (onward paysInto).Safe anything
        (updateAttempt key a.seq .stale (fun a => a) RETRIES) s g :=
      safe_updateAttempt (fun a => ⟨rfl, rfl⟩) RETRIES hs fun h => nomatch h
    exact hupdate.bind fun _ _ _ _ => trivial
  refine safe_partnerAccount.seq hb fun s g partner _ hs _ => ?_
  cases payable v with
  | error e => exact hdrift s g hs
  | ok due =>
    cases hu : baseUnits due a.decimals with
    | none =>
      simp only [hu]
      exact hdrift s g hs
    | some want =>
      simp only [hu]
      by_cases hfresh : a.amountBaseUnits = want ∧ a.recipientTokenAccount = partner ∧
          a.mint = Connector.mint
      · rw [if_pos hfresh]
        trivial
      · rw [if_neg hfresh]
        exact hdrift s g hs

theorem safe_checkAttempt {v : Statement} (hb : Sound b) :
    (onward paysInto).Safe anything (checkAttempt key v id) b g := by
  unfold checkAttempt
  cases v.attempt id with
  | none => trivial
  | some a =>
    by_cases hspent : a.state ≠ .awaitingSettlement
    · simp only [if_pos hspent]
      trivial
    · simp only [if_neg hspent]
      by_cases href : a.clientRefId = ""
      · simp only [if_pos href]
        trivial
      · simp only [if_neg href]
        refine (safe_expectations hb).seq hb ?_
        rintro s g ⟨partner, mint, want⟩ - hs -
        refine safe_scan.seq hs fun s g found _ hs _ => ?_
        cases found with
        | unavailable => trivial
        | pending advance => exact (safe_moveCursor hs).bind fun _ _ _ _ => trivial
        | found payouts slot =>
          cases hc : check payouts want mint partner with
          | error fields =>
            simp only [hc]
            exact safe_settleMismatch hs
          | ok x =>
            simp only [hc]
            refine safe_claimSettlements.seq hs fun s g mine _ hs _ => ?_
            cases mine with
            | true => exact safe_settleVerified hs
            | false => exact safe_settleMismatch hs

theorem safe_submit (hb : Sound b) : (onward paysInto).Safe anything (submit key id) b g := by
  refine safe_statementRow.seq hb fun s g row _ hs _ => ?_
  cases payable row.value with
  | error e => trivial
  | ok due =>
    simp only [Call.ofExcept, Call.ret_bind]
    by_cases htakes : takesRepayment row.value = true
    · rw [if_pos htakes]
      exact (safe_checkAttempt hs).map fun _ _ _ _ => trivial
    · rw [if_neg htakes]
      trivial

theorem safe_orphanCheck {a : Attempt} (hb : Sound b) (hrep : Repaid b key) :
    (onward paysInto).Safe anything (orphanCheck key a) b g := by
  refine safe_partnerAccount.seq hb fun s g _ _ hs hon => ?_
  refine safe_scan.seq hs fun s₂ g found _ hs₂ hon₂ => ?_
  cases found with
  | unavailable => trivial
  | pending advance => exact safe_moveCursor hs₂
  | found payouts slot =>
    refine safe_updateAttempt ?_ RETRIES hs₂ fun _ => (hrep.mono hon).mono hon₂
    exact fun a => ⟨rfl, rfl⟩

theorem safe_advanceOpenAttempt (hb : Sound b) :
    (onward paysInto).Safe anything (advanceOpenAttempt key) b g := by
  refine safe_getStatement.seq hb fun s g r hr hs _ => ?_
  cases r with
  | none => trivial
  | some row =>
    cases ho : row.value.openAttempt with
    | none =>
      simp only [ho]
      trivial
    | some a =>
      simp only [ho]
      by_cases htakes : takesRepayment row.value = true
      · rw [if_pos htakes]
        exact (safe_checkAttempt hs).map fun _ _ _ _ => trivial
      · rw [if_neg htakes]
        have hrep : Repaid s key := ⟨row, hr, Bool.eq_false_iff.mpr htakes⟩
        exact (safe_orphanCheck hs hrep).bind fun _ _ _ _ => trivial

theorem safe_openAttempt {partner : String} {decimals : Nat} {cursor : Option String} (n : Nat)
    (hb : Sound b) :
    (onward paysInto).Safe anything (openAttempt key partner decimals cursor n) b g := by
  induction n generalizing b with
  | zero => trivial
  | succ n ih =>
    refine safe_statementRow.seq hb fun s g row hrow hs _ => ?_
    cases payable row.value with
    | error e => trivial
    | ok due =>
      simp only [Call.ofExcept, Call.ret_bind]
      by_cases htakes : takesRepayment row.value = false
      · rw [if_pos htakes]
        trivial
      · rw [if_neg htakes]
        cases ho : row.value.openAttempt with
        | some a => trivial
        | none =>
          by_cases hmany : MAX_ATTEMPTS < row.value.attempts.length + 1
          · simp only [if_pos hmany]
            trivial
          · simp only [if_neg hmany]
            cases hu : baseUnits due decimals with
            | none => trivial
            | some amount =>
              refine Discipline.Safe.seq (Q := anything) ?_ hs fun s₂ g p _ hs₂ _ => ?_
              · refine safe_putStatement hrow fun hgood _ => ?_
                exact good_opened hgood ho (eq_true_of_ne_false htakes) rfl rfl
              · cases p with
                | written r => trivial
                | conflict c => exact ih hs₂

theorem safe_prepare (hb : Sound b) : (onward paysInto).Safe anything (prepare paysInto key) b g := by
  refine safe_partnerAccount.seq hb fun s g partner _ hs _ => ?_
  refine safe_statementRow.seq hs fun s g row _ hs _ => ?_
  cases row.value.openAttempt with
  | some a => trivial
  | none =>
    refine Discipline.Safe.seq (Q := anything) ?_ hs fun s g decimals _ hs _ => ?_
    · refine safe_read (fun e s => rfl) fun s e _ _ => ?_
      cases (perform (.account Connector.mint) e s).2 with
      | none => trivial
      | some answer =>
        cases answer with
        | none => trivial
        | some a =>
          dsimp only
          split
          · trivial
          · trivial
    · refine Discipline.Safe.seq (Q := anything) ?_ hs fun s g _ _ hs _ => ?_
      · refine safe_read (fun e s => rfl) fun s e _ _ => ?_
        cases (perform (.account partner) e s).2 with
        | none => trivial
        | some answer =>
          cases answer with
          | none => trivial
          | some a =>
            dsimp only
            split
            · trivial
            · trivial
      · refine Discipline.Safe.seq (Q := anything) ?_ hs fun s g cursor _ hs _ => ?_
        · refine safe_read (fun e s => rfl) fun s e _ _ => ?_
          cases (perform .newestSignature e s).2 with
          | none => trivial
          | some newest => trivial
        · exact safe_openAttempt RETRIES hs

end Discipline

/-! ## Outside -/

section Outside

variable {v : Statement} {event : StatementEvent} {next : StatementState}

theorem transition_repaid (h : transition v.state event = some next) (hr : v.repaid) :
    event = .partnerConfirmed ∨ event = .repaymentRecorded := by
  unfold Statement.repaid takesRepayment at hr
  cases hs : v.state with
  | closed =>
    rw [hs] at hr
    cases hr
  | repaymentMismatch =>
    rw [hs] at hr
    cases hr
  | repaymentObserved =>
    rw [hs] at h
    cases event with
    | partnerConfirmed => exact .inl rfl
    | _ => cases h
  | partnerConfirmed =>
    rw [hs] at h
    cases event with
    | repaymentRecorded => exact .inr rfl
    | _ => cases h
  | discharged =>
    rw [hs] at h
    cases event with
    | _ => cases h

theorem transition_to {s : StatementState} (h : transition s event = some next) :
    next ≠ .closed ∧ (next = .repaymentMismatch → event = .receiptMismatch) := by
  cases s with
  | discharged => cases h
  | _ =>
    cases event with
    | _ =>
      first
        | (cases h
           exact ⟨by decide, by decide⟩)
        | cases h

theorem good_event {mismatch : List String} (h : Good v)
    (ht : transition v.state event = some next) :
    Good { v with state := next, repayment := otherRepayment event mismatch v } ∧
      Forward v { v with state := next, repayment := otherRepayment event mismatch v } := by
  obtain ⟨hclosed, hmis⟩ := transition_to ht
  have hkeep : v.repaid → ({ v with
      state := next
      repayment := otherRepayment event mismatch v } : Statement).repaid ∧
      otherRepayment event mismatch v = v.repayment := by
    intro hr
    have hevent := transition_repaid ht hr
    refine ⟨?_, ?_⟩
    · unfold Statement.repaid takesRepayment
      rw [Bool.or_eq_false_iff]
      refine ⟨decide_eq_false hclosed, decide_eq_false fun hm => ?_⟩
      rcases hevent with rfl | rfl
      · cases hmis hm
      · cases hmis hm
    · rcases hevent with rfl | rfl
      · rfl
      · rfl
  refine ⟨⟨h.ids, h.one, fun a ha hs => (hkeep (h.unapplied a ha hs)).1,
    fun hc => absurd hc hclosed, ?_⟩, (Forward.refl h).closed, (Forward.refl h).listed, hkeep⟩
  intro r hr hrep hm
  cases event with
  | receiptVerified =>
    cases hrep
    cases hm
  | receiptMismatch =>
    cases hrep
    cases hm
  | nothingDue =>
    -- a closed statement has seen no repayment
    have hfrom : v.state = .closed := by
      cases hs : v.state with
      | closed => rfl
      | _ =>
        rw [hs] at ht
        cases ht
    change v.repayment = some r at hrep
    rw [h.fresh hfrom] at hrep
    cases hrep
  | partnerConfirmed =>
    have hfrom : v.repaid := by
      unfold Statement.repaid takesRepayment
      cases hs : v.state with
      | repaymentObserved => decide
      | _ =>
        rw [hs] at ht
        cases ht
    exact h.settled r hfrom hrep hm
  | repaymentRecorded =>
    have hfrom : v.repaid := by
      unfold Statement.repaid takesRepayment
      cases hs : v.state with
      | partnerConfirmed => decide
      | _ =>
        rw [hs] at ht
        cases ht
    exact h.settled r hfrom hrep hm

theorem good_closed (due : Nat) (digest : String) : Good ⟨.closed, due, digest, none, []⟩ where
  ids := rfl
  one := fun _ ha => absurd ha List.not_mem_nil
  unapplied := fun _ ha => absurd ha List.not_mem_nil
  fresh := fun _ => rfl
  settled := fun _ _ hrep => nomatch hrep

theorem outside_onward (x : Ext) {s : Store} (hs : Sound s) :
    Sound (outside x s) ∧ Onward s (outside x s) := by
  cases x with
  | closeStatement key due digest =>
    cases hrow : s.statements.lookup key with
    | some row =>
      simp only [outside, hrow]
      exact ⟨hs, Onward.refl s⟩
    | none =>
      simp only [outside, hrow]
      constructor
      · exact forall_lookup_insert hs (good_closed due digest)
      · intro k r hr
        have hk : k ≠ key := by
          rintro rfl
          cases hrow.symm.trans hr
        refine ⟨r, ?_, .inl rfl⟩
        change (s.statements.insert key _).lookup k = some r
        rw [AList.lookup_insert_ne hk]
        exact hr
  | event key event mismatch =>
    cases hrow : s.statements.lookup key with
    | none =>
      simp only [outside, hrow]
      exact ⟨hs, Onward.refl s⟩
    | some row =>
      cases ht : transition row.value.state event with
      | none =>
        simp only [outside, hrow, ht]
        exact ⟨hs, Onward.refl s⟩
      | some next =>
        simp only [outside, hrow, ht]
        obtain ⟨hgood, hfor⟩ := good_event (hs key row hrow) ht
        exact onward_insert hs hrow rfl (Nat.lt_succ_self _) hgood hfor

end Outside

/-! ## Runs -/

instance (s : Statement) (id : Nat) : Decidable (s.awaits id) :=
  inferInstanceAs (Decidable (∃ a ∈ s.attempts, _))

instance (s : Store) (o : Op) : Decidable (InTime s o) :=
  match o with
  | .putStatement key _ rev (some id) =>
    match h : s.statements.lookup key with
    | some row =>
      decidable_of_iff (row.rev = rev → row.value.awaits id) (by simp [InTime, h])
    | none => .isTrue (by simp [InTime, h])
  | .putStatement _ _ _ none | .getStatement _ | .claimSettlement _ _ | .account _
  | .newestSignature | .signatures _ _ | .transaction _ => .isTrue trivial

section Runs

variable (paysInto : Bytes → String → Option String)

instance (r : Served) : Decidable ((onward paysInto).terms.Starts r) :=
  inferInstanceAs (Decidable True)

instance (b : Store) (g : Unit) (s : Store) (o : Op) (e : Env) :
    Decidable ((onward paysInto).terms.Meets b g s o e) :=
  inferInstanceAs (Decidable (InTime s o))

instance (x : Ext) (s : Store) : Decidable ((onward paysInto).terms.Outside x s) :=
  inferInstanceAs (Decidable True)

theorem passes_rules : (onward paysInto).Rules anything where
  entry := by
    rintro ⟨connector, r⟩ s _ hs
    let _ := connector
    cases r with
    | prepare key => exact (safe_prepare hs).map fun _ _ _ _ => trivial
    | submit key id => exact (safe_submit hs).map fun _ _ _ _ => trivial
    | cron key => exact (safe_advanceOpenAttempt hs).map fun _ _ _ _ => trivial
  outside := fun x s _ hs => outside_onward x hs

/-- The private payout that settled a statement. -/
def Statement.settledBy (v : Statement) (signature : String) : Prop :=
  v.repaid ∧ ∃ r, v.repayment = some r ∧ r.method = .privatePayments ∧ signature ∈ r.signatures

/-- What is promised of a statement between two moments of a run. -/
structure MovesForward (v v' : Statement) : Prop where
  closed : ∀ a ∈ v.attempts, a.state ≠ .awaitingSettlement → ∀ a' ∈ v'.attempts,
    a'.seq = a.seq → a'.state ≠ .awaitingSettlement
  one : ∀ a ∈ v'.attempts, ∀ a' ∈ v'.attempts, a.state = .awaitingSettlement →
    a'.state = .awaitingSettlement → a = a'
  applied : ∀ signature, v.settledBy signature → ∀ a ∈ v'.attempts,
    a.state = .unappliedPayout → signature ∉ a.settlementSignatures

/-- Every statement moves forward between two moments of a run. -/
def RunMovesForward (as bs : List (Act Env Served Ext)) : Prop :=
  ∀ key row row',
    ((passes paysInto).run (.init {}) as).store.statements.lookup key = some row →
    ((passes paysInto).run (.init {}) (as ++ bs)).store.statements.lookup key = some row' →
    MovesForward row.value row'.value

theorem MovesForward.of_forward {v v' : Statement} (hg : Good v') (hf : Forward v v') :
    MovesForward v v' where
  closed := hf.closed
  one := fun a ha a' ha' hs hs' => hg.seq_inj ha ha' (hg.one a ha a' ha' hs hs')
  applied := by
    rintro signature ⟨hrep, r, hr, hm, -⟩ a ha hs
    obtain ⟨hrep', hsame⟩ := hf.repaid hrep
    exact absurd hs (hg.settled r hrep' (hsame.trans hr) hm a ha).2

/-- **Forward.** In every run in which each write of a check finds its attempt still awaiting
settlement, an attempt that has left `awaiting_settlement` never returns to it, at most one
attempt is open, and the payout that settled a statement is never recorded as unapplied. -/
theorem attempts_move_forward (as bs : List (Act Env Served Ext))
    (hk : (passes paysInto).Kept (onward paysInto).terms (.init {}) (as ++ bs)) :
    RunMovesForward paysInto as bs := by
  intro key row row' hrow hrow'
  have hempty : Sound {} := by
    intro k r hr
    cases hr
  obtain ⟨hk₁, hk₂⟩ := System.kept_append.mp hk
  have hmid := (Discipline.run_sound (passes_rules paysInto)
    (Discipline.init_sound (D := onward paysInto) hempty) hk₁).1
  obtain ⟨hend, hon⟩ := Discipline.run_sound (passes_rules paysInto) hmid hk₂
  rw [System.run_append] at hrow'
  obtain ⟨row₂, hrow₂, hcase⟩ := hon key row hrow
  cases hrow₂.symm.trans hrow'
  have hgood := hend.inv key row' hrow'
  rcases hcase with rfl | ⟨-, hf⟩
  · exact .of_forward hgood (Forward.refl hgood)
  · exact .of_forward hgood hf

end Runs

/-! ## A pass that is overtaken -/

namespace Sample

/-- References from the characters of the text, last first. -/
scoped instance connector : Connector where
  partnerTokenAccount := some "partner"
  mint := "usdc"
  vaultAccounts := fun _ => some ("vault", "vaultTokens")
  blind := fun _ text =>
    let hex := fun n => Char.ofNat (if n < 10 then n + 48 else n + 87)
    String.ofList (text.toList.reverse.flatMap fun c => [hex (c.toNat / 16), hex (c.toNat % 16)])

def paysInto : Bytes → String → Option String := fun _ _ => some "partner"

/-- A queued payout to the partner. -/
def payout (reference amount : String) : Tx where
  failed := false
  logMessages := some
    [ "Program SPLxh1LVZzEkX99H6rqYizhytLWPZVV296zyYDPagv2 invoke [1]",
      "Program log: Instruction: ExecuteReadyQueuedTransfer",
      "Program log: client_ref_id: " ++ reference,
      "Program TokenkegQfeZyiNwAJbNbGKPFXCWuBvf9Ss623VQ5DA invoke [2]",
      "Program TokenkegQfeZyiNwAJbNbGKPFXCWuBvf9Ss623VQ5DA success",
      "Program SPLxh1LVZzEkX99H6rqYizhytLWPZVV296zyYDPagv2 success" ]
  innerInstructions := [⟨0, [⟨SPL_TOKEN_PROGRAM, "transferChecked",
    { tokenAmount := some amount
      mint := "usdc"
      source := "vaultTokens"
      destination := "partner"
      authority := "vault" }⟩]⟩]

/-- The chain with these transactions in the partner's history, newest first. -/
def chain (history : List (String × Tx)) : Env where
  account := fun _ => some (some ⟨SPL_TOKEN_PROGRAM, List.replicate 82 6⟩)
  newest := some (some "sig0")
  signatures := fun _ _ => some (history.map fun x => ⟨x.1, 1, true⟩)
  transaction := fun signature => some ((history.find? fun x => x.1 = signature).map Prod.snd)

/-- The same, while the partner's account is set to another one. -/
@[reducible] def misconfigured : Connector := { connector with partnerTokenAccount := some "other" }

def asks (c : Connector) (r : Request) : Act Env Served Ext := .start ⟨c, r⟩ fun _ => 0

def goes (i n : Nat) (e : Env) : List (Act Env Served Ext) :=
  List.replicate n (.go i e fun _ => 0)

/-- Calls `i` and `j` go on by turns. -/
def byTurns (i j n : Nat) (e : Env) : List (Act Env Served Ext) :=
  (List.replicate n (goes i 1 e ++ goes j 1 e)).flatten

def early : Env := chain [("sig1", payout "7" "1")]

/-- The payout of an attempt of the statement with digest `d1` has arrived. -/
def paid (id : Nat) : Env :=
  chain [("sig2", payout (clientRefId "d1" id) "100000000"), ("sig1", payout "7" "1")]

/-- A statement is closed and its first attempt is opened. -/
def opened : List (Act Env Served Ext) :=
  [.outside (.closeStatement "s" 10000 "d1"), asks connector (.prepare "s")] ++ goes 0 6 early

/-- Two polls: the second finds the payout after the first has scanned without it. -/
def overtaken : List (Act Env Served Ext) :=
  opened ++ [asks connector (.submit "s" 1)] ++ goes 1 3 early ++
    [asks connector (.submit "s" 1)] ++ goes 2 7 (paid 1)

/-- The owner's poll and the cron job scan by turns, and the loser of the write tries again; then
a poll under the other account closes the attempt as stale. -/
def crossed : List (Act Env Served Ext) :=
  opened ++ [asks connector (.submit "s" 1), asks connector (.cron "s")] ++ byTurns 1 2 5 early ++
    goes 2 2 early ++ [asks misconfigured (.submit "s" 1)] ++ goes 3 3 early

/-- A second attempt is opened, two polls by turns find its payout, and one of them is late. -/
def repaid : List (Act Env Served Ext) :=
  [asks connector (.prepare "s")] ++ goes 4 6 early ++
    [asks connector (.submit "s" 2), asks connector (.cron "s")] ++ byTurns 5 6 9 (paid 2)

/-- The attempt of the sample statement. -/
def attempt (state : AttemptState) (cursor : String) (signatures : List String) : Attempt where
  seq := 1
  state := state
  clientRefId := "163195599740"
  partnerCursor := some cursor
  mint := "usdc"
  decimals := 6
  amountBaseUnits := 100000000
  recipientTokenAccount := "partner"
  settlementSignatures := signatures

def settled (a : Attempt) : Statement where
  state := .repaymentObserved
  amountDueCents := 10000
  digest := "d1"
  repayment := some (verifiedRepayment 1 "sig2")
  attempts := [a]

end Sample

open Sample in
theorem attempts_move_forward_polled :
    (passes paysInto).Kept (onward paysInto).terms (.init {}) (crossed ++ Sample.repaid) ∧
      RunMovesForward paysInto crossed Sample.repaid := by
  have hkept : (passes paysInto).Kept (onward paysInto).terms (.init {})
      (crossed ++ Sample.repaid) := by
    decide +kernel
  exact ⟨hkept, attempts_move_forward paysInto crossed Sample.repaid hkept⟩

open Sample in
/-- A poll that scanned before the payout arrived writes its cursor after another poll has
verified the attempt, and opens it again. -/
theorem overtaken_poll_reopens :
    ¬ ∀ (paysInto : Bytes → String → Option String) (as bs : List (Act Env Served Ext)),
      RunMovesForward paysInto as bs := by
  intro h
  have hbefore : ((passes paysInto).run (.init {}) overtaken).store.statements.lookup "s" =
      some ⟨3, settled (attempt .verified "sig0" ["sig2"]), 0⟩ := by
    decide +kernel
  have hafter : ((passes paysInto).run (.init {})
      (overtaken ++ goes 1 2 early)).store.statements.lookup "s" =
      some ⟨4, settled (attempt .awaitingSettlement "sig1" ["sig2"]), 0⟩ := by
    decide +kernel
  have hmove := h paysInto overtaken (goes 1 2 early) "s" _ _ hbefore hafter
  have hfalse := hmove.closed _ (List.mem_singleton_self _) (by decide) _
    (List.mem_singleton_self _) rfl
  exact hfalse rfl

end ChainPay.Repay
