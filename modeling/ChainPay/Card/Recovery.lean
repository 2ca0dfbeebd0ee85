import ChainPay.Card.Turn

/-!
Recovery is a one-way gate. After a `recovery_freeze` nothing is spent until the
card was restored by the owner and the authorizer together, the owner confirmed
the restored numbers by their digest, and the owner lifted the freeze with no
exception open, in this order and with no further `recovery_freeze` among them.
`Stage` says how far along that way the card is, read off its control alone.
-/

namespace ChainPay.Card
open ChainPay.Lib

/-- A successful call of a run with the card it found. -/
abbrev Event := Runs.Event State Call

def Instr.isRecoveryFreeze : Instr → Bool
  | .recoveryFreeze .. => true
  | _ => false

/-- The instruction starts new spending: an authorization, an intent for one, or a
larger hold. -/
def Instr.spends (s : State) : Instr → Bool
  | .authorize .. => true
  | .openCheckoutIntent .. => true
  | instr => instr.raises s

/-- No `recovery_freeze` succeeded. -/
def Unbroken (es : List Event) : Prop := ∀ e ∈ es, e.call.instr.isRecoveryFreeze = false

/-- A `restore` to the numbers behind `digest`, signed by the card's owner and by the
authorizer in member slot 1. -/
def Restores (e : Event) (digest : Hash) : Prop :=
  ∃ owner authorizer args, e.call.instr = .restore owner authorizer args ∧
    args.reconDigest = digest ∧ e.before.policy.owner = owner ∧ owner ∈ e.call.ctx.signers ∧
    2 ≤ e.before.policy.memberCount ∧ secondOf e.before.policy.members = authorizer ∧
    authorizer ∈ e.call.ctx.signers

/-- A `confirm_reconciled` of `digest` by the card's owner. -/
def Confirms (e : Event) (digest : Hash) : Prop :=
  ∃ owner, e.call.instr = .confirmReconciled owner digest ∧ e.before.policy.owner = owner ∧
    owner ∈ e.call.ctx.signers

/-- An `unfreeze` by the card's owner with no exception open. -/
def Unfreezes (e : Event) : Prop :=
  ∃ owner, e.call.instr = .unfreeze owner ∧ e.before.policy.owner = owner ∧
    owner ∈ e.call.ctx.signers ∧ e.before.policy.exceptionsOpen = 0

/-- The last thing that happened to recovery was a restore to `digest`. -/
def RestoredTo (digest : Hash) (es : List Event) : Prop :=
  ∃ a r b, es = a ++ r :: b ∧ Restores r digest ∧ Unbroken b

/-- A restore was confirmed, and recovery has not begun again. -/
def ConfirmedAfter (es : List Event) : Prop :=
  ∃ a c b digest, es = a ++ c :: b ∧ RestoredTo digest a ∧ Confirms c digest ∧ Unbroken b

/-- A confirmed card was unfrozen, and recovery has not begun again. -/
def Reopened (es : List Event) : Prop :=
  ∃ a u b, es = a ++ u :: b ∧ ConfirmedAfter a ∧ Unfreezes u ∧ Unbroken b

/-! ## Histories that go on -/

section Extend

variable {es : List Event} {e : Event} {digest : Hash}

theorem Unbroken.nil : Unbroken [] := fun _ he => absurd he List.not_mem_nil

theorem Unbroken.snoc (h : Unbroken es) (he : e.call.instr.isRecoveryFreeze = false) :
    Unbroken (es ++ [e]) := by
  intro x hx
  rcases List.mem_append.mp hx with hx | hx
  · exact h x hx
  · rw [List.mem_singleton.mp hx]
    exact he

theorem RestoredTo.snoc (h : RestoredTo digest es) (he : e.call.instr.isRecoveryFreeze = false) :
    RestoredTo digest (es ++ [e]) := by
  obtain ⟨a, r, b, rfl, hr, hb⟩ := h
  exact ⟨a, r, b ++ [e], by simp, hr, hb.snoc he⟩

theorem ConfirmedAfter.snoc (h : ConfirmedAfter es)
    (he : e.call.instr.isRecoveryFreeze = false) : ConfirmedAfter (es ++ [e]) := by
  obtain ⟨a, c, b, d, rfl, ha, hc, hb⟩ := h
  exact ⟨a, c, b ++ [e], d, by simp, ha, hc, hb.snoc he⟩

theorem Reopened.snoc (h : Reopened es) (he : e.call.instr.isRecoveryFreeze = false) :
    Reopened (es ++ [e]) := by
  obtain ⟨a, u, b, rfl, ha, hu, hb⟩ := h
  exact ⟨a, u, b ++ [e], by simp, ha, hu, hb.snoc he⟩

theorem Unfreezes.unbroken (h : Unfreezes e) : e.call.instr.isRecoveryFreeze = false := by
  obtain ⟨o, hi, -⟩ := h
  rw [hi]
  rfl

/-- A reopened card was confirmed before. -/
theorem Reopened.confirmed (h : Reopened es) : ConfirmedAfter es := by
  obtain ⟨a, u, b, rfl, ⟨a', c, b', d, rfl, ha, hc, hb'⟩, hu, hb⟩ := h
  refine ⟨a', c, b' ++ u :: b, d, by simp, ha, hc, ?_⟩
  intro x hx
  rcases List.mem_append.mp hx with hx | hx
  · exact hb' x hx
  · rcases List.mem_cons.mp hx with rfl | hx
    · exact hu.unbroken
    · exact hb x hx

end Extend

/-! ## Stages -/

/-- How far a card is on the way out of recovery, `es` being what succeeded since a
`recovery_freeze`. -/
inductive Stage (es : List Event) (c : Control) : Prop where
  | frozen (hr : c.recoveryState = .frozen) (hf : c.frozen = true)
  | restored (hr : c.recoveryState = .restoredPending) (hf : c.frozen = true)
      (h : RestoredTo c.reconDigest es)
  | confirmed (hr : c.recoveryState = .normal) (hf : c.frozen = true) (h : ConfirmedAfter es)
  | reopened (hr : c.recoveryState = .normal) (hf : c.frozen = false) (h : Reopened es)

/-- In recovery the card is frozen. -/
def Locked (c : Control) : Prop := c.recoveryState ≠ .normal → c.frozen = true

section Steps

variable {ctx : Ctx} {s s' : State} {es : List Event} {instr : Instr}

/-- The calls outside the policy leave freeze and recovery alone. -/
structure SameGate (c c' : Control) : Prop where
  frozen : c'.frozen = c.frozen
  state : c'.recoveryState = c.recoveryState
  digest : c'.reconDigest = c.reconDigest

theorem SameGate.of_eq {c c' : Control} (h : c' = c) : SameGate c c' := h ▸ ⟨rfl, rfl, rfl⟩

/-- Every turn but a wipe goes through the gate or leaves it alone. -/
theorem Turn.gate_or_same (ht : Turn ctx s s' instr) (hw : instr.wipes = false) :
    GateTurn ctx s.policy s'.control instr ∨
      SameGate s.control s'.control ∧ instr.isRecoveryFreeze = false := by
  cases ht with
  | gate hgate _ => exact .inl hgate
  | post hq hc _ _ _ _ =>
    refine .inr ⟨.of_eq hc, ?_⟩
    cases instr <;> first | rfl | cases hq
  | openIntent _ _ _ _ hc _ _ => exact .inr ⟨hc ▸ ⟨rfl, rfl, rfl⟩, rfl⟩
  | cancelIntent _ _ hc _ _ => exact .inr ⟨.of_eq hc, rfl⟩
  | closeIntent _ _ hc _ _ => exact .inr ⟨hc ▸ ⟨rfl, rfl, rfl⟩, rfl⟩
  | authorize _ _ _ _ _ _ _ _ _ _ _ _ _ hc _ => exact .inr ⟨hc ▸ ⟨rfl, rfl, rfl⟩, rfl⟩
  | close _ _ _ _ hc _ => exact .inr ⟨hc ▸ ⟨rfl, rfl, rfl⟩, rfl⟩
  | wipe _ _ _ _ => cases hw

/-- **Step.** No turn but a wipe unlocks a card in recovery. -/
theorem Turn.locked (ht : Turn ctx s s' instr) (hw : instr.wipes = false)
    (hl : Locked s.control) : Locked s'.control := by
  rcases ht.gate_or_same hw with hgate | ⟨hsame, -⟩
  · cases hgate with
    | quiet _ hc => exact hc ▸ hl
    | setPolicy _ hc =>
      rw [hc]
      exact hl
    | freeze hc =>
      rw [hc]
      exact fun _ => rfl
    | unfreeze _ _ hnormal _ hc =>
      rw [hc]
      exact fun hr => absurd hnormal hr
    | recoveryFreeze hc =>
      rw [hc]
      exact fun _ => rfl
    | restore _ _ _ _ _ _ hc =>
      rw [hc]
      exact fun _ => rfl
    | confirm _ _ _ _ hc =>
      rw [hc]
      exact fun hr => absurd rfl hr
  · intro hr
    rw [hsame.state] at hr
    exact hsame.frozen.trans (hl hr)

/-- A turn that leaves freeze, recovery and digest alone goes on in the same stage. -/
theorem Stage.snoc {c c' : Control} {e : Event} (hs : Stage es c)
    (he : e.call.instr.isRecoveryFreeze = false) (hsame : SameGate c c') :
    Stage (es ++ [e]) c' := by
  obtain ⟨hfrozen, hstate, hdigest⟩ := hsame
  cases hs with
  | frozen hr hf => exact .frozen (hstate.trans hr) (hfrozen.trans hf)
  | restored hr hf h =>
    refine .restored (hstate.trans hr) (hfrozen.trans hf) ?_
    rw [hdigest]
    exact h.snoc he
  | confirmed hr hf h => exact .confirmed (hstate.trans hr) (hfrozen.trans hf) (h.snoc he)
  | reopened hr hf h => exact .reopened (hstate.trans hr) (hfrozen.trans hf) (h.snoc he)

/-- An owner's or authorizer's freeze closes the gate in front of the last step. -/
theorem Stage.freeze {c c' : Control} {e : Event} (hs : Stage es c)
    (he : e.call.instr.isRecoveryFreeze = false) (hfrozen : c'.frozen = true)
    (hstate : c'.recoveryState = c.recoveryState) (hdigest : c'.reconDigest = c.reconDigest) :
    Stage (es ++ [e]) c' := by
  cases hs with
  | frozen hr _ => exact .frozen (hstate.trans hr) hfrozen
  | restored hr _ h =>
    refine .restored (hstate.trans hr) hfrozen ?_
    rw [hdigest]
    exact h.snoc he
  | confirmed hr _ h => exact .confirmed (hstate.trans hr) hfrozen (h.snoc he)
  | reopened hr _ h => exact .confirmed (hstate.trans hr) hfrozen (h.confirmed.snoc he)

/-- Outside recovery a confirmed restore lies behind the card. -/
theorem Stage.confirmedAfter {c : Control} (hs : Stage es c) (hr : c.recoveryState = .normal) :
    ConfirmedAfter es := by
  cases hs with
  | frozen hr' _ => cases hr.symm.trans hr'
  | restored hr' _ _ => cases hr.symm.trans hr'
  | confirmed _ _ h => exact h
  | reopened _ _ h => exact h.confirmed

/-- **Step.** Every turn but a wipe moves the card along the stages. -/
theorem Turn.stage (ht : Turn ctx s s' instr) (hw : instr.wipes = false)
    (hs : Stage es s.control) : Stage (es ++ [⟨s, ctx, instr⟩]) s'.control := by
  rcases ht.gate_or_same hw with hgate | ⟨hsame, he⟩
  · cases hgate with
    | quiet hq hc =>
      have he : instr.isRecoveryFreeze = false := by cases instr <;> first | rfl | cases hq
      exact hs.snoc he (.of_eq hc)
    | setPolicy _ hc => exact hs.snoc rfl (hc ▸ ⟨rfl, rfl, rfl⟩)
    | freeze hc => exact hs.freeze rfl (by rw [hc]) (by rw [hc]; rfl) (by rw [hc]; rfl)
    | unfreeze howner hsig hnormal hexc hc =>
      rw [hc]
      refine .reopened hnormal rfl ?_
      exact ⟨es, _, [], rfl, hs.confirmedAfter hnormal, ⟨_, rfl, howner, hsig, hexc⟩, .nil⟩
    | recoveryFreeze hc =>
      rw [hc]
      exact .frozen rfl rfl
    | restore howner hsigo hmembers hsecond hsiga _ hc =>
      rw [hc]
      refine .restored rfl rfl ?_
      exact ⟨es, _, [], rfl, ⟨_, _, _, rfl, rfl, howner, hsigo, hmembers, hsecond, hsiga⟩, .nil⟩
    | confirm howner hsig hpending hdigest hc =>
      cases hs with
      | frozen hr _ => cases hpending.symm.trans hr
      | restored _ hf h =>
        rw [hc]
        refine .confirmed rfl hf ?_
        exact ⟨es, _, [], _, rfl, h, ⟨_, congrArg _ hdigest.symm, howner, hsig⟩, .nil⟩
      | confirmed hr _ _ => cases hpending.symm.trans hr
      | reopened hr _ _ => cases hpending.symm.trans hr
  · exact hs.snoc he hsame

/-- A `recovery_freeze` puts the card at the first stage. -/
theorem Turn.begins (ht : Turn ctx s s' instr) (hw : instr.wipes = false)
    (hf : instr.isRecoveryFreeze = true) : Stage [] s'.control := by
  rcases ht.gate_or_same hw with hgate | ⟨-, he⟩
  · cases hgate with
    | recoveryFreeze hc =>
      rw [hc]
      exact .frozen rfl rfl
    | quiet hq _ =>
      cases instr with
      | recoveryFreeze k b => cases hq
      | _ => cases hf
    | _ => cases hf
  · cases he.symm.trans hf

/-- A call that starts new spending finds the card open. -/
theorem Turn.spendable (ht : Turn ctx s s' instr) (hsp : instr.spends s = true) :
    s.control.spendable := by
  cases ht with
  | gate hgate _ =>
    cases hgate with
    | quiet hq _ => cases instr <;> first | (cases hsp; done) | cases hq
    | _ => cases hsp
  | post hq _ _ _ _ hup => cases instr <;> first | exact hup hsp | cases hq
  | openIntent hspend _ _ _ _ _ _ => exact hspend
  | authorize hspend _ _ _ _ _ _ _ _ _ _ _ _ _ _ => exact hspend
  | cancelIntent _ _ _ _ _ => cases hsp
  | closeIntent _ _ _ _ _ => cases hsp
  | close _ _ _ _ _ _ => cases hsp
  | wipe _ _ _ _ => cases hsp

end Steps

/-! ## Runs -/

section Runs

variable [Runtime] {s : State} {calls : List Call}

theorem run_locked (hs : Fresh s) (hw : NoWipe s calls) :
    Locked (Runs.after exec s calls).control := by
  refine Runs.after_inv (I := fun s => Locked s.control) ?_ hw ?_
  · exact fun _ _ _ hno hx hl => (exec_turn hx).locked hno hl
  · obtain ⟨b, hp, -⟩ := hs.eq
    intro hr
    unfold State.control at hr
    rw [hp] at hr
    exact absurd rfl hr

/-- Every `recovery_freeze` of the run left the card in a stage that the calls after
it account for. -/
theorem run_stage (hw : NoWipe s calls) :
    ∀ pre f mid, Runs.history exec s calls = pre ++ f :: mid →
      f.call.instr.isRecoveryFreeze = true → Stage mid (Runs.after exec s calls).control := by
  refine Runs.after_logged (f := fun s call _ => [⟨s, call⟩])
    (I := fun s' log => ∀ pre f mid, log = pre ++ f :: mid →
      f.call.instr.isRecoveryFreeze = true → Stage mid s'.control) ?_ hw ?_
  · rintro s ⟨ctx, instr⟩ s' log hno hx hinv pre f mid hlog hf
    have ht := exec_turn hx
    rcases Runs.snoc_split hlog.symm with ⟨rfl, rfl, -⟩ | ⟨mid', rfl, hlog'⟩
    · exact ht.begins hno hf
    · exact ht.stage hno (hinv pre f mid' hlog' hf)
  · intro pre f mid hlog
    cases pre <;> cases hlog

end Runs

/-- **One-way gate.** Without a `wipe_card`: a card in recovery is frozen, and between
a `recovery_freeze` and any later new spending the card was reopened: restored by
owner and authorizer, confirmed by the owner with that restore's digest, and unfrozen
by the owner with no exception open. -/
theorem recovery_gate [Runtime] (s : State) (calls : List Call) (hs : Fresh s)
    (hw : NoWipe s calls) :
    ((Runs.after exec s calls).policy.recoveryState ≠ .normal →
      (Runs.after exec s calls).policy.frozen = true) ∧
    ∀ pre f mid g post, Runs.history exec s calls = pre ++ f :: mid ++ g :: post →
      f.call.instr.isRecoveryFreeze = true → g.call.instr.spends g.before = true → Reopened mid := by
  refine ⟨run_locked hs hw, fun pre f mid g post hlog hf hg => ?_⟩
  obtain ⟨bs, cs, s', rfl, hbs, hbefore, hx, -⟩ := Runs.history_split hlog
  have hw' := ((Runs.along_append s bs (g.call :: cs)).mp hw).1
  obtain ⟨hopen, hnormal⟩ := (exec_turn hx).spendable hg
  have hstage := run_stage hw' pre f mid hbs hf
  rw [← hbefore] at hstage
  cases hstage with
  | frozen hr _ => cases hnormal.symm.trans hr
  | restored hr _ _ => cases hnormal.symm.trans hr
  | confirmed _ hf' _ => cases hopen.symm.trans hf'
  | reopened _ _ h => exact h

namespace Sample

def reconciled : RestoreArgs where
  policy := policyArgs 5000 3000 50
  periodIndex := 1
  capturedCents := 0
  reservedCents := 0
  refundedCents := 0
  purchasesCount := 0
  exceptionCents := 0
  statementOutstandingCents := 0
  ledgerHead := 0
  ledgerSeq := 0
  reconDigest := key 40

/-- Out of recovery: restored, confirmed, unfrozen, and a first purchase. -/
def recovered : List Call :=
  setup 5000 3000 50 ++
    [byAuthorizer (.recoveryFreeze authorizer 1),
     ⟨ctxAt 1800000000 [owner, authorizer], .restore owner authorizer reconciled⟩,
     ⟨ctxAt 1800000000 [owner], .confirmReconciled owner (key 40)⟩,
     ⟨ctxAt 1800000000 [owner], .unfreeze owner⟩] ++ purchase 20 2000 false

end Sample

open Sample in
theorem recovery_gate_recovered :
    Fresh start ∧ NoWipe start recovered ∧
      ∃ pre f mid g post, Runs.history exec start recovered = pre ++ f :: mid ++ g :: post ∧
        f.call.instr.isRecoveryFreeze = true ∧ g.call.instr.spends g.before = true ∧
        Reopened mid := by
  have hno : NoWipe start recovered := by decide
  have hf : ((Runs.history exec start recovered)[2]?.map fun x =>
      x.call.instr.isRecoveryFreeze) = some true := by decide
  have hg : ((Runs.history exec start recovered)[6]?.map fun x =>
      x.call.instr.spends x.before) = some true := by decide
  obtain ⟨f, hf, hfreeze⟩ := Option.map_eq_some_iff.mp hf
  obtain ⟨g, hg, hspend⟩ := Option.map_eq_some_iff.mp hg
  obtain ⟨pre, mid, post, hlog⟩ := Runs.split_two hf hg (by decide)
  have hopened := (recovery_gate start recovered start_fresh hno).2 _ _ _ _ _ hlog hfreeze hspend
  exact ⟨start_fresh, hno, pre, f, mid, g, post, hlog, hfreeze, hspend, hopened⟩

end ChainPay.Card
