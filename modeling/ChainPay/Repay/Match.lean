import Mathlib.Data.List.Find
import Mathlib.Data.List.Infix
import ChainPay.Repay.Credits

/-!
Payouts and statements match one to one. Over a finalized history of the partner's account,
and for any interleaving of checks, no payout is credited to two statements, and a statement
that was paid exactly is never marked as mismatched and is verified once its passes have
reached the payout: `payouts_match_statements`. It takes that no two statements wait for one
transaction, since that is what `claim_settlements` claims, and that no scan reads a payout with
the reference without the exact one.
-/

namespace ChainPay.Repay
open ChainPay.Lib

/-! ## A pass on its own -/

namespace Credits

section Alone

variable [Connector] {h : History} {s₀ : Store} {paysInto : Bytes → String → Option String}
  {key : String} {id : Nat} {e : Env} {s : Store} {row : Row Statement}

omit [Connector] in
theorem attempt_of_mem {v : Statement} {a : Attempt} (hn : (v.attempts.map Attempt.seq).Nodup)
    (ha : a ∈ v.attempts) : v.attempt a.seq = some a := by
  cases hfind : v.attempt a.seq with
  | none =>
    have hnone := List.find?_eq_none.mp hfind a ha
    simp at hnone
  | some x =>
    have hseq := List.find?_some hfind
    simp only [decide_eq_true_eq] at hseq
    rw [List.inj_on_of_nodup_map hn (List.mem_of_find?_eq_some hfind) ha hseq]

omit [Connector] in
theorem alone_getStatement (hserve : Serving h e) :
    (getStatement key).alone perform e s = (s, .ok (s.statements.lookup key)) := by
  simp only [getStatement, Call.alone, perform, if_pos hserve.storage, need]

omit [Connector] in
/-- A write by the only pass lands. -/
theorem alone_putStatement (hserve : Serving h e) (hrow : s.statements.lookup key = some row)
    {v : Statement} {about : Option Nat} :
    (putStatement key v row.rev about).alone perform e s =
      ({ s with statements := s.statements.insert key ⟨row.rev + 1, v, e.now⟩ },
        .ok (.written ⟨row.rev + 1, v, e.now⟩)) := by
  simp only [putStatement, Call.alone, perform, Store.write, hserve.storage, put, hrow, cas,
    Option.map_some, if_true, need]
  rfl

omit [Connector] in
theorem alone_updateAttempt (hserve : Serving h e) (hrow : s.statements.lookup key = some row)
    {state : AttemptState} {f : Attempt → Attempt} (n : Nat) :
    (updateAttempt key id state f (n + 1)).alone perform e s =
      ({ s with statements :=
          s.statements.insert key ⟨row.rev + 1, setAttempt row.value id state f, e.now⟩ },
        .ok ()) := by
  unfold updateAttempt
  rw [Call.alone_bind (alone_getStatement hserve), hrow]
  exact Call.alone_bind (alone_putStatement hserve hrow)

omit [Connector] in
theorem alone_applyEvent (hserve : Serving h e) (hrow : s.statements.lookup key = some row)
    {event : StatementEvent} {next : StatementState} (about : Option Nat)
    (f : Statement → Statement) (ht : transition row.value.state event = some next) (n : Nat) :
    (applyEvent key event about f (n + 1)).alone perform e s =
      ({ s with statements :=
          s.statements.insert key ⟨row.rev + 1, f { row.value with state := next }, e.now⟩ },
        .ok (some ⟨row.rev + 1, f { row.value with state := next }, e.now⟩)) := by
  unfold applyEvent
  rw [Call.alone_bind (alone_getStatement hserve), hrow]
  simp only [ht]
  exact Call.alone_bind (alone_putStatement hserve hrow)

theorem alone_expectations {v : Statement} {a : Attempt} (hc : Current v a) :
    (expectations key v a).alone perform e s =
      (s, .ok (a.recipientTokenAccount, a.mint, a.amountBaseUnits)) := by
  have hpay : payable v = .ok v.amountDueCents := by
    simp only [payable, if_neg hc.due]
  simp only [expectations, partnerAccount, hc.partner, Call.ret_bind, hpay, hc.amount, hc.mint,
    and_self, if_true, Call.alone]

omit [Connector] in
theorem alone_claimSettlements (hserve : Serving h e) {signature : String}
    (hl : (s.claims.lookup signature).getD key = key) :
    (claimSettlements key signature).alone perform e s = (s.claim signature key, .ok true) := by
  have hclaim : (claimSettlement signature key).alone perform e s =
      (s.claim signature key, .ok key) := by
    simp only [claimSettlement, Call.alone, perform, Store.write, hserve.storage, need, hl]
  unfold claimSettlements
  rw [Call.alone_bind hclaim]
  simp only [decide_true, Call.alone]

/-- How much of the history the open attempt has left to read. -/
def left (h : History) (v : Statement) : Nat :=
  match v.openAttempt with
  | some a => (newer h a.partnerCursor).length
  | none => 0

omit [Connector] in
theorem left_le (v : Statement) : left h v ≤ h.length := by
  unfold left
  cases v.openAttempt with
  | none => exact Nat.zero_le _
  | some a => exact (newer_suffix h a.partnerCursor).length_le

omit [Connector] in
/-- The open attempt is still the open one after its cursor has moved. -/
theorem openAttempt_moved {v : Statement} {a : Attempt} (cursor : Option String)
    (hn : (v.attempts.map Attempt.seq).Nodup) (ho : v.openAttempt = some a) :
    (setAttempt v a.seq .awaitingSettlement fun a => { a with partnerCursor := cursor }).openAttempt
      = some { a with partnerCursor := cursor } := by
  have hmem := List.mem_of_find?_eq_some ho
  have hwait : a.state = .awaitingSettlement := by
    have hfound := List.find?_some ho
    simpa only [decide_eq_true_eq] using hfound
  have hsame : ∀ x ∈ v.attempts, x.seq = a.seq → x = a :=
    fun x hx hseq => List.inj_on_of_nodup_map hn hx hmem hseq
  unfold Statement.openAttempt at ho ⊢
  simp only [setAttempt, List.find?_map]
  have hpred : v.attempts.find? ((fun a : Attempt => decide (a.state = .awaitingSettlement)) ∘
      fun x => if x.seq = a.seq then
        { x with state := .awaitingSettlement, partnerCursor := cursor } else x) =
      v.attempts.find? fun a => decide (a.state = .awaitingSettlement) := by
    refine List.find?_congr fun x hx => ?_
    simp only [Function.comp]
    split
    · rename_i hseq
      rw [hsame x hx hseq, hwait]
    · rfl
  rw [hpred, ho, Option.map_some, if_pos rfl]
  rw [← hwait]

omit [Connector] in
theorem transition_takes {v : Statement} (ht : takesRepayment v = true) :
    transition v.state .receiptVerified = some .repaymentObserved := by
  unfold takesRepayment at ht
  cases hstate : v.state with
  | closed => rfl
  | repaymentMismatch => rfl
  | _ =>
    rw [hstate] at ht
    cases ht

/-- What the check of an attempt does with the answer of its scan. -/
def answered (key : String) (a : Attempt) : Scan → M Outcome
  | .unavailable => .fail rpcDown
  | .pending advance => do
    moveCursor key a advance
    .ret .pending
  | .found found _ =>
    match check found a.amountBaseUnits a.mint a.recipientTokenAccount with
    | .error fields => settleMismatch key a.seq (dedup (found.map Prod.fst)) fields
    | .ok (signature, _) => do
      if ← claimSettlements key signature then settleVerified key a.seq signature
      else settleMismatch key a.seq (dedup (found.map Prod.fst)) ["reference"]

/-- The open attempt of a paid statement that still takes a repayment. -/
theorem OnTrack.openAttempt {v₀ v : Statement} {a : Attempt} (ho : OnTrack h v₀ a v)
    (hk : Kin h v₀ v) (hg : Good v₀) (hp : Paid h v₀ a) (ht : takesRepayment v = true) :
    ∃ x, v.openAttempt = some x ∧ a.Follows h x := by
  have hseq : a.seq ∈ v.attempts.map Attempt.seq := by
    rw [hk.seqs]
    exact List.mem_map_of_mem hp.mem
  obtain ⟨y, hy, hya⟩ := List.mem_map.mp hseq
  have hwait := (ho.waiting ht).2 y hy hya
  cases hopen : v.openAttempt with
  | none =>
    have hnone := List.find?_eq_none.mp hopen y hy
    exact absurd (decide_eq_true hwait) hnone
  | some x =>
    obtain ⟨c, hc, hfollows⟩ := hk.attempts x (List.mem_of_find?_eq_some hopen)
    have hca : c = a := hp.unique hg hc (hfollows.waits (openAttempt_waits hopen))
    exact ⟨x, rfl, hca ▸ hfollows⟩

/-- What a pass starts from: a row that takes a repayment, and its open attempt. -/
structure Start (s : Store) (key : String) (row : Row Statement) (x : Attempt) : Prop where
  stored : s.statements.lookup key = some row
  ids : (row.value.attempts.map Attempt.seq).Nodup
  opened : row.value.openAttempt = some x
  current : Current row.value x
  takes : takesRepayment row.value = true

section Pass

variable {x : Attempt} {s' : Store} {o : Outcome}

/-- The pass up to the answer of its scan. -/
theorem alone_cron (hserve : Serving h e) (hn : (signaturesOf h).Nodup)
    (hs : Start s key row x)
    (hend : (answered key x (scanned x.clientRefId (newer h x.partnerCursor))).alone perform e s =
      (s', .ok o)) : ((handle paysInto (.cron key)).alone perform e s).1 = s' := by
  have hmem : x ∈ row.value.attempts := List.mem_of_find?_eq_some hs.opened
  have hcheck : (checkAttempt key row.value x.seq).alone perform e s = (s', .ok o) := by
    unfold checkAttempt
    rw [attempt_of_mem hs.ids hmem]
    simp only [openAttempt_waits hs.opened, ne_eq, not_true_eq_false, if_false,
      hs.current.reference]
    rw [Call.alone_bind (alone_expectations hs.current)]
    simp only
    rw [Call.alone_bind (alone_scan hserve hn)]
    exact hend
  have hcron : (advanceOpenAttempt key).alone perform e s = (s', .ok (some o)) := by
    unfold advanceOpenAttempt
    rw [Call.alone_bind (alone_getStatement hserve), hs.stored]
    simp only [hs.opened, hs.takes, if_true]
    exact Call.alone_bind hcheck
  exact congrArg Prod.fst (Call.alone_bind (f := fun _ => Call.ret ()) hcron)

variable (paysInto) in
/-- Without the reference in its window, the pass moves the cursor. -/
theorem pass_moves (hserve : Serving h e) (hn : (signaturesOf h).Nodup) (hs : Start s key row x)
    (hne : listing (newer h x.partnerCursor) ≠ [])
    (hf : (reading x.clientRefId (newer h x.partnerCursor)).found = []) :
    ∃ row', ((handle paysInto (.cron key)).alone perform e s).1.statements.lookup key =
      some row' ∧ left h row'.value < left h row.value := by
  obtain ⟨next, hadv⟩ := reading_advances x.clientRefId hne
  have hnext : next ∈ signaturesOf (newer h x.partnerCursor) :=
    (reading_skips hn List.prefix_rfl hf hadv).2
  have hcursor : x.partnerCursor ≠ some next := by
    intro heq
    rw [heq] at hnext
    have hin : next ∈ signaturesOf h :=
      ((newer_suffix h (some next)).map Landed.signature).subset hnext
    exact not_mem_newer hn hin hnext
  have hscan : scanned x.clientRefId (newer h x.partnerCursor) = .pending (some next) := by
    simp only [scanned, Reading.answer, hf, hadv, if_true]
  rw [alone_cron hserve hn hs (o := .pending) (by
    rw [hscan]
    simp only [answered, moveCursor, if_neg hcursor]
    exact Call.alone_bind (alone_updateAttempt hserve hs.stored 4))]
  refine ⟨_, AList.lookup_insert _, ?_⟩
  have hopen := openAttempt_moved (some next) hs.ids hs.opened
  have hlt := newer_lt (newer_nodup hn) hnext
  rw [← newer_of_suffix hn (newer_suffix _ _) hnext] at hlt
  simp only [left, hopen, hs.opened]
  exact hlt

variable (paysInto) in
/-- With an exact payout in its window, the pass settles the statement. -/
theorem pass_settles {signature : String} {amount : Nat} (hserve : Serving h e)
    (hn : (signaturesOf h).Nodup) (hs : Start s key row x)
    (hf : (reading x.clientRefId (newer h x.partnerCursor)).found ≠ [])
    (hok : check (reading x.clientRefId (newer h x.partnerCursor)).found x.amountBaseUnits x.mint
      x.recipientTokenAccount = .ok (signature, amount))
    (hclaims : (s.claims.lookup signature).getD key = key) :
    ∃ row', ((handle paysInto (.cron key)).alone perform e s).1.statements.lookup key =
      some row' ∧ row'.value.repaid := by
  have hrow : (s.claim signature key).statements.lookup key = some row := by
    unfold Store.claim
    split
    · exact hs.stored
    · exact hs.stored
  have hscan : scanned x.clientRefId (newer h x.partnerCursor) =
      .found (reading x.clientRefId (newer h x.partnerCursor)).found
        (reading x.clientRefId (newer h x.partnerCursor)).slot := by
    simp only [scanned, Reading.answer, if_neg hf]
  have hverify := alone_applyEvent hserve hrow (some x.seq) (recordVerified x.seq signature)
    (transition_takes hs.takes) 4
  rw [alone_cron hserve hn hs (by
    rw [hscan]
    simp only [answered, hok]
    rw [Call.alone_bind (alone_claimSettlements hserve hclaims)]
    simp only [if_true]
    exact Call.alone_bind hverify)]
  exact ⟨_, AList.lookup_insert _, rfl⟩

end Pass

variable (paysInto) in
/-- **Progress.** A pass that nobody disturbs settles the statement or leaves less to read. -/
theorem pass_progress {row₀ : Row Statement} {a : Attempt} (ho : Opening h s₀)
    (hone : OneByOne h s₀) (hserve : Serving h e) (hb : Books h s₀ s)
    (hrow₀ : s₀.statements.lookup key = some row₀) (hp : Paid h row₀.value a)
    (hrow : s.statements.lookup key = some row) (hclear : ClearWindow h a row.value)
    (htakes : takesRepayment row.value = true) :
    ∃ row', ((handle paysInto (.cron key)).alone perform e s).1.statements.lookup key =
      some row' ∧ (row'.value.repaid ∨ left h row'.value < left h row.value) := by
  have hn := ho.finalized
  have hgood := ho.good key row₀ hrow₀
  obtain ⟨r, hr, htrack⟩ := hb.track key row₀ a hrow₀ hp
  cases hr.symm.trans hrow
  obtain ⟨r₀, hr₀, hkin⟩ := hb.kin key row hrow
  cases hr₀.symm.trans hrow₀
  obtain ⟨x, hopen, hfollows⟩ := OnTrack.openAttempt htrack hkin hgood hp htakes
  have hs : Start s key row x :=
    ⟨hrow, hkin.nodup hgood, hopen, hp.current.of_follows hkin hfollows, htakes⟩
  have hwindow := hclear htakes x (List.mem_of_find?_eq_some hopen) (openAttempt_waits hopen)
  rw [← hfollows.reference] at hwindow
  by_cases hf : (reading x.clientRefId (newer h x.partnerCursor)).found = []
  · -- the exact payout is listed, after this window
    have hne : listing (newer h x.partnerCursor) ≠ [] := by
      intro hnil
      obtain ⟨first, amount, hlisted⟩ := hone.listed key row₀ a hrow₀ hp
      rw [hfollows.skipped.payouts_eq] at hlisted
      obtain ⟨_, hmem, -⟩ := check_ok hlisted
      rw [listedPayouts, hnil] at hmem
      cases hmem
    obtain ⟨row', hrow', hlt⟩ := pass_moves paysInto hserve hn hs hne hf
    exact ⟨row', hrow', .inr hlt⟩
  · -- the window holds the reference, so it holds the exact payout
    obtain ⟨sig, amount, hok⟩ := hwindow.check hf
    rw [← hfollows.check_eq] at hok
    have hset : a.settles h sig :=
      hfollows.settles.mp ⟨amount, check_of_prefix (reading_found List.prefix_rfl) hok⟩
    have hclaims : (s.claims.lookup sig).getD key = key := by
      cases hc : s.claims.lookup sig with
      | none => rfl
      | some owner =>
        exact hb.owner hone hrow₀ ⟨hp.takes, a, hp.mem, hp.waits, hset⟩ hc
    obtain ⟨row', hrow', hrep⟩ := pass_settles paysInto hserve hn hs hf hok hclaims
    exact ⟨row', hrow', .inl hrep⟩

end Alone

end Credits

/-! ## Matching -/

section Matching

variable [Connector]

/-- Only checks, with replies from the history. -/
def Polls (h : History) : Act Env Request Ext → Prop
  | .start (.prepare _) _ => False
  | .start _ _ => True
  | .go _ e _ => Replies h e
  | .outside _ => False

variable (paysInto : Bytes → String → Option String)

/-- What is promised after any run of checks from the store `s`. -/
structure Matched (h : History) (s : Store)
    (w : Pool Store Op Op.Ans CardsError Unit (Option String)) : Prop where
  once : ∀ key₁ row₁ key₂ row₂ signature, w.store.statements.lookup key₁ = some row₁ →
    w.store.statements.lookup key₂ = some row₂ → row₁.value.settledBy signature →
    row₂.value.settledBy signature → key₁ = key₂
  unmarked : ∀ key row₀ a, s.statements.lookup key = some row₀ → Paid h row₀.value a →
    ∃ row, w.store.statements.lookup key = some row ∧
      (row.value.state = .repaymentMismatch → row₀.value.state = .repaymentMismatch) ∧
      ∀ x ∈ row.value.attempts, x.seq = a.seq → x.state ≠ .mismatch
  verified : ∀ key row₀ a, s.statements.lookup key = some row₀ → Paid h row₀.value a →
    ∀ e, Serving h e → ∀ n, h.length < n →
    ∃ row signature,
      (((watched paysInto).solo e (.cron key))^[n] w).store.statements.lookup key = some row ∧
      row.value.settledBy signature ∧ ∃ x ∈ h, x.signature = signature ∧ a.paidIn x

/-- No scan reads a payout with the reference of a paid statement without the exact one: in the
run, and in the passes over the statement that follow it. -/
structure ClearRun (h : History) (s : Store) (as : List (Act Env Request Ext)) : Prop where
  during : (watched paysInto).Kept (clearing h s) (.init s) as
  after : ∀ key row₀ a, s.statements.lookup key = some row₀ → Paid h row₀.value a →
    ∀ e, Serving h e → ∀ n row, (((watched paysInto).solo e (.cron key))^[n]
      ((watched paysInto).run (.init s) as)).store.statements.lookup key = some row →
    ClearWindow h a row.value

variable {paysInto} {h : History} {s₀ : Store}

theorem kept_of_polls {as : List (Act Env Request Ext)} (hpolls : ∀ a ∈ as, Polls h a)
    (w : Pool Store Op Op.Ans CardsError Unit (Option String)) :
    (watched paysInto).Kept (polling h) w as := by
  induction as generalizing w with
  | nil => trivial
  | cons a as ih =>
    refine ⟨?_, ih (fun x hx => hpolls x (List.mem_cons_of_mem _ hx)) _⟩
    have ha := hpolls a (List.mem_cons_self ..)
    cases a with
    | start r t =>
      rintro key rfl
      exact ha
    | outside x => exact ha
    | go i e t =>
      simp only [System.Meets]
      split
      · exact ha
      · trivial

/-- An undisturbed pass with a clear window keeps to the terms. -/
theorem solo_kept {e : Env} (hserve : Serving h e) {key : String}
    {w : Pool Store Op Op.Ans CardsError Unit (Option String)}
    (hclear : ∀ row₀ a row, s₀.statements.lookup key = some row₀ → Paid h row₀.value a →
      w.store.statements.lookup key = some row → ClearWindow h a row.value) (n : Nat) :
    (watched paysInto).Kept ((polling h).and (clearing h s₀)) w
      (.start (.cron key) (fun _ => 0) ::
        List.replicate n (.go w.threads.length e fun _ => 0)) := by
  have hserved : ∀ ys x zs, ∀ cursor, listing (newer h cursor) = ys ++ x :: zs →
      e.transaction x.signature ≠ some none := by
    intro ys x zs cursor hys hreply
    have hx : x ∈ h := mem_newer ((listing_suffix _).subset (hys ▸ List.mem_append_right _
      List.mem_cons_self))
    cases (hserve.transaction x hx).symm.trans hreply
  have hlater : ∀ g s o, g = some key → ClearReads h s₀ g s o e := by
    rintro g s o rfl
    refine ⟨?_, ?_⟩
    · intro _ _ _ _ _ _ hnone
      cases hnone
    · intro _ _ _ _ _ _ _ _ _ ys x zs hys _ hreply
      exact absurd hreply (hserved ys x zs _ hys)
  refine ⟨⟨fun _ => Request.noConfusion, trivial⟩, ?_⟩
  cases n with
  | zero => trivial
  | succ n =>
    obtain ⟨k, hk⟩ : ∃ k, handle paysInto (.cron key) = .await (.getStatement key) k := ⟨_, rfl⟩
    have hth : ((watched paysInto).step w (.start (.cron key) fun _ => 0)).threads[
        w.threads.length]? = some ⟨.await (.getStatement key) k, w.store, none⟩ := by
      rw [← hk]
      exact List.getElem?_concat_length
    refine ⟨?_, System.kept_replicate (P := fun g => g = some key) ?_ ?_ ?_⟩
    · simp only [System.Meets, hth]
      refine ⟨hserve.replies, ⟨?_, ?_⟩⟩
      · rintro k row₀ a row hrow₀ hp - hop hrow
        cases hop
        exact hclear row₀ a row hrow₀ hp hrow
      · intro _ _ _ _ _ _ hnone
        cases hnone
    · rintro o g rfl
      exact noteRead_some o key
    · exact fun _ g s o hg => ⟨hserve.replies, hlater g s o hg⟩
    · intro th hnow
      cases (System.step_go hth).symm.trans hnow
      rfl

theorem solo_sound (ho : Opening h s₀) (hone : OneByOne h s₀) {e : Env} (hserve : Serving h e)
    {key : String} {w : Pool Store Op Op.Ans CardsError Unit (Option String)}
    (hs : (Credits.booked h s₀ paysInto).Sound anything w)
    (hclear : ∀ row₀ a row, s₀.statements.lookup key = some row₀ → Paid h row₀.value a →
      w.store.statements.lookup key = some row → ClearWindow h a row.value) :
    (Credits.booked h s₀ paysInto).Sound anything ((watched paysInto).solo e (.cron key) w) ∧
      Credits.Later w.store ((watched paysInto).solo e (.cron key) w).store :=
  Discipline.run_sound (Credits.booked_rules paysInto ho hone) hs (solo_kept hserve hclear _)

/-- Every undisturbed pass leaves less to read, until the statement is repaid. -/
theorem solo_repaid (ho : Opening h s₀) (hone : OneByOne h s₀) {e : Env} (hserve : Serving h e)
    {key : String} {row₀ : Row Statement} {a : Attempt}
    (hrow₀ : s₀.statements.lookup key = some row₀) (hp : Paid h row₀.value a)
    {w : Pool Store Op Op.Ans CardsError Unit (Option String)}
    (hs : (Credits.booked h s₀ paysInto).Sound anything w)
    (hclear : ∀ n row, (((watched paysInto).solo e (.cron key))^[n] w).store.statements.lookup key
      = some row → ClearWindow h a row.value) (n : Nat) :
    (Credits.booked h s₀ paysInto).Sound anything
        (((watched paysInto).solo e (.cron key))^[n] w) ∧
      ∃ row, (((watched paysInto).solo e (.cron key))^[n] w).store.statements.lookup key =
        some row ∧ (row.value.repaid ∨ Credits.left h row.value + n ≤ h.length) := by
  induction n with
  | zero =>
    obtain ⟨row, hrow, -⟩ := hs.inv.track key row₀ a hrow₀ hp
    exact ⟨hs, row, hrow, .inr (Credits.left_le row.value)⟩
  | succ n ih =>
    obtain ⟨hsn, row, hrow, hcase⟩ := ih
    have hwindow := hclear n row hrow
    rw [Function.iterate_succ_apply']
    have hpaid : ∀ r₀ b r, s₀.statements.lookup key = some r₀ → Paid h r₀.value b →
        (((watched paysInto).solo e (.cron key))^[n] w).store.statements.lookup key = some r →
        ClearWindow h b r.value := by
      intro r₀ b r hr₀ hb hr
      cases hrow₀.symm.trans hr₀
      cases hrow.symm.trans hr
      rw [hp.unique (ho.good key row₀ hrow₀) hb.mem hb.waits]
      exact hwindow
    obtain ⟨hsound, hlater⟩ := solo_sound ho hone hserve hsn hpaid
    refine ⟨hsound, ?_⟩
    cases htakes : takesRepayment row.value with
    | false =>
      obtain ⟨row', hrow', -, hrep⟩ := hlater.rows key row hrow
      exact ⟨row', hrow', .inl (hrep htakes)⟩
    | true =>
      obtain ⟨row', hrow', hprog⟩ :=
        Credits.pass_progress paysInto ho hone hserve hsn.inv hrow₀ hp hrow hwindow htakes
      rw [System.solo_store]
      refine ⟨row', hrow', hprog.imp id fun hlt => ?_⟩
      rcases hcase with hrep | hle
      · cases hrep.symm.trans htakes
      · omega

/-- A history whose windows are clear from every cursor, and replies that cut no window between a
payout with the reference and the exact one. -/
theorem kept_of_clear {as : List (Act Env Request Ext)}
    (hwindow : ∀ key row₀ a v, s₀.statements.lookup key = some row₀ → Paid h row₀.value a →
      ClearWindow h a v)
    (hserved : ∀ i e t, .go i e t ∈ as → ∀ key row₀ a, s₀.statements.lookup key = some row₀ →
      Paid h row₀.value a → ∀ ys x zs, listing (newer h a.partnerCursor) = ys ++ x :: zs →
      e.transaction x.signature = some none → a.Clear (payouts a.clientRefId ys))
    (w : Pool Store Op Op.Ans CardsError Unit (Option String)) :
    (watched paysInto).Kept (clearing h s₀) w as := by
  induction as generalizing w with
  | nil => trivial
  | cons a as ih =>
    refine ⟨?_, ih (fun i e t hmem => hserved i e t (List.mem_cons_of_mem _ hmem)) _⟩
    cases a with
    | start r t => trivial
    | outside x => trivial
    | go i e t =>
      simp only [System.Meets]
      split
      · refine ⟨fun key row₀ a row hrow₀ hp _ _ _ => hwindow key row₀ a row.value hrow₀ hp, ?_⟩
        intro key row₀ a _ hrow₀ hp _ _ _ ys x zs hys _ hreply
        exact hserved i e t List.mem_cons_self key row₀ a hrow₀ hp ys x zs hys hreply
      · trivial

/-- **One to one.** -/
theorem payouts_match_statements {s : Store} (ho : Opening h s) (hone : OneByOne h s)
    (as : List (Act Env Request Ext)) (hpolls : ∀ a ∈ as, Polls h a)
    (hclear : ClearRun paysInto h s as) :
    Matched paysInto h s ((watched paysInto).run (.init s) as) := by
  have hkept := System.kept_and (kept_of_polls hpolls (.init s)) hclear.during
  have hsound := (Discipline.run_sound (Credits.booked_rules paysInto ho hone)
    (Discipline.init_sound (D := Credits.booked h s paysInto) (Credits.Books.init ho)) hkept).1
  refine ⟨?_, ?_, ?_⟩
  · intro key₁ row₁ key₂ row₂ sig hrow₁ hrow₂ hset₁ hset₂
    have hclaim₁ := hsound.inv.credited key₁ row₁ sig hrow₁ hset₁
    have hclaim₂ := hsound.inv.credited key₂ row₂ sig hrow₂ hset₂
    exact Option.some.inj (hclaim₁.symm.trans hclaim₂)
  · intro key row₀ a hrow₀ hp
    obtain ⟨row, hrow, htrack⟩ := hsound.inv.track key row₀ a hrow₀ hp
    refine ⟨row, hrow, fun hm => ?_, htrack.unmarked⟩
    rcases htrack.way with ⟨_, ⟨hrep, -⟩, -⟩ | ⟨hsame, -⟩
    · exact absurd hrep (not_repaid (.inr hm))
    · rw [← hsame, hm]
  · intro key row₀ a hrow₀ hp e hserve n hlt
    obtain ⟨hs, row, hrow, hcase⟩ := solo_repaid ho hone hserve hrow₀ hp hsound
      (hclear.after key row₀ a hrow₀ hp e hserve) n
    have hrep := hcase.resolve_right (by omega)
    obtain ⟨row', hrow', htrack⟩ := hs.inv.track key row₀ a hrow₀ hp
    cases hrow'.symm.trans hrow
    rcases htrack.way with ⟨sig, hset, hsettles⟩ | ⟨hsame, -⟩
    · obtain ⟨x, hx, hsig, hpaid⟩ := Attempt.settles_paid hsettles
      exact ⟨row, sig, hrow, hset, x, mem_newer hx, hsig, hpaid⟩
    · cases hrep.symm.trans ((takes_congr hsame).trans hp.takes)

end Matching

/-! ## A batch -/

namespace Sample

/-- One crank instruction that executes several queued payouts to the partner. -/
def batch (payouts : List (String × String)) : Tx where
  failed := false
  logMessages := some (
    ["Program Crank1111111111111111111111111111111111111 invoke [1]"] ++
    (payouts.flatMap fun (reference, _) =>
      [ "Program SPLxh1LVZzEkX99H6rqYizhytLWPZVV296zyYDPagv2 invoke [2]",
        "Program log: Instruction: ExecuteReadyQueuedTransfer",
        "Program log: client_ref_id: " ++ reference,
        "Program TokenkegQfeZyiNwAJbNbGKPFXCWuBvf9Ss623VQ5DA invoke [3]",
        "Program TokenkegQfeZyiNwAJbNbGKPFXCWuBvf9Ss623VQ5DA success",
        "Program SPLxh1LVZzEkX99H6rqYizhytLWPZVV296zyYDPagv2 success" ]) ++
    ["Program Crank1111111111111111111111111111111111111 success"])
  innerInstructions := [⟨0, payouts.flatMap fun (_, amount) =>
    [ ⟨EPHEMERAL_SPL_PROGRAM, "", {}⟩,
      ⟨SPL_TOKEN_PROGRAM, "transferChecked",
        { tokenAmount := some amount
          mint := "usdc"
          source := "vaultTokens"
          destination := "partner"
          authority := "vault" }⟩ ]⟩]

/-- An attempt opened after `sig0`. -/
def waiting (reference : String) : Attempt where
  seq := 1
  state := .awaitingSettlement
  clientRefId := reference
  partnerCursor := some "sig0"
  mint := "usdc"
  decimals := 6
  amountBaseUnits := 100000000
  recipientTokenAccount := "partner"

def due (reference : String) : Row Statement :=
  ⟨1, ⟨.closed, 10000, "digest " ++ reference, none, [waiting reference]⟩, 0⟩

def landed (signature : String) (tx : Tx) : Landed := ⟨⟨signature, 1, true⟩, tx⟩

/-- Both statements are paid exactly, out of one transaction. -/
def batched : History := [landed "sig1" (batch [("41", "100000000"), ("42", "100000000")])]

def twoStatements : Store where
  statements := AList.insert "s1" (due "41") (AList.insert "s2" (due "42") ∅)

def pass (h : History) (i : Nat) (key : String) : List (Act Env Request Ext) :=
  .start (.cron key) (fun _ => 0) :: List.replicate 6 (.go i (serve h) fun _ => 0)

theorem due_good (reference : String) : Good (due reference).value where
  ids := rfl
  one := by
    intro a ha a' ha' _ _
    rw [List.mem_singleton.mp ha, List.mem_singleton.mp ha']
  unapplied := by
    intro a ha hs
    rw [List.mem_singleton.mp ha] at hs
    cases hs
  fresh := fun _ => rfl
  settled := by
    intro r hr
    cases hr

/-- Statements that take a repayment, and no claims. -/
theorem opening_of_open {h : History} (hn : (signaturesOf h).Nodup)
    {statements : Table String (Row Statement)}
    (hopen : ∀ key row, statements.lookup key = some row →
      Good row.value ∧ takesRepayment row.value = true) :
    Opening h { statements := statements } where
  finalized := hn
  good := fun key row hrow => (hopen key row hrow).1
  credited := by
    rintro key row signature hrow ⟨hrep, -⟩
    cases hrep.symm.trans (hopen key row hrow).2

theorem pass_polls {h : History} (hn : (signaturesOf h).Nodup) (i : Nat) (key : String) :
    ∀ a ∈ pass h i key, Polls h a := by
  intro a ha
  rcases List.mem_cons.mp ha with rfl | ha
  · trivial
  · rw [List.eq_of_mem_replicate ha]
    exact (serve_serving hn).replies

theorem current_due {reference : String} (hr : reference ≠ "") :
    Current (due reference).value (waiting reference) where
  reference := hr
  partner := rfl
  mint := rfl
  due := by
    change 10000 ≠ 0
    decide
  amount := by
    change baseUnits 10000 6 = some 100000000
    decide

/-- An attempt was closed as mismatched, and the next one is open. -/
def late : Row Statement :=
  ⟨1, ⟨.repaymentMismatch, 10000, "digest 42", some (mismatchRepayment 1 ["sig9"] ["amount"]),
    [ { waiting "40" with state := .mismatch }, { waiting "42" with seq := 2 } ]⟩, 0⟩

/-- Somebody else's payout carries the first reference before the exact one. -/
def crowded : History :=
  [ landed "sig1" (batch [("41", "1")]), landed "sig2" (batch [("7", "5"), ("8", "5")]),
    landed "sig3" (batch [("7", "5"), ("41", "100000000")]),
    landed "sig4" (batch [("42", "100000000")]) ]

def dueAndLate : Store where
  statements := AList.insert "s1" (due "41") (AList.insert "s2" late ∅)

/-- The oldest transaction is listed, but not served yet. -/
def unserved : Env :=
  { serve crowded with
    transaction := fun signature =>
      if signature = "sig1" then some none else (serve crowded).transaction signature }

/-- A cron pass that is cut short, the owner's check of the other statement in between, and a
second cron pass. -/
def interleaved : List (Act Env Request Ext) :=
  [ .start (.cron "s1") fun _ => 0, .start (.submit "s2" 2) fun _ => 0,
    .go 0 unserved fun _ => 0, .go 1 (serve crowded) fun _ => 0,
    .go 0 unserved fun _ => 0, .go 1 (serve crowded) fun _ => 0,
    .go 0 unserved fun _ => 0 ] ++
  List.replicate 7 (.go 1 (serve crowded) fun _ => 0) ++
  .start (.cron "s1") (fun _ => 0) :: List.replicate 9 (.go 2 (serve crowded) fun _ => 0)

theorem dueAndLate_row {key : String} {row : Row Statement}
    (h : dueAndLate.statements.lookup key = some row) :
    key = "s1" ∧ row = due "41" ∨ key = "s2" ∧ row = late := by
  refine forall_lookup_insert (P := fun k r => k = "s1" ∧ r = due "41" ∨ k = "s2" ∧ r = late)
    (forall_lookup_insert ?_ (.inr ⟨rfl, rfl⟩)) (.inl ⟨rfl, rfl⟩) key row h
  rintro k r ⟨⟩

theorem late_good : Good late.value where
  ids := rfl
  one := by decide
  unapplied := by decide
  fresh := by decide
  settled := by
    intro r hr
    cases hr

/-- The attempts that are open in the store. -/
def openAttempts : List Attempt := [waiting "41", { waiting "42" with seq := 2 }]

theorem mem_openAttempts {key : String} {row : Row Statement} {a : Attempt}
    (hrow : dueAndLate.statements.lookup key = some row) (ha : a ∈ row.value.attempts)
    (hwait : a.state = .awaitingSettlement) : a ∈ openAttempts := by
  rcases dueAndLate_row hrow with ⟨-, rfl⟩ | ⟨-, rfl⟩
  · rw [List.mem_singleton.mp ha]
    exact List.mem_cons_self
  · rcases List.mem_pair.mp ha with rfl | rfl
    · cases hwait
    · exact List.mem_cons_of_mem _ List.mem_cons_self

/-- From every cursor, a window of this history is clear. -/
theorem crowded_clear : ∀ a ∈ openAttempts, ∀ es ∈ crowded.tails,
    a.Clear (reading a.clientRefId es).found := by
  decide +kernel

theorem crowded_listed : listedPayouts crowded "41" (some "sig0") =
      [ ("sig1", ⟨"41", "vaultTokens", "partner", "vault", "usdc", 1⟩),
        ("sig3", ⟨"41", "vaultTokens", "partner", "vault", "usdc", 100000000⟩) ] ∧
    listedPayouts crowded "42" (some "sig0") =
      [ ("sig4", ⟨"42", "vaultTokens", "partner", "vault", "usdc", 100000000⟩) ] := by
  decide +kernel

theorem due_settles {signature : String} :
    (waiting "41").settles crowded signature ↔ signature = "sig3" := by
  have hcheck : check (listedPayouts crowded "41" (some "sig0")) 100000000 "usdc" "partner" =
      .ok ("sig3", 100000000) := by
    rw [crowded_listed.1]
    rfl
  exact Attempt.settles_iff hcheck

theorem late_settles {signature : String} :
    ({ waiting "42" with seq := 2 } : Attempt).settles crowded signature ↔ signature = "sig4" := by
  have hcheck : check (listedPayouts crowded "42" (some "sig0")) 100000000 "usdc" "partner" =
      .ok ("sig4", 100000000) := by
    rw [crowded_listed.2]
    rfl
  exact Attempt.settles_iff hcheck

theorem dueAndLate_awaits {key signature : String} {row : Row Statement}
    (hrow : dueAndLate.statements.lookup key = some row)
    (hawaits : row.value.awaitsIn crowded signature) :
    key = "s1" ∧ signature = "sig3" ∨ key = "s2" ∧ signature = "sig4" := by
  obtain ⟨-, a, ha, hwait, hset⟩ := hawaits
  rcases dueAndLate_row hrow with ⟨rfl, rfl⟩ | ⟨rfl, rfl⟩
  · rw [List.mem_singleton.mp ha] at hset
    exact .inl ⟨rfl, due_settles.mp hset⟩
  · rcases List.mem_pair.mp ha with rfl | rfl
    · cases hwait
    · exact .inr ⟨rfl, late_settles.mp hset⟩

theorem dueAndLate_oneByOne : OneByOne crowded dueAndLate where
  apart := by
    intro key₁ row₁ key₂ row₂ signature h₁ h₂ ha₁ ha₂
    rcases dueAndLate_awaits h₁ ha₁ with ⟨rfl, rfl⟩ | ⟨rfl, rfl⟩
    · rcases dueAndLate_awaits h₂ ha₂ with ⟨rfl, -⟩ | ⟨-, hsig⟩
      · rfl
      · exact absurd hsig (by decide)
    · rcases dueAndLate_awaits h₂ ha₂ with ⟨-, hsig⟩ | ⟨rfl, -⟩
      · exact absurd hsig (by decide)
      · rfl
  unclaimed := by
    intro key row signature owner _ _ hc
    cases hc
  listed := by
    intro key row a hrow hp
    rcases List.mem_pair.mp (mem_openAttempts hrow hp.mem hp.waits) with rfl | rfl
    · exact ⟨"sig3", due_settles.mpr rfl⟩
    · exact ⟨"sig4", late_settles.mpr rfl⟩

/-- Nothing is listed before the oldest transaction. -/
theorem unserved_clear {a : Attempt} (ha : a ∈ openAttempts) {ys zs : History} {x : Landed}
    (hys : listing (newer crowded a.partnerCursor) = ys ++ x :: zs)
    (hreply : unserved.transaction x.signature = some none) :
    a.Clear (payouts a.clientRefId ys) := by
  have hall : listing (newer crowded a.partnerCursor) = crowded := by
    rcases List.mem_pair.mp ha with rfl | rfl
    all_goals rfl
  rw [hall] at hys
  cases ys with
  | nil => exact .inl rfl
  | cons y ys =>
    have hx : x ∈ crowded.tail := by
      rw [hys]
      exact List.mem_append_right _ List.mem_cons_self
    have hserved : ∀ x ∈ crowded.tail, unserved.transaction x.signature ≠ some none := by
      decide +kernel
    exact absurd hreply (hserved x hx)

theorem crowded_nodup : (signaturesOf crowded).Nodup := by decide

theorem mem_interleaved {a : Act Env Request Ext} (ha : a ∈ interleaved) :
    (∃ key t, a = .start (.cron key) t) ∨ (∃ key id t, a = .start (.submit key id) t) ∨
      ∃ i e t, a = .go i e t ∧ (e = unserved ∨ e = serve crowded) := by
  simp only [interleaved, List.mem_append, List.mem_cons, List.mem_replicate,
    List.not_mem_nil, or_false] at ha
  rcases ha with ((rfl | rfl | rfl | rfl | rfl | rfl | rfl) | ⟨-, rfl⟩) | rfl | ⟨-, rfl⟩
  · exact .inl ⟨_, _, rfl⟩
  · exact .inr (.inl ⟨_, _, _, rfl⟩)
  · exact .inr (.inr ⟨_, _, _, rfl, .inl rfl⟩)
  · exact .inr (.inr ⟨_, _, _, rfl, .inr rfl⟩)
  · exact .inr (.inr ⟨_, _, _, rfl, .inl rfl⟩)
  · exact .inr (.inr ⟨_, _, _, rfl, .inr rfl⟩)
  · exact .inr (.inr ⟨_, _, _, rfl, .inl rfl⟩)
  · exact .inr (.inr ⟨_, _, _, rfl, .inr rfl⟩)
  · exact .inl ⟨_, _, rfl⟩
  · exact .inr (.inr ⟨_, _, _, rfl, .inr rfl⟩)

theorem go_interleaved {i : Nat} {e : Env} {t : Nat → Nat} (h : .go i e t ∈ interleaved) :
    e = unserved ∨ e = serve crowded := by
  rcases mem_interleaved h with ⟨_, _, h⟩ | ⟨_, _, _, h⟩ | ⟨_, _, _, h, he⟩
  · cases h
  · cases h
  · cases h
    exact he

theorem interleaved_polls : ∀ a ∈ interleaved, Polls crowded a := by
  have hserve := (serve_serving crowded_nodup).replies
  have hunserved : Replies crowded unserved := by
    refine ⟨hserve.signatures, fun x hx => ?_⟩
    by_cases hsig : x.signature = "sig1"
    · exact .inr (.inl (if_pos hsig))
    · change (if x.signature = "sig1" then some none else _) = _ ∨ _
      rw [if_neg hsig]
      exact .inl ((serve_serving crowded_nodup).transaction x hx)
  intro a ha
  rcases mem_interleaved ha with ⟨key, t, rfl⟩ | ⟨key, id, t, rfl⟩ | ⟨i, e, t, rfl, rfl | rfl⟩
  · trivial
  · trivial
  · exact hunserved
  · exact hserve

theorem crowded_window {key : String} {row₀ : Row Statement} {a : Attempt} {v : Statement}
    (hrow₀ : dueAndLate.statements.lookup key = some row₀) (hp : Paid crowded row₀.value a) :
    ClearWindow crowded a v :=
  fun _ x _ _ => crowded_clear a (mem_openAttempts hrow₀ hp.mem hp.waits) _
    ((List.mem_tails _ _).mpr (newer_suffix crowded x.partnerCursor))

end Sample
open Sample in
theorem payouts_match_statements_crowded :
    Opening crowded dueAndLate ∧ OneByOne crowded dueAndLate ∧
      (∀ a ∈ interleaved, Polls crowded a) ∧ ClearRun paysInto crowded dueAndLate interleaved ∧
      Matched paysInto crowded dueAndLate
        ((watched paysInto).run (.init dueAndLate) interleaved) := by
  have hopen : Opening crowded dueAndLate := by
    refine opening_of_open crowded_nodup fun key row hrow => ?_
    rcases dueAndLate_row hrow with ⟨-, rfl⟩ | ⟨-, rfl⟩
    · exact ⟨due_good "41", rfl⟩
    · exact ⟨late_good, rfl⟩
  have hclear : ClearRun paysInto crowded dueAndLate interleaved := by
    refine ⟨kept_of_clear (fun key row₀ a v hrow₀ hp => crowded_window hrow₀ hp) ?_ _,
      fun key row₀ a hrow₀ hp _ _ _ _ _ => crowded_window hrow₀ hp⟩
    intro i e t hmem key row₀ a hrow₀ hp ys x zs hys hreply
    have ha := mem_openAttempts hrow₀ hp.mem hp.waits
    rcases go_interleaved hmem with rfl | rfl
    · exact unserved_clear ha hys hreply
    · have hx : x ∈ crowded := mem_newer ((listing_suffix _).subset (hys ▸
        List.mem_append_right _ List.mem_cons_self))
      cases ((serve_serving crowded_nodup).transaction x hx).symm.trans hreply
  exact ⟨hopen, dueAndLate_oneByOne, interleaved_polls, hclear,
    payouts_match_statements hopen dueAndLate_oneByOne _ interleaved_polls hclear⟩

open Sample in
/-- Two statements are paid exactly in one transaction; the second to be checked is marked as
mismatched. -/
theorem batched_payout_refused :
    ¬ ∀ (h : History) (s : Store) (as : List (Act Env Request Ext)), Opening h s →
      (∀ a ∈ as, Polls h a) → Matched paysInto h s ((watched paysInto).run (.init s) as) := by
  intro hall
  have hn : (signaturesOf batched).Nodup := by decide
  have hopen : Opening batched twoStatements := by
    refine opening_of_open hn (forall_lookup_insert
      (forall_lookup_insert ?_ ⟨due_good "42", rfl⟩) ⟨due_good "41", rfl⟩)
    rintro k r ⟨⟩
  have hpolls : ∀ a ∈ pass batched 0 "s1" ++ pass batched 1 "s2", Polls batched a := by
    intro a ha
    rcases List.mem_append.mp ha with ha | ha
    · exact pass_polls hn 0 "s1" a ha
    · exact pass_polls hn 1 "s2" a ha
  have hpaid : Paid batched (due "42").value (waiting "42") := by
    refine ⟨rfl, rfl, current_due (by decide),
      landed "sig1" (batch [("41", "100000000"), ("42", "100000000")]), by decide +kernel, rfl, ?_⟩
    refine ⟨⟨"42", "vaultTokens", "partner", "vault", "usdc", 100000000⟩, ?_, rfl, rfl⟩
    decide +kernel
  obtain ⟨row, hrow, hstate, -⟩ := (hall batched twoStatements _ hopen hpolls).unmarked "s2"
    (due "42") (waiting "42") (by decide) hpaid
  have hmarked : (((watched paysInto).run (.init twoStatements)
      (pass batched 0 "s1" ++ pass batched 1 "s2")).store.statements.lookup "s2").map
        (fun row => row.value.state) = some .repaymentMismatch := by
    decide +kernel
  rw [hrow] at hmarked
  cases hstate (Option.some.inj hmarked)

end ChainPay.Repay
