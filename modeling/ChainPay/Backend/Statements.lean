import ChainPay.Backend.Ledger

/-!
Exactly-once billing. Every await of a run keeps the rows in order and changes them
only as the other runs allow (`Proc.run_ok`), so the order holds in every
interleaving, and with it everything `BilledOnce` says. A credit is carried over as
a text of at most 16 digits, and the database takes no statement with a larger one.
-/

namespace ChainPay.Backend
open ChainPay.Lib ChainPay.Card

/-! ## Steps -/

section Steps

variable {s : Store} {c : Closing}

theorem refileNext_ok {st : Statement} {todo : List Hash} (hk : Known s c)
    (hr : Refiling s c st todo) : (refileNext c st todo).Ok s := by
  cases todo with
  | nil =>
    refine ⟨hk, ?_⟩
    rintro f hf
    cases hf
    exact ⟨st, rfl, hr⟩
  | cons id rest => exact ⟨hk, hr⟩

theorem refileAll_ok {row : Row StatementRecord} (hk : Known s c)
    (hrow : s.statements.lookup c.seq = some row) : (refileAll c row).Ok s := by
  refine refileNext_ok hk ⟨?_, fun _ h => h, fun _ h => .inl h⟩
  simp only [Store.statement?, hrow, Option.map_some]

theorem statement?_eq_none {k : Nat} (h : s.statements.lookup k = none) :
    s.statement? k = none := by
  simp only [Store.statement?, h, Option.map_none]

/-- The next line is filed, by this run or by another. -/
theorem Refiling.next {st : Statement} {id : Hash} {rest : List Hash}
    (hr : Refiling s c st (id :: rest)) (hfiled : s.FiledUnder id c.seq) :
    Refiling s c st rest where
  stored := hr.stored
  part := fun j hj => hr.part j (List.mem_cons_of_mem id hj)
  rest := by
    intro j hj
    rcases hr.rest j hj with hmem | h
    · rcases List.mem_cons.mp hmem with rfl | hmem
      · exact .inr hfiled
      · exact .inl hmem
    · exact .inr h

/-- A line of a stored statement has its posting. -/
theorem Ledger.line_posted (hl : Ledger s) {k : Nat} {st : Statement} {id : Hash}
    (hst : s.statement? k = some st) (hid : id ∈ st.lineIds) :
    ∃ row, s.postings.lookup id = some row := by
  obtain ⟨l, hmem, rfl⟩ := List.mem_map.mp hid
  obtain ⟨p, hp, -⟩ := hl.booked k st l hst hmem
  obtain ⟨row, hrow, -⟩ := Option.map_eq_some_iff.mp hp
  exact ⟨row, hrow⟩

/-- One more page of a listing: its rows are older than all collected so far. -/
theorem Collected.page {before : Option Nat} {out : List PostingRow} (hc : Collected s out)
    (hfirst : before = none → out = []) (hold : ∀ b ∈ before, ∀ r ∈ out, b ≤ r.2.updated) :
    Collected s (out ++ openPage s before) where
  nodup := by
    rw [List.map_append, List.nodup_append]
    refine ⟨hc.nodup, openPage_nodup s before, ?_⟩
    rintro x hx y hy rfl
    obtain ⟨r, hr, rfl⟩ := List.mem_map.mp hx
    obtain ⟨r', hr', he⟩ := List.mem_map.mp hy
    obtain ⟨hlook', -, hlt⟩ := mem_openPage hr'
    -- one key, one row, so one time of update
    have hrow : r'.2 = r.2 := by
      have hlook := (hc.opened r hr).1
      rw [he, hlook] at hlook'
      exact (Option.some.inj hlook').symm
    cases before with
    | none =>
      rw [hfirst rfl] at hr
      cases hr
    | some b =>
      have h₁ := hold b rfl r hr
      have h₂ := hlt b rfl
      rw [hrow] at h₂
      omega
  opened := by
    intro r hr
    rcases List.mem_append.mp hr with hr | hr
    · exact hc.opened r hr
    · obtain ⟨hlook, hopen, -⟩ := mem_openPage hr
      exact ⟨hlook, hopen⟩

theorem Collected.sorted {rows : List PostingRow} (hc : Collected s rows) :
    Collected s (rows.insertionSort oldestPosted) where
  nodup := ((List.perm_insertionSort oldestPosted rows).map Prod.fst).nodup_iff.mpr hc.nodup
  opened := fun r hr => hc.opened r ((List.mem_insertionSort oldestPosted).mp hr)

theorem Collected.ready {rows : List PostingRow} {cut : Nat} {fee : Option Nat}
    {lines : List Line} {assumed : Bool} (hc : Collected s rows)
    (hlines : linesUpTo cut fee rows = some (lines, assumed)) : Ready s cut lines := by
  obtain ⟨hsub, hall⟩ := linesUpTo_some hlines
  refine ⟨hc.nodup.sublist hsub, fun l hl => ?_⟩
  obtain ⟨r, hr, hid, hbills⟩ := hall l hl
  obtain ⟨hlook, hopen⟩ := hc.opened r hr
  exact ⟨r.2, hid ▸ hlook, hopen, hbills⟩

/-- A full page continues the listing below its oldest row. -/
theorem listing_next {before : Option Nat} {out : List PostingRow} (hc : Collected s out)
    (hfirst : before = none → out = []) (hold : ∀ b ∈ before, ∀ r ∈ out, b ≤ r.2.updated)
    (hfull : (openPage s before).length = PAGE) :
    let before' := (openPage s before).getLast?.map fun r => r.2.updated
    Collected s (out ++ openPage s before) ∧ (before' = none → out ++ openPage s before = []) ∧
      ∀ b ∈ before', ∀ r ∈ out ++ openPage s before, b ≤ r.2.updated := by
  intro before'
  refine ⟨hc.page hfirst hold, ?_, ?_⟩
  · intro hnone
    rw [Option.map_eq_none_iff, List.getLast?_eq_none_iff] at hnone
    rw [hnone] at hfull
    cases hfull
  · intro b hb r hr
    obtain ⟨l, hl, rfl⟩ := Option.map_eq_some_iff.mp hb
    rcases List.mem_append.mp hr with hout | hpage
    · cases before with
      | none =>
        rw [hfirst rfl] at hout
        cases hout
      | some b₀ =>
        have hlast := List.mem_of_getLast? hl
        have h₁ := (mem_openPage hlast).2.2 b₀ rfl
        have h₂ := hold b₀ rfl r hout
        omega
    · exact openPage_last hl hpage

/-- A step keeps the rows in order, changes them as others allow, and leaves the run
where it may rely on what it needs. -/
structure StepOk (s : Store) (r : Store × Proc) : Prop where
  ledger : Ledger r.1
  evolves : Evolves s r.1
  ok : r.2.Ok r.1

theorem StepOk.stay {p : Proc} {pc : Pc} (hl : Ledger s) (h : pc.Ok s) :
    StepOk s (s, p.goto pc) := ⟨hl, Evolves.refl s, h⟩

/-- **Step.** Every await of a run, whatever the clock and the rollup say. -/
theorem Proc.run_ok {p : Proc} (now : Nat) (fee : Option Nat) (hl : Ledger s) (hp : p.Ok s) :
    StepOk s (p.run now fee s) := by
  obtain ⟨goal, pc⟩ := p
  obtain ⟨cardRow, hcard⟩ := Option.isSome_iff_exists.mp hl.card
  change pc.Ok s at hp
  cases pc with
  | reserveRead cut tries =>
    cases tries with
    | zero => exact .stay hl trivial
    | succ tries =>
      simp only [Proc.run, hcard]
      refine .stay hl ?_
      change Newer (some cardRow) s.card
      rw [hcard]
      exact Newer.refl _
  | reserveWrite cut tries row =>
    cases goal with
    | tick => exact .stay hl trivial
    | close kind op =>
      simp only [Proc.run]
      rcases cas_snapshot hp (row.value.reserve kind cut op).1 now with ⟨hcur, hcas⟩ | hcas
      · rw [hcas]
        obtain ⟨hl', he, hk⟩ := hl.reserve hcur kind cut op now
        exact ⟨hl', he, hk⟩
      · rw [hcas]
        exact .stay hl trivial
  | tickRead =>
    simp only [Proc.run, hcard]
    cases hclosing : cardRow.value.closing with
    | none => exact .stay hl trivial
    | some c =>
      refine .stay hl ?_
      have htop : s.top = c.seq := by
        rw [Store.top, Store.billing_eq hcard, Billing.top, hclosing]
      exact ⟨htop ▸ hl.positive, htop.ge⟩
  | finishRead c =>
    simp only [Proc.run, hcard]
    refine .stay hl ⟨hp, ?_⟩
    rcases hl.stored_or_top hp.pos hp.le with hst | ⟨htop, -⟩
    · exact .inl hst
    · have hcar := hl.carried
      rw [Store.billing_eq hcard, ← htop] at hcar
      exact .inr ⟨hcar, trivial⟩
  | getStatement c carried =>
    simp only [Proc.run]
    cases hrow : s.statements.lookup c.seq with
    | some row => exact .stay hl (refileAll_ok hp.1 hrow)
    | none =>
      refine .stay hl ⟨hp.1, ?_⟩
      rcases hp.2 with hst | ⟨hcar, -⟩
      · exact .inl hst
      · refine .inr ⟨hcar, ⟨List.nodup_nil, fun r hr => ?_⟩, fun _ => rfl, fun b hb => ?_⟩
        · cases hr
        · cases hb
  | listing c carried before out =>
    simp only [Proc.run]
    split
    · rename_i hfull
      refine .stay hl ⟨hp.1, ?_⟩
      rcases hp.2 with hst | ⟨hcar, hc, hfirst, hold⟩
      · exact .inl hst
      · exact .inr ⟨hcar, listing_next hc hfirst hold hfull⟩
    · refine .stay hl ⟨hp.1, ?_⟩
      rcases hp.2 with hst | ⟨hcar, hc, hfirst, hold⟩
      · exact .inl hst
      · exact .inr ⟨hcar, (hc.page hfirst hold).sorted⟩
  | readFee c carried out =>
    simp only [Proc.run]
    split
    · exact .stay hl trivial
    · refine .stay hl ⟨hp.1, ?_⟩
      rintro f hf
      cases hf
    · rename_i lines feeAssumed _ hlines
      refine .stay hl ⟨hp.1, ?_⟩
      rcases hp.2 with hst | ⟨hcar, hc⟩
      · exact .inl hst
      · exact .inr ⟨hcar, hc.ready hlines⟩
  | store c carried lines feeAssumed =>
    by_cases hvalid : (totals lines carried).valid
    · simp only [Proc.run, if_pos hvalid]
      rcases put_create s.statements c.seq (statementRecord c lines carried feeAssumed) now with
        ⟨hnone, hput⟩ | ⟨row, hrow, hput⟩
      · rw [hput]
        have hst := statement?_eq_none hnone
        have htop : c.seq = s.top := by
          rcases hl.stored_or_top hp.1.pos hp.1.le with ⟨st, hst'⟩ | ⟨htop, -⟩
          · rw [hst] at hst'
            cases hst'
          · exact htop
        obtain ⟨hcar, hready⟩ : carried = s.carryInto c.seq ∧ Ready s c.cut lines := by
          rcases hp.2 with ⟨st, hst'⟩ | h
          · rw [hst] at hst'
            cases hst'
          · exact h
        refine ⟨hl.setStatement htop hst hready hcar rfl, Evolves.setStatement ?_,
          refileAll_ok ⟨hp.1.pos, hp.1.le⟩ (AList.lookup_insert s.statements)⟩
        intro st hst'
        rw [hst] at hst'
        cases hst'
      · rw [hput]
        exact .stay hl (refileAll_ok hp.1 hrow)
    · simp only [Proc.run, if_neg hvalid]
      exact .stay hl trivial
  | refileRead c st id rest tries =>
    cases tries with
    | zero => exact .stay hl trivial
    | succ tries =>
      obtain ⟨row, hrow⟩ := hl.line_posted hp.2.stored (hp.2.part id List.mem_cons_self)
      simp only [Proc.run, hrow]
      split
      · rename_i hseq
        refine .stay hl (refileNext_ok hp.1 (hp.2.next ⟨row.value, ?_, hseq⟩))
        simp only [Store.posting?, hrow, Option.map_some]
      · exact .stay hl ⟨hp.1, hp.2, hrow ▸ Newer.refl _⟩
  | refileWrite c st id rest tries row =>
    obtain ⟨hk, hr, hnewer⟩ := hp
    simp only [Proc.run]
    rcases put_snapshot hnewer { row.value with statementSeq := some c.seq } now with
      ⟨hrow, hput⟩ | hput
    · rw [hput]
      obtain ⟨hl', he, hfiled⟩ :=
        hl.refile hk.le hr.stored (hr.part id List.mem_cons_self) hrow now
      exact ⟨hl', he, refileNext_ok (hk.evolve he) ((hr.evolve he).next hfiled)⟩
    · rw [hput]
      exact .stay hl ⟨hk, hr⟩
  | clearRead c forward tries =>
    cases tries with
    | zero => exact .stay hl trivial
    | succ tries =>
      simp only [Proc.run, hcard]
      exact .stay hl ⟨hp.1, hp.2, hcard ▸ Newer.refl _⟩
  | clearWrite c forward tries row =>
    obtain ⟨hk, hcarries, hnewer⟩ := hp
    simp only [Proc.run]
    rcases cas_snapshot hnewer (row.value.clear c forward) now with ⟨hcur, hcas⟩ | hcas
    · rw [hcas]
      obtain ⟨hl', he⟩ := hl.clear hcur hcarries now
      refine ⟨hl', he, ?_⟩
      change Pc.Ok _ (if goal.resumedOther c then Pc.reserveRead now TRIES else Pc.done)
      cases goal.resumedOther c with
      | false => trivial
      | true => trivial
    · rw [hcas]
      exact .stay hl ⟨hk, hcarries⟩
  | done => exact .stay hl trivial

end Steps

/-! ## Interleavings -/

/-- **Step of the system.** -/
theorem System.step_safe {w w' : System} {a : Action} (h : w.step a = .ok w')
    (hw : w.Safe Ledger (fun s p => Proc.Ok s p)) :
    w'.Safe Ledger (fun s p => Proc.Ok s p) ∧ Evolves w.store w'.store := by
  have hstable : ∀ s s' (p : Proc), Ledger s → Evolves s s' → p.Ok s → p.Ok s' :=
    fun s s' p hl he hp => Pc.Ok.evolve hl he hp
  cases a with
  | close kind op now =>
    cases h
    exact ⟨hw.spawn trivial, Evolves.refl _⟩
  | tick =>
    cases h
    exact ⟨hw.spawn trivial, Evolves.refl _⟩
  | run i now fee =>
    simp only [System.step] at h
    split at h
    · cases h
    · rename_i p hp
      cases h
      have hok := Proc.run_ok now fee hw.inv (hw.procs p (List.mem_of_getElem? hp))
      exact ⟨hw.step hstable i hok.ledger hok.evolves hok.ok, hok.evolves⟩
  | stop i =>
    simp only [System.step] at h
    split at h
    · cases h
    · cases h
      exact ⟨hw.step hstable i hw.inv (Evolves.refl _) trivial, Evolves.refl _⟩
  | post id label amount feeBps postedAt updated =>
    cases h
    obtain ⟨hl, he⟩ := hw.inv.recordPosting id label amount feeBps postedAt updated
    exact ⟨hw.env hstable hl he, he⟩
  | touchCard updated =>
    cases h
    obtain ⟨hl, he⟩ := hw.inv.touchCard updated
    exact ⟨hw.env hstable hl he, he⟩
  | touchStatement seq state updated =>
    cases h
    obtain ⟨hl, he⟩ := hw.inv.touchStatement seq state updated
    exact ⟨hw.env hstable hl he, he⟩

theorem System.initial_safe (updated : Nat) :
    (System.initial updated).Safe Ledger (fun s p => Proc.Ok s p) := by
  have hnone : ∀ k st, (System.initial updated).store.statement? k ≠ some st := by
    intro k st h
    cases h
  have hunfiled : ∀ id k, ¬ (System.initial updated).store.FiledUnder id k := by
    rintro id k ⟨p, hp, -⟩
    cases hp
  refine ⟨⟨rfl, ?_, le_rfl, ?_, ?_, ?_, ?_, ?_, ?_, ?_, rfl, ?_⟩, ?_⟩
  · intro c hc
    cases hc
  · intro k h₁ h₂
    change k < 1 at h₂
    omega
  · intro k st h
    exact absurd h (hnone k st)
  · intro k st id h
    exact absurd h (hnone k st)
  · intro id k h
    exact absurd h (hunfiled id k)
  · intro k st l h
    exact absurd h (hnone k st)
  · intro k st h
    exact absurd h (hnone k st)
  · intro k k' st st' id h
    exact absurd h (hnone k st)
  · intro k st h
    exact absurd h (hnone k st)
  · intro p hp
    cases hp

/-- A run step stores a statement only from `store`, and one the database takes. -/
theorem Proc.run_statement {p : Proc} {s : Store} {now : Nat} {fee : Option Nat} {k : Nat}
    {st : Statement} (hl : Ledger s) (hp : p.Ok s)
    (h : (p.run now fee s).1.statement? k = some st) :
    s.statement? k = some st ∨
      ∃ c carried lines feeAssumed, p.pc = .store c carried lines feeAssumed ∧
        (totals lines carried).valid ∧
        st = (statementRecord c lines carried feeAssumed).statement := by
  obtain ⟨goal, pc⟩ := p
  obtain ⟨cardRow, hcard⟩ := Option.isSome_iff_exists.mp hl.card
  change pc.Ok s at hp
  cases pc with
  | store c carried lines feeAssumed =>
    by_cases hvalid : (totals lines carried).valid
    · simp only [Proc.run, if_pos hvalid] at h
      rcases put_create s.statements c.seq (statementRecord c lines carried feeAssumed) now with
        ⟨-, hput⟩ | ⟨row, -, hput⟩
      · rw [hput] at h
        by_cases hk : k = c.seq
        · subst hk
          simp only [Store.statement?, AList.lookup_insert, Option.map_some,
            Option.some.injEq] at h
          exact .inr ⟨c, carried, lines, feeAssumed, rfl, hvalid, h.symm⟩
        · simp only [Store.statement?, AList.lookup_insert_ne hk] at h
          exact .inl h
      · rw [hput] at h
        exact .inl h
    · simp only [Proc.run, if_neg hvalid] at h
      exact .inl h
  | reserveRead cut tries =>
    cases tries with
    | zero => exact .inl h
    | succ tries =>
      simp only [Proc.run, hcard] at h
      exact .inl h
  | reserveWrite cut tries row =>
    cases goal with
    | tick => exact .inl h
    | close kind op =>
      simp only [Proc.run] at h
      rcases cas_snapshot hp (row.value.reserve kind cut op).1 now with ⟨-, hcas⟩ | hcas
      · rw [hcas] at h
        exact .inl h
      · rw [hcas] at h
        exact .inl h
  | tickRead =>
    simp only [Proc.run, hcard] at h
    split at h
    · exact .inl h
    · exact .inl h
  | finishRead c =>
    simp only [Proc.run, hcard] at h
    exact .inl h
  | getStatement c carried =>
    simp only [Proc.run] at h
    split at h
    · exact .inl h
    · exact .inl h
  | listing c carried before out =>
    simp only [Proc.run] at h
    split at h
    · exact .inl h
    · exact .inl h
  | readFee c carried out =>
    simp only [Proc.run] at h
    split at h
    · exact .inl h
    · exact .inl h
    · exact .inl h
  | refileRead c st' id rest tries =>
    cases tries with
    | zero => exact .inl h
    | succ tries =>
      simp only [Proc.run] at h
      split at h
      · exact .inl h
      · split at h
        · exact .inl h
        · exact .inl h
  | refileWrite c st' id rest tries row =>
    simp only [Proc.run] at h
    rcases put_snapshot hp.2.2 { row.value with statementSeq := some c.seq } now with
      ⟨-, hput⟩ | hput
    · rw [hput] at h
      exact .inl h
    · rw [hput] at h
      exact .inl h
  | clearRead c forward tries =>
    cases tries with
    | zero => exact .inl h
    | succ tries =>
      simp only [Proc.run, hcard] at h
      exact .inl h
  | clearWrite c forward tries row =>
    simp only [Proc.run] at h
    rcases cas_snapshot hp.2.2 (row.value.clear c forward) now with ⟨-, hcas⟩ | hcas
    · rw [hcas] at h
      exact .inl h
    · rw [hcas] at h
      exact .inl h
  | done => exact .inl h

/-- Every stored credit is one its text can hold. -/
def CreditsFit (s : Store) : Prop :=
  ∀ k st, s.statement? k = some st → st.totals.creditForward < CENTS_LIMIT

theorem CreditsFit.step {w w' : System} {a : Action} (h : w.step a = .ok w')
    (hw : w.Safe Ledger (fun s p => Proc.Ok s p)) (hc : CreditsFit w.store) :
    CreditsFit w'.store := by
  cases a with
  | close kind op now =>
    cases h
    exact hc
  | tick =>
    cases h
    exact hc
  | run i now fee =>
    simp only [System.step] at h
    split at h
    · cases h
    · rename_i p hp
      cases h
      intro k st hst
      rcases Proc.run_statement hw.inv (hw.procs p (List.mem_of_getElem? hp)) hst with
        hst | ⟨c, carried, lines, feeAssumed, -, hvalid, rfl⟩
      · exact hc k st hst
      · exact hvalid.forward_lt
  | stop i =>
    simp only [System.step] at h
    split at h
    · cases h
    · cases h
      exact hc
  | post id label amount feeBps postedAt updated =>
    cases h
    intro k st hst
    have hsame : (recordPosting id label amount feeBps postedAt updated w.store).statement? k =
        w.store.statement? k := by
      unfold recordPosting
      split
      · rfl
      · split <;> rfl
    exact hc k st (hsame ▸ hst)
  | touchCard updated =>
    cases h
    exact hc
  | touchStatement seq state updated =>
    cases h
    intro k st hst
    have hsame : (touchStatement w.store seq state updated).statement? k =
        w.store.statement? k := by
      unfold touchStatement
      cases hrow : w.store.statements.lookup seq with
      | none => rfl
      | some row =>
        by_cases hk : k = seq
        · subst hk
          simp only [Store.statement?, AList.lookup_insert, Option.map_some, hrow]
        · simp only [Store.statement?, AList.lookup_insert_ne hk]
    exact hc k st (hsame ▸ hst)

/-! ## Exactly-once billing -/

/-- Every posting is billed once, in order, and every credit is used once. -/
structure BilledOnce (s : Store) : Prop where
  /-- A posting is listed on at most one statement. -/
  listedOnce : ∀ id k k' st st', s.statement? k = some st → s.statement? k' = some st' →
    id ∈ st.lineIds → id ∈ st'.lineIds → k = k'
  /-- And once on it. -/
  lineOnce : ∀ k st, s.statement? k = some st → st.lineIds.Nodup
  /-- What is listed was booked by the cut of the statement. -/
  booked : ∀ k st l, s.statement? k = some st → l ∈ st.lines →
    ∃ p, s.posting? l.eventId = some p ∧ l.Bills st.closedAt p
  /-- No posting is lost. -/
  kept : ∀ id p, s.posting? id = some p →
    p.isOpen ∨ ∃! k, ∃ st, s.statement? k = some st ∧ id ∈ st.lineIds
  /-- The stored numbers are consecutive. -/
  consecutive : ∃ m, ∀ k, (∃ st, s.statement? k = some st) ↔ 1 ≤ k ∧ k ≤ m
  /-- The next statement is stored only after all lines of this one are filed. -/
  filedFirst : ∀ k st st', s.statement? k = some st → s.statement? (k + 1) = some st' →
    ∀ id ∈ st.lineIds, s.FiledUnder id k
  /-- A credit goes into the next statement, whole, and into no other. -/
  carriedOnce : ∀ k st st', s.statement? k = some st → s.statement? (k + 1) = some st' →
    st'.totals.carriedCredit = st.totals.creditForward
  firstCarries : ∀ st, s.statement? 1 = some st → st.totals.carriedCredit = 0

theorem totals_creditForward_nonneg (lines : List Line) (carried : Nat) :
    0 ≤ (totals lines carried).creditForward := le_max_right _ _

theorem Ledger.forward_eq {s : Store} (hl : Ledger s) (hc : CreditsFit s) {k : Nat}
    {st : Statement} (hst : s.statement? k = some st) :
    (st.forward : Int) = st.totals.creditForward := by
  have hnonneg : 0 ≤ st.totals.creditForward := by
    rw [(hl.computed k st hst).2]
    exact totals_creditForward_nonneg _ _
  obtain ⟨n, hn⟩ := Int.eq_ofNat_of_zero_le hnonneg
  have hlt : n < CENTS_LIMIT := by
    have := hc k st hst
    omega
  rw [Statement.forward, hn, parseCents_natCast hlt, Option.getD_some]

theorem Ledger.billedOnce {s : Store} (hl : Ledger s) (hc : CreditsFit s) : BilledOnce s where
  listedOnce := fun id k k' st st' => hl.once k k' st st' id
  lineOnce := hl.nodup
  booked := hl.booked
  kept := by
    intro id p hp
    cases hseq : p.statementSeq with
    | none => exact .inl hseq
    | some k =>
      obtain ⟨st, hst, hid⟩ := hl.listed id k ⟨p, hp, hseq⟩
      refine .inr ⟨k, ⟨st, hst, hid⟩, ?_⟩
      rintro k' ⟨st', hst', hid'⟩
      exact hl.once k' k st' st id hst' hst hid' hid
  consecutive := by
    cases htop : s.statement? s.top with
    | none =>
      refine ⟨s.top - 1, fun k => ⟨?_, fun h => hl.filled k h.1 (by omega)⟩⟩
      rintro ⟨st, hst⟩
      obtain ⟨h₁, h₂⟩ := hl.bounded k st hst
      have hne : k ≠ s.top := by
        rintro rfl
        rw [htop] at hst
        cases hst
      omega
    | some st₀ =>
      refine ⟨s.top, fun k => ⟨?_, ?_⟩⟩
      · rintro ⟨st, hst⟩
        exact hl.bounded k st hst
      · rintro ⟨h₁, h₂⟩
        rcases hl.stored_or_top h₁ h₂ with h | ⟨rfl, hnone⟩
        · exact h
        · exact ⟨st₀, htop⟩
  filedFirst := by
    intro k st st' hst hst' id hid
    have := (hl.bounded (k + 1) st' hst').2
    exact hl.filed k st id hst (by omega) hid
  carriedOnce := by
    intro k st st' hst hst'
    obtain ⟨n, rfl⟩ : ∃ n, k = n + 1 := ⟨k - 1, by have := (hl.bounded k st hst).1; omega⟩
    rw [(hl.computed _ st' hst').2, ← hl.forward_eq hc hst]
    simp only [totals, Store.carryInto, hst, Option.map_some, Option.getD_some]
  firstCarries := by
    intro st hst
    rw [(hl.computed 1 st hst).2]
    rfl

/-- **Exactly-once statement billing.** In every interleaving of closes, repair ticks,
postings and other row writers every posting is billed once and every credit used once,
and a stored statement never changes. -/
theorem statements_bill_once (updated : Nat) (actions : List Action) :
    BilledOnce (Runs.after System.step (System.initial updated) actions).store ∧
      ∀ before rest, actions = before ++ rest →
        ∀ k st, (Runs.after System.step (System.initial updated) before).store.statement? k =
            some st →
          (Runs.after System.step (System.initial updated) actions).store.statement? k =
            some st := by
  have hsafe : ∀ acts, (Runs.after System.step (System.initial updated) acts).Safe Ledger
      (fun s p => Proc.Ok s p) ∧
        CreditsFit (Runs.after System.step (System.initial updated) acts).store := by
    intro acts
    refine Runs.after_inv (P := fun _ _ _ => True)
      (I := fun w : System => w.Safe Ledger (fun s p => Proc.Ok s p) ∧ CreditsFit w.store) ?_
      (Runs.along_true _ acts) ⟨System.initial_safe updated, fun k st h => by cases h⟩
    intro w a w' _ hstep hw
    exact ⟨(System.step_safe hstep hw.1).1, hw.2.step hstep hw.1⟩
  refine ⟨(hsafe actions).1.inv.billedOnce (hsafe actions).2, ?_⟩
  rintro before rest rfl k st hst
  rw [Runs.after_append]
  refine (Runs.after_inv (P := fun _ _ _ => True)
    (I := fun w : System =>
      w.Safe Ledger (fun s p => Proc.Ok s p) ∧ w.store.statement? k = some st) ?_
    (Runs.along_true _ rest) ⟨(hsafe before).1, hst⟩).2
  rintro w a w' - hstep ⟨hw, hk⟩
  obtain ⟨hw', he⟩ := System.step_safe hstep hw
  exact ⟨hw', he.statements k st hk⟩

namespace Sample

/-- Two refunds closed into a first statement, then a purchase into a second. -/
def creditThenPurchase (refund : Nat) : List Action :=
  [.post 1 .refund refund (some 0) 1 1, .post 2 .refund refund (some 0) 2 2,
    .close (.interim 0) none 10] ++ List.replicate 13 (.run 0 10 none) ++
  [.post 3 .capture 1000 (some 0) 20 20, .close (.interim 0) none 30] ++
    List.replicate 7 (.run 1 30 none)

/-- What a statement of the store took over and hands on. -/
def carries (w : System) (k : Nat) : Option (Int × Int) :=
  (w.store.statement? k).map fun st => (st.totals.carriedCredit, st.totals.creditForward)

end Sample

open Sample in
/-- The credit of two refunds goes into the second statement. -/
example :
    carries (Runs.after System.step (System.initial 0) (creditThenPurchase 250)) 1 =
        some (0, 500) ∧
      carries (Runs.after System.step (System.initial 0) (creditThenPurchase 250)) 2 =
        some (500, 0) :=
  ⟨by decide, by decide⟩

open Sample in
/-- A credit of 17 digits is not taken, and its postings stay open. -/
example :
    let w := Runs.after System.step (System.initial 0) (creditThenPurchase 6000000000000000)
    carries w 1 = none ∧ (w.store.postings.lookup 1).map (fun r => r.value.statementSeq) =
      some none :=
  ⟨by decide, by decide⟩

end ChainPay.Backend
