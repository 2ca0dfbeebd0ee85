import ChainPay.Backend.Close

/-!
The rows of a card under closing. `Ledger` is what they always satisfy, whatever runs
of the closer have done to them; `Evolves` is what any of them, a posting or another
row writer may change; `Proc.Ok` is what a run may rely on where it waits. The number
the card is at (`Billing.top`) never goes back, every statement below it is complete,
and only the statement at it can be in the making.
-/

namespace ChainPay.Backend
open ChainPay.Lib ChainPay.Card

/-! ## Pages -/

theorem mem_openPage {s : Store} {before : Option Nat} {r : PostingRow}
    (h : r ∈ openPage s before) :
    s.postings.lookup r.1 = some r.2 ∧ r.2.value.isOpen ∧ ∀ b ∈ before, r.2.updated < b := by
  have hmem := (List.mem_insertionSort newestFirst).mp (List.mem_of_mem_take h)
  rw [openBefore, List.mem_filter, List.mem_map] at hmem
  obtain ⟨⟨⟨k, row⟩, he, rfl⟩, hcond⟩ := hmem
  rw [Bool.and_eq_true, decide_eq_true_eq] at hcond
  refine ⟨(List.mem_dlookup_iff s.postings.nodupKeys).mpr he, hcond.1, ?_⟩
  rintro b hb
  rw [Option.mem_def] at hb
  subst hb
  exact of_decide_eq_true hcond.2

theorem openPage_nodup (s : Store) (before : Option Nat) :
    ((openPage s before).map Prod.fst).Nodup := by
  have hkeys : ((s.postings.entries.map fun e => (e.1, e.2)).map Prod.fst).Nodup := by
    rw [List.map_map]
    exact s.postings.nodupKeys
  have hfilter : ((openBefore s before).map Prod.fst).Nodup :=
    hkeys.sublist (List.filter_sublist.map _)
  have hsorted : (((openBefore s before).insertionSort newestFirst).map Prod.fst).Nodup :=
    ((List.perm_insertionSort newestFirst _).map Prod.fst).nodup_iff.mpr hfilter
  exact hsorted.sublist ((List.take_sublist PAGE _).map _)

instance : Std.Total newestFirst := ⟨fun a b => by unfold newestFirst; omega⟩

instance : IsTrans PostingRow newestFirst := ⟨fun a b c => by unfold newestFirst; omega⟩

/-- The last row of a page is its oldest. -/
theorem openPage_last {s : Store} {before : Option Nat} {r l : PostingRow}
    (hl : (openPage s before).getLast? = some l) (hr : r ∈ openPage s before) :
    l.2.updated ≤ r.2.updated := by
  have hsorted : (openPage s before).Pairwise newestFirst :=
    (List.pairwise_insertionSort newestFirst _).sublist (List.take_sublist PAGE _)
  obtain ⟨init, hinit⟩ := List.getLast?_eq_some_iff.mp hl
  rw [hinit, List.pairwise_append] at hsorted
  rw [hinit, List.mem_append, List.mem_singleton] at hr
  rcases hr with hr | rfl
  · have := hsorted.2.2 r hr l (List.mem_singleton_self l)
    unfold newestFirst at this
    omega
  · exact le_rfl

/-- The line bills this posting, booked by the cut. -/
structure Line.Bills (l : Line) (cut : Nat) (p : Posting) : Prop where
  kind : l.kind = p.kind
  amount : l.amount = p.amount
  postedAt : l.postedAt = p.postedAt
  cut : p.postedAt ≤ cut

theorem lineFromPosting_bills {id : Hash} {p : Posting} {bps : Nat} {l : Line} {a : Bool}
    {cut : Nat} (h : lineFromPosting id p bps = some (l, a)) (hcut : p.postedAt ≤ cut) :
    l.eventId = id ∧ l.Bills cut p := by
  cases hamount : parseCents p.amount with
  | none =>
    simp only [lineFromPosting, hamount, reduceCtorEq] at h
  | some amount =>
    simp only [lineFromPosting, hamount, Option.some.injEq, Prod.mk.injEq] at h
    obtain ⟨rfl, -⟩ := h
    exact ⟨rfl, rfl, (parseCents_eq_some hamount).2, rfl, hcut⟩

/-- The lines bill rows of the list, in its order and each once. -/
theorem linesUpTo_some {cut : Nat} {fee : Option Nat} {rows : List PostingRow}
    {lines : List Line} {assumed : Bool} (h : linesUpTo cut fee rows = some (lines, assumed)) :
    List.Sublist (lines.map Line.eventId) (rows.map Prod.fst) ∧
      ∀ l ∈ lines, ∃ r ∈ rows, l.eventId = r.1 ∧ l.Bills cut r.2.value := by
  induction rows generalizing lines assumed with
  | nil =>
    cases h
    exact ⟨List.Sublist.slnil, fun l hl => absurd hl List.not_mem_nil⟩
  | cons r rest ih =>
    simp only [linesUpTo] at h
    split at h
    · rename_i hcut
      split at h
      · cases h
      · rename_i line a hline
        split at h
        · cases h
        · rw [Option.map_eq_some_iff] at h
          obtain ⟨⟨ls, any⟩, hrest, he⟩ := h
          cases he
          obtain ⟨hsub, hall⟩ := ih hrest
          obtain ⟨hid, hbills⟩ := lineFromPosting_bills hline hcut
          refine ⟨?_, ?_⟩
          · rw [List.map_cons, List.map_cons, hid]
            exact hsub.cons_cons r.1
          · intro l hl
            rcases List.mem_cons.mp hl with rfl | hl
            · exact ⟨r, List.mem_cons_self, hid, hbills⟩
            · obtain ⟨r', hr', hl'⟩ := hall l hl
              exact ⟨r', List.mem_cons_of_mem r hr', hl'⟩
    · obtain ⟨hsub, hall⟩ := ih h
      refine ⟨hsub.cons r.1, fun l hl => ?_⟩
      obtain ⟨r', hr', hl'⟩ := hall l hl
      exact ⟨r', List.mem_cons_of_mem r hr', hl'⟩

/-! ## The rows -/

/-- The statement number the card is at: the one reserved, or the next. -/
def Billing.top (b : Billing) : Nat :=
  match b.closing with
  | some c => c.seq
  | none => b.nextSeq.getD 1

namespace Store

def billing (s : Store) : Billing := (s.card.map Row.value).getD {}

def top (s : Store) : Nat := s.billing.top

def statement? (s : Store) (k : Nat) : Option Statement :=
  (s.statements.lookup k).map fun r => r.value.statement

def posting? (s : Store) (id : Hash) : Option Posting := (s.postings.lookup id).map Row.value

/-- The posting is filed under statement `k`. -/
def FiledUnder (s : Store) (id : Hash) (k : Nat) : Prop :=
  ∃ p, s.posting? id = some p ∧ p.statementSeq = some k

/-- The credit statement `k` takes over from the one before it. -/
def carryInto (s : Store) : Nat → Nat
  | 0 | 1 => 0
  | k + 2 => ((s.statement? (k + 1)).map Statement.forward).getD 0

end Store

/-- What the rows of a card always satisfy. -/
structure Ledger (s : Store) : Prop where
  card : s.card.isSome
  reserved : ∀ c, s.billing.closing = some c → s.billing.nextSeq = some (c.seq + 1)
  positive : 1 ≤ s.top
  filled : ∀ k, 1 ≤ k → k < s.top → ∃ st, s.statement? k = some st
  bounded : ∀ k st, s.statement? k = some st → 1 ≤ k ∧ k ≤ s.top
  filed : ∀ k st id, s.statement? k = some st → k < s.top → id ∈ st.lineIds → s.FiledUnder id k
  listed : ∀ id k, s.FiledUnder id k → ∃ st, s.statement? k = some st ∧ id ∈ st.lineIds
  booked : ∀ k st l, s.statement? k = some st → l ∈ st.lines →
    ∃ p, s.posting? l.eventId = some p ∧ l.Bills st.closedAt p
  nodup : ∀ k st, s.statement? k = some st → st.lineIds.Nodup
  once : ∀ k k' st st' id, s.statement? k = some st → s.statement? k' = some st' →
    id ∈ st.lineIds → id ∈ st'.lineIds → k = k'
  carried : s.billing.carried = s.carryInto s.top
  computed : ∀ k st, s.statement? k = some st →
    st.statementSeq = k ∧ st.totals = totals st.lines (s.carryInto k)

/-- What any run, posting or other writer may change. -/
structure Evolves (s s' : Store) : Prop where
  card : Newer s.card s'.card
  top : s.top ≤ s'.top
  statements : ∀ k st, s.statement? k = some st → s'.statement? k = some st
  postings : ∀ id, Newer (s.postings.lookup id) (s'.postings.lookup id)
  filed : ∀ id k, s.FiledUnder id k → s'.FiledUnder id k
  /-- An open posting changes only once the statement in the making is stored. -/
  opened : ∀ id row, s.postings.lookup id = some row → row.value.isOpen →
    s'.postings.lookup id = some row ∨ ∃ st, s.statement? s.top = some st

theorem Evolves.refl (s : Store) : Evolves s s where
  card := Newer.refl _
  top := le_rfl
  statements := fun _ _ h => h
  postings := fun _ => Newer.refl _
  filed := fun _ _ h => h
  opened := fun _ _ h _ => .inl h

theorem Evolves.carryInto {s s' : Store} (he : Evolves s s') (hl : Ledger s) {k : Nat}
    (hk : k ≤ s.top) : s'.carryInto k = s.carryInto k := by
  match k, hk with
  | 0, _ => rfl
  | 1, _ => rfl
  | k + 2, hk =>
    obtain ⟨st, hst⟩ := hl.filled (k + 1) (by omega) (by omega)
    simp only [Store.carryInto, hst, he.statements _ _ hst]

/-- A number the card has left behind, or one whose statement is in the making. -/
theorem Ledger.stored_or_top {s : Store} (hl : Ledger s) {k : Nat} (h₁ : 1 ≤ k) (h₂ : k ≤ s.top) :
    (∃ st, s.statement? k = some st) ∨ (k = s.top ∧ s.statement? k = none) := by
  cases hst : s.statement? k with
  | some st => exact .inl ⟨st, rfl⟩
  | none =>
    refine .inr ⟨?_, rfl⟩
    by_contra hne
    obtain ⟨st, hst'⟩ := hl.filled k h₁ (by omega)
    rw [hst] at hst'
    cases hst'

/-! ## What a run relies on -/

/-- The reservation was the card's at some time. -/
structure Known (s : Store) (c : Closing) : Prop where
  pos : 1 ≤ c.seq
  le : c.seq ≤ s.top

/-- Open postings collected by a listing. -/
structure Collected (s : Store) (rows : List PostingRow) : Prop where
  nodup : (rows.map Prod.fst).Nodup
  opened : ∀ r ∈ rows, s.postings.lookup r.1 = some r.2 ∧ r.2.value.isOpen

/-- Lines of postings that are still open. -/
structure Ready (s : Store) (cut : Nat) (lines : List Line) : Prop where
  nodup : (lines.map Line.eventId).Nodup
  opened : ∀ l ∈ lines, ∃ row, s.postings.lookup l.eventId = some row ∧ row.value.isOpen ∧
    l.Bills cut row.value

/-- The statement of `c` is stored, or what the run gathered for it still holds. -/
def Gathered (s : Store) (c : Closing) (carried : Nat) (P : Prop) : Prop :=
  (∃ st, s.statement? c.seq = some st) ∨ (carried = s.carryInto c.seq ∧ P)

/-- The statement of `c` is `st`, and its lines outside `todo` are filed. -/
structure Refiling (s : Store) (c : Closing) (st : Statement) (todo : List Hash) : Prop where
  stored : s.statement? c.seq = some st
  part : ∀ id ∈ todo, id ∈ st.lineIds
  rest : ∀ id ∈ st.lineIds, id ∈ todo ∨ s.FiledUnder id c.seq

/-- A credit to carry comes with a statement all of whose lines are filed. -/
def Carries (s : Store) (c : Closing) (forward : Option Nat) : Prop :=
  ∀ f ∈ forward, ∃ st, f = st.forward ∧ Refiling s c st []

/-- What a run may rely on where it waits. -/
def Pc.Ok (s : Store) : Pc → Prop
  | .reserveRead _ _ | .tickRead | .done => True
  | .reserveWrite _ _ row => Newer (some row) s.card
  | .finishRead c => Known s c
  | .getStatement c carried => Known s c ∧ Gathered s c carried True
  | .listing c carried before out =>
    Known s c ∧ Gathered s c carried
      (Collected s out ∧ (before = none → out = []) ∧ ∀ b ∈ before, ∀ r ∈ out, b ≤ r.2.updated)
  | .readFee c carried out => Known s c ∧ Gathered s c carried (Collected s out)
  | .store c carried lines _ => Known s c ∧ Gathered s c carried (Ready s c.cut lines)
  | .refileRead c st id rest _ => Known s c ∧ Refiling s c st (id :: rest)
  | .refileWrite c st id rest _ row =>
    Known s c ∧ Refiling s c st (id :: rest) ∧ Newer (some row) (s.postings.lookup id)
  | .clearRead c forward _ => Known s c ∧ Carries s c forward
  | .clearWrite c forward _ row => Known s c ∧ Carries s c forward ∧ Newer (some row) s.card

def Proc.Ok (s : Store) (p : Proc) : Prop := p.pc.Ok s

/-! ## Stability -/

section Stable

variable {s s' : Store} {c : Closing}

theorem Known.evolve (hk : Known s c) (he : Evolves s s') : Known s' c :=
  ⟨hk.pos, hk.le.trans he.top⟩

/-- What was gathered survives as long as the statement is not stored. -/
theorem Gathered.evolve {carried : Nat} {P P' : Prop} (hl : Ledger s) (he : Evolves s s')
    (hk : Known s c) (h : Gathered s c carried P) (hP : s.statement? s.top = none → P → P') :
    Gathered s' c carried P' := by
  rcases hl.stored_or_top hk.pos hk.le with ⟨st, hst⟩ | ⟨htop, hnone⟩
  · exact .inl ⟨st, he.statements _ _ hst⟩
  · rcases h with ⟨st, hst⟩ | ⟨hcar, hp⟩
    · exact .inl ⟨st, he.statements _ _ hst⟩
    · refine .inr ⟨?_, hP (htop ▸ hnone) hp⟩
      rw [he.carryInto hl hk.le]
      exact hcar

theorem open_same (he : Evolves s s') (hnone : s.statement? s.top = none) {id : Hash}
    {row : Row Posting} (hr : s.postings.lookup id = some row) (hopen : row.value.isOpen) :
    s'.postings.lookup id = some row := by
  rcases he.opened id row hr hopen with h | ⟨st, hst⟩
  · exact h
  · rw [hnone] at hst
    cases hst

theorem Collected.evolve {rows : List PostingRow} (he : Evolves s s')
    (hnone : s.statement? s.top = none) (h : Collected s rows) : Collected s' rows where
  nodup := h.nodup
  opened := by
    intro r hr
    obtain ⟨hlook, hopen⟩ := h.opened r hr
    exact ⟨open_same he hnone hlook hopen, hopen⟩

theorem Ready.evolve {cut : Nat} {lines : List Line} (he : Evolves s s')
    (hnone : s.statement? s.top = none) (h : Ready s cut lines) : Ready s' cut lines where
  nodup := h.nodup
  opened := by
    intro l hl
    obtain ⟨row, hlook, hopen, hbills⟩ := h.opened l hl
    exact ⟨row, open_same he hnone hlook hopen, hopen, hbills⟩

theorem Refiling.evolve {st : Statement} {todo : List Hash} (he : Evolves s s')
    (h : Refiling s c st todo) : Refiling s' c st todo where
  stored := he.statements _ _ h.stored
  part := h.part
  rest := by
    intro id hid
    rcases h.rest id hid with hmem | hfiled
    · exact .inl hmem
    · exact .inr (he.filed _ _ hfiled)

theorem Carries.evolve {forward : Option Nat} (he : Evolves s s') (h : Carries s c forward) :
    Carries s' c forward := by
  intro f hf
  obtain ⟨st, hst, hrest⟩ := h f hf
  exact ⟨st, hst, hrest.evolve he⟩

/-- **Stability.** What a run relies on survives every change others may make. -/
theorem Pc.Ok.evolve {pc : Pc} (hl : Ledger s) (he : Evolves s s') (h : pc.Ok s) : pc.Ok s' := by
  cases pc with
  | reserveRead => trivial
  | reserveWrite _ _ row => exact Newer.trans h he.card
  | tickRead => trivial
  | finishRead c => exact Known.evolve h he
  | getStatement c carried =>
    exact ⟨h.1.evolve he, h.2.evolve hl he h.1 fun _ h => h⟩
  | listing c carried before out =>
    exact ⟨h.1.evolve he, h.2.evolve hl he h.1 fun hnone hp => ⟨hp.1.evolve he hnone, hp.2⟩⟩
  | readFee c carried out =>
    exact ⟨h.1.evolve he, h.2.evolve hl he h.1 fun hnone hp => hp.evolve he hnone⟩
  | store c carried lines _ =>
    exact ⟨h.1.evolve he, h.2.evolve hl he h.1 fun hnone hp => hp.evolve he hnone⟩
  | refileRead c st id rest _ => exact ⟨h.1.evolve he, h.2.evolve he⟩
  | refileWrite c st id rest _ row =>
    exact ⟨h.1.evolve he, h.2.1.evolve he, h.2.2.trans (he.postings id)⟩
  | clearRead c forward _ => exact ⟨h.1.evolve he, h.2.evolve he⟩
  | clearWrite c forward _ row =>
    exact ⟨h.1.evolve he, h.2.1.evolve he, h.2.2.trans he.card⟩
  | done => trivial

end Stable

/-! ## Writes -/

section Writes

variable {s : Store}

/-- Writing the card row, when the number it moves past is complete. -/
theorem Ledger.setCard {row : Row Billing} (hl : Ledger s)
    (hres : ∀ c, row.value.closing = some c → row.value.nextSeq = some (c.seq + 1))
    (htop : s.top ≤ row.value.top)
    (hfull : ∀ k, s.top ≤ k → k < row.value.top →
      ∃ st, s.statement? k = some st ∧ ∀ id ∈ st.lineIds, s.FiledUnder id k)
    (hcar : row.value.carried = s.carryInto row.value.top) :
    Ledger { s with card := some row } where
  card := rfl
  reserved := hres
  positive := hl.positive.trans htop
  filled := by
    intro k h₁ h₂
    by_cases hk : k < s.top
    · exact hl.filled k h₁ hk
    · obtain ⟨st, hst, -⟩ := hfull k (Nat.not_lt.mp hk) h₂
      exact ⟨st, hst⟩
  bounded := by
    intro k st hst
    obtain ⟨h₁, h₂⟩ := hl.bounded k st hst
    exact ⟨h₁, h₂.trans htop⟩
  filed := by
    intro k st id hst h₂ hid
    by_cases hk : k < s.top
    · exact hl.filed k st id hst hk hid
    · obtain ⟨st', hst', hfiled⟩ := hfull k (Nat.not_lt.mp hk) h₂
      have he : st = st' := Option.some.inj (hst.symm.trans hst')
      subst he
      exact hfiled id hid
  listed := hl.listed
  booked := hl.booked
  nodup := hl.nodup
  once := hl.once
  carried := hcar
  computed := hl.computed

theorem Evolves.setCard {row : Row Billing} (hnew : Newer s.card (some row))
    (htop : s.top ≤ row.value.top) : Evolves s { s with card := some row } :=
  { Evolves.refl s with card := hnew, top := htop }

/-- A new row under the number the card is at, of postings that are all open. -/
theorem Ledger.setStatement {row : Row StatementRecord} {c : Closing} {lines : List Line}
    {carried : Nat} {feeAssumed : Bool} (hl : Ledger s) (htop : c.seq = s.top)
    (hnone : s.statement? c.seq = none) (hready : Ready s c.cut lines)
    (hcar : carried = s.carryInto c.seq)
    (hrow : row.value = statementRecord c lines carried feeAssumed) :
    Ledger { s with statements := s.statements.insert c.seq row } := by
  let s' : Store := { s with statements := s.statements.insert c.seq row }
  let st₀ := (statementRecord c lines carried feeAssumed).statement
  have hnew : s'.statement? c.seq = some st₀ := by
    simp only [s', Store.statement?, AList.lookup_insert, Option.map_some, hrow, st₀]
  have hold : ∀ k, k ≠ c.seq → s'.statement? k = s.statement? k := by
    intro k hk
    simp only [s', Store.statement?, AList.lookup_insert_ne hk]
  -- a statement of the new store is an old one or the new one
  have hcases : ∀ k st, s'.statement? k = some st →
      s.statement? k = some st ∨ (k = c.seq ∧ st = st₀) := by
    intro k st hst
    by_cases hk : k = c.seq
    · subst hk
      rw [hnew] at hst
      exact .inr ⟨rfl, (Option.some.inj hst).symm⟩
    · rw [hold k hk] at hst
      exact .inl hst
  have hkeep : ∀ k st, s.statement? k = some st → s'.statement? k = some st := by
    intro k st hst
    have hk : k ≠ c.seq := by
      rintro rfl
      rw [hnone] at hst
      cases hst
    rw [hold k hk]
    exact hst
  have hlines : ∀ id, id ∈ st₀.lineIds → ∃ p, s.posting? id = some p ∧ p.isOpen := by
    intro id hid
    obtain ⟨l, hmem, rfl⟩ := List.mem_map.mp hid
    obtain ⟨prow, hlook, hopen, -⟩ := hready.opened l hmem
    exact ⟨prow.value, by rw [Store.posting?, hlook, Option.map_some], hopen⟩
  -- an old statement's line is filed, a new statement's line is open
  have hdisjoint : ∀ k st id, s.statement? k = some st → id ∈ st.lineIds → id ∉ st₀.lineIds := by
    intro k st id hst hid hid₀
    have hlt : k < s.top := by
      have hle := (hl.bounded k st hst).2
      have hne : k ≠ c.seq := by
        rintro rfl
        rw [hnone] at hst
        cases hst
      omega
    obtain ⟨p, hp, hseq⟩ := hl.filed k st id hst hlt hid
    obtain ⟨p', hp', hopen⟩ := hlines id hid₀
    have he : p = p' := Option.some.inj (hp.symm.trans hp')
    subst he
    unfold Posting.isOpen at hopen
    rw [hopen] at hseq
    cases hseq
  have hcarry : ∀ k, k ≤ s.top → s'.carryInto k = s.carryInto k := by
    intro k hk
    match k, hk with
    | 0, _ => rfl
    | 1, _ => rfl
    | k + 2, hk => simp only [Store.carryInto, hold (k + 1) (by omega)]
  refine ⟨hl.card, hl.reserved, hl.positive, ?_, ?_, ?_, ?_, ?_, ?_, ?_, ?_, ?_⟩
  · intro k h₁ h₂
    obtain ⟨st, hst⟩ := hl.filled k h₁ h₂
    exact ⟨st, hkeep k st hst⟩
  · intro k st hst
    rcases hcases k st hst with hst | ⟨rfl, -⟩
    · exact hl.bounded k st hst
    · have := hl.positive
      exact ⟨by omega, htop.le⟩
  · intro k st id hst hlt hid
    rcases hcases k st hst with hst | ⟨rfl, -⟩
    · exact hl.filed k st id hst hlt hid
    · exact absurd hlt (by rw [htop]; exact lt_irrefl _)
  · intro id k hfiled
    obtain ⟨st, hst, hid⟩ := hl.listed id k hfiled
    exact ⟨st, hkeep k st hst, hid⟩
  · intro k st l hst hmem
    rcases hcases k st hst with hst | ⟨-, rfl⟩
    · exact hl.booked k st l hst hmem
    · obtain ⟨prow, hlook, -, hbills⟩ := hready.opened l hmem
      exact ⟨prow.value, by simp only [Store.posting?, hlook, Option.map_some], hbills⟩
  · intro k st hst
    rcases hcases k st hst with hst | ⟨-, rfl⟩
    · exact hl.nodup k st hst
    · exact hready.nodup
  · intro k k' st st' id hst hst' hid hid'
    rcases hcases k st hst with hst | ⟨rfl, rfl⟩
    · rcases hcases k' st' hst' with hst' | ⟨rfl, rfl⟩
      · exact hl.once k k' st st' id hst hst' hid hid'
      · exact absurd hid' (hdisjoint k st id hst hid)
    · rcases hcases k' st' hst' with hst' | ⟨rfl, -⟩
      · exact absurd hid (hdisjoint k' st' id hst' hid')
      · rfl
  · exact hl.carried.trans (hcarry _ le_rfl).symm
  · intro k st hst
    rcases hcases k st hst with hst | ⟨rfl, rfl⟩
    · obtain ⟨hnum, htotals⟩ := hl.computed k st hst
      refine ⟨hnum, ?_⟩
      rw [hcarry k (hl.bounded k st hst).2]
      exact htotals
    · refine ⟨rfl, ?_⟩
      rw [hcarry _ htop.le, ← hcar]
      rfl

theorem Evolves.setStatement {row : Row StatementRecord} {k : Nat}
    (hkeep : ∀ st, s.statement? k = some st → row.value.statement = st) :
    Evolves s { s with statements := s.statements.insert k row } :=
  { Evolves.refl s with
    statements := by
      intro j st hst
      by_cases hj : j = k
      · subst hj
        simp only [Store.statement?, AList.lookup_insert, Option.map_some]
        rw [hkeep st hst]
      · simp only [Store.statement?, AList.lookup_insert_ne hj]
        exact hst }

/-- A statement row whose billed contents stay the same. -/
theorem Ledger.touchStatement (hl : Ledger s) (seq : Nat) (state : StatementState)
    (updated : Nat) :
    Ledger (touchStatement s seq state updated) ∧
      Evolves s (touchStatement s seq state updated) := by
  unfold Backend.touchStatement
  cases hrow : s.statements.lookup seq with
  | none => exact ⟨hl, Evolves.refl s⟩
  | some row =>
    let row' : Row StatementRecord := ⟨row.rev + 1, { row.value with state := state }, updated⟩
    let s' : Store := { s with statements := s.statements.insert seq row' }
    change Ledger s' ∧ Evolves s s'
    have hsame : ∀ k, s'.statement? k = s.statement? k := by
      intro k
      by_cases hk : k = seq
      · subst hk
        simp only [s', row', Store.statement?, AList.lookup_insert, Option.map_some, hrow]
      · simp only [s', Store.statement?, AList.lookup_insert_ne hk]
    have hcarry : ∀ k, s'.carryInto k = s.carryInto k := by
      intro k
      match k with
      | 0 => rfl
      | 1 => rfl
      | k + 2 => simp only [Store.carryInto, hsame]
    refine ⟨⟨hl.card, hl.reserved, hl.positive, ?_, ?_, ?_, ?_, ?_, ?_, ?_, ?_, ?_⟩, ?_⟩
    · simp only [hsame]
      exact hl.filled
    · simp only [hsame]
      exact hl.bounded
    · simp only [hsame]
      exact hl.filed
    · simp only [hsame]
      exact hl.listed
    · simp only [hsame]
      exact hl.booked
    · simp only [hsame]
      exact hl.nodup
    · simp only [hsame]
      exact hl.once
    · rw [hcarry]
      exact hl.carried
    · simp only [hsame, hcarry]
      exact hl.computed
    · refine Evolves.setStatement fun st hst => ?_
      simp only [Store.statement?, hrow, Option.map_some, Option.some.injEq] at hst
      exact hst

/-- Another writer of the card row leaves the billing part alone. -/
theorem Ledger.touchCard (hl : Ledger s) (updated : Nat) :
    Ledger (touchCard s updated) ∧ Evolves s (touchCard s updated) := by
  obtain ⟨row, hrow⟩ := Option.isSome_iff_exists.mp hl.card
  have hbilling : s.billing = row.value := by
    simp only [Store.billing, hrow, Option.map_some, Option.getD_some]
  have heq : Backend.touchCard s updated =
      { s with card := some ⟨row.rev + 1, row.value, updated⟩ } := by
    simp only [Backend.touchCard, hrow, Option.map_some]
  have htop : s.top = row.value.top := by rw [Store.top, hbilling]
  rw [heq]
  refine ⟨hl.setCard ?_ htop.le ?_ ?_, Evolves.setCard ?_ htop.le⟩
  · rw [← hbilling]
    exact hl.reserved
  · intro k h₁ h₂
    rw [htop] at h₁
    exact absurd h₂ (Nat.not_lt.mpr h₁)
  · have hcar := hl.carried
    rw [hbilling, htop] at hcar
    exact hcar
  · rw [hrow]
    rintro r hr
    cases hr
    exact ⟨_, rfl, .inr (Nat.lt_succ_self _)⟩

/-- A new posting is open and on no statement. -/
theorem Ledger.recordPosting (hl : Ledger s) (id : Hash) (label : StepLabel) (amount : Nat)
    (feeBps : Option Nat) (postedAt updated : Nat) :
    Ledger (recordPosting id label amount feeBps postedAt updated s) ∧
      Evolves s (recordPosting id label amount feeBps postedAt updated s) := by
  unfold Backend.recordPosting
  split
  · exact ⟨hl, Evolves.refl s⟩
  rename_i kind exception _
  split
  · exact ⟨hl, Evolves.refl s⟩
  rcases put_create s.postings id ⟨kind, amount, feeBps, postedAt, exception, none⟩ updated with
    ⟨hnone, hput⟩ | ⟨r, -, hput⟩
  · rw [hput]
    let row' : Row Posting := ⟨1, ⟨kind, amount, feeBps, postedAt, exception, none⟩, updated⟩
    let s' : Store := { s with postings := s.postings.insert id row' }
    have hne : ∀ j row, s.postings.lookup j = some row → j ≠ id := by
      rintro j row hj rfl
      rw [hnone] at hj
      cases hj
    have hlook : ∀ j row, s.postings.lookup j = some row → s'.postings.lookup j = some row := by
      intro j row hj
      simp only [s', AList.lookup_insert_ne (hne j row hj)]
      exact hj
    have hposting : ∀ j p, s.posting? j = some p → s'.posting? j = some p := by
      intro j p hj
      obtain ⟨row, hrow, rfl⟩ := Option.map_eq_some_iff.mp hj
      simp only [Store.posting?, hlook j row hrow, Option.map_some]
    have hfiled : ∀ j k, s'.FiledUnder j k → s.FiledUnder j k := by
      rintro j k ⟨p, hp, hseq⟩
      by_cases hj : j = id
      · subst hj
        simp only [s', row', Store.posting?, AList.lookup_insert, Option.map_some,
          Option.some.injEq] at hp
        subst hp
        cases hseq
      · refine ⟨p, ?_, hseq⟩
        simpa only [s', Store.posting?, AList.lookup_insert_ne hj] using hp
    refine ⟨⟨hl.card, hl.reserved, hl.positive, hl.filled, hl.bounded, ?_, ?_, ?_, hl.nodup,
      hl.once, hl.carried, hl.computed⟩, ⟨Newer.refl _, le_rfl, fun _ _ h => h, ?_, ?_, ?_⟩⟩
    · intro k st j hst hlt hj
      obtain ⟨p, hp, hseq⟩ := hl.filed k st j hst hlt hj
      exact ⟨p, hposting j p hp, hseq⟩
    · intro j k hj
      exact hl.listed j k (hfiled j k hj)
    · intro k st l hst hmem
      obtain ⟨p, hp, hbills⟩ := hl.booked k st l hst hmem
      exact ⟨p, hposting _ p hp, hbills⟩
    · refine insert_newer ?_
      rw [hnone]
      intro r hr
      cases hr
    · rintro j k ⟨p, hp, hseq⟩
      exact ⟨p, hposting j p hp, hseq⟩
    · intro j row hj _
      exact .inl (hlook j row hj)
  · rw [hput]
    exact ⟨hl, Evolves.refl s⟩

/-- Filing a posting under the stored statement that lists it. -/
theorem Ledger.refile (hl : Ledger s) {id : Hash} {k : Nat} {st : Statement} {row : Row Posting}
    (hk : k ≤ s.top) (hst : s.statement? k = some st) (hid : id ∈ st.lineIds)
    (hrow : s.postings.lookup id = some row) (updated : Nat) :
    let row' : Row Posting := ⟨row.rev + 1, { row.value with statementSeq := some k }, updated⟩
    let s' : Store := { s with postings := s.postings.insert id row' }
    Ledger s' ∧ Evolves s s' ∧ s'.FiledUnder id k := by
  intro row' s'
  have hself : s'.posting? id = some { row.value with statementSeq := some k } := by
    simp only [s', row', Store.posting?, AList.lookup_insert, Option.map_some]
  have hother : ∀ j, j ≠ id → s'.posting? j = s.posting? j := by
    intro j hj
    simp only [s', Store.posting?, AList.lookup_insert_ne hj]
  have hwas : s.posting? id = some row.value := by
    simp only [Store.posting?, hrow, Option.map_some]
  -- if the posting was filed before, it was under the same statement
  have hsame : ∀ j, s.FiledUnder id j → j = k := by
    intro j hj
    obtain ⟨st', hst', hid'⟩ := hl.listed id j hj
    exact hl.once j k st' st id hst' hst hid' hid
  have hfiled : s'.FiledUnder id k := ⟨_, hself, rfl⟩
  have hup : ∀ j i, s.FiledUnder j i → s'.FiledUnder j i := by
    intro j i hj
    by_cases he : j = id
    · subst he
      rw [hsame i hj]
      exact hfiled
    · obtain ⟨p, hp, hseq⟩ := hj
      exact ⟨p, (hother j he).trans hp, hseq⟩
  refine ⟨⟨hl.card, hl.reserved, hl.positive, hl.filled, hl.bounded, ?_, ?_, ?_, hl.nodup,
    hl.once, hl.carried, hl.computed⟩, ⟨Newer.refl _, le_rfl, fun _ _ h => h, ?_, hup, ?_⟩,
    hfiled⟩
  · intro j st' i hst' hlt hi
    exact hup i j (hl.filed j st' i hst' hlt hi)
  · rintro j i ⟨p, hp, hseq⟩
    by_cases he : j = id
    · subst he
      rw [hself, Option.some.injEq] at hp
      subst hp
      cases hseq
      exact ⟨st, hst, hid⟩
    · rw [hother j he] at hp
      exact hl.listed j i ⟨p, hp, hseq⟩
  · intro j st' l hst' hmem
    obtain ⟨p, hp, hbills⟩ := hl.booked j st' l hst' hmem
    by_cases he : l.eventId = id
    · rw [he] at hp ⊢
      rw [hwas, Option.some.injEq] at hp
      subst hp
      exact ⟨_, hself, hbills.kind, hbills.amount, hbills.postedAt, hbills.cut⟩
    · exact ⟨p, (hother _ he).trans hp, hbills⟩
  · refine insert_newer ?_
    rw [hrow]
    rintro r hr
    cases hr
    exact ⟨_, rfl, .inr (Nat.lt_succ_self _)⟩
  · intro j prow hj hopen
    by_cases he : j = id
    · subst he
      rw [hrow, Option.some.injEq] at hj
      subst hj
      -- an open posting cannot be listed below the top
      refine .inr ⟨st, ?_⟩
      by_cases hlt : k < s.top
      · obtain ⟨p, hp, hseq⟩ := hl.filed k st j hst hlt hid
        rw [hwas, Option.some.injEq] at hp
        subst hp
        unfold Posting.isOpen at hopen
        rw [hopen] at hseq
        cases hseq
      · have htop : k = s.top := by omega
        rw [← htop]
        exact hst
    · simp only [s', AList.lookup_insert_ne he]
      exact .inl hj

theorem Store.billing_eq {row : Row Billing} (hcard : s.card = some row) :
    s.billing = row.value := by
  simp only [Store.billing, hcard, Option.map_some, Option.getD_some]

theorem newer_of_card {row : Row Billing} (hcard : s.card = some row) (v : Billing)
    (updated : Nat) : Newer s.card (some ⟨row.rev + 1, v, updated⟩) := by
  rw [hcard]
  rintro r hr
  cases hr
  exact ⟨_, rfl, .inr (Nat.lt_succ_self row.rev)⟩

/-- Reserving keeps the number the card is at. -/
theorem Ledger.reserve (hl : Ledger s) {row : Row Billing} (hcard : s.card = some row)
    (kind : CloseKind) (cut : Nat) (op : Option Hash) (updated : Nat) :
    let s' : Store :=
      { s with card := some ⟨row.rev + 1, (row.value.reserve kind cut op).1, updated⟩ }
    Ledger s' ∧ Evolves s s' ∧ Known s' (row.value.reserve kind cut op).2 := by
  intro s'
  have hb := Store.billing_eq hcard
  have hreserved := hl.reserved
  have hcarried := hl.carried
  have hpos := hl.positive
  rw [hb] at hreserved hcarried
  rw [Store.top, hb] at hcarried hpos
  have htop : s.top = (row.value.reserve kind cut op).1.top := by
    rw [Store.top, hb]
    unfold Billing.reserve Billing.top
    cases hclosing : row.value.closing with
    | none => rfl
    | some c => simp only [hclosing]
  have hstay : ∀ k, s.top ≤ k → ¬ k < (row.value.reserve kind cut op).1.top := by
    intro k hk
    rw [← htop]
    exact Nat.not_lt.mpr hk
  have hseq : (row.value.reserve kind cut op).2.seq = s.top := by
    rw [Store.top, hb]
    unfold Billing.reserve Billing.top
    cases hclosing : row.value.closing with
    | none => rfl
    | some c => rfl
  have hnew := newer_of_card hcard (row.value.reserve kind cut op).1 updated
  refine ⟨hl.setCard ?_ htop.le (fun k hk h => absurd h (hstay k hk)) ?_,
    Evolves.setCard hnew htop.le, ?_, ?_⟩
  · unfold Billing.reserve
    cases hclosing : row.value.closing with
    | none =>
      intro c hc
      cases hc
      rfl
    | some c₀ => exact hreserved
  · have hsame : (row.value.reserve kind cut op).1.carried = row.value.carried := by
      unfold Billing.reserve
      cases row.value.closing with
      | none => rfl
      | some c => rfl
    change (row.value.reserve kind cut op).1.carried = s.carryInto _
    rw [hsame, hcarried, ← htop, Store.top, hb]
  · rw [hseq]
    exact hl.positive
  · rw [hseq]
    exact htop.le

theorem forward_lt (st : Statement) : st.forward < CENTS_LIMIT := by
  unfold Statement.forward
  cases h : parseCents st.totals.creditForward with
  | none => decide
  | some n =>
    unfold parseCents at h
    split at h
    · split at h
      · cases h
        assumption
      · cases h
    · cases h

/-- Clearing gives the number back, or moves past a complete statement with its
credit. -/
theorem Ledger.clear (hl : Ledger s) {row : Row Billing} {c : Closing} {forward : Option Nat}
    (hcard : s.card = some row) (hcarries : Carries s c forward) (updated : Nat) :
    let s' : Store := { s with card := some ⟨row.rev + 1, row.value.clear c forward, updated⟩ }
    Ledger s' ∧ Evolves s s' := by
  intro s'
  have hb := Store.billing_eq hcard
  have hreserved := hl.reserved
  have hcarried := hl.carried
  rw [hb] at hreserved hcarried
  have hnew := newer_of_card hcard (row.value.clear c forward) updated
  by_cases hseq : row.value.closing.map Closing.seq = some c.seq
  · obtain ⟨c₀, hclosing, hc₀⟩ := Option.map_eq_some_iff.mp hseq
    have htop : s.top = c.seq := by
      rw [Store.top, hb, Billing.top, hclosing]
      exact hc₀
    have hnext : row.value.nextSeq = some (c.seq + 1) := by
      rw [hreserved c₀ hclosing, hc₀]
    cases forward with
    | none =>
      have hclear : (row.value.clear c none).top = s.top := by
        simp only [Billing.clear, hseq, hnext, Billing.top, ne_eq, not_true_eq_false, if_false,
          and_self, if_true, Option.getD_some, htop]
      have hsame : (row.value.clear c none).carried = row.value.carried := by
        simp only [Billing.clear, hseq, ne_eq, not_true_eq_false, if_false, Billing.carried,
          Option.elim_none]
      refine ⟨hl.setCard ?_ hclear.ge ?_ ?_, Evolves.setCard hnew hclear.ge⟩
      · intro c' hc'
        simp only [Billing.clear, hseq, ne_eq, not_true_eq_false, if_false, reduceCtorEq] at hc'
      · intro k h₁ h₂
        change k < (row.value.clear c none).top at h₂
        omega
      · change (row.value.clear c none).carried = s.carryInto (row.value.clear c none).top
        rw [hsame, hclear]
        exact hcarried
    | some f =>
      obtain ⟨st, hf, hrest⟩ := hcarries f rfl
      have hclear : (row.value.clear c (some f)).top = s.top + 1 := by
        simp only [Billing.clear, hseq, hnext, Billing.top, ne_eq, not_true_eq_false, if_false,
          reduceCtorEq, false_and, Option.getD_some, htop]
      have hforward : (row.value.clear c (some f)).carried = f := by
        simp only [Billing.clear, hseq, ne_eq, not_true_eq_false, if_false, Billing.carried,
          Option.elim_some, Option.bind_some]
        rw [parseCents_natCast (hf ▸ forward_lt st), Option.getD_some]
      have hcarry : s.carryInto (s.top + 1) = st.forward := by
        have hpos := hl.positive
        obtain ⟨n, hn⟩ : ∃ n, s.top = n + 1 := ⟨s.top - 1, by omega⟩
        have hst := hrest.stored
        rw [← htop, hn] at hst
        rw [hn]
        simp only [Store.carryInto, hst, Option.map_some, Option.getD_some]
      refine ⟨hl.setCard ?_ (by rw [hclear]; omega) ?_ ?_,
        Evolves.setCard hnew (by rw [hclear]; omega)⟩
      · intro c' hc'
        simp only [Billing.clear, hseq, ne_eq, not_true_eq_false, if_false, reduceCtorEq] at hc'
      · intro k h₁ h₂
        change k < (row.value.clear c (some f)).top at h₂
        have hk : k = c.seq := by omega
        subst hk
        refine ⟨st, hrest.stored, fun id hid => ?_⟩
        rcases hrest.rest id hid with h | h
        · cases h
        · exact h
      · change (row.value.clear c (some f)).carried = s.carryInto (row.value.clear c (some f)).top
        rw [hforward, hclear, hcarry, hf]
  · -- the reservation is another one: only the revision moves
    have hsame : row.value.clear c forward = row.value := by
      simp only [Billing.clear, ne_eq, hseq, not_false_eq_true, if_true]
    have htop : s.top = row.value.top := by rw [Store.top, hb]
    refine ⟨hl.setCard ?_ ?_ ?_ ?_, Evolves.setCard hnew ?_⟩
    · rw [hsame]
      exact hreserved
    · rw [hsame]
      exact htop.le
    · intro k h₁ h₂
      rw [hsame] at h₂
      change k < row.value.top at h₂
      omega
    · rw [hsame, ← htop]
      exact hcarried
    · rw [hsame]
      exact htop.le

end Writes

end ChainPay.Backend
