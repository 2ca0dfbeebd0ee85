import ChainPay.Support.Sync
import Mathlib.Data.List.TakeWhile

/-!
What the tracker's rows add up to. A cursor promises that everything below `newest` is stored, and
that a walk in progress has left nothing above where it is; both promises survive growth of the
chain and the writes of other runs, since stored transactions stay stored.
-/

namespace ChainPay.Support
open ChainPay.Lib

/-! ## Histories -/

theorem dropWhile_suffix_mem {α : Type} {p : α → Bool} {l m : List α} (h : m <:+ l) :
    ∀ x ∈ m.dropWhile p, x ∈ l.dropWhile p := by
  obtain ⟨pre, rfl⟩ := h
  intro x hx
  induction pre with
  | nil => exact hx
  | cons y pre ih =>
    rw [List.cons_append, List.dropWhile_cons]
    split
    · exact ih
    · exact List.mem_cons_of_mem _ (List.mem_append_right _ ((List.dropWhile_sublist p).subset hx))

/-- What comes after the one entry with a signature. -/
theorem fromSig_split {pre post : List Entry} {e : Entry}
    (h : ((pre ++ e :: post).map (·.signature)).Nodup) :
    fromSig e.signature (pre ++ e :: post) = e :: post := by
  unfold fromSig
  induction pre with
  | nil => simp
  | cons x pre ih =>
    have hne : x.signature ≠ e.signature := by
      rw [List.cons_append, List.map_cons] at h
      intro heq
      refine (List.nodup_cons.mp h).1 ?_
      rw [heq]
      exact List.mem_map_of_mem (List.mem_append_right _ List.mem_cons_self)
    rw [List.cons_append, List.dropWhile_cons_of_pos (by simpa using hne)]
    rw [List.cons_append, List.map_cons] at h
    exact ih (List.nodup_cons.mp h).2

/-- Growth at the front leaves what is below a known signature. -/
theorem fromSig_suffix {h h' : List Entry} (hsuffix : h <:+ h')
    (hnodup : (h'.map (·.signature)).Nodup) {signature : String}
    (hmem : ∃ e ∈ h, e.signature = signature) : fromSig signature h' = fromSig signature h := by
  obtain ⟨e, he, rfl⟩ := hmem
  obtain ⟨pre, post, rfl⟩ := List.append_of_mem he
  obtain ⟨front, rfl⟩ := hsuffix
  rw [fromSig_split (hnodup.sublist ((List.suffix_append front _).sublist.map _)),
    ← List.append_assoc, fromSig_split (by rwa [List.append_assoc])]

theorem below_suffix {h h' : List Entry} (hsuffix : h <:+ h')
    (hnodup : (h'.map (·.signature)).Nodup) {signature : String}
    (hmem : ∃ e ∈ h, e.signature = signature) : below signature h' = below signature h := by
  rw [below, fromSig_suffix hsuffix hnodup hmem, below]

theorem fromSig_sub (signature : String) (h : List Entry) : fromSig signature h <:+ h :=
  List.dropWhile_suffix _

theorem below_sub (signature : String) (h : List Entry) : below signature h <:+ h :=
  (List.tail_suffix _).trans (fromSig_sub signature h)

/-! ## Stored transactions -/

section Tracker

variable (accounts : SupportAccounts)

/-- The rows that a transaction should have. -/
def expected (e : Entry) : List Row :=
  match parseSupportTx e.tx accounts with
  | none => []
  | some p => rowsOf p

/-- The stored rows of a signature. -/
def stored (rows : List Row) (signature : String) : List Row :=
  rows.filter fun r => r.signature = signature

/-- The transaction is stored, once. -/
def Done (s : Tracker) (e : Entry) : Prop := stored s.rows e.signature = expected accounts e

/-- A cursor's promises. -/
structure CursorOk (s : Tracker) (a : Asset) (c : SupportCursor) : Prop where
  newest : ∀ n ∈ c.newest, (∃ e ∈ history accounts s.chain a, e.signature = n) ∧
    ∀ e ∈ fromSig n (history accounts s.chain a), Done accounts s e
  top : ∀ p ∈ c.pending, ∃ e ∈ history accounts s.chain a, e.signature = p.top
  bottom : ∀ p ∈ c.pending, ∃ e ∈ history accounts s.chain a, e.signature = p.before
  between : ∀ p ∈ c.pending, ∀ e ∈ fromSig p.top (history accounts s.chain a),
    e ∈ below p.before (history accounts s.chain a) ∨ Done accounts s e

/-- The chain is as the RPC has it. -/
def Linked : List Entry → Prop
  | [] => True
  | e :: chain => e.Shown accounts ∧ (∀ f ∈ chain, f.signature ≠ e.signature) ∧
    (∀ a, e.before a = balance chain a) ∧ Linked chain

structure Sound (s : Tracker) : Prop where
  chain : Linked accounts s.chain
  rows : ∀ e ∈ s.chain, Done accounts s e ∨ stored s.rows e.signature = []
  known : ∀ r ∈ s.rows, ∃ e ∈ s.chain, e.signature = r.signature
  cursors : ∀ a, CursorOk accounts s a (s.cursors a)

/-- What every act may do: the chain grows, and what is stored stays stored. -/
structure Later (s s' : Tracker) : Prop where
  chain : s.chain <:+ s'.chain
  done : ∀ e ∈ s.chain, Done accounts s e → Done accounts s' e

/-- What a page has to account for: the rest of the walk, or the history from its first
signature on. -/
def region (c : SupportCursor) (page : List SignatureInfo) (h : List Entry) : List Entry :=
  match c.pending with
  | some p => below p.before h
  | none =>
    match page.head? with
    | some first => fromSig first.signature h
    | none => []

/-- A page that was answered for a cursor. -/
structure PageOk (s : Tracker) (a : Asset) (c : SupportCursor) (limit : Nat)
    (page : List SignatureInfo) : Prop where
  listed : ∀ i ∈ page, ∃ e ∈ history accounts s.chain a, e.info = i
  short : page.length < limit → ∀ e ∈ region c page (history accounts s.chain a),
    e.signature ∈ page.map (·.signature) ∨
      ∃ n ∈ c.newest, e ∈ fromSig n (history accounts s.chain a)
  full : ∀ last ∈ page.getLast?, ∀ e ∈ region c page (history accounts s.chain a),
    e.signature ∈ page.map (·.signature) ∨
      e ∈ below last.signature (history accounts s.chain a)

variable {accounts} {s s' : Tracker} {a : Asset} {c : SupportCursor}

theorem Linked.nodup {chain : List Entry} (h : Linked accounts chain) :
    (chain.map (·.signature)).Nodup := by
  induction chain with
  | nil => exact List.nodup_nil
  | cons e chain ih =>
    obtain ⟨-, hfresh, -, hrest⟩ := h
    refine List.nodup_cons.mpr ⟨fun hmem => ?_, ih hrest⟩
    obtain ⟨f, hf, hfe⟩ := List.mem_map.mp hmem
    exact hfresh f hf hfe

theorem Linked.shown {chain : List Entry} (h : Linked accounts chain) {e : Entry} (he : e ∈ chain) :
    e.Shown accounts := by
  induction chain with
  | nil => cases he
  | cons f chain ih =>
    rcases List.mem_cons.mp he with rfl | he
    · exact h.1
    · exact ih h.2.2.2 he

theorem history_nodup (h : Linked accounts s.chain) :
    ((history accounts s.chain a).map (·.signature)).Nodup :=
  h.nodup.sublist (List.filter_sublist.map _)

theorem Later.history (h : Later accounts s s') :
    history accounts s.chain a <:+ history accounts s'.chain a := by
  obtain ⟨front, hfront⟩ := h.chain
  unfold Support.history
  rw [← hfront, List.filter_append]
  exact List.suffix_append _ _

theorem Later.refl (s : Tracker) : Later accounts s s := ⟨List.suffix_refl _, fun _ _ h => h⟩

theorem Later.trans {r : Tracker} (h : Later accounts s s') (h' : Later accounts s' r) :
    Later accounts s r :=
  ⟨h.chain.trans h'.chain, fun e he hd => h'.done e (h.chain.subset he) (h.done e he hd)⟩

theorem mem_chain {e : Entry} (h : e ∈ history accounts s.chain a) : e ∈ s.chain :=
  List.mem_of_mem_filter h

/-- A cursor's promises are kept as things go on. -/
theorem CursorOk.later (h : CursorOk accounts s a c) (hl : Later accounts s s')
    (hs' : Linked accounts s'.chain) : CursorOk accounts s' a c := by
  have hsuffix := hl.history (a := a)
  have hnodup := history_nodup (a := a) hs'
  have hkeep : ∀ n, (∃ e ∈ history accounts s.chain a, e.signature = n) →
      ∃ e ∈ history accounts s'.chain a, e.signature = n :=
    fun n ⟨e, he, hn⟩ => ⟨e, hsuffix.subset he, hn⟩
  refine ⟨fun n hn => ?_, fun p hp => hkeep _ (h.top p hp), fun p hp => hkeep _ (h.bottom p hp),
    fun p hp => ?_⟩
  · obtain ⟨hmem, hdone⟩ := h.newest n hn
    refine ⟨hkeep n hmem, ?_⟩
    rw [fromSig_suffix hsuffix hnodup hmem]
    exact fun e he => hl.done e (mem_chain ((fromSig_sub _ _).subset he)) (hdone e he)
  · rw [fromSig_suffix hsuffix hnodup (h.top p hp), below_suffix hsuffix hnodup (h.bottom p hp)]
    intro e he
    rcases h.between p hp e he with hbelow | hdone
    · exact .inl hbelow
    · exact .inr (hl.done e (mem_chain ((fromSig_sub _ _).subset he)) hdone)

/-! ## Pages -/

variable {limit : Nat} {page : List SignatureInfo}

/-- The signatures of a page are known. -/
theorem PageOk.known (h : PageOk accounts s a c limit page) {i : SignatureInfo}
    (hi : i ∈ page) : ∃ e ∈ history accounts s.chain a, e.signature = i.signature := by
  obtain ⟨e, he, rfl⟩ := h.listed i hi
  exact ⟨e, he, rfl⟩

theorem region_later (hc : CursorOk accounts s a c)
    (h : PageOk accounts s a c limit page)
    (hl : Later accounts s s') (hs' : Linked accounts s'.chain) :
    region c page (history accounts s'.chain a) = region c page (history accounts s.chain a) := by
  have hsuffix := hl.history (a := a)
  have hnodup := history_nodup (a := a) hs'
  unfold region
  cases hp : c.pending with
  | some p => exact below_suffix hsuffix hnodup (hc.bottom p hp)
  | none =>
    cases hfirst : page.head? with
    | none => rfl
    | some first => exact fromSig_suffix hsuffix hnodup (h.known (List.mem_of_mem_head? hfirst))

theorem PageOk.later (h : PageOk accounts s a c limit page)
    (hc : CursorOk accounts s a c) (hl : Later accounts s s') (hs' : Linked accounts s'.chain) :
    PageOk accounts s' a c limit page := by
  have hsuffix := hl.history (a := a)
  have hnodup := history_nodup (a := a) hs'
  have hregion := region_later hc h hl hs'
  refine ⟨fun i hi => ?_, fun hshort e he => ?_, fun last hlast e he => ?_⟩
  · obtain ⟨e, he, hei⟩ := h.listed i hi
    exact ⟨e, hsuffix.subset he, hei⟩
  · rw [hregion] at he
    rcases h.short hshort e he with hin | ⟨n, hn, hbelow⟩
    · exact .inl hin
    · refine .inr ⟨n, hn, ?_⟩
      rw [fromSig_suffix hsuffix hnodup (hc.newest n hn).1]
      exact hbelow
  · rw [hregion] at he
    rw [below_suffix hsuffix hnodup (h.known (List.mem_of_getLast? hlast))]
    exact h.full last hlast e he

/-- A page as the RPC answers it for a cursor. -/
theorem page_ok (hs : Linked accounts s.chain) :
    PageOk accounts s a c limit
      (signaturesFor (history accounts s.chain a) (planPage c) limit) := by
  have hnodup := history_nodup (a := a) hs
  obtain ⟨h, hh⟩ : ∃ h, h = history accounts s.chain a := ⟨_, rfl⟩
  -- the part of the history that is asked for, and what is answered of it
  obtain ⟨base, hbase⟩ : ∃ base, base = (planPage c).before.elim h fun b => below b h :=
    ⟨_, rfl⟩
  obtain ⟨seg, hseg⟩ : ∃ seg, seg = base.takeWhile fun e => some e.signature ≠ c.newest := ⟨_, rfl⟩
  have hpage : signaturesFor h (planPage c) limit = (seg.take limit).map Entry.info := by
    rw [hseg, hbase]
    unfold signaturesFor
    cases (planPage c).before <;> rfl
  have hsuffix : base <:+ h := by
    rw [hbase]
    cases (planPage c).before with
    | none => exact List.suffix_refl _
    | some b => exact below_sub b h
  have hpre : seg.take limit <+: base :=
    (List.take_prefix limit seg).trans (hseg ▸ List.takeWhile_prefix _)
  have hregion : ∀ page, ∀ e ∈ region c page h, e ∈ base := by
    intro page e he
    unfold region at he
    rw [hbase, planPage]
    cases hp : c.pending with
    | some p =>
      rw [hp] at he
      exact he
    | none =>
      rw [hp] at he
      cases hf : page.head? with
      | none =>
        rw [hf] at he
        cases he
      | some first =>
        rw [hf] at he
        exact (fromSig_sub _ _).subset he
  have hsigs : (seg.take limit).map (·.signature) =
      ((seg.take limit).map Entry.info).map (·.signature) := by
    rw [List.map_map]
    rfl
  rw [← hh] at hnodup ⊢
  rw [hpage]
  refine ⟨fun i hi => ?_, fun hshort e he => ?_, fun last hlast e he => ?_⟩
  · obtain ⟨e, he, rfl⟩ := List.mem_map.mp hi
    exact ⟨e, hh ▸ hsuffix.subset (hpre.subset he), rfl⟩
  · rw [← hh] at he ⊢
    rw [List.length_map, List.length_take] at hshort
    have hwhole : seg.take limit = seg := List.take_of_length_le (by omega)
    rw [← hsigs, hwhole]
    have hmem := hregion _ e he
    rw [← List.takeWhile_append_dropWhile (p := fun e : Entry => some e.signature ≠ c.newest)
      (l := base), ← hseg] at hmem
    rcases List.mem_append.mp hmem with hin | hout
    · exact .inl (List.mem_map_of_mem hin)
    · cases hn : c.newest with
      | none =>
        have hnil : (base.dropWhile fun e => some e.signature ≠ c.newest) = [] :=
          List.dropWhile_eq_nil_iff.mpr (by simp [hn])
        rw [hnil] at hout
        cases hout
      | some n =>
        refine .inr ⟨n, rfl, ?_⟩
        rw [hn] at hout
        have hout : e ∈ base.dropWhile fun e => e.signature ≠ n := by simpa using hout
        exact dropWhile_suffix_mem hsuffix e hout
  · rw [← hh] at he ⊢
    rw [← hsigs]
    have hmem := hregion _ e he
    obtain ⟨rest, hrest⟩ := hpre
    obtain ⟨pre, hpre⟩ := hsuffix
    rw [List.getLast?_map] at hlast
    obtain ⟨l, hl, rfl⟩ := Option.map_eq_some_iff.mp hlast
    obtain ⟨q, hq⟩ := List.getLast?_eq_some_iff.mp hl
    rw [← hrest] at hmem
    rcases List.mem_append.mp hmem with hin | hout
    · exact .inl (List.mem_map_of_mem hin)
    · right
      have hsplit : h = (pre ++ q) ++ l :: rest := by
        rw [← hpre, ← hrest, hq]
        simp
      rw [hsplit] at hnodup
      rw [below, Entry.info, hsplit, fromSig_split hnodup]
      exact hout

/-- A cursor that says that everything from `top` on is stored. -/
theorem finished_ok {top : String} (hknown : ∃ e ∈ history accounts s.chain a, e.signature = top)
    (hdone : ∀ e ∈ fromSig top (history accounts s.chain a), Done accounts s e) :
    CursorOk accounts s a ⟨some top, none⟩ where
  newest := by
    rintro n ⟨⟩
    exact ⟨hknown, hdone⟩
  top := fun _ hp => nomatch hp
  bottom := fun _ hp => nomatch hp
  between := fun _ hp => nomatch hp

/-- **The cursor moves.** Once a page is stored, the next cursor's promises hold. -/
theorem advance_ok (hc : CursorOk accounts s a c) (hp : PageOk accounts s a c limit page)
    (hlimit : 1 ≤ limit)
    (hdone : ∀ e ∈ history accounts s.chain a, e.signature ∈ page.map (·.signature) →
      Done accounts s e) : CursorOk accounts s a (advanceCursor c page limit) := by
  -- what a short page accounts for is stored
  have hshort : page.length < limit → ∀ e ∈ region c page (history accounts s.chain a),
      e ∈ history accounts s.chain a → Done accounts s e := by
    intro hlen e he hmem
    rcases hp.short hlen e he with hin | ⟨n, hn, hbelow⟩
    · exact hdone e hmem hin
    · exact (hc.newest n hn).2 e hbelow
  cases page with
  | nil =>
    cases hpend : c.pending with
    | none =>
      have hsame : advanceCursor c [] limit = c := by simp [advanceCursor, hpend]
      rw [hsame]
      exact hc
    | some p =>
      have hnext : advanceCursor c [] limit = ⟨some p.top, none⟩ := by simp [advanceCursor, hpend]
      rw [hnext]
      refine finished_ok (hc.top p hpend) fun e he => ?_
      rcases hc.between p hpend e he with hbelow | hd
      · refine hshort hlimit e ?_ ((fromSig_sub _ _).subset he)
        rw [region, hpend]
        exact hbelow
      · exact hd
  | cons first rest =>
    obtain ⟨last, hlast⟩ : ∃ last, (first :: rest).getLast? = some last :=
      ⟨_, List.getLast?_eq_some_getLast (List.cons_ne_nil _ _)⟩
    obtain ⟨top, htop⟩ : ∃ top, top = (c.pending.map (·.top)).getD first.signature := ⟨_, rfl⟩
    have hknown : ∃ e ∈ history accounts s.chain a, e.signature = top := by
      rw [htop]
      cases hpend : c.pending with
      | none => exact hp.known List.mem_cons_self
      | some p => exact hc.top p hpend
    have hall : ∀ e ∈ fromSig top (history accounts s.chain a),
        e ∈ region c (first :: rest) (history accounts s.chain a) ∨ Done accounts s e := by
      intro e he
      rw [htop] at he
      unfold region
      cases hpend : c.pending with
      | none =>
        rw [hpend] at he
        exact .inl he
      | some p =>
        rw [hpend] at he
        exact hc.between p hpend e he
    by_cases hlen : (first :: rest).length < limit
    · have hnext : advanceCursor c (first :: rest) limit = ⟨some top, none⟩ := by
        simp only [advanceCursor, List.head?_cons, hlast, if_pos hlen, htop]
      rw [hnext]
      refine finished_ok hknown fun e he => ?_
      rcases hall e he with hin | hd
      · exact hshort hlen e hin ((fromSig_sub _ _).subset he)
      · exact hd
    · have hnext : advanceCursor c (first :: rest) limit =
          ⟨c.newest, some ⟨top, last.signature⟩⟩ := by
        simp only [advanceCursor, List.head?_cons, hlast, if_neg hlen, htop]
      rw [hnext]
      refine ⟨hc.newest, ?_, ?_, ?_⟩
      · rintro p ⟨⟩
        exact hknown
      · rintro p ⟨⟩
        exact hp.known (List.mem_of_getLast? hlast)
      · rintro p ⟨⟩ e he
        rcases hall e he with hin | hd
        · rcases hp.full last hlast e hin with hpage | hbelow
          · exact .inr (hdone e ((fromSig_sub _ _).subset he) hpage)
          · exact .inl hbelow
        · exact .inr hd

/-! ## Writes -/

theorem stored_rowsOf (p : ParsedSupportTx) (signature : String) :
    stored (rowsOf p) signature = if p.signature.getD "" = signature then rowsOf p else [] := by
  unfold stored rowsOf
  split
  · rename_i h
    refine List.filter_eq_self.mpr fun r hr => ?_
    obtain ⟨x, -, rfl⟩ := List.mem_map.mp hr
    exact decide_eq_true h
  · rename_i h
    refine List.filter_eq_nil_iff.mpr fun r hr => ?_
    obtain ⟨x, -, rfl⟩ := List.mem_map.mp hr
    simpa using h

/-- The rows of a signature after a write. -/
theorem stored_upsert (rows : List Row) (p : ParsedSupportTx) (signature : String) :
    stored (upsertRows rows p) signature =
      if p.signature.getD "" = signature then rowsOf p else stored rows signature := by
  have hsplit : stored (upsertRows rows p) signature =
      stored (rows.filter fun r => r.signature ≠ p.signature.getD "") signature ++
        stored (rowsOf p) signature := List.filter_append ..
  rw [hsplit, stored_rowsOf]
  unfold stored
  rw [List.filter_filter]
  split
  · rename_i h
    have hnone : (rows.filter fun r => decide (r.signature = signature) &&
        decide (r.signature ≠ p.signature.getD "")) = [] := by
      refine List.filter_eq_nil_iff.mpr fun r _ => ?_
      rw [h]
      simp
    rw [hnone, List.nil_append]
  · rename_i h
    rw [List.append_nil]
    refine List.filter_congr fun r _ => ?_
    by_cases hr : r.signature = signature
    · simp [hr, Ne.symm h]
    · simp [hr]

/-- What the transaction of an entry is stored as. -/
theorem expected_eq {e : Entry} (he : e.Shown accounts) {p : ParsedSupportTx}
    (hp : parseSupportTx e.tx accounts = some p) :
    expected accounts e = rowsOf p ∧ p.signature.getD "" = e.signature := by
  refine ⟨by rw [expected, hp], ?_⟩
  have hsig := he.signature
  obtain ⟨m, hm, -⟩ := he.details
  unfold parseSupportTx at hp
  rw [hm] at hp
  dsimp only at hp
  split at hp
  · cases hp
  · cases hp
    rw [hsig]
    rfl

/-- A transaction is stored. -/
theorem Sound.upsert (h : Sound accounts s) {e : Entry} (he : e ∈ s.chain) {p : ParsedSupportTx}
    (hp : parseSupportTx e.tx accounts = some p) :
    let s' : Tracker := { s with rows := upsertRows s.rows p }
    Sound accounts s' ∧ Later accounts s s' ∧ Done accounts s' e := by
  intro s'
  obtain ⟨hexp, hsig⟩ := expected_eq (h.chain.shown he) hp
  have hmine : Done accounts s' e := by
    unfold Done
    rw [stored_upsert, if_pos hsig, hexp]
  have hothers : ∀ f ∈ s.chain, f.signature ≠ e.signature →
      stored s'.rows f.signature = stored s.rows f.signature := by
    intro f _ hne
    rw [stored_upsert, hsig, if_neg (Ne.symm hne)]
  have hsame : ∀ f ∈ s.chain, f.signature = e.signature → f = e :=
    fun f hf heq => List.inj_on_of_nodup_map h.chain.nodup hf he heq
  have hlater : Later accounts s s' := by
    refine ⟨List.suffix_refl _, fun f hf hd => ?_⟩
    by_cases heq : f.signature = e.signature
    · rw [hsame f hf heq]
      exact hmine
    · unfold Done
      rw [hothers f hf heq]
      exact hd
  refine ⟨⟨h.chain, fun f hf => ?_, fun r hr => ?_, fun a => (h.cursors a).later hlater h.chain⟩,
    hlater, hmine⟩
  · by_cases heq : f.signature = e.signature
    · rw [hsame f hf heq]
      exact .inl hmine
    · rw [Done, hothers f hf heq]
      exact h.rows f hf
  · rcases List.mem_append.mp hr with hr | hr
    · exact h.known r (List.mem_of_mem_filter hr)
    · obtain ⟨x, -, rfl⟩ := List.mem_map.mp hr
      exact ⟨e, he, hsig.symm⟩

/-- A transaction that stores nothing is stored. -/
theorem Sound.nothing (h : Sound accounts s) {e : Entry} (he : e ∈ s.chain)
    (hp : parseSupportTx e.tx accounts = none) : Done accounts s e := by
  rcases h.rows e he with hd | hnone
  · exact hd
  · rw [Done, hnone, expected, hp]

/-! ## Runs -/

variable (accounts) in
/-- Runs of the tracker keep it sound, and only move it on. -/
def discipline : Discipline Tracker Op Op.Ans Weather (Nat × Nat) Entry Stop Unit Unit where
  sys := tracker accounts
  terms := terms accounts
  Inv := Sound accounts
  Rely := Later accounts
  Fault := fun _ _ => True
  refl := Later.refl
  trans := Later.trans

/-- A page is stored, signature by signature. -/
theorem ingest_safe {b : Tracker} (hb : Sound accounts b) {sigs : List SignatureInfo}
    (hlisted : ∀ i ∈ sigs, ∃ e ∈ b.chain, e.info = i) :
    (discipline accounts).Safe (fun s _ _ => ∀ e ∈ b.chain, e.info ∈ sigs → Done accounts s e)
      (ingest accounts sigs) b () := by
  induction sigs generalizing b with
  | nil => exact fun _ _ he => nomatch he
  | cons sig sigs ih =>
    obtain ⟨e, he, rfl⟩ := hlisted sig List.mem_cons_self
    have hrest : ∀ i ∈ sigs, ∃ f ∈ b.chain, f.info = i :=
      fun i hi => hlisted i (List.mem_cons_of_mem _ hi)
    -- the signature's own transaction is stored, then the others
    have hgo : ∀ s, Sound accounts s → Later accounts b s → Done accounts s e →
        (discipline accounts).Safe
          (fun s _ _ => ∀ f ∈ b.chain, f.info ∈ e.info :: sigs → Done accounts s f)
          (ingest accounts sigs) s () := by
      intro s hs hl hd
      have hlisted' : ∀ i ∈ sigs, ∃ f ∈ s.chain, f.info = i := by
        intro i hi
        obtain ⟨f, hf, hfi⟩ := hrest i hi
        exact ⟨f, hl.chain.subset hf, hfi⟩
      refine ((ih hs hlisted').framed hs).mono ?_
      rintro r _ - ⟨hall, -, hlater⟩ f hf hmem
      rcases List.mem_cons.mp hmem with heq | hmem
      · have hfe : f = e := List.inj_on_of_nodup_map hb.chain.nodup hf he
          (congrArg SignatureInfo.signature heq)
        rw [hfe]
        exact hlater.done e (hl.chain.subset he) hd
      · exact hall f (hl.chain.subset hf) hmem
    unfold ingest
    by_cases herr : e.info.err.isSome = true
    · rw [if_pos herr]
      refine hgo b hb (Later.refl b) (hb.nothing he ?_)
      obtain ⟨m, hm, -⟩ := (hb.chain.shown he).details
      have hfailed : m.err.isSome = true := by
        rw [Entry.info, hm] at herr
        exact herr
      rw [parseSupportTx, hm]
      exact if_pos hfailed
    · rw [if_neg herr]
      intro s w hs hl _
      refine ⟨hs, Later.refl s, ?_⟩
      have hes : e ∈ s.chain := hl.chain.subset he
      have hfound : (s.chain.find? fun f => f.signature = e.info.signature) = some e := by
        obtain ⟨f, hf⟩ : ∃ f, (s.chain.find? fun f => f.signature = e.info.signature) = some f :=
          Option.isSome_iff_exists.mp (List.find?_isSome.mpr ⟨e, hes, decide_eq_true rfl⟩)
        have hsig : f.signature = e.info.signature := by simpa using List.find?_some hf
        rw [hf, List.inj_on_of_nodup_map hs.chain.nodup (List.mem_of_find?_eq_some hf) hes hsig]
      cases w with
      | failing => exact trivial
      | behind => exact trivial
      | fair =>
        have hanswer : (discipline accounts).sys.perform (.transaction e.info.signature) .fair s =
            (s, (some (some e.tx) : Option (Option RpcTransaction))) := by
          change (s, some ((s.chain.find? fun f => f.signature = e.info.signature).map (·.tx))) = _
          rw [hfound]
          rfl
        rw [hanswer]
        dsimp only
        cases hparse : parseSupportTx e.tx accounts with
        | none => exact hgo s hs hl (hs.nothing hes hparse)
        | some p =>
          intro r _ hr hlater _
          obtain ⟨hsound, hnext, hdone⟩ := hr.upsert (hlater.chain.subset hes) hparse
          exact ⟨hsound, hnext, hgo _ hsound (hl.trans (hlater.trans hnext)) hdone⟩

/-- A cursor is saved. -/
theorem Sound.setCursor (h : Sound accounts s) (hc : CursorOk accounts s a c) :
    let s' : Tracker := { s with cursors := fun b => if b = a then c else s.cursors b }
    Sound accounts s' ∧ Later accounts s s' := by
  refine ⟨⟨h.chain, h.rows, h.known, fun b => ?_⟩, List.suffix_refl _, fun _ _ hd => hd⟩
  dsimp only
  split
  · rename_i heq
    subst heq
    exact ⟨hc.newest, hc.top, hc.bottom, hc.between⟩
  · have hold := h.cursors b
    exact ⟨hold.newest, hold.top, hold.bottom, hold.between⟩

theorem walk_safe {b : Tracker} (hb : Sound accounts b) (hc : CursorOk accounts b a c)
    (hlimit : 1 ≤ limit) (n : Nat) :
    (discipline accounts).Safe (fun _ _ _ => True) (walk accounts a limit n c) b () := by
  induction n generalizing b c with
  | zero => exact trivial
  | succ n ih =>
    unfold walk
    intro s w hs hl _
    refine ⟨hs, Later.refl s, ?_⟩
    cases w with
    | failing => exact trivial
    | behind => exact trivial
    | fair =>
      have hanswer : (discipline accounts).sys.perform (.signatures a (planPage c) limit) .fair s =
          (s, (some (signaturesFor (history accounts s.chain a) (planPage c) limit) :
            Option (List SignatureInfo))) := rfl
      rw [hanswer]
      dsimp only
      have hpage : PageOk accounts s a c limit
          (signaturesFor (history accounts s.chain a) (planPage c) limit) := page_ok hs.chain
      have hcs := hc.later hl hs.chain
      generalize signaturesFor (history accounts s.chain a) (planPage c) limit = page at hpage
      have hlisted : ∀ i ∈ page, ∃ e ∈ s.chain, e.info = i := by
        intro i hi
        obtain ⟨e, he, hei⟩ := hpage.listed i hi
        exact ⟨e, mem_chain he, hei⟩
      refine (ingest_safe hs hlisted).seq hs fun r _ _ hdone hr hlr => ?_
      intro q _ hq hlq _
      have hlater := hlr.trans hlq
      have hpageq := hpage.later hcs hlater hq.chain
      have hnext : CursorOk accounts q a (advanceCursor c page limit) := by
        refine advance_ok (hcs.later hlater hq.chain) hpageq hlimit fun e he hmem => ?_
        obtain ⟨i, hi, hsig⟩ := List.mem_map.mp hmem
        obtain ⟨f, hf, rfl⟩ := hlisted i hi
        have hef : e = f := List.inj_on_of_nodup_map hq.chain.nodup (mem_chain he)
          (hlater.chain.subset hf) hsig.symm
        rw [hef]
        exact hlq.done f (hlr.chain.subset hf) (hdone f hf hi)
      obtain ⟨hsound, hmoved⟩ := hq.setCursor hnext
      refine ⟨hsound, hmoved, ?_⟩
      dsimp only
      split
      · exact trivial
      · exact ih hsound (hnext.later hmoved hsound.chain)

theorem walkAccount_safe {b : Tracker} (hlimit : 1 ≤ limit) (pages : Nat) :
    (discipline accounts).Safe (fun _ _ _ => True) (walkAccount accounts a limit pages) b () := by
  intro s _ hs _ _
  exact ⟨hs, Later.refl s, walk_safe hs (hs.cursors a) hlimit pages⟩

theorem rules : (discipline accounts).Rules fun _ _ _ => True where
  entry := by
    rintro ⟨limit, pages⟩ b hlimit hb s w hs _ _
    refine ⟨hs, Later.refl s, ?_⟩
    change (discipline accounts).Safe _ (if decide (w = .fair) = true then _ else _) s ()
    split
    · exact (walkAccount_safe hlimit pages).seq hs fun r _ _ _ _ _ => walkAccount_safe hlimit pages
    · exact trivial
  outside := by
    rintro e s ⟨hshown, hfresh, hbefore⟩ hs
    have hchain : Linked accounts (e :: s.chain) := ⟨hshown, hfresh, hbefore, hs.chain⟩
    have hlater : Later accounts s { s with chain := e :: s.chain } :=
      ⟨List.suffix_cons e s.chain, fun _ _ hd => hd⟩
    refine ⟨⟨hchain, fun f hf => ?_, fun r hr => ?_,
      fun a => (hs.cursors a).later hlater hchain⟩, hlater⟩
    · rcases List.mem_cons.mp hf with rfl | hf
      · right
        refine List.filter_eq_nil_iff.mpr fun r hr hsig => ?_
        obtain ⟨g, hg, hgr⟩ := hs.known r hr
        exact hfresh g hg (hgr.trans (of_decide_eq_true hsig))
      · exact hs.rows f hf
    · obtain ⟨g, hg, hgr⟩ := hs.known r hr
      exact ⟨g, List.mem_cons_of_mem _ hg, hgr⟩

theorem sound_initial : Sound accounts initial where
  chain := trivial
  rows := fun _ he => nomatch he
  known := fun _ hr => nomatch hr
  cursors := fun _ => ⟨fun _ hn => (nomatch hn), fun _ hp => (nomatch hp), fun _ hp => (nomatch hp),
    fun _ hp => (nomatch hp)⟩

/-! ## Totals -/

/-- What the rows add to the balance of an asset. -/
def netRows (asset : Asset) (rows : List Row) : Int := netOf asset (rows.map (·.event))

theorem netRows_cons (asset : Asset) (r : Row) (rows : List Row) :
    netRows asset (r :: rows) = r.event.value asset + netRows asset rows := by
  rw [netRows, List.map_cons, netOf, List.map_cons, List.sum_cons]
  rfl

/-- One of several values is the only one that counts. -/
theorem sum_single {xs : List String} (hnodup : xs.Nodup) {y : String} (hy : y ∈ xs) (v : Int) :
    (xs.map fun x => if y = x then v else 0).sum = v := by
  induction xs with
  | nil => cases hy
  | cons x xs ih =>
    obtain ⟨hnot, hrest⟩ := List.nodup_cons.mp hnodup
    rw [List.map_cons, List.sum_cons]
    by_cases hyx : y = x
    · have hzero : (xs.map fun x => if y = x then v else 0).sum = 0 := by
        refine List.sum_eq_zero fun w hw => ?_
        obtain ⟨z, hz, rfl⟩ := List.mem_map.mp hw
        exact if_neg fun hyz => hnot (by rw [← hyx, hyz]; exact hz)
      rw [if_pos hyx, hzero, Int.add_zero]
    · rw [if_neg hyx, Int.zero_add]
      exact ih hrest ((List.mem_cons.mp hy).resolve_left hyx)

/-- Rows can be added up signature by signature. -/
theorem netRows_by_signature (asset : Asset) {signatures : List String} (hnodup : signatures.Nodup)
    {rows : List Row} (h : ∀ r ∈ rows, r.signature ∈ signatures) :
    netRows asset rows = (signatures.map fun x => netRows asset (stored rows x)).sum := by
  induction rows with
  | nil => exact (List.sum_eq_zero (by simp [stored, netRows, netOf])).symm
  | cons r rows ih =>
    have hone : ∀ x, netRows asset (stored (r :: rows) x) =
        (if r.signature = x then r.event.value asset else 0) + netRows asset (stored rows x) := by
      intro x
      unfold stored
      by_cases hx : r.signature = x
      · rw [List.filter_cons_of_pos (by simpa using hx), netRows_cons, if_pos hx]
      · rw [List.filter_cons_of_neg (by simpa using hx), if_neg hx, Int.zero_add]
    rw [netRows_cons, ih fun x hx => h x (List.mem_cons_of_mem _ hx)]
    simp only [hone]
    rw [List.sum_map_add, sum_single hnodup (h r List.mem_cons_self)]

theorem netRows_rowsOf (asset : Asset) (p : ParsedSupportTx) :
    netRows asset (rowsOf p) = netOf asset p.events := by
  rw [netRows, rowsOf, List.map_map]
  congr 1
  exact List.zipIdx_map_fst 0 p.events

theorem big_units {amount : Option Amount} {n : Nat} (h : amount.map Amount.units = some n)
    (hn : n < 2 ^ 53) : big amount = n := by
  obtain ⟨v, rfl, rfl⟩ := Option.map_eq_some_iff.mp h
  cases v with
  | text n => rfl
  | number n =>
    change n < 2 ^ 53 at hn
    change ((nearestDouble n).getD 0).floor = (n : Int)
    rw [nearestDouble_nat hn, Option.getD_some]
    exact_mod_cast Rat.floor_intCast n

theorem tokenAmount_units {balances : Option (List TokenBalance)} {index n : Nat}
    (h : tokenUnits balances index = n) (hn : n < 2 ^ 53) : tokenAmount balances index = n := by
  unfold tokenUnits at h
  unfold tokenAmount
  cases hfound : (((balances.getD []).find? fun b => b.accountIndex = index).bind (·.amount)) with
  | none =>
    rw [hfound] at h
    rw [← h]
    rfl
  | some v =>
    rw [hfound] at h
    exact big_units (congrArg some h) hn

/-- What a transaction shows is what it changed. -/
theorem Entry.Shown.delta {e : Entry} (h : e.Shown accounts) {m : Meta}
    (hm : e.tx.details = some m) (hok : m.err.isSome = false) (asset : Asset) :
    balanceDelta e.tx m (accounts.holding asset) asset =
      (e.after asset : Int) - e.before asset := by
  obtain ⟨m', hm', hshown⟩ := h.details
  cases hm.symm.trans hm'
  have hasset := hshown asset
  rw [if_neg (by rw [hok]; decide)] at hasset
  obtain ⟨hbefore, hafter⟩ := h.bound asset
  unfold balanceDelta
  cases hk : keyIndex e.tx (accounts.holding asset) with
  | none =>
    rw [hk] at hasset
    dsimp only at hasset ⊢
    rw [hasset]
    exact (Int.sub_self _).symm
  | some index =>
    rw [hk] at hasset
    dsimp only at hasset ⊢
    cases asset with
    | sol => rw [big_units hasset.1 hbefore, big_units hasset.2 hafter]
    | usdc => rw [tokenAmount_units hasset.1 hbefore, tokenAmount_units hasset.2 hafter]

/-- A transaction does not change an account that it does not list. -/
theorem Entry.Shown.unlisted {e : Entry} (h : e.Shown accounts) {asset : Asset}
    (hlist : ¬ e.lists accounts asset = true) : e.after asset = e.before asset := by
  obtain ⟨m, -, hshown⟩ := h.details
  have hasset := hshown asset
  have hnone : keyIndex e.tx (accounts.holding asset) = none := by
    simpa [Entry.lists] using hlist
  rw [hnone] at hasset
  split at hasset
  · exact hasset
  · exact hasset

/-- What a stored transaction adds is what it changed. -/
theorem netRows_done {e : Entry} (he : e.Shown accounts) (hd : Done accounts s e) (asset : Asset) :
    netRows asset (stored s.rows e.signature) = (e.after asset : Int) - e.before asset := by
  rw [show stored s.rows e.signature = expected accounts e from hd, expected]
  obtain ⟨m, hm, hshown⟩ := he.details
  cases hp : parseSupportTx e.tx accounts with
  | some p =>
    have hok : m.err.isSome = false := by
      rw [parseSupportTx, hm] at hp
      dsimp only at hp
      split at hp
      · cases hp
      · rename_i herr
        exact Bool.eq_false_of_not_eq_true herr
    dsimp only
    rw [netRows_rowsOf, netOf_parse hm hp, he.delta hm hok]
  | none =>
    have hfailed : m.err.isSome = true := by
      rw [parseSupportTx, hm] at hp
      dsimp only at hp
      split at hp
      · assumption
      · cases hp
    have hsame := hshown asset
    rw [if_pos hfailed] at hsame
    rw [hsame]
    exact (Int.sub_self _).symm

/-- The changes of a chain add up to its balance. -/
theorem balance_eq {chain : List Entry} (h : Linked accounts chain) (asset : Asset) :
    (balance chain asset : Int) =
      (chain.map fun e => (e.after asset : Int) - e.before asset).sum := by
  induction chain with
  | nil => rfl
  | cons e chain ih =>
    obtain ⟨-, -, hbefore, hrest⟩ := h
    rw [List.map_cons, List.sum_cons, ← ih hrest, ← hbefore asset]
    simp [balance]

/-- The cursor has reached the end of the account's history. -/
def AtEnd (accounts : SupportAccounts) (s : Tracker) (a : Asset) : Prop :=
  (s.cursors a).pending = none ∧
    (s.cursors a).newest = (history accounts s.chain a).head?.map (·.signature)

/-- At the end of its history, everything of an account is stored. -/
theorem Sound.all_done (h : Sound accounts s) (hend : AtEnd accounts s a) :
    ∀ e ∈ history accounts s.chain a, Done accounts s e := by
  intro e he
  cases hh : history accounts s.chain a with
  | nil =>
    rw [hh] at he
    cases he
  | cons first rest =>
    have hnewest : (s.cursors a).newest = some first.signature := by rw [hend.2, hh]; rfl
    have hdone := ((h.cursors a).newest _ hnewest).2
    have hnodup := history_nodup (a := a) h.chain
    rw [hh] at hdone hnodup he
    have hwhole : fromSig first.signature (first :: rest) = first :: rest :=
      @fromSig_split [] rest first hnodup
    rw [hwhole] at hdone
    exact hdone e he

/-- **The tracker's totals.** -/
theorem Sound.totals (h : Sound accounts s) (hend : ∀ a, AtEnd accounts s a) (asset : Asset) :
    netRows asset s.rows = balance s.chain asset := by
  have hknown : ∀ r ∈ s.rows, r.signature ∈ s.chain.map (·.signature) := by
    intro r hr
    obtain ⟨e, he, hsig⟩ := h.known r hr
    exact List.mem_map.mpr ⟨e, he, hsig⟩
  rw [netRows_by_signature asset h.chain.nodup hknown, balance_eq h.chain, List.map_map]
  congr 1
  refine List.map_congr_left fun e he => ?_
  have hshown := h.chain.shown he
  rw [Function.comp_apply]
  by_cases hlist : e.lists accounts asset = true
  · exact netRows_done hshown (h.all_done (hend asset) e (List.mem_filter.mpr ⟨he, hlist⟩)) asset
  · -- it may be stored for the other account; it did not change this one
    rcases h.rows e he with hd | hnone
    · exact netRows_done hshown hd asset
    · have hsame : e.after asset = e.before asset := hshown.unlisted hlist
      rw [hnone, hsame]
      exact (Int.sub_self _).symm

end Tracker

/-- **The tracker follows the vault.** In every interleaving of runs over a growing chain, stopped at
any await: when a cursor has nothing pending, every transaction of its account up to `newest` is
stored exactly once; and when both cursors are at the end of their histories, contributions and
funding less payouts and anomalies are the balance of the vault, for each asset. -/
theorem tracker_totals (accounts : SupportAccounts) (acts : List (Act Weather (Nat × Nat) Entry))
    (hkept : (tracker accounts).Kept (terms accounts) (.init initial) acts) :
    let s := ((tracker accounts).run (.init initial) acts).store
    (∀ a n, (s.cursors a).pending = none → (s.cursors a).newest = some n →
      ∀ e ∈ fromSig n (history accounts s.chain a),
        stored s.rows e.signature = expected accounts e) ∧
    ((∀ a, AtEnd accounts s a) → ∀ asset, netRows asset s.rows = balance s.chain asset) := by
  intro s
  have hsound : Sound accounts s :=
    (Discipline.run_sound (D := discipline accounts) rules
      (Discipline.init_sound sound_initial) hkept).1.inv
  refine ⟨fun a n _ hn => ((hsound.cursors a).newest n hn).2, fun hend asset => ?_⟩
  exact hsound.totals hend asset

/-! ### Three tips -/

def sampleAccounts : SupportAccounts := ⟨"Splitter", "Vault", "VaultUsdc"⟩

def sampleTip (signature : String) (before after : Nat) : Entry where
  signature := signature
  tx :=
    { slot := 1
      blockTime := none
      details := some ⟨none, [.number before], [.number after], none, none, none, none⟩
      signatures := [signature]
      accountKeys := [⟨"Vault", some false⟩]
      instructions := [] }
  before := fun a => if a = .sol then before else 0
  after := fun a => if a = .sol then after else 0

/-- Runs `i` and `j` go on by turns. -/
def byTurns (i j n : Nat) : List (Act Weather (Nat × Nat) Entry) :=
  (List.replicate n [.go i .fair fun _ => 0, .go j .fair fun _ => 0]).flatten

/-- Two tips are finalized, and a run with pages of two signatures lists them. -/
def earlyActs : List (Act Weather (Nat × Nat) Entry) :=
  [.outside (sampleTip "tip1" 0 5), .outside (sampleTip "tip2" 5 12), .start (2, 5) fun _ => 0,
    .go 0 .fair fun _ => 0, .go 0 .fair fun _ => 0, .go 0 .fair fun _ => 0]

/-- A third tip is finalized, and a second run goes on by turns with the first. -/
def sampleActs : List (Act Weather (Nat × Nat) Entry) :=
  earlyActs ++ [.outside (sampleTip "tip3" 12 20), .start (2, 5) fun _ => 0] ++ byTurns 0 1 15

theorem sampleTip_shown {signature : String} {before after : Nat} (hbefore : before < 2 ^ 53)
    (hafter : after < 2 ^ 53) : (sampleTip signature before after).Shown sampleAccounts where
  signature := rfl
  details := by
    refine ⟨_, rfl, fun a => ?_⟩
    cases a with
    | sol => exact ⟨rfl, rfl⟩
    | usdc => exact rfl
  bound := fun a => by
    cases a with
    | sol => exact ⟨hbefore, hafter⟩
    | usdc => exact ⟨Nat.two_pow_pos 53, Nat.two_pow_pos 53⟩

theorem byTurns_goes {i j n : Nat} : ∀ a ∈ byTurns i j n, ∃ i e t, a = .go i e t := by
  intro a ha
  simp only [byTurns, List.mem_flatten, List.mem_replicate] at ha
  obtain ⟨turn, ⟨-, rfl⟩, ha⟩ := ha
  rcases List.mem_pair.mp ha with rfl | rfl
  · exact ⟨_, _, _, rfl⟩
  · exact ⟨_, _, _, rfl⟩

theorem tracker_totals_tip :
    let s := ((tracker sampleAccounts).run (.init initial) sampleActs).store
    (∀ a, AtEnd sampleAccounts s a) ∧ netRows .sol s.rows = 20 := by
  intro s
  have hstart : (tracker sampleAccounts).Kept (terms sampleAccounts) (.init initial)
      earlyActs := by
    refine ⟨⟨sampleTip_shown (by decide) (by decide), by decide, fun a => by cases a <;> rfl⟩,
      ⟨sampleTip_shown (by decide) (by decide), by decide, fun a => by cases a <;> rfl⟩,
      Nat.le_succ 1, trivial, trivial, trivial, trivial⟩
  have hkept : (tracker sampleAccounts).Kept (terms sampleAccounts) (.init initial)
      sampleActs :=
    System.kept_append.mpr ⟨System.kept_append.mpr ⟨hstart,
      ⟨sampleTip_shown (by decide) (by decide), by decide, fun a => by cases a <;> rfl⟩,
      Nat.le_succ 1, trivial⟩, System.kept_goes (fun _ _ _ _ _ => trivial) byTurns_goes⟩
  have hend : ∀ a, AtEnd sampleAccounts s a := by
    intro a
    unfold AtEnd
    cases a with
    | sol => decide
    | usdc => decide
  exact ⟨hend, (tracker_totals sampleAccounts sampleActs hkept).2 hend .sol⟩

end ChainPay.Support
