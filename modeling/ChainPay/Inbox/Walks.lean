import ChainPay.Inbox.Queue

/-!
What the inbox keeps over every run of deliveries, outcomes and walks. Each event has a row of its
own, unless one event id is the hashed form of another, and each walk comes by every row that waits,
unless a page ends among rows of one arrival time.
-/

namespace ChainPay.Inbox
open ChainPay.Lib

/-! ## Keys -/

theorem colon_notMem_plain {eventId : Text} (h : isPlain eventId = true) : ':' ∉ eventId := by
  intro hmem
  unfold isPlain at h
  rw [Bool.and_eq_true, List.all_eq_true] at h
  have hbyte : (58 : UInt8) ∈ encodeUtf8 eventId :=
    List.mem_flatMap.mpr ⟨':', hmem, by decide⟩
  exact absurd (h.1 58 hbyte) (by decide)

theorem colon_notMem_digest (eventId : Text) : ':' ∉ digest eventId := by
  intro hmem
  obtain ⟨b, -, hb⟩ := List.mem_flatMap.mp hmem
  have hdigit : ∀ n < 16, hexDigit n ≠ ':' := by decide
  have hlt := b.toNat_lt
  rcases List.mem_cons.mp hb with h | h
  · exact hdigit _ (by omega) h.symm
  · exact hdigit _ (by omega) (List.mem_singleton.mp h).symm

theorem colon_notMem_keyPart (eventId : Text) : ':' ∉ keyPart eventId := by
  unfold keyPart
  split
  · rename_i h
    exact colon_notMem_plain h
  · intro hmem
    rcases List.mem_cons.mp hmem with h | h
    · cases h
    · exact colon_notMem_digest eventId h

theorem takeWhile_before {α : Type} [DecidableEq α] {a : α} {as bs : List α} (h : a ∉ as) :
    (as ++ a :: bs).takeWhile (· ≠ a) = as := by
  induction as with
  | nil => simp
  | cons x as ih =>
    rw [List.mem_cons, not_or] at h
    rw [List.cons_append, List.takeWhile_cons_of_pos (by simpa using Ne.symm h.1), ih h.2]

/-- A key names its provider, and the part for the event. -/
theorem inboxKey_inj {p p' e e' : Text} (h : inboxKey p e = inboxKey p' e') :
    p = p' ∧ keyPart e = keyPart e' := by
  have hsplit : ∀ p e : Text, (inboxKey p e).reverse =
      (keyPart e).reverse ++ ':' :: ("-event".toList.reverse ++ p.reverse) := by
    intro p e
    have hsep : "-event:".toList = "-event".toList ++ [':'] := by decide
    unfold inboxKey
    rw [hsep, List.reverse_append, List.reverse_append, List.reverse_append, List.reverse_singleton,
      List.append_assoc]
    rfl
  have hpart : ∀ p e : Text, (inboxKey p e).reverse.takeWhile (· ≠ ':') = (keyPart e).reverse := by
    intro p e
    rw [hsplit, takeWhile_before fun hmem => colon_notMem_keyPart e (List.mem_reverse.mp hmem)]
  have heq : keyPart e = keyPart e' := by
    have hrev := hpart p e
    rw [h, hpart p' e'] at hrev
    exact (List.reverse_injective hrev).symm
  refine ⟨?_, heq⟩
  unfold inboxKey at h
  rw [heq] at h
  exact List.append_cancel_right (List.append_cancel_right h)

/-- One event id is the hashed form of another. -/
def Mixed (d d' : Delivery) : Prop :=
  d.provider = d'.provider ∧ isPlain d.eventId = true ∧ isPlain d'.eventId = false ∧
    d.eventId = 'h' :: digest d'.eventId

instance (d d' : Delivery) : Decidable (Mixed d d') := inferInstanceAs (Decidable (_ ∧ _))

/-- Hashes tell event ids apart. -/
def Collisionless (ds : List Delivery) : Prop :=
  ∀ d ∈ ds, ∀ d' ∈ ds, sha256 (encodeUtf8 d.eventId) = sha256 (encodeUtf8 d'.eventId) →
    d.eventId = d'.eventId

instance (ds : List Delivery) : Decidable (Collisionless ds) :=
  inferInstanceAs (Decidable (∀ d ∈ ds, _))

theorem event_of_key {d d' : Delivery} (h : d.key = d'.key) (hmixed : ¬ Mixed d d')
    (hmixed' : ¬ Mixed d' d)
    (hsha : sha256 (encodeUtf8 d.eventId) = sha256 (encodeUtf8 d'.eventId) →
      d.eventId = d'.eventId) : d.provider = d'.provider ∧ d.eventId = d'.eventId := by
  obtain ⟨hprovider, hpart⟩ := inboxKey_inj h
  refine ⟨hprovider, ?_⟩
  unfold keyPart at hpart
  cases hd : isPlain d.eventId with
  | true =>
    cases hd' : isPlain d'.eventId with
    | true =>
      rw [hd, hd', if_pos rfl, if_pos rfl] at hpart
      exact hpart
    | false =>
      rw [hd, hd', if_pos rfl, if_neg Bool.false_ne_true] at hpart
      exact absurd ⟨hprovider, hd, hd', hpart⟩ hmixed
  | false =>
    cases hd' : isPlain d'.eventId with
    | true =>
      rw [hd, hd', if_neg Bool.false_ne_true, if_pos rfl] at hpart
      exact absurd ⟨hprovider.symm, hd', hd, hpart.symm⟩ hmixed'
    | false =>
      rw [hd, hd', if_neg Bool.false_ne_true, if_neg Bool.false_ne_true] at hpart
      exact hsha (toHex_injective (List.cons.inj hpart).2)

/-! ## What a step does -/

/-- The outcomes that were recorded on a key's row. -/
def outcomesOf (outcomes : List (Text × InboxOutcome)) (key : Text) : List InboxOutcome :=
  (outcomes.filter fun o => o.1 = key).map (·.2)

/-- Where the outcomes recorded on a row lead: up to eleven retries leave it pending, the twelfth
fails it, and any other outcome settles it. -/
inductive Led : List InboxOutcome → RowState → Prop where
  | pending (reasons : List String) (h : reasons.length < 12) :
      Led (reasons.map .retry) .pending
  | failed (reasons : List String) (h : reasons.length = 12) : Led (reasons.map .retry) .failed
  | applied (reasons : List String) (h : reasons.length < 12) :
      Led (reasons.map .retry ++ [.applied]) .applied
  | ignored (reasons : List String) (reason : String) (h : reasons.length < 12) :
      Led (reasons.map .retry ++ [.ignored reason]) .ignored

def RowState.reference : RowState → Reference
  | .pending => .pending
  | .applied => .done
  | .ignored => .done
  | .failed => .failed

/-- A row in step with the outcomes recorded on it. -/
structure Entry.Follows (e : Entry) (os : List InboxOutcome) : Prop where
  led : Led os e.state
  attempts : e.attempts = os.length
  reference : e.reference = e.state.reference

structure Sound (s : State) : Prop where
  rows : ∀ key row, s.records.lookup key = some row → row.value.Follows (outcomesOf s.outcomes key)
  none : ∀ key, s.records.lookup key = none → outcomesOf s.outcomes key = []
  held : ∀ r ∈ s.held, r.row.value.state = .pending ∧ Newer (some r.row) (s.records.lookup r.key)
  /-- Each row has the body of the first delivery under its key. -/
  first : ∀ key row, s.records.lookup key = some row →
    ∃ d, s.deliveries.find? (fun d => d.key = key) = some d ∧ row.value.raw = d.raw ∧
      row.value.connector = d.provider
  kept : ∀ d ∈ s.deliveries, ∃ row, s.records.lookup d.key = some row

theorem sound_initial : Sound initial where
  rows := fun _ _ h => nomatch h
  none := fun _ _ => rfl
  held := fun _ hr => nomatch hr
  first := fun _ _ h => nomatch h
  kept := fun _ hd => nomatch hd

/-- All that a step can do. -/
inductive Stepped (s : State) : Action → State → Prop where
  | new {d : Delivery} {eventType : Text} {now : Nat} {row : Row Entry}
      (habsent : s.records.lookup d.key = none)
      (hrow : row = ⟨1, newEntry d eventType now, micros now⟩) :
      Stepped s (.accept d eventType now) { s with
        records := s.records.insert d.key row
        held := s.held ++ [⟨d.key, row⟩]
        walks := s.walks.map (Walk.watch (s.records.insert d.key row))
        deliveries := s.deliveries ++ [d] }
  | duplicate {d : Delivery} {eventType : Text} {now : Nat} {row : Row Entry}
      {held : List StoredCardRecord} (hrow : s.records.lookup d.key = some row)
      (hheld : ∀ r ∈ held, r = ⟨d.key, row⟩ ∧ row.value.state = .pending) :
      Stepped s (.accept d eventType now) { s with
        held := s.held ++ held
        walks := s.walks.map (Walk.watch s.records)
        deliveries := s.deliveries ++ [d] }
  | recorded {i : Nat} {r : StoredCardRecord} {outcome : InboxOutcome} {now : Nat}
      {row : Row Entry} (hheld : r ∈ s.held) (hfound : s.records.lookup r.key = some r.row)
      (hrow : row = ⟨r.row.rev + 1, (outcomeEntry r.row outcome now).1,
        (outcomeEntry r.row outcome now).2⟩) :
      Stepped s (.complete i outcome now) { s with
        records := s.records.insert r.key row
        walks := s.walks.map (Walk.watch (s.records.insert r.key row))
        outcomes := s.outcomes ++ [(r.key, outcome)] }
  | lost {i : Nat} {outcome : InboxOutcome} {now : Nat} : Stepped s (.complete i outcome now) s
  | walk {provider : Text} {limit : Nat} :
      Stepped s (.walk provider limit) { s with walks := s.walks ++ [
        ⟨provider, limit, none, [], false, s.records.keys.filter (ofProvider provider s.records)⟩] }
  | page {i : Nat} {w : Walk} (hw : s.walks[i]? = some w) (hopen : w.finished = false) :
      Stepped s (.page i) { s with
        held := s.held ++ pendingPage s.records w.provider w.before w.limit
        walks := s.walks.set i (w.follow (pendingPage s.records w.provider w.before w.limit)) }

theorem Sound.stepped {s s' : State} {a : Action} (h : Sound s) (hstep : s.step a = .ok s') :
    Stepped s a s' := by
  cases a with
  | accept d eventType now =>
    rcases put_create s.records d.key (newEntry d eventType now) (micros now) with
      ⟨habsent, hput⟩ | ⟨row, hrow, hput⟩
    · simp only [State.step, accept, hput] at hstep
      cases hstep
      exact .new habsent rfl
    · simp only [State.step, accept, hput, Accepted.row] at hstep
      cases hstep
      refine .duplicate hrow fun r hr => ?_
      have hr : r ∈ if row.value.state = .pending then [⟨d.key, row⟩] else [] := hr
      by_cases hpending : row.value.state = .pending
      · rw [if_pos hpending] at hr
        exact ⟨List.mem_singleton.mp hr, hpending⟩
      · rw [if_neg hpending] at hr
        cases hr
  | complete i outcome now =>
    unfold State.step at hstep
    cases hi : s.held[i]? with
    | none =>
      simp only [hi] at hstep
      cases hstep
    | some r =>
      have hmem := List.mem_of_getElem? hi
      rcases put_snapshot (h.held r hmem).2 (outcomeEntry r.row outcome now).1
        (outcomeEntry r.row outcome now).2 with ⟨hfound, hput⟩ | hput
      · simp only [hi, complete, hput] at hstep
        cases hstep
        exact .recorded hmem hfound rfl
      · simp only [hi, complete, hput] at hstep
        cases hstep
        exact .lost
  | walk provider limit =>
    cases hstep
    exact .walk
  | page i =>
    unfold State.step at hstep
    cases hi : s.walks[i]? with
    | none =>
      simp only [hi] at hstep
      cases hstep
    | some w =>
      simp only [hi] at hstep
      cases hopen : w.finished with
      | true =>
        rw [hopen, if_pos rfl] at hstep
        cases hstep
      | false =>
        rw [hopen, if_neg Bool.false_ne_true] at hstep
        cases hstep
        exact .page hi hopen

/-! ## Rows and what was recorded on them -/

theorem outcomeEntry_frame (row : Row Entry) (outcome : InboxOutcome) (now : Nat) :
    (outcomeEntry row outcome now).1.raw = row.value.raw ∧
      (outcomeEntry row outcome now).1.connector = row.value.connector := by
  unfold outcomeEntry
  cases outcome with
  | applied => exact ⟨rfl, rfl⟩
  | ignored reason => exact ⟨rfl, rfl⟩
  | retry reason =>
    dsimp only
    split <;> exact ⟨rfl, rfl⟩

/-- A row that stays pending stays in its place. -/
theorem outcomeEntry_place {row : Row Entry} {outcome : InboxOutcome} {now : Nat}
    (h : (outcomeEntry row outcome now).1.state = .pending) :
    (outcomeEntry row outcome now).2 = row.updated := by
  unfold outcomeEntry at h ⊢
  cases outcome with
  | applied => cases h
  | ignored reason => cases h
  | retry reason =>
    dsimp only at h ⊢
    split at h
    · cases h
    · rename_i hfew
      rw [if_neg hfew]

theorem Led.of_pending {os : List InboxOutcome} (h : Led os .pending) :
    ∃ reasons : List String, os = reasons.map .retry ∧ reasons.length < 12 := by
  cases h with
  | pending reasons h => exact ⟨reasons, rfl, h⟩

/-- One more outcome. -/
theorem Entry.Follows.outcome {row : Row Entry} {os : List InboxOutcome}
    (h : row.value.Follows os) (hpending : row.value.state = .pending) (outcome : InboxOutcome)
    (now : Nat) : (outcomeEntry row outcome now).1.Follows (os ++ [outcome]) := by
  have hled := h.led
  rw [hpending] at hled
  obtain ⟨reasons, rfl, hlt⟩ := hled.of_pending
  have hattempts : row.value.attempts = reasons.length := by
    rw [h.attempts, List.length_map]
  unfold outcomeEntry
  cases outcome with
  | applied =>
    refine ⟨.applied reasons hlt, ?_, rfl⟩
    change row.value.attempts + 1 = _
    rw [List.length_append, List.length_map, hattempts]
    rfl
  | ignored reason =>
    refine ⟨.ignored reasons reason hlt, ?_, rfl⟩
    change row.value.attempts + 1 = _
    rw [List.length_append, List.length_map, hattempts]
    rfl
  | retry reason =>
    have hmore : reasons.map InboxOutcome.retry ++ [.retry reason] =
        (reasons ++ [reason]).map .retry := by
      rw [List.map_append]
      rfl
    have hlen : (reasons ++ [reason]).length = row.value.attempts + 1 := by
      rw [List.length_append, hattempts]
      rfl
    rw [hmore]
    dsimp only
    split
    · rename_i hmany
      refine ⟨.failed _ (by omega), ?_, rfl⟩
      rw [List.length_map, hlen]
    · rename_i hfew
      refine ⟨.pending _ (by omega), ?_, rfl⟩
      rw [List.length_map, hlen]

theorem mem_listed {t : Records} {provider : Text} {before : Option Nat} {r : StoredCardRecord} :
    r ∈ listed t provider before ↔
      t.lookup r.key = some r.row ∧ isListed provider before r = true := by
  unfold listed
  rw [List.mem_filter, List.mem_map]
  refine and_congr_left fun _ => ?_
  constructor
  · rintro ⟨⟨key, row⟩, hmem, rfl⟩
    exact AList.mem_lookup_iff.mpr hmem
  · intro h
    exact ⟨⟨r.key, r.row⟩, AList.mem_lookup_iff.mp h, rfl⟩

theorem isListed_iff {provider : Text} {before : Option Nat} {r : StoredCardRecord} :
    isListed provider before r = true ↔ r.row.value.connector = provider ∧
      r.row.value.reference = .pending ∧ ∀ b ∈ before, r.row.updated < b := by
  unfold isListed
  rw [Bool.and_eq_true, Bool.and_eq_true, decide_eq_true_eq, decide_eq_true_eq, and_assoc]
  cases before with
  | none => simp
  | some b => simp

theorem mem_page {t : Records} {provider : Text} {before : Option Nat} {limit : Nat}
    {r : StoredCardRecord} (h : r ∈ pendingPage t provider before limit) :
    r ∈ listed t provider before :=
  (List.mem_insertionSort _).mp (List.mem_of_mem_take h)

/-- Listed rows are pending. -/
theorem Entry.Follows.pending_iff {e : Entry} {os : List InboxOutcome} (h : e.Follows os) :
    e.reference = .pending ↔ e.state = .pending := by
  rw [h.reference]
  cases e.state <;> decide

theorem Newer.none (x : Option (Row Entry)) : Newer none x := fun _ h => nomatch h

theorem Newer.next {row row' : Row Entry} (h : row.rev < row'.rev) :
    Newer (some row) (some row') := by
  intro r hr
  cases hr
  exact ⟨row', rfl, .inr h⟩

theorem outcomesOf_append (outcomes : List (Text × InboxOutcome)) (key key' : Text)
    (outcome : InboxOutcome) : outcomesOf (outcomes ++ [(key', outcome)]) key =
      outcomesOf outcomes key ++ if key' = key then [outcome] else [] := by
  unfold outcomesOf
  rw [List.filter_append, List.map_append]
  congr 1
  by_cases h : key' = key
  · rw [List.filter_cons_of_pos (by simpa using h), if_pos h]
    rfl
  · rw [List.filter_cons_of_neg (by simpa using h), if_neg h]
    rfl

theorem find?_append_of_some {α : Type} {p : α → Bool} {as bs : List α} {a : α}
    (h : as.find? p = some a) : (as ++ bs).find? p = some a := by
  rw [List.find?_append, h]
  rfl

theorem Stepped.sound {s s' : State} {a : Action} (hstep : Stepped s a s') (h : Sound s) :
    Sound s' := by
  cases hstep with
  | @new d eventType now row habsent hrow =>
    have hfresh : s.deliveries.find? (fun d' => d'.key = d.key) = none := by
      rw [List.find?_eq_none]
      intro d' hd' hkey
      obtain ⟨row', hrow'⟩ := h.kept d' hd'
      rw [of_decide_eq_true hkey, habsent] at hrow'
      cases hrow'
    have hnewer : ∀ key, Newer (s.records.lookup key) ((s.records.insert d.key row).lookup key) :=
      insert_newer (by rw [habsent]; exact Newer.none _)
    refine ⟨?_, ?_, ?_, ?_, ?_⟩
    · refine forall_lookup_insert h.rows ?_
      change row.value.Follows (outcomesOf s.outcomes d.key)
      rw [h.none d.key habsent, hrow]
      exact ⟨.pending [] (by decide), rfl, rfl⟩
    · intro key hnone
      by_cases hkey : key = d.key
      · rw [hkey, AList.lookup_insert] at hnone
        cases hnone
      · rw [AList.lookup_insert_ne hkey] at hnone
        exact h.none key hnone
    · intro r hr
      rcases List.mem_append.mp hr with hr | hr
      · exact ⟨(h.held r hr).1, (h.held r hr).2.trans (hnewer r.key)⟩
      · rw [List.mem_singleton.mp hr]
        refine ⟨by rw [hrow]; rfl, ?_⟩
        change Newer (some row) ((s.records.insert d.key row).lookup d.key)
        rw [AList.lookup_insert]
        exact Newer.refl _
    · refine forall_lookup_insert (fun key row' hrow' => ?_) ?_
      · obtain ⟨first, hfirst, hrest⟩ := h.first key row' hrow'
        exact ⟨first, find?_append_of_some hfirst, hrest⟩
      · refine ⟨d, ?_, by rw [hrow]; rfl, by rw [hrow]; rfl⟩
        rw [List.find?_append, hfresh, Option.none_or]
        simp
    · intro d' hd'
      rcases List.mem_append.mp hd' with hd' | hd'
      · obtain ⟨row', hrow'⟩ := h.kept d' hd'
        obtain ⟨row'', hrow'', -⟩ := hnewer d'.key row' hrow'
        exact ⟨row'', hrow''⟩
      · rw [List.mem_singleton.mp hd']
        exact ⟨row, AList.lookup_insert _⟩
  | @duplicate d eventType now row held hrow hheld =>
    refine ⟨h.rows, h.none, ?_, ?_, ?_⟩
    · intro r hr
      rcases List.mem_append.mp hr with hr | hr
      · exact h.held r hr
      · obtain ⟨rfl, hpending⟩ := hheld r hr
        refine ⟨hpending, ?_⟩
        change Newer (some row) (s.records.lookup d.key)
        rw [hrow]
        exact Newer.refl _
    · intro key row' hrow'
      obtain ⟨first, hfirst, hrest⟩ := h.first key row' hrow'
      exact ⟨first, find?_append_of_some hfirst, hrest⟩
    · intro d' hd'
      rcases List.mem_append.mp hd' with hd' | hd'
      · exact h.kept d' hd'
      · rw [List.mem_singleton.mp hd']
        exact ⟨row, hrow⟩
  | @recorded i r outcome now row hheld hfound hrow =>
    have hpending := (h.held r hheld).1
    have hnewer : ∀ key, Newer (s.records.lookup key) ((s.records.insert r.key row).lookup key) :=
      insert_newer (by rw [hfound, hrow]; exact Newer.next (Nat.lt_succ_self _))
    refine ⟨?_, ?_, ?_, ?_, ?_⟩
    · intro key row' hrow'
      rw [outcomesOf_append]
      by_cases hkey : key = r.key
      · subst hkey
        rw [AList.lookup_insert] at hrow'
        cases hrow'
        rw [if_pos rfl, hrow]
        exact (h.rows r.key r.row hfound).outcome hpending outcome now
      · rw [AList.lookup_insert_ne hkey] at hrow'
        rw [if_neg (Ne.symm hkey), List.append_nil]
        exact h.rows key row' hrow'
    · intro key hnone
      rw [outcomesOf_append]
      by_cases hkey : key = r.key
      · rw [hkey, AList.lookup_insert] at hnone
        cases hnone
      · rw [AList.lookup_insert_ne hkey] at hnone
        rw [if_neg (Ne.symm hkey), List.append_nil]
        exact h.none key hnone
    · intro r' hr'
      exact ⟨(h.held r' hr').1, (h.held r' hr').2.trans (hnewer r'.key)⟩
    · refine forall_lookup_insert h.first ?_
      obtain ⟨first, hfirst, hraw, hconnector⟩ := h.first r.key r.row hfound
      obtain ⟨hkeep, hkeep'⟩ := outcomeEntry_frame r.row outcome now
      refine ⟨first, hfirst, ?_, ?_⟩
      · rw [hrow]
        exact hkeep.trans hraw
      · rw [hrow]
        exact hkeep'.trans hconnector
    · intro d hd
      obtain ⟨row', hrow'⟩ := h.kept d hd
      obtain ⟨row'', hrow'', -⟩ := hnewer d.key row' hrow'
      exact ⟨row'', hrow''⟩
  | lost => exact h
  | walk => exact ⟨h.rows, h.none, h.held, h.first, h.kept⟩
  | @page i w hw hopen =>
    refine ⟨h.rows, h.none, fun r hr => ?_, h.first, h.kept⟩
    rcases List.mem_append.mp hr with hr | hr
    · exact h.held r hr
    · obtain ⟨hfound, hlisted⟩ := mem_listed.mp (mem_page hr)
      refine ⟨(h.rows r.key r.row hfound).pending_iff.mp (isListed_iff.mp hlisted).2.1, ?_⟩
      change Newer (some r.row) (s.records.lookup r.key)
      rw [hfound]
      exact Newer.refl _

/-! ## Walks -/

instance : Std.Total Newest where
  total a b := by
    unfold Newest
    rcases Nat.lt_trichotomy a.row.updated b.row.updated with h | h | h
    · exact .inr (.inl h)
    · rcases le_total a.key b.key with hkey | hkey
      · exact .inr (.inr ⟨h, hkey⟩)
      · exact .inl (.inr ⟨h.symm, hkey⟩)
    · exact .inl (.inl h)

instance : IsTrans StoredCardRecord Newest where
  trans a b c hab hbc := by
    unfold Newest at *
    rcases hab with hab | ⟨hab, hkey⟩
    · rcases hbc with hbc | ⟨hbc, -⟩
      · exact .inl (Nat.lt_trans hbc hab)
      · exact .inl (hbc ▸ hab)
    · rcases hbc with hbc | ⟨hbc, hkey'⟩
      · exact .inl (hab ▸ hbc)
      · exact .inr ⟨hbc.trans hab, le_trans hkey' hkey⟩

/-- What a page leaves out is no newer than its last row. -/
theorem page_rest {t : Records} {provider : Text} {before : Option Nat} {limit : Nat}
    {r last : StoredCardRecord} (hr : r ∈ listed t provider before)
    (hnot : r ∉ pendingPage t provider before limit)
    (hlast : (pendingPage t provider before limit).getLast? = some last) :
    r.row.updated ≤ last.row.updated := by
  have hsorted := List.pairwise_insertionSort Newest (listed t provider before)
  have hmem := (List.mem_insertionSort Newest).mpr hr
  rw [← List.take_append_drop (pageLimit limit)
    ((listed t provider before).insertionSort Newest)] at hsorted hmem
  have hdrop := (List.mem_append.mp hmem).resolve_left hnot
  have hbefore := (List.pairwise_append.mp hsorted).2.2 last (List.mem_of_getLast? hlast) r hdrop
  rcases hbefore with h | ⟨h, -⟩
  · exact Nat.le_of_lt h
  · exact Nat.le_of_eq h

/-- A page is empty only if nothing is listed. -/
theorem listed_of_page_nil {t : Records} {provider : Text} {before : Option Nat} {limit : Nat}
    (h : pendingPage t provider before limit = []) : listed t provider before = [] := by
  have hlen := congrArg List.length h
  unfold pendingPage at hlen
  rw [List.length_take, List.length_insertionSort, List.length_nil] at hlen
  have hpos : 0 < pageLimit limit := Nat.lt_of_lt_of_le Nat.zero_lt_one (Nat.le_max_left 1 _)
  exact List.eq_nil_of_length_eq_zero (by omega)

/-- No row that a page leaves out arrived with its last row. -/
def Whole (t : Records) (provider : Text) (before : Option Nat) (limit : Nat) : Prop :=
  ∀ r ∈ listed t provider before, r ∉ pendingPage t provider before limit →
    ∀ last ∈ (pendingPage t provider before limit).getLast?, r.row.updated ≠ last.row.updated

/-- A row that a walk has yet to come by, or has come by. -/
structure Walk.Awaits (t : Records) (w : Walk) (key : Text) : Prop where
  waiting : ∃ row, t.lookup key = some row ∧ row.value.state = .pending ∧
    row.value.connector = w.provider ∧ (key ∈ w.visited ∨ ∀ b ∈ w.before, row.updated < b)

structure Walk.OnTrack (t : Records) (w : Walk) : Prop where
  awaits : w.finished = false → ∀ key ∈ w.still, w.Awaits t key
  done : w.finished = true → ∀ key ∈ w.still, key ∈ w.visited

/-- Rows stay, and a row that is still pending is in its place. -/
def Carries (t t' : Records) : Prop :=
  ∀ key row, t.lookup key = some row → ∃ row', t'.lookup key = some row' ∧
    row'.value.connector = row.value.connector ∧
    (row'.value.state = .pending → row'.updated = row.updated)

theorem Carries.refl (t : Records) : Carries t t := fun _ row h => ⟨row, h, rfl, fun _ => rfl⟩

theorem isPending_iff {t : Records} {key : Text} :
    isPending t key = true ↔ ∃ row, t.lookup key = some row ∧ row.value.state = .pending := by
  unfold isPending
  cases t.lookup key with
  | none => simp
  | some row => simp

theorem Walk.OnTrack.watch {t t' : Records} {w : Walk} (h : w.OnTrack t) (hcarries : Carries t t') :
    (w.watch t').OnTrack t' := by
  unfold Walk.watch
  cases hfinished : w.finished with
  | true =>
    rw [if_pos rfl]
    exact ⟨fun hopen => absurd (hopen.symm.trans hfinished) Bool.false_ne_true, h.done⟩
  | false =>
    rw [if_neg Bool.false_ne_true]
    refine ⟨fun _ key hkey => ?_, fun hdone => absurd hdone Bool.false_ne_true⟩
    obtain ⟨hmem, hpending⟩ := List.mem_filter.mp hkey
    obtain ⟨row, hrow, -, hconnector, hplace⟩ := (h.awaits hfinished key hmem).waiting
    obtain ⟨row', hrow', hsame, hupdated⟩ := hcarries key row hrow
    obtain ⟨row'', hrow'', hstate⟩ := isPending_iff.mp hpending
    rw [hrow'] at hrow''
    cases hrow''
    refine ⟨row', hrow', hstate, hsame.trans hconnector, ?_⟩
    rw [hupdated hstate]
    exact hplace

/-- A page of a walk. -/
theorem Walk.OnTrack.follow {s : State} {w : Walk} (hs : Sound s) (h : w.OnTrack s.records)
    (hopen : w.finished = false) (hwhole : Whole s.records w.provider w.before w.limit) :
    (w.follow (pendingPage s.records w.provider w.before w.limit)).OnTrack s.records := by
  have hlisted : ∀ key row, s.records.lookup key = some row → row.value.state = .pending →
      row.value.connector = w.provider → (∀ b ∈ w.before, row.updated < b) →
      (⟨key, row⟩ : StoredCardRecord) ∈ listed s.records w.provider w.before := by
    intro key row hrow hstate hconnector hbefore
    have hreference := (hs.rows key row hrow).pending_iff.mpr hstate
    exact mem_listed.mpr ⟨hrow, isListed_iff.mpr ⟨hconnector, hreference, hbefore⟩⟩
  unfold Walk.follow
  cases hlast : (pendingPage s.records w.provider w.before w.limit).getLast? with
  | none =>
    have hnil := listed_of_page_nil (List.getLast?_eq_none_iff.mp hlast)
    refine ⟨fun hbad => (nomatch hbad), fun _ key hkey => ?_⟩
    obtain ⟨row, hrow, hstate, hconnector, hplace⟩ := (h.awaits hopen key hkey).waiting
    rcases hplace with hvisited | hbefore
    · exact hvisited
    · have hmem := hlisted key row hrow hstate hconnector hbefore
      rw [hnil] at hmem
      cases hmem
  | some last =>
    refine ⟨fun _ key hkey => ?_, fun hbad => absurd (hopen.symm.trans hbad) Bool.false_ne_true⟩
    obtain ⟨row, hrow, hstate, hconnector, hplace⟩ := (h.awaits hopen key hkey).waiting
    refine ⟨row, hrow, hstate, hconnector, ?_⟩
    rcases hplace with hvisited | hbefore
    · exact .inl (List.mem_append_left _ hvisited)
    · have hmem := hlisted key row hrow hstate hconnector hbefore
      by_cases hpage : (⟨key, row⟩ : StoredCardRecord) ∈
          pendingPage s.records w.provider w.before w.limit
      · exact .inl (List.mem_append_right _ (List.mem_map.mpr ⟨_, hpage, rfl⟩))
      · refine .inr fun b hb => ?_
        cases hb
        exact Nat.lt_of_le_of_ne (page_rest hmem hpage hlast) (hwhole _ hmem hpage last hlast)

/-- A walk starts with the rows of its provider that are pending. -/
theorem Walk.onTrack_start (t : Records) (provider : Text) (limit : Nat) :
    Walk.OnTrack t ⟨provider, limit, none, [], false, t.keys.filter (ofProvider provider t)⟩ := by
  refine ⟨fun _ key hkey => ?_, fun hbad => by cases hbad⟩
  obtain ⟨-, hof⟩ := List.mem_filter.mp hkey
  obtain ⟨hpending, hprovider⟩ := Bool.and_eq_true_iff.mp hof
  obtain ⟨row, hrow, hstate⟩ := isPending_iff.mp hpending
  rw [hrow] at hprovider
  exact ⟨row, hrow, hstate, of_decide_eq_true hprovider, .inr fun b hb => nomatch hb⟩

/-! ## Runs -/

/-- A delivery whose event id is not the hashed form of another's, and a page that does not end
among rows of one arrival time. -/
def Clear (s : State) : Action → Prop
  | .accept verified _ _ => ∀ d ∈ s.deliveries, ¬ Mixed verified d ∧ ¬ Mixed d verified
  | .page i => ∀ w ∈ s.walks[i]?, Whole s.records w.provider w.before w.limit
  | _ => True

instance (t : Records) (provider : Text) (before : Option Nat) (limit : Nat) :
    Decidable (Whole t provider before limit) := inferInstanceAs (Decidable (∀ r ∈ _, _ → _))

instance (s : State) : ∀ a, Decidable (Clear s a)
  | .accept _ _ _ => inferInstanceAs (Decidable (∀ d ∈ s.deliveries, _))
  | .page i => inferInstanceAs (Decidable (∀ w ∈ s.walks[i]?, _))
  | .complete _ _ _ => .isTrue trivial
  | .walk _ _ => .isTrue trivial

/-- What holds as long as every step is clear. -/
structure Tidy (s : State) : Prop where
  sound : Sound s
  unmixed : ∀ d ∈ s.deliveries, ∀ d' ∈ s.deliveries, ¬ Mixed d d'
  walks : ∀ w ∈ s.walks, w.OnTrack s.records

theorem tidy_initial : Tidy initial :=
  ⟨sound_initial, fun _ hd => (nomatch hd), fun _ hw => nomatch hw⟩

theorem not_mixed_self (d : Delivery) : ¬ Mixed d d := by
  rintro ⟨-, hplain, hnot, -⟩
  exact Bool.false_ne_true (hnot.symm.trans hplain)

theorem unmixed_append {ds : List Delivery} {d : Delivery}
    (h : ∀ d ∈ ds, ∀ d' ∈ ds, ¬ Mixed d d') (hd : ∀ d' ∈ ds, ¬ Mixed d d' ∧ ¬ Mixed d' d) :
    ∀ e ∈ ds ++ [d], ∀ e' ∈ ds ++ [d], ¬ Mixed e e' := by
  intro e he e' he'
  rcases List.mem_append.mp he with he | he
  · rcases List.mem_append.mp he' with he' | he'
    · exact h e he e' he'
    · rw [List.mem_singleton.mp he']
      exact (hd e he).2
  · rw [List.mem_singleton.mp he]
    rcases List.mem_append.mp he' with he' | he'
    · exact (hd e' he').1
    · rw [List.mem_singleton.mp he']
      exact not_mixed_self d

theorem carries_insert {t : Records} {key : Text} {row : Row Entry}
    (h : ∀ old, t.lookup key = some old → row.value.connector = old.value.connector ∧
      (row.value.state = .pending → row.updated = old.updated)) : Carries t (t.insert key row) := by
  intro key' old hold
  by_cases hkey : key' = key
  · subst hkey
    exact ⟨row, AList.lookup_insert _, h old hold⟩
  · exact ⟨old, by rw [AList.lookup_insert_ne hkey, hold], rfl, fun _ => rfl⟩

theorem watch_all {t t' : Records} {ws : List Walk} (h : ∀ w ∈ ws, w.OnTrack t)
    (hcarries : Carries t t') : ∀ w ∈ ws.map (Walk.watch t'), w.OnTrack t' := by
  intro w hw
  obtain ⟨w, hmem, rfl⟩ := List.mem_map.mp hw
  exact (h w hmem).watch hcarries

theorem Tidy.step {s s' : State} {a : Action} (hclear : Clear s a) (hstep : s.step a = .ok s')
    (h : Tidy s) : Tidy s' := by
  have hstepped := h.sound.stepped hstep
  refine ⟨hstepped.sound h.sound, ?_, ?_⟩
  · cases hstepped with
    | new habsent hrow => exact unmixed_append h.unmixed hclear
    | duplicate hrow hheld => exact unmixed_append h.unmixed hclear
    | recorded hheld hfound hrow => exact h.unmixed
    | lost => exact h.unmixed
    | walk => exact h.unmixed
    | page hw hopen => exact h.unmixed
  · cases hstepped with
    | new habsent hrow =>
      refine watch_all h.walks (carries_insert fun old hold => ?_)
      rw [habsent] at hold
      cases hold
    | duplicate hrow hheld => exact watch_all h.walks (Carries.refl _)
    | @recorded i r outcome now row hheld hfound hrow =>
      refine watch_all h.walks (carries_insert fun old hold => ?_)
      rw [hfound] at hold
      cases hold
      rw [hrow]
      exact ⟨(outcomeEntry_frame r.row outcome now).2, outcomeEntry_place⟩
    | lost => exact h.walks
    | walk =>
      intro w hw
      rcases List.mem_append.mp hw with hw | hw
      · exact h.walks w hw
      · rw [List.mem_singleton.mp hw]
        exact Walk.onTrack_start _ _ _
    | @page i w hw hopen =>
      intro w' hw'
      rcases List.mem_or_eq_of_mem_set hw' with hw' | rfl
      · exact h.walks w' hw'
      · exact Walk.OnTrack.follow (s := s) h.sound (h.walks w (List.mem_of_getElem? hw)) hopen (hclear w hw)

/-- The inbox loses and repeats nothing. -/
structure Lossless (s : State) : Prop where
  /-- Each event delivered has a row, with the body that came first. -/
  own : ∀ d ∈ s.deliveries, ∃ row first, s.records.lookup d.key = some row ∧
    s.deliveries.find? (fun d' => d'.provider = d.provider ∧ d'.eventId = d.eventId) = some first ∧
    row.value.raw = first.raw
  /-- No two events share a row, and no row is without an event. -/
  apart : ∀ d ∈ s.deliveries, ∀ d' ∈ s.deliveries, d.key = d'.key →
    d.provider = d'.provider ∧ d.eventId = d'.eventId
  delivered : ∀ key row, s.records.lookup key = some row → ∃ d ∈ s.deliveries, d.key = key
  /-- A row is where its outcomes lead, and counts them. -/
  outcomes : ∀ key row, s.records.lookup key = some row →
    Led (outcomesOf s.outcomes key) row.value.state ∧
      row.value.attempts = (outcomesOf s.outcomes key).length
  /-- A walk that ended came by every row that was pending all the while. -/
  walks : ∀ w ∈ s.walks, w.finished = true → ∀ key ∈ w.still, key ∈ w.visited

theorem find?_congr {α : Type} {p q : α → Bool} {as : List α} (h : ∀ a ∈ as, p a = q a) :
    as.find? p = as.find? q := by
  induction as with
  | nil => rfl
  | cons a as ih =>
    rw [List.find?_cons, List.find?_cons, h a List.mem_cons_self,
      ih fun b hb => h b (List.mem_cons_of_mem _ hb)]

theorem Tidy.lossless {s : State} (h : Tidy s) (hsha : Collisionless s.deliveries) :
    Lossless s := by
  have hapart : ∀ d ∈ s.deliveries, ∀ d' ∈ s.deliveries, d.key = d'.key →
      d.provider = d'.provider ∧ d.eventId = d'.eventId := by
    intro d hd d' hd' hkey
    exact event_of_key hkey (h.unmixed d hd d' hd') (h.unmixed d' hd' d hd) (hsha d hd d' hd')
  refine ⟨fun d hd => ?_, hapart, fun key row hrow => ?_, fun key row hrow => ?_,
    fun w hw => (h.walks w hw).done⟩
  · obtain ⟨row, hrow⟩ := h.sound.kept d hd
    obtain ⟨first, hfirst, hraw, -⟩ := h.sound.first d.key row hrow
    refine ⟨row, first, hrow, ?_, hraw⟩
    rw [← hfirst]
    refine find?_congr fun d' hd' => decide_eq_decide.mpr ⟨fun hsame => ?_, fun hkey => ?_⟩
    · unfold Delivery.key
      rw [hsame.1, hsame.2]
    · exact hapart d' hd' d hd hkey
  · obtain ⟨d, hfirst, -⟩ := h.sound.first key row hrow
    have hkey := List.find?_some hfirst
    exact ⟨d, List.mem_of_find?_eq_some hfirst, of_decide_eq_true hkey⟩
  · exact ⟨(h.sound.rows key row hrow).led, (h.sound.rows key row hrow).attempts⟩

/-- A row that is no longer pending stays as it is. -/
theorem settled_stays {s : State} (h : Sound s) {key : Text} {row : Row Entry}
    (hrow : s.records.lookup key = some row) (hsettled : row.value.state ≠ .pending)
    (as : List Action) : (Runs.after State.step s as).records.lookup key = some row := by
  refine (Runs.after_inv (I := fun s => Sound s ∧ s.records.lookup key = some row)
    (fun s a s' _ hstep hi => ?_) (Runs.along_true s as) ⟨h, hrow⟩).2
  obtain ⟨hsound, hrow⟩ := hi
  have hstepped := hsound.stepped hstep
  refine ⟨hstepped.sound hsound, ?_⟩
  cases hstepped with
  | new habsent hnew =>
    refine (AList.lookup_insert_ne fun heq => ?_).trans hrow
    rw [heq, habsent] at hrow
    cases hrow
  | duplicate hfound hheld => exact hrow
  | @recorded i r outcome now row' hheld hfound hnew =>
    refine (AList.lookup_insert_ne fun heq => ?_).trans hrow
    rw [heq, hfound] at hrow
    cases hrow
    exact hsettled (hsound.held r hheld).1
  | lost => exact hrow
  | walk => exact hrow
  | page hw hopen => exact hrow

/-- **The inbox over whole runs.** While no event id is the hashed form of another, and no page ends
among rows of one arrival time, the inbox loses and repeats nothing; and rows that left the queue
never come back. -/
theorem inbox_lossless (as : List Action)
    (hclear : Runs.Along State.step (fun s a _ => Clear s a) initial as)
    (hsha : Collisionless (Runs.after State.step initial as).deliveries) :
    Lossless (Runs.after State.step initial as) ∧
      ∀ key row, (Runs.after State.step initial as).records.lookup key = some row →
        row.value.state ≠ .pending → ∀ bs,
          (Runs.after State.step initial (as ++ bs)).records.lookup key = some row := by
  have htidy : Tidy (Runs.after State.step initial as) :=
    Runs.after_inv (fun s a s' hc hstep hi => hi.step hc hstep) hclear tidy_initial
  refine ⟨htidy.lossless hsha, fun key row hrow hsettled bs => ?_⟩
  rw [Runs.after_append]
  exact settled_stays htidy.sound hrow hsettled bs

def sampleDelivery (eventId : Text) : Delivery := ⟨"lithic".toList, eventId, [123, 125]⟩

/-- Two deliveries, and a walk in pages of one. -/
def sampleRun (t₁ t₂ : Nat) : List Action :=
  [.accept (sampleDelivery ['a']) "card_transaction.updated".toList t₁,
   .accept (sampleDelivery ['b']) "card_transaction.updated".toList t₂,
   .walk "lithic".toList 1, .page 0, .complete 0 (.retry "unmapped card") 7, .page 0, .page 0]

theorem inbox_lossless_sample :
    Lossless (Runs.after State.step initial (sampleRun 1 2)) ∧
      ∀ key row, (Runs.after State.step initial (sampleRun 1 2)).records.lookup key = some row →
        row.value.state ≠ .pending → ∀ bs,
          (Runs.after State.step initial (sampleRun 1 2 ++ bs)).records.lookup key = some row :=
  inbox_lossless (sampleRun 1 2) (by decide) (by decide +kernel)

/-- Two events of one millisecond: the walk comes by one of them, and ends. -/
theorem inbox_walk_passes_over :
    Collisionless (Runs.after State.step initial (sampleRun 1 1)).deliveries ∧
      ¬ Lossless (Runs.after State.step initial (sampleRun 1 1)) := by
  refine ⟨by decide +kernel, fun h => ?_⟩
  have hskipped : ∃ w ∈ (Runs.after State.step initial (sampleRun 1 1)).walks, w.finished = true ∧
      ∃ key ∈ w.still, key ∉ w.visited := by decide
  obtain ⟨w, hw, hfinished, key, hkey, hnot⟩ := hskipped
  exact hnot (h.walks w hw hfinished key hkey)

end ChainPay.Inbox
