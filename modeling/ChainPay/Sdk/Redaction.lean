import ChainPay.Sdk.RedactWalk

/-!
Redaction leaves no forbidden key, no card number in a text or a number, and nothing for a second
redaction. The keys it keeps it does not scan: the whole claim holds of a value exactly when none
of them shows a card number and no text is lost under `__proto__` (`redactCardData_iff`).
-/

namespace ChainPay.Sdk.Redact
open ChainPay.Lib

/-! ## Places in a value -/

inductive Step where
  | index (i : Nat)
  | key (name : JsText)

def Value.at? : List Step → Value → Option Value
  | [], v => some v
  | .index i :: p, .array items => items[i]?.bind (Value.at? p)
  | .key name :: p, .object entries => (entries.lookup name).bind (Value.at? p)
  | _, _ => none

/-- No step goes under a forbidden key. -/
def Allowed (p : List Step) : Prop := ∀ name, Step.key name ∈ p → isForbiddenCardKey name = false

/-- Nor under a key that is lost. -/
def Kept (p : List Step) : Prop := Allowed p ∧ Step.key PROTO ∉ p

/-- What a redacted value must not hold. -/
structure Clean (numberText : Number → JsText) (out : Value) : Prop where
  allowed : ∀ p entries, out.at? p = some (.object entries) →
    ∀ e ∈ entries, isForbiddenCardKey e.1 = false
  keys : ∀ p entries, out.at? p = some (.object entries) → ∀ e ∈ entries, ¬ Shows e.1
  texts : ∀ p t, out.at? p = some (.text t) → ¬ Shows t
  numbers : ∀ p n, out.at? p = some (.number n) → ¬ Shows (numberText n)
  bigints : ∀ p n, out.at? p = some (.bigint n) → ¬ Shows (bigintText n)

/-- Redaction is complete, idempotent and leaves the other texts alone. -/
structure Redacts (numberText : Number → JsText) (v out : Value) : Prop where
  clean : Clean numberText out
  again : redactCardData numberText out = .ok (out, 0)
  texts : ∀ p t, Allowed p → v.at? p = some (.text t) → ¬ Shows t → out.at? p = some (.text t)

/-- The keys that are kept show nothing, and `__proto__` loses no text. -/
structure Plain (v : Value) : Prop where
  keys : ∀ p entries, Kept p → v.at? p = some (.object entries) →
    ∀ e ∈ entries, isForbiddenCardKey e.1 = false → ¬ Shows e.1
  texts : ∀ p t, Allowed p → v.at? p = some (.text t) → ¬ Shows t → Kept p

variable {numberText : Number → JsText}

/-! ## What stands where -/

theorem lookup_eq_some {entries : List (JsText × Value)} (h : (entries.map Prod.fst).Nodup)
    {name : JsText} {item : Value} :
    entries.lookup name = some item ↔ (name, item) ∈ entries := by
  rw [List.lookup_eq_some_iff]
  constructor
  · rintro ⟨front, back, rfl, -⟩
    exact List.mem_append_right _ List.mem_cons_self
  · intro hmem
    obtain ⟨front, back, rfl⟩ := List.append_of_mem hmem
    refine ⟨front, back, rfl, fun e he => bne_iff_ne.mpr ?_⟩
    rintro rfl
    rw [List.map_append, List.nodup_append] at h
    exact h.2.2 e.1 (List.mem_map_of_mem he) e.1 List.mem_cons_self rfl

theorem kept_cons_index {i : Nat} {p : List Step} : Kept (.index i :: p) ↔ Kept p := by
  constructor
  · rintro ⟨hallowed, hproto⟩
    exact ⟨fun name h => hallowed name (List.mem_cons_of_mem _ h),
      fun h => hproto (List.mem_cons_of_mem _ h)⟩
  · rintro ⟨hallowed, hproto⟩
    refine ⟨fun name h => hallowed name ?_, fun h => hproto ?_⟩
    · exact (List.mem_cons.mp h).resolve_left Step.noConfusion
    · exact (List.mem_cons.mp h).resolve_left Step.noConfusion

theorem kept_cons_key {name : JsText} {p : List Step} :
    Kept (.key name :: p) ↔ (isForbiddenCardKey name = false ∧ name ≠ PROTO) ∧ Kept p := by
  constructor
  · rintro ⟨hallowed, hproto⟩
    refine ⟨⟨hallowed name List.mem_cons_self, ?_⟩,
      fun other h => hallowed other (List.mem_cons_of_mem _ h),
      fun h => hproto (List.mem_cons_of_mem _ h)⟩
    rintro rfl
    exact hproto List.mem_cons_self
  · rintro ⟨⟨hname, hne⟩, hallowed, hproto⟩
    refine ⟨fun other h => ?_, fun h => ?_⟩
    · rcases List.mem_cons.mp h with heq | h
      · rw [Step.key.inj heq]
        exact hname
      · exact hallowed other h
    · rcases List.mem_cons.mp h with heq | h
      · exact hne (Step.key.inj heq).symm
      · exact hproto h

/-- What stands at a kept place is walked, and its result stands there. -/
theorem at_forward (p : List Step) : ∀ {left : Nat} {v out w : Value}, Distinct v →
    Becomes numberText left v out → Kept p → v.at? p = some w →
    ∃ left' w', Becomes numberText left' w w' ∧ out.at? p = some w' := by
  induction p with
  | nil =>
    intro left v out w _ h _ hw
    cases hw
    exact ⟨left, out, h, rfl⟩
  | cons step p ih =>
    intro left v out w hv h hp hw
    cases left with
    | zero =>
      obtain ⟨n, h⟩ := h
      cases h
    | succ left =>
      cases step with
      | index i =>
        cases v with
        | array items =>
          obtain ⟨items', rfl, hitems⟩ := walk_array h
          obtain ⟨x, hx, hw⟩ := Option.bind_eq_some_iff.mp hw
          obtain ⟨hi, rfl⟩ := List.getElem?_eq_some_iff.mp hx
          have hlen := hitems.length_eq
          have hxy := (List.forall₂_iff_get.mp hitems).2 i hi (hlen ▸ hi)
          obtain ⟨left', w', hww', hout⟩ := ih (distinct_item hv _ (List.get_mem items ⟨i, hi⟩))
            hxy (kept_cons_index.mp hp) hw
          refine ⟨left', w', hww', Option.bind_eq_some_iff.mpr ⟨_, ?_, hout⟩⟩
          exact List.getElem?_eq_getElem (hlen ▸ hi)
        | _ => cases hw
      | key name =>
        cases v with
        | object entries =>
          obtain ⟨hnodup, hdistinct⟩ := distinct_entries hv
          obtain ⟨items, rfl, hitems⟩ := walk_object hnodup h
          obtain ⟨item, hitem, hw⟩ := Option.bind_eq_some_iff.mp hw
          have hmem := (lookup_eq_some hnodup).mp hitem
          obtain ⟨hcopied, hp⟩ := kept_cons_key.mp hp
          obtain ⟨⟨name', item'⟩, hmem', hname, hbecomes⟩ :=
            exists_right hitems (List.mem_filter.mpr ⟨hmem, copied_iff.mpr hcopied⟩)
          cases hname
          obtain ⟨left', w', hww', hout⟩ := ih (hdistinct _ hmem) hbecomes hp hw
          exact ⟨left', w', hww', Option.bind_eq_some_iff.mpr
            ⟨item', (lookup_eq_some (nodup_copied hnodup hitems)).mpr hmem', hout⟩⟩
        | _ => cases hw

/-- What stands in the result comes from what stands at the same, kept place of the value. -/
theorem at_backward (p : List Step) : ∀ {left : Nat} {v out w' : Value}, Distinct v →
    Becomes numberText left v out → out.at? p = some w' →
    Kept p ∧ ∃ left' w, Distinct w ∧ Becomes numberText left' w w' ∧ v.at? p = some w := by
  induction p with
  | nil =>
    intro left v out w' hv h hw
    cases hw
    exact ⟨⟨fun _ h => (nomatch h), List.not_mem_nil⟩, left, v, hv, h, rfl⟩
  | cons step p ih =>
    intro left v out w' hv h hw
    cases left with
    | zero =>
      obtain ⟨n, h⟩ := h
      cases h
    | succ left =>
      have hatom : ∀ {value : Value} {text : JsText},
          (redactNumeral value text).1.at? (step :: p) = some w' → value.at? (step :: p) = some w' := by
        intro value text hat
        rcases numeral_cases value text with ⟨-, hkept⟩ | ⟨-, hgone⟩
        · rw [hkept] at hat
          exact hat
        · rw [hgone] at hat
          cases step <;> cases hat
      cases v with
      | array items =>
        obtain ⟨items', rfl, hitems⟩ := walk_array h
        cases step with
        | key name => cases hw
        | index i =>
          obtain ⟨y, hy, hw⟩ := Option.bind_eq_some_iff.mp hw
          obtain ⟨hi, rfl⟩ := List.getElem?_eq_some_iff.mp hy
          have hlen := hitems.length_eq
          have hxy := (List.forall₂_iff_get.mp hitems).2 i (hlen ▸ hi) hi
          obtain ⟨hp, left', w, hdistinct, hww', hv'⟩ :=
            ih (distinct_item hv _ (List.get_mem items ⟨i, hlen ▸ hi⟩)) hxy hw
          refine ⟨kept_cons_index.mpr hp, left', w, hdistinct, hww',
            Option.bind_eq_some_iff.mpr ⟨_, ?_, hv'⟩⟩
          exact List.getElem?_eq_getElem (hlen ▸ hi)
      | object entries =>
        obtain ⟨hnodup, hdistinct⟩ := distinct_entries hv
        obtain ⟨items, rfl, hitems⟩ := walk_object hnodup h
        cases step with
        | index i => cases hw
        | key name =>
          obtain ⟨item', hitem', hw⟩ := Option.bind_eq_some_iff.mp hw
          have hmem' := (lookup_eq_some (nodup_copied hnodup hitems)).mp hitem'
          obtain ⟨⟨name', item⟩, he, hname, hbecomes⟩ := exists_left hitems hmem'
          cases hname
          obtain ⟨hmem, hcopied⟩ := List.mem_filter.mp he
          obtain ⟨hp, left', w, hw', hww', hv'⟩ := ih (hdistinct _ hmem) hbecomes hw
          exact ⟨kept_cons_key.mpr ⟨copied_iff.mp hcopied, hp⟩, left', w, hw', hww',
            Option.bind_eq_some_iff.mpr ⟨item, (lookup_eq_some hnodup).mpr hmem, hv'⟩⟩
      | number m =>
        obtain ⟨n, h⟩ := h
        rw [← (Prod.mk.inj (Except.ok.inj h)).1] at hw
        cases step <;> cases hatom hw
      | bigint m =>
        obtain ⟨n, h⟩ := h
        rw [← (Prod.mk.inj (Except.ok.inj h)).1] at hw
        cases step <;> cases hatom hw
      | _ =>
        obtain ⟨n, h⟩ := h
        cases h
        cases step <;> cases hw

/-! ## The whole value -/

/-- The assertion has nothing against what was redacted. -/
theorem assertNoCardData_redacted {v : JsonLike} {out : Value} {n : Nat}
    (h : redactCardData numberText v.value = .ok (out, n)) :
    assertNoCardData numberText out = .ok () := by
  have hagain : redactCardData numberText out = .ok (out, 0) :=
    walk_again 33 ⟨32, v.jsonLike⟩ ⟨n, h⟩
  rw [assertNoCardData, hagain]
  rfl

/-- What a text or a number becomes shows nothing. -/
theorem becomes_hidden {left : Nat} {w w' : Value} (h : Becomes numberText left w w') :
    (∀ t, w' = .text t → ¬ Shows t) ∧ (∀ n, w' = .number n → ¬ Shows (numberText n)) ∧
      ∀ n, w' = .bigint n → ¬ Shows (bigintText n) := by
  obtain ⟨k, h⟩ := h
  cases left with
  | zero => cases h
  | succ left =>
    cases w with
    | text t =>
      cases h
      exact ⟨fun t' ht => Value.text.inj ht ▸ redactCardNumbers_hides t,
        fun _ h => (by cases h), fun _ h => (by cases h)⟩
    | number m =>
      rw [walk, Except.ok.injEq] at h
      rcases numeral_cases (.number m) (numberText m) with ⟨hfree, hkept⟩ | ⟨-, hgone⟩
      · rw [hkept] at h
        cases h
        exact ⟨fun _ h => (by cases h), fun n hn => Value.number.inj hn ▸ hfree,
          fun _ h => (by cases h)⟩
      · rw [hgone] at h
        cases h
        exact ⟨fun t ht => Value.text.inj ht ▸ not_shows_redaction, fun _ h => (by cases h),
          fun _ h => (by cases h)⟩
    | bigint m =>
      rw [walk, Except.ok.injEq] at h
      rcases numeral_cases (.bigint m) (bigintText m) with ⟨hfree, hkept⟩ | ⟨-, hgone⟩
      · rw [hkept] at h
        cases h
        exact ⟨fun _ h => (by cases h), fun _ h => (by cases h),
          fun n hn => Value.bigint.inj hn ▸ hfree⟩
      · rw [hgone] at h
        cases h
        exact ⟨fun t ht => Value.text.inj ht ▸ not_shows_redaction, fun _ h => (by cases h),
          fun _ h => (by cases h)⟩
    | array items =>
      obtain ⟨items', rfl, -⟩ := walk_array ⟨k, h⟩
      exact ⟨fun _ h => (by cases h), fun _ h => (by cases h), fun _ h => (by cases h)⟩
    | object entries =>
      obtain ⟨out, -, h⟩ := bind_eq_ok.mp h
      cases h
      exact ⟨fun _ h => (by cases h), fun _ h => (by cases h), fun _ h => (by cases h)⟩
    | _ =>
      cases h
      exact ⟨fun _ h => (by cases h), fun _ h => (by cases h), fun _ h => (by cases h)⟩

/-- An object comes from an object, its entries from the copied ones. -/
theorem becomes_object {left : Nat} {w : Value} {items : List (JsText × Value)}
    (hw : Distinct w) (h : Becomes numberText left w (.object items)) :
    ∃ entries, w = .object entries ∧
      (∀ e' ∈ items, ∃ e ∈ entries, copied e = true ∧ e'.1 = e.1) ∧
      ∀ e ∈ entries, copied e = true → ∃ e' ∈ items, e'.1 = e.1 := by
  cases left with
  | zero =>
    obtain ⟨k, h⟩ := h
    cases h
  | succ left =>
    have hatom : ∀ {value : Value} {text : JsText},
        (redactNumeral value text).1 = .object items → value = .object items := by
      intro value text hat
      rcases numeral_cases value text with ⟨-, hkept⟩ | ⟨-, hgone⟩
      · rw [hkept] at hat
        exact hat
      · rw [hgone] at hat
        cases hat
    cases w with
    | object entries =>
      obtain ⟨hnodup, -⟩ := distinct_entries hw
      obtain ⟨items', heq, hitems⟩ := walk_object hnodup h
      cases heq
      refine ⟨entries, rfl, fun e' he' => ?_, fun e he hcopied => ?_⟩
      · obtain ⟨e, he, hkey, -⟩ := exists_left hitems he'
        obtain ⟨hentry, hcopied⟩ := List.mem_filter.mp he
        exact ⟨e, hentry, hcopied, hkey⟩
      · obtain ⟨e', he', hkey, -⟩ := exists_right hitems (List.mem_filter.mpr ⟨he, hcopied⟩)
        exact ⟨e', he', hkey⟩
    | array xs =>
      obtain ⟨ys, heq, -⟩ := walk_array h
      cases heq
    | number m =>
      obtain ⟨k, h⟩ := h
      exact nomatch hatom (Prod.mk.inj (Except.ok.inj h)).1
    | bigint m =>
      obtain ⟨k, h⟩ := h
      exact nomatch hatom (Prod.mk.inj (Except.ok.inj h)).1
    | _ =>
      obtain ⟨k, h⟩ := h
      cases h

/-- **Redaction.** It ends for every value nested at most 32 deep, and what comes out is clean,
is not changed again and holds each harmless text, exactly when no key that is kept shows a card
number and no harmless text stands under `__proto__`. -/
theorem redactCardData_iff (numberText : Number → JsText) (v : JsonLike) :
    (∃ out n, redactCardData numberText v.value = .ok (out, n) ∧
      Redacts numberText v.value out) ↔ Plain v.value := by
  have hv : Distinct v.value := ⟨32, v.jsonLike⟩
  constructor
  · rintro ⟨out, n, hwalk, hredacts⟩
    have hbecomes : Becomes numberText 33 v.value out := ⟨n, hwalk⟩
    refine ⟨fun p entries hp hat e he hallowed hshows => ?_, fun p t hp hat hfree => ?_⟩
    · obtain ⟨left', w', hww', hout⟩ := at_forward p hv hbecomes hp hat
      obtain ⟨-, left'', w, hw, hww'', hat'⟩ := at_backward p hv hbecomes hout
      rw [hat, Option.some.injEq] at hat'
      subst hat'
      cases left'' with
      | zero =>
        obtain ⟨k, h⟩ := hww''
        cases h
      | succ left'' =>
        obtain ⟨items, rfl, -⟩ := walk_object (distinct_entries hw).1 hww''
        obtain ⟨entries', heq, -, hcopies⟩ := becomes_object hw hww''
        cases heq
        have hproto : e.1 ≠ PROTO := fun hproto => not_shows_proto (hproto ▸ hshows)
        obtain ⟨e', he', hkey⟩ := hcopies e he (copied_iff.mpr ⟨hallowed, hproto⟩)
        exact hredacts.clean.keys p items hout e' he' (hkey ▸ hshows)
    · exact (at_backward p hv hbecomes (hredacts.texts p t hp hat hfree)).1
  · intro hplain
    have htotal : ∃ out, Becomes numberText 33 v.value out := walk_total 32 v.jsonLike
    obtain ⟨out, n, hwalk⟩ := htotal
    have hbecomes : Becomes numberText 33 v.value out := ⟨n, hwalk⟩
    have hobject : ∀ p items, out.at? p = some (.object items) → ∀ e' ∈ items,
        isForbiddenCardKey e'.1 = false ∧ ¬ Shows e'.1 := by
      intro p items hout e' he'
      obtain ⟨hp, left', w, hw, hww', hat⟩ := at_backward p hv hbecomes hout
      obtain ⟨entries, rfl, hentries, -⟩ := becomes_object hw hww'
      obtain ⟨e, he, hcopied, hkey⟩ := hentries e' he'
      have hallowed := (copied_iff.mp hcopied).1
      rw [hkey]
      exact ⟨hallowed, hplain.keys p entries hp hat e he hallowed⟩
    refine ⟨out, n, hwalk, ⟨?_, ?_, ?_, ?_, ?_⟩, walk_again 33 hv hbecomes, ?_⟩
    · exact fun p items hout e' he' => (hobject p items hout e' he').1
    · exact fun p items hout e' he' => (hobject p items hout e' he').2
    · intro p t hout
      obtain ⟨-, left', w, -, hww', -⟩ := at_backward p hv hbecomes hout
      exact (becomes_hidden hww').1 t rfl
    · intro p m hout
      obtain ⟨-, left', w, -, hww', -⟩ := at_backward p hv hbecomes hout
      exact (becomes_hidden hww').2.1 m rfl
    · intro p m hout
      obtain ⟨-, left', w, -, hww', -⟩ := at_backward p hv hbecomes hout
      exact (becomes_hidden hww').2.2 m rfl
    · intro p t hp hat hfree
      obtain ⟨left', w', ⟨k, hww'⟩, hout⟩ :=
        at_forward p hv hbecomes (hplain.texts p t hp hat hfree) hat
      cases left' with
      | zero => cases hww'
      | succ left' =>
        rw [walk_text hfree] at hww'
        cases hww'
        exact hout

namespace Sample

/-- `toString` of the integers a double counts one by one. -/
def text : Number → JsText
  | some q => bigintText q.num
  | none => points "NaN".toList

def cardKey : JsText := points "4111 1111 1111 1111".toList

def keyed : JsonLike := ⟨.object [(cardKey, .bool true)], by decide⟩

end Sample

/-- A key that is a card number stays. -/
theorem redactCardData_keeps_key : ¬ ∃ out n,
    redactCardData Sample.text Sample.keyed.value = .ok (out, n) ∧
      Redacts Sample.text Sample.keyed.value out := by
  rintro ⟨out, n, hwalk, hredacts⟩
  have hallowed : isForbiddenCardKey Sample.cardKey = false := by decide +kernel
  have hshows : Shows Sample.cardKey :=
    findCardNumberLike_length.mp (by decide +kernel)
  have hout : redactCardData Sample.text Sample.keyed.value =
      .ok (.object [(Sample.cardKey, .bool true)], 0) := by
    change (walkEntries Sample.text 32 ([], 0) [(Sample.cardKey, .bool true)] >>= _) = _
    have hitem : walk Sample.text 32 (.bool true) = .ok (.bool true, 0) := rfl
    rw [walkEntries_item hallowed hitem, assign_new _ (by decide) List.not_mem_nil]
    rfl
  rw [hout, Except.ok.injEq, Prod.mk.injEq] at hwalk
  rw [← hwalk.1] at hredacts
  exact hredacts.clean.keys [] _ rfl _ List.mem_cons_self hshows

end ChainPay.Sdk.Redact
