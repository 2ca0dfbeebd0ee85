import ChainPay.Sdk.CardNumbers

/-!
The walk over a value: it ends for a value nested at most 32 deep, an object keeps the entries
that are copied, and what came out is not changed again.
-/

namespace ChainPay.Sdk.Redact
open ChainPay.Lib

/-- Nested at most `n` deep, with no key twice in an object. -/
def Value.jsonLike : Nat → Value → Bool
  | 0, .array items => items.isEmpty
  | n + 1, .array items => items.all (Value.jsonLike n)
  | 0, .object entries => entries.isEmpty
  | n + 1, .object entries =>
    (entries.map Prod.fst).Nodup && entries.all fun e => Value.jsonLike n e.2
  | _, _ => true

structure JsonLike where
  value : Value
  jsonLike : value.jsonLike 32 = true

/-! ## One level -/

variable {numberText : Number → JsText}

/-- A walk over the first value ends with the second. -/
def Becomes (numberText : Number → JsText) (left : Nat) (v out : Value) : Prop :=
  ∃ n, walk numberText left v = .ok (out, n)

/-- The entries that are copied. -/
def copied (e : JsText × Value) : Bool := !isForbiddenCardKey e.1 && e.1 ≠ PROTO

theorem copied_iff {e : JsText × Value} :
    copied e = true ↔ isForbiddenCardKey e.1 = false ∧ e.1 ≠ PROTO := by
  rw [copied, Bool.and_eq_true, Bool.not_eq_true', decide_eq_true_iff]

theorem assign_new {out : List (JsText × Value)} {name : JsText} (item : Value)
    (hproto : name ≠ PROTO) (hnew : name ∉ out.map Prod.fst) :
    assign out name item = out ++ [(name, item)] := by
  rw [assign, if_neg hproto, if_neg hnew]

/-- The loop over the entries of an object. -/
def walkEntries (numberText : Number → JsText) (left : Nat)
    (acc : List (JsText × Value) × Nat) (entries : List (JsText × Value)) :
    Except RedactError (List (JsText × Value) × Nat) :=
  entries.foldlM (fun (out, redactions) (key, item) =>
    if isForbiddenCardKey key then .ok (out, redactions + 1)
    else do
      let (item, found) ← walk numberText left item
      .ok (assign out key item, redactions + found)) acc

theorem walkEntries_forbidden {left : Nat} {out : List (JsText × Value)} {k : Nat}
    {name : JsText} {item : Value} {entries : List (JsText × Value)}
    (h : isForbiddenCardKey name = true) :
    walkEntries numberText left (out, k) ((name, item) :: entries) =
      walkEntries numberText left (out, k + 1) entries := by
  rw [walkEntries, List.foldlM_cons]
  dsimp only
  rw [if_pos h]
  rfl

theorem walkEntries_item {left : Nat} {out : List (JsText × Value)} {k found : Nat}
    {name : JsText} {item item' : Value} {entries : List (JsText × Value)}
    (h : isForbiddenCardKey name = false) (hitem : walk numberText left item = .ok (item', found)) :
    walkEntries numberText left (out, k) ((name, item) :: entries) =
      walkEntries numberText left (assign out name item', k + found) entries := by
  rw [walkEntries, List.foldlM_cons]
  dsimp only
  rw [if_neg (Bool.eq_false_iff.mp h), hitem]
  rfl

theorem walkEntries_error {left : Nat} {out : List (JsText × Value)} {k : Nat}
    {name : JsText} {item : Value} {entries : List (JsText × Value)} {e : RedactError}
    (h : isForbiddenCardKey name = false) (hitem : walk numberText left item = .error e) :
    walkEntries numberText left (out, k) ((name, item) :: entries) = .error e := by
  rw [walkEntries, List.foldlM_cons]
  dsimp only
  rw [if_neg (Bool.eq_false_iff.mp h), hitem]
  rfl

/-- The entries that come out are the copied ones, in order, each with its item redacted. -/
theorem walkEntries_copied {left : Nat} (entries : List (JsText × Value)) :
    ∀ (acc : List (JsText × Value)) (k : Nat) (out : List (JsText × Value)) (n : Nat),
      (acc.map Prod.fst ++ entries.map Prod.fst).Nodup →
      walkEntries numberText left (acc, k) entries = .ok (out, n) →
      ∃ items, out = acc ++ items ∧ List.Forall₂
        (fun e e' => e'.1 = e.1 ∧ Becomes numberText left e.2 e'.2)
        (entries.filter copied) items := by
  induction entries with
  | nil =>
    rintro acc k out n - h
    cases h
    exact ⟨[], (List.append_nil acc).symm, .nil⟩
  | cons e entries ih =>
    obtain ⟨name, item⟩ := e
    intro acc k out n hnodup h
    have hrest : (acc.map Prod.fst ++ entries.map Prod.fst).Nodup :=
      hnodup.sublist ((List.Sublist.refl _).append (List.sublist_cons_self _ _))
    have hnew : name ∉ acc.map Prod.fst := fun hmem =>
      (List.nodup_append.mp hnodup).2.2 name hmem name List.mem_cons_self rfl
    cases hforbidden : isForbiddenCardKey name with
    | true =>
      rw [walkEntries_forbidden hforbidden] at h
      have hskip : copied (name, item) = false := by
        rw [copied, hforbidden]
        rfl
      rw [List.filter_cons_of_neg (Bool.eq_false_iff.mp hskip)]
      exact ih acc (k + 1) out n hrest h
    | false =>
      cases hitem : walk numberText left item with
      | error e =>
        rw [walkEntries_error hforbidden hitem] at h
        cases h
      | ok found =>
        obtain ⟨item', found⟩ := found
        rw [walkEntries_item hforbidden hitem] at h
        by_cases hproto : name = PROTO
        · have hskip : ¬ copied (name, item) = true := fun hc => (copied_iff.mp hc).2 hproto
          rw [assign, if_pos hproto] at h
          rw [List.filter_cons_of_neg hskip]
          exact ih acc (k + found) out n hrest h
        · rw [assign_new item' hproto hnew] at h
          have hmoved : ((acc ++ [(name, item')]).map Prod.fst ++ entries.map Prod.fst).Nodup := by
            rw [List.map_append, List.append_assoc]
            exact hnodup
          obtain ⟨items, rfl, hitems⟩ := ih _ _ out n hmoved h
          refine ⟨(name, item') :: items, by rw [List.append_assoc]; rfl, ?_⟩
          rw [List.filter_cons_of_pos (copied_iff.mpr ⟨hforbidden, hproto⟩)]
          exact .cons ⟨rfl, found, hitem⟩ hitems

theorem walkEntries_total {left : Nat} {entries : List (JsText × Value)} :
    (∀ e ∈ entries, ∃ out, Becomes numberText left e.2 out) →
    ∀ acc, ∃ out, walkEntries numberText left acc entries = .ok out := by
  induction entries with
  | nil => exact fun _ acc => ⟨acc, rfl⟩
  | cons e entries ih =>
    rintro h ⟨acc, k⟩
    have hrest := ih fun x hx => h x (List.mem_cons_of_mem _ hx)
    obtain ⟨name, item⟩ := e
    cases hforbidden : isForbiddenCardKey name with
    | true =>
      rw [walkEntries_forbidden hforbidden]
      exact hrest _
    | false =>
      obtain ⟨item', found, hitem⟩ := h (name, item) List.mem_cons_self
      rw [walkEntries_item hforbidden hitem]
      exact hrest _

theorem walkEntries_again {left : Nat} {entries : List (JsText × Value)} :
    ∀ (acc : List (JsText × Value)) (k : Nat),
      (acc.map Prod.fst ++ entries.map Prod.fst).Nodup →
      (∀ e ∈ entries, copied e = true ∧ walk numberText left e.2 = .ok (e.2, 0)) →
      walkEntries numberText left (acc, k) entries = .ok (acc ++ entries, k) := by
  induction entries with
  | nil =>
    intro acc k _ _
    rw [List.append_nil]
    rfl
  | cons e entries ih =>
    obtain ⟨name, item⟩ := e
    intro acc k hnodup h
    obtain ⟨hcopied, hitem⟩ := h (name, item) List.mem_cons_self
    obtain ⟨hforbidden, hproto⟩ := copied_iff.mp hcopied
    have hnew : name ∉ acc.map Prod.fst := fun hmem =>
      (List.nodup_append.mp hnodup).2.2 name hmem name List.mem_cons_self rfl
    have hmoved : ((acc ++ [(name, item)]).map Prod.fst ++ entries.map Prod.fst).Nodup := by
      rw [List.map_append, List.append_assoc]
      exact hnodup
    rw [walkEntries_item hforbidden hitem, assign_new item hproto hnew,
      ih _ _ hmoved fun x hx => h x (List.mem_cons_of_mem _ hx), List.append_assoc]
    rfl

/-- No object has a key twice. -/
def Distinct (v : Value) : Prop := ∃ n, v.jsonLike n = true

theorem distinct_item {items : List Value} (h : Distinct (.array items)) :
    ∀ x ∈ items, Distinct x := by
  obtain ⟨n, hn⟩ := h
  intro x hx
  cases n with
  | zero =>
    rw [Value.jsonLike, List.isEmpty_iff] at hn
    rw [hn] at hx
    cases hx
  | succ n =>
    rw [Value.jsonLike, List.all_eq_true] at hn
    exact ⟨n, hn x hx⟩

theorem distinct_entries {entries : List (JsText × Value)} (h : Distinct (.object entries)) :
    (entries.map Prod.fst).Nodup ∧ ∀ e ∈ entries, Distinct e.2 := by
  obtain ⟨n, hn⟩ := h
  cases n with
  | zero =>
    rw [Value.jsonLike, List.isEmpty_iff] at hn
    rw [hn]
    exact ⟨List.nodup_nil, fun _ h => (nomatch h)⟩
  | succ n =>
    rw [Value.jsonLike, Bool.and_eq_true, decide_eq_true_iff, List.all_eq_true] at hn
    exact ⟨hn.1, fun e he => ⟨n, hn.2 e he⟩⟩

theorem walk_array {left : Nat} {items : List Value} {out : Value}
    (h : Becomes numberText (left + 1) (.array items) out) :
    ∃ items', out = .array items' ∧ List.Forall₂ (Becomes numberText left) items items' := by
  obtain ⟨n, h⟩ := h
  rw [walk, bind_eq_ok] at h
  obtain ⟨out', hout, h⟩ := h
  cases h
  refine ⟨_, rfl, ?_⟩
  rw [List.forall₂_map_right_iff]
  exact (mapM_eq_ok.mp hout).imp fun x y hxy => ⟨y.2, hxy⟩

theorem walk_object {left : Nat} {entries : List (JsText × Value)} {out : Value}
    (hnodup : (entries.map Prod.fst).Nodup)
    (h : Becomes numberText (left + 1) (.object entries) out) :
    ∃ items, out = .object items ∧ List.Forall₂
      (fun e e' => e'.1 = e.1 ∧ Becomes numberText left e.2 e'.2) (entries.filter copied) items := by
  obtain ⟨n, h⟩ := h
  rw [walk, bind_eq_ok] at h
  obtain ⟨⟨out', k⟩, hout, h⟩ := h
  cases h
  obtain ⟨_, rfl, hitems⟩ := walkEntries_copied entries [] 0 _ _ hnodup hout
  exact ⟨_, rfl, hitems⟩

theorem nodup_copied {left : Nat} {entries items : List (JsText × Value)}
    (hnodup : (entries.map Prod.fst).Nodup)
    (hitems : List.Forall₂ (fun e e' => e'.1 = e.1 ∧ Becomes numberText left e.2 e'.2)
      (entries.filter copied) items) : (items.map Prod.fst).Nodup := by
  have hmap : List.Forall₂ (· = ·) ((entries.filter copied).map Prod.fst)
      (items.map Prod.fst) := by
    rw [List.forall₂_map_left_iff, List.forall₂_map_right_iff]
    exact hitems.imp fun _ _ h => h.1.symm
  rw [List.forall₂_eq_eq_eq] at hmap
  rw [← hmap]
  exact hnodup.sublist (List.filter_sublist.map _)

theorem numeral_cases (value : Value) (text : JsText) :
    (¬ Shows text ∧ redactNumeral value text = (value, 0)) ∨
      Shows text ∧ redactNumeral value text = (.text CARD_DATA_REDACTION, 1) := by
  rw [redactNumeral]
  split
  · next h => exact Or.inr ⟨findCardNumberLike_length.mp h, rfl⟩
  · next h => exact Or.inl ⟨fun hs => h (findCardNumberLike_length.mpr hs), rfl⟩

theorem not_shows_redaction : ¬ Shows CARD_DATA_REDACTION :=
  not_shows_of_found (by decide)

theorem not_shows_proto : ¬ Shows PROTO := not_shows_of_found (by decide)

theorem walk_text {left : Nat} {t : JsText} (h : ¬ Shows t) :
    walk numberText (left + 1) (.text t) = .ok (.text t, 0) := by
  rw [walk, redactCardNumbers_of_not_shows h, if_neg fun hne => hne rfl]

/-! ## The walk -/

/-- A value nested at most `n` deep is walked to its end. -/
theorem walk_total (n : Nat) : ∀ {v : Value}, v.jsonLike n = true →
    ∃ out, Becomes numberText (n + 1) v out := by
  induction n with
  | zero =>
    intro v h
    cases v with
    | array items =>
      rw [Value.jsonLike, List.isEmpty_iff] at h
      rw [h]
      exact ⟨.array [], 0, rfl⟩
    | object entries =>
      rw [Value.jsonLike, List.isEmpty_iff] at h
      rw [h]
      exact ⟨.object [], 0, rfl⟩
    | _ => exact ⟨_, _, rfl⟩
  | succ n ih =>
    intro v h
    cases v with
    | array items =>
      rw [Value.jsonLike, List.all_eq_true] at h
      have hitems : ∀ xs : List Value, (∀ x ∈ xs, x.jsonLike n = true) →
          ∃ out, xs.mapM (walk numberText (n + 1)) = .ok out := by
        intro xs
        induction xs with
        | nil => exact fun _ => ⟨[], rfl⟩
        | cons x xs ihs =>
          intro hxs
          obtain ⟨y, k, hy⟩ := ih (hxs x List.mem_cons_self)
          obtain ⟨ys, hys⟩ := ihs fun z hz => hxs z (List.mem_cons_of_mem _ hz)
          exact ⟨(y, k) :: ys, mapM_eq_ok.mpr (.cons hy (mapM_eq_ok.mp hys))⟩
      obtain ⟨out, hout⟩ := hitems items h
      refine ⟨.array (out.map Prod.fst), (out.map Prod.snd).sum, ?_⟩
      rw [walk, hout]
      rfl
    | object entries =>
      rw [Value.jsonLike, Bool.and_eq_true, List.all_eq_true] at h
      have htotal : ∃ out, walkEntries numberText (n + 1) ([], 0) entries = .ok out :=
        walkEntries_total (fun e he => ih (h.2 e he)) ([], 0)
      obtain ⟨⟨out, k⟩, hout⟩ := htotal
      refine ⟨.object out, k, ?_⟩
      change (walkEntries numberText (n + 1) ([], 0) entries >>= _) = _
      rw [hout]
      rfl
    | _ => exact ⟨_, _, rfl⟩

/-- What came out is not changed again. -/
theorem walk_again (left : Nat) : ∀ {v out : Value}, Distinct v → Becomes numberText left v out →
    walk numberText left out = .ok (out, 0) := by
  induction left with
  | zero =>
    rintro v out - ⟨n, h⟩
    cases h
  | succ left ih =>
    intro v out hv h
    have hnumeral : ∀ (value : Value) (text : JsText),
        walk numberText (left + 1) value = .ok (redactNumeral value text) →
        walk numberText (left + 1) (redactNumeral value text).1 =
          .ok ((redactNumeral value text).1, 0) := by
      intro value text hwalk
      rcases numeral_cases value text with ⟨-, hkept⟩ | ⟨-, hgone⟩
      · rw [hkept] at hwalk ⊢
        exact hwalk
      · rw [hgone]
        exact walk_text not_shows_redaction
    cases v with
    | text t =>
      obtain ⟨n, h⟩ := h
      cases h
      exact walk_text (redactCardNumbers_hides t)
    | number m =>
      obtain ⟨n, h⟩ := h
      have hwalk := hnumeral (.number m) (numberText m) rfl
      rw [Except.ok.inj h] at hwalk
      exact hwalk
    | bigint m =>
      obtain ⟨n, h⟩ := h
      have hwalk := hnumeral (.bigint m) (bigintText m) rfl
      rw [Except.ok.inj h] at hwalk
      exact hwalk
    | array items =>
      obtain ⟨items', rfl, hitems⟩ := walk_array h
      have hagain : items'.mapM (walk numberText left) = .ok (items'.map fun x => (x, 0)) := by
        rw [mapM_eq_ok, List.forall₂_map_right_iff, List.forall₂_same]
        intro y hy
        obtain ⟨x, hx, hxy⟩ := exists_left hitems hy
        exact ih (distinct_item hv x hx) hxy
      have hsum : ∀ xs : List Value, ((xs.map fun x => (x, 0)).map Prod.snd).sum = 0 := by
        intro xs
        rw [List.sum_eq_zero]
        intro k hk
        rw [List.map_map] at hk
        obtain ⟨x, -, rfl⟩ := List.mem_map.mp hk
        rfl
      rw [walk, hagain, ok_bind, hsum, List.map_map]
      exact congrArg (fun xs => Except.ok (Value.array xs, 0)) (List.map_id items')
    | object entries =>
      obtain ⟨hnodup, hdistinct⟩ := distinct_entries hv
      obtain ⟨items, rfl, hitems⟩ := walk_object hnodup h
      have hagain : walkEntries numberText left ([], 0) items = .ok (items, 0) := by
        apply walkEntries_again [] 0 (nodup_copied hnodup hitems)
        intro e' he'
        obtain ⟨e, he, hkey, hitem⟩ := exists_left hitems he'
        obtain ⟨hentry, hcopied⟩ := List.mem_filter.mp he
        refine ⟨?_, ih (hdistinct e hentry) hitem⟩
        rw [copied_iff] at hcopied ⊢
        rw [hkey]
        exact hcopied
      change (walkEntries numberText left ([], 0) items >>= _) = _
      rw [hagain]
      rfl
    | _ =>
      obtain ⟨n, h⟩ := h
      cases h
      rfl

end ChainPay.Sdk.Redact
