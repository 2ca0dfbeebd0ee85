import Mathlib.Computability.Language

/-!
Backtracking matching with greedy counts, and global search and replacement. A matcher gives the
ends of its matches in the order they are tried; a pattern also looks at the characters on both
sides. Where every word of the language would itself stop a neighbour, no occurrence is left
after a replacement (`Pattern.replace_free`).
-/

namespace ChainPay.Lib

variable {α : Type}

/-- What is left of the text after each match at its start, the preferred one first. -/
abbrev Matcher (α : Type) := List α → List (List α)

namespace Matcher

def one (p : α → Bool) : Matcher α
  | [] => []
  | c :: s => if p c then [s] else []

def seq (m n : Matcher α) : Matcher α := fun s => (m s).flatMap n

def either (m n : Matcher α) : Matcher α := fun s => m s ++ n s

def maybe (m : Matcher α) : Matcher α := fun s => m s ++ [s]

def times : Nat → Matcher α → Matcher α
  | 0, _ => fun s => [s]
  | n + 1, m => seq m (times n m)

def upTo : Nat → Matcher α → Matcher α
  | 0, _ => fun s => [s]
  | n + 1, m => maybe (seq m (upTo n m))

/-- The matches are the words of the language. -/
def Recognises (m : Matcher α) (L : Language α) : Prop :=
  ∀ s rest, rest ∈ m s ↔ ∃ w ∈ L, w ++ rest = s

/-- The words of one character of a class. -/
def single (p : α → Bool) : Language α := {w | ∃ c, p c = true ∧ w = [c]}

/-- The words made of at most `n` words. -/
def atMost (n : Nat) (L : Language α) : Language α := {w | ∃ k ≤ n, w ∈ L ^ k}

theorem recognises_one (p : α → Bool) : Recognises (one p) (single p) := by
  intro s rest
  constructor
  · intro h
    cases s with
    | nil => cases h
    | cons c s =>
      rw [one] at h
      split at h
      · next hc =>
        cases List.mem_singleton.mp h
        exact ⟨[c], ⟨c, hc, rfl⟩, rfl⟩
      · cases h
  · rintro ⟨w, ⟨c, hc, rfl⟩, rfl⟩
    change rest ∈ if p c then [rest] else []
    rw [if_pos hc]
    exact List.mem_singleton.mpr rfl

theorem recognises_here : Recognises (fun s : List α => [s]) 1 := by
  intro s rest
  rw [List.mem_singleton]
  constructor
  · rintro rfl
    exact ⟨[], rfl, rfl⟩
  · rintro ⟨w, hw, rfl⟩
    rw [(Language.mem_one w).mp hw]
    rfl

theorem Recognises.seq {m n : Matcher α} {L M : Language α} (hm : Recognises m L)
    (hn : Recognises n M) : Recognises (seq m n) (L * M) := by
  intro s rest
  rw [Matcher.seq, List.mem_flatMap]
  constructor
  · rintro ⟨middle, hmiddle, hrest⟩
    obtain ⟨v, hv, rfl⟩ := (hm s middle).mp hmiddle
    obtain ⟨w, hw, rfl⟩ := (hn middle rest).mp hrest
    exact ⟨v ++ w, Language.append_mem_mul hv hw, List.append_assoc v w rest⟩
  · rintro ⟨x, hx, rfl⟩
    obtain ⟨v, hv, w, hw, rfl⟩ := Language.mem_mul.mp hx
    refine ⟨w ++ rest, (hm _ _).mpr ⟨v, hv, ?_⟩, (hn _ _).mpr ⟨w, hw, rfl⟩⟩
    rw [List.append_assoc]

theorem Recognises.either {m n : Matcher α} {L M : Language α} (hm : Recognises m L)
    (hn : Recognises n M) : Recognises (either m n) (L + M) := by
  intro s rest
  rw [Matcher.either, List.mem_append, hm s rest, hn s rest]
  constructor
  · rintro (⟨w, hw, h⟩ | ⟨w, hw, h⟩)
    · exact ⟨w, Or.inl hw, h⟩
    · exact ⟨w, Or.inr hw, h⟩
  · rintro ⟨w, hw | hw, h⟩
    · exact Or.inl ⟨w, hw, h⟩
    · exact Or.inr ⟨w, hw, h⟩

theorem Recognises.maybe {m : Matcher α} {L : Language α} (hm : Recognises m L) :
    Recognises (maybe m) (L + 1) := hm.either recognises_here

theorem Recognises.times {m : Matcher α} {L : Language α} (hm : Recognises m L) (n : Nat) :
    Recognises (times n m) (L ^ n) := by
  induction n with
  | zero => exact recognises_here
  | succ n ih =>
    rw [pow_succ']
    exact hm.seq ih

theorem Recognises.upTo {m : Matcher α} {L : Language α} (hm : Recognises m L) (n : Nat) :
    Recognises (upTo n m) (atMost n L) := by
  induction n with
  | zero =>
    intro s rest
    rw [show Matcher.upTo 0 m = fun s => [s] from rfl, recognises_here s rest]
    constructor
    · rintro ⟨w, hw, h⟩
      exact ⟨w, ⟨0, le_rfl, hw⟩, h⟩
    · rintro ⟨w, ⟨k, hk, hw⟩, h⟩
      rw [Nat.le_zero.mp hk] at hw
      exact ⟨w, hw, h⟩
  | succ n ih =>
    intro s rest
    rw [show Matcher.upTo (n + 1) m = Matcher.maybe (m.seq (Matcher.upTo n m)) from rfl,
      (hm.seq ih).maybe s rest]
    constructor
    · rintro ⟨w, hw | hw, h⟩
      · obtain ⟨u, hu, v, ⟨k, hk, hv⟩, rfl⟩ := Language.mem_mul.mp hw
        refine ⟨u ++ v, ⟨k + 1, Nat.succ_le_succ hk, ?_⟩, h⟩
        rw [pow_succ']
        exact Language.append_mem_mul hu hv
      · exact ⟨w, ⟨0, Nat.zero_le _, hw⟩, h⟩
    · rintro ⟨w, ⟨k, hk, hw⟩, h⟩
      refine ⟨w, ?_, h⟩
      cases k with
      | zero => exact Or.inr hw
      | succ k =>
        rw [pow_succ'] at hw
        obtain ⟨u, hu, v, hv, rfl⟩ := Language.mem_mul.mp hw
        exact Or.inl (Language.append_mem_mul hu ⟨k, Nat.le_of_succ_le_succ hk, hv⟩)

/-- The word takes the whole text. -/
def whole (m : Matcher α) (s : List α) : Bool := (m s).any List.isEmpty

end Matcher

/-- A matcher between a lookbehind and a lookahead that each forbid a class. -/
structure Pattern (α : Type) where
  behind : α → Bool
  body : Matcher α
  ahead : α → Bool

/-- The text after the match at this place, `prev` standing before it. -/
def Pattern.here (q : Pattern α) (prev : Option α) (s : List α) : Option (List α) :=
  if prev.any q.behind then none else (q.body s).find? fun rest => !rest.head?.any q.ahead

inductive Piece (α : Type) where
  | kept (c : α)
  | found (w : List α)

/-- The search from left to right; `skip` characters still belong to the last match. -/
def Pattern.scan (q : Pattern α) : Option α → Nat → List α → List (Piece α)
  | _, _, [] => []
  | _, skip + 1, c :: s => q.scan (some c) skip s
  | prev, 0, c :: s =>
    match q.here prev (c :: s) with
    | none => .kept c :: q.scan (some c) 0 s
    | some rest =>
      .found ((c :: s).take (s.length + 1 - rest.length)) ::
        q.scan (some c) (s.length - rest.length) s

def Piece.word : Piece α → Option (List α)
  | .kept _ => none
  | .found w => some w

def Piece.replaced (sub : List α) : Piece α → List α
  | .kept c => [c]
  | .found _ => sub

/-- `text.match` of a global pattern. -/
def Pattern.matchAll (q : Pattern α) (s : List α) : List (List α) :=
  (q.scan none 0 s).filterMap Piece.word

/-- `text.replace` of a global pattern. -/
def Pattern.replace (q : Pattern α) (sub s : List α) : List α :=
  (q.scan none 0 s).flatMap (Piece.replaced sub)

/-- A word of the language stands in the text between neighbours that let it stand. -/
def Pattern.Occurs (q : Pattern α) (L : Language α) (prev : Option α) (s : List α) : Prop :=
  ∃ before w after, s = before ++ (w ++ after) ∧ w ∈ L ∧
    (∀ c ∈ before.getLast?.or prev, q.behind c = false) ∧ ∀ c ∈ after.head?, q.ahead c = false

/-- Words are not empty, and the ends of one would not let another stand beside it. -/
structure Pattern.Framed (q : Pattern α) (L : Language α) : Prop where
  body : q.body.Recognises L
  first : ∀ w ∈ L, ∃ c ∈ w.head?, q.ahead c = true
  last : ∀ w ∈ L, ∃ c ∈ w.getLast?, q.behind c = true

namespace Pattern

variable {q : Pattern α} {L : Language α} {prev : Option α} {s rest sub : List α}

theorem any_eq_false {p : α → Bool} {o : Option α} :
    o.any p = false ↔ ∀ c ∈ o, p c = false := by
  cases o with
  | none => exact ⟨fun _ _ h => (nomatch h), fun _ => rfl⟩
  | some c =>
    constructor
    · intro h x hx
      rw [← Option.mem_some_iff.mp hx]
      exact h
    · intro h
      exact h c rfl

theorem here_eq_some (hq : q.body.Recognises L) (h : q.here prev s = some rest) :
    (∀ c ∈ prev, q.behind c = false) ∧ (∀ c ∈ rest.head?, q.ahead c = false) ∧
      ∃ w ∈ L, w ++ rest = s := by
  rw [here] at h
  split at h
  · cases h
  · next hprev =>
    refine ⟨any_eq_false.mp (Bool.eq_false_iff.mpr hprev), ?_, ?_⟩
    · have hahead := List.find?_some h
      rw [Bool.not_eq_true'] at hahead
      exact any_eq_false.mp hahead
    · exact (hq s rest).mp (List.mem_of_find?_eq_some h)

theorem here_isSome (hq : q.body.Recognises L) {w : List α} (hw : w ∈ L)
    (hprev : ∀ c ∈ prev, q.behind c = false) (hrest : ∀ c ∈ rest.head?, q.ahead c = false) :
    (q.here prev (w ++ rest)).isSome = true := by
  rw [here, if_neg (Bool.eq_false_iff.mp (any_eq_false.mpr hprev)), List.find?_isSome]
  refine ⟨rest, (hq _ _).mpr ⟨w, hw, rfl⟩, ?_⟩
  rw [Bool.not_eq_true']
  exact any_eq_false.mpr hrest

theorem Framed.ne_nil (hq : q.Framed L) {w : List α} (hw : w ∈ L) : w ≠ [] := by
  rintro rfl
  obtain ⟨c, hc, -⟩ := hq.first [] hw
  cases hc

/-- The characters of a match are passed over. -/
theorem scan_skip (v s : List α) (prev : Option α) :
    q.scan prev v.length (v ++ s) = q.scan (v.getLast?.or prev) 0 s := by
  induction v generalizing prev with
  | nil => rfl
  | cons c v ih =>
    change q.scan (some c) v.length (v ++ s) = _
    rw [ih, List.getLast?_cons]
    cases v.getLast? <;> rfl

theorem scan_kept {c : α} (h : q.here prev (c :: s) = none) :
    q.scan prev 0 (c :: s) = .kept c :: q.scan (some c) 0 s := by
  rw [scan, h]

theorem scan_found {w : List α} (hw : w ≠ []) (h : q.here prev (w ++ rest) = some rest) :
    q.scan prev 0 (w ++ rest) = .found w :: q.scan w.getLast? 0 rest := by
  obtain ⟨c, v, rfl⟩ := List.exists_cons_of_ne_nil hw
  rw [List.cons_append] at h ⊢
  rw [scan, h]
  have hlen : (v ++ rest).length - rest.length = v.length := by
    rw [List.length_append, Nat.add_sub_cancel]
  have htake : (v ++ rest).length + 1 - rest.length = v.length + 1 := by
    rw [List.length_append]
    omega
  dsimp only
  rw [hlen, htake, scan_skip, List.take_succ_cons, List.take_left, List.getLast?_cons]
  cases v.getLast? <;> rfl

/-- What the search does at a place: it takes a word there, or passes one character. -/
theorem scan_cases (hq : q.Framed L) (prev : Option α) (s : List α) :
    s = [] ∨
    (∃ c t, s = c :: t ∧ q.here prev s = none ∧
      q.scan prev 0 s = .kept c :: q.scan (some c) 0 t) ∨
    ∃ w rest, s = w ++ rest ∧ w ∈ L ∧ (∀ c ∈ prev, q.behind c = false) ∧
      (∀ c ∈ rest.head?, q.ahead c = false) ∧
      q.scan prev 0 s = .found w :: q.scan w.getLast? 0 rest := by
  cases s with
  | nil => exact Or.inl rfl
  | cons c t =>
    refine Or.inr ?_
    cases h : q.here prev (c :: t) with
    | none => exact Or.inl ⟨c, t, rfl, rfl, scan_kept h⟩
    | some rest =>
      obtain ⟨hprev, hrest, w, hw, hs⟩ := here_eq_some hq.body h
      refine Or.inr ⟨w, rest, hs.symm, hw, hprev, hrest, ?_⟩
      rw [← hs] at h ⊢
      exact scan_found (hq.ne_nil hw) h

theorem occurs_cons {c : α} :
    q.Occurs L prev (c :: s) ↔
      q.Occurs L (some c) s ∨ (∀ x ∈ prev, q.behind x = false) ∧ ∃ w after, c :: s = w ++ after ∧
        w ∈ L ∧ ∀ x ∈ after.head?, q.ahead x = false := by
  constructor
  · rintro ⟨before, w, after, hs, hw, hbefore, hafter⟩
    cases before with
    | nil => exact Or.inr ⟨hbefore, w, after, hs, hw, hafter⟩
    | cons b before =>
      rw [List.cons_append, List.cons.injEq] at hs
      refine Or.inl ⟨before, w, after, hs.2, hw, ?_, hafter⟩
      rw [List.getLast?_cons, ← hs.1] at hbefore
      cases hlast : before.getLast? <;> rw [hlast] at hbefore <;> exact hbefore
  · rintro (⟨before, w, after, rfl, hw, hbefore, hafter⟩ | ⟨hprev, w, after, hs, hw, hafter⟩)
    · refine ⟨c :: before, w, after, rfl, hw, ?_, hafter⟩
      rw [List.getLast?_cons]
      cases hlast : before.getLast? <;> rw [hlast] at hbefore <;> exact hbefore
    · exact ⟨[], w, after, hs, hw, hprev, hafter⟩

/-- A text without an occurrence is passed character by character. -/
theorem scan_of_free (hq : q.Framed L) (h : ¬ q.Occurs L prev s) :
    q.scan prev 0 s = s.map .kept := by
  induction s generalizing prev with
  | nil => rfl
  | cons c s ih =>
    rcases scan_cases hq prev (c :: s) with hnil | ⟨d, t, hs, -, hscan⟩ |
      ⟨w, rest, hs, hw, hprev, hrest, -⟩
    · cases hnil
    · cases hs
      rw [hscan, List.map_cons, ih fun hoccurs => h (occurs_cons.mpr (Or.inl hoccurs))]
    · exact absurd (occurs_cons.mpr (Or.inr ⟨hprev, w, rest, hs, hw, hrest⟩)) h

theorem replace_eq_self (hq : q.Framed L) (h : ¬ q.Occurs L none s) : q.replace sub s = s := by
  rw [replace, scan_of_free hq h, List.flatMap_map]
  exact List.flatMap_singleton' s

/-- What the search finds is what occurs. -/
theorem matchAll_eq_nil (hq : q.Framed L) : q.matchAll s = [] ↔ ¬ q.Occurs L none s := by
  constructor
  · have hall : ∀ (s : List α) (prev : Option α), (q.scan prev 0 s).filterMap Piece.word = [] →
        ¬ q.Occurs L prev s := by
      intro s
      induction s with
      | nil =>
        rintro prev - ⟨before, w, after, hs, hw, -⟩
        have hnil := List.append_eq_nil_iff.mp hs.symm
        exact hq.ne_nil hw (List.append_eq_nil_iff.mp hnil.2).1
      | cons c s ih =>
        intro prev hnone hoccurs
        rcases scan_cases hq prev (c :: s) with hnil | ⟨d, t, hs, hhere, hscan⟩ |
          ⟨w, rest, -, -, -, -, hscan⟩
        · cases hnil
        · cases hs
          rw [hscan] at hnone
          rcases occurs_cons.mp hoccurs with hlater | ⟨hprev, w, after, hs, hw, hafter⟩
          · exact ih (some c) hnone hlater
          · have hsome := here_isSome hq.body hw hprev hafter
            rw [← hs, hhere] at hsome
            cases hsome
        · rw [hscan] at hnone
          cases hnone
    exact hall s none
  · intro h
    rw [matchAll, scan_of_free hq h, List.filterMap_map]
    exact List.filterMap_eq_nil_iff.mpr fun _ _ => rfl

/-- A run of kept characters whose last one would stop a match stands in the text as it stands
in the result. -/
theorem kept_run (hq : q.Framed L) (hsub : sub ≠ []) (v : List α) :
    ∀ (s : List α) (prev : Option α) (after : List α),
      (q.scan prev 0 s).flatMap (Piece.replaced sub) = v ++ after → (∀ c ∈ v, c ∉ sub) →
      (∃ c ∈ v.getLast?.or prev, q.behind c = true) → (∀ c ∈ after.head?, q.ahead c = false) →
      ∃ rest, s = v ++ rest ∧ ∀ c ∈ rest.head?, q.ahead c = false := by
  induction v with
  | nil =>
    intro s prev after hout _ hlast hafter
    refine ⟨s, rfl, ?_⟩
    rcases scan_cases hq prev s with rfl | ⟨c, t, rfl, -, hscan⟩ | ⟨w, rest, rfl, -, hprev, -, -⟩
    · exact fun _ h => (nomatch h)
    · rw [hscan, List.nil_append] at hout
      rw [← hout] at hafter
      exact hafter
    · obtain ⟨c, hc, hbehind⟩ := hlast
      exact absurd hbehind (Bool.eq_false_iff.mp (hprev c hc))
  | cons d v ih =>
    intro s prev after hout hforeign hlast hafter
    rcases scan_cases hq prev s with rfl | ⟨c, t, rfl, -, hscan⟩ | ⟨w, rest, rfl, -, -, -, hscan⟩
    · cases hout
    · rw [hscan, List.flatMap_cons, Piece.replaced, List.singleton_append, List.cons_append,
        List.cons.injEq] at hout
      obtain ⟨rfl, hout⟩ := hout
      rw [List.getLast?_cons] at hlast
      obtain ⟨rest, rfl, hrest⟩ := ih t (some c) after hout
        (fun x hx => hforeign x (List.mem_cons_of_mem _ hx))
        (by cases hv : v.getLast? <;> rw [hv] at hlast <;> exact hlast) hafter
      exact ⟨rest, rfl, hrest⟩
    · obtain ⟨e, sub', rfl⟩ := List.exists_cons_of_ne_nil hsub
      rw [hscan, List.flatMap_cons, Piece.replaced, List.cons_append, List.cons_append,
        List.cons.injEq] at hout
      exact absurd List.mem_cons_self (hout.1 ▸ hforeign d List.mem_cons_self)

/-- `prev'` stands before the result where `prev` stands before the text: after a replacement
they differ, but then no word starts here. -/
theorem scan_free (hq : q.Framed L) (hsub : sub ≠ []) (hforeign : ∀ w ∈ L, ∀ c ∈ w, c ∉ sub)
    (n : Nat) : ∀ (s : List α) (prev prev' : Option α), s.length ≤ n →
      (prev' = prev ∨ ∀ c ∈ s.head?, q.ahead c = false) →
      ¬ q.Occurs L prev' ((q.scan prev 0 s).flatMap (Piece.replaced sub)) := by
  induction n with
  | zero =>
    rintro s prev prev' hn - ⟨before, w, after, hs, hw, -⟩
    rw [List.eq_nil_of_length_eq_zero (Nat.le_zero.mp hn)] at hs
    have hnil := List.append_eq_nil_iff.mp hs.symm
    exact hq.ne_nil hw (List.append_eq_nil_iff.mp hnil.2).1
  | succ n ih =>
    intro s prev prev' hn hstart hoccurs
    rcases scan_cases hq prev s with rfl | ⟨c, t, rfl, hhere, hscan⟩ |
      ⟨w, rest, rfl, hw, -, hrest, hscan⟩
    · exact ih [] prev prev' (Nat.zero_le n) (Or.inr fun _ h => (nomatch h)) hoccurs
    · rw [hscan, List.flatMap_cons, Piece.replaced, List.singleton_append] at hoccurs
      rcases occurs_cons.mp hoccurs with hlater | ⟨hprev, w, after, hout, hw, hafter⟩
      · exact ih t (some c) (some c) (Nat.le_of_succ_le_succ hn) (Or.inl rfl) hlater
      · obtain ⟨d, v, rfl⟩ := List.exists_cons_of_ne_nil (hq.ne_nil hw)
        rw [List.cons_append, List.cons.injEq] at hout
        obtain ⟨rfl, hout⟩ := hout
        rcases hstart with rfl | hahead
        · obtain ⟨x, hx, hbehind⟩ := hq.last _ hw
          rw [List.getLast?_cons] at hx
          obtain ⟨rest, rfl, hrest⟩ := kept_run hq hsub v t (some c) after hout
            (fun x hx => hforeign _ hw x (List.mem_cons_of_mem _ hx))
            ⟨x, by cases hv : v.getLast? <;> rw [hv] at hx <;> exact hx, hbehind⟩ hafter
          have hsome := here_isSome hq.body hw hprev hrest
          rw [List.cons_append, hhere] at hsome
          cases hsome
        · obtain ⟨x, hx, htrue⟩ := hq.first _ hw
          exact absurd htrue (Bool.eq_false_iff.mp (hahead x hx))
    · rw [hscan, List.flatMap_cons, Piece.replaced] at hoccurs
      obtain ⟨before, v, after, hout, hv, hbefore, hafter⟩ := hoccurs
      have hlen : rest.length ≤ n := by
        have hpos := List.length_pos_of_ne_nil (hq.ne_nil hw)
        rw [List.length_append] at hn
        omega
      -- the word shares no character with the replacement, so it stands behind it
      have hsplit : ∃ middle, before = sub ++ middle ∧
          (q.scan w.getLast? 0 rest).flatMap (Piece.replaced sub) = middle ++ (v ++ after) := by
        rcases List.append_eq_append_iff.mp hout with ⟨middle, hb, ho⟩ | ⟨middle, hsub', ho⟩
        · exact ⟨middle, hb, ho⟩
        · cases middle with
          | nil => exact ⟨[], by rw [hsub', List.append_nil, List.append_nil], by
              rw [List.nil_append, ho, List.nil_append]⟩
          | cons e middle =>
            obtain ⟨d, v', rfl⟩ := List.exists_cons_of_ne_nil (hq.ne_nil hv)
            rw [List.cons_append, List.cons_append, List.cons.injEq] at ho
            refine absurd ?_ (hforeign _ hv d List.mem_cons_self)
            rw [hsub', ho.1]
            exact List.mem_append_right _ List.mem_cons_self
      obtain ⟨middle, rfl, hrest'⟩ := hsplit
      refine ih rest w.getLast? sub.getLast? hlen (Or.inr hrest)
        ⟨middle, v, after, hrest', hv, ?_, hafter⟩
      intro c hc
      apply hbefore c
      rw [List.getLast?_append]
      cases hm : middle.getLast? with
      | none =>
        rw [hm] at hc
        cases hs : sub.getLast? with
        | none => exact absurd (List.getLast?_eq_none_iff.mp hs) hsub
        | some x =>
          rw [hs] at hc
          exact hc
      | some x =>
        rw [hm] at hc
        exact hc

/-- **Replacement is complete.** Nothing of the language is left, not even across the edges of
what was put in. -/
theorem replace_free (hq : q.Framed L) (hsub : sub ≠ []) (hforeign : ∀ w ∈ L, ∀ c ∈ w, c ∉ sub)
    (s : List α) : ¬ q.Occurs L none (q.replace sub s) :=
  scan_free hq hsub hforeign s.length s none none le_rfl (Or.inl rfl)

end Pattern

end ChainPay.Lib
