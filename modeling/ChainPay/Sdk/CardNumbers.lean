import ChainPay.Sdk.Redact
import Mathlib.Data.List.Nodup

/-!
The card numbers of a text: `CARD_NUMBER_RUN` finds exactly the free-standing runs of 13 to 19
digits, redaction leaves none, and a text without one stays as it is.
-/

namespace ChainPay.Sdk.Redact
open ChainPay.Lib Matcher

/-- 13 to 19 digits, with single spaces or dashes between them. -/
structure CardNumber (w : JsText) : Prop where
  count : 13 ≤ w.countP isDigit ∧ w.countP isDigit ≤ 19
  chars : ∀ c ∈ w, isDigit c = true ∨ isSeparator c = true
  first : ∃ c ∈ w.head?, isDigit c = true
  last : ∃ c ∈ w.getLast?, isDigit c = true
  single : w.IsChain fun a b => isDigit a = true ∨ isDigit b = true

/-- A card number stands in the text by itself: glued to nothing on either side. -/
def Shows (t : JsText) : Prop :=
  ∃ before w after, t = before ++ (w ++ after) ∧ CardNumber w ∧
    (∀ c ∈ before.getLast?, isGlue c = false) ∧ ∀ c ∈ after.head?, isGlue c = false

theorem glue_of_digit {c : CodePoint} (h : isDigit c = true) : isGlue c = true := by
  cases c with
  | lone n => cases h
  | char c =>
    change isDecimalDigit c = true at h
    change (isDecimalDigit c || _ || _ || _ || _) = true
    rw [h]
    rfl

theorem separator_not_digit {c : CodePoint} (h : isSeparator c = true) : isDigit c = false := by
  cases c with
  | lone n => rfl
  | char c =>
    have hc : c = ' ' ∨ c = '-' := by simpa [isSeparator, onChar] using h
    rcases hc with rfl | rfl <;> decide

/-- A digit, a separator before it or none. -/
def groups : Language CodePoint :=
  (Matcher.single isSeparator + 1) * Matcher.single isDigit

theorem mem_groups {w : JsText} : w ∈ groups ↔ ∃ d, isDigit d = true ∧
    (w = [d] ∨ ∃ c, isSeparator c = true ∧ w = [c, d]) := by
  rw [groups, Language.mem_mul]
  constructor
  · rintro ⟨u, ⟨c, hc, rfl⟩ | hu, v, ⟨d, hd, rfl⟩, rfl⟩
    · exact ⟨d, hd, Or.inr ⟨c, hc, rfl⟩⟩
    · rw [(Language.mem_one u).mp hu]
      exact ⟨d, hd, Or.inl rfl⟩
  · rintro ⟨d, hd, rfl | ⟨c, hc, rfl⟩⟩
    · exact ⟨[], Or.inr rfl, [d], ⟨d, hd, rfl⟩, rfl⟩
    · exact ⟨[c], Or.inl ⟨c, hc, rfl⟩, [d], ⟨d, hd, rfl⟩, rfl⟩

/-- The words of `CARD_NUMBER_RUN`. -/
def runs : Language CodePoint :=
  Matcher.single isDigit * (groups ^ 12 * atMost 6 groups)

theorem recognises_runs : CARD_NUMBER_RUN.body.Recognises runs := by
  have hgroup : group.Recognises groups :=
    ((recognises_one isSeparator).maybe).seq (recognises_one isDigit)
  exact (recognises_one isDigit).seq ((hgroup.times 12).seq (hgroup.upTo 6))

theorem mem_runs {w : JsText} : w ∈ runs ↔ ∃ d v k, isDigit d = true ∧ w = d :: v ∧
    12 ≤ k ∧ k ≤ 18 ∧ v ∈ groups ^ k := by
  rw [runs, Language.mem_mul]
  constructor
  · rintro ⟨_, ⟨d, hd, rfl⟩, _, hv, rfl⟩
    obtain ⟨a, ha, b, ⟨k, hk, hb⟩, rfl⟩ := Language.mem_mul.mp hv
    refine ⟨d, a ++ b, 12 + k, hd, rfl, by omega, by omega, ?_⟩
    rw [pow_add]
    exact Language.append_mem_mul ha hb
  · rintro ⟨d, v, k, hd, rfl, hlow, hhigh, hv⟩
    refine ⟨[d], ⟨d, hd, rfl⟩, v, ?_, rfl⟩
    obtain ⟨j, rfl⟩ := Nat.exists_eq_add_of_le hlow
    rw [pow_add] at hv
    obtain ⟨a, ha, b, hb, rfl⟩ := Language.mem_mul.mp hv
    exact Language.append_mem_mul ha ⟨j, by omega, hb⟩

/-- What stands behind the first digit of a card number. -/
structure Rest (v : JsText) : Prop where
  chars : ∀ c ∈ v, isDigit c = true ∨ isSeparator c = true
  last : ∀ c ∈ v.getLast?, isDigit c = true
  single : v.IsChain fun a b => isDigit a = true ∨ isDigit b = true

theorem rest_of_groups {k : Nat} {v : JsText} (h : v ∈ groups ^ k) :
    Rest v ∧ v.countP isDigit = k := by
  induction k generalizing v with
  | zero =>
    rw [(Language.mem_one v).mp h]
    exact ⟨⟨fun _ h => (nomatch h), fun _ h => (nomatch h), .nil⟩, rfl⟩
  | succ k ih =>
    rw [pow_succ'] at h
    obtain ⟨g, hg, u, hu, rfl⟩ := Language.mem_mul.mp h
    obtain ⟨hrest, hcount⟩ := ih hu
    obtain ⟨d, hd, hg⟩ := mem_groups.mp hg
    have hdu : Rest (d :: u) := by
      refine ⟨?_, ?_, ?_⟩
      · intro c hc
        rcases List.mem_cons.mp hc with rfl | hc
        · exact Or.inl hd
        · exact hrest.chars c hc
      · intro c hc
        rw [List.getLast?_cons] at hc
        cases hlast : u.getLast? with
        | none =>
          rw [hlast] at hc
          rw [← Option.mem_some_iff.mp hc]
          exact hd
        | some x =>
          rw [hlast] at hc
          exact hrest.last c (hlast ▸ hc)
      · cases u with
        | nil => exact .singleton d
        | cons x u => exact .cons_cons (Or.inl hd) hrest.single
    rcases hg with rfl | ⟨s, hs, rfl⟩
    · refine ⟨hdu, ?_⟩
      rw [List.singleton_append, List.countP_cons_of_pos hd, hcount]
    · refine ⟨⟨?_, ?_, ?_⟩, ?_⟩
      · intro c hc
        rcases List.mem_cons.mp hc with rfl | hc
        · exact Or.inr hs
        · exact hdu.chars c hc
      · intro c hc
        exact hdu.last c hc
      · exact .cons_cons (Or.inr hd) hdu.single
      · change (s :: d :: u).countP isDigit = k + 1
        rw [List.countP_cons_of_neg (by rw [separator_not_digit hs]; exact Bool.false_ne_true),
          List.countP_cons_of_pos hd, hcount]

theorem groups_of_rest : ∀ {v : JsText}, Rest v → v ∈ groups ^ v.countP isDigit
  | [], _ => rfl
  | c :: v, h => by
    have htail : Rest v → v ∈ groups ^ v.countP isDigit := groups_of_rest
    have hlast : ∀ {x : CodePoint} {u : JsText}, Rest (x :: u) → ∀ y ∈ u.getLast?,
        isDigit y = true := by
      intro x u hxu y hy
      apply hxu.last y
      rw [List.getLast?_cons, Option.mem_def.mp hy]
      rfl
    by_cases hc : isDigit c = true
    · rw [List.countP_cons_of_pos hc, pow_succ']
      have hv : Rest v := ⟨fun x hx => h.chars x (List.mem_cons_of_mem _ hx), hlast h,
        h.single.tail⟩
      exact Language.append_mem_mul (mem_groups.mpr ⟨c, hc, Or.inl rfl⟩) (htail hv)
    · have hs : isSeparator c = true := (h.chars c List.mem_cons_self).resolve_left hc
      cases v with
      | nil => exact absurd (h.last c rfl) hc
      | cons d u =>
        have hd : isDigit d = true := (List.isChain_cons_cons.mp h.single).1.resolve_left hc
        rw [List.countP_cons_of_neg hc, List.countP_cons_of_pos hd, pow_succ']
        have hdu : Rest (d :: u) := ⟨fun x hx => h.chars x (List.mem_cons_of_mem _ hx), hlast h,
          h.single.tail⟩
        have hu : Rest u := ⟨fun x hx => hdu.chars x (List.mem_cons_of_mem _ hx), hlast hdu,
          hdu.single.tail⟩
        exact Language.append_mem_mul (mem_groups.mpr ⟨d, hd, Or.inr ⟨c, hs, rfl⟩⟩)
          (groups_of_rest hu)

theorem mem_runs_iff {w : JsText} : w ∈ runs ↔ CardNumber w := by
  rw [mem_runs]
  constructor
  · rintro ⟨d, v, k, hd, rfl, hlow, hhigh, hv⟩
    have hdv : [d] ++ v ∈ groups ^ (k + 1) := by
      rw [pow_succ']
      exact Language.append_mem_mul (mem_groups.mpr ⟨d, hd, Or.inl rfl⟩) hv
    obtain ⟨hrest, hcount⟩ := rest_of_groups hdv
    rw [List.singleton_append] at hrest hcount
    refine ⟨by omega, hrest.chars, ⟨d, rfl, hd⟩, ?_, hrest.single⟩
    exact ⟨_, List.getLast?_eq_some_getLast (List.cons_ne_nil d v), hrest.last _
      (List.getLast?_eq_some_getLast (List.cons_ne_nil d v))⟩
  · intro h
    obtain ⟨d, hhead, hd⟩ := h.first
    obtain ⟨v, rfl⟩ := List.head?_eq_some_iff.mp hhead
    have hcount := h.count
    rw [List.countP_cons_of_pos hd] at hcount
    have hrest : Rest v := by
      refine ⟨fun x hx => h.chars x (List.mem_cons_of_mem _ hx), ?_, h.single.tail⟩
      intro y hy
      obtain ⟨x, hx, hxd⟩ := h.last
      rw [List.getLast?_cons, Option.mem_def.mp hy] at hx
      rw [← Option.mem_some_iff.mp hx] at hxd
      exact hxd
    exact ⟨d, v, _, hd, rfl, by omega, by omega, groups_of_rest hrest⟩

theorem framed : CARD_NUMBER_RUN.Framed runs := by
  refine ⟨recognises_runs, fun w hw => ?_, fun w hw => ?_⟩
  · obtain ⟨c, hc, hd⟩ := (mem_runs_iff.mp hw).first
    exact ⟨c, hc, glue_of_digit hd⟩
  · obtain ⟨c, hc, hd⟩ := (mem_runs_iff.mp hw).last
    exact ⟨c, hc, glue_of_digit hd⟩

theorem occurs_iff {t : JsText} : CARD_NUMBER_RUN.Occurs runs none t ↔ Shows t := by
  constructor
  · rintro ⟨before, w, after, ht, hw, hbefore, hafter⟩
    rw [Option.or_none] at hbefore
    exact ⟨before, w, after, ht, mem_runs_iff.mp hw, hbefore, hafter⟩
  · rintro ⟨before, w, after, ht, hw, hbefore, hafter⟩
    refine ⟨before, w, after, ht, mem_runs_iff.mpr hw, ?_, hafter⟩
    rw [Option.or_none]
    exact hbefore

theorem foreign {w : JsText} (hw : w ∈ runs) {c : CodePoint} (hc : c ∈ w) :
    c ∉ CARD_DATA_REDACTION := by
  intro hmem
  have hnone : ∀ c ∈ CARD_DATA_REDACTION, isDigit c = false ∧ isSeparator c = false := by decide
  obtain ⟨hdigit, hseparator⟩ := hnone c hmem
  rcases (mem_runs_iff.mp hw).chars c hc with h | h
  · rw [h] at hdigit
    cases hdigit
  · rw [h] at hseparator
    cases hseparator

/-- Redaction leaves no card number. -/
theorem redactCardNumbers_hides (t : JsText) : ¬ Shows (redactCardNumbers t) := by
  rw [← occurs_iff]
  exact Pattern.replace_free framed (by decide) (fun _ hw _ hc => foreign hw hc) t

theorem redactCardNumbers_of_not_shows {t : JsText} (h : ¬ Shows t) : redactCardNumbers t = t :=
  Pattern.replace_eq_self framed (occurs_iff.not.mpr h)

theorem findCardNumberLike_length {t : JsText} : (findCardNumberLike t).length ≠ 0 ↔ Shows t := by
  rw [ne_eq, List.length_eq_zero_iff, findCardNumberLike, Pattern.matchAll_eq_nil framed,
    not_not, occurs_iff]

theorem not_shows_of_found {t : JsText} (h : findCardNumberLike t = []) : ¬ Shows t := by
  rw [← findCardNumberLike_length, h]
  exact fun hne => hne rfl

end ChainPay.Sdk.Redact
