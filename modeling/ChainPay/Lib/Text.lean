import Mathlib.Data.List.DropRight
import Mathlib.Data.List.TakeWhile

/-!
Trimming of texts, as ECMAScript's `String.prototype.trim` and Rust's `str::trim` do it. The two
differ on two characters: U+FEFF is white space for the first only, U+0085 for the second only.
-/

namespace ChainPay.Lib

/-- The white space that both languages know. -/
def isCommonSpace (n : Nat) : Bool :=
  (9 ≤ n && n ≤ 13) || n = 0x20 || n = 0xA0 || n = 0x1680 || (0x2000 ≤ n && n ≤ 0x200A) ||
    n = 0x2028 || n = 0x2029 || n = 0x202F || n = 0x205F || n = 0x3000

def isJsSpace (c : Char) : Bool := isCommonSpace c.toNat || c.toNat = 0xFEFF

def isRustSpace (c : Char) : Bool := isCommonSpace c.toNat || c.toNat = 0x85

/-- Without what `p` holds of at both ends. -/
def trimBoth (p : Char → Bool) (s : List Char) : List Char :=
  ((s.dropWhile p).reverse.dropWhile p).reverse

def jsTrim (s : List Char) : List Char := trimBoth isJsSpace s

def rustTrim (s : List Char) : List Char := trimBoth isRustSpace s

/-! ## The ends of a text -/

section

variable {α : Type} {p q : α → Bool} {s : List α}

/-- `p` holds of neither end. -/
def Tight (p : α → Bool) (s : List α) : Prop :=
  (∀ c ∈ s.head?, p c = false) ∧ ∀ c ∈ s.getLast?, p c = false

instance (p : α → Bool) (s : List α) : Decidable (Tight p s) :=
  inferInstanceAs (Decidable (_ ∧ _))

theorem dropWhile_eq_self_iff_head? : s.dropWhile p = s ↔ ∀ c ∈ s.head?, p c = false := by
  rw [List.dropWhile_eq_self_iff]
  cases s with
  | nil => simp
  | cons c s => simp

/-- A text loses nothing when it is trimmed exactly if its ends are no white space. -/
theorem trim_eq_self_iff :
    ((s.dropWhile p).reverse.dropWhile p).reverse = s ↔ Tight p s := by
  constructor
  · intro h
    have hlen := congrArg List.length h
    have hinner := (List.dropWhile_sublist p (l := (s.dropWhile p).reverse)).length_le
    have houter := List.dropWhile_sublist p (l := s)
    rw [List.length_reverse] at hlen hinner
    have hself : s.dropWhile p = s := houter.eq_of_length_le (by omega)
    refine ⟨dropWhile_eq_self_iff_head?.mp hself, ?_⟩
    rw [hself] at h
    have hback := dropWhile_eq_self_iff_head?.mp (by rw [← List.reverse_inj, h, List.reverse_reverse])
    rwa [List.head?_reverse] at hback
  · rintro ⟨hhead, hlast⟩
    rw [dropWhile_eq_self_iff_head?.mpr hhead]
    rw [dropWhile_eq_self_iff_head?.mpr (by rwa [List.head?_reverse]), List.reverse_reverse]

/-- What is trimmed is tight. -/
theorem tight_trim : Tight p ((s.dropWhile p).reverse.dropWhile p).reverse := by
  have hpre : ((s.dropWhile p).reverse.dropWhile p).reverse <+: s.dropWhile p := by
    rw [← List.reverse_suffix, List.reverse_reverse]
    exact List.dropWhile_suffix p
  constructor
  · intro c hc
    obtain ⟨rest, hrest⟩ := hpre
    have hhead : (s.dropWhile p).head? = some c := by
      rw [← hrest, List.head?_append, hc, Option.some_or]
    exact dropWhile_eq_self_iff_head?.mp ((List.dropWhile_idempotent p s)) c hhead
  · intro c hc
    rw [List.getLast?_reverse] at hc
    exact dropWhile_eq_self_iff_head?.mp (List.dropWhile_idempotent p _) c hc

theorem tight_or : Tight (fun c => p c || q c) s ↔ Tight p s ∧ Tight q s := by
  simp only [Tight, Bool.or_eq_false_iff]
  constructor
  · rintro ⟨hhead, hlast⟩
    exact ⟨⟨fun c hc => (hhead c hc).1, fun c hc => (hlast c hc).1⟩,
      ⟨fun c hc => (hhead c hc).2, fun c hc => (hlast c hc).2⟩⟩
  · rintro ⟨⟨hhead, hlast⟩, ⟨hhead', hlast'⟩⟩
    exact ⟨fun c hc => ⟨hhead c hc, hhead' c hc⟩, fun c hc => ⟨hlast c hc, hlast' c hc⟩⟩

theorem tight_map {β : Type} {f : β → α} {t : List β} :
    Tight p (t.map f) ↔ Tight (fun c => p (f c)) t := by
  simp only [Tight, List.head?_map, List.getLast?_map, Option.mem_def, Option.map_eq_some_iff]
  constructor
  · rintro ⟨hhead, hlast⟩
    exact ⟨fun c hc => hhead _ ⟨c, hc, rfl⟩, fun c hc => hlast _ ⟨c, hc, rfl⟩⟩
  · rintro ⟨hhead, hlast⟩
    refine ⟨?_, ?_⟩
    · rintro _ ⟨c, hc, rfl⟩
      exact hhead c hc
    · rintro _ ⟨c, hc, rfl⟩
      exact hlast c hc

end

end ChainPay.Lib
