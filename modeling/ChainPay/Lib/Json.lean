import Mathlib.Algebra.Order.Ring.Rat
import Mathlib.Data.Nat.Digits.Lemmas
import ChainPay.Lib.Codec

/-!
JSON as `JSON.parse` reads it and `JSON.stringify` writes it. A number is the double nearest to
its decimal, with ties to even. `Parses` says that a text is read as a value wherever a value may
stand; strings, whole numbers, arrays and objects that are written here are read back
(`parses_quote`, `parses_decimal`, `parses_array`, `parses_object`).
-/

namespace ChainPay.Lib

/-! ## Numbers -/

/-- A finite double as its exact value (`-0` is `0`), or an infinity. -/
abbrev Number := Option Rat

def pow2 (p : Int) : Rat := if 0 ≤ p then mkRat (2 ^ p.toNat) 1 else mkRat 1 (2 ^ (-p).toNat)

/-- The exponent of the leading bit of a positive rational. -/
def leadingBit (q : Rat) : Int :=
  let k : Int := Nat.log2 q.num.toNat - Nat.log2 q.den
  if pow2 k ≤ q then k else k - 1

def roundHalfEven (q : Rat) : Int :=
  let r := q - q.floor
  if r < 1 / 2 then q.floor
  else if 1 / 2 < r then q.floor + 1
  else if q.floor % 2 = 0 then q.floor
  else q.floor + 1

/-- The nearest double of a nonnegative rational. -/
def nearestDouble (q : Rat) : Number :=
  if q = 0 then some 0
  else
    let unit := pow2 (max (leadingBit q - 52) (-1074))
    let v := roundHalfEven (q / unit) * unit
    if v < pow2 1024 then some v else none

theorem pow2_nat (k : Nat) : pow2 k = (2 : Rat) ^ k := by
  unfold pow2
  rw [if_pos (Int.natCast_nonneg k), Int.toNat_natCast, Rat.mkRat_one]
  push_cast
  rfl

theorem roundHalfEven_int (n : Int) : roundHalfEven n = n := by
  simp [roundHalfEven]

theorem leadingBit_nat {n : Nat} (h : 0 < n) : leadingBit n = Nat.log2 n := by
  have hlog : Nat.log2 ((n : Rat).num.toNat) = Nat.log2 n := by simp
  have hden : Nat.log2 (n : Rat).den = 0 := by
    rw [Rat.den_natCast]
    rfl
  have hle : pow2 (Nat.log2 n) ≤ (n : Rat) := by
    rw [pow2_nat]
    exact_mod_cast Nat.log2_self_le (by omega)
  unfold leadingBit
  rw [hlog, hden]
  simp [hle]

/-- Whole numbers up to `2 ^ 53` are doubles. -/
theorem nearestDouble_nat {n : Nat} (h : n < 2 ^ 53) : nearestDouble n = some (n : Rat) := by
  unfold nearestDouble
  rcases Nat.eq_zero_or_pos n with rfl | hpos
  · simp
  · have hne : (n : Rat) ≠ 0 := by exact_mod_cast Nat.pos_iff_ne_zero.mp hpos
    have hlog : Nat.log2 n ≤ 52 := by
      have := (Nat.log2_lt (n := n) (k := 53) (by omega)).mpr h
      omega
    obtain ⟨j, hj⟩ : ∃ j, Nat.log2 n + j = 52 := ⟨52 - Nat.log2 n, by omega⟩
    have hunit : pow2 (max (leadingBit n - 52) (-1074)) = 1 / (2 : Rat) ^ j := by
      rw [leadingBit_nat hpos, max_eq_left (by omega)]
      have he : ((Nat.log2 n : Int) - 52) = -(j : Int) := by omega
      rw [he]
      rcases Nat.eq_zero_or_pos j with rfl | hj0
      · simp [pow2]
        rfl
      · unfold pow2
        rw [if_neg (by omega), Int.neg_neg, Int.toNat_natCast, Rat.mkRat_eq_div]
        push_cast
        rfl
    have hscaled : (n : Rat) / (1 / (2 : Rat) ^ j) = ((n * 2 ^ j : Nat) : Int) := by
      push_cast
      rw [one_div, div_inv_eq_mul]
    have hback : ((((n * 2 ^ j : Nat) : Int) : Rat)) * (1 / (2 : Rat) ^ j) = n := by
      push_cast
      rw [one_div, mul_assoc, mul_inv_cancel₀ (pow_ne_zero _ two_ne_zero), mul_one]
    have hlt : ∀ k : Nat, 53 ≤ k → (n : Rat) < pow2 k := by
      intro k hk
      have hwide : n < 2 ^ k := lt_of_lt_of_le h (Nat.pow_le_pow_right (by omega) hk)
      rw [pow2_nat]
      exact_mod_cast hwide
    rw [if_neg hne]
    dsimp only
    rw [hunit, hscaled, roundHalfEven_int, hback]
    exact if_pos (hlt 1024 (by omega))

def isDecimalDigit (c : Char) : Bool := '0' ≤ c && c ≤ '9'

def decimalValue (ds : List Char) : Nat := ds.foldl (fun n c => 10 * n + (c.toNat - 48)) 0

/-- The decimal `digits * 10 ^ exponent`. -/
def scaled (digits : Nat) (exponent : Int) : Rat :=
  if 0 ≤ exponent then (digits : Rat) * 10 ^ exponent.toNat
  else (digits : Rat) / 10 ^ (-exponent).toNat

/-- The digits after the point, if there is one. -/
def fraction : List Char → Option (List Char × List Char)
  | '.' :: s =>
    let ds := s.takeWhile isDecimalDigit
    if ds = [] then none else some (ds, s.drop ds.length)
  | s => some ([], s)

def exponentDigits (s : List Char) : Option (Nat × List Char) :=
  let ds := s.takeWhile isDecimalDigit
  if ds = [] then none else some (decimalValue ds, s.drop ds.length)

def exponentPart : List Char → Option (Int × List Char)
  | [] => some (0, [])
  | c :: s =>
    if c = 'e' ∨ c = 'E' then
      match s with
      | '-' :: r => (exponentDigits r).map fun (n, r) => (-(n : Int), r)
      | '+' :: r => (exponentDigits r).map fun (n, r) => ((n : Int), r)
      | r => (exponentDigits r).map fun (n, r) => ((n : Int), r)
    else some (0, c :: s)

/-- A number without its sign; a leading zero stands alone. -/
def unsigned (s : List Char) : Option (Number × List Char) := do
  let whole := s.takeWhile isDecimalDigit
  if whole = [] ∨ (whole.head? = some '0' ∧ whole ≠ ['0']) then none
  else
    let (frac, s) ← fraction (s.drop whole.length)
    let (exponent, s) ← exponentPart s
    return (nearestDouble (scaled (decimalValue (whole ++ frac)) (exponent - frac.length)), s)

def number : List Char → Option (Number × List Char)
  | '-' :: s => (unsigned s).map fun (q, r) => (q.map (- ·), r)
  | s => unsigned s

/-! ## Values -/

inductive Json where
  | null
  | bool (b : Bool)
  | num (n : Number)
  | str (s : List Char)
  | arr (vs : List Json)
  | obj (ms : List (List Char × Json))

/-- A property; of two members with one name the later counts, and only objects have any. -/
def Json.get (key : List Char) : Json → Option Json
  | .obj ms => (ms.reverse.find? fun m => m.1 = key).map Prod.snd
  | _ => none

def isJsonSpace (c : Char) : Bool := c = ' ' || c = '\t' || c = '\n' || c = '\r'

def skipSpace (s : List Char) : List Char := s.dropWhile isJsonSpace

/-- A character of a string, or a surrogate that may be half of one. -/
inductive StringUnit where
  | char (c : Char)
  | surrogate (n : Nat)
  deriving DecidableEq, Repr

def jsonHex (c : Char) : Option Nat :=
  if '0' ≤ c ∧ c ≤ '9' then some (c.toNat - 48)
  else if 'a' ≤ c ∧ c ≤ 'f' then some (c.toNat - 87)
  else if 'A' ≤ c ∧ c ≤ 'F' then some (c.toNat - 55)
  else none

def codeUnit (a b c d : Char) : Option StringUnit := do
  let n := 4096 * (← jsonHex a) + 256 * (← jsonHex b) + 16 * (← jsonHex c) + (← jsonHex d)
  return if 0xD800 ≤ n ∧ n ≤ 0xDFFF then .surrogate n else .char (Char.ofNat n)

def simpleEscape (c : Char) : Option Char :=
  if c = '"' ∨ c = '\\' ∨ c = '/' then some c
  else if c = 'b' then some (Char.ofNat 8)
  else if c = 'f' then some (Char.ofNat 12)
  else if c = 'n' then some '\n'
  else if c = 'r' then some '\r'
  else if c = 't' then some '\t'
  else none

/-- The rest of a string after its opening quote. -/
def stringUnits : List Char → Option (List StringUnit × List Char)
  | [] => none
  | '"' :: s => some ([], s)
  | '\\' :: 'u' :: a :: b :: c :: d :: s => do
    let u ← codeUnit a b c d
    let (us, r) ← stringUnits s
    return (u :: us, r)
  | '\\' :: e :: s => do
    let c ← simpleEscape e
    let (us, r) ← stringUnits s
    return (.char c :: us, r)
  | c :: s =>
    if c.toNat < 0x20 then none
    else do
      let (us, r) ← stringUnits s
      return (.char c :: us, r)

/-- Joins surrogate pairs; a lone surrogate is no character. -/
def joinUnits : List StringUnit → List Char
  | [] => []
  | .char c :: us => c :: joinUnits us
  | .surrogate h :: .surrogate l :: us =>
    if h < 0xDC00 ∧ 0xDC00 ≤ l then
      Char.ofNat (0x10000 + (h - 0xD800) * 1024 + (l - 0xDC00)) :: joinUnits us
    else Char.ofNat 0xFFFD :: joinUnits (.surrogate l :: us)
  | .surrogate _ :: us => Char.ofNat 0xFFFD :: joinUnits us

def jsonString (s : List Char) : Option (List Char × List Char) :=
  (stringUnits s).map fun (us, r) => (joinUnits us, r)

def expect (word : List Char) (v : Json) (s : List Char) : Option (Json × List Char) :=
  if word <+: s then some (v, s.drop word.length) else none

mutual

/-- A value at the start of a text, and the text after it. -/
def jsonValue : Nat → List Char → Option (Json × List Char)
  | 0, _ => none
  | n + 1, s =>
    match skipSpace s with
    | [] => none
    | c :: r =>
      if c = '"' then (jsonString r).map fun (t, r) => (.str t, r)
      else if c = '[' then
        if (skipSpace r).head? = some ']' then some (.arr [], (skipSpace r).tail)
        else (jsonElements n r).map fun (vs, r) => (.arr vs, r)
      else if c = '{' then
        if (skipSpace r).head? = some '}' then some (.obj [], (skipSpace r).tail)
        else (jsonMembers n r).map fun (ms, r) => (.obj ms, r)
      else if c = 'n' then expect "ull".toList .null r
      else if c = 't' then expect "rue".toList (.bool true) r
      else if c = 'f' then expect "alse".toList (.bool false) r
      else (number (c :: r)).map fun (q, r) => (.num q, r)

/-- One or more elements, up to the closing bracket. -/
def jsonElements : Nat → List Char → Option (List Json × List Char)
  | 0, _ => none
  | n + 1, s => do
    let (v, r) ← jsonValue n s
    match skipSpace r with
    | ',' :: r =>
      let (vs, r) ← jsonElements n r
      return (v :: vs, r)
    | ']' :: r => return ([v], r)
    | _ => none

/-- One or more members, up to the closing brace. -/
def jsonMembers : Nat → List Char → Option (List (List Char × Json) × List Char)
  | 0, _ => none
  | n + 1, s =>
    match skipSpace s with
    | '"' :: r => do
      let (k, r) ← jsonString r
      match skipSpace r with
      | ':' :: r =>
        let (v, r) ← jsonValue n r
        match skipSpace r with
        | ',' :: r =>
          let (ms, r) ← jsonMembers n r
          return ((k, v) :: ms, r)
        | '\x7d' :: r => return ([(k, v)], r)
        | _ => none
      | _ => none
    | _ => none

end

/-- `JSON.parse`. Every step into a value or over an element takes a character. -/
def jsonParse (s : List Char) : Option Json := do
  let (v, r) ← jsonValue (2 * s.length + 2) s
  if skipSpace r = [] then some v else none

/-! ## Writing -/

/-- The letter of a short escape. -/
def shortEscape (c : Char) : Option Char :=
  if c = '"' then some '"'
  else if c = '\\' then some '\\'
  else if c = Char.ofNat 8 then some 'b'
  else if c = '\t' then some 't'
  else if c = '\n' then some 'n'
  else if c = Char.ofNat 12 then some 'f'
  else if c = '\r' then some 'r'
  else none

def quoteChar (c : Char) : List Char :=
  match shortEscape c with
  | some e => ['\\', e]
  | none =>
    if c.toNat < 0x20 then
      ['\\', 'u', '0', '0', hexDigit (c.toNat / 16), hexDigit (c.toNat % 16)]
    else [c]

/-- A string as `JSON.stringify` writes it. -/
def quoteText (s : List Char) : List Char := '"' :: (s.flatMap quoteChar ++ ['"'])

theorem simpleEscape_shortEscape {c e : Char} (h : shortEscape c = some e) :
    simpleEscape e = some c ∧ e ≠ 'u' := by
  unfold shortEscape at h
  split_ifs at h with h₁ h₂ h₃ h₄ h₅ h₆ h₇
  all_goals
    cases h
    subst c
    decide

theorem codeUnit_control {n : Nat} (h : n < 32) :
    codeUnit '0' '0' (hexDigit (n / 16)) (hexDigit (n % 16)) = some (.char (Char.ofNat n)) := by
  revert n
  decide

theorem stringUnits_quoteChar (c : Char) (s : List Char) :
    stringUnits (quoteChar c ++ s) = (stringUnits s).map fun x => (.char c :: x.1, x.2) := by
  unfold quoteChar
  cases he : shortEscape c with
  | some e =>
    obtain ⟨hread, hu⟩ := simpleEscape_shortEscape he
    change stringUnits ('\\' :: e :: s) = _
    rw [stringUnits]
    · simp only [hread, Option.bind_eq_bind, Option.bind_some, Option.pure_def]
      cases stringUnits s with
      | none => rfl
      | some x => rfl
    · intro a b c' d s' h
      exact absurd h hu
  | none =>
    by_cases hctl : c.toNat < 0x20
    · simp only [if_pos hctl]
      change stringUnits ('\\' :: 'u' :: '0' :: '0' :: hexDigit (c.toNat / 16) ::
        hexDigit (c.toNat % 16) :: s) = _
      rw [stringUnits]
      simp only [codeUnit_control hctl, Char.ofNat_toNat, Option.bind_eq_bind, Option.bind_some,
        Option.pure_def]
      cases stringUnits s with
      | none => rfl
      | some x => rfl
    · simp only [if_neg hctl]
      have hq : c ≠ '"' := by
        rintro rfl
        cases he
      have hb : c ≠ '\\' := by
        rintro rfl
        cases he
      change stringUnits (c :: s) = _
      rw [stringUnits]
      · rw [if_neg hctl]
        cases stringUnits s with
        | none => rfl
        | some x => rfl
      · exact hq
      · intro a b c' d s' h
        exact absurd h hb
      · intro e s' h
        exact absurd h hb

theorem joinUnits_chars (s : List Char) : joinUnits (s.map StringUnit.char) = s := by
  induction s with
  | nil => rfl
  | cons c cs ih => simp only [List.map_cons, joinUnits, ih]

/-- A written string is read back. -/
theorem jsonString_quote (s rest : List Char) :
    jsonString (s.flatMap quoteChar ++ '"' :: rest) = some (s, rest) := by
  have hunits : stringUnits (s.flatMap quoteChar ++ '"' :: rest) =
      some (s.map StringUnit.char, rest) := by
    induction s with
    | nil => simp [stringUnits]
    | cons c cs ih =>
      rw [List.flatMap_cons, List.append_assoc, stringUnits_quoteChar, ih]
      rfl
  simp only [jsonString, hunits, Option.map_some, joinUnits_chars]

/-- A whole number in decimal. -/
def decimal (n : Nat) : List Char :=
  if n = 0 then ['0'] else (Nat.digits 10 n).reverse.map fun d => Char.ofNat (48 + d)

def arrayText : List (List Char) → List Char
  | [] => ['[', ']']
  | t :: ts => '[' :: (t ++ (ts.flatMap fun t => ',' :: t) ++ [']'])

def memberText (m : List Char × List Char) : List Char := quoteText m.1 ++ ':' :: m.2

def objectText : List (List Char × List Char) → List Char
  | [] => ['{', '}']
  | m :: ms => '{' :: (memberText m ++ (ms.flatMap fun m => ',' :: memberText m) ++ ['}'])

/-! ### Decimals -/

theorem digit_facts {d : Nat} (h : d < 10) : isDecimalDigit (Char.ofNat (48 + d)) = true ∧
    (Char.ofNat (48 + d)).toNat - 48 = d ∧ (Char.ofNat (48 + d) = '0' → d = 0) := by
  revert d
  decide

theorem decimal_digits (n : Nat) : ∀ c ∈ decimal n, isDecimalDigit c = true := by
  intro c hc
  unfold decimal at hc
  split at hc
  · rw [List.mem_singleton.mp hc]
    decide
  · obtain ⟨d, hd, rfl⟩ := List.mem_map.mp hc
    exact (digit_facts (Nat.digits_lt_base (by decide) (List.mem_reverse.mp hd))).1

theorem decimal_ne_nil (n : Nat) : decimal n ≠ [] := by
  unfold decimal
  split
  · exact List.cons_ne_nil _ _
  · rename_i hn
    intro hnil
    rw [List.map_eq_nil_iff, List.reverse_eq_nil_iff, Nat.digits_eq_nil_iff_eq_zero] at hnil
    exact hn hnil

theorem decimalValue_decimal (n : Nat) : decimalValue (decimal n) = n := by
  unfold decimal
  split
  · rename_i hn
    rw [hn]
    rfl
  · have hfold : ∀ ds : List Nat, (∀ d ∈ ds, d < 10) →
        ((ds.reverse.map fun d => Char.ofNat (48 + d)).foldl
          (fun n c => 10 * n + (c.toNat - 48)) 0) = Nat.ofDigits 10 ds := by
      intro ds hds
      induction ds with
      | nil => rfl
      | cons d ds ih =>
        have hd := (digit_facts (hds d (List.mem_cons_self ..))).2.1
        rw [List.reverse_cons, List.map_append, List.foldl_append,
          ih fun x hx => hds x (List.mem_cons_of_mem _ hx), Nat.ofDigits_cons]
        simp only [List.map_cons, List.map_nil, List.foldl_cons, List.foldl_nil, hd]
        exact Nat.add_comm _ _
    rw [decimalValue, hfold _ fun d hd => Nat.digits_lt_base (by decide) hd, Nat.ofDigits_digits]

/-- A decimal has no leading zero. -/
theorem decimal_head {n : Nat} (h : (decimal n).head? = some '0') : decimal n = ['0'] := by
  unfold decimal at h ⊢
  split
  · rfl
  · rename_i hn
    rw [if_neg hn, List.head?_map, List.head?_reverse] at h
    have hne : Nat.digits 10 n ≠ [] := Nat.digits_ne_nil_iff_ne_zero.mpr hn
    rw [List.getLast?_eq_getLast_of_ne_nil hne, Option.map_some, Option.some.injEq] at h
    have hlt : (Nat.digits 10 n).getLast hne < 10 :=
      Nat.digits_lt_base (by decide) (List.getLast_mem hne)
    exact absurd ((digit_facts hlt).2.2 h) (Nat.getLast_digit_ne_zero 10 hn)

theorem decimal_length {n k : Nat} (hk : 0 < k) (h : n < 10 ^ k) : (decimal n).length ≤ k := by
  unfold decimal
  split
  · exact hk
  · rw [List.length_map, List.length_reverse]
    exact (Nat.digits_length_le_iff (by decide) n).mpr h

theorem digit_ascii {c : Char} (h : isDecimalDigit c = true) : c.toNat < 128 := by
  simp only [isDecimalDigit, Bool.and_eq_true, decide_eq_true_eq] at h
  have hle : c.toNat ≤ '9'.toNat := h.2
  exact Nat.lt_of_le_of_lt hle (by decide)

/-! ### Reading back -/

/-- What may follow a value inside a document. -/
def Ends (rest : List Char) : Prop := ∀ c r, rest = c :: r → c = ',' ∨ c = ']' ∨ c = '}'

/-- The text is read as the value wherever a value may stand. -/
structure Parses (t : List Char) (v : Json) : Prop where
  head : ∃ c r, t = c :: r ∧ isJsonSpace c = false ∧ c ≠ ']'
  value : ∀ n rest, 2 * t.length ≤ n → Ends rest → jsonValue n (t ++ rest) = some (v, rest)

theorem skipSpace_cons {c : Char} (h : isJsonSpace c = false) (r : List Char) :
    skipSpace (c :: r) = c :: r := by
  rw [skipSpace, List.dropWhile_cons_of_neg]
  rw [h]
  exact Bool.false_ne_true

theorem parses_quote (s : List Char) : Parses (quoteText s) (.str s) := by
  refine ⟨⟨'"', _, rfl, by decide, by decide⟩, fun n rest hn _ => ?_⟩
  cases n with
  | zero => simp [quoteText] at hn
  | succ n =>
    have htext : quoteText s ++ rest = '"' :: (s.flatMap quoteChar ++ '"' :: rest) := by
      simp [quoteText]
    rw [htext]
    simp only [jsonValue, skipSpace_cons (show isJsonSpace '"' = false by decide), if_true,
      jsonString_quote, Option.map_some]

theorem takeWhile_ends {p : Char → Bool} {s rest : List Char} (hs : ∀ c ∈ s, p c = true)
    (hr : ∀ c r, rest = c :: r → p c = false) : (s ++ rest).takeWhile p = s := by
  rw [List.takeWhile_append_of_pos hs]
  cases rest with
  | nil => simp
  | cons c r =>
    rw [List.takeWhile_cons_of_neg, List.append_nil]
    rw [hr c r rfl]
    exact Bool.false_ne_true

theorem unsigned_decimal {n : Nat} {rest : List Char} (hrest : Ends rest) :
    unsigned (decimal n ++ rest) = some (nearestDouble n, rest) := by
  have hdigit : ∀ c r, rest = c :: r → isDecimalDigit c = false := by
    intro c r hr
    rcases hrest c r hr with rfl | rfl | rfl
    · decide
    · decide
    · decide
  have hfrac : fraction rest = some ([], rest) := by
    cases rest with
    | nil => rfl
    | cons c r =>
      rcases hrest c r rfl with rfl | rfl | rfl
      · rfl
      · rfl
      · rfl
  have hexp : exponentPart rest = some (0, rest) := by
    cases rest with
    | nil => rfl
    | cons c r =>
      rcases hrest c r rfl with rfl | rfl | rfl
      · rfl
      · rfl
      · rfl
  have hwhole : (decimal n ++ rest).takeWhile isDecimalDigit = decimal n :=
    takeWhile_ends (decimal_digits n) hdigit
  have hok : ¬ (decimal n = [] ∨ ((decimal n).head? = some '0' ∧ decimal n ≠ ['0'])) := by
    rintro (hnil | ⟨hzero, hne⟩)
    · exact decimal_ne_nil n hnil
    · exact hne (decimal_head hzero)
  simp only [unsigned, hwhole, if_neg hok, List.drop_left, hfrac, hexp, Option.bind_eq_bind,
    Option.bind_some, Option.pure_def, List.append_nil, decimalValue_decimal, List.length_nil,
    scaled]
  simp

theorem parses_decimal (n : Nat) : Parses (decimal n) (.num (nearestDouble n)) := by
  obtain ⟨c, r, hcons⟩ := List.exists_cons_of_ne_nil (decimal_ne_nil n)
  have hdigit : isDecimalDigit c = true := decimal_digits n c (hcons ▸ List.mem_cons_self ..)
  have hother : ∀ d : Char, isDecimalDigit d = false → c ≠ d := by
    rintro d hd rfl
    exact Bool.false_ne_true (hd.symm.trans hdigit)
  have hspace : isJsonSpace c = false := by
    simp only [isJsonSpace, Bool.or_eq_false_iff, decide_eq_false_iff_not]
    exact ⟨⟨⟨hother _ (by decide), hother _ (by decide)⟩, hother _ (by decide)⟩,
      hother _ (by decide)⟩
  refine ⟨⟨c, r, hcons, hspace, hother _ (by decide)⟩, fun m rest hm hrest => ?_⟩
  cases m with
  | zero => simp [hcons] at hm
  | succ m =>
    have hnum : number (decimal n ++ rest) = some (nearestDouble n, rest) := by
      rw [hcons, List.cons_append, number, ← List.cons_append, ← hcons]
      · exact unsigned_decimal hrest
      · intro s heq
        exact absurd (List.cons.inj heq).1 (hother '-' (by decide))
    rw [hcons, List.cons_append] at hnum ⊢
    simp only [jsonValue, skipSpace_cons hspace, if_neg (hother '"' (by decide)),
      if_neg (hother '[' (by decide)), if_neg (hother '{' (by decide)),
      if_neg (hother 'n' (by decide)), if_neg (hother 't' (by decide)),
      if_neg (hother 'f' (by decide)), hnum, Option.map_some]

theorem ends_comma (r : List Char) : Ends (',' :: r) := by
  intro c s h
  exact .inl (List.cons.inj h).1.symm

theorem ends_bracket (r : List Char) : Ends (']' :: r) := by
  intro c s h
  exact .inr (.inl (List.cons.inj h).1.symm)

theorem ends_brace (r : List Char) : Ends ('}' :: r) := by
  intro c s h
  exact .inr (.inr (List.cons.inj h).1.symm)

/-- The elements of an array up to its end. -/
theorem jsonElements_commas {ts : List (List Char)} {vs : List Json}
    (h : List.Forall₂ Parses ts vs) {t : List Char} {v : Json} (ht : Parses t v) {n : Nat}
    (rest : List Char)
    (hn : 2 * (t ++ ts.flatMap fun t => ',' :: t).length + 1 ≤ n) :
    jsonElements n (t ++ (ts.flatMap fun t => ',' :: t) ++ ']' :: rest) = some (v :: vs, rest) := by
  induction h generalizing t v n with
  | nil =>
    cases n with
    | zero => omega
    | succ n =>
      simp only [List.flatMap_nil, List.append_nil] at hn ⊢
      have hv := ht.value n (']' :: rest) (by omega) (ends_bracket rest)
      simp only [jsonElements, hv, Option.bind_eq_bind, Option.bind_some,
        skipSpace_cons (show isJsonSpace ']' = false by decide), Option.pure_def]
  | @cons t₂ v₂ ts vs h₂ hs ih =>
    cases n with
    | zero => omega
    | succ n =>
      simp only [List.flatMap_cons, List.length_append, List.length_cons] at hn
      have htext : t ++ ((t₂ :: ts).flatMap fun t => ',' :: t) ++ ']' :: rest =
          t ++ ',' :: (t₂ ++ (ts.flatMap fun t => ',' :: t) ++ ']' :: rest) := by
        simp
      have hv := ht.value n (',' :: (t₂ ++ (ts.flatMap fun t => ',' :: t) ++ ']' :: rest))
        (by omega) (ends_comma _)
      have hmore := ih h₂ (n := n) (by rw [List.length_append]; omega)
      rw [htext]
      simp only [jsonElements, hv, Option.bind_eq_bind, Option.bind_some,
        skipSpace_cons (show isJsonSpace ',' = false by decide), hmore, Option.pure_def]

/-- A written array is read back. -/
theorem parses_array {ts : List (List Char)} {vs : List Json} (h : List.Forall₂ Parses ts vs) :
    Parses (arrayText ts) (.arr vs) := by
  cases h with
  | nil =>
    refine ⟨⟨'[', _, rfl, by decide, by decide⟩, fun n rest hn _ => ?_⟩
    cases n with
    | zero => simp [arrayText] at hn
    | succ n =>
      change jsonValue (n + 1) ('[' :: ']' :: rest) = _
      simp only [jsonValue, skipSpace_cons (show isJsonSpace '[' = false by decide),
        skipSpace_cons (show isJsonSpace ']' = false by decide), List.head?_cons, List.tail_cons]
      rfl
  | @cons t v ts vs ht hs =>
    refine ⟨⟨'[', _, rfl, by decide, by decide⟩, fun n rest hn _ => ?_⟩
    cases n with
    | zero => simp [arrayText] at hn
    | succ n =>
      obtain ⟨c, r, hcons, hspace, hne⟩ := ht.head
      have hhead : ∀ s, skipSpace (t ++ s) = t ++ s := by
        intro s
        rw [hcons, List.cons_append, skipSpace_cons hspace]
      have hopen : ∀ s, (t ++ s).head? ≠ some ']' := by
        intro s heq
        rw [hcons, List.cons_append, List.head?_cons] at heq
        exact hne (Option.some.inj heq)
      have htext : arrayText (t :: ts) ++ rest =
          '[' :: (t ++ (ts.flatMap fun t => ',' :: t) ++ ']' :: rest) := by
        simp [arrayText]
      have hlen : 2 * (t ++ ts.flatMap fun t => ',' :: t).length + 1 ≤ n := by
        simp only [arrayText, List.length_cons, List.length_append, List.length_nil] at hn ⊢
        omega
      have hels := jsonElements_commas hs ht rest hlen
      rw [htext]
      simp only [jsonValue, skipSpace_cons (show isJsonSpace '[' = false by decide),
        if_neg (show '[' ≠ '"' by decide), if_true]
      rw [List.append_assoc, hhead, if_neg (hopen _), ← List.append_assoc, hels]
      rfl

/-- A member is written as its name and its value. -/
def Member (m : List Char × List Char) (v : List Char × Json) : Prop :=
  m.1 = v.1 ∧ Parses m.2 v.2

theorem jsonMembers_commas {ms : List (List Char × List Char)} {vs : List (List Char × Json)}
    (h : List.Forall₂ Member ms vs) {m : List Char × List Char} {v : List Char × Json}
    (hm : Member m v) {n : Nat} (rest : List Char)
    (hn : 2 * (memberText m ++ ms.flatMap fun m => ',' :: memberText m).length + 1 ≤ n) :
    jsonMembers n (memberText m ++ (ms.flatMap fun m => ',' :: memberText m) ++ '}' :: rest) =
      some (v :: vs, rest) := by
  induction h generalizing m v n with
  | nil =>
    obtain ⟨k, t⟩ := m
    obtain ⟨k', j⟩ := v
    obtain ⟨hk, ht⟩ := hm
    cases hk
    change Parses t j at ht
    cases n with
    | zero => omega
    | succ n =>
      have htext : memberText (k, t) ++ (([] : List (List Char × List Char)).flatMap
          fun m => ',' :: memberText m) ++ '}' :: rest =
          '"' :: (k.flatMap quoteChar ++ '"' :: ':' :: (t ++ '}' :: rest)) := by
        simp [memberText, quoteText]
      simp only [List.flatMap_nil, List.append_nil, memberText, List.length_append,
        List.length_cons] at hn
      have hv := ht.value n ('}' :: rest) (by omega) (ends_brace rest)
      rw [htext]
      simp only [jsonMembers, skipSpace_cons (show isJsonSpace '"' = false by decide),
        jsonString_quote, Option.bind_eq_bind, Option.bind_some,
        skipSpace_cons (show isJsonSpace ':' = false by decide), hv,
        skipSpace_cons (show isJsonSpace '}' = false by decide), Option.pure_def]
  | @cons m₂ v₂ ms vs h₂ hs ih =>
    obtain ⟨k, t⟩ := m
    obtain ⟨k', j⟩ := v
    obtain ⟨hk, ht⟩ := hm
    cases hk
    change Parses t j at ht
    cases n with
    | zero => omega
    | succ n =>
      simp only [List.flatMap_cons, List.length_append, List.length_cons, memberText] at hn
      have htext : memberText (k, t) ++ ((m₂ :: ms).flatMap fun m => ',' :: memberText m) ++
          '}' :: rest = '"' :: (k.flatMap quoteChar ++ '"' :: ':' :: (t ++ ',' ::
            (memberText m₂ ++ (ms.flatMap fun m => ',' :: memberText m) ++ '}' :: rest))) := by
        simp [memberText, quoteText]
      have hv := ht.value n (',' :: (memberText m₂ ++
        (ms.flatMap fun m => ',' :: memberText m) ++ '}' :: rest)) (by omega) (ends_comma _)
      have hmore := ih h₂ (n := n) (by
        simp only [List.length_append, memberText, List.length_cons]
        omega)
      rw [htext]
      simp only [jsonMembers, skipSpace_cons (show isJsonSpace '"' = false by decide),
        jsonString_quote, Option.bind_eq_bind, Option.bind_some,
        skipSpace_cons (show isJsonSpace ':' = false by decide), hv,
        skipSpace_cons (show isJsonSpace ',' = false by decide), hmore, Option.pure_def]

/-- A written object is read back. -/
theorem parses_object {ms : List (List Char × List Char)} {vs : List (List Char × Json)}
    (h : List.Forall₂ Member ms vs) : Parses (objectText ms) (.obj vs) := by
  cases h with
  | nil =>
    refine ⟨⟨'{', _, rfl, by decide, by decide⟩, fun n rest hn _ => ?_⟩
    cases n with
    | zero => simp [objectText] at hn
    | succ n =>
      change jsonValue (n + 1) ('{' :: '}' :: rest) = _
      simp only [jsonValue, skipSpace_cons (show isJsonSpace '{' = false by decide),
        skipSpace_cons (show isJsonSpace '}' = false by decide), List.head?_cons, List.tail_cons]
      rfl
  | @cons m v ms vs hm hs =>
    refine ⟨⟨'{', _, rfl, by decide, by decide⟩, fun n rest hn _ => ?_⟩
    cases n with
    | zero => simp [objectText] at hn
    | succ n =>
      have htext : objectText (m :: ms) ++ rest = '{' ::
          (memberText m ++ (ms.flatMap fun m => ',' :: memberText m) ++ '}' :: rest) := by
        simp [objectText]
      have hhead : ∀ s, skipSpace (memberText m ++ s) = memberText m ++ s := by
        intro s
        change skipSpace ('"' :: _) = _
        rw [skipSpace_cons (show isJsonSpace '"' = false by decide)]
        rfl
      have hopen : ∀ s, (memberText m ++ s).head? ≠ some '}' := by
        intro s heq
        change some '"' = some '}' at heq
        cases heq
      have hlen : 2 * (memberText m ++ ms.flatMap fun m => ',' :: memberText m).length + 1 ≤ n := by
        simp only [objectText, List.length_cons, List.length_append, List.length_nil] at hn ⊢
        omega
      have hmem := jsonMembers_commas hs hm rest hlen
      rw [htext]
      simp only [jsonValue, skipSpace_cons (show isJsonSpace '{' = false by decide),
        if_neg (show '{' ≠ '"' by decide), if_neg (show '{' ≠ '[' by decide), if_true]
      rw [List.append_assoc, hhead, if_neg (hopen _), ← List.append_assoc, hmem]
      rfl

/-- A whole document is read back. -/
theorem Parses.document {t : List Char} {v : Json} (h : Parses t v) : jsonParse t = some v := by
  have hv := h.value (2 * t.length + 2) [] (by omega) (fun c r hr => nomatch hr)
  rw [List.append_nil] at hv
  simp only [jsonParse, hv, Option.bind_eq_bind, Option.bind_some]
  rfl

end ChainPay.Lib
