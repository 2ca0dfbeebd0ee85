import ChainPay.Lib.Json
import ChainPay.Lib.Text

/-!
JSON documents as they are written, and the two ways to read one. `JSON.parse` reads any spelling
of a number, lets the later of two members with one name count and keeps a surrogate that stands
alone. A `serde` reader takes whole numbers only and no lone surrogate, reads a struct from an
array as well as from an object, and refuses a name given twice, unless it reads a
`serde_json::Value` that was built first.
-/

namespace ChainPay.Lib

/-! ## Numbers -/

/-- A number as it is spelled; a leading zero stands alone, so the whole part is its value. -/
structure Numeral where
  negative : Bool
  whole : Nat
  fraction : Option (List (Fin 10))
  exponent : Option Int
  deriving DecidableEq, Repr

namespace Numeral

/-- What `JSON.parse` makes of it (`-0` is `0`). -/
def value (n : Numeral) : Number :=
  let digits := n.fraction.getD []
  let magnitude := nearestDouble (scaled (digits.foldl (fun m d => 10 * m + d.val) n.whole)
    (n.exponent.getD 0 - digits.length))
  if n.negative then magnitude.map (- ·) else magnitude

/-- The natural number, if it is spelled with digits only. -/
def plain (n : Numeral) : Option Nat :=
  if n.negative = false ∧ n.fraction = none ∧ n.exponent = none then some n.whole else none

theorem value_of_plain {n : Numeral} {k : Nat} (h : n.plain = some k) :
    n.value = nearestDouble k := by
  unfold plain at h
  split at h
  · rename_i hdigits
    obtain ⟨hneg, hfrac, hexp⟩ := hdigits
    cases h
    simp [value, hneg, hfrac, hexp, scaled]
  · cases h

/-- The natural number that `JSON.parse` reads, if it is one. -/
def natural (n : Numeral) : Option Nat :=
  n.value.bind fun q => if q.den = 1 ∧ 0 ≤ q then some q.num.toNat else none

end Numeral

theorem le_roundHalfEven {q : Rat} {n : Int} (h : (n : Rat) ≤ q) : n ≤ roundHalfEven q := by
  have hfloor : n ≤ q.floor := Rat.le_floor_iff.mpr h
  unfold roundHalfEven
  dsimp only
  split_ifs <;> omega

/-- From `2 ^ 53` on a double is no smaller. -/
theorem le_nearestDouble {n : Nat} {v : Rat} (hn : 2 ^ 53 ≤ n) (h : nearestDouble n = some v) :
    2 ^ 53 ≤ v := by
  have hne : n ≠ 0 := by
    intro h0
    rw [h0] at hn
    exact absurd hn (by decide)
  have hlog : 53 ≤ Nat.log2 n := (Nat.le_log2 hne).mpr hn
  obtain ⟨j, hj⟩ : ∃ j, Nat.log2 n = 52 + j := ⟨Nat.log2 n - 52, by omega⟩
  have hunit : pow2 (max (leadingBit n - 52) (-1074)) = (2 : Rat) ^ j := by
    rw [leadingBit_nat (Nat.pos_of_ne_zero hne), max_eq_left (by omega)]
    have he : ((Nat.log2 n : Int) - 52) = (j : Nat) := by omega
    rw [he, pow2_nat]
  have hpos : (0 : Rat) < 2 ^ j := by positivity
  have hlow : ((2 ^ 52 : Int) : Rat) ≤ (n : Rat) / 2 ^ j := by
    rw [le_div_iff₀ hpos]
    have hself := Nat.log2_self_le hne
    rw [hj, pow_add] at hself
    exact_mod_cast hself
  unfold nearestDouble at h
  rw [if_neg (by exact_mod_cast hne)] at h
  dsimp only at h
  rw [hunit] at h
  split at h
  · cases h
    have hround : ((2 ^ 52 : Int) : Rat) ≤ (roundHalfEven ((n : Rat) / 2 ^ j) : Rat) := by
      exact_mod_cast le_roundHalfEven hlow
    have htwo : (2 : Rat) ≤ 2 ^ j := by
      calc (2 : Rat) = 2 ^ 1 := (pow_one _).symm
        _ ≤ 2 ^ j := pow_le_pow_right₀ (by norm_num) (by omega)
    calc (2 : Rat) ^ 53 = ((2 ^ 52 : Int) : Rat) * 2 := by norm_num
      _ ≤ (roundHalfEven ((n : Rat) / 2 ^ j) : Rat) * 2 ^ j :=
        mul_le_mul hround htwo (by norm_num) (le_trans (by norm_num) hround)
  · cases h

/-- A whole number is read as a small one only if it is that one. -/
theorem nearestDouble_eq_iff {n m : Nat} (hm : m < 2 ^ 53) :
    nearestDouble n = some (m : Rat) ↔ n = m := by
  constructor
  · intro h
    by_cases hn : n < 2 ^ 53
    · rw [nearestDouble_nat hn] at h
      exact_mod_cast Option.some.inj h
    · have hle := le_nearestDouble (Nat.le_of_not_lt hn) h
      have hlt : (m : Rat) < 2 ^ 53 := by exact_mod_cast hm
      exact absurd hlt (not_lt.mpr hle)
  · rintro rfl
    exact nearestDouble_nat hm

theorem Numeral.natural_eq_some {n : Numeral} {k : Nat} :
    n.natural = some k ↔ n.value = some (k : Rat) := by
  constructor
  · intro h
    obtain ⟨q, hq, h⟩ := Option.bind_eq_some_iff.mp h
    split at h
    · rename_i hnat
      have hint : (q.num : Rat) = q := Rat.den_eq_one_iff q |>.mp hnat.1
      have hpos : 0 ≤ q.num := Rat.num_nonneg.mpr hnat.2
      cases h
      rw [hq, ← hint]
      congr 1
      exact_mod_cast (Int.toNat_of_nonneg hpos).symm
    · cases h
  · intro h
    rw [Numeral.natural, h, Option.bind_some, if_pos ⟨Rat.den_natCast k, by positivity⟩]
    simp

/-- Digits are read as what they are. -/
theorem Numeral.natural_of_plain {n : Numeral} {m k : Nat} (h : n.plain = some m)
    (hk : k < 2 ^ 53) : n.natural = some k ↔ m = k := by
  rw [natural_eq_some, value_of_plain h, nearestDouble_eq_iff hk]

/-! ## Texts -/

/-- A character, or a surrogate without its other half. -/
inductive CodePoint where
  | char (c : Char)
  | lone (n : Nat)
  deriving DecidableEq, Repr

/-- A string of a document, its escapes resolved and its surrogate pairs joined. -/
abbrev JsText := List CodePoint

instance : LawfulBEq JsText := inferInstance

def points (s : List Char) : JsText := s.map .char

/-- The text as Rust can hold it: without lone surrogates. -/
def chars : JsText → Option (List Char)
  | [] => some []
  | .char c :: u => (chars u).map (c :: ·)
  | .lone _ :: _ => none

theorem chars_points (s : List Char) : chars (points s) = some s := by
  induction s with
  | nil => rfl
  | cons c s ih =>
    change (chars (points s)).map _ = _
    rw [ih]
    rfl

theorem chars_eq_some {u : JsText} {s : List Char} : chars u = some s ↔ u = points s := by
  constructor
  · intro h
    induction u generalizing s with
    | nil =>
      cases h
      rfl
    | cons x u ih =>
      cases x with
      | char c =>
        obtain ⟨t, ht, rfl⟩ := Option.map_eq_some_iff.mp h
        rw [ih ht]
        rfl
      | lone n => cases h
  · rintro rfl
    exact chars_points s

theorem points_injective : Function.Injective points :=
  List.map_injective_iff.mpr fun _ _ h => CodePoint.char.inj h

/-- A code point as `JSON.stringify` writes it; a lone surrogate is escaped. -/
def quotePoint : CodePoint → List Char
  | .char c => quoteChar c
  | .lone n => ['\\', 'u', hexDigit (n / 4096 % 16), hexDigit (n / 256 % 16),
      hexDigit (n / 16 % 16), hexDigit (n % 16)]

def quotePoints (u : JsText) : List Char := '"' :: (u.flatMap quotePoint ++ ['"'])

theorem quotePoints_points (s : List Char) : quotePoints (points s) = quoteText s := by
  rw [quotePoints, quoteText, points, List.flatMap_map]
  rfl

/-- `p` of a character; a lone surrogate is none. -/
def onChar (p : Char → Bool) : CodePoint → Bool
  | .char c => p c
  | .lone _ => false

/-- `String.prototype.trim`. -/
def trimPoints (u : JsText) : JsText :=
  ((u.dropWhile (onChar isJsSpace)).reverse.dropWhile (onChar isJsSpace)).reverse

/-- What is trimmed is trimmed once and for all. -/
theorem trimPoints_trimPoints (u : JsText) : trimPoints (trimPoints u) = trimPoints u :=
  trim_eq_self_iff.mpr tight_trim

/-- The `length` of a string: in code units. -/
def utf16 (u : JsText) : Nat :=
  (u.map fun
    | .char c => if c.toNat < 0x10000 then 1 else 2
    | .lone _ => 1).sum

/-- `TextEncoder.encode`, which replaces a lone surrogate. -/
def encodePoints (u : JsText) : Bytes :=
  u.flatMap fun
    | .char c => String.utf8EncodeChar c
    | .lone _ => String.utf8EncodeChar replacement

theorem tight_points {p : Char → Bool} {s : List Char} :
    Tight (onChar p) (points s) ↔ Tight p s := tight_map

theorem any_points {p : Char → Bool} {s : List Char} :
    (points s).any (onChar p) = s.any p := by
  rw [points, List.any_map]
  rfl

/-! ## Documents -/

inductive Doc where
  | null
  | bool (b : Bool)
  | num (n : Numeral)
  | str (u : JsText)
  | arr (vs : List Doc)
  | obj (ms : List (JsText × Doc))

/-- A name of a member as it stands in the source. -/
def key (name : String) : JsText := points name.toList

instance : Coe String JsText := ⟨key⟩

theorem key_injective : Function.Injective key := fun _ _ h =>
  String.toList_injective (points_injective h)

/-- The last value under a name. -/
def lastOf (ms : List (JsText × Doc)) (name : String) : Option Doc :=
  (ms.reverse.find? fun m => m.1 = key name).map Prod.snd

theorem mem_of_lastOf {ms : List (JsText × Doc)} {name : String} {v : Doc}
    (h : lastOf ms name = some v) : (key name, v) ∈ ms := by
  obtain ⟨m, hm, rfl⟩ := Option.map_eq_some_iff.mp h
  have hkey : m.1 = key name :=
    of_decide_eq_true (List.find?_some (p := fun m : JsText × Doc => m.1 = key name) hm)
  rw [← hkey]
  exact List.mem_reverse.mp (List.mem_of_find?_eq_some hm)

/-- A property of what `JSON.parse` makes of a document. -/
def Doc.prop (name : String) : Doc → Option Doc
  | .obj ms => lastOf ms name
  | _ => none

/-- Every member has one of the names. -/
def Known (names : List String) (ms : List (JsText × Doc)) : Prop :=
  ∀ m ∈ ms, m.1 ∈ names.map key

instance (names : List String) (ms : List (JsText × Doc)) : Decidable (Known names ms) :=
  inferInstanceAs (Decidable (∀ m ∈ ms, _))

/-- The array index that a name of a property spells. -/
def arrayIndex (k : JsText) : Option Nat := do
  let t ← chars k
  let n := decimalValue t
  if decimal n = t ∧ n < 2 ^ 32 - 1 then some n else none

/-- `Object.keys`: the array indices upwards, then the other names as they first stand. -/
def objectKeys (ms : List (JsText × Doc)) : List JsText :=
  let names := (ms.map Prod.fst).eraseDups
  ((names.filter fun k => (arrayIndex k).isSome).mergeSort fun a b =>
    (arrayIndex a).getD 0 ≤ (arrayIndex b).getD 0) ++
  names.filter fun k => (arrayIndex k).isNone

theorem mem_objectKeys {ms : List (JsText × Doc)} {k : JsText} :
    k ∈ objectKeys ms ↔ ∃ v, (k, v) ∈ ms := by
  have hsplit : (arrayIndex k).isSome = true ∨ (arrayIndex k).isNone = true := by
    cases arrayIndex k <;> simp
  simp only [objectKeys, List.mem_append, List.mem_mergeSort, List.mem_filter,
    List.mem_eraseDups, ← and_or_left, hsplit, and_true, List.mem_map, Prod.exists,
    exists_and_right, exists_eq_right]

/-- `Object.keys(value).filter((key) => !names.includes(key))`. -/
def extraKeys (names : List String) (ms : List (JsText × Doc)) : List JsText :=
  (objectKeys ms).filter fun k => k ∉ names.map key

theorem extraKeys_eq_nil {names : List String} {ms : List (JsText × Doc)} :
    extraKeys names ms = [] ↔ Known names ms := by
  simp only [extraKeys, List.filter_eq_nil_iff, decide_eq_true_eq, not_not, mem_objectKeys]
  constructor
  · intro h m hm
    exact h m.1 ⟨m.2, hm⟩
  · rintro h k ⟨v, hv⟩
    exact h _ hv

/-- No name of the list stands twice. -/
def Unrepeated (names : List String) (ms : List (JsText × Doc)) : Prop :=
  ((ms.map Prod.fst).filter fun k => k ∈ names.map key).Nodup

instance (names : List String) (ms : List (JsText × Doc)) : Decidable (Unrepeated names ms) :=
  inferInstanceAs (Decidable (List.Nodup _))

/-! ## Parsing -/

/-- The code points of a string: pairs of surrogates are joined. -/
def pointsOf : List StringUnit → JsText
  | [] => []
  | .char c :: us => .char c :: pointsOf us
  | .surrogate h :: .surrogate l :: us =>
    if h < 0xDC00 ∧ 0xDC00 ≤ l then
      .char (Char.ofNat (0x10000 + (h - 0xD800) * 1024 + (l - 0xDC00))) :: pointsOf us
    else .lone h :: pointsOf (.surrogate l :: us)
  | .surrogate h :: us => .lone h :: pointsOf us

def docString (s : List Char) : Option (JsText × List Char) :=
  (stringUnits s).map fun (us, r) => (pointsOf us, r)

def unsignedNumeral (negative : Bool) (s : List Char) : Option (Numeral × List Char) := do
  let whole := s.takeWhile isDecimalDigit
  if whole = [] ∨ (whole.head? = some '0' ∧ whole ≠ ['0']) then none
  else
    let (digits, s) ← fraction (s.drop whole.length)
    let (exponent, r) ← exponentPart s
    return ({ negative := negative
              whole := decimalValue whole
              fraction := if digits = [] then none
                else some (digits.map fun c => Fin.ofNat 10 (c.toNat - 48))
              exponent := if r.length < s.length then some exponent else none }, r)

def numeral : List Char → Option (Numeral × List Char)
  | '-' :: s => unsignedNumeral true s
  | s => unsignedNumeral false s

def expectDoc (word : List Char) (v : Doc) (s : List Char) : Option (Doc × List Char) :=
  if word.isPrefixOf s then some (v, s.drop word.length) else none

mutual

/-- A document at the start of a text, and the text after it. -/
def docValue : Nat → List Char → Option (Doc × List Char)
  | 0, _ => none
  | n + 1, s =>
    match skipSpace s with
    | [] => none
    | c :: r =>
      if c = '"' then (docString r).map fun (t, r) => (.str t, r)
      else if c = '[' then
        if (skipSpace r).head? = some ']' then some (.arr [], (skipSpace r).tail)
        else (docElements n r).map fun (vs, r) => (.arr vs, r)
      else if c = '{' then
        if (skipSpace r).head? = some '}' then some (.obj [], (skipSpace r).tail)
        else (docMembers n r).map fun (ms, r) => (.obj ms, r)
      else if c = 'n' then expectDoc "ull".toList .null r
      else if c = 't' then expectDoc "rue".toList (.bool true) r
      else if c = 'f' then expectDoc "alse".toList (.bool false) r
      else (numeral (c :: r)).map fun (q, r) => (.num q, r)

def docElements : Nat → List Char → Option (List Doc × List Char)
  | 0, _ => none
  | n + 1, s => do
    let (v, r) ← docValue n s
    match skipSpace r with
    | ',' :: r =>
      let (vs, r) ← docElements n r
      return (v :: vs, r)
    | ']' :: r => return ([v], r)
    | _ => none

def docMembers : Nat → List Char → Option (List (JsText × Doc) × List Char)
  | 0, _ => none
  | n + 1, s =>
    match skipSpace s with
    | '"' :: r => do
      let (k, r) ← docString r
      match skipSpace r with
      | ':' :: r =>
        let (v, r) ← docValue n r
        match skipSpace r with
        | ',' :: r =>
          let (ms, r) ← docMembers n r
          return ((k, v) :: ms, r)
        | '\x7d' :: r => return ([(k, v)], r)
        | _ => none
      | _ => none
    | _ => none

end

/-- The document that a text spells, as `jsonParse` walks it. -/
def docParse (s : List Char) : Option Doc := do
  let (v, r) ← docValue (2 * s.length + 2) s
  if skipSpace r = [] then some v else none

/-! ## Readers -/

/-- The numbers that a `serde_json::Value` can hold. -/
class SerdeJson where
  holds : Numeral → Bool

/-- A document that becomes a `serde_json::Value` of at most so many levels. -/
def Doc.held [SerdeJson] : Nat → Doc → Bool
  | _, .null => true
  | _, .bool _ => true
  | _, .num n => SerdeJson.holds n
  | _, .str u => (chars u).isSome
  | 0, .arr _ => false
  | 0, .obj _ => false
  | n + 1, .arr vs => vs.all fun v => v.held n
  | n + 1, .obj ms => ms.all fun m => (chars m.1).isSome && m.2.held n

def MAX_LEVELS : Nat := 127

/-- Whether a text is read straight into a struct, or a `serde_json::Value` is built first. -/
inductive Reading where
  | direct
  | value
  deriving DecidableEq, Repr

/-- The document that a struct is read from. -/
def Reading.takes [SerdeJson] (r : Reading) (d : Doc) : Prop := r = .value → d.held MAX_LEVELS = true

instance [SerdeJson] (r : Reading) (d : Doc) : Decidable (r.takes d) :=
  inferInstanceAs (Decidable (_ → _))

/-- The fields of a struct in order: whether an unknown name is refused, and how many elements an
array that stands for it has at least. -/
structure Fields where
  names : List String
  strict : Bool
  least : Nat

/-- The value of a field. -/
def Fields.find (f : Fields) : Doc → String → Option Doc
  | .obj ms, name => lastOf ms name
  | .arr vs, name => vs[f.names.idxOf name]?
  | _, _ => none

/-- What a derived reader takes a struct from. -/
def Fields.Admits (f : Fields) (r : Reading) : Doc → Prop
  | .obj ms => (f.strict = true → Known f.names ms) ∧
      (r = .direct → (∀ m ∈ ms, (chars m.1).isSome = true) ∧ Unrepeated f.names ms)
  | .arr vs => f.least ≤ vs.length ∧ vs.length ≤ f.names.length
  | _ => False

instance (f : Fields) (r : Reading) : (d : Doc) → Decidable (f.Admits r d)
  | .obj _ => inferInstanceAs (Decidable (_ ∧ _))
  | .arr _ => inferInstanceAs (Decidable (_ ∧ _))
  | .null | .bool _ | .num _ | .str _ => inferInstanceAs (Decidable False)

/-- A string of what `JSON.parse` makes of a document. -/
def textOf : Option Doc → Option JsText
  | some (.str u) => some u
  | _ => none

/-- A number of what `JSON.parse` makes of a document, if it is a natural one. -/
def naturalOf : Option Doc → Option Nat
  | some (.num n) => n.natural
  | _ => none

/-- A `String` field. -/
def serdeString : Option Doc → Option (List Char)
  | some (.str u) => chars u
  | _ => none

/-- An `Option<String>` field, which may be missing. -/
def serdeOption : Option Doc → Option (Option (List Char))
  | none | some .null => some none
  | some (.str u) => (chars u).map some
  | _ => none

/-- A `u8` field. -/
def serdeByte : Option Doc → Option Nat
  | some (.num n) => n.plain.filter (· < 256)
  | _ => none

theorem textOf_eq_some {o : Option Doc} {u : JsText} : textOf o = some u ↔ o = some (.str u) := by
  constructor
  · intro h
    unfold textOf at h
    split at h
    · cases h
      rfl
    · cases h
  · rintro rfl
    rfl

theorem naturalOf_eq_some {o : Option Doc} {k : Nat} :
    naturalOf o = some k ↔ ∃ n, o = some (.num n) ∧ n.natural = some k := by
  constructor
  · intro h
    unfold naturalOf at h
    split at h
    · rename_i n
      exact ⟨n, rfl, h⟩
    · cases h
  · rintro ⟨n, rfl, h⟩
    exact h

theorem serdeString_eq_some {o : Option Doc} {s : List Char} :
    serdeString o = some s ↔ o = some (.str (points s)) := by
  constructor
  · intro h
    unfold serdeString at h
    split at h
    · rw [chars_eq_some.mp h]
    · cases h
  · rintro rfl
    exact chars_points s

theorem serdeOption_eq_some {o : Option Doc} {x : Option (List Char)} :
    serdeOption o = some x ↔
      (x = none ∧ (o = none ∨ o = some .null)) ∨ ∃ s, x = some s ∧ o = some (.str (points s)) := by
  constructor
  · intro h
    unfold serdeOption at h
    split at h
    · cases h
      exact .inl ⟨rfl, .inl rfl⟩
    · cases h
      exact .inl ⟨rfl, .inr rfl⟩
    · obtain ⟨s, hs, rfl⟩ := Option.map_eq_some_iff.mp h
      exact .inr ⟨s, rfl, by rw [chars_eq_some.mp hs]⟩
    · cases h
  · rintro (⟨rfl, rfl | rfl⟩ | ⟨s, rfl, rfl⟩)
    · rfl
    · rfl
    · change (chars (points s)).map some = _
      rw [chars_points]
      rfl

theorem serdeByte_eq_some {o : Option Doc} {k : Nat} :
    serdeByte o = some k ↔ k < 256 ∧ ∃ n, o = some (.num n) ∧ n.plain = some k := by
  constructor
  · intro h
    unfold serdeByte at h
    split at h
    · rename_i n
      rw [Option.filter_eq_some_iff] at h
      exact ⟨of_decide_eq_true h.2, n, rfl, h.1⟩
    · cases h
  · rintro ⟨hk, n, rfl, hn⟩
    change n.plain.filter _ = _
    rw [Option.filter_eq_some_iff]
    exact ⟨hn, decide_eq_true hk⟩

/-! ## Two readers -/

/-- Two readers that take the same documents, but for those the first refuses and those the
second refuses, agree where they refuse together. -/
theorem readers_eq_iff {α : Type} {x y : Option α} {Taken : α → Prop} {P Q : Prop}
    (hx : ∀ a, x = some a ↔ Taken a ∧ ¬ P) (hy : ∀ a, y = some a ↔ Taken a ∧ ¬ Q) :
    x = y ↔ ((∃ a, Taken a) → (P ↔ Q)) := by
  constructor
  · rintro hxy ⟨a, ha⟩
    have h : Taken a ∧ ¬ P ↔ Taken a ∧ ¬ Q := by rw [← hx, ← hy, hxy]
    have hnot : ¬ P ↔ ¬ Q := by simpa [ha] using h
    exact not_iff_not.mp hnot
  · intro h
    apply Option.ext
    intro a
    rw [hx, hy]
    constructor
    · rintro ⟨ha, hP⟩
      exact ⟨ha, fun hQ => hP ((h ⟨a, ha⟩).mpr hQ)⟩
    · rintro ⟨ha, hQ⟩
      exact ⟨ha, fun hP => hQ ((h ⟨a, ha⟩).mp hP)⟩

end ChainPay.Lib
