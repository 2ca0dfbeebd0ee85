import ChainPay.Sdk.ReceiptExport
import Mathlib.Data.List.DropRight
import Mathlib.Tactic.FieldSimp
import Mathlib.Tactic.Ring

/-!
The accounting export is lossless and safe. Every row that can be printed becomes a line of
17 cells; a reader of RFC 4180 gets each cell back as its raw text, or as that text behind an
apostrophe where it would start a formula; an amount of known decimals reads as exactly its
base units (`receiptsToCsv_lossless`).
-/

namespace ChainPay.Sdk.ReceiptExport
open ChainPay.Lib

/-! ## Decimals -/

/-- A decimal number: digits, and after a point at least one more. -/
def readDecimal (s : List Char) : Option Rat :=
  let whole := s.takeWhile isDecimalDigit
  match s.dropWhile isDecimalDigit with
  | [] => if whole ≠ [] then some (decimalValue whole) else none
  | '.' :: fraction =>
    if whole ≠ [] ∧ fraction ≠ [] ∧ fraction.all isDecimalDigit then
      some (decimalValue (whole ++ fraction) / 10 ^ fraction.length)
    else none
  | _ => none

/-- The number a cell shows. -/
def readAmount (cell : JsText) : Option Rat := (chars cell).bind readDecimal

theorem foldl_decimal (n : Nat) (s : List Char) :
    s.foldl (fun n c => 10 * n + (c.toNat - 48)) n = n * 10 ^ s.length + decimalValue s := by
  unfold decimalValue
  induction s generalizing n with
  | nil => simp
  | cons c s ih =>
    rw [List.foldl_cons, ih, List.foldl_cons, ih (10 * 0 + (c.toNat - 48)), List.length_cons,
      Nat.pow_succ]
    ring

theorem decimalValue_append (s t : List Char) :
    decimalValue (s ++ t) = decimalValue s * 10 ^ t.length + decimalValue t := by
  rw [decimalValue, List.foldl_append]
  exact foldl_decimal _ t

theorem decimalValue_zeros {s : List Char} (h : ∀ c ∈ s, c = '0') : decimalValue s = 0 := by
  induction s with
  | nil => rfl
  | cons c s ih =>
    rw [h c List.mem_cons_self, ← List.singleton_append, decimalValue_append,
      ih fun c hc => h c (List.mem_cons_of_mem _ hc)]
    simp [decimalValue]

theorem padStart_digits {width : Nat} {s : List Char} (h : ∀ c ∈ s, isDecimalDigit c = true) :
    ∀ c ∈ padStart width s, isDecimalDigit c = true := by
  intro c hc
  rcases List.mem_append.mp hc with hc | hc
  · rw [List.eq_of_mem_replicate hc]
    decide
  · exact h c hc

theorem decimalValue_padStart (width : Nat) (s : List Char) :
    decimalValue (padStart width s) = decimalValue s := by
  rw [padStart, decimalValue_append, decimalValue_zeros fun c hc => List.eq_of_mem_replicate hc,
    Nat.zero_mul, Nat.zero_add]

theorem padStart_length (width : Nat) (s : List Char) :
    (padStart width s).length = max width s.length := by
  rw [padStart, List.length_append, List.length_replicate]
  omega

theorem readDecimal_whole {w : List Char} (hw : ∀ c ∈ w, isDecimalDigit c = true) (hne : w ≠ []) :
    readDecimal w = some (decimalValue w : Rat) := by
  have htake : w.takeWhile isDecimalDigit = w := List.takeWhile_eq_self_iff.mpr hw
  have hdrop : w.dropWhile isDecimalDigit = [] := List.dropWhile_eq_nil_iff.mpr hw
  rw [readDecimal, htake, hdrop]
  exact if_pos hne

theorem readDecimal_point {w f : List Char} (hw : ∀ c ∈ w, isDecimalDigit c = true) (hne : w ≠ [])
    (hf : ∀ c ∈ f, isDecimalDigit c = true) (hf' : f ≠ []) :
    readDecimal (w ++ '.' :: f) = some ((decimalValue (w ++ f) : Rat) / 10 ^ f.length) := by
  have htake : (w ++ '.' :: f).takeWhile isDecimalDigit = w := by
    rw [List.takeWhile_append_of_pos hw, List.takeWhile_cons_of_neg (by decide), List.append_nil]
  have hdrop : (w ++ '.' :: f).dropWhile isDecimalDigit = '.' :: f := by
    rw [List.dropWhile_append_of_pos hw, List.dropWhile_cons_of_neg (by decide)]
  rw [readDecimal, htake, hdrop]
  exact if_pos ⟨hne, hf', List.all_eq_true.mpr hf⟩

/-- The zeros at the end of a fraction. -/
theorem rdropWhile_point (w f : List Char) :
    (w ++ '.' :: f).rdropWhile (· = '0') =
      w ++ '.' :: f.rdropWhile (· = '0') := by
  induction f using List.reverseRecOn with
  | nil =>
    rw [List.rdropWhile_nil]
    exact List.rdropWhile_concat_neg _ _ _ (by decide)
  | append_singleton f c ih =>
    have hassoc : w ++ '.' :: (f ++ [c]) = (w ++ '.' :: f) ++ [c] := by
      rw [List.append_assoc, List.cons_append]
    rw [hassoc, List.rdropWhile_concat, List.rdropWhile_concat]
    split
    · exact ih
    · exact hassoc.symm

/-- Trimming the zeros of a fraction keeps the number. -/
theorem readDecimal_trimZeros {w f : List Char} (hw : ∀ c ∈ w, isDecimalDigit c = true)
    (hne : w ≠ []) (hf : ∀ c ∈ f, isDecimalDigit c = true) :
    readDecimal (trimZeros (w ++ '.' :: f)) =
        some ((decimalValue (w ++ f) : Rat) / 10 ^ f.length) ∧
      (trimZeros (w ++ '.' :: f)).head? = w.head? := by
  have hsplit := List.rdropWhile_append_rtakeWhile (p := (· = '0')) (l := f)
  have hzeros : decimalValue (f.rtakeWhile (· = '0')) = 0 := by
    refine decimalValue_zeros fun c hc => ?_
    simpa using List.mem_rtakeWhile_imp hc
  have hkept : ∀ c ∈ f.rdropWhile (· = '0'), isDecimalDigit c = true := fun c hc =>
    hf c ((List.rdropWhile_prefix (· = '0') (l := f)).subset hc)
  have htrimmed : trimZeros (w ++ '.' :: f) =
      if (w ++ '.' :: f.rdropWhile (· = '0')).getLast? = some '.' then
        (w ++ '.' :: f.rdropWhile (· = '0')).dropLast
      else w ++ '.' :: f.rdropWhile (· = '0') := by
    rw [← rdropWhile_point]
    rfl
  generalize hkeep : f.rdropWhile (· = '0') = kept at *
  generalize hdrop : f.rtakeWhile (· = '0') = zeros at *
  have hvalue : decimalValue (w ++ f) = decimalValue (w ++ kept) * 10 ^ zeros.length := by
    rw [← hsplit, ← List.append_assoc, decimalValue_append, hzeros, Nat.add_zero]
  have hlen : f.length = kept.length + zeros.length := by
    rw [← hsplit, List.length_append]
  have hratio : (decimalValue (w ++ f) : Rat) / 10 ^ f.length =
      decimalValue (w ++ kept) / 10 ^ kept.length := by
    rw [hvalue, hlen, pow_add]
    push_cast
    field_simp
  have hhead : ∀ s, (w ++ s).head? = w.head? := by
    intro s
    rw [List.head?_append]
    cases w with
    | nil => exact absurd rfl hne
    | cons c w => rfl
  rw [htrimmed, hratio]
  cases kept with
  | nil =>
    -- nothing but zeros: the point goes with them
    have hlast : (w ++ ['.']).getLast? = some '.' := List.getLast?_concat
    rw [if_pos hlast, List.dropLast_concat, List.append_nil]
    refine ⟨?_, rfl⟩
    rw [readDecimal_whole hw hne]
    simp
  | cons c kept =>
    have hlast : (w ++ '.' :: c :: kept).getLast? ≠ some '.' := by
      intro hlast
      rw [List.getLast?_append_of_ne_nil _ (List.cons_ne_nil _ _), List.getLast?_cons_cons] at hlast
      have hdigit := hkept '.' (List.mem_of_getLast? hlast)
      cases hdigit
    rw [if_neg hlast]
    exact ⟨readDecimal_point hw hne hkept (List.cons_ne_nil _ _), hhead _⟩

/-! ## Amounts -/

theorem exactAmount_error {value : Int} {decimals : Option Number} (h : ¬ IsU64 value) :
    exactAmount value decimals = .error .amount := by
  rw [exactAmount, formatExactTokenAmount, ensure_neg h]
  rfl

theorem exactAmount_unknown {value : Int} {decimals : Option Number} (h : IsU64 value)
    (hd : knownDecimals decimals = none) :
    exactAmount value decimals = .ok (decimal value.toNat ++ " base units".toList) := by
  rw [exactAmount, formatExactTokenAmount, ensure_pos h, ok_bind, hd]
  rfl

/-- An amount of known decimals reads as its base units, and begins with a digit. -/
theorem exactAmount_known {value : Int} {decimals : Option Number} {d : Nat} (h : IsU64 value)
    (hd : knownDecimals decimals = some d) :
    ∃ s, exactAmount value decimals = .ok s ∧
      readDecimal s = some ((value : Rat) / 10 ^ d) ∧
      ∃ c, s.head? = some c ∧ isDecimalDigit c = true := by
  have hdigits := decimal_digits value.toNat
  have hcast : ((value.toNat : Nat) : Rat) = (value : Rat) := by
    have hnat : ((value.toNat : Nat) : Int) = value := Int.toNat_of_nonneg h.1
    exact_mod_cast congrArg (fun z : Int => (z : Rat)) hnat
  have hhead : ∀ s : List Char, s ≠ [] → (∀ c ∈ s, isDecimalDigit c = true) →
      ∃ c, s.head? = some c ∧ isDecimalDigit c = true := by
    intro s hs hall
    cases s with
    | nil => exact absurd rfl hs
    | cons c s => exact ⟨c, rfl, hall c List.mem_cons_self⟩
  rw [exactAmount, formatExactTokenAmount, ensure_pos h, ok_bind, hd]
  cases d with
  | zero =>
    have hpoint : '.' ∉ decimal value.toNat := fun hmem => by cases hdigits '.' hmem
    refine ⟨decimal value.toNat, ?_, ?_, hhead _ (decimal_ne_nil _) hdigits⟩
    · simp only [pure_eq_ok, bind_eq_ok]
      exact ⟨_, rfl, by rw [if_neg (by rintro ⟨⟩)]; exact congrArg Except.ok (if_neg hpoint)⟩
    · rw [readDecimal_whole hdigits (decimal_ne_nil _), decimalValue_decimal, hcast]
      simp
  | succ d =>
    have hlen := padStart_length (d + 1 + 1) (decimal value.toNat)
    have hall : ∀ c ∈ padStart (d + 1 + 1) (decimal value.toNat), isDecimalDigit c = true :=
      padStart_digits hdigits
    generalize hpadded : padStart (d + 1 + 1) (decimal value.toNat) = padded at *
    have hwhole : ∀ c ∈ padded.take (padded.length - (d + 1)), isDecimalDigit c = true :=
      fun c hc => hall c (List.mem_of_mem_take hc)
    have hfraction : ∀ c ∈ padded.drop (padded.length - (d + 1)), isDecimalDigit c = true :=
      fun c hc => hall c (List.mem_of_mem_drop hc)
    have hne : padded.take (padded.length - (d + 1)) ≠ [] := by
      intro hnil
      have hzero := congrArg List.length hnil
      rw [List.length_take, List.length_nil] at hzero
      omega
    obtain ⟨hread, hfirst⟩ := readDecimal_trimZeros hwhole hne hfraction
    have hpoint : '.' ∈ padded.take (padded.length - (d + 1)) ++
        '.' :: padded.drop (padded.length - (d + 1)) :=
      List.mem_append_right _ List.mem_cons_self
    refine ⟨trimZeros (padded.take (padded.length - (d + 1)) ++
      '.' :: padded.drop (padded.length - (d + 1))), ?_, ?_, ?_⟩
    · simp only [pure_eq_ok, bind_eq_ok, hpadded]
      exact ⟨_, rfl, by rw [if_neg (by rintro ⟨⟩)]; exact congrArg Except.ok (if_pos hpoint)⟩
    · have hvalue := decimalValue_padStart (d + 1 + 1) (decimal value.toNat)
      rw [hpadded, decimalValue_decimal] at hvalue
      have hlast : (padded.drop (padded.length - (d + 1))).length = d + 1 := by
        rw [List.length_drop]
        omega
      rw [hread, List.take_append_drop, hvalue, hlast, hcast]
    · obtain ⟨c, hc, hdigit⟩ := hhead _ hne hwhole
      exact ⟨c, by rw [hfirst, hc], hdigit⟩

theorem exactAmount_ok_iff {value : Int} {decimals : Option Number} :
    (∃ s, exactAmount value decimals = .ok s) ↔ IsU64 value := by
  constructor
  · rintro ⟨s, hs⟩
    by_contra h
    rw [exactAmount_error h] at hs
    cases hs
  · intro h
    cases hd : knownDecimals decimals with
    | none => exact ⟨_, exactAmount_unknown h hd⟩
    | some d =>
      obtain ⟨s, hs, -⟩ := exactAmount_known h hd
      exact ⟨s, hs⟩

/-! ## Rows -/

/-- Amounts are `u64` and the block's time is one a `Date` holds. -/
structure Printable (row : ReceiptCsvRow) : Prop where
  time : ∀ t, row.blockTime = some (some t) → (timeClip (toDouble (t * 1000))).isSome = true
  amount : IsU64 row.receipt.amount
  limits : ∀ l, row.shownPolicy.limits = some l → IsU64 l.maxPerPayment ∧ IsU64 l.totalLimit
  spentAfter : ∀ l, row.shownPolicy.limits = some l → row.shownPolicy.spentAfterKnown = true →
    IsU64 l.amountSpentAfter

theorem isoDate_ok_iff {blockTime : Option Number} :
    (∃ s, isoDate blockTime = .ok s) ↔
      ∀ t, blockTime = some (some t) → (timeClip (toDouble (t * 1000))).isSome = true := by
  cases blockTime with
  | none => exact ⟨fun _ _ h => (nomatch h), fun _ => ⟨[], rfl⟩⟩
  | some n =>
    cases n with
    | none => exact ⟨fun _ _ h => (nomatch h), fun _ => ⟨[], rfl⟩⟩
    | some t =>
      simp only [isoDate, bind_eq_ok, okOr_eq_ok, pure_eq_ok, Option.some.injEq,
        Option.isSome_iff_exists]
      constructor
      · rintro ⟨s, time, htime, -⟩ t' rfl
        exact ⟨time, htime⟩
      · intro h
        obtain ⟨time, htime⟩ := h t rfl
        exact ⟨_, time, htime, rfl⟩

theorem limitCell_ok_iff {limit : Option Int} {decimals : Option Number} :
    (∃ s, limitCell limit decimals = .ok s) ↔ ∀ value, limit = some value → IsU64 value := by
  cases limit with
  | none => exact ⟨fun _ _ h => (nomatch h), fun _ => ⟨[], rfl⟩⟩
  | some value =>
    simp only [limitCell, bind_eq_ok, pure_eq_ok, Option.some.injEq, forall_eq']
    rw [← @exactAmount_ok_iff value decimals]
    constructor
    · rintro ⟨s, amount, hamount, -⟩
      exact ⟨amount, hamount⟩
    · rintro ⟨amount, hamount⟩
      exact ⟨_, amount, hamount, rfl⟩

theorem rowCells_ok_iff {row : ReceiptCsvRow} :
    (∃ cells, rowCells row = .ok cells) ↔ Printable row := by
  have hlimit : ∀ (f : ReceiptPolicyLimits → Int) (o : Option ReceiptPolicyLimits),
      (∀ value, o.map f = some value → IsU64 value) ↔ ∀ l, o = some l → IsU64 (f l) := by
    intro f o
    cases o with
    | none => exact ⟨fun _ _ h => (by cases h), fun _ _ h => (by cases h)⟩
    | some l => simp
  constructor
  · rintro ⟨cells, hcells⟩
    simp only [rowCells, bind_eq_ok] at hcells
    obtain ⟨date, hdate, amount, hamount, perPayment, hper, total, htotal, spent, hspent, -⟩ := hcells
    have hper' := (hlimit _ _).mp (limitCell_ok_iff.mp ⟨_, hper⟩)
    have htotal' := (hlimit _ _).mp (limitCell_ok_iff.mp ⟨_, htotal⟩)
    refine ⟨isoDate_ok_iff.mp ⟨_, hdate⟩, exactAmount_ok_iff.mp ⟨_, hamount⟩,
      fun l hl => ⟨hper' l hl, htotal' l hl⟩, fun l hl hknown => ?_⟩
    rw [if_pos hknown] at hspent
    exact (hlimit _ _).mp (limitCell_ok_iff.mp ⟨_, hspent⟩) l hl
  · intro h
    obtain ⟨date, hdate⟩ := isoDate_ok_iff.mpr h.time
    obtain ⟨amount, hamount⟩ := (@exactAmount_ok_iff _ row.decimals).mpr h.amount
    obtain ⟨perPayment, hper⟩ := (@limitCell_ok_iff _ row.decimals).mpr
      ((hlimit (·.maxPerPayment) row.shownPolicy.limits).mpr fun l hl => (h.limits l hl).1)
    obtain ⟨total, htotal⟩ := (@limitCell_ok_iff _ row.decimals).mpr
      ((hlimit (·.totalLimit) row.shownPolicy.limits).mpr fun l hl => (h.limits l hl).2)
    obtain ⟨spent, hspent⟩ : ∃ s, limitCell (if row.shownPolicy.spentAfterKnown then
        row.shownPolicy.limits.map (·.amountSpentAfter) else none) row.decimals = .ok s := by
      rw [limitCell_ok_iff]
      split
      · rename_i hknown
        exact (hlimit _ _).mpr fun l hl => h.spentAfter l hl hknown
      · exact fun _ h => (by cases h)
    simp only [rowCells, hdate, hamount, hper, htotal, hspent, ok_bind, pure_eq_ok]
    exact ⟨_, rfl⟩

/-! ## Cells -/

theorem guarded_eq (value : JsText) : guarded value = value ∨ guarded value = .char '\'' :: value := by
  unfold guarded
  split
  · exact .inr rfl
  · exact .inl rfl

/-- No cell starts as a formula does. -/
theorem guarded_safe (value : JsText) : ∀ c ∈ (guarded value).head?, isFormulaStart c = false := by
  intro c hc
  unfold guarded at hc
  split at hc
  · cases hc
    decide
  · rename_i hsafe
    rw [Option.mem_def.mp hc, Option.any_some, Bool.not_eq_true] at hsafe
    exact hsafe

/-- A number is shown as it stands. -/
theorem guarded_digit {s : List Char} {c : Char} (hc : s.head? = some c)
    (hdigit : isDecimalDigit c = true) : guarded (points s) = points s := by
  have hnot : isFormulaStart (.char c) = false := by
    have hrange : 48 ≤ c.toNat ∧ c.toNat ≤ 57 := by
      simp only [isDecimalDigit, Bool.and_eq_true, decide_eq_true_eq] at hdigit
      exact hdigit
    simp only [isFormulaStart, onChar, Bool.or_eq_false_iff, decide_eq_false_iff_not]
    refine ⟨⟨⟨⟨⟨?_, ?_⟩, ?_⟩, ?_⟩, ?_⟩, ?_⟩ <;> rintro rfl <;> revert hrange <;> decide
  unfold guarded
  rw [points, List.head?_map, hc, Option.map_some, Option.any_some, hnot]
  rfl

/-- Cell `i` of a line shows `value`, at `d` decimals. -/
def ShowsAmount (cells : List JsText) (i : Nat) (value : Int) (d : Nat) : Prop :=
  cells[i]?.bind readAmount = some ((value : Rat) / 10 ^ d)

theorem readAmount_guarded {value : Int} {decimals : Option Number} {d : Nat} {s : List Char}
    (hd : knownDecimals decimals = some d) (hs : exactAmount value decimals = .ok s) :
    readAmount (guarded (points s)) = some ((value : Rat) / 10 ^ d) := by
  obtain ⟨s', hs', hread, c, hc, hdigit⟩ := exactAmount_known (exactAmount_ok_iff.mp ⟨s, hs⟩) hd
  rw [hs] at hs'
  cases hs'
  rw [guarded_digit hc hdigit, readAmount, chars_points, Option.bind_some, hread]

/-- What a reader finds in the line of a row. -/
structure Shown (row : ReceiptCsvRow) (line : List JsText) : Prop where
  cells : ∃ cells, rowCells row = .ok cells ∧
    List.Forall₂ (fun raw cell => cell = raw ∨ cell = .char '\'' :: raw) cells line
  length : line.length = 17
  safe : ∀ cell ∈ line, ∀ c ∈ cell.head?, isFormulaStart c = false
  amount : ∀ d, knownDecimals row.decimals = some d → ShowsAmount line 2 row.receipt.amount d
  limits : ∀ d l, knownDecimals row.decimals = some d → row.shownPolicy.limits = some l →
    ShowsAmount line 8 l.maxPerPayment d ∧ ShowsAmount line 9 l.totalLimit d ∧
      (row.shownPolicy.spentAfterKnown = true → ShowsAmount line 10 l.amountSpentAfter d)

theorem shown_of_cells {row : ReceiptCsvRow} {cells : List JsText} (h : rowCells row = .ok cells) :
    Shown row (cells.map guarded) := by
  have hcells := h
  simp only [rowCells, bind_eq_ok, pure_eq_ok] at h
  obtain ⟨date, -, amount, hamount, perPayment, hper, total, htotal, spent, hspent, rfl⟩ := h
  have hlimit : ∀ {value : Int} {cell : JsText} {d : Nat}, knownDecimals row.decimals = some d →
      limitCell (some value) row.decimals = .ok cell →
      readAmount (guarded cell) = some ((value : Rat) / 10 ^ d) := by
    intro value cell d hd hcell
    simp only [limitCell, bind_eq_ok, pure_eq_ok] at hcell
    obtain ⟨s, hs, rfl⟩ := hcell
    exact readAmount_guarded hd hs
  refine ⟨⟨_, hcells, ?_⟩, rfl, ?_, fun d hd => readAmount_guarded hd hamount, ?_⟩
  · rw [List.forall₂_map_right_iff, List.forall₂_same]
    exact fun raw _ => guarded_eq raw
  · intro cell hcell
    obtain ⟨raw, -, rfl⟩ := List.mem_map.mp hcell
    exact guarded_safe raw
  · intro d l hd hl
    rw [hl] at hper htotal hspent
    refine ⟨hlimit hd hper, hlimit hd htotal, fun hknown => ?_⟩
    rw [if_pos hknown] at hspent
    exact hlimit hd hspent

/-! ## The file -/

theorem receiptsToCsv_eq {rows : List ReceiptCsvRow} {cells : List (List JsText)}
    (h : rows.mapM rowCells = .ok cells) :
    receiptsToCsv rows = .ok (Csv.fileText marks
      ((RECEIPT_CSV_HEADERS :: cells).map (·.map guarded))) := by
  have hline : ∀ line : List JsText, (text ",").intercalate (line.map csvCell) =
      Csv.lineText marks (line.map guarded) := by
    intro line
    rw [Csv.lineText, List.map_map]
    rfl
  simp only [receiptsToCsv, h, ok_bind, pure_eq_ok, Csv.fileText, List.map_map]
  congr 3
  exact funext fun line => hline line

/-- A header is shown as it stands. -/
theorem headers_guarded : RECEIPT_CSV_HEADERS.map guarded = RECEIPT_CSV_HEADERS := by
  decide +kernel

/-- Rows can be laid out in cells when each of them can. -/
theorem exists_cells_iff {rows : List ReceiptCsvRow} :
    (∃ cells, rows.mapM rowCells = .ok cells) ↔ ∀ row ∈ rows, Printable row := by
  simp only [mapM_eq_ok]
  induction rows with
  | nil => exact ⟨fun _ row hrow => (List.not_mem_nil hrow).elim, fun _ => ⟨[], .nil⟩⟩
  | cons row rows ih =>
    rw [List.forall_mem_cons, ← ih, ← rowCells_ok_iff]
    constructor
    · rintro ⟨_, hall⟩
      cases hall with
      | cons hline hlines => exact ⟨⟨_, hline⟩, _, hlines⟩
    · rintro ⟨⟨line, hline⟩, lines, hlines⟩
      exact ⟨line :: lines, .cons hline hlines⟩

/-- **Receipt export.** It succeeds exactly when every row can be printed; then a reader of
RFC 4180 finds the header and, for each receipt, one line of 17 cells that are its raw cells up
to an apostrophe, start no formula and show the exact amounts. -/
theorem receiptsToCsv_lossless (rows : List ReceiptCsvRow) :
    ((∃ csv, receiptsToCsv rows = .ok csv) ↔ ∀ row ∈ rows, Printable row) ∧
    ∀ csv, receiptsToCsv rows = .ok csv →
      ∃ lines, Csv.parseFile marks csv = some (RECEIPT_CSV_HEADERS :: lines) ∧
        RECEIPT_CSV_HEADERS.length = 17 ∧
        (∀ cell ∈ RECEIPT_CSV_HEADERS, ∀ c ∈ cell.head?, isFormulaStart c = false) ∧
        List.Forall₂ Shown rows lines := by
  constructor
  · rw [← exists_cells_iff]
    constructor
    · rintro ⟨csv, hcsv⟩
      simp only [receiptsToCsv, bind_eq_ok] at hcsv
      obtain ⟨cells, hcells, -⟩ := hcsv
      exact ⟨cells, hcells⟩
    · rintro ⟨cells, hcells⟩
      exact ⟨_, receiptsToCsv_eq hcells⟩
  · intro csv hcsv
    have hcsv' := hcsv
    simp only [receiptsToCsv, bind_eq_ok] at hcsv'
    obtain ⟨cells, hcells, -⟩ := hcsv'
    rw [receiptsToCsv_eq hcells, Except.ok.injEq] at hcsv
    have hshown : List.Forall₂ Shown rows (cells.map (·.map guarded)) := by
      rw [List.forall₂_map_right_iff]
      exact (mapM_eq_ok.mp hcells).imp fun row line hline => shown_of_cells hline
    refine ⟨cells.map (·.map guarded), ?_, rfl, ?_, hshown⟩
    · rw [← hcsv, Csv.parseFile_fileText, List.map_cons, headers_guarded]
      · exact List.cons_ne_nil _ _
      · intro line hline
        rw [List.map_cons, List.mem_cons, headers_guarded] at hline
        rcases hline with rfl | hline
        · exact List.cons_ne_nil _ _
        · intro hnil
          subst hnil
          obtain ⟨i, hi, hget⟩ := List.mem_iff_getElem.mp hline
          have hrow := (List.forall₂_iff_get.mp hshown).2 i
            (by rw [hshown.length_eq]; exact hi) hi
          rw [List.get_eq_getElem, List.get_eq_getElem, hget] at hrow
          exact absurd hrow.length (by decide)
    · intro cell hcell
      rw [← headers_guarded] at hcell
      obtain ⟨raw, -, rfl⟩ := List.mem_map.mp hcell
      exact guarded_safe raw

namespace Sample

/-- A receipt with a label that quotes, separates and breaks lines, and a formula for a PO. -/
def row (blockTime : Number) : ReceiptCsvRow where
  receipt := {
    address := text "receipt", mandate := text "mandate", invoiceHash := [10, 11]
    mint := text "mint", recipientTokenAccount := text "payee", amount := 1230500
    agent := text "agent", transactionSignature := none
    policySnapshot := some ⟨2000000, 3000000, 1230500⟩ }
  decimals := some (some 6)
  symbol := some (text "USDC")
  blockTime := some blockTime
  policy := none
  purpose := some ⟨none, some (text "a, \"b\"\r\nc"), none⟩
  verifyUrl := none
  explorerUrl := none
  poNumber := some (text "=1+2")
  orderMatch := none

end Sample

theorem receiptsToCsv_lossless_sample :
    ∃ csv lines, receiptsToCsv [Sample.row (some 1759536000)] = .ok csv ∧
      Csv.parseFile marks csv = some (RECEIPT_CSV_HEADERS :: lines) ∧
      List.Forall₂ Shown [Sample.row (some 1759536000)] lines := by
  obtain ⟨hok, hlines⟩ := receiptsToCsv_lossless [Sample.row (some 1759536000)]
  have hprintable : ∀ row ∈ [Sample.row (some 1759536000)], Printable row := by
    intro row hrow
    cases List.mem_singleton.mp hrow
    refine ⟨fun t ht => ?_, by decide, fun l hl => ?_, fun l hl _ => ?_⟩
    · cases ht
      decide +kernel
    · cases hl
      decide
    · cases hl
      decide
  obtain ⟨csv, hcsv⟩ := hok.mpr hprintable
  obtain ⟨lines, hparse, -, -, hshown⟩ := hlines csv hcsv
  exact ⟨csv, lines, hcsv, hparse, hshown⟩

/-- A time past the last one of a `Date` throws. -/
theorem receiptsToCsv_throws :
    IsU64 (Sample.row (some 8640000000001)).receipt.amount ∧
      receiptsToCsv [Sample.row (some 8640000000001)] = .error .invalidTime := by
  refine ⟨by decide, ?_⟩
  have hclip : timeClip (toDouble (8640000000001 * 1000)) = none := by decide +kernel
  have hdate : isoDate (some (some 8640000000001)) = .error .invalidTime := by
    rw [isoDate, hclip]
    rfl
  have hcells : rowCells (Sample.row (some 8640000000001)) = .error .invalidTime := by
    have htime : (Sample.row (some 8640000000001)).blockTime = some (some 8640000000001) := rfl
    rw [rowCells, htime, hdate]
    rfl
  rw [receiptsToCsv, List.mapM_cons, hcells]
  rfl

end ChainPay.Sdk.ReceiptExport
