import ChainPay.Lib.Calendar
import ChainPay.Lib.Checked
import ChainPay.Lib.Digits

/-!
The connector's timestamps. `rfc3339` writes a millisecond count as a fixed-width UTC
time, `parseRfc3339Ms` reads it back. Up to the end of the year 9999 the two are inverse
and the texts compare, byte by byte, as the counts do (`rfc3339_codec`), which is what a
statement cut relies on when it compares `postedAt` texts.
-/

namespace ChainPay.Statements
open ChainPay.Lib Calendar

/-! ## Writing -/

def dash : UInt8 := 45
def letterT : UInt8 := 84
def colon : UInt8 := 58
def dot : UInt8 := 46
def letterZ : UInt8 := 90

/-- A signed number, zero padded with the sign first. -/
def paddedInt (w : Nat) (n : Int) : Bytes :=
  if n < 0 then dash :: padded (w - 1) n.natAbs else padded w n.toNat

/-- RFC 3339 UTC with millisecond precision. -/
def rfc3339 (ms : Nat) : Bytes :=
  let secs := ms / 1000
  let days := secs / 86400
  let rem := secs % 86400
  let date := civilFromDays days
  paddedInt 4 date.year ++ [dash] ++ paddedInt 2 date.month ++ [dash] ++ paddedInt 2 date.day ++
    [letterT] ++ padded 2 (rem / 3600) ++ [colon] ++ padded 2 (rem % 3600 / 60) ++ [colon] ++
    padded 2 (rem % 60) ++ [dot] ++ padded 3 (ms % 1000) ++ [letterZ]

/-! ## Reading -/

/-- Slicing a text inside a character stops the program. -/
inductive Panic where
  | charBoundary
  deriving DecidableEq, Repr

/-- `str::is_char_boundary`: no continuation byte follows. -/
def isCharBoundary (value : Bytes) (i : Nat) : Bool :=
  match value[i]? with
  | some b => b < 128 || 192 ≤ b
  | none => i = value.length

/-- `value[i..j]` as a number. -/
def sliceI64 (value : Bytes) (i j : Nat) : Except Panic (Option Int) := do
  ensure (isCharBoundary value i ∧ isCharBoundary value j) .charBoundary
  return parseI64 ((value.drop i).take (j - i))

/-- Parse the connector's own RFC 3339 strings. The divisions of the calendar are on numbers
that are not negative, whatever two and four characters hold. -/
def parseRfc3339Ms (value : Bytes) : Except Panic (Option Nat) := do
  if value.length < 20 ∨ value[4]? ≠ some dash ∨ value[10]? ≠ some letterT then
    return none
  let some y ← sliceI64 value 0 4 | return none
  let some m ← sliceI64 value 5 7 | return none
  let some d ← sliceI64 value 8 10 | return none
  let some hh ← sliceI64 value 11 13 | return none
  let some mm ← sliceI64 value 14 16 | return none
  let some ss ← sliceI64 value 17 19 | return none
  let some ms ←
    (if 24 ≤ value.length ∧ value[19]? = some dot then sliceI64 value 20 23
    else return some 0) | return none
  let secs := daysFromCivil ⟨y, m, d⟩ * 86400 + hh * 3600 + mm * 60 + ss
  let total := secs * 1000 + ms
  return if 0 ≤ total ∧ total < 2 ^ 64 then some total.toNat else none

/-! ## Seven fields -/

/-- The fields of a timestamp. -/
structure Stamp where
  year : Nat
  month : Nat
  day : Nat
  hour : Nat
  minute : Nat
  second : Nat
  milli : Nat
  deriving DecidableEq, Repr

structure Stamp.Fits (t : Stamp) : Prop where
  year : t.year < 10 ^ 4
  month : t.month < 10 ^ 2
  day : t.day < 10 ^ 2
  hour : t.hour < 10 ^ 2
  minute : t.minute < 10 ^ 2
  second : t.second < 10 ^ 2
  milli : t.milli < 10 ^ 3

/-- The fields at their widths. -/
def Stamp.text (t : Stamp) : Bytes :=
  fixed 4 t.year ++ dash :: (fixed 2 t.month ++ dash :: (fixed 2 t.day ++ letterT ::
    (fixed 2 t.hour ++ colon :: (fixed 2 t.minute ++ colon :: (fixed 2 t.second ++ dot ::
      (fixed 3 t.milli ++ [letterZ]))))))

/-- The fields of a millisecond count. -/
def stampOf (ms : Nat) : Stamp where
  year := (civilFromDays (ms / 1000 / 86400 : Nat)).year.toNat
  month := (civilFromDays (ms / 1000 / 86400 : Nat)).month.toNat
  day := (civilFromDays (ms / 1000 / 86400 : Nat)).day.toNat
  hour := ms / 1000 % 86400 / 3600
  minute := ms / 1000 % 86400 % 3600 / 60
  second := ms / 1000 % 86400 % 60
  milli := ms % 1000

/-- The last millisecond of the year 9999. -/
def endOfYear9999 : Nat := 253402300799999

/-- Up to the end of 9999 the year is one of four digits. -/
theorem year_range {days : Int} (h₀ : 0 ≤ days) (h₁ : days ≤ 2932896) :
    0 ≤ (civilFromDays days).year ∧ (civilFromDays days).year ≤ 9999 := by
  have hfirst : (civilFromDays 0).year = 1970 := by decide
  have hlast : (civilFromDays 2932896).year = 9999 := by decide
  constructor
  · rcases Int.lt_or_eq_of_le h₀ with hlt | rfl
    · have hbefore := civilFromDays_strictMono hlt
      unfold Date.Before at hbefore
      omega
    · omega
  · rcases Int.lt_or_eq_of_le h₁ with hlt | rfl
    · have hbefore := civilFromDays_strictMono hlt
      unfold Date.Before at hbefore
      omega
    · omega

theorem stampOf_year {ms : Nat} (h : ms ≤ endOfYear9999) :
    0 ≤ (civilFromDays (ms / 1000 / 86400 : Nat)).year ∧
      (civilFromDays (ms / 1000 / 86400 : Nat)).year ≤ 9999 := by
  unfold endOfYear9999 at h
  exact year_range (by omega) (by omega)

theorem stampOf_fits {ms : Nat} (h : ms ≤ endOfYear9999) : (stampOf ms).Fits := by
  obtain ⟨hy₀, hy₁⟩ := stampOf_year h
  obtain ⟨hm₀, hm₁, hd₀, hd₁⟩ := civilFromDays_fields (ms / 1000 / 86400 : Nat)
  constructor <;> simp only [stampOf] <;> omega

theorem paddedInt_eq {w : Nat} {n : Int} (hw : 0 < w) (h₀ : 0 ≤ n) (h : n.toNat < 10 ^ w) :
    paddedInt w n = fixed w n.toNat := by
  rw [paddedInt, if_neg (by omega), padded_eq hw h]

/-- Up to the end of 9999 every field has its width. -/
theorem rfc3339_eq {ms : Nat} (h : ms ≤ endOfYear9999) : rfc3339 ms = (stampOf ms).text := by
  obtain ⟨hy₀, -⟩ := stampOf_year h
  obtain ⟨hm₀, -, hd₀, -⟩ := civilFromDays_fields (ms / 1000 / 86400 : Nat)
  have hfits := stampOf_fits h
  have hhour : ms / 1000 % 86400 / 3600 < 10 ^ 2 := hfits.hour
  have hminute : ms / 1000 % 86400 % 3600 / 60 < 10 ^ 2 := hfits.minute
  have hsecond : ms / 1000 % 86400 % 60 < 10 ^ 2 := hfits.second
  have hmilli : ms % 1000 < 10 ^ 3 := hfits.milli
  unfold rfc3339 Stamp.text
  dsimp only
  rw [paddedInt_eq (by decide) hy₀ hfits.year, paddedInt_eq (by decide) (by omega) hfits.month,
    paddedInt_eq (by decide) (by omega) hfits.day, padded_eq (by decide) hhour,
    padded_eq (by decide) hminute, padded_eq (by decide) hsecond, padded_eq (by decide) hmilli]
  simp only [List.append_assoc, List.cons_append, List.nil_append, stampOf]

/-! ## Reading a stamp back -/

theorem text_ascii (t : Stamp) : ∀ b ∈ t.text, b < 128 := by
  have hfixed : ∀ (w n : Nat), ∀ b ∈ fixed w n, b < 128 := by
    intro w n b hb
    obtain ⟨d, hd, rfl⟩ := fixed_bytes hb
    exact (digitByte_facts hd).2.2.1
  unfold Stamp.text
  simp only [List.forall_mem_append, List.forall_mem_cons]
  refine ⟨hfixed _ _, by decide, hfixed _ _, by decide, hfixed _ _, by decide, hfixed _ _,
    by decide, hfixed _ _, by decide, hfixed _ _, by decide, hfixed _ _, by decide, nofun⟩

theorem text_length (t : Stamp) : t.text.length = 24 := by
  simp [Stamp.text]

theorem isCharBoundary_ascii {value : Bytes} {i : Nat} (h : ∀ b ∈ value, b < 128)
    (hi : i ≤ value.length) : isCharBoundary value i = true := by
  unfold isCharBoundary
  cases hb : value[i]? with
  | none =>
    have hlen := List.getElem?_eq_none_iff.mp hb
    exact decide_eq_true (Nat.le_antisymm hi hlen)
  | some b =>
    have hascii := h b (List.mem_of_getElem? hb)
    simp [hascii]

/-- A field is read as its number. -/
theorem sliceI64_field (value front : Bytes) (i j : Nat) {rest : Bytes} {w n : Nat}
    (hvalue : value = front ++ (fixed w n ++ rest)) (hascii : ∀ b ∈ value, b < 128)
    (hi : front.length = i) (hj : i + w = j) (hw : 0 < w) (hw' : w ≤ 18) (hn : n < 10 ^ w) :
    sliceI64 value i j = .ok (some (n : Int)) := by
  have hlen : j ≤ value.length := by
    rw [hvalue, List.length_append, List.length_append, fixed_length]
    omega
  have hslice : (value.drop i).take (j - i) = fixed w n := by
    rw [hvalue, ← hi, List.drop_left, ← hj, hi, Nat.add_sub_cancel_left]
    exact List.take_left' (fixed_length w n)
  have hbound : isCharBoundary value i = true ∧ isCharBoundary value j = true :=
    ⟨isCharBoundary_ascii hascii (by omega), isCharBoundary_ascii hascii hlen⟩
  rw [sliceI64, ensure_pos hbound, ok_bind, hslice, parseI64_fixed hw hw' hn]
  rfl

/-- What is read of the text of a stamp: the milliseconds of its fields. -/
theorem parse_text {t : Stamp} (ht : t.Fits) :
    parseRfc3339Ms t.text = .ok (
      let total := (daysFromCivil ⟨t.year, t.month, t.day⟩ * 86400 + t.hour * 3600 +
        t.minute * 60 + t.second) * 1000 + t.milli
      if 0 ≤ total ∧ total < 2 ^ 64 then some total.toNat else none) := by
  have hascii := text_ascii t
  have hy := sliceI64_field t.text [] 0 4 rfl hascii rfl rfl (by decide) (by decide) ht.year
  have hm := sliceI64_field t.text (fixed 4 t.year ++ [dash]) 5 7 (by simp [Stamp.text]; rfl)
    hascii (by simp) rfl (by decide) (by decide) ht.month
  have hd := sliceI64_field t.text (fixed 4 t.year ++ dash :: (fixed 2 t.month ++ [dash])) 8 10
    (by simp [Stamp.text]; rfl) hascii (by simp) rfl (by decide) (by decide) ht.day
  have hhh := sliceI64_field t.text
    (fixed 4 t.year ++ dash :: (fixed 2 t.month ++ dash :: (fixed 2 t.day ++ [letterT]))) 11 13
    (by simp [Stamp.text]; rfl) hascii (by simp) rfl (by decide) (by decide) ht.hour
  have hmm := sliceI64_field t.text
    (fixed 4 t.year ++ dash :: (fixed 2 t.month ++ dash :: (fixed 2 t.day ++ letterT ::
      (fixed 2 t.hour ++ [colon])))) 14 16
    (by simp [Stamp.text]; rfl) hascii (by simp) rfl (by decide) (by decide) ht.minute
  have hss := sliceI64_field t.text
    (fixed 4 t.year ++ dash :: (fixed 2 t.month ++ dash :: (fixed 2 t.day ++ letterT ::
      (fixed 2 t.hour ++ colon :: (fixed 2 t.minute ++ [colon]))))) 17 19
    (by simp [Stamp.text]; rfl) hascii (by simp) rfl (by decide) (by decide) ht.second
  have hms := sliceI64_field t.text
    (fixed 4 t.year ++ dash :: (fixed 2 t.month ++ dash :: (fixed 2 t.day ++ letterT ::
      (fixed 2 t.hour ++ colon :: (fixed 2 t.minute ++ colon ::
        (fixed 2 t.second ++ [dot])))))) 20 23
    (by simp [Stamp.text]; rfl) hascii (by simp) rfl (by decide) (by decide) ht.milli
  have hlen := text_length t
  have hdash : t.text[4]? = some dash := by
    rw [Stamp.text, List.getElem?_append_right (by simp)]
    simp
  have hT : t.text[10]? = some letterT := by
    simp [Stamp.text]
  have hdot : t.text[19]? = some dot := by
    simp [Stamp.text]
  unfold parseRfc3339Ms
  rw [if_neg (by rw [hlen, hdash, hT]; decide), if_pos ⟨by rw [hlen], hdot⟩]
  simp only [hy, hm, hd, hhh, hmm, hss, hms, ok_bind]
  rfl

/-! ## Order -/

/-- The first field in which two stamps differ decides. -/
def Stamp.Before (a b : Stamp) : Prop :=
  a.year < b.year ∨ a.year = b.year ∧ (a.month < b.month ∨ a.month = b.month ∧
    (a.day < b.day ∨ a.day = b.day ∧ (a.hour < b.hour ∨ a.hour = b.hour ∧
      (a.minute < b.minute ∨ a.minute = b.minute ∧ (a.second < b.second ∨
        a.second = b.second ∧ a.milli < b.milli)))))

theorem field_lt {w a b : Nat} (s t : Bytes) (hab : a < b) (hb : b < 10 ^ w) :
    fixed w a ++ s < fixed w b ++ t :=
  append_lt_append s t (fixed_lt hab hb) (by rw [fixed_length, fixed_length])

theorem field_eq (w a : Nat) (c : UInt8) {s t : Bytes} (h : s < t) :
    fixed w a ++ c :: s < fixed w a ++ c :: t :=
  List.append_left_lt (List.cons_lt_cons_iff.mpr (.inr ⟨rfl, h⟩))

theorem text_lt {a b : Stamp} (hb : b.Fits) (h : a.Before b) : a.text < b.text := by
  unfold Stamp.text
  rcases h with hyear | ⟨hyear, h⟩
  · exact field_lt _ _ hyear hb.year
  rw [hyear]
  refine field_eq _ _ _ ?_
  rcases h with hmonth | ⟨hmonth, h⟩
  · exact field_lt _ _ hmonth hb.month
  rw [hmonth]
  refine field_eq _ _ _ ?_
  rcases h with hday | ⟨hday, h⟩
  · exact field_lt _ _ hday hb.day
  rw [hday]
  refine field_eq _ _ _ ?_
  rcases h with hhour | ⟨hhour, h⟩
  · exact field_lt _ _ hhour hb.hour
  rw [hhour]
  refine field_eq _ _ _ ?_
  rcases h with hminute | ⟨hminute, h⟩
  · exact field_lt _ _ hminute hb.minute
  rw [hminute]
  refine field_eq _ _ _ ?_
  rcases h with hsecond | ⟨hsecond, hmilli⟩
  · exact field_lt _ _ hsecond hb.second
  rw [hsecond]
  refine field_eq _ _ _ ?_
  exact field_lt _ _ hmilli hb.milli

/-- A later count has a later stamp. -/
theorem stampOf_before {a b : Nat} (hab : a < b) (hb : b ≤ endOfYear9999) :
    (stampOf a).Before (stampOf b) := by
  obtain ⟨hya, -⟩ := @stampOf_year a (by omega)
  obtain ⟨hma, -, hda, -⟩ := civilFromDays_fields (a / 1000 / 86400 : Nat)
  clear hb
  by_cases hday : a / 1000 / 86400 = b / 1000 / 86400
  · -- the same day: the rest of the count decides
    unfold Stamp.Before stampOf
    dsimp only
    rw [hday]
    refine .inr ⟨rfl, .inr ⟨rfl, .inr ⟨rfl, ?_⟩⟩⟩
    omega
  · have hlater : ((a / 1000 / 86400 : Nat) : Int) < ((b / 1000 / 86400 : Nat) : Int) := by omega
    have hdate := civilFromDays_strictMono hlater
    unfold Date.Before at hdate
    unfold Stamp.Before stampOf
    dsimp only
    generalize civilFromDays (a / 1000 / 86400 : Nat) = x at *
    generalize civilFromDays (b / 1000 / 86400 : Nat) = y at *
    rcases hdate with hyear | ⟨hyear, hmonth | ⟨hmonth, hday⟩⟩
    · exact .inl (by omega)
    · exact .inr ⟨by omega, .inl (by omega)⟩
    · exact .inr ⟨by omega, .inr ⟨by omega, .inl (by omega)⟩⟩

theorem rfc3339_strictMono {a b : Nat} (hab : a < b) (hb : b ≤ endOfYear9999) :
    rfc3339 a < rfc3339 b := by
  rw [rfc3339_eq (by omega), rfc3339_eq hb]
  exact text_lt (stampOf_fits hb) (stampOf_before hab hb)

/-- Reading what was written. -/
theorem parse_rfc3339 {ms : Nat} (h : ms ≤ endOfYear9999) :
    parseRfc3339Ms (rfc3339 ms) = .ok (some ms) := by
  obtain ⟨hy, -⟩ := stampOf_year h
  obtain ⟨hm, -, hd, -⟩ := civilFromDays_fields (ms / 1000 / 86400 : Nat)
  have hdate : (⟨(stampOf ms).year, (stampOf ms).month, (stampOf ms).day⟩ : Date) =
      civilFromDays (ms / 1000 / 86400 : Nat) := by
    unfold stampOf
    dsimp only
    rw [Int.toNat_of_nonneg hy, Int.toNat_of_nonneg (by omega), Int.toNat_of_nonneg (by omega)]
  rw [rfc3339_eq h, parse_text (stampOf_fits h), hdate, daysFromCivil_civilFromDays]
  have htotal : (((ms / 1000 / 86400 : Nat) : Int) * 86400 + (stampOf ms).hour * 3600 +
      (stampOf ms).minute * 60 + (stampOf ms).second) * 1000 + (stampOf ms).milli = ms := by
    unfold stampOf
    dsimp only
    omega
  dsimp only
  unfold endOfYear9999 at h
  rw [htotal, if_pos (by omega), Int.toNat_natCast]

/-- **Timestamp codec.** Every millisecond count up to the end of the year 9999 is read back
from its text, and two texts compare as their counts do. -/
theorem rfc3339_codec :
    (∀ ms, ms ≤ endOfYear9999 → parseRfc3339Ms (rfc3339 ms) = .ok (some ms)) ∧
      ∀ a b, a ≤ endOfYear9999 → b ≤ endOfYear9999 → (rfc3339 a < rfc3339 b ↔ a < b) := by
  refine ⟨fun ms h => parse_rfc3339 h, fun a b ha hb => ⟨fun hlt => ?_, fun hab => ?_⟩⟩
  · by_contra hge
    rcases Nat.lt_or_eq_of_le (Nat.le_of_not_lt hge) with hgt | rfl
    · exact absurd hlt (List.not_lt.mpr (List.le_of_lt (rfc3339_strictMono hgt ha)))
    · exact List.lt_irrefl _ hlt
  · exact rfc3339_strictMono hab hb

/-- The leap day of 2000 and the last millisecond of 9999. -/
theorem rfc3339_codec_ends :
    parseRfc3339Ms (rfc3339 951782400000) = .ok (some 951782400000) ∧
      rfc3339 endOfYear9999 = ascii "9999-12-31T23:59:59.999Z" ∧
      (rfc3339 951782400000 < rfc3339 endOfYear9999 ↔ 951782400000 < endOfYear9999) :=
  ⟨rfc3339_codec.1 _ (by decide), by decide, rfc3339_codec.2 _ _ (by decide) (by decide)⟩

end ChainPay.Statements
