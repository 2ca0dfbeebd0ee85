import Mathlib.Data.List.Lex
import Mathlib.Data.Nat.Digits.Defs
import ChainPay.Lib.Bytes

/-!
Decimal fields of fixed width, as bytes: what zero padding writes (`padded_eq`), what
reading a signed 64-bit number makes of it (`parseI64_fixed`), and that such fields
compare as their numbers do (`fixed_lt`).
-/

namespace ChainPay.Lib

/-- The digit `0`. -/
def digitZero : UInt8 := 48

def digitByte (d : Nat) : UInt8 := UInt8.ofNat (48 + d)

/-- A number in decimal. -/
def decimalBytes (n : Nat) : Bytes :=
  if n = 0 then [digitZero] else (Nat.digits 10 n).reverse.map digitByte

/-- A number in decimal, padded on the left with zeros to a width of at least `w`. -/
def padded (w n : Nat) : Bytes :=
  List.replicate (w - (decimalBytes n).length) digitZero ++ decimalBytes n

/-- The last `w` decimal digits. -/
def fixed : Nat → Nat → Bytes
  | 0, _ => []
  | w + 1, n => fixed w (n / 10) ++ [digitByte (n % 10)]

@[simp] theorem fixed_length (w n : Nat) : (fixed w n).length = w := by
  induction w generalizing n with
  | zero => rfl
  | succ w ih => rw [fixed, List.length_append, ih, List.length_singleton]

theorem fixed_zero (w : Nat) : fixed w 0 = List.replicate w digitZero := by
  induction w with
  | zero => rfl
  | succ w ih =>
    rw [fixed, Nat.zero_div, ih, List.replicate_succ']
    rfl

theorem decimalBytes_small {n : Nat} (h : n < 10) : decimalBytes n = [digitByte n] := by
  unfold decimalBytes
  split
  · rename_i hzero
    rw [hzero]
    rfl
  · rename_i hne
    rw [Nat.digits_of_lt 10 n hne h]
    rfl

theorem decimalBytes_step {n : Nat} (h : 10 ≤ n) :
    decimalBytes n = decimalBytes (n / 10) ++ [digitByte (n % 10)] := by
  have hne : n ≠ 0 := by omega
  have hne' : n / 10 ≠ 0 := by omega
  unfold decimalBytes
  rw [if_neg hne, if_neg hne', Nat.digits_def' (by decide) (by omega), List.reverse_cons,
    List.map_append]
  rfl

/-- A number that fits is written with exactly `w` digits. -/
theorem padded_eq {w n : Nat} (hw : 0 < w) (h : n < 10 ^ w) : padded w n = fixed w n := by
  induction w generalizing n with
  | zero => cases hw
  | succ w ih =>
    by_cases hsmall : n < 10
    · have hdiv : n / 10 = 0 := by omega
      rw [padded, decimalBytes_small hsmall, fixed, hdiv, fixed_zero, List.length_singleton,
        Nat.add_sub_cancel, Nat.mod_eq_of_lt hsmall]
    · have hge : 10 ≤ n := Nat.le_of_not_lt hsmall
      have hw' : 0 < w := by
        rcases Nat.eq_zero_or_pos w with rfl | hw'
        · exact absurd h (by omega)
        · exact hw'
      have hdiv : n / 10 < 10 ^ w := by
        rw [Nat.pow_succ] at h
        omega
      rw [fixed, ← ih hw' hdiv, padded, decimalBytes_step hge, padded, List.length_append,
        List.length_singleton, Nat.add_sub_add_right, List.append_assoc]

/-! ## Reading -/

def isDigitByte (b : UInt8) : Bool := 48 ≤ b && b ≤ 57

def bytesValue (bs : Bytes) : Nat := bs.foldl (fun n b => 10 * n + (b.toNat - 48)) 0

/-- Digits, and at least one. -/
def parseDigits (bs : Bytes) : Option Nat :=
  if bs ≠ [] ∧ bs.all isDigitByte = true then some (bytesValue bs) else none

/-- `str::parse::<i64>`: digits after an optional sign, in range. -/
def parseI64 (bs : Bytes) : Option Int :=
  if bs.head? = some 45 then do
    let n ← parseDigits bs.tail
    if n ≤ 2 ^ 63 then some (-(n : Int)) else none
  else do
    let n ← parseDigits (if bs.head? = some 43 then bs.tail else bs)
    if n < 2 ^ 63 then some (n : Int) else none

theorem digitByte_facts {d : Nat} (h : d < 10) :
    isDigitByte (digitByte d) = true ∧ (digitByte d).toNat = 48 + d ∧ digitByte d < 128 ∧
      digitByte d ≠ 43 ∧ digitByte d ≠ 45 := by
  revert d
  decide

theorem fixed_bytes {w n : Nat} {b : UInt8} (hb : b ∈ fixed w n) :
    ∃ d, d < 10 ∧ b = digitByte d := by
  induction w generalizing n with
  | zero => cases hb
  | succ w ih =>
    rw [fixed, List.mem_append, List.mem_singleton] at hb
    rcases hb with hb | hb
    · exact ih hb
    · exact ⟨n % 10, Nat.mod_lt _ (by decide), hb⟩

theorem bytesValue_fixed {w n : Nat} (h : n < 10 ^ w) : bytesValue (fixed w n) = n := by
  induction w generalizing n with
  | zero =>
    rw [Nat.pow_zero] at h
    have hzero : n = 0 := by omega
    rw [hzero]
    rfl
  | succ w ih =>
    have hdiv : n / 10 < 10 ^ w := by
      rw [Nat.pow_succ] at h
      omega
    have hd := (digitByte_facts (Nat.mod_lt n (show 10 > 0 by decide))).2.1
    have hprev := ih hdiv
    unfold bytesValue at hprev ⊢
    rw [fixed, List.foldl_append, hprev]
    simp only [List.foldl_cons, List.foldl_nil, hd]
    omega

theorem parseI64_fixed {w n : Nat} (hw : 0 < w) (hw' : w ≤ 18) (h : n < 10 ^ w) :
    parseI64 (fixed w n) = some (n : Int) := by
  have hne : fixed w n ≠ [] := by
    intro hnil
    have hlen := fixed_length w n
    rw [hnil] at hlen
    exact absurd hlen.symm hw.ne'
  have hdigits : (fixed w n).all isDigitByte = true := by
    rw [List.all_eq_true]
    intro b hb
    obtain ⟨d, hd, rfl⟩ := fixed_bytes hb
    exact (digitByte_facts hd).1
  have hhead : ∀ c, (fixed w n).head? = some c → c ≠ 43 ∧ c ≠ 45 := by
    intro c hc
    obtain ⟨d, hd, rfl⟩ := fixed_bytes (List.mem_of_mem_head? hc)
    exact (digitByte_facts hd).2.2.2
  have hsmall : n < 2 ^ 63 :=
    Nat.lt_of_lt_of_le h ((Nat.pow_le_pow_right (by decide) hw').trans (by decide))
  have hplus : (fixed w n).head? ≠ some 43 := fun hc => (hhead _ hc).1 rfl
  have hminus : (fixed w n).head? ≠ some 45 := fun hc => (hhead _ hc).2 rfl
  rw [parseI64, if_neg hminus, if_neg hplus, parseDigits, if_pos ⟨hne, hdigits⟩,
    bytesValue_fixed h]
  exact if_pos hsmall

/-! ## Order -/

/-- Texts of one length that differ are told apart whatever follows them. -/
theorem append_lt_append {l m : Bytes} (s t : Bytes) (h : l < m) (hlen : l.length = m.length) :
    l ++ s < m ++ t := by
  induction l generalizing m with
  | nil =>
    rw [List.length_nil] at hlen
    rw [List.length_eq_zero_iff.mp hlen.symm] at h
    exact absurd h (List.lt_irrefl [])
  | cons a l ih =>
    cases m with
    | nil => cases hlen
    | cons b m =>
      rw [List.cons_lt_cons_iff] at h
      rw [List.cons_append, List.cons_append, List.cons_lt_cons_iff]
      rcases h with hab | ⟨rfl, hlm⟩
      · exact .inl hab
      · exact .inr ⟨rfl, ih hlm (Nat.succ.inj hlen)⟩

/-- Fields of one width compare as their numbers do. -/
theorem fixed_lt {w a b : Nat} (hab : a < b) (hb : b < 10 ^ w) : fixed w a < fixed w b := by
  induction w generalizing a b with
  | zero =>
    rw [Nat.pow_zero] at hb
    omega
  | succ w ih =>
    have hdiv : b / 10 < 10 ^ w := by
      rw [Nat.pow_succ] at hb
      omega
    rw [fixed, fixed]
    by_cases hlt : a / 10 < b / 10
    · exact append_lt_append _ _ (ih hlt hdiv) (by rw [fixed_length, fixed_length])
    · have heq : a / 10 = b / 10 := by omega
      have hlast : digitByte (a % 10) < digitByte (b % 10) := by
        have ha' := (digitByte_facts (Nat.mod_lt a (show 10 > 0 by decide))).2.1
        have hb' := (digitByte_facts (Nat.mod_lt b (show 10 > 0 by decide))).2.1
        rw [UInt8.lt_iff_toNat_lt, ha', hb']
        omega
      rw [heq]
      exact List.append_left_lt (List.cons_lt_cons_iff.mpr (.inl hlast))

end ChainPay.Lib
