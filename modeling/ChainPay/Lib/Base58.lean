import Mathlib.Data.Nat.Digits.Lemmas
import ChainPay.Lib.Bytes

/-!
Base58, and the arithmetic on lists of digits that encoders and decoders of it are written with:
a number in one base is multiplied by the other base and a digit is added, digit by digit.
-/

namespace ChainPay.Lib

/-! ## Digits -/

/-- `m` times a number, and `carry`, on its digits in a base, least significant first. -/
def mulAdd (base m : Nat) : List Nat → Nat → List Nat
  | [], carry => Nat.digits base carry
  | d :: ds, carry => (carry + d * m) % base :: mulAdd base m ds ((carry + d * m) / base)

theorem mulAdd_digits {base m : Nat} (hbase : 1 < base) (hm : 0 < m) (n carry : Nat) :
    mulAdd base m (Nat.digits base n) carry = Nat.digits base (m * n + carry) := by
  induction n using Nat.strong_induction_on generalizing carry with
  | _ n ih =>
    by_cases hn : n = 0
    · rw [hn, Nat.digits_zero, mulAdd, Nat.mul_zero, Nat.zero_add]
    · have hpos : m * n + carry ≠ 0 := by
        have := Nat.mul_pos hm (Nat.pos_of_ne_zero hn)
        omega
      have hparts : m * n + carry = carry + n % base * m + base * (m * (n / base)) := by
        have hn := Nat.mod_add_div n base
        calc m * n + carry = m * (n % base + base * (n / base)) + carry := by rw [hn]
          _ = carry + n % base * m + base * (m * (n / base)) := by ring
      have hlow : (m * n + carry) % base = (carry + n % base * m) % base := by
        rw [hparts, Nat.add_mul_mod_self_left]
      have hhigh : (m * n + carry) / base = m * (n / base) + (carry + n % base * m) / base := by
        rw [hparts, Nat.add_mul_div_left _ _ (by omega), Nat.add_comm]
      rw [Nat.digits_eq_cons_digits_div hbase hn, mulAdd,
        ih (n / base) (Nat.div_lt_self (Nat.pos_of_ne_zero hn) hbase),
        Nat.digits_eq_cons_digits_div hbase hpos, hlow, hhigh]

/-- A number that is read digit by digit, most significant first. -/
theorem foldl_mulAdd {base m : Nat} (hbase : 1 < base) (hm : 0 < m) (ds : List Nat) (n : Nat) :
    ds.foldl (mulAdd base m) (Nat.digits base n) =
      Nat.digits base (ds.foldl (fun n d => m * n + d) n) := by
  induction ds generalizing n with
  | nil => rfl
  | cons d ds ih => rw [List.foldl_cons, mulAdd_digits hbase hm, ih, List.foldl_cons]

theorem ofBeBytes_foldl (bs : Bytes) (n : Nat) :
    (bs.map UInt8.toNat).foldl (fun n d => 256 * n + d) n =
      256 ^ bs.length * n + ofBeBytes bs := by
  induction bs generalizing n with
  | nil => simp [ofBeBytes, ofLeBytes]
  | cons b bs ih =>
    rw [List.map_cons, List.foldl_cons, ih, ofBeBytes_cons, List.length_cons, Nat.pow_succ]
    ring

/-! ## Text -/

def alphabet58 : List Char := "123456789ABCDEFGHJKLMNPQRSTUVWXYZabcdefghijkmnopqrstuvwxyz".toList

theorem alphabet58_eq : alphabet58 =
    ['1', '2', '3', '4', '5', '6', '7', '8', '9', 'A', 'B', 'C', 'D', 'E', 'F', 'G', 'H', 'J', 'K',
     'L', 'M', 'N', 'P', 'Q', 'R', 'S', 'T', 'U', 'V', 'W', 'X', 'Y', 'Z', 'a', 'b', 'c', 'd', 'e',
     'f', 'g', 'h', 'i', 'j', 'k', 'm', 'n', 'o', 'p', 'q', 'r', 's', 't', 'u', 'v', 'w', 'x', 'y',
     'z'] :=
  String.toList_ofList

def digit58 (n : Nat) : Char := alphabet58.getD n '1'

def value58 (c : Char) : Option Nat := alphabet58.findIdx? (· = c)

theorem alphabet58_nodup : alphabet58.Nodup := by
  have hcodes : alphabet58.map Char.toNat = List.range' 49 9 ++ (List.range' 65 8 ++
      (List.range' 74 5 ++ (List.range' 80 11 ++ (List.range' 97 11 ++ List.range' 109 14)))) := by
    rw [alphabet58_eq]
    rfl
  refine List.Nodup.of_map Char.toNat ?_
  rw [hcodes]
  refine List.nodup_append'.mpr ⟨List.nodup_range', List.nodup_append'.mpr ⟨List.nodup_range',
    List.nodup_append'.mpr ⟨List.nodup_range', List.nodup_append'.mpr ⟨List.nodup_range',
      List.nodup_append'.mpr ⟨List.nodup_range', List.nodup_range', ?_⟩, ?_⟩, ?_⟩, ?_⟩, ?_⟩
  all_goals
    intro code hcode hlater
    simp only [List.mem_append, List.mem_range'_1] at hcode hlater
    omega

theorem value58_digit58 {n : Nat} (h : n < 58) : value58 (digit58 n) = some n := by
  have hlength : alphabet58.length = 58 := by
    rw [alphabet58_eq]
    rfl
  exact findIdx?_getD alphabet58_nodup (hlength ▸ h) _

/-- One `1` for each leading zero byte, then the digits of the number. -/
def toBase58 (bs : Bytes) : List Char :=
  List.replicate (bs.takeWhile (· = 0)).length '1' ++
    (Nat.digits 58 (ofBeBytes bs)).reverse.map digit58

/-- The number that a text denotes. -/
def number58 (s : List Char) : Option Nat := do
  let ds ← s.mapM value58
  return ds.foldl (fun n d => 58 * n + d) 0

theorem mapM_value58 {ds : List Nat} (h : ∀ d ∈ ds, d < 58) :
    (ds.map digit58).mapM value58 = some ds := by
  induction ds with
  | nil => rfl
  | cons d ds ih =>
    rw [List.map_cons, List.mapM_cons, value58_digit58 (h d List.mem_cons_self),
      ih fun e he => h e (List.mem_cons_of_mem _ he)]
    rfl

/-- Digits that are read one by one, most significant first. -/
theorem foldl_eq_ofDigits (m : Nat) (ds : List Nat) :
    ds.foldl (fun n d => m * n + d) 0 = Nat.ofDigits m ds.reverse := by
  have hfold : ∀ es : List Nat, es.foldr (fun d n => m * n + d) 0 = Nat.ofDigits m es := by
    intro es
    induction es with
    | nil => rfl
    | cons e es ih => rw [List.foldr_cons, ih, Nat.ofDigits_cons, Nat.add_comm]
  rw [← hfold, List.foldr_reverse]

theorem foldl_reverse_digits (m n : Nat) :
    (Nat.digits m n).reverse.foldl (fun n d => m * n + d) 0 = n := by
  rw [foldl_eq_ofDigits, List.reverse_reverse, Nat.ofDigits_digits]

/-- Leading zeros do not count. -/
theorem foldl_zeros (m k : Nat) (es : List Nat) :
    (List.replicate k 0 ++ es).foldl (fun n d => m * n + d) 0 =
      es.foldl (fun n d => m * n + d) 0 := by
  induction k with
  | zero => rfl
  | succ k ih => exact ih

theorem number58_toBase58 (bs : Bytes) : number58 (toBase58 bs) = some (ofBeBytes bs) := by
  have htext : toBase58 bs = (List.replicate (bs.takeWhile (· = 0)).length 0 ++
      (Nat.digits 58 (ofBeBytes bs)).reverse).map digit58 := by
    rw [List.map_append, List.map_replicate]
    rfl
  unfold number58
  rw [htext, mapM_value58]
  · rw [Option.bind_eq_bind, Option.bind_some, foldl_zeros, foldl_reverse_digits]
    rfl
  · intro d hd
    rcases List.mem_append.mp hd with hd | hd
    · rw [List.eq_of_mem_replicate hd]
      decide
    · exact Nat.digits_lt_base (by decide) (List.mem_reverse.mp hd)

/-- Bytes of one length have their own text each. -/
theorem toBase58_inj {as bs : Bytes} (hlen : as.length = bs.length)
    (h : toBase58 as = toBase58 bs) : as = bs := by
  have hvalue : ofBeBytes as = ofBeBytes bs := by
    have hnumber := number58_toBase58 as
    rw [h, number58_toBase58] at hnumber
    exact (Option.some.inj hnumber).symm
  rw [← beBytes_ofBeBytes as, ← beBytes_ofBeBytes bs, hvalue, hlen]

/-! ## Reading -/

/-- The bytes of a text, with one zero byte for each leading `1`. -/
def ofBase58 (s : List Char) : Option Bytes := do
  let ds ← s.mapM value58
  let bytes := ds.foldl (mulAdd 256 58) [] ++ List.replicate (s.takeWhile (· = '1')).length 0
  return bytes.reverse.map UInt8.ofNat

theorem digit58_value58 {c : Char} {n : Nat} (h : value58 c = some n) :
    n < 58 ∧ digit58 n = c := by
  obtain ⟨hn, hc, _⟩ := List.findIdx?_eq_some_iff_getElem.mp h
  refine ⟨hn, ?_⟩
  have hget : alphabet58.getD n '1' = alphabet58[n] := by
    rw [List.getD_eq_getElem?_getD, List.getElem?_eq_getElem hn, Option.getD_some]
  rw [digit58, hget]
  exact of_decide_eq_true hc

theorem mapM_value58_eq_some {s : List Char} {ds : List Nat} (h : s.mapM value58 = some ds) :
    (∀ d ∈ ds, d < 58) ∧ s = ds.map digit58 := by
  induction s generalizing ds with
  | nil =>
    cases h
    exact ⟨fun _ hd => (nomatch hd), rfl⟩
  | cons c s ih =>
    rw [List.mapM_cons, Option.bind_eq_bind, Option.bind_eq_some_iff] at h
    obtain ⟨d, hd, h⟩ := h
    rw [Option.bind_eq_bind, Option.bind_eq_some_iff] at h
    obtain ⟨es, hes, heq⟩ := h
    cases heq
    obtain ⟨hlt, rfl⟩ := ih hes
    obtain ⟨hd58, rfl⟩ := digit58_value58 hd
    exact ⟨List.forall_mem_cons.mpr ⟨hd58, hlt⟩, rfl⟩

theorem digit58_eq_one {n : Nat} (h : n < 58) : digit58 n = '1' ↔ n = 0 := by
  unfold digit58
  rw [alphabet58_eq]
  revert n
  decide

theorem takeWhile_replicate {α : Type} {p : α → Bool} {a : α} {as : List α} (k : Nat)
    (ha : p a = true) (has : ∀ b ∈ as.head?, p b = false) :
    (List.replicate k a ++ as).takeWhile p = List.replicate k a := by
  induction k with
  | zero =>
    cases as with
    | nil => rfl
    | cons b as => exact List.takeWhile_cons_of_neg (by simp [has b rfl])
  | succ k ih => rw [List.replicate_succ, List.cons_append, List.takeWhile_cons_of_pos ha, ih]

theorem digits_foldl {m : Nat} {es : List Nat} (hm : 1 < m) (hlt : ∀ e ∈ es, e < m)
    (hhead : ∀ e ∈ es.head?, e ≠ 0) :
    Nat.digits m (es.foldl (fun n d => m * n + d) 0) = es.reverse := by
  rw [foldl_eq_ofDigits]
  apply Nat.digits_ofDigits m hm
  · intro e he
    exact hlt e (List.mem_reverse.mp he)
  · intro hne
    rw [List.getLast_reverse]
    exact hhead _ (List.head?_eq_some_head _)

/-- **A text that is read is the text of its bytes.** -/
theorem toBase58_ofBase58 {s : List Char} {bs : Bytes} (h : ofBase58 s = some bs) :
    toBase58 bs = s := by
  obtain ⟨ds, hds, heq⟩ := Option.bind_eq_some_iff.mp h
  cases heq
  obtain ⟨hlt, rfl⟩ := mapM_value58_eq_some hds
  -- the leading zeros and what they are followed by
  obtain ⟨k, es, rfl, hes⟩ : ∃ k es, ds = List.replicate k 0 ++ es ∧ ∀ e ∈ es.head?, e ≠ 0 := by
    clear h hds hlt
    induction ds with
    | nil => exact ⟨0, [], rfl, fun _ he => nomatch he⟩
    | cons d ds ih =>
      by_cases hd : d = 0
      · obtain ⟨k, es, rfl, hes⟩ := ih
        exact ⟨k + 1, es, by rw [hd, List.replicate_succ, List.cons_append], hes⟩
      · exact ⟨0, d :: ds, rfl, fun e he => by cases he; exact hd⟩
  have hlt' : ∀ e ∈ es, e < 58 := fun e he => hlt e (List.mem_append_right _ he)
  have hones : (((List.replicate k 0 ++ es).map digit58).takeWhile (· = '1')).length = k := by
    rw [List.map_append, List.map_replicate, takeWhile_replicate k (by decide),
      List.length_replicate]
    intro c hc
    rw [List.head?_map] at hc
    obtain ⟨e, he, rfl⟩ := Option.map_eq_some_iff.mp hc
    apply decide_eq_false
    intro hone
    exact hes e he ((digit58_eq_one (hlt' e (List.mem_of_head? he))).mp hone)
  have hbytes := foldl_mulAdd (by decide : 1 < 256) (by decide : 0 < 58)
    (List.replicate k 0 ++ es) 0
  rw [Nat.digits_zero, foldl_zeros] at hbytes
  rw [hones, hbytes, List.reverse_append, List.reverse_replicate, List.map_append,
    List.map_replicate]
  generalize hn : es.foldl (fun n d => 58 * n + d) 0 = n
  have hdigits : Nat.digits 58 n = es.reverse := by
    rw [← hn]
    exact digits_foldl (by decide) hlt' hes
  have hhigh : ∀ b ∈ ((Nat.digits 256 n).reverse.map UInt8.ofNat).head?, decide (b = 0) = false := by
    intro b hb
    rw [List.head?_map, List.head?_reverse] at hb
    obtain ⟨d, hd, rfl⟩ := Option.map_eq_some_iff.mp hb
    have hmem := List.mem_of_getLast? hd
    have hd256 := Nat.digits_lt_base (by decide : 1 < 256) hmem
    have hne : Nat.digits 256 n ≠ [] := List.ne_nil_of_mem hmem
    have hn0 : n ≠ 0 := Nat.digits_ne_nil_iff_ne_zero.mp hne
    have hlast := Nat.getLast_digit_ne_zero 256 hn0
    rw [List.getLast?_eq_some_getLast hne] at hd
    cases hd
    apply decide_eq_false
    intro hzero
    have hval := congrArg UInt8.toNat hzero
    rw [UInt8.toNat_ofNat', Nat.mod_eq_of_lt hd256] at hval
    exact hlast hval
  have hvalue : ofBeBytes (List.replicate k (UInt8.ofNat 0) ++
      (Nat.digits 256 n).reverse.map UInt8.ofNat) = n := by
    have hfold := ofBeBytes_foldl (List.replicate k (UInt8.ofNat 0) ++
      (Nat.digits 256 n).reverse.map UInt8.ofNat) 0
    rw [Nat.mul_zero, Nat.zero_add] at hfold
    rw [← hfold, List.map_append, List.map_replicate, List.map_map]
    have hback : (Nat.digits 256 n).reverse.map (UInt8.toNat ∘ UInt8.ofNat) =
        (Nat.digits 256 n).reverse := by
      rw [List.map_congr_left (g := id), List.map_id]
      intro d hd
      have hd256 := Nat.digits_lt_base (by decide : 1 < 256) (List.mem_reverse.mp hd)
      change (UInt8.ofNat d).toNat = d
      rw [UInt8.toNat_ofNat', Nat.mod_eq_of_lt hd256]
    rw [hback]
    change (List.replicate k 0 ++ _).foldl _ 0 = n
    rw [foldl_zeros, foldl_reverse_digits]
  rw [toBase58, hvalue, hdigits, List.reverse_reverse]
  have hzeros : ((List.replicate k (UInt8.ofNat 0) ++
      (Nat.digits 256 n).reverse.map UInt8.ofNat).takeWhile (· = 0)).length = k := by
    rw [takeWhile_replicate k (by decide) hhigh, List.length_replicate]
  rw [hzeros, List.map_append, List.map_replicate]
  rfl

end ChainPay.Lib
