import Mathlib.Data.List.Basic
import ChainPay.Lib.Bytes

/-!
Bytes as text: lowercase hexadecimal, base64 as `btoa` and `atob` have it, and UTF-8 as
`TextEncoder` and `TextDecoder` have it. Each way of writing bytes is read back exactly
(`ofHex_toHex`, `atob_btoa`), and text of ASCII characters survives UTF-8 (`decodeUtf8_ascii`).
-/

namespace ChainPay.Lib

theorem ofNat_toNat_eq {n : Nat} {b : UInt8} (h : n = b.toNat) : UInt8.ofNat n = b := by
  rw [h]
  exact UInt8.ofNat_toNat

/-! ## Hexadecimal -/

def hexDigit (n : Nat) : Char := "0123456789abcdef".toList.getD n '0'

/-- The value of a lowercase digit. -/
def hexValue (c : Char) : Option Nat :=
  if '0' ≤ c ∧ c ≤ '9' then some (c.toNat - 48)
  else if 'a' ≤ c ∧ c ≤ 'f' then some (c.toNat - 87)
  else none

def toHex (bs : Bytes) : List Char :=
  bs.flatMap fun b => [hexDigit (b.toNat / 16), hexDigit (b.toNat % 16)]

/-- `none` unless the text is pairs of lowercase digits. -/
def ofHex : List Char → Option Bytes
  | [] => some []
  | [_] => none
  | h :: l :: rest => do
    let hi ← hexValue h
    let lo ← hexValue l
    let bs ← ofHex rest
    return UInt8.ofNat (16 * hi + lo) :: bs

theorem hexValue_hexDigit {n : Nat} (h : n < 16) : hexValue (hexDigit n) = some n := by
  revert n
  decide

theorem ofHex_toHex (bs : Bytes) : ofHex (toHex bs) = some bs := by
  induction bs with
  | nil => rfl
  | cons b bs ih =>
    have hb : b.toNat < 256 := b.toNat_lt
    have hhi : hexValue (hexDigit (b.toNat / 16)) = some (b.toNat / 16) :=
      hexValue_hexDigit (by omega)
    have hlo : hexValue (hexDigit (b.toNat % 16)) = some (b.toNat % 16) :=
      hexValue_hexDigit (by omega)
    have hsum : UInt8.ofNat (16 * (b.toNat / 16) + b.toNat % 16) = b :=
      ofNat_toNat_eq (by omega)
    change ofHex (hexDigit (b.toNat / 16) :: hexDigit (b.toNat % 16) :: toHex bs) = _
    simp only [ofHex, hhi, hlo, ih, hsum, Option.bind_eq_bind, Option.bind_some, Option.pure_def]

theorem toHex_injective : Function.Injective toHex := by
  intro x y h
  have hx := ofHex_toHex x
  rw [h, ofHex_toHex y] at hx
  exact (Option.some.inj hx).symm

theorem hexDigit_ascii {n : Nat} (h : n < 16) : (hexDigit n).toNat < 128 := by
  revert n
  decide

theorem toHex_ascii (bs : Bytes) : ∀ c ∈ toHex bs, c.toNat < 128 := by
  intro c hc
  simp only [toHex, List.mem_flatMap] at hc
  obtain ⟨b, -, hc⟩ := hc
  have hb : b.toNat < 256 := b.toNat_lt
  rcases List.mem_cons.mp hc with rfl | hc
  · exact hexDigit_ascii (by omega)
  · rw [List.mem_singleton.mp hc]
    exact hexDigit_ascii (by omega)

/-! ## Base64 -/

def base64Alphabet : List Char :=
  "ABCDEFGHIJKLMNOPQRSTUVWXYZabcdefghijklmnopqrstuvwxyz0123456789+/".toList

theorem base64Alphabet_eq : base64Alphabet =
    ['A', 'B', 'C', 'D', 'E', 'F', 'G', 'H', 'I', 'J', 'K', 'L', 'M', 'N', 'O', 'P', 'Q', 'R', 'S',
     'T', 'U', 'V', 'W', 'X', 'Y', 'Z', 'a', 'b', 'c', 'd', 'e', 'f', 'g', 'h', 'i', 'j', 'k', 'l',
     'm', 'n', 'o', 'p', 'q', 'r', 's', 't', 'u', 'v', 'w', 'x', 'y', 'z', '0', '1', '2', '3', '4',
     '5', '6', '7', '8', '9', '+', '/'] :=
  String.toList_ofList

def base64Char (n : Nat) : Char := base64Alphabet.getD n 'A'

def base64Value (c : Char) : Option Nat := base64Alphabet.findIdx? (· = c)

/-- The bits of a byte string in groups of six, the last group filled with zeros. -/
def sextets : Bytes → List Nat
  | [] => []
  | [a] => [a.toNat / 4, a.toNat % 4 * 16]
  | [a, b] => [a.toNat / 4, a.toNat % 4 * 16 + b.toNat / 16, b.toNat % 16 * 4]
  | a :: b :: c :: rest =>
    a.toNat / 4 :: (a.toNat % 4 * 16 + b.toNat / 16) :: (b.toNat % 16 * 4 + c.toNat / 64) ::
      c.toNat % 64 :: sextets rest

/-- Whole bytes out of groups of six bits; bits left over are dropped. -/
def ofSextets : List Nat → Option Bytes
  | [] => some []
  | [_] => none
  | [w, x] => some [UInt8.ofNat (w * 4 + x / 16)]
  | [w, x, y] => some [UInt8.ofNat (w * 4 + x / 16), UInt8.ofNat (x % 16 * 16 + y / 4)]
  | w :: x :: y :: z :: rest => do
    let bs ← ofSextets rest
    return UInt8.ofNat (w * 4 + x / 16) :: UInt8.ofNat (x % 16 * 16 + y / 4) ::
      UInt8.ofNat (y % 4 * 64 + z) :: bs

/-- `btoa` of a binary string. -/
def btoa (bs : Bytes) : List Char :=
  (sextets bs).map base64Char ++ List.replicate ((3 - bs.length % 3) % 3) '='

def replaceAll (old new : Char) (s : List Char) : List Char :=
  s.map fun c => if c = old then new else c

def trimEnd (c : Char) (s : List Char) : List Char := (s.reverse.dropWhile (· = c)).reverse

def isAsciiSpace (c : Char) : Bool :=
  c = ' ' || c = '\t' || c = '\n' || c = '\r' || c.toNat = 12

/-- Up to two `=` at the end of a text of whole groups. -/
def unpad (s : List Char) : List Char :=
  if s.length % 4 = 0 then
    match s.reverse with
    | '=' :: '=' :: rest => rest.reverse
    | '=' :: rest => rest.reverse
    | _ => s
  else s

/-- `atob`: blanks are ignored, padding may be left out. -/
def atob (text : List Char) : Option Bytes := do
  let s := unpad (text.filter fun c => ¬ isAsciiSpace c)
  ofSextets (← s.mapM base64Value)

/-- Base64url without padding. -/
def base64Url (bs : Bytes) : List Char :=
  trimEnd '=' (replaceAll '/' '_' (replaceAll '+' '-' (btoa bs)))

def ofBase64Url (text : List Char) : Option Bytes :=
  atob (replaceAll '_' '/' (replaceAll '-' '+' text))

theorem sextets_lt (bs : Bytes) : ∀ n ∈ sextets bs, n < 64 := by
  induction bs using sextets.induct with
  | case1 =>
    intro n hn
    cases hn
  | case2 a =>
    have ha : a.toNat < 256 := a.toNat_lt
    intro n hn
    simp only [sextets, List.mem_cons, List.not_mem_nil, or_false] at hn
    omega
  | case3 a b =>
    have ha : a.toNat < 256 := a.toNat_lt
    have hb : b.toNat < 256 := b.toNat_lt
    intro n hn
    simp only [sextets, List.mem_cons, List.not_mem_nil, or_false] at hn
    omega
  | case4 a b c rest ih =>
    have ha : a.toNat < 256 := a.toNat_lt
    have hb : b.toNat < 256 := b.toNat_lt
    have hc : c.toNat < 256 := c.toNat_lt
    intro n hn
    simp only [sextets, List.mem_cons] at hn
    rcases hn with hn | hn | hn | hn | hn
    · omega
    · omega
    · omega
    · omega
    · exact ih n hn

theorem ofSextets_sextets (bs : Bytes) : ofSextets (sextets bs) = some bs := by
  induction bs using sextets.induct with
  | case1 => rfl
  | case2 a =>
    have ha : a.toNat < 256 := a.toNat_lt
    simp only [sextets, ofSextets]
    rw [ofNat_toNat_eq (show a.toNat / 4 * 4 + a.toNat % 4 * 16 / 16 = a.toNat by omega)]
  | case3 a b =>
    have ha : a.toNat < 256 := a.toNat_lt
    have hb : b.toNat < 256 := b.toNat_lt
    simp only [sextets, ofSextets]
    rw [ofNat_toNat_eq (show a.toNat / 4 * 4 + (a.toNat % 4 * 16 + b.toNat / 16) / 16 = a.toNat by
        omega),
      ofNat_toNat_eq (show (a.toNat % 4 * 16 + b.toNat / 16) % 16 * 16 + b.toNat % 16 * 4 / 4 =
        b.toNat by omega)]
  | case4 a b c rest ih =>
    have ha : a.toNat < 256 := a.toNat_lt
    have hb : b.toNat < 256 := b.toNat_lt
    have hc : c.toNat < 256 := c.toNat_lt
    simp only [sextets, ofSextets, ih, Option.bind_eq_bind, Option.bind_some, Option.pure_def]
    rw [ofNat_toNat_eq (show a.toNat / 4 * 4 + (a.toNat % 4 * 16 + b.toNat / 16) / 16 = a.toNat by
        omega),
      ofNat_toNat_eq (show (a.toNat % 4 * 16 + b.toNat / 16) % 16 * 16 +
        (b.toNat % 16 * 4 + c.toNat / 64) / 4 = b.toNat by omega),
      ofNat_toNat_eq (show (b.toNat % 16 * 4 + c.toNat / 64) % 4 * 64 + c.toNat % 64 = c.toNat by
        omega)]

/-- The characters of base64url. -/
def urlChar (n : Nat) : Char :=
  let c := base64Char n
  if c = '+' then '-' else if c = '/' then '_' else c

set_option maxRecDepth 8000 in
theorem urlChar_facts {n : Nat} (h : n < 64) : urlChar n ≠ '=' ∧ (urlChar n).toNat < 128 ∧
    (if (if base64Char n = '+' then '-' else base64Char n) = '/' then '_' else
      (if base64Char n = '+' then '-' else base64Char n)) = urlChar n ∧
    (if (if urlChar n = '-' then '+' else urlChar n) = '_' then '/' else
      (if urlChar n = '-' then '+' else urlChar n)) = base64Char n := by
  unfold urlChar base64Char
  rw [base64Alphabet_eq]
  revert n
  decide

theorem base64Alphabet_nodup : base64Alphabet.Nodup := by
  have hcodes : base64Alphabet.map Char.toNat =
      List.range' 65 26 ++ (List.range' 97 26 ++ (List.range' 48 10 ++ [43, 47])) := by
    rw [base64Alphabet_eq]
    rfl
  refine List.Nodup.of_map Char.toNat ?_
  rw [hcodes]
  refine List.nodup_append'.mpr ⟨List.nodup_range', List.nodup_append'.mpr ⟨List.nodup_range',
    List.nodup_append'.mpr ⟨List.nodup_range', by simp, ?_⟩, ?_⟩, ?_⟩
  all_goals
    intro code hcode hlater
    simp only [List.mem_append, List.mem_range'_1, List.mem_cons, List.not_mem_nil,
      or_false] at hcode hlater
    omega

set_option maxRecDepth 8000 in
theorem base64Char_facts {n : Nat} (h : n < 64) : base64Value (base64Char n) = some n ∧
    isAsciiSpace (base64Char n) = false ∧ base64Char n ≠ '=' := by
  have hlength : base64Alphabet.length = 64 := by
    rw [base64Alphabet_eq]
    rfl
  refine ⟨findIdx?_getD base64Alphabet_nodup (hlength ▸ h) _, ?_⟩
  unfold base64Char
  rw [base64Alphabet_eq]
  revert n
  decide

theorem trimEnd_padding {c : Char} {s : List Char} (hs : ∀ x ∈ s, x ≠ c) (k : Nat) :
    trimEnd c (s ++ List.replicate k c) = s := by
  have hdrop : ∀ t : List Char, (∀ x ∈ t, x ≠ c) →
      (List.replicate k c ++ t).dropWhile (· = c) = t := by
    intro t ht
    rw [List.dropWhile_append_of_pos (by simp)]
    cases t with
    | nil => rfl
    | cons x xs =>
      rw [List.dropWhile_cons_of_neg]
      simpa using ht x (List.mem_cons_self ..)
  have hrev : ∀ x ∈ s.reverse, x ≠ c := fun x hx => hs x (List.mem_reverse.mp hx)
  rw [trimEnd, List.reverse_append, List.reverse_replicate, hdrop _ hrev, List.reverse_reverse]

/-- The characters of a base64url text. -/
def isUrlChar (c : Char) : Bool :=
  'A' ≤ c && c ≤ 'Z' || 'a' ≤ c && c ≤ 'z' || '0' ≤ c && c ≤ '9' || c = '_' || c = '-'

set_option maxRecDepth 8000 in
theorem isUrlChar_urlChar {n : Nat} (h : n < 64) : isUrlChar (urlChar n) = true := by
  unfold urlChar base64Char
  rw [base64Alphabet_eq]
  revert n
  decide

theorem base64Url_eq (bs : Bytes) : base64Url bs = (sextets bs).map urlChar := by
  have hmap : replaceAll '/' '_' (replaceAll '+' '-' (btoa bs)) =
      (sextets bs).map urlChar ++ List.replicate ((3 - bs.length % 3) % 3) '=' := by
    simp only [replaceAll, btoa, List.map_append, List.map_map, List.map_replicate]
    congr 1
    apply List.map_congr_left
    intro n hn
    exact (urlChar_facts (sextets_lt bs n hn)).2.2.1
  rw [base64Url, hmap, trimEnd_padding]
  intro x hx
  obtain ⟨n, hn, rfl⟩ := List.mem_map.mp hx
  exact (urlChar_facts (sextets_lt bs n hn)).1

theorem base64Url_chars (bs : Bytes) : ∀ c ∈ base64Url bs, isUrlChar c = true := by
  intro c hc
  rw [base64Url_eq] at hc
  obtain ⟨n, hn, rfl⟩ := List.mem_map.mp hc
  exact isUrlChar_urlChar (sextets_lt bs n hn)

theorem mapM_base64Value {ns : List Nat} (h : ∀ n ∈ ns, n < 64) :
    (ns.map base64Char).mapM base64Value = some ns := by
  induction ns with
  | nil => rfl
  | cons n ns ih =>
    have hn := (base64Char_facts (h n (List.mem_cons_self ..))).1
    have hrest := ih fun m hm => h m (List.mem_cons_of_mem _ hm)
    rw [List.map_cons, List.mapM_cons, hn, hrest]
    rfl

theorem unpad_eq {s : List Char} (h : ∀ c ∈ s, c ≠ '=') : unpad s = s := by
  unfold unpad
  split
  · split
    · rename_i hrev
      exact absurd rfl (h '=' (List.mem_reverse.mp (hrev ▸ List.mem_cons_self ..)))
    · rename_i hrev
      exact absurd rfl (h '=' (List.mem_reverse.mp (hrev ▸ List.mem_cons_self ..)))
    · rfl
  · rfl

/-- Base64url is read back exactly. -/
theorem ofBase64Url_base64Url (bs : Bytes) : ofBase64Url (base64Url bs) = some bs := by
  have hlt := sextets_lt bs
  have hmap : replaceAll '_' '/' (replaceAll '-' '+' (base64Url bs)) =
      (sextets bs).map base64Char := by
    simp only [base64Url_eq, replaceAll, List.map_map]
    apply List.map_congr_left
    intro n hn
    exact (urlChar_facts (hlt n hn)).2.2.2
  have hfilter : ((sextets bs).map base64Char).filter (fun c => ¬ isAsciiSpace c) =
      (sextets bs).map base64Char := by
    rw [List.filter_eq_self]
    intro c hc
    obtain ⟨n, hn, rfl⟩ := List.mem_map.mp hc
    simp [(base64Char_facts (hlt n hn)).2.1]
  have hunpad : unpad ((sextets bs).map base64Char) = (sextets bs).map base64Char := by
    apply unpad_eq
    intro c hc
    obtain ⟨n, hn, rfl⟩ := List.mem_map.mp hc
    exact (base64Char_facts (hlt n hn)).2.2
  unfold ofBase64Url atob
  rw [hmap]
  simp only [hfilter, hunpad, mapM_base64Value hlt, Option.bind_eq_bind, Option.bind_some]
  exact ofSextets_sextets bs

/-! ## UTF-8 -/

/-- `TextEncoder.encode`. -/
def encodeUtf8 (s : List Char) : Bytes := s.flatMap String.utf8EncodeChar

/-- A character that is being read: its bits so far, how many bytes are missing, and the
range the next one must lie in. -/
structure Partial where
  point : Nat := 0
  missing : Nat := 0
  lower : Nat := 0x80
  upper : Nat := 0xBF
  deriving DecidableEq, Repr

def replacement : Char := Char.ofNat 0xFFFD

/-- The first byte of a character. -/
def utf8Start (b : Nat) : List Char × Partial :=
  if b ≤ 0x7F then ([Char.ofNat b], {})
  else if 0xC2 ≤ b ∧ b ≤ 0xDF then ([], { point := b % 32, missing := 1 })
  else if 0xE0 ≤ b ∧ b ≤ 0xEF then
    ([], { point := b % 16
           missing := 2
           lower := if b = 0xE0 then 0xA0 else 0x80
           upper := if b = 0xED then 0x9F else 0xBF })
  else if 0xF0 ≤ b ∧ b ≤ 0xF4 then
    ([], { point := b % 8
           missing := 3
           lower := if b = 0xF0 then 0x90 else 0x80
           upper := if b = 0xF4 then 0x8F else 0xBF })
  else ([replacement], {})

/-- A byte that does not continue a character ends it as a replacement and is read afresh. -/
def utf8Step (p : Partial) (b : Nat) : List Char × Partial :=
  if p.missing = 0 then utf8Start b
  else if p.lower ≤ b ∧ b ≤ p.upper then
    let point := p.point * 64 + b % 64
    if p.missing = 1 then ([Char.ofNat point], {})
    else ([], { point := point, missing := p.missing - 1 })
  else
    let r := utf8Start b
    (replacement :: r.1, r.2)

def utf8Read : Bytes → Partial → List Char
  | [], p => if p.missing = 0 then [] else [replacement]
  | b :: bs, p =>
    let r := utf8Step p b.toNat
    r.1 ++ utf8Read bs r.2

/-- `TextDecoder.decode`: a byte order mark is dropped, malformed bytes are replaced. -/
def decodeUtf8 : Bytes → List Char
  | 0xEF :: 0xBB :: 0xBF :: bs => utf8Read bs {}
  | bs => utf8Read bs {}

/-- A decoder that refuses malformed bytes: what it answers is written as these bytes. -/
def strictUtf8 (bs : Bytes) : Option (List Char) :=
  if encodeUtf8 (utf8Read bs {}) = bs then some (utf8Read bs {}) else none

theorem strictUtf8_eq_some {bs : Bytes} {s : List Char} (h : strictUtf8 bs = some s) :
    utf8Read bs {} = s ∧ encodeUtf8 s = bs := by
  unfold strictUtf8 at h
  split at h
  · rename_i hback
    cases h
    exact ⟨rfl, hback⟩
  · cases h

theorem encodeUtf8_ascii {s : List Char} (h : ∀ c ∈ s, c.toNat < 128) :
    encodeUtf8 s = s.map fun c => UInt8.ofNat c.toNat := by
  induction s with
  | nil => rfl
  | cons c cs ih =>
    have hc : c.toNat < 128 := h c (List.mem_cons_self ..)
    have hone : String.utf8EncodeChar c = [UInt8.ofNat c.toNat] := by
      simp only [String.utf8EncodeChar]
      exact if_pos (Nat.le_of_lt_succ hc)
    have hrest := ih fun x hx => h x (List.mem_cons_of_mem _ hx)
    change String.utf8EncodeChar c ++ encodeUtf8 cs = _
    rw [hone, hrest]
    rfl

theorem utf8Read_ascii {s : List Char} (h : ∀ c ∈ s, c.toNat < 128) :
    utf8Read (s.map fun c => UInt8.ofNat c.toNat) {} = s := by
  induction s with
  | nil => rfl
  | cons c cs ih =>
    have hc : c.toNat < 128 := h c (List.mem_cons_self ..)
    have hbyte : (UInt8.ofNat c.toNat).toNat = c.toNat := by
      rw [UInt8.toNat_ofNat']
      omega
    have hle : c.toNat ≤ 0x7F := Nat.le_of_lt_succ hc
    have hstep : utf8Step {} c.toNat = ([c], {}) := by
      simp only [utf8Step, utf8Start, if_true, if_pos hle, Char.ofNat_toNat]
    have hrest := ih fun x hx => h x (List.mem_cons_of_mem _ hx)
    simp only [List.map_cons, utf8Read, hbyte, hstep, hrest, List.singleton_append]

/-- ASCII text survives being written as UTF-8. -/
theorem decodeUtf8_ascii {s : List Char} (h : ∀ c ∈ s, c.toNat < 128) :
    decodeUtf8 (encodeUtf8 s) = s := by
  rw [encodeUtf8_ascii h]
  have hbom : decodeUtf8 (s.map fun c => UInt8.ofNat c.toNat) =
      utf8Read (s.map fun c => UInt8.ofNat c.toNat) {} := by
    unfold decodeUtf8
    split
    · rename_i heq
      cases s with
      | nil => cases heq
      | cons c cs =>
        have hc : c.toNat < 128 := h c (List.mem_cons_self ..)
        have hbyte : (UInt8.ofNat c.toNat).toNat = (0xEF : UInt8).toNat :=
          congrArg UInt8.toNat (List.cons.inj heq).1
        rw [UInt8.toNat_ofNat'] at hbyte
        change c.toNat % 256 = 239 at hbyte
        omega
    · rfl
  rw [hbom, utf8Read_ascii h]

end ChainPay.Lib
