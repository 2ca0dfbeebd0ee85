import ChainPay.Lib.Codec

/-!
Strict and lax readers of base64. `atob` drops the bits after the last whole byte; a strict
decoder wants them to be zero, so that each byte string has one text (`strictUrl_eq_some`,
`strictPadded_eq_some`). On texts of whole bytes the two differ on nothing else.
-/

namespace ChainPay.Lib

/-- The bits after the last whole byte. -/
def spareBits : List Nat → Nat
  | _ :: _ :: _ :: _ :: rest => spareBits rest
  | [_, x] => x % 16
  | [_, _, y] => y % 4
  | _ => 0

theorem spareBits_sextets (bs : Bytes) : spareBits (sextets bs) = 0 := by
  induction bs using sextets.induct with
  | case1 => rfl
  | case2 a =>
    change a.toNat % 4 * 16 % 16 = 0
    omega
  | case3 a b =>
    change b.toNat % 16 * 4 % 4 = 0
    omega
  | case4 a b c rest ih => exact ih

theorem ofSextets_eq_none {ns : List Nat} : ofSextets ns = none ↔ ns.length % 4 = 1 := by
  induction ns using ofSextets.induct with
  | case1 => simp [ofSextets]
  | case2 w => simp [ofSextets]
  | case3 w x => simp [ofSextets]
  | case4 w x y => simp [ofSextets]
  | case5 w x y z rest ih =>
    have hlen : (w :: x :: y :: z :: rest).length % 4 = rest.length % 4 := by
      simp only [List.length_cons]
      omega
    rw [hlen, ← ih]
    cases h : ofSextets rest with
    | none => simp [ofSextets, h]
    | some bs => simp [ofSextets, h]

/-- Bytes of which no bit was dropped give the groups back. -/
theorem sextets_of_ofSextets {ns : List Nat} {bs : Bytes} (hlt : ∀ n ∈ ns, n < 64)
    (h : ofSextets ns = some bs) (hspare : spareBits ns = 0) : sextets bs = ns := by
  induction ns using ofSextets.induct generalizing bs with
  | case1 =>
    cases h
    rfl
  | case2 w => cases h
  | case3 w x =>
    cases h
    have hw := hlt w (by simp)
    have hx := hlt x (by simp)
    change x % 16 = 0 at hspare
    simp only [sextets, UInt8.toNat_ofNat', List.cons.injEq, and_true]
    omega
  | case4 w x y =>
    cases h
    have hw := hlt w (by simp)
    have hx := hlt x (by simp)
    have hy := hlt y (by simp)
    change y % 4 = 0 at hspare
    simp only [sextets, UInt8.toNat_ofNat', List.cons.injEq, and_true]
    omega
  | case5 w x y z rest ih =>
    have hw := hlt w (by simp)
    have hx := hlt x (by simp)
    have hy := hlt y (by simp)
    have hz := hlt z (by simp)
    cases hrest : ofSextets rest with
    | none => simp [ofSextets, hrest] at h
    | some tail =>
      simp only [ofSextets, hrest, Option.bind_eq_bind, Option.bind_some, Option.pure_def,
        Option.some.injEq] at h
      subst h
      have htail := ih (fun n hn => hlt n (by simp [hn])) hrest hspare
      simp only [sextets, UInt8.toNat_ofNat', htail, List.cons.injEq, and_true]
      omega

/-! ## Base64url without padding -/

def urlValue (c : Char) : Option Nat := (List.range 64).find? fun n => urlChar n = c

theorem urlValue_urlChar {n : Nat} (h : n < 64) : urlValue (urlChar n) = some n := by
  have hinj : ∀ m, m < 64 → urlChar m = urlChar n → m = n := by
    intro m hm heq
    have hchar : base64Char m = base64Char n := by
      rw [← (urlChar_facts hm).2.2.2, ← (urlChar_facts h).2.2.2, heq]
    have hvalue := (base64Char_facts hm).1
    rw [hchar, (base64Char_facts h).1] at hvalue
    exact (Option.some.inj hvalue).symm
  rw [urlValue, List.find?_range_eq_some]
  refine ⟨decide_eq_true rfl, List.mem_range.mpr h, fun m hm => ?_⟩
  rw [Bool.not_eq_true', decide_eq_false_iff_not]
  intro heq
  have hsame := hinj m (by omega) heq
  omega

theorem urlValue_eq_some {c : Char} {n : Nat} (h : urlValue c = some n) :
    n < 64 ∧ urlChar n = c :=
  ⟨List.mem_range.mp (List.mem_of_find?_eq_some h),
    of_decide_eq_true (List.find?_some (p := fun n => urlChar n = c) h)⟩

set_option maxRecDepth 8000 in
theorem isUrlChar_ascii {n : Nat} (h : n < 128) :
    isUrlChar (Char.ofNat n) = true → (urlValue (Char.ofNat n)).isSome := by
  unfold urlValue urlChar base64Char
  rw [base64Alphabet_eq]
  revert n
  decide

theorem isUrlChar_iff {c : Char} : isUrlChar c = true ↔ ∃ n < 64, c = urlChar n := by
  constructor
  · intro h
    have hc : c.toNat < 128 := by
      simp only [isUrlChar, Bool.or_eq_true, Bool.and_eq_true, decide_eq_true_eq] at h
      rcases h with (((⟨-, h⟩ | ⟨-, h⟩) | ⟨-, h⟩) | rfl) | rfl
      · exact Nat.lt_of_le_of_lt (show c.toNat ≤ 90 from h) (by decide)
      · exact Nat.lt_of_le_of_lt (show c.toNat ≤ 122 from h) (by decide)
      · exact Nat.lt_of_le_of_lt (show c.toNat ≤ 57 from h) (by decide)
      · decide
      · decide
    have hsome := isUrlChar_ascii hc
    rw [Char.ofNat_toNat] at hsome
    obtain ⟨n, hn⟩ := Option.isSome_iff_exists.mp (hsome h)
    exact ⟨n, (urlValue_eq_some hn).1, (urlValue_eq_some hn).2.symm⟩
  · rintro ⟨n, hn, rfl⟩
    exact isUrlChar_urlChar hn

/-- A text of base64url is one of groups of six bits. -/
theorem all_isUrlChar_iff {s : List Char} : s.all isUrlChar = true ↔
    ∃ ns : List Nat, (∀ n ∈ ns, n < 64) ∧ s = ns.map urlChar := by
  constructor
  · intro h
    induction s with
    | nil => exact ⟨[], fun _ hn => (List.not_mem_nil hn).elim, rfl⟩
    | cons c s ih =>
      rw [List.all_cons, Bool.and_eq_true] at h
      obtain ⟨n, hn, rfl⟩ := isUrlChar_iff.mp h.1
      obtain ⟨ns, hns, rfl⟩ := ih h.2
      exact ⟨n :: ns, List.forall_mem_cons.mpr ⟨hn, hns⟩, rfl⟩
  · rintro ⟨ns, hns, rfl⟩
    rw [List.all_eq_true]
    intro c hc
    obtain ⟨n, hn, rfl⟩ := List.mem_map.mp hc
    exact isUrlChar_urlChar (hns n hn)

theorem urlChar_injective {ns ms : List Nat} (hns : ∀ n ∈ ns, n < 64) (hms : ∀ n ∈ ms, n < 64)
    (h : ns.map urlChar = ms.map urlChar) : ns = ms := by
  induction ns generalizing ms with
  | nil => exact (List.map_eq_nil_iff.mp h.symm).symm
  | cons n ns ih =>
    cases ms with
    | nil => cases h
    | cons m ms =>
      rw [List.forall_mem_cons] at hns hms
      have hhead := congrArg urlValue (List.cons.inj h).1
      rw [urlValue_urlChar hns.1, urlValue_urlChar hms.1] at hhead
      rw [Option.some.inj hhead, ih hns.2 hms.2 (List.cons.inj h).2]

theorem mapM_urlValue {ns : List Nat} (h : ∀ n ∈ ns, n < 64) :
    (ns.map urlChar).mapM urlValue = some ns := by
  induction ns with
  | nil => rfl
  | cons n ns ih =>
    rw [List.forall_mem_cons] at h
    rw [List.map_cons, List.mapM_cons, urlValue_urlChar h.1, ih h.2]
    rfl

theorem mapM_urlValue_eq_some {s : List Char} {ns : List Nat} (h : s.mapM urlValue = some ns) :
    (∀ n ∈ ns, n < 64) ∧ s = ns.map urlChar := by
  induction s generalizing ns with
  | nil =>
    cases h
    exact ⟨fun _ hn => (List.not_mem_nil hn).elim, rfl⟩
  | cons c s ih =>
    rw [List.mapM_cons, Option.bind_eq_bind, Option.bind_eq_some_iff] at h
    obtain ⟨n, hn, h⟩ := h
    rw [Option.bind_eq_bind, Option.bind_eq_some_iff] at h
    obtain ⟨ms, hms, hns⟩ := h
    cases hns
    obtain ⟨hlt, rfl⟩ := ih hms
    obtain ⟨hn64, rfl⟩ := urlValue_eq_some hn
    exact ⟨List.forall_mem_cons.mpr ⟨hn64, hlt⟩, rfl⟩

/-- A strict decoder of base64url without padding. -/
def strictUrl (s : List Char) : Option Bytes := do
  let ns ← s.mapM urlValue
  if spareBits ns = 0 then ofSextets ns else none

/-- **One text for each byte string.** -/
theorem strictUrl_eq_some {s : List Char} {bs : Bytes} :
    strictUrl s = some bs ↔ s = (sextets bs).map urlChar := by
  constructor
  · intro h
    rw [strictUrl, Option.bind_eq_bind, Option.bind_eq_some_iff] at h
    obtain ⟨ns, hns, h⟩ := h
    split at h
    · rename_i hspare
      obtain ⟨hlt, rfl⟩ := mapM_urlValue_eq_some hns
      rw [sextets_of_ofSextets hlt h hspare]
    · cases h
  · rintro rfl
    rw [strictUrl, mapM_urlValue (sextets_lt bs)]
    change (if spareBits (sextets bs) = 0 then ofSextets (sextets bs) else none) = _
    rw [if_pos (spareBits_sextets bs), ofSextets_sextets]

theorem strictUrl_map {ns : List Nat} (hlt : ∀ n ∈ ns, n < 64) :
    strictUrl (ns.map urlChar) = if spareBits ns = 0 then ofSextets ns else none := by
  rw [strictUrl, mapM_urlValue hlt]
  rfl

/-- Whole bytes out of groups of six bits, whatever is left over. -/
def looseSextets : List Nat → Bytes
  | [] | [_] => []
  | [w, x] => [UInt8.ofNat (w * 4 + x / 16)]
  | [w, x, y] => [UInt8.ofNat (w * 4 + x / 16), UInt8.ofNat (x % 16 * 16 + y / 4)]
  | w :: x :: y :: z :: rest =>
    UInt8.ofNat (w * 4 + x / 16) :: UInt8.ofNat (x % 16 * 16 + y / 4) ::
      UInt8.ofNat (y % 4 * 64 + z) :: looseSextets rest

theorem looseSextets_of_ofSextets {ns : List Nat} {bs : Bytes} (h : ofSextets ns = some bs) :
    looseSextets ns = bs := by
  induction ns using ofSextets.induct generalizing bs with
  | case1 =>
    cases h
    rfl
  | case2 w => cases h
  | case3 w x =>
    cases h
    rfl
  | case4 w x y =>
    cases h
    rfl
  | case5 w x y z rest ih =>
    rw [ofSextets, Option.bind_eq_bind, Option.bind_eq_some_iff] at h
    obtain ⟨tail, htail, heq⟩ := h
    cases heq
    rw [looseSextets, ih htail]

/-- What a strict decoder reads, a loose one reads too. -/
theorem looseSextets_of_strictUrl {s : List Char} {bs : Bytes} (h : strictUrl s = some bs) :
    ∃ ns, s.mapM urlValue = some ns ∧ looseSextets ns = bs := by
  rw [strictUrl, Option.bind_eq_bind, Option.bind_eq_some_iff] at h
  obtain ⟨ns, hns, h⟩ := h
  split at h
  · exact ⟨ns, hns, looseSextets_of_ofSextets h⟩
  · cases h

/-! ## Padded base64 -/

/-- What is missing to a group of four. -/
def padding (n : Nat) : List Char := List.replicate ((4 - n % 4) % 4) '='

theorem atob_padded {ns : List Nat} (hlt : ∀ n ∈ ns, n < 64) (hlen : ns.length % 4 ≠ 1) :
    atob (ns.map base64Char ++ padding ns.length) = ofSextets ns := by
  have hchars : ∀ c ∈ ns.map base64Char, isAsciiSpace c = false ∧ c ≠ '=' := by
    intro c hc
    obtain ⟨n, hn, rfl⟩ := List.mem_map.mp hc
    exact (base64Char_facts (hlt n hn)).2
  have hfilter : (ns.map base64Char ++ padding ns.length).filter (fun c => ¬ isAsciiSpace c) =
      ns.map base64Char ++ padding ns.length := by
    rw [List.filter_eq_self]
    intro c hc
    rcases List.mem_append.mp hc with hc | hc
    · simp [(hchars c hc).1]
    · rw [List.eq_of_mem_replicate hc]
      decide
  have hunpad : unpad (ns.map base64Char ++ padding ns.length) = ns.map base64Char := by
    have hcount : (4 - ns.length % 4) % 4 = 0 ∨ (4 - ns.length % 4) % 4 = 1 ∨
        (4 - ns.length % 4) % 4 = 2 := by omega
    have hwhole : (ns.map base64Char ++ padding ns.length).length % 4 = 0 := by
      simp only [padding, List.length_append, List.length_map, List.length_replicate]
      omega
    unfold unpad
    rw [if_pos hwhole]
    unfold padding
    rcases hcount with hk | hk | hk
    · rw [hk, List.replicate_zero, List.append_nil]
      have hself := unpad_eq fun c hc => (hchars c hc).2
      unfold unpad at hself
      rwa [if_pos (by rw [List.length_map]; omega)] at hself
    · rw [hk]
      have hlast : ∀ c ∈ (ns.map base64Char).reverse, c ≠ '=' := fun c hc =>
        (hchars c (List.mem_reverse.mp hc)).2
      have hone : (List.replicate 1 '=').reverse ++ (ns.map base64Char).reverse =
          '=' :: (ns.map base64Char).reverse := rfl
      rw [List.reverse_append, hone]
      split
      · rename_i rest heq
        exact absurd rfl (hlast '=' ((List.cons.inj heq).2 ▸ List.mem_cons_self ..))
      · rename_i rest _ heq
        rw [← (List.cons.inj heq).2, List.reverse_reverse]
      · rename_i hno
        exact absurd rfl (hno _)
    · rw [hk, List.reverse_append]
      change (ns.map base64Char).reverse.reverse = _
      rw [List.reverse_reverse]
  unfold atob
  simp only [hfilter, hunpad, mapM_base64Value hlt, Option.bind_eq_bind, Option.bind_some]

theorem sextets_length (bs : Bytes) : (sextets bs).length = (4 * bs.length + 2) / 3 := by
  induction bs using sextets.induct with
  | case1 => rfl
  | case2 a => simp [sextets]
  | case3 a b => simp [sextets]
  | case4 a b c rest ih =>
    rw [sextets]
    simp only [List.length_cons, ih]
    omega

/-- What `btoa` writes is read back. -/
theorem atob_btoa (bs : Bytes) : atob (btoa bs) = some bs := by
  have hpad : List.replicate ((3 - bs.length % 3) % 3) '=' = padding (sextets bs).length := by
    have hrest : bs.length % 3 = 0 ∨ bs.length % 3 = 1 ∨ bs.length % 3 = 2 := by omega
    have hcount : (3 - bs.length % 3) % 3 = (4 - (4 * bs.length + 2) / 3 % 4) % 4 := by
      rcases hrest with hrest | hrest | hrest
      · rw [hrest]
        omega
      · rw [hrest]
        omega
      · rw [hrest]
        omega
    rw [padding, sextets_length, hcount]
  rw [btoa, hpad, atob_padded (sextets_lt bs) (by rw [sextets_length]; omega), ofSextets_sextets]

set_option maxRecDepth 8000 in
theorem base64Char_ascii {n : Nat} (h : n < 64) :
    isAsciiSpace (base64Char n) = false ∧ (base64Char n).toNat < 128 := by
  unfold base64Char
  rw [base64Alphabet_eq]
  revert n
  decide

/-- What `btoa` writes has no white space. -/
theorem btoa_chars (bs : Bytes) : ∀ c ∈ btoa bs, isAsciiSpace c = false ∧ c.toNat < 128 := by
  intro c hc
  rcases List.mem_append.mp hc with hc | hc
  · obtain ⟨n, hn, rfl⟩ := List.mem_map.mp hc
    exact base64Char_ascii (sextets_lt bs n hn)
  · rw [List.eq_of_mem_replicate hc]
    decide

end ChainPay.Lib
