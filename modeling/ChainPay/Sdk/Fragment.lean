import Mathlib.Data.List.TakeWhile
import ChainPay.Sdk.Commitment

/-!
A well-formed bundle survives the link: `decodeDisclosureFragment` gives back what
`encodeDisclosureFragment` wrote. The text is ASCII, so base64url and UTF-8 keep it, and the JSON
parser and the checks accept it field by field.
-/

namespace ChainPay.Sdk
open ChainPay.Lib ChainPay.Card

/-! ## Text -/

/-- Only ASCII characters. -/
def IsAscii (s : Text) : Prop := ∀ c ∈ s, c.toNat < 128

instance (s : Text) : Decidable (IsAscii s) :=
  List.decidableBAll (fun c : Char => c.toNat < 128) s

theorem IsAscii.nil : IsAscii [] := fun _ h => nomatch h

theorem IsAscii.cons {c : Char} {s : Text} (hc : c.toNat < 128) (hs : IsAscii s) :
    IsAscii (c :: s) := by
  intro d hd
  rcases List.mem_cons.mp hd with rfl | hd
  · exact hc
  · exact hs d hd

theorem IsAscii.append {s t : Text} (hs : IsAscii s) (ht : IsAscii t) : IsAscii (s ++ t) := by
  intro d hd
  rcases List.mem_append.mp hd with hd | hd
  · exact hs d hd
  · exact ht d hd

theorem IsAscii.flatMap {α : Type} {xs : List α} {f : α → Text} (h : ∀ x ∈ xs, IsAscii (f x)) :
    IsAscii (xs.flatMap f) := by
  intro d hd
  obtain ⟨x, hx, hd⟩ := List.mem_flatMap.mp hd
  exact h x hx d hd

theorem shortEscape_ascii {c e : Char} (h : shortEscape c = some e) : e.toNat < 128 := by
  unfold shortEscape at h
  repeat' split at h
  all_goals first
    | cases h
      decide
    | cases h

theorem quoteChar_ascii {c : Char} (h : c.toNat < 128) : IsAscii (quoteChar c) := by
  unfold quoteChar
  split
  · rename_i e he
    exact .cons (by decide) (.cons (shortEscape_ascii he) .nil)
  · split
    · have hhigh : c.toNat / 16 < 16 := by omega
      have hlow : c.toNat % 16 < 16 := by omega
      exact .cons (by decide) (.cons (by decide) (.cons (by decide) (.cons (by decide)
        (.cons (hexDigit_ascii hhigh) (.cons (hexDigit_ascii hlow) .nil)))))
    · exact .cons h .nil

theorem quoteText_ascii {s : Text} (h : IsAscii s) : IsAscii (quoteText s) := by
  refine .cons (by decide) (.append (.flatMap fun c hc => ?_) (.cons (by decide) .nil))
  exact quoteChar_ascii (h c hc)

theorem decimal_ascii (n : Nat) : IsAscii (decimal n) :=
  fun c hc => digit_ascii (decimal_digits n c hc)

theorem arrayText_ascii {ts : List Text} (h : ∀ t ∈ ts, IsAscii t) : IsAscii (arrayText ts) := by
  cases ts with
  | nil => exact .cons (by decide) (.cons (by decide) .nil)
  | cons t ts =>
    have hhead := h t (List.mem_cons_self ..)
    refine .cons (by decide)
      (.append (.append hhead (.flatMap fun u hu => ?_)) (.cons (by decide) .nil))
    exact .cons (by decide) (h u (List.mem_cons_of_mem _ hu))

theorem memberText_ascii {m : Text × Text} (hname : IsAscii m.1) (hvalue : IsAscii m.2) :
    IsAscii (memberText m) :=
  (quoteText_ascii hname).append (.cons (by decide) hvalue)

theorem objectText_ascii {ms : List (Text × Text)} (h : ∀ m ∈ ms, IsAscii m.1 ∧ IsAscii m.2) :
    IsAscii (objectText ms) := by
  cases ms with
  | nil => exact .cons (by decide) (.cons (by decide) .nil)
  | cons m ms =>
    obtain ⟨hname, hvalue⟩ := h m (List.mem_cons_self ..)
    have hhead := memberText_ascii hname hvalue
    refine .cons (by decide)
      (.append (.append hhead (.flatMap fun n hn => ?_)) (.cons (by decide) .nil))
    obtain ⟨hname, hvalue⟩ := h n (List.mem_cons_of_mem _ hn)
    exact .cons (by decide) (memberText_ascii hname hvalue)

/-! ## Well-formed bundles -/

/-- What `buildDisclosureBundle` guarantees of a leaf. -/
structure LeafFormed (leaf : DisclosedLeaf) : Prop where
  index : leaf.i < COMMITMENT_LEAF_COUNT
  value : ∃ bs, leaf.value = toHex bs
  salt : ∃ bs : Bytes, bs.length = 32 ∧ leaf.leafSalt = toHex bs
  proof : ∃ nodes : List Bytes, nodes.length = 4 ∧ (∀ node ∈ nodes, node.length = 32) ∧
    leaf.proof = nodes.map toHex

/-- A bundle that the strict parse accepts. -/
structure Formed [PublicKey] (bundle : DisclosureBundle) : Prop where
  key : ∃ bs, PublicKey.ofText bundle.binding = some bs
  ascii : IsAscii bundle.binding
  seq : ∃ seq < 10 ^ 20, bundle.commitmentSeq = decimal seq
  nonempty : bundle.leaves ≠ []
  distinct : (bundle.leaves.map DisclosedLeaf.i).Nodup
  leaf : ∀ leaf ∈ bundle.leaves, LeafFormed leaf

theorem leafText_ascii {leaf : DisclosedLeaf} (h : LeafFormed leaf) : IsAscii (leafText leaf) := by
  obtain ⟨value, hvalue⟩ := h.value
  obtain ⟨salt, -, hsalt⟩ := h.salt
  obtain ⟨nodes, -, -, hproof⟩ := h.proof
  refine objectText_ascii fun m hm => ?_
  have hnodes : IsAscii (arrayText (leaf.proof.map quoteText)) := by
    refine arrayText_ascii fun t ht => ?_
    rw [hproof, List.map_map] at ht
    obtain ⟨node, -, rfl⟩ := List.mem_map.mp ht
    exact quoteText_ascii (toHex_ascii node)
  simp only [List.mem_cons, List.not_mem_nil, or_false] at hm
  rcases hm with rfl | rfl | rfl | rfl
  · exact ⟨show IsAscii "i".toList by decide, decimal_ascii _⟩
  · exact ⟨show IsAscii "value".toList by decide, hvalue ▸ quoteText_ascii (toHex_ascii value)⟩
  · exact ⟨show IsAscii "leafSalt".toList by decide, hsalt ▸ quoteText_ascii (toHex_ascii salt)⟩
  · exact ⟨show IsAscii "proof".toList by decide, hnodes⟩

/-! ## The record -/

def leafJson (leaf : DisclosedLeaf) : Json :=
  .obj [("i".toList, .num (nearestDouble leaf.i)), ("value".toList, .str leaf.value),
    ("leafSalt".toList, .str leaf.leafSalt), ("proof".toList, .arr (leaf.proof.map .str))]

def bundleJson (bundle : DisclosureBundle) : Json :=
  .obj [("v".toList, .num (nearestDouble (1 : Nat))), ("binding".toList, .str bundle.binding),
    ("commitmentSeq".toList, .str bundle.commitmentSeq),
    ("leaves".toList, .arr (bundle.leaves.map leafJson))]

theorem parses_map {α : Type} {xs : List α} {text : α → Text} {json : α → Json}
    (h : ∀ x ∈ xs, Parses (text x) (json x)) :
    List.Forall₂ Parses (xs.map text) (xs.map json) := by
  induction xs with
  | nil => exact .nil
  | cons x xs ih =>
    refine .cons (h x (List.mem_cons_self ..)) (ih fun y hy => ?_)
    exact h y (List.mem_cons_of_mem _ hy)

theorem parses_leaf (leaf : DisclosedLeaf) : Parses (leafText leaf) (leafJson leaf) := by
  have hproof : Parses (arrayText (leaf.proof.map quoteText)) (.arr (leaf.proof.map .str)) :=
    parses_array (parses_map fun t _ => parses_quote t)
  refine parses_object ?_
  exact .cons ⟨rfl, parses_decimal _⟩ (.cons ⟨rfl, parses_quote _⟩
    (.cons ⟨rfl, parses_quote _⟩ (.cons ⟨rfl, hproof⟩ .nil)))

theorem parses_bundle (bundle : DisclosureBundle) :
    Parses (bundleText bundle) (bundleJson bundle) := by
  have hleaves : Parses (arrayText (bundle.leaves.map leafText))
      (.arr (bundle.leaves.map leafJson)) :=
    parses_array (parses_map fun leaf _ => parses_leaf leaf)
  have hv : Parses (decimal 1) (.num (nearestDouble (1 : Nat))) := parses_decimal 1
  refine parses_object ?_
  exact .cons ⟨rfl, hv⟩ (.cons ⟨rfl, parses_quote _⟩
    (.cons ⟨rfl, parses_quote _⟩ (.cons ⟨rfl, hleaves⟩ .nil)))

/-! ## The checks -/

theorem mapM_ok {α β ε : Type} {f : α → Except ε β} {g : α → β} {xs : List α}
    (h : ∀ x ∈ xs, f x = .ok (g x)) : xs.mapM f = .ok (xs.map g) := by
  induction xs with
  | nil => rfl
  | cons x xs ih =>
    have hrest := ih fun y hy => h y (List.mem_cons_of_mem _ hy)
    rw [List.mapM_cons, h x (List.mem_cons_self ..), hrest]
    rfl

theorem hexToBytes_toHex (bs : Bytes) : hexToBytes (toHex bs) = .ok bs := by
  rw [hexToBytes, ofHex_toHex]

theorem fieldIndex_decimal {i : Nat} (h : i < COMMITMENT_LEAF_COUNT) :
    fieldIndex (some (.num (nearestDouble i))) = some i := by
  revert i
  decide +kernel

theorem proofNode_toHex {node : Bytes} (h : node.length = 32) :
    proofNode (.str (toHex node)) = .ok (toHex node) := by
  rw [proofNode, hexToBytes_toHex]
  change (if node.length ≠ 32 then .error "A field's proof has the wrong shape"
    else Except.ok (toHex node)) = _
  rw [if_neg (fun hne => hne h)]

theorem decodeLeaf_json {leaf : DisclosedLeaf} {seen : List Nat} (h : LeafFormed leaf)
    (hnew : leaf.i ∉ seen) : decodeLeaf seen (leafJson leaf) = .ok leaf := by
  obtain ⟨value, hvalue⟩ := h.value
  obtain ⟨salt, hlen, hsalt⟩ := h.salt
  obtain ⟨nodes, hcount, hnodes, hproof⟩ := h.proof
  have hi : fieldIndex ((leafJson leaf).get "i".toList) = some leaf.i := fieldIndex_decimal h.index
  have hv : hexField ((leafJson leaf).get "value".toList) = .ok (leaf.value, value) := by
    change hexField (some (.str leaf.value)) = _
    rw [hvalue, hexField, hexToBytes_toHex]
    rfl
  have hs : hexField ((leafJson leaf).get "leafSalt".toList) = .ok (leaf.leafSalt, salt) := by
    change hexField (some (.str leaf.leafSalt)) = _
    rw [hsalt, hexField, hexToBytes_toHex]
    rfl
  have hp : (leaf.proof.map Json.str).mapM proofNode = .ok leaf.proof := by
    rw [hproof, List.map_map, List.mapM_map]
    exact mapM_ok fun node hnode => proofNode_toHex (hnodes node hnode)
  have hfour : ¬ (leaf.proof.map Json.str).length ≠ 4 := by
    rw [hproof]
    simpa using hcount
  have harr : (leafJson leaf).get "proof".toList = some (.arr (leaf.proof.map Json.str)) := rfl
  have hfalsy : isFalsy (leafJson leaf) = false := rfl
  simp only [decodeLeaf, hfalsy, hi, hv, hs, harr, hp, hfour, hnew, if_false]
  change (if salt.length ≠ 32 then .error "A field's salt has the wrong length"
    else Except.ok leaf) = _
  rw [if_neg (fun hne => hne hlen)]

/-- The leaves pass one after another, their indices being distinct. -/
theorem decodeLeaves_json {leaves : List DisclosedLeaf} {seen : List Nat}
    (h : ∀ leaf ∈ leaves, LeafFormed leaf) (hdistinct : (leaves.map DisclosedLeaf.i).Nodup)
    (hnew : ∀ leaf ∈ leaves, leaf.i ∉ seen) :
    decodeLeaves seen (leaves.map leafJson) = .ok leaves := by
  induction leaves generalizing seen with
  | nil => rfl
  | cons leaf leaves ih =>
    rw [List.map_cons, List.nodup_cons] at hdistinct
    obtain ⟨hout, hrest⟩ := hdistinct
    have hleaf := decodeLeaf_json (h leaf (List.mem_cons_self ..))
      (hnew leaf (List.mem_cons_self ..))
    have hfresh : ∀ l ∈ leaves, l.i ∉ leaf.i :: seen := by
      intro l hl hmem
      rcases List.mem_cons.mp hmem with heq | hmem
      · exact hout (List.mem_map.mpr ⟨l, hl, heq⟩)
      · exact hnew l (List.mem_cons_of_mem _ hl) hmem
    have hmore := ih (fun l hl => h l (List.mem_cons_of_mem _ hl)) hrest hfresh
    rw [List.map_cons, decodeLeaves, hleaf]
    change (decodeLeaves (leaf.i :: seen) (leaves.map leafJson) >>= fun ls => pure (leaf :: ls)) = _
    rw [hmore]
    rfl

theorem isSeq_decimal {seq : Nat} (h : seq < 10 ^ 20) : isSeq (decimal seq) = true := by
  rw [isSeq, Bool.or_eq_true]
  by_cases hzero : decimal seq = ['0']
  · exact .inl (decide_eq_true hzero)
  · have hdigits : (decimal seq).all isDecimalDigit = true :=
      List.all_eq_true.mpr (decimal_digits seq)
    have hhead : (decimal seq).head? ≠ some '0' := fun hh => hzero (decimal_head hh)
    have hlen : (decimal seq).length ≤ 20 := decimal_length (by decide) h
    refine .inr ?_
    simp only [hdigits, Bool.true_and, Bool.and_eq_true, decide_eq_true_eq]
    exact ⟨⟨decimal_ne_nil seq, hhead⟩, hlen⟩

section

variable [PublicKey]

theorem Formed.length_le {bundle : DisclosureBundle} (h : Formed bundle) :
    bundle.leaves.length ≤ COMMITMENT_LEAF_COUNT := by
  have hsub : (bundle.leaves.map DisclosedLeaf.i) ⊆ List.range COMMITMENT_LEAF_COUNT := by
    intro i hi
    obtain ⟨leaf, hleaf, rfl⟩ := List.mem_map.mp hi
    exact List.mem_range.mpr (h.leaf leaf hleaf).index
  have hle := (List.subperm_of_subset h.distinct hsub).length_le
  rwa [List.length_map, List.length_range] at hle

theorem decodeRecord_json {bundle : DisclosureBundle} (h : Formed bundle) :
    decodeRecord (bundleJson bundle) = .ok bundle := by
  obtain ⟨bs, hkey⟩ := h.key
  obtain ⟨seq, hlt, hseq⟩ := h.seq
  have hnull : isNull (bundleJson bundle) = false := rfl
  have hone : isOne ((bundleJson bundle).get "v".toList) = true := by
    change isOne (some (.num (nearestDouble (1 : Nat)))) = true
    decide +kernel
  have hbinding : (bundleJson bundle).get "binding".toList = some (.str bundle.binding) := rfl
  have hcommit : (bundleJson bundle).get "commitmentSeq".toList =
      some (.str bundle.commitmentSeq) := rfl
  have hleaves : (bundleJson bundle).get "leaves".toList =
      some (.arr (bundle.leaves.map leafJson)) := rfl
  have hpublic : publicKey bundle.binding = .ok bs := by
    rw [publicKey, hkey]
  have hnumber : isSeq bundle.commitmentSeq = true := by
    rw [hseq]
    exact isSeq_decimal hlt
  have hcount : ¬ ((bundle.leaves.map leafJson).length = 0 ∨
      COMMITMENT_LEAF_COUNT < (bundle.leaves.map leafJson).length) := by
    rw [List.length_map]
    rintro (hzero | hmany)
    · exact h.nonempty (List.length_eq_zero_iff.mp hzero)
    · exact absurd h.length_le (Nat.not_le.mpr hmany)
  have hdecoded : decodeLeaves [] (bundle.leaves.map leafJson) = .ok bundle.leaves :=
    decodeLeaves_json h.leaf h.distinct fun _ _ hmem => nomatch hmem
  simp only [decodeRecord, hnull, hone, hbinding, hpublic, hcommit, hnumber, hleaves, hcount,
    hdecoded, Bool.not_true, if_false]
  rfl

/-! ## The link -/

omit [PublicKey] in
theorem disclosureParam_encoded {value : Text} (hne : value ≠ [])
    (hurl : ∀ c ∈ value, isUrlChar c = true) :
    disclosureParam (DISCLOSURE_PARAM ++ ['='] ++ value) = some value := by
  have hwhile : value.takeWhile isUrlChar = value := List.takeWhile_eq_self_iff.mpr hurl
  have hstart : paramAt (DISCLOSURE_PARAM ++ ['='] ++ value) = some value := by
    have hpre : (DISCLOSURE_PARAM ++ ['=']).isPrefixOf (DISCLOSURE_PARAM ++ ['='] ++ value) =
        true := List.isPrefixOf_iff_prefix.mpr (List.prefix_append ..)
    simp only [paramAt, hpre, if_true, List.drop_left, hwhile, hne, if_false]
  change (paramAt (DISCLOSURE_PARAM ++ ['='] ++ value)).or _ = some value
  rw [hstart]
  rfl

omit [PublicKey] in
theorem base64Url_ne_nil {bs : Bytes} (h : bs ≠ []) : base64Url bs ≠ [] := by
  intro hnil
  have hback := ofBase64Url_base64Url bs
  rw [hnil] at hback
  exact h (Option.some.inj hback).symm

/-- **A well-formed bundle survives the link.** -/
theorem decode_encode {bundle : DisclosureBundle} (h : Formed bundle) :
    decodeDisclosureFragment (encodeDisclosureFragment bundle) = .ok bundle := by
  have hascii : IsAscii (bundleText bundle) := by
    obtain ⟨seq, -, hseq⟩ := h.seq
    have hleaves : IsAscii (arrayText (bundle.leaves.map leafText)) := by
      refine arrayText_ascii fun t ht => ?_
      obtain ⟨leaf, hleaf, rfl⟩ := List.mem_map.mp ht
      exact leafText_ascii (h.leaf leaf hleaf)
    refine objectText_ascii fun m hm => ?_
    simp only [List.mem_cons, List.not_mem_nil, or_false] at hm
    rcases hm with rfl | rfl | rfl | rfl
    · exact ⟨show IsAscii "v".toList by decide, decimal_ascii 1⟩
    · exact ⟨show IsAscii "binding".toList by decide, quoteText_ascii h.ascii⟩
    · exact ⟨show IsAscii "commitmentSeq".toList by decide,
        hseq ▸ quoteText_ascii (decimal_ascii seq)⟩
    · exact ⟨show IsAscii "leaves".toList by decide, hleaves⟩
  have hbytes : encodeUtf8 (bundleText bundle) ≠ [] := by
    rw [encodeUtf8_ascii hascii]
    exact fun hnil => nomatch hnil
  have hparam := disclosureParam_encoded (base64Url_ne_nil hbytes)
    (base64Url_chars (encodeUtf8 (bundleText bundle)))
  have hread : (ofBase64Url (base64Url (encodeUtf8 (bundleText bundle)))).bind
      (fun bs => jsonParse (decodeUtf8 bs)) = some (bundleJson bundle) := by
    rw [ofBase64Url_base64Url, Option.bind_some, decodeUtf8_ascii hascii,
      (parses_bundle bundle).document]
  simp only [encodeDisclosureFragment, decodeDisclosureFragment, hparam, hread]
  exact decodeRecord_json h

end

end ChainPay.Sdk
