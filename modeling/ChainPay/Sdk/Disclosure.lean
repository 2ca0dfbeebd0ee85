import ChainPay.Sdk.Root

/-!
Selective disclosure end to end. A bundle built from the decoded accounts survives the link and
verifies against a commitment of the program's root; a bundle that verifies discloses the card's
own leaf values (`disclosure_agrees`).
-/

namespace ChainPay.Sdk
open ChainPay.Lib ChainPay.Card

attribute [local irreducible] sha256

section

variable [PublicKey] {p : CardPolicy} {x y : Spare} {q : CardPeriod} {salt : Hash}

/-! ## Building -/

/-- The picked indices, once each and in order. -/
def picked (indices : List Rat) : List Nat :=
  (indices.eraseDups.mergeSort fun a b => a - b ≤ 0).map fun i => i.num.toNat

/-- What the owner discloses of one leaf. -/
def builtLeaf (p : CardPolicy) (q : CardPeriod) (salt : Hash) (i : Nat) : DisclosedLeaf where
  i := i
  value := toHex ((leafValues p q).getD i [])
  leafSalt := toHex (Hash.bytes (Card.leafSalt salt i))
  proof := (Merkle.siblings nodeHash (leafAt p q salt) 4 0 i).map toHex

omit [PublicKey] in
theorem nodup_eraseDups {α : Type} [DecidableEq α] (xs : List α) : xs.eraseDups.Nodup := by
  induction hn : xs.length using Nat.strong_induction_on generalizing xs with
  | _ n ih =>
    cases xs with
    | nil => exact List.nodup_nil
    | cons a as =>
      subst hn
      have hlen : (as.filter fun b => !b == a).length < (a :: as).length :=
        Nat.lt_succ_of_le (List.length_filter_le _ _)
      rw [List.eraseDups_cons, List.nodup_cons]
      refine ⟨fun hmem => ?_, ih _ hlen _ rfl⟩
      have hfilter := List.mem_eraseDups.mp hmem
      simp at hfilter

omit [PublicKey] in
theorem isField_num {i : Rat} (h : isField i = true) :
    i = (i.num.toNat : Rat) ∧ i.num.toNat < COMMITMENT_LEAF_COUNT := by
  simp only [isField, Bool.and_eq_true, decide_eq_true_eq] at h
  obtain ⟨⟨hden, hlow⟩, hhigh⟩ := h
  have hnum : (i.num : Rat) = i := Rat.den_eq_one_iff i |>.mp hden
  have hpos : 0 ≤ i.num := Rat.num_nonneg.mpr hlow
  have hnat : ((i.num.toNat : Int) : Rat) = i := by
    rw [Int.toNat_of_nonneg hpos, hnum]
  refine ⟨hnat.symm, ?_⟩
  rw [← hnat] at hhigh
  exact_mod_cast hhigh

omit [PublicKey] in
theorem mem_picked {indices : List Rat} {j : Nat} :
    j ∈ picked indices ↔ ∃ i ∈ indices, i.num.toNat = j := by
  simp [picked, List.mem_mergeSort, List.mem_eraseDups]

omit [PublicKey] in
theorem nodup_picked {indices : List Rat} (h : ∀ i ∈ indices, isField i = true) :
    (picked indices).Nodup := by
  refine List.Nodup.map_on ?_ ?_
  · intro a ha b hb hab
    have hfield : ∀ i ∈ indices.eraseDups.mergeSort fun a b => decide (a - b ≤ 0),
        isField i = true := fun i hi => h i (List.mem_eraseDups.mp (List.mem_mergeSort.mp hi))
    rw [(isField_num (hfield a ha)).1, (isField_num (hfield b hb)).1, hab]
  · exact (List.mergeSort_perm _ _).nodup_iff.mpr (nodup_eraseDups indices)

omit [PublicKey] in
theorem tower_sibling (p : CardPolicy) (q : CardPeriod) (salt : Hash) {d i : Nat} (hd : d < 4) (hi : i < 2 ^ (4 - d)) :
    ((Merkle.tower nodeHash 4 ((leafHashes p q salt).map Hash.bytes)).getD d []).getD (i ^^^ 1) [] =
      Merkle.level nodeHash (leafAt p q salt) d (i ^^^ 1) := by
  have hlen : ((leafHashes p q salt).map Hash.bytes).length = 2 ^ 4 := by
    rw [List.length_map, leafHashes_length]
    rfl
  have hone : 1 < 2 ^ (4 - d) := Nat.one_lt_two_pow (by omega)
  exact Merkle.tower_getD [] hlen (by omega) (Nat.xor_lt_two_pow hi hone)

omit [PublicKey] in
theorem proofOf_levels (node : Bytes → Bytes → Bytes) (leaves : List Bytes) (i : Nat) :
    let tree := Merkle.tower node 4 leaves
    proofOf tree i =
      [toHex ((tree.getD 0 []).getD (i ^^^ 1) []), toHex ((tree.getD 1 []).getD (i / 2 ^^^ 1) []),
       toHex ((tree.getD 2 []).getD (i / 2 / 2 ^^^ 1) []),
       toHex ((tree.getD 3 []).getD (i / 2 / 2 / 2 ^^^ 1) [])] := rfl

omit [PublicKey] in
/-- The proof of a leaf is its siblings in the tree. -/
theorem proofOf_tower {i : Nat} (h : i < COMMITMENT_LEAF_COUNT) :
    proofOf (Merkle.tower nodeHash 4 ((leafHashes p q salt).map Hash.bytes)) i =
      (Merkle.siblings nodeHash (leafAt p q salt) 4 0 i).map toHex := by
  have hi : i < 16 := h
  have h0 := tower_sibling p q salt (d := 0) (i := i) (by decide) hi
  have h1 := tower_sibling p q salt (d := 1) (i := i / 2) (by decide) (by omega)
  have h2 := tower_sibling p q salt (d := 2) (i := i / 2 / 2) (by decide) (by omega)
  have h3 := tower_sibling p q salt (d := 3) (i := i / 2 / 2 / 2) (by decide) (by omega)
  rw [proofOf_levels, h0, h1, h2, h3]
  rfl

/-- The salts of the leaves. -/
def leafSalts (p : CardPolicy) (q : CardPeriod) (salt : Hash) : List Bytes :=
  (leafValues p q).mapIdx fun i _ => Hash.bytes (Card.leafSalt salt i)

omit [PublicKey] in
theorem leafSalts_ok :
    ((leafValues p q).zipIdx.mapM fun (_, i) => leafSalt (Hash.bytes salt) i) =
      .ok (leafSalts p q salt) := by
  rw [leafSalts, List.mapIdx_eq_zipIdx_map]
  exact mapM_ok fun (_, i) _ => leafSalt_bytes salt i

omit [PublicKey] in
theorem leafSalts_getD {i : Nat} (h : i < COMMITMENT_LEAF_COUNT) :
    (leafSalts p q salt).getD i [] = Hash.bytes (Card.leafSalt salt i) := by
  have hlen : i < (leafValues p q).length := h
  rw [leafSalts, List.getD_eq_getElem?_getD, List.getElem?_mapIdx, List.getElem?_eq_getElem hlen,
    Option.map_some, Option.getD_some]

omit [PublicKey] in
theorem leaves_salted :
    ((leafValues p q).mapIdx fun i value => leafHash i ((leafSalts p q salt).getD i []) value) =
      (leafHashes p q salt).map Hash.bytes := by
  refine List.ext_getElem? fun i => ?_
  rw [List.getElem?_mapIdx, List.getElem?_map, leafHashes, List.getElem?_mapIdx]
  by_cases hi : i < COMMITMENT_LEAF_COUNT
  · rw [leafSalts_getD hi, Option.map_map]
    congr 1
    funext value
    exact leafHash_bytes i _ value
  · have hlen : (leafValues p q).length ≤ i := Nat.not_lt.mp hi
    rw [List.getElem?_eq_none hlen]
    rfl

theorem build_decoded {indices : List Rat} {seq : Nat} (h : Address p.binding)
    (hsome : indices ≠ []) (hfields : ∀ i ∈ indices, isField i = true) :
    buildDisclosureBundle
        ⟨decodedPolicy p x, decodedPeriod q y, Hash.bytes salt, seq, indices⟩ =
      .ok ⟨PublicKey.toBase58 (Hash.bytes p.binding), decimal seq,
        (picked indices).map (builtLeaf p q salt)⟩ := by
  have hsorted : ∀ i ∈ indices.eraseDups.mergeSort fun a b => decide (a - b ≤ 0), isField i = true :=
    fun i hi => hfields i (List.mem_eraseDups.mp (List.mem_mergeSort.mp hi))
  have hlen : ¬ (indices.eraseDups.mergeSort fun a b => decide (a - b ≤ 0)).length = 0 := by
    obtain ⟨i, hi⟩ := List.exists_mem_of_ne_nil _ hsome
    have hmem : i ∈ indices.eraseDups.mergeSort fun a b => decide (a - b ≤ 0) :=
      List.mem_mergeSort.mpr (List.mem_eraseDups.mpr hi)
    exact fun hzero => absurd hmem (by rw [List.length_eq_zero_iff.mp hzero]; exact List.not_mem_nil)
  have hknown : ¬ ((indices.eraseDups.mergeSort fun a b => decide (a - b ≤ 0)).any
      fun i => !isField i) = true := by
    rw [List.any_eq_true]
    rintro ⟨i, hi, hout⟩
    rw [hsorted i hi] at hout
    exact Bool.false_ne_true hout
  have hleaf : ∀ i ∈ indices.eraseDups.mergeSort (fun a b => decide (a - b ≤ 0)),
      (⟨i.num.toNat, toHex ((leafValues p q).getD i.num.toNat []),
        toHex ((leafSalts p q salt).getD i.num.toNat []),
        proofOf (Merkle.tower nodeHash 4 ((leafHashes p q salt).map Hash.bytes)) i.num.toNat⟩ :
        DisclosedLeaf) = builtLeaf p q salt i.num.toNat := by
    intro i hi
    obtain ⟨-, hlt⟩ := isField_num (hsorted i hi)
    rw [leafSalts_getD hlt, proofOf_tower hlt]
    rfl
  have hbinding : publicKey (decodedPolicy p x).binding = .ok (Hash.bytes p.binding) :=
    publicKey_ok h
  simp only [buildDisclosureBundle, hlen, hknown, if_false, commitmentLeafValues_decoded h, ok_bind,
    leafSalts_ok, leaves_salted, levels_ok, hbinding]
  rw [List.map_congr_left hleaf, picked, List.map_map]
  rfl

theorem build_fields {input : DisclosureInput} {bundle : DisclosureBundle}
    (h : buildDisclosureBundle input = .ok bundle) :
    input.indices ≠ [] ∧ ∀ i ∈ input.indices, isField i = true := by
  unfold buildDisclosureBundle at h
  simp only at h
  split at h
  · cases h
  · rename_i hlen
    split at h
    · cases h
    · rename_i hknown
      refine ⟨fun hnil => hlen (by simp [hnil]), fun i hi => ?_⟩
      have hmem : i ∈ input.indices.eraseDups.mergeSort fun a b => decide (a - b ≤ 0) :=
        List.mem_mergeSort.mpr (List.mem_eraseDups.mpr hi)
      by_contra hout
      refine hknown (List.any_eq_true.mpr ⟨i, hmem, ?_⟩)
      rw [Bool.not_eq_true] at hout
      rw [hout]
      rfl

/-! ## Honest bundles -/

omit [PublicKey] in
theorem leafAt_length {i : Nat} (h : i < COMMITMENT_LEAF_COUNT) :
    (leafAt p q salt i).length = 32 := by
  rw [leafAt_eq h]
  exact sha256_length _

omit [PublicKey] in
theorem level_length {d i : Nat} (h : d = 0 → i < COMMITMENT_LEAF_COUNT) :
    (Merkle.level nodeHash (leafAt p q salt) d i).length = 32 := by
  cases d with
  | zero => exact leafAt_length (h rfl)
  | succ d => exact sha256_length _

omit [PublicKey] in
theorem sibling_lt {i : Nat} (h : i < COMMITMENT_LEAF_COUNT) : i ^^^ 1 < COMMITMENT_LEAF_COUNT :=
  Nat.xor_lt_two_pow (n := 4) h (by decide)

omit [PublicKey] in
theorem siblings_formed {n d i : Nat} (h : d = 0 → i < COMMITMENT_LEAF_COUNT) :
    (Merkle.siblings nodeHash (leafAt p q salt) n d i).length = n ∧
      ∀ node ∈ Merkle.siblings nodeHash (leafAt p q salt) n d i, node.length = 32 := by
  induction n generalizing d i with
  | zero => exact ⟨rfl, fun _ hnode => nomatch hnode⟩
  | succ n ih =>
    obtain ⟨hlen, hnodes⟩ := ih (d := d + 1) (i := i / 2) (fun hd => nomatch hd)
    refine ⟨congrArg (· + 1) hlen, fun node hnode => ?_⟩
    rcases List.mem_cons.mp hnode with rfl | hnode
    · exact level_length fun hd => sibling_lt (h hd)
    · exact hnodes node hnode

omit [PublicKey] in
theorem builtLeaf_formed {i : Nat} (h : i < COMMITMENT_LEAF_COUNT) :
    LeafFormed (builtLeaf p q salt i) := by
  have hsiblings : (Merkle.siblings nodeHash (leafAt p q salt) 4 0 i).length = 4 ∧
      ∀ node ∈ Merkle.siblings nodeHash (leafAt p q salt) 4 0 i, node.length = 32 :=
    siblings_formed fun _ => h
  obtain ⟨hlen, hnodes⟩ := hsiblings
  exact ⟨h, ⟨_, rfl⟩, ⟨_, hash_length _, rfl⟩, ⟨_, hlen, hnodes, rfl⟩⟩

omit [PublicKey] in
theorem mapM_hex (nodes : List Bytes) : (nodes.map toHex).mapM hexToBytes = .ok nodes := by
  have h : nodes.mapM (fun node => hexToBytes (toHex node)) = .ok (nodes.map id) :=
    mapM_ok fun node _ => hexToBytes_toHex node
  rw [List.mapM_map]
  rwa [List.map_id] at h

omit [PublicKey] in
/-- The honest path leads to the program's root. -/
theorem recompute_built {i : Nat} (h : i < COMMITMENT_LEAF_COUNT) :
    recomputeDisclosedRoot (builtLeaf p q salt i) =
      .ok (Hash.bytes (Card.commitmentRoot p q salt)) := by
  have hclimb : Merkle.climb nodeHash i (leafAt p q salt i)
      (Merkle.siblings nodeHash (leafAt p q salt) 4 0 i) =
        Merkle.level nodeHash (leafAt p q salt) 4 0 := Merkle.climb_root h
  rw [level_root, leafAt_eq h] at hclimb
  simp only [recomputeDisclosedRoot, builtLeaf, hexToBytes_toHex, mapM_hex, ok_bind, hclimb]
  rfl

theorem bundle_formed {indices : List Rat} {seq : Nat} (hkey : Address p.binding)
    (hseq : seq < 2 ^ 64) (hsome : indices ≠ []) (hfields : ∀ i ∈ indices, isField i = true) :
    Formed ⟨PublicKey.toBase58 (Hash.bytes p.binding), decimal seq,
      (picked indices).map (builtLeaf p q salt)⟩ where
  key := ⟨_, hkey.reads⟩
  ascii := hkey.ascii
  seq := ⟨seq, Nat.lt_of_lt_of_le hseq (by decide), rfl⟩
  nonempty := by
    obtain ⟨i, hi⟩ := List.exists_mem_of_ne_nil _ hsome
    exact List.ne_nil_of_mem (List.mem_map_of_mem (mem_picked.mpr ⟨i, hi, rfl⟩))
  distinct := by
    rw [List.map_map]
    exact (List.map_id (picked indices)).symm ▸ nodup_picked hfields
  leaf := by
    intro leaf hleaf
    obtain ⟨j, hj, rfl⟩ := List.mem_map.mp hleaf
    obtain ⟨i, hi, rfl⟩ := mem_picked.mp hj
    exact builtLeaf_formed (isField_num (hfields i hi)).2

/-- **An honest bundle verifies.** -/
theorem verify_built {js : List Nat} {c : CardCommitment} {bump : UInt8} (hkey : Address p.binding)
    (hroot : c.root = Card.commitmentRoot p q salt) (hjs : ∀ j ∈ js, j < COMMITMENT_LEAF_COUNT) :
    verifyDisclosureBundle ⟨PublicKey.toBase58 (Hash.bytes p.binding), decimal c.seq,
        js.map (builtLeaf p q salt)⟩ (decodedCommitment c p.binding bump) =
      .ok (.verified (decimal c.seq) (toHex (Hash.bytes c.root)) (decimal c.writtenSlot)
        (js.map fun j => (j, true))) := by
  have hdescribed : ((js.map (builtLeaf p q salt)).mapM fun leaf => do
      let _ ← hexToBytes leaf.value
      return (leaf.i, false) : Except String (List LeafCheck)) =
        .ok ((js.map (builtLeaf p q salt)).map fun leaf => (leaf.i, false)) := by
    refine mapM_ok fun leaf hleaf => ?_
    obtain ⟨j, -, rfl⟩ := List.mem_map.mp hleaf
    rw [builtLeaf, hexToBytes_toHex]
    rfl
  have hbinding : publicKey (decodedCommitment c p.binding bump).binding =
      .ok (Hash.bytes p.binding) := publicKey_ok hkey
  have hfirst : ((js.map (builtLeaf p q salt)).find? fun leaf => leaf.i = 0).any
      (fun leaf => leaf.value ≠ toHex (Hash.bytes p.binding)) = false := by
    cases hfind : (js.map (builtLeaf p q salt)).find? fun leaf => leaf.i = 0 with
    | none => rfl
    | some leaf =>
      obtain ⟨j, -, rfl⟩ := List.mem_map.mp (List.mem_of_find?_eq_some hfind)
      have hfound := List.find?_some hfind
      have hzero : j = 0 := of_decide_eq_true hfound
      subst hzero
      exact decide_eq_false fun hne => hne rfl
  have hchecked : ((js.map (builtLeaf p q salt)).mapM fun leaf => do
      return (leaf.i, decide (toHex (← recomputeDisclosedRoot leaf) =
        toHex (decodedCommitment c p.binding bump).root)) : Except String (List LeafCheck)) =
        .ok (js.map fun j => (j, true)) := by
    rw [List.mapM_map]
    refine mapM_ok fun j hj => ?_
    rw [Function.comp_apply, recompute_built (hjs j hj), ok_bind, ← hroot]
    exact congrArg (fun b => Except.ok (j, b)) (decide_eq_true rfl)
  have hall : ((js.map fun j => (j, true)) : List LeafCheck).all (fun leaf => leaf.2) = true := by
    simp
  simp only [verifyDisclosureBundle, hdescribed, ok_bind, hbinding, publicKey_ok hkey, hfirst,
    hchecked, hall, ne_eq, not_true_eq_false, if_false, if_true, Bool.false_eq_true]
  rw [if_neg (fun hne => hne rfl)]
  rfl

/-! ## Soundness -/

/-- What a leaf hashes. -/
def leafPreimage (i : Nat) (salt value : Bytes) : Bytes :=
  LEAF_DOMAIN ++ [UInt8.ofNat i] ++ salt ++ value

/-- What a node hashes. -/
def nodePreimage (l r : Bytes) : Bytes := [1] ++ l ++ r

/-- SHA-256 tells the two strings apart. -/
def NoCollision (a b : Bytes) : Prop := sha256 a = sha256 b → a = b

/-- No node recomputed on the way up from `acc` collides with the tree's own node there. -/
def PathClear (leaves : Nat → Bytes) : Nat → Nat → Bytes → List Bytes → Prop
  | _, _, _, [] => True
  | d, i, acc, s :: ss =>
    let l := if i % 2 = 0 then acc else s
    let r := if i % 2 = 0 then s else acc
    NoCollision (nodePreimage l r)
      (nodePreimage (Merkle.level nodeHash leaves d (2 * (i / 2)))
        (Merkle.level nodeHash leaves d (2 * (i / 2) + 1))) ∧
    PathClear leaves (d + 1) (i / 2) (nodeHash l r) ss

/-- Recomputing the leaf's path meets no SHA-256 collision with the card's own tree. -/
def Collisionless (p : CardPolicy) (q : CardPeriod) (salt : Hash) (leaf : DisclosedLeaf) : Prop :=
  ∀ s v nodes, hexToBytes leaf.leafSalt = .ok s → hexToBytes leaf.value = .ok v →
    leaf.proof.mapM hexToBytes = .ok nodes →
    NoCollision (leafPreimage leaf.i s v)
      (leafPreimage leaf.i (Hash.bytes (Card.leafSalt salt leaf.i))
        ((leafValues p q).getD leaf.i [])) ∧
    PathClear (leafAt p q salt) 0 leaf.i (leafHash leaf.i s v) nodes

/-- What the strict parse guarantees of a leaf. -/
structure LeafChecked (leaf : DisclosedLeaf) : Prop where
  index : leaf.i < COMMITMENT_LEAF_COUNT
  salt : ∀ s, ofHex leaf.leafSalt = some s → s.length = 32
  count : leaf.proof.length = 4
  proof : ∀ t ∈ leaf.proof, ∀ node, ofHex t = some node → node.length = 32

omit [PublicKey] in
theorem nodePreimage_inj {l r l' r' : Bytes} (hl : l.length = l'.length)
    (h : nodePreimage l r = nodePreimage l' r') : l = l' ∧ r = r' := by
  rw [nodePreimage, nodePreimage, List.append_assoc, List.append_assoc] at h
  exact List.append_inj (List.append_cancel_left h) hl

omit [PublicKey] in
theorem clear_of_pathClear {ss : List Bytes} {d i : Nat} {acc : Bytes}
    (hacc : acc.length = 32) (hss : ∀ s ∈ ss, s.length = 32)
    (hi : d = 0 → i < COMMITMENT_LEAF_COUNT) (h : PathClear (leafAt p q salt) d i acc ss) :
    Merkle.Clear nodeHash (leafAt p q salt) d i acc ss := by
  induction ss generalizing d i acc with
  | nil => trivial
  | cons s ss ih =>
    obtain ⟨hnode, hrest⟩ := h
    have hs : s.length = 32 := hss s (List.mem_cons_self ..)
    refine ⟨fun heq => ?_, ih (sha256_length _) (fun t ht => hss t (List.mem_cons_of_mem _ ht))
      (fun hd => nomatch hd) hrest⟩
    refine nodePreimage_inj ?_ (hnode heq)
    have hlevel : (Merkle.level nodeHash (leafAt p q salt) d (2 * (i / 2))).length = 32 := by
      refine level_length fun hd => ?_
      have hlt : i < 16 := hi hd
      change 2 * (i / 2) < 16
      omega
    rw [hlevel]
    split
    · exact hacc
    · exact hs

omit [PublicKey] in
theorem hexToBytes_ok {t : Text} {bs : Bytes} : hexToBytes t = .ok bs ↔ ofHex t = some bs := by
  rw [hexToBytes]
  cases ofHex t with
  | none => simp
  | some cs => simp

omit [PublicKey] in
theorem hexField_ok {v : Option Json} {t : Text} {bs : Bytes} (h : hexField v = .ok (t, bs)) :
    ofHex t = some bs := by
  unfold hexField at h
  split at h
  · simp only [bind_eq_ok, pure_eq_ok, Prod.mk.injEq] at h
    obtain ⟨cs, hcs, rfl, rfl⟩ := h
    exact hexToBytes_ok.mp hcs
  · cases h

omit [PublicKey] in
theorem proofNode_ok {v : Json} {t : Text} (h : proofNode v = .ok t) :
    ∃ node : Bytes, ofHex t = some node ∧ node.length = 32 := by
  unfold proofNode at h
  split at h
  · rename_i s
    rw [bind_eq_ok] at h
    obtain ⟨node, hnode, hif⟩ := h
    split at hif
    · cases hif
    · rename_i hlen
      rw [pure_eq_ok] at hif
      subst hif
      exact ⟨node, hexToBytes_ok.mp hnode, not_not.mp hlen⟩
  · cases h

omit [PublicKey] in
theorem mapM_mem {α β ε : Type} {f : α → Except ε β} {xs : List α} {ys : List β}
    (h : xs.mapM f = .ok ys) :
    ys.length = xs.length ∧ (∀ y ∈ ys, ∃ x ∈ xs, f x = .ok y) ∧
      ∀ x ∈ xs, ∃ y ∈ ys, f x = .ok y := by
  induction xs generalizing ys with
  | nil =>
    cases h
    exact ⟨rfl, fun _ hy => (nomatch hy), fun _ hx => nomatch hx⟩
  | cons x xs ih =>
    simp only [List.mapM_cons, bind_eq_ok, pure_eq_ok] at h
    obtain ⟨y, hy, zs, hzs, rfl⟩ := h
    obtain ⟨hlen, hback, hforth⟩ := ih hzs
    refine ⟨congrArg (· + 1) hlen, fun z hz => ?_, fun w hw => ?_⟩
    · rcases List.mem_cons.mp hz with rfl | hz
      · exact ⟨x, List.mem_cons_self .., hy⟩
      · obtain ⟨w, hw, hwz⟩ := hback z hz
        exact ⟨w, List.mem_cons_of_mem _ hw, hwz⟩
    · rcases List.mem_cons.mp hw with rfl | hw
      · exact ⟨y, List.mem_cons_self .., hy⟩
      · obtain ⟨z, hz, hwz⟩ := hforth w hw
        exact ⟨z, List.mem_cons_of_mem _ hz, hwz⟩

omit [PublicKey] in
theorem fieldIndex_lt {v : Option Json} {i : Nat} (h : fieldIndex v = some i) :
    i < COMMITMENT_LEAF_COUNT := by
  unfold fieldIndex at h
  split at h
  · split at h
    · rename_i hfield
      cases h
      exact (isField_num hfield).2
    · cases h
  · cases h

omit [PublicKey] in
theorem decodeLeaf_ok {seen : List Nat} {v : Json} {leaf : DisclosedLeaf}
    (h : decodeLeaf seen v = .ok leaf) : LeafChecked leaf := by
  unfold decodeLeaf at h
  split at h
  · cases h
  split at h
  · cases h
  rename_i i hindex
  split at h
  · cases h
  simp only [bind_eq_ok] at h
  obtain ⟨⟨value, bs⟩, -, ⟨salt, saltBytes⟩, hsalt, h⟩ := h
  split at h
  · cases h
  rename_i hlen
  split at h
  · rename_i nodes hnodes
    split at h
    · cases h
    rename_i hcount
    simp only [bind_eq_ok, pure_eq_ok] at h
    obtain ⟨proof, hproof, rfl⟩ := h
    obtain ⟨hproofLen, hback, -⟩ := mapM_mem hproof
    refine ⟨fieldIndex_lt hindex, fun s hs => ?_, ?_, fun t ht node hnode => ?_⟩
    · cases hs.symm.trans (hexField_ok hsalt)
      exact not_not.mp hlen
    · exact hproofLen.trans (not_not.mp hcount)
    · obtain ⟨v, -, hv⟩ := hback t ht
      obtain ⟨bytes, hbytes, hlong⟩ := proofNode_ok hv
      cases hnode.symm.trans hbytes
      exact hlong
  · cases h

omit [PublicKey] in
theorem decodeLeaves_ok {seen : List Nat} {vs : List Json} {leaves : List DisclosedLeaf}
    (h : decodeLeaves seen vs = .ok leaves) : ∀ leaf ∈ leaves, LeafChecked leaf := by
  induction vs generalizing seen leaves with
  | nil =>
    cases h
    exact fun _ hleaf => nomatch hleaf
  | cons v vs ih =>
    simp only [decodeLeaves, bind_eq_ok, pure_eq_ok] at h
    obtain ⟨first, hfirst, rest, hrest, rfl⟩ := h
    intro leaf hleaf
    rcases List.mem_cons.mp hleaf with rfl | hleaf
    · exact decodeLeaf_ok hfirst
    · exact ih hrest leaf hleaf

theorem decodeRecord_ok {raw : Json} {bundle : DisclosureBundle}
    (h : decodeRecord raw = .ok bundle) : ∀ leaf ∈ bundle.leaves, LeafChecked leaf := by
  unfold decodeRecord at h
  split at h
  · cases h
  split at h
  · cases h
  split at h
  · rw [bind_eq_ok] at h
    obtain ⟨key, -, h⟩ := h
    split at h
    · split at h
      · cases h
      split at h
      · split at h
        · cases h
        · simp only [bind_eq_ok, pure_eq_ok] at h
          obtain ⟨leaves, hleaves, rfl⟩ := h
          exact decodeLeaves_ok hleaves
      · cases h
    · cases h
  · cases h

theorem decodeFragment_ok {fragment : Text} {bundle : DisclosureBundle}
    (h : decodeDisclosureFragment fragment = .ok bundle) :
    ∀ leaf ∈ bundle.leaves, LeafChecked leaf := by
  unfold decodeDisclosureFragment at h
  split at h
  · cases h
  split at h
  · cases h
  · exact decodeRecord_ok h

omit [PublicKey] in
/-- A leaf whose path leads to the card's root discloses the card's value. -/
theorem recompute_sound {leaf : DisclosedLeaf} (hleaf : LeafChecked leaf)
    (hclear : Collisionless p q salt leaf)
    (h : recomputeDisclosedRoot leaf = .ok (Hash.bytes (Card.commitmentRoot p q salt))) :
    ofHex leaf.value = (leafValues p q)[leaf.i]? := by
  simp only [recomputeDisclosedRoot, bind_eq_ok, pure_eq_ok] at h
  obtain ⟨s, hs, v, hv, nodes, hnodes, hclimb⟩ := h
  obtain ⟨hleafClear, hpath⟩ := hclear s v nodes hs hv hnodes
  obtain ⟨hcount, hback, -⟩ := mapM_mem hnodes
  have hlong : ∀ node ∈ nodes, node.length = 32 := by
    intro node hnode
    obtain ⟨t, ht, hhex⟩ := hback node hnode
    exact hleaf.proof t ht node (hexToBytes_ok.mp hhex)
  -- the path starts at the card's own leaf hash, which fixes the value
  have hstart : leafHash leaf.i s v = leafAt p q salt leaf.i := by
    have hwide := clear_of_pathClear (sha256_length _) hlong (fun _ => hleaf.index) hpath
    refine Merkle.root_sound hwide (hcount.trans hleaf.count) hleaf.index ?_
    rw [hclimb, level_root]
  rw [leafAt_eq hleaf.index] at hstart
  have hpre := hleafClear hstart
  have hsalt : s.length = (Hash.bytes (Card.leafSalt salt leaf.i)).length := by
    rw [hleaf.salt s (hexToBytes_ok.mp hs), hash_length]
  simp only [leafPreimage, List.append_assoc] at hpre
  have hrest := List.append_cancel_left (List.append_cancel_left hpre)
  have hvalue : v = (leafValues p q).getD leaf.i [] := (List.append_inj hrest hsalt).2
  have hlen : leaf.i < (leafValues p q).length := hleaf.index
  rw [hexToBytes_ok.mp hv, hvalue, List.getD_eq_getElem?_getD, List.getElem?_eq_getElem hlen,
    Option.getD_some]

/-- A verified bundle's paths all lead to the commitment's root. -/
theorem verified_paths {bundle : DisclosureBundle} {commitment : Commitment} {seq root slot : Text}
    {leaves : List LeafCheck}
    (h : verifyDisclosureBundle bundle commitment = .ok (.verified seq root slot leaves)) :
    ∀ leaf ∈ bundle.leaves, recomputeDisclosedRoot leaf = .ok commitment.root := by
  simp only [verifyDisclosureBundle, bind_eq_ok] at h
  obtain ⟨described, -, card, -, named, -, h⟩ := h
  split at h
  · cases h
  split at h
  · cases h
  split at h
  · cases h
  rw [bind_eq_ok] at h
  obtain ⟨checked, hchecked, h⟩ := h
  split at h
  · rename_i hall
    intro leaf hleaf
    obtain ⟨-, -, hforth⟩ := mapM_mem hchecked
    obtain ⟨check, hmem, hcheck⟩ := hforth leaf hleaf
    rw [bind_eq_ok] at hcheck
    obtain ⟨r, hr, hcheck⟩ := hcheck
    rw [pure_eq_ok] at hcheck
    have hok := List.all_eq_true.mp hall check hmem
    rw [← hcheck] at hok
    rw [hr, toHex_injective (of_decide_eq_true hok)]
  · cases h

/-! ## End to end -/

/-- **Commitment and disclosure agree.** For every policy and period account of the program, with
any salt, the SDK's root of the decoded accounts is the program's. Against a commitment of that
root, every bundle the owner builds survives the link and verifies, and whatever bundle verifies
discloses the card's own leaf values, as long as recomputing its paths meets no SHA-256 collision
with the card's tree. -/
theorem disclosure_agrees (hp : Held p x) (hq : HeldPeriod q) (hkey : Address p.binding) :
    ∃ policy period, decodeCardPolicy (policyData p x) = .ok policy ∧
      decodeCardPeriod (periodData q y) = .ok period ∧
      commitmentRoot policy period (Hash.bytes salt) =
        .ok (Hash.bytes (Card.commitmentRoot p q salt)) ∧
      ∀ (c : CardCommitment) (bump : UInt8), HeldCommitment c →
        c.root = Card.commitmentRoot p q salt →
        ∃ commitment, decodeCardCommitment (commitmentData c p.binding bump) = .ok commitment ∧
          (∀ indices : List Rat, indices ≠ [] → (∀ i ∈ indices, isField i = true) →
            ∃ bundle, buildDisclosureBundle
              ⟨policy, period, Hash.bytes salt, c.seq, indices⟩ = .ok bundle) ∧
          (∀ (indices : List Rat) (bundle : DisclosureBundle), buildDisclosureBundle
              ⟨policy, period, Hash.bytes salt, c.seq, indices⟩ = .ok bundle →
            decodeDisclosureFragment (encodeDisclosureFragment bundle) = .ok bundle ∧
            ∃ leaves, verifyDisclosureBundle bundle commitment =
              .ok (.verified (decimal c.seq) (toHex (Hash.bytes c.root)) (decimal c.writtenSlot)
                leaves)) ∧
          ∀ (fragment : Text) (bundle : DisclosureBundle) (seq root slot : Text)
            (leaves : List LeafCheck), decodeDisclosureFragment fragment = .ok bundle →
            verifyDisclosureBundle bundle commitment = .ok (.verified seq root slot leaves) →
            (∀ leaf ∈ bundle.leaves, Collisionless p q salt leaf) →
            ∀ leaf ∈ bundle.leaves, ofHex leaf.value = (leafValues p q)[leaf.i]? := by
  refine ⟨_, _, decodeCardPolicy_data hp, decodeCardPeriod_data hq, commitmentRoot_decoded hkey,
    fun c bump hc hroot => ⟨_, decodeCardCommitment_data hc, ?_, ?_, ?_⟩⟩
  · intro indices hsome hfields
    exact ⟨_, build_decoded hkey hsome hfields⟩
  · intro indices bundle hbuild
    obtain ⟨hsome, hfields⟩ := build_fields hbuild
    rw [build_decoded hkey hsome hfields] at hbuild
    cases hbuild
    refine ⟨decode_encode (bundle_formed hkey hc.seq hsome hfields), _, verify_built hkey hroot ?_⟩
    intro j hj
    obtain ⟨i, hi, rfl⟩ := mem_picked.mp hj
    exact (isField_num (hfields i hi)).2
  · intro fragment bundle seq root slot leaves hdecode hverify hclear leaf hleaf
    have hpath := verified_paths hverify leaf hleaf
    refine recompute_sound (decodeFragment_ok hdecode leaf hleaf) (hclear leaf hleaf) ?_
    rw [hpath, ← hroot]
    rfl

omit [PublicKey] in
/-- An honest path recomputes the tree's own nodes. -/
theorem pathClear_siblings {leaves : Nat → Bytes} (n d i : Nat) :
    PathClear leaves d i (Merkle.level nodeHash leaves d i)
      (Merkle.siblings nodeHash leaves n d i) := by
  induction n generalizing d i with
  | zero => trivial
  | succ n ih =>
    have hnext := ih (d + 1) (i / 2)
    rw [Merkle.siblings, PathClear]
    simp only [(Merkle.children_siblings d i).1, (Merkle.children_siblings d i).2]
    exact ⟨fun _ => rfl, hnext⟩

omit [PublicKey] in
theorem collisionless_built {i : Nat} (h : i < COMMITMENT_LEAF_COUNT) :
    Collisionless p q salt (builtLeaf p q salt i) := by
  intro s v nodes hs hv hnodes
  simp only [builtLeaf, hexToBytes_toHex, mapM_hex, Except.ok.injEq] at hs hv hnodes
  subst hs hv hnodes
  refine ⟨fun _ => rfl, ?_⟩
  change PathClear _ 0 i (leafHash i _ _) _
  rw [← leafAt_eq h]
  exact pathClear_siblings 4 0 i

end

/-! ## A card -/

def BASE58 : Text := "123456789ABCDEFGHJKLMNPQRSTUVWXYZabcdefghijkmnopqrstuvwxyz".toList

/-- Base58: one `1` for each leading zero byte, then the digits of the number. -/
def base58Text (bs : Bytes) : Text :=
  List.replicate (bs.takeWhile (· = 0)).length '1' ++
    (Nat.digits 58 (ofBeBytes bs)).reverse.map fun d => BASE58.getD d '1'

/-- The 32 bytes a base58 text denotes. -/
def base58Bytes (t : Text) : Option Bytes := do
  let ds ← t.mapM fun c => BASE58.findIdx? (· = c)
  let n := ds.foldl (fun n d => 58 * n + d) 0
  let zeros := (t.takeWhile (· = '1')).length
  let digits := (Nat.digits 256 n).reverse.map UInt8.ofNat
  let bs := List.replicate zeros 0 ++ digits
  if bs.length = 32 then some bs else none

@[reducible] def base58 : PublicKey := ⟨base58Text, base58Bytes⟩

/-- A card that expired before the epoch, its merchants and categories in no order. -/
def samplePolicy : CardPolicy :=
  { zeroedPolicy 0 0 with
    binding := 0x8000000000000000000000000000000000000000000000000000000000000013
    owner := 6
    authorizer := 7
    policyVersion := 3
    budgetCents := 18446744073709551615
    maxPurchaseCents := 50000
    maxPurchasesPerPeriod := 12
    periodSeconds := 2592000
    currency := 0x555344
    merchantIdHashes := [0x100000000000000000000000000000000, 41]
    mccs := [5812, 742, 4111]
    expiresAt := -86400
    recurringAllowed := true
    feeBps := 150
    ledgerSeq := 9 }

def samplePeriod : CardPeriod where
  periodIndex := 4
  periodStart := -9223372036854775808
  periodEnd := 9223372036854775807
  capturedCents := 120000
  reservedCents := 700
  refundedCents := 35
  purchasesCount := 8
  exceptionCents := 0

/-- What stands in the rest of the lists. -/
def sampleSpare : Spare :=
  ⟨List.replicate (MAX_MERCHANTS - 2) 13, List.replicate (MAX_MCCS - 3) 14, 15, 255⟩

/-- The owner shares three fields in any order. -/
theorem disclosure_agrees_sample :
    letI := base58
    let p := samplePolicy
    let root := Card.commitmentRoot p samplePeriod 1
    ∃ policy period commitment bundle leaves,
      decodeCardPolicy (policyData p sampleSpare) = .ok policy ∧
      decodeCardPeriod (periodData samplePeriod sampleSpare) = .ok period ∧
      decodeCardCommitment (commitmentData ⟨1, root, 3, 4, 9⟩ p.binding 254) = .ok commitment ∧
      buildDisclosureBundle ⟨policy, period, Hash.bytes 1, 1, [15, 9, 2]⟩ = .ok bundle ∧
      decodeDisclosureFragment (encodeDisclosureFragment bundle) = .ok bundle ∧
      verifyDisclosureBundle bundle commitment =
        .ok (.verified (decimal 1) (toHex (Hash.bytes root)) (decimal 9) leaves) ∧
      ∀ leaf ∈ bundle.leaves, Collisionless p samplePeriod 1 leaf ∧
        ofHex leaf.value = (leafValues p samplePeriod)[leaf.i]? := by
  let _ := base58
  have hheld : Held samplePolicy sampleSpare := by
    constructor <;> decide +kernel
  have hperiod : HeldPeriod samplePeriod := by
    constructor <;> decide +kernel
  have hascii : IsAscii (PublicKey.toBase58 (Hash.bytes samplePolicy.binding)) := by
    decide +kernel
  have hkey : Address samplePolicy.binding := ⟨by decide +kernel, hascii⟩
  have hcommitment : HeldCommitment
      ⟨1, Card.commitmentRoot samplePolicy samplePeriod 1, 3, 4, 9⟩ :=
    ⟨by decide, by decide, by decide, by decide⟩
  have hsome : ([15, 9, 2] : List Rat) ≠ [] := List.cons_ne_nil _ _
  have hfields : ∀ i ∈ ([15, 9, 2] : List Rat), isField i = true := by
    decide +kernel
  obtain ⟨policy, period, hpolicy, hdecoded, -, hall⟩ :=
    @disclosure_agrees base58 samplePolicy sampleSpare sampleSpare samplePeriod 1 hheld hperiod hkey
  obtain ⟨commitment, hcommit, hbuild, hhonest, hsound⟩ := hall _ 254 hcommitment rfl
  obtain ⟨bundle, hbundle⟩ := hbuild [15, 9, 2] hsome hfields
  obtain ⟨hlink, leaves, hverify⟩ := hhonest _ bundle hbundle
  have hclear : ∀ leaf ∈ bundle.leaves, Collisionless samplePolicy samplePeriod 1 leaf := by
    obtain rfl := Except.ok.inj (hpolicy.symm.trans (decodeCardPolicy_data hheld))
    obtain rfl := Except.ok.inj (hdecoded.symm.trans (decodeCardPeriod_data hperiod))
    have hleaves := congrArg DisclosureBundle.leaves
      (Except.ok.inj (hbundle.symm.trans (build_decoded hkey hsome hfields)))
    intro leaf hleaf
    rw [hleaves] at hleaf
    obtain ⟨j, hj, rfl⟩ := List.mem_map.mp hleaf
    obtain ⟨i, hi, rfl⟩ := mem_picked.mp hj
    exact collisionless_built (isField_num (hfields i hi)).2
  refine ⟨policy, period, commitment, bundle, leaves, hpolicy, hdecoded, hcommit, hbundle, hlink,
    hverify, fun leaf hleaf => ⟨hclear leaf hleaf, ?_⟩⟩
  exact hsound _ bundle _ _ _ leaves hlink hverify hclear leaf hleaf

end ChainPay.Sdk
