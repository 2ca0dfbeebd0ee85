import ChainPay.Sdk.Fragment

/-!
The SDK's root of the decoded accounts is the program's (`commitmentRoot_decoded`): the sixteen
leaf values agree, sorted lists included, and so do the salts, the leaf hashes and the tree over
them.
-/

namespace ChainPay.Sdk
open ChainPay.Lib ChainPay.Card

attribute [local irreducible] sha256

/-- A digest of the program, as bytes. -/
theorem bytes_hashv (slices : List Bytes) : Hash.bytes (hashv slices) = sha256 slices.flatten := by
  have hmod : beBytes 32 (ofBeBytes (sha256 slices.flatten) % 2 ^ 256) =
      beBytes 32 (ofBeBytes (sha256 slices.flatten)) := by
    rw [beBytes, beBytes, show (2 : Nat) ^ 256 = 256 ^ 32 by decide, leBytes_mod]
  have hbytes := beBytes_ofBeBytes (sha256 slices.flatten)
  rw [sha256_length] at hbytes
  rw [Hash.bytes, hashv, BitVec.toNat_ofNat, hmod, hbytes]

/-! ## Sorted lists -/

/-- Of two strings of one length the order of bytes is the order of the numbers. -/
theorem compareBytes_le {as bs : Bytes} (h : as.length = bs.length) :
    compareBytes as bs ≤ 0 ↔ ofBeBytes as ≤ ofBeBytes bs := by
  induction as generalizing bs with
  | nil =>
    cases bs with
    | nil => simp [compareBytes, ofBeBytes, ofLeBytes]
    | cons b bs => simp at h
  | cons a as ih =>
    cases bs with
    | nil => simp at h
    | cons b bs =>
      have hlen : as.length = bs.length := Nat.succ.inj h
      rw [compareBytes, ofBeBytes_cons, ofBeBytes_cons, hlen]
      by_cases hab : a = b
      · rw [if_neg (fun hne => hne hab), ih hlen, hab]
        omega
      · rw [if_pos hab]
        have hne : a.toNat ≠ b.toNat := fun he => hab (UInt8.toNat_inj.mp he)
        have has := ofBeBytes_lt as
        have hbs := ofBeBytes_lt bs
        rw [hlen] at has
        -- the first byte outweighs all that follow
        rcases Nat.lt_or_gt_of_ne hne with hlt | hgt
        · have hstep : 256 ^ bs.length * (a.toNat + 1) ≤ 256 ^ bs.length * b.toNat :=
            Nat.mul_le_mul_left _ hlt
          rw [Nat.mul_add] at hstep
          omega
        · have hstep : 256 ^ bs.length * (b.toNat + 1) ≤ 256 ^ bs.length * a.toNat :=
            Nat.mul_le_mul_left _ hgt
          rw [Nat.mul_add] at hstep
          omega

theorem ofBeBytes_bytes (h : Hash) : ofBeBytes (Hash.bytes h) = h.toNat := by
  have hlt : h.toNat < 256 ^ 32 := h.isLt
  rw [ofBeBytes, Hash.bytes, beBytes, List.reverse_reverse, ofLeBytes_leBytes,
    Nat.mod_eq_of_lt hlt]

theorem sorted_hashes (hs : List Hash) :
    (hs.map Hash.bytes).mergeSort (fun a b => compareBytes a b ≤ 0) =
      (hs.mergeSort (· ≤ ·)).map Hash.bytes := by
  refine (List.map_mergeSort fun a _ b _ => ?_).symm
  have hlen : (Hash.bytes a).length = (Hash.bytes b).length := by
    rw [hash_length, hash_length]
  rw [decide_eq_decide, compareBytes_le hlen, ofBeBytes_bytes, ofBeBytes_bytes]
  exact BitVec.le_def

theorem sorted_mccs (ms : List Nat) :
    ms.mergeSort (fun a b => (a : Int) - b ≤ 0) = ms.mergeSort (· ≤ ·) := by
  congr 1
  funext a b
  rw [decide_eq_decide]
  omega

/-! ## Leaves -/

theorem le_unsigned (v n : Nat) : le v n = leBytes n v := by
  have hmod : ((v : Int) % 256 ^ n).toNat = v % 256 ^ n := by
    rw [show ((256 : Int) ^ n) = ((256 ^ n : Nat) : Int) by simp, ← Int.natCast_mod,
      Int.toNat_natCast]
  rw [le, hmod, leBytes_mod]

theorem recoveryByte_eq (s : RecoveryState) : recoveryByte (recoveryState s) = s.code := by
  cases s with
  | normal => rfl
  | frozen => rfl
  | restoredPending => rfl

section

variable [PublicKey]

/-- The address reads back from its text, which is ASCII. -/
structure Address (k : Pubkey) : Prop where
  reads : PublicKey.ofText (PublicKey.toBase58 (Hash.bytes k)) = some (Hash.bytes k)
  ascii : ∀ c ∈ PublicKey.toBase58 (Hash.bytes k), c.toNat < 128

theorem publicKey_ok {k : Pubkey} (h : Address k) :
    publicKey (PublicKey.toBase58 (Hash.bytes k)) = .ok (Hash.bytes k) := by
  rw [publicKey, h.reads]

/-- **The SDK's leaf values of the decoded accounts are the program's.** -/
theorem commitmentLeafValues_decoded {p : CardPolicy} {x y : Spare} {q : CardPeriod}
    (h : Address p.binding) :
    commitmentLeafValues (decodedPolicy p x) (decodedPeriod q y) = .ok (leafValues p q) := by
  have hbinding : publicKey (decodedPolicy p x).binding = .ok (Hash.bytes p.binding) :=
    publicKey_ok h
  rw [commitmentLeafValues, hbinding]
  simp only [decodedPolicy, decodedPeriod, sorted_hashes, sorted_mccs, le_unsigned,
    recoveryByte_eq]
  rw [leafValues, bytes_hashv, bytes_hashv, List.flatten_singleton]
  rfl

/-! ## The tree -/

omit [PublicKey] in
theorem leafSalt_bytes (salt : Hash) (i : Nat) :
    leafSalt (Hash.bytes salt) i = .ok (Hash.bytes (Card.leafSalt salt i)) := by
  rw [leafSalt, if_neg (fun hne => hne (hash_length salt)), Card.leafSalt, bytes_hashv]
  simp

omit [PublicKey] in
theorem leafHash_bytes (i : Nat) (salt : Hash) (value : Bytes) :
    leafHash i (Hash.bytes salt) value = Hash.bytes (Card.leafHash i salt value) := by
  rw [Card.leafHash, bytes_hashv, leafHash]
  simp [LEAF_DOMAIN, Card.LEAF_DOMAIN]

omit [PublicKey] in
theorem nodeHash_bytes (l r : Hash) :
    nodeHash (Hash.bytes l) (Hash.bytes r) = Hash.bytes (Card.nodeHash l r) := by
  rw [Card.nodeHash, bytes_hashv, nodeHash]
  simp

omit [PublicKey] in
theorem pairs_bytes (hs : List Hash) :
    Merkle.pairs nodeHash (hs.map Hash.bytes) = (pairUp hs).map Hash.bytes := by
  induction hs using pairUp.induct with
  | case1 l r rest ih =>
    rw [List.map_cons, List.map_cons, Merkle.pairs, nodeHash_bytes, ih, pairUp, List.map_cons]
  | case2 hs hshort =>
    cases hs with
    | nil => rfl
    | cons l rest =>
      cases rest with
      | nil => rfl
      | cons r rest => exact absurd rfl (hshort l r rest)

/-- The sixteen leaf hashes of a card. -/
def leafHashes (p : CardPolicy) (q : CardPeriod) (salt : Hash) : List Hash :=
  (leafValues p q).mapIdx fun i v => Card.leafHash i (Card.leafSalt salt i) v

/-- The leaf hashes as the SDK has them. -/
def leafAt (p : CardPolicy) (q : CardPeriod) (salt : Hash) (i : Nat) : Bytes :=
  ((leafHashes p q salt).map Hash.bytes).getD i []

omit [PublicKey] in
theorem leafHashes_length (p : CardPolicy) (q : CardPeriod) (salt : Hash) :
    (leafHashes p q salt).length = COMMITMENT_LEAF_COUNT := by
  rw [leafHashes, List.length_mapIdx]
  rfl

omit [PublicKey] in
theorem leafAt_eq {p : CardPolicy} {q : CardPeriod} {salt : Hash} {i : Nat}
    (h : i < COMMITMENT_LEAF_COUNT) :
    leafAt p q salt i =
      leafHash i (Hash.bytes (Card.leafSalt salt i)) ((leafValues p q).getD i []) := by
  have hlen : i < (leafValues p q).length := h
  rw [leafAt, leafHash_bytes, List.getD_eq_getElem?_getD, List.getElem?_map, leafHashes,
    List.getElem?_mapIdx, List.getD_eq_getElem?_getD, List.getElem?_eq_getElem hlen,
    Option.map_some, Option.map_some, Option.getD_some, Option.getD_some]

omit [PublicKey] in
theorem pairUp_length (hs : List Hash) : (pairUp hs).length = hs.length / 2 := by
  have h : (Merkle.pairs nodeHash (hs.map Hash.bytes)).length = (hs.map Hash.bytes).length / 2 :=
    Merkle.pairs_length _
  rwa [pairs_bytes, List.length_map, List.length_map] at h

omit [PublicKey] in
theorem tower_last {δ : Type} (node : δ → δ → δ) (leaves : List δ) (z : δ) :
    ((Merkle.tower node 4 leaves).getLastD []).headD z =
      ((Merkle.tower node 4 leaves).getD 4 []).getD 0 z := by
  simp only [Merkle.tower]
  rw [List.getD_cons_succ, List.getD_cons_succ, List.getD_cons_succ, List.getD_cons_succ,
    List.getD_cons_zero, List.headD_eq_head?_getD, List.getD_eq_getElem?_getD,
    List.head?_eq_getElem?]
  rfl

omit [PublicKey] in
theorem tower_root (p : CardPolicy) (q : CardPeriod) (salt : Hash) :
    ((Merkle.tower nodeHash 4 ((leafHashes p q salt).map Hash.bytes)).getD 4 []).getD 0 [] =
      Merkle.level nodeHash (leafAt p q salt) 4 0 := by
  have hlen : ((leafHashes p q salt).map Hash.bytes).length = 2 ^ 4 := by
    rw [List.length_map, leafHashes_length]
    rfl
  exact Merkle.tower_getD [] hlen (by decide) (by decide)

omit [PublicKey] in
/-- The tree over the leaves has the program's root. -/
theorem level_root (p : CardPolicy) (q : CardPeriod) (salt : Hash) :
    Merkle.level nodeHash (leafAt p q salt) 4 0 =
      Hash.bytes (Card.commitmentRoot p q salt) := by
  have hroot : ∃ root, pairUp (pairUp (pairUp (pairUp (leafHashes p q salt)))) = [root] := by
    refine List.length_eq_one_iff.mp ?_
    rw [pairUp_length, pairUp_length, pairUp_length, pairUp_length, leafHashes_length]
    rfl
  obtain ⟨root, hroot⟩ := hroot
  rw [← tower_root]
  simp only [Merkle.tower, pairs_bytes]
  rw [List.getD_cons_succ, List.getD_cons_succ, List.getD_cons_succ, List.getD_cons_succ,
    List.getD_cons_zero, hroot, Card.commitmentRoot, merkleRoot, ← leafHashes, hroot]
  rfl

variable {p : CardPolicy} {x y : Spare} {q : CardPeriod} {salt : Hash}

omit [PublicKey] in
theorem levels_ok : levels ((leafHashes p q salt).map Hash.bytes) =
    .ok (Merkle.tower nodeHash 4 ((leafHashes p q salt).map Hash.bytes)) := by
  rw [levels, List.length_map, leafHashes_length, if_neg (fun hne => hne rfl)]

/-- **The SDK's root of the decoded accounts is the program's.** -/
theorem commitmentRoot_decoded (h : Address p.binding) :
    commitmentRoot (decodedPolicy p x) (decodedPeriod q y) (Hash.bytes salt) =
      .ok (Hash.bytes (Card.commitmentRoot p q salt)) := by
  have hhashes : (leafValues p q).zipIdx.map
      (fun e => Hash.bytes (Card.leafHash e.2 (Card.leafSalt salt e.2) e.1)) =
      (leafHashes p q salt).map Hash.bytes := by
    rw [leafHashes, List.mapIdx_eq_zipIdx_map, List.map_map]
    rfl
  have hleaf : ∀ (value : Bytes) (i : Nat),
      (leafSalt (Hash.bytes salt) i >>= fun s => pure (leafHash i s value)) =
        .ok (Hash.bytes (Card.leafHash i (Card.leafSalt salt i) value)) := by
    intro value i
    rw [leafSalt_bytes, ok_bind, leafHash_bytes]
    rfl
  rw [commitmentRoot, commitmentLeafValues_decoded h, ok_bind, mapM_ok fun e _ => hleaf e.1 e.2,
    hhashes, ok_bind, levels_ok, ok_bind, ← level_root, ← tower_root, tower_last]
  rfl

end

end ChainPay.Sdk
