import Mathlib.Data.Nat.Bitwise

/-!
Binary hash trees over any type of digests. `level` is the tree over a family of leaves, `climb`
recomputes a root from one leaf and its siblings. The siblings of the tree itself lead to its
root (`climb_siblings`); any siblings that do start from the tree's own leaf, unless a node on
the way collides (`climb_sound`).
-/

namespace ChainPay.Lib.Merkle

variable {δ : Type} (node : δ → δ → δ)

/-- Node `j` at height `d` over the leaves. -/
def level (leaves : Nat → δ) : Nat → Nat → δ
  | 0, j => leaves j
  | d + 1, j => node (level leaves d (2 * j)) (level leaves d (2 * j + 1))

/-- The root that a leaf at position `i` has with these siblings, lowest first. -/
def climb : Nat → δ → List δ → δ
  | _, acc, [] => acc
  | i, acc, s :: ss => climb (i / 2) (if i % 2 = 0 then node acc s else node s acc) ss

/-- The siblings of node `i` at height `d`, for `n` levels. -/
def siblings (leaves : Nat → δ) : Nat → Nat → Nat → List δ
  | 0, _, _ => []
  | n + 1, d, i => level node leaves d (i ^^^ 1) :: siblings leaves n (d + 1) (i / 2)

/-- One level up: neighbours are hashed together. -/
def pairs : List δ → List δ
  | l :: r :: rest => node l r :: pairs rest
  | _ => []

/-- The levels of the tree over a list, the leaves first. -/
def tower : Nat → List δ → List (List δ)
  | 0, leaves => [leaves]
  | n + 1, leaves => leaves :: tower n (pairs node leaves)

variable {node}

/-! ### Lists of leaves -/

theorem pairs_length (leaves : List δ) : (pairs node leaves).length = leaves.length / 2 := by
  induction leaves using pairs.induct with
  | case1 l r rest ih =>
    simp only [pairs, List.length_cons, ih]
    omega
  | case2 leaves hshort =>
    cases leaves with
    | nil => simp [pairs]
    | cons l rest =>
      cases rest with
      | nil => simp [pairs]
      | cons r rest => exact absurd rfl (hshort l r rest)

theorem pairs_getD {leaves : List δ} {j : Nat} (z : δ) (h : 2 * j + 1 < leaves.length) :
    (pairs node leaves).getD j z = node (leaves.getD (2 * j) z) (leaves.getD (2 * j + 1) z) := by
  induction leaves using pairs.induct generalizing j with
  | case1 l r rest ih =>
    cases j with
    | zero => rfl
    | succ j =>
      simp only [List.length_cons] at h
      have hrest := ih (j := j) (by omega)
      simp only [pairs, List.getD_cons_succ]
      rw [hrest]
      rfl
  | case2 leaves hshort =>
    cases leaves with
    | nil => simp at h
    | cons l rest =>
      cases rest with
      | nil => simp at h
      | cons r rest => exact absurd rfl (hshort l r rest)

/-- The tower holds the levels of the tree. -/
theorem tower_getD {n d j : Nat} {leaves : List δ} (z : δ) (hlen : leaves.length = 2 ^ n)
    (hd : d ≤ n) (hj : j < 2 ^ (n - d)) :
    ((tower node n leaves).getD d []).getD j z = level node (fun i => leaves.getD i z) d j := by
  induction d generalizing n j leaves with
  | zero =>
    cases n with
    | zero => rfl
    | succ n => rfl
  | succ d ih =>
    cases n with
    | zero => omega
    | succ n =>
      have hhalf : (pairs node leaves).length = 2 ^ n := by
        rw [pairs_length, hlen, Nat.pow_succ]
        omega
      have hsub : n + 1 - (d + 1) = n - d := by omega
      rw [hsub] at hj
      change ((tower node n (pairs node leaves)).getD d []).getD j z = _
      rw [ih hhalf (by omega) hj]
      -- a level over the pairs is the next level over the leaves
      have hshift : ∀ e k, k < 2 ^ (n - e) → e ≤ n →
          level node (fun i => (pairs node leaves).getD i z) e k =
            level node (fun i => leaves.getD i z) (e + 1) k := by
        intro e
        induction e with
        | zero =>
          intro k hk _
          refine pairs_getD z ?_
          rw [hlen, Nat.pow_succ]
          simp only [Nat.sub_zero] at hk
          omega
        | succ e ihe =>
          intro k hk he
          have hpow : 2 ^ (n - e) = 2 * 2 ^ (n - (e + 1)) := by
            rw [← Nat.pow_succ']
            congr 1
            omega
          have hleft := ihe (2 * k) (by omega) (by omega)
          have hright := ihe (2 * k + 1) (by omega) (by omega)
          conv_lhs => rw [level, hleft, hright]
          rfl
      exact hshift d j hj (by omega)

/-! ### Paths -/

variable {leaves : Nat → δ}

/-- A node and its sibling are the two children of one node, in order. -/
theorem children_siblings (d i : Nat) :
    (if i % 2 = 0 then level node leaves d i else level node leaves d (i ^^^ 1)) =
        level node leaves d (2 * (i / 2)) ∧
      (if i % 2 = 0 then level node leaves d (i ^^^ 1) else level node leaves d i) =
        level node leaves d (2 * (i / 2) + 1) := by
  by_cases hi : i % 2 = 0
  · have hself : 2 * (i / 2) = i := by omega
    rw [if_pos hi, if_pos hi, Nat.xor_one_of_even (Nat.even_iff.mpr hi), hself]
    exact ⟨rfl, rfl⟩
  · have hself : 2 * (i / 2) + 1 = i := by omega
    have hother : 2 * (i / 2) = i - 1 := by omega
    rw [if_neg hi, if_neg hi, Nat.xor_one_of_odd (Nat.odd_iff.mpr (by omega)), hself, hother]
    exact ⟨rfl, rfl⟩

theorem node_siblings (d i : Nat) :
    (if i % 2 = 0 then node (level node leaves d i) (level node leaves d (i ^^^ 1))
      else node (level node leaves d (i ^^^ 1)) (level node leaves d i)) =
      level node leaves (d + 1) (i / 2) := by
  rw [level, ← (children_siblings d i).1, ← (children_siblings d i).2]
  split
  · rfl
  · rfl

theorem climb_siblings (n d i : Nat) :
    climb node i (level node leaves d i) (siblings node leaves n d i) =
      level node leaves (d + n) (i / 2 ^ n) := by
  induction n generalizing d i with
  | zero => simp [climb, siblings]
  | succ n ih =>
    rw [siblings, climb, node_siblings, ih, Nat.div_div_eq_div_mul, ← Nat.pow_succ']
    congr 1
    omega

/-- A leaf and its siblings lead to the root. -/
theorem climb_root {n i : Nat} (h : i < 2 ^ n) :
    climb node i (leaves i) (siblings node leaves n 0 i) = level node leaves n 0 := by
  have hclimb : climb node i (leaves i) (siblings node leaves n 0 i) =
      level node leaves (0 + n) (i / 2 ^ n) := climb_siblings n 0 i
  rwa [Nat.zero_add, Nat.div_eq_of_lt h] at hclimb

/-- No node on the way up from `acc` collides with the tree's own. -/
def Clear (node : δ → δ → δ) (leaves : Nat → δ) : Nat → Nat → δ → List δ → Prop
  | _, _, _, [] => True
  | d, i, acc, s :: ss =>
    let l := if i % 2 = 0 then acc else s
    let r := if i % 2 = 0 then s else acc
    (node l r = level node leaves (d + 1) (i / 2) →
      l = level node leaves d (2 * (i / 2)) ∧ r = level node leaves d (2 * (i / 2) + 1)) ∧
    Clear node leaves (d + 1) (i / 2) (node l r) ss

/-- **Soundness.** A path to the root of the tree starts at the tree's own node. -/
theorem climb_sound {ss : List δ} {d i : Nat} {acc : δ} (hclear : Clear node leaves d i acc ss)
    (h : climb node i acc ss = level node leaves (d + ss.length) (i / 2 ^ ss.length)) :
    acc = level node leaves d i := by
  induction ss generalizing d i acc with
  | nil => simpa [climb] using h
  | cons s ss ih =>
    obtain ⟨hnode, hrest⟩ := hclear
    have hstep : (if i % 2 = 0 then node acc s else node s acc) =
        node (if i % 2 = 0 then acc else s) (if i % 2 = 0 then s else acc) := by
      split
      · rfl
      · rfl
    rw [climb, hstep, List.length_cons, Nat.pow_succ', ← Nat.div_div_eq_div_mul] at h
    have hup := ih hrest (by rw [h]; congr 1; omega)
    obtain ⟨hl, hr⟩ := hnode hup
    by_cases hi : i % 2 = 0
    · have hself : 2 * (i / 2) = i := by omega
      rw [if_pos hi, hself] at hl
      exact hl
    · have hself : 2 * (i / 2) + 1 = i := by omega
      rw [if_neg hi, hself] at hr
      exact hr

/-- A path that leads to the root starts at the leaf of its position. -/
theorem root_sound {ss : List δ} {n i : Nat} {acc : δ} (hclear : Clear node leaves 0 i acc ss)
    (hlen : ss.length = n) (hi : i < 2 ^ n) (h : climb node i acc ss = level node leaves n 0) :
    acc = leaves i := by
  refine climb_sound hclear ?_
  rw [h, hlen, Nat.zero_add, Nat.div_eq_of_lt hi]

end ChainPay.Lib.Merkle
