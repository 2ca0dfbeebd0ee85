import Mathlib.Data.List.Sort
import Mathlib.Data.List.Perm.Subperm

/-!
The first rows of a table in an order that tells its rows apart. Which rows are among the first `n`
depends on their rank only, so they can be found among the first `n` of each part of a table.
-/

namespace ChainPay.Lib

variable {α : Type}

/-- An order by a key is total. -/
theorem total_of_key {κ : Type} [LinearOrder κ] {key : α → κ} {r : α → α → Prop}
    (h : ∀ a b, r a b ↔ key a ≤ key b) : Std.Total r where
  total a b := by
    rw [h, h]
    exact le_total _ _

theorem trans_of_key {κ : Type} [LinearOrder κ] {key : α → κ} {r : α → α → Prop}
    (h : ∀ a b, r a b ↔ key a ≤ key b) : IsTrans α r where
  trans a b c hab hbc := by
    rw [h] at hab hbc ⊢
    exact le_trans hab hbc

variable (r : α → α → Prop)

/-- The order tells the rows apart. -/
def Apart (rows : List α) : Prop := ∀ a ∈ rows, ∀ b ∈ rows, r a b → r b a → a = b

variable {r} in
theorem Apart.subset {rows part : List α} (h : Apart r rows) (hsub : part ⊆ rows) : Apart r part :=
  fun a ha b hb => h a (hsub ha) b (hsub hb)

variable [DecidableRel r]

/-- The number of rows before a row. -/
def rank (rows : List α) (x : α) : Nat := rows.countP fun y => ¬ r x y

variable {r}

variable [Std.Total r] [IsTrans α r]

/-- A sorted table around one of its rows. -/
theorem sort_split {rows : List α} (h : Apart r rows) (hnodup : rows.Nodup) {x : α}
    (hx : x ∈ rows) : ∃ p q, rows.insertionSort r = p ++ x :: q ∧ p.length = rank r rows x ∧
      ∀ y ∈ p, ¬ r x y := by
  have hperm := List.perm_insertionSort r rows
  obtain ⟨p, q, hpq⟩ := List.append_of_mem (hperm.symm.subset hx)
  have hsorted := List.pairwise_insertionSort r rows
  have hdistinct : (p ++ x :: q).Nodup := hpq ▸ hperm.symm.nodup hnodup
  have hmem : ∀ y ∈ p ++ x :: q, y ∈ rows := fun y hy => hperm.subset (hpq ▸ hy)
  rw [hpq] at hsorted
  obtain ⟨-, hafter, hacross⟩ := List.pairwise_append.mp hsorted
  obtain ⟨hle, -⟩ := List.pairwise_cons.mp hafter
  have hbefore : ∀ y ∈ p, ¬ r x y := by
    intro y hy hxy
    have hyx := hacross y hy x List.mem_cons_self
    have heq : y = x := h y (hmem y (List.mem_append_left _ hy)) x
      (hmem x (List.mem_append_right _ List.mem_cons_self)) hyx hxy
    exact (List.disjoint_of_nodup_append hdistinct) hy (heq ▸ List.mem_cons_self)
  refine ⟨p, q, hpq, ?_, hbefore⟩
  have hself : r x x := (Std.Total.total (r := r) x x).elim id id
  have hcount : rank r rows x = rank r (p ++ x :: q) x := by
    unfold rank
    rw [← hpq]
    exact (hperm.countP_eq _).symm
  have hfirst : p.countP (fun y => ¬ r x y) = p.length :=
    List.countP_eq_length.mpr fun y hy => decide_eq_true (hbefore y hy)
  have hlast : (x :: q).countP (fun y => ¬ r x y) = 0 := by
    refine List.countP_eq_zero.mpr fun y hy => ?_
    rcases List.mem_cons.mp hy with rfl | hy
    · simpa using hself
    · simpa using hle y hy
  rw [hcount, rank, List.countP_append, hfirst, hlast, Nat.add_zero]

/-- The first rows are those of low rank. -/
theorem mem_take_sort {rows : List α} (h : Apart r rows) (hnodup : rows.Nodup) {x : α} {n : Nat} :
    x ∈ (rows.insertionSort r).take n ↔ x ∈ rows ∧ rank r rows x < n := by
  have hperm := List.perm_insertionSort r rows
  constructor
  · intro hx
    have hmem : x ∈ rows := hperm.subset (List.mem_of_mem_take hx)
    obtain ⟨p, q, hpq, hlength, hbefore⟩ := sort_split h hnodup hmem
    refine ⟨hmem, ?_⟩
    by_contra hge
    rw [hpq, List.take_append_of_le_length (by omega)] at hx
    have hself : r x x := (Std.Total.total (r := r) x x).elim id id
    exact hbefore x (List.mem_of_mem_take hx) hself
  · rintro ⟨hmem, hrank⟩
    obtain ⟨p, q, hpq, hlength, -⟩ := sort_split h hnodup hmem
    obtain ⟨k, hk⟩ : ∃ k, n = p.length + (k + 1) := ⟨n - p.length - 1, by omega⟩
    rw [hpq, hk, List.take_length_add_append, List.take_succ_cons]
    exact List.mem_append_right _ List.mem_cons_self

/-- A part of a table that has its first rows has the same first rows. -/
theorem take_sort_eq {rows part : List α} {n : Nat} (h : Apart r rows) (hnodup : rows.Nodup)
    (hpart : part.Nodup) (hsub : part ⊆ rows)
    (hfirst : ∀ x ∈ (rows.insertionSort r).take n, x ∈ part) :
    (part.insertionSort r).take n = (rows.insertionSort r).take n := by
  have hapart := h.subset hsub
  have hmem : ∀ x, x ∈ (part.insertionSort r).take n ↔ x ∈ (rows.insertionSort r).take n := by
    intro x
    constructor
    · intro hx
      obtain ⟨hx, hrank⟩ := (mem_take_sort hapart hpart).mp hx
      refine (mem_take_sort h hnodup).mpr ⟨hsub hx, ?_⟩
      by_contra hge
      -- the first rows of the table would all come before `x` in the part
      obtain ⟨p, q, hpq, hlength, hbefore⟩ := sort_split h hnodup (hsub hx)
      have hfront : (rows.insertionSort r).take n = p.take n := by
        rw [hpq, List.take_append_of_le_length (by omega)]
      have hnodup' : (p.take n).Nodup := by
        rw [← hfront]
        exact ((List.perm_insertionSort r rows).symm.nodup hnodup).sublist (List.take_sublist _ _)
      have hin : p.take n ⊆ part.filter fun y => ¬ r x y := by
        intro y hy
        refine List.mem_filter.mpr ⟨hfirst y (hfront ▸ hy), ?_⟩
        exact decide_eq_true (hbefore y (List.mem_of_mem_take hy))
      have hle := (List.subperm_of_subset hnodup' hin).length_le
      rw [List.length_take, ← List.countP_eq_length_filter] at hle
      unfold rank at hrank
      omega
    · intro hx
      obtain ⟨hxr, hrank⟩ := (mem_take_sort h hnodup).mp hx
      refine (mem_take_sort hapart hpart).mpr ⟨hfirst x hx, ?_⟩
      exact Nat.lt_of_le_of_lt ((List.subperm_of_subset hpart hsub).countP_le _) hrank
  have hleft : ((part.insertionSort r).take n).Nodup :=
    ((List.perm_insertionSort r part).symm.nodup hpart).sublist (List.take_sublist _ _)
  have hright : ((rows.insertionSort r).take n).Nodup :=
    ((List.perm_insertionSort r rows).symm.nodup hnodup).sublist (List.take_sublist _ _)
  refine List.Perm.eq_of_pairwise (fun a b ha hb => ?_)
    ((List.pairwise_insertionSort r part).sublist (List.take_sublist _ _))
    ((List.pairwise_insertionSort r rows).sublist (List.take_sublist _ _))
    ((List.perm_ext_iff_of_nodup hleft hright).mpr hmem)
  have hrow : ∀ y ∈ (rows.insertionSort r).take n, y ∈ rows :=
    fun y hy => (List.perm_insertionSort r rows).subset (List.mem_of_mem_take hy)
  exact h a (hrow a ((hmem a).mp ha)) b (hrow b hb)

/-- A row among the first of a table is among the first of its part. -/
theorem mem_take_part {rows : List α} {n : Nat} (h : Apart r rows) (hnodup : rows.Nodup)
    (p : α → Bool) {x : α} (hx : x ∈ (rows.insertionSort r).take n) (hp : p x = true) :
    x ∈ ((rows.filter p).insertionSort r).take n := by
  obtain ⟨hmem, hrank⟩ := (mem_take_sort h hnodup).mp hx
  refine (mem_take_sort (h.subset List.filter_sublist.subset) (hnodup.filter _)).mpr
    ⟨List.mem_filter.mpr ⟨hmem, hp⟩, ?_⟩
  exact Nat.lt_of_le_of_lt (List.filter_sublist.countP_le) hrank

omit [Std.Total r] in
/-- Inserting a row and leaving rows out. -/
theorem filter_orderedInsert {p : α → Bool} {a : α} {l : List α} (hl : l.Pairwise r) :
    (l.orderedInsert r a).filter p =
      if p a then (l.filter p).orderedInsert r a else l.filter p := by
  induction l with
  | nil =>
    rw [List.orderedInsert_nil, List.filter_singleton, List.filter_nil, List.orderedInsert_nil]
    cases p a <;> rfl
  | cons b l ih =>
    obtain ⟨hb, hl⟩ := List.pairwise_cons.mp hl
    by_cases hab : r a b
    · rw [List.orderedInsert_cons_of_le r l hab, List.filter_cons]
      split
      · -- what is left of the rows still comes after `a`
        cases hrest : (b :: l).filter p with
        | nil => rfl
        | cons c rest =>
          have hc : c ∈ b :: l := List.mem_of_mem_filter (hrest ▸ List.mem_cons_self)
          have hac : r a c := by
            rcases List.mem_cons.mp hc with rfl | hc
            · exact hab
            · exact IsTrans.trans a b c hab (hb c hc)
          rw [List.orderedInsert_cons_of_le r rest hac]
      · rfl
    · rw [List.orderedInsert_of_not_le r l hab, List.filter_cons, List.filter_cons, ih hl]
      by_cases hpb : p b = true
      · rw [if_pos hpb, if_pos hpb]
        split
        · rw [List.orderedInsert_of_not_le r _ hab]
        · rfl
      · rw [if_neg hpb, if_neg hpb]

/-- Sorting what is left of a table. -/
theorem insertionSort_filter (p : α → Bool) (l : List α) :
    (l.filter p).insertionSort r = (l.insertionSort r).filter p := by
  induction l with
  | nil => rfl
  | cons a l ih =>
    rw [List.insertionSort_cons, filter_orderedInsert (List.pairwise_insertionSort r l),
      List.filter_cons]
    split
    · rw [List.insertionSort_cons, ih]
    · exact ih

end ChainPay.Lib
