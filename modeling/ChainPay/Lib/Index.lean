import ChainPay.Lib.Rows
import Mathlib.Data.List.Sort

/-!
Tables read through an index on a number: rows stand by that column, and rows that share it by the
order in which they were created, which is the order of the list.
-/

namespace ChainPay.Lib

variable {α : Type}

/-- The rows in the order of an index: by a column, then by creation. -/
def byIndex (key : α → Nat) (rows : List α) : List α :=
  rows.insertionSort fun a b => key a ≤ key b

/-- The same, backwards. -/
def byIndexDesc (key : α → Nat) (rows : List α) : List α := (byIndex key rows).reverse

instance byKey_total (key : α → Nat) : Std.Total fun a b : α => key a ≤ key b where
  total a b := Nat.le_total (key a) (key b)

instance byKey_trans (key : α → Nat) : IsTrans α fun a b : α => key a ≤ key b where
  trans _ _ _ hab hbc := Nat.le_trans hab hbc

theorem byIndex_perm (key : α → Nat) (rows : List α) : (byIndex key rows).Perm rows :=
  List.perm_insertionSort _ rows

theorem byIndexDesc_perm (key : α → Nat) (rows : List α) : (byIndexDesc key rows).Perm rows :=
  (List.reverse_perm _).trans (byIndex_perm key rows)

theorem byIndex_sorted (key : α → Nat) (rows : List α) :
    (byIndex key rows).Pairwise fun a b => key a ≤ key b :=
  List.pairwise_insertionSort _ rows

theorem byIndexDesc_sorted (key : α → Nat) (rows : List α) :
    (byIndexDesc key rows).Pairwise fun a b => key b ≤ key a :=
  List.pairwise_reverse.mpr (byIndex_sorted key rows)

/-- Rows with different keys, newest first, in whatever way they were sorted. -/
theorem desc_eq {key : α → Nat} {rows sorted : List α} (hkeys : (rows.map key).Nodup)
    (hperm : sorted.Perm rows) (hsorted : sorted.Pairwise fun a b => key b ≤ key a)
    {rows' : List α} (hrows : rows.Perm rows') : byIndexDesc key rows' = sorted := by
  have hleft := byIndexDesc_perm key rows'
  refine List.Perm.eq_of_pairwise (fun a b ha hb hab hba => ?_) (byIndexDesc_sorted key rows')
    hsorted (hleft.trans (hrows.symm.trans hperm.symm))
  exact eq_of_key hkeys (hrows.symm.subset (hleft.subset ha)) (hperm.subset hb)
    (Nat.le_antisymm hba hab)

end ChainPay.Lib
