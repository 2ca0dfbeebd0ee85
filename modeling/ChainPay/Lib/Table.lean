import Mathlib.Data.List.AList
import Mathlib.Algebra.Order.Ring.Int

/-!
Sums over a finite table. A table is an association list with distinct keys
(`AList`), and `sumOf f t` adds `f` over its values. The lemmas say how the sum
moves when one entry is written, replaced or removed.
-/

namespace ChainPay.Lib

/-- A finite map from `κ` to `ν`. -/
abbrev Table (κ ν : Type) := AList (fun _ : κ => ν)

variable {κ ν : Type}

/-- The sum of `f` over the values of the table. -/
def sumOf (f : ν → Nat) (t : Table κ ν) : Nat := (t.entries.map (fun e => f e.2)).sum

@[simp] theorem sumOf_empty (f : ν → Nat) : sumOf f (∅ : Table κ ν) = 0 := rfl

variable [DecidableEq κ]

theorem sumOf_erase (f : ν → Nat) (t : Table κ ν) (k : κ) (v : ν) (h : t.lookup k = some v) :
    sumOf f (t.erase k) + f v = sumOf f t := by
  have hk : k ∈ t.entries.keys := by
    rw [← AList.keys, ← AList.mem_keys, ← AList.lookup_isSome, h]; rfl
  obtain ⟨w, l₁, l₂, hl₁, hl, he⟩ := List.exists_of_kerase hk
  have hw : w = v := by
    have hm : (⟨k, w⟩ : Sigma fun _ : κ => ν) ∈ t.entries := by simp [hl]
    have := (List.mem_dlookup_iff t.nodupKeys).mpr hm
    rw [AList.lookup] at h
    rw [h] at this
    exact (Option.some.inj this).symm
  subst hw
  change ((t.entries.kerase k).map (fun e => f e.2)).sum + f w =
    (t.entries.map (fun e => f e.2)).sum
  rw [he, hl]
  simp only [List.map_append, List.sum_append, List.map_cons, List.sum_cons]
  omega

theorem sumOf_insert_new (f : ν → Nat) (t : Table κ ν) (k : κ) (v : ν) (h : t.lookup k = none) :
    sumOf f (t.insert k v) = sumOf f t + f v := by
  have hk : k ∉ t := AList.lookup_eq_none.mp h
  simp only [sumOf, AList.entries_insert_of_notMem hk, List.map_cons, List.sum_cons]
  omega

theorem sumOf_insert (f : ν → Nat) (t : Table κ ν) (k : κ) (v w : ν) (h : t.lookup k = some v) :
    sumOf f (t.insert k w) + f v = sumOf f t + f w := by
  have he : ((t.entries.kerase k).map (fun e => f e.2)).sum + f v =
      (t.entries.map (fun e => f e.2)).sum := sumOf_erase f t k v h
  simp only [sumOf, AList.entries_insert, List.map_cons, List.sum_cons]
  omega

theorem le_sumOf (f : ν → Nat) (t : Table κ ν) (k : κ) (v : ν) (h : t.lookup k = some v) :
    f v ≤ sumOf f t := by
  have := sumOf_erase f t k v h
  omega

theorem sumOf_eq_zero (f : ν → Nat) (t : Table κ ν)
    (h : ∀ k v, t.lookup k = some v → f v = 0) : sumOf f t = 0 := by
  simp only [sumOf, List.sum_eq_zero_iff_forall_eq_nat, List.mem_map]
  rintro _ ⟨⟨k, v⟩, hm, rfl⟩
  exact h k v ((List.mem_dlookup_iff t.nodupKeys).mpr hm)

/-- The number of entries. -/
def entryCount (t : Table κ ν) : Nat := sumOf (fun _ => 1) t

omit [DecidableEq κ] in
theorem entryCount_eq_keys (t : Table κ ν) : entryCount t = t.keys.length := by
  simp [entryCount, sumOf, AList.keys, List.keys]

/-- Tables with the same keys have as many entries. -/
theorem entryCount_congr {t t' : Table κ ν}
    (h : ∀ k, (t'.lookup k).isSome = (t.lookup k).isSome) : entryCount t' = entryCount t := by
  have hperm : List.Perm t'.keys t.keys := by
    rw [List.perm_ext_iff_of_nodup t'.keys_nodup t.keys_nodup]
    intro k
    rw [AList.mem_keys.symm, AList.mem_keys.symm, ← AList.lookup_isSome, ← AList.lookup_isSome, h k]
  rw [entryCount_eq_keys, entryCount_eq_keys, hperm.length_eq]

theorem lookup_of_entryCount {t : Table κ ν} (h : entryCount t = 0) (k : κ) :
    t.lookup k = none := by
  cases hk : t.lookup k with
  | none => rfl
  | some v =>
    have hle : 1 ≤ entryCount t := le_sumOf (fun _ => 1) t k v hk
    omega

/-- A property of every value, kept by writing a value that has it. -/
theorem forall_lookup_insert {P : κ → ν → Prop} {t : Table κ ν} {k : κ} {v : ν}
    (h : ∀ j w, t.lookup j = some w → P j w) (hv : P k v) :
    ∀ j w, (t.insert k v).lookup j = some w → P j w := by
  intro j w hw
  by_cases hj : j = k
  · subst hj
    rw [AList.lookup_insert] at hw
    cases hw
    exact hv
  · rw [AList.lookup_insert_ne hj] at hw
    exact h j w hw

theorem forall_lookup_erase {P : κ → ν → Prop} {t : Table κ ν} {k : κ}
    (h : ∀ j w, t.lookup j = some w → P j w) :
    ∀ j w, (t.erase k).lookup j = some w → P j w := by
  intro j w hw
  by_cases hj : j = k
  · subst hj
    simp at hw
  · rw [AList.lookup_erase_ne hj] at hw
    exact h j w hw

end ChainPay.Lib
