import Mathlib.Data.List.Nodup

/-!
Tables as lists of rows, the way SQL changes them: `updateWhere` rewrites the rows that match, and a
key column stays without duplicates.
-/

namespace ChainPay.Lib

variable {α β : Type}

/-- `UPDATE … SET f WHERE p`. -/
def updateWhere (p : α → Bool) (f : α → α) (rows : List α) : List α :=
  rows.map fun r => if p r then f r else r

theorem mem_updateWhere {p : α → Bool} {f : α → α} {rows : List α} {x : α} :
    x ∈ updateWhere p f rows ↔ ∃ r ∈ rows, x = if p r then f r else r := by
  simp only [updateWhere, List.mem_map, eq_comm]

/-- A row that does not match stays. -/
theorem mem_updateWhere_of_not {p : α → Bool} {f : α → α} {rows : List α} {x : α} (hx : x ∈ rows)
    (hp : ¬ p x = true) : x ∈ updateWhere p f rows :=
  mem_updateWhere.mpr ⟨x, hx, (if_neg hp).symm⟩

/-- A row that matches is rewritten. -/
theorem mem_updateWhere_of_pos {p : α → Bool} {f : α → α} {rows : List α} {x : α} (hx : x ∈ rows)
    (hp : p x = true) : f x ∈ updateWhere p f rows :=
  mem_updateWhere.mpr ⟨x, hx, (if_pos hp).symm⟩

/-- A column that the update does not write. -/
theorem map_updateWhere {p : α → Bool} {f : α → α} {g : α → β} (h : ∀ r, g (f r) = g r)
    (rows : List α) : (updateWhere p f rows).map g = rows.map g := by
  rw [updateWhere, List.map_map]
  refine List.map_congr_left fun r _ => ?_
  rw [Function.comp_apply]
  split
  · exact h r
  · rfl

/-- An update of one table is an update of another that is read off it. -/
theorem map_updateWhere_of {p : α → Bool} {f : α → α} {q : β → Bool} {h : β → β} {g : α → β}
    {rows : List α} (hp : ∀ r ∈ rows, p r = q (g r))
    (hf : ∀ r ∈ rows, p r = true → g (f r) = h (g r)) :
    (updateWhere p f rows).map g = updateWhere q h (rows.map g) := by
  rw [updateWhere, updateWhere, List.map_map, List.map_map]
  refine List.map_congr_left fun r hr => ?_
  rw [Function.comp_apply, Function.comp_apply, ← hp r hr]
  by_cases hmatch : p r = true
  · rw [if_pos hmatch, if_pos hmatch, hf r hr hmatch]
  · rw [if_neg hmatch, if_neg hmatch]

/-- A property of every row, kept by an update that keeps it. -/
theorem forall_updateWhere {p : α → Bool} {f : α → α} {rows : List α} {P : α → Prop}
    (h : ∀ r ∈ rows, P r) (hf : ∀ r ∈ rows, p r = true → P (f r)) :
    ∀ r ∈ updateWhere p f rows, P r := by
  intro r hr
  obtain ⟨r, hmem, rfl⟩ := mem_updateWhere.mp hr
  split
  · rename_i hp
    exact hf r hmem hp
  · exact h r hmem

/-- Fewer rows match when one stops to and none starts to. -/
theorem countP_lt {p q : α → Bool} {rows : List α} {x : α} (hx : x ∈ rows)
    (h : ∀ r ∈ rows, q r = true → p r = true) (hp : p x = true) (hq : ¬ q x = true) :
    rows.countP q < rows.countP p := by
  obtain ⟨pre, post, rfl⟩ := List.append_of_mem hx
  have hpre : pre.countP q ≤ pre.countP p :=
    List.countP_mono_left fun r hr => h r (List.mem_append_left _ hr)
  have hpost : post.countP q ≤ post.countP p :=
    List.countP_mono_left fun r hr => h r (List.mem_append_right _ (List.mem_cons_of_mem _ hr))
  rw [List.countP_append, List.countP_append, List.countP_cons_of_pos hp,
    List.countP_cons_of_neg hq]
  omega

/-- The row with a key is the only one. -/
theorem eq_of_key {g : α → β} {rows : List α} (hkeys : (rows.map g).Nodup) {x y : α}
    (hx : x ∈ rows) (hy : y ∈ rows) (h : g x = g y) : x = y :=
  List.inj_on_of_nodup_map hkeys hx hy h

theorem find?_spec {p : α → Bool} {rows : List α} {x : α} (h : rows.find? p = some x) :
    x ∈ rows ∧ p x = true :=
  ⟨List.mem_of_find?_eq_some h, List.find?_some h⟩

theorem updateWhere_none {p : α → Bool} {f : α → α} {rows : List α} (h : ∀ r ∈ rows, ¬ p r = true) :
    updateWhere p f rows = rows := by
  have hself : ∀ r ∈ rows, (if p r then f r else r) = id r := fun r hr => if_neg (h r hr)
  rw [updateWhere, List.map_congr_left hself, List.map_id]

/-- An update of the row with a key, under a condition on that row. -/
theorem updateWhere_key [DecidableEq β] {g : α → β} {q : α → Bool} {f : α → α} {rows : List α} {x : α}
    (hkeys : (rows.map g).Nodup) (hx : x ∈ rows) :
    updateWhere (fun r => g r = g x && q r) f rows =
      if q x then updateWhere (fun r => g r = g x) (fun _ => f x) rows else rows := by
  by_cases hq : q x = true
  · rw [if_pos hq]
    refine List.map_congr_left fun r hr => ?_
    by_cases hkey : g r = g x
    · rw [eq_of_key hkeys hr hx hkey]
      simp [hq]
    · simp [hkey]
  · rw [if_neg hq]
    refine updateWhere_none fun r hr hmatch => ?_
    obtain ⟨hkey, hqr⟩ := Bool.and_eq_true_iff.mp hmatch
    rw [eq_of_key hkeys hr hx (of_decide_eq_true hkey)] at hqr
    exact hq hqr

/-- Two tests that agree on every row of a table. -/
theorem any_congr_mem {p q : α → Bool} {rows : List α} (h : ∀ r ∈ rows, p r = q r) :
    rows.any p = rows.any q := by
  rw [Bool.eq_iff_iff, List.any_eq_true, List.any_eq_true]
  constructor
  · rintro ⟨r, hr, hp⟩
    exact ⟨r, hr, (h r hr).symm.trans hp⟩
  · rintro ⟨r, hr, hq⟩
    exact ⟨r, hr, (h r hr).trans hq⟩

/-- A table is changed the same in any order of its rows. -/
theorem updateWhere_perm {p : α → Bool} {f : α → α} {rows rows' : List α} (h : rows.Perm rows') :
    (updateWhere p f rows).Perm (updateWhere p f rows') :=
  h.map _

/-- A row is found by its key in any order of the rows. -/
theorem find?_perm [DecidableEq β] {g : α → β} {rows rows' : List α} (hkeys : (rows.map g).Nodup)
    (h : rows.Perm rows') (k : β) :
    rows'.find? (fun r => g r = k) = rows.find? (fun r => g r = k) := by
  cases hfound : rows.find? fun r => g r = k with
  | none =>
    rw [List.find?_eq_none] at hfound ⊢
    exact fun r hr => hfound r (h.symm.subset hr)
  | some x =>
    obtain ⟨hx, hk⟩ := find?_spec hfound
    have hsome : (rows'.find? fun r => g r = k).isSome = true :=
      List.find?_isSome.mpr ⟨x, h.subset hx, hk⟩
    obtain ⟨y, hy⟩ := Option.isSome_iff_exists.mp hsome
    obtain ⟨hmem, hky⟩ := find?_spec hy
    have heq : g y = g x := (of_decide_eq_true hky).trans (of_decide_eq_true hk).symm
    rw [hy, eq_of_key hkeys (h.symm.subset hmem) hx heq]

/-- Rewritings that agree on every row of a table. -/
theorem updateWhere_congr {p q : α → Bool} {f g : α → α} {rows : List α}
    (h : ∀ r ∈ rows, (if p r then f r else r) = if q r then g r else r) :
    updateWhere p f rows = updateWhere q g rows :=
  List.map_congr_left h

end ChainPay.Lib
