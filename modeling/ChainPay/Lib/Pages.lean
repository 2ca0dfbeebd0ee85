import Mathlib.Data.List.Perm.Subperm
import Mathlib.Data.List.Sort
import Mathlib.Order.Defs.LinearOrder
import Mathlib.Algebra.Order.Ring.Int

/-!
Walks over a listing by pages of `n` rows, highest rank first, where the cursor is the rank of
the last row of the page before and excludes its own rank. `walk_spec` says what such a walk
returns: every row but those of `passedOver`, which follow the end of a page with the rank of
its last row. There are none exactly when no page ends inside a run of equal ranks
(`passedOver_eq_nil_iff`). `all` is the walk over an index of a table that is read from its end.
-/

namespace ChainPay.Lib.Pages

variable {α κ : Type} [LinearOrder κ] (rank : α → κ)

/-- The rows below the cursor. -/
def below (before : Option κ) (rows : List α) : List α :=
  rows.filter fun x => before.all fun b => rank x < b

/-- Pages are read until one is not full; `keep` says which of their rows are collected. -/
def walk (page : Option κ → List α) (n : Nat) (keep : α → Bool) :
    Nat → Option κ → Option (List α)
  | 0, _ => none
  | fuel + 1, before =>
    let rows := page before
    if rows.length = n then
      (walk page n keep fuel (rows.getLast?.map rank)).map (rows.filter keep ++ ·)
    else some (rows.filter keep)

/-- The rows that come after the last row of a full page with its rank, page by page. -/
def passedOver (n : Nat) : Nat → List α → List α
  | 0, _ => []
  | fuel + 1, rows =>
    if rows.length < n then []
    else match (rows.take n).getLast? with
      | none => []
      | some last =>
        (rows.drop n).filter (fun x => rank last ≤ rank x) ++
          passedOver n fuel (rows.filter fun x => rank x < rank last)

/-- No page of `n` rows ends between two rows of one rank. -/
def Unbroken (n : Nat) (rows : List α) : Prop :=
  ∀ k a b, rows[(k + 1) * n - 1]? = some a → rows[(k + 1) * n]? = some b → rank a ≠ rank b

/-- Highest rank first. -/
def Descending (rows : List α) : Prop := rows.Pairwise fun a b => rank b ≤ rank a

variable {rank} {rows : List α} {n : Nat}

omit [LinearOrder κ] in
theorem walk_mono {page : Option κ → List α} {keep : α → Bool} {fuel fuel' : Nat}
    {before : Option κ} {out : List α} (h : walk rank page n keep fuel before = some out)
    (hle : fuel ≤ fuel') : walk rank page n keep fuel' before = some out := by
  induction fuel generalizing fuel' before out with
  | zero => cases h
  | succ fuel ih =>
    obtain ⟨m, rfl⟩ : ∃ m, fuel' = m + 1 := ⟨fuel' - 1, by omega⟩
    unfold walk at h ⊢
    dsimp only at h ⊢
    split at h
    · rename_i hfull
      rw [if_pos hfull]
      obtain ⟨rest, hrest, rfl⟩ := Option.map_eq_some_iff.mp h
      rw [ih hrest (by omega), Option.map_some]
    · rename_i hlast
      rw [if_neg hlast]
      exact h

/-- A full page has a last row, and what lies below its rank follows the page. -/
theorem last_of_full (hn : 0 < n) (hs : Descending rank rows) (hfull : n ≤ rows.length) :
    ∃ last, (rows.take n).getLast? = some last ∧ rows[n - 1]? = some last ∧ last ∈ rows ∧
      rows.filter (fun x => rank x < rank last) =
        (rows.drop n).filter fun x => rank x < rank last := by
  have hget : (rows.take n).getLast? = rows[n - 1]? := by
    rw [List.getLast?_eq_getElem?, List.length_take, Nat.min_eq_left hfull,
      List.getElem?_take_of_lt (by omega)]
  refine ⟨rows[n - 1], ?_, ?_, List.getElem_mem _, ?_⟩
  · rw [hget, List.getElem?_eq_getElem (by omega)]
  · exact List.getElem?_eq_getElem (by omega)
  · have hpage : (rows.take n).filter (fun x => rank x < rank rows[n - 1]) = [] := by
      rw [List.filter_eq_nil_iff]
      intro x hx
      obtain ⟨i, hi, rfl⟩ := List.mem_take_iff_getElem.mp hx
      rw [decide_eq_true_eq, not_lt]
      rcases Nat.lt_or_ge i (n - 1) with hlt | hge
      · exact (List.pairwise_iff_getElem.mp hs) i (n - 1) (by omega) (by omega) hlt
      · have heq : i = n - 1 := by omega
        subst heq
        exact le_refl _
    have hsplit : rows.filter (fun x => rank x < rank rows[n - 1]) =
        (rows.take n ++ rows.drop n).filter fun x => rank x < rank rows[n - 1] := by
      rw [List.take_append_drop]
    rw [hsplit, List.filter_append, hpage, List.nil_append]

theorem below_below {before : Option κ} {last : α} (hlast : last ∈ below rank before rows) :
    below rank (some (rank last)) rows =
      (below rank before rows).filter fun x => rank x < rank last := by
  have hb := (List.mem_filter.mp hlast).2
  unfold below
  rw [List.filter_filter]
  refine List.filter_congr fun x _ => ?_
  cases before with
  | none => simp
  | some b =>
    simp only [Option.all_some, decide_eq_true_eq] at hb ⊢
    by_cases hx : rank x < rank last
    · simp [hx, lt_trans hx hb]
    · simp [hx]

/-- **Walks.** A walk ends, and it returns every row it keeps but those it passed over. -/
theorem walk_spec (keep : α → Bool) (hn : 0 < n) (hs : Descending rank rows) :
    ∀ (fuel : Nat) (before : Option κ), (below rank before rows).length < fuel →
      ∃ out, walk rank (fun before => (below rank before rows).take n) n keep fuel before =
          some out ∧
        (out ++ (passedOver rank n fuel (below rank before rows)).filter keep).Perm
          ((below rank before rows).filter keep) := by
  intro fuel
  induction fuel with
  | zero =>
    intro before hlt
    exact absurd hlt (Nat.not_lt_zero _)
  | succ fuel ih =>
    intro before hlt
    have hsub : Descending rank (below rank before rows) := List.Pairwise.filter _ hs
    unfold walk passedOver
    dsimp only
    by_cases hfull : n ≤ (below rank before rows).length
    · obtain ⟨last, hlast, -, hmem, hnext⟩ := last_of_full hn hsub hfull
      have hlen : ((below rank before rows).take n).length = n := by
        rw [List.length_take]
        omega
      have hbelow := below_below hmem
      have hshorter : (below rank (some (rank last)) rows).length < fuel := by
        rw [hbelow, hnext]
        have hle := List.length_filter_le (fun x => decide (rank x < rank last))
          ((below rank before rows).drop n)
        rw [List.length_drop] at hle
        omega
      obtain ⟨out, hout, hperm⟩ := ih (some (rank last)) hshorter
      rw [if_pos hlen, if_neg (by omega), hlast, Option.map_some, hout]
      refine ⟨_, rfl, ?_⟩
      rw [hbelow] at hperm
      dsimp only
      rw [List.filter_append, List.append_assoc]
      conv_rhs => rw [← List.take_append_drop n (below rank before rows), List.filter_append]
      refine List.Perm.append_left _ ?_
      -- the rest of the listing: what ties with the last row, and what lies below it
      have hparts : ((below rank before rows).drop n).Perm
          (((below rank before rows).drop n).filter (fun x => rank last ≤ rank x) ++
            ((below rank before rows).drop n).filter fun x => rank x < rank last) := by
        have hsplit := List.filter_append_perm (fun x => decide (rank last ≤ rank x))
          ((below rank before rows).drop n)
        have hneg : (fun x => !decide (rank last ≤ rank x)) =
            fun x => decide (rank x < rank last) := by
          funext x
          rw [← decide_not, decide_eq_decide, not_le]
        rw [hneg] at hsplit
        exact hsplit.symm
      have hkept := hparts.filter keep
      rw [List.filter_append, ← hnext] at hkept
      refine List.Perm.trans ?_ hkept.symm
      refine List.Perm.trans ?_ (hperm.append_left _)
      rw [← List.append_assoc, ← List.append_assoc]
      exact List.perm_append_comm.append_right _
    · have hlen : ((below rank before rows).take n).length ≠ n := by
        rw [List.length_take]
        omega
      rw [if_neg hlen, if_pos (by omega), List.take_of_length_le (by omega)]
      refine ⟨_, rfl, ?_⟩
      rw [List.filter_nil, List.append_nil]

/-- Nothing is passed over exactly when no page ends inside a run of one rank. -/
theorem passedOver_eq_nil_iff (hn : 0 < n) : ∀ (fuel : Nat) (rows : List α),
    Descending rank rows → rows.length < fuel →
      (passedOver rank n fuel rows = [] ↔ Unbroken rank n rows) := by
  intro fuel
  induction fuel with
  | zero =>
    intro rows _ hlt
    exact absurd hlt (Nat.not_lt_zero _)
  | succ fuel ih =>
    intro rows hs hlt
    unfold passedOver
    by_cases hfull : n ≤ rows.length
    · obtain ⟨last, hlast, hget, -, hnext⟩ := last_of_full hn hs hfull
      rw [if_neg (by omega), hlast]
      dsimp only
      rw [List.append_eq_nil_iff]
      have hdrop : Descending rank (rows.drop n) := hs.sublist (List.drop_sublist n rows)
      have hties : (rows.drop n).filter (fun x => rank last ≤ rank x) = [] ↔
          ∀ b, rows[n]? = some b → rank last ≠ rank b := by
        rw [List.filter_eq_nil_iff]
        constructor
        · intro hnone b hb heq
          have hmem : b ∈ rows.drop n := by
            refine List.mem_of_getElem? (i := 0) ?_
            rw [List.getElem?_drop]
            exact hb
          exact hnone b hmem (decide_eq_true (le_of_eq heq))
        · intro hfirst x hx htie
          rw [decide_eq_true_eq] at htie
          obtain ⟨i, hi, rfl⟩ := List.mem_iff_getElem.mp hx
          rw [List.length_drop] at hi
          have hb : rows[n]? = some rows[n] := List.getElem?_eq_getElem (by omega)
          have hlastn : rank rows[n] ≤ rank last := by
            have hpair := (List.pairwise_iff_getElem.mp hs) (n - 1) n (by omega) (by omega)
              (by omega)
            rw [List.getElem?_eq_getElem (by omega)] at hget
            rw [← Option.some.inj hget]
            exact hpair
          have hbelow : rank rows[n] < rank last :=
            lt_of_le_of_ne hlastn (Ne.symm (hfirst _ hb))
          rw [List.getElem_drop] at htie
          rcases Nat.eq_zero_or_pos i with rfl | hpos
          · exact absurd htie (not_le.mpr hbelow)
          · have hpair := (List.pairwise_iff_getElem.mp hs) n (n + i) (by omega) (by omega)
              (by omega)
            exact absurd (le_trans htie hpair) (not_le.mpr hbelow)
      have hrest : (rows.drop n).filter (fun x => rank last ≤ rank x) = [] →
          rows.filter (fun x => rank x < rank last) = rows.drop n := by
        intro hnone
        rw [hnext, List.filter_eq_self]
        intro x hx
        have htie := List.filter_eq_nil_iff.mp hnone x hx
        rw [decide_eq_true_eq, not_le] at htie
        exact decide_eq_true htie
      have hshift : Unbroken rank n rows ↔
          (∀ b, rows[n]? = some b → rank last ≠ rank b) ∧ Unbroken rank n (rows.drop n) := by
        have hone : ∀ k, n + ((k + 1) * n - 1) = (k + 1 + 1) * n - 1 := by
          intro k
          have hpos : n ≤ (k + 1) * n := Nat.le_mul_of_pos_left n (Nat.succ_pos k)
          rw [Nat.succ_mul (k + 1) n]
          omega
        have htwo : ∀ k, n + (k + 1) * n = (k + 1 + 1) * n := by
          intro k
          rw [Nat.succ_mul (k + 1) n]
          omega
        unfold Unbroken
        simp only [List.getElem?_drop, hone, htwo]
        constructor
        · intro h
          refine ⟨fun b hb => h 0 last b (by simpa using hget) (by simpa using hb), ?_⟩
          intro k a b ha hb
          exact h (k + 1) a b ha hb
        · rintro ⟨hfirst, hlater⟩ k a b ha hb
          cases k with
          | zero =>
            have hlasta : rows[n - 1]? = some a := by simpa using ha
            rw [hget] at hlasta
            cases hlasta
            exact hfirst b (by simpa using hb)
          | succ k => exact hlater k a b ha hb
      rw [hshift, ← hties]
      refine and_congr_right fun hnone => ?_
      rw [hrest hnone]
      refine ih (rows.drop n) hdrop ?_
      rw [List.length_drop]
      omega
    · rw [if_pos (by omega)]
      refine ⟨fun _ k a b _ hb => ?_, fun _ => rfl⟩
      have hle : n ≤ (k + 1) * n := Nat.le_mul_of_pos_left n (Nat.succ_pos k)
      rw [List.getElem?_eq_none (by omega)] at hb
      cases hb

/-- Among rows of one rank only the first page is read. -/
theorem passedOver_tied (hn : 0 < n) {u : κ} (htied : ∀ x ∈ rows, rank x = u) (fuel : Nat) :
    passedOver rank n (fuel + 1) rows = rows.drop n := by
  unfold passedOver
  by_cases hfull : n ≤ rows.length
  · rw [if_neg (by omega)]
    cases hlast : (rows.take n).getLast? with
    | none =>
      have hnil := List.getLast?_eq_none_iff.mp hlast
      have hlen := congrArg List.length hnil
      rw [List.length_take, List.length_nil] at hlen
      omega
    | some last =>
      have hu : rank last = u := htied last (List.mem_of_mem_take (List.mem_of_getLast? hlast))
      have hbelow : rows.filter (fun x => rank x < rank last) = [] := by
        rw [List.filter_eq_nil_iff]
        intro x hx hlt
        rw [decide_eq_true_eq, hu, htied x hx] at hlt
        exact lt_irrefl u hlt
      have hties : (rows.drop n).filter (fun x => rank last ≤ rank x) = rows.drop n := by
        rw [List.filter_eq_self]
        intro x hx
        rw [decide_eq_true_eq, hu, htied x (List.mem_of_mem_drop hx)]
      have hnone : passedOver rank n fuel [] = [] := by
        cases fuel with
        | zero => rfl
        | succ fuel =>
          unfold passedOver
          exact if_pos hn
      dsimp only
      rw [hbelow, hties, hnone, List.append_nil]
  · rw [if_pos (by omega), List.drop_eq_nil_of_le (by omega)]

/-! ## An index read from its end -/

section Index

variable (rank)

/-- The rows of a table, which are in the order of their creation, by an index that is read from
its end. -/
def newest (rows : List α) : List α := rows.reverse.insertionSort fun a b => rank b ≤ rank a

/-- All pages of such a reading. -/
def all (n : Nat) (rows : List α) : List α :=
  (walk rank (fun before => (below rank before (newest rank rows)).take n) n (fun _ => true)
    (rows.length + 1) none).getD []

/-- The rows no page of it holds. -/
def leftOut (n : Nat) (rows : List α) : List α :=
  passedOver rank n (rows.length + 1) (newest rank rows)

theorem newest_perm (rows : List α) : (newest rank rows).Perm rows :=
  (List.perm_insertionSort _ _).trans (List.reverse_perm rows)

theorem newest_descending (rows : List α) : Descending rank (newest rank rows) := by
  have : Std.Total fun a b : α => rank b ≤ rank a := ⟨fun a b => le_total (rank b) (rank a)⟩
  have : IsTrans α fun a b : α => rank b ≤ rank a := ⟨fun _ _ _ hab hbc => le_trans hbc hab⟩
  exact List.pairwise_insertionSort _ _

theorem newest_length (rows : List α) : (newest rank rows).length = rows.length :=
  (newest_perm rank rows).length_eq

variable {rank}

theorem below_none (rows : List α) : below rank none rows = rows :=
  List.filter_eq_self.mpr fun _ _ => rfl

/-- **All pages.** They hold every row but those left out. -/
theorem all_perm (hn : 0 < n) (rows : List α) :
    (all rank n rows ++ leftOut rank n rows).Perm rows := by
  have hlt : (below rank none (newest rank rows)).length < rows.length + 1 := by
    rw [below_none, newest_length]
    exact Nat.lt_succ_self _
  obtain ⟨out, hout, hperm⟩ := walk_spec (fun _ => true) hn (newest_descending rank rows)
    (rows.length + 1) none hlt
  rw [below_none, List.filter_true, List.filter_true] at hperm
  rw [all, hout]
  exact hperm.trans (newest_perm rank rows)

theorem leftOut_eq_nil_iff (hn : 0 < n) (rows : List α) :
    leftOut rank n rows = [] ↔ Unbroken rank n (newest rank rows) := by
  refine passedOver_eq_nil_iff hn _ _ (newest_descending rank rows) ?_
  rw [newest_length]
  exact Nat.lt_succ_self _

theorem all_perm_of_unbroken (hn : 0 < n) {rows : List α}
    (h : Unbroken rank n (newest rank rows)) : (all rank n rows).Perm rows := by
  have hperm : (all rank n rows ++ leftOut rank n rows).Perm rows := all_perm hn rows
  rw [(leftOut_eq_nil_iff hn rows).mpr h, List.append_nil] at hperm
  exact hperm

theorem all_subperm (hn : 0 < n) (rows : List α) : (all rank n rows).Subperm rows :=
  (List.sublist_append_left _ (leftOut rank n rows)).subperm.trans (all_perm hn rows).subperm

end Index

end ChainPay.Lib.Pages
