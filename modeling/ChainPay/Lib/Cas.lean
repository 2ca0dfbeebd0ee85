import ChainPay.Lib.Table

/-!
Versioned rows written by compare-and-set. A write names the revision it read (or
none, to create the row); it lands only if that is still the stored revision, and
the stored revision then grows by one. `Newer` relates a slot to what it may hold
later, and `cas_snapshot` is the point of it: a write that lands against the
revision of an earlier read finds exactly the row that was read.
-/

namespace ChainPay.Lib

structure Row (α : Type) where
  rev : Nat
  value : α
  updated : Nat
  deriving DecidableEq, Repr

/-- What a write reports: the stored row, or the row it lost against. -/
inductive Put (α : Type) where
  | written (row : Row α)
  | conflict (current : Option (Row α))
  deriving DecidableEq, Repr

variable {α κ : Type}

/-- Create (`expected = none`) or compare-and-set one slot. -/
def cas (cur : Option (Row α)) (v : α) (expected : Option Nat) (updated : Nat) :
    Option (Row α) × Put α :=
  if cur.map Row.rev = expected then
    let row := ⟨expected.elim 1 (· + 1), v, updated⟩
    (some row, .written row)
  else (cur, .conflict cur)

/-- A row is still there later, either the same or with a higher revision. -/
def Newer (cur later : Option (Row α)) : Prop :=
  ∀ r, cur = some r → ∃ r', later = some r' ∧ (r' = r ∨ r.rev < r'.rev)

theorem Newer.refl (cur : Option (Row α)) : Newer cur cur :=
  fun r hr => ⟨r, hr, .inl rfl⟩

theorem Newer.trans {a b c : Option (Row α)} (hab : Newer a b) (hbc : Newer b c) : Newer a c := by
  intro r hr
  obtain ⟨r₁, hr₁, h₁⟩ := hab r hr
  obtain ⟨r₂, hr₂, h₂⟩ := hbc r₁ hr₁
  refine ⟨r₂, hr₂, ?_⟩
  rcases h₁ with rfl | h₁
  · exact h₂
  · rcases h₂ with rfl | h₂
    · exact .inr h₁
    · exact .inr (Nat.lt_trans h₁ h₂)

/-- What a write does: it lands on the expected revision or changes nothing. -/
theorem cas_cases (cur : Option (Row α)) (v : α) (expected : Option Nat) (updated : Nat) :
    (cur.map Row.rev = expected ∧
      cas cur v expected updated =
        (some ⟨expected.elim 1 (· + 1), v, updated⟩,
          .written ⟨expected.elim 1 (· + 1), v, updated⟩)) ∨
      cas cur v expected updated = (cur, .conflict cur) := by
  by_cases h : cur.map Row.rev = expected
  · exact .inl ⟨h, by simp [cas, h]⟩
  · exact .inr (by simp [cas, h])

/-- **A landed write saw the stored row.** A write against the revision of the row
`r` read earlier either replaces exactly `r` or changes nothing. -/
theorem cas_snapshot {cur : Option (Row α)} {r : Row α} (h : Newer (some r) cur) (v : α)
    (updated : Nat) :
    (cur = some r ∧ cas cur v (some r.rev) updated =
        (some ⟨r.rev + 1, v, updated⟩, .written ⟨r.rev + 1, v, updated⟩)) ∨
      cas cur v (some r.rev) updated = (cur, .conflict cur) := by
  rcases cas_cases cur v (some r.rev) updated with ⟨he, hw⟩ | hc
  · obtain ⟨r', rfl, hr'⟩ := h r rfl
    have hrev : r'.rev = r.rev := Option.some.inj he
    rcases hr' with rfl | hlt
    · exact .inl ⟨rfl, hw⟩
    · omega
  · exact .inr hc

/-- A create lands on an empty slot only. -/
theorem cas_create (cur : Option (Row α)) (v : α) (updated : Nat) :
    (cur = none ∧ cas cur v none updated = (some ⟨1, v, updated⟩, .written ⟨1, v, updated⟩)) ∨
      ∃ r, cur = some r ∧ cas cur v none updated = (cur, .conflict (some r)) := by
  cases cur with
  | none => exact .inl ⟨rfl, by simp [cas]⟩
  | some r => exact .inr ⟨r, rfl, by simp [cas]⟩

variable [DecidableEq κ]

/-- The same on one key of a table. -/
def put (t : Table κ (Row α)) (k : κ) (v : α) (expected : Option Nat) (updated : Nat) :
    Table κ (Row α) × Put α :=
  match cas (t.lookup k) v expected updated with
  | (some row, .written row') => (t.insert k row, .written row')
  | (_, p) => (t, p)

theorem put_create (t : Table κ (Row α)) (k : κ) (v : α) (updated : Nat) :
    (t.lookup k = none ∧
      put t k v none updated = (t.insert k ⟨1, v, updated⟩, .written ⟨1, v, updated⟩)) ∨
      ∃ r, t.lookup k = some r ∧ put t k v none updated = (t, .conflict (some r)) := by
  rcases cas_create (t.lookup k) v updated with ⟨hn, hw⟩ | ⟨r, hr, hc⟩
  · exact .inl ⟨hn, by simp only [put, hw]⟩
  · refine .inr ⟨r, hr, ?_⟩
    rw [hr] at hc
    simp only [put, hr, hc]

theorem put_snapshot {t : Table κ (Row α)} {k : κ} {r : Row α}
    (h : Newer (some r) (t.lookup k)) (v : α) (updated : Nat) :
    (t.lookup k = some r ∧ put t k v (some r.rev) updated =
        (t.insert k ⟨r.rev + 1, v, updated⟩, .written ⟨r.rev + 1, v, updated⟩)) ∨
      put t k v (some r.rev) updated = (t, .conflict (t.lookup k)) := by
  rcases cas_snapshot h v updated with ⟨he, hw⟩ | hc
  · exact .inl ⟨he, by simp only [put, hw]⟩
  · refine .inr ?_
    cases hl : t.lookup k with
    | none =>
      rw [hl] at hc
      simp only [put, hl, hc]
    | some r' =>
      rw [hl] at hc
      simp only [put, hl, hc]

/-- Writing one key leaves every slot the same or newer. -/
theorem insert_newer {t : Table κ (Row α)} {k : κ} {row : Row α}
    (h : Newer (t.lookup k) (some row)) (j : κ) :
    Newer (t.lookup j) ((t.insert k row).lookup j) := by
  by_cases hj : j = k
  · subst hj
    rw [AList.lookup_insert]
    exact h
  · rw [AList.lookup_insert_ne hj]
    exact Newer.refl _

end ChainPay.Lib
