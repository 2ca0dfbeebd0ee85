import Mathlib.Data.List.Basic
import Mathlib.Data.List.DropRight
import Mathlib.Data.List.Nodup
import Mathlib.Data.Nat.ModEq

/-!
A ring of the last `n` values, with the write position taken from a wrapping
8-bit counter. `Tracks r xs` says that `r` is what pushing `xs` one after the
other left behind: the counter is the length modulo 256 and every one of the
last `n` pushed values lies in its own slot. It is kept by `push` as long as `n`
divides 256, and it makes membership exact (`contains_iff`).
-/

namespace ChainPay.Lib

/-- `n` slots and an 8-bit count of the writes so far. -/
structure Ring (α : Type) (n : Nat) where
  slots : Vector α n
  count : UInt8
  deriving DecidableEq, Repr

variable {α : Type} {n : Nat}

/-- Every one of the last `n` values of `xs` lies in the slot of its index modulo `n`. -/
def Recent (slots : Vector α n) (xs : List α) : Prop :=
  ∀ (j : Nat) (x : α), xs[j]? = some x → xs.length ≤ j + n → slots[j % n]? = some x

theorem Recent.nil (slots : Vector α n) : Recent slots [] := by
  intro j x hx
  cases hx

/-- The next write goes to the slot of the length, and evicts only the oldest value. -/
theorem Recent.set {slots : Vector α n} {xs : List α} (hn : 0 < n) (h : Recent slots xs) (a : α) :
    Recent (slots.setIfInBounds (xs.length % n) a) (xs ++ [a]) := by
  intro j x hx hj
  have hjn : j % n < n := Nat.mod_lt _ hn
  simp only [List.length_append, List.length_singleton] at hj
  by_cases hlast : j < xs.length
  · rw [List.getElem?_append_left hlast] at hx
    have hne : xs.length % n ≠ j % n := by
      intro he
      have hm : (xs.length - j) % n = 0 := by
        have := (Nat.modEq_iff_dvd' hlast.le).mp he.symm
        exact Nat.mod_eq_zero_of_dvd this
      have hlt : xs.length - j < n := by omega
      rw [Nat.mod_eq_of_lt hlt] at hm
      omega
    have hkept := h j x hx (by omega)
    simpa [hne, hjn] using hkept
  · have hjl : j < (xs ++ [a]).length := by
      by_contra hc
      rw [List.getElem?_eq_none (by omega)] at hx
      cases hx
    have hje : j = xs.length := by
      simp only [List.length_append, List.length_singleton] at hjl
      omega
    subst hje
    rw [List.getElem?_concat_length] at hx
    simpa [hjn] using hx

/-- The last `n` values are all there. -/
theorem Recent.mem {slots : Vector α n} {xs : List α} (hn : 0 < n) (h : Recent slots xs) {a : α}
    (ha : a ∈ xs.drop (xs.length - n)) : ∃ i, i < n ∧ slots[i]? = some a := by
  rw [List.mem_iff_getElem?] at ha
  obtain ⟨i, hi⟩ := ha
  rw [List.getElem?_drop] at hi
  have hlt : xs.length - n + i < xs.length := by
    by_contra hc
    rw [List.getElem?_eq_none (by omega)] at hi
    cases hi
  exact ⟨_, Nat.mod_lt _ hn, h _ _ hi (by omega)⟩

namespace Ring

/-- All slots hold `z`, nothing was written. -/
def init (n : Nat) (z : α) : Ring α n := ⟨Vector.replicate n z, 0⟩

/-- Write the slot under the counter and advance the counter, wrapping. -/
def push (r : Ring α n) (a : α) : Ring α n :=
  ⟨r.slots.setIfInBounds (r.count.toNat % n) a, r.count + 1⟩

def contains [DecidableEq α] (r : Ring α n) (a : α) : Bool := r.slots.toList.contains a

/-- `r` holds what pushing `xs`, oldest first, into a fresh ring of `z` leaves. -/
structure Tracks (z : α) (r : Ring α n) (xs : List α) : Prop where
  count : r.count.toNat = xs.length % 256
  recent : ∀ (j : Nat) (x : α), xs[j]? = some x → xs.length ≤ j + n → r.slots[j % n]? = some x
  unused : ∀ i, xs.length ≤ i → i < n → r.slots[i]? = some z

theorem tracks_init (n : Nat) (z : α) : Tracks z (init n z) [] where
  count := rfl
  recent := by simp
  unused := by
    intro i _ hi
    simp [init, hi]

theorem push_get (r : Ring α n) (a : α) (i : Nat) (hi : i < n) :
    (r.push a).slots[i]? = if r.count.toNat % n = i then some a else r.slots[i]? := by
  by_cases h : r.count.toNat % n = i
  · simp [push, h, hi]
  · simp [push, h, hi]

theorem push_tracks {z : α} {r : Ring α n} {xs : List α} (hn : 0 < n) (hd : n ∣ 256)
    (h : Tracks z r xs) (a : α) : Tracks z (r.push a) (xs ++ [a]) := by
  have hslot : r.count.toNat % n = xs.length % n := by
    rw [h.count, Nat.mod_mod_of_dvd _ hd]
  constructor
  · have := h.count
    simp only [push, UInt8.toNat_add, List.length_append, List.length_singleton]
    rw [this]
    simp
  · have hset := Recent.set hn h.recent a
    rw [← hslot] at hset
    exact hset
  · intro i hi hin
    simp only [List.length_append, List.length_singleton] at hi
    rw [push_get _ _ _ hin, hslot]
    have hne : xs.length % n ≠ i := by
      rw [Nat.mod_eq_of_lt (by omega)]
      omega
    rw [if_neg hne]
    exact h.unused i (by omega) hin

theorem contains_eq_true_iff [DecidableEq α] (r : Ring α n) (a : α) :
    r.contains a = true ↔ ∃ i, i < n ∧ r.slots[i]? = some a := by
  rw [contains, List.contains_iff_mem, Vector.mem_toList_iff, Vector.mem_iff_getElem]
  constructor
  · rintro ⟨i, hi, he⟩
    exact ⟨i, hi, by rw [Vector.getElem?_eq_getElem hi, he]⟩
  · rintro ⟨i, hi, he⟩
    rw [Vector.getElem?_eq_getElem hi] at he
    exact ⟨i, hi, Option.some.inj he⟩

/-- A push adds at most the pushed value. -/
theorem contains_push [DecidableEq α] {r : Ring α n} {a x : α} (h : (r.push a).contains x = true) :
    r.contains x = true ∨ x = a := by
  rw [contains_eq_true_iff] at h ⊢
  obtain ⟨i, hi, he⟩ := h
  rw [push_get _ _ _ hi] at he
  split at he
  · exact .inr (Option.some.inj he).symm
  · exact .inl ⟨i, hi, he⟩

/-- A fresh ring holds its filler only. -/
theorem contains_init [DecidableEq α] {z x : α} (h : (init n z).contains x = true) : x = z := by
  rw [contains_eq_true_iff] at h
  obtain ⟨i, hi, he⟩ := h
  have hz := (tracks_init n z).unused i (Nat.zero_le i) hi
  rw [hz] at he
  exact (Option.some.inj he).symm

/-- Membership is exact for every value other than the filler: the ring holds the
last `n` pushed values and nothing else. -/
theorem contains_iff [DecidableEq α] {z : α} {r : Ring α n} {xs : List α} (hn : 0 < n)
    (h : Tracks z r xs) {a : α} (ha : a ≠ z) :
    r.contains a = true ↔ a ∈ xs.drop (xs.length - n) := by
  rw [contains_eq_true_iff]
  constructor
  · rintro ⟨i, hi, he⟩
    -- the slot's last writer is the largest index below the length congruent to `i`
    by_cases hsmall : xs.length ≤ i
    · have := h.unused i hsmall hi
      rw [this] at he
      exact absurd (Option.some.inj he).symm ha
    · obtain ⟨j, hj₁, hj₂, hj₃⟩ : ∃ j, j < xs.length ∧ xs.length ≤ j + n ∧ j % n = i := by
        refine ⟨i + n * ((xs.length - 1 - i) / n), ?_, ?_, ?_⟩
        · have := Nat.div_mul_le_self (xs.length - 1 - i) n
          rw [Nat.mul_comm] at this
          omega
        · have := Nat.lt_mul_div_succ (xs.length - 1 - i) hn
          rw [Nat.mul_add] at this
          omega
        · rw [Nat.add_mul_mod_self_left, Nat.mod_eq_of_lt hi]
      have hx := h.recent j _ (List.getElem?_eq_getElem hj₁) hj₂
      rw [hj₃, he] at hx
      rw [List.mem_iff_getElem?]
      refine ⟨j - (xs.length - n), ?_⟩
      rw [List.getElem?_drop, show xs.length - n + (j - (xs.length - n)) = j by omega,
        List.getElem?_eq_getElem hj₁, ← Option.some.inj hx]
  · intro hm
    exact Recent.mem hn h.recent hm

/-! ### Distinct values

A ring into which only values that are not in it are pushed: its used slots are distinct, and
their number is that of the pushes until the ring is full. -/

/-- `m` values, each new to the ring and other than its filler, were pushed. -/
structure Filled (z : α) (r : Ring α n) (m : Nat) : Prop where
  count : r.count.toNat = m % 256
  used : ∀ i (hi : i < n), r.slots[i] ≠ z ↔ i < m
  distinct : ∀ i j (hi : i < n) (hj : j < n), r.slots[i] = r.slots[j] → r.slots[i] ≠ z → i = j

theorem filled_init (n : Nat) (z : α) : Filled z (init n z) 0 where
  count := rfl
  used := by
    intro i hi
    simp [init]
  distinct := by
    intro i j hi hj _ hne
    simp [init] at hne

theorem push_slot (r : Ring α n) (a : α) (i : Nat) (hi : i < n) :
    (r.push a).slots[i] = if r.count.toNat % n = i then a else r.slots[i] := by
  have hget := push_get r a i hi
  rw [Vector.getElem?_eq_getElem hi, Vector.getElem?_eq_getElem hi] at hget
  split at hget
  · rename_i heq
    rw [if_pos heq]
    exact Option.some.inj hget
  · rename_i hne
    rw [if_neg hne]
    exact Option.some.inj hget

theorem push_filled [DecidableEq α] {z a : α} {r : Ring α n} {m : Nat} (hd : n ∣ 256)
    (h : Filled z r m) (ha : a ≠ z) (hnew : r.contains a = false) : Filled z (r.push a) (m + 1) := by
  have hslot : r.count.toNat % n = m % n := by
    rw [h.count, Nat.mod_mod_of_dvd _ hd]
  have habsent : ∀ i (hi : i < n), r.slots[i] ≠ a := by
    intro i hi he
    have hin := (contains_eq_true_iff r a).mpr ⟨i, hi, by rw [Vector.getElem?_eq_getElem hi, he]⟩
    rw [hnew] at hin
    cases hin
  constructor
  · have hcount := h.count
    simp only [push, UInt8.toNat_add]
    rw [hcount]
    simp
  · intro i hi
    rw [push_slot, hslot]
    split
    · rename_i heq
      refine ⟨fun _ => ?_, fun _ => ha⟩
      have hle := Nat.mod_le m n
      omega
    · rename_i hne
      rw [h.used i hi]
      constructor
      · omega
      · intro hlt
        by_contra hge
        have hmod : m % n = m := Nat.mod_eq_of_lt (by omega)
        omega
  · intro i j hi hj heq hne
    rw [push_slot] at heq hne
    rw [push_slot] at heq
    split at heq
    · rename_i hi'
      split at heq
      · rename_i hj'
        exact hi'.symm.trans hj'
      · exact absurd heq.symm (habsent j hj)
    · split at heq
      · exact absurd heq (habsent i hi)
      · rename_i hi' _
        rw [if_neg hi'] at hne
        exact h.distinct i j hi hj heq hne

/-- The slots before the counter are the used ones exactly as long as the ring is not full, or
the counter, wrapped at 256, is past the ring. -/
theorem Filled.front_iff {z : α} {r : Ring α n} {m : Nat} (hd : n ∣ 256) (h : Filled z r m) :
    (∀ x, x ∈ r.slots.toList.take (min r.count.toNat n) ↔ x ∈ r.slots.toList ∧ x ≠ z) ↔
      (m < n ∨ n ≤ m % 256) := by
  have hle : n ≤ 256 := Nat.le_of_dvd (by decide) hd
  have hmem : ∀ x k, x ∈ r.slots.toList.take k ↔ ∃ i, ∃ hi : i < n, i < k ∧ r.slots[i] = x := by
    intro x k
    rw [List.mem_take_iff_getElem]
    simp only [Vector.length_toList, Vector.getElem_toList, lt_inf_iff]
    constructor
    · rintro ⟨i, hi, he⟩
      exact ⟨i, hi.2, hi.1, he⟩
    · rintro ⟨i, hi, hk, he⟩
      exact ⟨i, ⟨hk, hi⟩, he⟩
  have hall : ∀ x, x ∈ r.slots.toList ↔ ∃ i, ∃ hi : i < n, r.slots[i] = x := by
    intro x
    rw [Vector.mem_toList_iff, Vector.mem_iff_getElem]
  rw [h.count]
  constructor
  · intro heq
    by_contra hnot
    obtain ⟨hfull, hwrapped⟩ := not_or.mp hnot
    have hc : m % 256 < n := Nat.lt_of_not_le hwrapped
    -- the slot under the wrapped counter is used, and equal to no slot before it
    have hused : r.slots[m % 256] ≠ z := (h.used _ hc).mpr (by omega)
    obtain ⟨i, hi, hlt, he⟩ := (hmem _ _).mp ((heq _).mpr ⟨(hall _).mpr ⟨_, hc, rfl⟩, hused⟩)
    have hsame := h.distinct i _ hi hc he (by rw [he]; exact hused)
    omega
  · intro hor x
    rw [hmem, hall]
    constructor
    · rintro ⟨i, hi, hlt, rfl⟩
      exact ⟨⟨i, hi, rfl⟩, (h.used i hi).mpr (by omega)⟩
    · rintro ⟨⟨i, hi, rfl⟩, hne⟩
      have hlt := (h.used i hi).mp hne
      exact ⟨i, hi, by omega, rfl⟩

/-! ### Refusing what the ring holds

A ring into which only values are pushed that are new to it and not its filler: it holds
exactly the last `n` of them. -/

/-- The values in use, in the order of their slots. -/
def used [DecidableEq α] (z : α) (r : Ring α n) : List α := r.slots.toList.filter (· ≠ z)

theorem mem_used [DecidableEq α] {z a : α} {r : Ring α n} :
    a ∈ r.used z ↔ r.contains a = true ∧ a ≠ z := by
  rw [used, List.mem_filter, contains, List.contains_iff_mem, decide_eq_true_iff]

theorem Filled.nodup_used [DecidableEq α] {z : α} {r : Ring α n} {m : Nat} (h : Filled z r m) :
    (r.used z).Nodup := by
  unfold Ring.used List.Nodup
  rw [List.pairwise_filter, List.pairwise_iff_getElem]
  intro i j hi hj hij hzi _ heq
  rw [Vector.length_toList] at hi hj
  simp only [Vector.getElem_toList, decide_eq_true_iff] at hzi heq
  have hsame := h.distinct i j hi hj heq hzi
  omega

/-- `r` is what pushing `xs` left, each value other than the filler and not in the ring yet. -/
structure Window (z : α) (r : Ring α n) (xs : List α) : Prop where
  tracks : Tracks z r xs
  filled : Filled z r xs.length
  proper : z ∉ xs
  distinct : (xs.rtake n).Nodup

theorem window_init (n : Nat) (z : α) : Window z (init n z) [] where
  tracks := tracks_init n z
  filled := filled_init n z
  proper := List.not_mem_nil
  distinct := by
    rw [List.rtake_nil]
    exact List.nodup_nil

/-- One more value moves the last `n` by one. -/
theorem nodup_rtake_concat {xs : List α} {a : α} (hd : (xs.rtake n).Nodup)
    (ha : a ∉ xs.rtake n) : ((xs ++ [a]).rtake n).Nodup := by
  cases n with
  | zero =>
    rw [List.rtake_zero]
    exact List.nodup_nil
  | succ n =>
    have hsub : List.Sublist (xs.rtake n) (xs.rtake (n + 1)) := by
      unfold List.rtake
      exact List.drop_sublist_drop_left xs (by omega)
    rw [List.rtake_concat_succ]
    refine List.Nodup.append (hd.sublist hsub) (List.nodup_singleton a) ?_
    intro x hx hxa
    rw [List.mem_singleton] at hxa
    subst hxa
    exact ha (hsub.subset hx)

theorem push_window [DecidableEq α] {z a : α} {r : Ring α n} {xs : List α} (hn : 0 < n)
    (hd : n ∣ 256) (h : Window z r xs) (ha : a ≠ z) (hnew : r.contains a = false) :
    Window z (r.push a) (xs ++ [a]) where
  tracks := push_tracks hn hd h.tracks a
  filled := by
    rw [List.length_append, List.length_singleton]
    exact push_filled hd h.filled ha hnew
  proper := by
    intro hz
    rw [List.mem_append, List.mem_singleton] at hz
    rcases hz with hz | hz
    · exact h.proper hz
    · exact ha hz.symm
  distinct := by
    refine nodup_rtake_concat h.distinct ?_
    intro hmem
    have hin := (contains_iff hn h.tracks ha).mpr hmem
    rw [hnew] at hin
    cases hin

/-- The used slots hold the last `n` values, in some order. -/
theorem Window.used_perm [DecidableEq α] {z : α} {r : Ring α n} {xs : List α} (hn : 0 < n)
    (h : Window z r xs) : (r.used z).Perm (xs.rtake n) := by
  rw [List.perm_ext_iff_of_nodup h.filled.nodup_used h.distinct]
  intro a
  rw [mem_used]
  constructor
  · rintro ⟨hin, ha⟩
    exact (contains_iff hn h.tracks ha).mp hin
  · intro hmem
    have ha : a ≠ z := by
      rintro rfl
      exact h.proper (List.mem_of_mem_drop hmem)
    exact ⟨(contains_iff hn h.tracks ha).mpr hmem, ha⟩

end Ring

end ChainPay.Lib
