import ChainPay.Card.Standing

/-!
The member list of a card's permission. The list is the first `member_count` slots of two
parallel arrays; `init_permission`, `update_permission` and the rotation in `set_policy`
edit them with checks of their own. `Roster` is what all of them keep, `Edited` is what
each of them does to the list.
-/

namespace ChainPay.Card
open ChainPay.Lib

/-! ## Slots -/

section Slots

variable {α : Type} {v : Vector α MAX_MEMBERS} {n : Nat}

theorem take_append_slot (hn : n < MAX_MEMBERS) (x : α) :
    (v.setIfInBounds n x).toList.take (n + 1) = v.toList.take n ++ [x] := by
  apply List.ext_getElem
  · simp only [List.length_take, Vector.length_toList, List.length_append, List.length_singleton]
    omega
  · intro i h₁ h₂
    simp only [List.length_take, Vector.length_toList] at h₁
    rw [List.getElem_take, Vector.getElem_toList, List.getElem_append]
    by_cases hi : i < n
    · have hlen : i < (v.toList.take n).length := by
        simp only [List.length_take, Vector.length_toList]
        omega
      rw [dif_pos hlen, List.getElem_take, Vector.getElem_toList,
        Vector.getElem_setIfInBounds_ne (by omega) (by omega)]
    · have hlast : i = n := by omega
      subst hlast
      have hlen : ¬ i < (v.toList.take i).length := by
        simp only [List.length_take, Vector.length_toList]
        omega
      rw [dif_neg hlen, Vector.getElem_setIfInBounds_self, List.getElem_singleton]

theorem take_shiftDown {blank : α} {i : Nat} (hi : i < n) (hn : n ≤ MAX_MEMBERS) :
    (shiftDown v blank i n).toList.take (n - 1) = (v.toList.take n).eraseIdx i := by
  apply List.ext_getElem
  · simp only [List.length_take, Vector.length_toList, List.length_eraseIdx]
    rw [if_pos (by omega)]
    omega
  · intro j h₁ h₂
    simp only [List.length_take, Vector.length_toList] at h₁
    rw [List.getElem_take, Vector.getElem_toList, List.getElem_eraseIdx]
    simp only [shiftDown, Vector.getElem_ofFn]
    by_cases hj : j < i
    · rw [if_neg (by omega), if_neg (by omega), dif_pos hj, List.getElem_take,
        Vector.getElem_toList]
      rfl
    · have hnext : j + 1 < MAX_MEMBERS := by omega
      rw [if_pos (by omega), dif_neg hj, List.getElem_take, Vector.getElem_toList,
        Vector.getElem?_eq_getElem hnext, Option.getD_some]

/-- The first two slots, and the others, after `init_permission` filled them. -/
theorem first_slots (v : Vector α MAX_MEMBERS) (x y : α) :
    ((v.set 0 x).set 1 y)[0] = x ∧ ((v.set 0 x).set 1 y)[1] = y ∧
      ∀ i (h : i < MAX_MEMBERS), 2 ≤ i → ((v.set 0 x).set 1 y)[i] = v[i] := by
  refine ⟨?_, Vector.getElem_set_self _, ?_⟩
  · rw [Vector.getElem_set_ne _ _ (by decide)]
    exact Vector.getElem_set_self _
  · intro i h hi
    rw [Vector.getElem_set_ne _ _ (by omega), Vector.getElem_set_ne _ _ (by omega)]

end Slots

/-! ## The roster -/

/-- Owner, authorizer and up to four readers, and nothing behind them. -/
structure Roster (p : CardPolicy) : Prop where
  two_le : 2 ≤ p.memberCount
  le_max : p.memberCount ≤ MAX_MEMBERS
  distinct : p.memberList.Nodup
  nonzero : 0 ∉ p.memberList
  owner : p.members[0] = p.owner ∧ p.memberFlags[0] = OWNER_FLAGS
  authorizer : p.memberFlags[1] = AUTHORIZER_FLAGS ∧ (p.isSet → p.members[1] = p.authorizer)
  readers : ∀ i (h : i < MAX_MEMBERS), 2 ≤ i → i < p.memberCount → p.memberFlags[i] = READER_FLAGS
  rest : ∀ i (h : i < MAX_MEMBERS), p.memberCount ≤ i →
    p.members[i] = 0 ∧ p.memberFlags[i] = 0

/-- No member yet. -/
structure Unlisted (p : CardPolicy) : Prop where
  count : p.memberCount = 0
  members : p.members = Vector.replicate _ 0
  flags : p.memberFlags = Vector.replicate _ 0
  unset : ¬ p.isSet

section Roster

variable {p p' : CardPolicy}

theorem memberList_length (h : p.memberCount ≤ MAX_MEMBERS) :
    p.memberList.length = p.memberCount := by
  simp only [CardPolicy.memberList, List.length_take, Vector.length_toList]
  omega

theorem getElem_memberList {i : Nat} (hi : i < p.memberList.length) (hm : i < MAX_MEMBERS) :
    p.memberList[i] = p.members[i] := by
  simp only [CardPolicy.memberList, List.getElem_take, Vector.getElem_toList]

theorem Roster.length (h : Roster p) : p.memberList.length = p.memberCount :=
  memberList_length h.le_max

/-- The list read from its head: the owner, the authorizer's slot, the readers. -/
theorem Roster.list_eq (h : Roster p) :
    p.memberList = p.owner :: p.members[1] :: p.memberList.drop 2 := by
  have hlen := h.length
  have htwo := h.two_le
  have h0 : p.memberList[0] = p.owner := by
    rw [getElem_memberList _ (by decide)]
    exact h.owner.1
  have h1 : p.memberList[1] = p.members[1] := getElem_memberList _ (by decide)
  rw [← h0, ← h1, List.getElem_cons_drop, List.getElem_cons_drop, List.drop_zero]

theorem memberList_congr (h : p'.standing = p.standing) : p'.memberList = p.memberList := by
  simp only [CardPolicy.standing, Standing.mk.injEq] at h
  obtain ⟨-, -, -, hcount, hmembers, -, -⟩ := h
  simp only [CardPolicy.memberList, hcount, hmembers]

theorem Roster.congr (h : p'.standing = p.standing) (hr : Roster p) : Roster p' := by
  have hlist := memberList_congr h
  simp only [CardPolicy.standing, Standing.mk.injEq] at h
  obtain ⟨-, howner, hauth, hcount, hmembers, hflags, -⟩ := h
  exact
    { two_le := by rw [hcount]; exact hr.two_le
      le_max := by rw [hcount]; exact hr.le_max
      distinct := by rw [hlist]; exact hr.distinct
      nonzero := by rw [hlist]; exact hr.nonzero
      owner := by simp only [hmembers, hflags, howner]; exact hr.owner
      authorizer := by
        simp only [CardPolicy.isSet, hmembers, hflags, hauth]
        exact hr.authorizer
      readers := by simp only [hflags, hcount]; exact hr.readers
      rest := by simp only [hmembers, hflags, hcount]; exact hr.rest }

theorem Unlisted.congr (h : p'.standing = p.standing) (hu : Unlisted p) : Unlisted p' := by
  simp only [CardPolicy.standing, Standing.mk.injEq] at h
  obtain ⟨-, -, hauth, hcount, hmembers, hflags, -⟩ := h
  refine ⟨hcount.trans hu.count, hmembers.trans hu.members, hflags.trans hu.flags, ?_⟩
  unfold CardPolicy.isSet
  rw [hauth]
  exact hu.unset

theorem unlisted_zeroed (binding owner : Pubkey) : Unlisted (zeroedPolicy binding owner) :=
  ⟨rfl, rfl, rfl, fun h => h rfl⟩

/-! ## The edits -/

theorem firstMembers_list (p : CardPolicy) (owner authorizer : Pubkey) :
    (firstMembers p owner authorizer).memberList = [owner, authorizer] := by
  apply List.ext_getElem
  · exact memberList_length (show 2 ≤ MAX_MEMBERS by decide)
  · intro i h₁ h₂
    simp only [List.length_cons, List.length_nil] at h₂
    rw [getElem_memberList h₁ (show i < 6 by omega)]
    have hi : i = 0 ∨ i = 1 := by omega
    rcases hi with rfl | rfl
    · exact (first_slots p.members owner authorizer).1
    · exact (first_slots p.members owner authorizer).2.1

theorem Unlisted.first (hu : Unlisted p) {a : Pubkey} (hown : p.owner ≠ 0)
    (ha : a ≠ 0 ∧ a ≠ p.owner) : Roster (firstMembers p p.owner a) := by
  have hlist := firstMembers_list p p.owner a
  obtain ⟨hm0, hm1, hm⟩ := first_slots p.members p.owner a
  obtain ⟨hf0, hf1, hf⟩ := first_slots p.memberFlags OWNER_FLAGS AUTHORIZER_FLAGS
  exact
    { two_le := Nat.le_refl 2
      le_max := by change 2 ≤ 6; omega
      distinct := by
        rw [hlist]
        simpa using ha.2.symm
      nonzero := by
        rw [hlist]
        simpa using ⟨hown.symm, ha.1.symm⟩
      owner := ⟨hm0, hf0⟩
      authorizer := ⟨hf1, fun hs => absurd hs hu.unset⟩
      readers := by
        intro i h hi hlt
        change i < 2 at hlt
        omega
      rest := by
        intro i h hi
        change 2 ≤ i at hi
        refine ⟨(hm i h hi).trans ?_, (hf i h hi).trans ?_⟩
        · simp only [hu.members, Vector.getElem_replicate]
        · simp only [hu.flags, Vector.getElem_replicate] }

/-- A reader goes to the end of the list. -/
theorem addReader_list {k : Pubkey} {b : UInt8} {x : Pubkey}
    (h : editMembers p (.addReader k) = .ok (p', x, b)) :
    p'.memberList = p.memberList ++ [k] := by
  simp only [editMembers, bind_eq_ok, exists_unit, ensure_eq_ok, pure_eq_ok, Prod.mk.injEq] at h
  obtain ⟨-, -, hlt, rfl, -⟩ := h
  exact take_append_slot hlt k

theorem Roster.add (hr : Roster p) {k : Pubkey} {b : UInt8} {x : Pubkey}
    (h : editMembers p (.addReader k) = .ok (p', x, b)) : Roster p' := by
  have hlist := addReader_list h
  simp only [editMembers, bind_eq_ok, exists_unit, ensure_eq_ok, pure_eq_ok, Prod.mk.injEq] at h
  obtain ⟨hk, hnew, hlt, rfl, -⟩ := h
  have htwo := hr.two_le
  exact
    { two_le := Nat.le_succ_of_le htwo
      le_max := hlt
      distinct := by
        rw [hlist, List.nodup_append]
        refine ⟨hr.distinct, List.nodup_singleton k, ?_⟩
        intro a ha b hb hab
        rw [List.mem_singleton] at hb
        exact hnew (hb ▸ hab ▸ ha)
      nonzero := by
        rw [hlist, List.mem_append, List.mem_singleton]
        rintro (h0 | h0)
        · exact hr.nonzero h0
        · exact hk h0.symm
      owner := by
        rw [Vector.getElem_setIfInBounds_ne _ (by omega),
          Vector.getElem_setIfInBounds_ne _ (by omega)]
        exact hr.owner
      authorizer := by
        rw [Vector.getElem_setIfInBounds_ne _ (by omega),
          Vector.getElem_setIfInBounds_ne _ (by omega)]
        exact hr.authorizer
      readers := by
        intro i h hi hcount
        change i < p.memberCount + 1 at hcount
        by_cases hlast : i = p.memberCount
        · subst hlast
          exact Vector.getElem_setIfInBounds_self _
        · rw [Vector.getElem_setIfInBounds_ne _ (by omega)]
          exact hr.readers i h hi (by omega)
      rest := by
        intro i h hi
        change p.memberCount + 1 ≤ i at hi
        rw [Vector.getElem_setIfInBounds_ne _ (by omega),
          Vector.getElem_setIfInBounds_ne _ (by omega)]
        exact hr.rest i h (by omega) }

/-- Removing a reader keeps the order of the others. -/
theorem removeReader_list (hr : Roster p) {k : Pubkey} {b : UInt8} {x : Pubkey}
    (h : editMembers p (.removeReader k) = .ok (p', x, b)) :
    p'.memberList = p.memberList.erase k := by
  simp only [editMembers, bind_eq_ok, exists_unit, okOr_eq_ok, ensure_eq_ok, pure_eq_ok,
    Prod.mk.injEq] at h
  obtain ⟨index, hfind, hindex, rfl, -⟩ := h
  obtain ⟨hlt, hk, -⟩ := List.findIdx?_eq_some_iff_getElem.mp hfind
  have hcount : index < p.memberCount := by
    rw [← hr.length]
    exact hlt
  have hk' : p.memberList[index] = k := of_decide_eq_true hk
  calc (shiftDown p.members 0 index p.memberCount).toList.take (p.memberCount - 1)
      = p.memberList.eraseIdx index := take_shiftDown hcount hr.le_max
    _ = p.memberList.erase k := by
      rw [← hk']
      exact (hr.distinct.erase_getElem index hlt).symm

theorem shiftDown_low {α : Type} {v : Vector α MAX_MEMBERS} {blank : α} {i n j : Nat}
    (hj : j < MAX_MEMBERS) (hlow : j < i) (hi : i < n) : (shiftDown v blank i n)[j] = v[j] := by
  simp only [shiftDown, Vector.getElem_ofFn]
  rw [if_neg (by omega), if_neg (by omega)]
  rfl

theorem shiftDown_high {α : Type} {v : Vector α MAX_MEMBERS} {blank : α} {i n j : Nat}
    (hj : j < MAX_MEMBERS) (hhigh : n ≤ j + 1) :
    (shiftDown v blank i n)[j] = if j + 1 = n then blank else v[j] := by
  simp only [shiftDown, Vector.getElem_ofFn]
  rw [if_neg (by omega)]
  rfl

theorem Roster.remove (hr : Roster p) {k : Pubkey} {b : UInt8} {x : Pubkey}
    (h : editMembers p (.removeReader k) = .ok (p', x, b)) : Roster p' := by
  have hlist := removeReader_list hr h
  simp only [editMembers, bind_eq_ok, exists_unit, okOr_eq_ok, ensure_eq_ok, pure_eq_ok,
    Prod.mk.injEq] at h
  obtain ⟨index, hfind, hindex, rfl, -⟩ := h
  obtain ⟨hlt, -, -⟩ := List.findIdx?_eq_some_iff_getElem.mp hfind
  rw [hr.length] at hlt
  have hmax := hr.le_max
  exact
    { two_le := by change 2 ≤ p.memberCount - 1; omega
      le_max := by change p.memberCount - 1 ≤ MAX_MEMBERS; omega
      distinct := by
        rw [hlist]
        exact hr.distinct.erase k
      nonzero := by
        rw [hlist]
        exact fun h0 => hr.nonzero (List.mem_of_mem_erase h0)
      owner := by
        rw [shiftDown_low _ (by omega) hlt, shiftDown_low _ (by omega) hlt]
        exact hr.owner
      authorizer := by
        rw [shiftDown_low _ (by omega) hlt, shiftDown_low _ (by omega) hlt]
        exact hr.authorizer
      readers := by
        intro i h hi hcount
        change i < p.memberCount - 1 at hcount
        by_cases hlow : i < index
        · rw [shiftDown_low _ hlow hlt]
          exact hr.readers i h hi (by omega)
        · have hnext : i + 1 < MAX_MEMBERS := by omega
          simp only [shiftDown, Vector.getElem_ofFn]
          rw [if_pos (by omega), Vector.getElem?_eq_getElem hnext, Option.getD_some]
          exact hr.readers (i + 1) hnext (by omega) (by omega)
      rest := by
        intro i h hi
        change p.memberCount - 1 ≤ i at hi
        rw [shiftDown_high h (by omega), shiftDown_high h (by omega)]
        by_cases hlast : i + 1 = p.memberCount
        · rw [if_pos hlast, if_pos hlast]
          exact ⟨rfl, rfl⟩
        · rw [if_neg hlast, if_neg hlast]
          exact hr.rest i h (by omega) }

theorem applyPolicyArgs_list (p : CardPolicy) (args : PolicyArgs) :
    (applyPolicyArgs p args).memberList = p.memberList := rfl

/-- The terms may name the authorizer of slot 1. -/
theorem Roster.apply (hr : Roster p) {args : PolicyArgs} (h : p.members[1] = args.authorizer) :
    Roster (applyPolicyArgs p args) :=
  ⟨hr.two_le, hr.le_max, hr.distinct, hr.nonzero, hr.owner, ⟨hr.authorizer.1, fun _ => h⟩,
    hr.readers, hr.rest⟩

/-- A rotation writes slot 1 and nothing else. -/
theorem rotateAuthorizer_list (hr : Roster p) {k : Pubkey} (h : rotateAuthorizer p k = .ok p') :
    p'.memberList = p.memberList.set 1 k := by
  have hhead := hr.list_eq
  unfold rotateAuthorizer at h
  split at h
  · rename_i hk
    cases h
    rw [hhead, ← hk]
    rfl
  · simp only [bind_eq_ok, exists_unit, ensure_eq_ok, pure_eq_ok] at h
    obtain ⟨-, rfl⟩ := h
    simp only [CardPolicy.memberList, Vector.toList_set, List.take_set]

theorem Roster.rotate (hr : Roster p) {args : PolicyArgs}
    (hk : args.authorizer ≠ 0 ∧ args.authorizer ≠ p.owner)
    (h : rotateAuthorizer p args.authorizer = .ok p') : Roster (applyPolicyArgs p' args) := by
  have hlist := rotateAuthorizer_list hr h
  have hhead := hr.list_eq
  unfold rotateAuthorizer at h
  split at h
  · rename_i hsame
    cases h
    exact hr.apply hsame
  · simp only [bind_eq_ok, exists_unit, ensure_eq_ok, pure_eq_ok] at h
    obtain ⟨hfree, rfl⟩ := h
    -- the owner, the new authorizer, the readers
    rw [hhead] at hlist
    change _ = p.owner :: args.authorizer :: p.memberList.drop 2 at hlist
    have hdistinct := hr.distinct
    have hnonzero := hr.nonzero
    rw [hhead] at hdistinct hnonzero
    simp only [List.nodup_cons, List.mem_cons, not_or] at hdistinct hnonzero
    obtain ⟨⟨-, howner⟩, -, hreaders⟩ := hdistinct
    exact
      { two_le := hr.two_le
        le_max := hr.le_max
        distinct := by
          rw [show (applyPolicyArgs { p with members := p.members.set 1 args.authorizer }
            args).memberList = _ from hlist]
          simp only [List.nodup_cons, List.mem_cons, not_or]
          exact ⟨⟨hk.2.symm, howner⟩, hfree, hreaders⟩
        nonzero := by
          rw [show (applyPolicyArgs { p with members := p.members.set 1 args.authorizer }
            args).memberList = _ from hlist]
          simp only [List.mem_cons, not_or]
          exact ⟨hnonzero.1, hk.1.symm, hnonzero.2.2⟩
        owner := by
          simp only [applyPolicyArgs]
          rw [Vector.getElem_set_ne _ _ (by decide)]
          exact hr.owner
        authorizer := ⟨hr.authorizer.1, fun _ => Vector.getElem_set_self _⟩
        readers := hr.readers
        rest := by
          intro i h hi
          have htwo := hr.two_le
          change p.memberCount ≤ i at hi
          simp only [applyPolicyArgs]
          rw [Vector.getElem_set_ne _ _ (by omega)]
          exact hr.rest i h hi }

end Roster

/-! ## Runs -/

/-- The member list before and after `init_permission`. -/
def OnList (permitted : Bool) (p : CardPolicy) : Prop := if permitted then Roster p else Unlisted p

structure Listed (s : State) (permitted : Bool) : Prop where
  owned : s.policy.owner = s.binding.owner
  nonzero : s.policy.owner ≠ 0
  list : OnList permitted s.policy

/-- `init_permission` writes the list and `wipe_card` takes it away. -/
def Instr.permission : Instr → List Bool
  | .initPermission .. => [true]
  | .wipeCard .. => [false]
  | _ => []

/-- What the instruction does to the list of members. -/
def Edited (s : State) (call : Call) (s' : State) : Prop :=
  match call.instr with
  | .initPermission o a =>
    s'.policy.memberList = if s.policy.memberCount = 0 then [o, a] else s.policy.memberList
  | .updatePermission _ (.addReader k) _ => s'.policy.memberList = s.policy.memberList ++ [k]
  | .updatePermission _ (.removeReader k) _ => s'.policy.memberList = s.policy.memberList.erase k
  | .setPolicy _ args _ => s'.policy.memberList = s.policy.memberList.set 1 args.authorizer
  | .wipeCard .. => s'.policy.memberList = []
  | _ => s'.policy.memberList = s.policy.memberList

section Runs

variable {ctx : Ctx} {k : Pubkey} {s s' : State} {b : Bool}

theorem OnList.roster {p : CardPolicy} (hp : OnList b p) (h : 2 ≤ p.memberCount) :
    b = true ∧ Roster p := by
  cases b with
  | true => exact ⟨rfl, hp⟩
  | false =>
    have hzero := (show Unlisted p from hp).count
    omega

theorem OnList.congr {p p' : CardPolicy} (h : p'.standing = p.standing) (hp : OnList b p) :
    OnList b p' := by
  cases b with
  | true => exact Roster.congr h hp
  | false => exact Unlisted.congr h hp

theorem initPermission_listed {a : Pubkey} (hs : OnList b s.policy) (hown : s.policy.owner ≠ 0)
    (h : initPermission ctx k a s = .ok s') :
    Roster s'.policy ∧
      s'.policy.memberList = if s.policy.memberCount = 0 then [k, a] else s.policy.memberList := by
  simp only [initPermission, bind_eq_ok, exists_unit, ownerContext_eq_ok, ensure_eq_ok] at h
  obtain ⟨⟨-, -, rfl⟩, ha, h⟩ := h
  split at h
  · rename_i hzero
    simp only [bind_eq_ok, exists_unit, pure_eq_ok] at h
    obtain ⟨-, p, hp, rfl⟩ := h
    have hstand := appendLedger_standing hp
    have hun : Unlisted s.policy := by
      cases b with
      | false => exact hs
      | true =>
        have htwo := (show Roster s.policy from hs).two_le
        omega
    refine ⟨(hun.first hown ha).congr hstand, ?_⟩
    rw [if_pos hzero]
    exact (memberList_congr hstand).trans (firstMembers_list _ _ _)
  · rename_i hne
    simp only [bind_eq_ok, exists_unit, ensure_eq_ok, pure_eq_ok] at h
    obtain ⟨-, -, rfl⟩ := h
    cases b with
    | false => exact absurd (show Unlisted s.policy from hs).count hne
    | true => exact ⟨hs, (if_neg hne).symm⟩

theorem updatePermission_listed {op : PermissionOp} {rest : List AccountRef}
    (hs : OnList b s.policy) (h : updatePermission ctx k op rest s = .ok s') :
    OnList b s'.policy ∧ Edited s ⟨ctx, .updatePermission k op rest⟩ s' := by
  simp only [updatePermission, bind_eq_ok, exists_unit, ensure_eq_ok, pure_eq_ok] at h
  obtain ⟨-, htwo, ⟨p, key, code⟩, hedit, -, -, -, p', hp', rfl⟩ := h
  obtain ⟨rfl, hr⟩ := hs.roster htwo
  have hstand := appendLedger_standing hp'
  have hlist := memberList_congr hstand
  cases op with
  | addReader x => exact ⟨(hr.add hedit).congr hstand, hlist.trans (addReader_list hedit)⟩
  | removeReader x =>
    exact ⟨(hr.remove hedit).congr hstand, hlist.trans (removeReader_list hr hedit)⟩

theorem setPolicy_listed {args : PolicyArgs} {first : Option Pubkey} (hs : OnList b s.policy)
    (h : setPolicy ctx k args first s = .ok s') :
    OnList b s'.policy ∧ s'.policy.memberList = s.policy.memberList.set 1 args.authorizer := by
  simp only [setPolicy, bind_eq_ok, exists_unit, ownerContext_eq_ok, ensure_eq_ok,
    pure_eq_ok] at h
  obtain ⟨⟨-, -, rfl⟩, htwo, -, hargs, -, -, p, hp, v, -, q, -, -, p', hp', rfl⟩ := h
  obtain ⟨rfl, hr⟩ := hs.roster htwo
  obtain ⟨-, -, hk⟩ := validatePolicyArgs_ok hargs
  have hledger := appendLedger_standing hp'
  have hstand : p'.standing = (applyPolicyArgs p args).standing := hledger
  have hlist := memberList_congr hstand
  rw [applyPolicyArgs_list] at hlist
  exact ⟨(hr.rotate hk hp).congr hstand, hlist.trans (rotateAuthorizer_list hr hp)⟩

theorem restore_listed {a : Pubkey} {args : RestoreArgs} (hs : OnList b s.policy)
    (h : restore ctx k a args s = .ok s') :
    OnList b s'.policy ∧ s'.policy.memberList = s.policy.memberList := by
  simp only [restore, bind_eq_ok, exists_unit, ensure_eq_ok, pure_eq_ok] at h
  obtain ⟨-, -, -, -, -, -, -, -, ⟨htwo, hsame⟩, -, v, -, stop, -, p, hp, rfl⟩ := h
  obtain ⟨rfl, hr⟩ := hs.roster htwo
  have hledger := appendLedger_standing hp
  have hstand : p.standing = (applyPolicyArgs s.policy args.policy).standing := hledger
  have hlist := memberList_congr hstand
  rw [applyPolicyArgs_list] at hlist
  exact ⟨(hr.apply hsame).congr hstand, hlist⟩

theorem wipeCard_listed {rest : List AccountRef} (h : wipeCard ctx k rest s = .ok s') :
    Unlisted s'.policy ∧ s'.policy.memberList = [] := by
  simp only [wipeCard, bind_eq_ok, exists_unit, pure_eq_ok] at h
  obtain ⟨-, -, -, -, -, ⟨s₁, n⟩, hclose, -, -, rfl⟩ := h
  exact ⟨unlisted_zeroed _ _, rfl⟩

variable [Runtime]

/-- What one instruction does to the list. -/
theorem exec_onList {call : Call} (h : exec s call = .ok s') (hs : OnList b s.policy)
    (hown : s.policy.owner ≠ 0) :
    OnList (call.instr.permission.getLastD b) s'.policy ∧ Edited s call s' := by
  by_cases hq : call.instr.isClerical = true
  · obtain ⟨ctx, instr⟩ := call
    cases instr with
    | initPermission o a => exact initPermission_listed hs hown h
    | updatePermission o op rest => exact updatePermission_listed hs h
    | setPolicy o args first => exact setPolicy_listed hs h
    | restore o a args => exact restore_listed hs h
    | checkpoint key m n =>
      simp only [exec, checkpoint, bind_eq_ok, exists_unit, pure_eq_ok] at h
      obtain ⟨-, -, _, -, -, -, -, rfl⟩ := h
      refine ⟨?_, rfl⟩
      cases b with
      | true =>
        obtain ⟨h1, h2, h3, h4, h5, h6, h7, h8⟩ := (show Roster s.policy from hs)
        exact ⟨h1, h2, h3, h4, h5, h6, h7, h8⟩
      | false =>
        obtain ⟨h1, h2, h3, h4⟩ := (show Unlisted s.policy from hs)
        exact ⟨h1, h2, h3, h4⟩
    | writeCommitment a =>
      simp only [exec, writeCommitment, bind_eq_ok, exists_unit, pure_eq_ok] at h
      obtain ⟨-, -, rfl⟩ := h
      exact ⟨hs, rfl⟩
    | wipeCard o rest => exact wipeCard_listed h
    | _ => cases hq
  · have hsame := exec_standing h (Bool.eq_false_iff.mpr hq)
    have hlist := memberList_congr hsame.standing
    have hs' := hs.congr hsame.standing
    obtain ⟨ctx, instr⟩ := call
    cases instr with
    | initPermission o a => exact absurd rfl hq
    | updatePermission o op rest => exact absurd rfl hq
    | setPolicy o args first => exact absurd rfl hq
    | wipeCard o rest => exact absurd rfl hq
    | _ => exact ⟨hs', hlist⟩

theorem exec_listed {call : Call} (h : exec s call = .ok s') (hs : Listed s b) :
    Listed s' (call.instr.permission.getLastD b) ∧ Edited s call s' := by
  obtain ⟨hpolicy, hbinding⟩ := exec_owner h
  obtain ⟨hlist, hedit⟩ := exec_onList h hs.list hs.nonzero
  exact ⟨⟨hpolicy.trans (hs.owned.trans hbinding.symm), hpolicy ▸ hs.nonzero, hlist⟩, hedit⟩

/-- What the run has done to the permissions, oldest first. -/
def permissions (s : State) (calls : List Call) : List Bool :=
  Runs.logged exec (fun _ call _ => call.instr.permission) s calls

/-- `init_permission` has succeeded since the card was set up or wiped. -/
def permitted (s : State) (calls : List Call) : Bool := (permissions s calls).getLastD false

theorem initCard_listed {owner : Pubkey} {cardId ref : Hash} {issuer : UInt8} {prefund : Nat}
    (h : initCard ctx owner cardId issuer ref prefund = .ok s) (hkey : 0 ∉ ctx.signers) :
    Listed s false := by
  simp only [initCard, bind_eq_ok, exists_unit, requireSigner_eq_ok, pure_eq_ok] at h
  obtain ⟨hsigned, -, -, -, -, rfl⟩ := h
  refine ⟨rfl, ?_, unlisted_zeroed _ _⟩
  rintro hzero
  change owner = 0 at hzero
  rw [hzero] at hsigned
  exact hkey hsigned

/-- **The member list.** Once `init_permission` has succeeded, and until the card is wiped,
the members are the owner, the authorizer and the readers, distinct and flagged as such; and
every edit is the list edit it stands for. Nobody signs with the default key. -/
theorem members_kept {owner : Pubkey} {cardId ref : Hash} {issuer : UInt8} {prefund : Nat}
    (hstart : initCard ctx owner cardId issuer ref prefund = .ok s) (hkey : 0 ∉ ctx.signers)
    (calls : List Call) :
    (permitted s calls = true →
      Roster (Runs.after exec s calls).policy ∧
        (Runs.after exec s calls).policy.owner = (Runs.after exec s calls).binding.owner) ∧
      Runs.Along exec Edited s calls := by
  have hinit := initCard_listed hstart hkey
  refine ⟨fun hper => ?_, ?_⟩
  · have hlisted : Listed (Runs.after exec s calls) (permitted s calls) := by
      refine Runs.after_logged (I := fun s log => Listed s (log.getLastD false)) ?_
        (Runs.along_true s calls) hinit
      intro s call s' log _ hexec hi
      have hlast : (log ++ call.instr.permission).getLastD false =
          call.instr.permission.getLastD (log.getLastD false) := by
        simp only [List.getLastD_eq_getLast?, List.getLast?_append, Option.getD_or]
      rw [hlast]
      exact (exec_listed hexec hi).1
    rw [hper] at hlisted
    exact ⟨hlisted.list, hlisted.owned⟩
  · refine Runs.along_of_inv (I := fun s => ∃ b, Listed s b) ?_ calls ⟨false, hinit⟩
    rintro s call s' hexec ⟨b, hi⟩
    have hnext := exec_listed hexec hi
    exact ⟨⟨_, hnext.1⟩, hnext.2⟩

end Runs

namespace Sample

/-- Two readers come, the first goes, and the frozen card gets a new authorizer. -/
def readers : List Call :=
  setup 5000 3000 50 ++
    [⟨ctxAt 1800000000 [owner], .updatePermission owner (.addReader (key 21)) []⟩,
     ⟨ctxAt 1800000000 [owner], .updatePermission owner (.addReader (key 22)) []⟩,
     ⟨ctxAt 1800000000 [owner], .updatePermission owner (.removeReader (key 21)) []⟩,
     ⟨ctxAt 1800000000 [owner], .freeze owner FREEZE_OWNER⟩,
     ⟨ctxAt 1800000000 [owner, authorizer], .setPolicy owner
       { policyArgs 5000 3000 50 with authorizer := key 10 } (some authorizer)⟩]

/-- The owner freezes and wipes the card. -/
def wiped : List Call :=
  setup 5000 3000 50 ++
    [⟨ctxAt 1800000000 [owner], .freeze owner FREEZE_OWNER⟩,
     ⟨ctxAt 1800000000 [owner], .wipeCard owner []⟩]

end Sample

open Sample in
theorem members_kept_readers :
    (0 : Pubkey) ∉ (ctxAt 1800000000 [owner]).signers ∧ permitted start readers = true ∧
      (Runs.after exec start readers).policy.memberList = [owner, key 10, key 22] ∧
      Roster (Runs.after exec start readers).policy := by
  have hkey : (0 : Pubkey) ∉ (ctxAt 1800000000 [owner]).signers := by decide
  have hper : permitted start readers = true := by decide
  have hlist : (Runs.after exec start readers).policy.memberList = [owner, key 10, key 22] := by
    decide
  exact ⟨hkey, hper, hlist, ((members_kept start_init hkey readers).1 hper).1⟩

open Sample in
/-- A wipe takes the list away again. -/
theorem wiped_members_gone :
    ¬ ∀ (s : State) (calls : List Call), Fresh s → true ∈ permissions s calls →
      Roster (Runs.after exec s calls).policy := by
  intro hall
  have hroster := hall start wiped start_fresh (by decide)
  have hzero : (Runs.after exec start wiped).policy.memberCount = 0 := by decide
  have htwo := hroster.two_le
  omega

end ChainPay.Card
