import ChainPay.Lib.Pages
import ChainPay.Lib.Ranked
import Mathlib.Data.Char
import Mathlib.Data.List.Lex

/-!
Reading all records under one index reference. The store lists them newest first, at most 200
at a time, with a cursor on `updated` that excludes its own value; `allUnder` and
`postingsUnder` follow the pages to the end. They always end and never return a record twice,
but a page that ends between two records of one `updated` hides the second one from the next
page (`listing_complete_iff`).
-/

namespace ChainPay.Statements
open ChainPay.Lib

abbrev Text := List Char

/-! ## The store -/

inductive CardKind where
  | cards | cardEvents | cardStatements | cardRecovery
  deriving DecidableEq, Repr

/-- Plaintext index columns. -/
structure CardIndex where
  owner : Option Text
  connector : Option Text
  reference : Option Text
  deriving DecidableEq, Repr

/-- `recordType` and `postedAt` are the fields of the record the walks read, where they are
texts; `updated` is the number its zero-padded text spells. -/
structure StoredCardRecord where
  kind : CardKind
  key : Text
  index : CardIndex
  recordType : Option Text
  postedAt : Option Text
  updated : Nat
  deriving DecidableEq, Repr

/-- Where the records lie: in memory, or in the database, whose index breaks ties by the
order of creation. -/
inductive Backend where
  | memory
  | convex
  deriving DecidableEq, Repr

def CONNECTOR : Text := "lithic".toList

def isUnder (kind : CardKind) (owner connector reference : Text) (r : StoredCardRecord) : Bool :=
  r.kind = kind && r.index.owner = some owner && r.index.connector = some connector &&
    r.index.reference = some reference

def isBefore (before : Option Nat) (r : StoredCardRecord) : Bool :=
  before.all fun before => r.updated < before

/-- Newest first, then by key from the last. -/
def NewestByKey (a b : StoredCardRecord) : Prop :=
  b.updated < a.updated ∨ (b.updated = a.updated ∧ b.key ≤ a.key)

instance : DecidableRel NewestByKey := fun _ _ => inferInstanceAs (Decidable (_ ∨ _))

def Newest (a b : StoredCardRecord) : Prop := b.updated ≤ a.updated

instance : DecidableRel Newest := fun _ _ => inferInstanceAs (Decidable (_ ≤ _))

/-- `limit.clamp(1, 200)` -/
def clampLimit (limit : Nat) : Nat := max 1 (min limit 200)

/-- Newest first, `updated < before`. The database holds its rows in the order of creation and
reads its index from the end. -/
def listCardRecordsForOwner (backend : Backend) (rows : List StoredCardRecord) (kind : CardKind)
    (owner connector reference : Text) (before : Option Nat) (limit : Nat) :
    List StoredCardRecord :=
  match backend with
  | .memory =>
    ((rows.filter fun r => isUnder kind owner connector reference r && isBefore before r
      ).insertionSort NewestByKey).take (clampLimit limit)
  | .convex =>
    ((rows.reverse.filter fun r => isUnder kind owner connector reference r && isBefore before r
      ).insertionSort Newest).take (clampLimit limit)

/-! ## The walks -/

/-- Every row of `kind` under one index reference (all pages), newest first. -/
def allUnder (backend : Backend) (rows : List StoredCardRecord) (page : Nat) (kind : CardKind)
    (owner reference : Text) (fuel : Nat) : Option (List StoredCardRecord) :=
  Pages.walk StoredCardRecord.updated
    (fun before => listCardRecordsForOwner backend rows kind owner CONNECTOR reference before page)
    page (fun _ => true) fuel none

def isPosting (r : StoredCardRecord) : Bool := r.recordType = some "posting".toList

/-- `Option` texts compare with nothing first. -/
def optionLt : Option Text → Option Text → Bool
  | none, some _ => true
  | some a, some b => a < b
  | _, none => false

/-- Oldest first, then by key. -/
def ByPostedAt (a b : StoredCardRecord) : Prop :=
  optionLt a.postedAt b.postedAt = true ∨ (a.postedAt = b.postedAt ∧ a.key ≤ b.key)

instance : DecidableRel ByPostedAt := fun _ _ => inferInstanceAs (Decidable (_ ∨ _))

/-- Every posting row under one index reference, oldest first. -/
def postingsUnder (backend : Backend) (rows : List StoredCardRecord) (page : Nat)
    (owner reference : Text) (fuel : Nat) : Option (List StoredCardRecord) :=
  (Pages.walk StoredCardRecord.updated
    (fun before =>
      listCardRecordsForOwner backend rows .cardEvents owner CONNECTOR reference before page)
    page isPosting fuel none).map (·.insertionSort ByPostedAt)

/-! ## The whole listing -/

/-- The records under one reference. -/
def stored (rows : List StoredCardRecord) (kind : CardKind) (owner reference : Text) :
    List StoredCardRecord :=
  rows.filter (isUnder kind owner CONNECTOR reference)

/-- All of them, in the order of the store's pages. -/
def listing (backend : Backend) (rows : List StoredCardRecord) (kind : CardKind)
    (owner reference : Text) : List StoredCardRecord :=
  match backend with
  | .memory => (stored rows kind owner reference).insertionSort NewestByKey
  | .convex => (stored rows.reverse kind owner reference).insertionSort Newest

instance : Std.Total NewestByKey where
  total a b := by
    unfold NewestByKey
    rcases Nat.lt_trichotomy a.updated b.updated with hlt | heq | hgt
    · exact .inr (.inl hlt)
    · rcases le_total a.key b.key with hle | hle
      · exact .inr (.inr ⟨heq, hle⟩)
      · exact .inl (.inr ⟨heq.symm, hle⟩)
    · exact .inl (.inl hgt)

instance : IsTrans StoredCardRecord NewestByKey where
  trans a b c hab hbc := by
    unfold NewestByKey at *
    rcases hab with hab | ⟨hab, hkey⟩
    · rcases hbc with hbc | ⟨hbc, -⟩
      · exact .inl (Nat.lt_trans hbc hab)
      · exact .inl (hbc ▸ hab)
    · rcases hbc with hbc | ⟨hbc, hkey'⟩
      · exact .inl (hab ▸ hbc)
      · exact .inr ⟨hbc.trans hab, le_trans hkey' hkey⟩

instance : Std.Total Newest where
  total a b := Nat.le_total b.updated a.updated

instance : IsTrans StoredCardRecord Newest where
  trans _ _ _ hab hbc := Nat.le_trans hbc hab

section Listing

variable {backend : Backend} {rows : List StoredCardRecord} {kind : CardKind}
  {owner reference : Text}

theorem listing_perm :
    (listing backend rows kind owner reference).Perm (stored rows kind owner reference) := by
  cases backend with
  | memory => exact List.perm_insertionSort _ _
  | convex =>
    refine (List.perm_insertionSort _ _).trans ?_
    exact (List.reverse_perm rows).filter _

theorem listing_descending :
    Pages.Descending StoredCardRecord.updated (listing backend rows kind owner reference) := by
  cases backend with
  | memory =>
    refine (List.pairwise_insertionSort NewestByKey _).imp ?_
    rintro a b (hlt | ⟨heq, -⟩)
    · exact Nat.le_of_lt hlt
    · exact Nat.le_of_eq heq
  | convex => exact List.pairwise_insertionSort Newest _

/-- A page is the first part of the listing below the cursor. -/
theorem page_eq (before : Option Nat) (limit : Nat) :
    listCardRecordsForOwner backend rows kind owner CONNECTOR reference before limit =
      (Pages.below StoredCardRecord.updated before (listing backend rows kind owner reference)).take
        (clampLimit limit) := by
  have hsplit : ∀ rows : List StoredCardRecord,
      (rows.filter fun r => isUnder kind owner CONNECTOR reference r && isBefore before r) =
        (stored rows kind owner reference).filter (isBefore before) := by
    intro rows
    rw [stored, List.filter_filter]
    exact List.filter_congr fun r _ => Bool.and_comm _ _
  cases backend with
  | memory =>
    simp only [listCardRecordsForOwner, hsplit, insertionSort_filter]
    rfl
  | convex =>
    simp only [listCardRecordsForOwner, hsplit, insertionSort_filter]
    rfl

/-! ## What the walks return -/

/-- The records a walk by pages of `page` rows does not come by. -/
def missed (page : Nat) (rows : List StoredCardRecord) : List StoredCardRecord :=
  if page ≤ 200 then Pages.passedOver StoredCardRecord.updated page (rows.length + 1) rows
  else rows.drop 200

/-- Pages lose nothing: no page ends between two records of one `updated`. A walk that asks for
more than the store gives reads a single page. -/
def WholePages (page : Nat) (rows : List StoredCardRecord) : Prop :=
  if page ≤ 200 then Pages.Unbroken StoredCardRecord.updated page rows else rows.length ≤ 200

theorem missed_eq_nil_iff {page : Nat} (hpage : 0 < page) :
    missed page (listing backend rows kind owner reference) = [] ↔
      WholePages page (listing backend rows kind owner reference) := by
  unfold missed WholePages
  split
  · exact Pages.passedOver_eq_nil_iff hpage _ _ listing_descending (Nat.lt_succ_self _)
  · exact List.drop_eq_nil_iff

/-- Every walk ends, with all it keeps but what it missed. -/
theorem walk_stored {page : Nat} (hpage : 0 < page) (keep : StoredCardRecord → Bool) :
    ∃ out, (∀ fuel, rows.length < fuel →
        Pages.walk StoredCardRecord.updated
          (fun before =>
            listCardRecordsForOwner backend rows kind owner CONNECTOR reference before page)
          page keep fuel none = some out) ∧
      (out ++ (missed page (listing backend rows kind owner reference)).filter keep).Perm
        ((stored rows kind owner reference).filter keep) := by
  have hperm : (listing backend rows kind owner reference).Perm
      (stored rows kind owner reference) := listing_perm
  have hlen : (listing backend rows kind owner reference).length ≤ rows.length := by
    rw [hperm.length_eq]
    exact List.length_filter_le _ _
  have hpages : (fun before =>
      listCardRecordsForOwner backend rows kind owner CONNECTOR reference before page) =
      fun before => (Pages.below StoredCardRecord.updated before
        (listing backend rows kind owner reference)).take (clampLimit page) :=
    funext fun before => page_eq before page
  rw [hpages]
  by_cases hfits : page ≤ 200
  · have hclamp : clampLimit page = page := by
      unfold clampLimit
      omega
    rw [hclamp]
    have hdescending : Pages.Descending StoredCardRecord.updated
        (listing backend rows kind owner reference) := listing_descending
    obtain ⟨out, hout, hsplit⟩ := Pages.walk_spec keep hpage hdescending
      ((listing backend rows kind owner reference).length + 1) none
      (by rw [Pages.below_none]; exact Nat.lt_succ_self _)
    rw [Pages.below_none] at hsplit
    refine ⟨out, fun fuel hfuel => Pages.walk_mono hout (by omega), ?_⟩
    rw [missed, if_pos hfits]
    exact hsplit.trans (hperm.filter keep)
  · have hclamp : clampLimit page = 200 := by
      unfold clampLimit
      omega
    refine ⟨((listing backend rows kind owner reference).take 200).filter keep, ?_, ?_⟩
    · intro fuel hfuel
      obtain ⟨fuel, rfl⟩ : ∃ m, fuel = m + 1 := ⟨fuel - 1, by omega⟩
      have hshort : ((listing backend rows kind owner reference).take 200).length ≠ page := by
        rw [List.length_take]
        omega
      unfold Pages.walk
      dsimp only
      rw [Pages.below_none, hclamp, if_neg hshort]
    · rw [missed, if_neg hfits, ← List.filter_append, List.take_append_drop]
      exact hperm.filter keep

/-- In the database `allUnder` reads all pages of the index of its reference. -/
theorem allUnder_convex (rows : List StoredCardRecord) (kind : CardKind) (owner reference : Text) :
    allUnder .convex rows 200 kind owner reference
        ((stored rows kind owner reference).length + 1) =
      some (Pages.all StoredCardRecord.updated 200 (stored rows kind owner reference)) := by
  have hindex : listing .convex rows kind owner reference =
      Pages.newest StoredCardRecord.updated (stored rows kind owner reference) := by
    simp only [listing, stored, Pages.newest, List.filter_reverse]
    congr
  have hpages : (fun before =>
      listCardRecordsForOwner .convex rows kind owner CONNECTOR reference before 200) =
      fun before => (Pages.below StoredCardRecord.updated before
        (Pages.newest StoredCardRecord.updated (stored rows kind owner reference))).take 200 := by
    funext before
    rw [page_eq, hindex]
    rfl
  have hdesc := Pages.newest_descending StoredCardRecord.updated (stored rows kind owner reference)
  obtain ⟨out, hout, -⟩ := Pages.walk_spec (fun _ => true) (by decide : 0 < 200) hdesc
    ((stored rows kind owner reference).length + 1) none
    (by rw [Pages.below_none, Pages.newest_length]; exact Nat.lt_succ_self _)
  rw [allUnder, hpages, Pages.all, hout]
  rfl

/-- Of records stored at one time only a page is read. -/
theorem walk_tied {page u : Nat} (hpage : 0 < page) (hfits : page ≤ 200)
    (hunder : ∀ r ∈ rows, isUnder kind owner CONNECTOR reference r = true)
    (htied : ∀ r ∈ rows, r.updated = u) {keep : StoredCardRecord → Bool}
    (hkeep : ∀ r ∈ rows, keep r = true) :
    (Pages.walk StoredCardRecord.updated
      (fun before =>
        listCardRecordsForOwner backend rows kind owner CONNECTOR reference before page)
      page keep (rows.length + 1) none).map List.length = some (min page rows.length) := by
  have hstored : stored rows kind owner reference = rows := List.filter_eq_self.mpr hunder
  have hlisting : (listing backend rows kind owner reference).Perm
      (stored rows kind owner reference) := listing_perm
  have hperm := hlisting.trans (List.Perm.of_eq hstored)
  have hmissed : missed page (listing backend rows kind owner reference) =
      (listing backend rows kind owner reference).drop page := by
    rw [missed, if_pos hfits]
    exact Pages.passedOver_tied hpage (fun r hr => htied r (hperm.mem_iff.mp hr)) _
  obtain ⟨out, hout, hsplit⟩ := @walk_stored backend rows kind owner reference page hpage keep
  rw [hout _ (Nat.lt_succ_self _), Option.map_some]
  have hall : rows.filter keep = rows := List.filter_eq_self.mpr hkeep
  have hrest : ((listing backend rows kind owner reference).drop page).filter keep =
      (listing backend rows kind owner reference).drop page :=
    List.filter_eq_self.mpr fun r hr => hkeep r (hperm.mem_iff.mp (List.mem_of_mem_drop hr))
  have hlen := hsplit.length_eq
  rw [hstored, hall, hmissed, hrest, List.length_append, List.length_drop, hperm.length_eq] at hlen
  congr 1
  omega

end Listing

/-- What is left of a table once a part of it went missing is all of it when the part is empty. -/
theorem perm_iff_of_append {α : Type} {out part all : List α} (h : (out ++ part).Perm all) :
    out.Perm all ↔ part = [] := by
  constructor
  · intro hall
    have hlen := h.length_eq
    rw [List.length_append, hall.length_eq] at hlen
    exact List.eq_nil_of_length_eq_zero (by omega)
  · rintro rfl
    rw [List.append_nil] at h
    exact h

theorem subperm_of_append {α : Type} {out part all : List α} (h : (out ++ part).Perm all) :
    out.Subperm all :=
  (List.sublist_append_left out part).subperm.trans h.subperm

/-- **Paged listings.** Over records that do not change, both walks end and return no record
twice; `allUnder` returns every record exactly when no page ends between two records of one
`updated`, and `postingsUnder` every posting exactly when none follows such a page end. -/
theorem listing_complete_iff (backend : Backend) (rows : List StoredCardRecord) (page : Nat)
    (hpage : 0 < page) (kind : CardKind) (owner reference : Text) :
    (∃ all, (∀ fuel, rows.length < fuel →
        allUnder backend rows page kind owner reference fuel = some all) ∧
      all.Subperm (stored rows kind owner reference) ∧
      (all.Perm (stored rows kind owner reference) ↔
        WholePages page (listing backend rows kind owner reference))) ∧
    ∃ postings, (∀ fuel, rows.length < fuel →
        postingsUnder backend rows page owner reference fuel = some postings) ∧
      postings.Subperm ((stored rows .cardEvents owner reference).filter isPosting) ∧
      (postings.Perm ((stored rows .cardEvents owner reference).filter isPosting) ↔
        ∀ r ∈ missed page (listing backend rows .cardEvents owner reference),
          isPosting r = false) := by
  constructor
  · obtain ⟨all, hall, hperm⟩ := @walk_stored backend rows kind owner reference page hpage fun _ => true
    rw [List.filter_true, List.filter_true] at hperm
    refine ⟨all, hall, subperm_of_append hperm, ?_⟩
    rw [perm_iff_of_append hperm, missed_eq_nil_iff hpage]
  · obtain ⟨out, hout, hperm⟩ := @walk_stored backend rows .cardEvents owner reference page hpage isPosting
    have hsort := List.perm_insertionSort ByPostedAt out
    refine ⟨out.insertionSort ByPostedAt, ?_, ?_, ?_⟩
    · intro fuel hfuel
      rw [postingsUnder, hout fuel hfuel, Option.map_some]
    · exact hsort.subperm.trans (subperm_of_append hperm)
    · have hboth : (out.insertionSort ByPostedAt).Perm
          ((stored rows .cardEvents owner reference).filter isPosting) ↔
          out.Perm ((stored rows .cardEvents owner reference).filter isPosting) :=
        ⟨hsort.symm.trans, hsort.trans⟩
      rw [hboth, perm_iff_of_append hperm, List.filter_eq_nil_iff]
      exact forall₂_congr fun r _ => iff_of_eq (Bool.not_eq_true _)

namespace Sample

/-- A posting of one card, stored at `updated`. -/
def posting (i updated : Nat) : StoredCardRecord where
  kind := .cardEvents
  key := [Char.ofNat (48 + i)]
  index := ⟨some ['o'], some CONNECTOR, some ['c']⟩
  recordType := some "posting".toList
  postedAt := none
  updated := updated

end Sample

open Sample in
/-- Two postings of different times, one to a page. -/
theorem listing_complete_sample :
    ∃ all, allUnder .memory [posting 0 7, posting 1 8] 1 .cardEvents ['o'] ['c'] 3 = some all ∧
      all.Perm [posting 0 7, posting 1 8] := by
  obtain ⟨⟨all, hall, -, hiff⟩, -⟩ := listing_complete_iff .memory [posting 0 7, posting 1 8] 1
    (by decide) .cardEvents ['o'] ['c']
  have hlisting : listing .memory [posting 0 7, posting 1 8] .cardEvents ['o'] ['c'] =
      [posting 1 8, posting 0 7] := by decide
  refine ⟨all, hall 3 (by decide), hiff.mpr ?_⟩
  rw [hlisting, WholePages, if_pos (by decide)]
  intro k a b ha hb
  rw [Nat.mul_one] at ha hb
  have hk : k + 1 < 2 := (List.getElem?_eq_some_iff.mp hb).1
  have hzero : k = 0 := by omega
  subst hzero
  cases ha
  cases hb
  decide

open Sample in
/-- A page of 200 ends between two of 201 postings stored at one time: the last is never read. -/
theorem listing_passes_over :
    (stored ((List.range 201).map fun i => posting (200 - i) 7) .cardEvents ['o'] ['c']).length = 201 ∧
      (postingsUnder .memory ((List.range 201).map fun i => posting (200 - i) 7) 200 ['o'] ['c'] 202).map
        List.length = some 200 ∧
      (allUnder .memory ((List.range 201).map fun i => posting (200 - i) 7) 200 .cardEvents ['o'] ['c']
        202).map List.length = some 200 := by
  have hrow : ∀ r ∈ (List.range 201).map fun i => posting (200 - i) 7,
      isUnder .cardEvents ['o'] CONNECTOR ['c'] r = true ∧ r.updated = 7 ∧ isPosting r = true := by
    intro r hr
    obtain ⟨i, -, rfl⟩ := List.mem_map.mp hr
    refine ⟨?_, rfl, decide_eq_true rfl⟩
    simp [isUnder, posting]
  have hlength : ((List.range 201).map fun i => posting (200 - i) 7).length = 201 := by
    rw [List.length_map, List.length_range]
  have hunder := fun r hr => (hrow r hr).1
  have htied := fun r hr => (hrow r hr).2.1
  refine ⟨?_, ?_, ?_⟩
  · rw [stored, List.filter_eq_self.mpr hunder, hlength]
  · have hwalk := @walk_tied .memory _ .cardEvents ['o'] ['c'] 200 7 (by decide) (by decide) hunder
      htied isPosting fun r hr => (hrow r hr).2.2
    rw [hlength] at hwalk
    rw [postingsUnder, Option.map_map]
    simpa [Function.comp_def, List.length_insertionSort] using hwalk
  · have hwalk := @walk_tied .memory _ .cardEvents ['o'] ['c'] 200 7 (by decide) (by decide) hunder
      htied (fun _ => true) fun _ _ => rfl
    rw [hlength] at hwalk
    exact hwalk

end ChainPay.Statements
