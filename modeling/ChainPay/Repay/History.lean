import Mathlib.Data.List.Nodup
import ChainPay.Repay.Attempts

/-!
The partner's finalized history as an honest RPC serves it, and what a scan reads of it. A
scan lists at most the newest 2000 transactions after the attempt's cursor and reads at most
150 of them, oldest first; it stops before one that is listed but not served yet. `readAll_read`
says what a scan finds, and `Skipped` what its cursor has moved over.
-/

namespace ChainPay.Repay
open ChainPay.Lib

/-- A finalized transaction of the partner's account. -/
structure Landed where
  listed : Listed
  tx : Tx
  deriving DecidableEq, Repr

def Landed.signature (x : Landed) : String := x.listed.signature

/-- Oldest first. -/
abbrev History := List Landed

def signaturesOf (h : History) : List String := h.map Landed.signature

/-- What landed after the cursor; everything, where the cursor is not known. -/
def newer (h : History) : Option String → History
  | none => h
  | some c => if c ∈ signaturesOf h then (h.dropWhile fun x => x.signature ≠ c).tail else h

def older (h : History) : Option String → History
  | none => h
  | some b => h.takeWhile fun x => x.signature ≠ b

/-- One page of `getSignaturesForAddress`, newest first. -/
def page (h : History) (before cursor : Option String) : List Listed :=
  ((older (newer h cursor) before).reverse.take PAGE_LIMIT).map Landed.listed

/-- Replies are what landed, a transaction that is not served yet, or an error. -/
structure Replies (h : History) (e : Env) : Prop where
  signatures : ∀ before cursor,
    e.signatures before cursor = some (page h before cursor) ∨ e.signatures before cursor = none
  transaction : ∀ x ∈ h, e.transaction x.signature = some (some x.tx) ∨
    e.transaction x.signature = some none ∨ e.transaction x.signature = none

/-- Every reply comes. -/
structure Serving (h : History) (e : Env) : Prop where
  storage : e.storage = .fine
  signatures : ∀ before cursor, e.signatures before cursor = some (page h before cursor)
  transaction : ∀ x ∈ h, e.transaction x.signature = some (some x.tx)

theorem Serving.replies {h : History} {e : Env} (hs : Serving h e) : Replies h e :=
  ⟨fun b c => .inl (hs.signatures b c), fun x hx => .inl (hs.transaction x hx)⟩

/-- The RPC that serves a history. -/
def serve (h : History) : Env where
  signatures := fun before cursor => some (page h before cursor)
  transaction := fun signature => some ((h.find? fun x => x.signature = signature).map Landed.tx)

theorem serve_serving {h : History} (hn : (signaturesOf h).Nodup) : Serving h (serve h) where
  storage := rfl
  signatures := fun _ _ => rfl
  transaction := by
    intro x hx
    have hfind : (h.find? fun y => y.signature = x.signature) = some x := by
      cases hf : h.find? fun y => y.signature = x.signature with
      | none =>
        have hnone := List.find?_eq_none.mp hf x hx
        simp at hnone
      | some y =>
        have hsig := List.find?_some hf
        simp only [decide_eq_true_eq] at hsig
        rw [List.inj_on_of_nodup_map hn (List.mem_of_find?_eq_some hf) hx hsig]
    simp only [serve, hfind, Option.map_some]

/-! ## Cursors -/

section Cursors

variable {h as bs : History} {x : Landed} {c n : String}

theorem nodup_split (hn : (signaturesOf (as ++ x :: bs)).Nodup) :
    ∀ y ∈ as, y.signature ≠ x.signature := by
  intro y hy heq
  simp only [signaturesOf, List.map_append, List.map_cons] at hn
  have hdisj := (List.nodup_append.mp hn).2.2
  exact hdisj _ (List.mem_map_of_mem hy) _ (List.mem_cons_self ..) heq

theorem newer_split (hn : (signaturesOf (as ++ x :: bs)).Nodup) :
    newer (as ++ x :: bs) (some x.signature) = bs := by
  have hmem : x.signature ∈ signaturesOf (as ++ x :: bs) := by
    simp [signaturesOf]
  have has : ∀ y ∈ as, decide (y.signature ≠ x.signature) = true :=
    fun y hy => decide_eq_true (nodup_split hn y hy)
  simp only [newer, if_pos hmem]
  rw [List.dropWhile_append_of_pos has, List.dropWhile_cons_of_neg (by simp), List.tail_cons]

theorem older_split (hn : (signaturesOf (as ++ x :: bs)).Nodup) :
    older (as ++ x :: bs) (some x.signature) = as := by
  have has : ∀ y ∈ as, decide (y.signature ≠ x.signature) = true :=
    fun y hy => decide_eq_true (nodup_split hn y hy)
  simp only [older]
  rw [List.takeWhile_append_of_pos has, List.takeWhile_cons_of_neg (by simp), List.append_nil]

theorem newer_suffix (h : History) (cursor : Option String) : newer h cursor <:+ h := by
  cases cursor with
  | none => exact List.suffix_rfl
  | some c =>
    simp only [newer]
    split
    · exact (List.tail_suffix _).trans (List.dropWhile_suffix _)
    · exact List.suffix_rfl

theorem newer_nodup {cursor : Option String} (hn : (signaturesOf h).Nodup) :
    (signaturesOf (newer h cursor)).Nodup :=
  hn.sublist ((newer_suffix h cursor).sublist.map _)

theorem mem_newer {cursor : Option String} (hx : x ∈ newer h cursor) : x ∈ h :=
  (newer_suffix h cursor).subset hx

theorem newer_lt (hn : (signaturesOf h).Nodup) (hmem : n ∈ signaturesOf h) :
    (newer h (some n)).length < h.length := by
  obtain ⟨x, hx, rfl⟩ := List.mem_map.mp hmem
  obtain ⟨as, bs, rfl⟩ := List.append_of_mem hx
  rw [newer_split hn]
  simp only [List.length_append, List.length_cons]
  omega

/-- What is newer in the rest is newer in the whole. -/
theorem newer_of_suffix {es : History} (hn : (signaturesOf h).Nodup) (hes : es <:+ h)
    (hmem : n ∈ signaturesOf es) : newer h (some n) = newer es (some n) := by
  obtain ⟨z, hz, rfl⟩ := List.mem_map.mp hmem
  obtain ⟨as, bs, rfl⟩ := List.append_of_mem hz
  obtain ⟨pre, rfl⟩ := hes
  rw [← List.append_assoc] at hn ⊢
  rw [newer_split hn, newer_split (by
    rw [List.append_assoc, signaturesOf, List.map_append] at hn
    exact (List.nodup_append.mp hn).2.1)]

/-- The cursor itself is not after the cursor. -/
theorem not_mem_newer (hn : (signaturesOf h).Nodup) (hc : c ∈ signaturesOf h) :
    c ∉ signaturesOf (newer h (some c)) := by
  obtain ⟨x, hx, rfl⟩ := List.mem_map.mp hc
  obtain ⟨as, bs, rfl⟩ := List.append_of_mem hx
  rw [newer_split hn]
  simp only [signaturesOf, List.map_append, List.map_cons] at hn
  exact (List.nodup_cons.mp (List.nodup_append.mp hn).2.1).1

theorem older_prefix (h : History) (before : Option String) : older h before <+: h := by
  cases before with
  | none => exact List.prefix_rfl
  | some b => exact List.takeWhile_prefix _

/-- A full page leads on to the transactions before it. -/
theorem older_page {es rs : History} {before : Option String} (hn : (signaturesOf es).Nodup)
    (hrs : (older es before).reverse = rs) (hfull : PAGE_LIMIT ≤ rs.length) :
    (older es (((rs.take PAGE_LIMIT).map Landed.listed).getLast?.map Listed.signature)).reverse =
      rs.drop PAGE_LIMIT := by
  have hne : rs.take PAGE_LIMIT ≠ [] := by
    intro hnil
    have hlen := congrArg List.length hnil
    rw [List.length_take, Nat.min_eq_left hfull] at hlen
    cases hlen
  obtain ⟨init, x, hlast⟩ := List.eq_nil_or_concat (rs.take PAGE_LIMIT) |>.resolve_left hne
  have hx : ((rs.take PAGE_LIMIT).map Landed.listed).getLast?.map Listed.signature =
      some x.signature := by
    simp [hlast, Landed.signature]
  obtain ⟨ys, hys⟩ := older_prefix es before
  have hsplit : es = (rs.drop PAGE_LIMIT).reverse ++ x :: (init.reverse ++ ys) := by
    have hxs : older es before = (rs.drop PAGE_LIMIT).reverse ++ x :: init.reverse := by
      have hparts : rs = init.concat x ++ rs.drop PAGE_LIMIT := by
        rw [← hlast, List.take_append_drop]
      rw [← List.reverse_reverse (older es before), hrs]
      conv_lhs => rw [hparts]
      simp
    rw [← hys, hxs]
    simp
  rw [hx]
  conv_lhs => rw [hsplit]
  rw [older_split (hsplit ▸ hn), List.reverse_reverse]

/-! Pages, newest first: `rs` is what is left to list. -/

theorem page_full {rs : History} (hfull : PAGE_LIMIT ≤ rs.length) :
    ¬ ((rs.take PAGE_LIMIT).map Landed.listed).length < PAGE_LIMIT := by
  simp [Nat.min_eq_left hfull]

theorem page_short {rs : History} (hfull : ¬ PAGE_LIMIT ≤ rs.length) :
    ((rs.take PAGE_LIMIT).map Landed.listed).length < PAGE_LIMIT := by
  simp only [List.length_map, List.length_take]
  omega

theorem pages_succ {rs : History} (n : Nat) :
    (rs.take PAGE_LIMIT).map Landed.listed ++
      ((rs.drop PAGE_LIMIT).take (PAGE_LIMIT * n)).map Landed.listed =
      (rs.take (PAGE_LIMIT * (n + 1))).map Landed.listed := by
  rw [← List.map_append, Nat.mul_succ, Nat.add_comm, List.take_add]

theorem pages_last {rs : History} (hfull : ¬ PAGE_LIMIT ≤ rs.length) (n : Nat) :
    rs.take (PAGE_LIMIT * (n + 1)) = rs.take PAGE_LIMIT := by
  rw [List.take_of_length_le (Nat.le_of_not_le hfull), List.take_of_length_le]
  exact Nat.le_trans (Nat.le_of_not_le hfull) (Nat.le_mul_of_pos_right _ (Nat.succ_pos n))

end Cursors

/-! ## Windows -/

/-- The newest transactions a check lists, oldest first. -/
def listing (es : History) : History := (es.reverse.take (PAGE_LIMIT * LIST_PAGES)).reverse

section

variable [Connector]

/-- `readListed` over transactions that are all served. -/
def readAll (reference : String) : History → Reading → Reading
  | [], r => r
  | x :: xs, r =>
    if x.listed.ok then
      if TX_BUDGET ≤ r.read then r else readAll reference xs (r.take x.listed reference x.tx)
    else readAll reference xs { r with advance := some x.signature }

def reading (reference : String) (es : History) : Reading := readAll reference (listing es) {}

/-- What a scan answers with after reading. -/
def Reading.answer (r : Reading) : Scan :=
  if r.found = [] then .pending r.advance else .found r.found r.slot

/-- The answer of a scan whose replies all come. -/
def scanned (reference : String) (es : History) : Scan := (reading reference es).answer

/-- The payouts with the reference in successful transactions, oldest first. -/
def payouts (reference : String) (xs : History) : List (String × Settlement) :=
  xs.flatMap fun x =>
    if x.listed.ok then
      (((settlementsIn x.tx).getD []).filter fun s => s.clientRefId = reference).map fun s =>
        (x.signature, s)
    else []

theorem payouts_append (reference : String) (xs ys : History) :
    payouts reference (xs ++ ys) = payouts reference xs ++ payouts reference ys :=
  List.flatMap_append

theorem payouts_prefix {reference : String} {xs ys : History} (h : ys <+: xs) :
    payouts reference ys <+: payouts reference xs := by
  obtain ⟨zs, rfl⟩ := h
  rw [payouts_append]
  exact List.prefix_append _ _

theorem mem_payouts {reference : String} {xs : History} {p : String × Settlement} :
    p ∈ payouts reference xs ↔ ∃ x ∈ xs, x.listed.ok = true ∧ p.1 = x.signature ∧
      p.2 ∈ (settlementsIn x.tx).getD [] ∧ p.2.clientRefId = reference := by
  simp only [payouts, List.mem_flatMap]
  constructor
  · rintro ⟨x, hx, hp⟩
    split at hp
    · rename_i hok
      obtain ⟨s, hs, rfl⟩ := List.mem_map.mp hp
      obtain ⟨hmem, href⟩ := List.mem_filter.mp hs
      exact ⟨x, hx, hok, rfl, hmem, of_decide_eq_true href⟩
    · cases hp
  · rintro ⟨x, hx, hok, hsig, hmem, href⟩
    refine ⟨x, hx, ?_⟩
    rw [if_pos hok]
    refine List.mem_map.mpr ⟨p.2, List.mem_filter.mpr ⟨hmem, decide_eq_true href⟩, ?_⟩
    rw [← hsig]

/-- A scan reads its list from the oldest on: to its end, or to the budget, and then what comes
after makes no difference. -/
theorem readAll_read (reference : String) (xs : History) (r : Reading) :
    ∃ ys, ys <+: xs ∧ (readAll reference xs r).found = r.found ++ payouts reference ys ∧
      (readAll reference xs r).advance = (ys.getLast?.map Landed.signature).or r.advance ∧
      (ys = xs ∨ ∀ zs, readAll reference (xs ++ zs) r = readAll reference xs r) := by
  induction xs generalizing r with
  | nil => exact ⟨[], List.prefix_rfl, (List.append_nil _).symm, rfl, .inl rfl⟩
  | cons x xs ih =>
    have hmore : ∀ r' : Reading, r'.advance = some x.signature →
        r'.found = r.found ++ payouts reference [x] →
        (∀ zs, readAll reference (x :: (xs ++ zs)) r = readAll reference (xs ++ zs) r') →
        ∃ ys, ys <+: x :: xs ∧
          (readAll reference (x :: xs) r).found = r.found ++ payouts reference ys ∧
          (readAll reference (x :: xs) r).advance =
            (ys.getLast?.map Landed.signature).or r.advance ∧
          (ys = x :: xs ∨
            ∀ zs, readAll reference (x :: xs ++ zs) r = readAll reference (x :: xs) r) := by
      intro r' hadvance hfound hstep
      have hhere : readAll reference (x :: xs) r = readAll reference xs r' := by
        have hnil := hstep []
        rwa [List.append_nil] at hnil
      obtain ⟨ys, hys, hf, ha, hend⟩ := ih r'
      refine ⟨x :: ys, List.cons_prefix_cons.mpr ⟨rfl, hys⟩, ?_, ?_, ?_⟩
      · rw [hhere, hf, hfound, List.append_assoc, ← payouts_append]
        rfl
      · rw [hhere, ha, hadvance]
        cases ys with
        | nil => rfl
        | cons y ys =>
          rw [List.getLast?_cons_cons]
          cases hlast : (y :: ys).getLast? with
          | none => cases List.getLast?_eq_none_iff.mp hlast
          | some z => rfl
      · refine hend.imp (fun hall => by rw [hall]) fun hcut zs => ?_
        rw [List.cons_append, hstep, hcut, hhere]
    by_cases hok : x.listed.ok = true
    · by_cases hread : TX_BUDGET ≤ r.read
      · refine ⟨[], List.nil_prefix, ?_, ?_, .inr fun zs => ?_⟩
        · rw [readAll, if_pos hok, if_pos hread]
          exact (List.append_nil _).symm
        · rw [readAll, if_pos hok, if_pos hread]
          rfl
        · rw [List.cons_append, readAll, readAll, if_pos hok, if_pos hread, if_pos hok,
            if_pos hread]
      · refine hmore (r.take x.listed reference x.tx) rfl ?_ fun zs => ?_
        · simp only [Reading.take, payouts, List.flatMap_singleton, if_pos hok]
          rfl
        · rw [readAll, if_pos hok, if_neg hread]
    · refine hmore { r with advance := some x.signature } rfl ?_ fun zs => ?_
      · simp only [payouts, List.flatMap_singleton, if_neg hok, List.append_nil]
      · rw [readAll, if_neg hok]

omit [Connector] in
theorem listing_suffix (es : History) : listing es <:+ es := by
  obtain ⟨t, ht⟩ := List.take_prefix (PAGE_LIMIT * LIST_PAGES) es.reverse
  refine ⟨t.reverse, ?_⟩
  rw [listing, ← List.reverse_append, ht, List.reverse_reverse]

omit [Connector] in
/-- A pass from inside a listing lists its rest. -/
theorem listing_newer {h as bs : History} {cursor : Option String} {z : Landed}
    (hn : (signaturesOf h).Nodup) (hlist : listing (newer h cursor) = as ++ z :: bs) :
    newer h (some z.signature) = bs ∧ listing bs = bs := by
  have hsuffix := (listing_suffix (newer h cursor)).trans (newer_suffix h cursor)
  rw [hlist] at hsuffix
  refine ⟨?_, ?_⟩
  · rw [newer_of_suffix hn hsuffix (List.mem_map_of_mem (List.mem_append_right _ List.mem_cons_self))]
    exact newer_split (hn.sublist (hsuffix.sublist.map _))
  · have hlen : bs.length ≤ PAGE_LIMIT * LIST_PAGES := by
      have hall := congrArg List.length hlist
      simp only [listing, List.length_reverse, List.length_take, List.length_append,
        List.length_cons] at hall
      omega
    rw [listing, List.take_of_length_le (by rwa [List.length_reverse]), List.reverse_reverse]

/-- The payouts in the transactions that a scan from here lists. -/
def listedPayouts (h : History) (reference : String) (cursor : Option String) :
    List (String × Settlement) := payouts reference (listing (newer h cursor))

/-- What a scan lists from a later cursor is what it lists from an earlier one, less
transactions without a payout for the reference. -/
def Skipped (h : History) (reference : String) (cursor cursor' : Option String) : Prop :=
  ∃ skipped, listing (newer h cursor) = skipped ++ listing (newer h cursor') ∧
    payouts reference skipped = []

theorem Skipped.refl (h : History) (reference : String) (cursor : Option String) :
    Skipped h reference cursor cursor := ⟨[], rfl, rfl⟩

theorem Skipped.trans {h : History} {reference : String} {c₁ c₂ c₃ : Option String}
    (h₁ : Skipped h reference c₁ c₂) (h₂ : Skipped h reference c₂ c₃) :
    Skipped h reference c₁ c₃ := by
  obtain ⟨xs, hxs, hnone⟩ := h₁
  obtain ⟨ys, hys, hnone'⟩ := h₂
  refine ⟨xs ++ ys, by rw [hxs, hys, List.append_assoc], ?_⟩
  rw [payouts_append, hnone, hnone']
  rfl

theorem Skipped.payouts_eq {h : History} {reference : String} {c c' : Option String}
    (hs : Skipped h reference c c') :
    listedPayouts h reference c = listedPayouts h reference c' := by
  obtain ⟨xs, hxs, hnone⟩ := hs
  rw [listedPayouts, hxs, payouts_append, hnone]
  rfl

section Window

variable {h ys : History} {reference next : String} {cursor : Option String}

/-- A scan that finds nothing moves its cursor over transactions without a payout only. -/
theorem reading_skips (hn : (signaturesOf h).Nodup) (hys : ys <+: listing (newer h cursor))
    (hf : (readAll reference ys {}).found = [])
    (ha : (readAll reference ys {}).advance = some next) :
    Skipped h reference cursor (some next) ∧ next ∈ signaturesOf (newer h cursor) := by
  obtain ⟨xs, hxs, hfound, hadvance, -⟩ := readAll_read reference ys {}
  have hnone : payouts reference xs = [] := by
    rw [hfound] at hf
    exact hf
  obtain ⟨as, z, rfl⟩ : ∃ as z, xs = as ++ [z] := by
    rcases List.eq_nil_or_concat xs with rfl | ⟨as, z, hxs⟩
    · rw [hadvance] at ha
      cases ha
    · exact ⟨as, z, by rw [hxs, List.concat_eq_append]⟩
  have hz : z.signature = next := by
    rw [hadvance, List.getLast?_concat] at ha
    exact Option.some.inj ha
  obtain ⟨bs, hbs⟩ := hxs.trans hys
  have hlist : listing (newer h cursor) = as ++ z :: bs := by
    rw [← hbs, List.append_assoc, List.singleton_append]
  obtain ⟨hnewer, hrest⟩ := listing_newer hn hlist
  rw [← hz]
  refine ⟨⟨as ++ [z], ?_, hnone⟩, ?_⟩
  · rw [hnewer, hrest, hbs]
  · refine List.mem_map_of_mem ((listing_suffix _).subset ?_)
    rw [hlist]
    exact List.mem_append_right _ List.mem_cons_self

/-- What a scan finds is the start of what it lists. -/
theorem reading_found (hys : ys <+: listing (newer h cursor)) :
    (readAll reference ys {}).found <+: listedPayouts h reference cursor := by
  obtain ⟨xs, hxs, hfound, -, -⟩ := readAll_read reference ys {}
  rw [hfound]
  exact payouts_prefix (hxs.trans hys)

/-- A scan that is cut finds every payout before the cut, or what it finds uncut. -/
theorem reading_cut (reference : String) {zs : History} (hys : ys ++ zs = listing (newer h cursor)) :
    (readAll reference ys {}).found = payouts reference ys ∨
      readAll reference ys {} = reading reference (newer h cursor) := by
  obtain ⟨xs, -, hfound, -, hend⟩ := readAll_read reference ys {}
  rcases hend with rfl | hall
  · exact .inl hfound
  · refine .inr ?_
    rw [reading, ← hys, hall]

/-- A scan that lists anything and finds nothing moves its cursor. -/
theorem reading_advances (reference : String) {es : History} (hne : listing es ≠ []) :
    ∃ next, (reading reference es).advance = some next := by
  unfold reading
  obtain ⟨x, xs, hlist⟩ := List.exists_cons_of_ne_nil hne
  have hone : ∃ r : Reading, r.advance = some x.signature ∧
      readAll reference (listing es) {} = readAll reference xs r := by
    rw [hlist, readAll]
    split
    · rw [if_neg (by decide)]
      exact ⟨_, rfl, rfl⟩
    · exact ⟨_, rfl, rfl⟩
  obtain ⟨r, hr, hsame⟩ := hone
  obtain ⟨ys, -, -, hadvance, -⟩ := readAll_read reference xs r
  rw [hsame, hadvance, hr]
  cases ys.getLast?.map Landed.signature with
  | none => exact ⟨_, rfl⟩
  | some next => exact ⟨next, rfl⟩

end Window

end

/-! ## A scan on its own -/

section Alone

variable [Connector] {h : History} {e : Env}

omit [Connector] in
theorem alone_listPages (hserve : Serving h e) (hn : (signaturesOf h).Nodup) {s : Store}
    {cursor : Option String} (n : Nat) {before : Option String} (acc : List Listed)
    {rs : History} (hrs : (older (newer h cursor) before).reverse = rs) :
    (listPages cursor n before acc).alone perform e s =
      (s, .ok (some (acc ++ (rs.take (PAGE_LIMIT * n)).map Landed.listed))) := by
  induction n generalizing before acc rs with
  | zero => simp [listPages, Call.alone]
  | succ n ih =>
    have hpage : page h before cursor = (rs.take PAGE_LIMIT).map Landed.listed := by
      rw [page, hrs]
    simp only [listPages, Call.alone, perform, hserve.signatures, hpage]
    by_cases hfull : PAGE_LIMIT ≤ rs.length
    · rw [if_neg (page_full hfull), ih _ (older_page (newer_nodup hn) hrs hfull),
        List.append_assoc, pages_succ]
    · rw [if_pos (page_short hfull), pages_last hfull]
      rfl

theorem alone_readListed (hserve : Serving h e) {s : Store} (reference : String) {xs : History}
    (hxs : ∀ x ∈ xs, x ∈ h) {r : Reading} :
    (readListed reference (xs.map Landed.listed) r).alone perform e s =
      (s, .ok (some (readAll reference xs r))) := by
  induction xs generalizing r with
  | nil => rfl
  | cons x xs ih =>
    have hrest : ∀ y ∈ xs, y ∈ h := fun y hy => hxs y (List.mem_cons_of_mem _ hy)
    have hx : e.transaction x.listed.signature = some (some x.tx) :=
      hserve.transaction x (hxs x (List.mem_cons_self ..))
    simp only [List.map_cons, readListed, readAll]
    by_cases hok : x.listed.ok = true
    · rw [if_pos hok, if_pos hok]
      by_cases hread : TX_BUDGET ≤ r.read
      · rw [if_pos hread, if_pos hread]
        rfl
      · rw [if_neg hread, if_neg hread]
        simp only [Call.alone, perform, hx]
        exact ih hrest
    · rw [if_neg hok, if_neg hok]
      exact ih hrest

theorem alone_scan (hserve : Serving h e) (hn : (signaturesOf h).Nodup) {s : Store}
    {cursor : Option String} {reference : String} :
    (scan cursor reference).alone perform e s = (s, .ok (scanned reference (newer h cursor))) := by
  have hlist := alone_listPages hserve hn (s := s) LIST_PAGES []
    (show (older (newer h cursor) none).reverse = _ from rfl)
  have hin : ∀ x ∈ listing (newer h cursor), x ∈ h :=
    fun x hx => mem_newer ((listing_suffix _).subset hx)
  have hread := alone_readListed hserve (s := s) reference hin (r := {})
  unfold scan
  rw [Call.alone_bind hlist]
  dsimp only
  rw [List.nil_append, ← List.map_reverse]
  exact Call.alone_bind hread

end Alone

end ChainPay.Repay
