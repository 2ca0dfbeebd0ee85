import Mathlib.Data.List.TakeWhile
import ChainPay.Repay.History
import ChainPay.Repay.Attribution

/-!
Passes of `scan` over a history that grows between them, each from the cursor that the passes
before left. A pass reads its window oldest first, but lists only the newest 2000 transactions:
what is older than these and newer than the cursor is passed over when the cursor moves.
-/

namespace ChainPay.Repay
open ChainPay.Lib

section

variable [Connector]

/-- A successful transaction with a payout for the reference. -/
def Pays (reference : String) (x : Landed) : Prop :=
  x.listed.ok = true ∧ ∃ s ∈ (settlementsIn x.tx).getD [], s.clientRefId = reference

/-! ## One pass -/

omit [Connector] in
theorem listPages_replies {h : History} {e : Env} (hr : Replies h e) (hn : (signaturesOf h).Nodup)
    {s : Store} {cursor : Option String} (n : Nat) {before : Option String} (acc : List Listed)
    {rs : History} (hrs : (older (newer h cursor) before).reverse = rs) :
    (listPages cursor n before acc).alone perform e s = (s, .ok none) ∨
      (listPages cursor n before acc).alone perform e s =
        (s, .ok (some (acc ++ (rs.take (PAGE_LIMIT * n)).map Landed.listed))) := by
  induction n generalizing before acc rs with
  | zero =>
    right
    simp [listPages, Call.alone]
  | succ n ih =>
    have hpage : page h before cursor = (rs.take PAGE_LIMIT).map Landed.listed := by
      rw [page, hrs]
    rcases hr.signatures before cursor with hreply | hreply
    · simp only [listPages, Call.alone, perform, hreply, hpage]
      by_cases hfull : PAGE_LIMIT ≤ rs.length
      · rw [if_neg (page_full hfull)]
        have hmore := ih (acc ++ (rs.take PAGE_LIMIT).map Landed.listed)
          (older_page (newer_nodup hn) hrs hfull)
        rwa [List.append_assoc, pages_succ] at hmore
      · rw [if_pos (page_short hfull), pages_last hfull]
        exact .inr rfl
    · left
      simp only [listPages, Call.alone, perform, hreply]

/-- The listed transactions are read from the oldest on, up to the budget or to one that is not
served yet. -/
theorem readListed_replies {h : History} {e : Env} (hr : Replies h e) {s : Store}
    (reference : String) {xs : History} (hxs : ∀ x ∈ xs, x ∈ h) {r : Reading} :
    (readListed reference (xs.map Landed.listed) r).alone perform e s = (s, .ok none) ∨
      ∃ ys, ys <+: xs ∧ (readListed reference (xs.map Landed.listed) r).alone perform e s =
        (s, .ok (some (readAll reference ys r))) := by
  induction xs generalizing r with
  | nil => exact .inr ⟨[], List.prefix_rfl, rfl⟩
  | cons x xs ih =>
    have hrest : ∀ y ∈ xs, y ∈ h := fun y hy => hxs y (List.mem_cons_of_mem _ hy)
    simp only [List.map_cons, readListed]
    by_cases hok : x.listed.ok = true
    · rw [if_pos hok]
      by_cases hread : TX_BUDGET ≤ r.read
      · rw [if_pos hread]
        exact .inr ⟨[], List.nil_prefix, rfl⟩
      · rw [if_neg hread]
        rcases hr.transaction x (hxs x List.mem_cons_self) with hreply | hreply | hreply
        · change e.transaction x.listed.signature = _ at hreply
          simp only [Call.alone, perform, hreply]
          rcases ih hrest (r := r.take x.listed reference x.tx) with hnone | ⟨ys, hys, hmore⟩
          · exact .inl hnone
          · refine .inr ⟨x :: ys, List.cons_prefix_cons.mpr ⟨rfl, hys⟩, ?_⟩
            rw [hmore, readAll, if_pos hok, if_neg hread]
        · change e.transaction x.listed.signature = _ at hreply
          refine .inr ⟨[], List.nil_prefix, ?_⟩
          simp only [Call.alone, perform, hreply, readAll]
        · change e.transaction x.listed.signature = _ at hreply
          left
          simp only [Call.alone, perform, hreply]
    · rw [if_neg hok]
      rcases ih hrest (r := { r with advance := some x.signature }) with hnone | ⟨ys, hys, hmore⟩
      · exact .inl hnone
      · refine .inr ⟨x :: ys, List.cons_prefix_cons.mpr ⟨rfl, hys⟩, ?_⟩
        rw [readAll, if_neg hok]
        exact hmore

/-- A pass answers with what it read of the start of its window. -/
theorem scan_replies {h : History} {e : Env} (hr : Replies h e) (hn : (signaturesOf h).Nodup)
    {s s' : Store} {cursor : Option String} {reference : String} {result : Except CardsError Scan}
    (hscan : (scan cursor reference).alone perform e s = (s', result)) :
    result = .ok .unavailable ∨ ∃ ys, ys <+: listing (newer h cursor) ∧
      result = .ok (readAll reference ys {}).answer := by
  have hin : ∀ x ∈ listing (newer h cursor), x ∈ h :=
    fun x hx => mem_newer ((listing_suffix _).subset hx)
  unfold scan at hscan
  rcases listPages_replies hr hn (s := s) LIST_PAGES []
    (show (older (newer h cursor) none).reverse = _ from rfl) with hlist | hlist
  · rw [Call.alone_bind hlist] at hscan
    cases hscan
    exact .inl rfl
  · rw [Call.alone_bind hlist] at hscan
    dsimp only at hscan
    rw [List.nil_append, ← List.map_reverse] at hscan
    change (readListed reference ((listing (newer h cursor)).map Landed.listed) {} >>= _).alone
      perform e s = _ at hscan
    rcases readListed_replies hr (s := s) reference hin (r := {}) with hread | ⟨ys, hys, hread⟩
    · rw [Call.alone_bind hread] at hscan
      cases hscan
      exact .inl rfl
    · rw [Call.alone_bind hread] at hscan
      cases hscan
      exact .inr ⟨ys, hys, rfl⟩

/-! ## What a pass passes over -/

theorem pays_payouts {reference : String} {x : Landed} {xs : History} (hx : x ∈ xs)
    (hpays : Pays reference x) : payouts reference xs ≠ [] := by
  obtain ⟨hok, s, hs, href⟩ := hpays
  intro hnil
  have hmem : (x.signature, s) ∈ payouts reference xs :=
    mem_payouts.mpr ⟨x, hx, hok, rfl, hs, href⟩
  rw [hnil] at hmem
  cases hmem

omit [Connector] in
/-- What has fewer newer transactions than a pass lists is listed. -/
theorem mem_listing {es : History} {x : Landed} (hn : (signaturesOf es).Nodup) (hx : x ∈ es)
    (hfew : (newer es (some x.signature)).length < PAGE_LIMIT * LIST_PAGES) : x ∈ listing es := by
  obtain ⟨as, bs, rfl⟩ := List.append_of_mem hx
  rw [newer_split hn] at hfew
  rw [listing, List.mem_reverse, List.reverse_append, List.reverse_cons, List.append_assoc,
    List.take_append, List.mem_append]
  right
  rw [List.length_reverse]
  obtain ⟨n, hrest⟩ := Nat.exists_eq_succ_of_ne_zero (Nat.sub_ne_zero_of_lt hfew)
  rw [hrest, List.singleton_append, List.take_succ_cons]
  exact List.mem_cons_self

/-- A payout that a pass lists is newer than where the pass moves its cursor. -/
theorem pass_keeps {h : History} {cursor : Option String} {reference next : String} {x : Landed}
    {ys : History} (hn : (signaturesOf h).Nodup) (hys : ys <+: listing (newer h cursor))
    (hx : x ∈ newer h cursor) (hpays : Pays reference x)
    (hfew : (newer h (some x.signature)).length < PAGE_LIMIT * LIST_PAGES)
    (hanswer : (readAll reference ys {}).answer = .pending (some next)) :
    x ∈ newer h (some next) := by
  unfold Reading.answer at hanswer
  split at hanswer
  · rename_i hnil
    have hadvance : (readAll reference ys {}).advance = some next := Scan.pending.inj hanswer
    obtain ⟨⟨skipped, hlist, hnone⟩, -⟩ := reading_skips hn hys hnil hadvance
    have hsig : x.signature ∈ signaturesOf (newer h cursor) := List.mem_map_of_mem hx
    rw [newer_of_suffix hn (newer_suffix h cursor) hsig] at hfew
    have hlisted := mem_listing (newer_nodup hn) hx hfew
    rw [hlist] at hlisted
    rcases List.mem_append.mp hlisted with hin | hin
    · exact absurd hnone (pays_payouts hin hpays)
    · exact (listing_suffix _).subset hin
  · cases hanswer

/-! ## Runs of passes -/

/-- The cursor that a pass leaves. -/
def Scan.after (cursor : Option String) : Scan → Option String
  | .pending (some next) => some next
  | _ => cursor

structure Pass where
  history : History
  cursor : Option String
  result : Scan

/-- Passes over a history that grows, each from the cursor that the passes before left. -/
inductive Passes (reference : String) : History → Option String → List Pass → Prop where
  | nil {h : History} {cursor : Option String} : Passes reference h cursor []
  | cons {h h' : History} {cursor : Option String} {e : Env} {s s' : Store} {result : Scan}
      {passes : List Pass} (hgrows : h <+: h') (hnodup : (signaturesOf h').Nodup)
      (hreplies : Replies h' e)
      (hscan : (scan cursor reference).alone perform e s = (s', .ok result))
      (hrest : Passes reference h' (result.after cursor) passes) :
      Passes reference h cursor (⟨h', cursor, result⟩ :: passes)

omit [Connector] in
/-- What lands is newer than every cursor. -/
theorem newer_grow {h t : History} {cursor : Option String}
    (hknown : ∀ c, cursor = some c → c ∈ signaturesOf h) :
    newer (h ++ t) cursor = newer h cursor ++ t := by
  cases cursor with
  | none => rfl
  | some c =>
    have hc := hknown c rfl
    have hall : c ∈ signaturesOf (h ++ t) := by
      rw [signaturesOf, List.map_append]
      exact List.mem_append_left _ hc
    have hne : h.dropWhile (fun x => decide (x.signature ≠ c)) ≠ [] := by
      rw [Ne, List.dropWhile_eq_nil_iff, not_forall]
      obtain ⟨x, hx, hxc⟩ := List.mem_map.mp hc
      exact ⟨x, fun hall => absurd (hall hx) (by simp [hxc])⟩
    simp only [newer, if_pos hc, if_pos hall]
    rw [List.dropWhile_append, if_neg (by simpa using hne), List.tail_append_of_ne_nil hne]

/-- What a pass leaves is known in the history. -/
theorem after_known {h : History} {e : Env} {s s' : Store} {cursor : Option String}
    {reference : String} {result : Scan} (hr : Replies h e) (hn : (signaturesOf h).Nodup)
    (hknown : ∀ c, cursor = some c → c ∈ signaturesOf h)
    (hscan : (scan cursor reference).alone perform e s = (s', .ok result)) :
    ∀ c, result.after cursor = some c → c ∈ signaturesOf h := by
  intro c hc
  rcases scan_replies hr hn hscan with hdown | ⟨ys, hys, hanswer⟩
  · cases Except.ok.inj hdown
    exact hknown c hc
  · cases Except.ok.inj hanswer
    unfold Reading.answer at hc
    split at hc
    · cases hadvance : (readAll reference ys {}).advance with
      | none =>
        rw [hadvance] at hc
        exact hknown c hc
      | some next =>
        rw [hadvance] at hc
        cases hc
        rename_i hnil
        have hmem := (reading_skips hn hys hnil hadvance).2
        exact ((newer_suffix h cursor).map Landed.signature).subset hmem
    · exact hknown c hc

/-- The run of passes, from any cursor that the payout is newer than. -/
theorem passes_keep {reference : String} {h : History} {first cursor : Option String}
    {passes : List Pass} {x : Landed} (hrun : Passes reference h cursor passes)
    (hfirst : ∀ c, first = some c → c ∈ signaturesOf h)
    (hknown : ∀ c, cursor = some c → c ∈ signaturesOf h)
    (hkeep : x ∈ newer h first → x ∈ newer h cursor) (hpays : Pays reference x)
    (hfew : ∀ p ∈ passes, x ∈ p.history →
      (newer p.history (some x.signature)).length < PAGE_LIMIT * LIST_PAGES) :
    ∀ p ∈ passes, x ∈ newer p.history first →
      ∀ next, p.result = .pending (some next) → x ∈ newer p.history (some next) := by
  induction hrun with
  | nil => exact fun p hp => nomatch hp
  | @cons h h' cursor e s s' result passes hgrows hnodup hreplies hscan hrest ih =>
    obtain ⟨t, rfl⟩ := hgrows
    have hgrown : ∀ {c : Option String}, (∀ d, c = some d → d ∈ signaturesOf h) →
        ∀ d, c = some d → d ∈ signaturesOf (h ++ t) := by
      intro c hc d hd
      rw [signaturesOf, List.map_append]
      exact List.mem_append_left _ (hc d hd)
    have hstart : x ∈ newer (h ++ t) first → x ∈ newer (h ++ t) cursor := by
      rw [newer_grow hfirst, newer_grow hknown, List.mem_append, List.mem_append]
      rintro (hold | hnew)
      · exact .inl (hkeep hold)
      · exact .inr hnew
    have hpass : x ∈ newer (h ++ t) first → ∀ next, result = .pending (some next) →
        x ∈ newer (h ++ t) (some next) := by
      intro hx next hnext
      rcases scan_replies hreplies hnodup hscan with hdown | ⟨ys, hys, hanswer⟩
      · rw [Except.ok.inj hdown] at hnext
        cases hnext
      · rw [Except.ok.inj hanswer] at hnext
        exact pass_keeps hnodup hys (hstart hx) hpays
          (hfew _ List.mem_cons_self (mem_newer hx)) hnext
    have hafter : x ∈ newer (h ++ t) first → x ∈ newer (h ++ t) (result.after cursor) := by
      intro hx
      cases result with
      | found payouts slot => exact hstart hx
      | unavailable => exact hstart hx
      | pending advance =>
        cases advance with
        | none => exact hstart hx
        | some next => exact hpass hx next rfl
    intro p hp
    rcases List.mem_cons.mp hp with rfl | hp
    · exact hpass
    · exact ih (hgrown hfirst) (after_known hreplies hnodup (hgrown hknown) hscan) hafter
        (fun p hp => hfew p (List.mem_cons_of_mem _ hp)) p hp

/-- **The scan passes over no payout it can list.** Along passes that each start while fewer than
2000 transactions are newer than a payout with the reference, no pass moves its cursor to that
payout or beyond. -/
theorem scan_keeps {reference : String} {h : History} {first : Option String}
    {passes : List Pass} {x : Landed} (hrun : Passes reference h first passes)
    (hfirst : ∀ c, first = some c → c ∈ signaturesOf h) (hpays : Pays reference x)
    (hfew : ∀ p ∈ passes, x ∈ p.history →
      (newer p.history (some x.signature)).length < PAGE_LIMIT * LIST_PAGES) :
    ∀ p ∈ passes, x ∈ newer p.history first →
      ∀ next, p.result = .pending (some next) → x ∈ newer p.history (some next) :=
  passes_keep hrun hfirst hfirst id hpays hfew

end

/-! ## A busy account -/

/-- A transaction of the account that failed. -/
def failedAt (i : Nat) : Landed :=
  ⟨⟨String.ofList (List.replicate (i + 1) 'f'), 0, false⟩, ⟨true, none, []⟩⟩

def paidOut : Landed := ⟨⟨"payout", 0, true⟩, sampleTx "Vault" "VaultTokens"⟩

/-- A payout, and failed transactions after it. -/
def busy (n : Nat) : History := paidOut :: (List.range n).map failedAt

theorem failedAt_signature {i j : Nat} (h : (failedAt i).signature = (failedAt j).signature) :
    i = j := by
  have hchars := congrArg String.toList h
  simp only [failedAt, Landed.signature, String.toList_ofList] at hchars
  have hlength := congrArg List.length hchars
  simpa using hlength

theorem busy_nodup (n : Nat) : (signaturesOf (busy n)).Nodup := by
  rw [busy, signaturesOf, List.map_cons, List.nodup_cons, List.map_map]
  constructor
  · intro hmem
    obtain ⟨i, -, hi⟩ := List.mem_map.mp hmem
    have hchars := congrArg String.toList hi
    simp only [Function.comp, failedAt, Landed.signature, String.toList_ofList,
      List.replicate_succ] at hchars
    exact absurd (List.cons.inj hchars).1 (by decide)
  · exact (List.nodup_range.map fun i j => failedAt_signature)

theorem busy_succ (n : Nat) : busy (n + 1) = busy n ++ failedAt n :: [] := by
  rw [busy, List.range_succ, List.map_append, busy, List.cons_append]
  rfl

theorem listing_busy : listing (busy (PAGE_LIMIT * LIST_PAGES)) =
    (List.range (PAGE_LIMIT * LIST_PAGES)).map failedAt := by
  rw [listing, busy, List.reverse_cons, List.take_left' (by simp), List.reverse_reverse]

section

variable [Connector]

/-- A window in which everything failed is read to its end. -/
theorem readAll_failed {reference : String} {xs : History} {r : Reading}
    (hfailed : ∀ x ∈ xs, x.listed.ok = false) :
    readAll reference xs r =
      { r with advance := ((xs.getLast?).map Landed.signature).or r.advance } := by
  induction xs generalizing r with
  | nil => rfl
  | cons x xs ih =>
    rw [readAll, if_neg (by rw [hfailed x List.mem_cons_self]; exact Bool.false_ne_true),
      ih fun y hy => hfailed y (List.mem_cons_of_mem _ hy)]
    cases xs with
    | nil => rfl
    | cons y ys =>
      rw [List.getLast?_cons_cons]
      cases hlast : (y :: ys).getLast? with
      | none => cases List.getLast?_eq_none_iff.mp hlast
      | some z => rfl

end

theorem paidOut_pays : letI := sampleConnector; Pays "7" paidOut := by
  let _ := sampleConnector
  have hfound : settlementsIn paidOut.tx =
      some [⟨"7", "VaultTokens", "Partner", "Vault", "Mint", 5⟩] := settlementsIn_sample _ _
  exact ⟨rfl, _, by rw [hfound]; exact List.mem_singleton_self _, rfl⟩

/-- The cursor that a pass over a busy account moves to. -/
theorem scan_busy : letI := sampleConnector
    (scan none "7").alone perform (serve (busy (PAGE_LIMIT * LIST_PAGES))) {} =
      ({}, .ok (.pending (some (failedAt (PAGE_LIMIT * LIST_PAGES - 1)).signature))) := by
  let _ := sampleConnector
  rw [alone_scan (serve_serving (busy_nodup _)) (busy_nodup _)]
  have hread : reading "7" (newer (busy (PAGE_LIMIT * LIST_PAGES)) none) =
      { advance := some (failedAt (PAGE_LIMIT * LIST_PAGES - 1)).signature } := by
    unfold reading
    rw [newer, listing_busy, readAll_failed fun x hx => ?_]
    · have hlast : (List.range (PAGE_LIMIT * LIST_PAGES)).getLast? =
          some (PAGE_LIMIT * LIST_PAGES - 1) := by
        rw [List.getLast?_range, if_neg (by decide)]
      rw [List.getLast?_map, hlast]
      rfl
    · obtain ⟨i, -, rfl⟩ := List.mem_map.mp hx
      rfl
  rw [scanned, hread]
  rfl

/-- One pass over a payout and 2000 failed transactions after it moves its cursor beyond the
payout. -/
theorem scan_passes_over : letI := sampleConnector
    ∃ passes, Passes "7" [] none passes ∧ Pays "7" paidOut ∧
      ∃ p ∈ passes, paidOut ∈ newer p.history none ∧
        ∃ next, p.result = .pending (some next) ∧ paidOut ∉ newer p.history (some next) := by
  let _ := sampleConnector
  refine ⟨_, .cons (List.nil_prefix) (busy_nodup _)
    (serve_serving (busy_nodup (PAGE_LIMIT * LIST_PAGES))).replies scan_busy .nil, paidOut_pays,
    _, List.mem_singleton_self _, List.mem_cons_self, _, rfl, ?_⟩
  have hsucc : PAGE_LIMIT * LIST_PAGES = (PAGE_LIMIT * LIST_PAGES - 1) + 1 := rfl
  have hnodup := busy_nodup (PAGE_LIMIT * LIST_PAGES)
  dsimp only
  rw [hsucc, busy_succ] at hnodup ⊢
  rw [Nat.add_sub_cancel, newer_split hnodup]
  exact List.not_mem_nil

/-- The payout lands after a failed transaction, and is not served yet in the first pass. -/
theorem scan_keeps_sample : letI := sampleConnector
    ∃ passes, Passes "7" [] none passes ∧
      ∀ p ∈ passes, paidOut ∈ newer p.history none →
        ∀ next, p.result = .pending (some next) → paidOut ∈ newer p.history (some next) := by
  let _ := sampleConnector
  let h := [failedAt 0, paidOut]
  have hnodup : (signaturesOf h).Nodup := by decide
  have hreplies : Replies h { serve h with transaction := fun _ => some none } :=
    ⟨fun _ _ => .inl rfl, fun _ _ => .inr (.inl rfl)⟩
  have hrun : Passes "7" [] none [⟨h, none, .pending (some "f")⟩] :=
    .cons (s := {}) List.nil_prefix hnodup hreplies rfl .nil
  refine ⟨_, hrun, scan_keeps hrun (fun c hc => nomatch hc) paidOut_pays fun p hp _ => ?_⟩
  rw [List.mem_singleton.mp hp]
  decide

end ChainPay.Repay
