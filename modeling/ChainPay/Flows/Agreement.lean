import ChainPay.Flows.Lineage

/-!
What an owner may rely on. A live card is the last of its versions; who it belongs to, when it was
opened and when it ends stay as they are, its revision grows, and once settled it stays. Below the
caps of both stores and at equal clocks, the one in memory and the one on Convex take the same
versions, answer alike and show the same cards.
-/

namespace ChainPay.Flows
open ChainPay.Lib

section

variable {σ : Type} {S : FlowStore σ} {Well : σ → Prop}
  {card : σ → String → Option PaymentFlowRecord}

/-- No update is lost, mixed or undone. -/
structure Unmixed (S : FlowStore σ) (s : Held σ) : Prop where
  /-- A live card is the last version that was stored. -/
  live : ∀ id now, s.clock ≤ now → now ≤ MAX_SAFE_INTEGER → S.getFlow s.store id now =
    ((versions s id).getLast?.map Version.record).filter fun c => now < c.expiresAt
  opens : ∀ id, ∀ v ∈ (versions s id).head?, Opens v
  follows : ∀ id, (versions s id).IsChain Follows
  newer : ∀ id, (versions s id).Pairwise fun a b =>
    sameCard a.record b.record ∧ a.record.updatedAt < b.record.updatedAt
  settled : ∀ id front v back, versions s id = front ++ v :: back →
    isSettled v.record.view = true → back = []
  full : ∀ v ∈ s.log, ∀ origin ∈ v.origin, isOne (origin.view "version") = true →
    ∀ name ∉ PRESERVED, v.record.view name = publicView origin.view name ∨
      name = "limits" ∧ v.record.view name = (publicView origin.view name).map dropAfter
  hidden : ∀ v ∈ s.log, v.record.view "mandate" = none ∧ v.record.view "recipient" = none

theorem Orderly.live (L : Lawful S Well card) {s : Held σ} (h : Orderly Well card s) {id : String}
    {now : Nat} (htime : s.clock ≤ now) (hsafe : now ≤ MAX_SAFE_INTEGER) :
    S.getFlow s.store id now =
      ((versions s id).getLast?.map Version.record).filter fun c => now < c.expiresAt := by
  rw [L.getFlow h.well hsafe]
  rcases h.held id with hheld | ⟨hnone, hexpired⟩
  · rw [hheld]
  · rw [hnone]
    cases hlast : (versions s id).getLast?.map Version.record with
    | none => rfl
    | some c =>
      have hc := hexpired c hlast
      rw [Option.filter_some_neg (by simpa using Nat.le_trans hc htime)]
      rfl

theorem Orderly.unmixed (L : Lawful S Well card) {s : Held σ} (h : Orderly Well card s) :
    Unmixed S s where
  live _ _ := h.live L
  opens id := (h.lineage id).first
  follows id := (h.lineage id).chain
  newer id := (h.lineage id).pairwise
  settled := by
    intro id front v back hsplit hsettled
    cases back with
    | nil => rfl
    | cons w back =>
      have hchain := (h.lineage id).chain
      rw [hsplit, List.isChain_append] at hchain
      have hopen := (List.isChain_cons_cons.mp hchain.2.1).1.1
      rw [hsettled] at hopen
      cases hopen
  full := by
    intro v hv origin horigin hone name hname
    have hmem : v ∈ versions s v.record.flowId := mem_versions.mpr ⟨hv, rfl⟩
    obtain ⟨front, back, hsplit⟩ := List.append_of_mem hmem
    have hline := h.lineage v.record.flowId
    rw [hsplit] at hline
    cases hlast : front.getLast? with
    | none =>
      rw [List.getLast?_eq_none_iff] at hlast
      subst hlast
      rw [(hline.first v rfl).1] at horigin
      cases horigin
    | some a =>
      have hfollows := (List.isChain_append.mp hline.chain).2.2 a hlast v rfl
      obtain ⟨-, view, now, heq, hrecord⟩ := hfollows
      rw [heq, Option.mem_some_iff] at horigin
      subst horigin
      rw [hrecord]
      exact merged_full hone hname
  hidden v hv := (h.lineage v.record.flowId).hidden v (mem_versions.mpr ⟨hv, rfl⟩)

/-- A card that is shown is the last of its versions. -/
theorem Orderly.shown (L : Lawful S Well card) {s : Held σ} (h : Orderly Well card s) {id : String}
    {now : Nat} {c : PaymentFlowRecord} (hget : S.getFlow s.store id now = some c) :
    ∃ v, (versions s id).getLast? = some v ∧ v.record = c := by
  have hcard := L.getFlow_unsafe hget
  rcases h.held id with hheld | ⟨hnone, -⟩
  · rw [hcard] at hheld
    exact Option.map_eq_some_iff.mp hheld.symm
  · rw [hcard] at hnone
    cases hnone

/-- A card at a later moment. -/
structure Later (S : FlowStore σ) (s s' : Held σ) : Prop where
  log : s.log <+: s'.log
  card : ∀ id now now' c c', S.getFlow s.store id now = some c →
    S.getFlow s'.store id now' = some c' →
      sameCard c c' ∧ c.updatedAt ≤ c'.updatedAt ∧
        (c.updatedAt = c'.updatedAt ∨ isSettled c.view = true → c' = c)

theorem Orderly.later (L : Lawful S Well card) {s s' : Held σ} (h : Orderly Well card s)
    (h' : Orderly Well card s') (hlog : s.log <+: s'.log) : Later S s s' where
  log := hlog
  card := by
    intro id now now' c c' hc hc'
    obtain ⟨v, hv, rfl⟩ := h.shown L hc
    obtain ⟨v', hv', rfl⟩ := h'.shown L hc'
    obtain ⟨more, hmore⟩ := hlog
    have hversions : versions s' id = versions s id ++
        more.filter fun v => v.record.flowId = id := by
      rw [versions, ← hmore, List.filter_append]
      rfl
    obtain ⟨front, hfront⟩ := List.getLast?_eq_some_iff.mp hv
    rw [hversions, hfront, List.append_assoc, List.singleton_append] at hv'
    cases hrest : more.filter fun v => v.record.flowId = id with
    | nil =>
      rw [hrest, List.getLast?_concat, Option.some.injEq] at hv'
      rw [hv']
      exact ⟨⟨rfl, rfl, rfl, rfl, rfl⟩, le_rfl, fun _ => rfl⟩
    | cons w rest =>
      rw [hrest, hfront, List.append_assoc, List.singleton_append] at hversions
      rw [hrest] at hv'
      have hmem : v' ∈ w :: rest := by
        rw [List.getLast?_append, List.getLast?_cons_cons] at hv'
        cases hlast : (w :: rest).getLast? with
        | none => exact absurd (List.getLast?_eq_none_iff.mp hlast) (List.cons_ne_nil _ _)
        | some x =>
          rw [hlast] at hv'
          cases hv'
          exact List.mem_of_getLast? hlast
      have hpairs := (h'.unmixed L).newer id
      rw [hversions, List.pairwise_append] at hpairs
      obtain ⟨hsame, hlt⟩ := (List.pairwise_cons.mp hpairs.2.1).1 v' hmem
      refine ⟨hsame, Nat.le_of_lt hlt, ?_⟩
      rintro (heq | hsettled)
      · omega
      · exact absurd ((h'.unmixed L).settled id front v (w :: rest) hversions hsettled)
          (List.cons_ne_nil _ _)

/-- **Every interleaving.** -/
theorem run_unmixed (L : Lawful S Well card) (publicMcpOrigin : String)
    {acts more : List (Act Nat Request Empty)}
    (hkept : (system S publicMcpOrigin).Kept terms (start S) (acts ++ more)) :
    Unmixed S ((system S publicMcpOrigin).run (start S) acts).store ∧
      Later S ((system S publicMcpOrigin).run (start S) acts).store
        ((system S publicMcpOrigin).run (start S) (acts ++ more)).store := by
  obtain ⟨hfirst, hmore⟩ := System.kept_append.mp hkept
  have hsound := (Discipline.run_sound (D := discipline S publicMcpOrigin Well card) (rules L)
    (Discipline.init_sound (Orderly.start L)) hfirst).1
  obtain ⟨hlater, hlog⟩ := Discipline.run_sound (D := discipline S publicMcpOrigin Well card)
    (rules L) hsound hmore
  have hrun := System.run_append (system S publicMcpOrigin) (start S) acts more
  refine ⟨hsound.inv.unmixed L, ?_⟩
  rw [hrun]
  exact hsound.inv.later L hlater.inv hlog

end

/-! ## Two stores -/

/-- The numbers of a record are safe integers. -/
def Safe (r : PaymentFlowRecord) : Prop :=
  r.createdAt ≤ MAX_SAFE_INTEGER ∧ r.updatedAt ≤ MAX_SAFE_INTEGER ∧ r.expiresAt ≤ MAX_SAFE_INTEGER

section

variable {σ : Type} {S : FlowStore σ}

theorem write_reply {s : Held σ} {r : PaymentFlowRecord} {expected : Option Nat}
    {origin : Option Origin} {now : Nat} (hpass : passes r expected = true) :
    (write S r expected origin now s).2 = (S.putFlow now r expected s.store).2 := by
  rw [write, if_pos hpass]
  split
  · rename_i hput
    rw [hput]
  · rename_i hput
    rw [hput]

/-- The log and the clock after a write go by its reply. -/
theorem write_held (s : Held σ) (r : PaymentFlowRecord) (expected : Option Nat)
    (origin : Option Origin) (now : Nat) :
    (write S r expected origin now s).1.log =
        (if (write S r expected origin now s).2 = .stored then s.log ++ [⟨r, origin⟩] else s.log) ∧
      (write S r expected origin now s).1.clock = now := by
  rw [write]
  split
  · split
    · exact ⟨(if_pos rfl).symm, rfl⟩
    · rename_i hnot _
      exact ⟨(if_neg fun h => hnot h).symm, rfl⟩
  · exact ⟨(if_neg PutReply.noConfusion).symm, rfl⟩

end

/-- The reply to an update, from the last version of the card. -/
def updateReply (now expected : Nat) (last : Option PaymentFlowRecord) : PutReply :=
  match last with
  | none => .conflict
  | some last => if last.updatedAt = expected ∧ now < last.expiresAt then .stored else .conflict

theorem updateReply_remains {before after : Option PaymentFlowRecord} {clock now expected : Nat}
    (h : Remains clock before after) (htime : clock ≤ now) :
    updateReply now expected after = updateReply now expected before := by
  rcases h with rfl | ⟨rfl, hexpired⟩
  · rfl
  · cases before with
    | none => rfl
    | some c =>
      have hc := hexpired c rfl
      change _ = if _ then _ else _
      rw [if_neg (by omega)]
      rfl

/-- In memory, an update that changes nothing of the card but its view. -/
theorem Memory.putFlow_update {now expected : Nat} {r : PaymentFlowRecord} {flows : FlowMap}
    (hsame : ∀ c, Memory.find flows r.flowId = some c → sameCard r c) :
    (Memory.putFlow now r (some expected) flows).2 =
      updateReply now expected (Memory.find flows r.flowId) := by
  unfold Memory.putFlow
  dsimp only
  cases hfind : Memory.find flows r.flowId with
  | none => rfl
  | some c =>
    obtain ⟨-, hwallet, hpayment, hcreated, hexpires⟩ := hsame c hfind
    rw [if_neg (by simp [hwallet])]
    have hconflict : Memory.conflicts now r (some expected) (some c) =
        !(decide (c.updatedAt = expected) && decide (now < c.expiresAt)) := by
      simp [Memory.conflicts, hpayment, hcreated, hexpires, Bool.not_and]
      rcases Nat.lt_or_ge now c.expiresAt with h | h
      · simp [h, Nat.not_le.mpr h]
      · simp [h, Nat.not_lt.mpr h]
    rw [hconflict, updateReply]
    by_cases hok : c.updatedAt = expected ∧ now < c.expiresAt
    · rw [if_pos hok, if_neg (by simp [hok.1, hok.2]), if_neg fun h => by cases h.2]
    · rw [if_neg hok, if_pos]
      rw [Bool.not_eq_true', Bool.eq_false_iff, ne_eq, Bool.and_eq_true, decide_eq_true_iff,
        decide_eq_true_iff]
      exact hok

theorem Convex.putFlow_update [RecordText] {now expected : Nat} {r : PaymentFlowRecord}
    {rows : List FlowRow} (hwell : Convex.Well rows) (hsafe : Safe r)
    (hfit : RecordText.length r ≤ MAX_TEXT) (hpass : passes r (some expected) = true)
    (hsame : ∀ c, Convex.card rows r.flowId = some c → sameCard r c ∧ Safe c) :
    (Convex.putFlow now r (some expected) rows).2 =
      updateReply now expected (Convex.card rows r.flowId) := by
  have hpass' : expected ≤ MAX_SAFE_INTEGER ∧ expected < r.updatedAt := by
    rw [passes, Bool.and_eq_true, decide_eq_true_iff, decide_eq_true_iff] at hpass
    exact hpass
  unfold Convex.putFlow
  dsimp only
  rw [if_neg (by have := hsafe.2.2; omega), if_neg (by omega)]
  cases hfind : Convex.find rows r.flowId with
  | none =>
    have hcard : Convex.card rows r.flowId = none := by rw [Convex.card, hfind]; rfl
    rw [hcard, if_neg (fun h => by cases h)]
    have hcompare : Convex.compare now r (some expected) none = .conflict := by
      rw [Convex.compare, if_neg (by omega)]
    rw [hcompare]
    rfl
  | some old =>
    have hcard : Convex.card rows r.flowId = some old.record := by rw [Convex.card, hfind]; rfl
    obtain ⟨⟨-, hwallet, hpayment, hcreated, hexpires⟩, hc⟩ := hsame old.record hcard
    obtain ⟨hid, hw, hx⟩ := hwell.columns old (find?_key hfind).1
    rw [hcard, if_neg (by simp [hw, hwallet])]
    have hcompare : Convex.compare now r (some expected) (some old) =
        updateReply now expected (some old.record) := by
      rw [Convex.compare, if_neg (by omega), updateReply]
      by_cases hlive : now < old.record.expiresAt
      · rw [if_neg (by rw [hx, hexpires, hpayment]; simp; omega), if_neg (by have := hc.2.1; omega)]
        by_cases hat : old.record.updatedAt = expected
        · rw [if_neg (not_not.mpr hat), if_neg (by have := hsafe.2.1; omega), if_neg (by omega),
            if_neg (by have := hc.1; have := hsafe.1; omega), if_neg (not_not.mpr hcreated.symm),
            if_pos ⟨hat, hlive⟩]
        · rw [if_pos hat, if_neg fun h => hat h.1]
      · rw [if_pos (Or.inl (by rw [hx]; omega)), if_neg fun h => hlive h.2]
    rw [hcompare, updateReply]
    by_cases hok : old.record.updatedAt = expected ∧ now < old.record.expiresAt
    · rw [if_pos hok]
      rfl
    · rw [if_neg hok]

/-- A card nobody opened is in no store. -/
theorem Orderly.card_none {σ : Type} {Well : σ → Prop} {card : σ → String → Option PaymentFlowRecord}
    {s : Held σ} (h : Orderly Well card s) {id : String} (hnone : Flows.versions s id = []) :
    card s.store id = none := by
  have hheld := h.held id
  rw [hnone] at hheld
  rcases hheld with hheld | ⟨hheld, -⟩
  · exact hheld
  · exact hheld

theorem drawn_log {σ τ : Type} {s : Held σ} {t : Held τ} (hlog : s.log = t.log) {o : Op}
    (h : drawn o s) : drawn o t := by
  cases o with
  | getFlow flowId now => trivial
  | putFlow r expected origin =>
    cases expected with
    | none => exact fun v hv => h v (hlog ▸ hv)
    | some expected => trivial

theorem plausible_log {σ τ : Type} {s : Held σ} {t : Held τ} (hlog : s.log = t.log) {o : Op}
    (h : Plausible s o) : Plausible t o := by
  cases o with
  | getFlow flowId now => trivial
  | putFlow r expected origin =>
    cases expected with
    | none => exact h
    | some expected =>
      obtain ⟨read, hread, hrest⟩ := h
      exact ⟨read, hlog ▸ hread, hrest⟩

/-- Below the caps of both stores, a call reads at the time of the store. -/
def caps [RecordText] : Terms (Held FlowMap) Op Nat Request Empty Unit where
  Starts _ := True
  Meets _ _ s o e :=
    match o with
    | .getFlow _ now => now = e ∧ e ≤ MAX_SAFE_INTEGER
    | .putFlow r expected _ => Safe r ∧ RecordText.length r ≤ Convex.MAX_TEXT ∧
      (expected = none → (Memory.purge e s.store).length < Memory.MAX_FLOWS)
  Outside _ _ := True

/-- Two stores that took the same versions. -/
structure Twins (s : Held FlowMap) (t : Held (List FlowRow)) : Prop where
  inMemory : Orderly Memory.Well Memory.find s
  onConvex : Orderly Convex.Well Convex.card t
  log : s.log = t.log
  clock : s.clock = t.clock
  safe : ∀ v ∈ s.log, Safe v.record

section

variable [RecordText] {s : Held FlowMap} {t : Held (List FlowRow)}

theorem Twins.versions (h : Twins s t) (id : String) : versions t id = versions s id := by
  rw [Flows.versions, Flows.versions, h.log]

theorem Twins.live (h : Twins s t) {id : String} {now : Nat} (htime : s.clock ≤ now)
    (hsafe : now ≤ MAX_SAFE_INTEGER) :
    memory.getFlow s.store id now = convex.getFlow t.store id now := by
  rw [h.inMemory.live Memory.lawful htime hsafe,
    h.onConvex.live Convex.lawful (h.clock ▸ htime) hsafe, h.versions]

theorem Twins.create (h : Twins s t) {r : PaymentFlowRecord} {origin : Option Origin} {now : Nat}
    (hnew : ∀ v ∈ s.log, v.record.flowId ≠ r.flowId) (hsafe : Safe r)
    (hfit : RecordText.length r ≤ Convex.MAX_TEXT)
    (hroom : (Memory.purge now s.store).length < Memory.MAX_FLOWS) :
    (write memory r none origin now s).2 = .stored ∧
      (write convex r none origin now t).2 = .stored := by
  have hnone : Flows.versions s r.flowId = [] := by
    rw [List.eq_nil_iff_forall_not_mem]
    intro v hv
    exact hnew v (mem_versions.mp hv).1 (mem_versions.mp hv).2
  have hmemory : Memory.find s.store r.flowId = none := h.inMemory.card_none hnone
  have hconvex : Convex.find t.store r.flowId = none :=
    Option.map_eq_none_iff.mp (h.onConvex.card_none ((h.versions _).trans hnone))
  rw [write_reply rfl, write_reply rfl]
  constructor
  · change (Memory.putFlow now r none s.store).2 = _
    unfold Memory.putFlow
    dsimp only
    rw [hmemory, if_neg (fun h => nomatch h), if_neg (fun h => nomatch h), if_neg (by omega)]
  · change (Convex.putFlow now r none t.store).2 = _
    unfold Convex.putFlow
    dsimp only
    rw [if_neg (by have := hsafe.2.2; omega), if_neg (by omega), hconvex,
      if_neg (fun h => nomatch h)]
    rfl

theorem Twins.update (h : Twins s t) {read : Version} {view : View} {writing now : Nat}
    {origin : Option Origin} (hread : read ∈ s.log) (htime : s.clock ≤ now)
    (hsafe : Safe (revised read.record view writing))
    (hfit : RecordText.length (revised read.record view writing) ≤ Convex.MAX_TEXT) :
    let r := revised read.record view writing
    (write memory r (some read.record.updatedAt) origin now s).2 =
      (write convex r (some read.record.updatedAt) origin now t).2 := by
  intro r
  by_cases hpass : passes r (some read.record.updatedAt) = true
  · -- what each store holds is the last version, or it is gone after it expired
    have hlast : ∀ c, (Flows.versions s r.flowId).getLast?.map Version.record = some c →
        sameCard r c ∧ Safe c := by
      intro c hc
      obtain ⟨last, hlast, rfl⟩ := Option.map_eq_some_iff.mp hc
      have hmem := List.mem_of_getLast? hlast
      have hsame : sameCard read.record last.record :=
        (h.inMemory.lineage r.flowId).sameCard (mem_versions.mpr ⟨hread, rfl⟩) hmem
      exact ⟨hsame, h.safe last (mem_versions.mp hmem).1⟩
    have hcard : ∀ {before after : Option PaymentFlowRecord} {clock : Nat} {c : PaymentFlowRecord},
        Remains clock before after → after = some c → before = some c := by
      intro before after clock c hremains hc
      rcases hremains with rfl | ⟨hnone, -⟩
      · exact hc
      · rw [hc] at hnone
        cases hnone
    have hm := h.inMemory.held r.flowId
    have hc := h.onConvex.held r.flowId
    rw [h.versions] at hc
    have hmemory : (Memory.putFlow now r (some read.record.updatedAt) s.store).2 = _ :=
      Memory.putFlow_update fun c hfind => (hlast c (hcard hm hfind)).1
    have hconvex : (Convex.putFlow now r (some read.record.updatedAt) t.store).2 = _ :=
      Convex.putFlow_update h.onConvex.well hsafe hfit hpass fun c hfind => hlast c (hcard hc hfind)
    rw [write_reply hpass, write_reply hpass]
    change (Memory.putFlow now r (some read.record.updatedAt) s.store).2 =
      (Convex.putFlow now r (some read.record.updatedAt) t.store).2
    rw [hmemory, hconvex, updateReply_remains hm htime, updateReply_remains hc (h.clock ▸ htime)]
  · rw [write, write, if_neg hpass, if_neg hpass]

/-- **A step.** Both stores answer alike and take the same version. -/
theorem Twins.perform (h : Twins s t) {o : Op} {now : Nat} {b : Held FlowMap}
    (hterms : (terms (σ := FlowMap)).Meets b () s o now) (ho : Plausible s o)
    (hcaps : caps.Meets b () s o now) :
    Twins (perform memory o now s).1 (perform convex o now t).1 ∧
      (perform memory o now s).2 = (perform convex o now t).2 := by
  have hmemory := (perform_orderly Memory.lawful h.inMemory hterms.1 hterms.2 ho).1
  have hconvex := (perform_orderly Convex.lawful h.onConvex (h.clock ▸ hterms.1)
    (drawn_log h.log hterms.2) (plausible_log h.log ho)).1
  cases o with
  | getFlow flowId reading =>
    obtain ⟨rfl, hsafe⟩ := hcaps
    exact ⟨⟨hmemory, hconvex, h.log, rfl, h.safe⟩, h.live hterms.1 hsafe⟩
  | putFlow r expected origin =>
    obtain ⟨hsafe, hfit, hroom⟩ := hcaps
    have hreply : (write memory r expected origin now s).2 =
        (write convex r expected origin now t).2 := by
      cases expected with
      | none =>
        obtain ⟨hs, ht⟩ : (write memory r none origin now s).2 = .stored ∧
            (write convex r none origin now t).2 = .stored :=
          h.create hterms.2 hsafe hfit (hroom rfl)
        rw [hs, ht]
      | some expected =>
        obtain ⟨read, hread, view, writing, -, rfl, rfl, -⟩ := ho
        exact h.update hread hterms.1 hsafe hfit
    obtain ⟨hlog, hclock⟩ := write_held (S := memory) s r expected origin now
    obtain ⟨hlog', hclock'⟩ := write_held (S := convex) t r expected origin now
    refine ⟨⟨hmemory, hconvex, ?_, hclock.trans hclock'.symm, ?_⟩, hreply⟩
    · change (write memory r expected origin now s).1.log = _
      rw [hlog, hreply, h.log]
      exact hlog'.symm
    · intro v hv
      change v ∈ (write memory r expected origin now s).1.log at hv
      rw [hlog] at hv
      split at hv
      · rcases List.mem_append.mp hv with hv | hv
        · exact h.safe v hv
        · rw [List.mem_singleton.mp hv]
          exact hsafe
      · exact h.safe v hv

theorem parallel (publicMcpOrigin : String) :
    Parallel (system memory publicMcpOrigin) (system convex publicMcpOrigin)
      ((Discipline.asked terms Plausible).and caps) Twins where
  entry := rfl
  first := rfl
  note := rfl
  perform _ _ _ _ _ _ hm h := h.perform hm.1.1 hm.1.2 hm.2
  outside x := x.elim

/-- Two runs at the same point of their calls, with the same answers, versions and live cards. -/
structure Agree (w : Pool (Held FlowMap) Op Op.Ans Unit (Option String) Unit)
    (v : Pool (Held (List FlowRow)) Op Op.Ans Unit (Option String) Unit) : Prop where
  calls : w.threads.map Thread.call = v.threads.map Thread.call
  results : w.answers.map Answered.result = v.answers.map Answered.result
  log : w.store.log = v.store.log
  cards : ∀ id now, w.store.clock ≤ now → now ≤ MAX_SAFE_INTEGER →
    memory.getFlow w.store.store id now = convex.getFlow v.store.store id now

theorem run_agree (publicMcpOrigin : String) {acts : List (Act Nat Request Empty)}
    (hkept : (system memory publicMcpOrigin).Kept terms (start memory) acts)
    (hcaps : (system memory publicMcpOrigin).Kept caps (start memory) acts) :
    Agree ((system memory publicMcpOrigin).run (start memory) acts)
      ((system convex publicMcpOrigin).run (start convex) acts) := by
  have hasked := Discipline.kept_asked
    (D := discipline memory publicMcpOrigin Memory.Well Memory.find) (P := Plausible)
    (rules Memory.lawful) (fun r s _ _ => entry_asks Memory.lawful r s)
    (Discipline.init_sound (Orderly.start Memory.lawful)) (fun th hth => (nomatch hth)) hkept
  have halike := run_alike (parallel publicMcpOrigin)
    ⟨⟨Orderly.start Memory.lawful, Orderly.start Convex.lawful, rfl, rfl, fun v hv => (nomatch hv)⟩,
      rfl, rfl⟩ (System.kept_and hasked hcaps)
  refine ⟨?_, halike.results, halike.store.log, fun id now => halike.store.live⟩
  have hthreads := congrArg (List.map Prod.fst) halike.threads
  rw [List.map_map, List.map_map] at hthreads
  exact hthreads

/-- **Payment cards.** Over either store no update is lost, mixed or undone, and below the caps both
stores run alike. -/
theorem cards_never_lost (publicMcpOrigin : String) :
    (∀ acts more, (system memory publicMcpOrigin).Kept terms (start memory) (acts ++ more) →
      Unmixed memory ((system memory publicMcpOrigin).run (start memory) acts).store ∧
        Later memory ((system memory publicMcpOrigin).run (start memory) acts).store
          ((system memory publicMcpOrigin).run (start memory) (acts ++ more)).store) ∧
    (∀ acts more, (system convex publicMcpOrigin).Kept terms (start convex) (acts ++ more) →
      Unmixed convex ((system convex publicMcpOrigin).run (start convex) acts).store ∧
        Later convex ((system convex publicMcpOrigin).run (start convex) acts).store
          ((system convex publicMcpOrigin).run (start convex) (acts ++ more)).store) ∧
    ∀ acts, (system memory publicMcpOrigin).Kept terms (start memory) acts →
      (system memory publicMcpOrigin).Kept caps (start memory) acts →
      Agree ((system memory publicMcpOrigin).run (start memory) acts)
        ((system convex publicMcpOrigin).run (start convex) acts) :=
  ⟨fun _ _ hkept => run_unmixed Memory.lawful publicMcpOrigin hkept,
    fun _ _ hkept => run_unmixed Convex.lawful publicMcpOrigin hkept,
    fun _ hkept hcaps => run_agree publicMcpOrigin hkept hcaps⟩

end

instance {σ : Type} (o : Op) (s : Held σ) : Decidable (drawn o s) :=
  match o with
  | .putFlow record none _ =>
    inferInstanceAs (Decidable (∀ v ∈ s.log, v.record.flowId ≠ record.flowId))
  | .putFlow _ (some _) _ => .isTrue trivial
  | .getFlow _ _ => .isTrue trivial

instance (r : PaymentFlowRecord) : Decidable (Safe r) :=
  inferInstanceAs (Decidable (_ ∧ _ ∧ _))

namespace Sample

def publicMcpOrigin : String := "https://chainpay.test"

/-- The texts of the two records that are stored. -/
@[reducible] def recordText : RecordText where
  length r := if isSettled r.view then 190 else 176

def ready : View := fun k => if k = "state" then some (text "ready") else none

def paid : View := fun k =>
  if k = "version" then some (.num (some 1)) else if k = "state" then some (text "settled") else none

/-- A card is opened, and its payment settles. -/
def acts : List (Act Nat Request Empty) :=
  [.start (.createFlow (some "w") ready "p" "f") fun _ => 1000, .go 0 1000 fun _ => 1000,
    .start (.recordFlow (some "w") (some "f") paid "p") fun _ => 2000, .go 1 2000 fun _ => 2000,
    .go 1 2000 fun _ => 2000]

instance {σ : Type} (r : Request) : Decidable ((terms (σ := σ)).Starts r) := .isTrue trivial

instance {σ : Type} (b : Held σ) (g : Unit) (s : Held σ) (o : Op) (e : Nat) :
    Decidable (terms.Meets b g s o e) := inferInstanceAs (Decidable (_ ∧ _))

instance {σ : Type} (x : Empty) (s : Held σ) : Decidable (terms.Outside x s) := x.elim

instance [RecordText] (r : Request) : Decidable (caps.Starts r) := .isTrue trivial

instance [RecordText] (b : Held FlowMap) (g : Unit) (s : Held FlowMap) (o : Op) (e : Nat) :
    Decidable (caps.Meets b g s o e) :=
  match o with
  | .getFlow _ now => inferInstanceAs (Decidable (now = e ∧ e ≤ MAX_SAFE_INTEGER))
  | .putFlow r expected _ => inferInstanceAs (Decidable (Safe r ∧
      RecordText.length r ≤ Convex.MAX_TEXT ∧
        (expected = none → (Memory.purge e s.store).length < Memory.MAX_FLOWS)))

instance [RecordText] (x : Empty) (s : Held FlowMap) : Decidable (caps.Outside x s) := x.elim

end Sample

theorem cards_never_lost_sample :
    letI := Sample.recordText
    let w := (system memory Sample.publicMcpOrigin).run (start memory) Sample.acts
    let v := (system convex Sample.publicMcpOrigin).run (start convex) Sample.acts
    Unmixed memory w.store ∧ Unmixed convex v.store ∧ Agree w v ∧
      (versions w.store "f").length = 2 := by
  have htwo : (versions ((system memory Sample.publicMcpOrigin).run (start memory)
      Sample.acts).store "f").length = 2 := by decide
  obtain ⟨hmemory, hconvex, hagree⟩ := @cards_never_lost Sample.recordText Sample.publicMcpOrigin
  refine ⟨(hmemory Sample.acts [] ?_).1, (hconvex Sample.acts [] ?_).1, hagree Sample.acts ?_ ?_,
    htwo⟩
  · decide
  · decide
  · decide
  · decide

end ChainPay.Flows
