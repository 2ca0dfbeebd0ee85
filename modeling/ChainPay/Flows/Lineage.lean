import ChainPay.Flows.Cards

/-!
No update of a payment card is lost, mixed or undone: over either store, in whatever order the calls
run, each version that a card takes was computed from the version directly before it. And at equal
clocks and below the stores' caps, both stores take the same versions.
-/

namespace ChainPay.Flows
open ChainPay.Lib

/-! ## Views -/

theorem merged_hidden {existing view : View}
    (h : existing "mandate" = none ∧ existing "recipient" = none) :
    merged existing view "mandate" = none ∧ merged existing view "recipient" = none := by
  have hover : overlay existing view "mandate" = none ∧
      overlay existing view "recipient" = none := by
    unfold overlay kept
    split
    · exact ⟨rfl, rfl⟩
    · exact ⟨by rw [h.1]; rfl, by rw [h.2]; rfl⟩
  unfold merged
  split
  · exact hover
  · exact hover

/-- A full view takes nothing over but what is preserved. -/
theorem merged_full {existing view : View} (hfull : isOne (view "version") = true) {name : String}
    (hname : name ∉ PRESERVED) :
    merged existing view name = publicView view name ∨
      name = "limits" ∧ merged existing view name = (publicView view name).map dropAfter := by
  have hover : overlay existing view name = publicView view name := by
    unfold overlay kept
    rw [if_pos hfull, if_neg hname]
    cases publicView view name <;> rfl
  unfold merged
  split
  · by_cases hlimits : name = "limits"
    · right
      subst hlimits
      refine ⟨rfl, ?_⟩
      rw [View.set, if_pos rfl, hover]
    · left
      rw [View.set, if_neg hlimits, hover]
  · exact .inl hover

/-! ## Lineages -/

/-- The version a card is opened with. -/
def Opens (v : Version) : Prop :=
  v.origin = none ∧ ∃ origin wallet view paymentId now,
    v.record = opened origin wallet view paymentId v.record.flowId now

/-- A version that was computed from the one before it, which was not settled. -/
def Follows (a b : Version) : Prop :=
  isSettled a.record.view = false ∧ ∃ view now,
    b.origin = some ⟨a.record, view⟩ ∧ b.record = revised a.record view now

/-- The versions of one card. -/
structure Lineage (vs : List Version) : Prop where
  first : ∀ v ∈ vs.head?, Opens v
  chain : vs.IsChain Follows

/-- What no version of a card changes. -/
def sameCard (a b : PaymentFlowRecord) : Prop :=
  a.flowId = b.flowId ∧ a.wallet = b.wallet ∧ a.paymentId = b.paymentId ∧
    a.createdAt = b.createdAt ∧ a.expiresAt = b.expiresAt

theorem sameCard_revised (a : PaymentFlowRecord) (view : View) (now : Nat) :
    sameCard a (revised a view now) := ⟨rfl, rfl, rfl, rfl, rfl⟩

theorem updatedAt_revised (a : PaymentFlowRecord) (view : View) (now : Nat) :
    a.updatedAt < (revised a view now).updatedAt := by
  change a.updatedAt < max now (a.updatedAt + 1)
  omega

theorem Follows.later {a b : Version} (h : Follows a b) :
    sameCard a.record b.record ∧ a.record.updatedAt < b.record.updatedAt := by
  obtain ⟨-, view, now, -, hb⟩ := h
  rw [hb]
  exact ⟨sameCard_revised _ _ _, updatedAt_revised _ _ _⟩

instance : Std.Symm fun a b : Version => sameCard a.record b.record where
  symm := by
    rintro a b ⟨h₁, h₂, h₃, h₄, h₅⟩
    exact ⟨h₁.symm, h₂.symm, h₃.symm, h₄.symm, h₅.symm⟩

instance : IsTrans Version fun a b =>
    sameCard a.record b.record ∧ a.record.updatedAt < b.record.updatedAt where
  trans := by
    rintro a b c ⟨⟨h₁, h₂, h₃, h₄, h₅⟩, hab⟩ ⟨⟨g₁, g₂, g₃, g₄, g₅⟩, hbc⟩
    exact ⟨⟨h₁.trans g₁, h₂.trans g₂, h₃.trans g₃, h₄.trans g₄, h₅.trans g₅⟩, hab.trans hbc⟩

/-- Of two versions of a card the later one is newer. -/
theorem Lineage.pairwise {vs : List Version} (h : Lineage vs) :
    vs.Pairwise fun a b =>
      sameCard a.record b.record ∧ a.record.updatedAt < b.record.updatedAt :=
  List.isChain_iff_pairwise.mp (h.chain.imp fun _ _ hab => hab.later)

/-- A version with the revision of the last one is the last one. -/
theorem Lineage.last_of_updatedAt {vs : List Version} (h : Lineage vs) {v last : Version}
    (hv : v ∈ vs) (hlast : vs.getLast? = some last)
    (hat : v.record.updatedAt = last.record.updatedAt) : v = last := by
  obtain ⟨front, rfl⟩ := List.getLast?_eq_some_iff.mp hlast
  rcases List.mem_append.mp hv with hv | hv
  · have hlt := ((List.pairwise_append.mp h.pairwise).2.2 v hv last (List.mem_singleton_self _)).2
    omega
  · exact List.mem_singleton.mp hv

theorem lineage_open {v : Version} (h : Opens v) : Lineage [v] where
  first := fun w hw => by
    cases hw
    exact h
  chain := List.isChain_singleton _

theorem Lineage.snoc {vs : List Version} (h : Lineage vs) {last v : Version}
    (hlast : vs.getLast? = some last) (hv : Follows last v) : Lineage (vs ++ [v]) where
  first := by
    cases vs with
    | nil => cases hlast
    | cons w ws => exact h.first
  chain := by
    refine h.chain.append (List.isChain_singleton _) ?_
    intro a ha b hb
    cases hb
    rw [hlast] at ha
    cases ha
    exact hv

theorem Lineage.sameCard {vs : List Version} (h : Lineage vs) {v w : Version} (hv : v ∈ vs)
    (hw : w ∈ vs) : sameCard v.record w.record := by
  have hpairs := h.pairwise.imp fun hab => hab.1
  exact hpairs.forall_of_forall (fun _ _ => ⟨rfl, rfl, rfl, rfl, rfl⟩) hv hw

/-- No version of a card shows a mandate or a recipient. -/
theorem Lineage.hidden {vs : List Version} (h : Lineage vs) :
    ∀ v ∈ vs, v.record.view "mandate" = none ∧ v.record.view "recipient" = none := by
  induction vs using List.reverseRecOn with
  | nil => exact fun v hv => (List.not_mem_nil hv).elim
  | append_singleton vs v ih =>
    have hfront : Lineage vs := by
      refine ⟨?_, (List.isChain_append.mp h.chain).1⟩
      cases vs with
      | nil => exact fun w hw => nomatch hw
      | cons w ws => exact h.first
    intro w hw
    rcases List.mem_append.mp hw with hw | hw
    · exact ih hfront w hw
    · rw [List.mem_singleton.mp hw]
      cases hlast : vs.getLast? with
      | none =>
        rw [List.getLast?_eq_none_iff] at hlast
        subst hlast
        obtain ⟨-, origin, wallet, view, paymentId, now, heq⟩ := h.first v rfl
        rw [heq]
        exact ⟨rfl, rfl⟩
      | some last =>
        obtain ⟨-, view, now, -, heq⟩ :=
          (List.isChain_append.mp h.chain).2.2 last hlast v rfl
        rw [heq]
        exact merged_hidden (ih hfront last (List.mem_of_getLast? hlast))

/-! ## Lawful stores -/

/-- A card that is still there, or was purged after it expired. -/
def Remains (now : Nat) (before after : Option PaymentFlowRecord) : Prop :=
  after = before ∨ after = none ∧ ∀ c ∈ before, c.expiresAt ≤ now

/-- What a write against a revision replaces. -/
def Replaces (record : PaymentFlowRecord) : Option Nat → Option PaymentFlowRecord → Prop
  | none, before => before = none
  | some expected, before => ∃ c, before = some c ∧ c.updatedAt = expected

/-- What is asked of a store whose card under an id is `card`. -/
structure Lawful {σ : Type} (S : FlowStore σ) (Well : σ → Prop)
    (card : σ → String → Option PaymentFlowRecord) : Prop where
  well_empty : Well S.empty
  card_empty : ∀ id, card S.empty id = none
  card_id : ∀ {s id c}, Well s → card s id = some c → c.flowId = id
  getFlow : ∀ {s id now}, Well s → now ≤ MAX_SAFE_INTEGER →
    S.getFlow s id now = (card s id).filter fun c => now < c.expiresAt
  getFlow_unsafe : ∀ {s id now c}, S.getFlow s id now = some c → card s id = some c
  refused : ∀ {s s' now r expected reply}, Well s → S.putFlow now r expected s = (s', reply) →
    reply ≠ .stored → Well s' ∧ ∀ id, Remains now (card s id) (card s' id)
  stored : ∀ {s s' now r expected}, Well s → S.putFlow now r expected s = (s', .stored) →
    Well s' ∧ card s' r.flowId = some r ∧ Replaces r expected (card s r.flowId) ∧
      ∀ id, id ≠ r.flowId → Remains now (card s id) (card s' id)

section

variable {σ : Type}

/-- The versions of one card. -/
def versions (s : Held σ) (id : String) : List Version :=
  s.log.filter fun v => v.record.flowId = id

theorem mem_versions {s : Held σ} {id : String} {v : Version} :
    v ∈ versions s id ↔ v ∈ s.log ∧ v.record.flowId = id := by
  rw [versions, List.mem_filter, decide_eq_true_eq]

theorem versions_append {store store' : σ} {log : List Version} {clock clock' : Nat} (v : Version)
    (id : String) :
    versions ⟨store', log ++ [v], clock'⟩ id =
      versions ⟨store, log, clock⟩ id ++ if v.record.flowId = id then [v] else [] := by
  change (log ++ [v]).filter _ = log.filter _ ++ _
  rw [List.filter_append, List.filter_singleton]
  by_cases hid : v.record.flowId = id
  · simp [hid]
  · simp [hid]

/-- A store in order: each card's versions are a lineage, and the store holds the last of them or
has purged it. -/
structure Orderly (Well : σ → Prop) (card : σ → String → Option PaymentFlowRecord) (s : Held σ) :
    Prop where
  well : Well s.store
  lineage : ∀ id, Lineage (versions s id)
  held : ∀ id, Remains s.clock ((versions s id).getLast?.map Version.record) (card s.store id)

variable {S : FlowStore σ} {Well : σ → Prop} {card : σ → String → Option PaymentFlowRecord}

theorem Remains.trans {t now : Nat} {a b c : Option PaymentFlowRecord} (htime : t ≤ now)
    (hab : Remains t a b) (hbc : Remains now b c) : Remains now a c := by
  rcases hab with rfl | ⟨rfl, hexpired⟩
  · exact hbc
  · have hnone : c = none := by
      rcases hbc with rfl | ⟨rfl, -⟩
      · rfl
      · rfl
    exact .inr ⟨hnone, fun x hx => Nat.le_trans (hexpired x hx) htime⟩

theorem Orderly.start (L : Lawful S Well card) : Orderly Well card (start S).store where
  well := L.well_empty
  lineage id := ⟨fun v hv => (nomatch hv), List.isChain_nil⟩
  held id := .inl (L.card_empty id)

/-- The store, after a write that was not taken. -/
theorem Orderly.keep {s : Held σ} {store : σ} {now : Nat} (h : Orderly Well card s)
    (htime : s.clock ≤ now) (hwell : Well store)
    (hremains : ∀ id, Remains now (card s.store id) (card store id)) :
    Orderly Well card ⟨store, s.log, now⟩ where
  well := hwell
  lineage := h.lineage
  held id := (h.held id).trans htime (hremains id)

/-- The store, after a write that was. -/
theorem Orderly.take {s : Held σ} {store : σ} {now : Nat} {v : Version} (h : Orderly Well card s)
    (htime : s.clock ≤ now) (hwell : Well store)
    (hcard : card store v.record.flowId = some v.record)
    (hremains : ∀ id, id ≠ v.record.flowId → Remains now (card s.store id) (card store id))
    (hline : Lineage (versions s v.record.flowId ++ [v])) :
    Orderly Well card ⟨store, s.log ++ [v], now⟩ where
  well := hwell
  lineage id := by
    rw [@versions_append σ s.store store s.log s.clock now]
    by_cases hid : v.record.flowId = id
    · rw [if_pos hid, ← hid]
      exact hline
    · rw [if_neg hid, List.append_nil]
      exact h.lineage id
  held id := by
    rw [@versions_append σ s.store store s.log s.clock now]
    by_cases hid : v.record.flowId = id
    · rw [if_pos hid, List.getLast?_concat, ← hid]
      exact .inl hcard
    · rw [if_neg hid, List.append_nil]
      exact (h.held id).trans htime (hremains id fun heq => hid heq.symm)

/-- What a write does to a store in order: it takes the version or keeps all it had. -/
theorem write_orderly (L : Lawful S Well card) {s : Held σ} {r : PaymentFlowRecord}
    {expected : Option Nat} {origin : Option Origin} {now : Nat} (h : Orderly Well card s)
    (htime : s.clock ≤ now)
    (hline : Replaces r expected (card s.store r.flowId) →
      Lineage (versions s r.flowId ++ [⟨r, origin⟩])) :
    Orderly Well card (write S r expected origin now s).1 ∧
      s.log <+: (write S r expected origin now s).1.log := by
  unfold write
  split
  · split
    · rename_i store hput
      obtain ⟨hwell, hcard, hreplaces, hremains⟩ := L.stored h.well hput
      exact ⟨h.take htime hwell hcard hremains (hline hreplaces), List.prefix_append _ _⟩
    · rename_i store reply hnot hput
      obtain ⟨hwell, hremains⟩ := L.refused h.well hput hnot
      exact ⟨h.keep htime hwell hremains, List.prefix_rfl⟩
  · exact ⟨h.keep htime h.well fun id => .inl rfl, List.prefix_rfl⟩

/-- **A new card.** -/
theorem write_opened (L : Lawful S Well card) {s : Held σ} (publicMcpOrigin wallet : String)
    (view : View) (paymentId flowId : String) (opening : Nat) {now : Nat}
    (h : Orderly Well card s) (htime : s.clock ≤ now)
    (hnew : ∀ v ∈ s.log, v.record.flowId ≠ flowId) :
    let r := opened publicMcpOrigin wallet view paymentId flowId opening
    Orderly Well card (write S r none none now s).1 ∧ s.log <+: (write S r none none now s).1.log := by
  intro r
  refine write_orderly L h htime fun _ => ?_
  have hnone : versions s r.flowId = [] := by
    rw [List.eq_nil_iff_forall_not_mem]
    intro v hv
    exact hnew v (mem_versions.mp hv).1 (mem_versions.mp hv).2
  rw [hnone, List.nil_append]
  exact lineage_open ⟨rfl, publicMcpOrigin, wallet, view, paymentId, opening, rfl⟩

/-- **A write that is taken was computed from the version before it.** -/
theorem write_revised (L : Lawful S Well card) {s : Held σ} {read : Version} (view : View)
    (t : Nat) {now : Nat} (h : Orderly Well card s) (htime : s.clock ≤ now) (hread : read ∈ s.log)
    (hopen : isSettled read.record.view = false) :
    let r := revised read.record view t
    let origin := some ⟨read.record, view⟩
    Orderly Well card (write S r (some read.record.updatedAt) origin now s).1 ∧
      s.log <+: (write S r (some read.record.updatedAt) origin now s).1.log := by
  intro r origin
  refine write_orderly L h htime ?_
  rintro ⟨c, hc, hat⟩
  -- what the store holds is the last version, and no other version has its revision
  rcases h.held r.flowId with hheld | ⟨hnone, -⟩
  · rw [hc] at hheld
    obtain ⟨last, hlast, hrecord⟩ := Option.map_eq_some_iff.mp hheld.symm
    have hmem : read ∈ versions s r.flowId := mem_versions.mpr ⟨hread, rfl⟩
    have hsame : read = last :=
      (h.lineage _).last_of_updatedAt hmem hlast (by rw [hrecord, hat])
    subst hsame
    exact (h.lineage _).snoc hlast ⟨hopen, view, t, rfl, rfl⟩
  · rw [hc] at hnone
    cases hnone

/-! ## Runs -/

/-- Versions are only added. -/
def discipline (S : FlowStore σ) (publicMcpOrigin : String) (Well : σ → Prop)
    (card : σ → String → Option PaymentFlowRecord) :
    Discipline (Held σ) Op Op.Ans Nat Request Empty Unit (Option String) Unit where
  sys := system S publicMcpOrigin
  terms := terms
  Inv := Orderly Well card
  Rely a b := a.log <+: b.log
  Fault _ _ := True
  refl _ := List.prefix_rfl
  trans := List.IsPrefix.trans

/-- Nothing is asked of what a call answers. -/
def anything : Held σ → Unit → Option String → Prop := fun _ _ _ => True

variable {publicMcpOrigin : String}

/-- The operations that calls ask for: a new card, or the next version of one that was stored. -/
def Plausible (s : Held σ) : Op → Prop
  | .getFlow .. => True
  | .putFlow r none origin => origin = none ∧ ∃ publicMcpOrigin wallet view paymentId now,
      r = opened publicMcpOrigin wallet view paymentId r.flowId now
  | .putFlow r (some expected) origin => ∃ read ∈ s.log, ∃ view now,
      isSettled read.record.view = false ∧ r = revised read.record view now ∧
        expected = read.record.updatedAt ∧ origin = some ⟨read.record, view⟩

theorem createFlow_asks (wallet : Option String) (view : View) (paymentId flowId : String)
    (s : Held σ) : (discipline S publicMcpOrigin Well card).Asks Plausible
      (createFlow publicMcpOrigin wallet view paymentId flowId) s () := by
  unfold createFlow
  cases truthy wallet with
  | none => trivial
  | some wallet =>
    intro opening s' now _ _ _
    refine ⟨⟨rfl, publicMcpOrigin, wallet, view, paymentId, opening, rfl⟩, ?_⟩
    dsimp only [Call.bind]
    split <;> trivial

theorem recordAttempts_asks (L : Lawful S Well card) (wallet flowId paymentId : String)
    (attempts : Nat) (view : View) (s : Held σ) :
    (discipline S publicMcpOrigin Well card).Asks Plausible
      (recordAttempts wallet flowId paymentId attempts view) s () := by
  induction attempts generalizing view s with
  | zero => trivial
  | succ attempts ih =>
    intro reading s₁ t₁ hs₁ _ _
    refine ⟨trivial, ?_⟩
    dsimp only [Call.bind]
    split
    · trivial
    · rename_i existing hread
      split
      · trivial
      · split
        · trivial
        · rename_i hopen
          -- the card that was read is a version of the log
          obtain ⟨read, hmem, hrecord⟩ : ∃ read ∈ s₁.log, read.record = existing := by
            have hcard := L.getFlow_unsafe hread
            rcases hs₁.held flowId with hheld | ⟨hnone, -⟩
            · rw [hcard] at hheld
              obtain ⟨last, hlast, hrecord⟩ := Option.map_eq_some_iff.mp hheld.symm
              exact ⟨last, (mem_versions.mp (List.mem_of_getLast? hlast)).1, hrecord⟩
            · rw [hcard] at hnone
              cases hnone
          subst hrecord
          intro writing s₂ t₂ _ hrely _
          refine ⟨⟨read, hrely.subset hmem, view, writing, Bool.eq_false_iff.mpr hopen, rfl, rfl,
            rfl⟩, ?_⟩
          dsimp only [Call.bind]
          split
          · exact ih _ _
          · trivial
          · trivial

theorem entry_asks (L : Lawful S Well card) (r : Request) (s : Held σ) :
    (discipline S publicMcpOrigin Well card).Asks Plausible (entry publicMcpOrigin r) s () := by
  cases r with
  | createFlow wallet view paymentId flowId => exact createFlow_asks wallet view paymentId flowId s
  | recordFlow wallet flowId view paymentId =>
    change Discipline.Asks _ _ (recordFlow wallet flowId view paymentId) _ _
    unfold recordFlow
    split
    · exact recordAttempts_asks L _ _ _ _ _ _
    · trivial

/-- **A step.** What calls ask for keeps the store in order. -/
theorem perform_orderly (L : Lawful S Well card) {s : Held σ} {o : Op} {now : Nat}
    (h : Orderly Well card s) (htime : s.clock ≤ now) (hdrawn : drawn o s) (ho : Plausible s o) :
    Orderly Well card (perform S o now s).1 ∧ s.log <+: (perform S o now s).1.log := by
  cases o with
  | getFlow flowId reading => exact ⟨h.keep htime h.well fun id => .inl rfl, List.prefix_rfl⟩
  | putFlow r expected origin =>
    cases expected with
    | none =>
      obtain ⟨rfl, publicMcpOrigin, wallet, view, paymentId, opening, hr⟩ := ho
      rw [hr]
      exact write_opened L _ _ _ _ _ _ h htime hdrawn
    | some expected =>
      obtain ⟨read, hread, view, writing, hopen, rfl, rfl, rfl⟩ := ho
      exact write_revised L view writing h htime hread hopen

theorem rules (L : Lawful S Well card) :
    (discipline S publicMcpOrigin Well card).Rules anything where
  entry r s _ _ := (entry_asks L r s).safe
    (fun _ _ _ _ _ hi _ hm hp => perform_orderly L hi hm.1 hm.2 hp) fun _ _ => trivial
  outside x := x.elim

end

/-! ## The two stores -/

theorem find?_key {α : Type} {f : α → String} {as : List α} {id : String} {a : α}
    (h : as.find? (fun a => f a = id) = some a) : a ∈ as ∧ f a = id :=
  ⟨List.mem_of_find?_eq_some h, of_decide_eq_true (List.find?_some (p := fun a => f a = id) h)⟩

/-- A list with one entry for each id, less some of them. -/
theorem find?_filter_key {α : Type} {f : α → String} {p : α → Bool} {as : List α}
    (hkeys : (as.map f).Nodup) (id : String) :
    (as.filter p).find? (fun a => f a = id) = (as.find? fun a => f a = id).filter p := by
  induction as with
  | nil => rfl
  | cons a as ih =>
    rw [List.map_cons, List.nodup_cons] at hkeys
    by_cases ha : f a = id
    · have hrest : as.find? (fun b => f b = id) = none := by
        rw [List.find?_eq_none]
        intro b hb hkey
        apply hkeys.1
        rw [ha, ← of_decide_eq_true hkey]
        exact List.mem_map_of_mem hb
      rw [List.find?_cons_of_pos (by simpa using ha)]
      by_cases hp : p a = true
      · rw [List.filter_cons_of_pos hp, List.find?_cons_of_pos (by simpa using ha),
          Option.filter_some_pos hp]
      · rw [List.filter_cons_of_neg hp, ih hkeys.2, hrest, Option.filter_some_neg (Bool.eq_false_iff.mpr hp)]
        rfl
    · rw [List.find?_cons_of_neg (by simpa using ha), ← ih hkeys.2]
      by_cases hp : p a = true
      · rw [List.filter_cons_of_pos hp, List.find?_cons_of_neg (by simpa using ha)]
      · rw [List.filter_cons_of_neg hp]

theorem nodup_filter_key {α : Type} {f : α → String} {as : List α} (p : α → Bool)
    (hkeys : (as.map f).Nodup) : ((as.filter p).map f).Nodup :=
  hkeys.sublist (List.filter_sublist.map f)

namespace Memory

def Well (flows : FlowMap) : Prop := (flows.map PaymentFlowRecord.flowId).Nodup

theorem find_purge {flows : FlowMap} (h : Well flows) (now : Nat) (id : String) :
    Remains now (find flows id) (find (purge now flows) id) := by
  have hfind : find (purge now flows) id =
      (find flows id).filter fun f => decide (now < f.expiresAt) := find?_filter_key h id
  rw [hfind]
  cases find flows id with
  | none => exact .inl rfl
  | some c =>
    by_cases hlive : now < c.expiresAt
    · left
      rw [Option.filter_some_pos (by simpa using hlive)]
    · right
      rw [Option.filter_some_neg (by simpa using hlive)]
      refine ⟨rfl, fun x hx => ?_⟩
      cases hx
      omega

/-- What is written is found, and nothing else is touched. -/
theorem find_set {flows : FlowMap} (h : Well flows) (record : PaymentFlowRecord) :
    let after := flows.filter (fun f => f.flowId ≠ record.flowId) ++ [record]
    Well after ∧ find after record.flowId = some record ∧
      ∀ id, id ≠ record.flowId → find after id = find flows id := by
  intro after
  refine ⟨?_, ?_, fun id hid => ?_⟩
  · unfold Well
    rw [List.map_append, List.nodup_append]
    refine ⟨nodup_filter_key _ h, List.nodup_singleton _, ?_⟩
    intro a ha b hb
    obtain ⟨f, hf, rfl⟩ := List.mem_map.mp ha
    rw [List.mem_singleton.mp hb]
    exact of_decide_eq_true (List.mem_filter.mp hf).2
  · unfold find
    rw [List.find?_append, List.find?_eq_none.mpr, Option.none_or,
      List.find?_cons_of_pos (by simp)]
    intro f hf hkey
    exact of_decide_eq_true (List.mem_filter.mp hf).2 (of_decide_eq_true hkey)
  · unfold find
    rw [List.find?_append, List.find?_cons_of_neg (by simpa using Ne.symm hid), List.find?_nil,
      Option.or_none, find?_filter_key h]
    cases hfind : flows.find? (fun f => f.flowId = id) with
    | none => rfl
    | some c =>
      have hc := (find?_key hfind).2
      rw [Option.filter_some_pos]
      simpa [hc] using hid

theorem lawful : Lawful memory Well find where
  well_empty := List.nodup_nil
  card_empty id := rfl
  card_id _ h := (find?_key h).2
  getFlow _ _ := rfl
  getFlow_unsafe h := (Option.filter_eq_some_iff.mp h).1
  refused := by
    intro s s' now r expected reply hs hput hnot
    change putFlow now r expected s = (s', reply) at hput
    unfold putFlow at hput
    dsimp only at hput
    split at hput
    · cases hput
      exact ⟨hs, fun id => .inl rfl⟩
    · split at hput
      · cases hput
        exact ⟨hs, fun id => .inl rfl⟩
      · split at hput
        · cases hput
          exact ⟨nodup_filter_key _ hs, fun id => find_purge hs now id⟩
        · cases hput
          exact absurd rfl hnot
  stored := by
    intro s s' now r expected hs hput
    change putFlow now r expected s = (s', .stored) at hput
    unfold putFlow at hput
    dsimp only at hput
    split at hput
    · cases hput
    · split at hput
      · cases hput
      · rename_i hfree
        split at hput
        · cases hput
        · cases hput
          have hpurged : Well (purge now s) := nodup_filter_key _ hs
          obtain ⟨hwell, hfound, hothers⟩ := find_set hpurged r
          refine ⟨hwell, hfound, ?_, fun id hid => ?_⟩
          · cases expected with
            | none => exact Option.not_isSome_iff_eq_none.mp hfree
            | some expected =>
              unfold conflicts at hfree
              dsimp only at hfree
              split at hfree
              · exact absurd rfl hfree
              · rename_i c hc
                refine ⟨c, hc, ?_⟩
                by_contra hne
                exact hfree (by simp [hne])
          · rw [hothers id hid]
            exact find_purge hs now id

end Memory

namespace Convex

/-- Rows with an id each, whose columns are those of the record. -/
structure Well (rows : List FlowRow) : Prop where
  nodup : (rows.map FlowRow.flowId).Nodup
  columns : ∀ r ∈ rows, r.flowId = r.record.flowId ∧ r.wallet = r.record.wallet ∧
    r.expires = r.record.expiresAt

def card (rows : List FlowRow) (id : String) : Option PaymentFlowRecord :=
  (find rows id).map FlowRow.record

theorem compare_stored {now : Nat} {record : PaymentFlowRecord} {expected : Option Nat}
    {old : Option FlowRow} (h : compare now record expected old = .stored) :
    Replaces record expected (old.map FlowRow.record) := by
  unfold compare at h
  split at h
  · split at h
    · cases h
    · rename_i hnone
      rw [Option.not_isSome_iff_eq_none.mp hnone]
      rfl
  · split at h
    · cases h
    · split at h
      · cases h
      · rename_i old
        split at h
        · cases h
        · split at h
          · cases h
          · split at h
            · cases h
            · rename_i hsame
              exact ⟨old.record, rfl, not_not.mp hsame⟩

/-- The row that is written for a record. -/
def rowOf (record : PaymentFlowRecord) : FlowRow :=
  ⟨record.flowId, record.wallet, record, record.expiresAt⟩

theorem find_insert {rows : List FlowRow} (h : Well rows) {record : PaymentFlowRecord}
    (hnew : find rows record.flowId = none) :
    Well (rows ++ [rowOf record]) ∧ find (rows ++ [rowOf record]) record.flowId = some (rowOf record) ∧
      ∀ id, id ≠ record.flowId → find (rows ++ [rowOf record]) id = find rows id := by
  have habsent : ∀ r ∈ rows, r.flowId ≠ record.flowId := by
    intro r hr heq
    exact List.find?_eq_none.mp hnew r hr (by simpa using heq)
  refine ⟨⟨?_, ?_⟩, ?_, fun id hid => ?_⟩
  · rw [List.map_append, List.nodup_append]
    refine ⟨h.nodup, List.nodup_singleton _, ?_⟩
    intro a ha b hb
    obtain ⟨r, hr, rfl⟩ := List.mem_map.mp ha
    rw [List.mem_singleton.mp hb]
    exact habsent r hr
  · intro r hr
    rcases List.mem_append.mp hr with hr | hr
    · exact h.columns r hr
    · rw [List.mem_singleton.mp hr]
      exact ⟨rfl, rfl, rfl⟩
  · unfold find at hnew ⊢
    rw [List.find?_append, hnew, Option.none_or, List.find?_cons_of_pos (by simp [rowOf])]
  · have hne : (rowOf record).flowId ≠ id := Ne.symm hid
    unfold find
    rw [List.find?_append, List.find?_cons_of_neg (by simpa using hne),
      List.find?_nil, Option.or_none]

theorem find_patch {rows : List FlowRow} (h : Well rows) {record : PaymentFlowRecord}
    (hold : (find rows record.flowId).isSome = true) :
    let after := rows.map fun r => if r.flowId = record.flowId then rowOf record else r
    Well after ∧ find after record.flowId = some (rowOf record) ∧
      ∀ id, id ≠ record.flowId → find after id = find rows id := by
  intro after
  have hkey : ∀ r : FlowRow,
      (if r.flowId = record.flowId then rowOf record else r).flowId = r.flowId := by
    intro r
    split
    · rename_i heq
      exact heq.symm
    · rfl
  refine ⟨⟨?_, ?_⟩, ?_, fun id hid => ?_⟩
  · have hkeys : after.map FlowRow.flowId = rows.map FlowRow.flowId := by
      rw [List.map_map]
      exact List.map_congr_left fun r _ => hkey r
    rw [hkeys]
    exact h.nodup
  · intro r hr
    obtain ⟨x, hx, rfl⟩ := List.mem_map.mp hr
    split
    · exact ⟨rfl, rfl, rfl⟩
    · exact h.columns x hx
  · unfold find at hold ⊢
    rw [List.find?_map]
    have htest : ((fun r : FlowRow => decide (r.flowId = record.flowId)) ∘
        fun r => if r.flowId = record.flowId then rowOf record else r) =
        fun r => decide (r.flowId = record.flowId) := by
      funext r
      exact congrArg (fun id => decide (id = record.flowId)) (hkey r)
    rw [htest]
    obtain ⟨x, hx⟩ := Option.isSome_iff_exists.mp hold
    rw [hx, Option.map_some, if_pos (find?_key hx).2]
  · unfold find
    rw [List.find?_map]
    have htest : ((fun r : FlowRow => decide (r.flowId = id)) ∘
        fun r => if r.flowId = record.flowId then rowOf record else r) =
        fun r => decide (r.flowId = id) := by
      funext r
      exact congrArg (fun x => decide (x = id)) (hkey r)
    rw [htest]
    cases hfind : rows.find? (fun r => r.flowId = id) with
    | none => rfl
    | some x =>
      have hx := (find?_key hfind).2
      rw [Option.map_some, if_neg (by rw [hx]; exact hid)]

variable [RecordText]

theorem lawful : Lawful convex Well card where
  well_empty := ⟨List.nodup_nil, fun r hr => (nomatch hr)⟩
  card_empty id := rfl
  card_id := by
    intro s id c hs h
    obtain ⟨r, hr, rfl⟩ := Option.map_eq_some_iff.mp h
    obtain ⟨hmem, hid⟩ := find?_key hr
    rw [← (hs.columns r hmem).1, hid]
  getFlow := by
    intro s id now hs hnow
    change (if MAX_SAFE_INTEGER < now then none else _) = _
    rw [if_neg (by omega), card]
    cases hfind : find s id with
    | none => rfl
    | some r =>
      have hexpires := (hs.columns r (find?_key hfind).1).2.2
      rw [Option.map_some, Option.filter, Option.filter, hexpires]
      split
      · rfl
      · rfl
  getFlow_unsafe := by
    intro s id now c h
    change (if MAX_SAFE_INTEGER < now then none else _) = _ at h
    split at h
    · cases h
    · obtain ⟨r, hr, rfl⟩ := Option.map_eq_some_iff.mp h
      rw [card, (Option.filter_eq_some_iff.mp hr).1]
      rfl
  refused := by
    intro s s' now r expected reply hs hput hnot
    change putFlow now r expected s = (s', reply) at hput
    unfold putFlow at hput
    dsimp only at hput
    have hsame : s' = s := by
      split at hput
      · cases hput
        rfl
      · split at hput
        · cases hput
          rfl
        · split at hput
          · cases hput
            rfl
          · split at hput
            · split at hput
              · cases hput
                exact absurd rfl hnot
              · cases hput
                exact absurd rfl hnot
            · cases hput
              rfl
    subst hsame
    exact ⟨hs, fun id => .inl rfl⟩
  stored := by
    intro s s' now r expected hs hput
    change putFlow now r expected s = (s', .stored) at hput
    unfold putFlow at hput
    dsimp only at hput
    split at hput
    · cases hput
    · split at hput
      · cases hput
      · split at hput
        · cases hput
        · split at hput
          · rename_i hcompare
            have hreplaces := compare_stored hcompare
            split at hput
            · rename_i hold
              cases hput
              obtain ⟨hwell, hfound, hothers⟩ := find_patch hs hold
              refine ⟨hwell, congrArg (Option.map FlowRow.record) hfound, hreplaces,
                fun id hid => .inl ?_⟩
              exact congrArg (Option.map FlowRow.record) (hothers id hid)
            · rename_i hnew
              cases hput
              obtain ⟨hwell, hfound, hothers⟩ :=
                find_insert hs (Option.not_isSome_iff_eq_none.mp hnew)
              refine ⟨hwell, congrArg (Option.map FlowRow.record) hfound, hreplaces,
                fun id hid => .inl ?_⟩
              exact congrArg (Option.map FlowRow.record) (hothers id hid)
          · rename_i reply hnot
            injection hput with _ hreply
            exact absurd hreply hnot

end Convex

end ChainPay.Flows
