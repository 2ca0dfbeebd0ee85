import ChainPay.Card.Holds
import ChainPay.Card.Window

/-!
Every approval is backed by one current intent. The history of a card is read by
positions: `Backs es i j` says that the `open_checkout_intent` at position `i`
still stood when the `authorize` at position `j` consumed it. Stale intents cannot
come back because the policy version only grows, and a `wipe_card`, which resets
it, first closes every ephemeral account.
-/

namespace ChainPay.Card
open ChainPay.Lib

/-! ## Ephemeral accounts -/

/-- The ephemeral accounts of the card. -/
def State.ephemerals (s : State) : Nat :=
  entryCount s.reservations + entryCount s.intents + if s.guard.isSome then 1 else 0

/-- The policy counts them. -/
def Tallied (s : State) : Prop := s.policy.ephemeralCount = s.ephemerals

section Tally

variable {ctx : Ctx} {s s' : State} {instr : Instr}

theorem ephemerals_same (ha : SameAccounts s s') : s'.ephemerals = s.ephemerals := by
  unfold State.ephemerals
  rw [ha.reservations, ha.intents, ha.guard]

/-- Dropping a live account takes one off. -/
theorem ephemerals_drop {e : Ephemeral} (h : s.live e = true) :
    (s.drop e).ephemerals + 1 = s.ephemerals := by
  cases e with
  | reservation k =>
    obtain ⟨r, hr⟩ := Option.isSome_iff_exists.mp h
    have herase : entryCount (s.reservations.erase k) + 1 = entryCount s.reservations :=
      sumOf_erase (fun _ => 1) _ k r hr
    have hleft : (s.drop (.reservation k)).ephemerals = entryCount (s.reservations.erase k) +
      entryCount s.intents + if s.guard.isSome then 1 else 0 := rfl
    rw [hleft]
    unfold State.ephemerals
    omega
  | intent k =>
    obtain ⟨x, hx⟩ := Option.isSome_iff_exists.mp h
    have herase : entryCount (s.intents.erase k) + 1 = entryCount s.intents :=
      sumOf_erase (fun _ => 1) _ k x hx
    have hleft : (s.drop (.intent k)).ephemerals = entryCount s.reservations +
      entryCount (s.intents.erase k) + if s.guard.isSome then 1 else 0 := rfl
    rw [hleft]
    unfold State.ephemerals
    omega
  | authGuard =>
    have hg : s.guard.isSome = true := h
    simp [State.ephemerals, State.drop, hg]

/-- The wipe counts each account it closes at most once. -/
theorem closePairs_count {accounts : List AccountRef} {n n' : Nat}
    (h : closePairs ctx accounts s n = .ok (s', n')) :
    n' + s'.ephemerals ≤ n + s.ephemerals := by
  induction accounts, s, n using closePairs.induct with
  | case1 target permission rest s n ih =>
    simp only [closePairs, bind_eq_ok, exists_unit] at h
    obtain ⟨e, he, -, -, h⟩ := h
    have hlive : s.live e = true := by
      cases target with
      | ephemeral x =>
        simp only [ephemeralIdentity, bind_eq_ok, exists_unit, ensure_eq_ok, pure_eq_ok] at he
        obtain ⟨hx, rfl⟩ := he
        exact hx
      | permissionOf x => cases he
      | other => cases he
    have hdrop := ephemerals_drop hlive
    have hrest := ih e h
    have hmin : min (n + 1) 65535 ≤ n + 1 := Nat.min_le_left _ _
    omega
  | case2 accounts s n hshort =>
    rw [closePairs.eq_2 _ _ _ _ hshort] at h
    cases h
    exact Nat.le_refl _

/-- A wiped card has no ephemeral account left. -/
theorem Turn.wiped {o : Pubkey} {rest : List AccountRef} (ht : Turn ctx s s' (.wipeCard o rest))
    (hc : Tallied s) : s'.ephemerals = 0 ∧ s'.control.ephemeralCount = 0 := by
  cases ht with
  | gate hgate _ =>
    cases hgate with
    | quiet hq _ => cases hq
  | post hq _ _ _ _ _ => cases hq
  | wipe hclose hall hcontrol ha =>
    have hcount := closePairs_count hclose
    rw [ephemerals_same ha, hcontrol]
    have htally : s.policy.ephemeralCount = s.ephemerals := hc
    exact ⟨by omega, rfl⟩

theorem GateTurn.count {p : CardPolicy} {c' : Control} (ht : GateTurn ctx p c' instr) :
    c'.ephemeralCount = p.ephemeralCount := by
  cases ht with
  | quiet _ hc => rw [hc]; rfl
  | setPolicy _ hc => rw [hc]; rfl
  | freeze hc => rw [hc]; rfl
  | unfreeze _ _ _ _ hc => rw [hc]; rfl
  | recoveryFreeze hc => rw [hc]; rfl
  | restore _ _ _ _ _ _ hc => rw [hc]; rfl
  | confirm _ _ _ _ hc => rw [hc]; rfl

/-- **Step.** The count follows the accounts. -/
theorem Turn.tallied (ht : Turn ctx s s' instr) (hc : Tallied s) : Tallied s' := by
  have hcount : s.policy.ephemeralCount = s.ephemerals := hc
  change s'.control.ephemeralCount = s'.ephemerals
  cases ht with
  | gate hgate ha =>
    rw [hgate.count, ephemerals_same ha]
    exact hc
  | post _ hc' hi hg hres _ =>
    have hsize : entryCount s'.reservations = entryCount s.reservations :=
      entryCount_congr hres.isSome
    unfold State.ephemerals at hcount ⊢
    rw [hc', hsize, hi, hg]
    exact hcount
  | openIntent _ hnew _ hi hc' hg hr =>
    have hsize : ∀ x, entryCount (s.intents.insert _ x) = entryCount s.intents + 1 :=
      fun x => sumOf_insert_new (fun _ => 1) _ _ x hnew
    unfold State.ephemerals at hcount ⊢
    rw [hc', hr, hi, hg, hsize]
    change s.policy.ephemeralCount + 1 = _
    omega
  | cancelIntent hx hi hc' hg hr =>
    have hsize : ∀ y, entryCount (s.intents.insert _ y) = entryCount s.intents :=
      fun y => Nat.add_right_cancel (sumOf_insert (fun _ => 1) _ _ _ y hx)
    unfold State.ephemerals at hcount ⊢
    rw [hc', hr, hi, hg, hsize]
    exact hcount
  | closeIntent hx hi hc' hg hr =>
    have hsize : entryCount (s.intents.erase _) + 1 = entryCount s.intents :=
      sumOf_erase (fun _ => 1) _ _ _ hx
    unfold State.ephemerals at hcount ⊢
    rw [hc', hr, hi, hg]
    change s.policy.ephemeralCount - 1 = _
    omega
  | authorize _ hnew _ hx _ _ _ _ _ _ _ hr hi hc' hg =>
    have hres : ∀ r, entryCount (s.reservations.insert _ r) = entryCount s.reservations + 1 :=
      fun r => sumOf_insert_new (fun _ => 1) _ _ r hnew
    have hint : ∀ y, entryCount (s.intents.insert _ y) = entryCount s.intents :=
      fun y => Nat.add_right_cancel (sumOf_insert (fun _ => 1) _ _ _ y hx)
    unfold State.ephemerals at hcount ⊢
    rw [hc', hr, hi, hg, hres, hint]
    change s.policy.ephemeralCount + 1 = _
    omega
  | close hlook hold hg hr hc' hi =>
    have hsize : entryCount (s.reservations.erase _) + 1 = entryCount s.reservations :=
      sumOf_erase (fun _ => 1) _ _ _ hlook
    unfold State.ephemerals at hcount ⊢
    rw [hc', hr, hi, hg]
    change s.policy.ephemeralCount - 1 + (if s.guard.isNone = true then 1 else 0) = _
    -- a first close takes the Reservation away and adds the guard
    rcases hold with hsome | ⟨hnone, -⟩
    · simp only [hsome, Option.isNone_some, Option.isSome_some, if_true, Bool.false_eq_true,
        if_false] at hcount ⊢
      omega
    · simp only [hnone, Option.isNone_none, Option.isSome_none, Option.isSome_some, if_true,
        Bool.false_eq_true, if_false] at hcount ⊢
      omega
  | wipe hclose hall hc' ha =>
    obtain ⟨hnone, hzero⟩ := (Turn.wipe (o := 0) hclose hall hc' ha).wiped hc
    rw [hnone, hzero]

end Tally

/-! ## Openings and the authorizations they back -/

/-- The instruction ends what an earlier opening of intent `i` stood for. -/
def Instr.retires (i : IntentId) : Instr → Bool
  | .setPolicy .. | .restore .. | .wipeCard .. => true
  | .openCheckoutIntent _ args => args.intentId = i
  | .cancelCheckoutIntent _ j | .closeCheckoutIntent _ j => j = i
  | .authorize _ args => args.intentId = i
  | _ => false

/-- The event at position `n` opened an intent with `opening`. -/
def OpenedAt (es : List Event) (n : Nat) (opening : IntentArgs) : Prop :=
  ∃ o k, es[n]? = some o ∧ o.call.instr = .openCheckoutIntent k opening

/-- The intent opened at position `i` is the one that the authorization at position
`j` consumed: it was open and unexpired then, under the same policy. -/
structure Backs (es : List Event) (i j : Nat) (opening : IntentArgs) (args : AuthorizeArgs) :
    Prop where
  opened : OpenedAt es i opening
  approved : ∃ a k, es[j]? = some a ∧ a.call.instr = .authorize k args ∧
    a.call.ctx.now ≤ opening.expiresAt
  order : i < j
  id : args.intentId = opening.intentId
  merchant : args.merchantIdHash = opening.merchantIdHash
  currency : args.currency = opening.currency
  stands : ∀ m x, i < m → m < j → es[m]? = some x →
    x.call.instr.retires opening.intentId = false

/-- What the history says about an intent account. -/
structure IntentBacked (s : State) (es : List Event) (i : IntentId) (x : CheckoutIntent)
    (n : Nat) (opening : IntentArgs) : Prop where
  opened : OpenedAt es n opening
  id : opening.intentId = i
  merchant : opening.merchantIdHash = x.merchantIdHash
  currency : opening.currency = x.currency
  limit : opening.maxAmountCents = x.maxAmountCents
  expires : opening.expiresAt = x.expiresAt
  version : x.policyVersion ≤ s.policy.policyVersion
  stands : x.state = .open → x.policyVersion = s.policy.policyVersion →
    ∀ m y, n < m → es[m]? = some y → y.call.instr.retires i = false

/-- What the history says about a live Reservation. -/
structure HoldBacked (es : List Event) (h : Hash) (r : Reservation) (i j : Nat)
    (opening : IntentArgs) (args : AuthorizeArgs) : Prop where
  backs : Backs es i j opening args
  id : args.authIdHash = h
  last : ∀ m x, j < m → es[m]? = some x → x.call.instr.creates ≠ some h
  limit : r.maxAmountCents = opening.maxAmountCents
  within : r.clean → (∀ m x, j < m → es[m]? = some x → x.call.instr.excepts h = false) → r.within

structure Backed (s : State) (es : List Event) : Prop where
  tallied : Tallied s
  intents : ∀ i x, s.intents.lookup i = some x → ∃ n opening, IntentBacked s es i x n opening
  approvals : ∀ j a k args, es[j]? = some a → a.call.instr = .authorize k args →
    ∃ i opening, Backs es i j opening args
  holds : ∀ h r, s.reservations.lookup h = some r →
    ∃ i j opening args, HoldBacked es h r i j opening args

section Extend

variable {es : List Event} {e : Event} {i j : Nat} {opening : IntentArgs} {args : AuthorizeArgs}

theorem OpenedAt.lt {n : Nat} (h : OpenedAt es n opening) : n < es.length := by
  obtain ⟨o, k, ho, -⟩ := h
  exact (List.getElem?_eq_some_iff.mp ho).1

theorem OpenedAt.snoc {n : Nat} (h : OpenedAt es n opening) : OpenedAt (es ++ [e]) n opening := by
  obtain ⟨o, k, ho, hi⟩ := h
  exact ⟨o, k, Runs.getElem?_append_some ho, hi⟩

theorem Backs.lt (h : Backs es i j opening args) : j < es.length := by
  obtain ⟨a, k, ha, -⟩ := h.approved
  exact (List.getElem?_eq_some_iff.mp ha).1

theorem Backs.snoc (h : Backs es i j opening args) : Backs (es ++ [e]) i j opening args where
  opened := h.opened.snoc
  approved := by
    obtain ⟨a, k, ha, hi⟩ := h.approved
    exact ⟨a, k, Runs.getElem?_append_some ha, hi⟩
  order := h.order
  id := h.id
  merchant := h.merchant
  currency := h.currency
  stands := by
    intro m x hm hmj hx
    rcases Runs.getElem?_snoc hx with hx | ⟨rfl, -⟩
    · exact h.stands m x hm hmj hx
    · exact absurd h.lt (by omega)

/-- An opening backs one authorization: the first retires it. -/
theorem Backs.unique {j' : Nat} {opening' : IntentArgs} {args' : AuthorizeArgs}
    (h : Backs es i j opening args) (h' : Backs es i j' opening' args') : j = j' := by
  have key : ∀ {j j' : Nat} {o o' : IntentArgs} {b b' : AuthorizeArgs}, Backs es i j o b →
      Backs es i j' o' b' → ¬ j < j' := by
    intro j j' o o' b b' h h' hlt
    obtain ⟨a, k, ha, hauth, -⟩ := h.approved
    have hstand := h'.stands j a h.order hlt ha
    obtain ⟨x, k₁, hx, hopen⟩ := h.opened
    obtain ⟨x', k₂, hx', hopen'⟩ := h'.opened
    rw [hx] at hx'
    cases hx'
    rw [hopen] at hopen'
    cases hopen'
    rw [hauth, Instr.retires, decide_eq_false_iff_not] at hstand
    exact hstand h.id
  have h₁ := key h h'
  have h₂ := key h' h
  omega

theorem IntentBacked.snoc {s s' : State} {x : CheckoutIntent} {id : IntentId} {n : Nat}
    (h : IntentBacked s es id x n opening) (hv : s.policy.policyVersion ≤ s'.policy.policyVersion)
    (hret : s'.policy.policyVersion = s.policy.policyVersion →
      e.call.instr.retires id = false) : IntentBacked s' (es ++ [e]) id x n opening :=
  { h with
    opened := h.opened.snoc
    version := h.version.trans hv
    stands := by
      intro hopen heq m y hm hy
      have hsame : s'.policy.policyVersion = s.policy.policyVersion :=
        Nat.le_antisymm (heq ▸ h.version) hv
      rcases Runs.getElem?_snoc hy with hy | ⟨rfl, rfl⟩
      · exact h.stands hopen (heq.trans hsame) m y hm hy
      · exact hret hsame }

theorem HoldBacked.snoc {h : Hash} {r r' : Reservation}
    (hb : HoldBacked es h r i j opening args) (hc : e.call.instr.creates ≠ some h)
    (hk : Carried e.call.instr h r r') : HoldBacked (es ++ [e]) h r' i j opening args where
  backs := hb.backs.snoc
  id := hb.id
  last := by
    intro m x hm hx
    rcases Runs.getElem?_snoc hx with hx | ⟨-, rfl⟩
    · exact hb.last m x hm hx
    · exact hc
  limit := hk.limit.trans hb.limit
  within := by
    intro hclean hno
    have hlast := hno es.length e hb.backs.lt (List.getElem?_concat_length ..)
    refine hk.within hclean hlast (hb.within (hk.clean hclean) fun m x hm hx => ?_)
    exact hno m x hm (Runs.getElem?_append_some hx)

end Extend

section Steps

variable {ctx : Ctx} {s s' : State} {instr : Instr} {es : List Event}

theorem GateTurn.retires {c' : Control} (ht : GateTurn ctx s.policy c' instr) (i : IntentId) :
    s.policy.policyVersion ≤ c'.policyVersion ∧
      (c'.policyVersion = s.policy.policyVersion → instr.retires i = false) := by
  cases ht with
  | quiet hq hc =>
    refine ⟨hc ▸ Nat.le_refl _, fun _ => ?_⟩
    cases instr <;> first | rfl | cases hq
  | setPolicy _ hc =>
    rw [hc]
    exact ⟨Nat.le_succ _, fun h => absurd h (Nat.succ_ne_self _)⟩
  | freeze hc => exact ⟨hc ▸ Nat.le_refl _, fun _ => rfl⟩
  | unfreeze _ _ _ _ hc => exact ⟨hc ▸ Nat.le_refl _, fun _ => rfl⟩
  | recoveryFreeze hc => exact ⟨hc ▸ Nat.le_refl _, fun _ => rfl⟩
  | restore _ _ _ _ _ _ hc =>
    rw [hc]
    exact ⟨Nat.le_succ _, fun h => absurd h (Nat.succ_ne_self _)⟩
  | confirm _ _ _ _ hc => exact ⟨hc ▸ Nat.le_refl _, fun _ => rfl⟩

theorem isPosting_retires (hq : instr.isPosting = true) (i : IntentId) :
    instr.retires i = false := by
  cases instr <;> first | rfl | cases hq

/-- An account the turn leaves alone is backed as before. -/
theorem Backed.intent_kept (hb : Backed s es) {i : IntentId} {x : CheckoutIntent}
    (hx : s.intents.lookup i = some x) (hv : s'.policy.policyVersion = s.policy.policyVersion)
    (hret : instr.retires i = false) :
    ∃ n opening, IntentBacked s' (es ++ [⟨s, ctx, instr⟩]) i x n opening := by
  obtain ⟨n, opening, hi⟩ := hb.intents i x hx
  exact ⟨n, opening, hi.snoc (Nat.le_of_eq hv.symm) fun _ => hret⟩

/-- Writing one account that can no longer be consumed leaves the others backed. -/
theorem Backed.intent_written (hb : Backed s es) {i : IntentId} {x x' : CheckoutIntent}
    (hx : s.intents.lookup i = some x) (hv : s'.policy.policyVersion = s.policy.policyVersion)
    (hret : ∀ k, k ≠ i → instr.retires k = false) (hx' : x' = { x with
      state := x'.state, reservation := x'.reservation }) (hused : x'.state ≠ .open)
    (hi : s'.intents = s.intents.insert i x') :
    ∀ k y, s'.intents.lookup k = some y →
      ∃ n opening, IntentBacked s' (es ++ [⟨s, ctx, instr⟩]) k y n opening := by
  intro k y hy
  rw [hi] at hy
  by_cases hk : k = i
  · subst hk
    rw [AList.lookup_insert] at hy
    cases hy
    obtain ⟨n, opening, hold⟩ := hb.intents k x hx
    rw [hx']
    refine ⟨n, opening, hold.opened.snoc, hold.id, hold.merchant, hold.currency, hold.limit,
      hold.expires, ?_, fun hopen => absurd hopen hused⟩
    rw [hv]
    exact hold.version
  · rw [AList.lookup_insert_ne hk] at hy
    exact hb.intent_kept hy hv (hret k hk)

theorem Backed.step_intents (hb : Backed s es) (ht : Turn ctx s s' instr) :
    ∀ k y, s'.intents.lookup k = some y →
      ∃ n opening, IntentBacked s' (es ++ [⟨s, ctx, instr⟩]) k y n opening := by
  have hversion : ∀ {c : Control}, s'.control = c →
      s'.policy.policyVersion = c.policyVersion := fun h => congrArg Control.policyVersion h
  cases ht with
  | gate hgate ha =>
    intro k y hy
    rw [ha.intents] at hy
    obtain ⟨n, opening, hi⟩ := hb.intents k y hy
    exact ⟨n, opening, hi.snoc (hgate.retires k).1 (hgate.retires k).2⟩
  | post hq hc hi _ _ _ =>
    intro k y hy
    rw [hi] at hy
    exact hb.intent_kept hy (hversion hc) (isPosting_retires hq k)
  | @openIntent key args x hspend hnew hx hi hc hg hr =>
    intro k y hy
    rw [hi] at hy
    by_cases hk : k = args.intentId
    · subst hk
      rw [AList.lookup_insert] at hy
      cases hy
      subst hx
      refine ⟨es.length, args, ⟨_, key, List.getElem?_concat_length .., rfl⟩, rfl, rfl, rfl, rfl,
        rfl, ?_, ?_⟩
      · rw [hversion hc]
        exact Nat.le_refl _
      · intro _ _ m y hm hy
        obtain ⟨hlt, -⟩ := List.getElem?_eq_some_iff.mp hy
        rw [List.length_append, List.length_singleton] at hlt
        omega
    · rw [AList.lookup_insert_ne hk] at hy
      exact hb.intent_kept hy (hversion hc) (decide_eq_false fun he => hk he.symm)
  | cancelIntent hx hi hc _ _ =>
    exact hb.intent_written hx (hversion hc) (fun k hk => decide_eq_false fun he => hk he.symm)
      rfl (by intro hopen; cases hopen) hi
  | @closeIntent key i x hx hi hc _ _ =>
    intro k y hy
    rw [hi] at hy
    by_cases hk : k = i
    · subst hk
      simp at hy
    · rw [AList.lookup_erase_ne hk] at hy
      exact hb.intent_kept hy (hversion hc) (decide_eq_false fun he => hk he.symm)
  | authorize _ _ _ hx _ _ _ _ _ _ _ _ hi hc _ =>
    exact hb.intent_written hx (hversion hc) (fun k hk => decide_eq_false fun he => hk he.symm)
      rfl (by intro hopen; cases hopen) hi
  | close _ _ _ _ hc hi =>
    intro k y hy
    rw [hi] at hy
    exact hb.intent_kept hy (hversion hc) rfl
  | wipe hclose hall hc ha =>
    intro k y hy
    have hnone := ((Turn.wipe (o := 0) hclose hall hc ha).wiped hb.tallied).1
    unfold State.ephemerals at hnone
    rw [lookup_of_entryCount (by omega) k] at hy
    cases hy

/-- The authorization that consumes an intent is backed by its opening. -/
theorem Backed.authorized {k : Pubkey} {args : AuthorizeArgs} (hb : Backed s es)
    (ht : Turn ctx s s' (.authorize k args)) :
    ∃ n opening r, Backs (es ++ [⟨s, ctx, .authorize k args⟩]) n es.length opening args ∧
      s'.reservations = s.reservations.insert args.authIdHash r ∧ r.within ∧
      r.maxAmountCents = opening.maxAmountCents := by
  cases ht with
  | gate hgate _ =>
    cases hgate with
    | quiet hq _ => cases hq
  | post hq _ _ _ _ _ => cases hq
  | @authorize _ _ x r _ _ _ hx hopen _ htime hversion hmerchant hcurrency hbooked hr _ _ _ =>
    obtain ⟨n, opening, hi⟩ := hb.intents _ x hx
    have hlt := hi.opened.lt
    refine ⟨n, opening, r, ⟨hi.opened.snoc, ?_, hlt, hi.id.symm, ?_, ?_, ?_⟩, hr, hbooked.within,
      hbooked.limit.trans hi.limit.symm⟩
    · refine ⟨_, k, List.getElem?_concat_length .., rfl, ?_⟩
      rw [hi.expires]
      exact htime
    · rw [hi.merchant]
      exact hmerchant
    · rw [hi.currency]
      exact hcurrency
    · intro m y hm hlast hy
      rw [hi.id]
      rcases Runs.getElem?_snoc hy with hy | ⟨rfl, -⟩
      · exact hi.stands hopen hversion m y hm hy
      · exact absurd hlast (Nat.lt_irrefl _)

theorem Backed.step_approvals (hb : Backed s es) (ht : Turn ctx s s' instr) :
    ∀ j a k args, (es ++ [⟨s, ctx, instr⟩])[j]? = some a → a.call.instr = .authorize k args →
      ∃ i opening, Backs (es ++ [⟨s, ctx, instr⟩]) i j opening args := by
  intro j a k args ha hauth
  rcases Runs.getElem?_snoc ha with ha | ⟨rfl, rfl⟩
  · obtain ⟨i, opening, hbacks⟩ := hb.approvals j a k args ha hauth
    exact ⟨i, opening, hbacks.snoc⟩
  · have hinstr : instr = .authorize k args := hauth
    subst hinstr
    obtain ⟨n, opening, -, hbacks, -⟩ := hb.authorized ht
    exact ⟨n, opening, hbacks⟩

/-- A Reservation the turn leaves alone is backed as before. -/
theorem Backed.hold_kept (hb : Backed s es) {h : Hash} {r : Reservation}
    (hr : s.reservations.lookup h = some r) (hc : instr.creates ≠ some h) :
    ∃ i j opening args, HoldBacked (es ++ [⟨s, ctx, instr⟩]) h r i j opening args := by
  obtain ⟨i, j, opening, args, hold⟩ := hb.holds h r hr
  exact ⟨i, j, opening, args, hold.snoc hc (.refl _ h r)⟩

theorem Backed.step_holds (hb : Backed s es) (ht : Turn ctx s s' instr) :
    ∀ h r, s'.reservations.lookup h = some r →
      ∃ i j opening args, HoldBacked (es ++ [⟨s, ctx, instr⟩]) h r i j opening args := by
  intro h r hr
  have hturn := ht
  cases ht with
  | gate hgate ha =>
    rw [ha.reservations] at hr
    exact hb.hold_kept hr (by rw [hgate.creates.1]; nofun)
  | post hq _ _ _ hres _ =>
    have hrel := hres h
    rw [hr] at hrel
    generalize hx : s.reservations.lookup h = x at hrel
    cases hrel with
    | some hk =>
      obtain ⟨i, j, opening, args, hold⟩ := hb.holds h _ hx
      exact ⟨i, j, opening, args, hold.snoc (by rw [(isPosting_creates hq).1]; nofun) hk⟩
  | openIntent _ _ _ _ _ _ hres =>
    rw [hres] at hr
    exact hb.hold_kept hr nofun
  | cancelIntent _ _ _ _ hres =>
    rw [hres] at hr
    exact hb.hold_kept hr nofun
  | closeIntent _ _ _ _ hres =>
    rw [hres] at hr
    exact hb.hold_kept hr nofun
  | @authorize k args x _ _ _ _ _ _ _ _ _ _ _ _ _ _ _ _ =>
    obtain ⟨n, opening, r', hbacks, hres, hwithin, hlimit⟩ := hb.authorized hturn
    rw [hres] at hr
    by_cases hh : h = args.authIdHash
    · rw [hh, AList.lookup_insert] at hr
      cases hr
      refine ⟨n, es.length, opening, args, hbacks, hh.symm, ?_, hlimit, fun _ _ => hwithin⟩
      intro m y hm hy
      obtain ⟨hlt, -⟩ := List.getElem?_eq_some_iff.mp hy
      rw [List.length_append, List.length_singleton] at hlt
      omega
    · rw [AList.lookup_insert_ne hh] at hr
      exact hb.hold_kept hr fun he => hh (Option.some.inj he).symm
  | @close k h' _ _ _ _ _ _ hres _ _ =>
    rw [hres] at hr
    by_cases hh : h = h'
    · rw [hh] at hr
      simp at hr
    · rw [AList.lookup_erase_ne hh] at hr
      exact hb.hold_kept hr nofun
  | wipe _ _ _ _ =>
    have hnone := (hturn.wiped hb.tallied).1
    unfold State.ephemerals at hnone
    rw [lookup_of_entryCount (by omega) h] at hr
    cases hr

/-- **Step.** -/
theorem Backed.step (hb : Backed s es) (ht : Turn ctx s s' instr) :
    Backed s' (es ++ [⟨s, ctx, instr⟩]) :=
  ⟨ht.tallied hb.tallied, hb.step_intents ht, hb.step_approvals ht, hb.step_holds ht⟩

end Steps

theorem run_backed [Runtime] {s : State} (hs : Fresh s) (calls : List Call) :
    Backed (Runs.after exec s calls) (Runs.history exec s calls) := by
  refine Runs.after_logged (f := fun s call _ => [⟨s, call⟩]) (I := Backed)
    (fun _ _ _ _ _ hx hb => hb.step (exec_turn hx)) (Runs.along_true s calls) ?_
  obtain ⟨b, hp, -, hr, hi, hg, -⟩ := hs.eq
  refine ⟨?_, ?_, ?_, ?_⟩
  · unfold Tallied State.ephemerals
    rw [hp, hr, hi, hg]
    rfl
  · intro i x hx
    rw [hi] at hx
    simp at hx
  · intro j a k args ha
    cases ha
  · intro h r hl
    rw [hr] at hl
    simp at hl

/-- **Approvals and intents.** In every run: each authorization is backed by an opening
of its intent that no `set_policy`, `restore`, cancellation, close or earlier
authorization came after; no opening backs two authorizations; and a live Reservation
that no exception named since its authorization, and that no capture flagged, keeps
what it captured and still holds within the amount of that opening. -/
theorem approvals_backed [Runtime] (s : State) (calls : List Call) (hs : Fresh s) :
    let es := Runs.history exec s calls
    (∀ j a k args, es[j]? = some a → a.call.instr = .authorize k args →
      ∃ i opening, Backs es i j opening args) ∧
    (∀ i j j' opening opening' args args', Backs es i j opening args →
      Backs es i j' opening' args' → j = j') ∧
    (∀ h r, (Runs.after exec s calls).reservations.lookup h = some r →
      ∃ i j opening args, Backs es i j opening args ∧ args.authIdHash = h ∧
        (∀ m x, j < m → es[m]? = some x → x.call.instr.creates ≠ some h) ∧
        (r.flags &&& (FLAG_OVER_CAPTURE ||| FLAG_LATE_CAPTURE) = 0 →
          (∀ m x, j < m → es[m]? = some x → x.call.instr.excepts h = false) →
          r.capturedCents + r.amountReservedCents ≤ opening.maxAmountCents)) := by
  have hb := run_backed hs calls
  refine ⟨hb.approvals, fun i j j' o o' a a' h h' => h.unique h', fun h r hr => ?_⟩
  obtain ⟨i, j, opening, args, hold⟩ := hb.holds h r hr
  refine ⟨i, j, opening, args, hold.backs, hold.id, hold.last, fun hclean hno => ?_⟩
  rw [← hold.limit]
  exact hold.within hclean hno

open Sample in
theorem approvals_backed_oneCapture :
    Fresh start ∧ ∃ r, (Runs.after exec start oneCapture).reservations.lookup (key 20) = some r ∧
      r.capturedCents = 500 ∧ r.amountReservedCents = 1500 ∧
      ∃ i j opening args, Backs (Runs.history exec start oneCapture) i j opening args ∧
        2000 ≤ opening.maxAmountCents := by
  have hlook : ((Runs.after exec start oneCapture).reservations.lookup (key 20)).map
      (fun r => (r.flags, r.capturedCents, r.amountReservedCents)) = some (0, 500, 1500) := by
    decide
  have hexc : ((Runs.history exec start oneCapture).all fun x =>
      !x.call.instr.excepts (key 20)) = true := by decide
  obtain ⟨r, hr, hvals⟩ := Option.map_eq_some_iff.mp hlook
  simp only [Prod.mk.injEq] at hvals
  obtain ⟨hflags, hcap, hres⟩ := hvals
  obtain ⟨i, j, opening, args, hbacks, -, -, hwithin⟩ :=
    (approvals_backed start oneCapture start_fresh).2.2 (key 20) r hr
  have hle := hwithin (by rw [hflags]; decide) fun m x _ hx => by
    have hx' := List.all_eq_true.mp hexc x (List.mem_of_getElem? hx)
    simpa using hx'
  rw [hcap, hres] at hle
  exact ⟨start_fresh, r, hr, hcap, hres, i, j, opening, args, hbacks, hle⟩

end ChainPay.Card
