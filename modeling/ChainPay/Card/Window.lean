import ChainPay.Card.Recovery

/-!
The replay window of authorizations. An approved `auth_id_hash` is taken by its
Reservation, and from the close of that on by a slot of the guard, which the
256th later close overwrites. `Logged` ties both to the history of the card: the
guard is the ring of all closed ids, and what was created and not closed is there.
-/

namespace ChainPay.Card
open ChainPay.Lib

/-- The ids closed in a history, oldest first. -/
def closedIds (es : List Event) : List Hash := es.filterMap fun e => e.call.instr.closes

theorem closedIds_append (es fs : List Event) :
    closedIds (es ++ fs) = closedIds es ++ closedIds fs := List.filterMap_append

theorem closedIds_cons (e : Event) (es : List Event) :
    closedIds (e :: es) = e.call.instr.closes.toList ++ closedIds es := by
  unfold closedIds
  rw [List.filterMap_cons]
  cases e.call.instr.closes <;> rfl

/-- The guard after the closes `ids`: none before the first, then the ring of them. -/
def GuardOf (ids : List Hash) : Option AuthGuard → Prop
  | none => ids = []
  | some g => g.closedCount = ids.length ∧ Recent g.recent ids

/-- Every Reservation lies under its own id. -/
def Named (hs : Table Hash Reservation) : Prop :=
  ∀ h r, hs.lookup h = some r → r.authIdHash = h

section Steps

variable {ctx : Ctx} {s s' : State} {instr : Instr} {ids : List Hash} {h : Hash}

theorem AllCarried.named {hs hs' : Table Hash Reservation} (hk : AllCarried instr hs hs')
    (hn : Named hs) : Named hs' := by
  intro h r hr
  have hrel := hk h
  rw [hr] at hrel
  generalize hx : hs.lookup h = x at hrel
  cases hrel with
  | some hc => exact hc.id.trans (hn h _ hx)

theorem AllCarried.isSome {hs hs' : Table Hash Reservation} (hk : AllCarried instr hs hs')
    (h : Hash) : (hs'.lookup h).isSome = (hs.lookup h).isSome := by
  have hrel := hk h
  generalize hs.lookup h = x, hs'.lookup h = y at hrel
  cases hrel <;> rfl

theorem isPosting_creates (hq : instr.isPosting = true) :
    instr.creates = none ∧ instr.closes = none := by
  cases instr <;> first | exact ⟨rfl, rfl⟩ | cases hq

theorem GateTurn.creates {p : CardPolicy} {c' : Control} (ht : GateTurn ctx p c' instr) :
    instr.creates = none ∧ instr.closes = none := by
  cases ht with
  | quiet hq _ => cases instr <;> first | exact ⟨rfl, rfl⟩ | cases hq
  | _ => exact ⟨rfl, rfl⟩

theorem Turn.named (ht : Turn ctx s s' instr) (hw : instr.wipes = false)
    (hn : Named s.reservations) : Named s'.reservations := by
  cases ht with
  | gate _ ha => exact ha.reservations ▸ hn
  | post _ _ _ _ hres _ => exact hres.named hn
  | openIntent _ _ _ _ _ _ hr => exact hr ▸ hn
  | cancelIntent _ _ _ _ hr => exact hr ▸ hn
  | closeIntent _ _ _ _ hr => exact hr ▸ hn
  | authorize _ _ _ _ _ _ _ _ _ _ hbooked hr _ _ _ =>
    rw [hr]
    exact forall_lookup_insert hn hbooked.id
  | close _ _ _ hr _ _ =>
    rw [hr]
    exact forall_lookup_erase hn
  | wipe _ _ _ _ => cases hw

/-- A Reservation is there after a turn when the turn made it, or when it was there
and was not closed. -/
theorem Turn.present (ht : Turn ctx s s' instr) (hw : instr.wipes = false) (h : Hash)
    (hin : instr.creates = some h ∨
      (s.reservations.lookup h).isSome = true ∧ instr.closes ≠ some h) :
    (s'.reservations.lookup h).isSome = true := by
  cases ht with
  | gate hgate ha =>
    rcases hin with hc | ⟨hin, -⟩
    · cases hgate.creates.1.symm.trans hc
    · rw [ha.reservations]
      exact hin
  | post hq _ _ _ hres _ =>
    rcases hin with hc | ⟨hin, -⟩
    · cases (isPosting_creates hq).1.symm.trans hc
    · rw [hres.isSome h]
      exact hin
  | openIntent _ _ _ _ _ _ hr =>
    rw [hr]
    exact hin.elim nofun And.left
  | cancelIntent _ _ _ _ hr =>
    rw [hr]
    exact hin.elim nofun And.left
  | closeIntent _ _ _ _ hr =>
    rw [hr]
    exact hin.elim nofun And.left
  | @authorize k args x r _ _ _ _ _ _ _ _ _ _ _ hr _ _ _ =>
    rw [hr]
    by_cases hk : h = args.authIdHash
    · rw [hk, AList.lookup_insert]
      rfl
    · rw [AList.lookup_insert_ne hk]
      exact hin.elim (fun hc => absurd (Option.some.inj hc).symm hk) And.left
  | close _ _ _ hr _ _ =>
    rcases hin with hc | ⟨hin, hcl⟩
    · cases hc
    · rw [hr, AList.lookup_erase_ne fun he => hcl (congrArg some he.symm)]
      exact hin
  | wipe _ _ _ _ => cases hw

/-- The guard follows the closed ids. -/
theorem Turn.guarded (ht : Turn ctx s s' instr) (hw : instr.wipes = false)
    (hn : Named s.reservations) (hg : GuardOf ids s.guard) :
    GuardOf (ids ++ instr.closes.toList) s'.guard := by
  have hsame : instr.closes = none → s'.guard = s.guard →
      GuardOf (ids ++ instr.closes.toList) s'.guard := by
    intro hc he
    rw [hc, he, Option.toList_none, List.append_nil]
    exact hg
  cases ht with
  | gate hgate ha => exact hsame hgate.creates.2 ha.guard
  | post hq _ _ hg' _ _ => exact hsame (isPosting_creates hq).2 hg'
  | openIntent _ _ _ _ _ hg' _ => exact hsame rfl hg'
  | cancelIntent _ _ _ hg' _ => exact hsame rfl hg'
  | closeIntent _ _ _ hg' _ => exact hsame rfl hg'
  | authorize _ _ _ _ _ _ _ _ _ _ _ _ _ _ hg' => exact hsame rfl hg'
  | @close k h head r g hlook hold hg' _ _ _ =>
    have hid : r.authIdHash = h := hn h r hlook
    have hring : g.closedCount = ids.length ∧ Recent g.recent ids := by
      rcases hold with hsome | ⟨hnone, rfl⟩
      · rw [hsome] at hg
        exact hg
      · -- the first close finds an empty guard and nothing closed before
        rw [hnone] at hg
        rw [show ids = [] from hg]
        exact ⟨rfl, .nil _⟩
    rw [hg', hid]
    refine ⟨?_, ?_⟩
    · change g.closedCount + 1 = (ids ++ [h]).length
      rw [hring.1, List.length_append, List.length_singleton]
    · have hset := hring.2.set (by decide) h
      rw [← hring.1] at hset
      exact hset
  | wipe _ _ _ _ => cases hw

end Steps

/-! ## Runs -/

/-- What a history says about the reservations and the guard it left. -/
structure Taken (s : State) (es : List Event) : Prop where
  named : Named s.reservations
  guard : GuardOf (closedIds es) s.guard
  present : ∀ pre e mid h, es = pre ++ e :: mid → e.call.instr.creates = some h →
    (∀ x ∈ mid, x.call.instr.closes ≠ some h) → (s.reservations.lookup h).isSome = true

theorem run_taken [Runtime] {s : State} {calls : List Call} (hs : Fresh s)
    (hw : NoWipe s calls) : Taken (Runs.after exec s calls) (Runs.history exec s calls) := by
  refine Runs.after_logged (f := fun s call _ => [⟨s, call⟩]) (I := Taken) ?_ hw ?_
  · rintro s ⟨ctx, instr⟩ s' log hno hx hinv
    have ht := exec_turn hx
    refine ⟨ht.named hno hinv.named, ?_, ?_⟩
    · have hids : closedIds (log ++ [⟨s, ctx, instr⟩]) = closedIds log ++ instr.closes.toList := by
        rw [closedIds_append, closedIds_cons]
        exact congrArg _ (List.append_nil _)
      rw [hids]
      exact ht.guarded hno hinv.named hinv.guard
    · intro pre e mid h hlog hc hopen
      apply ht.present hno
      rcases Runs.snoc_split hlog.symm with ⟨rfl, rfl, -⟩ | ⟨mid', rfl, hlog'⟩
      · exact .inl hc
      · refine .inr ⟨hinv.present pre e mid' h hlog' hc fun x hx => ?_, ?_⟩
        · exact hopen x (List.mem_append_left _ hx)
        · exact hopen _ (List.mem_append_right _ (List.mem_singleton_self _))
  · obtain ⟨b, -, -, hr, -, hg, -⟩ := hs.eq
    refine ⟨?_, ?_, ?_⟩
    · intro h r hl
      rw [hr] at hl
      simp at hl
    · rw [hg]
      rfl
    · intro pre e mid h hlog
      cases pre <;> cases hlog

/-- Since its authorization `h` was not closed, or fewer than `GUARD_RING` closes
followed its own. -/
def InReplayWindow (h : Hash) (es : List Event) : Prop :=
  (∀ x ∈ es, x.call.instr.closes ≠ some h) ∨
    ∃ a c b, es = a ++ c :: b ∧ c.call.instr.closes = some h ∧ (closedIds b).length < GUARD_RING

/-- The Reservation or a slot of the guard holds `h`. -/
def State.holds (s : State) (h : Hash) : Prop :=
  (s.reservations.lookup h).isSome = true ∨ recentlyClosed s.guard h = true

theorem Taken.holds {s : State} {pre mid : List Event} {e : Event} {h : Hash}
    (ht : Taken s (pre ++ e :: mid)) (he : e.call.instr.creates = some h)
    (hwin : InReplayWindow h mid) : s.holds h := by
  rcases hwin with hopen | ⟨a, c, b, rfl, hc, hb⟩
  · exact .inl (ht.present pre e mid h rfl he hopen)
  · right
    have hguard := ht.guard
    have hids : closedIds (pre ++ e :: (a ++ c :: b)) =
        closedIds (pre ++ e :: a) ++ h :: closedIds b := by
      have hcons : pre ++ e :: (a ++ c :: b) = pre ++ e :: a ++ c :: b := by simp
      rw [hcons, closedIds_append, closedIds_cons, hc]
      rfl
    rw [hids] at hguard
    generalize closedIds (pre ++ e :: a) = older at hguard
    cases hg : s.guard with
    | none =>
      rw [hg] at hguard
      exact absurd hguard (by simp [GuardOf])
    | some g =>
      rw [hg] at hguard
      have hmem : h ∈ (older ++ h :: closedIds b).drop
          ((older ++ h :: closedIds b).length - GUARD_RING) := by
        rw [List.length_append, List.length_cons, List.drop_append_of_le_length (by omega)]
        exact List.mem_append_right _ List.mem_cons_self
      obtain ⟨i, hi, hslot⟩ := hguard.2.mem (by decide) hmem
      change g.recent.toList.contains h = true
      rw [List.contains_iff_mem, Vector.mem_toList_iff, Vector.mem_iff_getElem]
      rw [Vector.getElem?_eq_getElem hi] at hslot
      exact ⟨i, hi, Option.some.inj hslot⟩

/-- An `authorize` for an id that is held fails, and with `DuplicateAuthorization`
whenever the card's authorizer sent it. -/
theorem authorize_held {s : State} {ctx : Ctx} {k : Pubkey} {args : AuthorizeArgs}
    (hh : s.holds args.authIdHash) :
    ∃ err, authorize ctx k args s = .error err ∧
      (signerContext ctx k s = .ok () → requireAuthorizer s.policy k = .ok () →
        err = .policy .duplicateAuthorization) := by
  unfold authorize
  cases hc : signerContext ctx k s with
  | error e => exact ⟨e, rfl, nofun⟩
  | ok u =>
    cases ha : requireAuthorizer s.policy k with
    | error e => exact ⟨e, rfl, nofun⟩
    | ok v =>
      refine ⟨.policy .duplicateAuthorization, ?_, fun _ _ => rfl⟩
      rw [ok_bind, ok_bind]
      rcases hh with hin | hclosed
      · have hne : s.reservations.lookup args.authIdHash ≠ none := by
          rw [ne_eq, ← Option.not_isSome_iff_eq_none, not_not]
          exact hin
        rw [ensure_neg hne]
        rfl
      · by_cases hnone : s.reservations.lookup args.authIdHash = none
        · rw [ensure_pos hnone, ok_bind, ensure_neg (by simp [hclosed])]
          rfl
        · rw [ensure_neg hnone]
          rfl

/-- **Replay window.** After a run without a `wipe_card` in which `authorize` took `h`,
while `h` is open or fewer than 256 closes followed its own: the Reservation or a guard
slot holds `h`, and every further `authorize` with `h` fails, with
`DuplicateAuthorization` when it passes the signer checks that come first. -/
theorem replay_window [Runtime] (s : State) (calls : List Call) (hs : Fresh s)
    (hw : NoWipe s calls) (h : Hash) (pre mid : List Event) (e : Event)
    (hlog : Runs.history exec s calls = pre ++ e :: mid) (he : e.call.instr.creates = some h)
    (hwin : InReplayWindow h mid) :
    let s' := Runs.after exec s calls
    s'.holds h ∧ ∀ ctx k args, args.authIdHash = h →
      ∃ err, exec s' ⟨ctx, .authorize k args⟩ = .error err ∧
        (signerContext ctx k s' = .ok () → requireAuthorizer s'.policy k = .ok () →
          err = .policy .duplicateAuthorization) := by
  have htaken := run_taken hs hw
  rw [hlog] at htaken
  have hheld := htaken.holds he hwin
  refine ⟨hheld, ?_⟩
  rintro ctx k args rfl
  exact authorize_held hheld

namespace Sample

/-- A purchase settled at once and its Reservation closed. -/
def closedPurchase : List Call :=
  setup 5000 3000 50 ++ purchase 20 2000 true ++
    [byAuthorizer (.closeReservation authorizer (key 20))]

def again : AuthorizeArgs := ⟨key 20, 20, 2000, USD, merchant, 0, false, true⟩

end Sample

open Sample in
theorem replay_window_closed :
    Fresh start ∧ NoWipe start closedPurchase ∧
      (Runs.after exec start closedPurchase).reservations.lookup (key 20) = none ∧
      (Runs.after exec start closedPurchase).holds (key 20) ∧
      exec (Runs.after exec start closedPurchase) (byAuthorizer (.authorize authorizer again)) =
        .error (.policy .duplicateAuthorization) := by
  have hno : NoWipe start closedPurchase := by decide
  have hgone : (Runs.after exec start closedPurchase).reservations.lookup (key 20) = none := by
    decide
  have hauth : ((Runs.history exec start closedPurchase)[3]?.map fun e =>
      e.call.instr.creates) = some (some (key 20)) := by decide
  have hclose : ((Runs.history exec start closedPurchase)[4]?.map fun e =>
      e.call.instr.closes) = some (some (key 20)) := by decide
  have hlater : (closedIds ((Runs.history exec start closedPurchase).drop 5)).length < GUARD_RING := by
    decide
  obtain ⟨e, he, hcreates⟩ := Option.map_eq_some_iff.mp hauth
  obtain ⟨c, hc, hcloses⟩ := Option.map_eq_some_iff.mp hclose
  have hlog := Runs.split_at he
  have hc' : ((Runs.history exec start closedPurchase).drop 4)[0]? = some c := by
    rw [List.getElem?_drop]
    exact hc
  have hmid := Runs.split_at hc'
  rw [List.drop_drop] at hmid
  have hwin : InReplayWindow (key 20) ((Runs.history exec start closedPurchase).drop 4) :=
    .inr ⟨_, c, _, hmid, hcloses, hlater⟩
  obtain ⟨hheld, hfail⟩ := replay_window start closedPurchase start_fresh hno (key 20) _ _ e hlog
    hcreates hwin
  obtain ⟨err, herr, hcode⟩ := hfail (ctxAt 1800000000 [authorizer]) authorizer again rfl
  have hdup := hcode (by decide) (by decide)
  rw [hdup] at herr
  exact ⟨start_fresh, hno, hgone, hheld, herr⟩

end ChainPay.Card
