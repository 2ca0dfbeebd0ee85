import ChainPay.Card.Backing
import ChainPay.Card.Standing

/-!
A wipe is complete. The policy counts the ephemeral accounts of its card in every reachable
state, so a `wipe_card` that closed as many pairs as the policy counts has closed them all,
whatever list of pairs it was given, and the zeroed card can be closed for good.
-/

namespace ChainPay.Card
open ChainPay.Lib

/-- The live ephemeral accounts, each once. -/
def State.accounts (s : State) : List Ephemeral :=
  s.reservations.keys.map .reservation ++ s.intents.keys.map .intent ++
    if s.guard.isSome then [.authGuard] else []

section Accounts

variable {s s' : State}

theorem mem_accounts (e : Ephemeral) : e ∈ s.accounts ↔ s.live e = true := by
  cases e with
  | reservation h =>
    simp [State.accounts, State.live, AList.mem_keys.symm, AList.lookup_isSome]
  | intent i =>
    simp [State.accounts, State.live, AList.mem_keys.symm, AList.lookup_isSome]
  | authGuard => simp [State.accounts, State.live]

theorem accounts_nodup (s : State) : s.accounts.Nodup := by
  have hres : (s.reservations.keys.map Ephemeral.reservation).Nodup :=
    s.reservations.keys_nodup.map fun _ _ h => Ephemeral.reservation.inj h
  have hint : (s.intents.keys.map Ephemeral.intent).Nodup :=
    s.intents.keys_nodup.map fun _ _ h => Ephemeral.intent.inj h
  unfold State.accounts
  rw [List.nodup_append, List.nodup_append]
  refine ⟨⟨hres, hint, ?_⟩, ?_, ?_⟩
  · intro a ha b hb hab
    simp only [List.mem_map] at ha hb
    obtain ⟨_, -, rfl⟩ := ha
    obtain ⟨_, -, rfl⟩ := hb
    cases hab
  · split
    · exact List.nodup_singleton _
    · exact List.nodup_nil
  · intro a ha b hb hab
    split at hb
    · rw [List.mem_singleton] at hb
      subst hb hab
      simp at ha
    · cases hb

theorem accounts_length (s : State) : s.accounts.length = s.ephemerals := by
  unfold State.accounts State.ephemerals
  rw [List.length_append, List.length_append, List.length_map, List.length_map,
    entryCount_eq_keys, entryCount_eq_keys]
  split
  · rfl
  · rfl

theorem not_live_of_none (h : s.ephemerals = 0) (e : Ephemeral) : s.live e = false := by
  rw [← accounts_length, List.length_eq_zero_iff] at h
  have hnot : ¬ s.live e = true := by
    rw [← mem_accounts, h]
    exact List.not_mem_nil
  exact Bool.eq_false_iff.mpr hnot

end Accounts

section Runs

variable [Runtime] {s s' : State}

/-- The count is right and the policy belongs to the owner of the binding. -/
structure Accounted (s : State) : Prop where
  tallied : Tallied s
  owned : s.policy.owner = s.binding.owner

theorem Fresh.accounted (h : Fresh s) : Accounted s := by
  obtain ⟨binding, hp, -, hr, hi, hg, -⟩ := h.eq
  constructor
  · unfold Tallied State.ephemerals
    rw [hp, hr, hi, hg]
    rfl
  · rw [hp]
    rfl

theorem exec_accounted {call : Call} (h : exec s call = .ok s') (hs : Accounted s) : Accounted s' := by
  obtain ⟨hpolicy, hbinding⟩ := exec_owner h
  exact ⟨(exec_turn h).tallied hs.tallied, hpolicy.trans (hs.owned.trans hbinding.symm)⟩

theorem run_accounted (hs : Fresh s) (calls : List Call) : Accounted (Runs.after exec s calls) :=
  Runs.after_inv (fun _ _ _ _ hexec hi => exec_accounted hexec hi) (Runs.along_true s calls) hs.accounted

/-- What a successful `wipe_card` leaves behind. -/
structure Wiped (s s' : State) : Prop where
  gone : ∀ e, s'.live e = false
  policy : s'.policy = zeroedPolicy s.policy.binding s.policy.owner
  period : s'.period = zeroedPeriod
  undelegated : s'.delegated = false
  binding : s'.binding = s.binding

theorem wipeCard_wiped {ctx : Ctx} {o : Pubkey} {rest : List AccountRef} (hs : Accounted s)
    (h : wipeCard ctx o rest s = .ok s') : Wiped s s' := by
  have hexec : exec s ⟨ctx, .wipeCard o rest⟩ = .ok s' := h
  obtain ⟨hnone, -⟩ := (exec_turn hexec).wiped hs.tallied
  simp only [wipeCard, bind_eq_ok, exists_unit, pure_eq_ok] at h
  obtain ⟨-, -, -, -, -, ⟨s₁, n⟩, hclose, -, -, rfl⟩ := h
  have hpolicy : s₁.policy = s.policy := (closePairs_ok hclose).1
  have hbinding : s₁.binding = s.binding := (closePairs_kept hclose).1
  refine ⟨not_live_of_none hnone, ?_, rfl, rfl, hbinding⟩
  rw [← hpolicy]

/-- **The wipe is complete.** The policy's count is the number of live ephemeral accounts in
every reachable state; a successful wipe leaves none of them and a card that `close_card`
takes from its owner. -/
theorem wipe_complete (s : State) (calls : List Call) (hs : Fresh s) :
    ((Runs.after exec s calls).policy.ephemeralCount =
        (Runs.after exec s calls).accounts.length ∧
      (Runs.after exec s calls).accounts.Nodup ∧
      ∀ e, e ∈ (Runs.after exec s calls).accounts ↔ (Runs.after exec s calls).live e = true) ∧
    ∀ ctx o rest s', wipeCard ctx o rest (Runs.after exec s calls) = .ok s' →
      Wiped (Runs.after exec s calls) s' ∧
        ∀ ctx' : Ctx, o ∈ ctx'.signers → closeCard ctx' o s' =
          .ok { s' with binding := { s'.binding with status := .closed } } := by
  have hkept := run_accounted hs calls
  refine ⟨⟨?_, accounts_nodup _, mem_accounts⟩, ?_⟩
  · rw [accounts_length]
    exact hkept.tallied
  · intro ctx o rest s' hwipe
    have hw := wipeCard_wiped hkept hwipe
    refine ⟨hw, fun ctx' hsigned => ?_⟩
    simp only [wipeCard, bind_eq_ok, exists_unit, ownerContext_eq_ok] at hwipe
    obtain ⟨⟨-, hactive, howner⟩, -⟩ := hwipe
    have hbinding : s'.binding.owner = o := by
      rw [hw.binding, ← hkept.owned]
      exact howner
    have hlive : s'.binding.status = .active := by
      rw [hw.binding]
      exact hactive
    have hzero : s'.policy = zeroedPolicy s'.policy.binding s'.policy.owner ∧
        s'.period = zeroedPeriod := by
      rw [hw.policy]
      exact ⟨rfl, hw.period⟩
    simp only [closeCard, requireSigner, ensure_pos hsigned, ensure_pos hbinding, requireLive,
      ensure_pos hlive, ensure_pos hw.undelegated, ensure_pos hzero, ok_bind]
    rfl

end Runs

namespace Sample

/-- A hold taken and reversed, on a card that is then frozen. -/
def reversedHold : List Call :=
  setup 5000 3000 50 ++ purchase 20 2000 false ++
    [byAuthorizer (.reverse authorizer (key 20) 2000 1 (key 30)),
     ⟨ctxAt 1800000000 [owner], .freeze owner FREEZE_OWNER⟩]

/-- The Reservation and the intent it consumed, each with its permission. -/
def openPairs : List AccountRef :=
  [.ephemeral (.reservation (key 20)), .permissionOf (.reservation (key 20)),
   .ephemeral (.intent 20), .permissionOf (.intent 20)]

end Sample

open Sample in
theorem wipe_complete_reversed :
    Fresh start ∧ (Runs.after exec start reversedHold).policy.ephemeralCount = 2 ∧
      ∃ s', wipeCard (ctxAt 1800000000 [owner]) owner openPairs
          (Runs.after exec start reversedHold) = .ok s' ∧
        Wiped (Runs.after exec start reversedHold) s' ∧
        closeCard (ctxAt 1800000000 [owner]) owner s' =
          .ok { s' with binding := { s'.binding with status := .closed } } := by
  have hcount : (Runs.after exec start reversedHold).policy.ephemeralCount = 2 := by
    decide
  have hok : (wipeCard (ctxAt 1800000000 [owner]) owner openPairs
      (Runs.after exec start reversedHold)).isOk = true := by decide
  refine ⟨start_fresh, hcount, ?_⟩
  cases hwipe : wipeCard (ctxAt 1800000000 [owner]) owner openPairs
      (Runs.after exec start reversedHold) with
  | error e =>
    rw [hwipe] at hok
    cases hok
  | ok s' =>
    obtain ⟨hw, hclose⟩ := (wipe_complete start reversedHold start_fresh).2 _ _ _ s' hwipe
    exact ⟨s', rfl, hw, hclose _ (List.mem_singleton_self _)⟩

end ChainPay.Card
