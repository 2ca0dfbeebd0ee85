import ChainPay.Backend.Readers
import ChainPay.Card.Repayments
import ChainPay.Sdk.Disclosure

/-!
The two readers of the card accounts against the program. The relay reads back every stored value
of every account that a run leaves. So does the SDK, but for the repayment digests: it takes the
slots before the ring's counter, and the counter wraps at 256, so from the 256th repayment on it
misses digests whenever the counter stands inside the ring (`readers_agree_iff`).
-/

namespace ChainPay.Sdk
open ChainPay.Lib ChainPay.Card ChainPay.Backend

/-! ## What agreement is -/

/-- The unused slots of a policy fill its arrays up. -/
structure Fills (p : CardPolicy) (x : Spare) : Prop where
  merchants : (p.merchantIdHashes ++ x.merchants).length = MAX_MERCHANTS
  mccs : (p.mccs ++ x.mccs).length = MAX_MCCS
  mcc : ∀ m ∈ x.mccs, m < 2 ^ 16

/-- The unused slots of a reservation fill its capture ring up. -/
def FillsRing (r : Reservation) (x : EphemeralSpare) : Prop :=
  (r.captureIds ++ x.captures).length = CAPTURE_RING

section

variable [PublicKey]

/-- The decoded policy has every stored value, and as its digests the non-zero slots. -/
structure Reports (p : CardPolicy) (x : Spare) (v : Policy) : Prop where
  fields : v = { decodedPolicy p x with tail := v.tail }
  tail : ∃ t, v.tail = some t ∧ t.reconDigest = Hash.bytes p.reconDigest ∧
    ∀ d, d ∈ t.repaymentDigests ↔ d ∈ (Readers.digests p).map Hash.bytes

/-- Both readers take every account of the card back. -/
structure ReadBack (s : State) : Prop where
  relayPolicy : ∀ x, Fills s.policy x →
    Readers.decodePolicy (policyData s.policy x) = .ok (Readers.storedPolicy s.policy)
  sdkPolicy : ∀ x, Fills s.policy x →
    ∃ v, decodeCardPolicy (policyData s.policy x) = .ok v ∧ Reports s.policy x v
  relayPeriod : ∀ x,
    Readers.decodePeriod (periodData s.period x) = .ok (Readers.storedPeriod s.period x)
  sdkPeriod : ∀ x, decodeCardPeriod (periodData s.period x) = .ok (decodedPeriod s.period x)
  relayReservation : ∀ h r, s.reservations.lookup h = some r → ∀ x, FillsRing r x →
    Readers.decodeReservation (reservationData r x) = .ok (Readers.storedReservation r x)
  sdkReservation : ∀ h r, s.reservations.lookup h = some r → ∀ x, FillsRing r x →
    decodeReservation (reservationData r x) = .ok (storedHold r x)
  relayIntent : ∀ i v, s.intents.lookup i = some v → ∀ x,
    Readers.decodeIntent (intentData v x) = .ok (Readers.storedIntent v x)
  sdkIntent : ∀ i v, s.intents.lookup i = some v → ∀ x,
    decodeCheckoutIntent (intentData v x) = .ok (storedIntent v x)
  relayCommitment : ∀ binding bump,
    Readers.decodeCommitment (commitmentData s.commitment binding bump) =
      .ok (Readers.storedCommitment s.commitment binding)
  sdkCommitment : ∀ binding bump,
    decodeCardCommitment (commitmentData s.commitment binding bump) =
      .ok (decodedCommitment s.commitment binding bump)

end

/-! ## One state -/

theorem held_of {p : CardPolicy} {x : Spare} (hp : TypedPolicy p) (hx : Fills p x) : Held p x where
  policyVersion := hp.policyVersion
  budgetCents := hp.budgetCents
  maxPurchaseCents := hp.maxPurchaseCents
  maxPurchasesPerPeriod := hp.maxPurchasesPerPeriod
  periodSeconds := hp.periodSeconds
  merchants := hx.merchants
  mccs := hx.mccs
  mcc m hm := (List.mem_append.mp hm).elim (hp.mcc m) (hx.mcc m)
  expiresAt := hp.expiresAt
  feeBps := hp.feeBps
  freezeReason := hp.freezeReason
  statementOutstandingCents := hp.statementOutstandingCents
  exceptionsOpen := hp.exceptionsOpen
  memberCount := hp.memberCount
  ledgerSeq := hp.ledgerSeq
  commitSeq := hp.commitSeq

/-- The unused slots as zeros. -/
def zeros (p : CardPolicy) : Spare where
  merchants := List.replicate (MAX_MERCHANTS - p.merchantIdHashes.length) 0
  mccs := List.replicate (MAX_MCCS - p.mccs.length) 0
  policy := 0
  bump := 0

theorem zeros_fills {p : CardPolicy} (hp : TypedPolicy p) : Fills p (zeros p) where
  merchants := by
    have hle := hp.merchants
    rw [List.length_append, zeros, List.length_replicate]
    omega
  mccs := by
    have hle := hp.mccs
    rw [List.length_append, zeros, List.length_replicate]
    omega
  mcc m hm := by
    rw [List.eq_of_mem_replicate hm]
    exact Nat.two_pow_pos 16

section

variable [PublicKey]

/-- The SDK's digests are the ring's as long as the counter tells which slots are used. -/
theorem reports_iff {p : CardPolicy} {x : Spare} {n : Nat} (h : Ring.Filled 0 p.repayments n) :
    Reports p x (decodedPolicy p x) ↔ n < REPAYMENT_RING ∨ REPAYMENT_RING ≤ n % 256 := by
  rw [← Ring.Filled.front_iff (by decide) h]
  have hbytes : ∀ (hs : List Hash) (y : Hash), Hash.bytes y ∈ hs.map Hash.bytes ↔ y ∈ hs := by
    intro hs y
    exact List.mem_map_of_injective fun _ _ he => Hash.bytes_inj he
  have htake : ((p.repayments.slots.toList.map Hash.bytes).take
      (min p.repayments.count.toNat REPAYMENT_RING)) =
      (p.repayments.slots.toList.take (min p.repayments.count.toNat REPAYMENT_RING)).map
        Hash.bytes := (List.map_take ..).symm
  have hdigests : ∀ y, y ∈ Readers.digests p ↔ y ∈ p.repayments.slots.toList ∧ y ≠ 0 := by
    intro y
    simp only [Readers.digests, List.mem_filter, decide_eq_true_eq]
  constructor
  · intro hreports y
    obtain ⟨t, ht, -, hset⟩ := hreports.tail
    cases ht
    have hy := hset (Hash.bytes y)
    rw [htake, hbytes, hbytes, hdigests] at hy
    exact hy
  · intro hfront
    refine ⟨rfl, _, rfl, rfl, fun d => ?_⟩
    rw [htake, List.mem_map, List.mem_map]
    constructor
    · rintro ⟨y, hy, rfl⟩
      exact ⟨y, (hdigests y).mpr ((hfront y).mp hy), rfl⟩
    · rintro ⟨y, hy, rfl⟩
      exact ⟨y, (hfront y).mpr ((hdigests y).mp hy), rfl⟩

/-- Everything but the SDK's digests is read back from any typed account. -/
theorem readBack_iff {s : State} {n : Nat} (hs : Typed s)
    (hn : Ring.Filled 0 s.policy.repayments n) :
    ReadBack s ↔ n < REPAYMENT_RING ∨ REPAYMENT_RING ≤ n % 256 := by
  constructor
  · intro hread
    have hfills := zeros_fills hs.policy
    obtain ⟨v, hv, hreports⟩ := hread.sdkPolicy _ hfills
    rw [decodeCardPolicy_data (held_of hs.policy hfills)] at hv
    cases hv
    exact (reports_iff hn).mp hreports
  · intro hcount
    exact {
      relayPolicy := fun x hx => Readers.decodePolicy_data (held_of hs.policy hx)
      sdkPolicy := fun x hx =>
        ⟨_, decodeCardPolicy_data (held_of hs.policy hx), (reports_iff hn).mpr hcount⟩
      relayPeriod := fun x => Readers.decodePeriod_data hs.period
      sdkPeriod := fun x => decodeCardPeriod_data hs.period
      relayReservation := fun h r hr x _ => Readers.decodeReservation_data (hs.reservations h r hr)
      sdkReservation := fun h r hr x hx => decodeReservation_data (hs.reservations h r hr) hx
      relayIntent := fun i v hv x => Readers.decodeIntent_data (hs.intents i v hv)
      sdkIntent := fun i v hv x => decodeCheckoutIntent_data (hs.intents i v hv)
      relayCommitment := fun b bump => Readers.decodeCommitment_data hs.commitment
      sdkCommitment := fun b bump => decodeCardCommitment_data hs.commitment }

/-- With the counter back at zero the SDK finds no digest in a full ring. -/
theorem misread {s : State} {n : Nat} (hs : Typed s)
    (hn : Ring.Filled 0 s.policy.repayments n) (hfull : REPAYMENT_RING ≤ n) (hzero : n % 256 = 0) :
    ¬ ReadBack s ∧
      (∃ v, decodeCardPolicy (policyData s.policy (zeros s.policy)) = .ok v ∧
        v.tail.map PolicyTail.repaymentDigests = some []) ∧
      (Readers.digests s.policy).length = REPAYMENT_RING := by
  have hdecoded := decodeCardPolicy_data (held_of hs.policy (zeros_fills hs.policy))
  have hcount : s.policy.repayments.count.toNat = 0 := hn.count.trans hzero
  refine ⟨?_, ⟨_, hdecoded, ?_⟩, ?_⟩
  · rw [readBack_iff hs hn, hzero]
    rintro (hlt | hle)
    · exact Nat.not_lt.mpr hfull hlt
    · cases hle
  · simp only [decodedPolicy, hcount, Nat.zero_min, List.take_zero, Option.map_some]
  · have hall : Readers.digests s.policy = s.policy.repayments.slots.toList := by
      rw [Readers.digests, List.filter_eq_self]
      intro x hx
      obtain ⟨i, hi, rfl⟩ := List.mem_iff_getElem.mp hx
      rw [Vector.length_toList] at hi
      rw [decide_eq_true_eq, Vector.getElem_toList]
      exact (hn.used i hi).mpr (Nat.lt_of_lt_of_le hi hfull)
    rw [hall]
    exact Vector.length_toList

end

/-! ## Runs -/

/-- The repayments recorded since the card was wiped, after one more call. -/
def countRepayment (n : Nat) : Label → Nat
  | .repay _ _ => n + 1
  | .wipe => 0
  | _ => n

theorem wipe_of_label {i : Instr} (h : i.label = .wipe) : ∃ o rest, i = .wipeCard o rest := by
  cases i with
  | wipeCard o rest => exact ⟨o, rest, rfl⟩
  | authorize k args =>
    simp only [Instr.label, AuthorizeArgs.label] at h
    split at h
    · cases h
    · cases h
  | recordException k o code a e =>
    simp only [Instr.label] at h
    split at h
    · rename_i kind _
      unfold ExceptionKind.label at h
      split at h
      · cases h
      · cases h
      · cases h
    · cases h
  | _ => cases h

section Program

variable [Runtime] {s s' : State}

/-- The repayments a run recorded since it last wiped the card. -/
def repaymentsRecorded (s : State) (calls : List Call) : Nat :=
  (labels s calls).foldl countRepayment 0

theorem exec_filled {call : Call} {n : Nat} (hn : Ring.Filled 0 s.policy.repayments n)
    (h : exec s call = .ok s') :
    Ring.Filled 0 s'.policy.repayments (countRepayment n call.instr.label) := by
  have hmove := exec_move h
  by_cases hwipe : call.instr.label = .wipe
  · obtain ⟨o, rest, hinstr⟩ := wipe_of_label hwipe
    rw [hwipe]
    obtain ⟨ctx, instr⟩ := call
    cases hinstr
    replace h : wipeCard ctx o rest s = .ok s' := h
    simp only [wipeCard, bind_eq_ok, exists_unit, pure_eq_ok] at h
    obtain ⟨-, -, -, -, -, ⟨s₁, k⟩, -, -, -, rfl⟩ := h
    exact Ring.filled_init REPAYMENT_RING 0
  · cases hdigest : call.instr.label.digest with
    | none =>
      have hsame : s'.policy.repayments = s.policy.repayments := hmove.repayments_eq hwipe hdigest
      have hcount : countRepayment n call.instr.label = n := by
        cases hl : call.instr.label with
        | repay d a =>
          rw [hl] at hdigest
          cases hdigest
        | wipe => exact absurd hl hwipe
        | _ => rfl
      rw [hsame, hcount]
      exact hn
    | some d =>
      obtain ⟨hne, hnew, hpush⟩ := hmove.repay_inv hdigest
      have hpushed : s'.policy.repayments = s.policy.repayments.push d := hpush
      have hcount : countRepayment n call.instr.label = n + 1 := by
        cases hl : call.instr.label with
        | repay d a => rfl
        | _ =>
          rw [hl] at hdigest
          cases hdigest
      rw [hpushed, hcount]
      exact Ring.push_filled (by decide) hn hne hnew

theorem run_filled {calls : List Call} {n : Nat} (hs : Fresh s)
    (hn : repaymentsRecorded s calls = n) :
    Ring.Filled 0 (Runs.after exec s calls).policy.repayments n := by
  subst hn
  refine Runs.after_logged
    (I := fun s log => Ring.Filled 0 s.policy.repayments (log.foldl countRepayment 0))
    (fun s call s' log _ hstep hn => ?_) (Runs.along_true s calls) ?_
  · rw [List.foldl_append]
    exact exec_filled hn hstep
  · obtain ⟨b, hp, -⟩ := hs.eq
    rw [hp]
    exact Ring.filled_init REPAYMENT_RING 0

/-- **Readers.** After any run, both readers take every account back exactly when fewer repayments
than the ring has slots were recorded since the last wipe, or their number modulo 256 is at least
that of the slots. -/
theorem readers_agree_iff [PublicKey] (s : State) (calls : List Call) (hs : Fresh s)
    (hfit : ∀ call ∈ calls, CallFits call) :
    ReadBack (Runs.after exec s calls) ↔
      repaymentsRecorded s calls < REPAYMENT_RING ∨
        REPAYMENT_RING ≤ repaymentsRecorded s calls % 256 :=
  readBack_iff (run_typed hs hfit) (run_filled hs rfl)

end Program

/-! ## A card that was paid 256 times -/

namespace Sample
open Card.Sample

/-- The digest of the `i`th statement. -/
def statement (i : Nat) : Hash := BitVec.ofNat 256 (i + 1)

/-- A private repayment of one cent. -/
def payCent (i : Nat) : Call := byAuthorizer (.recordPrivateRepayment authorizer (statement i) 1)

/-- A purchase of twenty dollars, captured at once. -/
def bought : List Call := setup 5000 3000 50 ++ purchase 20 2000 true

def paid (n : Nat) : List Call := bought ++ (List.range n).map payCent

end Sample

section

open Sample Card.Sample

theorem statement_injective {i j : Nat} (hi : i < 2 ^ 255) (hj : j < 2 ^ 255)
    (h : statement i = statement j) : i = j := by
  have hn := congrArg BitVec.toNat h
  simp only [statement, BitVec.toNat_ofNat] at hn
  omega

theorem statement_ne_zero {i : Nat} (hi : i < 2 ^ 255) : statement i ≠ 0 := by
  intro h
  have hn := congrArg BitVec.toNat h
  rw [statement, BitVec.toNat_ofNat, Nat.mod_eq_of_lt (by omega)] at hn
  cases hn

theorem applyRepayment_of {p : CardPolicy} {i a : Nat} {d : Hash} {m : UInt8} {t : Int}
    (hpos : 0 < a) (hd : d ≠ 0) (hnew : p.repayments.contains d = false)
    (hle : a ≤ p.statementOutstandingCents) (hseq : p.ledgerSeq + 1 < 2 ^ 64) :
    ∃ head, applyRepayment p i d a m t = .ok { p with
      statementOutstandingCents := p.statementOutstandingCents - a
      repayments := p.repayments.push d
      ledgerHead := head
      ledgerSeq := p.ledgerSeq + 1 } := by
  have hsub : sub p.statementOutstandingCents a = .ok (p.statementOutstandingCents - a) :=
    sub_eq_ok.mpr ⟨hle, rfl⟩
  have hadd : add p.ledgerSeq 1 = .ok (p.ledgerSeq + 1) := add_eq_ok.mpr ⟨hseq, rfl⟩
  rw [applyRepayment, ensure_pos hpos, ok_bind, requireEventId, ensure_pos hd, ok_bind,
    ensure_pos hnew, ok_bind, ensure_pos hle, ok_bind, hsub, ok_bind, appendLedger]
  simp only [hadd, ok_bind]
  exact ⟨_, rfl⟩

/-- What `k` more payments of a cent need of the card after the first `n`. -/
structure Payable (n k : Nat) (s : State) : Prop where
  active : s.binding.status = .active
  authorizer : s.policy.authorizer = authorizer
  outstanding : k ≤ s.policy.statementOutstandingCents
  ledgerSeq : s.policy.ledgerSeq + k < 2 ^ 64
  ring : ∀ x, s.policy.repayments.contains x = true → x = 0 ∨ ∃ j < n, x = statement j

theorem payCent_ok {s : State} {n k : Nat} (hn : n < 2 ^ 255) (hs : Payable n (k + 1) s) :
    ∃ s', exec s (payCent n) = .ok s' ∧ Payable (n + 1) k s' := by
  have hset : s.policy.isSet := by
    rw [CardPolicy.isSet, hs.authorizer]
    decide
  have hnew : s.policy.repayments.contains (statement n) = false := by
    rw [Bool.eq_false_iff]
    intro hin
    rcases hs.ring _ hin with hzero | ⟨j, hj, he⟩
    · exact statement_ne_zero hn hzero
    · have hsame := statement_injective hn (Nat.lt_trans hj hn) he
      omega
  have hout : 1 ≤ s.policy.statementOutstandingCents := Nat.le_trans (by omega) hs.outstanding
  have hseq : s.policy.ledgerSeq + 1 < 2 ^ 64 := by
    have hroom := hs.ledgerSeq
    omega
  have hsigned : signerContext (ctxAt 1800000000 [authorizer]) authorizer s = .ok () :=
    signerContext_eq_ok.mpr ⟨List.mem_singleton_self _, hs.active⟩
  have hauth : requireAuthorizer s.policy authorizer = .ok () :=
    requireAuthorizer_eq_ok.mpr ⟨hset, hs.authorizer⟩
  obtain ⟨head, happly⟩ := applyRepayment_of (i := s.period.periodIndex)
    (m := REPAYMENT_PRIVATE_ATTESTED) (t := 1800000000) Nat.one_pos (statement_ne_zero hn) hnew hout
    hseq
  have hexec : exec s (payCent n) = recordPrivateRepayment (ctxAt 1800000000 [authorizer])
    authorizer (statement n) 1 s := rfl
  rw [recordPrivateRepayment, hsigned, ok_bind, hauth, ok_bind] at hexec
  refine ⟨_, hexec.trans (congrArg (· >>= _) happly), hs.active, hs.authorizer, ?_, ?_, ?_⟩
  · have hle := hs.outstanding
    change k ≤ s.policy.statementOutstandingCents - 1
    omega
  · have hroom := hs.ledgerSeq
    change s.policy.ledgerSeq + 1 + k < 2 ^ 64
    omega
  · intro x hx
    rcases Ring.contains_push hx with hold | rfl
    · rcases hs.ring x hold with hzero | ⟨j, hj, he⟩
      · exact .inl hzero
      · exact .inr ⟨j, Nat.lt_succ_of_lt hj, he⟩
    · exact .inr ⟨n, Nat.lt_succ_self n, rfl⟩

theorem payCents_ok {s : State} {n : Nat} (hn : n < 2 ^ 255) {k : Nat} (hs : Payable 0 (n + k) s) :
    Payable n k (Runs.after exec s ((List.range n).map payCent)) ∧
      labels s ((List.range n).map payCent) =
        (List.range n).map fun i => .repay (statement i) 1 := by
  induction n generalizing k with
  | zero =>
    rw [Nat.zero_add] at hs
    exact ⟨hs, rfl⟩
  | succ n ih =>
    obtain ⟨hmid, hlabels⟩ := ih (Nat.lt_of_succ_lt hn) (k := k + 1) (by
      rw [Nat.add_comm k, ← Nat.add_assoc]
      exact hs)
    obtain ⟨s', hexec, hafter⟩ := payCent_ok (Nat.lt_of_succ_lt hn) hmid
    rw [List.range_succ, List.map_append, List.map_append, Runs.after_append]
    constructor
    · rw [List.map_singleton, Runs.after_cons, Runs.next_ok hexec]
      exact hafter
    · have happend : Runs.logged exec (fun _ call _ => [call.instr.label]) s
          ((List.range n).map payCent ++ [n].map payCent) = _ :=
        Runs.logged_append s ((List.range n).map payCent) ([n].map payCent)
      rw [labels, happend]
      congr 1
      exact Runs.logged_cons_ok hexec

theorem bought_payable : Payable 0 (256 + 0) (Runs.after exec start bought) where
  active := by decide
  authorizer := by decide
  outstanding := by decide
  ledgerSeq := by decide
  ring x hx := by
    have hring : (Runs.after exec start bought).policy.repayments = Ring.init REPAYMENT_RING 0 := by
      decide
    rw [hring] at hx
    exact .inl (Ring.contains_init hx)

theorem paid_recorded : repaymentsRecorded start (paid 256) = 256 := by
  have hlabels := (payCents_ok (by decide) bought_payable).2
  have happend : labels start (paid 256) = labels start bought ++
      labels (Runs.after exec start bought) ((List.range 256).map payCent) := Runs.logged_append ..
  have hbefore : (labels start bought).foldl countRepayment 0 = 0 := by decide
  have hcount : ∀ (is : List Nat) (n : Nat),
      (is.map fun i => Label.repay (statement i) 1).foldl countRepayment n = n + is.length := by
    intro is
    induction is with
    | nil => exact fun n => rfl
    | cons i is ih =>
      intro n
      rw [List.map_cons, List.foldl_cons, ih, List.length_cons]
      change n + 1 + is.length = _
      omega
  rw [repaymentsRecorded, happend, List.foldl_append, hbefore, hlabels, hcount, List.length_range]

theorem paid_fits (n : Nat) : ∀ call ∈ paid n, CallFits call := by
  intro call hcall
  rcases List.mem_append.mp hcall with hbought | hpaid
  · have hall : ∀ call ∈ bought, CallFits call := by decide
    exact hall call hbought
  · obtain ⟨i, -, rfl⟩ := List.mem_map.mp hpaid
    exact (by decide : FitsI64 1800000000 ∧ 1 < 2 ^ 64 ∧ True)

/-- On a card whose statements were paid 256 times the SDK finds no digest and the ring has eight. -/
theorem readers_disagree_wrapped :
    letI := base58
    ∃ s, s = Runs.after exec start (paid 256) ∧ Fresh start ∧ (∀ call ∈ paid 256, CallFits call) ∧
      ¬ ReadBack s ∧
      (∃ v, decodeCardPolicy (policyData s.policy (zeros s.policy)) = .ok v ∧
        v.tail.map PolicyTail.repaymentDigests = some []) ∧
      (Readers.digests s.policy).length = REPAYMENT_RING := by
  let _ := base58
  exact ⟨_, rfl, start_fresh, paid_fits 256, misread (run_typed start_fresh (paid_fits 256))
    (run_filled start_fresh paid_recorded) (by decide) (by decide)⟩

theorem readers_agree_repaid :
    letI := base58
    Fresh start ∧ (∀ call ∈ repayments 2, CallFits call) ∧
      repaymentsRecorded start (repayments 2) = 3 ∧
      ReadBack (Runs.after exec start (repayments 2)) := by
  let _ := base58
  have hfit : ∀ call ∈ repayments 2, CallFits call := by decide
  have hcount : repaymentsRecorded start (repayments 2) = 3 := by decide +kernel
  refine ⟨start_fresh, hfit, hcount, (readers_agree_iff start _ start_fresh hfit).mpr ?_⟩
  rw [hcount]
  decide

end

end ChainPay.Sdk
