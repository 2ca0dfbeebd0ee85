import ChainPay.Backend.Close
import ChainPay.Card.Repayment
import ChainPay.Card.Setup
import ChainPay.Lib.Pages
import Mathlib.Algebra.BigOperators.Group.List.Basic
import Mathlib.Algebra.Order.BigOperators.Group.List
import Mathlib.Algebra.Order.Ring.Int

/-!
Two ledgers of one debt. The program keeps the outstanding balance: a debit adds
amount and fee, a credit takes them off down to zero. The backend keeps statements:
a close nets the open postings and applies the credit carried in, and `discharge`
records what the statement still accounts for on the rollup.

A history is a list of `Event`s. A posting is applied by the program and booked
open; a statement is closed, repaid, confirmed and discharged. `landed` remembers
that the repayment of a statement reached the rollup, also when the backend did not
learn of it. Open postings are read by pages of the index, as the source reads them: a
page that ends between two postings of one time of update leaves the second one out.
-/

namespace ChainPay.Backend
open ChainPay.Lib ChainPay.Card

/-! ## What a discharge clears -/

/-- Signed effect on what the owner owes, fee included. -/
def Line.signedTotal (l : Line) : Int :=
  if l.kind.isCredit then -((l.amount + l.fee : Nat) : Int) else ((l.amount + l.fee : Nat) : Int)

/-- `min(max(total, 0), outstanding - max(0, net of every posting after its cut))`. -/
def exposureToClear (total : Int) (outstanding : Nat) (netAfterCut : Int) : Nat :=
  if total ≤ 0 then 0
  else (max (min total (outstanding - max netAfterCut 0)) 0).toNat

inductive StatementEvent where
  | receiptVerified
  | receiptMismatch
  | partnerConfirmed
  | repaymentRecorded
  | nothingDue
  deriving DecidableEq, Repr

/-- The only transitions a statement can take. -/
def transition : StatementState → StatementEvent → Option StatementState
  | .closed, .receiptVerified | .repaymentMismatch, .receiptVerified => some .repaymentObserved
  | .closed, .receiptMismatch | .repaymentMismatch, .receiptMismatch => some .repaymentMismatch
  | .repaymentObserved, .partnerConfirmed => some .partnerConfirmed
  | .partnerConfirmed, .repaymentRecorded => some .discharged
  | .closed, .nothingDue => some .discharged
  | _, _ => none

/-- A statement row with its repayment. -/
structure Bill where
  statement : Statement
  state : StatementState
  /-- Repaid through the private path, which leaves no receipt. -/
  isPrivate : Bool
  /-- The amount fixed before the first submit. -/
  plan : Option Nat
  landed : Bool
  updated : Nat
  deriving DecidableEq

/-- The amount due as the repayment routes read it. -/
def Bill.payable (b : Bill) : Nat := (parseCents b.statement.totals.amountDue).getD 0

/-- A verified receipt pays the amount due, to the base unit. -/
def Bill.paidCents (b : Bill) : Nat := b.payable

def Bill.planned (b : Bill) : Option Nat := b.plan.bind fun n => parseCents n

structure Books where
  policy : CardPolicy
  /-- Open postings, in the order of their creation. -/
  opened : List PostingRow
  /-- Statement `k + 1` is at position `k`. -/
  bills : List Bill
  carried : Nat

/-- Every open posting the pages hold, oldest first. -/
def Books.readOpen (b : Books) : List PostingRow :=
  (Pages.all updatedOf PAGE b.opened).insertionSort oldestPosted

/-- The net of every posting after the cut of statement `seq`: the open ones, and the
lines of later statements that are still owed among the 200 last updated. -/
def Books.netAfter (b : Books) (seq : Nat) : Int :=
  (b.readOpen.filterMap fun r =>
    (lineFromPosting r.1 r.2.value b.policy.feeBps).map fun l => l.1.signedTotal).sum +
  ((((Pages.newest Bill.updated b.bills).take 200).filter fun later =>
    decide (seq < later.statement.statementSeq) && decide (later.state ≠ .discharged)).map
      fun later => (later.statement.lines.map Line.signedTotal).sum).sum

/-- How the submitted instruction ended, as far as the backend knows. -/
inductive Outcome where
  | confirmed
  | unknownLanded
  | unknownLost
  deriving DecidableEq, Repr

section Discharge

variable (digest : Statement → Hash)

/-- The amount `discharge` submits: the plan, fixed now if there is none, and at most
what the receipt paid. -/
def Books.planFor (b : Books) (bill : Bill) : Nat :=
  bill.planned.getD (exposureToClear bill.statement.totals.total
    b.policy.statementOutstandingCents (b.netAfter bill.statement.statementSeq))

def Bill.submitted (bill : Bill) (plan : Nat) : Nat :=
  if bill.isPrivate then plan else min plan bill.paidCents

/-- Fixes the amount, unless an earlier call did. -/
def Books.fixPlan (b : Books) (bill : Bill) (updated : Nat) : Bill :=
  if bill.planned.isSome then bill
  else { bill with plan := some (b.planFor bill), updated := updated }

def Bill.marked (bill : Bill) (updated : Nat) : Bill :=
  { bill with state := .discharged, updated := updated }

/-- Submits the repayment, and marks the statement discharged when it is confirmed. -/
def Books.submit (b : Books) (k : Nat) (bill : Bill) (amount : Nat) (outcome : Outcome)
    (periodIndex : Nat) (now : Int) (updated : Nat) : Books :=
  let method := if bill.isPrivate then REPAYMENT_PRIVATE_ATTESTED else REPAYMENT_CHAINPAY_RECEIPT
  match outcome, applyRepayment b.policy periodIndex (digest bill.statement) amount method now with
  | .unknownLost, _ => { b with bills := b.bills.set k bill }
  | _, .error _ => { b with bills := b.bills.set k bill }
  | .confirmed, .ok policy =>
    { b with
      policy := policy
      bills := b.bills.set k { bill.marked updated with landed := true } }
  | .unknownLanded, .ok policy =>
    { b with policy := policy, bills := b.bills.set k { bill with landed := true } }

/-- Records the repayment of a confirmed statement on the rollup and marks it
discharged once its digest shows there. -/
def Books.discharge (b : Books) (k : Nat) (bill : Bill) (outcome : Outcome) (periodIndex : Nat)
    (now : Int) (updated : Nat) : Books :=
  if b.policy.repayments.contains (digest bill.statement) then
    { b with bills := b.bills.set k (bill.marked updated) }
  else
    let amount := bill.submitted (b.planFor bill)
    let bill := b.fixPlan bill updated
    if amount = 0 then { b with bills := b.bills.set k (bill.marked updated) }
    else b.submit digest k bill amount outcome periodIndex now updated

/-! ## Histories -/

inductive Event where
  /-- An issuer event, applied by the program and booked under its id. -/
  | post (id : Hash) (label : StepLabel) (amount postedAt updated : Nat)
  | close (kind : CloseKind) (op : Option Hash) (cut updated : Nat)
  /-- A step of the repayment routes before the discharge. -/
  | repay (k : Nat) (event : StatementEvent) (isPrivate : Bool) (updated : Nat)
  | discharge (k : Nat) (outcome : Outcome) (periodIndex : Nat) (now : Int) (updated : Nat)
  deriving DecidableEq

/-- What the program does with a booked event. -/
def applyPosting (policy : CardPolicy) (kind : PostingKind) (amount : Nat) : Except Err CardPolicy :=
  if kind.isCredit then reduceExposure policy amount else addExposure policy amount

/-- A posting is filed under the id, open or on a statement. -/
def Books.hasPosting (b : Books) (id : Hash) : Bool :=
  b.opened.any (fun r => decide (r.1 = id)) ||
    b.bills.any fun bill => decide (id ∈ bill.statement.lineIds)

/-- One event; what is refused fails. -/
def Books.step (b : Books) : Event → Except Unit Books
  | .post id label amount postedAt updated =>
    match postingForLabel label with
    | none => .error ()
    | some (kind, exception) =>
      if amount = 0 ∨ b.hasPosting id = true then .error ()
      else
        match applyPosting b.policy kind amount with
        | .error _ => .error ()
        | .ok policy =>
          .ok { b with
            policy := policy
            opened := b.opened ++
              [(id, ⟨1, ⟨kind, amount, some b.policy.feeBps, postedAt, exception, none⟩, updated⟩)] }
  | .close kind op cut updated =>
    match linesUpTo cut (some b.policy.feeBps) b.readOpen with
    | none => .error ()
    | some ([], _) => .error ()
    | some (lines, feeAssumed) =>
      if (totals lines b.carried).valid then
        let r := statementRecord ⟨b.bills.length + 1, kind, cut, op⟩ lines b.carried feeAssumed
        .ok { b with
          opened := b.opened.filter fun p => !decide (p.1 ∈ r.statement.lineIds)
          bills := b.bills ++ [⟨r.statement, r.state, false, none, false, updated⟩]
          carried := r.statement.forward }
      else .error ()
  | .repay k event isPrivate updated =>
    match b.bills[k]? with
    | none => .error ()
    | some bill =>
      if event = .repaymentRecorded ∨ event = .nothingDue ∨ bill.payable = 0 then .error ()
      else
        match transition bill.state event with
        | none => .error ()
        | some state =>
          .ok { b with
            bills := b.bills.set k
              { bill with
                state := state
                isPrivate := if event = .receiptVerified then isPrivate else bill.isPrivate
                updated := updated } }
  | .discharge k outcome periodIndex now updated =>
    match b.bills[k]? with
    | none => .error ()
    | some bill =>
      if bill.state ≠ .partnerConfirmed then .error ()
      else .ok (b.discharge digest k bill outcome periodIndex now updated)

end Discharge

/-! ## Sums -/

/-- What a posting weighs on the outstanding balance. -/
def Posting.signedGross (f : Nat) (p : Posting) : Int :=
  if p.kind.isCredit then -(grossOf p.amount f : Int) else grossOf p.amount f

theorem totals_total (lines : List Line) (carried : Nat) :
    (totals lines carried).total = (lines.map Line.signedTotal).sum := by
  simp only [totals]
  induction lines with
  | nil => rfl
  | cons l lines ih =>
    cases hk : l.kind.isCredit with
    | true =>
      simp only [List.filter_cons, hk, Bool.not_true, Bool.false_eq_true, if_false, if_true,
        List.map_cons, List.sum_cons, Line.signedFee, Line.signedTotal]
      push_cast
      omega
    | false =>
      simp only [List.filter_cons, hk, Bool.not_false, Bool.false_eq_true, if_false, if_true,
        List.map_cons, List.sum_cons, Line.signedFee, Line.signedTotal]
      push_cast
      omega

/-- A posting booked at the rate `f`, whose fee fits. -/
structure BookedAt (f : Nat) (p : Posting) : Prop where
  rate : p.feeBps = some f
  fits : feeOf p.amount f < 2 ^ 64

theorem lineFromPosting_total {id : Hash} {p : Posting} {f bps : Nat} {l : Line} {a : Bool}
    (hp : BookedAt f p) (h : lineFromPosting id p bps = some (l, a)) :
    l.signedTotal = p.signedGross f := by
  cases hamount : parseCents p.amount with
  | none => simp only [lineFromPosting, hamount, reduceCtorEq] at h
  | some amount =>
    simp only [lineFromPosting, hamount, Option.some.injEq, Prod.mk.injEq] at h
    obtain ⟨rfl, -⟩ := h
    have hfee : feeCents p.amount f = feeOf p.amount f := by
      unfold feeCents
      exact Nat.mod_eq_of_lt hp.fits
    rw [(parseCents_eq_some hamount).2]
    simp only [Line.signedTotal, Posting.signedGross, hp.rate, Option.getD_some, hfee, grossOf]

theorem lineFromPosting_eventId {id : Hash} {p : Posting} {bps : Nat} {l : Line} {a : Bool}
    (h : lineFromPosting id p bps = some (l, a)) : l.eventId = id := by
  cases hamount : parseCents p.amount with
  | none => simp only [lineFromPosting, hamount, reduceCtorEq] at h
  | some amount =>
    simp only [lineFromPosting, hamount, Option.some.injEq, Prod.mk.injEq] at h
    rw [← h.1]

/-- The lines of a close are those of the postings up to the cut. -/
theorem linesUpTo_lines {cut f : Nat} {rows : List PostingRow} {lines : List Line} {a : Bool}
    (hrows : ∀ r ∈ rows, BookedAt f r.2.value)
    (h : linesUpTo cut (some f) rows = some (lines, a)) :
    lines.map Line.eventId =
        (rows.filter fun r => decide (r.2.value.postedAt ≤ cut)).map Prod.fst ∧
      lines.map Line.signedTotal =
        (rows.filter fun r => decide (r.2.value.postedAt ≤ cut)).map fun r =>
          r.2.value.signedGross f := by
  induction rows generalizing lines a with
  | nil =>
    cases h
    exact ⟨rfl, rfl⟩
  | cons r rows ih =>
    have hr := hrows r List.mem_cons_self
    have hrest : ∀ r ∈ rows, BookedAt f r.2.value :=
      fun r' hr' => hrows r' (List.mem_cons_of_mem r hr')
    simp only [linesUpTo] at h
    by_cases hcut : r.2.value.postedAt ≤ cut
    · rw [if_pos hcut] at h
      split at h
      · cases h
      · rename_i line assumed hline
        split at h
        · cases h
        · rw [Option.map_eq_some_iff] at h
          obtain ⟨⟨ls, any⟩, hls, he⟩ := h
          cases he
          obtain ⟨hids, htotals⟩ := ih hrest hls
          have hid : line.eventId = r.1 := lineFromPosting_eventId hline
          rw [List.filter_cons_of_pos (by simpa using hcut)]
          simp only [List.map_cons, hids, htotals, hid, lineFromPosting_total hr hline, and_self]
    · rw [if_neg hcut] at h
      rw [List.filter_cons_of_neg (by simpa using hcut)]
      exact ih hrest h

/-! ## What a discharge does -/

section Discharges

variable {digest : Statement → Hash} {b : Books} {k : Nat} {bill : Bill}

/-- The row a discharge leaves: the statement is the same and the plan is kept or
fixed now. -/
structure Replanned (b : Books) (bill bill' : Bill) : Prop where
  statement : bill'.statement = bill.statement
  plan : bill'.plan = bill.plan ∨ (bill.planned = none ∧ bill'.plan = some (b.planFor bill))

/-- The four ends of a discharge: the digest is there already, nothing is left to
record, nothing landed, or the repayment landed. -/
inductive Discharged (digest : Statement → Hash) (b : Books) (bill : Bill) :
    CardPolicy → Bill → Prop where
  | seen {bill' : Bill} (hseen : b.policy.repayments.contains (digest bill.statement) = true)
      (hstatement : bill'.statement = bill.statement) (hplan : bill'.plan = bill.plan)
      (hlanded : bill'.landed = bill.landed) (hstate : bill'.state = .discharged) :
      Discharged digest b bill b.policy bill'
  | nothing {bill' : Bill} (hseen : b.policy.repayments.contains (digest bill.statement) = false)
      (hzero : bill.submitted (b.planFor bill) = 0) (hplan : Replanned b bill bill')
      (hlanded : bill'.landed = bill.landed) (hstate : bill'.state = .discharged) :
      Discharged digest b bill b.policy bill'
  | pending {bill' : Bill} (hseen : b.policy.repayments.contains (digest bill.statement) = false)
      (hplan : Replanned b bill bill') (hlanded : bill'.landed = bill.landed)
      (hstate : bill'.state = bill.state) : Discharged digest b bill b.policy bill'
  | landed {policy : CardPolicy} {bill' : Bill}
      (hseen : b.policy.repayments.contains (digest bill.statement) = false)
      (hout : policy.statementOutstandingCents + bill.submitted (b.planFor bill) =
        b.policy.statementOutstandingCents)
      (hring : policy.repayments = b.policy.repayments.push (digest bill.statement))
      (hfee : policy.feeBps = b.policy.feeBps) (hplan : Replanned b bill bill')
      (hlanded : bill'.landed = true) : Discharged digest b bill policy bill'

theorem applyRepayment_ok {p p' : CardPolicy} {i a : Nat} {d : Hash} {m : UInt8} {t : Int}
    (h : applyRepayment p i d a m t = .ok p') :
    p'.statementOutstandingCents + a = p.statementOutstandingCents ∧
      p'.repayments = p.repayments.push d ∧ p'.feeBps = p.feeBps := by
  simp only [applyRepayment, bind_eq_ok, exists_unit, requireEventId_eq_ok, ensure_eq_ok,
    sub_eq_ok] at h
  obtain ⟨-, -, -, -, _, ⟨hle, rfl⟩, hp⟩ := h
  have hterms := appendLedger_terms hp
  have hout := congrArg Terms.outstanding hterms
  change p'.statementOutstandingCents = p.statementOutstandingCents - a at hout
  refine ⟨by omega, congrArg Terms.repayments hterms, congrArg Terms.feeBps hterms⟩

theorem fixPlan_replanned (b : Books) (bill : Bill) (updated : Nat) :
    Replanned b bill (b.fixPlan bill updated) ∧ (b.fixPlan bill updated).landed = bill.landed ∧
      (b.fixPlan bill updated).state = bill.state := by
  unfold Books.fixPlan
  cases hp : bill.planned with
  | some n => exact ⟨⟨rfl, .inl rfl⟩, rfl, rfl⟩
  | none => exact ⟨⟨rfl, .inr ⟨hp, rfl⟩⟩, rfl, rfl⟩

theorem discharge_cases (digest : Statement → Hash) (b : Books) (k : Nat) (bill : Bill)
    (outcome : Outcome) (periodIndex : Nat) (now : Int) (updated : Nat) :
    ∃ policy bill', b.discharge digest k bill outcome periodIndex now updated =
        { b with policy := policy, bills := b.bills.set k bill' } ∧
      Discharged digest b bill policy bill' := by
  unfold Books.discharge
  split
  · rename_i hseen
    exact ⟨_, _, rfl, .seen hseen rfl rfl rfl rfl⟩
  rename_i hseen
  have hseen := Bool.not_eq_true _ ▸ hseen
  obtain ⟨hplan, hlanded, hstate⟩ := fixPlan_replanned b bill updated
  simp only
  split
  · rename_i hzero
    exact ⟨_, _, rfl, .nothing hseen hzero ⟨hplan.statement, hplan.plan⟩ hlanded rfl⟩
  unfold Books.submit
  rw [hplan.statement]
  simp only
  split
  · exact ⟨_, _, rfl, .pending hseen hplan hlanded hstate⟩
  · exact ⟨_, _, rfl, .pending hseen hplan hlanded hstate⟩
  · rename_i hok
    obtain ⟨hout, hring, hfee⟩ := applyRepayment_ok hok
    exact ⟨_, _, rfl, .landed hseen hout hring hfee ⟨hplan.statement, hplan.plan⟩ rfl⟩
  · rename_i hok
    obtain ⟨hout, hring, hfee⟩ := applyRepayment_ok hok
    exact ⟨_, _, rfl, .landed hseen hout hring hfee ⟨rfl, hplan.plan⟩ rfl⟩

end Discharges

/-! ## No discharge clears more than its statement billed -/

theorem exposureToClear_le (total : Int) (outstanding : Nat) (net : Int) :
    (exposureToClear total outstanding net : Int) ≤ max total 0 := by
  unfold exposureToClear
  split
  · exact le_max_right _ _
  · rw [Int.toNat_of_nonneg (le_max_right _ _)]
    omega

/-- A plan is at most what its statement billed. -/
def PlansFit (b : Books) : Prop :=
  ∀ bill ∈ b.bills, ∀ n ∈ bill.planned, (n : Int) ≤ max bill.statement.totals.total 0

theorem PlansFit.planFor {b : Books} {bill : Bill} (h : PlansFit b) (hb : bill ∈ b.bills) :
    (b.planFor bill : Int) ≤ max bill.statement.totals.total 0 := by
  unfold Books.planFor
  cases hp : bill.planned with
  | none => exact exposureToClear_le _ _ _
  | some n => exact h bill hb n hp

theorem submitted_le (bill : Bill) (n : Nat) : bill.submitted n ≤ n := by
  unfold Bill.submitted
  split
  · exact le_rfl
  · exact Nat.min_le_left _ _

/-- A plan that is read back is the one that was saved. -/
theorem planned_eq {bill : Bill} {n m : Nat} (hplan : bill.plan = some m)
    (h : n ∈ bill.planned) : n = m := by
  rw [Option.mem_def, Bill.planned, hplan, Option.bind_some] at h
  exact (parseCents_eq_some h).2

theorem Replanned.fits {b : Books} {bill bill' : Bill} (hr : Replanned b bill bill')
    (h : PlansFit b) (hb : bill ∈ b.bills) :
    ∀ n ∈ bill'.planned, (n : Int) ≤ max bill'.statement.totals.total 0 := by
  intro n hn
  rw [hr.statement]
  rcases hr.plan with hsame | ⟨-, hnew⟩
  · refine h bill hb n ?_
    rw [Option.mem_def, Bill.planned, ← hsame]
    exact hn
  · rw [planned_eq hnew hn]
    exact h.planFor hb

/-- What a step may clear: a discharge at most what its statement billed. -/
def ClearsAtMost (b : Books) (e : Event) (b' : Books) : Prop :=
  match e with
  | .discharge k .. => ∀ bill ∈ b.bills[k]?,
    (b.policy.statementOutstandingCents : Int) - b'.policy.statementOutstandingCents ≤
      max bill.statement.totals.total 0
  | _ => True

theorem mem_set {α : Type} {l : List α} {k : Nat} {x y : α} (h : y ∈ l.set k x) :
    y ∈ l ∨ y = x := List.mem_or_eq_of_mem_set h

theorem PlansFit.step {digest : Statement → Hash} {b b' : Books} {e : Event}
    (h : b.step digest e = .ok b') (hp : PlansFit b) : PlansFit b' ∧ ClearsAtMost b e b' := by
  cases e with
  | post id label amount postedAt updated =>
    simp only [Books.step] at h
    split at h
    · cases h
    · split at h
      · cases h
      · split at h
        · cases h
        · cases h
          exact ⟨hp, trivial⟩
  | close kind op cut updated =>
    simp only [Books.step] at h
    split at h
    · cases h
    · cases h
    · split at h
      · cases h
        refine ⟨?_, trivial⟩
        intro bill hb n hn
        rcases List.mem_append.mp hb with hb | hb
        · exact hp bill hb n hn
        · rw [List.mem_singleton] at hb
          subst hb
          cases hn
      · cases h
  | repay k event isPrivate updated =>
    simp only [Books.step] at h
    split at h
    · cases h
    · rename_i bill hbill
      split at h
      · cases h
      · split at h
        · cases h
        · cases h
          refine ⟨?_, trivial⟩
          intro bill' hb n hn
          rcases mem_set hb with hb | rfl
          · exact hp bill' hb n hn
          · exact hp bill (List.mem_of_getElem? hbill) n hn
  | discharge k outcome periodIndex now updated =>
    simp only [Books.step] at h
    split at h
    · cases h
    · rename_i bill hbill
      split at h
      · cases h
      · have hb := List.mem_of_getElem? hbill
        obtain ⟨policy, bill₁, heq, hd⟩ := discharge_cases digest b k bill outcome
          periodIndex now updated
        rw [heq] at h
        cases h
        have hfit : Replanned b bill bill₁ → PlansFit
            { b with policy := policy, bills := b.bills.set k bill₁ } := by
          intro hr bill' hb' n hn
          rcases mem_set hb' with hb' | rfl
          · exact hp bill' hb' n hn
          · exact hr.fits hp hb n hn
        have hsome : ∀ bill' ∈ b.bills[k]?, bill' = bill := by
          intro bill' hb'
          rw [hbill] at hb'
          exact (Option.some.inj hb').symm
        cases hd with
        | seen _ hstatement hplan _ _ =>
          refine ⟨hfit ⟨hstatement, .inl hplan⟩, fun bill' hb' => ?_⟩
          rw [sub_self]
          exact le_max_right _ _
        | nothing _ _ hplan _ _ =>
          refine ⟨hfit hplan, fun bill' hb' => ?_⟩
          rw [sub_self]
          exact le_max_right _ _
        | pending _ hplan _ _ =>
          refine ⟨hfit hplan, fun bill' hb' => ?_⟩
          rw [sub_self]
          exact le_max_right _ _
        | landed _ hout _ _ hplan _ =>
          refine ⟨hfit hplan, fun bill' hb' => ?_⟩
          rw [hsome bill' hb']
          have hsub := submitted_le bill (b.planFor bill)
          have hle := hp.planFor hb
          change (b.policy.statementOutstandingCents : Int) - policy.statementOutstandingCents ≤ _
          omega

/-! ## Agreement -/

/-- What a statement still accounts for on the rollup. -/
def Bill.owed (bill : Bill) : Int :=
  if bill.state = .discharged ∨ bill.landed = true then 0 else bill.statement.totals.total

def Books.netOpen (b : Books) : Int :=
  (b.opened.map fun r => r.2.value.signedGross b.policy.feeBps).sum

def Books.owed (b : Books) : Int := (b.bills.map Bill.owed).sum

/-- What is open and owed besides one statement. -/
def Books.rest (b : Books) (bill : Bill) : Int := b.netOpen + b.owed - bill.owed

/-- What a discharge of the statement has to take off, so that no more stays
outstanding than is open and owed. -/
def Books.need (b : Books) (bill : Bill) : Int :=
  b.policy.statementOutstandingCents - b.rest bill

/-- The statement's own limits leave room for what it has to take off: the plan that
was fixed, or else the rest is no credit, can be read, with no page of the open postings
ending between two of one time, and holds no later statement that landed unnoticed; and
the amount due, when a receipt paid it. -/
structure Bill.Coverable (b : Books) (bill : Bill) : Prop where
  planned : ∀ n ∈ bill.planned, b.need bill ≤ (n : Int)
  rest : bill.planned = none → 0 ≤ b.rest bill
  readable : bill.planned = none → ∀ r ∈ b.opened, r.2.value.amount < CENTS_LIMIT
  listed : bill.planned = none → Pages.Unbroken updatedOf PAGE (Pages.newest updatedOf b.opened)
  marked : bill.planned = none → ∀ later ∈ b.bills,
    bill.statement.statementSeq < later.statement.statementSeq → later.landed = true →
      later.state = .discharged
  paid : bill.isPrivate = false → b.need bill ≤ (bill.paidCents : Int)

/-- The step loses no credit: what is credited is open or owed, a statement that its
carried credit pays in full is off the rollup already, and a discharge that has to take
something off can. -/
def KeepsCredit (digest : Statement → Hash) (b : Books) (e : Event) (_ : Books) : Prop :=
  match e with
  | .post _ label amount _ _ =>
    match postingForLabel label with
    | some (kind, _) => kind.isCredit = true →
      (grossOf amount b.policy.feeBps : Int) ≤ b.netOpen + b.owed
    | none => True
  | .close _ _ cut _ =>
    match linesUpTo cut (some b.policy.feeBps) b.readOpen with
    | some (lines, _) => 0 < (totals lines b.carried).total → (totals lines b.carried).amountDue = 0 →
      (b.policy.statementOutstandingCents : Int) + (totals lines b.carried).total ≤
        b.netOpen + b.owed
    | none => True
  | .repay .. => True
  | .discharge k .. =>
    match b.bills[k]? with
    | some bill =>
      b.policy.repayments.contains (digest bill.statement) = false → 0 < b.need bill →
        bill.Coverable b
    | none => True

/-- The digests of the statements do not collide, and none is the empty slot of the
repayment ring. -/
def DistinctDigests (digest : Statement → Hash) (b : Books) : Prop :=
  (b.bills.map fun bill => digest bill.statement).Nodup ∧
    ∀ bill ∈ b.bills, digest bill.statement ≠ 0

section Decidable

theorem page_pos : 0 < PAGE := by decide

instance (b : Books) : Decidable (Pages.Unbroken updatedOf PAGE (Pages.newest updatedOf b.opened)) :=
  decidable_of_iff _ (Pages.leftOut_eq_nil_iff page_pos b.opened)

instance (b : Books) (bill : Bill) : Decidable (bill.Coverable b) :=
  decidable_of_iff
    ((∀ n ∈ bill.planned, b.need bill ≤ (n : Int)) ∧
      (bill.planned = none → 0 ≤ b.rest bill ∧ (∀ r ∈ b.opened, r.2.value.amount < CENTS_LIMIT) ∧
        Pages.Unbroken updatedOf PAGE (Pages.newest updatedOf b.opened) ∧
        ∀ later ∈ b.bills, bill.statement.statementSeq < later.statement.statementSeq →
          later.landed = true → later.state = .discharged) ∧
      (bill.isPrivate = false → b.need bill ≤ (bill.paidCents : Int)))
    ⟨fun ⟨h₁, h₂, h₃⟩ => ⟨h₁, fun h => (h₂ h).1, fun h => (h₂ h).2.1, fun h => (h₂ h).2.2.1,
        fun h => (h₂ h).2.2.2, h₃⟩,
      fun h => ⟨h.planned, fun hn => ⟨h.rest hn, h.readable hn, h.listed hn, h.marked hn⟩, h.paid⟩⟩

instance (digest : Statement → Hash) (b : Books) (e : Event) (b' : Books) :
    Decidable (KeepsCredit digest b e b') :=
  match e with
  | .post _ label amount _ _ =>
    match h : postingForLabel label with
    | some (kind, _) => decidable_of_iff (kind.isCredit = true →
        (grossOf amount b.policy.feeBps : Int) ≤ b.netOpen + b.owed)
        (by simp only [KeepsCredit, h])
    | none => .isTrue (by simp only [KeepsCredit, h])
  | .close _ _ cut _ =>
    match h : linesUpTo cut (some b.policy.feeBps) b.readOpen with
    | some (lines, _) => decidable_of_iff
        (0 < (totals lines b.carried).total → (totals lines b.carried).amountDue = 0 →
          (b.policy.statementOutstandingCents : Int) + (totals lines b.carried).total ≤
            b.netOpen + b.owed)
        (by simp only [KeepsCredit, h])
    | none => .isTrue (by simp only [KeepsCredit, h])
  | .repay .. => .isTrue trivial
  | .discharge k .. =>
    match h : b.bills[k]? with
    | some bill => decidable_of_iff
        (b.policy.repayments.contains (digest bill.statement) = false → 0 < b.need bill →
          bill.Coverable b)
        (by simp only [KeepsCredit, h])
    | none => .isTrue (by simp only [KeepsCredit, h])

instance (digest : Statement → Hash) (b : Books) : Decidable (DistinctDigests digest b) :=
  inferInstanceAs (Decidable (_ ∧ _))

end Decidable

/-- No more is outstanding than is open and owed. -/
structure Agrees (digest : Statement → Hash) (b : Books) : Prop where
  balance : (b.policy.statementOutstandingCents : Int) ≤ b.netOpen + b.owed
  booked : ∀ r ∈ b.opened, BookedAt b.policy.feeBps r.2.value
  distinct : (b.opened.map Prod.fst).Nodup
  added : ∀ bill ∈ b.bills,
    bill.statement.totals.total = (bill.statement.lines.map Line.signedTotal).sum
  positive : ∀ bill ∈ b.bills, bill.state ≠ .discharged → 0 < bill.statement.totals.total
  ring : ∀ d, b.policy.repayments.contains d = true →
    d = 0 ∨ ∃ bill ∈ b.bills, bill.landed = true ∧ digest bill.statement = d

theorem sum_map_set {l : List Bill} {k : Nat} {x y : Bill} (hx : l[k]? = some x) :
    ((l.set k y).map Bill.owed).sum = (l.map Bill.owed).sum - x.owed + y.owed := by
  obtain ⟨hk, rfl⟩ := List.getElem?_eq_some_iff.mp hx
  rw [List.map_set, List.sum_set']
  rw [dif_pos (by rw [List.length_map]; exact hk), List.getElem_map]
  omega

/-- A debit adds its gross. A credit takes it off, or leaves nothing. -/
theorem applyPosting_gross {p p' : CardPolicy} {kind : PostingKind} {a : Nat}
    (h : applyPosting p kind a = .ok p') :
    (p'.statementOutstandingCents : Int) = max 0 (p.statementOutstandingCents +
        (if kind.isCredit then -(grossOf a p.feeBps : Int) else grossOf a p.feeBps)) ∧
      p'.feeBps = p.feeBps ∧ p'.repayments = p.repayments ∧ feeOf a p.feeBps < 2 ^ 64 := by
  have hfee : ∀ g, withFee a p.feeBps = .ok g → feeOf a p.feeBps < 2 ^ 64 := by
    intro g hg
    simp only [withFee, fee, bind_eq_ok, exists_unit, ensure_eq_ok, pure_eq_ok] at hg
    obtain ⟨_, ⟨-, hlt, -⟩, -⟩ := hg
    exact hlt
  unfold applyPosting at h
  cases hk : kind.isCredit with
  | true =>
    simp only [hk, if_true] at h ⊢
    have hlt : feeOf a p.feeBps < 2 ^ 64 := by
      have h' := h
      simp only [reduceExposure, bind_eq_ok] at h'
      obtain ⟨g, hg, -⟩ := h'
      exact hfee g hg
    rw [reduceExposure_ok h]
    refine ⟨?_, rfl, rfl, hlt⟩
    change ((p.statementOutstandingCents - grossOf a p.feeBps : Nat) : Int) = _
    omega
  | false =>
    simp only [hk, Bool.false_eq_true, if_false] at h ⊢
    have hlt : feeOf a p.feeBps < 2 ^ 64 := by
      have h' := h
      simp only [addExposure, bind_eq_ok] at h'
      obtain ⟨g, hg, -⟩ := h'
      exact hfee g hg
    rw [addExposure_ok h]
    refine ⟨?_, rfl, rfl, hlt⟩
    change ((p.statementOutstandingCents + grossOf a p.feeBps : Nat) : Int) = _
    omega

/-! ### What is after a cut -/

section After

variable {digest : Statement → Hash} {b : Books}

theorem Agrees.owed_nonneg (ha : Agrees digest b) {bill : Bill} (hb : bill ∈ b.bills) :
    0 ≤ bill.owed := by
  unfold Bill.owed
  split
  · exact le_rfl
  · rename_i h
    exact (ha.positive bill hb fun hs => h (.inl hs)).le

theorem readOpen_subperm (b : Books) : b.readOpen.Subperm b.opened :=
  (List.perm_insertionSort _ _).subperm.trans (Pages.all_subperm page_pos b.opened)

theorem readOpen_mem {r : PostingRow} (hr : r ∈ b.readOpen) : r ∈ b.opened :=
  (readOpen_subperm b).subset hr

/-- The open postings, as `netAfter` reads them. -/
theorem Agrees.open_sum (ha : Agrees digest b)
    (hlisted : Pages.Unbroken updatedOf PAGE (Pages.newest updatedOf b.opened))
    (hread : ∀ r ∈ b.opened, r.2.value.amount < CENTS_LIMIT) :
    (b.readOpen.filterMap fun r =>
      (lineFromPosting r.1 r.2.value b.policy.feeBps).map fun l => l.1.signedTotal).sum =
      b.netOpen := by
  have hline : ∀ r ∈ b.readOpen,
      ((lineFromPosting r.1 r.2.value b.policy.feeBps).map fun l => l.1.signedTotal) =
        some (r.2.value.signedGross b.policy.feeBps) := by
    intro r hr
    have hr := readOpen_mem hr
    cases hl : lineFromPosting r.1 r.2.value b.policy.feeBps with
    | none =>
      simp only [lineFromPosting, parseCents_natCast (hread r hr), reduceCtorEq] at hl
    | some l =>
      rw [Option.map_some, lineFromPosting_total (ha.booked r hr) hl]
  have hperm : b.readOpen.Perm b.opened :=
    (List.perm_insertionSort _ _).trans (Pages.all_perm_of_unbroken page_pos hlisted)
  rw [List.filterMap_congr hline]
  unfold Books.netOpen
  rw [← (hperm.map _).sum_eq, ← List.filterMap_eq_map]
  rfl

/-- What a close bills and what it leaves open add up to what was open. -/
theorem Agrees.close_sum (ha : Agrees digest b) {cut : Nat} {lines : List Line} {a : Bool}
    (h : linesUpTo cut (some b.policy.feeBps) b.readOpen = some (lines, a)) :
    b.netOpen = (lines.map Line.signedTotal).sum +
      ((b.opened.filter fun r => !decide (r.1 ∈ lines.map Line.eventId)).map fun r =>
        r.2.value.signedGross b.policy.feeBps).sum := by
  obtain ⟨hids, htotals⟩ := linesUpTo_lines (fun r hr => ha.booked r (readOpen_mem hr)) h
  have hnodup : b.opened.Nodup := ha.distinct.of_map
  have hread : b.readOpen.Nodup := by
    obtain ⟨l, hl, hsub⟩ := readOpen_subperm b
    exact hl.nodup_iff.mp (hnodup.sublist hsub)
  -- the rows billed are the open ones with the id of a line
  have hbilled : (b.readOpen.filter fun r => decide (r.2.value.postedAt ≤ cut)).Perm
      (b.opened.filter fun r => decide (r.1 ∈ lines.map Line.eventId)) := by
    rw [List.perm_ext_iff_of_nodup (hread.filter _) (hnodup.filter _)]
    intro r
    rw [List.mem_filter, List.mem_filter, decide_eq_true_eq, decide_eq_true_eq, hids]
    constructor
    · rintro ⟨hr, hcut⟩
      exact ⟨readOpen_mem hr, List.mem_map_of_mem (List.mem_filter.mpr ⟨hr, by simpa using hcut⟩)⟩
    · rintro ⟨hr, hid⟩
      obtain ⟨r', hr', he⟩ := List.mem_map.mp hid
      obtain ⟨hmem, hcut⟩ := List.mem_filter.mp hr'
      have hsame : r' = r := List.inj_on_of_nodup_map ha.distinct (readOpen_mem hmem) hr he
      rw [← hsame]
      exact ⟨hmem, by simpa using hcut⟩
  have hsplit := (List.filter_append_perm (fun r : PostingRow =>
    decide (r.1 ∈ lines.map Line.eventId)) b.opened).map fun r =>
      r.2.value.signedGross b.policy.feeBps
  unfold Books.netOpen
  rw [← hsplit.sum_eq, List.map_append, List.sum_append, htotals, (hbilled.map _).sum_eq]

/-- A later statement that is still owed. -/
def Bill.laterOwed (seq : Nat) (x : Bill) : Int :=
  if seq < x.statement.statementSeq ∧ x.state ≠ .discharged then x.statement.totals.total else 0

theorem Agrees.later_nonneg (ha : Agrees digest b) (seq : Nat) {x : Bill} (hx : x ∈ b.bills) :
    0 ≤ x.laterOwed seq := by
  unfold Bill.laterOwed
  split
  · rename_i h
    exact (ha.positive x hx h.2).le
  · exact le_rfl

theorem sum_filter_later (seq : Nat) (l : List Bill)
    (hadd : ∀ x ∈ l, x.statement.totals.total = (x.statement.lines.map Line.signedTotal).sum) :
    ((l.filter fun later =>
      decide (seq < later.statement.statementSeq) && decide (later.state ≠ .discharged)).map
        fun later => (later.statement.lines.map Line.signedTotal).sum).sum =
      (l.map (Bill.laterOwed seq)).sum := by
  induction l with
  | nil => rfl
  | cons x l ih =>
    have hx := hadd x List.mem_cons_self
    have ih := ih fun y hy => hadd y (List.mem_cons_of_mem x hy)
    rw [List.filter_cons, List.map_cons, List.sum_cons, ← ih]
    by_cases hc : seq < x.statement.statementSeq ∧ x.state ≠ .discharged
    · rw [if_pos (by simpa using hc), List.map_cons, List.sum_cons, ← hx]
      rw [Bill.laterOwed, if_pos hc]
    · rw [if_neg (by simpa using hc), Bill.laterOwed, if_neg hc, zero_add]

/-- What `netAfter` finds after the cut is at most what is open and owed besides the
statement. -/
theorem Agrees.netAfter_le (ha : Agrees digest b) {k : Nat} {bill : Bill}
    (hbill : b.bills[k]? = some bill)
    (hlisted : Pages.Unbroken updatedOf PAGE (Pages.newest updatedOf b.opened))
    (hread : ∀ r ∈ b.opened, r.2.value.amount < CENTS_LIMIT)
    (hmarked : ∀ later ∈ b.bills, bill.statement.statementSeq < later.statement.statementSeq →
      later.landed = true → later.state = .discharged) :
    b.netAfter bill.statement.statementSeq ≤ b.rest bill := by
  obtain ⟨hk, rfl⟩ := List.getElem?_eq_some_iff.mp hbill
  set seq := b.bills[k].statement.statementSeq with hseq
  have hsorted := Pages.newest_perm Bill.updated b.bills
  have htake : (((Pages.newest Bill.updated b.bills).take 200).map (Bill.laterOwed seq)).sum ≤
      (b.bills.map (Bill.laterOwed seq)).sum := by
    rw [← (hsorted.map (Bill.laterOwed seq)).sum_eq]
    refine List.Sublist.sum_le_sum ((List.take_sublist _ _).map _) ?_
    intro n hn
    obtain ⟨x, hx, rfl⟩ := List.mem_map.mp hn
    exact ha.later_nonneg seq (hsorted.mem_iff.mp hx)
  have hsplit : (b.bills.map (Bill.laterOwed seq)).sum ≤ b.owed - b.bills[k].owed := by
    have hself : b.bills[k].laterOwed seq = 0 := if_neg fun h => absurd h.1 (lt_irrefl _)
    have hle : ∀ x ∈ b.bills, x.laterOwed seq ≤ x.owed := by
      intro x hx
      unfold Bill.laterOwed
      split
      · rename_i h
        refine le_of_eq (if_neg ?_).symm
        rintro (hd | hl)
        · exact h.2 hd
        · exact h.2 (hmarked x hx h.1 hl)
      · exact ha.owed_nonneg hx
    have hparts : b.bills = b.bills.take k ++ b.bills[k] :: b.bills.drop (k + 1) := by
      rw [List.getElem_cons_drop, List.take_append_drop]
    have hsum : ∀ f : Bill → Int, (b.bills.map f).sum =
        ((b.bills.take k).map f).sum + (f b.bills[k] + ((b.bills.drop (k + 1)).map f).sum) := by
      intro f
      conv_lhs => rw [hparts]
      rw [List.map_append, List.sum_append, List.map_cons, List.sum_cons]
    have hbefore : ((b.bills.take k).map (Bill.laterOwed seq)).sum ≤
        ((b.bills.take k).map Bill.owed).sum :=
      List.sum_le_sum fun x hx => hle x (List.mem_of_mem_take hx)
    have hafter : ((b.bills.drop (k + 1)).map (Bill.laterOwed seq)).sum ≤
        ((b.bills.drop (k + 1)).map Bill.owed).sum :=
      List.sum_le_sum fun x hx => hle x (List.mem_of_mem_drop hx)
    unfold Books.owed
    rw [hsum (Bill.laterOwed seq), hsum Bill.owed, hself]
    omega
  unfold Books.netAfter Books.rest
  rw [ha.open_sum hlisted hread, sum_filter_later seq _ fun x hx =>
    ha.added x (hsorted.mem_iff.mp (List.mem_of_mem_take hx))]
  omega

end After

/-! ### Keeping the agreement -/

section Agreement

variable {digest : Statement → Hash} {b b' : Books}

/-- A discharge submits at least what the statement has to take off. -/
theorem Agrees.need_le_submitted (ha : Agrees digest b) {k : Nat} {bill : Bill}
    (hbill : b.bills[k]? = some bill) (hcover : 0 < b.need bill → bill.Coverable b) :
    b.need bill ≤ (bill.submitted (b.planFor bill) : Int) := by
  by_cases hneed : 0 < b.need bill
  · have hc := hcover hneed
    have hle : b.need bill ≤ bill.statement.totals.total := by
      have hbalance := ha.balance
      have howed : bill.owed = 0 ∨ bill.owed = bill.statement.totals.total := by
        unfold Bill.owed
        split
        · exact .inl rfl
        · exact .inr rfl
      unfold Books.need Books.rest at hneed ⊢
      omega
    have hplan : b.need bill ≤ (b.planFor bill : Int) := by
      unfold Books.planFor
      cases hp : bill.planned with
      | some n => exact hc.planned n hp
      | none =>
        have hrest := hc.rest hp
        have hafter := ha.netAfter_le hbill (hc.listed hp) (hc.readable hp) (hc.marked hp)
        change _ ≤ ((exposureToClear _ _ _ : Nat) : Int)
        unfold exposureToClear
        rw [if_neg (by omega), Int.toNat_of_nonneg (le_max_right _ _)]
        unfold Books.need at hle ⊢
        omega
    unfold Bill.submitted
    cases hprivate : bill.isPrivate with
    | true => exact hplan
    | false =>
      have hpaid := hc.paid hprivate
      change _ ≤ ((min (b.planFor bill) bill.paidCents : Nat) : Int)
      omega
  · omega

theorem DistinctDigests.same_bill (hd : DistinctDigests digest b) {k : Nat} {bill x : Bill}
    (hbill : b.bills[k]? = some bill) (hx : x ∈ b.bills)
    (he : digest x.statement = digest bill.statement) : x = bill :=
  List.inj_on_of_nodup_map hd.1 hx (List.mem_of_getElem? hbill) he

/-- The books with one statement row rewritten. -/
theorem Agrees.setBill {policy : CardPolicy} {k : Nat} {bill bill' : Bill} (ha : Agrees digest b)
    (hbill : b.bills[k]? = some bill) (hfee : policy.feeBps = b.policy.feeBps)
    (hstatement : bill'.statement = bill.statement)
    (hbalance : (policy.statementOutstandingCents : Int) ≤ b.rest bill + bill'.owed)
    (hopen : bill'.state ≠ .discharged → bill.state ≠ .discharged)
    (hlanded : bill.landed = true → bill'.landed = true)
    (hring : ∀ d, policy.repayments.contains d = true → b.policy.repayments.contains d = true ∨
      (bill'.landed = true ∧ d = digest bill.statement)) :
    Agrees digest { b with policy := policy, bills := b.bills.set k bill' } := by
  have hk : k < b.bills.length := (List.getElem?_eq_some_iff.mp hbill).1
  have hmem : bill ∈ b.bills := List.mem_of_getElem? hbill
  have hin : bill' ∈ b.bills.set k bill' := List.mem_set hk bill'
  have hstay : ∀ x ∈ b.bills, x ≠ bill → x ∈ b.bills.set k bill' := by
    intro x hx hne
    obtain ⟨j, hj⟩ := List.mem_iff_getElem?.mp hx
    have hjk : k ≠ j := by
      rintro rfl
      rw [hbill] at hj
      exact hne (Option.some.inj hj).symm
    refine List.mem_iff_getElem?.mpr ⟨j, ?_⟩
    rw [List.getElem?_set_ne hjk]
    exact hj
  refine ⟨?_, ?_, ha.distinct, ?_, ?_, ?_⟩
  · have hsum := sum_map_set (y := bill') hbill
    unfold Books.rest Books.netOpen Books.owed at hbalance
    unfold Books.netOpen Books.owed
    change (policy.statementOutstandingCents : Int) ≤
      (b.opened.map fun r => r.2.value.signedGross policy.feeBps).sum +
        ((b.bills.set k bill').map Bill.owed).sum
    rw [hfee, hsum]
    omega
  · intro r hr
    change BookedAt policy.feeBps r.2.value
    rw [hfee]
    exact ha.booked r hr
  · intro x hx
    rcases mem_set hx with hx | rfl
    · exact ha.added x hx
    · rw [hstatement]
      exact ha.added bill hmem
  · intro x hx hstate
    rcases mem_set hx with hx | rfl
    · exact ha.positive x hx hstate
    · rw [hstatement]
      exact ha.positive bill hmem (hopen hstate)
  · intro d hd
    rcases hring d hd with hold | ⟨hl, rfl⟩
    · rcases ha.ring d hold with rfl | ⟨x, hx, hl, rfl⟩
      · exact .inl rfl
      · refine .inr ?_
        by_cases he : x = bill
        · subst he
          exact ⟨bill', hin, hlanded hl, by rw [hstatement]⟩
        · exact ⟨x, hstay x hx he, hl, rfl⟩
    · exact .inr ⟨bill', hin, hl, by rw [hstatement]⟩

theorem Agrees.discharge (ha : Agrees digest b) (hdistinct : DistinctDigests digest b) {k : Nat}
    {bill bill' : Bill} {policy : CardPolicy} (hbill : b.bills[k]? = some bill)
    (hstate : bill.state ≠ .discharged)
    (hcover : b.policy.repayments.contains (digest bill.statement) = false → 0 < b.need bill →
      bill.Coverable b)
    (hd : Discharged digest b bill policy bill') :
    Agrees digest { b with policy := policy, bills := b.bills.set k bill' } := by
  have hbalance := ha.balance
  have hmem : bill ∈ b.bills := List.mem_of_getElem? hbill
  cases hd with
  | seen hseen hstatement hplan hlanded hstate' =>
    -- the digest in the ring is this statement's own, so its repayment had landed
    have hwas : bill.landed = true := by
      rcases ha.ring _ hseen with h | ⟨x, hx, hl, hd⟩
      · exact absurd h (hdistinct.2 bill hmem)
      · rw [← hdistinct.same_bill hbill hx hd]
        exact hl
    have howed : bill.owed = 0 := if_pos (.inr hwas)
    have howed' : bill'.owed = 0 := if_pos (.inl hstate')
    refine ha.setBill hbill rfl hstatement ?_ (fun _ => hstate) (fun h => hlanded.trans h)
      (fun d hd => .inl hd)
    unfold Books.rest
    omega
  | nothing hseen hnone hplan hlanded hstate' =>
    have hneed := ha.need_le_submitted hbill (hcover hseen)
    have howed' : bill'.owed = 0 := if_pos (.inl hstate')
    refine ha.setBill hbill rfl hplan.statement ?_ (fun _ => hstate) (fun h => hlanded.trans h)
      (fun d hd => .inl hd)
    unfold Books.need at hneed
    omega
  | pending hseen hplan hlanded hstate' =>
    have howed : bill'.owed = bill.owed := by
      unfold Bill.owed
      rw [hlanded, hstate', hplan.statement]
    refine ha.setBill hbill rfl hplan.statement ?_ (fun _ => hstate) (fun h => hlanded.trans h)
      (fun d hd => .inl hd)
    unfold Books.rest
    omega
  | landed hseen hout hring hfee hplan hlanded =>
    have hneed := ha.need_le_submitted hbill (hcover hseen)
    have howed' : bill'.owed = 0 := if_pos (.inr hlanded)
    refine ha.setBill hbill hfee hplan.statement ?_ (fun _ => hstate) (fun _ => hlanded)
      (fun d hd => ?_)
    · unfold Books.need at hneed
      omega
    · rw [hring] at hd
      rcases Ring.contains_push hd with h | h
      · exact .inl h
      · exact .inr ⟨hlanded, h⟩

theorem transition_undischarged {s s' : StatementState} {e : StatementEvent}
    (h : transition s e = some s') (hrecord : e ≠ .repaymentRecorded) (hdue : e ≠ .nothingDue) :
    s ≠ .discharged ∧ s' ≠ .discharged := by
  cases e with
  | repaymentRecorded => exact absurd rfl hrecord
  | nothingDue => exact absurd rfl hdue
  | receiptVerified => cases s <;> cases h <;> exact ⟨nofun, nofun⟩
  | receiptMismatch => cases s <;> cases h <;> exact ⟨nofun, nofun⟩
  | partnerConfirmed =>
    cases s <;> cases h
    exact ⟨nofun, nofun⟩

theorem Agrees.post (ha : Agrees digest b) {policy : CardPolicy} {kind : PostingKind}
    {amount : Nat} (hpolicy : applyPosting b.policy kind amount = .ok policy)
    (hcredit : kind.isCredit = true →
      (grossOf amount b.policy.feeBps : Int) ≤ b.netOpen + b.owed)
    {row : PostingRow} (hnew : ∀ r ∈ b.opened, r.1 ≠ row.1) (hkind : row.2.value.kind = kind)
    (hamount : row.2.value.amount = amount) (hrate : row.2.value.feeBps = some b.policy.feeBps) :
    Agrees digest { b with policy := policy, opened := b.opened ++ [row] } := by
  obtain ⟨hout, hfee, hring, hfits⟩ := applyPosting_gross hpolicy
  have hgross : row.2.value.signedGross b.policy.feeBps =
      if kind.isCredit then -(grossOf amount b.policy.feeBps : Int)
      else grossOf amount b.policy.feeBps := by
    rw [Posting.signedGross, hkind, hamount]
  refine ⟨?_, ?_, ?_, ha.added, ha.positive, ?_⟩
  · have hbalance := ha.balance
    have hopen : Books.netOpen { b with policy := policy, opened := b.opened ++ [row] } =
        b.netOpen + row.2.value.signedGross b.policy.feeBps := by
      unfold Books.netOpen
      rw [hfee, List.map_append, List.sum_append]
      simp only [List.map_cons, List.map_nil, List.sum_cons, List.sum_nil, add_zero]
    change (policy.statementOutstandingCents : Int) ≤ _ + b.owed
    rw [hopen, hout, hgross]
    cases hk : kind.isCredit with
    | true =>
      have hle := hcredit hk
      simp only [if_true]
      omega
    | false =>
      simp only [Bool.false_eq_true, if_false]
      omega
  · intro r hr
    change BookedAt policy.feeBps r.2.value
    rw [hfee]
    rcases List.mem_append.mp hr with hr | hr
    · exact ha.booked r hr
    · rw [List.mem_singleton] at hr
      subst hr
      exact ⟨hrate, by rw [hamount]; exact hfits⟩
  · change ((b.opened ++ [row]).map Prod.fst).Nodup
    rw [List.map_append, List.map_singleton, List.nodup_append]
    refine ⟨ha.distinct, List.nodup_singleton _, ?_⟩
    intro x hx y hy hxy
    obtain ⟨r, hr, rfl⟩ := List.mem_map.mp hx
    rw [List.mem_singleton] at hy
    exact hnew r hr (hxy.trans hy)
  · intro d hd
    change policy.repayments.contains d = true at hd
    rw [hring] at hd
    exact ha.ring d hd

/-- A close moves its lines from the open postings to a new statement. -/
theorem Agrees.close (ha : Agrees digest b) {cut : Nat} {lines : List Line} {feeAssumed : Bool}
    (hlines : linesUpTo cut (some b.policy.feeBps) b.readOpen = some (lines, feeAssumed))
    (hcarry : 0 < (totals lines b.carried).total → (totals lines b.carried).amountDue = 0 →
      (b.policy.statementOutstandingCents : Int) + (totals lines b.carried).total ≤
        b.netOpen + b.owed)
    (c : Closing) {new : Bill} {carried : Nat}
    (hstatement : new.statement = (statementRecord c lines b.carried feeAssumed).statement)
    (hstate : new.state = (statementRecord c lines b.carried feeAssumed).state)
    (hlanded : new.landed = false) :
    Agrees digest { b with
      opened := b.opened.filter fun p => !decide (p.1 ∈ lines.map Line.eventId)
      bills := b.bills ++ [new]
      carried := carried } := by
  have hsum := ha.close_sum hlines
  rw [← totals_total lines b.carried] at hsum
  have htotals : new.statement.totals = totals lines b.carried := by rw [hstatement]; rfl
  have hpaid : new.state = .discharged ↔ (totals lines b.carried).amountDue = 0 := by
    have hrecord : (statementRecord c lines b.carried feeAssumed).state =
      if (totals lines b.carried).amountDue = 0 then .discharged else .closed := rfl
    rw [hstate, hrecord]
    by_cases hdue : (totals lines b.carried).amountDue = 0
    · rw [if_pos hdue]
      exact iff_of_true rfl hdue
    · rw [if_neg hdue]
      exact iff_of_false nofun hdue
  refine ⟨?_, ?_, ?_, ?_, ?_, ?_⟩
  · have hbalance := ha.balance
    have howed : ((b.bills ++ [new]).map Bill.owed).sum = b.owed + new.owed := by
      rw [List.map_append, List.sum_append]
      simp only [List.map_cons, List.map_nil, List.sum_cons, List.sum_nil, add_zero, Books.owed]
    change (b.policy.statementOutstandingCents : Int) ≤
      ((b.opened.filter fun r => !decide (r.1 ∈ lines.map Line.eventId)).map fun r =>
        r.2.value.signedGross b.policy.feeBps).sum + ((b.bills ++ [new]).map Bill.owed).sum
    rw [howed]
    by_cases hdue : (totals lines b.carried).amountDue = 0
    · have hzero : new.owed = 0 := if_pos (.inl (hpaid.mpr hdue))
      by_cases hpos : 0 < (totals lines b.carried).total
      · have hroom := hcarry hpos hdue
        omega
      · omega
    · have hall : new.owed = (totals lines b.carried).total := by
        unfold Bill.owed
        rw [if_neg, htotals]
        rw [hpaid, hlanded]
        simp only [hdue, Bool.false_eq_true, or_self, not_false_iff]
      omega
  · intro r hr
    exact ha.booked r (List.mem_of_mem_filter hr)
  · exact ha.distinct.sublist (List.filter_sublist.map Prod.fst)
  · intro x hx
    rcases List.mem_append.mp hx with hx | hx
    · exact ha.added x hx
    · rw [List.mem_singleton] at hx
      subst hx
      rw [htotals, totals_total, hstatement]
      rfl
  · intro x hx hopen
    rcases List.mem_append.mp hx with hx | hx
    · exact ha.positive x hx hopen
    · rw [List.mem_singleton] at hx
      subst hx
      -- something is due, so the total is above the credit carried in
      rw [htotals]
      have hdue : (totals lines b.carried).amountDue ≠ 0 := fun h => hopen (hpaid.mpr h)
      have hmax : (totals lines b.carried).amountDue =
        max ((totals lines b.carried).total - b.carried) 0 := rfl
      omega
  · intro d hd
    rcases ha.ring d hd with h | ⟨x, hx, hl, he⟩
    · exact .inl h
    · exact .inr ⟨x, List.mem_append_left _ hx, hl, he⟩

theorem Agrees.repay (ha : Agrees digest b) {k : Nat} {bill bill' : Bill}
    (hbill : b.bills[k]? = some bill) (hstatement : bill'.statement = bill.statement)
    (hlanded : bill'.landed = bill.landed) (hbefore : bill.state ≠ .discharged)
    (hafter : bill'.state ≠ .discharged) :
    Agrees digest { b with bills := b.bills.set k bill' } := by
  refine ha.setBill hbill rfl hstatement ?_ (fun _ => hbefore) (fun h => hlanded.trans h)
    (fun d hd => .inl hd)
  have hbalance := ha.balance
  have howed : bill'.owed = bill.owed := by
    simp only [Bill.owed, hbefore, hafter, hlanded, hstatement]
  rw [howed]
  unfold Books.rest
  omega

theorem hasPosting_new {id : Hash} (h : b.hasPosting id ≠ true) : ∀ r ∈ b.opened, r.1 ≠ id := by
  intro r hr he
  refine h ?_
  rw [Books.hasPosting, Bool.or_eq_true, List.any_eq_true]
  exact .inl ⟨r, hr, decide_eq_true he⟩

/-- **Step.** -/
theorem Agrees.step {e : Event} (h : b.step digest e = .ok b') (hkeep : KeepsCredit digest b e b')
    (hdistinct : DistinctDigests digest b) (ha : Agrees digest b) : Agrees digest b' := by
  cases e with
  | post id label amount postedAt updated =>
    simp only [Books.step] at h
    simp only [KeepsCredit] at hkeep
    split at h
    · cases h
    · rename_i kind exception hlabel
      rw [hlabel] at hkeep
      split at h
      · cases h
      · rename_i hnew
        split at h
        · cases h
        · rename_i policy hpolicy
          cases h
          exact ha.post hpolicy hkeep (hasPosting_new fun he => hnew (.inr he)) rfl rfl rfl
  | close kind op cut updated =>
    simp only [Books.step] at h
    simp only [KeepsCredit] at hkeep
    split at h
    · cases h
    · cases h
    · rename_i lines feeAssumed _ hlines
      rw [hlines] at hkeep
      split at h
      · cases h
        exact ha.close hlines hkeep ⟨b.bills.length + 1, kind, cut, op⟩ rfl rfl rfl
      · cases h
  | repay k event isPrivate updated =>
    simp only [Books.step] at h
    split at h
    · cases h
    · rename_i bill hbill
      split at h
      · cases h
      · rename_i hallowed
        split at h
        · cases h
        · rename_i state hstate
          cases h
          obtain ⟨hbefore, hafter⟩ := transition_undischarged hstate
            (fun he => hallowed (.inl he)) (fun he => hallowed (.inr (.inl he)))
          exact ha.repay hbill rfl rfl hbefore hafter
  | discharge k outcome periodIndex now updated =>
    simp only [Books.step] at h
    simp only [KeepsCredit] at hkeep
    split at h
    · cases h
    · rename_i bill hbill
      rw [hbill] at hkeep
      split at h
      · cases h
      · rename_i hstate
        obtain ⟨policy, bill', heq, hd⟩ := discharge_cases digest b k bill outcome
          periodIndex now updated
        rw [heq] at h
        cases h
        refine ha.discharge hdistinct hbill ?_ hkeep hd
        intro he
        rw [he] at hstate
        exact hstate nofun

end Agreement

/-! ## Whole histories -/

/-- A new card: nothing was spent, booked, billed or repaid. -/
structure Books.Opening (b : Books) : Prop where
  outstanding : b.policy.statementOutstandingCents = 0
  repayments : b.policy.repayments = Ring.init REPAYMENT_RING 0
  opened : b.opened = []
  bills : b.bills = []
  carried : b.carried = 0

/-- Everything is billed and every statement discharged. -/
structure Books.Settled (b : Books) : Prop where
  opened : b.opened = []
  discharged : ∀ bill ∈ b.bills, bill.state = .discharged

theorem Books.Opening.agrees {b : Books} (h : b.Opening) (digest : Statement → Hash) :
    Agrees digest b where
  balance := by
    unfold Books.netOpen Books.owed
    rw [h.outstanding, h.opened, h.bills]
    exact le_rfl
  booked := by
    intro r hr
    rw [h.opened] at hr
    cases hr
  distinct := by
    rw [h.opened]
    exact List.nodup_nil
  added := by
    intro bill hb
    rw [h.bills] at hb
    cases hb
  positive := by
    intro bill hb
    rw [h.bills] at hb
    cases hb
  ring := by
    intro d hd
    rw [h.repayments] at hd
    exact .inl (Ring.contains_init hd)

theorem Books.Opening.plansFit {b : Books} (h : b.Opening) : PlansFit b := by
  intro bill hb
  rw [h.bills] at hb
  cases hb

theorem Agrees.settled {digest : Statement → Hash} {b : Books} (ha : Agrees digest b)
    (hs : b.Settled) : b.policy.statementOutstandingCents = 0 := by
  have hbalance := ha.balance
  have hopen : b.netOpen = 0 := by
    unfold Books.netOpen
    rw [hs.opened]
    rfl
  have howed : b.owed = 0 := by
    unfold Books.owed
    refine List.sum_eq_zero ?_
    intro n hn
    obtain ⟨bill, hb, rfl⟩ := List.mem_map.mp hn
    exact if_pos (.inl (hs.discharged bill hb))
  omega

/-- **Statements agree with the rollup.** In every history of a new card no discharge
clears more than its statement billed; and in every history whose steps lose no
credit, once everything is billed and discharged nothing is outstanding. -/
theorem exposure_settles (digest : Statement → Hash) (b : Books) (hb : b.Opening)
    (events : List Event) :
    Runs.Along (Books.step digest) ClearsAtMost b events ∧
      (Runs.Along (Books.step digest)
          (fun b e b' => KeepsCredit digest b e b' ∧ DistinctDigests digest b) b events →
        (Runs.after (Books.step digest) b events).Settled →
          (Runs.after (Books.step digest) b events).policy.statementOutstandingCents = 0) := by
  refine ⟨?_, ?_⟩
  · exact Runs.along_of_inv (fun _ _ _ hstep hp => hp.step hstep) events hb.plansFit
  · intro hkeep hs
    have ha := Runs.after_inv (I := Agrees digest)
      (fun _ _ _ hP hstep ha => ha.step hstep hP.1 hP.2) hkeep (hb.agrees digest)
    exact ha.settled hs

namespace Sample

/-- A new card with a fee of half a percent. -/
def newCard : Books where
  policy := { zeroedPolicy 1 7 with feeBps := 50 }
  opened := []
  bills := []
  carried := 0

theorem newCard_opening : newCard.Opening := ⟨rfl, rfl, rfl, rfl, rfl⟩

/-- Statement numbers in place of digests. -/
def numberDigest (st : Statement) : Hash := BitVec.ofNat 256 st.statementSeq

/-- A purchase is billed, refunded in part before it is paid, and the refund closed
into a credit. -/
def billedThenRefunded : List Event :=
  [.post 1 .capture 1000 1 1, .close (.interim 0) none 1 1, .post 2 .refund 400 2 2,
    .close (.interim 0) none 2 2]

/-- A second purchase is billed less the credit. -/
def billedAgain : List Event := [.post 3 .capture 1000 3 3, .close (.interim 0) none 3 3]

/-- Statement `k + 1` is paid by a receipt, confirmed and discharged. -/
def paidInFull (k : Nat) : List Event :=
  [.repay k .receiptVerified false 4, .repay k .partnerConfirmed false 4,
    .discharge k .confirmed 0 1800000000 4]

end Sample

open Sample in
theorem exposure_settles_sample :
    let events := billedThenRefunded ++ billedAgain ++ paidInFull 2 ++ paidInFull 0
    let b := Runs.after (Books.step numberDigest) newCard events
    b.Settled ∧ b.bills.length = 3 ∧ b.policy.statementOutstandingCents = 0 := by
  intro events b
  have hkeep : Runs.Along (Books.step numberDigest)
      (fun b e b' => KeepsCredit numberDigest b e b' ∧ DistinctDigests numberDigest b) newCard
      events := by
    decide
  have hs : b.Settled := ⟨by decide, by decide⟩
  exact ⟨hs, by decide,
    (exposure_settles numberDigest newCard newCard_opening events).2 hkeep hs⟩

open Sample in
/-- Paid before the second purchase, the first statement takes off only what the refund
has left; the credit then pays part of the second, which a receipt of the amount due
does not take off. -/
theorem credit_stays_outstanding :
    let events := billedThenRefunded ++ paidInFull 0 ++ billedAgain ++ paidInFull 2
    let b := Runs.after (Books.step numberDigest) newCard events
    newCard.Opening ∧ b.Settled ∧ b.policy.statementOutstandingCents = 402 :=
  ⟨newCard_opening, ⟨by decide, by decide⟩, by decide⟩

end ChainPay.Backend
