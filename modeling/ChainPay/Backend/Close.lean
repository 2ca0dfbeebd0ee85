import ChainPay.Backend.Billing
import ChainPay.Lib.Runs
import ChainPay.Lib.World
import Mathlib.Data.List.Sort

/-!
Closing statements, as the source runs it: any number of `close_statement_op` and
repair-tick runs over one card's rows, each a sequence of storage calls with other
runs, postings and row writers in between.

A `Pc` is where a run waits: every constructor is one await of `update_card`,
`finish_close`, `refile_posting` or `clear_closing`, with the local variables that
are live there. `Proc.run` performs that call and goes on to the next await. A run
that stops, by a crash or by an error, stays in `done`.
-/

namespace ChainPay.Backend
open ChainPay.Lib ChainPay.Card

/-- The rows of one card. -/
structure Store where
  card : Option (Row Billing)
  statements : Table Nat (Row StatementRecord)
  postings : Table Hash (Row Posting)

/-! ## Postings -/

/-- Books one confirmed money movement, create-only under the event id. The read that
precedes the write only skips it early. -/
def recordPosting (id : Hash) (label : StepLabel) (amount : Nat) (feeBps : Option Nat)
    (postedAt updated : Nat) (s : Store) : Store :=
  match postingForLabel label with
  | none => s
  | some (kind, exception) =>
    if amount = 0 then s
    else
      { s with
        postings := (put s.postings id ⟨kind, amount, feeBps, postedAt, exception, none⟩ none
          updated).1 }

abbrev PostingRow := Hash × Row Posting

def PAGE : Nat := 200

def updatedOf (r : PostingRow) : Nat := r.2.updated

/-- Newest first, then by key. -/
def newestFirst (a b : PostingRow) : Prop :=
  b.2.updated < a.2.updated ∨ (a.2.updated = b.2.updated ∧ b.1.toNat ≤ a.1.toNat)

/-- Oldest posting first, then by key. -/
def oldestPosted (a b : PostingRow) : Prop :=
  a.2.value.postedAt < b.2.value.postedAt ∨
    (a.2.value.postedAt = b.2.value.postedAt ∧ a.1.toNat ≤ b.1.toNat)

instance : DecidableRel newestFirst := fun _ _ => inferInstanceAs (Decidable (_ ∨ _))

instance : DecidableRel oldestPosted := fun _ _ => inferInstanceAs (Decidable (_ ∨ _))

/-- The open postings updated before `before`. -/
def openBefore (s : Store) (before : Option Nat) : List PostingRow :=
  (s.postings.entries.map fun e => (e.1, e.2)).filter fun r =>
    decide r.2.value.isOpen && before.all fun b => decide (r.2.updated < b)

/-- One page of them, newest first. -/
def openPage (s : Store) (before : Option Nat) : List PostingRow :=
  ((openBefore s before).insertionSort newestFirst).take PAGE

/-- The lines of the postings up to the cut, and whether a fee rate was assumed. An
error when a posting is unreadable or its fee rate is not known at all. -/
def linesUpTo (cut : Nat) (fallbackBps : Option Nat) : List PostingRow → Option (List Line × Bool)
  | [] => some ([], false)
  | r :: rest =>
    if r.2.value.postedAt ≤ cut then
      match lineFromPosting r.1 r.2.value (fallbackBps.getD 0) with
      | none => none
      | some (line, assumed) =>
        if assumed && fallbackBps.isNone then none
        else (linesUpTo cut fallbackBps rest).map fun (lines, any) =>
          (line :: lines, assumed || any)
    else linesUpTo cut fallbackBps rest

/-! ## Runs of the closer -/

/-- What a run was started for. -/
inductive Goal where
  | close (kind : CloseKind) (op : Option Hash)
  | tick
  deriving DecidableEq, Repr

/-- The reservation found is of another close than the one asked for. -/
def Goal.resumedOther : Goal → Closing → Bool
  | .close kind op, c => c.kind ≠ kind || (op.isSome && c.op ≠ op && c.op.isSome)
  | .tick, _ => false

inductive Pc where
  | reserveRead (cut tries : Nat)
  | reserveWrite (cut tries : Nat) (row : Row Billing)
  | tickRead
  | finishRead (c : Closing)
  | getStatement (c : Closing) (carried : Nat)
  | listing (c : Closing) (carried : Nat) (before : Option Nat) (out : List PostingRow)
  | readFee (c : Closing) (carried : Nat) (out : List PostingRow)
  | store (c : Closing) (carried : Nat) (lines : List Line) (feeAssumed : Bool)
  | refileRead (c : Closing) (st : Statement) (id : Hash) (rest : List Hash) (tries : Nat)
  | refileWrite (c : Closing) (st : Statement) (id : Hash) (rest : List Hash) (tries : Nat)
      (row : Row Posting)
  | clearRead (c : Closing) (forward : Option Nat) (tries : Nat)
  | clearWrite (c : Closing) (forward : Option Nat) (tries : Nat) (row : Row Billing)
  | done
  deriving DecidableEq

structure Proc where
  goal : Goal
  pc : Pc
  deriving DecidableEq

/-- Compare-and-set attempts of one update. -/
def TRIES : Nat := 5

/-- Re-files the lines from here on, then clears the reservation. -/
def refileNext (c : Closing) (st : Statement) : List Hash → Pc
  | [] => .clearRead c (some st.forward) TRIES
  | id :: rest => .refileRead c st id rest TRIES

/-- Re-files every line of a stored statement. -/
def refileAll (c : Closing) (row : Row StatementRecord) : Pc :=
  refileNext c row.value.statement row.value.statement.lineIds

def Proc.goto (p : Proc) (pc : Pc) : Proc := { p with pc := pc }

/-- Performs the storage call a run waits at. `now` is the clock and `fee` what the
rollup read would return. A statement whose amounts the database refuses ends the run. -/
def Proc.run (p : Proc) (now : Nat) (fee : Option Nat) (s : Store) : Store × Proc :=
  match p.pc with
  | .reserveRead _ 0 => (s, p.goto .done)
  | .reserveRead cut (tries + 1) =>
    match s.card with
    | none => (s, p.goto .done)
    | some row => (s, p.goto (.reserveWrite cut tries row))
  | .reserveWrite cut tries row =>
    match p.goal with
    | .tick => (s, p.goto .done)
    | .close kind op =>
      let (billing, closing) := row.value.reserve kind cut op
      match cas s.card billing (some row.rev) now with
      | (card, .written _) => ({ s with card := card }, p.goto (.finishRead closing))
      | (_, .conflict _) => (s, p.goto (.reserveRead cut tries))
  | .tickRead =>
    match s.card with
    | none => (s, p.goto .done)
    | some row =>
      match row.value.closing with
      | none => (s, p.goto .done)
      | some c => (s, p.goto (.finishRead c))
  | .finishRead c =>
    match s.card with
    | none => (s, p.goto .done)
    | some row => (s, p.goto (.getStatement c row.value.carried))
  | .getStatement c carried =>
    match s.statements.lookup c.seq with
    | some row => (s, p.goto (refileAll c row))
    | none => (s, p.goto (.listing c carried none []))
  | .listing c carried before out =>
    let page := openPage s before
    if page.length = PAGE then
      (s, p.goto (.listing c carried (page.getLast?.map fun r => r.2.updated) (out ++ page)))
    else (s, p.goto (.readFee c carried ((out ++ page).insertionSort oldestPosted)))
  | .readFee c carried out =>
    match linesUpTo c.cut fee out with
    | none => (s, p.goto .done)
    | some ([], _) => (s, p.goto (.clearRead c none TRIES))
    | some (lines, feeAssumed) => (s, p.goto (.store c carried lines feeAssumed))
  | .store c carried lines feeAssumed =>
    if (totals lines carried).valid then
      match put s.statements c.seq (statementRecord c lines carried feeAssumed) none now with
      | (statements, .written row) =>
        ({ s with statements := statements }, p.goto (refileAll c row))
      | (_, .conflict (some row)) => (s, p.goto (refileAll c row))
      | (_, .conflict none) => (s, p.goto .done)
    else (s, p.goto .done)
  | .refileRead _ _ _ _ 0 => (s, p.goto .done)
  | .refileRead c st id rest (tries + 1) =>
    match s.postings.lookup id with
    | none => (s, p.goto (refileNext c st rest))
    | some row =>
      if row.value.statementSeq = some c.seq then (s, p.goto (refileNext c st rest))
      else (s, p.goto (.refileWrite c st id rest tries row))
  | .refileWrite c st id rest tries row =>
    match put s.postings id { row.value with statementSeq := some c.seq } (some row.rev) now with
    | (postings, .written _) =>
      ({ s with postings := postings }, p.goto (refileNext c st rest))
    | (_, .conflict _) => (s, p.goto (.refileRead c st id rest tries))
  | .clearRead _ _ 0 => (s, p.goto .done)
  | .clearRead c forward (tries + 1) =>
    match s.card with
    | none => (s, p.goto .done)
    | some row => (s, p.goto (.clearWrite c forward tries row))
  | .clearWrite c forward tries row =>
    match cas s.card (row.value.clear c forward) (some row.rev) now with
    | (card, .written _) =>
      ({ s with card := card },
        p.goto (if p.goal.resumedOther c then .reserveRead now TRIES else .done))
    | (_, .conflict _) => (s, p.goto (.clearRead c forward tries))
  | .done => (s, p.goto .done)

/-! ## The system -/

/-- One event of an interleaving. -/
inductive Action where
  /-- An owner or a period end asks to close. -/
  | close (kind : CloseKind) (op : Option Hash) (now : Nat)
  /-- The repair tick starts. -/
  | tick
  /-- Run `i` passes its next await. -/
  | run (i : Nat) (now : Nat) (fee : Option Nat)
  /-- Run `i` stops where it waits. -/
  | stop (i : Nat)
  | post (id : Hash) (label : StepLabel) (amount : Nat) (feeBps : Option Nat)
      (postedAt updated : Nat)
  /-- Another writer of the card row changes other fields of it. -/
  | touchCard (updated : Nat)
  /-- A repayment step moves a statement's state. -/
  | touchStatement (seq : Nat) (state : StatementState) (updated : Nat)

abbrev System := World Store Proc

/-- The card row exists and nothing was billed. -/
def System.initial (updated : Nat) : System :=
  ⟨⟨some ⟨1, {}, updated⟩, ∅, ∅⟩, []⟩

def stopped (p : Proc) : Proc := { p with pc := .done }

def touchCard (s : Store) (updated : Nat) : Store :=
  { s with card := s.card.map fun row => ⟨row.rev + 1, row.value, updated⟩ }

def touchStatement (s : Store) (seq : Nat) (state : StatementState) (updated : Nat) : Store :=
  match s.statements.lookup seq with
  | none => s
  | some row =>
    { s with
      statements := s.statements.insert seq
        ⟨row.rev + 1, { row.value with state := state }, updated⟩ }

/-- One event; an event of a run that does not exist fails. -/
def System.step (w : System) : Action → Except Unit System
  | .close kind op now =>
    .ok { w with procs := w.procs ++ [⟨.close kind op, .reserveRead now TRIES⟩] }
  | .tick => .ok { w with procs := w.procs ++ [⟨.tick, .tickRead⟩] }
  | .run i now fee =>
    match w.procs[i]? with
    | none => .error ()
    | some p =>
      let (s, p) := p.run now fee w.store
      .ok ⟨s, w.procs.set i p⟩
  | .stop i =>
    match w.procs[i]? with
    | none => .error ()
    | some p => .ok { w with procs := w.procs.set i (stopped p) }
  | .post id label amount feeBps postedAt updated =>
    .ok { w with store := recordPosting id label amount feeBps postedAt updated w.store }
  | .touchCard updated => .ok { w with store := touchCard w.store updated }
  | .touchStatement seq state updated =>
    .ok { w with store := touchStatement w.store seq state updated }

end ChainPay.Backend
