import Mathlib.Data.Char
import Mathlib.Data.List.Lex
import Mathlib.Data.List.Sort
import ChainPay.Lib.Cas
import ChainPay.Lib.Codec
import ChainPay.Lib.Runs
import Mathlib.Algebra.Order.Ring.Int

/-!
The webhook inbox (`connectors/inbox.rs`) over card records with compare-and-set
(`storage/cards.rs`). A verified delivery is stored before anything acts on it; whoever read a row
as pending may record an outcome on it, at any later time; and walks page through the pending rows,
newest first, each page strictly older than the last row of the page before it.
-/

namespace ChainPay.Inbox
open ChainPay.Lib

abbrev Text := List Char

/-! ## Rows -/

inductive RowState where
  | pending
  | applied
  | ignored
  | failed
  deriving DecidableEq, Repr

/-- The `reference` column that listings go by. -/
inductive Reference where
  | pending
  | done
  | failed
  deriving DecidableEq, Repr

inductive InboxOutcome where
  | applied
  | retry (reason : String)
  | ignored (reason : String)
  deriving DecidableEq, Repr

/-- A record of type `inbox` with its index columns. -/
structure Entry where
  connector : Text
  reference : Reference
  source : Text
  eventType : Text
  state : RowState
  attempts : Nat
  receivedAt : Nat
  updatedAt : Option Nat
  reason : Option String
  raw : Bytes
  deriving DecidableEq, Repr

abbrev Records := Table Text (Row Entry)

/-- A row as it was read. -/
structure StoredCardRecord where
  key : Text
  row : Row Entry
  deriving DecidableEq, Repr

/-- A webhook whose signature holds. -/
structure Delivery where
  provider : Text
  eventId : Text
  raw : Bytes
  deriving DecidableEq, Repr

/-! ## Keys -/

/-- ASCII letters, digits, `_`, `-` and `.`. -/
def isKeyByte (b : UInt8) : Bool :=
  (48 ≤ b && b ≤ 57) || (65 ≤ b && b ≤ 90) || (97 ≤ b && b ≤ 122) || b = 95 || b = 45 || b = 46

def digest (eventId : Text) : Text := toHex (sha256 (encodeUtf8 eventId))

/-- Whether an event id stands in its key as it is. -/
def isPlain (eventId : Text) : Bool :=
  (encodeUtf8 eventId).all isKeyByte && (encodeUtf8 eventId).length ≤ 120

/-- What stands for an event id in its key. -/
def keyPart (eventId : Text) : Text := if isPlain eventId then eventId else 'h' :: digest eventId

def inboxKey (provider eventId : Text) : Text := provider ++ "-event:".toList ++ keyPart eventId

def Delivery.key (d : Delivery) : Text := inboxKey d.provider d.eventId

/-! ## Operations -/

/-- `now_ms * 1000` in 64 bits. -/
def micros (nowMs : Nat) : Nat := nowMs * 1000 % 2 ^ 64

inductive Accepted where
  | new (row : StoredCardRecord)
  | duplicate (row : StoredCardRecord)
  deriving DecidableEq, Repr

def Accepted.row : Accepted → StoredCardRecord
  | .new row => row
  | .duplicate row => row

def isEventTypeChar (c : Char) : Bool :=
  c.isAlphanum || c = '.' || c = '_' || c = '-'

def newEntry (verified : Delivery) (eventType : Text) (nowMs : Nat) : Entry where
  connector := verified.provider
  reference := .pending
  source := verified.provider
  eventType := (eventType.filter isEventTypeChar).take 64
  state := .pending
  attempts := 0
  receivedAt := nowMs
  updatedAt := none
  reason := none
  raw := verified.raw

/-- Claim and persist a verified delivery. -/
def accept (t : Records) (verified : Delivery) (eventType : Text) (nowMs : Nat) :
    Records × Except String Accepted :=
  match put t verified.key (newEntry verified eventType nowMs) none (micros nowMs) with
  | (t, .written row) => (t, .ok (.new ⟨verified.key, row⟩))
  | (t, .conflict (some row)) => (t, .ok (.duplicate ⟨verified.key, row⟩))
  | (t, .conflict none) => (t, .error "inbox claim lost")

/-- The record that an outcome leaves, and its place in the queue: a retried row keeps it. -/
def outcomeEntry (row : Row Entry) (outcome : InboxOutcome) (nowMs : Nat) : Entry × Nat :=
  let attempts := row.value.attempts + 1
  let record := { row.value with attempts := attempts, updatedAt := some nowMs }
  match outcome with
  | .applied => ({ record with state := .applied, reference := .done }, micros nowMs)
  | .ignored reason =>
    ({ record with state := .ignored, reason := some reason, reference := .done }, micros nowMs)
  | .retry reason =>
    if 12 ≤ attempts then
      ({ record with state := .failed, reason := some reason, reference := .failed }, micros nowMs)
    else
      ({ record with state := .pending, reason := some reason, reference := .pending }, row.updated)

/-- Mark a processed row; the caller does not hear whether the write landed. -/
def complete (t : Records) (row : StoredCardRecord) (outcome : InboxOutcome) (nowMs : Nat) :
    Records × Put Entry :=
  let e := outcomeEntry row.row outcome nowMs
  put t row.key e.1 (some row.row.rev) e.2

/-- Newest first, then by key. -/
def Newest (a b : StoredCardRecord) : Prop :=
  b.row.updated < a.row.updated ∨ (b.row.updated = a.row.updated ∧ b.key ≤ a.key)

instance : DecidableRel Newest := fun _ _ => inferInstanceAs (Decidable (_ ∨ _))

def isListed (provider : Text) (before : Option Nat) (r : StoredCardRecord) : Bool :=
  r.row.value.connector = provider && r.row.value.reference = .pending &&
    before.all fun b => r.row.updated < b

/-- The pending rows of a provider older than `before`. -/
def listed (t : Records) (provider : Text) (before : Option Nat) : List StoredCardRecord :=
  (t.entries.map fun e => ⟨e.1, e.2⟩).filter (isListed provider before)

def pageLimit (limit : Nat) : Nat := max 1 (min limit 200)

def pendingPage (t : Records) (provider : Text) (before : Option Nat) (limit : Nat) :
    List StoredCardRecord :=
  ((listed t provider before).insertionSort Newest).take (pageLimit limit)

/-! ## Runs -/

/-- Whether a key's row is pending. -/
def isPending (t : Records) (key : Text) : Bool :=
  (t.lookup key).any fun row => row.value.state = .pending

/-- A walk over the pending rows of a provider. `still` are the keys of rows that have been pending
from its start to now, or to its end. -/
structure Walk where
  provider : Text
  limit : Nat
  before : Option Nat
  visited : List Text
  finished : Bool
  still : List Text
  deriving DecidableEq, Repr

/-- `held` are the rows that were read as pending, `deliveries` and `outcomes` what was accepted and
recorded so far. -/
structure State where
  records : Records
  held : List StoredCardRecord
  walks : List Walk
  deliveries : List Delivery
  outcomes : List (Text × InboxOutcome)

inductive Action where
  | accept (verified : Delivery) (eventType : Text) (nowMs : Nat)
  /-- Whoever holds row `i` records an outcome on it. -/
  | complete (i : Nat) (outcome : InboxOutcome) (nowMs : Nat)
  | walk (provider : Text) (limit : Nat)
  /-- The next page of walk `i`. -/
  | page (i : Nat)
  deriving DecidableEq, Repr

def Walk.watch (t : Records) (w : Walk) : Walk :=
  if w.finished then w else { w with still := w.still.filter (isPending t) }

/-- A walk follows its page, or ends with an empty one. -/
def Walk.follow (w : Walk) (page : List StoredCardRecord) : Walk :=
  match page.getLast? with
  | none => { w with finished := true }
  | some last =>
    { w with before := some last.row.updated, visited := w.visited ++ page.map (·.key) }

def ofProvider (provider : Text) (t : Records) (key : Text) : Bool :=
  isPending t key && (t.lookup key).any fun row => row.value.connector = provider

def State.step (s : State) : Action → Except Unit State
  | .accept verified eventType nowMs =>
    match accept s.records verified eventType nowMs with
    | (t, .ok accepted) =>
      -- A delivery of a row that is no longer pending is only acknowledged.
      let held := if accepted.row.row.value.state = .pending then [accepted.row] else []
      .ok { s with
        records := t
        held := s.held ++ held
        walks := s.walks.map (Walk.watch t)
        deliveries := s.deliveries ++ [verified] }
    | (_, .error _) => .error ()
  | .complete i outcome nowMs =>
    match s.held[i]? with
    | none => .error ()
    | some row =>
      match complete s.records row outcome nowMs with
      | (t, .written _) =>
        .ok { s with
          records := t
          walks := s.walks.map (Walk.watch t)
          outcomes := s.outcomes ++ [(row.key, outcome)] }
      | (_, .conflict _) => .ok s
  | .walk provider limit =>
    .ok { s with walks := s.walks ++ [
      { provider := provider
        limit := limit
        before := none
        visited := []
        finished := false
        still := s.records.keys.filter (ofProvider provider s.records) }] }
  | .page i =>
    match s.walks[i]? with
    | none => .error ()
    | some w =>
      if w.finished then .error ()
      else
        let page := pendingPage s.records w.provider w.before w.limit
        .ok { s with held := s.held ++ page, walks := s.walks.set i (w.follow page) }

def initial : State := ⟨∅, [], [], [], []⟩

end ChainPay.Inbox
