import ChainPay.Lib.Bytes
import ChainPay.Lib.Calls
import ChainPay.Lib.Cas
import ChainPay.Repay.Settlements
import Mathlib.Algebra.Order.Ring.Int

/-!
Private repayment attempts on statements. `prepare` opens an attempt with a reference of its
own, `check_attempt` (the owner's poll and the cron) looks for the payout that carries it, and
`orphan_check` looks once the statement was repaid another way. Every pass awaits the chain
and the store, and writes a statement back by compare-and-set against a row it has just read.
-/

namespace ChainPay.Repay
open ChainPay.Lib

/-- Signature pages listed per check and transactions read per check. -/
def LIST_PAGES : Nat := 20
def PAGE_LIMIT : Nat := 100
def TX_BUDGET : Nat := 150
def MAX_ATTEMPTS : Nat := 20

/-! ## Records -/

inductive StatementState where
  | closed
  | repaymentMismatch
  | repaymentObserved
  | partnerConfirmed
  | discharged
  deriving DecidableEq, Repr

inductive StatementEvent where
  | receiptVerified
  | receiptMismatch
  | partnerConfirmed
  | repaymentRecorded
  | nothingDue
  deriving DecidableEq, Repr

/-- The only transitions a statement can take. -/
def transition : StatementState → StatementEvent → Option StatementState
  | .closed, .receiptVerified | .repaymentMismatch, .receiptVerified => some .repaymentObserved
  | .closed, .receiptMismatch | .repaymentMismatch, .receiptMismatch => some .repaymentMismatch
  | .repaymentObserved, .partnerConfirmed => some .partnerConfirmed
  | .partnerConfirmed, .repaymentRecorded => some .discharged
  | .closed, .nothingDue => some .discharged
  | _, _ => none

inductive AttemptState where
  | awaitingSettlement
  | verified
  | mismatch
  | stale
  | unappliedPayout
  deriving DecidableEq, Repr

/-- The attempt `p<seq>`, with its sealed half opened. -/
structure Attempt where
  seq : Nat
  state : AttemptState
  clientRefId : String
  partnerCursor : Option String
  mint : String
  decimals : Nat
  amountBaseUnits : Nat
  recipientTokenAccount : String
  settlementSignatures : List String := []
  mismatch : List String := []
  unappliedBaseUnits : Option Nat := none
  deriving DecidableEq, Repr

inductive Method where
  | privatePayments
  | executePayment
  deriving DecidableEq, Repr

structure Repayment where
  method : Method
  attemptId : Option Nat
  signatures : List String
  mismatch : List String
  deriving DecidableEq, Repr

structure Statement where
  state : StatementState
  amountDueCents : Nat
  digest : String
  repayment : Option Repayment := none
  attempts : List Attempt := []
  deriving DecidableEq, Repr

/-! ## The store and the awaits -/

structure Store where
  statements : Table String (Row Statement) := ∅
  claims : Table String String := ∅

structure Account where
  owner : String
  data : Bytes
  deriving DecidableEq, Repr

/-- One line of `getSignaturesForAddress`. -/
structure Listed where
  signature : String
  slot : Nat
  ok : Bool
  deriving DecidableEq, Repr

inductive Op where
  | getStatement (key : String)
  /-- `about` names the attempt whose check writes. -/
  | putStatement (key : String) (value : Statement) (rev : Nat) (about : Option Nat)
  | claimSettlement (signature key : String)
  | account (address : String)
  | newestSignature
  | signatures (before cursor : Option String)
  | transaction (signature : String)

/-- What an operation answers; `none` is a storage or RPC error. -/
@[reducible] def Op.Ans : Op → Type
  | .getStatement _ => Option (Option (Row Statement))
  | .putStatement _ _ _ _ => Option (Put Statement)
  | .claimSettlement _ _ => Option String
  | .account _ => Option (Option Account)
  | .newestSignature => Option (Option String)
  | .signatures _ _ => Option (List Listed)
  | .transaction _ => Option (Option Tx)

/-- A storage call works, is lost, or is carried out and reported as lost. -/
inductive Fault where
  | fine
  | lost
  | late
  deriving DecidableEq, Repr

structure Env where
  storage : Fault := .fine
  now : Nat := 0
  account : String → Option (Option Account) := fun _ => none
  newest : Option (Option String) := none
  signatures : Option String → Option String → Option (List Listed) := fun _ _ => none
  transaction : String → Option (Option Tx) := fun _ => none

/-- A write that leads to `s'`. -/
def Store.write {β : Type} (s : Store) (e : Env) (s' : Store) (v : β) : Store × Option β :=
  match e.storage with
  | .fine => (s', some v)
  | .lost => (s, none)
  | .late => (s', none)

/-- The first claim of a signature stands. -/
def Store.claim (s : Store) (signature key : String) : Store :=
  match s.claims.lookup signature with
  | some _ => s
  | none => { s with claims := s.claims.insert signature key }

def perform (o : Op) (e : Env) (s : Store) : Store × o.Ans :=
  match o with
  | .getStatement key => (s, if e.storage = .fine then some (s.statements.lookup key) else none)
  | .putStatement key value rev _ =>
    let r := put s.statements key value (some rev) e.now
    s.write e { s with statements := r.1 } r.2
  | .claimSettlement signature key =>
    s.write e (s.claim signature key) ((s.claims.lookup signature).getD key)
  | .account address => (s, e.account address)
  | .newestSignature => (s, e.newest)
  | .signatures before cursor => (s, e.signatures before cursor)
  | .transaction signature => (s, e.transaction signature)

inductive CardsError where
  | conflict (code : String)
  | unavailable (code : String)
  | notFound
  | internal
  | storage
  deriving DecidableEq, Repr

abbrev M := Call Op Op.Ans CardsError

def need {β : Type} : Option β → M β
  | some b => .ret b
  | none => .fail .storage

def rpcDown : CardsError := .unavailable "rpc_unavailable"

def orDown {β : Type} : Option β → M β
  | some b => .ret b
  | none => .fail rpcDown

def getStatement (key : String) : M (Option (Row Statement)) := .await (.getStatement key) need

def putStatement (key : String) (value : Statement) (rev : Nat) (about : Option Nat) :
    M (Put Statement) :=
  .await (.putStatement key value rev about) need

def claimSettlement (signature key : String) : M String :=
  .await (.claimSettlement signature key) need

def statementRow (key : String) : M (Row Statement) := do
  match ← getStatement key with
  | some row => .ret row
  | none => .fail .notFound

/-! ## Scanning the partner's history -/

inductive Scan where
  | found (payouts : List (String × Settlement)) (slot : Nat)
  | pending (advance : Option String)
  | unavailable

/-- Lists pages newest first, until one is not full. -/
def listPages (cursor : Option String) :
    Nat → Option String → List Listed → M (Option (List Listed))
  | 0, _, acc => .ret (some acc)
  | n + 1, before, acc => .await (.signatures before cursor) fun
    | none => .ret none
    | some page =>
      if page.length < PAGE_LIMIT then .ret (some (acc ++ page))
      else listPages cursor n (page.getLast?.map Listed.signature) (acc ++ page)

/-- What a pass has read so far. -/
structure Reading where
  found : List (String × Settlement) := []
  slot : Nat := 0
  advance : Option String := none
  read : Nat := 0

section

variable [Connector]

def Reading.take (r : Reading) (l : Listed) (reference : String) (tx : Tx) : Reading :=
  let mine := ((settlementsIn tx).getD []).filter fun s => s.clientRefId = reference
  { found := r.found ++ mine.map fun s => (l.signature, s)
    slot := if mine = [] then r.slot else max r.slot l.slot
    advance := some l.signature
    read := r.read + 1 }

/-- Reads the listed transactions oldest first, within the budget. -/
def readListed (reference : String) : List Listed → Reading → M (Option Reading)
  | [], r => .ret (some r)
  | l :: ls, r =>
    if l.ok then
      if TX_BUDGET ≤ r.read then .ret (some r)
      else .await (.transaction l.signature) fun
        | some (some tx) => readListed reference ls (r.take l reference tx)
        -- listed as finalized but not served yet
        | some none => .ret (some r)
        | none => .ret none
    else readListed reference ls { r with advance := some l.signature }

def scan (cursor : Option String) (reference : String) : M Scan := do
  match ← listPages cursor LIST_PAGES none [] with
  | none => .ret .unavailable
  | some listed =>
    match ← readListed reference listed.reverse {} with
    | none => .ret .unavailable
    | some r => .ret (if r.found = [] then .pending r.advance else .found r.found r.slot)

end

/-! ## Attempts -/

def Statement.openAttempt (s : Statement) : Option Attempt :=
  s.attempts.find? fun a => a.state = .awaitingSettlement

def Statement.attempt (s : Statement) (id : Nat) : Option Attempt :=
  s.attempts.find? fun a => a.seq = id

/-- Changes one attempt; its state is set whatever it was. -/
def setAttempt (s : Statement) (id : Nat) (state : AttemptState) (f : Attempt → Attempt) :
    Statement :=
  { s with attempts := s.attempts.map fun a => if a.seq = id then f { a with state := state } else a }

/-- Reads the row again and writes the attempt back, up to five times. -/
def updateAttempt (key : String) (id : Nat) (state : AttemptState) (f : Attempt → Attempt) :
    Nat → M Unit
  | 0 => .fail (.unavailable "statement_busy")
  | n + 1 => do
    match ← getStatement key with
    | none => .ret ()
    | some row =>
      match ← putStatement key (setAttempt row.value id state f) row.rev (some id) with
      | .written _ => .ret ()
      | .conflict _ => updateAttempt key id state f n

/-- Moves a statement through one event, by compare-and-set. -/
def applyEvent (key : String) (event : StatementEvent) (about : Option Nat)
    (f : Statement → Statement) : Nat → M (Option (Row Statement))
  | 0 => .fail .internal
  | n + 1 => do
    match ← getStatement key with
    | none => .ret none
    | some row =>
      match transition row.value.state event with
      | none => .ret none
      | some next =>
        match ← putStatement key (f { row.value with state := next }) row.rev about with
        | .written row => .ret (some row)
        | .conflict _ => applyEvent key event about f n

def RETRIES : Nat := 5

def baseUnits (cents decimals : Nat) : Option Nat :=
  if decimals < 2 then none
  else
    let scale := 10 ^ (decimals - 2)
    if scale < 2 ^ 64 ∧ cents * scale < 2 ^ 64 then some (cents * scale) else none

section

variable [Connector]

/-- Opaque reference of attempt `seq`: at most 12 digits, never zero. -/
def clientRefId (digest : String) (seq : Nat) : String :=
  let hex := (Connector.blind "private-repayment-ref" (digest ++ "\n" ++ toString seq)).toList
  let digit := fun (c : Char) =>
    if '0' ≤ c ∧ c ≤ '9' then some (c.toNat - 48)
    else if 'a' ≤ c ∧ c ≤ 'f' then some (c.toNat - 87)
    else if 'A' ≤ c ∧ c ≤ 'F' then some (c.toNat - 55)
    else none
  let byte := fun (i : Nat) =>
    match (hex[2 * i]?).bind digit, (hex[2 * i + 1]?).bind digit with
    | some h, some l => 16 * h + l
    | _, _ => 0
  toString ((List.range 8).foldl (fun n i => 256 * n + byte i) 0 % 999999999999 + 1)

def partnerAccount : M String :=
  match Connector.partnerTokenAccount with
  | some partner => .ret partner
  | none => .fail (.unavailable "repayment_unconfigured")

def payable (s : Statement) : Except CardsError Nat :=
  if s.amountDueCents = 0 then .error (.conflict "nothing_due") else .ok s.amountDueCents

/-- The mint's decimals, read on chain. -/
def mintDecimals (mint : String) : M Nat :=
  .await (.account mint) fun
    | none => .fail rpcDown
    | some (some a) =>
      if a.owner = SPL_TOKEN_PROGRAM ∧ 45 ≤ a.data.length then .ret (a.data.getD 44 0).toNat
      else .fail (.unavailable "repayment_unconfigured")
    | some none => .fail (.unavailable "repayment_unconfigured")

/-- The partner's account must be where MagicBlock pays: `paysInto` derives it. -/
def partnerWallet (paysInto : Bytes → String → Option String) (account mint : String) : M Unit :=
  .await (.account account) fun
    | none => .fail rpcDown
    | some (some a) =>
      if a.owner = SPL_TOKEN_PROGRAM ∧ 64 ≤ a.data.length ∧
          paysInto a.data mint = some account then .ret ()
      else .fail (.unavailable "repayment_unconfigured")
    | some none => .fail (.unavailable "repayment_unconfigured")

def takesRepayment (s : Statement) : Bool := s.state = .closed || s.state = .repaymentMismatch

/-- Adds the attempt, against the row just read, up to five times. -/
def openAttempt (key : String) (partner : String) (decimals : Nat) (cursor : Option String) :
    Nat → M Attempt
  | 0 => .fail (.unavailable "statement_busy")
  | n + 1 => do
    let row ← statementRow key
    let due ← Call.ofExcept (payable row.value)
    if takesRepayment row.value = false then .fail (.conflict "statement_state")
    else
      match row.value.openAttempt with
      | some a => .ret a
      | none =>
        let seq := row.value.attempts.length + 1
        if MAX_ATTEMPTS < seq then .fail (.conflict "too_many_attempts")
        else
          match baseUnits due decimals with
          | none => .fail .internal
          | some amount =>
            let attempt : Attempt :=
              { seq := seq
                state := .awaitingSettlement
                clientRefId := clientRefId row.value.digest seq
                partnerCursor := cursor
                mint := Connector.mint
                decimals := decimals
                amountBaseUnits := amount
                recipientTokenAccount := partner }
            match ← putStatement key { row.value with attempts := row.value.attempts ++ [attempt] }
                row.rev none with
            | .written _ => .ret attempt
            | .conflict _ => openAttempt key partner decimals cursor n

/-- Gets or creates the open attempt. -/
def prepare (paysInto : Bytes → String → Option String) (key : String) : M Attempt := do
  let partner ← partnerAccount
  let first ← statementRow key
  match first.value.openAttempt with
  | some a => .ret a
  | none =>
    let decimals ← mintDecimals Connector.mint
    partnerWallet paysInto partner Connector.mint
    let cursor ← Call.await .newestSignature orDown
    openAttempt key partner decimals cursor RETRIES

/-- The expectations the attempt was opened with still hold. -/
def expectations (key : String) (s : Statement) (a : Attempt) : M (String × String × Nat) := do
  let partner ← partnerAccount
  let due := match payable s with
    | .ok due => baseUnits due a.decimals
    | .error _ => none
  match due with
  | some want =>
    if a.amountBaseUnits = want ∧ a.recipientTokenAccount = partner ∧ a.mint = Connector.mint then
      .ret (partner, Connector.mint, want)
    else drifted
  | none => drifted
where
  drifted : M (String × String × Nat) := do
    updateAttempt key a.seq .stale id RETRIES
    .fail (.conflict "attempt_stale")

inductive Outcome where
  | verified (row : Row Statement)
  | mismatch (row : Row Statement) (fields : List String)
  | pending

/-- The signature is claimed for one statement, create-only. -/
def claimSettlements (key signature : String) : M Bool := do
  let owner ← claimSettlement signature key
  .ret (owner = key)

def verifiedRepayment (id : Nat) (signature : String) : Repayment :=
  { method := .privatePayments, attemptId := some id, signatures := [signature], mismatch := [] }

def mismatchRepayment (id : Nat) (observed fields : List String) : Repayment :=
  { method := .privatePayments, attemptId := some id, signatures := observed, mismatch := fields }

def recordVerified (id : Nat) (signature : String) (s : Statement) : Statement :=
  setAttempt { s with repayment := some (verifiedRepayment id signature) } id .verified fun a =>
    { a with settlementSignatures := [signature] }

def recordMismatch (id : Nat) (observed fields : List String) (s : Statement) : Statement :=
  setAttempt { s with repayment := some (mismatchRepayment id observed fields) } id .mismatch
    fun a => { a with mismatch := fields, settlementSignatures := observed }

/-- The statement moves on, or another pass was first. -/
def settleVerified (key : String) (id : Nat) (signature : String) : M Outcome := do
  match ← applyEvent key .receiptVerified (some id) (recordVerified id signature) RETRIES with
  | some row => .ret (.verified row)
  | none =>
    let current ← statementRow key
    match current.value.repayment with
    | some r =>
      if r.attemptId = some id ∧ r.method = .privatePayments ∧ r.mismatch = [] then
        .ret (.verified current)
      else .fail (.conflict "statement_state")
    | none => .fail (.conflict "statement_state")

def settleMismatch (key : String) (id : Nat) (observed fields : List String) : M Outcome := do
  match ← applyEvent key .receiptMismatch (some id) (recordMismatch id observed fields)
      RETRIES with
  | some row => .ret (.mismatch row fields)
  | none =>
    let current ← statementRow key
    match current.value.repayment with
    | some r =>
      if r.attemptId = some id then .ret (.mismatch current fields)
      else .fail (.conflict "statement_state")
    | none => .fail (.conflict "statement_state")

/-- The cursor moves forward over history without a payout. -/
def moveCursor (key : String) (a : Attempt) (advance : Option String) : M Unit :=
  match advance with
  | some next =>
    if a.partnerCursor = some next then .ret ()
    else updateAttempt key a.seq .awaitingSettlement
      (fun a => { a with partnerCursor := some next }) RETRIES
  | none => .ret ()

/-- Looks for the attempt's settlement in the row read before, and moves the statement. -/
def checkAttempt (key : String) (s : Statement) (id : Nat) : M Outcome :=
  match s.attempt id with
  | none => .fail .notFound
  | some a => do
    if a.state ≠ .awaitingSettlement then .fail (.conflict "attempt_spent")
    else if a.clientRefId = "" then .fail .internal
    else do
      let (partner, mint, want) ← expectations key s a
      match ← scan a.partnerCursor a.clientRefId with
      | .unavailable => .fail rpcDown
      | .pending advance =>
        moveCursor key a advance
        .ret .pending
      | .found found _ =>
        let observed := dedup (found.map Prod.fst)
        match check found want mint partner with
        | .error fields => settleMismatch key id observed fields
        | .ok (signature, _) =>
          if ← claimSettlements key signature then settleVerified key id signature
          else settleMismatch key id observed ["reference"]

/-- The owner's route: a statement that still takes a repayment is checked. -/
def submit (key : String) (id : Nat) : M (Option Outcome) := do
  let row ← statementRow key
  let _ ← Call.ofExcept (payable row.value)
  if takesRepayment row.value then some <$> checkAttempt key row.value id
  else .ret none

/-- A payout that arrives after the statement was repaid is recorded, not applied. -/
def orphanCheck (key : String) (a : Attempt) : M Unit := do
  let _ ← partnerAccount
  match ← scan a.partnerCursor a.clientRefId with
  | .found found _ =>
    updateAttempt key a.seq .unappliedPayout
      (fun a => { a with
        settlementSignatures := found.map Prod.fst
        unappliedBaseUnits := some ((found.map fun x => x.2.amount).sum) }) RETRIES
  | .pending advance => moveCursor key a advance
  | .unavailable => .ret ()

/-- The cron's pass over one statement. -/
def advanceOpenAttempt (key : String) : M (Option Outcome) := do
  match ← getStatement key with
  | none => .ret none
  | some row =>
    match row.value.openAttempt with
    | none => .ret none
    | some a =>
      if takesRepayment row.value then some <$> checkAttempt key row.value a.seq
      else do
        orphanCheck key a
        .ret none

end

end ChainPay.Repay
