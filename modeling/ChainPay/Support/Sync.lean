import ChainPay.Lib.Calls
import ChainPay.Support.Parse
import Mathlib.Algebra.Order.Ring.Int

/-!
The support indexer (`convex/support.ts`): a run walks the signatures of the two vault accounts,
newest first, stores what each transaction did, and moves a cursor after every page. Runs may
overlap and stop at any await while the chain grows.
-/

namespace ChainPay.Support
open ChainPay.Lib

/-! ## Cursors -/

/-- Where the walk through a backlog is: its first signature and the last one stored. -/
structure Pending where
  top : String
  before : String
  deriving DecidableEq, Repr

/-- `newest` is the newest signature whose whole history below it is stored. -/
structure SupportCursor where
  newest : Option String
  pending : Option Pending
  deriving DecidableEq, Repr

structure SignatureInfo where
  signature : String
  err : Option String
  deriving DecidableEq, Repr

structure PagePlan where
  before : Option String
  until_ : Option String
  deriving DecidableEq, Repr

def planPage (cursor : SupportCursor) : PagePlan := ⟨cursor.pending.map (·.before), cursor.newest⟩

def advanceCursor (cursor : SupportCursor) (page : List SignatureInfo) (limit : Nat) :
    SupportCursor :=
  match page.head?, page.getLast? with
  | some first, some last =>
    let top := (cursor.pending.map (·.top)).getD first.signature
    if page.length < limit then ⟨some top, none⟩ else ⟨cursor.newest, some ⟨top, last.signature⟩⟩
  | _, _ =>
    match cursor.pending with
    | some p => ⟨some p.top, none⟩
    | none => cursor

/-! ## The chain and the tables -/

/-- A finalized transaction, with the balances of the two vault accounts around it. -/
structure Entry where
  signature : String
  tx : RpcTransaction
  before : Asset → Nat
  after : Asset → Nat

namespace Entry

/-- The transaction names the account. -/
def lists (accounts : SupportAccounts) (a : Asset) (e : Entry) : Bool :=
  (keyIndex e.tx (accounts.holding a)).isSome

def info (e : Entry) : SignatureInfo := ⟨e.signature, e.tx.details.bind (·.err)⟩

end Entry

structure Row where
  signature : String
  slot : Nat
  blockTime : Option Nat
  index : Nat
  event : SupportEvent
  deriving DecidableEq, Repr

/-- The chain, newest first, the stored events, and the cursor of each account. -/
structure Tracker where
  chain : List Entry
  rows : List Row
  cursors : Asset → SupportCursor

/-- The history of an account, newest first. -/
def history (accounts : SupportAccounts) (chain : List Entry) (a : Asset) : List Entry :=
  chain.filter (·.lists accounts a)

/-- The history from a signature on. -/
def fromSig (signature : String) (h : List Entry) : List Entry :=
  h.dropWhile fun e => e.signature ≠ signature

/-- The history after a signature. -/
def below (signature : String) (h : List Entry) : List Entry := (fromSig signature h).tail

/-- `getSignaturesForAddress`: newest first, both bounds excluded, as many as asked for. -/
def signaturesFor (h : List Entry) (plan : PagePlan) (limit : Nat) : List SignatureInfo :=
  let h := match plan.before with
    | none => h
    | some b => below b h
  ((h.takeWhile fun e => some e.signature ≠ plan.until_).take limit).map Entry.info

/-- The rows of a transaction. -/
def rowsOf (p : ParsedSupportTx) : List Row :=
  p.events.zipIdx.map fun (e, i) => ⟨p.signature.getD "", p.slot, p.blockTime, i, e⟩

/-- `upsert`: the rows of the signature are replaced. -/
def upsertRows (rows : List Row) (p : ParsedSupportTx) : List Row :=
  (rows.filter fun r => r.signature ≠ p.signature.getD "") ++ rowsOf p

/-! ## A run -/

inductive Op where
  | target
  | getCursor (a : Asset)
  | signatures (a : Asset) (plan : PagePlan) (limit : Nat)
  | transaction (signature : String)
  | upsert (p : ParsedSupportTx)
  | setCursor (a : Asset) (cursor : SupportCursor)

/-- An RPC call may fail, which is no answer; a transaction may not be available yet. -/
def Op.Ans : Op → Type
  | .target => Bool
  | .getCursor _ => SupportCursor
  | .signatures _ _ _ => Option (List SignatureInfo)
  | .transaction _ => Option (Option RpcTransaction)
  | .upsert _ => Unit
  | .setCursor _ _ => Unit

/-- How the RPC behaves in one await. -/
inductive Weather where
  | fair
  | failing
  | behind
  deriving DecidableEq, Repr

/-- Why a run stops. -/
inductive Stop where
  | rpc
  | notAvailable
  deriving DecidableEq, Repr

abbrev Run := Call Op Op.Ans Stop Unit

/-- The signatures of a page, one after another. -/
def ingest (accounts : SupportAccounts) : List SignatureInfo → Run
  | [] => .ret ()
  | sig :: sigs =>
    if sig.err.isSome then ingest accounts sigs
    else .await (.transaction sig.signature) fun
      | none => .fail .rpc
      | some none => .fail .notAvailable
      | some (some tx) =>
        match parseSupportTx tx accounts with
        | none => ingest accounts sigs
        | some p => .await (.upsert p) fun _ => ingest accounts sigs

/-- At most `n` pages of an account. The cursor is saved after the whole page is stored. -/
def walk (accounts : SupportAccounts) (a : Asset) (limit : Nat) : Nat → SupportCursor → Run
  | 0, _ => .ret ()
  | n + 1, cursor =>
    .await (.signatures a (planPage cursor) limit) fun
      | none => .fail .rpc
      | some page => do
        ingest accounts page
        let cursor := advanceCursor cursor page limit
        .await (.setCursor a cursor) fun _ =>
          if cursor.pending.isNone then .ret () else walk accounts a limit n cursor

def walkAccount (accounts : SupportAccounts) (a : Asset) (limit pages : Nat) : Run :=
  .await (.getCursor a) fun cursor => walk accounts a limit pages cursor

/-- `sync`, with the length of a page and the most pages of an account. -/
def sync (accounts : SupportAccounts) (limit pages : Nat) : Run :=
  .await .target fun (ok : Bool) =>
    if ok then do
      walkAccount accounts .sol limit pages
      walkAccount accounts .usdc limit pages
    else .ret ()

/-- What an await does and answers. -/
def perform (accounts : SupportAccounts) : (o : Op) → Weather → Tracker → Tracker × o.Ans
  | .target, w, s => (s, decide (w = .fair))
  | .getCursor a, _, s => (s, s.cursors a)
  | .signatures a plan limit, w, s =>
    (s, if w = .fair then some (signaturesFor (history accounts s.chain a) plan limit) else none)
  | .transaction signature, w, s =>
    (s, match w with
      | .fair => some ((s.chain.find? fun e => e.signature = signature).map (·.tx))
      | .behind => some none
      | .failing => none)
  | .upsert p, _, s => ({ s with rows := upsertRows s.rows p }, ())
  | .setCursor a cursor, _, s =>
    ({ s with cursors := fun b => if b = a then cursor else s.cursors b }, ())

/-- Runs over the tracker; outside, transactions are finalized. -/
def tracker (accounts : SupportAccounts) :
    System Tracker Op Op.Ans Weather (Nat × Nat) Entry Stop Unit Unit where
  perform := perform accounts
  entry := fun (limit, pages) => sync accounts limit pages
  outside := fun e s => { s with chain := e :: s.chain }
  first := ()
  note := fun _ _ => ()

/-! ## What is asked of the RPC and of the chain -/

def Amount.units : Amount → Nat
  | .number n => n
  | .text n => n

/-- The units of a token balance. -/
def tokenUnits (balances : Option (List TokenBalance)) (index : Nat) : Nat :=
  ((((balances.getD []).find? fun b => b.accountIndex = index).bind (·.amount)).map
    Amount.units).getD 0

/-- What the transaction shows of an account that stands at `index`. -/
def Entry.ShowsAt (e : Entry) (m : Meta) (index : Nat) : Asset → Prop
  | .sol => (m.preBalances[index]?).map Amount.units = some (e.before .sol) ∧
    (m.postBalances[index]?).map Amount.units = some (e.after .sol)
  | .usdc => tokenUnits m.preTokenBalances index = e.before .usdc ∧
    tokenUnits m.postTokenBalances index = e.after .usdc

/-- The transaction is as the RPC has it: it shows the balances of the accounts it lists, changes
those of no other, and none when it failed. -/
structure Entry.Shown (accounts : SupportAccounts) (e : Entry) : Prop where
  signature : e.tx.signatures.head? = some e.signature
  details : ∃ m, e.tx.details = some m ∧ ∀ a,
    if m.err.isSome then e.after a = e.before a
    else
      match keyIndex e.tx (accounts.holding a) with
      | none => e.after a = e.before a
      | some index => e.ShowsAt m index a
  bound : ∀ a, e.before a < 2 ^ 53 ∧ e.after a < 2 ^ 53

/-- The balance of a vault account. -/
def balance (chain : List Entry) (a : Asset) : Nat := (chain.head?.map fun e => e.after a).getD 0

/-- Pages have room, and the chain grows by transactions that start from its balances. -/
def terms (accounts : SupportAccounts) : Terms Tracker Op Weather (Nat × Nat) Entry Unit where
  Starts := fun (limit, _) => 1 ≤ limit
  Meets := fun _ _ _ _ _ => True
  Outside := fun e s => e.Shown accounts ∧ (∀ f ∈ s.chain, f.signature ≠ e.signature) ∧
    ∀ a, e.before a = balance s.chain a

def initial : Tracker := ⟨[], [], fun _ => ⟨none, none⟩⟩

end ChainPay.Support
