import ChainPay.Lib.Calls
import ChainPay.Lib.Json

/-!
Live payment cards: the calls that open and update one (`payment-flows.ts`), and the two stores that
keep them, in memory (`connections.ts`) and on Convex (`mcp.putFlow`, `mcp.getFlow` of
`convex/storage.ts`). Each store compares the revision that a writer read with the one it holds.
-/

namespace ChainPay.Flows
open ChainPay.Lib

/-! ## Views -/

/-- The fields of a card's view; a field that is `undefined` is absent. -/
abbrev View := String → Option Json

def View.set (v : View) (name : String) (value : Option Json) : View :=
  fun k => if k = name then value else v k

def isText (value : Option Json) (text : String) : Bool :=
  match value with
  | some (.str s) => s == text.toList
  | _ => false

/-- `value === 1`. -/
def isOne : Option Json → Bool
  | some (.num (some q)) => q == 1
  | _ => false

/-- `delete value.after`, of whatever `typeof` calls an object. -/
def dropAfter : Json → Json
  | .obj ms => .obj (ms.filter fun m => m.1 ≠ "after".toList)
  | v => v

/-- Only the fields a viewer of the card may see. -/
def publicView (view : View) : View := (view.set "mandate" none).set "recipient" none

/-- What a full view takes over from the one before it. -/
def PRESERVED : List String :=
  ["amount", "symbol", "decimals", "merchant", "product", "recipientShort", "cluster", "signature",
    "txShort", "explorerUrl", "paymentId", "flowId", "flowUrl"]

/-- Whether the limits of a view lose what would be left after the payment. -/
def isFinal (view : View) : Bool := isText (view "state") "settled" || isText (view "state") "blocked"

def isSettled (view : View) : Bool := isText (view "state") "settled"

/-- What a new view is laid over. -/
def kept (existing view : View) : View :=
  if isOne (view "version") then fun k => if k ∈ PRESERVED then existing k else none else existing

/-- A new view over what is kept, before its limits are cut. -/
def overlay (existing view : View) : View := fun k => publicView view k <|> kept existing view k

def merged (existing view : View) : View :=
  let laid := overlay existing view
  if isFinal laid then laid.set "limits" ((laid "limits").map dropAfter) else laid

/-- The caller's view after that: its limits are the very object that was cut. -/
def spent (existing view : View) : View :=
  if isFinal (overlay existing view) then view.set "limits" ((view "limits").map dropAfter) else view

/-! ## Stores -/

structure PaymentFlowRecord where
  flowId : String
  wallet : String
  paymentId : String
  view : View
  createdAt : Nat
  updatedAt : Nat
  expiresAt : Nat

def FLOW_TTL_MS : Nat := 24 * 60 * 60 * 1000

def MAX_SAFE_INTEGER : Nat := 2 ^ 53 - 1

/-- What a write is answered with: another revision is stored (retried), or another refusal. -/
inductive PutReply where
  | stored
  | conflict
  | refused
  deriving DecidableEq, Repr

/-- A store of cards; `putFlow` reads the clock of the store. -/
structure FlowStore (σ : Type) where
  empty : σ
  getFlow : σ → String → Nat → Option PaymentFlowRecord
  putFlow : Nat → PaymentFlowRecord → Option Nat → σ → σ × PutReply

/-! ### In memory -/

abbrev FlowMap := List PaymentFlowRecord

namespace Memory

def find (flows : FlowMap) (flowId : String) : Option PaymentFlowRecord :=
  flows.find? fun f => f.flowId = flowId

def getFlow (flows : FlowMap) (flowId : String) (now : Nat) : Option PaymentFlowRecord :=
  (find flows flowId).filter fun f => now < f.expiresAt

/-- Whether a write of `record` against a revision conflicts with what is stored. -/
def conflicts (now : Nat) (record : PaymentFlowRecord) (expected : Option Nat)
    (existing : Option PaymentFlowRecord) : Bool :=
  match expected with
  | none => existing.isSome
  | some expected =>
    match existing with
    | none => true
    | some existing =>
      existing.updatedAt ≠ expected || existing.expiresAt ≤ now ||
        existing.expiresAt ≠ record.expiresAt || existing.createdAt ≠ record.createdAt ||
        existing.paymentId ≠ record.paymentId

def purge (now : Nat) (flows : FlowMap) : FlowMap := flows.filter fun f => now < f.expiresAt

def MAX_FLOWS : Nat := 10000

def putFlow (now : Nat) (record : PaymentFlowRecord) (expected : Option Nat) (flows : FlowMap) :
    FlowMap × PutReply :=
  let existing := find flows record.flowId
  if existing.any fun f => f.wallet ≠ record.wallet then (flows, .refused)
  else if conflicts now record expected existing then (flows, .conflict)
  else if MAX_FLOWS ≤ (purge now flows).length ∧ existing = none then (purge now flows, .refused)
  else ((purge now flows).filter (fun f => f.flowId ≠ record.flowId) ++ [record], .stored)

end Memory

def memory : FlowStore FlowMap where
  empty := []
  getFlow := Memory.getFlow
  putFlow := Memory.putFlow

/-! ### On Convex -/

/-- A row of `payment_flows`; `record` is what its `record_json` spells. -/
structure FlowRow where
  flowId : String
  wallet : String
  record : PaymentFlowRecord
  expires : Nat

/-- The length of `JSON.stringify` of a record. -/
class RecordText where
  length : PaymentFlowRecord → Nat

namespace Convex

def find (rows : List FlowRow) (flowId : String) : Option FlowRow :=
  rows.find? fun r => r.flowId = flowId

/-- A read at no safe number fails, which ends a call as a missing card does. -/
def getFlow (rows : List FlowRow) (flowId : String) (now : Nat) : Option PaymentFlowRecord :=
  if MAX_SAFE_INTEGER < now then none
  else ((find rows flowId).filter fun r => now < r.expires).map FlowRow.record

/-- What the comparison with the stored row says; `safeNumber` refuses what is no safe number. -/
def compare (now : Nat) (record : PaymentFlowRecord) (expected : Option Nat)
    (old : Option FlowRow) : PutReply :=
  match expected with
  | none => if old.isSome then .conflict else .stored
  | some expected =>
    if MAX_SAFE_INTEGER < expected then .refused
    else
      match old with
      | none => .conflict
      | some old =>
        if old.expires ≤ now ∨ old.expires ≠ record.expiresAt ∨
          old.record.paymentId ≠ record.paymentId then .conflict
        else if MAX_SAFE_INTEGER < old.record.updatedAt then .refused
        else if old.record.updatedAt ≠ expected then .conflict
        else if MAX_SAFE_INTEGER < record.updatedAt then .refused
        else if record.updatedAt ≤ expected then .conflict
        else if MAX_SAFE_INTEGER < old.record.createdAt ∨ MAX_SAFE_INTEGER < record.createdAt then
          .refused
        else if old.record.createdAt ≠ record.createdAt then .conflict
        else .stored

def MAX_TEXT : Nat := 32000

variable [RecordText]

def putFlow (now : Nat) (record : PaymentFlowRecord) (expected : Option Nat)
    (rows : List FlowRow) : List FlowRow × PutReply :=
  let old := find rows record.flowId
  let row : FlowRow := ⟨record.flowId, record.wallet, record, record.expiresAt⟩
  if MAX_SAFE_INTEGER < record.expiresAt then (rows, .refused)
  else if MAX_TEXT < RecordText.length record then (rows, .refused)
  else if old.any fun r => r.wallet ≠ record.wallet then (rows, .refused)
  else
    match compare now record expected old with
    | .stored =>
      if old.isSome then (rows.map fun r => if r.flowId = record.flowId then row else r, .stored)
      else (rows ++ [row], .stored)
    | reply => (rows, reply)

end Convex

def convex [RecordText] : FlowStore (List FlowRow) where
  empty := []
  getFlow := Convex.getFlow
  putFlow := Convex.putFlow

/-! ## Calls -/

/-- What an update was computed from. -/
structure Origin where
  existing : PaymentFlowRecord
  view : View

inductive Op where
  | getFlow (flowId : String) (now : Nat)
  | putFlow (record : PaymentFlowRecord) (expectedUpdatedAt : Option Nat) (origin : Option Origin)

def Op.Ans : Op → Type
  | .getFlow .. => Option PaymentFlowRecord
  | .putFlow .. => PutReply

/-- A call of a session whose wallet is `wallet`. -/
inductive Request where
  | createFlow (wallet : Option String) (view : View) (paymentId flowId : String)
  | recordFlow (wallet flowId : Option String) (view : View) (paymentId : String)

abbrev FlowCall := Call Op Op.Ans Unit

def getFlow (flowId : String) (now : Nat) : FlowCall (Option PaymentFlowRecord) :=
  .await (.getFlow flowId now) .ret

def putFlow (record : PaymentFlowRecord) (expected : Option Nat) (origin : Option Origin) :
    FlowCall PutReply :=
  .await (.putFlow record expected origin) .ret

def truthy (text : Option String) : Option String := text.filter (· ≠ "")

def text (s : String) : Json := .str s.toList

/-- The card of a new flow, opened at `now`. -/
def opened (publicMcpOrigin wallet : String) (view : View) (paymentId flowId : String) (now : Nat) :
    PaymentFlowRecord :=
  { flowId := flowId
    wallet := wallet
    paymentId := paymentId
    view := publicView ((view.set "flowId" (some (text flowId))).set "flowUrl"
      (some (text (publicMcpOrigin ++ "/pay/" ++ flowId))))
    createdAt := now
    updatedAt := now
    expiresAt := now + FLOW_TTL_MS }

/-- `flowId` is the one that was drawn. -/
def createFlow (publicMcpOrigin : String) (wallet : Option String) (view : View)
    (paymentId flowId : String) : FlowCall (Option String) :=
  match truthy wallet with
  | none => .ret none
  | some wallet => do
    let now ← Call.now
    match ← putFlow (opened publicMcpOrigin wallet view paymentId flowId now) none none with
    | .stored => .ret (some flowId)
    | .conflict | .refused => .fail ()

/-- The next version of a card. -/
def revised (existing : PaymentFlowRecord) (view : View) (now : Nat) : PaymentFlowRecord :=
  { existing with
    view := merged existing.view view
    updatedAt := max now (existing.updatedAt + 1) }

/-- The attempts that are left. It answers nothing; a failure is logged and never changes a
payment. -/
def recordAttempts (wallet flowId paymentId : String) : Nat → View → FlowCall (Option String)
  | 0, _ => .ret none
  | attempts + 1, view => do
    let now ← Call.now
    match ← getFlow flowId now with
    | none => .ret none
    | some existing =>
      if existing.wallet ≠ wallet ∨ existing.paymentId ≠ paymentId then .ret none
      -- Once proven settled, a late submission/status response cannot undo it.
      else if isSettled existing.view then .ret none
      else
        let now ← Call.now
        match ← putFlow (revised existing view now) (some existing.updatedAt)
            (some ⟨existing, view⟩) with
        | .conflict => recordAttempts wallet flowId paymentId attempts (spent existing.view view)
        | .stored | .refused => .ret none

def recordFlow (wallet flowId : Option String) (view : View) (paymentId : String) :
    FlowCall (Option String) :=
  match truthy flowId, truthy wallet with
  | some flowId, some wallet => recordAttempts wallet flowId paymentId 3 view
  | _, _ => .ret none

/-! ## The system -/

/-- A version that was stored. -/
structure Version where
  record : PaymentFlowRecord
  origin : Option Origin

/-- A store, with every version it took, oldest first, and the latest reading of its clock. -/
structure Held (σ : Type) where
  store : σ
  log : List Version
  clock : Nat

/-- `putFlow` of the registry: a revision that is no safe number, or is not passed, conflicts
before the store is asked. -/
def passes (record : PaymentFlowRecord) : Option Nat → Bool
  | none => true
  | some expected => expected ≤ MAX_SAFE_INTEGER && expected < record.updatedAt

section

variable {σ : Type} (S : FlowStore σ)

def write (record : PaymentFlowRecord) (expected : Option Nat) (origin : Option Origin) (now : Nat)
    (s : Held σ) : Held σ × PutReply :=
  if passes record expected then
    match S.putFlow now record expected s.store with
    | (store, .stored) => (⟨store, s.log ++ [⟨record, origin⟩], now⟩, .stored)
    | (store, reply) => (⟨store, s.log, now⟩, reply)
  else (⟨s.store, s.log, now⟩, .conflict)

def perform : (o : Op) → Nat → Held σ → Held σ × o.Ans
  | .getFlow flowId now, e, s => (⟨s.store, s.log, e⟩, S.getFlow s.store flowId now)
  | .putFlow record expected origin, e, s => write S record expected origin e s

def entry (publicMcpOrigin : String) : Request → FlowCall (Option String)
  | .createFlow wallet view paymentId flowId =>
    createFlow publicMcpOrigin wallet view paymentId flowId
  | .recordFlow wallet flowId view paymentId => recordFlow wallet flowId view paymentId

def system (publicMcpOrigin : String) :
    System (Held σ) Op Op.Ans Nat Request Empty Unit (Option String) Unit where
  perform := perform S
  entry := entry publicMcpOrigin
  outside := nofun
  first := ()
  note _ := id

def start : Pool (Held σ) Op Op.Ans Unit (Option String) Unit := Pool.init ⟨S.empty, [], 0⟩

/-- The clock of the store never goes back, and a drawn flow id is no card's yet. -/
def drawn (o : Op) (s : Held σ) : Prop :=
  match o with
  | .putFlow record none _ => ∀ v ∈ s.log, v.record.flowId ≠ record.flowId
  | _ => True

def terms : Terms (Held σ) Op Nat Request Empty Unit where
  Starts _ := True
  Meets _ _ s o e := s.clock ≤ e ∧ drawn o s
  Outside _ _ := True

end

end ChainPay.Flows
