import ChainPay.Lib.Json
import ChainPay.Lib.Text

/-!
The support tracker's reading of transactions (`convex/supportParse.ts`): what a finalized
transaction did to the splitter's vault, as payouts, contributions, funding and anomalies.
-/

namespace ChainPay.Support
open ChainPay.Lib

inductive Asset where
  | sol
  | usdc
  deriving DecidableEq, Repr

inductive Side where
  | a
  | b
  deriving DecidableEq, Repr

inductive Kind where
  | contribution
  | payout
  | funding
  | anomaly
  deriving DecidableEq, Repr

structure SupportEvent where
  kind : Kind
  asset : Asset
  /-- Base units. -/
  amount : Int
  donor : Option String
  note : Option (List Char)
  side : Option Side
  deriving DecidableEq, Repr

structure SupportAccounts where
  programId : String
  vault : String
  vaultUsdc : String
  deriving DecidableEq, Repr

/-- The account that holds an asset. -/
def SupportAccounts.holding (accounts : SupportAccounts) : Asset → String
  | .sol => accounts.vault
  | .usdc => accounts.vaultUsdc

/-! ## Transactions as the RPC answers them -/

/-- An amount in an answer: a number, which `JSON.parse` reads as a double, or decimal digits. -/
inductive Amount where
  | number (n : Nat)
  | text (n : Nat)
  deriving DecidableEq, Repr

structure TokenBalance where
  accountIndex : Nat
  amount : Option Amount
  deriving DecidableEq, Repr

structure AccountKey where
  pubkey : String
  /-- Absent when the key is a plain string. -/
  signer : Option Bool
  deriving DecidableEq, Repr

/-- The `info` of a parsed instruction, with the fields that transfers have. -/
structure Info where
  source : Option String
  destination : Option String
  authority : Option String
  multisigAuthority : Option String
  lamports : Option Amount
  amount : Option Amount
  tokenAmount : Option Amount
  deriving DecidableEq, Repr

inductive Parsed where
  | text (s : List Char)
  | object (type : Option String) (info : Option Info)
  | other
  deriving DecidableEq, Repr

structure ParsedIx where
  program : Option String
  programId : Option String
  parsed : Parsed
  deriving DecidableEq, Repr

structure Meta where
  /-- Absent when the transaction succeeded. -/
  err : Option String
  preBalances : List Amount
  postBalances : List Amount
  preTokenBalances : Option (List TokenBalance)
  postTokenBalances : Option (List TokenBalance)
  innerInstructions : Option (List (List ParsedIx))
  logMessages : Option (List (List Char))
  deriving DecidableEq, Repr

structure RpcTransaction where
  slot : Nat
  blockTime : Option Nat
  details : Option Meta
  signatures : List String
  accountKeys : List AccountKey
  instructions : List ParsedIx
  deriving DecidableEq, Repr

/-- `big`: a missing amount is zero. -/
def big : Option Amount → Int
  | none => 0
  | some (.text n) => n
  | some (.number n) => ((nearestDouble n).getD 0).floor

/-! ## Memos -/

def MEMO_PROGRAM_ID : String := "MemoSq4gqABAXKb96qnH8TysNcWxMyWCqXgDLGmfcHr"
def MEMO_PREFIX : List Char := "chainpay-support:v1".toList
def NOTE_MAX : Nat := 80

/-- What follows a text at the start of another. -/
def after? (start s : List Char) : Option (List Char) :=
  if start.isPrefixOf s then some (s.drop start.length) else none

/-- The control characters that notes are cleared of. -/
def isControl (c : Char) : Bool := c.toNat ≤ 0x1F || (0x7F ≤ c.toNat && c.toNat ≤ 0x9F)

def cleanNote (s : List Char) : Option (List Char) :=
  let clean := jsTrim (s.filter fun c => !isControl c)
  if clean = [] then none else some (clean.take NOTE_MAX)

structure Memo where
  anon : Bool
  note : Option (List Char)
  deriving DecidableEq, Repr

def parseSupportMemo (memo : Option (List Char)) : Memo :=
  match memo.bind (after? MEMO_PREFIX) with
  | none => ⟨false, none⟩
  | some rest =>
    if rest = [] ∨ rest.head? = some ' ' then
      let (anon, rest) := match after? " anon=1".toList rest with
        | some rest => (true, rest)
        | none => (false, rest)
      ⟨anon, (after? " note=".toList rest).bind cleanNote⟩
    else ⟨false, none⟩

/-! ## Logs -/

def isWordChar (c : Char) : Bool :=
  ('a' ≤ c && c ≤ 'z') || ('A' ≤ c && c ≤ 'Z') || ('0' ≤ c && c ≤ '9') || c = '_'

/-- A word at the start, and the rest. -/
def word (s : List Char) : Option (List Char × List Char) :=
  let w := s.takeWhile isWordChar
  if w = [] then none else some (w, s.drop w.length)

/-- `/^Program (\w+) invoke \[\d+\]$/`. -/
def invokeLine (line : List Char) : Option (List Char) := do
  let (program, rest) ← word (← after? "Program ".toList line)
  let rest ← after? " invoke [".toList rest
  let digits := rest.takeWhile isDecimalDigit
  if digits ≠ [] ∧ rest.drop digits.length = [']'] then some program else none

/-- `/^Program \w+ (success|failed)/`. -/
def exitLine (line : List Char) : Bool :=
  match (after? "Program ".toList line).bind word with
  | none => false
  | some (_, rest) => " success".toList.isPrefixOf rest || " failed".toList.isPrefixOf rest

def isLineEnd (c : Char) : Bool :=
  c = '\n' || c = '\r' || c.toNat = 0x2028 || c.toNat = 0x2029

/-- `/^Program data: (.+)$/`. -/
def dataLine (line : List Char) : Option (List Char) :=
  (after? "Program data: ".toList line).filter fun rest => rest ≠ [] && !rest.any isLineEnd

def PAID : Bytes := [240, 193, 17, 238, 238, 210, 129, 235]
def VAULT_INITIALIZED : Bytes := [180, 43, 207, 2, 18, 71, 3, 75]

structure Paid where
  asset : Asset
  side : Side
  amount : Nat
  deriving DecidableEq, Repr

structure SplitterEvents where
  paid : List Paid
  initialized : Bool
  deriving DecidableEq, Repr

/-- The payout that the bytes of an event tell of. -/
def paidEvent (bytes : Bytes) : Option Paid :=
  if PAID.isPrefixOf bytes ∧ 8 + 1 + 1 + 8 + 32 ≤ bytes.length ∧ bytes.getD 8 0 ≤ 1 ∧
      bytes.getD 9 0 ≤ 1 then
    some ⟨if bytes.getD 8 0 = 0 then .sol else .usdc, if bytes.getD 9 0 = 0 then .a else .b,
      ofLeBytes ((bytes.drop 10).take 8)⟩
  else none

/-- One event of the splitter, added to what was found. -/
def addEvent (found : SplitterEvents) (bytes : Bytes) : SplitterEvents :=
  match paidEvent bytes with
  | some p => { found with paid := found.paid ++ [p] }
  | none =>
    if VAULT_INITIALIZED.isPrefixOf bytes then { found with initialized := true } else found

/-- The log lines with the stack of programs that are running, innermost first. -/
def readLogs (programId : List Char) :
    List (List Char) → List (List Char) → SplitterEvents → SplitterEvents
  | [], _, found => found
  | line :: lines, stack, found =>
    match invokeLine line with
    | some program => readLogs programId lines (program :: stack) found
    | none =>
      if exitLine line then readLogs programId lines stack.tail found
      else
        match dataLine line, stack.head? with
        | some data, some program =>
          if program = programId then
            match atob data with
            | some bytes => readLogs programId lines stack (addEvent found bytes)
            | none => readLogs programId lines stack found
          else readLogs programId lines stack found
        | _, _ => readLogs programId lines stack found

/-- Events that the splitter itself emitted. -/
def splitterEvents (logs : List (List Char)) (programId : String) : SplitterEvents :=
  readLogs programId.toList logs [] ⟨[], false⟩

/-! ## Instructions -/

namespace RpcTransaction

def allInstructions (tx : RpcTransaction) : List ParsedIx :=
  tx.instructions ++ ((tx.details.bind (·.innerInstructions)).getD []).flatten

/-- The keys that signed, each once. -/
def signers (tx : RpcTransaction) : List String :=
  ((tx.accountKeys.filter fun k => k.signer = some true).map (·.pubkey)).eraseDups

end RpcTransaction

structure Transfer where
  asset : Asset
  donor : Option String
  amount : Int
  deriving DecidableEq, Repr

/-- The transfer into the vault that an instruction is, if it is one. -/
def transferOf (accounts : SupportAccounts) (ix : ParsedIx) : Option Transfer :=
  match ix.parsed with
  | .object type (some info) =>
    if ix.program = some "system" ∧ type = some "transfer" ∧
        info.destination = some accounts.vault then
      some ⟨.sol, info.source, big info.lamports⟩
    else if ix.program = some "spl-token" ∧
        (type = some "transfer" ∨ type = some "transferChecked") ∧
        info.destination = some accounts.vaultUsdc then
      let amount := if type = some "transferChecked" then info.tokenAmount else info.amount
      some ⟨.usdc, info.authority.or info.multisigAuthority, big amount⟩
    else none
  | _ => none

def transfersIntoVault (tx : RpcTransaction) (accounts : SupportAccounts) : List Transfer :=
  tx.allInstructions.filterMap (transferOf accounts)

/-- The text of the first memo. -/
def memoText (tx : RpcTransaction) : Option (List Char) :=
  tx.allInstructions.findSome? fun ix =>
    match ix.parsed with
    | .text s =>
      if ix.programId = some MEMO_PROGRAM_ID ∨ ix.program = some "spl-memo" then some s else none
    | _ => none

/-! ## One transaction -/

/-- Where an account stands among the keys. -/
def keyIndex (tx : RpcTransaction) (address : String) : Option Nat :=
  tx.accountKeys.findIdx? fun k => k.pubkey = address

/-- The token amount of an account. -/
def tokenAmount (balances : Option (List TokenBalance)) (index : Nat) : Int :=
  big (((balances.getD []).find? fun b => b.accountIndex = index).bind (·.amount))

/-- By how much the transaction changed the balance of an account. -/
def balanceDelta (tx : RpcTransaction) (m : Meta) (address : String) (asset : Asset) : Int :=
  match keyIndex tx address with
  | none => 0
  | some index =>
    match asset with
    | .sol => big m.postBalances[index]? - big m.preBalances[index]?
    | .usdc => tokenAmount m.postTokenBalances index - tokenAmount m.preTokenBalances index

structure ParsedSupportTx where
  signature : Option String
  slot : Nat
  blockTime : Option Nat
  events : List SupportEvent
  deriving DecidableEq, Repr

/-- Who is named for a transfer. A swapped tip comes from a pool: it is credited to the only signer
when the memo is ours, and to nobody otherwise. -/
def donorOf (signers : List String) (hasSupportMemo : Bool) (t : Transfer) : Option String :=
  match t.donor with
  | none => none
  | some donor =>
    if t.asset = .usdc ∧ donor ∉ signers then
      if hasSupportMemo ∧ signers.length = 1 then signers.head? else none
    else some donor

/-- The contribution that a transfer is. -/
def contributionOf (signers : List String) (hasSupportMemo : Bool) (memo : Memo) (t : Transfer) :
    SupportEvent :=
  let donor := donorOf signers hasSupportMemo t
  let signed := donor.any fun d => d ∈ signers
  ⟨.contribution, t.asset, t.amount, if signed && memo.anon then none else donor,
    if signed then memo.note else none, none⟩

/-- An event that names nobody. -/
def plain (kind : Kind) (asset : Asset) (amount : Int) : SupportEvent :=
  ⟨kind, asset, amount, none, none, none⟩

/-- What came in: the transfers found, and what they leave unexplained. -/
def inflowEvents (asset : Asset) (inflow : Int) (initialized : Bool) (mine : List Transfer)
    (contribution : Transfer → SupportEvent) : List SupportEvent :=
  if inflow < 0 then [plain .anomaly asset (-inflow)]
  else if inflow = 0 then []
  else if initialized ∧ asset = .sol then [plain .funding asset inflow]
  else
    let attributed := (mine.map (·.amount)).sum
    -- instructions that claim more than the balance shows are not believed
    if inflow < attributed then [plain .contribution asset inflow]
    else
      (mine.filter fun t => t.amount ≠ 0).map contribution ++
        if attributed < inflow then [plain .contribution asset (inflow - attributed)] else []

/-- The events of one asset: the payouts, then what came in. -/
def assetEvents (accounts : SupportAccounts) (tx : RpcTransaction) (m : Meta) (asset : Asset) :
    List SupportEvent :=
  let found := splitterEvents (m.logMessages.getD []) accounts.programId
  let payouts := found.paid.filter fun p => p.asset = asset
  let paidOut : Int := (payouts.map fun p => (p.amount : Int)).sum
  let memo := memoText tx
  let hasSupportMemo := memo.any fun s => MEMO_PREFIX.isPrefixOf s
  let inflow := balanceDelta tx m (accounts.holding asset) asset + paidOut
  (payouts.map fun p => ⟨.payout, asset, p.amount, none, none, some p.side⟩) ++
    inflowEvents asset inflow found.initialized
      ((transfersIntoVault tx accounts).filter fun t => t.asset = asset)
      (contributionOf tx.signers hasSupportMemo (parseSupportMemo memo))

/-- `parseSupportTx`: nothing for failed or unusable transactions. -/
def parseSupportTx (tx : RpcTransaction) (accounts : SupportAccounts) : Option ParsedSupportTx :=
  match tx.details with
  | none => none
  | some m =>
    if m.err.isSome then none
    else some ⟨tx.signatures.head?, tx.slot, tx.blockTime,
      assetEvents accounts tx m .sol ++ assetEvents accounts tx m .usdc⟩

/-! ## What the events add up to -/

/-- What an event adds to the balance of an asset. -/
def SupportEvent.value (asset : Asset) (e : SupportEvent) : Int :=
  if e.asset = asset then
    match e.kind with
    | .contribution | .funding => e.amount
    | .payout | .anomaly => -e.amount
  else 0

/-- What events add to the balance of an asset together. -/
def netOf (asset : Asset) (events : List SupportEvent) : Int := (events.map (·.value asset)).sum

theorem netOf_append (asset : Asset) (as bs : List SupportEvent) :
    netOf asset (as ++ bs) = netOf asset as + netOf asset bs := by
  rw [netOf, List.map_append, List.sum_append, netOf, netOf]

theorem netOf_contributions {asset : Asset} {ts : List Transfer}
    {contribution : Transfer → SupportEvent}
    (hkind : ∀ t ∈ ts, (contribution t).value asset = t.amount) :
    netOf asset ((ts.filter fun t => t.amount ≠ 0).map contribution) = (ts.map (·.amount)).sum := by
  induction ts with
  | nil => rfl
  | cons t ts ih =>
    have hrest := ih fun u hu => hkind u (List.mem_cons_of_mem _ hu)
    have hfirst := hkind t List.mem_cons_self
    unfold netOf at hrest ⊢
    by_cases hzero : t.amount = 0
    · rw [List.filter_cons_of_neg (by simpa using hzero), hrest, List.map_cons, List.sum_cons,
        hzero, Int.zero_add]
    · rw [List.filter_cons_of_pos (by simpa using hzero), List.map_cons, List.map_cons,
        List.sum_cons, hfirst, hrest, List.map_cons, List.sum_cons]

/-- What came in is explained in full. -/
theorem netOf_inflow {asset : Asset} (inflow : Int) (initialized : Bool) {mine : List Transfer}
    {contribution : Transfer → SupportEvent}
    (hkind : ∀ t ∈ mine, (contribution t).value asset = t.amount) :
    netOf asset (inflowEvents asset inflow initialized mine contribution) = inflow := by
  unfold inflowEvents
  by_cases hneg : inflow < 0
  · rw [if_pos hneg]
    simp [netOf, plain, SupportEvent.value]
  · rw [if_neg hneg]
    by_cases hzero : inflow = 0
    · rw [if_pos hzero, hzero]
      rfl
    · rw [if_neg hzero]
      by_cases hinit : initialized = true ∧ asset = .sol
      · rw [if_pos hinit]
        simp [netOf, plain, SupportEvent.value]
      · rw [if_neg hinit]
        dsimp only
        by_cases hmore : inflow < (mine.map (·.amount)).sum
        · rw [if_pos hmore]
          simp [netOf, plain, SupportEvent.value]
        · rw [if_neg hmore, netOf_append, netOf_contributions hkind]
          by_cases hless : (mine.map (·.amount)).sum < inflow
          · rw [if_pos hless]
            simp [netOf, plain, SupportEvent.value]
          · rw [if_neg hless]
            simp only [netOf, List.map_nil, List.sum_nil]
            omega

/-- Payouts count against the balance. -/
theorem netOf_payouts (asset : Asset) (ps : List Paid) :
    netOf asset (ps.map fun p => ⟨.payout, asset, p.amount, none, none, some p.side⟩) =
      -(ps.map fun p => (p.amount : Int)).sum := by
  induction ps with
  | nil => rfl
  | cons p ps ih =>
    unfold netOf at ih ⊢
    rw [List.map_cons, List.map_cons, List.sum_cons, ih, List.map_cons, List.sum_cons]
    simp only [SupportEvent.value, if_true]
    omega

/-- The events of one asset are about it. -/
theorem assetEvents_asset {accounts : SupportAccounts} {tx : RpcTransaction} {m : Meta}
    {asset : Asset} : ∀ e ∈ assetEvents accounts tx m asset, e.asset = asset := by
  intro e he
  unfold assetEvents at he
  rcases List.mem_append.mp he with he | he
  · obtain ⟨p, -, rfl⟩ := List.mem_map.mp he
    rfl
  · unfold inflowEvents at he
    split at he
    · rw [List.mem_singleton.mp he]
      rfl
    · split at he
      · cases he
      · split at he
        · rw [List.mem_singleton.mp he]
          rfl
        · dsimp only at he
          split at he
          · rw [List.mem_singleton.mp he]
            rfl
          · rcases List.mem_append.mp he with he | he
            · obtain ⟨t, ht, rfl⟩ := List.mem_map.mp he
              exact of_decide_eq_true (List.mem_filter.mp (List.mem_of_mem_filter ht)).2
            · split at he
              · rw [List.mem_singleton.mp he]
                rfl
              · cases he

theorem netOf_other {asset : Asset} {events : List SupportEvent}
    (h : ∀ e ∈ events, e.asset ≠ asset) : netOf asset events = 0 := by
  refine List.sum_eq_zero fun v hv => ?_
  obtain ⟨e, he, rfl⟩ := List.mem_map.mp hv
  exact if_neg (h e he)

/-- **One asset of a transaction adds up.** -/
theorem netOf_assetEvents (accounts : SupportAccounts) (tx : RpcTransaction) (m : Meta)
    (asset : Asset) :
    netOf asset (assetEvents accounts tx m asset) =
      balanceDelta tx m (accounts.holding asset) asset := by
  unfold assetEvents
  rw [netOf_append, netOf_payouts, netOf_inflow]
  · omega
  · intro t ht
    have hasset : t.asset = asset := of_decide_eq_true (List.mem_filter.mp ht).2
    simp [contributionOf, SupportEvent.value, hasset]

/-- **A transaction adds up.** Its events add to each asset what the account's balance changed by. -/
theorem netOf_parse {accounts : SupportAccounts} {tx : RpcTransaction} {p : ParsedSupportTx}
    {m : Meta} (hm : tx.details = some m) (h : parseSupportTx tx accounts = some p)
    (asset : Asset) :
    netOf asset p.events = balanceDelta tx m (accounts.holding asset) asset := by
  unfold parseSupportTx at h
  rw [hm] at h
  dsimp only at h
  split at h
  · cases h
  · cases h
    rw [netOf_append]
    have hother : ∀ other, other ≠ asset → netOf asset (assetEvents accounts tx m other) = 0 :=
      fun other hne => netOf_other fun e he => by rw [assetEvents_asset e he]; exact hne
    cases asset with
    | sol => rw [netOf_assetEvents, hother .usdc (by decide), Int.add_zero]
    | usdc => rw [netOf_assetEvents, hother .sol (by decide), Int.zero_add]

end ChainPay.Support
