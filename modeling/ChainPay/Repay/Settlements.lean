import Mathlib.Data.List.Basic
import Mathlib.Algebra.Order.Ring.Int

/-!
Reading queued payouts off finalized transactions. MagicBlock's transfer queue pays the
partner out of a vault; one transaction may execute any number of queued transfers. A payout
is attributed by the frame of the Ephemeral SPL Token program that invoked it: the frame
logs that it executes a queued transfer, and with which reference.
-/

namespace ChainPay.Repay

def EPHEMERAL_SPL_PROGRAM : String := "SPLxh1LVZzEkX99H6rqYizhytLWPZVV296zyYDPagv2"
def SPL_TOKEN_PROGRAM : String := "TokenkegQfeZyiNwAJbNbGKPFXCWuBvf9Ss623VQ5DA"
def EXECUTE_LOG : String := "Program log: Instruction: ExecuteReadyQueuedTransfer"
def REF_LOG : String := "Program log: client_ref_id: "

/-- What the connector takes from its deployment: the configured partner account and mint,
the vault addresses derived for a mint (vault and its token account), and the keyed hash
behind every reference, as hex. -/
class Connector where
  partnerTokenAccount : Option String
  mint : String
  vaultAccounts : String → Option (String × String)
  blind : String → String → String

/-! ## Texts -/

/-- The rest of a text after a start it begins with. -/
def stripPrefix : List Char → List Char → Option (List Char)
  | [], text => some text
  | _ :: _, [] => none
  | p :: ps, c :: cs => if p = c then stripPrefix ps cs else none

/-- The first two words of a text, split at single blanks. -/
def twoWords (text : List Char) : List Char × Option (List Char) :=
  let first := text.takeWhile (· ≠ ' ')
  match text.drop first.length with
  | [] => (first, none)
  | _ :: rest => (first, some (rest.takeWhile (· ≠ ' ')))

def isDigit (c : Char) : Bool := '0' ≤ c && c ≤ '9'

def digitsValue (ds : List Char) : Nat := ds.foldl (fun n c => 10 * n + (c.toNat - 48)) 0

/-- `str::parse::<u64>`: digits after an optional plus sign, in range. -/
def parseU64 (text : String) : Option Nat :=
  let digits := match text.toList with
    | '+' :: rest => rest
    | rest => rest
  if digits ≠ [] ∧ digits.all isDigit ∧ digitsValue digits < 2 ^ 64 then some (digitsValue digits)
  else none

/-! ## Transactions -/

/-- The parsed fields of a token transfer; a missing address is the empty text. -/
structure TransferInfo where
  tokenAmount : Option String := none
  amount : Option String := none
  mint : String := ""
  source : String := ""
  destination : String := ""
  authority : String := ""
  deriving DecidableEq, Repr

structure Inner where
  programId : String
  kind : String
  info : TransferInfo
  deriving DecidableEq, Repr

/-- The inner instructions of one outer instruction. -/
structure Group where
  index : Nat
  instructions : List Inner
  deriving DecidableEq, Repr

/-- A finalized transaction as `getTransaction` serves it. -/
structure Tx where
  failed : Bool
  logMessages : Option (List String)
  innerInstructions : List Group
  deriving DecidableEq, Repr

/-- One queued payout the program executed in a transaction. -/
structure Settlement where
  clientRefId : String
  source : String
  destination : String
  authority : String
  mint : String
  amount : Nat
  deriving DecidableEq, Repr

/-! ## Frames -/

/-- A frame of the Ephemeral SPL Token program: whether it executes a queued transfer, and
its reference. -/
structure Frame where
  execute : Bool
  reference : Option String
  deriving DecidableEq, Repr

/-- The stack has its top first; an entry knows its frame when it is of that program. Every
`invoke` above the bottom is one inner instruction and remembers the frame that made it. -/
structure Frames where
  stack : List (List Char × Option Nat) := []
  frames : List Frame := []
  parents : List (Option Nat) := []
  deriving DecidableEq, Repr

def Frames.invoke (fs : Frames) (program : List Char) : Frames :=
  let parents := match fs.stack with
    | [] => fs.parents
    | (_, frame) :: _ => fs.parents ++ [frame]
  if program = EPHEMERAL_SPL_PROGRAM.toList then
    { stack := (program, some fs.frames.length) :: fs.stack
      frames := fs.frames ++ [⟨false, none⟩]
      parents := parents }
  else { fs with stack := (program, none) :: fs.stack, parents := parents }

def Frames.leave (fs : Frames) (program : List Char) : Option Frames :=
  match fs.stack with
  | (top, _) :: rest => if top = program then some { fs with stack := rest } else none
  | [] => none

/-- A log line counts only while the program's own frame is on top. -/
def Frames.log (fs : Frames) (line : List Char) : Option Frames :=
  match fs.stack with
  | (_, some f) :: _ =>
    match fs.frames[f]? with
    | none => some fs
    | some frame =>
      if line = EXECUTE_LOG.toList then
        some { fs with frames := fs.frames.set f { frame with execute := true } }
      else
        match stripPrefix REF_LOG.toList line with
        | some value =>
          if frame.reference.isSome ∨ value = [] ∨ ¬ value.all isDigit then none
          else some { fs with
            frames := fs.frames.set f { frame with reference := some (String.ofList value) } }
        | none => some fs
  | _ => some fs

def parseLine (fs : Frames) (text : String) : Option Frames :=
  let line := text.toList
  if (stripPrefix "Log truncated".toList line).isSome then none
  else
    match (stripPrefix "Program ".toList line).map twoWords with
    | some (program, some word) =>
      if word = "invoke".toList then some (fs.invoke program)
      else if word = "success".toList ∨ word = "failed:".toList then fs.leave program
      else fs.log line
    | _ => fs.log line

/-- `none` is never evidence: truncated or unbalanced logs, a malformed reference. -/
def parseFrames (logs : List String) : Option Frames := do
  let fs ← logs.foldlM parseLine {}
  if fs.stack = [] then some fs else none

/-! ## Settlements -/

/-- Inner instructions in execution order. -/
def innerInstructions (tx : Tx) : List Inner :=
  (tx.innerInstructions.mergeSort fun a b => a.index ≤ b.index).flatMap Group.instructions

section

variable [Connector]

/-- The token transfer a frame made itself. `none` is an unreadable amount. -/
def transferOf (ix : Inner) (parent : Option Nat) : Option (Option (Nat × Settlement)) :=
  match parent with
  | none => some none
  | some f =>
    if ix.programId ≠ SPL_TOKEN_PROGRAM ∨
        (ix.kind ≠ "transferChecked" ∧ ix.kind ≠ "transfer") then some none
    else do
      let text ← ix.info.tokenAmount.or ix.info.amount
      let amount ← parseU64 text
      let isVault := Connector.vaultAccounts ix.info.mint =
        some (ix.info.authority, ix.info.source)
      return some (f,
        { clientRefId := ""
          source := ix.info.source
          destination := ix.info.destination
          authority := ix.info.authority
          mint := if isVault then ix.info.mint else "not-vault:" ++ ix.info.mint
          amount := amount })

/-- One execute frame is exactly one reference and one payout. -/
def settlementOf (transfers : List (Option (Nat × Settlement))) (frame : Frame) (f : Nat) :
    Option (Option Settlement) :=
  if frame.execute = false then some none
  else
    match frame.reference, transfers.filterMap fun t => t.bind fun (g, s) =>
        if g = f then some s else none with
    | some reference, [s] => some (some { s with clientRefId := reference })
    | _, _ => none

/-- Every queued payout the program executed in the transaction. -/
def settlementsIn (tx : Tx) : Option (List Settlement) :=
  if tx.failed then none
  else do
    let logs ← tx.logMessages
    let fs ← parseFrames logs
    let inner := innerInstructions tx
    if inner.length ≠ fs.parents.length then none
    else do
      let transfers ← (inner.zip fs.parents).mapM fun (ix, parent) => transferOf ix parent
      let out ← fs.frames.zipIdx.mapM fun (frame, f) => settlementOf transfers frame f
      return out.filterMap id

end

/-! ## The check -/

/-- The payout pays exactly what is due, in the mint, to the partner. -/
def Settlement.exact (s : Settlement) (expected : Nat) (mint partner : String) : Bool :=
  s.mint = mint && s.destination = partner && s.amount = expected

/-- Drops repeated neighbours. -/
def dedup : List String → List String
  | a :: b :: rest => if a = b then dedup (b :: rest) else a :: dedup (b :: rest)
  | l => l

/-- The fields in which the payouts differ. -/
def mismatchFields (found : List (String × Settlement)) (expected : Nat) (mint partner : String) :
    List String :=
  let fields := found.flatMap fun (_, s) =>
    (if s.mint ≠ mint then ["mint"] else []) ++
      (if s.destination ≠ partner then ["recipient"] else []) ++
      (if s.amount ≠ expected then ["amount"] else [])
  dedup ((if fields = [] then ["amount"] else fields).mergeSort (· ≤ ·))

/-- The first exact payout settles the statement; extra payouts never undo it. -/
def check (found : List (String × Settlement)) (expected : Nat) (mint partner : String) :
    Except (List String) (String × Nat) :=
  match found.find? fun (_, s) => s.exact expected mint partner with
  | some (signature, s) => .ok (signature, s.amount)
  | none => .error (mismatchFields found expected mint partner)

theorem check_ok {found : List (String × Settlement)} {expected amount : Nat}
    {mint partner signature : String}
    (h : check found expected mint partner = .ok (signature, amount)) :
    ∃ s, (signature, s) ∈ found ∧ s.exact expected mint partner = true := by
  unfold check at h
  split at h
  · rename_i sig s hfind
    cases h
    have hexact := List.find?_some hfind
    exact ⟨s, List.mem_of_find?_eq_some hfind, hexact⟩
  · cases h

theorem check_error {found : List (String × Settlement)} {expected : Nat} {mint partner : String}
    {fields : List String} (h : check found expected mint partner = .error fields) :
    ∀ x ∈ found, x.2.exact expected mint partner = false := by
  unfold check at h
  split at h
  · cases h
  · rename_i hnone
    intro x hx
    exact Bool.eq_false_iff.mpr (List.find?_eq_none.mp hnone x hx)

end ChainPay.Repay
