import ChainPay.Card.State
import ChainPay.Lib.Runs

/-!
The support splitter: a vault that takes SOL and USDC from anyone and can only ever pay its
two recipients equally. Anyone may split what arrived into two equal owed balances and have
one side's balance sent to that side's wallet; only a side's own key can move that side to
another wallet.

The chain is the lamports and token accounts of every address. Whatever other programs do
is an instruction too (`elsewhere`), and so are transfers to the vault.
-/

namespace ChainPay.Splitter
open ChainPay.Lib ChainPay.Card

inductive Side where
  | a
  | b
  deriving DecidableEq, Repr

def Side.other : Side → Side
  | .a => .b
  | .b => .a

/-- One value for each side. -/
structure Pair (α : Type) where
  a : α
  b : α
  deriving DecidableEq, Repr

def Pair.get {α : Type} (p : Pair α) : Side → α
  | .a => p.a
  | .b => p.b

def Pair.set {α : Type} (p : Pair α) (x : α) : Side → Pair α
  | .a => { p with a := x }
  | .b => { p with b := x }

inductive Asset where
  | sol
  | usdc
  deriving DecidableEq, Repr

structure Ledger where
  /-- Allocated but not yet paid. -/
  owed : Pair Nat
  /-- Total ever allocated to each side. -/
  allocatedEach : Nat
  /-- Total ever paid out. -/
  paid : Pair Nat
  deriving DecidableEq, Repr

def Ledger.default : Ledger := ⟨⟨0, 0⟩, 0, ⟨0, 0⟩⟩

structure Vault where
  recipients : Pair Pubkey
  sol : Ledger
  usdc : Ledger
  deriving DecidableEq, Repr

inductive SplitterError where
  | placeholderRecipients
  | unauthorizedInitializer
  | unauthorized
  | invalidRecipient
  | duplicateRecipient
  | sameRecipient
  | invalidVaultTokenAccount
  | wrongMint
  | wrongDestination
  | ledgerInvariant
  | newRecipientMustSign
  /-- An error of the runtime, Anchor's account checks or the token programs. -/
  | runtime
  deriving DecidableEq, Repr

/-! ## Ledgers -/

/-- Splits what is not committed yet into two equal shares. -/
def allocate (ledger : Ledger) (balance reserved : Nat) : Except SplitterError Ledger := do
  let first ← okOr (checkedAdd 64 reserved ledger.owed.a) .ledgerInvariant
  let committed ← okOr (checkedAdd 64 first ledger.owed.b) .ledgerInvariant
  let unallocated ← okOr (checkedSub balance committed) .ledgerInvariant
  let share := unallocated / 2
  if share = 0 then .ok ledger
  else do
    let a ← okOr (checkedAdd 64 ledger.owed.a share) .ledgerInvariant
    let b ← okOr (checkedAdd 64 ledger.owed.b share) .ledgerInvariant
    let each ← okOr (checkedAdd 64 ledger.allocatedEach share) .ledgerInvariant
    .ok { ledger with owed := ⟨a, b⟩, allocatedEach := each }

/-- Moves what one side is owed to what it was paid. -/
def takeOwed (ledger : Ledger) (side : Side) : Except SplitterError (Ledger × Nat) := do
  let amount := ledger.owed.get side
  let paid ← okOr (checkedAdd 64 (ledger.paid.get side) amount) .ledgerInvariant
  .ok ({ ledger with owed := ledger.owed.set 0 side, paid := ledger.paid.set paid side }, amount)

/-! ## The chain -/

structure TokenAccount where
  mint : Pubkey
  owner : Pubkey
  amount : Nat
  delegate : Option Pubkey
  closeAuthority : Option Pubkey
  frozen : Bool
  deriving DecidableEq, Repr

/-- Constants of the build, the two derived addresses and the rent of the vault account. -/
structure Config where
  recipientA : Pubkey
  recipientB : Pubkey
  usdcMint : Pubkey
  vault : Pubkey
  vaultUsdc : Pubkey
  rent : Nat

/-- `received` is what came to the vault beyond the reserve. -/
structure Chain where
  vault : Option Vault
  lamports : Pubkey → Nat
  tokens : Pubkey → Option TokenAccount
  received : Asset → Nat

inductive Instruction where
  | initializeVault (recipientA recipientB : Pubkey) (funded : Bool)
  | allocateSol
  | allocateUsdc
  | paySol (side : Side) (recipient : Pubkey)
  | payUsdc (side : Side) (destination : Pubkey)
  | rotateRecipient (side : Side) (newRecipient current incoming : Pubkey)
  /-- A transfer to the vault. -/
  | receive (asset : Asset) (amount : Nat)
  /-- The mint's freeze authority acts on the vault's token account. -/
  | freeze (frozen : Bool)
  /-- Any change of accounts other than the vault's. -/
  | elsewhere (lamports : Pubkey → Nat) (tokens : Pubkey → Option TokenAccount)

variable (c : Config)

/-- The vault's USDC account as the ATA program makes it. -/
def Config.newAta : TokenAccount := ⟨c.usdcMint, c.vault, 0, none, none, false⟩

/-- Creates the vault's USDC account, or takes the one that is there. -/
def createIdempotent (s : Chain) : Except SplitterError TokenAccount :=
  match s.tokens c.vaultUsdc with
  | none => .ok c.newAta
  | some account => do
    ensure (account.mint = c.usdcMint ∧ account.owner = c.vault) .runtime
    .ok account

def initializeVault (s : Chain) (a b : Pubkey) (funded : Bool) : Except SplitterError Chain := do
  ensure (a = c.recipientA ∧ b = c.recipientB) .unauthorizedInitializer
  ensure (s.vault = none ∧ funded = true) .runtime
  ensure (c.recipientA ≠ 0 ∧ c.recipientB ≠ 0) .placeholderRecipients
  ensure (c.recipientA ≠ c.recipientB) .duplicateRecipient
  ensure (c.recipientA ≠ c.vault ∧ c.recipientA ≠ c.vaultUsdc) .invalidRecipient
  ensure (c.recipientB ≠ c.vault ∧ c.recipientB ≠ c.vaultUsdc) .invalidRecipient
  let account ← createIdempotent c s
  ensure (account.mint = c.usdcMint ∧ account.owner = c.vault ∧ account.delegate = none ∧
    account.closeAuthority = none) .invalidVaultTokenAccount
  -- the payer tops the vault account up to its rent
  let balance := max c.rent (s.lamports c.vault)
  .ok
    { vault := some ⟨⟨c.recipientA, c.recipientB⟩, .default, .default⟩
      lamports := Function.update s.lamports c.vault balance
      tokens := Function.update s.tokens c.vaultUsdc (some account)
      received := fun
        | .sol => balance - c.rent
        | .usdc => account.amount }

/-- The vault's USDC account, as Anchor's constraints ask for it. -/
def vaultUsdc (s : Chain) : Except SplitterError TokenAccount := do
  let account ← okOr (s.tokens c.vaultUsdc) .runtime
  ensure (account.mint = c.usdcMint ∧ account.owner = c.vault) .runtime
  .ok account

def allocateSol (s : Chain) : Except SplitterError Chain := do
  let vault ← okOr s.vault .runtime
  let ledger ← allocate vault.sol (s.lamports c.vault) c.rent
  .ok { s with vault := some { vault with sol := ledger } }

def allocateUsdc (s : Chain) : Except SplitterError Chain := do
  let vault ← okOr s.vault .runtime
  let account ← vaultUsdc c s
  let ledger ← allocate vault.usdc account.amount 0
  .ok { s with vault := some { vault with usdc := ledger } }

/-- After a payment the vault still holds what it owes. -/
def ensureCommitted (balance reserved : Nat) (ledger : Ledger) : Except SplitterError Unit := do
  let first ← okOr (checkedAdd 64 reserved ledger.owed.a) .ledgerInvariant
  let committed ← okOr (checkedAdd 64 first ledger.owed.b) .ledgerInvariant
  ensure (committed ≤ balance) .ledgerInvariant

def paySol (s : Chain) (side : Side) (recipient : Pubkey) : Except SplitterError Chain := do
  let vault ← okOr s.vault .runtime
  ensure (recipient = vault.recipients.get side) .wrongDestination
  let (ledger, amount) ← takeOwed vault.sol side
  let s := { s with vault := some { vault with sol := ledger } }
  if amount = 0 then .ok s
  else do
    let less ← okOr (checkedSub (s.lamports c.vault) amount) .runtime
    let lamports := Function.update s.lamports c.vault less
    let more ← okOr (checkedAdd 64 (lamports recipient) amount) .runtime
    let lamports := Function.update lamports recipient more
    ensureCommitted (lamports c.vault) c.rent ledger
    .ok { s with lamports := lamports }

def payUsdc (s : Chain) (side : Side) (destination : Pubkey) : Except SplitterError Chain := do
  let vault ← okOr s.vault .runtime
  let account ← vaultUsdc c s
  let target ← okOr (s.tokens destination) .runtime
  ensure (target.mint = c.usdcMint) .runtime
  ensure (target.owner = vault.recipients.get side) .wrongDestination
  ensure (destination ≠ c.vaultUsdc) .wrongDestination
  let (ledger, amount) ← takeOwed vault.usdc side
  let s := { s with vault := some { vault with usdc := ledger } }
  if amount = 0 then .ok s
  else do
    ensure (account.frozen = false ∧ target.frozen = false) .runtime
    let less ← okOr (checkedSub account.amount amount) .runtime
    let more ← okOr (checkedAdd 64 target.amount amount) .runtime
    ensureCommitted less 0 ledger
    .ok { s with
      tokens := Function.update
        (Function.update s.tokens c.vaultUsdc (some { account with amount := less }))
        destination (some { target with amount := more }) }

def rotateRecipient (s : Chain) (side : Side) (newRecipient current incoming : Pubkey) :
    Except SplitterError Chain := do
  let vault ← okOr s.vault .runtime
  ensure (current = vault.recipients.get side) .unauthorized
  ensure (incoming = newRecipient) .newRecipientMustSign
  ensure (newRecipient ≠ 0) .invalidRecipient
  ensure (newRecipient ≠ c.vault ∧ newRecipient ≠ c.vaultUsdc) .invalidRecipient
  ensure (newRecipient ≠ vault.recipients.get side.other) .duplicateRecipient
  ensure (newRecipient ≠ vault.recipients.get side) .sameRecipient
  .ok { s with vault := some { vault with recipients := vault.recipients.set newRecipient side } }

def receive (s : Chain) (asset : Asset) (amount : Nat) : Except SplitterError Chain :=
  let received := Function.update s.received asset (s.received asset + amount)
  match asset with
  | .sol => do
    let more ← okOr (checkedAdd 64 (s.lamports c.vault) amount) .runtime
    .ok { s with lamports := Function.update s.lamports c.vault more, received := received }
  | .usdc => do
    let account := (s.tokens c.vaultUsdc).getD c.newAta
    ensure (account.frozen = false) .runtime
    let more ← okOr (checkedAdd 64 account.amount amount) .runtime
    .ok { s with
      tokens := Function.update s.tokens c.vaultUsdc (some { account with amount := more })
      received := received }

def freeze (s : Chain) (frozen : Bool) : Except SplitterError Chain := do
  let account ← okOr (s.tokens c.vaultUsdc) .runtime
  .ok { s with
    tokens := Function.update s.tokens c.vaultUsdc (some { account with frozen := frozen }) }

def step (s : Chain) : Instruction → Except SplitterError Chain
  | .initializeVault a b funded => initializeVault c s a b funded
  | .allocateSol => allocateSol c s
  | .allocateUsdc => allocateUsdc c s
  | .paySol side recipient => paySol c s side recipient
  | .payUsdc side destination => payUsdc c s side destination
  | .rotateRecipient side newRecipient current incoming =>
    rotateRecipient c s side newRecipient current incoming
  | .receive asset amount => receive c s asset amount
  | .freeze frozen => freeze c s frozen
  | .elsewhere lamports tokens =>
    .ok { s with
      lamports := Function.update lamports c.vault (s.lamports c.vault)
      tokens := Function.update tokens c.vaultUsdc (s.tokens c.vaultUsdc) }

end ChainPay.Splitter
