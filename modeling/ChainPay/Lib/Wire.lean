import ChainPay.Lib.Bytes

/-!
The wire format of Solana transactions, legacy and version 0: counts of one to three bytes,
signatures, and a message of keys, a block hash and instructions that name keys by their index.
Readers take a byte string from its start and answer with what is left.
-/

namespace ChainPay.Lib.Wire
open ChainPay.Lib

/-! ## Counts -/

/-- A count below 2^16 in its shortest form: seven bits a byte, the low ones first. -/
def compact (n : Nat) : Bytes :=
  if n < 128 then [UInt8.ofNat n]
  else if n < 16384 then [UInt8.ofNat (n % 128 + 128), UInt8.ofNat (n / 128)]
  else [UInt8.ofNat (n % 128 + 128), UInt8.ofNat (n / 128 % 128 + 128), UInt8.ofNat (n / 16384)]

def readByte : Bytes → Option (UInt8 × Bytes)
  | [] => none
  | b :: bs => some (b, bs)

def readBytes (n : Nat) (bs : Bytes) : Option (Bytes × Bytes) :=
  if n ≤ bs.length then some (bs.take n, bs.drop n) else none

/-- A count in up to `groups` bytes, in any form. -/
def readGroups : Nat → Bytes → Option (Nat × Bytes)
  | 0, _ => none
  | groups + 1, bs => do
    let (b, rest) ← readByte bs
    if b.toNat < 128 then some (b.toNat, rest)
    else
      let (high, rest) ← readGroups groups rest
      some (b.toNat - 128 + 128 * high, rest)

/-- A count as readers take it, which is at most 21 bits. -/
def readCompact (bs : Bytes) : Option (Nat × Bytes) := readGroups 3 bs

@[simp] theorem readByte_cons (b : UInt8) (bs : Bytes) : readByte (b :: bs) = some (b, bs) := rfl

theorem readBytes_append (as bs : Bytes) : readBytes as.length (as ++ bs) = some (as, bs) := by
  rw [readBytes, if_pos (by rw [List.length_append]; omega), List.take_left, List.drop_left]

theorem readBytes_eq_some {n : Nat} {bs taken rest : Bytes}
    (h : readBytes n bs = some (taken, rest)) : bs = taken ++ rest ∧ taken.length = n := by
  unfold readBytes at h
  split at h
  · rename_i hn
    cases h
    exact ⟨(List.take_append_drop n bs).symm, by rw [List.length_take]; omega⟩
  · cases h

theorem toNat_ofNat_lt {n : Nat} (h : n < 256) : (UInt8.ofNat n).toNat = n := by
  have hmod : (UInt8.ofNat n).toNat = n % 256 := UInt8.toNat_ofNat'
  rw [hmod, Nat.mod_eq_of_lt h]

theorem readGroups_last {groups : Nat} {b : UInt8} (h : b.toNat < 128) (bs : Bytes) :
    readGroups (groups + 1) (b :: bs) = some (b.toNat, bs) := by
  rw [readGroups, readByte_cons, Option.bind_eq_bind, Option.bind_some]
  exact if_pos h

theorem readGroups_more {groups : Nat} {b : UInt8} (h : 128 ≤ b.toNat) (bs : Bytes) :
    readGroups (groups + 1) (b :: bs) =
      (readGroups groups bs).map fun p => (b.toNat - 128 + 128 * p.1, p.2) := by
  rw [readGroups, readByte_cons, Option.bind_eq_bind, Option.bind_some]
  dsimp only
  rw [if_neg (by omega)]
  cases readGroups groups bs with
  | none => rfl
  | some p => rfl

/-- The shortest form of a count is read back. -/
theorem readCompact_compact {n : Nat} (h : n < 2 ^ 16) (rest : Bytes) :
    readCompact (compact n ++ rest) = some (n, rest) := by
  unfold readCompact compact
  by_cases hone : n < 128
  · have hbyte := toNat_ofNat_lt (show n < 256 by omega)
    rw [if_pos hone, List.singleton_append, readGroups_last (by omega), hbyte]
  · rw [if_neg hone]
    have hlow := toNat_ofNat_lt (show n % 128 + 128 < 256 by omega)
    by_cases htwo : n < 16384
    · have hhigh := toNat_ofNat_lt (show n / 128 < 256 by omega)
      rw [if_pos htwo, List.cons_append, List.singleton_append, readGroups_more (by omega),
        readGroups_last (by omega), hlow, hhigh, Option.map_some]
      have hsum : n % 128 + 128 - 128 + 128 * (n / 128) = n := by omega
      rw [hsum]
    · have hmiddle := toNat_ofNat_lt (show n / 128 % 128 + 128 < 256 by omega)
      have hhigh := toNat_ofNat_lt (show n / 16384 < 256 by omega)
      rw [if_neg htwo, List.cons_append, List.cons_append, List.singleton_append,
        readGroups_more (by omega), readGroups_more (by omega), readGroups_last (by omega), hlow,
        hmiddle, hhigh, Option.map_some, Option.map_some]
      have hsum : n % 128 + 128 - 128 + 128 * (n / 128 % 128 + 128 - 128 + 128 * (n / 16384)) = n := by
        omega
      rw [hsum]

/-! ## Transactions -/

/-- So many bytes. -/
structure Block (size : Nat) where
  bytes : Bytes
  length_eq : bytes.length = size
  deriving DecidableEq, Repr

/-- The same byte throughout. -/
def Block.filled (size : Nat) (b : UInt8) : Block size := ⟨List.replicate size b, List.length_replicate⟩

abbrev Key := Block 32

theorem Block.ne_nil {size : Nat} (b : Block (size + 1)) : b.bytes ≠ [] := by
  intro hnil
  have h := b.length_eq
  rw [hnil] at h
  cases h

/-- An instruction: the index of its program, the indices of its accounts, and its data. -/
structure Instruction where
  program : UInt8
  accounts : Bytes
  data : Bytes
  deriving DecidableEq, Repr

/-- Addresses that a message takes from a table. -/
structure Lookup where
  table : Key
  writable : Bytes
  readonly : Bytes
  deriving DecidableEq, Repr

structure Message where
  /-- The lookups of a message of version 0. -/
  lookups : Option (List Lookup)
  required : UInt8
  readonlySigned : UInt8
  readonlyUnsigned : UInt8
  keys : List Key
  blockhash : Key
  instructions : List Instruction
  deriving DecidableEq, Repr

structure Transaction where
  signatures : List (Block 64)
  message : Message
  deriving DecidableEq, Repr

def Instruction.bytes (ix : Instruction) : Bytes :=
  ix.program :: (compact ix.accounts.length ++ ix.accounts ++ (compact ix.data.length ++ ix.data))

def Lookup.bytes (l : Lookup) : Bytes :=
  l.table.bytes ++ (compact l.writable.length ++ l.writable ++
    (compact l.readonly.length ++ l.readonly))

def Message.tail (m : Message) : Bytes :=
  match m.lookups with
  | none => []
  | some ls => compact ls.length ++ ls.flatMap Lookup.bytes

def Message.bytes (m : Message) : Bytes :=
  (if m.lookups.isSome then [0x80] else []) ++
    m.required :: m.readonlySigned :: m.readonlyUnsigned ::
      (compact m.keys.length ++ (m.keys.flatMap Block.bytes ++ (m.blockhash.bytes ++
        (compact m.instructions.length ++ (m.instructions.flatMap Instruction.bytes ++ m.tail)))))

def Transaction.bytes (t : Transaction) : Bytes :=
  compact t.signatures.length ++ (t.signatures.flatMap Block.bytes ++ t.message.bytes)

/-- What the format can hold: counts below 2^16, and no more signers than leave the first byte of a
legacy message below 128. -/
structure Instruction.Fits (ix : Instruction) : Prop where
  accounts : ix.accounts.length < 2 ^ 16
  data : ix.data.length < 2 ^ 16

structure Lookup.Fits (l : Lookup) : Prop where
  writable : l.writable.length < 2 ^ 16
  readonly : l.readonly.length < 2 ^ 16

structure Transaction.Fits (t : Transaction) : Prop where
  signatures : t.signatures.length < 2 ^ 16
  keys : t.message.keys.length < 2 ^ 16
  instructions : t.message.instructions.length < 2 ^ 16
  each : ∀ ix ∈ t.message.instructions, ix.Fits
  legacy : t.message.lookups = none → t.message.required.toNat < 128
  lookups : ∀ ls, t.message.lookups = some ls → ls.length < 2 ^ 16 ∧ ∀ l ∈ ls, l.Fits

/-! ## Reading -/

section

variable {α β : Type} (read : Bytes → Option (β × Bytes))

/-- So many in a row. -/
def readMany : Nat → Bytes → Option (List β × Bytes)
  | 0, bs => some ([], bs)
  | n + 1, bs => do
    let (x, rest) ← read bs
    let (xs, rest) ← readMany n rest
    some (x :: xs, rest)

theorem readMany_succ (n : Nat) (bs : Bytes) :
    readMany read (n + 1) bs = (read bs).bind fun p =>
      (readMany read n p.2).map fun q => (p.1 :: q.1, q.2) := by
  rw [readMany]
  cases read bs with
  | none => rfl
  | some p =>
    obtain ⟨x, rest⟩ := p
    change (readMany read n rest).bind _ = (readMany read n rest).map _
    cases readMany read n rest with
    | none => rfl
    | some q => rfl

/-- What was written one by one is read. -/
theorem readMany_flatMap {xs : List α} {f : α → Bytes} {g : α → β}
    (h : ∀ x ∈ xs, ∀ rest, read (f x ++ rest) = some (g x, rest)) (rest : Bytes) :
    readMany read xs.length (xs.flatMap f ++ rest) = some (xs.map g, rest) := by
  induction xs with
  | nil => rfl
  | cons x xs ih =>
    rw [List.length_cons, readMany_succ, List.flatMap_cons, List.append_assoc,
      h x List.mem_cons_self, Option.bind_some, ih fun y hy => h y (List.mem_cons_of_mem _ hy)]
    rfl

/-- What holds of all that is read holds of the members of a row. -/
theorem readMany_forall {P : β → Prop} (h : ∀ bs x rest, read bs = some (x, rest) → P x) {n : Nat}
    {bs rest : Bytes} {xs : List β} (hread : readMany read n bs = some (xs, rest)) :
    ∀ x ∈ xs, P x := by
  induction n generalizing bs xs with
  | zero =>
    cases hread
    exact fun x hx => nomatch hx
  | succ n ih =>
    rw [readMany_succ] at hread
    obtain ⟨⟨x, more⟩, hx, hread⟩ := Option.bind_eq_some_iff.mp hread
    obtain ⟨⟨ys, last⟩, hys, heq⟩ := Option.map_eq_some_iff.mp hread
    cases heq
    intro y hy
    rcases List.mem_cons.mp hy with rfl | hy
    · exact h _ _ _ hx
    · exact ih hys y hy

end

/-- Past the signatures. -/
def skipSignatures (bs : Bytes) : Option Bytes := do
  let (n, rest) ← readCompact bs
  let (_, rest) ← readBytes (n * 64) rest
  some rest

/-- Whether a message is of version 0; none for other versions. -/
def readVersion (bs : Bytes) : Option (Bool × Bytes) :=
  match bs with
  | [] => some (false, [])
  | b :: rest =>
    if b.toNat < 128 then some (false, bs) else if b = 0x80 then some (true, rest) else none

/-- A message up to its instructions: the number of signers, the keys and the number of
instructions. -/
def readHead (bs : Bytes) : Option ((UInt8 × List Bytes × Nat) × Bytes) := do
  let (required, rest) ← readByte bs
  let (_, rest) ← readByte rest
  let (_, rest) ← readByte rest
  let (n, rest) ← readCompact rest
  let (keys, rest) ← readMany (readBytes 32) n rest
  let (_, rest) ← readBytes 32 rest
  let (count, rest) ← readCompact rest
  some ((required, keys, count), rest)

def readInstruction (bs : Bytes) : Option (Instruction × Bytes) := do
  let (program, rest) ← readByte bs
  let (n, rest) ← readCompact rest
  let (accounts, rest) ← readBytes n rest
  let (n, rest) ← readCompact rest
  let (data, rest) ← readBytes n rest
  some (⟨program, accounts, data⟩, rest)

theorem readBlock {size : Nat} (b : Block size) (rest : Bytes) :
    readBytes size (b.bytes ++ rest) = some (b.bytes, rest) := by
  have h := readBytes_append b.bytes rest
  rwa [b.length_eq] at h

theorem readInstruction_bytes {ix : Instruction} (h : ix.Fits) (rest : Bytes) :
    readInstruction (ix.bytes ++ rest) = some (ix, rest) := by
  unfold readInstruction Instruction.bytes
  rw [List.cons_append, readByte_cons, Option.bind_eq_bind, Option.bind_some]
  dsimp only
  rw [List.append_assoc, List.append_assoc, readCompact_compact h.accounts, Option.bind_eq_bind,
    Option.bind_some]
  dsimp only
  rw [readBytes_append, Option.bind_eq_bind, Option.bind_some]
  dsimp only
  rw [List.append_assoc, readCompact_compact h.data, Option.bind_some]
  dsimp only
  rw [readBytes_append]
  rfl

theorem flatMap_block_length {size : Nat} (bs : List (Block size)) :
    (bs.flatMap Block.bytes).length = bs.length * size := by
  induction bs with
  | nil => simp
  | cons b bs ih => rw [List.flatMap_cons, List.length_append, ih, b.length_eq, List.length_cons,
      Nat.add_mul, Nat.one_mul, Nat.add_comm]

theorem skipSignatures_bytes {t : Transaction} (h : t.Fits) (rest : Bytes) :
    skipSignatures (t.bytes ++ rest) = some (t.message.bytes ++ rest) := by
  unfold skipSignatures Transaction.bytes
  rw [List.append_assoc, readCompact_compact h.signatures, Option.bind_eq_bind, Option.bind_some]
  dsimp only
  rw [List.append_assoc, ← flatMap_block_length, readBytes_append]
  rfl

/-- A message without its version. -/
def Message.body (m : Message) : Bytes :=
  m.required :: m.readonlySigned :: m.readonlyUnsigned ::
    (compact m.keys.length ++ (m.keys.flatMap Block.bytes ++ (m.blockhash.bytes ++
      (compact m.instructions.length ++ (m.instructions.flatMap Instruction.bytes ++ m.tail)))))

theorem readVersion_bytes {t : Transaction} (h : t.Fits) (rest : Bytes) :
    readVersion (t.message.bytes ++ rest) =
      some (t.message.lookups.isSome, t.message.body ++ rest) := by
  unfold Message.bytes
  cases hlookups : t.message.lookups with
  | some ls => rfl
  | none =>
    have hlegacy := h.legacy hlookups
    change readVersion (t.message.required :: _) = _
    rw [readVersion, if_pos hlegacy]
    rfl

theorem readHead_body {t : Transaction} (h : t.Fits) (rest : Bytes) :
    readHead (t.message.body ++ rest) =
      some ((t.message.required, t.message.keys.map Block.bytes, t.message.instructions.length),
        t.message.instructions.flatMap Instruction.bytes ++ (t.message.tail ++ rest)) := by
  unfold readHead Message.body
  simp only [List.cons_append, readByte_cons, Option.bind_eq_bind, Option.bind_some]
  rw [List.append_assoc, readCompact_compact h.keys, Option.bind_some]
  dsimp only
  rw [List.append_assoc,
    readMany_flatMap (readBytes 32) (g := Block.bytes) fun b _ rest => readBlock b rest,
    Option.bind_some]
  dsimp only
  rw [List.append_assoc, readBlock, Option.bind_some]
  dsimp only
  rw [List.append_assoc, readCompact_compact h.instructions, Option.bind_some, List.append_assoc]

theorem readHead_keys {bs rest : Bytes} {required : UInt8} {keys : List Bytes} {count : Nat}
    (h : readHead bs = some ((required, keys, count), rest)) : ∀ key ∈ keys, key.length = 32 := by
  unfold readHead at h
  obtain ⟨⟨_, _⟩, -, h⟩ := Option.bind_eq_some_iff.mp h
  obtain ⟨⟨_, _⟩, -, h⟩ := Option.bind_eq_some_iff.mp h
  obtain ⟨⟨_, _⟩, -, h⟩ := Option.bind_eq_some_iff.mp h
  obtain ⟨⟨_, _⟩, -, h⟩ := Option.bind_eq_some_iff.mp h
  obtain ⟨⟨_, _⟩, hkeys, h⟩ := Option.bind_eq_some_iff.mp h
  obtain ⟨⟨_, _⟩, -, h⟩ := Option.bind_eq_some_iff.mp h
  obtain ⟨⟨_, _⟩, -, h⟩ := Option.bind_eq_some_iff.mp h
  cases h
  exact readMany_forall (readBytes 32) (fun _ _ _ hread => (readBytes_eq_some hread).2) hkeys

/-- As many instructions as can be read. -/
def instructionsFrom : Nat → Bytes → List Instruction
  | 0, _ => []
  | n + 1, bs =>
    match readInstruction bs with
    | none => []
    | some (ix, rest) => ix :: instructionsFrom n rest

/-- The instructions that can be read off a byte string, each with the key of its program. -/
def decodedPrefix (bs : Bytes) : List (Option Bytes × Instruction) :=
  match (skipSignatures bs).bind readVersion with
  | none => []
  | some (_, rest) =>
    match readHead rest with
    | none => []
    | some ((_, keys, count), rest) =>
      (instructionsFrom count rest).map fun ix => (keys[ix.program.toNat]?, ix)

end ChainPay.Lib.Wire
