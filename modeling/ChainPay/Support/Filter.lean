import ChainPay.Lib.Base58
import ChainPay.Lib.Checked
import ChainPay.Lib.Codec
import ChainPay.Lib.Wire

/-!
The support relay's look at a transaction before it is sent on (`convex/supportRpc.ts`): every
instruction calls a program that a tip uses, and one calls the support program.
-/

namespace ChainPay.Support
open ChainPay.Lib ChainPay.Lib.Wire

def SYSTEM : List Char := "11111111111111111111111111111111".toList
def TOKEN : List Char := "TokenkegQfeZyiNwAJbNbGKPFXCWuBvf9Ss623VQ5DA".toList
def ATA : List Char := "ATokenGPvbdGVxr1b2hvZbsiqW5xWH25efTNsLJA8knL".toList
def COMPUTE_BUDGET : List Char := "ComputeBudget111111111111111111111111111111".toList
def MEMO : List Char := "MemoSq4gqABAXKb96qnH8TysNcWxMyWCqXgDLGmfcHr".toList
def JUPITER : List Char := "JUP6LkbZbjS1jKKwapdHNy74zcZ3tLUZoi5QNyVTaV4".toList
def LIGHTHOUSE : List Char := "L2TExMFKdjpN9kozasaurPtAaCGqXGTDUDiKN3EuHHB".toList

/-- `allocate_sol`, `allocate_usdc`, `pay_sol` and `pay_usdc`. -/
def SUPPORT_IXS : List (List Char) :=
  ["0e10b886da012523".toList, "f72fe3dfcd8f9b38".toList, "83659a3225880d43".toList,
    "18013a5f085283dd".toList]

/-- `route` and `shared_accounts_route`. -/
def JUPITER_IXS : List (List Char) := ["e517cb977ae3ad2a".toList, "c1209b3341d69c81".toList]

/-- `base58`: the digits of the number so far, least significant first, take one byte after the
other. -/
def base58 (bytes : Bytes) : List Char :=
  let digits := (bytes.map UInt8.toNat).foldl (mulAdd 58 256) [0]
  let out := List.replicate (bytes.takeWhile (· = 0)).length '1'
  -- an all-zero key is only its leading ones
  if digits = [0] then out else out ++ digits.reverse.map digit58

def allowed (programId : List Char) : List (List Char) :=
  [SYSTEM, TOKEN, ATA, COMPUTE_BUDGET, MEMO, JUPITER, LIGHTHOUSE, programId]

local instance lawfulText : LawfulBEq (List Char) := inferInstance

/-- Why an instruction is not relayed, if it is not. -/
def refusal (programId : List Char) (program : Option (List Char)) (data : Bytes) :
    Option String :=
  match program with
  | none => some "calls a program a tip doesn't use"
  | some program =>
    let tag := toHex (data.take 8)
    if program = [] ∨ program ∉ allowed programId then some "calls a program a tip doesn't use"
    else if program = programId ∧ tag ∉ SUPPORT_IXS then some "unknown support instruction"
    else if program = JUPITER ∧ tag ∉ JUPITER_IXS then some "unknown swap instruction"
    else if program = SYSTEM ∧ ¬ (data.length = 12 ∧ data[0]? = some 2 ∧ data[1]? = some 0 ∧
        data[2]? = some 0 ∧ data[3]? = some 0) then some "unexpected system instruction"
    else if program = TOKEN ∧ ¬ (data[0]? = some 12 ∨ data[0]? = some 9) then
      some "unexpected token instruction"
    else none

def short {α : Type} (x : Option α) : Except String α := okOr x "not a transaction"

/-- The instructions in turn, with whether one has called the support program. -/
def checkInstructions (programId : List Char) (keys : List (List Char)) :
    Nat → Bytes → Bool → Except String Bool
  | 0, _, callsSupport => .ok callsSupport
  | count + 1, bs, callsSupport => do
    let (ix, rest) ← short (readInstruction bs)
    let program := keys[ix.program.toNat]?
    match refusal programId program ix.data with
    | some why => .error why
    | none => checkInstructions programId keys count rest (callsSupport || program = some programId)

/-- Why the bytes are no support transaction; none when they are one. -/
def checkSupportTransaction (bytes : Bytes) (programId : List Char) : Option String :=
  let result := do
    let rest ← short (skipSignatures bytes)
    let (_, rest) ← okOr (readVersion rest) "unsupported transaction version"
    let ((_, keys, count), rest) ← short (readHead rest)
    checkInstructions programId (keys.map base58) count rest false
  match result with
  | .ok true => none
  | .ok false => some "doesn't call the support program"
  | .error why => some why

/-! ## Addresses -/

/-- The digits that the encoder holds of a number: one zero for zero. -/
def held58 (n : Nat) : List Nat := if n = 0 then [0] else Nat.digits 58 n

theorem mulAdd_held58 (n b : Nat) : mulAdd 58 256 (held58 n) b = held58 (256 * n + b) := by
  unfold held58
  by_cases hn : n = 0
  · rw [if_pos hn, hn, Nat.mul_zero, Nat.zero_add, mulAdd, mulAdd, Nat.zero_mul, Nat.add_zero]
    by_cases hb : b = 0
    · rw [if_pos hb, hb]
      rfl
    · rw [if_neg hb, Nat.digits_eq_cons_digits_div (by decide) hb]
  · rw [if_neg hn, mulAdd_digits (by decide) (by decide), if_neg (by omega)]

theorem foldl_held58 (ds : List Nat) (n : Nat) :
    ds.foldl (mulAdd 58 256) (held58 n) = held58 (ds.foldl (fun n d => 256 * n + d) n) := by
  induction ds generalizing n with
  | nil => rfl
  | cons d ds ih => rw [List.foldl_cons, mulAdd_held58, ih, List.foldl_cons]

/-- The encoder writes base58. -/
theorem base58_eq (bytes : Bytes) : base58 bytes = toBase58 bytes := by
  have hdigits : (bytes.map UInt8.toNat).foldl (mulAdd 58 256) [0] =
      held58 (ofBeBytes bytes) := by
    have h := foldl_held58 (bytes.map UInt8.toNat) 0
    rwa [ofBeBytes_foldl, Nat.mul_zero, Nat.zero_add] at h
  unfold base58 toBase58
  rw [hdigits]
  dsimp only
  unfold held58
  by_cases hzero : ofBeBytes bytes = 0
  · rw [if_pos hzero, if_pos rfl, hzero, Nat.digits_zero]
    simp
  · rw [if_neg hzero]
    have hne : Nat.digits 58 (ofBeBytes bytes) ≠ [0] := by
      intro heq
      have hvalue := Nat.ofDigits_digits 58 (ofBeBytes bytes)
      rw [heq] at hvalue
      exact hzero hvalue.symm
    rw [if_neg hne]

theorem toBase58_ne_nil {bytes : Bytes} (h : bytes ≠ []) : toBase58 bytes ≠ [] := by
  obtain ⟨b, bs, rfl⟩ := List.exists_cons_of_ne_nil h
  intro hnil
  obtain ⟨hzeros, hdigits⟩ := List.append_eq_nil_iff.mp hnil
  have hnone : (b :: bs).takeWhile (· = 0) = [] := by
    rw [← List.length_eq_zero_iff]
    simpa using hzeros
  have hvalue : ofBeBytes (b :: bs) = 0 := by
    have hempty := List.reverse_eq_nil_iff.mp (List.map_eq_nil_iff.mp hdigits)
    exact Nat.digits_eq_nil_iff_eq_zero.mp hempty
  rw [ofBeBytes_cons] at hvalue
  have hb : b.toNat = 0 := by
    have hpow : 0 < 256 ^ bs.length := Nat.pow_pos (by decide)
    rcases Nat.mul_eq_zero.mp (Nat.eq_zero_of_add_eq_zero hvalue).2 with h | h
    · omega
    · exact h
  have hzero : b = 0 := UInt8.toNat_inj.mp hb
  rw [List.takeWhile_cons_of_pos (by simp [hzero])] at hnone
  cases hnone

/-! ## What a tip may call -/

/-- The tags of `allocate_sol`, `allocate_usdc`, `pay_sol` and `pay_usdc`. -/
def supportTags : List Bytes :=
  [[0x0e, 0x10, 0xb8, 0x86, 0xda, 0x01, 0x25, 0x23],
   [0xf7, 0x2f, 0xe3, 0xdf, 0xcd, 0x8f, 0x9b, 0x38],
   [0x83, 0x65, 0x9a, 0x32, 0x25, 0x88, 0x0d, 0x43],
   [0x18, 0x01, 0x3a, 0x5f, 0x08, 0x52, 0x83, 0xdd]]

/-- The tags of `route` and `shared_accounts_route`. -/
def routeTags : List Bytes :=
  [[0xe5, 0x17, 0xcb, 0x97, 0x7a, 0xe3, 0xad, 0x2a],
   [0xc1, 0x20, 0x9b, 0x33, 0x41, 0xd6, 0x9c, 0x81]]

example : supportTags = ["allocate_sol", "allocate_usdc", "pay_sol", "pay_usdc"].map
    fun name => (sha256 (ascii ("global:" ++ name))).take 8 := by decide +kernel

/-- An instruction of a tip: an allowed program, and an allowed instruction of it. -/
structure MayCall (programId address : List Char) (data : Bytes) : Prop where
  program : address ∈ allowed programId
  support : address = programId → data.take 8 ∈ supportTags
  swap : address = JUPITER → data.take 8 ∈ routeTags
  /-- A transfer of lamports. -/
  system : address = SYSTEM → ∃ lamports : Bytes, lamports.length = 8 ∧ data = [2, 0, 0, 0] ++ lamports
  /-- A checked transfer or the closing of an account. -/
  token : address = TOKEN → data.head? = some 12 ∨ data.head? = some 9

theorem mem_tags {tags : List Bytes} {texts : List (List Char)} (h : texts = tags.map toHex)
    (tag : Bytes) : toHex tag ∈ texts ↔ tag ∈ tags := by
  rw [h]
  exact List.mem_map_of_injective toHex_injective

theorem system_data (data : Bytes) :
    (data.length = 12 ∧ data[0]? = some 2 ∧ data[1]? = some 0 ∧ data[2]? = some 0 ∧
      data[3]? = some 0) ↔
      ∃ lamports : Bytes, lamports.length = 8 ∧ data = [2, 0, 0, 0] ++ lamports := by
  constructor
  · rintro ⟨hlen, h0, h1, h2, h3⟩
    match data, hlen with
    | a :: b :: c :: d :: rest, hlen =>
      cases h0
      cases h1
      cases h2
      cases h3
      refine ⟨rest, ?_, rfl⟩
      simp only [List.length_cons] at hlen
      omega
  · rintro ⟨lamports, hlen, rfl⟩
    exact ⟨by rw [List.length_append, hlen]; rfl, rfl, rfl, rfl, rfl⟩

theorem refusal_eq_none {programId : List Char} {program : Option (List Char)} {data : Bytes}
    (hne : program ≠ some []) :
    refusal programId program data = none ↔
      ∃ address, program = some address ∧ MayCall programId address data := by
  cases program with
  | none =>
    constructor
    · intro h
      cases h
    · rintro ⟨address, h, -⟩
      cases h
  | some address =>
    have hsupport : toHex (data.take 8) ∈ SUPPORT_IXS ↔ data.take 8 ∈ supportTags :=
      mem_tags (by decide) _
    have hswap : toHex (data.take 8) ∈ JUPITER_IXS ↔ data.take 8 ∈ routeTags :=
      mem_tags (by decide) _
    have htoken : data.head? = data[0]? := by
      cases data with
      | nil => rfl
      | cons b bs => rfl
    have hempty : address ≠ [] := fun h => hne (by rw [h])
    unfold refusal
    dsimp only
    constructor
    · intro h
      refine ⟨address, rfl, ?_⟩
      split at h
      · cases h
      · rename_i hprogram
        split at h
        · cases h
        · rename_i hs
          split at h
          · cases h
          · rename_i hj
            split at h
            · cases h
            · rename_i hsys
              split at h
              · cases h
              · rename_i htok
                rw [not_or, not_not] at hprogram
                rw [not_and_or, not_not] at hs hj hsys htok
                refine ⟨hprogram.2, fun heq => ?_, fun heq => ?_, fun heq => ?_, fun heq => ?_⟩
                · exact hsupport.mp (hs.resolve_left fun hne => hne heq)
                · exact hswap.mp (hj.resolve_left fun hne => hne heq)
                · exact (system_data data).mp (hsys.resolve_left fun hne => hne heq)
                · rw [htoken]
                  exact htok.resolve_left fun hne => hne heq
    · rintro ⟨_, heq, h⟩
      cases heq
      rw [if_neg (by rw [not_or, not_not]; exact ⟨hempty, h.program⟩),
        if_neg fun hbad => hbad.2 (hsupport.mpr (h.support hbad.1)),
        if_neg fun hbad => hbad.2 (hswap.mpr (h.swap hbad.1)),
        if_neg fun hbad => hbad.2 ((system_data data).mpr (h.system hbad.1)),
        if_neg fun hbad => hbad.2 (by rw [← htoken]; exact h.token hbad.1)]

/-! ## The filter and the wire format -/

section

variable {programId : List Char} {keys : List (List Char)}

theorem checkInstructions_succ (count : Nat) (bs : Bytes) (calls : Bool) :
    checkInstructions programId keys (count + 1) bs calls =
      match readInstruction bs with
      | none => .error "not a transaction"
      | some (ix, rest) =>
        match refusal programId keys[ix.program.toNat]? ix.data with
        | some why => .error why
        | none => checkInstructions programId keys count rest
          (calls || keys[ix.program.toNat]? = some programId) := by
  rw [checkInstructions]
  cases readInstruction bs with
  | none => rfl
  | some p => rfl

/-- Instructions that were written are all looked at. -/
theorem checkInstructions_bytes {ixs : List Instruction} (hfits : ∀ ix ∈ ixs, ix.Fits)
    (rest : Bytes) (calls result : Bool) :
    checkInstructions programId keys ixs.length (ixs.flatMap Instruction.bytes ++ rest) calls =
        .ok result ↔
      (∀ ix ∈ ixs, refusal programId keys[ix.program.toNat]? ix.data = none) ∧
        result = (calls || ixs.any fun ix => keys[ix.program.toNat]? = some programId) := by
  induction ixs generalizing calls with
  | nil =>
    rw [List.length_nil, checkInstructions, List.any_nil, Bool.or_false, Except.ok.injEq, eq_comm]
    exact ⟨fun h => ⟨fun ix hix => (nomatch hix), h⟩, fun h => h.2⟩
  | cons ix ixs ih =>
    rw [List.length_cons, checkInstructions_succ, List.flatMap_cons, List.append_assoc,
      readInstruction_bytes (hfits ix List.mem_cons_self)]
    dsimp only
    cases hwhy : refusal programId keys[ix.program.toNat]? ix.data with
    | some why =>
      constructor
      · intro h
        cases h
      · rintro ⟨hall, -⟩
        rw [hall ix List.mem_cons_self] at hwhy
        cases hwhy
    | none =>
      dsimp only
      rw [ih (fun ix' h => hfits ix' (List.mem_cons_of_mem _ h)), List.any_cons, Bool.or_assoc,
        List.forall_mem_cons]
      exact ⟨fun h => ⟨⟨hwhy, h.1⟩, h.2⟩, fun h => ⟨h.1.2, h.2⟩⟩

/-- Every instruction that can be read was looked at. -/
theorem refusal_of_checkInstructions {count : Nat} {bs : Bytes} {calls result : Bool}
    (h : checkInstructions programId keys count bs calls = .ok result) :
    ∀ ix ∈ instructionsFrom count bs, refusal programId keys[ix.program.toNat]? ix.data = none := by
  induction count generalizing bs calls with
  | zero => exact fun ix hix => nomatch hix
  | succ count ih =>
    rw [checkInstructions_succ] at h
    rw [instructionsFrom]
    cases hread : readInstruction bs with
    | none =>
      rw [hread] at h
      cases h
    | some p =>
      obtain ⟨ix, rest⟩ := p
      rw [hread] at h
      dsimp only at h ⊢
      cases hwhy : refusal programId keys[ix.program.toNat]? ix.data with
      | some why =>
        rw [hwhy] at h
        cases h
      | none =>
        rw [hwhy] at h
        intro ix' hix'
        rcases List.mem_cons.mp hix' with rfl | hix'
        · exact hwhy
        · exact ih h ix' hix'

end

theorem check_eq_none {bytes : Bytes} {programId : List Char} :
    checkSupportTransaction bytes programId = none ↔
      ∃ rest versioned body required keys count ixs, skipSignatures bytes = some rest ∧
        readVersion rest = some (versioned, body) ∧
        readHead body = some ((required, keys, count), ixs) ∧
        checkInstructions programId (keys.map base58) count ixs false = .ok true := by
  unfold checkSupportTransaction
  cases hskip : skipSignatures bytes with
  | none =>
    constructor
    · intro h
      cases h
    · rintro ⟨_, _, _, _, _, _, _, h, -⟩
      cases h
  | some rest =>
    cases hversion : readVersion rest with
    | none =>
      constructor
      · intro h
        simp only [short, okOr, ok_bind, hversion] at h
        cases h
      · rintro ⟨_, _, _, _, _, _, _, hskip', hversion', -⟩
        cases hskip'
        rw [hversion] at hversion'
        cases hversion'
    | some v =>
      obtain ⟨versioned, body⟩ := v
      cases hhead : readHead body with
      | none =>
        constructor
        · intro h
          simp only [short, okOr, ok_bind, hversion, hhead] at h
          cases h
        · rintro ⟨_, _, _, _, _, _, _, hskip', hversion', hhead', -⟩
          cases hskip'
          cases hversion.symm.trans hversion'
          rw [hhead] at hhead'
          cases hhead'
      | some p =>
        obtain ⟨⟨required, keys, count⟩, ixs⟩ := p
        simp only [short, okOr, ok_bind, hversion, hhead]
        constructor
        · intro h
          refine ⟨rest, versioned, body, required, keys, count, ixs, rfl, hversion, hhead, ?_⟩
          split at h
          · rename_i hok
            exact hok
          · cases h
          · cases h
        · rintro ⟨_, _, _, _, _, _, _, hskip', hversion', hhead', hcheck⟩
          cases hskip'
          cases hversion.symm.trans hversion'
          cases hhead.symm.trans hhead'
          rw [hcheck]

/-- **The filter agrees with the wire format.** It lets a transaction pass, whatever follows it,
exactly when each instruction calls an allowed program by an allowed tag and one calls the
support program; and of any bytes it lets pass, all instructions that can be read do so. Keys
have their own address each. -/
theorem support_filter_agrees (programId : List Char) :
    (∀ (t : Transaction) (rest : Bytes), t.Fits →
      (checkSupportTransaction (t.bytes ++ rest) programId = none ↔
        (∀ ix ∈ t.message.instructions, ∃ key, t.message.keys[ix.program.toNat]? = some key ∧
          MayCall programId (toBase58 key.bytes) ix.data) ∧
        ∃ ix ∈ t.message.instructions, ∃ key, t.message.keys[ix.program.toNat]? = some key ∧
          toBase58 key.bytes = programId)) ∧
      (∀ bytes, checkSupportTransaction bytes programId = none →
        ∀ p ∈ decodedPrefix bytes, ∃ key, p.1 = some key ∧
          MayCall programId (toBase58 key) p.2.data) ∧
      ∀ k k' : Key, toBase58 k.bytes = toBase58 k'.bytes → k = k' := by
  refine ⟨fun t rest h => ?_, fun bytes hpass => ?_, fun k k' heq => ?_⟩
  · have hkeys : ((t.message.keys.map Block.bytes).map base58) =
        t.message.keys.map fun key => toBase58 key.bytes := by
      rw [List.map_map]
      exact List.map_congr_left fun key _ => base58_eq key.bytes
    have hat : ∀ i : Nat, (t.message.keys.map fun key => toBase58 key.bytes)[i]? =
        (t.message.keys[i]?).map fun key => toBase58 key.bytes := fun i => List.getElem?_map
    have hall : ∀ ix : Instruction,
        refusal programId (t.message.keys.map fun key => toBase58 key.bytes)[ix.program.toNat]?
          ix.data = none ↔
        ∃ key, t.message.keys[ix.program.toNat]? = some key ∧
          MayCall programId (toBase58 key.bytes) ix.data := by
      intro ix
      rw [hat, refusal_eq_none]
      · cases t.message.keys[ix.program.toNat]? with
        | none => simp
        | some key => simp
      · cases t.message.keys[ix.program.toNat]? with
        | none => simp
        | some key =>
          intro heq
          exact toBase58_ne_nil key.ne_nil (Option.some.inj heq)
    have hsupport : (t.message.instructions.any fun ix =>
          (t.message.keys.map fun key => toBase58 key.bytes)[ix.program.toNat]? =
            some programId) = true ↔
        ∃ ix ∈ t.message.instructions, ∃ key, t.message.keys[ix.program.toNat]? = some key ∧
          toBase58 key.bytes = programId := by
      rw [List.any_eq_true]
      simp only [hat, decide_eq_true_eq, Option.map_eq_some_iff]
    rw [check_eq_none]
    constructor
    · rintro ⟨_, _, _, _, _, _, _, hskip, hversion, hhead, hcheck⟩
      rw [skipSignatures_bytes h] at hskip
      cases hskip
      rw [readVersion_bytes h] at hversion
      cases hversion
      rw [readHead_body h] at hhead
      cases hhead
      rw [hkeys, checkInstructions_bytes h.each, Bool.false_or] at hcheck
      exact ⟨fun ix hix => (hall ix).mp (hcheck.1 ix hix), hsupport.mp hcheck.2.symm⟩
    · rintro ⟨hcalls, hone⟩
      refine ⟨_, _, _, _, _, _, _, skipSignatures_bytes h rest, readVersion_bytes h rest,
        readHead_body h rest, ?_⟩
      rw [hkeys, checkInstructions_bytes h.each, Bool.false_or]
      exact ⟨fun ix hix => (hall ix).mpr (hcalls ix hix), (hsupport.mpr hone).symm⟩
  · obtain ⟨rest, versioned, body, required, keys, count, ixs, hskip, hversion, hhead, hcheck⟩ :=
      check_eq_none.mp hpass
    intro p hp
    unfold decodedPrefix at hp
    rw [hskip, Option.bind_some, hversion] at hp
    dsimp only at hp
    rw [hhead] at hp
    obtain ⟨ix, hix, rfl⟩ := List.mem_map.mp hp
    have hnone := refusal_of_checkInstructions hcheck ix hix
    rw [List.getElem?_map] at hnone
    cases hkey : keys[ix.program.toNat]? with
    | none =>
      rw [hkey] at hnone
      cases hnone
    | some key =>
      have hlength := readHead_keys hhead key (List.mem_of_getElem? hkey)
      have hne : key ≠ [] := by
        rintro rfl
        cases hlength
      rw [hkey, Option.map_some, base58_eq,
        refusal_eq_none fun heq => toBase58_ne_nil hne (Option.some.inj heq)] at hnone
      obtain ⟨address, haddress, hcall⟩ := hnone
      cases haddress
      exact ⟨key, rfl, hcall⟩
  · obtain ⟨bytes, hbytes⟩ := k
    obtain ⟨bytes', hbytes'⟩ := k'
    cases toBase58_inj (hbytes.trans hbytes'.symm) heq
    rfl

/-! ### A tip -/

/-- Lamports go to an account, and the support program allocates them. -/
def sampleMessage : Message where
  lookups := none
  required := 1
  readonlySigned := 0
  readonlyUnsigned := 2
  keys := [Block.filled 32 7, Block.filled 32 9, Block.filled 32 0]
  blockhash := Block.filled 32 1
  instructions :=
    [⟨2, [0, 1], [2, 0, 0, 0, 5, 0, 0, 0, 0, 0, 0, 0]⟩,
      ⟨1, [0], [0x0e, 0x10, 0xb8, 0x86, 0xda, 0x01, 0x25, 0x23, 5, 0, 0, 0, 0, 0, 0, 0]⟩]

def sampleTransaction : Transaction := ⟨[Block.filled 64 3], sampleMessage⟩

def sampleProgram : List Char := toBase58 (Block.filled 32 9).bytes

theorem sampleTransaction_fits : sampleTransaction.Fits where
  signatures := by decide
  keys := by decide
  instructions := by decide
  each := by
    intro ix hix
    rcases List.mem_pair.mp hix with rfl | rfl
    · exact ⟨by decide, by decide⟩
    · exact ⟨by decide, by decide⟩
  legacy := fun _ => by decide
  lookups := by
    rintro ls ⟨⟩

theorem sample_calls : ∀ ix ∈ sampleMessage.instructions, ∃ key,
    sampleMessage.keys[ix.program.toNat]? = some key ∧
      MayCall sampleProgram (toBase58 key.bytes) ix.data := by
  have hzero : toBase58 (Block.filled 32 0).bytes = SYSTEM := by decide +kernel
  have hnine : sampleProgram ≠ SYSTEM ∧ sampleProgram ≠ JUPITER ∧ sampleProgram ≠ TOKEN := by
    decide +kernel
  obtain ⟨hsystem, hswap, htoken⟩ := hnine
  intro ix hix
  rcases List.mem_pair.mp hix with rfl | rfl
  · refine ⟨_, rfl, ?_⟩
    rw [hzero]
    exact ⟨List.mem_cons_self, fun h => absurd h.symm hsystem, fun h => absurd h (by decide),
      fun _ => ⟨[5, 0, 0, 0, 0, 0, 0, 0], rfl, rfl⟩, fun h => absurd h (by decide)⟩
  · refine ⟨_, rfl, ?_⟩
    exact ⟨by simp [allowed, sampleProgram], fun _ => by decide, fun h => absurd h hswap,
      fun h => absurd h hsystem, fun h => absurd h htoken⟩

theorem support_filter_agrees_sample :
    checkSupportTransaction (sampleTransaction.bytes ++ [0]) sampleProgram = none :=
  ((support_filter_agrees sampleProgram).1 sampleTransaction [0] sampleTransaction_fits).mpr
    ⟨sample_calls, _, List.mem_cons_of_mem _ List.mem_cons_self, _, rfl, rfl⟩

end ChainPay.Support
