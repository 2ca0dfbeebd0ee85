import ChainPay.Signing.BuiltTransaction

/-!
What an accepted transaction can take from the owner. `Bounded` says it in terms of the programs
that would run it: the System Program's instructions, and the layouts of Ephemeral SPL Token. The
SDK's check ensures all of it but what `Trusted` names.
-/

namespace ChainPay.Signing
open ChainPay.Lib ChainPay.Lib.Wire

/-! ## The decoder and the wire format -/

/-- A transaction with its keys in place of their indices; none where it uses lookup tables or an
index out of range. -/
def resolved (t : Transaction) : Option DecodedTransaction :=
  let keys := t.message.keys.map fun key => base58 key.bytes
  if t.message.lookups.getD [] = [] then
    (t.message.instructions.mapM (resolve keys)).map fun ixs =>
      ⟨keys.take t.message.required.toNat, ixs⟩
  else none

theorem readResolved_bytes {keys : List Address} {ix : Instruction} (h : ix.Fits) (rest : Bytes) :
    readResolved keys (ix.bytes ++ rest) = (resolve keys ix).map fun x => (x, rest) := by
  unfold readResolved
  rw [readInstruction_bytes h, Option.bind_eq_bind, Option.bind_some]
  dsimp only
  cases resolve keys ix with
  | none => rfl
  | some x => rfl

theorem readMany_resolved (keys : List Address) {ixs : List Instruction}
    (hfits : ∀ ix ∈ ixs, ix.Fits) (rest : Bytes) :
    readMany (readResolved keys) ixs.length (ixs.flatMap Instruction.bytes ++ rest) =
      (ixs.mapM (resolve keys)).map fun xs => (xs, rest) := by
  induction ixs with
  | nil => rfl
  | cons ix ixs ih =>
    rw [List.length_cons, readMany_succ, List.flatMap_cons, List.append_assoc,
      readResolved_bytes (hfits ix List.mem_cons_self), List.mapM_cons]
    cases resolve keys ix with
    | none => rfl
    | some x =>
      rw [Option.map_some, Option.bind_some, ih fun y hy => hfits y (List.mem_cons_of_mem _ hy)]
      cases ixs.mapM (resolve keys) with
      | none => rfl
      | some xs => rfl

theorem readNoLookups_tail {t : Transaction} (h : t.Fits) :
    (readNoLookups t.message.lookups.isSome t.message.tail).bind (fun rest =>
      if rest ≠ [] then none else some ()) =
      if t.message.lookups.getD [] = [] then some () else none := by
  unfold readNoLookups Message.tail
  cases hlookups : t.message.lookups with
  | none => rfl
  | some ls =>
    have hcount := readCompact_compact (h.lookups ls hlookups).1 (ls.flatMap Lookup.bytes)
    dsimp only [Option.isSome_some, Option.getD_some]
    rw [if_pos rfl, hcount]
    cases ls with
    | nil => rfl
    | cons l ls => rfl

/-- The decoder reads what the wire format wrote. -/
theorem decodeBuiltTransaction_bytes {t : Transaction} (h : t.Fits) {text : List Char}
    (htext : atob text = some t.bytes) : decodeBuiltTransaction text = resolved t := by
  have hskip := skipSignatures_bytes h []
  have hversion := readVersion_bytes h []
  have hhead := readHead_body h []
  have htail := readNoLookups_tail h
  have hmany := readMany_resolved (t.message.keys.map fun key => base58 key.bytes) h.each
    t.message.tail
  rw [List.append_nil, List.append_nil] at hskip hversion
  rw [List.append_nil, List.append_nil] at hhead
  have hkeys : (t.message.keys.map Block.bytes).map base58 =
      t.message.keys.map fun key => base58 key.bytes := by
    rw [List.map_map]
    rfl
  unfold decodeBuiltTransaction
  simp only [htext, hskip, hversion, hhead, Option.bind_eq_bind, Option.bind_some, hkeys, hmany]
  unfold resolved
  dsimp only
  cases (t.message.instructions.mapM (resolve (t.message.keys.map fun key => base58 key.bytes))) with
  | none => split <;> rfl
  | some ixs =>
    rw [Option.map_some, Option.bind_some, Option.map_some]
    dsimp only
    cases hread : readNoLookups t.message.lookups.isSome t.message.tail with
    | none =>
      rw [hread, Option.bind_none] at htail
      split at htail
      · cases htail
      · rename_i hne
        rw [if_neg hne, Option.bind_none]
    | some rest =>
      rw [hread, Option.bind_some] at htail
      rw [Option.bind_some]
      by_cases hempty : t.message.lookups.getD [] = []
      · rw [if_pos hempty] at htail ⊢
        by_cases hrest : rest = []
        · rw [if_neg (not_not_intro hrest)]
        · rw [if_pos hrest] at htail
          cases htail
      · rw [if_neg hempty] at htail ⊢
        by_cases hrest : rest = []
        · rw [if_neg (not_not_intro hrest)] at htail
          cases htail
        · rw [if_pos hrest]

/-! ## What the programs would move -/

/-- The lamports that an instruction of the System Program moves out of an account: `CreateAccount`,
`Transfer`, `CreateAccountWithSeed`, `WithdrawNonceAccount` and `TransferWithSeed`. The others move
none. -/
def systemLamports (data : Bytes) : Nat :=
  let number (offset : Nat) := ofLeBytes ((data.drop offset).take 8)
  let lamports (offset after : Nat) :=
    if offset + 8 + after ≤ data.length then number offset else 0
  if data.length < 4 then 0
  else match ofLeBytes (data.take 4) with
    | 0 => lamports 4 40
    | 2 => lamports 4 0
    -- The base's key, and a seed after its length, come before the lamports.
    | 3 => lamports (44 + number 36) 40
    | 5 => lamports 4 0
    | 11 => lamports 4 (40 + number 12)
    | _ => 0

/-- Whose lamports these are, by the positions of the accounts: the funding account's, the nonce
account's or its authority's, and those of the base that the funding account is derived from. -/
def fundedBy (data : Bytes) : List Nat :=
  match ofLeBytes (data.take 4) with
  | 5 => [0, 4]
  | 11 => [1]
  | _ => [0]

/-- What an instruction of the System Program takes from the owner. -/
def taken (owner : Address) (ix : DecodedInstruction) : Nat :=
  if ix.programId = SYSTEM_PROGRAM ∧ ∃ i ∈ fundedBy ix.data, ix.accounts[i]? = some owner then
    systemLamports ix.data
  else 0

def takenBy (owner : Address) (ixs : List DecodedInstruction) : Nat := (ixs.map (taken owner)).sum

/-- Ephemeral SPL Token: the account of an owner's private balance in a mint, and the owner of the
balance that an encrypted destination names. -/
class EphemeralSpl where
  balanceAccount : Address → Address → Option Address
  destination : DecodedInstruction → Option Address

/-- The amount of an amount-bearing instruction, and its mint. -/
def moved (ix : DecodedInstruction) : Option Nat × Option Address :=
  match ix.data.head? with
  | some 2 => (u64 ix.data 1, ix.accounts[2]?)
  | some 16 => (u64 ix.data 1, ix.accounts[2]?)
  | some 24 => (u64 ix.data 5, ix.accounts[14]?)
  | some 34 => (u64 ix.data 5, ix.accounts[13]?)
  | _ => (none, none)

/-- A payment to a wallet under a reference, which ends its data. -/
structure PaysTo (ix : DecodedInstruction) (wallet : Address) (reference : Nat) : Prop where
  tag : ix.data.head? = some 16
  length : ix.data.length = 40 ∨ ix.data.length = 41
  destination : ix.accounts[5]? = some wallet
  clientRefId : u64 ix.data (ix.data.length - 8) = some reference

def Agree {α : Type} (x y : Option α) : Prop := ∃ a, x = some a ∧ y = some a

/-- A deposit into a balance of the owner's: a private one, that of their token account, or an
encrypted one. -/
def CreditsOwner [Web3] [EphemeralSpl] (owner mint : Address) (ix : DecodedInstruction) : Prop :=
  match ix.data.head? with
  | some 2 => Agree ix.accounts[0]? (EphemeralSpl.balanceAccount owner mint)
  | some 24 => Agree ix.accounts[13]? (associatedTokenAccount owner mint false)
  | some 34 => EphemeralSpl.destination ix = some owner
  | _ => False

/-- Instructions of Ephemeral SPL Token that bear no amount. -/
def SETUP_TAGS : List UInt8 := [0, 1, 4, 6, 7, 11, 13, 17]

section

variable [Web3] [EphemeralSpl]

/-- What the owner signs is bounded. -/
structure Bounded (tx : DecodedTransaction) (expect : Expect) : Prop where
  signers : tx.signers = [expect.owner]
  lamports : takenBy expect.owner tx.instructions ≤ MAX_LAMPORTS
  /-- One amount, and nothing else of Ephemeral SPL Token but instructions without one. -/
  one : ∃ move, tx.instructions.filter isMove = [move] ∧
    (∃ amount : Nat, moved move = (some amount, some expect.mint) ∧
      (amount : Int) = expect.amountBaseUnits) ∧
    match expect.kind with
    | .transfer => ∃ wallet reference, expect.recipientWallet = some wallet ∧
      expect.clientRefId = some (decimal reference) ∧ PaysTo move wallet reference
    | .deposit => CreditsOwner expect.owner expect.mint move
  setup : ∀ ix ∈ tx.instructions, ix.programId = EPHEMERAL_SPL_PROGRAM → isMove ix = false →
    ∃ tag ∈ SETUP_TAGS, ix.data.head? = some tag

/-- What the check takes on trust. -/
structure Trusted (tx : DecodedTransaction) (expect : Expect) : Prop where
  /-- Instructions of the System Program other than plain transfers take no more than these leave
  of the bound. -/
  lamports : takenBy expect.owner (tx.instructions.filter fun ix => ¬ isTransfer ix) ≤
    MAX_LAMPORTS - takenBy expect.owner (tx.instructions.filter isTransfer)
  /-- `depositSplTokens` names the owner's balance. -/
  balance : ∀ ix ∈ tx.instructions, isMove ix → ix.data.head? = some 2 →
    Agree ix.accounts[0]? (EphemeralSpl.balanceAccount expect.owner expect.mint)
  /-- An encrypted destination is the owner's. -/
  encrypted : ∀ ix ∈ tx.instructions, isMove ix → ix.data.head? = some 34 →
    EphemeralSpl.destination ix = some expect.owner

end

/-! ## The loop -/

/-- What the SDK counts of an instruction. -/
def counted (ix : DecodedInstruction) : Nat :=
  if isTransfer ix then ofLeBytes ((ix.data.drop 4).take 8) else 0

theorem isTransfer_iff {ix : DecodedInstruction} : isTransfer ix = true ↔
    ix.programId = SYSTEM_PROGRAM ∧ 12 ≤ ix.data.length ∧ ix.data.take 4 = [2, 0, 0, 0] := by
  unfold isTransfer
  simp only [Bool.and_eq_true, decide_eq_true_eq, and_assoc]
  refine and_congr_right fun _ => and_congr_right fun hlen => ?_
  match ix.data, hlen with
  | a :: b :: c :: d :: rest, _ => simp

theorem u64_transfer {ix : DecodedInstruction} (h : isTransfer ix = true) :
    u64 ix.data 4 = some (counted ix) := by
  have hlen := (isTransfer_iff.mp h).2.1
  rw [u64, if_neg (by omega), counted, if_pos h]

/-- A plain transfer takes at most what the SDK counts. -/
theorem taken_le_counted (owner : Address) {ix : DecodedInstruction} (h : isTransfer ix = true) :
    taken owner ix ≤ counted ix := by
  obtain ⟨-, hlen, htag⟩ := isTransfer_iff.mp h
  unfold taken counted
  rw [if_pos h]
  split
  · unfold systemLamports
    rw [if_neg (by omega), htag]
    change (if 4 + 8 + 0 ≤ ix.data.length then _ else 0) ≤ _
    rw [if_pos (by omega)]
  · exact Nat.zero_le _

/-- What the loop has let pass. -/
structure Inspected (kind : Kind) (ix : DecodedInstruction) : Prop where
  program : ix.programId ∈ allowedPrograms
  tag : ix.programId = EPHEMERAL_SPL_PROGRAM → ∃ tag ∈ kind.tags, ix.data.head? = some tag

theorem inspect_ok {kind : Kind} {seen seen' : Nat × List DecodedInstruction}
    {ix : DecodedInstruction} (h : inspect kind seen ix = .ok seen') :
    Inspected kind ix ∧ seen' = (seen.1 + counted ix, seen.2 ++ [ix].filter isMove) := by
  unfold inspect at h
  simp only [↓bind_eq_ok, ensure_eq_ok, exists_unit] at h
  obtain ⟨hprogram, more, hmore, h⟩ := h
  have hcounted : more = counted ix := by
    split at hmore
    · rename_i ht
      rw [u64_transfer ht] at hmore
      cases hmore
      rfl
    · rename_i ht
      cases hmore
      rw [counted, if_neg ht]
  subst hcounted
  split at h
  · rename_i hne
    cases h
    have hmove : isMove ix = false := by
      unfold isMove
      rw [decide_eq_false hne, Bool.false_and]
    refine ⟨⟨hprogram, fun heq => absurd heq hne⟩, ?_⟩
    rw [List.filter_cons_of_neg (by rw [hmove]; decide), List.filter_nil, List.append_nil]
  · rename_i heq
    simp only [↓bind_eq_ok, ensure_eq_ok, exists_unit] at h
    obtain ⟨htag, h⟩ := h
    refine ⟨⟨hprogram, fun _ => ?_⟩, ?_⟩
    · cases hhead : ix.data.head? with
      | none =>
        rw [hhead] at htag
        cases htag
      | some tag =>
        rw [hhead] at htag
        exact ⟨tag, List.contains_iff_mem.mp htag, rfl⟩
    · split at h
      · rename_i hmove
        cases h
        rw [List.filter_cons_of_pos hmove, List.filter_nil]
      · rename_i hmove
        cases h
        rw [List.filter_cons_of_neg hmove, List.filter_nil, List.append_nil]

/-- The loop over all instructions. -/
theorem inspect_all {kind : Kind} {ixs : List DecodedInstruction}
    {seen seen' : Nat × List DecodedInstruction} (h : ixs.foldlM (inspect kind) seen = .ok seen') :
    (∀ ix ∈ ixs, Inspected kind ix) ∧
      seen' = (seen.1 + (ixs.map counted).sum, seen.2 ++ ixs.filter isMove) := by
  induction ixs generalizing seen with
  | nil =>
    cases h
    exact ⟨fun ix hix => (nomatch hix), by simp⟩
  | cons ix ixs ih =>
    rw [List.foldlM_cons] at h
    obtain ⟨next, hnext, h⟩ := bind_eq_ok.mp h
    obtain ⟨hix, rfl⟩ := inspect_ok hnext
    obtain ⟨hall, rfl⟩ := ih h
    refine ⟨List.forall_mem_cons.mpr ⟨hix, hall⟩, ?_⟩
    have hfilter : (ix :: ixs).filter isMove = [ix].filter isMove ++ ixs.filter isMove :=
      List.filter_append [ix] ixs
    rw [List.map_cons, List.sum_cons, hfilter, Nat.add_assoc, List.append_assoc]

/-- Plain transfers and all the rest. -/
theorem takenBy_split (owner : Address) (ixs : List DecodedInstruction) :
    takenBy owner ixs = takenBy owner (ixs.filter isTransfer) +
      takenBy owner (ixs.filter fun ix => ¬ isTransfer ix) := by
  induction ixs with
  | nil => rfl
  | cons ix ixs ih =>
    unfold takenBy at ih ⊢
    rw [List.map_cons, List.sum_cons, ih]
    by_cases h : isTransfer ix = true
    · rw [List.filter_cons_of_pos h, List.filter_cons_of_neg (by simp [h]), List.map_cons,
        List.sum_cons]
      omega
    · rw [List.filter_cons_of_neg h, List.filter_cons_of_pos (by simp [h]), List.map_cons,
        List.sum_cons]
      omega

theorem takenBy_transfers (owner : Address) (ixs : List DecodedInstruction) :
    takenBy owner (ixs.filter isTransfer) ≤ (ixs.map counted).sum := by
  induction ixs with
  | nil => exact Nat.le_refl 0
  | cons ix ixs ih =>
    unfold takenBy at ih ⊢
    rw [List.map_cons, List.sum_cons]
    by_cases h : isTransfer ix = true
    · have hix := taken_le_counted owner h
      rw [List.filter_cons_of_pos h, List.map_cons, List.sum_cons]
      omega
    · rw [List.filter_cons_of_neg h]
      omega

/-! ## The amount -/

theorem tag_of_isMove {ix : DecodedInstruction} (h : isMove ix = true) :
    ix.programId = EPHEMERAL_SPL_PROGRAM ∧ ∃ tag ∈ MOVE_TAGS, ix.data.head? = some tag := by
  unfold isMove at h
  rw [Bool.and_eq_true, decide_eq_true_eq] at h
  cases hhead : ix.data.head? with
  | none =>
    rw [hhead] at h
    cases h.2
  | some tag =>
    rw [hhead] at h
    exact ⟨h.1, tag, List.contains_iff_mem.mp h.2, rfl⟩

theorem Inspected.kind_tag {kind : Kind} {ix : DecodedInstruction} (h : Inspected kind ix)
    (hmove : isMove ix = true) {tag : UInt8} (htag : ix.data.head? = some tag) :
    tag ∈ kind.tags := by
  obtain ⟨tag', hmem, htag'⟩ := h.tag (tag_of_isMove hmove).1
  rw [htag] at htag'
  cases htag'
  exact hmem

/-- Transfers have one amount-bearing tag of their own. -/
theorem Inspected.transfer_tag {ix : DecodedInstruction} (h : Inspected .transfer ix)
    (hmove : isMove ix = true) : ix.data.head? = some 16 := by
  obtain ⟨-, tag, hmem, htag⟩ := tag_of_isMove hmove
  have hkind := h.kind_tag hmove htag
  have hboth : ∀ tag ∈ MOVE_TAGS, tag ∈ TRANSFER_TAGS → tag = 16 := by decide +kernel
  rw [htag, hboth tag hmem hkind]

/-- Deposits have the other three. -/
theorem Inspected.deposit_tag {ix : DecodedInstruction} (h : Inspected .deposit ix)
    (hmove : isMove ix = true) :
    ix.data.head? = some 2 ∨ ix.data.head? = some 24 ∨ ix.data.head? = some 34 := by
  obtain ⟨-, tag, hmem, htag⟩ := tag_of_isMove hmove
  have hkind := h.kind_tag hmove htag
  have hboth : ∀ tag ∈ MOVE_TAGS, tag ∈ DEPOSIT_TAGS → tag = 2 ∨ tag = 24 ∨ tag = 34 := by
    decide +kernel
  rw [htag]
  rcases hboth tag hmem hkind with rfl | rfl | rfl
  · exact Or.inl rfl
  · exact Or.inr (Or.inl rfl)
  · exact Or.inr (Or.inr rfl)

/-- The expected amount of the expected mint. -/
def MovesExpected (move : DecodedInstruction) (expect : Expect) : Prop :=
  ∃ amount : Nat, moved move = (some amount, some expect.mint) ∧
    (amount : Int) = expect.amountBaseUnits

section

variable [Web3] {move : DecodedInstruction} {expect : Expect}

theorem checkMove_balance (h : checkMove move expect = .ok ()) (htag : move.data.head? = some 2) :
    MovesExpected move expect := by
  unfold checkMove at h
  rw [if_pos htag] at h
  simp only [↓bind_eq_ok, ensure_eq_ok, okOr_eq_ok, exists_unit] at h
  obtain ⟨⟨-, hmint, -⟩, amount, hamount, heq⟩ := h
  refine ⟨amount, ?_, heq⟩
  unfold moved
  rw [htag]
  change (u64 move.data 1, move.accounts[2]?) = _
  rw [hamount, hmint]

theorem checkMove_encrypted (h : checkMove move expect = .ok ())
    (htag : move.data.head? = some 34) : MovesExpected move expect := by
  unfold checkMove at h
  rw [if_neg (by rw [htag]; decide), if_neg (by rw [htag]; decide), if_pos htag] at h
  simp only [↓bind_eq_ok, ensure_eq_ok, okOr_eq_ok, exists_unit] at h
  obtain ⟨⟨-, -, hmint⟩, amount, hamount, heq⟩ := h
  refine ⟨amount, ?_, heq⟩
  unfold moved
  rw [htag]
  change (u64 move.data 5, move.accounts[13]?) = _
  rw [hamount, hmint]

theorem checkMove_shuttle (h : checkMove move expect = .ok ())
    (htag : move.data.head? = some 24) : MovesExpected move expect ∧
      Agree move.accounts[13]? (associatedTokenAccount expect.owner expect.mint false) := by
  unfold checkMove at h
  rw [if_neg (by rw [htag]; decide), if_pos htag] at h
  unfold checkShuttleDepositWithMerge at h
  simp only [↓bind_eq_ok, ensure_eq_ok, okOr_eq_ok, exists_unit] at h
  obtain ⟨-, -, -, -, ⟨hmint, -⟩, -, ownerAta, hata, -, hdestination, vault, -, -, vaultAta, -, -,
    amount, hamount, heq⟩ := h
  refine ⟨⟨amount, ?_, heq⟩, ownerAta, hdestination, hata⟩
  unfold moved
  rw [htag]
  change (u64 move.data 5, move.accounts[14]?) = _
  rw [hamount, hmint]

theorem checkMove_transfer (h : checkMove move expect = .ok ())
    (htag : move.data.head? = some 16) : MovesExpected move expect ∧
      ∃ wallet reference, expect.recipientWallet = some wallet ∧
        expect.clientRefId = some (decimal reference) ∧ PaysTo move wallet reference := by
  unfold checkMove at h
  rw [if_neg (by rw [htag]; decide), if_neg (by rw [htag]; decide),
    if_neg (by rw [htag]; decide)] at h
  simp only [↓bind_eq_ok, ensure_eq_ok, okOr_eq_ok, exists_unit] at h
  obtain ⟨-, ⟨hmint, hwallet, howner⟩, amount, hamount, heq, -, -, -, hlength, reference,
    hreference, hid⟩ := h
  refine ⟨⟨amount, ?_, heq⟩, ?_⟩
  · unfold moved
    rw [htag]
    change (u64 move.data 1, move.accounts[2]?) = _
    rw [hamount, hmint]
  · -- The sender's account comes after the destination's, so there is one.
    have hseven : 6 < move.accounts.length := (List.getElem?_eq_some_iff.mp howner).1
    have hfive := List.getElem?_eq_getElem (show 5 < move.accounts.length by omega)
    exact ⟨_, reference, hwallet.symm.trans hfive, hid.symm, htag, hlength, hfive, hreference⟩

/-! ## The bounds -/

/-- What an accepted transaction has passed. -/
structure Accepted (tx : DecodedTransaction) (expect : Expect) : Prop where
  signers : tx.signers = [expect.owner]
  inspected : ∀ ix ∈ tx.instructions, Inspected expect.kind ix
  lamports : (tx.instructions.map counted).sum ≤ MAX_LAMPORTS
  one : ∃ move, tx.instructions.filter isMove = [move] ∧ checkMove move expect = .ok ()

theorem accepted_of_verify {text : List Char} (h : verifyBuiltTransaction text expect = .ok ()) :
    ∃ tx, decodeBuiltTransaction text = some tx ∧ Accepted tx expect := by
  unfold verifyBuiltTransaction at h
  simp only [↓bind_eq_ok, ensure_eq_ok, okOr_eq_ok, exists_unit] at h
  obtain ⟨tx, htx, ⟨hlength, hsigner⟩, ⟨lamports, moves⟩, hloop, hlamports, h⟩ := h
  obtain ⟨hinspected, heq⟩ := inspect_all hloop
  rw [Nat.zero_add, List.nil_append] at heq
  cases heq
  refine ⟨tx, htx, ?_, hinspected, hlamports, ?_⟩
  · obtain ⟨signer, hone⟩ := List.length_eq_one_iff.mp hlength
    rw [hone] at hsigner ⊢
    cases hsigner
    rfl
  · split at h
    · rename_i move hmove
      exact ⟨move, hmove, h⟩
    · cases h

variable {tx : DecodedTransaction}

theorem Accepted.lamports_iff (h : Accepted tx expect) :
    takenBy expect.owner tx.instructions ≤ MAX_LAMPORTS ↔
      takenBy expect.owner (tx.instructions.filter fun ix => ¬ isTransfer ix) ≤
        MAX_LAMPORTS - takenBy expect.owner (tx.instructions.filter isTransfer) := by
  have hsplit := takenBy_split expect.owner tx.instructions
  have htransfers := takenBy_transfers expect.owner tx.instructions
  have hmax := h.lamports
  omega

theorem Accepted.setup (h : Accepted tx expect) : ∀ ix ∈ tx.instructions,
    ix.programId = EPHEMERAL_SPL_PROGRAM → isMove ix = false →
      ∃ tag ∈ SETUP_TAGS, ix.data.head? = some tag := by
  intro ix hix hprogram hmove
  obtain ⟨tag, hmem, htag⟩ := (h.inspected ix hix).tag hprogram
  refine ⟨tag, ?_, htag⟩
  have hnot : tag ∉ MOVE_TAGS := by
    intro hin
    unfold isMove at hmove
    rw [htag, decide_eq_true hprogram, Bool.true_and] at hmove
    exact Bool.false_ne_true (hmove.symm.trans (List.contains_iff_mem.mpr hin))
  have hall : ∀ kind : Kind, ∀ tag ∈ kind.tags, tag ∉ MOVE_TAGS → tag ∈ SETUP_TAGS := by
    intro kind
    cases kind <;> decide +kernel
  exact hall _ tag hmem hnot

variable [EphemeralSpl]

theorem Accepted.bounded_iff (h : Accepted tx expect) : Bounded tx expect ↔ Trusted tx expect := by
  obtain ⟨move, hone, hcheck⟩ := h.one
  have hin : move ∈ tx.instructions ∧ isMove move = true :=
    List.mem_filter.mp (by rw [hone]; exact List.mem_singleton_self move)
  have honly : ∀ ix ∈ tx.instructions, isMove ix = true → ix = move := by
    intro ix hix hmove
    have hmem := List.mem_filter.mpr ⟨hix, hmove⟩
    rw [hone] at hmem
    exact List.mem_singleton.mp hmem
  have hinspected := h.inspected move hin.1
  constructor
  · intro hb
    obtain ⟨move', hone', -, hend⟩ := hb.one
    rw [hone] at hone'
    cases hone'
    refine ⟨h.lamports_iff.mp hb.lamports, ?_, ?_⟩
    · intro ix hix hmove htag
      obtain rfl := honly ix hix hmove
      cases hkind : expect.kind with
      | transfer =>
        rw [hkind] at hinspected
        rw [hinspected.transfer_tag hmove] at htag
        cases htag
      | deposit =>
        rw [hkind] at hend
        unfold CreditsOwner at hend
        rw [htag] at hend
        exact hend
    · intro ix hix hmove htag
      obtain rfl := honly ix hix hmove
      cases hkind : expect.kind with
      | transfer =>
        rw [hkind] at hinspected
        rw [hinspected.transfer_tag hmove] at htag
        cases htag
      | deposit =>
        rw [hkind] at hend
        unfold CreditsOwner at hend
        rw [htag] at hend
        exact hend
  · intro ht
    refine ⟨h.signers, h.lamports_iff.mpr ht.lamports, ⟨move, hone, ?_⟩, h.setup⟩
    cases hkind : expect.kind with
    | transfer =>
      rw [hkind] at hinspected
      exact checkMove_transfer hcheck (hinspected.transfer_tag hin.2)
    | deposit =>
      rw [hkind] at hinspected
      unfold CreditsOwner
      rcases hinspected.deposit_tag hin.2 with htag | htag | htag
      · refine ⟨checkMove_balance hcheck htag, ?_⟩
        rw [htag]
        exact ht.balance move hin.1 hin.2 htag
      · obtain ⟨hmoves, hcredits⟩ := checkMove_shuttle hcheck htag
        refine ⟨hmoves, ?_⟩
        rw [htag]
        exact hcredits
      · refine ⟨checkMove_encrypted hcheck htag, ?_⟩
        rw [htag]
        exact ht.encrypted move hin.1 hin.2 htag

/-- **What the owner signs.** An accepted transaction is bounded if and only if it deserves the
trust that the check puts in it; and the transaction meant is the one on the wire. -/
theorem verifyBuiltTransaction_bounds {text : List Char}
    (h : verifyBuiltTransaction text expect = .ok ()) :
    ∃ tx, decodeBuiltTransaction text = some tx ∧ (Bounded tx expect ↔ Trusted tx expect) ∧
      ∀ t : Transaction, t.Fits → atob text = some t.bytes → resolved t = some tx := by
  obtain ⟨tx, htx, haccepted⟩ := accepted_of_verify h
  refine ⟨tx, htx, haccepted.bounded_iff, fun t hfits ht => ?_⟩
  rw [← decodeBuiltTransaction_bytes hfits ht, htx]

end

/-! ## A payment -/

@[reducible] def sampleWeb3 : Web3 where
  publicKey text := (number58 text).map (beBytes 32)
  isOnCurve _ := true
  findProgramAddress _ _ := none

@[reducible] def sampleSpl : EphemeralSpl where
  balanceAccount _ _ := none
  destination _ := none

def keyOf (text : Address) : Key := ⟨beBytes 32 ((number58 text).getD 0), beBytes_length _ _⟩

def sampleKey (b : UInt8) : Key := .filled 32 b

/-- A payment of 10.05 to wallet 9, with other instructions before it. -/
def samplePayment (before : List Instruction) : Transaction where
  signatures := [.filled 64 0]
  message :=
    { lookups := none
      required := 1
      readonlySigned := 0
      readonlyUnsigned := 2
      keys := [sampleKey 7, keyOf EPHEMERAL_SPL_PROGRAM, keyOf SYSTEM_PROGRAM, sampleKey 8,
        sampleKey 9, sampleKey 5]
      blockhash := sampleKey 1
      instructions := before ++
        [⟨1, [5, 5, 3, 5, 5, 4, 0], 16 :: (leBytes 8 10050000 ++ [0, 0, 0] ++ leBytes 16 0 ++
          leBytes 4 1 ++ leBytes 8 418273645512)⟩] }

def sampleExpect : Expect where
  kind := .transfer
  owner := base58 (sampleKey 7).bytes
  mint := base58 (sampleKey 8).bytes
  amountBaseUnits := 10050000
  recipientWallet := some (base58 (sampleKey 9).bytes)
  clientRefId := some "418273645512".toList
  minDelayMs := some ['0']
  maxDelayMs := some ['0']

/-- A `CreateAccountWithSeed` of the owner's, who is its base too, with a thousand SOL. -/
def sampleDrain : Instruction :=
  ⟨2, [0, 5], [3, 0, 0, 0] ++ (sampleKey 7).bytes ++ leBytes 8 1 ++ [97] ++
    leBytes 8 1000000000000 ++ leBytes 8 0 ++ (sampleKey 5).bytes⟩

/-- Both payments are accepted, though the second takes a thousand SOL with it. -/
theorem verify_samples :
    letI := sampleWeb3
    verifyBuiltTransaction (btoa (samplePayment []).bytes) sampleExpect = .ok () ∧
      verifyBuiltTransaction (btoa (samplePayment [sampleDrain]).bytes) sampleExpect = .ok () ∧
      (decodeBuiltTransaction (btoa (samplePayment [sampleDrain]).bytes)).map
        (fun tx => takenBy sampleExpect.owner tx.instructions) = some 1000000000000 := by
  refine ⟨?_, ?_, ?_⟩
  · decide +kernel
  · decide +kernel
  · decide +kernel

theorem verifyBuiltTransaction_bounds_sample :
    letI := sampleWeb3
    letI := sampleSpl
    ∃ tx, decodeBuiltTransaction (btoa (samplePayment []).bytes) = some tx ∧
      (Bounded tx sampleExpect ↔ Trusted tx sampleExpect) ∧
      ∀ t : Transaction, t.Fits → atob (btoa (samplePayment []).bytes) = some t.bytes →
        resolved t = some tx := by
  let _ := sampleWeb3
  let _ := sampleSpl
  exact verifyBuiltTransaction_bounds verify_samples.1

/-- A thousand SOL leave with an accepted payment. -/
theorem verifyBuiltTransaction_drains :
    letI := sampleWeb3
    letI := sampleSpl
    ∃ tx, decodeBuiltTransaction (btoa (samplePayment [sampleDrain]).bytes) = some tx ∧
      verifyBuiltTransaction (btoa (samplePayment [sampleDrain]).bytes) sampleExpect = .ok () ∧
      ¬ Bounded tx sampleExpect := by
  let _ := sampleWeb3
  let _ := sampleSpl
  obtain ⟨-, hverify, htaken⟩ := verify_samples
  obtain ⟨tx, htx, -⟩ := accepted_of_verify hverify
  refine ⟨tx, htx, hverify, fun hbounded => ?_⟩
  rw [htx, Option.map_some] at htaken
  have hlamports := hbounded.lamports
  rw [Option.some.inj htaken] at hlamports
  exact absurd hlamports (by decide)

end ChainPay.Signing
