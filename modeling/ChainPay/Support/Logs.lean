import ChainPay.Lib.Base64
import ChainPay.Lib.Invocations
import ChainPay.Support.Parse

/-!
Whose events the support tracker reads off a log: `splitterEvents` against the calls that the
log is a record of. A text that a program prints stands behind a label with a colon, so no text
is taken for the start or the end of a frame.
-/

namespace ChainPay.Support
open ChainPay.Lib

/-! ## Lines -/

theorem after?_append (start rest : List Char) : after? start (start ++ rest) = some rest := by
  rw [after?, if_pos (List.isPrefixOf_iff_prefix.mpr (List.prefix_append _ _)), List.drop_left]

theorem isWordChar_of_isLetterOrDigit {c : Char} (h : isLetterOrDigit c = true) :
    isWordChar c = true := by
  rw [isWordChar, show (_ || _ || _ : Bool) = isLetterOrDigit c from rfl, h, Bool.true_or]

/-- A word ends where the next character is none of a word. -/
theorem word_append {w rest : List Char} {c : Char} (hne : w ≠ [])
    (hw : ∀ x ∈ w, isWordChar x = true) (hc : isWordChar c = false) :
    word (w ++ c :: rest) = some (w, c :: rest) := by
  have htake : (w ++ c :: rest).takeWhile isWordChar = w := by
    rw [List.takeWhile_append_of_pos hw, List.takeWhile_cons_of_neg (by simp [hc]),
      List.append_nil]
  unfold word
  simp only [htake, if_neg hne, List.drop_left]

theorem word_program (program : ProgramId) (rest : List Char) :
    word (program.text ++ ' ' :: rest) = some (program.text, ' ' :: rest) :=
  word_append program.ne_nil
    (fun _ hx => isWordChar_of_isLetterOrDigit (List.all_eq_true.mp program.plain _ hx))
    (by decide)

/-- The word of a label stands before its colon. -/
theorem word_label (label : LogLabel) (rest : List Char) :
    word (label.word ++ rest) = some (label.word.dropLast, ':' :: rest) := by
  have hcolon : label.word ++ rest = label.word.dropLast ++ ':' :: rest := by
    cases label <;> rfl
  rw [hcolon]
  have hplain : label.word.dropLast.all isWordChar = true := by cases label <;> decide
  exact word_append (by cases label <;> decide) (List.all_eq_true.mp hplain) (by decide)

theorem program_eq : "Program ".toList = PROGRAM := by decide

theorem invokeLine_entered (program : ProgramId) (depth : Nat) :
    invokeLine (entered program depth) = some program.text := by
  have hdigits : (decimal depth ++ [']']).takeWhile isDecimalDigit = decimal depth := by
    rw [List.takeWhile_append_of_pos (decimal_digits depth),
      List.takeWhile_cons_of_neg (by decide), List.append_nil]
  have hrest : after? " invoke [".toList
      ([' ', 'i', 'n', 'v', 'o', 'k', 'e', ' ', '['] ++ (decimal depth ++ [']'])) =
        some (decimal depth ++ [']']) := after?_append _ _
  unfold invokeLine entered
  rw [program_eq, after?_append]
  dsimp only [Option.bind_eq_bind, Option.bind_some]
  rw [List.cons_append, word_program]
  dsimp only [Option.bind_some]
  rw [← List.cons_append, hrest]
  dsimp only [Option.bind_some]
  rw [hdigits, if_pos ⟨decimal_ne_nil depth, List.drop_left⟩]

theorem exitLine_left (program : ProgramId) : exitLine (left program) = true := by
  have hword : word (program.text ++ [' ', 's', 'u', 'c', 'c', 'e', 's', 's']) =
      some (program.text, [' ', 's', 'u', 'c', 'c', 'e', 's', 's']) := word_program program _
  unfold exitLine left
  rw [program_eq, after?_append, Option.bind_some, hword]
  rfl

theorem invokeLine_left (program : ProgramId) : invokeLine (left program) = none := by
  have hword : word (program.text ++ [' ', 's', 'u', 'c', 'c', 'e', 's', 's']) =
      some (program.text, [' ', 's', 'u', 'c', 'c', 'e', 's', 's']) := word_program program _
  unfold invokeLine left
  rw [program_eq, after?_append]
  dsimp only [Option.bind_eq_bind, Option.bind_some]
  rw [hword]
  rfl

/-- No line of a frame is taken for the start of one. -/
theorem invokeLine_text (line : Line) : invokeLine line.text = none := by
  unfold invokeLine
  cases line with
  | output label text =>
    rw [Line.text, program_eq, after?_append]
    dsimp only [Option.bind_eq_bind, Option.bind_some]
    rw [word_label]
    rfl
  | consumed program units =>
    have hword : word (program.text ++
        ([' ', 'c', 'o', 'n', 's', 'u', 'm', 'e', 'd', ' '] ++ units)) =
          some (program.text, [' ', 'c', 'o', 'n', 's', 'u', 'm', 'e', 'd', ' '] ++ units) :=
      word_program program _
    rw [Line.text, program_eq, List.append_assoc, after?_append]
    dsimp only [Option.bind_eq_bind, Option.bind_some]
    rw [hword]
    rfl

/-- No line of a frame is taken for the end of one. -/
theorem exitLine_text (line : Line) : exitLine line.text = false := by
  unfold exitLine
  cases line with
  | output label text =>
    rw [Line.text, program_eq, after?_append, Option.bind_some, word_label]
    rfl
  | consumed program units =>
    have hword : word (program.text ++
        ([' ', 'c', 'o', 'n', 's', 'u', 'm', 'e', 'd', ' '] ++ units)) =
          some (program.text, [' ', 'c', 'o', 'n', 's', 'u', 'm', 'e', 'd', ' '] ++ units) :=
      word_program program _
    rw [Line.text, program_eq, List.append_assoc, after?_append, Option.bind_some, hword]
    rfl

theorem after?_eq_some {start s rest : List Char} (h : after? start s = some rest) :
    s = start ++ rest := by
  unfold after? at h
  split at h
  · rename_i hpre
    obtain ⟨more, hmore⟩ := List.isPrefixOf_iff_prefix.mp hpre
    cases h
    rw [← hmore, List.drop_left]
  · cases h

/-- The text of a data line, where a pattern that stops at line ends can match it. -/
def dataText (text : List Char) : Option (List Char) :=
  (some text).filter fun rest => rest ≠ [] && !rest.any isLineEnd

/-- What a line of a frame holds as data. -/
def dataOf : Line → Option (List Char)
  | .output .data text => dataText text
  | _ => none

theorem dataLine_text (line : Line) : dataLine line.text = dataOf line := by
  unfold dataLine
  cases line with
  | output label text =>
    cases label
    · rfl
    · have hdata : Line.text (.output .data text) = "Program data: ".toList ++ text := by rfl
      rw [hdata, after?_append]
      rfl
    · rfl
    · rfl
  | consumed program units =>
    have hnone : after? "Program data: ".toList (Line.text (.consumed program units)) = none := by
      cases hafter : after? "Program data: ".toList (Line.text (.consumed program units)) with
      | none => rfl
      | some rest =>
        have htext : program.text ++ ' ' :: (['c', 'o', 'n', 's', 'u', 'm', 'e', 'd', ' '] ++ units) =
            ['d', 'a', 't', 'a'] ++ ':' :: ' ' :: rest := by
          have h := after?_eq_some hafter
          rw [Line.text, List.append_assoc] at h
          exact List.append_cancel_left h
        have hword := word_program program (['c', 'o', 'n', 's', 'u', 'm', 'e', 'd', ' '] ++ units)
        have hdata : ['d', 'a', 't', 'a'].all isWordChar = true := by decide
        rw [htext, word_append (by decide) (List.all_eq_true.mp hdata) (by decide)] at hword
        exact absurd (List.cons.inj (congrArg Prod.snd (Option.some.inj hword))).1 (by decide)
    rw [hnone]
    rfl

/-! ## Frames -/

/-- What a line that a program printed adds to the events found. -/
def addPrinted (programId : List Char) (found : SplitterEvents) (p : ProgramId × Line) :
    SplitterEvents :=
  match dataOf p.2 with
  | none => found
  | some data =>
    if p.1.text = programId then
      match atob data with
      | some bytes => addEvent found bytes
      | none => found
    else found

section

variable {ι : Type} (programId : List Char) (lines stack : List (List Char))
  (found : SplitterEvents)

theorem readLogs_entered (program : ProgramId) (depth : Nat) :
    readLogs programId (entered program depth :: lines) stack found =
      readLogs programId lines (program.text :: stack) found := by
  rw [readLogs, invokeLine_entered]

theorem readLogs_left (program : ProgramId) :
    readLogs programId (left program :: lines) (program.text :: stack) found =
      readLogs programId lines stack found := by
  rw [readLogs, invokeLine_left]
  dsimp only
  rw [if_pos (exitLine_left program), List.tail_cons]

theorem readLogs_text (program : ProgramId) (line : Line) :
    readLogs programId (line.text :: lines) (program.text :: stack) found =
      readLogs programId lines (program.text :: stack)
        (addPrinted programId found (program, line)) := by
  rw [readLogs, invokeLine_text]
  dsimp only
  rw [if_neg (by rw [exitLine_text]; exact Bool.false_ne_true), dataLine_text, addPrinted]
  cases dataOf line with
  | none => rfl
  | some data =>
    dsimp only [List.head?_cons]
    by_cases hown : program.text = programId
    · rw [if_pos hown, if_pos hown]
      cases atob data with
      | none => rfl
      | some bytes => rfl
    · rw [if_neg hown, if_neg hown]

/-- What a frame and the frames below it print is read in order, each line for its own program, and
the stack is as before at its end. -/
theorem readLogs_body (program : ProgramId) (depth : Nat) (body : Body ι) :
    readLogs programId (body.log depth ++ lines) (program.text :: stack) found =
      readLogs programId lines (program.text :: stack)
        ((body.printed program).foldl (addPrinted programId) found) := by
  induction body generalizing program depth lines stack found with
  | done => rfl
  | print line rest ih =>
    rw [Body.log, Body.printed, List.cons_append, readLogs_text, ih, List.foldl_cons]
  | call callee instr inside rest ihInside ihRest =>
    rw [Body.log, Body.printed, List.cons_append, List.append_assoc, readLogs_entered, ihInside,
      List.cons_append, readLogs_left, ihRest, List.foldl_append]

theorem readLogs_transaction (tx : List (Invocation ι)) :
    readLogs programId (Invocation.logOf tx) [] found =
      (Invocation.printedOf tx).foldl (addPrinted programId) found := by
  induction tx generalizing found with
  | nil => rfl
  | cons v tx ih =>
    rw [Invocation.logOf, List.flatMap_cons, Invocation.log, List.cons_append, readLogs_entered,
      List.append_assoc, readLogs_body, List.cons_append, readLogs_left, List.nil_append]
    rw [Invocation.printedOf, List.flatMap_cons, List.foldl_append]
    exact ih _

end

/-! ## Events -/

/-- The events that the frames of a program emitted themselves, as bytes. -/
def emitted (programId : List Char) (printed : List (ProgramId × Line)) : List Bytes :=
  printed.filterMap fun p => if p.1.text = programId then (dataOf p.2).bind atob else none

/-- The byte of an asset and of a side in an event. -/
def Asset.byte : Asset → UInt8
  | .sol => 0
  | .usdc => 1

def Side.byte : Side → UInt8
  | .a => 0
  | .b => 1

/-- How a payout is laid out at the start of an event. -/
def Paid.bytes (p : Paid) : Bytes := PAID ++ (p.asset.byte :: p.side.byte :: leBytes 8 p.amount)

theorem asset_byte {b : UInt8} (h : b ≤ 1) :
    Asset.byte (if b = 0 then .sol else .usdc) = b := by
  have hcases : b = 0 ∨ b = 1 := by
    rcases Nat.le_one_iff_eq_zero_or_eq_one.mp (UInt8.le_iff_toNat_le.mp h) with h | h
    · exact Or.inl (UInt8.toNat_inj.mp h)
    · exact Or.inr (UInt8.toNat_inj.mp h)
  rcases hcases with rfl | rfl
  · rfl
  · rfl

theorem side_byte {b : UInt8} (h : b ≤ 1) : Side.byte (if b = 0 then .a else .b) = b := by
  have hcases : b = 0 ∨ b = 1 := by
    rcases Nat.le_one_iff_eq_zero_or_eq_one.mp (UInt8.le_iff_toNat_le.mp h) with h | h
    · exact Or.inl (UInt8.toNat_inj.mp h)
    · exact Or.inr (UInt8.toNat_inj.mp h)
  rcases hcases with rfl | rfl
  · rfl
  · rfl

/-- An event tells of a payout when it is laid out as one, with the destination behind it. -/
theorem paidEvent_eq_some {bytes : Bytes} {p : Paid} :
    paidEvent bytes = some p ↔
      p.amount < 2 ^ 64 ∧ ∃ rest, 32 ≤ rest.length ∧ bytes = p.bytes ++ rest := by
  constructor
  · intro h
    unfold paidEvent at h
    split at h
    · rename_i hshape
      obtain ⟨hpre, hlen, hasset, hside⟩ := hshape
      obtain ⟨rest, rfl⟩ := List.isPrefixOf_iff_prefix.mp hpre
      have hpaid : PAID.length = 8 := rfl
      rw [List.length_append, hpaid] at hlen
      match rest, hlen with
      | asset :: side :: rest, hlen =>
        simp only [List.length_cons] at hlen
        have htake : (rest.take 8).length = 8 := by
          rw [List.length_take]
          omega
        have hvalue := leBytes_ofLeBytes (rest.take 8)
        rw [htake] at hvalue
        have hbound := ofLeBytes_lt (rest.take 8)
        rw [htake] at hbound
        cases h
        refine ⟨hbound, rest.drop 8, ?_, ?_⟩
        · rw [List.length_drop]
          omega
        · have hsplit : asset :: side :: (rest.take 8 ++ rest.drop 8) = asset :: side :: rest := by
            rw [List.take_append_drop]
          change PAID ++ asset :: side :: rest = PAID ++ (Asset.byte _ :: Side.byte _ ::
            leBytes 8 (ofLeBytes (rest.take 8))) ++ rest.drop 8
          rw [asset_byte hasset, side_byte hside, hvalue, List.append_assoc, ← hsplit]
          rfl
    · cases h
  · rintro ⟨hamount, rest, hrest, rfl⟩
    have htake : ((p.bytes ++ rest).drop 10).take 8 = leBytes 8 p.amount := by
      change (leBytes 8 p.amount ++ rest).take 8 = _
      rw [List.take_left' (leBytes_length 8 _)]
    have hlen : (p.bytes ++ rest).length = 18 + rest.length := by
      rw [List.length_append]
      rfl
    have hasset : (p.bytes ++ rest).getD 8 0 = p.asset.byte := rfl
    have hside : (p.bytes ++ rest).getD 9 0 = p.side.byte := rfl
    have hpre : PAID.isPrefixOf (p.bytes ++ rest) = true :=
      List.isPrefixOf_iff_prefix.mpr ⟨_, by rw [Paid.bytes, List.append_assoc]⟩
    have hbound : p.amount < 256 ^ 8 := hamount
    unfold paidEvent
    rw [htake, hlen, hasset, hside, ofLeBytes_leBytes, Nat.mod_eq_of_lt hbound]
    obtain ⟨asset, side, amount⟩ := p
    have hone : ∀ a : Asset, a.byte ≤ 1 := fun a => by cases a <;> decide
    have htwo : ∀ side : Side, side.byte ≤ 1 := fun side => by cases side <;> decide
    rw [if_pos ⟨hpre, by omega, hone asset, htwo side⟩]
    cases asset <;> cases side <;> rfl

/-- An event is of one kind. -/
theorem paidEvent_of_initialized {bytes : Bytes} (h : VAULT_INITIALIZED.isPrefixOf bytes = true) :
    paidEvent bytes = none := by
  obtain ⟨rest, rfl⟩ := List.isPrefixOf_iff_prefix.mp h
  exact if_neg fun hshape => absurd hshape.1 Bool.false_ne_true

theorem addEvent_eq (found : SplitterEvents) (bytes : Bytes) :
    addEvent found bytes = ⟨found.paid ++ (paidEvent bytes).toList,
      found.initialized || VAULT_INITIALIZED.isPrefixOf bytes⟩ := by
  unfold addEvent
  cases hpaid : paidEvent bytes with
  | some p =>
    cases hinit : VAULT_INITIALIZED.isPrefixOf bytes with
    | false => simp
    | true =>
      rw [paidEvent_of_initialized hinit] at hpaid
      cases hpaid
  | none =>
    cases hinit : VAULT_INITIALIZED.isPrefixOf bytes with
    | false => simp
    | true => simp

/-- What the lines that programs printed add up to. -/
theorem foldl_addPrinted (programId : List Char) (printed : List (ProgramId × Line))
    (found : SplitterEvents) :
    printed.foldl (addPrinted programId) found =
      ⟨found.paid ++ (emitted programId printed).filterMap paidEvent,
        found.initialized || (emitted programId printed).any VAULT_INITIALIZED.isPrefixOf⟩ := by
  induction printed generalizing found with
  | nil => simp [emitted]
  | cons p printed ih =>
    obtain ⟨program, line⟩ := p
    rw [List.foldl_cons, ih]
    unfold emitted addPrinted
    dsimp only
    cases hdata : dataOf line with
    | none =>
      rw [List.filterMap_cons_none (by rw [hdata]; split <;> rfl)]
    | some data =>
      dsimp only
      by_cases hown : program.text = programId
      · rw [if_pos hown]
        cases hbytes : atob data with
        | none =>
          rw [List.filterMap_cons_none (by rw [if_pos hown, hdata, Option.bind_some, hbytes])]
        | some bytes =>
          dsimp only
          rw [List.filterMap_cons_some
            (by rw [if_pos hown, hdata, Option.bind_some, hbytes]), addEvent_eq]
          cases hpaid : paidEvent bytes with
          | none => simp [hpaid, Bool.or_assoc]
          | some q => simp [hpaid, Bool.or_assoc]
      · rw [if_neg hown, List.filterMap_cons_none (by rw [if_neg hown])]

/-- The text that a program prints for an event holds its bytes. -/
theorem dataOf_btoa {bytes : Bytes} (h : bytes ≠ []) :
    (dataOf (.output .data (btoa bytes))).bind atob = some bytes := by
  have hne : btoa bytes ≠ [] := by
    intro hnil
    have hread := atob_btoa bytes
    rw [hnil] at hread
    exact h (Option.some.inj hread).symm
  have hends : (btoa bytes).any isLineEnd = false := by
    rw [List.any_eq_false]
    intro c hc
    obtain ⟨hspace, hascii⟩ := btoa_chars bytes c hc
    simp only [isAsciiSpace, Bool.or_eq_false_iff, decide_eq_false_iff_not] at hspace
    simp only [isLineEnd, Bool.or_eq_true, decide_eq_true_eq, not_or]
    exact ⟨⟨⟨hspace.1.1.2, hspace.1.2⟩, by omega⟩, by omega⟩
  have htext : dataText (btoa bytes) = some (btoa bytes) := by
    rw [dataText, Option.filter_some, if_pos]
    simp [hne, hends]
  rw [dataOf, htext, Option.bind_some, atob_btoa]

theorem emitted_silence {ι : Type} (programId : List Char) (tx : List (Invocation ι)) :
    emitted programId (Invocation.printedOf
      (Invocation.silenceOf (fun p => p.text ≠ programId) tx)) =
        emitted programId (Invocation.printedOf tx) := by
  rw [Invocation.printedOf_silenceOf, emitted, List.filterMap_filter]
  refine List.filterMap_congr fun p _ => ?_
  by_cases hown : p.1.text = programId
  · rw [if_pos (by simp [hown])]
  · rw [if_neg (by simp [hown]), if_neg hown]

/-- **Events are attributed exactly.** Of any log the payouts are those that frames of the program
emitted themselves, in order, and `initialized` says whether one emitted that event; what an
event has to look like is what the program prints for it, and other programs may as well be
silent. -/
theorem splitterEvents_exact {ι : Type} (tx : List (Invocation ι)) (programId : String) :
    let own := emitted programId.toList (Invocation.printedOf tx)
    let found := splitterEvents (Invocation.logOf tx) programId
    found.paid = own.filterMap paidEvent ∧
      (found.initialized = true ↔ ∃ bytes ∈ own, VAULT_INITIALIZED <+: bytes) ∧
      splitterEvents (Invocation.logOf
        (Invocation.silenceOf (fun p => p.text ≠ programId.toList) tx)) programId = found ∧
      (∀ bytes p, paidEvent bytes = some p ↔
        p.amount < 2 ^ 64 ∧ ∃ rest, 32 ≤ rest.length ∧ bytes = p.bytes ++ rest) ∧
      ∀ bytes ≠ [], (dataOf (.output .data (btoa bytes))).bind atob = some bytes := by
  have hfound : ∀ tx : List (Invocation ι), splitterEvents (Invocation.logOf tx) programId =
      ⟨(emitted programId.toList (Invocation.printedOf tx)).filterMap paidEvent,
        (emitted programId.toList (Invocation.printedOf tx)).any VAULT_INITIALIZED.isPrefixOf⟩ := by
    intro tx
    rw [splitterEvents, readLogs_transaction, foldl_addPrinted, List.nil_append, Bool.false_or]
  dsimp only
  refine ⟨?_, ?_, ?_, fun bytes p => paidEvent_eq_some, fun bytes => dataOf_btoa⟩
  · rw [hfound]
  · rw [hfound, List.any_eq_true]
    simp only [List.isPrefixOf_iff_prefix]
  · rw [hfound, hfound, emitted_silence]

end ChainPay.Support
