import ChainPay.Lib.Invocations
import ChainPay.Repay.Settlements

/-!
What `parse_frames` reads off the log of a transaction: its frames and parents against the calls
that the log is a record of. A printed text can look like the start or the end of a frame. The
start adds an inner instruction that the transaction does not list, and the end fits no frame that
a text did not start, so such a log is never evidence.
-/

namespace ChainPay.Repay
open ChainPay.Lib (ProgramId LogLabel Line Body Invocation Activation)

/-! ## Lines -/

theorem stripPrefix_append (start rest : List Char) :
    stripPrefix start (start ++ rest) = some rest := by
  induction start with
  | nil => rfl
  | cons c start ih => rw [List.cons_append, stripPrefix, if_pos rfl, ih]

theorem stripPrefix_eq_some {start s rest : List Char} (h : stripPrefix start s = some rest) :
    s = start ++ rest := by
  induction start generalizing s with
  | nil =>
    cases h
    rfl
  | cons c start ih =>
    cases s with
    | nil => cases h
    | cons d s =>
      rw [stripPrefix] at h
      split at h
      · rename_i heq
        rw [ih h, heq, List.cons_append]
      · cases h

theorem twoWords_append {w : List Char} (hw : ∀ c ∈ w, c ≠ ' ') (rest : List Char) :
    twoWords (w ++ ' ' :: rest) = (w, some (rest.takeWhile (· ≠ ' '))) := by
  have htake : (w ++ ' ' :: rest).takeWhile (· ≠ ' ') = w := by
    rw [List.takeWhile_append_of_pos fun c hc => decide_eq_true (hw c hc),
      List.takeWhile_cons_of_neg (by decide), List.append_nil]
  unfold twoWords
  simp only [htake, List.drop_left]

theorem program_ne_blank (program : ProgramId) : ∀ c ∈ program.text, c ≠ ' ' := by
  rintro c hc rfl
  exact absurd (List.all_eq_true.mp program.plain _ hc) (by decide)

theorem label_ne_blank (label : LogLabel) : ∀ c ∈ label.word, c ≠ ' ' := by
  have hnone : ' ' ∉ label.word := by cases label <;> decide
  rintro c hc rfl
  exact hnone hc

/-- A label is no program. -/
theorem label_ne_program (label : LogLabel) (program : ProgramId) : label.word ≠ program.text := by
  intro heq
  have hcolon : ':' ∈ program.text := by
    rw [← heq]
    cases label <;> decide
  exact absurd (List.all_eq_true.mp program.plain _ hcolon) (by decide)

/-- The first word of a text. -/
def said (text : List Char) : List Char := text.takeWhile (· ≠ ' ')

/-- A printed text that is read as the start of a frame. -/
def opens : Line → Bool
  | .output _ text => said text = "invoke".toList
  | .consumed .. => false

/-- A printed text that is read as the end of a frame. -/
def closes : Line → Bool
  | .output _ text => said text = "success".toList ∨ said text = "failed:".toList
  | .consumed .. => false

theorem program_eq : "Program ".toList = Lib.PROGRAM := by decide

/-- How the two words after the start of a line are taken. -/
theorem parseLine_words {fs : Frames} {rest program word : List Char}
    (h : twoWords rest = (program, some word)) :
    parseLine fs (String.ofList (Lib.PROGRAM ++ rest)) =
      if word = "invoke".toList then some (fs.invoke program)
      else if word = "success".toList ∨ word = "failed:".toList then fs.leave program
      else fs.log (Lib.PROGRAM ++ rest) := by
  have hline : (String.ofList (Lib.PROGRAM ++ rest)).toList = Lib.PROGRAM ++ rest :=
    String.toList_ofList
  have hnot : stripPrefix "Log truncated".toList (Lib.PROGRAM ++ rest) = none := rfl
  unfold parseLine
  dsimp only
  rw [hline, hnot, program_eq, stripPrefix_append, Option.map_some, h]
  rfl

theorem parseLine_entered (fs : Frames) (program : ProgramId) (depth : Nat) :
    parseLine fs (String.ofList (Lib.entered program depth)) = some (fs.invoke program.text) := by
  have hwords := twoWords_append (program_ne_blank program)
    (['i', 'n', 'v', 'o', 'k', 'e', ' ', '['] ++ (Lib.decimal depth ++ [']']))
  have hword : (['i', 'n', 'v', 'o', 'k', 'e', ' ', '['] ++ (Lib.decimal depth ++ [']'])).takeWhile
      (· ≠ ' ') = "invoke".toList := by rfl
  rw [hword] at hwords
  exact (parseLine_words hwords).trans (if_pos rfl)

theorem parseLine_left (fs : Frames) (program : ProgramId) :
    parseLine fs (String.ofList (Lib.left program)) = fs.leave program.text := by
  have hwords := twoWords_append (program_ne_blank program) ['s', 'u', 'c', 'c', 'e', 's', 's']
  have hword : ['s', 'u', 'c', 'c', 'e', 's', 's'].takeWhile (· ≠ ' ') = "success".toList := by
    decide
  rw [hword] at hwords
  refine (parseLine_words hwords).trans ?_
  rw [if_neg (by decide), if_pos (Or.inl rfl)]

/-- A printed text is read as the start of a frame, as the end of one, or as a line. -/
theorem parseLine_output (fs : Frames) (label : LogLabel) (text : List Char) :
    parseLine fs (String.ofList (Line.text (.output label text))) =
      if opens (.output label text) then some (fs.invoke label.word)
      else if closes (.output label text) then fs.leave label.word
      else fs.log (Line.text (.output label text)) := by
  have hwords := twoWords_append (label_ne_blank label) text
  refine (parseLine_words hwords).trans ?_
  change (if said text = "invoke".toList then _ else
    if said text = "success".toList ∨ said text = "failed:".toList then _ else _) = _
  by_cases hopen : said text = "invoke".toList
  · have hopens : opens (.output label text) = true := decide_eq_true hopen
    rw [if_pos hopen, if_pos hopens]
  · have hopens : ¬ opens (.output label text) = true := fun h => hopen (of_decide_eq_true h)
    rw [if_neg hopen, if_neg hopens]
    by_cases hclose : said text = "success".toList ∨ said text = "failed:".toList
    · have hcloses : closes (.output label text) = true := decide_eq_true hclose
      rw [if_pos hclose, if_pos hcloses]
    · have hcloses : ¬ closes (.output label text) = true := fun h => hclose (of_decide_eq_true h)
      rw [if_neg hclose, if_neg hcloses]
      rfl

theorem parseLine_consumed (fs : Frames) (program : ProgramId) (units : List Char) :
    parseLine fs (String.ofList (Line.text (.consumed program units))) =
      fs.log (Line.text (.consumed program units)) := by
  have hwords := twoWords_append (program_ne_blank program)
    (['c', 'o', 'n', 's', 'u', 'm', 'e', 'd', ' '] ++ units)
  have hword : (['c', 'o', 'n', 's', 'u', 'm', 'e', 'd', ' '] ++ units).takeWhile (· ≠ ' ') =
      ['c', 'o', 'n', 's', 'u', 'm', 'e', 'd'] := by rfl
  rw [hword] at hwords
  have htext : Line.text (.consumed program units) = Lib.PROGRAM ++
      (program.text ++ ' ' :: (['c', 'o', 'n', 's', 'u', 'm', 'e', 'd', ' '] ++ units)) := by
    rw [Line.text, List.append_assoc]
    rfl
  rw [htext]
  refine (parseLine_words hwords).trans ?_
  rw [if_neg (by decide), if_neg (by decide)]

/-- The lines of a log as the transaction holds them. -/
def texts (log : List (List Char)) : List String := log.map String.ofList

/-! ## Counting -/

/-- Entries that a printed text put on the stack. -/
def Fake (entries : List (List Char × Option Nat)) : Prop :=
  ∀ e ∈ entries, ∃ label : LogLabel, e.1 = label.word

theorem log_stack {fs fs' : Frames} {line : List Char} (h : fs.log line = some fs') :
    fs'.stack = fs.stack ∧ fs'.parents = fs.parents := by
  unfold Frames.log at h
  split at h
  · split at h
    · cases h
      exact ⟨rfl, rfl⟩
    · split at h
      · cases h
        exact ⟨rfl, rfl⟩
      · split at h
        · split at h
          · cases h
          · cases h
            exact ⟨rfl, rfl⟩
        · cases h
          exact ⟨rfl, rfl⟩
  · cases h
    exact ⟨rfl, rfl⟩

theorem invoke_stack (fs : Frames) (program : List Char) :
    ∃ f, (fs.invoke program).stack = (program, f) :: fs.stack := by
  by_cases hown : program = EPHEMERAL_SPL_PROGRAM.toList
  · exact ⟨some fs.frames.length, by rw [Frames.invoke]; simp only [if_pos hown]⟩
  · exact ⟨none, by rw [Frames.invoke]; simp only [if_neg hown]⟩

theorem invoke_parents (fs : Frames) (program : List Char) :
    (fs.invoke program).parents = match fs.stack with
      | [] => fs.parents
      | (_, frame) :: _ => fs.parents ++ [frame] := by
  unfold Frames.invoke
  by_cases hown : program = EPHEMERAL_SPL_PROGRAM.toList
  · exact congrArg Frames.parents (if_pos hown)
  · exact congrArg Frames.parents (if_neg hown)

/-- Within a frame every start adds one inner instruction. -/
theorem invoke_parents_length {fs : Frames} (h : fs.stack ≠ []) (program : List Char) :
    (fs.invoke program).parents.length = fs.parents.length + 1 := by
  obtain ⟨⟨top, f⟩, rest, hstack⟩ := List.exists_cons_of_ne_nil h
  rw [invoke_parents, hstack, List.length_append, List.length_singleton]

theorem leave_eq_some {fs fs' : Frames} {program : List Char} (h : fs.leave program = some fs') :
    ∃ f rest, fs.stack = (program, f) :: rest ∧ fs' = { fs with stack := rest } := by
  unfold Frames.leave at h
  split at h
  · rename_i top f rest hstack
    split at h
    · rename_i heq
      cases h
      exact ⟨f, rest, by rw [hstack, heq], rfl⟩
    · cases h
  · cases h

section

variable {ι : Type}

/-- How many texts below a frame, its own among them, are read as starts. -/
def opened (printed : List (ProgramId × Line)) : Nat := printed.countP fun p => opens p.2

/-- How many are read as ends. -/
def closed (printed : List (ProgramId × Line)) : Nat :=
  printed.countP fun p => !opens p.2 && closes p.2

theorem opened_append (as bs : List (ProgramId × Line)) :
    opened (as ++ bs) = opened as + opened bs := List.countP_append

theorem closed_append (as bs : List (ProgramId × Line)) :
    closed (as ++ bs) = closed as + closed bs := List.countP_append

/-- Where reading a line that a frame prints leads, if it goes on. -/
theorem parseLine_text {fs fs' : Frames} {line : Line} {program : ProgramId} {f : Option Nat}
    {fakes S : List (List Char × Option Nat)}
    (hstack : fs.stack = fakes ++ (program.text, f) :: S) (hfake : Fake fakes)
    (h : parseLine fs (String.ofList line.text) = some fs') :
    ∃ fakes', fs'.stack = fakes' ++ (program.text, f) :: S ∧ Fake fakes' ∧
      fakes'.length + closed [(program, line)] = fakes.length + opened [(program, line)] ∧
      fs'.parents.length = fs.parents.length + opened [(program, line)] := by
  have hne : fs.stack ≠ [] := by
    rw [hstack]
    simp
  cases line with
  | consumed program units =>
    rw [parseLine_consumed] at h
    obtain ⟨hs, hp⟩ := log_stack h
    refine ⟨fakes, hs.trans hstack, hfake, rfl, ?_⟩
    rw [hp]
    rfl
  | output label text =>
    rw [parseLine_output] at h
    cases hopen : opens (.output label text) with
    | true =>
      rw [hopen, if_pos rfl] at h
      cases h
      obtain ⟨g, hs⟩ := invoke_stack fs label.word
      refine ⟨(label.word, g) :: fakes, by rw [hs, hstack]; rfl, ?_, ?_, ?_⟩
      · intro e he
        rcases List.mem_cons.mp he with rfl | he
        · exact ⟨label, rfl⟩
        · exact hfake e he
      · simp [opened, closed, hopen]
      · rw [invoke_parents_length hne]
        simp [opened, hopen]
    | false =>
      rw [hopen, if_neg Bool.false_ne_true] at h
      cases hclose : closes (.output label text) with
      | true =>
        rw [hclose, if_pos rfl] at h
        obtain ⟨g, rest, hs, rfl⟩ := leave_eq_some h
        rw [hstack] at hs
        cases fakes with
        | nil =>
          rw [List.nil_append, List.cons.injEq] at hs
          exact absurd (congrArg Prod.fst hs.1).symm (label_ne_program label program)
        | cons e fakes =>
          rw [List.cons_append, List.cons.injEq] at hs
          refine ⟨fakes, hs.2.symm, fun e he => hfake e (List.mem_cons_of_mem _ he), ?_, ?_⟩
          · simp [opened, closed, hopen, hclose]
          · simp [opened, hopen]
      | false =>
        rw [hclose, if_neg Bool.false_ne_true] at h
        obtain ⟨hs, hp⟩ := log_stack h
        refine ⟨fakes, hs.trans hstack, hfake, ?_, ?_⟩
        · simp [opened, closed, hopen, hclose]
        · rw [hp]
          simp [opened, hopen]

/-- What reading a frame does to the stack and to the number of inner instructions: texts read as
starts stay on the stack until a text is read as their end, and each adds an instruction. -/
theorem count_body {fs fs' : Frames} {body : Body ι} {depth : Nat} {program : ProgramId}
    {f : Option Nat} {fakes S : List (List Char × Option Nat)}
    (hstack : fs.stack = fakes ++ (program.text, f) :: S) (hfake : Fake fakes)
    (h : (texts (body.log depth)).foldlM parseLine fs = some fs') :
    ∃ fakes', fs'.stack = fakes' ++ (program.text, f) :: S ∧ Fake fakes' ∧
      fakes'.length + closed (body.printed program) =
        fakes.length + opened (body.printed program) ∧
      fs'.parents.length =
        fs.parents.length + body.inner.length + opened (body.printed program) := by
  induction body generalizing fs fs' depth program f fakes S with
  | done =>
    cases h
    exact ⟨fakes, hstack, hfake, rfl, rfl⟩
  | print line rest ih =>
    rw [texts, Body.log, List.map_cons, List.foldlM_cons] at h
    obtain ⟨fs₁, hline, hrest⟩ := Option.bind_eq_some_iff.mp h
    obtain ⟨fakes₁, hstack₁, hfake₁, hcount₁, hparents₁⟩ := parseLine_text hstack hfake hline
    obtain ⟨fakes₂, hstack₂, hfake₂, hcount₂, hparents₂⟩ := ih hstack₁ hfake₁ hrest
    refine ⟨fakes₂, hstack₂, hfake₂, ?_, ?_⟩
    · have hopen : opened ((Body.print line rest).printed program) =
          opened [(program, line)] + opened (rest.printed program) := opened_append [_] _
      have hclose : closed ((Body.print line rest).printed program) =
          closed [(program, line)] + closed (rest.printed program) := closed_append [_] _
      omega
    · have hopen : opened ((Body.print line rest).printed program) =
          opened [(program, line)] + opened (rest.printed program) := opened_append [_] _
      rw [hparents₂, hparents₁, hopen, Body.inner]
      omega
  | call callee instr inside rest ihInside ihRest =>
    rw [texts, Body.log, List.map_cons, List.map_append, List.map_cons, List.foldlM_cons,
      parseLine_entered] at h
    have hne : fs.stack ≠ [] := by
      rw [hstack]
      simp
    obtain ⟨g, hentered⟩ := invoke_stack fs callee.text
    have hparents₀ := invoke_parents_length hne callee.text
    rw [Option.bind_eq_bind, Option.bind_some, List.foldlM_append] at h
    obtain ⟨fs₁, hinside, h⟩ := Option.bind_eq_some_iff.mp h
    obtain ⟨fakes₁, hstack₁, hfake₁, hcount₁, hparents₁⟩ :=
      ihInside (show (fs.invoke callee.text).stack = [] ++ (callee.text, g) :: fs.stack from hentered)
        (fun e he => by cases he) hinside
    rw [List.foldlM_cons, parseLine_left] at h
    obtain ⟨fs₂, hleft, hrest⟩ := Option.bind_eq_some_iff.mp h
    obtain ⟨g', rest', hs, rfl⟩ := leave_eq_some hleft
    rw [hstack₁] at hs
    cases fakes₁ with
    | cons e fakes₁ =>
      obtain ⟨label, hlabel⟩ := hfake₁ e List.mem_cons_self
      rw [List.cons_append, List.cons.injEq] at hs
      exact absurd (hlabel.symm.trans (congrArg Prod.fst hs.1)) (label_ne_program label callee)
    | nil =>
      rw [List.nil_append, List.cons.injEq] at hs
      obtain ⟨fakes₂, hstack₂, hfake₂, hcount₂, hparents₂⟩ :=
        ihRest (hs.2.symm.trans hstack) hfake hrest
      have hopen : opened ((Body.call callee instr inside rest).printed program) =
          opened (inside.printed callee) + opened (rest.printed program) := opened_append _ _
      have hclose : closed ((Body.call callee instr inside rest).printed program) =
          closed (inside.printed callee) + closed (rest.printed program) := closed_append _ _
      refine ⟨fakes₂, hstack₂, hfake₂, ?_, ?_⟩
      · simp only [List.length_nil] at hcount₁
        omega
      · rw [hparents₂, hparents₁, hparents₀, hopen, Body.inner, List.length_cons,
          List.length_append]
        omega

theorem count_transaction {fs fs' : Frames} {tx : List (Invocation ι)} (hstack : fs.stack = [])
    (h : (texts (Invocation.logOf tx)).foldlM parseLine fs = some fs') :
    fs'.stack = [] ∧ closed (Invocation.printedOf tx) = opened (Invocation.printedOf tx) ∧
      fs'.parents.length = fs.parents.length + (Invocation.innerOf tx).length +
        opened (Invocation.printedOf tx) := by
  induction tx generalizing fs with
  | nil =>
    cases h
    exact ⟨hstack, rfl, rfl⟩
  | cons v tx ih =>
    rw [texts, Invocation.logOf, List.flatMap_cons, Invocation.log, List.map_append, List.map_cons,
      List.map_append, List.cons_append, List.foldlM_cons, parseLine_entered, Option.bind_eq_bind,
      Option.bind_some, List.append_assoc, List.foldlM_append] at h
    obtain ⟨fs₁, hbody, h⟩ := Option.bind_eq_some_iff.mp h
    obtain ⟨g, hentered⟩ := invoke_stack fs v.program.text
    have hparents₀ : (fs.invoke v.program.text).parents = fs.parents := by
      rw [invoke_parents, hstack]
    obtain ⟨fakes, hstack₁, hfake₁, hcount₁, hparents₁⟩ :=
      count_body
        (show (fs.invoke v.program.text).stack = [] ++ (v.program.text, g) :: fs.stack from hentered)
        (fun e he => nomatch he) hbody
    rw [List.map_cons, List.map_nil, List.cons_append, List.nil_append, List.foldlM_cons,
      parseLine_left] at h
    obtain ⟨fs₂, hleft, hrest⟩ := Option.bind_eq_some_iff.mp h
    obtain ⟨g', rest', hs, rfl⟩ := leave_eq_some hleft
    rw [hstack₁] at hs
    cases fakes with
    | cons e fakes =>
      obtain ⟨label, hlabel⟩ := hfake₁ e List.mem_cons_self
      rw [List.cons_append, List.cons.injEq] at hs
      exact absurd (hlabel.symm.trans (congrArg Prod.fst hs.1)) (label_ne_program label v.program)
    | nil =>
      rw [List.nil_append, List.cons.injEq] at hs
      obtain ⟨hstack₂, hcount₂, hparents₂⟩ := ih (hs.2.symm.trans hstack) hrest
      have hopen : opened (Invocation.printedOf (v :: tx)) =
          opened (v.body.printed v.program) + opened (Invocation.printedOf tx) :=
        opened_append _ _
      have hclose : closed (Invocation.printedOf (v :: tx)) =
          closed (v.body.printed v.program) + closed (Invocation.printedOf tx) :=
        closed_append _ _
      have hinner : (Invocation.innerOf (v :: tx)).length =
          v.body.inner.length + (Invocation.innerOf tx).length := List.length_append
      simp only [List.length_nil] at hcount₁
      refine ⟨hstack₂, by omega, ?_⟩
      rw [hparents₂, hparents₁, hparents₀]
      omega

/-! ## Logs without such texts -/

/-- No printed text looks like the start or the end of a frame. -/
def Clean (printed : List (ProgramId × Line)) : Prop :=
  ∀ p ∈ printed, opens p.2 = false ∧ closes p.2 = false

theorem clean_of_opened {printed : List (ProgramId × Line)} (hopen : opened printed = 0)
    (hclose : closed printed = 0) : Clean printed := by
  intro p hp
  have hno : opens p.2 = false := by
    have h := List.countP_eq_zero.mp hopen p hp
    exact Bool.eq_false_iff.mpr h
  have hnc := List.countP_eq_zero.mp hclose p hp
  rw [hno, Bool.not_false, Bool.true_and] at hnc
  exact ⟨hno, Bool.eq_false_iff.mpr hnc⟩

/-- What a line says of the frame that printed it. -/
def Frame.read (frame : Frame) (line : List Char) : Option Frame :=
  if line = EXECUTE_LOG.toList then some { frame with execute := true }
  else
    match stripPrefix REF_LOG.toList line with
    | some value =>
      if frame.reference.isSome ∨ value = [] ∨ ¬ value.all isDigit then none
      else some { frame with reference := some (String.ofList value) }
    | none => some frame

/-- A line read for the frame with an index, if there is one. -/
def readAt (f : Option Nat) (frames : List Frame) (line : Line) : Option (List Frame) :=
  match f with
  | none => some frames
  | some k =>
    match frames[k]? with
    | none => some frames
    | some frame => (frame.read line.text).map (frames.set k)

theorem parseLine_clean {fs : Frames} {line : Line} {top : List Char} {f : Option Nat}
    {S : List (List Char × Option Nat)} (hstack : fs.stack = (top, f) :: S)
    (hopen : opens line = false) (hclose : closes line = false) :
    parseLine fs (String.ofList line.text) =
      (readAt f fs.frames line).map fun frames => { fs with frames := frames } := by
  have hlog : parseLine fs (String.ofList line.text) = fs.log line.text := by
    cases line with
    | consumed program units => exact parseLine_consumed fs program units
    | output label text =>
      rw [parseLine_output, hopen, if_neg Bool.false_ne_true, hclose, if_neg Bool.false_ne_true]
  obtain ⟨stack, frames, parents⟩ := fs
  cases (hstack : stack = (top, f) :: S)
  rw [hlog]
  cases f with
  | none => rfl
  | some k =>
    change (match frames[k]? with | none => _ | some frame => _) = _
    unfold readAt
    dsimp only
    cases hframe : frames[k]? with
    | none => rfl
    | some frame =>
      obtain ⟨hk, rfl⟩ := List.getElem?_eq_some_iff.mp hframe
      dsimp only
      unfold Frame.read
      by_cases hexecute : line.text = EXECUTE_LOG.toList
      · rw [if_pos hexecute, if_pos hexecute]
        rfl
      · rw [if_neg hexecute, if_neg hexecute]
        cases stripPrefix REF_LOG.toList line.text with
        | none => rw [Option.map_some, Option.map_some, List.set_getElem_self]
        | some value =>
          dsimp only
          by_cases hbad : frames[k].reference.isSome = true ∨ value = [] ∨ ¬value.all isDigit
          · rw [if_pos hbad, if_pos hbad]
            rfl
          · rw [if_neg hbad, if_neg hbad]
            rfl

/-- All lines of a frame, read from nothing. -/
def readFrame (lines : List Line) : Option Frame :=
  lines.foldlM (fun (frame : Frame) line => frame.read line.text) ⟨false, none⟩

theorem readAt_length {f : Option Nat} {frames frames' : List Frame} {line : Line}
    (h : readAt f frames line = some frames') : frames'.length = frames.length := by
  unfold readAt at h
  cases f with
  | none =>
    cases h
    rfl
  | some k =>
    dsimp only at h
    cases hframe : frames[k]? with
    | none =>
      rw [hframe] at h
      cases h
      rfl
    | some frame =>
      rw [hframe] at h
      obtain ⟨frame', -, rfl⟩ := Option.map_eq_some_iff.mp h
      exact List.length_set

/-- Frames that come later are not touched. -/
theorem readAt_append {f : Option Nat} {frames : List Frame} (hf : ∀ k, f = some k → k < frames.length)
    (new : List Frame) (line : Line) :
    readAt f (frames ++ new) line = (readAt f frames line).map (· ++ new) := by
  unfold readAt
  cases f with
  | none => rfl
  | some k =>
    have hk := hf k rfl
    dsimp only
    rw [List.getElem?_append_left hk]
    cases frames[k]? with
    | none => rfl
    | some frame =>
      dsimp only
      cases frame.read line.text with
      | none => rfl
      | some frame' => rw [Option.map_some, Option.map_some, Option.map_some, List.set_append_left _ _ hk]

theorem foldlM_readAt_append {f : Option Nat} {frames : List Frame}
    (hf : ∀ k, f = some k → k < frames.length) (new : List Frame) (lines : List Line) :
    lines.foldlM (readAt f) (frames ++ new) = (lines.foldlM (readAt f) frames).map (· ++ new) := by
  induction lines generalizing frames with
  | nil => rfl
  | cons line lines ih =>
    rw [List.foldlM_cons, List.foldlM_cons, readAt_append hf]
    cases hread : readAt f frames line with
    | none => rfl
    | some frames' =>
      exact ih fun k hk => by rw [readAt_length hread]; exact hf k hk

/-- A frame that was entered last is read from nothing. -/
theorem foldlM_readAt_last (frames : List Frame) (frame : Frame) (lines : List Line) :
    lines.foldlM (readAt (some frames.length)) (frames ++ [frame]) =
      (lines.foldlM (fun (frame : Frame) line => frame.read line.text) frame).map
        (frames ++ [·]) := by
  induction lines generalizing frame with
  | nil => rfl
  | cons line lines ih =>
    have hat : readAt (some frames.length) (frames ++ [frame]) line =
        (frame.read line.text).map (frames ++ [·]) := by
      unfold readAt
      dsimp only
      rw [List.getElem?_append_right (Nat.le_refl _), Nat.sub_self]
      dsimp only [List.getElem?_cons_zero]
      congr 1
      funext frame'
      rw [List.set_append_right _ _ (Nat.le_refl _), Nat.sub_self, List.set_cons_zero]
    rw [List.foldlM_cons, List.foldlM_cons, hat]
    cases frame.read line.text with
    | none => rfl
    | some frame' => exact ih frame'

theorem foldlM_readAt_none (frames : List Frame) (lines : List Line) :
    lines.foldlM (readAt none) frames = some frames := by
  induction lines with
  | nil => rfl
  | cons line lines ih => exact ih

/-! ## The frames and parents of a clean log -/

def isSpl (program : ProgramId) : Bool := program.text = EPHEMERAL_SPL_PROGRAM.toList

/-- The frames of the Ephemeral SPL Token program. -/
def splFrames (frames : List (Activation ι)) : List (Activation ι) :=
  frames.filter fun a => isSpl a.program

/-- The frame a program is entered with, when `n` are there. -/
def newFrame (n : Nat) (program : ProgramId) : Option Nat := if isSpl program then some n else none

/-- Whose frame made each call below a frame `f`, when `n` frames are there. -/
def parentsBelow (f : Option Nat) (n : Nat) : Body ι → List (Option Nat)
  | .done => []
  | .print _ rest => parentsBelow f n rest
  | .call callee _ inside rest =>
    let entered := n + (splFrames [inside.activation callee]).length
    f :: (parentsBelow (newFrame n callee) entered inside ++
      parentsBelow f (entered + (splFrames inside.activations).length) rest)

/-- What the lines of frames say of them. -/
def readFrames (frames : List (Activation ι)) : Option (List Frame) :=
  (splFrames frames).mapM fun a => readFrame a.lines

theorem splFrames_append (as bs : List (Activation ι)) :
    splFrames (as ++ bs) = splFrames as ++ splFrames bs := List.filter_append _ _

theorem readFrames_append (as bs : List (Activation ι)) :
    readFrames (as ++ bs) =
      (readFrames as).bind fun a => (readFrames bs).map fun b => a ++ b := by
  unfold readFrames
  rw [splFrames_append, List.mapM_append]
  cases List.mapM (fun a => readFrame a.lines) (splFrames as) with
  | none => rfl
  | some a =>
    cases List.mapM (fun a => readFrame a.lines) (splFrames bs) with
    | none => rfl
    | some b => rfl

theorem readFrames_length {as : List (Activation ι)} {frames : List Frame}
    (h : readFrames as = some frames) : frames.length = (splFrames as).length := by
  unfold readFrames at h
  generalize splFrames as = l at h
  induction l generalizing frames with
  | nil =>
    cases h
    rfl
  | cons a l ih =>
    rw [List.mapM_cons] at h
    obtain ⟨b, -, h⟩ := Option.bind_eq_some_iff.mp h
    obtain ⟨bs, hbs, h⟩ := Option.bind_eq_some_iff.mp h
    cases h
    rw [List.length_cons, ih hbs, List.length_cons]

theorem invoke_eq {fs : Frames} {top : List Char} {f : Option Nat}
    {S : List (List Char × Option Nat)} (hstack : fs.stack = (top, f) :: S) (callee : ProgramId) :
    fs.invoke callee.text =
      { stack := (callee.text, newFrame fs.frames.length callee) :: fs.stack
        frames := fs.frames ++ if isSpl callee then [⟨false, none⟩] else []
        parents := fs.parents ++ [f] } := by
  rw [Frames.invoke, hstack, newFrame]
  by_cases hown : callee.text = EPHEMERAL_SPL_PROGRAM.toList
  · have hspl : isSpl callee = true := decide_eq_true hown
    simp only [if_pos hown, hspl, if_true]
  · have hspl : isSpl callee = false := decide_eq_false hown
    simp only [if_neg hown, hspl, Bool.false_eq_true, if_false, List.append_nil]

theorem newFrame_lt (frames : List Frame) (callee : ProgramId) (k : Nat)
    (h : newFrame frames.length callee = some k) :
    k < (frames ++ if isSpl callee then [(⟨false, none⟩ : Frame)] else []).length := by
  unfold newFrame at h
  split at h
  · rename_i hspl
    cases h
    rw [if_pos hspl, List.length_append]
    exact Nat.lt_succ_self _
  · cases h

/-- The own lines of a frame that was just entered. -/
theorem foldlM_readAt_entered (frames : List Frame) (callee : ProgramId) (inside : Body ι) :
    inside.lines.foldlM (readAt (newFrame frames.length callee))
        (frames ++ if isSpl callee then [⟨false, none⟩] else []) =
      (readFrames [inside.activation callee]).map (frames ++ ·) := by
  unfold readFrames splFrames newFrame
  cases hspl : isSpl callee with
  | true =>
    rw [List.filter_cons_of_pos (by exact hspl), if_pos rfl, if_pos rfl, foldlM_readAt_last]
    rw [List.filter_nil, List.mapM_cons, List.mapM_nil]
    change _ = (Option.bind (readFrame inside.lines) _).map _
    unfold readFrame
    cases inside.lines.foldlM (fun (frame : Frame) line => frame.read line.text) ⟨false, none⟩ with
    | none => rfl
    | some frame => rfl
  | false =>
    rw [List.filter_cons_of_neg (by simp [Body.activation, hspl]), if_neg Bool.false_ne_true,
      if_neg Bool.false_ne_true, foldlM_readAt_none]
    rfl

theorem entered_length (callee : ProgramId) (inside : Body ι) :
    (if isSpl callee then [(⟨false, none⟩ : Frame)] else []).length =
      (splFrames [inside.activation callee]).length := by
  unfold splFrames
  cases hspl : isSpl callee with
  | true =>
    rw [List.filter_cons_of_pos (by exact hspl)]
    rfl
  | false =>
    rw [List.filter_cons_of_neg (by simp [Body.activation, hspl])]
    rfl

theorem readFrames_cons (a : Activation ι) (as bs : List (Activation ι)) :
    readFrames (a :: (as ++ bs)) = (readFrames [a]).bind fun x =>
      (readFrames as).bind fun y => (readFrames bs).map fun z => x ++ (y ++ z) := by
  have hlist : a :: (as ++ bs) = [a] ++ (as ++ bs) := rfl
  rw [hlist, readFrames_append, readFrames_append]
  cases readFrames [a] with
  | none => rfl
  | some x =>
    cases readFrames as with
    | none => rfl
    | some y =>
      cases readFrames bs with
      | none => rfl
      | some z => rfl

/-- A clean log of a frame says of the frames below it what they printed themselves, and of the
calls below it which frames made them. -/
theorem scan_body {fs : Frames} {body : Body ι} {depth : Nat} {program : ProgramId}
    {top : List Char} {f : Option Nat} {S : List (List Char × Option Nat)}
    (hstack : fs.stack = (top, f) :: S) (hf : ∀ k, f = some k → k < fs.frames.length)
    (hclean : Clean (body.printed program)) :
    (texts (body.log depth)).foldlM parseLine fs =
      (body.lines.foldlM (readAt f) fs.frames).bind fun own =>
        (readFrames body.activations).map fun new =>
          { stack := fs.stack, frames := own ++ new
            parents := fs.parents ++ parentsBelow f fs.frames.length body } := by
  induction body generalizing fs depth program top f S with
  | done =>
    change some fs = some { fs with frames := fs.frames ++ [], parents := fs.parents ++ [] }
    rw [List.append_nil, List.append_nil]
  | print line rest ih =>
    obtain ⟨hopen, hclose⟩ := hclean (program, line) List.mem_cons_self
    have hrest : Clean (rest.printed program) := fun p hp => hclean p (List.mem_cons_of_mem _ hp)
    rw [texts, Body.log, List.map_cons, List.foldlM_cons, parseLine_clean hstack hopen hclose,
      Body.lines, List.foldlM_cons]
    cases hread : readAt f fs.frames line with
    | none => rfl
    | some frames =>
      have hlength := readAt_length hread
      refine (@ih { fs with frames := frames } depth program top f S hstack
        (fun k hk => by rw [hlength]; exact hf k hk) hrest).trans ?_
      rw [hlength]
      rfl
  | call callee instr inside rest ihInside ihRest =>
    have hcleanInside : Clean (inside.printed callee) := fun p hp =>
      hclean p (List.mem_append_left _ hp)
    have hcleanRest : Clean (rest.printed program) := fun p hp =>
      hclean p (List.mem_append_right _ hp)
    have hsplit : readFrames (Body.activations (.call callee instr inside rest)) =
        (readFrames [inside.activation callee]).bind fun a =>
          (readFrames inside.activations).bind fun b =>
            (readFrames rest.activations).map fun c => a ++ (b ++ c) := readFrames_cons _ _ _
    rw [texts, Body.log, List.map_cons, List.map_append, List.map_cons, List.foldlM_cons,
      parseLine_entered, Option.bind_eq_bind, Option.bind_some, List.foldlM_append,
      invoke_eq hstack]
    have hinside : (texts (inside.log (depth + 1))).foldlM parseLine
        { stack := (callee.text, newFrame fs.frames.length callee) :: fs.stack
          frames := fs.frames ++ if isSpl callee then [⟨false, none⟩] else []
          parents := fs.parents ++ [f] } = _ :=
      ihInside rfl (newFrame_lt fs.frames callee) hcleanInside
    have hlines : Body.lines (.call callee instr inside rest) = rest.lines := rfl
    change ((texts (inside.log (depth + 1))).foldlM parseLine _).bind _ = _
    rw [hinside, foldlM_readAt_entered, hsplit, List.length_append, entered_length, hlines]
    cases ha : readFrames [inside.activation callee] with
    | none =>
      cases rest.lines.foldlM (readAt f) fs.frames with
      | none => rfl
      | some own => rfl
    | some a =>
      cases hb : readFrames inside.activations with
      | none =>
        cases rest.lines.foldlM (readAt f) fs.frames with
        | none => rfl
        | some own => rfl
      | some b =>
        have hla : a.length = (splFrames [inside.activation callee]).length := readFrames_length ha
        have hlb : b.length = (splFrames inside.activations).length := readFrames_length hb
        rw [Option.map_some, Option.bind_some, Option.map_some, Option.bind_some,
          List.foldlM_cons, parseLine_left]
        have hleave : Frames.leave
            { stack := (callee.text, newFrame fs.frames.length callee) :: fs.stack
              frames := fs.frames ++ a ++ b
              parents := fs.parents ++ [f] ++ parentsBelow (newFrame fs.frames.length callee)
                (fs.frames.length + (splFrames [inside.activation callee]).length) inside }
            callee.text = some
            { stack := fs.stack
              frames := fs.frames ++ a ++ b
              parents := fs.parents ++ [f] ++ parentsBelow (newFrame fs.frames.length callee)
                (fs.frames.length + (splFrames [inside.activation callee]).length) inside } :=
          if_pos rfl
        rw [hleave, Option.bind_eq_bind, Option.bind_some]
        have hrest : (texts (rest.log depth)).foldlM parseLine
            { stack := fs.stack
              frames := fs.frames ++ a ++ b
              parents := fs.parents ++ [f] ++ parentsBelow (newFrame fs.frames.length callee)
                (fs.frames.length + (splFrames [inside.activation callee]).length) inside } = _ :=
          ihRest hstack
            (fun k hk => by
              have := hf k hk
              rw [List.length_append, List.length_append]
              omega) hcleanRest
        refine hrest.trans ?_
        rw [List.append_assoc, foldlM_readAt_append hf]
        cases rest.lines.foldlM (readAt f) fs.frames with
        | none => rfl
        | some own =>
          cases readFrames rest.activations with
          | none => rfl
          | some c =>
            have hlength : (fs.frames ++ (a ++ b)).length = fs.frames.length +
                (splFrames [inside.activation callee]).length +
                  (splFrames inside.activations).length := by
              rw [List.length_append, List.length_append, hla, hlb]
              omega
            rw [hlength]
            simp [parentsBelow]

/-- Whose frame made each call of a transaction, when `n` frames are there. -/
def parentsOf (n : Nat) : List (Invocation ι) → List (Option Nat)
  | [] => []
  | v :: tx =>
    let entered := n + (splFrames [v.body.activation v.program]).length
    parentsBelow (newFrame n v.program) entered v.body ++
      parentsOf (entered + (splFrames v.body.activations).length) tx

theorem invoke_bottom {fs : Frames} (hstack : fs.stack = []) (callee : ProgramId) :
    fs.invoke callee.text =
      { stack := [(callee.text, newFrame fs.frames.length callee)]
        frames := fs.frames ++ if isSpl callee then [⟨false, none⟩] else []
        parents := fs.parents } := by
  rw [Frames.invoke, hstack, newFrame]
  by_cases hown : callee.text = EPHEMERAL_SPL_PROGRAM.toList
  · have hspl : isSpl callee = true := decide_eq_true hown
    simp only [if_pos hown, hspl, if_true]
  · have hspl : isSpl callee = false := decide_eq_false hown
    simp only [if_neg hown, hspl, Bool.false_eq_true, if_false, List.append_nil]

/-- What a clean log says of a transaction. -/
theorem scan_transaction {fs : Frames} {tx : List (Invocation ι)} (hstack : fs.stack = [])
    (hclean : Clean (Invocation.printedOf tx)) :
    (texts (Invocation.logOf tx)).foldlM parseLine fs =
      (readFrames (Invocation.activationsOf tx)).map fun new =>
        { stack := [], frames := fs.frames ++ new
          parents := fs.parents ++ parentsOf fs.frames.length tx } := by
  induction tx generalizing fs with
  | nil =>
    change some fs = some { stack := [], frames := fs.frames ++ [], parents := fs.parents ++ [] }
    rw [List.append_nil, List.append_nil, ← hstack]
  | cons v tx ih =>
    have hcleanBody : Clean (v.body.printed v.program) := fun p hp =>
      hclean p (List.mem_append_left _ hp)
    have hcleanRest : Clean (Invocation.printedOf tx) := fun p hp =>
      hclean p (List.mem_append_right _ hp)
    have hsplit : readFrames (Invocation.activationsOf (v :: tx)) =
        (readFrames [v.body.activation v.program]).bind fun a =>
          (readFrames v.body.activations).bind fun b =>
            (readFrames (Invocation.activationsOf tx)).map fun c => a ++ (b ++ c) :=
      readFrames_cons _ _ _
    rw [texts, Invocation.logOf, List.flatMap_cons, Invocation.log, List.map_append, List.map_cons,
      List.map_append, List.cons_append, List.foldlM_cons, parseLine_entered, Option.bind_eq_bind,
      Option.bind_some, List.append_assoc, List.foldlM_append, invoke_bottom hstack]
    have hbody : (texts (v.body.log 2)).foldlM parseLine
        { stack := [(v.program.text, newFrame fs.frames.length v.program)]
          frames := fs.frames ++ if isSpl v.program then [⟨false, none⟩] else []
          parents := fs.parents } = _ :=
      scan_body rfl (newFrame_lt fs.frames v.program) hcleanBody
    change ((texts (v.body.log 2)).foldlM parseLine _).bind _ = _
    rw [hbody, foldlM_readAt_entered, hsplit, List.length_append, entered_length]
    cases ha : readFrames [v.body.activation v.program] with
    | none => rfl
    | some a =>
      cases hb : readFrames v.body.activations with
      | none => rfl
      | some b =>
        have hla : a.length = (splFrames [v.body.activation v.program]).length :=
          readFrames_length ha
        have hlb : b.length = (splFrames v.body.activations).length := readFrames_length hb
        rw [Option.map_some, Option.bind_some, Option.map_some, Option.bind_some, List.map_cons,
          List.map_nil, List.cons_append, List.nil_append, List.foldlM_cons, parseLine_left]
        have hleave : Frames.leave
            { stack := [(v.program.text, newFrame fs.frames.length v.program)]
              frames := fs.frames ++ a ++ b
              parents := fs.parents ++ parentsBelow (newFrame fs.frames.length v.program)
                (fs.frames.length + (splFrames [v.body.activation v.program]).length) v.body }
            v.program.text = some
            { stack := []
              frames := fs.frames ++ a ++ b
              parents := fs.parents ++ parentsBelow (newFrame fs.frames.length v.program)
                (fs.frames.length + (splFrames [v.body.activation v.program]).length) v.body } :=
          if_pos rfl
        rw [hleave, Option.bind_eq_bind, Option.bind_some]
        refine (ih rfl hcleanRest).trans ?_
        have hlength : (fs.frames ++ a ++ b).length = fs.frames.length +
            (splFrames [v.body.activation v.program]).length +
              (splFrames v.body.activations).length := by
          rw [List.length_append, List.length_append, hla, hlb]
        dsimp only
        rw [hlength]
        cases readFrames (Invocation.activationsOf tx) with
        | none => rfl
        | some c => simp [parentsOf]

end

end ChainPay.Repay
