import ChainPay.Lib.Json

/-!
Programs that call programs, and the log a validator keeps of them. A frame prints lines and
makes calls in any order; the log brackets every frame with a line when it is entered and one when
it is left. What a frame prints is text after a label, so that a text may look like any line.
-/

namespace ChainPay.Lib

def isLetterOrDigit (c : Char) : Bool :=
  ('a' ≤ c && c ≤ 'z') || ('A' ≤ c && c ≤ 'Z') || ('0' ≤ c && c ≤ '9')

/-- The address of a program, as the log writes it. -/
structure ProgramId where
  text : List Char
  ne_nil : text ≠ []
  plain : text.all isLetterOrDigit = true
  deriving DecidableEq, Repr

/-- What the runtime puts before a text that a program hands it. -/
inductive LogLabel where
  | log
  | data
  | ret
  | consumption
  deriving DecidableEq, Repr

def LogLabel.word : LogLabel → List Char
  | .log => ['l', 'o', 'g', ':']
  | .data => ['d', 'a', 't', 'a', ':']
  | .ret => ['r', 'e', 't', 'u', 'r', 'n', ':']
  | .consumption => ['c', 'o', 'n', 's', 'u', 'm', 'p', 't', 'i', 'o', 'n', ':']

/-- A line that stands in the log of a frame besides its ends. -/
inductive Line where
  | output (label : LogLabel) (text : List Char)
  | consumed (program : ProgramId) (units : List Char)
  deriving DecidableEq, Repr

def PROGRAM : List Char := ['P', 'r', 'o', 'g', 'r', 'a', 'm', ' ']

def Line.text : Line → List Char
  | .output label text => PROGRAM ++ (label.word ++ ' ' :: text)
  | .consumed program units =>
    PROGRAM ++ (program.text ++ [' ', 'c', 'o', 'n', 's', 'u', 'm', 'e', 'd', ' '] ++ units)

def entered (program : ProgramId) (depth : Nat) : List Char :=
  PROGRAM ++ (program.text ++
    ([' ', 'i', 'n', 'v', 'o', 'k', 'e', ' ', '['] ++ (decimal depth ++ [']'])))

def left (program : ProgramId) : List Char :=
  PROGRAM ++ (program.text ++ [' ', 's', 'u', 'c', 'c', 'e', 's', 's'])

/-- What a frame does in order: lines, and calls of programs with an instruction. -/
inductive Body (ι : Type) where
  | done
  | print (line : Line) (rest : Body ι)
  | call (program : ProgramId) (instr : ι) (inner rest : Body ι)
  deriving Repr

/-- An instruction of the transaction itself. -/
structure Invocation (ι : Type) where
  program : ProgramId
  body : Body ι
  deriving Repr

variable {ι : Type}

namespace Body

/-- The log of a frame without its ends; its own calls are `depth` deep. -/
def log (depth : Nat) : Body ι → List (List Char)
  | done => []
  | print line rest => line.text :: rest.log depth
  | call program _ inner rest =>
    entered program depth :: (inner.log (depth + 1) ++ left program :: rest.log depth)

/-- The instructions of all calls below a frame, in execution order. -/
def inner : Body ι → List ι
  | done => []
  | print _ rest => rest.inner
  | call _ instr inside rest => instr :: (inside.inner ++ rest.inner)

/-- What the frame prints itself. -/
def lines : Body ι → List Line
  | done => []
  | print line rest => line :: rest.lines
  | call _ _ _ rest => rest.lines

/-- The instructions the frame calls itself. -/
def children : Body ι → List ι
  | done => []
  | print _ rest => rest.children
  | call _ instr _ rest => instr :: rest.children

end Body

/-- What one frame did itself: what it printed and what it called. -/
@[ext]
structure Activation (ι : Type) where
  program : ProgramId
  lines : List Line
  children : List ι
  deriving DecidableEq, Repr

namespace Body

def activation (program : ProgramId) (body : Body ι) : Activation ι :=
  ⟨program, body.lines, body.children⟩

/-- The frames below a frame, as they are entered. -/
def activations : Body ι → List (Activation ι)
  | done => []
  | print _ rest => rest.activations
  | call program _ inside rest =>
    inside.activation program :: (inside.activations ++ rest.activations)

/-- The lines below a frame and its own, each with the program that printed it, as in the log. -/
def printed (program : ProgramId) : Body ι → List (ProgramId × Line)
  | done => []
  | print line rest => (program, line) :: rest.printed program
  | call callee _ inside rest => inside.printed callee ++ rest.printed program

/-- Without what some programs print. -/
def silence (quiet : ProgramId → Bool) (program : ProgramId) : Body ι → Body ι
  | done => done
  | print line rest =>
    if quiet program then rest.silence quiet program else print line (rest.silence quiet program)
  | call callee instr inside rest =>
    call callee instr (inside.silence quiet callee) (rest.silence quiet program)

end Body

namespace Invocation

def log (v : Invocation ι) : List (List Char) :=
  entered v.program 1 :: (v.body.log 2 ++ [left v.program])

/-- The frames of a transaction. -/
def activationsOf (tx : List (Invocation ι)) : List (Activation ι) :=
  tx.flatMap fun v => v.body.activation v.program :: v.body.activations

def logOf (tx : List (Invocation ι)) : List (List Char) := tx.flatMap log

def innerOf (tx : List (Invocation ι)) : List ι := tx.flatMap fun v => v.body.inner

def printedOf (tx : List (Invocation ι)) : List (ProgramId × Line) :=
  tx.flatMap fun v => v.body.printed v.program

def silenceOf (quiet : ProgramId → Bool) (tx : List (Invocation ι)) : List (Invocation ι) :=
  tx.map fun v => ⟨v.program, v.body.silence quiet v.program⟩

end Invocation

/-! ## Silence -/

section

variable (quiet : ProgramId → Bool)

namespace Body

@[simp] theorem inner_silence (program : ProgramId) (body : Body ι) :
    (body.silence quiet program).inner = body.inner := by
  induction body generalizing program with
  | done => rfl
  | print line rest ih =>
    rw [silence]
    split
    · exact ih program
    · exact ih program
  | call callee instr inside rest ihInside ihRest =>
    simp only [silence, inner, ihInside, ihRest]

theorem printed_silence (program : ProgramId) (body : Body ι) :
    (body.silence quiet program).printed program =
      (body.printed program).filter fun p => !quiet p.1 := by
  induction body generalizing program with
  | done => rfl
  | print line rest ih =>
    cases hquiet : quiet program with
    | true =>
      rw [silence, if_pos hquiet, printed, List.filter_cons_of_neg (by simp [hquiet]), ih]
    | false =>
      rw [silence, if_neg (by simp [hquiet]), printed, printed,
        List.filter_cons_of_pos (by simp [hquiet]), ih]
  | call callee instr inside rest ihInside ihRest =>
    rw [silence, printed, printed, List.filter_append, ihInside, ihRest]

end Body

namespace Invocation

theorem printedOf_silenceOf (tx : List (Invocation ι)) :
    printedOf (silenceOf quiet tx) = (printedOf tx).filter fun p => !quiet p.1 := by
  induction tx with
  | nil => rfl
  | cons v tx ih =>
    simp only [printedOf, silenceOf] at ih ⊢
    rw [List.map_cons, List.flatMap_cons, List.flatMap_cons, ih, List.filter_append,
      Body.printed_silence]

end Invocation

end

end ChainPay.Lib
