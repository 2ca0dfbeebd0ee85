import Mathlib.Data.List.Nodup

/-!
Comma-separated files after RFC 4180, over any alphabet that has the four marks. A cell with a
mark in it is quoted and its quotes are doubled; lines end with CR LF, the last one too.
`parse` reads a file strictly (no quote inside an unquoted cell, nothing between a closing
quote and the next separator), and `parse_fileText` is the round trip for arbitrary cells.
-/

namespace ChainPay.Lib.Csv

/-- The marks of the format, told apart. -/
structure Marks (α : Type) where
  quote : α
  comma : α
  cr : α
  lf : α
  distinct : [quote, comma, cr, lf].Nodup

variable {α : Type} [DecidableEq α] (m : Marks α)

def isMark (c : α) : Bool := c = m.quote || c = m.comma || c = m.cr || c = m.lf

/-! ## Writing -/

def escaped (cell : List α) : List α :=
  cell.flatMap fun c => if c = m.quote then [m.quote, m.quote] else [c]

def cellText (cell : List α) : List α :=
  if cell.any (isMark m) then m.quote :: (escaped m cell ++ [m.quote]) else cell

/-- `join`, with the separator between the parts. -/
def lineText (cells : List (List α)) : List α := [m.comma].intercalate (cells.map (cellText m))

def fileText (rows : List (List (List α))) : List α :=
  [m.cr, m.lf].intercalate (rows.map (lineText m)) ++ [m.cr, m.lf]

/-! ## Reading -/

/-- Where the reader stands: before a cell, in an unquoted one, in a quoted one, after a quote
that closes the cell or is one of two, or after the CR of a line end. -/
inductive Mode where
  | start | plain | quoted | closed | ended
  deriving DecidableEq, Repr

/-- `cell` is the current cell, `cells` the cells of its row before it, `rows` the rows before. -/
def parse : Mode → List α → List (List α) → List (List (List α)) → List α →
    Option (List (List (List α)))
  | .start, _, [], rows, [] => some rows
  | .start, _, cells, rows, [] => some (rows ++ [cells ++ [[]]])
  | .plain, cell, cells, rows, [] => some (rows ++ [cells ++ [cell]])
  | .closed, cell, cells, rows, [] => some (rows ++ [cells ++ [cell]])
  | .quoted, _, _, _, [] => none
  | .ended, _, _, _, [] => none
  | .quoted, cell, cells, rows, c :: rest =>
    if c = m.quote then parse .closed cell cells rows rest
    else parse .quoted (cell ++ [c]) cells rows rest
  | .ended, _, cells, rows, c :: rest =>
    if c = m.lf then parse .start [] [] (rows ++ [cells]) rest else none
  | mode, cell, cells, rows, c :: rest =>
    if c = m.comma then parse .start [] (cells ++ [cell]) rows rest
    else if c = m.cr then parse .ended [] (cells ++ [cell]) rows rest
    else if c = m.lf then none
    else if c = m.quote then
      match mode with
      | .start => parse .quoted [] cells rows rest
      | .closed => parse .quoted (cell ++ [m.quote]) cells rows rest
      | _ => none
    else if mode = .closed then none
    else parse .plain (cell ++ [c]) cells rows rest

def parseFile (text : List α) : Option (List (List (List α))) := parse m .start [] [] [] text

/-! ## Round trip -/

variable {m}

omit [DecidableEq α] in
theorem Marks.facts (m : Marks α) : m.quote ≠ m.comma ∧ m.quote ≠ m.cr ∧ m.quote ≠ m.lf ∧
    m.comma ≠ m.cr ∧ m.comma ≠ m.lf ∧ m.cr ≠ m.lf := by
  have h := m.distinct
  simp only [List.nodup_cons, List.mem_cons, List.not_mem_nil, or_false, not_or] at h
  exact ⟨h.1.1, h.1.2.1, h.1.2.2, h.2.1.1, h.2.1.2, h.2.2.1⟩

/-- Between cells: before one, in an unquoted one or past a quoted one. -/
def Mode.open : Mode → Bool
  | .start | .plain | .closed => true
  | _ => false

theorem parse_comma {mode : Mode} (hmode : mode.open = true) (cell : List α)
    (cells : List (List α)) (rows : List (List (List α))) (rest : List α) :
    parse m mode cell cells rows (m.comma :: rest) =
      parse m .start [] (cells ++ [cell]) rows rest := by
  cases mode with
  | quoted => cases hmode
  | ended => cases hmode
  | _ => simp [parse]

theorem parse_crlf {mode : Mode} (hmode : mode.open = true) (cell : List α)
    (cells : List (List α)) (rows : List (List (List α))) (rest : List α) :
    parse m mode cell cells rows (m.cr :: m.lf :: rest) =
      parse m .start [] [] (rows ++ [cells ++ [cell]]) rest := by
  obtain ⟨-, -, -, hcomma, -, -⟩ := m.facts
  cases mode with
  | quoted => cases hmode
  | ended => cases hmode
  | _ => simp [parse, Ne.symm hcomma]

/-- An unquoted cell is read as it stands. -/
theorem parse_plain {mode : Mode} (hmode : mode = .start ∨ mode = .plain) (cell v : List α)
    (hv : v.any (isMark m) = false) (cells : List (List α)) (rows : List (List (List α)))
    (rest : List α) : ∃ mode', mode'.open = true ∧
      parse m mode cell cells rows (v ++ rest) = parse m mode' (cell ++ v) cells rows rest := by
  induction v generalizing mode cell with
  | nil =>
    refine ⟨mode, ?_, by rw [List.nil_append, List.append_nil]⟩
    rcases hmode with rfl | rfl <;> rfl
  | cons c v ih =>
    rw [List.any_cons, Bool.or_eq_false_iff] at hv
    have hmark := hv.1
    simp only [isMark, Bool.or_eq_false_iff, decide_eq_false_iff_not] at hmark
    obtain ⟨⟨⟨hquote, hcomma⟩, hcr⟩, hlf⟩ := hmark
    obtain ⟨mode', hopen, hrest⟩ := ih (.inr rfl) (cell ++ [c]) hv.2
    refine ⟨mode', hopen, ?_⟩
    rw [List.append_assoc, List.singleton_append] at hrest
    rw [← hrest, List.cons_append]
    rcases hmode with rfl | rfl <;> simp [parse, hquote, hcomma, hcr, hlf]

/-- Inside the quotes of a cell every character is read, the doubled quotes as one. -/
theorem parse_escaped (cell v : List α) (cells : List (List α)) (rows : List (List (List α)))
    (rest : List α) : parse m .quoted cell cells rows (escaped m v ++ rest) =
      parse m .quoted (cell ++ v) cells rows rest := by
  obtain ⟨hcomma, hcr, hlf, -, -, -⟩ := m.facts
  induction v generalizing cell with
  | nil => rw [List.append_nil, escaped, List.flatMap_nil, List.nil_append]
  | cons c v ih =>
    have hcons : cell ++ c :: v = (cell ++ [c]) ++ v := by
      rw [List.append_assoc, List.singleton_append]
    rw [hcons, ← ih, escaped, List.flatMap_cons, ← escaped, List.append_assoc]
    by_cases hquote : c = m.quote
    · subst hquote
      simp [parse, hcomma, hcr, hlf]
    · simp [parse, hquote]

/-- A written cell is read as its text. -/
theorem parse_cellText (v : List α) (cells : List (List α)) (rows : List (List (List α)))
    (rest : List α) : ∃ mode, mode.open = true ∧
      parse m .start [] cells rows (cellText m v ++ rest) = parse m mode v cells rows rest := by
  obtain ⟨hcomma, hcr, hlf, -, -, -⟩ := m.facts
  unfold cellText
  split
  · refine ⟨.closed, rfl, ?_⟩
    have hopen : parse m .start [] cells rows (m.quote :: (escaped m v ++ [m.quote] ++ rest)) =
        parse m .quoted [] cells rows (escaped m v ++ [m.quote] ++ rest) := by
      simp [parse, hcomma, hcr, hlf]
    rw [List.cons_append, hopen, List.append_assoc, parse_escaped, List.nil_append]
    simp [parse]
  · rename_i hv
    exact parse_plain (.inl rfl) [] v (Bool.not_eq_true _ ▸ hv) cells rows rest

/-- A written line is read as its cells. -/
theorem parse_lineText (row cells : List (List α)) (hrow : row ≠ [])
    (rows : List (List (List α))) (rest : List α) :
    parse m .start [] cells rows (lineText m row ++ (m.cr :: m.lf :: rest)) =
      parse m .start [] [] (rows ++ [cells ++ row]) rest := by
  unfold lineText
  induction row generalizing cells with
  | nil => exact absurd rfl hrow
  | cons v row ih =>
    cases row with
    | nil =>
      rw [List.map_cons, List.map_nil, List.intercalate_singleton]
      obtain ⟨mode, hopen, hcell⟩ := parse_cellText v cells rows (m.cr :: m.lf :: rest)
      rw [hcell, parse_crlf hopen]
    | cons w row =>
      have hjoin : [m.comma].intercalate ((v :: w :: row).map (cellText m)) =
          cellText m v ++ (m.comma :: [m.comma].intercalate ((w :: row).map (cellText m))) := by
        rw [List.map_cons, List.map_cons, List.intercalate_cons_cons]
        simp
      obtain ⟨mode, hopen, hcell⟩ := parse_cellText v cells rows
        (m.comma :: ([m.comma].intercalate ((w :: row).map (cellText m)) ++
          (m.cr :: m.lf :: rest)))
      rw [hjoin, List.append_assoc, List.cons_append, hcell, parse_comma hopen,
        ih (cells ++ [v]) (List.cons_ne_nil _ _), List.append_assoc, List.singleton_append]

/-- **Round trip.** A written file is read as its rows. -/
theorem parseFile_fileText (rows : List (List (List α))) (hne : rows ≠ [])
    (hrows : ∀ row ∈ rows, row ≠ []) : parseFile m (fileText m rows) = some rows := by
  have hrun : ∀ before : List (List (List α)),
      parse m .start [] [] before (fileText m rows) = some (before ++ rows) := by
    unfold fileText
    induction rows with
    | nil => exact absurd rfl hne
    | cons row rows ih =>
      intro before
      cases rows with
      | nil =>
        rw [List.map_cons, List.map_nil, List.intercalate_singleton,
          parse_lineText row [] (hrows row List.mem_cons_self)]
        rfl
      | cons next rows =>
        have hjoin : [m.cr, m.lf].intercalate ((row :: next :: rows).map (lineText m)) =
            lineText m row ++
              (m.cr :: m.lf :: [m.cr, m.lf].intercalate ((next :: rows).map (lineText m))) := by
          rw [List.map_cons, List.map_cons, List.intercalate_cons_cons]
          simp
        rw [hjoin, List.append_assoc, List.cons_append, List.cons_append,
          parse_lineText row [] (hrows row List.mem_cons_self), List.nil_append,
          ih (List.cons_ne_nil _ _) (fun r hr => hrows r (List.mem_cons_of_mem _ hr)),
          List.append_assoc, List.singleton_append]
  exact hrun []

end ChainPay.Lib.Csv
