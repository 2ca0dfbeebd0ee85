import ChainPay.Repay.CallLog

/-!
Whose payouts `settlements_in` finds: each comes from a frame of the Ephemeral SPL Token program
that printed itself that it executes a queued transfer and with which reference, and is the one
token transfer that this frame invoked.
-/

namespace ChainPay.Repay
open ChainPay.Lib (ProgramId LogLabel Line Body Invocation Activation)

section

variable {ι : Type}

/-! ## The calls of one frame -/

/-- The calls that a frame made. -/
def madeBy (k : Nat) (calls : List (ι × Option Nat)) : List ι :=
  calls.filterMap fun call => if call.2 = some k then some call.1 else none

theorem madeBy_append (k : Nat) (as bs : List (ι × Option Nat)) :
    madeBy k (as ++ bs) = madeBy k as ++ madeBy k bs := List.filterMap_append

theorem madeBy_cons (k : Nat) (ix : ι) (parent : Option Nat) (calls : List (ι × Option Nat)) :
    madeBy k ((ix, parent) :: calls) = (if parent = some k then [ix] else []) ++ madeBy k calls := by
  by_cases hparent : parent = some k
  · simp [madeBy, hparent]
  · simp [madeBy, hparent]

/-- What the frame with an index from `n` on called itself. -/
def childrenAt (n k : Nat) (frames : List (Activation ι)) : List ι :=
  if n ≤ k then ((frames[k - n]?).map (·.children)).getD [] else []

theorem childrenAt_append (n k : Nat) (as bs : List (Activation ι)) :
    childrenAt n k (as ++ bs) = childrenAt n k as ++ childrenAt (n + as.length) k bs := by
  unfold childrenAt
  by_cases hn : n ≤ k
  · rw [if_pos hn, if_pos hn]
    by_cases hk : k - n < as.length
    · rw [List.getElem?_append_left hk, if_neg (by omega), List.append_nil]
    · rw [List.getElem?_append_right (by omega), List.getElem?_eq_none (l := as) (by omega),
        if_pos (by omega), Option.map_none, Option.getD_none, List.nil_append, Nat.sub_sub]
  · rw [if_neg hn, if_neg hn, if_neg (by omega), List.append_nil]

theorem childrenAt_below {n k : Nat} (h : k < n) (frames : List (Activation ι)) :
    childrenAt n k frames = [] := if_neg (by omega)

theorem childrenAt_succ {n k : Nat} (h : n + 1 ≤ k) (a : Activation ι)
    (as : List (Activation ι)) : childrenAt n k (a :: as) = childrenAt (n + 1) k as := by
  have hindex : k - n = (k - (n + 1)) + 1 := by omega
  rw [childrenAt, if_pos (by omega), hindex, List.getElem?_cons_succ, childrenAt, if_pos h]

theorem parentsBelow_length (f : Option Nat) (n : Nat) (body : Body ι) :
    (parentsBelow f n body).length = body.inner.length := by
  induction body generalizing f n with
  | done => rfl
  | print line rest ih => exact ih f n
  | call callee instr inside rest ihInside ihRest =>
    simp only [parentsBelow, Body.inner, List.length_cons, List.length_append, ihInside, ihRest]

/-- The calls of the frame that a program was just entered with, if it has one. -/
theorem childrenAt_entered (n k : Nat) (callee : ProgramId) (inside : Body ι) :
    childrenAt n k (splFrames [inside.activation callee]) =
      if newFrame n callee = some k then inside.children else [] := by
  unfold splFrames newFrame
  cases hspl : isSpl callee with
  | true =>
    rw [List.filter_cons_of_pos (by exact hspl), List.filter_nil, if_pos rfl]
    unfold childrenAt
    by_cases hk : n = k
    · rw [if_pos (by omega), if_pos (by rw [hk]), hk, Nat.sub_self]
      rfl
    · rw [if_neg fun h => hk (Option.some.inj h)]
      split
      · rw [List.getElem?_eq_none (by simp only [List.length_singleton]; omega)]
        rfl
      · rfl
  | false =>
    rw [List.filter_cons_of_neg (by simp [Body.activation, hspl]), if_neg Bool.false_ne_true,
      if_neg (by simp)]
    unfold childrenAt
    split
    · rfl
    · rfl

theorem newFrame_le {n k : Nat} {callee : ProgramId} (h : newFrame n callee = some k) :
    ∀ inside : Body ι, k < n + (splFrames [inside.activation callee]).length := by
  intro inside
  unfold newFrame at h
  split at h
  · rename_i hspl
    cases h
    unfold splFrames
    rw [List.filter_cons_of_pos (by exact hspl)]
    exact Nat.lt_succ_self _
  · cases h

theorem splFrames_call (callee : ProgramId) (instr : ι) (inside rest : Body ι) :
    splFrames (Body.activations (.call callee instr inside rest)) =
      splFrames [inside.activation callee] ++
        (splFrames inside.activations ++ splFrames rest.activations) := by
  rw [← splFrames_append, ← splFrames_append]
  rfl

theorem splFrames_invocation (v : Invocation ι) (tx : List (Invocation ι)) :
    splFrames (Invocation.activationsOf (v :: tx)) =
      splFrames [v.body.activation v.program] ++
        (splFrames v.body.activations ++ splFrames (Invocation.activationsOf tx)) := by
  rw [← splFrames_append, ← splFrames_append]
  rfl

/-- The parents tell for each frame which calls it made itself. -/
theorem madeBy_parents {f : Option Nat} {n : Nat} (hf : ∀ j, f = some j → j < n) (k : Nat)
    (body : Body ι) :
    madeBy k (body.inner.zip (parentsBelow f n body)) =
      (if f = some k then body.children else []) ++ childrenAt n k (splFrames body.activations) := by
  induction body generalizing f n with
  | done =>
    have hnil : childrenAt n k (splFrames (Body.activations (.done : Body ι))) = [] := by
      unfold childrenAt
      split
      · rfl
      · rfl
    rw [hnil, List.append_nil]
    split
    · rfl
    · rfl
  | print line rest ih => exact ih hf
  | call callee instr inside rest ihInside ihRest =>
    have hinside := ihInside (f := newFrame n callee)
      (n := n + (splFrames [inside.activation callee]).length)
      (fun j hj => newFrame_le hj inside)
    have hrest := ihRest (f := f)
      (n := n + (splFrames [inside.activation callee]).length + (splFrames inside.activations).length)
      (fun j hj => by have := hf j hj; omega)
    rw [Body.inner, parentsBelow, List.zip_cons_cons,
      List.zip_append (by rw [parentsBelow_length])]
    rw [madeBy_cons, madeBy_append, hinside, hrest, splFrames_call, childrenAt_append, childrenAt_append,
      childrenAt_entered]
    by_cases hown : f = some k
    · have hk := hf k hown
      have hnew : newFrame n callee ≠ some k := by
        intro hnew
        unfold newFrame at hnew
        split at hnew
        · cases hnew
          omega
        · cases hnew
      rw [if_pos hown, if_pos hown, if_pos hown, if_neg hnew, childrenAt_below (by omega),
        childrenAt_below (by omega)]
      simp only [List.nil_append, List.append_nil, Body.children, List.cons_append]
    · rw [if_neg hown, if_neg hown, if_neg hown, List.nil_append, List.nil_append, List.nil_append,
        List.append_assoc]

/-- The parents of a transaction tell for each frame which calls it made itself. -/
theorem madeBy_parentsOf (n k : Nat) (tx : List (Invocation ι)) :
    madeBy k ((Invocation.innerOf tx).zip (parentsOf n tx)) =
      childrenAt n k (splFrames (Invocation.activationsOf tx)) := by
  induction tx generalizing n with
  | nil =>
    unfold childrenAt
    split
    · rfl
    · rfl
  | cons v tx ih =>
    have hinner : Invocation.innerOf (v :: tx) = v.body.inner ++ Invocation.innerOf tx := rfl
    rw [hinner, parentsOf, List.zip_append (by rw [parentsBelow_length]), madeBy_append, ih,
      madeBy_parents fun j hj => newFrame_le hj v.body, splFrames_invocation, childrenAt_append,
      childrenAt_append, childrenAt_entered, List.append_assoc]

/-! ## Other programs -/

/-- Every program but the Ephemeral SPL Token program. -/
def others (program : ProgramId) : Bool := !isSpl program

theorem silence_own {callee : ProgramId} (hspl : isSpl callee = true) (body : Body ι) :
    (body.silence others callee).activation callee = body.activation callee := by
  have hquiet : others callee = false := by rw [others, hspl, Bool.not_true]
  induction body with
  | done => rfl
  | print line rest ih =>
    rw [Body.silence, if_neg (by rw [hquiet]; exact Bool.false_ne_true)]
    have hlines := congrArg Activation.lines ih
    have hchildren := congrArg Activation.children ih
    exact Activation.ext rfl (congrArg (line :: ·) hlines) hchildren
  | call other instr inside rest _ ih =>
    have hlines := congrArg Activation.lines ih
    have hchildren := congrArg Activation.children ih
    exact Activation.ext rfl hlines (congrArg (instr :: ·) hchildren)

theorem splFrames_entered_silence (callee : ProgramId) (inside : Body ι) :
    splFrames [(inside.silence others callee).activation callee] =
      splFrames [inside.activation callee] := by
  cases hspl : isSpl callee with
  | true => rw [silence_own hspl]
  | false =>
    unfold splFrames
    rw [List.filter_cons_of_neg (by simp [Body.activation, hspl]),
      List.filter_cons_of_neg (by simp [Body.activation, hspl])]

/-- Silence of other programs changes no frame of this one. -/
theorem splFrames_silence (program : ProgramId) (body : Body ι) :
    splFrames (body.silence others program).activations = splFrames body.activations := by
  induction body generalizing program with
  | done => rfl
  | print line rest ih =>
    rw [Body.silence]
    split
    · exact ih program
    · exact ih program
  | call callee instr inside rest ihInside ihRest =>
    rw [Body.silence, splFrames_call, splFrames_call, splFrames_entered_silence, ihInside, ihRest]

theorem parentsBelow_silence (f : Option Nat) (n : Nat) (program : ProgramId) (body : Body ι) :
    parentsBelow f n (body.silence others program) = parentsBelow f n body := by
  induction body generalizing f n program with
  | done => rfl
  | print line rest ih =>
    rw [Body.silence]
    split
    · exact ih f n program
    · exact ih f n program
  | call callee instr inside rest ihInside ihRest =>
    simp only [Body.silence, parentsBelow, splFrames_entered_silence, splFrames_silence, ihInside,
      ihRest]

theorem splFrames_silenceOf (tx : List (Invocation ι)) :
    splFrames (Invocation.activationsOf (Invocation.silenceOf others tx)) =
      splFrames (Invocation.activationsOf tx) := by
  induction tx with
  | nil => rfl
  | cons v tx ih =>
    have hcons : Invocation.silenceOf others (v :: tx) =
        ⟨v.program, v.body.silence others v.program⟩ :: Invocation.silenceOf others tx := rfl
    rw [hcons, splFrames_invocation, splFrames_invocation, ih, splFrames_entered_silence,
      splFrames_silence]

theorem parentsOf_silenceOf (n : Nat) (tx : List (Invocation ι)) :
    parentsOf n (Invocation.silenceOf others tx) = parentsOf n tx := by
  induction tx generalizing n with
  | nil => rfl
  | cons v tx ih =>
    have hcons : Invocation.silenceOf others (v :: tx) =
        ⟨v.program, v.body.silence others v.program⟩ :: Invocation.silenceOf others tx := rfl
    rw [hcons]
    simp only [parentsOf, splFrames_entered_silence, splFrames_silence, parentsBelow_silence, ih]

theorem clean_silenceOf {tx : List (Invocation ι)} (h : Clean (Invocation.printedOf tx)) :
    Clean (Invocation.printedOf (Invocation.silenceOf others tx)) := by
  rw [Invocation.printedOf_silenceOf]
  exact fun p hp => h p (List.mem_of_mem_filter hp)

end

/-! ## What a frame printed -/

/-- The line that says that a frame executes a queued transfer. -/
def executes : Line → Bool
  | .output .log text => text = "Instruction: ExecuteReadyQueuedTransfer".toList
  | _ => false

/-- The reference that a line gives. -/
def referenceIn : Line → Option (List Char)
  | .output .log text => stripPrefix "client_ref_id: ".toList text
  | _ => none

/-- The runtime's line about units is no line that a program printed. -/
theorem consumed_ne_output (program : ProgramId) (units text : List Char) (label : LogLabel) :
    Line.text (.consumed program units) ≠ Line.text (.output label text) := by
  intro heq
  have hconsumed : Line.text (.consumed program units) = Lib.PROGRAM ++
      (program.text ++ ' ' :: (['c', 'o', 'n', 's', 'u', 'm', 'e', 'd', ' '] ++ units)) := by
    rw [Line.text, List.append_assoc]
    rfl
  rw [hconsumed, Line.text] at heq
  have hwords := congrArg twoWords (List.append_cancel_left heq)
  rw [twoWords_append (program_ne_blank program), twoWords_append (label_ne_blank label)] at hwords
  exact label_ne_program label program (congrArg Prod.fst hwords).symm

theorem execute_iff (line : Line) : line.text = EXECUTE_LOG.toList ↔ executes line = true := by
  have hlog : EXECUTE_LOG.toList =
      Line.text (.output .log "Instruction: ExecuteReadyQueuedTransfer".toList) := by decide
  cases line with
  | consumed program units =>
    constructor
    · intro h
      exact absurd (h.trans hlog) (consumed_ne_output _ _ _ _)
    · intro h
      cases h
  | output label text =>
    rw [hlog]
    cases label
    · constructor
      · intro h
        have htext := List.append_cancel_left (List.append_cancel_left h)
        exact decide_eq_true (List.cons.inj htext).2
      · intro h
        rw [of_decide_eq_true h]
    · constructor
      · intro h
        exact absurd (List.append_cancel_left h) (by simp [LogLabel.word])
      · intro h
        cases h
    · constructor
      · intro h
        exact absurd (List.append_cancel_left h) (by simp [LogLabel.word])
      · intro h
        cases h
    · constructor
      · intro h
        exact absurd (List.append_cancel_left h) (by simp [LogLabel.word])
      · intro h
        cases h

theorem referenceIn_eq (line : Line) : stripPrefix REF_LOG.toList line.text = referenceIn line := by
  cases line with
  | consumed program units =>
    cases hstrip : stripPrefix REF_LOG.toList (Line.text (.consumed program units)) with
    | none => rfl
    | some rest =>
      have htext := stripPrefix_eq_some hstrip
      have hlog : REF_LOG.toList ++ rest =
          Line.text (.output .log ("client_ref_id: ".toList ++ rest)) := by rfl
      exact absurd (htext.trans hlog) (consumed_ne_output _ _ _ _)
  | output label text =>
    cases label
    · rfl
    · rfl
    · rfl
    · rfl

theorem executes_referenceIn {line : Line} (h : executes line = true) : referenceIn line = none := by
  cases line with
  | consumed program units => cases h
  | output label text =>
    cases label
    · have htext : text = "Instruction: ExecuteReadyQueuedTransfer".toList := of_decide_eq_true h
      rw [htext]
      decide
    · cases h
    · cases h
    · cases h

/-- What one line adds to what its frame printed. -/
theorem read_eq_some {frame frame' : Frame} {line : Line} (h : frame.read line.text = some frame') :
    frame'.execute = (frame.execute || executes line) ∧
      frame'.reference.toList =
        frame.reference.toList ++ (referenceIn line).toList.map String.ofList ∧
      ∀ value ∈ referenceIn line, value ≠ [] ∧ value.all isDigit = true := by
  unfold Frame.read at h
  rw [referenceIn_eq] at h
  by_cases hexecute : line.text = EXECUTE_LOG.toList
  · rw [if_pos hexecute] at h
    cases h
    have hyes := (execute_iff line).mp hexecute
    rw [hyes, executes_referenceIn hyes]
    exact ⟨(Bool.or_true _).symm, by simp, fun value hvalue => nomatch hvalue⟩
  · rw [if_neg hexecute] at h
    have hno : executes line = false := Bool.eq_false_iff.mpr fun hyes =>
      hexecute ((execute_iff line).mpr hyes)
    rw [hno, Bool.or_false]
    cases href : referenceIn line with
    | none =>
      rw [href] at h
      cases h
      exact ⟨rfl, by simp, fun value hvalue => nomatch hvalue⟩
    | some value =>
      rw [href] at h
      dsimp only at h
      split at h
      · cases h
      · rename_i hgood
        rw [not_or, not_or, not_not] at hgood
        obtain ⟨hnone, hne, hdigits⟩ := hgood
        cases h
        have hempty : frame.reference = none := Option.not_isSome_iff_eq_none.mp hnone
        refine ⟨rfl, by simp [hempty], fun v hv => ?_⟩
        cases hv
        exact ⟨hne, hdigits⟩

/-- What the lines of a frame say together: whether one says that it executes, and the one
reference, in digits. -/
theorem foldlM_read {lines : List Line} {frame frame' : Frame}
    (h : lines.foldlM (fun (frame : Frame) line => frame.read line.text) frame = some frame') :
    frame'.execute = (frame.execute || lines.any executes) ∧
      frame'.reference.toList =
        frame.reference.toList ++ (lines.filterMap referenceIn).map String.ofList ∧
      ∀ value ∈ lines.filterMap referenceIn, value ≠ [] ∧ value.all isDigit = true := by
  induction lines generalizing frame with
  | nil =>
    cases h
    simp
  | cons line lines ih =>
    rw [List.foldlM_cons] at h
    obtain ⟨frame₁, hread, hrest⟩ := Option.bind_eq_some_iff.mp h
    obtain ⟨hexecute₁, href₁, hdigits₁⟩ := read_eq_some hread
    obtain ⟨hexecute, href, hdigits⟩ := ih hrest
    refine ⟨?_, ?_, ?_⟩
    · rw [hexecute, hexecute₁, List.any_cons, Bool.or_assoc]
    · rw [href, href₁, List.append_assoc]
      cases hline : referenceIn line with
      | none => simp [hline]
      | some value => simp [hline]
    · intro value hvalue
      obtain ⟨l, hl, hlv⟩ := List.mem_filterMap.mp hvalue
      rcases List.mem_cons.mp hl with rfl | hl
      · exact hdigits₁ value hlv
      · exact hdigits value (List.mem_filterMap.mpr ⟨l, hl, hlv⟩)

/-! ## Payouts -/

/-- A transfer of the token program. -/
def isTokenTransfer (ix : Inner) : Bool :=
  ix.programId = SPL_TOKEN_PROGRAM && (ix.kind = "transferChecked" || ix.kind = "transfer")

def amountOf (ix : Inner) : Option Nat := (ix.info.tokenAmount.or ix.info.amount).bind parseU64

section

variable [Connector]

/-- The mint that a payout is reported with: marked where the vault derived for it does not pay. -/
def reportedMint (ix : Inner) : String :=
  if Connector.vaultAccounts ix.info.mint = some (ix.info.authority, ix.info.source) then
    ix.info.mint
  else "not-vault:" ++ ix.info.mint

/-- The payout that an instruction is. -/
def payoutOf (ix : Inner) (amount : Nat) : Settlement where
  clientRefId := ""
  source := ix.info.source
  destination := ix.info.destination
  authority := ix.info.authority
  mint := reportedMint ix
  amount := amount

def paid (ix : Inner) : Option Settlement :=
  if isTokenTransfer ix then (amountOf ix).map (payoutOf ix) else none

theorem transferOf_eq (ix : Inner) (k : Nat) :
    transferOf ix (some k) =
      if isTokenTransfer ix then (amountOf ix).map fun amount => some (k, payoutOf ix amount)
      else some none := by
  unfold transferOf
  dsimp only
  by_cases htransfer : isTokenTransfer ix = true
  · rw [if_pos htransfer]
    have hparts := htransfer
    simp only [isTokenTransfer, Bool.and_eq_true, Bool.or_eq_true, decide_eq_true_eq] at hparts
    obtain ⟨hprogram, hkind⟩ := hparts
    have hneg : ¬ (ix.programId ≠ SPL_TOKEN_PROGRAM ∨
        ix.kind ≠ "transferChecked" ∧ ix.kind ≠ "transfer") := by
      rintro (hne | ⟨hne, hne'⟩)
      · exact hne hprogram
      · rcases hkind with hkind | hkind
        · exact hne hkind
        · exact hne' hkind
    rw [if_neg hneg]
    unfold amountOf
    cases ix.info.tokenAmount.or ix.info.amount with
    | none => rfl
    | some text =>
      rw [Option.bind_some]
      change (parseU64 text).bind _ = _
      cases parseU64 text with
      | none => rfl
      | some amount => rfl
  · rw [if_neg htransfer, if_pos]
    by_contra hneg
    rw [not_or, not_not, not_and_or, not_not, not_not] at hneg
    refine htransfer ?_
    simp only [isTokenTransfer, Bool.and_eq_true, Bool.or_eq_true, decide_eq_true_eq]
    exact hneg

/-- The transfers found for a frame are those among the calls that the frame made. -/
theorem transfers_made {calls : List (Inner × Option Nat)}
    {transfers : List (Option (Nat × Settlement))}
    (h : calls.mapM (fun call => transferOf call.1 call.2) = some transfers) (k : Nat) :
    (transfers.filterMap fun t => t.bind fun p => if p.1 = k then some p.2 else none) =
        (madeBy k calls).filterMap paid ∧
      ∀ ix ∈ madeBy k calls, isTokenTransfer ix = true → (amountOf ix).isSome = true := by
  induction calls generalizing transfers with
  | nil =>
    cases h
    exact ⟨rfl, fun ix hix => nomatch hix⟩
  | cons call calls ih =>
    obtain ⟨ix, parent⟩ := call
    rw [List.mapM_cons] at h
    obtain ⟨t, ht, h⟩ := Option.bind_eq_some_iff.mp h
    obtain ⟨ts, hts, h⟩ := Option.bind_eq_some_iff.mp h
    cases h
    obtain ⟨hfound, hreadable⟩ := ih hts
    rw [madeBy_cons, List.filterMap_append, ← hfound]
    cases parent with
    | none =>
      cases (ht : some none = some t)
      rw [if_neg (by simp)]
      exact ⟨rfl, hreadable⟩
    | some j =>
      dsimp only at ht
      rw [transferOf_eq] at ht
      by_cases htransfer : isTokenTransfer ix = true
      · rw [if_pos htransfer] at ht
        obtain ⟨amount, hamount, rfl⟩ := Option.map_eq_some_iff.mp ht
        have hpaid : paid ix = some (payoutOf ix amount) := by
          rw [paid, if_pos htransfer, hamount, Option.map_some]
        by_cases hk : j = k
        · rw [if_pos (by rw [hk]), List.filterMap_cons_some (by rw [Option.bind_some, if_pos hk]),
            List.filterMap_cons_some hpaid]
          refine ⟨rfl, fun ix' hix' htransfer' => ?_⟩
          rcases List.mem_cons.mp hix' with rfl | hix'
          · rw [hamount]
            rfl
          · exact hreadable ix' hix' htransfer'
        · rw [if_neg fun h => hk (Option.some.inj h),
            List.filterMap_cons_none (by rw [Option.bind_some, if_neg hk])]
          exact ⟨rfl, hreadable⟩
      · rw [if_neg htransfer] at ht
        cases ht
        have hpaid : paid ix = none := if_neg htransfer
        rw [List.filterMap_cons_none (by rfl)]
        by_cases hk : j = k
        · rw [if_pos (by rw [hk]), List.filterMap_cons_none hpaid]
          refine ⟨rfl, fun ix' hix' htransfer' => ?_⟩
          rcases List.mem_cons.mp hix' with rfl | hix'
          · exact absurd htransfer' htransfer
          · exact hreadable ix' hix' htransfer'
        · rw [if_neg fun h => hk (Option.some.inj h)]
          exact ⟨rfl, hreadable⟩

theorem filter_eq_nil_of_paid {calls : List Inner}
    (hreadable : ∀ ix ∈ calls, isTokenTransfer ix = true → (amountOf ix).isSome = true)
    (h : calls.filterMap paid = []) : calls.filter isTokenTransfer = [] := by
  rw [List.filter_eq_nil_iff]
  intro ix hix htransfer
  obtain ⟨amount, hamount⟩ := Option.isSome_iff_exists.mp (hreadable ix hix htransfer)
  have hnone := List.filterMap_eq_nil_iff.mp h ix hix
  rw [paid, if_pos htransfer, hamount] at hnone
  cases hnone

/-- One payout found is one transfer made. -/
theorem single_transfer {calls : List Inner} {s : Settlement}
    (hreadable : ∀ ix ∈ calls, isTokenTransfer ix = true → (amountOf ix).isSome = true)
    (h : calls.filterMap paid = [s]) :
    ∃ ix amount, calls.filter isTokenTransfer = [ix] ∧ amountOf ix = some amount ∧
      s = payoutOf ix amount := by
  induction calls with
  | nil => cases h
  | cons ix calls ih =>
    have hrest : ∀ ix ∈ calls, isTokenTransfer ix = true → (amountOf ix).isSome = true :=
      fun ix hix => hreadable ix (List.mem_cons_of_mem _ hix)
    by_cases htransfer : isTokenTransfer ix = true
    · obtain ⟨amount, hamount⟩ :=
        Option.isSome_iff_exists.mp (hreadable ix List.mem_cons_self htransfer)
      have hpaid : paid ix = some (payoutOf ix amount) := by
        rw [paid, if_pos htransfer, hamount, Option.map_some]
      rw [List.filterMap_cons_some hpaid, List.cons.injEq] at h
      refine ⟨ix, amount, ?_, hamount, h.1.symm⟩
      rw [List.filter_cons_of_pos htransfer, filter_eq_nil_of_paid hrest h.2]
    · have hpaid : paid ix = none := if_neg htransfer
      rw [List.filterMap_cons_none hpaid] at h
      rw [List.filter_cons_of_neg htransfer]
      exact ih hrest h

/-- What a settlement says of the frame it was read off. -/
structure Attributed (a : Activation Inner) (s : Settlement) : Prop where
  /-- The reference is printed once. -/
  reference : a.lines.filterMap referenceIn = [s.clientRefId.toList]
  digits : s.clientRefId.toList ≠ [] ∧ s.clientRefId.toList.all isDigit = true
  /-- The frame invoked one token transfer, and the settlement is that transfer. -/
  transfer : ∃ ix, a.children.filter isTokenTransfer = [ix] ∧ amountOf ix = some s.amount ∧
    s.source = ix.info.source ∧ s.destination = ix.info.destination ∧
    s.authority = ix.info.authority ∧ s.mint = reportedMint ix

theorem attributed_of_settlementOf {transfers : List (Option (Nat × Settlement))} {frame : Frame}
    {k : Nat} {out : Option Settlement} {a : Activation Inner}
    (hframe : readFrame a.lines = some frame)
    (hmade : (transfers.filterMap fun t => t.bind fun p => if p.1 = k then some p.2 else none) =
      a.children.filterMap paid)
    (hreadable : ∀ ix ∈ a.children, isTokenTransfer ix = true → (amountOf ix).isSome = true)
    (h : settlementOf transfers frame k = some out) :
    if a.lines.any executes then ∃ s, out = some s ∧ Attributed a s else out = none := by
  obtain ⟨hexecute, href, hdigits⟩ := foldlM_read hframe
  rw [Bool.false_or] at hexecute
  rw [← hexecute]
  unfold settlementOf at h
  cases hyes : frame.execute with
  | false =>
    rw [hyes, if_pos rfl] at h
    rw [if_neg Bool.false_ne_true]
    exact (Option.some.inj h).symm
  | true =>
    rw [hyes, if_neg (by simp)] at h
    rw [if_pos rfl]
    dsimp only at h
    rw [hmade] at h
    split at h
    · rename_i reference s hreference hpaid
      cases h
      rw [hreference] at href
      simp only [Option.toList_some, Option.toList_none, List.nil_append] at href
      obtain ⟨value, hvalue, htext⟩ := List.map_eq_singleton_iff.mp href.symm
      obtain ⟨ix, amount, hix, hamount, rfl⟩ := single_transfer hreadable hpaid
      have hlist : reference.toList = value := by rw [← htext, String.toList_ofList]
      refine ⟨_, rfl, ⟨?_, ?_, ix, hix, hamount, rfl, rfl, rfl, rfl⟩⟩
      · rw [hvalue]
        exact congrArg (fun v => [v]) hlist.symm
      · have hone := hdigits value (by rw [hvalue]; exact List.mem_singleton_self _)
        rw [← hlist] at hone
        exact hone
    · cases h

/-- The settlements are those of the frames that execute, in order. -/
theorem settlements_rows {as : List (Activation Inner)} {frames : List Frame} {n : Nat}
    {transfers : List (Option (Nat × Settlement))} {out : List (Option Settlement)}
    {calls : List (Inner × Option Nat)}
    (hframes : as.mapM (fun a => readFrame a.lines) = some frames)
    (hcalls : calls.mapM (fun call => transferOf call.1 call.2) = some transfers)
    (hchildren : ∀ k, n ≤ k → madeBy k calls = childrenAt n k as)
    (hout : (frames.zipIdx n).mapM (fun p => settlementOf transfers p.1 p.2) = some out) :
    List.Forall₂ Attributed (as.filter fun a => a.lines.any executes) (out.filterMap id) := by
  induction as generalizing frames n out with
  | nil =>
    cases hframes
    cases hout
    exact List.Forall₂.nil
  | cons a as ih =>
    rw [List.mapM_cons] at hframes
    obtain ⟨frame, hframe, hframes⟩ := Option.bind_eq_some_iff.mp hframes
    obtain ⟨rest, hrest, hframes⟩ := Option.bind_eq_some_iff.mp hframes
    cases hframes
    rw [List.zipIdx_cons, List.mapM_cons] at hout
    obtain ⟨first, hfirst, hout⟩ := Option.bind_eq_some_iff.mp hout
    obtain ⟨outs, houts, hout⟩ := Option.bind_eq_some_iff.mp hout
    cases hout
    have hown : madeBy n calls = a.children := by
      rw [hchildren n (Nat.le_refl n), childrenAt, if_pos (Nat.le_refl n), Nat.sub_self]
      rfl
    obtain ⟨hmade, hreadable⟩ := transfers_made hcalls n
    rw [hown] at hmade hreadable
    have hone := attributed_of_settlementOf hframe hmade hreadable hfirst
    have hmore := ih hrest
      (fun k hk => by rw [hchildren k (by omega), childrenAt_succ hk]) houts
    by_cases hexecutes : a.lines.any executes = true
    · rw [if_pos hexecutes] at hone
      obtain ⟨s, rfl, hs⟩ := hone
      have hfilter : (a :: as).filter (fun a => a.lines.any executes) =
          a :: as.filter fun a => a.lines.any executes := List.filter_cons_of_pos hexecutes
      have hout : (some s :: outs).filterMap id = s :: outs.filterMap id := rfl
      rw [hfilter, hout]
      exact List.Forall₂.cons hs hmore
    · rw [if_neg hexecutes] at hone
      subst hone
      have hfilter : (a :: as).filter (fun a => a.lines.any executes) =
          as.filter fun a => a.lines.any executes := List.filter_cons_of_neg hexecutes
      have hout : (none :: outs).filterMap id = outs.filterMap id := rfl
      rw [hfilter, hout]
      exact hmore

/-! ## Transactions -/

/-- The inner instructions of each instruction from the `n`th on, where there are any. -/
def groupsFrom (n : Nat) : List (Invocation Inner) → List Group
  | [] => []
  | v :: tx =>
    if v.body.inner = [] then groupsFrom (n + 1) tx
    else ⟨n, v.body.inner⟩ :: groupsFrom (n + 1) tx

/-- A successful transaction as it is served, with the groups in any order. -/
structure Recorded (trace : List (Invocation Inner)) (tx : Tx) : Prop where
  succeeded : tx.failed = false
  log : tx.logMessages = some (texts (Invocation.logOf trace))
  inner : tx.innerInstructions.Perm (groupsFrom 0 trace)

omit [Connector] in
theorem le_of_mem_groupsFrom {n : Nat} {trace : List (Invocation Inner)} :
    ∀ g ∈ groupsFrom n trace, n ≤ g.index := by
  induction trace generalizing n with
  | nil => exact fun g hg => nomatch hg
  | cons v trace ih =>
    intro g hg
    rw [groupsFrom] at hg
    split at hg
    · exact Nat.le_of_succ_le (ih g hg)
    · rcases List.mem_cons.mp hg with rfl | hg
      · exact Nat.le_refl n
      · exact Nat.le_of_succ_le (ih g hg)

omit [Connector] in
theorem groupsFrom_sorted (n : Nat) (trace : List (Invocation Inner)) :
    (groupsFrom n trace).Pairwise fun a b => a.index < b.index := by
  induction trace generalizing n with
  | nil => exact List.Pairwise.nil
  | cons v trace ih =>
    rw [groupsFrom]
    split
    · exact ih (n + 1)
    · exact List.Pairwise.cons (fun g hg => le_of_mem_groupsFrom g hg) (ih (n + 1))

omit [Connector] in
theorem groupsFrom_flatMap (n : Nat) (trace : List (Invocation Inner)) :
    (groupsFrom n trace).flatMap Group.instructions = Invocation.innerOf trace := by
  induction trace generalizing n with
  | nil => rfl
  | cons v trace ih =>
    have hinner : Invocation.innerOf (v :: trace) = v.body.inner ++ Invocation.innerOf trace := rfl
    rw [groupsFrom, hinner]
    split
    · rename_i hnil
      rw [ih, hnil, List.nil_append]
    · rw [List.flatMap_cons, ih]

omit [Connector] in
/-- The groups are put back in execution order. -/
theorem innerInstructions_eq {trace : List (Invocation Inner)} {tx : Tx} (h : Recorded trace tx) :
    innerInstructions tx = Invocation.innerOf trace := by
  have hsorted : tx.innerInstructions.mergeSort (fun a b => decide (a.index ≤ b.index)) =
      groupsFrom 0 trace := by
    have hle : ∀ a b c : Group, decide (a.index ≤ b.index) = true →
        decide (b.index ≤ c.index) = true → decide (a.index ≤ c.index) = true := by
      intro a b c hab hbc
      exact decide_eq_true (Nat.le_trans (of_decide_eq_true hab) (of_decide_eq_true hbc))
    have htotal : ∀ a b : Group,
        (decide (a.index ≤ b.index) || decide (b.index ≤ a.index)) = true := by
      intro a b
      rw [Bool.or_eq_true, decide_eq_true_eq, decide_eq_true_eq]
      exact Nat.le_total _ _
    have hgroups := groupsFrom_sorted 0 trace
    have hnodup : ((groupsFrom 0 trace).map Group.index).Nodup :=
      (List.pairwise_map.mpr hgroups).imp Nat.ne_of_lt
    have hperm := (List.mergeSort_perm tx.innerInstructions
      fun a b => decide (a.index ≤ b.index)).trans h.inner
    refine List.Perm.eq_of_pairwise (fun a b ha hb hab hba => ?_)
      (List.pairwise_mergeSort hle htotal tx.innerInstructions)
      (hgroups.imp fun hlt => decide_eq_true (Nat.le_of_lt hlt)) hperm
    exact List.inj_on_of_nodup_map hnodup (hperm.subset ha) hb
      (Nat.le_antisymm (of_decide_eq_true hab) (of_decide_eq_true hba))
  rw [innerInstructions, hsorted, groupsFrom_flatMap]

omit [Connector] in
theorem parse_clean {trace : List (Invocation Inner)} (h : Clean (Invocation.printedOf trace)) :
    parseFrames (texts (Invocation.logOf trace)) =
      (readFrames (Invocation.activationsOf trace)).map fun frames =>
        ⟨[], frames, parentsOf 0 trace⟩ := by
  unfold parseFrames
  rw [scan_transaction rfl h]
  cases readFrames (Invocation.activationsOf trace) with
  | none => rfl
  | some frames => rfl

omit [Connector] in
/-- A log in which a text looks like the start or the end of a frame does not fit the inner
instructions. -/
theorem clean_of_parse {trace : List (Invocation Inner)} {fs : Frames}
    (hparse : parseFrames (texts (Invocation.logOf trace)) = some fs)
    (hcount : (Invocation.innerOf trace).length = fs.parents.length) :
    Clean (Invocation.printedOf trace) := by
  unfold parseFrames at hparse
  obtain ⟨fs₁, hscan, hempty⟩ := Option.bind_eq_some_iff.mp hparse
  split at hempty
  · cases hempty
    obtain ⟨-, hbalanced, hparents⟩ := count_transaction rfl hscan
    have hnone : ({} : Frames).parents.length = 0 := rfl
    exact clean_of_opened (by omega) (by omega)
  · cases hempty

theorem settlementsIn_eq_some {tx : Tx} {list : List Settlement} (h : settlementsIn tx = some list) :
    ∃ logs fs transfers out, tx.logMessages = some logs ∧ parseFrames logs = some fs ∧
      (innerInstructions tx).length = fs.parents.length ∧
      ((innerInstructions tx).zip fs.parents).mapM (fun call => transferOf call.1 call.2) =
        some transfers ∧
      fs.frames.zipIdx.mapM (fun p => settlementOf transfers p.1 p.2) = some out ∧
      list = out.filterMap id := by
  unfold settlementsIn at h
  split at h
  · cases h
  · obtain ⟨logs, hlogs, h⟩ := Option.bind_eq_some_iff.mp h
    obtain ⟨fs, hparse, h⟩ := Option.bind_eq_some_iff.mp h
    dsimp only at h
    split at h
    · cases h
    · rename_i hlength
      obtain ⟨transfers, htransfers, h⟩ := Option.bind_eq_some_iff.mp h
      obtain ⟨out, hout, h⟩ := Option.bind_eq_some_iff.mp h
      exact ⟨logs, fs, transfers, out, hlogs, hparse, not_not.mp hlength, htransfers, hout,
        (Option.some.inj h).symm⟩

/-- Only what is read off the log counts. -/
theorem settlementsIn_congr {tx : Tx} {logs logs' : List String} (hlogs : tx.logMessages = some logs)
    (h : parseFrames logs' = parseFrames logs) :
    settlementsIn { tx with logMessages := some logs' } = settlementsIn tx := by
  unfold settlementsIn
  rw [hlogs]
  change (if tx.failed = true then none else (parseFrames logs').bind _) =
    if tx.failed = true then none else (parseFrames logs).bind _
  rw [h]
  rfl

/-- The frames of a transaction that execute a queued transfer. -/
def executing (trace : List (Invocation Inner)) : List (Activation Inner) :=
  (splFrames (Invocation.activationsOf trace)).filter fun a => a.lines.any executes

/-- **Attribution is sound.** Settlements are found one for each frame of the program that says
itself that it executes a queued transfer, with the reference that the frame printed once and the
one token transfer that it invoked itself. What other programs print changes nothing but that
nothing may be found. -/
theorem settlements_attributed {trace : List (Invocation Inner)} {tx : Tx}
    (h : Recorded trace tx) :
    (∀ list, settlementsIn tx = some list → List.Forall₂ Attributed (executing trace) list) ∧
      (settlementsIn tx = none ∨
        settlementsIn tx = settlementsIn { tx with
          logMessages := some (texts (Invocation.logOf (Invocation.silenceOf others trace))) }) := by
  constructor
  · intro list hs
    obtain ⟨logs, fs, transfers, out, hlogs, hparse, hlength, htransfers, hout, rfl⟩ :=
      settlementsIn_eq_some hs
    cases hlogs.symm.trans h.log
    rw [innerInstructions_eq h] at hlength htransfers
    have hclean := clean_of_parse hparse hlength
    rw [parse_clean hclean] at hparse
    obtain ⟨frames, hframes, rfl⟩ := Option.map_eq_some_iff.mp hparse
    exact settlements_rows hframes htransfers (fun k _ => madeBy_parentsOf 0 k trace) hout
  · cases hs : settlementsIn tx with
    | none => exact Or.inl rfl
    | some list =>
      obtain ⟨logs, fs, transfers, out, hlogs, hparse, hlength, -⟩ := settlementsIn_eq_some hs
      cases hlogs.symm.trans h.log
      rw [innerInstructions_eq h] at hlength
      have hclean := clean_of_parse hparse hlength
      have hsame : parseFrames (texts (Invocation.logOf (Invocation.silenceOf others trace))) =
          parseFrames (texts (Invocation.logOf trace)) := by
        rw [parse_clean hclean, parse_clean (clean_silenceOf hclean), parentsOf_silenceOf]
        unfold readFrames
        rw [splFrames_silenceOf]
      right
      rw [settlementsIn_congr h.log hsame, hs]

/-- The payouts of a transaction whose log reads as frames. -/
theorem settlementsIn_of_parse {tx : Tx} {logs : List String} {fs : Frames} {inner : List Inner}
    {transfers : List (Option (Nat × Settlement))} {out : List (Option Settlement)}
    (hok : tx.failed = false) (hlogs : tx.logMessages = some logs)
    (hparse : parseFrames logs = some fs) (hinner : innerInstructions tx = inner)
    (hlen : inner.length = fs.parents.length)
    (htransfers : (inner.zip fs.parents).mapM (fun (ix, parent) => transferOf ix parent) =
      some transfers)
    (hout : fs.frames.zipIdx.mapM (fun (frame, f) => settlementOf transfers frame f) = some out) :
    settlementsIn tx = some (out.filterMap id) := by
  unfold settlementsIn
  rw [hok, if_neg Bool.false_ne_true, hlogs]
  simp only [Option.bind_eq_bind, Option.bind_some, hparse, hinner]
  rw [if_neg (not_not.mpr hlen), htransfers, Option.bind_some, hout]
  rfl

end

/-- A deployment whose vault for one mint is known. -/
@[reducible]
def sampleConnector : Connector where
  partnerTokenAccount := some "Partner"
  mint := "Mint"
  vaultAccounts := fun mint => if mint = "Mint" then some ("Vault", "VaultTokens") else none
  blind := fun _ reference => reference

def splProgram : ProgramId := ⟨EPHEMERAL_SPL_PROGRAM.toList, by decide, by decide⟩

def tokenProgram : ProgramId := ⟨SPL_TOKEN_PROGRAM.toList, by decide, by decide⟩

/-- A payout of five units out of a source. -/
def samplePayout (authority source : String) : Inner :=
  ⟨SPL_TOKEN_PROGRAM, "transferChecked",
    { tokenAmount := some "5", mint := "Mint", source := source, destination := "Partner",
      authority := authority }⟩

/-- What a frame does that executes a queued transfer. -/
def queuedTransfer (reference authority source : String) : Body Inner :=
  .print (.output .log "Instruction: ExecuteReadyQueuedTransfer".toList)
    (.print (.output .log ("client_ref_id: " ++ reference).toList)
      (.call tokenProgram (samplePayout authority source) .done .done))

/-- One frame that executes a queued transfer. -/
def sampleTrace (authority source : String) : List (Invocation Inner) :=
  [⟨splProgram, queuedTransfer "7" authority source⟩]

def sampleTx (authority source : String) : Tx where
  failed := false
  logMessages := some (texts (Invocation.logOf (sampleTrace authority source)))
  innerInstructions := [⟨0, [samplePayout authority source]⟩]

theorem sample_recorded (authority source : String) :
    Recorded (sampleTrace authority source) (sampleTx authority source) :=
  ⟨rfl, rfl, List.Perm.refl _⟩

theorem parseFrames_sample (authority source : String) :
    parseFrames (texts (Invocation.logOf (sampleTrace authority source))) =
      some ⟨[], [⟨true, some "7"⟩], [some 0]⟩ := by
  have hlog : Invocation.logOf (sampleTrace authority source) =
      Invocation.logOf (sampleTrace "" "") := rfl
  rw [hlog]
  simp only [parseFrames, texts, List.foldlM_map, parseLine, String.toList_ofList]
  decide +kernel

theorem transferOf_sample (authority source : String) :
    letI := sampleConnector
    transferOf (samplePayout authority source) (some 0) =
      some (some (0, ⟨"", source, "Partner", authority,
        if Connector.vaultAccounts "Mint" = some (authority, source) then "Mint"
        else "not-vault:" ++ "Mint", 5⟩)) := by
  have hkind : ¬ (SPL_TOKEN_PROGRAM ≠ SPL_TOKEN_PROGRAM ∨
      ("transferChecked" ≠ "transferChecked" ∧ "transferChecked" ≠ "transfer")) :=
    fun h => h.elim (fun h => h rfl) fun h => h.1 rfl
  unfold transferOf samplePayout
  dsimp only
  rw [if_neg hkind]
  simp only [Option.bind_eq_bind]
  rfl

/-- The one payout of the frame. -/
theorem settlementsIn_sample (authority source : String) :
    letI := sampleConnector
    settlementsIn (sampleTx authority source) =
      some [⟨"7", source, "Partner", authority,
        if Connector.vaultAccounts "Mint" = some (authority, source) then "Mint"
        else "not-vault:" ++ "Mint", 5⟩] := by
  let _ := sampleConnector
  have hinner : innerInstructions (sampleTx authority source) =
      [samplePayout authority source] := by
    simp [innerInstructions, sampleTx]
  have hlogs : (sampleTx authority source).logMessages =
      some (texts (Invocation.logOf (sampleTrace authority source))) := by rw [sampleTx]
  have hok : (sampleTx authority source).failed = false := by rw [sampleTx]
  have hone : ∀ payout t, transferOf payout (some 0) = some t →
      ([payout].zip [some 0]).mapM (fun (ix, parent) => transferOf ix parent) = some [t] := by
    intro payout t h
    simp only [List.zip_cons_cons, List.zip_nil_left, List.mapM_cons, h, List.mapM_nil]
    rfl
  exact settlementsIn_of_parse hok hlogs (parseFrames_sample _ _) hinner rfl
    (hone _ _ (transferOf_sample _ _)) rfl

def crankProgram : ProgramId :=
  ⟨"Crank1111111111111111111111111111111111111".toList, by decide, by decide⟩

def queuedCall : Inner := ⟨EPHEMERAL_SPL_PROGRAM, "", {}⟩

/-- A crank has two queued transfers executed. It prints a reference and moves tokens itself. -/
def crankTrace : List (Invocation Inner) :=
  [⟨crankProgram, .print (.output .log "Instruction: ExecuteReadyQueuedTransfer".toList)
    (.print (.output .log "client_ref_id: 9".toList)
      (.call splProgram queuedCall (queuedTransfer "7" "Vault" "VaultTokens")
        (.call tokenProgram (samplePayout "Crank" "CrankTokens") .done
          (.call splProgram queuedCall (queuedTransfer "8" "Vault" "VaultTokens") .done))))⟩]

def crankCalls : List Inner :=
  [queuedCall, samplePayout "Vault" "VaultTokens", samplePayout "Crank" "CrankTokens", queuedCall,
    samplePayout "Vault" "VaultTokens"]

def crankTx : Tx where
  failed := false
  logMessages := some (texts (Invocation.logOf crankTrace))
  innerInstructions := [⟨0, crankCalls⟩]

def paidFor (reference : String) : Settlement :=
  ⟨reference, "VaultTokens", "Partner", "Vault", "Mint", 5⟩

theorem crank_recorded : Recorded crankTrace crankTx := ⟨rfl, rfl, List.Perm.refl _⟩

theorem parseFrames_crank :
    parseFrames (texts (Invocation.logOf crankTrace)) =
      some ⟨[], [⟨true, some "7"⟩, ⟨true, some "8"⟩], [none, some 0, none, none, some 1]⟩ := by
  simp only [parseFrames, texts, List.foldlM_map, parseLine, String.toList_ofList]
  decide +kernel

theorem settlementsIn_crank :
    letI := sampleConnector
    settlementsIn crankTx = some [paidFor "7", paidFor "8"] := by
  let _ := sampleConnector
  have hinner : innerInstructions crankTx = crankCalls := by
    simp [innerInstructions, crankTx]
  have hmade : (crankCalls.zip [none, some 0, none, none, some 1]).mapM
      (fun (ix, parent) => transferOf ix parent) =
        some [none, some (0, paidFor ""), none, none, some (1, paidFor "")] := by
    decide +kernel
  exact settlementsIn_of_parse rfl rfl parseFrames_crank hinner rfl hmade rfl

/-- The two payouts, whatever the crank prints. -/
theorem settlements_attributed_sample :
    letI := sampleConnector
    List.Forall₂ Attributed (executing crankTrace) [paidFor "7", paidFor "8"] ∧
      settlementsIn crankTx = settlementsIn { crankTx with
        logMessages := some (texts (Invocation.logOf
          (Invocation.silenceOf others crankTrace))) } := by
  let _ := sampleConnector
  obtain ⟨hattributed, hsilent⟩ := settlements_attributed crank_recorded
  refine ⟨hattributed _ settlementsIn_crank, hsilent.resolve_left ?_⟩
  rw [settlementsIn_crank]
  exact Option.some_ne_none _

/-- A transfer that the vault does not make is reported with another mint than its own. -/
theorem settlements_mint_differs :
    letI := sampleConnector
    Recorded (sampleTrace "Someone" "Elsewhere") (sampleTx "Someone" "Elsewhere") ∧
      ∃ s, settlementsIn (sampleTx "Someone" "Elsewhere") = some [s] ∧
        executing (sampleTrace "Someone" "Elsewhere") =
          [⟨splProgram, [.output .log "Instruction: ExecuteReadyQueuedTransfer".toList,
            .output .log "client_ref_id: 7".toList], [samplePayout "Someone" "Elsewhere"]⟩] ∧
        s.mint ≠ (samplePayout "Someone" "Elsewhere").info.mint := by
  let _ := sampleConnector
  refine ⟨sample_recorded _ _, ⟨"7", "Elsewhere", "Partner", "Someone", "not-vault:" ++ "Mint", 5⟩,
    settlementsIn_sample _ _, ?_, ?_⟩
  · decide +kernel
  · decide

end ChainPay.Repay
