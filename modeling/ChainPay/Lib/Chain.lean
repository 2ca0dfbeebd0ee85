import Mathlib.Data.List.Induction

/-!
Hash chains. The head of a chain starts at a fixed value, and each record is hashed
together with the head before it. A head determines the records behind it as long
as, among the inputs hashed for the two chains, different inputs have different
hashes and none has the starting value.
-/

namespace ChainPay.Lib

variable {α β η : Type}

/-- The head after `records`. -/
def chainHead (hash : α → η) (pack : η → β → α) (start : η) (records : List β) : η :=
  records.foldl (fun head b => hash (pack head b)) start

/-- Everything that is hashed on the way, oldest first. -/
def chainInputs (hash : α → η) (pack : η → β → α) : η → List β → List α
  | _, [] => []
  | head, b :: rest => pack head b :: chainInputs hash pack (hash (pack head b)) rest

/-- Where a head comes from: nothing yet, or the input hashed last. -/
def headFrom (hash : α → η) (start : η) : Option α → η
  | none => start
  | some x => hash x

/-- Heads tell apart what they come from, for all of these inputs. -/
def HeadsDistinct (hash : α → η) (start : η) (inputs : List α) : Prop :=
  ∀ x ∈ none :: inputs.map some, ∀ y ∈ none :: inputs.map some,
    headFrom hash start x = headFrom hash start y → x = y

instance [DecidableEq α] [DecidableEq η] (hash : α → η) (start : η) (inputs : List α) :
    Decidable (HeadsDistinct hash start inputs) :=
  inferInstanceAs (Decidable (∀ x ∈ none :: inputs.map some, ∀ y ∈ none :: inputs.map some,
    headFrom hash start x = headFrom hash start y → x = y))

variable {hash : α → η} {pack : η → β → α} {start : η}

theorem chainHead_concat (records : List β) (b : β) :
    chainHead hash pack start (records ++ [b]) =
      hash (pack (chainHead hash pack start records) b) := by
  simp [chainHead]

theorem chainInputs_concat (records : List β) (b : β) :
    chainInputs hash pack start (records ++ [b]) =
      chainInputs hash pack start records ++ [pack (chainHead hash pack start records) b] := by
  induction records generalizing start with
  | nil => rfl
  | cons x rest ih =>
    simp only [List.cons_append, chainInputs, ih]
    rfl

/-- **Chains.** Equal heads, equal records. -/
theorem chainHead_inj (hpack : ∀ h b h' b', pack h b = pack h' b' → h = h' ∧ b = b')
    {xs ys : List β}
    (hfree : HeadsDistinct hash start
      (chainInputs hash pack start xs ++ chainInputs hash pack start ys))
    (heq : chainHead hash pack start xs = chainHead hash pack start ys) : xs = ys := by
  induction xs using List.reverseRecOn generalizing ys with
  | nil =>
    rcases List.eq_nil_or_concat ys with rfl | ⟨ys, y, rfl⟩
    · rfl
    · -- a record whose hash is the starting head
      rw [List.concat_eq_append] at heq hfree ⊢
      rw [chainInputs_concat] at hfree
      rw [chainHead_concat] at heq
      have habs := hfree none (by simp) (some _) (by simp) heq
      cases habs
  | append_singleton xs x ih =>
    rcases List.eq_nil_or_concat ys with rfl | ⟨ys, y, rfl⟩
    · rw [chainInputs_concat] at hfree
      rw [chainHead_concat] at heq
      have habs := hfree (some _) (by simp) none (by simp) heq
      cases habs
    · rw [List.concat_eq_append] at heq hfree ⊢
      rw [chainHead_concat, chainHead_concat] at heq
      rw [chainInputs_concat, chainInputs_concat] at hfree
      have hlast := hfree (some _) (by simp) (some _) (by simp) heq
      obtain ⟨hhead, rfl⟩ := hpack _ _ _ _ (Option.some.inj hlast)
      rw [ih (fun u hu v hv => hfree u ?_ v ?_) hhead]
      · simp only [List.map_append, List.mem_cons, List.mem_append] at hu ⊢
        tauto
      · simp only [List.map_append, List.mem_cons, List.mem_append] at hv ⊢
        tauto

end ChainPay.Lib
