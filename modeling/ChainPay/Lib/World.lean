import Mathlib.Data.List.Basic

/-!
Processes over a shared store, by rely and guarantee. `Inv` speaks of the store
alone and `Local` of the store and one process. If every step keeps `Inv`, leaves
the acting process `Local` and changes the store only as `Rely` allows, and every
process's `Local` survives such changes, then both hold in every interleaving.
-/

namespace ChainPay.Lib

structure World (σ π : Type) where
  store : σ
  procs : List π

namespace World

variable {σ π : Type}

/-- The store is in order and so is every process over it. -/
structure Safe (Inv : σ → Prop) (Local : σ → π → Prop) (w : World σ π) : Prop where
  inv : Inv w.store
  procs : ∀ p ∈ w.procs, Local w.store p

variable {Inv : σ → Prop} {Local : σ → π → Prop} {Rely : σ → σ → Prop} {w : World σ π}

/-- Something outside the processes changed the store. -/
theorem Safe.env (hw : Safe Inv Local w)
    (hstable : ∀ s s' p, Inv s → Rely s s' → Local s p → Local s' p) {s' : σ} (hinv : Inv s')
    (hrely : Rely w.store s') : Safe Inv Local { w with store := s' } where
  inv := hinv
  procs := fun p hp => hstable _ _ p hw.inv hrely (hw.procs p hp)

/-- A new process starts. -/
theorem Safe.spawn (hw : Safe Inv Local w) {p : π} (hp : Local w.store p) :
    Safe Inv Local { w with procs := w.procs ++ [p] } where
  inv := hw.inv
  procs := by
    intro q hq
    rcases List.mem_append.mp hq with hq | hq
    · exact hw.procs q hq
    · rw [List.mem_singleton.mp hq]
      exact hp

/-- Process `i` takes one step. -/
theorem Safe.step (hw : Safe Inv Local w)
    (hstable : ∀ s s' p, Inv s → Rely s s' → Local s p → Local s' p) (i : Nat) {s' : σ} {p' : π}
    (hinv : Inv s') (hrely : Rely w.store s') (hlocal : Local s' p') :
    Safe Inv Local ⟨s', w.procs.set i p'⟩ where
  inv := hinv
  procs := by
    intro q hq
    rcases List.mem_or_eq_of_mem_set hq with hq | rfl
    · exact hstable _ _ q hw.inv hrely (hw.procs q hq)
    · exact hlocal

end World

end ChainPay.Lib
