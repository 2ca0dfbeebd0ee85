import Mathlib.Algebra.BigOperators.Group.List.Basic
import Mathlib.Algebra.Order.Ring.Int

/-!
A balance with a floor at zero. `floorWalk` adds a list of signed changes one after
the other and cuts the balance off at zero each time. What it comes to is the plain
sum plus the deepest point below zero that the plain running balance reaches
(`floorWalk_eq`), so two orders of the same changes end alike exactly when they dip
equally deep.
-/

namespace ChainPay.Lib

/-- The balance after one change. -/
def floorStep (x : Nat) (d : Int) : Nat := (x + d).toNat

def floorWalk (x : Nat) (ds : List Int) : Nat := ds.foldl floorStep x

/-- How far below zero the plain running balance gets from `b` on. -/
def dip (b : Int) : List Int → Nat
  | [] => (-b).toNat
  | d :: ds => max (-b).toNat (dip (b + d) ds)

theorem floorStep_add (x a : Nat) : floorStep x a = x + a := by
  unfold floorStep
  omega

theorem floorStep_sub (x a : Nat) : floorStep x (-(a : Int)) = x - a := by
  unfold floorStep
  omega

theorem floorWalk_append (x : Nat) (ds es : List Int) :
    floorWalk x (ds ++ es) = floorWalk (floorWalk x ds) es := List.foldl_append

theorem dip_start (b : Int) (ds : List Int) : (-b).toNat ≤ dip b ds := by
  cases ds with
  | nil => exact Nat.le_refl _
  | cons d ds => exact Nat.le_max_left _ _

/-- The balance that lost `l` to the floor so far: what it loses in all is the deepest
dip, if that is more. -/
theorem floorWalk_lost (x l : Nat) (ds : List Int) :
    (floorWalk x ds : Int) = x - l + ds.sum + max l (dip (x - l) ds) := by
  induction ds generalizing x l with
  | nil =>
    simp only [floorWalk, List.foldl_nil, dip, List.sum_nil]
    omega
  | cons d ds ih =>
    -- the new loss is how far the plain balance lies below the floored one
    have hstep : (floorStep x d : Int) - ((floorStep x d - (x - l + d)).toNat : Nat) =
        x - l + d := by
      unfold floorStep
      omega
    have hih := ih (floorStep x d) (floorStep x d - (x - l + d)).toNat
    rw [hstep] at hih
    have hdeep := dip_start (x - l + d) ds
    rw [floorWalk, List.foldl_cons, ← floorWalk, hih, dip, List.sum_cons]
    unfold floorStep at hdeep ⊢
    omega

/-- **Floor.** The plain sum and the deepest dip give the floored balance. -/
theorem floorWalk_eq (x : Nat) (ds : List Int) :
    (floorWalk x ds : Int) = x + ds.sum + dip x ds := by
  have h := floorWalk_lost x 0 ds
  simpa using h

end ChainPay.Lib
