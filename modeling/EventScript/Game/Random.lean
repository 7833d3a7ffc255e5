import EventScript.Checked

/-!
# Chance

A game draws numbers from a generator, of which nothing is known but that it keeps to the range it
is asked for.

* `Random.between` draws a number from a range, both ends included and in either order.
-/

namespace EventScript

/-- A generator of numbers, with the state it is in. -/
structure Random where
  /-- The number drawn from a range in a state, and the state after. -/
  draw : Nat → Number → Number → Number × Nat
  state : Nat
  draw_mem : ∀ s low high, low ≤ high → low ≤ (draw s low high).1 ∧ (draw s low high).1 ≤ high

namespace Random

/-- Draws a number from `a` to `b`. -/
def between (a b : Number) (r : Random) : Number × Random :=
  let (value, state) := r.draw r.state (min a b) (max a b)
  (value, { r with state })

theorem between_mem (a b : Number) (r : Random) :
    min a b ≤ (r.between a b).1 ∧ (r.between a b).1 ≤ max a b := by
  refine r.draw_mem r.state _ _ ?_
  rw [Int32.le_iff_toInt_le, Number.toInt_min, Number.toInt_max]
  omega

/-- The generator that draws the lowest number of every range. -/
instance : Inhabited Random where
  default :=
    { draw := fun s low _ => (low, s)
      state := 0
      draw_mem := fun _ low _ h => ⟨Int32.le_refl low, h⟩ }

end Random

end EventScript
