import EventScript.Game.Random

/-!
# The generator of the program

The program draws its numbers from a linear congruential stream, which its seed determines.
-/

namespace EventScript.Random

/-- The stream after one step. -/
def next (state : Nat) : Nat :=
  (state * 6364136223846793005 + 1442695040888963407) % 18446744073709551616

/-- The upper half of a state scaled to the numbers below `n`. -/
def scaled (state n : Nat) : Nat := state / 4294967296 * n / 4294967296

theorem scaled_lt {n : Nat} (state : Nat) (hn : 0 < n) : scaled (next state) n < n := by
  have hstate : next state / 4294967296 < 4294967296 := by
    unfold next
    omega
  exact Nat.div_lt_of_lt_mul (Nat.mul_lt_mul_of_pos_right hstate hn)

/-- Draws a number of a range from the stream. -/
def drawScaled (state : Nat) (low high : Number) : Number × Nat :=
  let state := next state
  (Int32.ofInt (low.toInt + scaled state (high.toInt - low.toInt + 1).toNat), state)

theorem drawScaled_mem (state : Nat) {low high : Number} (h : low ≤ high) :
    low ≤ (drawScaled state low high).1 ∧ (drawScaled state low high).1 ≤ high := by
  rw [Int32.le_iff_toInt_le] at h
  have hscaled := scaled_lt (n := (high.toInt - low.toInt + 1).toNat) state (by omega)
  have hlow := low.le_toInt
  have hhigh := high.toInt_lt
  have hdrawn : (drawScaled state low high).1.toInt =
      low.toInt + scaled (next state) (high.toInt - low.toInt + 1).toNat :=
    Int32.toInt_ofInt_of_le (by omega) (by omega)
  rw [Int32.le_iff_toInt_le, Int32.le_iff_toInt_le, hdrawn]
  omega

/-- The generator with a seed. -/
def ofSeed (seed : UInt64) : Random where
  draw := drawScaled
  state := seed.toNat
  draw_mem s _ _ := drawScaled_mem s

/-- A seed stands for the generator that it starts. -/
instance : Coe UInt64 Random := ⟨ofSeed⟩

instance (n : Nat) : OfNat Random n := ⟨ofSeed (UInt64.ofNat n)⟩

end EventScript.Random
