/-!
# Checked arithmetic

Scripts count in integers of fixed width. An operation whose exact result does not fit its
width has no value: it ends in an `Overflow` that names the operation.

* `FixedWidth` describes a width by the integers it holds.
* `Checked.fit` keeps an exact result that fits and refuses any other; every checked operation
  is the exact integer operation followed by `fit`.
* `Checked.fit_eq_ok_iff` says exactly when a result is kept, and what it is.
-/

namespace EventScript

/-- The operation whose exact result did not fit. -/
inductive Overflow
  | add
  | sub
  | mul
  | neg
  | div
  | rem
  deriving DecidableEq, Repr

def Overflow.message : Overflow → String
  | add => "attempt to add with overflow"
  | sub => "attempt to subtract with overflow"
  | mul => "attempt to multiply with overflow"
  | neg => "attempt to negate with overflow"
  | div => "attempt to divide with overflow"
  | rem => "attempt to calculate the remainder with overflow"

/-- A type that holds exactly the integers from `low` to `high`. -/
class FixedWidth (α : Type) where
  low : Int
  high : Int
  toInt : α → Int
  ofInt : Int → α
  low_le : ∀ a, low ≤ toInt a
  le_high : ∀ a, toInt a ≤ high
  ofInt_toInt : ∀ a, ofInt (toInt a) = a
  toInt_ofInt : ∀ z, low ≤ z → z ≤ high → toInt (ofInt z) = z

namespace FixedWidth

instance : FixedWidth Int32 where
  low := -2147483648
  high := 2147483647
  toInt := Int32.toInt
  ofInt := Int32.ofInt
  low_le a := by have := a.le_toInt; omega
  le_high a := by have := a.toInt_lt; omega
  ofInt_toInt a := a.ofInt_toInt
  toInt_ofInt z h₁ h₂ := Int32.toInt_ofInt_of_le (by omega) (by omega)

instance : FixedWidth Int64 where
  low := -9223372036854775808
  high := 9223372036854775807
  toInt := Int64.toInt
  ofInt := Int64.ofInt
  low_le a := by have := a.le_toInt; omega
  le_high a := by have := a.toInt_lt; omega
  ofInt_toInt a := a.ofInt_toInt
  toInt_ofInt z h₁ h₂ := Int64.toInt_ofInt_of_le (by omega) (by omega)

instance : FixedWidth UInt32 where
  low := 0
  high := 4294967295
  toInt a := a.toNat
  ofInt z := UInt32.ofNat z.toNat
  low_le a := by omega
  le_high a := by have := a.toNat_lt; omega
  ofInt_toInt a := by simp
  toInt_ofInt z h₁ h₂ := by
    rw [UInt32.toNat_ofNat_of_lt' (by show z.toNat < 4294967296; omega)]; omega

instance : FixedWidth UInt64 where
  low := 0
  high := 18446744073709551615
  toInt a := a.toNat
  ofInt z := UInt64.ofNat z.toNat
  low_le a := by omega
  le_high a := by have := a.toNat_lt; omega
  ofInt_toInt a := by simp
  toInt_ofInt z h₁ h₂ := by
    rw [UInt64.toNat_ofNat_of_lt' (by show z.toNat < 18446744073709551616; omega)]; omega

variable {α : Type} [FixedWidth α]

/-- The value that holds `z`, if the width has one. -/
def ofInt? (z : Int) : Option α :=
  if low α ≤ z ∧ z ≤ high α then some (ofInt z) else none

theorem ofInt?_eq_some_iff {z : Int} {a : α} : ofInt? z = some a ↔ toInt a = z := by
  unfold ofInt?
  constructor
  · intro h
    split at h
    · next hz =>
      cases h
      exact toInt_ofInt z hz.1 hz.2
    · cases h
  · rintro rfl
    rw [if_pos ⟨low_le a, le_high a⟩, ofInt_toInt]

theorem ofInt?_toInt (a : α) : ofInt? (toInt a) = some a :=
  ofInt?_eq_some_iff.2 rfl

end FixedWidth

namespace Checked

variable {α : Type} [FixedWidth α]

/-- Keeps an exact result that fits the width. -/
def fit (cause : Overflow) (z : Int) : Except Overflow α :=
  match FixedWidth.ofInt? z with
  | some a => .ok a
  | none => .error cause

/-- The exact sum. -/
def add (a b : α) : Except Overflow α :=
  fit .add (FixedWidth.toInt a + FixedWidth.toInt b)

/-- The exact difference. -/
def sub (a b : α) : Except Overflow α :=
  fit .sub (FixedWidth.toInt a - FixedWidth.toInt b)

/-- The exact product. -/
def mul (a b : α) : Except Overflow α :=
  fit .mul (FixedWidth.toInt a * FixedWidth.toInt b)

/-- The exact opposite. -/
def neg (a : α) : Except Overflow α :=
  fit .neg (-FixedWidth.toInt a)

/-- The exact distance from zero. -/
def abs (a : α) : Except Overflow α :=
  fit .neg (FixedWidth.toInt a).natAbs

/-- The quotient by a divisor that is not zero, rounded toward zero. -/
def div (a b : α) : Except Overflow α :=
  fit .div ((FixedWidth.toInt a).tdiv (FixedWidth.toInt b))

/-- The remainder by a divisor that is not zero, which takes the sign of the dividend. There is one
where the quotient fits. -/
def rem (a b : α) : Except Overflow α := do
  let _ : α ← fit .rem ((FixedWidth.toInt a).tdiv (FixedWidth.toInt b))
  fit .rem ((FixedWidth.toInt a).tmod (FixedWidth.toInt b))

theorem fit_eq_ok_iff {cause : Overflow} {z : Int} {a : α} :
    fit cause z = .ok a ↔ FixedWidth.toInt a = z := by
  rw [← FixedWidth.ofInt?_eq_some_iff]
  unfold fit
  split <;> simp_all

theorem fit_isOk {z : Int} (cause : Overflow) (h₁ : FixedWidth.low α ≤ z)
    (h₂ : z ≤ FixedWidth.high α) : fit cause z = .ok (FixedWidth.ofInt z : α) :=
  fit_eq_ok_iff.2 (FixedWidth.toInt_ofInt z h₁ h₂)

end Checked

/-- What scripts count in. -/
abbrev Number := Int32

namespace Number

/-- The remainder that takes the sign of the dividend; it fits whenever the divisor is not zero. -/
def remainder (a b : Number) : Number :=
  Int32.ofInt (a.toInt.tmod b.toInt)

/-- The quotient by a positive literal, rounded toward zero; it always fits. -/
def quotient (a : Number) (n : Nat) : Number :=
  Int32.ofInt (a.toInt.tdiv n)

/-- The value brought between two bounds; an upper bound below the lower one wins. -/
def clamp (low high a : Number) : Number :=
  min (max a low) high

/-- The exact result brought between two bounds. -/
def clampInt (low high : Number) (z : Int) : Number :=
  Int32.ofInt (min (max z low.toInt) high.toInt)

/-- A list index, unless the number is negative. -/
def index? (a : Number) : Option Nat :=
  if a.toInt < 0 then none else some a.toInt.toNat

theorem toInt_max (a b : Number) : (max a b).toInt = max a.toInt b.toInt := by
  have hmax : max a b = if a ≤ b then b else a := rfl
  rw [hmax]
  simp only [Int32.le_iff_toInt_le]
  split <;> omega

theorem toInt_min (a b : Number) : (min a b).toInt = min a.toInt b.toInt := by
  have hmin : min a b = if a ≤ b then a else b := rfl
  rw [hmin]
  simp only [Int32.le_iff_toInt_le]
  split <;> omega

theorem toInt_clamp (low high a : Number) :
    (clamp low high a).toInt = min (max a.toInt low.toInt) high.toInt := by
  rw [clamp, toInt_min, toInt_max]

theorem toInt_clampInt (low high : Number) (z : Int) :
    (clampInt low high z).toInt = min (max z low.toInt) high.toInt := by
  have hlow := low.le_toInt
  have hhigh := high.toInt_lt
  have hhigh' := high.le_toInt
  exact Int32.toInt_ofInt_of_le (by omega) (by omega)

end Number

end EventScript
