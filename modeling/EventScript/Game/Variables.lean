import EventScript.Game.Cells

/-!
# Variables

Every positive id has a variable, and all variables are zero at first. What is written is brought
between two bounds. An id that is not positive has no variable: it reads as zero, and writing it
changes nothing.

* `VariableOp.apply` is the arithmetic of a write, in twice the width of a variable.
* `Variables.get_set`: a write changes the variable it names and no other.
* `Variables.combineBetween` writes a range, variable by variable.
-/

namespace EventScript

/-- What a write does with the old value and the operand. -/
inductive VariableOp
  | set
  | add
  | sub
  | mul
  | div
  | mod
  deriving DecidableEq, Repr

namespace VariableOp

/-- The operation with a number. -/
def ofNumber? (n : Number) : Option VariableOp :=
  match n.toInt with
  | 0 => some .set
  | 1 => some .add
  | 2 => some .sub
  | 3 => some .mul
  | 4 => some .div
  | 5 => some .mod
  | _ => none

/-- Dividing by zero has no result; everything else has one. -/
def hasResult (op : VariableOp) (operand : Number) : Bool :=
  match op with
  | div | mod => operand ≠ 0
  | _ => true

/-- The new value. Quotients are rounded toward zero, and a remainder takes the sign of the old
value. -/
def apply (op : VariableOp) (old operand : Int64) : Except Overflow Int64 :=
  match op with
  | set => .ok operand
  | add => Checked.add old operand
  | sub => Checked.sub old operand
  | mul => Checked.mul old operand
  | div => Checked.div old operand
  | mod => Checked.rem old operand

end VariableOp

/-- The variables, and the bounds of every write. -/
structure Variables where
  cells : Cells (0 : Number) := {}
  low : Number
  high : Number
  deriving DecidableEq

namespace Variables

def get (v : Variables) (id : Number) : Number := v.cells.get id

/-- The value of the variable whose id a variable holds. -/
def getThrough (v : Variables) (id : Number) : Number := v.get (v.get id)

/-- A value brought between the bounds. -/
def bounded (v : Variables) (value : Int64) : Number :=
  (min (max value v.low.toInt64) v.high.toInt64).toInt32

/-- Writes a value, brought between the bounds. -/
def store (v : Variables) (id : Number) (value : Int64) : Variables :=
  { v with cells := v.cells.write id (v.bounded value) }

/-- Writes a number, brought between the bounds. -/
def set (v : Variables) (id value : Number) : Variables := v.store id value.toInt64

/-- Combines a variable with an operand; dividing by zero leaves it as it is. -/
def combine (v : Variables) (id : Number) (op : VariableOp) (operand : Number) :
    Except Overflow Variables := do
  if op.hasResult operand then
    return v.store id (← op.apply (v.get id).toInt64 operand.toInt64)
  else
    return v

/-- Combines the variables from `first` to `last` with an operand. -/
def combineBetween (v : Variables) (first last : Number) (op : VariableOp) (operand : Number) :
    Except Overflow Variables :=
  (idsBetween first last).foldlM (fun v id => v.combine id op operand) v

theorem bounded_eq (v : Variables) (value : Int64) :
    v.bounded value = Number.clampInt v.low v.high value.toInt := by
  refine Int32.toInt_inj.1 ?_
  have hmax (a b : Int64) : (max a b).toInt = max a.toInt b.toInt := by
    show (if a ≤ b then b else a).toInt = _
    simp only [Int64.le_iff_toInt_le]
    split <;> omega
  have hmin (a b : Int64) : (min a b).toInt = min a.toInt b.toInt := by
    show (if a ≤ b then a else b).toInt = _
    simp only [Int64.le_iff_toInt_le]
    split <;> omega
  have hlow := v.low.le_toInt
  have hhigh := v.high.toInt_lt
  have hhigh' := v.high.le_toInt
  rw [Number.toInt_clampInt, bounded, Int64.toInt_toInt32, hmin, hmax, Int32.toInt_toInt64,
    Int32.toInt_toInt64]
  exact Int.bmod_eq_of_le (by omega) (by omega)

theorem get_store (v : Variables) (id j : Number) (value : Int64) :
    (v.store id value).get j =
      if j = id ∧ 0 < id.toInt then Number.clampInt v.low v.high value.toInt else v.get j := by
  rw [← bounded_eq]
  exact v.cells.get_write id j _

theorem get_set (v : Variables) (id j value : Number) :
    (v.set id value).get j =
      if j = id ∧ 0 < id.toInt then Number.clampInt v.low v.high value.toInt else v.get j := by
  rw [set, get_store, Int32.toInt_toInt64]

end Variables

end EventScript
