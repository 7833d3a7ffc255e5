import EventScript.World

/-!
# The arithmetic of variables is exact

A write to a variable is computed in twice the width of a variable, and what comes out is brought
between two bounds. No operation on two variables leaves that width, so that a write does the same
as one in integers without bounds, and never fails.

* `VariableOp.result?` is the operation in integers, and `VariableOp.apply_eq` says that the checked
  operation gives it.
* `Variables.combineBetween_eq`: a write to a range has a result, `Variables.combinedBetween`.
* `Variables.get_combinedBetween` tells what is read afterwards at every id.
-/

namespace EventScript

namespace VariableOp

/-- The result in integers without bounds; there is none of a division by zero. -/
def result? (op : VariableOp) (old operand : Int) : Option Int :=
  match op with
  | set => some operand
  | add => some (old + operand)
  | sub => some (old - operand)
  | mul => some (old * operand)
  | div => if operand = 0 then none else some (old.tdiv operand)
  | mod => if operand = 0 then none else some (old.tmod operand)

variable {op : VariableOp} {old operand : Number} {z : Int}

theorem isSome_result? (op : VariableOp) (old operand : Number) :
    (op.result? old.toInt operand.toInt).isSome = op.hasResult operand := by
  have hzero : operand.toInt = 0 ↔ operand = 0 := Int32.toInt_inj (y := 0)
  cases op with
  | set | add | sub | mul => rfl
  | div | mod =>
    rw [result?, hasResult]
    by_cases h : operand = 0 <;> simp [hzero, h]

/-- A number is at most so far from zero. -/
theorem natAbs_le (n : Number) : n.toInt.natAbs ≤ 2147483648 := by
  have := n.le_toInt
  have := n.toInt_lt
  omega

/-- Whatever comes out is so close to zero that a doubled width holds it. -/
theorem natAbs_result (h : op.result? old.toInt operand.toInt = some z) :
    z.natAbs ≤ 4611686018427387904 := by
  have hold := natAbs_le old
  have hoperand := natAbs_le operand
  cases op with
  | set | add | sub =>
    cases h
    omega
  | mul =>
    cases h
    rw [Int.natAbs_mul]
    exact Nat.mul_le_mul hold hoperand
  | div =>
    simp only [result?, Option.ite_none_left_eq_some, Option.some.injEq] at h
    obtain ⟨-, rfl⟩ := h
    exact Nat.le_trans (Int.natAbs_tdiv_le_natAbs _ _) (by omega)
  | mod =>
    simp only [result?, Option.ite_none_left_eq_some, Option.some.injEq] at h
    obtain ⟨-, rfl⟩ := h
    rw [Int.natAbs_tmod]
    exact Nat.le_trans (Nat.mod_le _ _) (by omega)

theorem toInt_result (h : op.result? old.toInt operand.toInt = some z) :
    (Int64.ofInt z).toInt = z := by
  have := natAbs_result h
  exact Int64.toInt_ofInt_of_le (by omega) (by omega)

theorem fit_wide {cause : Overflow} (h : z.natAbs ≤ 4611686018427387904) :
    Checked.fit cause z = .ok (Int64.ofInt z) :=
  Checked.fit_isOk (α := Int64) cause
    (show -9223372036854775808 ≤ z by omega) (show z ≤ 9223372036854775807 by omega)

/-- The checked operation gives the exact result. -/
theorem apply_eq (h : op.result? old.toInt operand.toInt = some z) :
    op.apply old.toInt64 operand.toInt64 = .ok (Int64.ofInt z) := by
  have hz := natAbs_result h
  have hold : FixedWidth.toInt old.toInt64 = old.toInt := Int32.toInt_toInt64 old
  have hoperand : FixedWidth.toInt operand.toInt64 = operand.toInt := Int32.toInt_toInt64 operand
  cases op with
  | set =>
    cases h
    rw [← Int32.toInt_toInt64 operand, Int64.ofInt_toInt]
    rfl
  | add | sub | mul =>
    cases h
    simp only [apply, Checked.add, Checked.sub, Checked.mul, hold, hoperand]
    exact fit_wide hz
  | div =>
    simp only [result?, Option.ite_none_left_eq_some, Option.some.injEq] at h
    obtain ⟨-, rfl⟩ := h
    simp only [apply, Checked.div, hold, hoperand]
    exact fit_wide hz
  | mod =>
    have hne : operand.toInt ≠ 0 := fun hzero => by simp [result?, hzero] at h
    have hquotient : div.result? old.toInt operand.toInt = some (old.toInt.tdiv operand.toInt) :=
      if_neg hne
    simp only [result?, if_neg hne, Option.some.injEq] at h
    simp only [apply, Checked.rem, hold, hoperand, h, fit_wide (natAbs_result hquotient),
      fit_wide hz]
    rfl

end VariableOp

namespace Variables

/-- What is left of a value: the exact result between the bounds, or the value itself. -/
def outcome (v : Variables) (op : VariableOp) (operand old : Number) : Number :=
  match op.result? old.toInt operand.toInt with
  | some z => Number.clampInt v.low v.high z
  | none => old

/-- The variables after an exact operation on one of them. -/
def combined (v : Variables) (id : Number) (op : VariableOp) (operand : Number) : Variables :=
  match op.result? (v.get id).toInt operand.toInt with
  | some z => v.store id (Int64.ofInt z)
  | none => v

/-- The variables after an exact operation on those from `first` to `last`. -/
def combinedBetween (v : Variables) (first last : Number) (op : VariableOp) (operand : Number) :
    Variables :=
  (idsBetween first last).foldl (fun v id => v.combined id op operand) v

/-- Two memories with the same bounds. -/
def SameBounds (v v' : Variables) : Prop := v'.low = v.low ∧ v'.high = v.high

variable {v v' : Variables} {op : VariableOp} {operand : Number}

theorem SameBounds.combined (h : v.SameBounds v') (id : Number) :
    v.SameBounds (v'.combined id op operand) := by
  unfold Variables.combined
  split <;> exact h

theorem get_combined (id j : Number) :
    (v.combined id op operand).get j =
      if j = id ∧ 0 < id.toInt then v.outcome op operand (v.get j) else v.get j := by
  unfold combined
  cases h : op.result? (v.get id).toInt operand.toInt with
  | none =>
    have hkept : v.outcome op operand (v.get id) = v.get id := by rw [outcome, h]
    by_cases hj : j = id ∧ 0 < id.toInt
    · rw [if_pos hj, hj.1, hkept]
    · rw [if_neg hj]
  | some z =>
    have hgiven : v.outcome op operand (v.get id) = Number.clampInt v.low v.high z := by
      rw [outcome, h]
    rw [get_store, VariableOp.toInt_result h]
    by_cases hj : j = id ∧ 0 < id.toInt
    · rw [if_pos hj, if_pos hj, hj.1, hgiven]
    · rw [if_neg hj, if_neg hj]

variable (v op operand)

theorem combine_eq (id : Number) : v.combine id op operand = .ok (v.combined id op operand) := by
  unfold combine combined
  rw [← VariableOp.isSome_result? op (v.get id) operand]
  cases h : op.result? (v.get id).toInt operand.toInt with
  | none => rfl
  | some z =>
    rw [VariableOp.apply_eq h]
    rfl

/-- A write to a range never fails. -/
theorem combineBetween_eq (first last : Number) :
    v.combineBetween first last op operand = .ok (v.combinedBetween first last op operand) := by
  unfold combineBetween combinedBetween
  induction idsBetween first last generalizing v with
  | nil => rfl
  | cons id ids ih =>
    rw [List.foldlM_cons, combine_eq, List.foldl_cons, ← ih]
    rfl

theorem sameBounds_combinedBetween (first last : Number) :
    v.SameBounds (v.combinedBetween first last op operand) :=
  List.foldlRecOn _ _ ⟨rfl, rfl⟩ fun _ h id _ => h.combined id

/-- The bounds stay as they are, so that every write of a range is brought between the same two. -/
theorem get_combinedBetween (first last j : Number) :
    (v.combinedBetween first last op operand).get j =
      if (first ≤ j ∧ j ≤ last) ∧ 0 < j.toInt then v.outcome op operand (v.get j)
      else v.get j := by
  refine get_foldl_idsBetween (v.outcome op operand) v.SameBounds (fun _ id h => h.combined id)
    (fun u id j hu => ?_) first last j ⟨rfl, rfl⟩
  rw [get_combined, outcome, outcome, hu.1, hu.2]

end Variables

namespace Act

/-- A range of variables is written, whatever it holds. -/
theorem combineVariables_eq (first last : Number) (op : VariableOp) (operand : Number) :
    combineVariables first last op operand = (do
      if op.hasResult operand then warnBetween .invalidVariable first last
      modifyGame fun g => { g with vars := g.vars.combinedBetween first last op operand }) := by
  simp only [combineVariables, Variables.combineBetween_eq]
  rfl

end Act

end EventScript
