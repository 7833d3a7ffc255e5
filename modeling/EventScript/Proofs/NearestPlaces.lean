import EventScript.Proofs.Scans
import Mathlib.Order.Bounds.Defs

/-!
# The nearest place

One scan finds the end of a block, another the start of a loop. Neither trusts the indents: they
may be negative and in any order, the bounds may be the wrong way round, and the start may lie
behind the end of the list.

* `Blocks.hitsFrom` and `Blocks.loopsBefore` are the places that a scan looks for, told without the
  scan. `Blocks.IndentedLess` holds where a scan gives up.
* `Blocks.seek_eq_some_iff_isLeast` and `Blocks.loopBefore_eq_some_iff_isGreatest`: a scan finds the
  nearest of its places, the least one forward and the greatest one backward, if it does not give up
  on the way.
* `Blocks.seek_eq_none_iff_cut` and `Blocks.loopBefore_eq_none_iff_cut`: it finds nothing exactly if
  it would give up on the way to every one of them.
* `Blocks.scans_exact` puts them together.
-/

namespace EventScript.Blocks

variable {cs : List Command} {start i : Nat} {target alt low high indent : Number}

/-- The places from `start` on that hold one of two codes at an indent from `low` to `high`. -/
def hitsFrom (cs : List Command) (start : Nat) (target alt low high : Number) : Set Nat :=
  {i | start ≤ i ∧ ∃ c, cs[i]? = some c ∧ Hits target alt low high c}

/-- The places before `start` that hold a loop at an indent. -/
def loopsBefore (cs : List Command) (start : Nat) (indent : Number) : Set Nat :=
  {i | i < start ∧ ∃ c, cs[i]? = some c ∧ c.indent = indent ∧ c.code = SharedOp.loop.code}

/-- Whether the command at a place is indented less than a bound. -/
def IndentedLess (cs : List Command) (bound : Number) (i : Nat) : Prop :=
  ∃ c, cs[i]? = some c ∧ c.indent < bound

theorem IndentedLess.lt_length {bound : Number} (h : IndentedLess cs bound i) : i < cs.length := by
  obtain ⟨c, hc, -⟩ := h
  exact (List.getElem?_eq_some_iff.1 hc).1

/-! ## Forward -/

theorem FirstHit.not_indentedLess {j : Nat} (h : FirstHit cs start target alt low high i)
    (hj : start ≤ j) (hlt : j < i) : ¬ IndentedLess cs low j := by
  rintro ⟨c, hc, hless⟩
  exact Int32.not_lt.2 (h.passed j c hj hlt hc).1 hless

theorem firstHit_iff_isLeast : FirstHit cs start target alt low high i ↔
    IsLeast (hitsFrom cs start target alt low high) i ∧
      ∀ j, start ≤ j → j < i → ¬ IndentedLess cs low j := by
  constructor
  · intro h
    refine ⟨⟨⟨h.le, h.hit⟩, fun j hj => ?_⟩, fun j => h.not_indentedLess⟩
    obtain ⟨hle, c, hc, hhit⟩ := hj
    exact Nat.not_lt.1 fun hlt => (h.passed j c hle hlt hc).2 hhit
  · rintro ⟨⟨⟨hle, hhit⟩, hleast⟩, hdeep⟩
    refine ⟨hle, hhit, fun j c hj hlt hc => ⟨?_, fun hhit' => ?_⟩⟩
    · exact Int32.not_lt.1 fun hless => hdeep j hj hlt ⟨c, hc, hless⟩
    · exact Nat.not_lt.2 (hleast ⟨hj, c, hc, hhit'⟩) hlt

theorem seek_eq_some_iff_isLeast : seek cs start target alt low high = some i ↔
    IsLeast (hitsFrom cs start target alt low high) i ∧
      ∀ j, start ≤ j → j < i → ¬ IndentedLess cs low j :=
  seek_eq_some_iff.trans firstHit_iff_isLeast

theorem seek_eq_none_iff_cut : seek cs start target alt low high = none ↔
    ∀ i ∈ hitsFrom cs start target alt low high,
      ∃ j, start ≤ j ∧ j < i ∧ IndentedLess cs low j := by
  rw [seek_eq_none_iff]
  constructor
  · rintro hnone i ⟨hle, c, hc, hhit⟩
    refine Classical.byContradiction fun hcut => ?_
    have hdeep (j : Nat) (x : Command) (hj : start ≤ j) (hlt : j < i) (hx : cs[j]? = some x) :
        low ≤ x.indent :=
      Int32.not_lt.1 fun hless => hcut ⟨j, hj, hlt, x, hx, hless⟩
    obtain ⟨l, -, hfirst⟩ := exists_firstHit hle hc hhit hdeep
    exact hnone l hfirst
  · intro hcut i h
    obtain ⟨j, hj, hlt, hless⟩ := hcut i ⟨h.le, h.hit⟩
    exact h.not_indentedLess hj hlt hless

/-! ## Backward -/

theorem LastLoop.not_indentedLess {j : Nat} (h : LastLoop cs start indent i)
    (hj : i < j) (hlt : j < start) : ¬ IndentedLess cs indent j := by
  rintro ⟨c, hc, hless⟩
  exact (h.passed j c hj hlt hc).1 hless

theorem lastLoop_iff_isGreatest : LastLoop cs start indent i ↔
    IsGreatest (loopsBefore cs start indent) i ∧
      ∀ j, i < j → j < min start cs.length → ¬ IndentedLess cs indent j := by
  constructor
  · intro h
    refine ⟨⟨⟨h.lt, h.loop⟩, fun j hj => ?_⟩, fun j hj hlt => ?_⟩
    · obtain ⟨hlt, c, hc, hloop⟩ := hj
      exact Nat.not_lt.1 fun hgt => (h.passed j c hgt hlt hc).2 hloop
    · exact h.not_indentedLess hj (Nat.lt_of_lt_of_le hlt (Nat.min_le_left _ _))
  · rintro ⟨⟨⟨hlt, hloop⟩, hgreatest⟩, hdeep⟩
    refine ⟨hlt, hloop, fun j c hj hjs hc => ⟨fun hless => ?_, fun hloop' => ?_⟩⟩
    · have h : IndentedLess cs indent j := ⟨c, hc, hless⟩
      exact hdeep j hj (Nat.lt_min.2 ⟨hjs, h.lt_length⟩) h
    · exact Nat.not_lt.2 (hgreatest ⟨hjs, c, hc, hloop'⟩) hj

theorem loopBefore_eq_some_iff_isGreatest : loopBefore cs start indent = some i ↔
    IsGreatest (loopsBefore cs start indent) i ∧
      ∀ j, i < j → j < min start cs.length → ¬ IndentedLess cs indent j :=
  loopBefore_eq_some_iff.trans lastLoop_iff_isGreatest

/-- A loop before a place is found, or one behind it, if no command behind it ends the search. -/
theorem exists_lastLoop (h : i ∈ loopsBefore cs start indent)
    (hdeep : ∀ j, i < j → j < start → ¬ IndentedLess cs indent j) :
    ∃ j, LastLoop cs start indent j := by
  induction hd : start - i using Nat.strongRecOn generalizing i with
  | ind d ih =>
    by_cases hlater : ∃ j ∈ loopsBefore cs start indent, i < j
    · obtain ⟨j, hj, hlt⟩ := hlater
      have hcloser : start - j < d := by
        have hjs : j < start := hj.1
        omega
      exact ih (start - j) hcloser hj (fun l hl => hdeep l (Nat.lt_trans hlt hl)) rfl
    · refine ⟨i, h.1, h.2, fun j c hj hjs hc => ⟨fun hless => ?_, fun hloop => ?_⟩⟩
      · exact hdeep j hj hjs ⟨c, hc, hless⟩
      · exact hlater ⟨j, ⟨hjs, c, hc, hloop⟩, hj⟩

theorem loopBefore_eq_none_iff_cut : loopBefore cs start indent = none ↔
    ∀ i ∈ loopsBefore cs start indent,
      ∃ j, i < j ∧ j < min start cs.length ∧ IndentedLess cs indent j := by
  rw [Option.eq_none_iff_forall_ne_some]
  constructor
  · intro hnone i hi
    refine Classical.byContradiction fun hcut => ?_
    have hdeep (j : Nat) (hj : i < j) (hlt : j < start) : ¬ IndentedLess cs indent j :=
      fun hless => hcut ⟨j, hj, Nat.lt_min.2 ⟨hlt, hless.lt_length⟩, hless⟩
    obtain ⟨l, hlast⟩ := exists_lastLoop hi hdeep
    exact hnone l (loopBefore_eq_some_iff.2 hlast)
  · intro hcut i hi
    have h := loopBefore_eq_some_iff.1 hi
    obtain ⟨j, hj, hlt, hless⟩ := hcut i ⟨h.lt, h.loop⟩
    exact h.not_indentedLess hj (Nat.lt_of_lt_of_le hlt (Nat.min_le_left _ _)) hless

/-! ## Both scans -/

/-- Both scans are exact on every list. The one forward finds a place if and only if it is the least
one from the start on that holds one of the two codes at an indent within the bounds, and no command
from the start up to it is indented less than the lower bound. The one backward finds a place if and
only if it is the greatest one before the start that holds a loop at the indent, and no command
between it and the start, or the end of the list, is indented less. Else they find nothing, and then
a command that is indented less stands on the way to each of these places. -/
theorem scans_exact (cs : List Command) (start : Nat) (target alt : Opcode)
    (low high indent : Number) :
    (∀ i, seek cs start target.code alt.code low high = some i ↔
      IsLeast (hitsFrom cs start target.code alt.code low high) i ∧
        ∀ j, start ≤ j → j < i → ¬ IndentedLess cs low j) ∧
    (seek cs start target.code alt.code low high = none ↔
      ∀ i ∈ hitsFrom cs start target.code alt.code low high,
        ∃ j, start ≤ j ∧ j < i ∧ IndentedLess cs low j) ∧
    (∀ i, loopBefore cs start indent = some i ↔
      IsGreatest (loopsBefore cs start indent) i ∧
        ∀ j, i < j → j < min start cs.length → ¬ IndentedLess cs indent j) ∧
    (loopBefore cs start indent = none ↔
      ∀ i ∈ loopsBefore cs start indent,
        ∃ j, i < j ∧ j < min start cs.length ∧ IndentedLess cs indent j) :=
  ⟨fun _ => seek_eq_some_iff_isLeast, seek_eq_none_iff_cut,
    fun _ => loopBefore_eq_some_iff_isGreatest, loopBefore_eq_none_iff_cut⟩

/-- A list in no order, in which no loop is closed and no branch is opened. -/
def tangled : List Command := [
  { code := SharedOp.loop.code, indent := -3 },
  { code := SharedOp.loop.code, indent := -1 },
  { code := FieldOp.endBranch.code, indent := 5 },
  { code := SharedOp.loop.code, indent := 2 },
  { code := FieldOp.elseBranch.code },
  { code := SharedOp.wait.code, indent := -2 },
  { code := FieldOp.endBranch.code }]

/-- Forward, an end that stands too deep is passed over and the wait cuts off the other one.
Backward, the wait cuts off the loop at an indent of -1 only from behind the end of the list. -/
theorem tangled_scanned :
    IsLeast (hitsFrom tangled 2 FieldOp.elseBranch.code FieldOp.endBranch.code (-1) 0) 4 ∧
    IsGreatest (loopsBefore tangled 5 (-1)) 1 ∧
    (∃ j, 5 ≤ j ∧ j < 6 ∧ IndentedLess tangled (-1) j) ∧
    ∃ j, 1 < j ∧ j < 7 ∧ IndentedLess tangled (-1) j := by
  have hexact (start : Nat) :=
    scans_exact tangled start (.field .elseBranch) (.field .endBranch) (-1) 0 (-1)
  obtain ⟨hleast, -⟩ := hexact 2
  obtain ⟨-, hcut, hgreatest, -⟩ := hexact 5
  obtain ⟨-, -, -, hcutLoop⟩ := hexact 100
  refine ⟨((hleast 4).1 rfl).1, ((hgreatest 1).1 rfl).1, ?_, ?_⟩
  · exact hcut.1 rfl 6 ⟨by decide, _, rfl, ⟨by decide, by decide⟩, .inr rfl⟩
  · exact hcutLoop.1 rfl 1 ⟨by decide, _, rfl, rfl, rfl⟩

end EventScript.Blocks
