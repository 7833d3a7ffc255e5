import EventScript.Commands.Party
import EventScript.Proofs.CallDepth

/-!
# How far actors can grow

Commands add to the statistics of actors. Experience and level are brought between two limits, and
points stay below their maximum. Abilities and the maxima themselves have no upper limit, so that
they rise with every command that adds to them.

* `Growth` lists what is added to, and `Growth.grow` is the change to one actor. It fails exactly if
  the sum leaves the width of numbers (`Growth.exists_grow_iff`).
* `Actor.Within` bounds every statistic by the number of commands on parameters so far
  (`Actor.Within.grow`).
-/

namespace EventScript

/-- What a command adds to. -/
inductive Growth
  | exp
  | level
  | parameter (which : Int)
  | hp (lethal : Bool)
  | sp
  deriving DecidableEq

namespace Growth

/-- What a command adds to, if it adds to a statistic at all. -/
def of? (c : Command) : Option Growth :=
  match c.opcode with
  | .shared .changeExp => some .exp
  | .shared .changeLevel => some .level
  | .shared .changeParameters => some (.parameter (c.mode 3))
  | .shared .changeHp => some (.hp (c.flag 5))
  | .shared .changeSp => some .sp
  | _ => none

/-- A parameter of an actor, if it has the number. -/
def parameter? (which : Int) (a : Actor) : Option Number :=
  match which with
  | 0 => some a.vitals.maxHp
  | 1 => some a.vitals.maxSp
  | 2 => some a.attack
  | 3 => some a.defense
  | 4 => some a.spirit
  | 5 => some a.agility
  | _ => none

/-- The statistic of an actor that is added to. Whoever is knocked out has no points to add to. -/
def statistic? (k : Growth) (a : Actor) : Option Number :=
  match k with
  | exp => some a.exp
  | level => some a.level
  | parameter which => parameter? which a
  | hp _ => if a.vitals.isFallen then none else some a.vitals.hp
  | sp => some a.vitals.sp

/-- The change to one actor. -/
def grow (k : Growth) (c : Config) (value : Number) (a : Actor) : Except Overflow Actor :=
  match k with
  | exp => do return { a with exp := Number.clamp 0 c.expMax (← Checked.add a.exp value) }
  | level => do return { a with level := Number.clamp 1 c.levelMax (← Checked.add a.level value) }
  | parameter which => Commands.addParameter which value a
  | hp lethal => do return { a with vitals := ← a.vitals.changeHp value lethal }
  | sp => do return { a with vitals := ← a.vitals.changeSp value }

variable {k : Growth} {c : Config} {value : Number} {a a' : Actor}

theorem exists_return_iff {ε α β : Type} {x : Except ε α} {f : α → β} :
    (∃ b, (do return f (← x) : Except ε β) = .ok b) ↔ ∃ r, x = .ok r := by
  constructor
  · rintro ⟨b, h⟩
    obtain ⟨r, hr, -⟩ := except_bind_eq_ok_iff.1 h
    exact ⟨r, hr⟩
  · rintro ⟨r, hr⟩
    exact ⟨f r, except_bind_eq_ok_iff.2 ⟨r, hr, rfl⟩⟩

theorem exists_sum_iff {x : Number} : (∃ sum, Checked.add x value = .ok sum) ↔
    -2147483648 ≤ x.toInt + value.toInt ∧ x.toInt + value.toInt ≤ 2147483647 :=
  Checked.exists_fit_iff

theorem exists_addParameter_iff {which : Int} :
    (∃ a', Commands.addParameter which value a = .ok a') ↔
      ∀ x, parameter? which a = some x →
        -2147483648 ≤ x.toInt + value.toInt ∧ x.toInt + value.toInt ≤ 2147483647 := by
  unfold Commands.addParameter
  split
  case h_7 =>
    have hnone : parameter? which a = none := by
      unfold parameter?
      split <;> trivial
    simp [hnone]
  all_goals
    simp only [parameter?, Option.some.injEq, forall_eq']
    exact exists_return_iff.trans exists_sum_iff

theorem exists_changeHp_iff {v : Vitals} {lethal : Bool} :
    (∃ v', v.changeHp value lethal = .ok v') ↔ (v.isFallen = false →
      -2147483648 ≤ v.hp.toInt + value.toInt ∧ v.hp.toInt + value.toInt ≤ 2147483647) := by
  unfold Vitals.changeHp
  split
  · next hfallen =>
    apply iff_of_true
    · exact ⟨v, rfl⟩
    · intro hstands
      exact absurd hfallen (Bool.eq_false_iff.1 hstands)
  · next hstands =>
    rw [Bool.eq_false_iff.2 hstands]
    refine (exists_return_iff.trans exists_sum_iff).trans ⟨fun h _ => h, fun h => h rfl⟩

/-- A change fails exactly if the sum leaves the width of numbers. -/
theorem exists_grow_iff : (∃ a', k.grow c value a = .ok a') ↔
    ∀ x, k.statistic? a = some x →
      -2147483648 ≤ x.toInt + value.toInt ∧ x.toInt + value.toInt ≤ 2147483647 := by
  cases k with
  | exp | level =>
    simp only [statistic?, Option.some.injEq, forall_eq']
    exact exists_return_iff.trans exists_sum_iff
  | parameter which => exact exists_addParameter_iff
  | hp lethal =>
    refine (exists_return_iff.trans exists_changeHp_iff).trans ?_
    cases hfallen : a.vitals.isFallen with
    | true => simp [statistic?, hfallen]
    | false => simp [statistic?, hfallen]
  | sp =>
    simp only [statistic?, Option.some.injEq, forall_eq']
    exact exists_return_iff.trans (exists_return_iff.trans exists_sum_iff)

end Growth

/-! ## Bounds of an actor -/

/-- A number between zero and an upper bound. -/
def Number.UpTo (top : Int) (x : Number) : Prop := 0 ≤ x.toInt ∧ x.toInt ≤ top

/-- How far a parameter can have risen after some commands. -/
def reach (n : Nat) : Int := 9999999 * (n + 1)

/-- The statistics of an actor after some commands on parameters. -/
structure Actor.Within (n : Nat) (a : Actor) : Prop where
  exp : a.exp.UpTo (reach 0)
  level : a.level.UpTo (reach 0)
  hp : a.vitals.hp.UpTo a.vitals.maxHp.toInt
  sp : a.vitals.sp.UpTo a.vitals.maxSp.toInt
  maxHp : a.vitals.maxHp.UpTo (reach n)
  maxSp : a.vitals.maxSp.UpTo (reach n)
  attack : a.attack.UpTo (reach n)
  defense : a.defense.UpTo (reach n)
  spirit : a.spirit.UpTo (reach n)
  agility : a.agility.UpTo (reach n)

/-- How many commands on parameters a change counts for. -/
def Growth.weight : Growth → Nat
  | .parameter _ => 1
  | _ => 0

section Bounds

variable {n : Nat} {k : Growth} {value x : Number} {a a' : Actor}

theorem Number.UpTo.mono {low high : Int} (h : x.UpTo low) (hle : low ≤ high) : x.UpTo high :=
  ⟨h.1, Int.le_trans h.2 hle⟩

theorem reach_mono {m : Nat} (h : m ≤ n) : reach m ≤ reach n := by
  unfold reach
  omega

theorem Actor.Within.mono {m : Nat} (h : a.Within m) (hle : m ≤ n) : a.Within n :=
  ⟨h.exp, h.level, h.hp, h.sp, h.maxHp.mono (reach_mono hle), h.maxSp.mono (reach_mono hle),
    h.attack.mono (reach_mono hle), h.defense.mono (reach_mono hle),
    h.spirit.mono (reach_mono hle), h.agility.mono (reach_mono hle)⟩

/-- Whatever is added to is within reach. -/
theorem Actor.Within.statistic (h : a.Within n) (hx : k.statistic? a = some x) :
    x.UpTo (reach n) := by
  have hzero : reach 0 ≤ reach n := reach_mono (Nat.zero_le n)
  cases k with
  | exp =>
    cases hx
    exact h.exp.mono hzero
  | level =>
    cases hx
    exact h.level.mono hzero
  | parameter which =>
    simp only [Growth.statistic?, Growth.parameter?] at hx
    split at hx
    all_goals cases hx
    · exact h.maxHp
    · exact h.maxSp
    · exact h.attack
    · exact h.defense
    · exact h.spirit
    · exact h.agility
  | hp lethal =>
    simp only [Growth.statistic?] at hx
    split at hx
    · cases hx
    · cases hx
      exact h.hp.mono h.maxHp.2
  | sp =>
    cases hx
    exact h.sp.mono h.maxSp.2

/-- One command adds no more than one command may. -/
theorem upTo_succ {low sum : Number} (hx : x.UpTo (reach n)) (hvalue : value.toInt ≤ 9999999)
    (hsum : Checked.add x value = .ok sum) (hlow : low.UpTo 1) :
    (max sum low).UpTo (reach (n + 1)) := by
  have hexact : sum.toInt = x.toInt + value.toInt := Checked.fit_eq_ok_iff.1 hsum
  obtain ⟨hpos, hle⟩ := hx
  obtain ⟨hlow, hone⟩ := hlow
  unfold reach at *
  rw [Number.UpTo, Number.toInt_max]
  omega

theorem upTo_clamp {low high sum : Number} {top : Int} (hlow : 0 ≤ low.toInt)
    (hhigh : high.UpTo top) : (Number.clamp low high sum).UpTo top := by
  obtain ⟨hpos, hle⟩ := hhigh
  rw [Number.UpTo, Number.toInt_clamp]
  omega

theorem upTo_min {top : Number} (hx : 0 ≤ x.toInt) (htop : 0 ≤ top.toInt) :
    (min x top).UpTo top.toInt := by
  rw [Number.UpTo, Number.toInt_min]
  exact ⟨Int.le_min.2 ⟨hx, htop⟩, Int.min_le_right _ _⟩

/-- Changed hit points stay below their maximum, and all other points stay as they are. -/
theorem points_of_changeHp {v v' : Vitals} {lethal : Bool} (hv : v.hp.UpTo v.maxHp.toInt)
    (hmax : 0 ≤ v.maxHp.toInt) (h : v.changeHp value lethal = .ok v') :
    v'.hp.UpTo v.maxHp.toInt ∧ v'.maxHp = v.maxHp ∧ v'.sp = v.sp ∧ v'.maxSp = v.maxSp := by
  unfold Vitals.changeHp at h
  split at h
  · cases h
    exact ⟨hv, rfl, rfl, rfl⟩
  · obtain ⟨sum, -, h⟩ := except_bind_eq_ok_iff.1 h
    let floor : Number := if lethal then 0 else min 1 v.hp
    let hp := Number.clamp floor v.maxHp sum
    have hfloor : 0 ≤ floor.toInt := by
      simp only [floor]
      split
      · exact Int.le_refl 0
      · rw [Number.toInt_min]
        exact Int.le_min.2 ⟨by decide, hv.1⟩
    have hpoints : hp.UpTo v.maxHp.toInt := upTo_clamp hfloor ⟨hmax, Int.le_refl _⟩
    obtain rfl : (if hp = 0 then { v with hp, states := IdSet.single knockOut }
        else { v with hp }) = v' := Except.ok.inj h
    split
    · exact ⟨hpoints, rfl, rfl, rfl⟩
    · exact ⟨hpoints, rfl, rfl, rfl⟩

theorem Actor.Within.addParameter {which : Int} (h : a.Within n) (hvalue : value.toInt ≤ 9999999)
    (hgrow : Commands.addParameter which value a = .ok a') : a'.Within (n + 1) := by
  have hone : (1 : Number).UpTo 1 := ⟨by decide, by decide⟩
  have hzero : (0 : Number).UpTo 1 := ⟨by decide, by decide⟩
  have hlater := h.mono (Nat.le_succ n)
  unfold Commands.addParameter at hgrow
  split at hgrow
  case h_7 =>
    cases hgrow
    exact hlater
  all_goals
    obtain ⟨sum, hsum, hgrow⟩ := except_bind_eq_ok_iff.1 hgrow
    cases hgrow
  · have hmax := upTo_succ h.maxHp hvalue hsum hone
    exact { hlater with maxHp := hmax, hp := upTo_min h.hp.1 hmax.1 }
  · have hmax := upTo_succ h.maxSp hvalue hsum hzero
    exact { hlater with maxSp := hmax, sp := upTo_min h.sp.1 hmax.1 }
  · exact { hlater with attack := upTo_succ h.attack hvalue hsum hone }
  · exact { hlater with defense := upTo_succ h.defense hvalue hsum hone }
  · exact { hlater with spirit := upTo_succ h.spirit hvalue hsum hone }
  · exact { hlater with agility := upTo_succ h.agility hvalue hsum hone }

/-- An actor stays within bounds, which rise with every command on parameters. -/
theorem Actor.Within.grow (h : a.Within n) (hvalue : value.toInt ≤ 9999999)
    (hgrow : k.grow {} value a = .ok a') : a'.Within (n + k.weight) := by
  cases k with
  | exp =>
    obtain ⟨sum, -, hgrow⟩ := except_bind_eq_ok_iff.1 hgrow
    cases hgrow
    have hlimit : (999999 : Number).UpTo (reach 0) := ⟨by decide, by decide⟩
    exact { h with exp := upTo_clamp (Int.le_refl 0) hlimit }
  | level =>
    obtain ⟨sum, -, hgrow⟩ := except_bind_eq_ok_iff.1 hgrow
    cases hgrow
    have hlimit : (99 : Number).UpTo (reach 0) := ⟨by decide, by decide⟩
    exact { h with level := upTo_clamp (by decide) hlimit }
  | parameter which => exact h.addParameter hvalue hgrow
  | hp lethal =>
    obtain ⟨v, hv, hgrow⟩ := except_bind_eq_ok_iff.1 hgrow
    cases hgrow
    obtain ⟨hhp, hmaxHp, hsp, hmaxSp⟩ := points_of_changeHp h.hp h.maxHp.1 hv
    refine { h with hp := ?_, sp := ?_, maxHp := ?_, maxSp := ?_ }
    · exact hmaxHp ▸ hhp
    · exact hsp ▸ hmaxSp ▸ h.sp
    · exact hmaxHp ▸ h.maxHp
    · exact hmaxSp ▸ h.maxSp
  | sp =>
    obtain ⟨v, hv, hgrow⟩ := except_bind_eq_ok_iff.1 hgrow
    cases hgrow
    obtain ⟨sum, -, hv⟩ := except_bind_eq_ok_iff.1 hv
    cases hv
    exact { h with sp := upTo_clamp (Int.le_refl 0) ⟨h.maxSp.1, Int.le_refl _⟩ }

end Bounds

end EventScript
