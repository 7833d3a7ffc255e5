import EventScript.IdMap

/-!
# Vitals

Hit points, spell points and states, which actors and enemies have alike. Whoever has the death
state is knocked out.
-/

namespace EventScript

/-- The state of whoever is knocked out. -/
def knockOut : Number := 1

/-- The points and states of an actor or an enemy. -/
structure Vitals where
  hp : Number := 0
  maxHp : Number := 0
  sp : Number := 0
  maxSp : Number := 0
  states : IdSet := ∅
  deriving DecidableEq

namespace Vitals

/-- Vitals at their full points and in no state. -/
def full (maxHp maxSp : Number) : Vitals := { hp := maxHp, maxHp, sp := maxSp, maxSp }

/-- Whether the death state is there. -/
def isFallen (v : Vitals) : Bool := v.states.contains knockOut

/-- Adds to the hit points, up to the maximum. Only a lethal change takes the last point, and
whoever has none left is knocked out. Nothing changes for whoever is knocked out already. -/
def changeHp (v : Vitals) (delta : Number) (lethal : Bool) : Except Overflow Vitals :=
  if v.isFallen then .ok v
  else do
    let floor : Number := if lethal then 0 else min 1 v.hp
    let hp := Number.clamp floor v.maxHp (← Checked.add v.hp delta)
    return if hp = 0 then { v with hp, states := IdSet.single knockOut } else { v with hp }

/-- Adds to the spell points, between zero and the maximum. -/
def changeSp (v : Vitals) (delta : Number) : Except Overflow Vitals := do
  return { v with sp := Number.clamp 0 v.maxSp (← Checked.add v.sp delta) }

/-- Adds a state; the death state takes all points and drives out every other state. -/
def afflict (v : Vitals) (state : Number) : Vitals :=
  if state = knockOut then { v with hp := 0, states := IdSet.single knockOut }
  else { v with states := IdSet.add v.states state }

/-- Takes a state away; whoever comes back from the death state without points has one. -/
def relieve (v : Vitals) (state : Number) : Vitals :=
  { v with
    hp := if v.states.contains state ∧ state = knockOut ∧ v.hp = 0 then 1 else v.hp
    states := v.states.erase state }

/-- Restores all points and takes every state away. -/
def restore (v : Vitals) : Vitals := { v with hp := v.maxHp, sp := v.maxSp, states := ∅ }

/-- The hit points in percent of the maximum, rounded toward zero. -/
def hpShare (v : Vitals) : Except Overflow Number := do
  if v.maxHp.toInt ≤ 0 then return 0
  let hundredfold ← Checked.mul v.hp 100
  Checked.div hundredfold v.maxHp

end Vitals

end EventScript
