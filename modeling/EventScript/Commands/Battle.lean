import EventScript.Commands.Presentation
import EventScript.Commands.Scenes

/-!
# Commands of a battle
-/

namespace EventScript.Commands

open Act

/-- Changes an enemy of a troop by a checked computation, if there is one with the number. -/
def changeEnemy (t : Troop) (index : Number) (f : Enemy → Except Overflow Enemy) : Act Troop := do
  match t.enemy? index with
  | some e => return t.setEnemy index (← check (f e))
  | none => do
    warn .invalidEnemy
    return t

/-- Runs a change of the troop, where there is a battle. -/
def inBattle (f : Frame) (op : BattleOp) (change : Game → Troop → Act Troop) : Act Outcome := do
  let g ← getGame
  match g.troop with
  | none => warn (.outsideBattle op)
  | some t => do
    let t ← change g t
    modifyGame fun g => { g with troop := some t }
  return .next f.pc

/-- Lets the party, every enemy that can act, or one enemy run away. -/
def forceFlee (c : Command) (t : Troop) : Act Troop := do
  match c.mode 0 with
  | 0 => return { t with partyFled := true }
  | 1 => return { t with enemies := t.enemies.map fun e => if e.canAct then e.flee else e }
  | 2 => changeEnemy t (c.param 1) fun e => .ok e.flee
  | _ => do
    warn .unknownFleeMode
    return t

/-- The change of an enemy's hit points: a number, a variable, or a percentage of what it has. -/
def hpChange (g : Game) (c : Command) (e : Enemy) : Except Overflow Number :=
  match c.mode 2 with
  | 0 => .ok (c.param 3)
  | 1 => .ok (g.vars.get (c.param 3))
  | _ => do return Number.quotient (← Checked.mul (c.param 3) e.vitals.hp) 100

/-- Changes the hit points of an enemy that stands. -/
def changeEnemyHp (g : Game) (c : Command) (t : Troop) : Act Troop :=
  changeEnemy t (c.param 0) fun e =>
    if e.isFallen then .ok e
    else do
      let change ← hpChange g c e
      let change ← if c.flag 1 then Checked.neg change else pure change
      return { e with vitals := ← e.vitals.changeHp change (c.flag 4) }

def changeEnemySp (g : Game) (c : Command) (t : Troop) : Act Troop := do
  let change := if c.param 2 = 0 then c.param 3 else g.vars.get (c.param 3)
  let change ← if c.flag 1 then check (Checked.neg change) else pure change
  changeEnemy t (c.param 0) fun e => do
    return { e with vitals := ← e.vitals.changeSp change }

/-- Adds a state to an enemy or takes it away. -/
def changeEnemyCondition (c : Command) (t : Troop) : Act Troop :=
  changeEnemy t (c.param 0) fun e => .ok { e with
    vitals := if c.flag 1 then e.vitals.relieve (c.param 2) else e.vitals.afflict (c.param 2) }

/-- Ends the battle and hands over the tick. -/
def terminateBattle (f : Frame) : Act Outcome := do
  let g ← getGame
  match g.troop with
  | none => do
    warn (.outsideBattle .terminateBattle)
    return .next f.pc
  | some t => do
    setGame { g with
      troop := some { t with terminated := true }
      scene := { g.scene with battleResult := .abort } }
    return .rest f.pc

/-- Lets an actor of the party repeat a battle command. -/
def enableCombo (f : Frame) (c : Command) : Act Outcome := do
  let g ← getGame
  if g.party.contains (c.param 0) then
    changeActor (c.param 0) fun a => .ok { a with combo := some (c.param 1, c.param 2) }
  return .next f.pc

/-- Plays an animation on an enemy or on all of them. -/
def showAnimation (env : Env) (f : Frame) (c : Command) : Act Outcome :=
  playAnimation env f (c.flag 2) do
    let played : PlayedAnimation := { id := c.param 0, index := Number.index? (c.param 1) }
    modifyGame fun g => { g with
      troop := g.troop.map fun t => { t with animations := t.animations ++ [played] } }
    emit (.battleAnimation (c.param 0) (c.param 1) (c.param 1 < 0))

end EventScript.Commands
