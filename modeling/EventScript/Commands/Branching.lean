import EventScript.Commands.Operand

/-!
# Branches and calls
-/

namespace EventScript.Commands

open Act

/-- Goes on where a condition holds, and else to the end of the block. -/
def branchOn (f : Frame) (condition : Bool) : Outcome :=
  .next (if condition then f.pc else f.blockEnd)

/-- Whether a switch stands as asked. -/
def switchHolds (g : Game) (c : Command) : Bool :=
  g.switches.get (c.param 1) = decide (c.param 2 = 0)

/-- Whether a variable compares as asked with a number or another variable. -/
def variableHolds (c : Command) : Act Bool := do
  let g ← getGame
  let right ← operand (c.param 2) (c.param 3)
  return compares (g.vars.get (c.param 1)) right (c.param 4)

/-- Whether a timer has at least, or at most, a number of seconds left. -/
def timerHolds (env : Env) (g : Game) (timer : Nat) (c : Command) : Except Overflow Bool := do
  let limit ← Checked.mul (c.param 1) env.data.config.fps.toInt32
  let frames := (g.party.timer timer).frames
  return if c.param 2 = 0 then limit ≤ frames else frames ≤ limit

/-- Whether the party carries or wears an item, or does not. -/
def itemHolds (g : Game) (c : Command) : Except Overflow Bool := do
  let count ← Checked.add (g.party.held (c.param 1)) (g.wornCount (c.param 1))
  return decide (0 < count) = decide (c.param 2 = 0)

/-- Whether an actor is as asked. -/
def actorHolds (g : Game) (a : Actor) (c : Command) : Bool :=
  match c.mode 2 with
  | 0 => g.party.contains (c.param 1)
  | 1 => a.name = c.text
  | 2 => c.param 3 ≤ a.level
  | 3 => c.param 3 ≤ a.vitals.hp
  | 4 => a.skills.contains (c.param 3)
  | 5 => a.wears (c.param 3)
  | 6 => a.vitals.states.contains (c.param 3)
  | _ => false

def conditionHolds (env : Env) (f : Frame) (c : Command) : Act Bool := do
  let g ← getGame
  match c.mode 0 with
  | 0 => return switchHolds g c
  | 1 => variableHolds c
  | 2 => check (timerHolds env g 0 c)
  | 3 => return if c.param 2 = 0 then c.param 1 ≤ g.party.gold else g.party.gold ≤ c.param 1
  | 4 => check (itemHolds g c)
  | 5 => match g.actors.get? (c.param 1) with
    | some a => return actorHolds g a c
    | none => do
      warn .branchOnUnknownActor
      return false
  | 6 => return match g.field.character? (c.param 1) f.owner with
    | some e => e.direction = c.param 2
    | none => false
  | 7 => return g.field.ridden = some (c.param 1)
  | 8 => return f.byDecision
  | 9 => return env.host.bgmPlayedOnce
  | 10 => check (timerHolds env g 1 c)
  | _ => do
    warn .unsupportedBranch
    return false

/-- Branches on the field. -/
def conditionalBranch (env : Env) (f : Frame) (c : Command) : Act Outcome := do
  return branchOn f (← conditionHolds env f c)

/-- Whether the condition of a branch in a battle holds. -/
def battleConditionHolds (c : Command) : Act Bool := do
  let g ← getGame
  match c.mode 0 with
  | 0 => return switchHolds g c
  | 1 => variableHolds c
  | 2 => match g.actors.get? (c.param 1) with
    | some a => return !a.isFallen
    | none => do
      warn .branchOnUnknownActor
      return false
  | 3 => match g.troop.bind (·.enemy? (c.param 1)) with
    | some e => return e.canAct
    | none => do
      warn .branchOnUnknownEnemy
      return false
  | 4 => return g.troop.bind (·.target) = some (c.param 1)
  | 5 => return g.troop.bind (·.lastCommand) = some (c.param 1, c.param 2)
  | _ => do
    warn .unsupportedBattleBranch
    return false

def battleBranch (f : Frame) (c : Command) : Act Outcome := do
  return branchOn f (← battleConditionHolds c)

def callCommon (env : Env) (f : Frame) (id : Number) : Act Outcome := do
  match env.data.commonEvent? id with
  | some e => return .call e.commands 0
  | none => do
    warn .commonEventNotFound
    return .next f.pc

def callPage (env : Env) (f : Frame) (id page : Number) : Act Outcome := do
  let g ← getGame
  let id := if id = thisEventId then f.owner else id
  match env.data.pageCommands? g.field.id id page with
  | some commands => return .call commands id
  | none => do
    warn .pageNotFound
    return .next f.pc

/-- Calls a common event, or a page of an event of the map that is given by numbers or by
variables. -/
def callEvent (env : Env) (f : Frame) (c : Command) : Act Outcome := do
  let g ← getGame
  match c.mode 0 with
  | 0 => callCommon env f (c.param 1)
  | 1 => callPage env f (c.param 1) (c.param 2)
  | 2 => callPage env f (g.vars.get (c.param 1)) (g.vars.get (c.param 2))
  | _ => do
    warn .unknownCallMode
    return .next f.pc

end EventScript.Commands
