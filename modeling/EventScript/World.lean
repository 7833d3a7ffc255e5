import EventScript.Game.State
import EventScript.Host
import EventScript.Warning

/-!
# Acting on the world

What an event does, it does to a `World`: the game, the effects handed to the host so far, and the
warnings given so far. An `Act` does something to the world and gives a result, or ends in an
overflow.

* `Act.getGame`, `Act.setGame`, `Act.emit` and `Act.warn` are the only ways to touch the world;
  everything else is made of them.
-/

namespace EventScript

/-- The game, and what came out of it. -/
structure World where
  game : Game
  effects : Array Effect := #[]
  warnings : Array Warning := #[]

/-- What an act sees besides the world. -/
structure Env where
  data : Database
  host : Host

/-- Something done to the world. -/
abbrev Act := StateT World (Except Overflow)

namespace Act

def getGame : Act Game := fun w => .ok (w.game, w)

/-- Replaces the game. -/
def setGame (g : Game) : Act Unit := fun w => .ok ((), { w with game := g })

/-- Changes the game. -/
def modifyGame (f : Game → Game) : Act Unit := fun w => .ok ((), { w with game := f w.game })

/-- Hands an effect to the host. -/
def emit (e : Effect) : Act Unit := fun w => .ok ((), { w with effects := w.effects.push e })

/-- Gives a warning. -/
def warn (m : Warning) : Act Unit := fun w => .ok ((), { w with warnings := w.warnings.push m })

/-- A checked computation. -/
def check {α : Type} (x : Except Overflow α) : Act α := fun w => x.map (·, w)

/-! ## Switches and variables -/

/-- Turns a switch on or off. -/
def setSwitch (id : Number) (value : Bool) : Act Unit := do
  if id.toInt ≤ 0 then warn .invalidSwitch
  modifyGame fun g => { g with switches := g.switches.set id value }

/-- Warns once for every id of a range that is not positive. -/
def warnBetween (m : Warning) (first last : Number) : Act Unit :=
  (idsBetween first (min last 0)).forM fun _ => warn m

/-- Turns a range of switches on or off. -/
def setSwitches (first last : Number) (value : Bool) : Act Unit := do
  warnBetween .invalidSwitch first last
  modifyGame fun g => { g with switches := g.switches.setBetween first last value }

/-- Turns a range of switches over. -/
def toggleSwitches (first last : Number) : Act Unit := do
  warnBetween .invalidSwitch first last
  modifyGame fun g => { g with switches := g.switches.toggleBetween first last }

/-- Writes a number to a variable, brought between the bounds. -/
def setVariable (id value : Number) : Act Unit := do
  if id.toInt ≤ 0 then warn .invalidVariable
  modifyGame fun g => { g with vars := g.vars.set id value }

/-- Combines a variable with an operand. -/
def combineVariable (op : VariableOp) (operand id : Number) : Act Unit := do
  if op.hasResult operand && id.toInt ≤ 0 then warn .invalidVariable
  let g ← getGame
  let vars ← check (g.vars.combine id op operand)
  setGame { g with vars }

/-- Combines a range of variables with an operand. -/
def combineVariables (first last : Number) (op : VariableOp) (operand : Number) : Act Unit := do
  if op.hasResult operand then warnBetween .invalidVariable first last
  let g ← getGame
  let vars ← check (g.vars.combineBetween first last op operand)
  setGame { g with vars }

/-- Asks for the pages of the map to be looked at again. -/
def needRefresh : Act Unit :=
  modifyGame fun g => { g with field := { g.field with needRefresh := true } }

/-! ## The party -/

/-- Adds gold to the party. -/
def giveGold (amount : Number) : Act Unit :=
  modifyGame fun g => { g with party := g.party.giveGold amount }

/-- Adds an item to the party a number of times. -/
def giveItem (id amount : Number) : Act Unit := do
  if id.toInt ≤ 0 then warn .invalidItem
  let g ← getGame
  let party ← check (g.party.giveItem id amount)
  setGame { g with party }

/-- Changes an actor by a checked computation, if there is one under the id. -/
def changeActor (id : Number) (f : Actor → Except Overflow Actor) : Act Unit := do
  let g ← getGame
  match g.actors.get? id with
  | some a => do
    let a ← check (f a)
    setGame { g with actors := g.actors.insert id a }
  | none => pure ()

/-- Draws a number from `a` to `b`. -/
def draw (a b : Number) : Act Number := do
  let g ← getGame
  let (value, random) := g.random.between a b
  setGame { g with random }
  return value

/-! ## Maps -/

/-- Shows the right page of every event of the map. -/
def showPages (d : Database) : Act Unit := modifyGame (·.showPages d)

/-- Goes to a map. -/
def enterMap (d : Database) (id : Number) : Act Unit := do
  if (d.map? id).isNone then warn .unknownMap
  modifyGame (·.enterMap d id)

/-! ## Values that events read -/

/-- A value of an actor. -/
def readActor (id which : Number) : Act Number := do
  let g ← getGame
  match g.actors.get? id with
  | none => do
    warn .badActor
    return 0
  | some a => match which.toInt with
    | 0 => return a.level
    | 1 => return a.exp
    | 2 => return a.vitals.hp
    | 3 => return a.vitals.sp
    | 4 => return a.vitals.maxHp
    | 5 => return a.vitals.maxSp
    | 6 => return a.attack
    | 7 => return a.defense
    | 8 => return a.spirit
    | 9 => return a.agility
    | 10 => return a.slotItem 0
    | 11 => return a.slotItem 1
    | 12 => return a.slotItem 2
    | 13 => return a.slotItem 3
    | 14 => return a.slotItem 4
    | _ => do
      warn .unknownActorAttribute
      return 0

/-- The map on which the player or a vehicle is. -/
def mapOf (f : Field) (id : Number) : Number :=
  match CharacterRef.ofId id 0 with
  | .player => f.id
  | .vehicle kind => (f.vehicles.get kind).mapId
  | .event _ => 0

/-- The number of a direction on a keypad; whatever is no other direction counts as left. -/
def keypad (direction : Number) : Number :=
  if direction = up then 8
  else if direction = right then 6
  else if direction = down then 2
  else 4

/-- A value of a character; `self` is the event that asks. -/
def readCharacter (id self which : Number) : Act Number := do
  let g ← getGame
  match g.field.character? id self with
  | none => do
    warn .badCharacter
    return 0
  | some c => match which.toInt with
    | 0 => return mapOf g.field id
    | 1 => return c.x
    | 2 => return c.y
    | 3 => return keypad c.direction
    | 4 => do
      let pixels ← check (Checked.mul c.x 16)
      check (Checked.add pixels 8)
    | 5 => do
      let pixels ← check (Checked.mul c.y 16)
      check (Checked.add pixels 16)
    | _ => do
      warn .unknownCharacterAttribute
      return 0

/-- What is counted for the party. -/
def counter (fps : UInt32) (which : Number) : Act Number := do
  let g ← getGame
  match which.toInt with
  | 0 => return g.party.gold
  | 1 => check ((g.party.timer 0).secondsLeft fps)
  | 2 => return Int32.ofNat g.party.members.length
  | 3 => return g.party.saveCount
  | 4 => return g.party.battleCount
  | 5 => return g.party.victoryCount
  | 6 => return g.party.defeatCount
  | 7 => return g.party.escapeCount
  | 8 => return 0
  | 9 => check ((g.party.timer 1).secondsLeft fps)
  | _ => do
    warn .unknownCounter
    return 0

/-! ## Time -/

/-- Carries out a step of a forced route for the character with an id. -/
def carryOut (id : Number) (player : Number × Number) (random : Number) (m : RouteStep) :
    Act Unit :=
  match m.code.toInt with
  | 32 => do
    setSwitch m.a true
    needRefresh
  | 33 => do
    setSwitch m.a false
    needRefresh
  | 35 => emit (.playSe { name := m.text, volume := m.a, tempo := m.b, balance := m.c })
  | _ => do
    let g ← getGame
    match g.field.character? id 0 with
    | some c => do
      let c ← check (c.perform m player random)
      setGame { g with field := g.field.setCharacter id 0 c }
    | none => pure ()

/-- One tick of the forced route of the character with an id. -/
def stepRoute (id : Number) : Act Unit := do
  let random ← draw up left
  let g ← getGame
  let player := (g.field.player.x, g.field.player.y)
  match g.field.character? id 0 with
  | some c => do
    let (step, c) := c.dueStep
    setGame { g with field := g.field.setCharacter id 0 c }
    match step with
    | some m => carryOut id player random m
    | none => pure ()
  | none => pure ()

/-- One tick of everything that moves by itself. -/
def tick (d : Database) : Act Unit := do
  modifyGame fun g => { g with frames := g.frames + 1 }
  let g ← getGame
  (playerId :: boatId :: shipId :: airshipId :: g.field.events.keys).forM stepRoute
  modifyGame fun g => { g with party := g.party.countDown, screen := g.screen.tick }
  let g ← getGame
  if g.field.needRefresh then showPages d
  modifyGame fun g => { g with field := g.field.startAutomatic }

end Act

end EventScript
