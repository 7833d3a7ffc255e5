import EventScript.Interpreter.Frame
import EventScript.World

/-!
# Operands

How commands name the values, the places and the actors they work with.
-/

namespace EventScript.Commands

open Act

/-- In mode zero the number itself, in any other mode the variable it names. -/
def operand (mode value : Number) : Act Number := do
  if mode = 0 then return value
  let g ← getGame
  return g.vars.get value

/-- An operand, taken away in mode one. -/
def signedOperand (op mode value : Number) : Act Number := do
  let value ← operand mode value
  if op = 1 then check (Checked.neg value) else return value

/-- An operand, taken away where a flag is set. -/
def amount (negative : Bool) (mode value : Number) : Act Number := do
  let value ← operand mode value
  if negative then check (Checked.neg value) else return value

/-- The actors that a command works on: in mode 0 the party, in mode 1 the actor with an id, in
mode 2 the actor whose id a variable holds. -/
def selectActors (mode value : Number) : Act (List Number) := do
  let g ← getGame
  let one (id : Number) : Act (List Number) := do
    if (g.actors.get? id).isNone then
      warn .actorNotFound
      return []
    return [id]
  match mode.toInt with
  | 0 => return g.party.members
  | 1 => one value
  | 2 => one (g.vars.get value)
  | _ => do
    warn .unknownActorSelection
    return []

/-- Changes every actor of a selection that there is. -/
def changeActors (mode value : Number) (f : Actor → Except Overflow Actor) : Act Unit := do
  (← selectActors mode value).forM fun id => changeActor id f

/-- Compares two values: equal, at least, at most, more, less, different. -/
def compares (left right op : Number) : Bool :=
  match op.toInt with
  | 0 => left = right
  | 1 => right ≤ left
  | 2 => left ≤ right
  | 3 => right < left
  | 4 => left < right
  | 5 => left ≠ right
  | _ => false

/-- Ends the game when nobody in the party stands. In a battle the battle decides. -/
def endIfFallen : Act Unit :=
  modifyGame fun g =>
    if g.troop.isNone && g.partyFallen then { g with scene := { g.scene with gameOver := true } }
    else g

end EventScript.Commands
