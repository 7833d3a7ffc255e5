import EventScript.Director.Battle
import EventScript.Director.Field
import EventScript.Director.Requests

/-!
# Leading a game on

`Director.lead` runs ticks until something has to be answered, until nothing is left to run, or
until the ticks it was given are used up.
-/

namespace EventScript

/-- Why a director stopped. -/
inductive Stop
  /-- The ticks are used up. -/
  | running
  /-- Nothing runs and nothing is about to start. -/
  | idle
  /-- The message window has to be read or answered. -/
  | message
  | shop
  /-- A battle is asked for and has not begun. -/
  | battle
  /-- Every page of the troop that may run in this turn has run. -/
  | battleTurn
  | enterName
  | menu
  | save
  | title
  | gameOver
  deriving DecidableEq, Repr

/-- The first request of a scene that has to be answered before the field goes on. -/
def Scene.request? (s : Scene) : Option Stop :=
  if s.gameOver then some .gameOver
  else if s.toTitle then some .title
  else if s.battleCalling then some .battle
  else if s.shopCalling then some .shop
  else if s.nameCalling then some .enterName
  else if s.menuCalling then some .menu
  else if s.saveCalling then some .save
  else none

namespace Director

open Act

/-- Whether nothing runs and nothing is about to start. -/
def isAtRest (d : Director) : Bool :=
  !d.root.isRunning && !d.game.message.waiting && !d.game.scene.isBlocking &&
    d.game.scene.commonEventId.isNone && d.game.field.dueEvent?.isNone &&
    !d.game.field.anyMoving

/-- One tick, on the field or in a battle, unless there is a reason to stop before it or after
it. -/
def advance : Directing (Option Stop) := do
  let g ← getGame
  if g.message.waiting then return some .message
  if g.troop.isSome then return if ← battleTick then none else some .battleTurn
  match g.scene.request? with
  | some stop => return some stop
  | none => do
    fieldTick
    return if (← get).isAtRest then some .idle else none

/-- Runs up to a number of ticks and tells why it stopped. -/
def lead : Nat → Directing Stop
  | 0 => do
    let g ← getGame
    return if g.message.waiting then .message else .running
  | n + 1 => do
    match ← advance with
    | some stop => return stop
    | none => lead n

end Director

end EventScript
