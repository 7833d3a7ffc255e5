import EventScript.Database.Basic
import EventScript.Game.Route
import EventScript.Game.Screen

/-!
# Characters

Whatever stands on the field: the player, the vehicles and the events of the map.

* `Character.dueStep` takes the step of a forced route that is due.
* `Character.perform` carries a step out.
-/

namespace EventScript

/-! ## Directions -/

/-- The direction up. -/
def up : Number := 0

/-- The direction right. -/
def right : Number := 1

/-- The direction down. -/
def down : Number := 2

/-- The direction left. -/
def left : Number := 3

/-- How far one step in a direction leads; other numbers lead nowhere. -/
def offset (direction : Number) : Number × Number :=
  match direction.toInt with
  | 0 => (0, -1)
  | 1 => (1, 0)
  | 2 => (0, 1)
  | 3 => (-1, 0)
  | _ => (0, 0)

/-- The direction a number of quarters after another. -/
def turned (direction : Number) (quarters : Number) : Except Overflow Number := do
  return Number.remainder (← Checked.add direction quarters) 4

def opposite (direction : Number) : Except Overflow Number := turned direction 2

/-! ## Characters -/

/-- The ticks that a waiting step takes besides its own. -/
def routePause : Nat := 20

/-- Someone or something on the field. -/
structure Character where
  id : Number := 0
  x : Number := 0
  y : Number := 0
  direction : Number := 0
  directionFixed : Bool := false
  transparent : Bool := false
  through : Bool := false
  /-- An event that was erased is not active until the map is set up again. -/
  active : Bool := false
  locked : Bool := false
  starting : Bool := false
  /-- The page that shows, counted from one; zero if there is none. -/
  page : Number := 0
  trigger : Trigger := .action
  sprite : String := ""
  spriteIndex : Number := 0
  speed : Number := 0
  frequency : Number := 0
  flash : Option Flash := none
  route : Option Route := none
  /-- The step of the route that comes next. -/
  routeIndex : Nat := 0
  /-- The ticks to wait before it. -/
  routeWait : Nat := 0
  deriving DecidableEq

namespace Character

/-- A character on its place, facing down. -/
def standing (id x y : Number) : Character :=
  { id, x, y, direction := down, active := true, speed := 4, frequency := 3 }

/-- Forces a route on the character; an empty one takes the old route away. -/
def forceRoute (c : Character) (route : Route) (frequency : Number) : Character :=
  { c with
    frequency
    routeIndex := 0
    routeWait := 0
    route := if route.commands = [] then none else some route }

/-- Takes the forced route away. -/
def dropRoute (c : Character) : Character :=
  { c with route := none, routeIndex := 0, routeWait := 0 }

/-- Whether a forced route still has to end; one that repeats never does. -/
def isDriven (c : Character) : Bool :=
  match c.route with
  | some r => !r.repeats
  | none => false

/-- Takes the next step of the forced route, if one is due at this tick. -/
def dueStep (c : Character) : Option RouteStep × Character :=
  if 0 < c.routeWait then (none, { c with routeWait := c.routeWait - 1 })
  else match c.route with
    | none => (none, c)
    | some r =>
      let step := r.commands[c.routeIndex]?
      if c.routeIndex + 1 < r.commands.length then
        (step, { c with routeIndex := c.routeIndex + 1 })
      else if r.repeats then (step, { c with routeIndex := 0 })
      else (step, { c with route := none, routeIndex := 0 })

/-- Turns the character, unless it does not turn or the number is no direction. -/
def face (c : Character) (direction : Number) : Character :=
  if !c.directionFixed && up ≤ direction && direction ≤ left then { c with direction } else c

/-- Moves the character by a distance. -/
def shift (c : Character) (dx dy : Number) : Except Overflow Character := do
  let x ← Checked.add c.x dx
  let y ← Checked.add c.y dy
  return { c with x, y }

/-- One step in a direction, facing there. -/
def walk (c : Character) (direction : Number) : Except Overflow Character :=
  (c.face direction).shift (offset direction).1 (offset direction).2

/-- One step between two directions, facing the horizontal one. -/
def walkDiagonally (c : Character) (horizontal vertical : Number) :
    Except Overflow Character := do
  let c ← c.shift (offset horizontal).1 (offset vertical).2
  return c.face horizontal

/-- The direction that leads to a tile along the longer way. -/
def directionTo (c : Character) (x y : Number) : Except Overflow Number := do
  let dx ← Checked.sub x c.x
  let dy ← Checked.sub y c.y
  let width ← Checked.abs dx
  let height ← Checked.abs dy
  return if height < width then (if 0 < dx then right else left)
    else if 0 < dy then down else up

/-- The direction that leads away from a tile. -/
def directionFrom (c : Character) (x y : Number) : Except Overflow Number := do
  opposite (← c.directionTo x y)

/-- Carries a step out. `player` is where the player stands and `random` a direction drawn by
chance. Steps that concern more than the character change nothing here. -/
def perform (c : Character) (m : RouteStep) (player : Number × Number) (random : Number) :
    Except Overflow Character :=
  match m.code.toInt with
  | 0 | 1 | 2 | 3 => c.walk m.code
  | 4 => c.walkDiagonally right up
  | 5 => c.walkDiagonally right down
  | 6 => c.walkDiagonally left down
  | 7 => c.walkDiagonally left up
  | 8 => c.walk random
  | 9 => do c.walk (← c.directionTo player.1 player.2)
  | 10 => do c.walk (← c.directionFrom player.1 player.2)
  | 11 => c.walk c.direction
  | 12 => .ok (c.face up)
  | 13 => .ok (c.face right)
  | 14 => .ok (c.face down)
  | 15 => .ok (c.face left)
  | 16 => do return c.face (← turned c.direction 1)
  | 17 => do return c.face (← turned c.direction 3)
  | 18 => do return c.face (← opposite c.direction)
  | 19 => do return c.face (← turned c.direction (if Number.remainder random 2 = 0 then 1 else 3))
  | 20 => .ok (c.face random)
  | 21 => do return c.face (← c.directionTo player.1 player.2)
  | 22 => do return c.face (← c.directionFrom player.1 player.2)
  | 23 => .ok { c with routeWait := routePause }
  | 26 => .ok { c with directionFixed := true }
  | 27 => .ok { c with directionFixed := false }
  | 28 => do return { c with speed := min (← Checked.add c.speed 1) 6 }
  | 29 => do return { c with speed := max (← Checked.sub c.speed 1) 1 }
  | 30 => do return { c with frequency := min (← Checked.add c.frequency 1) 8 }
  | 31 => do return { c with frequency := max (← Checked.sub c.frequency 1) 1 }
  | 34 => .ok { c with sprite := m.text, spriteIndex := m.a }
  | 36 => .ok { c with through := true }
  | 37 => .ok { c with through := false }
  | 40 => .ok { c with transparent := true }
  | 41 => .ok { c with transparent := false }
  | _ => .ok c

end Character

end EventScript
