import EventScript.Interpreter.Update

/-!
# Directors

A director owns a game and every interpreter that runs in it, and leads both from tick to tick.

* `Directing` is something done to a director, or a fault.
* Acts and processes are done to the world of the director and leave everything else as it is.
-/

namespace EventScript

/-- A page of a map event that runs beside the others. -/
structure PageRun where
  page : Number := 0
  interpreter : Interpreter := .idle .field 0 false
  deriving DecidableEq

/-- A game with its interpreters. -/
structure Director where
  data : Database
  host : Host := {}
  world : World
  /-- Runs the events that the player starts and those that start by themselves. -/
  root : Interpreter := .idle .field 0 true
  /-- Run the common events that run beside the others. -/
  common : IdMap Interpreter := ∅
  /-- Run the map events that run beside the others. -/
  parallel : IdMap PageRun := ∅
  /-- Runs the pages of the troop. -/
  battle : Interpreter := .idle .battle 0 false
  /-- Which pages of the troop have run in this turn. -/
  pagesRun : List Bool := []

/-- The most events that may call each other. A longer chain is taken for one without an end. -/
def Director.levels : Nat := 1000000

/-- Something done to a director. -/
abbrev Directing := StateT Director (Except Fault)

namespace Directing

def ofProcess {α : Type} (p : Process α) : Directing α := fun d =>
  match p d.world with
  | .ok (r, world) => .ok (r, { d with world })
  | .error e => .error e

instance : MonadLift Process Directing := ⟨ofProcess⟩

end Directing

namespace Director

def ofGame (data : Database) (game : Game) : Director := { data, world := { game } }

def begin (data : Database) (random : Random) : Director := ofGame data (Game.begin data random)

def game (d : Director) : Game := d.world.game

/-- What the acts see. -/
def env (d : Director) : Env := { data := d.data, host := d.host }

def update (i : Interpreter) : Directing Interpreter := do
  let d ← get
  i.update d.env levels

/-- Starts an interpreter over with a list of commands on the map. -/
def start (i : Interpreter) (commands : List Command) (owner : Number) :
    Directing Interpreter := do
  let g ← Act.getGame
  Act.check (i.start commands owner g.field.id)

/-- One tick of everything that moves by itself. -/
def tickWorld : Directing Unit := do
  let d ← get
  Act.tick d.data

end Director

end EventScript
