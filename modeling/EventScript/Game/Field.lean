import EventScript.Game.Character
import EventScript.IdMap

/-!
# The field

The map on which the party is, as it is at the moment, with everyone on it.
-/

namespace EventScript

def playerId : Number := 10001

/-- The character id of the first vehicle. -/
def boatId : Number := 10002

/-- The character id of the second vehicle. -/
def shipId : Number := 10003

/-- The character id of the last vehicle. -/
def airshipId : Number := 10004

/-- The character id by which an event means itself. -/
def thisEventId : Number := 10005

/-- A vehicle and the map on which it is. -/
structure Vehicle where
  mapId : Number := 0
  character : Character := {}
  inUse : Bool := false
  deriving DecidableEq

/-- A move to a place that is reserved for the end of the tick. -/
structure Teleport where
  mapId : Number
  x : Number
  y : Number
  /-- A negative direction keeps the one the player faces. -/
  direction : Number
  deriving DecidableEq

/-- How far the view is moved away from the player. -/
structure Pan where
  x : Number := 0
  y : Number := 0
  locked : Bool := false
  speed : Number := 0
  deriving DecidableEq

/-- The picture behind the map. -/
structure Panorama where
  name : String
  horizontalScroll : Bool
  verticalScroll : Bool
  horizontalSpeed : Number
  verticalSpeed : Number
  deriving DecidableEq

/-- A tile that is shown instead of another. -/
structure TileSubstitution where
  lower : Bool
  old : Number
  new : Number
  deriving DecidableEq

/-- The live state of a map. -/
structure Field where
  id : Number := 0
  width : Number := 0
  height : Number := 0
  player : Character := {}
  events : IdMap Character := ∅
  vehicles : Vector Vehicle 3 := Vector.replicate 3 {}
  chipsetId : Number := 0
  encounterRate : Number := 0
  panorama : Option Panorama := none
  substitutions : List TileSubstitution := []
  pan : Pan := {}
  needRefresh : Bool := false
  teleport : Option Teleport := none
  deriving DecidableEq

/-- What a character id stands for. -/
inductive CharacterRef
  | player
  | vehicle (kind : Fin 3)
  | event (id : Number)
  deriving DecidableEq

/-- Resolves a character id; `self` is the event that speaks. -/
def CharacterRef.ofId (id self : Number) : CharacterRef :=
  match id.toInt with
  | 10001 => .player
  | 10002 => .vehicle 0
  | 10003 => .vehicle 1
  | 10004 => .vehicle 2
  | 10005 => .event self
  | _ => .event id

namespace Field

/-- Sets up the events of a map; the player and the vehicles stay. -/
def enter (f : Field) (m : MapData) : Field :=
  { f with
    id := m.id
    width := m.width
    height := m.height
    events := IdMap.ofList (m.events.map fun e => (e.id, Character.standing e.id e.x e.y))
    substitutions := []
    panorama := none
    pan := {}
    needRefresh := true }

/-- An empty map under an id; the player and the vehicles stay. -/
def enterUnknown (f : Field) (id : Number) : Field :=
  { id, player := f.player, vehicles := f.vehicles }

def character? (f : Field) (id self : Number) : Option Character :=
  match CharacterRef.ofId id self with
  | .player => some f.player
  | .vehicle kind => some (f.vehicles.get kind).character
  | .event id => f.events.get? id

/-- Replaces the character with an id, if there is one. -/
def setCharacter (f : Field) (id self : Number) (c : Character) : Field :=
  match CharacterRef.ofId id self with
  | .player => { f with player := c }
  | .vehicle kind =>
    { f with vehicles := f.vehicles.set kind { f.vehicles.get kind with character := c } }
  | .event id => { f with events := f.events.modify id fun _ => c }

def vehicle? (f : Field) (kind : Number) : Option Vehicle :=
  (Number.index? kind).bind fun k => f.vehicles[k]?

/-- Replaces the vehicle with a number, if there is one. -/
def setVehicle (f : Field) (kind : Number) (v : Vehicle) : Field :=
  match Number.index? kind with
  | some k => { f with vehicles := f.vehicles.setIfInBounds k v }
  | none => f

/-- The number of the vehicle that the player rides. -/
def ridden (f : Field) : Option Number :=
  (f.vehicles.toList.findIdx? (·.inUse)).map Int32.ofNat

/-- Whether someone has a forced route that still has to end. -/
def anyMoving (f : Field) : Bool :=
  f.player.isDriven || f.vehicles.toList.any (·.character.isDriven) ||
    f.events.values.any (·.isDriven)

/-- Takes all forced routes away. -/
def haltAll (f : Field) : Field :=
  { f with
    player := f.player.dropRoute
    vehicles := f.vehicles.map fun v => { v with character := v.character.dropRoute }
    events := f.events.map Character.dropRoute }

/-- The lowest id of an active event on a tile, or zero. -/
def eventOn (f : Field) (x y : Number) : Number :=
  match f.events.values.find? fun e => e.active && e.x = x && e.y = y with
  | some e => e.id
  | none => 0

/-- Whether an event can be started: it is there, shows a page and does not run. -/
def canStart (f : Field) (id : Number) : Bool :=
  match f.events.get? id with
  | some e => e.active && 0 < e.page && !e.locked
  | none => false

/-- Starts an event that can be started. -/
def setOff (f : Field) (id : Number) : Field :=
  if f.canStart id then
    { f with events := f.events.modify id fun e => { e with starting := true } }
  else f

/-- The lowest id of an event that is to start. -/
def dueEvent? (f : Field) : Option Number :=
  (f.events.values.find? fun e => e.starting && e.active).map (·.id)

/-- The events that run beside the others, by id. -/
def parallelIds (f : Field) : List Number :=
  (f.events.values.filter fun e => e.active && 0 < e.page && e.trigger = .parallel).map (·.id)

/-- Starts the events that start by themselves. -/
def startAutomatic (f : Field) : Field :=
  { f with
    events := f.events.map fun e =>
      if e.active && 0 < e.page && !e.locked && e.trigger = .autoStart then
        { e with starting := true }
      else e }

def release (f : Field) (id : Number) : Field :=
  { f with events := f.events.modify id fun e => { e with locked := false } }

end Field

end EventScript
