import EventScript.Command
import EventScript.Config

/-!
# Event databases

What a game is made of and never changes while it runs: limits, words, actors, items, common
events, troops and maps. A record is found by its id, and the first one of an id is the one meant.
-/

namespace EventScript

/-- What starts an event. -/
inductive Trigger
  | action
  | touch
  | collision
  | autoStart
  | parallel
  | call
  deriving DecidableEq, Repr, Inhabited

def Trigger.names : List (String × Trigger) :=
  [("action", .action), ("touch", .touch), ("collision", .collision),
    ("auto_start", .autoStart), ("parallel", .parallel), ("call", .call)]

def Trigger.name : Trigger → String
  | action => "action"
  | touch => "touch"
  | collision => "collision"
  | autoStart => "auto_start"
  | parallel => "parallel"
  | call => "call"

/-- Commands that any event may call. -/
structure CommonEvent where
  id : Number := 0
  name : String := ""
  trigger : Trigger := .action
  switchId : Number := 0
  commands : List Command := []
  deriving DecidableEq

/-- A variable and the least value it must hold. -/
structure VariableCondition where
  id : Number
  least : Number
  deriving DecidableEq

/-- What must hold for a page to show; what is not named holds. -/
structure PageCondition where
  switchA : Option Number := none
  switchB : Option Number := none
  variableLeast : Option VariableCondition := none
  deriving DecidableEq

/-- One face of a map event. -/
structure EventPage where
  condition : PageCondition := {}
  trigger : Trigger := .action
  sprite : String := ""
  direction : Number := 0
  commands : List Command := []
  deriving DecidableEq

/-- An event of a map, with its pages. -/
structure EventData where
  id : Number := 0
  name : String := ""
  x : Number := 0
  y : Number := 0
  pages : List EventPage := []
  deriving DecidableEq

/-- A map with its terrain and its events. -/
structure MapData where
  id : Number := 0
  name : String := ""
  width : Number := 0
  height : Number := 0
  /-- Terrain row by row; a tile past the end of the list has terrain 1. -/
  terrain : List Number := []
  events : List EventData := []
  deriving DecidableEq

/-- The turns `start`, `start + every`, `start + 2 * every` and so on. -/
structure TurnCondition where
  start : Number
  every : Number
  deriving DecidableEq

/-- An enemy of the troop and the range its hit points must lie in, in percent. -/
structure EnemyCondition where
  index : UInt64
  low : Number
  high : Number
  deriving DecidableEq

/-- An actor and the range its hit points must lie in, in percent. -/
structure ActorCondition where
  id : Number
  low : Number
  high : Number
  deriving DecidableEq

/-- What must hold for a page of a troop to run; a page that names nothing never runs. -/
structure TroopCondition extends PageCondition where
  turn : Option TurnCondition := none
  enemyHp : Option EnemyCondition := none
  actorHp : Option ActorCondition := none
  deriving DecidableEq

/-- Commands that run once in a turn of a battle. -/
structure TroopPage where
  condition : TroopCondition := {}
  commands : List Command := []
  deriving DecidableEq

/-- An enemy as it enters a battle. -/
structure EnemyData where
  name : String := ""
  hp : Number := 0
  sp : Number := 0
  hidden : Bool := false
  deriving DecidableEq

/-- Enemies that fight together. -/
structure TroopData where
  id : Number := 0
  name : String := ""
  enemies : List EnemyData := []
  pages : List TroopPage := []
  deriving DecidableEq

/-- An actor as the game begins. -/
structure ActorData where
  id : Number := 0
  name : String := ""
  title : String := ""
  classId : Number := 0
  level : Number := 0
  maxHp : Number := 0
  maxSp : Number := 0
  attack : Number := 0
  defense : Number := 0
  spirit : Number := 0
  agility : Number := 0
  skills : List Number := []
  /-- The items in the slots weapon, shield, armor, helmet and accessory. -/
  equipment : Vector Number 5 := Vector.replicate 5 0
  sprite : String := ""
  spriteIndex : Number := 0
  face : String := ""
  faceIndex : Number := 0
  battleCommands : List Number := []
  deriving DecidableEq

/-- What an item is worn as. -/
inductive ItemKind
  | common
  | weapon
  | shield
  | armor
  | helmet
  | accessory
  deriving DecidableEq, Repr, Inhabited

def ItemKind.names : List (String × ItemKind) :=
  [("common", .common), ("weapon", .weapon), ("shield", .shield), ("armor", .armor),
    ("helmet", .helmet), ("accessory", .accessory)]

def ItemKind.name : ItemKind → String
  | common => "common"
  | weapon => "weapon"
  | shield => "shield"
  | armor => "armor"
  | helmet => "helmet"
  | accessory => "accessory"

/-- The equipment slot of a kind, if its items can be worn. -/
def ItemKind.slot? : ItemKind → Option (Fin 5)
  | common => none
  | weapon => some 0
  | shield => some 1
  | armor => some 2
  | helmet => some 3
  | accessory => some 4

/-- An item with its price. -/
structure ItemData where
  id : Number := 0
  name : String := ""
  kind : ItemKind := .common
  price : Number := 0
  deriving DecidableEq

/-- A tune and how it is played. -/
structure Music where
  name : String := ""
  fadein : Number := 0
  volume : Number := 0
  tempo : Number := 0
  balance : Number := 0
  deriving DecidableEq

/-- A tune played in the usual way. -/
def Music.usual (name : String) : Music :=
  { name, volume := 100, tempo := 100, balance := 50 }

/-- An empty name and the name `(OFF)` stand for silence. -/
def Music.isSilent (m : Music) : Bool := m.name = "" || m.name = "(OFF)"

/-- A sound and how it is played. -/
structure Sound where
  name : String := ""
  volume : Number := 0
  tempo : Number := 0
  balance : Number := 0
  deriving DecidableEq

/-- The title, and the tunes and sounds of the system by slot. -/
structure SystemData where
  title : String := ""
  bgm : List Music := []
  se : List Sound := []
  deriving DecidableEq

/-- The words of the game: its money and what an innkeeper says, for two kinds of inns. -/
structure Terms where
  gold : String := "G"
  innAGreeting1 : String := "A night's stay is"
  innAGreeting2 : String := "."
  innAGreeting3 : String := "Would you like to rest?"
  innAAccept : String := "Stay"
  innACancel : String := "Leave"
  innBGreeting1 : String := "Welcome! It's"
  innBGreeting2 : String := " per night."
  innBGreeting3 : String := "Will you stay?"
  innBAccept : String := "Yes"
  innBCancel : String := "No"
  deriving DecidableEq

/-- Where and with whom the game begins. -/
structure Start where
  mapId : Number := 1
  x : Number := 0
  y : Number := 0
  party : List Number := []
  gold : Number := 0
  deriving DecidableEq

/-- A whole game as it is stored. -/
structure Database where
  config : Config := {}
  terms : Terms := {}
  system : SystemData := {}
  actors : List ActorData := []
  items : List ItemData := []
  commonEvents : List CommonEvent := []
  troops : List TroopData := []
  maps : List MapData := []
  start : Start := {}
  deriving DecidableEq

def MapData.event? (m : MapData) (id : Number) : Option EventData :=
  m.events.find? (·.id = id)

/-- The terrain of a tile; there is none outside the map. -/
def MapData.groundAt (m : MapData) (x y : Number) : Except Overflow Number :=
  if x < 0 ∨ y < 0 ∨ m.width ≤ x ∨ m.height ≤ y then .ok 0
  else do
    let row ← Checked.mul y m.width
    let tile ← Checked.add row x
    return m.terrain.getD tile.toInt.toNat 1

/-- The commands of a page; pages are counted from one. -/
def EventData.page? (e : EventData) (page : Number) : Option EventPage :=
  if page.toInt < 1 then none else e.pages[page.toInt.toNat - 1]?

namespace Database

def commonEvent? (d : Database) (id : Number) : Option CommonEvent :=
  d.commonEvents.find? (·.id = id)

def map? (d : Database) (id : Number) : Option MapData := d.maps.find? (·.id = id)

def troop? (d : Database) (id : Number) : Option TroopData := d.troops.find? (·.id = id)

def actor? (d : Database) (id : Number) : Option ActorData := d.actors.find? (·.id = id)

def item? (d : Database) (id : Number) : Option ItemData := d.items.find? (·.id = id)

def pageCommands? (d : Database) (mapId eventId page : Number) : Option (List Command) := do
  let map ← d.map? mapId
  let event ← map.event? eventId
  let page ← event.page? page
  return page.commands

end Database

end EventScript
