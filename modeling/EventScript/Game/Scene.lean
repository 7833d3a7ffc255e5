import EventScript.Checked

/-!
# Scenes

What the events of the field ask of the player's side: battles, shops, the entry of a name, the
menus and the end of the game. A request is raised here, and whoever runs the scene lowers it and
leaves the outcome.
-/

namespace EventScript

/-- How a battle ends. -/
inductive BattleResult
  | victory
  | escape
  | defeat
  | abort
  deriving DecidableEq, Repr, Inhabited

/-- A battle that is asked for. -/
structure BattleRequest where
  troopId : Number := 0
  /-- 0 takes the terrain of the map, 1 a background by name, 2 a terrain by id. -/
  backgroundMode : Number := 0
  background : String := ""
  terrainId : Number := 0
  /-- 0 forbids to escape, 1 ends the event, 2 runs the section for escaping. -/
  escapeMode : Number := 0
  /-- 0 ends the game, 1 runs the section for defeat. -/
  defeatMode : Number := 0
  firstStrike : Bool := false
  deriving DecidableEq

/-- A shop that is asked for. -/
structure ShopRequest where
  buys : Bool := false
  sells : Bool := false
  kind : Number := 0
  goods : List Number := []
  deriving DecidableEq

/-- The entry of a name that is asked for. -/
structure NameRequest where
  actorId : Number := 0
  charset : Number := 0
  useDefault : Bool := false
  deriving DecidableEq

/-- The requests that are open, and the outcomes of those that are done. -/
structure Scene where
  battleCalling : Bool := false
  shopCalling : Bool := false
  innCalling : Bool := false
  nameCalling : Bool := false
  menuCalling : Bool := false
  saveCalling : Bool := false
  toTitle : Bool := false
  gameOver : Bool := false
  battle : BattleRequest := {}
  shop : ShopRequest := {}
  name : NameRequest := {}
  battleResult : BattleResult := .victory
  shopTransaction : Bool := false
  /-- The common event that runs next, if one is queued. -/
  commonEventId : Option Number := none
  deriving DecidableEq

/-- Whether a request holds up every event. An inn does not: its own event leads it on. -/
def Scene.isBlocking (s : Scene) : Bool :=
  s.battleCalling || s.shopCalling || s.nameCalling || s.menuCalling || s.saveCalling ||
    s.toTitle || s.gameOver

end EventScript
