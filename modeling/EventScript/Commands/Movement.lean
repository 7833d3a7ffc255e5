import EventScript.Commands.Presentation

/-!
# Commands of the field

Places, vehicles, characters and their routes, and the look of the map.
-/

namespace EventScript.Commands

open Act

/-- Changes the field. -/
def modifyField (f : Field → Field) : Act Unit :=
  modifyGame fun g => { g with field := f g.field }

/-! ## Places -/

/-- Reserves a move of the player to a place for the end of the tick, when nothing else is under
way. Who looks for events hands over the tick, so that no command runs before the move. -/
def planTeleport (env : Env) (f : Frame) (t : Teleport) : Act Outcome := do
  let g ← getGame
  if g.field.teleport.isSome || g.message.visible || env.host.transitionPending then return .retry
  modifyField fun d => { d with teleport := some t }
  return if f.isRoot then .rest f.pc else .next f.pc

/-- Moves the player to a place. -/
def teleport (env : Env) (f : Frame) (c : Command) : Act Outcome := do
  let direction ← if 3 < c.params.length then check (Checked.sub (c.param 3) 1) else pure (-1)
  planTeleport env f { mapId := c.param 0, x := c.param 1, y := c.param 2, direction }

/-- Keeps the place of the player in three variables. -/
def memorizeLocation (f : Frame) (c : Command) : Act Outcome := do
  let g ← getGame
  setVariable (c.param 0) g.field.id
  setVariable (c.param 1) g.field.player.x
  setVariable (c.param 2) g.field.player.y
  needRefresh
  return .next f.pc

/-- Moves the player to a place kept in three variables; on the same map at once. -/
def recallLocation (env : Env) (f : Frame) (c : Command) : Act Outcome := do
  let g ← getGame
  let mapId := g.vars.get (c.param 0)
  let x := g.vars.get (c.param 1)
  let y := g.vars.get (c.param 2)
  if mapId = g.field.id then
    modifyField fun d => { d with player := { d.player with x, y } }
    return .next f.pc
  planTeleport env f { mapId, x, y, direction := -1 }

/-- Changes the places known for the teleport spell. -/
def changeTeleportTargets (f : Frame) (c : Command) : Act Outcome := do
  let mapId := c.param 1
  modifyGame fun g => { g with
    targets := { g.targets with
      teleport :=
        if c.flag 0 then g.targets.teleport.erase mapId
        else g.targets.teleport.insert mapId {
          mapId, x := c.param 2, y := c.param 3
          switchId := if c.flag 4 then some (c.param 5) else none } } }
  return .next f.pc

/-- Changes the place known for the escape spell. -/
def changeEscapeTarget (f : Frame) (c : Command) : Act Outcome := do
  modifyGame fun g => { g with
    targets := { g.targets with
      escape := some {
        mapId := c.param 0, x := c.param 1, y := c.param 2
        switchId := if c.flag 3 then some (c.param 4) else none } } }
  return .next f.pc

/-! ## Vehicles -/

/-- Gets off the vehicle in use, or on one that is under or right before the player. -/
def enterExitVehicle (f : Frame) : Act Outcome := do
  let g ← getGame
  let player := g.field.player
  match g.field.ridden with
  | some kind => do
    match g.field.vehicle? kind with
    | none => pure ()
    | some v =>
      let character := { v.character with x := player.x, y := player.y }
      modifyField fun d => d.setVehicle kind { v with inUse := false, character }
    modifyField fun d => { d with player := { d.player with transparent := false } }
    return .next f.pc
  | none => do
    let ahead ← check (player.walk player.direction)
    let near (v : Vehicle) : Bool :=
      v.mapId = g.field.id &&
        ((v.character.x = player.x && v.character.y = player.y) ||
          (v.character.x = ahead.x && v.character.y = ahead.y))
    match g.field.vehicles.toList.findIdx? near with
    | none => return .next f.pc
    | some i => match g.field.vehicles[i]? with
      | none => return .next f.pc
      | some v => do
        modifyField fun d => { d with
          vehicles := d.vehicles.setIfInBounds i { v with inUse := true }
          player := { d.player with
            x := v.character.x, y := v.character.y, transparent := true } }
        return .next f.pc

/-- Puts a vehicle on a place. -/
def setVehicleLocation (f : Frame) (c : Command) : Act Outcome := do
  let mapId ← operand (c.param 1) (c.param 2)
  let x ← operand (c.param 1) (c.param 3)
  let y ← operand (c.param 1) (c.param 4)
  let g ← getGame
  match g.field.vehicle? (c.param 0) with
  | none => warn .unknownVehicle
  | some v =>
    let vehicle := { v with mapId, character := { v.character with x, y } }
    modifyField fun d => d.setVehicle (c.param 0) vehicle
  return .next f.pc

/-! ## Characters -/

/-- Puts a character on a place of the map, and turns it where a direction is given. -/
def changeEventLocation (f : Frame) (c : Command) : Act Outcome := do
  let x ← operand (c.param 1) (c.param 2)
  let y ← operand (c.param 1) (c.param 3)
  let g ← getGame
  match g.field.character? (c.param 0) f.owner with
  | none => warn .characterNotFound
  | some e => do
    let e := { e with x, y }
    let e ← if 0 < c.param 4 then do
        pure (e.face (← check (Checked.sub (c.param 4) 1)))
      else pure e
    modifyField fun d => d.setCharacter (c.param 0) f.owner e
  return .next f.pc

/-- Lets two characters change places. -/
def tradeEventLocations (f : Frame) (c : Command) : Act Outcome := do
  let g ← getGame
  let place (d : Field) (id : Number) (other : Character) : Field :=
    match d.character? id f.owner with
    | some e => d.setCharacter id f.owner { e with x := other.x, y := other.y }
    | none => d
  match g.field.character? (c.param 0) f.owner, g.field.character? (c.param 1) f.owner with
  | some first, some second =>
    modifyField fun d => place (place d (c.param 0) second) (c.param 1) first
  | _, _ => pure ()
  return .next f.pc

/-- Keeps the terrain of a tile in a variable. -/
def storeTerrain (env : Env) (f : Frame) (c : Command) : Act Outcome := do
  let x ← operand (c.param 0) (c.param 1)
  let y ← operand (c.param 0) (c.param 2)
  let g ← getGame
  let terrain ← match env.data.map? g.field.id with
    | some m => check (m.groundAt x y)
    | none => pure 0
  setVariable (c.param 3) terrain
  needRefresh
  return .next f.pc

/-- Keeps the event on a tile in a variable. -/
def storeEvent (f : Frame) (c : Command) : Act Outcome := do
  let x ← operand (c.param 0) (c.param 1)
  let y ← operand (c.param 0) (c.param 2)
  let g ← getGame
  setVariable (c.param 3) (g.field.eventOn x y)
  needRefresh
  return .next f.pc

/-- Lets a character flash. -/
def flashSprite (env : Env) (f : Frame) (c : Command) : Act Outcome := do
  let ticks ← check (env.data.config.ticks (c.param 5))
  let id := c.param 0
  let g ← getGame
  match g.field.character? id f.owner with
  | none => do
    warn .characterNotFound
    return .next f.pc
  | some e => do
    let flash : Flash :=
      { red := c.param 1, green := c.param 2, blue := c.param 3, strength := c.param 4, ticks }
    modifyField fun d => d.setCharacter id f.owner { e with flash := some flash }
    emit (.flashCharacter id ticks)
    return waitIf f (c.flag 6) ticks

/-- The character that a route is for: the player, where it is for the vehicle in use. -/
def routeTarget (d : Field) (id : Number) : Number :=
  if boatId ≤ id && id < thisEventId && d.ridden = some (id - boatId) then playerId else id

/-- Forces a route on a character. -/
def moveEvent (f : Frame) (c : Command) : Act Outcome := do
  let g ← getGame
  let id := routeTarget g.field (c.param 0)
  match g.field.character? id f.owner with
  | none => warn .characterNotFound
  | some e =>
    let route := Route.decode (c.params.drop 4) (c.flag 2) (c.flag 3)
    modifyField fun d => d.setCharacter id f.owner (e.forceRoute route (c.param 1))
  return .next f.pc

/-- Erases the event that the commands belong to. -/
def eraseEvent (f : Frame) : Act Outcome := do
  if 0 < f.owner then
    modifyField fun d => { d with
      events := d.events.modify f.owner fun e => { e with active := false } }
  return .next f.pc

/-! ## The view -/

/-- Where the view goes, and how far it has to go. -/
def panned (pan : Pan) (c : Command) : Except Overflow (Pan × Number) :=
  if c.mode 0 = 2 then do
    let distance := max (c.param 2) 0
    match c.mode 1 with
    | 0 => do return ({ pan with y := ← Checked.sub pan.y distance }, distance)
    | 1 => do return ({ pan with x := ← Checked.add pan.x distance }, distance)
    | 2 => do return ({ pan with y := ← Checked.add pan.y distance }, distance)
    | 3 => do return ({ pan with x := ← Checked.sub pan.x distance }, distance)
    | _ => return (pan, distance)
  else do
    let width ← Checked.abs pan.x
    let height ← Checked.abs pan.y
    return ({ pan with x := 0, y := 0 }, max width height)

/-- The ticks that the view needs for a distance in tiles: a tile has 16 pixels, and a tick covers
half of two to the power of the speed. -/
def panTicks (distance speed : Number) : Except Overflow UInt32 := do
  let stride : UInt32 := UInt32.ofNat (Nat.pow 2 speed.toInt.toNat / 2)
  let pixels ← Checked.mul distance.toUInt32 16
  let padded ← Checked.sub (← Checked.add pixels stride) 1
  return padded / stride

/-- Locks the view, unlocks it, moves it away from the player or moves it back. -/
def panScreen (f : Frame) (c : Command) : Act Outcome := do
  let g ← getGame
  let mode := c.mode 0
  if mode = 0 ∨ mode = 1 then
    modifyField fun d => { d with pan := { d.pan with locked := mode = 0 } }
    return .next f.pc
  if mode ≠ 2 ∧ mode ≠ 3 then
    warn .unknownPanMode
    return .next f.pc
  if mode = 2 ∧ (c.mode 1 < 0 ∨ 3 < c.mode 1) then warn .unknownPanDirection
  let speed := Number.clamp 1 6 (c.param 3)
  let (pan, distance) ← check (panned g.field.pan c)
  modifyField fun d => { d with pan := { pan with speed } }
  emit (.panScreen pan.x pan.y speed)
  if c.flag 4 then return .wait (← check (panTicks distance speed))
  return .next f.pc

/-- Changes the picture behind the map. -/
def changePanorama (f : Frame) (c : Command) : Act Outcome := do
  modifyField fun d => { d with
    panorama := some {
      name := c.text
      horizontalScroll := c.flag 0
      verticalScroll := c.flag 1
      horizontalSpeed := if c.flag 2 then c.param 3 else 0
      verticalSpeed := if c.flag 4 then c.param 5 else 0 } }
  return .next f.pc

/-- Plays an animation on a character or on the screen. -/
def showBattleAnimation (env : Env) (f : Frame) (c : Command) : Act Outcome :=
  let target := if c.param 1 = thisEventId then f.owner else c.param 1
  playAnimation env f (c.flag 2) (emit (.battleAnimation (c.param 0) target (c.flag 3)))

end EventScript.Commands
