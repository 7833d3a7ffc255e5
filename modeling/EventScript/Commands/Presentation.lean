import EventScript.Commands.Operand

/-!
# Commands of sound and sight

Tunes and sounds, the look of windows and vehicles, permissions, and what is seen on the screen.
-/

namespace EventScript.Commands

open Act

/-- Changes the settings. -/
def modifySettings (f : Settings → Settings) : Act Unit :=
  modifyGame fun g => { g with settings := f g.settings }

/-- Changes the screen. -/
def modifyScreen (f : Screen → Screen) : Act Unit :=
  modifyGame fun g => { g with screen := f g.screen }

/-- The tune of a command, whose values start at a parameter. -/
def musicOf (c : Command) (first : Nat) : Music where
  name := c.text
  fadein := c.param first
  volume := c.param (first + 1)
  tempo := c.param (first + 2)
  balance := c.param (first + 3)

/-- The sound of a command, whose values start at a parameter. -/
def soundOf (c : Command) (first : Nat) : Sound where
  name := c.text
  volume := c.param first
  tempo := c.param (first + 1)
  balance := c.param (first + 2)

/-- The colouring of a command, whose values start at a parameter. -/
def toneOf (c : Command) (first : Nat) : Tone where
  red := c.param first
  green := c.param (first + 1)
  blue := c.param (first + 2)
  saturation := c.param (first + 3)

/-- Plays a tune from now on. -/
def switchBgm (m : Music) : Act Unit := do
  modifySettings fun s => { s with currentBgm := m }
  emit (.playBgm m)

def fadeOutBgm (f : Frame) (c : Command) : Act Outcome := do
  modifySettings fun s => { s with currentBgm := {} }
  emit (.fadeOutBgm (← check (Checked.mul (c.param 0) 1000)))
  return .next f.pc

/-- Plays a film. -/
def playMovie (f : Frame) (c : Command) : Act Outcome := do
  let x ← operand (c.param 0) (c.param 1)
  let y ← operand (c.param 0) (c.param 2)
  emit (.playMovie c.text x y (c.param 3) (c.param 4))
  return .next f.pc

/-- Changes the way the screen changes. -/
def changeTransition (f : Frame) (c : Command) : Act Outcome := do
  match Number.index? (c.param 0) with
  | some slot =>
    if slot < 6 then
      modifySettings fun s => { s with transitions := s.transitions.setIfInBounds slot (c.param 1) }
    else warn .unknownTransitionSlot
  | none => warn .unknownTransitionSlot
  return .next f.pc

def changeVehicleGraphic (f : Frame) (c : Command) : Act Outcome := do
  let g ← getGame
  match g.field.vehicle? (c.param 0) with
  | none => warn .unknownVehicle
  | some v => do
    let character := { v.character with sprite := c.text, spriteIndex := c.param 1 }
    setGame { g with field := g.field.setVehicle (c.param 0) { v with character } }
    modifySettings fun s => { s with
      vehicleSprites :=
        s.vehicleSprites.setIfInBounds (c.param 0).toInt.toNat
          { name := c.text, index := c.param 1 } }
  return .next f.pc

/-- Waits for a number of ticks where a flag is set. -/
def waitIf (f : Frame) (flag : Bool) (ticks : UInt32) : Outcome :=
  if flag then .wait ticks else .next f.pc

/-- Colours the screen. -/
def tintScreen (env : Env) (f : Frame) (c : Command) : Act Outcome := do
  let ticks ← check (env.data.config.ticks (c.param 4))
  modifyScreen fun s => { s with tone := toneOf c 0 }
  emit (.tint (c.param 0) (c.param 1) (c.param 2) (c.param 3) ticks)
  return waitIf f (c.flag 5) ticks

/-- Lets the screen flash, or stops it. -/
def flashScreen (env : Env) (f : Frame) (c : Command) : Act Outcome := do
  let ticks ← check (env.data.config.ticks (c.param 4))
  if c.mode 6 = 2 then
    modifyScreen fun s => { s with flash := none }
    return .next f.pc
  modifyScreen fun s => { s with
    flash := some {
      red := c.param 0, green := c.param 1, blue := c.param 2, strength := c.param 3, ticks } }
  emit (.flash (c.param 0) (c.param 1) (c.param 2) (c.param 3) ticks)
  return waitIf f (c.flag 5) ticks

/-- Lets the screen shake, or stops it. -/
def shakeScreen (env : Env) (f : Frame) (c : Command) : Act Outcome := do
  let ticks ← check (env.data.config.ticks (c.param 2))
  if c.mode 4 = 2 then
    modifyScreen fun s => { s with shake := {} }
    return .next f.pc
  modifyScreen fun s => { s with
    shake := { power := c.param 0, speed := c.param 1, ticks, continuous := c.mode 4 = 1 } }
  emit (.shake (c.param 0) (c.param 1) ticks)
  return waitIf f (c.flag 3) ticks

def changeWeather (f : Frame) (c : Command) : Act Outcome := do
  modifyScreen fun s => { s with weather := c.param 0, weatherStrength := c.param 1 }
  emit (.weather (c.param 0) (c.param 1))
  return .next f.pc

def showPicture (f : Frame) (c : Command) : Act Outcome := do
  let x ← operand (c.param 1) (c.param 2)
  let y ← operand (c.param 1) (c.param 3)
  let picture : Picture :=
    { name := c.text, x, y, fixedToMap := c.flag 4, magnify := c.param 5,
      transparency := c.param 6, tone := toneOf c 8 }
  modifyScreen fun s => { s with pictures := s.pictures.insert (c.param 0) picture }
  emit (.showPicture (c.param 0) c.text)
  return .next f.pc

def movePicture (env : Env) (f : Frame) (c : Command) : Act Outcome := do
  let id := c.param 0
  let ticks ← check (env.data.config.ticks (c.param 14))
  let x ← operand (c.param 1) (c.param 2)
  let y ← operand (c.param 1) (c.param 3)
  let g ← getGame
  match g.screen.pictures.get? id with
  | none => do
    warn .pictureNotShown
    return .next f.pc
  | some p => do
    let picture := { p with
      x, y, magnify := c.param 5, transparency := c.param 6, tone := toneOf c 8 }
    modifyScreen fun s => { s with pictures := s.pictures.insert id picture }
    emit (.movePicture id x y ticks)
    return waitIf f (c.flag 15) ticks

/-- Takes a picture away. -/
def erasePicture (f : Frame) (c : Command) : Act Outcome := do
  modifyScreen fun s => { s with pictures := s.pictures.erase (c.param 0) }
  emit (.erasePicture (c.param 0))
  return .next f.pc

/-- Covers or uncovers the screen, when nothing else is under way; the transition of the settings
is taken for the number -1. -/
def changeCover (env : Env) (f : Frame) (c : Command) (erase : Bool) : Act Outcome := do
  let g ← getGame
  if env.host.transitionPending || g.message.visible then return .retry
  let kind := if c.mode 0 = -1 then
      (if erase then g.settings.transitions[0] else g.settings.transitions[1])
    else c.param 0
  modifyScreen fun s => { s with erased := erase }
  emit (.transition erase kind)
  return .rest f.pc

/-- Plays an animation. The command is run again until it has ended, where it waits for that. -/
def playAnimation (env : Env) (f : Frame) (waits : Bool) (start : Act Unit) : Act Outcome := do
  if f.pause = .animation then
    return if env.host.animationPending then .retry else .next f.pc
  start
  return if waits then .animate else .next f.pc

end EventScript.Commands
