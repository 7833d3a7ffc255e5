import EventScript.Database.Basic
import EventScript.IdMap

/-!
# Settings

Tunes, sounds, permissions and looks that stay when the map changes.
-/

namespace EventScript

/-- The slot of the tune that an inn plays. -/
def innSlot : Number := 2

/-- The look of the windows. -/
structure WindowGraphic where
  name : String := ""
  stretch : Bool := false
  font : Number := 0
  deriving DecidableEq

/-- The picture of a vehicle. -/
structure VehicleSprite where
  name : String := ""
  index : Number := 0
  deriving DecidableEq

structure Settings where
  currentBgm : Music := {}
  memorizedBgm : Music := {}
  beforeBattleBgm : Music := {}
  bgm : IdMap Music := ∅
  se : IdMap Sound := ∅
  graphic : WindowGraphic := {}
  /-- How the screen changes: out of and into a teleport, the start and the end of a battle. -/
  transitions : Vector Number 6 := Vector.replicate 6 0
  teleportAllowed : Bool := true
  escapeAllowed : Bool := true
  saveAllowed : Bool := true
  menuAllowed : Bool := true
  battleBackground : String := ""
  vehicleSprites : Vector VehicleSprite 3 := Vector.replicate 3 {}
  deriving DecidableEq

/-- The tune in a slot; an empty slot is silent. -/
def Settings.bgmAt (s : Settings) (slot : Number) : Music := (s.bgm.get? slot).getD {}

end EventScript
