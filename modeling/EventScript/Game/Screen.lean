import EventScript.IdMap

/-!
# The screen

What colours, shakes and covers the screen, and the pictures on it.
-/

namespace EventScript

/-- A colouring; 100 is neutral. -/
structure Tone where
  red : Number := 0
  green : Number := 0
  blue : Number := 0
  saturation : Number := 0
  deriving DecidableEq

/-- The neutral colouring. -/
def Tone.neutral : Tone := { red := 100, green := 100, blue := 100, saturation := 100 }

/-- A flash that fades. -/
structure Flash where
  red : Number := 0
  green : Number := 0
  blue : Number := 0
  strength : Number := 0
  ticks : UInt32 := 0
  deriving DecidableEq

/-- How the screen shakes. -/
structure Shake where
  power : Number := 0
  speed : Number := 0
  ticks : UInt32 := 0
  continuous : Bool := false
  deriving DecidableEq

/-- A picture on the screen. -/
structure Picture where
  name : String := ""
  x : Number := 0
  y : Number := 0
  magnify : Number := 0
  transparency : Number := 0
  fixedToMap : Bool := false
  tone : Tone := {}
  deriving DecidableEq

structure Screen where
  tone : Tone := Tone.neutral
  flash : Option Flash := none
  shake : Shake := {}
  weather : Number := 0
  weatherStrength : Number := 0
  pictures : IdMap Picture := ∅
  erased : Bool := false
  deriving DecidableEq

/-- One tick: a flash fades, and shaking that does not go on by itself calms down. -/
def Screen.tick (s : Screen) : Screen :=
  { s with
    flash := s.flash.bind fun f =>
      if f.ticks ≤ 1 then none else some { f with ticks := f.ticks - 1 }
    shake :=
      if !s.shake.continuous && 0 < s.shake.ticks then
        { s.shake with ticks := s.shake.ticks - 1 }
      else s.shake }

/-- A place to which a spell takes the party. -/
structure Target where
  mapId : Number
  x : Number
  y : Number
  /-- The switch that is turned on on arrival, if any. -/
  switchId : Option Number
  deriving DecidableEq

/-- The places that are known for the teleport spell, by map, and for the escape spell. -/
structure Targets where
  teleport : IdMap Target := ∅
  escape : Option Target := none
  deriving DecidableEq

end EventScript
