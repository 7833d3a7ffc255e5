import EventScript.Database.Basic
import EventScript.Text.Quoted

/-!
# The host

What the events hand over to the machine that shows the game, and what they ask it.

* An `Effect` is handed over and forgotten: audio, film, changes of the screen, animations.
* A `Host` answers what events wait for: keys, changes of the screen, animations, the tune.
-/

namespace EventScript

/-- The keys that events can ask for. -/
inductive Key
  | down
  | left
  | right
  | up
  | decision
  | cancel
  | shift
  | digit (n : UInt8)
  | plus
  | minus
  | multiply
  | divide
  | period
  deriving DecidableEq, Repr

/-- The number that stands for a key in a variable. -/
def Key.code : Key → Number
  | down => 1
  | left => 2
  | right => 3
  | up => 4
  | decision => 5
  | cancel => 6
  | shift => 7
  | digit n => Int32.ofNat (10 + min n.toNat 9)
  | plus => 20
  | minus => 21
  | multiply => 22
  | divide => 23
  | period => 24

/-- The state of the machine, as far as events can ask for it. -/
structure Host where
  pressed : List Key := []
  triggered : List Key := []
  transitionPending : Bool := false
  animationPending : Bool := false
  bgmPlayedOnce : Bool := true
  deriving DecidableEq

/-- Something that the machine is told to do. -/
inductive Effect
  | playBgm (music : Music)
  | fadeOutBgm (millis : Number)
  | playSe (sound : Sound)
  | playMovie (name : String) (x y width height : Number)
  | transition (erase : Bool) (kind : Number)
  | tint (red green blue saturation : Number) (ticks : UInt32)
  | flash (red green blue strength : Number) (ticks : UInt32)
  | shake (power speed : Number) (ticks : UInt32)
  | weather (kind strength : Number)
  | showPicture (id : Number) (name : String)
  | movePicture (id x y : Number) (ticks : UInt32)
  | erasePicture (id : Number)
  | panScreen (x y speed : Number)
  | battleAnimation (id target : Number) (global : Bool)
  | flashCharacter (id : Number) (ticks : UInt32)
  | simulatedAttack (actorId damage : Number)
  deriving DecidableEq

namespace Effect

/-- A value of an effect. -/
inductive Part
  | number (n : Number)
  | ticks (n : UInt32)
  | text (s : String)
  | yes (b : Bool)

/-- The written form of a value. -/
def Part.render : Part → String
  | number n => toString n.toInt
  | ticks n => toString n.toNat
  | text s => Text.quoted s
  | yes b => toString b

/-- The values of an effect with their names. -/
def parts : Effect → List (String × Part)
  | playBgm m => [("name", .text m.name), ("fadein", .number m.fadein),
    ("volume", .number m.volume), ("tempo", .number m.tempo), ("balance", .number m.balance)]
  | fadeOutBgm millis => [("millis", .number millis)]
  | playSe m => [("name", .text m.name), ("volume", .number m.volume),
    ("tempo", .number m.tempo), ("balance", .number m.balance)]
  | playMovie name x y width height => [("name", .text name), ("x", .number x), ("y", .number y),
    ("width", .number width), ("height", .number height)]
  | transition erase kind => [("erase", .yes erase), ("kind", .number kind)]
  | tint r g b s ticks => [("red", .number r), ("green", .number g), ("blue", .number b),
    ("saturation", .number s), ("ticks", .ticks ticks)]
  | flash r g b s ticks => [("red", .number r), ("green", .number g), ("blue", .number b),
    ("strength", .number s), ("ticks", .ticks ticks)]
  | shake power speed ticks =>
    [("power", .number power), ("speed", .number speed), ("ticks", .ticks ticks)]
  | weather kind strength => [("kind", .number kind), ("strength", .number strength)]
  | showPicture id name => [("id", .number id), ("name", .text name)]
  | movePicture id x y ticks =>
    [("id", .number id), ("x", .number x), ("y", .number y), ("ticks", .ticks ticks)]
  | erasePicture id => [("id", .number id)]
  | panScreen x y speed => [("x", .number x), ("y", .number y), ("speed", .number speed)]
  | battleAnimation id target global =>
    [("id", .number id), ("target", .number target), ("global", .yes global)]
  | flashCharacter id ticks => [("id", .number id), ("ticks", .ticks ticks)]
  | simulatedAttack actorId damage => [("actor_id", .number actorId), ("damage", .number damage)]

def name : Effect → String
  | playBgm _ => "PlayBgm"
  | fadeOutBgm _ => "FadeOutBgm"
  | playSe _ => "PlaySe"
  | playMovie .. => "PlayMovie"
  | transition .. => "Transition"
  | tint .. => "Tint"
  | flash .. => "Flash"
  | shake .. => "Shake"
  | weather .. => "Weather"
  | showPicture .. => "ShowPicture"
  | movePicture .. => "MovePicture"
  | erasePicture _ => "ErasePicture"
  | panScreen .. => "PanScreen"
  | battleAnimation .. => "BattleAnimation"
  | flashCharacter .. => "FlashCharacter"
  | simulatedAttack .. => "SimulatedAttack"

/-- A name and named values on one line. -/
def renderRecord (name : String) (parts : List (String × Part)) : String :=
  name ++ " \x7b " ++ ", ".intercalate (parts.map fun p => p.1 ++ ": " ++ p.2.render) ++ " \x7d"

/-- An effect on one line; a tune and a sound stand as records of their own. -/
def render (e : Effect) : String :=
  match e with
  | playBgm _ => e.name ++ "(" ++ renderRecord "Music" e.parts ++ ")"
  | playSe _ => e.name ++ "(" ++ renderRecord "Sound" e.parts ++ ")"
  | _ => renderRecord e.name e.parts

end Effect

end EventScript
