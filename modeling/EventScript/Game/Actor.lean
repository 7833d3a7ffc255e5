import EventScript.Database.Basic
import EventScript.Game.Vitals

/-!
# Actors

The people of the party and those who may join it, as they are at the moment.
-/

namespace EventScript

/-- An actor as the game goes on. -/
structure Actor where
  id : Number := 0
  name : String := ""
  title : String := ""
  classId : Number := 0
  level : Number := 0
  exp : Number := 0
  vitals : Vitals := {}
  attack : Number := 0
  defense : Number := 0
  spirit : Number := 0
  agility : Number := 0
  skills : IdSet := ∅
  equipment : Vector Number 5 := Vector.replicate 5 0
  sprite : String := ""
  spriteIndex : Number := 0
  transparent : Bool := false
  face : String := ""
  faceIndex : Number := 0
  battleCommands : List Number := []
  /-- A battle command and how often it is repeated. -/
  combo : Option (Number × Number) := none
  lastBattleAction : Number := 0
  deriving DecidableEq

namespace Actor

/-- An actor as the game begins. -/
def ofData (d : ActorData) : Actor where
  id := d.id
  name := d.name
  title := d.title
  classId := d.classId
  level := max d.level 1
  vitals := Vitals.full d.maxHp d.maxSp
  attack := d.attack
  defense := d.defense
  spirit := d.spirit
  agility := d.agility
  skills := IdSet.ofIds d.skills
  equipment := d.equipment
  sprite := d.sprite
  spriteIndex := d.spriteIndex
  face := d.face
  faceIndex := d.faceIndex
  battleCommands := d.battleCommands

/-- Whether the actor is knocked out. -/
def isFallen (a : Actor) : Bool := a.vitals.isFallen

def wears (a : Actor) (item : Number) : Bool := 0 < item && a.equipment.contains item

/-- The number of slots that hold an item. -/
def wornCount (a : Actor) (item : Number) : Nat := a.equipment.toList.count item

/-- The item in a slot; a slot that does not exist holds none. -/
def slotItem (a : Actor) (slot : Nat) : Number := a.equipment[slot]?.getD 0

def equip (a : Actor) (slot : Nat) (item : Number) : Actor :=
  { a with equipment := a.equipment.setIfInBounds slot item }

end Actor

end EventScript
