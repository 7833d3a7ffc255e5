import EventScript.Database.Basic
import EventScript.Game.Vitals

/-!
# Troops

The enemies of a battle and what the pages of their troop read and write.
-/

namespace EventScript

/-- An enemy in a battle. -/
structure Enemy where
  name : String := ""
  vitals : Vitals := {}
  hidden : Bool := false
  fled : Bool := false
  deriving DecidableEq

namespace Enemy

/-- An enemy as it enters a battle. -/
def ofData (d : EnemyData) : Enemy :=
  { name := d.name, vitals := Vitals.full d.hp d.sp, hidden := d.hidden }

/-- Whether the enemy is knocked out. -/
def isFallen (e : Enemy) : Bool := e.vitals.isFallen

/-- Whether the enemy is there, seen and standing. -/
def canAct (e : Enemy) : Bool := !e.hidden && !e.fled && !e.isFallen

/-- The enemy after it ran away. -/
def flee (e : Enemy) : Enemy := { e with hidden := true, fled := true }

end Enemy

/-- An animation that a page played on an enemy, or on all of them. -/
structure PlayedAnimation where
  id : Number
  index : Option Nat
  deriving DecidableEq

/-- The enemies of a battle. -/
structure Troop where
  id : Number := 0
  enemies : List Enemy := []
  turn : Number := 0
  /-- The number of the enemy at whom the party aims. -/
  target : Option Number := none
  /-- The actor and the battle command of the party's last action. -/
  lastCommand : Option (Number × Number) := none
  background : String := ""
  partyFled : Bool := false
  terminated : Bool := false
  animations : List PlayedAnimation := []
  deriving DecidableEq

namespace Troop

/-- A troop as it enters a battle. -/
def ofData (d : TroopData) : Troop := { id := d.id, enemies := d.enemies.map Enemy.ofData }

def enemy? (t : Troop) (index : Number) : Option Enemy :=
  (Number.index? index).bind fun i => t.enemies[i]?

/-- Replaces the enemy with a number, if there is one. -/
def setEnemy (t : Troop) (index : Number) (e : Enemy) : Troop :=
  match Number.index? index with
  | some i => { t with enemies := t.enemies.set i e }
  | none => t

def isBeaten (t : Troop) : Bool := t.enemies.all fun e => !e.canAct

end Troop

end EventScript
