import EventScript.Game.Actor
import EventScript.Game.Field
import EventScript.Game.Message
import EventScript.Game.Party
import EventScript.Game.Random
import EventScript.Game.Scene
import EventScript.Game.Settings
import EventScript.Game.Switches
import EventScript.Game.Troop
import EventScript.Game.Variables

/-!
# The game

Everything that changes while a game is played.

* `Game.begin` is the game at its start.
* `Game.showPages` shows, for every event of the map, the last page whose condition holds.
-/

namespace EventScript

/-- A game as it is at the moment. -/
structure Game where
  switches : Switches := {}
  vars : Variables
  party : Party
  actors : IdMap Actor
  field : Field := {}
  message : Message := {}
  scene : Scene := {}
  settings : Settings := {}
  screen : Screen := {}
  targets : Targets := {}
  /-- The enemies, while there is a battle. -/
  troop : Option Troop := none
  /-- The ticks since the start. -/
  frames : Nat := 0
  random : Random

namespace Game

/-! ## Pages -/

def meets (g : Game) (c : PageCondition) : Bool :=
  c.switchA.all g.switches.get && c.switchB.all g.switches.get &&
    c.variableLeast.all fun v => v.least ≤ g.vars.get v.id

/-- The number of the last page whose condition holds, counted from one, or zero. -/
def pageOf (g : Game) (e : EventData) : Number :=
  match (e.pages.reverse.findIdx? fun p => g.meets p.condition) with
  | some k => Int32.ofNat (e.pages.length - k)
  | none => 0

/-- Shows a page of an event; nothing changes if it shows already. -/
def showPage (e : EventData) (page : Number) (c : Character) : Character :=
  if c.page = page then c
  else
    let c := { c with page, starting := false }
    match e.page? page with
    | some p => { c with trigger := p.trigger, sprite := p.sprite }.face p.direction
    | none => { c with trigger := .action }

/-- Shows the right page of every event of the map. -/
def showPages (g : Game) (d : Database) : Game :=
  let events := match d.map? g.field.id with
    | some m =>
      m.events.foldl (fun es e => es.modify e.id (showPage e (g.pageOf e))) g.field.events
    | none => g.field.events
  { g with field := { g.field with events, needRefresh := false } }

/-- Goes to a map; a map that is not known is empty. -/
def enterMap (g : Game) (d : Database) (id : Number) : Game :=
  let field := match d.map? id with
    | some m => g.field.enter m
    | none => g.field.enterUnknown id
  { g with field }.showPages d

/-! ## The start -/

/-- The records of a list by their place in it. -/
def bySlot {α : Type} (l : List α) : IdMap α :=
  IdMap.ofList (l.zipIdx.map fun e => (Int32.ofNat e.2, e.1))

/-- The game at its start, with a generator for what is left to chance. -/
def begin (d : Database) (random : Random) : Game :=
  let party : Party :=
    { goldMax := d.config.goldMax, itemMax := d.config.itemMax,
      partyMax := d.config.partyMax.toNat }
  let game : Game :=
    { vars := { low := d.config.variableMin, high := d.config.variableMax }
      party := (d.start.party.foldl Party.join party).giveGold d.start.gold
      actors := IdMap.ofList (d.actors.map fun a => (a.id, Actor.ofData a))
      field := { player := Character.standing playerId d.start.x d.start.y }
      settings := { bgm := bySlot d.system.bgm, se := bySlot d.system.se }
      random }
  game.enterMap d d.start.mapId

/-! ## Questions -/

/-- The actors of the party, in its order. -/
def companions (g : Game) : List Actor := g.party.members.filterMap g.actors.get?

/-- Whether there is a party and nobody in it stands. -/
def partyFallen (g : Game) : Bool :=
  !g.party.members.isEmpty && g.companions.all (·.isFallen)

/-- How often the party wears an item. -/
def wornCount (g : Game) (item : Number) : Number :=
  Int32.ofNat ((g.companions.flatMap (·.equipment.toList)).count item)

/-- Whether a common event that starts by itself or runs beside the others has its switch on. -/
def isSwitchedOn (g : Game) (e : CommonEvent) : Bool :=
  (e.trigger = .autoStart || e.trigger = .parallel) && g.switches.get e.switchId

end Game

end EventScript
