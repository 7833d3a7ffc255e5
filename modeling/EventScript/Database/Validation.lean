import EventScript.Database.Form
import EventScript.Json.Parser

/-!
# Accepted databases

A database is accepted when its limits can be played under, no id occurs twice among the records
of one kind or the events of one map, the start map exists unless there are no maps, and the
actors who start exist. `Database.validate` reports the first fault in this order.
-/

namespace EventScript

/-- The first id that repeats an earlier one; `seen` holds the ids before the list. -/
def firstRepeat? : List Number → List Number → Option Number
  | _, [] => none
  | seen, id :: ids => if id ∈ seen then some id else firstRepeat? (id :: seen) ids

/-- Refuses a list of ids in which one repeats. -/
def requireDistinct (what : String) (ids : List Number) : Except LoadError Unit :=
  match firstRepeat? [] ids with
  | some id => .error { cause := .duplicateId, event := some id, text := what }
  | none => .ok ()

/-- A value read from a text, or the error that refuses the text. -/
def JsonForm.ofText (α : Type) [JsonForm α] (text : String) :
    Except LoadError α :=
  match (Json.parse text).bind JsonForm.read? with
  | some a => .ok a
  | none => .error { cause := .malformedDatabase, text := "not of the expected form" }

namespace Database

/-- Refuses maps of which one holds two events with the same id. -/
def requireDistinctEvents : List MapData → Except LoadError Unit
  | [] => .ok ()
  | m :: ms => do
    requireDistinct ("map event on map " ++ toString m.id.toInt) (m.events.map (·.id))
    requireDistinctEvents ms

/-- Refuses a start map that does not exist, unless there are no maps. -/
def requireStartMap (d : Database) : Except LoadError Unit :=
  if d.maps = [] ∨ (d.map? d.start.mapId).isSome then .ok ()
  else .error { cause := .undefinedMap, text := "start map " ++ toString d.start.mapId.toInt }

/-- Refuses a member of the starting party who does not exist. -/
def requireParty (d : Database) : Except LoadError Unit :=
  match d.start.party.find? (fun id => (d.actor? id).isNone) with
  | some id => .error { cause := .undefinedEvent, text := "party actor " ++ toString id.toInt }
  | none => .ok ()

/-- Whether a database is accepted; the first fault is reported. -/
def validate (d : Database) : Except LoadError Unit := do
  d.config.validate
  requireDistinct "actor" (d.actors.map (·.id))
  requireDistinct "item" (d.items.map (·.id))
  requireDistinct "common event" (d.commonEvents.map (·.id))
  requireDistinct "troop" (d.troops.map (·.id))
  requireDistinct "map" (d.maps.map (·.id))
  requireDistinctEvents d.maps
  d.requireStartMap
  d.requireParty

/-- The accepted database that a text writes. -/
def ofText (text : String) : Except LoadError Database := do
  let d ← JsonForm.ofText Database text
  d.validate
  return d

/-- The accepted database that the bytes of a file write. -/
def ofBytes (bytes : ByteArray) : Except LoadError Database :=
  match String.fromUTF8? bytes with
  | some text => ofText text
  | none => .error { cause := .ioError, text := "not a text" }

end Database

end EventScript
