import EventScript.Director.Basic

/-!
# A tick on the field

In one tick the root runs first, then the common events that run beside it, then the map events
that do, each kind by id. Then the world moves, and at last the player goes where a teleport leads.
-/

namespace EventScript.Director

open Act

/-- The common events that run beside the others now, by id. -/
def parallelCommons (d : Database) (g : Game) : List Number :=
  ((d.commonEvents.filter fun e => e.trigger = .parallel && g.isSwitchedOn e).map (·.id)).mergeSort
    fun a b => a ≤ b

def updateRoot : Directing Unit := do
  let d ← get
  let root ← update d.root
  modify fun d => { d with root }

/-- One update of a common event, which starts over when it has ended. -/
def updateCommon (id : Number) : Directing Unit := do
  let d ← get
  let i := (d.common.get? id).getD (.idle .field 0 false)
  let i ← if i.isRunning then pure i else
    match d.data.commonEvent? id with
    | some e => start i e.commands 0
    | none => pure i
  let i ← update i
  modify fun d => { d with common := d.common.insert id i }

/-- One update of a map event, which starts over when it has ended or shows another page. -/
def updateParallel (id : Number) : Directing Unit := do
  let d ← get
  let g := d.game
  let page := ((g.field.events.get? id).map (·.page)).getD 0
  let run := (d.parallel.get? id).getD {}
  let bound ← if run.page = page && run.interpreter.isRunning then pure (some run.interpreter) else
    match d.data.pageCommands? g.field.id id page with
    | some commands => some <$> start run.interpreter commands id
    | none => pure none
  match bound with
  | some i => do
    let interpreter ← update i
    modify fun d => { d with parallel := d.parallel.insert id { page, interpreter } }
  | none => pure ()

/-- Goes where the teleport leads, if there is one. Another map stops the map events that ran. -/
def carryTeleport : Directing Unit := do
  let g ← getGame
  match g.field.teleport with
  | none => pure ()
  | some t => do
    modifyGame fun g => { g with field := { g.field with teleport := none } }
    if t.mapId ≠ g.field.id then
      let d ← get
      enterMap d.data t.mapId
      modify fun d => { d with parallel := ∅ }
    modifyGame fun g =>
      let player := { g.field.player with x := t.x, y := t.y }
      let player := if t.direction < 0 then player else player.face t.direction
      { g with field := { g.field with player } }

def fieldTick : Directing Unit := do
  updateRoot
  let d ← get
  let commons := parallelCommons d.data d.game
  modify fun d => { d with common := d.common.keep commons.contains }
  commons.forM updateCommon
  let d ← get
  let events := d.game.field.parallelIds
  modify fun d => { d with parallel := d.parallel.keep events.contains }
  events.forM updateParallel
  tickWorld
  carryTeleport

end EventScript.Director
