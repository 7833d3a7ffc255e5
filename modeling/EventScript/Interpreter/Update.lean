import EventScript.Commands.Dispatch

/-!
# Running an interpreter

In one update an interpreter runs commands until something has to wait, or until every frame that
ran has used up its commands for one update.

* `Frame.turn` is one step of a frame that called nothing: it waits, resumes a command, runs one,
  or leaves its list.
* `Interpreter.update` takes turns in the innermost frame first. A frame goes on only when the event
  it called has run out of commands.

Events may call themselves, so the chain of calls has no bound of its own. An update gets a bound on
the levels of frames it may run inside each other, and ends in `Fault.nesting` where that is not
enough; a larger bound changes nothing else.
-/

namespace EventScript

/-- Why an update ends without a result. -/
inductive Fault
  | overflow (o : Overflow)
  /-- More events called each other than there were levels. -/
  | nesting
  deriving DecidableEq, Repr

/-- Something done to the world that may need levels of frames. -/
abbrev Process := StateT World (Except Fault)

namespace Process

def ofAct {α : Type} (a : Act α) : Process α := fun w =>
  match a w with
  | .ok r => .ok r
  | .error o => .error (.overflow o)

instance : MonadLift Act Process := ⟨ofAct⟩

end Process

/-- Whether a frame goes on in the same update. -/
inductive Signal
  | again
  | yield
  deriving DecidableEq, Repr

/-- What a turn leaves: the frame, and the event it called. -/
structure Turn where
  frame : Frame
  called : Option Frame := none
  signal : Signal
  deriving DecidableEq

namespace Frame

open Act

/-- The frame for an event that the frame calls, one level deeper. The level right past the limit
is reported. -/
def callee (env : Env) (f : Frame) (commands : List Command) (owner : Number) : Act Frame := do
  let depth ← check (Checked.add f.depth 1)
  let reported ← check (Checked.add env.data.config.depthWarning 1)
  if depth = reported then warn .callTooDeep
  let g ← getGame
  check ((Frame.idle f.context depth false).start commands owner g.field.id)

/-- Does what a command asks of the frame. -/
def settle (env : Env) (f : Frame) : Outcome → Act Turn
  | .next place => return { frame := f.goto place, signal := .again }
  | .rest place => return { frame := f.goto place, signal := .yield }
  | .retry => return { frame := f, signal := .yield }
  | .await place k => return { frame := { f with pc := place, pause := .goOn k }, signal := .yield }
  | .wait n => return { frame := { f.goto f.pc with pause := Pause.ofTicks n }, signal := .again }
  | .capture c => return { frame := { f.goto f.pc with pause := .keys c }, signal := .again }
  | .follow => return { frame := { f.goto f.pc with pause := .movement }, signal := .again }
  | .animate => return { frame := { f with pause := .animation }, signal := .yield }
  | .call commands owner => do
    let called ← f.callee env commands owner
    return { frame := f.goto f.pc, called := some called, signal := .again }

/-- Leaves the list. The root also closes the message window and releases its event. -/
def finish (f : Frame) : Act Frame := do
  if f.isRoot && f.depth = 0 then
    modifyGame fun g => { g with
      message := g.message.close
      field := if 0 < f.owner then g.field.release f.owner else g.field }
  return f.leave

/-- The common event that is queued, which is taken from the queue. -/
def queuedEvent (env : Env) : Act (Option CommonEvent) := do
  let g ← getGame
  match g.scene.commonEventId with
  | none => return none
  | some id => do
    setGame { g with scene := { g.scene with commonEventId := none } }
    let event := env.data.commonEvent? id
    if event.isNone then warn .queuedEventNotFound
    return event

/-- Starts the event of the map that is to start, if its page has commands. -/
def startFieldEvent (env : Env) (f : Frame) : Act (Option Frame) := do
  let g ← getGame
  match g.field.dueEvent? with
  | none => return none
  | some id => match g.field.events.get? id with
    | none => return none
    | some e => do
      let commands := (env.data.pageCommands? g.field.id id e.page).getD []
      let e := { e with starting := false, locked := e.locked || !commands.isEmpty }
      setGame { g with field := { g.field with events := g.field.events.insert id e } }
      if commands.isEmpty then return none
      let started ← check (f.start commands id g.field.id)
      return some { started with byDecision := e.trigger = .action }

/-- The next thing that the root runs: the common event in the queue, an event of the map that is
to start, or a common event that starts by itself. -/
def startNext (env : Env) (f : Frame) : Act (Option Frame) := do
  let g ← getGame
  if g.field.needRefresh then showPages env.data
  match ← queuedEvent env with
  | some e => some <$> check (f.start e.commands 0 g.field.id)
  | none => match ← startFieldEvent env f with
    | some started => return some started
    | none => do
      let g ← getGame
      match env.data.commonEvents.find? fun e =>
          e.trigger = .autoStart && g.isSwitchedOn e && !e.commands.isEmpty with
      | some e => some <$> check (f.start e.commands 0 g.field.id)
      | none => return none

/-- The frame with nothing left to wait for. -/
def ready (f : Frame) : Frame := { f with pause := .ready }

/-- Resumes the command at hand, runs it, or looks for what comes next, unless a scene or a battle
holds the frame up. -/
def proceed (env : Env) (f : Frame) : Act Turn := do
  let g ← getGame
  if g.scene.isBlocking || (f.context = .field && g.troop.isSome) then
    return { frame := f, signal := .yield }
  match f.pause with
  | .goOn k => f.ready.settle env (← Commands.goOn env f.ready k)
  | _ => match f.commands[f.pc]? with
    | some c => do f.settle env (← Commands.perform env f c)
    | none =>
      if f.isRunning then return { frame := ← f.finish, signal := .again }
      else if f.isRoot then
        match ← f.startNext env with
        | some started => return { frame := started, signal := .again }
        | none => return { frame := f, signal := .yield }
      else return { frame := f, signal := .yield }

/-- One step of a frame that has called nothing. -/
def turn (env : Env) (f : Frame) : Act Turn := do
  let g ← getGame
  if g.message.waiting then return { frame := f, signal := .yield }
  match f.pause with
  | .movement =>
    if g.field.anyMoving then return { frame := f, signal := .yield }
    else f.ready.proceed env
  | .keys k => do
    match ← Commands.pollKeys env k with
    | some k => return { frame := { f with pause := .keys k }, signal := .yield }
    | none => f.ready.proceed env
  | .ticks n => return { frame := { f with pause := Pause.ofTicks (n - 1) }, signal := .yield }
  | _ => f.proceed env

end Frame

namespace Interpreter

/-- Takes up to `n` turns with a frame, after the events it called. `inner` updates the first of
those with the events that it called in turn. -/
def takeTurns (env : Env) (inner : Frame → List Frame → Process Interpreter) :
    Nat → Frame → List Frame → Process Interpreter
  | 0, f, calls => return { frame := f, calls }
  | n + 1, f, calls => do
    let g ← Act.getGame
    let f := f.forgetOwner g.field.id
    let left ← match calls with
      | [] => pure none
      | c :: cs => do
        let called ← inner c cs
        pure (if called.isRunning then some called else none)
    match left with
    | some called => return { frame := f, calls := called.frames }
    | none => do
      let t ← f.turn env
      match t.signal with
      | .yield => return { frame := t.frame, calls := t.called.toList }
      | .again => takeTurns env inner n t.frame t.called.toList

/-- Updates a frame with the events it called, on a number of levels. -/
def updateFrames (env : Env) : Nat → Frame → List Frame → Process Interpreter
  | 0, _, _ => throw .nesting
  | levels + 1, f, calls =>
    takeTurns env (updateFrames env levels) env.data.config.maxIterations.toNat f calls

def update (env : Env) (levels : Nat) (i : Interpreter) : Process Interpreter :=
  updateFrames env levels i.frame i.calls

end Interpreter

end EventScript
