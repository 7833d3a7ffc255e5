import EventScript.Blocks
import EventScript.Host

/-!
# Frames

A frame runs one list of commands. It stops wherever the event has to wait and goes on from there.

* `Pause` is what a frame waits for.
* `Outcome` is what a command asks of the frame that runs it; `Frame.settle` does what is asked.
* `Interpreter` is a frame with the chain of the events it called: while a called event runs, the
  frame that called it stands behind its call.
-/

namespace EventScript

/-- Where a list of commands runs, which decides what its operations mean. -/
inductive Context
  | field
  | battle
  deriving DecidableEq, Repr

/-- The rest of a command that waits for a scene or for the message window. -/
inductive Awaited
  /-- Goods were bought, or none. -/
  | shop
  /-- The offer of an inn was answered. -/
  | innAnswer
  /-- The screen is dark for the night. -/
  | innDarkness
  /-- The tune of the inn is over. -/
  | innTune
  /-- A battle has ended. -/
  | battle
  /-- A choice was made. -/
  | choice
  /-- Another scene is over, and nothing is left but to go past the command. -/
  | scene
  deriving DecidableEq, Repr

/-- A command that waits for a key. -/
structure KeyCapture where
  /-- The variable that takes the key. -/
  target : Number
  /-- The variable that takes the time, in tenths of a second. -/
  timeTarget : Option Number
  /-- The keys waited for; the first one that is hit counts. -/
  keys : List Key
  /-- How often the keys were looked at. -/
  polls : UInt32
  deriving DecidableEq

/-- What a frame waits for. -/
inductive Pause
  | ready
  /-- The forced routes of all characters. -/
  | movement
  | keys (capture : KeyCapture)
  | ticks (n : UInt32)
  | goOn (k : Awaited)
  /-- The animation of the command at hand. -/
  | animation
  deriving DecidableEq

/-- A wait for a number of ticks; there is nothing to wait for in none. -/
def Pause.ofTicks (n : UInt32) : Pause := if n = 0 then .ready else .ticks n

/-- A list of commands that runs. -/
structure Frame where
  context : Context
  /-- How many calls deep the frame is. -/
  depth : UInt32
  /-- Whether the frame looks for the next event by itself when it has run out of commands. -/
  isRoot : Bool
  commands : List Command := []
  jumps : Landings := {}
  /-- The place of the next command. -/
  pc : Nat := 0
  /-- The map event that the commands belong to, or zero. -/
  owner : Number := 0
  /-- The map on which the commands were started. -/
  mapId : Number := 0
  pause : Pause := .ready
  /-- Whether the player started the event by checking it. -/
  byDecision : Bool := false
  deriving DecidableEq

/-- What a command asks of its frame. -/
inductive Outcome
  /-- Go on after the command at a place. -/
  | next (place : Nat)
  /-- Hand over the tick, then go on after the command at a place. -/
  | rest (place : Nat)
  /-- Hand over the tick and try the same command again. -/
  | retry
  /-- Hand over the tick at a place, then go on with the command there. -/
  | await (place : Nat) (k : Awaited)
  /-- Go on after the command when a number of ticks is over. -/
  | wait (n : UInt32)
  /-- Go on after the command when a key was hit. -/
  | capture (c : KeyCapture)
  /-- Go on after the command when the forced routes have ended. -/
  | follow
  /-- Hand over the tick and look after the animation with the same command. -/
  | animate
  /-- Go on after the command when other commands have run. -/
  | call (commands : List Command) (owner : Number)
  deriving DecidableEq

namespace Frame

/-- A frame that runs nothing. -/
def idle (context : Context) (depth : UInt32) (isRoot : Bool) : Frame :=
  { context, depth, isRoot }

def start (f : Frame) (commands : List Command) (owner mapId : Number) :
    Except Overflow Frame := do
  let jumps ← Landings.ofCommands commands
  return { f with
    commands, jumps, pc := 0, owner, mapId, pause := .ready, byDecision := false }

def isRunning (f : Frame) : Bool := !f.commands.isEmpty

/-- Goes on after the command at a place. -/
def goto (f : Frame) (place : Nat) : Frame :=
  { f with pc := min (place + 1) f.commands.length, pause := .ready }

/-- The place of the end of the block that the command at hand opens, or else of the command. -/
def blockEnd (f : Frame) : Nat := (f.jumps.landing? f.pc).getD f.pc

/-- Drops the commands. -/
def leave (f : Frame) : Frame := { f with commands := [], jumps := {}, pc := 0 }

/-- An event that belongs to another map has no owner here. -/
def forgetOwner (f : Frame) (mapId : Number) : Frame :=
  if f.mapId = mapId then f else { f with owner := 0 }

end Frame

/-- A frame with the events it called, each of which called the next. -/
structure Interpreter where
  frame : Frame
  calls : List Frame := []
  deriving DecidableEq

namespace Interpreter

/-- An interpreter that runs nothing. -/
def idle (context : Context) (depth : UInt32) (isRoot : Bool) : Interpreter :=
  { frame := Frame.idle context depth isRoot }

/-- Starts over with a list of commands; the events that were called are dropped. -/
def start (i : Interpreter) (commands : List Command) (owner mapId : Number) :
    Except Overflow Interpreter := do
  return { frame := ← i.frame.start commands owner mapId }

/-- Whether there are commands to run. -/
def isRunning (i : Interpreter) : Bool := i.frame.isRunning

/-- The frames, outermost first. -/
def frames (i : Interpreter) : List Frame := i.frame :: i.calls

end Interpreter

end EventScript
