import EventScript.Terminal.Chance
import EventScript.Terminal.Question

/-!
# Playing on a terminal

A play goes from stop to stop: it leads the game on, shows the effects and the reason for the
stop, and asks.

* `goOn` is what is shown and asked when the game goes on.
* `reply` is what is shown and asked after a line was typed, and `respond` what follows a question
  that may stay without one.
-/

namespace EventScript.Terminal

/-- Takes the effects that came out of the game since the last look. -/
def takeEffects : Directing (List Effect) := do
  let d ← get
  set { d with world := { d.world with effects := #[] } }
  return d.world.effects.toList

/-- Leads the game on for a number of ticks, after an interruption if there was one. -/
def goOn (ticks : Nat) (interrupted : Bool) : Directing Reply := do
  if interrupted then Director.abandon
  let stop ← Director.lead ticks
  let effects ← takeEffects
  let reply ← present stop
  let notice := if interrupted then [Line.bold "INTERRUPTED"] else []
  let shown := effects.map fun e => Line.dim ("~ " ++ e.render)
  return { reply with lines := notice ++ shown ++ reply.lines }

/-- Answers a question with a line as it was typed. -/
def reply (q : Question) (line : String) : Directing Reply := answer q (Text.trim line)

/-- Answers a question with the line that was typed. At the end of the input there is none, and the
play is over. -/
def respond (q : Question) : Option String → Directing Reply
  | some line => reply q line
  | none => return { next := .quit }

/-- Whether a line is worth being kept for the player to recall. -/
def isKept (line : String) : Bool := Text.trim line ≠ ""

/-- A play of a database, with a seed for what is left to chance. -/
def begin (data : Database) (seed : UInt64) : Director := Director.begin data seed

/-- What a play begins with: the title of the game, if it has one. -/
def opening (d : Director) : Reply :=
  { lines := if d.data.system.title = "" then [] else [.bold d.data.system.title]
    next := .resume }

end EventScript.Terminal
