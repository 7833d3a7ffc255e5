import EventScript.Terminal.Play

/-!
# Consoles

A play on whatever can show lines and ask for them. `run` only carries lines and answers to and fro;
what is shown and asked is settled by `goOn` and `respond`.
-/

namespace EventScript.Terminal

/-- Where a play shows and asks. -/
structure Console (m : Type → Type) where
  /-- Shows a line. -/
  put : Line → m Unit
  /-- Asks for a line, which the end of the input refuses. -/
  ask : String → m (Option String)
  /-- Keeps a line for the player to recall. -/
  keep : String → m Unit
  /-- Whether the player interrupted since the last look. -/
  interrupted : m Bool

/-- Plays on a console from a reply on, until the player quits or a fault ends the game. -/
partial def run {m : Type → Type} [Monad m] (c : Console m) (ticks : Nat) (r : Reply)
    (d : Director) : m (Option Fault) := do
  r.lines.forM c.put
  let step ← match r.next with
    | .quit => return none
    | .resume => do
      let interrupted ← c.interrupted
      pure (goOn ticks interrupted)
    | .ask q => do
      let line ← c.ask q.prompt
      match line.filter isKept with
      | some line => c.keep line
      | none => pure ()
      pure (respond q line)
  match step d with
  | .ok (r, d) => run c ticks r d
  | .error e => return some e

end EventScript.Terminal
