import EventScript.Terminal.Console
import EventScript.Terminal.Options

/-!
# The program

Plays an event database on the terminal.
-/

namespace EventScript.Terminal

/-- The words that explain the command line. -/
def usage : String :=
  "Plays an event database on the terminal\n\n" ++
  "Usage: eventscript [OPTIONS] <DATABASE>\n\n" ++
  "      --ticks <TICKS>  Ticks to run between looks at the terminal [default: 600]\n" ++
  "      --fps <FPS>      Ticks per second; overrides the database\n" ++
  "  -h, --help           Print help\n" ++
  "  -V, --version        Print version\n"

/-- A line without the characters that end it. -/
def chomp (line : String) : String :=
  String.ofList (line.toList.filter fun c => c ≠ '\n' && c ≠ '\r')

/-- The terminal on which the program runs. -/
def stdConsole : IO (Console IO) := do
  let input ← IO.getStdin
  let output ← IO.getStdout
  return {
    put := fun l => output.putStrLn l.render
    ask := fun prompt => do
      output.putStr prompt
      output.flush
      let line ← input.getLine
      return if line.isEmpty then none else some (chomp line)
    keep := fun _ => pure ()
    interrupted := pure false }

/-- The database in a file. -/
def load (path : String) : IO (Except LoadError Database) := do
  try
    return Database.ofBytes (← IO.FS.readBinFile path)
  catch
    | .noFileOrDirectory .. => return .error { cause := .fileNotFound, text := "no such file" }
    | e => return .error { cause := .ioError, text := toString e }

/-- Plays a game as the options say. -/
def play (o : Options) : IO UInt32 := do
  match (← load o.database).bind o.apply with
  | .error e => do
    IO.eprintln (Line.bold e.message).render
    return 0
  | .ok data => do
    let seed ← IO.rand 0 0xFFFFFFFF
    let director := begin data (UInt64.ofNat seed)
    match ← run (← stdConsole) o.ticks.toNat (opening director) director with
    | none => return 0
    | some (.overflow e) => do
      IO.eprintln e.message
      return 101
    | some .nesting => do
      IO.eprintln "events call each other without end"
      return 134

end EventScript.Terminal

open EventScript.Terminal in
/-- Runs the program on its command line. -/
def main (args : List String) : IO UInt32 := do
  match Invocation.ofArguments args with
  | .play o => play o
  | .help => do
    IO.print usage
    return 0
  | .version => do
    IO.println "eventscript 0.3.0"
    return 0
  | .refused => do
    IO.eprint usage
    return 2
