import EventScript.Database.Validation
import EventScript.Text.Words

/-!
# The command line

The command line names a database and may set the ticks between two looks at the terminal and the
ticks per second. Arguments are read from left to right, and the first one that asks for help or
cannot be read decides.
-/

namespace EventScript.Terminal

/-- How a game is played. -/
structure Options where
  /-- The path of the database. -/
  database : String
  /-- The ticks between two looks at the terminal. -/
  ticks : UInt64 := 600
  /-- The ticks per second, in place of those of the database. -/
  fps : Option UInt32 := none
  deriving DecidableEq, Repr

/-- What a command line asks for. -/
inductive Invocation
  | play (o : Options)
  | help
  | version
  /-- The command line cannot be read. -/
  | refused
  deriving DecidableEq, Repr

/-- What was read of a command line so far. -/
structure Given where
  database : Option String := none
  ticks : Option UInt64 := none
  fps : Option UInt32 := none
  deriving DecidableEq, Repr

namespace Given

/-- Takes a path; there is only one, and it is not empty. -/
def takePath (g : Given) (path : String) : Option Given :=
  if path = "" || g.database.isSome then none else some { g with database := some path }

/-- Takes an option by its name, each at most once. Ticks carry no minus, even before zero. -/
def takeOption (g : Given) (name value : String) : Option Given :=
  match name with
  | "ticks" =>
    if g.ticks.isSome || value.startsWith "-" then none
    else (Text.number? value).map fun n => { g with ticks := some n }
  | "fps" =>
    if g.fps.isSome then none
    else (Text.number? value).map fun n => { g with fps := some n }
  | _ => none

/-- What a command line asks for that is read to its end. -/
def finish (g : Given) : Invocation :=
  match g.database with
  | some database => .play { database, ticks := g.ticks.getD 600, fps := g.fps }
  | none => .refused

end Given

/-- How an argument is to be read. -/
inductive Argument
  /-- Everything after it is a path. -/
  | onlyPaths
  | help
  | version
  | path (p : String)
  /-- An option with its value, or one whose value is the next argument. -/
  | option (name : String) (value : Option String)
  /-- Something that no option is called. -/
  | unknown
  deriving DecidableEq, Repr

/-- The name of a long option and what stands after its equals sign. -/
def splitOption (cs : List Char) : String × Option String :=
  (String.ofList (cs.takeWhile (· ≠ '=')),
    match cs.dropWhile (· ≠ '=') with
    | [] => none
    | _ :: value => some (String.ofList value))

/-- Tells what an argument is. A single dash is a path. -/
def Argument.ofText (s : String) : Argument :=
  match s.toList with
  | '-' :: '-' :: [] => .onlyPaths
  | '-' :: '-' :: cs =>
    match splitOption cs with
    | ("help", none) => .help
    | ("version", none) => .version
    | ("ticks", value) => .option "ticks" value
    | ("fps", value) => .option "fps" value
    | _ => .unknown
  | '-' :: 'h' :: _ => .help
  | '-' :: 'V' :: _ => .version
  | '-' :: _ :: _ => .unknown
  | _ => .path s

/-- Reads paths to the end. -/
def readPaths (g : Given) : List String → Invocation
  | [] => g.finish
  | p :: rest => match g.takePath p with
    | some g => readPaths g rest
    | none => .refused

/-- Reads a command line after what was read before it. -/
def readArguments (g : Given) : List String → Invocation
  | [] => g.finish
  | s :: rest =>
    match Argument.ofText s, rest with
    | .onlyPaths, rest => readPaths g rest
    | .help, _ => .help
    | .version, _ => .version
    | .unknown, _ => .refused
    | .path p, rest => match g.takePath p with
      | some g => readArguments g rest
      | none => .refused
    | .option name (some value), rest => match g.takeOption name value with
      | some g => readArguments g rest
      | none => .refused
    | .option _ none, [] => .refused
    | .option name none, value :: rest =>
      match Argument.ofText value, g.takeOption name value with
      | .path _, some g => readArguments g rest
      | _, _ => .refused

/-- What a command line asks for. -/
def Invocation.ofArguments (args : List String) : Invocation := readArguments {} args

/-- The database as the options want it played. -/
def Options.apply (o : Options) (d : Database) : Except LoadError Database :=
  match o.fps with
  | none => .ok d
  | some fps =>
    if fps = 0 then .error { cause := .invalidConfig, text := "--fps must be positive" }
    else .ok { d with config := { d.config with fps } }

end EventScript.Terminal
