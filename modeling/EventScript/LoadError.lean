import EventScript.Checked

/-!
# Errors

What keeps an event database from being loaded or played. An error has a cause, may name the
record it stands at, and may carry a text.
-/

namespace EventScript

/-- Why a database is refused. -/
inductive ErrorCause
  | fileNotFound
  | malformedDatabase
  | duplicateId
  | undefinedMap
  | undefinedEvent
  | invalidConfig
  | ioError
  | internalError
  deriving DecidableEq, Repr

namespace ErrorCause

/-- The number of a cause. -/
def code : ErrorCause → Nat
  | fileNotFound => 1
  | malformedDatabase => 2
  | duplicateId => 3
  | undefinedMap => 4
  | undefinedEvent => 5
  | invalidConfig => 6
  | ioError => 7
  | internalError => 51

def heading : ErrorCause → String
  | fileNotFound => "FILE NOT FOUND"
  | malformedDatabase => "MALFORMED DATABASE"
  | duplicateId => "DUPLICATE ID"
  | undefinedMap => "UNDEFINED MAP"
  | undefinedEvent => "UNDEFINED EVENT"
  | invalidConfig => "INVALID CONFIG"
  | ioError => "I/O ERROR"
  | internalError => "INTERNAL ERROR"

end ErrorCause

/-- An error with what is known about it. -/
structure LoadError where
  cause : ErrorCause
  event : Option Number := none
  text : String := ""
  deriving DecidableEq, Repr

namespace LoadError

/-- What follows the heading. -/
def details (e : LoadError) : String :=
  (match e.event with
    | some id => " EVENT " ++ toString id.toInt
    | none => "") ++
  (if e.text = "" then "" else "; " ++ e.text)

/-- The error on one line. -/
def message (e : LoadError) : String :=
  if e.details = "" then e.cause.heading else e.cause.heading ++ " IN" ++ e.details

end LoadError

end EventScript
