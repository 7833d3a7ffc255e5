import EventScript.Checked

/-!
# The message window

What the window shows and what it asks for. An event fills the window and waits; the player reads
it, chooses or types a number, and the window closes.
-/

namespace EventScript

/-- The most lines that the window shows at once. -/
def windowHeight : Nat := 4

/-- How the window is shown. -/
structure WindowOptions where
  transparent : Bool := false
  /-- 0 at the top, 1 in the middle, 2 at the bottom. -/
  position : Number := 2
  fixedPosition : Bool := false
  continueEvents : Bool := false
  deriving DecidableEq

/-- The face beside the text. -/
structure Face where
  name : String := ""
  index : Number := 0
  right : Bool := false
  flipped : Bool := false
  deriving DecidableEq

/-- The window. -/
structure Message where
  texts : List String := []
  /-- The line where the choices begin, if there are choices. -/
  choiceStart : Option Nat := none
  choiceMax : Nat := 0
  choiceDisabled : List Bool := []
  /-- 0 forbids to cancel, 1 to 4 take that choice, 5 takes the branch for cancelling. -/
  choiceCancelType : Number := 0
  choiceResult : Number := 0
  /-- The line where the number is typed, if one is asked for. -/
  numberStart : Option Nat := none
  numberVariable : Number := 0
  numberDigits : Number := 0
  waiting : Bool := false
  visible : Bool := false
  options : WindowOptions := {}
  face : Face := {}
  deriving DecidableEq

namespace Message

/-- Takes away the lines and what was asked for; the last answer stays. -/
def clear (m : Message) : Message :=
  { m with
    texts := []
    choiceStart := none
    choiceMax := 0
    choiceDisabled := []
    choiceCancelType := 0
    numberStart := none
    numberVariable := 0
    numberDigits := 0 }

/-- Adds a line. -/
def addLine (m : Message) (line : String) : Message := { m with texts := m.texts ++ [line] }

/-- Whether the window asks for a choice. -/
def offersChoices (m : Message) : Bool := m.choiceStart.isSome

/-- Asks for a choice below the lines that are there. -/
def offer (m : Message) (choices : List String) (cancelType : Number) : Message :=
  { m with
    texts := m.texts ++ choices
    choiceStart := some m.texts.length
    choiceMax := choices.length
    choiceDisabled := List.replicate choices.length false
    choiceCancelType := cancelType }

/-- The choices that the window shows. -/
def choices (m : Message) : List String :=
  match m.choiceStart with
  | some start => m.texts.drop start
  | none => []

/-- Asks for a number below the lines that are there. -/
def requestNumber (m : Message) (target digits : Number) : Message :=
  { m with
    numberStart := some m.texts.length
    numberVariable := target
    numberDigits := digits }

/-- Shows the window and lets the events wait for it. -/
def present (m : Message) : Message := { m with waiting := true, visible := true }

/-- Closes the window. -/
def close (m : Message) : Message := { m with waiting := false, visible := false }.clear

end Message

end EventScript
