import EventScript.Text.Quoted

/-!
# Lines on the terminal
-/

namespace EventScript.Terminal

/-- How a line is shown. -/
inductive Style
  | plain
  | bold
  | dim
  deriving DecidableEq, Repr

/-- A line that is shown. -/
structure Line where
  style : Style
  text : String
  deriving DecidableEq, Repr

namespace Line

def plain (text : String) : Line := { style := .plain, text }

/-- A line that stands out. -/
def bold (text : String) : Line := { style := .bold, text }

/-- A line that stands back. -/
def dim (text : String) : Line := { style := .dim, text }

/-- The characters that show a line in its style. -/
def render (l : Line) : String :=
  match l.style with
  | .plain => l.text
  | .bold => "\x1b[1m" ++ l.text ++ "\x1b[0m"
  | .dim => "\x1b[2m" ++ l.text ++ "\x1b[0m"

end Line

end EventScript.Terminal
