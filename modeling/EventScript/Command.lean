import EventScript.Json.Form
import EventScript.Opcode
import EventScript.Text.Quoted

/-!
# Commands

An event is a flat list of commands. Nesting is positional: a command that opens a block owns the
commands that follow at a deeper indent, up to the command at its own indent that ends the block.
-/

namespace EventScript

/-- One instruction of an event. -/
structure Command where
  code : Number
  indent : Number := 0
  text : String := ""
  params : List Number := []
  deriving DecidableEq, Inhabited

namespace Command

def opcode (c : Command) : Opcode := Opcode.ofCode c.code

/-- A parameter; one that is missing reads as zero. -/
def param (c : Command) (i : Nat) : Number := c.params.getD i 0

/-- A parameter as a plain integer, to tell apart the modes of a command. -/
def mode (c : Command) (i : Nat) : Int := (c.param i).toInt

def flag (c : Command) (i : Nat) : Bool := c.param i ≠ 0

/-- One line that shows the command: two blanks per indent, the name of its operation, then the
parameters and the text where there are any. -/
def render (c : Command) : String :=
  String.ofList (List.replicate (2 * c.indent.toInt.toNat) ' ') ++ c.opcode.name ++
    (if c.params = [] then ""
      else " [" ++ ",".intercalate (c.params.map fun p => toString p.toInt) ++ "]") ++
    (if c.text = "" then "" else " " ++ Text.quoted c.text)

/-- The fields of a command in their fixed order. -/
def fieldNames : List String := ["code", "indent", "text", "params"]

instance : JsonForm Command where
  write c := .obj (
    [("code", JsonForm.write c.code), ("indent", JsonForm.write c.indent)] ++
    (if c.text = "" then [] else [("text", JsonForm.write c.text)]) ++
    [("params", JsonForm.write c.params)])
  read? j := do
    let fs ← JsonForm.fields? fieldNames j
    some {
      code := ← fs.require "code"
      indent := ← fs.get "indent" 0
      text := ← fs.get "text" ""
      params := ← fs.get "params" [] }

end Command

end EventScript
