import EventScript.Json.Form
import EventScript.LoadError

/-!
# Limits

The limits under which events run. Every one has a default, so a database may give some of them
or none.
-/

namespace EventScript

/-- The limits of a game. -/
structure Config where
  /-- Commands that one update may run before it hands over to the next. -/
  maxIterations : UInt64 := 100
  /-- Depth of calls past which a warning is given. -/
  depthWarning : UInt32 := 100
  variableMin : Number := -9999999
  variableMax : Number := 9999999
  goldMax : Number := 999999
  itemMax : Number := 99
  levelMax : Number := 99
  expMax : Number := 999999
  partyMax : UInt64 := 4
  /-- Ticks per second. -/
  fps : UInt32 := 60
  deriving DecidableEq, Inhabited

namespace Config

/-- Whether the limits can be played under; the first that fails is reported. -/
def validate (c : Config) : Except LoadError Unit :=
  if c.maxIterations = 0 then
    .error { cause := .invalidConfig, text := "max_iterations must be positive" }
  else if c.variableMax < c.variableMin then
    .error { cause := .invalidConfig, text := "variable_min exceeds variable_max" }
  else if c.fps = 0 then
    .error { cause := .invalidConfig, text := "fps must be positive" }
  else if c.partyMax = 0 then
    .error { cause := .invalidConfig, text := "party_max must be positive" }
  else .ok ()

/-- The ticks in a number of tenths of a second; there are none in a negative number. -/
def ticks (c : Config) (tenths : Number) : Except Overflow UInt32 := do
  let total ← Checked.mul (UInt32.ofNat tenths.toInt.toNat) c.fps
  return total / 10

/-- The fields of the limits in their fixed order. -/
def fieldNames : List String :=
  ["max_iterations", "depth_warning", "variable_min", "variable_max", "gold_max", "item_max",
    "level_max", "exp_max", "party_max", "fps"]

instance : JsonForm Config where
  write c := JsonForm.record fieldNames [
    JsonForm.write c.maxIterations, JsonForm.write c.depthWarning,
    JsonForm.write c.variableMin, JsonForm.write c.variableMax,
    JsonForm.write c.goldMax, JsonForm.write c.itemMax,
    JsonForm.write c.levelMax, JsonForm.write c.expMax,
    JsonForm.write c.partyMax, JsonForm.write c.fps]
  read? j := do
    let fs ← JsonForm.fields? fieldNames j
    let d : Config := {}
    some {
      maxIterations := ← fs.get "max_iterations" d.maxIterations
      depthWarning := ← fs.get "depth_warning" d.depthWarning
      variableMin := ← fs.get "variable_min" d.variableMin
      variableMax := ← fs.get "variable_max" d.variableMax
      goldMax := ← fs.get "gold_max" d.goldMax
      itemMax := ← fs.get "item_max" d.itemMax
      levelMax := ← fs.get "level_max" d.levelMax
      expMax := ← fs.get "exp_max" d.expMax
      partyMax := ← fs.get "party_max" d.partyMax
      fps := ← fs.get "fps" d.fps }

end Config

end EventScript
