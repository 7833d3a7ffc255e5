import EventScript.Commands.Operand

/-!
# The command of the keys

A command asks which of some keys is down, or waits until one is hit. Its parameters come in three
layouts, which differ in length, and the key with the highest number counts.
-/

namespace EventScript.Commands

open Act

/-- The keys that a command asks for. -/
structure KeySelection where
  down : Bool := false
  left : Bool := false
  right : Bool := false
  up : Bool := false
  decision : Bool := false
  cancel : Bool := false
  shift : Bool := false
  digits : Bool := false
  arithmetic : Bool := false
  deriving DecidableEq

/-- The keys that the parameters of a command switch on. -/
def keySelection (c : Command) : KeySelection :=
  let decision := c.flag 3
  let cancel := c.flag 4
  if c.params.length < 6 then
    let arrows := c.flag 2
    { down := arrows, left := arrows, right := arrows, up := arrows, decision, cancel }
  else if c.params.length < 11 then
    { down := c.flag 6, left := c.flag 7, right := c.flag 8, up := c.flag 9, decision, cancel,
      shift := c.flag 5 }
  else
    { down := c.flag 10, left := c.flag 11, right := c.flag 12, up := c.flag 13, decision, cancel,
      shift := c.flag 9, digits := c.flag 5, arithmetic := c.flag 6 }

/-- The variable for the time, which only the longest layout has. -/
def timeTarget (c : Command) : Option Number :=
  if 11 ≤ c.params.length && c.flag 8 then some (c.param 7) else none

/-- The keys of the digits, the highest first. -/
def digitKeys : List Key :=
  [.digit 9, .digit 8, .digit 7, .digit 6, .digit 5, .digit 4, .digit 3, .digit 2, .digit 1,
    .digit 0]

/-- The keys of arithmetic, the one with the highest number first. -/
def arithmeticKeys : List Key := [.period, .divide, .multiply, .minus, .plus]

/-- The keys of a selection, the one with the highest number first. -/
def KeySelection.keys (s : KeySelection) : List Key :=
  let groups : List (Bool × List Key) :=
    [(s.arithmetic, arithmeticKeys), (s.digits, digitKeys), (s.shift, [.shift]),
      (s.cancel, [.cancel]), (s.decision, [.decision]), (s.up, [.up]), (s.right, [.right]),
      (s.left, [.left]), (s.down, [.down])]
  groups.flatMap fun (chosen, keys) => if chosen then keys else []

/-- Asks which key is down, or starts to wait for one. -/
def captureKey (env : Env) (f : Frame) (c : Command) : Act Outcome := do
  let keys := (keySelection c).keys
  if c.flag 1 then
    setVariable (c.param 0) 0
    return .capture { target := c.param 0, timeTarget := timeTarget c, keys, polls := 0 }
  let key := keys.find? fun k => env.host.pressed.contains k
  setVariable (c.param 0) ((key.map Key.code).getD 0)
  needRefresh
  return .next f.pc

/-- Looks at the keys that a command waits for. The first look never counts; what is left to wait
for is given back. -/
def pollKeys (env : Env) (k : KeyCapture) : Act (Option KeyCapture) := do
  let polls ← check (Checked.add k.polls 1)
  let waiting := some { k with polls }
  if polls = 1 then return waiting
  match k.keys.find? fun key => env.host.triggered.contains key with
  | none => return waiting
  | some key => do
    setVariable k.target key.code
    match k.timeTarget with
    | none => pure ()
    | some target => do
      let tenfold ← check (Checked.mul (polls - 1) 10)
      setVariable target (tenfold / max env.data.config.fps 1).toInt32
    needRefresh
    return none

end EventScript.Commands
