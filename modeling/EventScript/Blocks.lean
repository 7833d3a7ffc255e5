import EventScript.Command

/-!
# Finding the way through a list of commands

Blocks are found by scanning indents and codes.

* `seek` looks forward for the end of a block, over the blocks nested in it.
* `loopBefore` looks backward for the command that opened a loop.
* `landing` says where a command lands that jumps past the end of its block.
* `Landings.ofCommands` computes all landings and the first place of every label once for a list.
-/

namespace EventScript.Blocks

/-- The scan of `seek` over the commands that are left, the first of which stands at `i`. -/
def scanForward (target alt : Number) (low high : Number) : Nat → List Command → Option Nat
  | _, [] => none
  | i, c :: cs =>
    if c.indent < low then none
    else if high < c.indent then scanForward target alt low high (i + 1) cs
    else if c.code = target ∨ c.code = alt then some i
    else scanForward target alt low high (i + 1) cs

/-- The first place from `start` on that holds one of two codes. Commands indented deeper than
`high` are passed over, and one indented less than `low` ends the search. -/
def seek (cs : List Command) (start : Nat) (target alt : Number) (low high : Number) :
    Option Nat :=
  scanForward target alt low high start (cs.drop start)

/-- The scan of `loopBefore` over a list read backward, whose head stands at one below `i`. -/
def scanBackward (indent : Number) : Nat → List Command → Option Nat
  | _, [] => none
  | i, c :: cs =>
    if c.indent < indent then none
    else if c.indent = indent ∧ c.code = SharedOp.loop.code then some (i - 1)
    else scanBackward indent (i - 1) cs

/-- The last loop command at an indent before `start`. A command indented less ends the search. -/
def loopBefore (cs : List Command) (start : Nat) (indent : Number) : Option Nat :=
  let before := cs.take start
  scanBackward indent before.length before.reverse

def isLabel (id : Number) (c : Command) : Bool :=
  c.code = SharedOp.label.code && c.param 0 = id

/-- The first label with an id, at whatever depth. -/
def labelPlace (cs : List Command) (id : Number) : Option Nat :=
  cs.findIdx? (isLabel id)

/-- The texts of the options at an indent, up to the end of their block. -/
def scanOptions (indent : Number) : List Command → List String
  | [] => []
  | c :: cs =>
    if c.indent < indent then []
    else if c.indent ≠ indent then scanOptions indent cs
    else if c.code = SharedOp.showChoiceOption.code ∧ c.param 0 < 4 then
      c.text :: scanOptions indent cs
    else if c.code = SharedOp.showChoiceEnd.code then []
    else scanOptions indent cs

/-- The texts of the options of the choice that stands before `start`; only the first four numbers
are shown. -/
def optionTexts (cs : List Command) (start : Nat) (indent : Number) : List String :=
  scanOptions indent (cs.drop start)

/-- The texts of the lines that continue the message before `start`. -/
def continuedLines (cs : List Command) (start : Nat) : List String :=
  ((cs.drop start).takeWhile fun c => c.code = SharedOp.messageLine.code).map (·.text)

/-- Where the command at an index lands when it jumps past the end of its block, or back to the
start of its loop. -/
def landing (cs : List Command) (i : Nat) : Except Overflow (Option Nat) :=
  match cs[i]? with
  | none => .ok none
  | some c =>
    let sibling (target alt : Number) := seek cs (i + 1) target alt c.indent c.indent
    match c.opcode with
    | .field .branch => .ok (sibling FieldOp.elseBranch.code FieldOp.endBranch.code)
    | .field .elseBranch => .ok (sibling FieldOp.endBranch.code FieldOp.endBranch.code)
    | .battle .branch => .ok (sibling BattleOp.elseBranch.code BattleOp.endBranch.code)
    | .battle .elseBranch => .ok (sibling BattleOp.endBranch.code BattleOp.endBranch.code)
    | .shared .showChoiceOption =>
      .ok (sibling SharedOp.showChoiceEnd.code SharedOp.showChoiceEnd.code)
    | .shared .breakLoop => do
      let outer ← Checked.sub c.indent 1
      return seek cs (i + 1) SharedOp.endLoop.code SharedOp.endLoop.code 0 outer
    | .shared .endLoop => .ok (loopBefore cs i c.indent)
    | .field .transaction | .field .noTransaction =>
      .ok (sibling FieldOp.endShop.code FieldOp.endShop.code)
    | .field .stay | .field .noStay => .ok (sibling FieldOp.endInn.code FieldOp.endInn.code)
    | .field .victoryHandler | .field .escapeHandler | .field .defeatHandler =>
      .ok (sibling FieldOp.endBattle.code FieldOp.endBattle.code)
    | _ => .ok none

end EventScript.Blocks

namespace EventScript

/-- The landings of a list of commands: for every index the place
where the command there lands, if it does, and for every label its first place. -/
structure Landings where
  places : List (Option Nat) := []
  labels : List (Number × Nat) := []
  deriving DecidableEq

namespace Landings

/-- The first place of every label among the commands left, the first of which stands at `i`. -/
def labelsFrom : Nat → List (Number × Nat) → List Command → List (Number × Nat)
  | _, known, [] => known
  | i, known, c :: cs =>
    if c.code = SharedOp.label.code ∧ (known.lookup (c.param 0)).isNone then
      labelsFrom (i + 1) (known ++ [(c.param 0, i)]) cs
    else labelsFrom (i + 1) known cs

def ofCommands (cs : List Command) : Except Overflow Landings := do
  let places ← (List.range cs.length).mapM (Blocks.landing cs)
  return { places, labels := labelsFrom 0 [] cs }

/-- Where the command at an index lands. -/
def landing? (t : Landings) (i : Nat) : Option Nat := t.places.getD i none

/-- The place of a label. -/
def label? (t : Landings) (id : Number) : Option Nat := t.labels.lookup id

/-- The number of commands that land somewhere. -/
def size (t : Landings) : Nat := t.places.countP (·.isSome)

end Landings

end EventScript
