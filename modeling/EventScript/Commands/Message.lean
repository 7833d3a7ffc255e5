import EventScript.Commands.Operand

/-!
# Commands of the message window

Showing text, offering choices and asking for a number. A message takes the choice or the number
that stands right behind it into its own window, where there is room.
-/

namespace EventScript.Commands

open Act

/-- Changes the message window. -/
def modifyMessage (f : Message → Message) : Act Unit :=
  modifyGame fun g => { g with message := f g.message }

/-- Shows a text with the lines that continue it, and what it asks for. -/
def showMessage (f : Frame) (c : Command) : Act Outcome := do
  let g ← getGame
  if g.message.waiting then return .retry
  let lines := Blocks.continuedLines f.commands (f.pc + 1)
  let texts := c.text :: lines
  let last := f.pc + lines.length
  modifyMessage fun m => (texts.foldl Message.addLine m.clear).present
  match f.commands[last + 1]? with
  | none => return .next last
  | some following => match following.opcode with
    | .shared .showChoice => do
      let choices := Blocks.optionTexts f.commands (last + 2) following.indent
      if choices.length + texts.length ≤ windowHeight then
        modifyMessage fun m => m.offer choices (following.param 0)
        return .await (last + 1) .choice
      return .next last
    | .shared .inputNumber => do
      if texts.length < windowHeight then
        modifyMessage fun m => m.requestNumber (following.param 1) (following.param 0)
        return .next (last + 1)
      return .next last
    | _ => return .next last

/-- Changes how the window is shown. -/
def messageOptions (f : Frame) (c : Command) : Act Outcome := do
  modifyMessage fun m => { m with
    options := {
      transparent := c.flag 0
      position := c.param 1
      fixedPosition := !c.flag 2
      continueEvents := c.flag 3 } }
  return .next f.pc

/-- Changes the face beside the text. -/
def changeFace (f : Frame) (c : Command) : Act Outcome := do
  let g ← getGame
  if g.message.waiting then return .retry
  modifyMessage fun m => { m with
    face := { name := c.text, index := c.param 0, right := c.flag 1, flipped := c.flag 2 } }
  return .next f.pc

/-- Offers the choices of a block. -/
def showChoice (f : Frame) (c : Command) : Act Outcome := do
  let g ← getGame
  if g.message.waiting then return .retry
  let choices := Blocks.optionTexts f.commands (f.pc + 1) c.indent
  modifyMessage fun m => (m.clear.offer choices (c.param 0)).present
  return .await f.pc .choice

/-- Asks for a number. -/
def inputNumber (f : Frame) (c : Command) : Act Outcome := do
  let g ← getGame
  if g.message.waiting then return .retry
  modifyMessage fun m => (m.clear.requestNumber (c.param 1) (c.param 0)).present
  return .next f.pc

/-- The place of the option with a number among the commands left, of which the first stands at
`i`, or of the end of the choice if it comes first. -/
def findOption (indent result : Number) : Nat → List Command → Option Nat
  | _, [] => none
  | i, c :: cs =>
    if c.indent < indent then none
    else if indent < c.indent then findOption indent result (i + 1) cs
    else if c.code = SharedOp.showChoiceEnd.code then some i
    else if c.code = SharedOp.showChoiceOption.code ∧ c.param 0 = result then some i
    else findOption indent result (i + 1) cs

/-- Goes to the option that was chosen, or past the choice. -/
def takeChoice (f : Frame) : Act Outcome := do
  let g ← getGame
  match f.commands[f.pc]? with
  | none => return .next f.pc
  | some c =>
    let option :=
      findOption c.indent g.message.choiceResult (f.pc + 1) (f.commands.drop (f.pc + 1))
    return .next (option.getD f.pc)

end EventScript.Commands
