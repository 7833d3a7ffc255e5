import EventScript.Director.Lead
import EventScript.Terminal.Line
import EventScript.Text.Words

/-!
# Questions to the player

Whenever the director stops, the terminal shows why, and most of the time it asks the player
something.

* `Question` is what the player can be asked.
* `present` shows why the director stopped.
* `answer` does with a typed line what the question calls for.
-/

namespace EventScript.Terminal

open Act Director

/-- What the player is asked. -/
inductive Question
  /-- What to do while nothing runs. -/
  | command
  /-- Which choice to take. -/
  | choice
  | number (digits : Nat)
  /-- To turn the page. -/
  | page
  /-- What else to buy, after some purchases. -/
  | purchase (chosen : List Purchase)
  /-- For a name; an empty line keeps the current one. -/
  | name (current : String)
  /-- How the battle goes on. -/
  | turn
  deriving DecidableEq

/-- The words before the cursor. -/
def Question.prompt : Question → String
  | command => "> "
  | choice => "? "
  | number digits => "(" ++ toString digits ++ " digits) "
  | page => ""
  | purchase _ => "buy ITEM COUNT (empty to leave): "
  | name current => "Name [" ++ current ++ "]: "
  | turn => "[n]ext turn, [w]in, [e]scape, [l]ose: "

/-- What follows. -/
inductive Next
  /-- The game goes on. -/
  | resume
  | ask (q : Question)
  | quit
  deriving DecidableEq

/-- What is shown, and what follows. -/
structure Reply where
  lines : List Line := []
  next : Next
  deriving DecidableEq

/-- Shows nothing and lets the game go on. -/
def Reply.resume : Reply := { next := .resume }

/-- Shows lines and asks. -/
def Reply.ask (lines : List Line) (q : Question) : Reply := { lines, next := .ask q }

/-- A number on a line. -/
def numeral (n : Number) : String := toString n.toInt

/-! ## Showing why the game stopped -/

/-- The lines of the message window that stand above its choices or its number. -/
def body (m : Message) : List Line :=
  (m.texts.take ((m.choiceStart <|> m.numberStart).getD m.texts.length)).map .plain

/-- The choices with their numbers, counted from one. -/
def choiceLines (m : Message) : List Line :=
  m.choices.zipIdx.map fun (text, k) =>
    let text := "  " ++ toString (k + 1) ++ ") " ++ text
    if m.choiceDisabled.getD k false then .dim text else .plain text

/-- Shows the message window. -/
def presentMessage (m : Message) : Reply :=
  if m.offersChoices then .ask (body m ++ choiceLines m) .choice
  else if m.numberStart.isSome then
    .ask (body m) (.number (max m.numberDigits 1).toInt.toNat)
  else .ask (body m) .page

/-- The goods of a shop with their prices. -/
def goodsLine (d : Database) (id : Number) : Line :=
  let label := "  " ++ Text.alignRight 4 (numeral id)
  match d.item? id with
  | some item =>
    .plain (label ++ " " ++ item.name ++ " " ++ numeral item.price ++ " " ++ d.terms.gold)
  | none => .dim (label ++ " ?")

/-- Shows a shop. Where nothing can be bought, the visit is over at once. -/
def presentShop : Directing Reply := do
  let d ← get
  let shop := d.game.scene.shop
  let lines := .bold "SHOP" :: shop.goods.map (goodsLine d.data)
  if shop.buys then return .ask lines (.purchase [])
  leaveShop []
  return { lines, next := .resume }

/-- An enemy with its number and its hit points. -/
def enemyLine (e : Enemy) (k : Nat) : Line :=
  .plain ("  " ++ toString k ++ ": " ++ e.name ++ " HP " ++ numeral e.vitals.hp ++ "/" ++
    numeral e.vitals.maxHp)

/-- The enemies that are seen. -/
def enemyLines (t : Troop) : List Line :=
  (t.enemies.zipIdx.filter fun e => !e.1.hidden).map fun e => enemyLine e.1 e.2

/-- Shows that a battle begins. -/
def presentBattle : Directing Reply := do
  openBattle
  let g ← getGame
  let names := ((g.troop.map (·.enemies)).getD []).map (·.name)
  return { lines := [.bold ("BATTLE: " ++ ", ".intercalate names)], next := .resume }

/-- Asks for the name of the actor who is to be named. -/
def presentName (g : Game) : Reply :=
  .ask [] (.name (((g.actors.get? g.scene.name.actorId).map (·.name)).getD ""))

/-- Shows why the director stopped. -/
def present : Stop → Directing Reply
  | .running => return .resume
  | .idle => return .ask [] .command
  | .message => return presentMessage (← getGame).message
  | .shop => presentShop
  | .battle => presentBattle
  | .battleTurn => do
    let g ← getGame
    return .ask ((g.troop.map enemyLines).getD []) .turn
  | .enterName => return presentName (← getGame)
  | .menu => do
    leaveMenu
    return { lines := [.dim "(menu)"], next := .resume }
  | .save => do
    leaveMenu
    return { lines := [.dim "(saved)"], next := .resume }
  | .title => return { lines := [.bold "RETURN TO TITLE"], next := .quit }
  | .gameOver => return { lines := [.bold "GAME OVER"], next := .quit }

/-! ## Answers -/

/-- An event with its place and its page. -/
def eventLine (e : Character) : Line :=
  .plain (Text.alignRight 4 (numeral e.id) ++ " (" ++ numeral e.x ++ "," ++ numeral e.y ++
    ") page " ++ numeral e.page)

/-- An actor with level and hit points. -/
def actorLine (a : Actor) : Line :=
  .plain (a.name ++ " Lv" ++ numeral a.level ++ " HP " ++ numeral a.vitals.hp ++ "/" ++
    numeral a.vitals.maxHp)

/-- Does what the player says while nothing runs. -/
def answerCommand (line : String) : Directing Reply := do
  let d ← get
  let g := d.game
  let again (lines : List Line) : Reply := .ask lines .command
  let words := Text.words line
  match words.head?, (words[1]?.bind Text.number? : Option Number) with
  | none, _ => return .resume
  | some "talk", some id =>
    return if ← talkTo id then .resume else again [.dim "nobody answers"]
  | some "wait", _ => return .resume
  | some "events", _ => return again (g.field.events.values.map eventLine)
  | some "party", _ =>
    return again (g.companions.map actorLine ++
      [.plain (numeral g.party.gold ++ " " ++ d.data.terms.gold)])
  | some "var", some id => return again [.plain (numeral (g.vars.get id))]
  | some "switch", some id => return again [.plain (toString (g.switches.get id))]
  | some "quit", _ => return { next := .quit }
  | _, _ =>
    return again [.dim "talk N | wait | events | party | var N | switch N | quit"]

/-- Asks again for a number. -/
def askNumber (q : Question) : Reply := .ask [.dim "a number, please"] q

/-- The choice that cancelling takes, by the way in which the window can be cancelled. -/
def cancelChoice (cancelType : Number) : Number :=
  if cancelType = 5 then 4 else cancelType - 1

/-- Whether a choice, counted from zero, can be taken. -/
def usable (m : Message) (choice : Number) : Bool :=
  match Number.index? choice with
  | some k => k < m.choiceMax && !m.choiceDisabled.getD k false
  | none => false

/-- Takes a choice by its number, or cancels with zero. -/
def answerChoice (n : Number) : Directing Reply := do
  let m := (← getGame).message
  if n = 0 && 0 < m.choiceCancelType then
    dismiss (some (cancelChoice m.choiceCancelType))
    return .resume
  let choice ← check (Checked.sub n 1)
  if usable m choice then
    dismiss (some choice)
    return .resume
  return .ask [.dim "not a choice"] .choice

/-- The largest number that is taken for some digits; past nine digits it is one below the largest
number that scripts have. -/
def largest (digits : Nat) : Number :=
  if digits < 10 then Int32.ofNat (Nat.pow 10 digits - 1) else 2147483646

/-- Gives a number, brought into the range of its digits. -/
def answerNumber (digits : Nat) (n : Number) : Directing Reply := do
  enterNumber (Number.clamp 0 (largest digits) n)
  return .resume

/-- The purchase that numbers on a line stand for: an item that is for sale, and how often. -/
def purchase? (goods : List Number) : List Number → Option Purchase
  | [item] => if goods.contains item then some { item, count := 1 } else none
  | [item, count] => if goods.contains item then some { item, count } else none
  | _ => none

/-- Adds a purchase to those before it; an empty line buys them all. -/
def answerPurchase (chosen : List Purchase) (line : String) : Directing Reply := do
  if line = "" then
    leaveShop chosen
    return .resume
  let goods := (← getGame).scene.shop.goods
  match purchase? goods ((Text.words line).filterMap Text.number?) with
  | some p => return .ask [] (.purchase (chosen ++ [p]))
  | none => return .ask [.dim "not for sale"] (.purchase chosen)

/-- Leads the battle on. -/
def answerTurn (line : String) : Directing Reply := do
  match line with
  | "n" => passTurn
  | "w" => settleBattle .victory
  | "e" => settleBattle .escape
  | "l" => settleBattle .defeat
  | _ => return .ask [] .turn
  return .resume

/-- Does with a line, free of the blanks at its ends, what the question calls for. -/
def answer (q : Question) (line : String) : Directing Reply :=
  match q with
  | .command => answerCommand line
  | .choice => match Text.number? line with
    | some n => answerChoice n
    | none => return askNumber q
  | .number digits => match Text.number? line with
    | some n => answerNumber digits n
    | none => return askNumber q
  | .page => do
    dismiss none
    return .resume
  | .purchase chosen => answerPurchase chosen line
  | .name current => do
    giveName (if line = "" then current else line)
    return .resume
  | .turn => answerTurn line

end EventScript.Terminal
