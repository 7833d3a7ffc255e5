import EventScript.Director.Basic

/-!
# Answers to requests

The director stops where an event asks for something: that a message is read, that a choice or a
number is given, that goods are bought, that a name is entered. Here is how each is answered.
-/

namespace EventScript.Director

open Act

/-- The player checks an event; it is told whether the event can be started. -/
def talkTo (id : Number) : Directing Bool := do
  let g ← getGame
  setGame { g with field := g.field.setOff id }
  return g.field.canStart id

/-- Drops what the root runs and releases its event. -/
def abandon : Directing Unit := do
  warn .interrupted
  let d ← get
  let owner := d.root.frame.owner
  modify fun d => { d with root := .idle .field 0 true }
  modifyGame fun g => { g with
    message := g.message.close
    field := if 0 < owner then g.field.release owner else g.field }

/-- Closes the message window, with a choice if one is made. -/
def dismiss (choice : Option Number) : Directing Unit :=
  modifyGame fun g =>
    { g with message :=
      { g.message with choiceResult := choice.getD g.message.choiceResult }.close }

/-- Gives the number that is asked for and closes the message window. -/
def enterNumber (value : Number) : Directing Unit := do
  let g ← getGame
  setVariable g.message.numberVariable value
  needRefresh
  modifyGame fun g => { g with message := g.message.close }

/-- What is bought: an item and how often. -/
structure Purchase where
  item : Number
  count : Number
  deriving DecidableEq

/-- Buys an item at the price of the database, and tells whether it was bought. What the party
cannot pay for is not bought. -/
def buy (p : Purchase) : Directing Bool := do
  let d ← get
  match d.data.item? p.item with
  | none => do
    warn .shopItemNotFound
    return false
  | some item => do
    let price ← check (Checked.mul item.price p.count)
    let g ← getGame
    if p.count ≤ 0 || g.party.gold < price then return false
    giveGold (← check (Checked.neg price))
    giveItem p.item p.count
    return true

/-- Ends a visit to a shop after some purchases. -/
def leaveShop (purchases : List Purchase) : Directing Unit := do
  let bought ← purchases.mapM buy
  modifyGame fun g => { g with
    scene := { g.scene with shopTransaction := bought.any id, shopCalling := false } }

/-- Gives the name that is asked for. -/
def giveName (name : String) : Directing Unit := do
  let g ← getGame
  let id := g.scene.name.actorId
  if !g.actors.contains id then warn .nameOfUnknownActor
  setGame { g with
    actors := g.actors.modify id fun a => { a with name }
    scene := { g.scene with nameCalling := false } }

/-- Comes back from the menu or from saving, which is counted. -/
def leaveMenu : Directing Unit := do
  let g ← getGame
  let saveCount ← if g.scene.saveCalling then check (Checked.add g.party.saveCount 1)
    else pure g.party.saveCount
  setGame { g with
    party := { g.party with saveCount }
    scene := { g.scene with menuCalling := false, saveCalling := false } }

end EventScript.Director
