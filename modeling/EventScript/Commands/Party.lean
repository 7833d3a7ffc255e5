import EventScript.Commands.Operand

/-!
# Commands of the party

Gold, items, members, and everything about actors: points, states, skills, equipment, looks.
-/

namespace EventScript.Commands

open Act

/-- Adds or takes gold. -/
def changeGold (f : Frame) (c : Command) : Act Outcome := do
  giveGold (← signedOperand (c.param 0) (c.param 1) (c.param 2))
  return .next f.pc

/-- Adds or takes an item. Adding never takes, and taking never adds. -/
def changeItems (f : Frame) (c : Command) : Act Outcome := do
  let value ← signedOperand (c.param 0) (c.param 3) (c.param 4)
  if (c.param 0 = 1 && 0 < value) || (c.param 0 ≠ 1 && value < 0) then return .next f.pc
  let item ← operand (c.param 1) (c.param 2)
  giveItem item value
  needRefresh
  return .next f.pc

/-- Takes an actor into the party or leaves one behind. -/
def changePartyMembers (f : Frame) (c : Command) : Act Outcome := do
  let id ← operand (c.param 1) (c.param 2)
  let g ← getGame
  if (g.actors.get? id).isNone then
    warn .invalidActor
    return .next f.pc
  modifyGame fun g => { g with
    party := if c.param 0 = 0 then g.party.join id else g.party.leave id }
  endIfFallen
  needRefresh
  return .next f.pc

/-- Changes the experience of actors. -/
def changeExp (env : Env) (f : Frame) (c : Command) : Act Outcome := do
  let value ← signedOperand (c.param 2) (c.param 3) (c.param 4)
  changeActors (c.param 0) (c.param 1) fun a => do
    return { a with exp := Number.clamp 0 env.data.config.expMax (← Checked.add a.exp value) }
  endIfFallen
  return .next f.pc

def changeLevel (env : Env) (f : Frame) (c : Command) : Act Outcome := do
  let value ← signedOperand (c.param 2) (c.param 3) (c.param 4)
  changeActors (c.param 0) (c.param 1) fun a => do
    return { a with level := Number.clamp 1 env.data.config.levelMax (← Checked.add a.level value) }
  endIfFallen
  return .next f.pc

/-- Adds to a parameter of an actor: maximal points, which bound the points, or an ability. -/
def addParameter (which : Int) (value : Number) (a : Actor) : Except Overflow Actor :=
  match which with
  | 0 => do
    let maxHp := max (← Checked.add a.vitals.maxHp value) 1
    return { a with vitals := { a.vitals with maxHp, hp := min a.vitals.hp maxHp } }
  | 1 => do
    let maxSp := max (← Checked.add a.vitals.maxSp value) 0
    return { a with vitals := { a.vitals with maxSp, sp := min a.vitals.sp maxSp } }
  | 2 => do return { a with attack := max (← Checked.add a.attack value) 1 }
  | 3 => do return { a with defense := max (← Checked.add a.defense value) 1 }
  | 4 => do return { a with spirit := max (← Checked.add a.spirit value) 1 }
  | 5 => do return { a with agility := max (← Checked.add a.agility value) 1 }
  | _ => .ok a

def changeParameters (f : Frame) (c : Command) : Act Outcome := do
  let value ← signedOperand (c.param 2) (c.param 4) (c.param 5)
  (← selectActors (c.param 0) (c.param 1)).forM fun id => do
    let g ← getGame
    if (g.actors.get? id).isSome && (c.param 3 < 0 || 5 < c.param 3) then warn .unknownParameter
    changeActor id (addParameter (c.mode 3) value)
  endIfFallen
  return .next f.pc

/-- Teaches a skill or lets it be forgotten. -/
def changeSkills (f : Frame) (c : Command) : Act Outcome := do
  let skill ← operand (c.param 3) (c.param 4)
  changeActors (c.param 0) (c.param 1) fun a => .ok { a with
    skills := if c.flag 2 then a.skills.erase skill else IdSet.add a.skills skill }
  return .next f.pc

/-- Puts an item into the slots of an actor, as long as the party carries it. Each item that is put
on leaves the inventory, and what was in the slot goes there. -/
def equipSlots (item : Number) (id : Number) : List Nat → Act Unit
  | [] => pure ()
  | slot :: slots => do
    let g ← getGame
    if 0 < item && g.party.held item = 0 then return ()
    match g.actors.get? id with
    | none => return ()
    | some a => do
      setGame { g with actors := g.actors.insert id (a.equip slot item) }
      if 0 < item then giveItem item (-1)
      let old := a.slotItem slot
      if 0 < old then giveItem old 1
      equipSlots item id slots

/-- Puts an item on in its slot, or empties one slot or all. -/
def changeEquipment (env : Env) (f : Frame) (c : Command) : Act Outcome := do
  let equip (item : Number) (slots : List Nat) : Act Outcome := do
    (← selectActors (c.param 0) (c.param 1)).forM fun id => equipSlots item id slots
    return .next f.pc
  match c.mode 2 with
  | 0 => do
    let item ← operand (c.param 3) (c.param 4)
    match (env.data.item? item).bind (·.kind.slot?) with
    | some slot => equip item [slot]
    | none => do
      warn .notEquippable
      return .next f.pc
  | 1 =>
    let slot := c.mode 3
    if 0 ≤ slot ∧ slot ≤ 4 then equip 0 [slot.toNat] else equip 0 [0, 1, 2, 3, 4]
  | _ => return .retry

/-- Changes the vitals of actors by a checked computation. -/
def changeVitals (c : Command) (f : Vitals → Except Overflow Vitals) : Act Unit :=
  changeActors (c.param 0) (c.param 1) fun a => do return { a with vitals := ← f a.vitals }

def changeHp (f : Frame) (c : Command) : Act Outcome := do
  let value ← amount (c.flag 2) (c.param 3) (c.param 4)
  changeVitals c fun v => v.changeHp value (c.flag 5)
  endIfFallen
  return .next f.pc

/-- Changes the spell points of actors. -/
def changeSp (f : Frame) (c : Command) : Act Outcome := do
  let value ← amount (c.flag 2) (c.param 3) (c.param 4)
  changeVitals c fun v => v.changeSp value
  return .next f.pc

/-- Adds a state to actors or takes it away. -/
def changeCondition (f : Frame) (c : Command) : Act Outcome := do
  changeVitals c fun v =>
    .ok (if c.flag 2 then v.relieve (c.param 3) else v.afflict (c.param 3))
  endIfFallen
  return .next f.pc

/-- Restores actors. -/
def fullHeal (f : Frame) (c : Command) : Act Outcome := do
  changeVitals c fun v => .ok v.restore
  return .next f.pc

/-- Changes the class of actors, who may have to start over. -/
def changeClass (f : Frame) (c : Command) : Act Outcome := do
  changeActors (c.param 0) (c.param 1) fun a =>
    let a := { a with classId := c.param 2 }
    .ok (if c.flag 3 then { a with level := 1, exp := 0 } else a)
  return .next f.pc

/-- Adds a battle command to actors or takes it away; taking the command zero takes all. -/
def changeBattleCommands (f : Frame) (c : Command) : Act Outcome := do
  let command := c.param 2
  changeActors (c.param 0) (c.param 1) fun a =>
    let others := a.battleCommands.filter (· ≠ command)
    .ok { a with
      battleCommands :=
        if c.flag 3 then others ++ [command] else if command = 0 then [] else others }
  return .next f.pc

/-- Changes one actor, if there is one under the first parameter. -/
def changeLook (f : Frame) (c : Command) (look : Actor → Actor) : Act Outcome := do
  let g ← getGame
  if (g.actors.get? (c.param 0)).isNone then warn .invalidActor
  changeActor (c.param 0) fun a => .ok (look a)
  return .next f.pc

/-- The damage of an attack on an actor, before chance. -/
def baseDamage (attack defense spirit : Number) (a : Actor) : Except Overflow Number := do
  let guarded := Number.quotient (← Checked.mul a.defense defense) 400
  let rest ← Checked.sub attack guarded
  let soothed := Number.quotient (← Checked.mul a.spirit spirit) 800
  Checked.sub rest soothed

/-- The damage after chance: a variance of one moves it by five percent up or down. -/
def varied (variance damage : Number) : Act Number := do
  if variance = 0 then return damage
  let percent ← check (Checked.mul variance 5)
  let low ← check (Checked.neg percent)
  let high ← check (Checked.sub percent 1)
  let roll ← draw low high
  let part ← check (Checked.mul damage roll)
  check (Checked.add damage (Number.quotient part 100))

/-- Attacks actors as an enemy would. -/
def simulatedAttack (f : Frame) (c : Command) : Act Outcome := do
  (← selectActors (c.param 0) (c.param 1)).forM fun id => do
    let g ← getGame
    match g.actors.get? id with
    | none => pure ()
    | some a => do
      let base ← check (baseDamage (c.param 2) (c.param 3) (c.param 4) a)
      let damage := max (← varied (c.param 5) base) 0
      let loss ← check (Checked.neg damage)
      changeActor id fun a => do return { a with vitals := ← a.vitals.changeHp loss true }
      emit (.simulatedAttack id damage)
      endIfFallen
      if c.flag 6 then
        setVariable (c.param 7) damage
        needRefresh
  return .next f.pc

end EventScript.Commands
