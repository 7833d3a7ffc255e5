import EventScript.Commands.Operand

/-!
# Commands of switches, variables and timers
-/

namespace EventScript.Commands

open Act

/-- The ids that a command writes: in mode 0 one id, in mode 1 a range, in mode 2 the id that a
variable holds. -/
def writtenIds (c : Command) : Act (Option (Number × Number)) := do
  match c.mode 0 with
  | 0 => return some (c.param 1, c.param 1)
  | 1 => return some (c.param 1, c.param 2)
  | 2 => do
    let g ← getGame
    let id := g.vars.get (c.param 1)
    return some (id, id)
  | _ => do
    warn .unsupportedTarget
    return none

/-- Turns switches on, off or over. -/
def controlSwitches (f : Frame) (c : Command) : Act Outcome := do
  match ← writtenIds c with
  | none => return .next f.pc
  | some (first, last) => do
    match c.mode 3 with
    | 0 => setSwitches first last true
    | 1 => setSwitches first last false
    | _ => toggleSwitches first last
    needRefresh
    return .next f.pc

/-- A value of an enemy of the battle; zero where there is none. -/
def enemyValue (g : Game) (index which : Number) : Number :=
  match g.troop.bind (·.enemy? index) with
  | none => 0
  | some e => match which.toInt with
    | 0 => e.vitals.hp
    | 1 => e.vitals.sp
    | 2 => e.vitals.maxHp
    | 3 => e.vitals.maxSp
    | _ => 0

/-- The operand of a write to variables, by its type. -/
def variableOperand (env : Env) (f : Frame) (type a b : Number) : Act (Option Number) := do
  let g ← getGame
  match type.toInt with
  | 0 => return some a
  | 1 => return some (g.vars.get a)
  | 2 => return some (g.vars.getThrough a)
  | 4 => return some (if b = 0 then g.party.held a else g.wornCount a)
  | 5 => some <$> readActor a b
  | 6 => some <$> readCharacter a f.owner b
  | 7 => some <$> counter env.data.config.fps a
  | 8 => return some (enemyValue g a b)
  | _ => do
    warn .unsupportedOperand
    return none

/-- Combines variables with an operand. The operand is read once, before any write; a random one
is drawn for each variable. -/
def controlVariables (env : Env) (f : Frame) (c : Command) : Act Outcome := do
  match ← writtenIds c with
  | none => return .next f.pc
  | some (first, last) => match VariableOp.ofNumber? (c.param 3) with
    | none => do
      warn .unsupportedOperation
      return .next f.pc
    | some op => do
      if c.mode 4 = 3 then
        (idsBetween first last).forM fun id => do
          let value ← draw (c.param 5) (c.param 6)
          combineVariable op value id
        needRefresh
      else
        match ← variableOperand env f (c.param 4) (c.param 5) (c.param 6) with
        | none => pure ()
        | some value => do
          combineVariables first last op value
          needRefresh
      return .next f.pc

/-- Sets, starts or stops a timer. -/
def timerOperation (env : Env) (f : Frame) (c : Command) : Act Outcome := do
  let index := if 5 < c.params.length then Number.index? (c.param 5) else some 0
  let seconds ← operand (c.param 1) (c.param 2)
  let g ← getGame
  let setTimer (i : Nat) (t : Timer) : Act Outcome := do
    modifyGame fun g =>
      { g with party := { g.party with timers := g.party.timers.setIfInBounds i t } }
    return .next f.pc
  match index.bind fun i => (g.party.timers[i]?).map (i, ·) with
  | none => do
    warn .unknownTimer
    return .next f.pc
  | some (i, t) => match c.mode 0 with
    | 0 => do
      let frames ← check (Checked.mul (max seconds 0) env.data.config.fps.toInt32)
      setTimer i { t with frames }
    | 1 => setTimer i { t with running := true, visible := c.flag 3, battle := c.flag 4 }
    | 2 => setTimer i { t with running := false }
    | _ => return .retry

end EventScript.Commands
