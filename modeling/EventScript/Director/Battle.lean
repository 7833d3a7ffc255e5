import EventScript.Director.Basic

/-!
# Battles

In a battle only the pages of the troop run, each at most once in a turn.

* `pageReady` says whether a page may run.
* `battleTick` runs the pages that are left in this turn and ends the battle when it is decided.
-/

namespace EventScript.Director

open Act

/-! ## Pages -/

/-- Whether a turn is one of those that a condition names. -/
def turnHits (turn : Number) (c : TurnCondition) : Except Overflow Bool :=
  if 0 < c.every then
    if turn < c.start then .ok false
    else do return Number.remainder (← Checked.sub turn c.start) c.every = 0
  else .ok (turn = c.start)

/-- Whether a percentage lies in a range, ends included. -/
def within (low high percent : Number) : Bool := low ≤ percent && percent ≤ high

/-- Whether the enemy of a condition has its hit points in the range. -/
def enemyHits (t : Troop) (c : EnemyCondition) : Act Bool :=
  match t.enemies[c.index.toNat]? with
  | some e => do return within c.low c.high (← check e.vitals.hpShare)
  | none => do
    warn .pageNamesInvalidEnemy
    return false

/-- Whether the actor of a condition has its hit points in the range. -/
def actorHits (actors : IdMap Actor) (c : ActorCondition) : Act Bool := do
  match actors.get? c.id with
  | some a =>
    if 0 < a.vitals.maxHp then return within c.low c.high (← check a.vitals.hpShare)
  | none => pure ()
  warn .pageNamesInvalidActor
  return false

/-- Tries a condition that may be left out. -/
def tried {α : Type} (c : Option α) (test : α → Act Bool) : Act Bool :=
  match c with
  | some x => test x
  | none => pure true

/-- Whether a page of the troop may run. -/
def pageReady (c : TroopCondition) : Act Bool := do
  let g ← getGame
  match g.troop with
  | none => return false
  | some t =>
    if c = {} || !g.meets c.toPageCondition then return false
    if !(← tried c.turn fun x => check (turnHits t.turn x)) then return false
    if !(← tried c.enemyHp (enemyHits t)) then return false
    tried c.actorHp (actorHits g.actors)

/-- Starts the first of some pages that may run and has not run in this turn. Pages without
commands count as run. -/
def startPage : List (TroopPage × Nat) → Directing Bool
  | [] => return false
  | (page, k) :: rest => do
    let d ← get
    if d.pagesRun.getD k true then startPage rest
    else if !(← pageReady page.condition) then startPage rest
    else do
      modify fun d => { d with pagesRun := d.pagesRun.set k true }
      if page.commands.isEmpty then startPage rest
      else do
        let battle ← start d.battle page.commands 0
        modify fun d => { d with battle }
        return true

/-- Starts the next page of the troop, if one may run. -/
def startNextPage : Directing Bool := do
  let d ← get
  match d.game.troop.bind fun t => d.data.troop? t.id with
  | some t => startPage t.pages.zipIdx
  | none => return false

/-! ## Turns -/

/-- Begins the battle that is asked for. -/
def openBattle : Directing Unit := do
  let d ← get
  let g := d.game
  let data := d.data.troop? g.scene.battle.troopId
  if data.isNone then warn .troopNotFound
  let battleCount ← check (Checked.add g.party.battleCount 1)
  setGame { g with
    party := { g.party with battleCount }
    scene := { g.scene with battleCalling := false }
    troop := some ((data.map Troop.ofData).getD {}) }
  modify fun d => { d with
    battle := .idle .battle 0 false
    pagesRun := ((data.map (·.pages)).getD []).map fun _ => false }

/-- Goes on to the next turn, in which every page may run again. -/
def passTurn : Directing Unit := do
  let g ← getGame
  match g.troop with
  | some t => do
    let turn ← check (Checked.add t.turn 1)
    setGame { g with troop := some { t with turn } }
  | none => pure ()
  modify fun d => { d with pagesRun := d.pagesRun.map fun _ => false }

def countResult (p : Party) : BattleResult → Except Overflow Party
  | .victory => do return { p with victoryCount := ← Checked.add p.victoryCount 1 }
  | .defeat => do return { p with defeatCount := ← Checked.add p.defeatCount 1 }
  | .escape => do return { p with escapeCount := ← Checked.add p.escapeCount 1 }
  | .abort => .ok p

/-- Ends the battle and leaves its result to the event that asked for it. -/
def settleBattle (result : BattleResult) : Directing Unit := do
  let g ← getGame
  let party ← check (countResult g.party result)
  setGame { g with
    party
    scene := { g.scene with battleResult := result, battleCalling := false }
    troop := none }
  modify fun d => { d with battle := .idle .battle 0 false, pagesRun := [] }

/-- How the battle has ended, if it is decided. -/
def decided? (g : Game) : Option BattleResult := do
  let t ← g.troop
  if t.terminated then some .abort
  else if t.partyFled then some .escape
  else if g.partyFallen then some .defeat
  else if !t.enemies.isEmpty && t.isBeaten then some .victory
  else none

/-- One tick of a battle. It gives `false` when no page is left in this turn and the battle is not
decided. -/
def battleTick : Directing Bool := do
  let d ← get
  let running ← if d.battle.isRunning then pure true else startNextPage
  if running then
    let d ← get
    let battle ← update d.battle
    modify fun d => { d with battle }
    tickWorld
    return true
  else
    match decided? (← get).game with
    | some result => do
      settleBattle result
      return true
    | none => return false

end EventScript.Director
