import EventScript.Commands.Presentation

/-!
# Commands of the scenes

Shops, inns and battles hold the event up and go on in the section of their block that fits what
happened. The other scenes hold it up and go past the command.
-/

namespace EventScript.Commands

open Act

/-- Changes the requests. -/
def modifyScene (f : Scene → Scene) : Act Unit :=
  modifyGame fun g => { g with scene := f g.scene }

/-- The place of a section of the block opened at hand, or of its end if that comes first. -/
def findSection (f : Frame) (target terminator : FieldOp) : Option Nat :=
  let indent := (f.commands[f.pc]?.map (·.indent)).getD 0
  Blocks.seek f.commands (f.pc + 1) target.code terminator.code indent indent

/-- The place of a section of the shop or inn at hand, which has a block only where its third
parameter says so; else the place of the command. -/
def sectionOf (f : Frame) (target terminator : FieldOp) : Nat :=
  if (f.commands[f.pc]?.map (·.flag 2)).getD false then (findSection f target terminator).getD f.pc
  else f.pc

/-- Raises a request and goes past the command when it is done. -/
def request (f : Frame) (raise : Scene → Scene) : Act Outcome := do
  modifyScene raise
  return .await f.pc .scene

/-- Asks for a name, and goes on at once. -/
def enterName (f : Frame) (c : Command) : Act Outcome := do
  modifyScene fun s => { s with
    name := { actorId := c.param 0, charset := c.param 1, useDefault := c.flag 2 }
    nameCalling := true }
  return .next f.pc

/-! ## Shops -/

/-- Opens a shop that buys and sells, only sells to the party, or only buys from it. -/
def openShop (f : Frame) (c : Command) : Act Outcome := do
  let visit (buys sells : Bool) : Act Outcome := do
    modifyScene fun s => { s with
      shop := { buys, sells, kind := c.param 1, goods := c.params.drop 4 }
      shopTransaction := false
      shopCalling := true }
    return .await f.pc .shop
  match c.mode 0 with
  | 0 => visit true true
  | 1 => visit true false
  | 2 => visit false true
  | _ => return .retry

/-- Back from the shop. -/
def afterShop (f : Frame) : Act Outcome := do
  let g ← getGame
  let target := if g.scene.shopTransaction then FieldOp.transaction else FieldOp.noTransaction
  return .next (sectionOf f target .endShop)

/-! ## Inns -/

/-- What the innkeeper of a kind says: the offer, the question and the two answers. -/
def innWords (t : Terms) (kind price : Number) : Option (String × String × String × String) :=
  let offer (before after : String) :=
    before ++ " " ++ toString price.toInt ++ " " ++ t.gold ++ after
  match kind.toInt with
  | 0 => some (offer t.innAGreeting1 t.innAGreeting2, t.innAGreeting3, t.innAAccept, t.innACancel)
  | 1 => some (offer t.innBGreeting1 t.innBGreeting2, t.innBGreeting3, t.innBAccept, t.innBCancel)
  | _ => none

/-- Offers a stay at an inn. A stay that costs nothing is not asked for. -/
def showInn (env : Env) (f : Frame) (c : Command) : Act Outcome := do
  let price := c.param 1
  let g ← getGame
  if price = 0 then
    modifyGame fun g => { g with message := { g.message with choiceResult := 0 } }
    return .await f.pc .innAnswer
  if g.message.waiting then return .retry
  match innWords env.data.terms (c.param 0) price with
  | none => do
    warn .unknownInn
    return .next f.pc
  | some (offer, question, accept, cancel) => do
    let m := ((g.message.clear.addLine offer).addLine question).offer [accept, cancel] 2
    setGame { g with
      message := { m.present with
        choiceDisabled := [g.party.gold < price, false], choiceResult := 4 }
      scene := { g.scene with innCalling := true } }
    return .await f.pc .innAnswer

/-- The offer was answered. Who stays pays, is healed, and sees the screen go dark. -/
def answerInn (f : Frame) : Act Outcome := do
  let g ← getGame
  if g.message.visible then return .await f.pc .innAnswer
  modifyScene fun s => { s with innCalling := false }
  if g.message.choiceResult ≠ 0 then return .next (sectionOf f .noStay .endInn)
  let price := (f.commands[f.pc]?.map (·.param 1)).getD 0
  giveGold (← check (Checked.neg price))
  g.party.members.forM fun id =>
    changeActor id fun a => .ok { a with vitals := a.vitals.restore }
  emit (.transition true 0)
  emit (.fadeOutBgm 800)
  return .await f.pc .innDarkness

/-- The screen is dark: the tune of the inn is played. -/
def darkenInn (env : Env) (f : Frame) : Act Outcome := do
  if env.host.transitionPending then return .await f.pc .innDarkness
  let g ← getGame
  modifySettings fun s => { s with beforeBattleBgm := s.currentBgm }
  switchBgm (g.settings.bgmAt innSlot)
  return .await f.pc .innTune

/-- The tune is over: the old one is played again and the screen lights up. -/
def wakeInn (env : Env) (f : Frame) : Act Outcome := do
  let g ← getGame
  if env.host.transitionPending ||
      (!(g.settings.bgmAt innSlot).isSilent && !env.host.bgmPlayedOnce) then
    return .await f.pc .innTune
  emit (.transition false 0)
  switchBgm g.settings.beforeBattleBgm
  return .rest (sectionOf f .stay .endInn)

/-! ## Battles -/

def playerTerrain (env : Env) (g : Game) : Except Overflow Number :=
  match env.data.map? g.field.id with
  | some m => m.groundAt g.field.player.x g.field.player.y
  | none => .ok 0

/-- Asks for a battle. -/
def enemyEncounter (env : Env) (f : Frame) (c : Command) : Act Outcome := do
  let troopId ← operand (c.param 0) (c.param 1)
  let g ← getGame
  let terrain ← check (playerTerrain env g)
  let mode := c.mode 2
  if mode < 0 ∨ 2 < mode then warn .unknownBackground
  modifyScene fun s => { s with
    battle := {
      troopId
      backgroundMode := c.param 2
      background := if mode = 1 then c.text else ""
      terrainId := if mode = 2 then c.param 8 else terrain
      escapeMode := c.param 3
      defeatMode := c.param 4
      firstStrike := c.flag 5 }
    battleResult := .victory
    battleCalling := true }
  return .await f.pc .battle

/-- The battle is over: goes to the section for its result. -/
def afterBattle (f : Frame) : Act Outcome := do
  let g ← getGame
  let battle := g.scene.battle
  let handler (target : FieldOp) : Act Outcome :=
    return .next ((findSection f target .endBattle).getD f.pc)
  match g.scene.battleResult with
  | .victory =>
    if battle.defeatMode = 0 && battle.escapeMode ≠ 2 then return .rest f.pc
    else handler .victoryHandler
  | .escape => match battle.escapeMode.toInt with
    | 1 => return .next f.commands.length
    | 2 => handler .escapeHandler
    | _ => return .next f.pc
  | .defeat =>
    if battle.defeatMode = 0 then request f fun s => { s with gameOver := true }
    else handler .defeatHandler
  | .abort => handler .endBattle

end EventScript.Commands
