import EventScript.Commands.Battle
import EventScript.Commands.Branching
import EventScript.Commands.Keys
import EventScript.Commands.Memory
import EventScript.Commands.Message
import EventScript.Commands.Movement
import EventScript.Commands.Party
import EventScript.Commands.Scenes

/-!
# What every operation does

* `perform` runs the command at hand.
* `goOn` goes on with a command that waited for a scene or for the message window.
-/

namespace EventScript.Commands

open Act

/-- Changes something and goes on. -/
def simply (f : Frame) (change : Act Unit) : Act Outcome := do
  change
  return .next f.pc

/-- Goes on after a label, or after the jump if there is no such label. -/
def jumpToLabel (f : Frame) (c : Command) : Outcome :=
  .next ((f.jumps.label? (c.param 0)).getD f.pc)

/-- Runs an operation that means the same in every context. -/
def performShared (env : Env) (f : Frame) (c : Command) : SharedOp → Act Outcome
  | .finish | .label | .loop | .showChoiceEnd | .comment | .commentLine | .messageLine =>
    return .next f.pc
  | .showMessage => showMessage f c
  | .messageOptions => messageOptions f c
  | .changeFaceGraphic => changeFace f c
  | .showChoice => showChoice f c
  | .showChoiceOption => return .next f.blockEnd
  | .inputNumber => inputNumber f c
  | .controlSwitches => controlSwitches f c
  | .controlVariables => controlVariables env f c
  | .timerOperation => timerOperation env f c
  | .changeGold => changeGold f c
  | .changeItems => changeItems f c
  | .changePartyMembers => changePartyMembers f c
  | .changeExp => changeExp env f c
  | .changeLevel => changeLevel env f c
  | .changeParameters => changeParameters f c
  | .changeSkills => changeSkills f c
  | .changeEquipment => changeEquipment env f c
  | .changeHp => changeHp f c
  | .changeSp => changeSp f c
  | .changeCondition => changeCondition f c
  | .fullHeal => fullHeal f c
  | .changeClass => changeClass f c
  | .changeBattleCommands => changeBattleCommands f c
  | .changeHeroName => changeLook f c fun a => { a with name := c.text }
  | .changeHeroTitle => changeLook f c fun a => { a with title := c.text }
  | .changeSpriteAssociation => changeLook f c fun a =>
    { a with sprite := c.text, spriteIndex := c.param 1, transparent := c.flag 2 }
  | .changeActorFace => changeLook f c fun a => { a with face := c.text, faceIndex := c.param 1 }
  | .changeVehicleGraphic => changeVehicleGraphic f c
  | .changeSystemBgm => simply f <| modifySettings fun s =>
    { s with bgm := s.bgm.insert (c.param 0) (musicOf c 1) }
  | .changeSystemSound => simply f <| modifySettings fun s =>
    { s with se := s.se.insert (c.param 0) (soundOf c 1) }
  | .changeSystemGraphics => simply f <| modifySettings fun s =>
    { s with graphic := { name := c.text, stretch := c.param 0 = 0, font := c.param 1 } }
  | .changeScreenTransitions => changeTransition f c
  | .tintScreen => tintScreen env f c
  | .flashScreen => flashScreen env f c
  | .shakeScreen => shakeScreen env f c
  | .weatherEffects => changeWeather f c
  | .showPicture => showPicture f c
  | .movePicture => movePicture env f c
  | .erasePicture => erasePicture f c
  | .wait => do return .wait (max (← check (env.data.config.ticks (c.param 0))) 1)
  | .playBgm => simply f (switchBgm (musicOf c 0))
  | .fadeOutBgm => fadeOutBgm f c
  | .memorizeBgm => simply f <| modifySettings fun s => { s with memorizedBgm := s.currentBgm }
  | .playMemorizedBgm => do
    let g ← getGame
    simply f (switchBgm g.settings.memorizedBgm)
  | .playSound => simply f (emit (.playSe (soundOf c 0)))
  | .playMovie => playMovie f c
  | .changeTeleportAccess => simply f <| modifySettings fun s =>
    { s with teleportAllowed := c.flag 0 }
  | .changeEscapeAccess => simply f <| modifySettings fun s => { s with escapeAllowed := c.flag 0 }
  | .changeSaveAccess => simply f <| modifySettings fun s => { s with saveAllowed := c.flag 0 }
  | .changeMainMenuAccess => simply f <| modifySettings fun s => { s with menuAllowed := c.flag 0 }
  | .jumpToLabel => return jumpToLabel f c
  | .breakLoop => return .next ((f.jumps.landing? f.pc).getD f.commands.length)
  | .endLoop => return .next f.blockEnd
  | .endEvent => return .next f.commands.length
  | .gameOver => request f fun s => { s with gameOver := true }

/-- Runs an operation of the field. -/
def performField (env : Env) (f : Frame) (c : Command) : FieldOp → Act Outcome
  | .endBranch | .endShop | .endInn | .endBattle => return .next f.pc
  | .branch => conditionalBranch env f c
  | .elseBranch | .transaction | .noTransaction | .stay | .noStay | .victoryHandler
  | .escapeHandler | .defeatHandler => return .next f.blockEnd
  | .openShop => openShop f c
  | .showInn => showInn env f c
  | .enemyEncounter => enemyEncounter env f c
  | .enterHeroName => enterName f c
  | .openSaveMenu => request f fun s => { s with saveCalling := true }
  | .openMainMenu => request f fun s => { s with menuCalling := true }
  | .returnToTitle => request f fun s => { s with toTitle := true }
  | .teleport => teleport env f c
  | .memorizeLocation => memorizeLocation f c
  | .recallToLocation => recallLocation env f c
  | .eraseScreen => changeCover env f c true
  | .showScreen => changeCover env f c false
  | .enterExitVehicle => enterExitVehicle f
  | .setVehicleLocation => setVehicleLocation f c
  | .changeEventLocation => changeEventLocation f c
  | .tradeEventLocations => tradeEventLocations f c
  | .storeTerrainId => storeTerrain env f c
  | .storeEventId => storeEvent f c
  | .panScreen => panScreen f c
  | .showBattleAnimation => showBattleAnimation env f c
  | .playerVisibility => simply f <| modifyField fun d =>
    { d with player := { d.player with transparent := !c.flag 0 } }
  | .flashSprite => flashSprite env f c
  | .moveEvent => moveEvent f c
  | .proceedWithMovement => return .follow
  | .haltAllMovement => simply f (modifyField Field.haltAll)
  | .captureKey => captureKey env f c
  | .changeMapTileset => simply f <| modifyField fun d => { d with chipsetId := c.param 0 }
  | .changePanorama => changePanorama f c
  | .changeEncounterRate => simply f <| modifyField fun d => { d with encounterRate := c.param 0 }
  | .tileSubstitution => simply f <| modifyField fun d => { d with
    substitutions :=
      d.substitutions ++ [{ lower := c.flag 0, old := c.param 1, new := c.param 2 }] }
  | .teleportTargets => changeTeleportTargets f c
  | .escapeTarget => changeEscapeTarget f c
  | .eraseEvent => eraseEvent f
  | .callEvent => callEvent env f c
  | .simulatedAttack => simulatedAttack f c

/-- Runs an operation of a battle. -/
def performBattle (env : Env) (f : Frame) (c : Command) (op : BattleOp) : Act Outcome :=
  match op with
  | .endBranch => return .next f.pc
  | .elseBranch => return .next f.blockEnd
  | .branch => battleBranch f c
  | .callCommonEvent => callCommon env f (c.param 0)
  | .enableCombo => enableCombo f c
  | .showAnimation => showAnimation env f c
  | .forceFlee => inBattle f op fun _ t => forceFlee c t
  | .changeEnemyHp => inBattle f op fun g t => changeEnemyHp g c t
  | .changeEnemySp => inBattle f op fun g t => changeEnemySp g c t
  | .changeEnemyCondition => inBattle f op fun _ t => changeEnemyCondition c t
  | .revealEnemy => inBattle f op fun _ t =>
    changeEnemy t (c.param 0) fun e => .ok { e with hidden := false }
  | .changeBackground => inBattle f op fun _ t => return { t with background := c.text }
  | .terminateBattle => terminateBattle f

/-- Runs the command at hand. What means nothing in the context is passed over. -/
def perform (env : Env) (f : Frame) (c : Command) : Act Outcome :=
  match f.context, c.opcode with
  | _, .shared op => performShared env f c op
  | .field, .field op => performField env f c op
  | .battle, .battle op => performBattle env f c op
  | _, .unknown _ => return .next f.pc
  | _, op => simply f (warn (.outsideContext op))

/-- Goes on with a command that waited. -/
def goOn (env : Env) (f : Frame) : Awaited → Act Outcome
  | .shop => afterShop f
  | .innAnswer => answerInn f
  | .innDarkness => darkenInn env f
  | .innTune => wakeInn env f
  | .battle => afterBattle f
  | .choice => takeChoice f
  | .scene => return .next f.pc

end EventScript.Commands
