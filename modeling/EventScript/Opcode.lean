import EventScript.Checked

/-!
# Operations

Every stored code stands for exactly one operation of three closed families, or for none.

* `SharedOp` holds what means the same in every context.
* `FieldOp` holds what has a meaning on the field only.
* `BattleOp` holds what has a meaning in a battle only.
* A code of no family is kept as `Opcode.unknown`, so that it survives loading.
-/

namespace EventScript

/-- Operations that every context runs. -/
inductive SharedOp
  | finish
  | changeClass
  | changeBattleCommands
  | showMessage
  | messageOptions
  | changeFaceGraphic
  | showChoice
  | inputNumber
  | controlSwitches
  | controlVariables
  | timerOperation
  | changeGold
  | changeItems
  | changePartyMembers
  | changeExp
  | changeLevel
  | changeParameters
  | changeSkills
  | changeEquipment
  | changeHp
  | changeSp
  | changeCondition
  | fullHeal
  | changeHeroName
  | changeHeroTitle
  | changeSpriteAssociation
  | changeActorFace
  | changeVehicleGraphic
  | changeSystemBgm
  | changeSystemSound
  | changeSystemGraphics
  | changeScreenTransitions
  | tintScreen
  | flashScreen
  | shakeScreen
  | weatherEffects
  | showPicture
  | movePicture
  | erasePicture
  | wait
  | playBgm
  | fadeOutBgm
  | memorizeBgm
  | playMemorizedBgm
  | playSound
  | playMovie
  | changeTeleportAccess
  | changeEscapeAccess
  | changeSaveAccess
  | changeMainMenuAccess
  | label
  | jumpToLabel
  | loop
  | breakLoop
  | endEvent
  | comment
  | gameOver
  | messageLine
  | showChoiceOption
  | showChoiceEnd
  | endLoop
  | commentLine
  deriving DecidableEq, Repr

namespace SharedOp

/-- Every operation of the family. -/
def all : List SharedOp := [
  .finish, .changeClass, .changeBattleCommands, .showMessage, .messageOptions,
  .changeFaceGraphic, .showChoice, .inputNumber, .controlSwitches, .controlVariables,
  .timerOperation, .changeGold, .changeItems, .changePartyMembers, .changeExp, .changeLevel,
  .changeParameters, .changeSkills, .changeEquipment, .changeHp, .changeSp, .changeCondition,
  .fullHeal, .changeHeroName, .changeHeroTitle, .changeSpriteAssociation, .changeActorFace,
  .changeVehicleGraphic, .changeSystemBgm, .changeSystemSound, .changeSystemGraphics,
  .changeScreenTransitions, .tintScreen, .flashScreen, .shakeScreen, .weatherEffects,
  .showPicture, .movePicture, .erasePicture, .wait, .playBgm, .fadeOutBgm, .memorizeBgm,
  .playMemorizedBgm, .playSound, .playMovie, .changeTeleportAccess, .changeEscapeAccess,
  .changeSaveAccess, .changeMainMenuAccess, .label, .jumpToLabel, .loop, .breakLoop, .endEvent,
  .comment, .gameOver, .messageLine, .showChoiceOption, .showChoiceEnd, .endLoop, .commentLine]

/-- The stored code and the written name. -/
def entry : SharedOp → Number × String
  | .finish => (10, "End")
  | .changeClass => (1008, "ChangeClass")
  | .changeBattleCommands => (1009, "ChangeBattleCommands")
  | .showMessage => (10110, "ShowMessage")
  | .messageOptions => (10120, "MessageOptions")
  | .changeFaceGraphic => (10130, "ChangeFaceGraphic")
  | .showChoice => (10140, "ShowChoice")
  | .inputNumber => (10150, "InputNumber")
  | .controlSwitches => (10210, "ControlSwitches")
  | .controlVariables => (10220, "ControlVars")
  | .timerOperation => (10230, "TimerOperation")
  | .changeGold => (10310, "ChangeGold")
  | .changeItems => (10320, "ChangeItems")
  | .changePartyMembers => (10330, "ChangePartyMembers")
  | .changeExp => (10410, "ChangeExp")
  | .changeLevel => (10420, "ChangeLevel")
  | .changeParameters => (10430, "ChangeParameters")
  | .changeSkills => (10440, "ChangeSkills")
  | .changeEquipment => (10450, "ChangeEquipment")
  | .changeHp => (10460, "ChangeHP")
  | .changeSp => (10470, "ChangeSP")
  | .changeCondition => (10480, "ChangeCondition")
  | .fullHeal => (10490, "FullHeal")
  | .changeHeroName => (10610, "ChangeHeroName")
  | .changeHeroTitle => (10620, "ChangeHeroTitle")
  | .changeSpriteAssociation => (10630, "ChangeSpriteAssociation")
  | .changeActorFace => (10640, "ChangeActorFace")
  | .changeVehicleGraphic => (10650, "ChangeVehicleGraphic")
  | .changeSystemBgm => (10660, "ChangeSystemBGM")
  | .changeSystemSound => (10670, "ChangeSystemSFX")
  | .changeSystemGraphics => (10680, "ChangeSystemGraphics")
  | .changeScreenTransitions => (10690, "ChangeScreenTransitions")
  | .tintScreen => (11030, "TintScreen")
  | .flashScreen => (11040, "FlashScreen")
  | .shakeScreen => (11050, "ShakeScreen")
  | .weatherEffects => (11070, "WeatherEffects")
  | .showPicture => (11110, "ShowPicture")
  | .movePicture => (11120, "MovePicture")
  | .erasePicture => (11130, "ErasePicture")
  | .wait => (11410, "Wait")
  | .playBgm => (11510, "PlayBGM")
  | .fadeOutBgm => (11520, "FadeOutBGM")
  | .memorizeBgm => (11530, "MemorizeBGM")
  | .playMemorizedBgm => (11540, "PlayMemorizedBGM")
  | .playSound => (11550, "PlaySound")
  | .playMovie => (11560, "PlayMovie")
  | .changeTeleportAccess => (11820, "ChangeTeleportAccess")
  | .changeEscapeAccess => (11840, "ChangeEscapeAccess")
  | .changeSaveAccess => (11930, "ChangeSaveAccess")
  | .changeMainMenuAccess => (11960, "ChangeMainMenuAccess")
  | .label => (12110, "Label")
  | .jumpToLabel => (12120, "JumpToLabel")
  | .loop => (12210, "Loop")
  | .breakLoop => (12220, "BreakLoop")
  | .endEvent => (12310, "EndEventProcessing")
  | .comment => (12410, "Comment")
  | .gameOver => (12420, "GameOver")
  | .messageLine => (20110, "ShowMessage_2")
  | .showChoiceOption => (20140, "ShowChoiceOption")
  | .showChoiceEnd => (20141, "ShowChoiceEnd")
  | .endLoop => (22210, "EndLoop")
  | .commentLine => (22410, "Comment_2")

/-- The stored code of an operation. -/
def code (op : SharedOp) : Number := op.entry.1

def name (op : SharedOp) : String := op.entry.2

/-- The operation with a stored code. -/
def ofCode? (c : Number) : Option SharedOp := all.find? fun op => op.code = c

theorem mem_all (op : SharedOp) : op ∈ all := by cases op <;> decide

end SharedOp

/-- Operations that only an event of the field runs. -/
inductive FieldOp
  | simulatedAttack
  | enemyEncounter
  | openShop
  | showInn
  | enterHeroName
  | teleport
  | memorizeLocation
  | recallToLocation
  | enterExitVehicle
  | setVehicleLocation
  | changeEventLocation
  | tradeEventLocations
  | storeTerrainId
  | storeEventId
  | eraseScreen
  | showScreen
  | panScreen
  | showBattleAnimation
  | playerVisibility
  | flashSprite
  | moveEvent
  | proceedWithMovement
  | haltAllMovement
  | captureKey
  | changeMapTileset
  | changePanorama
  | changeEncounterRate
  | tileSubstitution
  | teleportTargets
  | escapeTarget
  | openSaveMenu
  | openMainMenu
  | branch
  | eraseEvent
  | callEvent
  | returnToTitle
  | victoryHandler
  | escapeHandler
  | defeatHandler
  | endBattle
  | transaction
  | noTransaction
  | endShop
  | stay
  | noStay
  | endInn
  | elseBranch
  | endBranch
  deriving DecidableEq, Repr

namespace FieldOp

/-- Every operation of the family. -/
def all : List FieldOp := [
  .simulatedAttack, .enemyEncounter, .openShop, .showInn, .enterHeroName, .teleport,
  .memorizeLocation, .recallToLocation, .enterExitVehicle, .setVehicleLocation,
  .changeEventLocation, .tradeEventLocations, .storeTerrainId, .storeEventId, .eraseScreen,
  .showScreen, .panScreen, .showBattleAnimation, .playerVisibility, .flashSprite, .moveEvent,
  .proceedWithMovement, .haltAllMovement, .captureKey, .changeMapTileset, .changePanorama,
  .changeEncounterRate, .tileSubstitution, .teleportTargets, .escapeTarget, .openSaveMenu,
  .openMainMenu, .branch, .eraseEvent, .callEvent, .returnToTitle, .victoryHandler,
  .escapeHandler, .defeatHandler, .endBattle, .transaction, .noTransaction, .endShop, .stay,
  .noStay, .endInn, .elseBranch, .endBranch]

/-- The stored code and the written name. -/
def entry : FieldOp → Number × String
  | .simulatedAttack => (10500, "SimulatedAttack")
  | .enemyEncounter => (10710, "EnemyEncounter")
  | .openShop => (10720, "OpenShop")
  | .showInn => (10730, "ShowInn")
  | .enterHeroName => (10740, "EnterHeroName")
  | .teleport => (10810, "Teleport")
  | .memorizeLocation => (10820, "MemorizeLocation")
  | .recallToLocation => (10830, "RecallToLocation")
  | .enterExitVehicle => (10840, "EnterExitVehicle")
  | .setVehicleLocation => (10850, "SetVehicleLocation")
  | .changeEventLocation => (10860, "ChangeEventLocation")
  | .tradeEventLocations => (10870, "TradeEventLocations")
  | .storeTerrainId => (10910, "StoreTerrainID")
  | .storeEventId => (10920, "StoreEventID")
  | .eraseScreen => (11010, "EraseScreen")
  | .showScreen => (11020, "ShowScreen")
  | .panScreen => (11060, "PanScreen")
  | .showBattleAnimation => (11210, "ShowBattleAnimation")
  | .playerVisibility => (11310, "PlayerVisibility")
  | .flashSprite => (11320, "FlashSprite")
  | .moveEvent => (11330, "MoveEvent")
  | .proceedWithMovement => (11340, "ProceedWithMovement")
  | .haltAllMovement => (11350, "HaltAllMovement")
  | .captureKey => (11610, "KeyInputProc")
  | .changeMapTileset => (11710, "ChangeMapTileset")
  | .changePanorama => (11720, "ChangePBG")
  | .changeEncounterRate => (11740, "ChangeEncounterRate")
  | .tileSubstitution => (11750, "TileSubstitution")
  | .teleportTargets => (11810, "TeleportTargets")
  | .escapeTarget => (11830, "EscapeTarget")
  | .openSaveMenu => (11910, "OpenSaveMenu")
  | .openMainMenu => (11950, "OpenMainMenu")
  | .branch => (12010, "ConditionalBranch")
  | .eraseEvent => (12320, "EraseEvent")
  | .callEvent => (12330, "CallEvent")
  | .returnToTitle => (12510, "ReturnToTitle")
  | .victoryHandler => (20710, "VictoryHandler")
  | .escapeHandler => (20711, "EscapeHandler")
  | .defeatHandler => (20712, "DefeatHandler")
  | .endBattle => (20713, "EndBattle")
  | .transaction => (20720, "Transaction")
  | .noTransaction => (20721, "NoTransaction")
  | .endShop => (20722, "EndShop")
  | .stay => (20730, "Stay")
  | .noStay => (20731, "NoStay")
  | .endInn => (20732, "EndInn")
  | .elseBranch => (22010, "ElseBranch")
  | .endBranch => (22011, "EndBranch")

/-- The stored code of an operation. -/
def code (op : FieldOp) : Number := op.entry.1

def name (op : FieldOp) : String := op.entry.2

/-- The operation with a stored code. -/
def ofCode? (c : Number) : Option FieldOp := all.find? fun op => op.code = c

theorem mem_all (op : FieldOp) : op ∈ all := by cases op <;> decide

end FieldOp

/-- Operations that only a page of a troop runs. -/
inductive BattleOp
  | callCommonEvent
  | forceFlee
  | enableCombo
  | changeEnemyHp
  | changeEnemySp
  | changeEnemyCondition
  | revealEnemy
  | changeBackground
  | showAnimation
  | branch
  | terminateBattle
  | elseBranch
  | endBranch
  deriving DecidableEq, Repr

namespace BattleOp

/-- Every operation of the family. -/
def all : List BattleOp := [
  .callCommonEvent, .forceFlee, .enableCombo, .changeEnemyHp, .changeEnemySp,
  .changeEnemyCondition, .revealEnemy, .changeBackground, .showAnimation, .branch,
  .terminateBattle, .elseBranch, .endBranch]

/-- The stored code and the written name. -/
def entry : BattleOp → Number × String
  | .callCommonEvent => (1005, "CallCommonEvent")
  | .forceFlee => (1006, "ForceFlee")
  | .enableCombo => (1007, "EnableCombo")
  | .changeEnemyHp => (13110, "ChangeMonsterHP")
  | .changeEnemySp => (13120, "ChangeMonsterMP")
  | .changeEnemyCondition => (13210, "ChangeMonsterCondition")
  | .revealEnemy => (13310, "ShowHiddenMonster")
  | .changeBackground => (13410, "ChangeBattleBG")
  | .showAnimation => (13510, "ShowBattleAnimation_B")
  | .branch => (13610, "ConditionalBranch_B")
  | .terminateBattle => (13710, "TerminateBattle")
  | .elseBranch => (23310, "ElseBranch_B")
  | .endBranch => (23311, "EndBranch_B")

/-- The stored code of an operation. -/
def code (op : BattleOp) : Number := op.entry.1

def name (op : BattleOp) : String := op.entry.2

/-- The operation with a stored code. -/
def ofCode? (c : Number) : Option BattleOp := all.find? fun op => op.code = c

theorem mem_all (op : BattleOp) : op ∈ all := by cases op <;> decide

end BattleOp

/-- What a stored code stands for. -/
inductive Opcode
  | shared (op : SharedOp)
  | field (op : FieldOp)
  | battle (op : BattleOp)
  | unknown (code : Number)
  deriving DecidableEq, Repr

namespace Opcode

/-- The operation with a stored code. -/
def ofCode (c : Number) : Opcode :=
  match SharedOp.ofCode? c, FieldOp.ofCode? c, BattleOp.ofCode? c with
  | some op, _, _ => .shared op
  | none, some op, _ => .field op
  | none, none, some op => .battle op
  | none, none, none => .unknown c

/-- The stored code of an operation. -/
def code : Opcode → Number
  | shared op => op.code
  | field op => op.code
  | battle op => op.code
  | unknown c => c

def name : Opcode → String
  | shared op => op.name
  | field op => op.name
  | battle op => op.name
  | unknown c => "Unknown(" ++ toString c.toInt ++ ")"

theorem code_ofCode (c : Number) : (ofCode c).code = c := by
  unfold ofCode
  cases h₁ : SharedOp.ofCode? c with
  | some op => simpa [code] using List.find?_some h₁
  | none =>
    cases h₂ : FieldOp.ofCode? c with
    | some op => simpa [code] using List.find?_some h₂
    | none =>
      cases h₃ : BattleOp.ofCode? c with
      | some op => simpa [code] using List.find?_some h₃
      | none => rfl

end Opcode

end EventScript
