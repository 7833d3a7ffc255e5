import EventScript.Interpreter.Update
import EventScript.Proofs.Act

/-!
# Which commands wait

* `Awaited.opcodes` lists the operations that wait for an answer of a kind, and
  `Context.animation` is the one that waits for an animation.
* `Commands.warranted_perform` and `Commands.warranted_goOn`: a command waits for an answer only at
  a place that holds a command of such an operation. A message that takes the choice behind it into
  its window waits at the choice.
-/

namespace EventScript

open Act

/-- The operations that wait for an answer of a kind. -/
def Awaited.opcodes : Awaited → List Opcode
  | .shop => [.field .openShop]
  | .innAnswer | .innDarkness | .innTune => [.field .showInn]
  | .battle => [.field .enemyEncounter]
  | .choice => [.shared .showChoice]
  | .scene => [.shared .gameOver, .field .openSaveMenu, .field .openMainMenu,
      .field .returnToTitle, .field .enemyEncounter]

/-- The operation that plays an animation in a context. -/
def Context.animation : Context → Opcode
  | .field => .field .showBattleAnimation
  | .battle => .battle .showAnimation

namespace Frame

variable {f f' : Frame} {place : Nat} {ops : List Opcode}

/-- At a place of the list stands a command of one of some operations. -/
def HasAt (f : Frame) (place : Nat) (ops : List Opcode) : Prop :=
  ∃ c, f.commands[place]? = some c ∧ c.opcode ∈ ops

/-- An outcome that waits for an answer or for an animation names a command that may do so. -/
def Warrants (f : Frame) : Outcome → Prop
  | .await place k => f.HasAt place k.opcodes
  | .animate => f.HasAt f.pc [f.context.animation]
  | _ => True

theorem HasAt.of_commands (h : f.HasAt place ops) (hl : f'.commands = f.commands) :
    f'.HasAt place ops := by
  rwa [HasAt, hl]

theorem HasAt.lt_length (h : f.HasAt place ops) : place < f.commands.length := by
  obtain ⟨c, hc, -⟩ := h
  exact (List.getElem?_eq_some_iff.1 hc).1

theorem hasAt_singleton {op : Opcode} {c : Command} (hc : f.commands[place]? = some c)
    (hop : c.opcode = op) : f.HasAt place [op] :=
  ⟨c, hc, List.mem_singleton.2 hop⟩

end Frame

namespace Act

/-- Whatever an act of a frame comes to, its frame may wait like that. -/
def Warranted (f : Frame) (a : Act Outcome) : Prop :=
  ∀ w, Ensures a w fun o _ => f.Warrants o

variable {α : Type} {f : Frame} {a b : Act Outcome} {m : Act α} {r : α → Act Outcome}

theorem Warranted.pure {o : Outcome} (h : f.Warrants o) : (pure o : Act Outcome).Warranted f :=
  fun _ => ensures_pure.2 h

theorem Warranted.bind (h : ∀ x, (r x).Warranted f) : (m >>= r).Warranted f :=
  fun _ => ensures_bind.2 fun x u _ => h x u

theorem Warranted.ite {c : Prop} [Decidable c] (ha : a.Warranted f) (hb : b.Warranted f) :
    (if c then a else b).Warranted f := by
  split
  · exact ha
  · exact hb

end Act

namespace Commands

variable {f : Frame} {c : Command}

theorem warrants_waitIf (f : Frame) (flag : Bool) (ticks : UInt32) :
    f.Warrants (waitIf f flag ticks) := by
  unfold waitIf
  split <;> exact trivial

/-! ## The message window -/

/-- The choice waits at its own place, one past the last line of the message. -/
theorem warranted_showMessage (f : Frame) (c : Command) : (showMessage f c).Warranted f := by
  refine .bind fun g => .ite (.pure trivial) (.bind fun _ => ?_)
  split
  · exact .pure trivial
  · next following hfollowing =>
    split
    · next hop =>
      refine .ite (.bind fun _ => .pure ?_) (.pure trivial)
      exact Frame.hasAt_singleton hfollowing hop
    · exact .ite (.bind fun _ => .pure trivial) (.pure trivial)
    · exact .pure trivial

theorem warranted_showChoice (hc : f.commands[f.pc]? = some c)
    (hop : c.opcode = .shared .showChoice) : (showChoice f c).Warranted f :=
  .bind fun _ => .ite (.pure trivial) (.bind fun _ => .pure (Frame.hasAt_singleton hc hop))

theorem warranted_takeChoice (f : Frame) : (takeChoice f).Warranted f := by
  refine .bind fun g => ?_
  split <;> exact .pure trivial

/-! ## The scenes -/

theorem warranted_request {raise : Scene → Scene} (h : f.HasAt f.pc Awaited.scene.opcodes) :
    (request f raise).Warranted f :=
  .bind fun _ => .pure h

theorem warranted_openShop (hc : f.commands[f.pc]? = some c) (hop : c.opcode = .field .openShop) :
    (openShop f c).Warranted f := by
  have h : f.Warrants (.await f.pc .shop) := Frame.hasAt_singleton hc hop
  unfold openShop
  split
  · exact .bind fun _ => .pure h
  · exact .bind fun _ => .pure h
  · exact .bind fun _ => .pure h
  · exact .pure trivial

theorem warranted_showInn (env : Env) (hc : f.commands[f.pc]? = some c)
    (hop : c.opcode = .field .showInn) : (showInn env f c).Warranted f := by
  have h : f.Warrants (.await f.pc .innAnswer) := Frame.hasAt_singleton hc hop
  refine .bind fun g => .ite (.bind fun _ => .pure h) (.ite (.pure trivial) ?_)
  split
  · exact .bind fun _ => .pure trivial
  · exact .bind fun _ => .pure h

theorem warranted_answerInn (h : f.HasAt f.pc Awaited.innAnswer.opcodes) :
    (answerInn f).Warranted f := by
  refine .bind fun g => .ite (.pure h) (.bind fun _ => .ite (.pure trivial) ?_)
  exact .bind fun _ => .bind fun _ => .bind fun _ => .bind fun _ => .bind fun _ => .pure h

theorem warranted_darkenInn (env : Env) (h : f.HasAt f.pc Awaited.innDarkness.opcodes) :
    (darkenInn env f).Warranted f :=
  .ite (.pure h) (.bind fun _ => .bind fun _ => .bind fun _ => .pure h)

theorem warranted_wakeInn (env : Env) (h : f.HasAt f.pc Awaited.innTune.opcodes) :
    (wakeInn env f).Warranted f :=
  .bind fun _ => .ite (.pure h) (.bind fun _ => .bind fun _ => .pure trivial)

theorem warranted_enemyEncounter (env : Env) (hc : f.commands[f.pc]? = some c)
    (hop : c.opcode = .field .enemyEncounter) : (enemyEncounter env f c).Warranted f := by
  have h : f.Warrants (.await f.pc .battle) := Frame.hasAt_singleton hc hop
  refine .bind fun troopId => .bind fun g => .bind fun terrain => .ite ?_ ?_
  · exact .bind fun _ => .bind fun _ => .pure h
  · exact .bind fun _ => .pure h

/-- Where the party lost for good, the encounter itself waits for the end of the game. -/
theorem warranted_afterBattle (h : f.HasAt f.pc Awaited.battle.opcodes) :
    (afterBattle f).Warranted f := by
  have hscene : f.HasAt f.pc Awaited.scene.opcodes := by
    obtain ⟨c, hc, hop⟩ := h
    exact ⟨c, hc, by simp [List.mem_singleton.1 hop, Awaited.opcodes]⟩
  refine .bind fun g => ?_
  dsimp only
  split
  · exact .ite (.pure trivial) (.pure trivial)
  · split <;> exact .pure trivial
  · exact .ite (warranted_request hscene) (.pure trivial)
  · exact .pure trivial

/-! ## Animations -/

theorem warranted_playAnimation (env : Env) (waits : Bool) (start : Act Unit)
    (h : f.HasAt f.pc [f.context.animation]) : (playAnimation env f waits start).Warranted f := by
  refine .ite ?_ (.bind fun _ => ?_)
  · split <;> exact .pure trivial
  · split
    · exact .pure h
    · exact .pure trivial

/-! ## Every command -/

/-- All but three of the shared operations go on, rest, or wait for a number of ticks. -/
theorem warranted_performShared (env : Env) {op : SharedOp} (hc : f.commands[f.pc]? = some c)
    (hop : c.opcode = .shared op) : (performShared env f c op).Warranted f := by
  cases op with
  | showMessage => exact warranted_showMessage f c
  | showChoice => exact warranted_showChoice hc hop
  | gameOver => exact warranted_request ⟨c, hc, by simp [hop, Awaited.opcodes]⟩
  | _ =>
    dsimp only [performShared, simply, changeGold, messageOptions, changeFace, inputNumber,
      controlSwitches, controlVariables, timerOperation, changeItems, changePartyMembers,
      changeExp, changeLevel, changeParameters, changeSkills, changeEquipment, changeHp, changeSp,
      changeCondition, fullHeal, changeClass, changeBattleCommands, changeLook,
      changeVehicleGraphic, changeTransition, tintScreen, flashScreen, shakeScreen, changeWeather,
      showPicture, movePicture, erasePicture, fadeOutBgm, playMovie, jumpToLabel]
    repeat' first
      | with_reducible refine .bind fun _ => ?_
      | with_reducible refine .ite ?_ ?_
      | with_reducible refine .pure ?_
      | exact warrants_waitIf _ _ _
      | exact trivial
      | split

theorem warranted_performField (env : Env) {op : FieldOp} (hcontext : f.context = .field)
    (hc : f.commands[f.pc]? = some c) (hop : c.opcode = .field op) :
    (performField env f c op).Warranted f := by
  cases op with
  | openShop => exact warranted_openShop hc hop
  | showInn => exact warranted_showInn env hc hop
  | enemyEncounter => exact warranted_enemyEncounter env hc hop
  | openSaveMenu | openMainMenu | returnToTitle =>
    exact warranted_request ⟨c, hc, by simp [hop, Awaited.opcodes]⟩
  | showBattleAnimation =>
    refine warranted_playAnimation env _ _ (Frame.hasAt_singleton hc ?_)
    rw [hop, hcontext, Context.animation]
  | _ =>
    dsimp only [performField, simply, conditionalBranch, enterName, teleport, memorizeLocation,
      recallLocation, changeCover, enterExitVehicle, setVehicleLocation, changeEventLocation,
      tradeEventLocations, storeTerrain, storeEvent, panScreen, flashSprite, moveEvent, captureKey,
      changePanorama, changeTeleportTargets, changeEscapeTarget, eraseEvent, callEvent, callCommon,
      callPage, simulatedAttack, branchOn, planTeleport]
    repeat' first
      | with_reducible refine .bind fun _ => ?_
      | with_reducible refine .ite ?_ ?_
      | with_reducible refine .pure ?_
      | exact warrants_waitIf _ _ _
      | exact trivial
      | split

theorem warranted_performBattle (env : Env) {op : BattleOp} (hcontext : f.context = .battle)
    (hc : f.commands[f.pc]? = some c) (hop : c.opcode = .battle op) :
    (performBattle env f c op).Warranted f := by
  cases op with
  | showAnimation =>
    refine warranted_playAnimation env _ _ (Frame.hasAt_singleton hc ?_)
    rw [hop, hcontext, Context.animation]
  | _ =>
    dsimp only [performBattle, battleBranch, callCommon, enableCombo, inBattle, terminateBattle,
      branchOn]
    repeat' first
      | with_reducible refine .bind fun _ => ?_
      | with_reducible refine .ite ?_ ?_
      | with_reducible refine .pure ?_
      | exact trivial
      | split

/-- A command that waits names itself, or the choice that its message takes in. -/
theorem warranted_perform (env : Env) (hc : f.commands[f.pc]? = some c) :
    (perform env f c).Warranted f := by
  unfold perform
  split
  · next hop => exact warranted_performShared env hc hop
  · next hcontext hop => exact warranted_performField env hcontext hc hop
  · next hcontext hop => exact warranted_performBattle env hcontext hc hop
  · exact .pure trivial
  · exact .bind fun _ => .pure trivial

/-- A command that goes on after an answer and waits again is still the same command. -/
theorem warranted_goOn (env : Env) {k : Awaited} (h : f.HasAt f.pc k.opcodes) :
    (goOn env f k).Warranted f := by
  cases k with
  | shop => exact .bind fun _ => .pure trivial
  | innAnswer => exact warranted_answerInn h
  | innDarkness => exact warranted_darkenInn env h
  | innTune => exact warranted_wakeInn env h
  | battle => exact warranted_afterBattle h
  | choice => exact warranted_takeChoice f
  | scene => exact .pure trivial

end Commands

end EventScript
