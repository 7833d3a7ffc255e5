import EventScript.Proofs.Agenda
import EventScript.Proofs.Estate

/-!
# What commands do to what is at stake

Three operations of every context and one of the field may knock someone out or split the party.
All other operations are gentle, and so is every command that goes on after it waited.

* `SharedOp.isHarsh` and `FieldOp.isHarsh` name the four.
* `Commands.gentle_performShared`, `gentle_performField`, `gentle_performBattle` and `gentle_goOn`
  are about the others, and `Commands.gentle_or_harsh_perform` puts them together.
* `Commands.strokes_perform`: no operation does more to what is at stake than a `Game.Stroke`.
-/

namespace EventScript

open Relation

theorem Game.strokes_of_gentle {g g' : Game} (h : ReflTransGen Gentle g g') :
    ReflTransGen Stroke g g' :=
  ReflTransGen.mono (fun _ _ => Stroke.gentle) _ _ h

namespace Act

/-- A change of what is not at stake. -/
theorem gentle_aside {w : World} {g : Game} (h : g.estate = w.game.estate) :
    ReflTransGen Game.Gentle w.game g :=
  .single (.aside h)

end Act

namespace World

open Act

instance (R : Game → Game → Prop) : Lenient (Over (ReflTransGen R)) := .over (fun _ => .refl) .trans

instance : AllowsDeeds (Over (ReflTransGen Game.Gentle)) where
  chance _ _ := gentle_aside rfl
  gold _ amount := .single (.gold amount)
  item h := .single (.item h)
  equips h := .single (.actor h .same)
  character _ _ := gentle_aside rfl
  noted _ _ _ := gentle_aside rfl

instance : AllowsWrites (Over (ReflTransGen Game.Gentle)) where
  memory _ _ _ := gentle_aside rfl

instance : AllowsTime (Over (ReflTransGen Game.Gentle)) where
  frames _ _ := gentle_aside rfl
  clocks _ := gentle_aside rfl
  pages _ _ := gentle_aside rfl
  starts _ := gentle_aside rfl

instance : AllowsEnd (Over (ReflTransGen Game.Gentle)) where
  ends _ := .single .ends

instance : AllowsWrites (Over (ReflTransGen Game.Stroke)) where
  toAllowsDeeds := .wider (R := Over (ReflTransGen Game.Gentle)) fun _ _ => Game.strokes_of_gentle
  memory _ _ _ := Game.strokes_of_gentle (gentle_aside rfl)

instance : AllowsEnd (Over (ReflTransGen Game.Stroke)) where
  ends _ := .single (.gentle .ends)

end World

namespace Act

open World

variable {α : Type} {a : Act α}

theorem Gentle.strokes (h : a.Gentle) : a.Strokes := h.mono fun _ _ => Game.strokes_of_gentle

theorem gentle_modifyGame {c : Game → Game} (h : ∀ g, (c g).estate = g.estate) :
    (modifyGame c).Gentle :=
  within_modifyGame fun w => gentle_aside (h w.game)

@[simp] theorem gentle_gameOver :
    (modifyGame fun g => { g with scene := { g.scene with gameOver := true } }).Gentle :=
  within_modifyGame AllowsEnd.ends

theorem gentle_changeActor {id : Number} {f : Actor → Except Overflow Actor}
    (h : ∀ a, Yields (f a) fun a' => a.vitals.Eases a'.vitals) : (changeActor id f).Gentle := by
  refine within_changeActor_of fun w a a' ha ha' => ?_
  exact .single (.actor ha (h a a' ha'))

theorem strokes_changeActor {id : Number} {f : Actor → Except Overflow Actor}
    (h : ∀ a, Yields (f a) fun a' => a.vitals.Changes a'.vitals) : (changeActor id f).Strokes := by
  refine within_changeActor_of fun w a a' ha ha' => ?_
  rcases h a a' ha' with heases | hsuffers
  · exact .single (.gentle (.actor ha heases))
  · exact .single (.hurts ha hsuffers)

/-- An actor of whom only other things change. -/
@[simp] theorem gentle_changeActor_aside {id : Number} {f : Actor → Except Overflow Actor}
    (h : ∀ a, Yields (f a) fun a' => a'.vitals = a.vitals) : (changeActor id f).Gentle :=
  gentle_changeActor fun a a' ha' => .of_eq (h a a' ha')

end Act

namespace Commands

open Act

variable {f : Frame} {c : Command}

/-! ## What commands are made of -/

theorem gentle_changeActors {mode value : Number} {change : Actor → Except Overflow Actor}
    (h : ∀ a, Yields (change a) fun a' => a.vitals.Eases a'.vitals) :
    (changeActors mode value change).Gentle :=
  .bind (within_selectActors mode value) fun _ =>
    Within.forM fun _ _ => gentle_changeActor h

/-- Actors of whom only other things change. -/
theorem gentle_changeActors_aside {mode value : Number} {change : Actor → Except Overflow Actor}
    (h : ∀ a, Yields (change a) fun a' => a'.vitals = a.vitals) :
    (changeActors mode value change).Gentle :=
  gentle_changeActors fun a a' ha' => .of_eq (h a a' ha')

theorem gentle_changeVitals {change : Vitals → Except Overflow Vitals}
    (h : ∀ v, Yields (change v) fun v' => v.Eases v') : (changeVitals c change).Gentle :=
  gentle_changeActors fun a => yields_bind.2 fun v' hv' => yields_pure.2 (h a.vitals v' hv')

theorem strokes_changeVitals {change : Vitals → Except Overflow Vitals}
    (h : ∀ v, Yields (change v) fun v' => v.Changes v') : (changeVitals c change).Strokes :=
  .bind (within_selectActors _ _) fun _ =>
    Within.forM fun _ _ => strokes_changeActor fun a =>
      yields_bind.2 fun v' hv' => yields_pure.2 (h a.vitals v' hv')

/-- A bound on the points bounds the points with it. -/
theorem eases_addParameter (which : Int) (value : Number) (a : Actor) :
    Yields (addParameter which value a) fun a' => a.vitals.Eases a'.vitals := by
  unfold addParameter
  split
  · exact yields_bind.2 fun maxHp _ => yields_pure.2 (.boundsHp maxHp)
  · exact yields_bind.2 fun maxSp _ => yields_pure.2 (.boundsSp maxSp)
  all_goals simp [Vitals.Eases.same]

/-! ## The window -/

/-- The window is written anew. -/
theorem gentle_window {w : World} {g : Game} (l : Layout) (hfits : l.Fits)
    (hsheet : g.message.sheet = l.sheet)
    (hrest : g.estate = { w.game with message := g.message }.estate) :
    ReflTransGen Game.Gentle w.game g :=
  .tail (.single (.window l hfits hsheet)) (.aside hrest)

/-- The window is written anew, and what it asks for stands below some lines. -/
def Announces (g g' : Game) : Prop :=
  ∃ l : Layout, l.Fits ∧ l.lines ≠ [] ∧ g'.message.sheet = l.sheet ∧
    g'.estate = { g with message := g'.message }.estate

/-- A message does not touch a window that waits, and writes any other. -/
theorem announces_of_showMessage (f : Frame) (c : Command) (w : World) :
    Ensures (showMessage f c) w fun _ w' =>
      w.game.message.waiting = true ∧ w'.game = w.game ∨ Announces w.game w'.game := by
  let lines := c.text :: Blocks.continuedLines f.commands (f.pc + 1)
  have hlines : lines ≠ [] := List.cons_ne_nil _ _
  have htext : Announces w.game
      { w.game with message := (lines.foldl Message.addLine w.game.message.clear).present } := by
    refine ⟨.text lines, trivial, hlines, ?_, rfl⟩
    simp only [Message.addLines_clear]
    rfl
  simp only [showMessage, modifyMessage, ensures_bind, ensures_getGame, ensures_ite, ensures_pure,
    ensures_modifyGame]
  refine ⟨fun hwaits => .inl ⟨hwaits, trivial⟩, fun _ => ?_⟩
  split
  · exact ensures_pure.2 (.inr htext)
  · next following _ =>
    split
    · -- The choices stand below the text, where there is room for them.
      let choices := Blocks.optionTexts f.commands
        (f.pc + (Blocks.continuedLines f.commands (f.pc + 1)).length + 2) following.indent
      simp only [ensures_ite, ensures_bind, ensures_modifyGame, ensures_pure]
      refine ⟨fun hroom => .inr ?_, fun _ => .inr htext⟩
      refine ⟨.choice lines choices (.replicate choices.length false), ?_, hlines, ?_, rfl⟩
      · exact ⟨List.length_replicate, fun _ => by rwa [Nat.add_comm]⟩
      · simp only [Message.addLines_clear]
        rfl
    · simp only [ensures_ite, ensures_bind, ensures_modifyGame, ensures_pure]
      refine ⟨fun hroom => .inr ?_, fun _ => .inr htext⟩
      refine ⟨.number lines, hroom, hlines, ?_, rfl⟩
      simp only [Message.addLines_clear]
      rfl
    · exact ensures_pure.2 (.inr htext)

theorem gentle_showMessage (f : Frame) (c : Command) : (showMessage f c).Gentle := by
  intro w
  refine (announces_of_showMessage f c w).imp fun _ w' h => ?_
  rcases h with ⟨-, hsame⟩ | ⟨l, hfits, -, hsheet, hrest⟩
  · exact gentle_aside (congrArg Game.estate hsame)
  · exact gentle_window l hfits hsheet hrest

theorem gentle_showChoice (f : Frame) (c : Command) : (showChoice f c).Gentle := by
  refine within_getGame fun w => ?_
  let choices := Blocks.optionTexts f.commands (f.pc + 1) c.indent
  simp only [modifyMessage, ensures_ite, ensures_bind, ensures_modifyGame, ensures_pure]
  refine ⟨fun _ => .refl, fun _ => ?_⟩
  refine gentle_window (.choice [] choices (.replicate choices.length false)) ?_ rfl rfl
  exact ⟨List.length_replicate, fun h => absurd h (by decide)⟩

theorem gentle_inputNumber (f : Frame) (c : Command) : (inputNumber f c).Gentle := by
  refine within_getGame fun w => ?_
  simp only [modifyMessage, ensures_ite, ensures_bind, ensures_modifyGame, ensures_pure]
  exact ⟨fun _ => .refl, fun _ => gentle_window (.number []) (Nat.succ_pos 3) rfl rfl⟩

/-- The offer and the question of an innkeeper leave room for two answers. -/
theorem gentle_showInn (env : Env) (f : Frame) (c : Command) : (showInn env f c).Gentle := by
  refine within_getGame fun w => ?_
  simp only [ensures_ite, ensures_bind, ensures_modifyGame, ensures_pure]
  refine ⟨fun _ => gentle_aside rfl, fun _ => ⟨fun _ => .refl, fun _ => ?_⟩⟩
  split
  · exact within_warned (by simp) _ w
  · next offer question accept cancel _ =>
    simp only [ensures_bind, ensures_setGame, ensures_pure]
    refine gentle_window (.choice [offer, question] [accept, cancel]
      [w.game.party.gold < c.param 1, false]) ?_ rfl rfl
    exact ⟨rfl, fun _ => Nat.le_refl _⟩

/-! ## Every operation -/

end Commands

/-- The operations that may knock out a member of the party or change who is in it. -/
def SharedOp.isHarsh : SharedOp → Bool
  | changePartyMembers | changeHp | changeCondition => true
  | _ => false

def FieldOp.isHarsh : FieldOp → Bool
  | simulatedAttack => true
  | _ => false

namespace Commands

open Act

theorem gentle_performShared (env : Env) (f : Frame) (c : Command) {op : SharedOp}
    (hop : op.isHarsh = false) : (performShared env f c op).Gentle := by
  cases op with
  | changePartyMembers | changeHp | changeCondition => cases hop
  | showMessage => exact gentle_showMessage f c
  | showChoice => exact gentle_showChoice f c
  | inputNumber => exact gentle_inputNumber f c
  | changeParameters =>
    refine .bind (by simp) fun value => .bind (by simp) fun ids => ?_
    refine .bind (Within.forM fun id _ => ?_) fun _ => ?_
    · refine .bind within_read fun g => .guarded (within_warn (by simp)) ?_
      exact gentle_changeActor (eases_addParameter _ _)
    · exact .bind within_endIfFallen fun _ => within_pure
  | changeSp =>
    refine .bind (by simp) fun value => .bind (gentle_changeVitals fun v v' hv' => ?_) fun _ => ?_
    · exact .spends hv'
    · exact within_pure
  | fullHeal =>
    exact .bind (gentle_changeVitals fun v => yields_ok.2 .restores) fun _ => within_pure
  | changeVehicleGraphic =>
    refine within_getGame fun w => ?_
    split
    · exact within_warned (by simp) _ w
    · simp only [modifySettings, ensures_bind, ensures_setGame, ensures_modifyGame, ensures_pure]
      exact gentle_aside rfl
  | changeClass =>
    refine .bind (gentle_changeActors_aside fun a => yields_ok.2 ?_) fun _ => within_pure
    split <;> rfl
  | _ =>
    dsimp only [performShared, simply, messageOptions, changeFace, controlSwitches,
      controlVariables, timerOperation, changeGold, changeItems, changeExp, changeLevel,
      changeSkills, changeEquipment, changeBattleCommands, changeLook, changeTransition,
      tintScreen, flashScreen, shakeScreen, changeWeather, showPicture, movePicture, erasePicture,
      switchBgm, fadeOutBgm, playMovie, request, modifyScene]
    repeat' first
      | with_reducible refine Within.bind ?_ fun _ => ?_
      | with_reducible refine Within.ite ?_ ?_
      | with_reducible refine Within.forM fun _ _ => ?_
      | with_reducible refine gentle_changeActors_aside fun _ => ?_
      | simp; done
      | exact gentle_modifyGame fun _ => rfl
      | split

theorem gentle_performField (env : Env) (f : Frame) (c : Command) {op : FieldOp}
    (hop : op.isHarsh = false) : (performField env f c op).Gentle := by
  cases op with
  | simulatedAttack => cases hop
  | showInn => exact gentle_showInn env f c
  | _ =>
    dsimp only [performField, simply, conditionalBranch, openShop, enemyEncounter, enterName,
      teleport, memorizeLocation, recallLocation, changeCover, enterExitVehicle,
      setVehicleLocation, changeEventLocation, tradeEventLocations, storeTerrain, storeEvent,
      panScreen, flashSprite, moveEvent, captureKey, changePanorama, changeTeleportTargets,
      changeEscapeTarget, eraseEvent, callEvent, callCommon, callPage, showBattleAnimation,
      playAnimation, planTeleport, modifyField, modifyScene, request]
    repeat' first
      | with_reducible refine Within.bind ?_ fun _ => ?_
      | with_reducible refine Within.ite ?_ ?_
      | simp; done
      | exact gentle_modifyGame fun _ => rfl
      | split

/-! ## Battles -/

/-- Whoever is changed by a change of some kind takes the old place among the enemies. -/
theorem changed_of_changeEnemy {t : Troop} {index : Number} {change : Enemy → Except Overflow Enemy}
    (h : ∀ e, Yields (change e) fun e' => e.vitals.Changes e'.vitals) (w : World) :
    Ensures (changeEnemy t index change) w fun t' w' => w'.game = w.game ∧ t.Changed t' := by
  unfold changeEnemy
  split
  · next e he =>
    simp only [ensures_bind, ensures_check, ensures_pure]
    intro e' he'
    exact ⟨trivial, Troop.changed_setEnemy he (h e e' he')⟩
  · simp only [ensures_bind, ensures_warn, ensures_pure]
    exact ⟨trivial, .of_enemies rfl⟩

theorem gentle_inBattle (f : Frame) (op : BattleOp) {change : Game → Troop → Act Troop}
    (h : ∀ g t w, Ensures (change g t) w fun t' w' => w'.game = w.game ∧ t.Changed t') :
    (inBattle f op change).Gentle := by
  refine within_getGame fun w => ?_
  split
  · exact within_warned (by simp) _ w
  · next t ht =>
    refine Ensures.bind (h w.game t w) fun t' u hu => ?_
    obtain ⟨hgame, hchanged⟩ := hu
    simp only [ensures_bind, ensures_modifyGame, ensures_pure, hgame]
    exact .single (.enemies ht hchanged)

theorem changed_of_forceFlee (c : Command) (t : Troop) (w : World) :
    Ensures (forceFlee c t) w fun t' w' => w'.game = w.game ∧ t.Changed t' := by
  unfold forceFlee
  split
  · exact ensures_pure.2 ⟨rfl, .of_enemies rfl⟩
  · refine ensures_pure.2 ⟨rfl, fun e' he' => ?_⟩
    obtain ⟨e, he, rfl⟩ := List.mem_map.1 he'
    refine ⟨e, he, .inl (.of_eq ?_)⟩
    split <;> rfl
  · refine changed_of_changeEnemy (fun e => yields_ok.2 ?_) w
    exact .inl .same
  · simp only [ensures_bind, ensures_warn, ensures_pure]
    exact ⟨trivial, .of_enemies rfl⟩

theorem changed_of_changeEnemyHp (g : Game) (c : Command) (t : Troop) (w : World) :
    Ensures (changeEnemyHp g c t) w fun t' w' => w'.game = w.game ∧ t.Changed t' := by
  refine changed_of_changeEnemy (fun e => ?_) w
  have hhurts (change : Number) : Yields (do
      return { e with vitals := ← e.vitals.changeHp change (c.flag 4) } : Except Overflow Enemy)
      fun e' => e.vitals.Changes e'.vitals :=
    yields_bind.2 fun vitals hvitals => yields_pure.2 (.inr (.hurts hvitals))
  refine yields_ite.2 ⟨fun _ => yields_ok.2 (.inl .same), fun _ => yields_bind.2 fun change _ => ?_⟩
  refine yields_ite.2 ⟨fun _ => yields_bind.2 fun loss _ => hhurts loss, fun _ => ?_⟩
  exact yields_bind.2 (yields_pure.2 (hhurts change))

theorem changed_of_changeEnemySp (g : Game) (c : Command) (t : Troop) (w : World) :
    Ensures (changeEnemySp g c t) w fun t' w' => w'.game = w.game ∧ t.Changed t' := by
  have hspends (change : Number) : Ensures (changeEnemy t (c.param 0) fun e => do
      return { e with vitals := ← e.vitals.changeSp change }) w
      fun t' w' => w'.game = w.game ∧ t.Changed t' :=
    changed_of_changeEnemy (fun e => yields_bind.2 fun vitals hvitals =>
      yields_pure.2 (.inl (.spends hvitals))) w
  simp only [changeEnemySp, ensures_bind, ensures_ite, ensures_check, ensures_pure]
  exact ⟨fun _ change _ => hspends change, fun _ => hspends _⟩

theorem changed_of_changeEnemyCondition (c : Command) (t : Troop) (w : World) :
    Ensures (changeEnemyCondition c t) w fun t' w' => w'.game = w.game ∧ t.Changed t' := by
  refine changed_of_changeEnemy (fun e => yields_ok.2 ?_) w
  dsimp only
  split
  · exact .inl (.relieves _)
  · exact .inr (.afflicts _)

theorem gentle_showAnimation (env : Env) (f : Frame) (c : Command) :
    (showAnimation env f c).Gentle := by
  have hplayed : ∀ w : World, ∀ a : PlayedAnimation, ReflTransGen Game.Gentle w.game { w.game with
      troop := w.game.troop.map fun t => { t with animations := t.animations ++ [a] } } := by
    intro w a
    refine gentle_aside ?_
    simp only [Game.estate, Option.map_map]
    rfl
  unfold showAnimation playAnimation
  refine .ite within_pure (.bind (.bind (fun w => ?_) fun _ => within_emit) fun _ => ?_)
  · exact ensures_modifyGame.2 (hplayed w _)
  · exact within_pure

theorem gentle_performBattle (env : Env) (f : Frame) (c : Command) (op : BattleOp) :
    (performBattle env f c op).Gentle := by
  cases op with
  | endBranch | elseBranch => exact within_pure
  | branch => exact .bind (within_battleConditionHolds c) fun _ => within_pure
  | callCommonEvent =>
    dsimp only [performBattle, callCommon]
    split
    · exact within_pure
    · exact within_warned (by simp) _
  | enableCombo =>
    exact .bind within_read fun g =>
      .guarded (gentle_changeActor_aside fun _ => yields_ok.2 rfl) within_pure
  | showAnimation => exact gentle_showAnimation env f c
  | forceFlee => exact gentle_inBattle f _ fun _ => changed_of_forceFlee c
  | changeEnemyHp => exact gentle_inBattle f _ fun g => changed_of_changeEnemyHp g c
  | changeEnemySp => exact gentle_inBattle f _ fun g => changed_of_changeEnemySp g c
  | changeEnemyCondition => exact gentle_inBattle f _ fun _ => changed_of_changeEnemyCondition c
  | revealEnemy =>
    exact gentle_inBattle f _ fun _ t =>
      changed_of_changeEnemy fun _ => yields_ok.2 (.inl .same)
  | changeBackground =>
    exact gentle_inBattle f _ fun _ t w => ensures_pure.2 ⟨rfl, .of_enemies rfl⟩
  | terminateBattle =>
    refine within_getGame fun w => ?_
    split
    · exact within_warned (by simp) _ w
    · next t ht =>
      simp only [ensures_bind, ensures_setGame, ensures_pure]
      refine gentle_aside ?_
      simp only [Game.estate, ht]
      rfl

/-! ## Going on -/

theorem gentle_goOn (env : Env) (f : Frame) (k : Awaited) : (goOn env f k).Gentle := by
  have hheals (id : Number) :
      (changeActor id fun a => .ok { a with vitals := a.vitals.restore }).Gentle :=
    gentle_changeActor fun _ => yields_ok.2 .restores
  cases k <;> dsimp only [goOn, afterShop, answerInn, darkenInn, wakeInn, afterBattle, takeChoice,
    switchBgm, request, modifyScene, modifySettings]
  all_goals
    repeat' first
      | with_reducible refine Within.bind ?_ fun _ => ?_
      | with_reducible refine Within.ite ?_ ?_
      | with_reducible refine Within.forM fun _ _ => ?_
      | with_reducible exact hheals _
      | simp; done
      | exact gentle_modifyGame fun _ => rfl
      | split

/-! ## The harsh operations -/

/-- A member may join who exists, and anyone may leave. -/
theorem strokes_changePartyMembers (f : Frame) (c : Command) :
    (changePartyMembers f c).Strokes := by
  refine .bind (within_operand _ _) fun id => within_getGame fun w => ?_
  simp only [ensures_ite, ensures_bind, ensures_warn, ensures_modifyGame, ensures_pure]
  refine ⟨fun _ => .refl, fun hknown => ?_⟩
  have hmoved : w.game.Stroke { w.game with
      party := if c.param 0 = 0 then w.game.party.join id else w.game.party.leave id } := by
    split
    · exact .joins (Option.isSome_iff_ne_none.2 fun h => hknown (by rw [h]; rfl))
    · exact .leaves id
  have hended : endIfFallen.Strokes := within_endIfFallen
  have hasked : needRefresh.Strokes := within_needRefresh
  refine (hended _).imp fun _ u hu => ?_
  exact (hasked u).imp fun _ _ hw => (ReflTransGen.head hmoved hu).trans hw

theorem strokes_hurt (c : Command) (value : Number) (lethal : Bool) :
    (changeVitals c fun v => v.changeHp value lethal).Strokes :=
  strokes_changeVitals fun _ _ hv' => .inr (.hurts hv')

theorem strokes_changeHp (f : Frame) (c : Command) : (changeHp f c).Strokes := by
  refine .bind (within_amount _ _ _) fun value => ?_
  refine .bind (strokes_hurt c value _) fun _ => ?_
  exact .bind within_endIfFallen fun _ => within_pure

theorem strokes_changeStates (c : Command) : (changeVitals c fun v =>
    .ok (if c.flag 2 then v.relieve (c.param 3) else v.afflict (c.param 3))).Strokes := by
  refine strokes_changeVitals fun v => yields_ok.2 ?_
  split
  · exact .inl (.relieves _)
  · exact .inr (.afflicts _)

theorem strokes_changeCondition (f : Frame) (c : Command) : (changeCondition f c).Strokes :=
  .bind (strokes_changeStates c) fun _ =>
    .bind within_endIfFallen fun _ => within_pure

theorem strokes_attack (id loss : Number) : (changeActor id fun a => do
    return { a with vitals := ← a.vitals.changeHp loss true }).Strokes :=
  strokes_changeActor fun _ => yields_bind.2 fun _ hv => yields_pure.2 (.inr (.hurts hv))

theorem strokes_simulatedAttack (f : Frame) (c : Command) : (simulatedAttack f c).Strokes := by
  refine .bind (within_selectActors _ _) fun ids => ?_
  refine .bind (Within.forM fun id _ => ?_) fun _ => within_pure
  refine .bind within_read fun g => ?_
  split
  · exact within_pure
  · refine .bind within_check fun base => ?_
    refine .bind (within_varied _ _) fun damage => ?_
    refine .bind within_check fun loss => ?_
    refine .bind (strokes_attack id loss) fun _ => .bind within_emit fun _ => ?_
    refine .bind within_endIfFallen fun _ => ?_
    split
    · exact .bind (within_setVariable _ _) fun _ => within_needRefresh
    · exact within_pure

/-- An operation is gentle unless it is one of four. -/
theorem gentle_or_harsh_perform (env : Env) (f : Frame) (c : Command) : (perform env f c).Gentle ∨
    perform env f c = changePartyMembers f c ∨ perform env f c = changeHp f c ∨
      perform env f c = changeCondition f c ∨ perform env f c = simulatedAttack f c := by
  unfold perform
  split
  · next op _ =>
    by_cases hop : op.isHarsh = true
    · match op, hop with
      | .changePartyMembers, _ => exact .inr (.inl rfl)
      | .changeHp, _ => exact .inr (.inr (.inl rfl))
      | .changeCondition, _ => exact .inr (.inr (.inr (.inl rfl)))
    · exact .inl (gentle_performShared env f c (Bool.eq_false_iff.2 hop))
  · next op _ _ =>
    by_cases hop : op.isHarsh = true
    · match op, hop with
      | .simulatedAttack, _ => exact .inr (.inr (.inr (.inr rfl)))
    · exact .inl (gentle_performField env f c (Bool.eq_false_iff.2 hop))
  · exact .inl (gentle_performBattle env f c _)
  · exact .inl within_pure
  · exact .inl (within_warned (by simp) _)

theorem strokes_perform (env : Env) (f : Frame) (c : Command) : (perform env f c).Strokes := by
  rcases gentle_or_harsh_perform env f c with hgentle | h | h | h | h
  · exact hgentle.strokes
  · exact h ▸ strokes_changePartyMembers f c
  · exact h ▸ strokes_changeHp f c
  · exact h ▸ strokes_changeCondition f c
  · exact h ▸ strokes_simulatedAttack f c

end Commands

end EventScript
