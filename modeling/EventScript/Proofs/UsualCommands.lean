import EventScript.Proofs.CommandParts

/-!
# What usual commands do

Five operations are unusual: two reserve a move of the player to another map, two put vehicles
somewhere or let someone get on or off, and one breaks a battle off. All others do little to the
map, to its vehicles and to a battle, and so do answers.

* `World.AllowsUsual` relations allow what usual commands do. Whatever is proved of a command for
  all of them need not be proved for each.
* `Commands.within_performShared`, `Commands.within_performField`, `Commands.within_performBattle`
  and `Commands.within_goOn` are about the usual operations of every context and about answers.
* `World.AllowsMoves` relations also allow the first two of the unusual operations, and
  `World.AllowsDepartures` relations the other three. `Commands.within_perform_of_moves`,
  `Commands.within_perform_of_departs` and `Commands.within_perform` are about all that a command
  can be then.
-/

namespace EventScript

namespace World

/-- A relation that allows usual commands. They change anything but the field, the battle and the
common event that is queued. On the field they leave the map, events, vehicles and the reserved move
alone, but for characters that stay the same event, erased events, dropped routes and the look of a
vehicle; and in a battle they leave the troop and whether it was broken off. -/
class AllowsUsual (R : World → World → Prop) : Prop extends Lenient R where
  aside {w : World} {g : Game} : g.field = w.game.field → g.troop = w.game.troop →
    g.scene.commonEventId = w.game.scene.commonEventId → R w { w with game := g }
  ground {w : World} {d : Field} :
    (d.id, d.events, d.vehicles, d.teleport) = (w.game.field.id, w.game.field.events,
      w.game.field.vehicles, w.game.field.teleport) →
      R w { w with game := { w.game with field := d } }
  character {w : World} {id self : Number} {e c : Character} :
    w.game.field.character? id self = some e → e.SameEvent c →
      R w { w with game := { w.game with field := w.game.field.setCharacter id self c } }
  erases (w : World) (id : Number) : R w { w with game := { w.game with
    field := { w.game.field with
      events := w.game.field.events.modify id fun e => { e with active := false } } } }
  halts (w : World) : R w { w with game := { w.game with field := w.game.field.haltAll } }
  vehicle {w : World} {kind : Number} {v v' : Vehicle} : w.game.field.vehicle? kind = some v →
    (v'.mapId, v'.inUse) = (v.mapId, v.inUse) →
      R w { w with game := { w.game with field := w.game.field.setVehicle kind v' } }
  fights {w : World} {t t' : Troop} : w.game.troop = some t →
    (t'.id, t'.terminated) = (t.id, t.terminated) →
      R w { w with game := { w.game with troop := some t' } }

/-- A relation that also allows moves of the player to be reserved. -/
class AllowsMoves (R : World → World → Prop) : Prop extends AllowsUsual R where
  plans (w : World) (t : Teleport) :
    R w { w with game := { w.game with field := { w.game.field with teleport := some t } } }

/-- A relation that also allows vehicles to be put anywhere, the player to get on and off, and a
battle to be broken off. -/
class AllowsDepartures (R : World → World → Prop) : Prop extends AllowsUsual R where
  departs {w : World} {d : Field} :
    (d.id, d.events, d.teleport) = (w.game.field.id, w.game.field.events, w.game.field.teleport) →
      R w { w with game := { w.game with field := d } }
  breaks (w : World) (t : Troop) : R w { w with game := { w.game with troop := some t } }

variable {R : World → World → Prop}

instance [AllowsUsual R] : AllowsWrites R where
  toLenient := AllowsUsual.toLenient
  chance _ _ := AllowsUsual.aside rfl rfl rfl
  gold _ _ := AllowsUsual.aside rfl rfl rfl
  item _ := AllowsUsual.aside rfl rfl rfl
  equips _ := AllowsUsual.aside rfl rfl rfl
  character := AllowsUsual.character
  noted w switches vars := by
    let u : World := { w with game := { w.game with switches, vars } }
    have hmemory : R w u := AllowsUsual.aside rfl rfl rfl
    have hasked : R u { u with game := { u.game with
      field := { u.game.field with needRefresh := true } } } := AllowsUsual.ground rfl
    exact Lenient.trans hmemory hasked
  memory _ _ _ := AllowsUsual.aside rfl rfl rfl

instance [AllowsUsual R] : AllowsActors R where
  toLenient := AllowsUsual.toLenient
  ends _ := AllowsUsual.aside rfl rfl rfl
  actors _ _ := AllowsUsual.aside rfl rfl rfl

end World

/-- Whether an operation may put a vehicle somewhere, let someone get on or off, or break a battle
off. -/
def Opcode.stationed : Opcode → Bool
  | .field .enterExitVehicle | .field .setVehicleLocation | .battle .terminateBattle => true
  | _ => false

namespace Commands

open Act World

/-- Whether an operation may reserve a move of the player. -/
def reservesMove (op : FieldOp) : Bool := op = .teleport || op = .recallToLocation

/-- The commands that may reserve a move, which they do in the field only. -/
def movesPlayer (f : Frame) (c : Command) : Bool :=
  match f.context, c.opcode with
  | .field, .field op => reservesMove op
  | _, _ => false

variable {R : World → World → Prop}

section Usual

variable [AllowsUsual R]

theorem within_aside {c : Game → Game}
    (h : ∀ g, ((c g).field, (c g).troop, (c g).scene.commonEventId) =
      (g.field, g.troop, g.scene.commonEventId)) : (modifyGame c).Within R := by
  simp only [Prod.mk.injEq] at h
  exact within_modifyGame fun w =>
    AllowsUsual.aside (h w.game).1 (h w.game).2.1 (h w.game).2.2

@[simp] theorem within_modifyMessage (c : Message → Message) : (modifyMessage c).Within R :=
  within_aside fun _ => rfl

@[simp] theorem within_modifySettings (c : Settings → Settings) : (modifySettings c).Within R :=
  within_aside fun _ => rfl

@[simp] theorem within_modifyScreen (c : Screen → Screen) : (modifyScreen c).Within R :=
  within_aside fun _ => rfl

theorem within_modifyScene {c : Scene → Scene} (h : ∀ s, (c s).commonEventId = s.commonEventId) :
    (modifyScene c).Within R :=
  within_modifyGame fun w => AllowsUsual.aside rfl rfl (h w.game.scene)

theorem within_ground {c : Field → Field} (h : ∀ d, ((c d).id, (c d).events, (c d).vehicles,
    (c d).teleport) = (d.id, d.events, d.vehicles, d.teleport)) : (modifyField c).Within R :=
  within_modifyGame fun w => AllowsUsual.ground (h w.game.field)

@[simp] theorem within_switchBgm (m : Music) : (switchBgm m).Within R :=
  .bind (within_modifySettings _) fun _ => within_emit

theorem within_request (f : Frame) {raise : Scene → Scene}
    (h : ∀ s, (raise s).commonEventId = s.commonEventId) : (request f raise).Within R :=
  .bind (within_modifyScene h) fun _ => within_pure

/-! ## Operations of every context -/

theorem within_changeVehicleGraphic (f : Frame) (c : Command) :
    (changeVehicleGraphic f c).Within R := by
  refine within_getGame fun w => ?_
  split
  · exact within_warned (by simp) _ w
  · next v hv =>
    refine ensures_bind.2 (ensures_setGame.2 ?_)
    have hrest : (do
        modifySettings fun s => { s with
          vehicleSprites := s.vehicleSprites.setIfInBounds (c.param 0).toInt.toNat
            { name := c.text, index := c.param 1 } }
        return Outcome.next f.pc : Act Outcome).Within R :=
      .bind (within_modifySettings _) fun _ => within_pure
    refine (hrest _).imp fun _ _ h => Lenient.trans (AllowsUsual.vehicle hv ?_) h
    rfl

theorem within_performShared (env : Env) (f : Frame) (c : Command) (op : SharedOp) :
    (performShared env f c op).Within R := by
  cases op with
  | changeVehicleGraphic => exact within_changeVehicleGraphic f c
  | gameOver => exact within_request f fun _ => rfl
  | _ =>
    dsimp only [performShared, simply, showMessage, messageOptions, changeFace, showChoice,
      inputNumber, controlSwitches, controlVariables, timerOperation, changeGold, changeItems,
      changePartyMembers, changeExp, changeLevel, changeParameters, changeSkills, changeEquipment,
      changeHp, changeSp, changeCondition, fullHeal, changeClass, changeBattleCommands, changeLook,
      changeTransition, tintScreen, flashScreen, shakeScreen, changeWeather, showPicture,
      movePicture, erasePicture, fadeOutBgm, playMovie, changeVitals]
    repeat' first
      | with_reducible refine .bind ?_ fun _ => ?_
      | with_reducible refine Within.ite ?_ ?_
      | with_reducible refine Within.forM fun _ _ => ?_
      | simp; done
      | exact within_aside fun _ => rfl
      | split

/-! ## Operations of the field -/

theorem within_setCharacter {w : World} {id self : Number} {e c : Character}
    (he : w.game.field.character? id self = some e) (hc : e.SameEvent c) :
    Ensures (modifyField fun d => d.setCharacter id self c) w fun _ w' => R w w' :=
  ensures_modifyGame.2 (AllowsUsual.character he hc)

theorem within_showInn (env : Env) (f : Frame) (c : Command) : (showInn env f c).Within R := by
  refine within_getGame fun w => ?_
  simp only [ensures_ite, ensures_bind, ensures_modifyGame, ensures_pure]
  refine ⟨fun _ => AllowsUsual.aside rfl rfl rfl, fun _ => ⟨fun _ => Lenient.refl w, fun _ => ?_⟩⟩
  split
  · exact within_warned (by simp) _ w
  · simp only [ensures_bind, ensures_setGame, ensures_pure]
    exact AllowsUsual.aside rfl rfl rfl

theorem within_changeEventLocation (f : Frame) (c : Command) :
    (changeEventLocation f c).Within R := by
  refine .bind (within_operand _ _) fun x => ?_
  refine .bind (within_operand _ _) fun y => within_getGame fun w => ?_
  split
  · exact within_warned (by simp) _ w
  · next e he =>
    dsimp only
    split
    · simp only [ensures_bind, ensures_check, ensures_pure]
      have hmoved : e.SameEvent { e with x, y } := ⟨rfl, rfl⟩
      exact fun _ _ => within_setCharacter he (hmoved.trans (Character.sameEvent_face _ _))
    · simp only [ensures_bind, ensures_pure]
      exact within_setCharacter he ⟨rfl, rfl⟩

/-- A character goes where another one stands, if it is there at all. -/
theorem allows_standIn (w : World) (d : Field) (id owner : Number) (other : Character) :
    R { w with game := { w.game with field := d } } { w with game := { w.game with
      field := match d.character? id owner with
        | some e => d.setCharacter id owner { e with x := other.x, y := other.y }
        | none => d } } := by
  let u : World := { w with game := { w.game with field := d } }
  split
  · next e he =>
    exact AllowsUsual.character (w := u) he ⟨rfl, rfl⟩
  · exact Lenient.refl u

theorem within_tradeEventLocations (f : Frame) (c : Command) :
    (tradeEventLocations f c).Within R := by
  refine .bind within_read fun g => ?_
  dsimp only
  split
  · next first second _ _ =>
    refine .bind (fun w => ensures_modifyGame.2 ?_) fun _ => within_pure
    -- the second character is placed in the field that the first one left
    have hsecond : R w _ := allows_standIn w w.game.field (c.param 0) f.owner second
    exact Lenient.trans hsecond (allows_standIn w _ (c.param 1) f.owner first)
  · exact .bind within_pure fun _ => within_pure

theorem within_flashSprite (env : Env) (f : Frame) (c : Command) :
    (flashSprite env f c).Within R := by
  refine .bind within_check fun ticks => within_getGame fun w => ?_
  split
  · exact within_warned (by simp) _ w
  · next e he =>
    refine ensures_bind.2 ((within_setCharacter (R := R) he ?_).imp fun _ u hu => ?_)
    · exact ⟨rfl, rfl⟩
    · simp only [ensures_bind, ensures_emit, ensures_pure]
      exact Lenient.trans hu (Lenient.emit u _)

theorem within_moveEvent (f : Frame) (c : Command) : (moveEvent f c).Within R := by
  refine within_getGame fun w => ?_
  dsimp only
  split
  · exact within_warned (by simp) _ w
  · next e he =>
    simp only [ensures_bind, ensures_pure]
    exact within_setCharacter he ⟨rfl, rfl⟩

theorem within_eraseEvent (f : Frame) : (eraseEvent f).Within R := by
  unfold eraseEvent
  exact .guarded (within_modifyGame fun w => AllowsUsual.erases w f.owner) within_pure

theorem within_performField (env : Env) (f : Frame) (c : Command) {op : FieldOp}
    (hmove : reservesMove op = false) (hdeparts : (Opcode.field op).stationed = false) :
    (performField env f c op).Within R := by
  cases op with
  | teleport | recallToLocation => cases hmove
  | enterExitVehicle | setVehicleLocation => cases hdeparts
  | showInn => exact within_showInn env f c
  | changeEventLocation => exact within_changeEventLocation f c
  | tradeEventLocations => exact within_tradeEventLocations f c
  | flashSprite => exact within_flashSprite env f c
  | moveEvent => exact within_moveEvent f c
  | eraseEvent => exact within_eraseEvent f
  | haltAllMovement =>
    have hhalts : (modifyField Field.haltAll).Within R :=
      within_modifyGame fun w => AllowsUsual.halts w
    exact .bind hhalts fun _ => within_pure
  | openSaveMenu | openMainMenu | returnToTitle => exact within_request f fun _ => rfl
  | _ =>
    dsimp only [performField, simply, conditionalBranch, openShop, enemyEncounter, enterName,
      memorizeLocation, changeCover, storeTerrain, storeEvent, panScreen, captureKey,
      changePanorama, changeTeleportTargets, changeEscapeTarget, callEvent, callCommon, callPage,
      simulatedAttack, showBattleAnimation, playAnimation]
    repeat' first
      | with_reducible refine .bind ?_ fun _ => ?_
      | with_reducible refine Within.ite ?_ ?_
      | with_reducible refine Within.forM fun _ _ => ?_
      | simp; done
      | with_reducible exact within_modifyScene fun _ => rfl
      | with_reducible exact within_ground fun _ => rfl
      | exact within_aside fun _ => rfl
      | split

/-! ## Operations of a battle -/

/-- A change of the enemies, which neither brings another troop nor breaks the battle off. -/
theorem within_inBattle {f : Frame} {op : BattleOp} {change : Game → Troop → Act Troop}
    (h : ∀ g t w, Ensures (change g t) w fun t' w' =>
      w'.game = w.game ∧ (t'.id, t'.terminated) = (t.id, t.terminated) ∧ R w w') :
    (inBattle f op change).Within R := by
  refine within_getGame fun w => ?_
  split
  · exact within_warned (by simp) _ w
  · next t ht =>
    simp only [ensures_bind, ensures_modifyGame, ensures_pure]
    refine (h w.game t w).imp fun t' u hu => ?_
    exact Lenient.trans hu.2.2 (AllowsUsual.fights (hu.1.symm ▸ ht) hu.2.1)

/-- What becomes of the troop where one enemy changes. -/
theorem fights_changeEnemy (t : Troop) (index : Number) (change : Enemy → Except Overflow Enemy)
    (w : World) : Ensures (changeEnemy t index change) w fun t' w' =>
      w'.game = w.game ∧ (t'.id, t'.terminated) = (t.id, t.terminated) ∧ R w w' := by
  unfold changeEnemy
  split
  · simp only [ensures_bind, ensures_check, ensures_pure]
    intro e _
    refine ⟨trivial, ?_, Lenient.refl w⟩
    unfold Troop.setEnemy
    split <;> rfl
  · simp only [ensures_bind, ensures_warn, ensures_pure]
    exact ⟨trivial, trivial, Lenient.warn (by simp)⟩

theorem within_showAnimation (env : Env) (f : Frame) (c : Command) :
    (showAnimation env f c).Within R := by
  refine .ite within_pure (.bind (.bind (within_modifyGame fun w => ?_) fun _ => within_emit)
    fun _ => within_pure)
  cases ht : w.game.troop with
  | none => exact AllowsUsual.aside rfl ht.symm rfl
  | some t => exact AllowsUsual.fights ht rfl

theorem within_performBattle (env : Env) (f : Frame) (c : Command) {op : BattleOp}
    (hop : (Opcode.battle op).stationed = false) : (performBattle env f c op).Within R := by
  have hsame (t : Troop) (w : World) : w.game = w.game ∧
      (t.id, t.terminated) = (t.id, t.terminated) ∧ R w w := ⟨rfl, rfl, Lenient.refl w⟩
  cases op with
  | terminateBattle => cases hop
  | showAnimation => exact within_showAnimation env f c
  | forceFlee =>
    refine within_inBattle fun g t w => ?_
    unfold forceFlee
    split
    · exact ensures_pure.2 (hsame t w)
    · exact ensures_pure.2 (hsame t w)
    · exact fights_changeEnemy _ _ _ w
    · simp only [ensures_bind, ensures_warn, ensures_pure]
      exact ⟨trivial, trivial, Lenient.warn (by simp)⟩
  | changeEnemySp =>
    refine within_inBattle fun g t w => ?_
    simp only [changeEnemySp, ensures_bind, ensures_ite, ensures_check, ensures_pure]
    exact ⟨fun _ _ _ => fights_changeEnemy t _ _ w, fun _ => fights_changeEnemy t _ _ w⟩
  | changeEnemyHp | changeEnemyCondition | revealEnemy =>
    exact within_inBattle fun _ t w => fights_changeEnemy t _ _ w
  | changeBackground => exact within_inBattle fun _ t w => ensures_pure.2 (hsame t w)
  | _ =>
    dsimp only [performBattle, battleBranch, callCommon, enableCombo]
    repeat' first
      | with_reducible refine .bind ?_ fun _ => ?_
      | with_reducible refine Within.ite ?_ ?_
      | simp; done
      | split

/-! ## Answers -/

theorem within_goOn (env : Env) (f : Frame) (k : Awaited) : (goOn env f k).Within R := by
  cases k <;> dsimp only [goOn, afterShop, answerInn, darkenInn, wakeInn, afterBattle, takeChoice]
  all_goals
    repeat' first
      | with_reducible refine .bind ?_ fun _ => ?_
      | with_reducible refine Within.ite ?_ ?_
      | with_reducible refine Within.forM fun _ _ => ?_
      | simp; done
      | with_reducible exact within_modifyScene fun _ => rfl
      | with_reducible exact within_request f fun _ => rfl
      | split

/-! ## Every usual command -/

theorem within_perform_usual (env : Env) {f : Frame} {c : Command}
    (hmoves : movesPlayer f c = false) (hdeparts : c.opcode.stationed = false) :
    (perform env f c).Within R := by
  unfold movesPlayer at hmoves
  unfold perform
  split
  · exact within_performShared env f c _
  · next op hcontext hop =>
    rw [hcontext, hop] at hmoves
    exact within_performField env f c hmoves (hop ▸ hdeparts)
  · next hop => exact within_performBattle env f c (hop ▸ hdeparts)
  · exact within_pure
  · exact within_warned (by simp) _

end Usual

/-! ## Unusual commands -/

section Moves

variable [AllowsMoves R]

theorem within_planTeleport (env : Env) (f : Frame) (t : Teleport) :
    (planTeleport env f t).Within R :=
  .bind within_read fun _ => .ite within_pure <|
    .bind (within_modifyGame fun w => AllowsMoves.plans w t) fun _ => within_pure

theorem within_teleport (env : Env) (f : Frame) (c : Command) : (teleport env f c).Within R :=
  .ite (.bind within_check fun _ => within_planTeleport env f _) (within_planTeleport env f _)

/-- On the same map the player is there at once. -/
theorem within_recallLocation (env : Env) (f : Frame) (c : Command) :
    (recallLocation env f c).Within R :=
  .bind within_read fun _ => .ite (.bind (within_ground fun _ => rfl) fun _ => within_pure)
    (within_planTeleport env f _)

theorem within_perform_of_moves (env : Env) (f : Frame) {c : Command}
    (hdeparts : c.opcode.stationed = false) : (perform env f c).Within R := by
  cases hmoves : movesPlayer f c with
  | false => exact within_perform_usual env hmoves hdeparts
  | true =>
    unfold movesPlayer at hmoves
    unfold perform
    split at hmoves
    · next op hcontext hop =>
      rw [hcontext, hop]
      cases op with
      | teleport => exact within_teleport env f c
      | recallToLocation => exact within_recallLocation env f c
      | _ => cases hmoves
    · cases hmoves

end Moves

section Departures

variable [AllowsDepartures R]

theorem within_departure {c : Field → Field} (h : ∀ d, ((c d).id, (c d).events, (c d).teleport) =
    (d.id, d.events, d.teleport)) : (modifyField c).Within R :=
  within_modifyGame fun w => AllowsDepartures.departs (h w.game.field)

theorem within_setVehicle (kind : Number) (v : Vehicle) :
    (modifyField fun d => d.setVehicle kind v).Within R := by
  refine within_departure fun d => ?_
  unfold Field.setVehicle
  split <;> rfl

theorem within_enterExitVehicle (f : Frame) : (enterExitVehicle f).Within R := by
  have hoff : (do
      modifyField fun d => { d with player := { d.player with transparent := false } }
      return Outcome.next f.pc : Act Outcome).Within R :=
    .bind (within_departure fun _ => rfl) fun _ => within_pure
  refine .bind within_read fun g => ?_
  split
  · split
    · exact hoff
    · exact .bind (within_setVehicle _ _) fun _ => hoff
  · refine .bind within_check fun ahead => ?_
    dsimp only
    split
    · exact within_pure
    · split
      · exact within_pure
      · exact .bind (within_departure fun _ => rfl) fun _ => within_pure

theorem within_setVehicleLocation (f : Frame) (c : Command) :
    (setVehicleLocation f c).Within R := by
  refine .bind (within_operand _ _) fun mapId => .bind (within_operand _ _) fun x => ?_
  refine .bind (within_operand _ _) fun y => .bind within_read fun g => ?_
  split
  · exact within_warned (by simp) _
  · exact .bind (within_setVehicle _ _) fun _ => within_pure

theorem within_terminateBattle (f : Frame) : (terminateBattle f).Within R := by
  refine within_getGame fun w => ?_
  split
  · exact within_warned (by simp) _ w
  · next t ht =>
    simp only [ensures_bind, ensures_setGame, ensures_pure]
    let u : World := { w with game := { w.game with troop := some { t with terminated := true } } }
    exact Lenient.trans (AllowsDepartures.breaks w _) (AllowsUsual.aside (w := u) rfl rfl rfl)

theorem within_perform_of_departs (env : Env) {f : Frame} {c : Command}
    (hmoves : movesPlayer f c = false) : (perform env f c).Within R := by
  cases hdeparts : c.opcode.stationed with
  | false => exact within_perform_usual env hmoves hdeparts
  | true =>
    have hwarned (op : Opcode) : (simply f (warn (.outsideContext op))).Within R :=
      within_warned (by simp) _
    unfold Opcode.stationed at hdeparts
    unfold perform
    split at hdeparts
    · next hop =>
      rw [hop]
      cases f.context with
      | field => exact within_enterExitVehicle f
      | battle => exact hwarned _
    · next hop =>
      rw [hop]
      cases f.context with
      | field => exact within_setVehicleLocation f c
      | battle => exact hwarned _
    · next hop =>
      rw [hop]
      cases f.context with
      | field => exact hwarned _
      | battle => exact within_terminateBattle f
    · cases hdeparts

end Departures

/-- A command moves the player, or puts vehicles somewhere, or does neither. -/
theorem within_perform [AllowsMoves R] [AllowsDepartures R] (env : Env) (f : Frame)
    (c : Command) : (perform env f c).Within R := by
  cases hmoves : movesPlayer f c with
  | false => exact within_perform_of_departs env hmoves
  | true =>
    refine within_perform_of_moves env f ?_
    unfold movesPlayer at hmoves
    split at hmoves
    · next op _ hop =>
      rw [hop]
      cases op with
      | teleport | recallToLocation => rfl
      | _ => cases hmoves
    · cases hmoves

end Commands

end EventScript
