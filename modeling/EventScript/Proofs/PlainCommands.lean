import EventScript.Proofs.CommandParts
import EventScript.Proofs.Noted

/-!
# Plain commands

Most commands neither call an event nor touch an answer of the player's side, and ask for a look at
the pages where they write switches or variables. `Act.Plain` says so of a command, and here it is
shown for every command that is plain.
-/

namespace EventScript

/-- The commands that an outcome calls, with their owner. -/
def Outcome.called? : Outcome → Option (List Command × Number)
  | .call commands owner => some (commands, owner)
  | _ => none

/-- Whether nothing is called and no battle is waited for. -/
def Outcome.isPlain : Outcome → Bool
  | .call .. | .await _ .battle => false
  | _ => true

theorem Outcome.called?_of_isPlain {o : Outcome} (h : o.isPlain = true) : o.called? = none := by
  cases o with
  | call => cases h
  | next | rest | retry | await | wait | capture | follow | animate => rfl

theorem Outcome.ne_await_of_isPlain {o : Outcome} (h : o.isPlain = true) (p : Nat) :
    o ≠ .await p .battle := by
  rintro rfl
  cases h

namespace Act

/-- A command that notes what it writes, and neither calls an event nor waits for a battle. -/
def Plain (a : Act Outcome) : Prop :=
  ∀ w, Ensures a w fun o w' => w.game.Noted w'.game ∧ o.isPlain = true

variable {α : Type} {a : Act α} {f : α → Act Outcome}

theorem Plain.pure {o : Outcome} (ho : o.isPlain = true) : (pure o : Act Outcome).Plain :=
  fun w => ensures_pure.2 ⟨.refl w.game, ho⟩

theorem Plain.bind (h : a.Notes) (hf : ∀ x, (f x).Plain) : (a >>= f).Plain := by
  intro w
  refine Ensures.bind (h w) fun x u hu => ?_
  exact (hf x u).imp fun _ _ hw => ⟨hu.trans hw.1, hw.2⟩

theorem Plain.ite {c : Prop} [Decidable c] {a b : Act Outcome} (ha : a.Plain) (hb : b.Plain) :
    (if c then a else b).Plain := by
  split
  · exact ha
  · exact hb

/-- A plain command after an act that is done or left out. -/
theorem Plain.guarded {c : Prop} [Decidable c] {a : Act PUnit} {f : PUnit → Act Outcome}
    (ha : a.Notes) (hf : (f ⟨⟩).Plain) : (if c then a >>= f else f ⟨⟩).Plain :=
  .ite (.bind ha fun _ => hf) hf

theorem plain_getGame {f : Game → Act Outcome}
    (h : ∀ w, Ensures (f w.game) w fun o w' => w.game.Noted w'.game ∧ o.isPlain = true) :
    (getGame >>= f).Plain :=
  fun w => ensures_bind.2 (ensures_getGame.2 (h w))

/-- A plain command that reads the game and lets another do the rest. -/
theorem Plain.get {f : Game → Act Outcome} (h : ∀ g, (f g).Plain) : (getGame >>= f).Plain :=
  plain_getGame fun w => h w.game w

/-- What is written before the pages are asked for is noted. -/
theorem Plain.refresh {a : Act PUnit} {f : PUnit → Act Outcome} (h : a.Steadies)
    (hf : (f ⟨⟩).Plain) : (a >>= fun _ => needRefresh >>= f).Plain := by
  have hnotes : (a >>= fun _ => needRefresh >>= fun _ => (Pure.pure () : Act Unit)).Notes :=
    h.notes_refresh within_pure
  intro w
  have hw := Plain.bind hnotes (fun _ => hf) w
  simpa only [ensures_bind, ensures_pure] using hw

end Act

namespace Commands

open Act

theorem plain_simply {f : Frame} {change : Act Unit} (h : change.Notes) : (simply f change).Plain :=
  .bind h fun _ => .pure rfl

/-- A command that only warns, but not that calls are too deep. -/
theorem plain_warned {f : Frame} {m : Warning} (h : m ≠ .callTooDeep) :
    (do warn m; return Outcome.next f.pc).Plain :=
  plain_simply (within_warn h)

theorem isPlain_waitIf (f : Frame) (flag : Bool) (ticks : UInt32) :
    (waitIf f flag ticks).isPlain = true := by
  unfold waitIf
  split <;> rfl

/-! ## The parts of a game that pages do not depend on -/

theorem notes_modifySettings (c : Settings → Settings) : (modifySettings c).Notes :=
  notes_modifyGame fun _ => rfl

theorem notes_modifyScreen (c : Screen → Screen) : (modifyScreen c).Notes :=
  notes_modifyGame fun _ => rfl

theorem notes_switchBgm (m : Music) : (switchBgm m).Notes :=
  .bind (notes_modifySettings _) fun _ => within_emit

theorem notes_modifyField {c : Field → Field} (hid : ∀ d, (c d).id = d.id)
    (hpages : ∀ d id, ((c d).events.get? id).map (·.page) = (d.events.get? id).map (·.page))
    (hrefresh : ∀ d, (c d).needRefresh = d.needRefresh) : (modifyField c).Notes :=
  fun w => ensures_modifyGame.2
    ⟨⟨⟨hid w.game.field, hpages w.game.field, rfl, fun h => (hrefresh w.game.field).trans h⟩, rfl⟩,
      .inr ⟨rfl, rfl⟩⟩

/-- A change of the field that concerns no event. -/
theorem notes_modifyField_aside {c : Field → Field}
    (h : ∀ d, ((c d).id, (c d).events, (c d).needRefresh) = (d.id, d.events, d.needRefresh)) :
    (modifyField c).Notes := by
  simp only [Prod.mk.injEq] at h
  exact notes_modifyField (fun d => (h d).1) (fun d _ => by rw [(h d).2.1]) fun d => (h d).2.2

/-! ## The message window -/

theorem notes_modifyMessage {c : Message → Message}
    (h : ∀ m, (c m).choiceResult = m.choiceResult) : (modifyMessage c).Notes :=
  notes_modifyGame fun g => by simp only [Game.observed, Game.answers, h]

theorem choiceResult_addLines (texts : List String) (m : Message) :
    (texts.foldl Message.addLine m).choiceResult = m.choiceResult := by
  induction texts generalizing m with
  | nil => rfl
  | cons t texts ih => exact ih (m.addLine t)

theorem plain_showMessage (f : Frame) (c : Command) : (showMessage f c).Plain := by
  refine .get fun g => .ite (.pure rfl) ?_
  refine .bind (notes_modifyMessage fun m => choiceResult_addLines _ m.clear) fun _ => ?_
  split
  · exact .pure rfl
  · split
    · refine .ite (.bind (notes_modifyMessage fun _ => rfl) fun _ => .pure rfl) (.pure rfl)
    · exact .ite (.bind (notes_modifyMessage fun _ => rfl) fun _ => .pure rfl) (.pure rfl)
    · exact .pure rfl

theorem plain_messageOptions (f : Frame) (c : Command) : (messageOptions f c).Plain :=
  .bind (notes_modifyMessage fun _ => rfl) fun _ => .pure rfl

theorem plain_changeFace (f : Frame) (c : Command) : (changeFace f c).Plain :=
  .get fun _ => .ite (.pure rfl) (.bind (notes_modifyMessage fun _ => rfl) fun _ => .pure rfl)

theorem plain_showChoice (f : Frame) (c : Command) : (showChoice f c).Plain :=
  .get fun _ => .ite (.pure rfl) (.bind (notes_modifyMessage fun _ => rfl) fun _ => .pure rfl)

theorem plain_inputNumber (f : Frame) (c : Command) : (inputNumber f c).Plain :=
  .get fun _ => .ite (.pure rfl) (.bind (notes_modifyMessage fun _ => rfl) fun _ => .pure rfl)

theorem plain_takeChoice (f : Frame) : (takeChoice f).Plain := by
  refine .get fun g => ?_
  split <;> exact .pure rfl

/-! ## Switches, variables and timers -/

theorem plain_controlSwitches (f : Frame) (c : Command) : (controlSwitches f c).Plain := by
  refine .bind (within_writtenIds c) fun ids => ?_
  split
  · exact .pure rfl
  · split
    · exact .refresh (within_setSwitches _ _ _) (.pure rfl)
    · exact .refresh (within_setSwitches _ _ _) (.pure rfl)
    · exact .refresh (within_toggleSwitches _ _) (.pure rfl)

theorem plain_controlVariables (env : Env) (f : Frame) (c : Command) :
    (controlVariables env f c).Plain := by
  refine .bind (within_writtenIds c) fun ids => ?_
  split
  · exact .pure rfl
  · split
    · exact plain_warned (by simp)
    · refine .ite (.refresh (.forM fun id _ => ?_) (.pure rfl)) ?_
      · exact .bind (within_draw _ _) fun _ => within_combineVariable _ _ _
      · refine .bind (within_variableOperand env f _ _ _) fun value => ?_
        split
        · exact .pure rfl
        · exact .refresh (within_combineVariables _ _ _ _) (.pure rfl)

theorem plain_timerOperation (env : Env) (f : Frame) (c : Command) :
    (timerOperation env f c).Plain := by
  refine .bind (within_operand _ _) fun seconds => .get fun g => ?_
  have hset (i : Nat) (t : Timer) : (do
      modifyGame fun g =>
        { g with party := { g.party with timers := g.party.timers.setIfInBounds i t } }
      return Outcome.next f.pc : Act Outcome).Plain :=
    .bind (notes_modifyGame fun _ => rfl) fun _ => .pure rfl
  dsimp only
  split
  · exact plain_warned (by simp)
  · split
    · exact .bind within_check fun _ => hset _ _
    · exact hset _ _
    · exact hset _ _
    · exact .pure rfl

/-! ## The party -/

theorem plain_changeGold (f : Frame) (c : Command) : (changeGold f c).Plain :=
  .bind (within_signedOperand _ _ _) fun _ => .bind (within_giveGold _) fun _ => .pure rfl

theorem plain_changeItems (f : Frame) (c : Command) : (changeItems f c).Plain := by
  refine .bind (within_signedOperand _ _ _) fun value => .ite (.pure rfl) ?_
  refine .bind (within_operand _ _) fun item => .bind (within_giveItem item value) fun _ => ?_
  exact .bind within_needRefresh fun _ => .pure rfl

theorem plain_changePartyMembers (f : Frame) (c : Command) : (changePartyMembers f c).Plain := by
  refine .bind (within_operand _ _) fun id => .get fun g => .ite ?_ ?_
  · exact plain_warned (by simp)
  · refine .bind (notes_modifyGame fun _ => rfl) fun _ => .bind within_endIfFallen fun _ => ?_
    exact .bind within_needRefresh fun _ => .pure rfl

theorem plain_changeExp (env : Env) (f : Frame) (c : Command) : (changeExp env f c).Plain :=
  .bind (within_signedOperand _ _ _) fun _ => .bind (within_changeActors _ _ _) fun _ =>
    .bind within_endIfFallen fun _ => .pure rfl

theorem plain_changeLevel (env : Env) (f : Frame) (c : Command) : (changeLevel env f c).Plain :=
  .bind (within_signedOperand _ _ _) fun _ => .bind (within_changeActors _ _ _) fun _ =>
    .bind within_endIfFallen fun _ => .pure rfl

theorem plain_changeParameters (f : Frame) (c : Command) : (changeParameters f c).Plain := by
  refine .bind (within_signedOperand _ _ _) fun value => ?_
  refine .bind (within_selectActors _ _) fun ids => ?_
  refine .bind (.forM fun id _ => ?_)
    fun _ => .bind within_endIfFallen fun _ => .pure rfl
  refine within_getGame fun w => ?_
  exact Within.guarded (within_warn (by simp)) (within_changeActor id _) w

theorem plain_changeSkills (f : Frame) (c : Command) : (changeSkills f c).Plain :=
  .bind (within_operand _ _) fun _ => .bind (within_changeActors _ _ _) fun _ => .pure rfl

theorem plain_changeEquipment (env : Env) (f : Frame) (c : Command) :
    (changeEquipment env f c).Plain := by
  have hequip (item : Number) (slots : List Nat) : (do
      (← selectActors (c.param 0) (c.param 1)).forM fun id => equipSlots item id slots
      return Outcome.next f.pc : Act Outcome).Plain :=
    .bind (within_selectActors _ _) fun _ =>
      .bind (.forM fun id _ => within_equipSlots item id slots) fun _ => .pure rfl
  unfold changeEquipment
  dsimp only
  split
  · refine .bind (within_operand _ _) fun item => ?_
    split
    · exact hequip _ _
    · exact plain_warned (by simp)
  · exact .ite (hequip _ _) (hequip _ _)
  · exact .pure rfl

theorem notes_changeVitals (c : Command) (f : Vitals → Except Overflow Vitals) :
    (changeVitals c f).Notes :=
  within_changeActors _ _ _

theorem plain_changeHp (f : Frame) (c : Command) : (changeHp f c).Plain :=
  .bind (within_amount _ _ _) fun _ => .bind (notes_changeVitals _ _) fun _ =>
    .bind within_endIfFallen fun _ => .pure rfl

theorem plain_changeSp (f : Frame) (c : Command) : (changeSp f c).Plain :=
  .bind (within_amount _ _ _) fun _ => .bind (notes_changeVitals _ _) fun _ => .pure rfl

theorem plain_changeCondition (f : Frame) (c : Command) : (changeCondition f c).Plain :=
  .bind (notes_changeVitals _ _) fun _ => .bind within_endIfFallen fun _ => .pure rfl

theorem plain_fullHeal (f : Frame) (c : Command) : (fullHeal f c).Plain :=
  .bind (notes_changeVitals _ _) fun _ => .pure rfl

theorem plain_changeClass (f : Frame) (c : Command) : (changeClass f c).Plain :=
  .bind (within_changeActors _ _ _) fun _ => .pure rfl

theorem plain_changeBattleCommands (f : Frame) (c : Command) : (changeBattleCommands f c).Plain :=
  .bind (within_changeActors _ _ _) fun _ => .pure rfl

theorem plain_changeLook (f : Frame) (c : Command) (look : Actor → Actor) :
    (changeLook f c look).Plain :=
  .get fun _ => .guarded (within_warn (by simp)) <|
    .bind (within_changeActor _ _) fun _ => .pure rfl

theorem plain_simulatedAttack (f : Frame) (c : Command) : (simulatedAttack f c).Plain := by
  refine .bind (within_selectActors _ _) fun ids => ?_
  refine .bind (.forM fun id _ => within_getGame fun w => ?_) fun _ => .pure rfl
  split
  · exact within_pure w
  · refine Within.bind within_check (fun _ => .bind (within_varied _ _) fun _ => ?_) w
    refine .bind within_check fun _ => .bind (within_changeActor _ _) fun _ => ?_
    refine .bind within_emit fun _ => .bind within_endIfFallen fun _ => ?_
    split
    · exact Steadies.notes_refresh (f := fun _ => pure ()) (within_setVariable _ _) within_pure
    · exact within_pure

/-! ## Sound and sight -/

theorem plain_fadeOutBgm (f : Frame) (c : Command) : (fadeOutBgm f c).Plain :=
  .bind (notes_modifySettings _) fun _ => .bind within_check fun _ => .bind within_emit fun _ =>
    .pure rfl

theorem plain_playMovie (f : Frame) (c : Command) : (playMovie f c).Plain :=
  .bind (within_operand _ _) fun _ => .bind (within_operand _ _) fun _ => .bind within_emit fun _ =>
    .pure rfl

theorem plain_changeTransition (f : Frame) (c : Command) : (changeTransition f c).Plain := by
  unfold changeTransition
  split
  · exact .ite (.bind (notes_modifySettings _) fun _ => .pure rfl) (plain_warned (by simp))
  · exact plain_warned (by simp)

theorem plain_tintScreen (env : Env) (f : Frame) (c : Command) : (tintScreen env f c).Plain :=
  .bind within_check fun _ => .bind (notes_modifyScreen _) fun _ => .bind within_emit fun _ =>
    .pure (isPlain_waitIf _ _ _)

theorem plain_flashScreen (env : Env) (f : Frame) (c : Command) : (flashScreen env f c).Plain := by
  refine .bind within_check fun _ => .ite (.bind (notes_modifyScreen _) fun _ => .pure rfl) ?_
  exact .bind (notes_modifyScreen _) fun _ => .bind within_emit fun _ =>
    .pure (isPlain_waitIf _ _ _)

theorem plain_shakeScreen (env : Env) (f : Frame) (c : Command) : (shakeScreen env f c).Plain := by
  refine .bind within_check fun _ => .ite (.bind (notes_modifyScreen _) fun _ => .pure rfl) ?_
  exact .bind (notes_modifyScreen _) fun _ => .bind within_emit fun _ =>
    .pure (isPlain_waitIf _ _ _)

theorem plain_changeWeather (f : Frame) (c : Command) : (changeWeather f c).Plain :=
  .bind (notes_modifyScreen _) fun _ => .bind within_emit fun _ => .pure rfl

theorem plain_showPicture (f : Frame) (c : Command) : (showPicture f c).Plain :=
  .bind (within_operand _ _) fun _ => .bind (within_operand _ _) fun _ =>
    .bind (notes_modifyScreen _) fun _ => .bind within_emit fun _ => .pure rfl

theorem plain_movePicture (env : Env) (f : Frame) (c : Command) : (movePicture env f c).Plain := by
  refine .bind within_check fun _ => .bind (within_operand _ _) fun _ => ?_
  refine .bind (within_operand _ _) fun _ => .get fun g => ?_
  split
  · exact plain_warned (by simp)
  · exact .bind (notes_modifyScreen _) fun _ => .bind within_emit fun _ =>
      .pure (isPlain_waitIf _ _ _)

theorem plain_erasePicture (f : Frame) (c : Command) : (erasePicture f c).Plain :=
  .bind (notes_modifyScreen _) fun _ => .bind within_emit fun _ => .pure rfl

theorem plain_changeCover (env : Env) (f : Frame) (c : Command) (erase : Bool) :
    (changeCover env f c erase).Plain :=
  .get fun _ => .ite (.pure rfl) (.bind (notes_modifyScreen _) fun _ => .bind within_emit fun _ =>
    .pure rfl)

theorem plain_playAnimation (env : Env) (f : Frame) (waits : Bool) {start : Act Unit}
    (h : start.Notes) : (playAnimation env f waits start).Plain := by
  unfold playAnimation
  split
  · exact .pure (by split <;> rfl)
  · exact .bind h fun _ => .pure (by split <;> rfl)

/-! ## Places -/

theorem plain_planTeleport (env : Env) (f : Frame) (t : Teleport) : (planTeleport env f t).Plain :=
  .get fun _ => .ite (.pure rfl) (.bind (notes_modifyField_aside fun _ => rfl) fun _ =>
    .pure (by split <;> rfl))

theorem plain_teleport (env : Env) (f : Frame) (c : Command) : (teleport env f c).Plain := by
  unfold teleport
  dsimp only
  split
  · exact .bind within_check fun _ => plain_planTeleport _ _ _
  · exact .bind within_pure fun _ => plain_planTeleport _ _ _

theorem plain_memorizeLocation (f : Frame) (c : Command) : (memorizeLocation f c).Plain := by
  refine .get fun g => ?_
  have hwrite : (do
      setVariable (c.param 0) g.field.id
      setVariable (c.param 1) g.field.player.x
      setVariable (c.param 2) g.field.player.y : Act Unit).Steadies :=
    .bind (within_setVariable _ _) fun _ => .bind (within_setVariable _ _) fun _ =>
      within_setVariable _ _
  have h : (_ >>= fun _ => needRefresh >>= fun _ => return Outcome.next f.pc : Act Outcome).Plain :=
    .refresh hwrite (.pure rfl)
  simpa only [bind_assoc] using h

theorem plain_recallLocation (env : Env) (f : Frame) (c : Command) :
    (recallLocation env f c).Plain :=
  .get fun _ => .ite (.bind (notes_modifyField_aside fun _ => rfl) fun _ => .pure rfl)
    (plain_planTeleport _ _ _)

theorem plain_changeTeleportTargets (f : Frame) (c : Command) :
    (changeTeleportTargets f c).Plain :=
  .bind (notes_modifyGame fun _ => rfl) fun _ => .pure rfl

theorem plain_changeEscapeTarget (f : Frame) (c : Command) : (changeEscapeTarget f c).Plain :=
  .bind (notes_modifyGame fun _ => rfl) fun _ => .pure rfl

/-! ## Vehicles -/

theorem observed_setVehicle (g : Game) (kind : Number) (v : Vehicle) :
    { g with field := g.field.setVehicle kind v }.observed = g.observed := by
  unfold Field.setVehicle
  split <;> rfl

theorem notes_setVehicle (kind : Number) (v : Vehicle) :
    (modifyField fun d => d.setVehicle kind v).Notes :=
  notes_modifyGame fun g => observed_setVehicle g kind v

theorem plain_changeVehicleGraphic (f : Frame) (c : Command) :
    (changeVehicleGraphic f c).Plain := by
  refine plain_getGame fun w => ?_
  split
  · exact plain_warned (by simp) w
  · refine Ensures.bind (P := fun _ u => w.game.Noted u.game)
      (ensures_setGame.2 (.of_observed (observed_setVehicle _ _ _))) fun _ u hu => ?_
    exact (Plain.bind (notes_modifySettings _) (fun _ => .pure rfl) u).imp fun _ _ hw =>
      ⟨hu.trans hw.1, hw.2⟩

theorem plain_enterExitVehicle (f : Frame) : (enterExitVehicle f).Plain := by
  refine .get fun g => ?_
  split
  · have hoff : (do
        modifyField fun d => { d with player := { d.player with transparent := false } }
        return Outcome.next f.pc : Act Outcome).Plain :=
      .bind (notes_modifyField_aside fun _ => rfl) fun _ => .pure rfl
    split
    · exact hoff
    · exact .bind (notes_setVehicle _ _) fun _ => hoff
  · refine .bind within_check fun ahead => ?_
    dsimp only
    split
    · exact .pure rfl
    · split
      · exact .pure rfl
      · exact .bind (notes_modifyField_aside fun _ => rfl) fun _ => .pure rfl

theorem plain_setVehicleLocation (f : Frame) (c : Command) : (setVehicleLocation f c).Plain := by
  refine .bind (within_operand _ _) fun _ => .bind (within_operand _ _) fun _ => ?_
  refine .bind (within_operand _ _) fun _ => .get fun g => ?_
  split
  · exact plain_warned (by simp)
  · exact .bind (notes_setVehicle _ _) fun _ => .pure rfl

/-! ## Characters -/

theorem plain_changeEventLocation (f : Frame) (c : Command) :
    (changeEventLocation f c).Plain := by
  refine .bind (within_operand _ _) fun x => .bind (within_operand _ _) fun y => ?_
  refine plain_getGame fun w => ?_
  split
  · exact plain_warned (by simp) w
  · next e he =>
    dsimp only
    split
    · simp only [ensures_bind, ensures_check, ensures_pure, modifyField, ensures_modifyGame]
      exact fun _ _ => ⟨Game.Noted.of_setCharacter he (Character.sameEvent_face _ _).page, rfl⟩
    · simp only [ensures_bind, ensures_pure, modifyField, ensures_modifyGame]
      exact ⟨Game.Noted.of_setCharacter he rfl, rfl⟩

theorem plain_tradeEventLocations (f : Frame) (c : Command) :
    (tradeEventLocations f c).Plain := by
  refine .get fun g => ?_
  dsimp only
  split
  · next first second _ _ =>
    refine .bind (fun w => ensures_modifyGame.2 ?_) fun _ => .pure rfl
    dsimp only
    -- The second event is placed in the field that the first one left.
    cases hfirst : w.game.field.character? (c.param 0) f.owner with
    | none =>
      dsimp only
      split
      · next e he => exact Game.Noted.of_setCharacter he rfl
      · exact .refl w.game
    | some e =>
      let moved : Character := { e with x := second.x, y := second.y }
      have hplaced : w.game.Noted
          { w.game with field := w.game.field.setCharacter (c.param 0) f.owner moved } :=
        Game.Noted.of_setCharacter hfirst rfl
      dsimp only
      split
      · next e' he' => exact hplaced.setCharacter he' rfl
      · exact hplaced
  · exact .pure rfl

theorem plain_storeTerrain (env : Env) (f : Frame) (c : Command) :
    (storeTerrain env f c).Plain := by
  refine .bind (within_operand _ _) fun x => .bind (within_operand _ _) fun y => .get fun g => ?_
  dsimp only
  split
  · exact .bind within_check fun _ => .refresh (within_setVariable _ _) (.pure rfl)
  · exact .bind within_pure fun _ => .refresh (within_setVariable _ _) (.pure rfl)

theorem plain_storeEvent (f : Frame) (c : Command) : (storeEvent f c).Plain :=
  .bind (within_operand _ _) fun _ => .bind (within_operand _ _) fun _ => .get fun _ =>
    .refresh (within_setVariable _ _) (.pure rfl)

theorem plain_flashSprite (env : Env) (f : Frame) (c : Command) : (flashSprite env f c).Plain := by
  refine .bind within_check fun ticks => plain_getGame fun w => ?_
  split
  · exact plain_warned (by simp) w
  · next e he =>
    simp only [ensures_bind, ensures_pure, modifyField, ensures_modifyGame, ensures_emit]
    exact ⟨Game.Noted.of_setCharacter he rfl, isPlain_waitIf _ _ _⟩

theorem plain_moveEvent (f : Frame) (c : Command) : (moveEvent f c).Plain := by
  refine plain_getGame fun w => ?_
  dsimp only
  split
  · exact plain_warned (by simp) w
  · next e he =>
    simp only [ensures_bind, ensures_pure, modifyField, ensures_modifyGame]
    exact ⟨Game.Noted.of_setCharacter he rfl, rfl⟩

theorem plain_eraseEvent (f : Frame) : (eraseEvent f).Plain := by
  unfold eraseEvent
  exact .guarded (notes_modifyField (fun _ => rfl) (fun _ => Field.seen_modify fun _ _ => rfl)
    fun _ => rfl) (.pure rfl)

theorem notes_haltAll : (modifyField Field.haltAll).Notes :=
  notes_modifyField (fun _ => rfl) (fun d j => by
    rw [Field.haltAll, IdMap.get?_map, Option.map_map]
    rfl) fun _ => rfl

/-! ## The view -/

theorem plain_panScreen (f : Frame) (c : Command) : (panScreen f c).Plain := by
  refine .get fun g => .ite (.bind (notes_modifyField_aside fun _ => rfl) fun _ => .pure rfl) ?_
  refine .ite (plain_warned (by simp)) ?_
  refine .guarded (within_warn (by simp)) ?_
  refine .bind within_check fun _ => .bind (notes_modifyField_aside fun _ => rfl) fun _ => ?_
  refine .bind within_emit fun _ => .ite ?_ (.pure rfl)
  exact .bind within_check fun _ => .pure rfl

theorem plain_changePanorama (f : Frame) (c : Command) : (changePanorama f c).Plain :=
  .bind (notes_modifyField_aside fun _ => rfl) fun _ => .pure rfl

theorem plain_showBattleAnimation (env : Env) (f : Frame) (c : Command) :
    (showBattleAnimation env f c).Plain :=
  plain_playAnimation _ _ _ within_emit

/-! ## Keys -/

theorem notes_pollKeys (env : Env) (k : KeyCapture) : (pollKeys env k).Notes := by
  refine .bind within_check fun polls => ?_
  dsimp only
  split
  · exact within_pure
  split
  · exact within_pure
  · next key hkey =>
    split
    · exact Steadies.notes_refresh (within_setVariable k.target key.code) within_pure
    · next target htarget =>
      have hwrite : (do
          setVariable k.target key.code
          let tenfold ← check (Checked.mul (polls - 1) 10)
          setVariable target (tenfold / max env.data.config.fps 1).toInt32 : Act Unit).Steadies :=
        .bind (within_setVariable _ _) fun _ => .bind within_check fun _ =>
          within_setVariable _ _
      have h := hwrite.notes_refresh (f := fun _ => pure (none : Option KeyCapture)) within_pure
      simpa only [bind_assoc] using h

/-! ## Branches -/

theorem plain_conditionalBranch (env : Env) (f : Frame) (c : Command) :
    (conditionalBranch env f c).Plain :=
  .bind (within_conditionHolds env f c) fun _ => .pure rfl

theorem plain_battleBranch (f : Frame) (c : Command) : (battleBranch f c).Plain :=
  .bind (within_battleConditionHolds c) fun _ => .pure rfl

/-! ## Scenes -/

/-- Requests may be raised and lowered as long as no answer changes. -/
theorem notes_modifyScene {c : Scene → Scene}
    (h : ∀ s, (c s).shopTransaction = s.shopTransaction ∧ (c s).battle = s.battle ∧
      (c s).battleResult = s.battleResult) : (modifyScene c).Notes :=
  notes_modifyGame fun g => by
    obtain ⟨hshop, hbattle, hresult⟩ := h g.scene
    simp only [Game.observed, Game.answers, hshop, hbattle, hresult]

theorem plain_request (f : Frame) {raise : Scene → Scene}
    (h : ∀ s, (raise s).shopTransaction = s.shopTransaction ∧ (raise s).battle = s.battle ∧
      (raise s).battleResult = s.battleResult) : (request f raise).Plain :=
  .bind (notes_modifyScene h) fun _ => .pure rfl

theorem plain_enterName (f : Frame) (c : Command) : (enterName f c).Plain :=
  .bind (notes_modifyScene fun _ => ⟨rfl, rfl, rfl⟩) fun _ => .pure rfl

theorem plain_afterShop (f : Frame) : (afterShop f).Plain := .get fun _ => .pure rfl

theorem plain_answerInn (f : Frame) : (answerInn f).Plain := by
  refine .get fun g => .ite (.pure rfl) ?_
  refine .bind (notes_modifyScene fun _ => ⟨rfl, rfl, rfl⟩) fun _ => .ite (.pure rfl) ?_
  refine .bind within_check fun _ => .bind (within_giveGold _) fun _ => ?_
  refine .bind (.forM fun id _ => within_changeActor id _) fun _ => ?_
  exact .bind within_emit fun _ => .bind within_emit fun _ => .pure rfl

theorem plain_darkenInn (env : Env) (f : Frame) : (darkenInn env f).Plain :=
  .ite (.pure rfl) (.get fun _ => .bind (notes_modifySettings _) fun _ =>
    .bind (notes_switchBgm _) fun _ => .pure rfl)

theorem plain_wakeInn (env : Env) (f : Frame) : (wakeInn env f).Plain :=
  .get fun _ => .ite (.pure rfl) (.bind within_emit fun _ => .bind (notes_switchBgm _) fun _ =>
    .pure rfl)

theorem plain_afterBattle (f : Frame) : (afterBattle f).Plain := by
  refine .get fun g => ?_
  dsimp only
  split
  · exact .ite (.pure rfl) (.pure rfl)
  · split <;> exact .pure rfl
  · exact .ite (plain_request f fun _ => ⟨rfl, rfl, rfl⟩) (.pure rfl)
  · exact .pure rfl

/-! ## Battles -/

theorem plain_inBattle (f : Frame) (op : BattleOp) {change : Game → Troop → Act Troop}
    (h : ∀ g t, (change g t).Reads) : (inBattle f op change).Plain := by
  refine plain_getGame fun w => ?_
  split
  · exact plain_warned (by simp) w
  · next t ht =>
    refine Ensures.bind (h w.game t w) fun t' u hu => ?_
    simp only [ensures_bind, ensures_modifyGame, ensures_pure, ← hu]
    exact ⟨.of_observed (by simp only [Game.observed, Game.answers, ht, Option.isSome_some]), rfl⟩

theorem plain_enableCombo (f : Frame) (c : Command) : (enableCombo f c).Plain :=
  .get fun _ => .guarded (within_changeActor _ _) (.pure rfl)

theorem plain_showAnimation (env : Env) (f : Frame) (c : Command) :
    (showAnimation env f c).Plain := by
  refine plain_playAnimation _ _ _ (.bind (notes_modifyGame fun g => ?_) fun _ => within_emit)
  simp only [Game.observed, Game.answers, Option.isSome_map]

end Commands

end EventScript
