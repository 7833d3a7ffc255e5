import EventScript.Proofs.Turns

/-!
# Commands that are tried again

A command that cannot be done yet hands over the tick and is tried again, as often as it takes.

* `Act.Atomic` says of a command that it has done nothing where it has to be tried again;
  `Commands.atomic_perform` shows it of every operation in every context.
* `Frame.attempts_leave_nothing`: however often a command is tried in vain, whatever happens in
  between, and whichever host it meets, only what happened in between is left.
-/

namespace EventScript

open Act

namespace Frame

/-- An outcome after which the same command is not simply tried again. The command at hand is left,
or it waits for something that it did not wait for before. -/
def Advances (f : Frame) : Outcome → Prop
  | .retry => False
  | .rest place => place = f.pc
  | .animate => f.pause ≠ .animation
  | _ => True

end Frame

namespace Act

variable {α : Type} {f : Frame} {m : Act α} {r : α → Act Outcome} {a b : Act Outcome}

/-- Whatever the act of a frame comes to, it goes on. -/
def Advancing (f : Frame) (a : Act Outcome) : Prop :=
  ∀ w, Ensures a w fun o _ => f.Advances o

/-- Whatever the act of a frame comes to, it goes on, or it is to be tried again and has done
nothing. -/
def Atomic (f : Frame) (a : Act Outcome) : Prop :=
  ∀ w, Ensures a w fun o w' => f.Advances o ∨ o = .retry ∧ w' = w

/-- An act that does nothing to the world. -/
def Looks (m : Act α) : Prop := ∀ w, Ensures m w fun _ w' => w' = w

theorem Advancing.pure {o : Outcome} (h : f.Advances o) : (pure o : Act Outcome).Advancing f :=
  fun _ => ensures_pure.2 h

theorem Advancing.bind (h : ∀ x, (r x).Advancing f) : (m >>= r).Advancing f :=
  fun _ => ensures_bind.2 fun x u _ => h x u

theorem Advancing.ite {c : Prop} [Decidable c] (ha : a.Advancing f) (hb : b.Advancing f) :
    (if c then a else b).Advancing f := by
  split
  · exact ha
  · exact hb

theorem Advancing.atomic (h : a.Advancing f) : a.Atomic f :=
  fun w => (h w).imp fun _ _ => .inl

theorem atomic_retry : (Pure.pure Outcome.retry : Act Outcome).Atomic f :=
  fun _ => ensures_pure.2 (.inr ⟨rfl, rfl⟩)

/-- A command that looks at something first. -/
theorem Atomic.look (hm : m.Looks) (hr : ∀ x, (r x).Atomic f) : (m >>= r).Atomic f :=
  fun w => (hm w).bind fun x _ hu => hu ▸ hr x w

theorem Atomic.ite {c : Prop} [Decidable c] (ha : a.Atomic f) (hb : b.Atomic f) :
    (if c then a else b).Atomic f := by
  split
  · exact ha
  · exact hb

theorem looks_getGame : getGame.Looks := fun _ => ensures_getGame.2 rfl

theorem looks_check {x : Except Overflow α} : (check x).Looks :=
  fun _ => ensures_check.2 fun _ _ => rfl

theorem looks_pure {x : α} : (Pure.pure x : Act α).Looks := fun _ => ensures_pure.2 rfl

/-- A command that is tried again where something stands in its way, and else goes on. -/
theorem Atomic.unless {c : Game → Bool} {r : Game → Act Outcome} (h : ∀ g, (r g).Advancing f) :
    (do
      let g ← getGame
      if c g then return .retry
      r g : Act Outcome).Atomic f :=
  .look looks_getGame fun g => .ite atomic_retry (h g).atomic

end Act

namespace Commands

variable {f : Frame} {c : Command}

theorem advances_waitIf (f : Frame) (flag : Bool) (ticks : UInt32) :
    f.Advances (waitIf f flag ticks) := by
  unfold waitIf
  split <;> exact trivial

theorem looks_operand (mode value : Number) : (operand mode value).Looks := by
  unfold operand
  split
  · exact looks_pure
  · exact fun _ => ensures_bind.2 (ensures_getGame.2 (ensures_pure.2 rfl))

/-! ## Commands that may have to be tried again -/

theorem atomic_showMessage (f : Frame) (c : Command) : (showMessage f c).Atomic f := by
  refine .unless fun g => .bind fun _ => ?_
  split
  · exact .pure trivial
  · split
    · exact .ite (.bind fun _ => .pure trivial) (.pure trivial)
    · exact .ite (.bind fun _ => .pure trivial) (.pure trivial)
    · exact .pure trivial

theorem atomic_changeFace (f : Frame) (c : Command) : (changeFace f c).Atomic f :=
  .unless fun _ => .bind fun _ => .pure trivial

theorem atomic_showChoice (f : Frame) (c : Command) : (showChoice f c).Atomic f :=
  .unless fun _ => .bind fun _ => .pure trivial

theorem atomic_inputNumber (f : Frame) (c : Command) : (inputNumber f c).Atomic f :=
  .unless fun _ => .bind fun _ => .pure trivial

/-- The kind of the operation is looked at last, before anything is set. -/
theorem atomic_timerOperation (env : Env) (f : Frame) (c : Command) :
    (timerOperation env f c).Atomic f := by
  refine .look (looks_operand _ _) fun seconds => .look looks_getGame fun g => ?_
  dsimp only
  split
  · exact Advancing.atomic (.bind fun _ => .pure trivial)
  · split
    · exact Advancing.atomic (.bind fun _ => .bind fun _ => .pure trivial)
    · exact Advancing.atomic (.bind fun _ => .pure trivial)
    · exact Advancing.atomic (.bind fun _ => .pure trivial)
    · exact atomic_retry

theorem atomic_changeEquipment (env : Env) (f : Frame) (c : Command) :
    (changeEquipment env f c).Atomic f := by
  have hequip (item : Number) (slots : List Nat) : (do
      (← selectActors (c.param 0) (c.param 1)).forM fun id => equipSlots item id slots
      return Outcome.next f.pc : Act Outcome).Advancing f :=
    .bind fun _ => .bind fun _ => .pure trivial
  unfold changeEquipment
  dsimp only
  split
  · refine Advancing.atomic (.bind fun item => ?_)
    split
    · exact hequip _ _
    · exact .bind fun _ => .pure trivial
  · exact (Advancing.ite (hequip _ _) (hequip _ _)).atomic
  · exact atomic_retry

theorem atomic_openShop (f : Frame) (c : Command) : (openShop f c).Atomic f := by
  unfold openShop
  split
  · exact Advancing.atomic (.bind fun _ => .pure trivial)
  · exact Advancing.atomic (.bind fun _ => .pure trivial)
  · exact Advancing.atomic (.bind fun _ => .pure trivial)
  · exact atomic_retry

/-- A stay that costs nothing does not wait for the window. -/
theorem atomic_showInn (env : Env) (f : Frame) (c : Command) : (showInn env f c).Atomic f := by
  refine .look looks_getGame fun g => .ite ?_ (.ite atomic_retry (Advancing.atomic ?_))
  · exact Advancing.atomic (.bind fun _ => .pure trivial)
  · split
    · exact .bind fun _ => .pure trivial
    · exact .bind fun _ => .pure trivial

theorem atomic_planTeleport (env : Env) (f : Frame) (t : Teleport) :
    (planTeleport env f t).Atomic f := by
  refine .unless (c := fun _ => _) fun _ => .bind fun _ => ?_
  split
  · exact .pure rfl
  · exact .pure trivial

theorem atomic_teleport (env : Env) (f : Frame) (c : Command) : (teleport env f c).Atomic f := by
  unfold teleport
  split
  · exact .look looks_check fun _ => atomic_planTeleport env f _
  · exact .look looks_pure fun _ => atomic_planTeleport env f _

theorem atomic_recallLocation (env : Env) (f : Frame) (c : Command) :
    (recallLocation env f c).Atomic f :=
  .look looks_getGame fun _ =>
    .ite (Advancing.atomic (.bind fun _ => .pure trivial)) (atomic_planTeleport env f _)

theorem atomic_changeCover (env : Env) (f : Frame) (c : Command) (erase : Bool) :
    (changeCover env f c erase).Atomic f :=
  .unless (c := fun _ => _) fun _ => .bind fun _ => .bind fun _ => .pure rfl

/-- An animation that goes on is looked at, one that begins is waited for from then on. -/
theorem atomic_playAnimation (env : Env) (f : Frame) (waits : Bool) (start : Act Unit) :
    (playAnimation env f waits start).Atomic f := by
  unfold playAnimation
  split
  · split
    · exact atomic_retry
    · exact Advancing.atomic (.pure trivial)
  · next hpause =>
    refine Advancing.atomic (.bind fun _ => ?_)
    split
    · exact .pure hpause
    · exact .pure trivial

/-! ## Every command -/

theorem atomic_performShared (env : Env) (f : Frame) (c : Command) (op : SharedOp) :
    (performShared env f c op).Atomic f := by
  cases op with
  | showMessage => exact atomic_showMessage f c
  | changeFaceGraphic => exact atomic_changeFace f c
  | showChoice => exact atomic_showChoice f c
  | inputNumber => exact atomic_inputNumber f c
  | timerOperation => exact atomic_timerOperation env f c
  | changeEquipment => exact atomic_changeEquipment env f c
  | _ =>
    refine Advancing.atomic ?_
    dsimp only [performShared, simply, changeGold, messageOptions, controlSwitches,
      controlVariables, changeItems, changePartyMembers, changeExp, changeLevel, changeParameters,
      changeSkills, changeHp, changeSp, changeCondition, fullHeal, changeClass,
      changeBattleCommands, changeLook, changeVehicleGraphic, changeTransition, tintScreen,
      flashScreen, shakeScreen, changeWeather, showPicture, movePicture, erasePicture, fadeOutBgm,
      playMovie, jumpToLabel, request]
    repeat' first
      | with_reducible refine .bind fun _ => ?_
      | with_reducible refine .ite ?_ ?_
      | with_reducible refine .pure ?_
      | exact advances_waitIf _ _ _
      | exact trivial
      | split

theorem atomic_performField (env : Env) (f : Frame) (c : Command) (op : FieldOp) :
    (performField env f c op).Atomic f := by
  cases op with
  | openShop => exact atomic_openShop f c
  | showInn => exact atomic_showInn env f c
  | teleport => exact atomic_teleport env f c
  | recallToLocation => exact atomic_recallLocation env f c
  | eraseScreen => exact atomic_changeCover env f c true
  | showScreen => exact atomic_changeCover env f c false
  | showBattleAnimation => exact atomic_playAnimation env f _ _
  | _ =>
    refine Advancing.atomic ?_
    dsimp only [performField, simply, conditionalBranch, enemyEncounter, enterName,
      memorizeLocation, enterExitVehicle, setVehicleLocation, changeEventLocation,
      tradeEventLocations, storeTerrain, storeEvent, panScreen, flashSprite, moveEvent, captureKey,
      changePanorama, changeTeleportTargets, changeEscapeTarget, eraseEvent, callEvent, callCommon,
      callPage, simulatedAttack, branchOn, request]
    repeat' first
      | with_reducible refine .bind fun _ => ?_
      | with_reducible refine .ite ?_ ?_
      | with_reducible refine .pure ?_
      | exact advances_waitIf _ _ _
      | exact trivial
      | split

theorem atomic_performBattle (env : Env) (f : Frame) (c : Command) (op : BattleOp) :
    (performBattle env f c op).Atomic f := by
  cases op with
  | showAnimation => exact atomic_playAnimation env f _ _
  | _ =>
    refine Advancing.atomic ?_
    dsimp only [performBattle, battleBranch, callCommon, enableCombo, inBattle, terminateBattle,
      branchOn]
    repeat' first
      | with_reducible refine .bind fun _ => ?_
      | with_reducible refine .ite ?_ ?_
      | with_reducible refine .pure ?_
      | exact trivial
      | exact rfl
      | split

/-- A command that has to be tried again has done nothing. -/
theorem atomic_perform (env : Env) (f : Frame) (c : Command) : (perform env f c).Atomic f := by
  unfold perform
  split
  · exact atomic_performShared env f c _
  · exact atomic_performField env f c _
  · exact atomic_performBattle env f c _
  · exact Advancing.atomic (.pure trivial)
  · exact Advancing.atomic (.bind fun _ => .pure trivial)

end Commands

namespace Frame

variable {env : Env} {f f' : Frame} {c : Command} {w w' : World} {t : Turn}

/-- One attempt at a command. -/
def attempt (env : Env) (f : Frame) (c : Command) : Act Turn := do
  f.settle env (← Commands.perform env f c)

/-- An attempt was in vain: the tick is handed over, and the same command is tried again. -/
structure Retries (f : Frame) (t : Turn) : Prop where
  signal : t.signal = .yield
  pc : t.frame.pc = f.pc
  goesOn (k : Awaited) : t.frame.pause = .goOn k ↔ f.pause = .goOn k
  animation : t.frame.pause = .animation ↔ f.pause = .animation

/-- What goes on is not tried again. -/
theorem settle_of_advances {o : Outcome} (hat : f.commands[f.pc]? = some c)
    (hgoOn : ∀ k, f.pause ≠ .goOn k) (ho : f.Advances o) :
    Ensures (f.settle env o) w fun t _ => ¬ f.Retries t := by
  cases o with
  | next | wait | capture | follow => exact ensures_pure.2 fun h => nomatch h.signal
  | call => exact ensures_bind.2 fun _ _ _ => ensures_pure.2 fun h => nomatch h.signal
  | retry => exact ho.elim
  | await place k => exact ensures_pure.2 fun h => hgoOn k ((h.goesOn k).1 rfl)
  | animate => exact ensures_pure.2 fun h => ho (h.animation.1 rfl)
  | rest place =>
    refine ensures_pure.2 fun h => ?_
    obtain ⟨hpc, -⟩ := List.getElem?_eq_some_iff.1 hat
    have hleft : min (place + 1) f.commands.length = f.pc := h.pc
    have hplace : place = f.pc := ho
    omega

/-- An attempt in vain leaves the world and the frame as they were. -/
theorem ensures_attempt (env : Env) (w : World) (hat : f.commands[f.pc]? = some c)
    (hgoOn : ∀ k, f.pause ≠ .goOn k) :
    Ensures (f.attempt env c) w fun t w' =>
      f.Retries t → t = { frame := f, signal := .yield } ∧ w' = w := by
  refine (Commands.atomic_perform env f c w).bind fun o u ho => ?_
  obtain hadvances | ⟨rfl, rfl⟩ := ho
  · exact (settle_of_advances hat hgoOn hadvances).imp fun _ _ hnot h => absurd h hnot
  · exact ensures_pure.2 fun _ => ⟨rfl, rfl⟩

/-- A run of attempts at a command that were all in vain. After each of them, something else
changes the world. -/
inductive Retried (c : Command) : List (World → World) → Frame → World → Frame → World → Prop
  | nil (f : Frame) (w : World) : Retried c [] f w f w
  | cons {env : Env} {change : World → World} {changes : List (World → World)} {f f' : Frame}
      {t : Turn} {w u w' : World} (hattempt : f.attempt env c w = .ok (t, u)) (hvain : f.Retries t)
      (hrest : Retried c changes t.frame (change u) f' w') :
      Retried c (change :: changes) f w f' w'

/-- After any number of attempts in vain, only what happened in between is left. -/
theorem Retried.eq_foldl {changes : List (World → World)} (h : Retried c changes f w f' w')
    (hat : f.commands[f.pc]? = some c) (hgoOn : ∀ k, f.pause ≠ .goOn k) :
    f' = f ∧ w' = changes.foldl (fun u change => change u) w := by
  induction h with
  | nil f w => exact ⟨rfl, rfl⟩
  | @cons env _ _ _ _ _ w _ _ hattempt hvain _ ih =>
    obtain ⟨rfl, rfl⟩ := ensures_attempt env w hat hgoOn _ _ hattempt hvain
    exact ih hat hgoOn

/-- A command that has to be tried again has done nothing: nothing to its frame, which has called
nothing either, and nothing to the world, that is to the game and to what the outside is told.
However often it is tried in vain, and whatever the outside answers to it each time, only what
happened in between is left. -/
theorem attempts_leave_nothing (f : Frame) (c : Command) (hat : f.commands[f.pc]? = some c)
    (hgoOn : ∀ k, f.pause ≠ .goOn k) :
    (∀ env w t w', f.attempt env c w = .ok (t, w') → f.Retries t →
      t.frame = f ∧ t.called = none ∧ w' = w) ∧
    ∀ changes w f' w', Retried c changes f w f' w' →
      f' = f ∧ w' = changes.foldl (fun u change => change u) w := by
  refine ⟨fun env w t w' hattempt hvain => ?_, fun _ _ _ _ hrun => hrun.eq_foldl hat hgoOn⟩
  obtain ⟨rfl, rfl⟩ := ensures_attempt env w hat hgoOn t w' hattempt hvain
  exact ⟨rfl, rfl, rfl⟩

/-- A teleport, which has to wait for a transition, is tried twice. In between a switch is put
on. -/
theorem teleport_leaves_nothing :
    let c : Command := { code := 10810, params := [2, 4, 5] }
    let f : Frame := { context := .field, depth := 0, isRoot := true, commands := [c], owner := 3 }
    let env : Env := { data := {}, host := { transitionPending := true } }
    let w : World := { game := Game.begin {} default }
    let switchOn (w : World) : World :=
      { w with game := { w.game with switches := w.game.switches.set 1 true } }
    f.commands[f.pc]? = some c ∧ (∀ k, f.pause ≠ .goOn k) ∧
      f.attempt env c w = .ok ({ frame := f, signal := .yield }, w) ∧
      ∃ f' w', Retried c [switchOn, id] f w f' w' ∧ f' = f ∧ w' = switchOn w := by
  intro c f env w switchOn
  have hat : f.commands[f.pc]? = some c := rfl
  have hgoOn (k : Awaited) : f.pause ≠ .goOn k := nofun
  have hvain : f.Retries { frame := f, signal := .yield } := ⟨rfl, rfl, fun _ => .rfl, .rfl⟩
  have hfirst : f.attempt env c w = .ok ({ frame := f, signal := .yield }, w) := rfl
  have hsecond : f.attempt env c (switchOn w) =
      .ok ({ frame := f, signal := .yield }, switchOn w) := rfl
  have hrun : Retried c [switchOn, id] f w f (switchOn w) :=
    .cons hfirst hvain (.cons hsecond hvain (.nil f (switchOn w)))
  obtain ⟨-, hruns⟩ := attempts_leave_nothing f c hat hgoOn
  exact ⟨hat, hgoOn, hfirst, f, switchOn w, hrun, hruns _ _ _ _ hrun⟩

end Frame

end EventScript
