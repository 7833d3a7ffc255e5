import EventScript.Proofs.CallDepth

/-!
# A stay at an inn, stage by stage

An event that offered a stay waits for the answer, then for the darkness, then for the end of the
tune.

* `Commands.answerInn_of_accepted` and the equations beside it tell for each stage what the event
  does there, by the answer and by the host.
* `World.lodged` is the world after the stay was paid for: gold is gone, and the members of the
  party are restored (`IdMap.get?_restAll`).
-/

namespace EventScript

open Act

/-- An actor who has slept. -/
def Actor.rested (a : Actor) : Actor := { a with vitals := a.vitals.restore }

namespace IdMap

/-- The actors when some of them have slept. -/
def restAll (ids : List Number) (actors : IdMap Actor) : IdMap Actor :=
  ids.foldl (fun m id => m.modify id Actor.rested) actors

theorem get?_restAll (ids : List Number) (actors : IdMap Actor) (id : Number) :
    (restAll ids actors).get? id =
      if id ∈ ids then (actors.get? id).map Actor.rested else actors.get? id := by
  induction ids generalizing actors with
  | nil => rfl
  | cons k ids ih =>
    have hrest : restAll (k :: ids) actors = restAll ids (actors.modify k Actor.rested) := rfl
    have htwice (o : Option Actor) :
        (o.map Actor.rested).map Actor.rested = o.map Actor.rested := by
      cases o <;> rfl
    rw [hrest, ih, get?_modify]
    by_cases hk : id = k
    · by_cases hids : id ∈ ids <;> simp [hk, hk ▸ hids, htwice]
    · by_cases hids : id ∈ ids <;> simp [hk, hids]

end IdMap

/-- Every actor of a selection who is there is changed, one after the other. -/
theorem Act.forM_changeActor (ids : List Number) (k : Actor → Actor) (w : World) :
    (ids.forM fun id => changeActor id fun a => .ok (k a)) w = .ok ((), { w with
      game := { w.game with
        actors := ids.foldl (fun m id => m.modify id k) w.game.actors } }) := by
  induction ids generalizing w with
  | nil => rfl
  | cons id ids ih =>
    have hone : changeActor id (fun a => .ok (k a)) w = .ok ((), { w with
        game := { w.game with actors := w.game.actors.modify id k } }) := by
      rw [changeActor, getGame_bind]
      cases ha : w.game.actors.get? id with
      | none => rw [IdMap.modify_of_none k ha]; rfl
      | some a => rw [IdMap.modify_of_some k ha]; rfl
    exact (bind_of_ok hone).trans (ih _)

namespace World

/-- The world when the offer of an inn is no longer open. -/
def answered (w : World) : World :=
  { w with game := { w.game with scene := { w.game.scene with innCalling := false } } }

/-- The world when a stay was paid for and the screen goes dark. -/
def lodged (w : World) (paid : Number) : World :=
  { w with
    game := { w.game with
      scene := { w.game.scene with innCalling := false }
      party := w.game.party.giveGold paid
      actors := IdMap.restAll w.game.party.members w.game.actors }
    effects := (w.effects.push (.transition true 0)).push (.fadeOutBgm 800) }

/-- The world when the tune of the inn plays and the one before it is kept. -/
def lulled (w : World) : World :=
  let tune := w.game.settings.bgmAt innSlot
  { w with
    game := { w.game with settings := { w.game.settings with
      beforeBattleBgm := w.game.settings.currentBgm
      currentBgm := tune } }
    effects := w.effects.push (.playBgm tune) }

/-- The world when the tune that was kept plays again. -/
def woken (w : World) : World :=
  let tune := w.game.settings.beforeBattleBgm
  { w with
    game := { w.game with settings := { w.game.settings with currentBgm := tune } }
    effects := (w.effects.push (.transition false 0)).push (.playBgm tune) }

end World

/-- Whether an event at an inn waits for the screen or for the tune. -/
def Host.holdsTune (host : Host) (g : Game) : Bool :=
  host.transitionPending || (!(g.settings.bgmAt innSlot).isSilent && !host.bgmPlayedOnce)

namespace Commands

variable {env : Env} {f : Frame} {c : Command} {w : World}

theorem answerInn_of_visible (h : w.game.message.visible = true) :
    answerInn f w = .ok (.await f.pc .innAnswer, w) := by
  rw [answerInn, getGame_bind, if_pos h]
  rfl

section

variable (h : w.game.message.visible = false)

include h

theorem answerInn_of_refused (hr : w.game.message.choiceResult ≠ 0) :
    answerInn f w = .ok (.next (sectionOf f .noStay .endInn), w.answered) := by
  rw [answerInn, getGame_bind, if_neg (Bool.eq_false_iff.1 h)]
  exact (bind_of_ok rfl).trans (by rw [if_pos hr]; rfl)

section

variable (hr : w.game.message.choiceResult = 0) (hc : f.commands[f.pc]? = some c)

include hr hc

theorem answerInn_of_accepted {paid : Number} (hpaid : Checked.neg (c.param 1) = .ok paid) :
    answerInn f w = .ok (.await f.pc .innDarkness, w.lodged paid) := by
  have hmodify : modifyScene (fun s => { s with innCalling := false }) w = .ok ((), w.answered) :=
    rfl
  have hgold : giveGold paid w.answered = .ok ((), { w.answered with
      game := { w.answered.game with party := w.game.party.giveGold paid } }) := rfl
  rw [answerInn, getGame_bind, if_neg (Bool.eq_false_iff.1 h), bind_of_ok hmodify,
    if_neg (not_not.2 hr)]
  simp only [hc, Option.map_some, Option.getD_some]
  rw [bind_of_ok (Frame.check_of_ok hpaid _), bind_of_ok hgold]
  exact (bind_of_ok (forM_changeActor w.game.party.members Actor.rested _)).trans rfl

theorem answerInn_of_overflow {o : Overflow} (hpaid : Checked.neg (c.param 1) = .error o) :
    answerInn f w = .error o := by
  have hmodify : modifyScene (fun s => { s with innCalling := false }) w = .ok ((), w.answered) :=
    rfl
  have hcheck : check (Checked.neg (c.param 1)) w.answered = .error o := by
    rw [check, hpaid]
    rfl
  rw [answerInn, getGame_bind, if_neg (Bool.eq_false_iff.1 h), bind_of_ok hmodify,
    if_neg (not_not.2 hr)]
  simp only [hc, Option.map_some, Option.getD_some]
  exact bind_of_error hcheck

end

end

theorem darkenInn_of_pending (h : env.host.transitionPending = true) :
    darkenInn env f w = .ok (.await f.pc .innDarkness, w) := by
  rw [darkenInn, if_pos h]
  rfl

theorem darkenInn_of_dark (h : env.host.transitionPending = false) :
    darkenInn env f w = .ok (.await f.pc .innTune, w.lulled) := by
  rw [darkenInn, if_neg (Bool.eq_false_iff.1 h)]
  rfl

theorem wakeInn_of_holdsTune (h : env.host.holdsTune w.game = true) :
    wakeInn env f w = .ok (.await f.pc .innTune, w) := by
  unfold Host.holdsTune at h
  rw [wakeInn, getGame_bind, if_pos h]
  rfl

theorem wakeInn_of_over (h : env.host.holdsTune w.game = false) :
    wakeInn env f w = .ok (.rest (sectionOf f .stay .endInn), w.woken) := by
  unfold Host.holdsTune at h
  rw [wakeInn, getGame_bind, if_neg (Bool.eq_false_iff.1 h)]
  rfl

end Commands

end EventScript
