import EventScript.Proofs.Agents
import EventScript.Proofs.CallDepth
import EventScript.Proofs.Calls
import EventScript.Proofs.Linked
import EventScript.Proofs.Stations
import EventScript.Proofs.Traces

/-!
# A game moment by moment

A run of a director is made of the turns of its interpreters and of what else is done to it. Written
down in their order, these are the moments of the run.

* `Frame.Runs` says that a turn runs a command, and `Frame.stations_of_turn` that no other turn, and
  no other command, moves a vehicle, goes to another troop or breaks a battle off.
* `Director.Chronicle` is a run by its moments, and `Reachable.exists_chronicle` shows that every
  run is one.
* `Chronicle.linked`: the moments follow each other without a gap, and each is what it says.
-/

namespace EventScript

open Act Game

/-! ## The command of a turn -/

namespace Frame

/-- A turn that runs a command: the frame comes to it, and does what it asks. -/
inductive Runs (env : Env) (f : Frame) (w : World) (c : Command) : Turn → World → Prop
  | intro {g : Frame} {u v w' : World} {o : Outcome} {t : Turn} (h : f.ComesTo env w g u)
      (hc : g.commands[g.pc]? = some c) (ho : Commands.perform env g c u = .ok (o, v))
      (ht : g.settle env o v = .ok (t, w')) : Runs env f w c t w'

variable {env : Env} {f g : Frame} {w u w' : World} {t : Turn} {c : Command}

/-- A frame that comes to a command stands there as before, and in a game with the same stations. -/
theorem ComesTo.same (h : f.ComesTo env w g u) : g.commands = f.commands ∧ g.pc = f.pc ∧
    g.context = f.context ∧ w.game.SameStations u.game := by
  cases h with
  | goes | followed => exact ⟨rfl, rfl, rfl, .refl _⟩
  | hits _ _ hpoll =>
    have hkept := Commands.within_pollKeys (R := World.Over Game.SameStations) env _ _ _ _ hpoll
    exact ⟨rfl, rfl, rfl, hkept⟩

/-- What a turn that runs a command does to the game, but for keys that were hit before. -/
theorem Runs.performed (h : f.Runs env w c t w') : ∃ g u v o, g.context = f.context ∧
    w.game.SameStations u.game ∧ Commands.perform env g c u = .ok (o, v) ∧ w'.game = v.game := by
  cases h with
  | @intro g u v _ o _ hcomes _ ho ht =>
    obtain ⟨-, -, hcontext, hsame⟩ := hcomes.same
    exact ⟨g, u, v, o, hcontext, hsame, ho, (ensures_settle env g o v t w' ht).game⟩

theorem keepsStations_finish (f : Frame) : f.finish.KeepsStations := by
  unfold finish
  refine .guarded (within_modifyGame fun w => sameStations_iff.2 ?_) within_pure
  refine ⟨?_, ?_, rfl⟩ <;> dsimp only <;> split <;> rfl

theorem keepsStations_startNext (env : Env) (f : Frame) : (f.startNext env).KeepsStations := by
  have hlooked (g : Game) : (g.looked env.data).stations = g.stations := by
    unfold Game.looked
    split <;> rfl
  intro w
  refine (seeks_of_startNext env f w).imp fun s w' h => ?_
  have hset {s : Option Frame} {u v : World} (hu : u.game = (w.game.looked env.data).unqueued)
      (hs : f.startFieldEvent env u = .ok (s, v)) : w.game.SameStations v.game := by
    have hsame : w.game.SameStations u.game := (congrArg Game.stations hu).trans (hlooked w.game)
    refine hsame.trans ?_
    cases setsOff_of_startFieldEvent env f u s v hs with
    | nothing => rfl
    | passes | starts => rfl
  cases h with
  | queued hu => exact (congrArg Game.stations hu).trans (hlooked w.game)
  | due hu hs => exact hset hu hs
  | automatic hu hnone => exact hset hu hnone
  | nothing hu hnone => exact hset hu hnone

/-- What a frame does when it comes to its command, or to the end of its list. -/
theorem runs_or_keeps (hp : g.Proceeds env u t w') (hsame : w.game.SameStations u.game)
    (hcomes : (∀ k, g.pause ≠ .goOn k) → g.isHeld u.game = false → f.ComesTo env w g u) :
    w.game.SameStations w'.game ∨ ∃ c, c.opcode.stationed = true ∧ f.Runs env w c t w' := by
  cases hp with
  | held | ended => exact .inl hsame
  | @resumes k o v _ _ _ _ ho ht =>
    have hkept := Commands.keepsStations_goOn env g.ready k u o v ho
    refine .inl (hsame.trans ?_)
    rw [(ensures_settle env g.ready o v t w' ht).game]
    exact hkept
  | @performs c o v _ _ hfree hk hc ho ht =>
    cases hop : c.opcode.stationed with
    | true => exact .inr ⟨c, hop, .intro (hcomes hk hfree) hc ho ht⟩
    | false =>
      have hkept := Commands.keepsStations_perform env g hop u o v ho
      refine .inl (hsame.trans ?_)
      rw [(ensures_settle env g o v t w' ht).game]
      exact hkept
  | finishes _ _ _ hf => exact .inl (hsame.trans (keepsStations_finish g u _ _ hf))
  | starts _ _ hf | idles _ _ hf =>
    exact .inl (hsame.trans (keepsStations_startNext env g u _ _ hf))

/-- Only a turn that runs one of the three commands changes the stations. -/
theorem stations_of_turn (env : Env) (f : Frame) (w : World) : Ensures (f.turn env) w fun t w' =>
    w.game.SameStations w'.game ∨ ∃ c, c.opcode.stationed = true ∧ f.Runs env w c t w' := by
  intro t w' ht
  cases hread : w.game.message.waiting with
  | true =>
    rw [turn, getGame_bind, hread] at ht
    cases ht
    exact .inl (.refl _)
  | false =>
    cases turns_of_turn env f w t w' ht with
    | reads | follows | counts => exact .inl (.refl _)
    | polls _ hpoll =>
      have hkept := Commands.within_pollKeys (R := World.Over Game.SameStations) env _ w _ _ hpoll
      exact .inl hkept
    | hits hk hpoll hp =>
      have hkept := Commands.within_pollKeys (R := World.Over Game.SameStations) env _ w _ _ hpoll
      refine runs_or_keeps hp hkept fun _ hfree => ?_
      exact .hits hread hk hpoll hfree
    | followed _ hk hp =>
      cases hmove : w.game.field.anyMoving with
      | true =>
        rw [turn, getGame_bind, hread] at ht
        simp only [hk, hmove, Bool.false_eq_true, if_false, if_true] at ht
        cases ht
        exact .inl (.refl _)
      | false => exact runs_or_keeps hp (.refl _) fun _ hfree => .followed hread hk hmove hfree
    | goes _ hk hp =>
      refine runs_or_keeps hp (.refl _) fun hne hfree => .goes hread ?_ hfree
      rcases hk with hk | hk | ⟨k, hk⟩
      · exact .inl hk
      · exact .inr hk
      · exact absurd hk (hne k)

end Frame

/-! ## Moments -/

/-- A moment of a run: a turn that is taken, or anything else that is done to the world. -/
inductive Moment
  | turn (env : Env) (x : Interpreter.Taken)
  | aside (before after : World)

namespace Moment

def before : Moment → World
  | turn _ x => x.before
  | aside w _ => w

def after : Moment → World
  | turn _ x => x.after
  | aside _ w => w

/-- The turn is one of its frame. Whatever else is done moves no vehicle from its berth. -/
def Sound : Moment → Prop
  | turn env x => x.frame.turn env x.before = .ok (x.turn, x.after)
  | aside w w' => w'.game.field.berth = w.game.field.berth

/-- Moments that follow each other, each of which is what it says. -/
abbrev Linked : World → List Moment → World → Prop := EventScript.Linked before after Sound

end Moment

/-- The turns of an update follow each other. -/
theorem Interpreter.Traced.linked {env : Env} {n : Nat} {f : Frame} {calls : List Frame}
    {w w' : World} {l : List Taken} {i : Interpreter} (h : Traced env n f calls w l i w') :
    Moment.Linked w (l.map (.turn env)) w' := by
  induction h with
  | spent => rfl
  | forgets _ ih | inner _ _ ih => exact ih
  | yields hturn => exact ⟨rfl, hturn, rfl⟩
  | again hturn _ _ ih => exact ⟨rfl, hturn, ih⟩
  | ended _ _ _ ih ih' =>
    rw [List.map_append]
    exact ih.append ih'

namespace Director

variable {data : Database} {random : Random} {d d' d'' : Director}

/-! ## What is done besides turns -/

/-- An order that neither begins a battle nor ends one. -/
def Order.isPeaceful : Order → Bool
  | openBattle | settleBattle _ => false
  | _ => true

/-- The stations are none of the owner's business, but for beginning battles and ending them. -/
theorem sameStations_of_order {o : Order} (ho : o.isPeaceful = true) (d : Director) :
    Ensures o.run d fun _ d' => d.game.SameStations d'.game := by
  cases o with
  | openBattle | settleBattle => cases ho
  | talkTo id =>
    simp only [Order.run, talkTo, ensures_bind, Directing.ensures_act, ensures_getGame,
      ensures_setGame, ensures_pure]
    refine .of_field ?_ ?_ <;> unfold Field.setOff <;> split <;> rfl
  | abandon =>
    simp only [Order.run, abandon, ensures_bind, Directing.ensures_act, ensures_warn,
      Directing.ensures_get, Directing.ensures_modify, ensures_modifyGame]
    refine sameStations_iff.2 ⟨?_, ?_, rfl⟩ <;> split <;> rfl
  | dismiss choice =>
    simp only [Order.run, dismiss, Directing.ensures_act, ensures_modifyGame]
    exact .refl _
  | enterNumber value =>
    simp only [Order.run, enterNumber, ensures_bind, Directing.ensures_act, ensures_getGame,
      needRefresh, ensures_modifyGame]
    exact within_setVariable (R := World.Over Game.SameStations) _ value d.world
  | leaveShop purchases =>
    simp only [Order.run, leaveShop, ensures_bind, Directing.ensures_act, ensures_modifyGame]
    intro bought u hu
    obtain ⟨w, rfl, hw⟩ := trades_purchases (R := World.Over Game.SameStations) _ _ _ _ hu
    exact hw
  | giveName name =>
    simp only [Order.run, giveName, ensures_bind, Directing.ensures_act, ensures_getGame,
      ensures_ite, ensures_warn, ensures_setGame]
    exact ⟨fun _ => .refl _, fun _ => .refl _⟩
  | leaveMenu =>
    simp only [Order.run, leaveMenu, ensures_bind, Directing.ensures_act, ensures_getGame,
      ensures_ite, ensures_check, ensures_pure, ensures_setGame]
    exact ⟨fun _ _ _ => .refl _, fun _ => .refl _⟩
  | passTurn =>
    simp only [Order.run, passTurn, ensures_bind, Directing.ensures_act, ensures_getGame]
    split
    · next t ht =>
      simp only [ensures_bind, Directing.ensures_act, ensures_check, ensures_setGame,
        Directing.ensures_modify]
      exact fun turn _ => .of_troop ht rfl
    · exact Directing.ensures_modify.2 (.refl _)
  | attach host => exact Directing.ensures_modify.2 (.refl _)

/-- A battle that begins or ends leaves the field as it is. -/
theorem field_of_battleOrder {o : Order} (ho : o.isPeaceful = false) (d : Director) :
    Ensures o.run d fun _ d' => d'.game.field = d.game.field := by
  cases o with
  | openBattle =>
    simp only [Order.run, openBattle, ensures_bind, Directing.ensures_get, ensures_ite,
      Directing.ensures_act, ensures_warn, ensures_check, ensures_setGame, Directing.ensures_modify]
    exact ⟨fun _ _ _ => rfl, fun _ _ _ => rfl⟩
  | settleBattle result =>
    simp only [Order.run, settleBattle, ensures_bind, Directing.ensures_act, ensures_getGame,
      ensures_check, ensures_setGame, Directing.ensures_modify]
    exact fun _ _ => rfl
  | _ => cases ho

/-- A map is entered with the vehicles as they are. -/
theorem berth_enterMap (g : Game) (data : Database) (id : Number) :
    (g.enterMap data id).field.berth = g.field.berth := by
  unfold Game.enterMap
  dsimp only
  split <;> rfl

theorem berth_of_carryTeleport (d : Director) :
    Ensures carryTeleport d fun _ d' => d'.game.field.berth = d.game.field.berth := by
  simp only [carryTeleport, ensures_bind, Directing.ensures_act, ensures_getGame]
  split
  · exact ensures_pure.2 rfl
  · simp only [ensures_bind, Directing.ensures_act, ensures_modifyGame, ensures_ite,
      Directing.ensures_get, Directing.ensures_modify, Act.enterMap, ensures_warn]
    exact ⟨fun _ => ⟨fun _ => berth_enterMap _ _ _, fun _ => berth_enterMap _ _ _⟩, fun _ => rfl⟩

def Part.isUpdate : Part → Bool
  | update _ => true
  | _ => false

/-- No part but an update moves a vehicle from its berth. -/
theorem berth_of_part {p : Part} (hp : p.isUpdate = false) (d : Director) :
    Ensures p.run d fun _ d' => d'.game.field.berth = d.game.field.berth := by
  cases p with
  | update => cases hp
  | bindCommon | bindPage | bindTroop | dropCommons | dropPages =>
    exact (game_of_quiet rfl d).imp fun _ d' hgame => by rw [hgame]
  | world =>
    simp only [Part.run, tickWorld, ensures_bind, Directing.ensures_get, Directing.ensures_act]
    have htick : (tick d.data).KeepsStations := within_tick _
    exact (htick d.world).imp fun _ _ h => (sameStations_iff.1 h).2.1
  | teleport => exact berth_of_carryTeleport d
  | order o =>
    cases ho : o.isPeaceful with
    | true => exact (sameStations_of_order ho d).imp fun _ _ h => (sameStations_iff.1 h).2.1
    | false => exact (field_of_battleOrder ho d).imp fun _ _ h => by rw [h]

/-! ## Chronicles -/

/-- A run by its moments: the turns of every update, and whatever else is done. -/
inductive Chronicle : Director → List Moment → Director → Prop
  | nil (d : Director) : Chronicle d [] d
  | update (a : Agent) {d d' d'' : Director} {turns : List Interpreter.Taken} {ms : List Moment}
      (h : (Part.update a).run d = .ok ((), d'))
      (hturns : Interpreter.Traced d.env (Interpreter.budget d.env) (d.interpreter a).frame
        (d.interpreter a).calls d.world turns (d'.interpreter a) d'.world)
      (rest : Chronicle d' ms d'') : Chronicle d (turns.map (.turn d.env) ++ ms) d''
  | part {p : Part} {d d' d'' : Director} {ms : List Moment} (hp : p.isUpdate = false)
      (h : p.run d = .ok ((), d')) (rest : Chronicle d' ms d'') :
      Chronicle d (.aside d.world d'.world :: ms) d''

/-- An update is a row of turns. -/
theorem traced_of_updateAgent (a : Agent) (d : Director) : Ensures (updateAgent a) d fun _ d' =>
    ∃ turns, Interpreter.Traced d.env (Interpreter.budget d.env) (d.interpreter a).frame
      (d.interpreter a).calls d.world turns (d'.interpreter a) d'.world := by
  simp only [updateAgent, ensures_bind, Directing.ensures_get, ensures_update,
    Directing.ensures_modify]
  refine (Interpreter.traced_of_update levels (d.interpreter a) d.world).imp fun j w hj => ?_
  rw [world_withInterpreter, interpreter_withInterpreter, if_pos rfl]
  exact hj

theorem Chronicle.append {ms ms' : List Moment} (h : Chronicle d ms d')
    (h' : Chronicle d' ms' d'') : Chronicle d (ms ++ ms') d'' := by
  induction h with
  | nil => exact h'
  | update a hrun hturns _ ih =>
    rw [List.append_assoc]
    exact .update a hrun hturns (ih h')
  | part hp hrun _ ih => exact .part hp hrun (ih h')

/-- Every run of parts has a chronicle. -/
theorem History.exists_chronicle {hs : List (Part × Director)} (h : History d hs d') :
    ∃ ms, Chronicle d ms d' := by
  induction h with
  | nil d => exact ⟨[], .nil d⟩
  | @cons p d d' d'' _ hp _ ih =>
    obtain ⟨ms, hms⟩ := ih
    cases p with
    | update a =>
      obtain ⟨turns, hturns⟩ := traced_of_updateAgent a d () d' hp
      exact ⟨_, .update a hp hturns hms⟩
    | _ => exact ⟨_, .part rfl hp hms⟩

/-- Every run has a chronicle. -/
theorem Reachable.exists_chronicle (h : Reachable data random d) :
    ∃ ms, Chronicle (begin data random) ms d := by
  obtain ⟨hs, h⟩ := h.leads
  exact h.exists_chronicle

/-- The moments of a run follow each other, and each is what it says. -/
theorem Chronicle.linked {ms : List Moment} (h : Chronicle d ms d') :
    Moment.Linked d.world ms d'.world := by
  induction h with
  | nil => rfl
  | update a _ hturns _ ih => exact hturns.linked.append ih
  | @part p d d' _ _ hp hrun _ ih => exact ⟨rfl, berth_of_part hp d () d' hrun, ih⟩

end Director

end EventScript
