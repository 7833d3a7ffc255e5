import EventScript.Proofs.Agents
import EventScript.Proofs.Calls
import EventScript.Proofs.Strokes
import EventScript.Proofs.Updates

/-!
# The course of a game

From its start a game takes the strokes of commands, opens battles and leaves them, and nothing
else happens to what is at stake.

* `Game.Move` is a step of a game, whoever takes it.
* `Director.Happens` is anything that happens to a director: its owner calls for something, or an
  interpreter, a frame or a single command acts on its world, be it one of its own or not.
* `Director.Played` holds of whatever comes about in this way from the start of a game, and
  `Played.keeps` shows that what every move keeps holds of it.
-/

namespace EventScript

open Act Relation

namespace Game

/-- A step of a game. A battle begins with the troop of the database, unchanged. -/
inductive Move (data : Database) (g : Game) : Game → Prop
  | stroke {g' : Game} (h : g.Stroke g') : Move data g g'
  | opens (id : Number) :
      Move data g { g with troop := some (((data.troop? id).map Troop.ofData).getD {}) }
  | shuts : Move data g { g with troop := none }

/-- A row of moves. -/
abbrev Course (data : Database) : Game → Game → Prop := ReflTransGen (Move data)

variable {data : Database} {g g' : Game}

theorem course_of_strokes (h : ReflTransGen Stroke g g') : Course data g g' :=
  ReflTransGen.mono (fun _ _ => Move.stroke) _ _ h

theorem course_of_gentle (h : ReflTransGen Gentle g g') : Course data g g' :=
  ReflTransGen.mono (fun _ _ h => Move.stroke (.gentle h)) _ _ h

/-- What is not at stake may change at any time. -/
theorem course_aside (h : g'.estate = g.estate) : Course data g g' :=
  .single (.stroke (.gentle (.aside h)))

end Game

/-! ## Turns and updates -/

namespace Frame

variable {env : Env} {f : Frame}

theorem gentle_finish (f : Frame) : f.finish.Gentle := by
  intro w
  simp only [finish, ensures_bind, ensures_ite, ensures_modifyGame, ensures_pure]
  exact ⟨fun _ => w.game.gentle_close _ _, fun _ => .refl⟩

theorem gentle_queuedEvent (env : Env) : (queuedEvent env).Gentle := by
  refine within_getGame fun w => ?_
  split
  · exact within_pure w
  · simp only [ensures_bind, ensures_setGame, ensures_ite, ensures_warn, ensures_pure]
    exact ⟨fun _ => gentle_aside rfl, fun _ => gentle_aside rfl⟩

theorem gentle_startFieldEvent (env : Env) (f : Frame) : (f.startFieldEvent env).Gentle := by
  refine within_getGame fun w => ?_
  split
  · exact within_pure w
  · split
    · exact within_pure w
    · simp only [ensures_bind, ensures_setGame, ensures_ite, ensures_check, ensures_pure]
      exact ⟨fun _ => gentle_aside rfl, fun _ _ _ => gentle_aside rfl⟩

theorem gentle_startNext (env : Env) (f : Frame) : (f.startNext env).Gentle := by
  have hstart (commands : List Command) (owner mapId : Number) :
      (some <$> check (f.start commands owner mapId) : Act (Option Frame)).Gentle :=
    .map within_check
  refine .bind within_read fun g => .guarded (gentle_modifyGame fun _ => rfl) ?_
  refine .bind (gentle_queuedEvent env) fun queued => ?_
  split
  · exact hstart _ _ _
  · refine .bind (gentle_startFieldEvent env f) fun started => ?_
    split
    · exact within_pure
    · refine .bind within_read fun g => ?_
      split
      · exact hstart _ _ _
      · exact within_pure

theorem strokes_of_proceeds {w w' : World} {t : Turn} (h : f.Proceeds env w t w') :
    ReflTransGen Game.Stroke w.game w'.game := by
  cases h with
  | held | ended => exact .refl
  | @resumes k o u _ _ _ _ ho ht =>
    rw [(ensures_settle env f.ready o u t w' ht).game]
    exact (Commands.gentle_goOn env f.ready k).strokes w o u ho
  | @performs c o u _ _ _ _ _ ho ht =>
    rw [(ensures_settle env f o u t w' ht).game]
    exact Commands.strokes_perform env f c w o u ho
  | finishes _ _ _ hf => exact (gentle_finish f).strokes w _ w' hf
  | starts _ _ hf | idles _ _ hf => exact (gentle_startNext env f).strokes w _ w' hf

/-- A turn does what one command can do. -/
theorem strokes_of_turn (env : Env) (f : Frame) : (f.turn env).Strokes := by
  intro w
  have hpolls (k : KeyCapture) : (Commands.pollKeys env k).Strokes := Commands.within_pollKeys env k
  refine (turns_of_turn env f w).imp fun t w' ht => ?_
  cases ht with
  | reads | follows | counts => exact .refl
  | polls _ hpoll => exact hpolls _ w _ w' hpoll
  | hits _ hpoll hp => exact (hpolls _ w _ _ hpoll).trans (strokes_of_proceeds hp)
  | followed _ _ hp | goes _ _ hp => exact strokes_of_proceeds hp

end Frame

namespace Interpreter

/-- An update does what commands can do. -/
theorem strokes_of_update (env : Env) (levels : Nat) (i : Interpreter) (w : World) :
    Ensures (i.update env levels) w fun _ w' => ReflTransGen Game.Stroke w.game w'.game :=
  leads_of_turns (fun _ => .refl) .trans (fun f => f.strokes_of_turn env) levels i w

end Interpreter

/-! ## Orders and parts -/

namespace Director

open Game

variable {data : Database} {d d' : Director}

/-- A name changes nothing else about an actor. -/
theorem course_of_rename (g : Game) (id : Number) (name : String) (s : Scene)
    (hs : s.gameOver = g.scene.gameOver) : Course data g { g with
      actors := g.actors.modify id fun a => { a with name }
      scene := s } := by
  cases ha : g.actors.get? id with
  | none =>
    rw [IdMap.modify_of_none _ ha]
    refine course_aside ?_
    simp only [estate, hs]
  | some a =>
    rw [IdMap.modify_of_some _ ha]
    have hrename : g.Gentle { g with actors := g.actors.insert id { a with name } } :=
      .actor ha .same
    refine .tail (.single (.stroke (.gentle hrename))) (.stroke (.gentle (.aside ?_)))
    simp only [estate, hs]

theorem course_of_order (o : Order) (d : Director) :
    Ensures o.run d fun _ d' => Course d.data d.game d'.game := by
  cases o with
  | talkTo id =>
    simp only [Order.run, talkTo, ensures_bind, Directing.ensures_act, ensures_getGame,
      ensures_setGame, ensures_pure]
    exact course_aside rfl
  | abandon =>
    simp only [Order.run, abandon, ensures_bind, Directing.ensures_act, ensures_warn,
      Directing.ensures_get, Directing.ensures_modify, ensures_modifyGame]
    exact course_of_gentle (d.game.gentle_close _ _)
  | dismiss choice =>
    simp only [Order.run, dismiss, Directing.ensures_act, ensures_modifyGame]
    exact course_of_gentle (d.game.gentle_close _ _)
  | enterNumber value =>
    simp only [Order.run, enterNumber, ensures_bind, Directing.ensures_act, ensures_getGame,
      needRefresh, ensures_modifyGame]
    have hset : (setVariable d.game.message.numberVariable value).Gentle := within_setVariable _ _
    refine (hset d.world).imp fun _ w hw => ?_
    exact course_of_gentle (hw.trans (w.game.gentle_close _ _))
  | leaveShop purchases =>
    simp only [Order.run, leaveShop, ensures_bind, Directing.ensures_act, ensures_modifyGame]
    intro bought u hu
    obtain ⟨w, rfl, hw⟩ := trades_purchases (R := World.Over (ReflTransGen Game.Gentle)) _ _ _ _ hu
    exact (course_of_gentle hw).trans (course_aside rfl)
  | giveName name =>
    simp only [Order.run, giveName, ensures_bind, Directing.ensures_act, ensures_getGame,
      ensures_ite, ensures_warn, ensures_setGame]
    exact ⟨fun _ => course_of_rename d.game _ name _ rfl,
      fun _ => course_of_rename d.game _ name _ rfl⟩
  | leaveMenu =>
    simp only [Order.run, leaveMenu, ensures_bind, Directing.ensures_act, ensures_getGame,
      ensures_ite, ensures_check, ensures_pure, ensures_setGame]
    exact ⟨fun _ _ _ => course_aside rfl, fun _ => course_aside rfl⟩
  | openBattle =>
    simp only [Order.run, openBattle, ensures_bind, Directing.ensures_get, ensures_ite,
      Directing.ensures_act, ensures_warn, ensures_check, ensures_setGame, Directing.ensures_modify]
    exact ⟨fun _ _ _ => .tail (.single (.opens _)) (.stroke (.gentle (.aside rfl))),
      fun _ _ _ => .tail (.single (.opens _)) (.stroke (.gentle (.aside rfl)))⟩
  | passTurn =>
    simp only [Order.run, passTurn, ensures_bind, Directing.ensures_act, ensures_getGame]
    split
    · next t ht =>
      simp only [ensures_bind, Directing.ensures_act, ensures_check, ensures_setGame,
        Directing.ensures_modify]
      intro turn _
      refine course_aside ?_
      simp only [estate, Director.game, ht]
      rfl
    · simp only [Directing.ensures_modify]
      exact .refl
  | settleBattle result =>
    simp only [Order.run, settleBattle, ensures_bind, Directing.ensures_act, ensures_getGame,
      ensures_check, ensures_setGame, Directing.ensures_modify]
    have hcounted : Yields (countResult d.game.party result) fun p => { d.game with
        party := p
        scene := { d.game.scene with battleResult := result, battleCalling := false }
        troop := none }.estate = { d.game with troop := none }.estate := by
      cases result <;> simp [countResult, estate]
    intro party hparty
    exact .tail (.single .shuts) (.stroke (.gentle (.aside (hcounted party hparty))))
  | attach host => exact Directing.ensures_modify.2 .refl

theorem course_of_carryTeleport (d : Director) :
    Ensures carryTeleport d fun _ d' => Course d.data d.game d'.game := by
  simp only [carryTeleport, ensures_bind, Directing.ensures_act, ensures_getGame]
  split
  · exact ensures_pure.2 .refl
  · simp only [ensures_bind, Directing.ensures_act, ensures_modifyGame, ensures_ite,
      Directing.ensures_get, Directing.ensures_modify, Act.enterMap, ensures_warn]
    exact ⟨fun _ => ⟨fun _ => course_aside rfl, fun _ => course_aside rfl⟩,
      fun _ => course_aside rfl⟩

/-- Every part of a call is a row of moves. -/
theorem course_of_part (p : Part) (d : Director) :
    Ensures p.run d fun _ d' => d'.data = d.data ∧ Course d.data d.game d'.game := by
  have hcourse : Ensures p.run d fun _ d' => Course d.data d.game d'.game := by
    cases p with
    | bindCommon | bindPage | bindTroop | dropCommons | dropPages =>
      refine (game_of_quiet rfl d).imp fun _ d' hgame => ?_
      rw [hgame]
    | update a =>
      simp only [Part.run, updateAgent, ensures_bind, Directing.ensures_get, ensures_update,
        Directing.ensures_modify]
      refine (Interpreter.strokes_of_update d.env levels _ d.world).imp fun j w hw => ?_
      have hgame : (withInterpreter { d with world := w } a j).game = w.game :=
        congrArg World.game (world_withInterpreter _ a j)
      rw [hgame]
      exact course_of_strokes hw
    | world =>
      simp only [Part.run, tickWorld, ensures_bind, Directing.ensures_get, Directing.ensures_act]
      have htick : (tick d.data).Gentle := within_tick _
      exact (htick d.world).imp fun _ _ hw => course_of_gentle hw
    | teleport => exact course_of_carryTeleport d
    | order o => exact course_of_order o d
  exact fun r d' hr => ⟨(fates_of_part p d r d' hr).data, hcourse r d' hr⟩

/-! ## Whatever happens -/

/-- Anything that happens to a director. Interpreters, frames and commands that it does not hold may
act on its world as well as its own, and chance may take any turn. -/
inductive Happens (d : Director) : Director → Prop
  | call (c : Call) {d' : Director} (h : c.run d = .ok ((), d')) : Happens d d'
  | part (p : Part) {d' : Director} (h : p.run d = .ok ((), d')) : Happens d d'
  | update (i : Interpreter) (levels : Nat) {j : Interpreter} {w : World}
      (h : i.update d.env levels d.world = .ok (j, w)) : Happens d { d with world := w }
  | turn (f : Frame) {t : Turn} {w : World} (h : f.turn d.env d.world = .ok (t, w)) :
      Happens d { d with world := w }
  | command (f : Frame) (c : Command) {o : Outcome} {w : World}
      (h : Commands.perform d.env f c d.world = .ok (o, w)) : Happens d { d with world := w }
  | resumption (f : Frame) (k : Awaited) {o : Outcome} {w : World}
      (h : Commands.goOn d.env f k d.world = .ok (o, w)) : Happens d { d with world := w }
  | chance (random : Random) :
      Happens d { d with world := { d.world with game := { d.game with random } } }

/-- The directors that come about from the start of a game, whatever happens. -/
def Played (data : Database) (d : Director) : Prop :=
  ∃ random, ReflTransGen Happens (begin data random) d

/-- Whatever happens to a director is a row of moves in its game. -/
theorem course_of_happens (h : Happens d d') :
    d'.data = d.data ∧ Course d.data d.game d'.game := by
  cases h with
  | call c h =>
    refine (leads_of_call c d () d' h).keeps
      (I := fun u => u.data = d.data ∧ Course d.data d.game u.game) ?_ ⟨rfl, .refl⟩
    rintro p u ⟨hdata, hcourse⟩
    refine (course_of_part p u).imp fun _ u' hu => ⟨hu.1.trans hdata, ?_⟩
    rw [hdata] at hu
    exact hcourse.trans hu.2
  | part p h => exact course_of_part p d () d' h
  | update i levels h =>
    exact ⟨rfl, course_of_strokes (i.strokes_of_update d.env levels d.world _ _ h)⟩
  | turn f h => exact ⟨rfl, course_of_strokes (f.strokes_of_turn d.env d.world _ _ h)⟩
  | command f c h =>
    exact ⟨rfl, course_of_strokes (Commands.strokes_perform d.env f c d.world _ _ h)⟩
  | resumption f k h =>
    exact ⟨rfl, course_of_gentle (Commands.gentle_goOn d.env f k d.world _ _ h)⟩
  | chance random => exact ⟨rfl, course_aside rfl⟩

/-- What holds at the start and is kept by every move holds at any time. -/
theorem Played.keeps {I : Game → Prop} (h : Played data d)
    (hbegin : ∀ random, I (.begin data random))
    (hmove : ∀ g g', g.Move data g' → I g → I g') : I d.game := by
  obtain ⟨random, h⟩ := h
  have hcourse : d.data = data ∧ Course data (.begin data random) d.game := by
    induction h with
    | refl => exact ⟨rfl, .refl⟩
    | tail _ hstep ih =>
      obtain ⟨hdata, hcourse⟩ := ih
      obtain ⟨hdata', hcourse'⟩ := course_of_happens hstep
      rw [hdata] at hdata' hcourse'
      exact ⟨hdata', hcourse.trans hcourse'⟩
  exact keeps_of_steps hmove hcourse.2 (hbegin random)

theorem Reachable.played {random : Random} (h : Reachable data random d) : Played data d := by
  refine ⟨random, ?_⟩
  obtain ⟨calls, h⟩ := h
  refine ensures_forM (I := fun u => ReflTransGen Happens (begin data random) u)
    (fun c _ u hu => ?_) .refl () d h
  exact fun _ u' hu' => hu.tail (.call c hu')

end Director

end EventScript
