import EventScript.Database.Validation
import EventScript.Proofs.Calls
import EventScript.Proofs.Updates

/-!
# Requests that stand

A request of a scene holds up every event until it is answered. On the field whoever leads the game
is told of it at once. A battle is led on by its turns and does not look at the requests.

* `Interpreter.Updated.blocked`: an update changes nothing that a request is about, and a list that
  was running stays.
* `Director.battleTick_of_blocked` lists what a tick of a battle can come to.
* `Director.running_of_leads`: where the page of a battle was running, no number of ticks ever tells
  of the request.
* `Director.lead_of_blocked` puts this together for the field and for a battle.
-/

namespace EventScript

namespace Game

/-- The requests, the message window and the battle stay as they are. -/
structure SameStage (g g' : Game) : Prop where
  scene : g'.scene = g.scene
  message : g'.message = g.message
  troop : g'.troop = g.troop

variable {g g' g'' : Game}

theorem SameStage.refl (g : Game) : g.SameStage g := ⟨rfl, rfl, rfl⟩

theorem SameStage.trans (h : g.SameStage g') (h' : g'.SameStage g'') : g.SameStage g'' :=
  ⟨h'.scene.trans h.scene, h'.message.trans h.message, h'.troop.trans h.troop⟩

end Game

/-- A request holds every event up where there is a first one to be told of, and only there. -/
theorem Scene.isBlocking_iff (s : Scene) :
    s.isBlocking = true ↔ ∃ stop, s.request? = some stop := by
  rw [← Option.isSome_iff_exists, request?, isBlocking]
  repeat' split
  all_goals simp_all

/-! ## Acts that stay off the stage -/

namespace World

instance : AllowsTime (Over Game.SameStage) where
  toLenient := .over .refl .trans
  chance _ _ := ⟨rfl, rfl, rfl⟩
  gold _ _ := ⟨rfl, rfl, rfl⟩
  item _ := ⟨rfl, rfl, rfl⟩
  equips _ := ⟨rfl, rfl, rfl⟩
  character _ _ := ⟨rfl, rfl, rfl⟩
  noted _ _ _ := ⟨rfl, rfl, rfl⟩
  frames _ _ := ⟨rfl, rfl, rfl⟩
  clocks _ := ⟨rfl, rfl, rfl⟩
  pages _ _ := ⟨rfl, rfl, rfl⟩
  starts _ := ⟨rfl, rfl, rfl⟩

instance : AllowsWrites (Over Game.SameStage) where
  memory _ _ _ := ⟨rfl, rfl, rfl⟩

end World

/-- An act that leaves the requests, the message window and the battle as they are. -/
abbrev Act.KeepsStage {α : Type} (a : Act α) : Prop := a.Within (World.Over Game.SameStage)

/-! ## Events that are held up -/

namespace Frame

open Act

variable {env : Env} {f : Frame} {w : World}

theorem commands_forgetOwner (f : Frame) (mapId : Number) :
    (f.forgetOwner mapId).commands = f.commands := by
  unfold forgetOwner
  split <;> rfl

theorem proceed_of_blocked (h : w.game.scene.isBlocking = true) :
    f.proceed env w = .ok ({ frame := f, signal := .yield }, w) := by
  rw [proceed, getGame_bind, if_pos (by rw [h]; rfl)]
  rfl

/-- What a turn leaves while a request stands. -/
structure StandsStill (f : Frame) (w : World) (t : Turn) (w' : World) : Prop where
  signal : t.signal = .yield
  called : t.called = none
  commands : t.frame.commands = f.commands
  stage : w.game.SameStage w'.game

theorem turn_of_blocked (env : Env) (f : Frame) (h : w.game.scene.isBlocking = true) :
    Ensures (f.turn env) w (f.StandsStill w) := by
  have hproceed (f' : Frame) (hf : f'.commands = f.commands) (u : World)
      (hu : w.game.SameStage u.game) : Ensures (f'.proceed env) u (f.StandsStill w) := by
    intro t w' ht
    cases (proceed_of_blocked (hu.scene.symm ▸ h)).symm.trans ht
    exact ⟨rfl, rfl, hf, hu⟩
  have hsame : w.game.SameStage w.game := .refl _
  simp only [turn, ensures_bind, ensures_getGame, ensures_ite, ensures_pure]
  refine ⟨fun _ => ⟨rfl, rfl, rfl, hsame⟩, fun _ => ?_⟩
  split
  · simp only [ensures_ite, ensures_pure]
    exact ⟨fun _ => ⟨rfl, rfl, rfl, hsame⟩, fun _ => hproceed f.ready rfl w hsame⟩
  · next k _ =>
    have hpoll : (Commands.pollKeys env k).KeepsStage := Commands.within_pollKeys env k
    refine Ensures.bind (hpoll w) fun left u hu => ?_
    cases left with
    | some k' => exact ensures_pure.2 ⟨rfl, rfl, rfl, hu⟩
    | none => exact hproceed f.ready rfl u hu
  · exact ensures_pure.2 ⟨rfl, rfl, rfl, hsame⟩
  · exact hproceed f rfl w hsame

end Frame

namespace Interpreter

variable {env : Env} {f : Frame} {calls : List Frame} {w w' : World} {i : Interpreter}

/-- In an update while a request stands, the request, the window and the battle stay, and the list
of the outermost frame does. -/
theorem Updated.blocked (h : Updated env f calls w i w')
    (hw : w.game.scene.isBlocking = true) :
    i.frame.commands = f.commands ∧ w.game.SameStage w'.game := by
  induction h with
  | spent => exact ⟨rfl, .refl _⟩
  | forgets _ ih =>
    obtain ⟨hcommands, hstage⟩ := ih hw
    exact ⟨hcommands.trans (Frame.commands_forgetOwner _ _), hstage⟩
  | yields ht _ =>
    have hstill := Frame.turn_of_blocked env _ hw _ _ ht
    exact ⟨hstill.commands, hstill.stage⟩
  | again ht hs _ _ =>
    have hstill := Frame.turn_of_blocked env _ hw _ _ ht
    exact nomatch hstill.signal.symm.trans hs
  | inner _ _ ih => exact ⟨rfl, (ih hw).2⟩
  | ended _ _ _ ih ih' =>
    obtain ⟨-, hstage⟩ := ih hw
    obtain ⟨hcommands, hstage'⟩ := ih' (hstage.scene.symm ▸ hw)
    exact ⟨hcommands, hstage.trans hstage'⟩

end Interpreter

namespace Director

open Act

variable {d : Director}

/-! ## Ticks of a battle -/

/-- A page of the troop that is started has commands. -/
theorem Binds.isRunning {pages : List (TroopPage × Nat)} {d' : Director} {started : Bool}
    (h : Binds pages d started d') (hstarted : started = true) : d'.battle.isRunning = true := by
  cases h with
  | none => cases hstarted
  | @page _ _ e _ _ _ hne hstart =>
    obtain ⟨f, rfl, hf⟩ := Interpreter.startedAs_of_start hstart
    change (!f.commands.isEmpty) = true
    rw [hf.commands, hne]
    rfl

/-- What a tick of a battle comes to while a request stands. -/
inductive HeldTick (d : Director) : Bool → Director → Prop
  /-- A page of the troop is held up. -/
  | waits {d' : Director} (hstage : d.game.SameStage d'.game)
      (hrun : d'.battle.isRunning = true) : HeldTick d true d'
  /-- No page is left, and the battle is not decided. -/
  | rests {d' : Director} (hend : d.battle.isRunning = false) (hopen : decided? d.game = none)
      (hgame : d'.game = d.game) : HeldTick d false d'
  /-- No page is left, and the battle is over. -/
  | settles {d' : Director} {result : BattleResult} (hend : d.battle.isRunning = false)
      (hdecided : decided? d.game = some result) (hmessage : d'.game.message = d.game.message)
      (htroop : d'.game.troop = none) (hscene : d'.game.scene =
        { d.game.scene with battleResult := result, battleCalling := false }) : HeldTick d true d'

theorem battleTick_of_blocked (h : d.game.scene.isBlocking = true) :
    Ensures battleTick d (HeldTick d) := by
  have hgo (d₁ : Director) (hgame : d₁.game = d.game) (hrun : d₁.battle.isRunning = true) :
      Ensures (do
        let d ← get
        let battle ← update d.battle
        modify fun d => { d with battle }
        tickWorld
        return true : Directing Bool) d₁ (HeldTick d) := by
    simp only [ensures_bind, Directing.ensures_get, ensures_update, Directing.ensures_modify,
      ensures_pure, tickWorld, Directing.ensures_act]
    refine (Interpreter.updated_of_update _ _ _).imp fun i w hi => ?_
    have hblocked : d₁.world.game.scene.isBlocking = true :=
      (congrArg (fun g : Game => g.scene.isBlocking) hgame).trans h
    obtain ⟨hcommands, hstage⟩ := hi.blocked hblocked
    have htick : (tick d₁.data).KeepsStage := within_tick _
    refine (htick w).imp fun _ u hu => .waits ?_ ?_
    · exact hgame ▸ hstage.trans hu
    · change (!i.frame.commands.isEmpty) = true
      rw [hcommands]
      exact hrun
  simp only [battleTick, ensures_bind, Directing.ensures_get, ensures_ite, ensures_pure] at hgo ⊢
  refine ⟨fun hrun => ⟨fun _ => hgo d rfl hrun, fun h => absurd trivial h⟩, fun hend => ?_⟩
  have hend : d.battle.isRunning = false := Bool.eq_false_iff.2 hend
  intro started d₁ hstarted
  have hbinds := binds_of_startNextPage d started d₁ hstarted
  have hgame : d₁.game = d.game := hbinds.game
  refine ⟨fun hyes => hgo d₁ hgame (hbinds.isRunning hyes), fun _ => ?_⟩
  rw [hgame]
  split
  · next result hresult =>
    simp only [settleBattle, ensures_bind, Directing.ensures_act, ensures_getGame, ensures_check,
      ensures_setGame, Directing.ensures_modify, ensures_pure]
    intro party _
    have hmessage : d₁.world.game.message = d.game.message := congrArg Game.message hgame
    have hscene : d₁.world.game.scene = d.game.scene := congrArg Game.scene hgame
    exact .settles hend hresult hmessage rfl (by rw [← hscene]; rfl)
  · next hopen => exact ensures_pure.2 (.rests hend hopen hgame)

/-! ## Leading on -/

/-- A request stands in a battle of which a page is held up. -/
structure StuckInBattle (d : Director) : Prop where
  read : d.game.message.waiting = false
  blocked : d.game.scene.isBlocking = true
  inBattle : d.game.troop.isSome = true
  running : d.battle.isRunning = true

theorem stuck_of_sameStage {d' : Director} (hread : d.game.message.waiting = false)
    (h : d.game.scene.isBlocking = true) (hbattle : d.game.troop.isSome = true)
    (hstage : d.game.SameStage d'.game) (hrun : d'.battle.isRunning = true) : StuckInBattle d' where
  read := by rw [hstage.message, hread]
  blocked := by rw [hstage.scene, h]
  inBattle := by rw [hstage.troop, hbattle]
  running := hrun

theorem ensures_advance_of_battle (hread : d.game.message.waiting = false)
    (hbattle : d.game.troop.isSome = true) {Q : Option Stop → Director → Prop}
    (h : Ensures battleTick d fun ran d' => Q (if ran then none else some .battleTurn) d') :
    Ensures advance d Q := by
  have hread : ¬ d.world.game.message.waiting = true := Bool.eq_false_iff.1 hread
  simp only [advance, ensures_bind, Directing.ensures_act, ensures_getGame, if_neg hread,
    if_pos (show d.world.game.troop.isSome = true from hbattle), ensures_pure]
  exact h

/-- A request that stands in a battle of which a page is held up stands there after any number of
ticks, and nobody is told of it. -/
theorem lead_of_stuck (h : StuckInBattle d) (n : Nat) :
    Ensures (lead n) d fun stop d' =>
      stop = .running ∧ d.game.SameStage d'.game ∧ StuckInBattle d' := by
  induction n generalizing d with
  | zero =>
    have hread : ¬ d.world.game.message.waiting = true := Bool.eq_false_iff.1 h.read
    simp only [lead, ensures_bind, Directing.ensures_act, ensures_getGame, if_neg hread,
      ensures_pure]
    exact ⟨trivial, .refl _, h⟩
  | succ n ih =>
    rw [lead]
    refine ensures_bind.2 (ensures_advance_of_battle h.read h.inBattle ?_)
    refine (battleTick_of_blocked h.blocked).imp fun ran d₁ htick => ?_
    cases htick with
    | waits hstage hrun =>
      have hstuck := stuck_of_sameStage h.read h.blocked h.inBattle hstage hrun
      refine (ih hstuck).imp fun stop d' hled => ?_
      obtain ⟨hstop, hstage', hstuck'⟩ := hled
      exact ⟨hstop, hstage.trans hstage', hstuck'⟩
    | rests hend | settles hend => exact absurd (h.running.symm.trans hend) Bool.false_ne_true.symm

/-- However often whoever leads the game goes on. -/
theorem running_of_leads (h : StuckInBattle d) (ns : List Nat) :
    Ensures (ns.mapM lead) d fun stops d' =>
      (∀ stop ∈ stops, stop = .running) ∧ d.game.SameStage d'.game := by
  induction ns generalizing d with
  | nil => exact ensures_pure.2 ⟨nofun, .refl _⟩
  | cons n ns ih =>
    rw [List.mapM_cons]
    refine Ensures.bind (lead_of_stuck h n) fun stop d₁ hled => ?_
    obtain ⟨hstop, hstage, hstuck⟩ := hled
    refine Ensures.bind (ih hstuck) fun stops d' hleds => ?_
    obtain ⟨hstops, hstage'⟩ := hleds
    exact ensures_pure.2 ⟨List.forall_mem_cons.2 ⟨hstop, hstops⟩, hstage.trans hstage'⟩

/-- On the field the first request is told of, and nothing else is done. -/
theorem lead_of_request {stop : Stop} (hread : d.game.message.waiting = false)
    (hfield : d.game.troop = none) (h : d.game.scene.request? = some stop) (n : Nat) :
    lead (n + 1) d = .ok (stop, d) := by
  have hgame : (liftM getGame : Directing Game) d = .ok (d.game, d) := rfl
  have hadvance : advance d = .ok (some stop, d) := by
    refine (bind_of_ok hgame).trans ?_
    rw [hread, hfield, h]
    rfl
  exact (bind_of_ok hadvance).trans rfl

/-- When a request that stands is told of. On the field it is told of at once, and nothing else is
done. In a battle of which a page is held up it is never told of, however often whoever leads the
game goes on. Where no page is held up, a page that may run now is started and held up, or the turn
is over, or the battle is and the rest of the ticks is spent on the field. -/
theorem lead_of_blocked (hread : d.game.message.waiting = false)
    (h : d.game.scene.isBlocking = true) :
    (d.game.troop = none →
      ∃ stop, d.game.scene.request? = some stop ∧ ∀ n, lead (n + 1) d = .ok (stop, d)) ∧
    (d.game.troop.isSome = true → d.battle.isRunning = true → ∀ ns : List Nat,
      Ensures (ns.mapM lead) d fun stops d' =>
        (∀ stop ∈ stops, stop = .running) ∧ d.game.SameStage d'.game) ∧
    (d.game.troop.isSome = true → d.battle.isRunning = false → ∀ n,
      Ensures (lead (n + 1)) d fun stop d' =>
        stop = .running ∧ d.game.SameStage d'.game ∧ StuckInBattle d' ∨
        stop = .battleTurn ∧ decided? d.game = none ∧ d'.game = d.game ∨
        ∃ result d₁, decided? d.game = some result ∧ d₁.game.troop = none ∧
          d₁.game.message = d.game.message ∧ d₁.game.scene =
            { d.game.scene with battleResult := result, battleCalling := false } ∧
          lead n d₁ = .ok (stop, d')) := by
  refine ⟨fun hfield => ?_, fun hbattle hrun => running_of_leads ⟨hread, h, hbattle, hrun⟩,
    fun hbattle hend n => ?_⟩
  · obtain ⟨stop, hstop⟩ := d.game.scene.isBlocking_iff.1 h
    exact ⟨stop, hstop, lead_of_request hread hfield hstop⟩
  rw [lead]
  refine ensures_bind.2 (ensures_advance_of_battle hread hbattle ?_)
  refine (battleTick_of_blocked h).imp fun ran d₁ htick => ?_
  cases htick with
  | waits hstage hrun =>
    have hstuck := stuck_of_sameStage hread h hbattle hstage hrun
    refine (lead_of_stuck hstuck n).imp fun stop d' hled => ?_
    obtain ⟨hstop, hstage', hstuck'⟩ := hled
    exact .inl ⟨hstop, hstage.trans hstage', hstuck'⟩
  | rests _ hopen hgame => exact ensures_pure.2 (.inr (.inl ⟨rfl, hopen, hgame⟩))
  | settles _ hdecided hmessage htroop hscene =>
    refine ensures_run.imp fun stop d' hlead => ?_
    exact .inr (.inr ⟨_, d₁, hdecided, htroop, hmessage, hscene, hlead⟩)

/-- A troop whose page ends the game in the first turn, and an event that asks for a battle with
it. -/
def doom : Database where
  maps := [{ id := 1, events := [{ id := 1, pages := [{
    trigger := .autoStart
    commands := [{ code := FieldOp.enemyEncounter.code, params := [0, 1] }] }] }] }]
  troops := [{ id := 1, pages := [{
    condition := { turn := some { start := 0, every := 0 } }
    commands := [{ code := SharedOp.gameOver.code }] }] }]

/-- The end of the game that the page asks for is never told of: there are ticks to go on with, and
all of them are used up. -/
theorem doom_never_told : doom.validate = .ok () ∧ ∃ d, Reachable doom default d ∧
    d.game.scene.request? = some .gameOver ∧ d.game.message.waiting = false ∧
    (∃ d', lead 1 d = .ok (.running, d')) ∧ ∀ ns : List Nat,
      Ensures (ns.mapM lead) d fun stops d' =>
        (∀ stop ∈ stops, stop = .running) ∧ d.game.SameStage d'.game := by
  have hrun : ∃ d,
      [Call.execute 2, .order .openBattle, .execute 1].forM Call.run (begin doom default) =
        .ok ((), d) ∧ d.game.scene.request? = some .gameOver ∧ d.game.message.waiting = false ∧
        d.game.troop.isSome = true ∧ d.battle.isRunning = true ∧
        ∃ d', (Call.execute 1).run d = .ok ((), d') ∧ d'.game.scene.gameOver = true := by
    decide +kernel
  obtain ⟨d, hcalls, hrequest, hread, hbattle, hrunning, d', hnext, -⟩ := hrun
  have hblocked : d.game.scene.isBlocking = true := d.game.scene.isBlocking_iff.2 ⟨_, hrequest⟩
  obtain ⟨stop, u, hlead, -⟩ := bind_eq_ok_iff.1 hnext
  obtain ⟨rfl, -⟩ := lead_of_stuck ⟨hread, hblocked, hbattle, hrunning⟩ 1 stop u hlead
  exact ⟨by rfl, d, ⟨_, hcalls⟩, hrequest, hread, ⟨u, hlead⟩,
    (lead_of_blocked hread hblocked).2.1 hbattle hrunning⟩

end Director

end EventScript
