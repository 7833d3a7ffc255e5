import EventScript.Proofs.Execution

/-!
# Updates run a layout to its end

A list of commands that is the layout of a program is started by itself, and updates follow it until
nothing is left.

* `Program.start_of_layout`: a layout can always be started, since none of its commands lands
  outside the numbers.
* `Interpreter.updates_on_one_level`: where no command calls an event, one level of frames is
  enough.
* `Program.updates_of_runs`: some number of updates, on any budget and any number of levels, leaves
  the interpreter without commands, with the game that the program leads to and with nothing handed
  to the host.
-/

namespace EventScript

open Act Relation

/-! ## The start of a layout -/

namespace Program

variable {p : Program} {indent : Number} {commands : List Command}

theorem opcode_of_mem_layout (h : p.layout indent = .ok commands) {c : Command}
    (hc : c ∈ commands) : c.opcode ∈ opcodes :=
  (fits_of_mem_layout h c hc).2

/-- A layout can be started. -/
theorem start_of_layout (h : p.layout indent = .ok commands) (f : Frame) (owner mapId : Number) :
    ∃ s, f.start commands owner mapId = .ok s := by
  have hbreak : Opcode.shared .breakLoop ∉ opcodes := by decide
  exact Frame.exists_start_iff.2 fun c hc hlowest =>
    hbreak (hlowest.1 ▸ opcode_of_mem_layout h hc)

/-- No command of a layout calls an event. -/
theorem callees_of_layout (h : p.layout indent = .ok commands) (d : Database) :
    ∀ c ∈ commands, c.callees d = [] := by
  intro c hc
  have hop := opcode_of_mem_layout h hc
  have hfield : Opcode.field .callEvent ∉ opcodes := by decide
  have hbattle : Opcode.battle .callCommonEvent ∉ opcodes := by decide
  unfold Command.callees
  split
  · next hcall => exact absurd (hcall ▸ hop) hfield
  · next hcall => exact absurd (hcall ▸ hop) hbattle
  · rfl

end Program

/-! ## Frames that call nothing -/

namespace Frame

variable {env : Env} {f : Frame}

/-- A frame that does not look for events by itself and has no command that calls one. -/
structure CallsNothing (env : Env) (f : Frame) : Prop where
  isRoot : f.isRoot = false
  callees : ∀ c ∈ f.commands, c.callees env.data = []

theorem CallsNothing.forgetOwner (h : f.CallsNothing env) (mapId : Number) :
    (f.forgetOwner mapId).CallsNothing env := by
  unfold Frame.forgetOwner
  split
  · exact h
  · exact ⟨h.isRoot, h.callees⟩

theorem CallsNothing.turn (h : f.CallsNothing env) (w : World) :
    Ensures (f.turn env) w fun t _ => t.frame.CallsNothing env ∧ t.called = none := by
  intro t w' ht
  obtain ⟨hturned, -⟩ := turned_of_turn env f w t w' ht
  refine ⟨⟨hturned.isRoot.trans h.isRoot, ?_⟩, Option.eq_none_iff_forall_ne_some.2 fun c hc => ?_⟩
  · rcases hturned.commands with hsame | hnil | ⟨hroot, -⟩
    · exact hsame ▸ h.callees
    · exact hnil ▸ nofun
    · exact absurd (h.isRoot.symm.trans hroot) Bool.false_ne_true
  · obtain ⟨-, x, hx, callee, hcallee, -⟩ := hturned.called c hc
    rw [h.callees x hx] at hcallee
    cases hcallee

end Frame

namespace Interpreter

variable {env : Env}

theorem callBound_callsNothing (env : Env) : CallBound env (Frame.CallsNothing env) fun _ => 0 where
  forget f mapId h := ⟨h.forgetOwner mapId, rfl⟩
  turn f w t w' h ht := by
    obtain ⟨hframe, hnone⟩ := h.turn w t w' ht
    exact ⟨hframe, Nat.le_refl 0, fun c hc => nomatch hnone.symm.trans hc⟩

/-- No frame stands below one that calls nothing. -/
theorem keptAlong_callsNothing (env : Env) :
    KeptAlong env (Frame.CallsNothing env) fun _ _ => False where
  forget f mapId h := h.forgetOwner mapId
  forgetCaller f c mapId h := h
  forgetCalled f c mapId h := h
  turn f w h t w' ht := by
    obtain ⟨hframe, hnone⟩ := h.turn w t w' ht
    exact ⟨hframe, fun c hc => (nomatch hnone.symm.trans hc), fun _ hg => hg⟩

/-- Where no command calls an event, one level of frames is enough. -/
theorem updates_on_one_level {levels n : Nat} {f : Frame} (hf : f.CallsNothing env) {w : World}
    {s' : Interpreter × World} (h : updates env levels n { frame := f } w = .ok s') :
    updates env 1 n { frame := f } w = .ok s' := by
  induction n generalizing f w with
  | zero => exact h
  | succ n ih =>
    obtain ⟨⟨g, calls⟩, u, hu, hn⟩ := updates_succ_eq_ok_iff.1 h
    have hone : updateFrames env 1 f [] w ≠ .error .nesting :=
      updateFrames_ne_nesting (callBound_callsNothing env) f [] w hf nofun (Nat.le_refl 1)
    have hlevels : 1 ≤ levels := by
      cases levels with
      | zero => cases hu
      | succ levels => omega
    have hsame : ({ frame := f } : Interpreter).update env 1 w = .ok ({ frame := g, calls }, u) :=
      (updateFrames_mono hlevels f [] w hone).symm.trans hu
    obtain ⟨hall, hchain, -⟩ := (updated_of_update _ _ _ _ _ hu).keepsAlong
      (keptAlong_callsNothing env) (List.forall_mem_singleton.2 hf) (.singleton f)
    have hcalls : calls = [] := by
      cases calls with
      | nil => rfl
      | cons c cs => exact (List.isChain_cons_cons.1 hchain).1.elim
    subst hcalls
    exact updates_succ_eq_ok_iff.2 ⟨_, u, hsame, ih (hall g (List.mem_singleton.2 rfl)) hn⟩

end Interpreter

/-! ## The end of a layout -/

namespace Frame

variable {env : Env} {f : Frame} {w : World}

/-- Behind its last command a frame drops the list. -/
theorem steps_finish (env : Env) (hf : f.Underway) (hroot : f.isRoot = false)
    (hfree : w.game.IsFree) :
    ∃ f' : Frame, f'.isRunning = false ∧
      ReflTransGen (Interpreter.Steps env) ({ frame := f.moveTo f.commands.length }, w)
        ({ frame := f' }, w) := by
  cases hrun : f.isRunning with
  | false => exact ⟨f.moveTo f.commands.length, hrun, .refl⟩
  | true =>
    have hend : (f.moveTo f.commands.length).commands[f.commands.length]? = none :=
      List.getElem?_eq_none (Nat.le_refl _)
    have hfinish : (f.moveTo f.commands.length).finish w =
        .ok ((f.moveTo f.commands.length).leave, w) := by
      have hroot' : (f.moveTo f.commands.length).isRoot = false := hroot
      simp only [finish, hroot', Bool.false_and, Bool.false_eq_true, if_false]
      rfl
    have hturn : (f.moveTo f.commands.length).turn env w =
        .ok ({ frame := (f.moveTo f.commands.length).leave, signal := .again }, w) := by
      rw [turn_of_end (f := f.moveTo f.commands.length) hf.pause hfree hend hrun,
        bind_of_ok hfinish]
      rfl
    have hrun' : (f.moveTo f.commands.length).isRunning = true := hrun
    exact ⟨_, rfl, .single (.own hrun' hturn)⟩

theorem underway_of_start {depth : UInt32} {commands : List Command} {owner mapId : Number}
    (h : (Frame.idle .field depth false).start commands owner mapId = .ok f) : f.Underway := by
  have hs := startedAs_of_start h
  exact ⟨hs.context, hs.pause, (inStep_of_start h).landing⟩

theorem Underway.forgetOwner (hf : f.Underway) (mapId : Number) :
    (f.forgetOwner mapId).Underway := by
  unfold Frame.forgetOwner
  split
  · exact hf
  · exact ⟨hf.context, hf.pause, hf.landing⟩

theorem StartedAs.forgetOwner {f₀ : Frame} {commands : List Command} {owner mapId : Number}
    (h : f₀.StartedAs f commands owner mapId) (m : Number) :
    (f.forgetOwner m).commands = commands ∧ (f.forgetOwner m).pc = 0 ∧
      (f.forgetOwner m).pause = .ready ∧ (f.forgetOwner m).isRoot = f₀.isRoot := by
  unfold Frame.forgetOwner
  split <;> exact ⟨h.commands, h.pc, h.pause, h.isRoot⟩

end Frame

namespace Program

open EventScript.Frame Interpreter

/-- The run of a layout that was started, from its first command to where nothing is left. -/
theorem steps_of_runs {env : Env} {f : Frame} (hf : f.Underway) (hroot : f.isRoot = false)
    (hpc : f.pc = 0) {p : Program} {indent : Number} (hlayout : p.layout indent = .ok f.commands)
    {w : World} (hfree : w.game.IsFree) {e : Ending} {g' : Game} (h : p.Runs w.game e g') :
    ∃ f' w', f'.isRunning = false ∧ w'.game = g'.asking w'.game.field.needRefresh ∧
      w'.effects = w.effects ∧
      ReflTransGen (Steps env) ({ frame := f }, w) ({ frame := f' }, w') := by
  have hwhole : f.Segment 0 f.commands := ⟨[], [], by simp, rfl⟩
  have hplace : e.place f (0 + f.commands.length) = f.commands.length := by
    cases e <;> simp [Ending.place]
  obtain ⟨w', b, hrun, hgame, heffects⟩ := reaches_of_runs hf h hlayout hwhole hfree w
    w.game.field.needRefresh rfl
  rw [hplace] at hrun
  have hfree' : w'.game.IsFree := hgame ▸ (h.isFree hfree).asking b
  obtain ⟨f', hend, hfinish⟩ := steps_finish env hf hroot hfree'
  have hstart : f.moveTo 0 = f := by
    rw [moveTo, ← hpc]
  exact ⟨f', w', hend, by rw [hgame]; rfl, heffects, hstart ▸ hrun.trans hfinish⟩

/-- The layout of a program does what the program says. Let a program lead from a game in which
nothing holds an event up to another game. Then it has a layout at every indent that leaves room for
its bodies. The layout can be started on the field at any depth of calls, and on any budget some
number of updates leaves it with nothing to run, with that game but for the look at the pages that
its assignments ask for, and with nothing handed to the host. One level of frames is enough. -/
theorem updates_of_runs (env : Env) (hbudget : env.data.config.maxIterations ≠ 0) {p : Program}
    {indent : Number} (hroom : indent.toInt + p.nesting ≤ FixedWidth.high Number)
    {w : World} (hfree : w.game.IsFree) {e : Ending} {g' : Game} (h : p.Runs w.game e g')
    (depth : UInt32) (owner mapId : Number) :
    ∃ commands, p.layout indent = .ok commands ∧
      ∃ i, (Interpreter.idle .field depth false).start commands owner mapId = .ok i ∧
        ∃ n i' w', (∀ levels, updates env (levels + 1) n i w = .ok (i', w')) ∧
          i'.isRunning = false ∧ w'.game = g'.asking w'.game.field.needRefresh ∧
          w'.effects = w.effects := by
  obtain ⟨commands, hlayout⟩ := exists_layout p hroom
  refine ⟨commands, hlayout, ?_⟩
  obtain ⟨f, hstart⟩ := start_of_layout hlayout (.idle .field depth false) owner mapId
  have hi : (Interpreter.idle .field depth false).start commands owner mapId =
      .ok { frame := f } := by
    rw [Interpreter.start, Interpreter.idle, hstart]
    rfl
  have hf := Frame.startedAs_of_start hstart
  obtain ⟨hcommands, hpc, hpause, hroot⟩ := hf.forgetOwner w.game.field.id
  have hplaced : (f.forgetOwner w.game.field.id).Placed w.game.field.id :=
    ⟨hroot, forgetOwner_idem f _, fun _ => .inl hpause⟩
  obtain ⟨f', w', hend, hgame, heffects, hrun⟩ :=
    steps_of_runs ((underway_of_start hstart).forgetOwner w.game.field.id) hroot hpc
      (hcommands.symm ▸ hlayout) hfree h
  obtain ⟨levels, n, hn⟩ := updates_of_steps (s := ({ frame := f.forgetOwner _ }, w)) hbudget rfl
    hplaced (by exact hend) hrun
  rw [updates_forgetOwner hbudget] at hn
  have hnothing : f.CallsNothing env :=
    ⟨hf.isRoot, hf.commands.symm ▸ callees_of_layout hlayout env.data⟩
  have hone := updates_on_one_level hnothing hn
  exact ⟨_, hi, n + 1, { frame := f' }, w',
    fun levels => updates_mono (Nat.le_add_left 1 levels) hone, hend, hgame, heffects⟩

/-- Adds one to the variable 1. -/
def addOne : Assignment := .combine (.one 1) .add (.number 1)

/-- Turns the switch 5 on. -/
def turnOn : Assignment := .turn (.one 5) .on

/-- Counts up to three in a loop, then turns a switch on and stops. -/
def countToThree : Program :=
  .loop (.choose (.compare 1 .atLeast (.number 3)) (.assign turnOn (.stop .done))
    (.assign addOne .done) .done) .done

theorem countToThree_round {g g' : Game} {e : Ending}
    (hc : (Condition.compare 1 .atLeast (.number 3)).holds g = false)
    (hagain : countToThree.Runs (addOne.run g) e g') : countToThree.Runs g e g' := by
  refine .loop (.choose ?_ .done) hagain
  rw [hc]
  exact .assign .done

theorem countToThree_last {g : Game}
    (hc : (Condition.compare 1 .atLeast (.number 3)).holds g = true) :
    countToThree.Runs g .stopped (turnOn.run g) := by
  refine .loop_stopped (.choose_stopped ?_)
  rw [hc]
  exact .assign .stop

theorem countToThree_updates : ∃ commands i n i' w', countToThree.layout 0 = .ok commands ∧
    (Interpreter.idle .field 0 false).start commands 0 1 = .ok i ∧
    updates ⟨doorbell, {}⟩ 1 n i { game := Game.begin doorbell default } = .ok (i', w') ∧
    i'.isRunning = false ∧ w'.game.vars.get 1 = 3 ∧ w'.game.switches.get 5 = true := by
  have hruns : countToThree.Runs (Game.begin doorbell default) .stopped
      (turnOn.run (addOne.run (addOne.run (addOne.run (Game.begin doorbell default))))) :=
    countToThree_round (by decide) <| countToThree_round (by decide) <|
      countToThree_round (by decide) <| countToThree_last (by decide)
  have hroom : (0 : Number).toInt + countToThree.nesting ≤ FixedWidth.high Number := by decide
  have hfree : (Game.begin doorbell default).IsFree := ⟨rfl, rfl, rfl⟩
  obtain ⟨commands, hlayout, i, hi, n, i', w', hn, hend, hgame, -⟩ :=
    updates_of_runs ⟨doorbell, {}⟩ (by decide) hroom (w := { game := Game.begin doorbell default })
      hfree hruns 0 0 1
  exact ⟨commands, i, n, i', w', hlayout, hi, hn 0, hend, by rw [hgame]; rfl, by rw [hgame]; rfl⟩

end Program

end EventScript
