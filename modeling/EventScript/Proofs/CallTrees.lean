import EventScript.Proofs.CallDepth
import EventScript.Proofs.Expansions
import EventScript.Proofs.LayoutRuns

/-!
# Calls run as what they call

A frame that calls an event goes on behind the call when the event has run out of commands. So a
list of commands does what comes of it when every call is replaced by the commands of the event.

* `Database.HasRoom` tells whether calls can be nested so deep below a frame.
* `Expands.steps` follows a list of commands through its calls to behind its last command, and
  `Expands.fails` to where a command or a call overflows.
* `updates_of_callTree` puts them together for a list that was started.
-/

namespace EventScript

open Act Relation

/-- Calls can be nested so deep below a depth: the level past the limit has a number, and so has the
deepest level. -/
def Database.HasRoom (d : Database) (depth : UInt32) (n : Nat) : Prop :=
  n = 0 ∨ d.config.depthWarning.toNat + 1 < UInt32.size ∧ depth.toNat + n < UInt32.size

/-- Plain lists break out of no loop. -/
theorem Plain.lands {cs : List Command} (h : Plain cs) : ∀ c ∈ cs, ¬ c.breaksLowest := by
  rintro c hc ⟨hbreak, -⟩
  rcases h c hc with hstraight | hcall
  · unfold Command.isStraight at hstraight
    rw [hbreak] at hstraight
    cases hstraight
  · unfold Command.commonCalled? at hcall
    rw [hbreak] at hcall
    cases hcall

namespace Commands

variable {c : Command} {f : Frame} {id : Number}

theorem perform_commonCalled (env : Env) (hcontext : f.context = .field)
    (hc : c.commonCalled? = some id) (w : World) :
    perform env f c w = callCommon env f id w := by
  unfold Command.commonCalled? at hc
  split at hc
  · next h =>
    cases hc
    rw [perform_field env hcontext h.1]
    simp only [performField, callEvent, getGame_bind, h.2]
  · cases hc

end Commands

namespace Game

theorem SameStage.isFree {g g' : Game} (h : g.SameStage g') (hg : g.IsFree) : g'.IsFree :=
  ⟨h.message ▸ hg.read, h.scene ▸ hg.scene, h.troop.trans hg.battle⟩

end Game

namespace Frame

variable {env : Env} {f : Frame} {c : Command} {n : Nat} {w : World}

/-- Behind a command that stands at a place the list has a next place. -/
theorem Segment.next {cs : List Command} (h : f.Segment n (c :: cs)) :
    min (n + 1) f.commands.length = n + 1 :=
  Nat.min_eq_left h.lt_length

/-- A straight command takes the frame behind it, with its effect on the game. -/
theorem steps_of_effect (hf : f.Underway) {cs : List Command} (hcs : f.Segment n (c :: cs))
    (hfree : w.game.IsFree) (hc : c.isStraight = true) {g : Game}
    (h : c.effect w.game = .ok g) : ∃ w', w'.game = g ∧ w.game.SameStage g ∧
      w'.effects = w.effects ∧ Interpreter.Steps env ({ frame := f.moveTo n }, w)
        ({ frame := f.moveTo (n + 1) }, w') := by
  obtain ⟨w', hperform, hgame, hstage, heffects⟩ :=
    Commands.perform_of_effect env (f.moveTo n) hc h
  have hstep := steps_next hf hfree hcs.head hperform
  rw [show (f.moveTo n).pc = n from rfl, hcs.next] at hstep
  exact ⟨w', hgame, hstage, heffects, hstep⟩

/-- A command that overflows takes the frame nowhere. -/
theorem fails_of_perform (hf : f.Underway) {cs : List Command} (hcs : f.Segment n (c :: cs))
    (hfree : w.game.IsFree) {o : Overflow}
    (h : (do (f.moveTo n).settle env (← Commands.perform env (f.moveTo n) c)) w = .error o) :
    Interpreter.Fails env ({ frame := f.moveTo n }, w) := by
  have hrun : (f.moveTo n).isRunning = true :=
    isRunning_of_mem (f := f.moveTo n) (List.mem_of_getElem? hcs.head)
  refine .own hrun ((turn_of_command (f := f.moveTo n) hf.pause hfree hcs.head).trans h)

/-- What is called is ready to run from its first command, one level deeper. -/
structure ReadyFor (f c : Frame) (commands : List Command) : Prop extends Underway c where
  depth : c.depth.toNat = f.depth.toNat + 1
  isRoot : c.isRoot = false
  commands : c.commands = commands
  pc : c.pc = 0

theorem ensures_callee_ready (hf : f.Underway) (commands : List Command) (owner : Number)
    (w : World) : Ensures (f.callee env commands owner) w fun c w' =>
      f.ReadyFor c commands ∧ w'.game = w.game ∧ w'.effects = w.effects := by
  intro c w' hc
  obtain ⟨hgame, hby⟩ := ensures_callee env f commands owner w c w' hc
  have hstarted : Ensures (f.callee env commands owner) w fun c w' =>
      w'.effects = w.effects ∧ ∃ depth,
        (idle f.context depth false).start commands owner w.game.field.id = .ok c := by
    simp only [callee, ensures_bind, ensures_check, ensures_ite, ensures_warn, ensures_getGame]
    exact fun depth _ _ _ =>
      ⟨fun _ c hc => ⟨trivial, depth, hc⟩, fun _ c hc => ⟨trivial, depth, hc⟩⟩
  obtain ⟨heffects, depth, hstart⟩ := hstarted c w' hc
  rw [hf.context] at hstart
  exact ⟨⟨underway_of_start hstart, hby.depth, hby.isRoot, hby.commands, hby.pc⟩, hgame, heffects⟩

/-- A call of a common event starts it below the frame, which then stands behind the call. -/
theorem steps_of_call (hf : f.Underway) {cs : List Command} (hcs : f.Segment n (c :: cs))
    (hfree : w.game.IsFree) {id : Number} {e : CommonEvent} (hc : c.commonCalled? = some id)
    (he : env.data.commonEvent? id = some e)
    (hcall : Callable env.data f.depth.toNat e.commands) : ∃ called w',
      f.ReadyFor called e.commands ∧ w'.game = w.game ∧ w'.effects = w.effects ∧
      Interpreter.Steps env ({ frame := f.moveTo n }, w)
        ({ frame := f.moveTo (n + 1), calls := [called] }, w') := by
  have hf' : (f.moveTo n).Underway := ⟨hf.context, hf.pause, hf.landing⟩
  have hcall' : Callable env.data (f.moveTo n).depth.toNat e.commands := hcall
  obtain ⟨called, w', hcalled⟩ := hcall'.exists_callee 0 w
  obtain ⟨hready, hgame, heffects⟩ := ensures_callee_ready hf' e.commands 0 w called w' hcalled
  have hgoto : (f.moveTo n).goto (f.moveTo n).pc = f.moveTo (n + 1) := by
    simp only [goto, moveTo, hcs.next, ← hf.pause]
  have hperform : Commands.perform env (f.moveTo n) c w = .ok (.call e.commands 0, w) := by
    rw [Commands.perform_commonCalled env hf'.context hc, Commands.callCommon, he]
    rfl
  have hturn : (f.moveTo n).turn env w =
      .ok ({ frame := f.moveTo (n + 1), called := some called, signal := .again }, w') := by
    rw [turn_of_command (f := f.moveTo n) hf.pause hfree hcs.head, bind_of_ok hperform, ← hgoto]
    exact bind_of_ok hcalled
  have hrun : (f.moveTo n).isRunning = true :=
    isRunning_of_mem (f := f.moveTo n) (List.mem_of_getElem? hcs.head)
  exact ⟨called, w', ⟨hready.toUnderway, hready.depth, hready.isRoot, hready.commands, hready.pc⟩,
    hgame, heffects, .own hrun hturn⟩

/-- A call that needs a level too many overflows. -/
theorem fails_of_call (hf : f.Underway) {cs : List Command} (hcs : f.Segment n (c :: cs))
    (hfree : w.game.IsFree) {id : Number} {e : CommonEvent} (hc : c.commonCalled? = some id)
    (he : env.data.commonEvent? id = some e)
    (hcall : ¬ Callable env.data f.depth.toNat e.commands) :
    Interpreter.Fails env ({ frame := f.moveTo n }, w) := by
  have hperform : Commands.perform env (f.moveTo n) c w = .ok (.call e.commands 0, w) := by
    rw [Commands.perform_commonCalled env (f := f.moveTo n) hf.context hc, Commands.callCommon, he]
    rfl
  cases hcalled : (f.moveTo n).callee env e.commands 0 w with
  | ok r => exact absurd (callable_of_callee env (f.moveTo n) e.commands 0 w r.1 r.2 hcalled) hcall
  | error o =>
    refine fails_of_perform hf hcs hfree (o := o) ?_
    rw [bind_of_ok hperform]
    exact bind_of_error hcalled

/-- A call of an event that is not known is passed over. -/
theorem steps_of_unknown (hf : f.Underway) {cs : List Command} (hcs : f.Segment n (c :: cs))
    (hfree : w.game.IsFree) {id : Number} (hc : c.commonCalled? = some id)
    (he : env.data.commonEvent? id = none) : ∃ w', w'.game = w.game ∧ w'.effects = w.effects ∧
      Interpreter.Steps env ({ frame := f.moveTo n }, w) ({ frame := f.moveTo (n + 1) }, w') := by
  have hperform : Commands.perform env (f.moveTo n) c w =
      .ok (.next n, { w with warnings := w.warnings.push .commonEventNotFound }) := by
    rw [Commands.perform_commonCalled env (f := f.moveTo n) hf.context hc, Commands.callCommon, he]
    rfl
  have hstep := steps_next hf hfree hcs.head hperform
  rw [hcs.next] at hstep
  exact ⟨{ w with warnings := w.warnings.push .commonEventNotFound }, rfl, rfl, hstep⟩

/-- An event that was called and has run its commands is dropped. -/
theorem steps_of_callee {caller called : Frame} {commands : List Command} {w' : World}
    (hrun : caller.isRunning = true) (hready : f.ReadyFor called commands) (hfree : w'.game.IsFree)
    (h : ReflTransGen (Interpreter.Steps env) ({ frame := called.moveTo 0 }, w)
      ({ frame := called.moveTo (0 + commands.length) }, w')) :
    ReflTransGen (Interpreter.Steps env) ({ frame := caller, calls := [called] }, w)
      ({ frame := caller }, w') := by
  have hstart : called.moveTo 0 = called := by
    rw [moveTo, ← hready.pc]
  rw [hstart, Nat.zero_add, ← hready.commands] at h
  obtain ⟨f', hend, hfinish⟩ := steps_finish env hready.toUnderway hready.isRoot hfree
  exact (Interpreter.steps_inner hrun (h.trans hfinish)).tail (.drop hrun hend)

end Frame

/-! ## Lists of commands -/

namespace Database.Expands

variable {env : Env} {cs flat : List Command} {n : Nat}

theorem plain (h : env.data.Expands cs flat n) : Plain cs := by
  induction h with
  | nil => exact List.forall_mem_nil _
  | straight hc _ ih => exact List.forall_mem_cons.2 ⟨.inl hc, ih⟩
  | call hc _ _ _ _ ih | unknown hc _ _ ih =>
    exact List.forall_mem_cons.2 ⟨.inr (by rw [hc]; rfl), ih⟩

/-- A frame goes through a stretch of commands, and does what comes of it. -/
theorem steps (h : env.data.Expands cs flat n) {f : Frame} {place : Nat} {w : World} {g : Game}
    (hf : f.Underway) (hcs : f.Segment place cs) (hfree : w.game.IsFree)
    (hroom : env.data.HasRoom f.depth n) (hg : runStraight flat w.game = .ok g) :
    ∃ w', w'.game = g ∧ w.game.SameStage g ∧ w'.effects = w.effects ∧
      ReflTransGen (Interpreter.Steps env) ({ frame := f.moveTo place }, w)
        ({ frame := f.moveTo (place + cs.length) }, w') := by
  induction h generalizing f place w g with
  | nil =>
    cases hg
    exact ⟨w, rfl, .refl _, rfl, .refl⟩
  | straight hc _ ih =>
    obtain ⟨u, hu, hrest⟩ := except_bind_eq_ok_iff.1 hg
    obtain ⟨v, rfl, hstage, heffects, hstep⟩ := Frame.steps_of_effect hf hcs hfree hc hu
    obtain ⟨w', hgame, hstage', heffects', hrun⟩ :=
      ih hf hcs.tail (hstage.isFree hfree) hroom hrest
    rw [List.length_cons, Nat.add_comm _ 1, ← Nat.add_assoc]
    exact ⟨w', hgame, hstage.trans hstage', heffects'.trans heffects, .head hstep hrun⟩
  | unknown hc he _ ih =>
    obtain ⟨v, hv, heffects, hstep⟩ := Frame.steps_of_unknown hf hcs hfree hc he
    obtain ⟨w', hgame, hstage, heffects', hrun⟩ := ih hf hcs.tail (hv ▸ hfree) hroom (hv ▸ hg)
    rw [List.length_cons, Nat.add_comm _ 1, ← Nat.add_assoc]
    exact ⟨w', hgame, hv ▸ hstage, heffects'.trans heffects, .head hstep hrun⟩
  | @call c cs inner flat id e m n hc he hinner _ ihinner ih =>
    rw [runStraight_append] at hg
    obtain ⟨u, hu, hrest⟩ := except_bind_eq_ok_iff.1 hg
    obtain hzero | ⟨hlimit, hdepth⟩ := hroom
    · omega
    have hcall : Frame.Callable env.data f.depth.toNat e.commands :=
      ⟨hlimit, by omega, hinner.plain.lands⟩
    obtain ⟨called, v, hready, hv, heffects, hstep⟩ :=
      Frame.steps_of_call hf hcs hfree hc he hcall
    have hwhole : called.Segment 0 e.commands := ⟨[], [], by simp [hready.commands], rfl⟩
    have hroom : env.data.HasRoom called.depth m := .inr ⟨hlimit, by rw [hready.depth]; omega⟩
    obtain ⟨v', hv', hstage, heffects', hbelow⟩ :=
      ihinner hready.toUnderway hwhole (hv ▸ hfree) hroom (hv ▸ hu)
    have hfree' : v'.game.IsFree := hv' ▸ (hv ▸ hstage).isFree hfree
    have hrun : (f.moveTo (place + 1)).isRunning = true :=
      Frame.isRunning_of_mem (f := f.moveTo (place + 1)) (List.mem_of_getElem? hcs.head)
    have hback := Frame.steps_of_callee hrun hready hfree' hbelow
    obtain ⟨w', hgame, hstage', heffects'', hon⟩ :=
      ih hf hcs.tail hfree' (.inr ⟨hlimit, by omega⟩) (hv' ▸ hrest)
    rw [List.length_cons, Nat.add_comm _ 1, ← Nat.add_assoc]
    refine ⟨w', hgame, (hv ▸ hstage).trans (hv' ▸ hstage'), ?_, .head hstep (hback.trans hon)⟩
    rw [heffects'', heffects', heffects]

/-- Where a command overflows, or calls are nested too deep, a frame comes to an overflow. -/
theorem fails (h : env.data.Expands cs flat n) {f : Frame} {place : Nat} {w : World}
    (hf : f.Underway) (hcs : f.Segment place cs) (hfree : w.game.IsFree)
    (hnot : ¬ (env.data.HasRoom f.depth n ∧ ∃ g, runStraight flat w.game = .ok g)) :
    ∃ s, ReflTransGen (Interpreter.Steps env) ({ frame := f.moveTo place }, w) s ∧
      Interpreter.Fails env s := by
  induction h generalizing f place w with
  | nil => exact absurd ⟨.inl rfl, w.game, rfl⟩ hnot
  | @straight c cs flat n hc _ ih =>
    cases hu : c.effect w.game with
    | error o =>
      refine ⟨_, .refl, Frame.fails_of_perform hf hcs hfree (o := o) ?_⟩
      exact bind_of_error (Commands.perform_of_effect_error env (f.moveTo place) hc hu)
    | ok u =>
      obtain ⟨v, rfl, hstage, -, hstep⟩ := Frame.steps_of_effect hf hcs hfree hc hu
      rw [runStraight_cons, hu] at hnot
      obtain ⟨s, hrun, hfails⟩ := ih hf hcs.tail (hstage.isFree hfree) hnot
      exact ⟨s, .head hstep hrun, hfails⟩
  | unknown hc he _ ih =>
    obtain ⟨v, hv, -, hstep⟩ := Frame.steps_of_unknown hf hcs hfree hc he
    obtain ⟨s, hrun, hfails⟩ := ih hf hcs.tail (hv ▸ hfree) (hv ▸ hnot)
    exact ⟨s, .head hstep hrun, hfails⟩
  | @call c cs inner flat id e m n hc he hinner _ ihinner ih =>
    by_cases hcall : Frame.Callable env.data f.depth.toNat e.commands
    · obtain ⟨called, v, hready, hv, -, hstep⟩ := Frame.steps_of_call hf hcs hfree hc he hcall
      have hwhole : called.Segment 0 e.commands := ⟨[], [], by simp [hready.commands], rfl⟩
      have hrun : (f.moveTo (place + 1)).isRunning = true :=
        Frame.isRunning_of_mem (f := f.moveTo (place + 1)) (List.mem_of_getElem? hcs.head)
      by_cases hbelow : env.data.HasRoom called.depth m ∧ ∃ g, runStraight inner v.game = .ok g
      · -- The event runs to its end, so it is the rest of the list that overflows.
        obtain ⟨hroom, u, hu⟩ := hbelow
        obtain ⟨v', rfl, hstage, -, hthrough⟩ :=
          hinner.steps hready.toUnderway hwhole (hv ▸ hfree) hroom hu
        have hfree' : v'.game.IsFree := (hv ▸ hstage).isFree hfree
        have hback := Frame.steps_of_callee hrun hready hfree' hthrough
        have hrest : ¬ (env.data.HasRoom f.depth n ∧ ∃ g, runStraight flat v'.game = .ok g) := by
          rintro ⟨hroom', g, hg⟩
          refine hnot ⟨.inr ⟨hcall.limit, ?_⟩, g, ?_⟩
          · have hdepth := hcall.depth
            have hlevel := hready.depth
            rcases hroom with rfl | ⟨-, hroom⟩ <;> rcases hroom' with rfl | ⟨-, hroom'⟩ <;> omega
          · rw [runStraight_append, ← hv, hu]
            exact hg
        obtain ⟨s, hon, hfails⟩ := ih hf hcs.tail hfree' hrest
        exact ⟨s, .head hstep (hback.trans hon), hfails⟩
      · obtain ⟨s, hinside, hfails⟩ := ihinner hready.toUnderway hwhole (hv ▸ hfree) hbelow
        have hstart : called.moveTo 0 = called := by
          rw [Frame.moveTo, ← hready.pc]
        rw [hstart] at hinside
        exact ⟨_, .head hstep (Interpreter.steps_inner hrun hinside), .inner hrun hfails⟩
    · exact ⟨_, .refl, Frame.fails_of_call hf hcs hfree hc he hcall⟩

end Database.Expands

/-! ## Whole runs -/

namespace Interpreter

/-- Some number of updates on enough levels leaves an interpreter with nothing to run and with a
game, and hands nothing to the host. -/
def EndsWith (env : Env) (i : Interpreter) (w : World) (g : Game) : Prop :=
  ∃ levels n i' w', updates env levels n i w = .ok (i', w') ∧ i'.isRunning = false ∧
    w'.game = g ∧ w'.effects = w.effects

/-- Some number of updates on enough levels ends in an overflow. -/
def Overflows (env : Env) (i : Interpreter) (w : World) : Prop :=
  ∃ levels n o, updates env levels n i w = .error (.overflow o)

variable {env : Env} {commands flat : List Command} {n : Nat} {depth : UInt32}
  {owner mapId : Number} {i : Interpreter} {w : World}

/-- What becomes of a list that was started, by what comes of it. -/
theorem ends_or_overflows (hbudget : env.data.config.maxIterations ≠ 0)
    (hstart : (idle .field depth false).start commands owner mapId = .ok i)
    (h : env.data.Expands commands flat n) (hfree : w.game.IsFree) :
    (∀ g, env.data.HasRoom depth n → runStraight flat w.game = .ok g → EndsWith env i w g) ∧
    (¬ (env.data.HasRoom depth n ∧ ∃ g, runStraight flat w.game = .ok g) → Overflows env i w) := by
  obtain ⟨f, rfl, hf⟩ := startedAs_of_start hstart
  have hstarted : (Frame.idle .field depth false).start commands owner mapId = .ok f := by
    obtain ⟨f', hf', hsame⟩ := except_bind_eq_ok_iff.1 hstart
    cases hsame
    exact hf'
  -- The first update forgets an owner on another map.
  let f₀ := f.forgetOwner w.game.field.id
  obtain ⟨hcommands, hpc, hpause, hroot⟩ := hf.forgetOwner w.game.field.id
  have hunderway : f₀.Underway := (Frame.underway_of_start hstarted).forgetOwner _
  have hplaced : f₀.Placed w.game.field.id :=
    ⟨hroot, Frame.forgetOwner_idem f _, fun _ => .inl hpause⟩
  have hdepth : f₀.depth = depth := by
    refine Eq.trans ?_ hf.depth
    show (f.forgetOwner w.game.field.id).depth = f.depth
    unfold Frame.forgetOwner
    split <;> rfl
  have hwhole : f₀.Segment 0 commands := ⟨[], [], by simpa using hcommands, rfl⟩
  have hfirst : f₀.moveTo 0 = f₀ := by
    rw [Frame.moveTo, ← hpc]
  constructor
  · intro g hroom hg
    obtain ⟨w', rfl, hstage, heffects, hrun⟩ :=
      h.steps hunderway hwhole hfree (hdepth.symm ▸ hroom) hg
    obtain ⟨f', hend, hfinish⟩ := Frame.steps_finish env hunderway hroot (hstage.isFree hfree)
    have hlast : 0 + commands.length = f₀.commands.length := by rw [Nat.zero_add, ← hcommands]
    rw [hfirst, hlast] at hrun
    obtain ⟨levels, k, hk⟩ := updates_of_steps (s := ({ frame := f₀ }, w)) hbudget rfl hplaced
      (by exact hend) (hrun.trans hfinish)
    rw [updates_forgetOwner hbudget] at hk
    exact ⟨levels, k + 1, { frame := f' }, w', hk, hend, rfl, heffects⟩
  · intro hnot
    obtain ⟨s, hrun, hfails⟩ := h.fails hunderway hwhole hfree (hdepth.symm ▸ hnot)
    rw [hfirst] at hrun
    obtain ⟨levels, k, o, hk⟩ := updates_of_fails (s := ({ frame := f₀ }, w)) hbudget rfl hplaced
      hfails hrun
    rw [updates_forgetOwner hbudget] at hk
    exact ⟨levels, k + 1, o, hk⟩

/-- Calls do what comes of them, depth first. Where the common events have nothing but straight
commands and calls of common events, and none of them calls itself, a list without calls comes of
every such list. Let both be started on the field, at any depth, on any budget and in any game in
which nothing holds an event up. If the list without calls overflows nowhere, some number of updates
leaves it with nothing to run and with the game that its commands make; and so does some number of
updates of the list with its calls, exactly where calls can be nested so deep. That is not the case
under the highest limit there is, or too near to the deepest level; then its updates end in an
overflow, as they do where the list without calls overflows. -/
theorem updates_of_callTree (env : Env) (hbudget : env.data.config.maxIterations ≠ 0)
    (hd : env.data.CallsTree) {commands : List Command} (hcommands : Plain commands)
    (depth : UInt32) (owner mapId : Number) {w : World} (hfree : w.game.IsFree) :
    ∃ flat n i j, env.data.Expands commands flat n ∧ n ≤ env.data.commonEvents.length ∧
      (idle .field depth false).start commands owner mapId = .ok i ∧
      (idle .field depth false).start flat owner mapId = .ok j ∧
      (∀ g, runStraight flat w.game = .ok g → EndsWith env j w g ∧
        (env.data.HasRoom depth n → EndsWith env i w g)) ∧
      (¬ (env.data.HasRoom depth n ∧ ∃ g, runStraight flat w.game = .ok g) →
        Overflows env i w) := by
  obtain ⟨flat, n, hflat⟩ := hd.exists_expansion hcommands
  have hstart (cs : List Command) (hcs : Plain cs) :
      ∃ i, (idle .field depth false).start cs owner mapId = .ok i := by
    have hlist : ∃ f, (Frame.idle .field depth false).start cs owner mapId = .ok f :=
      Frame.exists_start_iff.2 hcs.lands
    obtain ⟨f, hf⟩ := hlist
    exact ⟨{ frame := f }, except_bind_eq_ok_iff.2 ⟨f, hf, rfl⟩⟩
  have hstraight := hflat.straight_of_mem
  obtain ⟨i, hi⟩ := hstart commands hcommands
  obtain ⟨j, hj⟩ := hstart flat fun c hc => .inl (hstraight c hc)
  obtain ⟨hends, hoverflows⟩ := ends_or_overflows hbudget hi hflat hfree
  obtain ⟨hends', -⟩ :=
    ends_or_overflows hbudget hj (Database.expands_of_straight hstraight) hfree
  exact ⟨flat, n, i, j, hflat, hflat.nesting_le hd, hi, hj,
    fun g hg => ⟨hends' g (.inl rfl) hg, fun hroom => hends g hroom hg⟩, hoverflows⟩

/-- A call of the common event 2. -/
def callSecond : Command := { code := FieldOp.callEvent.code, params := [0, 2] }

/-- Adds one to the variable 1. -/
def countUp : Command := { code := SharedOp.controlVariables.code, params := [0, 1, 1, 1, 0, 1] }

/-- Sets the variable 2 to the variable 1. -/
def takeDown : Command := { code := SharedOp.controlVariables.code, params := [0, 2, 2, 0, 1, 1] }

/-- The common event 1 calls the common event 2 twice, which counts up. -/
def errands (limit : UInt32) : Database where
  config := { depthWarning := limit }
  commonEvents := [{ id := 1, commands := [callSecond, callSecond] },
    { id := 2, commands := [countUp] }]

theorem errands_callsTree (limit : UInt32) : (errands limit).CallsTree := by
  have hcalls (id id' : Number) (h : (errands limit).Calls id id') : id = 1 ∧ id' = 2 := by
    obtain ⟨e, he, c, hc, hcall⟩ := h
    simp only [errands, Database.commonEvent?, List.find?_cons, List.find?_nil] at he
    split at he
    · next hid =>
      cases he
      refine ⟨(of_decide_eq_true hid).symm, ?_⟩
      simp only [List.mem_cons, List.not_mem_nil, or_false, or_self] at hc
      subst hc
      exact (Option.some.inj hcall).symm
    · split at he
      · cases he
        simp only [List.mem_cons, List.not_mem_nil, or_false] at hc
        subst hc
        cases hcall
      · cases he
  refine ⟨fun e he c hc => ?_, fun id h => ?_⟩
  · simp only [errands, List.mem_cons, List.not_mem_nil, or_false] at he
    rcases he with rfl | rfl
    · simp only [List.mem_cons, List.not_mem_nil, or_false, or_self] at hc
      subst hc
      exact .inr rfl
    · simp only [List.mem_cons, List.not_mem_nil, or_false] at hc
      subst hc
      exact .inl rfl
  · -- A path of calls begins at 1 and ends at 2.
    have hfirst : id = 1 := by
      obtain ⟨_, hcall, -⟩ := TransGen.head'_iff.1 h
      exact (hcalls _ _ hcall).1
    have hlast : id = 2 := by
      obtain ⟨_, -, hcall⟩ := TransGen.tail'_iff.1 h
      exact (hcalls _ _ hcall).2
    exact absurd (hfirst.symm.trans hlast) (by decide)

theorem errands_end : (errands 4294967295).validate = .ok () ∧
    (∃ i g, (idle .field 0 false).start [callFirst, takeDown] 0 0 = .ok i ∧
      EndsWith ⟨errands 100, {}⟩ i { game := Game.begin (errands 100) default } g ∧
      g.vars.get 1 = 2 ∧ g.vars.get 2 = 2) ∧
    ∃ i, (idle .field 0 false).start [callFirst, takeDown] 0 0 = .ok i ∧
      Overflows ⟨errands 4294967295, {}⟩ i { game := Game.begin (errands 4294967295) default } := by
  have hplain : Plain [callFirst, takeDown] := by
    intro c hc
    simp only [List.mem_cons, List.not_mem_nil, or_false] at hc
    rcases hc with rfl | rfl
    · exact .inr rfl
    · exact .inl rfl
  have hflat (limit : UInt32) :
      (errands limit).Expands [callFirst, takeDown] [countUp, countUp, takeDown] 2 := by
    have hsecond : callSecond.commonCalled? = some 2 := rfl
    have hfirst : callFirst.commonCalled? = some 1 := rfl
    have hcount : (errands limit).Expands [countUp] [countUp] 0 := .straight rfl .nil
    have honce := Database.Expands.call (d := errands limit) hsecond rfl hcount .nil
    have htwice := Database.Expands.call (d := errands limit) hsecond rfl hcount honce
    exact .call (d := errands limit) hfirst rfl htwice (.straight rfl .nil)
  have hbudget (limit : UInt32) : (errands limit).config.maxIterations ≠ 0 :=
    show (100 : UInt64) ≠ 0 by decide
  have hrun (limit : UInt32) := updates_of_callTree ⟨errands limit, {}⟩ (hbudget limit)
    (errands_callsTree limit) hplain 0 0 0 (w := { game := Game.begin (errands limit) default })
    ⟨rfl, rfl, rfl⟩
  refine ⟨by decide, ?_, ?_⟩
  · obtain ⟨flat, n, i, j, h, -, hi, -, hends, -⟩ := hrun 100
    obtain ⟨rfl, rfl⟩ := (hflat 100).unique h
    have hvalues : ∃ g,
        runStraight [countUp, countUp, takeDown] (Game.begin (errands 100) default) = .ok g ∧
          (g.vars.get 1 = 2 ∧ g.vars.get 2 = 2) := by decide +kernel
    obtain ⟨g, hg, hvalues⟩ := hvalues
    exact ⟨i, g, hi, (hends g hg).2 (.inr ⟨by decide, by decide⟩), hvalues⟩
  · obtain ⟨flat, n, i, j, h, -, hi, -, -, hoverflows⟩ := hrun 4294967295
    obtain ⟨rfl, rfl⟩ := (hflat 4294967295).unique h
    refine ⟨i, hi, hoverflows fun hroom => ?_⟩
    rcases hroom.1 with hnone | ⟨hlimit, -⟩
    · cases hnone
    · exact absurd hlimit (by decide)

end Interpreter

end EventScript
