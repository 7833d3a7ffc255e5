import EventScript.Proofs.Budget
import EventScript.Proofs.LandingTables
import EventScript.Proofs.Programs

/-!
# A layout runs as its program

The commands of a layout stand in a flat list, and the ends of its blocks are found by scanning
indents. A simulation follows a program through its layout, wherever in a list that stands.

* `Blocks.seek_of_deeper` and `Blocks.loopBefore_of_deeper`: a scan passes over a body, whatever is
  nested in it, to the command that closes or opens it.
* `Commands.gives_assignment` and `Commands.perform_condition` tell what the commands of a layout
  do.
* `Frame.Reaches` is a stretch of the run from one place and game to another.
* `Program.reaches_of_runs`: where a program leads from one game to another, its layout leads there
  too, to behind the layout or to the end of the list.
-/

namespace EventScript

open Act Relation

/-! ## Scans past a body -/

namespace Blocks

variable {indent target alt : Number} {pre body rest : List Command} {s t : Command}

/-- The commands of a list all stand deeper than an indent. -/
def Deeper (indent : Number) (body : List Command) : Prop :=
  ∀ x ∈ body, indent.toInt < x.indent.toInt

theorem scanForward_of_deeper (h : Deeper indent body) (i : Nat) :
    scanForward target alt indent indent i (body ++ rest) =
      scanForward target alt indent indent (i + body.length) rest := by
  induction body generalizing i with
  | nil => rfl
  | cons c body ih =>
    obtain ⟨hc, hbody⟩ := List.forall_mem_cons.1 h
    have hlow : ¬ c.indent < indent := by rw [Int32.lt_iff_toInt_lt]; omega
    have hhigh : indent < c.indent := Int32.lt_iff_toInt_lt.2 hc
    rw [List.cons_append, scanForward, if_neg hlow, if_pos hhigh, ih hbody, List.length_cons]
    congr 1
    omega

/-- A search at the indent of a body's end passes over the body. -/
theorem seek_of_deeper (pre rest : List Command) (h : Deeper indent body) (ht : t.indent = indent)
    (hcode : t.code = target ∨ t.code = alt) :
    seek (pre ++ body ++ t :: rest) pre.length target alt indent indent =
      some (pre.length + body.length) := by
  have hsame : ¬ t.indent < indent ∧ ¬ indent < t.indent := by
    rw [ht, Int32.lt_iff_toInt_lt]
    omega
  rw [seek, List.append_assoc, List.drop_left, scanForward_of_deeper h, scanForward,
    if_neg hsame.1, if_neg hsame.2, if_pos hcode]

theorem scanBackward_of_deeper (h : Deeper indent body) (i : Nat) :
    scanBackward indent i (body ++ rest) = scanBackward indent (i - body.length) rest := by
  induction body generalizing i with
  | nil => rfl
  | cons c body ih =>
    obtain ⟨hc, hbody⟩ := List.forall_mem_cons.1 h
    have hlow : ¬ c.indent < indent := by rw [Int32.lt_iff_toInt_lt]; omega
    have hloop : ¬ (c.indent = indent ∧ c.code = SharedOp.loop.code) := by
      rintro ⟨rfl, -⟩
      omega
    rw [List.cons_append, scanBackward, if_neg hlow, if_neg hloop, ih hbody, List.length_cons]
    congr 1
    omega

/-- The loop that a body belongs to stands right before it. -/
theorem loopBefore_of_deeper (pre rest : List Command) (h : Deeper indent body)
    (hs : s.indent = indent) (hcode : s.code = SharedOp.loop.code) :
    loopBefore (pre ++ s :: body ++ rest) (pre.length + 1 + body.length) indent =
      some pre.length := by
  have hbefore : (pre ++ s :: body ++ rest).take (pre.length + 1 + body.length) =
      pre ++ s :: body := by
    have hlength : (pre ++ s :: body).length = pre.length + 1 + body.length := by
      simp
      omega
    rw [← hlength, List.take_left]
  have hdeep : Deeper indent body.reverse := fun x hx => h x (List.mem_reverse.1 hx)
  have hsame : ¬ s.indent < indent := by
    rw [hs, Int32.lt_iff_toInt_lt]
    omega
  rw [loopBefore, hbefore, List.reverse_append, List.reverse_cons, List.append_assoc,
    scanBackward_of_deeper hdeep, List.singleton_append, scanBackward, if_neg hsame,
    if_pos ⟨hs, hcode⟩]
  simp only [List.length_append, List.length_cons, List.length_reverse, Option.some.injEq]
  omega

end Blocks

/-! ## What the commands do -/

namespace Game

/-- The game with a look at the pages asked for or not. -/
def asking (g : Game) (b : Bool) : Game := { g with field := { g.field with needRefresh := b } }

theorem IsFree.asking {g : Game} (h : g.IsFree) (b : Bool) : (g.asking b).IsFree :=
  ⟨h.read, h.scene, h.battle⟩

end Game

namespace Act

variable {α β : Type} {w : World} {g g' : Game}

/-- An act gives a result and a game, and hands nothing to the host. -/
def Gives (a : Act α) (w : World) (r : α) (g : Game) : Prop :=
  ∃ warnings, a w = .ok (r, { w with game := g, warnings })

theorem Gives.bind {a : Act α} {f : α → Act β} {x : α} {r : β} (ha : a.Gives w x g)
    (hf : ∀ warnings, (f x).Gives { w with game := g, warnings } r g') :
    (a >>= f).Gives w r g' := by
  obtain ⟨before, ha⟩ := ha
  obtain ⟨warnings, hf⟩ := hf before
  exact ⟨warnings, (bind_of_ok ha).trans hf⟩

theorem gives_warnBetween (m : Warning) (first last : Number) (w : World) :
    (warnBetween m first last).Gives w () w.game := by
  unfold warnBetween
  induction idsBetween first (min last 0) generalizing w with
  | nil => exact ⟨w.warnings, rfl⟩
  | cons id ids ih =>
    obtain ⟨warnings, h⟩ := ih { w with warnings := w.warnings.push m }
    exact ⟨warnings, (bind_of_ok (a := warn m) rfl).trans h⟩

theorem gives_setSwitches (first last : Number) (value : Bool) (w : World) :
    (setSwitches first last value).Gives w ()
      { w.game with switches := w.game.switches.setBetween first last value } :=
  (gives_warnBetween _ _ _ w).bind fun warnings => ⟨warnings, rfl⟩

theorem gives_toggleSwitches (first last : Number) (w : World) :
    (toggleSwitches first last).Gives w ()
      { w.game with switches := w.game.switches.toggleBetween first last } :=
  (gives_warnBetween _ _ _ w).bind fun warnings => ⟨warnings, rfl⟩

theorem gives_combineVariables (first last : Number) (op : VariableOp) (operand : Number)
    (w : World) : (combineVariables first last op operand).Gives w ()
      { w.game with vars := w.game.vars.combinedBetween first last op operand } := by
  rw [combineVariables_eq]
  split
  · exact (gives_warnBetween _ _ _ w).bind fun warnings => ⟨warnings, rfl⟩
  · exact ⟨w.warnings, rfl⟩

end Act

namespace Commands

variable {w : World}

theorem perform_shared (env : Env) (f : Frame) {c : Command} {op : SharedOp}
    (h : c.opcode = .shared op) : perform env f c = performShared env f c op := by
  unfold perform
  rw [h]

theorem perform_field (env : Env) {f : Frame} {c : Command} {op : FieldOp}
    (hcontext : f.context = .field) (h : c.opcode = .field op) :
    perform env f c = performField env f c op := by
  unfold perform
  rw [h, hcontext]

theorem gives_writtenIds {c : Command} {r : Receiver} {more : List Number}
    (h : c.params = r.params ++ more) (w : World) :
    (writtenIds c).Gives w (some (r.ids w.game)) w.game := by
  refine ⟨w.warnings, ?_⟩
  unfold writtenIds Command.mode Command.param
  rw [h]
  cases r <;> rfl

/-- A switch command writes the switches and asks for a look at the pages. -/
theorem gives_controlSwitches (f : Frame) (r : Receiver) (op : SwitchOp) (indent : Number)
    (w : World) : (controlSwitches f ((Assignment.turn r op).command indent)).Gives w
      (.next f.pc) (((Assignment.turn r op).run w.game).asking true) := by
  refine (gives_writtenIds rfl w).bind fun warnings => ?_
  have hmode : ((Assignment.turn r op).command indent).mode 3 = op.number.toInt := by
    cases r <;> rfl
  simp only [hmode]
  cases op with
  | on => exact (gives_setSwitches _ _ true _).bind fun warnings => ⟨warnings, rfl⟩
  | off => exact (gives_setSwitches _ _ false _).bind fun warnings => ⟨warnings, rfl⟩
  | toggle => exact (gives_toggleSwitches _ _ _).bind fun warnings => ⟨warnings, rfl⟩

/-- A variable command combines the variables with its operand as it was before. -/
theorem gives_controlVariables (env : Env) (f : Frame) (r : Receiver) (op : VariableOp)
    (operand : Operand) (indent : Number) (w : World) :
    (controlVariables env f ((Assignment.combine r op operand).command indent)).Gives w
      (.next f.pc) (((Assignment.combine r op operand).run w.game).asking true) := by
  have hop : VariableOp.ofNumber?
      (((Assignment.combine r op operand).command indent).param 3) = some op := by
    cases r <;> cases op <;> rfl
  have hvalue (v : World) : (variableOperand env f
      (((Assignment.combine r op operand).command indent).param 4)
      (((Assignment.combine r op operand).command indent).param 5)
      (((Assignment.combine r op operand).command indent).param 6)).Gives v
        (some (operand.value v.game)) v.game := by
    refine ⟨v.warnings, ?_⟩
    cases r <;> cases operand <;> rfl
  have hdrawn : ((Assignment.combine r op operand).command indent).mode 4 ≠ 3 := by
    cases operand with
    | number n =>
      have hmode : ((Assignment.combine r op (.number n)).command indent).mode 4 = 0 := by
        cases r <;> rfl
      rw [hmode]
      decide
    | var id =>
      have hmode : ((Assignment.combine r op (.var id)).command indent).mode 4 = 1 := by
        cases r <;> rfl
      rw [hmode]
      decide
  unfold controlVariables
  have hparams : ((Assignment.combine r op operand).command indent).params =
      r.params ++ ([op.number] ++ operand.params) := List.append_assoc ..
  refine (gives_writtenIds hparams w).bind fun warnings => ?_
  simp only [hop, if_neg hdrawn]
  refine (hvalue _).bind fun warnings => ?_
  exact (gives_combineVariables _ _ op _ _).bind fun warnings => ⟨warnings, rfl⟩

/-- An assignment does what it says, asks for a look at the pages and goes on. -/
theorem gives_assignment (env : Env) (f : Frame) (a : Assignment) (indent : Number) (w : World) :
    (perform env f (a.command indent)).Gives w (.next f.pc) ((a.run w.game).asking true) := by
  cases a with
  | turn r op =>
    rw [perform_shared env f (Program.opcode_assignment _ indent)]
    exact gives_controlSwitches f r op indent w
  | combine r op operand =>
    rw [perform_shared env f (Program.opcode_assignment _ indent)]
    exact gives_controlVariables env f r op operand indent w

/-- A branch goes on, or past the end of its body, as its condition tells. -/
theorem perform_condition (env : Env) {f : Frame} (hcontext : f.context = .field) (c : Condition)
    (indent : Number) (w : World) : perform env f (c.command indent) w =
      .ok (.next (if c.holds w.game then f.pc else f.blockEnd), w) := by
  rw [perform_field env hcontext (Program.opcode_condition c indent)]
  cases c with
  | switch id on => cases on <;> rfl
  | compare id op operand => cases operand <;> cases op <;> rfl

end Commands

/-! ## Steps of the run -/

namespace Frame

/-- The frame at another place of its list. -/
def moveTo (f : Frame) (place : Nat) : Frame := { f with pc := place }

/-- A frame of the field that waits for nothing and has the table of its list. -/
structure Underway (f : Frame) : Prop where
  context : f.context = .field
  pause : f.pause = .ready
  landing : ∀ n, Blocks.landing f.commands n = .ok (f.jumps.landing? n)

variable {env : Env} {f : Frame} {c : Command} {n place : Nat} {w u : World}

theorem not_held_of_free (f : Frame) {g : Game} (h : g.IsFree) :
    ¬ (g.scene.isBlocking || (f.context = .field && g.troop.isSome)) = true := by
  simp [h.scene, h.battle]

/-- A frame that waits for nothing runs the command at hand. -/
theorem turn_of_command (hpause : f.pause = .ready) (hfree : w.game.IsFree)
    (hc : f.commands[f.pc]? = some c) :
    f.turn env w = (do f.settle env (← Commands.perform env f c)) w := by
  rw [turn, getGame_bind, if_neg (by simp [hfree.read])]
  simp only [hpause, proceed, getGame_bind, if_neg (not_held_of_free f hfree), hc]

/-- A frame that waits for nothing leaves its list behind the last command. -/
theorem turn_of_end (hpause : f.pause = .ready) (hfree : w.game.IsFree)
    (hc : f.commands[f.pc]? = none) (hrun : f.isRunning = true) :
    f.turn env w = (do return ({ frame := ← f.finish, signal := .again } : Turn)) w := by
  rw [turn, getGame_bind, if_neg (by simp [hfree.read])]
  simp only [hpause, proceed, getGame_bind, if_neg (not_held_of_free f hfree), hc, hrun, if_true]

/-- A command that goes on after a place takes the frame behind that place. -/
theorem turn_next (hf : f.Underway) (hfree : w.game.IsFree) (hc : f.commands[n]? = some c)
    (h : Commands.perform env (f.moveTo n) c w = .ok (.next place, u)) :
    (f.moveTo n).turn env w = .ok
      ({ frame := f.moveTo (min (place + 1) f.commands.length), signal := .again }, u) := by
  have hgoto : (f.moveTo n).goto place = f.moveTo (min (place + 1) f.commands.length) := by
    simp only [goto, moveTo, ← hf.pause]
  rw [turn_of_command (f := f.moveTo n) hf.pause hfree hc, bind_of_ok h, ← hgoto]
  rfl

/-- A stretch of commands stands at a place of the list. -/
def Segment (f : Frame) (n : Nat) (stretch : List Command) : Prop :=
  ∃ before after, f.commands = before ++ stretch ++ after ∧ before.length = n

variable {x y : Command} {s t inner rest : List Command}

theorem Segment.append (h : f.Segment n (s ++ t)) :
    f.Segment n s ∧ f.Segment (n + s.length) t := by
  obtain ⟨before, after, hlist, rfl⟩ := h
  refine ⟨⟨before, t ++ after, ?_, rfl⟩, before ++ s, after, ?_, List.length_append⟩
  · simpa using hlist
  · simpa using hlist

theorem Segment.head (h : f.Segment n (x :: s)) : f.commands[n]? = some x := by
  obtain ⟨before, after, hlist, rfl⟩ := h
  rw [hlist]
  simp

theorem Segment.tail (h : f.Segment n (x :: s)) : f.Segment (n + 1) s :=
  (Segment.append (s := [x]) h).2

/-- A body between the commands that open and close it. -/
theorem Segment.block (h : f.Segment n (x :: inner ++ y :: rest)) :
    f.commands[n]? = some x ∧ f.Segment (n + 1) inner ∧
      f.Segment (n + 1 + inner.length) (y :: rest) := by
  obtain ⟨hfront, hback⟩ := h.append
  have hplace : n + (x :: inner).length = n + 1 + inner.length := by
    rw [List.length_cons]
    omega
  exact ⟨hfront.head, hfront.tail, hplace ▸ hback⟩

theorem Segment.lt_length (h : f.Segment n (x :: s)) : n < f.commands.length :=
  (List.getElem?_eq_some_iff.1 h.head).1

theorem blockEnd_of_landing (hf : f.Underway)
    (h : Blocks.landing f.commands n = .ok (some place)) : (f.moveTo n).blockEnd = place := by
  have hplace : f.jumps.landing? n = some place := Except.ok.inj ((hf.landing n).symm.trans h)
  change (f.jumps.landing? n).getD n = place
  rw [hplace]
  rfl

/-- A search from behind a command finds the end of the body that follows. -/
theorem seek_of_segment (h : f.Segment n (x :: inner ++ y :: rest))
    (hdeep : Blocks.Deeper x.indent inner) (hindent : y.indent = x.indent) {target alt : Number}
    (hcode : y.code = target ∨ y.code = alt) :
    Blocks.seek f.commands (n + 1) target alt x.indent x.indent = some (n + 1 + inner.length) := by
  obtain ⟨before, after, hlist, rfl⟩ := h
  have hfound := Blocks.seek_of_deeper (before ++ [x]) (rest ++ after) hdeep hindent hcode
  rw [List.length_append, List.length_singleton] at hfound
  rw [← hfound, hlist]
  simp

theorem blockEnd_branch (hf : f.Underway) (h : f.Segment n (x :: inner ++ y :: rest))
    (hop : x.opcode = .field .branch) (hdeep : Blocks.Deeper x.indent inner)
    (hindent : y.indent = x.indent)
    (hcode : y.code = FieldOp.elseBranch.code ∨ y.code = FieldOp.endBranch.code) :
    (f.moveTo n).blockEnd = n + 1 + inner.length := by
  refine blockEnd_of_landing hf ?_
  unfold Blocks.landing
  rw [Segment.head h]
  simp only [hop, seek_of_segment h hdeep hindent hcode]

theorem blockEnd_else (hf : f.Underway) (h : f.Segment n (x :: inner ++ y :: rest))
    (hop : x.opcode = .field .elseBranch) (hdeep : Blocks.Deeper x.indent inner)
    (hindent : y.indent = x.indent) (hcode : y.code = FieldOp.endBranch.code) :
    (f.moveTo n).blockEnd = n + 1 + inner.length := by
  refine blockEnd_of_landing hf ?_
  unfold Blocks.landing
  rw [Segment.head h]
  simp only [hop, seek_of_segment h hdeep hindent (.inl hcode)]

theorem blockEnd_endLoop (hf : f.Underway) (h : f.Segment n (x :: inner ++ y :: rest))
    (hcode : x.code = SharedOp.loop.code) (hdeep : Blocks.Deeper x.indent inner)
    (hindent : y.indent = x.indent) (hop : y.opcode = .shared .endLoop) :
    (f.moveTo (n + 1 + inner.length)).blockEnd = n := by
  refine blockEnd_of_landing hf ?_
  have hy : f.commands[n + 1 + inner.length]? = some y := h.block.2.2.head
  obtain ⟨before, after, hlist, rfl⟩ := h
  have hback := Blocks.loopBefore_of_deeper before (y :: rest ++ after) hdeep rfl hcode
  unfold Blocks.landing
  rw [hy]
  simp only [hop, hindent]
  rw [← hback, hlist]
  simp

/-! ## Stretches of the run -/

/-- Wherever a frame stands at a place with a game, its run leads to another place and game, and
hands nothing to the host. Whether a look at the pages is asked for is left open. -/
def Reaches (env : Env) (f : Frame) (n : Nat) (g : Game) (m : Nat) (g' : Game) : Prop :=
  ∀ w b, w.game = g.asking b → ∃ w' b',
    ReflTransGen (Interpreter.Steps env) ({ frame := f.moveTo n }, w)
        ({ frame := f.moveTo m }, w') ∧
      w'.game = g'.asking b' ∧ w'.effects = w.effects

variable {g g' g'' : Game} {m k : Nat}

theorem Reaches.refl : f.Reaches env n g n g := fun w b hw => ⟨w, b, .refl, hw, rfl⟩

theorem Reaches.trans (h : f.Reaches env n g m g') (h' : f.Reaches env m g' k g'') :
    f.Reaches env n g k g'' := by
  intro w b hw
  obtain ⟨u, b', hrun, hu, heffects⟩ := h w b hw
  obtain ⟨v, b'', hrun', hv, heffects'⟩ := h' u b' hu
  exact ⟨v, b'', hrun.trans hrun', hv, heffects'.trans heffects⟩

theorem steps_next (hf : f.Underway) (hfree : w.game.IsFree) (hc : f.commands[n]? = some c)
    (h : Commands.perform env (f.moveTo n) c w = .ok (.next place, u)) :
    Interpreter.Steps env ({ frame := f.moveTo n }, w)
      ({ frame := f.moveTo (min (place + 1) f.commands.length) }, u) := by
  have hrun : (f.moveTo n).isRunning = true :=
    isRunning_of_mem (f := f.moveTo n) (List.mem_of_getElem? hc)
  exact .own hrun (turn_next hf hfree hc h)

/-- A command that goes on from a place, as it does with every game that differs in nothing but the
look at the pages. -/
theorem reaches_of_gives (hf : f.Underway) (hfree : g.IsFree) (hc : f.commands[n]? = some c)
    (h : ∀ w b, w.game = g.asking b → ∃ b',
      (Commands.perform env (f.moveTo n) c).Gives w (.next place) (g'.asking b')) :
    f.Reaches env n g (min (place + 1) f.commands.length) g' := by
  intro w b hw
  obtain ⟨b', warnings, hperform⟩ := h w b hw
  have hfree' : w.game.IsFree := hw ▸ hfree.asking b
  exact ⟨_, b', .single (steps_next hf hfree' hc hperform), rfl, rfl⟩

/-- A command that changes nothing and goes on from a place. -/
theorem reaches_of_perform (hf : f.Underway) (hfree : g.IsFree) (hc : f.commands[n]? = some c)
    (hplace : place < f.commands.length)
    (h : ∀ (w : World) b, w.game = g.asking b →
      Commands.perform env (f.moveTo n) c w = .ok (.next place, w)) :
    f.Reaches env n g (place + 1) g := by
  have hmin : min (place + 1) f.commands.length = place + 1 := Nat.min_eq_left hplace
  rw [← hmin]
  exact reaches_of_gives hf hfree hc fun w b hw => ⟨b, w.warnings, by rw [h w b hw, ← hw]⟩

/-- What is reached from one place is reached from the next one on the way. -/
theorem Reaches.after (hf : f.Underway) (hfree : g.IsFree) (hc : f.commands[n]? = some c)
    (hplace : n < f.commands.length)
    (hpass : ∀ w : World, Commands.perform env (f.moveTo n) c w = .ok (.next n, w))
    (hne : m ≠ n) (h : f.Reaches env n g m g') : f.Reaches env (n + 1) g m g' := by
  intro w b hw
  obtain ⟨w', b', hrun, hgame, heffects⟩ := h w b hw
  have hfree' : w.game.IsFree := hw ▸ hfree.asking b
  have hstep := steps_next hf hfree' hc (hpass w)
  rw [Nat.min_eq_left hplace] at hstep
  refine ⟨w', b', ?_, hgame, heffects⟩
  rcases hrun.cases_head with heq | ⟨s, hs, hrest⟩
  · -- the run has not left the first place
    have hpc : (f.moveTo n).pc = (f.moveTo m).pc := congrArg (·.1.frame.pc) heq
    exact absurd hpc.symm hne
  · rwa [Interpreter.steps_unique hs hstep] at hrest

end Frame

/-- Where a program laid out in a list ends: behind its layout, or at the end of the list. -/
def Ending.place (f : Frame) (behind : Nat) : Ending → Nat
  | .through => behind
  | .stopped => f.commands.length

namespace Program

open EventScript.Frame

theorem run_asking (a : Assignment) (g : Game) (b : Bool) :
    (a.run (g.asking b)).asking true = (a.run g).asking true := by
  cases a with
  | turn r op => cases r <;> rfl
  | combine r op operand => cases r <;> cases operand <;> rfl

theorem holds_asking (c : Condition) (g : Game) (b : Bool) : c.holds (g.asking b) = c.holds g := by
  cases c with
  | switch id on => rfl
  | compare id op operand => cases operand <;> rfl

theorem isFree_run {g : Game} (h : g.IsFree) (a : Assignment) : (a.run g).IsFree := by
  cases a <;> exact ⟨h.read, h.scene, h.battle⟩

theorem Runs.isFree {p : Program} {g g' : Game} {e : Ending} (h : p.Runs g e g') (hg : g.IsFree) :
    g'.IsFree := by
  induction h with
  | done | stop => exact hg
  | assign _ ih => exact ih (isFree_run hg _)
  | branch _ _ _ ihbody ihrest => exact ihrest (ihbody hg)
  | branch_stopped _ _ ih | branch_not _ _ ih | choose_stopped _ ih | loop_stopped _ ih =>
    exact ih hg
  | choose _ _ ihbody ihrest => exact ihrest (ihbody hg)
  | loop _ _ ihbody ihagain => exact ihagain (ihbody hg)

theorem deeper_of_layout {p : Program} {indent deeper : Number} {inner : List Command}
    (hdeeper : Checked.add indent 1 = .ok deeper) (h : p.layout deeper = .ok inner) :
    Blocks.Deeper indent inner := by
  intro x hx
  have hone := toInt_of_add_one hdeeper
  have hle := (fits_of_mem_layout h x hx).1
  omega

section

variable {env : Env} {f : Frame} {g : Game} {n : Nat} {indent : Number} {s : List Command}

theorem reaches_assignment (hf : f.Underway) (hg : g.IsFree) (a : Assignment)
    (hseg : f.Segment n (a.command indent :: s)) : f.Reaches env n g (n + 1) (a.run g) := by
  have hmin : min (n + 1) f.commands.length = n + 1 := Nat.min_eq_left hseg.lt_length
  rw [← hmin]
  refine reaches_of_gives hf hg hseg.head fun w b hw => ⟨true, ?_⟩
  rw [← run_asking a g b, ← hw]
  exact Commands.gives_assignment env (f.moveTo n) a indent w

theorem reaches_body (hf : f.Underway) (hg : g.IsFree) {c : Condition} (hc : c.holds g = true)
    (hseg : f.Segment n (c.command indent :: s)) : f.Reaches env n g (n + 1) g := by
  refine reaches_of_perform hf hg hseg.head hseg.lt_length fun w b hw => ?_
  have hholds : c.holds w.game = true := by rw [hw, holds_asking, hc]
  rw [Commands.perform_condition env (f := f.moveTo n) hf.context, if_pos hholds]
  rfl

theorem reaches_past_body (hf : f.Underway) (hg : g.IsFree) {c : Condition}
    (hc : c.holds g = false) (hseg : f.Segment n (c.command indent :: s)) {place : Nat}
    (hend : (f.moveTo n).blockEnd = place) (hplace : place < f.commands.length) :
    f.Reaches env n g (place + 1) g := by
  refine reaches_of_perform hf hg hseg.head hplace fun w b hw => ?_
  have hholds : ¬ c.holds w.game = true := by rw [hw, holds_asking, hc]; exact Bool.false_ne_true
  rw [Commands.perform_condition env (f := f.moveTo n) hf.context, if_neg hholds, hend]

theorem reaches_past_endBranch (hf : f.Underway) (hg : g.IsFree)
    (hseg : f.Segment n ({ code := FieldOp.endBranch.code, indent } :: s)) :
    f.Reaches env n g (n + 1) g := by
  refine reaches_of_perform hf hg hseg.head hseg.lt_length fun w _ _ => ?_
  rw [Commands.perform_field env (f := f.moveTo n) hf.context rfl]
  rfl

/-- A body that comes to the other one goes past it. -/
theorem reaches_past_other (hf : f.Underway) (hg : g.IsFree)
    (hseg : f.Segment n ({ code := FieldOp.elseBranch.code, indent } :: s)) {place : Nat}
    (hend : (f.moveTo n).blockEnd = place) (hplace : place < f.commands.length) :
    f.Reaches env n g (place + 1) g := by
  refine reaches_of_perform hf hg hseg.head hplace fun w _ _ => ?_
  rw [Commands.perform_field env (f := f.moveTo n) hf.context rfl, ← hend]
  rfl

theorem perform_loop (env : Env) (f : Frame) (indent : Number) (w : World) :
    Commands.perform env f { code := SharedOp.loop.code, indent } w = .ok (.next f.pc, w) := by
  rw [Commands.perform_shared env f rfl]
  rfl

/-- The end of a loop goes back behind its start. -/
theorem reaches_again (hf : f.Underway) (hg : g.IsFree)
    (hseg : f.Segment n ({ code := SharedOp.endLoop.code, indent } :: s)) {place : Nat}
    (hstart : (f.moveTo n).blockEnd = place) (hplace : place < f.commands.length) :
    f.Reaches env n g (place + 1) g := by
  refine reaches_of_perform hf hg hseg.head hplace fun w _ _ => ?_
  rw [Commands.perform_shared env (f.moveTo n) rfl, ← hstart]
  rfl

theorem reaches_end (hf : f.Underway) (hg : g.IsFree)
    (hseg : f.Segment n ({ code := SharedOp.endEvent.code, indent } :: s)) :
    f.Reaches env n g f.commands.length g := by
  have hmin : min (f.commands.length + 1) f.commands.length = f.commands.length :=
    Nat.min_eq_right (Nat.le_succ _)
  rw [← hmin]
  refine reaches_of_gives hf hg hseg.head fun w b hw => ⟨b, w.warnings, ?_⟩
  rw [Commands.perform_shared env (f.moveTo n) rfl, ← hw]
  rfl

end

variable {env : Env} {f : Frame}

theorem length_append_cons (n : Nat) (s : List Command) (y : Command) (rest : List Command) :
    n + (s ++ y :: rest).length = n + s.length + 1 + rest.length := by
  simp only [List.length_append, List.length_cons]
  omega

theorem length_block (n : Nat) (x y : Command) (inner rest : List Command) :
    n + (x :: inner ++ y :: rest).length = n + 1 + inner.length + 1 + rest.length := by
  simp only [List.length_append, List.length_cons]
  omega

/-- A choice leads to the body that its condition chooses, and from the end of that body behind
the whole choice. -/
theorem reaches_chosen (env : Env) (hf : f.Underway) {g : Game} (hg : g.IsFree) {c : Condition}
    {body other : Program} {indent deeper : Number} {inner outer after : List Command} {n : Nat}
    (hdeeper : Checked.add indent 1 = .ok deeper) (hinner : body.layout deeper = .ok inner)
    (houter : other.layout deeper = .ok outer)
    (hseg : f.Segment n (c.command indent :: inner ++
      { code := FieldOp.elseBranch.code, indent } :: outer ++
      { code := FieldOp.endBranch.code, indent } :: after)) :
    ∃ place chosen, (if c.holds g then body else other).layout deeper = .ok chosen ∧
      f.Segment place chosen ∧ f.Reaches env n g place g ∧
      ∀ {u : Game}, u.IsFree → f.Reaches env (place + chosen.length) u
        (n + (c.command indent :: inner ++
          ({ code := FieldOp.elseBranch.code, indent } : Command) :: outer).length + 1) u := by
  have hendAt := hseg.append.2
  rw [List.append_assoc] at hseg
  obtain ⟨-, hinnerAt, helseAt⟩ := hseg.block
  obtain ⟨-, houterAt, -⟩ := helseAt.block
  have hindent := indent_condition c indent
  have hlength : n + (c.command indent :: inner ++
      ({ code := FieldOp.elseBranch.code, indent } : Command) :: outer).length =
        n + 1 + inner.length + 1 + outer.length := length_block ..
  rw [hlength] at hendAt ⊢
  cases hc : c.holds g with
  | true =>
    have hend := blockEnd_else hf helseAt rfl (deeper_of_layout hdeeper houter) rfl rfl
    exact ⟨n + 1, inner, hinner, hinnerAt, reaches_body hf hg hc hseg, fun hu =>
      reaches_past_other hf hu helseAt hend hendAt.lt_length⟩
  | false =>
    have hend : (f.moveTo n).blockEnd = n + 1 + inner.length :=
      blockEnd_branch hf hseg (opcode_condition c indent)
        (hindent.symm ▸ deeper_of_layout hdeeper hinner) hindent.symm (.inl rfl)
    exact ⟨n + 1 + inner.length + 1, outer, houter, houterAt,
      reaches_past_body hf hg hc hseg hend helseAt.lt_length, fun hu =>
      reaches_past_endBranch hf hu hendAt⟩

/-- A layout runs as its program, wherever it stands. -/
theorem reaches_of_runs (hf : f.Underway) {p : Program} {g g' : Game} {e : Ending}
    (h : p.Runs g e g') {indent : Number} {block : List Command} {n : Nat}
    (hlayout : p.layout indent = .ok block) (hseg : f.Segment n block) (hg : g.IsFree) :
    f.Reaches env n g (e.place f (n + block.length)) g' := by
  induction h generalizing indent block n with
  | done =>
    cases hlayout
    exact .refl
  | @assign a rest g g' e _ ih =>
    obtain ⟨after, hafter, rfl⟩ := layout_assign hlayout
    have hplace : n + (a.command indent :: after).length = n + 1 + after.length := by
      rw [List.length_cons]
      omega
    rw [hplace]
    exact (reaches_assignment hf hg a hseg).trans (ih hafter hseg.tail (isFree_run hg a))
  | branch hc hbody _ ihbody ihrest =>
    obtain ⟨deeper, inner, after, hdeeper, hinner, hafter, rfl⟩ := layout_branch hlayout
    obtain ⟨-, hinnerAt, hendAt⟩ := hseg.block
    have hu := hbody.isFree hg
    rw [length_block]
    exact (reaches_body hf hg hc hseg).trans <| (ihbody hinner hinnerAt hg).trans <|
      (reaches_past_endBranch hf hu hendAt).trans (ihrest hafter hendAt.tail hu)
  | branch_stopped hc _ ihbody =>
    obtain ⟨deeper, inner, after, hdeeper, hinner, hafter, rfl⟩ := layout_branch hlayout
    exact (reaches_body hf hg hc hseg).trans (ihbody hinner hseg.block.2.1 hg)
  | @branch_not c body rest g g' e hc _ ihrest =>
    obtain ⟨deeper, inner, after, hdeeper, hinner, hafter, rfl⟩ := layout_branch hlayout
    have hendAt := hseg.block.2.2
    have hindent := indent_condition c indent
    have hend : (f.moveTo n).blockEnd = n + 1 + inner.length :=
      blockEnd_branch hf hseg (opcode_condition c indent)
        (hindent.symm ▸ deeper_of_layout hdeeper hinner) hindent.symm (.inr rfl)
    rw [length_block]
    exact (reaches_past_body hf hg hc hseg hend hendAt.lt_length).trans
      (ihrest hafter hendAt.tail hg)
  | choose hbody _ ihbody ihrest =>
    obtain ⟨deeper, inner, outer, after, hdeeper, hinner, houter, hafter, rfl⟩ :=
      layout_choose hlayout
    obtain ⟨place, chosen, hchosen, hchosenAt, henter, hleave⟩ :=
      reaches_chosen env hf hg hdeeper hinner houter hseg
    have hu := hbody.isFree hg
    rw [length_append_cons]
    exact henter.trans <| (ihbody hchosen hchosenAt hg).trans <|
      (hleave hu).trans (ihrest hafter hseg.append.2.tail hu)
  | choose_stopped _ ihbody =>
    obtain ⟨deeper, inner, outer, after, hdeeper, hinner, houter, hafter, rfl⟩ :=
      layout_choose hlayout
    obtain ⟨place, chosen, hchosen, hchosenAt, henter, -⟩ :=
      reaches_chosen env hf hg hdeeper hinner houter hseg
    exact henter.trans (ihbody hchosen hchosenAt hg)
  | @loop body rest g u g' e hbody _ ihbody ihagain =>
    have hwhole := hlayout
    obtain ⟨deeper, inner, after, hdeeper, hinner, hafter, rfl⟩ := layout_loop hlayout
    obtain ⟨hstartAt, hinnerAt, hendAt⟩ := hseg.block
    have hu := hbody.isFree hg
    have hpass (w : World) := perform_loop env (f.moveTo n) indent w
    have hstart : (f.moveTo (n + 1 + inner.length)).blockEnd = n :=
      blockEnd_endLoop hf hseg rfl (deeper_of_layout hdeeper hinner) rfl rfl
    have henter : f.Reaches env n g (n + 1) g :=
      reaches_of_perform hf hg hstartAt hseg.lt_length fun w _ _ => hpass w
    have hne : e.place f (n + (({ code := SharedOp.loop.code, indent } : Command) :: inner ++
        ({ code := SharedOp.endLoop.code, indent } : Command) :: after).length) ≠ n := by
      have hlt := hseg.lt_length
      cases e with
      | through => rw [Ending.place, length_block]; omega
      | stopped => rw [Ending.place]; omega
    exact henter.trans <| (ihbody hinner hinnerAt hg).trans <|
      (reaches_again hf hu hendAt hstart hseg.lt_length).trans <|
      (ihagain hwhole hseg hu).after hf hu hstartAt hseg.lt_length hpass hne
  | @loop_stopped body rest g g' _ ihbody =>
    obtain ⟨deeper, inner, after, hdeeper, hinner, hafter, rfl⟩ := layout_loop hlayout
    obtain ⟨hstartAt, hinnerAt, -⟩ := hseg.block
    have henter : f.Reaches env n g (n + 1) g :=
      reaches_of_perform hf hg hstartAt hseg.lt_length fun w _ _ => perform_loop env _ indent w
    exact henter.trans (ihbody hinner hinnerAt hg)
  | stop =>
    obtain ⟨after, -, rfl⟩ := layout_stop hlayout
    exact reaches_end hf hg hseg

end Program

end EventScript
