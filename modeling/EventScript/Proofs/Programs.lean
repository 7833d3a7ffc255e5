import EventScript.Commands.Dispatch
import EventScript.Proofs.Act
import EventScript.Proofs.ExactArithmetic

/-!
# Structured programs

A program is a tree of assignments, branches and loops. It has a meaning of its own, and a layout as
a flat list of commands.

* `Program.Runs` is the meaning: how a program changes a game, block by block. It is a function
  (`Program.Runs.unique`), which is not defined where a loop never ends.
* `Program.layout` writes a program down, each body one indent deeper than the commands around it.
  It can do so where the indents suffice for the bodies (`Program.exists_layout`).
* `Program.fits_of_mem_layout` tells which commands a layout is made of.
-/

namespace EventScript

/-- The ids that an assignment writes. -/
inductive Receiver
  | one (id : Number)
  | range (first last : Number)
  /-- The id that a variable holds. -/
  | through (id : Number)

/-- What an assignment or a comparison works with. -/
inductive Operand
  | number (n : Number)
  | var (id : Number)

inductive SwitchOp
  | on
  | off
  | toggle

inductive Assignment
  | turn (r : Receiver) (op : SwitchOp)
  | combine (r : Receiver) (op : VariableOp) (operand : Operand)

inductive Comparison
  | equal
  | atLeast
  | atMost
  | more
  | less
  | different

inductive Condition
  | switch (id : Number) (on : Bool)
  | compare (id : Number) (op : Comparison) (operand : Operand)

/-- A program: its first statement with what comes after it. -/
inductive Program
  | done
  | assign (a : Assignment) (rest : Program)
  /-- The body runs where the condition holds. -/
  | branch (c : Condition) (body rest : Program)
  /-- One of two bodies runs. -/
  | choose (c : Condition) (body other rest : Program)
  /-- The body runs again and again. -/
  | loop (body rest : Program)
  | stop (rest : Program)

/-! ## The meaning -/

/-- The first and the last id that are written. -/
def Receiver.ids (g : Game) : Receiver → Number × Number
  | one id => (id, id)
  | range first last => (first, last)
  | through id => (g.vars.get id, g.vars.get id)

def Operand.value (g : Game) : Operand → Number
  | number n => n
  | var id => g.vars.get id

def SwitchOp.run (s : Switches) (first last : Number) : SwitchOp → Switches
  | on => s.setBetween first last true
  | off => s.setBetween first last false
  | toggle => s.toggleBetween first last

def Assignment.run (g : Game) : Assignment → Game
  | turn r op =>
    let (first, last) := r.ids g
    { g with switches := op.run g.switches first last }
  | combine r op operand =>
    let (first, last) := r.ids g
    { g with vars := g.vars.combinedBetween first last op (operand.value g) }

def Comparison.holds (left right : Number) : Comparison → Bool
  | equal => left = right
  | atLeast => right ≤ left
  | atMost => left ≤ right
  | more => right < left
  | less => left < right
  | different => left ≠ right

def Condition.holds (g : Game) : Condition → Bool
  | switch id on => g.switches.get id = on
  | compare id op operand => op.holds (g.vars.get id) (operand.value g)

/-- How a program ends: past its last statement, or at a statement that stops it. -/
inductive Ending
  | through
  | stopped

/-- A program leads from one game to another. -/
inductive Program.Runs : Program → Game → Ending → Game → Prop
  | done {g : Game} : Runs done g .through g
  | assign {a : Assignment} {rest : Program} {g g' : Game} {e : Ending}
      (h : Runs rest (a.run g) e g') : Runs (assign a rest) g e g'
  | branch {c : Condition} {body rest : Program} {g u g' : Game} {e : Ending}
      (hc : c.holds g = true) (hbody : Runs body g .through u) (hrest : Runs rest u e g') :
      Runs (branch c body rest) g e g'
  | branch_stopped {c : Condition} {body rest : Program} {g g' : Game}
      (hc : c.holds g = true) (hbody : Runs body g .stopped g') :
      Runs (branch c body rest) g .stopped g'
  | branch_not {c : Condition} {body rest : Program} {g g' : Game} {e : Ending}
      (hc : c.holds g = false) (hrest : Runs rest g e g') : Runs (branch c body rest) g e g'
  | choose {c : Condition} {body other rest : Program} {g u g' : Game} {e : Ending}
      (hbody : Runs (if c.holds g then body else other) g .through u) (hrest : Runs rest u e g') :
      Runs (choose c body other rest) g e g'
  | choose_stopped {c : Condition} {body other rest : Program} {g g' : Game}
      (hbody : Runs (if c.holds g then body else other) g .stopped g') :
      Runs (choose c body other rest) g .stopped g'
  | loop {body rest : Program} {g u g' : Game} {e : Ending} (hbody : Runs body g .through u)
      (hagain : Runs (loop body rest) u e g') : Runs (loop body rest) g e g'
  | loop_stopped {body rest : Program} {g g' : Game} (hbody : Runs body g .stopped g') :
      Runs (loop body rest) g .stopped g'
  | stop {rest : Program} {g : Game} : Runs (stop rest) g .stopped g

/-- A program leads a game to one other game at most. -/
theorem Program.Runs.unique {p : Program} {g g' g'' : Game} {e e' : Ending} (h : p.Runs g e g')
    (h' : p.Runs g e' g'') : e = e' ∧ g' = g'' := by
  induction h generalizing e' g'' with
  | done | stop =>
    cases h'
    exact ⟨rfl, rfl⟩
  | assign _ ih =>
    cases h' with
    | assign h' => exact ih h'
  | branch hc _ _ ihbody ihrest =>
    cases h' with
    | branch _ hbody' hrest' =>
      obtain ⟨-, rfl⟩ := ihbody hbody'
      exact ihrest hrest'
    | branch_stopped _ hbody' => exact nomatch (ihbody hbody').1
    | branch_not hc' => exact absurd (hc.symm.trans hc') Bool.false_ne_true.symm
  | branch_stopped hc _ ihbody =>
    cases h' with
    | branch _ hbody' => exact nomatch (ihbody hbody').1
    | branch_stopped _ hbody' => exact ihbody hbody'
    | branch_not hc' => exact absurd (hc.symm.trans hc') Bool.false_ne_true.symm
  | branch_not hc _ ih =>
    cases h' with
    | branch hc' | branch_stopped hc' => exact absurd (hc.symm.trans hc') Bool.false_ne_true
    | branch_not _ h' => exact ih h'
  | choose _ _ ihbody ihrest =>
    cases h' with
    | choose hbody' hrest' =>
      obtain ⟨-, rfl⟩ := ihbody hbody'
      exact ihrest hrest'
    | choose_stopped hbody' => exact nomatch (ihbody hbody').1
  | choose_stopped _ ihbody =>
    cases h' with
    | choose hbody' => exact nomatch (ihbody hbody').1
    | choose_stopped hbody' => exact ihbody hbody'
  | loop _ _ ihbody ihagain =>
    cases h' with
    | loop hbody' hagain' =>
      obtain ⟨-, rfl⟩ := ihbody hbody'
      exact ihagain hagain'
    | loop_stopped hbody' => exact nomatch (ihbody hbody').1
  | loop_stopped _ ihbody =>
    cases h' with
    | loop hbody' => exact nomatch (ihbody hbody').1
    | loop_stopped hbody' => exact ihbody hbody'

/-! ## The layout -/

def Receiver.params : Receiver → List Number
  | one id => [0, id, 0]
  | range first last => [1, first, last]
  | through id => [2, id, 0]

def Operand.params : Operand → List Number
  | number n => [0, n]
  | var id => [1, id]

def SwitchOp.number : SwitchOp → Number
  | on => 0
  | off => 1
  | toggle => 2

def VariableOp.number : VariableOp → Number
  | set => 0
  | add => 1
  | sub => 2
  | mul => 3
  | div => 4
  | mod => 5

def Comparison.number : Comparison → Number
  | equal => 0
  | atLeast => 1
  | atMost => 2
  | more => 3
  | less => 4
  | different => 5

def Assignment.command (indent : Number) : Assignment → Command
  | turn r op =>
    { code := SharedOp.controlSwitches.code, indent, params := r.params ++ [op.number] }
  | combine r op operand => {
      code := SharedOp.controlVariables.code, indent
      params := r.params ++ [op.number] ++ operand.params }

def Condition.command (indent : Number) : Condition → Command
  | switch id on =>
    { code := FieldOp.branch.code, indent, params := [0, id, if on then 0 else 1] }
  | compare id op operand =>
    { code := FieldOp.branch.code, indent, params := [1, id] ++ operand.params ++ [op.number] }

namespace Program

/-- The commands of a program at an indent, if its bodies have indents too. -/
def layout (indent : Number) : Program → Except Overflow (List Command)
  | done => return []
  | assign a rest => do return a.command indent :: (← rest.layout indent)
  | branch c body rest => do
    let deeper ← Checked.add indent 1
    return c.command indent :: (← body.layout deeper) ++
      { code := FieldOp.endBranch.code, indent } :: (← rest.layout indent)
  | choose c body other rest => do
    let deeper ← Checked.add indent 1
    return c.command indent :: (← body.layout deeper) ++
      { code := FieldOp.elseBranch.code, indent } :: (← other.layout deeper) ++
      { code := FieldOp.endBranch.code, indent } :: (← rest.layout indent)
  | loop body rest => do
    let deeper ← Checked.add indent 1
    return { code := SharedOp.loop.code, indent } :: (← body.layout deeper) ++
      { code := SharedOp.endLoop.code, indent } :: (← rest.layout indent)
  | stop rest => do return { code := SharedOp.endEvent.code, indent } :: (← rest.layout indent)

/-- How many bodies stand inside each other. -/
def nesting : Program → Nat
  | done => 0
  | assign _ rest | stop rest => rest.nesting
  | branch _ body rest | loop body rest => max (body.nesting + 1) rest.nesting
  | choose _ body other rest => max (max body.nesting other.nesting + 1) rest.nesting

variable {indent : Number} {block : List Command}

theorem layout_assign {a : Assignment} {rest : Program}
    (h : (assign a rest).layout indent = .ok block) :
    ∃ after, rest.layout indent = .ok after ∧ block = a.command indent :: after := by
  obtain ⟨after, hafter, h⟩ := except_bind_eq_ok_iff.1 h
  exact ⟨after, hafter, (Except.ok.inj h).symm⟩

theorem layout_branch {c : Condition} {body rest : Program}
    (h : (branch c body rest).layout indent = .ok block) :
    ∃ deeper inner after, Checked.add indent 1 = .ok deeper ∧ body.layout deeper = .ok inner ∧
      rest.layout indent = .ok after ∧
      block = c.command indent :: inner ++ { code := FieldOp.endBranch.code, indent } :: after := by
  obtain ⟨deeper, hdeeper, h⟩ := except_bind_eq_ok_iff.1 h
  obtain ⟨inner, hinner, h⟩ := except_bind_eq_ok_iff.1 h
  obtain ⟨after, hafter, h⟩ := except_bind_eq_ok_iff.1 h
  exact ⟨deeper, inner, after, hdeeper, hinner, hafter, (Except.ok.inj h).symm⟩

theorem layout_choose {c : Condition} {body other rest : Program}
    (h : (choose c body other rest).layout indent = .ok block) :
    ∃ deeper inner outer after, Checked.add indent 1 = .ok deeper ∧
      body.layout deeper = .ok inner ∧ other.layout deeper = .ok outer ∧
      rest.layout indent = .ok after ∧
      block = c.command indent :: inner ++ { code := FieldOp.elseBranch.code, indent } :: outer ++
        { code := FieldOp.endBranch.code, indent } :: after := by
  obtain ⟨deeper, hdeeper, h⟩ := except_bind_eq_ok_iff.1 h
  obtain ⟨inner, hinner, h⟩ := except_bind_eq_ok_iff.1 h
  obtain ⟨outer, houter, h⟩ := except_bind_eq_ok_iff.1 h
  obtain ⟨after, hafter, h⟩ := except_bind_eq_ok_iff.1 h
  exact ⟨deeper, inner, outer, after, hdeeper, hinner, houter, hafter, (Except.ok.inj h).symm⟩

theorem layout_loop {body rest : Program} (h : (loop body rest).layout indent = .ok block) :
    ∃ deeper inner after, Checked.add indent 1 = .ok deeper ∧ body.layout deeper = .ok inner ∧
      rest.layout indent = .ok after ∧
      block = { code := SharedOp.loop.code, indent } :: inner ++
        { code := SharedOp.endLoop.code, indent } :: after := by
  obtain ⟨deeper, hdeeper, h⟩ := except_bind_eq_ok_iff.1 h
  obtain ⟨inner, hinner, h⟩ := except_bind_eq_ok_iff.1 h
  obtain ⟨after, hafter, h⟩ := except_bind_eq_ok_iff.1 h
  exact ⟨deeper, inner, after, hdeeper, hinner, hafter, (Except.ok.inj h).symm⟩

theorem layout_stop {rest : Program} (h : (stop rest).layout indent = .ok block) :
    ∃ after, rest.layout indent = .ok after ∧
      block = { code := SharedOp.endEvent.code, indent } :: after := by
  obtain ⟨after, hafter, h⟩ := except_bind_eq_ok_iff.1 h
  exact ⟨after, hafter, (Except.ok.inj h).symm⟩

theorem toInt_of_add_one {deeper : Number} (h : Checked.add indent 1 = .ok deeper) :
    deeper.toInt = indent.toInt + 1 :=
  Checked.fit_eq_ok_iff.1 h

/-- An indent below the last one has a deeper one. -/
theorem exists_deeper {indent : Number} (h : indent.toInt + 1 ≤ FixedWidth.high Number) :
    ∃ deeper, Checked.add indent 1 = .ok deeper := by
  have hlow : FixedWidth.low Number ≤ indent.toInt + 1 :=
    Int.le_trans (FixedWidth.low_le indent) (Int.le_add_one (Int.le_refl _))
  exact ⟨_, Checked.fit_isOk .add hlow h⟩

/-- Where the indents suffice for the bodies, a program has a layout. -/
theorem exists_layout (p : Program) (h : indent.toInt + p.nesting ≤ FixedWidth.high Number) :
    ∃ block, p.layout indent = .ok block := by
  induction p generalizing indent with
  | done => exact ⟨[], rfl⟩
  | assign a rest ih | stop rest ih =>
    obtain ⟨after, hafter⟩ := ih h
    exact ⟨_, except_bind_eq_ok_iff.2 ⟨after, hafter, rfl⟩⟩
  | branch c body rest ihbody ihrest | loop body rest ihbody ihrest =>
    rw [nesting] at h
    have hroom : indent.toInt + 1 ≤ FixedWidth.high Number := by omega
    obtain ⟨deeper, hdeeper⟩ := exists_deeper hroom
    have hone := toInt_of_add_one hdeeper
    have hbody : deeper.toInt + body.nesting ≤ FixedWidth.high Number := by omega
    have hrest : indent.toInt + rest.nesting ≤ FixedWidth.high Number := by omega
    obtain ⟨inner, hinner⟩ := ihbody hbody
    obtain ⟨after, hafter⟩ := ihrest hrest
    exact ⟨_, except_bind_eq_ok_iff.2 ⟨deeper, hdeeper, except_bind_eq_ok_iff.2
      ⟨inner, hinner, except_bind_eq_ok_iff.2 ⟨after, hafter, rfl⟩⟩⟩⟩
  | choose c body other rest ihbody ihother ihrest =>
    rw [nesting] at h
    have hroom : indent.toInt + 1 ≤ FixedWidth.high Number := by omega
    obtain ⟨deeper, hdeeper⟩ := exists_deeper hroom
    have hone := toInt_of_add_one hdeeper
    have hbody : deeper.toInt + body.nesting ≤ FixedWidth.high Number := by omega
    have hother : deeper.toInt + other.nesting ≤ FixedWidth.high Number := by omega
    have hrest : indent.toInt + rest.nesting ≤ FixedWidth.high Number := by omega
    obtain ⟨inner, hinner⟩ := ihbody hbody
    obtain ⟨outer, houter⟩ := ihother hother
    obtain ⟨after, hafter⟩ := ihrest hrest
    exact ⟨_, except_bind_eq_ok_iff.2 ⟨deeper, hdeeper, except_bind_eq_ok_iff.2 ⟨inner, hinner,
      except_bind_eq_ok_iff.2 ⟨outer, houter, except_bind_eq_ok_iff.2 ⟨after, hafter, rfl⟩⟩⟩⟩⟩

/-- The operations that a layout is made of. -/
def opcodes : List Opcode := [.shared .controlSwitches, .shared .controlVariables,
  .field .branch, .field .elseBranch, .field .endBranch, .shared .loop, .shared .endLoop,
  .shared .endEvent]

theorem opcode_assignment (a : Assignment) (indent : Number) :
    (a.command indent).opcode = match a with
      | .turn .. => .shared .controlSwitches
      | .combine .. => .shared .controlVariables := by
  cases a <;> rfl

theorem opcode_condition (c : Condition) (indent : Number) :
    (c.command indent).opcode = .field .branch := by
  cases c <;> rfl

theorem indent_assignment (a : Assignment) (indent : Number) :
    (a.command indent).indent = indent := by
  cases a <;> rfl

theorem indent_condition (c : Condition) (indent : Number) :
    (c.command indent).indent = indent := by
  cases c <;> rfl

/-- A command that a layout with an indent may hold. -/
def Fits (indent : Number) (x : Command) : Prop :=
  indent.toInt ≤ x.indent.toInt ∧ x.opcode ∈ opcodes

theorem fits_assignment (a : Assignment) (indent : Number) : Fits indent (a.command indent) := by
  refine ⟨Int.le_of_eq (congrArg Int32.toInt (indent_assignment a indent).symm), ?_⟩
  rw [opcode_assignment]
  cases a <;> simp [opcodes]

theorem fits_condition (c : Condition) (indent : Number) : Fits indent (c.command indent) := by
  refine ⟨Int.le_of_eq (congrArg Int32.toInt (indent_condition c indent).symm), ?_⟩
  rw [opcode_condition]
  simp [opcodes]

theorem fits_mark {code : Number} (hop : Opcode.ofCode code ∈ opcodes) (indent : Number) :
    Fits indent { code, indent } :=
  ⟨Int.le_refl _, hop⟩

theorem Fits.of_deeper {deeper : Number} {x : Command} (h : Fits deeper x)
    (hdeeper : Checked.add indent 1 = .ok deeper) : Fits indent x := by
  have := toInt_of_add_one hdeeper
  exact ⟨by have := h.1; omega, h.2⟩

/-- Every command of a layout stands at its indent or deeper, and is one of a few operations. -/
theorem fits_of_mem_layout {p : Program} (h : p.layout indent = .ok block) :
    ∀ x ∈ block, Fits indent x := by
  induction p generalizing indent block with
  | done =>
    cases h
    exact nofun
  | assign a rest ih =>
    obtain ⟨after, hafter, rfl⟩ := layout_assign h
    exact List.forall_mem_cons.2 ⟨fits_assignment a indent, ih hafter⟩
  | branch c body rest ihbody ihrest =>
    obtain ⟨deeper, inner, after, hdeeper, hinner, hafter, rfl⟩ := layout_branch h
    rw [List.forall_mem_append, List.forall_mem_cons, List.forall_mem_cons]
    exact ⟨⟨fits_condition c indent, fun x hx => (ihbody hinner x hx).of_deeper hdeeper⟩,
      fits_mark (by decide) indent, ihrest hafter⟩
  | choose c body other rest ihbody ihother ihrest =>
    obtain ⟨deeper, inner, outer, after, hdeeper, hinner, houter, hafter, rfl⟩ := layout_choose h
    rw [List.forall_mem_append, List.forall_mem_append, List.forall_mem_cons, List.forall_mem_cons,
      List.forall_mem_cons]
    exact ⟨⟨⟨fits_condition c indent, fun x hx => (ihbody hinner x hx).of_deeper hdeeper⟩,
      fits_mark (by decide) indent, fun x hx => (ihother houter x hx).of_deeper hdeeper⟩,
      fits_mark (by decide) indent, ihrest hafter⟩
  | loop body rest ihbody ihrest =>
    obtain ⟨deeper, inner, after, hdeeper, hinner, hafter, rfl⟩ := layout_loop h
    rw [List.forall_mem_append, List.forall_mem_cons, List.forall_mem_cons]
    exact ⟨⟨fits_mark (by decide) indent, fun x hx => (ihbody hinner x hx).of_deeper hdeeper⟩,
      fits_mark (by decide) indent, ihrest hafter⟩
  | stop rest ih =>
    obtain ⟨after, hafter, rfl⟩ := layout_stop h
    exact List.forall_mem_cons.2 ⟨fits_mark (by decide) indent, ih hafter⟩

end Program

end EventScript
