import EventScript.Proofs.Execution

/-!
# Switches and variables as total maps

Every id reads as something, and what a command on switches or variables leaves at an id depends on
what stood there and on its operand alone, which is read before anything is written.

* `Memory` is what is read at all ids, and `Memory.after` what a command makes of it. Its arithmetic
  has no bounds of its own; results are brought between the limits of the database.
* `Commands.perform_writes`: a command does this to the switches and variables of a game, and
  nothing overflows.
* `Commands.performAll_writes`: so does a row of commands. `Memory.Spares` tells which ids none of
  them writes.
* `Commands.memory_is_total` puts this together, id by id, with what is read at the start.
-/

namespace EventScript

/-- What is read of switches and variables. -/
structure Memory where
  on : Number → Bool
  value : Number → Number

def Game.memory (g : Game) : Memory := ⟨g.switches.get, g.vars.get⟩

/-! ## What commands write -/

namespace Command

/-- A command on switches that names its ids. -/
structure WritesSwitches (c : Command) : Prop where
  opcode : c.opcode = .shared .controlSwitches
  target : 0 ≤ c.mode 0 ∧ c.mode 0 ≤ 2

/-- A command on variables that names its ids, one of six operations, and a number or a variable. -/
structure WritesVariables (c : Command) : Prop where
  opcode : c.opcode = .shared .controlVariables
  target : 0 ≤ c.mode 0 ∧ c.mode 0 ≤ 2
  operation : 0 ≤ c.mode 3 ∧ c.mode 3 ≤ 5
  operand : 0 ≤ c.mode 4 ∧ c.mode 4 ≤ 2

end Command

namespace Memory

/-- Every switch is off and every variable zero. -/
def blank : Memory := ⟨fun _ => false, fun _ => 0⟩

/-- The first and the last id that a command names: one id, a range, or the id that a variable
holds. -/
def target (m : Memory) (c : Command) : Number × Number :=
  match c.mode 0 with
  | 0 => (c.param 1, c.param 1)
  | 1 => (c.param 1, c.param 2)
  | _ => (m.value (c.param 1), m.value (c.param 1))

/-- A command writes the ids it names, as far as they are positive. -/
def Writes (m : Memory) (c : Command) (id : Number) : Prop :=
  ((m.target c).1 ≤ id ∧ id ≤ (m.target c).2) ∧ 1 ≤ id

instance (m : Memory) (c : Command) (id : Number) : Decidable (m.Writes c id) :=
  inferInstanceAs (Decidable (_ ∧ _))

/-- The number that a command works with: it is given, or held by a variable, or by the variable
whose id a variable holds. -/
def operand (m : Memory) (c : Command) : Number :=
  match c.mode 4 with
  | 0 => c.param 5
  | 1 => m.value (c.param 5)
  | _ => m.value (m.value (c.param 5))

/-- The result of an operation in integers without bounds; there is none of a division by zero. -/
def result? (operation old operand : Int) : Option Int :=
  match operation with
  | 0 => some operand
  | 1 => some (old + operand)
  | 2 => some (old - operand)
  | 3 => some (old * operand)
  | 4 => if operand = 0 then none else some (old.tdiv operand)
  | 5 => if operand = 0 then none else some (old.tmod operand)
  | _ => none

/-- What an operation leaves of a variable: its result between two bounds, or what it held. -/
def combined (low high operation old operand : Int) : Int :=
  match result? operation old operand with
  | some z => min (max z low) high
  | none => old

/-- What an operation leaves of a switch. -/
def turned (operation : Int) (old : Bool) : Bool :=
  match operation with
  | 0 => true
  | 1 => false
  | _ => !old

/-- The memory after a command on variables. -/
def combine (low high : Number) (m : Memory) (c : Command) : Memory :=
  { m with value := fun id =>
    if m.Writes c id then
      Int32.ofInt <|
        combined low.toInt high.toInt (c.mode 3) (m.value id).toInt (m.operand c).toInt
    else m.value id }

/-- The memory after a command on switches. -/
def turn (m : Memory) (c : Command) : Memory :=
  { m with on := fun id => if m.Writes c id then turned (c.mode 3) (m.on id) else m.on id }

/-- The memory after a command that writes it. -/
def after (low high : Number) (m : Memory) (c : Command) : Memory :=
  if c.opcode = .shared .controlVariables then m.combine low high c else m.turn c

variable {low high : Number} {m : Memory} {c : Command} {id : Number}

theorem after_of_variables (h : c.WritesVariables) : m.after low high c = m.combine low high c :=
  if_pos h.opcode

theorem after_of_switches (h : c.WritesSwitches) : m.after low high c = m.turn c := by
  refine if_neg ?_
  rw [h.opcode]
  decide

/-- A result between the limits is a number. -/
theorem ofInt_combined (low high old : Number) (operation operand : Int) :
    Int32.ofInt (combined low.toInt high.toInt operation old.toInt operand) =
      match result? operation old.toInt operand with
      | some z => Number.clampInt low high z
      | none => old := by
  unfold combined
  split
  · rfl
  · exact Int32.ofInt_toInt old

theorem toInt_combined (low high old : Number) (operation operand : Int) :
    (Int32.ofInt (combined low.toInt high.toInt operation old.toInt operand)).toInt =
      combined low.toInt high.toInt operation old.toInt operand := by
  rw [ofInt_combined]
  unfold combined
  split
  · exact Number.toInt_clampInt low high _
  · rfl

/-- A variable keeps its value where no command on variables writes it. -/
theorem value_after (h : c.opcode = .shared .controlVariables → ¬ m.Writes c id) :
    (m.after low high c).value id = m.value id := by
  unfold after
  split
  · next hop =>
    unfold combine
    exact if_neg (h hop)
  · rfl

/-- A switch stands as it is where no other command writes it. -/
theorem on_after (h : c.opcode ≠ .shared .controlVariables → ¬ m.Writes c id) :
    (m.after low high c).on id = m.on id := by
  unfold after
  split
  · rfl
  · next hop =>
    unfold turn
    exact if_neg (h hop)

/-- What a row of commands makes of the memory. -/
def afterAll (low high : Number) (m : Memory) (cs : List Command) : Memory :=
  cs.foldl (after low high) m

/-- None of the commands of one kind in a row writes an id. -/
def Spares (low high : Number) (m : Memory) (op : SharedOp) (cs : List Command) (id : Number) :
    Prop :=
  ∀ before c rest, cs = before ++ c :: rest → c.opcode = .shared op →
    ¬ (m.afterAll low high before).Writes c id

variable {op : SharedOp} {cs : List Command}

theorem spares_nil : m.Spares low high op [] id := by
  intro before c rest h
  cases before <;> cases h

/-- The first command spares an id, and the others spare it in the memory that it leaves. -/
theorem spares_cons : m.Spares low high op (c :: cs) id ↔
    (c.opcode = .shared op → ¬ m.Writes c id) ∧ (m.after low high c).Spares low high op cs id := by
  constructor
  · intro h
    refine ⟨h [] c cs rfl, ?_⟩
    rintro before d rest rfl hop
    exact h (c :: before) d rest rfl hop
  · rintro ⟨hc, hcs⟩ before d rest hsplit hop
    cases before with
    | nil =>
      cases hsplit
      exact hc hop
    | cons b before =>
      cases hsplit
      exact hcs before d rest rfl hop

/-- A variable that a row of commands spares keeps its value. -/
theorem value_afterAll (h : m.Spares low high .controlVariables cs id) :
    (m.afterAll low high cs).value id = m.value id := by
  induction cs generalizing m with
  | nil => rfl
  | cons c cs ih =>
    obtain ⟨hc, hcs⟩ := spares_cons.1 h
    exact (ih hcs).trans (value_after hc)

/-- A switch that a row of commands spares stands as it is. -/
theorem on_afterAll (hcs : ∀ c ∈ cs, c.WritesSwitches ∨ c.WritesVariables)
    (h : m.Spares low high .controlSwitches cs id) :
    (m.afterAll low high cs).on id = m.on id := by
  induction cs generalizing m with
  | nil => rfl
  | cons c cs ih =>
    obtain ⟨hc, hcs⟩ := List.forall_mem_cons.1 hcs
    obtain ⟨hspared, hrest⟩ := spares_cons.1 h
    refine (ih hcs hrest).trans (on_after fun hop => hspared ?_)
    exact (hc.resolve_right fun hvariables => hop hvariables.opcode).opcode

end Memory

/-! ## The operations -/

namespace VariableOp

/-- The operations are those of the memory, by their numbers. -/
theorem result?_of_ofNumber? {n : Number} {op : VariableOp} (h : ofNumber? n = some op)
    (old operand : Int) : op.result? old operand = Memory.result? n.toInt old operand := by
  unfold ofNumber? at h
  split at h
  case h_7 => cases h
  all_goals
    rename_i hn
    cases h
    rw [hn]
    rfl

theorem exists_ofNumber? {n : Number} (h : 0 ≤ n.toInt ∧ n.toInt ≤ 5) :
    ∃ op, ofNumber? n = some op := by
  have hn : n.toInt = 0 ∨ n.toInt = 1 ∨ n.toInt = 2 ∨ n.toInt = 3 ∨ n.toInt = 4 ∨ n.toInt = 5 := by
    omega
  unfold ofNumber?
  rcases hn with hn | hn | hn | hn | hn | hn
  all_goals
    rw [hn]
    exact ⟨_, rfl⟩

end VariableOp

/-! ## What is read after a write -/

namespace Game

variable {g : Game} {c : Command}

theorem writes_iff {id : Number} : g.memory.Writes c id ↔
    ((g.memory.target c).1 ≤ id ∧ id ≤ (g.memory.target c).2) ∧ 0 < id.toInt := by
  rw [Memory.Writes, Int32.le_iff_toInt_le (x := 1), Int32.toInt_one]
  exact Iff.rfl

theorem get_combinedBetween {op : VariableOp} (hop : VariableOp.ofNumber? (c.param 3) = some op) :
    (g.vars.combinedBetween (g.memory.target c).1 (g.memory.target c).2 op
      (g.memory.operand c)).get = (g.memory.combine g.vars.low g.vars.high c).value := by
  funext id
  rw [Variables.get_combinedBetween, Variables.outcome, VariableOp.result?_of_ofNumber? hop,
    Memory.combine]
  simp only [writes_iff]
  split
  · exact (Memory.ofInt_combined _ _ (g.vars.get id) _ _).symm
  · rfl

theorem get_setBetween (value : Bool) (hvalue : ∀ old, Memory.turned (c.mode 3) old = value) :
    (g.switches.setBetween (g.memory.target c).1 (g.memory.target c).2 value).get =
      (g.memory.turn c).on := by
  funext id
  simp only [Switches.get_setBetween, Memory.turn, writes_iff, hvalue]
  rfl

theorem get_toggleBetween (hflips : ∀ old, Memory.turned (c.mode 3) old = !old) :
    (g.switches.toggleBetween (g.memory.target c).1 (g.memory.target c).2).get =
      (g.memory.turn c).on := by
  funext id
  simp only [Switches.get_toggleBetween, Memory.turn, writes_iff, hflips]
  rfl

end Game

/-! ## Commands -/

namespace Commands

open Act

/-- Commands carried out one after the other, each by a frame of its own. -/
def performAll (env : Env) (cs : List (Frame × Command)) : Act Unit :=
  cs.forM fun p => do let _ ← perform env p.1 p.2

variable {c : Command} {w : World}

theorem gives_target (h : 0 ≤ c.mode 0 ∧ c.mode 0 ≤ 2) (w : World) :
    (writtenIds c).Gives w (some (w.game.memory.target c)) w.game := by
  refine ⟨w.warnings, ?_⟩
  have hmode : c.mode 0 = 0 ∨ c.mode 0 = 1 ∨ c.mode 0 = 2 := by omega
  unfold writtenIds Memory.target
  rcases hmode with hmode | hmode | hmode
  all_goals
    rw [hmode]
    rfl

theorem gives_operand (h : 0 ≤ c.mode 4 ∧ c.mode 4 ≤ 2) (env : Env) (f : Frame) (w : World) :
    (variableOperand env f (c.param 4) (c.param 5) (c.param 6)).Gives w
      (some (w.game.memory.operand c)) w.game := by
  refine ⟨w.warnings, ?_⟩
  have hmode : (c.param 4).toInt = 0 ∨ (c.param 4).toInt = 1 ∨ (c.param 4).toInt = 2 := by
    unfold Command.mode at h
    omega
  rw [variableOperand, getGame_bind]
  unfold Memory.operand Command.mode
  rcases hmode with hmode | hmode | hmode
  all_goals
    rw [hmode]
    rfl

/-- A command on switches writes them and goes on. -/
theorem gives_switches (env : Env) (f : Frame) (h : c.WritesSwitches) (w : World) :
    ∃ s : Switches, (perform env f c).Gives w (.next f.pc)
      ({ w.game with switches := s }.asking true) ∧ s.get = (w.game.memory.turn c).on := by
  rw [perform_shared env f h.opcode]
  show ∃ s : Switches, (controlSwitches f c).Gives _ _ _ ∧ _
  by_cases hon : c.mode 3 = 0
  · refine ⟨_, (gives_target h.target w).bind fun warnings => ?_,
      Game.get_setBetween true fun _ => by rw [hon]; rfl⟩
    simp only [hon]
    exact (gives_setSwitches _ _ true _).bind fun warnings => ⟨warnings, rfl⟩
  by_cases hoff : c.mode 3 = 1
  · refine ⟨_, (gives_target h.target w).bind fun warnings => ?_,
      Game.get_setBetween false fun _ => by rw [hoff]; rfl⟩
    simp only [hoff]
    exact (gives_setSwitches _ _ false _).bind fun warnings => ⟨warnings, rfl⟩
  have hflips (old : Bool) : Memory.turned (c.mode 3) old = !old := by
    unfold Memory.turned
    split
    · exact absurd ‹_› hon
    · exact absurd ‹_› hoff
    · rfl
  refine ⟨_, (gives_target h.target w).bind fun warnings => ?_, Game.get_toggleBetween hflips⟩
  dsimp only
  split
  · exact absurd ‹_› hon
  · exact absurd ‹_› hoff
  · exact (gives_toggleSwitches _ _ _).bind fun warnings => ⟨warnings, rfl⟩

/-- A command on variables reads its operand, writes them and goes on. -/
theorem gives_variables (env : Env) (f : Frame) (h : c.WritesVariables) (w : World) :
    ∃ v : Variables, (perform env f c).Gives w (.next f.pc)
      ({ w.game with vars := v }.asking true) ∧
      v.get = (w.game.memory.combine w.game.vars.low w.game.vars.high c).value ∧
      v.low = w.game.vars.low ∧ v.high = w.game.vars.high := by
  obtain ⟨op, hop⟩ := VariableOp.exists_ofNumber? h.operation
  have hdrawn : c.mode 4 ≠ 3 := by
    have := h.operand
    omega
  rw [perform_shared env f h.opcode]
  show ∃ v : Variables, (controlVariables env f c).Gives _ _ _ ∧ _
  refine ⟨_, (gives_target h.target w).bind fun warnings => ?_,
    Game.get_combinedBetween hop, Variables.sameBounds_combinedBetween _ _ _ _ _⟩
  simp only [hop, if_neg hdrawn]
  refine (gives_operand h.operand env f _).bind fun warnings => ?_
  exact (gives_combineVariables _ _ op _ _).bind fun warnings => ⟨warnings, rfl⟩

/-- A command that writes the memory goes on with what it makes of it. -/
theorem perform_writes (env : Env) (f : Frame) (h : c.WritesSwitches ∨ c.WritesVariables)
    (w : World) : ∃ w', perform env f c w = .ok (.next f.pc, w') ∧
      (w'.game.vars.low = w.game.vars.low ∧ w'.game.vars.high = w.game.vars.high) ∧
      w'.game.memory = w.game.memory.after w.game.vars.low w.game.vars.high c := by
  rcases h with h | h
  · obtain ⟨s, ⟨warnings, hgives⟩, hget⟩ := gives_switches env f h w
    refine ⟨_, hgives, ⟨rfl, rfl⟩, ?_⟩
    rw [Memory.after_of_switches h]
    exact congrArg (Memory.mk · w.game.vars.get) hget
  · obtain ⟨v, ⟨warnings, hgives⟩, hget, hlow, hhigh⟩ := gives_variables env f h w
    refine ⟨_, hgives, ⟨hlow, hhigh⟩, ?_⟩
    rw [Memory.after_of_variables h]
    exact congrArg (Memory.mk w.game.switches.get) hget

/-- A row of commands that write the memory is carried out. -/
theorem performAll_writes (env : Env) {cs : List (Frame × Command)}
    (h : ∀ p ∈ cs, p.2.WritesSwitches ∨ p.2.WritesVariables) (w : World) :
    ∃ w', performAll env cs w = .ok ((), w') ∧ w'.game.memory =
      w.game.memory.afterAll w.game.vars.low w.game.vars.high (cs.map (·.2)) := by
  induction cs generalizing w with
  | nil => exact ⟨w, rfl, rfl⟩
  | cons p cs ih =>
    obtain ⟨hp, hcs⟩ := List.forall_mem_cons.1 h
    obtain ⟨u, hperform, ⟨hlow, hhigh⟩, hmemory⟩ := perform_writes env p.1 hp w
    obtain ⟨w', hrest, hall⟩ := ih hcs u
    refine ⟨w', (bind_of_ok (bind_of_ok hperform)).trans hrest, ?_⟩
    rw [hall, hmemory, hlow, hhigh]
    rfl

end Commands

/-- At the start nothing is written yet. -/
theorem Game.memory_begin (data : Database) (random : Random) :
    (Game.begin data random).memory = .blank := by
  have hswitches (id : Number) : (Game.begin data random).switches.get id = false :=
    Cells.get_empty id
  have hvars (id : Number) : (Game.begin data random).vars.get id = 0 := Cells.get_empty id
  exact congrArg₂ Memory.mk (funext hswitches) (funext hvars)

/-! ## The result -/

namespace Commands

/-- Switches and variables are total memories. A command on variables takes its operand from the
memory as it was, leaves at every id it writes the exact result between the limits, and every other
id as it was; a command on switches turns the switches it writes and no other. Neither fails, alone
or in a row, and an id that was never written reads as at the start, where everything is zero and
off. -/
theorem memory_is_total (env : Env) :
    (∀ (f : Frame) (c : Command) (w : World), c.WritesVariables →
      ∃ v : Variables, (perform env f c).Gives w (.next f.pc)
          ({ w.game with vars := v }.asking true) ∧
        v.low = w.game.vars.low ∧ v.high = w.game.vars.high ∧
        ∀ id, (v.get id).toInt =
          if w.game.memory.Writes c id then
            Memory.combined w.game.vars.low.toInt w.game.vars.high.toInt (c.mode 3)
              (w.game.vars.get id).toInt (w.game.memory.operand c).toInt
          else (w.game.vars.get id).toInt) ∧
    (∀ (f : Frame) (c : Command) (w : World), c.WritesSwitches →
      ∃ s : Switches, (perform env f c).Gives w (.next f.pc)
          ({ w.game with switches := s }.asking true) ∧
        ∀ id, s.get id =
          if w.game.memory.Writes c id then Memory.turned (c.mode 3) (w.game.switches.get id)
          else w.game.switches.get id) ∧
    (∀ (cs : List (Frame × Command)) (w : World),
      (∀ p ∈ cs, p.2.WritesSwitches ∨ p.2.WritesVariables) →
      ∃ w', performAll env cs w = .ok ((), w') ∧
        (∀ id, w.game.memory.Spares w.game.vars.low w.game.vars.high .controlVariables
          (cs.map (·.2)) id → w'.game.vars.get id = w.game.vars.get id) ∧
        ∀ id, w.game.memory.Spares w.game.vars.low w.game.vars.high .controlSwitches
          (cs.map (·.2)) id → w'.game.switches.get id = w.game.switches.get id) ∧
    ∀ (data : Database) (random : Random) (id : Number),
      (Game.begin data random).vars.get id = 0 ∧
        (Game.begin data random).switches.get id = false := by
  refine ⟨?_, ?_, ?_, ?_⟩
  · intro f c w h
    obtain ⟨v, hgives, hget, hlow, hhigh⟩ := gives_variables env f h w
    refine ⟨v, hgives, hlow, hhigh, ?_⟩
    intro id
    rw [hget, Memory.combine]
    dsimp only
    split
    · exact Memory.toInt_combined _ _ _ _ _
    · rfl
  · intro f c w h
    obtain ⟨s, hgives, hget⟩ := gives_switches env f h w
    exact ⟨s, hgives, fun id => congrFun hget id⟩
  · intro cs w h
    obtain ⟨w', hall, hmemory⟩ := performAll_writes env h w
    refine ⟨w', hall, ?_, ?_⟩
    · intro id hid
      exact (congrArg (Memory.value · id) hmemory).trans (Memory.value_afterAll hid)
    · intro id hid
      refine (congrArg (Memory.on · id) hmemory).trans (Memory.on_afterAll ?_ hid)
      exact List.forall_mem_map.2 h
  · intro data random id
    exact ⟨congrArg (Memory.value · id) (Game.memory_begin data random),
      congrArg (Memory.on · id) (Game.memory_begin data random)⟩

/-- Three variables as large as they can be, and a game with no narrower limits. -/
def extremes : World where
  game :=
    let vars : Variables := { low := -2147483648, high := 2147483647 }
    { Game.begin {} default with
      vars := ((vars.set 1 2).set 2 (-2147483648)).set 3 2147483647 }

/-- The ids from minus five to six are multiplied by what the third of them holds. -/
def squaring : Command :=
  { code := SharedOp.controlVariables.code, params := [1, -5, 6, 3, 1, 3] }

/-- The switch under the id that the first variable holds is turned over. -/
def turning : Command :=
  { code := SharedOp.controlSwitches.code, params := [2, 1, 0, 2] }

/-- A frame in which a command stands alone. -/
def lone : Frame := { context := .field, depth := 0, isRoot := false }

/-- The operand is what the third variable held, also for those that come after it; results beyond
the limits stop there, and what has no variable stays zero. -/
theorem memory_is_total_extremes :
    squaring.WritesVariables ∧ turning.WritesSwitches ∧
      (∃ v : Variables, v.get 1 = 2147483647 ∧ v.get 2 = -2147483648 ∧ v.get 3 = 2147483647 ∧
        v.get 4 = 0 ∧ v.get (-5) = 0 ∧ v.get 7 = 0 ∧
        ∃ w', perform { data := {}, host := {} } lone squaring extremes = .ok (.next 0, w') ∧
          w'.game.vars = v) ∧
      (∃ s : Switches, s.get 1 = false ∧ s.get 2 = true ∧
        ∃ w', perform { data := {}, host := {} } lone turning extremes = .ok (.next 0, w') ∧
          w'.game.switches = s) ∧
      ∃ w', performAll { data := {}, host := {} } [(lone, turning), (lone, squaring)] extremes =
          .ok ((), w') ∧ w'.game.vars.get 7 = 0 ∧ w'.game.switches.get 1 = false := by
  have hvariables : squaring.WritesVariables := ⟨by rfl, by decide, by decide, by decide⟩
  have hswitches : turning.WritesSwitches := ⟨by rfl, by decide⟩
  obtain ⟨hvars, hturns, hrows, -⟩ := memory_is_total { data := {}, host := {} }
  obtain ⟨v, ⟨_, hgives⟩, -, -, hv⟩ := hvars lone squaring extremes hvariables
  obtain ⟨s, ⟨_, hgives'⟩, hs⟩ := hturns lone turning extremes hswitches
  obtain ⟨w', hall, hvars', hswitches'⟩ := hrows [(lone, turning), (lone, squaring)] extremes
    (by simp [hvariables, hswitches])
  refine ⟨hvariables, hswitches, ⟨v, ?_, ?_, ?_, ?_, ?_, ?_, _, hgives, rfl⟩,
    ⟨s, ?_, ?_, _, hgives', rfl⟩, w', hall, ?_, ?_⟩
  iterate 6
    · exact Int32.toInt_inj.1 ((hv _).trans (by decide))
  · exact (hs 1).trans (by decide)
  · exact (hs 2).trans (by decide)
  · refine (hvars' 7 ?_).trans (by decide)
    exact Memory.spares_cons.2 ⟨by decide, Memory.spares_cons.2 ⟨by decide, Memory.spares_nil⟩⟩
  · refine (hswitches' 1 ?_).trans (by decide)
    exact Memory.spares_cons.2 ⟨by decide, Memory.spares_cons.2 ⟨by decide, Memory.spares_nil⟩⟩

end Commands

end EventScript
