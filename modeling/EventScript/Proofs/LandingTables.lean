import EventScript.Proofs.Suspension

/-!
# The table belongs to the list

A frame carries a table of the landings of its list, and a place in the list. Jumps, resumed
commands and calls move the place, and lists are started and left.

* `Landings.landing_eq_of_ofCommands` and `Landings.label?_eq_of_ofCommands`: the table of a list
  holds the landing of every command, and of every label the first place.
* `Landings.exists_ofCommands_iff` and `Frame.exists_start_iff`: a list has a table, and can be
  started, unless it breaks out of a loop at the lowest indent of all.
* `Frame.InStep` says that the table of a frame is that of its list and that its place is no
  further than the end, and `inStep_of_turn` that every turn keeps it so.
* `Interpreter.inStep_along`: so it is at every level of an interpreter that comes about, where each
  frame stands one call deeper than the one before.
-/

namespace EventScript

open Act

theorem Checked.exists_sub_one_iff {a : Number} :
    (∃ b, sub a 1 = .ok b) ↔ a ≠ Int32.minValue := by
  have hlow := a.le_toInt
  have hhigh := a.toInt_lt
  have hmin : a = Int32.minValue ↔ a.toInt = -2147483648 := Int32.toInt_inj.symm
  rw [Ne, hmin]
  refine exists_fit_iff.trans ?_
  show (-2147483648 : Int) ≤ a.toInt - 1 ∧ a.toInt - 1 ≤ 2147483647 ↔ ¬ a.toInt = -2147483648
  omega

/-- A command that leaves a loop at the lowest indent, outside of which there is none. -/
def Command.breaksLowest (c : Command) : Prop :=
  c.opcode = .shared .breakLoop ∧ c.indent = Int32.minValue

namespace Landings

section

variable {ε α β : Type} {f : α → Except ε β}

/-- Where a list is gone through without an error, every item has its result at its place. -/
theorem getElem?_of_mapM {l : List α} {r : List β} (h : l.mapM f = .ok r) :
    r.length = l.length ∧
      ∀ (i : Nat) (x : α), l[i]? = some x → ∃ y, r[i]? = some y ∧ f x = .ok y := by
  induction l generalizing r with
  | nil =>
    cases h
    exact ⟨rfl, nofun⟩
  | cons a l ih =>
    rw [List.mapM_cons] at h
    cases hb : f a with
    | error e => rw [hb] at h; cases h
    | ok b =>
      cases hs : l.mapM f with
      | error e => rw [hb, hs] at h; cases h
      | ok s =>
        rw [hb, hs] at h
        cases h
        obtain ⟨hlength, hget⟩ := ih hs
        refine ⟨congrArg (· + 1) hlength, fun i x hx => ?_⟩
        cases i with
        | zero =>
          cases hx
          exact ⟨b, rfl, hb⟩
        | succ i => exact hget i x hx

/-- A list is gone through without an error if no item of it gives one. -/
theorem exists_mapM {l : List α} (h : ∀ x ∈ l, ∃ y, f x = .ok y) : ∃ r, l.mapM f = .ok r := by
  induction l with
  | nil => exact ⟨[], rfl⟩
  | cons a l ih =>
    obtain ⟨hx, hl⟩ := List.forall_mem_cons.1 h
    obtain ⟨y, hy⟩ := hx
    obtain ⟨r, hr⟩ := ih hl
    refine ⟨y :: r, ?_⟩
    rw [List.mapM_cons, hy, hr]
    rfl

end

variable {cs : List Command} {t : Landings}

theorem eq_of_ofCommands (h : ofCommands cs = .ok t) :
    (List.range cs.length).mapM (Blocks.landing cs) = .ok t.places ∧
      t.labels = labelsFrom 0 [] cs := by
  unfold ofCommands at h
  cases hplaces : (List.range cs.length).mapM (Blocks.landing cs) with
  | error o => rw [hplaces] at h; cases h
  | ok places =>
    rw [hplaces] at h
    cases h
    exact ⟨rfl, rfl⟩

/-- The table of a list holds the landing of every command. -/
theorem landing_eq_of_ofCommands (h : ofCommands cs = .ok t) (i : Nat) :
    Blocks.landing cs i = .ok (t.landing? i) := by
  obtain ⟨hplaces, -⟩ := eq_of_ofCommands h
  obtain ⟨hlength, hget⟩ := getElem?_of_mapM hplaces
  rw [List.length_range] at hlength
  by_cases hi : i < cs.length
  · obtain ⟨p, hp, hlanding⟩ := hget i i (List.getElem?_range hi)
    rw [hlanding, landing?, List.getD_eq_getElem?_getD, hp]
    rfl
  · have hnone : cs[i]? = none := List.getElem?_eq_none (Nat.le_of_not_lt hi)
    have hp : t.places[i]? = none := List.getElem?_eq_none (by omega)
    rw [landing?, List.getD_eq_getElem?_getD, hp, Blocks.landing, hnone]
    rfl

/-- What is known of a label stays, and else its first place among the commands left is found. -/
theorem lookup_labelsFrom (id : Number) (i : Nat) (known : List (Number × Nat))
    (cs : List Command) : (labelsFrom i known cs).lookup id =
      (known.lookup id).or ((cs.findIdx? (Blocks.isLabel id)).map (· + i)) := by
  induction cs generalizing i known with
  | nil => simp [labelsFrom]
  | cons c cs ih =>
    have hshift (n : Nat) : n + (i + 1) = n + 1 + i := by omega
    rw [labelsFrom, List.findIdx?_cons]
    split
    · next hnew =>
      obtain ⟨hcode, hunknown⟩ := hnew
      rw [ih, List.lookup_append]
      by_cases hid : c.param 0 = id
      · -- the command is the first label with the id
        have hnone : known.lookup id = none := by simpa [hid] using hunknown
        simp [Blocks.isLabel, hcode, hid, hnone]
      · have hne : (id == c.param 0) = false := beq_false_of_ne fun h => hid h.symm
        simp [Blocks.isLabel, hid, hne, List.lookup_cons, Function.comp_def, hshift]
    · next hold =>
      rw [ih]
      by_cases hlabel : Blocks.isLabel id c = true
      · -- a label with the id is known already
        have hcode : c.code = SharedOp.label.code ∧ c.param 0 = id := by
          simpa [Blocks.isLabel] using hlabel
        obtain ⟨place, hplace⟩ : ∃ place, known.lookup id = some place := by
          rw [← Option.isSome_iff_exists]
          simpa [hcode] using hold
        simp [hplace]
      · simp [hlabel, Function.comp_def, hshift]

/-- The table of a list holds the first place of every label. -/
theorem label?_eq_of_ofCommands (h : ofCommands cs = .ok t) (id : Number) :
    t.label? id = Blocks.labelPlace cs id := by
  rw [label?, (eq_of_ofCommands h).2, lookup_labelsFrom, Blocks.labelPlace]
  simp

/-- Only a break looks for a lower indent. -/
theorem landing_isOk_iff {cs : List Command} {i : Nat} {c : Command} (hc : cs[i]? = some c) :
    (∃ p, Blocks.landing cs i = .ok p) ↔ ¬ c.breaksLowest := by
  unfold Blocks.landing
  rw [hc]
  dsimp only
  by_cases hbreak : c.opcode = .shared .breakLoop
  · have hlowest : c.breaksLowest ↔ c.indent = Int32.minValue := and_iff_right hbreak
    rw [hbreak, hlowest, ← Ne, ← Checked.exists_sub_one_iff]
    constructor
    · rintro ⟨p, hp⟩
      obtain ⟨outer, houter, -⟩ := except_bind_eq_ok_iff.1 hp
      exact ⟨outer, houter⟩
    · rintro ⟨outer, houter⟩
      exact ⟨_, except_bind_eq_ok_iff.2 ⟨outer, houter, rfl⟩⟩
  · refine ⟨fun _ h => hbreak h.1, fun _ => ?_⟩
    split
    case h_6 hop => exact absurd hop hbreak
    all_goals exact ⟨_, rfl⟩

/-- The landings of a list are known unless it breaks out of a loop at the lowest indent. -/
theorem exists_ofCommands_iff {cs : List Command} :
    (∃ t, ofCommands cs = .ok t) ↔ ∀ c ∈ cs, ¬ c.breaksLowest := by
  constructor
  · rintro ⟨t, ht⟩ c hc
    obtain ⟨i, hi⟩ := List.mem_iff_getElem?.1 hc
    exact (landing_isOk_iff hi).1 ⟨_, landing_eq_of_ofCommands ht i⟩
  · intro h
    have hplaces : ∃ places, (List.range cs.length).mapM (Blocks.landing cs) = .ok places := by
      refine exists_mapM fun i hi => ?_
      have hi : i < cs.length := List.mem_range.1 hi
      have hc : cs[i]? = some cs[i] := List.getElem?_eq_getElem hi
      exact (landing_isOk_iff hc).2 (h _ (List.getElem_mem hi))
    obtain ⟨places, hplaces⟩ := hplaces
    exact ⟨{ places, labels := labelsFrom 0 [] cs }, by rw [ofCommands, hplaces]; rfl⟩

end Landings

namespace Frame

/-- The table of a frame is that of its list, and its place is no further than the end. -/
structure InStep (f : Frame) : Prop where
  pc : f.pc ≤ f.commands.length
  landing : ∀ n, Blocks.landing f.commands n = .ok (f.jumps.landing? n)
  label : ∀ id, f.jumps.label? id = Blocks.labelPlace f.commands id

/-- A frame stands one call deeper than another, and never looks for events by itself. -/
structure Below (f c : Frame) : Prop where
  isRoot : c.isRoot = false
  context : c.context = f.context
  depth : c.depth.toNat = f.depth.toNat + 1

variable {env : Env} {f s : Frame}

theorem inStep_of_start {commands : List Command} {owner mapId : Number}
    (h : f.start commands owner mapId = .ok s) : s.InStep := by
  unfold start at h
  cases hjumps : Landings.ofCommands commands with
  | error o => rw [hjumps] at h; cases h
  | ok jumps =>
    rw [hjumps] at h
    cases h
    exact ⟨Nat.zero_le _, Landings.landing_eq_of_ofCommands hjumps,
      Landings.label?_eq_of_ofCommands hjumps⟩

theorem exists_start_iff {f : Frame} {commands : List Command} {owner mapId : Number} :
    (∃ s, f.start commands owner mapId = .ok s) ↔ ∀ c ∈ commands, ¬ c.breaksLowest := by
  rw [← Landings.exists_ofCommands_iff]
  unfold start
  constructor
  · rintro ⟨s, hs⟩
    obtain ⟨jumps, hjumps, -⟩ := except_bind_eq_ok_iff.1 hs
    exact ⟨jumps, hjumps⟩
  · rintro ⟨jumps, hjumps⟩
    exact ⟨_, except_bind_eq_ok_iff.2 ⟨jumps, hjumps, rfl⟩⟩

theorem InStep.of_same {f' : Frame} (h : f.InStep) (hc : f'.commands = f.commands)
    (hj : f'.jumps = f.jumps) (hpc : f'.pc ≤ f.commands.length) : f'.InStep where
  pc := hc ▸ hpc
  landing n := by rw [hc, hj, h.landing]
  label id := by rw [hc, hj, h.label]

theorem InStep.goto (h : f.InStep) (place : Nat) : (f.goto place).InStep :=
  h.of_same rfl rfl (Nat.min_le_right _ _)

theorem InStep.forgetOwner (h : f.InStep) (mapId : Number) : (f.forgetOwner mapId).InStep := by
  unfold Frame.forgetOwner
  split
  · exact h
  · exact h.of_same rfl rfl h.pc

/-- A list that is left takes its table along. -/
theorem inStep_leave (f : Frame) : f.leave.InStep := ⟨Nat.le_refl 0, fun _ => rfl, fun _ => rfl⟩

theorem ensures_callee_inStep (env : Env) (f : Frame) (commands : List Command) (owner : Number)
    (w : World) : Ensures (f.callee env commands owner) w fun c _ => c.InStep ∧ f.Below c := by
  have hstep : Ensures (f.callee env commands owner) w fun c _ => c.InStep := by
    simp only [callee, ensures_bind, ensures_check, ensures_ite, ensures_warn, ensures_getGame]
    intro depth _ reported _
    exact ⟨fun _ c hc => inStep_of_start hc, fun _ c hc => inStep_of_start hc⟩
  intro c w' h
  obtain ⟨-, hby⟩ := ensures_callee env f commands owner w c w' h
  exact ⟨hstep c w' h, hby.isRoot, hby.context, hby.depth⟩

theorem ensures_startFieldEvent_inStep (env : Env) (f : Frame) (w : World) :
    Ensures (f.startFieldEvent env) w fun s _ => ∀ s', s = some s' → s'.InStep := by
  refine (setsOff_of_startFieldEvent env f w).imp fun s w' h s' hs' => ?_
  cases h with
  | nothing | passes => cases hs'
  | starts _ _ _ _ hs =>
    cases hs'
    have hstep := inStep_of_start hs
    exact hstep.of_same rfl rfl hstep.pc

theorem ensures_startNext_inStep (env : Env) (f : Frame) (w : World) :
    Ensures (f.startNext env) w fun s _ => ∀ s', s = some s' → s'.InStep := by
  refine (seeks_of_startNext env f w).imp fun s w' h s' hs' => ?_
  cases h with
  | queued _ _ hs | automatic _ _ _ hs =>
    cases hs'
    exact inStep_of_start hs
  | due _ hs => exact ensures_startFieldEvent_inStep env f _ _ _ hs s' hs'
  | nothing => cases hs'

/-- What a turn leaves in step: the frame, and the event that it called, one call deeper. -/
def LeavesInStep (t : Turn) : Prop :=
  t.frame.InStep ∧ ∀ c, t.called = some c → c.InStep ∧ t.frame.Below c

theorem leavesInStep_alone {s : Signal} (h : f.InStep) :
    LeavesInStep { frame := f, signal := s } :=
  ⟨h, nofun⟩

theorem inStep_settle {o : Outcome} (hf : f.InStep) (ho : f.Warrants o) (w : World) :
    Ensures (f.settle env o) w fun t _ => LeavesInStep t := by
  have hgoto (p : Pause) : ({ f.goto f.pc with pause := p } : Frame).InStep :=
    (hf.goto f.pc).of_same rfl rfl (hf.goto f.pc).pc
  cases o with
  | next place | rest place => exact ensures_pure.2 (leavesInStep_alone (hf.goto place))
  | retry => exact ensures_pure.2 (leavesInStep_alone hf)
  | follow | capture | wait => exact ensures_pure.2 (leavesInStep_alone (hgoto _))
  | await place k =>
    have hplace : place ≤ f.commands.length := Nat.le_of_lt (HasAt.lt_length ho)
    exact ensures_pure.2 (leavesInStep_alone (hf.of_same rfl rfl hplace))
  | animate => exact ensures_pure.2 (leavesInStep_alone (hf.of_same rfl rfl hf.pc))
  | call commands owner =>
    refine Ensures.bind (ensures_callee_inStep env f commands owner w) fun c u hc => ?_
    refine ensures_pure.2 ⟨hf.goto f.pc, fun c' hc' => ?_⟩
    cases hc'
    exact ⟨hc.1, hc.2.isRoot, hc.2.context, hc.2.depth⟩

theorem inStep_of_proceeds {w w' : World} {t : Turn} (hg : f.Grounded) (hf : f.InStep)
    (h : f.Proceeds env w t w') : LeavesInStep t := by
  cases h with
  | held | ended | idles => exact leavesInStep_alone hf
  | @resumes k o u _ _ _ hk ho ht =>
    have hwarrants : f.ready.Warrants o :=
      Commands.warranted_goOn env (HasAt.of_commands (hg.goOn k hk) rfl) w o u ho
    have hready : f.ready.InStep := hf.of_same rfl rfl hf.pc
    exact inStep_settle hready hwarrants u t w' ht
  | @performs c o u _ _ _ hk hc ho ht =>
    exact inStep_settle hf (Commands.warranted_perform env hc w o u ho) u t w' ht
  | finishes hk hc hrun hfinish =>
    obtain ⟨-, rfl⟩ := ensures_finish f w _ _ hfinish
    exact leavesInStep_alone (inStep_leave f)
  | starts hrun hroot hs =>
    exact leavesInStep_alone (ensures_startNext_inStep env f w _ _ hs _ rfl)

/-- Every turn leaves its frames in step with their lists. -/
theorem inStep_of_turn (env : Env) (hg : f.Grounded) (hf : f.InStep) (w : World) :
    Ensures (f.turn env) w fun t _ => LeavesInStep t := by
  have hready : f.ready.InStep := hf.of_same rfl rfl hf.pc
  refine (turns_of_turn env f w).imp fun t w' h => ?_
  cases h with
  | reads | follows => exact leavesInStep_alone hf
  | counts | polls => exact leavesInStep_alone (hf.of_same rfl rfl hf.pc)
  | hits _ _ h | followed _ _ h => exact inStep_of_proceeds (grounded_of_ready rfl) hready h
  | goes _ hk h => exact inStep_of_proceeds hg hf h

theorem Below.forgetOwner {c : Frame} (h : f.Below c) (mapId : Number) :
    (f.forgetOwner mapId).Below c ∧ f.Below (c.forgetOwner mapId) := by
  constructor <;> unfold Frame.forgetOwner <;> split
  all_goals exact ⟨h.isRoot, h.context, h.depth⟩

end Frame

namespace Interpreter

theorem keptAlong_inStep (env : Env) :
    KeptAlong env (fun f => f.Grounded ∧ f.InStep) Frame.Below where
  forget f mapId h := ⟨h.1.forgetOwner mapId, h.2.forgetOwner mapId⟩
  forgetCaller f c mapId h := (h.forgetOwner mapId).1
  forgetCalled f c mapId h := (h.forgetOwner mapId).2
  turn f w h t w' ht := by
    obtain ⟨hgrounded, hgroundedCall⟩ := Frame.grounded_of_turn env h.1 w t w' ht
    obtain ⟨hstep, hstepCall⟩ := Frame.inStep_of_turn env h.1 h.2 w t w' ht
    obtain ⟨hturned, -⟩ := Frame.turned_of_turn env f w t w' ht
    refine ⟨⟨hgrounded, hstep⟩, fun c hc => ?_, fun g hg => ?_⟩
    · exact ⟨⟨(hgroundedCall c hc).1, (hstepCall c hc).1⟩, (hstepCall c hc).2⟩
    · exact ⟨hturned.isRoot.trans hg.isRoot, hturned.context.trans hg.context,
        by rw [hturned.depth, hg.depth]⟩

/-- At every level of an interpreter that comes about, the place is within the list, the table is
that of the list, and the event that was called stands one call deeper in the same context. -/
theorem inStep_along {i : Interpreter} (h : i.Reachable) {level : Nat} {f : Frame}
    (hf : i.frames[level]? = some f) :
    f.pc ≤ f.commands.length ∧
      (∀ n, Blocks.landing f.commands n = .ok (f.jumps.landing? n)) ∧
      (∀ id, f.jumps.label? id = Blocks.labelPlace f.commands id) ∧
      ∀ c, i.frames[level + 1]? = some c →
        c.isRoot = false ∧ c.context = f.context ∧ c.depth.toNat = f.depth.toNat + 1 := by
  obtain ⟨hall, hchain⟩ := h.along keptAlong_inStep
    (fun context depth isRoot => ⟨Frame.grounded_of_ready rfl,
      Frame.inStep_leave (Frame.idle context depth isRoot)⟩)
    fun _ _ _ _ _ hs => ⟨Frame.grounded_of_ready (Frame.startedAs_of_start hs).pause,
      Frame.inStep_of_start hs⟩
  have hstep : f.InStep := (hall f (List.mem_of_getElem? hf)).2
  refine ⟨hstep.pc, hstep.landing, hstep.label, fun c hc => ?_⟩
  obtain ⟨_, rfl⟩ := List.getElem?_eq_some_iff.1 hf
  obtain ⟨hlt, rfl⟩ := List.getElem?_eq_some_iff.1 hc
  have hbelow := List.isChain_iff_getElem.1 hchain level hlt
  exact ⟨hbelow.isRoot, hbelow.context, hbelow.depth⟩

/-- Calls the common event 1 round after round. -/
def rounds : List Command := [
  { code := SharedOp.loop.code },
  { code := FieldOp.callEvent.code, indent := 1, params := [0, 1] },
  { code := SharedOp.endLoop.code }]

/-- A database in which the common event 1 waits. -/
def waitingRoom : Database where
  commonEvents := [{ id := 1, commands := [{ code := SharedOp.wait.code, params := [5] }] }]

/-- While the called event waits one call deeper, its caller stands at the end of the loop and would
go back to the start. -/
theorem rounds_inStep : ∃ i : Interpreter, i.Reachable ∧ ∃ caller called,
    i.frames = [caller, called] ∧ caller.commands = rounds ∧ caller.pc = 2 ∧
      caller.jumps.landing? 2 = some 0 ∧ called.depth.toNat = caller.depth.toNat + 1 := by
  let i : Interpreter := { frame := { Frame.idle .field 0 true with
    commands := rounds, jumps := { places := [none, none, some 0] }, mapId := 1 } }
  have hstart : (idle .field 0 true).start rounds 0 1 = .ok i := rfl
  have hi : i.Reachable := .start (.idle .field 0 true) hstart
  obtain ⟨⟨⟨caller, calls⟩, w⟩, hrun, hcommands, hpc, hcalls⟩ :
      ∃ p, i.update ⟨waitingRoom, {}⟩ 3 { game := Game.begin waitingRoom default } = .ok p ∧
        p.1.frame.commands = rounds ∧ p.1.frame.pc = 2 ∧ p.1.calls.length = 1 := by
    decide +kernel
  obtain ⟨called, rfl⟩ := List.length_eq_one_iff.1 hcalls
  have hj : Reachable { frame := caller, calls := [called] } := .update hi hrun
  have hcaller : ({ frame := caller, calls := [called] } : Interpreter).frames[0]? =
      some caller := rfl
  obtain ⟨-, hlanding, -, hbelow⟩ := inStep_along hj hcaller
  obtain ⟨-, -, hdepth⟩ := hbelow called rfl
  have hback : Blocks.landing rounds 2 = .ok (some 0) := rfl
  rw [← hcommands, hlanding] at hback
  exact ⟨_, hj, caller, called, rfl, hcommands, hpc, Except.ok.inj hback, hdepth⟩

end Interpreter

end EventScript
