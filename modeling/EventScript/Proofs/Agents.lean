import EventScript.Proofs.Orders
import EventScript.Proofs.Turns

/-!
# What becomes of the interpreters

* `Director.Fate` lists what a part of a call can make of the interpreter of an agent: it stays, is
  updated, starts over with a list of the database, or is dropped for one that runs nothing.
* `fates_of_part`: there is nothing else, and the database never changes.
-/

namespace EventScript.Director

open Act

/-- What a part makes of the interpreter of an agent. -/
inductive Fate (p : Part) (a : Agent) (d d' : Director) : Prop
  | stays (h : d'.interpreter a = d.interpreter a)
  | updated (hp : p = .update a)
      (h : (d.interpreter a).update d.env levels d.world = .ok (d'.interpreter a, d'.world))
  | starts (f : Frame) (h : d'.interpreter a = { frame := f }) (hl : f.commands ∈ d.data.lists)
      (hp : f.pause = .ready)
  | dropped (context : Context) (isRoot : Bool)
      (h : d'.interpreter a = .idle context 0 isRoot)

/-- What a part makes of all interpreters. -/
structure Fates (p : Part) (d d' : Director) : Prop where
  data : d'.data = d.data
  fate : ∀ a, Fate p a d d'

variable {p : Part} {d d' : Director}

/-- A change that concerns no interpreter. -/
theorem fates_of_same (hdata : d'.data = d.data)
    (h : (d'.root, d'.common, d'.parallel, d'.battle) = (d.root, d.common, d.parallel, d.battle)) :
    Fates p d d' := by
  simp only [Prod.mk.injEq] at h
  obtain ⟨hroot, hcommon, hparallel, hbattle⟩ := h
  refine ⟨hdata, fun a => .stays ?_⟩
  cases a with
  | root => exact hroot
  | common id => simp only [interpreter, hcommon]
  | parallel id => simp only [interpreter, pageRun, hparallel]
  | battle => exact hbattle

/-- A change that concerns the interpreter of one agent. -/
theorem fates_of_one {a : Agent} (hdata : d'.data = d.data)
    (hothers : ∀ b, b ≠ a → d'.interpreter b = d.interpreter b) (ha : Fate p a d d') :
    Fates p d d' := by
  refine ⟨hdata, fun b => ?_⟩
  by_cases hb : b = a
  · rw [hb]
    exact ha
  · exact .stays (hothers b hb)

theorem fate_of_start {a : Agent} {i j : Interpreter} {commands : List Command}
    {owner mapId : Number} (hj : i.start commands owner mapId = .ok j)
    (hl : commands ∈ d.data.lists) (h : d'.interpreter a = j) : Fate p a d d' := by
  obtain ⟨f, rfl, hf⟩ := Interpreter.startedAs_of_start hj
  exact .starts f h (hf.commands ▸ hl) hf.pause

theorem data_withInterpreter (d : Director) (a : Agent) (i : Interpreter) :
    (d.withInterpreter a i).data = d.data := by
  cases a <;> rfl

theorem world_withInterpreter (d : Director) (a : Agent) (i : Interpreter) :
    (d.withInterpreter a i).world = d.world := by
  cases a <;> rfl

theorem interpreter_withWorld (d : Director) (w : World) (a : Agent) :
    Director.interpreter { d with world := w } a = d.interpreter a := by
  cases a <;> rfl

/-! ## One interpreter -/

theorem fates_updateAgent (a : Agent) (d : Director) :
    Ensures (updateAgent a) d fun _ d' => Fates (.update a) d d' := by
  simp only [updateAgent, ensures_bind, Directing.ensures_get, ensures_update,
    Directing.ensures_modify]
  refine ensures_run.imp fun j w hj => fates_of_one (a := a) ?_ (fun b hb => ?_) (.updated rfl ?_)
  · rw [data_withInterpreter]
  · rw [interpreter_withInterpreter, if_neg hb, interpreter_withWorld]
  · rw [interpreter_withInterpreter, if_pos rfl, world_withInterpreter, hj]

theorem fates_bindCommon (id : Number) (d : Director) :
    Ensures (bindCommon id) d fun _ d' => Fates (.bindCommon id) d d' := by
  simp only [bindCommon, ensures_bind, Directing.ensures_get]
  split
  · next e he =>
    simp only [ensures_bind, ensures_start, Directing.ensures_modify]
    refine fun j hj => fates_of_one (a := .common id) (data_withInterpreter _ _ _)
      (fun b hb => ?_) ?_
    · rw [interpreter_withInterpreter, if_neg hb]
    · refine fate_of_start hj (Database.commonEvent?_mem_lists he) ?_
      rw [interpreter_withInterpreter, if_pos rfl]
  · exact ensures_pure.2 (fates_of_same rfl rfl)

theorem interpreter_insertPage (d : Director) (id : Number) (r : PageRun) (a : Agent) :
    Director.interpreter { d with parallel := d.parallel.insert id r } a =
      if a = .parallel id then r.interpreter else d.interpreter a := by
  cases a with
  | parallel id' =>
    simp only [interpreter, pageRun, IdMap.get?_insert, Agent.parallel.injEq]
    split <;> rfl
  | root | common | battle => simp [interpreter]

theorem fates_bindPage (id : Number) (d : Director) :
    Ensures (bindPage id) d fun _ d' => Fates (.bindPage id) d d' := by
  simp only [bindPage, ensures_bind, Directing.ensures_get]
  split
  · next commands hcommands =>
    simp only [ensures_bind, ensures_start, Directing.ensures_modify]
    refine fun j hj => fates_of_one (a := .parallel id) rfl (fun b hb => ?_) ?_
    · rw [interpreter_insertPage, if_neg hb]
    · refine fate_of_start hj (Database.pageCommands?_mem_lists hcommands) ?_
      rw [interpreter_insertPage, if_pos rfl]
  · exact ensures_pure.2 (fates_of_same rfl rfl)

theorem mem_lists_of_troopPages {e : TroopPage × Nat} (he : e ∈ d.troopPages) :
    e.1.commands ∈ d.data.lists := by
  unfold troopPages at he
  cases ht : d.game.troop.bind fun t => d.data.troop? t.id with
  | none => rw [ht] at he; cases he
  | some t =>
    rw [ht] at he
    obtain ⟨-, -, hpage⟩ := List.mem_zipIdx (x := e.1) (i := e.2) he
    obtain ⟨t', -, ht'⟩ := Option.bind_eq_some_iff.1 ht
    rw [hpage]
    exact Database.troop_mem_lists ht' (List.getElem_mem _)

/-- Only the interpreter of the battle is concerned, which stays or starts over with a page. -/
theorem fates_bindTroop (d : Director) :
    Ensures (Part.run .bindTroop) d fun _ d' => Fates .bindTroop d d' := by
  simp only [Part.run, ensures_bind, ensures_pure]
  refine (binds_of_startNextPage d).imp fun started d' h => ?_
  cases h with
  | none => exact fates_of_same rfl rfl
  | page _ he _ hstart =>
    refine fates_of_one (a := .battle) rfl (fun b hb => ?_)
      (fate_of_start hstart (mem_lists_of_troopPages he) rfl)
    cases b with
    | battle => exact absurd rfl hb
    | root | common | parallel => rfl

/-! ## Interpreters that are dropped -/

theorem fates_dropCommons (d : Director) :
    Ensures dropCommons d fun _ d' => Fates .dropCommons d d' := by
  refine Directing.ensures_modify.2 ⟨rfl, fun a => ?_⟩
  cases a with
  | root | parallel | battle => exact .stays rfl
  | common id =>
    by_cases hid : (parallelCommons d.data d.game).contains id = true
    · exact .stays (by simp only [interpreter, IdMap.get?_keep, hid, if_true])
    · refine .dropped .field false ?_
      simp only [interpreter, IdMap.get?_keep, hid, Bool.false_eq_true, if_false, Option.getD_none]

theorem fates_dropPages (d : Director) :
    Ensures dropPages d fun _ d' => Fates .dropPages d d' := by
  refine Directing.ensures_modify.2 ⟨rfl, fun a => ?_⟩
  cases a with
  | root | common | battle => exact .stays rfl
  | parallel id =>
    by_cases hid : d.game.field.parallelIds.contains id = true
    · exact .stays (by simp only [interpreter, pageRun, IdMap.get?_keep, hid, if_true])
    · refine .dropped .field false ?_
      simp only [interpreter, pageRun, IdMap.get?_keep, hid, Bool.false_eq_true, if_false,
        Option.getD_none]

theorem fates_teleport (d : Director) :
    Ensures carryTeleport d fun _ d' => Fates .teleport d d' := by
  simp only [carryTeleport, ensures_bind, Directing.ensures_act, ensures_getGame]
  split
  · exact ensures_pure.2 (fates_of_same rfl rfl)
  · next t ht =>
    simp only [ensures_bind, Directing.ensures_act, ensures_modifyGame, ensures_ite,
      Directing.ensures_get, Directing.ensures_modify]
    refine ⟨fun _ => ensures_run.imp fun _ w _ => ⟨rfl, fun a => ?_⟩,
      fun _ => fates_of_same rfl rfl⟩
    cases a with
    | root | common | battle => exact .stays rfl
    | parallel id => exact .dropped .field false rfl

/-! ## Every part -/

theorem fates_order (o : Order) (d : Director) :
    Ensures o.run d fun _ d' => Fates (.order o) d d' := by
  refine (obeyed_of_order o d).imp fun _ d' h => ⟨h.data, fun a => ?_⟩
  cases a with
  | root =>
    rcases h.root with hroot | hroot
    · exact .stays hroot
    · exact .dropped .field true hroot
  | common id => exact .stays (by simp only [interpreter, h.common])
  | parallel id => exact .stays (by simp only [interpreter, pageRun, h.parallel])
  | battle =>
    rcases h.battle with hbattle | hbattle
    · exact .stays hbattle
    · exact .dropped .battle false hbattle

/-- Nothing else can become of an interpreter. -/
theorem fates_of_part (p : Part) (d : Director) : Ensures p.run d fun _ d' => Fates p d d' := by
  cases p with
  | update a => exact fates_updateAgent a d
  | bindCommon id => exact fates_bindCommon id d
  | bindPage id => exact fates_bindPage id d
  | bindTroop => exact fates_bindTroop d
  | dropCommons => exact fates_dropCommons d
  | dropPages => exact fates_dropPages d
  | world =>
    simp only [Part.run, tickWorld, ensures_bind, Directing.ensures_get, Directing.ensures_act]
    exact ensures_run.imp fun _ w _ => fates_of_same rfl rfl
  | teleport => exact fates_teleport d
  | order o => exact fates_order o d

end EventScript.Director
