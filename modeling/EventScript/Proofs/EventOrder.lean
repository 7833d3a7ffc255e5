import EventScript.Proofs.Acceptance
import EventScript.Director.Field
import Mathlib.Data.List.Find
import Mathlib.Data.List.Sort

/-!
# The order of the common events

A database lists its common events in some order. As long as one of them at most starts by itself,
no event can tell which.

* `Database.serves_of_perm`: in another order the same common events are found, started and run
  beside the others.
* `Frame.turn_withEvents`, `Interpreter.update_withEvents`: so every turn and every update is the
  same.
-/

namespace EventScript

open Act

/-! ## Other common events -/

/-- The same database with other common events. -/
def Database.withEvents (data : Database) (es : List CommonEvent) : Database :=
  { data with commonEvents := es }

/-- Some common events serve for those of a database: the same ones are found under every id, as the
next to start by itself, and as those that run beside the others. -/
structure Database.Serves (data : Database) (es : List CommonEvent) : Prop where
  found : ∀ id, (data.withEvents es).commonEvent? id = data.commonEvent? id
  automatic : ∀ g : Game,
    (es.find? fun e => e.trigger = .autoStart && g.isSwitchedOn e && !e.commands.isEmpty) =
      data.commonEvents.find? fun e =>
        e.trigger = .autoStart && g.isSwitchedOn e && !e.commands.isEmpty
  parallel : ∀ g : Game,
    Director.parallelCommons (data.withEvents es) g = Director.parallelCommons data g

namespace Database

variable {data : Database} {es : List CommonEvent}

theorem item?_withEvents (id : Number) : (data.withEvents es).item? id = data.item? id := rfl

theorem troop?_withEvents (id : Number) : (data.withEvents es).troop? id = data.troop? id := rfl

theorem pageCommands?_withEvents (mapId eventId page : Number) :
    (data.withEvents es).pageCommands? mapId eventId page =
      data.pageCommands? mapId eventId page := rfl

/-- Where one common event at most starts by itself, two of them are one. -/
theorem eq_of_autoStart {l : List CommonEvent} (h : l.countP (·.trigger = .autoStart) ≤ 1)
    {e e' : CommonEvent} (he : e ∈ l) (he' : e' ∈ l) (hauto : e.trigger = .autoStart)
    (hauto' : e'.trigger = .autoStart) : e = e' := by
  have hlength : (l.filter (·.trigger = .autoStart)).length ≤ 1 := by
    rwa [← List.countP_eq_length_filter]
  obtain ⟨x, hx⟩ : ∃ x, ∀ y ∈ l.filter (·.trigger = .autoStart), y = x := by
    cases hfilter : l.filter (·.trigger = .autoStart) with
    | nil => exact ⟨e, nofun⟩
    | cons x rest =>
      rw [hfilter, List.length_cons] at hlength
      obtain rfl : rest = [] := List.eq_nil_of_length_eq_zero (by omega)
      exact ⟨x, fun y hy => List.mem_singleton.1 hy⟩
  have hsame := hx e (List.mem_filter.2 ⟨he, decide_eq_true hauto⟩)
  have hsame' := hx e' (List.mem_filter.2 ⟨he', decide_eq_true hauto'⟩)
  exact hsame.trans hsame'.symm

/-- A sorted list does not tell in which order the numbers were. -/
theorem mergeSort_eq_of_perm {l l' : List Number} (h : l.Perm l') :
    (l.mergeSort fun a b => a ≤ b) = l'.mergeSort fun a b => a ≤ b := by
  refine List.Perm.eq_of_pairwise' (List.pairwise_mergeSort' (· ≤ ·) l)
    (List.pairwise_mergeSort' (· ≤ ·) l') ?_
  exact ((List.mergeSort_perm l _).trans h).trans (List.mergeSort_perm l' _).symm

/-- In an accepted database the common events serve in every order, if one of them at most starts by
itself. -/
theorem serves_of_perm (hd : data.validate = .ok ()) (horder : es.Perm data.commonEvents)
    (hauto : data.commonEvents.countP (·.trigger = .autoStart) ≤ 1) : data.Serves es where
  found id := by
    have hids : (data.commonEvents.map (·.id)).Nodup := (validate_eq_ok_iff.1 hd).commonEvents
    refine (List.find?_eq_find?_of_perm horder.symm fun e he e' he' => ?_).symm
    have hsame : e.id = e'.id :=
      (of_decide_eq_true he.2).trans (of_decide_eq_true he'.2).symm
    exact List.inj_on_of_nodup_map hids he.1 he'.1 hsame
  automatic g := by
    refine (List.find?_eq_find?_of_perm horder.symm fun e he e' he' => ?_).symm
    obtain ⟨he, hpasses⟩ := he
    obtain ⟨he', hpasses'⟩ := he'
    simp only [Bool.and_eq_true, decide_eq_true_eq] at hpasses hpasses'
    exact eq_of_autoStart hauto he he' hpasses.1.1 hpasses'.1.1
  parallel g := mergeSort_eq_of_perm ((horder.filter _).map _)

end Database

/-! ## Commands, turns and updates -/

section

variable {data : Database} {es : List CommonEvent} (h : data.Serves es) (host : Host)

include h

namespace Commands

theorem callCommon_withEvents (f : Frame) (id : Number) :
    callCommon ⟨data.withEvents es, host⟩ f id = callCommon ⟨data, host⟩ f id := by
  simp only [callCommon, h.found]

theorem callEvent_withEvents (f : Frame) (c : Command) :
    callEvent ⟨data.withEvents es, host⟩ f c = callEvent ⟨data, host⟩ f c := by
  simp only [callEvent, callCommon_withEvents h]
  rfl

omit h in
theorem performShared_withEvents (f : Frame) (c : Command) (op : SharedOp) :
    performShared ⟨data.withEvents es, host⟩ f c op = performShared ⟨data, host⟩ f c op := by
  cases op <;> rfl

theorem performField_withEvents (f : Frame) (c : Command) (op : FieldOp) :
    performField ⟨data.withEvents es, host⟩ f c op = performField ⟨data, host⟩ f c op := by
  cases op
  case callEvent => exact callEvent_withEvents h host f c
  all_goals rfl

theorem performBattle_withEvents (f : Frame) (c : Command) (op : BattleOp) :
    performBattle ⟨data.withEvents es, host⟩ f c op = performBattle ⟨data, host⟩ f c op := by
  cases op
  case callCommonEvent => exact callCommon_withEvents h host f _
  all_goals rfl

theorem perform_withEvents (f : Frame) (c : Command) :
    perform ⟨data.withEvents es, host⟩ f c = perform ⟨data, host⟩ f c := by
  simp only [perform, performShared_withEvents, performField_withEvents h,
    performBattle_withEvents h]

omit h in
theorem goOn_withEvents (f : Frame) (k : Awaited) :
    goOn ⟨data.withEvents es, host⟩ f k = goOn ⟨data, host⟩ f k := by
  cases k <;> rfl

end Commands

namespace Frame

omit h in
theorem settle_withEvents (f : Frame) (o : Outcome) :
    f.settle ⟨data.withEvents es, host⟩ o = f.settle ⟨data, host⟩ o := by
  cases o <;> rfl

theorem startNext_withEvents (f : Frame) :
    f.startNext ⟨data.withEvents es, host⟩ = f.startNext ⟨data, host⟩ := by
  have hqueue : queuedEvent ⟨data.withEvents es, host⟩ = queuedEvent ⟨data, host⟩ := by
    simp only [queuedEvent, h.found]
  have hfield : f.startFieldEvent ⟨data.withEvents es, host⟩ =
      f.startFieldEvent ⟨data, host⟩ := rfl
  have hshow : showPages (data.withEvents es) = showPages data := rfl
  have hlist : (data.withEvents es).commonEvents = es := rfl
  simp only [startNext, hqueue, hfield, hshow, hlist, h.automatic]

/-- No turn depends on the order of the common events. -/
theorem turn_withEvents (f : Frame) :
    f.turn ⟨data.withEvents es, host⟩ = f.turn ⟨data, host⟩ := by
  have hpoll (k : KeyCapture) :
      Commands.pollKeys ⟨data.withEvents es, host⟩ k = Commands.pollKeys ⟨data, host⟩ k := rfl
  have hproceed (f : Frame) :
      f.proceed ⟨data.withEvents es, host⟩ = f.proceed ⟨data, host⟩ := by
    simp only [proceed, settle_withEvents, startNext_withEvents h, Commands.perform_withEvents h,
      Commands.goOn_withEvents]
  simp only [turn, hproceed, hpoll]

end Frame

namespace Interpreter

theorem takeTurns_withEvents (inner : Frame → List Frame → Process Interpreter) (n : Nat)
    (f : Frame) (calls : List Frame) :
    takeTurns ⟨data.withEvents es, host⟩ inner n f calls =
      takeTurns ⟨data, host⟩ inner n f calls := by
  induction n generalizing f calls with
  | zero => rfl
  | succ n ih => simp only [takeTurns, Frame.turn_withEvents h, ih]

/-- No update depends on it. -/
theorem update_withEvents (levels : Nat) (i : Interpreter) :
    i.update ⟨data.withEvents es, host⟩ levels = i.update ⟨data, host⟩ levels := by
  have hframes (f : Frame) (calls : List Frame) :
      updateFrames ⟨data.withEvents es, host⟩ levels f calls =
        updateFrames ⟨data, host⟩ levels f calls := by
    induction levels generalizing f calls with
    | zero => rfl
    | succ levels ih =>
      have hinner : updateFrames ⟨data.withEvents es, host⟩ levels =
          updateFrames ⟨data, host⟩ levels := funext fun f => funext fun calls => ih f calls
      rw [updateFrames, updateFrames, hinner, takeTurns_withEvents h]
      rfl
  exact hframes i.frame i.calls

end Interpreter

end

end EventScript
