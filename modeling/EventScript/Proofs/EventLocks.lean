import EventScript.Proofs.Locks

/-!
# Events are locked while they run

* `Director.InOrder`: the locks of the map are those of the root. What stays on the map keeps this
  (`inOrder_of_part`).
* `inOrder_fieldTick`: so does a tick of the field. The root goes first in it, so that it has no
  owner on another map when the party is carried to that map.
* `locked_iff_runs`: at every moment the event is locked for which the root runs, and no other.
-/

namespace EventScript

open Act

/-- The events of every map have positive ids. -/
def Database.PositiveIds (d : Database) : Prop := ∀ m ∈ d.maps, ∀ e ∈ m.events, 0 < e.id

instance (d : Database) : Decidable d.PositiveIds :=
  inferInstanceAs (Decidable (∀ m ∈ d.maps, ∀ e ∈ m.events, 0 < e.id))

/-- On a map that was just entered no event is locked. -/
theorem Game.released_enterMap {d : Database} (hd : d.PositiveIds) (g : Game) (id : Number) :
    (g.enterMap d id).Released := by
  have hshown (f : Field) (hf : ∀ k c, f.events.get? k = some c → 0 < k ∧ c.locked = false) :
      Released ({ g with field := f }.showPages d) := by
    refine Released.congr (g := { g with field := f }) (fun k b hb => ?_)
      (sameAgenda_iff.1 (sameAgenda_showPages _ d)).2.1
    obtain ⟨c, hc, rfl⟩ := Option.map_eq_some_iff.1 hb
    exact hf k c hc
  unfold enterMap
  cases hm : d.map? id with
  | some m =>
    refine hshown _ fun k c hc => ?_
    obtain ⟨e, he, heq⟩ := List.mem_map.1 (IdMap.mem_of_get?_ofList hc)
    cases heq
    exact ⟨hd m (List.mem_of_find?_eq_some hm) e he, rfl⟩
  | none =>
    refine hshown _ fun k c hc => ?_
    cases hc

theorem Game.mapId_enterMap (g : Game) (d : Database) (id : Number) :
    (g.enterMap d id).field.id = id := by
  unfold enterMap
  split
  · next m hm => exact (by simpa using List.find?_some hm : m.id = id)
  · rfl

namespace Director

variable {data : Database} {d d' : Director}

/-- The locks of the map are those of the root. -/
structure InOrder (data : Database) (d : Director) : Prop extends Manned data d where
  locks : d.root.frame.LocksExactly d.game

theorem InOrder.of_undisturbed (h : InOrder data d) (hd : Undisturbed d d') : InOrder data d' :=
  ⟨h.toManned.of_undisturbed hd,
    (hd.root ▸ h.locks : d'.root.frame.LocksExactly d.game).of_same (.refl _) hd.agenda⟩

theorem inOrder_begin (hd : data.PositiveIds) (random : Random) :
    InOrder data (begin data random) :=
  ⟨manned_begin data random, Frame.locksExactly_of_released (Game.released_enterMap hd _ _)
    fun id _ => Frame.not_owns_of_ended rfl id⟩

/-! ## What keeps the locks in order -/

/-- Dropping what it runs, the root releases its event. -/
theorem inOrder_abandon (h : InOrder data d) :
    Ensures abandon d fun _ d' => InOrder data d' := by
  intro r d' hr
  refine ⟨manned_abandon h.toManned r d' hr, ?_⟩
  cases hr
  refine Frame.locksExactly_of_released (Game.released_of_release fun id b hb => ?_)
    fun id _ => Frame.not_owns_of_ended rfl id
  obtain ⟨hid, hlock⟩ := h.locks id b hb
  exact ⟨hid, fun hb => (hlock.1 hb).owner⟩

/-- The root takes events up and releases them. -/
theorem inOrder_updateRoot (hbudget : data.config.maxIterations ≠ 0) (h : InOrder data d) :
    Ensures updateRoot d fun _ d' => InOrder data d' ∧ d'.root.frame.AtHome d'.game := by
  have hbudget' : d.env.data.config.maxIterations ≠ 0 := by rwa [env, h.data]
  have hguards : Ensures updateRoot d fun _ d' => d'.root.frame.Guards d'.game := by
    simp only [updateRoot, ensures_bind, Directing.ensures_get, ensures_update,
      Directing.ensures_modify]
    exact (Interpreter.guards_of_update hbudget' levels h.root d.world h.locks).imp
      fun _ _ hg => hg
  intro r d' hr
  have hg := hguards r d' hr
  exact ⟨⟨manned_updateRoot h.toManned r d' hr, hg.locks⟩, hg.home⟩

/-- What stays on the map keeps the locks in order. -/
theorem inOrder_of_part (hbudget : data.config.maxIterations ≠ 0) {p : Part}
    (hp : p.staysHere = true) (h : InOrder data d) :
    Ensures p.run d fun _ d' => InOrder data d' := by
  by_cases hspares : p.sparesRoot = true
  · exact (undisturbed_of_part hspares h.staffed).imp fun _ _ hd => h.of_undisturbed hd
  · match p, hp, hspares with
    | .update .root, _, _ => exact (inOrder_updateRoot hbudget h).imp fun _ _ h => h.1
    | .order .abandon, _, _ => exact inOrder_abandon h

/-- A root that is at home has no owner on the map that the party is carried to. -/
theorem inOrder_carryTeleport (hd : data.PositiveIds) (h : InOrder data d)
    (hhome : d.root.frame.AtHome d.game) :
    Ensures carryTeleport d fun _ d' => InOrder data d' := by
  have hlocks : Ensures carryTeleport d fun _ d' => d'.root.frame.LocksExactly d'.game := by
    simp only [carryTeleport, ensures_bind, Directing.ensures_act, ensures_getGame]
    split
    · exact ensures_pure.2 h.locks
    · next t ht =>
      simp only [ensures_bind, Directing.ensures_act, ensures_modifyGame, ensures_ite,
        Directing.ensures_get, Directing.ensures_modify]
      refine ⟨fun hother => ?_, fun _ => h.locks.of_same (.refl _) (.of_field rfl fun _ => rfl)⟩
      have hentered (g : Game) (player : Character) : d.root.frame.LocksExactly
          { g.enterMap data t.mapId with field.player := player } := by
        have hreleased := Game.released_enterMap hd g t.mapId
        refine Frame.locksExactly_of_released hreleased fun id hid ho => ?_
        obtain hmap | howner := hhome
        · exact hother ((g.mapId_enterMap data t.mapId).symm.trans (ho.mapId.symm.trans hmap))
        · exact Frame.not_owns_of_owner howner hid ho
      simp only [enterMap, h.data, ensures_bind, ensures_ite, ensures_warn, ensures_modifyGame]
      exact ⟨fun _ => hentered _ _, fun _ => hentered _ _⟩
  exact fun r d' hr => ⟨manned_carryTeleport h.toManned r d' hr, hlocks r d' hr⟩

/-- A tick of the field keeps the locks in order. -/
theorem inOrder_fieldTick (hd : data.PositiveIds) (hbudget : data.config.maxIterations ≠ 0)
    (h : InOrder data d) : Ensures fieldTick d fun _ d' => InOrder data d' := by
  refine composes_undisturbed.fieldTick ?_
  refine (inOrder_updateRoot hbudget h).imp ?_
  rintro - d₁ ⟨h₁, hhome₁⟩ d₂ h₂
  have h₂ := h₂ h₁.staffed
  refine Ensures.bind (undisturbed_of_part (p := .world) rfl h₂.staffed) fun _ d₃ h₃ => ?_
  have h₃ := h₂.trans h₃
  refine inOrder_carryTeleport hd (h₁.of_undisturbed h₃) ?_
  rw [h₃.root]
  exact hhome₁.of_same (.refl _) h₃.agenda

/-- In a game whose events have positive ids an event of the map is locked if and only if the root
runs, for this event and on this map. Where the root runs nothing, no event is locked. -/
theorem locked_iff_runs {random : Random} (hd : data.validate = .ok ()) (hids : data.PositiveIds)
    (h : Reachable data random d) :
    (∀ id e, d.game.field.events.get? id = some e → (e.locked = true ↔
      d.root.isRunning = true ∧ d.root.frame.owner = id ∧
        d.root.frame.mapId = d.game.field.id)) ∧
    (d.root.isRunning = false → ∀ id e, d.game.field.events.get? id = some e →
      e.locked = false) := by
  have hbudget := Database.maxIterations_ne_zero hd
  have hkept : KeptByTicks (InOrder data) :=
    ⟨fun _ => inOrder_fieldTick hids hbudget, fun _ _ => inOrder_of_part hbudget⟩
  have horder : InOrder data d := hkept.reachable (inOrder_begin hids random) h
  have hlock {id : Number} {e : Character} (he : d.game.field.events.get? id = some e) :
      d.game.lockOf id = some e.locked := by rw [Game.lockOf, he]; rfl
  refine ⟨fun id e he => ?_, fun hend id e he => ?_⟩
  · obtain ⟨-, hiff⟩ := horder.locks id e.locked (hlock he)
    exact hiff.trans Frame.owns_iff
  · exact (horder.locks.released hend id e.locked (hlock he)).2

/-- An event that waits, leads to the second map and waits there; on either map the event has the
same id. -/
def passage : Database where
  maps := [
    { id := 1, events := [{ id := 1, pages := [{
      trigger := .autoStart
      commands := [
        { code := SharedOp.wait.code, params := [1] },
        { code := FieldOp.teleport.code, params := [2, 0, 0] },
        { code := SharedOp.wait.code, params := [1] }] }] }] },
    { id := 2, events := [{ id := 1, pages := [{}] }] }]

/-- On the first map the event is locked while it waits. On the second map the root still runs for
the event of the first one, and the event there is not locked. -/
theorem passage_locks_one_event : passage.validate = .ok () ∧ passage.PositiveIds ∧
    ∃ d, Reachable passage default d ∧
      (∃ e, d.game.field.events.get? 1 = some e ∧ e.locked = true) ∧
    ∃ d', Reachable passage default d' ∧ d'.root.isRunning = true ∧ d'.root.frame.owner = 1 ∧
      d'.game.field.id = 2 ∧ ∃ e, d'.game.field.events.get? 1 = some e ∧ e.locked = false := by
  have hids : passage.PositiveIds := by decide
  have hrun : ∃ d, [Call.execute 2].forM Call.run (begin passage default) = .ok ((), d) ∧
      d.root.isRunning = true ∧ d.root.frame.owner = 1 ∧ d.root.frame.mapId = d.game.field.id ∧
        (d.game.field.events.get? 1).isSome = true := by
    decide +kernel
  have hrun' : ∃ d, [Call.execute 8].forM Call.run (begin passage default) = .ok ((), d) ∧
      d.root.isRunning = true ∧ d.root.frame.owner = 1 ∧ d.root.frame.mapId = 1 ∧
        d.game.field.id = 2 ∧ (d.game.field.events.get? 1).isSome = true := by
    decide +kernel
  obtain ⟨d, hcalls, hruns, howner, hmap, he⟩ := hrun
  obtain ⟨d', hcalls', hruns', howner', hmap', hid, he'⟩ := hrun'
  obtain ⟨e, he⟩ := Option.isSome_iff_exists.1 he
  obtain ⟨e', he'⟩ := Option.isSome_iff_exists.1 he'
  obtain ⟨hlocked, -⟩ := locked_iff_runs (by rfl) hids ⟨_, hcalls⟩
  obtain ⟨hlocked', -⟩ := locked_iff_runs (by rfl) hids ⟨_, hcalls'⟩
  refine ⟨by rfl, hids, d, ⟨_, hcalls⟩, ⟨e, he, (hlocked 1 e he).2 ⟨hruns, howner, hmap⟩⟩,
    d', ⟨_, hcalls'⟩, hruns', howner', hid, e', he', Bool.eq_false_iff.2 fun hlock => ?_⟩
  obtain ⟨-, -, hsame⟩ := (hlocked' 1 e' he').1 hlock
  exact absurd (hmap'.symm.trans (hsame.trans hid)) (by decide)

end Director

end EventScript
