import EventScript.Proofs.Marks
import EventScript.Proofs.Roles
import EventScript.Proofs.Traces

/-!
# Teleports of the root

A teleport only reserves a move, and the player moves at the end of the tick. The root hands over
the tick for it. An event that the root called does not.

* `World.KeepsMove` says that a reserved move stays reserved, and every turn does so.
* `Interpreter.Traced.reserved` tells of the turn that reserves a move, and of all turns after it.
* `Director.arrived_of_carryTeleport` tells where the player is at the end of the tick.
* `Director.teleport_in_tick` puts them together for the root and the events that it called.
-/

namespace EventScript

open Act

/-- A reserved move stays as it is. -/
def World.KeepsMove (w w' : World) : Prop :=
  ∀ m, w.game.field.teleport = some m → w'.game.field.teleport = some m

theorem World.KeepsMove.refl (w : World) : w.KeepsMove w := fun _ hm => hm

theorem World.KeepsMove.trans {u v w : World} (h : u.KeepsMove v) (h' : v.KeepsMove w) :
    u.KeepsMove w :=
  fun m hm => h' m (h m hm)

theorem World.keepsMove_of_eq {w w' : World}
    (h : w'.game.field.teleport = w.game.field.teleport) : w.KeepsMove w' :=
  fun _ hm => h.trans hm

/-- Only where no move is reserved a turn reserves one. -/
theorem Frame.keepsMove_of_turn (env : Env) (f : Frame) (w : World) :
    Ensures (f.turn env) w fun _ w' => w.KeepsMove w' := by
  refine (marks_of_turn env f w).imp fun t w' h => ?_
  rcases h.move with hkept | hset
  · exact World.keepsMove_of_eq hkept
  · intro m hm
    rw [hset.free] at hm
    cases hm

namespace Interpreter

variable {env : Env} {n : Nat} {f : Frame} {calls : List Frame} {w w' : World} {i : Interpreter}

theorem keepsMove_of_update (env : Env) (levels : Nat) (i : Interpreter) (w : World) :
    Ensures (i.update env levels) w fun _ w' => w.KeepsMove w' :=
  leads_of_turns .refl .trans (Frame.keepsMove_of_turn env) levels i w

/-- A turn that reserves a move. -/
def Taken.Reserves (x : Taken) (m : Teleport) : Prop :=
  x.before.game.field.teleport = none ∧ x.after.game.field.teleport = some m

/-- What holds of a turn that reserves a move. A command of the frame does, in the field. The root
hands over the tick, and any other frame goes on after the command. -/
structure Taken.Sets (x : Taken) : Prop where
  command : ∃ c, x.frame.commands[x.frame.pc]? = some c ∧ Commands.movesPlayer x.frame c = true
  frame : x.turn.frame = x.frame.goto x.frame.pc
  called : x.turn.called = none
  signal : x.turn.signal = if x.frame.isRoot then .yield else .again

theorem Taken.Reserves.sets {x : Taken} {m : Teleport} (h : x.Reserves m)
    (ht : x.frame.turn env x.before = .ok (x.turn, x.after)) : x.Sets := by
  obtain ⟨hbefore, hafter⟩ := h
  rcases (Frame.marks_of_turn env x.frame x.before _ _ ht).move with hkept | hset
  · rw [hbefore, hafter] at hkept
    cases hkept
  · exact ⟨hset.command, hset.frame, hset.called, hset.signal⟩

/-- What comes after a turn that reserves a move: no turn changes it, and the map is the old one.
After a turn of the root there is none at all. Any other frame goes on with its next command, if it
has a turn left. -/
structure Taken.Followed (x : Taken) (m : Teleport) (after : List Taken) : Prop where
  kept : ∀ y ∈ after, y.before.game.field.teleport = some m ∧ y.after.game.field.teleport = some m
  map : ∀ y ∈ after, y.before.game.field.id = x.before.game.field.id
  root : x.frame.isRoot = true → after = []
  event : x.frame.isRoot = false → x.left ≠ 0 → Continues x.after x.turn.frame after

theorem Traced.reserved {before after : List Taken} {x : Taken} {m : Teleport}
    (h : Traced env n f calls w (before ++ x :: after) i w')
    (hcalls : ∀ c ∈ calls, c.isRoot = false) (hx : x.Reserves m) :
    x.Sets ∧ x.Followed m after ∧ w'.game.field.teleport = some m := by
  have hmem : x ∈ before ++ x :: after := List.mem_append_right _ List.mem_cons_self
  have hsets := hx.sets (h.taken x hmem)
  -- What holds between turns is read off at `x` and the turns after it.
  have hpairs {R : Taken → Taken → Prop} (hR : (before ++ x :: after).Pairwise R) :
      ∀ y ∈ after, R x y :=
    (List.pairwise_cons.1 (List.pairwise_append.1 hR).2.1).1
  obtain ⟨-, heach, hmoves⟩ := h.ordered World.KeepsMove.refl World.KeepsMove.trans
    (Frame.keepsMove_of_turn env)
  obtain ⟨-, -, hmaps⟩ := h.ordered (R := fun u v => v.game.field.id = u.game.field.id)
    (fun _ => rfl) (fun huv hvw => hvw.trans huv)
    (fun f w => (Frame.place_of_turn env f w).imp fun _ _ hplace => hplace.1)
  refine ⟨hsets, ⟨fun y hy => ?_, fun y hy => ?_, fun hisRoot => ?_, fun hevent hleft => ?_⟩,
    (heach x hmem).2 m hx.2⟩
  · have hbefore := hpairs hmoves y hy m hx.2
    have hy : y ∈ before ++ x :: after := List.mem_append_right _ (List.mem_cons_of_mem _ hy)
    exact ⟨hbefore, Frame.keepsMove_of_turn env y.frame y.before _ _ (h.taken y hy) m hbefore⟩
  · have hplace := (Frame.place_of_turn env x.frame x.before _ _ (h.taken x hmem)).1
    exact (hpairs hmaps y hy).trans hplace
  · cases after with
    | nil => rfl
    | cons y rest =>
      have hagain := hpairs (h.root_goes_on hcalls) y List.mem_cons_self hisRoot
      rw [hsets.signal, if_pos hisRoot] at hagain
      cases hagain
  · have hagain : x.turn.signal = .again := by
      rw [hsets.signal, hevent]
      rfl
    exact h.goes_on before x after rfl hagain hsets.called hleft

/-- A move that is reserved in the end, and was not at first, was reserved in one of the turns. -/
theorem Traced.exists_reserves {l : List Taken} {m : Teleport} (h : Traced env n f calls w l i w')
    (hw : w.game.field.teleport = none) (hw' : w'.game.field.teleport = some m) :
    ∃ before x after, l = before ++ x :: after ∧ x.Reserves m := by
  have hfree : ¬ w.game.field.teleport = some m := by
    rw [hw]
    exact nofun
  obtain ⟨before, x, after, hl, hbefore, hafter⟩ :=
    h.exists_turn (P := fun w => w.game.field.teleport = some m) hfree hw'
  have hmem : x ∈ l := hl ▸ List.mem_append_right _ List.mem_cons_self
  refine ⟨before, x, after, hl, ?_, hafter⟩
  cases hmove : x.before.game.field.teleport with
  | none => rfl
  | some m' =>
    have hkept := Frame.keepsMove_of_turn env x.frame x.before _ _ (h.taken x hmem) m' hmove
    exact absurd (hmove.trans (hkept.symm.trans hafter)) hbefore

end Interpreter

namespace Director

variable {data : Database} {random : Random} {d d' : Director}

/-- The player is where a move leads, and no move is left. -/
structure Arrived (m : Teleport) (f : Field) : Prop where
  mapId : f.id = m.mapId
  x : f.player.x = m.x
  y : f.player.y = m.y
  done : f.teleport = none

theorem arrived_of_carryTeleport {m : Teleport} (hm : d.game.field.teleport = some m) :
    Ensures carryTeleport d fun _ d' => Arrived m d'.game.field := by
  have hentered (g : Game) (hg : g.field.teleport = none) (data : Database) :
      (g.enterMap data m.mapId).field.id = m.mapId ∧
        (g.enterMap data m.mapId).field.teleport = none := by
    unfold Game.enterMap
    split
    · next map hmap =>
      have hfound := List.find?_some (p := fun x : MapData => decide (x.id = m.mapId)) hmap
      exact ⟨of_decide_eq_true hfound, hg⟩
    · exact ⟨rfl, rfl⟩
  have hplaced (f : Field) (hid : f.id = m.mapId) (hdone : f.teleport = none) :
      Arrived m { f with player :=
        if m.direction < 0 then { f.player with x := m.x, y := m.y }
        else { f.player with x := m.x, y := m.y }.face m.direction } := by
    have hface (c : Character) : (c.face m.direction).x = c.x ∧ (c.face m.direction).y = c.y := by
      unfold Character.face
      split <;> exact ⟨rfl, rfl⟩
    split
    · exact ⟨hid, rfl, rfl, hdone⟩
    · exact ⟨hid, (hface _).1, (hface _).2, hdone⟩
  simp only [carryTeleport, ensures_bind, Directing.ensures_act, ensures_getGame]
  rw [show d.world.game.field.teleport = some m from hm]
  simp only [ensures_bind, Directing.ensures_act, ensures_modifyGame, ensures_ite,
    Directing.ensures_get, Directing.ensures_modify, enterMap, ensures_warn]
  have hnew := hentered { d.game with field := { d.game.field with teleport := none } } rfl d.data
  refine ⟨fun _ => ?_, fun hsame => ?_⟩
  · exact ⟨fun _ => hplaced _ hnew.1 hnew.2, fun _ => hplaced _ hnew.1 hnew.2⟩
  · exact hplaced { d.game.field with teleport := none } (not_not.1 hsame).symm rfl

/-- What runs beside the root keeps its move. -/
theorem composes_keepsMove : Composes Part.isBeside fun d d' => d.world.KeepsMove d'.world where
  refl d := .refl d.world
  trans h h' := h.trans h'
  part p d hp := by
    cases p with
    | update a =>
      simp only [Part.run, updateAgent, ensures_bind, Directing.ensures_get, ensures_update,
        Directing.ensures_modify]
      refine (Interpreter.keepsMove_of_update d.env levels _ d.world).imp fun j w hw => ?_
      rw [world_withInterpreter]
      exact hw
    | bindCommon | bindPage | dropCommons | dropPages =>
      refine (game_of_quiet rfl d).imp fun _ d' hg => World.keepsMove_of_eq ?_
      change d'.game.field.teleport = d.game.field.teleport
      rw [hg]
    | bindTroop | world | teleport | order => cases hp

/-- What a tick of the field does with a move that is reserved once the root has had its turns: the
call tree of the root is left as it stands then, and the move is made. -/
theorem arrived_of_fieldTick (hd : Manned data d) : Ensures fieldTick d fun _ d' =>
    ∃ w, d.root.update d.env levels d.world = .ok (d'.root, w) ∧
      ∀ m, w.game.field.teleport = some m → Arrived m d'.game.field := by
  refine (composes_undisturbed.and composes_keepsMove).fieldTick ?_
  have hroot : Ensures updateRoot d fun _ d₁ => d₁.Staffed ∧
      d.root.update d.env levels d.world = .ok (d₁.root, d₁.world) := by
    simp only [updateRoot, ensures_bind, Directing.ensures_get, ensures_update,
      Directing.ensures_modify]
    refine ensures_run.imp fun i w hi => ⟨?_, hi⟩
    exact (hd.withRoot (Interpreter.isTop_of_update levels hd.root d.world i w hi) w).staffed
  refine hroot.imp ?_
  rintro - d₁ ⟨hstaffed, hupdate⟩ d₂ ⟨hundisturbed, hkept⟩
  have hroot₂ : d₂.root = d₁.root := (hundisturbed hstaffed).root
  have hworld : Ensures tickWorld d₂ fun _ d₃ =>
      d₃.root = d₂.root ∧ d₃.game.field.teleport = d₂.game.field.teleport := by
    simp only [tickWorld, ensures_bind, Directing.ensures_get, Directing.ensures_act]
    have htick : (tick d₂.data).KeepsMarks := within_tick _
    exact (htick d₂.world).imp fun _ w hw => ⟨trivial, (World.marks_eq_iff.1 hw).1⟩
  refine Ensures.bind hworld ?_
  rintro - d₃ ⟨hroot₃, hkept₃⟩
  intro r d' hd'
  have hroot' : d'.root = d₁.root := by
    rw [(root_of_carryTeleport d₃ r d' hd').1, hroot₃, hroot₂]
  refine ⟨d₁.world, hroot'.symm ▸ hupdate, fun m hm => ?_⟩
  have hm₃ : d₃.game.field.teleport = some m := hkept₃.trans (hkept m hm)
  exact arrived_of_carryTeleport hm₃ r d' hd'

/-- A teleport of the root and of the events that it called, in any tick of any run. The update of
the root is a row of turns. If a move is reserved at its end one of them reserved it, with a command
that moves the player. No later turn changes the move; the call tree does nothing else in the tick,
and at the end of it the player is there. If the root itself reserved the move, its turn is the
last. If an event did that the root called, it goes on with its next command all the same. -/
theorem teleport_in_tick (h : Reachable data random d) (ht : fieldTick d = .ok ((), d')) :
    ∃ w, d.root.update d.env levels d.world = .ok (d'.root, w) ∧
      (∃ turns, Interpreter.Traced d.env (Interpreter.budget d.env) d.root.frame d.root.calls
        d.world turns d'.root w) ∧
      ∀ turns, Interpreter.Traced d.env (Interpreter.budget d.env) d.root.frame d.root.calls
          d.world turns d'.root w →
        (∀ m, d.game.field.teleport = none → w.game.field.teleport = some m →
          ∃ before x after, turns = before ++ x :: after ∧ x.Reserves m) ∧
        ∀ before x after m, turns = before ++ x :: after → x.Reserves m →
          x.Sets ∧ x.Followed m after ∧ Arrived m d'.game.field := by
  have hd := h.manned
  obtain ⟨w, hupdate, harrived⟩ := arrived_of_fieldTick hd _ _ ht
  have htraced := Interpreter.traced_of_update levels d.root d.world _ _ hupdate
  refine ⟨w, hupdate, htraced, fun turns hturns => ⟨fun m hnone hm => ?_, ?_⟩⟩
  · exact hturns.exists_reserves hnone hm
  · rintro before x after m rfl hx
    obtain ⟨hsets, hfollowed, hm⟩ := hturns.reserved hd.root.calls hx
    exact ⟨hsets, hfollowed, harrived m hm⟩

/-- The event on the first map calls a common event, which moves the player to the second map and
then notes the place where the player is. -/
def crossing : Database where
  maps := [
    { id := 1, events := [{ id := 1, pages := [{
        trigger := .autoStart
        commands := [{ code := FieldOp.callEvent.code, params := [0, 1] }] }] }] },
    { id := 2 }]
  commonEvents := [{ id := 1, commands := [
    { code := FieldOp.teleport.code, params := [2, 3, 4] },
    { code := FieldOp.memorizeLocation.code, params := [1, 2, 3] }] }]

/-- The common event notes the place before the move, and so the first map, although the move is
made only at the end of the tick. -/
theorem crossing_notes_old_map : crossing.validate = .ok () ∧ ∃ d d' w m,
    Reachable crossing default d ∧ fieldTick d = .ok ((), d') ∧
    d.root.update d.env levels d.world = .ok (d'.root, w) ∧
    (∃ turns before x after, Interpreter.Traced d.env (Interpreter.budget d.env) d.root.frame
      d.root.calls d.world turns d'.root w ∧ turns = before ++ x :: after ∧ x.Reserves m) ∧
    w.game.vars.get 1 = 1 ∧ Arrived m d'.game.field ∧ d'.game.field.id = 2 := by
  have hvalid : crossing.validate = .ok () := by rfl
  have hrun : ∃ d, fieldTick (begin crossing default) = .ok ((), d) ∧
      (d.game.field.teleport = none ∧
        (d.root.update d.env levels d.world).toOption.map
          (fun p => (p.2.game.field.teleport.map (·.mapId), p.2.game.vars.get 1)) =
            some (some 2, 1) ∧
        ∃ d', fieldTick d = .ok ((), d') ∧ d'.game.field.id = 2) := by
    decide +kernel
  obtain ⟨d, hfirst, hfree, hvalues, d', htick, hmap⟩ := hrun
  have hreach : Reachable crossing default d := ⟨[.tick], (bind_of_ok hfirst).trans rfl⟩
  obtain ⟨w, hupdate, ⟨turns, hturns⟩, hrow⟩ := teleport_in_tick hreach htick
  rw [hupdate] at hvalues
  obtain ⟨hmove, hnoted⟩ := Prod.mk.inj (Option.some.inj hvalues)
  obtain ⟨m, hm, -⟩ := Option.map_eq_some_iff.1 hmove
  obtain ⟨hreserved, hturn⟩ := hrow turns hturns
  obtain ⟨before, x, after, hsplit, hx⟩ := hreserved m hfree hm
  obtain ⟨-, -, harrived⟩ := hturn before x after m hsplit hx
  exact ⟨hvalid, d, d', w, m, hreach, htick, hupdate,
    ⟨turns, before, x, after, hturns, hsplit, hx⟩, hnoted, harrived, hmap⟩

end Director

end EventScript
