import EventScript.Proofs.TurnDeeds
import EventScript.Proofs.UsualCommands

/-!
# What few commands do

Only a teleport reserves a move of the player, and only a call is reported as too deep.

* `World.marks` are the reserved move and the number of those reports, and `Act.KeepsMarks` says
  that an act leaves them as they are, as everything does that moves by itself.
* `Commands.keepsMarks_perform`: so does every command, in every context, but for the two that move
  the player to another map; `Commands.plans_perform` tells what those do.
* `Frame.marks_of_turn` tells what a turn does to the marks.
-/

namespace EventScript

/-- How often events were reported that call each other too deep. -/
def World.tooDeep (w : World) : Nat := w.warnings.count .callTooDeep

/-- The reserved move, and the number of reports of calls too deep. -/
def World.marks (w : World) : Option Teleport × Nat := (w.game.field.teleport, w.tooDeep)

theorem World.marks_eq_iff {w w' : World} : w'.marks = w.marks ↔
    w'.game.field.teleport = w.game.field.teleport ∧ w'.tooDeep = w.tooDeep :=
  Prod.mk.injEq .. ▸ Iff.rfl

theorem Field.teleport_setCharacter (d : Field) (id self : Number) (c : Character) :
    (d.setCharacter id self c).teleport = d.teleport := by
  unfold setCharacter
  split <;> rfl

theorem Field.teleport_setVehicle (d : Field) (kind : Number) (v : Vehicle) :
    (d.setVehicle kind v).teleport = d.teleport := by
  unfold setVehicle
  split <;> rfl

/-- Two worlds with the same marks. -/
def World.SameMarks (w w' : World) : Prop := w'.marks = w.marks

namespace World

theorem SameMarks.of_teleport {w : World} {g : Game}
    (h : g.field.teleport = w.game.field.teleport) : w.SameMarks { w with game := g } :=
  marks_eq_iff.2 ⟨h, rfl⟩

instance : AllowsDepartures SameMarks where
  refl _ := rfl
  trans h h' := Eq.trans h' h
  warn h := marks_eq_iff.2 ⟨rfl, Array.count_push_of_ne h⟩
  emit _ _ := rfl
  aside hfield _ _ := .of_teleport (by rw [hfield])
  ground h := by
    simp only [Prod.mk.injEq] at h
    exact .of_teleport h.2.2.2
  character _ _ := .of_teleport (Field.teleport_setCharacter _ _ _ _)
  erases _ _ := rfl
  halts _ := rfl
  vehicle _ _ := .of_teleport (Field.teleport_setVehicle _ _ _)
  fights _ _ := rfl
  departs h := by
    simp only [Prod.mk.injEq] at h
    exact .of_teleport h.2.2
  breaks _ _ := rfl

instance : AllowsTime SameMarks where
  toAllowsDeeds := inferInstance
  frames _ _ := rfl
  clocks _ := rfl
  pages _ _ := rfl
  starts _ := rfl

end World

/-- An act that leaves the marks as they are. -/
abbrev Act.KeepsMarks {α : Type} (a : Act α) : Prop := a.Within World.SameMarks

namespace Commands

open Act

variable {f : Frame} {c : Command}

/-- A move is reserved where none was. Then the root hands over the tick past the command, and any
other frame goes on after it. -/
structure Reserves (f : Frame) (w : World) (o : Outcome) (w' : World) : Prop where
  free : w.game.field.teleport = none
  reserved : w'.game.field.teleport.isSome = true
  asks : o = if f.isRoot then .rest f.pc else .next f.pc

/-- The reserved move stays as it is, or one is reserved; no call is reported. -/
structure Plans (f : Frame) (w : World) (o : Outcome) (w' : World) : Prop where
  tooDeep : w'.tooDeep = w.tooDeep
  move : w'.game.field.teleport = w.game.field.teleport ∨ Reserves f w o w'

theorem plans_of_keepsMarks {a : Act Outcome} (h : a.KeepsMarks) (f : Frame) (w : World) :
    Ensures a w (Plans f w) :=
  (h w).imp fun _ _ hw => by
    obtain ⟨hmove, hdeep⟩ := World.marks_eq_iff.1 hw
    exact ⟨hdeep, .inl hmove⟩

theorem plans_planTeleport (env : Env) (f : Frame) (t : Teleport) (w : World) :
    Ensures (planTeleport env f t) w (Plans f w) := by
  simp only [planTeleport, modifyField, ensures_bind, ensures_getGame, ensures_ite,
    ensures_modifyGame, ensures_pure]
  refine ⟨fun _ => ⟨rfl, .inl rfl⟩, fun hfree => ?_⟩
  have hnone : w.game.field.teleport = none := by
    cases h : w.game.field.teleport with
    | none => rfl
    | some t => simp [h] at hfree
  exact ⟨rfl, .inr ⟨hnone, rfl, rfl⟩⟩

theorem plans_teleport (env : Env) (f : Frame) (c : Command) (w : World) :
    Ensures (teleport env f c) w (Plans f w) := by
  unfold teleport
  simp only [ensures_bind, ensures_ite, ensures_check, ensures_pure]
  exact ⟨fun _ _ _ => plans_planTeleport env f _ w, fun _ => plans_planTeleport env f _ w⟩

/-- On the same map the player is there at once, so that nothing is reserved. -/
theorem plans_recallLocation (env : Env) (f : Frame) (c : Command) (w : World) :
    Ensures (recallLocation env f c) w (Plans f w) := by
  simp only [recallLocation, modifyField, ensures_bind, ensures_getGame, ensures_ite,
    ensures_modifyGame, ensures_pure]
  exact ⟨fun _ => ⟨rfl, .inl rfl⟩, fun _ => plans_planTeleport env f _ w⟩

theorem keepsMarks_perform (env : Env) {f : Frame} {c : Command} (h : movesPlayer f c = false) :
    (perform env f c).KeepsMarks :=
  within_perform_of_departs env h

theorem keepsMarks_goOn (env : Env) (f : Frame) (k : Awaited) : (goOn env f k).KeepsMarks :=
  within_goOn env f k

theorem plans_perform (env : Env) (f : Frame) (c : Command) (w : World) :
    Ensures (perform env f c) w (Plans f w) := by
  cases hmoves : movesPlayer f c with
  | false => exact plans_of_keepsMarks (keepsMarks_perform env hmoves) f w
  | true =>
    unfold movesPlayer at hmoves
    unfold perform
    split at hmoves
    · next op hcontext hop =>
      rw [hcontext, hop]
      cases op with
      | teleport => exact plans_teleport env f c w
      | recallToLocation => exact plans_recallLocation env f c w
      | _ => cases hmoves
    · cases hmoves

/-- Only a command that moves the player reserves a move. -/
theorem Reserves.movesPlayer {env : Env} {f : Frame} {c : Command} {o : Outcome} {w w' : World}
    (h : Reserves f w o w') (hc : perform env f c w = .ok (o, w')) :
    movesPlayer f c = true := by
  cases hmoves : Commands.movesPlayer f c with
  | true => rfl
  | false =>
    have hkept := (World.marks_eq_iff.1 (keepsMarks_perform env hmoves w o w' hc)).1
    have hreserved := h.reserved
    rw [hkept, h.free] at hreserved
    cases hreserved

end Commands

namespace Frame

open Act

theorem keepsMarks_finish (f : Frame) : f.finish.KeepsMarks := by
  unfold finish
  refine .guarded (within_modifyGame fun w => .of_teleport ?_) within_pure
  dsimp only
  split <;> rfl

theorem keepsMarks_queuedEvent (env : Env) : (queuedEvent env).KeepsMarks := by
  refine within_getGame fun w => ?_
  split
  · exact within_pure w
  · next id _ =>
    refine ensures_bind.2 (ensures_setGame.2 ?_)
    -- `guarded` takes the warning and the answer after it as one act.
    have hrest : (do
        if (env.data.commonEvent? id).isNone then warn .queuedEventNotFound
        return env.data.commonEvent? id : Act (Option CommonEvent)).KeepsMarks :=
      .guarded (within_warn (by decide)) within_pure
    exact hrest _

theorem keepsMarks_startFieldEvent (env : Env) (f : Frame) :
    (f.startFieldEvent env).KeepsMarks := by
  intro w
  refine (setsOff_of_startFieldEvent env f w).imp fun s w' h => ?_
  cases h with
  | nothing => rfl
  | passes | starts => rfl

theorem keepsMarks_startNext (env : Env) (f : Frame) : (f.startNext env).KeepsMarks := by
  refine .bind within_read fun g => .guarded (within_modifyGame fun _ => rfl) ?_
  refine .bind (keepsMarks_queuedEvent env) fun e => ?_
  split
  · exact Within.map within_check
  · refine .bind (keepsMarks_startFieldEvent env f) fun s => ?_
    split
    · exact within_pure
    · refine .bind within_read fun g => ?_
      split
      · exact Within.map within_check
      · exact within_pure

end Frame

/-- How many calls a turn reports: the one that goes one level past the limit. -/
def Turn.reports (t : Turn) (limit : UInt32) : Nat :=
  match t.called with
  | some c => if c.depth.toNat = limit.toNat + 1 then 1 else 0
  | none => 0

namespace Frame

open Act

theorem tooDeep_of_callee (env : Env) (f : Frame) (commands : List Command) (owner : Number)
    (w : World) : Ensures (f.callee env commands owner) w fun c w' => w'.game = w.game ∧
      w'.tooDeep = w.tooDeep +
        if c.depth.toNat = env.data.config.depthWarning.toNat + 1 then 1 else 0 := by
  simp only [callee, ensures_bind, ensures_check, ensures_ite, ensures_warn, ensures_getGame]
  intro depth _ limit hlimit
  have hlimit := toNat_of_add_one hlimit
  refine ⟨fun hreport c hc => ⟨trivial, ?_⟩, fun hreport c hc => ⟨trivial, ?_⟩⟩
  · have hdepth : c.depth = depth := (startedAs_of_start hc).depth
    rw [hdepth, hreport, hlimit, if_pos rfl]
    exact Array.count_push_self ..
  · have hdepth : c.depth = depth := (startedAs_of_start hc).depth
    rw [hdepth, ← hlimit, if_neg fun h => hreport (UInt32.toNat_inj.1 h), Nat.add_zero]

/-- A turn in which the command at hand reserves a move. The frame goes on after the command: the
root in the next tick, and any other frame in the same. -/
structure SetsMove (f : Frame) (w : World) (t : Turn) (w' : World) : Prop where
  free : w.game.field.teleport = none
  reserved : w'.game.field.teleport.isSome = true
  command : ∃ c, f.commands[f.pc]? = some c ∧ Commands.movesPlayer f c = true
  frame : t.frame = f.goto f.pc
  called : t.called = none
  signal : t.signal = if f.isRoot then .yield else .again

/-- What a turn does to the marks. -/
structure Marks (env : Env) (f : Frame) (w : World) (t : Turn) (w' : World) : Prop where
  tooDeep : w'.tooDeep = w.tooDeep + t.reports env.data.config.depthWarning
  move : w'.game.field.teleport = w.game.field.teleport ∨ f.SetsMove w t w'

variable {env : Env} {f : Frame} {w w' : World} {t : Turn}

theorem marks_of_kept (h : w'.marks = w.marks) (hcalled : t.called = none) :
    f.Marks env w t w' := by
  obtain ⟨hmove, hdeep⟩ := World.marks_eq_iff.1 h
  refine ⟨?_, .inl hmove⟩
  rw [Turn.reports, hcalled]
  exact hdeep

/-- The marks after a command asked its frame for something. -/
theorem tooDeep_of_settle (env : Env) (f : Frame) (o : Outcome) (w : World) :
    Ensures (f.settle env o) w fun t w' => w'.game = w.game ∧
      w'.tooDeep = w.tooDeep + t.reports env.data.config.depthWarning := by
  cases o with
  | call commands owner =>
    refine Ensures.bind (tooDeep_of_callee env f commands owner w) fun c u hc => ?_
    exact ensures_pure.2 hc
  | _ => exact ensures_pure.2 ⟨rfl, rfl⟩

/-- The turn of a command that reserves a move. -/
theorem setsMove_of_settle {o : Outcome} {u : World} (h : Commands.Reserves f w o u)
    (hc : ∃ c, f.commands[f.pc]? = some c ∧ Commands.movesPlayer f c = true)
    (ht : f.settle env o u = .ok (t, w')) : f.SetsMove w t w' := by
  obtain ⟨hfree, hreserved, hasks⟩ := h
  rw [hasks] at ht
  cases hroot : f.isRoot with
  | true =>
    rw [hroot] at ht
    cases ht
    exact ⟨hfree, hreserved, hc, rfl, rfl, by rw [hroot]; rfl⟩
  | false =>
    rw [hroot] at ht
    cases ht
    exact ⟨hfree, hreserved, hc, rfl, rfl, by rw [hroot]; rfl⟩

theorem marks_of_proceeds (h : f.Proceeds env w t w') : f.Marks env w t w' := by
  cases h with
  | held | ended => exact marks_of_kept rfl rfl
  | @resumes k o u _ _ _ _ ho ht =>
    obtain ⟨hmove, hdeep⟩ := World.marks_eq_iff.1 (Commands.keepsMarks_goOn env f.ready k w o u ho)
    obtain ⟨hgame, hreports⟩ := tooDeep_of_settle env f.ready o u t w' ht
    exact ⟨by rw [hreports, hdeep], .inl (by rw [hgame, hmove])⟩
  | @performs c o u _ _ _ _ hc ho ht =>
    obtain ⟨hgame, hreports⟩ := tooDeep_of_settle env f o u t w' ht
    obtain ⟨hdeep, hmove⟩ := Commands.plans_perform env f c w o u ho
    refine ⟨by rw [hreports, hdeep], ?_⟩
    rcases hmove with hmove | hmove
    · exact .inl (by rw [hgame, hmove])
    · exact .inr (setsMove_of_settle hmove ⟨c, hc, hmove.movesPlayer ho⟩ ht)
  | finishes _ _ _ hf => exact marks_of_kept (keepsMarks_finish f w _ _ hf) rfl
  | starts _ _ hf | idles _ _ hf => exact marks_of_kept (keepsMarks_startNext env f w _ _ hf) rfl

/-- The same after what leaves the marks as they are and ends the wait of the frame. -/
theorem marks_of_ready {u : World} (hu : u.marks = w.marks) (h : f.ready.Proceeds env u t w') :
    f.Marks env w t w' := by
  obtain ⟨hmove, hdeep⟩ := World.marks_eq_iff.1 hu
  obtain ⟨hreports, hmoved⟩ := marks_of_proceeds h
  refine ⟨by rw [hreports, hdeep], ?_⟩
  rcases hmoved with hmoved | ⟨hfree, hreserved, hcommand, hframe, hcalled, hsignal⟩
  · exact .inl (by rw [hmoved, hmove])
  · exact .inr ⟨hmove ▸ hfree, hreserved, hcommand, hframe, hcalled, hsignal⟩

theorem marks_of_turn (env : Env) (f : Frame) (w : World) :
    Ensures (f.turn env) w (f.Marks env w) := by
  refine (turns_of_turn env f w).imp fun t w' h => ?_
  cases h with
  | reads | follows | counts => exact marks_of_kept rfl rfl
  | polls _ hpoll =>
    have hkept := Commands.within_pollKeys (R := World.SameMarks) env _ w _ _ hpoll
    exact marks_of_kept hkept rfl
  | hits _ hpoll h =>
    have hkept := Commands.within_pollKeys (R := World.SameMarks) env _ w _ _ hpoll
    exact marks_of_ready hkept h
  | followed _ _ h => exact marks_of_ready rfl h
  | goes _ _ h => exact marks_of_proceeds h

end Frame

end EventScript
