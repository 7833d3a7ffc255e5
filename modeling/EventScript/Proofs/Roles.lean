import EventScript.Proofs.Agenda
import EventScript.Proofs.Agents
import EventScript.Proofs.Calls
import EventScript.Proofs.Updates

/-!
# The root and those beside it

Of all interpreters only the root looks for events to run. It is idle at first and whenever its list
has ended, and it waits for nothing then.

* `Interpreter.IsTop` says what a root is, and `Interpreter.isTop_of_update` that updates keep it
  so.
* `Interpreter.sameAgenda_of_update`: an update of anything else locks and releases no event and
  takes nothing from the queue.
* `Director.undisturbed_of_part`: so the root and its map stay as they are in every part of a call
  that is not about them.
* `Director.Reachable.manned`: at every moment the roles are dealt like that.
-/

namespace EventScript

open Act

namespace Frame

variable {env : Env} {f : Frame}

/-- The frame that runs for whoever owns a director. It waits for nothing when it has left its
list. -/
structure IsTop (f : Frame) : Prop where
  context : f.context = .field
  isRoot : f.isRoot = true
  depth : f.depth = 0
  ended : f.isRunning = false → f.pause = .ready ∨ f.pause = .animation

theorem IsTop.forgetOwner (hf : f.IsTop) (mapId : Number) : (f.forgetOwner mapId).IsTop := by
  unfold Frame.forgetOwner
  split <;> exact ⟨hf.context, hf.isRoot, hf.depth, hf.ended⟩

theorem isTop_idle : (idle .field 0 true).IsTop := ⟨rfl, rfl, rfl, fun _ => .inl rfl⟩

/-! ## What a turn does -/

theorem sameList_ready (f : Frame) : f.SameList f.ready := ⟨rfl, rfl, rfl, rfl, rfl, rfl⟩

theorem sameAgenda_of_proceeds {env : Env} {w w' : World} {t : Turn} (hf : f.isRoot = false)
    (hp : f.Proceeds env w t w') : w.game.SameAgenda w'.game := by
  cases hp with
  | held | ended => exact .refl _
  | @resumes k o u _ _ _ _ ho ht =>
    have hs := ensures_settle env f.ready o u t w' ht
    exact hs.game ▸ Commands.keepsAgenda_goOn env f.ready k w o u ho
  | @performs c o u _ _ _ _ _ ho ht =>
    have hs := ensures_settle env f o u t w' ht
    exact hs.game ▸ Commands.keepsAgenda_perform env f c w o u ho
  | finishes _ _ _ hfinish =>
    simp only [finish, hf, Bool.false_and, Bool.false_eq_true, if_false] at hfinish
    cases hfinish
    exact .refl _
  | starts _ hroot | idles _ hroot => exact absurd (hf.symm.trans hroot) Bool.false_ne_true

/-- A turn of a frame that looks for no event locks and releases nothing. -/
theorem sameAgenda_of_turn (env : Env) (hf : f.isRoot = false) (w : World) :
    Ensures (f.turn env) w fun _ w' => w.game.SameAgenda w'.game := by
  have hpolls (k : KeyCapture) : (Commands.pollKeys env k).KeepsAgenda :=
    Commands.within_pollKeys env k
  refine (turns_of_turn env f w).imp fun t w' ht => ?_
  cases ht with
  | reads | follows | counts => exact .refl _
  | polls _ hpoll => exact hpolls _ w _ _ hpoll
  | followed _ _ hp => exact sameAgenda_of_proceeds (f := f.ready) hf hp
  | @hits _ _ u _ _ hpoll hp =>
    have hpolled : w.game.SameAgenda u.game := hpolls _ w _ _ hpoll
    exact hpolled.trans (sameAgenda_of_proceeds (f := f.ready) hf hp)
  | goes _ _ hp => exact sameAgenda_of_proceeds hf hp

/-- Having left its list a frame waits for nothing, whatever it takes up. -/
theorem pause_of_turn (hend : f.isRunning = false) (hf : f.pause = .ready ∨ f.pause = .animation)
    (w : World) :
    Ensures (f.turn env) w fun t _ => t.frame.pause = .ready ∨ t.frame.pause = .animation := by
  have hpause (p : Pause) (hready : p ≠ .ready) (hplays : p ≠ .animation) : f.pause ≠ p := by
    rcases hf with hf | hf <;> rw [hf]
    · exact hready.symm
    · exact hplays.symm
  refine (turns_of_turn env f w).imp fun t w' ht => ?_
  cases ht with
  | reads => exact hf
  | follows hk | followed _ hk | polls hk | hits hk | counts _ hk =>
    exact absurd hk (hpause _ nofun nofun)
  | goes _ _ hp =>
    cases hp with
    | held | ended | idles => exact hf
    | resumes _ hk => exact absurd hk (hpause _ nofun nofun)
    | performs _ _ hc =>
      exact absurd (hend.symm.trans (isRunning_of_mem (List.mem_of_getElem? hc))) Bool.false_ne_true
    | finishes _ _ hrun => exact absurd (hend.symm.trans hrun) Bool.false_ne_true
    | starts _ _ hstart =>
      obtain ⟨-, hs⟩ := ensures_startNext env f w _ _ hstart
      exact .inl (hs _ rfl).pause

end Frame

namespace Interpreter

open EventScript.Frame

variable {env : Env} {f : Frame} {calls : List Frame} {i : Interpreter} {w w' : World}

/-- The interpreter of the root, whose events look for nothing themselves. -/
structure IsTop (i : Interpreter) : Prop where
  frame : i.frame.IsTop
  calls : ∀ c ∈ i.calls, c.isRoot = false

theorem isTop_idle : (idle .field 0 true).IsTop := ⟨Frame.isTop_idle, nofun⟩

/-- No frame of the interpreter looks for events. -/
def IsServant (i : Interpreter) : Prop := ∀ f ∈ i.frames, f.isRoot = false

theorem keptByTurns_agenda (env : Env) (g : Game) :
    KeptByTurns env (fun w => g.SameAgenda w.game) fun f => f.isRoot = false where
  forget f mapId hf := by
    unfold Frame.forgetOwner
    split <;> exact hf
  turn f w hf hw := by
    intro t w' ht
    obtain ⟨hturned, -⟩ := turned_of_turn env f w t w' ht
    refine ⟨hw.trans (sameAgenda_of_turn env hf w t w' ht), hturned.isRoot.trans hf, ?_⟩
    intro c hc
    obtain ⟨-, _, _, _, _, hby⟩ := hturned.called c hc
    exact hby.isRoot

/-- An update of an interpreter that looks for no event locks and releases nothing. -/
theorem sameAgenda_of_update (levels : Nat) (hi : i.IsServant) (w : World) :
    Ensures (i.update env levels) w fun j w' => w.game.SameAgenda w'.game ∧ j.IsServant :=
  fun j w' hu => (updated_of_update levels i w j w' hu).keeps (keptByTurns_agenda env w.game) hi
    (.refl _)

theorem isTop_of_turn (hf : f.IsTop) (w : World) : Ensures (f.turn env) w fun t _ =>
    t.frame.IsTop ∧ ∀ c ∈ t.called.toList, c.isRoot = false := by
  intro t w' ht
  obtain ⟨hturned, -⟩ := turned_of_turn env f w t w' ht
  refine ⟨⟨hturned.context.trans hf.context, hturned.isRoot.trans hf.isRoot,
    hturned.depth.trans hf.depth, fun hend => ?_⟩, fun c hc => ?_⟩
  · cases hrun : f.isRunning with
    | true => exact hturned.ended hrun hend
    | false => exact pause_of_turn hrun (hf.ended hrun) w t w' ht
  · obtain ⟨-, _, _, _, _, hby⟩ := hturned.called c (Option.mem_toList.1 hc)
    exact hby.isRoot

theorem Updated.isTop (h : Updated env f calls w i w') (hf : f.IsTop)
    (hcalls : ∀ c ∈ calls, c.isRoot = false) : i.IsTop := by
  induction h with
  | spent => exact ⟨hf, hcalls⟩
  | forgets _ ih => exact ih (hf.forgetOwner _) hcalls
  | yields ht _ =>
    obtain ⟨htop, hcalled⟩ := isTop_of_turn hf _ _ _ ht
    exact ⟨htop, hcalled⟩
  | again ht _ _ ih =>
    obtain ⟨htop, hcalled⟩ := isTop_of_turn hf _ _ _ ht
    exact ih htop hcalled
  | inner h _ _ => exact ⟨hf, (h.keeps (keptByTurns_agenda env _) hcalls (.refl _)).2⟩
  | ended _ _ _ _ ih' => exact ih' hf nofun

/-- Updates keep the root a root. -/
theorem isTop_of_update (levels : Nat) (hi : i.IsTop) (w : World) :
    Ensures (i.update env levels) w fun j _ => j.IsTop :=
  (updated_of_update levels i w).imp fun _ _ h => h.isTop hi.frame hi.calls

end Interpreter

namespace Director

variable {data : Database} {d d' : Director}

/-- Nobody but the root looks for events. -/
def Staffed (d : Director) : Prop := ∀ a, a ≠ .root → (d.interpreter a).IsServant

/-- The root stays as it is, and so do the map, the locks of its events and the queue. -/
structure Undisturbed (d d' : Director) : Prop where
  data : d'.data = d.data
  root : d'.root = d.root
  agenda : d.game.SameAgenda d'.game
  staffed : d'.Staffed

theorem Undisturbed.trans {d'' : Director} (h : Undisturbed d d') (h' : Undisturbed d' d'') :
    Undisturbed d d'' :=
  ⟨h'.data.trans h.data, h'.root.trans h.root, h.agenda.trans h'.agenda, h'.staffed⟩

/-! ## Parts that leave the root alone -/

theorem isServant_of_start {i j : Interpreter} {commands : List Command} {owner mapId : Number}
    (hi : i.IsServant) (hj : i.start commands owner mapId = .ok j) : j.IsServant := by
  obtain ⟨f, rfl, hf⟩ := Interpreter.startedAs_of_start hj
  refine List.forall_mem_singleton.2 ?_
  rw [hf.isRoot]
  exact hi _ List.mem_cons_self

theorem isServant_idle (context : Context) :
    (Interpreter.idle context 0 false).IsServant :=
  List.forall_mem_singleton.2 rfl

/-- Whether a part leaves the root and its map alone. -/
def Part.sparesRoot : Part → Bool
  | update .root | teleport | order .abandon => false
  | _ => true

/-- A change that concerns neither the root nor the agenda, and no other interpreter. -/
theorem undisturbed_of_game (hs : d.Staffed) {w : World} (hw : d.game.SameAgenda w.game) :
    Undisturbed d { d with world := w } :=
  ⟨rfl, rfl, hw, fun a ha => interpreter_withWorld d w a ▸ hs a ha⟩

/-- A servant takes the place of another. -/
theorem undisturbed_withInterpreter (hs : d.Staffed) {w : World} {a : Agent} {i : Interpreter}
    (ha : a ≠ .root) (hw : d.game.SameAgenda w.game) (hi : i.IsServant) :
    Undisturbed d (withInterpreter { d with world := w } a i) := by
  refine ⟨data_withInterpreter _ a i, ?_, ?_, fun b hb => ?_⟩
  · exact (interpreter_withInterpreter { d with world := w } a .root i).trans (if_neg ha.symm)
  · rw [Director.game, Director.game, world_withInterpreter]
    exact hw
  · rw [interpreter_withInterpreter, interpreter_withWorld]
    split
    · exact hi
    · exact hs b hb

/-- No order but the one to drop what runs concerns the root or its map. -/
theorem spared_of_order {o : Order} (ho : (Part.order o).sparesRoot = true) (d : Director) :
    Ensures o.run d fun _ d' => d'.root = d.root ∧ d.game.SameAgenda d'.game := by
  cases o with
  | abandon => cases ho
  | talkTo id =>
    simp only [Order.run, talkTo, ensures_bind, Directing.ensures_act, ensures_getGame,
      ensures_setGame, ensures_pure]
    refine ⟨trivial, ?_⟩
    unfold Field.setOff
    split
    · exact .of_field rfl (Field.seen_modify fun _ _ => rfl)
    · exact .refl _
  | dismiss choice =>
    simp only [Order.run, dismiss, Directing.ensures_act, ensures_modifyGame]
    exact ⟨trivial, .refl _⟩
  | enterNumber value =>
    simp only [Order.run, enterNumber, ensures_bind, Directing.ensures_act, ensures_getGame,
      needRefresh, ensures_modifyGame]
    have hset : (setVariable d.game.message.numberVariable value).KeepsAgenda :=
      within_setVariable _ _
    exact (hset d.world).imp fun _ w hw => ⟨trivial, hw⟩
  | leaveShop purchases =>
    simp only [Order.run, leaveShop, ensures_bind, Directing.ensures_act, ensures_modifyGame]
    intro bought u hu
    obtain ⟨w, rfl, hw⟩ := trades_purchases (R := World.Over Game.SameAgenda) _ _ _ _ hu
    exact ⟨rfl, hw⟩
  | giveName name =>
    simp only [Order.run, giveName, ensures_bind, Directing.ensures_act, ensures_getGame,
      ensures_ite, ensures_warn, ensures_setGame]
    exact ⟨fun _ => ⟨trivial, .refl _⟩, fun _ => ⟨trivial, .refl _⟩⟩
  | leaveMenu =>
    simp only [Order.run, leaveMenu, ensures_bind, Directing.ensures_act, ensures_getGame,
      ensures_ite, ensures_check, ensures_pure, ensures_setGame]
    exact ⟨fun _ _ _ => ⟨trivial, .refl _⟩, fun _ => ⟨trivial, .refl _⟩⟩
  | openBattle =>
    simp only [Order.run, openBattle, ensures_bind, Directing.ensures_get, ensures_ite,
      Directing.ensures_act, ensures_warn, ensures_check, ensures_setGame, Directing.ensures_modify]
    exact ⟨fun _ _ _ => ⟨trivial, .refl _⟩, fun _ _ _ => ⟨trivial, .refl _⟩⟩
  | passTurn =>
    simp only [Order.run, passTurn, ensures_bind, Directing.ensures_act, ensures_getGame]
    split
    · simp only [ensures_bind, Directing.ensures_act, ensures_check, ensures_setGame,
        Directing.ensures_modify]
      exact fun _ _ => ⟨trivial, .refl _⟩
    · simp only [Directing.ensures_modify]
      exact ⟨trivial, .refl _⟩
  | settleBattle result =>
    simp only [Order.run, settleBattle, ensures_bind, Directing.ensures_act, ensures_getGame,
      ensures_check, ensures_setGame, Directing.ensures_modify]
    exact fun _ _ => ⟨trivial, .refl _⟩
  | attach host => exact Directing.ensures_modify.2 ⟨rfl, .refl _⟩

theorem undisturbed_of_part {p : Part} (hp : p.sparesRoot = true) (hs : d.Staffed) :
    Ensures p.run d fun _ d' => Undisturbed d d' := by
  cases p with
  | teleport => cases hp
  | update a =>
    have ha : a ≠ .root := by
      rintro rfl
      cases hp
    simp only [Part.run, updateAgent, ensures_bind, Directing.ensures_get, ensures_update,
      Directing.ensures_modify]
    refine (Interpreter.sameAgenda_of_update levels (hs a ha) d.world).imp ?_
    rintro j w ⟨hw, hj⟩
    exact undisturbed_withInterpreter hs ha hw hj
  | bindCommon id =>
    simp only [Part.run, bindCommon, ensures_bind, Directing.ensures_get]
    split
    · simp only [ensures_bind, ensures_start, Directing.ensures_modify]
      intro j hj
      exact undisturbed_withInterpreter (a := .common id) hs (by simp) (.refl _)
        (isServant_of_start (hs (.common id) (by simp)) hj)
    · exact ensures_pure.2 (undisturbed_of_game hs (.refl _))
  | bindPage id =>
    simp only [Part.run, bindPage, ensures_bind, Directing.ensures_get]
    split
    · simp only [ensures_bind, ensures_start, Directing.ensures_modify]
      refine fun j hj => ⟨rfl, rfl, .refl _, fun a ha => ?_⟩
      rw [interpreter_insertPage]
      split
      · exact isServant_of_start (hs (.parallel id) (by simp)) hj
      · exact hs a ha
    · exact ensures_pure.2 (undisturbed_of_game hs (.refl _))
  | dropCommons =>
    refine Directing.ensures_modify.2 ⟨rfl, rfl, .refl _, fun a ha => ?_⟩
    cases a with
    | root | parallel | battle => exact hs _ ha
    | common id =>
      simp only [interpreter, IdMap.get?_keep]
      split
      · exact hs (.common id) ha
      · exact isServant_idle .field
  | dropPages =>
    refine Directing.ensures_modify.2 ⟨rfl, rfl, .refl _, fun a ha => ?_⟩
    cases a with
    | root | common | battle => exact hs _ ha
    | parallel id =>
      simp only [interpreter, pageRun, IdMap.get?_keep]
      split
      · exact hs (.parallel id) ha
      · exact isServant_idle .field
  | bindTroop =>
    simp only [Part.run, ensures_bind, ensures_pure]
    refine (binds_of_startNextPage d).imp fun started d' h => ?_
    cases h with
    | none hgame => exact ⟨rfl, rfl, hgame ▸ .refl _, fun a ha => hs a ha⟩
    | page hgame _ _ hstart =>
      have hbattle := isServant_of_start (hs .battle (by decide)) hstart
      refine ⟨rfl, rfl, hgame ▸ .refl _, fun a ha => ?_⟩
      cases a with
      | battle => exact hbattle
      | root | common | parallel => exact hs _ ha
  | world =>
    simp only [Part.run, tickWorld, ensures_bind, Directing.ensures_get, Directing.ensures_act]
    have htick : (tick d.data).KeepsAgenda := within_tick _
    exact (htick d.world).imp fun _ w hw => undisturbed_of_game hs hw
  | order o =>
    intro r d' hr
    obtain ⟨hroot, hagenda⟩ := spared_of_order hp d r d' hr
    have hobeyed := obeyed_of_order o d r d' hr
    refine ⟨hobeyed.data, hroot, hagenda, fun a ha => ?_⟩
    cases a with
    | root => exact absurd rfl ha
    | common id => simpa only [interpreter, hobeyed.common] using hs (.common id) ha
    | parallel id => simpa only [interpreter, pageRun, hobeyed.parallel] using hs (.parallel id) ha
    | battle =>
      rcases hobeyed.battle with hbattle | hbattle
      · simpa only [interpreter, hbattle] using hs .battle ha
      · simpa only [interpreter, hbattle] using isServant_idle .battle

/-! ## The roles are kept -/

/-- The root is a root, and nobody else looks for events. -/
structure Manned (data : Database) (d : Director) : Prop where
  data : d.data = data
  root : d.root.IsTop
  staffed : d.Staffed

theorem Manned.of_undisturbed (h : Manned data d) (hd : Undisturbed d d') : Manned data d' :=
  ⟨hd.data.trans h.data, hd.root ▸ h.root, hd.staffed⟩

theorem manned_begin (data : Database) (random : Random) : Manned data (begin data random) where
  data := rfl
  root := Interpreter.isTop_idle
  staffed a ha := by
    cases a with
    | root => exact absurd rfl ha
    | common | parallel | battle => exact isServant_idle _

/-- Another interpreter takes the place of the root. -/
theorem Manned.withRoot (h : Manned data d) {i : Interpreter} (hi : i.IsTop) (w : World) :
    Manned data { d with root := i, world := w } where
  data := h.data
  root := hi
  staffed a ha := by
    cases a with
    | root => exact absurd rfl ha
    | common | parallel | battle => exact h.staffed _ ha

theorem manned_updateRoot (h : Manned data d) :
    Ensures updateRoot d fun _ d' => Manned data d' := by
  simp only [updateRoot, ensures_bind, Directing.ensures_get, ensures_update,
    Directing.ensures_modify]
  exact (Interpreter.isTop_of_update levels h.root d.world).imp fun _ w hi => h.withRoot hi w

theorem manned_abandon (h : Manned data d) : Ensures abandon d fun _ d' => Manned data d' := by
  simp only [abandon, ensures_bind, Directing.ensures_act, ensures_warn, Directing.ensures_get,
    Directing.ensures_modify, ensures_modifyGame]
  exact h.withRoot Interpreter.isTop_idle _

theorem manned_carryTeleport (h : Manned data d) :
    Ensures carryTeleport d fun _ d' => Manned data d' := by
  have hstaffed : { d with parallel := ∅ }.Staffed := by
    intro a ha
    cases a with
    | root | common | battle => exact h.staffed _ ha
    | parallel id => exact isServant_idle .field
  simp only [carryTeleport, ensures_bind, Directing.ensures_act, ensures_getGame]
  split
  · exact ensures_pure.2 h
  · simp only [ensures_bind, Directing.ensures_act, ensures_modifyGame, ensures_ite,
      Directing.ensures_get, Directing.ensures_modify]
    refine ⟨fun _ => ensures_run.imp fun _ w _ => ⟨h.data, h.root, hstaffed⟩, fun _ => ?_⟩
    exact ⟨h.data, h.root, h.staffed⟩

/-- The way to another map concerns neither the root nor a battle. -/
theorem root_of_carryTeleport (d : Director) : Ensures carryTeleport d fun _ d' =>
    d'.root = d.root ∧ d'.game.troop = d.game.troop := by
  have hentered (g : Game) (id : Number) : (g.enterMap d.data id).troop = g.troop := by
    unfold Game.enterMap
    split <;> rfl
  simp only [carryTeleport, ensures_bind, Directing.ensures_act, ensures_getGame]
  split
  · exact ensures_pure.2 ⟨rfl, rfl⟩
  · next t _ =>
    simp only [ensures_bind, Directing.ensures_act, ensures_modifyGame, ensures_ite,
      Directing.ensures_get, Directing.ensures_modify, enterMap, ensures_warn]
    have hmoved := hentered { d.game with field := { d.game.field with teleport := none } } t.mapId
    exact ⟨fun _ => ⟨fun _ => ⟨trivial, hmoved⟩, fun _ => ⟨trivial, hmoved⟩⟩,
      fun _ => ⟨trivial, rfl⟩⟩

/-- Every part keeps the roles. -/
theorem manned_of_part (p : Part) (h : Manned data d) :
    Ensures p.run d fun _ d' => Manned data d' := by
  by_cases hspares : p.sparesRoot = true
  · exact (undisturbed_of_part hspares h.staffed).imp fun _ _ hd => h.of_undisturbed hd
  · match p, hspares with
    | .update .root, _ => exact manned_updateRoot h
    | .teleport, _ => exact manned_carryTeleport h
    | .order .abandon, _ => exact manned_abandon h

theorem Reachable.manned {random : Random} (h : Reachable data random d) : Manned data d :=
  h.leads.keeps (I := Manned data) (fun p _ hd => manned_of_part p hd) (manned_begin data random)

/-- What runs beside the root leaves it alone. -/
theorem composes_undisturbed : Composes Part.isBeside fun d d' => d.Staffed → Undisturbed d d' where
  refl _ hs := undisturbed_of_game hs (.refl _)
  trans h h' hs := (h hs).trans (h' (h hs).staffed)
  part p d hp r d' hr hs := by
    refine undisturbed_of_part ?_ hs r d' hr
    cases p with
    | update a => cases a with
      | common | parallel => rfl
      | root | battle => cases hp
    | bindCommon | bindPage | dropCommons | dropPages => rfl
    | bindTroop | world | teleport | order => cases hp

end Director

end EventScript
