import EventScript.Proofs.Roles

/-!
# Who holds the locks of the map

The root locks an event when it takes it up, and releases it when it leaves its list. In between it
may lose sight of the map, and of its owner with it.

* `Frame.LocksExactly` says that the events of the map that are locked are the one that a frame runs
  for, or none.
* `Interpreter.guards_of_update`: an update of a root keeps this, whatever its events do; and after
  one a root that has an owner has it on this map, which `Frame.AtHome` says.
-/

namespace EventScript

open Act

namespace Game

/-- No event of the map is locked, and all have positive ids. -/
def Released (g : Game) : Prop := ∀ id b, g.lockOf id = some b → 0 < id ∧ b = false

variable {g g' : Game}

theorem lockOf_insert (g : Game) (id : Number) (e : Character) (j : Number) :
    Game.lockOf { g with field := { g.field with events := g.field.events.insert id e } } j =
      if j = id then some e.locked else g.lockOf j := by
  rw [lockOf, IdMap.get?_insert]
  split <;> rfl

/-- When the event is released that runs, and the window is closed, no event is locked. -/
theorem released_of_release {owner : Number}
    (h : ∀ id b, g.lockOf id = some b → 0 < id ∧ (b = true → owner = id)) :
    Released { g with
      message := g.message.close
      field := if 0 < owner then g.field.release owner else g.field } := by
  intro id b hb
  by_cases howner : 0 < owner
  · simp only [lockOf, if_pos howner, Field.release, IdMap.get?_modify] at hb
    split at hb
    · next hid =>
      subst hid
      rw [Option.map_map, Option.map_eq_some_iff] at hb
      obtain ⟨e, -, rfl⟩ := hb
      exact ⟨howner, rfl⟩
    · next hid =>
      obtain ⟨hpos, hlock⟩ := h id b hb
      exact ⟨hpos, Bool.eq_false_iff.2 fun hb => hid (hlock hb).symm⟩
  · simp only [lockOf, if_neg howner] at hb
    obtain ⟨hpos, hlock⟩ := h id b hb
    exact ⟨hpos, Bool.eq_false_iff.2 fun hb => howner (hlock hb ▸ hpos)⟩

/-- Only the locks count. -/
theorem Released.congr (h : g.Released) (hlocks : ∀ id, g'.lockOf id = g.lockOf id) : g'.Released :=
  fun id b hb => h id b (by rwa [← hlocks])

end Game

namespace Frame

/-- The frame runs for an event of the map. -/
structure Owns (f : Frame) (g : Game) (id : Number) : Prop where
  running : f.isRunning = true
  owner : f.owner = id
  mapId : f.mapId = g.field.id

theorem owns_iff {f : Frame} {g : Game} {id : Number} : f.Owns g id ↔
    f.isRunning = true ∧ f.owner = id ∧ f.mapId = g.field.id :=
  ⟨fun h => ⟨h.running, h.owner, h.mapId⟩, fun h => ⟨h.1, h.2.1, h.2.2⟩⟩

/-- The events of the map have positive ids, and one is locked where the frame runs for it. -/
def LocksExactly (f : Frame) (g : Game) : Prop :=
  ∀ id b, g.lockOf id = some b → 0 < id ∧ (b = true ↔ f.Owns g id)

/-- A frame that has an owner has it on this map. -/
def AtHome (f : Frame) (g : Game) : Prop := f.mapId = g.field.id ∨ f.owner = 0

variable {f f' : Frame} {g g' : Game}

theorem LocksExactly.released (h : f.LocksExactly g) (hend : f.isRunning = false) : g.Released := by
  intro id b hb
  obtain ⟨hid, hlock⟩ := h id b hb
  refine ⟨hid, Bool.eq_false_iff.2 fun hb => ?_⟩
  exact Bool.false_ne_true (hend.symm.trans (hlock.1 hb).running)

/-- Where no event is locked, it is enough that the frame runs for none. -/
theorem locksExactly_of_released (h : g.Released) (hf : ∀ id, 0 < id → ¬ f.Owns g id) :
    f.LocksExactly g := by
  intro id b hb
  obtain ⟨hid, rfl⟩ := h id b hb
  exact ⟨hid, iff_of_false Bool.false_ne_true (hf id hid)⟩

theorem not_owns_of_ended (hend : f.isRunning = false) (id : Number) : ¬ f.Owns g id :=
  fun h => Bool.false_ne_true (hend.symm.trans h.running)

theorem not_owns_of_owner (howner : f.owner = 0) {id : Number} (hid : 0 < id) : ¬ f.Owns g id :=
  fun h => Int32.lt_irrefl (a := 0) (by rwa [← h.owner, howner] at hid)

theorem LocksExactly.congr (h : f.LocksExactly g) (hlocks : ∀ id, g'.lockOf id = g.lockOf id)
    (howns : ∀ id, f'.Owns g' id ↔ f.Owns g id) : f'.LocksExactly g' := by
  intro id b hb
  rw [hlocks] at hb
  obtain ⟨hid, hlock⟩ := h id b hb
  exact ⟨hid, hlock.trans (howns id).symm⟩

/-- The frame stands in the same list, and the agenda is the same. -/
theorem LocksExactly.of_same (h : f.LocksExactly g) (hl : f.SameList f') (hg : g.SameAgenda g') :
    f'.LocksExactly g' := by
  obtain ⟨hid, hlocks, -⟩ := Game.sameAgenda_iff.1 hg
  refine h.congr hlocks fun id => ?_
  constructor
  · rintro ⟨hrun, howner, hmap⟩
    exact ⟨hl.isRunning.symm.trans hrun, hl.owner.symm.trans howner,
      (hl.mapId.symm.trans hmap).trans hid⟩
  · rintro ⟨hrun, howner, hmap⟩
    exact ⟨hl.isRunning.trans hrun, hl.owner.trans howner, (hl.mapId.trans hmap).trans hid.symm⟩

theorem AtHome.of_same (h : f.AtHome g) (hl : f.SameList f') (hg : g.SameAgenda g') :
    f'.AtHome g' := by
  obtain ⟨hid, -, -⟩ := Game.sameAgenda_iff.1 hg
  rw [AtHome, hl.mapId, hl.owner, hid]
  exact h

/-- A frame that forgets its owner has it on another map, where its event is not locked. -/
theorem LocksExactly.forgetOwner (h : f.LocksExactly g) :
    (f.forgetOwner g.field.id).LocksExactly g := by
  unfold Frame.forgetOwner
  split
  · exact h
  · next hmap =>
    refine h.congr (fun _ => rfl) fun id => ?_
    exact iff_of_false (fun ho => hmap ho.mapId) fun ho => hmap ho.mapId

theorem atHome_forgetOwner (f : Frame) (g : Game) : (f.forgetOwner g.field.id).AtHome g := by
  unfold Frame.forgetOwner
  split
  · next hmap => exact .inl hmap
  · exact .inr rfl

/-! ## What a turn does -/

/-- Leaving its list the root releases its event. -/
theorem released_of_finish (hf : f.IsTop) (w : World) (h : f.LocksExactly w.game) :
    Ensures f.finish w fun f' w' => f' = f.leave ∧ w'.game.Released ∧
      w'.game.field.id = w.game.field.id := by
  have hroot : (f.isRoot && f.depth = 0) = true := by simp [hf.isRoot, hf.depth]
  simp only [finish, if_pos hroot, ensures_bind, ensures_modifyGame, ensures_pure]
  refine ⟨trivial, Game.released_of_release fun id b hb => ?_, ?_⟩
  · obtain ⟨hid, hlock⟩ := h id b hb
    exact ⟨hid, fun hb => (hlock.1 hb).owner⟩
  · split <;> rfl

/-- What the root holds when it has looked for an event on a map: nothing, or the one that it has
started. -/
def Takes (f : Frame) (mapId : Number) (s : Option Frame) (g' : Game) : Prop :=
  g'.field.id = mapId ∧ match s with
    | none => g'.Released
    | some s => s.LocksExactly g' ∧ s.AtHome g' ∧ s.isRoot = f.isRoot ∧ s.depth = f.depth

/-- A list without an owner is started where no event is locked. -/
theorem takes_of_started {commands : List Command} {s : Frame} {mapId : Number} (h : g'.Released)
    (hid : g'.field.id = mapId) (hs : f.StartedAs s commands 0 g'.field.id) :
    f.Takes mapId (some s) g' :=
  ⟨hid, locksExactly_of_released h fun _ => not_owns_of_owner hs.owner, .inr hs.owner, hs.isRoot,
    hs.depth⟩

/-- The event that is started is locked, and no other. -/
theorem takes_of_startFieldEvent (env : Env) (f : Frame) (w : World) (h : w.game.Released) :
    Ensures (f.startFieldEvent env) w fun s w' => f.Takes w.game.field.id s w'.game := by
  refine (setsOff_of_startFieldEvent env f w).imp fun s w' hsets => ?_
  have hfree {id : Number} {e : Character} (he : w.game.field.events.get? id = some e) :=
    h id e.locked (by rw [Game.lockOf, he]; rfl)
  cases hsets with
  | nothing => exact ⟨rfl, h⟩
  | passes _ he =>
    obtain ⟨hid, hlocked⟩ := hfree he
    refine ⟨rfl, fun j b hj => ?_⟩
    rw [Game.takenUp, Game.lockOf_insert] at hj
    split at hj
    · next hji =>
      cases hj
      exact ⟨hji ▸ hid, hlocked⟩
    · exact h j b hj
  | @starts _ _ _ s _ he _ hne hs =>
    obtain ⟨hid, -⟩ := hfree he
    have hstart := startedAs_of_start hs
    refine ⟨rfl, fun j b hj => ?_, .inl hstart.mapId, hstart.isRoot, hstart.depth⟩
    rw [Game.takenUp, Game.lockOf_insert] at hj
    split at hj
    · next hji =>
      cases hj
      have hrun : s.isRunning = true := by simpa [isRunning, hstart.commands] using hne
      exact ⟨hji ▸ hid, iff_of_true rfl ⟨hrun, hstart.owner.trans hji.symm, hstart.mapId⟩⟩
    · next hji =>
      obtain ⟨hpos, rfl⟩ := h j b hj
      refine ⟨hpos, iff_of_false Bool.false_ne_true fun ho => hji ?_⟩
      exact ho.owner.symm.trans hstart.owner

/-- What the root takes up comes from the queue, from the map or by itself. -/
theorem takes_of_startNext (env : Env) (f : Frame) (w : World) (h : w.game.Released) :
    Ensures (f.startNext env) w fun s w' => f.Takes w.game.field.id s w'.game := by
  have hreleased : (w.game.looked env.data).unqueued.Released := by
    unfold Game.looked
    split
    · exact h.congr (Game.sameAgenda_iff.1 (w.game.sameAgenda_showPages env.data)).2.1
    · exact h
  have hmap : (w.game.looked env.data).unqueued.field.id = w.game.field.id :=
    w.game.mapId_looked env.data
  refine (seeks_of_startNext env f w).imp fun s w' hseeks => ?_
  cases hseeks with
  | queued hu _ hs =>
    rw [← hu] at hreleased hmap
    rw [← hmap] at hs
    exact takes_of_started hreleased hmap (startedAs_of_start hs)
  | due hu hs =>
    rw [← hu] at hreleased hmap
    exact hmap ▸ takes_of_startFieldEvent env f _ hreleased _ _ hs
  | automatic hu hnone _ hs =>
    rw [← hu] at hreleased hmap
    obtain ⟨hid, hfree⟩ := takes_of_startFieldEvent env f _ hreleased _ _ hnone
    exact takes_of_started hfree (hid.trans hmap) (startedAs_of_start hs)
  | nothing hu hnone =>
    rw [← hu] at hreleased hmap
    exact hmap ▸ takes_of_startFieldEvent env f _ hreleased _ _ hnone

/-- A frame that holds the locks of its map exactly, and has its owner there. -/
structure Guards (f : Frame) (g : Game) : Prop where
  locks : f.LocksExactly g
  home : f.AtHome g

theorem Guards.of_same (h : f.Guards g) (hl : f.SameList f') (hg : g.SameAgenda g') :
    f'.Guards g' :=
  ⟨h.locks.of_same hl hg, h.home.of_same hl hg⟩

theorem guards_of_proceeds {env : Env} {w w' : World} {t : Turn} (hf : f.IsTop)
    (h : f.Guards w.game) (hp : f.Proceeds env w t w') : t.frame.Guards w'.game := by
  cases hp with
  | held | ended => exact h
  | @resumes k o u _ _ _ _ ho ht =>
    have hs := ensures_settle env f.ready o u t w' ht
    have hkeeps : w.game.SameAgenda w'.game :=
      hs.game ▸ Commands.keepsAgenda_goOn env f.ready k w o u ho
    exact (h.of_same f.sameList_ready (.refl _)).of_same hs.list hkeeps
  | @performs c o u _ _ _ _ _ ho ht =>
    have hs := ensures_settle env f o u t w' ht
    exact h.of_same hs.list (hs.game ▸ Commands.keepsAgenda_perform env f c w o u ho)
  | finishes _ _ _ hfinish =>
    obtain ⟨rfl, hreleased, hmap⟩ := released_of_finish hf w h.locks _ _ hfinish
    refine ⟨locksExactly_of_released hreleased fun id _ => not_owns_of_ended rfl id, ?_⟩
    rw [AtHome, hmap]
    exact h.home
  | starts hrun _ hstart =>
    obtain ⟨-, hlocks, hhome, -, -⟩ :=
      takes_of_startNext env f w (h.locks.released hrun) _ _ hstart
    exact ⟨hlocks, hhome⟩
  | idles hrun _ hstart =>
    obtain ⟨hmap, hreleased⟩ := takes_of_startNext env f w (h.locks.released hrun) _ _ hstart
    refine ⟨locksExactly_of_released hreleased fun id _ => not_owns_of_ended hrun id, ?_⟩
    rw [AtHome, hmap]
    exact h.home

/-- A turn of the root keeps the locks in order. -/
theorem guards_of_turn (env : Env) (hf : f.IsTop) (w : World) (h : f.Guards w.game) :
    Ensures (f.turn env) w fun t w' => t.frame.Guards w'.game := by
  refine (turns_of_turn env f w).imp fun t w' ht => ?_
  have hready : f.ready.IsTop := ⟨hf.context, hf.isRoot, hf.depth, fun _ => .inl rfl⟩
  have hpolls (k : KeyCapture) : (Commands.pollKeys env k).KeepsAgenda :=
    Commands.within_pollKeys env k
  cases ht with
  | reads | follows => exact h
  | counts => exact h.of_same ⟨rfl, rfl, rfl, rfl, rfl, rfl⟩ (.refl _)
  | polls _ hpoll =>
    exact h.of_same ⟨rfl, rfl, rfl, rfl, rfl, rfl⟩ (hpolls _ w _ _ hpoll)
  | followed _ _ hp => exact guards_of_proceeds hready (h.of_same f.sameList_ready (.refl _)) hp
  | hits _ hpoll hp =>
    have hkeeps := hpolls _ w _ _ hpoll
    exact guards_of_proceeds hready (h.of_same f.sameList_ready hkeeps) hp
  | goes _ _ hp => exact guards_of_proceeds hf h hp

end Frame

namespace Interpreter

open EventScript.Frame

variable {env : Env} {f : Frame} {calls : List Frame} {i : Interpreter} {w w' : World}

/-- An update of the root keeps the locks in order. -/
theorem Updated.guards (h : Updated env f calls w i w') (hf : f.IsTop)
    (hcalls : ∀ c ∈ calls, c.isRoot = false) (hg : f.Guards w.game) : i.frame.Guards w'.game := by
  induction h with
  | spent => exact hg
  | @forgets f _ w _ _ _ ih =>
    exact ih (hf.forgetOwner _) hcalls ⟨hg.locks.forgetOwner, atHome_forgetOwner f w.game⟩
  | @yields f w w' t ht _ => exact guards_of_turn env hf w hg t w' ht
  | @again f w w' _ t _ ht _ _ ih =>
    obtain ⟨htop, hcalled⟩ := isTop_of_turn hf w t w' ht
    exact ih htop hcalled (guards_of_turn env hf w hg t w' ht)
  | @inner f c cs w w' i h _ _ =>
    obtain ⟨hw, -⟩ := h.keeps (keptByTurns_agenda env w.game) hcalls (.refl _)
    exact hg.of_same (.refl f) hw
  | @ended f c cs w w' _ _ _ h _ _ _ ih =>
    obtain ⟨hw, -⟩ := h.keeps (keptByTurns_agenda env w.game) hcalls (.refl _)
    exact ih hf nofun (hg.of_same (.refl f) hw)

/-- An update of the root keeps the locks in order, and if it has a budget at all, the root is at
home afterwards. -/
theorem guards_of_update (hbudget : env.data.config.maxIterations ≠ 0) (levels : Nat)
    (hi : i.IsTop) (w : World) (h : i.frame.LocksExactly w.game) :
    Ensures (i.update env levels) w fun j w' => j.frame.Guards w'.game := by
  intro j w' hu
  rw [update, ← updateFrames_forgetOwner hbudget] at hu
  have hu' := updated_of_updateFrames levels _ _ w j w' hu
  exact hu'.guards (hi.frame.forgetOwner _) hi.calls
    ⟨h.forgetOwner, atHome_forgetOwner i.frame w.game⟩

end Interpreter

end EventScript
