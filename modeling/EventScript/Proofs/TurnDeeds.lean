import EventScript.Proofs.Turns

/-!
# What a turn leaves

* `Frame.Seeks` lists how the root comes by something to run, and `Frame.SetsOff` what becomes of
  the event of the map that is to start.
* `Frame.Turned` tells what a turn leaves of the frame, and which frame it calls.
* `Frame.Acts` tells what a turn does to the game: it notes what it writes, does the deed of one
  command, or, at the root, looks at the pages.
-/

namespace EventScript

open Act

namespace Database

/-- The first common event that starts by itself and has something to run. -/
def automatic? (d : Database) (g : Game) : Option CommonEvent :=
  d.commonEvents.find? fun e =>
    e.trigger = .autoStart && g.isSwitchedOn e && !e.commands.isEmpty

end Database

namespace Game

/-- The game after a look at the pages where one is asked for. -/
def looked (g : Game) (d : Database) : Game :=
  if g.field.needRefresh then g.showPages d else g

theorem mapId_looked (g : Game) (d : Database) : (g.looked d).field.id = g.field.id := by
  unfold looked
  split <;> rfl

theorem troop_looked (g : Game) (d : Database) : (g.looked d).troop = g.troop := by
  unfold looked
  split <;> rfl

/-- The game with no common event in the queue. -/
def unqueued (g : Game) : Game := { g with scene := { g.scene with commonEventId := none } }

theorem noted_unqueued (g : Game) : g.Noted g.unqueued := .of_observed rfl

/-- The game with an event taken up, which waits for its start no longer. -/
def takenUp (g : Game) (id : Number) (e : Character) (locked : Bool) : Game :=
  { g with field := { g.field with
      events := g.field.events.insert id { e with starting := false, locked } } }

theorem noted_takenUp {g : Game} {id : Number} {e : Character}
    (he : g.field.events.get? id = some e) (locked : Bool) : g.Noted (g.takenUp id e locked) := by
  refine .of_events fun j => ?_
  rw [IdMap.get?_insert, shownPage]
  split
  · next hj => rw [hj, he]; rfl
  · rfl

end Game

namespace Frame

/-! ## What the root starts -/

/-- What the root starts comes from the database and takes the place of the root. -/
structure StartedFrom (d : Database) (f s : Frame) (mapId : Number) : Prop where
  context : s.context = f.context
  depth : s.depth = f.depth
  isRoot : s.isRoot = f.isRoot
  commands : s.commands ∈ d.lists
  mapId : s.mapId = mapId
  pause : s.pause = .ready

theorem StartedAs.startedFrom {d : Database} {f s : Frame} {commands : List Command}
    {owner mapId : Number} (h : f.StartedAs s commands owner mapId) (hl : commands ∈ d.lists) :
    StartedFrom d f s mapId :=
  ⟨h.context, h.depth, h.isRoot, h.commands ▸ hl, h.mapId, h.pause⟩

/-- What becomes of the event of the map that is to start. Without commands it is passed over. -/
inductive SetsOff (env : Env) (f : Frame) (w : World) : Option Frame → World → Prop
  | nothing (hdue : ∀ id, w.game.field.dueEvent? = some id → w.game.field.events.get? id = none) :
      SetsOff env f w none w
  | passes {id : Number} {e : Character} (hdue : w.game.field.dueEvent? = some id)
      (he : w.game.field.events.get? id = some e)
      (hnil : (env.data.pageCommands? w.game.field.id id e.page).getD [] = []) :
      SetsOff env f w none { w with game := w.game.takenUp id e e.locked }
  | starts {id : Number} {e : Character} {commands : List Command} {s : Frame}
      (hdue : w.game.field.dueEvent? = some id) (he : w.game.field.events.get? id = some e)
      (hpage : env.data.pageCommands? w.game.field.id id e.page = some commands)
      (hne : commands.isEmpty = false) (hs : f.start commands id w.game.field.id = .ok s) :
      SetsOff env f w (some { s with byDecision := e.trigger = .action })
        { w with game := w.game.takenUp id e true }

theorem setsOff_of_startFieldEvent (env : Env) (f : Frame) (w : World) :
    Ensures (f.startFieldEvent env) w fun s w' => f.SetsOff env w s w' := by
  simp only [startFieldEvent, ensures_bind, ensures_getGame]
  cases hdue : w.game.field.dueEvent? with
  | none => exact ensures_pure.2 (.nothing fun id h => by rw [hdue] at h; cases h)
  | some id =>
    dsimp only
    cases he : w.game.field.events.get? id with
    | none => exact ensures_pure.2 (.nothing fun j h => by rw [hdue] at h; cases h; exact he)
    | some e =>
      simp only [ensures_bind, ensures_setGame, ensures_ite, ensures_pure, ensures_check]
      refine ⟨fun hempty => ?_, fun hne s hs => ?_⟩
      · rw [hempty, Bool.not_true, Bool.or_false]
        exact .passes hdue he (List.isEmpty_iff.1 hempty)
      · rw [Bool.eq_false_iff.2 hne, Bool.not_false, Bool.or_true]
        cases hpage : env.data.pageCommands? w.game.field.id id e.page with
        | none => rw [hpage] at hne; exact absurd rfl hne
        | some commands =>
          rw [hpage] at hne hs
          exact .starts hdue he hpage (Bool.eq_false_iff.2 hne) hs

theorem ensures_startFieldEvent (env : Env) (f : Frame) (w : World) :
    Ensures (f.startFieldEvent env) w fun s w' => w.game.Noted w'.game ∧
      ∀ s', s = some s' → StartedFrom env.data f s' w.game.field.id := by
  refine (setsOff_of_startFieldEvent env f w).imp fun s w' h => ?_
  cases h with
  | nothing => exact ⟨.refl _, fun s' hs' => by cases hs'⟩
  | passes _ he => exact ⟨Game.noted_takenUp he _, fun s' hs' => by cases hs'⟩
  | starts _ he hpage _ hs =>
    refine ⟨Game.noted_takenUp he _, fun s' hs' => ?_⟩
    cases hs'
    obtain ⟨hcontext, hdepth, hroot, hcommands, -, hmap, -, hpause⟩ := startedAs_of_start hs
    have hl := Database.pageCommands?_mem_lists hpage
    exact ⟨hcontext, hdepth, hroot, hcommands ▸ hl, hmap, hpause⟩

theorem ensures_queuedEvent (env : Env) (w : World) :
    Ensures (queuedEvent env) w fun e w' => w'.game = w.game.unqueued ∧
      e = w.game.scene.commonEventId.bind env.data.commonEvent? := by
  simp only [queuedEvent, ensures_bind, ensures_getGame]
  cases hqueue : w.game.scene.commonEventId with
  | none => exact ensures_pure.2 ⟨by rw [Game.unqueued, ← hqueue], rfl⟩
  | some id =>
    simp only [ensures_bind, ensures_setGame, ensures_ite, ensures_warn, ensures_pure]
    exact ⟨fun _ => ⟨rfl, rfl⟩, fun _ => ⟨rfl, rfl⟩⟩

/-- How the root looks for something to run: after a look at the pages it looks into the queue, at
the events of the map, and at the common events that start by themselves. -/
inductive Seeks (env : Env) (f : Frame) (w : World) : Option Frame → World → Prop
  | queued {e : CommonEvent} {s : Frame} {u : World}
      (hu : u.game = (w.game.looked env.data).unqueued)
      (he : (w.game.looked env.data).scene.commonEventId.bind env.data.commonEvent? = some e)
      (hs : f.start e.commands 0 w.game.field.id = .ok s) : Seeks env f w (some s) u
  | due {s : Frame} {u w' : World} (hu : u.game = (w.game.looked env.data).unqueued)
      (hs : f.startFieldEvent env u = .ok (some s, w')) : Seeks env f w (some s) w'
  | automatic {e : CommonEvent} {s : Frame} {u w' : World}
      (hu : u.game = (w.game.looked env.data).unqueued)
      (hnone : f.startFieldEvent env u = .ok (none, w'))
      (he : env.data.automatic? w'.game = some e)
      (hs : f.start e.commands 0 w'.game.field.id = .ok s) : Seeks env f w (some s) w'
  | nothing {u w' : World} (hu : u.game = (w.game.looked env.data).unqueued)
      (hnone : f.startFieldEvent env u = .ok (none, w'))
      (he : env.data.automatic? w'.game = none) : Seeks env f w none w'

/-- What is done after a look at the pages, if one is asked for. -/
theorem ensures_looked {α : Type} {d : Database} {rest : Game → Act α} {w : World}
    {Q : α → World → Prop}
    (h : ∀ v, v.game = w.game.looked d → Ensures (rest w.game) v Q) :
    Ensures (do
      let g ← getGame
      if g.field.needRefresh then do showPages d; rest g else rest g) w Q := by
  simp only [ensures_bind, ensures_getGame, ensures_ite, showPages, ensures_modifyGame]
  refine ⟨fun hask => ?_, fun hask => ?_⟩
  · exact h _ (if_pos hask).symm
  · exact h _ (if_neg hask).symm

theorem seeks_of_startNext (env : Env) (f : Frame) (w : World) :
    Ensures (f.startNext env) w fun s w' => f.Seeks env w s w' := by
  refine ensures_looked fun v hv => Ensures.bind (ensures_queuedEvent env v) ?_
  rw [hv]
  rintro e u ⟨hu, he⟩
  cases e with
  | some e =>
    simp only [ensures_map, ensures_check]
    exact fun s hs => .queued hu he.symm hs
  | none =>
    refine ensures_bind.2 fun s w' hs => ?_
    cases s with
    | some s => exact ensures_pure.2 (.due hu hs)
    | none =>
      simp only [ensures_bind, ensures_getGame]
      split
      · next e hauto =>
        simp only [ensures_map, ensures_check]
        exact fun s hstart => .automatic hu hs hauto hstart
      · next hauto => exact ensures_pure.2 (.nothing hu hs hauto)

theorem ensures_startNext (env : Env) (f : Frame) (w : World) :
    Ensures (f.startNext env) w fun s w' => (w.game.looked env.data).Noted w'.game ∧
      ∀ s', s = some s' → StartedFrom env.data f s' w.game.field.id := by
  have hqueue := (w.game.looked env.data).noted_unqueued
  have hmap : (w.game.looked env.data).unqueued.field.id = w.game.field.id :=
    w.game.mapId_looked env.data
  refine (seeks_of_startNext env f w).imp fun s w' h => ?_
  cases h with
  | queued hu he hs =>
    obtain ⟨id, -, he⟩ := Option.bind_eq_some_iff.1 he
    refine ⟨hu ▸ hqueue, fun s' hs' => ?_⟩
    cases hs'
    exact (startedAs_of_start hs).startedFrom (Database.commonEvent?_mem_lists he)
  | due hu hs =>
    obtain ⟨hnoted, hs⟩ := ensures_startFieldEvent env f _ _ _ hs
    rw [hu] at hnoted hs
    exact ⟨hqueue.trans hnoted, hmap ▸ hs⟩
  | automatic hu hnone he hs =>
    obtain ⟨hnoted, -⟩ := ensures_startFieldEvent env f _ _ _ hnone
    rw [hu] at hnoted
    rw [hnoted.mapId, hmap] at hs
    refine ⟨hqueue.trans hnoted, fun s' hs' => ?_⟩
    cases hs'
    refine (startedAs_of_start hs).startedFrom ?_
    simp only [Database.lists, List.mem_append, List.mem_map]
    exact .inl (.inl ⟨_, List.mem_of_find?_eq_some he, rfl⟩)
  | nothing hu hnone =>
    obtain ⟨hnoted, hs⟩ := ensures_startFieldEvent env f _ _ _ hnone
    rw [hu] at hnoted hs
    exact ⟨hqueue.trans hnoted, hmap ▸ hs⟩

theorem ensures_finish (f : Frame) (w : World) :
    Ensures f.finish w fun f' w' => w.game.Noted w'.game ∧ f' = f.leave := by
  simp only [finish, ensures_bind, ensures_ite, ensures_modifyGame, ensures_pure, and_true]
  exact ⟨fun _ => .of_release w.game f.owner, fun _ => .refl _⟩

/-! ## The frame after a turn -/

/-- A frame that waits for an answer has commands left, and waits for a battle in the field only. -/
def Waiting (f : Frame) : Prop :=
  ∀ k, f.pause = .goOn k → f.isRunning = true ∧ (k = .battle → f.context = .field)

theorem waiting_of_pause {f : Frame} (h : ∀ k, f.pause ≠ .goOn k) : f.Waiting :=
  fun k hk => absurd hk (h k)

/-- What a turn leaves of a frame of the tree of calls. A frame stays in its list, leaves it, or, at
the root, starts another. It calls a list that a command of its own may call. -/
structure Turned (env : Env) (f : Frame) (t : Turn) (w' : World) : Prop where
  context : t.frame.context = f.context
  depth : t.frame.depth = f.depth
  isRoot : t.frame.isRoot = f.isRoot
  commands : t.frame.commands = f.commands ∨ t.frame.commands = [] ∨
    f.isRoot = true ∧ t.frame.commands ∈ env.data.lists
  place : f.isRoot = false → t.frame.mapId = f.mapId ∧ t.frame.owner = f.owner
  ended : f.isRunning = true → t.frame.isRunning = false →
    t.frame.pause = .ready ∨ t.frame.pause = .animation
  called : ∀ c, t.called = some c → t.frame.commands = f.commands ∧
    ∃ x ∈ f.commands, ∃ callee ∈ x.callees env.data, f.CalledBy c callee w'.game.field.id
  waiting : f.Waiting → t.frame.Waiting

theorem SameList.isRunning {f f' : Frame} (h : f.SameList f') : f'.isRunning = f.isRunning := by
  simp only [Frame.isRunning, h.commands]

theorem isRunning_of_mem {f : Frame} {c : Command} (hc : c ∈ f.commands) : f.isRunning = true := by
  cases h : f.commands with
  | nil => rw [h] at hc; cases hc
  | cons => simp [Frame.isRunning, h]

/-- A turn that leaves the frame in its list. -/
theorem SameList.turned {env : Env} {f : Frame} {t : Turn} {w' : World} (h : f.SameList t.frame)
    (hw : f.Waiting → t.frame.Waiting)
    (hc : ∀ c, t.called = some c →
      ∃ x ∈ f.commands, ∃ callee ∈ x.callees env.data, f.CalledBy c callee w'.game.field.id) :
    f.Turned env t w' where
  context := h.context
  depth := h.depth
  isRoot := h.isRoot
  commands := .inl h.commands
  place _ := ⟨h.mapId, h.owner⟩
  ended hrun hend := by rw [h.isRunning, hrun] at hend; cases hend
  called c hcalled := ⟨h.commands, hc c hcalled⟩
  waiting := hw

/-- What a turn does to the game. -/
inductive Acts (env : Env) (f : Frame) (t : Turn) (g g' : Game) : Prop
  | notes (h : g.Noted g')
  | deed (c : Command) (hc : c ∈ f.commands) (o : Outcome)
      (h : Deed (c.callees env.data) c.resets? o g g')
      (hawaits : ∀ p k, o = .await p k →
        t.frame.pause = .goOn k ∧ t.called = none ∧ t.signal = .yield)
  | looks (hroot : f.isRoot = true) (h : (g.looked env.data).Noted g')

theorem turned_of_proceeds {env : Env} {f : Frame} {w w' : World} {t : Turn}
    (hpause : f.pause = .ready ∨ f.pause = .animation ∨ ∃ k, f.pause = .goOn k)
    (h : f.Proceeds env w t w') : f.Turned env t w' ∧ f.Acts env t w.game w'.game := by
  cases h with
  | held => exact ⟨(SameList.refl f).turned id nofun, .notes (.refl _)⟩
  | ended => exact ⟨(SameList.refl f).turned id nofun, .notes (.refl _)⟩
  | @resumes k o u _ _ _ hk ho ht =>
    obtain ⟨hnoted, hplain⟩ := Commands.plain_goOn env f.ready k w o u ho
    have hs := ensures_settle env f.ready o u t w' ht
    have hl : f.SameList t.frame := ⟨hs.list.context, hs.list.depth, hs.list.isRoot,
      hs.list.commands, hs.list.owner, hs.list.mapId⟩
    refine ⟨hl.turned (fun hw k' hk' => ?_) fun c hc => ?_, .notes (hs.game ▸ hnoted)⟩
    · refine ⟨hl.isRunning.trans (hw k hk).1, ?_⟩
      rintro rfl
      rcases hs.asked _ hk' with hr | ⟨p, rfl⟩
      · cases hr
      · cases hplain
    · obtain ⟨call, hcall', -⟩ := hs.called c hc
      rw [Outcome.called?_of_isPlain hplain] at hcall'
      cases hcall'
  | @performs c o u _ _ _ hk hc ho ht =>
    have hdeed := Commands.deed_perform env f c w o u ho
    have hs := ensures_settle env f o u t w' ht
    have hmem : c ∈ f.commands := List.mem_of_getElem? hc
    refine ⟨hs.list.turned (fun _ k hk' => ?_) fun c' hc' => ?_,
      .deed c hmem o (hs.game ▸ hdeed) hs.awaits⟩
    · obtain ⟨p, hp⟩ := (hs.asked k hk').resolve_left (hk k)
      refine ⟨hs.list.isRunning.trans (isRunning_of_mem hmem), ?_⟩
      rintro rfl
      rw [hs.list.context]
      cases hcontext : f.context with
      | field => rfl
      | battle => exact absurd hp (Commands.ne_await_of_perform env hcontext c w o u ho p)
    · obtain ⟨call, hcall, hby⟩ := hs.called c' hc'
      rw [← hs.game] at hby
      exact ⟨c, hmem, call.1, hdeed.called call hcall, hby⟩
  | finishes hk hc hrun hf =>
    obtain ⟨hnoted, rfl⟩ := ensures_finish f w _ _ hf
    refine ⟨⟨rfl, rfl, rfl, .inr (.inl rfl), fun _ => ⟨rfl, rfl⟩, fun _ _ => ?_, nofun,
      fun _ => waiting_of_pause hk⟩, .notes hnoted⟩
    rcases hpause with hp | hp | ⟨k, hp⟩
    · exact .inl hp
    · exact .inr hp
    · exact absurd hp (hk k)
  | starts hrun hroot hf =>
    obtain ⟨hnoted, hs⟩ := ensures_startNext env f w _ _ hf
    have hs := hs _ rfl
    refine ⟨⟨hs.context, hs.depth, hs.isRoot, .inr (.inr ⟨hroot, hs.commands⟩), fun h => ?_,
      fun h => ?_, nofun, fun _ => waiting_of_pause (by rw [hs.pause]; exact nofun)⟩,
      .looks hroot hnoted⟩
    · rw [hroot] at h; cases h
    · rw [hrun] at h; cases h
  | idles hrun hroot hf =>
    obtain ⟨hnoted, -⟩ := ensures_startNext env f w _ _ hf
    exact ⟨(SameList.refl f).turned id nofun, .looks hroot hnoted⟩

theorem turned_of_ready {env : Env} {f : Frame} {w w' : World} {t : Turn}
    (h : f.ready.Proceeds env w t w') : f.Turned env t w' ∧ f.Acts env t w.game w'.game := by
  obtain ⟨ht, ha⟩ := turned_of_proceeds (.inl rfl) h
  refine ⟨⟨ht.context, ht.depth, ht.isRoot, ht.commands, ht.place, ht.ended, fun c hc => ?_,
    fun _ => ht.waiting (waiting_of_pause nofun)⟩, ?_⟩
  · obtain ⟨hl, x, hx, callee, hcallee, hby⟩ := ht.called c hc
    exact ⟨hl, x, hx, callee, hcallee, hby.context, hby.depth, hby.isRoot, hby.commands, hby.mapId,
      hby.pc, hby.pause⟩
  · cases ha with
    | notes h => exact .notes h
    | deed c hc o h hawaits => exact .deed c hc o h hawaits
    | looks hroot h => exact .looks hroot h

/-- Every turn keeps the tree of calls in order, and does to the game what one command may do after
a look at the keys. -/
theorem turned_of_turn (env : Env) (f : Frame) (w : World) : Ensures (f.turn env) w
    fun t w' => f.Turned env t w' ∧ ∃ g, w.game.Noted g ∧ f.Acts env t g w'.game := by
  refine (turns_of_turn env f w).imp fun t w' h => ?_
  cases h with
  | reads | follows =>
    exact ⟨(SameList.refl f).turned id nofun, w.game, .refl _, .notes (.refl _)⟩
  | counts =>
    exact ⟨SameList.turned ⟨rfl, rfl, rfl, rfl, rfl, rfl⟩
      (fun _ => waiting_of_pause (Pause.ofTicks_ne_goOn _)) nofun, w.game, .refl _,
      .notes (.refl _)⟩
  | polls hk h =>
    exact ⟨SameList.turned ⟨rfl, rfl, rfl, rfl, rfl, rfl⟩ (fun _ => waiting_of_pause nofun) nofun,
      _, Commands.notes_pollKeys env _ w _ _ h, .notes (.refl _)⟩
  | hits hk hpoll h =>
    have hn := Commands.notes_pollKeys env _ w _ _ hpoll
    obtain ⟨ht, ha⟩ := turned_of_ready h
    exact ⟨ht, _, hn, ha⟩
  | followed hread hk h =>
    obtain ⟨ht, ha⟩ := turned_of_ready h
    exact ⟨ht, _, .refl _, ha⟩
  | goes hread hk h =>
    obtain ⟨ht, ha⟩ := turned_of_proceeds hk h
    exact ⟨ht, _, .refl _, ha⟩

/-- Turns keep to the map, and neither open nor leave a battle. -/
theorem place_of_turn (env : Env) (f : Frame) (w : World) : Ensures (f.turn env) w fun _ w' =>
    w'.game.field.id = w.game.field.id ∧ w'.game.troop.isSome = w.game.troop.isSome := by
  refine (turned_of_turn env f w).imp ?_
  rintro t w' ⟨-, g, hn, ha⟩
  rw [← hn.mapId, ← hn.inBattle]
  cases ha with
  | notes h => exact ⟨h.mapId, h.inBattle⟩
  | deed _ _ _ h _ => exact ⟨h.mapId, h.inBattle⟩
  | looks _ h =>
    rw [← g.mapId_looked env.data, ← g.troop_looked env.data]
    exact ⟨h.mapId, h.inBattle⟩

end Frame

end EventScript
