import EventScript.Proofs.Agents
import EventScript.Proofs.Calls
import EventScript.Proofs.Pages

/-!
# Pages after a tick

* `Director.Orderly` is what every part of a call keeps: the pages are settled, and every frame runs
  a list of the database.
* `Director.pages_of_tick`: after a tick every event of the map shows its right page, but for
  variables that a command set to zero before it waited for a key.
-/

namespace EventScript

open Act

/-! ## A tick of the world -/

theorem Game.Noted.of_startAutomatic (g : Game) :
    g.Noted { g with field := g.field.startAutomatic } := by
  refine .of_events fun id => ?_
  rw [IdMap.get?_map, Option.map_map]
  unfold shownPage
  congr 1
  funext e
  simp only [Function.comp_apply]
  split <;> rfl

/-- When the world has moved, the pages were looked at if a look was asked for. -/
theorem ensures_tick {d : Database} (hd : d.validate = .ok ()) {w : World}
    (hw : w.game.Settled d) : Ensures (tick d) w
      fun _ w' => w'.game.Settled d ∧ w'.game.field.needRefresh = false := by
  have hroutes (ids : List Number) : (ids.forM stepRoute).Notes :=
    .forM fun id _ => within_stepRoute id
  have hauto {g : Game} (h : g.Settled d ∧ g.field.needRefresh = false) :
      Game.Settled { g with field := g.field.startAutomatic } d ∧
        g.field.startAutomatic.needRefresh = false :=
    ⟨h.1.of_noted (.of_startAutomatic g), h.2⟩
  have hcounted : Game.Settled { w.game with frames := w.game.frames + 1 } d :=
    hw.of_noted (.of_observed rfl)
  simp only [tick, ensures_bind, ensures_modifyGame, ensures_getGame]
  refine (hroutes _ _).imp fun _ u hu => ?_
  have hmoved : Game.Settled
      { u.game with party := u.game.party.countDown, screen := u.game.screen.tick } d :=
    (hcounted.of_noted hu).of_noted (.of_observed rfl)
  have hlooked := hmoved.looked hd
  unfold Game.looked at hlooked
  simp only [ensures_ite, showPages, ensures_bind, ensures_modifyGame]
  refine ⟨fun hr => ?_, fun hr => ?_⟩
  · rw [if_pos hr] at hlooked
    exact hauto hlooked
  · rw [if_neg hr] at hlooked
    exact hauto hlooked

/-! ## An update -/

namespace Frame

/-- The frame has run out of commands or runs a list of the database. -/
def Listed (d : Database) (f : Frame) : Prop := f.commands = [] ∨ f.commands ∈ d.lists

theorem listed_forgetOwner {d : Database} {f : Frame} (mapId : Number) (h : f.Listed d) :
    (f.forgetOwner mapId).Listed d := by
  unfold forgetOwner
  split
  · exact h
  · exact h

end Frame

/-- Every turn of a list of the database keeps the pages settled. -/
theorem keptByTurns_settled {env : Env} (hd : env.data.validate = .ok ()) :
    Interpreter.KeptByTurns env (fun w => w.game.Settled env.data) (Frame.Listed env.data) where
  forget _ mapId h := Frame.listed_forgetOwner mapId h
  turn f w hf hw := by
    refine (Frame.turned_of_turn env f w).imp fun t w' ⟨ht, g, hn, ha⟩ => ⟨?_, ?_, fun c hc => ?_⟩
    · have hg := hw.of_noted hn
      cases ha with
      | notes h => exact hg.of_noted h
      | deed c hc o h _ =>
        refine hg.of_deed h fun id hid => ?_
        have hl : f.commands ∈ env.data.lists :=
          hf.resolve_left fun hnil => by rw [hnil] at hc; cases hc
        exact ⟨f.commands, hl, c, hc, hid⟩
      | looks _ h => exact (hg.looked hd).1.of_noted h
    · rcases ht.commands with h | h | ⟨-, h⟩
      · unfold Frame.Listed
        rw [h]
        exact hf
      · exact .inl h
      · exact .inr h
    · obtain ⟨-, x, -, callee, hcallee, hby⟩ := ht.called c hc
      exact .inr (hby.commands ▸ x.callees_subset _ hcallee)

namespace Director

/-! ## What every part keeps -/

/-- The pages are settled, and every frame runs a list of the database. -/
structure Orderly (data : Database) (d : Director) : Prop where
  ofData : d.data = data
  settled : d.game.Settled data
  listed : ∀ a, ∀ f ∈ (d.interpreter a).frames, f.Listed data

variable {data : Database} {d d' : Director}

theorem settled_updateAgent (hd : data.validate = .ok ()) (a : Agent) (h : Orderly data d) :
    Ensures (updateAgent a) d fun _ d' =>
      d'.game.Settled data ∧ ∀ f ∈ (d'.interpreter a).frames, f.Listed data := by
  obtain rfl := h.ofData
  simp only [updateAgent, ensures_bind, Directing.ensures_get, ensures_update,
    Directing.ensures_modify]
  refine (Interpreter.updated_of_update _ _ _).imp fun i w hi => ?_
  rw [interpreter_withInterpreter, if_pos rfl, game, world_withInterpreter]
  exact hi.keeps (keptByTurns_settled hd) (h.listed a) h.settled

theorem settled_teleport (hd : data.validate = .ok ()) (h : Orderly data d) :
    Ensures carryTeleport d fun _ d' => d'.game.Settled data ∧
      (d.game.field.needRefresh = false → d'.game.field.needRefresh = false) := by
  have hmove {g : Game} (hg : g.Settled data) (player : Character) :
      Game.Settled { g with field := { g.field with player } } data :=
    hg.of_same rfl (fun _ => rfl) id (.inr ⟨rfl, fun _ hv => hv⟩)
  simp only [carryTeleport, ensures_bind, Directing.ensures_act, ensures_getGame]
  split
  · exact ensures_pure.2 ⟨h.settled, id⟩
  · next t _ =>
    have hleft :
        Game.Settled { d.game with field := { d.game.field with teleport := none } } data :=
      h.settled.of_same rfl (fun _ => rfl) id (.inr ⟨rfl, fun _ hv => hv⟩)
    simp only [ensures_bind, Directing.ensures_act, ensures_modifyGame, ensures_ite,
      Directing.ensures_get, Directing.ensures_modify]
    refine ⟨fun _ => ?_, fun _ => ⟨hmove hleft _, id⟩⟩
    simp only [enterMap, h.ofData, ensures_bind, ensures_ite, ensures_warn, ensures_modifyGame]
    obtain ⟨hentered, hasks⟩ := Game.settled_enterMap hd
      { d.game with field := { d.game.field with teleport := none } } t.mapId
    exact ⟨fun _ => ⟨hmove hentered _, fun _ => hasks⟩, fun _ => ⟨hmove hentered _, fun _ => hasks⟩⟩

theorem settled_order (o : Order) (h : Orderly data d) :
    Ensures o.run d fun _ d' => d'.game.Settled data := by
  refine (obeyed_of_order o d).imp fun _ d' ho => ?_
  refine h.settled.of_same ho.mapId ho.pages ho.refresh (ho.memory.imp_right fun ⟨hs, hv⟩ => ?_)
  exact ⟨hs, fun v hold => hv ▸ hold⟩

/-- Whatever the events do, a part keeps the pages settled. -/
theorem settled_of_part (hd : data.validate = .ok ()) (p : Part) (h : Orderly data d) :
    Ensures p.run d fun _ d' => d'.game.Settled data := by
  cases p with
  | update a => exact (settled_updateAgent hd a h).imp fun _ _ h => h.1
  | bindCommon | bindPage | bindTroop | dropCommons | dropPages =>
    exact (game_of_quiet rfl d).imp fun _ _ hg => hg ▸ h.settled
  | world =>
    simp only [Part.run, tickWorld, ensures_bind, Directing.ensures_get, Directing.ensures_act]
    rw [h.ofData]
    exact (ensures_tick hd h.settled).imp fun _ w hw => hw.1
  | teleport => exact (settled_teleport hd h).imp fun _ _ h => h.1
  | order o => exact settled_order o h

theorem orderly_of_part (hd : data.validate = .ok ()) (p : Part) (d : Director)
    (h : Orderly data d) : Ensures p.run d fun _ d' => Orderly data d' := by
  intro r d' hr
  have hfates := fates_of_part p d r d' hr
  refine ⟨hfates.data.trans h.ofData, settled_of_part hd p h r d' hr, fun a => ?_⟩
  cases hfates.fate a with
  | stays hs => rw [hs]; exact h.listed a
  | updated hp _ =>
    subst hp
    exact (settled_updateAgent hd a h r d' hr).2
  | starts f hf hl _ =>
    rw [hf]
    exact List.forall_mem_cons.2 ⟨.inr (h.ofData ▸ hl), nofun⟩
  | dropped context isRoot hi =>
    rw [hi]
    exact List.forall_mem_cons.2 ⟨.inl rfl, nofun⟩

theorem orderly_begin (hd : data.validate = .ok ()) (random : Random) :
    Orderly data (begin data random) where
  ofData := rfl
  settled := (Game.settled_enterMap hd _ _).1
  listed a := by
    cases a <;> exact List.forall_mem_cons.2 ⟨.inl rfl, nofun⟩

theorem Leads.orderly (hd : data.validate = .ok ()) (h : Leads d d') (hs : Orderly data d) :
    Orderly data d' :=
  h.keeps (orderly_of_part hd) hs

/-! ## After a tick -/

/-- When the world has moved, no look at the pages is asked for any more. -/
theorem needRefresh_tickWorld (hd : data.validate = .ok ()) (h : Orderly data d) :
    Ensures tickWorld d fun _ d' => Orderly data d' ∧ d'.game.field.needRefresh = false := by
  intro r d' hr
  refine ⟨orderly_of_part hd .world d h r d' hr, ?_⟩
  have htick : Ensures tickWorld d fun _ d' => d'.game.field.needRefresh = false := by
    simp only [tickWorld, ensures_bind, Directing.ensures_get, Directing.ensures_act, h.ofData]
    exact (ensures_tick hd h.settled).imp fun _ w hw => hw.2
  exact htick r d' hr

/-- The pages that the events of the map show, after a look at them or as they stood at the last
look: each is the right one but for variables that a command set to zero before it waited for a key,
and the right one without exception where no page of the event watches such a variable. -/
structure PagesFit (data : Database) (g : Game) : Prop where
  shown : ∃ v : Variables, v.ResetTo data g.vars ∧ ({ g with vars := v }).ShowsPages data
  exactly : ∀ m, data.map? g.field.id = some m → ∀ e ∈ m.events,
    (∀ p ∈ e.pages, ∀ v, p.condition.variableLeast = some v → ¬ data.Resets v.id) →
      ∃ n, g.shownPage e.id = some n ∧ g.IsLastPage e n

theorem Orderly.pagesFit (h : Orderly data d) (hr : d.game.field.needRefresh = false) :
    PagesFit data d.game where
  shown := h.settled.shown.resolve_left (by rw [hr]; exact Bool.false_ne_true)
  exactly m hm e he hwatch := h.settled.isLastPage hr hm he hwatch

/-- After every tick the pages fit. Only a tick of a battle in which no page of the troop runs may
leave a look asked for; it leaves the field as it is. -/
theorem pages_of_tick {random : Random} (hd : data.validate = .ok ())
    (hreach : Reachable data random d) :
    (∀ d', fieldTick d = .ok ((), d') → PagesFit data d'.game) ∧
      ∀ ran d', battleTick d = .ok (ran, d') → PagesFit data d'.game ∨
        d'.game.field.needRefresh = true ∧ d'.game.field = d.game.field := by
  have horderly {u u' : Director} (h : Leads u u') (hu : Orderly data u) : Orderly data u' :=
    h.orderly hd hu
  have hstart := horderly hreach.leads (orderly_begin hd random)
  constructor
  · intro d' hr
    refine ensures_fieldTick (Q := fun _ d' => PagesFit data d'.game) (fun d₁ h₁ => ?_) () d' hr
    refine Ensures.bind (needRefresh_tickWorld hd (horderly h₁ hstart)) fun _ d₂ h₂ => ?_
    intro r d₃ h₃
    have hlast := settled_teleport hd h₂.1 r d₃ h₃
    exact (orderly_of_part hd .teleport d₂ h₂.1 r d₃ h₃).pagesFit (hlast.2 h₂.2)
  · intro ran d' hr
    refine ensures_battleTick (Q := fun _ d' => PagesFit data d'.game ∨
      d'.game.field.needRefresh = true ∧ d'.game.field = d.game.field) (fun d₁ h₁ => ?_)
      (fun d₁ _ h₁ hfield => ?_) ran d' hr
    · refine (needRefresh_tickWorld hd (horderly h₁ hstart)).imp fun _ d₂ h₂ => ?_
      exact .inl (h₂.1.pagesFit h₂.2)
    · cases hasks : d₁.game.field.needRefresh with
      | false => exact .inl ((horderly h₁ hstart).pagesFit hasks)
      | true => exact .inr ⟨rfl, hfield⟩

/-- One event, which shows its second page when its variable is high enough, and waits there for a
key in the same variable. -/
def selfResetting : EventData where
  id := 1
  pages := [
    { trigger := .parallel, commands := [{ code := 10220, params := [0, 1, 1, 0, 0, 5] }] },
    { condition := { variableLeast := some { id := 1, least := 5 } }, trigger := .parallel,
      commands := [{ code := 11610, params := [1, 1, 0, 1] }] }]

/-- A game of one map with that event. -/
def selfResettingGame : Database where
  maps := [{ id := 1, events := [selfResetting] }]

/-- The command that waits sets the variable to zero and asks for no look: after the next tick the
event still shows the page that it had. -/
theorem selfResetting_keeps_page : ∃ d d', selfResettingGame.validate = .ok () ∧
    Reachable selfResettingGame default d ∧ fieldTick d = .ok ((), d') ∧
      PagesFit selfResettingGame d'.game ∧ d'.game.shownPage 1 = some 2 ∧
      ¬ d'.game.IsLastPage selfResetting 2 := by
  have hvalid : selfResettingGame.validate = .ok () := by rfl
  have hrun : ∃ d, fieldTick (begin selfResettingGame default) = .ok ((), d) ∧
      ∃ d', fieldTick d = .ok ((), d') ∧ d'.game.shownPage 1 = some 2 ∧ d'.game.vars.get 1 = 0 := by
    decide +kernel
  obtain ⟨d, h, d', h', hpage, hvar⟩ := hrun
  have hreach : Reachable selfResettingGame default d := ⟨[.tick], bind_of_ok h⟩
  refine ⟨d, d', hvalid, hreach, h', (pages_of_tick hvalid hreach).1 d' h', hpage, ?_⟩
  rintro (⟨hzero, -⟩ | ⟨k, p, hp, hmeets, hn, -⟩)
  · cases hzero
  · match k, hp with
    | 0, hp => cases hn
    | 1, hp =>
      cases hp
      simp only [Game.meets, Option.all_none, Option.all_some, Bool.true_and, hvar,
        decide_eq_true_eq] at hmeets
      exact absurd hmeets (by decide)
    | k + 2, hp => cases hp

end Director

end EventScript
