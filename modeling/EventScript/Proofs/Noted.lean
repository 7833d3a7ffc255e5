import EventScript.Proofs.WorldActs

/-!
# What commands leave as it is

Nothing that an event does by a command changes the map, the pages that its events show, or whether
there is a battle. What the player's side answered changes where an answer is asked for.

* `Game.SamePlace` holds between two games on the same map, with the same pages shown.
* `Game.Steady` also keeps the answers, and `Game.Noted` also tells that switches and variables are
  as they were or that the pages are to be looked at again.
* `Deed` is what a command does to the game, told by what it asks of its frame.
-/

namespace EventScript

/-- The answers of the player's side that events read when they go on. -/
structure Answers where
  choice : Number
  bought : Bool
  request : BattleRequest
  result : BattleResult
  deriving DecidableEq

namespace Game

/-- The answers as they stand. -/
def answers (g : Game) : Answers :=
  ⟨g.message.choiceResult, g.scene.shopTransaction, g.scene.battle, g.scene.battleResult⟩

/-- The page that an event of the map shows. -/
def shownPage (g : Game) (id : Number) : Option Number :=
  (g.field.events.get? id).map (·.page)

/-- Two games on the same map, with the same pages shown and in a battle or not, of which the
second asks for a look at the pages if the first does. -/
structure SamePlace (g g' : Game) : Prop where
  mapId : g'.field.id = g.field.id
  pages : ∀ id, g'.shownPage id = g.shownPage id
  inBattle : g'.troop.isSome = g.troop.isSome
  refresh : g.field.needRefresh = true → g'.field.needRefresh = true

/-- The same place, and the same answers. -/
structure Steady (g g' : Game) : Prop extends SamePlace g g' where
  answers : g'.answers = g.answers

/-- Nothing was written to switches and variables without asking for a look at the pages. -/
structure Noted (g g' : Game) : Prop extends Steady g g' where
  memory : g'.field.needRefresh = true ∨ g'.switches = g.switches ∧ g'.vars = g.vars

variable {g g' g'' : Game}

theorem SamePlace.refl (g : Game) : g.SamePlace g := ⟨rfl, fun _ => rfl, rfl, id⟩

theorem SamePlace.trans (h : g.SamePlace g') (h' : g'.SamePlace g'') : g.SamePlace g'' where
  mapId := h'.mapId.trans h.mapId
  pages id := (h'.pages id).trans (h.pages id)
  inBattle := h'.inBattle.trans h.inBattle
  refresh hg := h'.refresh (h.refresh hg)

theorem Steady.trans (h : g.Steady g') (h' : g'.Steady g'') : g.Steady g'' where
  toSamePlace := h.toSamePlace.trans h'.toSamePlace
  answers := h'.answers.trans h.answers

theorem Noted.refl (g : Game) : g.Noted g := ⟨⟨.refl g, rfl⟩, .inr ⟨rfl, rfl⟩⟩

theorem Noted.trans (h : g.Noted g') (h' : g'.Noted g'') : g.Noted g'' where
  toSteady := h.toSteady.trans h'.toSteady
  memory := by
    rcases h'.memory with hr | ⟨hs, hv⟩
    · exact .inl hr
    rcases h.memory with hr | ⟨hs', hv'⟩
    · exact .inl (h'.refresh hr)
    · exact .inr ⟨hs.trans hs', hv.trans hv'⟩

/-- The parts of a game that `Noted` is about. -/
def observed (g : Game) : (Number × IdMap Character × Bool) × Bool × Answers ×
    Switches × Variables :=
  ((g.field.id, g.field.events, g.field.needRefresh), g.troop.isSome, g.answers, g.switches,
    g.vars)

theorem Noted.of_observed (h : g'.observed = g.observed) : g.Noted g' := by
  simp only [observed, Prod.mk.injEq] at h
  obtain ⟨⟨hid, hevents, hrefresh⟩, hbattle, hanswers, hswitches, hvars⟩ := h
  refine ⟨⟨⟨hid, fun id => ?_, hbattle, fun hg => hrefresh.trans hg⟩, hanswers⟩,
    .inr ⟨hswitches, hvars⟩⟩
  rw [shownPage, shownPage, hevents]

/-- A change of the events of the map that turns no page. -/
theorem Noted.of_events {es : IdMap Character}
    (h : ∀ id, (es.get? id).map (·.page) = g.shownPage id) :
    g.Noted { g with field := { g.field with events := es } } :=
  ⟨⟨⟨rfl, h, rfl, id⟩, rfl⟩, .inr ⟨rfl, rfl⟩⟩

end Game

/-! ## The characters of the field -/

namespace Field

theorem id_setCharacter (d : Field) (id self : Number) (c : Character) :
    (d.setCharacter id self c).id = d.id := by
  unfold setCharacter
  split <;> rfl

theorem needRefresh_setCharacter (d : Field) (id self : Number) (c : Character) :
    (d.setCharacter id self c).needRefresh = d.needRefresh := by
  unfold setCharacter
  split <;> rfl

/-- A change of one event that keeps what is seen of it keeps what is seen of all events. -/
theorem seen_modify {α : Type} {seen : Character → α} {events : IdMap Character} {k : Number}
    {h : Character → Character} (hh : ∀ e, events.get? k = some e → seen (h e) = seen e)
    (j : Number) : ((events.modify k h).get? j).map seen = (events.get? j).map seen := by
  rw [IdMap.get?_modify]
  split
  · next hj =>
    rw [hj]
    cases he : events.get? k with
    | none => rfl
    | some e => exact congrArg some (hh e he)
  · rfl

theorem seen_setCharacter {α : Type} {seen : Character → α} {d : Field} {id self : Number}
    {e c : Character} (he : d.character? id self = some e) (hc : seen c = seen e) (j : Number) :
    ((d.setCharacter id self c).events.get? j).map seen = (d.events.get? j).map seen := by
  unfold character? at he
  unfold setCharacter
  split
  · rfl
  · rfl
  · next k hk =>
    rw [hk] at he
    exact seen_modify (fun e' he' => by rw [hc, Option.some.inj (he.symm.trans he')]) j

end Field

namespace Game

/-- A character that goes back to its place with the page it showed. -/
theorem Noted.of_setCharacter {g : Game} {id self : Number} {e c : Character}
    (he : g.field.character? id self = some e) (hp : c.page = e.page) :
    g.Noted { g with field := g.field.setCharacter id self c } :=
  ⟨⟨⟨Field.id_setCharacter _ _ _ _, Field.seen_setCharacter he hp, rfl,
    fun h => (Field.needRefresh_setCharacter _ _ _ _).trans h⟩, rfl⟩, .inr ⟨rfl, rfl⟩⟩

theorem Noted.setCharacter {g : Game} {d : Field} (h : g.Noted { g with field := d })
    {id self : Number} {e c : Character} (he : d.character? id self = some e)
    (hp : c.page = e.page) : g.Noted { g with field := d.setCharacter id self c } :=
  h.trans (of_setCharacter (g := { g with field := d }) he hp)

/-- The window closes and the event that held it up is free. -/
theorem Noted.of_release (g : Game) (owner : Number) : g.Noted { g with
    message := g.message.close
    field := if 0 < owner then g.field.release owner else g.field } := by
  split
  · exact ⟨⟨⟨rfl, Field.seen_modify fun _ _ => rfl, rfl, id⟩, rfl⟩, .inr ⟨rfl, rfl⟩⟩
  · exact .of_observed rfl

end Game

/-! ## Acts that note what they write -/

namespace World

instance : AllowsDeeds (Over Game.Noted) where
  toLenient := .over .refl .trans
  chance _ _ := .of_observed rfl
  gold _ _ := .of_observed rfl
  item _ := .of_observed rfl
  equips _ := .of_observed rfl
  character he hc := .of_setCharacter he hc.page
  noted _ _ _ := ⟨⟨⟨rfl, fun _ => rfl, rfl, fun _ => rfl⟩, rfl⟩, .inl rfl⟩

instance : AllowsActors (Over Game.Noted) where
  actors _ _ := .of_observed rfl
  ends _ := .of_observed rfl

instance : Lenient (Over Game.Steady) :=
  .over (fun g => (Game.Noted.refl g).toSteady) .trans

instance : AllowsWrites (Over Game.Steady) where
  toAllowsDeeds := .wider (R := Over Game.Noted) fun _ _ h => h.toSteady
  memory _ _ _ := ⟨⟨rfl, fun _ => rfl, rfl, id⟩, rfl⟩

end World

namespace Act

/-- An act that asks for a look at the pages wherever it writes switches or variables. -/
abbrev Notes {α : Type} (a : Act α) : Prop := a.Within (World.Over Game.Noted)

/-- An act that may write switches and variables. -/
abbrev Steadies {α : Type} (a : Act α) : Prop := a.Within (World.Over Game.Steady)

theorem notes_modifyGame {c : Game → Game} (h : ∀ g, (c g).observed = g.observed) :
    (modifyGame c).Notes :=
  within_modifyGame fun w => .of_observed (h w.game)

/-- What is written before the pages are asked for is noted. -/
theorem Steadies.notes_refresh {β : Type} {a : Act PUnit} {f : PUnit → Act β} (h : a.Steadies)
    (hf : (f ⟨⟩).Notes) : (a >>= fun _ => needRefresh >>= f).Notes := by
  intro w
  refine Ensures.bind (h w) fun _ u hu => ?_
  rw [needRefresh, ensures_bind, ensures_modifyGame]
  have hasked : w.game.Noted { u.game with field := { u.game.field with needRefresh := true } } :=
    ⟨⟨⟨hu.mapId, hu.pages, hu.inBattle, fun _ => rfl⟩, hu.answers⟩, .inl rfl⟩
  exact (hf _).imp fun _ _ hw => hasked.trans hw

end Act

end EventScript
