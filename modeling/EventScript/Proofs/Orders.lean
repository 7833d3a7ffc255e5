import EventScript.Proofs.Answers
import EventScript.Proofs.Parts

/-!
# What the owner does

* `Director.Order.answer?` is the answer that an order gives to the events that wait for one.
* `Director.Obeyed` lists what an order can do to a director, and `obeyed_of_order` that there is
  nothing else.
-/

namespace EventScript.Director

open Act

/-- The answer of a kind that an order gives. A battle that begins has no result any more. -/
def Order.answer? (o : Order) (q : Asked) (d : Director) : Option Reply :=
  match o, q with
  | dismiss choice, .choice => choice.map .choice
  | leaveShop purchases, .shop =>
    match purchases.mapM buy d with
    | .ok (bought, _) => some (.shop (bought.any id))
    | .error _ => none
  | openBattle, .battle => some (.battle d.game.scene.battle none)
  | settleBattle result, .battle => some (.battle d.game.scene.battle (some result))
  | _, _ => none

/-- What an order does. It leaves the place and the memory as they are, or asks for a look at the
pages, and an interpreter that it concerns is stopped. -/
structure Obeyed (o : Order) (d d' : Director) : Prop where
  data : d'.data = d.data
  root : d'.root = d.root ∨ d'.root = .idle .field 0 true
  common : d'.common = d.common
  parallel : d'.parallel = d.parallel
  battle : d'.battle = d.battle ∨ d'.battle = .idle .battle 0 false
  mapId : d'.game.field.id = d.game.field.id
  pages : ∀ id, d'.game.shownPage id = d.game.shownPage id
  refresh : d.game.field.needRefresh = true → d'.game.field.needRefresh = true
  memory : d'.game.field.needRefresh = true ∨
    d'.game.switches = d.game.switches ∧ d'.game.vars = d.game.vars
  reply : ∀ q, d'.game.reply q = (o.answer? q d).getD (d.game.reply q)

variable {o : Order} {d d' : Director}

/-- An order that leaves the interpreters alone, and of the game only concerns what is noted. -/
theorem Trades.obeyed (h : Trades (World.Over Game.Noted) d d')
    (hnone : ∀ q, o.answer? q d = none) : Obeyed o d d' := by
  obtain ⟨w, rfl, hw⟩ := h
  refine ⟨rfl, .inl rfl, rfl, rfl, .inl rfl, hw.mapId, hw.pages, hw.refresh, hw.memory, fun q => ?_⟩
  rw [hnone q]
  exact hw.reply q

/-- An order that concerns neither the place nor the memory. -/
theorem obeyed_of_far (hdata : d'.data = d.data)
    (hroot : d'.root = d.root ∨ d'.root = .idle .field 0 true)
    (hevents : (d'.common, d'.parallel) = (d.common, d.parallel))
    (hbattle : d'.battle = d.battle ∨ d'.battle = .idle .battle 0 false)
    (hfar : (d'.game.field, d'.game.switches, d'.game.vars) =
      (d.game.field, d.game.switches, d.game.vars))
    (hreply : ∀ q, d'.game.reply q = (o.answer? q d).getD (d.game.reply q)) : Obeyed o d d' := by
  simp only [Prod.mk.injEq] at hevents hfar
  obtain ⟨hcommon, hparallel⟩ := hevents
  obtain ⟨hfield, hswitches, hvars⟩ := hfar
  refine ⟨hdata, hroot, hcommon, hparallel, hbattle, by rw [hfield], fun id => ?_, ?_,
    .inr ⟨hswitches, hvars⟩, hreply⟩
  · rw [Game.shownPage, Game.shownPage, hfield]
  · rw [hfield]
    exact id

theorem noted_setOff (g : Game) (id : Number) :
    g.Noted { g with field := g.field.setOff id } := by
  unfold Field.setOff
  split
  · exact .of_events (Field.seen_modify fun _ _ => rfl)
  · exact .refl g

/-- There is nothing else that an order does. -/
theorem obeyed_of_order (o : Order) (d : Director) :
    Ensures o.run d fun _ d' => Obeyed o d d' := by
  cases o with
  | talkTo id =>
    simp only [Order.run, talkTo, ensures_bind, Directing.ensures_act, ensures_getGame,
      ensures_setGame, ensures_pure]
    exact Trades.obeyed ⟨_, rfl, noted_setOff d.game id⟩ fun q => rfl
  | abandon =>
    simp only [Order.run, abandon, ensures_bind, Directing.ensures_act, ensures_warn,
      Directing.ensures_get, Directing.ensures_modify, ensures_modifyGame]
    have hreleased := Game.Noted.of_release d.game d.root.frame.owner
    exact ⟨rfl, .inr rfl, rfl, rfl, .inl rfl, hreleased.mapId, hreleased.pages, hreleased.refresh,
      hreleased.memory, hreleased.reply⟩
  | dismiss choice =>
    simp only [Order.run, dismiss, Directing.ensures_act, ensures_modifyGame]
    refine obeyed_of_far rfl (.inl rfl) rfl (.inl rfl) rfl fun q => ?_
    cases q with
    | choice => cases choice <;> rfl
    | shop | battle => rfl
  | enterNumber value =>
    simp only [Order.run, enterNumber, ensures_bind, Directing.ensures_act, ensures_getGame,
      needRefresh, ensures_modifyGame]
    have hset : (setVariable d.game.message.numberVariable value).Steadies :=
      within_setVariable _ _
    refine (hset d.world).imp fun _ w hw => ?_
    have hreply (q : Asked) := Game.reply_of_answers hw.answers hw.inBattle q
    exact ⟨rfl, .inl rfl, rfl, rfl, .inl rfl, hw.mapId, hw.pages, fun _ => rfl, .inl rfl, hreply⟩
  | leaveShop purchases =>
    simp only [Order.run, leaveShop, ensures_bind, Directing.ensures_act, ensures_modifyGame]
    intro bought d' hbought
    obtain ⟨w, rfl, hw⟩ :=
      trades_purchases (R := World.Over Game.Noted) purchases d bought d' hbought
    refine ⟨rfl, .inl rfl, rfl, rfl, .inl rfl, hw.mapId, hw.pages, hw.refresh, hw.memory,
      fun q => ?_⟩
    cases q with
    | shop =>
      simp only [Order.answer?, hbought]
      rfl
    | choice => exact hw.reply .choice
    | battle => exact hw.reply .battle
  | giveName name =>
    simp only [Order.run, giveName, ensures_bind, Directing.ensures_act, ensures_getGame,
      ensures_ite, ensures_warn, ensures_setGame]
    have hnamed (w : World) (h : w.game.observed = d.game.observed) :
        Obeyed (.giveName name) d { d with world := w } :=
      Trades.obeyed ⟨w, rfl, .of_observed h⟩ fun q => rfl
    exact ⟨fun _ => hnamed _ rfl, fun _ => hnamed _ rfl⟩
  | leaveMenu =>
    simp only [Order.run, leaveMenu, ensures_bind, Directing.ensures_act, ensures_getGame,
      ensures_ite, ensures_check, ensures_pure, ensures_setGame]
    have hleft (w : World) (h : w.game.observed = d.game.observed) :
        Obeyed .leaveMenu d { d with world := w } :=
      Trades.obeyed ⟨w, rfl, .of_observed h⟩ fun q => rfl
    exact ⟨fun _ _ _ => hleft _ rfl, fun _ => hleft _ rfl⟩
  | openBattle =>
    simp only [Order.run, openBattle, ensures_bind, Directing.ensures_get, ensures_ite,
      Directing.ensures_act, ensures_warn, ensures_check, ensures_setGame, Directing.ensures_modify]
    have hreply {g : Game} (q : Asked) (ha : g.answers = d.game.answers)
        (hb : g.troop.isSome = true) :
        g.reply q = (Order.openBattle.answer? q d).getD (d.game.reply q) := by
      simp only [Game.answers, Answers.mk.injEq] at ha
      cases q <;> simp [Game.reply, Order.answer?, ha, hb]
    refine ⟨fun _ _ _ => ?_, fun _ _ _ => ?_⟩
    · exact obeyed_of_far rfl (.inl rfl) rfl (.inr rfl) rfl fun q => hreply q rfl rfl
    · exact obeyed_of_far rfl (.inl rfl) rfl (.inr rfl) rfl fun q => hreply q rfl rfl
  | passTurn =>
    simp only [Order.run, passTurn, ensures_bind, Directing.ensures_act, ensures_getGame]
    split
    · next t ht =>
      simp only [ensures_bind, Directing.ensures_act, ensures_check, ensures_setGame,
        Directing.ensures_modify]
      have ht : d.game.troop.isSome = true := Option.isSome_iff_exists.2 ⟨t, ht⟩
      refine fun turn _ => obeyed_of_far rfl (.inl rfl) rfl (.inl rfl) rfl fun q => ?_
      show Game.reply _ q = d.game.reply q
      apply Game.reply_of_answers
      · rfl
      · exact ht.symm
    · simp only [Directing.ensures_modify]
      exact obeyed_of_far rfl (.inl rfl) rfl (.inl rfl) rfl fun q => rfl
  | settleBattle result =>
    simp only [Order.run, settleBattle, ensures_bind, Directing.ensures_act, ensures_getGame,
      ensures_check, ensures_setGame, Directing.ensures_modify]
    refine fun party _ => obeyed_of_far rfl (.inl rfl) rfl (.inr rfl) rfl fun q => ?_
    cases q <;> rfl
  | attach host =>
    exact Directing.ensures_modify.2 (obeyed_of_far rfl (.inl rfl) rfl (.inl rfl) rfl fun q => rfl)

end EventScript.Director
