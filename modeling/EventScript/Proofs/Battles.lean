import EventScript.Proofs.Beats
import EventScript.Proofs.Moments

/-!
# What leaves a battle alone

While a battle lasts, its troop and the marks of the pages that have run are nobody's business but
that of the battle.

* `Game.SameFight`: the same troop is fought, and a battle that was broken off stays so. This is
  what turns, updates and everything that moves by itself leave of a battle.
* `Director.SameBattle`: besides, the same pages have run and the interpreter of the battle is as it
  was. This is what a tick of the field leaves of a battle, and an order that is none to the battle.
-/

namespace EventScript

open Act

/-! ## The troop that is fought -/

namespace Game

/-- The same troop is fought, if one is. A battle that was broken off stays so. -/
structure SameFight (g g' : Game) : Prop where
  none : g.troop = none → g'.troop = none
  some : ∀ t, g.troop = some t →
    ∃ t', g'.troop = some t' ∧ t'.id = t.id ∧ (t.terminated = true → t'.terminated = true)

variable {g g' g'' : Game}

theorem sameFight_of_troop (h : g'.troop = g.troop) : g.SameFight g' :=
  ⟨fun hnone => h.trans hnone, fun t ht => ⟨t, h.trans ht, rfl, id⟩⟩

theorem SameFight.refl (g : Game) : g.SameFight g := sameFight_of_troop rfl

theorem SameFight.trans (h : g.SameFight g') (h' : g'.SameFight g'') : g.SameFight g'' := by
  refine ⟨fun hnone => h'.none (h.none hnone), fun t ht => ?_⟩
  obtain ⟨t', ht', hid, hend⟩ := h.some t ht
  obtain ⟨t'', ht'', hid', hend'⟩ := h'.some t' ht'
  exact ⟨t'', ht'', hid'.trans hid, fun hterminated => hend' (hend hterminated)⟩

/-- The troop that is fought, with whether the battle was broken off. -/
def fight (g : Game) : Option (Number × Bool) := g.troop.map fun t => (t.id, t.terminated)

theorem SameStations.fight (h : g.SameStations g') : g'.fight = g.fight :=
  (sameStations_iff.1 h).2.2

theorem sameFight_of_fight (h : g'.fight = g.fight) : g.SameFight g' := by
  unfold fight at h
  refine ⟨fun hnone => ?_, fun t ht => ?_⟩
  · rw [hnone] at h
    exact Option.map_eq_none_iff.1 h
  · rw [ht] at h
    obtain ⟨t', ht', hkept⟩ := Option.map_eq_some_iff.1 h
    obtain ⟨hid, hterminated⟩ := Prod.mk.inj hkept
    exact ⟨t', ht', hid, fun h => hterminated.trans h⟩

theorem SameStations.sameFight (h : g.SameStations g') : g.SameFight g' :=
  sameFight_of_fight h.fight

/-- The battle is broken off, and not yet over. -/
def BrokenOff (g : Game) : Prop := ∃ t, g.troop = some t ∧ t.terminated = true

instance (g : Game) : Decidable g.BrokenOff :=
  decidable_of_iff (g.troop.any (·.terminated) = true) (Option.any_eq_true _ _)

theorem SameFight.brokenOff (h : g.SameFight g') (hg : g.BrokenOff) : g'.BrokenOff := by
  obtain ⟨t, ht, hterminated⟩ := hg
  obtain ⟨t', ht', -, hkept⟩ := h.some t ht
  exact ⟨t', ht', hkept hterminated⟩

/-- The same troop in the same state. -/
def SameTroop (g g' : Game) : Prop := g'.troop = g.troop

instance : World.Lenient (World.Over SameTroop) := .over (fun _ => rfl) fun h h' => h'.trans h

end Game

namespace Commands

open Act Game

theorem sameTroop_modifyField (c : Field → Field) :
    (modifyField c).Within (World.Over SameTroop) :=
  within_modifyGame fun _ => rfl

/-- Getting on and off is no matter of the battle. -/
theorem sameTroop_enterExitVehicle (f : Frame) :
    (enterExitVehicle f).Within (World.Over SameTroop) := by
  refine .bind within_read fun g => ?_
  split
  · dsimp only
    split
    · exact .bind (sameTroop_modifyField _) fun _ => within_pure
    · refine .bind (sameTroop_modifyField _) fun _ => ?_
      exact .bind (sameTroop_modifyField _) fun _ => within_pure
  · refine .bind within_check fun ahead => ?_
    dsimp only
    split
    · exact within_pure
    · split
      · exact within_pure
      · exact .bind (sameTroop_modifyField _) fun _ => within_pure

theorem sameTroop_setVehicleLocation (f : Frame) (c : Command) :
    (setVehicleLocation f c).Within (World.Over SameTroop) := by
  refine .bind (within_operand _ _) fun _ => .bind (within_operand _ _) fun _ => ?_
  refine .bind (within_operand _ _) fun _ => .bind within_read fun g => ?_
  dsimp only
  split
  · exact within_warned (by simp) _
  · exact .bind (sameTroop_modifyField _) fun _ => within_pure

/-- A frame breaks the battle off. It hands over the tick and stands behind the command. -/
structure BreaksOff (f : Frame) (w : World) (o : Outcome) (w' : World) : Prop where
  outcome : o = .rest f.pc
  troop : ∃ t, w.game.troop = some t ∧ w'.game.troop = some { t with terminated := true }
  result : w'.game.scene.battleResult = .abort

theorem breaksOff_of_terminateBattle (f : Frame) {w : World} {t : Troop}
    (ht : w.game.troop = some t) :
    Ensures (terminateBattle f) w fun o w' => BreaksOff f w o w' := by
  simp only [terminateBattle, ensures_bind, ensures_getGame, ht, ensures_setGame, ensures_pure]
  exact ⟨rfl, ⟨t, ht, rfl⟩, rfl⟩

/-- A command leaves the battle as it is, or it is the one that breaks it off. -/
theorem fight_of_perform (env : Env) (f : Frame) (c : Command) (w : World) :
    Ensures (perform env f c) w fun o w' =>
      w'.game.fight = w.game.fight ∨
        f.context = .battle ∧ c.opcode = .battle .terminateBattle ∧ BreaksOff f w o w' := by
  cases hc : c.opcode.stationed with
  | false =>
    refine (keepsStations_perform env f hc w).imp fun _ _ h => .inl ?_
    exact (sameStations_iff.1 h).2.2
  | true =>
    have hsame {a : Act Outcome} {P : Outcome → World → Prop}
        (h : a.Within (World.Over SameTroop)) :
        Ensures a w fun o w' => w'.game.fight = w.game.fight ∨ P o w' :=
      (h w).imp fun _ _ htroop => .inl (congrArg (Option.map _) htroop)
    have hwarn (op : Opcode) : (simply f (warn (.outsideContext op))).Within
        (World.Over SameTroop) :=
      within_warned (by simp) _
    unfold perform
    cases hop : c.opcode with
    | shared | unknown => rw [hop] at hc; cases hc
    | field op =>
      rw [hop] at hc
      cases hcontext : f.context with
      | battle => exact hsame (hwarn _)
      | field =>
        cases op with
        | enterExitVehicle => exact hsame (sameTroop_enterExitVehicle f)
        | setVehicleLocation => exact hsame (sameTroop_setVehicleLocation f c)
        | _ => cases hc
    | battle op =>
      rw [hop] at hc
      cases hcontext : f.context with
      | field => exact hsame (hwarn _)
      | battle =>
        cases op with
        | terminateBattle =>
          cases ht : w.game.troop with
          | none =>
            have hwarned : Ensures (terminateBattle f) w
                fun _ w' => w'.game.troop = w.game.troop := by
              simp only [terminateBattle, ensures_bind, ensures_getGame, ht, ensures_warn,
                ensures_pure]
            exact hwarned.imp fun _ _ h => .inl (congrArg (Option.map _) h)
          | some t =>
            exact (breaksOff_of_terminateBattle f ht).imp fun _ _ h => .inr ⟨rfl, rfl, h⟩
        | _ => cases hc

theorem sameFight_perform (env : Env) (f : Frame) (c : Command) (w : World) :
    Ensures (perform env f c) w fun _ w' => w.game.SameFight w'.game := by
  refine (fight_of_perform env f c w).imp fun o w' h => ?_
  rcases h with hsame | ⟨-, -, hbroken⟩
  · exact sameFight_of_fight hsame
  · obtain ⟨t, ht, ht'⟩ := hbroken.troop
    refine ⟨fun hnone => absurd (ht.symm.trans hnone) nofun, fun u hu => ?_⟩
    cases ht.symm.trans hu
    exact ⟨_, ht', rfl, fun _ => rfl⟩

end Commands

/-- Every turn leaves the battle as it is, but for breaking it off. -/
theorem Frame.sameFight_of_turn (env : Env) (f : Frame) (w : World) :
    Ensures (f.turn env) w fun _ w' => w.game.SameFight w'.game := by
  refine (stations_of_turn env f w).imp fun t w' h => ?_
  rcases h with hsame | ⟨c, -, hruns⟩
  · exact hsame.sameFight
  · obtain ⟨g, u, v, o, -, hsame, ho, hw'⟩ := hruns.performed
    rw [hw']
    exact hsame.sameFight.trans (Commands.sameFight_perform env g c u o v ho)

theorem Interpreter.sameFight_of_update (env : Env) (levels : Nat) (i : Interpreter) (w : World) :
    Ensures (i.update env levels) w fun _ w' => w.game.SameFight w'.game :=
  leads_of_turns (fun w => .refl w.game) .trans (fun f => f.sameFight_of_turn env) levels i w

theorem Act.sameFight_tick (d : Database) (w : World) :
    Ensures (tick d) w fun _ w' => w.game.SameFight w'.game := by
  have htick : (tick d).KeepsStations := within_tick d
  exact (htick w).imp fun _ _ h => h.sameFight

namespace Director

variable {d d' d'' : Director}

/-- The battle is as it was, except that it may have been broken off. -/
structure SameBattle (d d' : Director) : Prop where
  fight : d.game.SameFight d'.game
  battle : d'.battle = d.battle
  pagesRun : d'.pagesRun = d.pagesRun

theorem SameBattle.refl (d : Director) : SameBattle d d := ⟨.refl _, rfl, rfl⟩

theorem SameBattle.trans (h : SameBattle d d') (h' : SameBattle d' d'') : SameBattle d d'' :=
  ⟨h.fight.trans h'.fight, h'.battle.trans h.battle, h'.pagesRun.trans h.pagesRun⟩

/-- Whether a part belongs to the field: it is neither an order nor part of a battle. -/
def Part.isField : Part → Bool
  | update .battle | bindTroop | order _ => false
  | _ => true

/-- What is done for the field leaves the battle alone. -/
theorem sameBattle_of_part {p : Part} (hp : p.isField = true) (d : Director) :
    Ensures p.run d fun _ d' => SameBattle d d' := by
  cases p with
  | bindTroop | order => cases hp
  | update a =>
    simp only [Part.run, updateAgent, ensures_bind, Directing.ensures_get, ensures_update,
      Directing.ensures_modify]
    refine (Interpreter.sameFight_of_update d.env levels _ d.world).imp fun j w hw => ?_
    cases a with
    | battle => cases hp
    | root | common | parallel => exact ⟨hw, rfl, rfl⟩
  | bindCommon id =>
    simp only [Part.run, bindCommon, ensures_bind, Directing.ensures_get]
    split
    · simp only [ensures_bind, ensures_start, Directing.ensures_modify]
      exact fun j _ => ⟨.refl _, rfl, rfl⟩
    · exact ensures_pure.2 (.refl d)
  | bindPage id =>
    simp only [Part.run, bindPage, ensures_bind, Directing.ensures_get]
    split
    · simp only [ensures_bind, ensures_start, Directing.ensures_modify]
      exact fun j _ => ⟨.refl _, rfl, rfl⟩
    · exact ensures_pure.2 (.refl d)
  | dropCommons | dropPages => exact Directing.ensures_modify.2 ⟨.refl _, rfl, rfl⟩
  | world =>
    simp only [Part.run, tickWorld, ensures_bind, Directing.ensures_get, Directing.ensures_act]
    exact (sameFight_tick d.data d.world).imp fun _ _ h => ⟨h, rfl, rfl⟩
  | teleport =>
    have henter (g : Game) (data : Database) (id : Number) :
        (g.enterMap data id).troop = g.troop := by
      unfold Game.enterMap
      dsimp only
      split <;> rfl
    simp only [Part.run, carryTeleport, ensures_bind, Directing.ensures_act, ensures_getGame]
    split
    · exact ensures_pure.2 (.refl d)
    · next m _ =>
      have hentered := henter { d.game with field := { d.game.field with teleport := none } }
        d.data m.mapId
      simp only [ensures_bind, Directing.ensures_act, ensures_modifyGame, ensures_ite,
        Directing.ensures_get, Directing.ensures_modify, Act.enterMap, ensures_warn]
      exact ⟨fun _ => ⟨fun _ => ⟨Game.sameFight_of_troop hentered, rfl, rfl⟩,
        fun _ => ⟨Game.sameFight_of_troop hentered, rfl, rfl⟩⟩,
        fun _ => ⟨Game.sameFight_of_troop rfl, rfl, rfl⟩⟩

/-- A tick of the field leaves the battle alone. -/
theorem sameBattle_of_fieldTick (d : Director) :
    Ensures fieldTick d fun _ d' => SameBattle d d' := by
  have hbeside : Composes Part.isBeside SameBattle := by
    refine ⟨.refl, .trans, fun p d hp => sameBattle_of_part ?_ d⟩
    cases p with
    | update a =>
      cases a with
      | root | battle => cases hp
      | common | parallel => rfl
    | bindCommon | bindPage | dropCommons | dropPages => rfl
    | bindTroop | world | teleport | order => cases hp
  refine hbeside.fieldTick ((sameBattle_of_part (p := .update .root) rfl d).imp ?_)
  intro _ d₁ h₁ d₂ h₂
  refine Ensures.bind (sameBattle_of_part (p := .world) rfl d₂) fun _ d₃ h₃ => ?_
  exact (sameBattle_of_part (p := .teleport) rfl d₃).imp fun _ d₄ h₄ =>
    ((h₁.trans h₂).trans h₃).trans h₄

/-- Whether an order is one to the battle: it begins it, ends it or goes on to the next turn. -/
def Order.isMartial : Order → Bool
  | openBattle | passTurn | settleBattle _ => true
  | _ => false

/-- Any other order leaves the battle alone. -/
theorem sameBattle_of_order {o : Order} (ho : o.isMartial = false) (d : Director) :
    Ensures o.run d fun _ d' => SameBattle d d' := by
  have hpeaceful : o.isPeaceful = true := by
    cases o with
    | openBattle | settleBattle => cases ho
    | _ => rfl
  -- What is left to see is that the director itself is touched nowhere else.
  suffices h : Ensures o.run d fun _ d' => d'.battle = d.battle ∧ d'.pagesRun = d.pagesRun from
    fun r d' hr => ⟨(sameStations_of_order hpeaceful d r d' hr).sameFight, (h r d' hr).1,
      (h r d' hr).2⟩
  cases o with
  | openBattle | settleBattle | passTurn => cases ho
  | attach host => exact Directing.ensures_modify.2 ⟨rfl, rfl⟩
  | abandon =>
    simp only [Order.run, abandon, ensures_bind, Directing.ensures_act, ensures_warn,
      Directing.ensures_get, Directing.ensures_modify, ensures_modifyGame]
    exact ⟨trivial, trivial⟩
  | talkTo id =>
    simp only [Order.run, talkTo, ensures_bind, Directing.ensures_act, ensures_getGame,
      ensures_setGame, ensures_pure]
    exact ⟨trivial, trivial⟩
  | dismiss choice =>
    simp only [Order.run, dismiss, Directing.ensures_act, ensures_modifyGame]
    exact ⟨trivial, trivial⟩
  | enterNumber value =>
    simp only [Order.run, enterNumber, ensures_bind, Directing.ensures_act, ensures_getGame,
      needRefresh, ensures_modifyGame]
    exact fun _ _ _ => ⟨trivial, trivial⟩
  | leaveShop purchases =>
    have hbuy (b : Purchase) (u : Director) :
        Ensures (buy b) u fun _ u' => u'.battle = u.battle ∧ u'.pagesRun = u.pagesRun := by
      simp only [buy, ensures_bind, Directing.ensures_get]
      split
      · simp only [ensures_bind, Directing.ensures_act, ensures_warn, ensures_pure]
        exact ⟨trivial, trivial⟩
      · simp only [ensures_bind, Directing.ensures_act, ensures_check, ensures_getGame, ensures_ite,
          ensures_pure]
        exact fun _ _ => ⟨fun _ => ⟨trivial, trivial⟩, fun _ _ _ _ _ _ _ _ _ => ⟨trivial, trivial⟩⟩
    simp only [Order.run, leaveShop, ensures_bind, Directing.ensures_act, ensures_modifyGame]
    refine ensures_mapM (I := fun u : Director => u.battle = d.battle ∧ u.pagesRun = d.pagesRun)
      (fun b _ u hu => (hbuy b u).imp fun _ _ h => ?_) ⟨rfl, rfl⟩
    exact ⟨h.1.trans hu.1, h.2.trans hu.2⟩
  | giveName name =>
    simp only [Order.run, giveName, ensures_bind, Directing.ensures_act, ensures_getGame,
      ensures_ite, ensures_warn, ensures_setGame]
    exact ⟨fun _ => ⟨trivial, trivial⟩, fun _ => ⟨trivial, trivial⟩⟩
  | leaveMenu =>
    simp only [Order.run, leaveMenu, ensures_bind, Directing.ensures_act, ensures_getGame,
      ensures_ite, ensures_check, ensures_pure, ensures_setGame]
    exact ⟨fun _ _ _ => ⟨trivial, trivial⟩, fun _ => ⟨trivial, trivial⟩⟩

/-- What an update of the battle and a tick of the world leave. -/
structure GoesOn (d : Director) (j : Interpreter) (d' : Director) : Prop where
  fight : d.game.SameFight d'.game
  battle : d'.battle = j
  pagesRun : d'.pagesRun = d.pagesRun

theorem goesOn_of_update {j : Interpreter} {w : World}
    (hupdate : d.battle.update d.env levels d.world = .ok (j, w))
    (hworld : tickWorld { d with world := w, battle := j } = .ok ((), d')) : GoesOn d j d' := by
  have hfight := Interpreter.sameFight_of_update d.env levels d.battle d.world j w hupdate
  have hsame := sameBattle_of_part (p := .world) rfl _ () d' hworld
  exact ⟨hfight.trans hsame.fight, hsame.battle, hsame.pagesRun⟩

theorem troop_of_settleBattle (result : BattleResult) (d : Director) :
    Ensures (settleBattle result) d fun _ d' => d'.game.troop = none := by
  simp only [settleBattle, ensures_bind, Directing.ensures_act, ensures_getGame, ensures_check,
    ensures_setGame, Directing.ensures_modify]
  exact fun _ _ => rfl

end Director

end EventScript
