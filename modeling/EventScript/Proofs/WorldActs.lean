import EventScript.Commands.Operand
import EventScript.Proofs.Act

/-!
# What the acts of the world do

An act leads from the world before to the world after. Of a relation between the two it is asked
which changes it allows; every act is then proved once to stay within all relations that allow what
it does.

* `World.Lenient` relations allow reports and go on from act to act. `World.AllowsDeeds` is about
  what routes and commands change in passing, `World.AllowsWrites` about switches and variables,
  `World.AllowsTime` about a tick and `World.AllowsActors` about those who may fall.
* `Act.Within` says that an act stays within a relation; `World.Over` makes a relation between
  worlds out of one between games.
* `Act.within_stepRoute` and `Act.within_tick` put together what moves by itself.
-/

namespace EventScript

namespace Character

/-- What a step leaves of an event: the page it shows, and whether it is locked. -/
structure SameEvent (c c' : Character) : Prop where
  page : c'.page = c.page
  locked : c'.locked = c.locked

/-- Whatever character comes out is the same event. -/
def Stays (c : Character) (x : Except Overflow Character) : Prop :=
  ∀ c', x = .ok c' → c.SameEvent c'

variable {c c' : Character}

theorem SameEvent.trans {c'' : Character} (h : c.SameEvent c') (h' : c'.SameEvent c'') :
    c.SameEvent c'' :=
  ⟨h'.page.trans h.page, h'.locked.trans h.locked⟩

theorem stays_ok (h : c.SameEvent c') : c.Stays (.ok c') := by
  intro d hd
  cases hd
  exact h

theorem stays_bind {α : Type} {x : Except Overflow α} {f : α → Except Overflow Character}
    (h : ∀ a, c.Stays (f a)) : c.Stays (x >>= f) := by
  intro d hd
  cases x with
  | error o => cases hd
  | ok a => exact h a d hd

theorem Stays.after {x : Except Overflow Character} (h : c.SameEvent c') (hx : c'.Stays x) :
    c.Stays x :=
  fun d hd => h.trans (hx d hd)

variable (c : Character)

theorem sameEvent_face (direction : Number) : c.SameEvent (c.face direction) := by
  unfold face
  split <;> exact ⟨rfl, rfl⟩

theorem sameEvent_dueStep : c.SameEvent c.dueStep.2 := by
  unfold dueStep
  split
  · exact ⟨rfl, rfl⟩
  · split
    · exact ⟨rfl, rfl⟩
    · dsimp only
      split
      · exact ⟨rfl, rfl⟩
      · split <;> exact ⟨rfl, rfl⟩

theorem stays_shift (dx dy : Number) : c.Stays (c.shift dx dy) :=
  stays_bind fun _ => stays_bind fun _ => stays_ok ⟨rfl, rfl⟩

theorem stays_walk (direction : Number) : c.Stays (c.walk direction) :=
  .after (c.sameEvent_face direction) (stays_shift _ _ _)

theorem stays_walkDiagonally (horizontal vertical : Number) :
    c.Stays (c.walkDiagonally horizontal vertical) := by
  intro d hd
  cases hs : c.shift (offset horizontal).1 (offset vertical).2 with
  | error o => rw [walkDiagonally, hs] at hd; cases hd
  | ok e =>
    rw [walkDiagonally, hs] at hd
    cases hd
    exact (stays_shift c _ _ e hs).trans (e.sameEvent_face horizontal)

theorem stays_perform (m : RouteStep) (player : Number × Number) (random : Number) :
    c.Stays (c.perform m player random) := by
  have hface (direction : Number) : c.Stays (.ok (c.face direction)) :=
    stays_ok (c.sameEvent_face direction)
  have hturn (x : Except Overflow Number) : c.Stays (do return c.face (← x)) :=
    stays_bind fun d => hface d
  unfold perform
  split
  case h_1 | h_2 | h_3 | h_4 => exact stays_walk c _
  case h_5 | h_6 | h_7 | h_8 => exact stays_walkDiagonally c _ _
  case h_9 | h_12 => exact stays_walk c _
  case h_10 | h_11 => exact stays_bind fun _ => stays_walk c _
  case h_13 | h_14 | h_15 | h_16 | h_21 => exact hface _
  case h_17 | h_18 | h_19 | h_20 | h_22 | h_23 => exact hturn _
  case h_27 | h_28 | h_29 | h_30 => exact stays_bind fun _ => stays_ok ⟨rfl, rfl⟩
  all_goals exact stays_ok ⟨rfl, rfl⟩

end Character

/-! ## What relations allow -/

namespace World

/-- A relation between games, as one between worlds. -/
abbrev Over (R : Game → Game → Prop) (w w' : World) : Prop := R w.game w'.game

/-- A relation that goes on from act to act and allows effects and warnings. That calls are too deep
is no warning of an act. -/
class Lenient (R : World → World → Prop) : Prop where
  refl (w : World) : R w w
  trans {u v w : World} : R u v → R v w → R u w
  warn {w : World} {m : Warning} : m ≠ .callTooDeep → R w { w with warnings := w.warnings.push m }
  emit (w : World) (e : Effect) : R w { w with effects := w.effects.push e }

/-- A relation that allows numbers to be drawn, the party to gain and lose what it carries,
equipment to be put on, characters to move, and memory to be written if the pages are looked at
again. -/
class AllowsDeeds (R : World → World → Prop) : Prop extends Lenient R where
  chance (w : World) (random : Random) : R w { w with game := { w.game with random } }
  gold (w : World) (amount : Number) :
    R w { w with game := { w.game with party := w.game.party.giveGold amount } }
  item {w : World} {id amount : Number} {party : Party} :
    w.game.party.giveItem id amount = .ok party → R w { w with game := { w.game with party } }
  equips {w : World} {id item : Number} {slot : Nat} {a : Actor} :
    w.game.actors.get? id = some a →
      R w { w with game := { w.game with actors := w.game.actors.insert id (a.equip slot item) } }
  character {w : World} {id self : Number} {e c : Character} :
    w.game.field.character? id self = some e → e.SameEvent c →
      R w { w with game := { w.game with field := w.game.field.setCharacter id self c } }
  noted (w : World) (switches : Switches) (vars : Variables) :
    R w { w with game := { w.game with
      switches, vars, field := { w.game.field with needRefresh := true } } }

/-- A relation that allows memory to be written, whether or not the pages are looked at again. -/
class AllowsWrites (R : World → World → Prop) : Prop extends AllowsDeeds R where
  memory (w : World) (switches : Switches) (vars : Variables) :
    R w { w with game := { w.game with switches, vars } }

/-- A relation that allows time to pass, pages to be shown and events to start by themselves. -/
class AllowsTime (R : World → World → Prop) : Prop extends AllowsDeeds R where
  frames (w : World) (frames : Nat) : R w { w with game := { w.game with frames } }
  clocks (w : World) : R w { w with game := { w.game with
    party := w.game.party.countDown, screen := w.game.screen.tick } }
  pages (w : World) (d : Database) : R w { w with game := w.game.showPages d }
  starts (w : World) :
    R w { w with game := { w.game with field := w.game.field.startAutomatic } }

/-- A relation that allows the game to end. -/
class AllowsEnd (R : World → World → Prop) : Prop extends Lenient R where
  ends (w : World) :
    R w { w with game := { w.game with scene := { w.game.scene with gameOver := true } } }

/-- A relation that also allows actors to change in any way. -/
class AllowsActors (R : World → World → Prop) : Prop extends AllowsEnd R where
  actors (w : World) (actors : IdMap Actor) : R w { w with game := { w.game with actors } }

/-- What is between games only allows every report. -/
theorem Lenient.over {R : Game → Game → Prop} (hrefl : ∀ g, R g g)
    (htrans : ∀ {g g' g'' : Game}, R g g' → R g' g'' → R g g'') : Lenient (Over R) where
  refl w := hrefl w.game
  trans := htrans
  warn _ := hrefl _
  emit w _ := hrefl w.game

instance : Lenient (Over Eq) := .over (fun _ => rfl) Eq.trans

/-- What a relation allows, a wider one allows that goes on from act to act. -/
theorem AllowsDeeds.wider {R S : World → World → Prop} [AllowsDeeds R] [hS : Lenient S]
    (h : ∀ w w', R w w' → S w w') : AllowsDeeds S where
  toLenient := hS
  chance w random := h _ _ (chance w random)
  gold w amount := h _ _ (gold w amount)
  item hparty := h _ _ (item hparty)
  equips ha := h _ _ (equips ha)
  character he hc := h _ _ (character he hc)
  noted w switches vars := h _ _ (noted w switches vars)

end World

namespace Act

open World

/-- Every result of an act stands in a relation to the world before. -/
def Within {α : Type} (R : World → World → Prop) (a : Act α) : Prop :=
  ∀ w, Ensures a w fun _ w' => R w w'

/-- An act that leaves the game as it is. -/
abbrev Reads {α : Type} (a : Act α) : Prop := a.Within (Over Eq)

variable {α β : Type} {R S : World → World → Prop} {a : Act α} {f : α → Act β}

theorem Within.mono (h : a.Within R) (hRS : ∀ w w', R w w' → S w w') : a.Within S :=
  fun w => (h w).imp fun _ _ => hRS _ _

@[simp] theorem Within.map {g : α → β} (h : a.Within R) : (g <$> a).Within R :=
  fun w => ensures_map.2 (h w)

theorem Within.ite {c : Prop} [Decidable c] {b : Act α} (ha : a.Within R) (hb : b.Within R) :
    (if c then a else b).Within R := by
  split
  · exact ha
  · exact hb

/-- An act that reads the game first. -/
theorem within_getGame {f : Game → Act β}
    (h : ∀ w, Ensures (f w.game) w fun _ w' => R w w') : (getGame >>= f).Within R :=
  fun w => ensures_bind.2 (ensures_getGame.2 (h w))

theorem within_modifyGame {c : Game → Game} (h : ∀ w : World, R w { w with game := c w.game }) :
    (modifyGame c).Within R :=
  fun w => ensures_modifyGame.2 (h w)

section Lenient

variable [Lenient R]

@[simp] theorem within_pure {r : α} : (pure r : Act α).Within R :=
  fun w => ensures_pure.2 (Lenient.refl w)

@[simp] theorem within_read : getGame.Within R := fun w => ensures_getGame.2 (Lenient.refl w)

@[simp] theorem within_check {x : Except Overflow α} : (check x).Within R :=
  fun w => ensures_check.2 fun _ _ => Lenient.refl w

@[simp] theorem within_emit {e : Effect} : (emit e).Within R :=
  fun w => ensures_emit.2 (Lenient.emit w e)

@[simp] theorem within_warn {m : Warning} (h : m ≠ .callTooDeep) : (warn m).Within R :=
  fun _ => ensures_warn.2 (Lenient.warn h)

theorem Within.bind (h : a.Within R) (hf : ∀ x, (f x).Within R) : (a >>= f).Within R := by
  intro w
  refine Ensures.bind (h w) fun x u hu => ?_
  exact (hf x u).imp fun _ _ hw => Lenient.trans hu hw

/-- An act that only warns, but not that calls are too deep. -/
theorem within_warned {m : Warning} (h : m ≠ .callTooDeep) (x : α) :
    (do warn m; return x).Within R :=
  .bind (within_warn h) fun _ => within_pure

/-- An act that is done or left out before the rest. -/
theorem Within.guarded {c : Prop} [Decidable c] {a : Act PUnit} {f : PUnit → Act β}
    (ha : a.Within R) (hf : (f ⟨⟩).Within R) : (if c then a >>= f else f ⟨⟩).Within R :=
  .ite (.bind ha fun _ => hf) hf

theorem Within.forM {l : List α} {g : α → Act PUnit} (hg : ∀ x ∈ l, (g x).Within R) :
    (l.forM g).Within R := by
  intro w
  refine ensures_forM (I := R w) (fun x hx u hu => ?_) (Lenient.refl w)
  exact (hg x hx u).imp fun _ _ h => Lenient.trans hu h

@[simp] theorem within_warnBetween {m : Warning} (h : m ≠ .callTooDeep) (first last : Number) :
    (warnBetween m first last).Within R :=
  .forM fun _ _ => within_warn h

@[simp] theorem within_readActor (id which : Number) : (readActor id which).Within R := by
  refine .bind within_read fun g => ?_
  split
  · exact within_warned (by simp) _
  · split
    case h_16 => exact within_warned (by simp) _
    all_goals exact within_pure

@[simp] theorem within_readCharacter (id self which : Number) :
    (readCharacter id self which).Within R := by
  refine .bind within_read fun g => ?_
  split
  · exact within_warned (by simp) _
  · split
    case h_5 | h_6 => exact .bind within_check fun _ => within_check
    case h_7 => exact within_warned (by simp) _
    all_goals exact within_pure

@[simp] theorem within_counter (fps : UInt32) (which : Number) : (counter fps which).Within R := by
  refine .bind within_read fun g => ?_
  split
  case h_2 | h_10 => exact within_check
  case h_11 => exact within_warned (by simp) _
  all_goals exact within_pure

/-- Whoever is changed takes the old place among the actors. -/
theorem within_changeActor_of {id : Number} {f : Actor → Except Overflow Actor}
    (h : ∀ (w : World) (a a' : Actor), w.game.actors.get? id = some a → f a = .ok a' →
      R w { w with game := { w.game with actors := w.game.actors.insert id a' } }) :
    (changeActor id f).Within R := by
  refine within_getGame fun w => ?_
  split
  · next a ha =>
    simp only [ensures_bind, ensures_check, ensures_setGame]
    exact fun a' ha' => h w a a' ha ha'
  · exact within_pure w

end Lenient

section Deeds

variable [AllowsDeeds R]

@[simp] theorem within_needRefresh : needRefresh.Within R :=
  within_modifyGame fun w => AllowsDeeds.noted w w.game.switches w.game.vars

@[simp] theorem within_giveGold (amount : Number) : (giveGold amount).Within R :=
  within_modifyGame fun w => AllowsDeeds.gold w amount

@[simp] theorem within_giveItem (id amount : Number) : (giveItem id amount).Within R := by
  unfold giveItem
  refine .guarded (within_warn (by simp)) (within_getGame fun w => ?_)
  simp only [ensures_bind, ensures_check, ensures_setGame]
  exact fun _ h => AllowsDeeds.item h

@[simp] theorem within_draw (a b : Number) : (draw a b).Within R := by
  refine within_getGame fun w => ?_
  obtain ⟨value, random⟩ := w.game.random.between a b
  simp only [ensures_bind, ensures_setGame, ensures_pure]
  exact AllowsDeeds.chance w random

/-- A switch that a route sets is set before the pages are looked at. -/
theorem within_setSwitch_refresh (id : Number) (value : Bool) :
    (do setSwitch id value; needRefresh).Within R := by
  intro w
  simp only [setSwitch, needRefresh, ensures_bind, ensures_ite, ensures_warn, ensures_modifyGame]
  refine ⟨fun _ => ?_, fun _ => AllowsDeeds.noted w _ w.game.vars⟩
  let u : World := { w with warnings := w.warnings.push .invalidSwitch }
  have hwarned : R w u := Lenient.warn (by simp)
  exact Lenient.trans hwarned (AllowsDeeds.noted u _ w.game.vars)

theorem within_carryOut (id : Number) (player : Number × Number) (random : Number)
    (m : RouteStep) : (carryOut id player random m).Within R := by
  unfold carryOut
  split
  · exact within_setSwitch_refresh _ _
  · exact within_setSwitch_refresh _ _
  · exact within_emit
  · refine within_getGame fun w => ?_
    split
    · next c hc =>
      simp only [ensures_bind, ensures_check, ensures_setGame]
      exact fun c' hc' =>
        AllowsDeeds.character hc (c.stays_perform m player random c' hc')
    · exact within_pure w

theorem within_stepRoute (id : Number) : (stepRoute id).Within R := by
  refine .bind (within_draw _ _) fun random => within_getGame fun w => ?_
  dsimp only
  split
  · next c hc =>
    have hset := AllowsDeeds.character (R := R) hc c.sameEvent_dueStep
    simp only [ensures_bind, ensures_setGame]
    split
    · exact (within_carryOut _ _ _ _ _).imp fun _ _ h => Lenient.trans hset h
    · exact ensures_pure.2 hset
  · exact within_pure w

end Deeds

/-- One tick of everything that moves by itself. -/
theorem within_tick [AllowsTime R] (d : Database) : (tick d).Within R := by
  refine .bind (within_modifyGame fun w => AllowsTime.frames w _) fun _ => ?_
  refine .bind within_read fun g => .bind (.forM fun id _ => within_stepRoute id) fun _ => ?_
  refine .bind (within_modifyGame AllowsTime.clocks) fun _ => .bind within_read fun g => ?_
  exact .guarded (within_modifyGame fun w => AllowsTime.pages w d)
    (within_modifyGame AllowsTime.starts)

section Writes

variable [AllowsWrites R]

theorem within_write {s : Game → Switches} {v : Game → Variables} :
    (modifyGame fun g => { g with switches := s g, vars := v g }).Within R :=
  within_modifyGame fun w => AllowsWrites.memory w _ _

@[simp] theorem within_setSwitches (first last : Number) (value : Bool) :
    (setSwitches first last value).Within R :=
  .bind (within_warnBetween (by simp) _ _) fun _ => within_write

@[simp] theorem within_toggleSwitches (first last : Number) :
    (toggleSwitches first last).Within R :=
  .bind (within_warnBetween (by simp) _ _) fun _ => within_write

@[simp] theorem within_setVariable (id value : Number) : (setVariable id value).Within R := by
  unfold setVariable
  exact .guarded (within_warn (by simp)) within_write

/-- The variables that a checked computation gives are written. -/
theorem within_writeVariables (x : Variables → Except Overflow Variables) : (do
    let g ← getGame
    let vars ← check (x g.vars)
    setGame { g with vars }).Within R := by
  refine within_getGame fun w => ?_
  simp only [ensures_bind, ensures_check, ensures_setGame]
  exact fun vars _ => AllowsWrites.memory w w.game.switches vars

@[simp] theorem within_combineVariable (op : VariableOp) (operand id : Number) :
    (combineVariable op operand id).Within R := by
  unfold combineVariable
  exact .guarded (within_warn (by simp)) (within_writeVariables (·.combine id op operand))

@[simp] theorem within_combineVariables (first last : Number) (op : VariableOp)
    (operand : Number) : (combineVariables first last op operand).Within R := by
  unfold combineVariables
  exact .guarded (within_warnBetween (by simp) _ _)
    (within_writeVariables (·.combineBetween first last op operand))

end Writes

@[simp] theorem within_changeActor [AllowsActors R] (id : Number)
    (f : Actor → Except Overflow Actor) : (changeActor id f).Within R :=
  within_changeActor_of fun w _ _ _ _ => AllowsActors.actors w _

end Act

namespace Commands

open Act World

variable {R : World → World → Prop}

section Lenient

variable [Lenient R]

@[simp] theorem within_operand (mode value : Number) : (operand mode value).Within R :=
  .ite within_pure (.bind within_read fun _ => within_pure)

@[simp] theorem within_signedOperand (op mode value : Number) :
    (signedOperand op mode value).Within R :=
  .bind (within_operand mode value) fun _ => .ite within_check within_pure

@[simp] theorem within_amount (negative : Bool) (mode value : Number) :
    (amount negative mode value).Within R :=
  .bind (within_operand mode value) fun _ => .ite within_check within_pure

@[simp] theorem within_selectActors (mode value : Number) :
    (selectActors mode value).Within R := by
  refine .bind within_read fun g => ?_
  have hone (id : Number) : (do
      if (g.actors.get? id).isNone then do
        warn .actorNotFound
        return []
      return [id] : Act (List Number)).Within R :=
    .ite (within_warned (by simp) _) within_pure
  dsimp only
  split
  · exact within_pure
  · exact hone _
  · exact hone _
  · exact within_warned (by simp) _

end Lenient

@[simp] theorem within_endIfFallen [AllowsEnd R] : endIfFallen.Within R := by
  refine within_modifyGame fun w => ?_
  dsimp only
  split
  · exact AllowsEnd.ends w
  · exact Lenient.refl w

@[simp] theorem within_changeActors [AllowsActors R] (mode value : Number)
    (f : Actor → Except Overflow Actor) : (changeActors mode value f).Within R :=
  .bind (within_selectActors mode value) fun _ => .forM fun id _ => within_changeActor id f

end Commands

end EventScript
