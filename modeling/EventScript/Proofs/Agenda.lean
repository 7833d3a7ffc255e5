import EventScript.Proofs.Noted
import EventScript.Proofs.UsualCommands

/-!
# What only the root and the clock touch

On which map the party is, which of its events are locked and which common event is queued is no
matter of commands.

* `Game.agenda` is all of this, and `Act.KeepsAgenda` says that an act leaves it as it is.
* `Commands.keepsAgenda_perform`: every operation does, in every context, and so do answers and
  keys.
* `Act.within_tick`: so does everything that moves by itself.
-/

namespace EventScript

namespace Game

/-- Whether an event of the map is locked, if there is one with the id. -/
def lockOf (g : Game) (id : Number) : Option Bool := (g.field.events.get? id).map (·.locked)

/-- The map, the locks of its events, and the common event that is queued. -/
def agenda (g : Game) : Number × (Number → Option Bool) × Option Number :=
  (g.field.id, g.lockOf, g.scene.commonEventId)

/-- Two games with the same agenda. -/
def SameAgenda (g g' : Game) : Prop := g'.agenda = g.agenda

variable {g g' g'' : Game}

theorem SameAgenda.refl (g : Game) : g.SameAgenda g := rfl

theorem SameAgenda.trans (h : g.SameAgenda g') (h' : g'.SameAgenda g'') : g.SameAgenda g'' :=
  Eq.trans h' h

instance : Trans SameAgenda SameAgenda SameAgenda := ⟨SameAgenda.trans⟩

theorem sameAgenda_iff : g.SameAgenda g' ↔ g'.field.id = g.field.id ∧
    (∀ id, g'.lockOf id = g.lockOf id) ∧ g'.scene.commonEventId = g.scene.commonEventId := by
  simp only [SameAgenda, agenda, Prod.mk.injEq, funext_iff]

/-- Whatever happens on the field that moves no event to another lock. -/
theorem SameAgenda.of_field {d : Field} (hid : d.id = g.field.id)
    (hlocks : ∀ id, (d.events.get? id).map (·.locked) = g.lockOf id) :
    g.SameAgenda { g with field := d } :=
  sameAgenda_iff.2 ⟨hid, hlocks, rfl⟩

/-- A character that goes back to its place with the lock it had. -/
theorem SameAgenda.of_setCharacter {id self : Number} {e c : Character}
    (he : g.field.character? id self = some e) (hc : c.locked = e.locked) :
    g.SameAgenda { g with field := g.field.setCharacter id self c } :=
  .of_field (Field.id_setCharacter _ _ _ _) (Field.seen_setCharacter he hc)

theorem agenda_setVehicle (g : Game) (kind : Number) (v : Vehicle) :
    { g with field := g.field.setVehicle kind v }.agenda = g.agenda := by
  unfold Field.setVehicle
  split <;> rfl

/-- Showing a page takes an event as it is but for its lock. -/
theorem locked_showPage (e : EventData) (page : Number) (c : Character) :
    (showPage e page c).locked = c.locked := by
  unfold showPage
  split
  · rfl
  · dsimp only
    split
    · exact (Character.sameEvent_face _ _).locked
    · rfl

/-- A look at the pages turns pages, but locks nothing and releases nothing. -/
theorem sameAgenda_showPages (g : Game) (d : Database) : g.SameAgenda (g.showPages d) := by
  have hall (l : List EventData) (es : IdMap Character) (id : Number) :
      ((l.foldl (fun es e => es.modify e.id (showPage e (g.pageOf e))) es).get? id).map
        (·.locked) = (es.get? id).map (·.locked) := by
    induction l generalizing es with
    | nil => rfl
    | cons e l ih => exact (ih _).trans (Field.seen_modify (fun c _ => locked_showPage e _ c) id)
  refine sameAgenda_iff.2 ⟨rfl, fun id => ?_, rfl⟩
  unfold lockOf showPages
  dsimp only
  split
  · next m _ => exact hall m.events _ id
  · rfl

/-- An event that starts by itself is not locked before the root takes it up. -/
theorem sameAgenda_startAutomatic (g : Game) :
    g.SameAgenda { g with field := g.field.startAutomatic } := by
  refine .of_field rfl fun id => ?_
  rw [Field.startAutomatic, IdMap.get?_map, Option.map_map, lockOf]
  congr 1
  funext e
  dsimp only [Function.comp]
  split <;> rfl

end Game

namespace World

instance : AllowsUsual (Over Game.SameAgenda) where
  toLenient := .over .refl .trans
  aside hfield _ hqueue := Game.sameAgenda_iff.2
    ⟨by rw [hfield], fun id => by rw [Game.lockOf, hfield, Game.lockOf], hqueue⟩
  ground h := by
    simp only [Prod.mk.injEq] at h
    exact .of_field h.1 fun id => by rw [h.2.1, Game.lockOf]
  character he hc := .of_setCharacter he hc.locked
  erases _ _ := .of_field rfl (Field.seen_modify fun _ _ => rfl)
  halts w := .of_field rfl fun id => by
    rw [Field.haltAll, IdMap.get?_map, Option.map_map]
    rfl
  vehicle {w kind _ v'} _ _ := Game.agenda_setVehicle w.game kind v'
  fights _ _ := rfl

instance : AllowsMoves (Over Game.SameAgenda) where
  plans _ _ := rfl

instance : AllowsDepartures (Over Game.SameAgenda) where
  departs h := by
    simp only [Prod.mk.injEq] at h
    exact .of_field h.1 fun id => by rw [h.2.1, Game.lockOf]
  breaks _ _ := rfl

instance : AllowsTime (Over Game.SameAgenda) where
  toAllowsDeeds := inferInstance
  frames _ _ := rfl
  clocks _ := rfl
  pages w d := w.game.sameAgenda_showPages d
  starts w := w.game.sameAgenda_startAutomatic

end World

namespace Act

/-- An act that leaves the agenda as it is. -/
abbrev KeepsAgenda {α : Type} (a : Act α) : Prop := a.Within (World.Over Game.SameAgenda)

end Act

namespace Commands

open Act

/-- No command locks an event, releases one, goes to another map or takes from the queue. -/
theorem keepsAgenda_perform (env : Env) (f : Frame) (c : Command) : (perform env f c).KeepsAgenda :=
  within_perform env f c

theorem keepsAgenda_goOn (env : Env) (f : Frame) (k : Awaited) : (goOn env f k).KeepsAgenda :=
  within_goOn env f k

end Commands

end EventScript
