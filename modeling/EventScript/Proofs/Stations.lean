import EventScript.Proofs.Agenda

/-!
# Vehicles and the battle

On which map a vehicle is, which one is in use, which troop is fought and whether the battle was
broken off is a matter of three commands only.

* `Game.stations` is all of this together with the map of the party, and `Act.KeepsStations` says
  that an act leaves it as it is.
* `Commands.keepsStations_perform`: so does every operation but those that `Opcode.stationed` names,
  in every context, and so do answers and keys.
* `Act.within_tick`: so does everything that moves by itself.
-/

namespace EventScript

-- What the library says of places within bounds, for those that are so by their type.

@[simp] theorem vector_get_set {α : Type} {n i : Nat} (xs : Vector α n) (hi : i < n) (x : α)
    (k : Fin n) : (xs.set i x hi).get k = if i = k.val then x else xs.get k :=
  Vector.getElem_set hi k.isLt

@[simp] theorem vector_get_setIfInBounds {α : Type} {n : Nat} (xs : Vector α n) (i : Nat) (x : α)
    (k : Fin n) : (xs.setIfInBounds i x).get k = if i = k.val then x else xs.get k :=
  Vector.getElem_setIfInBounds k.isLt

/-- The map on which a vehicle is, and whether it is in use. -/
def Field.berth (d : Field) (k : Fin 3) : Number × Bool :=
  ((d.vehicles.get k).mapId, (d.vehicles.get k).inUse)

namespace Field

theorem berth_setCharacter (d : Field) (id self : Number) (c : Character) :
    (d.setCharacter id self c).berth = d.berth := by
  unfold setCharacter
  split
  · rfl
  · next kind _ =>
    funext k
    simp only [berth, vector_get_set]
    split
    · next h =>
      obtain rfl := Fin.ext h
      rfl
    · rfl
  · rfl

theorem id_setVehicle (d : Field) (kind : Number) (v : Vehicle) :
    (d.setVehicle kind v).id = d.id := by
  unfold setVehicle
  split <;> rfl

theorem berth_haltAll (d : Field) : d.haltAll.berth = d.berth := by
  funext k
  exact (congrArg (fun v : Vehicle => (v.mapId, v.inUse)) (Vector.getElem_map _ k.isLt)).trans rfl

/-- A vehicle that goes back to its place on the same map, in use or not as before. -/
theorem berth_setVehicle {d : Field} {kind : Number} {v v' : Vehicle}
    (hv : d.vehicle? kind = some v) (h : (v'.mapId, v'.inUse) = (v.mapId, v.inUse)) :
    (d.setVehicle kind v').berth = d.berth := by
  obtain ⟨i, hi, hv⟩ := Option.bind_eq_some_iff.1 hv
  obtain ⟨hlt, rfl⟩ := Vector.getElem?_eq_some_iff.1 hv
  funext k
  simp only [setVehicle, hi, berth, vector_get_setIfInBounds]
  split
  · next hk =>
    subst hk
    exact h
  · rfl

end Field

namespace Game

/-- The map of the party, the berths of the vehicles, and the troop that is fought, with whether its
battle was broken off. -/
def stations (g : Game) : Number × (Fin 3 → Number × Bool) × Option (Number × Bool) :=
  (g.field.id, g.field.berth, g.troop.map fun t => (t.id, t.terminated))

/-- Two games with the same stations. -/
def SameStations (g g' : Game) : Prop := g'.stations = g.stations

variable {g g' g'' : Game}

theorem SameStations.refl (g : Game) : g.SameStations g := rfl

theorem SameStations.trans (h : g.SameStations g') (h' : g'.SameStations g'') :
    g.SameStations g'' :=
  Eq.trans h' h

instance : Trans SameStations SameStations SameStations := ⟨SameStations.trans⟩

theorem sameStations_iff : g.SameStations g' ↔ g'.field.id = g.field.id ∧
    g'.field.berth = g.field.berth ∧
    (g'.troop.map fun t => (t.id, t.terminated)) = g.troop.map fun t => (t.id, t.terminated) := by
  simp only [SameStations, stations, Prod.mk.injEq]

/-- Whatever happens on the field that moves no vehicle from its berth. -/
theorem SameStations.of_field {d : Field} (hid : d.id = g.field.id)
    (hberth : d.berth = g.field.berth) : g.SameStations { g with field := d } :=
  sameStations_iff.2 ⟨hid, hberth, rfl⟩

theorem sameStations_setCharacter (g : Game) (id self : Number) (c : Character) :
    g.SameStations { g with field := g.field.setCharacter id self c } :=
  .of_field (Field.id_setCharacter _ _ _ _) (Field.berth_setCharacter _ _ _ _)

/-- Whatever happens in a battle with the same troop that does not break it off. -/
theorem SameStations.of_troop {t t' : Troop} (ht : g.troop = some t)
    (h : (t'.id, t'.terminated) = (t.id, t.terminated)) :
    g.SameStations { g with troop := some t' } :=
  sameStations_iff.2 ⟨rfl, rfl, by rw [ht]; exact congrArg some h⟩

end Game

namespace World

instance : AllowsMoves (Over Game.SameStations) where
  toLenient := .over .refl .trans
  aside hfield htroop _ := Game.sameStations_iff.2 ⟨by rw [hfield], by rw [hfield], by rw [htroop]⟩
  ground h := by
    simp only [Prod.mk.injEq] at h
    exact .of_field h.1 (funext fun k => by rw [Field.berth, h.2.2.1, Field.berth])
  character _ _ := Game.sameStations_setCharacter _ _ _ _
  erases _ _ := rfl
  halts w := .of_field rfl (Field.berth_haltAll w.game.field)
  vehicle hv h := .of_field (Field.id_setVehicle _ _ _) (Field.berth_setVehicle hv h)
  fights := .of_troop
  plans _ _ := rfl

instance : AllowsTime (Over Game.SameStations) where
  toAllowsDeeds := inferInstance
  frames _ _ := rfl
  clocks _ := rfl
  pages _ _ := rfl
  starts _ := rfl

end World

namespace Act

/-- An act that leaves the stations as they are. -/
abbrev KeepsStations {α : Type} (a : Act α) : Prop := a.Within (World.Over Game.SameStations)

end Act

namespace Commands

open Act

/-- Three operations aside, no command puts a vehicle on another map, lets someone get on or off,
goes to another troop or breaks a battle off. -/
theorem keepsStations_perform (env : Env) (f : Frame) {c : Command}
    (hc : c.opcode.stationed = false) : (perform env f c).KeepsStations :=
  within_perform_of_moves env f hc

theorem keepsStations_goOn (env : Env) (f : Frame) (k : Awaited) :
    (goOn env f k).KeepsStations :=
  within_goOn env f k

end Commands

end EventScript
