import EventScript.Proofs.Moments
import Mathlib.Logic.Function.Basic

/-!
# Vehicles

Who rides a vehicle takes only themselves along: where the vehicle is gets noted when they get off,
and even then without the map.

* `Field.Rides` and `Field.Puts` are all that becomes of the vehicles, and `Taken.fares_of_turn`
  shows that a turn does nothing else to them.
* `Moment.LastBerth` is the map on which a vehicle was boarded or put last.
* `Director.vehicles_of_run`: at most one vehicle is in use at any time, and one that is left stands
  where the player is, on the map on which it was boarded or put last.
-/

namespace EventScript

open Act

theorem Number.index?_ofNat (k : Fin 3) : Number.index? (Int32.ofNat k) = some k.val := by
  revert k
  decide

namespace Field

variable {d d' : Field} {k : Fin 3} {kind : Number}

/-! ## The vehicles of a field -/

theorem vehicle?_of_index (hk : Number.index? kind = some k.val) :
    d.vehicle? kind = some (d.vehicles.get k) := by
  rw [vehicle?, hk]
  exact Vector.getElem?_eq_getElem k.isLt

theorem exists_of_vehicle? {v : Vehicle} (h : d.vehicle? kind = some v) :
    ∃ k : Fin 3, Number.index? kind = some k.val ∧ d.vehicles.get k = v := by
  obtain ⟨i, hi, hv⟩ := Option.bind_eq_some_iff.1 h
  obtain ⟨hlt, hv⟩ := Vector.getElem?_eq_some_iff.1 hv
  exact ⟨⟨i, hlt⟩, hi, hv⟩

theorem berth_setIfInBounds (d : Field) (k : Fin 3) (v : Vehicle) :
    ({ d with vehicles := d.vehicles.setIfInBounds k v } : Field).berth =
      Function.update d.berth k (v.mapId, v.inUse) := by
  funext j
  simp only [berth, vector_get_setIfInBounds, Function.update_apply]
  by_cases h : j = k
  · subst h
    simp
  · have hne : k.val ≠ j.val := fun hv => h (Fin.ext hv.symm)
    simp [h, hne]

theorem setVehicle_of_index (hk : Number.index? kind = some k.val) (v : Vehicle) :
    d.setVehicle kind v = { d with vehicles := d.vehicles.setIfInBounds k v } := by
  rw [setVehicle, hk]

theorem ridden_eq_none (h : d.ridden = none) (k : Fin 3) : (d.vehicles.get k).inUse = false := by
  rw [ridden, Option.map_eq_none_iff, List.findIdx?_eq_none_iff] at h
  exact h _ (Vector.mem_toList_iff.2 (Vector.getElem_mem _))

theorem exists_of_ridden (h : d.ridden = some kind) :
    ∃ k : Fin 3, Number.index? kind = some k.val ∧ (d.vehicles.get k).inUse = true := by
  rw [ridden, Option.map_eq_some_iff] at h
  obtain ⟨i, hi, rfl⟩ := h
  obtain ⟨hlt, hinUse, -⟩ := List.findIdx?_eq_some_iff_getElem.1 hi
  rw [Vector.length_toList] at hlt
  exact ⟨⟨i, hlt⟩, Number.index?_ofNat ⟨i, hlt⟩, hinUse⟩

/-! ## What becomes of them -/

/-- At most one vehicle is in use. -/
def OneRide (d : Field) : Prop :=
  ∀ j k : Fin 3, (d.vehicles.get j).inUse = true → (d.vehicles.get k).inUse = true → j = k

/-- Someone gets off. The vehicle stays where the player is, and keeps the map that it had. -/
structure GetsOff (d d' : Field) (k : Fin 3) : Prop where
  ridden : (d.vehicles.get k).inUse = true
  id : d'.id = d.id
  berth : d'.berth = Function.update d.berth k ((d.vehicles.get k).mapId, false)
  x : (d'.vehicles.get k).character.x = d'.player.x
  y : (d'.vehicles.get k).character.y = d'.player.y

/-- Someone gets on a vehicle of the map, where nobody rode one. -/
structure GetsOn (d d' : Field) (k : Fin 3) : Prop where
  free : ∀ j : Fin 3, (d.vehicles.get j).inUse = false
  id : d'.id = d.id
  berth : d'.berth = Function.update d.berth k (d.id, true)

/-- All vehicles stay on their maps, in use or not as before. -/
structure Stays (d d' : Field) : Prop where
  id : d'.id = d.id
  berth : d'.berth = d.berth

/-- What getting on or off does to the vehicles. -/
inductive Rides (d d' : Field) : Prop
  | off {k : Fin 3} (h : d.GetsOff d' k)
  | on {k : Fin 3} (h : d.GetsOn d' k)
  | stays (h : d.Stays d')

/-- A vehicle is put on a map, in use or not as before. -/
structure Puts (d d' : Field) (k : Fin 3) : Prop where
  id : d'.id = d.id
  berth : ∃ m, d'.berth = Function.update d.berth k (m, (d.vehicles.get k).inUse)

theorem of_update {m : Number} {b : Bool} (h : d'.berth = Function.update d.berth k (m, b)) :
    (d'.vehicles.get k).mapId = m ∧ (d'.vehicles.get k).inUse = b := by
  have hk : ((d'.vehicles.get k).mapId, (d'.vehicles.get k).inUse) = (m, b) :=
    (congrFun h k).trans (Function.update_self _ _ _)
  exact Prod.mk.inj hk

theorem of_update_ne {m : Number} {b : Bool} {j : Fin 3}
    (h : d'.berth = Function.update d.berth k (m, b)) (hj : j ≠ k) :
    (d'.vehicles.get j).mapId = (d.vehicles.get j).mapId ∧
      (d'.vehicles.get j).inUse = (d.vehicles.get j).inUse := by
  have hberth : ((d'.vehicles.get j).mapId, (d'.vehicles.get j).inUse) =
      ((d.vehicles.get j).mapId, (d.vehicles.get j).inUse) :=
    (congrFun h j).trans (Function.update_of_ne hj _ _)
  exact Prod.mk.inj hberth

theorem Stays.same (h : d.Stays d') (k : Fin 3) :
    (d'.vehicles.get k).mapId = (d.vehicles.get k).mapId ∧
      (d'.vehicles.get k).inUse = (d.vehicles.get k).inUse :=
  Prod.mk.inj (congrFun h.berth k)

theorem Stays.refl (d : Field) : d.Stays d := ⟨rfl, rfl⟩

/-- A vehicle of the map that stands where the player is, or on the tile ahead. -/
def InReach (d : Field) (k : Fin 3) : Prop :=
  (d.vehicles.get k).mapId = d.id ∧
    ((d.vehicles.get k).character.x = d.player.x ∧ (d.vehicles.get k).character.y = d.player.y ∨
      ∃ ahead, d.player.walk d.player.direction = .ok ahead ∧
        (d.vehicles.get k).character.x = ahead.x ∧ (d.vehicles.get k).character.y = ahead.y)

theorem OneRide.of_imp (h : d.OneRide)
    (hle : ∀ j : Fin 3, (d'.vehicles.get j).inUse = true → (d.vehicles.get j).inUse = true) :
    d'.OneRide :=
  fun i j hi hj => h i j (hle i hi) (hle j hj)

/-- Where somebody gets off, gets on or does neither, at most one vehicle stays in use. -/
theorem Rides.oneRide (hrides : d.Rides d') (h : d.OneRide) : d'.OneRide := by
  cases hrides with
  | stays hstays => exact h.of_imp fun j hj => (hstays.same j).2 ▸ hj
  | @off k hoff =>
    refine h.of_imp fun j hj => ?_
    by_cases hk : j = k
    · exact hk ▸ hoff.ridden
    · exact (of_update_ne hoff.berth hk).2 ▸ hj
  | @on k hon =>
    have hall (j : Fin 3) (hj : (d'.vehicles.get j).inUse = true) : j = k := by
      by_contra hk
      rw [(of_update_ne hon.berth hk).2, hon.free j] at hj
      cases hj
    exact fun i j hi hj => (hall i hi).trans (hall j hj).symm

theorem Puts.oneRide (hputs : d.Puts d' k) (h : d.OneRide) : d'.OneRide := by
  obtain ⟨m, hm⟩ := hputs.berth
  refine h.of_imp fun j hj => ?_
  by_cases hk : j = k
  · subst hk
    exact (of_update hm).2 ▸ hj
  · exact (of_update_ne hm hk).2 ▸ hj

variable {u : Field}

theorem GetsOff.of_stays (h : d.Stays u) (hoff : u.GetsOff d' k) : d.GetsOff d' k := by
  obtain ⟨hmap, hinUse⟩ := h.same k
  refine ⟨hinUse ▸ hoff.ridden, hoff.id.trans h.id, ?_, hoff.x, hoff.y⟩
  rw [hoff.berth, h.berth, hmap]

theorem GetsOn.of_stays (h : d.Stays u) (hon : u.GetsOn d' k) : d.GetsOn d' k := by
  refine ⟨fun j => (h.same j).2.symm.trans (hon.free j), hon.id.trans h.id, ?_⟩
  rw [hon.berth, h.berth, h.id]

theorem Rides.of_stays (h : d.Stays u) (hrides : u.Rides d') : d.Rides d' := by
  cases hrides with
  | off hoff => exact .off (hoff.of_stays h)
  | on hon => exact .on (hon.of_stays h)
  | stays hstays => exact .stays ⟨hstays.id.trans h.id, hstays.berth.trans h.berth⟩

theorem Puts.of_stays (h : d.Stays u) (hputs : u.Puts d' k) : d.Puts d' k := by
  obtain ⟨m, hm⟩ := hputs.berth
  exact ⟨hputs.id.trans h.id, m, by rw [hm, h.berth, (h.same k).2]⟩

end Field

theorem Game.SameStations.stays {g g' : Game} (h : g.SameStations g') : g.field.Stays g'.field := by
  obtain ⟨hid, hberth, -⟩ := sameStations_iff.1 h
  exact ⟨hid, hberth⟩

/-! ## The two commands -/

namespace Commands

/-- Who rides a vehicle gets off. -/
theorem getsOff_of_enterExitVehicle (f : Frame) {w : World} {kind : Number}
    (hridden : w.game.field.ridden = some kind) : Ensures (enterExitVehicle f) w
      fun _ w' => ∃ k, w.game.field.GetsOff w'.game.field k := by
  obtain ⟨k, hk, hinUse⟩ := Field.exists_of_ridden hridden
  unfold enterExitVehicle
  simp only [ensures_bind, ensures_getGame, hridden]
  rw [Field.vehicle?_of_index hk]
  simp only [modifyField, ensures_bind, ensures_modifyGame, ensures_pure,
    Field.setVehicle_of_index hk]
  exact ⟨k, hinUse, rfl, Field.berth_setIfInBounds _ k _, by simp, by simp⟩

/-- Who rides none gets on the first one in reach, if there is one. -/
theorem getsOn_of_enterExitVehicle (f : Frame) {w : World} (hridden : w.game.field.ridden = none) :
    Ensures (enterExitVehicle f) w fun _ w' =>
      (∃ k, w.game.field.GetsOn w'.game.field k ∧ w.game.field.InReach k ∧
        ∀ j < k, ¬ w.game.field.InReach j) ∨
      w' = w ∧ ∀ k, ¬ w.game.field.InReach k := by
  unfold enterExitVehicle
  simp only [ensures_bind, ensures_getGame, hridden, ensures_check]
  intro ahead hahead
  have hnear (k : Fin 3) : ((w.game.field.vehicles.get k).mapId = w.game.field.id &&
      (((w.game.field.vehicles.get k).character.x = w.game.field.player.x &&
        (w.game.field.vehicles.get k).character.y = w.game.field.player.y) ||
        ((w.game.field.vehicles.get k).character.x = ahead.x &&
          (w.game.field.vehicles.get k).character.y = ahead.y))) = true ↔
      w.game.field.InReach k := by
    simp [Field.InReach, hahead]
  split
  · next hnone =>
    rw [List.findIdx?_eq_none_iff] at hnone
    refine ensures_pure.2 (.inr ⟨rfl, fun k hk => ?_⟩)
    have hfar := hnone _ (Vector.mem_toList_iff.2 (Vector.getElem_mem k.isLt))
    exact Bool.false_ne_true (hfar.symm.trans ((hnear k).2 hk))
  · next i hi =>
    obtain ⟨hlt, hfound, hbefore⟩ := List.findIdx?_eq_some_iff_getElem.1 hi
    rw [Vector.length_toList] at hlt
    have hreach := (hnear ⟨i, hlt⟩).1 hfound
    rw [Vector.getElem?_eq_getElem hlt]
    simp only [modifyField, ensures_bind, ensures_modifyGame, ensures_pure]
    refine .inl ⟨⟨i, hlt⟩, ⟨Field.ridden_eq_none hridden, rfl, ?_⟩, hreach, fun j hj hin => ?_⟩
    · rw [← hreach.1]
      exact Field.berth_setIfInBounds _ ⟨i, hlt⟩ _
    · exact hbefore j hj ((hnear j).2 hin)

theorem rides_of_enterExitVehicle (f : Frame) (w : World) : Ensures (enterExitVehicle f) w
    fun _ w' => w.game.field.Rides w'.game.field := by
  cases hridden : w.game.field.ridden with
  | some kind => exact (getsOff_of_enterExitVehicle f hridden).imp fun _ _ ⟨_, hoff⟩ => .off hoff
  | none =>
    refine (getsOn_of_enterExitVehicle f hridden).imp fun _ w' h => ?_
    rcases h with ⟨k, hon, -⟩ | ⟨rfl, -⟩
    · exact .on hon
    · exact .stays (.refl _)

theorem puts_of_setVehicleLocation (f : Frame) (c : Command) (w : World) :
    Ensures (setVehicleLocation f c) w fun _ w' => w.game.field.Stays w'.game.field ∨
      ∃ k : Fin 3, Number.index? (c.param 0) = some k.val ∧ w.game.field.Puts w'.game.field k := by
  unfold setVehicleLocation
  have hreads (n : Number) : (operand (c.param 1) n).Reads := within_operand _ _
  refine Ensures.bind (hreads _ w) fun _ u hu => ?_
  refine Ensures.bind (hreads _ u) fun _ v hv => ?_
  refine Ensures.bind (hreads _ v) fun _ v' hv' => ?_
  have hgame : v'.game = w.game := (hu.trans (hv.trans hv')).symm
  simp only [ensures_bind, ensures_getGame, hgame]
  split
  · simp only [ensures_bind, ensures_warn, ensures_pure]
    exact .inl (hgame ▸ .refl _)
  · next old hold =>
    obtain ⟨k, hk, rfl⟩ := Field.exists_of_vehicle? hold
    simp only [modifyField, ensures_bind, ensures_modifyGame, ensures_pure]
    rw [hgame, Field.setVehicle_of_index hk]
    exact .inr ⟨k, hk, rfl, _, Field.berth_setIfInBounds _ k _⟩

theorem field_of_terminateBattle (f : Frame) (w : World) : Ensures (terminateBattle f) w
    fun _ w' => w'.game.field = w.game.field := by
  simp only [terminateBattle, ensures_bind, ensures_getGame]
  split
  · simp only [ensures_bind, ensures_warn, ensures_pure]
  · simp only [ensures_bind, ensures_setGame, ensures_pure]

end Commands

namespace Frame.Runs

variable {env : Env} {f : Frame} {w w' : World} {c : Command} {t : Turn}

theorem rides (h : f.Runs env w c t w') (hc : c.opcode = .field .enterExitVehicle) :
    w.game.field.Rides w'.game.field := by
  obtain ⟨g, u, v, o, -, hsame, ho, hw'⟩ := h.performed
  rw [hw']
  refine .of_stays hsame.stays ?_
  unfold Commands.perform at ho
  cases hg : g.context with
  | field =>
    rw [hg, hc] at ho
    exact Commands.rides_of_enterExitVehicle g u o v ho
  | battle =>
    rw [hg, hc] at ho
    cases ho
    exact .stays (.refl _)

theorem puts (h : f.Runs env w c t w') (hc : c.opcode = .field .setVehicleLocation) :
    w.game.field.Stays w'.game.field ∨ ∃ k : Fin 3, f.context = .field ∧
      Number.index? (c.param 0) = some k.val ∧ w.game.field.Puts w'.game.field k := by
  obtain ⟨g, u, v, o, hcontext, hsame, ho, hw'⟩ := h.performed
  rw [hw', ← hcontext]
  unfold Commands.perform at ho
  cases hg : g.context with
  | field =>
    rw [hg, hc] at ho
    rcases Commands.puts_of_setVehicleLocation g c u o v ho with hstays | ⟨k, hk, hputs⟩
    · exact .inl ⟨hstays.id.trans hsame.stays.id, hstays.berth.trans hsame.stays.berth⟩
    · exact .inr ⟨k, rfl, hk, hputs.of_stays hsame.stays⟩
  | battle =>
    rw [hg, hc] at ho
    cases ho
    exact .inl hsame.stays

theorem stays (h : f.Runs env w c t w') (hc : c.opcode = .battle .terminateBattle) :
    w.game.field.Stays w'.game.field := by
  obtain ⟨g, u, v, o, -, hsame, ho, hw'⟩ := h.performed
  rw [hw']
  unfold Commands.perform at ho
  cases hg : g.context with
  | battle =>
    rw [hg, hc] at ho
    rw [Commands.field_of_terminateBattle g u o v ho]
    exact hsame.stays
  | field =>
    rw [hg, hc] at ho
    cases ho
    exact hsame.stays

end Frame.Runs

/-! ## Turns -/

namespace Interpreter.Taken

variable {env : Env} {x : Taken} {k : Fin 3}

/-- The turn runs a command to get on or off. -/
def Rides (env : Env) (x : Taken) : Prop :=
  ∃ c, c.opcode = .field .enterExitVehicle ∧ x.frame.Runs env x.before c x.turn x.after

/-- The turn ends a ride. -/
structure Leaves (env : Env) (x : Taken) (k : Fin 3) : Prop where
  rides : x.Rides env
  before : (x.before.game.field.vehicles.get k).inUse = true
  after : (x.after.game.field.vehicles.get k).inUse = false

/-- The turn begins a ride. -/
structure Boards (env : Env) (x : Taken) (k : Fin 3) : Prop where
  rides : x.Rides env
  before : (x.before.game.field.vehicles.get k).inUse = false
  after : (x.after.game.field.vehicles.get k).inUse = true

/-- The turn runs a command that puts a vehicle on a place. -/
def Puts (env : Env) (x : Taken) (k : Fin 3) : Prop :=
  ∃ c, c.opcode = .field .setVehicleLocation ∧ x.frame.context = .field ∧
    Number.index? (c.param 0) = some k.val ∧ x.frame.Runs env x.before c x.turn x.after

/-- What a turn does to the vehicles. -/
inductive Fares (env : Env) (x : Taken) : Prop
  | stays (h : x.before.game.field.Stays x.after.game.field)
  | rides (hx : x.Rides env) (h : x.before.game.field.Rides x.after.game.field)
  | puts {k : Fin 3} (hx : x.Puts env k) (h : x.before.game.field.Puts x.after.game.field k)

theorem Rides.fields (h : x.Rides env) : x.before.game.field.Rides x.after.game.field := by
  obtain ⟨c, hc, hruns⟩ := h
  exact hruns.rides hc

theorem fares_of_turn (h : x.frame.turn env x.before = .ok (x.turn, x.after)) : x.Fares env := by
  rcases Frame.stations_of_turn env x.frame x.before _ _ h with hsame | ⟨c, hop, hruns⟩
  · exact .stays hsame.stays
  · cases hc : c.opcode with
    | field op =>
      rw [hc] at hop
      cases op with
      | enterExitVehicle => exact .rides ⟨c, hc, hruns⟩ (hruns.rides hc)
      | setVehicleLocation =>
        rcases hruns.puts hc with hstays | ⟨k, hcontext, hk, hputs⟩
        · exact .stays hstays
        · exact .puts ⟨c, hc, hcontext, hk, hruns⟩ hputs
      | _ => cases hop
    | battle op =>
      rw [hc] at hop
      cases op with
      | terminateBattle => exact .stays (hruns.stays hc)
      | _ => cases hop
    | _ => rw [hc] at hop; cases hop

/-- A turn that ends the one ride gets off that vehicle. -/
theorem Leaves.getsOff (h : x.Leaves env k) (hone : x.before.game.field.OneRide) :
    x.before.game.field.GetsOff x.after.game.field k := by
  cases h.rides.fields with
  | off hoff => exact hone _ k hoff.ridden h.before ▸ hoff
  | on hon => exact absurd h.before (hon.free k ▸ nofun)
  | stays hstays =>
    have hkept := (hstays.same k).2
    rw [h.before, h.after] at hkept
    cases hkept

theorem Boards.getsOn (h : x.Boards env k) : x.before.game.field.GetsOn x.after.game.field k := by
  have hne : (x.after.game.field.vehicles.get k).inUse ≠
      (x.before.game.field.vehicles.get k).inUse := by
    rw [h.before, h.after]
    nofun
  cases h.rides.fields with
  | @off j hoff =>
    by_cases hk : k = j
    · subst hk
      exact absurd hoff.ridden (h.before ▸ nofun)
    · exact absurd (Field.of_update_ne hoff.berth hk).2 hne
  | @on j hon =>
    by_cases hk : k = j
    · exact hk ▸ hon
    · exact absurd (Field.of_update_ne hon.berth hk).2 hne
  | stays hstays => exact absurd (hstays.same k).2 hne

end Interpreter.Taken

/-! ## Moments -/

namespace Moment

variable {m : Moment} {ms : List Moment} {k : Fin 3} {id : Number} {u w : World}

/-- A moment that settles on which map a vehicle is: it is boarded on that map, or put there. -/
def Berths : Moment → Fin 3 → Number → Prop
  | turn env x, k, id => x.Boards env k ∧ id = x.before.game.field.id ∨
      x.Puts env k ∧ id = (x.after.game.field.vehicles.get k).mapId
  | aside _ _, _, _ => False

/-- The map on which a vehicle was boarded or put last. -/
def LastBerth (ms : List Moment) (k : Fin 3) (id : Number) : Prop :=
  ∃ older m since, ms = older ++ m :: since ∧ m.Berths k id ∧
    ∀ m' ∈ since, ∀ other, ¬ m'.Berths k other

theorem LastBerth.snoc (h : m.Berths k id) : LastBerth (ms ++ [m]) k id :=
  ⟨ms, m, [], rfl, h, List.forall_mem_nil _⟩

theorem LastBerth.append_of_not (h : LastBerth ms k id) (hm : ∀ other, ¬ m.Berths k other) :
    LastBerth (ms ++ [m]) k id := by
  obtain ⟨older, m', since, rfl, hm', hsince⟩ := h
  refine ⟨older, m', since ++ [m], by simp, hm', fun z hz => ?_⟩
  rcases List.mem_append.1 hz with hz | hz
  · exact hsince z hz
  · exact List.mem_singleton.1 hz ▸ hm

theorem Berths.mapId (h : m.Berths k id) : (m.after.game.field.vehicles.get k).mapId = id := by
  cases m with
  | aside => cases h
  | turn env x =>
    rcases h with ⟨hboards, rfl⟩ | ⟨-, rfl⟩
    · exact (Field.of_update hboards.getsOn.berth).1
    · rfl

/-- What a moment leaves in use was so before, and on the same map, unless the moment settles on
which map it is. -/
theorem Sound.inUse (hm : m.Sound) (hnot : ∀ id, ¬ m.Berths k id)
    (hk : (m.after.game.field.vehicles.get k).inUse = true) :
    (m.before.game.field.vehicles.get k).inUse = true ∧
      (m.after.game.field.vehicles.get k).mapId = (m.before.game.field.vehicles.get k).mapId := by
  -- It is enough that the moment leaves this one vehicle alone.
  suffices h :
      (m.after.game.field.vehicles.get k).mapId = (m.before.game.field.vehicles.get k).mapId ∧
      (m.after.game.field.vehicles.get k).inUse = (m.before.game.field.vehicles.get k).inUse from
    ⟨h.2 ▸ hk, h.1⟩
  cases m with
  | aside u w => exact Prod.mk.inj (congrFun hm k)
  | turn env x =>
    cases Interpreter.Taken.fares_of_turn hm with
    | stays h => exact h.same k
    | @puts j hx h =>
      obtain ⟨n, hberth⟩ := h.berth
      refine Field.of_update_ne hberth fun hj => ?_
      subst hj
      exact hnot _ (.inr ⟨hx, rfl⟩)
    | rides hx h =>
      cases h with
      | stays h => exact h.same k
      | @off j h =>
        refine Field.of_update_ne h.berth fun hj => ?_
        subst hj
        exact absurd hk ((Field.of_update h.berth).2 ▸ nofun)
      | @on j h =>
        refine Field.of_update_ne h.berth fun hj => ?_
        subst hj
        exact hnot _ (.inl ⟨⟨hx, h.free k, hk⟩, rfl⟩)

/-- Rides end in no other way than by getting off. -/
theorem Sound.leaves (hm : m.Sound) (hbefore : (m.before.game.field.vehicles.get k).inUse = true)
    (hafter : (m.after.game.field.vehicles.get k).inUse = false) :
    ∃ env x, m = turn env x ∧ x.Leaves env k := by
  have hne : (m.after.game.field.vehicles.get k).inUse ≠
      (m.before.game.field.vehicles.get k).inUse := by
    rw [hbefore, hafter]
    nofun
  cases m with
  | aside u w => exact absurd (Prod.mk.inj (congrFun hm k)).2 hne
  | turn env x =>
    cases Interpreter.Taken.fares_of_turn hm with
    | stays hstays => exact absurd (hstays.same k).2 hne
    | rides hx => exact ⟨env, x, rfl, hx, hbefore, hafter⟩
    | @puts j _ hputs =>
      obtain ⟨id, hid⟩ := hputs.berth
      by_cases hk : k = j
      · subst hk
        exact absurd (Field.of_update hid).2 hne
      · exact absurd (Field.of_update_ne hid hk).2 hne

theorem Sound.oneRide (hm : m.Sound) (h : m.before.game.field.OneRide) :
    m.after.game.field.OneRide := by
  cases m with
  | aside u w => exact h.of_imp fun j hj => (Prod.mk.inj (congrFun hm j)).2 ▸ hj
  | turn env x =>
    cases Interpreter.Taken.fares_of_turn hm with
    | stays hstays => exact h.of_imp fun j hj => (hstays.same j).2 ▸ hj
    | rides _ hrides => exact hrides.oneRide h
    | puts _ hputs => exact hputs.oneRide h

/-- After some moments: at most one vehicle is in use, and it is on the map on which it was boarded
or put last. -/
structure Moored (ms : List Moment) (d : Field) : Prop where
  oneRide : d.OneRide
  last : ∀ k : Fin 3, (d.vehicles.get k).inUse = true → LastBerth ms k (d.vehicles.get k).mapId

/-- One moment more. -/
theorem Moored.snoc (h : Moored ms m.before.game.field) (hm : m.Sound) :
    Moored (ms ++ [m]) m.after.game.field := by
  refine ⟨hm.oneRide h.oneRide, fun k hk => ?_⟩
  by_cases hberths : ∃ id, m.Berths k id
  · obtain ⟨id, hid⟩ := hberths
    exact hid.mapId ▸ .snoc hid
  · rw [not_exists] at hberths
    obtain ⟨hbefore, hmap⟩ := hm.inUse hberths hk
    exact hmap ▸ (h.last k hbefore).append_of_not hberths

end Moment

/-! ## Runs -/

/-- A vehicle that nobody rides any more: it is where the player is, and noted on a map. On that map
alone it can be boarded again at once. -/
structure Field.LeftAt (d : Field) (k : Fin 3) (id : Number) : Prop where
  free : ∀ j : Fin 3, (d.vehicles.get j).inUse = false
  x : (d.vehicles.get k).character.x = d.player.x
  y : (d.vehicles.get k).character.y = d.player.y
  mapId : (d.vehicles.get k).mapId = id
  inReach : d.InReach k ↔ id = d.id

theorem Field.GetsOff.leftAt {d d' : Field} {k : Fin 3} (h : d.GetsOff d' k) (hone : d.OneRide) :
    d'.LeftAt k (d.vehicles.get k).mapId := by
  obtain ⟨hmap, hfree⟩ := of_update h.berth
  refine ⟨fun j => ?_, h.x, h.y, hmap, ?_⟩
  · by_cases hj : j = k
    · exact hj ▸ hfree
    · rw [(of_update_ne h.berth hj).2]
      by_contra hinUse
      exact hj (hone j k (by simpa using hinUse) h.ridden)
  · rw [InReach, hmap]
    exact and_iff_left (.inl ⟨h.x, h.y⟩)

namespace Director

variable {data : Database} {random : Random} {d : Director}

/-- Vehicles, in any run. At most one is in use, at the end and before and after every moment. One
that is left is not in use any more and stands where the player is, on the map on which it was
boarded or put last, whatever map that is now: it can be boarded again on the spot if that is the
map of the player. -/
theorem vehicles_of_run (h : Reachable data random d) :
    (∃ ms, Chronicle (begin data random) ms d) ∧
    ∀ ms, Chronicle (begin data random) ms d → d.game.field.OneRide ∧
      (∀ m ∈ ms, m.before.game.field.OneRide ∧ m.after.game.field.OneRide) ∧
      ∀ pre env x post k, ms = pre ++ .turn env x :: post → x.Leaves env k →
        ∃ id, Moment.LastBerth pre k id ∧ x.after.game.field.LeftAt k id := by
  refine ⟨h.exists_chronicle, fun ms hms => ?_⟩
  have hfree (k : Fin 3) : ((begin data random).game.field.vehicles.get k).inUse = false := by
    have hberth : (begin data random).game.field.berth = _ := berth_enterMap _ data data.start.mapId
    refine (congrArg Prod.snd (congrFun hberth k)).trans ?_
    exact congrArg Vehicle.inUse (Vector.getElem_replicate k.isLt)
  have hfresh : Moment.Moored [] (begin data random).game.field :=
    ⟨fun j _ hj _ => absurd hj (hfree j ▸ nofun), fun k hk => absurd hk (hfree k ▸ nofun)⟩
  have hmoored {pre : List Moment} {w : World}
      (hpre : Moment.Linked (begin data random).world pre w) : Moment.Moored pre w.game.field :=
    hpre.along (I := fun pre w => Moment.Moored pre w.game.field) hfresh fun _ _ hm h => h.snoc hm
  refine ⟨(hmoored hms.linked).oneRide, fun m hm => ?_, fun pre env x post k hx hleaves => ?_⟩
  · obtain ⟨pre, post, rfl⟩ := List.append_of_mem hm
    obtain ⟨hpre, hsound, -⟩ := hms.linked.apart
    exact ⟨(hmoored hpre).oneRide, hsound.oneRide (hmoored hpre).oneRide⟩
  · obtain ⟨hpre, -, -⟩ := (hx ▸ hms.linked).apart
    have hoff := hleaves.getsOff (hmoored hpre).oneRide
    exact ⟨_, (hmoored hpre).last k hoff.ridden, hoff.leftAt (hmoored hpre).oneRide⟩

/-- On the first map the event puts a boat where the player is and gets on, moves the player to the
second map, and gets off. -/
def ferry : Database where
  maps := [
    { id := 1, events := [{ id := 1, pages := [{
        trigger := .autoStart
        commands := [
          { code := FieldOp.setVehicleLocation.code, params := [0, 0, 1, 0, 0] },
          { code := FieldOp.enterExitVehicle.code },
          { code := FieldOp.teleport.code, params := [2, 3, 4] },
          { code := FieldOp.enterExitVehicle.code }] }] }] },
    { id := 2 }]

/-- The boat is left where the player is, but stays noted on the first map. -/
theorem ferry_left_on_old_map : ferry.validate = .ok () ∧ ∃ d ms pre env x post id,
    Reachable ferry default d ∧ Chronicle (begin ferry default) ms d ∧
    ms = pre ++ .turn env x :: post ∧
    x.Leaves env 0 ∧ Moment.LastBerth pre 0 id ∧ x.after.game.field.LeftAt 0 id ∧
    (d.game.field.vehicles.get 0).mapId = 1 ∧ d.game.field.id = 2 := by
  have hvalid : ferry.validate = .ok () := by rfl
  have hrun : ∃ d, [Call.tick, .tick].forM Call.run (begin ferry default) = .ok ((), d) ∧
      ((d.game.field.vehicles.get 0).inUse = true ∧ ∃ d', fieldTick d = .ok ((), d') ∧
        ((d'.game.field.vehicles.get 0).inUse = false ∧ (d'.game.field.vehicles.get 0).mapId = 1 ∧
          d'.game.field.id = 2)) := by
    decide +kernel
  obtain ⟨d, hfirst, hriding, d', hlast, hleft, hmap, hid⟩ := hrun
  have hreach : Reachable ferry default d := ⟨_, hfirst⟩
  have hreach' : Reachable ferry default d' := hreach.call (c := .tick) hlast
  -- The ride ends in one of the moments of the last tick.
  obtain ⟨hs, hhistory⟩ := leads_fieldTick d () d' hlast
  obtain ⟨ms, hms⟩ := hreach.exists_chronicle
  obtain ⟨rest, hrest⟩ := hhistory.exists_chronicle
  obtain ⟨pre, m, post, rfl, hbefore, hafter⟩ :=
    hrest.linked.exists_end (P := fun w => (w.game.field.vehicles.get 0).inUse = true) hriding
      (Bool.not_eq_true _ ▸ hleft)
  have hm := hrest.linked.sound_of_mem (List.mem_append_right _ List.mem_cons_self)
  obtain ⟨env, x, rfl, hleaves⟩ := hm.leaves (k := 0) hbefore (Bool.not_eq_true _ ▸ hafter)
  have hsplit : ms ++ (pre ++ .turn env x :: post) = (ms ++ pre) ++ .turn env x :: post :=
    (List.append_assoc _ _ _).symm
  obtain ⟨id, hlastBerth, hat⟩ := ((vehicles_of_run hreach').2 _ (hms.append hrest)).2.2
    (ms ++ pre) env x post 0 hsplit hleaves
  exact ⟨hvalid, d', _, _, env, x, post, id, hreach', hms.append hrest, hsplit, hleaves, hlastBerth,
    hat, hmap, hid⟩

end Director

end EventScript
