import EventScript.Database.Validation

/-!
# Which databases are accepted

* `FirstRepeat` says that an id is the first of a list that stands there before; it is the one that
  `firstRepeat?` finds.
* `Database.Accepted` says what is asked of a database, without the order in which it is asked.
  `validate_eq_ok_iff` shows that exactly these databases pass.
* `Database.Repeats` says which id is reported, and of which list, where one occurs twice.
* `Database.FindsAll`: in an accepted database every record is found under its id.
* `validate_exact` puts these together.
-/

namespace EventScript

/-! ## Checks one after another -/

variable {x y : Except LoadError Unit} {e : LoadError}

theorem both_eq_ok_iff : (do x; y) = .ok () ↔ x = .ok () ∧ y = .ok () := by
  cases x with
  | error e => exact ⟨nofun, nofun⟩
  | ok u => exact ⟨fun h => ⟨rfl, h⟩, fun h => h.2⟩

theorem both_eq_error_iff :
    (do x; y) = .error e ↔ x = .error e ∨ (x = .ok () ∧ y = .error e) := by
  cases x with
  | error e' =>
    constructor
    · intro h
      exact .inl h
    · rintro (h | ⟨h, -⟩)
      · exact h
      · cases h
  | ok u =>
    constructor
    · intro h
      exact .inr ⟨rfl, h⟩
    · rintro (h | ⟨-, h⟩)
      · cases h
      · exact h

/-! ## Ids that repeat -/

/-- The first id of a list that repeats an earlier one. -/
def FirstRepeat (ids : List Number) (id : Number) : Prop :=
  ∃ before after, ids = before ++ id :: after ∧ before.Nodup ∧ id ∈ before

theorem firstRepeat?_eq_none_iff {seen ids : List Number} :
    firstRepeat? seen ids = none ↔ ids.Nodup ∧ ∀ id ∈ ids, id ∉ seen := by
  induction ids generalizing seen with
  | nil => simp [firstRepeat?]
  | cons id ids ih =>
    by_cases hid : id ∈ seen
    · simp [firstRepeat?, hid]
    · simp only [firstRepeat?, hid, if_false, ih, List.nodup_cons, List.forall_mem_cons]
      simp only [List.mem_cons, not_or]
      constructor
      · rintro ⟨hnodup, hnew⟩
        have hfirst : id ∉ ids := fun hmem => (hnew id hmem).1 rfl
        exact ⟨⟨hfirst, hnodup⟩, not_false, fun j hj => (hnew j hj).2⟩
      · rintro ⟨⟨hfirst, hnodup⟩, -, hnew⟩
        refine ⟨hnodup, fun j hj => ⟨?_, hnew j hj⟩⟩
        rintro rfl
        exact hfirst hj

/-- What is found repeats an id of the list before it, or one seen before the list. -/
theorem firstRepeat?_eq_some_iff {seen ids : List Number} {id : Number} :
    firstRepeat? seen ids = some id ↔ ∃ before after, ids = before ++ id :: after ∧
      before.Nodup ∧ (∀ j ∈ before, j ∉ seen) ∧ (id ∈ before ∨ id ∈ seen) := by
  induction ids generalizing seen with
  | nil => simp [firstRepeat?]
  | cons j ids ih =>
    by_cases hj : j ∈ seen
    · simp only [firstRepeat?, hj, if_true, Option.some.injEq]
      constructor
      · rintro rfl
        exact ⟨[], ids, rfl, .nil, nofun, .inr hj⟩
      · rintro ⟨before, after, hids, -, hnew, -⟩
        cases before with
        | nil => exact (List.cons.inj hids).1
        | cons k before =>
          obtain ⟨rfl, -⟩ := List.cons.inj hids
          exact absurd hj (hnew _ List.mem_cons_self)
    · simp only [firstRepeat?, hj, if_false, ih]
      constructor
      · rintro ⟨before, after, rfl, hnodup, hnew, hid⟩
        have hfirst : j ∉ before := fun hmem => hnew j hmem List.mem_cons_self
        refine ⟨j :: before, after, rfl, List.nodup_cons.2 ⟨hfirst, hnodup⟩, ?_, ?_⟩
        · intro k hk
          rcases List.mem_cons.1 hk with rfl | hk
          · exact hj
          · exact fun hseen => hnew k hk (List.mem_cons_of_mem _ hseen)
        · rcases hid with hid | hid
          · exact .inl (List.mem_cons_of_mem _ hid)
          · rcases List.mem_cons.1 hid with rfl | hid
            · exact .inl List.mem_cons_self
            · exact .inr hid
      · rintro ⟨before, after, hids, hnodup, hnew, hid⟩
        cases before with
        | nil =>
          obtain ⟨rfl, -⟩ := List.cons.inj hids
          exact absurd (hid.resolve_left nofun) hj
        | cons k before =>
          obtain ⟨rfl, rfl⟩ := List.cons.inj hids
          obtain ⟨hfirst, hnodup⟩ := List.nodup_cons.1 hnodup
          refine ⟨before, after, rfl, hnodup, fun k hk hseen => ?_, ?_⟩
          · rcases List.mem_cons.1 hseen with rfl | hseen
            · exact hfirst hk
            · exact hnew k (List.mem_cons_of_mem _ hk) hseen
          · rcases hid with hid | hid
            · rcases List.mem_cons.1 hid with rfl | hid
              · exact .inr List.mem_cons_self
              · exact .inl hid
            · exact .inr (List.mem_cons_of_mem _ hid)

/-- The error that reports an id of a kind of records. -/
def LoadError.repeated (what : String) (id : Number) : LoadError :=
  { cause := .duplicateId, event := some id, text := what }

theorem requireDistinct_eq_ok_iff {what : String} {ids : List Number} :
    requireDistinct what ids = .ok () ↔ ids.Nodup := by
  unfold requireDistinct
  cases h : firstRepeat? [] ids with
  | some id =>
    have hnot : ¬ ids.Nodup := by
      intro hnodup
      have hnone : firstRepeat? [] ids = none :=
        firstRepeat?_eq_none_iff.2 ⟨hnodup, fun _ _ => nofun⟩
      rw [h] at hnone
      cases hnone
    exact ⟨nofun, fun hnodup => absurd hnodup hnot⟩
  | none => exact ⟨fun _ => (firstRepeat?_eq_none_iff.1 h).1, fun _ => rfl⟩

theorem requireDistinct_eq_error_iff {what : String} {ids : List Number} :
    requireDistinct what ids = .error e ↔ ∃ id, FirstRepeat ids id ∧ e = .repeated what id := by
  have hfound (id : Number) : firstRepeat? [] ids = some id ↔ FirstRepeat ids id := by
    simp [firstRepeat?_eq_some_iff, FirstRepeat]
  unfold requireDistinct
  cases h : firstRepeat? [] ids with
  | some id =>
    constructor
    · intro he
      exact ⟨id, (hfound id).1 h, (Except.error.inj he).symm⟩
    · rintro ⟨j, hj, rfl⟩
      rw [(hfound j).2 hj] at h
      cases h
      rfl
  | none =>
    refine ⟨nofun, ?_⟩
    rintro ⟨j, hj, -⟩
    rw [(hfound j).2 hj] at h
    cases h

/-- The first of some lists of ids in which one repeats, with what its ids name and with the first
id that does. -/
def FirstRepeatAmong (lists : List (String × List Number)) (what : String) (id : Number) : Prop :=
  ∃ before ids after, lists = before ++ (what, ids) :: after ∧
    (∀ l ∈ before, l.2.Nodup) ∧ FirstRepeat ids id

theorem forM_requireDistinct_eq_ok_iff {lists : List (String × List Number)} :
    (forM lists fun l => requireDistinct l.1 l.2) = .ok () ↔ ∀ l ∈ lists, l.2.Nodup := by
  induction lists with
  | nil => exact ⟨fun _ => nofun, fun _ => rfl⟩
  | cons l lists ih =>
    rw [List.forM_cons, both_eq_ok_iff, requireDistinct_eq_ok_iff, ih, List.forall_mem_cons]

theorem forM_requireDistinct_eq_error_iff {lists : List (String × List Number)} :
    (forM lists fun l => requireDistinct l.1 l.2) = .error e ↔
      ∃ what id, FirstRepeatAmong lists what id ∧ e = .repeated what id := by
  induction lists with
  | nil =>
    refine ⟨nofun, ?_⟩
    rintro ⟨what, id, ⟨before, ids, after, hl, -⟩, -⟩
    exact absurd hl.symm (by simp)
  | cons l lists ih =>
    rw [List.forM_cons, both_eq_error_iff, requireDistinct_eq_error_iff, requireDistinct_eq_ok_iff,
      ih]
    constructor
    · rintro (⟨id, hid, rfl⟩ | ⟨hl, what, id, ⟨before, ids, after, rfl, hbefore, hid⟩, rfl⟩)
      · exact ⟨l.1, id, ⟨[], l.2, lists, rfl, nofun, hid⟩, rfl⟩
      · exact ⟨what, id, ⟨l :: before, ids, after, rfl, List.forall_mem_cons.2 ⟨hl, hbefore⟩, hid⟩,
          rfl⟩
    · rintro ⟨what, id, ⟨before, ids, after, hlists, hbefore, hid⟩, rfl⟩
      cases before with
      | nil =>
        obtain ⟨rfl, -⟩ := List.cons.inj hlists
        exact .inl ⟨id, hid, rfl⟩
      | cons b before =>
        obtain ⟨rfl, rfl⟩ := List.cons.inj hlists
        obtain ⟨hl, hbefore⟩ := List.forall_mem_cons.1 hbefore
        exact .inr ⟨hl, what, id, ⟨before, ids, after, rfl, hbefore, hid⟩, rfl⟩

/-! ## Accepted databases -/

/-- Limits that a game can be played under. -/
structure Config.Playable (c : Config) : Prop where
  maxIterations : 0 < c.maxIterations
  fps : 0 < c.fps
  partyMax : 0 < c.partyMax
  range : c.variableMin ≤ c.variableMax

theorem Config.validate_eq_ok_iff {c : Config} : c.validate = .ok () ↔ c.Playable := by
  have hvariables : c.variableMax < c.variableMin ↔ ¬ c.variableMin ≤ c.variableMax :=
    Int32.not_le.symm
  unfold validate
  constructor
  · intro h
    split at h
    · cases h
    next hiterations =>
    split at h
    · cases h
    next hbounds =>
    split at h
    · cases h
    next hfps =>
    split at h
    · cases h
    next hparty =>
    refine ⟨UInt64.pos_iff_ne_zero.2 hiterations, UInt32.pos_iff_ne_zero.2 hfps,
      UInt64.pos_iff_ne_zero.2 hparty, ?_⟩
    rw [hvariables] at hbounds
    exact Decidable.not_not.1 hbounds
  · rintro ⟨hiterations, hfps, hparty, hbounds⟩
    rw [if_neg (UInt64.pos_iff_ne_zero.1 hiterations),
      if_neg (fun h => hvariables.1 h hbounds), if_neg (UInt32.pos_iff_ne_zero.1 hfps),
      if_neg (UInt64.pos_iff_ne_zero.1 hparty)]

/-- What is wrong with limits has nothing to do with ids. -/
theorem Config.cause_of_validate {c : Config} (h : c.validate = .error e) :
    e.cause = .invalidConfig := by
  unfold validate at h
  repeat' split at h
  all_goals cases h
  all_goals rfl

namespace Database

variable {d : Database}

/-- The lists of ids of which none may repeat, with what they name, in the order in which they are
looked at. -/
def idLists (d : Database) : List (String × List Number) :=
  [("actor", d.actors.map (·.id)), ("item", d.items.map (·.id)),
    ("common event", d.commonEvents.map (·.id)), ("troop", d.troops.map (·.id)),
    ("map", d.maps.map (·.id))] ++
  d.maps.map fun m => ("map event on map " ++ toString m.id.toInt, m.events.map (·.id))

/-- What is asked of a database. -/
structure Accepted (d : Database) : Prop where
  config : d.config.Playable
  actors : (d.actors.map (·.id)).Nodup
  items : (d.items.map (·.id)).Nodup
  commonEvents : (d.commonEvents.map (·.id)).Nodup
  troops : (d.troops.map (·.id)).Nodup
  maps : (d.maps.map (·.id)).Nodup
  events : ∀ m ∈ d.maps, (m.events.map (·.id)).Nodup
  startMap : d.maps = [] ∨ ∃ m ∈ d.maps, m.id = d.start.mapId
  party : ∀ id ∈ d.start.party, ∃ a ∈ d.actors, a.id = id

theorem requireDistinctEvents_eq (maps : List MapData) :
    requireDistinctEvents maps = forM (maps.map fun m =>
      ("map event on map " ++ toString m.id.toInt, m.events.map (·.id)))
        fun l => requireDistinct l.1 l.2 := by
  induction maps with
  | nil => rfl
  | cons m maps ih =>
    rw [requireDistinctEvents, ih]
    rfl

/-- The limits are looked at first, then every list of ids, then the start. -/
theorem validate_eq (d : Database) : d.validate = (do
    d.config.validate
    forM d.idLists fun l => requireDistinct l.1 l.2
    d.requireStartMap
    d.requireParty) := by
  rw [validate, requireDistinctEvents_eq, idLists, List.forM_append]
  simp only [List.forM_cons, List.forM_nil, bind_assoc, pure_bind]

theorem exists_of_find? {α : Type} {key : α → Number} {l : List α} {id : Number} :
    (l.find? fun a => key a = id).isSome = true ↔ ∃ a ∈ l, key a = id := by
  simp [List.find?_isSome]

theorem requireStartMap_eq_ok_iff :
    d.requireStartMap = .ok () ↔ d.maps = [] ∨ ∃ m ∈ d.maps, m.id = d.start.mapId := by
  have hfound : (d.map? d.start.mapId).isSome = true ↔ ∃ m ∈ d.maps, m.id = d.start.mapId :=
    exists_of_find?
  unfold requireStartMap
  split
  · next h => exact ⟨fun _ => h.imp_right hfound.1, fun _ => rfl⟩
  · next h => exact ⟨nofun, fun h' => absurd (h'.imp_right hfound.2) h⟩

theorem requireParty_eq_ok_iff :
    d.requireParty = .ok () ↔ ∀ id ∈ d.start.party, ∃ a ∈ d.actors, a.id = id := by
  have hknown (id : Number) : (d.actor? id).isNone = false ↔ ∃ a ∈ d.actors, a.id = id := by
    rw [← exists_of_find?, ← actor?]
    cases d.actor? id <;> simp
  unfold requireParty
  cases h : d.start.party.find? fun id => (d.actor? id).isNone with
  | some id =>
    refine ⟨nofun, fun hall => ?_⟩
    have hmem := List.mem_of_find?_eq_some h
    have hnone := List.find?_some h
    rw [(hknown id).2 (hall id hmem)] at hnone
    cases hnone
  | none =>
    refine ⟨fun _ id hid => ?_, fun _ => rfl⟩
    rw [List.find?_eq_none] at h
    exact (hknown id).1 (Bool.eq_false_iff.2 (h id hid))

/-- Exactly what is asked of a database is checked. -/
theorem validate_eq_ok_iff : d.validate = .ok () ↔ d.Accepted := by
  have hlists : (∀ l ∈ d.idLists, l.2.Nodup) ↔ (d.actors.map (·.id)).Nodup ∧
      (d.items.map (·.id)).Nodup ∧ (d.commonEvents.map (·.id)).Nodup ∧
      (d.troops.map (·.id)).Nodup ∧ (d.maps.map (·.id)).Nodup ∧
      ∀ m ∈ d.maps, (m.events.map (·.id)).Nodup := by
    simp [idLists]
  rw [validate_eq, both_eq_ok_iff, both_eq_ok_iff, both_eq_ok_iff, Config.validate_eq_ok_iff,
    forM_requireDistinct_eq_ok_iff, requireStartMap_eq_ok_iff, requireParty_eq_ok_iff, hlists]
  constructor
  · rintro ⟨hconfig, ⟨hactors, hitems, hcommons, htroops, hmaps, hevents⟩, hstart, hparty⟩
    exact ⟨hconfig, hactors, hitems, hcommons, htroops, hmaps, hevents, hstart, hparty⟩
  · rintro ⟨hconfig, hactors, hitems, hcommons, htroops, hmaps, hevents, hstart, hparty⟩
    exact ⟨hconfig, ⟨hactors, hitems, hcommons, htroops, hmaps, hevents⟩, hstart, hparty⟩

/-- The error that is reported where an id occurs twice: it names the first id that repeats, in the
first list in which one does. -/
def Repeats (d : Database) (e : LoadError) : Prop :=
  d.config.Playable ∧ ∃ what id, FirstRepeatAmong d.idLists what id ∧ e = .repeated what id

theorem cause_of_requireStartMap (h : d.requireStartMap = .error e) : e.cause = .undefinedMap := by
  unfold requireStartMap at h
  split at h
  · cases h
  · cases h
    rfl

theorem cause_of_requireParty (h : d.requireParty = .error e) : e.cause = .undefinedEvent := by
  unfold requireParty at h
  split at h
  · cases h
    rfl
  · cases h

/-- An id is reported if and only if one repeats and the limits are in order. -/
theorem validate_eq_repeats_iff :
    d.validate = .error e ∧ e.cause = .duplicateId ↔ d.Repeats e := by
  rw [validate_eq, both_eq_error_iff, both_eq_error_iff, both_eq_error_iff,
    Config.validate_eq_ok_iff, forM_requireDistinct_eq_error_iff]
  constructor
  · rintro ⟨hconfig | ⟨hconfig, hids | ⟨-, hstart | ⟨-, hparty⟩⟩⟩, hcause⟩
    · rw [Config.cause_of_validate hconfig] at hcause
      cases hcause
    · exact ⟨hconfig, hids⟩
    · rw [cause_of_requireStartMap hstart] at hcause
      cases hcause
    · rw [cause_of_requireParty hparty] at hcause
      cases hcause
  · rintro ⟨hconfig, what, id, hids, rfl⟩
    exact ⟨.inr ⟨hconfig, .inl ⟨what, id, hids, rfl⟩⟩, rfl⟩

/-! ## Looking records up -/

/-- Every record is found under its id. -/
structure FindsAll (d : Database) : Prop where
  actor : ∀ a ∈ d.actors, d.actor? a.id = some a
  item : ∀ i ∈ d.items, d.item? i.id = some i
  commonEvent : ∀ c ∈ d.commonEvents, d.commonEvent? c.id = some c
  troop : ∀ t ∈ d.troops, d.troop? t.id = some t
  map : ∀ m ∈ d.maps, d.map? m.id = some m
  event : ∀ m ∈ d.maps, ∀ e ∈ m.events, m.event? e.id = some e

theorem find?_of_nodup {α : Type} {key : α → Number} {l : List α} (h : (l.map key).Nodup) :
    ∀ a ∈ l, (l.find? fun b => key b = key a) = some a := by
  induction l with
  | nil => exact nofun
  | cons b l ih =>
    obtain ⟨hb, hl⟩ := List.nodup_cons.1 h
    intro a ha
    rcases List.mem_cons.1 ha with rfl | ha
    · simp
    · have hne : key b ≠ key a := fun heq => hb (List.mem_map.2 ⟨a, ha, heq.symm⟩)
      rw [List.find?_cons_of_neg (by simpa using hne)]
      exact ih hl a ha

theorem Accepted.findsAll (h : d.Accepted) : d.FindsAll where
  actor := find?_of_nodup h.actors
  item := find?_of_nodup h.items
  commonEvent := find?_of_nodup h.commonEvents
  troop := find?_of_nodup h.troops
  map := find?_of_nodup h.maps
  event m hm := find?_of_nodup (h.events m hm)

/-- An accepted database leaves a budget. -/
theorem maxIterations_ne_zero (h : d.validate = .ok ()) : d.config.maxIterations ≠ 0 :=
  UInt64.pos_iff_ne_zero.1 (validate_eq_ok_iff.1 h).config.maxIterations

/-- A database passes if and only if it is as it should be. An id is reported if and only if one
repeats; then it is the first that does so, in the first list in which one does. In a database that
passes every record is found under its id. -/
theorem validate_exact (d : Database) :
    (d.validate = .ok () ↔ d.Accepted) ∧
    (∀ e, d.validate = .error e ∧ e.cause = .duplicateId ↔ d.Repeats e) ∧
    (d.validate = .ok () → d.FindsAll) := by
  refine ⟨validate_eq_ok_iff, fun e => validate_eq_repeats_iff, fun h => ?_⟩
  have haccepted : d.Accepted := validate_eq_ok_iff.1 h
  exact haccepted.findsAll

/-- Two events of the second map have the id 1, and further on two have the id 3. -/
def twins : Database where
  maps := [{ id := 1, events := [{ id := 1 }, { id := 3 }] },
    { id := 2, events := [{ id := 3 }, { id := 1 }, { id := 2 }, { id := 1 }, { id := 3 }] }]

/-- The same events with ids of their own. -/
def untwinned : Database where
  maps := [{ id := 1, events := [{ id := 1 }, { id := 3 }] },
    { id := 2, events := [{ id := 3 }, { id := 1 }, { id := 2 }, { id := 4 }, { id := 5 }] }]

theorem twins_reported : (twins.validate = .error (.repeated "map event on map 2" 1) ∧
      twins.Repeats (.repeated "map event on map 2" 1)) ∧
    untwinned.validate = .ok () ∧ untwinned.Accepted ∧ untwinned.FindsAll := by
  have hreport : twins.validate = .error (.repeated "map event on map 2" 1) := by rfl
  have hpass : untwinned.validate = .ok () := by rfl
  obtain ⟨-, hrepeats, -⟩ := validate_exact twins
  obtain ⟨haccepted, -, hfinds⟩ := validate_exact untwinned
  exact ⟨⟨hreport, (hrepeats _).1 ⟨hreport, rfl⟩⟩, hpass, haccepted.1 hpass, hfinds hpass⟩

end Database

end EventScript
