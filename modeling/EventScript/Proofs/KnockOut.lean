import EventScript.Proofs.Courses

/-!
# Points and the death state

Whoever has no hit points left has the death state, and nobody else has it. Points are between none
and their maximum. Every way to change them keeps this, and so it holds of every actor and of every
enemy throughout a game.

* `Vitals.Sound` is the invariant, and `Vitals.Changes.sound` says that every change keeps it.
* `Game.Healthy`: everyone in a game is sound. Every move keeps this (`Game.Move.healthy`).
* `Director.vitals_sound`: everyone is sound whatever happens.
-/

namespace EventScript

open Relation

namespace Vitals

/-- The points are in their bounds, and whoever has no hit points is knocked out, and nobody else
is. -/
structure Sound (v : Vitals) : Prop where
  one_le_maxHp : 1 ≤ v.maxHp
  hp_nonneg : 0 ≤ v.hp
  hp_le : v.hp ≤ v.maxHp
  sp_nonneg : 0 ≤ v.sp
  sp_le : v.sp ≤ v.maxSp
  fallen_iff : v.hp = 0 ↔ v.isFallen = true

variable {v v' : Vitals}

/-- What is asked of vitals, in integers. -/
theorem sound_iff : v.Sound ↔ (1 ≤ v.maxHp.toInt ∧ 0 ≤ v.hp.toInt ∧ v.hp.toInt ≤ v.maxHp.toInt ∧
    0 ≤ v.sp.toInt ∧ v.sp.toInt ≤ v.maxSp.toInt) ∧ (v.hp.toInt = 0 ↔ v.isFallen = true) := by
  have hzero : v.hp = 0 ↔ v.hp.toInt = 0 := Int32.toInt_inj.symm
  constructor
  · rintro ⟨hmax, hhp, hle, hsp, hspLe, hfallen⟩
    simp only [Int32.le_iff_toInt_le] at hmax hhp hle hsp hspLe
    exact ⟨⟨hmax, hhp, hle, hsp, hspLe⟩, hzero.symm.trans hfallen⟩
  · rintro ⟨⟨hmax, hhp, hle, hsp, hspLe⟩, hfallen⟩
    refine ⟨?_, ?_, ?_, ?_, ?_, hzero.trans hfallen⟩
    all_goals rw [Int32.le_iff_toInt_le]; assumption

theorem sound_full {maxHp maxSp : Number} (hhp : 1 ≤ maxHp) (hsp : 0 ≤ maxSp) :
    (full maxHp maxSp).Sound := by
  rw [Int32.le_iff_toInt_le, Int32.toInt_one] at hhp
  rw [Int32.le_iff_toInt_le, Int32.toInt_zero] at hsp
  have hstands : (full maxHp maxSp).isFallen = false := rfl
  refine sound_iff.2 ⟨?_, ?_⟩
  · simp only [full]
    omega
  · rw [hstands]
    simp only [full, Bool.false_eq_true, iff_false]
    omega

/-! ## Every change keeps vitals sound -/

theorem Sound.changeSp (hv : v.Sound) {delta : Number} (h : v.changeSp delta = .ok v') :
    v'.Sound := by
  obtain ⟨⟨hmax, hhp, hle, hsp, hspLe⟩, hfallen⟩ := sound_iff.1 hv
  obtain ⟨sp, -, h⟩ := except_bind_eq_ok_iff.1 h
  cases h
  refine sound_iff.2 ⟨?_, hfallen⟩
  simp only [Number.toInt_clamp, Int32.toInt_zero]
  omega

theorem Sound.relieve (hv : v.Sound) (state : Number) : (v.relieve state).Sound := by
  obtain ⟨⟨hmax, hhp, hle, hsp, hspLe⟩, hfallen⟩ := sound_iff.1 hv
  by_cases hstate : state = knockOut
  · -- Whoever comes back has a point, and whoever was not knocked out has one already.
    have hstands : (v.relieve state).isFallen = false := by
      simp [isFallen, Vitals.relieve, IdMap.contains_erase, hstate]
    have hpoint : 1 ≤ (v.relieve state).hp.toInt ∧
        (v.relieve state).hp.toInt ≤ v.maxHp.toInt := by
      simp only [Vitals.relieve, hstate]
      split
      · rw [Int32.toInt_one]
        omega
      · next hnot =>
        have hne : v.hp.toInt ≠ 0 := fun h =>
          hnot ⟨hfallen.1 h, trivial, Int32.toInt_inj.1 h⟩
        omega
    refine sound_iff.2 ⟨⟨hmax, by omega, hpoint.2, hsp, hspLe⟩, ?_⟩
    rw [hstands]
    simp only [Bool.false_eq_true, iff_false]
    omega
  · have hsame : (v.relieve state).isFallen = v.isFallen := by
      simp [isFallen, Vitals.relieve, IdMap.contains_erase, Ne.symm hstate]
    have hhpSame : (v.relieve state).hp = v.hp := by simp [Vitals.relieve, hstate]
    rw [sound_iff, hsame, hhpSame]
    exact ⟨⟨hmax, hhp, hle, hsp, hspLe⟩, hfallen⟩

theorem Sound.restore (hv : v.Sound) : v.restore.Sound := by
  have hfull : v.restore = full v.maxHp v.maxSp := rfl
  rw [hfull]
  exact sound_full hv.one_le_maxHp (Int32.le_trans hv.sp_nonneg hv.sp_le)

/-- A new bound on the hit points takes nobody's last point. -/
theorem Sound.boundHp (hv : v.Sound) (maxHp : Number) :
    Sound { v with maxHp := max maxHp 1, hp := min v.hp (max maxHp 1) } := by
  obtain ⟨⟨hmax, hhp, hle, hsp, hspLe⟩, hfallen⟩ := sound_iff.1 hv
  refine sound_iff.2 ⟨?_, ?_⟩
  · simp only [Number.toInt_max, Number.toInt_min, Int32.toInt_one]
    omega
  · refine Iff.trans ?_ hfallen
    simp only [Number.toInt_max, Number.toInt_min, Int32.toInt_one]
    omega

theorem Sound.boundSp (hv : v.Sound) (maxSp : Number) :
    Sound { v with maxSp := max maxSp 0, sp := min v.sp (max maxSp 0) } := by
  obtain ⟨⟨hmax, hhp, hle, hsp, hspLe⟩, hfallen⟩ := sound_iff.1 hv
  refine sound_iff.2 ⟨?_, hfallen⟩
  simp only [Number.toInt_max, Number.toInt_min, Int32.toInt_zero]
  omega

/-- Damage that is not lethal leaves a point, and damage that takes the last point knocks out. -/
theorem Sound.changeHp (hv : v.Sound) {delta : Number} {lethal : Bool}
    (h : v.changeHp delta lethal = .ok v') : v'.Sound := by
  obtain ⟨⟨hmax, hhp, hle, hsp, hspLe⟩, hfallen⟩ := sound_iff.1 hv
  unfold Vitals.changeHp at h
  split at h
  · cases h
    exact hv
  · next hstands =>
    obtain ⟨sum, -, h⟩ := except_bind_eq_ok_iff.1 h
    let floor : Number := if lethal then 0 else min 1 v.hp
    let hp := Number.clamp floor v.maxHp sum
    have hfloor : 0 ≤ floor.toInt := by
      simp only [floor]
      split
      · exact Int.le_of_eq Int32.toInt_zero.symm
      · rw [Number.toInt_min, Int32.toInt_one]
        omega
    have hbounds : 0 ≤ hp.toInt ∧ hp.toInt ≤ v.maxHp.toInt := by
      simp only [hp, Number.toInt_clamp]
      omega
    obtain rfl : (if hp = 0 then { v with hp, states := IdSet.single knockOut }
        else { v with hp }) = v' := Except.ok.inj h
    split
    · next hlast =>
      have hlast : hp.toInt = 0 := by rw [hlast, Int32.toInt_zero]
      refine sound_iff.2 ⟨⟨hmax, hbounds.1, hbounds.2, hsp, hspLe⟩, iff_of_true hlast ?_⟩
      exact IdSet.contains_single knockOut
    · next hleft =>
      have hleft : hp.toInt ≠ 0 := fun h => hleft (Int32.toInt_inj.1 h)
      exact sound_iff.2 ⟨⟨hmax, hbounds.1, hbounds.2, hsp, hspLe⟩, iff_of_false hleft hstands⟩

theorem Sound.afflict (hv : v.Sound) (state : Number) : (v.afflict state).Sound := by
  obtain ⟨⟨hmax, hhp, hle, hsp, hspLe⟩, hfallen⟩ := sound_iff.1 hv
  unfold Vitals.afflict
  split
  · refine sound_iff.2 ⟨?_, iff_of_true rfl (IdSet.contains_single _)⟩
    simp only [Int32.toInt_zero]
    omega
  · next hstate =>
    refine sound_iff.2 ⟨⟨hmax, hhp, hle, hsp, hspLe⟩, ?_⟩
    have hsame : (IdSet.add v.states state).contains knockOut = v.states.contains knockOut := by
      simp [IdSet.contains_add, Ne.symm hstate]
    rw [isFallen, hsame]
    exact hfallen

theorem Eases.sound (h : v.Eases v') (hv : v.Sound) : v'.Sound := by
  cases h with
  | same => exact hv
  | spends h => exact hv.changeSp h
  | relieves state => exact hv.relieve state
  | restores => exact hv.restore
  | boundsHp maxHp => exact hv.boundHp maxHp
  | boundsSp maxSp => exact hv.boundSp maxSp

theorem Suffers.sound (h : v.Suffers v') (hv : v.Sound) : v'.Sound := by
  cases h with
  | hurts h => exact hv.changeHp h
  | afflicts state => exact hv.afflict state

theorem Changes.sound (h : v.Changes v') (hv : v.Sound) : v'.Sound := by
  rcases h with heases | hsuffers
  · exact heases.sound hv
  · exact hsuffers.sound hv

end Vitals

/-! ## Everyone in a game -/

/-- Everyone in a database has points to begin with. -/
def Database.Vital (d : Database) : Prop :=
  (∀ a ∈ d.actors, 1 ≤ a.maxHp ∧ 0 ≤ a.maxSp) ∧
    ∀ t ∈ d.troops, ∀ e ∈ t.enemies, 1 ≤ e.hp ∧ 0 ≤ e.sp

instance (d : Database) : Decidable d.Vital :=
  inferInstanceAs (Decidable ((∀ a ∈ d.actors, 1 ≤ a.maxHp ∧ 0 ≤ a.maxSp) ∧
    ∀ t ∈ d.troops, ∀ e ∈ t.enemies, 1 ≤ e.hp ∧ 0 ≤ e.sp))

namespace Game

/-- All actors and all enemies are sound. -/
structure Healthy (g : Game) : Prop where
  actors : ∀ id a, g.actors.get? id = some a → a.vitals.Sound
  enemies : ∀ t, g.troop = some t → ∀ e ∈ t.enemies, e.vitals.Sound

variable {data : Database} {g g' : Game}

theorem Healthy.of_estate (hg : g.Healthy) (h : g'.estate = g.estate) : g'.Healthy := by
  have hactors : g'.actors = g.actors := congrArg Estate.actors h
  have henemies : g'.troop.map (·.enemies) = g.troop.map (·.enemies) := congrArg Estate.enemies h
  refine ⟨fun id a ha => hg.actors id a (hactors ▸ ha), fun t' ht' => ?_⟩
  rw [ht', Option.map_some, eq_comm, Option.map_eq_some_iff] at henemies
  obtain ⟨t, ht, hsame⟩ := henemies
  exact hsame ▸ hg.enemies t ht

/-- Whoever takes the place of a sound actor has to be sound. -/
theorem Healthy.insert (hg : g.Healthy) {id : Number} {a a' : Actor}
    (ha : g.actors.get? id = some a) (h : a.vitals.Changes a'.vitals) :
    Healthy { g with actors := g.actors.insert id a' } := by
  refine ⟨fun j b hb => ?_, hg.enemies⟩
  rw [IdMap.get?_insert] at hb
  split at hb
  · cases hb
    exact h.sound (hg.actors id a ha)
  · exact hg.actors j b hb

theorem Stroke.healthy (h : g.Stroke g') (hg : g.Healthy) : g'.Healthy := by
  cases h with
  | gentle h => cases h with
    | aside h => exact hg.of_estate h
    | actor ha h => exact hg.insert ha h.changes
    | @enemies t t' ht h =>
      refine ⟨hg.actors, fun u hu e' he' => ?_⟩
      cases hu
      obtain ⟨e, he, hchanges⟩ := h e' he'
      exact hchanges.sound (hg.enemies t ht e he)
    | ends | gold | item | window => exact ⟨hg.actors, hg.enemies⟩
  | hurts ha h => exact hg.insert ha h.changes
  | joins | leaves => exact ⟨hg.actors, hg.enemies⟩

/-- Enemies enter a battle with all their points. -/
theorem Move.healthy (hdata : data.Vital) (h : g.Move data g') (hg : g.Healthy) : g'.Healthy := by
  cases h with
  | stroke h => exact h.healthy hg
  | shuts => exact ⟨hg.actors, nofun⟩
  | opens id =>
    refine ⟨hg.actors, fun t ht e he => ?_⟩
    cases ht
    cases htroop : data.troop? id with
    | none =>
      rw [htroop] at he
      cases he
    | some td =>
      rw [htroop] at he
      obtain ⟨ed, hed, rfl⟩ := List.mem_map.1 he
      obtain ⟨hhp, hsp⟩ := hdata.2 td (List.mem_of_find?_eq_some htroop) ed hed
      exact Vitals.sound_full hhp hsp

theorem healthy_begin (hdata : data.Vital) (random : Random) : (begin data random).Healthy := by
  refine ⟨fun id a ha => ?_, nofun⟩
  obtain ⟨ad, had, heq⟩ := List.mem_map.1 (IdMap.mem_of_get?_ofList ha)
  cases heq
  obtain ⟨hhp, hsp⟩ := hdata.1 ad had
  exact Vitals.sound_full hhp hsp

end Game

namespace Director

variable {data : Database} {d : Director}

/-- Whatever happens in a game, every actor and every enemy of the battle has points within bounds,
and has no hit points if and only if it has the death state. -/
theorem vitals_sound (hdata : data.Vital) (h : Played data d) :
    (∀ id a, d.game.actors.get? id = some a → a.vitals.Sound) ∧
      ∀ t, d.game.troop = some t → ∀ e ∈ t.enemies, e.vitals.Sound := by
  have hhealthy : d.game.Healthy :=
    h.keeps (Game.healthy_begin hdata) fun _ _ hmove => hmove.healthy hdata
  exact ⟨hhealthy.actors, hhealthy.enemies⟩

/-- A traveller who falls into a trap, and an enemy who comes upon them. -/
def ambush : Database where
  actors := [{ id := 1, maxHp := 5, maxSp := 3 }]
  start := { party := [1], mapId := 1 }
  troops := [{ id := 0, enemies := [{ hp := 4, sp := 2 }] }]
  maps := [{ id := 1, events := [{ id := 1, pages := [{
    trigger := .autoStart
    commands := [{ code := SharedOp.changeHp.code, params := [0, 0, 1, 0, 9, 1] }] }] }] }]

/-- The traveller has no hit points left and is knocked out. The enemy has some and stands. -/
theorem ambush_knocks_out : ambush.Vital ∧ ∃ d, Played ambush d ∧
    (∃ a, d.game.actors.get? 1 = some a ∧ a.vitals.hp = 0 ∧ a.isFallen = true) ∧
    ∃ t e, d.game.troop = some t ∧ e ∈ t.enemies ∧ e.vitals.hp = 4 ∧ e.isFallen = false := by
  have hvital : ambush.Vital := by decide
  have hrun : ∃ d, [Call.execute 2, .order .openBattle].forM Call.run (begin ambush default) =
      .ok ((), d) ∧ (d.game.actors.get? 1).map (·.vitals.hp) = some 0 ∧
        d.game.troop.map (·.enemies.map (·.vitals.hp)) = some [4] := by
    decide +kernel
  obtain ⟨d, hcalls, ha, ht⟩ := hrun
  have hreachable : Reachable ambush default d := ⟨_, hcalls⟩
  have hplayed : Played ambush d := hreachable.played
  obtain ⟨hactors, henemies⟩ := vitals_sound hvital hplayed
  obtain ⟨a, ha, hhp⟩ := Option.map_eq_some_iff.1 ha
  obtain ⟨t, ht, hhps⟩ := Option.map_eq_some_iff.1 ht
  obtain ⟨e, he, hehp⟩ : ∃ e ∈ t.enemies, e.vitals.hp = 4 :=
    List.mem_map.1 (hhps ▸ List.mem_cons_self)
  refine ⟨hvital, d, hplayed, ⟨a, ha, hhp, (hactors 1 a ha).fallen_iff.1 hhp⟩, t, e, ht, he, hehp,
    Bool.eq_false_iff.2 fun hfallen => ?_⟩
  have hnone := (henemies t ht e he).fallen_iff.2 hfallen
  exact absurd (hehp.symm.trans hnone) (by decide)

end Director

end EventScript
