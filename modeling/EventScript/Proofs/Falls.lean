import EventScript.Proofs.Strokes

/-!
# A fallen party has lost the game

Outside a battle the game is over as soon as nobody in the party stands. Most commands cannot bring
this about, and those that can look at the party when they have changed it.

* `Game.LostIfFallen` is what commands keep, and `Act.Heeds` says that an act keeps it.
* `Act.Gentle.heeds`: what knocks nobody out keeps it by itself.
* `Commands.heeds_endIfFallen`: a look at the party makes up for whatever was done before.
* `Commands.gameOver_of_fallen`: no command and no resumption misses the fall of the party.
-/

namespace EventScript

open Relation

namespace Game

/-- Outside a battle, where nobody in the party stands the game is over. -/
structure LostIfFallen (g : Game) : Prop where
  outside : g.troop = none
  lost : g.partyFallen = true → g.scene.gameOver = true

theorem partyFallen_iff {g : Game} : g.partyFallen = true ↔ g.party.members ≠ [] ∧
    ∀ id ∈ g.party.members, ∀ a, g.actors.get? id = some a → a.isFallen = true := by
  unfold partyFallen companions
  simp only [Bool.and_eq_true, Bool.not_eq_true', List.isEmpty_eq_false_iff, List.all_eq_true,
    List.mem_filterMap]
  constructor
  · rintro ⟨hne, hall⟩
    exact ⟨hne, fun id hid a ha => hall a ⟨id, hid, ha⟩⟩
  · rintro ⟨hne, hall⟩
    refine ⟨hne, ?_⟩
    rintro a ⟨id, hid, ha⟩
    exact hall id hid a ha

variable {g g' : Game}

/-- What the party has lost depends on what is at stake only. -/
theorem LostIfFallen.of_estate (hg : g.LostIfFallen) (h : g'.estate = g.estate) :
    g'.LostIfFallen := by
  simp only [estate, Estate.mk.injEq] at h
  obtain ⟨hmembers, -, -, -, -, -, hactors, henemies, -, hover⟩ := h
  have houtside : g'.troop = none := by
    rw [hg.outside] at henemies
    exact Option.map_eq_none_iff.1 henemies
  refine ⟨houtside, fun hfallen => ?_⟩
  rw [partyFallen_iff, hmembers, hactors, ← partyFallen_iff] at hfallen
  rw [hover]
  exact hg.lost hfallen

/-- No gentle step brings the party down. -/
theorem Gentle.lostIfFallen (h : g.Gentle g') (hg : g.LostIfFallen) : g'.LostIfFallen := by
  cases h with
  | aside h => exact hg.of_estate h
  | ends => exact ⟨hg.outside, fun _ => rfl⟩
  | gold => exact ⟨hg.outside, hg.lost⟩
  | @item id amount p h =>
    have hmembers : p.members = g.party.members := by rw [Party.giveItem_eq h]
    refine ⟨hg.outside, fun hfallen => hg.lost ?_⟩
    rw [partyFallen_iff] at hfallen ⊢
    rwa [← hmembers]
  | @actor id a a' ha h =>
    refine ⟨hg.outside, fun hfallen => hg.lost ?_⟩
    rw [partyFallen_iff] at hfallen ⊢
    obtain ⟨hne, hall⟩ := hfallen
    refine ⟨hne, fun j hj b hb => ?_⟩
    by_cases hji : j = id
    · subst hji
      have hab : a = b := Option.some.inj (ha.symm.trans hb)
      have ha' : a'.isFallen = true := hall j hj a' (by rw [IdMap.get?_insert, if_pos rfl])
      exact hab ▸ h.isFallen ha'
    · exact hall j hj b (by rwa [IdMap.get?_insert, if_neg hji])
  | enemies ht => exact absurd (hg.outside.symm.trans ht) nofun
  | window => exact ⟨hg.outside, hg.lost⟩

/-- No command opens a battle. -/
theorem Stroke.outside (h : g.Stroke g') (hg : g.troop = none) : g'.troop = none := by
  cases h with
  | gentle h => cases h with
    | aside h =>
      have henemies : g'.troop.map (·.enemies) = g.troop.map (·.enemies) :=
        congrArg Estate.enemies h
      rw [hg] at henemies
      exact Option.map_eq_none_iff.1 henemies
    | enemies ht => exact absurd (hg.symm.trans ht) nofun
    | ends | gold | item | actor | window => exact hg
  | hurts | joins | leaves => exact hg

/-- A fallen party has lost afterwards, if that was so before. -/
def Heeds (g g' : Game) : Prop := g.LostIfFallen → g'.LostIfFallen

/-- Where there was no battle, there is none afterwards. -/
def StaysOutside (g g' : Game) : Prop := g.troop = none → g'.troop = none

theorem heeds_of_gentle (h : ReflTransGen Gentle g g') : g.Heeds g' :=
  keeps_of_steps (fun _ _ hstep => hstep.lostIfFallen) h

end Game

namespace World

instance : Lenient (Over Game.Heeds) := .over (fun _ => id) fun h h' hg => h' (h hg)

instance : AllowsWrites (Over Game.Heeds) where
  toAllowsDeeds := .wider (R := Over (ReflTransGen Game.Gentle)) fun _ _ => Game.heeds_of_gentle
  memory _ _ _ := Game.heeds_of_gentle (Act.gentle_aside rfl)

end World

namespace Act

/-- An act after which a fallen party has lost, if that was so before. -/
abbrev Heeds {α : Type} (a : Act α) : Prop := a.Within (World.Over Game.Heeds)

/-- An act that opens no battle. -/
abbrev StaysOutside {α : Type} (a : Act α) : Prop := a.Within (World.Over Game.StaysOutside)

variable {α : Type} {a : Act α}

theorem Gentle.heeds (h : a.Gentle) : a.Heeds := h.mono fun _ _ => Game.heeds_of_gentle

theorem Strokes.staysOutside (h : a.Strokes) : a.StaysOutside :=
  h.mono fun _ _ hsteps =>
    Game.keeps_of_steps (I := fun g => g.troop = none) (fun _ _ hstep => hstep.outside) hsteps

end Act

namespace Commands

open Act

/-- A look at the party makes up for whatever was done before. -/
theorem heeds_endIfFallen {β : Type} {a : Act PUnit} {f : PUnit → Act β} (ha : a.StaysOutside)
    (hf : (f ⟨⟩).Heeds) : (a >>= fun _ => endIfFallen >>= f).Heeds := by
  intro w
  refine Ensures.bind (ha w) fun _ u hu => ?_
  rw [endIfFallen, ensures_bind, ensures_modifyGame]
  refine (hf _).imp fun _ _ hafter hw => hafter ?_
  have houtside : u.game.troop = none := hu hw.outside
  dsimp only
  split
  · exact ⟨houtside, fun _ => rfl⟩
  · next hlooked =>
    refine ⟨houtside, fun hfallen => absurd ?_ hlooked⟩
    simp [houtside, hfallen]

theorem heeds_changePartyMembers (f : Frame) (c : Command) : (changePartyMembers f c).Heeds := by
  refine .bind (within_operand _ _) fun id => .bind within_read fun g => ?_
  split
  · exact within_warned (by simp) _
  · refine heeds_endIfFallen (within_modifyGame fun _ hg => hg) ?_
    exact .bind within_needRefresh fun _ => within_pure

theorem heeds_changeHp (f : Frame) (c : Command) : (changeHp f c).Heeds := by
  refine .bind (within_amount _ _ _) fun value => ?_
  exact heeds_endIfFallen (strokes_hurt c value _).staysOutside within_pure

theorem heeds_changeCondition (f : Frame) (c : Command) : (changeCondition f c).Heeds :=
  heeds_endIfFallen (strokes_changeStates c).staysOutside within_pure

/-- Whoever is attacked, the party is looked at before the next one is. -/
theorem heeds_simulatedAttack (f : Frame) (c : Command) : (simulatedAttack f c).Heeds := by
  refine .bind (within_selectActors _ _) fun ids => ?_
  refine .bind (.forM fun id _ => .bind within_read fun g => ?_) fun _ => within_pure
  split
  · exact within_pure
  · refine .bind within_check fun base => .bind (within_varied _ _) fun damage => ?_
    refine .bind within_check fun loss => ?_
    have hhurts : (do
        changeActor id fun a => do return { a with vitals := ← a.vitals.changeHp loss true }
        emit (.simulatedAttack id (max damage 0)) : Act Unit).Strokes :=
      .bind (strokes_attack id loss) fun _ => within_emit
    have hwrites : (do
        if c.flag 6 then
          setVariable (c.param 7) (max damage 0)
          needRefresh : Act Unit).Heeds :=
      .ite (.bind (within_setVariable _ _) fun _ => within_needRefresh) within_pure
    simpa only [bind_assoc] using heeds_endIfFallen hhurts.staysOutside hwrites

/-- After every operation a fallen party has lost. -/
theorem heeds_perform (env : Env) (f : Frame) (c : Command) : (perform env f c).Heeds := by
  rcases gentle_or_harsh_perform env f c with hgentle | h | h | h | h
  · exact hgentle.heeds
  · exact h ▸ heeds_changePartyMembers f c
  · exact h ▸ heeds_changeHp f c
  · exact h ▸ heeds_changeCondition f c
  · exact h ▸ heeds_simulatedAttack f c

/-- No fall of the party is missed. Outside a battle, if a command or the resumption of one finds
someone in the party on their feet, or nobody in the party at all, and leaves a party of whom nobody
stands, the game is over. -/
theorem gameOver_of_fallen {env : Env} {f : Frame} {w w' : World}
    (hrun : (∃ c o, perform env f c w = .ok (o, w')) ∨ ∃ k o, goOn env f k w = .ok (o, w'))
    (houtside : w.game.troop = none)
    (hstood : w.game.party.members = [] ∨ ∃ a ∈ w.game.companions, a.isFallen = false)
    (hparty : w'.game.party.members ≠ [])
    (hfallen : ∀ a ∈ w'.game.companions, a.isFallen = true) : w'.game.scene.gameOver = true := by
  have hbefore : w.game.LostIfFallen := by
    refine ⟨houtside, fun hlost => ?_⟩
    obtain ⟨hne, hall⟩ := Bool.and_eq_true_iff.1 hlost
    rcases hstood with hnobody | ⟨a, ha, hstands⟩
    · simp [hnobody] at hne
    · have hdown : a.isFallen = true := List.all_eq_true.1 hall a ha
      exact absurd (hstands.symm.trans hdown) Bool.false_ne_true
  have hafter : w'.game.LostIfFallen := by
    rcases hrun with ⟨c, o, ho⟩ | ⟨k, o, ho⟩
    · exact heeds_perform env f c w o w' ho hbefore
    · exact (gentle_goOn env f k).heeds w o w' ho hbefore
  refine hafter.lost (Bool.and_eq_true_iff.2 ⟨?_, List.all_eq_true.2 hfallen⟩)
  simp [hparty]

/-- Two who travel together. -/
def twoTravellers : Database where
  actors := [{ id := 1, maxHp := 5 }, { id := 2, maxHp := 8 }]
  start := { party := [1, 2] }

/-- When the first of them falls the other one stands. When both have fallen the game is over. -/
theorem gameOver_of_twoTravellers :
    let env : Env := { data := twoTravellers, host := {} }
    let attack : Command := { code := FieldOp.simulatedAttack.code, params := [0, 0, 9] }
    let f : Frame := { context := .field, depth := 0, isRoot := true, commands := [attack] }
    let w : World := { game := Game.begin twoTravellers default }
    w.game.troop = none ∧ (∃ a ∈ w.game.companions, a.isFallen = false) ∧
      ∃ o w', perform env f attack w = .ok (o, w') ∧ w'.game.party.members = [1, 2] ∧
        (∀ a ∈ w'.game.companions, a.isFallen = true) ∧ w'.game.scene.gameOver = true := by
  intro env attack f w
  have hstood : ∃ a ∈ w.game.companions, a.isFallen = false := by decide +kernel
  have hrun : ∃ r, perform env f attack w = .ok r ∧ (r.2.game.party.members = [1, 2] ∧
      ∀ a ∈ r.2.game.companions, a.isFallen = true) := by decide +kernel
  obtain ⟨⟨o, w'⟩, hperform, hmembers, hfallen⟩ := hrun
  have hparty : w'.game.party.members ≠ [] := by
    rw [show w'.game.party.members = [1, 2] from hmembers]
    exact List.cons_ne_nil 1 [2]
  exact ⟨rfl, hstood, o, w', hperform, hmembers, hfallen,
    gameOver_of_fallen (.inl ⟨attack, o, hperform⟩) rfl (.inr hstood) hparty hfallen⟩

end Commands

end EventScript
