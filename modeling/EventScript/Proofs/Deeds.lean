import EventScript.Proofs.PlainCommands

/-!
# What any command does

`Deed` tells what a command may do to the game, by what it asks of its frame: it answers a call only
with commands of the database, and it changes an answer of the player's side only where it then
waits for that answer. A command that waits for a key sets a variable to zero and is the only one
that writes the memory without asking for a look at the pages.

* `deed_perform` shows it of every operation in every context, and `plain_goOn` of every command
  that goes on after it waited.
-/

namespace EventScript

/-- The lists of commands on the pages of map events. -/
def Database.pageLists (d : Database) : List (List Command) :=
  d.maps.flatMap fun m => m.events.flatMap fun e => e.pages.map (·.commands)

/-- All lists of commands of a database. -/
def Database.lists (d : Database) : List (List Command) :=
  d.commonEvents.map (·.commands) ++ d.pageLists ++
    d.troops.flatMap fun t => t.pages.map (·.commands)

theorem Database.commonEvent?_mem_lists {d : Database} {id : Number} {e : CommonEvent}
    (h : d.commonEvent? id = some e) : e.commands ∈ d.lists := by
  have he : e ∈ d.commonEvents := List.mem_of_find?_eq_some h
  simp only [lists, List.mem_append, List.mem_map]
  exact .inl (.inl ⟨e, he, rfl⟩)

theorem Database.pageCommands?_mem {d : Database} {mapId id page : Number}
    {commands : List Command} (h : d.pageCommands? mapId id page = some commands) :
    commands ∈ d.pageLists := by
  simp only [pageCommands?, Option.bind_eq_bind, Option.bind_eq_some_iff, Option.pure_def,
    Option.some.injEq] at h
  obtain ⟨m, hm, e, he, p, hp, rfl⟩ := h
  have hm : m ∈ d.maps := List.mem_of_find?_eq_some hm
  have he : e ∈ m.events := List.mem_of_find?_eq_some he
  have hp : p ∈ e.pages := by
    unfold EventData.page? at hp
    split at hp
    · cases hp
    · exact List.mem_of_getElem? hp
  simp only [pageLists, List.mem_flatMap, List.mem_map]
  exact ⟨m, hm, e, he, p, hp, rfl⟩

theorem Database.pageCommands?_mem_lists {d : Database} {mapId id page : Number}
    {commands : List Command} (h : d.pageCommands? mapId id page = some commands) :
    commands ∈ d.lists :=
  List.mem_append_left _ (List.mem_append_right _ (pageCommands?_mem h))

theorem Database.troop_mem_lists {d : Database} {id : Number} {t : TroopData} {p : TroopPage}
    (h : d.troop? id = some t) (hp : p ∈ t.pages) : p.commands ∈ d.lists := by
  have ht : t ∈ d.troops := List.mem_of_find?_eq_some h
  simp only [lists, List.mem_append, List.mem_flatMap, List.mem_map]
  exact .inr ⟨t, ht, p, hp, rfl⟩

/-- The variable that a command sets to zero before it waits for a key. -/
def Command.resets? (c : Command) : Option Number :=
  if c.opcode = .field .captureKey ∧ c.flag 1 = true then some (c.param 0) else none

/-- The commands of the common event with an id, if there is one. -/
def Database.commonLists (d : Database) (id : Number) : List (List Command) :=
  ((d.commonEvent? id).map (·.commands)).toList

/-- The lists of commands that a command may call. Which page is called may depend on the map, on
variables and on who calls. -/
def Command.callees (d : Database) (c : Command) : List (List Command) :=
  match c.opcode with
  | .field .callEvent => if c.mode 0 = 0 then d.commonLists (c.param 1) else d.pageLists
  | .battle .callCommonEvent => d.commonLists (c.param 0)
  | _ => []

theorem Database.mem_commonLists {d : Database} {id : Number} {e : CommonEvent}
    (h : d.commonEvent? id = some e) : e.commands ∈ d.commonLists id := by
  simp [commonLists, h]

theorem Database.commonLists_subset (d : Database) (id : Number) : d.commonLists id ⊆ d.lists := by
  intro cs hcs
  simp only [commonLists, Option.mem_toList, Option.map_eq_some_iff] at hcs
  obtain ⟨e, he, rfl⟩ := hcs
  exact commonEvent?_mem_lists he

theorem Command.callees_subset (d : Database) (c : Command) : c.callees d ⊆ d.lists := by
  unfold callees
  split
  · split
    · exact d.commonLists_subset _
    · exact fun cs hcs => List.mem_append_left _ (List.mem_append_right _ hcs)
  · exact d.commonLists_subset _
  · simp

/-- What a command does to the game, by what it asks of its frame. `callees` are the lists that it
may call, and `reset` is the variable that it may set to zero without asking for a look at the
pages. -/
structure Deed (callees : List (List Command)) (reset : Option Number) (o : Outcome)
    (g g' : Game) : Prop extends Game.SamePlace g g' where
  memory : g'.field.needRefresh = true ∨ (g'.switches = g.switches ∧ g'.vars = g.vars) ∨
    ∃ id, reset = some id ∧ g'.switches = g.switches ∧ g'.vars = g.vars.set id 0
  choice : g'.message.choiceResult = g.message.choiceResult ∨ ∃ p, o = .await p .innAnswer
  shop : g'.scene.shopTransaction = g.scene.shopTransaction ∨ ∃ p, o = .await p .shop
  battle : (g'.scene.battle = g.scene.battle ∧
    (g'.scene.battleResult = g.scene.battleResult ∨ g.troop.isSome = true)) ∨
      ∃ p, o = .await p .battle
  called : ∀ call, o.called? = some call → call.1 ∈ callees

variable {callees : List (List Command)} {reset : Option Number} {o : Outcome} {g g' : Game}

theorem Game.Noted.deed (h : g.Noted g') (ho : ∀ call, o.called? = some call → call.1 ∈ callees) :
    Deed callees reset o g g' := by
  have ha := h.answers
  simp only [Game.answers, Answers.mk.injEq] at ha
  obtain ⟨hchoice, hshop, hrequest, hresult⟩ := ha
  exact ⟨h.toSamePlace, h.memory.imp_right .inl, .inl hchoice, .inl hshop,
    .inl ⟨hrequest, .inl hresult⟩, ho⟩

theorem Act.Plain.deed {a : Act Outcome} (h : a.Plain) (w : World) :
    Ensures a w fun o w' => Deed callees reset o w.game w'.game :=
  (h w).imp fun _ _ hw => hw.1.deed fun _ hc => by
    rw [Outcome.called?_of_isPlain hw.2] at hc
    cases hc

theorem Act.Plain.ne_await {a : Act Outcome} (h : a.Plain) (w : World) :
    Ensures a w fun o _ => ∀ p, o ≠ .await p .battle :=
  (h w).imp fun _ _ hw => Outcome.ne_await_of_isPlain hw.2

namespace Commands

open Act

/-! ## Commands that wait for an answer -/

/-- What leaves the place as it is and calls nothing is told by the memory and the answers. -/
theorem deed_of_far (hfar : (g'.field, g'.troop.isSome) = (g.field, g.troop.isSome))
    (ho : o.called? = none)
    (hmemory : (g'.switches = g.switches ∧ g'.vars = g.vars) ∨
      ∃ id, reset = some id ∧ g'.switches = g.switches ∧ g'.vars = g.vars.set id 0)
    (hchoice : g'.message.choiceResult = g.message.choiceResult ∨ ∃ p, o = .await p .innAnswer)
    (hshop : g'.scene.shopTransaction = g.scene.shopTransaction ∨ ∃ p, o = .await p .shop)
    (hbattle : (g'.scene.battle = g.scene.battle ∧
      (g'.scene.battleResult = g.scene.battleResult ∨ g.troop.isSome = true)) ∨
        ∃ p, o = .await p .battle) : Deed callees reset o g g' := by
  simp only [Prod.mk.injEq] at hfar
  obtain ⟨hfield, htroop⟩ := hfar
  have hplace : g.SamePlace g' := by
    refine ⟨by rw [hfield], fun id => ?_, htroop, fun h => hfield ▸ h⟩
    rw [Game.shownPage, Game.shownPage, hfield]
  refine ⟨hplace, .inr hmemory, hchoice, hshop, hbattle, ?_⟩
  intro call hcall
  rw [ho] at hcall
  cases hcall

/-- A visit to a shop leaves the battle answers as they are. -/
theorem deed_visit (f : Frame) {c : Scene → Scene}
    (h : ∀ s, (c s).battle = s.battle ∧ (c s).battleResult = s.battleResult) (w : World) :
    Ensures (do modifyScene c; return Outcome.await f.pc .shop : Act Outcome) w
      fun o w' => Deed callees reset o w.game w'.game := by
  simp only [modifyScene, ensures_bind, ensures_modifyGame, ensures_pure]
  obtain ⟨hrequest, hresult⟩ := h w.game.scene
  exact deed_of_far rfl rfl (.inl ⟨rfl, rfl⟩) (.inl rfl) (.inr ⟨_, rfl⟩)
    (.inl ⟨hrequest, .inl hresult⟩)

theorem deed_openShop (f : Frame) (c : Command) (w : World) :
    Ensures (openShop f c) w fun o w' => Deed callees reset o w.game w'.game := by
  unfold openShop
  dsimp only
  split
  case h_4 => exact (Plain.pure rfl).deed w
  all_goals
    refine deed_visit f ?_ w
    exact fun _ => ⟨rfl, rfl⟩

theorem deed_showInn (env : Env) (f : Frame) (c : Command) (w : World) :
    Ensures (showInn env f c) w fun o w' => Deed callees reset o w.game w'.game := by
  have hask (g : Game) (hfar : (g.field, g.troop.isSome) = (w.game.field, w.game.troop.isSome))
      (hmemory : g.switches = w.game.switches ∧ g.vars = w.game.vars)
      (hshop : g.scene.shopTransaction = w.game.scene.shopTransaction)
      (hbattle : g.scene.battle = w.game.scene.battle ∧
        g.scene.battleResult = w.game.scene.battleResult) :
      Deed callees reset (.await f.pc .innAnswer) w.game g :=
    deed_of_far hfar rfl (.inl hmemory) (.inr ⟨_, rfl⟩) (.inl hshop)
      (.inl ⟨hbattle.1, .inl hbattle.2⟩)
  unfold showInn
  simp only [ensures_bind, ensures_getGame, ensures_ite, ensures_modifyGame]
  refine ⟨fun _ => ?_, fun _ => ⟨fun _ => (Plain.pure rfl).deed w, fun _ => ?_⟩⟩
  · exact ensures_pure.2 (hask _ rfl ⟨rfl, rfl⟩ rfl ⟨rfl, rfl⟩)
  · split
    · exact (plain_warned (by simp)).deed w
    · simp only [ensures_bind, ensures_setGame, ensures_pure]
      exact hask _ rfl ⟨rfl, rfl⟩ rfl ⟨rfl, rfl⟩

theorem deed_enemyEncounter (env : Env) (f : Frame) (c : Command) (w : World) :
    Ensures (enemyEncounter env f c) w fun o w' => Deed callees reset o w.game w'.game := by
  refine Ensures.bind (within_operand (R := World.Over Eq) _ _ w) fun troopId u hu => ?_
  rw [hu]
  have hask (s : Scene) (h : s.shopTransaction = u.game.scene.shopTransaction) :
      Deed callees reset (.await f.pc .battle) u.game { u.game with scene := s } :=
    deed_of_far rfl rfl (.inl ⟨rfl, rfl⟩) (.inl rfl) (.inl h) (.inr ⟨_, rfl⟩)
  simp only [modifyScene, ensures_bind, ensures_getGame, ensures_check, ensures_ite, ensures_warn,
    ensures_modifyGame, ensures_pure]
  exact fun terrain _ => ⟨fun _ => hask _ rfl, fun _ => hask _ rfl⟩

theorem deed_captureKey (env : Env) (f : Frame) {c : Command} (hc : c.opcode = .field .captureKey)
    (w : World) :
    Ensures (captureKey env f c) w fun o w' => Deed callees c.resets? o w.game w'.game := by
  refine ensures_ite.2 ⟨fun hwait => ?_, fun _ => ?_⟩
  · have hreset : c.resets? = some (c.param 0) := if_pos ⟨hc, hwait⟩
    have hzero (k : KeyCapture) : Deed callees (some (c.param 0)) (.capture k) w.game
        { w.game with vars := w.game.vars.set (c.param 0) 0 } :=
      deed_of_far rfl rfl (.inr ⟨_, rfl, rfl, rfl⟩) (.inl rfl) (.inl rfl) (.inl ⟨rfl, .inl rfl⟩)
    simp only [setVariable, ensures_bind, ensures_ite, ensures_warn,
      ensures_modifyGame, ensures_pure, hreset]
    exact ⟨fun _ => hzero _, fun _ => hzero _⟩
  · exact (Plain.refresh (within_setVariable _ _) (.pure rfl)).deed w

/-! ## Commands of a battle that decide or call -/

theorem deed_terminateBattle (f : Frame) (w : World) :
    Ensures (terminateBattle f) w fun o w' => Deed callees reset o w.game w'.game := by
  simp only [terminateBattle, ensures_bind, ensures_getGame]
  split
  · exact (plain_warned (by simp)).deed w
  · next t ht =>
    have hbattle : w.game.troop.isSome = true := by rw [ht]; rfl
    simp only [ensures_bind, ensures_setGame, ensures_pure]
    have hfar : (w.game.field, true) = (w.game.field, w.game.troop.isSome) := by rw [hbattle]
    exact deed_of_far hfar rfl (.inl ⟨rfl, rfl⟩) (.inl rfl) (.inl rfl) (.inl ⟨rfl, .inr hbattle⟩)

/-! ## Calls -/

theorem deed_callCommon (env : Env) (f : Frame) (id : Number) (w : World) :
    Ensures (callCommon env f id) w
      fun o w' => Deed (env.data.commonLists id) reset o w.game w'.game := by
  unfold callCommon
  split
  · next e he =>
    refine ensures_pure.2 ((Game.Noted.refl _).deed fun call hcall => ?_)
    cases hcall
    exact Database.mem_commonLists he
  · exact (plain_warned (by simp)).deed w

theorem deed_callPage (env : Env) (f : Frame) (id page : Number) (w : World) :
    Ensures (callPage env f id page) w
      fun o w' => Deed env.data.pageLists reset o w.game w'.game := by
  simp only [callPage, ensures_bind, ensures_getGame]
  split
  · next commands hcommands =>
    refine ensures_pure.2 ((Game.Noted.refl _).deed fun call hcall => ?_)
    cases hcall
    exact Database.pageCommands?_mem hcommands
  · exact (plain_warned (by simp)).deed w

theorem deed_callEvent (env : Env) (f : Frame) {c : Command} (hc : c.opcode = .field .callEvent)
    (w : World) :
    Ensures (callEvent env f c) w
      fun o w' => Deed (c.callees env.data) reset o w.game w'.game := by
  simp only [callEvent, Command.callees, hc, ensures_bind, ensures_getGame]
  split
  · next hmode =>
    rw [if_pos hmode]
    exact deed_callCommon env f _ w
  · next hmode =>
    rw [if_neg (by omega)]
    exact deed_callPage env f _ _ w
  · next hmode =>
    rw [if_neg (by omega)]
    exact deed_callPage env f _ _ w
  · exact (plain_warned (by simp)).deed w

/-! ## Every operation -/

theorem plain_performShared (env : Env) (f : Frame) (c : Command) (op : SharedOp) :
    (performShared env f c op).Plain := by
  cases op with
  | finish | label | loop | showChoiceEnd | comment | commentLine | messageLine
  | showChoiceOption | jumpToLabel | breakLoop | endLoop | endEvent => exact .pure rfl
  | showMessage => exact plain_showMessage f c
  | messageOptions => exact plain_messageOptions f c
  | changeFaceGraphic => exact plain_changeFace f c
  | showChoice => exact plain_showChoice f c
  | inputNumber => exact plain_inputNumber f c
  | controlSwitches => exact plain_controlSwitches f c
  | controlVariables => exact plain_controlVariables env f c
  | timerOperation => exact plain_timerOperation env f c
  | changeGold => exact plain_changeGold f c
  | changeItems => exact plain_changeItems f c
  | changePartyMembers => exact plain_changePartyMembers f c
  | changeExp => exact plain_changeExp env f c
  | changeLevel => exact plain_changeLevel env f c
  | changeParameters => exact plain_changeParameters f c
  | changeSkills => exact plain_changeSkills f c
  | changeEquipment => exact plain_changeEquipment env f c
  | changeHp => exact plain_changeHp f c
  | changeSp => exact plain_changeSp f c
  | changeCondition => exact plain_changeCondition f c
  | fullHeal => exact plain_fullHeal f c
  | changeClass => exact plain_changeClass f c
  | changeBattleCommands => exact plain_changeBattleCommands f c
  | changeHeroName | changeHeroTitle | changeSpriteAssociation | changeActorFace =>
    exact plain_changeLook f c _
  | changeVehicleGraphic => exact plain_changeVehicleGraphic f c
  | changeSystemBgm | changeSystemSound | changeSystemGraphics | memorizeBgm
  | changeTeleportAccess | changeEscapeAccess | changeSaveAccess | changeMainMenuAccess =>
    exact plain_simply (notes_modifySettings _)
  | changeScreenTransitions => exact plain_changeTransition f c
  | tintScreen => exact plain_tintScreen env f c
  | flashScreen => exact plain_flashScreen env f c
  | shakeScreen => exact plain_shakeScreen env f c
  | weatherEffects => exact plain_changeWeather f c
  | showPicture => exact plain_showPicture f c
  | movePicture => exact plain_movePicture env f c
  | erasePicture => exact plain_erasePicture f c
  | wait => exact .bind within_check fun _ => .pure rfl
  | playBgm => exact plain_simply (notes_switchBgm _)
  | fadeOutBgm => exact plain_fadeOutBgm f c
  | playMemorizedBgm => exact .get fun _ => plain_simply (notes_switchBgm _)
  | playSound => exact plain_simply within_emit
  | playMovie => exact plain_playMovie f c
  | gameOver => exact plain_request f fun _ => ⟨rfl, rfl, rfl⟩

theorem deed_performField (env : Env) (f : Frame) (c : Command) {op : FieldOp}
    (hop : c.opcode = .field op) (w : World) :
    Ensures (performField env f c op) w
      fun o w' => Deed (c.callees env.data) c.resets? o w.game w'.game := by
  cases op with
  | endBranch | endShop | endInn | endBattle | elseBranch | transaction | noTransaction | stay
  | noStay | victoryHandler | escapeHandler | defeatHandler | proceedWithMovement =>
    exact (Plain.pure rfl).deed w
  | branch => exact (plain_conditionalBranch env f c).deed w
  | openShop => exact deed_openShop f c w
  | showInn => exact deed_showInn env f c w
  | enemyEncounter => exact deed_enemyEncounter env f c w
  | enterHeroName => exact (plain_enterName f c).deed w
  | openSaveMenu | openMainMenu | returnToTitle =>
    refine Plain.deed ?_ w
    exact plain_request f fun _ => ⟨rfl, rfl, rfl⟩
  | teleport => exact (plain_teleport env f c).deed w
  | memorizeLocation => exact (plain_memorizeLocation f c).deed w
  | recallToLocation => exact (plain_recallLocation env f c).deed w
  | eraseScreen | showScreen => exact (plain_changeCover env f c _).deed w
  | enterExitVehicle => exact (plain_enterExitVehicle f).deed w
  | setVehicleLocation => exact (plain_setVehicleLocation f c).deed w
  | changeEventLocation => exact (plain_changeEventLocation f c).deed w
  | tradeEventLocations => exact (plain_tradeEventLocations f c).deed w
  | storeTerrainId => exact (plain_storeTerrain env f c).deed w
  | storeEventId => exact (plain_storeEvent f c).deed w
  | panScreen => exact (plain_panScreen f c).deed w
  | showBattleAnimation => exact (plain_showBattleAnimation env f c).deed w
  | playerVisibility | changeMapTileset | changeEncounterRate | tileSubstitution =>
    refine Plain.deed (plain_simply ?_) w
    exact notes_modifyField_aside fun _ => rfl
  | flashSprite => exact (plain_flashSprite env f c).deed w
  | moveEvent => exact (plain_moveEvent f c).deed w
  | haltAllMovement => exact (plain_simply notes_haltAll).deed w
  | captureKey => exact deed_captureKey env f hop w
  | changePanorama => exact (plain_changePanorama f c).deed w
  | teleportTargets => exact (plain_changeTeleportTargets f c).deed w
  | escapeTarget => exact (plain_changeEscapeTarget f c).deed w
  | eraseEvent => exact (plain_eraseEvent f).deed w
  | callEvent => exact deed_callEvent env f hop w
  | simulatedAttack => exact (plain_simulatedAttack f c).deed w

theorem plain_performBattle (env : Env) (f : Frame) (c : Command) {op : BattleOp}
    (hcall : op ≠ .callCommonEvent) (hend : op ≠ .terminateBattle) :
    (performBattle env f c op).Plain := by
  cases op with
  | callCommonEvent => exact absurd rfl hcall
  | terminateBattle => exact absurd rfl hend
  | endBranch | elseBranch => exact .pure rfl
  | branch => exact plain_battleBranch f c
  | enableCombo => exact plain_enableCombo f c
  | showAnimation => exact plain_showAnimation env f c
  | forceFlee => exact plain_inBattle f _ fun _ t => within_forceFlee c t
  | changeEnemyHp => exact plain_inBattle f _ fun _ t => within_changeEnemy t _ _
  | changeEnemySp => exact plain_inBattle f _ fun g t => within_changeEnemySp g c t
  | changeEnemyCondition => exact plain_inBattle f _ fun _ t => within_changeEnemy t _ _
  | revealEnemy => exact plain_inBattle f _ fun _ t => within_changeEnemy t _ _
  | changeBackground => exact plain_inBattle f _ fun _ _ => within_pure

theorem deed_performBattle (env : Env) (f : Frame) (c : Command) {op : BattleOp}
    (hop : c.opcode = .battle op) (w : World) :
    Ensures (performBattle env f c op) w
      fun o w' => Deed (c.callees env.data) c.resets? o w.game w'.game := by
  by_cases hcall : op = .callCommonEvent
  · subst hcall
    simp only [Command.callees, hop]
    exact deed_callCommon env f _ w
  by_cases hend : op = .terminateBattle
  · subst hend
    exact deed_terminateBattle f w
  exact (plain_performBattle env f c hcall hend).deed w

theorem deed_perform (env : Env) (f : Frame) (c : Command) (w : World) :
    Ensures (perform env f c) w
      fun o w' => Deed (c.callees env.data) c.resets? o w.game w'.game := by
  unfold perform
  split
  · exact (plain_performShared env f c _).deed w
  · next hop => exact deed_performField env f c hop w
  · next hop => exact deed_performBattle env f c hop w
  · exact (Plain.pure rfl).deed w
  · exact (plain_warned (by simp)).deed w

/-- In a battle no other battle is asked for. -/
theorem ne_await_of_perform (env : Env) {f : Frame} (hf : f.context = .battle) (c : Command)
    (w : World) : Ensures (perform env f c) w fun o _ => ∀ p, o ≠ .await p .battle := by
  cases hop : c.opcode with
  | shared op => simpa only [perform, hf, hop] using (plain_performShared env f c op).ne_await w
  | field op =>
    simp only [perform, hf, hop]
    exact (plain_warned (by simp)).ne_await w
  | unknown code =>
    simp only [perform, hf, hop]
    exact ensures_pure.2 nofun
  | battle op =>
    simp only [perform, hf, hop]
    by_cases hcall : op = .callCommonEvent
    · subst hcall
      change Ensures (callCommon env f (c.param 0)) w _
      unfold callCommon
      split
      · exact ensures_pure.2 nofun
      · exact (plain_warned (by simp)).ne_await w
    by_cases hend : op = .terminateBattle
    · subst hend
      change Ensures (terminateBattle f) w _
      simp only [terminateBattle, ensures_bind, ensures_getGame]
      split
      · exact (plain_warned (by simp)).ne_await w
      · simp
    exact (plain_performBattle env f c hcall hend).ne_await w

theorem plain_goOn (env : Env) (f : Frame) (k : Awaited) : (goOn env f k).Plain := by
  cases k with
  | shop => exact plain_afterShop f
  | innAnswer => exact plain_answerInn f
  | innDarkness => exact plain_darkenInn env f
  | innTune => exact plain_wakeInn env f
  | battle => exact plain_afterBattle f
  | choice => exact plain_takeChoice f
  | scene => exact .pure rfl

end Commands

end EventScript
