import EventScript.Director.Lead
import EventScript.Proofs.Noted

/-!
# The parts of a call

Whatever is done to a director is made of parts: one interpreter is updated, bound to a list or
dropped, the world moves, the owner does something.

* `Director.Agent` names the interpreters of a director, and `Director.Part` the parts.
* `Director.Binds` lists what becomes of the pages of the troop when the next one is looked for.
* `Director.History` is a run of parts with what each part leaves, and `Leads.keeps` shows that what
  every part keeps, a run of parts keeps.
-/

namespace EventScript

/-! ## Touching a director -/

namespace Directing

variable {d : Director}

@[simp] theorem ensures_get {Q : Director → Director → Prop} :
    Ensures (get : Directing Director) d Q ↔ Q d d := by
  constructor
  · intro h
    exact h d d rfl
  · intro h r d' hr
    cases hr
    exact h

@[simp] theorem ensures_modify {c : Director → Director} {Q : Unit → Director → Prop} :
    Ensures (modify c : Directing Unit) d Q ↔ Q () (c d) := by
  constructor
  · intro h
    exact h () (c d) rfl
  · intro h r d' hr
    cases hr
    exact h

theorem ensures_ofAct {α : Type} {a : Act α} {w : World} {Q : α → World → Prop} :
    Ensures (Process.ofAct a) w Q ↔ Ensures a w Q := by
  constructor
  · intro h r w' hr
    exact h r w' (by simp only [Process.ofAct, hr])
  · intro h r w' hr
    cases ha : a w with
    | error o => simp [Process.ofAct, ha] at hr
    | ok p =>
      simp only [Process.ofAct, ha] at hr
      cases hr
      exact h r w' ha

/-- A process touches nothing but the world. -/
@[simp] theorem ensures_process {α : Type} {p : Process α} {Q : α → Director → Prop} :
    Ensures (liftM p : Directing α) d Q ↔
      Ensures p d.world fun r w => Q r { d with world := w } := by
  change Ensures (ofProcess p) d Q ↔ _
  constructor
  · intro h r w hr
    exact h r { d with world := w } (by simp only [ofProcess, hr])
  · intro h r d' hr
    cases hp : p d.world with
    | error e => simp [ofProcess, hp] at hr
    | ok q =>
      simp only [ofProcess, hp] at hr
      cases hr
      exact h _ _ hp

/-- An act touches nothing but the world. -/
@[simp] theorem ensures_act {α : Type} {a : Act α} {Q : α → Director → Prop} :
    Ensures (liftM a : Directing α) d Q ↔
      Ensures a d.world fun r w => Q r { d with world := w } :=
  ensures_process.trans ensures_ofAct

/-- An act that gives a result gives it to a director. -/
theorem act_of_ok {α : Type} {a : Act α} {r : α} {w : World} (h : a d.world = .ok (r, w)) :
    (liftM a : Directing α) d = .ok (r, { d with world := w }) := by
  change ofProcess (Process.ofAct a) d = _
  simp only [ofProcess, Process.ofAct, h]

/-- An act that fails is a fault of a director. -/
theorem act_of_error {α : Type} {a : Act α} {o : Overflow} (h : a d.world = .error o) :
    (liftM a : Directing α) d = .error (.overflow o) := by
  change ofProcess (Process.ofAct a) d = _
  simp only [ofProcess, Process.ofAct, h]

section Binds

variable {α β : Type}

/-- What comes after an act starts from the world that the act leaves. -/
theorem act_bind {a : Act α} {r : α} {w : World} (h : a d.world = .ok (r, w))
    (k : α → Directing β) :
    ((liftM a : Directing α) >>= k) d = k r { d with world := w } :=
  bind_of_ok (act_of_ok h)

theorem get_bind (k : Director → Directing β) : ((get : Directing Director) >>= k) d = k d d :=
  rfl

theorem getGame_bind (k : Game → Directing β) :
    ((liftM Act.getGame : Directing Game) >>= k) d = k d.game d :=
  act_bind rfl k

theorem check_bind {x : Except Overflow α} {r : α} (h : x = .ok r) (k : α → Directing β) :
    ((liftM (Act.check x) : Directing α) >>= k) d = k r d := by
  subst h
  exact act_bind rfl k

end Binds

/-- Whether something done to a director comes to an end with a property can be computed. -/
instance {c : Directing Unit} {P : Director → Prop} [DecidablePred P] :
    Decidable (∃ d', c d = .ok ((), d') ∧ P d') :=
  match h : c d with
  | .ok ((), d₁) =>
    decidable_of_iff (P d₁) ⟨fun hp => ⟨d₁, rfl, hp⟩, fun ⟨_, hd, hp⟩ => by cases hd; exact hp⟩
  | .error _ => isFalse fun ⟨_, hd, _⟩ => nomatch hd

end Directing

/-! ## Interpreters and parts -/

namespace Director

/-- Who has an interpreter. -/
inductive Agent
  | root
  | common (id : Number)
  | parallel (id : Number)
  | battle
  deriving DecidableEq

/-- The page and the interpreter of a map event that runs beside the others. -/
def pageRun (d : Director) (id : Number) : PageRun := (d.parallel.get? id).getD {}

/-- The interpreter of an agent. -/
def interpreter (d : Director) : Agent → Interpreter
  | .root => d.root
  | .common id => (d.common.get? id).getD (.idle .field 0 false)
  | .parallel id => (d.pageRun id).interpreter
  | .battle => d.battle

/-- Gives an agent another interpreter. -/
def withInterpreter (d : Director) (a : Agent) (i : Interpreter) : Director :=
  match a with
  | .root => { d with root := i }
  | .common id => { d with common := d.common.insert id i }
  | .parallel id =>
    { d with parallel := d.parallel.insert id { d.pageRun id with interpreter := i } }
  | .battle => { d with battle := i }

/-- One update of the interpreter of an agent. -/
def updateAgent (a : Agent) : Directing Unit := do
  let d ← get
  let i ← update (d.interpreter a)
  modify fun d => d.withInterpreter a i

/-- Starts a common event over, if there is one. -/
def bindCommon (id : Number) : Directing Unit := do
  let d ← get
  match d.data.commonEvent? id with
  | some e => do
    let i ← start (d.interpreter (.common id)) e.commands 0
    modify fun d => d.withInterpreter (.common id) i
  | none => pure ()

/-- Starts the page that a map event shows, if it shows one. -/
def bindPage (id : Number) : Directing Unit := do
  let d ← get
  let page := (d.game.shownPage id).getD 0
  match d.data.pageCommands? d.game.field.id id page with
  | some commands => do
    let interpreter ← start (d.pageRun id).interpreter commands id
    modify fun d => { d with parallel := d.parallel.insert id { page, interpreter } }
  | none => pure ()

/-- Stops the common events that run no longer. -/
def dropCommons : Directing Unit :=
  modify fun d => { d with common := d.common.keep (parallelCommons d.data d.game).contains }

/-- Stops the map events that run no longer. -/
def dropPages : Directing Unit :=
  modify fun d => { d with parallel := d.parallel.keep d.game.field.parallelIds.contains }

/-- What the owner does besides running ticks. -/
inductive Order
  | talkTo (id : Number)
  | abandon
  | dismiss (choice : Option Number)
  | enterNumber (value : Number)
  | leaveShop (purchases : List Purchase)
  | giveName (name : String)
  | leaveMenu
  | openBattle
  | passTurn
  | settleBattle (result : BattleResult)
  /-- The machine that shows the game is in another state. -/
  | attach (host : Host)

/-- Carries an order out. -/
def Order.run : Order → Directing Unit
  | talkTo id => do let _ ← Director.talkTo id
  | abandon => Director.abandon
  | dismiss choice => Director.dismiss choice
  | enterNumber value => Director.enterNumber value
  | leaveShop purchases => Director.leaveShop purchases
  | giveName name => Director.giveName name
  | leaveMenu => Director.leaveMenu
  | openBattle => Director.openBattle
  | passTurn => Director.passTurn
  | settleBattle result => Director.settleBattle result
  | attach host => modify fun d => { d with host }

/-- A part of a call. -/
inductive Part
  | update (a : Agent)
  | bindCommon (id : Number)
  | bindPage (id : Number)
  | bindTroop
  | dropCommons
  | dropPages
  | world
  | teleport
  | order (o : Order)

/-- Does a part of a call. -/
def Part.run : Part → Directing Unit
  | update a => updateAgent a
  | bindCommon id => Director.bindCommon id
  | bindPage id => Director.bindPage id
  | bindTroop => do let _ ← startNextPage
  | dropCommons => Director.dropCommons
  | dropPages => Director.dropPages
  | world => tickWorld
  | teleport => carryTeleport
  | order o => o.run

/-- A run of parts, each with the director it leaves. -/
inductive History : Director → List (Part × Director) → Director → Prop
  | nil (d : Director) : History d [] d
  | cons {p : Part} {d d' d'' : Director} {hs : List (Part × Director)}
      (h : p.run d = .ok ((), d')) (rest : History d' hs d'') : History d ((p, d') :: hs) d''

/-- Some run of parts leads to a director. -/
def Leads (d d' : Director) : Prop := ∃ hs, History d hs d'

variable {d d' d'' : Director}

theorem History.append {hs hs' : List (Part × Director)} (h : History d hs d')
    (h' : History d' hs' d'') : History d (hs ++ hs') d'' := by
  induction h with
  | nil => exact h'
  | cons hp _ ih => exact .cons hp (ih h')

theorem Leads.refl (d : Director) : Leads d d := ⟨[], .nil d⟩

theorem Leads.trans (h : Leads d d') (h' : Leads d' d'') : Leads d d'' := by
  obtain ⟨hs, h⟩ := h
  obtain ⟨hs', h'⟩ := h'
  exact ⟨hs ++ hs', h.append h'⟩

/-- A part leads to what it leaves. -/
theorem leads_of_part (p : Part) (d : Director) : Ensures p.run d fun _ d' => Leads d d' :=
  fun _ d' h => ⟨[(p, d')], .cons h (.nil d')⟩

/-- What every part keeps, a run of parts keeps. -/
theorem Leads.keeps {I : Director → Prop}
    (hI : ∀ (p : Part) (d : Director), I d → Ensures p.run d fun _ d' => I d') (h : Leads d d')
    (hd : I d) : I d' := by
  obtain ⟨hs, h⟩ := h
  induction h with
  | nil => exact hd
  | cons hp _ ih => exact ih (hI _ _ hd _ _ hp)

/-! ## Agents one by one -/

theorem interpreter_withInterpreter (d : Director) (a b : Agent) (i : Interpreter) :
    (d.withInterpreter a i).interpreter b = if b = a then i else d.interpreter b := by
  cases a with
  | root | battle => cases b <;> simp [withInterpreter, interpreter, pageRun]
  | common id =>
    cases b with
    | common id' =>
      simp only [withInterpreter, interpreter, IdMap.get?_insert, Agent.common.injEq]
      split <;> rfl
    | root | battle | parallel => simp [withInterpreter, interpreter, pageRun]
  | parallel id =>
    cases b with
    | parallel id' =>
      simp only [withInterpreter, interpreter, pageRun, IdMap.get?_insert, Agent.parallel.injEq]
      split <;> rfl
    | root | battle | common => simp [withInterpreter, interpreter]

theorem insert_insert {α : Type} (m : IdMap α) (k : Number) (v v' : α) :
    (m.insert k v).insert k v' = m.insert k v' := by
  refine IdMap.ext_get? fun j => ?_
  simp only [IdMap.get?_insert]
  split <;> rfl

@[simp] theorem ensures_update {i : Interpreter} {Q : Interpreter → Director → Prop} :
    Ensures (update i) d Q ↔
      Ensures (i.update d.env levels) d.world fun j w => Q j { d with world := w } := by
  simp only [update, Directing.ensures_get, ensures_bind, Directing.ensures_process]

@[simp] theorem ensures_start {i : Interpreter} {commands : List Command} {owner : Number}
    {Q : Interpreter → Director → Prop} : Ensures (start i commands owner) d Q ↔
      ∀ j, i.start commands owner d.game.field.id = .ok j → Q j d := by
  simp only [start, ensures_bind, Directing.ensures_act, Act.ensures_getGame, Act.ensures_check]
  rfl

/-! ## Parts that only start or stop interpreters -/

section

open Act

variable {R : World → World → Prop} [World.Lenient R]

theorem within_tried {α : Type} {c : Option α} {test : α → Act Bool}
    (h : ∀ x, (test x).Within R) : (tried c test).Within R := by
  cases c with
  | none => exact within_pure
  | some x => exact h x

theorem within_enemyHits (t : Troop) (c : EnemyCondition) : (enemyHits t c).Within R := by
  unfold enemyHits
  split
  · exact .bind within_check fun _ => within_pure
  · exact within_warned (by simp) _

theorem within_actorHits (actors : IdMap Actor) (c : ActorCondition) :
    (actorHits actors c).Within R := by
  unfold actorHits
  have hbad : (do warn .pageNamesInvalidActor; return false : Act Bool).Within R :=
    within_warned (by simp) _
  split
  · exact .ite (.bind within_check fun _ => within_pure) hbad
  · exact hbad

theorem within_pageReady (c : TroopCondition) : (pageReady c).Within R := by
  refine .bind within_read fun g => ?_
  split
  · exact within_pure
  · next t _ =>
    refine .ite within_pure (.bind (within_tried fun _ => within_check) fun _ => ?_)
    refine .ite within_pure (.bind (within_tried (within_enemyHits t)) fun _ => ?_)
    exact .ite within_pure (within_tried (within_actorHits _))

end

/-- What binding one of some pages of the troop comes to. The game stays as it is, pages may be
marked, and the interpreter of the battle may start over with the commands of one of them. -/
inductive Binds (pages : List (TroopPage × Nat)) (d : Director) : Bool → Director → Prop
  | none {w : World} {marks : List Bool} (hgame : w.game = d.game) :
      Binds pages d false { d with world := w, pagesRun := marks }
  | page {w : World} {marks : List Bool} {e : TroopPage × Nat} {battle : Interpreter}
      (hgame : w.game = d.game) (he : e ∈ pages) (hne : e.1.commands.isEmpty = false)
      (hstart : d.battle.start e.1.commands 0 d.game.field.id = .ok battle) :
      Binds pages d true { d with world := w, pagesRun := marks, battle }

/-- A page is passed over, and marked perhaps. -/
theorem Binds.cons {pages : List (TroopPage × Nat)} {e : TroopPage × Nat} {w : World}
    {marks : List Bool} {started : Bool} (hw : w.game = d.game)
    (h : Binds pages { d with world := w, pagesRun := marks } started d') :
    Binds (e :: pages) d started d' := by
  cases h with
  | none hgame => exact .none (hgame.trans hw)
  | page hgame he hne hstart =>
    refine .page (hgame.trans hw) (List.mem_cons_of_mem _ he) hne ?_
    rw [← hw]
    exact hstart

theorem binds_of_startPage (pages : List (TroopPage × Nat)) (d : Director) :
    Ensures (startPage pages) d fun started d' => Binds pages d started d' := by
  induction pages generalizing d with
  | nil => exact ensures_pure.2 (.none rfl)
  | cons entry rest ih =>
    obtain ⟨page, k⟩ := entry
    have hpass {w : World} (marks : List Bool) (hw : w.game = d.game) :
        Ensures (startPage rest) { d with world := w, pagesRun := marks } fun started d' =>
          Binds ((page, k) :: rest) d started d' :=
      (ih _).imp fun _ _ h => h.cons hw
    simp only [startPage, ensures_bind, Directing.ensures_get, ensures_ite, Directing.ensures_act]
    refine ⟨fun _ => hpass d.pagesRun rfl, fun _ => ?_⟩
    have hreads : (pageReady page.condition).Reads := within_pageReady _
    refine (hreads d.world).imp fun ready w hw => ?_
    simp only [Directing.ensures_modify, ensures_start, ensures_pure]
    refine ⟨fun _ => hpass d.pagesRun hw.symm, fun _ => ⟨fun _ => hpass _ hw.symm, ?_⟩⟩
    refine fun hne j hj => .page hw.symm List.mem_cons_self (Bool.eq_false_iff.2 hne) ?_
    rw [Director.game, hw]
    exact hj

/-- The pages of the troop that the battle is fought with. -/
def troopPages (d : Director) : List (TroopPage × Nat) :=
  ((d.game.troop.bind fun t => d.data.troop? t.id).map (·.pages.zipIdx)).getD []

theorem binds_of_startNextPage (d : Director) :
    Ensures startNextPage d fun started d' => Binds d.troopPages d started d' := by
  simp only [startNextPage, ensures_bind, Directing.ensures_get]
  split
  · next t ht =>
    rw [troopPages, ht]
    exact binds_of_startPage _ d
  · exact ensures_pure.2 (.none rfl)

theorem Binds.game {pages : List (TroopPage × Nat)} {started : Bool}
    (h : Binds pages d started d') : d'.game = d.game := by
  cases h with
  | none hgame | page hgame => exact hgame

theorem game_of_startNextPage (d : Director) :
    Ensures startNextPage d fun _ d' => d'.game = d.game :=
  (binds_of_startNextPage d).imp fun _ _ h => h.game

/-- Whether a part only starts or stops interpreters. -/
def Part.isQuiet : Part → Bool
  | bindCommon _ | bindPage _ | bindTroop | dropCommons | dropPages => true
  | update _ | world | teleport | order _ => false

theorem game_of_quiet {p : Part} (hp : p.isQuiet = true) (d : Director) :
    Ensures p.run d fun _ d' => d'.game = d.game := by
  cases p with
  | update | world | teleport | order => cases hp
  | bindCommon id =>
    simp only [Part.run, bindCommon, ensures_bind, Directing.ensures_get]
    split
    · simp only [ensures_bind, ensures_start, Directing.ensures_modify]
      intro j hj
      rfl
    · exact ensures_pure.2 rfl
  | bindPage id =>
    simp only [Part.run, bindPage, ensures_bind, Directing.ensures_get]
    split
    · simp only [ensures_bind, ensures_start, Directing.ensures_modify]
      intro j hj
      rfl
    · exact ensures_pure.2 rfl
  | bindTroop =>
    simp only [Part.run, ensures_bind, ensures_pure]
    exact game_of_startNextPage d
  | dropCommons | dropPages => exact Directing.ensures_modify.2 rfl

/-! ## Purchases -/

/-- Of a director only the world changes, and within a relation. -/
def Trades (R : World → World → Prop) (d d' : Director) : Prop :=
  ∃ w, d' = { d with world := w } ∧ R d.world w

section

variable {R : World → World → Prop} [World.AllowsDeeds R]

theorem trades_buy (b : Purchase) (d : Director) :
    Ensures (buy b) d fun _ d' => Trades R d d' := by
  have hnone : Trades R d d := ⟨d.world, rfl, World.Lenient.refl _⟩
  simp only [buy, ensures_bind, Directing.ensures_get]
  split
  · simp only [ensures_bind, Directing.ensures_act, Act.ensures_warn, ensures_pure]
    exact ⟨_, rfl, World.Lenient.warn (by simp)⟩
  · next item _ =>
    simp only [ensures_bind, Directing.ensures_act, Act.ensures_check, Act.ensures_getGame,
      ensures_ite, ensures_pure]
    refine fun price _ => ⟨fun _ => hnone, fun _ cost _ => ?_⟩
    refine (Act.within_giveGold (R := R) cost d.world).imp fun _ u hu => ?_
    refine (Act.within_giveItem (R := R) b.item b.count u).imp fun _ w hw => ⟨w, rfl, ?_⟩
    exact World.Lenient.trans hu hw

theorem trades_purchases (purchases : List Purchase) (d : Director) :
    Ensures (purchases.mapM buy) d fun _ d' => Trades R d d' := by
  refine ensures_mapM (fun b _ u hu => ?_) ⟨d.world, rfl, World.Lenient.refl _⟩
  refine (trades_buy (R := R) b u).imp fun _ _ h => ?_
  obtain ⟨v, rfl, hv⟩ := hu
  obtain ⟨w, rfl, hw⟩ := h
  exact ⟨w, rfl, World.Lenient.trans hv hw⟩

end

end Director

end EventScript
