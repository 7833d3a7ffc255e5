import EventScript.Proofs.Calls
import EventScript.Proofs.EventOrder

/-!
# Twins

Two directors are twins if they differ in the order of the common events and in nothing else.

* `Director.Twins` relates two things that are done to twins and leave twins. It has one rule for
  each way to compose, and everything that is done to a director is a twin of itself: `twins_lead`
  and `twins_fieldTick` for the ticks, `twins_order` for what the owner does.
* `Director.seen_eq_of_perm`: an owner who does the same things to both sees the same.
-/

namespace EventScript.Director

open Act

/-- The same director on a database with other common events. -/
structure Twin (data : Database) (es : List CommonEvent) (d d' : Director) : Prop where
  owns : d.data = data
  same : d' = { d with data := data.withEvents es }

/-- Two ends that go together: results that do and twins, or the same fault. -/
inductive TwinEnds {α β : Type} (data : Database) (es : List CommonEvent) (R : α → β → Prop) :
    Except Fault (α × Director) → Except Fault (β × Director) → Prop
  | ok {r : α} {s : β} {d d' : Director} (hr : R r s) (hd : Twin data es d d') :
      TwinEnds data es R (.ok (r, d)) (.ok (s, d'))
  | error {e : Fault} : TwinEnds data es R (.error e) (.error e)

/-- Two things done to twins that leave twins. -/
def Twins {α β : Type} (data : Database) (es : List CommonEvent) (R : α → β → Prop)
    (a : Directing α) (b : Directing β) : Prop :=
  ∀ d d', Twin data es d d' → TwinEnds data es R (a d) (b d')

variable {data : Database} {es : List CommonEvent}

section

variable {α β γ δ : Type} {R : α → β → Prop} {S : γ → δ → Prop}

theorem twins_pure {r : α} {s : β} (h : R r s) : Twins data es R (pure r) (pure s) :=
  fun _ _ hd => .ok h hd

theorem Twins.bind {a : Directing α} {b : Directing β} {f : α → Directing γ} {g : β → Directing δ}
    (ha : Twins data es R a b) (hf : ∀ r s, R r s → Twins data es S (f r) (g s)) :
    Twins data es S (a >>= f) (b >>= g) := by
  intro d d' hd
  have hends := ha d d' hd
  generalize hx : a d = x, hy : b d' = y at hends
  cases hends with
  | ok hr hd₁ =>
    rw [bind_of_ok hx, bind_of_ok hy]
    exact hf _ _ hr _ _ hd₁
  | error =>
    rw [bind_of_error hx, bind_of_error hy]
    exact .error

/-- Two things that begin alike. -/
theorem Twins.bind_same {a b : Directing α} {f : α → Directing γ} {g : α → Directing δ}
    (ha : Twins data es Eq a b) (hf : ∀ r, Twins data es S (f r) (g r)) :
    Twins data es S (a >>= f) (b >>= g) := by
  refine ha.bind fun r s hr => ?_
  subst hr
  exact hf r

theorem twins_get : Twins data es (Twin data es) get get := fun _ _ hd => .ok hd hd

/-- A change that does not concern the database. -/
theorem twins_modify {f : Director → Director} (howns : ∀ d, (f d).data = d.data)
    (hsame : ∀ d data, f { d with data } = { f d with data }) :
    Twins data es Eq (modify f : Directing Unit) (modify f) := by
  rintro d d' ⟨hdata, rfl⟩
  exact .ok rfl ⟨(howns d).trans hdata, hsame d _⟩

/-- A process sees nothing of a director but its world. -/
theorem twins_process (p : Process α) :
    Twins data es Eq (liftM p : Directing α) (liftM p) := by
  rintro d d' ⟨hdata, rfl⟩
  change TwinEnds data es Eq (Directing.ofProcess p d) (Directing.ofProcess p _)
  cases hp : p d.world with
  | error e =>
    simp only [Directing.ofProcess, hp]
    exact .error
  | ok q =>
    simp only [Directing.ofProcess, hp]
    exact .ok rfl ⟨hdata, rfl⟩

theorem twins_act (a : Act α) : Twins data es Eq (liftM a : Directing α) (liftM a) :=
  twins_process (Process.ofAct a)

theorem twins_ite {c : Prop} [Decidable c] {a a' : Directing α} {b b' : Directing β}
    (h : Twins data es R a b) (h' : Twins data es R a' b') :
    Twins data es R (if c then a else a') (if c then b else b') := by
  split
  · exact h
  · exact h'

theorem twins_forM {l : List α} {f : α → Directing PUnit} (hf : ∀ x, Twins data es Eq (f x) (f x)) :
    Twins data es Eq (l.forM f) (l.forM f) := by
  induction l with
  | nil => exact twins_pure rfl
  | cons x l ih => exact (hf x).bind_same fun _ => ih

theorem twins_mapM {l : List α} {f : α → Directing β} (hf : ∀ x, Twins data es Eq (f x) (f x)) :
    Twins data es Eq (l.mapM f) (l.mapM f) := by
  induction l with
  | nil => exact twins_pure rfl
  | cons x l ih =>
    rw [List.mapM_cons]
    exact (hf x).bind_same fun _ => ih.bind_same fun _ => twins_pure rfl

end

theorem twins_tickWorld : Twins data es Eq tickWorld tickWorld := by
  refine twins_get.bind fun d d' hd => ?_
  obtain ⟨rfl, rfl⟩ := hd
  exact twins_act (Act.tick d.data)

theorem twins_start (i : Interpreter) (commands : List Command) (owner : Number) :
    Twins data es Eq (start i commands owner) (start i commands owner) :=
  (twins_act _).bind_same fun _ => twins_act _

section

variable (h : data.Serves es)

include h

theorem twins_update (i : Interpreter) : Twins data es Eq (update i) (update i) := by
  refine twins_get.bind fun d d' hd => ?_
  obtain ⟨rfl, rfl⟩ := hd
  have hsame : i.update (env { d with data := d.data.withEvents es }) levels =
      i.update d.env levels := Interpreter.update_withEvents h d.host levels i
  rw [hsame]
  exact twins_process _

/-! ### Ticks of the field -/

theorem twins_updateRoot : Twins data es Eq updateRoot updateRoot := by
  refine twins_get.bind fun d d' hd => ?_
  obtain ⟨rfl, rfl⟩ := hd
  refine (twins_update h d.root).bind_same fun root => ?_
  exact twins_modify (fun _ => rfl) fun _ _ => rfl

theorem twins_updateCommon (id : Number) :
    Twins data es Eq (updateCommon id) (updateCommon id) := by
  refine twins_get.bind fun d d' hd => ?_
  obtain ⟨rfl, rfl⟩ := hd
  have hrest (i : Interpreter) : Twins d.data es Eq
      (do let i ← update i; modify fun d => { d with common := d.common.insert id i })
      (do let i ← update i; modify fun d => { d with common := d.common.insert id i }) :=
    (twins_update h i).bind_same fun _ =>
      twins_modify (fun _ => rfl) fun _ _ => rfl
  dsimp only
  rw [h.found]
  refine twins_ite (Twins.bind_same (twins_pure rfl) hrest) ?_
  split
  · exact (twins_start _ _ _).bind_same hrest
  · exact Twins.bind_same (twins_pure rfl) hrest

theorem twins_updateParallel (id : Number) :
    Twins data es Eq (updateParallel id) (updateParallel id) := by
  refine twins_get.bind fun d d' hd => ?_
  obtain ⟨rfl, rfl⟩ := hd
  have hgo (page : Number) (i : Interpreter) : Twins d.data es Eq
      (do
        let interpreter ← update i
        modify fun d => { d with parallel := d.parallel.insert id { page, interpreter } })
      (do
        let interpreter ← update i
        modify fun d => { d with parallel := d.parallel.insert id { page, interpreter } }) :=
    (twins_update h i).bind_same fun _ => twins_modify (fun _ => rfl) fun _ _ => rfl
  refine twins_ite ?_ ?_
  · simp only [pure_bind]
    exact hgo _ _
  · simp only [Database.pageCommands?_withEvents, game]
    split
    · simp only [map_eq_pure_bind, bind_assoc, pure_bind]
      exact (twins_start _ _ _).bind_same fun i => hgo _ i
    · simp only [pure_bind]
      exact twins_pure rfl

omit h in
theorem twins_carryTeleport : Twins data es Eq carryTeleport carryTeleport := by
  refine (twins_act _).bind_same fun g => ?_
  cases g.field.teleport with
  | none => exact twins_pure rfl
  | some t =>
    refine (twins_act _).bind_same fun _ => ?_
    refine twins_ite ?_ (twins_act _)
    refine twins_get.bind fun d d' hd => ?_
    obtain ⟨rfl, rfl⟩ := hd
    refine Twins.bind_same (twins_act (enterMap d.data t.mapId)) fun _ => ?_
    refine Twins.bind_same ?_ fun _ => twins_act _
    exact twins_modify (fun _ => rfl) fun _ _ => rfl

theorem twins_fieldTick : Twins data es Eq fieldTick fieldTick := by
  refine (twins_updateRoot h).bind_same fun _ => twins_get.bind fun d d' hd => ?_
  obtain ⟨rfl, rfl⟩ := hd
  have hcommons : parallelCommons (d.data.withEvents es) d.game = parallelCommons d.data d.game :=
    h.parallel d.game
  dsimp only [Director.game] at hcommons ⊢
  rw [hcommons]
  refine Twins.bind_same (twins_modify (fun _ => rfl) fun _ _ => rfl) fun _ => ?_
  refine Twins.bind_same (twins_forM (twins_updateCommon h)) fun _ => ?_
  refine twins_get.bind fun u u' hu => ?_
  obtain ⟨-, rfl⟩ := hu
  refine Twins.bind_same (twins_modify (fun _ => rfl) fun _ _ => rfl) fun _ => ?_
  refine Twins.bind_same (twins_forM (twins_updateParallel h)) fun _ => ?_
  exact twins_tickWorld.bind_same fun _ => twins_carryTeleport

/-! ### Battles -/

omit h in
theorem twins_startPage (pages : List (TroopPage × Nat)) :
    Twins data es Eq (startPage pages) (startPage pages) := by
  induction pages with
  | nil => exact twins_pure rfl
  | cons entry rest ih =>
    obtain ⟨page, k⟩ := entry
    refine twins_get.bind fun d d' hd => ?_
    obtain ⟨rfl, rfl⟩ := hd
    refine twins_ite ih ?_
    refine (twins_act _).bind_same fun ready => twins_ite ih ?_
    refine Twins.bind_same (twins_modify (fun _ => rfl) fun _ _ => rfl) fun _ => ?_
    refine twins_ite ih ?_
    refine (twins_start _ _ _).bind_same fun battle => ?_
    refine Twins.bind_same (twins_modify (fun _ => rfl) fun _ _ => rfl) fun _ => ?_
    exact twins_pure rfl

omit h in
theorem twins_startNextPage : Twins data es Eq startNextPage startNextPage := by
  refine twins_get.bind fun d d' hd => ?_
  obtain ⟨rfl, rfl⟩ := hd
  simp only [Database.troop?_withEvents, game]
  split
  · exact twins_startPage _
  · exact twins_pure rfl

omit h in
theorem twins_settleBattle (result : BattleResult) :
    Twins data es Eq (settleBattle result) (settleBattle result) := by
  refine (twins_act _).bind_same fun g => (twins_act _).bind_same fun party => ?_
  refine (twins_act _).bind_same fun _ => ?_
  exact twins_modify (fun _ => rfl) fun _ _ => rfl

theorem twins_battleTick : Twins data es Eq battleTick battleTick := by
  refine twins_get.bind fun d d' hd => ?_
  obtain ⟨rfl, rfl⟩ := hd
  have hgo : Twins d.data es Eq
      (do
        let d ← get
        let battle ← update d.battle
        modify fun d => { d with battle }
        tickWorld
        return true)
      (do
        let d ← get
        let battle ← update d.battle
        modify fun d => { d with battle }
        tickWorld
        return true) := by
    refine twins_get.bind fun u u' hu => ?_
    obtain ⟨-, rfl⟩ := hu
    refine (twins_update h u.battle).bind_same fun battle => ?_
    refine Twins.bind_same (twins_modify (fun _ => rfl) fun _ _ => rfl) fun _ => ?_
    exact twins_tickWorld.bind_same fun _ => twins_pure rfl
  refine twins_ite ?_ ?_
  · simp only [pure_bind, if_true]
    exact hgo
  · refine twins_startNextPage.bind_same fun running => twins_ite hgo ?_
    refine twins_get.bind fun u u' hu => ?_
    obtain ⟨-, rfl⟩ := hu
    simp only [game]
    split
    · exact (twins_settleBattle _).bind_same fun _ => twins_pure rfl
    · exact twins_pure rfl

/-! ### Calls -/

theorem twins_advance : Twins data es Eq advance advance := by
  refine (twins_act _).bind_same fun g => ?_
  refine twins_ite (twins_pure rfl) (twins_ite ?_ ?_)
  · exact (twins_battleTick h).bind_same fun _ => twins_pure rfl
  · split
    · exact twins_pure rfl
    · refine (twins_fieldTick h).bind_same fun _ => twins_get.bind fun u u' hu => ?_
      obtain ⟨-, rfl⟩ := hu
      exact twins_pure rfl

theorem twins_lead (n : Nat) : Twins data es Eq (lead n) (lead n) := by
  induction n with
  | zero => exact (twins_act _).bind_same fun _ => twins_pure rfl
  | succ n ih =>
    refine (twins_advance h).bind_same fun stop => ?_
    cases stop with
    | some stop => exact twins_pure rfl
    | none => exact ih

end

/-! ### What the owner does -/

theorem twins_buy (p : Purchase) : Twins data es Eq (buy p) (buy p) := by
  refine twins_get.bind fun d d' hd => ?_
  obtain ⟨rfl, rfl⟩ := hd
  simp only [Database.item?_withEvents]
  split
  · exact (twins_act _).bind_same fun _ => twins_pure rfl
  · refine (twins_act _).bind_same fun price => (twins_act _).bind_same fun g => ?_
    refine twins_ite (twins_pure rfl) ?_
    refine (twins_act _).bind_same fun cost => (twins_act _).bind_same fun _ => ?_
    exact (twins_act _).bind_same fun _ => twins_pure rfl

theorem twins_talkTo (id : Number) : Twins data es Eq (talkTo id) (talkTo id) :=
  (twins_act _).bind_same fun _ => (twins_act _).bind_same fun _ => twins_pure rfl

theorem twins_abandon : Twins data es Eq abandon abandon := by
  refine (twins_act _).bind_same fun _ => twins_get.bind fun d d' hd => ?_
  obtain ⟨rfl, rfl⟩ := hd
  refine Twins.bind_same (twins_modify (fun _ => rfl) fun _ _ => rfl) ?_
  exact fun _ => twins_act _

theorem twins_giveName (name : String) : Twins data es Eq (giveName name) (giveName name) := by
  refine (twins_act _).bind_same fun g => twins_ite ?_ (twins_act _)
  exact Twins.bind_same (twins_act _) fun _ => twins_act _

theorem twins_leaveMenu : Twins data es Eq leaveMenu leaveMenu := by
  refine (twins_act _).bind_same fun g => twins_ite ?_ ?_
  · exact Twins.bind_same (twins_act _) fun _ => twins_act _
  · exact Twins.bind_same (twins_pure rfl) fun _ => twins_act _

theorem twins_openBattle : Twins data es Eq openBattle openBattle := by
  refine twins_get.bind fun d d' hd => ?_
  obtain ⟨rfl, rfl⟩ := hd
  have hends (runs : List Bool) : Twins d.data es Eq
      (modify fun d => { d with battle := .idle .battle 0 false, pagesRun := runs } :
        Directing Unit)
      (modify fun d => { d with battle := .idle .battle 0 false, pagesRun := runs }) :=
    twins_modify (fun _ => rfl) fun _ _ => rfl
  refine twins_ite ?_ ?_
  · refine Twins.bind_same (twins_act _) fun _ => Twins.bind_same (twins_act _) fun _ => ?_
    exact Twins.bind_same (twins_act _) fun _ => hends _
  · refine Twins.bind_same (twins_act _) fun _ => ?_
    exact Twins.bind_same (twins_act _) fun _ => hends _

theorem twins_passTurn : Twins data es Eq passTurn passTurn := by
  refine (twins_act _).bind_same fun g => ?_
  have hends : Twins data es Eq
      (modify fun d => { d with pagesRun := d.pagesRun.map fun _ => false } : Directing Unit)
      (modify fun d => { d with pagesRun := d.pagesRun.map fun _ => false }) :=
    twins_modify (fun _ => rfl) fun _ _ => rfl
  cases g.troop with
  | none => exact hends
  | some t => exact (twins_act _).bind_same fun turn => (twins_act _).bind_same fun _ => hends

theorem twins_order (o : Order) : Twins data es Eq o.run o.run := by
  cases o with
  | talkTo id => exact (twins_talkTo id).bind_same fun _ => twins_pure rfl
  | abandon => exact twins_abandon
  | dismiss choice => exact twins_act _
  | enterNumber value =>
    refine (twins_act _).bind_same fun g => (twins_act _).bind_same fun _ => ?_
    exact (twins_act _).bind_same fun _ => twins_act _
  | leaveShop purchases => exact (twins_mapM twins_buy).bind_same fun _ => twins_act _
  | giveName name => exact twins_giveName name
  | leaveMenu => exact twins_leaveMenu
  | openBattle => exact twins_openBattle
  | passTurn => exact twins_passTurn
  | settleBattle result => exact twins_settleBattle result
  | attach host => exact twins_modify (fun _ => rfl) fun _ _ => rfl

/-! ### What the owner sees -/

/-- What the owner is told by a call. -/
inductive Answer
  | nothing
  | stopped (why : Stop)
  | startable (can : Bool)
  deriving DecidableEq

/-- Does what is called for, and tells what came of it. -/
def Call.answer : Call → Directing Answer
  | execute ticks => do return .stopped (← lead ticks)
  | tick => do
    fieldTick
    return .nothing
  | order (.talkTo id) => do return .startable (← talkTo id)
  | order o => do
    o.run
    return .nothing

/-- One thing that the owner does: it calls, or it changes the game by hand. -/
inductive Input
  | call (c : Call)
  | edit (change : Game → Game)

def Input.answer : Input → Directing Answer
  | call c => c.answer
  | edit change => do
    modifyGame change
    return .nothing

/-- What the owner sees who does one thing after the other: each time what it is told, and the world
as it is then. Nothing is done after a fault. -/
def seen (d : Director) : List Input → List (Except Fault (Answer × World))
  | [] => []
  | input :: rest =>
    match input.answer d with
    | .ok (answer, d') => .ok (answer, d'.world) :: seen d' rest
    | .error e => [.error e]

section

variable (h : data.Serves es)

include h

theorem twins_answer (c : Call) : Twins data es Eq c.answer c.answer := by
  cases c with
  | execute ticks => exact (twins_lead h ticks).bind_same fun _ => twins_pure rfl
  | tick => exact (twins_fieldTick h).bind_same fun _ => twins_pure rfl
  | order o =>
    cases o
    case talkTo id => exact (twins_talkTo id).bind_same fun _ => twins_pure rfl
    all_goals exact (twins_order _).bind_same fun _ => twins_pure rfl

theorem twins_input (i : Input) : Twins data es Eq i.answer i.answer := by
  cases i with
  | call c => exact twins_answer h c
  | edit change => exact Twins.bind_same (twins_act _) fun _ => twins_pure rfl

/-- Twins look alike, whatever is done to both. -/
theorem Twin.seen_eq {d d' : Director} (hd : Twin data es d d') (inputs : List Input) :
    seen d' inputs = seen d inputs := by
  induction inputs generalizing d d' with
  | nil => rfl
  | cons i rest ih =>
    have hends := twins_input h i d d' hd
    rw [seen, seen]
    generalize i.answer d = x, i.answer d' = y at hends
    cases hends with
    | ok hr hd₁ =>
      subst hr
      have hworld := congrArg Director.world hd₁.same
      simp only [ih hd₁, hworld]
    | error => rfl

end

/-- The order of the common events of an accepted database cannot be seen, if one of them at most
starts by itself. Whoever begins a game, or goes on with one, on the same database with its common
events in another order, and does the same things, is told the same each time, sees the same game,
effects and warnings each time, and meets the same fault if there is one. -/
theorem seen_eq_of_perm (hd : data.validate = .ok ()) (horder : es.Perm data.commonEvents)
    (hauto : data.commonEvents.countP (·.trigger = .autoStart) ≤ 1) (inputs : List Input) :
    (∀ random, seen (begin (data.withEvents es) random) inputs = seen (begin data random) inputs) ∧
      ∀ game, seen (ofGame (data.withEvents es) game) inputs = seen (ofGame data game) inputs := by
  have hserves := Database.serves_of_perm hd horder hauto
  have htwin (game : Game) : Twin data es (ofGame data game) (ofGame (data.withEvents es) game) :=
    ⟨rfl, rfl⟩
  exact ⟨fun random => (htwin (Game.begin data random)).seen_eq hserves inputs,
    fun game => (htwin game).seen_eq hserves inputs⟩

/-- The last common event of the list counts, and the first one passes on what is counted. -/
def relay : Database where
  maps := [{ id := 1 }]
  commonEvents := [
    { id := 2, trigger := .parallel, switchId := 5,
      commands := [{ code := SharedOp.controlVariables.code, params := [0, 2, 2, 0, 1, 1] }] },
    { id := 3, trigger := .autoStart, switchId := 5,
      commands := [{ code := SharedOp.wait.code, params := [1] }] },
    { id := 1, trigger := .parallel, switchId := 5,
      commands := [{ code := SharedOp.controlVariables.code, params := [0, 1, 1, 1, 0, 4] }] }]

/-- From whatever end the events are listed, the one that counts goes first, and whoever turns the
switch on sees the same. -/
theorem relay_counts_first : relay.validate = .ok () ∧
    relay.commonEvents.reverse.Perm relay.commonEvents ∧
    relay.commonEvents.reverse ≠ relay.commonEvents ∧
    relay.commonEvents.countP (·.trigger = .autoStart) ≤ 1 ∧
    (∀ g : Game, g.switches.get 5 = true → parallelCommons relay g = [1, 2]) ∧
    ∃ turnOn : Game → Game, (∀ g, (turnOn g).switches.get 5 = true) ∧ ∀ ticks,
      let inputs : List Input := [.edit turnOn, .call (.execute ticks)]
      seen (begin (relay.withEvents relay.commonEvents.reverse) default) inputs =
        seen (begin relay default) inputs := by
  have hvalid : relay.validate = .ok () := by rfl
  have horder := List.reverse_perm relay.commonEvents
  have hauto : relay.commonEvents.countP (·.trigger = .autoStart) ≤ 1 := by decide
  refine ⟨hvalid, horder, by decide, hauto, fun g hon => ?_, ?_⟩
  · simp [parallelCommons, relay, Game.isSwitchedOn, hon, List.mergeSort]
  · refine ⟨fun g => { g with switches := g.switches.set 5 true }, fun g => ?_, fun ticks => ?_⟩
    · simp [Switches.get_set]
    · exact (seen_eq_of_perm hvalid horder hauto _).1 default

end EventScript.Director
