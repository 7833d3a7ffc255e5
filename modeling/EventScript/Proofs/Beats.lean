import EventScript.Proofs.Calls
import EventScript.Proofs.Linked

/-!
# A game beat by beat

However many ticks an owner asks for at once, the director takes them one by one. The beats of a run
are these rounds, the ticks of the field that the owner asks for, and the orders.

* `Director.Beats` is a run by its beats, and `Reachable.exists_beats` shows that every run is one.
* `Director.beats_of_lead`: the reason for which a director stops is that of the last round.
* `Director.advances_of_advance` and `Director.battleTicks_of_battleTick` list what a round can come
  to, and a tick of a battle.
-/

namespace EventScript

/-- Whether something done to a director comes to an end with a property of its result can be
computed. -/
instance {α : Type} {c : Directing α} {d : Director} {P : α → Director → Prop}
    [∀ r, DecidablePred (P r)] : Decidable (∃ r d', c d = .ok (r, d') ∧ P r d') :=
  match h : c d with
  | .ok (r, d₁) =>
    decidable_of_iff (P r d₁)
      ⟨fun hp => ⟨r, d₁, rfl, hp⟩, fun ⟨_, _, hd, hp⟩ => by cases hd; exact hp⟩
  | .error _ => isFalse fun ⟨_, _, hd, _⟩ => nomatch hd

namespace Director

open Act

variable {data : Database} {random : Random} {d d' d'' : Director}

/-! ## Beats -/

/-- One of the things of which calls are made. -/
inductive Beat
  | order (o : Order)
  | tick
  /-- A round of a director that is led on, with its reason to stop. -/
  | advance (stop : Option Stop)

/-- A beat of a run, with what the director was before it and is after it. -/
structure Entry where
  beat : Beat
  before : Director
  after : Director

/-- The beat is what the director does. -/
def Entry.Sound (e : Entry) : Prop :=
  match e.beat with
  | .order o => o.run e.before = .ok ((), e.after)
  | .tick => fieldTick e.before = .ok ((), e.after)
  | .advance stop => advance e.before = .ok (stop, e.after)

/-- A run by its beats. -/
abbrev Beats : Director → List Entry → Director → Prop :=
  Linked Entry.before Entry.after Entry.Sound

/-- The rounds of a director that is led on. If it stops for a reason, the last one has found it. -/
theorem beats_of_lead (n : Nat) (d : Director) : Ensures (lead n) d fun stop d' =>
    ∃ es, Beats d es d' ∧ (∀ e ∈ es, ∃ s, e.beat = .advance s) ∧
      (stop ≠ .message → stop ≠ .running →
        ∃ pre e, es = pre ++ [e] ∧ e.beat = .advance (some stop)) := by
  induction n generalizing d with
  | zero =>
    simp only [lead, ensures_bind, Directing.ensures_act, ensures_getGame, ensures_pure]
    refine ⟨[], rfl, List.forall_mem_nil _, fun hmessage hrunning => ?_⟩
    split at hmessage
    · exact absurd rfl hmessage
    · next h => exact absurd (if_neg h) hrunning
  | succ n ih =>
    simp only [lead, ensures_bind]
    refine ensures_run.imp fun stop d₁ hround => ?_
    have hlinked : Beats d [⟨.advance stop, d, d₁⟩] d₁ := ⟨rfl, hround, rfl⟩
    cases stop with
    | some stop =>
      exact ensures_pure.2 ⟨_, hlinked, List.forall_mem_singleton.2 ⟨_, rfl⟩,
        fun _ _ => ⟨[], _, rfl, rfl⟩⟩
    | none =>
      refine (ih d₁).imp fun stop d' hrest => ?_
      obtain ⟨es, hes, hall, hlast⟩ := hrest
      refine ⟨_, hlinked.append hes, List.forall_mem_cons.2 ⟨⟨_, rfl⟩, hall⟩, fun h h' => ?_⟩
      obtain ⟨pre, e, rfl, he⟩ := hlast h h'
      exact ⟨_ :: pre, e, rfl, he⟩

theorem beats_of_call (c : Call) (d : Director) :
    Ensures c.run d fun _ d' => ∃ es, Beats d es d' := by
  cases c with
  | execute n =>
    simp only [Call.run, ensures_bind, ensures_pure]
    exact (beats_of_lead n d).imp fun _ _ h => h.imp fun _ hes => hes.1
  | tick => exact fun _ d' h => ⟨[⟨.tick, d, d'⟩], rfl, h, rfl⟩
  | order o => exact fun _ d' h => ⟨[⟨.order o, d, d'⟩], rfl, h, rfl⟩

/-- Every run is made of beats. -/
theorem Reachable.exists_beats (h : Reachable data random d) :
    ∃ es, Beats (begin data random) es d := by
  obtain ⟨calls, h⟩ := h
  refine ensures_forM (I := fun d => ∃ es, Beats (begin data random) es d) (fun c _ u hu => ?_)
    ⟨[], rfl⟩ () d h
  obtain ⟨es, hes⟩ := hu
  exact (beats_of_call c u).imp fun _ _ ⟨es', hes'⟩ => ⟨es ++ es', hes.append hes'⟩

/-- A beat is something that the owner can have done by itself. -/
theorem Entry.Sound.exists_call {e : Entry} (h : e.Sound) :
    ∃ c : Call, c.run e.before = .ok ((), e.after) := by
  obtain ⟨beat, before, after⟩ := e
  cases beat with
  | order o => exact ⟨.order o, h⟩
  | tick => exact ⟨.tick, h⟩
  | advance stop =>
    have hlead : ∃ s, lead 1 before = .ok (s, after) := by
      rw [lead]
      cases stop with
      | some stop => exact ⟨stop, bind_of_ok h⟩
      | none => exact ⟨_, bind_of_ok h⟩
    obtain ⟨s, hs⟩ := hlead
    exact ⟨.execute 1, bind_of_ok hs⟩

/-- Beats lead from what is reachable to what is reachable. -/
theorem Reachable.beats {es : List Entry} (h : Reachable data random d) (hes : Beats d es d') :
    Reachable data random d' := by
  refine hes.along (I := fun _ u => Reachable data random u) h fun _ e he hbefore => ?_
  obtain ⟨c, hc⟩ := he.exists_call
  exact hbefore.call hc

/-! ## Rounds -/

/-- A page of the battle is running, or else the next one is started first. -/
def RunsPage (d d₁ : Director) : Prop :=
  d.battle.isRunning = true ∧ d₁ = d ∨
    d.battle.isRunning = false ∧ startNextPage d = .ok (true, d₁)

theorem RunsPage.game {d₁ : Director} (h : RunsPage d d₁) : d₁.game = d.game := by
  rcases h with ⟨-, rfl⟩ | ⟨-, hstart⟩
  · rfl
  · exact game_of_startNextPage d true d₁ hstart

/-- What a tick of a battle comes to. -/
inductive BattleTicks (d : Director) : Bool → Director → Prop
  /-- A page is running, or the next one starts. It goes on, and the world moves. -/
  | goes {d₁ d' : Director} {j : Interpreter} {w : World} (hpage : RunsPage d d₁)
      (hupdate : d₁.battle.update d₁.env levels d₁.world = .ok (j, w))
      (hworld : tickWorld { d₁ with world := w, battle := j } = .ok ((), d')) :
      BattleTicks d true d'
  /-- No page may run, and the battle is decided. -/
  | settles {d₁ d' : Director} {result : BattleResult} (hidle : d.battle.isRunning = false)
      (hnone : startNextPage d = .ok (false, d₁)) (hresult : decided? d₁.game = some result)
      (hsettle : settleBattle result d₁ = .ok ((), d')) : BattleTicks d true d'
  /-- No page may run, and the battle goes on. -/
  | rests {d' : Director} (hidle : d.battle.isRunning = false)
      (hnone : startNextPage d = .ok (false, d')) (hopen : decided? d'.game = none) :
      BattleTicks d false d'

theorem battleTicks_of_battleTick (d : Director) :
    Ensures battleTick d fun ran d' => BattleTicks d ran d' := by
  have hgo {d₁ : Director} (hpage : RunsPage d d₁) : Ensures (do
        let d ← get
        let battle ← update d.battle
        modify fun d => { d with battle }
        tickWorld
        return true : Directing Bool) d₁ fun ran d' => BattleTicks d ran d' := by
    simp only [ensures_bind, Directing.ensures_get, ensures_update, Directing.ensures_modify,
      ensures_pure]
    refine ensures_run.imp fun j w hupdate => ?_
    exact ensures_run.imp fun _ d' hworld => .goes hpage hupdate hworld
  simp only [battleTick, ensures_bind, Directing.ensures_get, ensures_ite, ensures_pure] at hgo ⊢
  refine ⟨fun hrun => ⟨fun _ => hgo (.inl ⟨hrun, rfl⟩), fun h => absurd trivial h⟩, fun hend => ?_⟩
  have hidle : d.battle.isRunning = false := Bool.eq_false_iff.2 hend
  refine ensures_run.imp fun running d₁ hstart => ?_
  refine ⟨fun hrunning => hgo (.inr ⟨hidle, hrunning ▸ hstart⟩), fun hnone => ?_⟩
  have hnone : startNextPage d = .ok (false, d₁) := Bool.eq_false_iff.2 hnone ▸ hstart
  split
  · next result hresult =>
    simp only [ensures_bind, ensures_pure]
    exact ensures_run.imp fun _ d' hsettle => .settles hidle hnone hresult hsettle
  · next hopen => exact ensures_pure.2 (.rests hidle hnone hopen)

/-- What is asked for is neither that nothing is left to run nor that a turn is over. -/
theorem request?_ne {s : Scene} {stop : Stop} (h : s.request? = some stop) :
    stop ≠ .idle ∧ stop ≠ .battleTurn := by
  unfold Scene.request? at h
  repeat' split at h
  all_goals cases h
  all_goals decide

/-- What a round comes to. -/
inductive Advances (d : Director) : Option Stop → Director → Prop
  | reads (hread : d.game.message.waiting = true) : Advances d (some .message) d
  | fights {ran : Bool} {d' : Director} (hread : d.game.message.waiting = false)
      (hbattle : d.game.troop.isSome = true) (htick : BattleTicks d ran d') :
      Advances d (if ran then none else some .battleTurn) d'
  | asks {stop : Stop} (hread : d.game.message.waiting = false)
      (hfield : d.game.troop = none) (hstop : d.game.scene.request? = some stop) :
      Advances d (some stop) d
  | ticks {d' : Director} (hread : d.game.message.waiting = false)
      (hfield : d.game.troop = none) (hunasked : d.game.scene.request? = none)
      (htick : fieldTick d = .ok ((), d')) :
      Advances d (if d'.isAtRest then some .idle else none) d'

theorem advances_of_advance (d : Director) :
    Ensures advance d fun stop d' => Advances d stop d' := by
  simp only [advance, ensures_bind, Directing.ensures_act, ensures_getGame, ensures_ite,
    ensures_pure]
  refine ⟨fun hread => .reads hread, fun hread => ?_⟩
  have hread : d.game.message.waiting = false := Bool.eq_false_iff.2 hread
  refine ⟨fun hbattle => ?_, fun hfield => ?_⟩
  · exact (battleTicks_of_battleTick d).imp fun _ _ htick => .fights hread hbattle htick
  · have hfield : d.game.troop = none := Option.not_isSome_iff_eq_none.1 hfield
    split
    · next stop hstop => exact ensures_pure.2 (.asks hread hfield hstop)
    · next hunasked =>
      simp only [ensures_bind, Directing.ensures_get, ensures_pure]
      exact ensures_run.imp fun _ d' htick => .ticks hread hfield hunasked htick

/-- A round in a battle is a tick of it. -/
theorem battleTicks_of_advance {stop : Option Stop} (h : advance d = .ok (stop, d'))
    (hread : d.game.message.waiting = false) (hbattle : d.game.troop.isSome = true) :
    ∃ ran, BattleTicks d ran d' ∧ stop = if ran then none else some .battleTurn := by
  cases advances_of_advance d stop d' h with
  | reads hwaits => cases hread.symm.trans hwaits
  | fights _ _ htick => exact ⟨_, htick, rfl⟩
  | asks _ hfield | ticks _ hfield =>
    rw [hfield] at hbattle
    cases hbattle

end Director

end EventScript
