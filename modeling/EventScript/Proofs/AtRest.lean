import EventScript.Proofs.Beats
import EventScript.Proofs.FreshPages
import EventScript.Proofs.HeldRequests
import EventScript.Proofs.HeldUpdates
import EventScript.Proofs.Reachable
import EventScript.Proofs.Replies
import EventScript.Proofs.Roles

/-!
# What is about to start when nothing runs

A director stops as idle when nothing runs and nothing is about to start. It does not look at the
common events that start by themselves.

* `Frame.startNext_of_quiet`: where nothing is queued and no event of the map is due, the root takes
  up such a common event or nothing.
* `Interpreter.leaves_of_takeTurns`: in an update the root leaves none behind that it could take up,
  unless its turns are used up when it has just left its list.
* `Director.idle_of_lead` puts this together for the tick after which a director stops.
-/

namespace EventScript

open Act

namespace Frame

variable {env : Env} {f : Frame} {w : World}

theorem start_forgetOwner (f : Frame) (mapId : Number) (commands : List Command)
    (owner mapId' : Number) :
    (f.forgetOwner mapId).start commands owner mapId' = f.start commands owner mapId' := by
  unfold forgetOwner
  split <;> rfl

/-! ## What the root takes up -/

/-- Where nothing is queued and no event of the map is due, only a common event that starts by
itself can be taken up. -/
theorem startNext_of_quiet (hlook : w.game.field.needRefresh = false)
    (hqueue : w.game.scene.commonEventId = none) (hdue : w.game.field.dueEvent? = none) :
    f.startNext env w = (match env.data.automatic? w.game with
      | some e => some <$> check (f.start e.commands 0 w.game.field.id)
      | none => pure none : Act (Option Frame)) w := by
  have hqueued : queuedEvent env w = .ok (none, w) := by
    rw [queuedEvent, getGame_bind, hqueue]
    rfl
  have hfield : f.startFieldEvent env w = .ok (none, w) := by
    rw [startFieldEvent, getGame_bind, hdue]
    rfl
  rw [startNext, getGame_bind, hlook, if_neg Bool.false_ne_true]
  exact (bind_of_ok hqueued).trans ((bind_of_ok hfield).trans rfl)

theorem isFree_of_startFieldEvent (env : Env) (f x : Frame) (w : World) :
    Ensures (f.startFieldEvent env) w fun _ w' => x.isFree w'.game = x.isFree w.game := by
  refine (setsOff_of_startFieldEvent env f w).imp fun s w' h => ?_
  cases h with
  | nothing | passes | starts => rfl

/-- Looking for something to run leaves the message window, the requests and the battle alone. When
nothing is found, there is no common event either that starts by itself. -/
theorem isFree_of_startNext (env : Env) (f x : Frame) (w : World) :
    Ensures (f.startNext env) w fun s w' => x.isFree w'.game = x.isFree w.game ∧
      (s = none → env.data.automatic? w'.game = none) := by
  have hfree : x.isFree (w.game.looked env.data).unqueued = x.isFree w.game := by
    unfold Game.looked
    split <;> rfl
  refine (seeks_of_startNext env f w).imp fun s w' h => ?_
  cases h with
  | queued hu =>
    rw [← hu] at hfree
    exact ⟨hfree, fun h => absurd h (Option.some_ne_none _)⟩
  | due hu hs | automatic hu hs =>
    rw [← hu] at hfree
    refine ⟨(isFree_of_startFieldEvent env f x _ _ _ hs).trans hfree, fun h => ?_⟩
    exact absurd h (Option.some_ne_none _)
  | nothing hu hnone he =>
    rw [← hu] at hfree
    exact ⟨(isFree_of_startFieldEvent env f x _ _ _ hnone).trans hfree, fun _ => he⟩

/-- The turn of a root that looks for something to run. -/
def takeUp (env : Env) (f : Frame) : Act Turn := do
  match ← f.startNext env with
  | some started => return { frame := started, signal := .again }
  | none => return { frame := f, signal := .yield }

theorem isFree_iff {g : Game} :
    f.isFree g = true ↔ g.message.waiting = false ∧ f.isHeld g = false := by
  simp [isFree]

theorem isFree_of_context {f' : Frame} (h : f'.context = f.context) (g : Game) :
    f'.isFree g = f.isFree g := by
  rw [isFree, isFree, isHeld, isHeld, h]

/-- A root that has left its list and is free looks for something to run. -/
theorem turn_of_left (hf : f.IsTop) (hend : f.isRunning = false)
    (hfree : f.isFree w.game = true) : f.turn env w = f.takeUp env w := by
  have hnil : f.commands = [] := by simpa [isRunning] using hend
  obtain ⟨hread, hheld⟩ := isFree_iff.1 hfree
  have hproceed : f.proceed env w = f.takeUp env w := by
    unfold isHeld at hheld
    rw [proceed, getGame_bind, if_neg (Bool.eq_false_iff.1 hheld)]
    rcases hf.ended hend with hp | hp <;> simp [hp, hnil, hend, hf.isRoot] <;> rfl
  rw [turn, getGame_bind, if_neg (Bool.eq_false_iff.1 hread)]
  rcases hf.ended hend with hp | hp <;> simp only [hp] <;> exact hproceed

/-- Where nothing is queued and no event of the map is due, the root takes up a common event that
starts by itself, or hands over the turn. -/
theorem turn_of_quiet (hf : f.IsTop) (hend : f.isRunning = false) (hfree : f.isFree w.game = true)
    (hlook : w.game.field.needRefresh = false) (hqueue : w.game.scene.commonEventId = none)
    (hdue : w.game.field.dueEvent? = none) :
    f.turn env w = (match env.data.automatic? w.game with
      | some e => do
        return { frame := ← check (f.start e.commands 0 w.game.field.id), signal := .again }
      | none => return { frame := f, signal := .yield } : Act Turn) w := by
  rw [turn_of_left hf hend hfree]
  change Except.bind (f.startNext env w) _ = _
  rw [startNext_of_quiet hlook hqueue hdue]
  cases env.data.automatic? w.game with
  | none => rfl
  | some e =>
    dsimp only
    cases f.start e.commands 0 w.game.field.id <;> rfl

/-- A root leaves its list free, and goes on in the same update. -/
theorem isFree_of_proceed (hf : f.IsTop) (hrun : f.isRunning = true) (w : World) :
    Ensures (f.proceed env) w fun t w' => t.frame.isRunning = false →
      t.signal = .again ∧ t.frame.isFree w'.game = true := by
  intro t w' ht hend
  have hstays (h : f.SameList t.frame) : False :=
    Bool.false_ne_true (hend.symm.trans (h.isRunning.trans hrun))
  by_cases hheld : f.isHeld w.game = true
  · cases (proceed_of_isHeld hheld).symm.trans ht
    exact (hstays (.refl f)).elim
  cases proceeds_of_proceed env f w t w' ht with
  | held | ended | idles => exact (hstays (.refl f)).elim
  | @resumes _ o u _ _ _ _ _ hs =>
    have hl := (ensures_settle env f.ready o u t w' hs).list
    exact (hstays ⟨hl.context, hl.depth, hl.isRoot, hl.commands, hl.owner, hl.mapId⟩).elim
  | @performs _ o u _ _ _ _ _ _ hs => exact (hstays (ensures_settle env f o u t w' hs).list).elim
  | starts hend' => exact absurd (hend'.symm.trans hrun) Bool.false_ne_true
  | finishes _ _ _ hfinish =>
    have hroot : (f.isRoot && f.depth = 0) = true := by simp [hf.isRoot, hf.depth]
    rw [finish, if_pos hroot] at hfinish
    cases hfinish
    refine ⟨rfl, isFree_iff.2 ⟨rfl, ?_⟩⟩
    exact Bool.eq_false_iff.2 hheld

/-- A root that has left its list is free, and where it hands over the turn, there is no common
event that starts by itself. -/
theorem isFree_of_turn (hf : f.IsTop) (w : World)
    (hfree : f.isRunning = false → f.isFree w.game = true) :
    Ensures (f.turn env) w fun t w' => t.frame.isRunning = false →
      t.frame.isFree w'.game = true ∧ (t.signal = .yield → env.data.automatic? w'.game = none) := by
  cases hrun : f.isRunning with
  | false =>
    have hlook : Ensures (f.takeUp env) w fun t w' => t.frame.isFree w'.game = true ∧
        (t.signal = .yield → env.data.automatic? w'.game = none) := by
      refine ensures_bind.2 fun s w' hs => ?_
      obtain ⟨hsame, hnone⟩ := isFree_of_startNext env f f w s w' hs
      have hf' : f.isFree w'.game = true := hsame.trans (hfree hrun)
      cases s with
      | some s =>
        have hstarted := (ensures_startNext env f w _ _ hs).2 s rfl
        refine ensures_pure.2 ⟨(isFree_of_context hstarted.context _).trans hf', fun h => ?_⟩
        exact absurd h (show Signal.again ≠ .yield by decide)
      | none => exact ensures_pure.2 ⟨hf', fun _ => hnone rfl⟩
    intro t w' ht _
    exact hlook t w' ((turn_of_left hf hrun (hfree hrun)).symm.trans ht)
  | true =>
    have hgo {x : Frame} (hx : x.IsTop) (hrun : x.isRunning = true) (u : World) :
        Ensures (x.proceed env) u fun t w' => t.frame.isRunning = false →
          t.frame.isFree w'.game = true ∧
            (t.signal = .yield → env.data.automatic? w'.game = none) := by
      refine (isFree_of_proceed hx hrun u).imp fun t w' h hend => ?_
      obtain ⟨hsignal, hfree⟩ := h hend
      exact ⟨hfree, fun hyield => absurd (hsignal.symm.trans hyield) (by decide)⟩
    have hready : f.ready.IsTop := ⟨hf.context, hf.isRoot, hf.depth, fun _ => .inl rfl⟩
    have hstays {P : Prop} {x : Frame} (hx : x.isRunning = f.isRunning)
        (hend : x.isRunning = false) : P :=
      absurd (hend.symm.trans (hx.trans hrun)) Bool.false_ne_true
    simp only [turn, ensures_bind, ensures_getGame, ensures_ite, ensures_pure]
    refine ⟨fun _ => hstays rfl, fun _ => ?_⟩
    split
    · exact ensures_ite.2 ⟨fun _ => ensures_pure.2 (hstays rfl), fun _ => hgo hready hrun w⟩
    · refine ensures_bind.2 fun k u _ => ?_
      cases k with
      | some k => exact ensures_pure.2 (hstays rfl)
      | none => exact hgo hready hrun u
    · exact ensures_pure.2 (hstays rfl)
    · exact hgo hf hrun w

end Frame

namespace Interpreter

open EventScript.Frame

variable {env : Env} {f : Frame} {calls : List Frame} {w : World}
  {inner : Frame → List Frame → Process Interpreter}

/-- What turns leave of a root that runs nothing after them. It is free, and there is no common
event that starts by itself, or its turns were used up and with one turn more, which is `more`, it
would have gone on from where it stands. -/
structure Leaves (env : Env) (inner : Frame → List Frame → Process Interpreter)
    (more : Except Fault (Interpreter × World)) (i : Interpreter) (w : World) : Prop where
  calls : i.calls = []
  free : i.frame.isFree w.game = true
  looked : env.data.automatic? w.game = none ∨ more = takeTurns env inner 1 i.frame [] w

theorem leaves_of_goTurn {n : Nat}
    (ih : ∀ (f : Frame) (calls : List Frame) (w : World), f.IsTop → Nested f calls →
      (f.isRunning = false → f.isFree w.game = true) →
      Ensures (takeTurns env inner n f calls) w fun i w' => i.isRunning = false →
        Leaves env inner (takeTurns env inner (n + 1) f calls w) i w')
    (hf : f.IsTop) (hn : f.Waiting) (hfree : f.isRunning = false → f.isFree w.game = true) :
    Ensures (goTurn env inner n f : Process Interpreter) w fun i w' => i.isRunning = false →
      Leaves env inner (goTurn env inner (n + 1) f w) i w' := by
  intro i w' hi hend
  unfold goTurn at hi ⊢
  cases ht : f.turn env w with
  | error o => rw [ht] at hi; cases hi
  | ok p =>
    obtain ⟨t, u⟩ := p
    have hturn := isFree_of_turn hf w hfree t u ht
    have hnested := nested_of_turn hn ht
    rw [ht] at hi
    cases hs : t.signal with
    | yield =>
      simp only [hs] at hi
      cases hi
      obtain ⟨hfree', hnone⟩ := hturn hend
      refine ⟨?_, hfree', .inl (hnone hs)⟩
      cases hc : t.called with
      | none => rfl
      | some c =>
        rw [hc] at hnested
        exact absurd (hend.symm.trans hnested.2.1) Bool.false_ne_true
    | again =>
      simp only [hs] at hi ⊢
      obtain ⟨htop, -⟩ := isTop_of_turn hf w t u ht
      exact ih _ _ _ htop hnested (fun h => (hturn h).1) i w' hi hend

theorem leaves_of_takeTurns (env : Env) (inner : Frame → List Frame → Process Interpreter) (n : Nat)
    (hf : f.IsTop) (hn : Nested f calls) (hfree : f.isRunning = false → f.isFree w.game = true) :
    Ensures (takeTurns env inner n f calls) w fun i w' => i.isRunning = false →
      Leaves env inner (takeTurns env inner (n + 1) f calls w) i w' := by
  induction n generalizing f calls w with
  | zero =>
    refine ensures_pure.2 fun hend => ?_
    cases calls with
    | nil => exact ⟨rfl, hfree hend, .inr rfl⟩
    | cons c cs => exact absurd (hend.symm.trans hn.2.1) Bool.false_ne_true
  | succ n ih =>
    have hgo {x : Frame} {u : World} (hx : x.IsTop) (hwaits : x.Waiting)
        (hfree : x.isRunning = false → x.isFree u.game = true) :=
      leaves_of_goTurn (fun _ _ _ => ih) hx hwaits hfree
    have hforgets : (f.forgetOwner w.game.field.id).IsTop := hf.forgetOwner _
    have hnested := nested_forgetOwner w.game.field.id hn
    intro i w' hi hend
    cases calls with
    | nil =>
      rw [takeTurns_nil] at hi ⊢
      refine hgo hforgets hnested (fun h => ?_) i w' hi hend
      rw [isFree_forgetOwner]
      exact hfree (by rwa [isRunning_forgetOwner] at h)
    | cons c cs =>
      -- The frame that called is running, so it is not between two events.
      rw [takeTurns_cons] at hi ⊢
      have hrun := (isRunning_forgetOwner f w.game.field.id).trans hn.2.1
      cases hc : inner c cs w with
      | error e => rw [hc] at hi; cases hi
      | ok p =>
        obtain ⟨called, u⟩ := p
        rw [hc] at hi
        cases hcalled : called.isRunning with
        | true =>
          simp only [hcalled, if_true] at hi
          cases hi
          exact absurd (hend.symm.trans hrun) Bool.false_ne_true
        | false =>
          simp only [hcalled, Bool.false_eq_true, if_false] at hi ⊢
          refine hgo hforgets hnested.1 (fun h => ?_) i w' hi hend
          exact absurd (h.symm.trans hrun) Bool.false_ne_true

theorem inBattle_of_update (levels : Nat) (i : Interpreter) (w : World) :
    Ensures (i.update env levels) w fun _ w' => w'.game.troop.isSome = w.game.troop.isSome :=
  leads_of_turns (R := fun w w' => w'.game.troop.isSome = w.game.troop.isSome) (fun _ => rfl)
    (fun h h' => h'.trans h) (fun f w => (place_of_turn env f w).imp fun _ _ h => h.2) levels i w

end Interpreter

namespace Director

variable {data : Database} {random : Random} {d d' : Director}

/-! ## The tick after which a director stops -/

/-- Nothing runs and nothing holds the root up, and nothing waits for the root but, at most, a
common event that starts by itself. -/
structure Rests (d : Director) : Prop where
  ended : d.root.isRunning = false
  read : d.game.message.waiting = false
  unasked : d.game.scene.request? = none
  unqueued : d.game.scene.commonEventId = none
  undue : ∀ e ∈ d.game.field.events.values, e.active = true → e.starting = false
  still : d.game.field.anyMoving = false

theorem request?_eq_none_iff {s : Scene} : s.request? = none ↔ s.isBlocking = false := by
  rw [← Bool.not_eq_true, s.isBlocking_iff, ← Option.isSome_iff_exists, Bool.not_eq_true,
    Option.isSome_eq_false_iff, Option.isNone_iff_eq_none]

theorem dueEvent?_eq_none_iff {f : Field} :
    f.dueEvent? = none ↔ ∀ e ∈ f.events.values, e.active = true → e.starting = false := by
  simp only [Field.dueEvent?, Option.map_eq_none_iff, List.find?_eq_none, Bool.and_eq_true,
    not_and, Bool.not_eq_true]
  exact forall₂_congr fun e _ => by cases e.active <;> simp

theorem isAtRest_iff : d.isAtRest = true ↔ d.Rests := by
  simp only [isAtRest, Bool.and_eq_true, Bool.not_eq_true', Option.isNone_iff_eq_none]
  constructor
  · rintro ⟨⟨⟨⟨⟨hend, hread⟩, hunasked⟩, hqueue⟩, hdue⟩, hstill⟩
    exact ⟨hend, hread, request?_eq_none_iff.2 hunasked, hqueue, dueEvent?_eq_none_iff.1 hdue,
      hstill⟩
  · rintro ⟨hend, hread, hunasked, hqueue, hdue, hstill⟩
    exact ⟨⟨⟨⟨⟨hend, hread⟩, request?_eq_none_iff.1 hunasked⟩, hqueue⟩,
      dueEvent?_eq_none_iff.2 hdue⟩, hstill⟩

/-- A tick of the field that is done where nothing has to be answered. -/
structure Ticks (d d' : Director) : Prop where
  read : d.game.message.waiting = false
  field : d.game.troop = none
  unasked : d.game.scene.request? = none
  tick : fieldTick d = .ok ((), d')

theorem ticks_of_advance (h : advance d = .ok (some .idle, d')) : Ticks d d' ∧ d'.Rests := by
  have hround := advances_of_advance d _ d' h
  generalize hstop : some Stop.idle = stop at hround
  cases hround with
  | reads => cases hstop
  | fights => split at hstop <;> cases hstop
  | asks _ _ hrequest =>
    cases hstop
    exact absurd rfl (request?_ne hrequest).1
  | ticks hread hfield hunasked htick =>
    refine ⟨⟨hread, hfield, hunasked, htick⟩, ?_⟩
    split at hstop
    · next hrest => exact isAtRest_iff.1 hrest
    · cases hstop

/-- A director that stops as idle does so after a tick of the field. -/
theorem ticks_of_lead (n : Nat) (h : Reachable data random d) :
    Ensures (lead n) d fun stop d' => stop = .idle →
      ∃ d₀, Reachable data random d₀ ∧ Ticks d₀ d' ∧ d'.Rests := by
  refine (beats_of_lead n d).imp fun stop d' ⟨es, hes, _, hlast⟩ hidle => ?_
  subst hidle
  obtain ⟨rounds, e, rfl, hbeat⟩ := hlast nofun nofun
  obtain ⟨hrounds, he, rfl⟩ := hes.apart
  rw [Entry.Sound, hbeat] at he
  exact ⟨e.before, h.beats hrounds, ticks_of_advance he⟩

/-! ## What the tick leaves of the root -/

/-- A number of turns of the root, with the events that it called. -/
def rootTurns (d : Director) (n : Nat) : Except Fault (Interpreter × World) :=
  Interpreter.takeTurns d.env (Interpreter.updateFrames d.env (levels - 1)) n d.root.frame
    d.root.calls d.world

/-- An update of the root is as many turns as there is a budget for. -/
theorem update_root_eq (d : Director) :
    d.root.update d.env levels d.world = d.rootTurns d.data.config.maxIterations.toNat := by
  have hlevels : levels = levels - 1 + 1 := rfl
  rw [Interpreter.update, hlevels, Interpreter.updateFrames]
  rfl

theorem updateRoot_of_ok {root : Interpreter} {w : World}
    (h : d.root.update d.env levels d.world = .ok (root, w)) :
    updateRoot d = .ok ((), { d with root, world := w }) := by
  have hrun : update d.root d = .ok (root, { d with world := w }) := by
    change Directing.ofProcess (d.root.update d.env levels) d = _
    rw [Directing.ofProcess, h]
  exact (bind_of_ok (x := d) rfl).trans ((bind_of_ok hrun).trans rfl)

/-- In a tick of the field a root that runs nothing after its turns was free, and it has left no
common event behind that starts by itself or has used its turns up. -/
theorem leaves_of_updateRoot (hd : Manned data d) (hn : AllNested d) (ht : Ticks d d') :
    Ensures updateRoot d fun _ d₁ => d₁.root.isRunning = false →
      d₁.root.calls = [] ∧ d₁.root.frame.isFree d₁.game = true ∧
        (data.automatic? d₁.game = none ∨
          d.rootTurns (data.config.maxIterations.toNat + 1) = d₁.rootTurns 1) := by
  obtain rfl := hd.data
  have hfree : d.root.frame.isFree d.game = true := by
    refine Frame.isFree_iff.2 ⟨ht.read, ?_⟩
    rw [Frame.isHeld, request?_eq_none_iff.1 ht.unasked, ht.field]
    simp
  have hleaves := Interpreter.leaves_of_takeTurns d.env
    (Interpreter.updateFrames d.env (levels - 1)) d.data.config.maxIterations.toNat hd.root.frame
    (hn .root) fun _ => hfree
  simp only [updateRoot, ensures_bind, Directing.ensures_get, ensures_update,
    Directing.ensures_modify]
  intro i w hi hend
  rw [update_root_eq] at hi
  obtain ⟨hcalls, hfree', hlooked⟩ := hleaves i w hi hend
  refine ⟨hcalls, hfree', hlooked.imp_right fun hmore => ?_⟩
  rw [← hcalls] at hmore
  exact hmore

/-! ## What the rest of the tick leaves alone -/

theorem composes_inBattle : Composes Part.isBeside fun d d' =>
    d'.game.troop.isSome = d.game.troop.isSome where
  refl _ := rfl
  trans h h' := h'.trans h
  part p d hp := by
    cases p with
    | update a =>
      simp only [Part.run, updateAgent, ensures_bind, Directing.ensures_get, ensures_update,
        Directing.ensures_modify]
      refine (Interpreter.inBattle_of_update levels _ d.world).imp fun j w hw => ?_
      rw [game, world_withInterpreter]
      exact hw
    | bindCommon | bindPage | dropCommons | dropPages =>
      exact (game_of_quiet rfl d).imp fun _ _ hg => hg ▸ rfl
    | bindTroop | world | teleport | order => cases hp

/-- After the root nothing in a tick of the field concerns it, or whether there is a battle. -/
theorem root_of_fieldTick (hd : Manned data d) : Ensures fieldTick d fun _ d' =>
    ∃ d₁, updateRoot d = .ok ((), d₁) ∧ d'.root = d₁.root ∧
      d'.game.troop.isSome = d₁.game.troop.isSome := by
  refine (composes_undisturbed.and composes_inBattle).fieldTick ?_
  refine ensures_run.imp ?_
  rintro _ d₁ hroot d₂ ⟨h₂, hbattle₂⟩
  have h₂ := h₂ (manned_updateRoot hd _ _ hroot).staffed
  have hworld : Ensures tickWorld d₂ fun _ d₃ =>
      d₃.root = d₂.root ∧ d₃.game.troop = d₂.game.troop := by
    simp only [tickWorld, ensures_bind, Directing.ensures_get, Directing.ensures_act]
    have htick : (tick d₂.data).KeepsStage := within_tick _
    exact (htick d₂.world).imp fun _ w hw => ⟨trivial, hw.troop⟩
  refine Ensures.bind hworld ?_
  rintro - d₃ ⟨hroot₃, hbattle₃⟩
  refine (root_of_carryTeleport d₃).imp ?_
  rintro - d' ⟨hroot', hbattle'⟩
  refine ⟨d₁, hroot, ?_, ?_⟩
  · rw [hroot', hroot₃, h₂.root]
  · rw [hbattle', hbattle₃, hbattle₂]

/-- After a tick of the field no look at the pages is asked for. -/
theorem needRefresh_fieldTick (hd : data.validate = .ok ()) (h : Orderly data d) :
    Ensures fieldTick d fun _ d' => d'.game.field.needRefresh = false := by
  refine ensures_fieldTick fun d₁ h₁ => ?_
  refine Ensures.bind (needRefresh_tickWorld hd (h₁.orderly hd h)) ?_
  rintro - d₂ ⟨h₂, hlook⟩
  exact (settled_teleport hd h₂).imp fun _ d₃ h₃ => h₃.2 hlook

/-! ## What comes next -/

/-- Where nothing runs and nothing waits, the next turn of the root starts the first common event
that starts by itself, if there is one. -/
theorem rootTurns_of_rests (hd : Manned data d) (hrests : d.Rests) (hcalls : d.root.calls = [])
    (hfield : d.game.troop = none) (hlook : d.game.field.needRefresh = false) :
    (data.automatic? d.game = none → ∀ n, d.rootTurns (n + 1) =
      .ok ({ frame := d.root.frame.forgetOwner d.game.field.id }, d.world)) ∧
    ∀ e, data.automatic? d.game = some e → d.rootTurns 1 =
      match d.root.start e.commands 0 d.game.field.id with
      | .ok root => .ok (root, d.world)
      | .error o => .error (.overflow o) := by
  obtain rfl := hd.data
  let f := d.root.frame.forgetOwner d.game.field.id
  have hturns (n : Nat) : d.rootTurns (n + 1) =
      Interpreter.goTurn d.env (Interpreter.updateFrames d.env (levels - 1)) n f d.world := by
    rw [rootTurns, hcalls, Interpreter.takeTurns_nil]
    rfl
  have hfree : f.isFree d.game = true := by
    refine Frame.isFree_iff.2 ⟨hrests.read, ?_⟩
    rw [Frame.isHeld, request?_eq_none_iff.1 hrests.unasked, hfield]
    simp
  have hend : f.isRunning = false := (Frame.isRunning_forgetOwner _ _).trans hrests.ended
  have hturn : f.turn d.env d.world = (match d.data.automatic? d.game with
      | some e => do
        return { frame := ← check (f.start e.commands 0 d.game.field.id), signal := .again }
      | none => return { frame := f, signal := .yield } : Act Turn) d.world :=
    Frame.turn_of_quiet (hd.root.frame.forgetOwner _) hend hfree hlook hrests.unqueued
      (dueEvent?_eq_none_iff.2 hrests.undue)
  refine ⟨fun hnone n => ?_, fun e he => ?_⟩
  · rw [hnone] at hturn
    rw [hturns]
    exact Interpreter.goTurn_of_yield hturn
  · rw [he] at hturn
    rw [hturns, Interpreter.goTurn, hturn, Interpreter.start, ← Frame.start_forgetOwner]
    dsimp only
    cases f.start e.commands 0 d.game.field.id <;> rfl

/-- What it means that a director stops as idle. Nothing runs and nothing waits but, at most, a
common event that starts by itself. In the last tick such an event was left behind by the root only
if it had used up its turns, or if it was switched on after the root. In the next update the root
does nothing if there is none, and starts the first one if there is. -/
theorem idle_of_lead (hd : data.validate = .ok ()) (h : Reachable data random d) {n : Nat}
    (hlead : lead n d = .ok (.idle, d')) :
    d'.Rests ∧
    (∃ d₀ d₁, Reachable data random d₀ ∧ fieldTick d₀ = .ok ((), d') ∧
      updateRoot d₀ = .ok ((), d₁) ∧ d'.root = d₁.root ∧
      (data.automatic? d₁.game = none ∨
        d₀.rootTurns (data.config.maxIterations.toNat + 1) = d₁.rootTurns 1)) ∧
    (data.automatic? d'.game = none → updateRoot d' = .ok ((), { d' with
      root := { frame := d'.root.frame.forgetOwner d'.game.field.id } })) ∧
    ∀ e, data.automatic? d'.game = some e → d'.rootTurns 1 =
      match d'.root.start e.commands 0 d'.game.field.id with
      | .ok root => .ok (root, d'.world)
      | .error o => .error (.overflow o) := by
  obtain ⟨d₀, h₀, hticks, hrests⟩ := ticks_of_lead n h _ _ hlead rfl
  have hmanned := h₀.manned
  have hnested : AllNested d₀ :=
    h₀.leads.keeps (I := AllNested) (fun p _ => allNested_of_part p) (allNested_begin data random)
  have horderly : Orderly data d₀ := h₀.leads.orderly hd (orderly_begin hd random)
  obtain ⟨d₁, hroot, hsame, hbattle⟩ := root_of_fieldTick hmanned _ _ hticks.tick
  obtain ⟨hcalls, hfree, hlooked⟩ := leaves_of_updateRoot hmanned hnested hticks _ _ hroot
    (hsame ▸ hrests.ended)
  have hmanned' : Manned data d' := (h₀.call (c := .tick) hticks.tick).manned
  have hfield : d'.game.troop = none := by
    obtain ⟨-, hheld⟩ := Frame.isFree_iff.1 hfree
    rw [← hsame, Frame.isHeld, hmanned'.root.frame.context] at hheld
    have hbattle₁ : d₁.game.troop.isSome = false := by simpa using (Bool.or_eq_false_iff.1 hheld).2
    simpa using hbattle.trans hbattle₁
  obtain ⟨hnone, hsome⟩ := rootTurns_of_rests hmanned' hrests (hsame ▸ hcalls) hfield
    (needRefresh_fieldTick hd horderly _ _ hticks.tick)
  refine ⟨hrests, ⟨d₀, d₁, h₀, hticks.tick, hroot, hsame, hlooked⟩, fun hauto => ?_, hsome⟩
  have hbudget : d'.env.data.config.maxIterations ≠ 0 := by
    rw [env, hmanned'.data]
    exact Database.maxIterations_ne_zero hd
  obtain ⟨m, hm⟩ := Interpreter.exists_budget hbudget
  have hupdate : d'.root.update d'.env levels d'.world =
      .ok ({ frame := d'.root.frame.forgetOwner d'.game.field.id }, d'.world) := by
    rw [update_root_eq, show d'.data.config.maxIterations.toNat = m + 1 from hm, hnone hauto]
  exact updateRoot_of_ok hupdate

/-- The event on the map turns a switch on, on which the common event starts by itself. -/
def lateSwitch : Database where
  maps := [{ id := 1, events := [{ id := 1, pages := [{
    trigger := .parallel
    commands := [{ code := SharedOp.controlSwitches.code, params := [0, 5, 5, 0] }] }] }] }]
  commonEvents := [{
    id := 1
    trigger := .autoStart
    switchId := 5
    commands := [{ code := SharedOp.wait.code, params := [1] }] }]

/-- The switch is turned on after the root has found nothing to run. The director stops as idle, and
the next turn of the root starts the common event. -/
theorem lateSwitch_idles : lateSwitch.validate = .ok () ∧ ∃ d' e,
    lead 1 (begin lateSwitch default) = .ok (.idle, d') ∧ d'.Rests ∧
    lateSwitch.automatic? d'.game = some e ∧ ∃ root, root.isRunning = true ∧
      root.frame.commands = e.commands ∧ d'.rootTurns 1 = .ok (root, d'.world) := by
  have hvalid : lateSwitch.validate = .ok () := by rfl
  have hrun : ∃ p, lead 1 (begin lateSwitch default) = .ok p ∧ p.1 = .idle ∧
      lateSwitch.automatic? p.2.game = lateSwitch.commonEvents.head? := by
    decide +kernel
  obtain ⟨⟨stop, d'⟩, hlead, rfl, hauto⟩ := hrun
  obtain ⟨hrests, -, -, hnext⟩ := idle_of_lead hvalid ⟨[], rfl⟩ hlead
  exact ⟨hvalid, d', _, hlead, hrests, hauto, _, by rfl, by rfl, hnext _ hauto⟩

end Director

end EventScript
