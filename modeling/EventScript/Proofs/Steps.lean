import EventScript.Proofs.Levels
import EventScript.Proofs.TurnDeeds
import Mathlib.Logic.Relation

/-!
# An update as a run of steps

The budgets cut the run of an interpreter into updates. What is cut is always the same run.

* `Interpreter.Steps` is one step of the run: a turn of the innermost frame, or an event that has
  run out of commands is dropped. There is at most one next step (`steps_unique`).
* `carried_updateFrames`: an update follows the run, and takes a step where the interpreter is
  running.
-/

namespace EventScript

open Act Relation

namespace Frame

/-- A frame that does not look for events by itself, whose owner is on the map with an id, and that
has nothing left to wait for when it has run out of commands. -/
structure Placed (mapId : Number) (f : Frame) : Prop where
  isRoot : f.isRoot = false
  owner : f.forgetOwner mapId = f
  ended : f.isRunning = false → f.pause = .ready ∨ f.pause = .animation

theorem forgetOwner_of_same {f f' : Frame} {mapId : Number} (h : f.forgetOwner mapId = f)
    (hmap : f'.mapId = f.mapId) (howner : f'.owner = f.owner) : f'.forgetOwner mapId = f' := by
  unfold forgetOwner at h ⊢
  split
  · rfl
  · next hne =>
    rw [if_neg (by rwa [← hmap])] at h
    have howner₀ : f'.owner = 0 := by rw [howner, ← h]
    cases f'
    simp only at howner₀
    rw [howner₀]

theorem CalledBy.placed {f c : Frame} {commands : List Command} {mapId : Number}
    (h : f.CalledBy c commands mapId) : c.Placed mapId :=
  ⟨h.isRoot, by rw [forgetOwner, if_pos h.mapId], fun _ => .inl h.pause⟩

/-- A frame that has run out of commands hands over every turn and stays as it is. -/
theorem turn_of_ended {env : Env} {f : Frame} {mapId : Number} (hf : f.Placed mapId)
    (hend : f.isRunning = false) (w : World) :
    f.turn env w = .ok ({ frame := f, signal := .yield }, w) := by
  have hnil : f.commands = [] := by simpa [isRunning] using hend
  have hproceed : f.proceed env w = .ok ({ frame := f, signal := .yield }, w) := by
    rw [proceed, getGame_bind]
    split
    · rfl
    · rcases hf.ended hend with hp | hp <;> simp [hp, hnil, hend, hf.isRoot] <;> rfl
  rw [turn, getGame_bind]
  split
  · rfl
  · rcases hf.ended hend with hp | hp <;> simp only [hp] <;> exact hproceed

theorem Turned.placed {env : Env} {f : Frame} {t : Turn} {w' : World} {mapId : Number}
    (h : f.Turned env t w') (hf : f.Placed mapId) (hrun : f.isRunning = true) :
    t.frame.Placed mapId :=
  ⟨h.isRoot.trans hf.isRoot, forgetOwner_of_same hf.owner (h.place hf.isRoot).1
    (h.place hf.isRoot).2, h.ended hrun⟩

end Frame

namespace Interpreter

/-- A frame with its events, of which every one but the last has commands left. -/
def Sound (mapId : Number) : Frame → List Frame → Prop
  | f, [] => f.Placed mapId
  | f, c :: cs => f.Placed mapId ∧ f.isRunning = true ∧ Sound mapId c cs

/-- One step of a run. -/
inductive Steps (env : Env) : Interpreter × World → Interpreter × World → Prop
  | own {f : Frame} {w w' : World} {t : Turn} (hrun : f.isRunning = true)
      (ht : f.turn env w = .ok (t, w')) :
      Steps env ({ frame := f }, w) ({ frame := t.frame, calls := t.called.toList }, w')
  | drop {f c : Frame} {w : World} (hrun : f.isRunning = true) (hend : c.isRunning = false) :
      Steps env ({ frame := f, calls := [c] }, w) ({ frame := f }, w)
  | inner {f c : Frame} {cs : List Frame} {i : Interpreter} {w w' : World}
      (hrun : f.isRunning = true) (h : Steps env ({ frame := c, calls := cs }, w) (i, w')) :
      Steps env ({ frame := f, calls := c :: cs }, w) ({ frame := f, calls := i.frames }, w')

/-- The innermost frame overflows in its turn. -/
inductive Fails (env : Env) : Interpreter × World → Prop
  | own {f : Frame} {w : World} {o : Overflow} (hrun : f.isRunning = true)
      (ht : f.turn env w = .error o) : Fails env ({ frame := f }, w)
  | inner {f c : Frame} {cs : List Frame} {w : World} (hrun : f.isRunning = true)
      (h : Fails env ({ frame := c, calls := cs }, w)) :
      Fails env ({ frame := f, calls := c :: cs }, w)

variable {env : Env} {s s' s'' : Interpreter × World}

theorem Steps.isRunning (h : Steps env s s') : s.1.isRunning = true := by
  cases h with
  | own hrun => exact hrun
  | drop hrun => exact hrun
  | inner hrun => exact hrun

theorem Fails.isRunning (h : Fails env s) : s.1.isRunning = true := by
  cases h with
  | own hrun => exact hrun
  | inner hrun => exact hrun

/-- There is at most one next step. -/
theorem steps_unique (h : Steps env s s') (h' : Steps env s s'') : s' = s'' := by
  induction h generalizing s'' with
  | own hrun ht =>
    cases h' with
    | own hrun' ht' =>
      rw [ht] at ht'
      cases ht'
      rfl
  | drop hrun hend =>
    cases h' with
    | drop => rfl
    | inner hrun' h' => exact absurd (hend.symm.trans h'.isRunning) Bool.false_ne_true
  | inner hrun h ih =>
    cases h' with
    | drop hrun' hend => exact absurd (hend.symm.trans h.isRunning) Bool.false_ne_true
    | inner hrun' h' =>
      cases ih h'
      rfl

theorem Fails.not_steps (h : Fails env s) : ¬ Steps env s s' := by
  intro hs
  induction h generalizing s' with
  | own hrun ht =>
    cases hs with
    | own hrun' ht' => rw [ht] at ht'; cases ht'
  | inner hrun h ih =>
    cases hs with
    | drop hrun' hend => exact absurd (hend.symm.trans h.isRunning) Bool.false_ne_true
    | inner hrun' hs => exact ih hs

/-! ## Runs -/

theorem Sound.placed {mapId : Number} {f : Frame} {calls : List Frame} (h : Sound mapId f calls) :
    f.Placed mapId := by
  cases calls with
  | nil => exact h
  | cons c cs => exact h.1

theorem Steps.sound {mapId : Number} (h : Steps env s s') (hmap : s.2.game.field.id = mapId)
    (hs : Sound mapId s.1.frame s.1.calls) :
    Sound mapId s'.1.frame s'.1.calls ∧ s'.2.game.field.id = mapId := by
  induction h with
  | @own f w w' t hrun ht =>
    obtain ⟨hturned, -⟩ := Frame.turned_of_turn env f w t w' ht
    have hmap' : w'.game.field.id = mapId := (Frame.place_of_turn env f w t w' ht).1.trans hmap
    have hplaced := hturned.placed hs.placed hrun
    refine ⟨?_, hmap'⟩
    cases hc : t.called with
    | none => exact hplaced
    | some c =>
      obtain ⟨hsame, _, _, _, _, hby⟩ := hturned.called c hc
      have hrun' : t.frame.isRunning = true := by
        rwa [Frame.isRunning, hsame]
      exact ⟨hplaced, hrun', (hmap' ▸ hby.placed : c.Placed mapId)⟩
  | drop hrun hend => exact ⟨hs.1, hmap⟩
  | inner hrun h ih =>
    obtain ⟨hsound, hmap'⟩ := ih hmap hs.2.2
    exact ⟨⟨hs.1, hrun, hsound⟩, hmap'⟩

theorem sound_of_steps {mapId : Number} (h : ReflTransGen (Steps env) s s')
    (hmap : s.2.game.field.id = mapId) (hs : Sound mapId s.1.frame s.1.calls) :
    Sound mapId s'.1.frame s'.1.calls ∧ s'.2.game.field.id = mapId := by
  induction h with
  | refl => exact ⟨hs, hmap⟩
  | tail _ h ih => exact h.sound ih.2 ih.1

/-- The events of a frame run as they would alone. -/
theorem steps_inner {f c : Frame} {cs : List Frame} {w : World} (hrun : f.isRunning = true)
    (h : ReflTransGen (Steps env) ({ frame := c, calls := cs }, w) s') :
    ReflTransGen (Steps env) ({ frame := f, calls := c :: cs }, w)
      ({ frame := f, calls := s'.1.frames }, s'.2) := by
  induction h with
  | refl => exact .refl
  | tail _ h ih => exact ih.tail (.inner hrun h)

theorem steps_inner_strict {f c : Frame} {cs : List Frame} {w : World} (hrun : f.isRunning = true)
    (h : TransGen (Steps env) ({ frame := c, calls := cs }, w) s') :
    TransGen (Steps env) ({ frame := f, calls := c :: cs }, w)
      ({ frame := f, calls := s'.1.frames }, s'.2) := by
  induction h with
  | single h => exact .single (.inner hrun h)
  | tail _ h ih => exact ih.tail (.inner hrun h)

theorem eq_of_steps_of_ended (hend : s.1.isRunning = false)
    (h : ReflTransGen (Steps env) s s') : s' = s := by
  rcases h.cases_head with rfl | ⟨u, hu, -⟩
  · rfl
  · exact absurd (hend.symm.trans hu.isRunning) Bool.false_ne_true

/-! ## An update follows the run -/

/-- A result that the run reaches; an overflow is one of the innermost frame at some point of the
run. -/
structure Follows (env : Env) (s : Interpreter × World)
    (x : Except Fault (Interpreter × World)) : Prop where
  result : ∀ s', x = .ok s' → ReflTransGen (Steps env) s s'
  overflow : ∀ o, x = .error (.overflow o) → ∃ s', ReflTransGen (Steps env) s s' ∧ Fails env s'

/-- A result that the run reaches after a step at least, where the interpreter is running. -/
structure Carried (env : Env) (s : Interpreter × World)
    (x : Except Fault (Interpreter × World)) : Prop extends Follows env s x where
  progress : ∀ s', x = .ok s' → s.1.isRunning = true → TransGen (Steps env) s s'

theorem Follows.head {x : Except Fault (Interpreter × World)} (h : ReflTransGen (Steps env) s s')
    (hx : Follows env s' x) : Follows env s x where
  result s'' hs'' := h.trans (hx.result s'' hs'')
  overflow o ho := by
    obtain ⟨u, hu, hfails⟩ := hx.overflow o ho
    exact ⟨u, h.trans hu, hfails⟩

theorem Follows.carried {x : Except Fault (Interpreter × World)} (h : TransGen (Steps env) s s')
    (hx : Follows env s' x) : Carried env s x where
  toFollows := hx.head h.to_reflTransGen
  progress s'' hs'' _ := h.trans_left (hx.result s'' hs'')

theorem follows_ok : Follows env s (.ok s) where
  result s' h := by
    rw [Except.ok.inj h]
  overflow o h := by cases h

theorem carried_error {e : Fault}
    (h : ∀ o, e = .overflow o → ∃ s', ReflTransGen (Steps env) s s' ∧ Fails env s') :
    Carried env s (.error e) where
  result s' hs' := by cases hs'
  overflow o ho := h o (Except.error.inj ho)
  progress s' hs' := by cases hs'

variable {mapId : Number} {inner : Frame → List Frame → Process Interpreter}

theorem carried_goTurn {n : Nat}
    (ih : ∀ f calls (w : World), w.game.field.id = mapId → Sound mapId f calls →
      Follows env ({ frame := f, calls }, w) (takeTurns env inner n f calls w))
    {f : Frame} {w : World} (hmap : w.game.field.id = mapId) (hf : f.Placed mapId) :
    Carried env ({ frame := f }, w) (goTurn env inner n f w) := by
  unfold goTurn
  cases hrun : f.isRunning with
  | false =>
    rw [Frame.turn_of_ended hf hrun]
    refine ⟨follows_ok, fun _ _ h => ?_⟩
    exact absurd (hrun.symm.trans h) Bool.false_ne_true
  | true =>
    cases ht : f.turn env w with
    | error o => exact carried_error fun _ _ => ⟨_, .refl, .own hrun ht⟩
    | ok p =>
      obtain ⟨t, w'⟩ := p
      have hstep : Steps env ({ frame := f }, w)
          ({ frame := t.frame, calls := t.called.toList }, w') := .own hrun ht
      cases hs : t.signal with
      | yield =>
        simp only [hs]
        exact follows_ok.carried (.single hstep)
      | again =>
        simp only [hs]
        obtain ⟨hsound, hmap'⟩ := hstep.sound hmap hf
        exact (ih _ _ _ hmap' hsound).carried (.single hstep)

theorem carried_takeTurns_succ
    (hinner : ∀ c cs (w : World), w.game.field.id = mapId → Sound mapId c cs →
      Carried env ({ frame := c, calls := cs }, w) (inner c cs w)) {n : Nat}
    (ih : ∀ f calls (w : World), w.game.field.id = mapId → Sound mapId f calls →
      Follows env ({ frame := f, calls }, w) (takeTurns env inner n f calls w))
    {f : Frame} {calls : List Frame} {w : World} (hmap : w.game.field.id = mapId)
    (hs : Sound mapId f calls) :
    Carried env ({ frame := f, calls }, w) (takeTurns env inner (n + 1) f calls w) := by
  cases calls with
  | nil =>
    rw [takeTurns_nil, hmap, hs.placed.owner]
    exact carried_goTurn ih hmap hs
  | cons c cs =>
    obtain ⟨hf, hrun, hcs⟩ := hs
    have hcarried := hinner c cs w hmap hcs
    rw [takeTurns_cons, hmap, hf.owner]
    cases h : inner c cs w with
    | error e =>
      refine carried_error fun o ho => ?_
      cases ho
      obtain ⟨⟨i, u⟩, hu, hfails⟩ := hcarried.overflow o h
      exact ⟨_, steps_inner hrun hu, .inner hrun hfails⟩
    | ok p =>
      obtain ⟨called, w'⟩ := p
      have hruns := hcarried.result _ h
      obtain ⟨hsound, hmap'⟩ := sound_of_steps hruns hmap hcs
      cases hrun' : called.isRunning with
      | true =>
        simp only [hrun', if_true]
        have hstrict : TransGen (Steps env) ({ frame := c, calls := cs }, w) (called, w') := by
          refine hcarried.progress _ h ?_
          cases hc : c.isRunning with
          | true => exact hc
          | false =>
            have hsame : called.isRunning = c.isRunning :=
              congrArg (·.1.isRunning) (eq_of_steps_of_ended (by exact hc) hruns)
            exact hsame.symm.trans hrun'
        exact follows_ok.carried (steps_inner_strict hrun hstrict)
      | false =>
        simp only [hrun', Bool.false_eq_true, if_false]
        have hlast : called.calls = [] := by
          cases hcalls : called.calls with
          | nil => rfl
          | cons x xs =>
            rw [hcalls] at hsound
            exact absurd (hrun'.symm.trans hsound.2.1) Bool.false_ne_true
        have hdrop : TransGen (Steps env) ({ frame := f, calls := c :: cs }, w)
            ({ frame := f }, w') := by
          refine TransGen.tail' (steps_inner hrun hruns) ?_
          rw [frames, hlast]
          exact .drop hrun hrun'
        have hgo := carried_goTurn (f := f) ih hmap' hf
        exact hgo.toFollows.carried hdrop

theorem follows_takeTurns
    (hinner : ∀ c cs (w : World), w.game.field.id = mapId → Sound mapId c cs →
      Carried env ({ frame := c, calls := cs }, w) (inner c cs w)) (n : Nat)
    (f : Frame) (calls : List Frame) (w : World) (hmap : w.game.field.id = mapId)
    (hs : Sound mapId f calls) :
    Follows env ({ frame := f, calls }, w) (takeTurns env inner n f calls w) := by
  induction n generalizing f calls w with
  | zero => exact follows_ok
  | succ n ih =>
    exact (carried_takeTurns_succ hinner ih hmap hs).toFollows

/-- An update follows the run, and on a budget of a command at least it takes a step. -/
theorem carried_updateFrames (hbudget : env.data.config.maxIterations ≠ 0) (levels : Nat)
    (f : Frame) (calls : List Frame) (w : World) (hmap : w.game.field.id = mapId)
    (hs : Sound mapId f calls) :
    Carried env ({ frame := f, calls }, w) (updateFrames env levels f calls w) := by
  induction levels generalizing f calls w with
  | zero => exact carried_error fun _ h => by cases h
  | succ levels ih =>
    obtain ⟨n, hn⟩ : ∃ n, env.data.config.maxIterations.toNat = n + 1 :=
      Nat.exists_eq_succ_of_ne_zero fun h => hbudget (UInt64.toNat_inj.1 h)
    rw [updateFrames, hn]
    exact carried_takeTurns_succ ih (fun f calls w => follows_takeTurns ih n f calls w) hmap hs

end Interpreter

end EventScript
