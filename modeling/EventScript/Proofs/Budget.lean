import EventScript.Proofs.Recursion
import EventScript.Proofs.Steps

/-!
# The budget of an update changes nothing

How many commands one update may run decides when a run is interrupted, and nothing else.

* `turn_withBudget`: no turn depends on the budget.
* `updates_of_halts`: on any budget, updates lead an interpreter along its run to the end, be it an
  end of its commands (`updates_of_steps`) or an overflow (`updates_of_fails`).
* `updates_withBudget`: a run that ends on one budget ends on every other, with the same game and
  the same effects.
-/

namespace EventScript

open Relation

/-- The same surroundings on another budget. -/
def Env.withBudget (env : Env) (n : UInt64) : Env :=
  { env with data := { env.data with config := { env.data.config with maxIterations := n } } }

namespace Commands

variable (env : Env) (n : UInt64)

theorem goOn_withBudget (f : Frame) (k : Awaited) :
    goOn (env.withBudget n) f k = goOn env f k := by
  cases k <;> rfl

theorem performShared_withBudget (f : Frame) (c : Command) (op : SharedOp) :
    performShared (env.withBudget n) f c op = performShared env f c op := by
  cases op <;> rfl

theorem performField_withBudget (f : Frame) (c : Command) (op : FieldOp) :
    performField (env.withBudget n) f c op = performField env f c op := by
  cases op <;> rfl

theorem performBattle_withBudget (f : Frame) (c : Command) (op : BattleOp) :
    performBattle (env.withBudget n) f c op = performBattle env f c op := by
  cases op <;> rfl

theorem perform_withBudget (f : Frame) (c : Command) :
    perform (env.withBudget n) f c = perform env f c := by
  simp only [perform, performShared_withBudget, performField_withBudget, performBattle_withBudget]

end Commands

namespace Frame

variable (env : Env) (n : UInt64)

theorem settle_withBudget (f : Frame) (o : Outcome) :
    f.settle (env.withBudget n) o = f.settle env o := by
  cases o <;> rfl

/-- No turn depends on the budget. -/
theorem turn_withBudget (f : Frame) : f.turn (env.withBudget n) = f.turn env := by
  have hstart (f : Frame) : f.startNext (env.withBudget n) = f.startNext env := rfl
  have hpoll (k : KeyCapture) :
      Commands.pollKeys (env.withBudget n) k = Commands.pollKeys env k := rfl
  have hproceed (f : Frame) : f.proceed (env.withBudget n) = f.proceed env := by
    simp only [proceed, settle_withBudget, hstart, Commands.perform_withBudget,
      Commands.goOn_withBudget]
  simp only [turn, hproceed, hpoll]

end Frame

namespace Interpreter

variable {env : Env} {s s' : Interpreter × World}

theorem steps_withBudget {a : UInt64} (b : UInt64) (h : Steps (env.withBudget a) s s') :
    Steps (env.withBudget b) s s' := by
  induction h with
  | own hrun ht => exact .own hrun (by rwa [Frame.turn_withBudget] at ht ⊢)
  | drop hrun hend => exact .drop hrun hend
  | inner hrun _ ih => exact .inner hrun ih

/-! ## Updates one after the other -/

/-- Updates one after the other, with nothing between them. -/
def updates (env : Env) (levels : Nat) : Nat → Interpreter → Process Interpreter
  | 0, i => return i
  | n + 1, i => do updates env levels n (← i.update env levels)

theorem updates_succ_eq_ok_iff {levels n : Nat} {i : Interpreter} {w : World} :
    updates env levels (n + 1) i w = .ok s' ↔
      ∃ j u, i.update env levels w = .ok (j, u) ∧ updates env levels n j u = .ok s' := by
  change Except.bind (i.update env levels w) (fun p => updates env levels n p.1 p.2) = _ ↔ _
  cases h : i.update env levels w with
  | error e => simp [Except.bind]
  | ok p =>
    constructor
    · intro hp
      exact ⟨p.1, p.2, rfl, hp⟩
    · rintro ⟨j, u, hp, hn⟩
      cases hp
      exact hn

/-- Levels that suffice once suffice always, and more change nothing. -/
theorem updates_eq_of_le {levels levels' n : Nat} (hle : levels ≤ levels') {i : Interpreter}
    {w : World} (hne : updates env levels n i w ≠ .error .nesting) :
    updates env levels' n i w = updates env levels n i w := by
  induction n generalizing i w with
  | zero => rfl
  | succ n ih =>
    have hfirst : i.update env levels w ≠ .error .nesting :=
      fun h => hne (bind_of_error (f := updates env levels n) h)
    have hmono : i.update env levels' w = i.update env levels w :=
      updateFrames_mono hle _ _ _ hfirst
    cases h : i.update env levels w with
    | error e =>
      exact (bind_of_error (f := updates env levels' n) (hmono.trans h)).trans
        (bind_of_error (f := updates env levels n) h).symm
    | ok p =>
      have hrest : updates env levels (n + 1) i w = updates env levels n p.1 p.2 :=
        bind_of_ok (f := updates env levels n) h
      rw [hrest] at hne ⊢
      exact (bind_of_ok (f := updates env levels' n) (hmono.trans h)).trans (ih hne)

theorem updates_mono {levels levels' n : Nat} (hle : levels ≤ levels') {i : Interpreter}
    {w : World} (h : updates env levels n i w = .ok s') : updates env levels' n i w = .ok s' :=
  (updates_eq_of_le hle (by rw [h]; exact nofun)).trans h

variable {mapId : Number}

theorem steps_of_updates (hbudget : env.data.config.maxIterations ≠ 0) {levels n : Nat}
    (hmap : s.2.game.field.id = mapId) (hs : Sound mapId s.1.frame s.1.calls)
    (h : updates env levels n s.1 s.2 = .ok s') : ReflTransGen (Steps env) s s' := by
  induction n generalizing s with
  | zero =>
    cases h
    exact .refl
  | succ n ih =>
    obtain ⟨j, u, hj, hn⟩ := updates_succ_eq_ok_iff.1 h
    have hrun := (carried_updateFrames hbudget levels _ _ _ hmap hs).result _ hj
    obtain ⟨hsound, hmap'⟩ := sound_of_steps hrun hmap hs
    exact hrun.trans (ih hmap' hsound hn)

/-! ## The end of a run -/

/-- An interpreter that takes no more steps has nothing to run, or its innermost frame overflows. -/
def Halts (env : Env) (s : Interpreter × World) : Prop := ∀ u, ¬ Steps env s u

theorem halts_of_ended (hend : s.1.isRunning = false) : Halts env s :=
  fun _ hu => absurd (hend.symm.trans hu.isRunning) Bool.false_ne_true

theorem Fails.halts (h : Fails env s) : Halts env s := fun _ => h.not_steps

theorem Halts.eq_of_steps (hhalt : Halts env s) (h : ReflTransGen (Steps env) s s') : s' = s := by
  rcases h.cases_head with rfl | ⟨u, hu, -⟩
  · rfl
  · exact absurd hu (hhalt u)

theorem acc_of_steps (h : ReflTransGen (Steps env) s s') (hhalt : Halts env s') :
    Acc (fun y x => Steps env x y) s := by
  induction h using ReflTransGen.head_induction_on with
  | refl => exact Acc.intro _ fun y hy => absurd hy (hhalt y)
  | head h _ ih =>
    refine Acc.intro _ fun y hy => ?_
    rwa [steps_unique hy h]

theorem steps_of_halts (hhalt : Halts env s') (h : ReflTransGen (Steps env) s s')
    {u : Interpreter × World} (hu : ReflTransGen (Steps env) s u) :
    ReflTransGen (Steps env) u s' := by
  have hunique : Relator.RightUnique (Steps env) := fun _ _ _ h h' => steps_unique h h'
  rcases ReflTransGen.total_of_right_unique hunique h hu with hback | hon
  · rw [hhalt.eq_of_steps hback]
  · exact hon

/-- On any budget, updates lead an interpreter along its run to the end, if the run has one. There
nothing is left to run, or the updates end in an overflow. -/
theorem updates_of_halts (hbudget : env.data.config.maxIterations ≠ 0)
    (hmap : s.2.game.field.id = mapId) (hs : Sound mapId s.1.frame s.1.calls)
    (hhalt : Halts env s') (h : ReflTransGen (Steps env) s s') : ∃ levels n,
      s'.1.isRunning = false ∧ updates env levels (n + 1) s.1 s.2 = .ok s' ∨
      Fails env s' ∧ ∃ o, updates env levels (n + 1) s.1 s.2 = .error (.overflow o) := by
  induction (acc_of_steps h hhalt).transGen with
  | intro s _ ih =>
    obtain ⟨r, hne, hr⟩ := update_halts env s.1 s.2
    have hcarried := carried_updateFrames hbudget (s.1.calls.length + UInt32.size) _ _ _ hmap hs
    have hupdate : s.1.update env (s.1.calls.length + UInt32.size) s.2 = r := hr _ (Nat.le_refl _)
    rw [show updateFrames env _ s.1.frame s.1.calls s.2 = r from hupdate] at hcarried
    cases r with
    | error e =>
      cases e with
      | nesting => exact absurd rfl hne
      | overflow o =>
        -- the overflow stands on the run, which cannot go on from there
        obtain ⟨u, hu, hfails⟩ := hcarried.overflow o rfl
        obtain rfl := hfails.halts.eq_of_steps (steps_of_halts hhalt h hu)
        exact ⟨_, 0, .inr ⟨hfails, o, bind_of_error (f := updates env _ 0) hupdate⟩⟩
    | ok u =>
      have hu := hcarried.result u rfl
      have hon := steps_of_halts hhalt h hu
      cases hrun : s.1.isRunning with
      | false =>
        obtain rfl := (halts_of_ended hrun).eq_of_steps h
        obtain rfl := (halts_of_ended hrun).eq_of_steps hu
        exact ⟨_, 0, .inl ⟨hrun, updates_succ_eq_ok_iff.2 ⟨u.1, u.2, hupdate, rfl⟩⟩⟩
      | true =>
        obtain ⟨hsound, hmap'⟩ := sound_of_steps hu hmap hs
        obtain ⟨levels, n, hn⟩ :=
          ih u (transGen_swap.2 (hcarried.progress u rfl hrun)) hmap' hsound hon
        have hfirst := (hr (max levels (s.1.calls.length + UInt32.size)) (Nat.le_max_right _ _))
        have hrest : updates env levels (n + 1) u.1 u.2 ≠ .error .nesting := by
          rcases hn with ⟨-, hn⟩ | ⟨-, o, hn⟩ <;> rw [hn] <;> exact nofun
        have hsame : updates env (max levels (s.1.calls.length + UInt32.size)) (n + 2) s.1 s.2 =
            updates env levels (n + 1) u.1 u.2 :=
          (bind_of_ok (f := updates env _ (n + 1)) hfirst).trans
            (updates_eq_of_le (Nat.le_max_left _ _) hrest)
        exact ⟨_, n + 1, hsame ▸ hn⟩

/-- Where nothing is left to run in the end, some updates lead there. -/
theorem updates_of_steps (hbudget : env.data.config.maxIterations ≠ 0)
    (hmap : s.2.game.field.id = mapId) (hs : Sound mapId s.1.frame s.1.calls)
    (hend : s'.1.isRunning = false) (h : ReflTransGen (Steps env) s s') :
    ∃ levels n, updates env levels (n + 1) s.1 s.2 = .ok s' := by
  obtain ⟨levels, n, ⟨-, hn⟩ | ⟨hfails, -⟩⟩ :=
    updates_of_halts hbudget hmap hs (halts_of_ended hend) h
  · exact ⟨levels, n, hn⟩
  · exact absurd (hend.symm.trans hfails.isRunning) Bool.false_ne_true

/-- Where the run comes to an overflow, some updates end in one. -/
theorem updates_of_fails (hbudget : env.data.config.maxIterations ≠ 0)
    (hmap : s.2.game.field.id = mapId) (hs : Sound mapId s.1.frame s.1.calls)
    (hfails : Fails env s') (h : ReflTransGen (Steps env) s s') :
    ∃ levels n o, updates env levels (n + 1) s.1 s.2 = .error (.overflow o) := by
  obtain ⟨levels, n, ⟨hend, -⟩ | ⟨-, o, hn⟩⟩ := updates_of_halts hbudget hmap hs hfails.halts h
  · exact absurd (hend.symm.trans hfails.isRunning) Bool.false_ne_true
  · exact ⟨levels, n, o, hn⟩

/-! ## Two budgets -/

/-- The first update forgets an owner on another map, whatever the budget. -/
theorem updates_forgetOwner (hbudget : env.data.config.maxIterations ≠ 0) (levels n : Nat)
    (f : Frame) (w : World) :
    updates env levels (n + 1) { frame := f.forgetOwner w.game.field.id } w =
      updates env levels (n + 1) { frame := f } w := by
  have hsame : ({ frame := f.forgetOwner w.game.field.id } : Interpreter).update env levels w =
      ({ frame := f } : Interpreter).update env levels w :=
    updateFrames_forgetOwner hbudget levels f [] w
  change Except.bind _ _ = Except.bind _ _
  rw [hsame]

/-- What a started list of commands does does not depend on the budget of an update. If some updates
on one budget run it to its end, then some updates on any other run it to the same end, with the
same game, the same effects and the same warnings. -/
theorem updates_withBudget (env : Env) {a b : UInt64} (ha : a ≠ 0) (hb : b ≠ 0)
    {context : Context} {depth : UInt32} {commands : List Command} {owner mapId : Number}
    {i i' : Interpreter} (hstart : (idle context depth false).start commands owner mapId = .ok i)
    {levels n : Nat} {w w' : World}
    (hrun : updates (env.withBudget a) levels n i w = .ok (i', w'))
    (hend : i'.isRunning = false) :
    ∃ levels n, updates (env.withBudget b) levels n i w = .ok (i', w') := by
  cases n with
  | zero =>
    cases hrun
    exact ⟨0, 0, rfl⟩
  | succ n =>
    obtain ⟨f, rfl, hf⟩ := startedAs_of_start hstart
    have hplaced : (f.forgetOwner w.game.field.id).Placed w.game.field.id := by
      refine ⟨?_, Frame.forgetOwner_idem f _, fun _ => .inl ?_⟩ <;>
        unfold Frame.forgetOwner <;> split
      · exact hf.isRoot
      · exact hf.isRoot
      · exact hf.pause
      · exact hf.pause
    rw [← updates_forgetOwner (by exact ha)] at hrun
    have hsteps := steps_of_updates (s := ({ frame := f.forgetOwner w.game.field.id }, w))
      (by exact ha) rfl hplaced hrun
    have hsteps' : ReflTransGen (Steps (env.withBudget b))
        ({ frame := f.forgetOwner w.game.field.id }, w) (i', w') :=
      ReflTransGen.mono (fun _ _ => steps_withBudget b) _ _ hsteps
    obtain ⟨levels', n', hn'⟩ := updates_of_steps
      (s := ({ frame := f.forgetOwner w.game.field.id }, w)) (by exact hb) rfl hplaced hend hsteps'
    rw [updates_forgetOwner (by exact hb)] at hn'
    exact ⟨levels', n' + 1, hn'⟩

/-- Calls the common event 2, waits and turns a switch on. -/
def callAndWait : List Command := [
  { code := FieldOp.callEvent.code, params := [0, 2] },
  { code := SharedOp.wait.code, params := [0] },
  { code := SharedOp.controlSwitches.code, params := [0, 1, 1, 0] }]

/-- A database in which the common event 2 plays a sound. -/
def doorbell : Database where
  commonEvents := [{ id := 2, commands := [{ code := SharedOp.playSound.code, text := "door" }] }]

theorem callAndWait_ends_on_five : ∃ i i' w' levels n,
    (idle .field 0 false).start callAndWait 0 1 = .ok i ∧
    updates (Env.withBudget ⟨doorbell, {}⟩ 5) levels n i { game := Game.begin doorbell default } =
      .ok (i', w') ∧ w'.game.switches.get 1 = true ∧ w'.effects.size = 1 := by
  let i : Interpreter := { frame := { Frame.idle .field 0 false with
    commands := callAndWait, jumps := { places := [none, none, none] }, mapId := 1 } }
  have hstart : (idle .field 0 false).start callAndWait 0 1 = .ok i := rfl
  have hone : (match updates (Env.withBudget ⟨doorbell, {}⟩ 1) 3 6 i
      { game := Game.begin doorbell default } with
    | .ok (i', w') => !i'.isRunning && w'.game.switches.get 1 && w'.effects.size == 1
    | .error _ => false) = true := by decide +kernel
  split at hone
  · next i' w' hrun =>
    simp only [Bool.and_eq_true, Bool.not_eq_true', beq_iff_eq] at hone
    obtain ⟨⟨hend, hswitch⟩, heffects⟩ := hone
    obtain ⟨levels, n, hn⟩ := updates_withBudget ⟨doorbell, {}⟩ (a := 1) (b := 5) (by decide)
      (by decide) hstart hrun hend
    exact ⟨i, i', w', levels, n, hstart, hn, hswitch, heffects⟩
  · cases hone

end Interpreter

end EventScript
