import EventScript.Proofs.Updates
import Mathlib.Data.List.Forall2
import Mathlib.Data.List.TakeWhile

/-!
# Updates of what is held up

While the message window waits, or a scene or a battle holds every frame up, an update runs no
command, whatever the frames of the interpreter wait for.

* `Interpreter.swept` is what an update takes away in any case: owners of another map, and called
  events that have run out of commands.
* `update_of_waiting`: while the window waits, nothing else happens at all.
* `Interpreter.looked` lists the key captures that an update looks at, and `KeyCapture.Overruns`
  says when a look fails.
* `HeldUpdate` is what happens in an update of frames that are all held up: they stand where they
  stood, and the captures that are looked at write what they caught.
-/

namespace EventScript

open Act

/-! ## Key captures -/

namespace KeyCapture

variable {env : Env} {k : KeyCapture} {w : World}

/-- The key that ends the capture at the next look. The first look never counts. -/
def caught? (env : Env) (k : KeyCapture) : Option Key :=
  if k.polls = 0 then none else k.keys.find? fun key => env.host.triggered.contains key

/-- The time that the capture took, in tenths of a second. -/
def tenths (env : Env) (k : KeyCapture) : Number :=
  (k.polls * 10 / max env.data.config.fps 1).toInt32

/-- The game after the next look at the keys: a key that is caught is written to the variable of the
capture, and the time to the variable for it. -/
def look (env : Env) (k : KeyCapture) (g : Game) : Game :=
  match k.caught? env with
  | none => g
  | some key =>
    let vars := g.vars.set k.target key.code
    { g with
      vars := match k.timeTarget with
        | none => vars
        | some target => vars.set target (k.tenths env)
      field := { g.field with needRefresh := true } }

/-- The next look fails: it cannot be counted, or it catches a key and ten times the looks before do
not fit, from which the time is computed that it is to note. -/
def Overruns (env : Env) (k : KeyCapture) : Prop :=
  k.polls.toNat + 1 = UInt32.size ∨
    (k.caught? env).isSome = true ∧ k.timeTarget.isSome = true ∧ UInt32.size ≤ k.polls.toNat * 10

/-- What a look leaves of the stage on which events run. -/
theorem look_stage (env : Env) (k : KeyCapture) (g : Game) :
    ((k.look env g).field.id, (k.look env g).message, (k.look env g).scene,
      (k.look env g).troop) = (g.field.id, g.message, g.scene, g.troop) := by
  unfold look
  split <;> rfl

/-- The next look can be counted unless it is one too many. -/
theorem add_polls (k : KeyCapture) : (k.polls.toNat + 1 = UInt32.size ∧
      ∃ o, Checked.add k.polls 1 = .error o) ∨
    k.polls.toNat + 1 ≠ UInt32.size ∧ Checked.add k.polls 1 = .ok (k.polls + 1) := by
  have hsum : (k.polls + 1).toNat = (k.polls.toNat + 1) % 2 ^ 32 := UInt32.toNat_add k.polls 1
  have hlt := k.polls.toNat_lt
  rw [UInt32.size]
  cases h : Checked.add k.polls 1 with
  | ok p =>
    have hp := Frame.toNat_of_add_one h
    have := p.toNat_lt
    exact .inr ⟨by omega, congrArg _ (UInt32.toNat_inj.1 (by omega))⟩
  | error o =>
    refine .inl ⟨by_contra fun hne => ?_, o, rfl⟩
    have hok : Checked.add k.polls 1 = .ok (k.polls + 1) := Checked.fit_eq_ok_iff.2 <| by
      change ((k.polls + 1).toNat : Int) = (k.polls.toNat : Int) + 1
      omega
    cases h.symm.trans hok

/-- The time can be counted unless it does not fit. -/
theorem mul_polls (k : KeyCapture) : (UInt32.size ≤ k.polls.toNat * 10 ∧
      ∃ o, Checked.mul k.polls 10 = .error o) ∨
    ¬ UInt32.size ≤ k.polls.toNat * 10 ∧ Checked.mul k.polls 10 = .ok (k.polls * 10) := by
  have hproduct : (k.polls * 10).toNat = k.polls.toNat * 10 % 2 ^ 32 := UInt32.toNat_mul k.polls 10
  rw [UInt32.size]
  cases h : Checked.mul k.polls 10 with
  | ok p =>
    have hp : (p.toNat : Int) = (k.polls.toNat : Int) * 10 := Checked.fit_eq_ok_iff.1 h
    have := p.toNat_lt
    exact .inr ⟨by omega, congrArg _ (UInt32.toNat_inj.1 (by omega))⟩
  | error o =>
    refine .inl ⟨Nat.le_of_not_lt fun hlt => ?_, o, rfl⟩
    have hok : Checked.mul k.polls 10 = .ok (k.polls * 10) := Checked.fit_eq_ok_iff.2 <| by
      change ((k.polls * 10).toNat : Int) = (k.polls.toNat : Int) * 10
      omega
    cases h.symm.trans hok

end KeyCapture

namespace Act

variable {w : World}

theorem setVariable_eq (id value : Number) (w : World) : ∃ u,
    setVariable id value w = .ok ((), u) ∧
      u.game = { w.game with vars := w.game.vars.set id value } ∧ u.effects = w.effects := by
  unfold setVariable
  split
  · exact ⟨_, rfl, rfl, rfl⟩
  · exact ⟨_, rfl, rfl, rfl⟩

end Act

namespace Commands

/-- A look at the keys of a capture fails or has a result. -/
theorem pollKeys_eq (env : Env) (k : KeyCapture) (w : World) :
    (k.Overruns env ∧ ∃ o, pollKeys env k w = .error o) ∨ ¬ k.Overruns env ∧ ∃ u, pollKeys env k w =
      .ok (if (k.caught? env).isSome then none else some { k with polls := k.polls + 1 }, u) ∧
        u.game = k.look env w.game ∧ u.effects = w.effects := by
  unfold pollKeys KeyCapture.Overruns
  obtain ⟨hlast, o, hadd⟩ | ⟨hcounted, hadd⟩ := k.add_polls
  · rw [hadd]
    exact .inl ⟨.inl hlast, o, rfl⟩
  rw [bind_of_ok (show check (Checked.add k.polls 1) w = .ok (k.polls + 1, w) by rw [hadd]; rfl)]
  have hfirst : k.polls + 1 = 1 ↔ k.polls = 0 := by simp
  simp only [hfirst, hcounted, false_or, KeyCapture.look, KeyCapture.caught?,
    UInt32.add_sub_cancel]
  split
  · exact .inr ⟨by simp, w, rfl, rfl, rfl⟩
  cases k.keys.find? fun key => env.host.triggered.contains key with
  | none => exact .inr ⟨by simp, w, rfl, rfl, rfl⟩
  | some key =>
    obtain ⟨v, hv, hgame, heffects⟩ := setVariable_eq k.target key.code w
    cases k.timeTarget with
    | none => exact .inr ⟨by simp, _, (bind_of_ok hv).trans rfl, by simp [hgame], heffects⟩
    | some target =>
      obtain ⟨hover, o, hmul⟩ | ⟨hfits, hmul⟩ := k.mul_polls
      · rw [hmul]
        exact .inl ⟨⟨rfl, rfl, hover⟩, o, (bind_of_ok hv).trans rfl⟩
      · obtain ⟨u, hu, hgame', heffects'⟩ := setVariable_eq target (k.tenths env) v
        have hten : check (Checked.mul k.polls 10) v = .ok (k.polls * 10, v) := by
          rw [hmul]
          rfl
        refine .inr ⟨fun h => hfits h.2.2, _,
          (bind_of_ok hv).trans ((bind_of_ok hten).trans ((bind_of_ok hu).trans rfl)), ?_, ?_⟩
        · simp [hgame', hgame]
        · exact heffects'.trans heffects

end Commands

/-! ## Turns of a frame that is held up -/

namespace Frame

variable {env : Env} {f f' : Frame} {w : World}

/-- The key capture that the frame waits for. -/
def capture? (f : Frame) : Option KeyCapture :=
  match f.pause with
  | .keys k => some k
  | _ => none

/-- The same frame in the same place, which waits for the same answer if it waited for one. -/
structure StandsAs (f f' : Frame) : Prop where
  same : f' = { f with pause := f'.pause }
  goOn : ∀ k, f'.pause = .goOn k ↔ f.pause = .goOn k

theorem StandsAs.refl (f : Frame) : f.StandsAs f := ⟨rfl, fun _ => .rfl⟩

theorem StandsAs.isRunning (h : f.StandsAs f') : f'.isRunning = f.isRunning := by
  rw [h.same]
  rfl

@[simp] theorem pause_forgetOwner (f : Frame) (mapId : Number) :
    (f.forgetOwner mapId).pause = f.pause := by
  unfold forgetOwner
  split <;> rfl

@[simp] theorem capture?_forgetOwner (f : Frame) (mapId : Number) :
    (f.forgetOwner mapId).capture? = f.capture? := by
  rw [capture?, pause_forgetOwner, capture?]

@[simp] theorem isRunning_forgetOwner (f : Frame) (mapId : Number) :
    (f.forgetOwner mapId).isRunning = f.isRunning := by
  unfold forgetOwner
  split <;> rfl

@[simp] theorem isHeld_forgetOwner (f : Frame) (mapId : Number) (g : Game) :
    (f.forgetOwner mapId).isHeld g = f.isHeld g := by
  unfold forgetOwner
  split <;> rfl

theorem turn_of_waiting (h : w.game.message.waiting = true) :
    f.turn env w = .ok ({ frame := f, signal := .yield }, w) := by
  rw [turn, getGame_bind, if_pos h]
  rfl

theorem proceed_of_isHeld (h : f.isHeld w.game = true) :
    f.proceed env w = .ok ({ frame := f, signal := .yield }, w) := by
  unfold isHeld at h
  rw [proceed, getGame_bind, if_pos h]
  rfl

/-- In a turn a frame that is held up stands where it stood, and only a key capture does
anything. -/
theorem turn_of_isHeld (env : Env) (hread : w.game.message.waiting = false)
    (hheld : f.isHeld w.game = true) :
    (∃ k ∈ f.capture?, k.Overruns env) ∧ (∃ o, f.turn env w = .error o) ∨
      (∀ k ∈ f.capture?, ¬ k.Overruns env) ∧
      ∃ f' w', f.turn env w = .ok ({ frame := f', signal := .yield }, w') ∧ f.StandsAs f' ∧
        w'.game = f.capture?.toList.foldl (fun g k => k.look env g) w.game ∧
        w'.effects = w.effects := by
  rw [turn, getGame_bind, if_neg (Bool.eq_false_iff.1 hread)]
  unfold capture?
  cases hp : f.pause with
  | movement =>
    dsimp only
    split
    · exact .inr ⟨by simp, f, w, rfl, .refl f, rfl, rfl⟩
    · exact .inr ⟨by simp, f.ready, w, proceed_of_isHeld hheld, ⟨rfl, by simp [ready, hp]⟩, rfl,
        rfl⟩
  | keys k =>
    obtain ⟨hover, o, ho⟩ | ⟨hfits, u, hu, hgame, heffects⟩ := Commands.pollKeys_eq env k w
    · exact .inl ⟨⟨k, rfl, hover⟩, o, bind_of_error ho⟩
    refine .inr ⟨fun k' hk' => Option.some.inj hk' ▸ hfits, ?_⟩
    dsimp only
    rw [bind_of_ok hu]
    cases (k.caught? env).isSome with
    | false => exact ⟨{ f with pause := _ }, u, rfl, ⟨rfl, by simp [hp]⟩, hgame, heffects⟩
    | true =>
      have hstage := k.look_stage env w.game
      rw [← hgame] at hstage
      simp only [Prod.mk.injEq] at hstage
      have hheld' : f.ready.isHeld u.game = true := by
        rw [← hheld, isHeld, isHeld, hstage.2.2.1, hstage.2.2.2]
        rfl
      exact ⟨f.ready, u, proceed_of_isHeld hheld', ⟨rfl, by simp [ready, hp]⟩, hgame, heffects⟩
  | ticks n =>
    exact .inr ⟨by simp, { f with pause := Pause.ofTicks (n - 1) }, w, rfl,
      ⟨rfl, by simp [hp, Pause.ofTicks_ne_goOn]⟩, rfl, rfl⟩
  | ready | goOn _ | animation =>
    exact .inr ⟨by simp, f, w, proceed_of_isHeld hheld, .refl f, rfl, rfl⟩

end Frame

/-! ## Updates -/

namespace Interpreter

variable {env : Env} {f : Frame} {calls : List Frame} {levels : Nat} {w w' : World}
  {i i' : Interpreter}

/-- What is left when every frame has forgotten an owner of another map and the called events that
have run out of commands are dropped, with the events that those called. -/
def swept (i : Interpreter) (mapId : Number) : Interpreter where
  frame := i.frame.forgetOwner mapId
  calls := (i.calls.takeWhile (·.isRunning)).map (·.forgetOwner mapId)

/-- There is nothing to sweep twice. -/
theorem swept_swept (i : Interpreter) (mapId : Number) :
    (i.swept mapId).swept mapId = i.swept mapId := by
  have hrunning : (fun f : Frame => (f.forgetOwner mapId).isRunning) = (·.isRunning) :=
    funext fun f => f.isRunning_forgetOwner mapId
  simp only [swept, Frame.forgetOwner_idem, List.takeWhile_map, List.map_map,
    Function.comp_def, hrunning, List.takeWhile_idem]

theorem swept_of_running (f : Frame) {c : Frame} (cs : List Frame) (mapId : Number)
    (hc : c.isRunning = true) : swept { frame := f, calls := c :: cs } mapId = {
      frame := f.forgetOwner mapId
      calls := (swept { frame := c, calls := cs } mapId).frames } := by
  simp [swept, frames, hc]

theorem swept_of_ended (f : Frame) {c : Frame} (cs : List Frame) (mapId : Number)
    (hc : c.isRunning = false) :
    swept { frame := f, calls := c :: cs } mapId = { frame := f.forgetOwner mapId } := by
  simp [swept, hc]

theorem isRunning_swept (i : Interpreter) (mapId : Number) :
    (i.swept mapId).isRunning = i.isRunning :=
  i.frame.isRunning_forgetOwner mapId

theorem goTurn_of_yield {inner : Frame → List Frame → Process Interpreter} {n : Nat}
    (h : f.turn env w = .ok ({ frame := f', signal := .yield }, w')) :
    goTurn env inner n f w = .ok ({ frame := f' }, w') := by
  rw [goTurn, h]
  rfl

/-! ### While the window waits -/

theorem updateFrames_of_waiting (hbudget : env.data.config.maxIterations ≠ 0)
    (hlevels : calls.length < levels) (hread : w.game.message.waiting = true) :
    updateFrames env levels f calls w =
      .ok (swept { frame := f, calls } w.game.field.id, w) := by
  obtain ⟨n, hn⟩ := exists_budget hbudget
  induction calls generalizing f levels with
  | nil =>
    obtain ⟨levels, rfl⟩ := Nat.exists_eq_succ_of_ne_zero (Nat.ne_of_gt hlevels)
    rw [updateFrames_succ env levels f [] hn, takeTurns_nil,
      goTurn_of_yield (Frame.turn_of_waiting hread)]
    rfl
  | cons c cs ih =>
    obtain ⟨levels, rfl⟩ := Nat.exists_eq_succ_of_ne_zero (Nat.ne_of_gt (Nat.zero_lt_of_lt hlevels))
    rw [updateFrames_succ env levels f (c :: cs) hn, takeTurns_cons,
      ih (Nat.lt_of_succ_lt_succ hlevels)]
    dsimp only
    rw [isRunning_swept]
    cases hc : isRunning { frame := c, calls := cs } with
    | true => rw [if_pos rfl, swept_of_running f cs _ hc]
    | false =>
      rw [if_neg Bool.false_ne_true, goTurn_of_yield (Frame.turn_of_waiting hread),
        swept_of_ended f cs _ hc]

/-- While the window waits, an update does nothing but sweep the interpreter. -/
theorem update_of_waiting (hbudget : env.data.config.maxIterations ≠ 0)
    (hlevels : i.calls.length < levels) (hread : w.game.message.waiting = true) :
    i.update env levels w = .ok (i.swept w.game.field.id, w) :=
  updateFrames_of_waiting hbudget hlevels hread

theorem length_swept_le (i : Interpreter) (mapId : Number) :
    (i.swept mapId).calls.length ≤ i.calls.length := by
  rw [swept, List.length_map]
  exact (List.takeWhile_prefix _).length_le

/-! ### While a scene or a battle holds everything up -/

/-- The key captures that an update looks at, those of the innermost frames first. A frame that
called an event with commands left does not take its turn. -/
def looked (f : Frame) : List Frame → List KeyCapture
  | [] => f.capture?.toList
  | c :: cs => looked c cs ++ if c.isRunning then [] else f.capture?.toList

/-- What an update of frames leaves that are all held up. -/
structure HeldUpdate (env : Env) (i : Interpreter) (w : World) (i' : Interpreter) (w' : World) :
    Prop where
  frames : List.Forall₂ Frame.StandsAs (i.swept w.game.field.id).frames i'.frames
  game : w'.game = (looked i.frame i.calls).foldl (fun g k => k.look env g) w.game
  effects : w'.effects = w.effects

/-- Looks at keys leave the stage as it is. -/
theorem looks_stage (env : Env) (ks : List KeyCapture) (g : Game) :
    let g' := ks.foldl (fun g k => k.look env g) g
    (g'.field.id, g'.message, g'.scene, g'.troop) = (g.field.id, g.message, g.scene, g.troop) := by
  induction ks generalizing g with
  | nil => rfl
  | cons k ks ih => exact (ih _).trans (k.look_stage env g)

theorem HeldUpdate.stage (h : HeldUpdate env i w i' w') :
    w'.game.field.id = w.game.field.id ∧ w'.game.message = w.game.message ∧
      ∀ f : Frame, f.isHeld w'.game = f.isHeld w.game := by
  have hstage := looks_stage env (looked i.frame i.calls) w.game
  rw [← h.game] at hstage
  simp only [Prod.mk.injEq] at hstage
  exact ⟨hstage.1, hstage.2.1, fun f => by
    rw [Frame.isHeld, Frame.isHeld, hstage.2.2.1, hstage.2.2.2]⟩

/-- The frame that is left has commands where the frame before had. -/
theorem HeldUpdate.isRunning (h : HeldUpdate env i w i' w') : i'.isRunning = i.isRunning := by
  obtain ⟨hframe, -⟩ := List.forall₂_cons.1 h.frames
  exact hframe.isRunning.trans (i.frame.isRunning_forgetOwner _)

/-- A turn of a frame that is held up, after the events that it called. -/
theorem goTurn_of_isHeld (env : Env) (inner : Frame → List Frame → Process Interpreter) (n : Nat)
    (hread : w.game.message.waiting = false) (hheld : f.isHeld w.game = true) :
    (∃ k ∈ f.capture?, k.Overruns env) ∧ (∃ o, goTurn env inner n f w = .error (.overflow o)) ∨
      (∀ k ∈ f.capture?, ¬ k.Overruns env) ∧
      ∃ f' w', goTurn env inner n f w = .ok ({ frame := f' }, w') ∧ f.StandsAs f' ∧
        w'.game = f.capture?.toList.foldl (fun g k => k.look env g) w.game ∧
        w'.effects = w.effects := by
  obtain ⟨hover, o, ho⟩ | ⟨hfits, f', w', ht, h⟩ := Frame.turn_of_isHeld env hread hheld
  · exact .inl ⟨hover, o, by rw [goTurn, ho]⟩
  · exact .inr ⟨hfits, f', w', goTurn_of_yield ht, h⟩

/-- An update of frames that are all held up fails at the first look that fails, and does what the
looks do if none fails. -/
theorem updateFrames_of_held (hbudget : env.data.config.maxIterations ≠ 0)
    (hlevels : calls.length < levels) (hread : w.game.message.waiting = false)
    (hheld : ∀ x ∈ f :: calls, x.isHeld w.game = true) :
    (∃ k ∈ looked f calls, k.Overruns env) ∧
        (∃ o, updateFrames env levels f calls w = .error (.overflow o)) ∨
      (∀ k ∈ looked f calls, ¬ k.Overruns env) ∧
        ∃ i' w', updateFrames env levels f calls w = .ok (i', w') ∧
          HeldUpdate env { frame := f, calls } w i' w' := by
  obtain ⟨n, hn⟩ := exists_budget hbudget
  obtain ⟨hf, hcalls⟩ := List.forall_mem_cons.1 hheld
  clear hheld
  replace hf : (f.forgetOwner w.game.field.id).isHeld w.game = true := by simpa using hf
  induction calls generalizing f levels with
  | nil =>
    obtain ⟨levels, rfl⟩ := Nat.exists_eq_succ_of_ne_zero (Nat.ne_of_gt hlevels)
    rw [updateFrames_succ env levels f [] hn, takeTurns_nil, looked]
    simp only [Option.mem_toList]
    have hturn := goTurn_of_isHeld env (updateFrames env levels) n hread hf
    rw [Frame.capture?_forgetOwner] at hturn
    refine hturn.imp id fun ⟨hfits, f', w', h, hstands, hgame, heffects⟩ => ?_
    exact ⟨hfits, _, w', h, .cons hstands .nil, hgame, heffects⟩
  | cons c cs ih =>
    obtain ⟨levels, rfl⟩ := Nat.exists_eq_succ_of_ne_zero (Nat.ne_of_gt (Nat.zero_lt_of_lt hlevels))
    obtain ⟨hc, hcs⟩ := List.forall_mem_cons.1 hcalls
    rw [updateFrames_succ env levels f (c :: cs) hn, takeTurns_cons, looked]
    obtain ⟨⟨k, hk, hover⟩, o, ho⟩ | ⟨hfits, called, u, hu, hcalled⟩ :=
      @ih c levels (Nat.lt_of_succ_lt_succ hlevels) hcs (by simpa using hc)
    · rw [ho]
      exact .inl ⟨⟨k, List.mem_append_left _ hk, hover⟩, o, rfl⟩
    rw [hu]
    dsimp only
    cases hrun : c.isRunning with
    | true =>
      rw [if_pos (hcalled.isRunning.trans hrun), if_pos rfl, List.append_nil]
      refine .inr ⟨hfits, _, u, rfl, ?_, ?_, hcalled.effects⟩
      · rw [swept_of_running f cs _ hrun]
        exact .cons (.refl _) hcalled.frames
      · rw [hcalled.game, looked, if_pos hrun, List.append_nil]
    | false =>
      rw [if_neg (Bool.eq_false_iff.1 (hcalled.isRunning.trans hrun)), if_neg Bool.false_ne_true]
      obtain ⟨-, hmessage, hstage⟩ := hcalled.stage
      have hturn := goTurn_of_isHeld env (updateFrames env levels) n
        (hmessage.symm ▸ hread) ((hstage _).trans hf)
      rw [Frame.capture?_forgetOwner] at hturn
      obtain ⟨⟨k, hk, hover⟩, o, ho⟩ | ⟨hfits', f', w', h, hstands, hgame, heffects⟩ := hturn
      · exact .inl ⟨⟨k, List.mem_append_right _ (Option.mem_toList.2 hk), hover⟩, o, ho⟩
      · refine .inr ⟨fun k hk => ?_, _, w', h, ?_, ?_, heffects.trans hcalled.effects⟩
        · exact (List.mem_append.1 hk).elim (hfits k) fun hk => hfits' k (Option.mem_toList.1 hk)
        · rw [swept_of_ended f cs _ hrun]
          exact .cons hstands .nil
        · rw [hgame, hcalled.game, looked, if_neg (by rw [hrun]; nofun), List.foldl_append]

/-- What an update comes to while something holds an interpreter up, whatever its frames wait for.
While the window waits, the world stays as it is, the frames that are left only forget an owner of
another map, and a second update changes nothing at all. While a scene holds everything up, or a
battle the frames of the field, the keys of some captures are looked at. Where one of these looks
fails, so does the update. Otherwise the frames that are left stand where they stood and wait for
the same answers, there is no effect, and nothing in the game changes but by the captures that
end. -/
theorem update_stands_still (env : Env) (i : Interpreter) (w : World)
    (hlevels : i.calls.length < levels) :
    (env.data.config.maxIterations = 0 → i.update env levels w = .ok (i, w)) ∧
    (env.data.config.maxIterations ≠ 0 → w.game.message.waiting = true →
      i.update env levels w = .ok (i.swept w.game.field.id, w) ∧
        (i.swept w.game.field.id).update env levels w = .ok (i.swept w.game.field.id, w)) ∧
    (env.data.config.maxIterations ≠ 0 → w.game.message.waiting = false →
      w.game.scene.isBlocking = true ∨
        w.game.troop.isSome = true ∧ (∀ f ∈ i.frames, f.context = .field) →
      ((∃ k ∈ looked i.frame i.calls, k.Overruns env) →
          ∃ o, i.update env levels w = .error (.overflow o)) ∧
        ((∀ k ∈ looked i.frame i.calls, ¬ k.Overruns env) →
          ∃ i' w', i.update env levels w = .ok (i', w') ∧ HeldUpdate env i w i' w')) := by
  refine ⟨fun hbudget => ?_, fun hbudget hread => ⟨?_, ?_⟩, fun hbudget hread hheld => ?_⟩
  · obtain ⟨levels, rfl⟩ := Nat.exists_eq_succ_of_ne_zero (Nat.ne_of_gt (Nat.zero_lt_of_lt hlevels))
    rw [update, updateFrames, hbudget]
    rfl
  · exact update_of_waiting hbudget hlevels hread
  · have hswept := update_of_waiting (i := i.swept w.game.field.id) hbudget
      (Nat.lt_of_le_of_lt (i.length_swept_le _) hlevels) hread
    rwa [swept_swept] at hswept
  · have hframes : ∀ f ∈ i.frame :: i.calls, f.isHeld w.game = true := fun f hf => by
      obtain hscene | ⟨hbattle, hfield⟩ := hheld
      · simp [Frame.isHeld, hscene]
      · simp [Frame.isHeld, hbattle, hfield f hf]
    obtain ⟨⟨k, hk, hover⟩, hfails⟩ | ⟨hfits, hruns⟩ :=
      updateFrames_of_held hbudget hlevels hread hframes
    · exact ⟨fun _ => hfails, fun hfits => absurd hover (hfits k hk)⟩
    · exact ⟨fun ⟨k, hk, hover⟩ => absurd hover (hfits k hk), fun _ => hruns⟩

/-- An event of another map that called one that waits for a key, after it was looked for some
times. That one called one that has run out of commands. -/
def waitsForKey (polls : UInt32) : Interpreter where
  frame := {
    context := .field, depth := 0, isRoot := true, commands := [{ code := 12330 }], pc := 1
    owner := 3, mapId := 8 }
  calls := [
    { context := .field, depth := 1, isRoot := false, commands := [{ code := 11610 }], pc := 1
      pause := .keys { target := 1, timeTarget := some 2, keys := [.decision], polls } },
    { context := .field, depth := 2, isRoot := false, pause := .ticks 5 }]

/-- It stands still while a text is to be read, and when the game is over, although the key is hit;
but when the key has been looked for too long, the update fails. -/
theorem waitsForKey_stands_still :
    let env : Env := { data := {}, host := { triggered := [.decision] } }
    let game := Game.begin {} default
    let reading : World := { game := { game with message.waiting := true } }
    let lost : World := { game := { game with scene.gameOver := true } }
    (waitsForKey 61).calls.length < 3 ∧
      (waitsForKey 61).update env 3 reading = .ok ((waitsForKey 61).swept 0, reading) ∧
      ((waitsForKey 61).swept 0).update env 3 reading = .ok ((waitsForKey 61).swept 0, reading) ∧
      ((waitsForKey 61).swept 0).calls.length = 1 ∧
      (∃ i' w', (waitsForKey 61).update env 3 lost = .ok (i', w') ∧
        HeldUpdate env (waitsForKey 61) lost i' w' ∧ w'.game.vars.get 2 = 10) ∧
      ∃ o, (waitsForKey 429496730).update env 3 lost = .error (.overflow o) := by
  intro env game reading lost
  have hlevels (polls : UInt32) : (waitsForKey polls).calls.length < 3 :=
    Nat.lt_succ_self 2
  obtain ⟨-, hreading, -⟩ := update_stands_still env (waitsForKey 61) reading (hlevels 61)
  obtain ⟨-, -, hlost⟩ := update_stands_still env (waitsForKey 61) lost (hlevels 61)
  obtain ⟨-, -, hlate⟩ := update_stands_still env (waitsForKey 429496730) lost (hlevels _)
  obtain ⟨hfirst, hsecond⟩ := hreading (by decide) rfl
  obtain ⟨-, hstands⟩ := hlost (by decide) rfl (.inl rfl)
  obtain ⟨hfails, -⟩ := hlate (by decide) rfl (.inl rfl)
  obtain ⟨i', w', hupdate, hheld⟩ := hstands fun k hk => by
    obtain rfl : k = _ := List.mem_singleton.1 hk
    unfold KeyCapture.Overruns
    decide
  refine ⟨hlevels 61, hfirst, hsecond, rfl, ⟨i', w', hupdate, hheld, ?_⟩, hfails ?_⟩
  · rw [hheld.game]
    decide
  · refine ⟨_, List.mem_singleton_self _, .inr ⟨rfl, rfl, ?_⟩⟩
    decide

end Interpreter

end EventScript
