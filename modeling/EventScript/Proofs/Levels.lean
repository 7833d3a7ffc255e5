import EventScript.Proofs.Acceptance
import EventScript.Proofs.Turns

/-!
# How many levels an update needs

Each frame of an update runs on a level of its own, with a budget of its own.

* `updateFrames_mono`: levels that suffice once suffice always, and more change nothing.
* `updateFrames_ne_nesting`: levels suffice where a number that falls with every call bounds them.
-/

namespace EventScript

namespace Interpreter

variable {env : Env}

/-! ## One step of a frame with its events -/

/-- A turn of the frame, and the turns after it. -/
def goTurn (env : Env) (inner : Frame → List Frame → Process Interpreter) (n : Nat) (f : Frame)
    (w : World) : Except Fault (Interpreter × World) :=
  match f.turn env w with
  | .error o => .error (.overflow o)
  | .ok (t, w') => match t.signal with
    | .yield => .ok ({ frame := t.frame, calls := t.called.toList }, w')
    | .again => takeTurns env inner n t.frame t.called.toList w'

theorem turn_bind {inner : Frame → List Frame → Process Interpreter} {n : Nat} (f : Frame)
    (w : World) :
    (do
      let t ← (f.turn env : Act Turn)
      match t.signal with
      | .yield => return { frame := t.frame, calls := t.called.toList }
      | .again => takeTurns env inner n t.frame t.called.toList : Process Interpreter) w =
      goTurn env inner n f w := by
  change Except.bind (Process.ofAct (f.turn env) w) _ = _
  unfold Process.ofAct goTurn
  cases h : f.turn env w with
  | error o => rfl
  | ok p =>
    obtain ⟨t, w'⟩ := p
    cases hs : t.signal with
    | yield =>
      simp only [Except.bind, hs]
      rfl
    | again => simp [Except.bind, hs]

theorem takeTurns_nil (inner : Frame → List Frame → Process Interpreter) (n : Nat) (f : Frame)
    (w : World) : takeTurns env inner (n + 1) f [] w =
      goTurn env inner n (f.forgetOwner w.game.field.id) w :=
  turn_bind _ w

theorem takeTurns_cons (inner : Frame → List Frame → Process Interpreter) (n : Nat) (f c : Frame)
    (cs : List Frame) (w : World) : takeTurns env inner (n + 1) f (c :: cs) w =
      match inner c cs w with
      | .error e => .error e
      | .ok (called, w') =>
        if called.isRunning then
          .ok ({ frame := f.forgetOwner w.game.field.id, calls := called.frames }, w')
        else goTurn env inner n (f.forgetOwner w.game.field.id) w' := by
  change Except.bind (inner c cs w) _ = _
  cases h : inner c cs w with
  | error e => rfl
  | ok p =>
    obtain ⟨called, w'⟩ := p
    cases hrun : called.isRunning with
    | true =>
      simp only [Except.bind, hrun, if_true]
      rfl
    | false =>
      simp only [Except.bind, hrun, Bool.false_eq_true, if_false]
      exact turn_bind _ w'

theorem updateFrames_succ (env : Env) (levels : Nat) (f : Frame) (calls : List Frame) {n : Nat}
    (hn : env.data.config.maxIterations.toNat = n + 1) :
    updateFrames env (levels + 1) f calls =
      takeTurns env (updateFrames env levels) (n + 1) f calls := by
  change takeTurns env (updateFrames env levels) env.data.config.maxIterations.toNat f calls = _
  rw [hn]

theorem exists_budget (h : env.data.config.maxIterations ≠ 0) :
    ∃ n, env.data.config.maxIterations.toNat = n + 1 :=
  Nat.exists_eq_succ_of_ne_zero fun h0 => h (UInt64.toNat_inj.1 h0)

/-- A first turn forgets an owner on another map. -/
theorem takeTurns_forgetOwner (inner : Frame → List Frame → Process Interpreter) (n : Nat)
    (f : Frame) (calls : List Frame) (w : World) :
    takeTurns env inner (n + 1) (f.forgetOwner w.game.field.id) calls w =
      takeTurns env inner (n + 1) f calls w := by
  cases calls with
  | nil => rw [takeTurns_nil, takeTurns_nil, Frame.forgetOwner_idem]
  | cons c cs => rw [takeTurns_cons, takeTurns_cons, Frame.forgetOwner_idem]

/-- An update that has a budget forgets an owner on another map first. -/
theorem updateFrames_forgetOwner (hbudget : env.data.config.maxIterations ≠ 0) (levels : Nat)
    (f : Frame) (calls : List Frame) (w : World) :
    updateFrames env levels (f.forgetOwner w.game.field.id) calls w =
      updateFrames env levels f calls w := by
  cases levels with
  | zero => rfl
  | succ levels =>
    obtain ⟨n, hn⟩ := exists_budget hbudget
    rw [updateFrames_succ env levels _ calls hn, updateFrames_succ env levels f calls hn,
      takeTurns_forgetOwner]

/-! ## More levels -/

/-- Where the first finishes, the second gives the same. -/
def Extends (inner inner' : Frame → List Frame → Process Interpreter) : Prop :=
  ∀ c cs w, inner c cs w ≠ .error .nesting → inner' c cs w = inner c cs w

variable {inner inner' : Frame → List Frame → Process Interpreter}

theorem goTurn_mono {n : Nat}
    (ih : ∀ f calls w, takeTurns env inner n f calls w ≠ .error .nesting →
      takeTurns env inner' n f calls w = takeTurns env inner n f calls w) (f : Frame) (w : World)
    (hne : goTurn env inner n f w ≠ .error .nesting) :
    goTurn env inner' n f w = goTurn env inner n f w := by
  unfold goTurn at hne ⊢
  cases h : f.turn env w with
  | error o => rfl
  | ok p =>
    obtain ⟨t, w'⟩ := p
    rw [h] at hne
    cases hs : t.signal with
    | yield => simp only [hs]
    | again =>
      simp only [hs] at hne ⊢
      exact ih _ _ _ hne

theorem takeTurns_mono (hext : Extends inner inner') (n : Nat) (f : Frame) (calls : List Frame)
    (w : World) (hne : takeTurns env inner n f calls w ≠ .error .nesting) :
    takeTurns env inner' n f calls w = takeTurns env inner n f calls w := by
  induction n generalizing f calls w with
  | zero => rfl
  | succ n ih =>
    cases calls with
    | nil =>
      rw [takeTurns_nil] at hne
      rw [takeTurns_nil, takeTurns_nil]
      exact goTurn_mono ih _ _ hne
    | cons c cs =>
      rw [takeTurns_cons] at hne
      rw [takeTurns_cons, takeTurns_cons]
      have hinner : inner c cs w ≠ .error .nesting := by
        intro h
        rw [h] at hne
        exact hne rfl
      rw [hext c cs w hinner]
      cases h : inner c cs w with
      | error e => rfl
      | ok p =>
        obtain ⟨called, w'⟩ := p
        rw [h] at hne
        cases hrun : called.isRunning with
        | true => simp only [hrun, if_true]
        | false =>
          simp only [hrun, Bool.false_eq_true, if_false] at hne ⊢
          exact goTurn_mono ih _ _ hne

theorem extends_updateFrames (n : Nat) :
    Extends (updateFrames env n) (updateFrames env (n + 1)) := by
  induction n with
  | zero =>
    intro c cs w hne
    exact absurd rfl hne
  | succ n ih => exact fun c cs w hne => takeTurns_mono ih _ _ _ _ hne

/-- Levels that suffice are enough, and more change nothing. -/
theorem updateFrames_mono {n m : Nat} (hnm : n ≤ m) (f : Frame) (calls : List Frame) (w : World)
    (hne : updateFrames env n f calls w ≠ .error .nesting) :
    updateFrames env m f calls w = updateFrames env n f calls w := by
  induction hnm with
  | refl => rfl
  | step _ ih => exact (extends_updateFrames _ f calls w (by rwa [ih])).trans ih

/-! ## Enough levels -/

/-- A number that bounds the levels below a frame: a turn keeps it, and every call lowers it. -/
structure CallBound (env : Env) (P : Frame → Prop) (need : Frame → Nat) : Prop where
  forget : ∀ f mapId, P f → P (f.forgetOwner mapId) ∧ need (f.forgetOwner mapId) = need f
  turn : ∀ f w t w', P f → f.turn env w = .ok (t, w') → P t.frame ∧ need t.frame ≤ need f ∧
    ∀ c, t.called = some c → P c ∧ need c < need f

/-- The levels that a frame needs with the events it called. -/
def levelsFor (need : Frame → Nat) : Frame → List Frame → Nat
  | f, [] => need f + 1
  | f, c :: cs => max (need f + 1) (levelsFor need c cs + 1)

theorem levelsFor_toList_le {need : Frame → Nat} {f f' : Frame} {called : Option Frame}
    (hf : need f' ≤ need f) (hc : ∀ c, called = some c → need c < need f) :
    levelsFor need f' called.toList ≤ need f + 1 := by
  cases called with
  | none => simpa [levelsFor] using hf
  | some c =>
    have := hc c rfl
    simp only [Option.toList_some, levelsFor]
    omega

theorem one_le_levelsFor (need : Frame → Nat) (f : Frame) (calls : List Frame) :
    need f + 1 ≤ levelsFor need f calls := by
  cases calls with
  | nil => exact Nat.le_refl _
  | cons c cs => exact Nat.le_max_left _ _

variable {P : Frame → Prop} {need : Frame → Nat}

theorem takeTurns_ne_nesting (hb : CallBound env P need) {levels : Nat}
    (hinner : ∀ c cs w, P c → (∀ x ∈ cs, P x) → levelsFor need c cs ≤ levels →
      inner c cs w ≠ .error .nesting) (n : Nat) (f : Frame) (calls : List Frame) (w : World)
    (hf : P f) (hcalls : ∀ c ∈ calls, P c) (hlevels : levelsFor need f calls ≤ levels + 1) :
    takeTurns env inner n f calls w ≠ .error .nesting := by
  induction n generalizing f calls w with
  | zero => exact fun h => nomatch h
  | succ n ih =>
    have hgo (f : Frame) (w : World) (hf : P f) (hneed : need f ≤ levels) :
        goTurn env inner n f w ≠ .error .nesting := by
      unfold goTurn
      cases h : f.turn env w with
      | error o => exact fun h => nomatch h
      | ok p =>
        obtain ⟨t, w'⟩ := p
        obtain ⟨hP, hle, hcalled⟩ := hb.turn f w t w' hf h
        cases hs : t.signal with
        | yield => simp only [hs]; exact fun h => nomatch h
        | again =>
          simp only [hs]
          refine ih _ _ _ hP (fun c hc => (hcalled c (by simpa using hc)).1) ?_
          have := levelsFor_toList_le hle fun c hc => (hcalled c hc).2
          omega
    obtain ⟨hP, hsame⟩ := hb.forget f w.game.field.id hf
    have hneed : need (f.forgetOwner w.game.field.id) ≤ levels := by
      have := one_le_levelsFor need f calls
      omega
    cases calls with
    | nil =>
      rw [takeTurns_nil]
      exact hgo _ _ hP hneed
    | cons c cs =>
      rw [takeTurns_cons]
      have hlevels' : levelsFor need c cs ≤ levels := by
        simp only [levelsFor] at hlevels
        omega
      cases h : inner c cs w with
      | error e =>
        have := hinner c cs w (hcalls c (by simp)) (fun x hx => hcalls x (by simp [hx])) hlevels'
        rw [h] at this
        exact this
      | ok p =>
        obtain ⟨called, w'⟩ := p
        cases hrun : called.isRunning with
        | true => simp only [hrun, if_true]; exact fun h => nomatch h
        | false =>
          simp only [hrun, Bool.false_eq_true, if_false]
          exact hgo _ _ hP hneed

/-- Levels suffice where a number that falls with every call bounds them. -/
theorem updateFrames_ne_nesting (hb : CallBound env P need) {levels : Nat} (f : Frame)
    (calls : List Frame) (w : World) (hf : P f) (hcalls : ∀ c ∈ calls, P c)
    (hlevels : levelsFor need f calls ≤ levels) :
    updateFrames env levels f calls w ≠ .error .nesting := by
  induction levels generalizing f calls w with
  | zero =>
    have := one_le_levelsFor need f calls
    omega
  | succ levels ih =>
    exact takeTurns_ne_nesting hb (fun c cs w hc hcs h => ih c cs w hc hcs h) _ f calls w hf hcalls
      hlevels

end Interpreter

end EventScript
