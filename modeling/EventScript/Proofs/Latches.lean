import EventScript.Proofs.Suspension

/-!
# A latch for every cause

A frame keeps what it waits for in one place. Here it stands in five latches, which an update looks
at one after the other. No latch is cleared but by the end of its own wait or by the start of a
list.

* `Latched.turn` is a turn of a frame with latches, and `Latched.update` an update of such a frame
  with the events it called.
* `mirrors_turn` and `mirrors_updateFrames`: on grounded frames the latches do what one place does.
* `Interpreter.one_cause_at_a_time`: no two causes hold up a frame of an interpreter that comes
  about, and what it waits for belongs to the command at hand.
-/

namespace EventScript

open Act

/-- What can hold up a frame. -/
inductive Cause
  /-- An event that it called. -/
  | call
  | movement
  | keys
  | ticks
  /-- An answer that the rest of a command waits for. -/
  | answer
  | animation
  deriving DecidableEq

/-- What a frame waits for, each in a latch of its own. -/
structure Latches where
  movement : Bool := false
  keys : Option KeyCapture := none
  ticks : UInt32 := 0
  goOn : Option Awaited := none
  animation : Bool := false
  deriving DecidableEq

/-- The latches of a frame that waits for one thing. -/
def Pause.latches : Pause → Latches
  | .ready => {}
  | .movement => { movement := true }
  | .keys k => { keys := some k }
  | .ticks n => { ticks := n }
  | .goOn k => { goOn := some k }
  | .animation => { animation := true }

theorem Pause.eq_goOn_of_latches {p : Pause} {k : Awaited} (h : p.latches.goOn = some k) :
    p = .goOn k := by
  cases p with
  | goOn k' => cases h; rfl
  | ready | movement | keys | ticks | animation => cases h

theorem Pause.eq_animation_of_latches {p : Pause} (h : p.latches.animation = true) :
    p = .animation := by
  cases p with
  | animation => rfl
  | ready | movement | keys | ticks | goOn => cases h

/-- The cause that a frame names by what it waits for. -/
def Pause.cause? : Pause → Option Cause
  | .ready => none
  | .movement => some .movement
  | .keys _ => some .keys
  | .ticks _ => some .ticks
  | .goOn _ => some .answer
  | .animation => some .animation

/-- A frame with latches, which says nothing of what it waits for itself. -/
structure Latched where
  frame : Frame
  latches : Latches := {}
  deriving DecidableEq

namespace Latched

/-- What a turn leaves of a frame with latches. -/
structure Turn where
  frame : Latched
  called : Option Latched := none
  signal : Signal
  deriving DecidableEq

/-- A frame with latches and the events it called, each of which called the next. -/
structure Chain where
  frame : Latched
  calls : List Latched := []
  deriving DecidableEq

/-- The frames, outermost first. -/
def Chain.frames (x : Chain) : List Latched := x.frame :: x.calls

/-- Whether a frame is held up by a cause: by the event that it called, or by a latch that is
set. -/
def HeldBy (x : Latched) (called : Option Latched) : Cause → Prop
  | .call => called.isSome = true
  | .movement => x.latches.movement = true
  | .keys => x.latches.keys.isSome = true
  | .ticks => x.latches.ticks ≠ 0
  | .answer => x.latches.goOn.isSome = true
  | .animation => x.latches.animation = true

def goto (x : Latched) (place : Nat) : Latched := { x with frame := x.frame.goto place }

def forgetOwner (x : Latched) (mapId : Number) : Latched :=
  { x with frame := x.frame.forgetOwner mapId }

/-- The frame as its commands see it, which look at no latch but that of an animation. -/
def seen (x : Latched) : Frame :=
  { x.frame with pause := if x.latches.animation then .animation else .ready }

/-- Does what a command asks of the frame: sets a latch, and leaves the others as they are. -/
def settle (env : Env) (x : Latched) : Outcome → Act Turn
  | .next place => return { frame := x.goto place, signal := .again }
  | .rest place => return { frame := x.goto place, signal := .yield }
  | .retry => return { frame := x, signal := .yield }
  | .await place k => return {
      frame := {
        frame := { x.frame with pc := place }
        latches := { x.latches with goOn := some k } }
      signal := .yield }
  | .wait n => return {
      frame := { x.goto x.frame.pc with latches := { x.latches with ticks := n } }
      signal := .again }
  | .capture k => return {
      frame := { x.goto x.frame.pc with latches := { x.latches with keys := some k } }
      signal := .again }
  | .follow => return {
      frame := { x.goto x.frame.pc with latches := { x.latches with movement := true } }
      signal := .again }
  | .animate => return {
      frame := { x with latches := { x.latches with animation := true } }
      signal := .yield }
  | .call commands owner => do
    let called ← x.frame.callee env commands owner
    return { frame := x.goto x.frame.pc, called := some { frame := called }, signal := .again }

/-- Runs the command at hand. The one that plays animations clears its latch, unless it has to look
again. -/
def perform (env : Env) (x : Latched) (c : Command) : Act Turn := do
  let o ← Commands.perform env x.seen c
  let done : Bool := c.opcode = x.frame.context.animation ∧ o ≠ .retry
  let latches := { x.latches with animation := x.latches.animation && !done }
  settle env { x with latches } o

/-- Resumes the command at hand, runs it, or looks for what comes next. -/
def proceed (env : Env) (x : Latched) : Act Turn := do
  let g ← getGame
  if x.frame.isHeld g then return { frame := x, signal := .yield }
  match x.latches.goOn with
  | some k =>
    settle env { x with latches := { x.latches with goOn := none } }
      (← Commands.goOn env x.frame k)
  | none => match x.frame.commands[x.frame.pc]? with
    | some c => x.perform env c
    | none =>
      if x.frame.isRunning then
        return { frame := { x with frame := ← x.frame.finish }, signal := .again }
      else if x.frame.isRoot then
        match ← x.frame.startNext env with
        | some started => return { frame := { frame := started }, signal := .again }
        | none => return { frame := x, signal := .yield }
      else return { frame := x, signal := .yield }

/-- Counts a tick, where there are ticks to wait for. -/
def count (env : Env) (x : Latched) : Act Turn :=
  if 0 < x.latches.ticks then
    return { frame := { x with latches := { x.latches with ticks := x.latches.ticks - 1 } },
             signal := .yield }
  else x.proceed env

/-- Looks at the keys, where keys are waited for. -/
def poll (env : Env) (x : Latched) : Act Turn := do
  match x.latches.keys with
  | none => x.count env
  | some k => match ← Commands.pollKeys env k with
    | some k => return { frame := { x with latches := { x.latches with keys := some k } },
                         signal := .yield }
    | none => count env { x with latches := { x.latches with keys := none } }

/-- One step of a frame that has called nothing: the latches are looked at one by one. -/
def turn (env : Env) (x : Latched) : Act Turn := do
  let g ← getGame
  if g.message.waiting then return { frame := x, signal := .yield }
  if x.latches.movement then
    if g.field.anyMoving then return { frame := x, signal := .yield }
    else poll env { x with latches := { x.latches with movement := false } }
  else x.poll env

/-- Takes up to `n` turns with a frame, after the events it called. -/
def takeTurns (env : Env) (inner : Latched → List Latched → Process Chain) :
    Nat → Latched → List Latched → Process Chain
  | 0, x, calls => return { frame := x, calls }
  | n + 1, x, calls => do
    let g ← Act.getGame
    let x := x.forgetOwner g.field.id
    let left ← match calls with
      | [] => pure none
      | c :: cs => do
        let called ← inner c cs
        pure (if called.frame.frame.isRunning then some called else none)
    match left with
    | some called => return { frame := x, calls := called.frame :: called.calls }
    | none => do
      let t ← x.turn env
      match t.signal with
      | .yield => return { frame := t.frame, calls := t.called.toList }
      | .again => takeTurns env inner n t.frame t.called.toList

def updateFrames (env : Env) : Nat → Latched → List Latched → Process Chain
  | 0, _, _ => throw .nesting
  | levels + 1, x, calls =>
    takeTurns env (updateFrames env levels) env.data.config.maxIterations.toNat x calls

/-- An update of a frame with latches with the events it called. -/
def update (env : Env) (levels : Nat) (x : Chain) : Process Chain :=
  updateFrames env levels x.frame x.calls

end Latched

/-- A frame with what it waits for spread over latches. -/
def Frame.latched (f : Frame) : Latched := { frame := f.ready, latches := f.pause.latches }

def Turn.latched (t : Turn) : Latched.Turn :=
  { frame := t.frame.latched, called := t.called.map Frame.latched, signal := t.signal }

def Interpreter.latched (i : Interpreter) : Latched.Chain :=
  { frame := i.frame.latched, calls := i.calls.map Frame.latched }

/-! ## Runs that do the same -/

section

variable {ε α β γ δ : Type} {w : World}

/-- The second run does what the first does, and gives its result as `g` shows it. -/
def Mirrors (a : StateT World (Except ε) α) (b : StateT World (Except ε) β) (g : α → β)
    (w : World) : Prop :=
  b w = (a w).map fun r => (g r.1, r.2)

variable {a : StateT World (Except ε) α} {b : StateT World (Except ε) β} {g : α → β}

theorem mirrors_pure {r : α} {s : β} (h : g r = s) :
    Mirrors (pure r : StateT World (Except ε) α) (pure s) g w := by
  rw [← h]
  rfl

theorem Mirrors.bind {k : α → StateT World (Except ε) γ} {l : β → StateT World (Except ε) δ}
    {h : γ → δ} (ha : Mirrors a b g w)
    (hk : ∀ x u, a w = .ok (x, u) → Mirrors (k x) (l (g x)) h u) :
    Mirrors (a >>= k) (b >>= l) h w := by
  unfold Mirrors at ha ⊢
  cases hx : a w with
  | error e =>
    rw [hx] at ha
    rw [bind_of_error hx, bind_of_error ha]
    rfl
  | ok r =>
    rw [hx] at ha
    rw [bind_of_ok hx, bind_of_ok ha]
    exact hk r.1 r.2 hx

/-- Two runs that begin alike. -/
theorem mirrors_bind {k : α → StateT World (Except ε) γ} {l : α → StateT World (Except ε) δ}
    {h : γ → δ} (hk : ∀ x u, a w = .ok (x, u) → Mirrors (k x) (l x) h u) :
    Mirrors (a >>= k) (a >>= l) h w := by
  have hsame : Mirrors a a id w := by
    unfold Mirrors
    cases a w <;> rfl
  exact hsame.bind hk

theorem Mirrors.ite {c : Prop} [Decidable c] {a' : StateT World (Except ε) α}
    {b' : StateT World (Except ε) β} (h : c → Mirrors a b g w) (h' : ¬ c → Mirrors a' b' g w) :
    Mirrors (if c then a else a') (if c then b else b') g w := by
  split
  · next hc => exact h hc
  · next hc => exact h' hc

theorem Mirrors.ofAct {a : Act α} {b : Act β} (h : Mirrors a b g w) :
    Mirrors (Process.ofAct a) (Process.ofAct b) g w := by
  unfold Mirrors at h ⊢
  unfold Process.ofAct
  rw [h]
  cases a w <;> rfl

end

namespace Frame

variable {env : Env} {f : Frame} {w : World}

theorem latched_of_ready (h : f.pause = .ready) : f.latched = { frame := f.ready } := by
  rw [latched, h]
  rfl

theorem ready_of_pause (h : f.pause = .ready) : f.ready = f := by
  rw [ready, ← h]

theorem latched_forgetOwner (f : Frame) (mapId : Number) :
    (f.forgetOwner mapId).latched = f.latched.forgetOwner mapId := by
  unfold forgetOwner Latched.forgetOwner latched ready
  by_cases h : f.mapId = mapId
  · simp [forgetOwner, h]
  · simp [forgetOwner, h]

theorem latches_ofTicks (n : UInt32) : (Pause.ofTicks n).latches = { ticks := n } := by
  unfold Pause.ofTicks
  split
  · next h =>
    rw [h]
    rfl
  · rfl

/-- On a frame that waits for nothing, a command sets no latch but the one it asks for. -/
theorem mirrors_settle (env : Env) (h : f.pause = .ready) (o : Outcome) (w : World) :
    Mirrors (f.settle env o) (f.latched.settle env o) Turn.latched w := by
  rw [latched_of_ready h]
  cases o with
  | next | rest | await | capture | follow | animate => exact mirrors_pure rfl
  | retry =>
    refine mirrors_pure ?_
    rw [Turn.latched, latched_of_ready h]
    rfl
  | wait n =>
    refine mirrors_pure ?_
    rw [Turn.latched, latched, latches_ofTicks]
    rfl
  | call commands owner =>
    refine mirrors_bind fun c u hc => mirrors_pure ?_
    have hready : c.pause = .ready := (ensures_callee env f commands owner w c u hc).2.pause
    rw [Turn.latched, Option.map_some, latched_of_ready hready, ready_of_pause hready]
    rfl

theorem settle_ready {o : Outcome} (h : o ≠ .retry) : f.ready.settle env o = f.settle env o := by
  cases o with
  | retry => exact absurd rfl h
  | next | rest | await | wait | capture | follow | animate | call => rfl

/-- The commands see an animation that is waited for, and nothing else. -/
theorem seen_latched (hpause : f.pause = .ready ∨ f.pause = .animation) : f.latched.seen = f := by
  rcases hpause with h | h
  · rw [latched, h]
    change { f with pause := .ready } = f
    rw [← h]
  · rw [latched, h]
    change { f with pause := .animation } = f
    rw [← h]

/-- The command at hand clears the latch of its animation where it does not look again. -/
theorem mirrors_perform (hf : f.Grounded) (hpause : f.pause = .ready ∨ f.pause = .animation)
    {c : Command} (hc : f.commands[f.pc]? = some c) (w : World) :
    Mirrors (do f.settle env (← Commands.perform env f c)) (f.latched.perform env c)
      Turn.latched w := by
  unfold Latched.perform
  rw [seen_latched hpause]
  refine mirrors_bind fun o u _ => ?_
  rcases hpause with h | h
  · have hmirror := mirrors_settle env h o u
    rw [latched_of_ready h] at hmirror ⊢
    exact hmirror
  · obtain ⟨c', hc', hop⟩ := hf.animation h
    obtain rfl : c' = c := Option.some.inj (hc'.symm.trans hc)
    have hop : c'.opcode = f.latched.frame.context.animation := List.mem_singleton.1 hop
    by_cases ho : o = .retry
    · subst ho
      refine mirrors_pure ?_
      rw [Turn.latched, latched, h]
      simp [Pause.latches]
    · have hmirror := mirrors_settle env (f := f.ready) rfl o u
      rw [settle_ready ho] at hmirror
      have hdone : decide (c'.opcode = f.latched.frame.context.animation ∧ o ≠ .retry) = true :=
        decide_eq_true ⟨hop, ho⟩
      rw [hdone, latched, h]
      exact hmirror

/-- A frame that waits for an answer, for an animation or for nothing. -/
theorem mirrors_proceed (hf : f.Grounded)
    (hpause : f.pause = .ready ∨ f.pause = .animation ∨ ∃ k, f.pause = .goOn k) (w : World) :
    Mirrors (f.proceed env) (f.latched.proceed env) Turn.latched w := by
  refine mirrors_bind fun g u _ => .ite (fun _ => mirrors_pure rfl) fun _ => ?_
  by_cases hk : ∃ k, f.pause = .goOn k
  · obtain ⟨k, hk⟩ := hk
    have hgoOn : f.latched.latches.goOn = some k := by rw [latched, hk]; rfl
    simp only [hk, hgoOn]
    refine mirrors_bind fun o u _ => ?_
    have hmirror := mirrors_settle env (f := f.ready) rfl o u
    rw [latched, hk]
    exact hmirror
  · have hpause : f.pause = .ready ∨ f.pause = .animation :=
      hpause.imp_right fun h => h.resolve_right hk
    have hgoOn : f.latched.latches.goOn = none := by
      rcases hpause with h | h <;> rw [latched, h] <;> rfl
    simp only [hgoOn]
    split
    · next k hk' => exact absurd ⟨k, hk'⟩ hk
    cases hc : f.commands[f.pc]? with
    | some c =>
      have hc' : f.latched.frame.commands[f.latched.frame.pc]? = some c := hc
      simp only [hc']
      exact mirrors_perform hf hpause hc u
    | none =>
      have hready : f.pause = .ready := by
        rcases hpause with h | h
        · exact h
        · obtain ⟨c, hc', -⟩ := hf.animation h
          rw [hc] at hc'
          cases hc'
      rw [latched_of_ready hready, ready_of_pause hready]
      simp only [hc]
      refine .ite (fun _ => mirrors_bind fun f' v hf' => mirrors_pure ?_) fun _ => ?_
      · obtain ⟨-, rfl⟩ := ensures_finish f u f' v hf'
        rw [Turn.latched, latched_of_ready (by exact hready), ready_of_pause (by exact hready)]
        rfl
      · have hsame : Turn.latched { frame := f, signal := .yield } =
            { frame := { frame := f }, signal := .yield } := by
          rw [Turn.latched, latched_of_ready hready, ready_of_pause hready]
          rfl
        refine .ite (fun _ => mirrors_bind fun s v hs => ?_) fun _ => mirrors_pure hsame
        cases s with
        | none => exact mirrors_pure hsame
        | some s =>
          have hpause : s.pause = .ready :=
            ((ensures_startNext env f u (some s) v hs).2 s rfl).pause
          refine mirrors_pure ?_
          rw [Turn.latched, latched_of_ready hpause, ready_of_pause hpause]
          rfl

/-- Where no tick is waited for, the count goes on at once. -/
theorem count_latched (env : Env)
    (h : f.pause = .ready ∨ f.pause = .animation ∨ ∃ k, f.pause = .goOn k) :
    f.latched.count env = f.latched.proceed env := by
  refine if_neg ?_
  rcases h with h | h | ⟨k, h⟩ <;> rw [latched, h] <;> exact nofun

/-- One place for what a frame waits for does what the latches do. -/
theorem mirrors_turn (hf : f.Grounded) (w : World) :
    Mirrors (f.turn env) (f.latched.turn env) Turn.latched w := by
  refine mirrors_bind fun g u _ => .ite (fun _ => mirrors_pure rfl) fun _ => ?_
  have hfree (v : World) :
      Mirrors (f.ready.proceed env) (f.ready.latched.count env) Turn.latched v := by
    rw [count_latched env (.inl rfl)]
    exact mirrors_proceed (grounded_of_ready rfl) (.inl rfl) v
  have hlatches : f.latched.latches = f.pause.latches := rfl
  cases hk : f.pause with
  | movement =>
    rw [hk] at hlatches
    simp only [hlatches, Pause.latches, if_true]
    exact .ite (fun _ => mirrors_pure rfl) fun _ => hfree u
  | keys k =>
    simp only [Latched.poll, hlatches, hk, Pause.latches]
    refine mirrors_bind fun left v _ => ?_
    cases left with
    | some k' => exact mirrors_pure rfl
    | none => exact hfree v
  | ticks n =>
    have hn : 0 < n := UInt32.pos_iff_ne_zero.2 (hf.ticks n hk)
    simp only [Latched.poll, Latched.count, hlatches, hk, Pause.latches, hn, if_true]
    refine mirrors_pure ?_
    rw [Turn.latched, latched, latches_ofTicks]
    rfl
  | ready | animation | goOn =>
    have hpause : f.pause = .ready ∨ f.pause = .animation ∨ ∃ k, f.pause = .goOn k := by
      simp [hk]
    simp only [Latched.poll, hlatches, hk, Pause.latches]
    exact count_latched env hpause ▸ mirrors_proceed hf hpause u

end Frame

namespace Interpreter

variable {env : Env} {inner : Frame → List Frame → Process Interpreter}
  {inner' : Latched → List Latched → Process Latched.Chain}

/-- A turn of the frame, and the turns after it. -/
theorem mirrors_goTurn {n : Nat}
    (ih : ∀ f calls w, (∀ x ∈ f :: calls, x.Grounded) →
      Mirrors (takeTurns env inner n f calls)
        (Latched.takeTurns env inner' n f.latched (calls.map Frame.latched)) latched w)
    {f : Frame} (hf : f.Grounded) (w : World) :
    Mirrors (do
        let t ← (f.turn env : Act Turn)
        match t.signal with
        | .yield => return { frame := t.frame, calls := t.called.toList }
        | .again => takeTurns env inner n t.frame t.called.toList : Process Interpreter)
      (do
        let t ← (f.latched.turn env : Act Latched.Turn)
        match t.signal with
        | .yield => return { frame := t.frame, calls := t.called.toList }
        | .again => Latched.takeTurns env inner' n t.frame t.called.toList : Process Latched.Chain)
      latched w := by
  refine (Frame.mirrors_turn hf w).ofAct.bind fun t u ht => ?_
  have hcalled : t.latched.called.toList = t.called.toList.map Frame.latched := by
    rw [Turn.latched]
    cases t.called <;> rfl
  have hsignal : t.latched.signal = t.signal := rfl
  rw [hcalled, hsignal]
  cases hs : t.signal with
  | yield => exact mirrors_pure rfl
  | again =>
    have hturn : f.turn env w = .ok (t, u) := by
      unfold Process.ofAct at ht
      split at ht
      · next r hr =>
        cases ht
        exact hr
      · cases ht
    obtain ⟨hframe, hc⟩ := Frame.grounded_of_turn env hf w t u hturn
    refine ih _ _ u (List.forall_mem_cons.2 ⟨hframe, fun c hmem => ?_⟩)
    exact (hc c (Option.mem_toList.1 hmem)).1

theorem mirrors_takeTurns
    (hinner : ∀ c cs w, (∀ x ∈ c :: cs, x.Grounded) →
      Mirrors (inner c cs) (inner' c.latched (cs.map Frame.latched)) latched w) (n : Nat)
    (f : Frame) (calls : List Frame) (w : World) (h : ∀ x ∈ f :: calls, x.Grounded) :
    Mirrors (takeTurns env inner n f calls)
      (Latched.takeTurns env inner' n f.latched (calls.map Frame.latched)) latched w := by
  induction n generalizing f calls w with
  | zero => exact mirrors_pure rfl
  | succ n ih =>
    obtain ⟨hf, hcalls⟩ := List.forall_mem_cons.1 h
    refine mirrors_bind fun g u _ => ?_
    rw [← Frame.latched_forgetOwner]
    have hgo (v : World) := mirrors_goTurn ih (hf.forgetOwner g.field.id) v
    cases calls with
    | nil => exact hgo u
    | cons c cs =>
      refine (hinner c cs u hcalls).bind fun called v _ => ?_
      have hsame : called.latched.frame.frame.isRunning = called.isRunning := rfl
      rw [hsame]
      cases called.isRunning with
      | true => exact mirrors_pure rfl
      | false => exact hgo v

/-- An update of a chain of grounded frames does what the latches do. -/
theorem mirrors_updateFrames (levels : Nat) (f : Frame) (calls : List Frame) (w : World)
    (h : ∀ x ∈ f :: calls, x.Grounded) :
    Mirrors (updateFrames env levels f calls)
      (Latched.updateFrames env levels f.latched (calls.map Frame.latched)) latched w := by
  induction levels generalizing f calls w with
  | zero => rfl
  | succ levels ih => exact mirrors_takeTurns (fun c cs w h => ih c cs w h) _ f calls w h

/-- Every cause is the event that was called or the one thing that is waited for. -/
theorem call_or_cause_of_heldBy {f : Frame} {called : Option Latched} {a : Cause}
    (h : f.latched.HeldBy called a) :
    a = .call ∧ called.isSome = true ∨ f.pause.cause? = some a := by
  unfold Frame.latched at h
  cases a with
  | call => exact .inl ⟨rfl, h⟩
  | movement | keys | ticks | answer | animation =>
    refine .inr ?_
    cases hp : f.pause <;> simp_all [Latched.HeldBy, Pause.latches, Pause.cause?]

theorem eq_of_heldBy {f : Frame} {called : Option Latched}
    (hready : called.isSome = true → f.pause = .ready) {a b : Cause}
    (ha : f.latched.HeldBy called a) (hb : f.latched.HeldBy called b) : a = b := by
  have hown (c : Cause) (hsome : called.isSome = true) : f.pause.cause? ≠ some c := by
    rw [hready hsome]
    exact nofun
  rcases call_or_cause_of_heldBy ha with ⟨rfl, ha⟩ | ha
  · rcases call_or_cause_of_heldBy hb with ⟨rfl, -⟩ | hb
    · rfl
    · exact absurd hb (hown b ha)
  · rcases call_or_cause_of_heldBy hb with ⟨rfl, hb⟩ | hb
    · exact absurd ha (hown a hb)
    · exact Option.some.inj (ha.symm.trans hb)

/-- At any time one cause at most holds up a frame of an interpreter that comes about, and what
the frame waits for belongs to the command at hand. This is said of the frames with what they wait
for spread over latches, which take no part in the wait of each other and go along with every
update. -/
theorem one_cause_at_a_time {i : Interpreter} (h : i.Reachable) :
    (∀ level (x : Latched), i.latched.frames[level]? = some x →
      (∀ a b, x.HeldBy i.latched.frames[level + 1]? a → x.HeldBy i.latched.frames[level + 1]? b →
        a = b) ∧
      (∀ k, x.latches.goOn = some k →
        ∃ hpc : x.frame.pc < x.frame.commands.length,
          x.frame.commands[x.frame.pc].opcode ∈ k.opcodes) ∧
      (x.latches.animation = true →
        ∃ hpc : x.frame.pc < x.frame.commands.length,
          x.frame.commands[x.frame.pc].opcode = x.frame.context.animation)) ∧
    ∀ env levels w, Latched.update env levels i.latched w =
      (i.update env levels w).map fun r => (r.1.latched, r.2) := by
  refine ⟨fun level x hx => ?_, fun env levels w => ?_⟩
  · have hframes : i.latched.frames = i.frames.map Frame.latched := rfl
    rw [hframes, List.getElem?_map, Option.map_eq_some_iff] at hx
    obtain ⟨f, hf, rfl⟩ := hx
    have hgrounded := h.grounded hf
    refine ⟨fun a b ha hb => eq_of_heldBy (fun hsome => ?_) ha hb, fun k hk => ?_, fun ha => ?_⟩
    · rw [hframes, List.getElem?_map, Option.isSome_map] at hsome
      exact h.ready_of_called hf hsome
    · obtain ⟨c, hc, hop⟩ := hgrounded.goOn k (Pause.eq_goOn_of_latches hk)
      obtain ⟨hpc, rfl⟩ := List.getElem?_eq_some_iff.1 hc
      exact ⟨hpc, hop⟩
    · obtain ⟨c, hc, hop⟩ := hgrounded.animation (Pause.eq_animation_of_latches ha)
      obtain ⟨hpc, rfl⟩ := List.getElem?_eq_some_iff.1 hc
      exact ⟨hpc, List.mem_singleton.1 hop⟩
  · exact mirrors_updateFrames levels i.frame i.calls w h.groundedAlong.1

/-- A database in which the common event 1 opens a shop. -/
def market : Database where
  commonEvents := [{ id := 1, commands := [{ code := FieldOp.openShop.code, params := [0] }] }]

/-- Calls the common event 1. -/
def shopping : List Command := [{ code := FieldOp.callEvent.code, params := [0, 1] }]

/-- In the shop, the called event waits for the goods and its caller for nothing but that event. -/
theorem shopping_held_by_one_each : ∃ i : Interpreter, i.Reachable ∧
    ∃ caller called, i.latched.frames = [caller, called] ∧
      (∀ a, caller.HeldBy (some called) a → a = .call) ∧
      called.latches.goOn = some .shop ∧ (∀ a, called.HeldBy none a → a = .answer) := by
  let i : Interpreter := { frame := { Frame.idle .field 0 true with
    commands := shopping, jumps := { places := [none] }, mapId := 1 } }
  have hstart : (idle .field 0 true).start shopping 0 1 = .ok i := rfl
  have hi : i.Reachable := .start (.idle .field 0 true) hstart
  obtain ⟨⟨⟨caller, calls⟩, w⟩, hrun, hcalls, hpauses⟩ :
      ∃ p, i.update ⟨market, {}⟩ 3 { game := Game.begin market default } = .ok p ∧
        p.1.calls.length = 1 ∧ ∀ f ∈ p.1.calls, f.pause = .goOn .shop := by
    decide +kernel
  obtain ⟨called, rfl⟩ := List.length_eq_one_iff.1 hcalls
  have hj : Reachable { frame := caller, calls := [called] } := .update hi hrun
  have hgoOn : called.latched.latches.goOn = some .shop := by
    rw [Frame.latched, hpauses called (List.mem_singleton.2 rfl)]
    rfl
  have hshop : called.latched.HeldBy none .answer := by rw [Latched.HeldBy, hgoOn]; rfl
  obtain ⟨hall, -⟩ := one_cause_at_a_time hj
  obtain ⟨hcaller, -⟩ := hall 0 caller.latched rfl
  obtain ⟨hcalled, -⟩ := hall 1 called.latched rfl
  exact ⟨_, hj, caller.latched, called.latched, rfl, fun a ha => hcaller a .call ha rfl, hgoOn,
    fun a ha => hcalled a .answer ha hshop⟩

end Interpreter

end EventScript
