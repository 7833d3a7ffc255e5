import EventScript.Proofs.Levels
import EventScript.Proofs.TurnDeeds
import Mathlib.Data.List.Pairwise

/-!
# The turns of an update

An update runs commands in many frames. Here its turns are written down in their order, so that one
can tell what is done after what.

* `Interpreter.Traced` builds an update from its turns, frame by frame with the budget of each;
  `traced_of_update` shows that every update is built so.
* `Traced.ordered`: what every turn keeps between two worlds holds between any two turns, and
  `Traced.exists_turn`: what is brought about is brought about by a turn.
* `Traced.root_goes_on`: after a turn in which the root handed over the tick no other is taken.
* `Traced.begins`: the first turn is one of the innermost frame.
* `Traced.goes_on`: after a turn in which a frame did not hand over the tick, and called nothing, it
  takes the next one too, unless its budget is spent.
-/

namespace EventScript.Interpreter

/-- A turn that was taken: by which frame, in what world, what it left, and how many more turns the
budget of the frame had. -/
structure Taken where
  frame : Frame
  before : World
  turn : Turn
  after : World
  left : Nat

/-- The budget of a frame for one update. -/
def budget (env : Env) : Nat := env.data.config.maxIterations.toNat

/-- What is left of an update of a frame with its events, as the row of the turns that are taken in
it. The frame has a number of turns left, and those below it a budget of their own. -/
inductive Traced (env : Env) :
    Nat → Frame → List Frame → World → List Taken → Interpreter → World → Prop
  | spent {f : Frame} {calls : List Frame} {w : World} :
      Traced env 0 f calls w [] { frame := f, calls } w
  | forgets {n : Nat} {f : Frame} {calls : List Frame} {w w' : World} {l : List Taken}
      {i : Interpreter} (h : Traced env (n + 1) (f.forgetOwner w.game.field.id) calls w l i w') :
      Traced env (n + 1) f calls w l i w'
  | yields {n : Nat} {f : Frame} {w w' : World} {t : Turn} (ht : f.turn env w = .ok (t, w'))
      (hs : t.signal = .yield) : Traced env (n + 1) f [] w [⟨f, w, t, w', n⟩]
        { frame := t.frame, calls := t.called.toList } w'
  | again {n : Nat} {f : Frame} {w w' w'' : World} {t : Turn} {l : List Taken} {i : Interpreter}
      (ht : f.turn env w = .ok (t, w')) (hs : t.signal = .again)
      (h : Traced env n t.frame t.called.toList w' l i w'') :
      Traced env (n + 1) f [] w (⟨f, w, t, w', n⟩ :: l) i w''
  | inner {n : Nat} {f c : Frame} {cs : List Frame} {w w' : World} {l : List Taken}
      {i : Interpreter} (h : Traced env (budget env) c cs w l i w') (hrun : i.isRunning = true) :
      Traced env (n + 1) f (c :: cs) w l { frame := f, calls := i.frames } w'
  | ended {n : Nat} {f c : Frame} {cs : List Frame} {w w' w'' : World} {l l' : List Taken}
      {i j : Interpreter} (h : Traced env (budget env) c cs w l i w') (hrun : i.isRunning = false)
      (h' : Traced env (n + 1) f [] w' l' j w'') :
      Traced env (n + 1) f (c :: cs) w (l ++ l') j w''

variable {env : Env} {n : Nat} {f : Frame} {calls : List Frame} {w w' : World} {l : List Taken}
  {i : Interpreter}

/-! ## Every update is a row of turns -/

theorem traced_of_goTurn {inner : Frame → List Frame → Process Interpreter}
    (ih : ∀ f calls w, Ensures (takeTurns env inner n f calls) w fun i w' =>
      ∃ l, Traced env n f calls w l i w') (f : Frame) (w : World) :
    Ensures (goTurn env inner n f : Process Interpreter) w fun i w' =>
      ∃ l, Traced env (n + 1) f [] w l i w' := by
  intro i w' h
  unfold goTurn at h
  cases ht : f.turn env w with
  | error o => rw [ht] at h; cases h
  | ok p =>
    obtain ⟨t, u⟩ := p
    rw [ht] at h
    cases hs : t.signal with
    | yield =>
      simp only [hs] at h
      cases h
      exact ⟨_, .yields ht hs⟩
    | again =>
      simp only [hs] at h
      obtain ⟨l, hl⟩ := ih _ _ _ i w' h
      exact ⟨_, .again ht hs hl⟩

theorem traced_of_takeTurns {inner : Frame → List Frame → Process Interpreter}
    (hinner : ∀ c cs w, Ensures (inner c cs) w fun i w' =>
      ∃ l, Traced env (budget env) c cs w l i w')
    (n : Nat) (f : Frame) (calls : List Frame) (w : World) :
    Ensures (takeTurns env inner n f calls) w fun i w' => ∃ l, Traced env n f calls w l i w' := by
  induction n generalizing f calls w with
  | zero => exact ensures_pure.2 ⟨[], .spent⟩
  | succ n ih =>
    intro i w' h
    cases calls with
    | nil =>
      rw [takeTurns_nil] at h
      obtain ⟨l, hl⟩ := traced_of_goTurn ih _ w i w' h
      exact ⟨l, .forgets hl⟩
    | cons c cs =>
      rw [takeTurns_cons] at h
      cases hc : inner c cs w with
      | error e => rw [hc] at h; cases h
      | ok p =>
        obtain ⟨called, u⟩ := p
        obtain ⟨l, hl⟩ := hinner c cs w called u hc
        rw [hc] at h
        cases hrun : called.isRunning with
        | true =>
          simp only [hrun, if_true] at h
          cases h
          exact ⟨l, .forgets (.inner hl hrun)⟩
        | false =>
          simp only [hrun, Bool.false_eq_true, if_false] at h
          obtain ⟨l', hl'⟩ := traced_of_goTurn ih _ u i w' h
          exact ⟨l ++ l', .forgets (.ended hl hrun hl')⟩

theorem traced_of_updateFrames (levels : Nat) (f : Frame) (calls : List Frame) (w : World) :
    Ensures (updateFrames env levels f calls) w fun i w' =>
      ∃ l, Traced env (budget env) f calls w l i w' := by
  induction levels generalizing f calls w with
  | zero => exact fun i w' h => nomatch h
  | succ levels ih => exact traced_of_takeTurns ih _ f calls w

/-- Every update is a row of turns. -/
theorem traced_of_update (levels : Nat) (i : Interpreter) (w : World) :
    Ensures (i.update env levels) w fun j w' =>
      ∃ l, Traced env (budget env) i.frame i.calls w l j w' :=
  traced_of_updateFrames levels i.frame i.calls w

/-! ## What holds along the row -/

/-- The turns were taken. -/
theorem Traced.taken (h : Traced env n f calls w l i w') :
    ∀ x ∈ l, x.frame.turn env x.before = .ok (x.turn, x.after) := by
  induction h with
  | spent => exact List.forall_mem_nil _
  | forgets _ ih | inner _ _ ih => exact ih
  | yields ht _ => exact List.forall_mem_singleton.2 ht
  | again ht _ _ ih => exact List.forall_mem_cons.2 ⟨ht, ih⟩
  | ended _ _ _ ih ih' => exact List.forall_mem_append.2 ⟨ih, ih'⟩

/-- What holds between the worlds before and after every turn holds from each turn to all that come
after it. -/
theorem Traced.ordered {R : World → World → Prop} (hrefl : ∀ w, R w w)
    (htrans : ∀ {u v w}, R u v → R v w → R u w)
    (hturn : ∀ (f : Frame) w, Ensures (f.turn env) w fun _ w' => R w w')
    (h : Traced env n f calls w l i w') :
    R w w' ∧ (∀ x ∈ l, R w x.before ∧ R x.after w') ∧ l.Pairwise fun x y => R x.after y.before := by
  induction h with
  | spent => exact ⟨hrefl _, List.forall_mem_nil _, .nil⟩
  | forgets _ ih | inner _ _ ih => exact ih
  | yields ht _ =>
    exact ⟨hturn _ _ _ _ ht, List.forall_mem_singleton.2 ⟨hrefl _, hrefl _⟩,
      List.pairwise_singleton _ _⟩
  | again ht _ _ ih =>
    have hfirst := hturn _ _ _ _ ht
    obtain ⟨hall, heach, hpairs⟩ := ih
    refine ⟨htrans hfirst hall, List.forall_mem_cons.2 ⟨⟨hrefl _, hall⟩, fun x hx => ?_⟩, ?_⟩
    · exact ⟨htrans hfirst (heach x hx).1, (heach x hx).2⟩
    · exact List.pairwise_cons.2 ⟨fun x hx => (heach x hx).1, hpairs⟩
  | ended _ _ _ ih ih' =>
    obtain ⟨hall, heach, hpairs⟩ := ih
    obtain ⟨hall', heach', hpairs'⟩ := ih'
    refine ⟨htrans hall hall', List.forall_mem_append.2 ⟨fun x hx => ?_, fun x hx => ?_⟩,
      List.pairwise_append.2 ⟨hpairs, hpairs', fun x hx y hy => ?_⟩⟩
    · exact ⟨(heach x hx).1, htrans (heach x hx).2 hall'⟩
    · exact ⟨htrans hall (heach' x hx).1, (heach' x hx).2⟩
    · exact htrans (heach x hx).2 (heach' y hy).1

/-- What an update brings about one of its turns brings about. -/
theorem Traced.exists_turn {P : World → Prop} (h : Traced env n f calls w l i w') (hw : ¬ P w)
    (hw' : P w') : ∃ before x after, l = before ++ x :: after ∧ ¬ P x.before ∧ P x.after := by
  induction h with
  | spent => exact absurd hw' hw
  | forgets _ ih | inner _ _ ih => exact ih hw hw'
  | yields => exact ⟨[], _, [], rfl, hw, hw'⟩
  | @again n f w u w'' t l i _ _ _ ih =>
    by_cases hu : P u
    · exact ⟨[], _, l, rfl, hw, hu⟩
    · obtain ⟨before, x, after, rfl, hx⟩ := ih hu hw'
      exact ⟨_ :: before, x, after, rfl, hx⟩
  | @ended n f c cs w u w'' l l' i j _ _ _ ih ih' =>
    by_cases hu : P u
    · obtain ⟨before, x, after, rfl, hx⟩ := ih hw hu
      exact ⟨before, x, after ++ l', by simp, hx⟩
    · obtain ⟨before, x, after, rfl, hx⟩ := ih' hu hw'
      exact ⟨l ++ before, x, after, by simp, hx⟩

/-! ## Which turn comes next -/

/-- The event that a turn calls looks for no other. -/
theorem isRoot_of_called {t : Turn} (ht : f.turn env w = .ok (t, w')) :
    ∀ c ∈ t.called.toList, c.isRoot = false := by
  intro c hc
  obtain ⟨hturned, -⟩ := Frame.turned_of_turn env f w t w' ht
  obtain ⟨-, _, _, _, _, hby⟩ := hturned.called c (Option.mem_toList.1 hc)
  exact hby.isRoot

/-- Frames that look for no event take turns that look for none. -/
theorem Traced.servants (h : Traced env n f calls w l i w')
    (hf : ∀ x ∈ f :: calls, x.isRoot = false) : ∀ x ∈ l, x.frame.isRoot = false := by
  induction h with
  | spent => exact List.forall_mem_nil _
  | forgets _ ih =>
    obtain ⟨hf, hcalls⟩ := List.forall_mem_cons.1 hf
    refine ih (List.forall_mem_cons.2 ⟨?_, hcalls⟩)
    unfold Frame.forgetOwner
    split <;> exact hf
  | yields => exact List.forall_mem_singleton.2 (hf _ List.mem_cons_self)
  | again ht _ _ ih =>
    have hf := hf _ List.mem_cons_self
    obtain ⟨hturned, -⟩ := Frame.turned_of_turn _ _ _ _ _ ht
    refine List.forall_mem_cons.2 ⟨hf, ih (List.forall_mem_cons.2 ⟨?_, isRoot_of_called ht⟩)⟩
    exact hturned.isRoot.trans hf
  | inner _ _ ih => exact ih (List.forall_mem_cons.1 hf).2
  | ended _ _ _ ih ih' =>
    obtain ⟨hf, hcalls⟩ := List.forall_mem_cons.1 hf
    exact List.forall_mem_append.2 ⟨ih hcalls, ih' (List.forall_mem_singleton.2 hf)⟩

/-- The root takes another turn in the same update only if it did not hand over the tick, and no
event that it called takes one either. -/
theorem Traced.root_goes_on (h : Traced env n f calls w l i w')
    (hcalls : ∀ c ∈ calls, c.isRoot = false) :
    l.Pairwise fun x _ => x.frame.isRoot = true → x.turn.signal = .again := by
  have hservants {l : List Taken} (hl : ∀ x ∈ l, x.frame.isRoot = false) :
      ∀ x ∈ l, x.frame.isRoot = true → x.turn.signal = .again := by
    intro x hx hroot
    rw [hl x hx] at hroot
    cases hroot
  -- In the update of a called event no turn is one of the root.
  induction h with
  | spent => exact .nil
  | forgets _ ih => exact ih hcalls
  | yields => exact List.pairwise_singleton _ _
  | again ht hs _ ih =>
    exact List.pairwise_cons.2 ⟨fun _ _ _ => hs, ih (isRoot_of_called ht)⟩
  | inner h _ _ =>
    exact List.pairwise_of_forall_mem_list fun x hx _ _ => hservants (h.servants hcalls) x hx
  | ended h _ _ _ ih' =>
    have hl := hservants (h.servants hcalls)
    refine List.pairwise_append.2 ⟨?_, ih' nofun, fun x hx _ _ => hl x hx⟩
    exact List.pairwise_of_forall_mem_list fun x hx _ _ => hl x hx

/-- The frame of the last event that was called. -/
def innermost (i : Interpreter) : Frame := i.calls.getLast?.getD i.frame

theorem innermost_cons (f c : Frame) (cs : List Frame) :
    innermost { frame := f, calls := c :: cs } = innermost { frame := c, calls := cs } := by
  simp only [innermost, List.getLast?_cons, Option.getD_some]

/-- Some turn follows at once in which a frame stands where another one left its list. -/
def Continues (u : World) (f : Frame) (l : List Taken) : Prop :=
  ∃ y rest, l = y :: rest ∧ y.before = u ∧ y.frame.commands = f.commands ∧ y.frame.pc = f.pc

/-- A frame that goes on and has called nothing takes the next turn too, if it has one left. -/
def GoesOn (l : List Taken) : Prop :=
  ∀ before x after, l = before ++ x :: after → x.turn.signal = .again → x.turn.called = none →
    x.left ≠ 0 → Continues x.after x.turn.frame after

theorem goesOn_nil : GoesOn [] := by
  intro before x after hl
  cases before <;> cases hl

theorem GoesOn.cons {x : Taken} (hl : GoesOn l)
    (hx : x.turn.signal = .again → x.turn.called = none → x.left ≠ 0 →
      Continues x.after x.turn.frame l) : GoesOn (x :: l) := by
  intro before y after h
  cases before with
  | nil =>
    cases h
    exact hx
  | cons z before =>
    cases h
    exact hl before y after rfl

theorem GoesOn.append {l' : List Taken} (hl : GoesOn l) (hl' : GoesOn l') : GoesOn (l ++ l') := by
  induction l with
  | nil => exact hl'
  | cons x l ih =>
    have hrest : GoesOn l := by
      intro before y after h
      exact hl (x :: before) y after (h ▸ rfl)
    refine (ih hrest).cons fun hsignal hcalled hleft => ?_
    obtain ⟨y, rest, rfl, hy⟩ := hl [] x l rfl hsignal hcalled hleft
    exact ⟨y, rest ++ l', rfl, hy⟩

/-- An update begins with a turn of the innermost frame. -/
theorem Traced.begins (h : Traced env n f calls w l i w') (hn : n ≠ 0)
    (hbudget : calls = [] ∨ budget env ≠ 0) : ∃ y rest, l = y :: rest ∧ y.before = w ∧
      y.frame = { innermost { frame := f, calls } with owner := y.frame.owner } := by
  induction h with
  | spent => exact absurd rfl hn
  | @forgets n f calls w _ _ _ _ ih =>
    obtain ⟨y, rest, hl, hbefore, hframe⟩ := ih hn hbudget
    refine ⟨y, rest, hl, hbefore, hframe.trans ?_⟩
    cases calls with
    | nil =>
      change { f.forgetOwner w.game.field.id with owner := y.frame.owner } =
        { f with owner := y.frame.owner }
      unfold Frame.forgetOwner
      split <;> rfl
    | cons => rw [innermost_cons, innermost_cons]
  | yields | again => exact ⟨_, _, rfl, rfl, rfl⟩
  | inner _ _ ih =>
    have hbudget := hbudget.resolve_left nofun
    rw [innermost_cons]
    exact ih hbudget (.inr hbudget)
  | ended _ _ _ ih _ =>
    have hbudget := hbudget.resolve_left nofun
    rw [innermost_cons]
    obtain ⟨y, rest, rfl, hy⟩ := ih hbudget (.inr hbudget)
    exact ⟨y, _, rfl, hy⟩

/-- A frame with a turn left, which waits for no event, takes it first. -/
theorem Traced.continues (h : Traced env n f calls w l i w') (hn : n ≠ 0) (hcalls : calls = []) :
    Continues w f l := by
  subst hcalls
  obtain ⟨y, rest, hl, hbefore, hframe⟩ := h.begins hn (.inl rfl)
  exact ⟨y, rest, hl, hbefore, by rw [hframe]; rfl, by rw [hframe]; rfl⟩

theorem Traced.goes_on (h : Traced env n f calls w l i w') : GoesOn l := by
  induction h with
  | spent => exact goesOn_nil
  | forgets _ ih | inner _ _ ih => exact ih
  | yields _ hs =>
    refine goesOn_nil.cons fun hagain => ?_
    rw [hs] at hagain
    cases hagain
  | @again n f w w' w'' t l i _ _ h ih =>
    refine ih.cons fun _ hcalled hleft => ?_
    have hnone : t.called.toList = [] := by
      rw [show t.called = none from hcalled]
      rfl
    exact h.continues hleft hnone
  | ended _ _ _ ih ih' => exact ih.append ih'

end EventScript.Interpreter
