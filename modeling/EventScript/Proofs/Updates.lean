import EventScript.Proofs.Traces

/-!
# What an update is made of

Whatever the budget and the levels, an update is made of turns of innermost frames, and of events
that are dropped when they have run out of commands.

* `Interpreter.Updated` builds an update from these parts, and `updated_of_update` shows that every
  update is built so.
* `Updated.keeps`: what every turn keeps, of the world and of the frames, an update keeps; and
  where turns lead along a relation between worlds, so does an update (`leads_of_turns`).
-/

namespace EventScript.Interpreter

/-- What an update of a frame with its events can be made of. -/
inductive Updated (env : Env) : Frame → List Frame → World → Interpreter → World → Prop
  | spent {f : Frame} {calls : List Frame} {w : World} :
      Updated env f calls w { frame := f, calls } w
  | forgets {f : Frame} {calls : List Frame} {w w' : World} {i : Interpreter}
      (h : Updated env (f.forgetOwner w.game.field.id) calls w i w') : Updated env f calls w i w'
  | yields {f : Frame} {w w' : World} {t : Turn} (ht : f.turn env w = .ok (t, w'))
      (hs : t.signal = .yield) :
      Updated env f [] w { frame := t.frame, calls := t.called.toList } w'
  | again {f : Frame} {w w' w'' : World} {t : Turn} {i : Interpreter}
      (ht : f.turn env w = .ok (t, w')) (hs : t.signal = .again)
      (h : Updated env t.frame t.called.toList w' i w'') : Updated env f [] w i w''
  | inner {f c : Frame} {cs : List Frame} {w w' : World} {i : Interpreter}
      (h : Updated env c cs w i w') (hrun : i.isRunning = true) :
      Updated env f (c :: cs) w { frame := f, calls := i.frames } w'
  | ended {f c : Frame} {cs : List Frame} {w w' w'' : World} {i j : Interpreter}
      (h : Updated env c cs w i w') (hrun : i.isRunning = false) (h' : Updated env f [] w' j w'') :
      Updated env f (c :: cs) w j w''

variable {env : Env}

/-- The turns of an update are its parts. -/
theorem Traced.updated {n : Nat} {f : Frame} {calls : List Frame} {w w' : World} {l : List Taken}
    {i : Interpreter} (h : Traced env n f calls w l i w') : Updated env f calls w i w' := by
  induction h with
  | spent => exact .spent
  | forgets _ ih => exact .forgets ih
  | yields ht hs => exact .yields ht hs
  | again ht hs _ ih => exact .again ht hs ih
  | inner _ hrun ih => exact .inner ih hrun
  | ended _ hrun _ ih ih' => exact .ended ih hrun ih'

theorem updated_of_updateFrames (levels : Nat) (f : Frame) (calls : List Frame) (w : World) :
    Ensures (updateFrames env levels f calls) w (Updated env f calls w) := by
  refine (traced_of_updateFrames levels f calls w).imp fun i w' h => ?_
  obtain ⟨l, hl⟩ := h
  exact hl.updated

theorem updated_of_update (levels : Nat) (i : Interpreter) (w : World) :
    Ensures (i.update env levels) w (Updated env i.frame i.calls w) :=
  updated_of_updateFrames levels i.frame i.calls w

/-- What turns keep of the world, and of the frames. -/
structure KeptByTurns (env : Env) (I : World → Prop) (P : Frame → Prop) : Prop where
  forget : ∀ f mapId, P f → P (f.forgetOwner mapId)
  turn : ∀ f w, P f → I w →
    Ensures (f.turn env) w fun t w' => I w' ∧ P t.frame ∧ ∀ c, t.called = some c → P c

/-- What every turn keeps, an update keeps. -/
theorem Updated.keeps {I : World → Prop} {P : Frame → Prop} (hk : KeptByTurns env I P) {f : Frame}
    {calls : List Frame} {w w' : World} {i : Interpreter} (h : Updated env f calls w i w')
    (hP : ∀ x ∈ f :: calls, P x) (hw : I w) : I w' ∧ ∀ x ∈ i.frames, P x := by
  have hturned {t : Turn} (ht : P t.frame ∧ ∀ c, t.called = some c → P c) :
      ∀ x ∈ t.frame :: t.called.toList, P x :=
    List.forall_mem_cons.2 ⟨ht.1, fun x hx => ht.2 x (Option.mem_toList.1 hx)⟩
  induction h with
  | spent => exact ⟨hw, hP⟩
  | forgets _ ih =>
    obtain ⟨hf, hcalls⟩ := List.forall_mem_cons.1 hP
    exact ih (List.forall_mem_cons.2 ⟨hk.forget _ _ hf, hcalls⟩) hw
  | yields ht _ =>
    obtain ⟨hw', ht'⟩ := hk.turn _ _ (hP _ (by simp)) hw _ _ ht
    exact ⟨hw', hturned ht'⟩
  | again ht _ _ ih =>
    obtain ⟨hw', ht'⟩ := hk.turn _ _ (hP _ (by simp)) hw _ _ ht
    exact ih (hturned ht') hw'
  | inner _ _ ih =>
    obtain ⟨hf, hcalls⟩ := List.forall_mem_cons.1 hP
    obtain ⟨hw', hi⟩ := ih hcalls hw
    exact ⟨hw', List.forall_mem_cons.2 ⟨hf, hi⟩⟩
  | ended _ _ _ ih ih' =>
    obtain ⟨hf, hcalls⟩ := List.forall_mem_cons.1 hP
    obtain ⟨hw', -⟩ := ih hcalls hw
    exact ih' (List.forall_mem_cons.2 ⟨hf, nofun⟩) hw'

/-- Where every turn leads along a relation that goes on from turn to turn, an update does. -/
theorem leads_of_turns {env : Env} {R : World → World → Prop} (hrefl : ∀ w, R w w)
    (htrans : ∀ {u v w : World}, R u v → R v w → R u w)
    (hturn : ∀ (f : Frame) (w : World), Ensures (f.turn env) w fun _ w' => R w w')
    (levels : Nat) (i : Interpreter) (w : World) :
    Ensures (i.update env levels) w fun _ w' => R w w' := by
  have hkept : KeptByTurns env (R w) fun _ => True := by
    refine ⟨fun _ _ _ => trivial, fun f u _ hu => ?_⟩
    exact (hturn f u).imp fun t u' h => ⟨htrans hu h, trivial, fun _ _ => trivial⟩
  intro j w' hj
  exact ((updated_of_update levels i w j w' hj).keeps hkept (fun _ _ => trivial) (hrefl w)).1

end EventScript.Interpreter
