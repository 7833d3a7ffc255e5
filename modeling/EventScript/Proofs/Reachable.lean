import EventScript.Proofs.Updates
import Mathlib.Data.List.Chain

/-!
# The interpreters that come about

* `Interpreter.Reachable` holds of an interpreter that was made, started and updated any number of
  times, whatever became of the world in between.
* `Updated.keepsAlong`: what turns keep of single frames, and of a frame and the one that it
  called, an update keeps of the whole chain.
* `Reachable.along`: so it holds all along the chain of every interpreter that comes about.
-/

namespace EventScript.Interpreter

/-- An interpreter that comes about. Every start and every update may meet another world, another
host and another database. -/
inductive Reachable : Interpreter → Prop
  | idle (context : Context) (depth : UInt32) (isRoot : Bool) :
      Reachable (idle context depth isRoot)
  | start {i j : Interpreter} {commands : List Command} {owner mapId : Number} (h : Reachable i)
      (hs : i.start commands owner mapId = .ok j) : Reachable j
  | update {env : Env} {levels : Nat} {i j : Interpreter} {w w' : World} (h : Reachable i)
      (hu : i.update env levels w = .ok (j, w')) : Reachable j

/-- What turns keep of the frames, and of a frame `f` and the frame `c` that it called. -/
structure KeptAlong (env : Env) (P : Frame → Prop) (R : Frame → Frame → Prop) : Prop where
  forget : ∀ f mapId, P f → P (f.forgetOwner mapId)
  forgetCaller : ∀ f c mapId, R f c → R (f.forgetOwner mapId) c
  forgetCalled : ∀ f c mapId, R f c → R f (c.forgetOwner mapId)
  turn : ∀ f w, P f → Ensures (f.turn env) w fun t _ =>
    P t.frame ∧ (∀ c, t.called = some c → P c ∧ R t.frame c) ∧ ∀ g, R g f → R g t.frame

section

variable {env : Env} {P : Frame → Prop} {R : Frame → Frame → Prop}

/-- The frame after a turn, with the one that it called. -/
theorem isChain_turned {t : Turn} (hP : P t.frame)
    (hc : ∀ c, t.called = some c → P c ∧ R t.frame c) :
    (∀ x ∈ t.frame :: t.called.toList, P x) ∧ (t.frame :: t.called.toList).IsChain R := by
  cases h : t.called with
  | none => simpa using hP
  | some c =>
    obtain ⟨hPc, hRc⟩ := hc c h
    simpa using ⟨⟨hP, hPc⟩, hRc⟩

/-- The first frame of the chain can take the place of the one before the update below any frame
that called it, which carries the induction through the levels. -/
theorem Updated.keepsAlong (hk : KeptAlong env P R) {f : Frame} {calls : List Frame} {w w' : World}
    {i : Interpreter} (h : Updated env f calls w i w') (hP : ∀ x ∈ f :: calls, P x)
    (hR : (f :: calls).IsChain R) :
    (∀ x ∈ i.frames, P x) ∧ i.frames.IsChain R ∧ ∀ g, R g f → R g i.frame := by
  induction h with
  | spent => exact ⟨hP, hR, fun _ hg => hg⟩
  | @forgets f calls w w' i _ ih =>
    obtain ⟨hf, hcalls⟩ := List.forall_mem_cons.1 hP
    have hR' : (f.forgetOwner w.game.field.id :: calls).IsChain R := by
      cases calls with
      | nil => exact .singleton _
      | cons c cs =>
        obtain ⟨hfc, hcs⟩ := List.isChain_cons_cons.1 hR
        exact List.isChain_cons_cons.2 ⟨hk.forgetCaller f c _ hfc, hcs⟩
    obtain ⟨hi, hchain, hlink⟩ := ih (List.forall_mem_cons.2 ⟨hk.forget f _ hf, hcalls⟩) hR'
    exact ⟨hi, hchain, fun g hg => hlink g (hk.forgetCalled g f _ hg)⟩
  | yields ht _ =>
    obtain ⟨hf, hc, hlink⟩ := hk.turn _ _ (hP _ (by simp)) _ _ ht
    obtain ⟨hall, hchain⟩ := isChain_turned hf hc
    exact ⟨hall, hchain, hlink⟩
  | again ht _ _ ih =>
    obtain ⟨hf, hc, hlink⟩ := hk.turn _ _ (hP _ (by simp)) _ _ ht
    obtain ⟨hall, hchain⟩ := isChain_turned hf hc
    obtain ⟨hi, hchain', hlink'⟩ := ih hall hchain
    exact ⟨hi, hchain', fun g hg => hlink' g (hlink g hg)⟩
  | inner _ _ ih =>
    obtain ⟨hf, hcalls⟩ := List.forall_mem_cons.1 hP
    obtain ⟨hfc, hcs⟩ := List.isChain_cons_cons.1 hR
    obtain ⟨hi, hchain, hlink⟩ := ih hcalls hcs
    exact ⟨List.forall_mem_cons.2 ⟨hf, hi⟩, List.isChain_cons_cons.2 ⟨hlink _ hfc, hchain⟩,
      fun _ hg => hg⟩
  | ended _ _ _ _ ih' =>
    obtain ⟨hf, -⟩ := List.forall_mem_cons.1 hP
    exact ih' (List.forall_mem_cons.2 ⟨hf, nofun⟩) (.singleton _)

/-- What holds of idle and of started frames and is kept by turns holds along every chain. -/
theorem Reachable.along (hk : ∀ env, KeptAlong env P R)
    (hidle : ∀ context depth isRoot, P (Frame.idle context depth isRoot))
    (hstart : ∀ (f s : Frame) commands owner mapId, f.start commands owner mapId = .ok s → P s)
    {i : Interpreter} (h : Reachable i) : (∀ x ∈ i.frames, P x) ∧ i.frames.IsChain R := by
  induction h with
  | idle context depth isRoot =>
    exact ⟨List.forall_mem_singleton.2 (hidle context depth isRoot), .singleton _⟩
  | @start i j commands owner mapId _ hs =>
    unfold Interpreter.start at hs
    cases hf : i.frame.start commands owner mapId with
    | error o => rw [hf] at hs; cases hs
    | ok f =>
      rw [hf] at hs
      cases hs
      exact ⟨List.forall_mem_singleton.2 (hstart _ _ _ _ _ hf), .singleton _⟩
  | update _ hu ih =>
    obtain ⟨hP, hR⟩ := ih
    obtain ⟨hP', hR', -⟩ := (updated_of_update _ _ _ _ _ hu).keepsAlong (hk _) hP hR
    exact ⟨hP', hR'⟩

end

end EventScript.Interpreter
