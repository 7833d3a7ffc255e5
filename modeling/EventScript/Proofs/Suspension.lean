import EventScript.Proofs.Awaiting
import EventScript.Proofs.Reachable

/-!
# What a frame waits for

* `Frame.Grounded` says that what a frame waits for is still to come and belongs to the command at
  hand, and `grounded_of_turn` that every turn keeps it so.
* `Reachable.grounded` and `Reachable.ready_of_called`: every frame of an interpreter that comes
  about is grounded, and one that called an event waits for nothing besides.
-/

namespace EventScript

open Act

theorem Pause.ne_zero_of_ofTicks {n m : UInt32} (h : Pause.ofTicks n = .ticks m) : m ≠ 0 := by
  unfold Pause.ofTicks at h
  split at h
  · cases h
  · next hn =>
    cases h
    exact hn

theorem Pause.ofTicks_ne_animation (n : UInt32) : Pause.ofTicks n ≠ .animation := by
  unfold Pause.ofTicks
  split <;> exact nofun

namespace Frame

/-- What a frame waits for is still to come, and belongs to the command at hand. -/
structure Grounded (f : Frame) : Prop where
  ticks : ∀ n, f.pause = .ticks n → n ≠ 0
  goOn : ∀ k, f.pause = .goOn k → f.HasAt f.pc k.opcodes
  animation : f.pause = .animation → f.HasAt f.pc [f.context.animation]

variable {env : Env} {f f' : Frame}

theorem grounded_of_ready (h : f.pause = .ready) : f.Grounded where
  ticks _ hn := absurd (h.symm.trans hn) nofun
  goOn _ hk := absurd (h.symm.trans hk) nofun
  animation ha := absurd (h.symm.trans ha) nofun

theorem grounded_of_counts {n : UInt32} (h : f.pause = Pause.ofTicks n) : f.Grounded where
  ticks _ hm := Pause.ne_zero_of_ofTicks (h.symm.trans hm)
  goOn k hk := absurd (h.symm.trans hk) (Pause.ofTicks_ne_goOn n k)
  animation ha := absurd (h.symm.trans ha) (Pause.ofTicks_ne_animation n)

theorem Grounded.forgetOwner (h : f.Grounded) (mapId : Number) :
    (f.forgetOwner mapId).Grounded := by
  unfold Frame.forgetOwner
  split
  · exact h
  · exact ⟨h.ticks, h.goOn, h.animation⟩

/-- What a turn leaves grounded: the frame, and the event that it called, for which alone it
waits. -/
def LeavesGrounded (t : Turn) : Prop :=
  t.frame.Grounded ∧ ∀ c, t.called = some c → c.Grounded ∧ t.frame.pause = .ready

theorem leavesGrounded_alone {s : Signal} (h : f.Grounded) :
    LeavesGrounded { frame := f, signal := s } :=
  ⟨h, nofun⟩

theorem grounded_settle {o : Outcome} (hf : f.Grounded) (ho : f.Warrants o) (w : World) :
    Ensures (f.settle env o) w fun t _ => LeavesGrounded t := by
  cases o with
  | next | rest => exact ensures_pure.2 (leavesGrounded_alone (grounded_of_ready rfl))
  | retry => exact ensures_pure.2 (leavesGrounded_alone hf)
  | follow | capture => exact ensures_pure.2 (leavesGrounded_alone ⟨nofun, nofun, nofun⟩)
  | wait => exact ensures_pure.2 (leavesGrounded_alone (grounded_of_counts rfl))
  | await place k =>
    refine ensures_pure.2 (leavesGrounded_alone ⟨nofun, fun k' hk' => ?_, nofun⟩)
    cases hk'
    exact HasAt.of_commands ho rfl
  | animate =>
    exact ensures_pure.2 (leavesGrounded_alone ⟨nofun, nofun, fun _ => HasAt.of_commands ho rfl⟩)
  | call commands owner =>
    refine Ensures.bind (ensures_callee env f commands owner w) fun c u hc => ?_
    refine ensures_pure.2 ⟨grounded_of_ready rfl, fun c' hc' => ?_⟩
    cases hc'
    exact ⟨grounded_of_ready hc.2.pause, rfl⟩

theorem grounded_of_proceeds {w w' : World} {t : Turn} (hf : f.Grounded)
    (hpause : f.pause = .ready ∨ f.pause = .animation ∨ ∃ k, f.pause = .goOn k)
    (h : f.Proceeds env w t w') : LeavesGrounded t := by
  cases h with
  | held | ended | idles => exact leavesGrounded_alone hf
  | @resumes k o u _ _ _ hk ho ht =>
    have hwarrants : f.ready.Warrants o :=
      Commands.warranted_goOn env (HasAt.of_commands (hf.goOn k hk) rfl) w o u ho
    exact grounded_settle (grounded_of_ready rfl) hwarrants u t w' ht
  | @performs c o u _ _ _ hk hc ho ht =>
    have hwarrants : f.Warrants o := Commands.warranted_perform env hc w o u ho
    exact grounded_settle hf hwarrants u t w' ht
  | finishes hk hc hrun hfinish =>
    obtain ⟨-, rfl⟩ := ensures_finish f w _ _ hfinish
    refine leavesGrounded_alone (grounded_of_ready ?_)
    rcases hpause with hp | hp | ⟨k, hp⟩
    · exact hp
    · -- past the end of the list stands no command that plays an animation
      obtain ⟨c, hc', -⟩ := hf.animation hp
      rw [hc] at hc'
      cases hc'
    · exact absurd hp (hk k)
  | starts hrun hroot hs =>
    obtain ⟨-, hs⟩ := ensures_startNext env f w _ _ hs
    exact leavesGrounded_alone (grounded_of_ready (hs _ rfl).pause)

/-- Every turn leaves its frames grounded. -/
theorem grounded_of_turn (env : Env) (hf : f.Grounded) (w : World) :
    Ensures (f.turn env) w fun t _ => LeavesGrounded t := by
  refine (turns_of_turn env f w).imp fun t w' h => ?_
  cases h with
  | reads | follows => exact leavesGrounded_alone hf
  | counts => exact leavesGrounded_alone (grounded_of_counts rfl)
  | polls => exact leavesGrounded_alone ⟨nofun, nofun, nofun⟩
  | hits _ _ h | followed _ _ h => exact grounded_of_proceeds (grounded_of_ready rfl) (.inl rfl) h
  | goes _ hk h => exact grounded_of_proceeds hf hk h

end Frame

namespace Interpreter

theorem keptAlong_grounded (env : Env) :
    KeptAlong env Frame.Grounded fun f _ => f.pause = .ready where
  forget f mapId h := h.forgetOwner mapId
  forgetCaller f c mapId h := by
    unfold Frame.forgetOwner
    split <;> exact h
  forgetCalled f c mapId h := h
  turn f w hf := (Frame.grounded_of_turn env hf w).imp fun t _ ht => ⟨ht.1, ht.2, fun _ hg => hg⟩

variable {i : Interpreter} {level : Nat} {f : Frame}

theorem Reachable.groundedAlong (h : i.Reachable) :
    (∀ x ∈ i.frames, x.Grounded) ∧ i.frames.IsChain fun f _ => f.pause = .ready :=
  h.along keptAlong_grounded (fun _ _ _ => Frame.grounded_of_ready rfl)
    fun _ _ _ _ _ hs => Frame.grounded_of_ready (Frame.startedAs_of_start hs).pause

theorem Reachable.grounded (h : i.Reachable) (hf : i.frames[level]? = some f) : f.Grounded :=
  h.groundedAlong.1 f (List.mem_of_getElem? hf)

/-- A frame that called an event waits for nothing else. -/
theorem Reachable.ready_of_called (h : i.Reachable) (hf : i.frames[level]? = some f)
    (hcalled : i.frames[level + 1]?.isSome = true) : f.pause = .ready := by
  obtain ⟨_, rfl⟩ := List.getElem?_eq_some_iff.1 hf
  have hlt : level + 1 < i.frames.length := by simpa using hcalled
  exact List.isChain_iff_getElem.1 h.groundedAlong.2 level hlt

end Interpreter

end EventScript
