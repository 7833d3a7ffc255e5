import EventScript.Interpreter.Update
import EventScript.Proofs.Deeds

/-!
# What one turn does

* `Frame.Proceeds` and `Frame.Turns` list what a frame can do in one turn, with all that is known
  then; `turns_of_turn` shows that there is nothing else.
* `Frame.SameList` holds between frames that stand in the same list at the same level.
* `ensures_settle` tells what follows from what a command asks of its frame.
-/

namespace EventScript

open Act

theorem Pause.ofTicks_ne_goOn (n : UInt32) (k : Awaited) : Pause.ofTicks n ≠ .goOn k := by
  unfold Pause.ofTicks
  split <;> exact nofun

namespace Frame

/-- The same list, the same level and the same place in the tree of calls. -/
structure SameList (f f' : Frame) : Prop where
  context : f'.context = f.context
  depth : f'.depth = f.depth
  isRoot : f'.isRoot = f.isRoot
  commands : f'.commands = f.commands
  owner : f'.owner = f.owner
  mapId : f'.mapId = f.mapId

theorem SameList.refl (f : Frame) : f.SameList f := ⟨rfl, rfl, rfl, rfl, rfl, rfl⟩

/-- To forget an owner twice is to forget it once. -/
@[simp] theorem forgetOwner_idem (f : Frame) (mapId : Number) :
    (f.forgetOwner mapId).forgetOwner mapId = f.forgetOwner mapId := by
  by_cases h : f.mapId = mapId
  · simp [forgetOwner, h]
  · simp [forgetOwner, h]

/-- A frame that is at the start of a list, one level below another. -/
structure CalledBy (f c : Frame) (commands : List Command) (mapId : Number) : Prop where
  context : c.context = f.context
  depth : c.depth.toNat = f.depth.toNat + 1
  isRoot : c.isRoot = false
  commands : c.commands = commands
  mapId : c.mapId = mapId
  pc : c.pc = 0
  pause : c.pause = .ready

/-- What a turn leaves after a command asked for something. -/
structure Settles (f : Frame) (o : Outcome) (w : World) (t : Turn) (w' : World) : Prop where
  game : w'.game = w.game
  list : f.SameList t.frame
  called : ∀ c, t.called = some c →
    ∃ call, o.called? = some call ∧ f.CalledBy c call.1 w.game.field.id
  awaits : ∀ p k, o = .await p k →
    t.frame.pause = .goOn k ∧ t.called = none ∧ t.signal = .yield
  asked : ∀ k, t.frame.pause = .goOn k → f.pause = .goOn k ∨ ∃ p, o = .await p k

/-- Whether a scene, or a battle that is none of its own, holds the frame up. -/
def isHeld (f : Frame) (g : Game) : Bool :=
  g.scene.isBlocking || (f.context = .field && g.troop.isSome)

/-- What a frame does that waits for nothing but, at most, for a scene. -/
inductive Proceeds (env : Env) (f : Frame) (w : World) : Turn → World → Prop
  | held (h : f.isHeld w.game = true) : Proceeds env f w { frame := f, signal := .yield } w
  | resumes {k : Awaited} {o : Outcome} {u w' : World} {t : Turn} (hfree : f.isHeld w.game = false)
      (hk : f.pause = .goOn k) (ho : Commands.goOn env f.ready k w = .ok (o, u))
      (ht : f.ready.settle env o u = .ok (t, w')) : Proceeds env f w t w'
  | performs {c : Command} {o : Outcome} {u w' : World} {t : Turn}
      (hfree : f.isHeld w.game = false) (hk : ∀ k, f.pause ≠ .goOn k)
      (hc : f.commands[f.pc]? = some c) (ho : Commands.perform env f c w = .ok (o, u))
      (ht : f.settle env o u = .ok (t, w')) : Proceeds env f w t w'
  | finishes {f' : Frame} {w' : World} (hk : ∀ k, f.pause ≠ .goOn k)
      (hc : f.commands[f.pc]? = none) (hrun : f.isRunning = true)
      (hf : f.finish w = .ok (f', w')) : Proceeds env f w { frame := f', signal := .again } w'
  | starts {f' : Frame} {w' : World} (hrun : f.isRunning = false) (hroot : f.isRoot = true)
      (hf : f.startNext env w = .ok (some f', w')) :
      Proceeds env f w { frame := f', signal := .again } w'
  | idles {w' : World} (hrun : f.isRunning = false) (hroot : f.isRoot = true)
      (hf : f.startNext env w = .ok (none, w')) :
      Proceeds env f w { frame := f, signal := .yield } w'
  | ended (hrun : f.isRunning = false) (hroot : f.isRoot = false) :
      Proceeds env f w { frame := f, signal := .yield } w

/-- What a frame does in one turn. -/
inductive Turns (env : Env) (f : Frame) (w : World) : Turn → World → Prop
  | reads (h : w.game.message.waiting = true) :
      Turns env f w { frame := f, signal := .yield } w
  | follows (hk : f.pause = .movement) (h : w.game.field.anyMoving = true) :
      Turns env f w { frame := f, signal := .yield } w
  | followed {t : Turn} {w' : World} (hread : w.game.message.waiting = false)
      (hk : f.pause = .movement) (h : f.ready.Proceeds env w t w') : Turns env f w t w'
  | polls {k k' : KeyCapture} {w' : World} (hk : f.pause = .keys k)
      (h : Commands.pollKeys env k w = .ok (some k', w')) :
      Turns env f w { frame := { f with pause := .keys k' }, signal := .yield } w'
  | hits {k : KeyCapture} {t : Turn} {u w' : World} (hk : f.pause = .keys k)
      (hpoll : Commands.pollKeys env k w = .ok (none, u)) (h : f.ready.Proceeds env u t w') :
      Turns env f w t w'
  | counts {n : UInt32} (hread : w.game.message.waiting = false) (hk : f.pause = .ticks n) :
      Turns env f w { frame := { f with pause := Pause.ofTicks (n - 1) }, signal := .yield } w
  | goes {t : Turn} {w' : World} (hread : w.game.message.waiting = false)
      (hk : f.pause = .ready ∨ f.pause = .animation ∨ ∃ k, f.pause = .goOn k)
      (h : f.Proceeds env w t w') : Turns env f w t w'

/-- A frame that has just been started. -/
structure StartedAs (f s : Frame) (commands : List Command) (owner mapId : Number) : Prop where
  context : s.context = f.context
  depth : s.depth = f.depth
  isRoot : s.isRoot = f.isRoot
  commands : s.commands = commands
  owner : s.owner = owner
  mapId : s.mapId = mapId
  pc : s.pc = 0
  pause : s.pause = .ready

theorem startedAs_of_start {f s : Frame} {commands : List Command} {owner mapId : Number}
    (h : f.start commands owner mapId = .ok s) : f.StartedAs s commands owner mapId := by
  unfold start at h
  cases hjumps : Landings.ofCommands commands with
  | error e => rw [hjumps] at h; cases h
  | ok jumps =>
    rw [hjumps] at h
    cases h
    exact ⟨rfl, rfl, rfl, rfl, rfl, rfl, rfl, rfl⟩

theorem toNat_of_add_one {a b : UInt32} (h : Checked.add a 1 = .ok b) : b.toNat = a.toNat + 1 := by
  have h := Checked.fit_eq_ok_iff.1 h
  change (b.toNat : Int) = a.toNat + 1 at h
  omega

theorem ensures_callee (env : Env) (f : Frame) (commands : List Command) (owner : Number)
    (w : World) : Ensures (f.callee env commands owner) w
      fun c w' => w'.game = w.game ∧ f.CalledBy c commands w.game.field.id := by
  simp only [callee, ensures_bind, ensures_check, ensures_ite, ensures_warn, ensures_getGame]
  intro depth hdepth reported _
  have hstart (c : Frame)
      (hc : (Frame.idle f.context depth false).start commands owner w.game.field.id = .ok c) :
      f.CalledBy c commands w.game.field.id := by
    have hs := startedAs_of_start hc
    exact ⟨hs.context, by rw [hs.depth]; exact toNat_of_add_one hdepth, hs.isRoot, hs.commands,
      hs.mapId, hs.pc, hs.pause⟩
  exact ⟨fun _ c hc => ⟨trivial, hstart c hc⟩, fun _ c hc => ⟨trivial, hstart c hc⟩⟩

theorem ensures_settle (env : Env) (f : Frame) (o : Outcome) (w : World) :
    Ensures (f.settle env o) w (f.Settles o w) := by
  cases o with
  | next | rest | follow | animate | capture =>
    exact ensures_pure.2 ⟨rfl, ⟨rfl, rfl, rfl, rfl, rfl, rfl⟩, nofun, nofun, nofun⟩
  | retry =>
    exact ensures_pure.2 ⟨rfl, ⟨rfl, rfl, rfl, rfl, rfl, rfl⟩, nofun, nofun, fun _ h => .inl h⟩
  | wait n =>
    refine ensures_pure.2 ⟨rfl, ⟨rfl, rfl, rfl, rfl, rfl, rfl⟩, nofun, nofun, fun k h => ?_⟩
    exact absurd h (Pause.ofTicks_ne_goOn n k)
  | await place k =>
    refine ensures_pure.2 ⟨rfl, ⟨rfl, rfl, rfl, rfl, rfl, rfl⟩, nofun, fun p k' h => ?_,
      fun k' h => ?_⟩
    · cases h
      exact ⟨rfl, rfl, rfl⟩
    · cases h
      exact .inr ⟨place, rfl⟩
  | call commands owner =>
    refine Ensures.bind (ensures_callee env f commands owner w) fun c u hc => ?_
    refine ensures_pure.2 ⟨hc.1, ⟨rfl, rfl, rfl, rfl, rfl, rfl⟩, fun c' h => ?_, nofun, nofun⟩
    cases h
    exact ⟨_, rfl, hc.2⟩

theorem proceeds_of_proceed (env : Env) (f : Frame) (w : World) :
    Ensures (f.proceed env) w (f.Proceeds env w) := by
  simp only [proceed, ensures_bind, ensures_getGame, ensures_ite, ensures_pure]
  refine ⟨fun hheld => .held hheld, fun hheld => ?_⟩
  have hfree : f.isHeld w.game = false := Bool.eq_false_iff.2 hheld
  split
  · next k hk =>
    refine ensures_bind.2 (ensures_run.imp fun o u ho => ?_)
    exact ensures_run.imp fun t w' ht => .resumes hfree hk ho ht
  · next hk =>
    have hk (k : Awaited) : f.pause ≠ .goOn k := fun h => hk k h
    split
    · next c hc =>
      refine ensures_bind.2 (ensures_run.imp fun o u ho => ?_)
      exact ensures_run.imp fun t w' ht => .performs hfree hk hc ho ht
    · next hc =>
      simp only [ensures_ite, ensures_bind, ensures_pure]
      refine ⟨fun hrun => ensures_run.imp fun f' w' hf => .finishes hk hc hrun hf, fun hrun => ?_⟩
      have hrun : f.isRunning = false := Bool.eq_false_iff.2 hrun
      refine ⟨fun hroot => ensures_run.imp fun s w' hs => ?_,
        fun hroot => .ended hrun (Bool.eq_false_iff.2 hroot)⟩
      cases s with
      | some f' => exact ensures_pure.2 (.starts hrun hroot hs)
      | none => exact ensures_pure.2 (.idles hrun hroot hs)

theorem turns_of_turn (env : Env) (f : Frame) (w : World) :
    Ensures (f.turn env) w (f.Turns env w) := by
  simp only [turn, ensures_bind, ensures_getGame, ensures_ite, ensures_pure]
  refine ⟨fun hread => .reads hread, fun hread => ?_⟩
  have hread : w.game.message.waiting = false := Bool.eq_false_iff.2 hread
  split
  · next hk =>
    refine ensures_ite.2 ⟨fun hmove => ensures_pure.2 (.follows hk hmove), fun _ => ?_⟩
    exact (proceeds_of_proceed env _ w).imp fun t w' h => .followed hread hk h
  · next k hk =>
    refine ensures_bind.2 (ensures_run.imp fun left u hu => ?_)
    cases left with
    | some k' => exact ensures_pure.2 (.polls hk hu)
    | none => exact (proceeds_of_proceed env _ u).imp fun t w' h => .hits hk hu h
  · next n hk => exact ensures_pure.2 (.counts hread hk)
  · next h₁ h₂ h₃ =>
    refine (proceeds_of_proceed env f w).imp fun t w' h => .goes hread ?_ h
    cases hp : f.pause with
    | ready => exact .inl rfl
    | animation => exact .inr (.inl rfl)
    | goOn k => exact .inr (.inr ⟨k, rfl⟩)
    | movement => exact absurd hp h₁
    | keys k => exact absurd hp (h₂ k)
    | ticks n => exact absurd hp (h₃ n)

end Frame

theorem Interpreter.startedAs_of_start {i j : Interpreter} {commands : List Command}
    {owner mapId : Number} (h : i.start commands owner mapId = .ok j) :
    ∃ f, j = { frame := f } ∧ i.frame.StartedAs f commands owner mapId := by
  unfold Interpreter.start at h
  cases hf : i.frame.start commands owner mapId with
  | error o => rw [hf] at h; cases h
  | ok f =>
    rw [hf] at h
    cases h
    exact ⟨f, rfl, Frame.startedAs_of_start hf⟩

end EventScript
