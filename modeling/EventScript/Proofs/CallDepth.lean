import EventScript.Proofs.LandingTables
import EventScript.Proofs.Marks
import EventScript.Proofs.Recursion

/-!
# How deep calls may go

The limit on the depth of calls is soft: the call that goes past it is reported, and the event runs
all the same. The report is due one level past the limit, though, and there is no such level past
the highest limit.

* `Frame.Callable` is what a call needs: `callable_of_callee` shows that it needs no less, and
  `Callable.exists_callee` that it needs no more.
* `Frame.ComesTo` tells when a frame runs the command at hand; a call is made then or overflows.
* `Frame.Descent` follows a chain of calls down from a frame at depth zero and counts the reports;
  `Descent.depth_eq` and `Descent.reports_eq` tell both from the length of the chain.
* `Interpreter.reports_along_calls` puts them together, for chains and for whole runs.
-/

namespace EventScript

open Act

/-! ## What a call needs -/

namespace Checked

theorem exists_add_one_iff {a : UInt32} :
    (∃ b, add a 1 = .ok b) ↔ a.toNat + 1 < UInt32.size := by
  refine exists_fit_iff.trans ?_
  show (0 : Int) ≤ (a.toNat : Int) + 1 ∧ (a.toNat : Int) + 1 ≤ 4294967295 ↔ a.toNat + 1 < 4294967296
  omega

end Checked

namespace Frame

/-- What a call needs: one level more than the limit has a number, and so has one level more than
the caller, and the list that is called can be started. -/
structure Callable (d : Database) (depth : Nat) (commands : List Command) : Prop where
  limit : d.config.depthWarning.toNat + 1 < UInt32.size
  depth : depth + 1 < UInt32.size
  lands : ∀ c ∈ commands, ¬ c.breaksLowest

theorem callable_of_callee (env : Env) (f : Frame) (commands : List Command) (owner : Number)
    (w : World) : Ensures (f.callee env commands owner) w
      fun _ _ => Callable env.data f.depth.toNat commands := by
  simp only [callee, ensures_bind, ensures_check, ensures_ite, ensures_warn, ensures_getGame]
  intro depth hdepth limit hlimit
  have hdepth := Checked.exists_add_one_iff.1 ⟨depth, hdepth⟩
  have hlimit := Checked.exists_add_one_iff.1 ⟨limit, hlimit⟩
  exact ⟨fun _ c hc => ⟨hlimit, hdepth, exists_start_iff.1 ⟨c, hc⟩⟩,
    fun _ c hc => ⟨hlimit, hdepth, exists_start_iff.1 ⟨c, hc⟩⟩⟩

theorem check_of_ok {α : Type} {x : Except Overflow α} {r : α} (h : x = .ok r) (w : World) :
    check x w = .ok (r, w) := by
  rw [check, h]
  rfl

/-- What can be called is called. -/
theorem Callable.exists_callee {env : Env} {f : Frame} {commands : List Command}
    (h : Callable env.data f.depth.toNat commands) (owner : Number) (w : World) :
    ∃ c w', f.callee env commands owner w = .ok (c, w') := by
  obtain ⟨hlimit, hdepth, hlands⟩ := h
  obtain ⟨limit, hlimit⟩ := Checked.exists_add_one_iff.2 hlimit
  obtain ⟨depth, hdepth⟩ := Checked.exists_add_one_iff.2 hdepth
  have hstart (mapId : Number) : ∃ s, (idle f.context depth false).start commands owner mapId =
      .ok s := exists_start_iff.2 hlands
  obtain ⟨c, hc⟩ := hstart w.game.field.id
  unfold callee
  rw [bind_of_ok (check_of_ok hdepth w), bind_of_ok (check_of_ok hlimit w)]
  by_cases hreport : depth = limit
  · subst hreport
    exact ⟨c, _, by simp only [if_true]; exact check_of_ok hc { w with warnings := _ }⟩
  · exact ⟨c, w, by simp only [hreport, if_false]; exact check_of_ok hc w⟩

/-! ## Before a call -/

/-- How a frame comes to the command at hand: it waits for nothing, or for no longer. The command
runs in a frame and a world that a look at the keys may have changed. -/
inductive ComesTo (env : Env) (f : Frame) (w : World) : Frame → World → Prop
  | goes (hread : w.game.message.waiting = false) (hk : f.pause = .ready ∨ f.pause = .animation)
      (hfree : f.isHeld w.game = false) : ComesTo env f w f w
  | followed (hread : w.game.message.waiting = false) (hk : f.pause = .movement)
      (hmove : w.game.field.anyMoving = false) (hfree : f.isHeld w.game = false) :
      ComesTo env f w f.ready w
  | hits {k : KeyCapture} {u : World} (hread : w.game.message.waiting = false)
      (hk : f.pause = .keys k) (hpoll : Commands.pollKeys env k w = .ok (none, u))
      (hfree : f.isHeld u.game = false) : ComesTo env f w f.ready u

variable {env : Env} {f g : Frame} {w u v : World} {c : Command} {o : Outcome}

theorem proceed_of_perform (hk : ∀ k, f.pause ≠ .goOn k) (hfree : f.isHeld w.game = false)
    (hc : f.commands[f.pc]? = some c) (ho : Commands.perform env f c w = .ok (o, v)) :
    f.proceed env w = f.settle env o v := by
  have hheld : ¬ f.isHeld w.game = true := by
    rw [hfree]
    exact nofun
  unfold isHeld at hheld
  cases hp : f.pause with
  | goOn k => exact absurd hp (hk k)
  | _ =>
    simp only [proceed, getGame_bind, if_neg hheld, hp, hc]
    exact bind_of_ok ho

/-- The turn of a frame that comes to a command does what the command asks. -/
theorem ComesTo.turn (h : f.ComesTo env w g u) (hc : g.commands[g.pc]? = some c)
    (ho : Commands.perform env g c u = .ok (o, v)) : f.turn env w = g.settle env o v := by
  have hready : ∀ k, f.ready.pause ≠ .goOn k := fun _ => nofun
  cases h with
  | goes hread hk hfree =>
    have hproceed : f.proceed env w = f.settle env o v := by
      refine proceed_of_perform (fun k hk' => ?_) hfree hc ho
      rcases hk with hk | hk
      · rw [hk] at hk'; cases hk'
      · rw [hk] at hk'; cases hk'
    simp only [Frame.turn, getGame_bind, hread, Bool.false_eq_true, if_false]
    rcases hk with hk | hk
    · rw [hk]; exact hproceed
    · rw [hk]; exact hproceed
  | followed hread hk hmove hfree =>
    simp only [Frame.turn, getGame_bind, hread, hk, hmove, Bool.false_eq_true, if_false]
    exact proceed_of_perform hready hfree hc ho
  | hits hread hk hpoll hfree =>
    simp only [Frame.turn, getGame_bind, hread, hk, Bool.false_eq_true, if_false]
    exact (bind_of_ok hpoll).trans (proceed_of_perform hready hfree hc ho)

theorem ComesTo.depth (h : f.ComesTo env w g u) : g.depth = f.depth := by
  cases h with
  | goes => rfl
  | followed | hits => rfl

/-- A frame that comes to a call makes it if what is called can be called. -/
theorem ComesTo.calls {commands : List Command} {owner : Number} (h : f.ComesTo env w g u)
    (hc : g.commands[g.pc]? = some c)
    (ho : Commands.perform env g c u = .ok (.call commands owner, v))
    (hcall : Callable env.data f.depth.toNat commands) :
    ∃ t w' called, f.turn env w = .ok (t, w') ∧ t.called = some called ∧
      called.commands = commands := by
  rw [← h.depth] at hcall
  obtain ⟨called, w', hcalled⟩ := hcall.exists_callee owner v
  have hby := (ensures_callee env g commands owner v called w' hcalled).2
  refine ⟨{ frame := g.goto g.pc, called := some called, signal := .again }, w', called, ?_, rfl,
    hby.commands⟩
  rw [h.turn hc ho]
  exact bind_of_ok hcalled

/-- Otherwise the turn ends in an overflow. -/
theorem ComesTo.overflows {commands : List Command} {owner : Number} (h : f.ComesTo env w g u)
    (hc : g.commands[g.pc]? = some c)
    (ho : Commands.perform env g c u = .ok (.call commands owner, v))
    (hcall : ¬ Callable env.data f.depth.toNat commands) :
    ∃ overflow, f.turn env w = .error overflow := by
  rw [← h.depth] at hcall
  rw [h.turn hc ho]
  cases hcalled : g.callee env commands owner v with
  | ok r => exact absurd (callable_of_callee env g commands owner v r.1 r.2 hcalled) hcall
  | error overflow => exact ⟨overflow, bind_of_error hcalled⟩

/-! ## Chains of calls -/

/-- A chain of calls: the frame stands `n` calls below a frame at depth zero, and `k` of these calls
were reported. Between the calls, each frame of the chain takes any number of turns, in whatever
worlds it finds. -/
inductive Descent (d : Database) : Frame → Nat → Nat → Prop
  | top {f : Frame} (h : f.depth = 0) : Descent d f 0 0
  | forgets {f : Frame} {n k : Nat} (h : Descent d f n k) (mapId : Number) :
      Descent d (f.forgetOwner mapId) n k
  | turns {f : Frame} {n k : Nat} {host : Host} {w w' : World} {t : Turn} (h : Descent d f n k)
      (ht : f.turn ⟨d, host⟩ w = .ok (t, w')) : Descent d t.frame n k
  | calls {f c : Frame} {n k m : Nat} {host : Host} {w w' : World} {t : Turn} (h : Descent d f n k)
      (ht : f.turn ⟨d, host⟩ w = .ok (t, w')) (hc : t.called = some c)
      (hm : w'.tooDeep = w.tooDeep + m) : Descent d c (n + 1) (k + m)

variable {d : Database} {n k : Nat}

theorem Descent.depth_eq (h : Descent d f n k) : f.depth.toNat = n := by
  induction h with
  | top h => rw [h]; rfl
  | forgets _ mapId ih =>
    unfold forgetOwner
    split <;> exact ih
  | turns _ ht ih =>
    obtain ⟨hturned, -⟩ := turned_of_turn _ _ _ _ _ ht
    rw [hturned.depth, ih]
  | calls _ ht hc _ ih =>
    obtain ⟨hturned, -⟩ := turned_of_turn _ _ _ _ _ ht
    obtain ⟨-, -, -, -, -, -, hdepth, -⟩ := hturned.called _ hc
    rw [hdepth, ih]

/-- A call is reported if it goes one level past the limit, and so the reports of a chain are one or
none. -/
theorem Descent.reports_eq (h : Descent d f n k) :
    k = if d.config.depthWarning.toNat < n then 1 else 0 := by
  induction h with
  | top => rfl
  | forgets _ _ ih => exact ih
  | turns _ _ ih => exact ih
  | @calls f c n k m host w w' t h ht hc hm ih =>
    have hdepth : c.depth.toNat = n + 1 := (Descent.calls h ht hc hm).depth_eq
    have hreports := (marks_of_turn _ _ _ _ _ ht).tooDeep
    rw [Turn.reports, hc] at hreports
    simp only [hdepth] at hreports
    have hm : m = if n + 1 = d.config.depthWarning.toNat + 1 then 1 else 0 := by omega
    -- Below the limit there was no report and is none, at the limit there is one, and past it there
    -- was one already.
    split at ih <;> split at hm <;> split <;> omega

/-- A frame that comes to a call lengthens its chain by it, with the report that is due. -/
theorem Descent.extends {host : Host} {commands : List Command} {owner : Number}
    (hf : Descent d f n k) (h : f.ComesTo ⟨d, host⟩ w g u) (hc : g.commands[g.pc]? = some c)
    (ho : Commands.perform ⟨d, host⟩ g c u = .ok (.call commands owner, v))
    (hcall : Callable d n commands) :
    ∃ t w' called, f.turn ⟨d, host⟩ w = .ok (t, w') ∧ t.called = some called ∧
      called.commands = commands ∧
        Descent d called (n + 1) (if d.config.depthWarning.toNat < n + 1 then 1 else 0) := by
  rw [← hf.depth_eq] at hcall
  obtain ⟨t, w', called, ht, hcalled, hcommands⟩ := h.calls hc ho hcall
  have hreports := (marks_of_turn _ _ _ _ _ ht).tooDeep
  have hdescent := Descent.calls hf ht hcalled hreports
  exact ⟨t, w', called, ht, hcalled, hcommands, hdescent.reports_eq ▸ hdescent⟩

end Frame

namespace Interpreter

variable {d : Database}

/-- Frames each of which was called by the one before it. The first stands `n` calls deep. -/
def Stacked (d : Database) : Nat → List Frame → Prop
  | _, [] => True
  | n, f :: fs => (∃ k, f.Descent d n k) ∧ Stacked d (n + 1) fs

theorem Stacked.getElem? {n : Nat} {fs : List Frame} (h : Stacked d n fs) {m : Nat} {f : Frame}
    (hf : fs[m]? = some f) : ∃ k, f.Descent d (n + m) k := by
  induction fs generalizing n m with
  | nil => cases hf
  | cons g fs ih =>
    obtain ⟨hg, hfs⟩ := h
    cases m with
    | zero => cases hf; exact hg
    | succ m =>
      obtain ⟨k, hk⟩ := ih hfs hf
      exact ⟨k, by rw [Nat.add_right_comm] at hk; exact hk⟩

theorem stacked_turned {host : Host} {f : Frame} {n : Nat} {w w' : World} {t : Turn}
    (hf : ∃ k, f.Descent d n k) (ht : f.turn ⟨d, host⟩ w = .ok (t, w')) :
    Stacked d n (t.frame :: t.called.toList) := by
  obtain ⟨k, hk⟩ := hf
  refine ⟨⟨k, hk.turns ht⟩, ?_⟩
  cases hc : t.called with
  | none => trivial
  | some c =>
    have hreports := (Frame.marks_of_turn _ _ _ _ _ ht).tooDeep
    exact ⟨⟨_, hk.calls ht hc hreports⟩, trivial⟩

/-- An update keeps every frame at its depth in the chain. -/
theorem Updated.stacked {host : Host} {f : Frame} {calls : List Frame} {w w' : World}
    {i : Interpreter} (h : Updated ⟨d, host⟩ f calls w i w') {n : Nat}
    (hf : Stacked d n (f :: calls)) : Stacked d n i.frames := by
  induction h generalizing n with
  | spent => exact hf
  | forgets _ ih =>
    obtain ⟨⟨k, hk⟩, hcalls⟩ := hf
    exact ih ⟨⟨k, hk.forgets _⟩, hcalls⟩
  | yields ht _ => exact stacked_turned hf.1 ht
  | again ht _ _ ih => exact ih (stacked_turned hf.1 ht)
  | inner _ _ ih => exact ⟨hf.1, ih hf.2⟩
  | ended _ _ _ _ ih' => exact ih' ⟨hf.1, trivial⟩

/-- An interpreter that was made at depth zero, and was started and updated any number of times
under one database. -/
inductive FromTop (d : Database) : Interpreter → Prop
  | idle (context : Context) (isRoot : Bool) : FromTop d (idle context 0 isRoot)
  | start {i j : Interpreter} {commands : List Command} {owner mapId : Number} (h : FromTop d i)
      (hs : i.start commands owner mapId = .ok j) : FromTop d j
  | update {host : Host} {levels : Nat} {i j : Interpreter} {w w' : World} (h : FromTop d i)
      (hu : i.update ⟨d, host⟩ levels w = .ok (j, w')) : FromTop d j

theorem FromTop.stacked {i : Interpreter} (h : FromTop d i) : Stacked d 0 i.frames := by
  induction h with
  | idle => exact ⟨⟨0, .top rfl⟩, trivial⟩
  | start _ hs ih =>
    obtain ⟨f, rfl, hf⟩ := startedAs_of_start hs
    obtain ⟨⟨k, hk⟩, -⟩ := ih
    have hdepth : f.depth = 0 := by
      rw [hf.depth]
      exact UInt32.toNat_inj.1 hk.depth_eq
    exact ⟨⟨0, .top hdepth⟩, trivial⟩
  | update _ hu ih => exact (updated_of_update _ _ _ _ _ hu).stacked ih

/-- The limit on calls is soft, as far as numbers go. In every run of an interpreter from depth zero
the frames stand in a chain of calls. Along a chain of `n` calls one is reported if `n` is past the
limit, and none otherwise; nothing else is ever reported so. A frame at the end of a chain that
comes to a call makes it, unless the limit or the depth is the highest number there is or the list
breaks out of a loop at the lowest indent: then the turn ends in an overflow. -/
theorem reports_along_calls (d : Database) :
    (∀ i, FromTop d i → ∀ n f, i.frames[n]? = some f → ∃ k, Frame.Descent d f n k) ∧
    (∀ f n k, Frame.Descent d f n k → f.depth.toNat = n ∧
      k = (if d.config.depthWarning.toNat < n then 1 else 0) ∧
      ∀ host w g u c commands owner v, f.ComesTo ⟨d, host⟩ w g u → g.commands[g.pc]? = some c →
        Commands.perform ⟨d, host⟩ g c u = .ok (.call commands owner, v) →
        (Frame.Callable d n commands → ∃ t w' called, f.turn ⟨d, host⟩ w = .ok (t, w') ∧
          t.called = some called ∧ called.commands = commands ∧
          Frame.Descent d called (n + 1)
            (if d.config.depthWarning.toNat < n + 1 then 1 else 0)) ∧
        (¬ Frame.Callable d n commands → ∃ overflow, f.turn ⟨d, host⟩ w = .error overflow)) ∧
    (∀ host f w t w', Frame.turn ⟨d, host⟩ f w = .ok (t, w') → t.called = none →
      w'.tooDeep = w.tooDeep) := by
  refine ⟨fun i hi n f hf => ?_, fun f n k hf => ?_, fun host f w t w' ht hnone => ?_⟩
  · obtain ⟨k, hk⟩ := hi.stacked.getElem? hf
    exact ⟨k, by rwa [Nat.zero_add] at hk⟩
  · refine ⟨hf.depth_eq, hf.reports_eq, fun host w g u c commands owner v h hc ho => ?_⟩
    refine ⟨hf.extends h hc ho, fun hcall => ?_⟩
    rw [← hf.depth_eq] at hcall
    exact h.overflows hc ho hcall
  · have hreports := (Frame.marks_of_turn _ _ _ _ _ ht).tooDeep
    rw [Turn.reports, hnone] at hreports
    exact hreports

/-- A common event that can be called, under a limit on the depth of calls. -/
def underLimit (limit : UInt32) : Database where
  config := { depthWarning := limit }
  commonEvents := [{ id := 1, commands := [{ code := FieldOp.endBranch.code }] }]

/-- A frame at depth zero that calls the event. -/
def caller : Frame := { Frame.idle .field 0 false with commands := [callFirst] }

/-- The least limit is passed by the first call, which is reported. Under the highest limit, which a
database may have, no call can be made. -/
theorem highest_limit_stops_calls :
    (∃ t w' called, caller.turn ⟨underLimit 0, {}⟩ { game := Game.begin (underLimit 0) default } =
      .ok (t, w') ∧ t.called = some called ∧ Frame.Descent (underLimit 0) called 1 1) ∧
    (underLimit 4294967295).validate = .ok () ∧
    (∃ overflow, caller.turn ⟨underLimit 4294967295, {}⟩
      { game := Game.begin (underLimit 4294967295) default } = .error overflow) := by
  have hcomes (limit : UInt32) :
      caller.ComesTo ⟨underLimit limit, {}⟩ { game := Game.begin (underLimit limit) default } caller
        { game := Game.begin (underLimit limit) default } := .goes rfl (.inl rfl) rfl
  have hperform (limit : UInt32) :
      Commands.perform ⟨underLimit limit, {}⟩ caller callFirst
        { game := Game.begin (underLimit limit) default } =
          .ok (.call [{ code := FieldOp.endBranch.code }] 0,
            { game := Game.begin (underLimit limit) default }) := rfl
  have hcalls (limit : UInt32) :=
    ((reports_along_calls (underLimit limit)).2.1 caller 0 0 (.top rfl)).2.2 {} _ _ _ callFirst _ _
      _ (hcomes limit) rfl (hperform limit)
  have hlands : ∀ c ∈ [({ code := FieldOp.endBranch.code } : Command)], ¬ c.breaksLowest := by
    intro c hc h
    rw [List.mem_singleton.1 hc] at h
    exact absurd h.1 (by decide)
  refine ⟨?_, by decide, ?_⟩
  · obtain ⟨t, w', called, ht, hcalled, -, hdescent⟩ :=
      (hcalls 0).1 ⟨by decide, by decide, hlands⟩
    exact ⟨t, w', called, ht, hcalled, hdescent⟩
  · exact (hcalls 4294967295).2 fun h => absurd h.limit (by decide)

end Interpreter

end EventScript
