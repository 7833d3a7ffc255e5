import EventScript.Database.Validation
import EventScript.Proofs.Levels
import EventScript.Proofs.TurnDeeds

/-!
# Events that call themselves

One update runs commands of every frame it reaches, each frame on a budget of its own. So the budget
alone does not end an update.

* `update_halts`: the depth of a frame is a number of fixed width, so a chain of calls ends at last,
  with a result or in an overflow.
* `update_fits_of_budget_one`: on a budget of one command no called event runs in the update of its
  call.
* `update_fits_of_rank`: where no event calls itself, the chain is as long as the calls are nested.
* `update_recursion_overflows`: where events call themselves first of all, an update on a budget of
  two commands or more never comes back.
-/

namespace EventScript

/-- Whether nothing holds up an event of the field. -/
structure Game.IsFree (g : Game) : Prop where
  read : g.message.waiting = false
  scene : g.scene.isBlocking = false
  battle : g.troop = none

namespace Interpreter

open Act Commands

variable {env : Env}

/-! ## Every chain of calls ends -/

theorem callBound_depth (env : Env) :
    CallBound env (fun _ => True) fun f => UInt32.size - 1 - f.depth.toNat where
  forget f mapId _ := by
    refine ⟨trivial, ?_⟩
    unfold Frame.forgetOwner
    split <;> rfl
  turn f w t w' _ h := by
    obtain ⟨ht, -⟩ := Frame.turned_of_turn env f w t w' h
    refine ⟨trivial, Nat.le_of_eq (by rw [ht.depth]), fun c hc => ⟨trivial, ?_⟩⟩
    obtain ⟨-, x, -, callee, -, hby⟩ := ht.called c hc
    have hdepth := hby.depth
    have hlt := c.depth.toNat_lt_size
    omega

theorem levelsFor_le {need : Frame → Nat} {n : Nat} {f : Frame} {calls : List Frame}
    (hf : need f ≤ n) (hcalls : ∀ c ∈ calls, need c ≤ n) :
    levelsFor need f calls ≤ calls.length + n + 1 := by
  induction calls generalizing f with
  | nil => simpa [levelsFor] using hf
  | cons c cs ih =>
    have := ih (hcalls c (by simp)) fun x hx => hcalls x (by simp [hx])
    simp only [levelsFor, List.length_cons]
    omega

/-- An update ends on levels enough for every depth there is, and more levels change nothing. -/
theorem update_halts (env : Env) (i : Interpreter) (w : World) :
    ∃ r, r ≠ .error .nesting ∧
      ∀ levels, i.calls.length + UInt32.size ≤ levels → i.update env levels w = r := by
  have hneed (f : Frame) : UInt32.size - 1 - f.depth.toNat ≤ UInt32.size - 1 := Nat.sub_le _ _
  have hfits : i.update env (i.calls.length + UInt32.size) w ≠ .error .nesting := by
    refine updateFrames_ne_nesting (callBound_depth env) i.frame i.calls w trivial
      (fun _ _ => trivial) ?_
    have := levelsFor_le (hneed i.frame) fun c (_ : c ∈ i.calls) => hneed c
    omega
  exact ⟨_, hfits, fun levels h => updateFrames_mono h i.frame i.calls w hfits⟩

/-! ## A budget of one command -/

theorem takeTurns_one_ne_nesting {inner : Frame → List Frame → Process Interpreter} {f : Frame}
    {calls : List Frame} {w : World}
    (hinner : ∀ c cs, calls = c :: cs → inner c cs w ≠ .error .nesting) :
    takeTurns env inner 1 f calls w ≠ .error .nesting := by
  have hgo (f : Frame) (w : World) : goTurn env inner 0 f w ≠ .error .nesting := by
    unfold goTurn
    cases f.turn env w with
    | error o => exact nofun
    | ok p =>
      cases hs : p.1.signal with
      | yield => simp only [hs]; exact nofun
      | again => simp only [hs]; exact nofun
  cases calls with
  | nil =>
    rw [takeTurns_nil]
    exact hgo _ _
  | cons c cs =>
    rw [takeTurns_cons]
    have hne := hinner c cs rfl
    cases h : inner c cs w with
    | error e => rwa [h] at hne
    | ok p =>
      cases hrun : p.1.isRunning with
      | true => simp only [hrun, if_true]; exact nofun
      | false => simp only [hrun, Bool.false_eq_true, if_false]; exact hgo _ _

/-- On a budget of one command an update needs no level but those of the frames it starts with. -/
theorem update_fits_of_budget_one (hbudget : env.data.config.maxIterations = 1) (i : Interpreter)
    (w : World) {levels : Nat} (hlevels : i.calls.length < levels) :
    i.update env levels w ≠ .error .nesting := by
  obtain ⟨f, calls⟩ := i
  rw [update]
  induction calls generalizing f w levels with
  | nil =>
    obtain ⟨levels, rfl⟩ : ∃ n, levels = n + 1 := ⟨levels - 1, by omega⟩
    rw [updateFrames, hbudget]
    exact takeTurns_one_ne_nesting nofun
  | cons c cs ih =>
    obtain ⟨levels, rfl⟩ : ∃ n, levels = n + 1 := ⟨levels - 1, by omega⟩
    rw [updateFrames, hbudget]
    refine takeTurns_one_ne_nesting fun c' cs' h => ?_
    cases h
    exact ih w c (by simpa using Nat.lt_of_succ_lt_succ hlevels)

/-! ## Calls that end -/

/-- A number that falls with every call, and the bound of it for what the database holds. -/
structure CallRank (d : Database) (rank : List Command → Nat) (bound : Nat) : Prop where
  falls : ∀ cs, ∀ c ∈ cs, ∀ callee ∈ c.callees d, rank callee < rank cs
  bounded : ∀ cs ∈ d.lists, rank cs ≤ bound

/-- The levels that a frame may need below it: the root may start any list. -/
def rankOf (rank : List Command → Nat) (bound : Nat) (f : Frame) : Nat :=
  if f.isRoot then bound else if f.commands = [] then 0 else rank f.commands

theorem callBound_rank {rank : List Command → Nat} {bound : Nat}
    (hrank : CallRank env.data rank bound) :
    CallBound env (fun f => rank f.commands ≤ bound ∨ f.commands = []) (rankOf rank bound) where
  forget f mapId hf := by
    unfold Frame.forgetOwner
    split
    · exact ⟨hf, rfl⟩
    · exact ⟨hf, rfl⟩
  turn f w t w' hf h := by
    obtain ⟨ht, -⟩ := Frame.turned_of_turn env f w t w' h
    refine ⟨?_, ?_, fun c hc => ?_⟩
    · rcases ht.commands with hsame | hnil | ⟨-, hmem⟩
      · rwa [hsame]
      · exact .inr hnil
      · exact .inl (hrank.bounded _ hmem)
    · unfold rankOf
      rw [ht.isRoot]
      rcases ht.commands with hsame | hnil | ⟨hroot, -⟩
      · exact Nat.le_of_eq (by rw [hsame])
      · split <;> simp
      · simp [hroot]
    · obtain ⟨-, x, hx, callee, hcallee, hby⟩ := ht.called c hc
      have hfalls := hrank.falls f.commands x hx callee hcallee
      have hne : f.commands ≠ [] := List.ne_nil_of_mem hx
      have hle : rank f.commands ≤ bound := hf.resolve_right hne
      rw [← hby.commands] at hfalls
      refine ⟨.inl (by omega), ?_⟩
      simp only [rankOf, hby.isRoot, hne, Bool.false_eq_true, if_false]
      split <;> split <;> omega

/-- Where no event calls itself, directly or through others, an update needs no more levels than
its frames and the nesting of the calls. -/
theorem update_fits_of_rank {rank : List Command → Nat} {bound : Nat}
    (hrank : CallRank env.data rank bound) (i : Interpreter) (w : World)
    (hi : ∀ f ∈ i.frames, rank f.commands ≤ bound) {levels : Nat}
    (hlevels : i.calls.length + bound < levels) : i.update env levels w ≠ .error .nesting := by
  have hneed (f : Frame) (hf : f ∈ i.frames) : rankOf rank bound f ≤ bound := by
    have := hi f hf
    unfold rankOf
    split <;> try split
    all_goals omega
  refine updateFrames_ne_nesting (callBound_rank hrank) i.frame i.calls w
    (.inl (hi _ (List.mem_cons_self ..))) (fun c hc => .inl (hi c (List.mem_cons_of_mem _ hc))) ?_
  have := levelsFor_le (hneed _ (List.mem_cons_self ..)) fun c hc =>
    hneed c (List.mem_cons_of_mem _ hc)
  omega

/-! ## Events that call themselves -/

/-- Lists that all begin with a call of a common event with a list among them. -/
def CallsItself (d : Database) (S : List Command → Prop) : Prop :=
  ∀ cs, S cs → ∃ c rest e, cs = c :: rest ∧ c.opcode = .field .callEvent ∧ c.mode 0 = 0 ∧
    d.commonEvent? (c.param 1) = some e ∧ S e.commands

/-- A frame of the field that stands before the first command of its list. -/
structure AtStart (f : Frame) : Prop where
  context : f.context = .field
  pc : f.pc = 0
  pause : f.pause = .ready

theorem turn_callCommon {f : Frame} {c : Command} {rest : List Command} {e : CommonEvent}
    {w : World} (hf : AtStart f) (hcommands : f.commands = c :: rest)
    (hop : c.opcode = .field .callEvent) (hmode : c.mode 0 = 0)
    (he : env.data.commonEvent? (c.param 1) = some e) (hw : w.game.IsFree) :
    f.turn env w = f.settle env (.call e.commands 0) w := by
  have hperform : perform env f c w = .ok (.call e.commands 0, w) := by
    simp only [perform, hf.context, hop, performField, callEvent, hmode, callCommon, he]
    rfl
  have hheld :
      ¬ (w.game.scene.isBlocking || (f.context = .field && w.game.troop.isSome)) = true := by
    simp [hw.scene, hw.battle]
  have hproceed : f.proceed env w = f.settle env (.call e.commands 0) w := by
    simp only [Frame.proceed, getGame_bind, if_neg hheld, hf.pause, hcommands, hf.pc,
      List.getElem?_cons_zero]
    exact bind_of_ok hperform
  simp only [Frame.turn, getGame_bind, hw.read, hf.pause, Bool.false_eq_true, if_false]
  exact hproceed

theorem updateFrames_recursion_ne_ok {S : List Command → Prop} (hS : CallsItself env.data S)
    (hbudget : 2 ≤ env.data.config.maxIterations.toNat) (levels : Nat) {f : Frame}
    (hf : AtStart f) (hcommands : S f.commands) {w : World} (hw : w.game.IsFree)
    (r : Interpreter × World) : updateFrames env levels f [] w ≠ .ok r := by
  induction levels generalizing f w r with
  | zero => exact nofun
  | succ levels ih =>
    obtain ⟨n, hn⟩ : ∃ n, env.data.config.maxIterations.toNat = n + 1 + 1 :=
      ⟨env.data.config.maxIterations.toNat - 2, by omega⟩
    obtain ⟨c, rest, e, hlist, hop, hmode, he, hSe⟩ := hS f.commands hcommands
    have hf' : AtStart (f.forgetOwner w.game.field.id) := by
      unfold Frame.forgetOwner
      split
      · exact hf
      · exact ⟨hf.context, hf.pc, hf.pause⟩
    have hlist' : (f.forgetOwner w.game.field.id).commands = c :: rest := by
      unfold Frame.forgetOwner
      split <;> exact hlist
    rw [updateFrames, hn, takeTurns_nil]
    generalize f.forgetOwner w.game.field.id = f' at hf' hlist'
    rw [goTurn, turn_callCommon hf' hlist' hop hmode he hw]
    cases hcall : f'.callee env e.commands 0 w with
    | error o =>
      have hsettle : f'.settle env (.call e.commands 0) w = .error o := bind_of_error hcall
      rw [hsettle]
      exact nofun
    | ok p =>
      obtain ⟨called, u⟩ := p
      obtain ⟨hgame, hby⟩ := Frame.ensures_callee env _ _ _ w called u hcall
      have hsettle : f'.settle env (.call e.commands 0) w =
          .ok ({ frame := f'.goto f'.pc, called := some called, signal := .again }, u) :=
        bind_of_ok hcall
      have hstart : AtStart called := ⟨hby.context.trans hf'.context, hby.pc, hby.pause⟩
      have hinner := ih hstart (hby.commands ▸ hSe) (hgame ▸ hw)
      simp only [hsettle, Option.toList_some]
      rw [takeTurns_cons]
      cases h : updateFrames env levels called [] u with
      | error e => exact nofun
      | ok p => exact absurd h (hinner p)

theorem two_le_budget {d : Database} (hvalid : d.validate = .ok ())
    (hne : d.config.maxIterations ≠ 1) : 2 ≤ d.config.maxIterations.toNat := by
  have hpos := Database.maxIterations_ne_zero hvalid
  have h₀ : d.config.maxIterations.toNat ≠ 0 := fun h => hpos (UInt64.toNat_inj.1 h)
  have h₁ : d.config.maxIterations.toNat ≠ 1 := fun h => hne (UInt64.toNat_inj.1 h)
  omega

/-- An update of an event that calls itself first of all overflows on a budget of two commands or
more, and fewer levels only hide it. -/
theorem update_recursion_overflows {S : List Command → Prop} (hS : CallsItself env.data S)
    (hbudget : 2 ≤ env.data.config.maxIterations.toNat) {f : Frame} (hf : AtStart f)
    (hcommands : S f.commands) {w : World} (hw : w.game.IsFree) :
    ∃ o, ∀ levels, UInt32.size ≤ levels →
      ({ frame := f } : Interpreter).update env levels w = .error (.overflow o) := by
  obtain ⟨r, hne, hr⟩ := update_halts env { frame := f } w
  simp only [List.length_nil, Nat.zero_add] at hr
  have hok := updateFrames_recursion_ne_ok hS hbudget (UInt32.size) hf hcommands hw
  have hlast := hr (UInt32.size) (Nat.le_refl _)
  cases r with
  | ok p => exact absurd hlast (hok p)
  | error e =>
    cases e with
    | nesting => exact absurd rfl hne
    | overflow o => exact ⟨o, hr⟩

/-- What the budget of an update does and does not bound. Every update ends, on levels for as many
frames as there are depths. A budget of one command, or calls that go down a rank, bound its levels.
On any other budget an update of an event that was just started and calls itself first of all, alone
or through others, ends in an overflow. -/
theorem update_ends_and_recursion_overflows (env : Env) (i : Interpreter) (w : World) :
    (∃ r, r ≠ .error .nesting ∧
      ∀ levels, i.calls.length + UInt32.size ≤ levels → i.update env levels w = r) ∧
    (env.data.config.maxIterations = 1 → ∀ levels, i.calls.length < levels →
      i.update env levels w ≠ .error .nesting) ∧
    (∀ rank bound, CallRank env.data rank bound → (∀ f ∈ i.frames, rank f.commands ≤ bound) →
      ∀ levels, i.calls.length + bound < levels → i.update env levels w ≠ .error .nesting) ∧
    (∀ S depth isRoot commands owner mapId, env.data.validate = .ok () →
      env.data.config.maxIterations ≠ 1 → CallsItself env.data S → S commands →
      (Interpreter.idle .field depth isRoot).start commands owner mapId = .ok i →
      w.game.IsFree →
      ∃ o, ∀ levels, UInt32.size ≤ levels → i.update env levels w = .error (.overflow o)) := by
  refine ⟨update_halts env i w, ?_, ?_, ?_⟩
  · intro hbudget levels hlevels
    exact update_fits_of_budget_one hbudget i w hlevels
  · intro rank bound hrank hi levels hlevels
    exact update_fits_of_rank hrank i w hi hlevels
  · intro S depth isRoot commands owner mapId hvalid hbudget hS hcommands hstart hw
    obtain ⟨f, rfl, hf⟩ := startedAs_of_start hstart
    exact update_recursion_overflows hS (two_le_budget hvalid hbudget)
      ⟨hf.context, hf.pc, hf.pause⟩ (hf.commands ▸ hcommands) hw

/-- A call of the common event 1. -/
def callFirst : Command := { code := FieldOp.callEvent.code, params := [0, 1] }

/-- A common event that does nothing but call itself, on a budget of two commands. -/
def selfCaller : Database where
  config := { maxIterations := 2 }
  commonEvents := [{ id := 1, commands := [callFirst] }]

theorem selfCaller_overflows : ∃ i, (idle .field 0 false).start [callFirst] 0 0 = .ok i ∧
    ∃ o, ∀ levels, UInt32.size ≤ levels →
      i.update ⟨selfCaller, {}⟩ levels { game := Game.begin selfCaller default } =
        .error (.overflow o) := by
  have hS : CallsItself selfCaller (· = [callFirst]) := by
    rintro _ rfl
    exact ⟨callFirst, [], { id := 1, commands := [callFirst] }, rfl, by decide, by decide, rfl, rfl⟩
  refine ⟨_, rfl, ?_⟩
  have hfree : (Game.begin selfCaller default).IsFree := ⟨rfl, rfl, rfl⟩
  obtain ⟨-, -, -, hoverflows⟩ :=
    update_ends_and_recursion_overflows ⟨selfCaller, {}⟩ _ { game := Game.begin selfCaller default }
  exact hoverflows _ 0 false [callFirst] 0 0 rfl (by decide) hS rfl rfl hfree

end Interpreter

end EventScript
