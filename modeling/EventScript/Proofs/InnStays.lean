import EventScript.Proofs.Answers
import EventScript.Proofs.Execution
import EventScript.Proofs.HeldUpdates
import EventScript.Proofs.Inns

/-!
# A stay at an inn happens once

An event whose offer of a stay was accepted is updated until it leaves its command, and each update
meets another host.

* `Stage` is how far the stay has come, and `Stage.next` what an update makes of it, by what the
  host answers.
* `Frame.Lodges` says that the offer was accepted, and `Frame.lodges_of_gratis` that an offer for
  nothing needs no answer.
* `Frame.Lodges.turn` tells what one turn does, and `Interpreter.Stays.update` what one update does.
* `Interpreter.stays_once`: along any hosts, the stay is paid for once, the party is restored, the
  effects come in their order, and the tune that was played before plays again.
-/

namespace EventScript

open Act

/-! ## The stages of a stay -/

/-- How far a stay has come. -/
inductive Stage
  | offered
  | dark
  | tune
  | ended
  deriving DecidableEq

namespace Stage

/-- What an update makes of a stay that has come so far. -/
def next (g : Game) (host : Host) : Stage → Stage
  | offered => dark
  | dark => if host.transitionPending then dark else tune
  | tune => if host.holdsTune g then tune else ended
  | ended => ended

/-- How far a stay comes with some hosts, one for each update. -/
def after (g : Game) (hosts : List Host) : Stage :=
  hosts.foldl (fun s host => s.next g host) offered

theorem after_concat (g : Game) (hosts : List Host) (host : Host) :
    after g (hosts ++ [host]) = (after g hosts).next g host := by
  simp [after]

theorem after_eq_offered_iff {g : Game} {hosts : List Host} :
    after g hosts = offered ↔ hosts = [] := by
  have hnext (s : Stage) (host : Host) : s.next g host ≠ offered := by
    cases s with
    | offered | ended => simp only [next, ne_eq, reduceCtorEq, not_false_eq_true]
    | dark | tune =>
      simp only [next]
      split <;> exact nofun
  constructor
  · intro h
    rcases List.eq_nil_or_concat hosts with rfl | ⟨hosts, host, rfl⟩
    · rfl
    · rw [List.concat_eq_append, after_concat] at h
      exact absurd h (hnext _ _)
  · rintro rfl
    rfl

end Stage

/-- What the machine is told to do in a stay. -/
def Game.stayEffects (g : Game) : List Effect :=
  [.transition true 0, .fadeOutBgm 800, .playBgm (g.settings.bgmAt innSlot), .transition false 0,
    .playBgm g.settings.currentBgm]

namespace World

/-- The world at a stage of a stay. -/
def atStage (w : World) (paid : Number) : Stage → World
  | .offered => w
  | .dark => w.lodged paid
  | .tune => (w.lodged paid).lulled
  | .ended => (w.lodged paid).lulled.woken

variable {w : World} {paid : Number}

/-- What a stay does not touch, at whatever stage. -/
theorem untouched_atStage (w : World) (paid : Number) (s : Stage) :
    (w.atStage paid s).game.field = w.game.field ∧
      (w.atStage paid s).game.message = w.game.message ∧
      (w.atStage paid s).game.troop = w.game.troop ∧
      (w.atStage paid s).game.scene.isBlocking = w.game.scene.isBlocking ∧
      (w.atStage paid s).game.party.members = w.game.party.members := by
  cases s <;> exact ⟨rfl, rfl, rfl, rfl, rfl⟩

theorem effects_atStage (w : World) (paid : Number) (s : Stage) :
    ∃ done, (w.atStage paid s).effects.toList = w.effects.toList ++ done ∧
      done <+: w.game.stayEffects ∧ (s = .ended → done = w.game.stayEffects) := by
  have hpush : (w.atStage paid s).effects.toList =
      w.effects.toList ++ w.game.stayEffects.take (match s with
        | .offered => 0 | .dark => 2 | .tune => 3 | .ended => 5) := by
    cases s <;> simp [atStage, woken, lulled, lodged, Game.stayEffects, Settings.bgmAt]
  refine ⟨_, hpush, List.take_prefix _ _, ?_⟩
  rintro rfl
  rfl

theorem currentBgm_ended (w : World) (paid : Number) :
    (w.atStage paid .ended).game.settings.currentBgm = w.game.settings.currentBgm := rfl

/-- A stay that can be paid for is paid for exactly. -/
theorem gold_atStage {price : Number} (hpaid : Checked.neg price = .ok paid) (hprice : 0 ≤ price)
    (hgold : price ≤ w.game.party.gold) (hmax : w.game.party.gold ≤ w.game.party.goldMax)
    {s : Stage} (hs : s ≠ .offered) :
    (w.atStage paid s).game.party.gold.toInt = w.game.party.gold.toInt - price.toInt := by
  have hparty : (w.atStage paid s).game.party = w.game.party.giveGold paid := by
    cases s with
    | offered => exact absurd rfl hs
    | dark | tune | ended => rfl
  have hneg : paid.toInt = -price.toInt := Checked.fit_eq_ok_iff.1 hpaid
  rw [Int32.le_iff_toInt_le] at hprice hgold hmax
  rw [Int32.toInt_zero] at hprice
  rw [hparty, Party.giveGold, Number.toInt_clampInt, Int32.toInt_zero, hneg]
  omega

/-- Whoever stayed is restored. -/
theorem restored_atStage {s : Stage} (hs : s ≠ .offered) {id : Number} {a : Actor}
    (hid : id ∈ w.game.party.members) (ha : (w.atStage paid s).game.actors.get? id = some a) :
    a.vitals.hp = a.vitals.maxHp ∧ a.vitals.sp = a.vitals.maxSp ∧ a.vitals.states = ∅ := by
  have hactors : (w.atStage paid s).game.actors =
      IdMap.restAll w.game.party.members w.game.actors := by
    cases s with
    | offered => exact absurd rfl hs
    | dark | tune | ended => rfl
  rw [hactors, IdMap.get?_restAll, if_pos hid] at ha
  obtain ⟨b, -, rfl⟩ := Option.map_eq_some_iff.1 ha
  exact ⟨rfl, rfl, rfl⟩

end World

/-! ## Turns -/

namespace Frame

/-- The frame at a stage of a stay. -/
def atStage (f : Frame) : Stage → Frame
  | .offered => { f with pause := .goOn .innAnswer }
  | .dark => { f with pause := .goOn .innDarkness }
  | .tune => { f with pause := .goOn .innTune }
  | .ended => f.goto (Commands.sectionOf f .stay .endInn)

/-- The frame waits at an inn whose offer was accepted, for a price that the party can pay, and
nothing holds it up. -/
structure Lodges (f : Frame) (w : World) (c : Command) : Prop where
  pause : f.pause = .goOn .innAnswer
  command : f.commands[f.pc]? = some c
  free : f.isFree w.game = true
  closed : w.game.message.visible = false
  accepted : w.game.message.choiceResult = 0
  price : 0 ≤ c.param 1
  affordable : c.param 1 ≤ w.game.party.gold
  bounded : w.game.party.gold ≤ w.game.party.goldMax

variable {env : Env} {f : Frame} {w : World} {c : Command}

theorem Lodges.exists_paid (h : f.Lodges w c) : ∃ paid, Checked.neg (c.param 1) = .ok paid := by
  have hprice := Int32.le_iff_toInt_le.1 h.price
  have hhigh := (c.param 1).toInt_lt
  refine Checked.exists_fit_iff.2 ?_
  change (-2147483648 : Int) ≤ -(c.param 1).toInt ∧ -(c.param 1).toInt ≤ 2147483647
  rw [Int32.toInt_zero] at hprice
  omega

/-- An offer for nothing asks nobody. Whoever comes to it is taken in. -/
theorem lodges_of_gratis (hf : f.context = .field) (hpause : f.pause = .ready)
    (hc : f.commands[f.pc]? = some c) (hop : c.opcode = .field .showInn) (hprice : c.param 1 = 0)
    (hfree : f.isFree w.game = true) (hclosed : w.game.message.visible = false)
    (hgold : 0 ≤ w.game.party.gold) (hmax : w.game.party.gold ≤ w.game.party.goldMax) :
    ∃ u, f.turn env w = .ok ({ frame := f.atStage .offered, signal := .yield }, u) ∧
      (f.atStage .offered).Lodges u c := by
  obtain ⟨hread, hheld⟩ : w.game.message.waiting = false ∧ f.isHeld w.game = false := by
    simpa [isFree] using hfree
  have hperform : Commands.perform env f c w = .ok (.await f.pc .innAnswer, { w with
      game := { w.game with message := { w.game.message with choiceResult := 0 } } }) := by
    rw [Commands.perform_field env hf hop]
    change Commands.showInn env f c w = _
    rw [Commands.showInn, getGame_bind, if_pos hprice]
    rfl
  have hcomes : f.ComesTo env w f w := .goes hread (.inl hpause) hheld
  exact ⟨_, hcomes.turn hc hperform,
    rfl, hc, hfree, hclosed, rfl, hprice ▸ Int32.le_refl 0, hprice ▸ hgold, hmax⟩

/-- In a turn a stay comes as far as the host lets it. -/
theorem Lodges.turn (env : Env) (h : f.Lodges w c) {paid : Number}
    (hpaid : Checked.neg (c.param 1) = .ok paid) {s : Stage} (hs : s ≠ .ended) :
    (f.atStage s).turn env (w.atStage paid s) =
      .ok ({ frame := f.atStage (s.next w.game env.host), signal := .yield },
        w.atStage paid (s.next w.game env.host)) := by
  obtain ⟨-, hmessage, htroop, hblocking, -⟩ := w.untouched_atStage paid s
  have hfree {p : Pause} :
      ({ f with pause := p } : Frame).isFree (w.atStage paid s).game = true := by
    have hfree := h.free
    unfold isFree isHeld at hfree ⊢
    rwa [hmessage, htroop, hblocking]
  have hcommand : f.ready.commands[f.ready.pc]? = some c := h.command
  have hturn {r : Awaited} (hr : f.atStage s = { f with pause := .goOn r }) {o : Outcome}
      {u : World} (ho : Commands.goOn env f.ready r (w.atStage paid s) = .ok (o, u)) :
      (f.atStage s).turn env (w.atStage paid s) = f.ready.settle env o u := by
    rw [hr, turn_of_free rfl hfree]
    exact bind_of_ok ho
  cases s with
  | offered => exact hturn rfl (Commands.answerInn_of_accepted h.closed h.accepted hcommand hpaid)
  | dark =>
    cases hpending : env.host.transitionPending with
    | true =>
      rw [Stage.next, if_pos hpending]
      exact hturn rfl (Commands.darkenInn_of_pending hpending)
    | false =>
      rw [Stage.next, if_neg (Bool.eq_false_iff.1 hpending)]
      exact hturn rfl (Commands.darkenInn_of_dark hpending)
  | tune =>
    have htune : env.host.holdsTune (w.atStage paid .tune).game = env.host.holdsTune w.game := rfl
    cases hholds : env.host.holdsTune w.game with
    | true =>
      rw [Stage.next, if_pos hholds]
      exact hturn rfl (Commands.wakeInn_of_holdsTune (htune.trans hholds))
    | false =>
      rw [Stage.next, if_neg (Bool.eq_false_iff.1 hholds)]
      exact hturn rfl (Commands.wakeInn_of_over (htune.trans hholds))
  | ended => exact absurd rfl hs

theorem Lodges.forgetOwner (h : f.Lodges w c) (mapId : Number) :
    (f.forgetOwner mapId).Lodges w c := by
  unfold Frame.forgetOwner
  split
  · exact h
  · exact ⟨h.pause, h.command, h.free, h.closed, h.accepted, h.price, h.affordable, h.bounded⟩

theorem Lodges.atStage_offered (h : f.Lodges w c) : f.atStage .offered = f := by
  rw [atStage, ← h.pause]

theorem forgetOwner_atStage (f : Frame) (mapId : Number) (s : Stage) :
    (f.atStage s).forgetOwner mapId = (f.forgetOwner mapId).atStage s := by
  have hmap : (f.atStage s).mapId = f.mapId := by cases s <;> rfl
  unfold Frame.forgetOwner
  rw [hmap]
  split
  · rfl
  · cases s <;> rfl

theorem isRunning_atStage (f : Frame) (s : Stage) : (f.atStage s).isRunning = f.isRunning := by
  cases s <;> rfl

end Frame

/-! ## Updates -/

namespace Interpreter

variable {env : Env} {data : Database} {levels : Nat} {i : Interpreter} {w w' : World} {c : Command}
  {f g : Frame} {calls : List Frame}

/-- Where the innermost frame hands over the tick, an update is its turn. -/
theorem updateFrames_of_yield (hbudget : env.data.config.maxIterations ≠ 0)
    (hlevels : calls.length < levels) (hrun : ∀ x ∈ f :: calls, x.isRunning = true)
    (ht : ((innermost { frame := f, calls }).forgetOwner w.game.field.id).turn env w =
      .ok ({ frame := g, signal := .yield }, w')) (hg : g.isRunning = true) :
    ∃ i, updateFrames env levels f calls w = .ok (i, w') ∧ i.innermost = g ∧
      i.calls.length = calls.length ∧ ∀ x ∈ i.frames, x.isRunning = true := by
  obtain ⟨n, hn⟩ := exists_budget hbudget
  induction calls generalizing f levels with
  | nil =>
    obtain ⟨levels, rfl⟩ := Nat.exists_eq_succ_of_ne_zero (Nat.ne_of_gt hlevels)
    refine ⟨{ frame := g }, ?_, rfl, rfl, fun x hx => ?_⟩
    · rw [updateFrames_succ env levels f [] hn, takeTurns_nil]
      exact goTurn_of_yield ht
    · rw [List.mem_singleton.1 hx]
      exact hg
  | cons c cs ih =>
    obtain ⟨levels, rfl⟩ := Nat.exists_eq_succ_of_ne_zero (Nat.ne_of_gt (Nat.zero_lt_of_lt hlevels))
    obtain ⟨hf, hcs⟩ := List.forall_mem_cons.1 hrun
    rw [innermost_cons] at ht
    obtain ⟨j, hj, hinner, hlength, hrunning⟩ := ih (Nat.lt_of_succ_lt_succ hlevels) hcs ht
    refine ⟨{ frame := f.forgetOwner w.game.field.id, calls := j.frames }, ?_, ?_, ?_, ?_⟩
    · rw [updateFrames_succ env levels f (c :: cs) hn, takeTurns_cons, hj]
      exact if_pos (hrunning j.frame List.mem_cons_self)
    · exact (innermost_cons _ _ _).trans hinner
    · exact congrArg (· + 1) hlength
    · exact List.forall_mem_cons.2 ⟨(f.isRunning_forgetOwner _).trans hf, hrunning⟩

/-- The interpreter stands at an inn whose offer was accepted. -/
structure AtInn (i : Interpreter) (w : World) (c : Command) : Prop where
  lodges : i.innermost.Lodges w c
  running : ∀ x ∈ i.frames, x.isRunning = true

/-- The interpreter at a stage of the stay of a frame, so many calls deep. -/
structure Stays (i : Interpreter) (f : Frame) (mapId : Number) (depth : Nat) (s : Stage) :
    Prop where
  innermost : i.innermost.forgetOwner mapId = f.atStage s
  running : ∀ x ∈ i.frames, x.isRunning = true
  depth : i.calls.length = depth

/-- In an update a stay comes as far as the host lets it. -/
theorem Stays.update (env : Env) {mapId : Number} {n : Nat} {s : Stage} {paid : Number}
    (h : i.Stays f mapId n s) (hf : f.Lodges w c) (howner : f.forgetOwner mapId = f)
    (hmap : w.game.field.id = mapId) (hpaid : Checked.neg (c.param 1) = .ok paid) (hs : s ≠ .ended)
    (hbudget : env.data.config.maxIterations ≠ 0) (hlevels : n < levels) :
    ∃ j, i.update env levels (w.atStage paid s) =
        .ok (j, w.atStage paid (s.next w.game env.host)) ∧
      j.Stays f mapId n (s.next w.game env.host) := by
  have hfield : (w.atStage paid s).game.field.id = mapId := by
    rw [(w.untouched_atStage paid s).1, hmap]
  have hturn := hf.turn env hpaid hs
  rw [← h.innermost, ← hfield] at hturn
  have hrunning : (f.atStage (s.next w.game env.host)).isRunning = true := by
    rw [Frame.isRunning_atStage]
    exact Frame.isRunning_of_mem (List.mem_of_getElem? hf.command)
  obtain ⟨j, hj, hinner, hlength, hrun⟩ :=
    updateFrames_of_yield hbudget (h.depth ▸ hlevels) h.running hturn hrunning
  refine ⟨j, hj, ?_, hrun, hlength.trans h.depth⟩
  rw [hinner, Frame.forgetOwner_atStage, howner]

/-- Updates one after the other, each with a host of its own and with nothing between them. -/
def updatesWith (data : Database) (levels : Nat) : List Host → Interpreter → Process Interpreter
  | [], i => return i
  | host :: hosts, i => do updatesWith data levels hosts (← i.update ⟨data, host⟩ levels)

theorem updatesWith_cons {host : Host} {hosts : List Host} {j : Interpreter}
    (h : i.update ⟨data, host⟩ levels w = .ok (j, w')) :
    updatesWith data levels (host :: hosts) i w = updatesWith data levels hosts j w' := by
  change Except.bind (i.update ⟨data, host⟩ levels w) (fun p => _) = _
  rw [h]
  rfl

/-- Along any hosts a stay comes as far as they let it, as long as it is not over before the
last. -/
theorem Stays.updates {mapId : Number} {n : Nat} {s : Stage} {paid : Number}
    (h : i.Stays f mapId n s) (hf : f.Lodges w c) (howner : f.forgetOwner mapId = f)
    (hmap : w.game.field.id = mapId) (hpaid : Checked.neg (c.param 1) = .ok paid)
    (hbudget : data.config.maxIterations ≠ 0) (hlevels : n < levels) (hosts : List Host)
    (hstays : hosts.dropLast.foldl (fun s host => s.next w.game host) s ≠ .ended) :
    ∃ j, updatesWith data levels hosts i (w.atStage paid s) =
        .ok (j, w.atStage paid (hosts.foldl (fun s host => s.next w.game host) s)) ∧
      j.Stays f mapId n (hosts.foldl (fun s host => s.next w.game host) s) := by
  have hended (hosts : List Host) :
      hosts.foldl (fun s host => s.next w.game host) Stage.ended = .ended := by
    induction hosts with
    | nil => rfl
    | cons host hosts ih => exact ih
  induction hosts generalizing i s with
  | nil => exact ⟨i, rfl, h⟩
  | cons host hosts ih =>
    have hs : s ≠ .ended := by
      rintro rfl
      exact hstays (hended _)
    obtain ⟨j, hj, hnext⟩ := h.update ⟨data, host⟩ hf howner hmap hpaid hs hbudget hlevels
    rw [updatesWith_cons hj, List.foldl_cons]
    cases hosts with
    | nil => exact ⟨j, rfl, hnext⟩
    | cons host' hosts => exact ih hnext hstays

/-- A stay happens once. An interpreter that stands at an inn whose offer was accepted is updated
with any hosts, one after the other, until it leaves the command. After the first update the party
has paid the price, and will not pay again, and everyone in it is restored. The machine is told no
more than is to be told, in its order, and all of it when the command is left; then the tune plays
again that played before. -/
theorem stays_once (h : i.AtInn w c) (hbudget : data.config.maxIterations ≠ 0)
    (hlevels : i.calls.length < levels) (hosts : List Host)
    (hstays : Stage.after w.game hosts.dropLast ≠ .ended) :
    ∃ i' w', updatesWith data levels hosts i w = .ok (i', w') ∧
      i'.innermost.forgetOwner w.game.field.id =
        (i.innermost.forgetOwner w.game.field.id).atStage (Stage.after w.game hosts) ∧
      (hosts = [] → w' = w) ∧
      (hosts ≠ [] → w'.game.party.gold.toInt = w.game.party.gold.toInt - (c.param 1).toInt ∧
        w'.game.party.members = w.game.party.members ∧
        ∀ id ∈ w'.game.party.members, ∀ a, w'.game.actors.get? id = some a →
          a.vitals.hp = a.vitals.maxHp ∧ a.vitals.sp = a.vitals.maxSp ∧ a.vitals.states = ∅) ∧
      (∃ done, w'.effects.toList = w.effects.toList ++ done ∧ done <+: w.game.stayEffects ∧
        (Stage.after w.game hosts = .ended → done = w.game.stayEffects)) ∧
      (Stage.after w.game hosts = .ended →
        w'.game.settings.currentBgm = w.game.settings.currentBgm) := by
  have hlodges := h.lodges.forgetOwner w.game.field.id
  obtain ⟨paid, hpaid⟩ := hlodges.exists_paid
  have hstart : i.Stays (i.innermost.forgetOwner w.game.field.id) w.game.field.id i.calls.length
      .offered := ⟨hlodges.atStage_offered.symm, h.running, rfl⟩
  obtain ⟨j, hj, hstage⟩ := hstart.updates hlodges (Frame.forgetOwner_idem _ _) rfl hpaid hbudget
    hlevels hosts hstays
  refine ⟨j, w.atStage paid (Stage.after w.game hosts), hj, hstage.innermost, ?_, ?_,
    w.effects_atStage paid _, ?_⟩
  · rintro rfl
    rfl
  · intro hne
    have hs : Stage.after w.game hosts ≠ .offered := mt Stage.after_eq_offered_iff.1 hne
    obtain ⟨-, -, -, -, hmembers⟩ := w.untouched_atStage paid (Stage.after w.game hosts)
    refine ⟨World.gold_atStage hpaid h.lodges.price h.lodges.affordable h.lodges.bounded hs,
      hmembers, fun id hid a ha => ?_⟩
    exact World.restored_atStage hs (hmembers ▸ hid) ha
  · intro hended
    rw [hended]
    exact w.currentBgm_ended paid

/-- A town with one traveller, whose inn has a tune. -/
def innTown : Database where
  system := { bgm := [{}, {}, { name := "Night" }] }
  actors := [{ id := 1, maxHp := 20, maxSp := 5 }]
  start := { party := [1], gold := 30 }

/-- The offer of a stay for ten. -/
def offerForTen : Command := { code := FieldOp.showInn.code, params := [0, 10] }

/-- The screen takes one update more, and so does the tune. -/
def slowNight : List Host :=
  [{}, { transitionPending := true }, {}, { bgmPlayedOnce := false }, {}]

/-- The player accepts the offer. -/
def accepted (w : World) : World :=
  { w with
    game := { w.game with message := Message.close { w.game.message with choiceResult := 0 } } }

/-- The offer is made and accepted, and after a slow night ten are paid and the command is left. -/
theorem slowNight_happens_once : ∃ (i j : Interpreter) (w : World),
    (idle .field 0 true).start [offerForTen] 0 1 = .ok i ∧
    i.update ⟨innTown, {}⟩ 1 { game := Game.begin innTown default } = .ok (j, w) ∧
    j.AtInn (accepted w) offerForTen ∧ Stage.after (accepted w).game slowNight = .ended ∧
    ∃ i' w', updatesWith innTown 1 slowNight j (accepted w) = .ok (i', w') ∧
      w.game.party.gold = 30 ∧ w'.game.party.gold.toInt = 20 ∧
      w'.effects.toList = w.effects.toList ++ w.game.stayEffects := by
  obtain ⟨i, hi⟩ : ∃ i, (idle .field 0 true).start [offerForTen] 0 1 = .ok i := ⟨_, rfl⟩
  obtain ⟨⟨⟨f, calls⟩, w⟩, hrun, hcalls, hpause, hcommand, hfree, hmessage, hgold, hmax, htune⟩ :
      ∃ p, i.update ⟨innTown, {}⟩ 1 { game := Game.begin innTown default } = .ok p ∧
        p.1.calls = [] ∧ p.1.frame.pause = .goOn .innAnswer ∧
        p.1.frame.commands[p.1.frame.pc]? = some offerForTen ∧
        p.1.frame.isFree (accepted p.2).game = true ∧
        (accepted p.2).game.message.choiceResult = 0 ∧ p.2.game.party.gold = 30 ∧
        p.2.game.party.goldMax = 999999 ∧ Stage.after (accepted p.2).game slowNight = .ended ∧
        Stage.after (accepted p.2).game slowNight.dropLast ≠ .ended := by
    cases hi
    decide +kernel
  obtain ⟨hended, hstays⟩ := htune
  dsimp only at hcalls
  subst hcalls
  have hatInn : AtInn { frame := f } (accepted w) offerForTen := by
    refine ⟨⟨hpause, hcommand, hfree, rfl, hmessage, by decide, ?_, ?_⟩, fun x hx => ?_⟩
    · change (10 : Number) ≤ w.game.party.gold
      rw [hgold]
      decide
    · change w.game.party.gold ≤ w.game.party.goldMax
      rw [hgold, hmax]
      decide
    · rw [List.mem_singleton.1 hx]
      exact Frame.isRunning_of_mem (List.mem_of_getElem? hcommand)
  obtain ⟨i', w', hi', -, -, hpaid, ⟨done, heffects, -, hdone⟩, -⟩ :=
    @stays_once innTown 1 _ _ _ hatInn (by decide) Nat.one_pos slowNight hstays
  obtain ⟨hpaid, -⟩ := hpaid (by decide)
  refine ⟨i, _, w, hi, hrun, hatInn, hended, i', w', hi', hgold, ?_, ?_⟩
  · rw [hpaid, show (accepted w).game.party.gold = 30 from hgold]
    decide
  · rw [heffects, hdone hended]
    rfl

end Interpreter

end EventScript
