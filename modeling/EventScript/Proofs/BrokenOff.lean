import EventScript.Proofs.Battles
import EventScript.Proofs.Replies
import EventScript.Proofs.Roles

/-!
# Battles that are broken off

The command that breaks a battle off leaves a mark and hands over the tick. The director looks at
the mark when it asks whether the battle is decided, and that is when no page is running and none is
to start.

* `Interpreter.Traced.rests`: a turn that hands over the tick amid a list is the last one of its
  update.
* `Director.windsUp_of_brokenOff`: what a beat makes of a battle that is broken off.
* `Director.battle_outlasts_terminateBattle`: the round in which a battle is broken off ends there,
  and the next one goes on behind the command. Only when no page is left the battle is aborted.
-/

namespace EventScript

open Act

/-! ## The last turn of an update -/

namespace Interpreter

variable {env : Env} {n : Nat} {f : Frame} {calls : List Frame} {w w' : World} {l : List Taken}
  {i : Interpreter}

/-- The frame hands over the tick amid a list, and has called nothing. -/
structure Taken.Rests (x : Taken) : Prop where
  signal : x.turn.signal = .yield
  isRunning : x.turn.frame.isRunning = true
  called : x.turn.called = none

/-- An update ends with a turn, and its frame is the one to go on. -/
structure Taken.Ends (x : Taken) (i : Interpreter) (w' : World) : Prop where
  innermost : i.innermost = x.turn.frame
  isRunning : i.isRunning = true
  world : w' = x.after

/-- A turn that rests is the last one of its update. -/
theorem Traced.rests (h : Traced env n f calls w l i w') (hn : Nested f calls) :
    l.Pairwise (fun x _ => ¬ x.Rests) ∧ ∀ x ∈ l, x.Rests → x.Ends i w' := by
  induction h with
  | spent => exact ⟨.nil, List.forall_mem_nil _⟩
  | forgets _ ih => exact ih (nested_forgetOwner _ hn)
  | @yields n f w w' t _ _ =>
    refine ⟨List.pairwise_singleton _ _, List.forall_mem_singleton.2 fun hx => ?_⟩
    have hcalled : t.called = none := hx.called
    refine ⟨?_, hx.isRunning, rfl⟩
    rw [hcalled]
    rfl
  | @again n f w w' _ t l _ ht hs _ ih =>
    obtain ⟨hpairs, hlast⟩ := ih (nested_of_turn hn ht)
    have hgoes : ¬ Taken.Rests ⟨f, w, t, w', n⟩ := fun hx => nomatch hs.symm.trans hx.signal
    exact ⟨List.pairwise_cons.2 ⟨fun _ _ => hgoes, hpairs⟩,
      List.forall_mem_cons.2 ⟨fun hx => absurd hx hgoes, hlast⟩⟩
  | inner _ _ ih =>
    obtain ⟨-, hrun, hcalls⟩ := hn
    obtain ⟨hpairs, hlast⟩ := ih hcalls
    refine ⟨hpairs, fun x hx hrests => ?_⟩
    obtain ⟨hinnermost, -, hworld⟩ := hlast x hx hrests
    exact ⟨(innermost_cons _ _ _).trans hinnermost, hrun, hworld⟩
  | @ended n f c cs _ _ _ l l' _ _ _ hend _ ih ih' =>
    obtain ⟨hwaiting, -, hcalls⟩ := hn
    obtain ⟨hpairs, hlast⟩ := ih hcalls
    obtain ⟨hpairs', hlast'⟩ := ih' hwaiting
    -- An event in which a turn rests has not come to its end.
    have hnone : ∀ x ∈ l, ¬ x.Rests := fun x hx hrests =>
      nomatch hend.symm.trans (hlast x hx hrests).isRunning
    exact ⟨List.pairwise_append.2 ⟨hpairs, hpairs', fun x hx _ _ => hnone x hx⟩,
      List.forall_mem_append.2 ⟨fun x hx hrests => absurd hrests (hnone x hx), hlast'⟩⟩

end Interpreter

/-- A turn of a frame that waits for nothing runs the command at hand. -/
theorem Frame.runs_of_turn {env : Env} {f : Frame} {w w' : World} {t : Turn} {c : Command}
    (ht : f.turn env w = .ok (t, w')) (hpause : f.pause = .ready)
    (hread : w.game.message.waiting = false) (hfree : f.isHeld w.game = false)
    (hc : f.commands[f.pc]? = some c) : f.Runs env w c t w' := by
  cases turns_of_turn env f w t w' ht with
  | reads h => cases hread.symm.trans h
  | follows hk | followed _ hk | polls hk | hits hk | counts _ hk => cases hpause.symm.trans hk
  | goes _ _ hproceeds =>
    cases hproceeds with
    | held h => cases hfree.symm.trans h
    | resumes _ hk => cases hpause.symm.trans hk
    | performs _ _ hc' ho ht' =>
      cases hc.symm.trans hc'
      exact .intro (.goes hread (.inl hpause) hfree) hc ho ht'
    | finishes _ hc' => cases hc.symm.trans hc'
    | starts hrun | idles hrun | ended hrun =>
      cases hrun.symm.trans (isRunning_of_mem (List.mem_of_getElem? hc))

/-! ## The turn that breaks a battle off -/

namespace Interpreter.Taken

variable {env : Env} {x y : Taken}

/-- The turn runs the command that breaks the battle off, on a page of the troop or in an event that
it called. -/
structure BreaksOff (env : Env) (x : Taken) : Prop where
  runs : ∃ c, c.opcode = .battle .terminateBattle ∧ x.frame.Runs env x.before c x.turn x.after
  context : x.frame.context = .battle
  fought : x.before.game.troop.isSome = true

/-- What a turn leaves that breaks the battle off: the mark, the result, and its frame behind the
command. -/
structure LeavesOff (x : Taken) : Prop where
  rests : x.Rests
  frame : x.turn.frame = x.frame.goto x.frame.pc
  broken : x.after.game.BrokenOff
  result : x.after.game.scene.battleResult = .abort

theorem BreaksOff.leaves (h : x.BreaksOff env) : x.LeavesOff := by
  obtain ⟨⟨c, hop, hruns⟩, hcontext, hfought⟩ := h
  generalize hafter : x.after = w', hturn : x.turn = t at hruns
  cases hruns with
  | @intro g u v _ o _ hcomes hc ho hsettle =>
    obtain ⟨hcommands, hpc, hsame, hstations⟩ := hcomes.same
    have hcontext : g.context = .battle := hsame.trans hcontext
    have hgoto : g.goto g.pc = x.frame.goto x.frame.pc := by
      cases hcomes <;> rfl
    obtain ⟨t₀, ht₀⟩ := Option.isSome_iff_exists.1 hfought
    obtain ⟨t₁, ht₁, -⟩ := hstations.sameFight.some t₀ ht₀
    have hperform : Commands.perform env g c = Commands.terminateBattle g := by
      unfold Commands.perform
      simp only [hop, hcontext]
      rfl
    rw [hperform] at ho
    obtain ⟨rfl, ⟨t₂, -, htroop⟩, hresult⟩ := Commands.breaksOff_of_terminateBattle g ht₁ o v ho
    have hbroken : v.game.BrokenOff := ⟨_, htroop, rfl⟩
    have hrun : (g.goto g.pc).isRunning = true :=
      Frame.isRunning_of_mem (f := g.goto g.pc) (List.mem_of_getElem? hc)
    cases hsettle
    refine ⟨⟨?_, ?_, ?_⟩, ?_, hafter ▸ hbroken, hafter ▸ hresult⟩
    · rw [hturn]
    · rw [hturn]
      exact hrun
    · rw [hturn]
    · rw [hturn]
      exact hgoto

/-- A turn takes up a list where another one left it. Unless something holds it up, it runs the next
command. -/
structure TakesUp (env : Env) (x y : Taken) : Prop where
  commands : y.frame.commands = x.frame.commands
  pc : y.frame.pc = min (x.frame.pc + 1) x.frame.commands.length
  runs : ∀ c, x.frame.commands[x.frame.pc + 1]? = some c → y.before.game.message.waiting = false →
    y.before.game.scene.isBlocking = false → y.frame.Runs env y.before c y.turn y.after

theorem LeavesOff.takesUp (h : x.LeavesOff) (hcontext : x.frame.context = .battle)
    (hy : y.frame = { x.turn.frame with owner := y.frame.owner })
    (hturn : y.frame.turn env y.before = .ok (y.turn, y.after)) : x.TakesUp env y := by
  rw [h.frame] at hy
  have hcommands : y.frame.commands = x.frame.commands := by rw [hy]; rfl
  have hpc : y.frame.pc = min (x.frame.pc + 1) x.frame.commands.length := by rw [hy]; rfl
  refine ⟨hcommands, hpc, fun c hc hread hfree => ?_⟩
  have hpause : y.frame.pause = .ready := by rw [hy]; rfl
  have hheld : y.frame.isHeld y.before.game = false := by
    have hbattle : y.frame.context = .battle := by rw [hy]; exact hcontext
    simp [Frame.isHeld, hbattle, hfree]
  refine Frame.runs_of_turn hturn hpause hread hheld ?_
  obtain ⟨hlt, -⟩ := List.getElem?_eq_some_iff.1 hc
  rw [hpc, hcommands, Nat.min_eq_left hlt.le]
  exact hc

end Interpreter.Taken

/-- A turn after which the battle is broken off, and before which it was not, is one that breaks it
off. -/
theorem Interpreter.Taken.BreaksOff.of_brokenOff {env : Env} {x : Taken}
    (hturn : x.frame.turn env x.before = .ok (x.turn, x.after)) (h : ¬ x.before.game.BrokenOff)
    (h' : x.after.game.BrokenOff) : x.BreaksOff env := by
  have hsame (hfight : x.after.game.fight = x.before.game.fight) : False :=
    h ((Game.sameFight_of_fight hfight.symm).brokenOff h')
  rcases Frame.stations_of_turn env _ _ _ _ hturn with hstations | ⟨c, -, hruns⟩
  · exact (hsame hstations.fight).elim
  · obtain ⟨g, u, v, o, hcontext, hstations, ho, hw⟩ := hruns.performed
    rcases Commands.fight_of_perform env g c u o v ho with hfight | ⟨hbattle, hop, hbroken⟩
    · exact (hsame (hw ▸ hfight.trans hstations.fight)).elim
    · refine ⟨⟨c, hop, hruns⟩, hcontext ▸ hbattle, ?_⟩
      obtain ⟨t, ht, -⟩ := hbroken.troop
      have hfought := hstations.fight
      rw [Game.fight, ht] at hfought
      obtain ⟨t₀, ht₀, -⟩ := Option.map_eq_some_iff.1 hfought.symm
      exact Option.isSome_iff_exists.2 ⟨t₀, ht₀⟩

namespace Director

variable {data : Database} {random : Random} {d d' d₁ : Director} {e : Entry}
  {turns : List Interpreter.Taken}

/-! ## Rounds of a battle -/

/-- A round in which the pages of the battle run, with the director that takes the turns. -/
structure Entry.Plays (e : Entry) (d₁ : Director) (turns : List Interpreter.Taken) : Prop where
  round : e.beat = .advance none
  read : e.before.game.message.waiting = false
  fought : e.before.game.troop.isSome = true
  page : RunsPage e.before d₁
  turns : ∃ w, Interpreter.Traced d₁.env (Interpreter.budget d₁.env) d₁.battle.frame
      d₁.battle.calls d₁.world turns e.after.battle w ∧
    tickWorld { d₁ with world := w, battle := e.after.battle } = .ok ((), e.after)

/-- A round in which no page is running and none may start, and the battle is aborted. -/
structure Entry.Aborts (e : Entry) : Prop where
  round : e.beat = .advance none
  idle : e.before.battle.isRunning = false
  exhausted : ∃ d₁, startNextPage e.before = .ok (false, d₁)
  ended : e.after.game.troop = none
  result : e.after.game.scene.battleResult = .abort

theorem exists_plays (hread : d.game.message.waiting = false)
    (hfought : d.game.troop.isSome = true) {j : Interpreter} {w : World} (hpage : RunsPage d d₁)
    (hupdate : d₁.battle.update d₁.env levels d₁.world = .ok (j, w))
    (hworld : tickWorld { d₁ with world := w, battle := j } = .ok ((), d')) :
    ∃ turns, Entry.Plays ⟨.advance none, d, d'⟩ d₁ turns := by
  obtain ⟨turns, hturns⟩ := Interpreter.traced_of_update _ _ _ _ _ hupdate
  have hbattle : d'.battle = j := (goesOn_of_update hupdate hworld).battle
  exact ⟨turns, rfl, hread, hfought, hpage, w, hbattle ▸ hturns, hbattle ▸ hworld⟩

/-- A round of a battle that is not over after it and goes on. -/
theorem plays_of_advance (h : advance d = .ok (none, d')) (hread : d.game.message.waiting = false)
    (hfought : d.game.troop.isSome = true) (hon : d'.game.troop.isSome = true) :
    ∃ d₁ turns, Entry.Plays ⟨.advance none, d, d'⟩ d₁ turns := by
  obtain ⟨ran, htick, hstop⟩ := battleTicks_of_advance h hread hfought
  cases htick with
  | goes hpage hupdate hworld => exact ⟨_, exists_plays hread hfought hpage hupdate hworld⟩
  | settles _ _ _ hsettle =>
    rw [troop_of_settleBattle _ _ () d' hsettle] at hon
    cases hon
  | rests => cases hstop

/-- The frames of the battle are nested when its turns are taken. -/
theorem Entry.Plays.nested (h : e.Plays d₁ turns) (hreach : Reachable data random e.before) :
    Interpreter.Nested d₁.battle.frame d₁.battle.calls := by
  have hnested : AllNested e.before :=
    hreach.leads.keeps (I := AllNested) (fun p _ => allNested_of_part p)
      (allNested_begin data random)
  rcases h.page with ⟨-, rfl⟩ | ⟨-, hstart⟩
  · exact hnested .battle
  · have hpart : Part.run .bindTroop e.before = .ok ((), d₁) := bind_of_ok hstart
    exact allNested_of_part _ hnested () d₁ hpart .battle

/-- A turn that breaks the battle off ends its round, after which the battle is broken off, and its
frame is the one to go on. -/
theorem Entry.Plays.ends (h : e.Plays d₁ turns) (hreach : Reachable data random e.before)
    {x : Interpreter.Taken} (hx : x ∈ turns) (hleft : x.LeavesOff) :
    (∃ earlier, turns = earlier ++ [x]) ∧ e.after.game.BrokenOff ∧
      e.after.battle.innermost = x.turn.frame ∧ e.after.battle.isRunning = true := by
  obtain ⟨w, hturns, hworld⟩ := h.turns
  obtain ⟨hpairs, hlast⟩ := hturns.rests (h.nested hreach)
  obtain ⟨hinnermost, hrun, rfl⟩ := hlast x hx hleft.rests
  have hsame := sameBattle_of_part (p := .world) rfl _ () e.after hworld
  refine ⟨?_, hsame.fight.brokenOff hleft.broken, hinnermost, hrun⟩
  obtain ⟨earlier, later, rfl⟩ := List.append_of_mem hx
  cases later with
  | nil => exact ⟨earlier, rfl⟩
  | cons z later =>
    obtain ⟨-, hpairs, -⟩ := List.pairwise_append.1 hpairs
    exact absurd hleft.rests ((List.pairwise_cons.1 hpairs).1 z List.mem_cons_self)

/-- If the battle is broken off in a round, it is by one of the turns. -/
theorem Entry.Plays.exists_breaksOff (h : e.Plays d₁ turns) (hbefore : ¬ e.before.game.BrokenOff)
    (hafter : e.after.game.BrokenOff) : ∃ x ∈ turns, x.BreaksOff d₁.env := by
  obtain ⟨w, hturns, hworld⟩ := h.turns
  have htick : Ensures tickWorld { d₁ with world := w, battle := e.after.battle }
      fun _ d' => w.game.SameStations d'.game := by
    simp only [tickWorld, ensures_bind, Directing.ensures_get, Directing.ensures_act]
    exact within_tick (R := World.Over Game.SameStations) _ w
  have hw : w.game.BrokenOff :=
    (Game.sameFight_of_fight (htick () e.after hworld).fight.symm).brokenOff hafter
  obtain ⟨earlier, x, later, rfl, hx, hx'⟩ := hturns.exists_turn (P := fun u => u.game.BrokenOff)
    (fun hbroken => hbefore (h.page.game ▸ hbroken)) hw
  have hmem : x ∈ earlier ++ x :: later := List.mem_append_right _ List.mem_cons_self
  exact ⟨x, hmem, .of_brokenOff (hturns.taken x hmem) hx hx'⟩

/-! ## Every run -/

/-- Whether a beat is none of the battle's: a tick of the field, an order that is none to the
battle, or a round while the message window waits to be read. -/
def Entry.isAside (e : Entry) : Bool :=
  match e.beat with
  | .order o => !o.isMartial
  | .tick => true
  | .advance _ => e.before.game.message.waiting

theorem sameBattle_of_isAside (he : e.Sound) (h : e.isAside = true) :
    SameBattle e.before e.after := by
  obtain ⟨beat, d, d'⟩ := e
  cases beat with
  | order o => exact sameBattle_of_order (by simpa [Entry.isAside] using h) d () d' he
  | tick => exact sameBattle_of_fieldTick d () d' he
  | advance stop =>
    have hwaits : d.game.message.waiting = true := h
    cases advances_of_advance d stop d' he with
    | reads => exact .refl _
    | fights hread | asks hread | ticks hread => cases hwaits.symm.trans hread

theorem sameBattle_of_asides {es : List Entry} (h : Beats d es d')
    (hes : ∀ e ∈ es, e.isAside = true) : SameBattle d d' := by
  induction es generalizing d with
  | nil =>
    cases h
    exact .refl _
  | cons e es ih =>
    obtain ⟨rfl, he, h⟩ := h
    obtain ⟨haside, hes⟩ := List.forall_mem_cons.1 hes
    exact (sameBattle_of_isAside he haside).trans (ih h hes)

/-- What a beat makes of a battle that is broken off. -/
inductive Entry.WindsUp (e : Entry) : Prop
  /-- It is none of the battle's. -/
  | aside (h : e.isAside = true) (hsame : SameBattle e.before e.after)
  /-- A page goes on or starts as in any other battle. -/
  | plays {d₁ : Director} {turns : List Interpreter.Taken} (h : e.Plays d₁ turns)
      (hbroken : e.after.game.BrokenOff)
  /-- No page is left, and the battle is over. -/
  | aborts (h : e.Aborts)
  /-- The owner has decided about the battle. -/
  | ordered {o : Order} (h : e.beat = .order o) (ho : o.isMartial = true)

theorem decided?_of_brokenOff {g : Game} (h : g.BrokenOff) : decided? g = some .abort := by
  obtain ⟨t, ht, hterminated⟩ := h
  simp [decided?, ht, hterminated]

theorem windsUp_of_brokenOff (he : e.Sound) (h : e.before.game.BrokenOff) : e.WindsUp := by
  cases haside : e.isAside with
  | true => exact .aside haside (sameBattle_of_isAside he haside)
  | false =>
    obtain ⟨beat, d, d'⟩ := e
    cases beat with
    | tick => cases haside
    | order o => exact .ordered rfl (by simpa [Entry.isAside] using haside)
    | advance stop =>
      obtain ⟨t, ht, hterminated⟩ := h
      have hbroken : d.game.BrokenOff := ⟨t, ht, hterminated⟩
      have hfought : d.game.troop.isSome = true := Option.isSome_iff_exists.2 ⟨t, ht⟩
      have hread : d.game.message.waiting = false := haside
      obtain ⟨ran, htick, rfl⟩ := battleTicks_of_advance he hread hfought
      cases htick with
      | goes hpage hupdate hworld =>
        obtain ⟨turns, hplays⟩ := exists_plays hread hfought hpage hupdate hworld
        refine .plays hplays ?_
        exact (hpage.game ▸ (goesOn_of_update hupdate hworld).fight).brokenOff hbroken
      | @settles d₁ _ result hidle hnone hresult hsettle =>
        have hgame : d₁.game = d.game := game_of_startNextPage d false d₁ hnone
        rw [hgame, decided?_of_brokenOff hbroken] at hresult
        cases hresult
        have hover : Ensures (settleBattle .abort) d₁ fun _ d' =>
            d'.game.troop = none ∧ d'.game.scene.battleResult = .abort := by
          simp only [settleBattle, ensures_bind, Directing.ensures_act, ensures_getGame,
            ensures_check, ensures_setGame, Directing.ensures_modify]
          exact fun _ _ => ⟨rfl, rfl⟩
        obtain ⟨htroop, hresult⟩ := hover () d' hsettle
        exact .aborts ⟨rfl, hidle, ⟨d₁, hnone⟩, htroop, hresult⟩
      | rests hidle hnone hopen =>
        have hgame : d'.game = d.game := game_of_startNextPage d false d' hnone
        rw [hgame, decided?_of_brokenOff hbroken] at hopen
        cases hopen

/-- After a turn that breaks the battle off, the next round begins behind the command. -/
theorem takesUp_of_advance {x : Interpreter.Taken} {stop : Option Stop}
    (hbudget : Interpreter.budget d.env ≠ 0) (h : advance d = .ok (stop, d'))
    (hread : d.game.message.waiting = false) (hbroken : d.game.BrokenOff)
    (hleft : x.LeavesOff) (hcontext : x.frame.context = .battle)
    (hinnermost : d.battle.innermost = x.turn.frame) (hrun : d.battle.isRunning = true) :
    ∃ y rest, Entry.Plays ⟨.advance stop, d, d'⟩ d (y :: rest) ∧ y.before = d.world ∧
      x.TakesUp d.env y := by
  obtain ⟨t, ht, -⟩ := hbroken
  have hfought : d.game.troop.isSome = true := Option.isSome_iff_exists.2 ⟨t, ht⟩
  obtain ⟨ran, htick, rfl⟩ := battleTicks_of_advance h hread hfought
  cases htick with
  | settles hidle | rests hidle => cases hrun.symm.trans hidle
  | goes hpage hupdate hworld =>
    rcases hpage with ⟨-, rfl⟩ | ⟨hidle, -⟩
    · obtain ⟨turns, hplays⟩ := exists_plays hread hfought (.inl ⟨hrun, rfl⟩) hupdate hworld
      obtain ⟨w, hturns, -⟩ := hplays.turns
      obtain ⟨y, rest, rfl, hbefore, hframe⟩ := hturns.begins hbudget (.inr hbudget)
      have hy := hframe.trans (congrArg (fun f => { f with owner := y.frame.owner }) hinnermost)
      exact ⟨y, rest, hplays, hbefore,
        hleft.takesUp hcontext hy (hturns.taken y List.mem_cons_self)⟩
    · cases hrun.symm.trans hidle

/-- The pages of a troop whose battle is broken off, in any run of a database that passes. The turn
that breaks the battle off is the last one of its round, and leaves its frame behind the command.
However long the battle is left alone then, its next round takes the list up there, and where
nothing holds it up it runs the next command. A battle that is broken off is aborted in the first
round that finds no page running and none to start: as long as there is one, the rounds go on with
the pages. -/
theorem battle_outlasts_terminateBattle (hvalid : data.validate = .ok ())
    (h : Reachable data random d) :
    (∃ es, Beats (begin data random) es d) ∧
    ∀ es, Beats (begin data random) es d → ∀ pre e post, es = pre ++ e :: post →
      (∀ d₁ turns, e.Plays d₁ turns →
        (¬ e.before.game.BrokenOff → e.after.game.BrokenOff → ∃ x ∈ turns, x.BreaksOff d₁.env) ∧
        ∀ x ∈ turns, x.BreaksOff d₁.env →
          (∃ earlier, turns = earlier ++ [x]) ∧ x.LeavesOff ∧ e.after.game.BrokenOff ∧
          ∀ mid e' post', post = mid ++ e' :: post' → (∀ m ∈ mid, m.isAside = true) →
            (∃ stop, e'.beat = .advance stop) → e'.before.game.message.waiting = false →
            ∃ y rest, e'.Plays e'.before (y :: rest) ∧ y.before = e'.before.world ∧
              x.TakesUp e'.before.env y) ∧
      (e.before.game.BrokenOff → e.WindsUp) := by
  refine ⟨h.exists_beats, fun es hes pre e post hsplit => ?_⟩
  obtain ⟨hpre, he, hpost⟩ := (hsplit ▸ hes).apart
  have hreach {xs : List Entry} {u : Director} (hxs : Beats (begin data random) xs u) :
      Reachable data random u := .beats ⟨[], rfl⟩ hxs
  refine ⟨fun d₁ turns hplays => ⟨hplays.exists_breaksOff, fun x hx hbreaks => ?_⟩,
    windsUp_of_brokenOff he⟩
  obtain ⟨hlast, hbroken, hinnermost, hrun⟩ := hplays.ends (hreach hpre) hx hbreaks.leaves
  refine ⟨hlast, hbreaks.leaves, hbroken, ?_⟩
  rintro mid ⟨beat, u, u'⟩ post' rfl haside ⟨stop, rfl⟩ hread
  obtain ⟨hmid, he', -⟩ := hpost.apart
  have hsame : SameBattle e.after u := sameBattle_of_asides hmid haside
  have hround : Beats e.before [e] e.after := ⟨rfl, he, rfl⟩
  have hmanned : Manned data u := Reachable.manned (hreach ((hpre.append hround).append hmid))
  have hdata : u.data = data := hmanned.data
  have hbudget : Interpreter.budget u.env ≠ 0 := by
    have hpos := Database.maxIterations_ne_zero hvalid
    rw [← hdata] at hpos
    exact fun hzero => hpos (UInt64.toNat_inj.1 hzero)
  exact takesUp_of_advance hbudget he' hread (hsame.fight.brokenOff hbroken) hbreaks.leaves
    hbreaks.context (hsame.battle ▸ hinnermost) (hsame.battle ▸ hrun)

/-- Whether a round is one of a battle. -/
def isFighting (d : Director) : Bool := !d.game.message.waiting && d.game.troop.isSome

theorem isFighting_iff :
    d.isFighting = true ↔ d.game.message.waiting = false ∧ d.game.troop.isSome = true := by
  simp [isFighting]

/-- The page of the troop goes on behind the command that breaks the battle off. -/
def retreat : Database where
  maps := [{ id := 1, events := [{ id := 1, pages := [{
    trigger := .autoStart
    commands := [{ code := FieldOp.enemyEncounter.code, params := [0, 1] }] }] }] }]
  troops := [{ id := 1, pages := [{
    condition := { turn := some { start := 0, every := 0 } }
    commands := [{ code := BattleOp.terminateBattle.code },
      { code := SharedOp.controlVariables.code, params := [0, 1, 1, 0, 0, 5] }] }] }]

/-- In the round after the one in which the battle is broken off, the variable is set. -/
theorem retreat_sets_variable : retreat.validate = .ok () ∧ ∃ d es e₁ e₂ d₁ turns x y rest,
    Reachable retreat default d ∧ Beats (begin retreat default) (es ++ [e₁, e₂]) d ∧
    e₁.Plays d₁ turns ∧ x ∈ turns ∧ x.BreaksOff d₁.env ∧ e₂.before.game.vars.get 1 = 0 ∧
    e₂.Plays e₂.before (y :: rest) ∧ x.TakesUp e₂.before.env y ∧ e₂.WindsUp ∧
    e₂.after.game.BrokenOff ∧ e₂.after.game.vars.get 1 = 5 := by
  have hvalid : retreat.validate = .ok () := by rfl
  have hrun : ∃ d₁, [Call.execute 5, .order .openBattle].forM Call.run (begin retreat default) =
      .ok ((), d₁) ∧ (d₁.isFighting = true ∧ ¬ d₁.game.BrokenOff ∧
        ∃ stop d₂, advance d₁ = .ok (stop, d₂) ∧ (stop = none ∧ d₂.isFighting = true ∧
          d₂.game.BrokenOff ∧ d₂.game.vars.get 1 = 0 ∧
          ∃ stop d₃, advance d₂ = .ok (stop, d₃) ∧ d₃.game.BrokenOff ∧
            d₃.game.vars.get 1 = 5)) := by
    decide +kernel
  obtain ⟨d₁, hcalls, hfights₁, hwhole, _, d₂, hround₁, rfl, hfights₂, hbroken₂, hvar₂, stop, d₃,
    hround₂, hbroken₃, hvar₃⟩ := hrun
  obtain ⟨hread₁, hon₁⟩ := isFighting_iff.1 hfights₁
  obtain ⟨hread₂, hon₂⟩ := isFighting_iff.1 hfights₂
  have hreach : Reachable retreat default d₁ := ⟨_, hcalls⟩
  obtain ⟨es, hes⟩ := hreach.exists_beats
  let e₁ : Entry := ⟨.advance none, d₁, d₂⟩
  let e₂ : Entry := ⟨.advance stop, d₂, d₃⟩
  have hbeats : Beats (begin retreat default) (es ++ [e₁, e₂]) d₃ :=
    hes.append ⟨rfl, hround₁, rfl, hround₂, rfl⟩
  have hreach₃ : Reachable retreat default d₃ := Reachable.beats ⟨[], rfl⟩ hbeats
  obtain ⟨d₁', turns, hplays⟩ := plays_of_advance hround₁ hread₁ hon₁ hon₂
  obtain ⟨-, hall⟩ := battle_outlasts_terminateBattle hvalid hreach₃
  obtain ⟨hbreaks, -⟩ := hall _ hbeats es e₁ [e₂] rfl
  obtain ⟨hexists, hnext⟩ := hbreaks d₁' turns hplays
  obtain ⟨x, hx, hx'⟩ := hexists hwhole hbroken₂
  obtain ⟨-, -, -, hnext⟩ := hnext x hx hx'
  obtain ⟨y, rest, hplays', -, htakes⟩ :=
    hnext [] e₂ [] rfl (List.forall_mem_nil _) ⟨stop, rfl⟩ hread₂
  obtain ⟨-, hwinds⟩ := hall _ hbeats (es ++ [e₁]) e₂ [] (by simp)
  exact ⟨hvalid, d₃, es, e₁, e₂, d₁', turns, x, y, rest, hreach₃, hbeats, hplays, hx, hx', hvar₂,
    hplays', htakes, hwinds hbroken₂, hbroken₃, hvar₃⟩

end Director

end EventScript
