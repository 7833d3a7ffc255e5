import EventScript.Database.Validation
import EventScript.Proofs.Agents
import EventScript.Proofs.Calls

/-!
# Whose answer an event gets

Answers stand in one place for all interpreters. From the moment an interpreter asks for one, what
stands there is the last answer that was given, as long as no other interpreter asks for an answer
of the same kind.

* `Director.Opens` says that a part of a call makes an agent ask for an answer, `Part.answer?` that
  it gives one.
* `reply_of_part`: nothing else changes an answer, so `reply_of_history` reads it off a run in which
  nobody asks.
* `askedLast_of_history`: whoever waits for an answer has asked for it.
* `goes_on_by_last_answer` puts these together. An interpreter that asks while the answer of another
  was not yet taken up leaves its own answer to both, as `crossed_choices_share_an_answer` shows.
-/

namespace EventScript.Director

open Interpreter

variable {a b : Agent} {q : Asked} {p : Part} {d d' d'' : Director} {hs : List (Part × Director)}

/-- The frame in which an agent goes on. -/
def innermost (d : Director) (a : Agent) : Frame := (d.interpreter a).innermost

/-- The answer of a kind that a part gives. -/
def Part.answer? (p : Part) (q : Asked) (d : Director) : Option Reply :=
  match p with
  | .order o => o.answer? q d
  | _ => none

/-- In an update an agent asks for an answer of a kind: it waits for one afterwards, and it is not
that it was waiting before and could not go on. -/
structure Opens (a : Agent) (q : Asked) (p : Part) (d d' : Director) : Prop where
  update : p = .update a
  awaits : (d'.innermost a).awaits q = true
  anew : ¬ ((d.innermost a).awaits q = true ∧ (d.innermost a).isFree d.game = false)

/-- Somewhere in a run an agent asks for an answer of a kind. -/
def OpenedIn (a : Agent) (q : Asked) : Director → List (Part × Director) → Prop
  | _, [] => False
  | d, (p, d') :: hs => Opens a q p d d' ∨ OpenedIn a q d' hs

/-- The answer of a kind that was given last in a run, after one that stood there before. -/
def lastReply (q : Asked) (r : Reply) (d : Director) : List (Part × Director) → Reply
  | [] => r
  | (p, d') :: hs => lastReply q ((p.answer? q d).getD r) d' hs

/-- In a run an agent asked for an answer of a kind for the last time, which left a director, and
what follows is the rest of the run. -/
structure AskedLast (a : Agent) (q : Asked) (d : Director) (hs : List (Part × Director))
    (asked : Director) (rest : List (Part × Director)) (d' : Director) : Prop where
  opened : ∃ before asking, hs = before ++ (.update a, asked) :: rest ∧ History d before asking ∧
    Part.run (.update a) asking = .ok ((), asked) ∧ Opens a q (.update a) asking asked
  follows : History asked rest d'
  never : ¬ OpenedIn a q asked rest

/-- In its next update an agent goes on with a command that asked for something, and is sent by the
answer that stands there. -/
structure Resumes (a : Agent) (k : Awaited) (d : Director) (o : Outcome) : Prop where
  awaits : (d.innermost a).pause = .goOn k
  isFree : (d.innermost a).isFree d.game = true
  goesOn : ∃ w, Commands.goOn d.env (d.innermost a).ready k d.world = .ok (o, w)

/-! ## Nothing else changes an answer -/

/-- The frames of every agent are nested. -/
def AllNested (d : Director) : Prop := ∀ a, Nested (d.interpreter a).frame (d.interpreter a).calls

theorem allNested_begin (data : Database) (random : Random) : AllNested (begin data random) := by
  intro a
  cases a <;> exact Frame.waiting_of_pause nofun

theorem allNested_of_part (p : Part) (h : AllNested d) :
    Ensures p.run d fun _ d' => AllNested d' := by
  refine (fates_of_part p d).imp fun _ d' hfates b => ?_
  cases hfates.fate b with
  | stays hs =>
    rw [hs]
    exact h b
  | updated _ hupdate =>
    exact ((updated_of_update _ _ _ _ _ hupdate).reply (h b) .choice).1
  | starts f hf _ hpause =>
    rw [hf]
    refine Frame.waiting_of_pause ?_
    rw [hpause]
    exact nofun
  | dropped context isRoot hi =>
    rw [hi]
    exact Frame.waiting_of_pause nofun

/-- An agent that waits for an answer after a part was waiting before, or asks for it there. -/
theorem awaits_of_part (hr : p.run d = .ok ((), d')) (h : (d'.innermost a).awaits q = true) :
    (d.innermost a).awaits q = true ∨ Opens a q p d d' := by
  have hready {f : Frame} (hf : f.pause = .ready) : f.awaits q = false := by
    rw [Frame.awaits, hf]
  unfold innermost at h ⊢
  cases (fates_of_part p d () d' hr).fate a with
  | stays hs =>
    rw [hs] at h
    exact .inl h
  | updated hp _ =>
    by_cases hold : (d.innermost a).awaits q = true
    · exact .inl hold
    · exact .inr ⟨hp, h, fun ⟨hbefore, _⟩ => hold hbefore⟩
  | starts f hf _ hpause =>
    rw [hf] at h
    exact absurd h (Bool.eq_false_iff.1 (hready hpause))
  | dropped context isRoot hi =>
    rw [hi] at h
    exact absurd h (Bool.eq_false_iff.1 (hready rfl))

theorem reply_of_tick (data : Database) (q : Asked) (w : World) :
    Ensures (Act.tick data) w fun _ w' => w'.game.reply q = w.game.reply q := by
  have hroutes (ids : List Number) : (ids.forM Act.stepRoute).Notes :=
    .forM fun id _ => Act.within_stepRoute id
  have hsame {g g' : Game} (h : g'.answers = g.answers) (ht : g'.troop = g.troop) :
      g'.reply q = g.reply q := Game.reply_of_answers h (by rw [ht]) q
  simp only [Act.tick, ensures_bind, Act.ensures_modifyGame, Act.ensures_getGame]
  refine (hroutes _ _).imp fun _ u hu => ?_
  have hmoved := (hu.reply q).trans (hsame (g := w.game) rfl rfl)
  simp only [ensures_ite, Act.showPages, ensures_bind, Act.ensures_modifyGame]
  exact ⟨fun _ => (hsame rfl rfl).trans hmoved, fun _ => (hsame rfl rfl).trans hmoved⟩

theorem reply_of_teleport (d : Director) (q : Asked) :
    Ensures carryTeleport d fun _ d' => d'.game.reply q = d.game.reply q := by
  have hsame {g : Game} (h : g.answers = d.game.answers) (ht : g.troop = d.game.troop) :
      g.reply q = d.game.reply q := Game.reply_of_answers h (by rw [ht]) q
  simp only [carryTeleport, ensures_bind, Directing.ensures_act, Act.ensures_getGame]
  split
  · exact ensures_pure.2 rfl
  · simp only [ensures_bind, Directing.ensures_act, Act.ensures_modifyGame, ensures_ite,
      Directing.ensures_get, Directing.ensures_modify, Act.enterMap, Act.ensures_warn]
    refine ⟨fun _ => ⟨fun _ => hsame rfl rfl, fun _ => hsame rfl rfl⟩, fun _ => hsame rfl rfl⟩

/-- An update changes an answer only where the agent asks for one of that kind. -/
theorem reply_updateAgent (a : Agent) (q : Asked) (h : AllNested d) :
    Ensures (updateAgent a) d fun _ d' =>
      d'.game.reply q = d.game.reply q ∨ Opens a q (.update a) d d' := by
  simp only [updateAgent, ensures_bind, Directing.ensures_get, ensures_update,
    Directing.ensures_modify]
  refine (updated_of_update _ _ _).imp fun i w hi => ?_
  rw [game, world_withInterpreter]
  rcases (hi.reply (h a) q).2 with hsame | ⟨hawaits, -⟩
  · exact .inl hsame
  by_cases hheld : (d.innermost a).awaits q = true ∧ (d.innermost a).isFree d.game = false
  · -- Nothing was written, as the agent could not go on.
    obtain ⟨rfl, -⟩ := hi.held (h a) hheld.1 hheld.2
    exact .inl rfl
  · refine .inr ⟨rfl, ?_, hheld⟩
    rw [innermost, interpreter_withInterpreter, if_pos rfl]
    exact hawaits

/-- After a part there stands the answer it gave or the one from before, but where an agent asks for
one of that kind. -/
theorem reply_of_part (p : Part) (q : Asked) (h : AllNested d) :
    Ensures p.run d fun _ d' => d'.game.reply q = (p.answer? q d).getD (d.game.reply q) ∨
      ∃ a, Opens a q p d d' := by
  cases p with
  | update a => exact (reply_updateAgent a q h).imp fun _ _ h => h.imp_right fun ho => ⟨a, ho⟩
  | bindCommon | bindPage | bindTroop | dropCommons | dropPages =>
    exact (game_of_quiet rfl d).imp fun _ _ hg => .inl (congrArg (Game.reply · q) hg)
  | world =>
    simp only [Part.run, tickWorld, ensures_bind, Directing.ensures_get, Directing.ensures_act]
    exact (reply_of_tick d.data q d.world).imp fun _ _ h => .inl h
  | teleport => exact (reply_of_teleport d q).imp fun _ _ h => .inl h
  | order o => exact (obeyed_of_order o d).imp fun _ _ h => .inl (h.reply q)

/-! ## Runs -/

theorem allNested_of_history (h : History d hs d') (hd : AllNested d) : AllNested d' :=
  Leads.keeps (I := AllNested) (fun p _ hd => allNested_of_part p hd) ⟨hs, h⟩ hd

/-- In a run in which nobody asks for an answer of a kind, what stands there is the last answer that
was given. -/
theorem reply_of_history (h : History d hs d') (hd : AllNested d)
    (hnobody : ∀ b, ¬ OpenedIn b q d hs) :
    d'.game.reply q = lastReply q (d.game.reply q) d hs := by
  induction h with
  | nil => rfl
  | @cons p d d₁ d'' hs hp _ ih =>
    have hrest (b : Agent) : ¬ OpenedIn b q d₁ hs := fun hb => hnobody b (.inr hb)
    have hgiven : d₁.game.reply q = (p.answer? q d).getD (d.game.reply q) :=
      (reply_of_part p q hd () d₁ hp).resolve_right fun ⟨b, hb⟩ => hnobody b (.inl hb)
    rw [ih (allNested_of_part p hd () d₁ hp) hrest, hgiven]
    rfl

theorem AskedLast.cons {asked : Director} {rest : List (Part × Director)} {d₁ : Director}
    (hp : p.run d = .ok ((), d₁)) (h : AskedLast a q d₁ hs asked rest d') :
    AskedLast a q d ((p, d₁) :: hs) asked rest d' := by
  obtain ⟨⟨before, asking, rfl, hbefore, hopens⟩, hfollows, hnever⟩ := h
  exact ⟨⟨(p, d₁) :: before, asking, rfl, .cons hp hbefore, hopens⟩, hfollows, hnever⟩

/-- Whoever waits for an answer after a run was waiting all along, or has asked in it. -/
theorem askedLast_of_history (h : History d hs d') (hawaits : (d'.innermost a).awaits q = true) :
    ((d.innermost a).awaits q = true ∧ ¬ OpenedIn a q d hs) ∨
      ∃ asked rest, AskedLast a q d hs asked rest d' := by
  induction h with
  | nil => exact .inl ⟨hawaits, id⟩
  | @cons p d d₁ d'' hs hp hrest ih =>
    rcases ih hawaits with ⟨hbefore, hnever⟩ | ⟨asked, rest, hlast⟩
    · by_cases hopens : Opens a q p d d₁
      · obtain rfl := hopens.update
        exact .inr ⟨d₁, hs, ⟨[], d, rfl, .nil d, hp, hopens⟩, hrest, hnever⟩
      · refine .inl ⟨(awaits_of_part hp hbefore).resolve_right hopens, ?_⟩
        exact fun h => h.elim hopens hnever
    · exact .inr ⟨asked, rest, hlast.cons hp⟩

/-! ## The answer that is taken up -/

/-- Every run of calls is made of parts. In every run of parts, an agent that goes on after a
choice, a shop or a battle has asked for the answer it takes up. What stands there is the last
answer given since it asked, or what its request left if none was given, as long as no other agent
has asked for an answer of the same kind since; and where the agent goes on depends on that answer
alone. -/
theorem goes_on_by_last_answer (data : Database) (random : Random) :
    (∀ d, Reachable data random d → ∃ hs, History (begin data random) hs d) ∧
      ∀ hs d a k q o, History (begin data random) hs d → Resumes a k d o → k.asked? = some q →
        k ≠ .innAnswer → ∃ asked rest, AskedLast a q (begin data random) hs asked rest d ∧
          ((∀ b, b ≠ a → ¬ OpenedIn b q asked rest) →
            d.game.reply q = lastReply q (asked.game.reply q) asked rest) ∧
          ∀ w : World, w.game.reply q = d.game.reply q →
            ∃ w', Commands.goOn d.env (d.innermost a).ready k w = .ok (o, w') := by
  refine ⟨fun d hreach => hreach.leads, fun hs d a k q o hhistory hresumes hk hinn => ?_⟩
  have hstart := allNested_begin data random
  have hawaits : (d.innermost a).awaits q = true := Frame.awaits_iff.2 ⟨k, hresumes.awaits, hk⟩
  have hnone : ((begin data random).innermost a).awaits q = false := by cases a <;> rfl
  obtain ⟨hbefore, -⟩ | ⟨asked, rest, hlast⟩ := askedLast_of_history hhistory hawaits
  · exact absurd (hnone.symm.trans hbefore) Bool.false_ne_true
  refine ⟨asked, rest, hlast, fun hothers => ?_, fun w hw => ?_⟩
  · obtain ⟨before, asking, -, hto, hopening, -⟩ := hlast.opened
    have hasked : AllNested asked :=
      allNested_of_part _ (allNested_of_history hto hstart) () asked hopening
    refine reply_of_history hlast.follows hasked fun b => ?_
    by_cases hb : b = a
    · rw [hb]
      exact hlast.never
    · exact hothers b hb
  · obtain ⟨u, hgoes⟩ := hresumes.goesOn
    refine Commands.goOn_of_reply hk hinn (fun hbattle => ?_) hw hgoes
    -- Only an event of the field waits for a battle, and it is held up as long as the battle lasts.
    have hwaiting := waiting_innermost (allNested_of_history hhistory hstart a)
    have hfield : (d.innermost a).context = .field := (hwaiting k hresumes.awaits).2 hbattle
    have hfree := hresumes.isFree
    simp only [Frame.isFree, Frame.isHeld, hfield, decide_true, Bool.true_and, Bool.not_or,
      Bool.and_eq_true, Bool.not_eq_true', Option.isSome_eq_false_iff, Option.isNone_iff_eq_none]
      at hfree
    exact hfree.2.2

/-! ## Two events that ask at once -/

instance {act : Act Outcome} {w : World} {o : Outcome} : Decidable (∃ w', act w = .ok (o, w')) :=
  match h : act w with
  | .ok (o', w') =>
    decidable_of_iff (o' = o) ⟨fun ho => ⟨w', by rw [ho]⟩, fun ⟨_, ho⟩ => by cases ho; rfl⟩
  | .error _ => isFalse fun ⟨_, ho⟩ => nomatch ho

instance {k : Awaited} {o : Outcome} : Decidable (Resumes a k d o) :=
  decidable_of_iff ((d.innermost a).pause = .goOn k ∧ (d.innermost a).isFree d.game = true ∧
      ∃ w, Commands.goOn d.env (d.innermost a).ready k d.world = .ok (o, w))
    ⟨fun ⟨hawaits, hfree, hgoes⟩ => ⟨hawaits, hfree, hgoes⟩,
      fun h => ⟨h.awaits, h.isFree, h.goesOn⟩⟩

/-- Two options, of which the first writes a ten and the second a twenty. -/
def choiceInto (id : Number) : List Command := [
  { code := 10140 },
  { code := 20140, params := [0] },
  { code := 10220, indent := 1, params := [0, id, id, 0, 0, 10] },
  { code := 20140, params := [1] },
  { code := 10220, indent := 1, params := [0, id, id, 0, 0, 20] },
  { code := 20141 }]

/-- One event asks beside the others, another asks when the player checks it. -/
def crossedChoices : Database where
  maps := [{ id := 1, events := [
    { id := 1, pages := [{ trigger := .parallel, commands := choiceInto 1 }] },
    { id := 2, x := 1, pages := [{ trigger := .action, commands := choiceInto 2 }] }] }]

/-- The event that asks alone goes on by the option it was given, which is the second. -/
theorem lone_choice_goes_on : ∃ d₁ d₂ d₃, History (begin crossedChoices default)
    [(.bindPage 1, d₁), (.update (.parallel 1), d₂), (.order (.dismiss (some 1)), d₃)] d₃ ∧
      Resumes (.parallel 1) .choice d₃ (.next 3) ∧ d₃.game.reply .choice = .choice 1 := by
  have hrun : ∃ d₁, Part.run (.bindPage 1) (begin crossedChoices default) = .ok ((), d₁) ∧
      ∃ d₂, Part.run (.update (.parallel 1)) d₁ = .ok ((), d₂) ∧
        ∃ d₃, Part.run (.order (.dismiss (some 1))) d₂ = .ok ((), d₃) ∧
          Resumes (.parallel 1) .choice d₃ (.next 3) := by decide +kernel
  obtain ⟨d₁, h₁, d₂, h₂, d₃, h₃, hresumes⟩ := hrun
  have hhistory := History.cons h₁ (.cons h₂ (.cons h₃ (.nil d₃)))
  refine ⟨d₁, d₂, d₃, hhistory, hresumes, ?_⟩
  obtain ⟨asked, rest, hlast, hreply, -⟩ :=
    (goes_on_by_last_answer crossedChoices default).2 _ d₃ _ _ _ _ hhistory hresumes rfl nofun
  obtain ⟨before, asking, hsplit, -⟩ := hlast.opened
  match before, hsplit with
  | [], hsplit => cases hsplit
  | [_], hsplit =>
    cases hsplit
    refine hreply fun b _ hb => ?_
    rcases hb with hb | hb
    · cases hb.update
    · exact hb
  | [_, _], hsplit => cases hsplit
  | _ :: _ :: _ :: before, hsplit =>
    have hlength := congrArg List.length hsplit
    simp at hlength

/-- The event that runs beside the others is given its second option. Before it takes that up the
event that was checked, which runs first, asks too and is given the first option: both go on by
that. -/
theorem crossed_choices_share_an_answer : crossedChoices.validate = .ok () ∧
    ∃ d₁, [Call.execute 1, .order (.talkTo 2)].forM Call.run (begin crossedChoices default) =
        .ok ((), d₁) ∧
      (d₁.innermost (.parallel 1)).awaits .choice = true ∧
      (d₁.innermost .root).awaits .choice = false ∧
    ∃ d₂, (Call.order (.dismiss (some 1))).run d₁ = .ok ((), d₂) ∧
      Resumes (.parallel 1) .choice d₂ (.next 3) ∧
    ∃ d₃, (Call.execute 1).run d₂ = .ok ((), d₃) ∧
      d₃.innermost (.parallel 1) = d₁.innermost (.parallel 1) ∧
      (d₃.innermost .root).awaits .choice = true ∧
    ∃ d₄, (Call.order (.dismiss (some 0))).run d₃ = .ok ((), d₄) ∧
      Resumes (.parallel 1) .choice d₄ (.next 1) ∧
    ∃ d₅, (Call.execute 1).run d₄ = .ok ((), d₅) ∧
      d₅.game.vars.get 1 = 10 ∧ d₅.game.vars.get 2 = 10 := by
  refine ⟨by rfl, ?_⟩
  decide +kernel

end EventScript.Director
