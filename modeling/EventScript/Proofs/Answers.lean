import EventScript.Proofs.Updates

/-!
# Answers and the events that wait for them

The answers of the player's side stand in the game, one of each kind for all events. An event that
asked for an answer waits at its command, and goes on by the answer that stands there then.

* `Game.reply` is the answer of a kind as it stands.
* `Updated.reply`: in an update an answer changes only where the innermost frame then waits for one
  of that kind, and `Updated.held` shows that an event that cannot go on yet changes nothing.
* `Commands.goOn_of_reply`: where an event goes on depends on no more than the answer it waits for.
-/

namespace EventScript

/-- The kinds of answers that events wait for. -/
inductive Asked
  | choice
  | shop
  | battle
  deriving DecidableEq

/-- An answer of a kind. -/
inductive Reply
  | choice (n : Number)
  | shop (bought : Bool)
  /-- A battle has no result as long as it lasts. -/
  | battle (request : BattleRequest) (result : Option BattleResult)
  deriving DecidableEq

/-- The kind of answer that the rest of a command waits for. -/
def Awaited.asked? : Awaited → Option Asked
  | choice | innAnswer => some .choice
  | shop => some .shop
  | battle => some .battle
  | innDarkness | innTune | scene => none

namespace Game

/-- The answer of a kind as it stands. -/
def reply (g : Game) : Asked → Reply
  | .choice => .choice g.message.choiceResult
  | .shop => .shop g.scene.shopTransaction
  | .battle => .battle g.scene.battle (if g.troop.isSome then none else some g.scene.battleResult)

variable {g g' : Game}

theorem reply_of_answers (ha : g'.answers = g.answers) (hb : g'.troop.isSome = g.troop.isSome)
    (q : Asked) : g'.reply q = g.reply q := by
  simp only [answers, Answers.mk.injEq] at ha
  obtain ⟨hchoice, hshop, hrequest, hresult⟩ := ha
  cases q with
  | choice => rw [reply, reply, hchoice]
  | shop => rw [reply, reply, hshop]
  | battle => rw [reply, reply, hrequest, hresult, hb]

theorem Noted.reply (h : g.Noted g') (q : Asked) : g'.reply q = g.reply q :=
  reply_of_answers h.answers h.inBattle q

theorem reply_looked (g : Game) (d : Database) (q : Asked) : (g.looked d).reply q = g.reply q := by
  unfold looked
  split
  · exact reply_of_answers rfl rfl q
  · rfl

end Game

/-- A command changes an answer only where it then waits for one of that kind. -/
theorem Deed.reply {callees : List (List Command)} {reset : Option Number} {o : Outcome}
    {g g' : Game} (h : Deed callees reset o g g') (q : Asked) :
    g'.reply q = g.reply q ∨ ∃ p k, o = .await p k ∧ k.asked? = some q := by
  cases q with
  | choice =>
    refine h.choice.imp (fun hc => ?_) fun ⟨p, hp⟩ => ⟨p, _, hp, rfl⟩
    rw [Game.reply, Game.reply, hc]
  | shop =>
    refine h.shop.imp (fun hs => ?_) fun ⟨p, hp⟩ => ⟨p, _, hp, rfl⟩
    rw [Game.reply, Game.reply, hs]
  | battle =>
    refine h.battle.imp (fun ⟨hrequest, hresult⟩ => ?_) fun ⟨p, hp⟩ => ⟨p, _, hp, rfl⟩
    rw [Game.reply, Game.reply, hrequest, h.inBattle]
    rcases hresult with hresult | hbattle
    · rw [hresult]
    · rw [if_pos hbattle, if_pos hbattle]

namespace Frame

/-- Whether the frame waits for an answer of a kind. -/
def awaits (f : Frame) (q : Asked) : Bool :=
  match f.pause with
  | .goOn k => k.asked? = some q
  | _ => false

/-- Whether neither the message window nor a scene or a battle holds the frame up. -/
def isFree (f : Frame) (g : Game) : Bool := !g.message.waiting && !f.isHeld g

theorem awaits_iff {f : Frame} {q : Asked} :
    f.awaits q = true ↔ ∃ k, f.pause = .goOn k ∧ k.asked? = some q := by
  unfold awaits
  split
  · next k hk => simp [hk]
  · next h => exact iff_of_false Bool.false_ne_true fun ⟨k, hk, _⟩ => h k hk

theorem awaits_forgetOwner (f : Frame) (mapId : Number) (q : Asked) :
    (f.forgetOwner mapId).awaits q = f.awaits q := by
  unfold forgetOwner
  split <;> rfl

theorem isFree_forgetOwner (f : Frame) (mapId : Number) (g : Game) :
    (f.forgetOwner mapId).isFree g = f.isFree g := by
  unfold forgetOwner
  split <;> rfl

/-- In a turn an answer changes only where the frame then waits for one of that kind. -/
theorem reply_of_turn (env : Env) (f : Frame) (w : World) (q : Asked) :
    Ensures (f.turn env) w fun t w' => w'.game.reply q = w.game.reply q ∨
      t.frame.awaits q = true ∧ t.called = none ∧ t.signal = .yield := by
  refine (turned_of_turn env f w).imp fun t w' ⟨_, g, hn, ha⟩ => ?_
  rw [← hn.reply q]
  cases ha with
  | notes h => exact .inl (h.reply q)
  | looks _ h => exact .inl ((h.reply q).trans (g.reply_looked _ q))
  | deed c hc o h hawaits =>
    refine (h.reply q).imp_right fun ⟨p, k, ho, hk⟩ => ?_
    obtain ⟨hpause, hcalled, hsignal⟩ := hawaits p k ho
    exact ⟨awaits_iff.2 ⟨k, hpause, hk⟩, hcalled, hsignal⟩

/-- A frame that waits for an answer and is held up hands over the turn. -/
theorem turn_of_held {env : Env} {f : Frame} {w : World} {k : Awaited} (hk : f.pause = .goOn k)
    (hfree : f.isFree w.game = false) :
    f.turn env w = .ok ({ frame := f, signal := .yield }, w) := by
  rw [turn, Act.getGame_bind]
  split
  · rfl
  · next hread =>
    have hheld : f.isHeld w.game = true := by
      simpa [isFree, Bool.eq_false_iff.2 hread] using hfree
    simp only [hk]
    unfold isHeld at hheld
    rw [proceed, Act.getGame_bind, if_pos hheld]
    rfl

/-- A frame that waits for an answer and is held up no longer goes on with its command. -/
theorem turn_of_free {env : Env} {f : Frame} {w : World} {k : Awaited} (hk : f.pause = .goOn k)
    (hfree : f.isFree w.game = true) :
    f.turn env w = (do f.ready.settle env (← Commands.goOn env f.ready k)) w := by
  obtain ⟨hread, hheld⟩ : w.game.message.waiting = false ∧ f.isHeld w.game = false := by
    simpa [isFree] using hfree
  unfold isHeld at hheld
  rw [turn, Act.getGame_bind, if_neg (Bool.eq_false_iff.1 hread)]
  simp only [hk]
  rw [proceed, Act.getGame_bind, if_neg (Bool.eq_false_iff.1 hheld)]
  simp only [hk]

end Frame

namespace Interpreter

/-- Every frame that called another has commands left, and so has one that waits for an answer. -/
def Nested : Frame → List Frame → Prop
  | f, [] => f.Waiting
  | f, c :: cs => f.Waiting ∧ f.isRunning = true ∧ Nested c cs

variable {env : Env} {f : Frame} {calls : List Frame} {w w' : World} {i : Interpreter}

theorem waiting_innermost (h : Nested f calls) : (innermost { frame := f, calls }).Waiting := by
  induction calls generalizing f with
  | nil => exact h
  | cons c cs ih =>
    rw [innermost_cons]
    exact ih h.2.2

theorem nested_forgetOwner (mapId : Number) (h : Nested f calls) :
    Nested (f.forgetOwner mapId) calls := by
  unfold Frame.forgetOwner
  split
  · exact h
  · cases calls with
    | nil => exact h
    | cons c cs => exact h

theorem nested_of_turn (hf : f.Waiting) {t : Turn} (ht : f.turn env w = .ok (t, w')) :
    Nested t.frame t.called.toList := by
  obtain ⟨hturned, -⟩ := Frame.turned_of_turn env f w t w' ht
  cases hc : t.called with
  | none => exact hturned.waiting hf
  | some c =>
    obtain ⟨hsame, x, hx, callee, -, hby⟩ := hturned.called c hc
    refine ⟨hturned.waiting hf, Frame.isRunning_of_mem (hsame ▸ hx), Frame.waiting_of_pause ?_⟩
    rw [hby.pause]
    exact nofun

/-- An update keeps the frames nested, and in it an answer changes only where the innermost frame
then waits for one of that kind. -/
theorem Updated.reply (h : Updated env f calls w i w') (hn : Nested f calls) (q : Asked) :
    Nested i.frame i.calls ∧ (w'.game.reply q = w.game.reply q ∨
      i.innermost.awaits q = true ∧ i.isRunning = true) := by
  induction h with
  | spent => exact ⟨hn, .inl rfl⟩
  | forgets _ ih => exact ih (nested_forgetOwner _ hn)
  | @yields f w w' t ht hs =>
    have hnested := nested_of_turn hn ht
    refine ⟨hnested, (f.reply_of_turn env w q t w' ht).imp_right fun ⟨hawaits, hcalled, _⟩ => ?_⟩
    rw [hcalled] at hnested ⊢
    obtain ⟨k, hk, -⟩ := Frame.awaits_iff.1 hawaits
    exact ⟨hawaits, (hnested k hk).1⟩
  | @again f w w' w'' t i ht hs _ ih =>
    obtain ⟨hnested, hreply⟩ := ih (nested_of_turn hn ht)
    refine ⟨hnested, ?_⟩
    rcases f.reply_of_turn env w q t w' ht with hsame | ⟨-, -, hyield⟩
    · rw [← hsame]
      exact hreply
    · rw [hs] at hyield
      cases hyield
  | inner _ _ ih =>
    obtain ⟨hwaiting, hrun, hcalls⟩ := hn
    obtain ⟨hnested, hreply⟩ := ih hcalls
    refine ⟨⟨hwaiting, hrun, hnested⟩, hreply.imp_right fun ⟨hawaits, _⟩ => ⟨?_, hrun⟩⟩
    exact (congrArg (Frame.awaits · q) (innermost_cons _ _ _)).trans hawaits
  | ended _ hend _ ih ih' =>
    obtain ⟨hwaiting, -, hcalls⟩ := hn
    obtain ⟨-, hreply⟩ := ih hcalls
    obtain ⟨hnested, hreply'⟩ := ih' hwaiting
    refine ⟨hnested, ?_⟩
    -- An event that waits for an answer has not come to its end.
    rcases hreply with hsame | ⟨-, hrun⟩
    · rw [← hsame]
      exact hreply'
    · rw [hend] at hrun
      cases hrun

theorem isRunning_of_awaits {q : Asked} (hn : Nested f calls)
    (h : (innermost { frame := f, calls }).awaits q = true) : f.isRunning = true := by
  cases calls with
  | nil =>
    obtain ⟨k, hk, -⟩ := Frame.awaits_iff.1 h
    exact (hn k hk).1
  | cons => exact hn.2.1

/-- An update of an event that waits for an answer and is held up changes nothing. -/
theorem Updated.held (h : Updated env f calls w i w') (hn : Nested f calls) {q : Asked}
    (hawaits : (innermost { frame := f, calls }).awaits q = true)
    (hfree : (innermost { frame := f, calls }).isFree w.game = false) :
    w' = w ∧ i.isRunning = true := by
  induction h with
  | spent => exact ⟨rfl, isRunning_of_awaits hn hawaits⟩
  | @forgets f calls w w' i _ ih =>
    cases calls with
    | nil =>
      refine ih (nested_forgetOwner _ hn) ?_ ?_
      · exact (Frame.awaits_forgetOwner f _ q).trans hawaits
      · exact (Frame.isFree_forgetOwner f _ _).trans hfree
    | cons c cs =>
      rw [innermost_cons] at hawaits hfree ih
      exact ih (nested_forgetOwner _ hn) hawaits hfree
  | @yields f w w' t ht hs =>
    obtain ⟨k, hk, -⟩ := Frame.awaits_iff.1 hawaits
    cases (Frame.turn_of_held hk hfree).symm.trans ht
    exact ⟨rfl, (hn k hk).1⟩
  | @again f w w' w'' t i ht hs _ ih =>
    obtain ⟨k, hk, -⟩ := Frame.awaits_iff.1 hawaits
    cases (Frame.turn_of_held hk hfree).symm.trans ht
    cases hs
  | inner _ _ ih =>
    rw [innermost_cons] at hawaits hfree
    exact ⟨(ih hn.2.2 hawaits hfree).1, hn.2.1⟩
  | ended _ hend _ ih ih' =>
    rw [innermost_cons] at hawaits hfree
    exact absurd (hend.symm.trans (ih hn.2.2 hawaits hfree).2) Bool.false_ne_true

end Interpreter

/-! ## Going on -/

namespace Commands

open Act

/-- An act that always gives the same outcome. -/
def Fixed (a : Act Outcome) : Prop := ∃ o, ∀ w, ∃ u, a w = .ok (o, u)

theorem fixed_pure (o : Outcome) : Fixed (pure o) := ⟨o, fun w => ⟨w, rfl⟩⟩

theorem fixed_request (f : Frame) (raise : Scene → Scene) : Fixed (request f raise) :=
  ⟨.await f.pc .scene,
    fun w => ⟨{ w with game := { w.game with scene := raise w.game.scene } }, rfl⟩⟩

theorem Fixed.ite {c : Prop} [Decidable c] {a b : Act Outcome} (ha : Fixed a) (hb : Fixed b) :
    Fixed (if c then a else b) := by
  split
  · exact ha
  · exact hb

theorem Fixed.outcome {a : Act Outcome} (ha : Fixed a) {w v u : World} {o : Outcome}
    (h : a w = .ok (o, u)) : ∃ u', a v = .ok (o, u') := by
  obtain ⟨r, hr⟩ := ha
  obtain ⟨u₁, hu₁⟩ := hr w
  cases h.symm.trans hu₁
  exact hr v

/-- Where an event goes on after a choice, a shop or a battle depends on no more than the answer it
waits for. -/
theorem goOn_of_reply {env : Env} {f : Frame} {k : Awaited} {q : Asked} (hk : k.asked? = some q)
    (hinn : k ≠ .innAnswer) {w v : World} (hbattle : k = .battle → w.game.troop = none)
    (hreply : v.game.reply q = w.game.reply q) {o : Outcome} {u : World}
    (h : goOn env f k w = .ok (o, u)) : ∃ u', goOn env f k v = .ok (o, u') := by
  cases k with
  | innDarkness | innTune | scene => cases hk
  | innAnswer => exact absurd rfl hinn
  | choice =>
    cases hk
    simp only [Game.reply, Reply.choice.injEq] at hreply
    change takeChoice f w = _ at h
    change ∃ u', takeChoice f v = _
    rw [takeChoice, getGame_bind] at h ⊢
    rw [hreply]
    refine Fixed.outcome ?_ h
    split
    · exact fixed_pure _
    · exact fixed_pure _
  | shop =>
    cases hk
    simp only [Game.reply, Reply.shop.injEq] at hreply
    change afterShop f w = _ at h
    change ∃ u', afterShop f v = _
    rw [afterShop, getGame_bind] at h ⊢
    rw [hreply]
    exact (fixed_pure _).outcome h
  | battle =>
    cases hk
    simp only [Game.reply, Reply.battle.injEq, hbattle rfl, Option.isSome_none, Bool.false_eq_true,
      if_false] at hreply
    obtain ⟨hrequest, hresult⟩ := hreply
    have hresult : v.game.scene.battleResult = w.game.scene.battleResult := by
      split at hresult
      · cases hresult
      · exact Option.some.inj hresult
    change afterBattle f w = _ at h
    change ∃ u', afterBattle f v = _
    rw [afterBattle, getGame_bind] at h ⊢
    rw [hrequest, hresult]
    refine Fixed.outcome ?_ h
    split
    · exact .ite (fixed_pure _) (fixed_pure _)
    · split <;> exact fixed_pure _
    · exact .ite (fixed_request _ _) (fixed_pure _)
    · exact fixed_pure _

end Commands

end EventScript
