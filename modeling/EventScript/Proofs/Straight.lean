import EventScript.Proofs.ExactArithmetic
import EventScript.Proofs.HeldRequests
import EventScript.Proofs.Recursion

/-!
# Straight commands

Some commands do the same wherever they stand: they work on switches, variables, gold and items, and
go on.

* `Act.Alike` holds between two acts that do the same to the same game, wherever their other results
  lead.
* `Commands.alike_perform`: a straight command does the same in every frame and in all surroundings.
* `Command.effect` is what it does, and `runStraight` what a list of such commands does.
-/

namespace EventScript

/-! ## Acts that do the same -/

namespace Act

variable {α β γ δ : Type}

/-- Two ends of acts that go together. Both acts overflow, or they leave the same game and results
that go together. The first one leaves the stage as it is and hands nothing to the host. -/
inductive Agrees (P : α → β → Prop) (w : World) :
    Except Overflow (α × World) → Except Overflow (β × World) → Prop
  | ok {r : α} {s : β} {w' v' : World} (hr : P r s) (hgame : v'.game = w'.game)
      (hstage : w.game.SameStage w'.game) (heffects : w'.effects = w.effects) :
      Agrees P w (.ok (r, w')) (.ok (s, v'))
  | error {o : Overflow} : Agrees P w (.error o) (.error o)

/-- Two acts that do the same to the same game. -/
def Alike (P : α → β → Prop) (a : Act α) (b : Act β) : Prop :=
  ∀ w v : World, v.game = w.game → Agrees P w (a w) (b v)

variable {P : α → β → Prop} {Q : γ → δ → Prop} {a : Act α} {b : Act β} {f : α → Act γ}
  {g : β → Act δ}

theorem alike_pure {r : α} {s : β} (h : P r s) : Alike P (pure r) (pure s) :=
  fun w _ hv => .ok h hv (.refl w.game) rfl

theorem Alike.bind (ha : Alike P a b) (hf : ∀ r s, P r s → Alike Q (f r) (g s)) :
    Alike Q (a >>= f) (b >>= g) := by
  intro w v hv
  have h := ha w v hv
  cases hx : a w with
  | error o =>
    cases hy : b v with
    | error o' =>
      rw [hx, hy] at h
      cases h
      rw [bind_of_error hx, bind_of_error hy]
      exact .error
    | ok p => rw [hx, hy] at h; cases h
  | ok p =>
    cases hy : b v with
    | error o' => rw [hx, hy] at h; cases h
    | ok q =>
      obtain ⟨r, w'⟩ := p
      obtain ⟨s, v'⟩ := q
      rw [hx, hy] at h
      cases h with
      | ok hr hgame hstage heffects =>
        rw [bind_of_ok hx, bind_of_ok hy]
        have hrest := hf r s hr w' v' hgame
        generalize f r w' = x, g s v' = y at hrest
        cases hrest with
        | ok hr' hgame' hstage' heffects' =>
          exact .ok hr' hgame' (hstage.trans hstage') (heffects'.trans heffects)
        | error => exact .error

/-- Two acts that begin with the same one. -/
theorem Alike.bind_same {a b : Act α} {f : α → Act γ} {g : α → Act δ} (ha : Alike Eq a b)
    (hf : ∀ r, Alike Q (f r) (g r)) : Alike Q (a >>= f) (b >>= g) := by
  refine ha.bind fun r s h => ?_
  subst h
  exact hf r

theorem alike_ite {c : Prop} [Decidable c] {a' : Act α} {b' : Act β} (h : Alike P a b)
    (h' : Alike P a' b') : Alike P (if c then a else a') (if c then b else b') := by
  split
  · exact h
  · exact h'

@[simp] theorem alike_getGame : Alike Eq getGame getGame :=
  fun w _ hv => .ok hv.symm hv (.refl w.game) rfl

theorem alike_modifyGame {c : Game → Game} (h : ∀ g : Game, g.SameStage (c g)) :
    Alike Eq (modifyGame c) (modifyGame c) :=
  fun w _ hv => .ok rfl (congrArg c hv) (h w.game) rfl

@[simp] theorem alike_warn (m : Warning) : Alike Eq (warn m) (warn m) :=
  fun w _ hv => .ok rfl hv (.refl w.game) rfl

@[simp] theorem alike_check (x : Except Overflow α) : Alike Eq (check x) (check x) := by
  intro w v hv
  cases x with
  | ok r => exact .ok rfl hv (.refl w.game) rfl
  | error o => exact .error

/-- A warning that is due or not. -/
theorem alike_warned {c : Prop} [Decidable c] (m : Warning) {a : Act γ} {b : Act δ}
    (h : Alike Q a b) :
    Alike Q (if c then warn m >>= fun _ => a else a) (if c then warn m >>= fun _ => b else b) :=
  alike_ite ((alike_warn m).bind_same fun _ => h) h

@[simp] theorem alike_needRefresh : Alike Eq needRefresh needRefresh :=
  alike_modifyGame fun _ => ⟨rfl, rfl, rfl⟩

@[simp] theorem alike_warnBetween (m : Warning) (first last : Number) :
    Alike Eq (warnBetween m first last) (warnBetween m first last) := by
  unfold warnBetween
  induction idsBetween first (min last 0) with
  | nil => exact alike_pure rfl
  | cons _ _ ih => exact (alike_warn m).bind_same fun _ => ih

@[simp] theorem alike_setSwitches (first last : Number) (value : Bool) :
    Alike Eq (setSwitches first last value) (setSwitches first last value) :=
  (alike_warnBetween _ _ _).bind_same fun _ => alike_modifyGame fun _ => ⟨rfl, rfl, rfl⟩

@[simp] theorem alike_toggleSwitches (first last : Number) :
    Alike Eq (toggleSwitches first last) (toggleSwitches first last) :=
  (alike_warnBetween _ _ _).bind_same fun _ => alike_modifyGame fun _ => ⟨rfl, rfl, rfl⟩

@[simp] theorem alike_combineVariables (first last : Number) (op : VariableOp) (operand : Number) :
    Alike Eq (combineVariables first last op operand) (combineVariables first last op operand) := by
  have hset : Alike Eq
      (modifyGame fun g => { g with vars := g.vars.combinedBetween first last op operand })
      (modifyGame fun g => { g with vars := g.vars.combinedBetween first last op operand }) :=
    alike_modifyGame fun _ => ⟨rfl, rfl, rfl⟩
  rw [combineVariables_eq]
  exact alike_ite ((alike_warnBetween _ _ _).bind_same fun _ => hset) hset

@[simp] theorem alike_giveGold (amount : Number) : Alike Eq (giveGold amount) (giveGold amount) :=
  alike_modifyGame fun _ => ⟨rfl, rfl, rfl⟩

@[simp] theorem alike_giveItem (id amount : Number) :
    Alike Eq (giveItem id amount) (giveItem id amount) := by
  unfold giveItem
  have hgive : Alike Eq
      (do
        let g ← getGame
        let party ← check (g.party.giveItem id amount)
        setGame { g with party } : Act Unit)
      (do
        let g ← getGame
        let party ← check (g.party.giveItem id amount)
        setGame { g with party } : Act Unit) := by
    intro w v hv
    rw [getGame_bind, getGame_bind, hv]
    cases hp : w.game.party.giveItem id amount with
    | error o => exact .error
    | ok party => exact .ok rfl rfl ⟨rfl, rfl, rfl⟩ rfl
  exact alike_warned _ hgive

end Act

/-! ## Straight commands -/

/-- A command that sets switches, sets variables from a number or a variable, changes gold or items,
or is a comment. -/
def Command.isStraight (c : Command) : Bool :=
  match c.opcode with
  | .shared .controlSwitches | .shared .changeGold | .shared .changeItems | .shared .comment
  | .shared .commentLine => true
  | .shared .controlVariables => c.mode 4 = 0 || c.mode 4 = 1 || c.mode 4 = 2
  | _ => false

namespace Commands

open Act

variable {c : Command}

/-- Both frames go on behind the command at hand. -/
def GoOn (f f' : Frame) (o o' : Outcome) : Prop := o = .next f.pc ∧ o' = .next f'.pc

theorem alike_goOn (f f' : Frame) : Alike (GoOn f f') (pure (.next f.pc)) (pure (.next f'.pc)) :=
  alike_pure ⟨rfl, rfl⟩

@[simp] theorem alike_writtenIds (c : Command) : Alike Eq (writtenIds c) (writtenIds c) := by
  unfold writtenIds
  split
  · exact alike_pure rfl
  · exact alike_pure rfl
  · exact alike_getGame.bind_same fun _ => alike_pure rfl
  · exact (alike_warn _).bind_same fun _ => alike_pure rfl

@[simp] theorem alike_operand (mode value : Number) :
    Alike Eq (operand mode value) (operand mode value) :=
  alike_ite (alike_pure rfl) (alike_getGame.bind_same fun _ => alike_pure rfl)

@[simp] theorem alike_signedOperand (op mode value : Number) :
    Alike Eq (signedOperand op mode value) (signedOperand op mode value) :=
  (alike_operand mode value).bind_same fun _ => alike_ite (alike_check _) (alike_pure rfl)

theorem alike_controlSwitches (f f' : Frame) (c : Command) :
    Alike (GoOn f f') (controlSwitches f c) (controlSwitches f' c) := by
  refine (alike_writtenIds c).bind_same fun ids => ?_
  have hlast := (alike_needRefresh).bind_same fun _ => alike_goOn f f'
  cases ids with
  | none => exact alike_goOn f f'
  | some ids =>
    dsimp only
    split
    · exact (alike_setSwitches _ _ _).bind_same fun _ => hlast
    · exact (alike_setSwitches _ _ _).bind_same fun _ => hlast
    · exact (alike_toggleSwitches _ _).bind_same fun _ => hlast

/-- A number, a variable, or the variable that a variable names, does not depend on who asks. -/
theorem alike_variableOperand (env env' : Env) (f f' : Frame) {type : Number} (a b : Number)
    (h : type.toInt = 0 ∨ type.toInt = 1 ∨ type.toInt = 2) :
    Alike Eq (variableOperand env f type a b) (variableOperand env' f' type a b) := by
  refine alike_getGame.bind_same fun g => ?_
  rcases h with h | h | h
  · simp only [h]
    exact alike_pure rfl
  · simp only [h]
    exact alike_pure rfl
  · simp only [h]
    exact alike_pure rfl

theorem alike_controlVariables (env env' : Env) (f f' : Frame) (c : Command)
    (h : c.mode 4 = 0 ∨ c.mode 4 = 1 ∨ c.mode 4 = 2) :
    Alike (GoOn f f') (controlVariables env f c) (controlVariables env' f' c) := by
  refine (alike_writtenIds c).bind_same fun ids => ?_
  have hdrawn : c.mode 4 ≠ 3 := by omega
  cases ids with
  | none => exact alike_goOn f f'
  | some ids =>
    dsimp only
    split
    · exact (alike_warn _).bind_same fun _ => alike_goOn f f'
    · simp only [if_neg hdrawn]
      refine (alike_variableOperand env env' f f' _ _ h).bind_same fun value => ?_
      cases value with
      | none => exact alike_goOn f f'
      | some value =>
        exact (alike_combineVariables _ _ _ _).bind_same fun _ =>
          alike_needRefresh.bind_same fun _ => alike_goOn f f'

theorem alike_changeGold (f f' : Frame) (c : Command) :
    Alike (GoOn f f') (changeGold f c) (changeGold f' c) :=
  (alike_signedOperand _ _ _).bind_same fun _ =>
    (alike_giveGold _).bind_same fun _ => alike_goOn f f'

theorem alike_changeItems (f f' : Frame) (c : Command) :
    Alike (GoOn f f') (changeItems f c) (changeItems f' c) := by
  refine (alike_signedOperand _ _ _).bind_same fun value => ?_
  refine alike_ite (alike_goOn f f') ?_
  exact (alike_operand _ _).bind_same fun item => (alike_giveItem _ _).bind_same fun _ =>
    alike_needRefresh.bind_same fun _ => alike_goOn f f'

/-- A straight command does the same in every frame and in all surroundings, and goes on. -/
theorem alike_perform (env env' : Env) (f f' : Frame) (hc : c.isStraight = true) :
    Alike (GoOn f f') (perform env f c) (perform env' f' c) := by
  unfold Command.isStraight at hc
  unfold perform
  split at hc
  case h_1 hop => simpa only [hop, performShared] using alike_controlSwitches f f' c
  case h_2 hop => simpa only [hop, performShared] using alike_changeGold f f' c
  case h_3 hop => simpa only [hop, performShared] using alike_changeItems f f' c
  case h_4 hop => simpa only [hop, performShared] using alike_goOn f f'
  case h_5 hop => simpa only [hop, performShared] using alike_goOn f f'
  case h_6 hop =>
    simp only [Bool.or_eq_true, decide_eq_true_eq, or_assoc] at hc
    simpa only [hop, performShared] using alike_controlVariables env env' f f' c hc
  case h_7 => cases hc

end Commands

/-! ## What straight commands do -/

/-- What a straight command does to a game, wherever it stands. -/
def Command.effect (c : Command) (g : Game) : Except Overflow Game :=
  (Commands.perform ⟨{}, {}⟩ (Frame.idle .field 0 false) c { game := g }).map (·.2.game)

/-- What straight commands do one after the other. -/
def runStraight (cs : List Command) (g : Game) : Except Overflow Game :=
  cs.foldlM (fun g c => c.effect g) g

theorem runStraight_cons (c : Command) (cs : List Command) (g : Game) :
    runStraight (c :: cs) g = c.effect g >>= runStraight cs := rfl

theorem runStraight_append (cs cs' : List Command) (g : Game) :
    runStraight (cs ++ cs') g = runStraight cs g >>= runStraight cs' := by
  unfold runStraight
  rw [List.foldlM_append]

namespace Commands

variable {c : Command} {w : World}

/-- A straight command has its effect on the game, leaves the stage as it is and goes on. -/
theorem perform_of_effect (env : Env) (f : Frame) (hc : c.isStraight = true) {g : Game}
    (h : c.effect w.game = .ok g) : ∃ w', perform env f c w = .ok (.next f.pc, w') ∧
      w'.game = g ∧ w.game.SameStage g ∧ w'.effects = w.effects := by
  have halike :=
    alike_perform env ⟨{}, {}⟩ f (Frame.idle .field 0 false) hc w { game := w.game } rfl
  unfold Command.effect at h
  cases hx : perform ⟨{}, {}⟩ (Frame.idle .field 0 false) c { game := w.game } with
  | error o => rw [hx] at h; cases h
  | ok q =>
    rw [hx] at h halike
    cases h
    generalize hp : perform env f c w = p at halike
    cases halike with
    | ok hr hgame hstage heffects =>
      obtain ⟨rfl, -⟩ := hr
      refine ⟨_, rfl, hgame.symm, ?_, heffects⟩
      dsimp only
      rwa [hgame]

/-- It overflows where its effect does. -/
theorem perform_of_effect_error (env : Env) (f : Frame) (hc : c.isStraight = true) {o : Overflow}
    (h : c.effect w.game = .error o) : perform env f c w = .error o := by
  have halike :=
    alike_perform env ⟨{}, {}⟩ f (Frame.idle .field 0 false) hc w { game := w.game } rfl
  unfold Command.effect at h
  cases hx : perform ⟨{}, {}⟩ (Frame.idle .field 0 false) c { game := w.game } with
  | ok q => rw [hx] at h; cases h
  | error o' =>
    rw [hx] at h halike
    cases h
    generalize hp : perform env f c w = p at halike
    cases halike
    rfl

end Commands

end EventScript
