import EventScript.Proofs.Growth
import EventScript.Proofs.PartyBounds
import EventScript.Proofs.TotalMaps

/-!
# Long games

However long a game is, the statistics of actors stay within bounds that rise with the number of
commands on parameters alone.

* `Commands.perform_growth` is the shape of all commands that add to statistics: something is read,
  and the selected actors are changed one after the other (`gives_forM`, `forM_fails`).
* `Game.Grown` bounds everyone and every variable. `Commands.perform_moderate` is one command, and
  `Commands.performAll_growth` a row of commands with writes to variables in between.
* `Commands.growth_overflows_iff`: a row fails exactly at the first command that lifts a statistic
  past the largest number. Experience and levels never fail, and nothing fails before there have
  been 213 commands on parameters.
-/

namespace EventScript

open Act

/-! ## What a command adds, and to whom -/

/-- The actors that a command works on. -/
def Game.selected (g : Game) (mode value : Number) : List Number :=
  let one (id : Number) : List Number := if (g.actors.get? id).isNone then [] else [id]
  match mode.toInt with
  | 0 => g.party.members
  | 1 => one value
  | 2 => one (g.vars.get value)
  | _ => []

namespace Growth

/-- The place of the mode of the operand among the parameters; the operand comes right after it. -/
def place : Growth → Nat
  | parameter _ => 4
  | _ => 3

/-- Whether a command takes away instead of adding. -/
def takesAway (k : Growth) (c : Command) : Bool :=
  match k with
  | hp _ | sp => c.flag 2
  | _ => c.param 2 = 1

/-- The operand of a command: a number, or what a variable holds. -/
def operand (k : Growth) (g : Game) (c : Command) : Number :=
  if c.param k.place = 0 then c.param (k.place + 1) else g.vars.get (c.param (k.place + 1))

/-- What a command adds, which is less than zero where it takes away. -/
def addend (k : Growth) (g : Game) (c : Command) : Int :=
  if k.takesAway c then -(k.operand g c).toInt else (k.operand g c).toInt

end Growth

/-- A command would lift a statistic of an actor past the largest number. -/
def Command.Overshoots (c : Command) (g : Game) : Prop :=
  ∃ k, Growth.of? c = some k ∧ ∃ id ∈ g.selected (c.param 0) (c.param 1), ∃ a x,
    g.actors.get? id = some a ∧ k.statistic? a = some x ∧
      2147483647 < x.toInt + k.addend g c

/-- A number is between the usual limits of variables. -/
def Number.Moderate (x : Number) : Prop := -9999999 ≤ x.toInt ∧ x.toInt ≤ 9999999

/-- A command of a game of growing actors: it adds to a statistic a number that is between the
limits of variables, or it writes switches or variables. -/
def Command.Moderate (c : Command) : Prop :=
  (∃ k, Growth.of? c = some k ∧ (c.param k.place = 0 → (c.param (k.place + 1)).Moderate)) ∨
    c.WritesSwitches ∨ c.WritesVariables

/-- Everyone in a game and every variable is within bounds, and nobody is in the party twice. -/
structure Game.Grown (n : Nat) (g : Game) : Prop where
  nodup : g.party.members.Nodup
  actors : ∀ id a, g.actors.get? id = some a → a.Within n
  limits : g.vars.low = -9999999 ∧ g.vars.high = 9999999
  memory : ∀ id, (g.vars.get id).Moderate

/-! ## Changing actors one after the other -/

section Loops

variable {body : Number → Act Unit} {f : Actor → Except Overflow Actor} {ids : List Number}
  {w : World} {P : Actor → Prop}

theorem changeActor_of_ok {id : Number} {a a' : Actor} (ha : w.game.actors.get? id = some a)
    (h : f a = .ok a') : changeActor id f w =
      .ok ((), { w with game := { w.game with actors := w.game.actors.insert id a' } }) := by
  rw [changeActor, getGame_bind, ha]
  exact bind_of_ok (Frame.check_of_ok h w)

theorem changeActor_of_error {id : Number} {a : Actor} {o : Overflow}
    (ha : w.game.actors.get? id = some a) (h : f a = .error o) : changeActor id f w = .error o := by
  rw [changeActor, getGame_bind, ha]
  refine bind_of_error ?_
  rw [check, h]
  rfl

theorem changeActor_of_none {id : Number} (ha : w.game.actors.get? id = none) :
    changeActor id f w = .ok ((), w) := by
  rw [changeActor, getGame_bind, ha]
  rfl

/-- Nobody else is changed. -/
theorem others_of_changeActor {u : World} {id : Number} (h : changeActor id f w = .ok ((), u))
    {j : Number} (hj : j ≠ id) : u.game.actors.get? j = w.game.actors.get? j := by
  cases ha : w.game.actors.get? id with
  | none =>
    cases h.symm.trans (changeActor_of_none ha)
    rfl
  | some a =>
    cases hf : f a with
    | error o => cases h.symm.trans (changeActor_of_error ha hf)
    | ok a' =>
      cases h.symm.trans (changeActor_of_ok ha hf)
      exact (IdMap.get?_insert _ _ _ _).trans (if_neg hj)

/-- One of the actors is changed. -/
theorem gives_changeActor {id : Number} (hP : ∀ j a, w.game.actors.get? j = some a → P a)
    (hf : ∀ a, w.game.actors.get? id = some a → ∃ a', f a = .ok a' ∧ P a') :
    ∃ actors : IdMap Actor, changeActor id f w =
        .ok ((), { w with game := { w.game with actors } }) ∧
      ∀ j a, actors.get? j = some a → P a := by
  cases ha : w.game.actors.get? id with
  | none => exact ⟨w.game.actors, changeActor_of_none ha, hP⟩
  | some a =>
    obtain ⟨a', hok, hP'⟩ := hf a ha
    refine ⟨w.game.actors.insert id a', changeActor_of_ok ha hok, ?_⟩
    intro j b hb
    rw [IdMap.get?_insert] at hb
    split at hb
    · cases hb
      exact hP'
    · exact hP j b hb

variable (hbody : ∀ id u, ∃ warnings, body id u = changeActor id f { u with warnings })

include hbody

/-- All actors of a list are changed. -/
theorem gives_forM (hnodup : ids.Nodup) (hP : ∀ j a, w.game.actors.get? j = some a → P a)
    (hf : ∀ id ∈ ids, ∀ a, w.game.actors.get? id = some a → ∃ a', f a = .ok a' ∧ P a') :
    ∃ actors : IdMap Actor, (ids.forM body).Gives w () { w.game with actors } ∧
      ∀ j a, actors.get? j = some a → P a := by
  induction ids generalizing w with
  | nil => exact ⟨w.game.actors, ⟨w.warnings, rfl⟩, hP⟩
  | cons id ids ih =>
    obtain ⟨hnew, hnodup⟩ := List.nodup_cons.1 hnodup
    obtain ⟨hfirst, hothers⟩ := List.forall_mem_cons.1 hf
    obtain ⟨warnings, hone⟩ := hbody id w
    obtain ⟨actors, hchange, hchanged⟩ :=
      gives_changeActor (w := { w with warnings }) hP hfirst
    let u : World := { w with game := { w.game with actors }, warnings }
    obtain ⟨actors', ⟨warnings', hrest⟩, hall⟩ := ih (w := u) hnodup hchanged fun j hj a ha => by
      have hne : j ≠ id := fun h => hnew (h ▸ hj)
      exact hothers j hj a ((others_of_changeActor hchange hne).symm.trans ha)
    exact ⟨actors', ⟨warnings', (bind_of_ok (hone.trans hchange)).trans hrest⟩, hall⟩

/-- One actor of a list who cannot be changed makes all fail. -/
theorem forM_fails (hnodup : ids.Nodup) {id : Number} (hid : id ∈ ids) {a : Actor}
    (ha : w.game.actors.get? id = some a) (hf : ¬ ∃ a', f a = .ok a') :
    ∃ o, ids.forM body w = .error o := by
  induction ids generalizing w with
  | nil => cases hid
  | cons first ids ih =>
    obtain ⟨hnew, hnodup⟩ := List.nodup_cons.1 hnodup
    obtain ⟨warnings, hone⟩ := hbody first w
    cases hfirst : body first w with
    | error o => exact ⟨o, bind_of_error hfirst⟩
    | ok p =>
      obtain ⟨⟨⟩, u⟩ := p
      have hchange := hone.symm.trans hfirst
      obtain rfl | hrest := List.mem_cons.1 hid
      · cases hresult : f a with
        | ok a' => exact absurd ⟨a', hresult⟩ hf
        | error o =>
          cases hchange.symm.trans (changeActor_of_error (w := { w with warnings }) ha hresult)
      · have hne : id ≠ first := fun h => hnew (h ▸ hrest)
        have hkept : u.game.actors.get? id = some a :=
          (others_of_changeActor hchange hne).trans ha
        obtain ⟨o, hfails⟩ := ih hnodup hrest hkept
        exact ⟨o, (bind_of_ok hfirst).trans hfails⟩

end Loops

/-! ## One command -/

namespace Commands

variable {env : Env} {f : Frame} {c : Command} {k : Growth} {w : World} {n : Nat}

theorem gives_selectActors (mode value : Number) (w : World) :
    (selectActors mode value).Gives w (w.game.selected mode value) w.game := by
  have hone (id : Number) : ((do
      if (w.game.actors.get? id).isNone then
        warn .actorNotFound
        return []
      return [id] : Act (List Number)).Gives w
        (if (w.game.actors.get? id).isNone then [] else [id]) w.game) := by
    cases w.game.actors.get? id with
    | none => exact ⟨w.warnings.push .actorNotFound, rfl⟩
    | some a => exact ⟨w.warnings, rfl⟩
  unfold Act.Gives selectActors Game.selected
  rw [getGame_bind]
  split
  · next hmode =>
    rw [hmode]
    exact ⟨w.warnings, rfl⟩
  · next hmode =>
    rw [hmode]
    exact hone value
  · next hmode =>
    rw [hmode]
    exact hone (w.game.vars.get value)
  · refine ⟨w.warnings.push .unknownActorSelection, ?_⟩
    simp only
    rfl

theorem operand_eq (k : Growth) (c : Command) (w : World) :
    operand (c.param k.place) (c.param (k.place + 1)) w = .ok (k.operand w.game c, w) := by
  unfold operand Growth.operand
  split
  · rfl
  · rfl

/-- What is added is read exactly, as long as it can be taken away. -/
theorem reads_addend {reading : Act Number}
    (hreading : reading = do
      let value ← operand (c.param k.place) (c.param (k.place + 1))
      if k.takesAway c then check (Checked.neg value) else return value)
    (hrange : (k.operand w.game c).Moderate) :
    ∃ value, reading w = .ok (value, w) ∧ value.toInt = k.addend w.game c := by
  unfold Number.Moderate at hrange
  unfold Growth.addend
  rw [hreading, bind_of_ok (operand_eq k c w)]
  split
  · obtain ⟨value, hneg⟩ : ∃ value, Checked.neg (k.operand w.game c) = .ok value := by
      refine Checked.exists_fit_iff.2 ?_
      show -2147483648 ≤ -(k.operand w.game c).toInt ∧ -(k.operand w.game c).toInt ≤ 2147483647
      omega
    exact ⟨value, Frame.check_of_ok hneg w, Checked.fit_eq_ok_iff.1 hneg⟩
  · exact ⟨_, rfl, rfl⟩

theorem endIfFallen_eq (w : World) : ∃ scene,
    endIfFallen w = .ok ((), { w with game := { w.game with scene } }) := by
  by_cases hfallen : (w.game.troop.isNone && w.game.partyFallen) = true
  · refine ⟨{ w.game.scene with gameOver := true }, ?_⟩
    simp only [endIfFallen, modifyGame, hfallen, if_true]
  · refine ⟨w.game.scene, ?_⟩
    simp only [endIfFallen, modifyGame, hfallen]
    rfl

theorem signedOperand_eq (op mode value : Number) : signedOperand op mode value = (do
    let value ← operand mode value
    if decide (op = 1) then check (Checked.neg value) else return value) := by
  simp only [signedOperand, decide_eq_true_eq]

/-- The commands that add to a statistic are of one kind: they read what is to be added, change the
selected actors one after the other, and may look whether anyone still stands. -/
theorem perform_growth (env : Env) (f : Frame) (h : Growth.of? c = some k) :
    ∃ (reading : Act Number) (body : Number → Number → Act Unit) (after : Act Unit),
      perform env f c = (do
        let value ← reading
        let ids ← selectActors (c.param 0) (c.param 1)
        ids.forM (body value)
        after
        return .next f.pc) ∧
      (reading = do
        let value ← operand (c.param k.place) (c.param (k.place + 1))
        if k.takesAway c then check (Checked.neg value) else return value) ∧
      (∀ value id u, ∃ warnings,
        body value id u = changeActor id (k.grow env.data.config value) { u with warnings }) ∧
      ∀ u, ∃ scene, after u = .ok ((), { u with game := { u.game with scene } }) := by
  have hopcode : ∃ op, c.opcode = .shared op := by
    unfold Growth.of? at h
    split at h
    case h_6 => cases h
    all_goals exact ⟨_, ‹_›⟩
  obtain ⟨op, hop⟩ := hopcode
  rw [perform_shared env f hop]
  unfold Growth.of? at h
  rw [hop] at h
  split at h
  case h_6 => cases h
  all_goals
    cases h
    obtain rfl := Opcode.shared.inj ‹_›
  · refine ⟨_, fun value id => changeActor id (Growth.exp.grow env.data.config value), endIfFallen,
      ?_, signedOperand_eq _ _ _, fun value id u => ⟨u.warnings, rfl⟩, endIfFallen_eq⟩
    show changeExp env f c = _
    simp only [changeExp, changeActors, bind_assoc]
    rfl
  · refine ⟨_, fun value id => changeActor id (Growth.level.grow env.data.config value),
      endIfFallen, ?_, signedOperand_eq _ _ _, fun value id u => ⟨u.warnings, rfl⟩,
      endIfFallen_eq⟩
    show changeLevel env f c = _
    simp only [changeLevel, changeActors, bind_assoc]
    rfl
  · refine ⟨_, fun value id => do
      let g ← getGame
      if (g.actors.get? id).isSome && (c.param 3 < 0 || 5 < c.param 3) then warn .unknownParameter
      changeActor id (addParameter (c.mode 3) value), endIfFallen, ?_, signedOperand_eq _ _ _,
      fun value id u => ?_, endIfFallen_eq⟩
    · show changeParameters f c = _
      rfl
    · simp only [getGame_bind]
      split
      · exact ⟨u.warnings.push .unknownParameter, rfl⟩
      · exact ⟨u.warnings, rfl⟩
  · refine ⟨amount (c.flag 2) (c.param 3) (c.param 4),
      fun value id => changeActor id ((Growth.hp (c.flag 5)).grow env.data.config value),
      endIfFallen, ?_, rfl, fun value id u => ⟨u.warnings, rfl⟩, endIfFallen_eq⟩
    show changeHp f c = _
    simp only [changeHp, changeVitals, changeActors, bind_assoc]
    rfl
  · refine ⟨amount (c.flag 2) (c.param 3) (c.param 4),
      fun value id => changeActor id (Growth.sp.grow env.data.config value), pure (), ?_, rfl,
      fun value id u => ⟨u.warnings, rfl⟩, fun u => ⟨u.game.scene, rfl⟩⟩
    show changeSp f c = _
    simp only [changeSp, changeVitals, changeActors, bind_assoc]
    rfl

/-- How many commands on parameters a command counts for. -/
def weight (c : Command) : Nat := if c.opcode = .shared .changeParameters then 1 else 0

theorem weight_eq (h : Growth.of? c = some k) : k.weight = weight c := by
  unfold Growth.of? at h
  unfold weight
  split at h
  case h_6 => cases h
  all_goals
    cases h
    rw [‹c.opcode = _›]
    rfl

theorem nodup_selected {g : Game} (h : g.party.members.Nodup) (mode value : Number) :
    (g.selected mode value).Nodup := by
  have hone (id : Number) :
      (if (g.actors.get? id).isNone then [] else [id] : List Number).Nodup := by
    split
    · exact List.nodup_nil
    · exact List.nodup_cons.2 ⟨nofun, List.nodup_nil⟩
  unfold Game.selected
  split
  · exact h
  · exact hone value
  · exact hone _
  · exact List.nodup_nil

theorem operand_moderate (hg : w.game.Grown n)
    (hliteral : c.param k.place = 0 → (c.param (k.place + 1)).Moderate) :
    (k.operand w.game c).Moderate := by
  unfold Growth.operand
  split
  · next hmode => exact hliteral hmode
  · exact hg.memory _

/-- What is added is between the limits of variables, which are the same on both sides of zero. -/
theorem addend_moderate (hrange : (k.operand w.game c).Moderate) :
    -9999999 ≤ k.addend w.game c ∧ k.addend w.game c ≤ 9999999 := by
  unfold Number.Moderate at hrange
  unfold Growth.addend
  split
  · omega
  · exact hrange

/-- Where a command does not overshoot, everyone it works on can be changed. -/
theorem exists_grow_of_not_overshoots (hk : Growth.of? c = some k) (hg : w.game.Grown n)
    (hrange : (k.operand w.game c).Moderate) {value : Number}
    (hvalue : value.toInt = k.addend w.game c) (hnot : ¬ c.Overshoots w.game) {id : Number}
    (hid : id ∈ w.game.selected (c.param 0) (c.param 1)) {a : Actor}
    (ha : w.game.actors.get? id = some a) :
    ∃ a', k.grow {} value a = .ok a' ∧ a'.Within (n + weight c) := by
  obtain ⟨hlow, hhigh⟩ := hvalue ▸ addend_moderate hrange
  have hwithin := hg.actors id a ha
  obtain ⟨a', ha'⟩ : ∃ a', k.grow {} value a = .ok a' := by
    apply Growth.exists_grow_iff.2
    intro x hx
    have hpos := (hwithin.statistic hx).1
    have hle : ¬ 2147483647 < x.toInt + k.addend w.game c := fun hover =>
      hnot ⟨k, hk, id, hid, a, x, ha, hx, hover⟩
    omega
  exact ⟨a', ha', weight_eq hk ▸ hwithin.grow hhigh ha'⟩

/-- A command that adds to a statistic fails where it overshoots, and keeps the bounds anywhere
else. -/
theorem perform_grows (henv : env.data.config = {}) (hk : Growth.of? c = some k)
    (hliteral : c.param k.place = 0 → (c.param (k.place + 1)).Moderate) (hg : w.game.Grown n) :
    (c.Overshoots w.game → ∃ o, perform env f c w = .error o) ∧
      (¬ c.Overshoots w.game →
        ∃ r w', perform env f c w = .ok (r, w') ∧ w'.game.Grown (n + weight c)) := by
  have hrange := operand_moderate hg hliteral
  obtain ⟨reading, body, after, hperform, hreading, hbody, hafter⟩ := perform_growth env f hk
  obtain ⟨value, hreads, hvalue⟩ := reads_addend hreading hrange
  obtain ⟨warnings, hselect⟩ := gives_selectActors (c.param 0) (c.param 1) w
  have hnodup := nodup_selected hg.nodup (c.param 0) (c.param 1)
  rw [henv] at hbody
  rw [hperform, bind_of_ok hreads, bind_of_ok hselect]
  constructor
  · rintro ⟨k', hk', id, hid, a, x, ha, hx, hover⟩
    obtain rfl : k' = k := Option.some.inj (hk'.symm.trans hk)
    have hfails : ¬ ∃ a', k'.grow {} value a = .ok a' := by
      intro hok
      have hfits := Growth.exists_grow_iff.1 hok x hx
      omega
    obtain ⟨o, herror⟩ := forM_fails (hbody value) (w := { w with warnings }) hnodup hid ha hfails
    exact ⟨o, bind_of_error herror⟩
  · intro hnot
    obtain ⟨actors, ⟨warnings', hloop⟩, hactors⟩ := gives_forM (hbody value)
      (w := { w with warnings }) hnodup
      (fun id a ha => (hg.actors id a ha).mono (Nat.le_add_right n (weight c)))
      fun id hid a ha => exists_grow_of_not_overshoots hk hg hrange hvalue hnot hid ha
    obtain ⟨scene, hscene⟩ :=
      hafter { w with game := { w.game with actors }, warnings := warnings' }
    refine ⟨.next f.pc, _, (bind_of_ok hloop).trans ((bind_of_ok hscene).trans rfl), ?_⟩
    exact ⟨hg.nodup, hactors, hg.limits, hg.memory⟩

/-- A write to variables stays within their limits. -/
theorem combined_moderate {low high old : Int} (hle : low ≤ high) (hold : low ≤ old ∧ old ≤ high)
    (operation operand : Int) : low ≤ Memory.combined low high operation old operand ∧
      Memory.combined low high operation old operand ≤ high := by
  unfold Memory.combined
  split
  · omega
  · exact hold

/-- A command that writes switches or variables keeps the bounds. -/
theorem writes_grow (env : Env) (f : Frame) (h : c.WritesSwitches ∨ c.WritesVariables)
    (hg : w.game.Grown n) :
    ∃ r w', perform env f c w = .ok (r, w') ∧ w'.game.Grown n := by
  rcases h with h | h
  · obtain ⟨s, ⟨warnings, hgives⟩, -⟩ := gives_switches env f h w
    exact ⟨_, _, hgives, hg.nodup, hg.actors, hg.limits, hg.memory⟩
  · obtain ⟨v, ⟨warnings, hgives⟩, hget, hlow, hhigh⟩ := gives_variables env f h w
    refine ⟨_, _, hgives, hg.nodup, hg.actors, ⟨hlow.trans hg.limits.1, hhigh.trans hg.limits.2⟩,
      fun id => ?_⟩
    show (v.get id).Moderate
    rw [hget, Memory.combine, Number.Moderate]
    dsimp only
    split
    · rw [Memory.toInt_combined, hg.limits.1, hg.limits.2]
      exact combined_moderate (by decide) (hg.memory id) _ _
    · exact hg.memory id

/-! ## Rows of commands -/

/-- How many commands on parameters there are in a row. -/
def trainings : List (Frame × Command) → Nat
  | [] => 0
  | p :: cs => weight p.2 + trainings cs

section Rows

variable {cs before after : List (Frame × Command)} {p : Frame × Command}

theorem of?_of_writes (h : c.WritesSwitches ∨ c.WritesVariables) : Growth.of? c = none := by
  unfold Growth.of?
  rcases h with h | h
  · rw [h.opcode]
  · rw [h.opcode]

/-- A moderate command fails where it overshoots, and keeps the bounds anywhere else. -/
theorem perform_moderate (henv : env.data.config = {}) (hc : c.Moderate) (hg : w.game.Grown n) :
    (c.Overshoots w.game → ∃ o, perform env f c w = .error o) ∧
      (¬ c.Overshoots w.game →
        ∃ r w', perform env f c w = .ok (r, w') ∧ w'.game.Grown (n + weight c)) := by
  obtain ⟨k, hk, hliteral⟩ | hwrites := hc
  · exact perform_grows henv hk hliteral hg
  · have hnone := of?_of_writes hwrites
    constructor
    · rintro ⟨k, hk, -⟩
      cases hnone.symm.trans hk
    · intro _
      obtain ⟨r, w', hperform, hgrown⟩ := writes_grow env f hwrites hg
      refine ⟨r, w', hperform, hgrown.nodup, fun id a ha => ?_, hgrown.limits, hgrown.memory⟩
      exact (hgrown.actors id a ha).mono (Nat.le_add_right n _)

/-- Where a command fails, the row fails. -/
theorem performAll_of_error {u : World} {o : Overflow}
    (hbefore : performAll env before w = .ok ((), u)) (hp : perform env p.1 p.2 u = .error o) :
    performAll env (before ++ p :: after) w = .error o := by
  induction before generalizing w with
  | nil =>
    cases hbefore
    exact bind_of_error (bind_of_error hp)
  | cons q before ih =>
    obtain ⟨_, v, hq, hrest⟩ := bind_eq_ok_iff.1 hbefore
    exact (bind_of_ok hq).trans (ih hrest)

/-- A row of moderate commands is carried out within the bounds, or up to a command that overshoots
and fails. -/
theorem performAll_growth (henv : env.data.config = {}) (hcs : ∀ p ∈ cs, p.2.Moderate)
    (hg : w.game.Grown n) :
    (∃ w', performAll env cs w = .ok ((), w') ∧ w'.game.Grown (n + trainings cs)) ∨
      ∃ before p after w' o, cs = before ++ p :: after ∧
        performAll env before w = .ok ((), w') ∧ p.2.Overshoots w'.game ∧
          performAll env cs w = .error o := by
  induction cs generalizing w n with
  | nil => exact .inl ⟨w, rfl, hg⟩
  | cons p cs ih =>
    obtain ⟨hp, hcs⟩ := List.forall_mem_cons.1 hcs
    obtain ⟨hfails, hgoes⟩ := perform_moderate (f := p.1) henv hp hg
    by_cases hover : p.2.Overshoots w.game
    · obtain ⟨o, herror⟩ := hfails hover
      exact .inr ⟨[], p, cs, w, o, rfl, rfl, hover, bind_of_error (bind_of_error herror)⟩
    · obtain ⟨r, u, hperform, hu⟩ := hgoes hover
      have hstep (rest : List (Frame × Command)) :
          performAll env (p :: rest) w = performAll env rest u :=
        bind_of_ok (bind_of_ok hperform)
      obtain ⟨w', hrest, hgrown⟩ | ⟨before, q, after, w', o, rfl, hbefore, hover, hfails⟩ :=
        ih hcs hu
      · refine .inl ⟨w', (hstep cs).trans hrest, ?_⟩
        rw [trainings, ← Nat.add_assoc]
        exact hgrown
      · exact .inr ⟨p :: before, q, after, w', o, rfl, (hstep before).trans hbefore, hover,
          (hstep _).trans hfails⟩

/-- What a row of moderate commands leaves is within the bounds. -/
theorem grown_of_performAll (henv : env.data.config = {}) (hcs : ∀ p ∈ cs, p.2.Moderate)
    (hg : w.game.Grown n) {w' : World} (h : performAll env cs w = .ok ((), w')) :
    w'.game.Grown (n + trainings cs) := by
  obtain ⟨u, hok, hgrown⟩ | ⟨_, _, _, _, o, _, _, _, hfails⟩ := performAll_growth henv hcs hg
  · cases h.symm.trans hok
    exact hgrown
  · cases h.symm.trans hfails

end Rows

/-- What overshoots is a parameter or points, and there have been many commands on parameters
before. -/
theorem overshoots_late (h : c.Overshoots w.game) (hc : c.Moderate) (hg : w.game.Grown n) :
    213 ≤ n ∧ (c.opcode = .shared .changeParameters ∨ c.opcode = .shared .changeHp ∨
      c.opcode = .shared .changeSp) := by
  obtain ⟨k, hk, id, -, a, x, ha, hx, hover⟩ := h
  have hwithin := hg.actors id a ha
  have hrange : (k.operand w.game c).Moderate := by
    obtain ⟨k', hk', hliteral⟩ | hwrites := hc
    · obtain rfl : k' = k := Option.some.inj (hk'.symm.trans hk)
      exact operand_moderate hg hliteral
    · cases (of?_of_writes hwrites).symm.trans hk
  have hadds := (addend_moderate hrange).2
  have hreach := (hwithin.statistic hx).2
  refine ⟨by unfold reach at hreach; omega, ?_⟩
  unfold Growth.of? at hk
  split at hk
  all_goals cases hk
  · cases hx
    have hexp := hwithin.exp.2
    unfold reach at hexp
    omega
  · cases hx
    have hlevel := hwithin.level.2
    unfold reach at hlevel
    omega
  · exact .inl ‹_›
  · exact .inr (.inl ‹_›)
  · exact .inr (.inr ‹_›)

end Commands

/-! ## From the start of a game -/

/-- The statistics of an actor in a database are moderate. -/
structure ActorData.Moderate (d : ActorData) : Prop where
  level : d.level.UpTo 9999999
  maxHp : d.maxHp.UpTo 9999999
  maxSp : d.maxSp.UpTo 9999999
  attack : d.attack.UpTo 9999999
  defense : d.defense.UpTo 9999999
  spirit : d.spirit.UpTo 9999999
  agility : d.agility.UpTo 9999999

theorem ActorData.Moderate.within {d : ActorData} (h : d.Moderate) : (Actor.ofData d).Within 0 := by
  have hlevel : (max d.level 1).UpTo 9999999 := by
    obtain ⟨hpos, hle⟩ := h.level
    rw [Number.UpTo, Number.toInt_max, Int32.toInt_one]
    omega
  have hnone : (0 : Number).UpTo (reach 0) := ⟨by decide, by decide⟩
  exact ⟨hnone, hlevel, ⟨h.maxHp.1, Int.le_refl _⟩, ⟨h.maxSp.1, Int.le_refl _⟩,
    h.maxHp, h.maxSp, h.attack, h.defense, h.spirit, h.agility⟩

theorem Game.grown_begin {data : Database} (hconfig : data.config = {})
    (hactors : ∀ a ∈ data.actors, a.Moderate) (random : Random) : (begin data random).Grown 0 := by
  let nobody : Party :=
    { goldMax := data.config.goldMax, itemMax := data.config.itemMax,
      partyMax := data.config.partyMax.toNat }
  have hgold : 0 ≤ data.config.goldMax := by
    rw [hconfig]
    decide
  have hbounded : nobody.Bounded data.config :=
    ⟨Int32.le_refl 0, hgold, nofun, List.nodup_nil, Nat.zero_le _⟩
  have hparty := (Party.bounded_foldl_join hbounded ⟨rfl, rfl, rfl⟩ data.start.party).1
  have hzero : (0 : Number).Moderate := ⟨by decide, by decide⟩
  have hmemory (id : Number) : ((begin data random).vars.get id).Moderate := by
    rw [show (begin data random).vars.get id = 0 from Cells.get_empty id]
    exact hzero
  refine ⟨hparty.nodup, fun id a ha => ?_, ?_, hmemory⟩
  · obtain ⟨d, hd, hofData⟩ := List.mem_map.1 (IdMap.mem_of_get?_ofList ha)
    cases hofData
    exact (hactors d hd).within
  · show data.config.variableMin = _ ∧ data.config.variableMax = _
    rw [hconfig]
    exact ⟨rfl, rfl⟩

namespace Commands

/-- From the start of a game under the usual limits, a row of commands that add to statistics fails
exactly at the first that lifts a statistic past the largest number. That is a parameter, or points
below one, and it does not happen before there have been 213 commands on parameters. Experience and
levels never fail. -/
theorem growth_overflows_iff {data : Database} {env : Env} (henv : env.data = data)
    (hconfig : data.config = {}) (hactors : ∀ a ∈ data.actors, a.Moderate) {random : Random}
    {w : World} (hw : w.game = .begin data random) {cs : List (Frame × Command)}
    (hcs : ∀ p ∈ cs, p.2.Moderate) :
    ((∃ o, performAll env cs w = .error o) ↔
      ∃ before p after w', cs = before ++ p :: after ∧ performAll env before w = .ok ((), w') ∧
        p.2.Overshoots w'.game) ∧
    ∀ before p after w', cs = before ++ p :: after → performAll env before w = .ok ((), w') →
      p.2.Overshoots w'.game → 213 ≤ trainings before ∧
        (p.2.opcode = .shared .changeParameters ∨ p.2.opcode = .shared .changeHp ∨
          p.2.opcode = .shared .changeSp) := by
  have hlimits : env.data.config = {} := by rw [henv, hconfig]
  have hg : w.game.Grown 0 := hw ▸ Game.grown_begin hconfig hactors random
  have hsplits {before : List (Frame × Command)} {p : Frame × Command}
      {after : List (Frame × Command)} {w' : World} (hsplit : cs = before ++ p :: after)
      (hruns : performAll env before w = .ok ((), w')) :
      p.2.Moderate ∧ w'.game.Grown (trainings before) := by
    subst hsplit
    have hgrown := grown_of_performAll hlimits
      (fun q hq => hcs q (List.mem_append_left _ hq)) hg hruns
    exact ⟨hcs p (by simp), Nat.zero_add (trainings before) ▸ hgrown⟩
  refine ⟨⟨?_, ?_⟩, ?_⟩
  · rintro ⟨o, hfails⟩
    obtain ⟨w', hok, -⟩ | ⟨before, p, after, w', -, hsplit, hruns, hover, -⟩ :=
      performAll_growth hlimits hcs hg
    · cases hfails.symm.trans hok
    · exact ⟨before, p, after, w', hsplit, hruns, hover⟩
  · rintro ⟨before, p, after, w', hsplit, hruns, hover⟩
    obtain ⟨hp, hgrown⟩ := hsplits hsplit hruns
    obtain ⟨o, hfails⟩ := (perform_moderate (f := p.1) hlimits hp hgrown).1 hover
    exact ⟨o, hsplit ▸ performAll_of_error hruns hfails⟩
  · intro before p after w' hsplit hruns hover
    obtain ⟨hp, hgrown⟩ := hsplits hsplit hruns
    exact overshoots_late hover hp hgrown

/-- A fighter who is as strong as can be at the start. -/
def academy : Database where
  actors := [{ id := 1, attack := 9999999 }]

/-- The fighter gets stronger by as much as one command can add. -/
def training : Command :=
  { code := SharedOp.changeParameters.code, params := [1, 1, 0, 2, 0, 9999999] }

/-- After 213 commands the fighter is not too strong yet. The next one fails, and it is the one that
overshoots. -/
theorem academy_overflows :
    (academy.config = {} ∧ (∀ a ∈ academy.actors, a.Moderate) ∧ training.Moderate) ∧
    performAll { data := academy, host := {} } (List.replicate 214 (lone, training))
      { game := .begin academy default } = .error .add ∧
    ∃ before p after w', List.replicate 214 (lone, training) = before ++ p :: after ∧
      performAll { data := academy, host := {} } before { game := .begin academy default } =
        .ok ((), w') ∧ p.2.Overshoots w'.game ∧ 213 ≤ trainings before := by
  have hactors : ∀ a ∈ academy.actors, a.Moderate := by
    intro a ha
    obtain rfl := List.mem_singleton.1 ha
    exact ⟨⟨by decide, by decide⟩, ⟨by decide, by decide⟩, ⟨by decide, by decide⟩,
      ⟨by decide, by decide⟩, ⟨by decide, by decide⟩, ⟨by decide, by decide⟩,
      ⟨by decide, by decide⟩⟩
  have htraining : training.Moderate := .inl ⟨.parameter 2, by rfl, fun _ => ⟨by decide, by decide⟩⟩
  have hfails : performAll { data := academy, host := {} } (List.replicate 214 (lone, training))
      { game := .begin academy default } = .error .add := by
    decide +kernel
  have hrow : ∀ p ∈ List.replicate 214 (lone, training), p.2.Moderate := fun p hp => by
    rw [(List.mem_replicate.1 hp).2]
    exact htraining
  obtain ⟨hiff, hlate⟩ := @growth_overflows_iff academy { data := academy, host := {} } rfl rfl
    hactors default { game := .begin academy default } rfl _ hrow
  obtain ⟨before, p, after, w', hsplit, hruns, hover⟩ := hiff.1 ⟨_, hfails⟩
  exact ⟨⟨rfl, hactors, htraining⟩, hfails, before, p, after, w', hsplit, hruns, hover,
    (hlate before p after w' hsplit hruns hover).1⟩

end Commands

end EventScript
