import EventScript.Proofs.Parts

/-!
# Calls

Whoever owns a director runs ticks and answers what is asked for. A `Call` is one such thing done to
the director.

* `Director.Reachable` holds of the directors that calls lead to from the start of a game.
* `leads_of_call`: every call is a run of parts, and so is whatever calls lead to.
* `Composes.fieldTick`: in a tick of the field the root goes first. What holds across each part that
  is done for the events beside it then holds across all of them.
-/

namespace EventScript.Director

/-- One thing done to a director by its owner. -/
inductive Call
  | execute (ticks : Nat)
  | tick
  | order (o : Order)

/-- Does what is called for. -/
def Call.run : Call → Directing Unit
  | execute ticks => do let _ ← lead ticks
  | tick => fieldTick
  | order o => o.run

/-- The directors that calls lead to from the start of a game. -/
def Reachable (data : Database) (random : Random) (d : Director) : Prop :=
  ∃ calls : List Call, calls.forM Call.run (begin data random) = .ok ((), d)

variable {d d' : Director}

/-! ## Events that run beside the others -/

/-- Whether a part starts, updates or stops an event that runs beside the others. -/
def Part.isBeside : Part → Bool
  | update (.common _) | update (.parallel _) | bindCommon _ | bindPage _ | dropCommons
  | dropPages => true
  | update .root | update .battle | bindTroop | world | teleport | order _ => false

/-- What holds between a director and the one that a part of some kinds leaves, and so between the
two ends of a run of such parts. -/
structure Composes (kinds : Part → Bool) (R : Director → Director → Prop) : Prop where
  refl (d : Director) : R d d
  trans {d d' d'' : Director} : R d d' → R d' d'' → R d d''
  part (p : Part) (d : Director) : kinds p = true → Ensures p.run d fun _ d' => R d d'

theorem composes_leads (kinds : Part → Bool) : Composes kinds Leads :=
  ⟨.refl, .trans, fun p d _ => leads_of_part p d⟩

variable {R S : Director → Director → Prop}

theorem Composes.and {kinds : Part → Bool} (hR : Composes kinds R) (hS : Composes kinds S) :
    Composes kinds fun d d' => R d d' ∧ S d d' where
  refl d := ⟨hR.refl d, hS.refl d⟩
  trans h h' := ⟨hR.trans h.1 h'.1, hS.trans h.2 h'.2⟩
  part p d hp r d' hr := ⟨hR.part p d hp r d' hr, hS.part p d hp r d' hr⟩

theorem Composes.updateAgent {kinds : Part → Bool} (hR : Composes kinds R) {a : Agent}
    (ha : kinds (.update a) = true) (d : Director) :
    Ensures ((d.interpreter a).update d.env levels) d.world
      fun j w => R d (withInterpreter { d with world := w } a j) := by
  have h := hR.part (.update a) d ha
  simpa only [Part.run, Director.updateAgent, ensures_bind, Directing.ensures_get, ensures_update,
    Directing.ensures_modify] using h

section

variable (hR : Composes Part.isBeside R)

include hR

theorem Composes.updateCommon (id : Number) (d : Director) :
    Ensures (updateCommon id) d fun _ d' => R d d' := by
  simp only [Director.updateCommon, ensures_bind, Directing.ensures_get, ensures_ite, ensures_pure,
    ensures_update, Directing.ensures_modify]
  refine ⟨fun _ => hR.updateAgent (a := .common id) rfl d, fun _ => ?_⟩
  split
  · next e he =>
    simp only [ensures_bind, ensures_start, ensures_update, Directing.ensures_modify]
    intro j hj
    let d₁ := d.withInterpreter (.common id) j
    have hbind : R d d₁ := by
      have h := hR.part (.bindCommon id) d rfl
      simp only [Part.run, bindCommon, ensures_bind, Directing.ensures_get, he, ensures_start,
        Directing.ensures_modify] at h
      exact h j hj
    have hj₁ : d₁.interpreter (.common id) = j := by
      simp only [d₁, interpreter_withInterpreter, if_true]
    have hupdate := hR.updateAgent (a := .common id) rfl d₁
    rw [hj₁] at hupdate
    refine hupdate.imp fun k w hk => ?_
    simp only [d₁, withInterpreter, insert_insert] at hk
    exact hR.trans hbind hk
  · simp only [ensures_bind, ensures_pure, ensures_update, Directing.ensures_modify]
    exact hR.updateAgent (a := .common id) rfl d

theorem Composes.updateParallel (id : Number) (d : Director) :
    Ensures (updateParallel id) d fun _ d' => R d d' := by
  simp only [Director.updateParallel, ensures_bind, Directing.ensures_get, ensures_ite,
    ensures_pure, ensures_update, Directing.ensures_modify]
  refine ⟨fun hgoes => ?_, fun _ => ?_⟩
  · obtain ⟨hpage, -⟩ := Bool.and_eq_true_iff.1 hgoes
    refine (hR.updateAgent (a := .parallel id) rfl d).imp fun j w hj => ?_
    rw [← of_decide_eq_true hpage]
    exact hj
  · split
    · next commands hcommands =>
      simp only [ensures_bind, ensures_map, ensures_start, ensures_update, Directing.ensures_modify]
      intro j hj
      let page := (d.game.shownPage id).getD 0
      let d₁ : Director := { d with parallel := d.parallel.insert id { page, interpreter := j } }
      have hbind : R d d₁ := by
        have h := hR.part (.bindPage id) d rfl
        simp only [Part.run, bindPage, ensures_bind, Directing.ensures_get] at h
        split at h
        · next commands' hcommands' =>
          cases hcommands.symm.trans hcommands'
          simp only [ensures_bind, ensures_start, Directing.ensures_modify] at h
          exact h j hj
        · next hnone => cases hcommands.symm.trans hnone
      have hrun : d₁.pageRun id = { page, interpreter := j } := by
        simp only [d₁, pageRun, IdMap.get?_insert, if_true, Option.getD_some]
      have hj₁ : d₁.interpreter (.parallel id) = j := congrArg PageRun.interpreter hrun
      have hupdate := hR.updateAgent (a := .parallel id) rfl d₁
      rw [hj₁] at hupdate
      refine hupdate.imp fun k w hk => ?_
      have hrun' : Director.pageRun { d₁ with world := w } id = { page, interpreter := j } := hrun
      simp only [withInterpreter, hrun'] at hk
      simp only [d₁, insert_insert] at hk
      exact hR.trans hbind hk
    · simp only [ensures_bind, ensures_pure]
      exact hR.refl d

/-! ## Ticks -/

/-- In a tick of the field the root goes first, then the events that run beside it, and then the
world moves. -/
theorem Composes.fieldTick {Q : Unit → Director → Prop}
    (h : Ensures updateRoot d fun _ d₁ => ∀ d₂, R d₁ d₂ →
      Ensures (do tickWorld; carryTeleport) d₂ Q) : Ensures fieldTick d Q := by
  refine Ensures.bind h fun _ d₁ h => ?_
  simp only [ensures_bind, Directing.ensures_get, Directing.ensures_modify] at h ⊢
  have hcommons : R d₁ { d₁ with
      common := d₁.common.keep (parallelCommons d₁.data d₁.game).contains } :=
    hR.part .dropCommons d₁ rfl _ _ rfl
  refine (ensures_forM (I := R d₁) (fun id _ u hu => ?_) hcommons).imp fun _ d₂ h₂ => ?_
  · exact (hR.updateCommon id u).imp fun _ _ h => hR.trans hu h
  have hpages : R d₁ { d₂ with
      parallel := d₂.parallel.keep d₂.game.field.parallelIds.contains } :=
    hR.trans h₂ (hR.part .dropPages d₂ rfl _ _ rfl)
  refine (ensures_forM (I := R d₁) (fun id _ u hu => ?_) hpages).imp fun _ d₃ h₃ => ?_
  · exact (hR.updateParallel id u).imp fun _ _ h => hR.trans hu h
  exact h d₃ h₃

end

/-- Before the world moves in a tick, parts are done. -/
theorem ensures_fieldTick {Q : Unit → Director → Prop}
    (h : ∀ d₁, Leads d d₁ → Ensures (do tickWorld; carryTeleport) d₁ Q) :
    Ensures fieldTick d Q := by
  refine (composes_leads _).fieldTick ((leads_of_part (.update .root) d).imp fun _ d₁ h₁ => ?_)
  exact fun d₂ h₂ => h d₂ (h₁.trans h₂)

theorem leads_fieldTick (d : Director) : Ensures fieldTick d fun _ d' => Leads d d' := by
  refine ensures_fieldTick fun d₁ h₁ => ?_
  refine Ensures.bind (leads_of_part .world d₁) fun _ d₂ h₂ => ?_
  exact (leads_of_part .teleport d₂).imp fun _ d₃ h₃ => (h₁.trans h₂).trans h₃

/-- Whether a part cannot lead to another map. -/
def Part.staysHere : Part → Bool
  | teleport => false
  | _ => true

/-- In a tick of a battle either parts are done before the world moves, or the field stays as it
is. -/
theorem Composes.battleTick (hR : Composes Part.staysHere R) {Q : Bool → Director → Prop}
    (hworld : ∀ d₁, R d d₁ → Ensures tickWorld d₁ fun _ d₂ => Q true d₂)
    (hrest : ∀ d₁ ran, R d d₁ → d₁.game.field = d.game.field → Q ran d₁) :
    Ensures battleTick d Q := by
  have hgo (d₁ : Director) (h₁ : R d d₁) : Ensures (do
      let d ← get
      let battle ← update d.battle
      modify fun d => { d with battle }
      tickWorld
      return true : Directing Bool) d₁ Q := by
    simp only [ensures_bind, Directing.ensures_get, ensures_update, Directing.ensures_modify,
      ensures_pure]
    refine (hR.updateAgent (a := .battle) rfl d₁).imp fun j w hw => ?_
    exact hworld _ (hR.trans h₁ hw)
  simp only [Director.battleTick, ensures_bind, Directing.ensures_get, ensures_ite, ensures_pure]
    at hgo ⊢
  refine ⟨fun _ => ⟨fun _ => hgo d (hR.refl d), fun h => absurd trivial h⟩, fun _ => ?_⟩
  intro running d₁ h
  have h₁ : R d d₁ := by
    have hpart := hR.part .bindTroop d rfl
    simp only [Part.run, ensures_bind, ensures_pure] at hpart
    exact hpart running d₁ h
  have hfield : d₁.game.field = d.game.field := by
    rw [game_of_startNextPage d running d₁ h]
  refine ⟨fun _ => hgo d₁ h₁, fun _ => ?_⟩
  split
  · next result _ =>
    have hsettle := hR.part (.order (.settleBattle result)) d₁ rfl
    simp only [Part.run, Order.run, settleBattle, ensures_bind, Directing.ensures_act,
      Act.ensures_getGame, Act.ensures_check, Act.ensures_setGame, Directing.ensures_modify]
      at hsettle
    simp only [settleBattle, ensures_bind, Directing.ensures_act, Act.ensures_getGame,
      Act.ensures_check, Act.ensures_setGame, Directing.ensures_modify, ensures_pure]
    intro party hparty
    exact hrest _ _ (hR.trans h₁ (hsettle party hparty)) hfield
  · exact ensures_pure.2 (hrest _ _ h₁ hfield)

theorem ensures_battleTick {Q : Bool → Director → Prop}
    (hworld : ∀ d₁, Leads d d₁ → Ensures tickWorld d₁ fun _ d₂ => Q true d₂)
    (hrest : ∀ d₁ ran, Leads d d₁ → d₁.game.field = d.game.field → Q ran d₁) :
    Ensures battleTick d Q :=
  (composes_leads _).battleTick hworld hrest

/-! ## Calls keep what ticks and parts keep -/

/-- What is kept by a tick of the field and by every part that cannot lead to another map. -/
structure KeptByTicks (I : Director → Prop) : Prop where
  fieldTick (d : Director) : I d → Ensures fieldTick d fun _ d' => I d'
  part (p : Part) (d : Director) : p.staysHere = true → I d → Ensures p.run d fun _ d' => I d'

section

variable {I : Director → Prop} (hI : KeptByTicks I)

include hI

theorem KeptByTicks.advance (h : I d) : Ensures advance d fun _ d' => I d' := by
  have hR : Composes Part.staysHere fun d d' => I d → I d' :=
    ⟨fun _ => id, fun h h' => h' ∘ h, fun p d hp r d' hr hd => hI.part p d hp hd r d' hr⟩
  have hbattle : Ensures battleTick d fun _ d' => I d' :=
    hR.battleTick (fun d₁ h₁ => hI.part .world d₁ rfl (h₁ h)) fun d₁ _ h₁ _ => h₁ h
  simp only [Director.advance, ensures_bind, Directing.ensures_act, Act.ensures_getGame,
    ensures_ite, ensures_pure]
  refine ⟨fun _ => h, fun _ => ⟨fun _ => hbattle, fun _ => ?_⟩⟩
  split
  · exact ensures_pure.2 h
  · simp only [ensures_bind, Directing.ensures_get, ensures_pure]
    exact hI.fieldTick d h

theorem KeptByTicks.lead (n : Nat) (h : I d) : Ensures (lead n) d fun _ d' => I d' := by
  induction n generalizing d with
  | zero =>
    simp only [Director.lead, ensures_bind, Directing.ensures_act, Act.ensures_getGame,
      ensures_pure]
    exact h
  | succ n ih =>
    simp only [Director.lead, ensures_bind]
    refine (hI.advance h).imp fun stop d₁ h₁ => ?_
    cases stop with
    | some stop => exact ensures_pure.2 h₁
    | none => exact ih h₁

/-- What ticks and parts keep, every call keeps. -/
theorem KeptByTicks.call (c : Call) (h : I d) : Ensures c.run d fun _ d' => I d' := by
  cases c with
  | execute ticks =>
    simp only [Call.run, ensures_bind, ensures_pure]
    exact hI.lead ticks h
  | tick => exact hI.fieldTick d h
  | order o => exact hI.part (.order o) d rfl h

/-- What ticks and parts keep holds of everything that calls lead to. -/
theorem KeptByTicks.reachable {data : Database} {random : Random} (hd : I (begin data random))
    (h : Reachable data random d) : I d := by
  obtain ⟨calls, h⟩ := h
  exact ensures_forM (I := I) (fun c _ u hu => hI.call c hu) hd () d h

end

theorem keptByTicks_leads (d : Director) : KeptByTicks (Leads d) where
  fieldTick u hu := (leads_fieldTick u).imp fun _ _ h => hu.trans h
  part p u _ hu := (leads_of_part p u).imp fun _ _ h => hu.trans h

/-- Every call is a run of parts. -/
theorem leads_of_call (c : Call) (d : Director) : Ensures c.run d fun _ d' => Leads d d' :=
  (keptByTicks_leads d).call c (.refl d)

variable {data : Database} {random : Random}

/-- Whatever calls lead to, a run of parts leads to. -/
theorem Reachable.leads (h : Reachable data random d) : Leads (begin data random) d :=
  (keptByTicks_leads _).reachable (.refl _) h

theorem Reachable.call (h : Reachable data random d) {c : Call} (hc : c.run d = .ok ((), d')) :
    Reachable data random d' := by
  obtain ⟨calls, hcalls⟩ := h
  refine ⟨calls ++ [c], ?_⟩
  change (forM (calls ++ [c]) Call.run : Directing PUnit) _ = _
  rw [List.forM_append]
  exact (bind_of_ok hcalls).trans (bind_of_ok hc)

end EventScript.Director
