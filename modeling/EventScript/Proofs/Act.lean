import EventScript.World

/-!
# What a run leaves

A run turns a state into a result and another state, or fails. `Ensures a s Q` says that `Q` holds
of every result that the run `a` has at the state `s`. A run that fails has none.

* The rules are equivalences, so that `simp` carries out a run.
* `Ensures.bind` puts two runs together where something is known about the first only.
* `ensures_forM` is the rule for going through a list: an invariant that every step keeps.
* `Yields` says the same of checked computations, and `Checked.exists_fit_iff` says when they give a
  result.
* The rules of the section `Act` are those for the ways to touch the world.
-/

namespace EventScript

section

variable {σ ε α β : Type}

/-- Every result of a run satisfies `Q`. -/
def Ensures (a : StateT σ (Except ε) α) (s : σ) (Q : α → σ → Prop) : Prop :=
  ∀ r s', a s = .ok (r, s') → Q r s'

variable {a : StateT σ (Except ε) α} {f : α → StateT σ (Except ε) β} {s : σ} {P Q : α → σ → Prop}
  {R : β → σ → Prop}

theorem Ensures.imp (h : Ensures a s P) (hPQ : ∀ r s', P r s' → Q r s') : Ensures a s Q :=
  fun r s' hr => hPQ r s' (h r s' hr)

/-- A result is what the run gives. -/
theorem ensures_run : Ensures a s fun r s' => a s = .ok (r, s') := fun _ _ h => h

theorem bind_of_ok {x : α} {u : σ} (h : a s = .ok (x, u)) : (a >>= f) s = f x u := by
  change Except.bind (a s) (fun p => f p.1 p.2) = f x u
  rw [h]
  rfl

theorem bind_of_error {e : ε} (h : a s = .error e) : (a >>= f) s = .error e := by
  change Except.bind (a s) (fun p => f p.1 p.2) = .error e
  rw [h]
  rfl

theorem bind_eq_ok_iff {r : β} {s' : σ} :
    (a >>= f) s = .ok (r, s') ↔ ∃ x u, a s = .ok (x, u) ∧ f x u = .ok (r, s') := by
  cases h : a s with
  | error e => simp [bind_of_error h]
  | ok p =>
    obtain ⟨x, u⟩ := p
    rw [bind_of_ok h]
    constructor
    · intro hf
      exact ⟨x, u, rfl, hf⟩
    · rintro ⟨x', u', hx, hf⟩
      cases hx
      exact hf

@[simp] theorem ensures_bind :
    Ensures (a >>= f) s R ↔ Ensures a s fun x u => Ensures (f x) u R := by
  constructor
  · intro h x u hx r s' hr
    exact h r s' (bind_eq_ok_iff.2 ⟨x, u, hx, hr⟩)
  · intro h r s' hr
    obtain ⟨x, u, hx, hf⟩ := bind_eq_ok_iff.1 hr
    exact h x u hx r s' hf

theorem Ensures.bind (h : Ensures a s P) (hf : ∀ x u, P x u → Ensures (f x) u R) :
    Ensures (a >>= f) s R :=
  ensures_bind.2 (h.imp hf)

@[simp] theorem ensures_pure {r : α} :
    Ensures (pure r : StateT σ (Except ε) α) s Q ↔ Q r s := by
  constructor
  · intro h
    exact h r s rfl
  · intro h r' s' hr
    cases hr
    exact h

@[simp] theorem ensures_map {g : α → β} :
    Ensures (g <$> a) s R ↔ Ensures a s fun x u => R (g x) u := by
  rw [map_eq_pure_bind, ensures_bind]
  simp

@[simp] theorem ensures_ite {c : Prop} [Decidable c] {b : StateT σ (Except ε) α} :
    Ensures (if c then a else b) s Q ↔ (c → Ensures a s Q) ∧ (¬ c → Ensures b s Q) := by
  by_cases h : c <;> simp [h]

/-- Going through a list keeps what every step keeps. -/
theorem ensures_forM {I : σ → Prop} {g : α → StateT σ (Except ε) PUnit} {l : List α}
    (hg : ∀ x ∈ l, ∀ u, I u → Ensures (g x) u fun _ u' => I u') (hs : I s) :
    Ensures (l.forM g) s fun _ s' => I s' := by
  induction l generalizing s with
  | nil => exact ensures_pure.2 hs
  | cons x l ih =>
    refine Ensures.bind (hg x (by simp) s hs) fun _ u hu => ?_
    exact ih (fun y hy => hg y (by simp [hy])) hu

/-- The same, where every step gives a value. -/
theorem ensures_mapM {I : σ → Prop} {g : α → StateT σ (Except ε) β} {l : List α}
    (hg : ∀ x ∈ l, ∀ u, I u → Ensures (g x) u fun _ u' => I u') (hs : I s) :
    Ensures (l.mapM g) s fun _ s' => I s' := by
  induction l generalizing s with
  | nil => exact ensures_pure.2 hs
  | cons x l ih =>
    rw [List.mapM_cons]
    refine Ensures.bind (hg x (by simp) s hs) fun _ u hu => ?_
    refine Ensures.bind (ih (fun y hy => hg y (by simp [hy])) hu) fun _ v hv => ?_
    exact ensures_pure.2 hv

end

/-! ## Checked computations -/

/-- Whatever a computation gives has a property. -/
def Yields {ε α : Type} (x : Except ε α) (P : α → Prop) : Prop := ∀ r, x = .ok r → P r

section

variable {ε α β : Type} {P : α → Prop} {r : α}

@[simp] theorem yields_ok : Yields (.ok r : Except ε α) P ↔ P r := by
  constructor
  · intro h
    exact h r rfl
  · intro h r' hr
    cases hr
    exact h

@[simp] theorem yields_pure : Yields (pure r : Except ε α) P ↔ P r := yields_ok

theorem except_bind_eq_ok_iff {x : Except ε α} {f : α → Except ε β} {b : β} :
    x >>= f = .ok b ↔ ∃ a, x = .ok a ∧ f a = .ok b := by
  cases x with
  | error e => exact ⟨nofun, fun ⟨_, h, _⟩ => nomatch h⟩
  | ok a =>
    constructor
    · intro h
      exact ⟨a, rfl, h⟩
    · rintro ⟨a', ha, h⟩
      cases ha
      exact h

theorem except_bind_eq_error_iff {x : Except ε α} {f : α → Except ε β} {e : ε} :
    x >>= f = .error e ↔ x = .error e ∨ ∃ a, x = .ok a ∧ f a = .error e := by
  cases x with
  | error e' =>
    constructor
    · intro h
      cases h
      exact .inl rfl
    · rintro (h | ⟨a, ha, -⟩)
      · cases h
        rfl
      · cases ha
  | ok a =>
    constructor
    · intro h
      exact .inr ⟨a, rfl, h⟩
    · rintro (h | ⟨a', ha, h⟩)
      · cases h
      · cases ha
        exact h

@[simp] theorem yields_bind {x : Except ε β} {f : β → Except ε α} :
    Yields (x >>= f) P ↔ Yields x fun b => Yields (f b) P := by
  constructor
  · intro h b hb r hr
    exact h r (except_bind_eq_ok_iff.2 ⟨b, hb, hr⟩)
  · intro h r hr
    obtain ⟨b, hb, hf⟩ := except_bind_eq_ok_iff.1 hr
    exact h b hb r hf

@[simp] theorem yields_map {x : Except ε β} {f : β → α} :
    Yields (f <$> x) P ↔ Yields x fun b => P (f b) := by
  rw [map_eq_pure_bind, yields_bind]
  simp

@[simp] theorem yields_ite {c : Prop} [Decidable c] {x y : Except ε α} :
    Yields (if c then x else y) P ↔ (c → Yields x P) ∧ (¬ c → Yields y P) := by
  by_cases h : c <;> simp [h]

/-- Whether a computation gives something with a property can be computed. -/
instance decidableExistsOk {x : Except ε α} [DecidablePred P] :
    Decidable (∃ r, x = .ok r ∧ P r) :=
  match x with
  | .ok r => decidable_of_iff (P r) ⟨fun h => ⟨r, rfl, h⟩, fun ⟨_, hr, h⟩ => by cases hr; exact h⟩
  | .error _ => isFalse fun ⟨_, hr, _⟩ => nomatch hr

/-- Whether a computation fails for a reason can be computed. -/
instance decidableEqError [DecidableEq ε] {x : Except ε α} {e : ε} : Decidable (x = .error e) :=
  match x with
  | .ok _ => isFalse nofun
  | .error e' => decidable_of_iff (e' = e) ⟨congrArg _, Except.error.inj⟩

@[simp] theorem yields_true {x : Except ε α} : Yields x fun _ => True := fun _ _ => trivial

end

namespace Checked

/-- Exactly the results within the width are kept. -/
theorem exists_fit_iff {α : Type} [FixedWidth α] {cause : Overflow} {z : Int} :
    (∃ a : α, fit cause z = .ok a) ↔ FixedWidth.low α ≤ z ∧ z ≤ FixedWidth.high α := by
  constructor
  · rintro ⟨a, ha⟩
    have hz : FixedWidth.toInt a = z := fit_eq_ok_iff.1 ha
    exact hz ▸ ⟨FixedWidth.low_le a, FixedWidth.le_high a⟩
  · rintro ⟨hlow, hhigh⟩
    exact ⟨_, fit_isOk cause hlow hhigh⟩

end Checked

/-! ## Touching the world -/

namespace Act

variable {α β : Type} {w : World}

theorem getGame_bind (f : Game → Act β) (w : World) : (getGame >>= f) w = f w.game w := rfl

@[simp] theorem ensures_getGame {Q : Game → World → Prop} :
    Ensures getGame w Q ↔ Q w.game w := by
  constructor
  · intro h
    exact h _ _ rfl
  · intro h r w' hr
    cases hr
    exact h

section Touching

variable {Q : Unit → World → Prop}

@[simp] theorem ensures_setGame {g : Game} :
    Ensures (setGame g) w Q ↔ Q () { w with game := g } := by
  constructor
  · intro h
    exact h _ _ rfl
  · intro h r w' hr
    cases hr
    exact h

@[simp] theorem ensures_modifyGame {g : Game → Game} :
    Ensures (modifyGame g) w Q ↔ Q () { w with game := g w.game } := by
  constructor
  · intro h
    exact h _ _ rfl
  · intro h r w' hr
    cases hr
    exact h

@[simp] theorem ensures_emit {e : Effect} :
    Ensures (emit e) w Q ↔ Q () { w with effects := w.effects.push e } := by
  constructor
  · intro h
    exact h _ _ rfl
  · intro h r w' hr
    cases hr
    exact h

@[simp] theorem ensures_warn {m : Warning} :
    Ensures (warn m) w Q ↔ Q () { w with warnings := w.warnings.push m } := by
  constructor
  · intro h
    exact h _ _ rfl
  · intro h r w' hr
    cases hr
    exact h

end Touching

@[simp] theorem ensures_check {x : Except Overflow α} {Q : α → World → Prop} :
    Ensures (check x) w Q ↔ ∀ r, x = .ok r → Q r w := by
  constructor
  · rintro h r rfl
    exact h r w rfl
  · intro h r w' hr
    cases x with
    | error o => cases hr
    | ok s =>
      cases hr
      exact h r rfl

end Act

end EventScript
