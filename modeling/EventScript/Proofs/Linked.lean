/-!
# Steps in a row

A run is written down as the row of its steps: each begins in the state in which the one before it
ended.

* `Linked` holds of such rows, and `Linked.apart` takes one apart at any of its steps.
* `Linked.along`: what holds at first and is handed on by every step holds after all of them.
-/

namespace EventScript

variable {ι σ : Type} {before after : ι → σ} {sound : ι → Prop} {s s' s'' : σ} {xs ys : List ι}

/-- Steps from one state to another that follow each other without a gap, and each of which is
sound. -/
def Linked (before after : ι → σ) (sound : ι → Prop) : σ → List ι → σ → Prop
  | s, [], s' => s' = s
  | s, x :: xs, s' => before x = s ∧ sound x ∧ Linked before after sound (after x) xs s'

namespace Linked

theorem append (h : Linked before after sound s xs s') (h' : Linked before after sound s' ys s'') :
    Linked before after sound s (xs ++ ys) s'' := by
  induction xs generalizing s with
  | nil => exact h ▸ h'
  | cons x xs ih => exact ⟨h.1, h.2.1, ih h.2.2⟩

/-- What comes before one of the steps, the step itself, and what comes after it. -/
theorem apart {pre post : List ι} {x : ι} (h : Linked before after sound s (pre ++ x :: post) s') :
    Linked before after sound s pre (before x) ∧ sound x ∧
      Linked before after sound (after x) post s' := by
  induction pre generalizing s with
  | nil => exact ⟨h.1, h.2.1, h.2.2⟩
  | cons y pre ih =>
    obtain ⟨hpre, hx, hpost⟩ := ih h.2.2
    exact ⟨⟨h.1, h.2.1, hpre⟩, hx, hpost⟩

theorem sound_of_mem {x : ι} (h : Linked before after sound s xs s') (hx : x ∈ xs) : sound x := by
  obtain ⟨pre, post, rfl⟩ := List.append_of_mem hx
  exact h.apart.2.1

/-- What holds at first, of no steps, and is handed on by every sound step, holds of all of them. -/
theorem along {I : List ι → σ → Prop} (h : Linked before after sound s xs s') (hnil : I [] s)
    (hsnoc : ∀ pre x, sound x → I pre (before x) → I (pre ++ [x]) (after x)) : I xs s' := by
  suffices hall : ∀ pre s, I pre s → Linked before after sound s xs s' → I (pre ++ xs) s' from
    hall [] s hnil h
  clear h hnil
  induction xs with
  | nil =>
    rintro pre s hI rfl
    exact (List.append_nil pre).symm ▸ hI
  | cons x xs ih =>
    rintro pre s hI ⟨rfl, hx, h⟩
    have hrest := ih (pre ++ [x]) _ (hsnoc pre x hx hI) h
    rwa [List.append_assoc] at hrest

/-- What holds at first, and not in the end, is ended by one of the steps. -/
theorem exists_end {P : σ → Prop} (h : Linked before after sound s xs s') (hs : P s)
    (hs' : ¬ P s') : ∃ pre x post, xs = pre ++ x :: post ∧ P (before x) ∧ ¬ P (after x) := by
  induction xs generalizing s with
  | nil =>
    cases h
    exact absurd hs hs'
  | cons x xs ih =>
    obtain ⟨rfl, -, h⟩ := h
    by_cases hx : P (after x)
    · obtain ⟨pre, y, post, rfl, hy⟩ := ih h hx
      exact ⟨x :: pre, y, post, rfl, hy⟩
    · exact ⟨[], x, xs, rfl, hs, hx⟩

end Linked

end EventScript
