import EventScript.Checked

/-!
# Cells

A row of cells under the ids from one on. It has no cells beyond the last one that ever held
something, and grows where something is written behind them. An id without a cell reads as blank.

* `Cells.get_write`: a write changes the cell it names and no other. An id that is not positive has
  no cell, and a blank is not written past the end.
* `get_foldl_idsBetween`: where each of a range of ids is amended, one after the other, all of them
  are amended once.
-/

namespace EventScript

/-- The ids from `first` to `last`, both included. -/
def idsBetween (first last : Number) : List Number :=
  (List.range (last.toInt - first.toInt + 1).toNat).map
    fun (k : Nat) => Int32.ofInt (first.toInt + k)

theorem toInt_idsBetween {first last : Number} {k : Nat}
    (h : k < (last.toInt - first.toInt + 1).toNat) :
    (Int32.ofInt (first.toInt + k)).toInt = first.toInt + k := by
  have := first.le_toInt
  have := last.toInt_lt
  exact Int32.toInt_ofInt_of_le (by omega) (by omega)

theorem mem_idsBetween {first last j : Number} :
    j ∈ idsBetween first last ↔ first ≤ j ∧ j ≤ last := by
  simp only [idsBetween, List.mem_map, List.mem_range, Int32.le_iff_toInt_le]
  constructor
  · rintro ⟨k, hk, rfl⟩
    rw [toInt_idsBetween hk]
    omega
  · rintro ⟨h, h'⟩
    have hk : (j.toInt - first.toInt).toNat < (last.toInt - first.toInt + 1).toNat := by omega
    refine ⟨_, hk, Int32.toInt_inj.1 ?_⟩
    rw [toInt_idsBetween hk]
    omega

theorem ascending_idsBetween (first last : Number) :
    (idsBetween first last).Pairwise (· < ·) := by
  rw [idsBetween, List.pairwise_map]
  refine List.Pairwise.imp_of_mem ?_ List.pairwise_lt_range
  intro a b ha hb hab
  rw [Int32.lt_iff_toInt_lt, toInt_idsBetween (List.mem_range.1 ha),
    toInt_idsBetween (List.mem_range.1 hb)]
  omega

theorem nodup_idsBetween (first last : Number) : (idsBetween first last).Nodup :=
  (ascending_idsBetween first last).imp Int32.ne_of_lt

/-- The values of the ids from one on; all ids behind them are blank. -/
structure Cells {α : Type} (blank : α) where
  values : Array α := #[]
  deriving DecidableEq

namespace Cells

variable {α : Type} {blank : α}

/-- The place of a positive id in the row. -/
def place (id : Number) : Nat := (id.toInt - 1).toNat

def get (c : Cells blank) (id : Number) : α :=
  if id.toInt ≤ 0 then blank else c.values.getD (place id) blank

@[simp] theorem get_empty (id : Number) : ({} : Cells blank).get id = blank := by
  unfold get
  split <;> rfl

/-- The row with at least so many cells, the new ones blank. -/
def grow (c : Cells blank) (size : Nat) : Cells blank :=
  ⟨c.values ++ Array.replicate (size - c.values.size) blank⟩

theorem size_grow (c : Cells blank) (size : Nat) :
    (c.grow size).values.size = max c.values.size size := by
  simp only [grow, Array.size_append, Array.size_replicate]
  omega

/-- Writes a value under an id. -/
def write [DecidableEq α] (c : Cells blank) (id : Number) (value : α) : Cells blank :=
  if id.toInt ≤ 0 then c
  else if c.values.size ≤ place id ∧ value = blank then c
  else ⟨(c.grow (place id + 1)).values.set (place id) value (by rw [size_grow]; omega)⟩

theorem getD_grow (c : Cells blank) (size i : Nat) :
    (c.grow size).values.getD i blank = c.values.getD i blank := by
  simp only [grow, Array.getD_eq_getD_getElem?, Array.getElem?_append, Array.getElem?_replicate]
  split
  · rfl
  · next h =>
    rw [Array.getElem?_eq_none (Nat.le_of_not_lt h)]
    split <;> rfl

theorem place_inj {id j : Number} (hid : 0 < id.toInt) (hj : 0 < j.toInt) :
    place id = place j ↔ j = id := by
  rw [← Int32.toInt_inj]
  unfold place
  omega

theorem get_write [DecidableEq α] (c : Cells blank) (id j : Number) (value : α) :
    (c.write id value).get j = if j = id ∧ 0 < id.toInt then value else c.get j := by
  by_cases hid : id.toInt ≤ 0
  · rw [write, if_pos hid, if_neg fun h => absurd h.2 (by omega)]
  have hid' : 0 < id.toInt := by omega
  by_cases hj : j.toInt ≤ 0
  · have hne : ¬ (j = id ∧ 0 < id.toInt) := by
      rintro ⟨rfl, -⟩
      omega
    rw [if_neg hne, get, get, if_pos hj, if_pos hj]
  rw [get, get, write, if_neg hid, if_neg hj, if_neg hj]
  simp only [hid', and_true, ← place_inj hid' (Int.lt_of_not_ge hj)]
  split
  · next hblank =>
    obtain ⟨hend, rfl⟩ := hblank
    split
    · next h => rw [← h, Array.getD_eq_getD_getElem?, Array.getElem?_eq_none hend, Option.getD_none]
    · rfl
  · rw [Array.getD_eq_getD_getElem?, Array.getElem?_set]
    split
    · rfl
    · rw [← Array.getD_eq_getD_getElem?, getD_grow]

end Cells

/-- Ids of a range are amended one after the other, where amending an id changes what is read there
if it is positive, and nothing else. What is kept may decide how. -/
theorem get_foldl_idsBetween {σ α : Type} {get : σ → Number → α} {amend : σ → Number → σ}
    (new : α → α) (Kept : σ → Prop) (hkept : ∀ s id, Kept s → Kept (amend s id))
    (hamend : ∀ s id j, Kept s →
      get (amend s id) j = if j = id ∧ 0 < id.toInt then new (get s j) else get s j)
    (first last j : Number) {s : σ} (hs : Kept s) :
    get ((idsBetween first last).foldl amend s) j =
      if (first ≤ j ∧ j ≤ last) ∧ 0 < j.toInt then new (get s j) else get s j := by
  have hall (ids : List Number) (hids : ids.Nodup) (s : σ) (hs : Kept s) :
      get (ids.foldl amend s) j =
        if j ∈ ids ∧ 0 < j.toInt then new (get s j) else get s j := by
    induction ids generalizing s with
    | nil => simp
    | cons id ids ih =>
      obtain ⟨hid, hids⟩ := List.nodup_cons.1 hids
      rw [List.foldl_cons, ih hids _ (hkept s id hs), hamend s id j hs]
      by_cases hj : j = id
      · subst hj
        simp [hid]
      · simp [hj]
  simp only [hall _ (nodup_idsBetween first last) s hs, mem_idsBetween]

end EventScript
