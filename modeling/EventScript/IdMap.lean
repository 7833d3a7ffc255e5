import EventScript.Checked

/-!
# Records by id

An `IdMap` holds at most one record per id, in ascending order of the ids. Two maps that hold
the same records under the same ids are equal, whatever the order in which they were filled.

* `IdMap.get?_insert` and `IdMap.get?_erase`: a write changes what is read at its own id only.
* `IdMap.ext_get?`: a map is determined by what it holds at each id.
* `IdSet` is the map that records presence alone.
-/

namespace EventScript

/-- Records under distinct ids, in ascending order of the ids. -/
structure IdMap (α : Type) where
  entries : List (Number × α)
  sorted : entries.Pairwise (fun a b => a.1 < b.1)

namespace IdMap

variable {α β : Type}

instance [DecidableEq α] : DecidableEq (IdMap α) := fun a b =>
  decidable_of_iff (a.entries = b.entries) (by cases a; cases b; simp)

/-- The map that holds nothing. -/
def empty : IdMap α := ⟨[], List.Pairwise.nil⟩

instance : EmptyCollection (IdMap α) := ⟨empty⟩

instance : Inhabited (IdMap α) := ⟨empty⟩

/-! ## Lists in ascending order -/

/-- The record under an id. -/
def lookup (k : Number) : List (Number × α) → Option α
  | [] => none
  | (k', v) :: r => if k' = k then some v else lookup k r

/-- Puts a record in its place and drops the one that stood under its id. -/
def place (k : Number) (v : α) : List (Number × α) → List (Number × α)
  | [] => [(k, v)]
  | (k', v') :: r =>
    if k < k' then (k, v) :: (k', v') :: r
    else if k = k' then (k, v) :: r
    else (k', v') :: place k v r

theorem mem_place {k : Number} {v : α} {l : List (Number × α)} {e : Number × α}
    (h : e ∈ place k v l) : e = (k, v) ∨ e ∈ l := by
  induction l with
  | nil => simpa [place] using h
  | cons a r ih =>
    unfold place at h
    split at h
    · simpa using h
    · split at h
      · simp only [List.mem_cons] at h ⊢
        exact h.imp_right Or.inr
      · simp only [List.mem_cons] at h ⊢
        rcases h with h | h
        · exact .inr (.inl h)
        · exact (ih h).imp_right Or.inr

theorem lt_of_not_lt {a b : Number} (h : ¬ a < b) (h' : a ≠ b) : b < a := by
  rw [Int32.lt_iff_toInt_lt] at h ⊢
  have : a.toInt ≠ b.toInt := fun e => h' (Int32.toInt_inj.1 e)
  omega

theorem sorted_place (k : Number) (v : α) {l : List (Number × α)}
    (h : l.Pairwise (fun a b => a.1 < b.1)) : (place k v l).Pairwise (fun a b => a.1 < b.1) := by
  induction l with
  | nil => simp [place]
  | cons a r ih =>
    have hr := List.pairwise_cons.1 h
    unfold place
    split
    · next hlt =>
      refine List.pairwise_cons.2 ⟨fun e he => ?_, h⟩
      rcases List.mem_cons.1 he with rfl | he
      · exact hlt
      · exact Int32.lt_trans hlt (hr.1 e he)
    · next hlt =>
      split
      · next heq =>
        subst heq
        exact List.pairwise_cons.2 ⟨hr.1, hr.2⟩
      · next hne =>
        refine List.pairwise_cons.2 ⟨fun e he => ?_, ih hr.2⟩
        rcases mem_place he with rfl | he
        · exact lt_of_not_lt hlt hne
        · exact hr.1 e he

theorem lookup_place (k j : Number) (v : α) (l : List (Number × α)) :
    lookup j (place k v l) = if j = k then some v else lookup j l := by
  induction l with
  | nil => simp [place, lookup, eq_comm]
  | cons a r ih =>
    unfold place
    split
    · simp [lookup, eq_comm]
    · split
      · next h =>
        subst h
        by_cases hj : a.1 = j
        · simp [lookup, hj]
        · simp [lookup, hj, Ne.symm hj]
      · next h => by_cases hj : a.1 = j <;> simp_all [lookup, eq_comm]

theorem lookup_filter (p : Number → Bool) (j : Number) (l : List (Number × α)) :
    lookup j (l.filter fun e => p e.1) = if p j then lookup j l else none := by
  induction l with
  | nil => simp [lookup]
  | cons a r ih =>
    by_cases hp : p a.1 <;> by_cases hj : a.1 = j <;> simp_all [lookup]

theorem lookup_map (f : Number → α → β) (j : Number) (l : List (Number × α)) :
    lookup j (l.map fun e => (e.1, f e.1 e.2)) = (lookup j l).map (f j) := by
  induction l with
  | nil => rfl
  | cons a r ih => by_cases h : a.1 = j <;> simp_all [lookup]

theorem lookup_eq_none_of_lt {j : Number} {l : List (Number × α)}
    (h : ∀ e ∈ l, j < e.1) : lookup j l = none := by
  induction l with
  | nil => rfl
  | cons a r ih =>
    have ha := h a (by simp)
    have hne : a.1 ≠ j := fun e => Int32.lt_irrefl (e ▸ ha)
    simp [lookup, hne, ih fun e he => h e (by simp [he])]

theorem eq_of_lookup {l m : List (Number × α)} (hl : l.Pairwise (fun a b => a.1 < b.1))
    (hm : m.Pairwise (fun a b => a.1 < b.1)) (h : ∀ j, lookup j l = lookup j m) : l = m := by
  induction l generalizing m with
  | nil =>
    cases m with
    | nil => rfl
    | cons b s => have := h b.1; simp [lookup] at this
  | cons a r ih =>
    cases m with
    | nil => have := h a.1; simp [lookup] at this
    | cons b s =>
      have hl' := List.pairwise_cons.1 hl
      have hm' := List.pairwise_cons.1 hm
      have hab : a.1 = b.1 := by
        by_cases hlt : a.1 < b.1
        · have := h a.1
          rw [lookup_eq_none_of_lt (l := b :: s) ?_] at this
          · simp [lookup] at this
          · intro e he
            rcases List.mem_cons.1 he with rfl | he
            · exact hlt
            · exact Int32.lt_trans hlt (hm'.1 e he)
        · by_cases heq : a.1 = b.1
          · exact heq
          · have hgt := lt_of_not_lt hlt heq
            have := h b.1
            rw [lookup_eq_none_of_lt (l := a :: r) ?_] at this
            · simp [lookup] at this
            · intro e he
              rcases List.mem_cons.1 he with rfl | he
              · exact hgt
              · exact Int32.lt_trans hgt (hl'.1 e he)
      have hv : a.2 = b.2 := by
        have := h a.1
        simpa [lookup, hab] using this
      have hab' : a = b := Prod.ext hab hv
      subst hab'
      congr 1
      refine ih hl'.2 hm'.2 fun j => ?_
      by_cases hj : a.1 = j
      · subst hj
        rw [lookup_eq_none_of_lt hl'.1, lookup_eq_none_of_lt hm'.1]
      · have := h j
        simpa [lookup, hj] using this

theorem sorted_map (f : Number → α → β) {l : List (Number × α)}
    (h : l.Pairwise (fun a b => a.1 < b.1)) :
    (l.map fun e => (e.1, f e.1 e.2)).Pairwise (fun a b => a.1 < b.1) := by
  rw [List.pairwise_map]
  exact h

/-! ## Operations -/

/-- The record under an id. -/
def get? (m : IdMap α) (k : Number) : Option α := lookup k m.entries

/-- Whether an id has a record. -/
def contains (m : IdMap α) (k : Number) : Bool := (m.get? k).isSome

/-- Puts a record under an id, in place of the one that stood there. -/
def insert (m : IdMap α) (k : Number) (v : α) : IdMap α :=
  ⟨place k v m.entries, sorted_place k v m.sorted⟩

/-- Keeps the records whose id passes a test. -/
def keep (m : IdMap α) (p : Number → Bool) : IdMap α :=
  ⟨m.entries.filter fun e => p e.1, m.sorted.sublist List.filter_sublist⟩

/-- Drops the record under an id. -/
def erase (m : IdMap α) (k : Number) : IdMap α := m.keep (· ≠ k)

/-- Changes every record and keeps the ids. -/
def map (m : IdMap α) (f : α → β) : IdMap β :=
  ⟨m.entries.map fun e => (e.1, f e.2), sorted_map (fun _ v => f v) m.sorted⟩

/-- Changes the record under an id, if there is one. -/
def modify (m : IdMap α) (k : Number) (f : α → α) : IdMap α :=
  ⟨m.entries.map fun e => (e.1, if e.1 = k then f e.2 else e.2),
    sorted_map (fun i v => if i = k then f v else v) m.sorted⟩

/-- The ids, ascending. -/
def keys (m : IdMap α) : List Number := m.entries.map (·.1)

/-- The records in ascending order of their ids. -/
def values (m : IdMap α) : List α := m.entries.map (·.2)

/-- The map of a list of records; the last record under an id wins. -/
def ofList (l : List (Number × α)) : IdMap α :=
  l.foldl (fun m e => m.insert e.1 e.2) empty

theorem get?_insert (m : IdMap α) (k j : Number) (v : α) :
    (m.insert k v).get? j = if j = k then some v else m.get? j :=
  lookup_place k j v m.entries

theorem get?_keep (m : IdMap α) (p : Number → Bool) (j : Number) :
    (m.keep p).get? j = if p j then m.get? j else none :=
  lookup_filter p j m.entries

theorem get?_erase (m : IdMap α) (k j : Number) :
    (m.erase k).get? j = if j = k then none else m.get? j := by
  by_cases h : j = k <;> simp [erase, get?_keep, h]

theorem contains_insert (m : IdMap α) (k j : Number) (v : α) :
    (m.insert k v).contains j = (decide (j = k) || m.contains j) := by
  rw [contains, get?_insert]
  by_cases h : j = k <;> simp [h, contains]

theorem contains_erase (m : IdMap α) (k j : Number) :
    (m.erase k).contains j = (decide (j ≠ k) && m.contains j) := by
  rw [contains, get?_erase]
  by_cases h : j = k <;> simp [h, contains]

theorem get?_map (m : IdMap α) (f : α → β) (j : Number) :
    (m.map f).get? j = (m.get? j).map f :=
  lookup_map (fun _ => f) j m.entries

theorem get?_modify (m : IdMap α) (k j : Number) (f : α → α) :
    (m.modify k f).get? j = if j = k then (m.get? j).map f else m.get? j := by
  have := lookup_map (fun i v => if i = k then f v else v) j m.entries
  by_cases h : j = k
  · simpa [get?, modify, h] using this
  · simpa [get?, modify, h] using this

/-- Under an id of a list something is found in the map made of it. -/
theorem isSome_get?_ofList {l : List (Number × α)} {k : Number} {v : α}
    (h : (k, v) ∈ l) : ((ofList l).get? k).isSome = true := by
  have hfold (l : List (Number × α)) (m : IdMap α)
      (hk : (m.get? k).isSome = true ∨ ∃ v, (k, v) ∈ l) :
      ((l.foldl (fun m e => m.insert e.1 e.2) m).get? k).isSome = true := by
    induction l generalizing m with
    | nil => exact hk.resolve_right fun ⟨v, hv⟩ => nomatch hv
    | cons e l ih =>
      refine ih (m.insert e.1 e.2) ?_
      rw [get?_insert]
      by_cases hke : k = e.1
      · exact .inl (by rw [if_pos hke]; rfl)
      · rw [if_neg hke]
        refine hk.imp_right fun ⟨v, hv⟩ => ⟨v, (List.mem_cons.1 hv).resolve_left ?_⟩
        rintro rfl
        exact hke rfl
  exact hfold l .empty (.inr ⟨v, h⟩)

/-- What is found in a map made of a list stands in the list. -/
theorem mem_of_get?_ofList {l : List (Number × α)} {k : Number} {v : α}
    (h : (ofList l).get? k = some v) : (k, v) ∈ l := by
  have hfold (l : List (Number × α)) (m : IdMap α)
      (hk : (l.foldl (fun m e => m.insert e.1 e.2) m).get? k = some v) :
      m.get? k = some v ∨ (k, v) ∈ l := by
    induction l generalizing m with
    | nil => exact .inl hk
    | cons e l ih =>
      obtain hm | hl := ih _ hk
      · rw [get?_insert] at hm
        split at hm
        · next hke =>
          cases hm
          exact .inr (hke ▸ List.mem_cons_self)
        · exact .inl hm
      · exact .inr (List.mem_cons_of_mem _ hl)
  exact (hfold l .empty h).resolve_left nofun

theorem ext_get? {m n : IdMap α} (h : ∀ j, m.get? j = n.get? j) : m = n := by
  have := eq_of_lookup m.sorted n.sorted h
  cases m; cases n; simpa using this

theorem modify_of_some {m : IdMap α} {k : Number} {v : α} (f : α → α) (h : m.get? k = some v) :
    m.modify k f = m.insert k (f v) := by
  refine ext_get? fun j => ?_
  rw [get?_modify, get?_insert]
  by_cases hj : j = k <;> simp [hj, h]

theorem modify_of_none {m : IdMap α} {k : Number} (f : α → α) (h : m.get? k = none) :
    m.modify k f = m := by
  refine ext_get? fun j => ?_
  rw [get?_modify]
  by_cases hj : j = k <;> simp [hj, h]

end IdMap

abbrev IdSet := IdMap Unit

namespace IdSet

/-- Adds an id. -/
def add (s : IdSet) (k : Number) : IdSet := IdMap.insert s k ()

def ofIds (l : List Number) : IdSet := l.foldl add ∅

def single (k : Number) : IdSet := add ∅ k

theorem contains_add (s : IdSet) (k j : Number) :
    (s.add k).contains j = (decide (j = k) || s.contains j) :=
  IdMap.contains_insert s k j ()

theorem contains_single (k : Number) : (single k).contains k = true := by
  simp [single, contains_add]

end IdSet

end EventScript
