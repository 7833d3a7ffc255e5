import EventScript.Proofs.Straight
import Mathlib.Data.List.Chain
import Mathlib.Data.List.Perm.Subperm
import Mathlib.Data.Fintype.EquivFin
import Mathlib.Order.WellFounded

/-!
# Calls replaced by what they call

A call of a common event can be replaced by the commands of the event, and so on in these.

* `Database.Expands` relates a list of commands to the list without calls that comes of it, and
  tells how deep the calls are nested. There is at most one such list (`Expands.unique`).
* `Database.exists_expansion`: there is one where no event calls itself, directly or through others,
  and its calls are nested no deeper than there are common events (`Expands.nesting_le`).
-/

namespace EventScript

open Relation

/-- The common event that a command of the field calls. -/
def Command.commonCalled? (c : Command) : Option Number :=
  if c.opcode = .field .callEvent ∧ c.mode 0 = 0 then some (c.param 1) else none

/-- A list of straight commands and calls of common events. -/
def Plain (cs : List Command) : Prop :=
  ∀ c ∈ cs, c.isStraight = true ∨ c.commonCalled?.isSome = true

theorem Command.commonCalled?_of_straight {c : Command} (hc : c.isStraight = true) :
    c.commonCalled? = none := by
  unfold commonCalled?
  refine if_neg fun h => ?_
  unfold isStraight at hc
  rw [h.1] at hc
  cases hc

namespace Database

/-- One common event calls another. -/
def Calls (d : Database) (id id' : Number) : Prop :=
  ∃ e, d.commonEvent? id = some e ∧ ∃ c ∈ e.commands, c.commonCalled? = some id'

/-- A list without calls comes of a list of commands by replacing every call, in turn, by what comes
of the event that is called. A call of an event that is not known is replaced by nothing. The number
tells how deep calls are nested. -/
inductive Expands (d : Database) : List Command → List Command → Nat → Prop
  | nil : Expands d [] [] 0
  | straight {c : Command} {cs flat : List Command} {n : Nat} (hc : c.isStraight = true)
      (h : Expands d cs flat n) : Expands d (c :: cs) (c :: flat) n
  | call {c : Command} {cs inner flat : List Command} {id : Number} {e : CommonEvent} {m n : Nat}
      (hc : c.commonCalled? = some id) (he : d.commonEvent? id = some e)
      (hinner : Expands d e.commands inner m) (h : Expands d cs flat n) :
      Expands d (c :: cs) (inner ++ flat) (max (m + 1) n)
  | unknown {c : Command} {cs flat : List Command} {id : Number} {n : Nat}
      (hc : c.commonCalled? = some id) (he : d.commonEvent? id = none) (h : Expands d cs flat n) :
      Expands d (c :: cs) flat n

variable {d : Database} {cs flat flat' : List Command} {n n' : Nat}

/-- At most one list comes of a list. -/
theorem Expands.unique (h : d.Expands cs flat n) (h' : d.Expands cs flat' n') :
    flat' = flat ∧ n' = n := by
  induction h generalizing flat' n' with
  | nil =>
    cases h'
    exact ⟨rfl, rfl⟩
  | straight hc _ ih =>
    have hnone := Command.commonCalled?_of_straight hc
    cases h' with
    | straight _ h' =>
      obtain ⟨rfl, rfl⟩ := ih h'
      exact ⟨rfl, rfl⟩
    | call hc' | unknown hc' => rw [hnone] at hc'; cases hc'
  | call hc he _ _ ihinner ih =>
    cases h' with
    | straight hc' => rw [Command.commonCalled?_of_straight hc'] at hc; cases hc
    | call hc' he' hinner' h' =>
      rw [hc] at hc'
      cases hc'
      rw [he] at he'
      cases he'
      obtain ⟨rfl, rfl⟩ := ihinner hinner'
      obtain ⟨rfl, rfl⟩ := ih h'
      exact ⟨rfl, rfl⟩
    | unknown hc' he' =>
      rw [hc] at hc'
      cases hc'
      rw [he] at he'
      cases he'
  | unknown hc he _ ih =>
    cases h' with
    | straight hc' => rw [Command.commonCalled?_of_straight hc'] at hc; cases hc
    | call hc' he' =>
      rw [hc] at hc'
      cases hc'
      rw [he] at he'
      cases he'
    | unknown _ _ h' => exact ih h'

/-- What comes of a list is straight. -/
theorem Expands.straight_of_mem (h : d.Expands cs flat n) : ∀ c ∈ flat, c.isStraight = true := by
  induction h with
  | nil => exact List.forall_mem_nil _
  | straight hc _ ih => exact List.forall_mem_cons.2 ⟨hc, ih⟩
  | call _ _ _ _ ihinner ih => exact List.forall_mem_append.2 ⟨ihinner, ih⟩
  | unknown _ _ _ ih => exact ih

/-- A straight list comes of itself. -/
theorem expands_of_straight (h : ∀ c ∈ cs, c.isStraight = true) : d.Expands cs cs 0 := by
  induction cs with
  | nil => exact .nil
  | cons c cs ih =>
    obtain ⟨hc, hcs⟩ := List.forall_mem_cons.1 h
    exact .straight hc (ih hcs)

/-! ## Calls without cycles -/

/-- All common events have plain lists, and none of them calls itself, directly or through
others. -/
structure CallsTree (d : Database) : Prop where
  plain : ∀ e ∈ d.commonEvents, Plain e.commands
  acyclic : ∀ id, ¬ TransGen d.Calls id id

theorem CallsTree.plain_commands (hd : d.CallsTree) {id : Number} {e : CommonEvent}
    (he : d.commonEvent? id = some e) : Plain e.commands :=
  hd.plain e (List.mem_of_find?_eq_some he)

instance : Finite Number :=
  .of_injective (fun id => id.toBitVec.toFin) fun _ _ h =>
    Int32.toBitVec_inj.1 (BitVec.eq_of_toFin_eq h)

/-- There are only so many ids, so calls come to an end. -/
theorem CallsTree.wellFounded (hd : d.CallsTree) : WellFounded fun id' id => d.Calls id id' := by
  let later (id' id : Number) : Prop := TransGen d.Calls id id'
  have htrans : IsTrans Number later := ⟨fun _ _ _ h h' => h'.trans h⟩
  have hirrefl : Std.Irrefl later := ⟨hd.acyclic⟩
  exact Subrelation.wf (fun h => TransGen.single h) (Finite.wellFounded_of_trans_of_irrefl later)

/-- A plain list can be expanded if every event that it calls can. -/
theorem exists_expansion_of_events (hcs : Plain cs)
    (hevents : ∀ c ∈ cs, ∀ id e, c.commonCalled? = some id → d.commonEvent? id = some e →
      ∃ inner m, d.Expands e.commands inner m) : ∃ flat n, d.Expands cs flat n := by
  induction cs with
  | nil => exact ⟨[], 0, .nil⟩
  | cons c cs ih =>
    obtain ⟨hc, hcs⟩ := List.forall_mem_cons.1 hcs
    obtain ⟨hevent, hevents⟩ := List.forall_mem_cons.1 hevents
    obtain ⟨flat, n, hflat⟩ := ih hcs hevents
    rcases hc with hstraight | hcall
    · exact ⟨c :: flat, n, .straight hstraight hflat⟩
    · obtain ⟨id, hid⟩ := Option.isSome_iff_exists.1 hcall
      cases he : d.commonEvent? id with
      | none => exact ⟨flat, n, .unknown hid he hflat⟩
      | some e =>
        obtain ⟨inner, m, hinner⟩ := hevent id e hid he
        exact ⟨inner ++ flat, max (m + 1) n, .call hid he hinner hflat⟩

/-- Where no event calls itself, a list without calls comes of every plain list. -/
theorem CallsTree.exists_expansion (hd : d.CallsTree) (hcs : Plain cs) :
    ∃ flat n, d.Expands cs flat n := by
  have hevent (id : Number) : ∀ e, d.commonEvent? id = some e →
      ∃ inner m, d.Expands e.commands inner m := by
    induction id using hd.wellFounded.induction with
    | _ id ih =>
      intro e he
      refine exists_expansion_of_events (hd.plain_commands he) fun c hc id' e' hid' he' => ?_
      exact ih id' ⟨e, he, c, hc, hid'⟩ e' he'
  exact exists_expansion_of_events hcs fun _ _ id e _ he => hevent id e he

/-! ## How deep calls are nested -/

/-- The calls that are nested deepest are calls of events each of which calls the next. -/
theorem Expands.exists_chain (h : d.Expands cs flat n) : ∃ ids : List Number, ids.length = n ∧
    ids.IsChain d.Calls ∧ (∀ id ∈ ids, (d.commonEvent? id).isSome = true) ∧
    ∀ id ∈ ids.head?, ∃ c ∈ cs, c.commonCalled? = some id := by
  induction h with
  | nil => exact ⟨[], rfl, .nil, List.forall_mem_nil _, nofun⟩
  | straight _ _ ih | unknown _ _ _ ih =>
    obtain ⟨ids, hlength, hchain, hknown, hhead⟩ := ih
    refine ⟨ids, hlength, hchain, hknown, fun id hid => ?_⟩
    obtain ⟨c, hc, hcall⟩ := hhead id hid
    exact ⟨c, List.mem_cons_of_mem _ hc, hcall⟩
  | @call c cs inner flat id e m n hc he _ _ ihinner ih =>
    by_cases hdeep : m + 1 ≤ n
    · obtain ⟨ids, hlength, hchain, hknown, hhead⟩ := ih
      refine ⟨ids, by omega, hchain, hknown, fun id hid => ?_⟩
      obtain ⟨c, hc, hcall⟩ := hhead id hid
      exact ⟨c, List.mem_cons_of_mem _ hc, hcall⟩
    · obtain ⟨ids, hlength, hchain, hknown, hhead⟩ := ihinner
      refine ⟨id :: ids, by rw [List.length_cons]; omega, ?_, ?_, ?_⟩
      · exact List.isChain_cons.2 ⟨fun id' hid' => ⟨e, he, hhead id' hid'⟩, hchain⟩
      · exact List.forall_mem_cons.2 ⟨by rw [he]; rfl, hknown⟩
      · rintro id' hid'
        cases hid'
        exact ⟨c, List.mem_cons_self, hc⟩

/-- Calls are nested no deeper than there are common events. -/
theorem Expands.nesting_le (hd : d.CallsTree) (h : d.Expands cs flat n) :
    n ≤ d.commonEvents.length := by
  obtain ⟨ids, rfl, hchain, hknown, -⟩ := h.exists_chain
  have hpairs : ids.Pairwise (TransGen d.Calls) :=
    List.isChain_iff_pairwise.1 (hchain.imp fun _ _ => TransGen.single)
  have hdistinct : ids.Nodup := by
    refine hpairs.imp fun hcalls hsame => ?_
    subst hsame
    exact hd.acyclic _ hcalls
  have hmem : ids ⊆ d.commonEvents.map (·.id) := by
    intro id hid
    obtain ⟨e, he⟩ := Option.isSome_iff_exists.1 (hknown id hid)
    have hsame : e.id = id := by
      unfold commonEvent? at he
      simpa using List.find?_some he
    exact List.mem_map.2 ⟨e, List.mem_of_find?_eq_some he, hsame⟩
  simpa using hdistinct.length_le_of_subset hmem

end Database

end EventScript
