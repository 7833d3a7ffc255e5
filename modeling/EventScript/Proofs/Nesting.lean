import EventScript.Blocks
import Mathlib.Tactic.ByContra

/-!
# Well-nested lists

Indents and codes alone say which commands of a list belong together. A list is well-nested if they
say so for all of them.

* `BlockKind` lists the kinds of blocks, with the operations that open, divide and close one.
* `Blocks.Nested` builds the well-nested lists: a body stands one deeper than the commands around
  it.
* `Blocks.HasBlock` tells from the places alone where a block begins and ends. In a well-nested list
  every command that has to open a block does (`Nested.exists_block`), and every command that
  divides or closes one stands in one (`Nested.enclosed`).
* `HasBlock.deeper`: a block that begins in another ends in it, and is deeper.
-/

namespace EventScript

/-! ## Kinds of blocks -/

inductive BlockKind
  | loop
  | branch
  | battleBranch
  | choice
  | shop
  | inn
  | battle
  deriving DecidableEq

namespace BlockKind

def all : List BlockKind := [loop, branch, battleBranch, choice, shop, inn, battle]

theorem mem_all (k : BlockKind) : k ∈ all := by cases k <;> decide

/-- The operation that opens a block. -/
def opener : BlockKind → Opcode
  | loop => .shared .loop
  | branch => .field .branch
  | battleBranch => .battle .branch
  | choice => .shared .showChoice
  | shop => .field .openShop
  | inn => .field .showInn
  | battle => .field .enemyEncounter

/-- The operations that begin a further section of a block. -/
def markers : BlockKind → List Opcode
  | loop => []
  | branch => [.field .elseBranch]
  | battleBranch => [.battle .elseBranch]
  | choice => [.shared .showChoiceOption]
  | shop => [.field .transaction, .field .noTransaction]
  | inn => [.field .stay, .field .noStay]
  | battle => [.field .victoryHandler, .field .escapeHandler, .field .defeatHandler]

/-- The operation that closes a block. -/
def closer : BlockKind → Opcode
  | loop => .shared .endLoop
  | branch => .field .endBranch
  | battleBranch => .battle .endBranch
  | choice => .shared .showChoiceEnd
  | shop => .field .endShop
  | inn => .field .endInn
  | battle => .field .endBattle

/-- Whether the commands right behind the one that opens a block are a section. -/
def startsAtOnce : BlockKind → Bool
  | loop | branch | battleBranch => true
  | choice | shop | inn | battle => false

/-- Whether the operation that opens a block can also do without one. -/
def isOptional : BlockKind → Bool
  | shop | inn | battle => true
  | loop | branch | battleBranch | choice => false

variable {k k' : BlockKind} {op : Opcode}

theorem opener_injective (h : k.opener = k'.opener) : k = k' := by
  cases k <;> cases k' <;> first | rfl | cases h

theorem closer_injective (h : k.closer = k'.closer) : k = k' := by
  cases k <;> cases k' <;> first | rfl | cases h

theorem opener_not_mem_markers (k k' : BlockKind) : k.opener ∉ k'.markers := by
  cases k <;> cases k' <;> decide

theorem opener_ne_closer (k k' : BlockKind) : k.opener ≠ k'.closer := by
  cases k <;> cases k' <;> decide

theorem closer_not_mem_markers (k k' : BlockKind) : k.closer ∉ k'.markers := by
  cases k <;> cases k' <;> decide

theorem eq_of_mem_markers (h : op ∈ k.markers) (h' : op ∈ k'.markers) : k = k' := by
  have hkinds : ∀ op ∈ k.markers, op ∈ k'.markers → k = k' := by
    cases k <;> cases k' <;> decide
  exact hkinds op h h'

/-- Whether an operation divides or closes a block. -/
def Delimits (k : BlockKind) (op : Opcode) : Prop := op ∈ k.markers ∨ op = k.closer

instance (k : BlockKind) (op : Opcode) : Decidable (k.Delimits op) :=
  inferInstanceAs (Decidable (_ ∨ _))

theorem not_delimits_opener (k k' : BlockKind) : ¬ k.Delimits k'.opener := by
  rintro (h | h)
  · exact opener_not_mem_markers k' k h
  · exact opener_ne_closer k' k h

theorem Delimits.eq (h : k.Delimits op) (h' : k'.Delimits op) : k = k' := by
  rcases h with h | rfl <;> rcases h' with h' | h'
  · exact eq_of_mem_markers h h'
  · exact absurd h (h' ▸ closer_not_mem_markers k' k)
  · exact absurd h' (closer_not_mem_markers k k')
  · exact closer_injective h'

end BlockKind

namespace Command

variable {c : Command} {op : Opcode}

theorem code_eq_of_opcode (h : c.opcode = op) : c.code = op.code := by
  rw [← h]
  exact (Opcode.code_ofCode c.code).symm

theorem opcode_eq_of_code (hop : Opcode.ofCode op.code = op) (h : c.code = op.code) :
    c.opcode = op := by
  rw [opcode, h, hop]

end Command

/-- A command that neither has to open a block nor divides or closes one. -/
structure Command.Plain (c : Command) : Prop where
  opens : ∀ k : BlockKind, c.opcode = k.opener → k.isOptional = true
  delimits : ∀ k : BlockKind, ¬ k.Delimits c.opcode

instance (c : Command) : Decidable c.Plain :=
  decidable_of_iff (∀ k ∈ BlockKind.all, (c.opcode = k.opener → k.isOptional = true) ∧
      ¬ k.Delimits c.opcode)
    ⟨fun h => ⟨fun k => (h k k.mem_all).1, fun k => (h k k.mem_all).2⟩,
      fun h k _ => ⟨h.opens k, h.delimits k⟩⟩

namespace Blocks

variable {cs : List Command} {k k' : BlockKind} {n n' a b a' b' i : Nat} {c : Command}

/-! ## Building the lists -/

/-- The well-nested lists at a depth. Where a block is open at that depth, its next section or its
end comes first. -/
inductive Nested : Nat → Option BlockKind → List Command → Prop
  | nil {n : Nat} : Nested n none []
  | plain {n : Nat} {c : Command} {cs : List Command} (hc : c.Plain) (hn : c.indent.toInt = n)
      (rest : Nested n none cs) : Nested n none (c :: cs)
  | opens {n : Nat} {k : BlockKind} {c : Command} {body cs : List Command}
      (hc : c.opcode = k.opener) (hn : c.indent.toInt = n) (inner : Nested (n + 1) none body)
      (hstart : k.startsAtOnce = false → body = []) (rest : Nested n (some k) cs) :
      Nested n none (c :: (body ++ cs))
  | marks {n : Nat} {k : BlockKind} {c : Command} {body cs : List Command}
      (hc : c.opcode ∈ k.markers) (hn : c.indent.toInt = n) (inner : Nested (n + 1) none body)
      (rest : Nested n (some k) cs) : Nested n (some k) (c :: (body ++ cs))
  | closes {n : Nat} {k : BlockKind} {c : Command} {cs : List Command}
      (hc : c.opcode = k.closer) (hn : c.indent.toInt = n) (rest : Nested n none cs) :
      Nested n (some k) (c :: cs)

/-- A list in which every block has its end, and bodies stand one deeper. -/
def WellNested (cs : List Command) : Prop := Nested 0 none cs

theorem Nested.le_indent {o : Option BlockKind} (h : Nested n o cs) :
    ∀ c ∈ cs, (n : Int) ≤ c.indent.toInt := by
  induction h with
  | nil => exact nofun
  | plain _ hn _ ih | closes _ hn _ ih => exact List.forall_mem_cons.2 ⟨Int.le_of_eq hn.symm, ih⟩
  | opens _ hn _ _ _ ih ih' | marks _ hn _ _ ih ih' =>
    refine List.forall_mem_cons.2 ⟨Int.le_of_eq hn.symm, ?_⟩
    refine List.forall_mem_append.2 ⟨fun x hx => ?_, ih'⟩
    have hdeep := ih x hx
    omega

theorem Nested.indent_head {o : Option BlockKind} (h : Nested n o cs) (hc : cs[0]? = some c) :
    c.indent.toInt = n := by
  cases h with
  | nil => cases hc
  | plain _ hn | opens _ hn | marks _ hn | closes _ hn =>
    cases hc
    exact hn

section

variable {body : List Command} {d x : Command}

theorem getElem?_body (hi : i < body.length) : (d :: (body ++ cs))[i + 1]? = body[i]? := by
  rw [List.getElem?_cons_succ, List.getElem?_append_left hi]

theorem getElem?_rest (i : Nat) : (d :: (body ++ cs))[body.length + i + 1]? = cs[i]? := by
  rw [List.getElem?_cons_succ, List.getElem?_append_right (Nat.le_add_right _ _),
    Nat.add_sub_cancel_left]

/-- Where a place in a command, a body and what comes after it lies. -/
theorem getElem?_cons_append (h : (d :: (body ++ cs))[i]? = some x) :
    i = 0 ∧ x = d ∨ (∃ j, i = j + 1 ∧ body[j]? = some x) ∨
      ∃ j, i = body.length + j + 1 ∧ cs[j]? = some x := by
  cases i with
  | zero =>
    cases h
    exact .inl ⟨rfl, rfl⟩
  | succ i =>
    by_cases hlt : i < body.length
    · exact .inr (.inl ⟨i, rfl, (getElem?_body hlt).symm.trans h⟩)
    · obtain ⟨j, rfl⟩ := Nat.exists_eq_add_of_le (Nat.le_of_not_lt hlt)
      exact .inr (.inr ⟨j, rfl, (getElem?_rest j).symm.trans h⟩)

/-- Behind the last command of a body the list goes on less deep. -/
theorem Nested.getElem?_next {o : Option BlockKind} (inner : Nested (n + 1) none body)
    (rest : Nested n o cs) (hc : body[i]? = some c) (hx : (d :: (body ++ cs))[i + 1 + 1]? = some x)
    (hdeep : c.indent.toInt < x.indent.toInt) : body[i + 1]? = some x := by
  have hi : i < body.length := (List.getElem?_eq_some_iff.1 hc).1
  by_cases hlt : i + 1 < body.length
  · rwa [getElem?_body hlt] at hx
  · have hend : i + 1 = body.length := by omega
    rw [hend] at hx
    have hrest := rest.indent_head ((getElem?_rest 0).symm.trans hx)
    have hbody := inner.le_indent c (List.mem_of_getElem? hc)
    omega

end

/-- Whether a section begins behind a command. -/
def BeginsSection (c : Command) : Prop :=
  ∃ k : BlockKind, c.opcode ∈ k.markers ∨ c.opcode = k.opener ∧ k.startsAtOnce = true

/-- Only where a section begins, the list goes on deeper. -/
theorem Nested.beginsSection_of_deeper {o : Option BlockKind} {x : Command} (h : Nested n o cs)
    (hc : cs[i]? = some c) (hx : cs[i + 1]? = some x)
    (hdeep : c.indent.toInt < x.indent.toInt) : BeginsSection c := by
  induction h generalizing i with
  | nil => cases hc
  | plain _ hn rest ih | closes _ hn rest ih =>
    cases i with
    | zero =>
      cases hc
      have hsame := rest.indent_head hx
      omega
    | succ i => exact ih hc hx
  | @opens n k d body cs hd hn inner hstart rest ih ih' =>
    rcases getElem?_cons_append hc with ⟨rfl, rfl⟩ | ⟨j, rfl, hj⟩ | ⟨j, rfl, hj⟩
    · refine ⟨k, .inr ⟨hd, ?_⟩⟩
      by_contra hlate
      cases hstart (Bool.eq_false_iff.2 hlate)
      have hsame := rest.indent_head hx
      omega
    · exact ih hj (inner.getElem?_next rest hj hx hdeep)
    · exact ih' hj ((getElem?_rest (j + 1)).symm.trans hx)
  | @marks n k d body cs hd hn inner rest ih ih' =>
    rcases getElem?_cons_append hc with ⟨rfl, rfl⟩ | ⟨j, rfl, hj⟩ | ⟨j, rfl, hj⟩
    · exact ⟨k, .inl hd⟩
    · exact ih hj (inner.getElem?_next rest hj hx hdeep)
    · exact ih' hj ((getElem?_rest (j + 1)).symm.trans hx)

/-! ## Finding the blocks -/

/-- What can stand in a block of a kind at a depth: deeper commands, and those that begin a further
section. -/
def Within (k : BlockKind) (n : Nat) (c : Command) : Prop :=
  n < c.indent.toInt ∨ c.indent.toInt = n ∧ c.opcode ∈ k.markers

instance (k : BlockKind) (n : Nat) (c : Command) : Decidable (Within k n c) :=
  inferInstanceAs (Decidable (_ ∨ _))

/-- A block of a kind at a depth, from the command that opens it to the one that closes it. -/
structure HasBlock (cs : List Command) (k : BlockKind) (n a b : Nat) : Prop where
  opens : ∃ c, cs[a]? = some c ∧ c.indent.toInt = n ∧ c.opcode = k.opener
  closes : ∃ c, cs[b]? = some c ∧ c.indent.toInt = n ∧ c.opcode = k.closer
  lt : a < b
  inside : ∀ i c, a < i → i < b → cs[i]? = some c → Within k n c

/-- Whether there is a block at two places can be computed. -/
instance (cs : List Command) (k : BlockKind) (n a b : Nat) : Decidable (HasBlock cs k n a b) :=
  decidable_of_iff ((∃ c ∈ cs[a]?, c.indent.toInt = n ∧ c.opcode = k.opener) ∧
      (∃ c ∈ cs[b]?, c.indent.toInt = n ∧ c.opcode = k.closer) ∧ a < b ∧
      ∀ i < b, a < i → ∀ c ∈ cs[i]?, Within k n c)
    ⟨fun ⟨hopens, hcloses, hlt, hin⟩ => ⟨hopens, hcloses, hlt, fun i c ha hb => hin i hb ha c⟩,
      fun h => ⟨h.opens, h.closes, h.lt, fun i hb ha c => h.inside i c ha hb⟩⟩

/-- A list that begins inside a block of a kind at a depth, up to the command that closes it. -/
structure EndsAt (cs : List Command) (k : BlockKind) (n b : Nat) : Prop where
  closes : ∃ c, cs[b]? = some c ∧ c.indent.toInt = n ∧ c.opcode = k.closer
  inside : ∀ i c, i < b → cs[i]? = some c → Within k n c

theorem Nested.within {body : List Command} (h : Nested (n + 1) none body) (k : BlockKind) :
    ∀ c ∈ body, Within k n c := by
  intro c hc
  have hdeep := h.le_indent c hc
  exact .inl (by omega)

theorem HasBlock.prepend (before : List Command) (h : HasBlock cs k n a b) :
    HasBlock (before ++ cs) k n (before.length + a) (before.length + b) := by
  have hget (i : Nat) : (before ++ cs)[before.length + i]? = cs[i]? := by
    rw [List.getElem?_append_right (Nat.le_add_right _ _), Nat.add_sub_cancel_left]
  refine ⟨?_, ?_, Nat.add_lt_add_left h.lt _, fun i c ha hb hc => ?_⟩
  · rw [hget]; exact h.opens
  · rw [hget]; exact h.closes
  · have hle : before.length ≤ i := by omega
    obtain ⟨j, rfl⟩ := Nat.exists_eq_add_of_le hle
    rw [hget] at hc
    exact h.inside j c (by omega) (by omega) hc

theorem HasBlock.lt_length (h : HasBlock cs k n a b) : b < cs.length := by
  obtain ⟨e, he, -⟩ := h.closes
  exact (List.getElem?_eq_some_iff.1 he).1

theorem HasBlock.append (h : HasBlock cs k n a b) (after : List Command) :
    HasBlock (cs ++ after) k n a b := by
  have hlength := h.lt_length
  have hget {i : Nat} (hi : i ≤ b) : (cs ++ after)[i]? = cs[i]? :=
    List.getElem?_append_left (by omega)
  refine ⟨?_, ?_, h.lt, fun i c ha hb hc => h.inside i c ha hb (hget (Nat.le_of_lt hb) ▸ hc)⟩
  · rw [hget (Nat.le_of_lt h.lt)]; exact h.opens
  · rw [hget (Nat.le_refl b)]; exact h.closes

theorem HasBlock.cons (h : HasBlock cs k n a b) (c : Command) :
    HasBlock (c :: cs) k n (a + 1) (b + 1) := by
  have hcons := h.prepend [c]
  rwa [List.length_singleton, Nat.add_comm 1 a, Nat.add_comm 1 b] at hcons

/-- A block in the body behind a command. -/
theorem HasBlock.body (h : HasBlock cs k n a b) (c : Command) (rest : List Command) :
    HasBlock (c :: (cs ++ rest)) k n (a + 1) (b + 1) :=
  (h.append rest).cons c

/-- A block in what comes after the body behind a command. -/
theorem HasBlock.rest (h : HasBlock cs k n a b) (c : Command) (body : List Command) :
    HasBlock (c :: (body ++ cs)) k n (body.length + a + 1) (body.length + b + 1) :=
  (h.prepend body).cons c

theorem EndsAt.body {body : List Command} (h : EndsAt cs k n b) (hbody : ∀ c ∈ body, Within k n c) :
    EndsAt (body ++ cs) k n (body.length + b) := by
  refine ⟨?_, fun i c hi hc => ?_⟩
  · rw [List.getElem?_append_right (Nat.le_add_right _ _), Nat.add_sub_cancel_left]
    exact h.closes
  · by_cases hlt : i < body.length
    · rw [List.getElem?_append_left hlt] at hc
      exact hbody c (List.mem_of_getElem? hc)
    · rw [List.getElem?_append_right (Nat.le_of_not_lt hlt)] at hc
      exact h.inside _ c (by omega) hc

theorem EndsAt.cons (h : EndsAt cs k n b) (hc : Within k n c) : EndsAt (c :: cs) k n (b + 1) := by
  have hcons : EndsAt ([c] ++ cs) k n ([c].length + b) := h.body (List.forall_mem_singleton.2 hc)
  rwa [List.length_singleton, Nat.add_comm 1 b] at hcons

/-- The command before completes the block. -/
theorem EndsAt.hasBlock (h : EndsAt cs k n b) (hn : c.indent.toInt = n)
    (hc : c.opcode = k.opener) : HasBlock (c :: cs) k n 0 (b + 1) := by
  refine ⟨⟨c, rfl, hn, hc⟩, h.closes, Nat.succ_pos b, fun i x ha hb hx => ?_⟩
  cases i with
  | zero => exact absurd ha (Nat.lt_irrefl 0)
  | succ i => exact h.inside i x (by omega) hx

/-- A block that is open is closed. -/
theorem Nested.exists_end (h : Nested n (some k) cs) : ∃ b, EndsAt cs k n b := by
  generalize ho : some k = o at h
  induction h with
  | nil | plain | opens => cases ho
  | marks hc hn inner _ _ ih =>
    cases ho
    obtain ⟨b, hb⟩ := ih rfl
    exact ⟨_, (hb.body (inner.within k)).cons (.inr ⟨hn, hc⟩)⟩
  | closes hc hn _ _ =>
    cases ho
    exact ⟨0, ⟨_, rfl, hn, hc⟩, fun i _ hi => absurd hi (Nat.not_lt_zero i)⟩

/-- A command that has to open a block does. -/
theorem Nested.exists_block {o : Option BlockKind} (h : Nested n o cs) (hc : cs[i]? = some c)
    (hopens : c.opcode = k.opener) (hk : k.isOptional = false) :
    ∃ m b, HasBlock cs k m i b := by
  induction h generalizing i with
  | nil => cases hc
  | plain hplain _ _ ih =>
    cases i with
    | zero =>
      cases hc
      exact absurd (hplain.opens k hopens) (hk ▸ Bool.false_ne_true)
    | succ i =>
      obtain ⟨m, b, hb⟩ := ih hc
      exact ⟨m, b + 1, hb.cons _⟩
  | @opens n k' d body cs hd hn inner _ rest ih ih' =>
    rcases getElem?_cons_append hc with ⟨rfl, rfl⟩ | ⟨j, rfl, hj⟩ | ⟨j, rfl, hj⟩
    · obtain rfl : k = k' := BlockKind.opener_injective (hopens.symm.trans hd)
      obtain ⟨b, hb⟩ := rest.exists_end
      exact ⟨n, _, (hb.body (inner.within k)).hasBlock hn hd⟩
    · obtain ⟨m, b, hb⟩ := ih hj
      exact ⟨m, b + 1, hb.body d cs⟩
    · obtain ⟨m, b, hb⟩ := ih' hj
      exact ⟨m, _, hb.rest d body⟩
  | @marks n k' d body cs hd _ _ _ ih ih' =>
    rcases getElem?_cons_append hc with ⟨rfl, rfl⟩ | ⟨j, rfl, hj⟩ | ⟨j, rfl, hj⟩
    · exact absurd (hopens ▸ hd) (BlockKind.opener_not_mem_markers k k')
    · obtain ⟨m, b, hb⟩ := ih hj
      exact ⟨m, b + 1, hb.body d cs⟩
    · obtain ⟨m, b, hb⟩ := ih' hj
      exact ⟨m, _, hb.rest d body⟩
  | @closes _ k' _ _ hd _ _ ih =>
    cases i with
    | zero =>
      cases hc
      exact absurd (hopens.symm.trans hd) (BlockKind.opener_ne_closer k k')
    | succ i =>
      obtain ⟨m, b, hb⟩ := ih hc
      exact ⟨m, b + 1, hb.cons _⟩

/-- A command that divides or closes a block stands in one, or belongs to the block that is open
where the list begins. -/
theorem Nested.enclosed_or_open {o : Option BlockKind} (h : Nested n o cs) (hc : cs[i]? = some c)
    (hdelimits : k.Delimits c.opcode) :
    (∃ m a b : Nat, c.indent.toInt = m ∧ HasBlock cs k m a b ∧ a < i ∧ i ≤ b) ∨
      o = some k ∧ c.indent.toInt = n ∧ ∀ j x, j < i → cs[j]? = some x → Within k n x := by
  induction h generalizing i with
  | nil => cases hc
  | plain hplain _ _ ih =>
    cases i with
    | zero =>
      cases hc
      exact absurd hdelimits (hplain.delimits k)
    | succ i =>
      rcases ih hc with ⟨m, a, b, hm, hb, ha, hi⟩ | ⟨ho, -⟩
      · exact .inl ⟨m, a + 1, b + 1, hm, hb.cons _, by omega, by omega⟩
      · cases ho
  | @opens n k' d body cs hd hn inner _ rest ih ih' =>
    rcases getElem?_cons_append hc with ⟨rfl, rfl⟩ | ⟨j, rfl, hj⟩ | ⟨j, rfl, hj⟩
    · exact absurd hdelimits (hd ▸ BlockKind.not_delimits_opener k k')
    · rcases ih hj with ⟨m, a, b, hm, hb, ha, hi⟩ | ⟨ho, -⟩
      · exact .inl ⟨m, a + 1, b + 1, hm, hb.body d cs, by omega, by omega⟩
      · cases ho
    · rcases ih' hj with ⟨m, a, b, hm, hb, ha, hi⟩ | ⟨ho, hm, hbefore⟩
      · exact .inl ⟨m, _, _, hm, hb.rest d body, by omega, by omega⟩
      · -- the command divides or closes the block that the first command opens
        cases ho
        obtain ⟨b, hb⟩ := rest.exists_end
        have hle : j ≤ b := by
          by_contra hlt
          obtain ⟨e, he, hen, hclose⟩ := hb.closes
          rcases hbefore b e (by omega) he with hdeep | ⟨-, hmark⟩
          · omega
          · exact BlockKind.closer_not_mem_markers k k (hclose ▸ hmark)
        exact .inl ⟨n, 0, _, hm, (hb.body (inner.within k)).hasBlock hn hd, by omega, by omega⟩
  | @marks n k' d body cs hd hn inner _ ih ih' =>
    rcases getElem?_cons_append hc with ⟨rfl, rfl⟩ | ⟨j, rfl, hj⟩ | ⟨j, rfl, hj⟩
    · obtain rfl : k = k' := hdelimits.eq (.inl hd)
      exact .inr ⟨rfl, hn, fun j _ hj => absurd hj (Nat.not_lt_zero j)⟩
    · rcases ih hj with ⟨m, a, b, hm, hb, ha, hi⟩ | ⟨ho, -⟩
      · exact .inl ⟨m, a + 1, b + 1, hm, hb.body d cs, by omega, by omega⟩
      · cases ho
    · rcases ih' hj with ⟨m, a, b, hm, hb, ha, hi⟩ | ⟨ho, hm, hbefore⟩
      · exact .inl ⟨m, _, _, hm, hb.rest d body, by omega, by omega⟩
      · cases ho
        refine .inr ⟨rfl, hm, fun l x hl hx => ?_⟩
        rcases getElem?_cons_append hx with ⟨-, rfl⟩ | ⟨q, rfl, hq⟩ | ⟨q, rfl, hq⟩
        · exact .inr ⟨hn, hd⟩
        · exact inner.within k x (List.mem_of_getElem? hq)
        · exact hbefore q x (by omega) hq
  | @closes _ k' _ _ hd hn _ ih =>
    cases i with
    | zero =>
      cases hc
      obtain rfl : k = k' := hdelimits.eq (.inr hd)
      exact .inr ⟨rfl, hn, fun j _ hj => absurd hj (Nat.not_lt_zero j)⟩
    | succ i =>
      rcases ih hc with ⟨m, a, b, hm, hb, ha, hi⟩ | ⟨ho, -⟩
      · exact .inl ⟨m, a + 1, b + 1, hm, hb.cons _, by omega, by omega⟩
      · cases ho

/-! ## Well-nested lists and their blocks -/

section

variable (h : WellNested cs)

include h

theorem WellNested.indent_nonneg (hc : cs[i]? = some c) : 0 ≤ c.indent.toInt := by
  have hle := Nested.le_indent h c (List.mem_of_getElem? hc)
  omega

/-- Every command that divides or closes a block stands in one. -/
theorem WellNested.enclosed (hc : cs[i]? = some c) (hdelimits : k.Delimits c.opcode) :
    ∃ m a b : Nat, c.indent.toInt = m ∧ HasBlock cs k m a b ∧ a < i ∧ i ≤ b := by
  rcases Nested.enclosed_or_open h hc hdelimits with hin | ⟨ho, -⟩
  · exact hin
  · cases ho

/-- Every command that closes a block has one that opened it. -/
theorem WellNested.exists_opener (hc : cs[i]? = some c) (hcloses : c.opcode = k.closer) :
    ∃ m a : Nat, c.indent.toInt = m ∧ HasBlock cs k m a i := by
  obtain ⟨m, a, b, hm, hb, ha, hi⟩ := h.enclosed hc (k := k) (.inr hcloses)
  rcases Nat.lt_or_eq_of_le hi with hlt | rfl
  · rcases hb.inside i c ha hlt hc with hdeep | ⟨-, hmark⟩
    · omega
    · exact absurd (hcloses ▸ hmark) (BlockKind.closer_not_mem_markers k k)
  · exact ⟨m, a, hm, hb⟩

end

/-- A command that begins no section stands deeper than a block that it lies in. -/
theorem HasBlock.lt_indent (h : HasBlock cs k n a b) (ha : a < i) (hb : i < b)
    (hc : cs[i]? = some c) (hmark : c.opcode ∉ k.markers) : n < c.indent.toInt := by
  rcases h.inside i c ha hb hc with hdeep | ⟨-, hin⟩
  · exact hdeep
  · exact absurd hin hmark

/-- A block that begins in another one ends in it, and is deeper. -/
theorem HasBlock.deeper (h : HasBlock cs k n a b) (h' : HasBlock cs k' n' a' b') (ha : a < a')
    (hb : a' < b) : n < n' ∧ b' < b := by
  obtain ⟨c, hc, hcn, hopens⟩ := h'.opens
  have hdeep := h.lt_indent ha hb hc (hopens ▸ BlockKind.opener_not_mem_markers k' k)
  refine ⟨by omega, ?_⟩
  -- otherwise the end of the outer block would stand in the inner one
  by_contra hle
  obtain ⟨e, he, hen, hclose⟩ := h.closes
  rcases Nat.lt_or_eq_of_le (Nat.le_of_not_lt hle) with hlt | rfl
  · have hdeep' := h'.lt_indent hb hlt he (hclose ▸ BlockKind.closer_not_mem_markers k k')
    omega
  · obtain ⟨e', he', hen', -⟩ := h'.closes
    cases he.symm.trans he'
    omega

/-- A place opens one block at most. -/
theorem HasBlock.eq_of_same (h : HasBlock cs k n a b) (h' : HasBlock cs k' n' a b') :
    k = k' ∧ n = n' ∧ b = b' := by
  obtain ⟨c, hc, hcn, hopens⟩ := h.opens
  obtain ⟨c', hc', hcn', hopens'⟩ := h'.opens
  cases hc.symm.trans hc'
  obtain rfl : k = k' := BlockKind.opener_injective (hopens.symm.trans hopens')
  obtain rfl : n = n' := by omega
  -- the end of one cannot stand inside the other
  have hends {b b' : Nat} (h : HasBlock cs k n a b) (h' : HasBlock cs k n a b') : ¬ b < b' := by
    intro hlt
    obtain ⟨e, he, hen, hclose⟩ := h.closes
    have hdeep := h'.lt_indent h.lt hlt he (hclose ▸ BlockKind.closer_not_mem_markers k k)
    omega
  exact ⟨rfl, rfl, Nat.le_antisymm (Nat.le_of_not_lt (hends h' h)) (Nat.le_of_not_lt (hends h h'))⟩

end Blocks

end EventScript
