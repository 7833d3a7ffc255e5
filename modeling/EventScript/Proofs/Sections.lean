import EventScript.Proofs.CallDepth
import EventScript.Proofs.Execution
import EventScript.Proofs.Nesting
import EventScript.Proofs.Scans

/-!
# The sections of a block

* `Blocks.FindsSection` is what a search for a section of a block comes to: the first section of its
  kind, or the end of the block. `HasBlock.findsSection` shows that the search does not leave the
  block.
* `WellNested.delimits_behind`: some blocks begin with a marker, or have no section at all.
* `Frame.turn_of_delimiter`: where a section ends, a frame goes on behind the block.
-/

namespace EventScript

open Act

namespace BlockKind

variable {k : BlockKind} {op : Opcode}

theorem ofCode_of_mem_markers (h : op ∈ k.markers) : Opcode.ofCode op.code = op := by
  have hkinds : ∀ op ∈ k.markers, Opcode.ofCode op.code = op := by
    cases k <;> decide
  exact hkinds op h

theorem ofCode_closer (k : BlockKind) : Opcode.ofCode k.closer.code = k.closer := by
  cases k <;> decide

theorem Delimits.ofCode_code (h : k.Delimits op) : Opcode.ofCode op.code = op := by
  rcases h with hmark | rfl
  · exact ofCode_of_mem_markers hmark
  · exact ofCode_closer k

/-- Whether the commands of a block mean something in a context. -/
def runsIn : BlockKind → Context → Bool
  | loop, _ | choice, _ => true
  | branch, context | shop, context | inn, context | battle, context => context = .field
  | battleBranch, context => context = .battle

end BlockKind

namespace Blocks

variable {cs : List Command} {k : BlockKind} {n a b i p : Nat} {c x : Command} {op : Opcode}
  {indent : Number}

/-! ## Searches in a block -/

/-- The place where the first section of a kind begins in a block. -/
structure IsSection (cs : List Command) (n a b : Nat) (op : Opcode) (i : Nat) : Prop where
  after : a < i
  before : i < b
  marker : ∃ x, cs[i]? = some x ∧ x.indent.toInt = n ∧ x.opcode = op
  first : ∀ j x, a < j → j < i → cs[j]? = some x → x.indent.toInt = n → x.opcode ≠ op

/-- What a search for a section of a block comes to. -/
inductive FindsSection (cs : List Command) (n a b : Nat) (op : Opcode) : Nat → Prop
  | found {i : Nat} (h : IsSection cs n a b op i) : FindsSection cs n a b op i
  | missing (h : ∀ i, ¬ IsSection cs n a b op i) : FindsSection cs n a b op b

theorem hits_of_indent {target alt : Number} (hx : x.indent.toInt = n) (hindent : indent.toInt = n)
    (hcode : x.code = target ∨ x.code = alt) : Hits target alt indent indent x :=
  ⟨⟨Int32.le_iff_toInt_le.2 (by omega), Int32.le_iff_toInt_le.2 (by omega)⟩, hcode⟩

theorem indent_of_hits {target alt : Number} (h : Hits target alt indent indent x)
    (hindent : indent.toInt = n) : x.indent.toInt = n := by
  have hlow := Int32.le_iff_toInt_le.1 h.1.1
  have hhigh := Int32.le_iff_toInt_le.1 h.1.2
  omega

theorem Within.le_indent (h : Within k n x) (hindent : indent.toInt = n) : indent ≤ x.indent := by
  rw [Int32.le_iff_toInt_le]
  rcases h with hdeep | ⟨hsame, -⟩
  · omega
  · omega

/-- The end of the block that a place lies in bounds every search at its indent for that end. -/
theorem HasBlock.exists_firstHit (h : HasBlock cs k n a b) (hindent : indent.toInt = n) {p : Nat}
    (ha : a < p) (hb : p ≤ b) (target : Number) :
    ∃ i, i ≤ b ∧ FirstHit cs p target k.closer.code indent indent i := by
  obtain ⟨e, he, hen, hcloses⟩ := h.closes
  have hhit : Hits target k.closer.code indent indent e :=
    hits_of_indent hen hindent (.inr (Command.code_eq_of_opcode hcloses))
  refine Blocks.exists_firstHit hb he hhit fun j x hj hlt hx => ?_
  exact (h.inside j x (by omega) hlt hx).le_indent hindent

/-- A search behind the command that opens a block ends at the first section of the kind that is
looked for, or at the end of the block. -/
theorem HasBlock.findsSection (h : HasBlock cs k n a b) (hop : op ∈ k.markers)
    (hindent : indent.toInt = n) : ∃ i, FindsSection cs n a b op i ∧
      seek cs (a + 1) op.code k.closer.code indent indent = some i := by
  obtain ⟨i, hi, hfirst⟩ := h.exists_firstHit hindent (Nat.lt_succ_self a) h.lt op.code
  refine ⟨i, ?_, seek_eq_some_iff.2 hfirst⟩
  have hmiss (j : Nat) (x : Command) (ha : a < j) (hj : j < i) (hx : cs[j]? = some x)
      (hn : x.indent.toInt = n) : x.opcode ≠ op := fun hxop =>
    (hfirst.passed j x ha hj hx).2
      (hits_of_indent hn hindent (.inl (Command.code_eq_of_opcode hxop)))
  rcases Nat.lt_or_eq_of_le hi with hlt | rfl
  · obtain ⟨x, hx, hhit⟩ := hfirst.hit
    have hn := indent_of_hits hhit hindent
    have hxop : x.opcode = op := by
      rcases hhit.2 with hcode | hcode
      · exact Command.opcode_eq_of_code (BlockKind.ofCode_of_mem_markers hop) hcode
      · -- the end of the block does not stand in it
        have hcloses := Command.opcode_eq_of_code k.ofCode_closer hcode
        rcases h.inside i x hfirst.le hlt hx with hdeep | ⟨-, hmark⟩
        · omega
        · exact absurd (hcloses ▸ hmark) (BlockKind.closer_not_mem_markers k k)
    exact .found ⟨hfirst.le, hlt, ⟨x, hx, hn, hxop⟩, hmiss⟩
  · refine .missing fun j hj => ?_
    obtain ⟨x, hx, hn, hxop⟩ := hj.marker
    exact hmiss j x hj.after hj.before hx hn hxop

/-- A search in a block for its end finds it. -/
theorem HasBlock.seek_closer (h : HasBlock cs k n a b) (hindent : indent.toInt = n) (ha : a < p)
    (hb : p ≤ b) : seek cs p k.closer.code k.closer.code indent indent = some b := by
  obtain ⟨i, hi, hfirst⟩ := h.exists_firstHit hindent ha hb k.closer.code
  rcases Nat.lt_or_eq_of_le hi with hlt | rfl
  · obtain ⟨x, hx, hhit⟩ := hfirst.hit
    have hcloses := Command.opcode_eq_of_code k.ofCode_closer (or_self_iff.1 hhit.2)
    have hle := hfirst.le
    have hdeep := h.lt_indent (by omega) hlt hx
      (hcloses ▸ BlockKind.closer_not_mem_markers k k)
    have hn := indent_of_hits hhit hindent
    omega
  · exact seek_eq_some_iff.2 hfirst

/-! ## The markers of a block -/

/-- A marker lands at the end of its block. -/
theorem HasBlock.landing_of_marker (h : HasBlock cs k n a b) (ha : a < i) (hb : i < b)
    (hx : cs[i]? = some x) (hn : x.indent.toInt = n) (hop : x.opcode ∈ k.markers) :
    landing cs i = .ok (some b) := by
  have hseek := h.seek_closer hn (p := i + 1) (by omega) hb
  generalize hxop : x.opcode = op at hop
  cases k with
  | loop => cases hop
  | branch | battleBranch | choice =>
    cases List.mem_singleton.1 hop
    simp only [landing, hx, hxop]
    exact congrArg _ hseek
  | shop | inn =>
    rcases List.mem_pair.1 hop with rfl | rfl
    all_goals simp only [landing, hx, hxop]
    all_goals exact congrArg _ hseek
  | battle =>
    rcases List.mem_cons.1 hop with rfl | hop
    · simp only [landing, hx, hxop]
      exact congrArg _ hseek
    · rcases List.mem_pair.1 hop with rfl | rfl
      all_goals simp only [landing, hx, hxop]
      all_goals exact congrArg _ hseek

/-- Where no section begins with the command that opens a block, a marker or the end follows. -/
theorem WellNested.delimits_behind (h : WellNested cs) (hblock : HasBlock cs k n a b)
    (hk : k.startsAtOnce = false) :
    ∃ x, cs[a + 1]? = some x ∧ x.indent.toInt = n ∧ k.Delimits x.opcode := by
  rcases Nat.lt_or_eq_of_le (Nat.succ_le_of_lt hblock.lt) with hlt | heq
  · obtain ⟨x, hx⟩ : ∃ x, cs[a + 1]? = some x := by
      have hb := hblock.lt_length
      exact ⟨_, List.getElem?_eq_getElem (by omega)⟩
    rcases hblock.inside (a + 1) x (Nat.lt_succ_self a) hlt hx with hdeep | ⟨hn, hmark⟩
    · obtain ⟨c, hc, hcn, hopens⟩ := hblock.opens
      obtain ⟨k', hmark | ⟨hopens', hstart⟩⟩ :=
        Nested.beginsSection_of_deeper h hc hx (by omega)
      · exact absurd (hopens ▸ hmark) (BlockKind.opener_not_mem_markers k k')
      · obtain rfl : k = k' := BlockKind.opener_injective (hopens.symm.trans hopens')
        exact absurd (hk.symm.trans hstart) Bool.false_ne_true
    · exact ⟨x, hx, hn, .inl hmark⟩
  · obtain ⟨e, he, hen, hcloses⟩ := hblock.closes
    exact ⟨e, (congrArg (cs[·]?) heq).trans he, hen, .inr hcloses⟩

end Blocks

/-! ## Frames at a marker -/

namespace Commands

variable {f : Frame} {k : BlockKind} {c : Command}

/-- A marker goes on at the end of its block. -/
theorem perform_marker (env : Env) (w : World) (hk : k.runsIn f.context = true)
    (hop : c.opcode ∈ k.markers) : perform env f c w = .ok (.next f.blockEnd, w) := by
  generalize hcop : c.opcode = op at hop
  cases k with
  | loop => cases hop
  | choice =>
    cases List.mem_singleton.1 hop
    rw [perform_shared env f hcop]
    rfl
  | battleBranch =>
    cases List.mem_singleton.1 hop
    rw [perform, of_decide_eq_true hk, hcop]
    rfl
  | branch =>
    cases List.mem_singleton.1 hop
    rw [perform_field env (of_decide_eq_true hk) hcop]
    rfl
  | shop | inn =>
    rcases List.mem_pair.1 hop with rfl | rfl
    all_goals rw [perform_field env (of_decide_eq_true hk) hcop]
    all_goals rfl
  | battle =>
    rcases List.mem_cons.1 hop with rfl | hop
    · rw [perform_field env (of_decide_eq_true hk) hcop]
      rfl
    · rcases List.mem_pair.1 hop with rfl | rfl
      all_goals rw [perform_field env (of_decide_eq_true hk) hcop]
      all_goals rfl

/-- The end of a block that is no loop goes on behind itself. -/
theorem perform_closer (env : Env) (w : World) (hk : k.runsIn f.context = true) (hloop : k ≠ .loop)
    (hop : c.opcode = k.closer) : perform env f c w = .ok (.next f.pc, w) := by
  cases k with
  | loop => exact absurd rfl hloop
  | choice =>
    rw [perform_shared env f hop]
    rfl
  | battleBranch =>
    rw [perform, of_decide_eq_true hk, hop]
    rfl
  | branch | shop | inn | battle =>
    rw [perform_field env (of_decide_eq_true hk) hop]
    rfl

end Commands

namespace Frame

open Blocks

variable {env : Env} {f g : Frame} {w u : World} {k : BlockKind} {n a b : Nat} {x : Command}

/-- At a marker or at the end of a block, the command is to go on behind the block. -/
theorem perform_delimiter (env : Env) (hstep : g.InStep) (hblock : HasBlock g.commands k n a b)
    (hk : k.runsIn g.context = true) (hloop : k ≠ .loop) (ha : a < g.pc) (hb : g.pc ≤ b)
    (hx : g.commands[g.pc]? = some x) (hn : x.indent.toInt = n) (hop : k.Delimits x.opcode) :
    Commands.perform env g x u = .ok (.next b, u) := by
  rcases hop with hmark | hcloses
  · have hlt : g.pc < b := by
      rcases Nat.lt_or_eq_of_le hb with hlt | rfl
      · exact hlt
      · obtain ⟨e, he, -, hcloses⟩ := hblock.closes
        cases hx.symm.trans he
        exact absurd (hcloses ▸ hmark) (BlockKind.closer_not_mem_markers k k)
    have hland : g.blockEnd = b := by
      have hplace := (hstep.landing g.pc).symm.trans (hblock.landing_of_marker ha hlt hx hn hmark)
      rw [blockEnd, Except.ok.inj hplace]
      rfl
    rw [Commands.perform_marker env u hk hmark, hland]
  · have hend : g.pc = b := by
      rcases Nat.lt_or_eq_of_le hb with hlt | heq
      · have hdeep := hblock.lt_indent ha hlt hx
          (hcloses ▸ BlockKind.closer_not_mem_markers k k)
        omega
      · exact heq
    rw [Commands.perform_closer env u hk hloop hcloses, hend]

/-- There the frame goes on behind the block. -/
theorem turn_of_delimiter (hcome : f.ComesTo env w g u) (hstep : g.InStep)
    (hblock : HasBlock g.commands k n a b) (hk : k.runsIn g.context = true) (hloop : k ≠ .loop)
    (ha : a < g.pc) (hb : g.pc ≤ b) (hx : g.commands[g.pc]? = some x) (hn : x.indent.toInt = n)
    (hop : k.Delimits x.opcode) :
    f.turn env w = .ok ({ frame := g.goto b, signal := .again }, u) :=
  hcome.turn hx (perform_delimiter env hstep hblock hk hloop ha hb hx hn hop)

end Frame

end EventScript
