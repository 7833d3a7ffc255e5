import EventScript.Proofs.Inns
import EventScript.Proofs.SectionRuns

/-!
# Where an event goes on after a choice, a shop or an inn

An event that offered a choice, opened a shop or offered a stay waits at its command, and goes on by
what came of it.

* `Awaited.reaction` is what comes of it: the event waits on, or is led to the first section of a
  kind.
* `Frame.GoesTo` lists where it is led: to the section in its own block, behind the block if there
  is no such section, or behind a command that has no block. From the start of the section on,
  `RunsOne` tells that no other section of the block is run.
* `Frame.goes_on_by_own_block`: so it is in every well-nested list, and only the price of a stay
  that has no opposite ends in an overflow.
-/

namespace EventScript

open Act Blocks

namespace Checked

theorem exists_neg_iff {a : Number} : (∃ b, Checked.neg a = .ok b) ↔ a ≠ Int32.minValue := by
  have hlow := a.le_toInt
  have hhigh := a.toInt_lt
  have hmin : a = Int32.minValue ↔ a.toInt = -2147483648 := Int32.toInt_inj.symm
  rw [Ne, hmin]
  refine exists_fit_iff.trans ?_
  show (-2147483648 : Int) ≤ -a.toInt ∧ -a.toInt ≤ 2147483647 ↔ ¬ a.toInt = -2147483648
  omega

end Checked

/-- What a frame waits for at a command that opens a block of a kind. -/
def BlockKind.awaited : BlockKind → List Awaited
  | .choice => [.choice]
  | .shop => [.shop]
  | .inn => [.innAnswer, .innDarkness, .innTune]
  | .loop | .branch | .battleBranch | .battle => []

theorem BlockKind.opcodes_of_mem_awaited {k : BlockKind} {r : Awaited} (h : r ∈ k.awaited) :
    r.opcodes = [k.opener] ∧ k ≠ .loop := by
  have hall : ∀ r ∈ k.awaited, r.opcodes = [k.opener] ∧ k ≠ .loop := by
    cases k <;> decide
  exact hall r h

/-- What comes of a command at which a frame waits. -/
inductive Reaction
  /-- The frame waits on, for the next thing or for the same one. -/
  | waits (r : Awaited)
  /-- It goes on in the first section that begins with such a command. -/
  | leads (p : Command → Bool)

/-- What comes of the answer to a choice, a shop or an inn. -/
def Awaited.reaction (host : Host) (g : Game) : Awaited → Reaction
  | .choice => .leads fun x =>
    x.opcode = .shared .showChoiceOption ∧ x.param 0 = g.message.choiceResult
  | .shop => .leads fun x =>
    x.opcode = .field (if g.scene.shopTransaction then .transaction else .noTransaction)
  | .innAnswer =>
    if g.message.visible then .waits .innAnswer
    else if g.message.choiceResult = 0 then .waits .innDarkness
    else .leads fun x => x.opcode = .field .noStay
  | .innDarkness => .waits (if host.transitionPending then .innDarkness else .innTune)
  | .innTune =>
    if host.holdsTune g then .waits .innTune else .leads fun x => x.opcode = .field .stay
  | .battle => .waits .battle
  | .scene => .waits .scene

/-! ## The section that is looked for -/

namespace Blocks

variable {cs : List Command} {k : BlockKind} {n a b i : Nat} {op : Opcode} {indent : Number}

/-- The place of the first command in a block that stands at its depth and passes a test. -/
structure FirstSection (cs : List Command) (n a b : Nat) (p : Command → Bool) (i : Nat) :
    Prop where
  after : a < i
  before : i < b
  marker : ∃ x, cs[i]? = some x ∧ x.indent.toInt = n ∧ p x = true
  first : ∀ j x, a < j → j < i → cs[j]? = some x → x.indent.toInt = n → p x = false

theorem firstSection_iff : FirstSection cs n a b (fun x => x.opcode = op) i ↔
    IsSection cs n a b op i :=
  ⟨fun h => ⟨h.after, h.before, by simpa using h.marker, by simpa using h.first⟩,
    fun h => ⟨h.after, h.before, by simpa using h.marker, by simpa using h.first⟩⟩

/-- A search in a block comes to the section that is looked for, or to the end of the block. -/
inductive Finds (cs : List Command) (n a b : Nat) (p : Command → Bool) : Nat → Prop
  | found {i : Nat} (h : FirstSection cs n a b p i) : Finds cs n a b p i
  | missing (h : ∀ i, ¬ FirstSection cs n a b p i) : Finds cs n a b p b

theorem FindsSection.finds (h : FindsSection cs n a b op i) :
    Finds cs n a b (fun x => x.opcode = op) i := by
  cases h with
  | found h => exact .found (firstSection_iff.2 h)
  | missing h => exact .missing fun i hi => h i (firstSection_iff.1 hi)

section

variable (h : HasBlock cs .choice n a b) (hindent : indent.toInt = n)

include h hindent

/-- Nothing in the block of a choice ends its options but the end of the block. -/
theorem HasBlock.not_endsOptions {j : Nat} {x : Command} (ha : a < j) (hb : j < b)
    (hx : cs[j]? = some x) : ¬ EndsOptions indent x := by
  rintro (hless | ⟨hsame, hcode⟩)
  · have hle := Int32.le_iff_toInt_le.1 ((h.inside j x ha hb hx).le_indent hindent)
    have hlt := Int32.lt_iff_toInt_lt.1 hless
    omega
  · have hop : x.opcode = BlockKind.closer .choice := Command.opcode_eq_of_code rfl hcode
    have hdeep := h.lt_indent ha hb hx (hop ▸ BlockKind.closer_not_mem_markers .choice .choice)
    rw [hsame] at hdeep
    omega

theorem HasBlock.mem_options_iff {x : Command} :
    (x, i) ∈ options cs a indent ↔ a < i ∧ i < b ∧ cs[i]? = some x ∧ x.indent.toInt = n ∧
      x.opcode = .shared .showChoiceOption := by
  have hoption : IsOption indent x ↔ x.indent.toInt = n ∧ x.opcode = .shared .showChoiceOption := by
    refine and_congr ?_ ⟨fun hcode => Command.opcode_eq_of_code rfl hcode,
      fun hop => Command.code_eq_of_opcode hop⟩
    rw [← hindent]
    exact Int32.toInt_inj.symm
  obtain ⟨e, he, hen, hcloses⟩ := h.closes
  rw [Blocks.mem_options_iff, hoption]
  constructor
  · rintro ⟨ha, hx, hx', hbefore⟩
    refine ⟨ha, ?_, hx, hx'⟩
    rcases Nat.lt_trichotomy i b with hlt | rfl | hgt
    · exact hlt
    · cases hx.symm.trans he
      exact nomatch hx'.2.symm.trans hcloses
    · refine absurd (.inr ⟨?_, Command.code_eq_of_opcode hcloses⟩) (hbefore b e h.lt hgt he)
      exact Int32.toInt_inj.1 (hen.trans hindent.symm)
  · rintro ⟨ha, hb, hx, hx'⟩
    exact ⟨ha, hx, hx', fun j y hj hlt hy => h.not_endsOptions hindent hj (hlt.trans hb) hy⟩

theorem HasBlock.choiceEnd?_eq : choiceEnd? cs a indent = some b := by
  obtain ⟨e, he, hen, hcloses⟩ := h.closes
  have hsame : e.indent = indent := Int32.toInt_inj.1 (hen.trans hindent.symm)
  exact choiceEnd?_eq_some_iff.2 ⟨h.lt, ⟨e, he, hsame, Command.code_eq_of_opcode hcloses⟩,
    fun j y hj hlt hy => h.not_endsOptions hindent hj hlt hy⟩

/-- A choice leads to the first option of its own block that has the number, or to its end. -/
theorem HasBlock.finds_chosenPlace (r : Number) : Finds cs n a b
    (fun x => x.opcode = .shared .showChoiceOption ∧ x.param 0 = r)
    (chosenPlace cs a indent r) := by
  unfold chosenPlace
  split
  · next x hx =>
    obtain ⟨ha, hb, hget, hn, hop⟩ :=
      (h.mem_options_iff hindent).1 (List.mem_of_find?_eq_some hx)
    have hnumber := List.find?_some hx
    have hr : x.1.param 0 = r := of_decide_eq_true hnumber
    refine .found ⟨ha, hb, ⟨x.1, hget, hn, decide_eq_true ⟨hop, hr⟩⟩, fun j y hj hlt hy hyn => ?_⟩
    refine decide_eq_false fun ⟨hyop, hyr⟩ => Nat.not_le_of_lt hlt ?_
    have hmem : (y, j) ∈ options cs a indent :=
      (h.mem_options_iff hindent).2 ⟨hj, hlt.trans hb, hy, hyn, hyop⟩
    exact le_of_find?_options hx hmem (decide_eq_true hyr)
  · next hnone =>
    rw [h.choiceEnd?_eq hindent]
    refine .missing fun i hi => ?_
    obtain ⟨x, hx, hn, hp⟩ := hi.marker
    obtain ⟨hop, hr⟩ := of_decide_eq_true hp
    have hmem := (h.mem_options_iff hindent).2 ⟨hi.after, hi.before, hx, hn, hop⟩
    simpa [hr] using List.find?_eq_none.1 hnone _ hmem

end

end Blocks

/-! ## Frames that go on -/

namespace Frame

variable {env : Env} {f : Frame} {w : World} {c : Command} {k : BlockKind} {r : Awaited} {n : Nat}
  {p : Command → Bool}

/-- A frame at the start of a section. As long as it stands in the block and does not jump, it runs
commands of this section only, and at the end of the section it goes on behind the block. -/
structure RunsOne (g : Frame) (a b i j : Nat) : Prop where
  start : g.pc = i + 1
  stays : ∀ d g', Walks d a b g g' → i < g'.pc ∧ g'.pc ≤ j ∨ b < g'.pc
  passes : ∀ d g' host v h u, Walks d a b g g' → g'.pc = j → g'.ComesTo ⟨d, host⟩ v h u →
    g'.turn ⟨d, host⟩ v = .ok ({ frame := h.goto b, signal := .again }, u)

/-- Where a frame that waited at a command goes on, if it is led to a section. -/
inductive GoesTo (f : Frame) (k : BlockKind) (n : Nat) (p : Command → Bool) : Frame → Prop
  /-- To the start of the first such section of its own block. -/
  | inSection {b i j : Nat} (hblock : HasBlock f.commands k n f.pc b)
      (hi : FirstSection f.commands n f.pc b p i) (hbody : Body f.commands k n i j) (hj : j ≤ b)
      (hruns : (f.goto i).RunsOne f.pc b i j) : GoesTo f k n p (f.goto i)
  /-- Behind its block, which has no such section. -/
  | behindBlock {b : Nat} (hblock : HasBlock f.commands k n f.pc b)
      (hmissing : ∀ i, ¬ FirstSection f.commands n f.pc b p i) : GoesTo f k n p (f.goto b)
  /-- Behind its command, which has no block. -/
  | behindCommand (halone : ∀ b, ¬ HasBlock f.commands k n f.pc b) : GoesTo f k n p (f.goto f.pc)

/-- The frame waits at a command of a well-nested list for what comes of it, and is held up no
longer. A shop or an inn has a block exactly if its third parameter says so. -/
structure ResumesBlock (f : Frame) (w : World) (c : Command) (k : BlockKind) (r : Awaited)
    (n : Nat) : Prop where
  awaited : r ∈ k.awaited
  runs : k.runsIn f.context = true
  pause : f.pause = .goOn r
  free : f.isFree w.game = true
  command : f.commands[f.pc]? = some c
  depth : c.indent.toInt = n
  nested : WellNested f.commands
  flagged : k.isOptional = true → (c.flag 2 = true ↔ ∃ b, HasBlock f.commands k n f.pc b)
  grounded : f.Grounded
  inStep : f.InStep

theorem ResumesBlock.opcode (h : f.ResumesBlock w c k r n) : c.opcode = k.opener := by
  obtain ⟨x, hx, hop⟩ := h.grounded.goOn r h.pause
  rw [(BlockKind.opcodes_of_mem_awaited h.awaited).1] at hop
  cases h.command.symm.trans hx
  exact List.mem_singleton.1 hop

/-- From the start of a section of the block, one section is run. -/
theorem ResumesBlock.goesTo_of_first (h : f.ResumesBlock w c k r n) {b i : Nat}
    (hblock : HasBlock f.commands k n f.pc b) (hi : FirstSection f.commands n f.pc b p i) :
    GoesTo f k n p (f.goto i) := by
  obtain ⟨x, hx, hn, -⟩ := hi.marker
  obtain ⟨j, hj, hbody⟩ := hblock.exists_body hi.after.le hi.before hx hn
  have hpc : (f.goto i).pc = i + 1 := Nat.min_eq_left (List.getElem?_eq_some_iff.1 hx).1
  have hlt := hbody.lt
  have hloop := (BlockKind.opcodes_of_mem_awaited h.awaited).2
  have hin : (f.goto i).InSection k n f.pc b i j :=
    ⟨hblock, hbody, hi.after.le, hj, by omega, by omega, h.inStep.goto i, grounded_of_ready rfl,
      h.runs, hloop⟩
  refine .inSection hblock hi hbody hj ⟨hpc, fun d g' hwalk => ?_,
    fun d g' host v g u hwalk hend hcome => ?_⟩
  · exact (hwalk.in_section hin).imp_left fun hg => ⟨hg.after, hg.upTo⟩
  · rcases hwalk.in_section hin with hg | hpast
    · -- the frame that comes to its command is the same but for what it waited for
      have hg' : g.InSection k n f.pc b i j := by
        cases hcome with
        | goes => exact hg
        | followed | hits => exact hg.ready
      have hgpc : g.pc = j := by
        cases hcome with
        | goes => exact hend
        | followed | hits => exact hend
      obtain ⟨e, he, hen, hdelimits⟩ := hg'.body.ends
      rw [← hgpc] at he
      have hafter := hi.after
      exact turn_of_delimiter hcome hg'.inStep hg'.block hg'.runs hg'.noLoop (by omega) (by omega)
        he hen hdelimits
    · omega

theorem ResumesBlock.goesTo_of_finds (h : f.ResumesBlock w c k r n) {b i : Nat}
    (hblock : HasBlock f.commands k n f.pc b) (hi : Finds f.commands n f.pc b p i) :
    GoesTo f k n p (f.goto i) := by
  cases hi with
  | found hi => exact h.goesTo_of_first hblock hi
  | missing hmissing => exact .behindBlock hblock hmissing

/-- A choice has its block, and leads to the section in it. -/
theorem ResumesBlock.goesTo_of_choice (h : f.ResumesBlock w c .choice r n) (result : Number) :
    GoesTo f .choice n (fun x => x.opcode = .shared .showChoiceOption ∧ x.param 0 = result)
      (f.goto (chosenPlace f.commands f.pc c.indent result)) := by
  obtain ⟨m, b, hblock⟩ := h.nested.exists_block h.command h.opcode rfl
  obtain ⟨x, hx, hm, -⟩ := hblock.opens
  cases h.command.symm.trans hx
  obtain rfl : n = m := by
    have hdepth := h.depth
    omega
  exact h.goesTo_of_finds hblock (hblock.finds_chosenPlace h.depth result)

/-- A shop or an inn leads to the section in its block, or behind its command. -/
theorem ResumesBlock.goesTo_of_sectionOf (h : f.ResumesBlock w c k r n)
    (hk : k.isOptional = true) {op terminator : FieldOp} (hop : Opcode.field op ∈ k.markers)
    (hterminator : k.closer = .field terminator) :
    GoesTo f k n (fun x => x.opcode = .field op)
      (f.goto (Commands.sectionOf f.ready op terminator)) := by
  have hcommand : f.ready.commands[f.ready.pc]? = some c := h.command
  simp only [Commands.sectionOf, hcommand, Option.map_some, Option.getD_some]
  split
  · next hflag =>
    obtain ⟨b, hblock⟩ := (h.flagged hk).1 hflag
    obtain ⟨i, hfinds, hseek⟩ := hblock.findsSection hop h.depth
    have hplace : (Commands.findSection f.ready op terminator).getD f.ready.pc = i := by
      simp only [Commands.findSection, hcommand, Option.map_some, Option.getD_some]
      rw [hterminator] at hseek
      exact congrArg (·.getD f.pc) hseek
    rw [hplace]
    exact h.goesTo_of_finds hblock hfinds.finds
  · next hflag =>
    exact .behindCommand fun b hblock => hflag ((h.flagged hk).2 ⟨b, hblock⟩)

/-- What a reaction makes of a frame. -/
def Makes (f : Frame) (k : BlockKind) (n : Nat) : Reaction → Frame → Prop
  | .waits r, g => g = { f with pause := .goOn r }
  | .leads p, g => f.GoesTo k n p g

/-- Whether the stay that was accepted has a price without an opposite. -/
def Unpayable (r : Awaited) (g : Game) (c : Command) : Prop :=
  r = .innAnswer ∧ g.message.visible = false ∧ g.message.choiceResult = 0 ∧
    c.param 1 = Int32.minValue

/-- How a frame that waits at a command goes on with it. -/
inductive Reacts (env : Env) (f : Frame) (w : World) (c : Command) (k : BlockKind) (r : Awaited)
    (n : Nat) : Prop
  | fails {o : Overflow} (hover : Unpayable r w.game c)
      (ho : Commands.goOn env f.ready r w = .error o)
  | goes {o : Outcome} {u : World} {t : Turn} (hpaid : ¬ Unpayable r w.game c)
      (ho : Commands.goOn env f.ready r w = .ok (o, u)) (ht : f.ready.settle env o u = .ok (t, u))
      (hcalled : t.called = none) (hmakes : f.Makes k n (r.reaction env.host w.game) t.frame)

theorem ResumesBlock.reacts_choice (h : f.ResumesBlock w c .choice .choice n) (env : Env) :
    Reacts env f w c .choice .choice n :=
  .goes nofun (Commands.takeChoice_eq (f := f.ready) h.command w) rfl rfl
    (h.goesTo_of_choice w.game.message.choiceResult)

theorem ResumesBlock.reacts_shop (h : f.ResumesBlock w c .shop .shop n) (env : Env) :
    Reacts env f w c .shop .shop n := by
  have hmark :
      Opcode.field (if w.game.scene.shopTransaction then .transaction else .noTransaction) ∈
        BlockKind.markers .shop := by
    cases w.game.scene.shopTransaction <;> decide
  exact .goes nofun rfl rfl rfl (h.goesTo_of_sectionOf rfl hmark rfl)

/-- Only the answer that accepts a stay needs the opposite of its price. -/
theorem ResumesBlock.reacts_answer (h : f.ResumesBlock w c .inn .innAnswer n) (env : Env) :
    Reacts env f w c .inn .innAnswer n := by
  have hcommand : f.ready.commands[f.ready.pc]? = some c := h.command
  cases hvisible : w.game.message.visible with
  | true =>
    refine .goes (fun hover => ?_) (Commands.answerInn_of_visible hvisible) rfl rfl ?_
    · exact nomatch hvisible.symm.trans hover.2.1
    · rw [Awaited.reaction, if_pos hvisible]
      rfl
  | false =>
    by_cases hr : w.game.message.choiceResult = 0
    · cases hpaid : Checked.neg (c.param 1) with
      | error o =>
        refine .fails ⟨rfl, hvisible, hr, ?_⟩
          (Commands.answerInn_of_overflow hvisible hr hcommand hpaid)
        by_contra hmin
        obtain ⟨paid, hok⟩ := Checked.exists_neg_iff.2 hmin
        cases hpaid.symm.trans hok
      | ok paid =>
        refine .goes (fun hover => Checked.exists_neg_iff.1 ⟨paid, hpaid⟩ hover.2.2.2)
          (Commands.answerInn_of_accepted hvisible hr hcommand hpaid) rfl rfl ?_
        rw [Awaited.reaction, if_neg (Bool.eq_false_iff.1 hvisible), if_pos hr]
        rfl
    · refine .goes (fun hover => hr hover.2.2.1) (Commands.answerInn_of_refused hvisible hr) rfl
        rfl ?_
      rw [Awaited.reaction, if_neg (Bool.eq_false_iff.1 hvisible), if_neg hr]
      exact h.goesTo_of_sectionOf rfl (by decide) rfl

theorem reacts_darkness (env : Env) : Reacts env f w c .inn .innDarkness n := by
  cases hpending : env.host.transitionPending with
  | true =>
    refine .goes nofun (Commands.darkenInn_of_pending hpending) rfl rfl ?_
    rw [Awaited.reaction, hpending]
    rfl
  | false =>
    refine .goes nofun (Commands.darkenInn_of_dark hpending) rfl rfl ?_
    rw [Awaited.reaction, hpending]
    rfl

theorem ResumesBlock.reacts_tune (h : f.ResumesBlock w c .inn .innTune n) (env : Env) :
    Reacts env f w c .inn .innTune n := by
  cases htune : env.host.holdsTune w.game with
  | true =>
    refine .goes nofun (Commands.wakeInn_of_holdsTune htune) rfl rfl ?_
    rw [Awaited.reaction, htune]
    rfl
  | false =>
    refine .goes nofun (Commands.wakeInn_of_over htune) rfl rfl ?_
    rw [Awaited.reaction, htune]
    exact h.goesTo_of_sectionOf rfl (by decide) rfl

theorem ResumesBlock.reacts (h : f.ResumesBlock w c k r n) (env : Env) :
    Reacts env f w c k r n := by
  have hr := h.awaited
  cases k with
  | loop | branch | battleBranch | battle => cases hr
  | choice =>
    obtain rfl := List.mem_singleton.1 hr
    exact h.reacts_choice env
  | shop =>
    obtain rfl := List.mem_singleton.1 hr
    exact h.reacts_shop env
  | inn =>
    rcases List.mem_cons.1 hr with rfl | hr
    · exact h.reacts_answer env
    · rcases List.mem_pair.1 hr with rfl | rfl
      · exact reacts_darkness env
      · exact h.reacts_tune env

/-- An event that waited at a choice, a shop or an inn of a well-nested list, whatever led it there.
It waits on, or goes on in its own block: at the start of the section for what came of it, of which
it runs no other as long as it does not jump, or else behind the block. Where the command has no
block, it goes on behind the command. All this fails only where a stay was accepted whose price has
no opposite: then the turn ends in an overflow. -/
theorem goes_on_by_own_block (h : f.ResumesBlock w c k r n) :
    ((∃ o, f.turn env w = .error o) ↔ Unpayable r w.game c) ∧
    (¬ Unpayable r w.game c → ∃ t u, f.turn env w = .ok (t, u) ∧ t.called = none ∧
      f.Makes k n (r.reaction env.host w.game) t.frame) := by
  have hturn : f.turn env w = (do f.ready.settle env (← Commands.goOn env f.ready r)) w :=
    turn_of_free h.pause h.free
  cases h.reacts env with
  | @fails o hover ho =>
    refine ⟨iff_of_true ⟨o, ?_⟩ hover, fun hpaid => absurd hover hpaid⟩
    rw [hturn]
    exact bind_of_error ho
  | @goes o u t hpaid ho ht hcalled hmakes =>
    have hok : f.turn env w = .ok (t, u) := by
      rw [hturn]
      exact (bind_of_ok ho).trans ht
    refine ⟨iff_of_false ?_ hpaid, fun _ => ⟨t, u, hok, hcalled, hmakes⟩⟩
    rintro ⟨o', ho'⟩
    cases hok.symm.trans ho'

/-- An inn with the inn of a neighbour in its section for a stay. -/
def lodging (price : Number) : List Command := [
  { code := FieldOp.showInn.code, params := [0, price, 1] },
  { code := FieldOp.stay.code },
  { code := FieldOp.showInn.code, indent := 1, params := [1, 20, 1] },
  { code := FieldOp.noStay.code, indent := 1 },
  { code := SharedOp.comment.code, indent := 2 },
  { code := FieldOp.endInn.code, indent := 1 },
  { code := FieldOp.noStay.code },
  { code := SharedOp.comment.code, indent := 1 },
  { code := FieldOp.endInn.code }]

theorem wellNested_lodging (price : Number) : WellNested (lodging price) := by
  have hneighbour : Nested 1 none ((lodging price).drop 2 |>.take 4) :=
    @Nested.opens 1 .inn _ [] _ rfl rfl .nil (fun _ => rfl)
      (@Nested.marks 1 .inn _ [_] [_] (by decide) rfl (.plain (by decide) rfl .nil)
        (.closes rfl rfl .nil))
  have hrest : Nested 0 (some .inn) ((lodging price).drop 6) :=
    @Nested.marks 0 .inn _ [_] [_] (by decide) rfl (.plain (by decide) rfl .nil)
      (.closes rfl rfl .nil)
  exact @Nested.opens 0 .inn _ [] _ rfl rfl .nil (fun _ => rfl)
    (@Nested.marks 0 .inn _ ((lodging price).drop 2 |>.take 4) _ (by decide) rfl hneighbour hrest)

/-- A stay that is refused leads past the inn of the neighbour, which has a section for that, too. A
stay that is accepted has to have a price with an opposite. -/
theorem lodging_refused_and_unpayable :
    (∃ (f : Frame) (w : World) (c : Command), f.ResumesBlock w c .inn .innAnswer 0 ∧
      f.commands = lodging 10 ∧ ∃ t u, f.turn { data := {}, host := {} } w = .ok (t, u) ∧
        f.GoesTo .inn 0 (fun x => x.opcode = .field .noStay) t.frame ∧ t.frame.pc = 7) ∧
    ∃ (f : Frame) (w : World) (c : Command), f.ResumesBlock w c .inn .innAnswer 0 ∧
      f.commands = lodging Int32.minValue ∧ w.game.message.choiceResult = 0 ∧
        ∃ o, f.turn { data := {}, host := {} } w = .error o := by
  let waiting (price : Number) (jumps : Landings) : Frame :=
    { context := .field, depth := 0, isRoot := false, commands := lodging price, jumps,
      pause := .goOn .innAnswer }
  let answered (n : Number) : World :=
    let g := Game.begin {} default
    { game := { g with message := { g.message with choiceResult := n } } }
  have hresumes (price n : Number) (jumps : Landings)
      (hjumps : Landings.ofCommands (lodging price) = .ok jumps)
      (hblock : HasBlock (lodging price) .inn 0 0 8) :
      (waiting price jumps).ResumesBlock (answered n)
        { code := FieldOp.showInn.code, params := [0, price, 1] } .inn .innAnswer 0 := by
    refine ⟨by decide, rfl, rfl, rfl, rfl, rfl, wellNested_lodging price,
      fun _ => iff_of_true rfl ⟨8, hblock⟩, ⟨nofun, fun k hk => ?_, nofun⟩,
      ⟨Nat.zero_le _, Landings.landing_eq_of_ofCommands hjumps,
        Landings.label?_eq_of_ofCommands hjumps⟩⟩
    cases hk
    exact ⟨_, rfl, List.mem_singleton.2 rfl⟩
  obtain ⟨jumps, hjumps⟩ : ∃ jumps, Landings.ofCommands (lodging 10) = .ok jumps := ⟨_, rfl⟩
  obtain ⟨dear, hdear⟩ : ∃ jumps, Landings.ofCommands (lodging Int32.minValue) = .ok jumps :=
    ⟨_, rfl⟩
  have hrefused := hresumes 10 1 jumps hjumps (by decide)
  have haccepted := hresumes Int32.minValue 0 dear hdear (by decide)
  obtain ⟨-, hgoes⟩ := @goes_on_by_own_block { data := {}, host := {} } _ _ _ _ _ _ hrefused
  obtain ⟨hfails, -⟩ := @goes_on_by_own_block { data := {}, host := {} } _ _ _ _ _ _ haccepted
  obtain ⟨t, u, hturn, -, hmakes⟩ := hgoes fun hover => absurd hover.2.2.1 (by decide)
  refine ⟨⟨_, _, _, hrefused, rfl, t, u, hturn, hmakes, ?_⟩,
    ⟨_, _, _, haccepted, rfl, rfl, hfails.2 ⟨rfl, rfl, rfl, rfl⟩⟩⟩
  have hrun : (waiting 10 jumps).turn { data := {}, host := {} } (answered 1) =
      .ok ({ frame := (waiting 10 jumps).goto 6, signal := .again }, (answered 1).answered) := rfl
  cases hrun.symm.trans hturn
  rfl

end Frame

end EventScript
