import EventScript.Proofs.CallDepth
import EventScript.Proofs.Execution
import EventScript.Proofs.NearestPlaces
import EventScript.Proofs.Nesting

/-!
# Breaking out of a loop

A command that breaks out of a loop goes on behind the next end of a loop that stands shallower than
itself. That need not be the loop which it stands in: a loop behind it that is opened and closed in
the same body can come first.

* `Blocks.Catches` holds of the loops that end behind a break and stand shallower, and
  `Blocks.BreaksTo` picks the one that ends first.
* `Blocks.Innermost` is the loop closest around a place. It catches every break in it
  (`Innermost.catches`), and it is the first to do so for a break that stands directly in its body
  (`BreaksTo.eq_of_directly`).
* `Frame.breakLoop_leaves_iff`: a break leaves the loop around it exactly if no loop in between
  catches it.
-/

namespace EventScript

open Act

namespace Blocks

variable {cs : List Command} {c : Command} {p n m a b a' b' place : Nat}

/-! ## Loops around a place and behind it -/

/-- The loop closest around a place. -/
structure Innermost (cs : List Command) (p n a b : Nat) : Prop where
  block : HasBlock cs .loop n a b
  before : a < p
  behind : p < b
  closest : ∀ m a' b', HasBlock cs .loop m a' b' → a' < p → p < b' → a' ≤ a

/-- A place in a loop is closest to one. -/
theorem exists_innermost (h : HasBlock cs .loop n a b) (ha : a < p) (hb : p < b) :
    ∃ n a b, Innermost cs p n a b := by
  induction hd : p - a using Nat.strongRecOn generalizing n a b with
  | ind d ih =>
    by_cases hclosest : ∀ m a' b', HasBlock cs .loop m a' b' → a' < p → p < b' → a' ≤ a
    · exact ⟨n, a, b, h, ha, hb, hclosest⟩
    · push Not at hclosest
      obtain ⟨m, a', b', h', ha', hb', hlt⟩ := hclosest
      exact ih (p - a') (by omega) h' ha' hb' rfl

/-- A loop that a break at a place runs into: it ends behind the break and stands shallower. -/
structure Catches (cs : List Command) (p : Nat) (c : Command) (n a b : Nat) : Prop where
  block : HasBlock cs .loop n a b
  behind : p < b
  shallower : n < c.indent.toInt

/-- Where a break leads: to the end of the first loop that it runs into, and if there is none, to
the end of the list. -/
inductive BreaksTo (cs : List Command) (p : Nat) (c : Command) : Nat → Prop
  | caught {n a b : Nat} (h : Catches cs p c n a b)
      (hfirst : ∀ m a' b', Catches cs p c m a' b' → b ≤ b') : BreaksTo cs p c b
  | leaves (h : ∀ n a b, ¬ Catches cs p c n a b) : BreaksTo cs p c cs.length

/-- A break goes no further than to the end of a loop that catches it. -/
theorem BreaksTo.le_of_catches (h : BreaksTo cs p c place) (h' : Catches cs p c n a b) :
    place ≤ b := by
  cases h with
  | caught _ hfirst => exact hfirst n a b h'
  | leaves hnone => exact absurd h' (hnone n a b)

/-- A shallower loop that is opened behind the break catches it. -/
theorem HasBlock.catches (h : HasBlock cs .loop n a b) (ha : p < a)
    (hshallow : n < c.indent.toInt) : Catches cs p c n a b :=
  ⟨h, ha.trans h.lt, hshallow⟩

section

variable (hc : cs[p]? = some c) (hop : c.opcode = .shared .breakLoop)

include hc

/-- The loop around a break catches it. -/
theorem Innermost.catches (h : Innermost cs p n a b) : Catches cs p c n a b := by
  have hmark : c.opcode ∉ BlockKind.markers .loop := List.not_mem_nil
  exact ⟨h.block, h.behind, h.block.lt_indent h.before h.behind hc hmark⟩

include hop

/-- A loop does not begin at a break. -/
theorem HasBlock.ne_break (h : HasBlock cs .loop n a b) : a ≠ p := by
  rintro rfl
  obtain ⟨s, hs, -, hopens⟩ := h.opens
  cases hc.symm.trans hs
  cases hop.symm.trans hopens

/-- A break leaves the loop around it if no loop in between catches it. -/
theorem BreaksTo.eq_iff_of_innermost (h : BreaksTo cs p c place) (hin : Innermost cs p n a b) :
    place = b ↔ ∀ m a' b', HasBlock cs .loop m a' b' → p < a' → b' < b → c.indent.toInt ≤ m := by
  have hcatches := hin.catches hc
  have hle := h.le_of_catches hcatches
  constructor
  · rintro rfl m a' b' h' ha hb
    by_contra hlt
    have hfirst := h.le_of_catches (h'.catches ha (by omega))
    omega
  · intro hnone
    cases h with
    | leaves hnever => exact absurd hcatches (hnever n a b)
    | @caught m a' b' h' =>
      rcases Nat.lt_trichotomy a' p with hlt | heq | hgt
      · -- a loop around the break that ends first is the one closest to it
        have hle' := hin.closest m a' place h'.block hlt h'.behind
        rcases Nat.lt_or_eq_of_le hle' with hout | rfl
        · have hdeeper := h'.block.deeper hin.block hout (hin.before.trans h'.behind)
          omega
        · exact (h'.block.eq_of_same hin.block).2.2
      · exact absurd heq (h'.block.ne_break hc hop)
      · by_contra hne
        have hdeep := hnone m a' place h'.block hgt (by omega)
        have hshallow := h'.shallower
        omega

/-- A break in no loop leaves the list if no loop behind it catches it. -/
theorem BreaksTo.eq_length_iff (h : BreaksTo cs p c place)
    (hout : ∀ n a b, HasBlock cs .loop n a b → a < p → ¬ p < b) :
    place = cs.length ↔
      ∀ m a' b', HasBlock cs .loop m a' b' → p < a' → c.indent.toInt ≤ m := by
  constructor
  · intro hend m a' b' h' ha
    by_contra hlt
    have hfirst := h.le_of_catches (h'.catches ha (by omega))
    have hlength := h'.lt_length
    omega
  · intro hnone
    cases h with
    | leaves => rfl
    | @caught m a' b' h' =>
      have hbehind := h'.behind
      have hshallow := h'.shallower
      rcases Nat.lt_trichotomy a' p with hlt | heq | hgt
      · exact absurd hbehind (hout m a' place h'.block hlt)
      · exact absurd heq (h'.block.ne_break hc hop)
      · have hdeep := hnone m a' place h'.block hgt
        omega

/-- A break that stands directly in the body of a loop leaves it. -/
theorem BreaksTo.eq_of_directly (h : BreaksTo cs p c place) (hin : Innermost cs p n a b)
    (hdirect : c.indent.toInt = n + 1) : place = b := by
  refine (h.eq_iff_of_innermost hc hop hin).2 fun m a' b' h' ha hb => ?_
  have hdeeper := (hin.block.deeper h' (hin.before.trans ha) (h'.lt.trans hb)).1
  omega

end

/-! ## The scan of a break -/

section

variable (hnest : WellNested cs) {outer : Number} (houter : outer.toInt = c.indent.toInt - 1)

include hnest houter

/-- The scan stops at the end of a loop that catches the break. -/
theorem Catches.hits (h : Catches cs p c n a b) : ∃ e, cs[b]? = some e ∧
    Hits SharedOp.endLoop.code SharedOp.endLoop.code 0 outer e := by
  obtain ⟨e, he, hen, hcloses⟩ := h.block.closes
  have hcode := Command.code_eq_of_opcode hcloses
  have hlow := hnest.indent_nonneg he
  have hshallow := h.shallower
  refine ⟨e, he, ⟨Int32.le_iff_toInt_le.2 hlow, Int32.le_iff_toInt_le.2 ?_⟩, .inl hcode⟩
  omega

/-- It stops nowhere else. -/
theorem exists_catches_of_hits {i : Nat} {e : Command} (hi : p < i) (he : cs[i]? = some e)
    (hhit : Hits SharedOp.endLoop.code SharedOp.endLoop.code 0 outer e) :
    ∃ n a, Catches cs p c n a i := by
  obtain ⟨⟨-, hhigh⟩, hcode⟩ := hhit
  have hcloses : e.opcode = BlockKind.closer .loop :=
    Command.opcode_eq_of_code rfl (or_self_iff.1 hcode)
  obtain ⟨m, a, hm, hblock⟩ := hnest.exists_opener he hcloses
  have hle := Int32.le_iff_toInt_le.1 hhigh
  refine ⟨m, a, hblock, hi, ?_⟩
  omega

/-- The scan of a break finds the end of the first loop that catches it. -/
theorem breaksTo_of_seek :
    BreaksTo cs p c ((seek cs (p + 1) SharedOp.endLoop.code SharedOp.endLoop.code 0 outer).getD
      cs.length) := by
  cases hseek : seek cs (p + 1) SharedOp.endLoop.code SharedOp.endLoop.code 0 outer with
  | some i =>
    have hfirst := seek_eq_some_iff.1 hseek
    obtain ⟨e, he, hhit⟩ := hfirst.hit
    obtain ⟨n, a, hcaught⟩ := exists_catches_of_hits hnest houter hfirst.le he hhit
    refine .caught hcaught fun m a' b' h' => ?_
    change i ≤ b'
    by_contra hlt
    obtain ⟨e', he', hhit'⟩ := h'.hits hnest houter
    exact (hfirst.passed b' e' h'.behind (by omega) he').2 hhit'
  | none =>
    refine .leaves fun n a b h => ?_
    obtain ⟨e, he, hhit⟩ := h.hits hnest houter
    obtain ⟨j, -, -, x, hx, hless⟩ := seek_eq_none_iff_cut.1 hseek b ⟨h.behind, e, he, hhit⟩
    -- no command stands shallower than the range of the scan
    have hlow : (0 : Number) ≤ x.indent := Int32.le_iff_toInt_le.2 (hnest.indent_nonneg hx)
    exact Int32.not_lt.2 hlow hless

end

end Blocks

/-! ## Frames at a break -/

namespace Frame

open Blocks

variable {env : Env} {f g : Frame} {w u : World} {c : Command} {p : Nat}

/-- The table of a frame holds the scan of every break. -/
theorem InStep.landing?_breakLoop (h : g.InStep) (hc : g.commands[p]? = some c)
    (hop : c.opcode = .shared .breakLoop) :
    ∃ outer : Number, outer.toInt = c.indent.toInt - 1 ∧ g.jumps.landing? p =
      seek g.commands (p + 1) SharedOp.endLoop.code SharedOp.endLoop.code 0 outer := by
  have hlanding := h.landing p
  simp only [Blocks.landing, hc, hop] at hlanding
  cases hsub : Checked.sub c.indent 1 with
  | error o =>
    rw [hsub] at hlanding
    cases hlanding
  | ok outer =>
    rw [hsub] at hlanding
    exact ⟨outer, Checked.fit_eq_ok_iff.1 hsub, (Except.ok.inj hlanding).symm⟩

theorem turn_of_breakLoop (hcome : f.ComesTo env w g u) (hnest : WellNested g.commands)
    (hstep : g.InStep) (hc : g.commands[g.pc]? = some c) (hop : c.opcode = .shared .breakLoop) :
    ∃ place, BreaksTo g.commands g.pc c place ∧
      f.turn env w = .ok ({ frame := g.goto place, signal := .again }, u) := by
  obtain ⟨outer, houter, hlanding⟩ := hstep.landing?_breakLoop hc hop
  have hto := breaksTo_of_seek (p := g.pc) hnest houter
  rw [← hlanding] at hto
  have hperform : Commands.perform env g c u =
      .ok (.next ((g.jumps.landing? g.pc).getD g.commands.length), u) := by
    rw [Commands.perform_shared env g hop]
    rfl
  exact ⟨_, hto, hcome.turn hc hperform⟩

/-- A break in a well-nested list. The frame goes on behind the end of the first loop that ends
behind the break and stands shallower than it, or leaves the list if there is none. So it leaves the
loop closest around the break exactly if every loop that is opened and closed between the break and
the end of that loop stands at least as deep as the break; and a break in no loop leaves the list
exactly if every loop behind it does. -/
theorem breakLoop_leaves_iff (hcome : f.ComesTo env w g u) (hnest : WellNested g.commands)
    (hstep : g.InStep) (hc : g.commands[g.pc]? = some c) (hop : c.opcode = .shared .breakLoop) :
    ∃ place, f.turn env w = .ok ({ frame := g.goto place, signal := .again }, u) ∧
      BreaksTo g.commands g.pc c place ∧
      (∀ n a b, Innermost g.commands g.pc n a b →
        (place = b ↔ ∀ m a' b', HasBlock g.commands .loop m a' b' → g.pc < a' → b' < b →
          c.indent.toInt ≤ m)) ∧
      ((∀ n a b, HasBlock g.commands .loop n a b → a < g.pc → ¬ g.pc < b) →
        (place = g.commands.length ↔ ∀ m a' b', HasBlock g.commands .loop m a' b' → g.pc < a' →
          c.indent.toInt ≤ m)) := by
  obtain ⟨place, hto, hturn⟩ := turn_of_breakLoop hcome hnest hstep hc hop
  exact ⟨place, hturn, hto, fun n a b hin => hto.eq_iff_of_innermost hc hop hin,
    fun hout => hto.eq_length_iff hc hop hout⟩

/-- A break in a branch, and behind the branch, in the same loop, another loop. -/
def strayBreak : List Command := [
  { code := SharedOp.loop.code },
  { code := FieldOp.branch.code, indent := 1, params := [0, 1, 1] },
  { code := SharedOp.breakLoop.code, indent := 2 },
  { code := FieldOp.endBranch.code, indent := 1 },
  { code := SharedOp.loop.code, indent := 1 },
  { code := SharedOp.endLoop.code, indent := 1 },
  { code := SharedOp.controlVariables.code, indent := 1, params := [0, 1, 1, 0, 0, 5] },
  { code := SharedOp.endEvent.code, indent := 1 },
  { code := SharedOp.endLoop.code },
  { code := SharedOp.controlVariables.code, params := [0, 2, 2, 0, 0, 7] }]

theorem wellNested_strayBreak : WellNested strayBreak := by
  have hplain {n : Nat} {c : Command} (hc : c.Plain) (hn : c.indent.toInt = n) :
      Nested n none [c] := .plain hc hn .nil
  have hbranch : Nested 2 none [{ code := SharedOp.breakLoop.code, indent := 2 }] :=
    hplain (by decide) rfl
  have hloop : Nested 1 none (strayBreak.drop 4 |>.take 4) :=
    .opens (k := .loop) rfl rfl .nil nofun (.closes rfl rfl (.plain (by decide) rfl
      (hplain (by decide) rfl)))
  have hbody : Nested 1 none (strayBreak.drop 1 |>.take 7) :=
    .opens (k := .branch) rfl rfl hbranch nofun (.closes rfl rfl hloop)
  exact .opens (k := .loop) rfl rfl hbody nofun (.closes rfl rfl (hplain (by decide) rfl))

/-- The break runs into the loop behind its branch, and the loop around it is not left. -/
theorem strayBreak_stays : WellNested strayBreak ∧ Innermost strayBreak 2 0 0 8 ∧
    ∃ (f : Frame) (place : Nat) (w : World), f.commands = strayBreak ∧ f.pc = 2 ∧
      f.turn { data := {}, host := {} } w = .ok ({ frame := f.goto place, signal := .again }, w) ∧
      place ≠ 8 ∧ (f.goto place).pc = 6 := by
  have hin : Innermost strayBreak 2 0 0 8 := by
    refine ⟨by decide, by decide, by decide, fun m a' b' h ha hb => ?_⟩
    obtain rfl | rfl : a' = 0 ∨ a' = 1 := by omega
    · exact Nat.le_refl 0
    · obtain ⟨c, hc, -, hopens⟩ := h.opens
      cases hc
      cases hopens
  obtain ⟨jumps, hjumps⟩ : ∃ jumps, Landings.ofCommands strayBreak = .ok jumps := ⟨_, rfl⟩
  let f : Frame :=
    { context := .field, depth := 0, isRoot := false, commands := strayBreak, jumps, pc := 2 }
  have hpc : 2 ≤ strayBreak.length := by decide
  have hstep : f.InStep := ⟨hpc, Landings.landing_eq_of_ofCommands hjumps,
    Landings.label?_eq_of_ofCommands hjumps⟩
  have hcome : f.ComesTo { data := {}, host := {} } { game := Game.begin {} default } f
      { game := Game.begin {} default } := .goes rfl (.inl rfl) rfl
  obtain ⟨place, hturn, hto, hleaves, -⟩ :=
    breakLoop_leaves_iff hcome wellNested_strayBreak hstep rfl rfl
  have hloop : HasBlock strayBreak .loop 1 4 5 := by decide
  have hne : place ≠ 8 := by
    intro hend
    have hdeep := (hleaves 0 0 8 hin).1 hend 1 4 5 hloop (by decide : 2 < 4) (by decide)
    exact absurd hdeep (by decide)
  have hcatches : Catches strayBreak 2 { code := SharedOp.breakLoop.code, indent := 2 } 1 4 5 :=
    ⟨hloop, by decide, by decide⟩
  refine ⟨wellNested_strayBreak, hin, f, place, _, rfl, rfl, hturn, hne, ?_⟩
  have hfirst : place = 5 := by
    have hle := hto.le_of_catches hcatches
    cases hto with
    | leaves hnone => exact absurd hcatches (hnone 1 4 5)
    | @caught n a _ h =>
      have hbehind : 2 < place := h.behind
      obtain ⟨c, hc, -, hcloses⟩ := h.block.closes
      obtain rfl | rfl | rfl : place = 3 ∨ place = 4 ∨ place = 5 := by omega
      · cases hc
        cases hcloses
      · cases hc
        cases hcloses
      · rfl
  rw [hfirst]
  rfl

end Frame

end EventScript
