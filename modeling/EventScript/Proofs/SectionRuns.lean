import EventScript.Proofs.Choices
import EventScript.Proofs.Sections
import Mathlib.Data.List.TakeWhile
import Mathlib.Data.Nat.Find

/-!
# Runs within a section

The commands of a section stand deeper than the marker before it and than the one that ends it. No
scan from within passes the one or the other, and so a frame stays in the section until it comes to
its end, or leaves the block altogether.

* `Blocks.Body` tells where a section begins and ends.
* `Commands.perform_leadsOn` and `goOn_leadsOn`: apart from jumps, which `Frame.Jumps` names, what a
  command of the section asks for leads on within the section, to its end, or past the block.
* `InSection.turn` tells what one turn keeps. `Frame.Walks` is a run for as long as the frame stands
  in the block and does not jump, and `Walks.in_section` shows that it runs commands of one section
  only.
-/

namespace EventScript

open Act

namespace Blocks

variable {cs : List Command} {k : BlockKind} {n i j p q a b : Nat} {c : Command}
  {target alt low high : Number}

/-! ## Where a section begins and ends -/

/-- A section of a block, between two commands at the depth of the block of which the second one
divides or closes it. -/
structure Body (cs : List Command) (k : BlockKind) (n i j : Nat) : Prop where
  begins : ∃ x, cs[i]? = some x ∧ x.indent.toInt = n
  ends : ∃ x, cs[j]? = some x ∧ x.indent.toInt = n ∧ k.Delimits x.opcode
  lt : i < j
  deeper : ∀ l x, i < l → l < j → cs[l]? = some x → n < x.indent.toInt

/-- Every marker of a block begins a section that ends in the block. -/
theorem HasBlock.exists_body (h : HasBlock cs k n a b) (ha : a ≤ i) (hb : i < b)
    (hc : cs[i]? = some c) (hn : c.indent.toInt = n) : ∃ j, j ≤ b ∧ Body cs k n i j := by
  have hend : ∃ l, i < l ∧ ∃ x ∈ cs[l]?, x.indent.toInt = n := by
    obtain ⟨e, he, hen, -⟩ := h.closes
    exact ⟨b, hb, e, he, hen⟩
  have hle : Nat.find hend ≤ b := by
    obtain ⟨e, he, hen, -⟩ := h.closes
    exact Nat.find_min' hend ⟨hb, e, he, hen⟩
  obtain ⟨hlt, x, hx, hxn⟩ := Nat.find_spec hend
  refine ⟨Nat.find hend, hle, ⟨c, hc, hn⟩, ⟨x, hx, hxn, ?_⟩, hlt, fun l y hl hlj hy => ?_⟩
  · rcases Nat.lt_or_eq_of_le hle with hin | hat
    · rcases h.inside _ x (by omega) hin hx with hdeep | ⟨-, hmark⟩
      · omega
      · exact .inl hmark
    · obtain ⟨e, he, -, hcloses⟩ := h.closes
      rw [hat] at hx
      cases he.symm.trans hx
      exact .inr hcloses
  · rcases h.inside l y (by omega) (by omega) hy with hdeep | ⟨hsame, -⟩
    · exact hdeep
    · exact absurd ⟨hl, y, hy, hsame⟩ (Nat.find_min hend hlj)

/-! ## Scans from within -/

section

variable (h : Body cs k n i j) (hi : i < p) (hj : p < j) (hc : cs[p]? = some c)

include h hj hi hc

theorem Body.lt_of_firstHit (hlow : c.indent ≤ low)
    (hq : FirstHit cs (p + 1) target alt low high q) : q < j := by
  obtain ⟨e, he, hen, -⟩ := h.ends
  have hdeep := h.deeper p c hi hj hc
  have hlow := Int32.le_iff_toInt_le.1 hlow
  by_contra hle
  rcases Nat.lt_or_eq_of_le (Nat.le_of_not_lt hle) with hlt | rfl
  · have hpassed := Int32.le_iff_toInt_le.1 (hq.passed j e (by omega) hlt he).1
    omega
  · obtain ⟨x, hx, hhit⟩ := hq.hit
    cases hx.symm.trans he
    have hin := Int32.le_iff_toInt_le.1 hhit.1.1
    omega

/-- A search at the indent of a command of the section stays in the section. -/
theorem Body.seek_within (hseek : seek cs (p + 1) target alt c.indent c.indent = some q) :
    i < q ∧ q < j := by
  have hq := seek_eq_some_iff.1 hseek
  have hle := hq.le
  exact ⟨by omega, h.lt_of_firstHit hi hj hc (Int32.le_refl _) hq⟩

theorem Body.loopBefore_within (hloop : loopBefore cs p c.indent = some q) : i < q ∧ q < j := by
  have hq := loopBefore_eq_some_iff.1 hloop
  have hlt := hq.lt
  have hdeep := h.deeper p c hi hj hc
  obtain ⟨s, hs, hsn⟩ := h.begins
  refine ⟨?_, by omega⟩
  by_contra hle
  rcases Nat.lt_or_eq_of_le (Nat.le_of_not_lt hle) with hbefore | rfl
  · exact (hq.passed i s hbefore hi hs).1 (Int32.lt_iff_toInt_lt.2 (by omega))
  · obtain ⟨x, hx, hindent, -⟩ := hq.loop
    cases hx.symm.trans hs
    rw [hindent] at hsn
    omega

/-- Apart from a break, a command of the section lands in the section. -/
theorem Body.landing_within (hop : c.opcode ≠ .shared .breakLoop)
    (hland : landing cs p = .ok (some q)) : i < q ∧ q < j := by
  unfold landing at hland
  rw [hc] at hland
  dsimp only at hland
  split at hland
  · exact h.seek_within hi hj hc (Except.ok.inj hland)
  · exact h.seek_within hi hj hc (Except.ok.inj hland)
  · exact h.seek_within hi hj hc (Except.ok.inj hland)
  · exact h.seek_within hi hj hc (Except.ok.inj hland)
  · exact h.seek_within hi hj hc (Except.ok.inj hland)
  · next hbreak => exact absurd hbreak hop
  · exact h.loopBefore_within hi hj hc (Except.ok.inj hland)
  all_goals first
    | exact h.seek_within hi hj hc (Except.ok.inj hland)
    | exact nomatch hland

/-- A choice made in the section leads on in the section. -/
theorem Body.chosenPlace_within (r : Number) :
    i ≤ chosenPlace cs p c.indent r ∧ chosenPlace cs p c.indent r < j := by
  obtain ⟨e, he, hen, -⟩ := h.ends
  have hdeep := h.deeper p c hi hj hc
  have hends : EndsOptions c.indent e := .inl (Int32.lt_iff_toInt_lt.2 (by omega))
  -- what is found stands before the first command that ends the choice, and has its depth
  have hbefore {q : Nat} {x : Command} (hx : cs[q]? = some x) (hsame : x.indent = c.indent)
      (hpassed : ∀ l y, p < l → l < q → cs[l]? = some y → ¬ EndsOptions c.indent y) : q < j := by
    rcases Nat.lt_trichotomy q j with hlt | rfl | hgt
    · exact hlt
    · cases hx.symm.trans he
      rw [hsame] at hen
      omega
    · exact absurd hends (hpassed j e hj hgt he)
  unfold chosenPlace
  split
  · next x hx =>
    obtain ⟨hlt, hget, hoption, hpassed⟩ := mem_options_iff.1 (List.mem_of_find?_eq_some hx)
    exact ⟨by omega, hbefore hget hoption.1 hpassed⟩
  · cases hend : choiceEnd? cs p c.indent with
    | none => exact ⟨Nat.le_of_lt hi, hj⟩
    | some q =>
      obtain ⟨hlt, ⟨x, hx, hsame, -⟩, hpassed⟩ := choiceEnd?_eq_some_iff.1 hend
      exact ⟨(hi.trans hlt).le, hbefore hx hsame hpassed⟩

end

/-- A break goes no further than to the end of a loop that it stands in. -/
theorem HasBlock.break_within {m a' b' : Nat} (h : HasBlock cs .loop m a' b') (ha : a' < p)
    (hb : p < b') (hc : cs[p]? = some c) (hop : c.opcode = .shared .breakLoop) {outer : Number}
    (houter : Checked.sub c.indent 1 = .ok outer)
    (hseek : seek cs (p + 1) SharedOp.endLoop.code SharedOp.endLoop.code 0 outer = some q) :
    p < q ∧ q ≤ b' := by
  have hq := seek_eq_some_iff.1 hseek
  refine ⟨hq.le, ?_⟩
  by_contra hlt
  obtain ⟨e, he, hen, hcloses⟩ := h.closes
  have hdeep := h.lt_indent ha hb hc (hop ▸ List.not_mem_nil)
  have houter := Checked.fit_eq_ok_iff.1 houter
  change (outer.toInt : Int) = c.indent.toInt - 1 at houter
  have hhit : Hits SharedOp.endLoop.code SharedOp.endLoop.code 0 outer e := by
    refine ⟨⟨Int32.le_iff_toInt_le.2 ?_, Int32.le_iff_toInt_le.2 ?_⟩,
      .inl (Command.code_eq_of_opcode hcloses)⟩
    · rw [Int32.toInt_zero]
      omega
    · omega
  exact (hq.passed b' e hb (by omega) he).2 hhit

/-- A block that begins behind the start of another, and before a place in a section of it, ends in
the section if it goes past the place. -/
theorem Body.ends_within {k' : BlockKind} {m a' b' : Nat} (h : Body cs k n i j)
    (hblock : HasBlock cs k n a b) (hinner : HasBlock cs k' m a' b') (ha : a < a') (ha' : a' < p)
    (hj : p < j) (hlast : j ≤ b) : b' < j := by
  obtain ⟨hdeep, -⟩ := hblock.deeper hinner ha (by omega)
  obtain ⟨e, he, hen, -⟩ := h.ends
  by_contra hle
  rcases Nat.lt_or_eq_of_le (Nat.le_of_not_lt hle) with hlt | rfl
  · rcases hinner.inside j e (by omega) hlt he with hin | ⟨hin, -⟩
    · omega
    · omega
  · obtain ⟨x, hx, hxn, -⟩ := hinner.closes
    cases hx.symm.trans he
    omega

/-- The lines that continue a message come before any other command. -/
theorem continuedLines_le {start : Nat} {x : Command} (hle : start ≤ j) (hx : cs[j]? = some x)
    (hop : x.opcode ≠ .shared .messageLine) : start + (continuedLines cs start).length ≤ j := by
  rw [continuedLines, List.length_map]
  by_contra hlt
  have hlong : j - start <
      ((cs.drop start).takeWhile fun c => c.code = SharedOp.messageLine.code).length := by omega
  have hline := List.mem_takeWhile_imp (List.getElem_mem hlong)
  have hget := (List.takeWhile_prefix fun c : Command =>
    decide (c.code = SharedOp.messageLine.code)).getElem hlong
  rw [hget, List.getElem_drop, decide_eq_true_eq] at hline
  obtain ⟨_, rfl⟩ := List.getElem?_eq_some_iff.1 hx
  simp only [Nat.add_sub_cancel' hle] at hline
  exact hop (Command.opcode_eq_of_code rfl hline)

end Blocks

/-! ## Frames in a section -/

/-- Whether an outcome leads on from a section: within it, to its end, or past the block. -/
def Outcome.LeadsOn (i j b : Nat) : Outcome → Prop
  | .next p | .rest p => i ≤ p ∧ p < j ∨ b ≤ p
  | .await p _ => i < p ∧ p < j
  | _ => True

namespace Frame

open Blocks

/-- A frame that stands in a section of a block or at its end. -/
structure InSection (f : Frame) (k : BlockKind) (n a b i j : Nat) : Prop where
  block : HasBlock f.commands k n a b
  body : Body f.commands k n i j
  first : a ≤ i
  last : j ≤ b
  after : i < f.pc
  upTo : f.pc ≤ j
  inStep : f.InStep
  grounded : f.Grounded
  runs : k.runsIn f.context = true
  noLoop : k ≠ .loop

/-- A frame whose command is a jump, seen from a block that begins at a place: one to a label, or
out of a loop that does not begin in the block. -/
def Jumps (f : Frame) (a : Nat) : Prop :=
  ∃ c, f.commands[f.pc]? = some c ∧ (c.opcode = .shared .jumpToLabel ∨
    c.opcode = .shared .breakLoop ∧ ∀ m a' b', a < a' → a' < f.pc → f.pc < b' →
      ¬ HasBlock f.commands .loop m a' b')

end Frame

namespace Act

/-- Whatever the act of a command comes to, it leads on. -/
def LeadsOn (i j b : Nat) (x : Act Outcome) : Prop := ∀ w, Ensures x w fun o _ => o.LeadsOn i j b

variable {α : Type} {i j b : Nat} {x y : Act Outcome} {m : Act α} {r : α → Act Outcome}

theorem LeadsOn.pure {o : Outcome} (h : o.LeadsOn i j b) : (pure o : Act Outcome).LeadsOn i j b :=
  fun _ => ensures_pure.2 h

theorem LeadsOn.bind (h : ∀ z, (r z).LeadsOn i j b) : (m >>= r).LeadsOn i j b :=
  fun _ => ensures_bind.2 fun z u _ => h z u

theorem LeadsOn.ite {c : Prop} [Decidable c] (hx : x.LeadsOn i j b) (hy : y.LeadsOn i j b) :
    (if c then x else y).LeadsOn i j b := by
  split
  · exact hx
  · exact hy

end Act

namespace Commands

open Blocks

variable {f : Frame} {k : BlockKind} {n a b i j : Nat} {c : Command}

section

variable (h : f.InSection k n a b i j) (hj : f.pc < j)

include h hj

theorem here_leadsOn : i ≤ f.pc ∧ f.pc < j := ⟨h.after.le, hj⟩

theorem waitIf_leadsOn (flag : Bool) (ticks : UInt32) : (waitIf f flag ticks).LeadsOn i j b := by
  unfold waitIf
  split
  · exact trivial
  · exact .inl (here_leadsOn h hj)

/-- A message and what it takes into its window stand in one section. -/
theorem showMessage_leadsOn (d : Command) : (showMessage f d).LeadsOn i j b := by
  obtain ⟨e, he, -, hdelimits⟩ := h.body.ends
  have hother {op : SharedOp} (hop : ∀ k : BlockKind, ¬ k.Delimits (.shared op)) :
      e.opcode ≠ .shared op := fun heq => hop k (heq ▸ hdelimits)
  have hlast : f.pc + 1 + (continuedLines f.commands (f.pc + 1)).length ≤ j :=
    continuedLines_le hj he (hother fun k => by cases k <;> decide)
  have hafter := h.after
  have hlines :
      (Outcome.next (f.pc + (continuedLines f.commands (f.pc + 1)).length)).LeadsOn i j b :=
    .inl ⟨by omega, by omega⟩
  have htaken {x : Command} {op : SharedOp} (hop : ∀ k : BlockKind, ¬ k.Delimits (.shared op))
      (hx : f.commands[f.pc + (continuedLines f.commands (f.pc + 1)).length + 1]? = some x)
      (hxop : x.opcode = .shared op) :
      f.pc + (continuedLines f.commands (f.pc + 1)).length + 1 < j := by
    refine Nat.lt_of_le_of_ne (by omega) fun heq => ?_
    rw [heq] at hx
    cases hx.symm.trans he
    exact hother hop hxop
  refine .bind fun g => .ite (.pure trivial) (.bind fun _ => ?_)
  split
  · exact .pure hlines
  · next x hx =>
    split
    · next hop =>
      refine .ite (.bind fun _ => .pure ⟨by omega, ?_⟩) (.pure hlines)
      exact htaken (fun k => by cases k <;> decide) hx hop
    · next hop =>
      refine .ite (.bind fun _ => .pure (.inl ⟨by omega, ?_⟩)) (.pure hlines)
      exact htaken (fun k => by cases k <;> decide) hx hop
    · exact .pure hlines

end

section

variable (h : f.InSection k n a b i j) (hj : f.pc < j) (hc : f.commands[f.pc]? = some c)

include h hj hc

theorem blockEnd_leadsOn (hop : c.opcode ≠ .shared .breakLoop) :
    i ≤ f.blockEnd ∧ f.blockEnd < j := by
  have hland := h.inStep.landing f.pc
  unfold Frame.blockEnd
  cases hplace : f.jumps.landing? f.pc with
  | none => exact here_leadsOn h hj
  | some q =>
    rw [hplace] at hland
    obtain ⟨hafter, hbefore⟩ := h.body.landing_within h.after hj hc hop hland
    exact ⟨hafter.le, hbefore⟩

theorem findSection_leadsOn (target terminator : FieldOp) :
    i ≤ (findSection f target terminator).getD f.pc ∧
      (findSection f target terminator).getD f.pc < j := by
  cases hfind : findSection f target terminator with
  | none => exact here_leadsOn h hj
  | some q =>
    rw [findSection, hc] at hfind
    obtain ⟨hafter, hbefore⟩ := h.body.seek_within h.after hj hc hfind
    exact ⟨hafter.le, hbefore⟩

theorem sectionOf_leadsOn (target terminator : FieldOp) :
    i ≤ sectionOf f target terminator ∧ sectionOf f target terminator < j := by
  unfold sectionOf
  split
  · exact findSection_leadsOn h hj hc target terminator
  · exact here_leadsOn h hj

/-- A break stays in the section if its loop begins in the block, for then the loop ends in the
section. -/
theorem breakLoop_leadsOn (hjump : ¬ f.Jumps a) (hop : c.opcode = .shared .breakLoop) :
    (Outcome.next ((f.jumps.landing? f.pc).getD f.commands.length)).LeadsOn i j b := by
  have hland := h.inStep.landing f.pc
  cases hplace : f.jumps.landing? f.pc with
  | none => exact .inr h.block.lt_length.le
  | some q =>
    rw [hplace, landing, hc] at hland
    simp only [hop] at hland
    obtain ⟨outer, houter, hseek⟩ := except_bind_eq_ok_iff.1 hland
    obtain ⟨m, a', b', ha, ha', hb', hloop⟩ : ∃ m a' b', a < a' ∧ a' < f.pc ∧ f.pc < b' ∧
        HasBlock f.commands .loop m a' b' := by
      by_contra hnone
      push Not at hnone
      exact hjump ⟨c, hc, .inr ⟨hop, hnone⟩⟩
    obtain ⟨hlt, hle⟩ := hloop.break_within ha' hb' hc hop houter (Except.ok.inj hseek)
    have hend := h.body.ends_within h.block hloop ha ha' hj h.last
    have hafter := h.after
    refine .inl ⟨?_, ?_⟩
    · exact (hafter.trans hlt).le
    · exact Nat.lt_of_le_of_lt hle hend

theorem takeChoice_leadsOn : (takeChoice f).LeadsOn i j b := fun w => by
  intro o u ho
  cases (takeChoice_eq hc w).symm.trans ho
  exact .inl (h.body.chosenPlace_within h.after hj hc _)

/-- Every operation of any context leads on from a section, unless it jumps. -/
theorem performShared_leadsOn (env : Env) {op : SharedOp} (hop : c.opcode = .shared op)
    (hjump : ¬ f.Jumps a) : (performShared env f c op).LeadsOn i j b := by
  have hhere : (Outcome.next f.pc).LeadsOn i j b := .inl (here_leadsOn h hj)
  cases op with
  | jumpToLabel => exact absurd ⟨c, hc, .inl hop⟩ hjump
  | breakLoop => exact .pure (breakLoop_leadsOn h hj hc hjump hop)
  | showChoiceOption | endLoop =>
    refine .pure (.inl (blockEnd_leadsOn h hj hc ?_))
    rw [hop]
    exact nofun
  | endEvent => exact .pure (.inr h.block.lt_length.le)
  | showMessage => exact showMessage_leadsOn h hj c
  | _ =>
    dsimp only [performShared, simply, changeGold, messageOptions, changeFace, showChoice,
      inputNumber, controlSwitches, controlVariables, timerOperation, changeItems,
      changePartyMembers, changeExp, changeLevel, changeParameters, changeSkills, changeEquipment,
      changeHp, changeSp, changeCondition, fullHeal, changeClass, changeBattleCommands, changeLook,
      changeVehicleGraphic, changeTransition, tintScreen, flashScreen, shakeScreen, changeWeather,
      showPicture, movePicture, erasePicture, fadeOutBgm, playMovie, request]
    repeat' first
      | with_reducible refine .bind fun _ => ?_
      | with_reducible refine .ite ?_ ?_
      | with_reducible refine .pure ?_
      | exact waitIf_leadsOn h hj _ _
      | exact hhere
      | exact ⟨h.after, hj⟩
      | exact trivial
      | split

theorem performField_leadsOn (env : Env) {op : FieldOp} (hop : c.opcode = .field op) :
    (performField env f c op).LeadsOn i j b := by
  have hhere : (Outcome.next f.pc).LeadsOn i j b := .inl (here_leadsOn h hj)
  have hbranch (condition : Bool) : (branchOn f condition).LeadsOn i j b := by
    unfold branchOn
    split
    · exact hhere
    · exact .inl (blockEnd_leadsOn h hj hc (hop ▸ nofun))
  cases op with
  | elseBranch | transaction | noTransaction | stay | noStay | victoryHandler | escapeHandler
  | defeatHandler =>
    refine .pure (.inl (blockEnd_leadsOn h hj hc ?_))
    rw [hop]
    exact nofun
  | _ =>
    dsimp only [performField, simply, conditionalBranch, openShop, showInn, enemyEncounter,
      enterName, teleport, memorizeLocation, recallLocation, changeCover, enterExitVehicle,
      setVehicleLocation, changeEventLocation, tradeEventLocations, storeTerrain, storeEvent,
      panScreen, showBattleAnimation, playAnimation, flashSprite, moveEvent, captureKey,
      changePanorama, changeTeleportTargets, changeEscapeTarget, eraseEvent, callEvent, callCommon,
      callPage, simulatedAttack, planTeleport, request]
    repeat' first
      | with_reducible refine .bind fun _ => ?_
      | with_reducible refine .ite ?_ ?_
      | with_reducible refine .pure ?_
      | exact hbranch _
      | exact waitIf_leadsOn h hj _ _
      | exact hhere
      | exact ⟨h.after, hj⟩
      | exact trivial
      | split

theorem performBattle_leadsOn (env : Env) {op : BattleOp} (hop : c.opcode = .battle op) :
    (performBattle env f c op).LeadsOn i j b := by
  have hhere : (Outcome.next f.pc).LeadsOn i j b := .inl (here_leadsOn h hj)
  have hend : (Outcome.next f.blockEnd).LeadsOn i j b :=
    .inl (blockEnd_leadsOn h hj hc (hop ▸ nofun))
  have hbranch (condition : Bool) : (branchOn f condition).LeadsOn i j b := by
    unfold branchOn
    split
    · exact hhere
    · exact hend
  cases op with
  | elseBranch => exact .pure hend
  | _ =>
    dsimp only [performBattle, battleBranch, callCommon, enableCombo, inBattle, terminateBattle,
      showAnimation, playAnimation]
    repeat' first
      | with_reducible refine .bind fun _ => ?_
      | with_reducible refine .ite ?_ ?_
      | with_reducible refine .pure ?_
      | exact hbranch _
      | exact hhere
      | exact trivial
      | split

theorem perform_leadsOn (env : Env) (hjump : ¬ f.Jumps a) : (perform env f c).LeadsOn i j b := by
  have hhere : (Outcome.next f.pc).LeadsOn i j b := .inl (here_leadsOn h hj)
  unfold perform
  split
  · next hop => exact performShared_leadsOn h hj hc env hop hjump
  · next hop => exact performField_leadsOn h hj hc env hop
  · next hop => exact performBattle_leadsOn h hj hc env hop
  · exact .pure hhere
  · exact .bind fun _ => .pure hhere

/-- What a command does after it waited leads on from the section, too. -/
theorem goOn_leadsOn (env : Env) (r : Awaited) : (goOn env f r).LeadsOn i j b := by
  have hhere : (Outcome.next f.pc).LeadsOn i j b := .inl (here_leadsOn h hj)
  have hself (r : Awaited) : (Outcome.await f.pc r).LeadsOn i j b := ⟨h.after, hj⟩
  have hsection (t e : FieldOp) : (Outcome.next (sectionOf f t e)).LeadsOn i j b :=
    .inl (sectionOf_leadsOn h hj hc t e)
  have hhandler (t : FieldOp) :
      (Outcome.next ((findSection f t .endBattle).getD f.pc)).LeadsOn i j b :=
    .inl (findSection_leadsOn h hj hc t _)
  cases r with
  | choice => exact takeChoice_leadsOn h hj hc
  | _ =>
    dsimp only [goOn, afterShop, answerInn, darkenInn, wakeInn, afterBattle, request]
    repeat' first
      | with_reducible refine .bind fun _ => ?_
      | with_reducible refine .ite ?_ ?_
      | with_reducible refine .pure ?_
      | exact hself _
      | exact hhandler _
      | exact hsection _ _
      | exact hhere
      | exact .inr h.block.lt_length.le
      | split

end

end Commands

namespace Frame

open Blocks

variable {env : Env} {f : Frame} {k : BlockKind} {n a b i j : Nat}

theorem InSection.lt_length (h : f.InSection k n a b i j) : f.pc < f.commands.length := by
  have hupTo := h.upTo
  have hlast := h.last
  have hb := h.block.lt_length
  omega

/-- A frame that came of one in a section: it stands in the section, or behind the block. -/
def StaysOrPasses (f : Frame) (b i j : Nat) (f' : Frame) : Prop :=
  f'.commands = f.commands ∧ f'.context = f.context ∧ (i < f'.pc ∧ f'.pc ≤ j ∨ b < f'.pc)

theorem InSection.refl (h : f.InSection k n a b i j) : f.StaysOrPasses b i j f :=
  ⟨rfl, rfl, .inl ⟨h.after, h.upTo⟩⟩

theorem InSection.of_same {f' : Frame} (h : f.InSection k n a b i j)
    (hs : f'.commands = f.commands) (hcontext : f'.context = f.context)
    (hpc : i < f'.pc ∧ f'.pc ≤ j) (hstep : f'.InStep) (hg : f'.Grounded) :
    f'.InSection k n a b i j where
  block := hs ▸ h.block
  body := hs ▸ h.body
  first := h.first
  last := h.last
  after := hpc.1
  upTo := hpc.2
  inStep := hstep
  grounded := hg
  runs := hcontext ▸ h.runs
  noLoop := h.noLoop

theorem InSection.ready (h : f.InSection k n a b i j) : f.ready.InSection k n a b i j :=
  h.of_same rfl rfl ⟨h.after, h.upTo⟩ (h.inStep.of_same rfl rfl h.inStep.pc) (grounded_of_ready rfl)

theorem InSection.settle (h : f.InSection k n a b i j) {o : Outcome} (ho : o.LeadsOn i j b)
    (hj : f.pc < j ∨ o = .next b) (w : World) :
    Ensures (f.settle env o) w fun t _ => f.StaysOrPasses b i j t.frame := by
  have hlast := h.last
  have hb := h.block.lt_length
  have hafter := h.after
  have hgoto {p : Nat} (hp : i ≤ p ∧ p < j ∨ b ≤ p) :
      f.StaysOrPasses b i j (f.goto p) := by
    refine ⟨rfl, rfl, ?_⟩
    change i < min (p + 1) f.commands.length ∧ min (p + 1) f.commands.length ≤ j ∨
      b < min (p + 1) f.commands.length
    omega
  have hpast (hne : o ≠ .next b) : f.StaysOrPasses b i j (f.goto f.pc) :=
    hgoto (.inl ⟨hafter.le, hj.resolve_right hne⟩)
  cases o with
  | next p | rest p => exact ensures_pure.2 (hgoto ho)
  | retry | animate => exact ensures_pure.2 h.refl
  | await p r => exact ensures_pure.2 ⟨rfl, rfl, .inl ⟨ho.1, ho.2.le⟩⟩
  | wait | capture | follow => exact ensures_pure.2 (hpast nofun)
  | call commands owner =>
    refine Ensures.bind (ensures_callee env f commands owner w) fun c u _ => ?_
    exact ensures_pure.2 (hpast nofun)

/-- No command that waits for an answer divides or closes a block. -/
theorem InSection.lt_of_hasAt {r : Awaited} (h : f.InSection k n a b i j)
    (hr : f.HasAt f.pc r.opcodes) : f.pc < j := by
  obtain ⟨c, hc, hop⟩ := hr
  obtain ⟨e, he, -, hdelimits⟩ := h.body.ends
  refine Nat.lt_of_le_of_ne h.upTo fun heq => ?_
  rw [heq] at hc
  cases hc.symm.trans he
  have hnot : ∀ op ∈ r.opcodes, ¬ k.Delimits op := by
    cases r <;> cases k <;> decide
  exact hnot _ hop hdelimits

theorem InSection.proceeds (h : f.InSection k n a b i j) (hjump : ¬ f.Jumps a) {w w' : World}
    {t : Turn} (hp : f.Proceeds env w t w') : f.StaysOrPasses b i j t.frame := by
  have hlt := h.lt_length
  have hrunning : f.isRunning = true := isRunning_of_mem (List.getElem_mem hlt)
  cases hp with
  | held | idles | ended => exact h.refl
  | @resumes r o u _ _ _ hk ho ht =>
    have hr : f.HasAt f.pc r.opcodes := h.grounded.goOn r hk
    have hj := h.lt_of_hasAt hr
    obtain ⟨c, hc, -⟩ := hr
    have hleads := Commands.goOn_leadsOn h.ready hj hc env r w o u ho
    exact h.ready.settle hleads (.inl hj) u t w' ht
  | @performs c o u _ _ _ hk hc ho ht =>
    rcases Nat.lt_or_eq_of_le h.upTo with hj | heq
    · have hleads := Commands.perform_leadsOn h hj hc env hjump w o u ho
      exact h.settle hleads (.inl hj) u t w' ht
    · obtain ⟨e, he, hen, hdelimits⟩ := h.body.ends
      have hfirst := h.first
      have hafter := h.after
      rw [← heq] at he
      cases hc.symm.trans he
      have hnext := perform_delimiter (u := w) env h.inStep h.block h.runs h.noLoop (by omega)
        (h.upTo.trans h.last) hc hen hdelimits
      cases ho.symm.trans hnext
      have hleads : (Outcome.next b).LeadsOn i j b := .inr (Nat.le_refl b)
      exact h.settle hleads (.inr rfl) w t w' ht
  | finishes hk hc =>
    rw [List.getElem?_eq_getElem hlt] at hc
    cases hc
  | starts hrun =>
    rw [hrunning] at hrun
    cases hrun

/-- In a turn, a frame in a section stays in it or goes past the block, unless it jumps. -/
theorem InSection.turn (h : f.InSection k n a b i j) (hjump : ¬ f.Jumps a) (w : World) :
    Ensures (f.turn env) w fun t _ => t.frame.InSection k n a b i j ∨ b < t.frame.pc := by
  intro t w' ht
  have hstays : f.StaysOrPasses b i j t.frame := by
    cases turns_of_turn env f w t w' ht with
    | reads | follows | polls | counts => exact h.refl
    | followed _ _ hp | hits _ _ hp => exact h.ready.proceeds hjump hp
    | goes _ _ hp => exact h.proceeds hjump hp
  obtain ⟨hs, hcontext, hin | hpast⟩ := hstays
  · obtain ⟨hstep, -⟩ := inStep_of_turn env h.grounded h.inStep w t w' ht
    obtain ⟨hg, -⟩ := grounded_of_turn env h.grounded w t w' ht
    exact .inl (h.of_same hs hcontext hin hstep hg)
  · exact .inr hpast

/-! ## Runs -/

/-- A run of a frame, in whatever worlds it finds, for as long as it stands in a block, up to its
end, and does not jump. What it calls runs in between. -/
inductive Walks (d : Database) (a b : Nat) (f : Frame) : Frame → Prop
  | rests : Walks d a b f f
  | forgets {g : Frame} (h : Walks d a b f g) (mapId : Number) : Walks d a b f (g.forgetOwner mapId)
  | turns {g : Frame} {host : Host} {w w' : World} {t : Turn} (h : Walks d a b f g)
      (hin : a < g.pc ∧ g.pc ≤ b) (hjump : ¬ g.Jumps a) (ht : g.turn ⟨d, host⟩ w = .ok (t, w')) :
      Walks d a b f t.frame

theorem InSection.forgetOwner (h : f.InSection k n a b i j) (mapId : Number) :
    (f.forgetOwner mapId).InSection k n a b i j := by
  have hstep := h.inStep.forgetOwner mapId
  have hg := h.grounded.forgetOwner mapId
  unfold Frame.forgetOwner at hstep hg ⊢
  split at hstep
  · next hsame => rwa [if_pos hsame]
  · next hother =>
    rw [if_neg hother] at hg ⊢
    exact h.of_same rfl rfl ⟨h.after, h.upTo⟩ hstep hg

/-- As long as a frame stands in a block and does not jump, it runs commands of one section. -/
theorem Walks.in_section {d : Database} {g : Frame} (hw : Walks d a b f g)
    (h : f.InSection k n a b i j) : g.InSection k n a b i j ∨ b < g.pc := by
  induction hw with
  | rests => exact .inl h
  | @forgets g _ mapId ih =>
    refine ih.imp (fun hg => hg.forgetOwner mapId) fun hpast => ?_
    unfold Frame.forgetOwner
    split <;> exact hpast
  | turns hw hin hjump ht ih =>
    rcases ih with hg | hpast
    · exact hg.turn hjump _ _ _ ht
    · omega

end Frame

end EventScript
