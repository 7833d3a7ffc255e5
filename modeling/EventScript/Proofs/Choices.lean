import EventScript.Proofs.Answers

/-!
# The options of a choice

What the window shows of a choice is found by one scan of the list, and where the event goes on when
it was made by another. Neither asks whether the list is well-formed.

* `Blocks.options` are the options behind a command with their places, and `Blocks.choiceEnd?` is
  the place where the choice is closed. `mem_options_iff` tells from the places alone which they
  are.
* `Commands.findOption_eq_seek`: the second scan repeats one search from option to option.
* `Blocks.scanOptions_eq` and `Commands.findOption_eq`: both scans go through these options.
* `Frame.shows_what_it_takes` puts them together for a command at any place of any list.
-/

namespace EventScript

open Act

namespace Blocks

variable {cs : List Command} {n : Number} {p i : Nat} {c : Command} {x : Command × Nat}
  {xs : List (Command × Nat)}

/-! ## The options behind a command -/

/-- An option at an indent. -/
def IsOption (n : Number) (c : Command) : Prop :=
  c.indent = n ∧ c.code = SharedOp.showChoiceOption.code

instance (n : Number) (c : Command) : Decidable (IsOption n c) :=
  inferInstanceAs (Decidable (_ ∧ _))

/-- The end of a choice at an indent. -/
def IsChoiceEnd (n : Number) (c : Command) : Prop :=
  c.indent = n ∧ c.code = SharedOp.showChoiceEnd.code

instance (n : Number) (c : Command) : Decidable (IsChoiceEnd n c) :=
  inferInstanceAs (Decidable (_ ∧ _))

/-- Whether no option at an indent comes behind a command: it stands less deep, or closes the
choice. -/
def EndsOptions (n : Number) (c : Command) : Prop := c.indent < n ∨ IsChoiceEnd n c

instance (n : Number) (c : Command) : Decidable (EndsOptions n c) :=
  inferInstanceAs (Decidable (_ ∨ _))

/-- The options among commands that are given with their places. -/
def optionsOf (n : Number) (xs : List (Command × Nat)) : List (Command × Nat) :=
  (xs.takeWhile fun x => ¬ EndsOptions n x.1).filter fun x => IsOption n x.1

/-- The place of the command that closes the choice, if the list does not go on less deep before. -/
def choiceEndOf? (n : Number) (xs : List (Command × Nat)) : Option Nat :=
  (xs.find? fun x => EndsOptions n x.1).bind fun x => if IsChoiceEnd n x.1 then some x.2 else none

/-- The commands behind a place, with their places. -/
def behind (cs : List Command) (p : Nat) : List (Command × Nat) :=
  (cs.drop (p + 1)).zipIdx (p + 1)

/-- The options at an indent behind a place. -/
def options (cs : List Command) (p : Nat) (n : Number) : List (Command × Nat) :=
  optionsOf n (behind cs p)

/-- The place where the choice at an indent behind a place is closed. -/
def choiceEnd? (cs : List Command) (p : Nat) (n : Number) : Option Nat :=
  choiceEndOf? n (behind cs p)

theorem IsOption.not_ends (h : IsOption n c) : ¬ EndsOptions n c := by
  rintro (hless | ⟨-, hcode⟩)
  · exact absurd h.1 (Int32.ne_of_lt hless)
  · exact absurd (h.2.symm.trans hcode) (by decide)

section

variable (hends : EndsOptions n x.1)

include hends

theorem optionsOf_cons_of_ends : optionsOf n (x :: xs) = [] := by
  simp [optionsOf, hends]

theorem choiceEndOf?_cons_of_ends :
    choiceEndOf? n (x :: xs) = if IsChoiceEnd n x.1 then some x.2 else none := by
  simp [choiceEndOf?, hends]

end

section

variable (hends : ¬ EndsOptions n x.1)

include hends

theorem optionsOf_cons : optionsOf n (x :: xs) =
    if IsOption n x.1 then x :: optionsOf n xs else optionsOf n xs := by
  simp [optionsOf, hends, List.filter_cons]

theorem choiceEndOf?_cons : choiceEndOf? n (x :: xs) = choiceEndOf? n xs := by
  simp [choiceEndOf?, hends]

end

theorem mem_takeWhile_zipIdx {q : Command → Bool} (cs : List Command) (start : Nat) :
    x ∈ (cs.zipIdx start).takeWhile (fun x => q x.1) ↔ ∃ m, x.2 = start + m ∧
      cs[m]? = some x.1 ∧ ∀ j y, j ≤ m → cs[j]? = some y → q y = true := by
  induction cs generalizing start with
  | nil => simp
  | cons c cs ih =>
    rw [List.zipIdx_cons, List.takeWhile_cons]
    split
    · next hc =>
      rw [List.mem_cons, ih]
      constructor
      · rintro (rfl | ⟨m, hm, hx, hq⟩)
        · refine ⟨0, rfl, rfl, fun j y hj hy => ?_⟩
          obtain rfl := Nat.le_zero.1 hj
          cases hy
          exact hc
        · refine ⟨m + 1, by omega, hx, fun j y hj hy => ?_⟩
          cases j with
          | zero =>
            cases hy
            exact hc
          | succ j => exact hq j y (by omega) hy
      · rintro ⟨m, hm, hx, hq⟩
        cases m with
        | zero =>
          cases hx
          exact .inl (Prod.ext rfl hm)
        | succ m => exact .inr ⟨m, by omega, hx, fun j y hj hy => hq (j + 1) y (by omega) hy⟩
    · next hc =>
      refine iff_of_false List.not_mem_nil fun ⟨m, _, _, hq⟩ => ?_
      exact hc (hq 0 c (Nat.zero_le m) rfl)

/-- The options are those that come before the first command that stands less deep or closes the
choice. -/
theorem mem_options_iff : (c, i) ∈ options cs p n ↔ p < i ∧ cs[i]? = some c ∧ IsOption n c ∧
    ∀ j x, p < j → j < i → cs[j]? = some x → ¬ EndsOptions n x := by
  rw [options, optionsOf, List.mem_filter, decide_eq_true_eq, behind,
    mem_takeWhile_zipIdx (q := fun x => ¬ EndsOptions n x)]
  simp only [List.getElem?_drop, decide_eq_true_eq]
  constructor
  · rintro ⟨⟨m, rfl, hc, hbefore⟩, hoption⟩
    refine ⟨by omega, hc, hoption, fun j x hj hlt hx => ?_⟩
    obtain ⟨k, rfl⟩ := Nat.exists_eq_add_of_le hj
    exact hbefore k x (by omega) hx
  · rintro ⟨hi, hc, hoption, hbefore⟩
    obtain ⟨m, rfl⟩ := Nat.exists_eq_add_of_le hi
    refine ⟨⟨m, rfl, hc, fun j x hj hx => ?_⟩, hoption⟩
    rcases Nat.lt_or_eq_of_le hj with hlt | rfl
    · exact hbefore _ x (by omega) (by omega) hx
    · cases hx.symm.trans hc
      exact hoption.not_ends

/-- The options come in the order of their places. -/
theorem pairwise_options (cs : List Command) (p : Nat) (n : Number) :
    (options cs p n).Pairwise fun x y => x.2 < y.2 := by
  have hbehind : (behind cs p).Pairwise fun x y => x.2 < y.2 := by
    rw [← List.pairwise_map (f := Prod.snd), behind, List.zipIdx_map_snd]
    exact List.pairwise_lt_range'
  exact (hbehind.sublist (List.takeWhile_sublist _)).filter _

/-- The option that is found first stands before all others like it. -/
theorem le_of_find?_options {q : Command × Nat → Bool} {x y : Command × Nat}
    (hx : (options cs p n).find? q = some x) (hy : y ∈ options cs p n) (hq : q y = true) :
    x.2 ≤ y.2 := by
  obtain ⟨-, before, rest, hsplit, hbefore⟩ := List.find?_eq_some_iff_append.1 hx
  have horder := pairwise_options cs p n
  rw [hsplit] at hy horder
  obtain ⟨-, hrest, -⟩ := List.pairwise_append.1 horder
  rcases List.mem_append.1 hy with hin | hin
  · have hnot := hbefore y hin
    rw [hq] at hnot
    cases hnot
  · rcases List.mem_cons.1 hin with rfl | hin
    · exact Nat.le_refl _
    · exact Nat.le_of_lt ((List.pairwise_cons.1 hrest).1 y hin)

/-- The choice is closed by the first command that could, if the list does not go on less deep
before. -/
theorem choiceEnd?_eq_some_iff : choiceEnd? cs p n = some i ↔ p < i ∧
    (∃ c, cs[i]? = some c ∧ IsChoiceEnd n c) ∧
    ∀ j x, p < j → j < i → cs[j]? = some x → ¬ EndsOptions n x := by
  have hfind : choiceEnd? cs p n = some i ↔
      ∃ x, (behind cs p).find? (fun x => EndsOptions n x.1) = some x ∧
        IsChoiceEnd n x.1 ∧ x.2 = i := by
    rw [choiceEnd?, choiceEndOf?, Option.bind_eq_some_iff]
    refine exists_congr fun x => and_congr_right fun _ => ?_
    split
    · next hend => simp [hend]
    · next hend => simp [hend]
  rw [hfind]
  simp only [List.find?_eq_some_iff_getElem, behind, List.getElem_zipIdx, List.length_zipIdx,
    List.getElem_drop, List.length_drop]
  constructor
  · rintro ⟨x, ⟨hends, m, hm, rfl, hbefore⟩, hend, rfl⟩
    refine ⟨by dsimp only; omega, ⟨_, List.getElem?_eq_getElem _, hend⟩, fun j y hj hlt hy => ?_⟩
    obtain ⟨k, rfl⟩ := Nat.exists_eq_add_of_le hj
    obtain ⟨_, rfl⟩ := List.getElem?_eq_some_iff.1 hy
    simpa using hbefore k (by dsimp only at hlt; omega)
  · rintro ⟨hi, ⟨c, hc, hend⟩, hbefore⟩
    obtain ⟨m, rfl⟩ := Nat.exists_eq_add_of_le hi
    obtain ⟨hlt, rfl⟩ := List.getElem?_eq_some_iff.1 hc
    refine ⟨(_, p + 1 + m), ⟨decide_eq_true (.inr hend), m, by omega, rfl, fun j hj => ?_⟩, hend,
      rfl⟩
    simpa using hbefore (p + 1 + j) _ (by omega) (by omega) (List.getElem?_eq_getElem _)

/-- The place behind which an event goes on when a choice was made: the first option with its
number, or else the end of the choice, or else the command itself. -/
def chosenPlace (cs : List Command) (p : Nat) (n r : Number) : Nat :=
  match (options cs p n).find? fun x => x.1.param 0 = r with
  | some x => x.2
  | none => (choiceEnd? cs p n).getD p

theorem chosenPlace_lt_length (hp : p < cs.length) (n r : Number) :
    chosenPlace cs p n r < cs.length := by
  unfold chosenPlace
  split
  · next x hx =>
    obtain ⟨-, hget, -⟩ := mem_options_iff.1 (List.mem_of_find?_eq_some hx)
    exact (List.getElem?_eq_some_iff.1 hget).1
  · cases hend : choiceEnd? cs p n with
    | none => exact hp
    | some e =>
      obtain ⟨-, ⟨c, hc, -⟩, -⟩ := choiceEnd?_eq_some_iff.1 hend
      exact (List.getElem?_eq_some_iff.1 hc).1

/-! ## What the window shows -/

/-- The scan for what is shown goes through the options, and shows the first four numbers. -/
theorem scanOptions_eq (n : Number) (xs : List (Command × Nat)) :
    scanOptions n (xs.map Prod.fst) =
      ((optionsOf n xs).filter fun x => x.1.param 0 < 4).map fun x => x.1.text := by
  induction xs with
  | nil => rfl
  | cons x xs ih =>
    rw [List.map_cons, scanOptions]
    split
    · next hless => rw [optionsOf_cons_of_ends (.inl hless)]; rfl
    · next hlow =>
      split
      · next hdeeper =>
        have hends : ¬ EndsOptions n x.1 := fun h => h.elim hlow fun h => hdeeper h.1
        rw [optionsOf_cons hends, if_neg fun h => hdeeper h.1, ih]
      · next hsame =>
        have hsame : x.1.indent = n := not_not.1 hsame
        split
        · next hshown =>
          have hoption : IsOption n x.1 := ⟨hsame, hshown.1⟩
          rw [optionsOf_cons hoption.not_ends, if_pos hoption, List.filter_cons,
            if_pos (decide_eq_true hshown.2), ih]
          rfl
        · next hhidden =>
          split
          · next hend => rw [optionsOf_cons_of_ends (.inr ⟨hsame, hend⟩)]; rfl
          · next hopen =>
            have hends : ¬ EndsOptions n x.1 := fun h => h.elim hlow fun h => hopen h.2
            rw [optionsOf_cons hends, ih]
            by_cases hoption : IsOption n x.1
            · have hnumber : ¬ x.1.param 0 < 4 := fun h => hhidden ⟨hoption.2, h⟩
              rw [if_pos hoption, List.filter_cons, if_neg (by simpa using hnumber)]
            · rw [if_neg hoption]

theorem optionTexts_eq (cs : List Command) (p : Nat) (n : Number) :
    optionTexts cs (p + 1) n =
      ((options cs p n).filter fun x => x.1.param 0 < 4).map fun x => x.1.text := by
  rw [optionTexts, options, ← scanOptions_eq, behind, List.zipIdx_map_fst]

end Blocks

/-! ## Where the event goes on -/

namespace Commands

open Blocks

/-- The scan for the option that was taken repeats one search, for an option or the end of the
choice: it starts anew behind every option that has another number. -/
theorem findOption_eq_seek (n r : Number) (cs : List Command) (start : Nat) :
    findOption n r start (cs.drop start) =
      match seek cs start SharedOp.showChoiceOption.code SharedOp.showChoiceEnd.code n n with
      | none => none
      | some i =>
        if (cs[i]?).any fun c => c.code = SharedOp.showChoiceEnd.code ∨ c.param 0 = r then some i
        else findOption n r (i + 1) (cs.drop (i + 1)) := by
  rw [seek]
  -- on what is left of the list
  induction hleft : cs.drop start generalizing start with
  | nil => rfl
  | cons c left ih =>
    have hc : cs[start]? = some c := by rw [← List.head?_drop, hleft, List.head?_cons]
    have hnext : cs.drop (start + 1) = left := by rw [← List.tail_drop, hleft, List.tail_cons]
    rw [findOption, scanForward]
    split
    · rfl
    · split
      · exact ih (start + 1) hnext
      · split
        · next hend => simp [hc, hend]
        · next hopen =>
          split
          · next htaken => simp [hc, htaken]
          · next hpassed =>
            by_cases hoption : c.code = SharedOp.showChoiceOption.code
            · have hnumber : c.param 0 ≠ r := fun h => hpassed ⟨hoption, h⟩
              rw [if_pos (.inl hoption)]
              simp [hc, hopen, hnumber, hnext]
            · rw [if_neg (not_or.2 ⟨hoption, hopen⟩)]
              exact ih (start + 1) hnext

/-- The scan for the option that was taken goes through the same options, and then to the end of the
choice. -/
theorem findOption_eq (n r : Number) (cs : List Command) (i : Nat) :
    findOption n r i cs =
      (((optionsOf n (cs.zipIdx i)).find? fun x => x.1.param 0 = r).map Prod.snd).or
        (choiceEndOf? n (cs.zipIdx i)) := by
  induction cs generalizing i with
  | nil => rfl
  | cons c cs ih =>
    rw [List.zipIdx_cons, findOption]
    split
    · next hless =>
      have hends : EndsOptions n c := .inl hless
      rw [optionsOf_cons_of_ends (x := (c, i)) hends, choiceEndOf?_cons_of_ends (x := (c, i)) hends,
        if_neg fun h => Int32.ne_of_lt hless h.1]
      rfl
    · next hlow =>
      split
      · next hdeeper =>
        have hne : c.indent ≠ n := fun h => Int32.ne_of_lt hdeeper h.symm
        have hends : ¬ EndsOptions n c := fun h => h.elim hlow fun h => hne h.1
        rw [optionsOf_cons (x := (c, i)) hends, choiceEndOf?_cons (x := (c, i)) hends,
          if_neg fun h => hne h.1, ih]
      · next hhigh =>
        have hsame : c.indent = n := Int32.le_antisymm (Int32.not_lt.1 hhigh) (Int32.not_lt.1 hlow)
        split
        · next hend =>
          have hends : IsChoiceEnd n c := ⟨hsame, hend⟩
          rw [optionsOf_cons_of_ends (x := (c, i)) (.inr hends),
            choiceEndOf?_cons_of_ends (x := (c, i)) (.inr hends), if_pos hends]
          rfl
        · next hopen =>
          have hends : ¬ EndsOptions n c := fun h => h.elim hlow fun h => hopen h.2
          rw [optionsOf_cons (x := (c, i)) hends, choiceEndOf?_cons (x := (c, i)) hends]
          split
          · next htaken =>
            have hoption : IsOption n c := ⟨hsame, htaken.1⟩
            rw [if_pos hoption, List.find?_cons, decide_eq_true htaken.2]
            rfl
          · next hpassed =>
            rw [ih]
            by_cases hoption : IsOption n c
            · have hnumber : ¬ c.param 0 = r := fun h => hpassed ⟨hoption.2, h⟩
              rw [if_pos hoption, List.find?_cons, decide_eq_false hnumber]
            · rw [if_neg hoption]

theorem takeChoice_eq {f : Frame} {c : Command} (hc : f.commands[f.pc]? = some c) (w : World) :
    takeChoice f w =
      .ok (.next (chosenPlace f.commands f.pc c.indent w.game.message.choiceResult), w) := by
  rw [takeChoice, getGame_bind]
  simp only [hc, findOption_eq, chosenPlace, options, choiceEnd?, behind]
  cases (optionsOf c.indent ((f.commands.drop (f.pc + 1)).zipIdx (f.pc + 1))).find?
      fun x => x.1.param 0 = w.game.message.choiceResult <;> rfl

end Commands

namespace Frame

open Blocks

variable {env : Env} {f : Frame} {w : World} {c : Command}

/-- At a place of any list, be it well-formed or not, let the options be those at the indent of the
command there which come before the list goes on less deep or closes the choice. The window shows
those of them whose number is less than four, and a frame that waits for the choice goes on behind
the first of them that has the number of the choice. If there is none, it goes on behind the command
that closes the choice, or else behind its own command. -/
theorem shows_what_it_takes (hc : f.commands[f.pc]? = some c) :
    optionTexts f.commands (f.pc + 1) c.indent =
      ((options f.commands f.pc c.indent).filter fun x => x.1.param 0 < 4).map (·.1.text) ∧
    (f.pause = .goOn .choice → f.isFree w.game = true → f.turn env w = .ok ({
      frame := { f with
        pc := (match (options f.commands f.pc c.indent).find? fun x =>
            x.1.param 0 = w.game.message.choiceResult with
          | some x => x.2
          | none => (choiceEnd? f.commands f.pc c.indent).getD f.pc) + 1
        pause := .ready }
      signal := .again }, w)) := by
  refine ⟨optionTexts_eq _ _ _, fun hk hfree => ?_⟩
  let place := chosenPlace f.commands f.pc c.indent w.game.message.choiceResult
  have hplace : place + 1 ≤ f.commands.length :=
    chosenPlace_lt_length (List.getElem?_eq_some_iff.1 hc).1 _ _
  have hgoto : f.ready.goto place = { f with pc := place + 1, pause := .ready } := by
    rw [goto, show min (place + 1) f.ready.commands.length = place + 1 from Nat.min_eq_left hplace]
    rfl
  calc f.turn env w
    _ = (do f.ready.settle env (← Commands.takeChoice f.ready)) w := turn_of_free hk hfree
    _ = f.ready.settle env (.next place) w :=
      bind_of_ok (Commands.takeChoice_eq (f := f.ready) hc w)
    _ = .ok ({ frame := f.ready.goto place, signal := .again }, w) := rfl
    _ = .ok ({ frame := { f with pc := place + 1, pause := .ready }, signal := .again }, w) := by
      rw [hgoto]

/-- A choice among options of all depths, which is closed only behind its section. -/
def crooked : List Command := [
  { code := SharedOp.showChoice.code, indent := 1 },
  { code := SharedOp.showChoiceOption.code, indent := 2, text := "Deep", params := [3] },
  { code := SharedOp.showChoiceOption.code, indent := 1, text := "Rest", params := [3] },
  { code := SharedOp.showChoiceOption.code, indent := 1, text := "Cancel", params := [7] },
  { code := SharedOp.showChoiceOption.code, indent := 1, text := "Rest again", params := [3] },
  { code := SharedOp.showChoiceOption.code, text := "Outside", params := [5] },
  { code := SharedOp.showChoiceEnd.code, indent := 1 }]

/-- The option with the number seven is not shown, but can be taken; the one with the number five
cannot. -/
theorem crooked_takes_hidden : optionTexts crooked 1 1 = ["Rest", "Rest again"] ∧
    ∃ (f : Frame) (w u : World), f.commands = crooked ∧ f.pc = 0 ∧
      w.game.message.choiceResult = 7 ∧ u.game.message.choiceResult = 5 ∧
      f.turn { data := {}, host := {} } w =
        .ok ({ frame := { f with pc := 4, pause := .ready }, signal := .again }, w) ∧
      f.turn { data := {}, host := {} } u =
        .ok ({ frame := { f with pc := 1, pause := .ready }, signal := .again }, u) := by
  let f : Frame :=
    { context := .field, depth := 0, isRoot := false, commands := crooked, pause := .goOn .choice }
  let g : Game := Game.begin {} default
  let answered (n : Number) : World :=
    { game := { g with message := { g.message with choiceResult := n } } }
  obtain ⟨hshown, htaken⟩ := @shows_what_it_takes { data := {}, host := {} } f (answered 7) _ rfl
  obtain ⟨-, hmissed⟩ := @shows_what_it_takes { data := {}, host := {} } f (answered 5) _ rfl
  exact ⟨hshown, f, answered 7, answered 5, rfl, rfl, rfl, rfl, htaken rfl rfl, hmissed rfl rfl⟩

end Frame

end EventScript
