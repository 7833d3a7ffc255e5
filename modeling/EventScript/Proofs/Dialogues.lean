import Mathlib.Algebra.Group.Int.Defs
import EventScript.Proofs.CallDepth
import EventScript.Proofs.Execution
import EventScript.Proofs.Windows
import EventScript.Terminal.Play

/-!
# Dialogues

While a window asks for a choice or a number, the terminal asks for one line after the other until
one of them closes the window or the input ends.

* `Terminal.dialogue` shows the window of a message and takes lines that are typed.
* `Director.Closes` is what a number does that closes the window. It takes a choice that is shown
  and not disabled, cancels, or goes to the variable that was asked for.
* `Terminal.Idle` tells which lines do nothing, and `Terminal.responds` that there is one number
  only that does neither.
* `Terminal.dialogue_course`: lines do nothing up to the first that closes the window. The lowest of
  all numbers fails where a choice is asked for, since the terminal subtracts one before it looks at
  the range.
-/

namespace EventScript

open Act

/-! ## Lines one after the other -/

namespace Terminal

/-- Answers a question with one line after the other until the game goes on or the play is over. The
input ends behind the last line. Tells what follows and which lines were not read. -/
def converse (q : Question) : List String → Directing (Next × List String)
  | [] => do
    let r ← respond q none
    return (r.next, [])
  | line :: lines => do
    let r ← respond q (some line)
    match r.next with
    | .ask q => converse q lines
    | next => return (next, lines)

/-- Shows the window of a message and takes lines. -/
def dialogue (lines : List String) : Directing (Next × List String) := do
  let r ← present .message
  match r.next with
  | .ask q => converse q lines
  | next => return (next, lines)

/-- The number on a line, if there is nothing else on it. -/
def typed (line : String) : Option Number := Text.number? (Text.trim line)

variable {q : Question} {line : String} {lines : List String} {d d' : Director} {r : Reply}

theorem converse_of_again (h : respond q (some line) d = .ok (r, d)) (hr : r.next = .ask q) :
    converse q (line :: lines) d = converse q lines d := by
  rw [converse, bind_of_ok h, hr]

theorem converse_of_resume (h : respond q (some line) d = .ok (.resume, d')) :
    converse q (line :: lines) d = .ok ((.resume, lines), d') := by
  rw [converse, bind_of_ok h]
  rfl

theorem converse_of_error {e : Fault} (h : respond q (some line) d = .error e) :
    converse q (line :: lines) d = .error e := by
  rw [converse, bind_of_error h]

end Terminal

/-! ## What closes a window -/

namespace Director

/-- The director after a choice was made. -/
def answered (d : Director) (choice : Number) : Director :=
  { d with world := { d.world with game := { d.game with
    message := { d.game.message with choiceResult := choice }.close } } }

/-- The director after a number was given, with what became of the variables. -/
def entered (d : Director) (v : Variables) (warnings : Array Warning) : Director :=
  { d with world := { d.world with
    game := { d.game with
      vars := v
      field := { d.game.field with needRefresh := true }
      message := d.game.message.close }
    warnings } }

/-- A number closes the window. Zero cancels where that is possible. Any other number takes the
choice that is shown with it, unless that is disabled. Where a number is asked for, it is brought
into the range of its digits and then between the limits of variables. -/
inductive Closes (d : Director) (n : Number) : Director → Prop
  | cancels (hasks : d.game.message.offersChoices = true) (hn : n = 0)
      (hcancel : 0 < d.game.message.choiceCancelType) :
      Closes d n (d.answered (if d.game.message.choiceCancelType = 5 then 4
        else d.game.message.choiceCancelType - 1))
  | chooses (hasks : d.game.message.offersChoices = true) {k : Nat} {choice : Number}
      (hn : n.toInt = k + 1) (hchoice : choice.toInt = k)
      (hshown : k < d.game.message.choices.length) (hmax : k < d.game.message.choiceMax)
      (henabled : d.game.message.choiceDisabled.getD k false = false) :
      Closes d n (d.answered choice)
  | enters (hasks : d.game.message.offersChoices = false) {v : Variables}
      {warnings : Array Warning}
      (hv : ∀ id, (v.get id).toInt =
        if id = d.game.message.numberVariable ∧ 0 < id.toInt then
          min (max (min (max n.toInt 0)
            (min (10 ^ (max d.game.message.numberDigits 1).toInt.toNat) 2147483647 - 1))
              d.game.vars.low.toInt) d.game.vars.high.toInt
        else (d.game.vars.get id).toInt)
      (hlimits : v.low = d.game.vars.low ∧ v.high = d.game.vars.high) :
      Closes d n (d.entered v warnings)

end Director

namespace Terminal

open Director

/-- A number does nothing where a choice is asked for, if it takes none and does not cancel. -/
structure Refused (d : Director) (n : Number) : Prop where
  asks : d.game.message.offersChoices = true
  not_lowest : n ≠ Int32.minValue
  not_closes : ∀ d', ¬ Closes d n d'

/-- A line does nothing: it is no number, or one that does nothing. -/
def Idle (d : Director) (line : String) : Prop := ∀ n, typed line = some n → Refused d n

/-! ## Choices -/

section Choices

variable {d : Director} {n choice : Number}

theorem usable_iff {m : Message} : usable m choice = true ↔
    ∃ k : Nat, choice.toInt = k ∧ k < m.choiceMax ∧ m.choiceDisabled.getD k false = false := by
  unfold usable Number.index?
  by_cases hneg : choice.toInt < 0
  · rw [if_pos hneg]
    simp only [Bool.false_eq_true, false_iff]
    rintro ⟨k, hk, -⟩
    omega
  · rw [if_neg hneg]
    simp only [Bool.and_eq_true, decide_eq_true_eq, Bool.not_eq_true']
    constructor
    · intro h
      exact ⟨choice.toInt.toNat, by omega, h⟩
    · rintro ⟨k, hk, h⟩
      obtain rfl : choice.toInt.toNat = k := by omega
      exact h

theorem dismiss_eq (d : Director) (choice : Number) :
    dismiss (some choice) d = .ok ((), d.answered choice) :=
  Directing.act_of_ok rfl

theorem answerChoice_of_cancel (hn : n = 0) (hcancel : 0 < d.game.message.choiceCancelType) :
    answerChoice n d =
      .ok (.resume, d.answered (cancelChoice d.game.message.choiceCancelType)) := by
  have hguard : (n = 0 && 0 < d.game.message.choiceCancelType) = true := by
    simpa using ⟨hn, hcancel⟩
  rw [answerChoice, Directing.getGame_bind, if_pos hguard]
  exact bind_of_ok (dismiss_eq d _)

/-- What becomes of a number that does not cancel hangs on its predecessor. -/
theorem answerChoice_of_not_cancel (h : ¬ (n = 0 ∧ 0 < d.game.message.choiceCancelType)) :
    answerChoice n d = (do
      let choice ← check (Checked.sub n 1)
      if usable d.game.message choice then
        dismiss (some choice)
        return .resume
      return .ask [.dim "not a choice"] .choice : Directing Reply) d := by
  have hguard : ¬ (n = 0 && 0 < d.game.message.choiceCancelType) = true := by
    simpa using h
  rw [answerChoice, Directing.getGame_bind, if_neg hguard]

theorem answerChoice_of_lowest : answerChoice Int32.minValue d = .error (.overflow .sub) := by
  rw [answerChoice_of_not_cancel fun h => absurd h.1 (by decide)]
  exact bind_of_error (Directing.act_of_error rfl)

theorem answerChoice_of_usable (hsub : Checked.sub n 1 = .ok choice)
    (hne : ¬ (n = 0 ∧ 0 < d.game.message.choiceCancelType))
    (husable : usable d.game.message choice = true) :
    answerChoice n d = .ok (.resume, d.answered choice) := by
  rw [answerChoice_of_not_cancel hne, Directing.check_bind hsub, if_pos husable]
  exact bind_of_ok (dismiss_eq d choice)

theorem answerChoice_of_unusable (hsub : Checked.sub n 1 = .ok choice)
    (hne : ¬ (n = 0 ∧ 0 < d.game.message.choiceCancelType))
    (husable : usable d.game.message choice = false) :
    answerChoice n d = .ok (.ask [.dim "not a choice"] .choice, d) := by
  rw [answerChoice_of_not_cancel hne, Directing.check_bind hsub,
    if_neg (Bool.eq_false_iff.1 husable)]
  rfl

/-- Where a choice is asked for, a number closes the window, or does nothing, or is the lowest. -/
theorem answerChoice_cases (hm : d.game.message.Consistent)
    (hasks : d.game.message.offersChoices = true) (n : Number) :
    (∃ d', Closes d n d' ∧ answerChoice n d = .ok (.resume, d')) ∨
      (n = Int32.minValue ∧ answerChoice n d = .error (.overflow .sub)) ∨
      Refused d n ∧ answerChoice n d = .ok (.ask [.dim "not a choice"] .choice, d) := by
  by_cases hcancel : n = 0 ∧ 0 < d.game.message.choiceCancelType
  · exact .inl ⟨_, .cancels hasks hcancel.1 hcancel.2,
      answerChoice_of_cancel hcancel.1 hcancel.2⟩
  by_cases hlowest : n = Int32.minValue
  · subst hlowest
    exact .inr (.inl ⟨rfl, answerChoice_of_lowest⟩)
  obtain ⟨choice, hsub⟩ := Checked.exists_sub_one_iff.2 hlowest
  have hexact : choice.toInt = n.toInt - 1 := Checked.fit_eq_ok_iff.1 hsub
  cases husable : usable d.game.message choice with
  | true =>
    obtain ⟨k, hk, hmax, henabled⟩ := usable_iff.1 husable
    have hshown : k < d.game.message.choices.length := by
      obtain ⟨start, hstart⟩ := Option.isSome_iff_exists.1 hasks
      have hlength := (hm.choices start hstart).1
      simp only [Message.choices, hstart, List.length_drop]
      omega
    exact .inl ⟨_, .chooses hasks (by omega) hk hshown hmax henabled,
      answerChoice_of_usable hsub hcancel husable⟩
  | false =>
    have hstays : ∀ d', ¬ Closes d n d' := by
      intro d' hcloses
      cases hcloses with
      | cancels _ hn hpos => exact hcancel ⟨hn, hpos⟩
      | chooses _ hn _ _ hmax henabled =>
        exact absurd (usable_iff.2 ⟨_, by omega, hmax, henabled⟩) (Bool.eq_false_iff.1 husable)
      | enters hnone => exact Bool.false_ne_true (hnone.symm.trans hasks)
    exact .inr (.inr ⟨⟨hasks, hlowest, hstays⟩, answerChoice_of_unusable hsub hcancel husable⟩)

end Choices

/-! ## Numbers -/

section Numbers

variable {d : Director}

/-- The largest number of some digits is one below a power of ten, as far as numbers reach. -/
theorem toInt_largest (digits : Nat) :
    (largest digits).toInt = min (10 ^ digits) 2147483647 - 1 := by
  unfold largest
  by_cases hfew : digits < 10
  · rw [if_pos hfew]
    revert digits
    decide
  · rw [if_neg hfew]
    have hpow : 10 ^ 10 ≤ 10 ^ digits := Nat.pow_le_pow_right (by decide) (by omega)
    have hcast : ((10 ^ digits : Nat) : Int) = (10 : Int) ^ digits := by simp
    show (2147483646 : Int) = _
    omega

theorem gives_setVariable (id value : Number) (w : World) :
    (setVariable id value).Gives w () { w.game with vars := w.game.vars.set id value } := by
  unfold setVariable
  by_cases hid : id.toInt ≤ 0
  · rw [if_pos hid]
    exact ⟨w.warnings.push .invalidVariable, rfl⟩
  · rw [if_neg hid]
    exact ⟨w.warnings, rfl⟩

theorem exists_enterNumber (d : Director) (value : Number) : ∃ warnings, enterNumber value d =
    .ok ((), d.entered (d.game.vars.set d.game.message.numberVariable value) warnings) := by
  obtain ⟨warnings, hset⟩ := gives_setVariable d.game.message.numberVariable value d.world
  refine ⟨warnings, ?_⟩
  rw [enterNumber, Directing.getGame_bind, Directing.act_bind hset]
  refine (Directing.act_bind (a := needRefresh) rfl _).trans ?_
  exact Directing.act_of_ok (a := modifyGame _) rfl

/-- Any number closes a window that asks for one. -/
theorem answerNumber_closes (hasks : d.game.message.offersChoices = false) (n : Number) :
    ∃ d', Closes d n d' ∧
      answerNumber (max d.game.message.numberDigits 1).toInt.toNat n d = .ok (.resume, d') := by
  let value := Number.clamp 0 (largest (max d.game.message.numberDigits 1).toInt.toNat) n
  have hvalue : value.toInt = min (max n.toInt 0)
      (min (10 ^ (max d.game.message.numberDigits 1).toInt.toNat) 2147483647 - 1) := by
    rw [Number.toInt_clamp, toInt_largest, Int32.toInt_zero]
  obtain ⟨warnings, henter⟩ := exists_enterNumber d value
  have hlimits (v : Variables) (id : Number) :
      (v.set id value).low = v.low ∧ (v.set id value).high = v.high := ⟨rfl, rfl⟩
  refine ⟨_, .enters hasks (fun id => ?_) (hlimits _ _), bind_of_ok henter⟩
  rw [Variables.get_set, ← hvalue]
  by_cases hid : id = d.game.message.numberVariable
  · rw [hid]
    split
    · exact Number.toInt_clampInt _ _ _
    · rfl
  · rw [if_neg fun h => hid h.1, if_neg fun h => hid h.1]

end Numbers

/-! ## Whole dialogues -/

/-- The course of a dialogue. Either no line closes the window, and the play is over with nothing
changed; or the first line that is not idle closes it, and the lines behind it are not read; or that
line is the lowest number where a choice is asked for. -/
inductive Course (d : Director) (lines : List String) :
    Except Fault ((Next × List String) × Director) → Prop
  | unanswered (h : ∀ line ∈ lines, Idle d line) : Course d lines (.ok ((.quit, []), d))
  | closed {before after : List String} {line : String} {n : Number} {d' : Director}
      (hlines : lines = before ++ line :: after) (hidle : ∀ l ∈ before, Idle d l)
      (htyped : typed line = some n) (hcloses : Closes d n d') :
      Course d lines (.ok ((.resume, after), d'))
  | fails {before after : List String} {line : String} (hlines : lines = before ++ line :: after)
      (hidle : ∀ l ∈ before, Idle d l) (hasks : d.game.message.offersChoices = true)
      (htyped : typed line = some Int32.minValue) : Course d lines (.error (.overflow .sub))

section Whole

variable {d : Director} {line : String} {lines : List String}
  {out : Except Fault ((Next × List String) × Director)}

/-- An idle line may stand before the others. -/
theorem Course.cons (h : Course d lines out) (hline : Idle d line) :
    Course d (line :: lines) out := by
  have hall {before : List String} (hidle : ∀ l ∈ before, Idle d l) :
      ∀ l ∈ line :: before, Idle d l :=
    List.forall_mem_cons.2 ⟨hline, hidle⟩
  cases h with
  | unanswered h => exact .unanswered (hall h)
  | @closed before after _ _ _ hlines hidle htyped hcloses =>
    exact .closed (congrArg (line :: ·) hlines) (hall hidle) htyped hcloses
  | fails hlines hidle hasks htyped =>
    exact .fails (congrArg (line :: ·) hlines) (hall hidle) hasks htyped

/-- The question that the window asks. -/
def asked (m : Message) : Question :=
  if m.offersChoices then .choice else .number (max m.numberDigits 1).toInt.toNat

/-- A line without a number is asked for again. -/
theorem respond_of_no_number (h : typed line = none) (m : Message) :
    respond (asked m) (some line) = return askNumber (asked m) := by
  have hparse : (Text.number? (Text.trim line) : Option Number) = none := h
  unfold asked
  split
  · simp only [respond, reply, answer, hparse]
  · simp only [respond, reply, answer, hparse]

theorem respond_choice {n : Number} (h : typed line = some n) :
    respond .choice (some line) = answerChoice n := by
  have hparse : Text.number? (Text.trim line) = some n := h
  simp only [respond, reply, answer, hparse]

theorem respond_number {n : Number} (h : typed line = some n) (digits : Nat) :
    respond (.number digits) (some line) = answerNumber digits n := by
  have hparse : Text.number? (Text.trim line) = some n := h
  simp only [respond, reply, answer, hparse]

/-- A line closes the window, or fails, or is idle and the question is asked again. -/
theorem responds (hm : d.game.message.Consistent) (line : String) :
    (∃ n d', typed line = some n ∧ Closes d n d' ∧
      respond (asked d.game.message) (some line) d = .ok (.resume, d')) ∨
    (d.game.message.offersChoices = true ∧ typed line = some Int32.minValue ∧
      respond (asked d.game.message) (some line) d = .error (.overflow .sub)) ∨
    (Idle d line ∧ ∃ r, respond (asked d.game.message) (some line) d = .ok (r, d) ∧
      r.next = .ask (asked d.game.message)) := by
  cases htyped : typed line with
  | none =>
    have hidle : Idle d line := by
      intro n hn
      cases htyped.symm.trans hn
    exact .inr (.inr ⟨hidle, _, congrFun (respond_of_no_number htyped _) d, rfl⟩)
  | some n =>
    cases hasks : d.game.message.offersChoices with
    | false =>
      obtain ⟨d', hcloses, hanswer⟩ := answerNumber_closes hasks n
      refine .inl ⟨n, d', rfl, hcloses, ?_⟩
      rw [asked, if_neg (Bool.eq_false_iff.1 hasks), respond_number htyped]
      exact hanswer
    | true =>
      rw [asked, if_pos hasks, respond_choice htyped]
      obtain ⟨d', hcloses, hanswer⟩ | ⟨rfl, hanswer⟩ | ⟨hrefused, hanswer⟩ :=
        answerChoice_cases hm hasks n
      · exact .inl ⟨n, d', rfl, hcloses, hanswer⟩
      · exact .inr (.inl ⟨rfl, rfl, hanswer⟩)
      · have hidle : Idle d line := by
          intro n' hn
          cases htyped.symm.trans hn
          exact hrefused
        exact .inr (.inr ⟨hidle, _, hanswer, rfl⟩)

/-- Line by line, a question finds its course. -/
theorem converse_course (hm : d.game.message.Consistent) (lines : List String) :
    Course d lines (converse (asked d.game.message) lines d) := by
  induction lines with
  | nil => exact .unanswered nofun
  | cons line lines ih =>
    obtain ⟨n, d', htyped, hcloses, hresponds⟩ | ⟨hasks, htyped, hresponds⟩ |
      ⟨hidle, r, hresponds, hnext⟩ := responds hm line
    · rw [converse_of_resume hresponds]
      exact .closed (List.nil_append _).symm nofun htyped hcloses
    · rw [converse_of_error hresponds]
      exact .fails (List.nil_append _).symm nofun hasks htyped
    · rw [converse_of_again hresponds hnext]
      exact ih.cons hidle

theorem next_presentMessage {m : Message}
    (h : m.offersChoices = true ∨ m.numberStart.isSome = true) :
    (presentMessage m).next = .ask (asked m) := by
  unfold presentMessage asked
  by_cases hasks : m.offersChoices = true
  · rw [if_pos hasks, if_pos hasks]
    rfl
  · rw [if_neg hasks, if_neg hasks, if_pos (h.resolve_left hasks)]
    rfl

/-- Where a window asks for a choice or a number, lines are typed until one of them closes it once,
or the input ends and nothing is changed. An idle line changes nothing and is followed by the same
question. No line fails but the lowest of all numbers, where a choice is asked for. -/
theorem dialogue_course {data : Database} (h : Played data d)
    (hasks : d.game.message.offersChoices = true ∨ d.game.message.numberStart.isSome = true)
    (lines : List String) :
    Course d lines (dialogue lines d) ∧
      ∀ line, Idle d line → ∃ r, respond (asked d.game.message) (some line) d = .ok (r, d) ∧
        r.next = .ask (asked d.game.message) := by
  have hm := (window_consistent h).1
  constructor
  · have hpresent : present .message d = .ok (presentMessage d.game.message, d) :=
      Directing.getGame_bind _
    rw [dialogue, bind_of_ok hpresent, next_presentMessage hasks]
    exact converse_course hm lines
  · intro line hidle
    obtain ⟨n, d', htyped, hcloses, -⟩ | ⟨-, htyped, -⟩ | ⟨-, hagain⟩ := responds hm line
    · exact absurd hcloses ((hidle n htyped).not_closes d')
    · exact absurd rfl (hidle _ htyped).not_lowest
    · exact hagain

end Whole

/-- A gate that is opened or not. Whoever cannot decide may cancel. -/
def gate : Database where
  maps := [{ id := 1, events := [{
    id := 1, pages := [{ trigger := .autoStart, commands := [
      { code := SharedOp.showChoice.code, params := [5] },
      { code := SharedOp.showChoiceOption.code, text := "Open", params := [0] },
      { code := SharedOp.showChoiceOption.code, text := "Leave", params := [1] },
      { code := SharedOp.showChoiceEnd.code }] }] }] }]

/-- What follows, what was not read and which choice was taken. -/
def outcome (lines : List String) (d : Director) : Option ((Next × List String) × Number) :=
  (dialogue lines d).toOption.map fun p => (p.1, p.2.game.message.choiceResult)

/-- Idle lines, a choice, cancelling, the end of the input, and the number that fails. -/
theorem gate_fails_at_lowest : ∃ d, Played gate d ∧ d.game.message.offersChoices = true ∧
    (∀ lines, Course d lines (dialogue lines d)) ∧
    outcome ["open", "3", "-2147483647", "+2", "1"] d = some ((.resume, ["1"]), 1) ∧
    outcome ["", " 0 "] d = some ((.resume, []), 4) ∧
    outcome ["open", "3"] d = some ((.quit, []), 0) ∧
    outcome ["-2147483648", "1"] d = none := by
  have hrun : ∃ d, [Call.execute 2].forM Call.run (Director.begin gate default) = .ok ((), d) ∧
      d.game.message.offersChoices = true ∧
      outcome ["open", "3", "-2147483647", "+2", "1"] d = some ((.resume, ["1"]), 1) ∧
      outcome ["", " 0 "] d = some ((.resume, []), 4) ∧
      outcome ["open", "3"] d = some ((.quit, []), 0) ∧
      outcome ["-2147483648", "1"] d = none := by
    decide +kernel
  obtain ⟨d, hcalls, hasks, houtcomes⟩ := hrun
  have hreachable : Reachable gate default d := ⟨_, hcalls⟩
  exact ⟨d, hreachable.played, hasks,
    fun lines => (dialogue_course hreachable.played (.inl hasks) lines).1, houtcomes⟩

end Terminal

end EventScript
