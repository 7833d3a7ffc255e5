import EventScript.Proofs.Courses

/-!
# The message window

What the window shows, what it asks for and whether the events wait for it always agree, whoever
fills the window and whoever closes it.

* `Message.Consistent` says how the fields of the window agree, and `Message.Composed` what a
  message adds that asks for something below its own lines.
* `Game.Framed`: the window stands for some layout that fits. Every move keeps this
  (`Game.Move.framed`), and all about the fields is read off the layout.
* `Director.window_consistent`: the window is consistent whatever happens.
-/

namespace EventScript

open Relation

/-! ## The fields of the window -/

namespace Message

/-- The fields of the window agree. -/
structure Consistent (m : Message) : Prop where
  visible : m.visible = m.waiting
  closed : m.waiting = false → m.texts = [] ∧ m.choiceStart = none ∧ m.numberStart = none
  one_question : m.choiceStart = none ∨ m.numberStart = none
  choices : ∀ s, m.choiceStart = some s →
    m.texts.length = s + m.choiceMax ∧ m.choiceDisabled.length = m.choiceMax
  number : ∀ s, m.numberStart = some s → s = m.texts.length
  /-- Choices below some lines have room in the window, and so has a number. -/
  room : (∀ s, m.choiceStart = some s → 0 < s → m.texts.length ≤ windowHeight) ∧
    ∀ s, m.numberStart = some s → s < windowHeight

/-- Whatever is asked for stands below some lines, and all of it has room. -/
structure Composed (m : Message) : Prop where
  choices : ∀ s, m.choiceStart = some s → 0 < s ∧ m.texts.length ≤ windowHeight
  number : ∀ s, m.numberStart = some s → 0 < s ∧ m.texts.length < windowHeight

variable {m : Message} {l : Layout}

/-- The fields agree in every layout that fits. -/
theorem consistent_of_layout (hfits : l.Fits) (h : m.sheet = l.sheet) : m.Consistent := by
  cases l with
  | closed | text lines =>
    simp only [sheet, Layout.sheet, Sheet.mk.injEq] at h
    obtain ⟨htexts, hchoice, -, -, hnumber, hwaits, hvisible⟩ := h
    exact ⟨hvisible.trans hwaits.symm, by simp [htexts, hchoice, hnumber, hwaits], .inl hchoice,
      by simp [hchoice], by simp [hnumber], by simp [hchoice, hnumber]⟩
  | choice lines choices disabled =>
    simp only [sheet, Layout.sheet, Sheet.mk.injEq] at h
    obtain ⟨htexts, hchoice, hmax, hdisabled, hnumber, hwaits, hvisible⟩ := h
    obtain ⟨hmarked, hroom⟩ := hfits
    refine ⟨hvisible.trans hwaits.symm, by simp [hwaits], .inr hnumber, fun s hs => ?_,
      by simp [hnumber], fun s hs hpos => ?_, by simp [hnumber]⟩
    all_goals
      obtain rfl : lines.length = s := Option.some.inj (hchoice.symm.trans hs)
      rw [htexts, List.length_append]
    · exact ⟨by rw [hmax], by rw [hdisabled, hmax, hmarked]⟩
    · exact hroom hpos
  | number lines =>
    simp only [sheet, Layout.sheet, Sheet.mk.injEq] at h
    obtain ⟨htexts, hchoice, -, -, hnumber, hwaits, hvisible⟩ := h
    refine ⟨hvisible.trans hwaits.symm, by simp [hwaits], .inl hchoice, by simp [hchoice],
      fun s hs => ?_, by simp [hchoice], fun s hs => ?_⟩
    all_goals obtain rfl : lines.length = s := Option.some.inj (hnumber.symm.trans hs)
    · rw [htexts]
    · exact hfits

/-- In a consistent window what stands below some lines has room. -/
theorem Consistent.composed (hm : m.Consistent) (hchoice : ∀ s, m.choiceStart = some s → 0 < s)
    (hnumber : ∀ s, m.numberStart = some s → 0 < s) : m.Composed := by
  refine ⟨fun s hs => ?_, fun s hs => ?_⟩
  · exact ⟨hchoice s hs, hm.room.1 s hs (hchoice s hs)⟩
  · rw [← hm.number s hs]
    exact ⟨hnumber s hs, hm.room.2 s hs⟩

/-- A layout with some lines asks for nothing above them. -/
theorem composed_of_layout (hfits : l.Fits) (hlines : l.lines ≠ []) (h : m.sheet = l.sheet) :
    m.Composed := by
  have hpos : 0 < l.lines.length := List.length_pos_iff.2 hlines
  have hchoice : m.choiceStart = l.sheet.choiceStart := congrArg Sheet.choiceStart h
  have hnumber : m.numberStart = l.sheet.numberStart := congrArg Sheet.numberStart h
  refine (consistent_of_layout hfits h).composed (fun s hs => ?_) fun s hs => ?_
  · rw [hchoice] at hs
    cases l with
    | choice => exact Option.some.inj hs ▸ hpos
    | closed | text | number => cases hs
  · rw [hnumber] at hs
    cases l with
    | number => exact Option.some.inj hs ▸ hpos
    | closed | text | choice => cases hs

end Message

/-! ## The window of a game -/

namespace Game

/-- The window stands for a layout that fits. -/
def Framed (g : Game) : Prop := ∃ l : Layout, l.Fits ∧ g.message.sheet = l.sheet

variable {data : Database} {g g' : Game}

theorem Framed.of_estate (hg : g.Framed) (h : g'.estate = g.estate) : g'.Framed := by
  obtain ⟨l, hfits, hsheet⟩ := hg
  have hsame : g'.message.sheet = g.message.sheet := congrArg Estate.sheet h
  exact ⟨l, hfits, hsame.trans hsheet⟩

theorem Gentle.framed (h : g.Gentle g') (hg : g.Framed) : g'.Framed := by
  cases h with
  | aside h => exact hg.of_estate h
  | window l hfits h => exact ⟨l, hfits, h⟩
  | ends | gold | item | actor | enemies => exact hg

theorem Move.framed (h : g.Move data g') (hg : g.Framed) : g'.Framed := by
  cases h with
  | stroke h => cases h with
    | gentle h => exact h.framed hg
    | hurts | joins | leaves => exact hg
  | opens | shuts => exact hg

/-- At the start the window is closed. -/
theorem framed_begin (data : Database) (random : Random) : (begin data random).Framed :=
  ⟨.closed, trivial, rfl⟩

end Game

namespace Director

variable {data : Database} {d : Director}

/-- Whatever happens in a game, the fields of the window agree. A message that comes upon a closed
window puts what it asks for below its own lines, and only if there is room. -/
theorem window_consistent (h : Played data d) :
    d.game.message.Consistent ∧ ∀ f c, d.game.message.waiting = false →
      Ensures (Commands.showMessage f c) d.world fun _ w => w.game.message.Composed := by
  have hframed : d.game.Framed :=
    h.keeps (Game.framed_begin data) fun _ _ hmove => hmove.framed
  refine ⟨?_, fun f c hfree => ?_⟩
  · obtain ⟨l, hfits, hsheet⟩ := hframed
    exact Message.consistent_of_layout hfits hsheet
  · refine (Commands.announces_of_showMessage f c d.world).imp fun _ w hw => ?_
    rcases hw with ⟨hwaits, -⟩ | ⟨l, hfits, hlines, hsheet, -⟩
    · exact absurd (hfree.symm.trans hwaits) (by decide)
    · exact Message.composed_of_layout hfits hlines hsheet

/-- A signpost asks where to go, and then how far. -/
def signpost : List Command := [
  { code := SharedOp.showMessage.code, text := "Where to?" },
  { code := SharedOp.showChoice.code },
  { code := SharedOp.showChoiceOption.code, text := "North" },
  { code := SharedOp.showMessage.code, indent := 1, text := "How far?" },
  { code := SharedOp.inputNumber.code, indent := 1, params := [3, 7] },
  { code := SharedOp.showChoiceOption.code, text := "South", params := [1] },
  { code := SharedOp.showChoiceEnd.code }]

def crossroads : Database where
  maps := [{ id := 1, events := [{
    id := 1, pages := [{ trigger := .autoStart, commands := signpost }] }] }]

/-- Both questions stand below their message, and the first one does so at once. -/
theorem crossroads_asks_below_text :
    (∃ d, Played crossroads d ∧ d.game.message.texts = ["Where to?", "North", "South"] ∧
      d.game.message.choiceStart = some 1 ∧ d.game.message.Consistent) ∧
    (∃ d, Played crossroads d ∧ d.game.message.texts = ["How far?"] ∧
      d.game.message.numberStart = some 1 ∧ d.game.message.Consistent) ∧
    ∃ f c r, Commands.showMessage f c (begin crossroads default).world = .ok r ∧
      r.2.game.message.choiceStart = some 1 ∧ r.2.game.message.Composed := by
  have hchoice : ∃ d, [Call.execute 2].forM Call.run (begin crossroads default) = .ok ((), d) ∧
      d.game.message.texts = ["Where to?", "North", "South"] ∧
        d.game.message.choiceStart = some 1 := by
    decide +kernel
  have hnumber : ∃ d, [Call.execute 2, .order (.dismiss (some 0)), .execute 1].forM Call.run
      (begin crossroads default) = .ok ((), d) ∧ d.game.message.texts = ["How far?"] ∧
        d.game.message.numberStart = some 1 := by
    decide +kernel
  let f : Frame := { context := .field, depth := 0, isRoot := true, commands := signpost }
  let c : Command := { code := SharedOp.showMessage.code, text := "Where to?" }
  have hshow : ∃ r, Commands.showMessage f c (begin crossroads default).world = .ok r ∧
      r.2.game.message.choiceStart = some 1 := by
    decide +kernel
  refine ⟨?_, ?_, ?_⟩
  · obtain ⟨d, hcalls, htexts, hstart⟩ := hchoice
    have hreachable : Reachable crossroads default d := ⟨_, hcalls⟩
    exact ⟨d, hreachable.played, htexts, hstart, (window_consistent hreachable.played).1⟩
  · obtain ⟨d, hcalls, htexts, hstart⟩ := hnumber
    have hreachable : Reachable crossroads default d := ⟨_, hcalls⟩
    exact ⟨d, hreachable.played, htexts, hstart, (window_consistent hreachable.played).1⟩
  · obtain ⟨⟨o, w⟩, hruns, hstart⟩ := hshow
    have hbegin : Played crossroads (begin crossroads default) := ⟨default, .refl⟩
    have hcomposed := (window_consistent hbegin).2 f c rfl o w hruns
    exact ⟨f, c, (o, w), hruns, hstart, hcomposed⟩

end Director

end EventScript
