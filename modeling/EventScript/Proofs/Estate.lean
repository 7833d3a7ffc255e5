import EventScript.Proofs.Noted
import Mathlib.Logic.Relation

/-!
# What a game has at stake

The party with what it carries, the points and states of everyone, the message window, and whether
the game is over. All of this changes in few ways.

* `Vitals.Eases` and `Vitals.Suffers` list what becomes of points and states. Only what is suffered
  can knock out.
* `Layout` lists what the window can show.
* `Game.estate` is all that is at stake. `Game.Gentle` lists the steps that leave everyone standing
  who stands, and `Game.Stroke` adds the others.
* `Act.Gentle` and `Act.Strokes` say that an act is made of such steps.
-/

namespace EventScript

open Relation

/-! ## Points and states -/

namespace Vitals

/-- A change that knocks nobody out. -/
inductive Eases (v : Vitals) : Vitals → Prop
  | same : Eases v v
  | spends {delta : Number} {v' : Vitals} (h : v.changeSp delta = .ok v') : Eases v v'
  | relieves (state : Number) : Eases v (v.relieve state)
  | restores : Eases v v.restore
  | boundsHp (maxHp : Number) :
      Eases v { v with maxHp := max maxHp 1, hp := min v.hp (max maxHp 1) }
  | boundsSp (maxSp : Number) :
      Eases v { v with maxSp := max maxSp 0, sp := min v.sp (max maxSp 0) }

/-- A change that may knock out. -/
inductive Suffers (v : Vitals) : Vitals → Prop
  | hurts {delta : Number} {lethal : Bool} {v' : Vitals} (h : v.changeHp delta lethal = .ok v') :
      Suffers v v'
  | afflicts (state : Number) : Suffers v (v.afflict state)

/-- A change of any kind. -/
def Changes (v v' : Vitals) : Prop := v.Eases v' ∨ v.Suffers v'

variable {v v' : Vitals}

theorem Eases.of_eq (h : v' = v) : v.Eases v' := h ▸ .same

theorem Eases.changes (h : v.Eases v') : v.Changes v' := .inl h

theorem Suffers.changes (h : v.Suffers v') : v.Changes v' := .inr h

/-- Whoever is knocked out after a gentle change was so before. -/
theorem Eases.isFallen (h : v.Eases v') (hfallen : v'.isFallen = true) : v.isFallen = true := by
  cases h with
  | same | boundsHp | boundsSp => exact hfallen
  | @spends delta _ h =>
    have hstates : Yields (v.changeSp delta) fun v' => v'.states = v.states := by
      simp only [changeSp, yields_bind, yields_pure]
      exact fun _ _ => trivial
    rw [Vitals.isFallen, ← hstates _ h]
    exact hfallen
  | relieves state =>
    rw [Vitals.isFallen, relieve, IdMap.contains_erase] at hfallen
    exact (Bool.and_eq_true_iff.1 hfallen).2
  | restores => cases hfallen

end Vitals

namespace Troop

/-- Every enemy of a troop is one of another troop, changed or not. -/
def Changed (t t' : Troop) : Prop :=
  ∀ e' ∈ t'.enemies, ∃ e ∈ t.enemies, e.vitals.Changes e'.vitals

variable {t t' : Troop}

theorem Changed.of_enemies (h : t'.enemies = t.enemies) : t.Changed t' :=
  fun e' he' => ⟨e', h ▸ he', .inl .same⟩

/-- One enemy is replaced by what becomes of it. -/
theorem changed_setEnemy {index : Number} {e e' : Enemy} (he : t.enemy? index = some e)
    (h : e.vitals.Changes e'.vitals) : t.Changed (t.setEnemy index e') := by
  obtain ⟨i, hi, he⟩ := Option.bind_eq_some_iff.1 he
  have hmem : e ∈ t.enemies := List.mem_of_getElem? he
  intro x hx
  simp only [setEnemy, hi] at hx
  obtain hx | rfl := List.mem_or_eq_of_mem_set hx
  · exact ⟨x, hx, .inl .same⟩
  · exact ⟨e, hmem, h⟩

end Troop

/-- Whoever is given an item or loses one, nothing but the items changes. -/
theorem Party.giveItem_eq {p p' : Party} {id amount : Number}
    (h : p.giveItem id amount = .ok p') : p' = { p with items := p'.items } := by
  have hitems : Yields (p.giveItem id amount) fun p' => p' = { p with items := p'.items } := by
    simp only [giveItem, yields_ite, yields_ok, yields_bind, yields_pure]
    exact ⟨fun _ => trivial, fun _ _ _ => trivial⟩
  exact hitems p' h

/-! ## The window -/

/-- What the window shows and asks for. -/
inductive Layout
  | closed
  | text (lines : List String)
  /-- Choices below some lines, and which of them cannot be taken. -/
  | choice (lines choices : List String) (disabled : List Bool)
  /-- A number to be typed below some lines. -/
  | number (lines : List String)

/-- The window without its look, its variables and the last answer. -/
structure Sheet where
  texts : List String := []
  choiceStart : Option Nat := none
  choiceMax : Nat := 0
  choiceDisabled : List Bool := []
  numberStart : Option Nat := none
  waiting : Bool := true
  visible : Bool := true

namespace Layout

/-- How the window stands for what it shows. -/
def sheet : Layout → Sheet
  | closed => { waiting := false, visible := false }
  | text lines => { texts := lines }
  | choice lines choices disabled =>
    { texts := lines ++ choices
      choiceStart := some lines.length
      choiceMax := choices.length
      choiceDisabled := disabled }
  | number lines => { texts := lines, numberStart := some lines.length }

/-- The lines above what is asked for. -/
def lines : Layout → List String
  | closed => []
  | text lines | choice lines _ _ | number lines => lines

/-- Whether every choice is marked, and what is asked for below some lines has room. Choices alone
may be more than the window has lines. -/
def Fits : Layout → Prop
  | closed | text _ => True
  | choice lines choices disabled => disabled.length = choices.length ∧
      (0 < lines.length → lines.length + choices.length ≤ windowHeight)
  | number lines => lines.length < windowHeight

end Layout

def Message.sheet (m : Message) : Sheet where
  texts := m.texts
  choiceStart := m.choiceStart
  choiceMax := m.choiceMax
  choiceDisabled := m.choiceDisabled
  numberStart := m.numberStart
  waiting := m.waiting
  visible := m.visible

/-- The lines of a message come one below the other. -/
theorem Message.addLines_clear (m : Message) (lines : List String) :
    lines.foldl addLine m.clear = { m.clear with texts := lines } := by
  have hfold (m : Message) : lines.foldl addLine m = { m with texts := m.texts ++ lines } := by
    induction lines generalizing m with
    | nil => simp
    | cons line lines ih => simp [ih, addLine]
  exact hfold m.clear

/-! ## Everything at stake -/

/-- What a game has at stake. -/
structure Estate where
  members : List Number
  gold : Number
  items : IdMap Number
  goldMax : Number
  itemMax : Number
  partyMax : Nat
  actors : IdMap Actor
  enemies : Option (List Enemy)
  sheet : Sheet
  gameOver : Bool

namespace Game

def estate (g : Game) : Estate where
  members := g.party.members
  gold := g.party.gold
  items := g.party.items
  goldMax := g.party.goldMax
  itemMax := g.party.itemMax
  partyMax := g.party.partyMax
  actors := g.actors
  enemies := g.troop.map (·.enemies)
  sheet := g.message.sheet
  gameOver := g.scene.gameOver

/-- A step in which nobody is knocked out and the party stays together. -/
inductive Gentle (g : Game) : Game → Prop
  | aside {g' : Game} (h : g'.estate = g.estate) : Gentle g g'
  | ends : Gentle g { g with scene := { g.scene with gameOver := true } }
  | gold (amount : Number) : Gentle g { g with party := g.party.giveGold amount }
  | item {id amount : Number} {p : Party} (h : g.party.giveItem id amount = .ok p) :
      Gentle g { g with party := p }
  | actor {id : Number} {a a' : Actor} (ha : g.actors.get? id = some a)
      (h : a.vitals.Eases a'.vitals) : Gentle g { g with actors := g.actors.insert id a' }
  | enemies {t t' : Troop} (ht : g.troop = some t) (h : t.Changed t') :
      Gentle g { g with troop := some t' }
  | window {m : Message} (l : Layout) (hfits : l.Fits) (h : m.sheet = l.sheet) :
      Gentle g { g with message := m }

/-- A step that a command can take. -/
inductive Stroke (g : Game) : Game → Prop
  | gentle {g' : Game} (h : g.Gentle g') : Stroke g g'
  | hurts {id : Number} {a a' : Actor} (ha : g.actors.get? id = some a)
      (h : a.vitals.Suffers a'.vitals) : Stroke g { g with actors := g.actors.insert id a' }
  | joins {id : Number} (h : (g.actors.get? id).isSome = true) :
      Stroke g { g with party := g.party.join id }
  | leaves (id : Number) : Stroke g { g with party := g.party.leave id }

/-- What every step keeps, a row of steps keeps. -/
theorem keeps_of_steps {R : Game → Game → Prop} {I : Game → Prop}
    (hI : ∀ g g', R g g' → I g → I g') {g g' : Game} (h : ReflTransGen R g g') (hg : I g) :
    I g' := by
  induction h with
  | refl => exact hg
  | tail _ hstep ih => exact hI _ _ hstep ih

/-- What closes the window, whatever happens on the field besides. -/
theorem gentle_close (g : Game) (m : Message) (d : Field) :
    ReflTransGen Gentle g { g with message := m.close, field := d } :=
  .tail (.single (.window .closed trivial rfl)) (.aside rfl)

end Game

namespace Act

/-- An act that knocks nobody out and keeps the party together. -/
abbrev Gentle {α : Type} (a : Act α) : Prop := a.Within (World.Over (ReflTransGen Game.Gentle))

/-- An act of steps that a command can take. -/
abbrev Strokes {α : Type} (a : Act α) : Prop := a.Within (World.Over (ReflTransGen Game.Stroke))

end Act

end EventScript
