import EventScript.Proofs.Battles
import EventScript.Proofs.Roles
import EventScript.Proofs.TroopConditions
import Mathlib.Data.List.DropRight

/-!
# The pages of a troop turn by turn

In a turn of a battle every page of the troop runs at most once, and the turn is over only when none
is left that may run.

* `Director.Picks` tells which page starts next, and which ones were passed over for it.
* `Director.Entry.Binds` is the start of a page, and `Director.thisTurn` are the beats of the turn
  that goes on: `Director.InTurn` says that the marked pages are those that were started in it.
* `Director.troop_pages_by_turn`: a page that starts may run and has not run in this turn, and there
  is no such page before it. When a turn is over, all pages that may run have run.
-/

namespace EventScript.Director

open Act

variable {data : Database} {random : Random} {d d' d₁ : Director}

/-! ## Conditions -/

/-- There is a battle, and the condition of a page holds in it. -/
def Holds (g : Game) (page : TroopPage) : Prop :=
  ∃ t, g.troop = some t ∧ page.condition.Holds g t

/-- Where a look at the condition of a page has a result, it tells whether the condition holds. -/
theorem holds_iff_of_pageReady {w w' : World} {page : TroopPage} {ready : Bool}
    (h : pageReady page.condition w = .ok (ready, w')) :
    w'.game = w.game ∧ (ready = true ↔ Holds w.game page) := by
  cases ht : w.game.troop with
  | none =>
    rw [pageReady, getGame_bind, ht] at h
    cases h
    refine ⟨rfl, iff_of_false Bool.false_ne_true ?_⟩
    rintro ⟨t, ht', -⟩
    cases ht.symm.trans ht'
  | some t =>
    obtain ⟨hgame, hready⟩ := (tells_pageReady page.condition ht).tells ready w' h
    refine ⟨hgame, hready.trans ⟨fun hholds => ⟨t, ht, hholds⟩, ?_⟩⟩
    rintro ⟨t', ht', hholds⟩
    exact Option.some.inj (ht.symm.trans ht') ▸ hholds

/-! ## The page that starts next -/

theorem getD_set_true (marks : List Bool) (j k : Nat) :
    (marks.set k true).getD j true = (decide (j = k) || marks.getD j true) := by
  by_cases h : j = k
  · subst h
    rw [List.getD_eq_getElem?_getD, List.getElem?_set, if_pos rfl, decide_eq_true rfl]
    split <;> rfl
  · simp [h, Ne.symm h]

/-- What is marked when some pages are passed over. Those without commands that may run count as
run. -/
structure Passes (pages : List (TroopPage × Nat)) (d : Director) (marks : List Bool) : Prop where
  length : marks.length = d.pagesRun.length
  mono : ∀ k, d.pagesRun.getD k true = true → marks.getD k true = true
  kept : ∀ k, (∀ e ∈ pages, e.2 = k → e.1.commands.isEmpty = false) →
    marks.getD k true = d.pagesRun.getD k true
  holds : ∀ e ∈ pages, Holds d.game e.1 → marks.getD e.2 true = true

theorem Passes.nil : Passes [] d d.pagesRun :=
  ⟨rfl, fun _ => id, fun _ _ => rfl, List.forall_mem_nil _⟩

/-- What starting the next page comes to: none may run, or the first one starts that is not marked,
may run and has commands. -/
inductive Picks (pages : List (TroopPage × Nat)) (d : Director) : Bool → Director → Prop
  | none {w : World} {marks : List Bool} (hgame : w.game = d.game) (hmarks : Passes pages d marks) :
      Picks pages d false { d with world := w, pagesRun := marks }
  | page {w : World} {marks : List Bool} {pre post : List (TroopPage × Nat)} {e : TroopPage × Nat}
      {battle : Interpreter} (hgame : w.game = d.game) (hpages : pages = pre ++ e :: post)
      (hmarks : Passes pre d marks) (hunmarked : d.pagesRun.getD e.2 true = false)
      (hholds : Holds d.game e.1) (hne : e.1.commands.isEmpty = false)
      (hstart : d.battle.start e.1.commands 0 d.game.field.id = .ok battle) :
      Picks pages d true { d with world := w, pagesRun := marks.set e.2 true, battle }

variable {pages : List (TroopPage × Nat)} {e : TroopPage × Nat} {w : World} {marks : List Bool}
  {started : Bool}

/-- A page is passed over that has run or may not run. -/
theorem Passes.cons (hw : w.game = d.game) (h : Passes pages { d with world := w } marks)
    (he : Holds d.game e.1 → d.pagesRun.getD e.2 true = true) : Passes (e :: pages) d marks := by
  refine ⟨h.length, h.mono, fun k hk => h.kept k fun x hx => hk x (List.mem_cons_of_mem _ hx), ?_⟩
  refine List.forall_mem_cons.2 ⟨fun hholds => h.mono e.2 (he hholds), fun x hx hholds => ?_⟩
  have hsame : Holds w.game x.1 := hw.symm ▸ hholds
  exact h.holds x hx hsame

/-- A page without commands is passed over and counts as run. -/
theorem Passes.cons_empty (hw : w.game = d.game) (hempty : e.1.commands.isEmpty = true)
    (h : Passes pages { d with world := w, pagesRun := d.pagesRun.set e.2 true } marks) :
    Passes (e :: pages) d marks := by
  have hset (k : Nat) := getD_set_true d.pagesRun k e.2
  refine ⟨h.length.trans List.length_set, fun k hk => h.mono k ?_, fun k hk => ?_, ?_⟩
  · exact (hset k).trans (by rw [hk, Bool.or_true])
  · have hne : k ≠ e.2 := fun hke => absurd (hk e List.mem_cons_self hke.symm) (hempty ▸ nofun)
    refine (h.kept k fun x hx => hk x (List.mem_cons_of_mem _ hx)).trans ((hset k).trans ?_)
    rw [decide_eq_false hne, Bool.false_or]
  · refine List.forall_mem_cons.2 ⟨fun _ => h.mono e.2 ?_, fun x hx hholds => ?_⟩
    · exact (hset e.2).trans (by rw [decide_eq_true rfl, Bool.true_or])
    · have hsame : Holds w.game x.1 := hw.symm ▸ hholds
      exact h.holds x hx hsame

theorem Picks.cons (hw : w.game = d.game) (h : Picks pages { d with world := w } started d')
    (he : Holds d.game e.1 → d.pagesRun.getD e.2 true = true) :
    Picks (e :: pages) d started d' := by
  cases h with
  | none hgame hmarks => exact .none (hgame.trans hw) (hmarks.cons hw he)
  | @page _ _ pre post x _ hgame hpages hmarks hunmarked hholds hne hstart =>
    have hid : w.game.field.id = d.game.field.id := by rw [hw]
    have hsplit : e :: pages = (e :: pre) ++ x :: post := congrArg (e :: ·) hpages
    have hsame : Holds d.game x.1 := hw ▸ hholds
    exact .page (hgame.trans hw) hsplit (hmarks.cons hw he) hunmarked hsame hne (hid ▸ hstart)

theorem Picks.cons_empty (hw : w.game = d.game) (hempty : e.1.commands.isEmpty = true)
    (h : Picks pages { d with world := w, pagesRun := d.pagesRun.set e.2 true } started d') :
    Picks (e :: pages) d started d' := by
  cases h with
  | none hgame hmarks => exact .none (hgame.trans hw) (hmarks.cons_empty hw hempty)
  | @page _ _ pre post x _ hgame hpages hmarks hunmarked hholds hne hstart =>
    have hid : w.game.field.id = d.game.field.id := by rw [hw]
    have hset := (getD_set_true d.pagesRun x.2 e.2).symm.trans hunmarked
    have hsplit : e :: pages = (e :: pre) ++ x :: post := congrArg (e :: ·) hpages
    have hsame : Holds d.game x.1 := hw ▸ hholds
    exact .page (hgame.trans hw) hsplit (hmarks.cons_empty hw hempty)
      (Bool.or_eq_false_iff.1 hset).2 hsame hne (hid ▸ hstart)

theorem picks_of_startPage (pages : List (TroopPage × Nat)) (d : Director) :
    Ensures (startPage pages) d fun started d' => Picks pages d started d' := by
  induction pages generalizing d with
  | nil => exact ensures_pure.2 (.none rfl .nil)
  | cons entry rest ih =>
    obtain ⟨page, k⟩ := entry
    simp only [startPage, ensures_bind, Directing.ensures_get, ensures_ite, Directing.ensures_act]
    refine ⟨fun hmarked => (ih d).imp fun _ _ h => h.cons rfl fun _ => hmarked, fun hunmarked => ?_⟩
    have hunmarked : d.pagesRun.getD k true = false := Bool.eq_false_iff.2 hunmarked
    refine ensures_run.imp fun ready w hready => ?_
    obtain ⟨hw, hready⟩ := holds_iff_of_pageReady hready
    simp only [Directing.ensures_modify, ensures_start, ensures_pure]
    refine ⟨fun hnot => (ih _).imp fun _ _ h => h.cons hw fun hholds => ?_, fun hholds => ?_⟩
    · rw [hready.2 hholds] at hnot
      cases hnot
    · have hholds : Holds d.game page := hready.1 (by simpa using hholds)
      refine ⟨fun hempty => (ih _).imp fun _ _ h => h.cons_empty hw hempty, fun hne j hj => ?_⟩
      have hid : w.game.field.id = d.game.field.id := congrArg (·.field.id) hw
      have hsplit : (page, k) :: rest = [] ++ (page, k) :: rest := rfl
      exact .page hw hsplit .nil hunmarked hholds (Bool.eq_false_iff.2 hne) (hid ▸ hj)

theorem picks_of_startNextPage (d : Director) :
    Ensures startNextPage d fun started d' => Picks d.troopPages d started d' := by
  simp only [startNextPage, ensures_bind, Directing.ensures_get]
  split
  · next t ht =>
    rw [troopPages, ht]
    exact picks_of_startPage _ d
  · next hnone =>
    rw [troopPages, hnone]
    exact ensures_pure.2 (.none rfl .nil)

/-! ## Pages by their numbers -/

variable {td : TroopData} {k : Nat} {page : TroopPage}

/-- A page of a troop that has commands. -/
def HasPage (td : TroopData) (k : Nat) (page : TroopPage) : Prop :=
  td.pages[k]? = some page ∧ page.commands.isEmpty = false

/-- A page of the troop starts, and no other one that has commands is marked. -/
structure StartsPage (td : TroopData) (k : Nat) (d d₁ : Director) : Prop where
  starts : ∃ page, HasPage td k page ∧
    d.battle.start page.commands 0 d.game.field.id = .ok d₁.battle
  marked : d₁.pagesRun[k]? = some true
  others : ∀ j page, j ≠ k → HasPage td j page → d₁.pagesRun[j]? = d.pagesRun[j]?

/-- Why a page starts: it has not run, its condition holds, and every page with commands before it
whose condition holds has run. -/
structure Chosen (td : TroopData) (k : Nat) (d : Director) : Prop where
  unmarked : d.pagesRun[k]? = some false
  holds : ∃ page, HasPage td k page ∧ Holds d.game page
  first : ∀ j page, j < k → HasPage td j page → Holds d.game page → d.pagesRun[j]? = some true

theorem getElem?_eq_of_getD {l : List Bool} {b : Bool} (hk : k < l.length) (h : l.getD k true = b) :
    l[k]? = some b := by
  rw [List.getD_eq_getElem?_getD, List.getElem?_eq_getElem hk] at h
  rw [List.getElem?_eq_getElem hk]
  exact congrArg some h

/-- Passing pages over marks none that has commands. -/
theorem Passes.getElem? (h : Passes pages d marks) (hpages : ∀ x ∈ pages, x ∈ td.pages.zipIdx)
    (hlength : d.pagesRun.length = td.pages.length) (hk : HasPage td k page) :
    marks[k]? = d.pagesRun[k]? := by
  obtain ⟨hlt, -⟩ := List.getElem?_eq_some_iff.1 hk.1
  have hkept := h.kept k fun x hx hxk => by
    have hpage := List.mem_zipIdx_iff_getElem?.1 (hpages x hx)
    rw [hxk, hk.1] at hpage
    exact Option.some.inj hpage ▸ hk.2
  have hlt : k < d.pagesRun.length := hlength ▸ hlt
  rw [List.getElem?_eq_getElem hlt]
  refine getElem?_eq_of_getD (h.length ▸ hlt) (hkept.trans ?_)
  rw [List.getD_eq_getElem?_getD, List.getElem?_eq_getElem hlt]
  rfl

theorem Picks.length (h : Picks pages d started d₁) :
    d₁.pagesRun.length = d.pagesRun.length := by
  cases h with
  | none _ hmarks => exact hmarks.length
  | page _ _ hmarks => exact List.length_set.trans hmarks.length

theorem Picks.battle (h : Picks pages d false d₁) : d₁.battle = d.battle := by
  cases h
  rfl

/-- When no page starts, every page whose condition holds is marked, and those with commands were so
before. -/
theorem Picks.all_marked (h : Picks td.pages.zipIdx d false d₁)
    (hlength : d.pagesRun.length = td.pages.length) :
    (∀ (k : Nat) page, td.pages[k]? = some page → Holds d.game page →
      d₁.pagesRun[k]? = some true) ∧
      ∀ k page, HasPage td k page → d₁.pagesRun[k]? = d.pagesRun[k]? := by
  cases h with
  | none _ hmarks =>
    refine ⟨fun k page hk hholds => ?_, fun k page hk => ?_⟩
    · obtain ⟨hlt, -⟩ := List.getElem?_eq_some_iff.1 hk
      refine getElem?_eq_of_getD (hmarks.length ▸ hlength ▸ hlt) ?_
      exact hmarks.holds (page, k) (List.mk_mem_zipIdx_iff_getElem?.2 hk) hholds
    · exact hmarks.getElem? (fun _ => id) hlength hk

/-- When a page starts, there is one that is chosen, and it alone is marked. -/
theorem Picks.exists_chosen (h : Picks td.pages.zipIdx d true d₁)
    (hlength : d.pagesRun.length = td.pages.length) :
    ∃ k, Chosen td k d ∧ StartsPage td k d d₁ := by
  cases h with
  | @page w marks pre post e battle _ hpages hmarks hunmarked hholds hne hstart =>
    have hmem : e ∈ td.pages.zipIdx := hpages ▸ List.mem_append_right _ List.mem_cons_self
    have hpage : HasPage td e.2 e.1 := ⟨List.mem_zipIdx_iff_getElem?.1 hmem, hne⟩
    obtain ⟨hlt, -⟩ := List.getElem?_eq_some_iff.1 hpage.1
    have hlt : e.2 < d.pagesRun.length := hlength ▸ hlt
    have hpre : ∀ x ∈ pre, x ∈ td.pages.zipIdx := fun x hx => hpages ▸ List.mem_append_left _ hx
    -- The pages are numbered in their order, so those before this one are those passed over.
    have hnumber : e.2 = pre.length := by
      have hindex : (td.pages.zipIdx)[pre.length]? = some e := by rw [hpages]; simp
      rw [List.getElem?_zipIdx, Option.map_eq_some_iff] at hindex
      obtain ⟨_, -, he⟩ := hindex
      rw [← he, Nat.zero_add]
    have hbefore {j : Nat} {page : TroopPage} (hj : j < e.2) (hjpage : td.pages[j]? = some page) :
        (page, j) ∈ pre := by
      have hentry : (td.pages.zipIdx)[j]? = some (page, j) := by
        rw [List.getElem?_zipIdx, hjpage]
        simp
      rw [hpages, List.getElem?_append_left (hnumber ▸ hj)] at hentry
      exact List.mem_of_getElem? hentry
    refine ⟨e.2, ⟨getElem?_eq_of_getD hlt hunmarked, ⟨e.1, hpage, hholds⟩, ?_⟩,
      ⟨⟨e.1, hpage, hstart⟩, ?_, fun j page hj hjpage => ?_⟩⟩
    · intro j page hj hjpage hjholds
      obtain ⟨hjlt, -⟩ := List.getElem?_eq_some_iff.1 hjpage.1
      rw [← hmarks.getElem? hpre hlength hjpage]
      exact getElem?_eq_of_getD (hmarks.length ▸ hlength ▸ hjlt)
        (hmarks.holds _ (hbefore hj hjpage.1) hjholds)
    · exact List.getElem?_set_self (hmarks.length ▸ hlt)
    · rw [List.getElem?_set_ne (Ne.symm hj)]
      exact hmarks.getElem? hpre hlength hjpage

/-- It is the marks that tell which page has started. -/
theorem StartsPage.unique {j : Nat} (h : StartsPage td k d d₁) (hchosen : Chosen td j d)
    (hj : StartsPage td j d d₁) : k = j := by
  by_contra hne
  obtain ⟨page, hpage, -⟩ := hchosen.holds
  have hmarked := (h.others j page (Ne.symm hne) hpage).symm.trans hj.marked
  rw [hchosen.unmarked] at hmarked
  cases hmarked

/-! ## Turns -/

/-- Whether a turn begins. -/
def Beat.opensTurn : Beat → Bool
  | .order .openBattle | .order .passTurn => true
  | _ => false

/-- The beats since the turn began that goes on. -/
def thisTurn (es : List Entry) : List Entry := es.rtakeWhile fun e => !e.beat.opensTurn

/-- The troop that is fought after a beat: the one that was asked for when the battle began. It is
none if there is no battle, or the troop is not in the database. -/
def Entry.fights (data : Database) (now : Option TroopData) (e : Entry) : Option TroopData :=
  if e.after.game.troop.isSome then
    match e.beat with
    | .order .openBattle => data.troop? e.before.game.scene.battle.troopId
    | _ => now
  else none

/-- The troop that is fought after some beats. -/
def fought (data : Database) (es : List Entry) : Option TroopData :=
  es.foldl (Entry.fights data) none

namespace Entry

variable {e : Entry}

/-- The round in which the next page is started. -/
structure Schedules (e : Entry) (d₁ : Director) : Prop where
  round : ∃ stop, e.beat = .advance stop
  read : e.before.game.message.waiting = false
  battle : e.before.game.troop.isSome = true
  idle : e.before.battle.isRunning = false
  start : startNextPage e.before = .ok (true, d₁)

/-- The round in which a page is started. -/
def Binds (e : Entry) (td : TroopData) (k : Nat) : Prop :=
  ∃ d₁, e.Schedules d₁ ∧ StartsPage td k e.before d₁

end Entry

/-- A turn of a battle against a troop: its pages with commands are marked as they are bound. -/
structure InTurn (data : Database) (es : List Entry) (td : TroopData) (d : Director) : Prop where
  troop : ∃ t, d.game.troop = some t ∧ data.troop? t.id = some td
  length : d.pagesRun.length = td.pages.length
  marks : ∀ k page, HasPage td k page →
    (d.pagesRun[k]? = some true ↔ ∃ e ∈ thisTurn es, e.Binds td k)

variable {es : List Entry} {e : Entry}

theorem InTurn.troopPages (h : InTurn data es td d) (hdata : d.data = data) :
    d.troopPages = td.pages.zipIdx := by
  obtain ⟨t, ht, htd⟩ := h.troop
  simp only [Director.troopPages, ht, hdata, Option.bind_some, htd, Option.map_some,
    Option.getD_some]

theorem InTurn.picks (h : InTurn data es td d) (hdata : d.data = data) {started : Bool}
    (hstart : startNextPage d = .ok (started, d₁)) : Picks td.pages.zipIdx d started d₁ :=
  h.troopPages hdata ▸ picks_of_startNextPage d started d₁ hstart

/-- The page that starts is the one that is chosen. -/
theorem InTurn.chosen (h : InTurn data es td e.before) (hdata : e.before.data = data)
    (hbinds : e.Binds td k) : Chosen td k e.before := by
  obtain ⟨d₁, hscheduled, hstarts⟩ := hbinds
  obtain ⟨j, hchosen, hj⟩ := (h.picks hdata hscheduled.start).exists_chosen h.length
  exact hstarts.unique hchosen hj ▸ hchosen

/-- One beat more of the same turn. -/
theorem InTurn.snoc (h : InTurn data es td e.before) (hturn : e.beat.opensTurn = false)
    (hfight : e.before.game.SameFight e.after.game)
    (hlength : e.after.pagesRun.length = e.before.pagesRun.length)
    (hmarks : ∀ k page, HasPage td k page → (e.after.pagesRun[k]? = some true ↔
      e.before.pagesRun[k]? = some true ∨ e.Binds td k)) : InTurn data (es ++ [e]) td e.after := by
  obtain ⟨t, ht, htd⟩ := h.troop
  obtain ⟨t', ht', hid, -⟩ := hfight.some t ht
  refine ⟨⟨t', ht', hid ▸ htd⟩, hlength.trans h.length, fun k page hk => ?_⟩
  have hmore : thisTurn (es ++ [e]) = thisTurn es ++ [e] :=
    List.rtakeWhile_concat_pos _ _ _ (by rw [hturn]; rfl)
  rw [hmarks k page hk, h.marks k page hk, hmore]
  simp only [List.mem_append, List.mem_singleton, or_and_right, exists_or, exists_eq_left]

/-- A beat that schedules nothing and leaves the battle alone. -/
theorem InTurn.snoc_of_same (h : InTurn data es td e.before) (hturn : e.beat.opensTurn = false)
    (hfight : e.before.game.SameFight e.after.game) (hmarks : e.after.pagesRun = e.before.pagesRun)
    (hnot : ∀ d₁, ¬ e.Schedules d₁) : InTurn data (es ++ [e]) td e.after := by
  refine h.snoc hturn hfight (congrArg List.length hmarks) fun k page _ => ?_
  rw [hmarks]
  exact (or_iff_left fun ⟨d₁, hd₁, _⟩ => hnot d₁ hd₁).symm

/-- A tick of the battle. -/
theorem InTurn.snoc_of_battleTick {ran : Bool} {stop : Option Stop}
    (h : InTurn data es td d) (hdata : d.data = data) (hread : d.game.message.waiting = false)
    (hon : d'.game.troop.isSome = true) (htick : BattleTicks d ran d') :
    InTurn data (es ++ [⟨.advance stop, d, d'⟩]) td d' := by
  obtain ⟨t, ht, -⟩ := h.troop
  have hbattle : d.game.troop.isSome = true := Option.isSome_iff_exists.2 ⟨t, ht⟩
  cases htick with
  | settles _ _ _ hsettle =>
    rw [troop_of_settleBattle _ _ () d' hsettle] at hon
    cases hon
  | rests hidle hnone =>
    have hpicks := h.picks hdata hnone
    have hgame : d'.game = d.game := game_of_startNextPage d false d' hnone
    refine h.snoc rfl (hgame ▸ .refl _) hpicks.length fun k page hk => ?_
    rw [(hpicks.all_marked h.length).2 k page hk]
    refine (or_iff_left fun ⟨d₁, hd₁, _⟩ => ?_).symm
    cases hnone.symm.trans hd₁.start
  | @goes d₁ _ _ _ hrunning hupdate hworld =>
    have hgoes := goesOn_of_update hupdate hworld
    rcases hrunning with ⟨hrun, rfl⟩ | ⟨hidle, hstart⟩
    · refine h.snoc_of_same rfl hgoes.fight hgoes.pagesRun fun d₂ hd₂ => ?_
      cases hrun.symm.trans hd₂.idle
    · have hpicks := h.picks hdata hstart
      have hgame : d₁.game = d.game := game_of_startNextPage d true d₁ hstart
      obtain ⟨j, hchosen, hj⟩ := hpicks.exists_chosen h.length
      have hscheduled : Entry.Schedules ⟨.advance stop, d, d'⟩ d₁ :=
        ⟨⟨stop, rfl⟩, hread, hbattle, hidle, hstart⟩
      refine h.snoc rfl (hgame ▸ hgoes.fight) ?_ fun k page hk => ?_
      · exact (congrArg List.length hgoes.pagesRun).trans hpicks.length
      · rw [hgoes.pagesRun]
        by_cases hkj : k = j
        · subst hkj
          exact ⟨fun _ => .inr ⟨d₁, hscheduled, hj⟩, fun _ => hj.marked⟩
        · rw [hj.others k page hkj hk]
          refine (or_iff_left fun ⟨d₂, hd₂, hk₂⟩ => ?_).symm
          cases hstart.symm.trans hd₂.start
          exact hkj (hk₂.unique hchosen hj)

/-- A beat of the same turn, after which the battle is still on. -/
theorem InTurn.step (h : InTurn data es td e.before) (hdata : e.before.data = data) (he : e.Sound)
    (hturn : e.beat.opensTurn = false) (hon : e.after.game.troop.isSome = true) :
    InTurn data (es ++ [e]) td e.after := by
  obtain ⟨beat, d, d'⟩ := e
  obtain ⟨t, ht, -⟩ := h.troop
  have hquiet (hnot : ∀ stop, beat ≠ .advance stop) (hsame : SameBattle d d') :=
    h.snoc_of_same hturn hsame.fight hsame.pagesRun fun _ hd => hnot _ hd.round.choose_spec
  cases beat with
  | tick => exact hquiet (fun _ => nofun) (sameBattle_of_fieldTick d () d' he)
  | order o =>
    cases ho : o.isMartial with
    | false => exact hquiet (fun _ => nofun) (sameBattle_of_order ho d () d' he)
    | true =>
      cases o with
      | openBattle | passTurn => cases hturn
      | settleBattle result =>
        rw [troop_of_settleBattle result d () d' he] at hon
        cases hon
      | _ => cases ho
  | advance stop =>
    cases advances_of_advance d stop d' he with
    | reads hread =>
      refine h.snoc_of_same hturn (.refl _) rfl fun _ hd => ?_
      cases hread.symm.trans hd.read
    | fights hread _ htick => exact h.snoc_of_battleTick hdata hread hon htick
    | asks _ hfield | ticks _ hfield => cases ht.symm.trans hfield

/-- A turn that begins, with no page marked. -/
theorem inTurn_of_opensTurn (hturn : e.beat.opensTurn = true)
    (htroop : ∃ t, e.after.game.troop = some t ∧ data.troop? t.id = some td)
    (hlength : e.after.pagesRun.length = td.pages.length)
    (hmarks : ∀ marked ∈ e.after.pagesRun, marked = false) :
    InTurn data (es ++ [e]) td e.after := by
  refine ⟨htroop, hlength, fun k page _ => ⟨fun hk => ?_, fun ⟨x, hx, _⟩ => ?_⟩⟩
  · cases hmarks true (List.mem_of_getElem? hk)
  · have hnone : thisTurn (es ++ [e]) = [] :=
      List.rtakeWhile_concat_neg _ _ _ (by rw [hturn]; nofun)
    rw [hnone] at hx
    cases hx

theorem InTurn.passTurn (h : InTurn data es td d) (he : Director.passTurn d = .ok ((), d')) :
    InTurn data (es ++ [⟨.order .passTurn, d, d'⟩]) td d' := by
  obtain ⟨t, ht, htd⟩ := h.troop
  have hpass : Ensures Director.passTurn d fun _ d' =>
      (∃ t', d'.game.troop = some t' ∧ t'.id = t.id) ∧
        d'.pagesRun = d.pagesRun.map fun _ => false := by
    simp only [Director.passTurn, ensures_bind, Directing.ensures_act, ensures_getGame]
    rw [show d.world.game.troop = some t from ht]
    simp only [ensures_bind, Directing.ensures_act, ensures_check, ensures_setGame,
      Directing.ensures_modify]
    exact fun turn _ => ⟨⟨_, rfl, rfl⟩, trivial⟩
  obtain ⟨⟨t', ht', hid⟩, hmarks⟩ := hpass () d' he
  refine inTurn_of_opensTurn rfl ⟨t', ht', hid ▸ htd⟩ ?_ fun marked hmarked => ?_
  · exact (congrArg List.length hmarks).trans ((List.length_map _).trans h.length)
  · rw [hmarks] at hmarked
    obtain ⟨_, -, rfl⟩ := List.mem_map.1 hmarked
    rfl

theorem inTurn_openBattle (hdata : d.data = data) (he : openBattle d = .ok ((), d'))
    (htd : data.troop? d.game.scene.battle.troopId = some td) :
    InTurn data (es ++ [⟨.order .openBattle, d, d'⟩]) td d' := by
  -- The first troop of an id is also the one that is found under its own id.
  have hid : td.id = d.game.scene.battle.troopId :=
    of_decide_eq_true (List.find?_some (p := fun x : TroopData => decide (x.id = _)) htd)
  have hopen : Ensures openBattle d fun _ d' => d'.game.troop = some (Troop.ofData td) ∧
      d'.pagesRun = td.pages.map fun _ => false := by
    simp only [openBattle, ensures_bind, Directing.ensures_get, hdata, htd, Option.isNone_some,
      Bool.false_eq_true, if_false, Directing.ensures_act, ensures_check, ensures_setGame,
      Directing.ensures_modify]
    exact fun _ _ => ⟨rfl, rfl⟩
  obtain ⟨htroop, hmarks⟩ := hopen () d' he
  refine inTurn_of_opensTurn rfl ⟨_, htroop, ?_⟩ ?_ fun marked hmarked => ?_
  · exact (congrArg data.troop? hid).trans htd
  · exact (congrArg List.length hmarks).trans (List.length_map _)
  · rw [hmarks] at hmarked
    obtain ⟨_, -, rfl⟩ := List.mem_map.1 hmarked
    rfl

/-- After any beats, the turn of the battle that is fought. -/
theorem inTurn_of_beats (h : Beats (begin data random) es d) (hfought : fought data es = some td) :
    InTurn data es td d := by
  suffices hall : Reachable data random d ∧
      ∀ td, fought data es = some td → InTurn data es td d from hall.2 td hfought
  refine h.along (I := fun es d => Reachable data random d ∧
      ∀ td, fought data es = some td → InTurn data es td d)
    ⟨⟨[], rfl⟩, fun _ h => nomatch h⟩ fun pre e he ⟨hreach, hpre⟩ => ?_
  obtain ⟨c, hc⟩ := he.exists_call
  refine ⟨hreach.call hc, fun td hfought => ?_⟩
  have hdata : e.before.data = data := hreach.manned.data
  rw [fought, List.foldl_append, List.foldl_cons, List.foldl_nil, Entry.fights] at hfought
  split at hfought
  · next hon =>
    obtain ⟨beat, d, d'⟩ := e
    cases hturn : beat.opensTurn with
    | false =>
      have hnow : fought data pre = some td := by
        split at hfought
        · next hopen =>
          cases (hopen : beat = _)
          cases hturn
        · exact hfought
      exact (hpre td hnow).step hdata he hturn hon
    | true =>
      cases beat with
      | tick | advance => cases hturn
      | order o =>
        cases o with
        | openBattle => exact inTurn_openBattle hdata he hfought
        | passTurn => exact (hpre td hfought).passTurn he
        | _ => cases hturn
  · cases hfought

/-! ## Rounds in a battle -/

/-- No round begins a battle. -/
theorem troop_of_advance (hfield : d.game.troop = none) :
    Ensures advance d fun _ d' => d'.game.troop = none := by
  refine (advances_of_advance d).imp fun stop d' h => ?_
  cases h with
  | reads | asks => exact hfield
  | fights _ hbattle => exact absurd hbattle (hfield ▸ nofun)
  | ticks _ _ _ htick => exact (sameBattle_of_fieldTick d () d' htick).fight.none hfield

/-- Rounds after which a battle is on have been rounds of this one battle. -/
theorem fought_of_rounds {rounds : List Entry} (h : Beats d rounds d')
    (hrounds : ∀ e ∈ rounds, ∃ stop, e.beat = .advance stop) (hon : d'.game.troop.isSome = true)
    (es : List Entry) :
    d.game.troop.isSome = true ∧ fought data (es ++ rounds) = fought data es := by
  induction rounds generalizing d es with
  | nil =>
    cases h
    exact ⟨hon, congrArg (fought data) (List.append_nil es)⟩
  | cons e rounds ih =>
    obtain ⟨rfl, he, h⟩ := h
    obtain ⟨⟨stop, hbeat⟩, hrounds⟩ := List.forall_mem_cons.1 hrounds
    obtain ⟨hafter, hsame⟩ := ih h hrounds (es ++ [e])
    refine ⟨?_, ?_⟩
    · by_contra hfield
      rw [Entry.Sound, hbeat] at he
      have hnone := troop_of_advance (Option.not_isSome_iff_eq_none.1 hfield) stop e.after he
      rw [hnone] at hafter
      cases hafter
    · rw [List.append_assoc] at hsame
      refine hsame.trans ?_
      simp [fought, Entry.fights, hafter, hbeat]

/-! ## Every run -/

/-- A page has run in the turn that goes on. -/
def RanIn (es : List Entry) (td : TroopData) (k : Nat) : Prop := ∃ e ∈ thisTurn es, e.Binds td k

/-- A page starts when it should: none is running, it has not run in this turn, its condition holds,
and it is the first page with commands of which that is true. -/
structure Entry.Due (e : Entry) (es : List Entry) (td : TroopData) (k : Nat) : Prop where
  idle : e.before.battle.isRunning = false
  fresh : ¬ RanIn es td k
  holds : ∃ page, HasPage td k page ∧ Holds e.before.game page
  first : ∀ j page, j < k → HasPage td j page → Holds e.before.game page → RanIn es td j

/-- A turn is over when it should be: no page is running, all pages whose condition holds have run
in it (those without commands are marked), and nothing has decided the battle. -/
structure Entry.TurnOver (e : Entry) (es : List Entry) (td : TroopData) : Prop where
  idle : e.after.battle.isRunning = false
  ran : ∀ k page, HasPage td k page → Holds e.after.game page → RanIn es td k
  marked : ∀ (k : Nat) page, td.pages[k]? = some page → Holds e.after.game page →
    e.after.pagesRun[k]? = some true
  undecided : ∃ t, e.after.game.troop = some t ∧ t.terminated = false ∧ t.partyFled = false ∧
    e.after.game.partyFallen = false ∧ (t.enemies = [] ∨ t.isBeaten = false)

theorem InTurn.due (h : InTurn data es td e.before) (hdata : e.before.data = data)
    (hbinds : e.Binds td k) : e.Due es td k := by
  obtain ⟨hunmarked, ⟨page, hpage, hholds⟩, hfirst⟩ := h.chosen hdata hbinds
  obtain ⟨d₁, hscheduled, -⟩ := hbinds
  refine ⟨hscheduled.idle, fun hran => ?_, ⟨page, hpage, hholds⟩, fun j p hj hp hpholds => ?_⟩
  · rw [(h.marks k page hpage).2 hran] at hunmarked
    cases hunmarked
  · exact (h.marks j p hp).1 (hfirst j p hj hp hpholds)

theorem InTurn.exists_binds (h : InTurn data es td e.before) (hdata : e.before.data = data)
    (hscheduled : e.Schedules d₁) : ∃ k, e.Binds td k := by
  obtain ⟨k, -, hk⟩ := (h.picks hdata hscheduled.start).exists_chosen h.length
  exact ⟨k, d₁, hscheduled, hk⟩

/-- A battle that nothing has decided. -/
theorem undecided_of_decided? {g : Game} {t : Troop} (ht : g.troop = some t)
    (h : decided? g = none) : t.terminated = false ∧ t.partyFled = false ∧ g.partyFallen = false ∧
      (t.enemies = [] ∨ t.isBeaten = false) := by
  rw [decided?, ht, Option.bind_eq_bind, Option.bind_some] at h
  repeat' split at h
  all_goals try cases h
  next hterminated hfled hfallen hwon =>
    simp only [Bool.not_eq_true] at hterminated hfled hfallen
    refine ⟨hterminated, hfled, hfallen, ?_⟩
    refine or_iff_not_imp_left.2 fun henemies => ?_
    simpa [henemies] using hwon

/-- A round that tells that the turn is over has found that no page may run. -/
theorem rests_of_advance (h : advance d = .ok (some .battleTurn, d')) :
    d.game.troop.isSome = true ∧ BattleTicks d false d' := by
  have hround := advances_of_advance d _ d' h
  generalize hstop : some Stop.battleTurn = stop at hround
  cases hround with
  | reads => cases hstop
  | asks _ _ hrequest =>
    cases hstop
    exact absurd rfl (request?_ne hrequest).2
  | ticks => split at hstop <;> cases hstop
  | @fights ran _ _ hbattle htick =>
    cases ran with
    | true => cases hstop
    | false => exact ⟨hbattle, htick⟩

theorem InTurn.turnOver (h : InTurn data es td e.before) (hdata : e.before.data = data)
    (he : e.Sound) (hbeat : e.beat = .advance (some .battleTurn)) : e.TurnOver es td := by
  rw [Entry.Sound, hbeat] at he
  cases (rests_of_advance he).2 with
  | rests hidle hnone hopen =>
    have hgame : e.after.game = e.before.game := game_of_startNextPage e.before false e.after hnone
    obtain ⟨hmarked, hkept⟩ := (h.picks hdata hnone).all_marked h.length
    obtain ⟨t, ht, -⟩ := h.troop
    have ht : e.after.game.troop = some t := hgame ▸ ht
    refine ⟨?_, fun k page hk hholds => ?_, fun k page hk hholds => ?_,
      ⟨t, ht, undecided_of_decided? ht hopen⟩⟩
    · rw [(h.picks hdata hnone).battle]
      exact hidle
    · rw [RanIn, ← h.marks k page hk, ← hkept k page hk]
      exact hmarked k page hk.1 (hgame ▸ hholds)
    · exact hmarked k page hk (hgame ▸ hholds)

/-- The pages of troops, in any run, and in any battle against a troop of the database. A page with
commands starts only when it should, and so at most once in a turn; and where the next page is
started, one of them is. When the director stops because the turn is over, it is. -/
theorem troop_pages_by_turn (h : Reachable data random d) :
    (∃ es, Beats (begin data random) es d) ∧
    ∀ es, Beats (begin data random) es d →
      (∀ pre e post td, es = pre ++ e :: post → fought data pre = some td →
        (∀ k, e.Binds td k → e.Due pre td k) ∧ (∀ d₁, e.Schedules d₁ → ∃ k, e.Binds td k)) ∧
      ∀ n d', lead n d = .ok (.battleTurn, d') → ∃ rounds e, Beats d (rounds ++ [e]) d' ∧
        e.beat = .advance (some .battleTurn) ∧
        ∀ td, fought data es = some td → e.TurnOver (es ++ rounds) td := by
  have hdata {es : List Entry} {u : Director} (hes : Beats (begin data random) es u) :
      u.data = data :=
    (Reachable.beats ⟨[], rfl⟩ hes).manned.data
  refine ⟨h.exists_beats, fun es hes => ⟨fun pre e post td hsplit hfought => ?_, ?_⟩⟩
  · obtain ⟨hpre, -, -⟩ := (hsplit ▸ hes).apart
    have hturn := inTurn_of_beats hpre hfought
    exact ⟨fun k => hturn.due (hdata hpre), fun d₁ => hturn.exists_binds (hdata hpre)⟩
  · intro n d' hlead
    obtain ⟨all, hall, hrounds, hlast⟩ := beats_of_lead n d .battleTurn d' hlead
    obtain ⟨rounds, e, rfl, hbeat⟩ := hlast nofun nofun
    refine ⟨rounds, e, hall, hbeat, fun td hfought => ?_⟩
    obtain ⟨hpre, he, -⟩ := hall.apart
    have hon : e.before.game.troop.isSome = true := by
      have hround := he
      rw [Entry.Sound, hbeat] at hround
      exact (rests_of_advance hround).1
    have hsame : fought data (es ++ rounds) = fought data es :=
      (fought_of_rounds hpre (fun x hx => hrounds x (List.mem_append_left _ hx)) hon es).2
    have hbefore := hes.append hpre
    exact (inTurn_of_beats hbefore (hsame.trans hfought)).turnOver (hdata hbefore) he hbeat

/-- Whether a round would start the next page. -/
def awaitsPage (d : Director) : Bool :=
  !d.game.message.waiting && d.game.troop.isSome && !d.battle.isRunning &&
    match startNextPage d with
    | .ok (started, _) => started
    | .error _ => false

theorem exists_schedules {stop : Option Stop} (h : awaitsPage d = true) :
    ∃ d₁, Entry.Schedules ⟨.advance stop, d, d'⟩ d₁ := by
  simp only [awaitsPage, Bool.and_eq_true, Bool.not_eq_true'] at h
  obtain ⟨⟨⟨hread, hbattle⟩, hidle⟩, hstarts⟩ := h
  cases hstart : startNextPage d with
  | error =>
    rw [hstart] at hstarts
    cases hstarts
  | ok r =>
    obtain ⟨started, d₁⟩ := r
    rw [hstart] at hstarts
    cases (hstarts : started = true)
    exact ⟨d₁, ⟨stop, rfl⟩, hread, hbattle, hidle, hstart⟩

/-- In the first turn the first page turns a switch on that the second one waits for. -/
def warband : TroopData where
  id := 1
  pages := [
    { condition := { turn := some { start := 0, every := 0 } }
      commands := [{ code := SharedOp.controlSwitches.code, params := [0, 5, 5, 0] }] },
    { condition := { switchA := some 5 }
      commands := [{ code := SharedOp.controlVariables.code, params := [0, 1, 1, 0, 0, 7] }] }]

/-- The event on the map asks for a battle. -/
def skirmish : Database where
  maps := [{ id := 1, events := [{ id := 1, pages := [{
    trigger := .autoStart
    commands := [{ code := FieldOp.enemyEncounter.code, params := [0, 1] }] }] }] }]
  troops := [warband]

/-- Each of the two pages runs, and then the turn is over. -/
theorem skirmish_runs_both_pages : skirmish.validate = .ok () ∧ ∃ d es e₁ e₂,
    Reachable skirmish default d ∧ Beats (begin skirmish default) (es ++ [e₁, e₂]) d ∧
    fought skirmish es = some warband ∧ (∃ k, e₁.Binds warband k ∧ e₁.Due es warband k) ∧
    (∃ k, e₂.Binds warband k ∧ e₂.Due (es ++ [e₁]) warband k) ∧
    ∃ d' rounds e, lead 1 d = .ok (.battleTurn, d') ∧ Beats d (rounds ++ [e]) d' ∧
      e.TurnOver (es ++ [e₁, e₂] ++ rounds) warband := by
  have hvalid : skirmish.validate = .ok () := by rfl
  have hrun : ∃ d, [Call.execute 5].forM Call.run (begin skirmish default) = .ok ((), d) ∧
      (d.game.scene.battle.troopId = 1 ∧ ∃ d₁, openBattle d = .ok ((), d₁) ∧
        (d₁.game.troop.isSome = true ∧ awaitsPage d₁ = true ∧
          ∃ stop d₂, advance d₁ = .ok (stop, d₂) ∧ (awaitsPage d₂ = true ∧
            d₂.game.troop.isSome = true ∧ ∃ stop d₃, advance d₂ = .ok (stop, d₃) ∧
              (d₃.game.troop.isSome = true ∧
                ∃ stop d₄, lead 1 d₃ = .ok (stop, d₄) ∧ stop = .battleTurn)))) := by
    decide +kernel
  obtain ⟨d, hcalls, hid, d₁, hopen, hon₁, hpage₁, s₁, d₂, hround₁, hpage₂, hon₂, s₂, d₃, hround₂,
    hon₃, _, d₄, hlead, rfl⟩ := hrun
  have hreach : Reachable skirmish default d := ⟨_, hcalls⟩
  obtain ⟨es, hes⟩ := hreach.exists_beats
  -- The beats from the order to begin the battle on.
  let e₀ : Entry := ⟨.order .openBattle, d, d₁⟩
  let e₁ : Entry := ⟨.advance s₁, d₁, d₂⟩
  let e₂ : Entry := ⟨.advance s₂, d₂, d₃⟩
  have hes₀ : Beats (begin skirmish default) (es ++ [e₀]) d₁ := hes.append ⟨rfl, hopen, rfl⟩
  have hes₂ : Beats (begin skirmish default) (es ++ [e₀] ++ [e₁, e₂]) d₃ :=
    hes₀.append ⟨rfl, hround₁, rfl, hround₂, rfl⟩
  have hreach₃ : Reachable skirmish default d₃ := Reachable.beats ⟨[], rfl⟩ hes₂
  have hfought₀ : fought skirmish (es ++ [e₀]) = some warband := by
    simp only [fought, List.foldl_append, List.foldl_cons, List.foldl_nil, Entry.fights, e₀, hon₁,
      if_true, hid]
    rfl
  have hrounds : Beats d₁ [e₁] d₂ ∧ Beats d₁ [e₁, e₂] d₃ :=
    ⟨⟨rfl, hround₁, rfl⟩, rfl, hround₁, rfl, hround₂, rfl⟩
  have hfought₁ : fought skirmish (es ++ [e₀] ++ [e₁]) = some warband := by
    refine (fought_of_rounds hrounds.1 (List.forall_mem_singleton.2 ?_) hon₂ _).2.trans hfought₀
    exact ⟨s₁, rfl⟩
  have hfought₂ : fought skirmish (es ++ [e₀] ++ [e₁, e₂]) = some warband := by
    refine (fought_of_rounds hrounds.2 (List.forall_mem_cons.2 ⟨⟨s₁, rfl⟩, ?_⟩) hon₃ _).2.trans
      hfought₀
    exact List.forall_mem_singleton.2 ⟨s₂, rfl⟩
  obtain ⟨hpages, hover⟩ := (troop_pages_by_turn hreach₃).2 _ hes₂
  obtain ⟨hdue₁, hbound₁⟩ := hpages (es ++ [e₀]) e₁ [e₂] warband rfl hfought₀
  obtain ⟨hdue₂, hbound₂⟩ := hpages (es ++ [e₀] ++ [e₁]) e₂ [] warband (by simp) hfought₁
  obtain ⟨_, hu₁⟩ : ∃ u, e₁.Schedules u := exists_schedules hpage₁
  obtain ⟨_, hu₂⟩ : ∃ u, e₂.Schedules u := exists_schedules hpage₂
  obtain ⟨k₁, hk₁⟩ := hbound₁ _ hu₁
  obtain ⟨k₂, hk₂⟩ := hbound₂ _ hu₂
  obtain ⟨rounds, e, hrounds, -, hover⟩ := hover 1 d₄ hlead
  exact ⟨hvalid, d₃, es ++ [e₀], e₁, e₂, hreach₃, hes₂, hfought₀, ⟨k₁, hk₁, hdue₁ k₁ hk₁⟩,
    ⟨k₂, hk₂, hdue₂ k₂ hk₂⟩, d₄, rounds, e, hlead, hrounds, hover warband hfought₂⟩

end EventScript.Director
