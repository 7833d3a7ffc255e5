import EventScript.Proofs.Acceptance
import EventScript.Proofs.TurnDeeds

/-!
# The pages that events show

An event shows the last of its pages whose condition holds. The pages are looked at only where a
look is asked for, so between two looks they fit the switches and variables of the last one.

* `Game.IsLastPage` says which page is the right one, and `isLastPage_pageOf` that it is found.
* `Game.Settled`: a look is asked for, or every event shows the page that is right but for variables
  that a command set to zero before it waited for a key. What commands do keeps this.
-/

namespace EventScript

/-! ## The right page -/

namespace Game

/-- A number, counted from one, is that of the last page whose condition holds; it is zero if none
holds. -/
def IsLastPage (g : Game) (e : EventData) (n : Number) : Prop :=
  (n = 0 ∧ ∀ p ∈ e.pages, g.meets p.condition = false) ∨
    ∃ k p, e.pages[k]? = some p ∧ g.meets p.condition = true ∧ n = Int32.ofNat (k + 1) ∧
      ∀ j q, k < j → e.pages[j]? = some q → g.meets q.condition = false

theorem isLastPage_pageOf (g : Game) (e : EventData) : g.IsLastPage e (g.pageOf e) := by
  unfold pageOf
  split
  · next k hk =>
    obtain ⟨hlt, hmeets, hnone⟩ := List.findIdx?_eq_some_iff_getElem.1 hk
    rw [List.length_reverse] at hlt
    have hat (j : Nat) (hj : j < e.pages.length) :
        e.pages.reverse[j]? = e.pages[e.pages.length - 1 - j]? := List.getElem?_reverse hj
    refine .inr ⟨e.pages.length - 1 - k, e.pages.reverse[k], ?_, hmeets, ?_, ?_⟩
    · rw [← hat k hlt, List.getElem?_eq_getElem]
    · congr 1
      omega
    · intro j q hj hq
      have hlen : j < e.pages.length := (List.getElem?_eq_some_iff.1 hq).1
      have hq' := hat (e.pages.length - 1 - j) (by omega)
      rw [show e.pages.length - 1 - (e.pages.length - 1 - j) = j by omega, hq,
        List.getElem?_eq_some_iff] at hq'
      obtain ⟨hlt', rfl⟩ := hq'
      exact Bool.eq_false_iff.2 (hnone (e.pages.length - 1 - j) (by omega))
  · next hnone =>
    refine .inl ⟨rfl, fun p hp => ?_⟩
    exact List.findIdx?_eq_none_iff.1 hnone p (List.mem_reverse.2 hp)

/-- Two games that agree on what the pages of an event ask for. -/
theorem IsLastPage.congr {g g' : Game} {e : EventData} {n : Number}
    (hmeets : ∀ p ∈ e.pages, g'.meets p.condition = g.meets p.condition) (h : g.IsLastPage e n) :
    g'.IsLastPage e n := by
  rcases h with ⟨hn, hnone⟩ | ⟨k, p, hp, hmeet, hn, hlast⟩
  · exact .inl ⟨hn, fun p hp => (hmeets p hp).trans (hnone p hp)⟩
  · refine .inr ⟨k, p, hp, (hmeets p (List.mem_of_getElem? hp)).trans hmeet, hn, ?_⟩
    intro j q hj hq
    exact (hmeets q (List.mem_of_getElem? hq)).trans (hlast j q hj hq)

/-- Every event of the map is there and shows its right page. -/
def ShowsPages (g : Game) (d : Database) : Prop :=
  ∀ m, d.map? g.field.id = some m → ∀ e ∈ m.events,
    ∃ n, g.shownPage e.id = some n ∧ g.IsLastPage e n

/-- Every event of the map is there. -/
def Peopled (g : Game) (d : Database) : Prop :=
  ∀ m, d.map? g.field.id = some m → ∀ e ∈ m.events, (g.shownPage e.id).isSome = true

end Game

/-! ## A look at the pages -/

namespace Game

theorem page_showPage (e : EventData) (n : Number) (c : Character) : (showPage e n c).page = n := by
  unfold showPage
  split
  · assumption
  · split
    · rw [(Character.sameEvent_face _ _).page]
    · rfl

/-- Showing the pages of some events touches no other. -/
theorem get?_showAll_of_not_mem (page : EventData → Number) (l : List EventData)
    (es : IdMap Character) {j : Number} (hj : j ∉ l.map (·.id)) :
    (l.foldl (fun es e => es.modify e.id (showPage e (page e))) es).get? j = es.get? j := by
  induction l generalizing es with
  | nil => rfl
  | cons e l ih =>
    rw [List.map_cons, List.mem_cons, not_or] at hj
    rw [List.foldl_cons, ih _ hj.2, IdMap.get?_modify, if_neg hj.1]

theorem get?_showAll (page : EventData → Number) {l : List EventData} {e : EventData}
    (hl : (l.map (·.id)).Nodup) (he : e ∈ l) (es : IdMap Character) :
    (l.foldl (fun es e => es.modify e.id (showPage e (page e))) es).get? e.id =
      (es.get? e.id).map (showPage e (page e)) := by
  induction l generalizing es with
  | nil => cases he
  | cons x l ih =>
    rw [List.map_cons, List.nodup_cons] at hl
    rw [List.foldl_cons]
    rcases List.mem_cons.1 he with rfl | he
    · rw [get?_showAll_of_not_mem page l _ hl.1, IdMap.get?_modify, if_pos rfl]
    · have hne : e.id ≠ x.id := fun h => hl.1 (h ▸ List.mem_map_of_mem he)
      rw [ih hl.2 he, IdMap.get?_modify, if_neg hne]

/-- After a look every event shows its right page. -/
theorem showsPages_showPages {d : Database} (hd : d.validate = .ok ()) {g : Game}
    (hg : g.Peopled d) : (g.showPages d).ShowsPages d := by
  intro m hm e he
  have hm' : d.map? g.field.id = some m := hm
  refine ⟨g.pageOf e, ?_, isLastPage_pageOf g e⟩
  have hthere := hg m hm' e he
  have hids : (m.events.map (·.id)).Nodup :=
    (Database.validate_eq_ok_iff.1 hd).events m (List.mem_of_find?_eq_some hm')
  simp only [shownPage, showPages, hm', get?_showAll g.pageOf hids he]
  unfold shownPage at hthere
  cases hc : g.field.events.get? e.id with
  | none => rw [hc] at hthere; cases hthere
  | some c => simp [page_showPage]

theorem ShowsPages.peopled {g : Game} {d : Database} (h : g.ShowsPages d) : g.Peopled d := by
  intro m hm e he
  obtain ⟨n, hn, -⟩ := h m hm e he
  rw [hn]
  rfl

end Game

/-! ## Between two looks -/

/-- The variables that a command of the database sets to zero before it waits for a key. -/
def Database.Resets (d : Database) (id : Number) : Prop :=
  ∃ commands ∈ d.lists, ∃ c ∈ commands, c.resets? = some id

/-- Other variables that differ at most where a command sets one to zero before it waits. -/
def Variables.ResetTo (d : Database) (v v' : Variables) : Prop :=
  ∀ id, v'.get id = v.get id ∨ d.Resets id ∧ v'.get id = Number.clampInt v'.low v'.high 0

theorem Variables.ResetTo.refl (d : Database) (v : Variables) : v.ResetTo d v := fun _ => .inl rfl

theorem Variables.bounds_set (v : Variables) (id value : Number) :
    (v.set id value).low = v.low ∧ (v.set id value).high = v.high :=
  ⟨rfl, rfl⟩

theorem Variables.ResetTo.set {d : Database} {v v' : Variables} (h : v.ResetTo d v') {id : Number}
    (hid : d.Resets id) : v.ResetTo d (v'.set id 0) := by
  intro j
  obtain ⟨hlow, hhigh⟩ := bounds_set v' id 0
  rw [hlow, hhigh, get_set]
  split
  · next hj => exact .inr ⟨hj.1 ▸ hid, rfl⟩
  · exact h j

namespace Game

/-- Every event of the map is there, and a look at the pages is asked for, or every event shows its
right page but for variables that were set to zero before a key was waited for. -/
structure Settled (g : Game) (d : Database) : Prop where
  peopled : g.Peopled d
  shown : g.field.needRefresh = true ∨
    ∃ v : Variables, v.ResetTo d g.vars ∧ ({ g with vars := v }).ShowsPages d

variable {d : Database} {g g' : Game}

/-- What leaves the map and the shown pages as they are, and notes what it writes but for such a
zero. -/
theorem Settled.of_same (h : g.Settled d) (hid : g'.field.id = g.field.id)
    (hpages : ∀ id, g'.shownPage id = g.shownPage id)
    (hrefresh : g.field.needRefresh = true → g'.field.needRefresh = true)
    (hmemory : g'.field.needRefresh = true ∨ g'.switches = g.switches ∧
      ∀ v : Variables, v.ResetTo d g.vars → v.ResetTo d g'.vars) : g'.Settled d where
  peopled m hm e he := by
    rw [hpages]
    exact h.peopled m (hid ▸ hm) e he
  shown := by
    rcases hmemory with hr | ⟨hswitches, hvars⟩
    · exact .inl hr
    refine h.shown.imp hrefresh fun ⟨v, hv, hshows⟩ => ⟨v, hvars v hv, fun m hm e he => ?_⟩
    obtain ⟨n, hn, hlast⟩ := hshows m (hid ▸ hm) e he
    refine ⟨n, (hpages e.id).trans hn, hlast.congr fun p _ => ?_⟩
    simp only [meets, hswitches]

theorem Settled.of_noted (h : g.Settled d) (hn : g.Noted g') : g'.Settled d := by
  refine h.of_same hn.mapId hn.pages hn.refresh (hn.memory.imp_right fun ⟨hs, hv⟩ => ⟨hs, ?_⟩)
  intro v
  rw [hv]
  exact id

theorem Settled.of_deed {callees : List (List Command)} {reset : Option Number} {o : Outcome}
    (h : g.Settled d) (hd : Deed callees reset o g g')
    (hreset : ∀ id, reset = some id → d.Resets id) : g'.Settled d := by
  refine h.of_same hd.mapId hd.pages hd.refresh ?_
  rcases hd.memory with hr | ⟨hs, hv⟩ | ⟨id, hid, hs, hv⟩
  · exact .inl hr
  · exact .inr ⟨hs, fun v => by rw [hv]; exact fun h => h⟩
  · refine .inr ⟨hs, fun v hold => ?_⟩
    rw [hv]
    exact hold.set (hreset id hid)

/-- After a look every event shows its right page, and no look is asked for. -/
theorem settled_showPages (hd : d.validate = .ok ()) (hg : g.Peopled d) :
    (g.showPages d).Settled d ∧ (g.showPages d).field.needRefresh = false :=
  ⟨⟨(showsPages_showPages hd hg).peopled,
    .inr ⟨_, .refl d _, showsPages_showPages hd hg⟩⟩, rfl⟩

theorem Settled.looked (hd : d.validate = .ok ()) (h : g.Settled d) :
    (g.looked d).Settled d ∧ (g.looked d).field.needRefresh = false := by
  unfold Game.looked
  split
  · exact settled_showPages hd h.peopled
  · next hr => exact ⟨h, Bool.eq_false_iff.2 hr⟩

/-- On a map that was just set up every event of it is there. -/
theorem settled_enterMap (hd : d.validate = .ok ()) (g : Game) (id : Number) :
    (g.enterMap d id).Settled d ∧ (g.enterMap d id).field.needRefresh = false := by
  refine settled_showPages hd fun m hm e he => ?_
  cases hid : d.map? id with
  | none =>
    simp only [hid, Field.enterUnknown] at hm
    cases hm
  | some m' =>
    have hm' : m'.id = id := by simpa using List.find?_some hid
    simp only [hid, Field.enter, hm', Option.some.injEq] at hm
    subst hm
    simp only [shownPage, Field.enter, Option.isSome_map]
    refine IdMap.isSome_get?_ofList (v := Character.standing e.id e.x e.y) ?_
    exact List.mem_map.2 ⟨e, he, rfl⟩

/-- The pages that are shown are right for every event of which no page watches such a variable. -/
theorem Settled.isLastPage (h : g.Settled d) (hr : g.field.needRefresh = false) {m : MapData}
    (hm : d.map? g.field.id = some m) {e : EventData} (he : e ∈ m.events)
    (hwatch : ∀ p ∈ e.pages, ∀ v, p.condition.variableLeast = some v → ¬ d.Resets v.id) :
    ∃ n, g.shownPage e.id = some n ∧ g.IsLastPage e n := by
  obtain ⟨v, hv, hshows⟩ := h.shown.resolve_left (by rw [hr]; exact Bool.false_ne_true)
  obtain ⟨n, hn, hlast⟩ := hshows m hm e he
  refine ⟨n, hn, hlast.congr fun p hp => ?_⟩
  cases hc : p.condition.variableLeast with
  | none => simp only [meets, hc, Option.all_none]
  | some c =>
    have hget : g.vars.get c.id = v.get c.id :=
      (hv c.id).resolve_right fun hreset => hwatch p hp c hc hreset.1
    simp only [meets, hc, Option.all_some, hget]

end Game

end EventScript
