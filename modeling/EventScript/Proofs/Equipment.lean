import EventScript.Proofs.CallDepth
import EventScript.Proofs.Execution
import EventScript.Proofs.PartyBounds

/-!
# What is carried and what is worn

An item that is put on leaves the inventory, and what was in the slot goes there. As long as the
inventory has room for all that is worn, no item is made and none is lost.

* `Game.owned` counts an item in the inventory and on every actor. `Game.Stowable` says that there
  is room for what is worn, and `Game.Stocked.stowable` when that is sure to be so.
* `Game.Shifts` says by how much a step changes what is owned: `Game.shifts_equip` for a slot that
  is filled, `Game.shifts_giveItem` for an item that is given or taken.
* `Commands.brings_equipSlots`: slot by slot these changes come to nothing (`Game.Conserves`).
* `Commands.equipment_is_conserved`: so they do for a whole command.
-/

namespace EventScript

open Act

/-- Where a record is replaced, what it held counts no longer, and what the new one holds does. -/
theorem IdMap.count_flatMap_place {α β : Type} [DecidableEq β] (f : α → List β) (x : β)
    {k : Number} {old : α} (new : α) {l : List (Number × α)} (hl : l.Pairwise fun a b => a.1 < b.1)
    (h : lookup k l = some old) :
    ((place k new l).flatMap fun e => f e.2).count x + (f old).count x =
      (l.flatMap fun e => f e.2).count x + (f new).count x := by
  induction l with
  | nil => cases h
  | cons e l ih =>
    obtain ⟨hhead, htail⟩ := List.pairwise_cons.1 hl
    unfold place
    split
    · next hlt =>
      have hbelow : ∀ y ∈ e :: l, k < y.1 :=
        List.forall_mem_cons.2 ⟨hlt, fun y hy => Int32.lt_trans hlt (hhead y hy)⟩
      rw [lookup_eq_none_of_lt hbelow] at h
      cases h
    · split
      · next heq =>
        obtain rfl : e.2 = old := by simpa [lookup, heq] using h
        simp only [List.flatMap_cons, List.count_append]
        omega
      · next hne =>
        rw [lookup, if_neg (Ne.symm hne)] at h
        have hrest := ih htail h
        simp only [List.flatMap_cons, List.count_append]
        omega

/-- So many of one item, and none of any other. -/
def pieces (item : Number) (n : Int) (x : Number) : Int := if x = item then n else 0

/-- A slot counts for the item that is put into it, and no longer for the one that it held. -/
theorem Actor.wornCount_equip (a : Actor) {slot : Nat} (hslot : slot < 5) (new item : Number) :
    ((a.equip slot new).wornCount item : Int) =
      a.wornCount item + (pieces new 1 item - pieces (a.slotItem slot) 1 item) := by
  have hlength : slot < a.equipment.toList.length := by simpa using hslot
  have hheld : a.slotItem slot = a.equipment.toList[slot] := by
    simp [slotItem, hslot]
  have hworn : (if a.slotItem slot = item then 1 else 0) ≤ a.equipment.toList.count item := by
    split
    · next h => exact List.count_pos_iff.2 (h ▸ hheld ▸ List.getElem_mem hlength)
    · exact Nat.zero_le _
  rw [wornCount, wornCount, equip, Vector.toList_setIfInBounds, List.count_set hlength, ← hheld]
  simp only [beq_iff_eq, pieces, eq_comm (a := item)]
  by_cases hnew : new = item
  · by_cases hold : a.slotItem slot = item
    · simp only [hnew, hold, if_true] at hworn ⊢
      omega
    · simp only [hnew, hold, if_true, if_false]
      omega
  · by_cases hold : a.slotItem slot = item
    · simp only [hnew, hold, if_true, if_false] at hworn ⊢
      omega
    · simp only [hnew, hold, if_false]
      omega

/-- Between none and the maximum, exactly as many are carried as were given. -/
theorem Party.exists_giveItem {p : Party} {id amount : Number} (hid : 0 < id)
    (hlow : 0 ≤ (p.held id).toInt + amount.toInt)
    (hhigh : (p.held id).toInt + amount.toInt ≤ p.itemMax.toInt) :
    ∃ p' n, p.giveItem id amount = .ok p' ∧ n.toInt = (p.held id).toInt + amount.toInt ∧
      ∀ item, p'.items.get? item =
        if item = id then (if n = 0 then none else some n) else p.items.get? item := by
  have hmax := p.itemMax.toInt_lt
  obtain ⟨n, hn⟩ : ∃ n, Checked.add (p.held id) amount = .ok n := by
    refine Checked.exists_fit_iff.2 ?_
    show -2147483648 ≤ (p.held id).toInt + amount.toInt ∧
      (p.held id).toInt + amount.toInt ≤ 2147483647
    omega
  have hexact : n.toInt = (p.held id).toInt + amount.toInt := Checked.fit_eq_ok_iff.1 hn
  have hcount : Number.clamp 0 p.itemMax n = n := by
    rw [← Int32.toInt_inj, Number.toInt_clamp, Int32.toInt_zero]
    omega
  have hgive : p.giveItem id amount =
      .ok { p with items := if n = 0 then p.items.erase id else p.items.insert id n } := by
    rw [Int32.lt_iff_toInt_lt, Int32.toInt_zero] at hid
    rw [giveItem, if_neg (by omega), hn]
    exact congrArg (fun count => Except.ok
      { p with items := if count = 0 then p.items.erase id else p.items.insert id count }) hcount
  refine ⟨_, n, hgive, hexact, fun item => ?_⟩
  dsimp only
  split
  · exact IdMap.get?_erase _ _ _
  · exact IdMap.get?_insert _ _ _ _

/-! ## What is owned -/

namespace Game

/-- The number of slots that hold an item, of those in the party and of those who are not. -/
def wornByAll (g : Game) (item : Number) : Nat :=
  (g.actors.entries.flatMap fun e => e.2.equipment.toList).count item

/-- How often an item is carried or worn. -/
def owned (g : Game) (item : Number) : Int := (g.party.held item).toInt + g.wornByAll item

/-- Every stored count is one that the inventory has room for. -/
def Stocked (g : Game) : Prop :=
  ∀ item n, g.party.items.get? item = some n → 1 ≤ n ∧ n ≤ g.party.itemMax

/-- The inventory has room for what is worn besides. -/
structure Stowable (g : Game) : Prop where
  stocked : g.Stocked
  room : ∀ item, 0 < item → g.owned item ≤ g.party.itemMax.toInt

/-- A step in which what is owned of each item changes by a number. -/
structure Shifts (g g' : Game) (change : Number → Int) : Prop where
  itemMax : g'.party.itemMax = g.party.itemMax
  stocked : g.Stocked → g'.Stocked
  owned : ∀ item, 0 < item → g'.owned item = g.owned item + change item

variable {g g' g'' : Game} {change change' : Number → Int}

theorem Shifts.trans (h : g.Shifts g' change) (h' : g'.Shifts g'' change') :
    g.Shifts g'' fun item => change item + change' item := by
  refine ⟨h'.itemMax.trans h.itemMax, fun hg => h'.stocked (h.stocked hg), fun item hitem => ?_⟩
  rw [h'.owned item hitem, h.owned item hitem, Int.add_assoc]

/-- What the changes come to is what counts. -/
theorem Shifts.congr (h : g.Shifts g' change) (hc : ∀ item, 0 < item → change item = change' item) :
    g.Shifts g' change' :=
  ⟨h.itemMax, h.stocked, fun item hitem => hc item hitem ▸ h.owned item hitem⟩

/-- A step in which no item is made and none is lost. -/
def Conserves (g g' : Game) : Prop := g.Shifts g' fun _ => 0

theorem Conserves.refl (g : Game) : g.Conserves g :=
  ⟨rfl, id, fun _ _ => (Int.add_zero _).symm⟩

theorem Conserves.trans (h : g.Conserves g') (h' : g'.Conserves g'') : g.Conserves g'' :=
  (Shifts.trans h h').congr fun _ _ => rfl

theorem Conserves.owned (h : g.Conserves g') {item : Number} (hitem : 0 < item) :
    g'.owned item = g.owned item :=
  (Shifts.owned h item hitem).trans (Int.add_zero _)

theorem Conserves.stowable (h : g.Conserves g') (hg : g.Stowable) : g'.Stowable := by
  refine ⟨Shifts.stocked h hg.stocked, fun item hitem => ?_⟩
  rw [h.owned hitem, Shifts.itemMax h]
  exact hg.room item hitem

theorem Stocked.held (h : g.Stocked) (item : Number) : g.party.held item = 0 ∨
    1 ≤ (g.party.held item).toInt ∧ (g.party.held item).toInt ≤ g.party.itemMax.toInt := by
  unfold Party.held
  cases hitem : g.party.items.get? item with
  | none => exact .inl rfl
  | some n =>
    have hn := h item n hitem
    rw [Int32.le_iff_toInt_le, Int32.le_iff_toInt_le, Int32.toInt_one] at hn
    exact .inr hn

theorem Stocked.held_nonneg (h : g.Stocked) (item : Number) : 0 ≤ (g.party.held item).toInt := by
  obtain hnone | hsome := h.held item
  · rw [hnone]
    decide
  · omega

theorem wornByAll_le (g : Game) (item : Number) :
    g.wornByAll item ≤ 5 * g.actors.entries.length := by
  unfold wornByAll
  induction g.actors.entries with
  | nil => exact Nat.le_refl 0
  | cons e l ih =>
    have hslots : e.2.equipment.toList.count item ≤ 5 :=
      List.count_le_length.trans_eq e.2.equipment.length_toList
    rw [List.flatMap_cons, List.count_append, List.length_cons]
    omega

/-- There is room for what is worn, where five more of everything could be carried for every
actor. -/
theorem Stocked.stowable (h : g.Stocked) (hroom : ∀ item, 0 < item →
    (g.party.held item).toInt + 5 * g.actors.entries.length ≤ g.party.itemMax.toInt) :
    g.Stowable := by
  refine ⟨h, fun item hitem => ?_⟩
  have hroom := hroom item hitem
  have hworn := g.wornByAll_le item
  unfold owned
  omega

theorem Provided.stocked {c : Config} (h : g.Provided c) : g.Stocked := fun item n hn => by
  rw [h.limited.itemMax]
  exact (h.bounded.items item n hn).2

/-- For what was taken off there is room in the inventory. -/
theorem Stowable.held_lt (hg : g.Stowable) {item : Number} (hitem : 0 < item)
    (h : g.Shifts g' fun x => -pieces item 1 x) :
    (g'.party.held item).toInt < g'.party.itemMax.toInt := by
  have hroom := hg.room item hitem
  have howned := h.owned item hitem
  rw [pieces, if_pos rfl, owned] at howned
  rw [h.itemMax]
  omega

/-- A slot is filled: the item in it is owned once more, and the one that it held once less. -/
theorem shifts_equip {id : Number} {a : Actor} (ha : g.actors.get? id = some a) {slot : Nat}
    (hslot : slot < 5) (item : Number) :
    g.Shifts { g with actors := g.actors.insert id (a.equip slot item) }
      fun x => pieces item 1 x - pieces (a.slotItem slot) 1 x := by
  refine ⟨rfl, fun h => h, fun x _ => ?_⟩
  have hall := IdMap.count_flatMap_place (fun a : Actor => a.equipment.toList) x
    (a.equip slot item) g.actors.sorted ha
  have hworn := a.wornCount_equip hslot item x
  unfold Actor.wornCount at hworn
  unfold owned wornByAll IdMap.insert
  dsimp only
  omega

/-- What is given or taken is owned so many times more. -/
theorem shifts_giveItem {id amount : Number} (hid : 0 < id)
    (hlow : 0 ≤ (g.party.held id).toInt + amount.toInt)
    (hhigh : (g.party.held id).toInt + amount.toInt ≤ g.party.itemMax.toInt) :
    ∃ p, g.party.giveItem id amount = .ok p ∧
      g.Shifts { g with party := p } (pieces id amount.toInt) := by
  obtain ⟨p, n, hgive, hn, hitems⟩ := Party.exists_giveItem hid hlow hhigh
  have hmax : p.itemMax = g.party.itemMax := by rw [Party.giveItem_eq hgive]
  refine ⟨p, hgive, hmax, fun hg item m hm => ?_, fun item _ => ?_⟩
  · have hroom : 0 ≤ g.party.itemMax := by
      rw [Int32.le_iff_toInt_le, Int32.toInt_zero]
      omega
    rw [hmax]
    obtain hbefore | ⟨-, hgiven⟩ := Party.counted_giveItem hroom hgive hm
    · exact hg item m hbefore
    · exact hgiven
  · have hheld : (p.held item).toInt = (g.party.held item).toInt + pieces id amount.toInt item := by
      rw [Party.held, hitems, pieces]
      split
      · next hitem =>
        rw [hitem, ← hn]
        split
        · next hzero => rw [hzero]; rfl
        · rfl
      · exact (Int.add_zero _).symm
    unfold owned wornByAll
    dsimp only
    omega

end Game

/-- Whatever happens in a game, the inventory is in order. -/
theorem Director.Played.stocked {data : Database} {d : Director} (hd : data.validate = .ok ())
    (hgold : 0 ≤ data.config.goldMax) (hitem : 0 ≤ data.config.itemMax) (h : d.Played data) :
    d.game.Stocked :=
  (h.keeps (Game.provided_begin hd hgold) fun _ _ hmove => hmove.provided hgold hitem).stocked

/-! ## Acts that go through -/

namespace Act

variable {α β : Type} {P Q : Game → Prop} {a : Act α} {f : α → Act β} {w : World}

/-- An act goes through, and the game that comes of it has a property. -/
def Brings (a : Act α) (w : World) (P : Game → Prop) : Prop :=
  ∃ r w', a w = .ok (r, w') ∧ P w'.game

theorem Brings.imp (h : a.Brings w P) (hPQ : ∀ g, P g → Q g) : a.Brings w Q := by
  obtain ⟨r, w', ha, hw'⟩ := h
  exact ⟨r, w', ha, hPQ _ hw'⟩

theorem brings_pure {r : α} (h : P w.game) : (pure r : Act α).Brings w P := ⟨r, w, rfl, h⟩

theorem brings_warn {m : Warning} (h : P w.game) : (warn m).Brings w P := ⟨(), _, rfl, h⟩

theorem brings_setGame {g : Game} (h : P g) : (setGame g).Brings w P := ⟨(), _, rfl, h⟩

theorem brings_getGame {f : Game → Act α} (h : (f w.game).Brings w P) :
    (getGame >>= f).Brings w P := h

theorem brings_check {x : Except Overflow α} {r : α} (hx : x = .ok r) (h : (f r).Brings w P) :
    (check x >>= f).Brings w P := by
  obtain ⟨s, w', hf, hw'⟩ := h
  exact ⟨s, w', (bind_of_ok (Frame.check_of_ok hx w)).trans hf, hw'⟩

theorem Brings.bind (h : a.Brings w P) (hf : ∀ r w', P w'.game → (f r).Brings w' Q) :
    (a >>= f).Brings w Q := by
  obtain ⟨r, w', ha, hw'⟩ := h
  obtain ⟨s, w'', hs, hw''⟩ := hf r w' hw'
  exact ⟨s, w'', (bind_of_ok ha).trans hs, hw''⟩

/-- An act is done or left out, and more is done after it. -/
theorem Brings.guarded {c : Prop} [Decidable c] {a : Act PUnit} {f : PUnit → Act α}
    (h : (if c then a else pure ⟨⟩).Brings w P) (hf : ∀ w', P w'.game → (f ⟨⟩).Brings w' Q) :
    (if c then a >>= f else f ⟨⟩).Brings w Q := by
  have hbind : (if c then a >>= f else f ⟨⟩) = (if c then a else pure ⟨⟩) >>= f := by
    split <;> rfl
  rw [hbind]
  exact h.bind fun _ w' hw' => hf w' hw'

/-- Going through a list brings about what every step keeps. -/
theorem brings_forM {g : α → Act PUnit} {l : List α}
    (hg : ∀ x u, P u.game → (g x).Brings u P) (h : P w.game) : (l.forM g).Brings w P := by
  induction l generalizing w with
  | nil => exact brings_pure h
  | cons x l ih => exact (hg x w h).bind fun _ _ hu => ih hu

/-- What there is room for is given, and what is there is taken. An id that is not positive has no
item. -/
theorem brings_giveItem {item amount : Number}
    (h : 0 < item → 0 ≤ (w.game.party.held item).toInt + amount.toInt ∧
      (w.game.party.held item).toInt + amount.toInt ≤ w.game.party.itemMax.toInt) :
    (if 0 < item then giveItem item amount else pure ()).Brings w
      fun g => w.game.Shifts g (pieces item amount.toInt) := by
  by_cases hitem : 0 < item
  · obtain ⟨p, hgive, hshift⟩ := Game.shifts_giveItem hitem (h hitem).1 (h hitem).2
    have hwarn : (if item.toInt ≤ 0 then warn .invalidItem else pure ()).Brings w (· = w.game) := by
      split
      · exact brings_warn rfl
      · exact brings_pure rfl
    rw [if_pos hitem]
    unfold giveItem
    refine hwarn.guarded fun w' hw' => brings_getGame ?_
    rw [hw']
    exact brings_check hgive (brings_setGame hshift)
  · rw [if_neg hitem]
    refine brings_pure ⟨rfl, id, fun x hx => ?_⟩
    have hne : x ≠ item := by
      rintro rfl
      exact hitem hx
    rw [pieces, if_neg hne, Int.add_zero]

end Act

namespace Commands

variable {w : World} {g : Game}

/-- What was put into a slot is taken from the inventory. -/
theorem brings_putOn {id item : Number} {a : Actor} {slot : Nat} (hslot : slot < 5)
    (ha : g.actors.get? id = some a) (hg : g.Stocked) (hstock : 0 < item → g.party.held item ≠ 0)
    (hw : w.game = { g with actors := g.actors.insert id (a.equip slot item) }) :
    (if 0 < item then giveItem item (-1) else pure ()).Brings w
      fun g' => g.Shifts g' fun x => -pieces (a.slotItem slot) 1 x := by
  have hone : (-1 : Number).toInt = -1 := by decide
  refine (brings_giveItem fun hitem => ?_).imp fun g' hg' => ?_
  · have hheld := (hg.held item).resolve_left (hstock hitem)
    rw [hw, hone]
    dsimp only
    omega
  · refine ((Game.shifts_equip ha hslot item).trans (hw ▸ hg')).congr fun x _ => ?_
    have hcancel : pieces item 1 x + pieces item (-1) x = 0 := by
      unfold pieces
      split <;> rfl
    rw [hone]
    omega

/-- What was in a slot goes to the inventory. -/
theorem brings_takeOff {old : Number} (hg : g.Stowable)
    (h : g.Shifts w.game fun x => -pieces old 1 x) :
    (if 0 < old then giveItem old 1 else pure ()).Brings w g.Conserves := by
  refine (brings_giveItem fun hold => ?_).imp fun g' hg' => ?_
  · have hroom := hg.held_lt hold h
    have hnonneg := (h.stocked hg.stocked).held_nonneg old
    rw [Int32.toInt_one]
    omega
  · exact (h.trans hg').congr fun x _ => Int.add_left_neg _

/-- Slot by slot items go on and come off, as long as there is one to put on. -/
theorem brings_equipSlots (item id : Number) {slots : List Nat}
    (hslots : ∀ slot ∈ slots, slot < 5) (hg : g.Stowable) (h : g.Conserves w.game) :
    (equipSlots item id slots).Brings w g.Conserves := by
  induction slots generalizing w with
  | nil => exact brings_pure h
  | cons slot slots ih =>
    obtain ⟨hslot, hslots⟩ := List.forall_mem_cons.1 hslots
    have hw := h.stowable hg
    unfold equipSlots
    refine brings_getGame ?_
    split
    · exact brings_pure h
    · next hstock =>
      simp only [Bool.and_eq_true, decide_eq_true_eq, not_and] at hstock
      dsimp only
      split
      · exact brings_pure h
      · next a ha =>
        refine Brings.bind (P := (· = _)) (brings_setGame rfl) fun _ _ hfilled => ?_
        refine (brings_putOn hslot ha hw.stocked hstock hfilled).guarded fun _ hput => ?_
        exact (brings_takeOff hw hput).guarded fun _ htaken => ih hslots (h.trans htaken)

theorem brings_selectActors {P : Game → Prop} (mode value : Number) (h : P w.game) :
    (selectActors mode value).Brings w P := by
  have hone (id : Number) : (if (w.game.actors.get? id).isNone then (do
      warn .actorNotFound
      return []) else return [id] : Act (List Number)).Brings w P := by
    split
    · exact (brings_warn h).bind fun _ _ hw => brings_pure hw
    · exact brings_pure h
  refine brings_getGame ?_
  dsimp only
  split
  · exact brings_pure h
  · exact hone _
  · exact hone _
  · exact (brings_warn h).bind fun _ _ hw => brings_pure hw

theorem brings_operand {P : Game → Prop} (mode value : Number) (h : P w.game) :
    (operand mode value).Brings w P := by
  unfold operand
  split
  · exact brings_pure h
  · exact brings_getGame (brings_pure h)

theorem brings_changeEquipment (env : Env) (f : Frame) (c : Command) (hg : g.Stowable)
    (h : g.Conserves w.game) : (changeEquipment env f c).Brings w g.Conserves := by
  have hequip (item : Number) {slots : List Nat} (hslots : ∀ slot ∈ slots, slot < 5) {w : World}
      (h : g.Conserves w.game) : (do
        (← selectActors (c.param 0) (c.param 1)).forM fun id => equipSlots item id slots
        return Outcome.next f.pc : Act Outcome).Brings w g.Conserves := by
    refine (brings_selectActors (P := g.Conserves) _ _ h).bind fun ids _ hw => ?_
    refine Brings.bind (P := g.Conserves) (brings_forM (fun id _ hu => ?_) hw)
      fun _ _ hw => brings_pure hw
    exact brings_equipSlots item id hslots hg hu
  unfold changeEquipment
  dsimp only
  split
  · refine (brings_operand (P := g.Conserves) _ _ h).bind fun item _ hw => ?_
    split
    · next slot _ => exact hequip item (by simp) hw
    · exact (brings_warn (P := g.Conserves) hw).bind fun _ _ hw => brings_pure hw
  · split
    · next hslot => exact hequip 0 (List.forall_mem_singleton.2 (by omega)) h
    · exact hequip 0 (by decide) h
  · exact brings_pure h

/-- Whatever is put on or taken off, by whom and from which slots, no item is made and none is
lost. -/
theorem equipment_is_conserved (env : Env) (f : Frame) {c : Command}
    (hc : c.opcode = .shared .changeEquipment) (hw : w.game.Stowable) :
    ∃ o w', perform env f c w = .ok (o, w') ∧ w'.game.Stowable ∧
      ∀ item, 0 < item → w'.game.owned item = w.game.owned item := by
  rw [perform_shared env f hc]
  obtain ⟨o, w', hrun, hsame⟩ := brings_changeEquipment env f c hw (.refl _)
  exact ⟨o, w', hrun, hsame.stowable hw, fun item hitem => hsame.owned hitem⟩

/-- Two travellers, a sword on one of them and an axe on the other, and a second axe to be found. -/
def armoury : Database where
  config := { itemMax := 20 }
  items := [{ id := 5, kind := .weapon }, { id := 6, kind := .weapon }]
  actors := [
    { id := 1, equipment := #v[6, 0, 0, 0, 0] },
    { id := 2, equipment := #v[5, 0, 0, 0, 0] }]
  start := { party := [1, 2], mapId := 1 }
  maps := [{ id := 1, events := [{ id := 1, pages := [{
    trigger := .autoStart
    commands := [{ code := SharedOp.changeItems.code, params := [0, 0, 5, 0, 1] }] }] }] }]

/-- Everybody takes the axe. -/
def axeForAll : Command := { code := SharedOp.changeEquipment.code, params := [0, 0, 0, 0, 5] }

/-- The one axe goes to the first, whose sword comes off, and the second keeps the other. -/
theorem axes_are_shared : ∃ (d : Director) (o : Outcome) (w' : World),
    Director.Played armoury d ∧ d.game.Stowable ∧
      perform ⟨armoury, {}⟩ (.idle .field 0 true) axeForAll { game := d.game } = .ok (o, w') ∧
      d.game.party.items.get? 5 = some 1 ∧ w'.game.party.items.get? 5 = none ∧
      w'.game.party.items.get? 6 = some 1 ∧ w'.game.owned 5 = d.game.owned 5 ∧
      w'.game.owned 6 = d.game.owned 6 := by
  have hvalid : armoury.validate = .ok () := by rfl
  have hrun : ∃ d,
      [Director.Call.execute 2].forM Director.Call.run (Director.begin armoury default) =
        .ok ((), d) ∧ d.game.party.items = IdMap.insert ∅ 5 1 ∧ d.game.actors.entries.length = 2 ∧
        d.game.party.itemMax = 20 ∧
        ∃ p, perform ⟨armoury, {}⟩ (.idle .field 0 true) axeForAll { game := d.game } = .ok p ∧
          p.2.game.party.items.get? 5 = none ∧ p.2.game.party.items.get? 6 = some 1 := by
    decide +kernel
  obtain ⟨d, hcalls, hitems, hactors, hmax, ⟨o, w'⟩, hperform, hnone, hsword⟩ := hrun
  have hreachable : Director.Reachable armoury default d := ⟨_, hcalls⟩
  have hstocked : d.game.Stocked := hreachable.played.stocked hvalid (by decide) (by decide)
  have hstowable : d.game.Stowable := hstocked.stowable fun item _ => by
    rw [Party.held, hitems, hactors, hmax, IdMap.get?_insert]
    split
    · decide
    · exact (by decide : (0 : Number).toInt + 5 * (2 : Nat) ≤ (20 : Number).toInt)
  obtain ⟨o', u, hrun, -, howned⟩ :=
    @equipment_is_conserved { game := d.game } ⟨armoury, {}⟩ (.idle .field 0 true) axeForAll rfl
      hstowable
  obtain ⟨rfl, rfl⟩ := Prod.mk.inj (Except.ok.inj (hperform.symm.trans hrun))
  refine ⟨d, o, w', hreachable.played, hstowable, hperform, ?_, hnone, hsword,
    howned 5 (by decide), howned 6 (by decide)⟩
  rw [hitems]
  rfl

end Commands

end EventScript
