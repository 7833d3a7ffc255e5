import EventScript.Proofs.CallDepth
import EventScript.Proofs.Execution
import EventScript.Proofs.PartyBounds

/-!
# Purchases

Whoever leaves a shop has bought some of the goods on the list, one after the other, each with the
gold that those before it left.

* `Party.Stored` holds of the belongings of a party at any time (`Director.stored_of_played`),
  whatever the limits of the database are.
* `Purchase.Settles` is what becomes of a party by one purchase. It is refused, or as much gold is
  paid as the goods cost and as many of them are stowed as there is room for.
* `Purchase.Visit` is a visit to a shop, purchase by purchase.
* `Director.leaveShop_trades`: where the numbers stay within their width, a visit to a shop comes to
  an end, and this is all that it does.
-/

namespace EventScript

/-! ## What a party has -/

namespace Party

/-- The gold is within its limit, and there is no less of an item than gifts leave. A limit below
zero wins against zero. -/
structure Stored (p : Party) : Prop where
  gold_le : p.gold.toInt ≤ p.goldMax.toInt
  le_held : ∀ id, min 0 p.itemMax.toInt ≤ (p.held id).toInt

variable {p p' : Party}

/-- Whoever joins brings nothing. -/
theorem join_eq (p : Party) (id : Number) :
    p.join id = { p with members := (p.join id).members } := by
  unfold join
  split
  · rfl
  · rfl

theorem foldl_join_eq (ids : List Number) (p : Party) :
    ids.foldl join p = { p with members := (ids.foldl join p).members } := by
  induction ids generalizing p with
  | nil => rfl
  | cons id ids ih =>
    rw [List.foldl_cons, ih, join_eq p id]

theorem Stored.of_same (h : p.Stored) (hgold : p'.gold = p.gold) (hitems : p'.items = p.items)
    (hgoldMax : p'.goldMax = p.goldMax) (hitemMax : p'.itemMax = p.itemMax) : p'.Stored := by
  constructor
  · rw [hgold, hgoldMax]
    exact h.gold_le
  · intro id
    rw [held, hitems, hitemMax]
    exact h.le_held id

theorem toInt_gold_giveGold (p : Party) (amount : Number) :
    (p.giveGold amount).gold.toInt =
      min (max (p.gold.toInt + amount.toInt) 0) p.goldMax.toInt := by
  rw [giveGold, Number.toInt_clampInt, Int32.toInt_zero]

/-- The number of an item after it was set; none of it is left out. -/
theorem held_put (p : Party) (id n j : Number) :
    held { p with items := if n = 0 then p.items.erase id else p.items.insert id n } j =
      if j = id then n else p.held j := by
  unfold held
  by_cases hj : j = id
  · by_cases hn : n = 0
    · simp [hj, hn, IdMap.get?_erase]
    · simp [hj, hn, IdMap.get?_insert]
  · by_cases hn : n = 0
    · simp [hj, hn, IdMap.get?_erase]
    · simp [hj, hn, IdMap.get?_insert]

/-- How many of an item there are after a gift. -/
theorem toInt_held_giveItem {id amount : Number} (h : p.giveItem id amount = .ok p') (j : Number) :
    (p'.held j).toInt =
      if j = id ∧ 0 < id.toInt then
        min (max ((p.held id).toInt + amount.toInt) 0) p.itemMax.toInt
      else (p.held j).toInt := by
  unfold giveItem at h
  split at h
  · next hid =>
    cases h
    rw [if_neg fun hj => absurd hj.2 (by omega)]
  · next hid =>
    obtain ⟨sum, hsum, h⟩ := except_bind_eq_ok_iff.1 h
    have hexact : sum.toInt = (p.held id).toInt + amount.toInt := Checked.fit_eq_ok_iff.1 hsum
    rw [← Except.ok.inj h, held_put, ← hexact]
    by_cases hj : j = id
    · rw [if_pos hj, if_pos ⟨hj, by omega⟩, Number.toInt_clamp, Int32.toInt_zero]
    · rw [if_neg hj, if_neg fun h => hj h.1]

/-- An item can be given where its number stays within its width. -/
theorem exists_giveItem_of_fits (p : Party) (id amount : Number)
    (h : 0 < id.toInt → -2147483648 ≤ (p.held id).toInt + amount.toInt ∧
      (p.held id).toInt + amount.toInt ≤ 2147483647) : ∃ p', p.giveItem id amount = .ok p' := by
  unfold giveItem
  split
  · exact ⟨p, rfl⟩
  · next hid =>
    obtain ⟨sum, hsum⟩ : ∃ sum, Checked.add (p.held id) amount = .ok sum :=
      Checked.exists_fit_iff.2 (h (by omega))
    exact ⟨_, except_bind_eq_ok_iff.2 ⟨sum, hsum, rfl⟩⟩

theorem Stored.giveGold (h : p.Stored) (amount : Number) : (p.giveGold amount).Stored := by
  refine ⟨?_, h.le_held⟩
  rw [toInt_gold_giveGold]
  exact Int.min_le_right _ _

theorem Stored.giveItem (h : p.Stored) {id amount : Number}
    (hgive : p.giveItem id amount = .ok p') : p'.Stored := by
  have hgold := h.gold_le
  have hheld (j : Number) : min 0 p.itemMax.toInt ≤ (p'.held j).toInt := by
    have hj := h.le_held j
    rw [toInt_held_giveItem hgive j]
    split
    · omega
    · exact hj
  rw [giveItem_eq hgive]
  exact ⟨hgold, hheld⟩

end Party

namespace Game

variable {data : Database} {g g' : Game}

theorem Gentle.stored (h : g.Gentle g') (hg : g.party.Stored) : g'.party.Stored := by
  cases h with
  | aside h =>
    simp only [estate, Estate.mk.injEq] at h
    exact hg.of_same h.2.1 h.2.2.1 h.2.2.2.1 h.2.2.2.2.1
  | gold amount => exact hg.giveGold amount
  | item h => exact hg.giveItem h
  | ends | actor | enemies | window => exact hg

theorem Move.stored (h : g.Move data g') (hg : g.party.Stored) : g'.party.Stored := by
  cases h with
  | stroke h =>
    cases h with
    | gentle h => exact h.stored hg
    | hurts | leaves => exact hg.of_same rfl rfl rfl rfl
    | joins =>
      dsimp only
      rw [Party.join_eq]
      exact hg.of_same rfl rfl rfl rfl
  | opens | shuts => exact hg

theorem stored_begin (data : Database) (random : Random) : (begin data random).party.Stored := by
  constructor
  · show (Party.giveGold _ data.start.gold).gold.toInt ≤ _
    rw [Party.toInt_gold_giveGold]
    exact Int.min_le_right _ _
  · intro id
    show _ ≤ (Party.held (Party.giveGold (data.start.party.foldl Party.join _) _) id).toInt
    rw [Party.foldl_join_eq]
    exact Int.min_le_left _ _

end Game

namespace Director

open Act Relation

variable {data : Database} {d : Director}

/-- A director keeps its database. -/
theorem data_of_played (h : Played data d) : d.data = data := by
  obtain ⟨random, h⟩ := h
  induction h with
  | refl => rfl
  | tail _ hstep ih => exact (course_of_happens hstep).1.trans ih

theorem stored_of_played (h : Played data d) : d.game.party.Stored :=
  h.keeps (Game.stored_begin data) fun _ _ hmove => hmove.stored

/-! ## One purchase -/

namespace Purchase

/-- What a purchase costs. -/
def cost (item : ItemData) (b : Purchase) : Int := item.price.toInt * b.count.toInt

/-- Nothing comes of a purchase of what is not known, of no goods at all, or of what costs more than
there is. -/
def Refused (data : Database) (p : Party) (b : Purchase) : Prop :=
  ∀ item, data.item? b.item = some item → b.count ≤ 0 ∨ p.gold.toInt < b.cost item

/-- A purchase is carried out: gold is given for goods. -/
structure Trades (data : Database) (b : Purchase) (p p' : Party) : Prop where
  paid : ∃ item, data.item? b.item = some item ∧ 0 < b.count ∧ b.cost item ≤ p.gold.toInt ∧
    p'.gold.toInt = p.gold.toInt - b.cost item
  stowed : 0 < b.item →
    (p'.held b.item).toInt = min ((p.held b.item).toInt + b.count.toInt) p.itemMax.toInt
  others : ∀ id, (id = b.item → id ≤ 0) → p'.held id = p.held id
  rest : p' = { p with gold := p'.gold, items := p'.items }

/-- What becomes of a party by a purchase, and whether it is carried out. -/
inductive Settles (data : Database) (b : Purchase) (p : Party) : Bool → Party → Prop
  | refused (h : b.Refused data p) : Settles data b p false p
  | trades {p' : Party} (h : b.Trades data p p') : Settles data b p true p'

/-- The numbers of a purchase stay within their width. -/
def Fits (data : Database) (p : Party) (b : Purchase) : Prop :=
  ∀ item, data.item? b.item = some item →
    (-2147483648 ≤ b.cost item ∧ b.cost item ≤ 2147483647) ∧
    (0 < b.item → 0 < b.count → b.cost item ≤ p.gold.toInt →
      (p.held b.item).toInt + b.count.toInt ≤ 2147483647)

variable {b : Purchase} {item : ItemData} {p p' : Party} {bought : Bool}

/-- What the gold given and the goods taken amount to. Gold never rises by a purchase, so that it
stays within its limit. -/
theorem trades_of_giveItem (hp : p.Stored) (hitem : data.item? b.item = some item)
    (hcount : 0 < b.count) (hcost : 0 ≤ b.cost item) (hgold : b.cost item ≤ p.gold.toInt)
    {paid : Number} (hpaid : paid.toInt = -b.cost item)
    (hgive : (p.giveGold paid).giveItem b.item b.count = .ok p') : b.Trades data p p' := by
  have hsame := Party.giveItem_eq hgive
  have hrest : p'.gold = (p.giveGold paid).gold := by rw [hsame]
  have hexact : (p.giveGold paid).gold.toInt = p.gold.toInt - b.cost item := by
    have hlimit := hp.gold_le
    rw [Party.toInt_gold_giveGold]
    omega
  refine ⟨⟨item, hitem, hcount, hgold, hrest ▸ hexact⟩, ?_, ?_, ?_⟩
  · intro hid
    have hheld := hp.le_held b.item
    have hstowed := Party.toInt_held_giveItem hgive b.item
    rw [Int32.lt_iff_toInt_lt, Int32.toInt_zero] at hcount hid
    rw [if_pos ⟨rfl, hid⟩] at hstowed
    show _ = min ((p.held b.item).toInt + b.count.toInt) p.itemMax.toInt
    have hgiven : (p'.held b.item).toInt =
        min (max ((p.held b.item).toInt + b.count.toInt) 0) p.itemMax.toInt := hstowed
    omega
  · intro id hid
    have hkept := Party.toInt_held_giveItem hgive id
    rw [if_neg] at hkept
    · exact Int32.toInt_inj.1 hkept
    · rintro ⟨rfl, hpos⟩
      have hle := Int32.le_iff_toInt_le.1 (hid rfl)
      rw [Int32.toInt_zero] at hle
      omega
  · rw [hrest]
    exact hsame

/-- However much is bought, no more of an item is there than before or than there is room for. -/
theorem Settles.held_le (h : b.Settles data p bought p') : p'.itemMax = p.itemMax ∧
    ∀ id, (p'.held id).toInt ≤ max (p.held id).toInt p.itemMax.toInt := by
  cases h with
  | refused => exact ⟨rfl, fun id => Int.le_max_left _ _⟩
  | trades h =>
    have hmax : p'.itemMax = p.itemMax := by rw [h.rest]
    refine ⟨hmax, ?_⟩
    intro id
    by_cases hid : id = b.item ∧ 0 < b.item
    · rw [hid.1, h.stowed hid.2]
      omega
    · rw [h.others id]
      · exact Int.le_max_left _ _
      · intro hb
        have hnot : ¬ 0 < b.item := fun hpos => hid ⟨hb, hpos⟩
        rw [Int32.not_lt] at hnot
        rwa [hb]

end Purchase

/-! ## A visit -/

/-- What becomes of a party by one purchase after the other, and which of them are carried out. -/
inductive Visit (data : Database) : Party → List Purchase → List Bool → Party → Prop
  | nil (p : Party) : Visit data p [] [] p
  | cons {p mid p' : Party} {b : Purchase} {bs : List Purchase} {bought : Bool} {rest : List Bool}
      (h : b.Settles data p bought mid) (hrest : Visit data mid bs rest p') :
      Visit data p (b :: bs) (bought :: rest) p'

/-- The numbers of every purchase stay within their width when its turn comes. -/
def AllFit (data : Database) (p : Party) (bs : List Purchase) : Prop :=
  ∀ before b after boughts p', bs = before ++ b :: after → Visit data p before boughts p' →
    b.Fits data p'

section Visiting

variable {p p' : Party} {b : Purchase} {bs : List Purchase} {bought : Bool} {boughts : List Bool}

theorem AllFit.head (h : AllFit data p (b :: bs)) : b.Fits data p :=
  h [] b bs [] p rfl (.nil p)

theorem AllFit.tail (h : AllFit data p (b :: bs)) (hb : b.Settles data p bought p') :
    AllFit data p' bs := by
  rintro before c after boughts q rfl hvisit
  exact h (b :: before) c after (bought :: boughts) q rfl (.cons hb hvisit)

theorem Visit.held_le (h : Visit data p bs boughts p') : p'.itemMax = p.itemMax ∧
    ∀ id, (p'.held id).toInt ≤ max (p.held id).toInt p.itemMax.toInt := by
  induction h with
  | nil => exact ⟨rfl, fun id => Int.le_max_left _ _⟩
  | cons hb _ ih =>
    obtain ⟨hmax, hheld⟩ := hb.held_le
    refine ⟨ih.1.trans hmax, ?_⟩
    intro id
    have hfirst := hheld id
    have hrest := ih.2 id
    rw [hmax] at hrest
    omega

/-- All is well where what is bought at once, on top of all that can be there, stays within its
width. -/
theorem allFit_of_room (h : ∀ b ∈ bs, ∀ item, data.item? b.item = some item →
    (-2147483648 ≤ b.cost item ∧ b.cost item ≤ 2147483647) ∧
      max (p.held b.item).toInt p.itemMax.toInt + b.count.toInt ≤ 2147483647) :
    AllFit data p bs := by
  rintro before b after boughts p' rfl hvisit item hitem
  obtain ⟨hcost, hroom⟩ := h b (by simp) item hitem
  refine ⟨hcost, fun _ _ _ => ?_⟩
  have hheld := hvisit.held_le.2 b.item
  omega

end Visiting

/-! ## Leaving a shop -/

/-- The director with another party and other warnings. -/
def withParty (d : Director) (p : Party) (warnings : Array Warning) : Director :=
  { d with world := { d.world with game := { d.game with party := p }, warnings } }

theorem gives_giveItem {w : World} {id amount : Number} {p : Party}
    (h : w.game.party.giveItem id amount = .ok p) :
    (giveItem id amount).Gives w () { w.game with party := p } := by
  have hput (warnings : Array Warning) : (do
      let g ← getGame
      let party ← check (g.party.giveItem id amount)
      setGame { g with party } : Act Unit) { w with warnings } =
        .ok ((), { w with game := { w.game with party := p }, warnings }) := by
    rw [getGame_bind]
    exact bind_of_ok (Frame.check_of_ok h { w with warnings })
  unfold giveItem
  by_cases hid : id.toInt ≤ 0
  · rw [if_pos hid]
    exact ⟨_, hput (w.warnings.push .invalidItem)⟩
  · rw [if_neg hid]
    exact ⟨_, hput w.warnings⟩

theorem buy_of_unknown {b : Purchase} (h : d.data.item? b.item = none) :
    buy b d = .ok (false, d.withParty d.game.party (d.world.warnings.push .shopItemNotFound)) := by
  rw [buy, Directing.get_bind, h]
  exact Directing.act_bind (a := warn .shopItemNotFound) rfl _

section Known

variable {b : Purchase} {item : ItemData} {price : Number}

/-- What comes of the purchase of something that is known. -/
theorem buy_of_known (h : d.data.item? b.item = some item)
    (hprice : Checked.mul item.price b.count = .ok price) : buy b d = (do
      if b.count ≤ 0 || d.game.party.gold < price then return false
      giveGold (← check (Checked.neg price))
      giveItem b.item b.count
      return true : Directing Bool) d := by
  rw [buy, Directing.get_bind, h]
  dsimp only
  rw [Directing.check_bind hprice, Directing.getGame_bind]

/-- What is refused changes nothing. -/
theorem buy_of_refused (h : d.data.item? b.item = some item)
    (hprice : Checked.mul item.price b.count = .ok price)
    (hrefused : b.count ≤ 0 ∨ d.game.party.gold < price) : buy b d = .ok (false, d) := by
  have hguard : (b.count ≤ 0 || d.game.party.gold < price) = true := by
    simpa using hrefused
  rw [buy_of_known h hprice, if_pos hguard]
  rfl

/-- What is paid for is stowed. -/
theorem buy_of_paid {paid : Number} {p : Party} (h : d.data.item? b.item = some item)
    (hprice : Checked.mul item.price b.count = .ok price) (hpaid : Checked.neg price = .ok paid)
    (hguard : ¬ (b.count ≤ 0 ∨ d.game.party.gold < price))
    (hgive : (d.game.party.giveGold paid).giveItem b.item b.count = .ok p) :
    ∃ warnings, buy b d = .ok (true, d.withParty p warnings) := by
  let u : World := { d.world with game := { d.game with party := d.game.party.giveGold paid } }
  obtain ⟨warnings, hitem⟩ := gives_giveItem (w := u) hgive
  have hpays : ¬ (b.count ≤ 0 || d.game.party.gold < price) = true := by
    simpa using hguard
  refine ⟨warnings, ?_⟩
  rw [buy_of_known h hprice, if_neg hpays, Directing.check_bind hpaid]
  refine (Directing.act_bind (a := giveGold paid) (w := u) rfl _).trans ?_
  exact Directing.act_bind (d := { d with world := u }) hitem _

/-- Whatever can be paid for is traded, unless there is too much of it already. -/
theorem buy_trades (h : d.data.item? b.item = some item) (hp : d.game.party.Stored)
    (hprice : Checked.mul item.price b.count = .ok price) (hnonneg : 0 ≤ item.price)
    (hcount : 0 < b.count) (hgold : b.cost item ≤ d.game.party.gold.toInt)
    (hroom : 0 < b.item → (d.game.party.held b.item).toInt + b.count.toInt ≤ 2147483647) :
    ∃ p warnings, buy b d = .ok (true, d.withParty p warnings) ∧
      b.Trades d.data d.game.party p ∧ p.Stored := by
  have hexact : price.toInt = b.cost item := Checked.fit_eq_ok_iff.1 hprice
  have hpos : 0 < b.count.toInt := Int32.lt_iff_toInt_lt.1 hcount
  have hcost : 0 ≤ b.cost item :=
    Int.mul_nonneg (Int32.le_iff_toInt_le.1 hnonneg) (Int.le_of_lt hpos)
  have hguard : ¬ (b.count ≤ 0 ∨ d.game.party.gold < price) := by
    rw [Int32.le_iff_toInt_le, Int32.lt_iff_toInt_lt, Int32.toInt_zero, hexact]
    omega
  obtain ⟨paid, hpaid⟩ : ∃ paid, Checked.neg price = .ok paid := by
    have hwidth : price.toInt ≤ 2147483647 := Int32.toInt_le price
    refine Checked.exists_fit_iff.2 ?_
    show -2147483648 ≤ -price.toInt ∧ -price.toInt ≤ 2147483647
    omega
  have hneg : paid.toInt = -b.cost item := hexact ▸ Checked.fit_eq_ok_iff.1 hpaid
  obtain ⟨p, hgive⟩ : ∃ p, (d.game.party.giveGold paid).giveItem b.item b.count = .ok p := by
    apply Party.exists_giveItem_of_fits
    intro hid
    have hleast : -2147483648 ≤ (d.game.party.held b.item).toInt := Int32.le_toInt _
    have hmost := hroom (Int32.lt_iff_toInt_lt.2 hid)
    show -2147483648 ≤ (d.game.party.held b.item).toInt + b.count.toInt ∧
      (d.game.party.held b.item).toInt + b.count.toInt ≤ 2147483647
    omega
  obtain ⟨warnings, hbuy⟩ := buy_of_paid h hprice hpaid hguard hgive
  exact ⟨p, warnings, hbuy, Purchase.trades_of_giveItem hp h hcount hcost hgold hneg hgive,
    (hp.giveGold paid).giveItem hgive⟩

end Known

/-- A purchase whose numbers stay within their width settles. -/
theorem buy_settles {b : Purchase} (hprices : ∀ item ∈ d.data.items, 0 ≤ item.price)
    (hp : d.game.party.Stored) (hfits : b.Fits d.data d.game.party) :
    ∃ bought p warnings, buy b d = .ok (bought, d.withParty p warnings) ∧
      b.Settles d.data d.game.party bought p ∧ p.Stored := by
  cases hitem : d.data.item? b.item with
  | none =>
    have hrefused : b.Refused d.data d.game.party := by
      intro item h
      cases hitem.symm.trans h
    exact ⟨false, _, _, buy_of_unknown hitem, .refused hrefused, hp⟩
  | some item =>
    obtain ⟨hcost, hroom⟩ := hfits item hitem
    obtain ⟨price, hprice⟩ : ∃ price, Checked.mul item.price b.count = .ok price :=
      Checked.exists_fit_iff.2 hcost
    have hexact : price.toInt = b.cost item := Checked.fit_eq_ok_iff.1 hprice
    by_cases hguard : b.count ≤ 0 ∨ d.game.party.gold < price
    · have hrefused : b.Refused d.data d.game.party := by
        intro item' h
        cases hitem.symm.trans h
        rwa [← hexact, ← Int32.lt_iff_toInt_lt]
      exact ⟨false, d.game.party, d.world.warnings, buy_of_refused hitem hprice hguard,
        .refused hrefused, hp⟩
    · obtain ⟨hcount, hgold⟩ := not_or.1 hguard
      rw [Int32.not_le] at hcount
      rw [Int32.not_lt, Int32.le_iff_toInt_le, hexact] at hgold
      obtain ⟨p, warnings, hbuy, htrades, hstored⟩ := buy_trades hitem hp hprice
        (hprices item (List.mem_of_find?_eq_some hitem)) hcount hgold
        fun hid => hroom hid hcount hgold
      exact ⟨true, p, warnings, hbuy, .trades htrades, hstored⟩

/-- Purchases whose numbers stay within their width settle one after the other. -/
theorem mapM_buy_visits {bs : List Purchase} (hprices : ∀ item ∈ d.data.items, 0 ≤ item.price)
    (hp : d.game.party.Stored) (hfit : AllFit d.data d.game.party bs) :
    ∃ boughts p warnings, bs.mapM buy d = .ok (boughts, d.withParty p warnings) ∧
      Visit d.data d.game.party bs boughts p := by
  induction bs generalizing d with
  | nil => exact ⟨[], d.game.party, d.world.warnings, rfl, .nil _⟩
  | cons b bs ih =>
    obtain ⟨bought, mid, warnings, hbuy, hsettles, hmid⟩ := buy_settles hprices hp hfit.head
    obtain ⟨rest, p, warnings', hrest, hvisit⟩ :=
      ih (d := d.withParty mid warnings) hprices hmid (hfit.tail hsettles)
    refine ⟨bought :: rest, p, warnings', ?_, .cons hsettles hvisit⟩
    rw [List.mapM_cons, bind_of_ok hbuy, bind_of_ok hrest]
    rfl

/-- Where no price is negative and the numbers stay within their width, a visit to a shop comes to
an end at any time of a game. Each purchase in turn is refused or paid for to the last coin, and
stowed as far as there is room. It is noted whether anything was bought, and nothing else
changes. -/
theorem leaveShop_trades (h : Played data d) (hprices : ∀ item ∈ data.items, 0 ≤ item.price)
    {bs : List Purchase} (hfit : AllFit data d.game.party bs) :
    ∃ boughts p warnings, Visit data d.game.party bs boughts p ∧
      leaveShop bs d = .ok ((), { d with world := { d.world with
        game := { d.game with
          party := p
          scene := { d.game.scene with
            shopTransaction := decide (true ∈ boughts), shopCalling := false } }
        warnings } }) := by
  have hdata := data_of_played h
  subst hdata
  obtain ⟨boughts, p, warnings, hbuys, hvisit⟩ :=
    mapM_buy_visits hprices (stored_of_played h) hfit
  refine ⟨boughts, p, warnings, hvisit, ?_⟩
  have hany : boughts.any id = decide (true ∈ boughts) := by
    rw [Bool.eq_iff_iff]
    simp
  unfold leaveShop
  rw [bind_of_ok hbuys, hany]
  rfl

/-- A stall with one kind of goods, and a traveller with a full purse. -/
def stall : Database where
  items := [{ id := 1, price := 10 }]
  start := { gold := 1000, mapId := 1 }
  maps := [{ id := 1 }]

/-- Goods that nobody sells, fewer than none, more than there is gold for, and twice what can be
paid for. -/
def errands : List Purchase := [⟨9, 1⟩, ⟨1, -2⟩, ⟨1, 200⟩, ⟨1, 60⟩, ⟨1, 40⟩]

/-- What can be paid for is bought. For the last of the goods there is no more room. -/
theorem stall_sells_what_can_be_paid : (∀ item ∈ stall.items, 0 ≤ item.price) ∧
    Played stall (begin stall default) ∧ AllFit stall (begin stall default).game.party errands ∧
      ∃ d', leaveShop errands (begin stall default) = .ok ((), d') ∧ d'.game.party.gold = 0 ∧
        d'.game.party.held 1 = 99 ∧ d'.game.scene.shopTransaction = true ∧
        ∃ boughts, Visit stall (begin stall default).game.party errands boughts d'.game.party := by
  have hprices : ∀ item ∈ stall.items, 0 ≤ item.price := by decide
  have hplayed : Played stall (begin stall default) := ⟨default, .refl⟩
  have hfit : AllFit stall (begin stall default).game.party errands := by
    apply allFit_of_room
    intro b hb item hitem
    obtain rfl : item = { id := 1, price := 10 } :=
      List.mem_singleton.1 (List.mem_of_find?_eq_some hitem)
    clear hitem
    revert b
    decide +kernel
  have hrun : ∃ d', leaveShop errands (begin stall default) = .ok ((), d') ∧
      d'.game.party.gold = 0 ∧ d'.game.party.held 1 = 99 ∧
        d'.game.scene.shopTransaction = true := by
    decide +kernel
  obtain ⟨boughts, p, warnings, hvisit, hleaves⟩ := leaveShop_trades hplayed hprices hfit
  obtain ⟨d', hruns, hgold, hheld, hnoted⟩ := hrun
  refine ⟨hprices, hplayed, hfit, d', hruns, hgold, hheld, hnoted, boughts, ?_⟩
  cases hruns.symm.trans hleaves
  exact hvisit

/-- A hundred of the goods are paid for, and ninety-nine are stowed. Gold and goods neither stay as
they are, nor do they change by the same count. -/
theorem stall_keeps_the_hundredth : stall.validate = .ok () ∧
    (∀ item ∈ stall.items, 0 ≤ item.price) ∧ Played stall (begin stall default) ∧
      ∃ d', leaveShop [⟨1, 100⟩] (begin stall default) = .ok ((), d') ∧
        d'.game.scene.shopTransaction = true ∧
        d'.game.party.gold.toInt = (begin stall default).game.party.gold.toInt - 10 * 100 ∧
        (d'.game.party.held 1).toInt ≠ ((begin stall default).game.party.held 1).toInt + 100 := by
  have hvalid : stall.validate = .ok () := by rfl
  have hprices : ∀ item ∈ stall.items, 0 ≤ item.price := by decide
  exact ⟨hvalid, hprices, ⟨default, .refl⟩, by decide +kernel⟩

end Director

end EventScript
