import EventScript.Proofs.Courses
import EventScript.Proofs.Pages

/-!
# The bounds of the party

Gold and items are never negative and never more than the database allows. Nobody is in the party
twice, there are no more than have room, and everyone in it exists.

* `Party.Bounded` is the invariant of the party alone. Whatever is given or taken away, whoever
  joins or leaves, the party stays bounded.
* `Game.Provided` adds that every member exists. Every move keeps this (`Game.Move.provided`).
* `Director.party_bounded`: so it is whatever happens, from the first party on.
-/

namespace EventScript

open Relation

/-! ## The party alone -/

namespace Party

/-- A party within the limits of a database. -/
structure Bounded (c : Config) (p : Party) : Prop where
  gold_nonneg : 0 ≤ p.gold
  gold_le : p.gold ≤ c.goldMax
  items : ∀ id n, p.items.get? id = some n → 0 < id ∧ 1 ≤ n ∧ n ≤ c.itemMax
  nodup : p.members.Nodup
  length_le : p.members.length ≤ c.partyMax.toNat

/-- A party that knows the limits of a database. -/
structure Limited (c : Config) (p : Party) : Prop where
  goldMax : p.goldMax = c.goldMax
  itemMax : p.itemMax = c.itemMax
  partyMax : p.partyMax = c.partyMax.toNat

variable {c : Config} {p p' : Party}

theorem mem_join {id j : Number} (h : j ∈ (p.join id).members) : j ∈ p.members ∨ j = id := by
  unfold join at h
  split at h
  · exact .inl h
  · exact (List.mem_append.1 h).imp_right List.mem_singleton.1

theorem Limited.join (h : p.Limited c) (id : Number) : (p.join id).Limited c := by
  unfold Party.join
  split
  · exact h
  · exact ⟨h.goldMax, h.itemMax, h.partyMax⟩

/-- Whoever is there already does not join again, and nobody joins where there is no room. -/
theorem Bounded.join (h : p.Bounded c) (hp : p.Limited c) (id : Number) :
    (p.join id).Bounded c := by
  unfold Party.join
  split
  · exact h
  · next hjoins =>
    simp only [Bool.or_eq_true, not_or, contains, List.contains_iff_mem, isFull,
      decide_eq_true_eq, hp.partyMax] at hjoins
    obtain ⟨hnew, hroom⟩ := hjoins
    refine ⟨h.gold_nonneg, h.gold_le, h.items, ?_, ?_⟩
    · refine List.nodup_append.2 ⟨h.nodup, List.nodup_cons.2 ⟨nofun, .nil⟩, fun a ha b hb => ?_⟩
      rw [List.mem_singleton.1 hb]
      exact fun hab => hnew (hab ▸ ha)
    · rw [List.length_append, List.length_singleton]
      omega

theorem Bounded.leave (h : p.Bounded c) (id : Number) : (p.leave id).Bounded c :=
  ⟨h.gold_nonneg, h.gold_le, h.items, h.nodup.filter _,
    Nat.le_trans (List.length_filter_le _ _) h.length_le⟩

theorem Bounded.giveGold (h : p.Bounded c) (hp : p.Limited c) (hc : 0 ≤ c.goldMax)
    (amount : Number) : (p.giveGold amount).Bounded c := by
  rw [Int32.le_iff_toInt_le, Int32.toInt_zero] at hc
  have hgold : (p.giveGold amount).gold.toInt =
      min (max (p.gold.toInt + amount.toInt) 0) c.goldMax.toInt := by
    rw [Party.giveGold, hp.goldMax, Number.toInt_clampInt, Int32.toInt_zero]
  refine ⟨?_, ?_, h.items, h.nodup, h.length_le⟩
  · rw [Int32.le_iff_toInt_le, Int32.toInt_zero, hgold]
    omega
  · rw [Int32.le_iff_toInt_le, hgold]
    omega

/-- An item that is there at all after a gift is there at least once, and no more often than there
is room for, or the gift did not concern it. -/
theorem counted_giveItem (hc : 0 ≤ p.itemMax) {id amount : Number}
    (hgive : p.giveItem id amount = .ok p') {item n : Number} (hn : p'.items.get? item = some n) :
    p.items.get? item = some n ∨ 0 < item ∧ 1 ≤ n ∧ n ≤ p.itemMax := by
  unfold Party.giveItem at hgive
  split at hgive
  · cases hgive
    exact .inl hn
  · next hid =>
    obtain ⟨sum, -, hgive⟩ := except_bind_eq_ok_iff.1 hgive
    let count := Number.clamp 0 p.itemMax sum
    obtain rfl : { p with
        items := if count = 0 then p.items.erase id else p.items.insert id count } = p' :=
      Except.ok.inj hgive
    rw [Int32.le_iff_toInt_le, Int32.toInt_zero] at hc
    dsimp only at hn
    split at hn
    · rw [IdMap.get?_erase] at hn
      split at hn
      · cases hn
      · exact .inl hn
    · next hcount =>
      rw [IdMap.get?_insert] at hn
      split at hn
      · next hitem =>
        have hcount : count.toInt ≠ 0 := fun h => hcount (Int32.toInt_inj.1 h)
        have hclamp : count.toInt = min (max sum.toInt 0) p.itemMax.toInt := by
          simp only [count, Number.toInt_clamp, Int32.toInt_zero]
        right
        rw [hitem, ← Option.some.inj hn, Int32.lt_iff_toInt_lt, Int32.le_iff_toInt_le,
          Int32.le_iff_toInt_le, Int32.toInt_zero, Int32.toInt_one]
        omega
      · exact .inl hn

theorem Bounded.giveItem (h : p.Bounded c) (hp : p.Limited c) (hc : 0 ≤ c.itemMax)
    {id amount : Number} (hgive : p.giveItem id amount = .ok p') : p'.Bounded c := by
  have hcounts : ∀ item n, p'.items.get? item = some n → 0 < item ∧ 1 ≤ n ∧ n ≤ c.itemMax := by
    intro item n hn
    rw [← hp.itemMax] at hc ⊢
    obtain hbefore | hgiven := counted_giveItem hc hgive hn
    · exact hp.itemMax ▸ h.items item n hbefore
    · exact hgiven
  rw [giveItem_eq hgive]
  exact ⟨h.gold_nonneg, h.gold_le, hcounts, h.nodup, h.length_le⟩

/-- The first party is bounded, however long the list of those who start. -/
theorem bounded_foldl_join (h : p.Bounded c) (hp : p.Limited c) (ids : List Number) :
    (ids.foldl join p).Bounded c ∧ (ids.foldl join p).Limited c := by
  induction ids generalizing p with
  | nil => exact ⟨h, hp⟩
  | cons id ids ih => exact ih (h.join hp id) (hp.join id)

theorem mem_foldl_join {ids : List Number} {j : Number}
    (h : j ∈ (ids.foldl join p).members) : j ∈ p.members ∨ j ∈ ids := by
  induction ids generalizing p with
  | nil => exact .inl h
  | cons id ids ih =>
    rcases ih h with hjoin | hids
    · rcases mem_join hjoin with hp | rfl
      · exact .inl hp
      · exact .inr List.mem_cons_self
    · exact .inr (List.mem_cons_of_mem _ hids)

end Party

/-! ## The party in its game -/

namespace Game

/-- The party is within the limits of a database, and everyone in it exists. -/
structure Provided (c : Config) (g : Game) : Prop where
  limited : g.party.Limited c
  bounded : g.party.Bounded c
  members : ∀ id ∈ g.party.members, (g.actors.get? id).isSome = true

variable {data : Database} {c : Config} {g g' : Game}

theorem Provided.of_estate (hg : g.Provided c) (h : g'.estate = g.estate) : g'.Provided c := by
  simp only [estate, Estate.mk.injEq] at h
  obtain ⟨hmembers, hgold, hitems, hgoldMax, hitemMax, hpartyMax, hactors, -⟩ := h
  obtain ⟨⟨hlimitGold, hlimitItem, hlimitParty⟩, ⟨hnonneg, hle, hcounts, hnodup, hlength⟩,
    hexist⟩ := hg
  rw [← hgold] at hnonneg hle
  rw [← hitems] at hcounts
  rw [← hmembers] at hnodup hlength hexist
  rw [← hactors] at hexist
  exact ⟨⟨hgoldMax.trans hlimitGold, hitemMax.trans hlimitItem, hpartyMax.trans hlimitParty⟩,
    ⟨hnonneg, hle, hcounts, hnodup, hlength⟩, hexist⟩

/-- No actor is taken away. -/
theorem Provided.insert (hg : g.Provided c) (id : Number) (a : Actor) :
    Provided c { g with actors := g.actors.insert id a } := by
  refine ⟨hg.limited, hg.bounded, fun j hj => ?_⟩
  rw [IdMap.get?_insert]
  split
  · rfl
  · exact hg.members j hj

theorem Gentle.provided (hgold : 0 ≤ c.goldMax) (hitem : 0 ≤ c.itemMax) (h : g.Gentle g')
    (hg : g.Provided c) : g'.Provided c := by
  cases h with
  | aside h => exact hg.of_estate h
  | gold amount =>
    exact ⟨⟨hg.limited.goldMax, hg.limited.itemMax, hg.limited.partyMax⟩,
      hg.bounded.giveGold hg.limited hgold amount, hg.members⟩
  | @item id amount p h =>
    have hsame := Party.giveItem_eq h
    have hmembers : p.members = g.party.members := by rw [hsame]
    have hlimited : p.Limited c := by
      rw [hsame]
      exact ⟨hg.limited.goldMax, hg.limited.itemMax, hg.limited.partyMax⟩
    refine ⟨hlimited, hg.bounded.giveItem hg.limited hitem h, fun j hj => hg.members j ?_⟩
    rwa [← hmembers]
  | actor => exact hg.insert _ _
  | ends | enemies | window => exact ⟨hg.limited, hg.bounded, hg.members⟩

theorem Stroke.provided (hgold : 0 ≤ c.goldMax) (hitem : 0 ≤ c.itemMax) (h : g.Stroke g')
    (hg : g.Provided c) : g'.Provided c := by
  cases h with
  | gentle h => exact h.provided hgold hitem hg
  | hurts => exact hg.insert _ _
  | @joins id hknown =>
    refine ⟨hg.limited.join id, hg.bounded.join hg.limited id, fun j hj => ?_⟩
    rcases Party.mem_join hj with hmember | rfl
    · exact hg.members j hmember
    · exact hknown
  | leaves id =>
    refine ⟨⟨hg.limited.goldMax, hg.limited.itemMax, hg.limited.partyMax⟩, hg.bounded.leave id,
      fun j hj => hg.members j ?_⟩
    exact (List.mem_filter.1 hj).1

theorem Move.provided (hgold : 0 ≤ c.goldMax) (hitem : 0 ≤ c.itemMax) (h : g.Move data g')
    (hg : g.Provided c) : g'.Provided c := by
  cases h with
  | stroke h => exact h.provided hgold hitem hg
  | opens | shuts => exact ⟨hg.limited, hg.bounded, hg.members⟩

/-- In the first party is whoever the database lets start, as far as there is room. -/
theorem provided_begin (hd : data.validate = .ok ()) (hgold : 0 ≤ data.config.goldMax)
    (random : Random) : (begin data random).Provided data.config := by
  let nobody : Party :=
    { goldMax := data.config.goldMax, itemMax := data.config.itemMax,
      partyMax := data.config.partyMax.toNat }
  have hlimited : nobody.Limited data.config := ⟨rfl, rfl, rfl⟩
  have hbounded : nobody.Bounded data.config :=
    ⟨Int32.le_refl 0, hgold, nofun, List.nodup_nil, Nat.zero_le _⟩
  obtain ⟨hbounded, hlimited⟩ := Party.bounded_foldl_join hbounded hlimited data.start.party
  refine ⟨⟨hlimited.goldMax, hlimited.itemMax, hlimited.partyMax⟩,
    hbounded.giveGold hlimited hgold data.start.gold, fun id hid => ?_⟩
  have hstart : id ∈ data.start.party := (Party.mem_foldl_join hid).resolve_left nofun
  obtain ⟨a, ha, rfl⟩ := (Database.validate_eq_ok_iff.1 hd).party id hstart
  exact IdMap.isSome_get?_ofList (v := Actor.ofData a) (List.mem_map.2 ⟨a, ha, rfl⟩)

end Game

namespace Director

variable {data : Database} {d : Director}

/-- Whatever happens in a game, the party has no more gold and items than it may have, and never
less than none. Nobody is in it twice, it is not too large, and everyone in it exists. -/
theorem party_bounded (hd : data.validate = .ok ()) (hgold : 0 ≤ data.config.goldMax)
    (hitem : 0 ≤ data.config.itemMax) (h : Played data d) :
    d.game.party.Bounded data.config ∧
      ∀ id ∈ d.game.party.members, (d.game.actors.get? id).isSome = true := by
  have hprovided : d.game.Provided data.config :=
    h.keeps (Game.provided_begin hd hgold) fun _ _ hmove => hmove.provided hgold hitem
  exact ⟨hprovided.bounded, hprovided.members⟩

/-- A rich traveller finds more than can be carried, and one more companion than there is room. -/
def treasury : Database where
  config := { goldMax := 50, itemMax := 3, partyMax := 2 }
  actors := [{ id := 1 }, { id := 2 }, { id := 3 }]
  start := { party := [1, 1, 2], gold := 80, mapId := 1 }
  maps := [{ id := 1, events := [{ id := 1, pages := [{
    trigger := .autoStart
    commands := [
      { code := SharedOp.changeItems.code, params := [0, 0, 7, 0, 5] },
      { code := SharedOp.changePartyMembers.code, params := [0, 0, 3] }] }] }] }]

/-- All there is room for is taken, and no more. -/
theorem treasury_is_full : treasury.validate = .ok () ∧ 0 ≤ treasury.config.goldMax ∧
    0 ≤ treasury.config.itemMax ∧ ∃ d, Played treasury d ∧ d.game.party.gold = 50 ∧
      d.game.party.items.get? 7 = some 3 ∧ d.game.party.members = [1, 2] ∧
      d.game.party.Bounded treasury.config := by
  have hvalid : treasury.validate = .ok () := by rfl
  have hgold : 0 ≤ treasury.config.goldMax := by decide
  have hitem : 0 ≤ treasury.config.itemMax := by decide
  have hrun : ∃ d, [Call.execute 2].forM Call.run (begin treasury default) = .ok ((), d) ∧
      d.game.party.gold = 50 ∧ d.game.party.items.get? 7 = some 3 ∧
        d.game.party.members = [1, 2] := by
    decide +kernel
  obtain ⟨d, hcalls, hparty⟩ := hrun
  have hreachable : Reachable treasury default d := ⟨_, hcalls⟩
  have hplayed : Played treasury d := hreachable.played
  obtain ⟨hbounded, -⟩ := party_bounded hvalid hgold hitem hplayed
  exact ⟨hvalid, hgold, hitem, d, hplayed, hparty.1, hparty.2.1, hparty.2.2, hbounded⟩

end Director

end EventScript
