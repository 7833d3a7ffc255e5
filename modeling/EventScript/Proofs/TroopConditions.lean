import EventScript.Director.Battle
import EventScript.Proofs.Act

/-!
# The conditions of troop pages

A page of a troop may run if it names a condition and all the conditions that it names hold.

* `TroopCondition.Holds` says what the conditions mean, and `TroopCondition.Overruns` when a number
  that is needed for them does not fit.
* `Director.Tells` is what a test comes to. A test may follow another that held (`Tells.andThen`) or
  be left out (`tells_tried`).
* `Director.pageReady_iff`: a page is found ready exactly if its conditions hold, and looking at it
  fails exactly if a number does not fit.
-/

namespace EventScript

/-! ## What the conditions mean -/

/-- The hit points in percent of the maximum, rounded toward zero: down, where they are not below
zero. Without a maximum there are none. -/
def Vitals.percent (v : Vitals) : Int :=
  if 0 < v.maxHp.toInt then (v.hp.toInt * 100).tdiv v.maxHp.toInt else 0

/-- A hundred times the hit points do not fit. -/
def Vitals.Overruns (v : Vitals) : Prop :=
  0 < v.maxHp.toInt ∧ (2147483647 < v.hp.toInt * 100 ∨ v.hp.toInt * 100 < -2147483648)

/-- Both switches are on, and the variable is large enough. -/
def PageCondition.Holds (c : PageCondition) (g : Game) : Prop :=
  (∀ id, c.switchA = some id → g.switches.get id = true) ∧
    (∀ id, c.switchB = some id → g.switches.get id = true) ∧
    ∀ v, c.variableLeast = some v → v.least.toInt ≤ (g.vars.get v.id).toInt

namespace TurnCondition

/-- A turn is the first one that is named, or comes a number of periods after it. A period below
zero never passes. -/
def Holds (c : TurnCondition) (turn : Number) : Prop :=
  if c.every.toInt < 0 then turn = c.start
  else ∃ n : Nat, turn.toInt = c.start.toInt + c.every.toInt * n

/-- The turns since the first one that is named are too many. -/
def Overruns (c : TurnCondition) (turn : Number) : Prop :=
  0 < c.every.toInt ∧ 2147483647 < turn.toInt - c.start.toInt

end TurnCondition

/-- The enemy is there, and its hit points are in the range. -/
def EnemyCondition.Holds (c : EnemyCondition) (t : Troop) : Prop :=
  ∃ e, t.enemies[c.index.toNat]? = some e ∧
    c.low.toInt ≤ e.vitals.percent ∧ e.vitals.percent ≤ c.high.toInt

/-- The actor is there and can have hit points, and they are in the range. -/
def ActorCondition.Holds (c : ActorCondition) (g : Game) : Prop :=
  ∃ a, g.actors.get? c.id = some a ∧ 0 < a.vitals.maxHp.toInt ∧
    c.low.toInt ≤ a.vitals.percent ∧ a.vitals.percent ≤ c.high.toInt

namespace TroopCondition

/-- At least one condition is named, and all that are named hold. -/
structure Holds (c : TroopCondition) (g : Game) (t : Troop) : Prop where
  named : c ≠ {}
  page : c.toPageCondition.Holds g
  turn : ∀ x, c.turn = some x → x.Holds t.turn
  enemy : ∀ x, c.enemyHp = some x → x.Holds t
  actor : ∀ x, c.actorHp = some x → x.Holds g

/-- A condition that is named needs a number that does not fit, and those that come before it
hold. -/
def Overruns (c : TroopCondition) (g : Game) (t : Troop) : Prop :=
  c ≠ {} ∧ c.toPageCondition.Holds g ∧
    ((∃ x, c.turn = some x ∧ x.Overruns t.turn) ∨
      (∀ x, c.turn = some x → x.Holds t.turn) ∧
        ((∃ x, c.enemyHp = some x ∧ ∃ e, t.enemies[x.index.toNat]? = some e ∧ e.vitals.Overruns) ∨
          (∀ x, c.enemyHp = some x → x.Holds t) ∧
            ∃ x, c.actorHp = some x ∧ ∃ a, g.actors.get? x.id = some a ∧ a.vitals.Overruns))

end TroopCondition

/-! ## Percentages and turns -/

theorem exists_error_iff {α ε : Type} {x : Except ε α} :
    (∃ o, x = .error o) ↔ ¬ ∃ r, x = .ok r := by
  cases x with
  | ok r => simp
  | error o => simp

/-- A quotient by a positive number fits. -/
theorem exists_div {a b : Number} (hb : 0 < b.toInt) : ∃ q : Number, Checked.div a b = .ok q := by
  have hlow := a.le_toInt
  have hhigh := a.toInt_lt
  have hle : (a.toInt.tdiv b.toInt).natAbs ≤ a.toInt.natAbs := by
    rw [Int.natAbs_tdiv]
    exact Nat.div_le_self _ _
  have hsign : a.toInt < 0 → a.toInt.tdiv b.toInt ≤ 0 := by
    intro ha
    have hnonneg := Int.tdiv_nonneg (show 0 ≤ -a.toInt by omega) (Int.le_of_lt hb)
    rw [Int.neg_tdiv] at hnonneg
    omega
  refine Checked.exists_fit_iff.2 ⟨?_, ?_⟩
  · show -2147483648 ≤ a.toInt.tdiv b.toInt
    omega
  · show a.toInt.tdiv b.toInt ≤ 2147483647
    omega

theorem Vitals.hpShare_of_pos {v : Vitals} (hmax : 0 < v.maxHp.toInt) :
    v.hpShare = Checked.mul v.hp 100 >>= fun m => Checked.div m v.maxHp :=
  if_neg (Int.not_le.2 hmax)

theorem Vitals.hpShare_fails_iff {v : Vitals} : (∃ o, v.hpShare = .error o) ↔ v.Overruns := by
  rw [exists_error_iff]
  by_cases hmax : 0 < v.maxHp.toInt
  · have hmul : (∃ m : Number, Checked.mul v.hp 100 = .ok m) ↔
        -2147483648 ≤ v.hp.toInt * 100 ∧ v.hp.toInt * 100 ≤ 2147483647 :=
      Checked.exists_fit_iff
    have hshare : (∃ p, v.hpShare = .ok p) ↔ ∃ m : Number, Checked.mul v.hp 100 = .ok m := by
      simp only [hpShare_of_pos hmax, except_bind_eq_ok_iff]
      constructor
      · rintro ⟨p, m, hm, -⟩
        exact ⟨m, hm⟩
      · rintro ⟨m, hm⟩
        obtain ⟨q, hq⟩ := exists_div (a := m) hmax
        exact ⟨q, m, hm, hq⟩
    rw [hshare, hmul, Overruns]
    omega
  · have hzero : v.hpShare = .ok 0 := if_pos (Int.not_lt.1 hmax)
    exact iff_of_false (fun h => h ⟨0, hzero⟩) fun h => hmax h.1

theorem Vitals.toInt_of_hpShare {v : Vitals} {p : Number} (h : v.hpShare = .ok p) :
    p.toInt = v.percent := by
  by_cases hmax : 0 < v.maxHp.toInt
  · rw [hpShare_of_pos hmax, except_bind_eq_ok_iff] at h
    obtain ⟨m, hm, hp⟩ := h
    have hexact : m.toInt = v.hp.toInt * 100 := Checked.fit_eq_ok_iff.1 hm
    have hquotient : p.toInt = m.toInt.tdiv v.maxHp.toInt := Checked.fit_eq_ok_iff.1 hp
    rw [hquotient, hexact, percent, if_pos hmax]
  · have hzero : v.hpShare = .ok 0 := if_pos (Int.not_lt.1 hmax)
    rw [hzero] at h
    cases h
    rw [percent, if_neg hmax]
    rfl

theorem PageCondition.holds_iff {c : PageCondition} {g : Game} :
    g.meets c = true ↔ c.Holds g := by
  simp only [Game.meets, Bool.and_eq_true, Option.all_eq_true, decide_eq_true_eq,
    Int32.le_iff_toInt_le, and_assoc]
  rfl

namespace Director

open Act

/-- A remainder of a number that is not below zero is zero exactly for the multiples. -/
theorem remainder_eq_zero_iff {a b : Number} (ha : 0 ≤ a.toInt) (hb : 0 < b.toInt) :
    Number.remainder a b = 0 ↔ ∃ n : Nat, a.toInt = b.toInt * n := by
  have hnonneg := Int.emod_nonneg a.toInt (Int.ne_of_gt hb)
  have hlt := Int.emod_lt_of_pos a.toInt hb
  have hhigh := b.toInt_lt
  have hexact : (Number.remainder a b).toInt = a.toInt % b.toInt := by
    rw [Number.remainder, Int.tmod_eq_emod_of_nonneg ha]
    exact Int32.toInt_ofInt_of_le (by omega) (by omega)
  rw [← Int32.toInt_inj, hexact, Int32.toInt_zero]
  constructor
  · intro hzero
    have hquotient := Int.mul_ediv_add_emod a.toInt b.toInt
    have hpositive := Int.ediv_nonneg ha (Int.le_of_lt hb)
    refine ⟨(a.toInt / b.toInt).toNat, ?_⟩
    rw [Int.toNat_of_nonneg hpositive]
    omega
  · rintro ⟨n, hn⟩
    rw [hn, Int.mul_emod_right]

section

variable {turn : Number} {c : TurnCondition}

theorem every_pos_iff : 0 < c.every ↔ 0 < c.every.toInt := by
  rw [Int32.lt_iff_toInt_lt, Int32.toInt_zero]

theorem turnHits_of_pos (hevery : 0 < c.every.toInt) :
    turnHits turn c = if turn.toInt < c.start.toInt then .ok false
      else Checked.sub turn c.start >>= fun d => .ok (decide (Number.remainder d c.every = 0)) := by
  rw [turnHits, if_pos (every_pos_iff.2 hevery)]
  simp only [Int32.lt_iff_toInt_lt]
  rfl

theorem turnHits_of_not_pos (hevery : ¬ 0 < c.every.toInt) :
    turnHits turn c = .ok (decide (turn = c.start)) :=
  if_neg (mt every_pos_iff.1 hevery)

theorem turnHits_fails_iff :
    (∃ o, turnHits turn c = .error o) ↔ c.Overruns turn := by
  rw [exists_error_iff]
  by_cases hevery : 0 < c.every.toInt
  · rw [turnHits_of_pos hevery, TurnCondition.Overruns]
    have hsub : (∃ d : Number, Checked.sub turn c.start = .ok d) ↔
        -2147483648 ≤ turn.toInt - c.start.toInt ∧ turn.toInt - c.start.toInt ≤ 2147483647 :=
      Checked.exists_fit_iff
    by_cases hearly : turn.toInt < c.start.toInt
    · rw [if_pos hearly]
      exact iff_of_false (fun h => h ⟨_, rfl⟩) (by omega)
    · rw [if_neg hearly]
      have hhits : (∃ b, (Checked.sub turn c.start >>= fun d =>
          Except.ok (decide (Number.remainder d c.every = 0))) = .ok b) ↔
            ∃ d : Number, Checked.sub turn c.start = .ok d := by
        simp only [except_bind_eq_ok_iff]
        constructor
        · rintro ⟨b, d, hd, -⟩
          exact ⟨d, hd⟩
        · rintro ⟨d, hd⟩
          exact ⟨_, d, hd, rfl⟩
      rw [hhits, hsub]
      omega
  · rw [turnHits_of_not_pos hevery]
    exact iff_of_false (fun h => h ⟨_, rfl⟩) fun h => hevery h.1

theorem turnHits_iff {b : Bool} (h : turnHits turn c = .ok b) : b = true ↔ c.Holds turn := by
  unfold TurnCondition.Holds
  by_cases hevery : 0 < c.every.toInt
  · rw [if_neg (by omega)]
    rw [turnHits_of_pos hevery] at h
    by_cases hearly : turn.toInt < c.start.toInt
    · rw [if_pos hearly] at h
      cases h
      refine iff_of_false Bool.false_ne_true ?_
      rintro ⟨n, hn⟩
      have := Int.mul_nonneg (Int.le_of_lt hevery) (Int.natCast_nonneg n)
      omega
    · rw [if_neg hearly, except_bind_eq_ok_iff] at h
      obtain ⟨d, hd, hb⟩ := h
      have hexact : d.toInt = turn.toInt - c.start.toInt := Checked.fit_eq_ok_iff.1 hd
      cases hb
      rw [decide_eq_true_eq, remainder_eq_zero_iff (by omega) hevery, hexact]
      constructor
      · rintro ⟨n, hn⟩
        exact ⟨n, by omega⟩
      · rintro ⟨n, hn⟩
        exact ⟨n, by omega⟩
  · rw [turnHits_of_not_pos hevery] at h
    cases h
    rw [decide_eq_true_eq]
    by_cases hneg : c.every.toInt < 0
    · rw [if_pos hneg]
    · have hzero : c.every.toInt = 0 := by omega
      rw [if_neg hneg, hzero, ← Int32.toInt_inj]
      simp

end

/-! ## Tests -/

/-- A test leaves the game alone. It fails if it overruns, and tells otherwise whether something
holds. -/
structure Tells (a : Act Bool) (w : World) (overruns holds : Prop) : Prop where
  fails : (∃ o, a w = .error o) ↔ overruns
  tells : ∀ b w', a w = .ok (b, w') → w'.game = w.game ∧ (b = true ↔ holds)

section

variable {a b : Act Bool} {w : World} {o o' h h' : Prop}

theorem Tells.congr (ha : Tells a w o h) (ho : o ↔ o') (hh : h ↔ h') : Tells a w o' h' := by
  refine ⟨ha.fails.trans ho, fun r w' hr => ?_⟩
  obtain ⟨hgame, hr⟩ := ha.tells r w' hr
  exact ⟨hgame, hr.trans hh⟩

theorem Tells.of_eq (hrun : a w = b w) (hb : Tells b w o h) : Tells a w o h := by
  refine ⟨?_, ?_⟩
  · rw [hrun]
    exact hb.fails
  · rw [hrun]
    exact hb.tells

theorem tells_pure (r : Bool) (w : World) : Tells (pure r) w False (r = true) := by
  refine ⟨iff_of_false nofun id, ?_⟩
  rintro _ _ ⟨⟩
  exact ⟨rfl, Iff.rfl⟩

/-- A test after another that must hold first. -/
theorem Tells.andThen (ha : Tells a w o h) (hb : ∀ w', w'.game = w.game → Tells b w' o' h') :
    Tells (a >>= fun r => if !r then pure false else b) w (o ∨ h ∧ o') (h ∧ h') := by
  cases hrun : a w with
  | error e =>
    have hover := ha.fails.1 ⟨e, hrun⟩
    refine ⟨iff_of_true ⟨e, bind_of_error hrun⟩ (.inl hover), ?_⟩
    intro r w' hr
    rw [bind_of_error hrun] at hr
    cases hr
  | ok p =>
    obtain ⟨r, u⟩ := p
    obtain ⟨hgame, hr⟩ := ha.tells r u hrun
    have hnot : ¬ o := by
      rw [← ha.fails, hrun]
      rintro ⟨e, ⟨⟩⟩
    cases r with
    | false =>
      have hfalse : ¬ h := fun hh => Bool.noConfusion (hr.2 hh)
      refine ⟨iff_of_false ?_ ?_, ?_⟩
      · rw [bind_of_ok hrun]
        rintro ⟨e, ⟨⟩⟩
      · rintro (hover | ⟨hh, -⟩)
        · exact hnot hover
        · exact hfalse hh
      · intro r' w' hr'
        rw [bind_of_ok hrun] at hr'
        cases hr'
        exact ⟨hgame, iff_of_false Bool.false_ne_true fun hh => hfalse hh.1⟩
    | true =>
      have htrue : h := hr.1 rfl
      obtain ⟨hfails, htells⟩ := hb u hgame
      refine ⟨?_, ?_⟩
      · rw [bind_of_ok hrun]
        exact hfails.trans (by simp only [hnot, htrue, false_or, true_and])
      · intro r' w' hr'
        rw [bind_of_ok hrun] at hr'
        obtain ⟨hgame', hr'⟩ := htells r' w' hr'
        exact ⟨hgame'.trans hgame, hr'.trans (by simp only [htrue, true_and])⟩

/-- A test that is left out holds. -/
theorem tells_tried {α : Type} {c : Option α} {test : α → Act Bool} {overruns holds : α → Prop}
    (htest : ∀ x, Tells (test x) w (overruns x) (holds x)) :
    Tells (tried c test) w (∃ x, c = some x ∧ overruns x) (∀ x, c = some x → holds x) := by
  cases c with
  | none => exact (tells_pure true w).congr (by simp) (by simp)
  | some x => exact (htest x).congr (by simp) (by simp)

/-- A test that fails to find what it is about. -/
theorem tells_missing (m : Warning) :
    Tells (do warn m; return false) w False False := by
  refine ⟨iff_of_false nofun id, ?_⟩
  rintro _ _ ⟨⟩
  exact ⟨rfl, iff_of_false Bool.false_ne_true id⟩

theorem tells_check {x : Except Overflow Bool} (hfails : (∃ e, x = .error e) ↔ o)
    (htells : ∀ r, x = .ok r → (r = true ↔ h)) : Tells (check x) w o h := by
  cases x with
  | error e =>
    refine ⟨iff_of_true ⟨e, rfl⟩ (hfails.1 ⟨e, rfl⟩), ?_⟩
    rintro _ _ ⟨⟩
  | ok r =>
    refine ⟨iff_of_false (by rintro ⟨e, ⟨⟩⟩) (fun ho => nomatch hfails.2 ho), ?_⟩
    rintro _ _ ⟨⟩
    exact ⟨rfl, htells r rfl⟩

/-- A test whether hit points are in a range. -/
theorem tells_within (v : Vitals) (low high : Number) :
    Tells (do return within low high (← check v.hpShare)) w v.Overruns
      (low.toInt ≤ v.percent ∧ v.percent ≤ high.toInt) := by
  have hfails := Vitals.hpShare_fails_iff (v := v)
  cases hshare : v.hpShare with
  | error e =>
    refine ⟨iff_of_true ⟨e, rfl⟩ (hfails.1 ⟨e, hshare⟩), ?_⟩
    rintro _ _ ⟨⟩
  | ok p =>
    have hnot : ¬ v.Overruns := by
      rw [← hfails, hshare]
      rintro ⟨e, ⟨⟩⟩
    refine ⟨iff_of_false (by rintro ⟨e, ⟨⟩⟩) hnot, ?_⟩
    rintro _ _ ⟨⟩
    refine ⟨rfl, ?_⟩
    rw [← Vitals.toInt_of_hpShare hshare, within, Bool.and_eq_true, decide_eq_true_eq,
      decide_eq_true_eq, Int32.le_iff_toInt_le, Int32.le_iff_toInt_le]

end

section

variable {w : World} {t : Troop}

theorem tells_enemyHits (t : Troop) (c : EnemyCondition) :
    Tells (enemyHits t c) w (∃ e, t.enemies[c.index.toNat]? = some e ∧ e.vitals.Overruns)
      (c.Holds t) := by
  unfold enemyHits EnemyCondition.Holds
  cases he : t.enemies[c.index.toNat]? with
  | none => exact (tells_missing _).congr (by simp) (by simp)
  | some e => exact (tells_within e.vitals _ _).congr (by simp) (by simp)

theorem tells_actorHits (g : Game) (c : ActorCondition) : Tells (actorHits g.actors c) w
      (∃ a, g.actors.get? c.id = some a ∧ a.vitals.Overruns) (c.Holds g) := by
  unfold actorHits ActorCondition.Holds
  cases ha : g.actors.get? c.id with
  | none => exact (tells_missing _).congr (by simp) (by simp)
  | some a =>
    have hpos : 0 < a.vitals.maxHp ↔ 0 < a.vitals.maxHp.toInt := by
      rw [Int32.lt_iff_toInt_lt, Int32.toInt_zero]
    by_cases hmax : 0 < a.vitals.maxHp
    · simp only [if_pos hmax]
      exact (tells_within a.vitals _ _).congr (by simp) (by simp [← hpos, hmax])
    · simp only [if_neg hmax]
      refine (tells_missing _).congr ?_ ?_
      · simp [Vitals.Overruns, ← hpos, hmax]
      · simp [← hpos, hmax]

theorem tells_pageReady (c : TroopCondition) (htroop : w.game.troop = some t) :
    Tells (pageReady c) w (c.Overruns w.game t) (c.Holds w.game t) := by
  have hturn (w' : World) : Tells (tried c.turn fun x => check (turnHits t.turn x)) w'
      (∃ x, c.turn = some x ∧ x.Overruns t.turn) (∀ x, c.turn = some x → x.Holds t.turn) :=
    tells_tried fun x => tells_check turnHits_fails_iff fun r hr => turnHits_iff hr
  have henemy (w' : World) := tells_tried (w := w') (c := c.enemyHp) (tells_enemyHits t)
  have hactor (w' : World) := tells_tried (w := w') (c := c.actorHp) (tells_actorHits w.game)
  have htests := (hturn w).andThen fun w' _ => (henemy w').andThen fun w'' _ => hactor w''
  have hguard : (decide (c = {}) || !w.game.meets c.toPageCondition) = true ↔
      ¬ (c ≠ {} ∧ c.toPageCondition.Holds w.game) := by
    rw [← PageCondition.holds_iff]
    by_cases hnone : c = {}
    · exact iff_of_true (by simp [hnone]) fun h => h.1 hnone
    · simp [hnone]
  by_cases hpage : c ≠ {} ∧ c.toPageCondition.Holds w.game
  · have hgo := Bool.eq_false_iff.2 (mt hguard.1 (not_not_intro hpage))
    refine (Tells.of_eq ?_ htests).congr ?_ ?_
    · rw [pageReady, getGame_bind, htroop]
      simp only [hgo]
      rfl
    · exact ⟨fun h => ⟨hpage.1, hpage.2, h⟩, fun h => h.2.2⟩
    · exact ⟨fun h => ⟨hpage.1, hpage.2, h.1, h.2.1, h.2.2⟩, fun h => ⟨h.turn, h.enemy, h.actor⟩⟩
  · have hstop := hguard.2 hpage
    refine (Tells.of_eq ?_ (tells_pure false w)).congr ?_ ?_
    · rw [pageReady, getGame_bind, htroop]
      simp only [hstop]
      rfl
    · exact iff_of_false id fun h => hpage ⟨h.1, h.2.1⟩
    · exact iff_of_false Bool.false_ne_true fun h => hpage ⟨h.named, h.page⟩

/-- A page is ready exactly if it names a condition and all that it names hold. Looking at it fails
exactly if a number that is needed does not fit, and the game stays as it is. -/
theorem pageReady_iff (w : World) (t : Troop) (c : TroopCondition)
    (htroop : w.game.troop = some t) :
    ((∃ o, pageReady c w = .error o) ↔ c.Overruns w.game t) ∧
      ∀ b w', pageReady c w = .ok (b, w') →
        w'.game = w.game ∧ (b = true ↔ c.Holds w.game t) :=
  have hready := tells_pageReady c htroop
  ⟨hready.fails, hready.tells⟩

end

/-- In the seventh turn of a battle an enemy has lost most of its hit points, and a hero has a great
many. -/
def standoff : World where
  game :=
    { Game.begin {} default with
      actors := IdMap.ofList [(1, { vitals := .full 21474837 0 })]
      troop := some { turn := 7, enemies := [{ vitals := { hp := 30, maxHp := 100 } }] } }

/-- The third turn after every other third one comes up, a percentage of the great many points does
not fit, and a period below zero never passes. -/
theorem standoff_pages : ∃ t, standoff.game.troop = some t ∧
    (¬ ∃ o, pageReady { turn := some ⟨1, 3⟩, enemyHp := some ⟨0, 0, 50⟩ } standoff = .error o) ∧
    (∀ b w, pageReady { turn := some ⟨1, 3⟩, enemyHp := some ⟨0, 0, 50⟩ } standoff = .ok (b, w) →
      b = true) ∧
    (∃ o, pageReady { actorHp := some ⟨1, 0, 100⟩ } standoff = .error o) ∧
    t.turn.toInt = 9 + -1 * (2 : Nat) ∧
    ∀ b w, pageReady { turn := some ⟨9, -1⟩ } standoff = .ok (b, w) → b = false := by
  let enemy : Enemy := { vitals := { hp := 30, maxHp := 100 } }
  let hero : Actor := { vitals := .full 21474837 0 }
  let t : Troop := { turn := 7, enemies := [enemy] }
  have htroop : standoff.game.troop = some t := rfl
  have hhero : standoff.game.actors.get? 1 = some hero := by decide
  have hready (c : TroopCondition) := pageReady_iff standoff t c htroop
  refine ⟨t, htroop, ?_, ?_, ?_, by decide, ?_⟩
  · rw [(hready _).1]
    rintro ⟨-, -, ⟨_, ⟨⟩, -, hturns⟩ | ⟨-, ⟨_, ⟨⟩, _, ⟨⟩, -, hpoints⟩ | ⟨-, _, ⟨⟩, -⟩⟩⟩
    · exact absurd hturns (by decide)
    · exact absurd hpoints (by decide)
  · intro b w hb
    refine ((hready _).2 b w hb).2.2 ⟨by decide, ⟨nofun, nofun, nofun⟩, ?_, ?_, nofun⟩
    · rintro _ ⟨⟩
      exact ⟨2, by decide⟩
    · rintro _ ⟨⟩
      exact ⟨enemy, rfl, by decide, by decide⟩
  · rw [(hready _).1]
    refine ⟨by decide, ⟨nofun, nofun, nofun⟩, .inr ⟨nofun, .inr ⟨nofun, _, rfl, hero, hhero, ?_⟩⟩⟩
    exact ⟨by decide, .inl (by decide)⟩
  · intro b w hb
    have hholds := ((hready _).2 b w hb).2
    refine Bool.eq_false_iff.2 fun h => ?_
    have hturn : (7 : Number) = 9 := (hholds.1 h).turn _ rfl
    exact absurd hturn (by decide)

end Director

end EventScript
