import EventScript.Proofs.Act
import Mathlib.Order.Monotone.Basic

/-!
# Forced routes

A character on a forced route takes one step at a tick, in order, and a step that waits holds the
next one up.

* `Route.dueAt` is the timetable of a route: the tick at which a step is due.
* `Character.ride` is one tick: the step that is due is taken and carried out.
* `Character.OnRoute` is where a character stands after some ticks. `OnRoute.dueStep` shows what is
  taken at the next one, and `OnRoute.rides` follows it along any number of ticks.
* `Character.rides_on_time`: the steps are taken at their ticks and no others, and the character is
  driven up to the last of them. A ride ends early exactly if a step cannot be carried out, because
  it leads past the ends of the numbers; if these are far away (`Character.Near`), it does not.
* `Act.ensures_stepRoute`: the ticks of the game are ticks of such a ride.
-/

namespace EventScript

/-! ## The timetable -/

/-- Whether a step waits. -/
def RouteStep.waits (m : RouteStep) : Bool := m.code.toInt = 23

/-- Whether a step concerns more than the character: switches and sounds. -/
def RouteStep.isWorldly (m : RouteStep) : Bool :=
  m.code.toInt = 32 || m.code.toInt = 33 || m.code.toInt = 35

namespace Route

/-- The place on the list of the `k`-th step taken, counted from zero. A route that repeats begins
again after its end. -/
def place (r : Route) (k : Nat) : Nat := if r.repeats then k % r.commands.length else k

/-- The `k`-th step taken. -/
def step? (r : Route) (k : Nat) : Option RouteStep := r.commands[r.place k]?

/-- The steps taken before the `k`-th. -/
def stepsBefore (r : Route) (k : Nat) : List RouteStep := (List.range k).filterMap r.step?

/-- The tick at which the `k`-th step is due, ticks counted from zero too: every step before it has
its tick, and every one that waits has the pause besides. -/
def dueAt (r : Route) (k : Nat) : Nat := k + routePause * (r.stepsBefore k).countP (·.waits)

variable {r : Route} {k : Nat}

theorem place_of_repeats (hr : r.commands ≠ []) (hrepeats : r.repeats = true) (k : Nat) :
    r.place k < r.commands.length := by
  rw [place, if_pos hrepeats]
  exact Nat.mod_lt k (List.length_pos_iff.2 hr)

theorem place_of_not_repeats (hrepeats : r.repeats = false) (k : Nat) : r.place k = k := by
  rw [place, hrepeats]
  rfl

theorem stepsBefore_succ (r : Route) (k : Nat) :
    r.stepsBefore (k + 1) = r.stepsBefore k ++ (r.step? k).toList := by
  rw [stepsBefore, List.range_succ, List.filterMap_append, ← stepsBefore]
  cases h : r.step? k <;> simp [h]

/-- On a route that does not repeat, these are the first `k` on the list. -/
theorem stepsBefore_of_not_repeats (hrepeats : r.repeats = false) (k : Nat) :
    r.stepsBefore k = r.commands.take k := by
  induction k with
  | zero => rfl
  | succ k ih => rw [stepsBefore_succ, ih, step?, place_of_not_repeats hrepeats, List.take_add_one]

/-- From one step to the next it takes a tick, and the pause if the step waits. -/
theorem dueAt_succ {m : RouteStep} (h : r.step? k = some m) :
    r.dueAt (k + 1) = r.dueAt k + 1 + if m.waits then routePause else 0 := by
  rw [dueAt, dueAt, stepsBefore_succ, h, Option.toList_some, List.countP_append,
    List.countP_singleton, Nat.mul_add]
  split <;> omega

theorem dueAt_lt_succ (r : Route) (k : Nat) : r.dueAt k < r.dueAt (k + 1) := by
  rw [dueAt, dueAt, stepsBefore_succ, List.countP_append, Nat.mul_add]
  omega

theorem strictMono_dueAt (r : Route) : StrictMono r.dueAt :=
  strictMono_nat_of_lt_succ r.dueAt_lt_succ

theorem exists_step (h : r.place k < r.commands.length) : ∃ m, r.step? k = some m :=
  ⟨_, List.getElem?_eq_getElem h⟩

theorem place_lt {m : RouteStep} (h : r.step? k = some m) : r.place k < r.commands.length :=
  (List.getElem?_eq_some_iff.1 h).1

/-- The next place is the one behind, or the first one again, unless the route is at its end. -/
theorem place_succ (h : r.place k < r.commands.length) : r.place (k + 1) =
    if r.place k + 1 < r.commands.length then r.place k + 1
    else if r.repeats then 0 else r.commands.length := by
  cases hrepeats : r.repeats with
  | false =>
    rw [place_of_not_repeats hrepeats] at h ⊢
    rw [place_of_not_repeats hrepeats]
    split
    · rfl
    · rw [if_neg Bool.false_ne_true]
      omega
  | true =>
    have hnext : (k + 1) % r.commands.length =
        (k % r.commands.length + 1) % r.commands.length := (Nat.mod_add_mod k _ 1).symm
    simp only [place, hrepeats, if_true] at h ⊢
    rw [hnext]
    split
    · next hlt => exact Nat.mod_eq_of_lt hlt
    · next hge =>
      rw [show k % r.commands.length + 1 = r.commands.length by omega, Nat.mod_self]

/-- If a step is behind, so are those before it. -/
theorem place_lt_of_le {j : Nat} (h : r.place j < r.commands.length) (hk : k ≤ j) :
    r.place k < r.commands.length := by
  cases hrepeats : r.repeats with
  | false =>
    rw [place_of_not_repeats hrepeats] at h ⊢
    omega
  | true => exact place_of_repeats (List.length_pos_iff.1 (Nat.zero_lt_of_lt h)) hrepeats k

end Route

/-! ## One tick -/

/-- What a tick finds: where the player stands, and the direction drawn by chance. -/
structure Occasion where
  player : Number × Number
  random : Number

/-- The player stands far from the ends of the numbers. -/
def Occasion.Near (x : Occasion) : Prop :=
  x.player.1.toInt.natAbs ≤ 1073741824 ∧ x.player.2.toInt.natAbs ≤ 1073741824

namespace Character

/-- One tick on a forced route: the step that is due is taken and carried out. A step that concerns
more than the character is left to the game. -/
def ride (c : Character) (x : Occasion) : Except Overflow (Option RouteStep × Character) :=
  match c.dueStep with
  | (none, c) => .ok (none, c)
  | (some m, c) =>
    if m.isWorldly then .ok (some m, c)
    else do return (some m, ← c.perform m x.player x.random)

/-- The steps taken at some ticks, one entry for each tick, and the character after them. -/
def rides (c : Character) : List Occasion → Except Overflow (List (Option RouteStep) × Character)
  | [] => .ok ([], c)
  | x :: xs => do
    let (m, c) ← c.ride x
    let (ms, c) ← c.rides xs
    return (m :: ms, c)

/-- The same route, at the same place of it, before a wait. -/
structure SameWay (c c' : Character) (wait : Nat) : Prop where
  route : c'.route = c.route
  routeIndex : c'.routeIndex = c.routeIndex
  routeWait : c'.routeWait = wait

variable {c c' : Character} {r : Route} {t k : Nat}

theorem sameWay_face (c : Character) (direction : Number) :
    c.SameWay (c.face direction) c.routeWait := by
  unfold face
  split <;> exact ⟨rfl, rfl, rfl⟩

theorem sameWay_shift (c : Character) (dx dy : Number) :
    Yields (c.shift dx dy) fun c' => c.SameWay c' c.routeWait := by
  simp only [shift, yields_bind, yields_pure]
  intro x _ y _
  exact ⟨rfl, rfl, rfl⟩

theorem SameWay.trans {c'' : Character} {wait wait' : Nat} (h : c.SameWay c' wait)
    (h' : c'.SameWay c'' wait') : c.SameWay c'' wait' :=
  ⟨h'.route.trans h.route, h'.routeIndex.trans h.routeIndex, h'.routeWait⟩

theorem sameWay_walk (c : Character) (direction : Number) :
    Yields (c.walk direction) fun c' => c.SameWay c' c.routeWait := by
  intro c' hc'
  have hface := sameWay_face c direction
  have hshift := sameWay_shift _ _ _ c' hc'
  rw [hface.routeWait] at hshift
  exact hface.trans hshift

theorem sameWay_walkDiagonally (c : Character) (horizontal vertical : Number) :
    Yields (c.walkDiagonally horizontal vertical) fun c' => c.SameWay c' c.routeWait := by
  simp only [walkDiagonally, yields_bind, yields_pure]
  intro d hd
  have hshift := sameWay_shift _ _ _ d hd
  have hface := sameWay_face d horizontal
  rw [hshift.routeWait] at hface
  exact hshift.trans hface

/-- A step that is carried out leaves the route alone, but for the wait that it sets. -/
theorem sameWay_perform (c : Character) (m : RouteStep) (player : Number × Number)
    (random : Number) : Yields (c.perform m player random) fun c' =>
      c.SameWay c' (if m.waits then routePause else c.routeWait) := by
  have hface (direction : Number) := sameWay_face c direction
  have hother (h : ¬ m.code.toInt = 23) :
      (if m.waits then routePause else c.routeWait) = c.routeWait := by
    simp [RouteStep.waits, h]
  unfold perform
  split
  case h_24 h =>
    rw [RouteStep.waits, h]
    exact yields_ok.2 ⟨rfl, rfl, rfl⟩
  all_goals rw [hother (by omega)]
  case h_1 | h_2 | h_3 | h_4 | h_9 | h_12 => exact sameWay_walk c _
  case h_5 | h_6 | h_7 | h_8 => exact sameWay_walkDiagonally c _ _
  case h_10 | h_11 => exact yields_bind.2 fun _ _ => sameWay_walk c _
  case h_13 | h_14 | h_15 | h_16 | h_21 => exact yields_ok.2 (hface _)
  case h_17 | h_18 | h_19 | h_20 | h_22 | h_23 =>
    exact yields_bind.2 fun _ _ => yields_pure.2 (hface _)
  case h_27 | h_28 | h_29 | h_30 => exact yields_bind.2 fun _ _ => yields_pure.2 ⟨rfl, rfl, rfl⟩
  all_goals exact yields_ok.2 ⟨rfl, rfl, rfl⟩

/-- A tick takes the step that is due, and carrying it out leaves the route alone, but for the
wait. -/
theorem sameWay_ride (c : Character) (x : Occasion) : Yields (c.ride x) fun p =>
    p.1 = c.dueStep.1 ∧ c.dueStep.2.SameWay p.2
      (if c.dueStep.1.any (·.waits) then routePause else c.dueStep.2.routeWait) := by
  unfold ride
  rcases c.dueStep with ⟨_ | m, d⟩
  · exact yields_ok.2 ⟨rfl, rfl, rfl, rfl⟩
  · simp only [Option.any_some]
    by_cases hworldly : m.isWorldly = true
    · have hwaits : m.waits = false := by
        simp only [RouteStep.isWorldly, Bool.or_eq_true, decide_eq_true_eq] at hworldly
        simp only [RouteStep.waits, decide_eq_false_iff_not]
        omega
      rw [if_pos hworldly, hwaits]
      exact yields_ok.2 ⟨rfl, rfl, rfl, rfl⟩
    · rw [if_neg hworldly]
      simp only [yields_bind, yields_pure]
      intro c' hc'
      exact ⟨trivial, sameWay_perform d m x.player x.random c' hc'⟩

/-- A tick fails exactly if the step taken cannot be carried out. -/
theorem ride_eq_error_iff {c : Character} {x : Occasion} {o : Overflow} :
    c.ride x = .error o ↔ ∃ m, c.dueStep.1 = some m ∧ m.isWorldly = false ∧
      c.dueStep.2.perform m x.player x.random = .error o := by
  unfold ride
  rcases c.dueStep with ⟨_ | m, d⟩
  · simp
  · simp only [Option.some.injEq, exists_eq_left']
    cases hworldly : m.isWorldly with
    | true => simp
    | false =>
      simp only [Bool.false_eq_true, if_false, true_and]
      apply except_bind_eq_error_iff.trans
      exact or_iff_left fun ⟨_, _, h⟩ => nomatch h

theorem rides_cons {c c' : Character} {x : Occasion} {xs : List Occasion}
    {taken : List (Option RouteStep)} : c.rides (x :: xs) = .ok (taken, c') ↔
      ∃ p q, c.ride x = .ok p ∧ p.2.rides xs = .ok q ∧ taken = p.1 :: q.1 ∧ c' = q.2 := by
  rw [rides, except_bind_eq_ok_iff]
  constructor
  · rintro ⟨p, hp, hrest⟩
    obtain ⟨q, hq, heq⟩ := except_bind_eq_ok_iff.1 hrest
    cases heq
    exact ⟨p, q, hp, hq, rfl, rfl⟩
  · rintro ⟨p, q, hp, hq, rfl, rfl⟩
    exact ⟨p, hp, except_bind_eq_ok_iff.2 ⟨q, hq, rfl⟩⟩

theorem rides_cons_eq_error_iff {c : Character} {x : Occasion} {xs : List Occasion} {o : Overflow} :
    c.rides (x :: xs) = .error o ↔
      c.ride x = .error o ∨ ∃ p, c.ride x = .ok p ∧ p.2.rides xs = .error o := by
  rw [rides, except_bind_eq_error_iff]
  apply or_congr_right
  apply exists_congr
  intro p
  apply and_congr_right
  intro _
  apply except_bind_eq_error_iff.trans
  exact or_iff_left fun ⟨_, _, h⟩ => nomatch h

/-- A ride ends early exactly if one of its ticks fails. -/
theorem rides_eq_error_iff {c : Character} {xs : List Occasion} {o : Overflow} :
    c.rides xs = .error o ↔ ∃ before x after taken c', xs = before ++ x :: after ∧
      c.rides before = .ok (taken, c') ∧ c'.ride x = .error o := by
  induction xs generalizing c with
  | nil => simp [rides]
  | cons y ys ih =>
    rw [rides_cons_eq_error_iff]
    constructor
    · rintro (hy | ⟨p, hp, hrest⟩)
      · exact ⟨[], y, ys, [], c, rfl, rfl, hy⟩
      · obtain ⟨before, x, after, taken, c', rfl, hbefore, hx⟩ := ih.1 hrest
        have hlonger := rides_cons.2 ⟨p, (taken, c'), hp, hbefore, rfl, rfl⟩
        exact ⟨y :: before, x, after, p.1 :: taken, c', rfl, hlonger, hx⟩
    · rintro ⟨before, x, after, taken, c', hxs, hbefore, hx⟩
      cases before with
      | nil =>
        cases hxs
        cases hbefore
        exact .inl hx
      | cons z zs =>
        cases hxs
        obtain ⟨p, q, hp, hq, -, rfl⟩ := rides_cons.1 hbefore
        exact .inr ⟨p, hp, ih.2 ⟨zs, x, after, q.1, q.2, rfl, hq, hx⟩⟩

/-! ## Along a route -/

/-- The character is to take the `k`-th step next, if the route has one, and otherwise has no route
any more. -/
structure HasAhead (c : Character) (r : Route) (k : Nat) : Prop where
  next : r.place k < r.commands.length → c.route = some r ∧ c.routeIndex = r.place k
  ended : r.commands.length ≤ r.place k → c.route = none

/-- After `t` ticks the character has taken `k` steps, and the next one, if the route has one, comes
when it is due. -/
structure OnRoute (c : Character) (r : Route) (t k : Nat) : Prop extends c.HasAhead r k where
  past : ∀ j < k, r.dueAt j < t
  wait : r.place k < r.commands.length → t + c.routeWait = r.dueAt k

theorem HasAhead.of_sameWay {wait : Nat} (h : c.HasAhead r k) (hc : c.SameWay c' wait) :
    c'.HasAhead r k := by
  refine ⟨fun hlt => ?_, fun hge => hc.route.trans (h.ended hge)⟩
  obtain ⟨hroute, hindex⟩ := h.next hlt
  exact ⟨hc.route.trans hroute, hc.routeIndex.trans hindex⟩

theorem onRoute_forceRoute (hr : r.commands ≠ []) (c : Character) (frequency : Number) :
    (c.forceRoute r frequency).OnRoute r 0 0 := by
  have hplace : r.place 0 = 0 := by
    unfold Route.place
    split
    · exact Nat.zero_mod _
    · rfl
  have hlt : r.place 0 < r.commands.length := by
    rw [hplace]
    exact List.length_pos_iff.2 hr
  refine ⟨⟨fun _ => ⟨if_neg hr, hplace.symm⟩, fun hge => ?_⟩, fun j hj => ?_, fun _ => rfl⟩
  · exact absurd hlt (Nat.not_lt.2 hge)
  · exact absurd hj (Nat.not_lt_zero j)

/-- At the next tick the character takes the next step, if it is due, and otherwise waits on. -/
theorem OnRoute.dueStep (h : c.OnRoute r t k) :
    (∃ m, r.step? k = some m ∧ r.dueAt k = t ∧ c.dueStep.1 = some m ∧
      c.dueStep.2.HasAhead r (k + 1) ∧ c.dueStep.2.routeWait = 0) ∨
    (c.dueStep.1 = none ∧ (r.place k < r.commands.length → t < r.dueAt k) ∧
      c.dueStep.2.OnRoute r (t + 1) k) := by
  have hpast : ∀ j < k, r.dueAt j < t + 1 := fun j hj => Nat.lt_succ_of_lt (h.past j hj)
  unfold Character.dueStep
  by_cases hwait : 0 < c.routeWait
  · rw [if_pos hwait]
    refine .inr ⟨rfl, fun hlt => ?_, ⟨⟨h.next, h.ended⟩, hpast, fun hlt => ?_⟩⟩
    · have := h.wait hlt
      omega
    · have := h.wait hlt
      show t + 1 + (c.routeWait - 1) = r.dueAt k
      omega
  rw [if_neg hwait]
  have hzero : c.routeWait = 0 := Nat.eq_zero_of_not_pos hwait
  by_cases hlt : r.place k < r.commands.length
  · obtain ⟨hroute, hindex⟩ := h.next hlt
    obtain ⟨m, hm⟩ := Route.exists_step hlt
    have hdue : r.dueAt k = t := by
      rw [← h.wait hlt, hzero, Nat.add_zero]
    have hcommand : r.commands[r.place k]? = some m := hm
    have hnext := Route.place_succ hlt
    refine .inl ⟨m, hm, hdue, ?_⟩
    simp only [hroute, hindex, hcommand]
    by_cases hmore : r.place k + 1 < r.commands.length
    · rw [if_pos hmore] at hnext ⊢
      refine ⟨rfl, ⟨fun _ => ⟨rfl, hnext.symm⟩, fun hge => ?_⟩, hzero⟩
      omega
    · rw [if_neg hmore] at hnext ⊢
      cases hrepeats : r.repeats with
      | true =>
        rw [hrepeats, if_pos rfl] at hnext
        refine ⟨rfl, ⟨fun _ => ⟨rfl, hnext.symm⟩, fun hge => ?_⟩, hzero⟩
        omega
      | false =>
        rw [hrepeats, if_neg Bool.false_ne_true] at hnext
        refine ⟨rfl, ⟨fun hlt' => ?_, fun _ => rfl⟩, hzero⟩
        omega
  · rw [h.ended (Nat.le_of_not_lt hlt)]
    exact .inr ⟨rfl, fun hlt' => absurd hlt' hlt, ⟨⟨h.next, h.ended⟩, hpast,
      fun hlt' => absurd hlt' hlt⟩⟩

/-- What is taken at the next tick is what is due at it. -/
theorem OnRoute.dueStep_eq_some_iff (h : c.OnRoute r t k) {m : RouteStep} :
    c.dueStep.1 = some m ↔ ∃ j, r.dueAt j = t ∧ r.step? j = some m := by
  rcases h.dueStep with ⟨m', hm', hdue, htaken, -, -⟩ | ⟨hnone, hlater, -⟩
  · constructor
    · intro hm
      exact ⟨k, hdue, hm'.trans (htaken.symm.trans hm)⟩
    · rintro ⟨j, hj, hm⟩
      obtain rfl : j = k := r.strictMono_dueAt.injective (hj.trans hdue.symm)
      exact htaken.trans (hm'.symm.trans hm)
  · constructor
    · intro hm
      rw [hnone] at hm
      cases hm
    · rintro ⟨j, hj, hm⟩
      exfalso
      rcases Nat.lt_or_ge j k with hjk | hkj
      · have := h.past j hjk
        omega
      · have hlt := hlater (Route.place_lt_of_le (Route.place_lt hm) hkj)
        have := r.strictMono_dueAt.monotone hkj
        omega

/-- A tick takes what is due at it, and leads on to the next tick. -/
theorem OnRoute.ride (h : c.OnRoute r t k) (x : Occasion) : Yields (c.ride x) fun p =>
    (∀ m, p.1 = some m ↔ ∃ j, r.dueAt j = t ∧ r.step? j = some m) ∧
      ∃ k', p.2.OnRoute r (t + 1) k' := by
  intro p hp
  obtain ⟨htaken, hway⟩ := c.sameWay_ride x p hp
  refine ⟨fun m => htaken ▸ h.dueStep_eq_some_iff, ?_⟩
  rcases h.dueStep with ⟨m, hm, hdue, hsome, hahead, hzero⟩ | ⟨hnone, -, hon⟩
  · rw [hsome, hzero, Option.any_some] at hway
    refine ⟨k + 1, ⟨hahead.of_sameWay hway, fun j hj => ?_, fun _ => ?_⟩⟩
    · rcases Nat.lt_succ_iff_lt_or_eq.1 hj with hj | rfl
      · exact Nat.lt_succ_of_lt (h.past j hj)
      · omega
    · rw [hway.routeWait, Route.dueAt_succ hm, hdue]
  · rw [hnone, Option.any_none, if_neg Bool.false_ne_true] at hway
    refine ⟨k, ⟨hon.toHasAhead.of_sameWay hway, hon.past, fun hlt => ?_⟩⟩
    rw [hway.routeWait]
    exact hon.wait hlt

/-- The ticks of a ride take what is due at them. -/
theorem OnRoute.rides (h : c.OnRoute r t k) (xs : List Occasion) : Yields (c.rides xs) fun p =>
    p.1.length = xs.length ∧
      (∀ i < xs.length, ∀ m, p.1[i]? = some (some m) ↔
        ∃ j, r.dueAt j = t + i ∧ r.step? j = some m) ∧
      ∃ k', p.2.OnRoute r (t + xs.length) k' := by
  induction xs generalizing c t k with
  | nil => exact yields_ok.2 ⟨rfl, fun i hi => absurd hi (Nat.not_lt_zero i), k, h⟩
  | cons x xs ih =>
    simp only [Character.rides, yields_bind, yields_pure]
    intro p hp q hq
    obtain ⟨hfirst, k', hk'⟩ := h.ride x p hp
    obtain ⟨hlength, hlater, hend⟩ := ih hk' q hq
    have hsucc (i : Nat) : t + (i + 1) = t + 1 + i := by omega
    refine ⟨by simp [hlength], fun i hi m => ?_, ?_⟩
    · cases i with
      | zero =>
        rw [List.getElem?_cons_zero, Option.some.injEq]
        exact hfirst m
      | succ i =>
        rw [List.getElem?_cons_succ, hsucc]
        exact hlater i (Nat.lt_of_succ_lt_succ hi) m
    · rw [List.length_cons, hsucc]
      exact hend

/-- The character is driven up to the tick of the last step, and never if the route repeats. -/
theorem OnRoute.isDriven_iff (hr : r.commands ≠ []) (h : c.OnRoute r t k) :
    c.isDriven = true ↔ r.repeats = false ∧ t ≤ r.dueAt (r.commands.length - 1) := by
  have hpos := List.length_pos_iff.2 hr
  unfold isDriven
  cases hrepeats : r.repeats with
  | true =>
    obtain ⟨hroute, -⟩ := h.next (Route.place_of_repeats hr hrepeats k)
    simp [hroute, hrepeats]
  | false =>
    have hplace := Route.place_of_not_repeats hrepeats k
    by_cases hlt : k < r.commands.length
    · obtain ⟨hroute, -⟩ := h.next (by rwa [hplace])
      have hwait := h.wait (by rwa [hplace])
      have hlast : r.dueAt k ≤ r.dueAt (r.commands.length - 1) :=
        r.strictMono_dueAt.monotone (by omega)
      simp only [hroute, hrepeats, Bool.not_false, true_and, true_iff]
      omega
    · have hover := h.ended (by rw [hplace]; omega)
      have hlast := h.past (r.commands.length - 1) (by omega)
      simp only [hover, Bool.false_eq_true, true_and, false_iff]
      omega

/-! ## Away from the ends of the numbers -/

/-- The numbers that steps count with are so small that they may still change by `room`. -/
structure Near (room : Nat) (c : Character) : Prop where
  x : c.x.toInt.natAbs + room ≤ 1073741824
  y : c.y.toInt.natAbs + room ≤ 1073741824
  speed : c.speed.toInt.natAbs + room ≤ 1073741824
  frequency : c.frequency.toInt.natAbs + room ≤ 1073741824
  direction : c.direction.toInt.natAbs ≤ 1073741824

/-- The character comes through a computation, and `room` is left. -/
def Comes (room : Nat) (x : Except Overflow Character) : Prop := ∃ c, x = .ok c ∧ c.Near room

variable {room : Nat}

theorem comes_bind {α : Type} {x : Except Overflow α} {f : α → Except Overflow Character}
    {P : α → Prop} (hx : ∃ a, x = .ok a ∧ P a) (hf : ∀ a, P a → Comes room (f a)) :
    Comes room (x >>= f) := by
  obtain ⟨a, ha, hP⟩ := hx
  obtain ⟨c, hc, hnear⟩ := hf a hP
  exact ⟨c, except_bind_eq_ok_iff.2 ⟨a, ha, hc⟩, hnear⟩

theorem comes_bind_any {α : Type} {x : Except Overflow α} {f : α → Except Overflow Character}
    (hx : ∃ a, x = .ok a) (hf : ∀ a, Comes room (f a)) : Comes room (x >>= f) := by
  obtain ⟨a, ha⟩ := hx
  exact comes_bind ⟨a, ha, trivial⟩ fun a (_ : True) => hf a

theorem Near.weaken (h : c.Near (room + 1)) : c.Near room := by
  refine ⟨?_, ?_, ?_, ?_, h.direction⟩
  · exact Nat.le_of_succ_le h.x
  · exact Nat.le_of_succ_le h.y
  · exact Nat.le_of_succ_le h.speed
  · exact Nat.le_of_succ_le h.frequency

theorem Near.face (h : c.Near room) (direction : Number) : (c.face direction).Near room := by
  unfold Character.face
  split
  · next hturns =>
    simp only [Bool.and_eq_true, decide_eq_true_eq, Int32.le_iff_toInt_le] at hturns
    have hup : up.toInt = 0 := rfl
    have hleft : left.toInt = 3 := rfl
    refine ⟨h.x, h.y, h.speed, h.frequency, ?_⟩
    show direction.toInt.natAbs ≤ 1073741824
    omega
  · exact h

theorem Near.comes_face (h : c.Near (room + 1)) (direction : Number) :
    Comes room (.ok (c.face direction)) :=
  ⟨_, rfl, h.weaken.face direction⟩

theorem exists_number (cause : Overflow) {z : Int} (hlow : -2147483648 ≤ z)
    (hhigh : z ≤ 2147483647) : ∃ s : Number, Checked.fit cause z = .ok s ∧ s.toInt = z := by
  obtain ⟨s, hs⟩ : ∃ s : Number, Checked.fit cause z = .ok s :=
    Checked.exists_fit_iff.2 ⟨hlow, hhigh⟩
  exact ⟨s, hs, Checked.fit_eq_ok_iff.1 hs⟩

theorem exists_sum {a b : Number} (ha : a.toInt.natAbs ≤ 1073741824) (hb : b.toInt.natAbs ≤ 3) :
    ∃ s, Checked.add a b = .ok s ∧ s.toInt = a.toInt + b.toInt := by
  apply exists_number .add
  · show -2147483648 ≤ a.toInt + b.toInt
    omega
  · show a.toInt + b.toInt ≤ 2147483647
    omega

theorem exists_difference {a b : Number} (ha : a.toInt.natAbs ≤ 1073741824)
    (hb : b.toInt.natAbs < 1073741824) :
    ∃ s, Checked.sub a b = .ok s ∧ s.toInt = a.toInt - b.toInt := by
  apply exists_number .sub
  · show -2147483648 ≤ a.toInt - b.toInt
    omega
  · show a.toInt - b.toInt ≤ 2147483647
    omega

/-- One more, up to a limit, takes room for one. -/
theorem exists_raised {a top : Number} (ha : a.toInt.natAbs + (room + 1) ≤ 1073741824)
    (htop : 0 ≤ top.toInt) : ∃ s, Checked.add a 1 = .ok s ∧
      (min s top).toInt.natAbs + room ≤ 1073741824 := by
  obtain ⟨s, hs, hexact⟩ := exists_sum (a := a) (b := 1) (by omega) (by decide)
  refine ⟨s, hs, ?_⟩
  have hone : Int32.toInt 1 = 1 := rfl
  rw [Number.toInt_min]
  omega

/-- One less, down to one, takes room for one too. -/
theorem exists_lowered {a : Number} (ha : a.toInt.natAbs + (room + 1) ≤ 1073741824) :
    ∃ s, Checked.sub a 1 = .ok s ∧ (max s 1).toInt.natAbs + room ≤ 1073741824 := by
  obtain ⟨s, hs, hexact⟩ := exists_difference (a := a) (b := 1) (by omega) (by decide)
  refine ⟨s, hs, ?_⟩
  have hone : Int32.toInt 1 = 1 := rfl
  rw [Number.toInt_max]
  omega

theorem exists_distance {a : Number} (ha : a.toInt.natAbs ≤ 2147483647) :
    ∃ s : Number, Checked.abs a = .ok s := by
  apply Checked.exists_fit_iff.2 ⟨?_, ?_⟩
  · exact Int.le_trans (by decide) (Int.natCast_nonneg a.toInt.natAbs)
  · exact Int.ofNat_le.2 ha

theorem Near.comes_shift {dx dy : Number} (h : c.Near (room + 1)) (hdx : dx.toInt.natAbs ≤ 1)
    (hdy : dy.toInt.natAbs ≤ 1) : Comes room (c.shift dx dy) := by
  have hx := h.x
  have hy := h.y
  refine comes_bind (exists_sum (by omega) (by omega)) fun x hx' => ?_
  refine comes_bind (exists_sum (by omega) (by omega)) fun y hy' => ?_
  refine ⟨_, rfl, ⟨?_, ?_, h.weaken.speed, h.weaken.frequency, h.direction⟩⟩
  · show x.toInt.natAbs + room ≤ 1073741824
    omega
  · show y.toInt.natAbs + room ≤ 1073741824
    omega

theorem offset_le_one (direction : Number) :
    (offset direction).1.toInt.natAbs ≤ 1 ∧ (offset direction).2.toInt.natAbs ≤ 1 := by
  unfold offset
  split <;> decide

theorem Near.comes_walk (h : c.Near (room + 1)) (direction : Number) :
    Comes room (c.walk direction) :=
  (h.face direction).comes_shift (offset_le_one direction).1 (offset_le_one direction).2

theorem Near.comes_walkDiagonally (h : c.Near (room + 1)) (horizontal vertical : Number) :
    Comes room (c.walkDiagonally horizontal vertical) := by
  refine comes_bind (h.comes_shift (offset_le_one _).1 (offset_le_one _).2) fun d hd => ?_
  exact ⟨_, rfl, hd.face horizontal⟩

theorem exists_turned {direction quarters : Number} (hd : direction.toInt.natAbs ≤ 1073741824)
    (hq : quarters.toInt.natAbs ≤ 3) : ∃ d, turned direction quarters = .ok d := by
  obtain ⟨s, hs, -⟩ := exists_sum hd hq
  exact ⟨_, except_bind_eq_ok_iff.2 ⟨s, hs, rfl⟩⟩

theorem Near.exists_directionTo (h : c.Near (room + 1)) {x : Occasion} (hx : x.Near) :
    ∃ d, c.directionTo x.player.1 x.player.2 = .ok d ∧ d.toInt.natAbs ≤ 3 := by
  obtain ⟨hplayerX, hplayerY⟩ := hx
  have hX := h.x
  have hY := h.y
  obtain ⟨dx, hdx, hdx'⟩ := exists_difference hplayerX (b := c.x) (by omega)
  obtain ⟨dy, hdy, hdy'⟩ := exists_difference hplayerY (b := c.y) (by omega)
  obtain ⟨width, hwidth⟩ := exists_distance (a := dx) (by omega)
  obtain ⟨height, hheight⟩ := exists_distance (a := dy) (by omega)
  refine ⟨if height < width then (if 0 < dx then right else left)
    else if 0 < dy then down else up, ?_, ?_⟩
  · apply except_bind_eq_ok_iff.2 ⟨dx, hdx, ?_⟩
    apply except_bind_eq_ok_iff.2 ⟨dy, hdy, ?_⟩
    apply except_bind_eq_ok_iff.2 ⟨width, hwidth, ?_⟩
    exact except_bind_eq_ok_iff.2 ⟨height, hheight, rfl⟩
  · split
    · split <;> decide
    · split <;> decide

theorem Near.exists_directionFrom (h : c.Near (room + 1)) {x : Occasion} (hx : x.Near) :
    ∃ d, c.directionFrom x.player.1 x.player.2 = .ok d := by
  obtain ⟨d, hd, hle⟩ := h.exists_directionTo hx
  obtain ⟨d', hd'⟩ : ∃ d', opposite d = .ok d' := exists_turned (by omega) (by decide)
  exact ⟨d', except_bind_eq_ok_iff.2 ⟨d, hd, hd'⟩⟩

/-- A step changes the numbers of the character by one at most, so that it can be carried out if
there is room for one. -/
theorem Near.comes_perform (h : c.Near (room + 1)) (m : RouteStep) {x : Occasion} (hx : x.Near) :
    Comes room (c.perform m x.player x.random) := by
  have hturned {quarters : Number} (hq : quarters.toInt.natAbs ≤ 3) :
      Comes room (do return c.face (← turned c.direction quarters)) :=
    comes_bind_any (exists_turned h.direction hq) h.comes_face
  have hless := h.weaken
  unfold perform
  split
  case h_1 | h_2 | h_3 | h_4 | h_9 | h_12 => exact h.comes_walk _
  case h_5 | h_6 | h_7 | h_8 => exact h.comes_walkDiagonally _ _
  case h_10 => exact comes_bind (h.exists_directionTo hx) fun d _ => h.comes_walk d
  case h_11 => exact comes_bind_any (h.exists_directionFrom hx) h.comes_walk
  case h_13 | h_14 | h_15 | h_16 | h_21 => exact h.comes_face _
  case h_17 | h_18 | h_19 => exact hturned (by decide)
  case h_20 =>
    apply hturned
    split <;> decide
  case h_22 => exact comes_bind (h.exists_directionTo hx) fun d _ => h.comes_face d
  case h_23 => exact comes_bind_any (h.exists_directionFrom hx) h.comes_face
  case h_27 =>
    exact comes_bind (exists_raised h.speed (by decide)) fun s hs =>
      ⟨_, rfl, hless.x, hless.y, hs, hless.frequency, hless.direction⟩
  case h_28 =>
    exact comes_bind (exists_lowered h.speed) fun s hs =>
      ⟨_, rfl, hless.x, hless.y, hs, hless.frequency, hless.direction⟩
  case h_29 =>
    exact comes_bind (exists_raised h.frequency (by decide)) fun s hs =>
      ⟨_, rfl, hless.x, hless.y, hless.speed, hs, hless.direction⟩
  case h_30 =>
    exact comes_bind (exists_lowered h.frequency) fun s hs =>
      ⟨_, rfl, hless.x, hless.y, hless.speed, hs, hless.direction⟩
  all_goals exact ⟨_, rfl, hless.x, hless.y, hless.speed, hless.frequency, hless.direction⟩

theorem Near.dueStep (h : c.Near room) : c.dueStep.2.Near room := by
  obtain ⟨hx, hy, hspeed, hfrequency, hdirection⟩ := h
  unfold Character.dueStep
  split
  · exact ⟨hx, hy, hspeed, hfrequency, hdirection⟩
  · cases c.route with
    | none => exact ⟨hx, hy, hspeed, hfrequency, hdirection⟩
    | some r =>
      dsimp only
      split
      · exact ⟨hx, hy, hspeed, hfrequency, hdirection⟩
      · split <;> exact ⟨hx, hy, hspeed, hfrequency, hdirection⟩

theorem Near.ride (h : c.Near (room + 1)) {x : Occasion} (hx : x.Near) :
    ∃ p, c.ride x = .ok p ∧ p.2.Near room := by
  have hdue := h.dueStep
  unfold Character.ride
  revert hdue
  rcases c.dueStep with ⟨_ | m, d⟩
  · intro hdue
    exact ⟨_, rfl, hdue.weaken⟩
  · intro hdue
    obtain ⟨c', hc', hnear⟩ := hdue.comes_perform m hx
    by_cases hworldly : m.isWorldly = true
    · exact ⟨_, if_pos hworldly, hdue.weaken⟩
    · have hrest : (do return (some m, ← d.perform m x.player x.random) :
          Except Overflow (Option RouteStep × Character)) = .ok (some m, c') :=
        except_bind_eq_ok_iff.2 ⟨c', hc', rfl⟩
      exact ⟨_, (if_neg hworldly).trans hrest, hnear⟩

/-- Every tick needs room for one more. -/
theorem Near.rides {xs : List Occasion} (h : c.Near xs.length) (hxs : ∀ x ∈ xs, x.Near) :
    ∃ p, c.rides xs = .ok p := by
  induction xs generalizing c with
  | nil => exact ⟨_, rfl⟩
  | cons x xs ih =>
    obtain ⟨p, hp, hnear⟩ := h.ride (hxs x List.mem_cons_self)
    obtain ⟨q, hq⟩ := ih hnear fun y hy => hxs y (List.mem_cons_of_mem x hy)
    exact ⟨_, rides_cons.2 ⟨p, q, hp, hq, rfl, rfl⟩⟩

/-! ## The ride -/

/-- The character that a route is forced on takes every step of it at its tick and nothing at any
other, and it is driven up to the tick of the last one. If the route repeats, there is no last one,
and the character is not driven. A ride ends early exactly at a step that is due and cannot be
carried out, and never if the numbers of the character have room for all its ticks. -/
theorem rides_on_time (c : Character) {r : Route} (hr : r.commands ≠ []) (frequency : Number)
    (xs : List Occasion) :
    (∀ taken c', (c.forceRoute r frequency).rides xs = .ok (taken, c') →
      taken.length = xs.length ∧
      (∀ i < xs.length, ∀ m,
        taken[i]? = some (some m) ↔ ∃ k, r.dueAt k = i ∧ r.step? k = some m) ∧
      (c'.isDriven = true ↔
        r.repeats = false ∧ xs.length ≤ r.dueAt (r.commands.length - 1))) ∧
    (∀ o, (c.forceRoute r frequency).rides xs = .error o ↔
      ∃ before x after taken c' k m, xs = before ++ x :: after ∧
        (c.forceRoute r frequency).rides before = .ok (taken, c') ∧
        r.dueAt k = before.length ∧ r.step? k = some m ∧ m.isWorldly = false ∧
        c'.dueStep.2.perform m x.player x.random = .error o) ∧
    ((c.forceRoute r frequency).Near xs.length → (∀ x ∈ xs, x.Near) →
      ∃ taken c', (c.forceRoute r frequency).rides xs = .ok (taken, c')) := by
  have hstart := onRoute_forceRoute hr c frequency
  refine ⟨?_, ?_, ?_⟩
  · intro taken c' hrides
    obtain ⟨hlength, htaken, k, hend⟩ := hstart.rides xs _ hrides
    simp only [Nat.zero_add] at htaken hend
    exact ⟨hlength, htaken, hend.isDriven_iff hr⟩
  · intro o
    rw [rides_eq_error_iff]
    constructor
    · rintro ⟨before, x, after, taken, c', hxs, hbefore, hx⟩
      obtain ⟨-, -, k', hend⟩ := hstart.rides before _ hbefore
      obtain ⟨m, hdue, hworldly, hperform⟩ := ride_eq_error_iff.1 hx
      obtain ⟨k, hk, hm⟩ := hend.dueStep_eq_some_iff.1 hdue
      rw [Nat.zero_add] at hk
      exact ⟨before, x, after, taken, c', k, m, hxs, hbefore, hk, hm, hworldly, hperform⟩
    · rintro ⟨before, x, after, taken, c', k, m, hxs, hbefore, hk, hm, hworldly, hperform⟩
      obtain ⟨-, -, k', hend⟩ := hstart.rides before _ hbefore
      rw [Nat.zero_add] at hend
      have hdue := hend.dueStep_eq_some_iff.2 ⟨k, hk, hm⟩
      exact ⟨before, x, after, taken, c', hxs, hbefore,
        ride_eq_error_iff.2 ⟨m, hdue, hworldly, hperform⟩⟩
  · intro hnear hxs
    obtain ⟨⟨taken, c'⟩, hrides⟩ := hnear.rides hxs
    exact ⟨taken, c', hrides⟩

/-- A sentry waits, grows more frequent and turns around, over and over. -/
def sentry : Route where
  commands := [{ code := 23 }, { code := 30 }, { code := 18 }]
  repeats := true

/-- The sentry waits again right after turning around. With the highest frequency there is, it does
not get that far. -/
theorem sentry_keeps_time : sentry.commands ≠ [] ∧
    (∃ taken c', ((standing 1 0 0).forceRoute sentry 7).rides
        (List.replicate 24 { player := (0, 0), random := 0 }) = .ok (taken, c') ∧
      taken[21]? = some (some { code := 30 }) ∧ taken[22]? = some (some { code := 18 }) ∧
      taken[23]? = some (some { code := 23 }) ∧ c'.isDriven = false) ∧
    ((standing 1 0 0).forceRoute sentry 2147483647).rides
      (List.replicate 22 { player := (0, 0), random := 0 }) = .error .add := by
  have hr : sentry.commands ≠ [] := List.cons_ne_nil _ _
  refine ⟨hr, ?_, ?_⟩
  · obtain ⟨htimes, -, hcomes⟩ := rides_on_time (standing 1 0 0) hr 7
      (List.replicate 24 { player := (0, 0), random := 0 })
    obtain ⟨taken, c', hrides⟩ := hcomes ⟨by decide, by decide, by decide, by decide, by decide⟩
      fun x hx => by
        rw [List.eq_of_mem_replicate hx]
        exact ⟨by decide, by decide⟩
    obtain ⟨-, htaken, hdriven⟩ := htimes taken c' hrides
    refine ⟨taken, c', hrides, ?_, ?_, ?_, ?_⟩
    · exact (htaken 21 (by decide) _).2 ⟨1, by decide, by decide⟩
    · exact (htaken 22 (by decide) _).2 ⟨2, by decide, by decide⟩
    · exact (htaken 23 (by decide) _).2 ⟨3, by decide, by decide⟩
    · exact Bool.eq_false_iff.2 fun h => Bool.noConfusion (hdriven.1 h).1
  · obtain ⟨-, hfails, -⟩ := rides_on_time (standing 1 0 0) hr 2147483647
      (List.replicate 22 { player := (0, 0), random := 0 })
    refine (hfails .add).2 ⟨List.replicate 21 { player := (0, 0), random := 0 }, _, [], _, _, 1, _,
      rfl, rfl, ?_, rfl, ?_, ?_⟩
    · decide
    · decide
    · decide

end Character

/-! ## On the field -/

theorem Field.character?_setCharacter {f : Field} {id self : Number} {c : Character}
    (hc : f.character? id self = some c) (c' : Character) :
    (f.setCharacter id self c').character? id self = some c' := by
  unfold character? setCharacter at *
  revert hc
  cases CharacterRef.ofId id self with
  | player => exact fun _ => rfl
  | vehicle kind =>
    intro _
    show some (f.vehicles.set kind.val _ kind.isLt)[kind.val].character = some c'
    rw [Vector.getElem_set_self]
  | event id =>
    intro (hc : f.events.get? id = some c)
    show (f.events.modify id fun _ => c').get? id = some c'
    rw [IdMap.get?_modify, if_pos rfl, hc]
    rfl

namespace Act

variable {w : World} {id : Number} {c : Character}

/-- A draw changes nothing but the stream. -/
theorem ensures_draw {a b : Number} {Q : Number → World → Prop}
    (h : ∀ random, Q (w.game.random.between a b).1 { w with game := { w.game with random } }) :
    Ensures (draw a b) w Q := by
  unfold draw
  rw [ensures_bind, ensures_getGame]
  revert h
  obtain ⟨value, random⟩ := w.game.random.between a b
  intro h
  rw [ensures_bind, ensures_setGame, ensures_pure]
  exact h random

/-- Steps that concern more than the character leave the character alone, and the others are carried
out on it. -/
theorem ensures_carryOut (hc : w.game.field.character? id 0 = some c) (x : Occasion)
    (m : RouteStep) : Ensures (carryOut id x.player x.random m) w fun _ w' => ∃ c',
      (if m.isWorldly then .ok c else c.perform m x.player x.random) = .ok c' ∧
      w'.game.field.character? id 0 = some c' := by
  unfold carryOut
  split
  case h_1 h | h_2 h =>
    have hworldly : m.isWorldly = true := by
      simp [RouteStep.isWorldly, h]
    rw [if_pos hworldly]
    simp only [setSwitch, needRefresh, ensures_bind, ensures_modifyGame, ensures_ite, ensures_warn]
    exact ⟨fun _ => ⟨c, rfl, hc⟩, fun _ => ⟨c, rfl, hc⟩⟩
  case h_3 h =>
    have hworldly : m.isWorldly = true := by
      simp [RouteStep.isWorldly, h]
    rw [if_pos hworldly, ensures_emit]
    exact ⟨c, rfl, hc⟩
  case h_4 h32 h33 h35 =>
    have hworldly : ¬ m.isWorldly = true := by
      simp only [RouteStep.isWorldly, Bool.or_eq_true, decide_eq_true_eq]
      rintro ((h | h) | h)
      · exact h32 h
      · exact h33 h
      · exact h35 h
    rw [if_neg hworldly, ensures_bind, ensures_getGame, hc]
    simp only [ensures_bind, ensures_check, ensures_setGame]
    intro c' hc'
    exact ⟨c', hc', Field.character?_setCharacter hc c'⟩

/-- A tick of the game is a tick of the ride for a character of the field. -/
theorem ensures_stepRoute (hc : w.game.field.character? id 0 = some c) :
    Ensures (stepRoute id) w fun _ w' => ∃ p,
      c.ride { player := (w.game.field.player.x, w.game.field.player.y)
               random := (w.game.random.between up left).1 } = .ok p ∧
      w'.game.field.character? id 0 = some p.2 := by
  have hdraw : Ensures (draw up left) w fun random u =>
      random = (w.game.random.between up left).1 ∧ u.game.field = w.game.field :=
    ensures_draw fun _ => ⟨rfl, rfl⟩
  refine hdraw.bind fun random u hu => ?_
  obtain ⟨hrandom, hfield⟩ := hu
  rw [← hfield] at hc ⊢
  rw [← hrandom, ensures_bind, ensures_getGame]
  dsimp only
  rw [hc]
  have hset := Field.character?_setCharacter hc
  unfold Character.ride
  dsimp only
  obtain ⟨_ | m, d⟩ := c.dueStep
  · simp only [ensures_bind, ensures_setGame, ensures_pure]
    exact ⟨_, rfl, hset d⟩
  · simp only [ensures_bind, ensures_setGame]
    let x : Occasion := { player := (u.game.field.player.x, u.game.field.player.y), random }
    refine (ensures_carryOut (hset d) x m).imp fun _ w' hw' => ?_
    obtain ⟨c', hc', hafter⟩ := hw'
    refine ⟨(some m, c'), ?_, hafter⟩
    by_cases hworldly : m.isWorldly = true
    · rw [if_pos hworldly] at hc' ⊢
      rw [Except.ok.inj hc']
    · rw [if_neg hworldly] at hc' ⊢
      exact except_bind_eq_ok_iff.2 ⟨c', hc', rfl⟩

end Act

end EventScript
