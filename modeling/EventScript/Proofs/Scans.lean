import EventScript.Blocks

/-!
# What a scan finds

* `Blocks.Hits` holds of the commands that a search forward looks for.
* `Blocks.seek_eq_some_iff` and `Blocks.seek_eq_none_iff`: a search finds the first of them, unless
  a command stands before it that is indented less than any of them may be.
* `Blocks.loopBefore_eq_some_iff`: a search backward finds the last loop at an indent, unless a
  command that is indented less stands behind it.
-/

namespace EventScript.Blocks

variable {cs : List Command} {start i : Nat} {target alt low high : Number}

/-- Whether a search looks for a command. -/
def Hits (target alt low high : Number) (c : Command) : Prop :=
  (low ≤ c.indent ∧ c.indent ≤ high) ∧ (c.code = target ∨ c.code = alt)

/-- What a search from a place on finds: the first command that it looks for, and none before it
that ends the search. -/
structure FirstHit (cs : List Command) (start : Nat) (target alt low high : Number) (i : Nat) :
    Prop where
  le : start ≤ i
  hit : ∃ c, cs[i]? = some c ∧ Hits target alt low high c
  passed : ∀ j c, start ≤ j → j < i → cs[j]? = some c →
    low ≤ c.indent ∧ ¬ Hits target alt low high c

theorem FirstHit.unique {i' : Nat} (h : FirstHit cs start target alt low high i)
    (h' : FirstHit cs start target alt low high i') : i = i' := by
  obtain ⟨c, hc, hhit⟩ := h.hit
  obtain ⟨c', hc', hhit'⟩ := h'.hit
  rcases Nat.lt_trichotomy i i' with hlt | heq | hgt
  · exact absurd hhit (h'.passed i c h.le hlt hc).2
  · exact heq
  · exact absurd hhit' (h.passed i' c' h'.le hgt hc').2

/-- A command that a search looks for is found, or one before it, if none before it ends the
search. -/
theorem exists_firstHit {c : Command} (hle : start ≤ i) (hc : cs[i]? = some c)
    (hhit : Hits target alt low high c)
    (hlow : ∀ j x, start ≤ j → j < i → cs[j]? = some x → low ≤ x.indent) :
    ∃ j, j ≤ i ∧ FirstHit cs start target alt low high j := by
  induction i using Nat.strongRecOn generalizing c with
  | ind i ih =>
    by_cases hearlier : ∃ j x, start ≤ j ∧ j < i ∧ cs[j]? = some x ∧ Hits target alt low high x
    · obtain ⟨j, x, hj, hlt, hx, hhit'⟩ := hearlier
      obtain ⟨l, hl, hfirst⟩ := ih j hlt hj hx hhit' fun q y hq hqj => hlow q y hq (by omega)
      exact ⟨l, by omega, hfirst⟩
    · refine ⟨i, Nat.le_refl i, hle, ⟨c, hc, hhit⟩, fun j x hj hlt hx => ⟨hlow j x hj hlt hx, ?_⟩⟩
      exact fun hhit' => hearlier ⟨j, x, hj, hlt, hx, hhit'⟩

/-- The search goes on behind a command that does not end it and is not looked for. -/
theorem firstHit_cons_iff {c : Command} (hlow : low ≤ c.indent)
    (hmiss : ¬ Hits target alt low high c) :
    FirstHit (c :: cs) 0 target alt low high (i + 1) ↔ FirstHit cs 0 target alt low high i := by
  constructor
  · rintro ⟨-, hhit, hpassed⟩
    exact ⟨Nat.zero_le _, hhit, fun j x _ hj hx => hpassed (j + 1) x (Nat.zero_le _) (by omega) hx⟩
  · rintro ⟨-, hhit, hpassed⟩
    refine ⟨Nat.zero_le _, hhit, fun j x _ hj hx => ?_⟩
    cases j with
    | zero =>
      cases hx
      exact ⟨hlow, hmiss⟩
    | succ j => exact hpassed j x (Nat.zero_le _) (by omega) hx

theorem scanForward_eq_some_iff (cs : List Command) (start i : Nat) :
    scanForward target alt low high start cs = some i ↔
      ∃ n, i = start + n ∧ FirstHit cs 0 target alt low high n := by
  induction cs generalizing start with
  | nil => exact ⟨nofun, fun ⟨n, _, h⟩ => nomatch h.hit⟩
  | cons c cs ih =>
    -- a command that is passed over shifts the places by one
    have hpass (hlow : low ≤ c.indent) (hmiss : ¬ Hits target alt low high c) :
        scanForward target alt low high (start + 1) cs = some i ↔
          ∃ n, i = start + n ∧ FirstHit (c :: cs) 0 target alt low high n := by
      rw [ih]
      constructor
      · rintro ⟨n, rfl, hn⟩
        exact ⟨n + 1, by omega, (firstHit_cons_iff hlow hmiss).2 hn⟩
      · rintro ⟨n, rfl, hn⟩
        cases n with
        | zero =>
          obtain ⟨x, hx, hhit⟩ := hn.hit
          cases hx
          exact absurd hhit hmiss
        | succ n => exact ⟨n, by omega, (firstHit_cons_iff hlow hmiss).1 hn⟩
    rw [scanForward]
    split
    · next hless =>
      refine ⟨nofun, ?_⟩
      rintro ⟨n, -, hn⟩
      have hlow : low ≤ c.indent := by
        cases n with
        | zero =>
          obtain ⟨x, hx, hhit⟩ := hn.hit
          cases hx
          exact hhit.1.1
        | succ n => exact (hn.passed 0 c (Nat.zero_le _) (Nat.succ_pos n) rfl).1
      exact absurd hless (Int32.not_lt.2 hlow)
    · next hlow =>
      have hlow : low ≤ c.indent := Int32.not_lt.1 hlow
      split
      · next hhigh => exact hpass hlow fun h => Int32.not_lt.2 h.1.2 hhigh
      · next hhigh =>
        split
        · next hcode =>
          have hhit : Hits target alt low high c := ⟨⟨hlow, Int32.not_lt.1 hhigh⟩, hcode⟩
          have hfirst : FirstHit (c :: cs) 0 target alt low high 0 :=
            ⟨Nat.le_refl 0, ⟨c, rfl, hhit⟩, fun j _ _ hj => absurd hj (Nat.not_lt_zero j)⟩
          constructor
          · intro h
            cases h
            exact ⟨0, rfl, hfirst⟩
          · rintro ⟨n, rfl, hn⟩
            rw [hn.unique hfirst, Nat.add_zero]
        · next hcode => exact hpass hlow fun h => hcode h.2

theorem firstHit_drop_iff (cs : List Command) (start n : Nat) :
    FirstHit (cs.drop start) 0 target alt low high n ↔
      FirstHit cs start target alt low high (start + n) := by
  constructor
  · rintro ⟨-, hhit, hpassed⟩
    rw [List.getElem?_drop] at hhit
    refine ⟨Nat.le_add_right _ _, hhit, fun j c hj hlt hc => ?_⟩
    obtain ⟨k, rfl⟩ := Nat.exists_eq_add_of_le hj
    exact hpassed k c (Nat.zero_le _) (by omega) (List.getElem?_drop.trans hc)
  · rintro ⟨-, hhit, hpassed⟩
    rw [← List.getElem?_drop] at hhit
    refine ⟨Nat.zero_le _, hhit, fun j c _ hlt hc => ?_⟩
    exact hpassed (start + j) c (Nat.le_add_right _ _) (by omega) (List.getElem?_drop.symm.trans hc)

/-- A search finds the first command that it looks for, unless one before it ends the search. -/
theorem seek_eq_some_iff :
    seek cs start target alt low high = some i ↔ FirstHit cs start target alt low high i := by
  rw [seek, scanForward_eq_some_iff]
  constructor
  · rintro ⟨n, rfl, hn⟩
    exact (firstHit_drop_iff cs start n).1 hn
  · intro h
    obtain ⟨n, rfl⟩ := Nat.exists_eq_add_of_le h.le
    exact ⟨n, rfl, (firstHit_drop_iff cs start n).2 h⟩

theorem seek_eq_none_iff : seek cs start target alt low high = none ↔
    ∀ i, ¬ FirstHit cs start target alt low high i := by
  rw [Option.eq_none_iff_forall_not_mem]
  exact forall_congr' fun i => not_congr seek_eq_some_iff

/-! ## The loop before a place -/

/-- What a search backward from a place finds: the last loop at an indent, and no command behind it
that ends the search. -/
structure LastLoop (cs : List Command) (start : Nat) (indent : Number) (i : Nat) : Prop where
  lt : i < start
  loop : ∃ c, cs[i]? = some c ∧ c.indent = indent ∧ c.code = SharedOp.loop.code
  passed : ∀ j c, i < j → j < start → cs[j]? = some c →
    ¬ c.indent < indent ∧ ¬ (c.indent = indent ∧ c.code = SharedOp.loop.code)

/-- The search looks at the command right before the place first. -/
theorem loopBefore_succ (cs : List Command) (start : Nat) (indent : Number) :
    loopBefore cs (start + 1) indent = match cs[start]? with
      | none => loopBefore cs start indent
      | some c =>
        if c.indent < indent then none
        else if c.indent = indent ∧ c.code = SharedOp.loop.code then some start
        else loopBefore cs start indent := by
  unfold loopBefore
  rw [List.take_add_one]
  cases hc : cs[start]? with
  | none => simp
  | some c =>
    have hlength : (cs.take start).length = start := by
      have hlt := (List.getElem?_eq_some_iff.1 hc).1
      exact List.length_take_of_le (Nat.le_of_lt hlt)
    simp [scanBackward, hlength]

theorem loopBefore_eq_some_iff {indent : Number} :
    loopBefore cs start indent = some i ↔ LastLoop cs start indent i := by
  induction start with
  | zero =>
    refine iff_of_false ?_ fun h => Nat.not_lt_zero i h.lt
    simp [loopBefore, scanBackward]
  | succ start ih =>
    -- a command that neither ends the search nor is found leaves it to those before it
    have hpass (hmiss : ∀ c, cs[start]? = some c →
        ¬ c.indent < indent ∧ ¬ (c.indent = indent ∧ c.code = SharedOp.loop.code)) :
        LastLoop cs start indent i ↔ LastLoop cs (start + 1) indent i := by
      constructor
      · rintro ⟨hlt, hloop, hpassed⟩
        refine ⟨by omega, hloop, fun j c hi hj hc => ?_⟩
        rcases Nat.lt_or_eq_of_le (Nat.le_of_lt_succ hj) with hj | rfl
        · exact hpassed j c hi hj hc
        · exact hmiss c hc
      · rintro ⟨hlt, ⟨c, hc, hloop⟩, hpassed⟩
        have hne : i ≠ start := by
          rintro rfl
          exact (hmiss c hc).2 hloop
        exact ⟨by omega, ⟨c, hc, hloop⟩, fun j x hi hj => hpassed j x hi (by omega)⟩
    rw [loopBefore_succ]
    cases hc : cs[start]? with
    | none => exact ih.trans (hpass fun c h => nomatch hc.symm.trans h)
    | some c =>
      have hlast {x : Command} (h : cs[start]? = some x) : x = c :=
        (Option.some.inj (hc.symm.trans h)).symm
      dsimp only
      split
      · next hless =>
        refine iff_of_false nofun fun h => ?_
        rcases Nat.lt_or_eq_of_le (Nat.le_of_lt_succ h.lt) with hlt | rfl
        · exact (h.passed start c hlt (Nat.lt_succ_self start) hc).1 hless
        · obtain ⟨x, hx, hindent, -⟩ := h.loop
          exact Int32.ne_of_lt hless (hlast hx ▸ hindent)
      · next hlow =>
        split
        · next hloop =>
          constructor
          · intro h
            cases h
            exact ⟨Nat.lt_succ_self _, ⟨c, hc, hloop⟩, fun j _ hi hj => by omega⟩
          · intro h
            rcases Nat.lt_or_eq_of_le (Nat.le_of_lt_succ h.lt) with hlt | rfl
            · exact absurd hloop (h.passed start c hlt (Nat.lt_succ_self start) hc).2
            · rfl
        · next hloop => exact ih.trans (hpass fun x hx => hlast hx ▸ ⟨hlow, hloop⟩)

end EventScript.Blocks
