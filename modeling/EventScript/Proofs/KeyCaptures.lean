import EventScript.Commands.Keys
import EventScript.Proofs.HeldUpdates

/-!
# Keys

The command of the keys takes the enabled key with the highest number, at once or when it is hit.

* `Command.asksFor` says which keys the layout of a command enables, and `Command.highest` is the
  highest number of the enabled ones among some keys. `toInt_find?_keys` shows that the first key
  found on the list that the command keeps is the one that counts.
* `KeyCapture.watch` looks at the keys again and again, until the capture ends.
  `KeyCapture.watch_of_missed` follows it while no key counts, and `KeyCapture.watch_of_caught`
  shows how it ends.
* `Commands.captureKey_highest`: what the variable and the variable for the time hold in the end.
  The time is right up to the largest number; beyond it, it is less than zero.
-/

namespace EventScript

/-! ## The keys of a command -/

namespace Command

/-- Whether a command asks for a key. The length of its parameters tells where the flags are. -/
def asksFor (c : Command) (key : Key) : Bool :=
  let short := c.params.length < 6
  let long := 11 ≤ c.params.length
  match key with
  | .decision => c.flag 3
  | .cancel => c.flag 4
  | .down => c.flag (if short then 2 else if long then 10 else 6)
  | .left => c.flag (if short then 2 else if long then 11 else 7)
  | .right => c.flag (if short then 2 else if long then 12 else 8)
  | .up => c.flag (if short then 2 else if long then 13 else 9)
  | .shift => !short && c.flag (if long then 9 else 5)
  | .digit n => long && c.flag 5 && n ≤ 9
  | .plus | .minus | .multiply | .divide | .period => long && c.flag 6

/-- The highest number of a key among some that a command asks for, or zero if it asks for none. -/
def highest (c : Command) (keys : List Key) : Int :=
  ((keys.filter c.asksFor).map fun key => key.code.toInt).max?.getD 0

end Command

namespace Commands

namespace KeySelection

/-- Whether a key is selected. -/
def has (s : KeySelection) : Key → Bool
  | .down => s.down
  | .left => s.left
  | .right => s.right
  | .up => s.up
  | .decision => s.decision
  | .cancel => s.cancel
  | .shift => s.shift
  | .digit n => s.digits && n ≤ 9
  | .plus | .minus | .multiply | .divide | .period => s.arithmetic

theorem digit_mem_digitKeys {n : UInt8} : Key.digit n ∈ digitKeys ↔ n ≤ 9 := by
  simp only [digitKeys, List.mem_cons, Key.digit.injEq, List.not_mem_nil, or_false,
    ← UInt8.toNat_inj, UInt8.le_iff_toNat_le]
  simp
  omega

theorem mem_keys_iff {s : KeySelection} {key : Key} : key ∈ s.keys ↔ s.has key = true := by
  have hdigits : key ∈ digitKeys ↔ ∃ n ≤ 9, key = .digit n := by
    cases key with
    | digit n => simp [digit_mem_digitKeys]
    | _ => simp [digitKeys]
  cases key <;>
    simp [keys, has, arithmeticKeys, hdigits]

/-- What is left of some groups when not all of them are chosen. -/
theorem flatMap_chosen_sublist (groups : List (Bool × List Key)) :
    (groups.flatMap fun (chosen, keys) => if chosen then keys else []).Sublist
      (groups.flatMap Prod.snd) := by
  induction groups with
  | nil => exact List.Sublist.refl []
  | cons group groups ih =>
    obtain ⟨chosen, keys⟩ := group
    rw [List.flatMap_cons, List.flatMap_cons]
    cases chosen with
    | true => exact (List.Sublist.refl keys).append ih
    | false => exact (List.nil_sublist keys).append ih

/-- The list of a selection goes down in numbers. -/
theorem keys_descend (s : KeySelection) :
    s.keys.Pairwise fun a b => b.code.toInt < a.code.toInt := by
  apply List.Pairwise.sublist (flatMap_chosen_sublist _)
  change List.Pairwise (fun a b : Key => b.code.toInt < a.code.toInt)
    (arithmeticKeys ++ (digitKeys ++ [.shift, .cancel, .decision, .up, .right, .left, .down]))
  decide

end KeySelection

theorem has_keySelection (c : Command) (key : Key) :
    (keySelection c).has key = c.asksFor key := by
  unfold keySelection Command.asksFor
  by_cases hshort : c.params.length < 6
  · have hlong : ¬ 11 ≤ c.params.length := by omega
    cases key <;> simp [hshort, hlong, KeySelection.has]
  · by_cases hlong : c.params.length < 11
    · have hlong' : ¬ 11 ≤ c.params.length := by omega
      cases key <;> simp [hshort, hlong, hlong', KeySelection.has]
    · have hlong' : 11 ≤ c.params.length := by omega
      cases key <;> simp [hshort, hlong, hlong', KeySelection.has]

theorem mem_keys_keySelection {c : Command} {key : Key} :
    key ∈ (keySelection c).keys ↔ c.asksFor key = true := by
  rw [KeySelection.mem_keys_iff, has_keySelection]

/-- Nothing is found exactly if the command asks for none of the keys. -/
theorem find?_keys_eq_none_iff {c : Command} {keys : List Key} :
    ((keySelection c).keys.find? fun key => keys.contains key) = none ↔
      keys.any c.asksFor = false := by
  rw [List.find?_eq_none, List.any_eq_false]
  constructor
  · intro h key hkey hasks
    exact h key (mem_keys_keySelection.2 hasks) (List.contains_iff_mem.2 hkey)
  · intro h key hasks hkey
    exact h key (List.contains_iff_mem.1 hkey) (mem_keys_keySelection.1 hasks)

/-- The key found first is the one with the highest number, because the list goes down. -/
theorem toInt_code_of_find? {c : Command} {keys : List Key} {key : Key}
    (h : ((keySelection c).keys.find? fun key => keys.contains key) = some key) :
    key.code.toInt = c.highest keys := by
  obtain ⟨hkey, before, after, hsplit, hbefore⟩ := List.find?_eq_some_iff_append.1 h
  have hdescend := (keySelection c).keys_descend
  rw [hsplit] at hdescend
  obtain ⟨-, hafter, -⟩ := List.pairwise_append.1 hdescend
  have hgreatest : ((keys.filter c.asksFor).map fun key => key.code.toInt).max? =
      some key.code.toInt := by
    apply List.max?_eq_some_iff.2 ⟨?_, ?_⟩
    · have hasks := mem_keys_keySelection.1 (List.mem_of_find?_eq_some h)
      exact List.mem_map_of_mem (List.mem_filter.2 ⟨List.contains_iff_mem.1 hkey, hasks⟩)
    · intro n hn
      obtain ⟨other, hother, rfl⟩ := List.mem_map.1 hn
      obtain ⟨hmem, hasks⟩ := List.mem_filter.1 hother
      have hlist := mem_keys_keySelection.2 hasks
      rw [hsplit, List.mem_append, List.mem_cons] at hlist
      rcases hlist with hlist | rfl | hlist
      · have hmissing := hbefore other hlist
        simp [hmem] at hmissing
      · exact Int.le_refl _
      · exact Int.le_of_lt (List.rel_of_pairwise_cons hafter hlist)
  rw [Command.highest, hgreatest]
  rfl

/-- So is what a command without a wait stores. -/
theorem toInt_find?_keys (c : Command) (keys : List Key) :
    ((((keySelection c).keys.find? fun key => keys.contains key).map Key.code).getD 0).toInt =
      c.highest keys := by
  cases h : (keySelection c).keys.find? fun key => keys.contains key with
  | some key => exact toInt_code_of_find? h
  | none =>
    have hnone : keys.filter c.asksFor = [] := by
      rw [List.filter_eq_nil_iff]
      exact List.any_eq_false.1 (find?_keys_eq_none_iff.1 h)
    rw [Command.highest, hnone]
    rfl

end Commands

/-! ## Looks at the keys -/

/-- The bounds of variables, applied to a number. -/
def Variables.limited (v : Variables) (n : Int) : Int := min (max n v.low.toInt) v.high.toInt

/-- A number of 32 bits, read as one with a sign. -/
def signed (n : Nat) : Int := if n < 2147483648 then n else n - 4294967296

theorem toInt_toInt32 (n : UInt32) : n.toInt32.toInt = signed n.toNat := by
  change n.toBitVec.toInt = signed n.toBitVec.toNat
  rw [BitVec.toInt_eq_toNat_cond, signed]
  have := n.toNat_lt
  split <;> split <;> omega

namespace KeyCapture

variable {d : Database} {k : KeyCapture} {host : Host} {w : World}

/-- The looks at the keys of a capture up to the one that ends it, each with what the machine says
and the world at that time: the games that they leave, and what is left to wait for. -/
def watch (d : Database) (k : KeyCapture) :
    List (Host × World) → Except Overflow (List Game × Option KeyCapture)
  | [] => .ok ([], some k)
  | (host, w) :: rest => do
    let (left, w) ← Commands.pollKeys { data := d, host } k w
    match left with
    | none => return ([w.game], none)
    | some k => do
      let (games, left) ← watch d k rest
      return (w.game :: games, left)

/-- A capture after a number of looks. -/
def after (k : KeyCapture) (n : Nat) : KeyCapture := { k with polls := .ofNat n }

theorem toNat_polls_after {n : Nat} (hn : n * 10 < UInt32.size) : (k.after n).polls.toNat = n := by
  apply UInt32.toNat_ofNat_of_lt'
  rw [UInt32.size] at hn ⊢
  omega

theorem caught?_after {n : Nat} (hn : n * 10 < UInt32.size) :
    (k.after n).caught? { data := d, host } =
      if n = 0 then none else k.keys.find? fun key => host.triggered.contains key := by
  have hzero : (k.after n).polls = 0 ↔ n = 0 := by
    rw [← UInt32.toNat_inj, toNat_polls_after hn]
    rfl
  unfold caught?
  simp only [hzero]
  rfl

theorem tenths_after {n : Nat} (hn : n * 10 < UInt32.size) :
    ((k.after n).tenths { data := d, host }).toInt =
      signed (n * 10 / max d.config.fps.toNat 1) := by
  have hmax : (max d.config.fps 1).toNat = max d.config.fps.toNat 1 := by
    have hone : (1 : UInt32).toNat = 1 := rfl
    rw [show max d.config.fps 1 = if d.config.fps ≤ 1 then 1 else d.config.fps from rfl]
    split
    · next h =>
      rw [UInt32.le_iff_toNat_le] at h
      omega
    · next h =>
      rw [UInt32.le_iff_toNat_le] at h
      omega
  have hmul : ((k.after n).polls * 10).toNat = n * 10 := by
    rw [UInt32.toNat_mul, toNat_polls_after hn]
    exact Nat.mod_eq_of_lt hn
  rw [tenths, toInt_toInt32, UInt32.toNat_div, hmul, hmax]

/-- A look before the time is out has a result. -/
theorem pollKeys_after {n : Nat} (hn : n * 10 < UInt32.size) :
    ∃ u, Commands.pollKeys { data := d, host } (k.after n) w =
      .ok (if ((k.after n).caught? { data := d, host }).isSome then none
        else some (k.after (n + 1)), u) ∧
      u.game = (k.after n).look { data := d, host } w.game := by
  have hnext : { k.after n with polls := (k.after n).polls + 1 } = k.after (n + 1) := by
    simp [after, UInt32.ofNat_add]
  obtain ⟨hover, -⟩ | ⟨-, u, hu, hgame, -⟩ := Commands.pollKeys_eq { data := d, host } (k.after n) w
  · rw [Overruns, toNat_polls_after hn] at hover
    have hsize : UInt32.size = 4294967296 := rfl
    obtain hlast | ⟨-, -, hproduct⟩ := hover
    · omega
    · omega
  · rw [hnext] at hu
    exact ⟨u, hu, hgame⟩

theorem watch_of_caught {n : Nat} {rest : List (Host × World)} (hn : n * 10 < UInt32.size)
    (h : ((k.after n).caught? { data := d, host }).isSome = true) :
    (k.after n).watch d ((host, w) :: rest) =
      .ok ([(k.after n).look { data := d, host } w.game], none) := by
  obtain ⟨u, hu, hgame⟩ := pollKeys_after (k := k) (d := d) (w := w) hn
  rw [if_pos h] at hu
  rw [watch, hu, ← hgame]
  rfl

theorem watch_of_missed {n : Nat} {rest : List (Host × World)} (hn : n * 10 < UInt32.size)
    (h : (k.after n).caught? { data := d, host } = none) {games : List Game}
    {left : Option KeyCapture} (hrest : (k.after (n + 1)).watch d rest = .ok (games, left)) :
    (k.after n).watch d ((host, w) :: rest) = .ok (w.game :: games, left) := by
  obtain ⟨u, hu, hgame⟩ := pollKeys_after (k := k) (d := d) (w := w) hn
  rw [h, Option.isSome_none, if_neg Bool.false_ne_true] at hu
  have hsame : u.game = w.game := by
    rw [hgame, look, h]
  rw [watch, hu, ← hsame]
  change ((k.after (n + 1)).watch d rest >>= fun p => pure (u.game :: p.1, p.2)) = _
  rw [hrest]
  rfl

/-- While nothing is hit that is waited for, a capture goes on and changes nothing. -/
theorem watch_of_quiet {seen rest : List (Host × World)} {n : Nat}
    (hn : (n + seen.length) * 10 < UInt32.size)
    (hseen : ∀ p ∈ seen, (k.keys.find? fun key => p.1.triggered.contains key) = none)
    {games : List Game} {left : Option KeyCapture}
    (hrest : (k.after (n + seen.length)).watch d rest = .ok (games, left)) :
    (k.after n).watch d (seen ++ rest) = .ok (seen.map (·.2.game) ++ games, left) := by
  induction seen generalizing n with
  | nil => exact hrest
  | cons p seen ih =>
    obtain ⟨host, w⟩ := p
    have hlength : n + ((host, w) :: seen).length = n + 1 + seen.length := by
      rw [List.length_cons]
      omega
    rw [hlength] at hn hrest
    apply watch_of_missed (by omega)
    · rw [caught?_after (by omega), hseen _ List.mem_cons_self, ite_self]
    · exact ih hn (fun q hq => hseen q (List.mem_cons_of_mem _ hq)) hrest

end KeyCapture

/-! ## The command -/

theorem Variables.toInt_get_set {v : Variables} {id : Number} (hid : 0 < id.toInt)
    (value j : Number) : ((v.set id value).get j).toInt =
      if j = id then v.limited value.toInt else (v.get j).toInt := by
  rw [get_set]
  by_cases hj : j = id
  · rw [if_pos ⟨hj, hid⟩, if_pos hj, Number.toInt_clampInt]
    rfl
  · rw [if_neg (fun h => hj h.1), if_neg hj]

theorem Variables.limited_set (v : Variables) (id value : Number) (n : Int) :
    (v.set id value).limited n = v.limited n :=
  rfl

/-- What a command waits for. -/
def Command.capture (c : Command) : KeyCapture :=
  { target := c.param 0
    timeTarget := Commands.timeTarget c
    keys := (Commands.keySelection c).keys
    polls := 0 }

namespace Commands

variable {d : Database} {f : Frame} {c : Command} {host : Host} {w : World}

/-- While no key is hit that the command asks for, apart from the first look, the capture goes
on. -/
theorem watch_of_idle {before rest : List (Host × World)}
    (hlength : before.length * 10 < UInt32.size)
    (hquiet : ∀ p ∈ before.tail, p.1.triggered.any c.asksFor = false) {games : List Game}
    {left : Option KeyCapture}
    (hrest : (c.capture.after before.length).watch d rest = .ok (games, left)) :
    c.capture.watch d (before ++ rest) = .ok (before.map (·.2.game) ++ games, left) := by
  change (c.capture.after 0).watch d (before ++ rest) = _
  cases before with
  | nil => exact hrest
  | cons p before =>
    rw [List.length_cons] at hlength hrest
    apply KeyCapture.watch_of_missed (by decide)
    · rw [KeyCapture.caught?_after (by decide), if_pos rfl]
    · rw [Nat.add_comm] at hlength hrest
      apply KeyCapture.watch_of_quiet hlength ?_ hrest
      intro q hq
      exact find?_keys_eq_none_iff.2 (hquiet q hq)

/-- Without a wait, the command stores the highest key that is down. -/
theorem captureKey_at_once (hwait : c.flag 1 = false) (htarget : 0 < (c.param 0).toInt) :
    ∃ u vars, captureKey { data := d, host } f c w = .ok (.next f.pc, u) ∧
      u.game = { w.game with vars, field := { w.game.field with needRefresh := true } } ∧
      ∀ id, (vars.get id).toInt =
        if id = c.param 0 then w.game.vars.limited (c.highest host.pressed)
        else (w.game.vars.get id).toInt := by
  obtain ⟨u, hu, hgame, -⟩ := Act.setVariable_eq (c.param 0)
    ((((keySelection c).keys.find? fun key => host.pressed.contains key).map Key.code).getD 0) w
  refine ⟨{ u with game := { u.game with field := { u.game.field with needRefresh := true } } },
    u.game.vars, ?_, ?_, ?_⟩
  · simp only [captureKey, hwait, Bool.false_eq_true, if_false]
    rw [bind_of_ok hu]
    rfl
  · rw [hgame]
  · intro id
    rw [hgame, Variables.toInt_get_set htarget, toInt_find?_keys]

/-- With a wait, the command clears its variable and waits for the keys. -/
theorem captureKey_waits (hwait : c.flag 1 = true) :
    ∃ u, captureKey { data := d, host } f c w = .ok (.capture c.capture, u) ∧
      u.game = { w.game with vars := w.game.vars.set (c.param 0) 0 } := by
  obtain ⟨u, hu, hgame, -⟩ := Act.setVariable_eq (c.param 0) 0 w
  refine ⟨u, ?_, hgame⟩
  simp only [captureKey, hwait, if_true]
  rw [bind_of_ok hu]
  rfl

/-- The look that ends a capture stores the highest key that was hit, and the time. -/
theorem look_after {n : Nat} (hn : n * 10 < UInt32.size) (hpos : n ≠ 0)
    (htarget : 0 < (c.param 0).toInt)
    (htime : ∀ id, timeTarget c = some id → 0 < id.toInt ∧ id ≠ c.param 0)
    (hhit : host.triggered.any c.asksFor = true) :
    ((c.capture.after n).caught? { data := d, host }).isSome = true ∧
    ∃ vars, (c.capture.after n).look { data := d, host } w.game =
      { w.game with vars, field := { w.game.field with needRefresh := true } } ∧
      ∀ id, (vars.get id).toInt =
        if id = c.param 0 then w.game.vars.limited (c.highest host.triggered)
        else if timeTarget c = some id then
          w.game.vars.limited (signed (n * 10 / max d.config.fps.toNat 1))
        else (w.game.vars.get id).toInt := by
  have hcaught : (c.capture.after n).caught? { data := d, host } =
      (keySelection c).keys.find? fun key => host.triggered.contains key := by
    rw [KeyCapture.caught?_after hn, if_neg hpos]
    rfl
  obtain ⟨key, hkey⟩ : ∃ key, ((keySelection c).keys.find? fun key =>
      host.triggered.contains key) = some key := by
    rw [← Option.ne_none_iff_exists', Ne, find?_keys_eq_none_iff, hhit]
    exact Bool.noConfusion
  have hcode := toInt_code_of_find? hkey
  have htenths : ((c.capture.after n).tenths { data := d, host }).toInt =
      signed (n * 10 / max d.config.fps.toNat 1) := KeyCapture.tenths_after hn
  rw [KeyCapture.look, hcaught, hkey]
  refine ⟨rfl, _, rfl, ?_⟩
  intro id
  have hkeyset := Variables.toInt_get_set (v := w.game.vars) htarget key.code id
  rw [hcode] at hkeyset
  cases htarget' : timeTarget c with
  | none =>
    simp only [KeyCapture.after, Command.capture, htarget', reduceCtorEq, if_false]
    exact hkeyset
  | some target =>
    obtain ⟨hpositive, hother⟩ := htime target htarget'
    simp only [KeyCapture.after, Command.capture, htarget'] at htenths ⊢
    rw [Variables.toInt_get_set hpositive, Variables.limited_set, htenths, hkeyset]
    by_cases hid : id = target
    · subst hid
      rw [if_pos rfl, if_neg hother, if_pos rfl]
    · rw [if_neg hid, if_neg fun h => hid (Option.some.inj h).symm]

/-- Without a wait, the variable of the command takes the highest key that is down. With a wait, the
first look after the very first one at which a key is hit takes the highest of these keys, and the
time up to it for the other variable; every look before leaves the game as it is. The time is stored
as a number of 32 bits with a sign. -/
theorem captureKey_highest (d : Database) (f : Frame) (c : Command)
    (htarget : 0 < (c.param 0).toInt)
    (htime : ∀ id, timeTarget c = some id → 0 < id.toInt ∧ id ≠ c.param 0) :
    (c.flag 1 = false → ∀ host w, ∃ u vars,
      captureKey { data := d, host } f c w = .ok (.next f.pc, u) ∧
      u.game = { w.game with vars, field := { w.game.field with needRefresh := true } } ∧
      ∀ id, (vars.get id).toInt =
        if id = c.param 0 then w.game.vars.limited (c.highest host.pressed)
        else (w.game.vars.get id).toInt) ∧
    (c.flag 1 = true →
      (∀ host w, ∃ u, captureKey { data := d, host } f c w = .ok (.capture c.capture, u) ∧
        u.game = { w.game with vars := w.game.vars.set (c.param 0) 0 }) ∧
      ∀ seen : List (Host × World), seen.length * 10 < UInt32.size →
        ((∀ p ∈ seen.tail, p.1.triggered.any c.asksFor = false) →
          c.capture.watch d seen =
            .ok (seen.map (·.2.game), some (c.capture.after seen.length))) ∧
        ∀ before host w rest, seen = before ++ (host, w) :: rest → before ≠ [] →
          (∀ p ∈ before.tail, p.1.triggered.any c.asksFor = false) →
          host.triggered.any c.asksFor = true → ∃ vars,
            c.capture.watch d seen = .ok (before.map (·.2.game) ++
              [{ w.game with vars, field := { w.game.field with needRefresh := true } }], none) ∧
            ∀ id, (vars.get id).toInt =
              if id = c.param 0 then w.game.vars.limited (c.highest host.triggered)
              else if timeTarget c = some id then
                w.game.vars.limited (signed (before.length * 10 / max d.config.fps.toNat 1))
              else (w.game.vars.get id).toInt) := by
  refine ⟨fun hwait _ _ => captureKey_at_once hwait htarget, fun hwait =>
    ⟨fun _ _ => captureKey_waits hwait, fun seen hseen => ⟨?_, ?_⟩⟩⟩
  · intro hquiet
    have hwatch : c.capture.watch d (seen ++ []) =
        .ok (seen.map (·.2.game) ++ [], some (c.capture.after seen.length)) :=
      watch_of_idle hseen hquiet rfl
    rwa [List.append_nil, List.append_nil] at hwatch
  · rintro before host w rest rfl hbefore hquiet hhit
    have hn : before.length * 10 < UInt32.size := by
      rw [List.length_append] at hseen
      omega
    obtain ⟨hcaught, vars, hlook, hvars⟩ := look_after (d := d) (w := w) hn
      (fun h => hbefore (List.eq_nil_of_length_eq_zero h)) htarget htime hhit
    refine ⟨vars, ?_, hvars⟩
    apply watch_of_idle hn hquiet
    rw [KeyCapture.watch_of_caught hn hcaught, hlook]

/-- A command that waits for the decision key and for the time. -/
def stopwatch : Command where
  code := 11610
  params := [1, 1, 0, 1, 0, 0, 0, 2, 1, 0, 0, 0, 0, 0]

/-- At one tick a second, the stopwatch runs over after the largest number of tenths. -/
theorem stopwatch_runs_over :
    let d : Database := { config := { fps := 1 } }
    let w : World := { game := Game.begin d default }
    let idle : Host × World := ({}, w)
    let hit : Host × World := ({ triggered := [.cancel, .decision, .digit 3] }, w)
    (0 < (stopwatch.param 0).toInt ∧
      ∀ id, timeTarget stopwatch = some id → 0 < id.toInt ∧ id ≠ stopwatch.param 0) ∧
    stopwatch.flag 1 = true ∧
    (∃ games g, stopwatch.capture.watch d [hit, idle, idle, hit, idle] = .ok (games ++ [g], none) ∧
      games = [w.game, w.game, w.game] ∧ (g.vars.get 1).toInt = 5 ∧ (g.vars.get 2).toInt = 30) ∧
    ∃ games g, stopwatch.capture.watch d (List.replicate 214748365 idle ++ [hit]) =
        .ok (games ++ [g], none) ∧
      (g.vars.get 1).toInt = 5 ∧ (g.vars.get 2).toInt = -9999999 := by
  intro d w idle hit
  have htarget : 0 < (stopwatch.param 0).toInt := by decide
  have htime : ∀ id, timeTarget stopwatch = some id → 0 < id.toInt ∧ id ≠ stopwatch.param 0 := by
    intro id hid
    obtain rfl : 2 = id := Option.some.inj hid
    decide
  have hwait : stopwatch.flag 1 = true := by decide
  have hhit : hit.1.triggered.any stopwatch.asksFor = true := by decide
  have hidle : idle.1.triggered.any stopwatch.asksFor = false := by decide
  obtain ⟨-, hends⟩ := (captureKey_highest d (.idle .field 0 true) stopwatch htarget htime).2 hwait
  refine ⟨⟨htarget, htime⟩, hwait, ?_, ?_⟩
  · obtain ⟨vars, hwatch, hvars⟩ := (hends [hit, idle, idle, hit, idle] (by decide)).2
      [hit, idle, idle] hit.1 w [idle] rfl (List.cons_ne_nil _ _) (by decide) hhit
    refine ⟨_, _, hwatch, rfl, ?_, ?_⟩
    · rw [hvars 1]
      decide
    · rw [hvars 2]
      decide
  · generalize hbefore : List.replicate 214748365 idle = before
    have hlength : before.length = 214748365 := by
      rw [← hbefore, List.length_replicate]
    have hquiet : ∀ p ∈ before.tail, p.1.triggered.any stopwatch.asksFor = false := by
      intro p hp
      have hmem := List.mem_of_mem_tail hp
      rw [← hbefore] at hmem
      rw [List.eq_of_mem_replicate hmem]
      exact hidle
    have hlong : (before ++ [hit]).length * 10 < UInt32.size := by
      rw [List.length_append, hlength]
      decide
    have hne : before ≠ [] := by
      intro hnil
      rw [hnil] at hlength
      cases hlength
    obtain ⟨vars, hwatch, hvars⟩ := (hends (before ++ [hit]) hlong).2 before hit.1 w [] rfl hne
      hquiet hhit
    rw [hlength] at hvars
    refine ⟨_, _, hwatch, ?_, ?_⟩
    · rw [hvars 1]
      decide
    · rw [hvars 2]
      decide

end Commands

end EventScript
