import EventScript.Game.Route
import Mathlib.Algebra.Group.Nat.Defs
import Mathlib.Data.List.Forall2

/-!
# Stored routes

A route is stored as a row of numbers without anything between its parts, so that every part has to
tell by itself where it ends.

* `StoresInt`, `StoresText` and `StoresStep` say what the stored forms of an integer, a text and a
  step are. An integer may have more groups than it needs, so it may have several stored forms.
* `StoresInt.readInt`, `StoresText.readText` and `StoresStep.readOperands`: reading gives the part
  and leaves whatever follows its stored form.
* `decode_storedAs`: `Route.encode` gives a stored form, and `Route.decode` gives the route back
  from any of them.
-/

namespace EventScript

/-- Nothing is in a step that is not stored: it has no operands but those of its code, and its text
is no longer than a stored length can tell. -/
def RouteStep.IsStorable (m : RouteStep) : Prop :=
  match m.code.toInt with
  | 32 | 33 => m.text = "" ∧ m.b = 0 ∧ m.c = 0
  | 34 => m.text.length < 2147483648 ∧ m.b = 0 ∧ m.c = 0
  | 35 => m.text.length < 2147483648
  | _ => m.text = "" ∧ m.a = 0 ∧ m.b = 0 ∧ m.c = 0

namespace Route

/-! ## Stored forms -/

/-- The integer that groups of seven bits stand for, the highest group first. -/
def ofGroups (gs : List Nat) : Nat := gs.foldl (fun n g => n * 128 + g) 0

/-- A group that others follow. -/
def marked (g : Nat) : Number := Int32.ofNat (0x80 + g)

/-- From one to five groups of seven bits that stand for the bits of an integer. All groups but the
last are marked. -/
def StoresInt (x : Number) (s : List Number) : Prop :=
  ∃ (gs : List Nat) (last : Nat), gs.length ≤ 4 ∧ (∀ g ∈ gs, g < 128) ∧ last < 128 ∧
    ofGroups (gs ++ [last]) = x.toUInt32.toNat ∧ s = gs.map marked ++ [Int32.ofNat last]

/-- The number of characters, then one number for each of them. -/
def StoresText (t : String) (s : List Number) : Prop :=
  ∃ n, StoresInt (Int32.ofNat t.length) n ∧ s = n ++ t.toList.map fun c => Int32.ofNat c.toNat

/-- The operands of a step, as far as steps with its code have them. -/
def StoresOperands (m : RouteStep) (s : List Number) : Prop :=
  match m.code.toInt with
  | 32 | 33 => StoresInt m.a s
  | 34 => ∃ t a, StoresText m.text t ∧ StoresInt m.a a ∧ s = t ++ a
  | 35 => ∃ t a b c, StoresText m.text t ∧ StoresInt m.a a ∧ StoresInt m.b b ∧ StoresInt m.c c ∧
      s = t ++ a ++ b ++ c
  | _ => s = []

/-- The code of a step, then its operands. -/
def StoresStep (m : RouteStep) (s : List Number) : Prop :=
  ∃ operands, StoresOperands m operands ∧ s = m.code :: operands

/-- The stored forms of the steps of a route, one after another. -/
def StoredAs (r : Route) (s : List Number) : Prop :=
  ∃ parts, List.Forall₂ StoresStep r.commands parts ∧ s = parts.flatten

/-! ## Groups of bits -/

theorem shiftLeft_or (n : Nat) {g : Nat} (hg : g < 128) :
    UInt32.ofNat n <<< 7 ||| UInt32.ofNat g = UInt32.ofNat (n * 128 + g) := by
  apply UInt32.toNat_inj.1
  have hor := Nat.two_pow_add_eq_or_of_lt (i := 7) hg (n % 2 ^ 25)
  rw [UInt32.toNat_or, UInt32.toNat_shiftLeft, UInt32.toNat_ofNat', UInt32.toNat_ofNat',
    UInt32.toNat_ofNat', Nat.mod_eq_of_lt (show g < 2 ^ 32 by omega)]
  change (n % 2 ^ 32) <<< 7 % 2 ^ 32 ||| g = (n * 128 + g) % 2 ^ 32
  rw [Nat.shiftLeft_eq, show n % 2 ^ 32 * 2 ^ 7 % 2 ^ 32 = 2 ^ 7 * (n % 2 ^ 25) by omega, ← hor]
  omega

theorem bits_marked {g : Nat} (hg : g < 128) :
    (marked g).toUInt32 &&& 0x7F = UInt32.ofNat g ∧ (marked g).toUInt32 &&& 0x80 ≠ 0 := by
  have h : ∀ g : Fin 128, (marked g).toUInt32 &&& 0x7F = UInt32.ofNat g ∧
      (marked g).toUInt32 &&& 0x80 ≠ 0 := by decide +kernel
  exact h ⟨g, hg⟩

theorem bits_last {g : Nat} (hg : g < 128) :
    (Int32.ofNat g).toUInt32 &&& 0x7F = UInt32.ofNat g ∧
      (Int32.ofNat g).toUInt32 &&& 0x80 = 0 := by
  have h : ∀ g : Fin 128, (Int32.ofNat g).toUInt32 &&& 0x7F = UInt32.ofNat g ∧
      (Int32.ofNat g).toUInt32 &&& 0x80 = 0 := by decide +kernel
  exact h ⟨g, hg⟩

/-- Groups are read onto those before them, up to the first that is not marked. -/
theorem readGroups_append (n : Nat) {gs : List Nat} {last : Nat} (rest : List Number)
    (hgs : ∀ g ∈ gs, g < 128) (hlast : last < 128) :
    readGroups (UInt32.ofNat n) (gs.map marked ++ Int32.ofNat last :: rest) =
      (UInt32.ofNat ((gs ++ [last]).foldl (fun n g => n * 128 + g) n), rest) := by
  induction gs generalizing n with
  | nil =>
    obtain ⟨hbits, hend⟩ := bits_last hlast
    simp only [List.map_nil, List.nil_append, readGroups, hbits, hend, if_pos, shiftLeft_or n hlast,
      List.foldl_cons, List.foldl_nil]
  | cons g gs ih =>
    obtain ⟨hbits, hmark⟩ := bits_marked (hgs g List.mem_cons_self)
    have hg : g < 128 := hgs g List.mem_cons_self
    simp only [List.map_cons, List.cons_append, readGroups, hbits, if_neg hmark, shiftLeft_or n hg,
      List.foldl_cons]
    exact ih (n * 128 + g) fun h hh => hgs h (List.mem_cons_of_mem g hh)

theorem StoresInt.readInt {x : Number} {s : List Number} (h : StoresInt x s) (rest : List Number) :
    readInt (s ++ rest) = (x, rest) := by
  obtain ⟨gs, last, -, hgs, hlast, hx, rfl⟩ := h
  have hread := readGroups_append 0 rest hgs hlast
  change readGroups 0 _ = (UInt32.ofNat (ofGroups (gs ++ [last])), rest) at hread
  rw [hx, UInt32.ofNat_toNat] at hread
  rw [Route.readInt, List.append_assoc, List.singleton_append, hread, Int32.toInt32_toUInt32]

/-! ## Texts -/

theorem character?_ofNat (c : Char) : character? (Int32.ofNat c.toNat) = some c := by
  have hvalid : c.toNat < 0xD800 ∨ 0xDFFF < c.toNat ∧ c.toNat < 0x110000 := c.valid
  have hint : (Int32.ofNat c.toNat).toInt = c.toNat := Int32.toInt_ofNat_of_lt (by omega)
  unfold character?
  dsimp only
  rw [hint, if_pos (by omega), Int.toNat_natCast, Char.ofNat_toNat]

theorem filterMap_character? (l : List Char) :
    (l.map fun c => Int32.ofNat c.toNat).filterMap character? = l := by
  rw [List.filterMap_map]
  exact (List.filterMap_congr fun c _ => character?_ofNat c).trans List.filterMap_some

theorem StoresText.readText {t : String} {s : List Number} (h : StoresText t s)
    (ht : t.length < 2147483648) (rest : List Number) : readText (s ++ rest) = (t, rest) := by
  obtain ⟨n, hn, rfl⟩ := h
  have hlength : (Int32.ofNat t.length).toInt.toNat =
      (t.toList.map fun c => Int32.ofNat c.toNat).length := by
    rw [Int32.toInt_ofNat_of_lt ht, Int.toNat_natCast, List.length_map, String.length_toList]
  unfold Route.readText
  rw [List.append_assoc, hn.readInt]
  dsimp only
  rw [hlength, List.take_left, List.drop_left, filterMap_character?, String.ofList_toList]

/-! ## Steps -/

/-- The operands are read as they were stored, and what follows them is left. -/
theorem StoresOperands.readOperands {m : RouteStep} {s : List Number} (h : StoresOperands m s)
    (hm : m.IsStorable) (rest : List Number) : readOperands m.code (s ++ rest) = (m, rest) := by
  obtain ⟨code, text, a, b, c⟩ := m
  unfold StoresOperands at h
  unfold RouteStep.IsStorable at hm
  unfold Route.readOperands
  dsimp only at h hm ⊢
  generalize code.toInt = n at h hm ⊢
  split at h
  · obtain ⟨rfl, rfl, rfl⟩ := hm
    simp only [h.readInt]
  · obtain ⟨rfl, rfl, rfl⟩ := hm
    simp only [h.readInt]
  · obtain ⟨t, p, ht, hp, rfl⟩ := h
    obtain ⟨hlength, rfl, rfl⟩ := hm
    simp only [List.append_assoc, ht.readText hlength, hp.readInt]
  · obtain ⟨t, p, q, r, ht, hp, hq, hr, rfl⟩ := h
    simp only [List.append_assoc, ht.readText hm, hp.readInt, hq.readInt, hr.readInt]
  · next h32 h33 h34 h35 =>
    simp only at hm ⊢
    obtain ⟨rfl, rfl, rfl, rfl⟩ := hm
    rw [h, List.nil_append]

theorem readCommands_flatten {ms : List RouteStep} {parts : List (List Number)}
    (h : List.Forall₂ StoresStep ms parts) (hms : ∀ m ∈ ms, m.IsStorable) :
    readCommands parts.flatten = ms := by
  induction h with
  | nil => rw [List.flatten_nil, readCommands]
  | @cons m s ms parts hm _ ih =>
    obtain ⟨operands, hoperands, rfl⟩ := hm
    have hstep := hoperands.readOperands (hms m List.mem_cons_self) parts.flatten
    rw [List.flatten_cons, List.cons_append, readCommands, hstep,
      ih fun k hk => hms k (List.mem_cons_of_mem m hk)]

/-! ## Writing -/

theorem toNat_shiftRight_seven (v : UInt32) : (v >>> 7).toNat = v.toNat / 128 := by
  rw [UInt32.toNat_shiftRight]
  exact Nat.shiftRight_eq_div_pow v.toNat 7

theorem and_eq_mod (v : UInt32) : v &&& 0x7F = UInt32.ofNat (v.toNat % 128) := by
  apply UInt32.toNat_inj.1
  rw [UInt32.toNat_and, UInt32.toNat_ofNat', Nat.mod_eq_of_lt (by omega)]
  exact Nat.and_two_pow_sub_one_eq_mod v.toNat 7

theorem or_mark {g : Nat} (hg : g < 128) :
    (UInt32.ofNat g ||| 0).toInt32 = Int32.ofNat g ∧
      (UInt32.ofNat g ||| 0x80).toInt32 = marked g := by
  have h : ∀ g : Fin 128, (UInt32.ofNat g ||| 0).toInt32 = Int32.ofNat g ∧
      (UInt32.ofNat g ||| 0x80).toInt32 = marked g := by decide +kernel
  exact h ⟨g, hg⟩

/-- The lowest group is the remainder, and the higher ones are those of the quotient. -/
theorem groups_succ (n : Nat) (v mark : UInt32) :
    groups (n + 1) v mark =
      (if v.toNat < 128 then [] else groups n (v >>> 7) 0x80) ++
        [(UInt32.ofNat (v.toNat % 128) ||| mark).toInt32] := by
  have hzero : v >>> 7 = 0 ↔ v.toNat < 128 := by
    rw [← UInt32.toNat_inj, toNat_shiftRight_seven]
    change v.toNat / 128 = 0 ↔ v.toNat < 128
    omega
  rw [groups, and_eq_mod]
  by_cases h : v.toNat < 128
  · rw [if_pos (hzero.2 h), if_pos h, List.nil_append]
  · rw [if_neg (mt hzero.1 h), if_neg h]

theorem ofGroups_append (gs : List Nat) (g : Nat) :
    ofGroups (gs ++ [g]) = ofGroups gs * 128 + g := by
  rw [ofGroups, List.foldl_append]
  rfl

/-- The groups above the lowest one stand for the quotient, and all of them are marked. -/
theorem exists_higher (n : Nat) (v : UInt32) (hv : v.toNat < 128 ^ (n + 1)) :
    ∃ gs : List Nat, gs.length ≤ n ∧ (∀ g ∈ gs, g < 128) ∧ ofGroups gs = v.toNat / 128 ∧
      (if v.toNat < 128 then [] else groups n (v >>> 7) 0x80) = gs.map marked := by
  induction n generalizing v with
  | zero => exact ⟨[], Nat.le_refl 0, by simp, (Nat.div_eq_of_lt hv).symm, if_pos hv⟩
  | succ n ih =>
    by_cases hsmall : v.toNat < 128
    · exact ⟨[], Nat.zero_le _, by simp, (Nat.div_eq_of_lt hsmall).symm, if_pos hsmall⟩
    · have hquotient := toNat_shiftRight_seven v
      have hbound : (v >>> 7).toNat < 128 ^ (n + 1) := by
        rw [hquotient, Nat.div_lt_iff_lt_mul (by omega)]
        exact hv
      obtain ⟨gs, hlength, hgs, hvalue, hgroups⟩ := ih (v >>> 7) hbound
      have hlow : (v >>> 7).toNat % 128 < 128 := Nat.mod_lt _ (by omega)
      refine ⟨gs ++ [(v >>> 7).toNat % 128], ?_, ?_, ?_, ?_⟩
      · rw [List.length_append, List.length_singleton]
        omega
      · intro g hg
        rcases List.mem_append.1 hg with hg | hg
        · exact hgs g hg
        · rw [List.mem_singleton.1 hg]
          exact hlow
      · rw [ofGroups_append, hvalue]
        omega
      · rw [if_neg hsmall, groups_succ, hgroups, (or_mark hlow).2, List.map_append]
        rfl

theorem storesInt_writeInt (x : Number) : StoresInt x (writeInt x) := by
  have hlow : x.toUInt32.toNat % 128 < 128 := Nat.mod_lt _ (by omega)
  have hx : x.toUInt32.toNat < 128 ^ (4 + 1) := Nat.lt_trans x.toUInt32.toNat_lt (by decide)
  obtain ⟨gs, hlength, hgs, hvalue, hgroups⟩ := exists_higher 4 x.toUInt32 hx
  refine ⟨gs, x.toUInt32.toNat % 128, hlength, hgs, hlow, ?_, ?_⟩
  · rw [ofGroups_append, hvalue]
    omega
  · rw [writeInt, groups_succ, hgroups, (or_mark hlow).1]

theorem storesText_writeText (t : String) : StoresText t (writeText t) :=
  ⟨writeInt (Int32.ofNat t.length), storesInt_writeInt _, rfl⟩

theorem storesStep_writeCommand (m : RouteStep) : StoresStep m (writeCommand m) := by
  refine ⟨_, ?_, rfl⟩
  unfold StoresOperands
  generalize m.code.toInt = n
  split
  · exact storesInt_writeInt m.a
  · exact storesInt_writeInt m.a
  · exact ⟨_, _, storesText_writeText m.text, storesInt_writeInt m.a, rfl⟩
  · exact ⟨_, _, _, _, storesText_writeText m.text, storesInt_writeInt m.a, storesInt_writeInt m.b,
      storesInt_writeInt m.c, rfl⟩
  · simp only

theorem storedAs_encode (r : Route) : r.StoredAs r.encode := by
  refine ⟨r.commands.map writeCommand, ?_, ?_⟩
  · rw [List.forall₂_map_right_iff]
    apply List.forall₂_same.2
    intro m _
    exact storesStep_writeCommand m
  · rw [encode, List.flatMap_def]

/-- Writing stores a route, and whatever stores a route is read as that route. -/
theorem decode_storedAs (r : Route) (h : ∀ m ∈ r.commands, m.IsStorable) :
    r.StoredAs r.encode ∧ ∀ s, r.StoredAs s → decode s r.repeats r.skippable = r := by
  refine ⟨storedAs_encode r, ?_⟩
  rintro _ ⟨parts, hparts, rfl⟩
  rw [decode, readCommands_flatten hparts h]

/-- Negative operands, operands of five groups, no text, text beyond ASCII, and a code that nothing
is known of. -/
def winding : Route where
  commands := [{ code := 32, a := -1 }, { code := 34, a := 2147483647 }, { code := -7 },
    { code := 35, text := "é😀", a := -2147483648, b := 127, c := 128 }, { code := 33 }]
  skippable := true

theorem winding_restored : (∀ m ∈ winding.commands, m.IsStorable) ∧
    decode winding.encode false true = winding := by
  have hstorable : ∀ m ∈ winding.commands, m.IsStorable := by
    have hlength : "é😀".length = 2 := rfl
    simp [winding, RouteStep.IsStorable, hlength]
  obtain ⟨hstored, hread⟩ := decode_storedAs winding hstorable
  exact ⟨hstorable, hread _ hstored⟩

end Route

end EventScript
