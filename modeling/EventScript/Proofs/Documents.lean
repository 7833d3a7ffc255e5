import EventScript.Json.Parser
import EventScript.Json.Printer

/-!
# Written documents are read back

* Numbers: the digits of a number are read up to where they end, as that number.
* Texts: every character of a text is read back from the way in which it is escaped.
* `Json.Legible` are the values without an unreadable part, and `Json.Ends` says what may follow a
  value. `Legible.readBack`: a legible value is read back from what is written for it, and what
  follows is left.
* `parse_render`: a legible document is read back.
-/

namespace EventScript.Json

/-- What may follow a value: a comma, a closing bracket or nothing. -/
def Ends (rest : List Char) : Prop :=
  ∀ c ∈ rest.head?, c = ',' ∨ c = ']' ∨ c = '}'

variable {rest : List Char}

theorem ends_nil : Ends [] := nofun

theorem ends_comma : Ends (',' :: rest) := by
  simp [Ends]

theorem ends_bracket : Ends (']' :: rest) := by
  simp [Ends]

theorem ends_brace : Ends ('}' :: rest) := by
  simp [Ends]

theorem skipBlanks_of_not_blank {c : Char} (h : isBlank c = false) :
    skipBlanks (c :: rest) = c :: rest := by
  simp [skipBlanks, h]

/-! ## Numbers -/

theorem isDigit_iff {c : Char} : isDigit c = true ↔ c.isDigit = true := by
  simp [isDigit, Char.isDigit, Char.le_def]

theorem isDigit_of_mem_toDigits {n : Nat} {c : Char} (h : c ∈ Nat.toDigits 10 n) :
    isDigit c = true :=
  isDigit_iff.2 (Nat.isDigit_of_mem_toDigits (by decide) (by decide) h)

theorem spanDigits_append {ds : List Char} (hds : ∀ d ∈ ds, isDigit d = true)
    (hrest : ∀ c ∈ rest.head?, isDigit c = false) : spanDigits (ds ++ rest) = (ds, rest) := by
  induction ds with
  | nil =>
    cases rest with
    | nil => rfl
    | cons c r => simp [spanDigits, hrest c rfl]
  | cons d ds ih =>
    obtain ⟨hd, hds⟩ := List.forall_mem_cons.1 hds
    simp [spanDigits, hd, ih hds]

theorem ofDigits_toDigits (n : Nat) : ofDigits (Nat.toDigits 10 n) = n := by
  have h := @Nat.ofDigitChars_ten_toDigits n
  rw [Nat.ofDigitChars_eq_foldl] at h
  exact h

/-- Only zero is written with a leading zero. -/
theorem eq_nil_of_toDigits {n : Nat} {ds : List Char} (h : Nat.toDigits 10 n = '0' :: ds) :
    ds = [] := by
  induction n using Nat.strongRecOn generalizing ds with
  | ind n ih =>
    by_cases hn : n < 10
    · rw [Nat.toDigits_of_lt_base hn] at h
      exact (List.cons.inj h).2.symm
    · rw [Nat.toDigits_of_base_le (by decide) (by omega)] at h
      -- The digits before the last one begin with the same zero, so they are those of zero.
      cases hq : Nat.toDigits 10 (n / 10) with
      | nil => exact absurd hq Nat.toDigits_ne_nil
      | cons d ds' =>
        rw [hq, List.cons_append] at h
        obtain ⟨rfl, rfl⟩ := List.cons.inj h
        have hds' := ih (n / 10) (by omega) hq
        subst hds'
        have hzero : n / 10 = 0 := by
          rw [← ofDigits_toDigits (n / 10), hq]
          rfl
        omega

theorem not_digit_of_ends (h : Ends rest) : ∀ c ∈ rest.head?, isDigit c = false := by
  intro c hc
  rcases h c hc with rfl | rfl | rfl <;> decide

theorem fraction_of_ends (h : Ends rest) : fraction rest = some (false, rest) := by
  cases rest with
  | nil => rfl
  | cons c r => rcases h c rfl with rfl | rfl | rfl <;> rfl

theorem exponent_of_ends (h : Ends rest) : exponent rest = some (false, rest) := by
  cases rest with
  | nil => rfl
  | cons c r => rcases h c rfl with rfl | rfl | rfl <;> rfl

theorem unsigned_toDigits {negative : Bool} {n : Nat} (hn : negative = true → n ≠ 0)
    (h : Ends rest) :
    unsigned negative (Nat.toDigits 10 n ++ rest) =
      some (int (if negative then -(n : Int) else n), rest) := by
  have hspan : spanDigits (Nat.toDigits 10 n ++ rest) = (Nat.toDigits 10 n, rest) :=
    spanDigits_append (fun _ => isDigit_of_mem_toDigits) (not_digit_of_ends h)
  have hvalue := ofDigits_toDigits n
  unfold unsigned
  rw [hspan]
  cases hds : Nat.toDigits 10 n with
  | nil => exact absurd hds Nat.toDigits_ne_nil
  | cons d ds =>
    rw [hds] at hvalue
    have hzero : ¬ (d = '0' ∧ ds ≠ []) := by
      rintro ⟨rfl, hne⟩
      exact hne (eq_nil_of_toDigits hds)
    have hminus : ¬ (negative = true ∧ n = 0) := fun ⟨hneg, h0⟩ => hn hneg h0
    simp [hzero, hminus, fraction_of_ends h, exponent_of_ends h, hvalue]

/-- What an integer begins with. -/
theorem toDigits_eq_cons (n : Nat) :
    ∃ d ds, Nat.toDigits 10 n = d :: ds ∧ isDigit d = true := by
  cases h : Nat.toDigits 10 n with
  | nil => exact absurd h Nat.toDigits_ne_nil
  | cons d ds => exact ⟨d, ds, rfl, isDigit_of_mem_toDigits (h ▸ List.mem_cons_self)⟩

theorem number_writeInt (z : Int) (h : Ends rest) :
    number (writeInt z rest) = some (int z, rest) := by
  unfold writeInt
  by_cases hz : z < 0
  · rw [if_pos hz, number, unsigned_toDigits (by omega) h]
    simp only [if_true]
    rw [show -((z.natAbs : Nat) : Int) = z by omega]
  · rw [if_neg hz]
    have hnat : ((z.natAbs : Nat) : Int) = z := by omega
    have hunsigned : unsigned false (Nat.toDigits 10 z.natAbs ++ rest) = some (int z, rest) := by
      have hplus : false = true → z.natAbs ≠ 0 := nofun
      rw [unsigned_toDigits hplus h, if_neg (by decide), hnat]
    obtain ⟨d, ds, hds, hd⟩ := toDigits_eq_cons z.natAbs
    rw [hds] at hunsigned ⊢
    have hne : d ≠ '-' := by
      rintro rfl
      revert hd
      decide
    simp only [List.cons_append, number]
    split
    · next r heq => exact absurd (List.cons.inj heq).1 hne
    · exact hunsigned

/-! ## Texts -/

theorem hexValue_hexDigit {n : Nat} (h : n < 16) : hexValue (hexDigit n) = some n := by
  have hall : ∀ n : Fin 16, hexValue (hexDigit n) = some n.val := by decide
  exact hall ⟨n, h⟩

/-- Below the blank a character is the one that its two last hexadecimal digits write. -/
theorem hexCode_low {n : Nat} (h : n < 256) :
    hexCode '0' '0' (hexDigit (n / 16)) (hexDigit (n % 16)) = some n := by
  have hzero : hexValue '0' = some 0 := by decide
  have hhigh : hexValue (hexDigit (n / 16)) = some (n / 16) := hexValue_hexDigit (by omega)
  have hlow : hexValue (hexDigit (n % 16)) = some (n % 16) := hexValue_hexDigit (by omega)
  simp only [hexCode, hzero, hhigh, hlow, Option.bind_eq_bind, Option.bind_some, Option.some.injEq]
  omega

/-- A character that a backslash and a letter stand for. -/
theorem codes_letter {e c : Char} {s : List Char} (h : escapeValue e = some c) :
    codes ('\\' :: e :: s) = (codes s).map fun p => (c.toNat :: p.1, p.2) := by
  have hu : e ≠ 'u' := by
    rintro rfl
    cases h
  rw [codes]
  · rw [h]
    cases codes s <;> rfl
  · intro _ _ _ _ _ heq
    exact absurd heq hu

/-- An escaped character is read back as its code. -/
theorem codes_escape (c : Char) (s : List Char) :
    codes (escape c ++ s) = (codes s).map fun p => (c.toNat :: p.1, p.2) := by
  unfold escape
  split
  · next h =>
    subst h
    exact codes_letter rfl
  split
  · next h =>
    subst h
    exact codes_letter rfl
  split
  · next h =>
    subst h
    exact codes_letter rfl
  split
  · next h =>
    subst h
    exact codes_letter rfl
  split
  · next h =>
    subst h
    exact codes_letter rfl
  split
  · next h =>
    subst h
    exact codes_letter rfl
  split
  · next h =>
    subst h
    exact codes_letter rfl
  split
  · next h =>
    have hcode := hexCode_low (n := c.toNat) (by omega)
    simp only [List.cons_append, List.nil_append, codes, hcode]
    cases codes s <;> rfl
  · next hquote hslash _ _ _ _ _ hlow =>
    have hplain : ¬ (c.toNat < 32 ∨ c = '\\') := by
      rintro (h | h)
      · exact hlow h
      · exact hslash h
    rw [List.singleton_append, codes]
    · rw [if_neg (by simpa using hplain)]
      cases codes s <;> rfl
    · exact hquote
    · exact fun _ _ _ _ _ h => absurd h hslash
    · exact fun _ _ h => absurd h hslash

theorem codes_flatMap_escape (cs : List Char) :
    codes (cs.flatMap escape ++ '"' :: rest) = some (cs.map Char.toNat, rest) := by
  induction cs with
  | nil => rfl
  | cons c cs ih =>
    rw [List.flatMap_cons, List.append_assoc, codes_escape, ih]
    rfl

/-- No character is half of a pair. -/
theorem join_map_toNat (cs : List Char) : join (cs.map Char.toNat) = some cs := by
  induction cs with
  | nil => rfl
  | cons c cs ih =>
    have hvalid : c.toNat < 0xD800 ∨ 0xDFFF < c.toNat ∧ c.toNat < 0x110000 := c.valid
    have hhigh : isHigh c.toNat = false := by
      simp only [isHigh, Bool.and_eq_false_iff, decide_eq_false_iff_not]
      omega
    have hlow : isLow c.toNat = false := by
      simp only [isLow, Bool.and_eq_false_iff, decide_eq_false_iff_not]
      omega
    unfold join
    simp [hhigh, hlow, ih]

theorem quoted_writeText (s : String) :
    quoted (s.toList.flatMap escape ++ '"' :: rest) = some (some s, rest) := by
  simp [quoted, codes_flatMap_escape, join_map_toNat]

/-! ## Values -/

/-- A value without an unreadable part. -/
inductive Legible : Json → Prop
  | null : Legible null
  | bool (b : Bool) : Legible (bool b)
  | int (z : Int) : Legible (int z)
  | text (s : String) : Legible (text s)
  | arr {xs : List Json} (h : ∀ x ∈ xs, Legible x) : Legible (arr xs)
  | obj {ms : List (String × Json)} (h : ∀ m ∈ ms, Legible m.2) : Legible (obj ms)

/-- What a value begins with: no blank and no closing bracket. -/
def Opens (c : Char) : Prop := isBlank c = false ∧ c ≠ ']'

theorem opens_of_digit {c : Char} (h : isDigit c = true) : Opens c := by
  constructor
  · simp only [isBlank, Bool.or_eq_false_iff, decide_eq_false_iff_not]
    refine ⟨⟨⟨?_, ?_⟩, ?_⟩, ?_⟩ <;> rintro rfl <;> revert h <;> decide
  · rintro rfl
    revert h
    decide

theorem write_eq_cons (j : Json) (rest : List Char) : ∃ c r, write j rest = c :: r ∧ Opens c := by
  cases j with
  | null => exact ⟨_, _, rfl, by decide, by decide⟩
  | bool b => cases b <;> exact ⟨_, _, rfl, by decide, by decide⟩
  | int z =>
    unfold write writeInt
    split
    · exact ⟨_, _, rfl, by decide, by decide⟩
    · obtain ⟨d, ds, hds, hd⟩ := toDigits_eq_cons z.natAbs
      exact ⟨d, ds ++ rest, by rw [hds]; rfl, opens_of_digit hd⟩
  | text s => exact ⟨_, _, rfl, by decide, by decide⟩
  | arr xs => exact ⟨_, _, rfl, by decide, by decide⟩
  | obj ms => exact ⟨_, _, rfl, by decide, by decide⟩
  | unreadable => exact ⟨_, _, rfl, by decide, by decide⟩

theorem skipBlanks_write (j : Json) (rest : List Char) :
    skipBlanks (write j rest) = write j rest := by
  obtain ⟨c, r, h, hc⟩ := write_eq_cons j rest
  rw [h, skipBlanks_of_not_blank hc.1]

theorem writeText_append (s : String) (rest : List Char) :
    writeText s rest = writeText s [] ++ rest := by
  simp [writeText]

theorem writeInt_append (z : Int) (rest : List Char) : writeInt z rest = writeInt z [] ++ rest := by
  unfold writeInt
  split <;> simp

mutual

/-- What follows a value is no part of how the value is written. -/
theorem write_append : ∀ (j : Json) (rest : List Char), write j rest = write j [] ++ rest
  | null, _ => rfl
  | bool true, _ => rfl
  | bool false, _ => rfl
  | int z, rest => writeInt_append z rest
  | text s, rest => writeText_append s rest
  | arr xs, rest => by
    rw [write, write, writeItems_append xs (']' :: rest), writeItems_append xs [']']]
    simp
  | obj ms, rest => by
    rw [write, write, writeMembers_append ms ('}' :: rest), writeMembers_append ms ['}']]
    simp
  | unreadable, _ => rfl

theorem writeItems_append : ∀ (xs : List Json) (rest : List Char),
    writeItems xs rest = writeItems xs [] ++ rest
  | [], _ => rfl
  | [x], rest => write_append x rest
  | x :: y :: xs, rest => by
    show write x (',' :: writeItems (y :: xs) rest) =
      write x (',' :: writeItems (y :: xs) []) ++ rest
    rw [write_append x (',' :: writeItems (y :: xs) rest),
      write_append x (',' :: writeItems (y :: xs) []), writeItems_append (y :: xs) rest]
    simp

theorem writeMembers_append : ∀ (ms : List (String × Json)) (rest : List Char),
    writeMembers ms rest = writeMembers ms [] ++ rest
  | [], _ => rfl
  | [(k, x)], rest => by
    show writeText k (':' :: write x rest) = writeText k (':' :: write x []) ++ rest
    rw [writeText_append k (':' :: write x rest), writeText_append k (':' :: write x []),
      write_append x rest]
    simp
  | (k, x) :: m :: ms, rest => by
    show writeText k (':' :: write x (',' :: writeMembers (m :: ms) rest)) =
      writeText k (':' :: write x (',' :: writeMembers (m :: ms) [])) ++ rest
    rw [writeText_append k (':' :: write x (',' :: writeMembers (m :: ms) rest)),
      writeText_append k (':' :: write x (',' :: writeMembers (m :: ms) [])),
      write_append x (',' :: writeMembers (m :: ms) rest),
      write_append x (',' :: writeMembers (m :: ms) []), writeMembers_append (m :: ms) rest]
    simp

end

theorem length_write (j : Json) (rest : List Char) :
    (write j rest).length = (write j []).length + rest.length := by
  rw [write_append, List.length_append]

theorem length_write_pos (j : Json) : 0 < (write j []).length := by
  obtain ⟨c, r, h, -⟩ := write_eq_cons j []
  rw [h, List.length_cons]
  omega

/-! ### What the reader does with what is written -/

variable {n : Nat}

/-- Whether a value is read back wherever it stands, with as many calls as it has characters. -/
def ReadBack (j : Json) : Prop :=
  ∀ {n : Nat} {rest : List Char}, (write j []).length ≤ n → Ends rest →
    value n (write j rest) = some (j, rest)

theorem value_of_number {c : Char} {r : List Char} (h : c = '-' ∨ isDigit c = true) :
    value (n + 1) (c :: r) = number (c :: r) := by
  rw [value] <;>
  · intro _ heq
    obtain ⟨rfl, -⟩ := List.cons.inj heq
    revert h
    decide

theorem value_bracket {c : Char} {r : List Char} (h : Opens c) :
    value (n + 1) ('[' :: c :: r) = (elements n (c :: r)).map fun p => (arr p.1, p.2) := by
  rw [value, skipBlanks_of_not_blank h.1]
  split
  · next heq => exact absurd (List.cons.inj heq).1 h.2
  · cases elements n (c :: r) <;> rfl

theorem value_brace {r : List Char} :
    value (n + 1) ('{' :: '"' :: r) = (members n ('"' :: r)).map fun p => (ofMembers p.1, p.2) := by
  rw [value, skipBlanks_of_not_blank (by decide)]
  cases h : members n ('"' :: r) with
  | none => simp [h]
  | some p => simp [h]

theorem readBack_int (z : Int) : ReadBack (int z) := by
  intro n rest hn hrest
  have hpos : 0 < (write (int z) []).length := length_write_pos _
  obtain ⟨m, rfl⟩ : ∃ m, n = m + 1 := ⟨n - 1, by omega⟩
  have hnumber := number_writeInt z hrest
  have hhead : ∃ c r, writeInt z rest = c :: r ∧ (c = '-' ∨ isDigit c = true) := by
    unfold writeInt
    split
    · exact ⟨_, _, rfl, .inl rfl⟩
    · obtain ⟨d, ds, hds, hd⟩ := toDigits_eq_cons z.natAbs
      exact ⟨d, ds ++ rest, by rw [hds]; rfl, .inr hd⟩
  obtain ⟨c, r, heq, hc⟩ := hhead
  rw [write, heq, value_of_number hc, ← heq, hnumber]

theorem readBack_text (s : String) : ReadBack (text s) := by
  intro n rest hn _
  have hpos : 0 < (write (text s) []).length := length_write_pos _
  obtain ⟨m, rfl⟩ : ∃ m, n = m + 1 := ⟨n - 1, by omega⟩
  rw [write, writeText, value, quoted_writeText]
  rfl

/-- The items of an array are read back, each from what stands before the next comma. -/
theorem elements_writeItems {xs : List Json} (hxs : xs ≠ []) (h : ∀ x ∈ xs, ReadBack x)
    (hn : (writeItems xs []).length < n) :
    elements n (writeItems xs (']' :: rest)) = some (xs, rest) := by
  induction xs generalizing n with
  | nil => exact absurd rfl hxs
  | cons x xs ih =>
    obtain ⟨m, rfl⟩ : ∃ m, n = m + 1 := ⟨n - 1, by omega⟩
    obtain ⟨hx, hxs⟩ := List.forall_mem_cons.1 h
    cases xs with
    | nil =>
      have hread : value m (write x (']' :: rest)) = some (x, ']' :: rest) :=
        hx (Nat.lt_succ_iff.1 hn) ends_bracket
      rw [writeItems, elements, skipBlanks_write, hread]
      rfl
    | cons y xs =>
      have hlength : (writeItems (x :: y :: xs) []).length =
          (write x []).length + 1 + (writeItems (y :: xs) []).length := by
        show (write x (',' :: writeItems (y :: xs) [])).length = _
        rw [length_write, List.length_cons]
        omega
      have hread : value m (write x (',' :: writeItems (y :: xs) (']' :: rest))) =
          some (x, ',' :: writeItems (y :: xs) (']' :: rest)) := hx (by omega) ends_comma
      have hrest := ih nofun hxs (n := m) (by omega)
      show elements (m + 1) (write x (',' :: writeItems (y :: xs) (']' :: rest))) = _
      rw [elements, skipBlanks_write, hread]
      simp only [Option.bind_eq_bind, Option.bind_some]
      rw [skipBlanks_of_not_blank (by decide)]
      simp only [hrest, Option.bind_some]

/-- The last member of an object. -/
theorem members_last {key : String} {x : Json}
    (hx : value n (write x ('}' :: rest)) = some (x, '}' :: rest)) :
    members (n + 1) (writeText key (':' :: write x ('}' :: rest))) =
      some ([(some key, x)], rest) := by
  rw [writeText, members, skipBlanks_of_not_blank (by decide)]
  simp only [quoted_writeText, Option.bind_eq_bind, Option.bind_some]
  rw [skipBlanks_of_not_blank (by decide)]
  simp only [skipBlanks_write, hx, Option.bind_some]
  rfl

/-- A member before others. -/
theorem members_before {key : String} {x : Json} {r : List Char} {ms : List (Option String × Json)}
    (hx : value n (write x (',' :: r)) = some (x, ',' :: r)) (hms : members n r = some (ms, rest)) :
    members (n + 1) (writeText key (':' :: write x (',' :: r))) =
      some ((some key, x) :: ms, rest) := by
  rw [writeText, members, skipBlanks_of_not_blank (by decide)]
  simp only [quoted_writeText, Option.bind_eq_bind, Option.bind_some]
  rw [skipBlanks_of_not_blank (by decide)]
  simp only [skipBlanks_write, hx, Option.bind_some]
  rw [skipBlanks_of_not_blank (by decide)]
  simp only [hms, Option.bind_some]

/-- The members of an object are read back, each from what stands before the next comma. -/
theorem members_writeMembers {ms : List (String × Json)} (hms : ms ≠ [])
    (h : ∀ m ∈ ms, ReadBack m.2) (hn : (writeMembers ms []).length < n) :
    members n (writeMembers ms ('}' :: rest)) =
      some (ms.map fun m => (some m.1, m.2), rest) := by
  induction ms generalizing n with
  | nil => exact absurd rfl hms
  | cons m ms ih =>
    obtain ⟨i, rfl⟩ : ∃ i, n = i + 1 := ⟨n - 1, by omega⟩
    obtain ⟨key, x⟩ := m
    obtain ⟨hx, hms⟩ := List.forall_mem_cons.1 h
    replace hx : ReadBack x := hx
    cases ms with
    | nil =>
      have hlength : (writeMembers [(key, x)] []).length =
          (writeText key []).length + 1 + (write x []).length := by
        show (writeText key (':' :: write x [])).length = _
        rw [writeText_append, List.length_append, List.length_cons]
        omega
      exact members_last (hx (by omega) ends_brace)
    | cons m ms =>
      have hlength : (writeMembers ((key, x) :: m :: ms) []).length =
          (writeText key []).length + 2 + (write x []).length +
            (writeMembers (m :: ms) []).length := by
        show (writeText key (':' :: write x (',' :: writeMembers (m :: ms) []))).length = _
        rw [writeText_append, List.length_append, List.length_cons, length_write,
          List.length_cons]
        omega
      have hrest := ih nofun hms (n := i) (by omega)
      exact members_before (hx (by omega) ends_comma) hrest

theorem ofMembers_of_texts (ms : List (String × Json)) :
    ofMembers (ms.map fun m => (some m.1, m.2)) = obj ms := by
  have h : (ms.map fun m => (some m.1, m.2)).mapM
      (fun m : Option String × Json => m.1.map (·, m.2)) = some ms := by
    induction ms with
    | nil => rfl
    | cons m ms ih =>
      rw [List.map_cons, List.mapM_cons, ih]
      rfl
  rw [ofMembers, h]

/-- A legible value is read back, and what follows it is left. -/
theorem Legible.readBack {j : Json} (h : Legible j) : ReadBack j := by
  induction h with
  | null =>
    intro n rest hn _
    obtain ⟨m, rfl⟩ : ∃ m, n = m + 1 := ⟨n - 1, by simp [write] at hn; omega⟩
    rfl
  | bool b =>
    intro n rest hn _
    have hpos := length_write_pos (Json.bool b)
    obtain ⟨m, rfl⟩ : ∃ m, n = m + 1 := ⟨n - 1, by omega⟩
    cases b <;> rfl
  | int z => exact readBack_int z
  | text s => exact readBack_text s
  | @arr xs _ ih =>
    intro n rest hn _
    have hpos := length_write_pos (Json.arr xs)
    obtain ⟨m, rfl⟩ : ∃ m, n = m + 1 := ⟨n - 1, by omega⟩
    cases xs with
    | nil => rfl
    | cons x xs =>
      have hlength : (writeItems (x :: xs) []).length < m := by
        rw [write, writeItems_append] at hn
        simp only [List.length_cons, List.length_append, List.length_nil] at hn
        omega
      have hitems : elements m (writeItems (x :: xs) (']' :: rest)) = some (x :: xs, rest) :=
        elements_writeItems nofun ih hlength
      have hopens : ∃ c r, writeItems (x :: xs) (']' :: rest) = c :: r ∧ Opens c := by
        cases xs with
        | nil => exact write_eq_cons x _
        | cons y xs => exact write_eq_cons x _
      obtain ⟨c, r, heq, hc⟩ := hopens
      rw [write, heq, value_bracket hc, ← heq, hitems]
      rfl
  | @obj ms _ ih =>
    intro n rest hn _
    have hpos := length_write_pos (Json.obj ms)
    obtain ⟨i, rfl⟩ : ∃ i, n = i + 1 := ⟨n - 1, by omega⟩
    cases ms with
    | nil => rfl
    | cons m ms =>
      have hlength : (writeMembers (m :: ms) []).length < i := by
        rw [write, writeMembers_append] at hn
        simp only [List.length_cons, List.length_append, List.length_nil] at hn
        omega
      have hmembers : members i (writeMembers (m :: ms) ('}' :: rest)) =
          some ((m :: ms).map fun m => (some m.1, m.2), rest) :=
        members_writeMembers nofun ih hlength
      have hquote : ∃ r, writeMembers (m :: ms) ('}' :: rest) = '"' :: r := by
        cases ms with
        | nil => exact ⟨_, rfl⟩
        | cons m' ms => exact ⟨_, rfl⟩
      obtain ⟨r, heq⟩ := hquote
      rw [write, heq, value_brace, ← heq, hmembers, Option.map_some, ofMembers_of_texts]

/-- A legible document is read back. -/
theorem parse_render {j : Json} (h : Legible j) : parse (render j) = some j := by
  have hread : value (2 * (write j []).length + 2) (write j []) = some (j, []) :=
    h.readBack (by omega) ends_nil
  simp only [parse, render, String.toList_ofList, skipBlanks_write, hread]
  rfl

end EventScript.Json
