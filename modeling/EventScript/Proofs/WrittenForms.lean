import EventScript.Database.Validation
import EventScript.Proofs.Documents

/-!
# Written databases are read back

* `JsonForm.Lawful` are the forms that read back what they write, in documents that can be read.
  It passes from the items of a list, a fixed list or an optional value to the whole.
* `read_record`: a record written as an object gives all its fields to its reader. Every kind of
  record is lawful because its fields are and its reader asks for each under its own name.
* `Database.ofText_render`: the text that is written for an accepted database is read as it.
-/

namespace EventScript

namespace JsonForm

/-- A form that reads back what it writes, in a document that can be read. -/
class Lawful (α : Type) [JsonForm α] : Prop where
  read_write : ∀ a : α, read? (write a) = some a
  legible : ∀ a : α, (write a).Legible

/-- A form in which nothing is written as no value. -/
class NeverNull (α : Type) [JsonForm α] : Prop where
  write_ne_null : ∀ a : α, write a ≠ .null

attribute [simp] Lawful.read_write Lawful.legible

/-! ## Plain values -/

instance : Lawful Bool where
  read_write _ := rfl
  legible b := .bool b

instance : Lawful String where
  read_write _ := rfl
  legible s := .text s

instance {α : Type} [FixedWidth α] : Lawful α where
  read_write a := FixedWidth.ofInt?_toInt a
  legible a := .int (FixedWidth.toInt a)

instance {α : Type} [FixedWidth α] : NeverNull α where
  write_ne_null _ := nofun

variable {α : Type} [JsonForm α] [Lawful α]

instance [NeverNull α] : Lawful (Option α) where
  read_write
    | none => rfl
    | some a => by
      have hread : read? (write a) = some a := Lawful.read_write a
      have hnull : write a ≠ .null := NeverNull.write_ne_null a
      show read? (α := Option α) (write a) = some (some a)
      cases h : write a with
      | null => exact absurd h hnull
      | _ =>
        rw [h] at hread
        exact congrArg (Option.map some) hread
  legible
    | none => .null
    | some a => Lawful.legible a

theorem mapM_read_map_write (l : List α) : (l.map write).mapM (read? (α := α)) = some l := by
  induction l with
  | nil => rfl
  | cons a l ih => simp [ih]

theorem legible_map_write (l : List α) : Json.Legible (.arr (l.map write)) := by
  refine .arr fun x hx => ?_
  obtain ⟨a, -, rfl⟩ := List.mem_map.1 hx
  exact Lawful.legible a

instance : Lawful (List α) where
  read_write := mapM_read_map_write
  legible := legible_map_write

instance {n : Nat} : Lawful (Vector α n) where
  read_write v := by
    show ((v.toList.map write).mapM (read? (α := α))).bind _ = some v
    rw [mapM_read_map_write, Option.bind_some, dif_pos v.length_toList]
    exact congrArg some (Vector.toArray_inj.1 v.toArray_toList)
  legible v := legible_map_write v.toList

/-! ## Records -/

section Records

variable {β : Type} {names given : List String} {values : List Json}

/-- An object gives the fields that it names, each once. -/
theorem fields?_record (hgiven : ∀ name ∈ given, name ∈ names) (hnodup : given.Nodup)
    (hlength : values.length = given.length) :
    fields? names (record given values) = some (given.zip values) := by
  have hfst : (given.zip values).map Prod.fst = given := List.map_fst_zip (by omega)
  have hknown : (given.zip values).filter (fun m => names.contains m.1) = given.zip values := by
    rw [List.filter_eq_self]
    intro m hm
    have hmem : m.1 ∈ names := hgiven m.1 (List.of_mem_zip hm).1
    simpa using hmem
  show (if _ then _ else _) = _
  rw [hknown, hfst, if_pos hnodup]

/-- A record written as an object gives all its fields to its reader. -/
theorem read_record (hnodup : names.Nodup) (hlength : values.length = names.length)
    {f : Fields → Option β} :
    (fields? names (record names values)).bind f = f (names.zip values) := by
  rw [fields?_record (fun _ => id) hnodup hlength, Option.bind_some]

theorem legible_record (h : ∀ v ∈ values, v.Legible) : (record names values).Legible :=
  .obj fun _ hm => h _ (List.of_mem_zip hm).2

end Records

variable {fs : Fields} {name : String}

omit [Lawful α] in
@[simp]
theorem Fields.get_nil (d : α) : Fields.get [] name d = some d := rfl

@[simp]
theorem Fields.get_cons_self (a d : α) : Fields.get ((name, write a) :: fs) name d = some a := by
  simp [Fields.get]

omit [Lawful α] in
@[simp]
theorem Fields.get_cons_of_ne {other : String} {j : Json} (h : name ≠ other) (d : α) :
    Fields.get ((other, j) :: fs) name d = fs.get name d := by
  have hne : (name == other) = false := by simpa using h
  simp [Fields.get, List.lookup_cons, hne]

end JsonForm

open JsonForm

instance : Lawful Trigger where
  read_write t := by cases t <;> rfl
  legible t := .text t.name

instance : Lawful ItemKind where
  read_write k := by cases k <;> rfl
  legible k := .text k.name

/-! ## Conditions -/

instance : Lawful VariableCondition where
  read_write c := by simp [read?, write, FixedWidth.ofInt?_toInt]
  legible c := .arr (by simp)

instance : NeverNull VariableCondition where
  write_ne_null _ := nofun

instance : Lawful TurnCondition where
  read_write c := by simp [read?, write, FixedWidth.ofInt?_toInt]
  legible c := .arr (by simp)

instance : NeverNull TurnCondition where
  write_ne_null _ := nofun

instance : Lawful EnemyCondition where
  read_write c := by simp [read?, write, FixedWidth.ofInt?_toInt]
  legible c := .arr (by simp)

instance : NeverNull EnemyCondition where
  write_ne_null _ := nofun

instance : Lawful ActorCondition where
  read_write c := by simp [read?, write, FixedWidth.ofInt?_toInt]
  legible c := .arr (by simp)

instance : NeverNull ActorCondition where
  write_ne_null _ := nofun

/-! ## Commands -/

/-- A command without a text is written without one. -/
theorem Command.write_of_empty {c : Command} (h : c.text = "") :
    write c =
      record ["code", "indent", "params"] [write c.code, write c.indent, write c.params] := by
  show Json.obj (_ ++ (if c.text = "" then _ else _) ++ _) = _
  rw [if_pos h]
  rfl

example : Json.render (write ({ code := 10220, params := [0, -5] } : Command)) =
    "\x7b\"code\":10220,\"indent\":0,\"params\":[0,-5]\x7d" := by decide

theorem Command.write_of_text {c : Command} (h : c.text ≠ "") :
    write c = record Command.fieldNames
      [write c.code, write c.indent, write c.text, write c.params] := by
  show Json.obj (_ ++ (if c.text = "" then _ else _) ++ _) = _
  rw [if_neg h]
  rfl

instance : Lawful Command where
  read_write c := by
    by_cases h : c.text = ""
    · have hfields : fields? Command.fieldNames (record ["code", "indent", "params"]
          [write c.code, write c.indent, write c.params]) = some [("code", write c.code),
            ("indent", write c.indent), ("params", write c.params)] :=
        fields?_record (by decide) (by decide) rfl
      rw [Command.write_of_empty h]
      show (fields? Command.fieldNames _).bind _ = _
      rw [hfields, Option.bind_some]
      simp [Fields.require, ← h]
    · rw [Command.write_of_text h]
      refine (read_record (by decide) rfl).trans ?_
      simp [Command.fieldNames, Fields.require]
  legible c := by
    by_cases h : c.text = ""
    · rw [Command.write_of_empty h]
      exact legible_record (by simp)
    · rw [Command.write_of_text h]
      exact legible_record (by simp)

/-! ## Kinds of records -/

instance : Lawful Config where
  read_write r := (read_record (by decide) rfl).trans (by simp [Config.fieldNames])
  legible _ := legible_record (by simp)

instance : Lawful CommonEvent where
  read_write r := (read_record (by decide) rfl).trans (by simp [CommonEvent.fieldNames])
  legible _ := legible_record (by simp)

instance : Lawful PageCondition where
  read_write r := (read_record (by decide) rfl).trans (by simp [PageCondition.fieldNames])
  legible _ := legible_record (by simp)

instance : Lawful EventPage where
  read_write r := (read_record (by decide) rfl).trans (by simp [EventPage.fieldNames])
  legible _ := legible_record (by simp)

instance : Lawful EventData where
  read_write r := (read_record (by decide) rfl).trans (by simp [EventData.fieldNames])
  legible _ := legible_record (by simp)

instance : Lawful MapData where
  read_write r := (read_record (by decide) rfl).trans (by simp [MapData.fieldNames])
  legible _ := legible_record (by simp)

instance : Lawful TroopCondition where
  read_write r := (read_record (by decide) rfl).trans (by simp [TroopCondition.fieldNames])
  legible _ := legible_record (by simp)

instance : Lawful TroopPage where
  read_write r := (read_record (by decide) rfl).trans (by simp [TroopPage.fieldNames])
  legible _ := legible_record (by simp)

instance : Lawful EnemyData where
  read_write r := (read_record (by decide) rfl).trans (by simp [EnemyData.fieldNames])
  legible _ := legible_record (by simp)

instance : Lawful TroopData where
  read_write r := (read_record (by decide) rfl).trans (by simp [TroopData.fieldNames])
  legible _ := legible_record (by simp)

instance : Lawful ActorData where
  read_write r := (read_record (by decide) rfl).trans (by simp [ActorData.fieldNames])
  legible _ := legible_record (by simp)

instance : Lawful ItemData where
  read_write r := (read_record (by decide) rfl).trans (by simp [ItemData.fieldNames])
  legible _ := legible_record (by simp)

instance : Lawful Music where
  read_write r := (read_record (by decide) rfl).trans (by simp [Music.fieldNames])
  legible _ := legible_record (by simp)

instance : Lawful Sound where
  read_write r := (read_record (by decide) rfl).trans (by simp [Sound.fieldNames])
  legible _ := legible_record (by simp)

instance : Lawful SystemData where
  read_write r := (read_record (by decide) rfl).trans (by simp [SystemData.fieldNames])
  legible _ := legible_record (by simp)

instance : Lawful Terms where
  read_write r := (read_record (by decide) rfl).trans (by simp [Terms.fieldNames])
  legible _ := legible_record (by simp)

instance : Lawful Start where
  read_write r := (read_record (by decide) rfl).trans (by simp [Start.fieldNames])
  legible _ := legible_record (by simp)

instance : Lawful Database where
  read_write r := (read_record (by decide) rfl).trans (by simp [Database.fieldNames])
  legible _ := legible_record (by simp)

/-! ## The whole text -/

/-- What is written for a value is read as it. -/
theorem JsonForm.ofText_write {α : Type} [JsonForm α] [Lawful α] (a : α) :
    JsonForm.ofText α (Json.render (write a)) = .ok a := by
  have hread : (Json.parse (Json.render (write a))).bind read? = some a := by
    rw [Json.parse_render (Lawful.legible a), Option.bind_some, Lawful.read_write]
  rw [JsonForm.ofText, hread]

/-- The text that is written for an accepted database is read as it. -/
theorem Database.ofText_render {d : Database} (h : d.validate = .ok ()) :
    Database.ofText (Json.render (write d)) = .ok d := by
  rw [Database.ofText, JsonForm.ofText_write]
  show (do d.validate; return d) = _
  rw [h]
  rfl

/-- A database with quotes, control characters and characters beyond the first plane in its texts,
with commands with and without a text, and with conditions of which some are left open. -/
def album : Database where
  config := { depthWarning := 4294967295, variableMin := -5, goldMax := -1 }
  terms := { gold := "\"G\" 💰", innAGreeting2 := "" }
  system := { title := "Ñandú\t\\", bgm := [{ name := "(OFF)", volume := 100 }], se := [{}] }
  actors := [{ id := 1, skills := [3, 3], equipment := #v[1, 0, -2, 0, 7] }, { id := -4 }]
  items := [{ id := 2147483647, kind := .helmet, price := -2147483648 }]
  commonEvents := [{
    id := 3
    name := "\x00\x1f\x7f"
    trigger := .autoStart
    switchId := -1
    commands := [{ code := 10110, text := "first\nsecond \x7b" },
      { code := 10220, indent := 1, params := [0, -5] }, { code := 20110 }] }]
  troops := [{
    id := 1
    enemies := [{ name := "slime", hp := 10, hidden := true }]
    pages := [{ condition := { turn := some ⟨1, 2⟩, enemyHp := some ⟨0, 10, 50⟩ } }] }]
  maps := [{
    id := 7
    width := 2
    height := 1
    terrain := [1, 4]
    events := [{ id := 1, pages := [{ condition := {
      switchB := some 0, variableLeast := some ⟨1, 5⟩ }, commands := [{ code := 12310 }] }] }] }]
  start := { mapId := 7, party := [-4, 1] }

theorem album_restored : album.validate = .ok () ∧
    Database.ofText (Json.render (write album)) = .ok album := by
  have h : album.validate = .ok () := by rfl
  exact ⟨h, Database.ofText_render h⟩

end EventScript
