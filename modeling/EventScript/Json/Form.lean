import EventScript.Checked
import EventScript.Json.Basic

/-!
# Values and their documents

`JsonForm α` says how a value of `α` is written as a document and which documents are read as one.
A reader that meets an ill-formed document gives `none`; it never guesses.

A record is written as an object. It is read from an object, whose unknown members are ignored and
whose known members stand at most once, or from an array of its fields in their fixed order, of
which the last ones may be missing.
-/

namespace EventScript

/-- The document of a value. -/
class JsonForm (α : Type) where
  write : α → Json
  read? : Json → Option α

namespace JsonForm

instance : JsonForm Json := ⟨id, some⟩

instance : JsonForm Bool where
  write := .bool
  read?
    | .bool b => some b
    | _ => none

instance : JsonForm String where
  write := .text
  read?
    | .text s => some s
    | _ => none

/-- An integer of fixed width is read from an integer in its range. -/
instance {α : Type} [FixedWidth α] : JsonForm α where
  write a := .int (FixedWidth.toInt a)
  read?
    | .int z => FixedWidth.ofInt? z
    | _ => none

instance {α : Type} [JsonForm α] : JsonForm (Option α) where
  write
    | some a => write a
    | none => .null
  read?
    | .null => some none
    | j => (read? j).map some

instance {α : Type} [JsonForm α] : JsonForm (List α) where
  write l := .arr (l.map write)
  read?
    | .arr xs => xs.mapM read?
    | _ => none

/-- A list of fixed length. -/
instance {α : Type} [JsonForm α] {n : Nat} : JsonForm (Vector α n) where
  write v := .arr (v.toList.map write)
  read?
    | .arr xs => do
      let l ← xs.mapM read?
      if h : l.length = n then some ⟨l.toArray, by simpa using h⟩ else none
    | _ => none

/-! ## Records -/

/-- The fields of a record that a document gives, by name. -/
abbrev Fields := List (String × Json)

/-- The fields given, of a record with the fields `names` in this order. -/
def fields? (names : List String) : Json → Option Fields
  | .obj ms =>
    let known := ms.filter fun m => names.contains m.1
    if (known.map (·.1)).Nodup then some known else none
  | .arr xs => if xs.length ≤ names.length then some (names.zip xs) else none
  | _ => none

/-- A record as an object: its fields in their order. -/
def record (names : List String) (values : List Json) : Json := .obj (names.zip values)

/-- The value of a field, or its default where it is missing. -/
def Fields.get {α : Type} [JsonForm α] (fs : Fields) (name : String) (default : α) : Option α :=
  match fs.lookup name with
  | some j => read? j
  | none => some default

/-- The value of a field that may not be missing. -/
def Fields.require {α : Type} [JsonForm α] (fs : Fields) (name : String) : Option α :=
  (fs.lookup name).bind read?

/-! ## Fixed names -/

/-- The entry of a table of names that a document names, as a text or as an object whose only
member is the name with no value. -/
def readName? {α : Type} (names : List (String × α)) : Json → Option α
  | .text s => names.lookup s
  | .obj [(s, .null)] => names.lookup s
  | _ => none

end JsonForm

end EventScript
