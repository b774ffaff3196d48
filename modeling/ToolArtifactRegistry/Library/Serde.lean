import Mathlib.Data.List.Basic

/-! JSON values as a decoded document holds them, and the rules by which a derived decoder
finds the fields of a record in one. -/
namespace ToolArtifactRegistry.Library.Serde

inductive Json where
  | null
  | bool (value : Bool)
  | number (text : String)
  | string (text : String)
  | array (items : List Json)
  | object (entries : List (String × Json))

/-- The entries of an object with one key replaced, or added when absent. -/
def setEntry (entries : List (String × Json)) (key : String) (value : Json) : List (String × Json) :=
  match entries with
  | [] => [(key, value)]
  | (name, old) :: rest => if name = key then (key, value) :: rest else (name, old) :: setEntry rest key value

def findEntry (entries : List (String × Json)) (key : String) : Option Json :=
  match entries with
  | [] => none
  | (name, value) :: rest => if name = key then some value else findEntry rest key

theorem findEntry_setEntry (entries : List (String × Json)) (key other : String) (value : Json) :
    findEntry (setEntry entries key value) other = if key = other then some value else findEntry entries other := by
  induction entries with
  | nil => simp [setEntry, findEntry]
  | cons entry rest ih =>
    obtain ⟨name, old⟩ := entry
    by_cases here : name = key
    · subst here
      by_cases same : name = other <;> simp [setEntry, findEntry, same]
    · by_cases same : key = other
      · subst same
        simp [setEntry, findEntry, here, ih]
      · simp [setEntry, findEntry, here, ih, same]

def Json.get? (value : Json) (key : String) : Option Json :=
  match value with
  | .object entries => findEntry entries key
  | _ => none

def Json.asString? : Json → Option String
  | .string text => some text
  | _ => none

def Json.asArray? : Json → Option (List Json)
  | .array items => some items
  | _ => none

inductive DecodeError where
  | invalidType
  | missingField (key : String)
  | invalidLength
  deriving DecidableEq, Repr

abbrev Decoded := Except DecodeError

/-- Where a derived decoder looks: by key in an object, by position in an array. -/
inductive Fields where
  | keyed (entries : List (String × Json))
  | placed (items : List Json)

def fields (width : Nat) : Json → Decoded Fields
  | .object entries => .ok (.keyed entries)
  | .array items => if items.length ≤ width then .ok (.placed items) else .error .invalidLength
  | _ => .error .invalidType

def Fields.at (source : Fields) (position : Nat) (key : String) : Option Json :=
  match source with
  | .keyed entries => findEntry entries key
  | .placed items => items[position]?

def missing (source : Fields) (key : String) : DecodeError :=
  match source with
  | .keyed _ => .missingField key
  | .placed _ => .invalidLength

def required {α : Type} (decode : Json → Decoded α) (source : Fields) (position : Nat) (key : String) : Decoded α :=
  match source.at position key with
  | some value => decode value
  | none => .error (missing source key)

def defaulted {α : Type} (fallback : α) (decode : Json → Decoded α) (source : Fields) (position : Nat)
    (key : String) : Decoded α :=
  match source.at position key with
  | some value => decode value
  | none => .ok fallback

def decodeString : Json → Decoded String
  | .string text => .ok text
  | _ => .error .invalidType

/-- A number that a conversion of its text accepts. -/
def decodeNumber {α : Type} (convert : String → Option α) : Json → Decoded α
  | .number text =>
    match convert text with
    | some value => .ok value
    | none => .error .invalidType
  | _ => .error .invalidType

def decodeBool : Json → Decoded Bool
  | .bool value => .ok value
  | _ => .error .invalidType

def decodeOption {α : Type} (decode : Json → Decoded α) : Json → Decoded (Option α)
  | .null => .ok none
  | value => (decode value).map some

def decodeAll {α : Type} (decode : Json → Decoded α) : List Json → Decoded (List α)
  | [] => .ok []
  | item :: rest => do
    let head ← decode item
    let tail ← decodeAll decode rest
    return head :: tail

def decodeList {α : Type} (decode : Json → Decoded α) : Json → Decoded (List α)
  | .array items => decodeAll decode items
  | _ => .error .invalidType

def encodeOption {α : Type} (encode : α → Json) : Option α → Json
  | none => .null
  | some value => encode value

def encodeList {α : Type} (encode : α → Json) (values : List α) : Json := .array (values.map encode)

@[simp] theorem decodeString_string (text : String) : decodeString (.string text) = .ok text := rfl

@[simp] theorem decodeBool_bool (value : Bool) : decodeBool (.bool value) = .ok value := rfl

theorem decodeAll_map {α : Type} {decode : Json → Decoded α} {encode : α → Json}
    (back : ∀ value, decode (encode value) = .ok value) (values : List α) :
    decodeAll decode (values.map encode) = .ok values := by
  induction values with
  | nil => rfl
  | cons head tail ih =>
    simp only [List.map_cons, decodeAll, back, ih]
    rfl

theorem decodeList_encodeList {α : Type} {decode : Json → Decoded α} {encode : α → Json}
    (back : ∀ value, decode (encode value) = .ok value) (values : List α) :
    decodeList decode (encodeList encode values) = .ok values := decodeAll_map back values

end ToolArtifactRegistry.Library.Serde
