import ModuleRecord.Json.Node

/-!
# Taking values out of JSON nodes

A decoder takes a value of a known kind out of a node. A record may be written as an object, with
its fields in any order, or as a list of its fields in their order; fields that are not required may
be left out, from a list only at its end.
-/

namespace ModuleRecord
namespace Json

/-- What takes a value out of a node. -/
abbrev Decoder (α : Type) := Node → Except Fault α

namespace Decoder

/-! ## Simple values -/

/-- A string. -/
def text : Decoder String
  | .string (some text) => .ok text
  | node => .error node.unwanted

/-- A string, or null for none. -/
def optionalText : Decoder (Option String)
  | .null => .ok none
  | .string (some text) => .ok (some text)
  | node => .error node.unwanted

/-- A truth value. -/
def flag : Decoder Bool
  | .bool value => .ok value
  | node => .error node.unwanted

/-- Refuses a place where the text breaks off. -/
def checkStop (stop : Option Flaw) : Except Fault Unit :=
  match stop with
  | some flaw => .error flaw.used
  | none => .ok ()

/-- A list of values of one kind. -/
def list {α : Type} (item : Decoder α) : Decoder (List α)
  | .array items stop => do
    let values ← items.mapM item
    checkStop stop
    return values
  | node => .error node.unwanted

end Decoder

/-! ## Records -/

/-- A field of a record. -/
structure Field (ρ : Type) where
  /-- The key of the field in an object. -/
  key : String
  /-- Whether it may not be left out. -/
  isRequired : Bool
  /-- Takes the value of the field, to be put into a record. -/
  read : Decoder (ρ → ρ)

namespace Field
variable {ρ : Type} {α : Type}

/-- A field that must be given. -/
def required (key : String) (decoder : Decoder α) (put : α → ρ → ρ) : Field ρ :=
  ⟨key, true, fun node => put <$> decoder node⟩

/-- A field that may be left out. -/
def optional (key : String) (decoder : Decoder α) (put : α → ρ → ρ) : Field ρ :=
  ⟨key, false, fun node => put <$> decoder node⟩

end Field

/-- A record that is being read from an object, and the keys of the fields that it has. -/
structure Gathered (ρ : Type) where
  record : ρ
  keys : List String

namespace Decoder
variable {ρ : Type}

/-- Takes in a member of an object. A key that no field has is passed over with its value; a key
that has been there before is refused before its value is looked at. -/
def gather (fields : List (Field ρ)) (gathered : Gathered ρ) (member : Option String × Node) :
    Except Fault (Gathered ρ) :=
  match member.1 with
  | none => .error .malformed
  | some key =>
    match fields.find? (·.key == key) with
    | none =>
      match member.2.ignoredFault? with
      | some fault => .error fault
      | none => .ok gathered
    | some field =>
      if gathered.keys.contains key then .error .mismatch
      else do
        let put ← field.read member.2
        return ⟨put gathered.record, key :: gathered.keys⟩

/-- Takes the fields of a record from a list. -/
def fromItems (stop : Option Flaw) : List (Field ρ) → List Node → ρ → Except Fault ρ
  | [], [], record => do
    checkStop stop
    return record
  | [], _ :: _, _ => .error .malformed
  | field :: fields, [], record => do
    checkStop stop
    if (field :: fields).any Field.isRequired then throw .mismatch
    return record
  | field :: fields, node :: nodes, record => do
    let put ← field.read node
    fromItems stop fields nodes (put record)

/-- A record with the given fields, which starts from a record without them. -/
def record (fields : List (Field ρ)) (start : ρ) : Decoder ρ
  | .object members stop => do
    let gathered ← members.foldlM (gather fields) ⟨start, []⟩
    checkStop stop
    if fields.any fun field => field.isRequired && !gathered.keys.contains field.key then
      throw .mismatch
    return gathered.record
  | .array items stop => fromItems stop fields items start
  | node => .error node.unwanted

end Decoder
end Json
end ModuleRecord
