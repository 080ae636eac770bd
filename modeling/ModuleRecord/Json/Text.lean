import ModuleRecord.Bytes.Hex

/-!
# Writing JSON texts

Values are written without blanks. Of the characters of a string only the quote, the backslash and
the controls below the space are escaped.
-/

namespace ModuleRecord
namespace Json
namespace Text

/-- One character as it stands in a string. -/
def escape (c : Char) : List Char :=
  if c = '"' then ['\\', '"']
  else if c = '\\' then ['\\', '\\']
  else if c = '\x08' then ['\\', 'b']
  else if c = '\x0c' then ['\\', 'f']
  else if c = '\n' then ['\\', 'n']
  else if c = '\r' then ['\\', 'r']
  else if c = '\t' then ['\\', 't']
  else if c.toNat < 0x20 then
    ['\\', 'u', '0', '0', Hex.digit (c.toNat / 16), Hex.digit (c.toNat % 16)]
  else [c]

/-- A string. -/
def string (text : String) : List Char :=
  '"' :: text.toList.flatMap escape ++ ['"']

/-- A string, or null for none. -/
def optionalString : Option String → List Char
  | some text => string text
  | none => ['n', 'u', 'l', 'l']

/-- A truth value. -/
def bool : Bool → List Char
  | true => ['t', 'r', 'u', 'e']
  | false => ['f', 'a', 'l', 's', 'e']

/-- A list of values. -/
def array (items : List (List Char)) : List Char :=
  '[' :: List.intercalate [','] items ++ [']']

/-- A member of an object. -/
structure Member where
  key : String
  value : List Char
  /-- Whether the value is the one that is meant where the member is left out. -/
  isDefault : Bool

namespace Member

/-- A member that is never left out. -/
def always (key : String) (value : List Char) : Member :=
  ⟨key, value, false⟩

/-- A truth value that is left out if false. -/
def flag (key : String) (value : Bool) : Member :=
  ⟨key, bool value, !value⟩

/-- A string that is left out if there is none. -/
def optional (key : String) (value : Option String) : Member :=
  ⟨key, optionalString value, value.isNone⟩

/-- A list of values that is left out if it is empty. -/
def list (key : String) (items : List (List Char)) : Member :=
  ⟨key, array items, items.isEmpty⟩

/-- The key and the value with a colon between them. -/
def text (member : Member) : List Char :=
  string member.key ++ ':' :: member.value

end Member

/-- An object with the given members. -/
def object (members : List Member) : List Char :=
  '\x7b' :: List.intercalate [','] (members.map Member.text) ++ ['\x7d']

/-- An object from which members with default values are left out. -/
def compact (members : List Member) : List Char :=
  object (members.filter (!·.isDefault))

end Text
end Json
end ModuleRecord
