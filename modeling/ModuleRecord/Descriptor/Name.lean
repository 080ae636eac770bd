/-!
# Names

A module name may hold any character but controls, with a backslash before each backslash, colon
and at sign. A binary name, of a package or a class, is a row of segments with dots between them,
none of which is empty or holds a slash, a semicolon or a bracket.
-/

namespace ModuleRecord
namespace Name

/-! ## Module names -/

/-- Whether a character is a control: `00` to `1F` and `7F` to `9F`. -/
def isControl (c : Char) : Bool :=
  c.toNat ≤ 0x1F || (0x7F ≤ c.toNat && c.toNat ≤ 0x9F)

/-- Whether a character of a module name needs a backslash before it. -/
def isReserved (c : Char) : Bool :=
  c == '\\' || c == ':' || c == '@'

/-- Whether each reserved character has its backslash, and there is no control. -/
def isEscaped : List Char → Bool
  | [] => true
  | [c] => !isReserved c && !isControl c
  | c :: next :: rest =>
    if c = '\\' then isReserved next && isEscaped rest
    else !isReserved c && !isControl c && isEscaped (next :: rest)

/-- Whether a text is a module name. -/
def isModuleName (name : String) : Bool :=
  !name.toList.isEmpty && isEscaped name.toList

/-! ## Binary names -/

/-- The pieces of a text between its dots; one more than there are dots. -/
def segments (chars : List Char) : List (List Char) :=
  chars.foldr
    (fun c pieces =>
      match pieces with
      | [] => [[c]]
      | piece :: pieces => if c = '.' then [] :: piece :: pieces else (c :: piece) :: pieces)
    [[]]

/-- Whether a segment of a binary name is not empty and holds only what it may hold. -/
def isSegment (segment : List Char) : Bool :=
  !segment.isEmpty && segment.all fun c => c != '/' && c != ';' && c != '['

/-- Whether a text is a binary name. -/
def isBinaryName (name : String) : Bool :=
  (segments name.toList).all isSegment

/-! ## Order -/

/-- The order of names: that of their characters, and so also that of their UTF-8 bytes. -/
def order (a b : String) : Ordering :=
  compare a b

/-- Names in ascending order. -/
def sort (names : List String) : List String :=
  names.mergeSort fun a b => order a b != .gt

end Name
end ModuleRecord
