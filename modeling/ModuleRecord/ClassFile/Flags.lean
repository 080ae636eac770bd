/-!
# Flag words

A class file holds flag words of four kinds. Each kind gives names to some of the sixteen bits; a
`FlagSet` holds only bits that its kind names, and reading a word drops the others.
-/

namespace ModuleRecord

/-! ## Single flags -/

namespace Flag

/-- The class file is a module record. -/
def moduleRecord : UInt16 := 0x8000

/-- The module is open. -/
def openModule : UInt16 := 0x0020

/-- A required module is passed on to those who require this one. -/
def transitive : UInt16 := 0x0020

/-- A required module is needed at compile time only. -/
def staticPhase : UInt16 := 0x0040

/-- The item is not declared in the source of the module. -/
def synthetic : UInt16 := 0x1000

/-- The item is declared implicitly. -/
def mandated : UInt16 := 0x8000

end Flag

/-! ## Kinds of flag words -/

/-- The kinds of flag words. -/
inductive FlagKind where
  /-- The access flags of a class file, a field or a method. -/
  | access
  /-- The flags of a module declaration. -/
  | declaration
  /-- The flags of a required module. -/
  | requires
  /-- The flags of an exported or opened package. -/
  | exports
  deriving DecidableEq, Repr

namespace FlagKind

/-- The flags of a kind with their names, in the order in which they are listed. -/
def flags : FlagKind → List (String × UInt16)
  | access =>
    [("PUBLIC", 0x0001), ("PRIVATE", 0x0002), ("PROTECTED", 0x0004), ("STATIC", 0x0008),
      ("FINAL", 0x0010), ("SUPER", 0x0020), ("VOLATILE", 0x0040), ("TRANSIENT", 0x0080),
      ("INTERFACE", 0x0200), ("ABSTRACT", 0x0400), ("SYNTHETIC", Flag.synthetic),
      ("ANNOTATION", 0x2000), ("ENUM", 0x4000), ("MODULE", Flag.moduleRecord)]
  | declaration =>
    [("OPEN", Flag.openModule), ("SYNTHETIC", Flag.synthetic), ("MANDATED", Flag.mandated)]
  | requires =>
    [("TRANSITIVE", Flag.transitive), ("STATIC_PHASE", Flag.staticPhase),
      ("SYNTHETIC", Flag.synthetic), ("MANDATED", Flag.mandated)]
  | exports => [("SYNTHETIC", Flag.synthetic), ("MANDATED", Flag.mandated)]

/-- The bits that a kind names. -/
def mask (kind : FlagKind) : UInt16 :=
  kind.flags.foldl (fun bits flag => bits ||| flag.2) 0

end FlagKind

/-! ## Flag sets -/

/-- A set of flags of one kind. -/
structure FlagSet (kind : FlagKind) where
  /-- The word that holds the flags. -/
  bits : UInt16
  /-- Only bits that the kind names are set. -/
  bits_and_mask : bits &&& kind.mask = bits
  deriving DecidableEq

namespace FlagSet
variable {kind : FlagKind}

/-- The known flags of a word. -/
def truncate (word : UInt16) : FlagSet kind :=
  ⟨word &&& kind.mask, by rw [UInt16.and_assoc, UInt16.and_self]⟩

/-- The flags of a word that has no unknown bit. -/
def ofBits? (word : UInt16) : Option (FlagSet kind) :=
  if h : word &&& kind.mask = word then some ⟨word, h⟩ else none

/-- The set with no flag. -/
def empty : FlagSet kind :=
  truncate 0

/-- The set with every flag of its kind. -/
def all : FlagSet kind :=
  truncate kind.mask

/-- The set of those flags whose switch is on. -/
def ofSwitches (switches : List (UInt16 × Bool)) : FlagSet kind :=
  truncate (switches.foldl (fun bits switch => if switch.2 then bits ||| switch.1 else bits) 0)

/-- Whether a flag is in the set. -/
def has (set : FlagSet kind) (flag : UInt16) : Bool :=
  set.bits &&& flag == flag

/-- The names of the flags in the set, in the order of their kind. -/
def names (set : FlagSet kind) : List String :=
  (kind.flags.filter fun flag => set.has flag.2).map (·.1)

/-- The names with bars between them, and a note in their place where there is none. -/
def text (set : FlagSet kind) : String :=
  match set.names with
  | [] => "(empty)"
  | names => String.intercalate " | " names

/-- Truncation keeps a word that has no unknown bit. -/
@[simp] theorem truncate_bits (set : FlagSet kind) : truncate set.bits = set := by
  cases set with
  | mk bits h => simp [truncate, h]

end FlagSet
end ModuleRecord
