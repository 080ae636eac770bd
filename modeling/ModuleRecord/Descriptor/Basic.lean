/-!
# Module descriptors

A descriptor says what a module record says, with names in place of pool slots. A `Draft` holds the
same fields before they have been checked; only `Draft.build` turns one into a `Descriptor`.
-/

namespace ModuleRecord

/-! ## Items -/

/-- A required module. -/
structure Requirement where
  /-- The module that is required. -/
  target : String
  /-- The version that it had when the record was made. -/
  version : Option String
  /-- Whether it is needed at compile time only. -/
  isStatic : Bool
  /-- Whether it is passed on to those who require this module. -/
  isTransitive : Bool
  /-- Whether it is declared implicitly. -/
  isMandated : Bool
  /-- Whether it is not declared in the source. -/
  isSynthetic : Bool
  deriving DecidableEq, Repr

/-- A requirement without version and flags. -/
def Requirement.plain (target : String) : Requirement :=
  ⟨target, none, false, false, false, false⟩

/-- An exported package. -/
structure Export where
  package : String
  /-- The modules that it is exported to; none stands for all. -/
  targets : List String
  /-- Whether it is not declared in the source. -/
  isSynthetic : Bool
  /-- Whether it is declared implicitly. -/
  isMandated : Bool
  deriving DecidableEq, Repr

/-- Whether an export is to some modules only. -/
def Export.isQualified (item : Export) : Bool :=
  !item.targets.isEmpty

/-- A service with its implementations. -/
structure Provision where
  service : String
  implementations : List String
  deriving DecidableEq, Repr

/-- The digest of a module. -/
structure ModuleHash where
  /-- The module whose digest it is. -/
  target : String
  /-- The digest in hexadecimal digits. -/
  digest : String
  deriving DecidableEq, Repr

/-- Digests that were computed by one algorithm. -/
structure HashRecord where
  algorithm : String
  hashes : List ModuleHash
  deriving DecidableEq, Repr

/-! ## Descriptors -/

/-- What the declaration of a module says. -/
structure Declaration where
  name : String
  version : Option String
  isOpen : Bool
  /-- Whether the module is not declared in the source. -/
  isSynthetic : Bool
  /-- Whether the module is declared implicitly. -/
  isMandated : Bool
  requires : List Requirement
  exports : List Export
  provides : List Provision
  /-- The services that are used. -/
  uses : List String
  deriving DecidableEq, Repr

/-- The contents of a descriptor before they have been checked. -/
structure Draft extends Declaration where
  packages : List String
  hashes : List HashRecord
  mainClass : Option String
  targetPlatform : Option String
  deriving DecidableEq, Repr

/-- The declaration of a module with nothing but a name. -/
def Declaration.plain (name : String) : Declaration :=
  ⟨name, none, false, false, false, [], [], [], []⟩

/-- The draft of a declaration with nothing beside it. -/
def Draft.ofDeclaration (declaration : Declaration) : Draft :=
  ⟨declaration, [], [], none, none⟩

/-- The draft of a module with nothing but a name. -/
def Draft.plain (name : String) : Draft :=
  .ofDeclaration (.plain name)

/-- The contents of a module record, checked. -/
structure Descriptor extends Draft where
  deriving DecidableEq, Repr

end ModuleRecord
