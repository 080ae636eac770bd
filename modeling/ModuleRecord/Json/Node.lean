/-!
# Values in a JSON text

A `Node` is a value as it stands in a text, complete or broken off. Whoever looks for certain
values goes through a node from the left, so the first thing that is wrong decides the fault. Some
flaws of a text weigh differently in a value that is used and in one that is passed over, and a
node keeps both weights.
-/

namespace ModuleRecord
namespace Json

/-! ## Faults -/

/-- What can be wrong with a text. -/
inductive Fault where
  /-- The text ends inside a value. -/
  | ended
  /-- A value is not of the kind that its place needs, or a field is missing or doubled. -/
  | mismatch
  /-- The text breaks the rules for JSON texts. -/
  | malformed
  deriving DecidableEq, Repr

/-- The word for a fault. -/
def Fault.category : Fault → String
  | ended => "eof"
  | mismatch => "data"
  | malformed => "syntax"

/-- The fault of a place where a text breaks off. -/
structure Flaw where
  /-- The fault if the value is used. -/
  used : Fault
  /-- The fault if the value is passed over. -/
  ignored : Fault
  deriving DecidableEq, Repr

/-- A flaw that weighs the same in every value. -/
def Flaw.both (fault : Fault) : Flaw :=
  ⟨fault, fault⟩

/-! ## Nodes -/

/-- A value as it stands in a text. -/
inductive Node where
  | null
  | bool (value : Bool)
  /-- A number, and whether a double-precision number can hold its magnitude. -/
  | number (inRange : Bool)
  /-- A string, or none where it holds a surrogate without its partner. -/
  | string (text : Option String)
  /-- A list. If it has a stop, then the text breaks off right after the last item. -/
  | array (items : List Node) (stop : Option Flaw)
  /-- An object with its keys. If it has a stop, then the text breaks off where a key, a comma or
  the end was due. -/
  | object (members : List (Option String × Node)) (stop : Option Flaw)
  /-- The place where the text breaks off. -/
  | broken (flaw : Flaw)
  deriving Inhabited

namespace Node

/-- The fault of a node that is not of the kind that its place needs. -/
def unwanted : Node → Fault
  | number inRange => if inRange then .mismatch else .malformed
  | string none => .malformed
  | broken flaw => flaw.used
  | _ => .mismatch

/-- The fault of a node that is passed over. A text breaks off at most once, and nothing follows
there, so only the last value of a list or an object can have a flaw. -/
def ignoredFault? : Node → Option Fault
  | array items stop =>
    match stop with
    | some flaw => some flaw.ignored
    | none =>
      match _h : items.getLast? with
      | some last => last.ignoredFault?
      | none => none
  | object members stop =>
    match stop with
    | some flaw => some flaw.ignored
    | none =>
      match _h : members.getLast? with
      | some last => last.2.ignoredFault?
      | none => none
  | broken flaw => some flaw.ignored
  | _ => none
termination_by node => sizeOf node
decreasing_by
  · have := List.sizeOf_lt_of_mem (List.mem_of_getLast? _h)
    simp
    omega
  · have := List.sizeOf_lt_of_mem (List.mem_of_getLast? _h)
    cases last
    simp at this ⊢
    omega

end Node
end Json
end ModuleRecord
