import ModuleRecord.Json.Number
import ModuleRecord.Json.StringScan

/-!
# Reading JSON texts

A text is read character by character into one node. The scanner keeps the lists and objects that
are still open on a stack, so that it takes any depth of nesting. Where the text breaks off, what is
open is closed around the flaw.
-/

namespace ModuleRecord
namespace Json

/-! ## States -/

/-- A list or object that is still open, with what it holds so far in reverse. -/
inductive Frame where
  | items (done : List Node)
  | members (done : List (Option String × Node))
  /-- An object with a key whose value is not complete. -/
  | member (done : List (Option String × Node)) (key : Option String)

/-- What the scanner expects or is inside of. -/
inductive Mode where
  /-- A value. -/
  | value
  /-- The first item of a list, or its end. -/
  | firstItem
  /-- A comma or the end of a list. -/
  | nextItem
  /-- The first key of an object, or its end. -/
  | firstKey
  /-- A key, after a comma. -/
  | key
  /-- A comma or the end of an object. -/
  | nextMember
  /-- The colon after a key. -/
  | colon (key : Option String)
  /-- The rest of a word, and the value that it stands for. -/
  | word (rest : List Char) (node : Node)
  | number (scan : NumberScan)
  | string (scan : StringScan)
  | keyString (scan : StringScan)
  /-- The text is complete or broken off; whether something stands behind the value. -/
  | finished (root : Node) (hasMore : Bool)

/-- A scanner within a text. -/
structure Scanner where
  /-- What is open, the innermost first. -/
  frames : List Frame
  mode : Mode

/-- A text that has been read. -/
structure Document where
  root : Node
  /-- Whether something other than blanks stands behind a complete value. -/
  hasMore : Bool

/-! ## Closing -/

/-- An open list or object closed around its last value, which is not complete. -/
def Frame.closeAround (node : Node) : Frame → Node
  | items done => .array (node :: done).reverse none
  | members done => .object done.reverse none
  | member done key => .object ((key, node) :: done).reverse none

/-- An open list or object that breaks off between values. -/
def Frame.stop (flaw : Flaw) : Frame → Node
  | items done => .array done.reverse (some flaw)
  | members done => .object done.reverse (some flaw)
  | member done key => .object ((key, .broken flaw) :: done).reverse none

namespace Scanner

/-- The scanner before a text. -/
def start : Scanner :=
  ⟨[], .value⟩

/-- Adds a complete value to what is open. -/
def complete (frames : List Frame) (node : Node) : Scanner :=
  match frames with
  | [] => ⟨[], .finished node false⟩
  | .items done :: outer => ⟨.items (node :: done) :: outer, .nextItem⟩
  | .members done :: outer => ⟨.members done :: outer, .nextMember⟩
  | .member done key :: outer => ⟨.members ((key, node) :: done) :: outer, .nextMember⟩

/-- The root of a text that breaks off within the given value. -/
def brokenRoot (frames : List Frame) (node : Node) : Node :=
  frames.foldl Frame.closeAround node

/-- The root of a text that breaks off between values. -/
def stoppedRoot (frames : List Frame) (flaw : Flaw) : Node :=
  match frames with
  | [] => .broken flaw
  | frame :: outer => brokenRoot outer (frame.stop flaw)

/-- Breaks off within a value. -/
def breakOff (frames : List Frame) (flaw : Flaw) : Scanner :=
  ⟨[], .finished (brokenRoot frames (.broken flaw)) false⟩

/-- Breaks off between values. -/
def stop (frames : List Frame) (flaw : Flaw) : Scanner :=
  ⟨[], .finished (stoppedRoot frames flaw) false⟩

/-! ## Steps -/

/-- Whether a character may stand between the parts of a text. -/
def isBlank (c : Char) : Bool :=
  c == ' ' || c == '\t' || c == '\n' || c == '\r'

/-- Reads the first character of a value. -/
def stepValue (frames : List Frame) (c : Char) : Scanner :=
  if c = '"' then ⟨frames, .string .start⟩
  else if c = '[' then ⟨.items [] :: frames, .firstItem⟩
  else if c = '\x7b' then ⟨.members [] :: frames, .firstKey⟩
  else if c = 'n' then ⟨frames, .word ['u', 'l', 'l'] .null⟩
  else if c = 't' then ⟨frames, .word ['r', 'u', 'e'] (.bool true)⟩
  else if c = 'f' then ⟨frames, .word ['a', 'l', 's', 'e'] (.bool false)⟩
  else if c = '-' then ⟨frames, .number .start⟩
  else
    match digit? c with
    | some digit => ⟨frames, .number (.ofDigit digit)⟩
    | none => breakOff frames (.both .malformed)

/-- Reads a character after an item of a list. -/
def stepNextItem (frames : List Frame) (c : Char) : Scanner :=
  match frames with
  | .items done :: outer =>
    if c = ',' then ⟨.items done :: outer, .value⟩
    else if c = ']' then complete outer (.array done.reverse none)
    else stop frames (.both .malformed)
  | _ => stop frames (.both .malformed)

/-- Reads a character after a member of an object. -/
def stepNextMember (frames : List Frame) (c : Char) : Scanner :=
  match frames with
  | .members done :: outer =>
    if c = ',' then ⟨.members done :: outer, .key⟩
    else if c = '\x7d' then complete outer (.object done.reverse none)
    else stop frames (.both .malformed)
  | _ => stop frames (.both .malformed)

/-- Reads the first character of a key. -/
def stepKey (frames : List Frame) (c : Char) : Scanner :=
  if c = '"' then ⟨frames, .keyString .start⟩ else stop frames (.both .malformed)

/-- The open object with a key whose value is due. -/
def withKey (frames : List Frame) (key : Option String) : List Frame :=
  match frames with
  | .members done :: outer => .member done key :: outer
  | _ => frames

/-- Reads a character in a place where blanks may stand. -/
def stepBetween (scanner : Scanner) (c : Char) : Scanner :=
  match scanner.mode with
  | .value => stepValue scanner.frames c
  | .firstItem =>
    if c = ']' then stepNextItem scanner.frames c else stepValue scanner.frames c
  | .nextItem => stepNextItem scanner.frames c
  | .firstKey =>
    if c = '\x7d' then stepNextMember scanner.frames c else stepKey scanner.frames c
  | .key => stepKey scanner.frames c
  | .nextMember => stepNextMember scanner.frames c
  | .colon key =>
    let frames := withKey scanner.frames key
    if c = ':' then ⟨frames, .value⟩ else breakOff frames (.both .malformed)
  | .finished root _ => ⟨[], .finished root true⟩
  | _ => scanner

/-- Reads a character where blanks count for nothing. -/
def stepSpaced (scanner : Scanner) (c : Char) : Scanner :=
  if isBlank c then scanner else stepBetween scanner c

/-- Reads the next character. -/
def step (scanner : Scanner) (c : Char) : Scanner :=
  match scanner.mode with
  | .word [] node => stepSpaced (complete scanner.frames node) c
  | .word (due :: rest) node =>
    if c ≠ due then breakOff scanner.frames (.both .malformed)
    else if rest.isEmpty then complete scanner.frames node
    else ⟨scanner.frames, .word rest node⟩
  | .number scan =>
    match scan.step c with
    | .more scan => ⟨scanner.frames, .number scan⟩
    | .wrong => breakOff scanner.frames (.both .malformed)
    | .done =>
      match scan.end? with
      | some node => stepSpaced (complete scanner.frames node) c
      | none => breakOff scanner.frames (.both .malformed)
  | .string scan =>
    match scan.step c with
    | .more scan => ⟨scanner.frames, .string scan⟩
    | .wrong => breakOff scanner.frames (scan.flaw .malformed)
    | .done text => complete scanner.frames (.string text)
  | .keyString scan =>
    match scan.step c with
    | .more scan => ⟨scanner.frames, .keyString scan⟩
    | .wrong => stop scanner.frames (scan.flaw .malformed)
    | .done key => ⟨scanner.frames, .colon key⟩
  | _ => stepSpaced scanner c

/-! ## The end of the text -/

/-- The root of a text that ends here. -/
def finish (scanner : Scanner) : Document :=
  match scanner.mode with
  | .value => ⟨brokenRoot scanner.frames (.broken (.both .ended)), false⟩
  | .colon key =>
    ⟨brokenRoot (withKey scanner.frames key) (.broken (.both .ended)), false⟩
  | .word _ _ => ⟨brokenRoot scanner.frames (.broken (.both .ended)), false⟩
  | .number scan =>
    match scan.end?, scanner.frames with
    | some node, [] => ⟨node, false⟩
    | some node, frame :: outer =>
      ⟨(complete (frame :: outer) node).frames |> (stoppedRoot · (.both .ended)), false⟩
    | none, frames => ⟨brokenRoot frames (.broken ⟨.ended, .malformed⟩), false⟩
  | .string scan => ⟨brokenRoot scanner.frames (.broken (scan.flaw .ended)), false⟩
  | .keyString scan => ⟨stoppedRoot scanner.frames (scan.flaw .ended), false⟩
  | .finished root hasMore => ⟨root, hasMore⟩
  | _ => ⟨stoppedRoot scanner.frames (.both .ended), false⟩

end Scanner

/-- The document in a text. -/
def scan (text : String) : Document :=
  (text.toList.foldl Scanner.step .start).finish

end Json
end ModuleRecord
