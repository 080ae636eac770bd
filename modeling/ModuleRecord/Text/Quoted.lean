import ModuleRecord.Bytes.Hex
import ModuleRecord.Text.Printable

/-!
# Quoted texts

A text is shown in double quotes so that its extent and every hidden character can be seen. Quotes,
backslashes and four controls have short escapes, other hidden characters are given by their code.
-/

namespace ModuleRecord
namespace Quoted

/-- A hidden character by its code in hexadecimal digits. -/
def code (c : Char) : List Char :=
  ['\\', 'u', '\x7b'] ++ Nat.toDigits 16 c.toNat ++ ['\x7d']

/-- One character as it stands in a quoted text. -/
def escape (c : Char) : List Char :=
  if c = '\x00' then ['\\', '0']
  else if c = '\t' then ['\\', 't']
  else if c = '\r' then ['\\', 'r']
  else if c = '\n' then ['\\', 'n']
  else if c = '"' then ['\\', '"']
  else if c = '\\' then ['\\', '\\']
  else if Printable.isHidden c then code c
  else [c]

/-- A text in double quotes. -/
def quote (text : String) : String :=
  String.ofList ('"' :: text.toList.flatMap escape ++ ['"'])

end Quoted
end ModuleRecord
