import ModuleRecord.ClassFile.Error

/-!
# Writing tables

A table is a 16-bit count followed by its rows. Writing either gives all bytes or names the first
fault in the order in which the bytes would have been written.
-/

namespace ModuleRecord

/-- The bytes of something written, or the first fault on the way. -/
abbrev Written := Except ClassFile.Error Bytes

namespace Written

/-- The count of a table, which has 16 bits. -/
def count (n : Nat) : Written :=
  if n ≤ 0xFFFF then .ok (Bytes.ofNat 2 n) else .error (.tableTooLarge n)

/-- Items one after the other. -/
def list {α : Type} (item : α → Written) (items : List α) : Written :=
  List.flatten <$> items.mapM item

/-- A 16-bit count and the rows. -/
def table {α : Type} (row : α → Written) (rows : List α) : Written := do
  let size ← count rows.length
  let written ← list row rows
  return size ++ written

/-- A table of 16-bit words. -/
def words (words : List UInt16) : Written :=
  table (fun word => .ok (Bytes.ofUInt16 word)) words

end Written
end ModuleRecord
