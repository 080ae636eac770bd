import ModuleRecord.Bytes.Basic

/-!
# Expanding compressed entries

A compressed byte string is a row of blocks, each stored as it stands or written in prefix codes for
bytes and for repetitions of what came before. A string that breaks the rules, or ends before its
last block does, has no expansion; what follows the last block does not count.
-/

namespace ModuleRecord
namespace Inflate

/-! ## Bits -/

/-- A row of bits, those of each byte from the lowest to the highest. -/
structure Bits where
  /-- What is left of the byte that is being read. -/
  current : List Bool
  /-- The bytes after it. -/
  rest : Bytes

/-- The bits of a byte, from the lowest to the highest. -/
def bitsOfByte (byte : UInt8) : List Bool :=
  (List.range 8).map byte.toNat.testBit

/-- A computation that takes bits off a row, unless there are too few or they break the rules. -/
abbrev BitReader := StateT Bits Option

/-- The next bit. -/
def bit : BitReader Bool := fun bits =>
  match bits.current with
  | bit :: current => some (bit, { bits with current })
  | [] =>
    match bits.rest with
    | byte :: rest => some (byte.toNat.testBit 0, ⟨(bitsOfByte byte).tail, rest⟩)
    | [] => none

/-- The number whose binary digits come next, the lowest first. -/
def number : (width : Nat) → BitReader Nat
  | 0 => return 0
  | width + 1 => do
    let low ← bit
    let high ← number width
    return low.toNat + 2 * high

/-! ## Prefix codes -/

/-- A prefix code: the symbols in the order of their code words, and how many code words there are
of each length from one on. -/
structure Code where
  counts : List Nat
  symbols : Array Nat

/-- The greatest length of a code word. -/
def maxLength : Nat := 15

/-- The code in which each symbol has a code word of the given length, or none for length zero. -/
def Code.ofLengths (lengths : List Nat) : Code where
  counts := (List.range maxLength).map fun i => lengths.count (i + 1)
  symbols := ((List.range maxLength).flatMap fun i =>
    (lengths.zipIdx.filter fun row => row.1 = i + 1).map Prod.snd).toArray

/-- Whether the code words use up all rows of bits: each length halves the share of one word. -/
def Code.isComplete (code : Code) : Bool :=
  code.counts.foldl (fun share count => 2 * share + count) 0 == 1 <<< maxLength

/-- Whether there is no code word at all, or just one, of a single bit. -/
def Code.isTrivial (code : Code) : Bool :=
  match code.counts with
  | ofOneBit :: longer => ofOneBit ≤ 1 && longer.all (· == 0)
  | [] => true

/-- Whether a code may be used: one that leaves no bits without meaning and gives none several, or a
trivial one. -/
def Code.isUsable (code : Code) : Bool :=
  code.isComplete || code.isTrivial

/-- Walks down the lengths. The code words of the current length start at `first`, their symbols at
`index`, and `word` is the number that the bits so far spell. -/
def decodeFrom (symbols : Array Nat) :
    (counts : List Nat) → (word first index : Nat) → BitReader Nat
  | [], _, _, _ => failure
  | count :: counts, word, first, index => do
    let word := 2 * word + (← bit).toNat
    let first := 2 * first
    if word < first + count then
      match symbols[index + (word - first)]? with
      | some symbol => return symbol
      | none => failure
    else decodeFrom symbols counts word (first + count) (index + count)

/-- The symbol whose code word comes next. -/
def Code.decode (code : Code) : BitReader Nat :=
  decodeFrom code.symbols code.counts 0 0 0

/-! ## Repetitions -/

/-- The least length of each length symbol from 257 on, and the width of what is added to it. -/
def lengthTable : List (Nat × Nat) :=
  [(3, 0), (4, 0), (5, 0), (6, 0), (7, 0), (8, 0), (9, 0), (10, 0), (11, 1), (13, 1), (15, 1),
    (17, 1), (19, 2), (23, 2), (27, 2), (31, 2), (35, 3), (43, 3), (51, 3), (59, 3), (67, 4),
    (83, 4), (99, 4), (115, 4), (131, 5), (163, 5), (195, 5), (227, 5), (258, 0)]

/-- The least distance of each distance symbol, and the width of what is added to it. -/
def distanceTable : List (Nat × Nat) :=
  [(1, 0), (2, 0), (3, 0), (4, 0), (5, 1), (7, 1), (9, 2), (13, 2), (17, 3), (25, 3), (33, 4),
    (49, 4), (65, 5), (97, 5), (129, 6), (193, 6), (257, 7), (385, 7), (513, 8), (769, 8),
    (1025, 9), (1537, 9), (2049, 10), (3073, 10), (4097, 11), (6145, 11), (8193, 12), (12289, 12),
    (16385, 13), (24577, 13)]

/-- The number that a symbol and the bits after it stand for. -/
def fromTable (table : List (Nat × Nat)) (symbol : Nat) : BitReader Nat :=
  match table[symbol]? with
  | some (least, width) => do
    let more ← number width
    return least + more
  | none => failure

/-- Repeats what lies a distance back in the output, byte by byte. -/
def repeatBack (distance : Nat) : (length : Nat) → Array UInt8 → Array UInt8
  | 0, output => output
  | length + 1, output =>
    repeatBack distance length (output.push (output[output.size - distance]?.getD 0))

/-! ## Blocks -/

/-- The symbol for the end of a block. -/
def endOfBlock : Nat := 256

/-- Expands a coded block onto the output. Each symbol takes a bit at least, so as many steps as
there are bits suffice. -/
def expandCodes (literals distances : Code) :
    (fuel : Nat) → Array UInt8 → Bits → Option (Array UInt8 × Bits)
  | 0, _, _ => none
  | fuel + 1, output, bits => do
    let (symbol, bits) ← literals.decode bits
    if symbol < 256 then expandCodes literals distances fuel (output.push symbol.toUInt8) bits
    else if symbol = endOfBlock then return (output, bits)
    else
      let (length, bits) ← fromTable lengthTable (symbol - 257) bits
      let (distanceSymbol, bits) ← distances.decode bits
      let (distance, bits) ← fromTable distanceTable distanceSymbol bits
      guard (distance ≤ output.size)
      expandCodes literals distances fuel (repeatBack distance length output) bits

/-- Copies a number of stored bytes onto the output. -/
def copyStored : (size : Nat) → Array UInt8 → Bits → Option (Array UInt8 × Bits)
  | 0, output, bits => some (output, bits)
  | size + 1, output, bits => do
    let (byte, bits) ← number 8 bits
    copyStored size (output.push byte.toUInt8) bits

/-- The bits from the next byte boundary on. -/
def align (bits : Bits) : Bits :=
  { bits with current := [] }

/-- The size of a stored block, which is written twice, the second time with all bits flipped. -/
def storedSize : BitReader Nat := do
  modify align
  let size ← number 16
  let flipped ← number 16
  guard (size + flipped = 0xFFFF)
  return size

/-- The codes of blocks that bring none of their own. -/
def fixedCodes : Code × Code :=
  (.ofLengths (List.replicate 144 8 ++ List.replicate 112 9 ++ List.replicate 24 7 ++
    List.replicate 8 8), .ofLengths (List.replicate 32 5))

/-- The order in which the lengths of the code for lengths are written. -/
def lengthOrder : List Nat :=
  [16, 17, 18, 0, 8, 7, 9, 6, 10, 5, 11, 4, 12, 3, 13, 2, 14, 1, 15]

/-- Reads code lengths, in reverse, until there are as many as wanted. Each step adds one at
least. -/
def readLengths (code : Code) (wanted : Nat) : (fuel : Nat) → List Nat → BitReader (List Nat)
  | 0, lengths => return lengths
  | fuel + 1, lengths => do
    if wanted ≤ lengths.length then return lengths
    let symbol ← code.decode
    if symbol < 16 then readLengths code wanted fuel (symbol :: lengths)
    else if symbol = 16 then
      match lengths with
      | [] => failure
      | last :: _ =>
        let count ← number 2
        readLengths code wanted fuel (List.replicate (count + 3) last ++ lengths)
    else if symbol = 17 then
      let count ← number 3
      readLengths code wanted fuel (List.replicate (count + 3) 0 ++ lengths)
    else
      let count ← number 7
      readLengths code wanted fuel (List.replicate (count + 11) 0 ++ lengths)

/-- Reads the codes of a block that brings its own. The end of the block needs a code word. -/
def readCodes : BitReader (Code × Code) := do
  let literalCount := (← number 5) + 257
  let distanceCount := (← number 5) + 1
  let orderCount := (← number 4) + 4
  guard (literalCount ≤ 286 ∧ distanceCount ≤ 30)
  let written ← (List.replicate orderCount ()).mapM fun _ => number 3
  let order := (lengthOrder.zip written).foldl (fun table row => table.set row.1 row.2)
    (List.replicate 19 0)
  let lengthCode := Code.ofLengths order
  guard lengthCode.isComplete
  let wanted := literalCount + distanceCount
  let lengths := (← readLengths lengthCode wanted wanted []).reverse
  guard (lengths.length = wanted)
  guard (lengths[endOfBlock]? ≠ some 0)
  let literals := Code.ofLengths (lengths.take literalCount)
  let distances := Code.ofLengths (lengths.drop literalCount)
  guard (literals.isUsable && distances.isUsable)
  return (literals, distances)

/-- Expands what follows the header of a block of the given type onto the output. -/
def expandBody (fuel type : Nat) (output : Array UInt8) (bits : Bits) :
    Option (Array UInt8 × Bits) := do
  match type with
  | 0 =>
    let (size, bits) ← storedSize bits
    copyStored size output bits
  | 1 => expandCodes fixedCodes.1 fixedCodes.2 fuel output bits
  | 2 =>
    let ((literals, distances), bits) ← readCodes bits
    expandCodes literals distances fuel output bits
  | _ => none

/-- The flag of the last block and the type of a block. -/
def header : BitReader (Bool × Nat) := do
  let isLast ← bit
  let type ← number 2
  return (isLast, type)

/-- Expands block after block onto the output. Each takes three bits at least, so as many steps as
there are bits suffice, here and within the block. -/
def expandBlocks : (fuel : Nat) → Array UInt8 → Bits → Option (Array UInt8)
  | 0, _, _ => none
  | fuel + 1, output, bits => do
    let ((isLast, type), bits) ← header bits
    let (output, bits) ← expandBody fuel type output bits
    if isLast then return output else expandBlocks fuel output bits

/-- The expansion of a compressed byte string, if it has one. -/
def expand? (bytes : Bytes) : Option Bytes :=
  Array.toList <$> expandBlocks (8 * bytes.length) #[] ⟨[], bytes⟩

end Inflate
end ModuleRecord
