import ModuleRecord.Proofs.ClassFile.Counts
import ModuleRecord.Proofs.ClassFile.RoundTrip

/-!
# Chunks in a row

Bodies of attributes and whole class files can be written one behind the other. Read in a row by the
readers of their kinds, they are all read back and the reader stands behind the last of them: each
reader stops where its own chunk ends (`Chunk.row_reads_back`).
-/

namespace ModuleRecord

open Reader (Reads)

/-! ## Chunks -/

/-- What stands in a row of chunks. -/
inductive Chunk where
  /-- The body of an attribute of a module record. -/
  | body (content : ModuleAttribute)
  /-- A whole class file. -/
  | classFile (file : ClassFile)

/-- What a reader has to know of a chunk in advance. -/
inductive ChunkKind where
  | body (kind : AttributeKind)
  | classFile

/-- Reads a chunk of the given kind. -/
def ChunkKind.read : ChunkKind → Reader Chunk
  | body kind => .body <$> ModuleAttribute.read kind
  | classFile => .classFile <$> ClassFile.read

/-- Reads chunks of the given kinds, one after the other. -/
def ChunkKind.readRow (kinds : List ChunkKind) : Reader (List Chunk) :=
  kinds.mapM ChunkKind.read

namespace Chunk

/-- The kind of a chunk. -/
def kind : Chunk → ChunkKind
  | body content => .body content.kind
  | classFile _ => .classFile

/-- Writes a chunk. -/
def write : Chunk → Written
  | body content => content.write
  | classFile file => file.toBytes

/-- Bodies agree if they are the same, class files if they have the same contents. -/
inductive Agrees : Chunk → Chunk → Prop
  | body (content : ModuleAttribute) : Agrees (body content) (body content)
  | classFile {file other : ClassFile} (h : file.Agrees other) :
    Agrees (classFile file) (classFile other)

/-- The tables of a body can be counted. A class file has paired slots and is written. -/
def IsAccepted : Chunk → Prop
  | body content => content.IsCountable
  | classFile file =>
    ConstantPool.IsPaired file.pool.toList ∧ ∃ bytes, file.toBytes = .ok bytes

/-! ## Reading back -/

/-- The reader of the kind of a chunk takes exactly what is written for the chunk. -/
theorem exists_reads {chunk : Chunk} (h : chunk.IsAccepted) :
    ∃ bytes found, chunk.write = .ok bytes ∧ Reads chunk.kind.read bytes found ∧
      found.Agrees chunk := by
  cases chunk with
  | body content =>
    obtain ⟨bytes, hwritten⟩ := ModuleAttribute.exists_write_iff.2 h
    exact ⟨bytes, _, hwritten, (ModuleAttribute.reads_of_write hwritten).map _, .body content⟩
  | classFile file =>
    obtain ⟨hpaired, bytes, hwritten⟩ := h
    exact ⟨bytes, _, hwritten, (ClassFile.reads_of_toBytes hpaired hwritten).map _,
      .classFile file.rebuilt_agrees⟩

/-- The readers of the kinds of chunks take exactly what is written for the chunks. -/
theorem exists_reads_row {chunks : List Chunk} (h : ∀ chunk ∈ chunks, chunk.IsAccepted) :
    ∃ bytes found, Written.list write chunks = .ok bytes ∧
      Reads (ChunkKind.readRow (chunks.map kind)) bytes found ∧
      List.Forall₂ Agrees found chunks := by
  induction chunks with
  | nil => exact ⟨[], [], rfl, Reader.reads_pure_iff.2 ⟨rfl, rfl⟩, .nil⟩
  | cons chunk chunks ih =>
    rw [List.forall_mem_cons] at h
    obtain ⟨first, value, hfirst, hread, hagrees⟩ := exists_reads h.1
    obtain ⟨others, values, hothers, hreads, hall⟩ := ih h.2
    refine ⟨first ++ others, value :: values, ?_, ?_, .cons hagrees hall⟩
    · rw [Written.list_cons, hfirst, hothers]
      rfl
    · unfold ChunkKind.readRow
      rw [List.map_cons, List.mapM_cons]
      -- the reader of the first chunk stops where the bytes of the others begin
      exact hread.bind (hreads.bind_pure _)

/-- Chunks that are accepted are all read back from their bytes, of which none is left. A body with
a table or digest that cannot be counted is refused for the first of them. -/
theorem row_reads_back (chunks : List Chunk) :
    ((∀ chunk ∈ chunks, chunk.IsAccepted) →
      ∃ bytes found, Written.list write chunks = .ok bytes ∧
        ChunkKind.readRow (chunks.map kind) (.start bytes) = .ok found ⟨bytes.length, []⟩ ∧
        List.Forall₂ Agrees found chunks) ∧
    ∀ content : ModuleAttribute, ¬ content.IsCountable →
      ∃ before n after, content.counts = before ++ n :: after ∧
        (∀ earlier ∈ before, earlier ≤ 0xFFFF) ∧ 0xFFFF < n ∧
        (body content).write = .error (.tableTooLarge n) := by
  refine ⟨?_, fun content => ModuleAttribute.write_of_not_isCountable⟩
  intro h
  obtain ⟨bytes, found, hwritten, hreads, hall⟩ := exists_reads_row h
  have hrun := hreads.run_start
  rw [Nat.zero_add] at hrun
  exact ⟨bytes, found, hwritten, hrun, hall⟩

/-- A declaration with opened packages, a class file, digests and a main class, in a row. -/
def mixedRow : List Chunk :=
  [.body (.declaration {
      name := 1, flags := .truncate 0x20, version := 0
      requires := [⟨2, .truncate 0x8000, 3⟩]
      exports := []
      opens := [⟨5, .truncate 0, [2, 6]⟩, ⟨4, .truncate 0x1000, []⟩]
      uses := [7]
      provides := [⟨7, [9, 8]⟩] }),
    .classFile ClassFile.wideConstants,
    .body (.hashes ⟨3, [⟨2, [0xCA, 0xFE, 0xBA, 0xBE]⟩, ⟨6, []⟩]⟩),
    .body (.mainClass 8)]

/-- One package more than can be counted. -/
def overfullPackages : ModuleAttribute :=
  .packages (List.replicate 0x10000 1)

theorem mixedRow_reads_back :
    (∀ chunk ∈ mixedRow, chunk.IsAccepted) ∧
      (∃ bytes found, Written.list write mixedRow = .ok bytes ∧
        ChunkKind.readRow (mixedRow.map kind) (.start bytes) = .ok found ⟨bytes.length, []⟩ ∧
        List.Forall₂ Agrees found mixedRow) ∧
      ¬ overfullPackages.IsCountable ∧
      ∃ before n after, overfullPackages.counts = before ++ n :: after ∧
        (∀ earlier ∈ before, earlier ≤ 0xFFFF) ∧ 0xFFFF < n ∧
        (body overfullPackages).write = .error (.tableTooLarge n) := by
  have haccepted : ∀ chunk ∈ mixedRow, chunk.IsAccepted := by
    simp only [mixedRow, List.forall_mem_cons, IsAccepted]
    refine ⟨?_, ⟨ClassFile.isPaired_wideConstants, _, rfl⟩, ?_, ?_, List.forall_mem_nil _⟩
    all_goals decide
  have hoverfull : ¬ overfullPackages.IsCountable := by
    unfold overfullPackages ModuleAttribute.IsCountable ModuleAttribute.counts
    rw [List.forall_mem_singleton, List.length_replicate]
    omega
  exact ⟨haccepted, (row_reads_back mixedRow).1 haccepted, hoverfull,
    (row_reads_back mixedRow).2 overfullPackages hoverfull⟩

end Chunk
end ModuleRecord
