import ModuleRecord.Proofs.Descriptor.Part
import ModuleRecord.Proofs.Descriptor.Producible

/-!
# Runs of parts in one pool

A pool that is given by its slots, and then any row of parts that are laid out in it, some of which
may fail. What was laid out for a readable part resolves to it when all others have been laid out
(`Part.resolves_afterAll`): neither the slots that the pool began with, nor those that parts share,
nor what a failed part has left behind changes what it says.
-/

namespace ModuleRecord

open ConstantPool (Entry ofList)

namespace Part

/-- In every run that starts from given slots, what is laid out for a part is of its kind, and
resolves in the final pool to the part with its digests in lowercase, provided that the part is
readable. The declaration of a descriptor always is. -/
theorem resolves_afterAll {entries : List Entry} (h : entries.length ≤ 0xFFFF) :
    (∀ (before after : List Part) (part : Part) (content : ModuleAttribute) (later : ConstantPool),
      part.layout ((ofList entries).afterAll (before.map layout)) = .ok content later →
        content.kind = part.kind ∧
          (part.IsReadable →
            content.resolve ((ofList entries).afterAll ((before ++ part :: after).map layout)) =
              .ok part.toLower)) ∧
    ∀ descriptor : Descriptor, descriptor.Producible →
      (declaration descriptor.toDeclaration).IsReadable := by
  have hlays (parts : List Part) :
      ∀ step ∈ parts.map layout, ∃ good, ConstantPool.Lays step good := by
    rw [List.forall_mem_map]
    exact fun part _ => ⟨_, part.lays_layout⟩
  refine ⟨?_, ?_⟩
  · intro before after part content later hrun
    obtain ⟨hindexed, -⟩ :=
      ConstantPool.afterAll_run (ConstantPool.isIndexed_ofList h) (hlays before)
    have hgood := part.lays_layout.good_afterAll hindexed hrun (hlays after)
    rw [List.map_append, ConstantPool.afterAll_append]
    exact hgood
  · intro descriptor hproducible
    exact (Draft.build_eq_ok_iff.1 hproducible.build_toDraft).1.toIsValid

/-- A text that is held twice, and a symbol whose name is not there yet. -/
def sharedEntries : List Entry :=
  [.utf8 "a", .utf8 "a", .symbol .moduleSymbol 5, .unusable]

/-- A service without implementations, which leaves the name of its module and takes its version,
and a digest that cannot be read. -/
def failingParts : List Part :=
  [.declaration { Declaration.plain "a.b" with version := some "a", provides := [⟨"S", []⟩] },
    .hashes ⟨"SHA-256", [⟨"a.b", "0"⟩]⟩]

/-- Two digests, with the algorithm and a module that the failures have left behind. -/
def sharedHashes : HashRecord :=
  ⟨"SHA-256", [⟨"a.b", "0A"⟩, ⟨"a", ""⟩]⟩

theorem sharedHashes_resolves : sharedEntries.length ≤ 0xFFFF ∧
    ∃ content later, (hashes sharedHashes).layout
      ((ofList sharedEntries).afterAll (failingParts.map layout)) = .ok content later ∧
      content.resolve ((ofList sharedEntries).afterAll
        ((failingParts ++ [hashes sharedHashes, target "a.b", mainClass "a.b"]).map layout)) =
          .ok (hashes ⟨"SHA-256", [⟨"a.b", "0a"⟩, ⟨"a", ""⟩]⟩) := by
  have hlen : sharedEntries.length ≤ 0xFFFF := by decide
  have hodd : Hex.decode? "0" = none := by decide
  have heven : Hex.decode? "0A" = some [10] := by decide
  have hnone : Hex.decode? "" = some [] := by decide
  have hsuccess : ∃ content later, (hashes sharedHashes).layout
      ((ofList sharedEntries).afterAll (failingParts.map layout)) = .ok content later := by
    simp [sharedEntries, failingParts, sharedHashes, Declaration.plain, ConstantPool.afterAll,
      ConstantPool.leftBy, layout, Declaration.layout, HashRecord.layout, ModuleHash.layout,
      Provision.layout, Layout.internModule, Layout.internUtf8, Layout.internOptional,
      Layout.intern, EStateM.adaptExcept, ConstantPool.internModule, ConstantPool.internSymbol,
      ConstantPool.run_bind, ConstantPool.run_map, ConstantPool.run_throw,
      ConstantPool.internUtf8, ConstantPool.intern, ofList, ConstantPool.indexOf, List.zipIdx,
      Entry.key?, ConstantPool.push, ConstantPool.capacity, ConstantPool.Key.entry,
      Std.HashMap.getElem_insert, Std.HashMap.getElem_insertIfNew, hodd, heven, hnone]
  obtain ⟨content, later, hrun⟩ := hsuccess
  have hreadable : (hashes sharedHashes).IsReadable := by
    refine ⟨by decide, ?_⟩
    decide
  have hresolve := ((resolves_afterAll hlen).1 failingParts [target "a.b", mainClass "a.b"] _
    content later hrun).2 hreadable
  have hlower : (hashes sharedHashes).toLower = hashes ⟨"SHA-256", [⟨"a.b", "0a"⟩, ⟨"a", ""⟩]⟩ := by
    unfold toLower HashRecord.toLower ModuleHash.toLower sharedHashes
    simp only [List.map_cons, List.map_nil, ← Hex.encode_of_decode? heven,
      ← Hex.encode_of_decode? hnone]
    decide
  rw [hlower] at hresolve
  exact ⟨hlen, content, later, hrun, hresolve⟩

end Part
end ModuleRecord
