import ModuleRecord.Archive.Crc32
import ModuleRecord.Archive.Inflate
import ModuleRecord.Archive.Locator
import ModuleRecord.Archive.Reading
import ModuleRecord.Archive.Zip
import ModuleRecord.Bytes.Basic
import ModuleRecord.Bytes.Hex
import ModuleRecord.ClassFile.Attribute
import ModuleRecord.ClassFile.Basic
import ModuleRecord.ClassFile.ConstantPool.Basic
import ModuleRecord.ClassFile.ConstantPool.Bytes
import ModuleRecord.ClassFile.ConstantPool.Intern
import ModuleRecord.ClassFile.ConstantPool.InternalName
import ModuleRecord.ClassFile.ConstantPool.Resolve
import ModuleRecord.ClassFile.ConstantPool.Tag
import ModuleRecord.ClassFile.Cursor
import ModuleRecord.ClassFile.Error
import ModuleRecord.ClassFile.Flags
import ModuleRecord.ClassFile.ModuleAttribute
import ModuleRecord.ClassFile.Table
import ModuleRecord.Descriptor.Basic
import ModuleRecord.Descriptor.Build
import ModuleRecord.Descriptor.Error
import ModuleRecord.Descriptor.JavaBase
import ModuleRecord.Descriptor.Json
import ModuleRecord.Descriptor.Listing
import ModuleRecord.Descriptor.Name
import ModuleRecord.Descriptor.Part
import ModuleRecord.Descriptor.Record
import ModuleRecord.Inspect
import ModuleRecord.Json.Decode
import ModuleRecord.Json.Node
import ModuleRecord.Json.Number
import ModuleRecord.Json.Scanner
import ModuleRecord.Json.StringScan
import ModuleRecord.Json.Text
import ModuleRecord.Main
import ModuleRecord.Proofs.Archive.Reading
import ModuleRecord.Proofs.Bytes.Hex
import ModuleRecord.Proofs.Bytes.Words
import ModuleRecord.Proofs.ClassFile.Chunks
import ModuleRecord.Proofs.ClassFile.ConstantPool.Bytes
import ModuleRecord.Proofs.ClassFile.ConstantPool.Entries
import ModuleRecord.Proofs.ClassFile.ConstantPool.Filling
import ModuleRecord.Proofs.ClassFile.ConstantPool.InternalName
import ModuleRecord.Proofs.ClassFile.ConstantPool.Interning
import ModuleRecord.Proofs.ClassFile.ConstantPool.Missing
import ModuleRecord.Proofs.ClassFile.ConstantPool.Needs
import ModuleRecord.Proofs.ClassFile.ConstantPool.Runs
import ModuleRecord.Proofs.ClassFile.ConstantPool.Slots
import ModuleRecord.Proofs.ClassFile.Counts
import ModuleRecord.Proofs.ClassFile.Cuts
import ModuleRecord.Proofs.ClassFile.DeclaredLength
import ModuleRecord.Proofs.ClassFile.EarlyEnd
import ModuleRecord.Proofs.ClassFile.KnownBits
import ModuleRecord.Proofs.ClassFile.Layout
import ModuleRecord.Proofs.ClassFile.ModuleAttribute
import ModuleRecord.Proofs.ClassFile.Reads
import ModuleRecord.Proofs.ClassFile.Respelling
import ModuleRecord.Proofs.ClassFile.RoundTrip
import ModuleRecord.Proofs.ClassFile.ShortReads
import ModuleRecord.Proofs.ClassFile.Tables
import ModuleRecord.Proofs.ClassFile.Truncation
import ModuleRecord.Proofs.Descriptor.Build
import ModuleRecord.Proofs.Descriptor.DeclaredLength
import ModuleRecord.Proofs.Descriptor.Extension
import ModuleRecord.Proofs.Descriptor.Faults
import ModuleRecord.Proofs.Descriptor.Invariant
import ModuleRecord.Proofs.Descriptor.JavaBase
import ModuleRecord.Proofs.Descriptor.Json
import ModuleRecord.Proofs.Descriptor.KnownAttributes
import ModuleRecord.Proofs.Descriptor.LayoutRuns
import ModuleRecord.Proofs.Descriptor.LeastPool
import ModuleRecord.Proofs.Descriptor.Limits
import ModuleRecord.Proofs.Descriptor.Name
import ModuleRecord.Proofs.Descriptor.NameGrammar
import ModuleRecord.Proofs.Descriptor.Needs
import ModuleRecord.Proofs.Descriptor.Part
import ModuleRecord.Proofs.Descriptor.Producible
import ModuleRecord.Proofs.Descriptor.Record
import ModuleRecord.Proofs.Descriptor.References
import ModuleRecord.Proofs.Descriptor.RoundTrip
import ModuleRecord.Proofs.Fallible
import ModuleRecord.Proofs.Json.Decode
import ModuleRecord.Proofs.Json.Scanner
import ModuleRecord.Proofs.Json.Strings
import ModuleRecord.Proofs.Text.ModifiedUtf8
import ModuleRecord.Proofs.Text.Spellings
import ModuleRecord.Proofs.Text.Utf16
import ModuleRecord.Text.ModifiedUtf8
import ModuleRecord.Text.Printable
import ModuleRecord.Text.Quoted
import ModuleRecord.Text.Utf16
import ModuleRecord.Proofs.Archive.EntryNames
import ModuleRecord.Proofs.Archive.Selection
import ModuleRecord.Proofs.ClassFile.ConstantPool.Resolving
import ModuleRecord.Proofs.Descriptor.Resolution
import ModuleRecord.Proofs.ClassFile.ConstantPool.DottedNames
import ModuleRecord.Proofs.ClassFile.ConstantPool.Rebuilding
import ModuleRecord.Proofs.Descriptor.NameCheck
