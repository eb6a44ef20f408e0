import FormWeaver.CommandLine.Program
import FormWeaver.Main
import FormWeaver.Proofs.Cache.Order
import FormWeaver.Proofs.Run.CacheEvolution
import FormWeaver.Proofs.Run.History
import FormWeaver.Proofs.Run.Publishing
import FormWeaver.Proofs.Run.Rerun
import FormWeaver.Proofs.Cache.Cuts
import FormWeaver.Proofs.Run.Accounting
import FormWeaver.Proofs.Disk.Changes
import FormWeaver.Proofs.Instrumenter.ClassFile
import FormWeaver.Proofs.Run.Frame
import FormWeaver.Proofs.Form.Escaping
import FormWeaver.Proofs.Text.Cut
import FormWeaver.Proofs.Form.Document
import FormWeaver.Proofs.Form.Extraction
import FormWeaver.Proofs.Nested.Search
import FormWeaver.Proofs.Instrumenter.References
import FormWeaver.Proofs.Disk.Directories
import FormWeaver.Proofs.Cache.Atomicity
import FormWeaver.Proofs.Run.Sources
import FormWeaver.Proofs.Run.Independence
import FormWeaver.Proofs.Classpath.Assembly
import FormWeaver.Proofs.Classpath.Url
import FormWeaver.Proofs.Path.Absolute
import FormWeaver.Proofs.Classpath.Location
import FormWeaver.Proofs.Classpath.Identity
import FormWeaver.Proofs.Classpath.ArchiveIndex
import FormWeaver.Proofs.Cache.Edits
import FormWeaver.Proofs.Run.Idle
import FormWeaver.Proofs.Nested.KnownFiles
import FormWeaver.Proofs.Cache.LastWrite
import FormWeaver.Proofs.Nested.FirstMatch
import FormWeaver.Proofs.Classes.Containment
import FormWeaver.Proofs.Classpath.NulEscapes
import FormWeaver.Proofs.Form.Root
import FormWeaver.Proofs.Form.Remarks
import FormWeaver.Proofs.Nested.Binding
import FormWeaver.Proofs.Classpath.Appending
import FormWeaver.Proofs.Classpath.Extensions
import FormWeaver.Proofs.Classpath.Resources
import FormWeaver.Proofs.Form.Completeness
import FormWeaver.Proofs.Instrumenter.Transcript
import FormWeaver.Proofs.Classes.Probing
import FormWeaver.Proofs.Classpath.PercentEscapes
import FormWeaver.Proofs.Instrumenter.ClasspathArgument
import FormWeaver.Proofs.Nested.Preorder
import FormWeaver.Proofs.Instrumenter.ReferenceOrder
