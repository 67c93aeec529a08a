import FilterTree.Catalog.Basic
import FilterTree.Catalog.Load
import FilterTree.Catalog.Path
import FilterTree.Condition
import FilterTree.Console.Command
import FilterTree.Console.Error
import FilterTree.Console.Execute
import FilterTree.Console.Program
import FilterTree.Console.Screen
import FilterTree.Document.Catalog
import FilterTree.Document.Mismatch
import FilterTree.Document.Model
import FilterTree.Document.Node
import FilterTree.Draft
import FilterTree.Edit.Basic
import FilterTree.Edit.Conditions
import FilterTree.Files.Directory
import FilterTree.Fresh
import FilterTree.Json.Basic
import FilterTree.Json.Number
import FilterTree.Json.Reader
import FilterTree.Json.Writer
import FilterTree.Main
import FilterTree.Model
import FilterTree.Node
import FilterTree.Query
import FilterTree.Text.Basic
import FilterTree.Text.Decimal
import FilterTree.Text.Mark
import FilterTree.Text.Role
import FilterTree.Text.Shown
import FilterTree.Text.Typed
import FilterTree.Trail
import FilterTree.Proofs.Acceptance
import FilterTree.Proofs.Tidying
import FilterTree.Proofs.Prefix
import FilterTree.Proofs.Integrity
import FilterTree.Proofs.Lifetime
import FilterTree.Proofs.Joining
import FilterTree.Proofs.Spelling
import FilterTree.Proofs.Meaning
import FilterTree.Proofs.NormalForm
import FilterTree.Proofs.Recital
import FilterTree.Proofs.Cutting
import FilterTree.Proofs.Json.Quoting
import FilterTree.Proofs.Json.Reading
import FilterTree.Proofs.Record
import FilterTree.Proofs.Nesting
import FilterTree.Proofs.Persistence
import FilterTree.Proofs.Lookup
import FilterTree.Proofs.Coherence
import FilterTree.Proofs.Step
import FilterTree.Proofs.Siblings
import FilterTree.Proofs.Targets
import FilterTree.Proofs.OneRoot
import FilterTree.Proofs.Undoing
import FilterTree.Proofs.Clearing
import FilterTree.Proofs.Patching
import FilterTree.Proofs.Running
import FilterTree.Proofs.Tiers
import FilterTree.Proofs.Addressing
import FilterTree.Proofs.Placement
import FilterTree.Proofs.Conversation
import FilterTree.Proofs.Decoding
import FilterTree.Proofs.Shadowing
import FilterTree.Proofs.InPlace
import FilterTree.Proofs.Idle
import FilterTree.Proofs.Growing
import FilterTree.Proofs.Sparing
import FilterTree.Proofs.Restriction
import FilterTree.Proofs.Recutting
import FilterTree.Proofs.Splicing
import FilterTree.Proofs.Rejoining
import FilterTree.Proofs.Offences
import FilterTree.Proofs.Dotted
import FilterTree.Proofs.Display
import FilterTree.Proofs.Merging
import FilterTree.Proofs.Numbering
