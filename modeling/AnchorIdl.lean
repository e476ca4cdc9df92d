import AnchorIdl.Bindings.Expr
import AnchorIdl.Bindings.Module
import AnchorIdl.Bindings.Names
import AnchorIdl.Bindings.TypeExpr
import AnchorIdl.Command.Arguments
import AnchorIdl.Command.Basic
import AnchorIdl.Command.Generate
import AnchorIdl.Command.Inspect
import AnchorIdl.Command.Session
import AnchorIdl.Console.Layout
import AnchorIdl.Console.Markup
import AnchorIdl.Console.Transcript
import AnchorIdl.Decimal.Binary64
import AnchorIdl.Decimal.Shortest
import AnchorIdl.Document.Account
import AnchorIdl.Document.Entry
import AnchorIdl.Document.Fault
import AnchorIdl.Document.Load
import AnchorIdl.Document.Member
import AnchorIdl.Document.Report
import AnchorIdl.Document.TypeExpr
import AnchorIdl.Error
import AnchorIdl.Failure
import AnchorIdl.Files.Access
import AnchorIdl.Files.Fault
import AnchorIdl.Files.Name
import AnchorIdl.Files.Path
import AnchorIdl.Files.System
import AnchorIdl.Generation
import AnchorIdl.Generation.Files
import AnchorIdl.Generation.Result
import AnchorIdl.Generation.Target
import AnchorIdl.Json.Basic
import AnchorIdl.Json.Display
import AnchorIdl.Json.Octets
import AnchorIdl.Json.Place
import AnchorIdl.Json.Reader
import AnchorIdl.Json.Writer
import AnchorIdl.Log
import AnchorIdl.Main
import AnchorIdl.Ordered
import AnchorIdl.Project.Basic
import AnchorIdl.Project.Files
import AnchorIdl.Run
import AnchorIdl.Schema.Basic
import AnchorIdl.Schema.Check
import AnchorIdl.Schema.Model
import AnchorIdl.Schema.Plain
import AnchorIdl.Schema.Seed
import AnchorIdl.Schema.TypeExpr
import AnchorIdl.Text.Basic
import AnchorIdl.Text.Encoding
import AnchorIdl.Text.Identifier
import AnchorIdl.Text.Numeral
import AnchorIdl.Text.Printable
import AnchorIdl.Text.Quoted
import AnchorIdl.Text.Scan
import AnchorIdl.Text.Utf8
import AnchorIdl.Toml.Reader
import AnchorIdl.Toml.Scalar
import AnchorIdl.Toml.Value
import AnchorIdl.Proofs.Document.Reading
import AnchorIdl.Proofs.Document.TypeForm
import AnchorIdl.Proofs.Document.Language
import AnchorIdl.Proofs.Document.Form
import AnchorIdl.Proofs.Document.Image
import AnchorIdl.Proofs.Script.Reader
import AnchorIdl.Proofs.Script.Evaluation
import AnchorIdl.Proofs.Script.Reading
import AnchorIdl.Proofs.Bindings.Term
import AnchorIdl.Proofs.Bindings.Denotation
import AnchorIdl.Proofs.Bindings.Source
import AnchorIdl.Proofs.Document.Integers
import AnchorIdl.Proofs.Bindings.Names
import AnchorIdl.Proofs.Bindings.Lowering
import AnchorIdl.Proofs.Bindings.Schema
import AnchorIdl.Proofs.Bindings.Execution
import AnchorIdl.Proofs.Bindings.RoundTrip
import AnchorIdl.Proofs.Bindings.Hygiene
import AnchorIdl.Proofs.Document.Duplicates
import AnchorIdl.Proofs.Document.Blame
import AnchorIdl.Proofs.Document.Faults
import AnchorIdl.Proofs.Bindings.Brackets
import AnchorIdl.Proofs.Bindings.Hoisting
import AnchorIdl.Proofs.Bindings.Nesting
import AnchorIdl.Proofs.Schema.References
import AnchorIdl.Proofs.Document.References
import AnchorIdl.Proofs.Document.Denotation
import AnchorIdl.Proofs.Document.Rewriting
import AnchorIdl.Proofs.Document.Spelling
import AnchorIdl.Proofs.Document.Absence
import AnchorIdl.Proofs.Run
import AnchorIdl.Proofs.Files.System
import AnchorIdl.Proofs.Generation.Files
import AnchorIdl.Proofs.Command.Generate
import AnchorIdl.Proofs.Schema.Derivation
import AnchorIdl.Proofs.Document.Seeds
import AnchorIdl.Proofs.Json.Octets
import AnchorIdl.Proofs.Document.Lookup
import AnchorIdl.Proofs.Command.Lookup
import AnchorIdl.Proofs.Ordered
import AnchorIdl.Proofs.Document.Rearrangement
import AnchorIdl.Proofs.Document.Parallel
import AnchorIdl.Proofs.Document.TypeParallel
import AnchorIdl.Proofs.Document.EntryParallel
import AnchorIdl.Proofs.Document.Order
import AnchorIdl.Proofs.Document.Sections
import AnchorIdl.Proofs.Document.TypeLanguage
import AnchorIdl.Proofs.Document.Groups
import AnchorIdl.Proofs.Bindings.Constants
import AnchorIdl.Proofs.Files.Absolute
import AnchorIdl.Proofs.Generation.Absolute
import AnchorIdl.Proofs.Project.Targets
import AnchorIdl.Proofs.Project.Search
import AnchorIdl.Proofs.Command.Project
import AnchorIdl.Proofs.Bindings.Acceptance
import AnchorIdl.Proofs.Text.Quoted
import AnchorIdl.Proofs.Project.Settings
import AnchorIdl.Proofs.Command.Settings
import AnchorIdl.Proofs.Document.Construction
import AnchorIdl.Proofs.Document.EntryConstruction
import AnchorIdl.Proofs.Schema.Parts
import AnchorIdl.Proofs.Command.ModuleName
import AnchorIdl.Proofs.Document.Encoding
import AnchorIdl.Proofs.Console.Markup
import AnchorIdl.Proofs.Command.Inspect
import AnchorIdl.Proofs.Script.Calls
import AnchorIdl.Proofs.Bindings.Imports
import AnchorIdl.Proofs.Generation.Merging
import AnchorIdl.Proofs.Command.Grouping
import AnchorIdl.Proofs.Schema.Preorder
import AnchorIdl.Proofs.Bindings.Layout
import AnchorIdl.Proofs.Bindings.Definitions
