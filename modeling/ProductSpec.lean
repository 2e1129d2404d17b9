import ProductSpec.Attribute.Codec
import ProductSpec.Attribute.Literal
import ProductSpec.Attribute.Value
import ProductSpec.BaseType
import ProductSpec.Checksum.List
import ProductSpec.Checksum.Sha256
import ProductSpec.Command.Arguments
import ProductSpec.Command.Check
import ProductSpec.Command.Invocation
import ProductSpec.Command.Projects
import ProductSpec.Command.Releases
import ProductSpec.Command.Run
import ProductSpec.Comparison.Change
import ProductSpec.Comparison.Codec
import ProductSpec.Comparison.Dataset
import ProductSpec.Comparison.Release
import ProductSpec.Configuration.Basic
import ProductSpec.Configuration.Load
import ProductSpec.Configuration.Setting
import ProductSpec.DataFile.Basic
import ProductSpec.DataFile.Codec
import ProductSpec.DataFile.Dump
import ProductSpec.DataFile.Example
import ProductSpec.DataFile.Plain
import ProductSpec.Dataset.Basic
import ProductSpec.Dataset.Codec
import ProductSpec.Definition.Compile
import ProductSpec.Definition.Document
import ProductSpec.Definition.Merge
import ProductSpec.Definition.Violation
import ProductSpec.Fault
import ProductSpec.File.Error
import ProductSpec.File.Path
import ProductSpec.File.Program
import ProductSpec.File.Tree
import ProductSpec.File.World
import ProductSpec.Json.Basic
import ProductSpec.Json.Decode
import ProductSpec.Json.Reader
import ProductSpec.Json.Token
import ProductSpec.Json.Writer
import ProductSpec.JsonSchema.Check
import ProductSpec.JsonSchema.Derive
import ProductSpec.JsonSchema.Reference
import ProductSpec.JsonSchema.Valid
import ProductSpec.LineDiff.Compaction
import ProductSpec.LineDiff.Script
import ProductSpec.LineDiff.Unified
import ProductSpec.Main
import ProductSpec.NameMap
import ProductSpec.Number.Binary
import ProductSpec.Number.Shortest
import ProductSpec.Number.Word
import ProductSpec.Placeholder
import ProductSpec.Project.Basic
import ProductSpec.Project.FilePattern
import ProductSpec.Project.Scaffold
import ProductSpec.Registry.Basic
import ProductSpec.Registry.Convention
import ProductSpec.Release.Basic
import ProductSpec.Report.Basic
import ProductSpec.Report.Codec
import ProductSpec.Report.Render
import ProductSpec.Report.Severity
import ProductSpec.Store.Basic
import ProductSpec.Store.Freeze
import ProductSpec.Store.Load
import ProductSpec.Store.Lock
import ProductSpec.Store.Manifest
import ProductSpec.Text.Blank
import ProductSpec.Text.Digit
import ProductSpec.Text.Invisible
import ProductSpec.Text.Split
import ProductSpec.Timestamp
import ProductSpec.Toml.Atom
import ProductSpec.Toml.Quoted
import ProductSpec.Toml.Reader
import ProductSpec.Toml.Table
import ProductSpec.Toml.Writer
import ProductSpec.Validation.Attribute
import ProductSpec.Validation.Basic
import ProductSpec.Validation.Dataset
import ProductSpec.Validation.Scope
import ProductSpec.Version.Basic
import ProductSpec.Version.Tag
import ProductSpec.Yaml.Cursor
import ProductSpec.Yaml.Decode
import ProductSpec.Yaml.Describe
import ProductSpec.Yaml.Lexer
import ProductSpec.Yaml.Node
import ProductSpec.Yaml.Plain
import ProductSpec.Yaml.Scalar
import ProductSpec.Yaml.Value
import ProductSpec.Yaml.Writer
import ProductSpec.Proofs.Command.Example
import ProductSpec.Proofs.Comparison.Compatible
import ProductSpec.Proofs.Comparison.Editorial
import ProductSpec.Proofs.Comparison.Mirror
import ProductSpec.Proofs.DataFile.Example
import ProductSpec.Proofs.Definition.Merge
import ProductSpec.Proofs.Definition.Violations
import ProductSpec.Proofs.JsonSchema.Acceptance
import ProductSpec.Proofs.JsonSchema.Example
import ProductSpec.Proofs.JsonSchema.Presence
import ProductSpec.Proofs.Placeholder.Grammar
import ProductSpec.Proofs.Store.Atomic
import ProductSpec.Proofs.Store.History
import ProductSpec.Proofs.Validation.Account
import ProductSpec.Proofs.Validation.Isolation
import ProductSpec.Proofs.Validation.Order
import ProductSpec.Proofs.Validation.Removal
import ProductSpec.Proofs.Validation.Sizes
import ProductSpec.Proofs.Validation.Undeclared
import ProductSpec.Proofs.Validation.Unwrapping
import ProductSpec.Proofs.DataFile.Decode
import ProductSpec.Proofs.JsonSchema.Reference
import ProductSpec.Proofs.JsonSchema.Release
import ProductSpec.Proofs.Dataset.Decode
import ProductSpec.Proofs.Store.Product
import ProductSpec.Proofs.Store.Outcome
import ProductSpec.Proofs.Store.Tamper
import ProductSpec.Proofs.Report.Replay
import ProductSpec.Proofs.Project.FilePattern
import ProductSpec.Proofs.Registry.Matching
import ProductSpec.Proofs.Command.Verdict
