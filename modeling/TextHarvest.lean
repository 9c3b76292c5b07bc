import TextHarvest.Catalog
import TextHarvest.Classifier
import TextHarvest.Collector
import TextHarvest.Command.Arguments
import TextHarvest.Command.Run
import TextHarvest.Command.Usage
import TextHarvest.Component.Blocks
import TextHarvest.Component.Bytes
import TextHarvest.Component.Directive
import TextHarvest.Component.Harvest
import TextHarvest.Component.Tag
import TextHarvest.Component.Template
import TextHarvest.Config
import TextHarvest.Digest.Basic
import TextHarvest.Digest.Md5
import TextHarvest.Digest.Sha256
import TextHarvest.Exclusion
import TextHarvest.FileOutcome
import TextHarvest.Files.Glob
import TextHarvest.Files.Scan
import TextHarvest.Files.Tree
import TextHarvest.Finding
import TextHarvest.Harvest.Binding
import TextHarvest.Harvest.Callee
import TextHarvest.Harvest.Chunk
import TextHarvest.Harvest.Import
import TextHarvest.Harvest.Render
import TextHarvest.Harvest.Script
import TextHarvest.Harvest.Site
import TextHarvest.Harvest.Walk
import TextHarvest.Harvester
import TextHarvest.Issue
import TextHarvest.Json.Reader
import TextHarvest.Json.Value
import TextHarvest.Json.Writer
import TextHarvest.Key
import TextHarvest.Locale
import TextHarvest.Main
import TextHarvest.Number.Binary
import TextHarvest.Options
import TextHarvest.Options.Encoding
import TextHarvest.Patch
import TextHarvest.Path
import TextHarvest.Pattern.Basic
import TextHarvest.Pattern.Category
import TextHarvest.Pattern.CharSet
import TextHarvest.Pattern.Property
import TextHarvest.Pattern.Reader
import TextHarvest.Pattern.Writing
import TextHarvest.Proofs.Catalog
import TextHarvest.Proofs.Collector
import TextHarvest.Proofs.Component.Attributes
import TextHarvest.Proofs.Component.BlockByBlock
import TextHarvest.Proofs.Component.Bytes.Blocks
import TextHarvest.Proofs.Component.Bytes.Tag
import TextHarvest.Proofs.Component.Bytes.Template
import TextHarvest.Proofs.Component.DynamicTexts
import TextHarvest.Proofs.Component.Layout
import TextHarvest.Proofs.Component.Located
import TextHarvest.Proofs.Component.Nodes
import TextHarvest.Proofs.Component.Pieces
import TextHarvest.Proofs.Component.ReadBack
import TextHarvest.Proofs.Component.Refit
import TextHarvest.Proofs.Component.Rewritten
import TextHarvest.Proofs.Component.Shift
import TextHarvest.Proofs.Component.TagEnds
import TextHarvest.Proofs.Component.WholeCharacters
import TextHarvest.Proofs.Except
import TextHarvest.Proofs.FileOutcome
import TextHarvest.Proofs.Files.Absolute
import TextHarvest.Proofs.Files.Alike
import TextHarvest.Proofs.Files.Beside
import TextHarvest.Proofs.Files.Disk
import TextHarvest.Proofs.Files.Glob
import TextHarvest.Proofs.Files.Pattern
import TextHarvest.Proofs.Files.Scan
import TextHarvest.Proofs.Files.Single
import TextHarvest.Proofs.Files.Tree
import TextHarvest.Proofs.Files.Walk
import TextHarvest.Proofs.Harvest.Adjacent
import TextHarvest.Proofs.Harvest.Apart
import TextHarvest.Proofs.Harvest.Bounds
import TextHarvest.Proofs.Harvest.Chunk
import TextHarvest.Proofs.Harvest.Display
import TextHarvest.Proofs.Harvest.DryRun
import TextHarvest.Proofs.Harvest.Dynamic
import TextHarvest.Proofs.Harvest.Exported
import TextHarvest.Proofs.Harvest.Fitting
import TextHarvest.Proofs.Harvest.Imported
import TextHarvest.Proofs.Harvest.Lossless
import TextHarvest.Proofs.Harvest.Mark
import TextHarvest.Proofs.Harvest.Moved
import TextHarvest.Proofs.Harvest.Nested
import TextHarvest.Proofs.Harvest.Origin
import TextHarvest.Proofs.Harvest.Placed
import TextHarvest.Proofs.Harvest.Places
import TextHarvest.Proofs.Harvest.Recognised
import TextHarvest.Proofs.Harvest.Rereading
import TextHarvest.Proofs.Harvest.Steps
import TextHarvest.Proofs.Harvest.Stopping
import TextHarvest.Proofs.Harvest.Texts
import TextHarvest.Proofs.Harvest.Walk
import TextHarvest.Proofs.Harvest.Wrapper
import TextHarvest.Proofs.Key
import TextHarvest.Proofs.Locale.Cleaning
import TextHarvest.Proofs.Locale.CutShort
import TextHarvest.Proofs.Locale.Filling
import TextHarvest.Proofs.Locale.Frame
import TextHarvest.Proofs.Locale.ReadWrite
import TextHarvest.Proofs.Locale.Record
import TextHarvest.Proofs.Locale.RoundTrip
import TextHarvest.Proofs.Locale.Spelled
import TextHarvest.Proofs.Locale.Update
import TextHarvest.Proofs.Patch
import TextHarvest.Proofs.Patch.Apart
import TextHarvest.Proofs.Patch.Kept
import TextHarvest.Proofs.Patch.Parts
import TextHarvest.Proofs.Patch.Ranges
import TextHarvest.Proofs.Patch.Regions
import TextHarvest.Proofs.Path
import TextHarvest.Proofs.Run.Containment
import TextHarvest.Proofs.Run.Debounce
import TextHarvest.Proofs.Run.Frame
import TextHarvest.Proofs.Run.Handled
import TextHarvest.Proofs.Run.Persistence
import TextHarvest.Proofs.Run.Session
import TextHarvest.Proofs.Script.Attribute
import TextHarvest.Proofs.Script.Call
import TextHarvest.Proofs.Script.Chunk
import TextHarvest.Proofs.Script.Export
import TextHarvest.Proofs.Script.Gap
import TextHarvest.Proofs.Script.Grammar.Attributes
import TextHarvest.Proofs.Script.Grammar.Expr
import TextHarvest.Proofs.Script.Grammar.Module
import TextHarvest.Proofs.Script.Grammar.Parts
import TextHarvest.Proofs.Script.Import
import TextHarvest.Proofs.Script.Literal
import TextHarvest.Proofs.Script.Markup
import TextHarvest.Proofs.Script.Number
import TextHarvest.Proofs.Script.Operand
import TextHarvest.Proofs.Script.Place
import TextHarvest.Proofs.Script.Quoted
import TextHarvest.Proofs.Script.Steady
import TextHarvest.Proofs.Script.Tokens
import TextHarvest.Proofs.Text.AttributeString
import TextHarvest.Proofs.Text.Blank
import TextHarvest.Proofs.Text.Bytes
import TextHarvest.Proofs.Text.Cursor
import TextHarvest.Proofs.Text.Entity
import TextHarvest.Proofs.Text.Position
import TextHarvest.Proofs.Translator.Alignment
import TextHarvest.Proofs.Translator.Alone
import TextHarvest.Proofs.Translator.LineByLine
import TextHarvest.Proofs.Translator.Pacing
import TextHarvest.Proofs.Translator.Packing
import TextHarvest.Proofs.Translator.RoundTrip
import TextHarvest.Report.Issues
import TextHarvest.Report.Summary
import TextHarvest.Run.Debounce
import TextHarvest.Run.Extraction
import TextHarvest.Run.Format
import TextHarvest.Run.Session
import TextHarvest.Run.Surroundings
import TextHarvest.Run.Tasks
import TextHarvest.Script.Dialect
import TextHarvest.Script.Grammar.Basic
import TextHarvest.Script.Grammar.Expr
import TextHarvest.Script.Grammar.Function
import TextHarvest.Script.Grammar.Markup
import TextHarvest.Script.Grammar.Module
import TextHarvest.Script.Grammar.Object
import TextHarvest.Script.Grammar.Pattern
import TextHarvest.Script.Grammar.Statement
import TextHarvest.Script.Grammar.Type
import TextHarvest.Script.Literal
import TextHarvest.Script.Number
import TextHarvest.Script.Parse
import TextHarvest.Script.Program
import TextHarvest.Script.Token
import TextHarvest.Script.Tree
import TextHarvest.Text.Blank
import TextHarvest.Text.Bytes
import TextHarvest.Text.Casing
import TextHarvest.Text.Cursor
import TextHarvest.Text.Entity
import TextHarvest.Text.FormEncoded
import TextHarvest.Text.Letter
import TextHarvest.Text.NamedReference
import TextHarvest.Text.Offset
import TextHarvest.Text.Position
import TextHarvest.Text.Quoted
import TextHarvest.Text.Width
import TextHarvest.Translator.Basic
import TextHarvest.Translator.Batch
import TextHarvest.Translator.Http
import TextHarvest.Translator.Locales
import TextHarvest.Translator.Service
import TextHarvest.Translator.Url
