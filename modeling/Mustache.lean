import Mustache.Batch.Discovery
import Mustache.Batch.FileTree
import Mustache.Batch.Files
import Mustache.Batch.Run
import Mustache.CommandLine.Arguments
import Mustache.CommandLine.Run
import Mustache.Data.Bindings
import Mustache.Data.Lookup
import Mustache.Data.NameMap
import Mustache.Data.Printed
import Mustache.Json.Printer
import Mustache.Json.Reader
import Mustache.Json.Record
import Mustache.Json.RecordReader
import Mustache.Json.Token
import Mustache.Json.Value
import Mustache.Main
import Mustache.Markup.Construction.Body
import Mustache.Markup.Construction.Foreign
import Mustache.Markup.Construction.Formatting
import Mustache.Markup.Construction.Head
import Mustache.Markup.Construction.Other
import Mustache.Markup.Construction.State
import Mustache.Markup.Construction.Table
import Mustache.Markup.Doctype
import Mustache.Markup.Document
import Mustache.Markup.Dom
import Mustache.Markup.Elements
import Mustache.Markup.Lexer
import Mustache.Markup.Portion
import Mustache.Markup.Reader
import Mustache.Markup.Reference
import Mustache.Markup.ReferenceNames
import Mustache.Markup.Token
import Mustache.Module.Assembly
import Mustache.Module.Body
import Mustache.Module.Compile
import Mustache.Module.Helper
import Mustache.Numeral.Binary64
import Mustache.Numeral.Layout
import Mustache.Numeral.Reading
import Mustache.Numeral.Shortest
import Mustache.Options.Basic
import Mustache.Path.Basic
import Mustache.Path.Layout
import Mustache.Proofs.Batch.Boundary
import Mustache.Proofs.Batch.Collision
import Mustache.Proofs.Batch.Contents
import Mustache.Proofs.Batch.Discovery
import Mustache.Proofs.Batch.Order
import Mustache.Proofs.Batch.Progress
import Mustache.Proofs.Batch.Runs
import Mustache.Proofs.Batch.Storage
import Mustache.Proofs.Data.Descent
import Mustache.Proofs.Data.Escaping
import Mustache.Proofs.Data.Integers
import Mustache.Proofs.Data.Layering
import Mustache.Proofs.Data.Merging
import Mustache.Proofs.Data.Order
import Mustache.Proofs.Json.Grammar
import Mustache.Proofs.Json.RecordReader
import Mustache.Proofs.Json.Records
import Mustache.Proofs.Module.Assembly
import Mustache.Proofs.Module.Blocks
import Mustache.Proofs.Module.Embedding
import Mustache.Proofs.Module.Fragments
import Mustache.Proofs.Module.Inverted
import Mustache.Proofs.Module.Meaning
import Mustache.Proofs.Module.Mixture
import Mustache.Proofs.Module.Paths
import Mustache.Proofs.Module.Places
import Mustache.Proofs.Module.Provision
import Mustache.Proofs.Module.Runs
import Mustache.Proofs.Module.Scoping
import Mustache.Proofs.Module.Simulation
import Mustache.Proofs.Module.Skeleton
import Mustache.Proofs.Module.Substitution
import Mustache.Proofs.Numeral.Binary64
import Mustache.Proofs.Numeral.Integers
import Mustache.Proofs.Numeral.Rounding
import Mustache.Proofs.Numeral.Shortest
import Mustache.Proofs.Options.Reading
import Mustache.Proofs.Path.Layout
import Mustache.Proofs.Path.Parts
import Mustache.Proofs.Render.Agreement
import Mustache.Proofs.Render.Bisimulation
import Mustache.Proofs.Render.Building
import Mustache.Proofs.Render.Complement
import Mustache.Proofs.Render.Inclusion
import Mustache.Proofs.Render.Nesting
import Mustache.Proofs.Render.Reading
import Mustache.Proofs.Render.Recursion
import Mustache.Proofs.Script.Comparison
import Mustache.Proofs.Script.Cutting
import Mustache.Proofs.Script.Evaluation
import Mustache.Proofs.Script.Execution
import Mustache.Proofs.Script.Layout
import Mustache.Proofs.Script.Nest
import Mustache.Proofs.Script.Reading
import Mustache.Proofs.Script.Routine
import Mustache.Proofs.Script.Term
import Mustache.Proofs.Script.Token
import Mustache.Proofs.Template.Balance
import Mustache.Proofs.Template.Boundary
import Mustache.Proofs.Template.Cursor
import Mustache.Proofs.Template.Decomposition
import Mustache.Proofs.Template.Delivery
import Mustache.Proofs.Template.Exchange
import Mustache.Proofs.Template.Form
import Mustache.Proofs.Template.Hiding
import Mustache.Proofs.Template.Pattern
import Mustache.Proofs.Template.Place
import Mustache.Proofs.Template.PlacedTag
import Mustache.Proofs.Template.Placeless
import Mustache.Proofs.Template.Placement
import Mustache.Proofs.Template.Rewording
import Mustache.Proofs.Template.Salt
import Mustache.Proofs.Template.Slicing
import Mustache.Proofs.Template.Stacks
import Mustache.Proofs.Template.TablePlace
import Mustache.Proofs.Template.Units
import Mustache.Proofs.Template.Writing
import Mustache.Proofs.Text.Decimal
import Mustache.Proofs.Text.NewlineRuns
import Mustache.Proofs.Text.Occurrences
import Mustache.Proofs.Text.Utf8
import Mustache.Readers
import Mustache.Readers.Own
import Mustache.Render.Rendered
import Mustache.Render.Renderer
import Mustache.Script.Expr
import Mustache.Script.Goal
import Mustache.Script.Grammar
import Mustache.Script.Grammar.Exchange
import Mustache.Script.Grammar.Expression
import Mustache.Script.Grammar.Function
import Mustache.Script.Grammar.Statement
import Mustache.Script.Letters
import Mustache.Script.Lexeme
import Mustache.Script.Operand
import Mustache.Script.Piece
import Mustache.Script.Recognition
import Mustache.Template.Builder
import Mustache.Template.Error
import Mustache.Template.Exchange
import Mustache.Template.Location
import Mustache.Template.Node
import Mustache.Template.Placeholder
import Mustache.Template.Scan
import Mustache.Template.Scope
import Mustache.Template.Structural
import Mustache.Template.Tag
import Mustache.Text.Blank
import Mustache.Text.Bytes
import Mustache.Text.Controls
import Mustache.Text.Digits
import Mustache.Text.Hexadecimal
import Mustache.Text.Lowercase
import Mustache.Text.Markup
import Mustache.Text.Newline
import Mustache.Text.Quoted
import Mustache.Text.Search
import Mustache.Text.Units
import Mustache.Text.Utf8
