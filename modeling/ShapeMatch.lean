import ShapeMatch.Identity
import ShapeMatch.Number.Layout
import ShapeMatch.Dictionary.Assoc
import ShapeMatch.Dictionary.Table
import ShapeMatch.Value.Equal
import ShapeMatch.Value.Property
import ShapeMatch.Value.Container
import ShapeMatch.Value.Render
import ShapeMatch.Selection.Record
import ShapeMatch.Pattern.Keys
import ShapeMatch.Pattern.Builder
import ShapeMatch.Pattern.Lift
import ShapeMatch.Dispatch.Chain
import ShapeMatch.Dispatch.Checker
import ShapeMatch.Pattern.Inspect
import ShapeMatch.Proofs.Dictionary.Order
import ShapeMatch.Proofs.Selection.Merge
import ShapeMatch.Proofs.Selection.Columns
import ShapeMatch.Proofs.Pattern.Parts
import ShapeMatch.Proofs.Pattern.Plan
import ShapeMatch.Proofs.Pattern.SelectedKeys
import ShapeMatch.Proofs.Pattern.Alignment
import ShapeMatch.Proofs.Dispatch.Flattening
import ShapeMatch.Proofs.Pattern.Threaded
import ShapeMatch.Proofs.Dictionary.Tables
import ShapeMatch.Proofs.Value.Containers
import ShapeMatch.Proofs.Dictionary.Agreement
import ShapeMatch.Proofs.Value.Building
import ShapeMatch.Proofs.Value.DeepEquality
import ShapeMatch.Proofs.Pattern.Lifting
import ShapeMatch.Proofs.Pattern.Verdict
import ShapeMatch.Proofs.Pattern.Replacement
import ShapeMatch.Proofs.Pattern.Renaming
import ShapeMatch.Proofs.Pattern.Provenance
import ShapeMatch.Proofs.Value.Counterparts
import ShapeMatch.Proofs.Pattern.Contents
import ShapeMatch.Proofs.Pattern.Branches
import ShapeMatch.Proofs.Pattern.Traversal
import ShapeMatch.Proofs.Number.Whole
import ShapeMatch.Proofs.Value.Numerals
import ShapeMatch.Proofs.Pattern.Indexing
import ShapeMatch.Proofs.Dictionary.Collecting
import ShapeMatch.Proofs.Pattern.Building
import ShapeMatch.Proofs.Pattern.Reordering
import ShapeMatch.Proofs.Selection.Record
import ShapeMatch.Proofs.Dispatch.Argument
import ShapeMatch.Proofs.Pattern.Absence
import ShapeMatch.Proofs.Pattern.Members
import ShapeMatch.Proofs.Value.Properties
import ShapeMatch.Proofs.Selection.Registers
import ShapeMatch.Proofs.Value.Lineage
import ShapeMatch.Proofs.Value.Rendering
import ShapeMatch.Proofs.Json.Grammar
import ShapeMatch.Proofs.Json.Reader
import ShapeMatch.Proofs.Json.Unambiguous
import ShapeMatch.Proofs.Json.Writer
import ShapeMatch.Proofs.Number.Exact
import ShapeMatch.Proofs.Value.View
import ShapeMatch.Proofs.Number.Decimals
import ShapeMatch.Proofs.Json.Numbers
import ShapeMatch.Proofs.Number.Nearest
import ShapeMatch.Proofs.Value.NumberTexts
