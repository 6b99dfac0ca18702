import FluidChip.Attributes
import FluidChip.Catalog
import FluidChip.CommandLine.Arguments
import FluidChip.CommandLine.Flag
import FluidChip.CommandLine.Run
import FluidChip.Compilation
import FluidChip.Document.Arrangement
import FluidChip.Document.Check
import FluidChip.Document.Format
import FluidChip.Document.Outline
import FluidChip.Document.Problem
import FluidChip.Failure
import FluidChip.FileTree
import FluidChip.Formula
import FluidChip.Generation
import FluidChip.Hierarchy
import FluidChip.Host
import FluidChip.Log
import FluidChip.Main
import FluidChip.Namespace
import FluidChip.Number.Binary
import FluidChip.Number.Layout
import FluidChip.Number.Power
import FluidChip.Number.Read
import FluidChip.Number.Shortest
import FluidChip.Parameters
import FluidChip.Parameters.Load
import FluidChip.Program
import FluidChip.Proofs.Cache.Call
import FluidChip.Proofs.Cache.History
import FluidChip.Proofs.Cache.Run
import FluidChip.Proofs.Contribution
import FluidChip.Proofs.Declaration
import FluidChip.Proofs.Document
import FluidChip.Proofs.Document.Acceptance
import FluidChip.Proofs.Document.Arrangement
import FluidChip.Proofs.Document.Defaults
import FluidChip.Proofs.Document.Faulty
import FluidChip.Proofs.Document.Keys
import FluidChip.Proofs.Document.Undecided
import FluidChip.Proofs.FileTree
import FluidChip.Proofs.Generation
import FluidChip.Proofs.Hierarchy
import FluidChip.Proofs.Host
import FluidChip.Proofs.Lookup
import FluidChip.Proofs.Meaning
import FluidChip.Proofs.Meaning.Balance
import FluidChip.Proofs.Meaning.Conservation
import FluidChip.Proofs.Meaning.Droplet
import FluidChip.Proofs.Meaning.Hydraulic
import FluidChip.Proofs.Meaning.Placement
import FluidChip.Proofs.Meaning.Program
import FluidChip.Proofs.Namespace
import FluidChip.Proofs.Namespace.Collision
import FluidChip.Proofs.Number.Arithmetic
import FluidChip.Proofs.Number.Decimal
import FluidChip.Proofs.Number.Double
import FluidChip.Proofs.Number.Nearest
import FluidChip.Proofs.Number.Positional
import FluidChip.Proofs.Number.Rounding
import FluidChip.Proofs.Number.Shortest
import FluidChip.Proofs.Number.Written
import FluidChip.Proofs.Outcome
import FluidChip.Proofs.Parameters
import FluidChip.Proofs.Parameters.Explained
import FluidChip.Proofs.Parameters.File
import FluidChip.Proofs.Parameters.Reading
import FluidChip.Proofs.Program
import FluidChip.Proofs.Quantity.Conversion
import FluidChip.Proofs.Quantity.Powers
import FluidChip.Proofs.Quantity.UnitSystem
import FluidChip.Proofs.Reordering
import FluidChip.Proofs.Reordering.Alike
import FluidChip.Proofs.Reordering.Droplet
import FluidChip.Proofs.Reordering.Hydraulic
import FluidChip.Proofs.Reordering.Placement
import FluidChip.Proofs.Reordering.Program
import FluidChip.Proofs.Reordering.Setting
import FluidChip.Proofs.Reordering.TypeTable
import FluidChip.Proofs.Rule.Arithmetic
import FluidChip.Proofs.Rule.Coefficient
import FluidChip.Proofs.Rule.CrossSection
import FluidChip.Proofs.Rule.Droplet
import FluidChip.Proofs.Rule.Hydraulic
import FluidChip.Proofs.Rule.Junction
import FluidChip.Proofs.Rule.Pairs
import FluidChip.Proofs.Rule.Placement
import FluidChip.Proofs.Rule.Resistance
import FluidChip.Proofs.Rule.Term
import FluidChip.Proofs.Schematic.Accepted
import FluidChip.Proofs.Schematic.Assembled
import FluidChip.Proofs.Schematic.Building
import FluidChip.Proofs.Schematic.Connecting
import FluidChip.Proofs.Schematic.Edit
import FluidChip.Proofs.Schematic.Editing
import FluidChip.Proofs.Schematic.Explained
import FluidChip.Proofs.Schematic.Grammar
import FluidChip.Proofs.Schematic.Joined
import FluidChip.Proofs.Schematic.Load
import FluidChip.Proofs.Schematic.Reading
import FluidChip.Proofs.Schematic.Symbols
import FluidChip.Proofs.Sexp.Numeral
import FluidChip.Proofs.Sexp.ReadBack
import FluidChip.Proofs.Sexp.Reader
import FluidChip.Proofs.Sexp.Same
import FluidChip.Proofs.Sexp.Text
import FluidChip.Proofs.Statement
import FluidChip.Proofs.TypeTable
import FluidChip.Proofs.TypeTable.Resolution
import FluidChip.Proofs.Unknown
import FluidChip.Proofs.Yaml.Document
import FluidChip.Quantity
import FluidChip.Quantity.Expression
import FluidChip.Quantity.Magnitude
import FluidChip.Quantity.Standard
import FluidChip.Quantity.Unit
import FluidChip.Report
import FluidChip.Rule
import FluidChip.Rule.Droplet
import FluidChip.Rule.Hydraulic
import FluidChip.Rule.Placement
import FluidChip.Rule.Tree
import FluidChip.Run
import FluidChip.Schematic
import FluidChip.Schematic.Assembly
import FluidChip.Schematic.Format
import FluidChip.Schematic.Load
import FluidChip.Sexp
import FluidChip.Sexp.Build
import FluidChip.Text.Character
import FluidChip.Text.Quoted
import FluidChip.Text.Upper
import FluidChip.Topology
import FluidChip.TypeTable
import FluidChip.Value
import FluidChip.Value.Order
import FluidChip.Yaml.Cursor
import FluidChip.Yaml.Document
import FluidChip.Yaml.Lexer
import FluidChip.Yaml.Node
import FluidChip.Yaml.Scalar
import FluidChip.Yaml.Tag
import FluidChip.Yaml.Token
