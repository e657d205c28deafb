import Scriptwright.Main
import Scriptwright.Proofs.Source.Grammar
import Scriptwright.Proofs.Source.Neat
import Scriptwright.Proofs.Source.NormalForm
import Scriptwright.Proofs.Source.Logical
import Scriptwright.Proofs.Source.Literal
import Scriptwright.Proofs.Schema.Decision
import Scriptwright.Proofs.Value.Texts
import Scriptwright.Proofs.Script.Discipline
import Scriptwright.Proofs.Script.Trace
import Scriptwright.Proofs.Script.Roles
import Scriptwright.Proofs.Text.Margin
import Scriptwright.Proofs.Script.Indentation
import Scriptwright.Proofs.Script.Brackets
import Scriptwright.Proofs.Script.Frame
import Scriptwright.Proofs.Script.WholeLines
import Scriptwright.Proofs.Schema.Acceptance
import Scriptwright.Proofs.Schema.Names
import Scriptwright.Proofs.Schema.Tour
import Scriptwright.Proofs.Script.Names
import Scriptwright.Proofs.Script.Returns
import Scriptwright.Proofs.Script.Vouched
import Scriptwright.Proofs.Script.Emission
import Scriptwright.Proofs.Document.Fitting
import Scriptwright.Proofs.Document.Nodes
import Scriptwright.Proofs.Document.Sections
import Scriptwright.Proofs.Document.Components
import Scriptwright.Proofs.Document.Accepted
import Scriptwright.Proofs.Document.Decomposition
import Scriptwright.Proofs.Document.Written
import Scriptwright.Proofs.Project.Tree
import Scriptwright.Proofs.Project.Work
import Scriptwright.Proofs.Project.Targets
import Scriptwright.Proofs.Project.Jobs
import Scriptwright.Proofs.Project.Build
import Scriptwright.Proofs.Project.Confined
import Scriptwright.Proofs.Project.Contents
import Scriptwright.Proofs.Project.Failure
import Scriptwright.Proofs.Project.Rebuild
import Scriptwright.Proofs.Compile.Strict
import Scriptwright.Proofs.Compile.Template
import Scriptwright.Proofs.Schema.FirstViolation
import Scriptwright.Proofs.Schema.Standard
import Scriptwright.Proofs.Schema.Indifference
import Scriptwright.Proofs.Script.Tolerance
import Scriptwright.Proofs.Script.Isolation
import Scriptwright.Proofs.Schema.Operands
import Scriptwright.Proofs.Script.Operands
import Scriptwright.Proofs.Script.Congruence
import Scriptwright.Proofs.Script.Grouping
import Scriptwright.Proofs.Text.Decoded
import Scriptwright.Proofs.Script.Reader
import Scriptwright.Proofs.Script.ReadBack
import Scriptwright.Proofs.Script.Forest
import Scriptwright.Proofs.Script.Attributes
import Scriptwright.Proofs.Script.Openings
import Scriptwright.Proofs.Script.Symbols
import Scriptwright.Proofs.Script.FunctionBodies
import Scriptwright.Proofs.Document.Imports
import Scriptwright.Proofs.Document.NamedImports
import Scriptwright.Proofs.Document.LibraryImport
import Scriptwright.Proofs.Compile.Located
import Scriptwright.Proofs.Project.Lint
import Scriptwright.Proofs.Project.Manifest
import Scriptwright.Proofs.Project.Discovery
import Scriptwright.Proofs.Script.Keys
import Scriptwright.Proofs.Source.Flags
import Scriptwright.Proofs.Document.Notes
