import Stencil.Engine
import Stencil.Group.Load
import Stencil.Proofs.Ancestry.Ascent
import Stencil.Proofs.Appending
import Stencil.Proofs.Application.Rotating
import Stencil.Proofs.Arguments.Paths
import Stencil.Proofs.Arguments.Simultaneous
import Stencil.Proofs.Arms
import Stencil.Proofs.Assembly.WellFormed
import Stencil.Proofs.Block.Render
import Stencil.Proofs.Caching
import Stencil.Proofs.Cursor.Compilation
import Stencil.Proofs.Eager.Compiled
import Stencil.Proofs.Elements.Boundaries
import Stencil.Proofs.Elements.Declarations
import Stencil.Proofs.Grammar.Inline
import Stencil.Proofs.Groups
import Stencil.Proofs.Halting
import Stencil.Proofs.Hosting
import Stencil.Proofs.Loading.Contents
import Stencil.Proofs.Loading.Library
import Stencil.Proofs.Outcome
import Stencil.Proofs.Output.Lines
import Stencil.Proofs.Parallel.Nesting
import Stencil.Proofs.Places.Parts
import Stencil.Proofs.Printing.GroupFile
import Stencil.Proofs.Recursion
import Stencil.Proofs.Repeat
import Stencil.Proofs.Scanning.Agreement
import Stencil.Proofs.Scanning.Comments
import Stencil.Proofs.Scanning.Escapes
import Stencil.Proofs.Scanning.Written
import Stencil.Proofs.Scoping
import Stencil.Proofs.Separators
import Stencil.Proofs.Spelling.Encoding
import Stencil.Proofs.Suppression
import Stencil.Proofs.Unindented.Render
import Stencil.Sample.Formatters
import Stencil.Sample.Point
import Stencil.Sample.User
import Stencil.Value.Datum
