import Retouch.Data.Interchange
import Retouch.Workspace.Language
import Retouch.Refactoring.Service
import Retouch.Refactoring.Rule
import Retouch.Catalog.Registry
import Retouch.Toml.Settings
import Retouch.Proofs.Catalog.Truth
import Retouch.Proofs.Refactoring.Summary
import Retouch.Proofs.Refactoring.Independence
import Retouch.Proofs.Tree.Shape
import Retouch.Proofs.Refactoring.Aim
import Retouch.Proofs.Catalog.Agreement
import Retouch.Proofs.Catalog.Concatenation
import Retouch.Proofs.Catalog.Failure
import Retouch.Proofs.Workspace.Storage
import Retouch.Proofs.Workspace.Occurrence
import Retouch.Proofs.Buffer.Marked
import Retouch.Proofs.Buffer.Decorated
import Retouch.Proofs.Buffer.Highlight
import Retouch.Proofs.Catalog.Narrowing
import Retouch.Proofs.Catalog.Words
import Retouch.Proofs.Visitor.Run
import Retouch.Proofs.Tree.Fault
import Retouch.Proofs.Toml.Settings
import Retouch.Proofs.Template.Literal
import Retouch.Proofs.Catalog.Joining
import Retouch.Proofs.Catalog.Sum
import Retouch.Proofs.Catalog.Flip
import Retouch.Proofs.Catalog.Title
import Retouch.Proofs.Catalog.ArrowBody
import Retouch.Proofs.Catalog.Braces
import Retouch.Proofs.Catalog.Comments
import Retouch.Proofs.Buffer.ReadBack
import Retouch.Proofs.Buffer.Scan
import Retouch.Proofs.Buffer.Anchor
import Retouch.Proofs.Displacement
import Retouch.Proofs.Workspace.Cursor
import Retouch.Proofs.Tree.Descendants
import Retouch.Proofs.Tree.Innermost
