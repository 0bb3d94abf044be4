import EditorSettings.FileTree
import EditorSettings.Main
import EditorSettings.Proofs.Cascade.Precedence
import EditorSettings.Proofs.Document.Chapter
import EditorSettings.Proofs.Document.Layout
import EditorSettings.Proofs.Document.Line
import EditorSettings.Proofs.Text.Lowercase
import EditorSettings.Report.Progress
import EditorSettings.Proofs.Derivation
import EditorSettings.Proofs.Document.Readable
import EditorSettings.Proofs.Document.RoundTrip
import EditorSettings.Proofs.Glob.Language
import EditorSettings.Proofs.Glob.Reading
import EditorSettings.Proofs.Glob.Pattern
import EditorSettings.Proofs.Glob.Scanning
import EditorSettings.Proofs.Glob.Meaning
import EditorSettings.Proofs.Cascade.Access
import EditorSettings.Proofs.Cascade.Failure
import EditorSettings.Proofs.Document.Mending
import EditorSettings.Proofs.Document.Limits
import EditorSettings.Proofs.Document.Concatenation
import EditorSettings.Proofs.Document.Fault
import EditorSettings.Proofs.Glob.Alternation
import EditorSettings.Proofs.Glob.Directory
import EditorSettings.Proofs.Glob.Piece
import EditorSettings.Proofs.Glob.BranchOrder
import EditorSettings.Proofs.Glob.Priority
import EditorSettings.Proofs.Glob.NumberRange
import EditorSettings.Proofs.Document.Nesting
import EditorSettings.Proofs.Run
import EditorSettings.Proofs.Report
import EditorSettings.Proofs.Cascade.ExplicitRoot
import EditorSettings.Proofs.Glob.RangeRow
import EditorSettings.Proofs.Glob.Escape
import EditorSettings.Proofs.Glob.Separator
import EditorSettings.Proofs.Glob.AnyDepth
import EditorSettings.Proofs.Cascade.EmptyHeader
import EditorSettings.Proofs.Derivation.Frame
import EditorSettings.Proofs.Derivation.Settled
import EditorSettings.Proofs.Cascade.MoreRoots
import EditorSettings.Proofs.Preferences.Search
import EditorSettings.Proofs.Setting.Canonical
import EditorSettings.Proofs.Version
import EditorSettings.Proofs.Glob.Braces
import EditorSettings.Proofs.Glob.Word
import EditorSettings.Proofs.Setting.Integer
