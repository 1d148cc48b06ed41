import PlatformRules.Compliance
import PlatformRules.Document.Format
import PlatformRules.Foreign.Session
import PlatformRules.Host.Shell
import PlatformRules.Line.Segments
import PlatformRules.Line.Sequence
import PlatformRules.Line.Slots
import PlatformRules.Line.Source
import PlatformRules.Log.Calls
import PlatformRules.Log.Clamp
import PlatformRules.Log.Memory
import PlatformRules.Main
import PlatformRules.Text.Marked
import PlatformRules.Text.TimeStamp
import PlatformRules.Proofs.Line.Lexemes
import PlatformRules.Proofs.Text.Runs
import PlatformRules.Proofs.Token.Words
import PlatformRules.Proofs.Text.Slices
import PlatformRules.Proofs.Line.Sentences
import PlatformRules.Proofs.Line.Judgement
import PlatformRules.Proofs.Document.Reading
import PlatformRules.Proofs.Document.Acceptance
import PlatformRules.Proofs.Evaluation.Meaning
import PlatformRules.Proofs.Evaluation.Effects
import PlatformRules.Proofs.Evaluation.Paths
import PlatformRules.Proofs.Evaluation.Decisions
import PlatformRules.Proofs.Evaluation.Composition
import PlatformRules.Proofs.Line.Layout
import PlatformRules.Proofs.Line.Shifted
import PlatformRules.Proofs.Line.Staged
import PlatformRules.Proofs.Document.Formatting
import PlatformRules.Proofs.Evaluation.Formatted
import PlatformRules.Proofs.Document.Causes
import PlatformRules.Proofs.Document.Faults
import PlatformRules.Proofs.Document.Limits
import PlatformRules.Proofs.Evaluation.Faults
import PlatformRules.Proofs.Evaluation.Inert
import PlatformRules.Proofs.Evaluation.Registry
import PlatformRules.Proofs.Evaluation.Calls
import PlatformRules.Proofs.Evaluation.Observations
import PlatformRules.Proofs.Evaluation.Sessions
import PlatformRules.Proofs.Evaluation.Bindings
import PlatformRules.Proofs.Line.Canonical
import PlatformRules.Proofs.Foreign.Lines
import PlatformRules.Proofs.Text.Encoding
import PlatformRules.Proofs.Foreign.Evaluation
import PlatformRules.Proofs.Foreign.Handles
import PlatformRules.Proofs.Foreign.Scanning
import PlatformRules.Proofs.Line.Sequence
import PlatformRules.Proofs.Document.Sequence
import PlatformRules.Proofs.Document.Tokens
import PlatformRules.Proofs.Text.Terminators
import PlatformRules.Proofs.Evaluation.Chains
import PlatformRules.Proofs.Evaluation.Terminators
import PlatformRules.Proofs.Document.Layout
import PlatformRules.Proofs.Line.Changes
import PlatformRules.Proofs.Text.Cursor
import PlatformRules.Proofs.Evaluation.Handles
import PlatformRules.Proofs.Line.Rebuilding
import PlatformRules.Proofs.Log.Reports
import PlatformRules.Proofs.Foreign.Reading
import PlatformRules.Proofs.Console.Folders
import PlatformRules.Proofs.Line.NormalForm
import PlatformRules.Proofs.Line.Verdicts
import PlatformRules.Proofs.Line.Coverage
import PlatformRules.Proofs.Evaluation.Completed
import PlatformRules.Proofs.Line.Additions
import PlatformRules.Proofs.Line.Segments
import PlatformRules.Proofs.Text.Partition
import PlatformRules.Proofs.Evaluation.Comparators
import PlatformRules.Proofs.Log.Memory
import PlatformRules.Proofs.Text.Expression
import PlatformRules.Proofs.Host.Entries
import PlatformRules.Proofs.Host.Release
import PlatformRules.Proofs.Host.Family
import PlatformRules.Proofs.Log.Clamping
