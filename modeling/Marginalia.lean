import Marginalia.Command.Execution
import Marginalia.Proofs.Patch.Images
import Marginalia.Proofs.Patch.Splice
import Marginalia.Proofs.Patch.Widening
import Marginalia.Proofs.Patch.Merging
import Marginalia.Proofs.Patch.Planning
import Marginalia.Proofs.Patch.Coverage
import Marginalia.Proofs.Patch.Code
import Marginalia.Proofs.Patch.LineEnds
import Marginalia.Proofs.Patch.Agreement
import Marginalia.Proofs.Analysis.Run
import Marginalia.Proofs.Analysis.Rewriting
import Marginalia.Proofs.Extraction.Trees
import Marginalia.Proofs.Analysis.Completeness
import Marginalia.Proofs.Spelling.Correction
import Marginalia.Proofs.Phrase.Matching
import Marginalia.Proofs.Drift.Findings
import Marginalia.Proofs.Drift.Alignment
import Marginalia.Proofs.Drift.Buckets
import Marginalia.Proofs.Drift.Truncation
import Marginalia.Proofs.Drift.Reordering
import Marginalia.Proofs.Drift.Blocks
import Marginalia.Proofs.Drift.Persistence
import Marginalia.Proofs.Judging.Verdicts
import Marginalia.Proofs.Patch.Unchanged
import Marginalia.Proofs.Analysis.Outcomes
import Marginalia.Proofs.Analysis.Convergence
import Marginalia.Proofs.Code.Layout
import Marginalia.Proofs.Settings.Options
import Marginalia.Proofs.Analysis.Bodies
import Marginalia.Proofs.Judging.Respelling
import Marginalia.Proofs.Judging.ProjectWords
import Marginalia.Proofs.Settings.RoundTrip
import Marginalia.Proofs.Analysis.Isolation
import Marginalia.Proofs.Extraction.Reported
import Marginalia.Proofs.Patch.Decisions
import Marginalia.Proofs.Patch.Refusals
import Marginalia.Proofs.Patch.Lines
import Marginalia.Proofs.Patch.Applying
import Marginalia.Proofs.Patch.Policies
import Marginalia.Proofs.Patch.Inline
import Marginalia.Proofs.Judging.Confidence
import Marginalia.Proofs.Unicode.Case
import Marginalia.Proofs.Spelling.Known
import Marginalia.Proofs.Spelling.WordList
import Marginalia.Proofs.Spelling.Normalizing
import Marginalia.Proofs.Judging.Typos
import Marginalia.Proofs.Spelling.Extension
import Marginalia.Proofs.Likeness.Edits
import Marginalia.Proofs.Likeness.LeastEdits
import Marginalia.Proofs.Likeness.SingleEdits
import Marginalia.Proofs.Spelling.Cutting
import Marginalia.Proofs.Unicode.Letters
import Marginalia.Proofs.Drift.Shapes
import Marginalia.Proofs.Prose.Styles
import Marginalia.Proofs.Extraction.Sites
import Marginalia.Proofs.Patch.Skeleton
import Marginalia.Proofs.Report.Conservation
import Marginalia.Proofs.Files.Discovery
import Marginalia.Proofs.Code.Identifier
import Marginalia.Proofs.Text.Lines
