import Toolpath.Main
import Toolpath.Proofs.Arc.Clamping
import Toolpath.Proofs.Arc.Counts
import Toolpath.Proofs.Arc.Iteration
import Toolpath.Proofs.Arc.Planes
import Toolpath.Proofs.Arc.Selection
import Toolpath.Proofs.Arc.Sweep
import Toolpath.Proofs.Cleaner.Groups
import Toolpath.Proofs.CommandLine.Runs
import Toolpath.Proofs.Duration.Layout
import Toolpath.Proofs.Evaluation.Advisories
import Toolpath.Proofs.Evaluation.Cleaning
import Toolpath.Proofs.Evaluation.Continuation
import Toolpath.Proofs.Evaluation.Conversion
import Toolpath.Proofs.Evaluation.Coordinates
import Toolpath.Proofs.Evaluation.Density
import Toolpath.Proofs.Evaluation.FeedRange
import Toolpath.Proofs.Evaluation.Feeds
import Toolpath.Proofs.Evaluation.Kinds
import Toolpath.Proofs.Evaluation.Layout
import Toolpath.Proofs.Evaluation.Path
import Toolpath.Proofs.Evaluation.Positions
import Toolpath.Proofs.Evaluation.Stretches
import Toolpath.Proofs.Evaluation.Totals
import Toolpath.Proofs.Exact.Centers
import Toolpath.Proofs.Exact.Points
import Toolpath.Proofs.Machine.Blocks
import Toolpath.Proofs.Machine.Reach
import Toolpath.Proofs.Settings.Overlay
import Toolpath.Proofs.Settings.Saving
import Toolpath.Proofs.Word.Layout
import Toolpath.Proofs.Word.Value
