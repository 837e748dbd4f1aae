import MotionGraph.Driver.Basic
import MotionGraph.Driver.Error
import MotionGraph.Driver.Set
import MotionGraph.Engine.Basic
import MotionGraph.Engine.Batch
import MotionGraph.Engine.Command
import MotionGraph.Engine.Frame
import MotionGraph.Engine.FrameLoop
import MotionGraph.Engine.Handle
import MotionGraph.Engine.Observers
import MotionGraph.Engine.Operations
import MotionGraph.Engine.Settle
import MotionGraph.Event.Path
import MotionGraph.Event.Router
import MotionGraph.Graph.Basic
import MotionGraph.Graph.Edges
import MotionGraph.Graph.Error
import MotionGraph.Graph.Order
import MotionGraph.Graph.Propagation
import MotionGraph.Graph.Update
import MotionGraph.Json.Basic
import MotionGraph.Json.Printer
import MotionGraph.Json.Reader
import MotionGraph.Json.Shape
import MotionGraph.Json.Token
import MotionGraph.Motion.Animation
import MotionGraph.Motion.Basic
import MotionGraph.Motion.Bezier
import MotionGraph.Motion.Config
import MotionGraph.Motion.Decay
import MotionGraph.Motion.Easing
import MotionGraph.Motion.Iterations
import MotionGraph.Motion.Spring
import MotionGraph.Motion.Timing
import MotionGraph.Node.Angle
import MotionGraph.Node.Arithmetic
import MotionGraph.Node.Basic
import MotionGraph.Node.Config
import MotionGraph.Node.DiffClamp
import MotionGraph.Node.Expr.Basic
import MotionGraph.Node.Expr.Reader
import MotionGraph.Node.Interpolation
import MotionGraph.Node.Prop
import MotionGraph.Node.PropReader
import MotionGraph.Node.Transform
import MotionGraph.Number.Binary64
import MotionGraph.Number.Numeral
import MotionGraph.Number.Scalar
import MotionGraph.Number.Shortest
import MotionGraph.Number.Style
import MotionGraph.Number.Word
import MotionGraph.Ordered.Map
import MotionGraph.Ordered.Set
import MotionGraph.Proofs.Driver.Arbitration
import MotionGraph.Proofs.Driver.Frame
import MotionGraph.Proofs.Driver.Ledger
import MotionGraph.Proofs.Driver.Life
import MotionGraph.Proofs.Driver.Lookup
import MotionGraph.Proofs.Driver.Recording
import MotionGraph.Proofs.Engine.Awake
import MotionGraph.Proofs.Engine.Backlog
import MotionGraph.Proofs.Engine.Batches
import MotionGraph.Proofs.Engine.Callbacks
import MotionGraph.Proofs.Engine.Clock
import MotionGraph.Proofs.Engine.Commands
import MotionGraph.Proofs.Engine.Faithful
import MotionGraph.Proofs.Engine.Guarded
import MotionGraph.Proofs.Engine.History
import MotionGraph.Proofs.Engine.InPlace
import MotionGraph.Proofs.Engine.Integrity
import MotionGraph.Proofs.Engine.Pursuit
import MotionGraph.Proofs.Engine.Remembered
import MotionGraph.Proofs.Engine.Resets
import MotionGraph.Proofs.Engine.Run
import MotionGraph.Proofs.Engine.Unmentioned
import MotionGraph.Proofs.Engine.Views
import MotionGraph.Proofs.Event.Bindings
import MotionGraph.Proofs.Graph.Affected
import MotionGraph.Proofs.Graph.Attached
import MotionGraph.Proofs.Graph.Calls
import MotionGraph.Proofs.Graph.Computed
import MotionGraph.Proofs.Graph.Connecting
import MotionGraph.Proofs.Graph.Current
import MotionGraph.Proofs.Graph.Deferred
import MotionGraph.Proofs.Graph.Evaluation
import MotionGraph.Proofs.Graph.Guarded
import MotionGraph.Proofs.Graph.InPlace
import MotionGraph.Proofs.Graph.Kinds
import MotionGraph.Proofs.Graph.Marks
import MotionGraph.Proofs.Graph.Offsets
import MotionGraph.Proofs.Graph.Purged
import MotionGraph.Proofs.Graph.Pursuit
import MotionGraph.Proofs.Graph.Reach
import MotionGraph.Proofs.Graph.Relation
import MotionGraph.Proofs.Graph.Reordered
import MotionGraph.Proofs.Graph.Repeat
import MotionGraph.Proofs.Graph.Requests
import MotionGraph.Proofs.Graph.Roles
import MotionGraph.Proofs.Graph.Schedule
import MotionGraph.Proofs.Graph.Settled
import MotionGraph.Proofs.Graph.Sound
import MotionGraph.Proofs.Graph.Unmentioned
import MotionGraph.Proofs.Graph.Views
import MotionGraph.Proofs.Motion.Arrival
import MotionGraph.Proofs.Motion.Landing
import MotionGraph.Proofs.Node.Clamp
import MotionGraph.Proofs.Node.Entries
import MotionGraph.Proofs.Node.Inputs
import MotionGraph.Proofs.Node.Matches
import MotionGraph.Proofs.Node.References
import MotionGraph.Proofs.Number.Amounts
import MotionGraph.Proofs.Number.Doubles
import MotionGraph.Proofs.Number.Nearest
import MotionGraph.Proofs.Number.Rounding
import MotionGraph.Proofs.Ordered.Lookup
import MotionGraph.Proofs.Settings.Fields
import MotionGraph.Proofs.Settings.Layout
import MotionGraph.Proofs.Settings.RoundTrip
import MotionGraph.Proofs.Settings.Words
import MotionGraph.Settings.Basic
import MotionGraph.Settings.Extension
import MotionGraph.Settings.Literal
import MotionGraph.Settings.Printer
import MotionGraph.Settings.Quote
import MotionGraph.Settings.Reader
import MotionGraph.Settings.Token
import MotionGraph.Settings.Value
import MotionGraph.Tag
import MotionGraph.Text.Blank
import MotionGraph.Text.Glyph
import MotionGraph.Text.Identifier
import MotionGraph.Text.Quoted
import MotionGraph.Text.Ranges
import MotionGraph.Proofs.Event.Multimap
import MotionGraph.Proofs.Event.Dispatch
import MotionGraph.Proofs.Graph.Pairs
import MotionGraph.Proofs.Node.Ghost
import MotionGraph.Proofs.Node.Polyline
import MotionGraph.Proofs.Node.Occurrences
import MotionGraph.Proofs.Motion.Inversion
import MotionGraph.Proofs.Motion.Mirror
import MotionGraph.Proofs.Engine.Subscription
