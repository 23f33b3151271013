import TritonAot.Lib.Steps
import TritonAot.Lib.Dense
import TritonAot.Lib.Tokens
import TritonAot.Lib.Attempts
import TritonAot.Lib.Packed
import TritonAot.Lib.Slots
import TritonAot.Lib.Overrides
import TritonAot.Lib.Ordered
import TritonAot.Lib.Columns
import TritonAot.Lib.Streams
import TritonAot.Lib.Handles
import TritonAot.Lib.Pools
import TritonAot.Types
import TritonAot.Torch
import TritonAot.Graph.State
import TritonAot.Graph.Padding
import TritonAot.Graph.Capture
import TritonAot.Graph.Selection
import TritonAot.Graph.Replay
import TritonAot.Graph.Execute
import TritonAot.Graph.Attempt
import TritonAot.Graph.Atomic
import TritonAot.Graph.Entries
import TritonAot.Graph.Positions
import TritonAot.Graph.Ends
import TritonAot.Graph.Refinement
import TritonAot.Graph.Keys
import TritonAot.Graph.Captures
import TritonAot.Graph.FirstFit
import TritonAot.Graph.Fallback
import TritonAot.Graph.Layout
import TritonAot.Graph.Uniform
import TritonAot.Graph.Representation
import TritonAot.Graph.Accounting
import TritonAot.Graph.Streams
import TritonAot.Graph.Schedules
import TritonAot.Graph.Deliveries
import TritonAot.Graph.Device
import TritonAot.Graph.Mirrors
import TritonAot.Instance.Batch
import TritonAot.Instance.Inputs
import TritonAot.Instance.Outputs
import TritonAot.Instance.Packed
import TritonAot.Instance.Requests
import TritonAot.Instance.Collect
import TritonAot.Instance.Slots
import TritonAot.Instance.Unheeded
import TritonAot.Instance.Ownership
import TritonAot.Instance.Lifecycle
import TritonAot.Instance.Captures
import TritonAot.Instance.Representation
import TritonAot.Instance.Replays
import TritonAot.Instance.Prestaged
import TritonAot.Instance.Counts
import TritonAot.Instance.Eager
import TritonAot.Instance.Ends
import TritonAot.Instance.Refinement
import TritonAot.Instance.Life
import TritonAot.Instance.Coverage
import TritonAot.Instance.Divisors
import TritonAot.Instance.Accounting
import TritonAot.Instance.Device
import TritonAot.Instance.Warmup
import TritonAot.Instance.Statistics
import TritonAot.Model.Metrics
import TritonAot.Model.Handles
import TritonAot.Model.Counters
import TritonAot.Config.Names
import TritonAot.Config.Validate
import TritonAot.Config.Indices
import TritonAot.Config.InputSlots
import TritonAot.Config.BatchSizes
import TritonAot.Config.Outputs
import TritonAot.Config.OutputIndices
import TritonAot.Model.Parameters
import TritonAot.Model.Loading
import TritonAot.StringUtils
import TritonAot.Python.Model
