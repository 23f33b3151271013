import TritonAot.Lib.Handles
import TritonAot.Graph.State

/-! The metrics of a model.

`ModelState` keeps a handle for each counter family, for each bucket of a family, and for the
eager fallbacks. Of the server there is only what records the calls the model makes: it may
fail any of them, and `fails` gives the message of the error by the number of the call. What
the increments come to is the server's own (`Exports`).

Calls are taken one at a time, those of several instances too: `ModelState` takes no lock around
its map of the buckets, and what two calls at once do to it is left out. -/
namespace TritonAot

open Handles

/-! ### The server -/

structure MetricFamily where
  id : Nat
  name : String
  description : String
  deriving DecidableEq

structure Metric where
  id : Nat
  family : MetricFamily
  labels : List (String × String)
  deriving DecidableEq

structure ServerParameter where
  id : Nat
  name : String
  value : String
  deriving DecidableEq

/-- An error object, which its receiver deletes. -/
structure ServerError where
  id : Nat
  message : String
  deriving DecidableEq

/-- What the server gives out, numbered by the call. -/
inductive Handle where
  | family (f : MetricFamily)
  | metric (m : Metric)
  | parameter (p : ServerParameter)
  | error (e : ServerError)
  deriving DecidableEq

def Handle.id : Handle → Nat
  | family f => f.id
  | metric m => m.id
  | parameter p => p.id
  | error e => e.id

def Handle.parent : Handle → Option Handle
  | metric m => some (family m.family)
  | _ => none

/-- A time series: the name of its family, and its labels. -/
abbrev Series := String × List (String × String)

def Metric.series (m : Metric) : Series := (m.family.name, m.labels)

/-- The calls that were made, what was done with the handles, which metrics were asked for, the
increments that were not refused, and the warnings logged. -/
structure Server where
  calls : Nat
  uses : List (Use Handle)
  asked : List (MetricFamily × List (String × String))
  increments : List (Metric × Int)
  warnings : List String

def Server.fresh : Server := ⟨0, [], [], [], []⟩

/-- What a server exports for the increments it has taken: `TRITONSERVER_MetricIncrement` adds an amount
that is not negative to the time series of its metric. -/
structure Exports (exported : List (Metric × Int) → Series → Int) : Prop where
  nothing : ∀ series, exported [] series = 0
  increment : ∀ taken metric amount series, 0 ≤ amount →
    exported (taken ++ [(metric, amount)]) series = exported taken series + if metric.series = series then amount else 0

def Server.note (s : Server) (uses : List (Use Handle)) : Server := {s with uses := s.uses ++ uses}

def Server.errorMessage (e : ServerError) (s : Server) : Server := s.note [.used (.error e)]

def Server.errorDelete (e : ServerError) (s : Server) : Server := s.note [.closed (.error e)]

def Server.parameterDelete (p : ServerParameter) (s : Server) : Server := s.note [.closed (.parameter p)]

/-- `LOG_IF_ERROR`. -/
def Server.logIfError : Option ServerError × Server → Server
  | (none, s) => s
  | (some e, s) => (s.errorMessage e).errorDelete e

section Calls
variable (fails : Nat → Option String)

/-- A call that returns an error where the server says so, and otherwise does what it is for. -/
def Server.attempt (s : Server) (done : Server → Server) : Option ServerError × Server :=
  let called := {s with calls := s.calls + 1}
  match fails s.calls with
  | some message => (some ⟨s.calls, message⟩, called.note [.opened (.error ⟨s.calls, message⟩)])
  | none => (none, done called)

/-- `TRITONSERVER_MetricFamilyNew`. -/
def Server.metricFamilyNew (name description : String) (s : Server) : Except ServerError MetricFamily × Server :=
  let family : MetricFamily := ⟨s.calls, name, description⟩
  match s.attempt fails fun s => s.note [.opened (.family family)] with
  | (some e, s) => (.error e, s)
  | (none, s) => (.ok family, s)

/-- `TRITONSERVER_MetricNew`. -/
def Server.metricNew (family : MetricFamily) (labels : List ServerParameter) (s : Server) :
    Except ServerError Metric × Server :=
  let metric : Metric := ⟨s.calls, family, labels.map fun l => (l.name, l.value)⟩
  let s := {s with asked := s.asked ++ [(family, metric.labels)]}.note
    (.used (.family family) :: labels.map fun l => .used (.parameter l))
  match s.attempt fails fun s => s.note [.opened (.metric metric)] with
  | (some e, s) => (.error e, s)
  | (none, s) => (.ok metric, s)

/-- `TRITONSERVER_ParameterNew`, which returns null where it fails. -/
def Server.parameterNew (name value : String) (s : Server) : Option ServerParameter × Server :=
  let called := {s with calls := s.calls + 1}
  match fails s.calls with
  | some _ => (none, called)
  | none => (some ⟨s.calls, name, value⟩, called.note [.opened (.parameter ⟨s.calls, name, value⟩)])

/-- `TRITONSERVER_MetricIncrement`. -/
def Server.metricIncrement (metric : Metric) (amount : Int) (s : Server) : Option ServerError × Server :=
  (s.note [.used (.metric metric)]).attempt fails fun s =>
    {s with increments := s.increments ++ [(metric, amount)]}

/-- `TRITONSERVER_MetricDelete` and `TRITONSERVER_MetricFamilyDelete`. -/
def Server.delete (h : Handle) (s : Server) : Option ServerError × Server :=
  (s.note [.closed h]).attempt fails id

end Calls

/-! ### `ModelState` -/

/-- The members of `ModelState` for its metrics. The map of the buckets is kept in the order of
insertion; nothing depends on the order in which it is gone through. -/
structure MetricState where
  name : String
  metricFamilyReplays : Option MetricFamily
  metricFamilyPadWaste : Option MetricFamily
  metricFamilyEagerFallbacks : Option MetricFamily
  metricFamilyCaptureFailures : Option MetricFamily
  metricEagerFallbacks : Option Metric
  cudaGraphBucketMetrics : List ((MetricFamily × Int) × Option Metric)
  cudaGraphMetricsWarned : Bool

def MetricState.fresh (name : String) : MetricState := ⟨name, none, none, none, none, none, [], false⟩

/-- A model and the server. -/
structure Host where
  state : MetricState
  server : Server

section ModelState
variable (fails : Nat → Option String)

def familyWarning (name family message : String) : String :=
  "Failed to create CUDA-graph metric family '" ++ family ++ "' (" ++ message ++
    "); CUDA-graph metrics disabled for model '" ++ name ++ "'"

def createCudaGraphMetricFamily (name description : String) (h : Host) : Option MetricFamily × Host :=
  match h.server.metricFamilyNew fails name description with
  | (.ok family, server) => (some family, {h with server})
  | (.error e, server) =>
    if h.state.cudaGraphMetricsWarned then (none, {h with server := server.errorDelete e})
    else
      let warned := {server.errorMessage e with
        warnings := server.warnings ++ [familyWarning h.state.name name e.message]}
      (none, ⟨{h.state with cudaGraphMetricsWarned := true}, warned.errorDelete e⟩)

/-- The unlabeled metric of the eager fallbacks. -/
def newEagerFallbacks (h : Host) : Host :=
  match h.state.metricFamilyEagerFallbacks with
  | none => h
  | some family =>
    match h.server.metricNew fails family [] with
    | (.ok metric, server) => ⟨{h.state with metricEagerFallbacks := some metric}, server⟩
    | (.error e, server) => ⟨{h.state with metricEagerFallbacks := none}, server.errorDelete e⟩

/-- `CreateCudaGraphMetricFamily`, assigned to a member. -/
def assignFamily (name description : String) (assign : Option MetricFamily → MetricState → MetricState) (h : Host) : Host :=
  let (family, h) := createCudaGraphMetricFamily fails name description h
  {h with state := assign family h.state}

def initCudaGraphMetrics (h : Host) : Host :=
  let h := assignFamily fails "cudagraph_replays_total" "CUDA-graph replays (per R bucket)"
    (fun family m => {m with metricFamilyReplays := family}) h
  let h := assignFamily fails "cudagraph_pad_waste_rows_total"
    "Padded (dummy) request rows run through CUDA-graph replay (per R bucket)"
    (fun family m => {m with metricFamilyPadWaste := family}) h
  let h := assignFamily fails "cudagraph_eager_fallbacks_total"
    "Requests that fell back to eager AOTInductor instead of a CUDA graph"
    (fun family m => {m with metricFamilyEagerFallbacks := family}) h
  let h := assignFamily fails "cudagraph_capture_failures_total" "CUDA-graph capture failures (per R bucket)"
    (fun family m => {m with metricFamilyCaptureFailures := family}) h
  newEagerFallbacks fails h

/-- The metric of a bucket, where its label and it can be made. -/
def newBucketMetric (family : MetricFamily) (bucket : Int) (s : Server) : Option Metric × Server :=
  match s.parameterNew fails "bucket" (toString bucket) with
  | (none, s) => (none, s)
  | (some label, s) =>
    match s.metricNew fails family [label] with
    | (.ok metric, s) => (some metric, s.parameterDelete label)
    | (.error e, s) => (none, (s.errorDelete e).parameterDelete label)

/-- Even a metric that could not be made is kept, so that it is not asked for again. -/
def getOrCreateBucketMetric (family : Option MetricFamily) (bucket : Int) (h : Host) : Option Metric × Host :=
  match family with
  | none => (none, h)
  | some family =>
    match h.state.cudaGraphBucketMetrics.lookup (family, bucket) with
    | some metric => (metric, h)
    | none =>
      let (metric, server) := newBucketMetric fails family bucket h.server
      let entry := ((family, bucket), metric)
      (metric, ⟨{h.state with cudaGraphBucketMetrics := h.state.cudaGraphBucketMetrics ++ [entry]}, server⟩)

/-- An increment that fails is passed over. -/
def increment (metric : Option Metric) (amount : Int) (h : Host) : Host :=
  match metric with
  | none => h
  | some metric =>
    match h.server.metricIncrement fails metric amount with
    | (none, server) => {h with server}
    | (some e, server) => {h with server := server.errorDelete e}

/-- The counters that are kept for each bucket. -/
def countAt (family : Option MetricFamily) (bucket amount : Int) (h : Host) : Host :=
  let (metric, h) := getOrCreateBucketMetric fails family bucket h
  increment fails metric amount h

def cudaGraphMetricReplay (bucket : Int) (h : Host) : Host := countAt fails h.state.metricFamilyReplays bucket 1 h

def cudaGraphMetricPadWaste (bucket rows : Int) (h : Host) : Host :=
  countAt fails h.state.metricFamilyPadWaste bucket rows h

def cudaGraphMetricEagerFallback (h : Host) : Host := increment fails h.state.metricEagerFallbacks 1 h

def cudaGraphMetricCaptureFailure (bucket : Int) (h : Host) : Host :=
  countAt fails h.state.metricFamilyCaptureFailures bucket 1 h

end ModelState

/-- A call of an instance. -/
inductive MetricCall where
  | replay (bucket : Int)
  | padWaste (bucket rows : Int)
  | eagerFallback
  | captureFailure (bucket : Int)

def Host.make (fails : Nat → Option String) (h : Host) : MetricCall → Host
  | .replay bucket => cudaGraphMetricReplay fails bucket h
  | .padWaste bucket rows => cudaGraphMetricPadWaste fails bucket rows h
  | .eagerFallback => cudaGraphMetricEagerFallback fails h
  | .captureFailure bucket => cudaGraphMetricCaptureFailure fails bucket h

def MetricState.metrics (m : MetricState) : List Metric :=
  m.cudaGraphBucketMetrics.filterMap Prod.snd ++ m.metricEagerFallbacks.toList

def MetricState.families (m : MetricState) : List MetricFamily :=
  m.metricFamilyReplays.toList ++ m.metricFamilyPadWaste.toList ++ m.metricFamilyEagerFallbacks.toList ++
    m.metricFamilyCaptureFailures.toList

/-- What a model holds, in the order in which its destructor gives it back. -/
def MetricState.handles (m : MetricState) : List Handle := m.metrics.map .metric ++ m.families.map .family

/-- `~ModelState`. -/
def destroy (fails : Nat → Option String) (h : Host) : Server :=
  h.state.handles.foldl (fun s handle => Server.logIfError (s.delete fails handle)) h.server

/-- A model from its creation on. -/
def Host.created (fails : Nat → Option String) (name : String) (enabledCudaGraph : Bool) : Host :=
  if enabledCudaGraph then initCudaGraphMetrics fails ⟨.fresh name, .fresh⟩ else ⟨.fresh name, .fresh⟩

end TritonAot
