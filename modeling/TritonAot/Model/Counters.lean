import TritonAot.Lib.Streams
import TritonAot.Model.Metrics
import TritonAot.Instance.Accounting

/-! The counters that a server exports.

An instance counts in `Metrics` and calls its model for each thing it counts (`Ran.metricCalls`);
the model increments the metric of that counter. Where no call fails, what the server exports is
the sum of what the instances counted, in whatever order the calls of the instances come, one at a
time (`exported_sum`). -/
namespace TritonAot

open Steps Streams

/-! ### Counters -/

/-- The counters of a model. -/
inductive Counter where
  | replays (bucket : Int)
  | padWaste (bucket : Int)
  | eagerFallbacks
  | captureFailures (bucket : Int)
  deriving DecidableEq

/-- The time series of a bucket. -/
def bucketSeries (family : String) (bucket : Int) : Series := (family, [("bucket", toString bucket)])

def Counter.series : Counter → Series
  | replays bucket => bucketSeries "cudagraph_replays_total" bucket
  | padWaste bucket => bucketSeries "cudagraph_pad_waste_rows_total" bucket
  | eagerFallbacks => ("cudagraph_eager_fallbacks_total", [])
  | captureFailures bucket => bucketSeries "cudagraph_capture_failures_total" bucket

def Metrics.read (m : Metrics) : Counter → Int
  | .replays bucket => m.replays bucket
  | .padWaste bucket => m.padWaste bucket
  | .eagerFallbacks => m.eagerFallbacks
  | .captureFailures bucket => m.captureFailures bucket

/-- What an instance counts when it makes a call. -/
def Metrics.count (m : Metrics) : MetricCall → Metrics
  | .replay bucket => m.replay bucket
  | .padWaste bucket rows => m.padWasteRows bucket rows
  | .eagerFallback => m.eagerFallback
  | .captureFailure bucket => m.captureFailure bucket

def MetricCall.counter : MetricCall → Counter
  | replay bucket => .replays bucket
  | padWaste bucket _ => .padWaste bucket
  | eagerFallback => .eagerFallbacks
  | captureFailure bucket => .captureFailures bucket

def MetricCall.amount : MetricCall → Int
  | padWaste _ rows => rows
  | _ => 1

theorem MetricCall.amount_of_le {r : Nat} {bucket : Int} (h : r ≤ bucket) :
    0 ≤ (MetricCall.padWaste bucket (padWasteRows r bucket)).amount := by
  rw [amount, padWasteRows_of_le h]
  omega

/-- What a call adds to a counter. -/
def MetricCall.adds (call : MetricCall) (c : Counter) : Int := if call.counter = c then call.amount else 0

theorem series_injective : Function.Injective Counter.series := by
  intro c c' h
  cases c <;> cases c' <;> simp_all [Counter.series, bucketSeries]

theorem read_count (m : Metrics) (call : MetricCall) (c : Counter) : (m.count call).read c = m.read c + call.adds c := by
  cases call with
  | replay bucket =>
    cases c with
    | replays b =>
      simp only [Metrics.count, Metrics.read, replays_replay, MetricCall.adds, MetricCall.counter, Counter.replays.injEq,
        MetricCall.amount]
      split <;> simp
    | _ => simp [Metrics.count, Metrics.read, Metrics.replay, MetricCall.adds, MetricCall.counter]
  | padWaste bucket rows =>
    cases c with
    | padWaste b =>
      simp [Metrics.count, Metrics.read, padWaste_padWasteRows, MetricCall.adds, MetricCall.counter, MetricCall.amount]
    | _ => simp [Metrics.count, Metrics.read, Metrics.padWasteRows, MetricCall.adds, MetricCall.counter]
  | eagerFallback =>
    cases c <;>
      simp [Metrics.count, Metrics.read, Metrics.eagerFallback, MetricCall.adds, MetricCall.counter, MetricCall.amount]
  | captureFailure bucket =>
    cases c with
    | captureFailures b =>
      by_cases hb : bucket = b
      · simp [Metrics.count, Metrics.read, Metrics.captureFailure, MetricCall.adds, MetricCall.counter, MetricCall.amount, hb]
      · simp [Metrics.count, Metrics.read, Metrics.captureFailure, MetricCall.adds, MetricCall.counter, hb, Ne.symm hb]
    | _ => simp [Metrics.count, Metrics.read, Metrics.captureFailure, MetricCall.adds, MetricCall.counter]

theorem read_foldl (m : Metrics) (calls : List MetricCall) (c : Counter) :
    (calls.foldl Metrics.count m).read c = m.read c + (calls.map (·.adds c)).sum := by
  induction calls generalizing m with
  | nil => simp
  | cons call rest ih =>
    simp only [List.foldl_cons, List.map_cons, List.sum_cons, ih, read_count]
    omega

/-! ### The server without failures -/

def noFailure : Nat → Option String := fun _ => none

/-- Where no call has failed, each member of a model holds what it is for. -/
structure Exporting (m : MetricState) : Prop where
  replays : ∃ f, m.metricFamilyReplays = some f ∧ f.name = "cudagraph_replays_total"
  padWaste : ∃ f, m.metricFamilyPadWaste = some f ∧ f.name = "cudagraph_pad_waste_rows_total"
  captureFailures : ∃ f, m.metricFamilyCaptureFailures = some f ∧ f.name = "cudagraph_capture_failures_total"
  eagerFallbacks : ∃ metric, m.metricEagerFallbacks = some metric ∧ metric.series = Counter.eagerFallbacks.series
  buckets : ∀ f b metric, ((f, b), metric) ∈ m.cudaGraphBucketMetrics →
    ∃ x, metric = some x ∧ x.series = bucketSeries f.name b

section Exporting
variable {h : Host}

theorem exporting_created (name : String) :
    Exporting (Host.created noFailure name true).state ∧ (Host.created noFailure name true).server.increments = [] := by
  refine ⟨⟨⟨_, rfl, rfl⟩, ⟨_, rfl, rfl⟩, ⟨_, rfl, rfl⟩, ⟨_, rfl, rfl⟩, ?_⟩, rfl⟩
  intro f b metric hmem
  cases hmem

theorem increments_increment (metric : Metric) (amount : Int) (h : Host) :
    let h' := increment noFailure (some metric) amount h
    h'.state = h.state ∧ h'.server.increments = h.server.increments ++ [(metric, amount)] := ⟨rfl, rfl⟩

/-- The metric of a bucket is there, or is made. -/
theorem exporting_getOrCreate (hexporting : Exporting h.state) (family : MetricFamily) (bucket : Int) :
    let got := getOrCreateBucketMetric noFailure (some family) bucket h
    (∃ x, got.1 = some x ∧ x.series = bucketSeries family.name bucket) ∧ Exporting got.2.state ∧
      got.2.server.increments = h.server.increments := by
  unfold getOrCreateBucketMetric
  simp only
  cases hlookup : h.state.cudaGraphBucketMetrics.lookup (family, bucket) with
  | some metric =>
    obtain ⟨l, l', hl, _⟩ := List.lookup_eq_some_iff.mp hlookup
    exact ⟨hexporting.buckets family bucket metric (by simp [hl]), hexporting, rfl⟩
  | none =>
    refine ⟨⟨_, rfl, rfl⟩, ⟨hexporting.replays, hexporting.padWaste, hexporting.captureFailures,
      hexporting.eagerFallbacks, ?_⟩, rfl⟩
    intro f b metric hmem
    rcases List.mem_append.mp hmem with hmem | hmem
    · exact hexporting.buckets f b metric hmem
    · cases List.mem_singleton.mp hmem
      exact ⟨_, rfl, rfl⟩

/-- A counter of a bucket is incremented at a metric of the bucket's series. -/
theorem increments_countAt (hexporting : Exporting h.state) {family : MetricFamily} {name : String}
    (hname : family.name = name) (bucket amount : Int) :
    let h' := countAt noFailure (some family) bucket amount h
    Exporting h'.state ∧ ∃ x, x.series = bucketSeries name bucket ∧
      h'.server.increments = h.server.increments ++ [(x, amount)] := by
  unfold countAt
  obtain ⟨⟨x, hx, hseries⟩, hstate, hsame⟩ := exporting_getOrCreate hexporting family bucket
  rw [hname] at hseries
  generalize getOrCreateBucketMetric noFailure (some family) bucket h = got at hx hstate hsame ⊢
  obtain ⟨metric, h'⟩ := got
  subst hx
  obtain ⟨hkept, hadded⟩ := increments_increment x amount h'
  exact ⟨hkept ▸ hstate, x, hseries, hadded.trans (congrArg (· ++ [(x, amount)]) hsame)⟩

/-- **A call increments a metric of its counter by its amount.** -/
theorem increments_make (hexporting : Exporting h.state) (call : MetricCall) :
    Exporting (h.make noFailure call).state ∧ ∃ x : Metric, x.series = call.counter.series ∧
      (h.make noFailure call).server.increments = h.server.increments ++ [(x, call.amount)] := by
  cases call with
  | replay bucket =>
    obtain ⟨f, hf, hname⟩ := hexporting.replays
    simp only [Host.make, cudaGraphMetricReplay, hf]
    exact increments_countAt hexporting hname bucket 1
  | padWaste bucket rows =>
    obtain ⟨f, hf, hname⟩ := hexporting.padWaste
    simp only [Host.make, cudaGraphMetricPadWaste, hf]
    exact increments_countAt hexporting hname bucket rows
  | eagerFallback =>
    obtain ⟨metric, hmetric, hseries⟩ := hexporting.eagerFallbacks
    obtain ⟨hkept, hadded⟩ := increments_increment metric 1 h
    simp only [Host.make, cudaGraphMetricEagerFallback, hmetric]
    exact ⟨hkept ▸ hexporting, metric, hseries, hadded⟩
  | captureFailure bucket =>
    obtain ⟨f, hf, hname⟩ := hexporting.captureFailures
    simp only [Host.make, cudaGraphMetricCaptureFailure, hf]
    exact increments_countAt hexporting hname bucket 1

theorem exported_foldl {exported : List (Metric × Int) → Series → Int} (hexports : Exports exported)
    (hexporting : Exporting h.state) {calls : List MetricCall} (hamounts : ∀ call ∈ calls, 0 ≤ call.amount) (c : Counter) :
    exported (calls.foldl (Host.make noFailure) h).server.increments c.series =
      exported h.server.increments c.series + (calls.map (·.adds c)).sum := by
  induction calls generalizing h with
  | nil => simp
  | cons call rest ih =>
    obtain ⟨hamount, hlater⟩ := List.forall_mem_cons.mp hamounts
    obtain ⟨hstate, x, hseries, hadded⟩ := increments_make hexporting call
    have hone : exported (h.make noFailure call).server.increments c.series =
        exported h.server.increments c.series + call.adds c := by
      rw [hadded, hexports.increment _ _ _ _ hamount, hseries, MetricCall.adds]
      simp only [series_injective.eq_iff]
    simp only [List.foldl_cons, List.map_cons, List.sum_cons, ih hstate hlater, hone]
    omega

end Exporting

/-! ### The calls of an instance -/

section Instance
variable {E : Type} [Scalars E]

def Event.metricCalls : Event E → List MetricCall
  | .capture bucket _ captured => if captured then [] else [.captureFailure bucket]
  | .evict => []
  | .replay x =>
    if x.returned then
      if x.bucket > x.r then [.replay x.bucket, .padWaste x.bucket (padWasteRows x.r x.bucket)] else [.replay x.bucket]
    else []

/-- Nothing is taken off a counter. -/
theorem Event.amounts (event : Event E) : ∀ call ∈ event.metricCalls, 0 ≤ call.amount := by
  intro call hcall
  cases event with
  | capture bucket inputs captured =>
    cases captured with
    | true => cases hcall
    | false =>
      rw [List.mem_singleton.mp hcall]
      exact Int.one_nonneg
  | evict => cases hcall
  | replay x =>
    simp only [metricCalls] at hcall
    split at hcall
    · split at hcall
      · rename_i hpads
        rcases List.mem_cons.mp hcall with rfl | hcall
        · exact Int.one_nonneg
        · rw [List.mem_singleton.mp hcall]
          exact MetricCall.amount_of_le hpads.le
      · rw [List.mem_singleton.mp hcall]
        exact Int.one_nonneg
    · cases hcall

def fallbackCalls : Except Fault Bool → List MetricCall
  | .ok false => [.eagerFallback]
  | _ => []

/-- The calls that `ExecuteWithCudaGraph` makes to the model, in order. -/
def Ran.metricCalls (ran : Ran E Bool) : List MetricCall :=
  ran.events.flatMap Event.metricCalls ++ fallbackCalls ran.value

/-- The calls of an instance: those of its warmup, and of the batches it serves. -/
def instanceCalls (cfg : Config E) (forward : List (Tensor E) → List (Tensor E)) (capture : Int → Option Bool)
    (calls : List (Call E)) : List MetricCall :=
  (warmupCudaGraphs cfg.toGraphConfig forward capture (.fresh E)).2.flatMap Event.metricCalls ++
    (graphCalls cfg forward (loaded cfg forward capture) calls).flatMap fun g => g.ran.metricCalls

theorem Ran.amounts (ran : Ran E Bool) : ∀ call ∈ ran.metricCalls, 0 ≤ call.amount := by
  intro call hcall
  rcases List.mem_append.mp hcall with h | h
  · obtain ⟨event, _, h⟩ := List.mem_flatMap.mp h
    exact event.amounts call h
  · unfold fallbackCalls at h
    split at h
    · rw [List.mem_singleton.mp h]
      decide
    · cases h

theorem instanceCalls_amounts (cfg : Config E) (forward : List (Tensor E) → List (Tensor E)) (capture : Int → Option Bool)
    (calls : List (Call E)) : ∀ call ∈ instanceCalls cfg forward capture calls, 0 ≤ call.amount := by
  intro call hcall
  rcases List.mem_append.mp hcall with h | h
  · obtain ⟨event, _, h⟩ := List.mem_flatMap.mp h
    exact event.amounts call h
  · obtain ⟨g, _, h⟩ := List.mem_flatMap.mp h
    exact g.ran.amounts call h

/-- The counters have moved by the calls. -/
def CountedBy (m : Metrics) (calls : List MetricCall) (m' : Metrics) : Prop := m' = calls.foldl Metrics.count m

theorem CountedBy.append {m m' m'' : Metrics} {l l' : List MetricCall} (h : CountedBy m l m') (h' : CountedBy m' l' m'') :
    CountedBy m (l ++ l') m'' := by
  rw [CountedBy, List.foldl_append, ← h]
  exact h'

/-- A call has counted what it called the model for. -/
def Reported (m : Metrics) (ran : Ran E Bool) : Prop := CountedBy m ran.metricCalls ran.state.metrics

theorem Reported.after {m m' : Metrics} {ran : Ran E Bool} {events : List (Event E)} (h : Reported m' ran)
    (hbefore : CountedBy m (events.flatMap Event.metricCalls) m') :
    Reported m {ran with events := events ++ ran.events} := by
  have hall := hbefore.append h
  rwa [Ran.metricCalls, ← List.append_assoc, ← List.flatMap_append] at hall

theorem fault_reported (f : Fault) (s : GraphState E) (outputs : List (Tensor E)) :
    Reported s.metrics (⟨.error f, s, outputs, []⟩ : Ran E Bool) := rfl

theorem eagerFallback_reported (s : GraphState E) (outputs : List (Tensor E)) :
    Reported s.metrics (eagerFallback s outputs []) := rfl

/-- The handler calls for a fallback where it returns. -/
theorem replayCaught_reported (f : Fault) (s : GraphState E) (outputs : List (Tensor E)) {events : List (Event E)}
    (hnone : events.flatMap Event.metricCalls = []) : Reported s.metrics (replayCaught f s outputs events) := by
  cases f <;> simp [Reported, CountedBy, Ran.metricCalls, replayCaught, fallbackCalls, hnone, Metrics.count]

theorem countedBy_replayMetrics (m : Metrics) (x : Replay E) (hx : x.returned = true) :
    CountedBy m (Event.replay x).metricCalls (replayMetrics x.r x.bucket m) := by
  unfold replayMetrics Event.metricCalls
  simp only [hx, if_true]
  split <;> rfl

theorem replay_reported (forward : List (Tensor E) → List (Tensor E)) (chance : Chance) (key : String)
    (r : Nat) (bucket : Int) (copyFrom : Option (List (Tensor E))) (s : GraphState E) (outputs : List (Tensor E)) :
    Reported s.metrics (replayCudaGraphEntry forward chance key r bucket copyFrom s outputs) := by
  unfold replayCudaGraphEntry
  split
  · exact fault_reported .undefined s outputs
  · rename_i e _
    split
    · exact replayCaught_reported _ s outputs rfl
    · split
      · rename_i f statics _
        exact replayCaught_reported f (s.setEntry key {e with staticInputs := statics}) outputs rfl
      · rename_i statics _
        split
        · rename_i f _
          exact replayCaught_reported f (s.setEntry key {e with staticInputs := statics}) outputs rfl
        · simp only
          split
          · exact replayCaught_reported _ (s.setEntry key ⟨statics, forward statics⟩) _ rfl
          · split
            · exact replayCaught_reported _ (s.setEntry key ⟨statics, forward statics⟩) _ rfl
            · have hreported := countedBy_replayMetrics s.metrics ⟨r, bucket, copyFrom, e.staticInputs, statics, true⟩ rfl
              simp only [Reported, Ran.metricCalls, fallbackCalls, List.flatMap_cons, List.flatMap_nil, List.append_nil]
              exact hreported

theorem Selects.countedBy {forward : List (Tensor E) → List (Tensor E)} {capture : Int → Bool}
    {pad : Int → Except Fault (List (Tensor E))} {inputs : List (Tensor E)} {r : Int} {cands : List Int}
    {s s' : GraphState E} {value : Except Fault (Option (Selected E))} {events : List (Event E)}
    (h : Selects forward capture pad inputs r cands s value s' events) :
    CountedBy s.metrics (events.flatMap Event.metricCalls) s'.metrics := by
  induction h with
  | exhausted | fault | cached | captured => rfl
  | failed _ _ ih => exact ih
  | missed _ _ _ _ _ ih => exact ih

theorem executeSlow_reported (cfg : GraphConfig) (forward : List (Tensor E) → List (Tensor E))
    (chance : Chance) (inputs : List (Tensor E)) (r : Nat) (s : GraphState E) (outputs : List (Tensor E)) :
    Reported s.metrics (executeSlow cfg forward chance inputs r s outputs) := by
  unfold executeSlow
  split
  · rename_i f s' events hsel
    have hran := (fault_reported f s' outputs).after (selects_selectBucket hsel).countedBy
    rwa [List.append_nil] at hran
  · rename_i s' events hsel
    have hran := (eagerFallback_reported s' outputs).after (selects_selectBucket hsel).countedBy
    simpa only [eagerFallback, List.append_nil] using hran
  · rename_i s' events hsel
    exact (replay_reported ..).after (selects_selectBucket hsel).countedBy

theorem executeFrom_reported (cfg : GraphConfig) (forward : List (Tensor E) → List (Tensor E))
    (chance : Chance) (inputs : List (Tensor E)) (r : Nat) (s : GraphState E) (outputs : List (Tensor E)) :
    Reported s.metrics (executeFrom cfg forward chance inputs r s outputs) := by
  unfold executeFrom
  split
  · exact replay_reported forward chance _ r _ none {s with prestagedEntry := none, prestagedBucket := -1} outputs
  · exact executeSlow_reported cfg forward chance inputs r s outputs

/-- **`ExecuteWithCudaGraph` calls the model for everything it counts.** -/
theorem executeWithCudaGraph_reported (cfg : GraphConfig) (forward : List (Tensor E) → List (Tensor E))
    (chance : Chance) (inputs : List (Tensor E)) (s : GraphState E) (outputs : List (Tensor E)) :
    Reported s.metrics (executeWithCudaGraph cfg forward chance inputs s outputs) := by
  unfold executeWithCudaGraph
  split
  · rename_i t0 t1 t2
    split
    · exact fault_reported _ s outputs
    · rename_i r _
      have hcheck : CountedBy s.metrics ((checkWarmupWidths cfg t0 t1 r s).2.flatMap Event.metricCalls)
          (checkWarmupWidths cfg t0 t1 r s).1.metrics := by
        rcases checkWarmupWidths_cases cfg t0 t1 r s with ⟨_, h⟩ | h
        · rw [h]
          rfl
        · rw [h]
          rfl
      exact (executeFrom_reported cfg forward chance [t0, t1, t2] r _ outputs).after hcheck
  · exact eagerFallback_reported s outputs

theorem slotsCall_reported {cfg : Config E} {forward : List (Tensor E) → List (Tensor E)} {chance : Chance}
    {tensors : List (Option (Tensor E))} {s : GraphState E} {g : GraphCall E}
    (h : slotsCall cfg forward chance tensors s = some g) : Reported g.before.metrics g.ran := by
  unfold slotsCall at h
  split at h
  · cases h
    exact executeWithCudaGraph_reported ..
  · cases h

theorem graphCall_reported {cfg : Config E} {forward : List (Tensor E) → List (Tensor E)} {chance : RequestChance}
    {requests : List (Option (Request E))} {s : GraphState E} {g : GraphCall E}
    (h : graphCall cfg forward chance requests s = some g) : Reported g.before.metrics g.ran := by
  unfold graphCall at h
  split at h
  · cases h
  · split at h
    · cases h
    · split at h
      · cases h
      · split at h
        · cases h
        · split at h
          · cases h
          · exact slotsCall_reported h

/-- The calls of a batch are those of the call of `ExecuteWithCudaGraph` that it makes. -/
theorem serves_countedBy {cfg : Config E} {forward : List (Tensor E) → List (Tensor E)} {s s' : GraphState E} {call : Call E}
    (h : Serves cfg forward s call s') :
    CountedBy s.metrics ((graphCall cfg forward call.chance call.requests s).toList.flatMap fun g => g.ran.metricCalls)
      s'.metrics := by
  obtain ⟨hserved, rfl⟩ := h
  have hleaves := processRequests_leaves hserved
  cases hg : graphCall cfg forward call.chance call.requests s with
  | none =>
    rw [hg] at hleaves
    exact hleaves.1
  | some g =>
    rw [hg] at hleaves
    obtain ⟨hbefore, hafter, _⟩ := hleaves
    have hreported := graphCall_reported hg
    rw [Reported, hbefore, ← hafter] at hreported
    simpa using hreported

theorem run_countedBy {cfg : Config E} {forward : List (Tensor E) → List (Tensor E)} {s t : GraphState E}
    {calls : List (Call E)} (h : Run (Serves cfg forward) s calls t) :
    CountedBy s.metrics ((graphCalls cfg forward s calls).flatMap fun g => g.ran.metricCalls) t.metrics := by
  induction h with
  | nil s => rfl
  | cons hserves _ ih =>
    rw [hserves.2] at ih
    have hfirst := serves_countedBy hserves
    rw [hserves.2] at hfirst
    rw [graphCalls, List.flatMap_append]
    exact hfirst.append ih

theorem warmupFrom_countedBy (forward : List (Tensor E) → List (Tensor E)) (capture : Int → Option Bool) (single multi : Int)
    (buckets : List Int) (s : GraphState E) :
    CountedBy s.metrics ((warmupFrom forward capture single multi buckets s).2.flatMap Event.metricCalls)
      (warmupFrom forward capture single multi buckets s).1.metrics := by
  induction buckets generalizing s with
  | nil => rfl
  | cons bucket rest ih =>
    rw [warmupFrom]
    split
    · rename_i inputs captured _ _
      have hcapture : CountedBy s.metrics (Event.capture bucket inputs captured : Event E).metricCalls
          (captureBucket forward captured inputs bucket s).2.metrics := by
        cases captured <;> rfl
      have hall := hcapture.append (ih _)
      simpa using hall
    · exact ih s

/-- **An instance calls its model for everything it counts**, from its warmup on. -/
theorem instance_countedBy {cfg : Config E} {forward : List (Tensor E) → List (Tensor E)} {capture : Int → Option Bool}
    {calls : List (Call E)} {s : GraphState E} (h : Run (Serves cfg forward) (loaded cfg forward capture) calls s) :
    CountedBy (GraphState.fresh E).metrics (instanceCalls cfg forward capture calls) s.metrics := by
  have hwarmup : CountedBy (GraphState.fresh E).metrics
      ((warmupCudaGraphs cfg.toGraphConfig forward capture (.fresh E)).2.flatMap Event.metricCalls)
      (loaded cfg forward capture).metrics := by
    unfold loaded warmupCudaGraphs
    split
    · exact warmupFrom_countedBy ..
    · rfl
  exact hwarmup.append (run_countedBy h)

end Instance

/-- **The server exports what the instances counted.** Any number of instances of a model serve their
own runs, from any warmup on, and the calls they make to the model come in any order that keeps each
instance's own. Then every time series is the sum of that counter over the instances. -/
theorem exported_sum {exported : List (Metric × Int) → Series → Int} (hexports : Exports exported) {E : Type}
    [Scalars E] {I : Type} [Fintype I] [DecidableEq I] {cfg : I → Config E}
    {forward : I → List (Tensor E) → List (Tensor E)} {capture : I → Int → Option Bool} {calls : I → List (Call E)}
    {s : I → GraphState E}
    (hrun : ∀ i, Run (Serves (cfg i) (forward i)) (loaded (cfg i) (forward i) (capture i)) (calls i) (s i))
    {order : List (I × MetricCall)}
    (horder : ∀ i, project i order = instanceCalls (cfg i) (forward i) (capture i) (calls i)) (name : String) (c : Counter) :
    exported ((order.map Prod.snd).foldl (Host.make noFailure) (Host.created noFailure name true)).server.increments
      c.series = ∑ i, (s i).metrics.read c := by
  obtain ⟨hexporting, hnothing⟩ := exporting_created name
  have hamounts : ∀ call ∈ order.map Prod.snd, 0 ≤ call.amount := by
    intro call hcall
    obtain ⟨⟨i, _⟩, hmem, rfl⟩ := List.mem_map.mp hcall
    refine instanceCalls_amounts (cfg i) (forward i) (capture i) (calls i) _ ?_
    rw [← horder i]
    exact List.mem_map.mpr ⟨_, List.mem_filter.mpr ⟨hmem, decide_eq_true rfl⟩, rfl⟩
  rw [exported_foldl hexports hexporting hamounts, hnothing, hexports.nothing, Int.zero_add, List.map_map]
  have hcounted : ∀ i, (s i).metrics.read c = ((project i order).map (·.adds c)).sum := by
    intro i
    have hfresh : (GraphState.fresh E).metrics.read c = 0 := by cases c <;> rfl
    rw [horder i, instance_countedBy (hrun i), read_foldl, hfresh, Int.zero_add]
  simp only [hcounted]
  exact (sum_project (fun call : MetricCall => call.adds c) order).symm

/-- The increments of each series, summed. -/
def seriesTotal (taken : List (Metric × Int)) (series : Series) : Int :=
  (taken.map fun one => if one.1.series = series then one.2 else 0).sum

theorem exports_seriesTotal : Exports seriesTotal where
  nothing _ := rfl
  increment taken metric amount series _ := by simp [seriesTotal]

/-- Two instances replay one request each at the bucket of two and fall back with the next, their
calls interleaved. -/
theorem exported_sum_warm : ∃ order : List (Bool × MetricCall),
    let exported := seriesTotal
      ((order.map Prod.snd).foldl (Host.make noFailure) (Host.created noFailure "model" true)).server.increments
    (∀ i, project i order = [.replay 2, .padWaste 2 1, .eagerFallback]) ∧
      exported ("cudagraph_replays_total", [("bucket", "2")]) = 2 ∧ exported ("cudagraph_eager_fallbacks_total", []) = 2 := by
  have hserved : serveAll warmPackedConfig id (loaded warmPackedConfig id fun _ => some true)
    [(.smooth, [some (packedRequest 1 1 1)]), (launchFails, [some (packedRequest 1 1 1)])] = .ok (_, _) := rfl
  let order : List (Bool × MetricCall) := [(false, .replay 2), (true, .replay 2), (true, .padWaste 2 1),
    (false, .padWaste 2 1), (false, .eagerFallback), (true, .eagerFallback)]
  have horder : ∀ i, project i order = [.replay 2, .padWaste 2 1, .eagerFallback] := by
    intro i
    cases i <;> rfl
  have hsum := @exported_sum _ exports_seriesTotal Int _ Bool _ _ (fun _ => warmPackedConfig) (fun _ => id)
    (fun _ _ => true) _ _ (fun _ => serveAll_run hserved) order (fun i => (horder i).trans rfl) "model"
  exact ⟨order, horder, (hsum (.replays 2)).trans rfl, (hsum .eagerFallbacks).trans rfl⟩

end TritonAot
