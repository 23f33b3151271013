import TritonAot.Instance.Device

/-! The warmup on a device.

`WarmupCudaGraphs` creates the tensors of a bucket on the stream that is current while the model
loads, and `CaptureBucket` clones them on a stream of the pool, behind no event. The default
stream orders itself with the streams that block, and the instance's is one; those of the pool do
not block. So a device may complete every clone before the tensors are written, and a first batch
that is prestaged is answered from what their buffers held before, wherever it does not fill a
static input itself (`warmup_unordered`). -/
namespace TritonAot

open Streams

/-! ### Clones before what they copy -/

section Clones
variable {K S D : Type} [DecidableEq K]

/-- What a warmup does: it creates tensors, each time where those before were, and captures
buckets at them. -/
inductive Routine.Warms : Routine K D → Prop where
  | create (tensors : List D) : Warms (.create tensors)
  | capture (key : K) (n : Nat) (thrown : Option Nat) :
      Warms (.captureBucket key ((List.range n).map .created) thrown)

/-- The graph a routine captures. -/
def Routine.captures : Routine K D → Option K
  | .captureBucket key _ _ => some key
  | _ => none

/-- Handed to another stream than the one that is current at load. -/
def beyondLoading (op : DeviceOp K D) : Bool := decide (op.port ≠ .loading)

variable {arity : Nat} {graph : K → List D → Nat → D} {stream : Port K → S} {blocking : Set S} {op : DeviceOp K D}
  {routines : List (Routine K D)} {m : Memory K D}

theorem port_capture {key : K} {sources : List (Buffer K)} {thrown : Option Nat} {n : Nat}
    (h : op ∈ (Routine.captureBucket key sources thrown).issue arity graph n) : op.port = .graph key := by
  rcases entry_captureOps (mem_of_take h) with rfl | ⟨_, rfl, _⟩ <;> rfl

/-- What a warmup issues on the stream that is current stores what it creates, the rest is on the
streams of graphs. -/
theorem warms_issue {replay : Nat} (h : ∀ routine ∈ routines, routine.Warms)
    (hop : op ∈ issueFrom arity graph replay routines) :
    (∃ i d, op = .work .loading (.store (.created i) d)) ∨ ∃ key, op.port = .graph key := by
  obtain ⟨routine, hroutine, n, hop⟩ := mem_issueFrom hop
  cases h routine hroutine with
  | create tensors => exact .inl (mem_storesFrom hop)
  | capture key count thrown => exact .inr ⟨key, port_capture hop⟩

/-- What it issues beyond that stream are its captures. -/
theorem filter_beyondLoading (h : ∀ routine ∈ routines, routine.Warms) (replay n : Nat) :
    (issueFrom arity graph replay routines).filter beyondLoading =
      issueFrom arity graph n (routines.filter fun routine => routine.captures.isSome) := by
  induction routines generalizing replay n with
  | nil => rfl
  | cons routine rest ih =>
    obtain ⟨hfirst, hrest⟩ := List.forall_mem_cons.mp h
    rw [issueFrom, List.filter_append]
    cases hfirst with
    | create tensors =>
      have hcreate : ((Routine.create tensors : Routine K D).issue arity graph replay).filter beyondLoading = [] := by
        apply List.filter_eq_nil_iff.mpr
        intro op hop
        obtain ⟨_, _, rfl⟩ := mem_storesFrom hop
        simp [beyondLoading, Op.port]
      rw [hcreate, List.nil_append]
      exact ih hrest _ n
    | capture key count thrown =>
      let capture : Routine K D := .captureBucket key ((List.range count).map .created) thrown
      have hcapture : (capture.issue arity graph replay).filter beyondLoading = capture.issue arity graph replay := by
        apply List.filter_eq_self.mpr
        intro op hop
        simp [beyondLoading, port_capture hop]
      rw [hcapture, ih hrest _ (n + 1)]
      rfl

/-- Every clone of captures in turn takes what its buffer holds at their start. -/
theorem clones_captures (h : ∀ routine ∈ routines, routine.Warms) (hkeys : (routines.filterMap Routine.captures).Nodup)
    {key : K} {n : Nat} (hcapture : .captureBucket key ((List.range n).map .created) none ∈ routines) {i : Nat}
    (hi : i < n) (replay : Nat) :
    runOps (issueFrom arity graph replay (routines.filter fun routine => routine.captures.isSome)) m
      (.staticInput key i) = m (.created i) := by
  induction routines generalizing m replay with
  | nil => cases hcapture
  | cons routine rest ih =>
    obtain ⟨hfirst, hrest⟩ := List.forall_mem_cons.mp h
    cases hfirst with
    | create tensors =>
      rcases List.mem_cons.mp hcapture with heq | hcapture
      · cases heq
      · exact ih hrest hkeys hcapture replay
    | capture key' count thrown =>
      obtain ⟨hnot, hkeys⟩ := List.nodup_cons.mp hkeys
      show runOps ((Routine.captureBucket key' ((List.range count).map .created) thrown).issue arity graph replay ++
        issueFrom arity graph (replay + 1) (rest.filter fun routine => routine.captures.isSome)) m _ = _
      rw [runOps_append]
      rcases List.mem_cons.mp hcapture with heq | hcapture
      · obtain ⟨rfl, _, _⟩ := Routine.captureBucket.inj heq
        rw [← heq, issueFrom_frame]
        · have hsource : ((List.range n).map .created)[i]? = some (Buffer.created i : Buffer K) := by simp [hi]
          exact runOps_clones m hsource fun j h => by cases h
        · intro later hlater hwrites
          obtain ⟨hlater, _⟩ := List.mem_filter.mp hlater
          apply hnot
          apply List.mem_filterMap.mpr
          refine ⟨later, hlater, ?_⟩
          cases hrest later hlater with
          | create => cases hwrites with | intro _ h => cases h
          | capture => exact hwrites.symm
      · rw [ih hrest hkeys hcapture (replay + 1)]
        apply issue_frame
        rintro ⟨⟩

/-- **Any number of buckets may be captured before their tensors are written**, and what is issued
behind the warmup be completed in turn. -/
theorem captures_first (hgraph : ∀ key, stream (.graph key) ≠ stream .loading ∧ stream (.graph key) ∉ blocking)
    (h : ∀ routine ∈ routines, routine.Warms) (hkeys : (routines.filterMap Routine.captures).Nodup)
    (routines' : List (Routine K D)) (m : Memory K D) :
    ∃ m₁, Completes (Op.BlocksWith stream (stream .loading) blocking) Op.act
        (issueFrom arity graph 0 (routines ++ routines')) m (runOps (issueFrom arity graph 0 routines') m₁) ∧
      ∀ key n, .captureBucket key ((List.range n).map .created) none ∈ routines →
        ∀ i < n, m₁ (.staticInput key i) = m (.created i) := by
  let warmed := issueFrom arity graph 0 routines
  let captured := runOps (warmed.filter beyondLoading) m
  refine ⟨runOps (warmed.filter (!beyondLoading ·)) captured, ?_, ?_⟩
  · rw [issueFrom_append, runOps_issueFrom 0 (0 + routines.length), ← runOps_append]
    apply Completes.first beyondLoading []
    · intro a ha hloading b hb hbeyond hblocks
      rcases warms_issue h ha with ⟨_, _, rfl⟩ | ⟨key, hport⟩
      · rcases warms_issue h hb with ⟨_, _, rfl⟩ | ⟨key, hport⟩
        · simp [beyondLoading, Op.port] at hbeyond
        · have hmet := hblocks.port rfl
          rw [hport] at hmet
          exact hmet.elim (hgraph key).1 (hgraph key).2
      · simp [beyondLoading, hport] at hloading
    · exact fun _ h => by cases h
    · exact completes_foldl _ _
  · intro key n hcapture i hi
    rw [runOps_frame]
    · show runOps (warmed.filter beyondLoading) m _ = _
      rw [filter_beyondLoading h 0 0]
      exact clones_captures h hkeys hcapture hi 0
    · intro port w hw hmem
      obtain ⟨hw, hloading⟩ := List.mem_filter.mp hw
      rcases warms_issue h hw with ⟨_, _, heq⟩ | ⟨key, hport⟩
      · cases heq
        cases hmem
      · simp [beyondLoading, hport] at hloading

/-- A batch that is prestaged and launched is answered with what the graph makes of the static inputs,
where it fills them and where it does not. -/
theorem delivers_prestaged {key : K} {fills : List (Nat × D)} {synced read : Bool}
    {outputs : List (Buffer K × (D → D))} {batch j i : Nat} {view : D → D}
    (hj : outputs[j]? = some (.staticOutput key i, view)) (replay : Nat) :
    runOps (issueFrom arity graph replay [.prestage key fills synced, .replayCudaGraphEntry key [] none,
      .readOutputTensors batch outputs read]) m (.response batch j) =
    view (graph key ((List.range arity).map (filled fills fun i => m (.staticInput key i))) i) := by
  let staged := runOps (stores .own (.staticInput key) fills ++ drained synced) m
  have hstaged : (staticInputs arity key).map staged =
      (List.range arity).map (filled fills fun i => m (.staticInput key i)) := by
    have hinj : Function.Injective (Buffer.staticInput key) := fun _ _ h => by cases h; rfl
    rw [staticInputs, List.map_map, ← @runOps_fills _ _ _ .own _ hinj fills m]
    apply List.map_congr_left
    intro i _
    simp only [staged, Function.comp_apply, runOps_append, runOps_drained]
  let launched := runOps ((Routine.replayCudaGraphEntry key [] none).issue arity graph (replay + 1)) staged
  have hlaunched : launched (.staticOutput key i) =
      graph key ((List.range arity).map (filled fills fun i => m (.staticInput key i))) i := by
    rw [← hstaged]
    exact launch_output key staged i
  have hread : runOps (copiesFrom .own (.response batch) 0 outputs) launched (.response batch j) =
      view (launched (.staticOutput key i)) := by
    have hinj : Function.Injective (Buffer.response batch : Nat → Buffer K) := fun _ _ h => by cases h; rfl
    have hcopied := runOps_copies .own hinj 0 launched hj fun _ h => by cases h
    rwa [Nat.zero_add] at hcopied
  rw [← hlaunched, ← hread]
  simp only [issueFrom, Routine.issue, List.append_nil, runOps_append, runOps_drained, launched, staged]

end Clones

/-! ### What a load issues -/

variable {E : Type} [Scalars E]

/-- A bucket of `WarmupCudaGraphs`. Where its tensors cannot be allocated, `issued` of them are created;
a capture that fails has issued as many ops. -/
def bucketIssues (capture : Int → Option Bool) (issued : Int → Nat) (singleWidth multiWidth bucket : Int) :
    List (Routine GraphKey (List E)) :=
  match (warmupInputs bucket singleWidth multiWidth : Except Fault (List (Tensor E))) with
  | .error _ => []
  | .ok inputs =>
    match capture bucket with
    | none => [.create ((inputs.map Tensor.data).take (issued bucket))]
    | some captured =>
      [.create (inputs.map Tensor.data),
        .captureBucket (bucketKey bucket, inputs.map Tensor.info) ((List.range inputs.length).map .created)
          (if captured then none else some (issued bucket))]

/-- `WarmupCudaGraphs`. -/
def warmupIssues (cfg : GraphConfig) (capture : Int → Option Bool) (issued : Int → Nat) :
    List (Routine GraphKey (List E)) :=
  if cfg.enabledCudaGraph && !cfg.deviceIsCpu && decide (0 < cfg.cudaGraphWarmupSingleWidth) &&
      decide (0 < cfg.cudaGraphWarmupMultiWidth) && !cfg.cudaGraphBatchSizes.sizes.isEmpty then
    cfg.cudaGraphBatchSizes.sizes.flatMap
      (bucketIssues capture issued cfg.cudaGraphWarmupSingleWidth cfg.cudaGraphWarmupMultiWidth)
  else []

section Load
variable {capture : Int → Option Bool} {issued : Int → Nat} {singleWidth multiWidth : Int} {cfg : GraphConfig}

theorem mem_bucketIssues {bucket : Int} {routine : Routine GraphKey (List E)}
    (h : routine ∈ bucketIssues capture issued singleWidth multiWidth bucket) :
    routine.Warms ∧ ∀ key, routine.captures = some key → key.1 = bucketKey bucket := by
  unfold bucketIssues at h
  split at h
  · cases h
  · split at h
    · rw [List.mem_singleton.mp h]
      exact ⟨.create _, fun _ h => by cases h⟩
    · simp only [List.mem_cons, List.not_mem_nil, or_false] at h
      rcases h with rfl | rfl
      · exact ⟨.create _, fun _ h => by cases h⟩
      · exact ⟨.capture .., fun _ h => by cases h; rfl⟩

theorem nodup_bucketIssues (bucket : Int) :
    ((bucketIssues capture issued singleWidth multiWidth bucket : List (Routine GraphKey (List E))).filterMap
      Routine.captures).Nodup := by
  unfold bucketIssues
  split
  · exact List.nodup_nil
  · split
    · exact List.nodup_nil
    · exact List.nodup_singleton _

theorem warms_warmupIssues {routine : Routine GraphKey (List E)} (h : routine ∈ warmupIssues cfg capture issued) :
    routine.Warms := by
  unfold warmupIssues at h
  split at h
  · obtain ⟨bucket, _, h⟩ := List.mem_flatMap.mp h
    exact (mem_bucketIssues h).1
  · cases h

/-- No graph is captured twice at load. -/
theorem nodup_warmupIssues :
    ((warmupIssues cfg capture issued : List (Routine GraphKey (List E))).filterMap Routine.captures).Nodup := by
  unfold warmupIssues
  split
  · rw [List.filterMap_flatMap]
    apply List.nodup_flatMap.mpr
    refine ⟨fun bucket _ => nodup_bucketIssues bucket, ?_⟩
    apply cfg.cudaGraphBatchSizes.ascending.imp
    intro bucket bucket' hlt key hkey hkey'
    obtain ⟨_, hmem, hcaptures⟩ := List.mem_filterMap.mp hkey
    obtain ⟨_, hmem', hcaptures'⟩ := List.mem_filterMap.mp hkey'
    have hsame := ((mem_bucketIssues hmem).2 key hcaptures).symm.trans ((mem_bucketIssues hmem').2 key hcaptures')
    exact absurd (bucketKey_inj.mp hsame) hlt.ne
  · exact List.nodup_nil

theorem captured_warmupFrom {forward : List (Tensor E) → List (Tensor E)} {buckets : List Int} {s : GraphState E}
    {key : String} {e : CudaGraphEntry E}
    (h : (warmupFrom forward capture singleWidth multiWidth buckets s).1.cudaGraphCache.lookup key = some e) :
    s.cudaGraphCache.lookup key = some e ∨ Routine.captureBucket (e.graphKey key) ((List.range 3).map .created) none ∈
      (buckets.flatMap (bucketIssues capture issued singleWidth multiWidth) : List (Routine GraphKey (List E))) := by
  induction buckets generalizing s with
  | nil => exact .inl h
  | cons bucket rest ih =>
    rw [List.flatMap_cons]
    rw [warmupFrom] at h
    split at h
    · rename_i inputs captured hinputs hcaptured
      rcases ih h with hhere | hlater
      · cases captured with
        | false => exact .inl hhere
        | true =>
          refine (lookup_emplace_some hhere).imp_right ?_
          rintro ⟨rfl, rfl⟩
          apply List.mem_append_left
          have hlength := warmupInputs_length hinputs
          simp [bucketIssues, hinputs, hcaptured, CudaGraphEntry.graphKey, hlength]
      · exact .inr (List.mem_append_right _ hlater)
    · exact (ih h).imp_right (List.mem_append_right _)

/-- Every entry of a loaded instance was captured from the tensors of its bucket. -/
theorem captured_loaded {cfg : Config E} {forward : List (Tensor E) → List (Tensor E)} {key : String}
    {e : CudaGraphEntry E} (h : (loaded cfg forward capture).cudaGraphCache.lookup key = some e) :
    Routine.captureBucket (e.graphKey key) ((List.range 3).map .created) none ∈
      (warmupIssues cfg.toGraphConfig capture issued : List (Routine GraphKey (List E))) := by
  unfold loaded warmupCudaGraphs at h
  unfold warmupIssues
  split at h
  · rename_i hon
    rw [if_pos hon]
    exact (captured_warmupFrom h).resolve_left fun h => by cases h
  · cases h

end Load

/-! ### What a call issues -/

/-- The routines of `Execute`. -/
def Routine.executes {K D : Type} : Routine K D → Bool
  | .padRequestsUp _ | .captureBucket .. | .replayCudaGraphEntry .. | .run .. => true
  | _ => false

/-- What a call may issue. -/
inductive Routine.OfCall (batch : Nat) (s : GraphState E) : Routine GraphKey (List E) → Prop where
  | collect (fills : List (Nat × List E)) (synced : Bool) : OfCall batch s (.collect fills synced)
  | prestage {key : String} {e : CudaGraphEntry E} (he : s.cudaGraphCache.lookup key = some e)
      (fills : List (Nat × List E)) (synced : Bool) : OfCall batch s (.prestage (e.graphKey key) fills synced)
  | execute {routine : Routine GraphKey (List E)} (h : routine.executes = true) : OfCall batch s routine
  | read (outputs : List (Source E)) (synced : Bool) : OfCall batch s (.readOutputTensors batch outputs synced)

section Call
variable {cfg : Config E} {forward : List (Tensor E) → List (Tensor E)} {chance : RequestChance} {device : DeviceChance}
  {batch total : Nat} {s : GraphState E} {routine : Routine GraphKey (List E)}

theorem executes_padIssues {alloc : Int → Nat → Option String} {inputs : List (Tensor E)} {r : Nat} {cand : Int}
    (h : routine ∈ padIssues alloc inputs r cand) : routine.executes = true := by
  unfold padIssues at h
  split at h
  · cases h
  · split at h
    · cases h
    · rw [List.mem_singleton.mp h]
      rfl

theorem executes_selectIssues {chance : Chance} {issued : Int → Nat} {inputs : List (Tensor E)} {r : Nat}
    {cands : List Int} (h : routine ∈ selectIssues chance issued inputs r cands s) : routine.executes = true := by
  induction cands generalizing s with
  | nil => cases h
  | cons cand rest ih =>
    rw [selectIssues] at h
    split at h
    · exact ih h
    · rcases List.mem_append.mp h with h | h
      · exact executes_padIssues h
      · split at h
        · cases h
        · split at h
          · cases h
          · rcases List.mem_cons.mp h with rfl | h
            · rfl
            · split at h
              · cases h
              · exact ih h

theorem executes_eagerIssues {chance : Chance} {sources : List (Source E)} {inputs : List (Tensor E)}
    (h : routine ∈ eagerIssues forward chance sources inputs) : routine.executes = true := by
  unfold eagerIssues at h
  split at h
  · cases h
  · rw [List.mem_singleton.mp h]
    rfl

theorem executes_graphIssues {cfg : GraphConfig} {chance : Chance} {issued : Int → Nat} {inputs : List (Tensor E)}
    (h : routine ∈ graphIssues cfg forward chance issued inputs s) : routine.executes = true := by
  unfold graphIssues at h
  split at h
  · split at h
    · cases h
    · rcases List.mem_append.mp h with h | h
      · split at h
        · exact executes_selectIssues h
        · cases h
      · generalize attemptedFrom cfg forward chance _ _ _ = a at h
        cases a with
        | none => cases h
        | some a =>
          rw [Option.elim_some, Attempt.issues] at h
          split at h
          · cases h
          · rw [List.mem_singleton.mp h]
            rfl
  · cases h

theorem executes_executeIssues {cfg : GraphConfig} {chance : Chance} {issued : Int → Nat} {sources : List (Source E)}
    {inputs : List (Tensor E)} (h : routine ∈ executeIssues cfg forward chance issued sources inputs s) :
    routine.executes = true := by
  unfold executeIssues at h
  split at h
  · rcases List.mem_append.mp h with h | h
    · exact executes_graphIssues h
    · split at h
      · exact executes_eagerIssues h
      · cases h
  · exact executes_eagerIssues h

theorem ofCall_modelIssues {v : Serving E} (h : routine ∈ modelIssues cfg forward chance device batch total v) :
    routine.OfCall batch s := by
  unfold modelIssues at h
  split at h
  · cases h
  · rcases List.mem_append.mp h with h | h
    · exact .execute (executes_executeIssues h)
    · split at h
      · cases h
      · rw [List.mem_singleton.mp h]
        exact .read ..

theorem ofCall_collectIssues {chance : InputChance} {requests : List (Request E)} {s s' : GraphState E}
    (hcache : s'.cudaGraphCache = s.cudaGraphCache) {c : Collecting E} {synced : Bool}
    (h : routine ∈ collectIssues cfg chance total requests s' c synced) : routine.OfCall batch s := by
  unfold collectIssues at h
  split at h
  · cases h
  · cases h
  · split at h
    · split at h
      · cases h
      · rename_i declared _ decided hdecide
        have hkept : decided.cudaGraphCache = s.cudaGraphCache := by
          rw [← hcache]
          rcases decidePrestage_ok hdecide with ⟨_, rfl | rfl⟩ | ⟨rfl, _⟩ <;> rfl
        unfold stagedIssues at h
        split at h
        · rw [List.mem_singleton.mp h]
          exact .collect ..
        · split at h
          · cases h
          · rename_i e he
            rw [List.mem_singleton.mp h]
            exact .prestage (hkept ▸ he) ..
    · cases h

theorem ofCall_requestIssues {requests : List (Option (Request E))}
    (h : routine ∈ requestIssues cfg forward chance device batch requests s) : routine.OfCall batch s := by
  unfold requestIssues at h
  split at h
  · cases h
  · split at h
    · cases h
    · split at h
      · cases h
      · unfold serveIssues at h
        rcases List.mem_append.mp h with h | h
        · unfold inputIssues at h
          dsimp only at h
          split at h
          · cases h
          · split at h
            · cases h
            · exact ofCall_collectIssues (prestage_cache ..) h
        · split at h
          · cases h
          · split at h
            · cases h
            · exact ofCall_modelIssues h

/-- A call writes only into its own responses. -/
theorem Routine.OfCall.response (h : routine.OfCall batch s) {b j : Nat} (hwrites : routine.Writes (.response b j)) :
    b = batch := by
  cases h with
  | collect | prestage =>
    obtain ⟨_, h⟩ := hwrites
    cases h
  | execute h =>
    cases routine with
    | padRequestsUp | run =>
      obtain ⟨_, h⟩ := hwrites
      cases h
    | captureBucket | replayCudaGraphEntry => cases hwrites
    | _ => cases h
  | read =>
    obtain ⟨_, h⟩ := hwrites
    cases h
    rfl

theorem response_callIssues {device : Nat → DeviceChance} {calls : List (Call E)}
    (h : routine ∈ callIssues cfg forward device batch s calls) {b j : Nat} (hwrites : routine.Writes (.response b j)) :
    batch ≤ b := by
  induction calls generalizing batch s with
  | nil => cases h
  | cons call rest ih =>
    rcases List.mem_append.mp h with h | h
    · exact ((ofCall_requestIssues h).response hwrites).ge
    · have := ih h
      omega

end Call

/-! ### What the first batch is answered with -/

/-- **The clones of the warmup are not ordered behind what they copy.** Whatever buckets are captured at
load, and even where the stream that is current then orders itself with those that block: a first batch
that is prestaged and launched may be answered, in every response that is read from the graph, with
what the graph makes of the buffers of the warmup's tensors as they were before these were written, wherever
the batch fills no static input. -/
theorem warmup_unordered {S : Type} {stream : Port GraphKey → S} {blocking : Set S}
    (hgraph : ∀ key, stream (.graph key) ≠ stream .loading ∧ stream (.graph key) ∉ blocking) {cfg : Config E}
    {forward : List (Tensor E) → List (Tensor E)} {capture : Int → Option Bool} {issued : Int → Nat}
    {device : Nat → DeviceChance} {call : Call E} {key : GraphKey} {fills : List (Nat × List E)} {synced read : Bool}
    {outputs : List (Source E)}
    (hcall : requestIssues cfg forward call.chance (device 0) 0 call.requests (loaded cfg forward capture) =
      [.prestage key fills synced, .replayCudaGraphEntry key [] none, .readOutputTensors 0 outputs read])
    (rest : List (Call E)) (m : Memory GraphKey (List E)) :
    ∃ m', Completes (Op.BlocksWith stream (stream .loading) blocking) Op.act
        (issueFrom 3 (graphOn forward) 0 (warmupIssues cfg.toGraphConfig capture issued ++
          callIssues cfg forward device 0 (loaded cfg forward capture) (call :: rest))) m m' ∧
      ∀ j i view, outputs[j]? = some (.staticOutput key i, view) →
        m' (.response 0 j) = view (graphOn forward key ((List.range 3).map (filled fills fun i => m (.created i))) i) := by
  have hwarms : ∀ routine ∈ (warmupIssues cfg.toGraphConfig capture issued : List (Routine GraphKey (List E))),
      routine.Warms := fun _ h => warms_warmupIssues h
  obtain ⟨m₁, hcompletes, hclones⟩ := @captures_first GraphKey S (List E) _ 3 (graphOn forward) stream blocking _ hgraph
    hwarms nodup_warmupIssues (callIssues cfg forward device 0 (loaded cfg forward capture) (call :: rest)) m
  refine ⟨_, hcompletes, ?_⟩
  intro j i view hj
  -- The bucket is one that the warmup captured.
  have hstatics : ∀ i < 3, m₁ (.staticInput key i) = m (.created i) := by
    have hmem : .prestage key fills synced ∈
        requestIssues cfg forward call.chance (device 0) 0 call.requests (loaded cfg forward capture) := by
      rw [hcall]
      exact List.mem_cons_self ..
    cases ofCall_requestIssues hmem with
    | prestage he => exact hclones _ 3 (captured_loaded he)
    | execute h => cases h
  rw [callIssues, issueFrom_append, runOps_append, issueFrom_frame, hcall]
  · rw [delivers_prestaged hj]
    congr 2
    apply List.map_congr_left
    intro i hi
    exact filled_congr (hstatics i (List.mem_range.mp hi))
  · intro routine hroutine hwrites
    have := response_callIssues hroutine hwrites
    omega

/-- The output is where the requests end. -/
def endsOf (inputs : List (Tensor Int)) : List (Tensor Int) :=
  (inputs.drop 2).map fun t => .ofValues .long .cuda t.shape t.data t.size_eq

/-- Two buckets are captured at load, and the model answers each request with where it ends. -/
def endingPairConfig : Config Int :=
  {packedConfig ⟨[2, 4], pairwise_two_four⟩ with
    cudaGraphWarmupSingleWidth := 1
    cudaGraphWarmupMultiWidth := 1
    modelOutputs := ⟨[⟨"ENDS__0", 0, -1⟩], List.pairwise_singleton ..⟩
    outputDtypeMap := fun _ => .int64}

def endingLoaded : GraphState Int := loaded endingPairConfig endsOf fun _ => some true

/-- Two requests of one element. -/
def firstPair : List (Option (Request Int)) := [some (packedRequest 1 1 1), some (packedRequest 1 1 1)]

def firstCall : Call Int :=
  ⟨.smooth, firstPair,
    match processRequests endingPairConfig endsOf .smooth firstPair endingLoaded with
    | .ok served => served
    | .error _ => respondWithError 0 (nullRequestError endingPairConfig) endingLoaded⟩

/-- What is issued for the load, and for the first call. -/
def issuedWarm : List (DeviceOp GraphKey (List Int)) :=
  issueFrom 3 (graphOn endsOf) 0 (warmupIssues endingPairConfig.toGraphConfig (fun _ => some true) (fun _ => 0) ++
    callIssues endingPairConfig endsOf (fun _ => ⟨fun _ => 0, true, true⟩) 0 endingLoaded [firstCall])

/-- The positions are not collected for a batch that is prestaged; the order of issue leaves the warmup's
there. -/
theorem warmup_unordered_stale : ∃ m', Completes (Op.BlocksWith id Port.loading {Port.own}) Op.act issuedWarm
      (fun _ => [9, 9]) m' ∧
    m' (.response 0 0) = [9, 9] ∧ runOps issuedWarm (fun _ => [9, 9]) (.response 0 0) = [1, 2] := by
  obtain ⟨m', hcompletes, hresponse⟩ := @warmup_unordered Int _ (Port GraphKey) id {Port.own} (fun key => by simp)
    endingPairConfig endsOf (fun _ => some true) (fun _ => 0) (fun _ => ⟨fun _ => 0, true, true⟩) firstCall _ _ _ _ _ rfl
    [] fun _ => [9, 9]
  exact ⟨m', hcompletes, hresponse 0 0 _ rfl, rfl⟩

end TritonAot
