import TritonAot.Config.BatchSizes
import TritonAot.Instance.Batch
import TritonAot.Model.Metrics

/-! A model, from its configuration.

`ParseParameters` reads the settings off the `parameters` of the configuration, each of which may be
missing or malformed, and `Create` adds up the instances. The thread counts of the process are set by
the first model that asks for them. CUDA graphs switch the sharing of weights off
(`createModel_ok`). -/
namespace TritonAot

/-! ### Parameters -/

/-- A parameter of the model configuration. -/
inductive Parameter where
  | absent
  /-- It has no `string_value`, which is answered by an error. -/
  | malformed (error : TritonError)
  | value (s : String)

/-- `ParseBoolValue` and `ParseIntValue`. -/
structure ValueParsers where
  bool : String → Except TritonError Bool
  int : String → Except TritonError Int

/-- `ParseParameter` into a variable that holds `value`. The caller deletes the error for a parameter
that is missing, and the variable stays; it returns any other. -/
def parseParameter {α : Type} (parse : String → Except TritonError α) (value : α) : Parameter → Except TritonError α
  | .absent => .ok value
  | .malformed e => .error e
  | .value s => parse s

/-- `MemberAsString("string_value")`, whose error is deleted. -/
def Parameter.stringValue : Parameter → Option String
  | value s => some s
  | _ => none

/-- A width that `std::stoll` throws on is left as it is. -/
def parseWidth (width : Int) (p : Parameter) : Int :=
  match p.stringValue with
  | none => width
  | some val =>
    match stoll val.toList with
    | .ok v => v
    | .error _ => width

structure ModelSettings where
  enableInferenceMode : Bool
  enableCudnn : Bool
  enableCacheCleaning : Bool
  enableWeightSharing : Bool
  enableCudaGraph : Bool
  disablePinnedInput : Bool
  totalInstanceCount : Nat
  cudaGraphBatchSizes : BatchSizes
  cudaGraphWarmupSingleWidth : Int
  cudaGraphWarmupMultiWidth : Int

/-- What the constructor sets. -/
def ModelSettings.fresh : ModelSettings :=
  ⟨true, true, false, false, false, false, 1, ⟨[], ascending_nil⟩, 0, 0⟩

section Parse
variable (parsers : ValueParsers) (params : String → Parameter)

/-- `ParseParameters` up to the thread counts; where the configuration has no `parameters`, all are
absent. -/
def parseSettings (m : ModelSettings) : Except TritonError ModelSettings := do
  let enableCacheCleaning ← parseParameter parsers.bool m.enableCacheCleaning (params "ENABLE_CACHE_CLEANING")
  let enableInferenceMode ← parseParameter parsers.bool m.enableInferenceMode (params "INFERENCE_MODE")
  let disableCudnn ← parseParameter parsers.bool false (params "DISABLE_CUDNN")
  let enableWeightSharing ← parseParameter parsers.bool m.enableWeightSharing (params "ENABLE_WEIGHT_SHARING")
  let enableCudaGraph ← parseParameter parsers.bool m.enableCudaGraph (params "ENABLE_CUDA_GRAPH")
  let cudaGraphBatchSizes := match (params "CUDA_GRAPH_BATCH_SIZES").stringValue with
    | none => m.cudaGraphBatchSizes
    | some val => parseBatchSizes (some val)
  -- the graphs and the loader of an instance are its own
  let enableWeightSharing := if enableCudaGraph && enableWeightSharing then false else enableWeightSharing
  let cudaGraphWarmupSingleWidth := parseWidth m.cudaGraphWarmupSingleWidth (params "CUDA_GRAPH_WARMUP_SINGLE_WIDTH")
  let cudaGraphWarmupMultiWidth := parseWidth m.cudaGraphWarmupMultiWidth (params "CUDA_GRAPH_WARMUP_MULTI_WIDTH")
  let disablePinnedInput ← parseParameter parsers.bool m.disablePinnedInput (params "DISABLE_PINNED_INPUT")
  .ok {m with
    enableCacheCleaning, enableInferenceMode, enableCudnn := !disableCudnn, enableWeightSharing, enableCudaGraph
    cudaGraphBatchSizes, cudaGraphWarmupSingleWidth, cudaGraphWarmupMultiWidth, disablePinnedInput}

/-- The counts that the process was set to, through its two `std::once_flag`s. -/
structure ThreadCounts where
  intraOp : Option Int
  interOp : Option Int

/-- `std::call_once` for a positive count. -/
def callOnce (count : Int) (flag : Option Int) : Option Int := if count > 0 then some (flag.getD count) else flag

def parseThreads (t : ThreadCounts) : Except TritonError Unit × ThreadCounts :=
  match parseParameter parsers.int (-1) (params "INTRA_OP_THREAD_COUNT") with
  | .error e => (.error e, t)
  | .ok intra =>
    let t := {t with intraOp := callOnce intra t.intraOp}
    match parseParameter parsers.int (-1) (params "INTER_OP_THREAD_COUNT") with
    | .error e => (.error e, t)
    | .ok inter => (.ok (), {t with interOp := callOnce inter t.interOp})

end Parse

/-! ### The model -/

/-- The counts of the instance groups, as `size_t`; one without a count is one instance. -/
def totalCount (groups : List (Option Int)) : Nat :=
  groups.foldl (fun total count => (total + (count.getD 1 % 2 ^ 64).toNat) % 2 ^ 64) 0

def ModelSettings.withInstances (groups : List (Option Int)) (m : ModelSettings) : ModelSettings :=
  if totalCount groups > 0 then {m with totalInstanceCount := totalCount groups} else m

/-- A model that was created: its settings, and its metrics on the server. -/
structure Model where
  settings : ModelSettings
  host : Host

/-- What the configuration of a model says to `Create`. -/
structure ModelSource where
  name : String
  instanceGroups : List (Option Int)
  parameters : String → Parameter

/-- `ModelState::Create`, less the outputs of the model. -/
def createModel (parsers : ValueParsers) (fails : Nat → Option String) (source : ModelSource) (t : ThreadCounts) :
    Except TritonError Model × ThreadCounts :=
  match parseSettings parsers source.parameters (ModelSettings.fresh.withInstances source.instanceGroups) with
  | .error e => (.error e, t)
  | .ok m =>
    match parseThreads parsers source.parameters t with
    | (.error e, t) => (.error e, t)
    | (.ok (), t) => (.ok ⟨m, Host.created fails source.name m.enableCudaGraph⟩, t)

/-! ### What a configuration comes to -/

section Created
variable {parsers : ValueParsers} {params : String → Parameter} {fails : Nat → Option String} {source : ModelSource}
  {t t' : ThreadCounts}

/-- The settings that are read never have both CUDA graphs and weight sharing. -/
theorem parseSettings_ok {m m' : ModelSettings} (h : parseSettings parsers params m = .ok m') :
    (m'.enableCudaGraph = true → m'.enableWeightSharing = false) ∧ m'.totalInstanceCount = m.totalInstanceCount := by
  unfold parseSettings at h
  obtain ⟨_, _, h⟩ := bind_ok.mp h
  obtain ⟨_, _, h⟩ := bind_ok.mp h
  obtain ⟨_, _, h⟩ := bind_ok.mp h
  obtain ⟨sharing, _, h⟩ := bind_ok.mp h
  obtain ⟨graphs, _, h⟩ := bind_ok.mp h
  obtain ⟨_, _, h⟩ := bind_ok.mp h
  cases h
  refine ⟨?_, rfl⟩
  cases graphs <;> cases sharing <;> simp

/-- The instances that the groups add up to, one where they add up to none. -/
def instancesOf (groups : List (Option Int)) : Int :=
  let total := (groups.map (·.getD 1)).sum % 2 ^ 64
  if total > 0 then total else 1

theorem totalCount_eq (groups : List (Option Int)) : (totalCount groups : Int) = (groups.map (·.getD 1)).sum % 2 ^ 64 := by
  have hfrom : ∀ total : Nat, total < 2 ^ 64 →
      ((groups.foldl (fun total count => (total + (count.getD 1 % 2 ^ 64).toNat) % 2 ^ 64) total : Nat) : Int) =
        (total + (groups.map (·.getD 1)).sum) % 2 ^ 64 := by
    induction groups with
    | nil =>
      intro total hlt
      simp only [List.foldl_nil, List.map_nil, List.sum_nil]
      omega
    | cons count rest ih =>
      intro total hlt
      simp only [List.foldl_cons, List.map_cons, List.sum_cons]
      rw [ih _ (Nat.mod_lt _ (by decide))]
      omega
  have hall := hfrom 0 (by decide)
  rwa [Int.natCast_zero, Int.zero_add] at hall

theorem withInstances_count (groups : List (Option Int)) :
    ((ModelSettings.fresh.withInstances groups).totalInstanceCount : Int) = instancesOf groups := by
  unfold ModelSettings.withInstances instancesOf
  rw [← totalCount_eq]
  simp only [Int.natCast_pos, gt_iff_lt]
  split <;> rfl

/-- **A model that is created has graphs or shares weights, not both**, and counts its instances. -/
theorem createModel_ok {model : Model} (h : createModel parsers fails source t = (.ok model, t')) :
    (model.settings.enableCudaGraph = true → model.settings.enableWeightSharing = false) ∧
      (model.settings.totalInstanceCount : Int) = instancesOf source.instanceGroups := by
  unfold createModel at h
  split at h
  · cases h
  · rename_i m hsettings
    obtain ⟨hunshared, hcount⟩ := parseSettings_ok hsettings
    split at h
    · cases h
    · cases h
      refine ⟨hunshared, ?_⟩
      simp only
      rw [hcount, withInstances_count]

end Created

end TritonAot
