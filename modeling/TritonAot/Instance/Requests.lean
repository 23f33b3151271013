import TritonAot.Instance.Outputs

/-! `ProcessRequests`.

A response is created for every request; each later step either succeeds or
answers every response that is still there, and the steps behind it are skipped.
At the end what has not been answered is sent and every request is released.
A fault is a call that does not return: a signal, or undefined behaviour. -/
namespace TritonAot

variable {E : Type} [Scalars E]

/-- What the server, CUDA and torch decide during one call, with the error the server
has for a request without an input. -/
structure RequestChance where
  responseNew : Nat → Bool
  inputByIndex : Nat → Option TritonError
  noInput : TritonError
  inputProperties : Nat → Option TritonError
  inputStart : Option TritonError
  input : InputChance
  inferStart : Option TritonError
  graph : Chance
  outputStart : Option TritonError
  output : OutputChance

def RequestChance.smooth : RequestChance where
  responseNew := fun _ => true
  inputByIndex := fun _ => none
  noInput := ⟨.invalidArg, ""⟩
  inputProperties := fun _ => none
  inputStart := none
  input := .smooth
  inferStart := none
  graph := .smooth
  outputStart := none
  output := .smooth

/-! ### Responses and batch size -/

/-- One response for each request; a slot is null where creating it fails. -/
def newResponses (chance : RequestChance) (n : Nat) : Responses :=
  ⟨(List.range n).map fun i => if chance.responseNew i then some i else none, []⟩

/-- The responses, and `all_response_failed`. -/
structure Answering where
  responses : Responses
  allFailed : Bool

/-- `RESPOND_ALL_AND_SET_TRUE_IF_ERROR`. -/
def Answering.check (a : Answering) : Option TritonError → Answering
  | none => a
  | some err => ⟨a.responses.spendAll (some err), true⟩

/-- The batch size of the request at index `i`, or the error of the lookup; the
shape is read even where `InputProperties` fails to set it. -/
def countRequest (cfg : Config E) (chance : RequestChance) (i : Nat) (q : Request E) :
    Except Fault (Nat × Option TritonError) :=
  if cfg.maxBatchSize = 0 then .ok (1, none)
  else
    match chance.inputByIndex i, q.inputs with
    | some err, _ => .ok (0, some err)
    | none, [] => .ok (0, some chance.noInput)
    | none, input :: _ =>
      match chance.inputProperties i, input.shape with
      | none, size :: _ => .ok (size, none)
      | _, _ => .error .undefined

/-- The loop that adds up `total_batch_size`, from the request at index `i` on. -/
def countFrom (cfg : Config E) (chance : RequestChance) :
    Nat → List (Request E) → Nat → Answering → Except Fault (Nat × Answering)
  | _, [], total, a => .ok (total, a)
  | i, q :: rest, total, a => do
    let (size, error) ← countRequest cfg chance i q
    countFrom cfg chance (i + 1) rest (total + size) (a.check error)

def batchSizeError (cfg : Config E) (total : Nat) : TritonError :=
  ⟨.internal, "batch size " ++ toString total ++ " for '" ++ cfg.name ++ "', max allowed is " ++
    toString cfg.maxBatchSize⟩

/-- The check against `max_batch_size`. -/
def checkBatchSize (cfg : Config E) (total : Nat) (a : Answering) : Answering :=
  if !a.allFailed && decide (total ≠ 1 ∧ cfg.maxBatchSize < total) then
    a.check (some (batchSizeError cfg total))
  else a

/-! ### The steps of a batch -/

/-- Whether CUDA events are recorded on the instance's stream. -/
def Config.recordsEvents (cfg : Config E) : Bool :=
  cfg.kind == .gpu || (cfg.kind == .model && decide (0 < cfg.deviceCount))

/-- A batch on its way: the answers so far, the state of the instance, the model
inputs and outputs, the state updates made, and what the graph path did. -/
structure Serving (E : Type) [Scalars E] where
  answering : Answering
  state : GraphState E
  tensors : List (Option (Tensor E))
  outputs : List (Tensor E)
  updates : List (String × Nat)
  events : List (Event E)

def Serving.check (v : Serving E) (error : Option TritonError) : Serving E :=
  {v with answering := v.answering.check error}

/-- The lookup before the inputs are collected. -/
def prestage (cfg : Config E) (total : Nat) (allFailed : Bool) (s : GraphState E) : GraphState E :=
  let s := {s with prestagedEntry := none, prestagedBucket := -1}
  if !allFailed && cfg.enabledCudaGraph && !cfg.deviceIsCpu then
    match findReadyCudaGraphEntry cfg.toGraphConfig total s with
    | some (key, bucket) => {s with prestagedEntry := some key, prestagedBucket := bucket}
    | none => s
  else s

def collectInputs (cfg : Config E) (chance : RequestChance) (total : Nat) (requests : List (Request E))
    (v : Serving E) : Except Fault (Serving E) :=
  if v.answering.allFailed then .ok v
  else do
    let (c, error) ← setInputTensors cfg chance.input total requests v.state v.answering.responses
    .ok (Serving.check
      {v with
        answering := ⟨c.responses, false⟩
        state := c.state
        tensors := c.tensors} error)

/-- What a slot that was never set holds: torch's undefined tensor, with one dimension, of size zero. -/
def undefinedTensor : Tensor E := .zeros .other .cpu [0]

/-- The tensors in the slots of the model inputs. -/
def slotTensors (tensors : List (Option (Tensor E))) : List (Tensor E) :=
  tensors.map fun t => t.getD undefinedTensor

/-- Torch takes an undefined tensor nowhere but for its size: a capture cannot clone it, `copy_` cannot
copy it, and the model cannot be run on it. -/
def Chance.onSlots (chance : Chance) (tensors : List (Option (Tensor E))) : Chance :=
  if tensors.all Option.isSome then chance
  else
    {chance with
      capture := fun _ => false
      copy := fun i => match tensors[i]? with
        | some none => some "copy_"
        | _ => chance.copy i
      eager := some "run"}

/-- `Execute` on the slots of the model inputs. -/
def executeSlots (cfg : Config E) (forward : List (Tensor E) → List (Tensor E)) (chance : Chance)
    (tensors : List (Option (Tensor E))) (s : GraphState E) : Except Fault (Executed E) :=
  execute cfg.toGraphConfig forward (chance.onSlots tensors) (slotTensors tensors) s []

def executeError (what : String) : TritonError :=
  ⟨.internal, "PyTorch AOTInductor execute failure: " ++ what⟩

/-- An exception inside `Execute` is answered there and leaves `all_response_failed` unset. -/
def runModel (cfg : Config E) (forward : List (Tensor E) → List (Tensor E)) (chance : RequestChance)
    (v : Serving E) : Except Fault (Serving E) :=
  if v.answering.allFailed then .ok v
  else do
    let x ← executeSlots cfg forward chance.graph v.tensors v.state
    let responses := match x.failure with
      | none => v.answering.responses
      | some what => v.answering.responses.spendAll (some (executeError what))
    .ok {v with
      answering := ⟨responses, false⟩
      state := x.state
      outputs := x.outputs
      events := v.events ++ x.events}

def outputIndexError (name : String) (count : Nat) : TritonError :=
  ⟨.invalidArg, "The output " ++ name ++ " in the model configuration refers to an output index " ++
    "which doesn't exist. This model has " ++ toString count ++ " outputs"⟩

/-- The first configured output whose index the model has no output for. -/
def invalidIndex (cfg : Config E) (count : Nat) : Option ModelOutput :=
  cfg.modelOutputs.entries.find? fun o =>
    decide (cfg.outputIndexMap o.name < 0 ∨ (count : Int) ≤ cfg.outputIndexMap o.name)

def checkOutputIndices (cfg : Config E) (v : Serving E) : Serving E :=
  if v.answering.allFailed then v
  else v.check ((invalidIndex cfg v.outputs.length).map fun o => outputIndexError o.name v.outputs.length)

def readOutputs (cfg : Config E) (chance : RequestChance) (v : Serving E) : Except Fault (Serving E) :=
  if v.answering.allFailed then .ok v
  else do
    let read ← readOutputTensors cfg chance.output v.outputs v.answering.responses
    .ok (Serving.check
      {v with
        answering := ⟨read.responses, false⟩
        updates := read.updates} read.error)

/-- The answers once the event that starts the input collection is recorded. -/
def Answering.start (cfg : Config E) (chance : RequestChance) (a : Answering) : Answering :=
  if cfg.recordsEvents then a.check chance.inputStart else a

/-- From the event that starts the input collection to the reading of the outputs. -/
def serve (cfg : Config E) (forward : List (Tensor E) → List (Tensor E)) (chance : RequestChance)
    (total : Nat) (requests : List (Request E)) (a : Answering) (s : GraphState E) :
    Except Fault (Serving E) := do
  let a := a.start cfg chance
  let s := prestage cfg total a.allFailed s
  let v ← collectInputs cfg chance total requests ⟨a, s, [], [], [], []⟩
  let v := if cfg.recordsEvents then v.check chance.inferStart else v
  let v ← runModel cfg forward chance v
  let v := checkOutputIndices cfg v
  let v := if cfg.kind == .gpu then v.check chance.outputStart else v
  readOutputs cfg chance v

/-- Each request with whether it succeeded, and the size of the batch, as they are reported. -/
structure Statistics where
  requests : List (Nat × Bool)
  batch : Option Nat

/-- Where nothing is reported. -/
def Statistics.none_ : Statistics := ⟨[], none⟩

/-- `TRITONBACKEND_ModelInstanceReportStatistics` for each request, whose response is null where it was
sent before, and `ReportBatchStatistics`. -/
def reportStatistics (n total : Nat) (v : Serving E) : Statistics where
  requests := (List.range n).map fun r => (r, v.answering.responses.slots[r]?.join.isSome)
  batch := if v.answering.allFailed then none else some total

/-- What a call leaves: the state of the instance, the responses, the requests it released in
order, the state updates, the model outputs, the statistics it reported, and what the graph
path did. -/
structure Served (E : Type) [Scalars E] where
  state : GraphState E
  responses : Responses
  released : List Nat
  updates : List (String × Nat)
  outputs : List (Tensor E)
  statistics : Statistics
  events : List (Event E)

def nullRequestError (cfg : Config E) : TritonError :=
  ⟨.internal, "null request given to PyTorch backend for '" ++ cfg.name ++ "'"⟩

/-- `RequestsRespondWithError`: every request gets a response with the error and
is released. -/
def respondWithError (n : Nat) (error : TritonError) (s : GraphState E) : Served E where
  state := s
  responses := ⟨[], (List.range n).map fun i => (i, some error)⟩
  released := List.range n
  updates := []
  outputs := []
  statistics := .none_
  events := []

/-- Send what has not been answered, report every request and the batch, and release every request. -/
def finish (n total : Nat) (v : Serving E) : Served E where
  state := v.state
  responses := v.answering.responses.spendAll none
  released := List.range n
  updates := v.updates
  outputs := v.outputs
  statistics := reportStatistics n total v
  events := v.events

def processRequests (cfg : Config E) (forward : List (Tensor E) → List (Tensor E))
    (chance : RequestChance) (requests : List (Option (Request E))) (s : GraphState E) :
    Except Fault (Served E) :=
  match requests.mapM id with
  | none => .ok (respondWithError requests.length (nullRequestError cfg) s)
  | some requests => do
    let n := requests.length
    let (total, a) ← countFrom cfg chance 0 requests 0 ⟨newResponses chance n, false⟩
    -- the early return of the source: nothing is sent and nothing is released
    if total = 0 then .ok ⟨s, a.responses, [], [], [], .none_, []⟩
    else do
      let v ← serve cfg forward chance total requests (checkBatchSize cfg total a) s
      .ok (finish n total v)

/-! ### Up to the model, and behind it -/

/-- The part of `serve` before the model is run. -/
def serveInputs (cfg : Config E) (chance : RequestChance) (total : Nat) (requests : List (Request E))
    (a : Answering) (s : GraphState E) : Except Fault (Serving E) := do
  let a := a.start cfg chance
  let s := prestage cfg total a.allFailed s
  let v ← collectInputs cfg chance total requests ⟨a, s, [], [], [], []⟩
  .ok (if cfg.recordsEvents then v.check chance.inferStart else v)

/-- The part of `serve` up to the model's outputs. -/
def serveModel (cfg : Config E) (forward : List (Tensor E) → List (Tensor E)) (chance : RequestChance)
    (total : Nat) (requests : List (Request E)) (a : Answering) (s : GraphState E) :
    Except Fault (Serving E) := do
  let v ← serveInputs cfg chance total requests a s
  runModel cfg forward chance v

/-- The answers before the outputs are read. -/
def Serving.verify (cfg : Config E) (chance : RequestChance) (v : Serving E) : Serving E :=
  if cfg.kind == .gpu then (checkOutputIndices cfg v).check chance.outputStart else checkOutputIndices cfg v

theorem serve_eq (cfg : Config E) (forward : List (Tensor E) → List (Tensor E)) (chance : RequestChance)
    (total : Nat) (requests : List (Request E)) (a : Answering) (s : GraphState E) :
    serve cfg forward chance total requests a s =
      serveModel cfg forward chance total requests a s >>= fun v => readOutputs cfg chance (v.verify cfg chance) := by
  unfold serve serveModel serveInputs
  simp only [bind_assoc]
  rfl

/-! ### Lists without a hole -/

theorem mapM_id_eq_none {α : Type} (xs : List (Option α)) : xs.mapM id = none ↔ none ∈ xs := by
  induction xs with
  | nil => simp
  | cons x rest ih =>
    cases x with
    | none => simp
    | some a => cases hr : rest.mapM id <;> simp [hr] at ih ⊢ <;> exact ih

theorem mapM_id_eq_some {α : Type} {xs : List (Option α)} {ys : List α} (h : xs.mapM id = some ys) :
    xs = ys.map some := by
  induction xs generalizing ys with
  | nil => simp_all
  | cons x rest ih =>
    cases x with
    | none => simp at h
    | some a =>
      cases hr : rest.mapM id with
      | none => simp [hr] at h
      | some zs =>
        simp [hr] at h
        rw [← h, ih hr, List.map_cons]

theorem slotTensors_map (inputs : List (Tensor E)) : slotTensors (inputs.map some) = inputs := by
  rw [slotTensors, List.map_map]
  exact List.map_id _

theorem Chance.onSlots_map (chance : Chance) (inputs : List (Tensor E)) :
    chance.onSlots (inputs.map some) = chance := by
  rw [Chance.onSlots, if_pos (by simp)]

theorem Chance.onSlots_stream (chance : Chance) (tensors : List (Option (Tensor E))) :
    (chance.onSlots tensors).stream = chance.stream := by
  unfold Chance.onSlots
  split <;> rfl

theorem Chance.onSlots_launch (chance : Chance) (tensors : List (Option (Tensor E))) :
    (chance.onSlots tensors).launch = chance.launch := by
  unfold Chance.onSlots
  split <;> rfl

theorem slotTensors_unset {tensors : List (Option (Tensor E))} (h : none ∈ tensors) :
    undefinedTensor ∈ slotTensors tensors := List.mem_map.mpr ⟨none, h, rfl⟩

/-- A batch with a slot that was never set has no row. -/
theorem requestCount_unset {tensors : List (Option (Tensor E))} {t0 t1 t2 : Tensor E} {r : Nat}
    (h : none ∈ tensors) (hthree : slotTensors tensors = [t0, t1, t2]) (hr : requestCount t0 t1 t2 = .ok r) :
    r = 0 := by
  obtain ⟨n, ⟨rest, hshape⟩, hle⟩ := (requestCount_ok hr).1 _ (hthree ▸ slotTensors_unset h)
  have hzero : (0 : Nat) = n := (List.cons.inj hshape).1
  omega

/-- Where every slot is set, `Execute` gets what the world decides. -/
theorem executeSlots_map (cfg : Config E) (forward : List (Tensor E) → List (Tensor E)) (chance : Chance)
    (inputs : List (Tensor E)) (s : GraphState E) :
    executeSlots cfg forward chance (inputs.map some) s =
      execute cfg.toGraphConfig forward chance inputs s [] := by
  rw [executeSlots, slotTensors_map, Chance.onSlots_map]

/-! ### What a step changes -/

theorem check_allFailed {a : Answering} {error : Option TritonError} (h : (a.check error).allFailed = false) :
    a.allFailed = false ∧ error = none := by
  cases error with
  | none => exact ⟨h, rfl⟩
  | some err => cases h

/-- A check that is only made where CUDA events are recorded changes the answers alone. -/
theorem checkIf_frame (c : Bool) (v : Serving E) (error : Option TritonError) :
    (if c then v.check error else v).tensors = v.tensors ∧
    (if c then v.check error else v).state = v.state ∧
    (if c then v.check error else v).outputs = v.outputs ∧
    (if c then v.check error else v).events = v.events ∧
    ((if c then v.check error else v).answering.allFailed = false → v.answering.allFailed = false) := by
  cases c with
  | true => exact ⟨rfl, rfl, rfl, rfl, fun h => (check_allFailed h).1⟩
  | false => exact ⟨rfl, rfl, rfl, rfl, id⟩

theorem checkBatchSize_allFailed {cfg : Config E} {total : Nat} {a : Answering}
    (h : (checkBatchSize cfg total a).allFailed = false) : a.allFailed = false := by
  unfold checkBatchSize at h
  split at h
  · exact (check_allFailed h).1
  · exact h

/-- The check of the output indices changes the answers alone. -/
theorem verify_frame (cfg : Config E) (chance : RequestChance) (v : Serving E) :
    (v.verify cfg chance).outputs = v.outputs ∧
      ((v.verify cfg chance).answering.allFailed = false →
        (checkOutputIndices cfg v).answering.allFailed = false) := by
  obtain ⟨_, _, houtputs, _, hfailed⟩ :=
    checkIf_frame (cfg.kind == .gpu) (checkOutputIndices cfg v) chance.outputStart
  refine ⟨houtputs.trans ?_, hfailed⟩
  unfold checkOutputIndices
  split <;> rfl

/-- A batch that passes it has an output for every index. -/
theorem invalidIndex_verify {cfg : Config E} {chance : RequestChance} {v : Serving E}
    (h : (v.verify cfg chance).answering.allFailed = false) : invalidIndex cfg v.outputs.length = none := by
  have hindex := (verify_frame cfg chance v).2 h
  unfold checkOutputIndices at hindex
  split at hindex
  · rename_i hfailed
    rw [hfailed] at hindex
    cases hindex
  · exact Option.map_eq_none_iff.mp (check_allFailed hindex).2

/-- Behind the check of the output indices, no output is read outside the vector. -/
theorem readOutputs_returns {cfg : Config E} {chance : RequestChance} {v : Serving E}
    (h : v.answering.allFailed = false → invalidIndex cfg v.outputs.length = none) :
    ∃ v', readOutputs cfg chance v = .ok v' := by
  unfold readOutputs
  cases ha : v.answering.allFailed with
  | true => exact ⟨_, if_pos rfl⟩
  | false =>
    have hvalid := List.find?_eq_none.mp (h ha)
    have hat : ∀ o ∈ cfg.modelOutputs.entries, ∃ t, outputAt cfg v.outputs o.name = some t := by
      intro o ho
      have hi := hvalid o ho
      simp only [decide_eq_true_eq, not_or, not_lt, not_le] at hi
      rw [outputAt, if_neg (not_lt.mpr hi.1)]
      exact ⟨_, List.getElem?_eq_getElem (by omega)⟩
    obtain ⟨read, hread⟩ := readFrom_returns chance.output hat v.answering.responses
    exact ⟨_, (if_neg Bool.false_ne_true).trans (bind_ok.mpr ⟨read, hread, rfl⟩)⟩

theorem checkOutputIndices_frame (cfg : Config E) (v : Serving E) :
    (checkOutputIndices cfg v).state = v.state ∧ (checkOutputIndices cfg v).events = v.events := by
  unfold checkOutputIndices
  split <;> exact ⟨rfl, rfl⟩

theorem readOutputs_frame {cfg : Config E} {chance : RequestChance} {v v' : Serving E}
    (h : readOutputs cfg chance v = .ok v') : v'.state = v.state ∧ v'.events = v.events := by
  rw [readOutputs] at h
  split at h
  · cases h
    exact ⟨rfl, rfl⟩
  · obtain ⟨read, _, h⟩ := bind_ok.mp h
    cases h
    exact ⟨rfl, rfl⟩

theorem collectInputs_cases {cfg : Config E} {chance : RequestChance} {total : Nat}
    {requests : List (Request E)} {v v' : Serving E}
    (h : collectInputs cfg chance total requests v = .ok v') :
    (v.answering.allFailed = true ∧ v' = v) ∨
      (v.answering.allFailed = false ∧ ∃ c error,
        setInputTensors cfg chance.input total requests v.state v.answering.responses = .ok (c, error) ∧
        v'.state = c.state ∧ v'.tensors = c.tensors ∧ v'.events = v.events ∧
        (v'.answering.allFailed = false → error = none)) := by
  rw [collectInputs] at h
  split at h
  · cases h
    exact .inl ⟨‹_›, rfl⟩
  · obtain ⟨⟨c, error⟩, hc, h⟩ := bind_ok.mp h
    cases h
    exact .inr ⟨Bool.eq_false_iff.mpr ‹_›, c, error, hc, rfl, rfl, rfl, fun hf => (check_allFailed hf).2⟩

theorem runModel_cases {cfg : Config E} {forward : List (Tensor E) → List (Tensor E)}
    {chance : RequestChance} {v v' : Serving E} (h : runModel cfg forward chance v = .ok v') :
    (v.answering.allFailed = true ∧ v' = v) ∨
      (v.answering.allFailed = false ∧ ∃ x, executeSlots cfg forward chance.graph v.tensors v.state = .ok x ∧
        v'.state = x.state ∧ v'.events = v.events ++ x.events) := by
  rw [runModel] at h
  split at h
  · cases h
    exact .inl ⟨‹_›, rfl⟩
  · obtain ⟨x, hx, h⟩ := bind_ok.mp h
    cases h
    exact .inr ⟨Bool.eq_false_iff.mpr ‹_›, x, hx, rfl, rfl⟩

/-- How far a batch gets, as far as the graph path is concerned: it fails before
anything is collected, or its inputs are collected, or the model is also run. -/
inductive Reached (cfg : Config E) (forward : List (Tensor E) → List (Tensor E)) (chance : RequestChance)
    (total : Nat) (a : Answering) (requests : List (Request E)) (s : GraphState E) :
    GraphState E → List (Event E) → Prop where
  | skipped : Reached cfg forward chance total a requests s (prestage cfg total true s) []
  | collected {responses : Responses} {c : Collecting E} {error : Option TritonError}
      (accepted : a.allFailed = false)
      (collect : setInputTensors cfg chance.input total requests (prestage cfg total false s) responses =
        .ok (c, error)) : Reached cfg forward chance total a requests s c.state []
  | ran {responses : Responses} {c : Collecting E} {x : Executed E} (accepted : a.allFailed = false)
      (collect : setInputTensors cfg chance.input total requests (prestage cfg total false s) responses =
        .ok (c, none))
      (run : executeSlots cfg forward chance.graph c.tensors c.state = .ok x) :
      Reached cfg forward chance total a requests s x.state x.events

/-- How a batch gets to the model: it fails before anything is collected, or after, or its
inputs are there. -/
inductive Arrived (cfg : Config E) (chance : RequestChance) (total : Nat) (a : Answering)
    (requests : List (Request E)) (s : GraphState E) (v : Serving E) : Prop where
  | skipped (failed : v.answering.allFailed = true) (state : v.state = prestage cfg total true s)
  | failed {responses : Responses} {c : Collecting E} {error : Option TritonError} (accepted : a.allFailed = false)
      (collect : setInputTensors cfg chance.input total requests (prestage cfg total false s) responses =
        .ok (c, error)) (failed : v.answering.allFailed = true) (state : v.state = c.state)
  | collected {responses : Responses} {c : Collecting E} (accepted : a.allFailed = false)
      (collect : setInputTensors cfg chance.input total requests (prestage cfg total false s) responses =
        .ok (c, none)) (going : v.answering.allFailed = false) (state : v.state = c.state)
      (tensors : v.tensors = c.tensors)

theorem serveInputs_arrived {cfg : Config E} {chance : RequestChance} {total : Nat}
    {requests : List (Request E)} {a : Answering} {s : GraphState E} {v : Serving E}
    (h : serveInputs cfg chance total requests a s = .ok v) :
    Arrived cfg chance total a requests s v ∧ v.events = [] := by
  rw [serveInputs] at h
  have hstart : (a.start cfg chance).allFailed = false → a.allFailed = false := by
    unfold Answering.start
    split
    · exact fun h => (check_allFailed h).1
    · exact id
  generalize a.start cfg chance = start at h hstart
  obtain ⟨collected, hcollect, h⟩ := bind_ok.mp h
  obtain rfl := Except.ok.inj h
  obtain ⟨htensors, hstate, _, hevents, hfailed⟩ :=
    checkIf_frame cfg.recordsEvents collected chance.inferStart
  generalize (if cfg.recordsEvents then collected.check chance.inferStart else collected) = v
    at htensors hstate hevents hfailed
  rcases collectInputs_cases hcollect with ⟨hall, rfl⟩ | ⟨hnone, c, error, hc, hcs, hct, hce, herr⟩
  · change start.allFailed = true at hall
    have hgone : v.answering.allFailed = true := by
      refine Bool.eq_true_of_not_eq_false fun hgo => ?_
      have := hfailed hgo
      rw [hall] at this
      cases this
    refine ⟨.skipped hgone ?_, hevents⟩
    rw [hstate, hall]
  · change start.allFailed = false at hnone
    simp only [hnone] at hc
    refine ⟨?_, hevents.trans hce⟩
    cases hgo : v.answering.allFailed with
    | true => exact .failed (hstart hnone) hc hgo (hstate.trans hcs)
    | false =>
      obtain rfl := herr (hfailed hgo)
      exact .collected (hstart hnone) hc hgo (hstate.trans hcs) (htensors.trans hct)

/-- What the reading of the outputs leaves alone. -/
theorem readOutputs_verify_frame {cfg : Config E} {chance : RequestChance} {v v' : Serving E}
    (h : readOutputs cfg chance (v.verify cfg chance) = .ok v') : v'.state = v.state ∧ v'.events = v.events := by
  obtain ⟨hlast, hlastEvents⟩ := readOutputs_frame h
  obtain ⟨_, hcheck, _, hcheckEvents, _⟩ :=
    checkIf_frame (cfg.kind == .gpu) (checkOutputIndices cfg v) chance.outputStart
  obtain ⟨hindex, hindexEvents⟩ := checkOutputIndices_frame cfg v
  exact ⟨(hlast.trans hcheck).trans hindex, (hlastEvents.trans hcheckEvents).trans hindexEvents⟩

theorem serve_reached {cfg : Config E} {forward : List (Tensor E) → List (Tensor E)}
    {chance : RequestChance} {total : Nat} {requests : List (Request E)} {a : Answering}
    {s : GraphState E} {v : Serving E} (h : serve cfg forward chance total requests a s = .ok v) :
    Reached cfg forward chance total a requests s v.state v.events := by
  rw [serve_eq] at h
  obtain ⟨ran, hmodel, hread⟩ := bind_ok.mp h
  obtain ⟨arrived, hinputs, hrun⟩ := bind_ok.mp hmodel
  obtain ⟨hstate, hevents⟩ := readOutputs_verify_frame hread
  obtain ⟨harrived, hnone⟩ := serveInputs_arrived hinputs
  rw [hstate, hevents]
  rcases runModel_cases hrun with ⟨hall, rfl⟩ | ⟨hgo, x, hx, hxs, hxe⟩
  · -- a batch that has failed is not run either
    rw [hnone]
    cases harrived with
    | skipped _ hs =>
      rw [hs]
      exact .skipped
    | failed haccepted hc _ hs =>
      rw [hs]
      exact .collected haccepted hc
    | collected _ _ hgoing =>
      rw [hall] at hgoing
      cases hgoing
  · rw [hxs, hxe, hnone]
    cases harrived with
    | skipped hfailed | failed _ _ hfailed =>
      rw [hgo] at hfailed
      cases hfailed
    | collected haccepted hc _ hs ht =>
      rw [hs, ht] at hx
      exact .ran haccepted hc hx

/-- What a call that returns does on the graph path. -/
theorem processRequests_reached {cfg : Config E} {forward : List (Tensor E) → List (Tensor E)}
    {chance : RequestChance} {requests : List (Option (Request E))} {s : GraphState E} {served : Served E}
    (h : processRequests cfg forward chance requests s = .ok served) :
    (served.state = s ∧ served.events = []) ∨
      ∃ qs total a, requests.mapM id = some qs ∧
        countFrom cfg chance 0 qs 0 ⟨newResponses chance qs.length, false⟩ = .ok (total, a) ∧ total ≠ 0 ∧
        Reached cfg forward chance total (checkBatchSize cfg total a) qs s served.state served.events := by
  unfold processRequests at h
  split at h
  · cases h
    exact .inl ⟨rfl, rfl⟩
  · rename_i qs hqs
    obtain ⟨⟨total, a⟩, hcount, h⟩ := bind_ok.mp h
    simp only at h
    split at h
    · cases h
      exact .inl ⟨rfl, rfl⟩
    · obtain ⟨v, hv, h⟩ := bind_ok.mp h
      cases h
      exact .inr ⟨qs, total, a, hqs, hcount, ‹_›, serve_reached hv⟩

end TritonAot
