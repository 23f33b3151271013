import TritonAot.Instance.Batch

/-! `SetInputTensors`.

Pass 1 reads every declared input's properties without collecting anything; then
it is decided whether the batch may be written straight into the static inputs of
the prestaged entry; pass 2 collects, either there or into fresh tensors, and the
batch inputs follow. -/
namespace TritonAot

variable {E : Type} [Scalars E]

/-- Failures of the server's calls during `SetInputTensors`: errors it returns,
responses that are answered on the way, each with its error, and the calls whose
failure is answered but not heeded: the lookup of a ragged input in the request at an
index, with its properties, and the collection of a batch input. -/
structure InputChance where
  inputCount : Option TritonError
  properties : Nat → Option TritonError
  ragged : String → Nat → Bool
  collect : String → Option TritonError
  collected : String → List (Nat × TritonError)
  batchInput : String → Bool

def InputChance.smooth : InputChance :=
  ⟨none, fun _ => none, fun _ _ => true, fun _ => none, fun _ => [], fun _ => true⟩

/-- Answer responses one by one. -/
def failEach (failures : List (Nat × TritonError)) (responses : Responses) : Responses :=
  responses.spendEach (failures.map fun f => (f.1, some f.2))

structure DeclaredInput where
  name : String
  datatype : DataType
  batchnShape : List Nat
  batchnElements : Nat
  raggedUniform : Bool

/-! ### Pass 1 -/

/-- The loop over the requests of a ragged input: the first count, whether all
counts so far agree with it, and their sum. -/
def raggedCounts : Int → Bool → Nat → List Nat → Bool × Nat
  | _, uniform, total, [] => (uniform, total)
  | first, uniform, total, cnt :: rest =>
    if first < 0 then raggedCounts cnt uniform (total + cnt) rest
    else raggedCounts first (uniform && decide ((cnt : Int) = first)) (total + cnt) rest

/-- One declared input, as pass 1 describes it. -/
def declareInput (cfg : Config E) (totalBatchSize : Nat) (requests : List (Request E))
    (input : RequestInput E) : DeclaredInput :=
  if cfg.isInputRagged input.name then
    let (uniform, total) := raggedCounts (-1) true 0 (requests.map (·.elementCount input.name))
    ⟨input.name, input.datatype, [total], getElementCount [total], uniform⟩
  else
    let shape := if cfg.supportsBatching then input.shape.set 0 totalBatchSize else input.shape
    ⟨input.name, input.datatype, shape, getElementCount shape, true⟩

def bytesError (name : String) : TritonError :=
  ⟨.invalidArg, "AOTInductor models do not support string/bytes input type for input '" ++ name ++ "'"⟩

/-- Whether a ragged input is found, with its properties, in every request. -/
def raggedFound (chance : InputChance) (requests : List (Request E)) (name : String) : Bool :=
  requests.zipIdx.all fun q => (q.1.input? name).isSome && chance.ragged name q.2

/-- Pass 1 from the input at index `i` on: the inputs described, or the error it
returns. Where a ragged input is not found the response is answered, and the shape is
read through pointers that were never set. -/
def declareFrom (cfg : Config E) (chance : InputChance) (totalBatchSize : Nat)
    (requests : List (Request E)) :
    Nat → List (RequestInput E) → Except Fault (Except TritonError (List DeclaredInput))
  | _, [] => .ok (.ok [])
  | i, input :: rest =>
    match chance.properties i with
    | some err => .ok (.error err)
    | none =>
      if input.datatype = .bytes then .ok (.error (bytesError input.name))
      else if cfg.isInputRagged input.name && !raggedFound chance requests input.name then
        .error .undefined
      else do
        let declared ← declareFrom cfg chance totalBatchSize requests (i + 1) rest
        .ok (declared.map (declareInput cfg totalBatchSize requests input :: ·))

/-! ### Viability of prestaging -/

/-- `static_inputs[index]`, where the index is in range. -/
def staticAt (e : CudaGraphEntry E) (index : Int) : Option (Tensor E) :=
  if index < 0 then none else e.staticInputs[index.toNat]?

/-- Whether a declared input lines up with its static buffer. -/
def lineUp (cfg : Config E) (e : CudaGraphEntry E) (bucket : Int) (r : Nat) (info : DeclaredInput) :
    Except Fault Bool :=
  match (cfg.inputIndexMap info.name).bind (staticAt e) with
  | none => .ok false
  | some st =>
    if st.device ≠ .cuda ∨ st.dtype ≠ (convertDataTypeToTorchType info.datatype).2 then .ok false
    else if bucket = 0 then .error .sigfpe
    else if (st.numel : Int) % bucket ≠ 0 then .ok false
    else do
      let size ← st.size0
      .ok (decide ((size : Int) % bucket = 0 ∧
        (info.batchnElements : Int) = r * ((st.numel : Int) / bucket) ∧
        0 < info.batchnElements) && info.raggedUniform)

/-- Whether the buffer of a batch-input target can be sliced to `r` slots. -/
def targetLineUp (cfg : Config E) (e : CudaGraphEntry E) (bucket : Int) (name : String) :
    Except Fault Bool :=
  match (cfg.inputIndexMap name).bind (staticAt e) with
  | none => .ok false
  | some st =>
    if st.device ≠ .cuda then .ok false
    else if bucket = 0 then .error .sigfpe
    else do
      let size ← st.size0
      .ok (decide ((size : Int) % bucket = 0))

/-- Conjunction from left to right, evaluated until the first `false`. -/
def allOk {α : Type} (check : α → Except Fault Bool) : List α → Except Fault Bool
  | [] => .ok true
  | a :: rest => do
    if ← check a then allOk check rest else .ok false

/-- The targets of all batch inputs, in order. -/
def Config.batchInputTargets (cfg : Config E) : List (BatchInput × String) :=
  cfg.batchInputs.flatMap fun b => b.targetNames.map fun n => (b, n)

/-- `viable`, for the entry under `key`. -/
def viable (cfg : Config E) (declared : List DeclaredInput) (r : Nat) (key : String) (bucket : Int)
    (s : GraphState E) : Except Fault Bool :=
  if cfg.deviceIsCpu || r = 0 || cfg.kind = .model || decide (bucket < r) then .ok false
  else
    match s.cudaGraphCache.lookup key with
    | none => .error .undefined
    | some e =>
      if e.staticInputs.length ≠ declared.length + cfg.batchInputCount then .ok false
      else do
        if ← allOk (lineUp cfg e bucket r) declared then
          allOk (fun t => targetLineUp cfg e bucket t.2) cfg.batchInputTargets
        else .ok false

/-- Keep the prestaged entry if it is viable for the batch. -/
def decidePrestage (cfg : Config E) (declared : List DeclaredInput) (totalBatchSize : Nat)
    (s : GraphState E) : Except Fault (GraphState E) :=
  match s.prestagedEntry with
  | none => .ok s
  | some key => do
    if ← viable cfg declared totalBatchSize key s.prestagedBucket s then .ok s
    else .ok {s with prestagedEntry := none, prestagedBucket := -1}

/-! ### Pass 2 -/

/-- `input_index_map_[name]`. -/
def Config.indexOf (cfg : Config E) (name : String) : Int := (cfg.inputIndexMap name).getD 0

/-- `(*input_tensors)[index] = t`. -/
def setSlot (tensors : List (Option (Tensor E))) (index : Int) (t : Tensor E) :
    Except Fault (List (Option (Tensor E))) :=
  if index < 0 ∨ (tensors.length : Int) ≤ index then .error .undefined
  else .ok (tensors.set index.toNat (some t))

/-- Rows of a static buffer that `r` requests fill. -/
def prefixDim0 (r : Nat) (bucket : Int) (size : Nat) : Nat := r * (size / bucket.toNat)

/-- The collector writes the payload over the front of the static buffer, and
the rows behind the real requests are zeroed. -/
def fillStatic (r : Nat) (bucket : Int) (st : Tensor E) (values : List E) : Except Fault (Tensor E) := do
  let written ← st.write 0 values
  let size ← st.size0
  let front := prefixDim0 r bucket size
  if front < size then
    written.write (front * st.inner) (List.replicate ((size - front) * st.inner) Scalars.zero)
  else .ok written

/-- The view of a static buffer that stands for the model input. -/
def prestagedView (r : Nat) (bucket : Int) (st : Tensor E) : Except Fault (Tensor E) := do
  let size ← st.size0
  st.narrow 0 (prefixDim0 r bucket size)

/-- Where pass 2 stands: the state, the model inputs set so far, the responses. -/
structure Collecting (E : Type) [Scalars E] where
  state : GraphState E
  tensors : List (Option (Tensor E))
  responses : Responses

/-- A declared input collected into the static buffer of the prestaged entry. -/
def collectPrestaged (cfg : Config E) (chance : InputChance) (requests : List (Request E))
    (r : Nat) (key : String) (info : DeclaredInput) (c : Collecting E) :
    Except Fault (Collecting E) :=
  match c.state.cudaGraphCache.lookup key with
  | none => .error .undefined
  | some e =>
    match staticAt e (cfg.indexOf info.name) with
    | none => .error .undefined
    | some st => do
      let bucket := c.state.prestagedBucket
      let filled ← fillStatic r bucket st ((payload requests info.name).take info.batchnElements)
      let view ← prestagedView r bucket filled
      let tensors ← setSlot c.tensors (cfg.indexOf info.name) view
      .ok ⟨c.state.setEntry key
          {e with staticInputs := e.staticInputs.set (cfg.indexOf info.name).toNat filled},
        tensors, failEach (chance.collected info.name) c.responses⟩

/-- Where the collector leaves a declared input, and where it is told to. -/
def Config.inputDevice (cfg : Config E) : Device :=
  if cfg.deviceIsCpu || cfg.kind = .model then .cpu else .cuda

/-- `from_blob` on what the collector gathered; an empty input is made directly. -/
def gathered (dtype : ScalarType) (device : Device) (shape : List Nat) (values : List E) :
    Except Fault (Tensor E) :=
  if values.isEmpty then .ok (Tensor.zeros dtype device shape)
  else Tensor.fromBlob dtype device shape values

/-- The tensor of a declared input that is collected on its own. -/
def gatherInput (cfg : Config E) (requests : List (Request E)) (info : DeclaredInput) :
    Except Fault (Tensor E) :=
  gathered (convertDataTypeToTorchType info.datatype).2 cfg.inputDevice info.batchnShape
    (payload requests info.name)

def collectSlow (cfg : Config E) (chance : InputChance) (requests : List (Request E))
    (info : DeclaredInput) (c : Collecting E) : Except Fault (Collecting E) := do
  let t ← gatherInput cfg requests info
  let tensors ← setSlot c.tensors (cfg.indexOf info.name) t
  .ok {c with tensors, responses := failEach (chance.collected info.name) c.responses}

/-- Pass 2 over the declared inputs; a collector error is returned. -/
def collectFrom (cfg : Config E) (chance : InputChance) (totalBatchSize : Nat)
    (requests : List (Request E)) :
    List DeclaredInput → Collecting E → Except Fault (Collecting E × Option TritonError)
  | [], c => .ok (c, none)
  | info :: rest, c =>
    match c.state.prestagedEntry with
    | some key => do
      let c' ← collectPrestaged cfg chance requests totalBatchSize key info c
      collectFrom cfg chance totalBatchSize requests rest c'
    | none =>
      match chance.collect info.name with
      | some err => .ok (c, some err)
      | none => do
        let c' ← collectSlow cfg chance requests info c
        collectFrom cfg chance totalBatchSize requests rest c'

/-! ### Batch inputs -/

/-- The tensor of a batch input that is collected on its own. -/
def gatherBatchInput (cfg : Config E) (requests : List (Request E)) (b : BatchInput) :
    Except Fault (Tensor E) :=
  let (shape, values) := cfg.batchInputValues b requests
  gathered (convertDataTypeToTorchType b.dataType).2 (if cfg.deviceIsCpu then .cpu else .cuda) shape values

/-- One target of a batch input: the view of its static buffer, whose content is
left as it is, or the collected tensor. Where it cannot be collected every response is
answered, and the buffer and its size are read though they were never set. -/
def collectBatchInput (cfg : Config E) (chance : InputChance) (totalBatchSize : Nat)
    (requests : List (Request E)) (target : BatchInput × String) (c : Collecting E) :
    Except Fault (Collecting E) :=
  match c.state.prestagedEntry with
  | some key =>
    match c.state.cudaGraphCache.lookup key with
    | none => .error .undefined
    | some e =>
      match staticAt e (cfg.indexOf target.2) with
      | none => .error .undefined
      | some st => do
        let view ← prestagedView totalBatchSize c.state.prestagedBucket st
        let tensors ← setSlot c.tensors (cfg.indexOf target.2) view
        .ok {c with tensors}
  | none =>
    if !chance.batchInput target.2 then .error .undefined
    else do
      let t ← gatherBatchInput cfg requests target.1
      let tensors ← setSlot c.tensors (cfg.indexOf target.2) t
      .ok {c with tensors}

def collectBatchInputs (cfg : Config E) (chance : InputChance) (totalBatchSize : Nat)
    (requests : List (Request E)) : List (BatchInput × String) → Collecting E → Except Fault (Collecting E)
  | [], c => .ok c
  | target :: rest, c => do
    let c' ← collectBatchInput cfg chance totalBatchSize requests target c
    collectBatchInputs cfg chance totalBatchSize requests rest c'

/-- `SetInputTensors`: the state, tensors and responses it leaves, and the error
it returns. -/
def setInputTensors (cfg : Config E) (chance : InputChance) (totalBatchSize : Nat)
    (requests : List (Request E)) (s : GraphState E) (responses : Responses) :
    Except Fault (Collecting E × Option TritonError) :=
  match chance.inputCount, requests with
  | some err, _ => .ok (⟨s, [], responses⟩, some err)
  | none, [] => .error .undefined
  | none, first :: rest => do
    let tensors := List.replicate (first.inputs.length + cfg.batchInputCount) none
    match ← declareFrom cfg chance totalBatchSize (first :: rest) 0 first.inputs with
    | .error err => .ok (⟨s, tensors, responses⟩, some err)
    | .ok declared =>
      let s ← decidePrestage cfg declared totalBatchSize s
      let (c, err) ← collectFrom cfg chance totalBatchSize (first :: rest) declared ⟨s, tensors, responses⟩
      match err with
      | some err => .ok (c, some err)
      | none =>
        let c ← collectBatchInputs cfg chance totalBatchSize (first :: rest) cfg.batchInputTargets c
        .ok (c, none)

end TritonAot
