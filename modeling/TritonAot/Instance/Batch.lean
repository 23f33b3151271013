import TritonAot.Graph.Execute
import TritonAot.Lib.Tokens

/-! A batch of requests, and the configuration of the instance that serves it. -/
namespace TritonAot

inductive ErrorCode where
  | internal | invalidArg | other
  deriving DecidableEq, Repr

/-- `TRITONSERVER_Error`. -/
structure TritonError where
  code : ErrorCode
  message : String
  deriving DecidableEq, Repr

/-- An input of a request: its properties, and the elements its buffers hold. -/
structure RequestInput (E : Type) [Scalars E] where
  name : String
  datatype : DataType
  shape : List Nat
  data : List E
  size_eq : data.length = shape.prod
  typed : ∀ x ∈ data, Scalars.cast (convertDataTypeToTorchType datatype).2 x = x

structure Request (E : Type) [Scalars E] where
  inputs : List (RequestInput E)

/-- `BatchInput::Kind`. -/
inductive BatchInputKind where
  | elementCount
  | accumulatedElementCount
  | accumulatedElementCountWithZero
  | maxElementCountAsShape
  | itemShape
  | itemShapeFlatten
  deriving DecidableEq, Repr

/-- A `batch_input` entry of the model configuration. -/
structure BatchInput where
  kind : BatchInputKind
  dataType : DataType
  sourceInputs : List String
  targetNames : List String

/-- An entry of `ModelOutputs()`: the position among the outputs of the
configuration and among its sequence states, each -1 where it is not one. -/
structure ModelOutput where
  name : String
  output : Int
  state : Int
  deriving DecidableEq, Repr

/-- `std::map<std::string, std::pair<int64_t, int64_t>>`, in iteration order. -/
structure ModelOutputs where
  entries : List ModelOutput
  ascending : entries.Pairwise (·.name < ·.name)

/-- What `ModelState` and the constructor of `ModelInstanceState` have read from
the model configuration, and the server's own part in collecting a batch. -/
structure Config (E : Type) [Scalars E] extends GraphConfig where
  name : String
  deviceCount : Nat
  maxBatchSize : Nat
  isInputRagged : String → Bool
  batchInputs : List BatchInput
  batchInputCount : Nat
  inputIndexMap : String → Option Int
  modelOutputs : ModelOutputs
  outputIndexMap : String → Int
  outputDtypeMap : String → DataType
  isBatchOutput : String → Bool
  /-- Shape and values the server's collector makes for a batch input. -/
  batchInputValues : BatchInput → List (Request E) → List Nat × List E

/-- `supports_batching_`. -/
def Config.supportsBatching {E : Type} [Scalars E] (cfg : Config E) : Bool := 0 < cfg.maxBatchSize

/-- A GPU instance of a model with no inputs, no outputs and no graph; examples
set what they are about. -/
def Config.bare (E : Type) [Scalars E] : Config E where
  kind := .gpu
  enabledCudaGraph := false
  cudaGraphBatchSizes := ⟨[], .nil⟩
  cudaGraphWarmupSingleWidth := 0
  cudaGraphWarmupMultiWidth := 0
  name := "model"
  deviceCount := 1
  maxBatchSize := 8
  isInputRagged := fun _ => false
  batchInputs := []
  batchInputCount := 0
  inputIndexMap := fun _ => none
  modelOutputs := ⟨[], .nil⟩
  outputIndexMap := fun _ => 0
  outputDtypeMap := fun _ => .invalid
  isBatchOutput := fun _ => false
  batchInputValues := fun _ _ => ([], [])

/-- The responses of a batch: a token for each one created, spent by sending it
with the final flag and, where it fails, an error. -/
abbrev Responses := Tokens.Ledger Nat (Option TritonError)

/-- `GetElementCount`. -/
def getElementCount : List Nat → Nat
  | [] => 0
  | dims => dims.prod

variable {E : Type} [Scalars E]

def Request.input? (q : Request E) (name : String) : Option (RequestInput E) :=
  q.inputs.find? (·.name = name)

/-- What a request contributes to a ragged input. -/
def Request.elementCount (q : Request E) (name : String) : Nat :=
  match q.input? name with
  | none => 0
  | some input => getElementCount input.shape

def Request.payload (q : Request E) (name : String) : List E :=
  match q.input? name with
  | none => []
  | some input => input.data

/-- The elements of one input of every request, in order. -/
def payload (requests : List (Request E)) (name : String) : List E := requests.flatMap (·.payload name)

theorem getElementCount_cons (d : Nat) (dims : List Nat) :
    getElementCount (d :: dims) = (d :: dims).prod := rfl

theorem getElementCount_singleton (n : Nat) : getElementCount [n] = n := by
  rw [getElementCount_cons, List.prod_singleton]

end TritonAot
