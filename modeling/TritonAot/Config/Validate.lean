import TritonAot.Config.Names

/-! Reading the model configuration.

The constructor of `ModelInstanceState` numbers what the model takes and returns:
sequence controls, inputs, the inputs of sequence states and the targets of batch
inputs in `input_index_map_`, outputs and the outputs of states in
`output_index_map_`. A number is read off the name or is a position, as
`GetNamingConvention` decides. -/
namespace TritonAot

/-- An `input` or `output` entry of the model configuration. -/
structure IoConfig where
  name : String
  dataType : String
  deriving DecidableEq, Repr

/-- A `state` entry of `sequence_batching`; `dims` is what `ParseShape` returns. -/
structure StateConfig where
  inputName : String
  outputName : String
  dataType : String
  dims : Except TritonError (List Int)

/-- `sequence_batching`. For a kind of control the server's `GetBooleanSequenceControlProperties`
and `GetTypedSequenceControlProperties` return the name of its tensor, empty where
there is none, and its data type. -/
structure SequenceBatching where
  state : Option (List StateConfig)
  control : String → Except TritonError (String × String)

/-- The model configuration as the server writes it out: its lists are there, empty or not. -/
structure ModelConfig where
  name : String
  input : List IoConfig
  output : List IoConfig
  sequenceBatching : Option SequenceBatching
  batchInput : List BatchInput

/-- `sequence_batching.state`, where both are there. -/
def ModelConfig.state? (cfg : ModelConfig) : Option (List StateConfig) := cfg.sequenceBatching.bind (·.state)

def ModelConfig.states (cfg : ModelConfig) : List StateConfig := cfg.state?.getD []

/-- The target names of all batch inputs, in order. -/
def ModelConfig.targetNames (cfg : ModelConfig) : List String := cfg.batchInput.flatMap (·.targetNames)

/-- How the constructor fails: with an error of the server's API, or not so. -/
inductive Refusal where
  | error (e : TritonError)
  | fault (f : Fault)
  deriving DecidableEq, Repr

/-- `std::unordered_map<std::string, int>`, the newest entry first. -/
abbrev IndexMap := List (String × Int)

inductive NamingConvention where
  | namedIndex | forwardArgument | strictConfigOrdering
  deriving DecidableEq, Repr

/-- `ModelConfigDataTypeToTorchType`. -/
def modelConfigDataTypeToTorchType : String → Bool × ScalarType
  | "TYPE_BOOL" => (true, .bool)
  | "TYPE_UINT8" => (true, .byte)
  | "TYPE_INT8" => (true, .char)
  | "TYPE_INT16" => (true, .short)
  | "TYPE_INT32" => (true, .int)
  | "TYPE_INT64" => (true, .long)
  | "TYPE_FP16" => (true, .half)
  | "TYPE_FP32" => (true, .float)
  | "TYPE_FP64" => (true, .double)
  | _ => (false, .int)

/-! ### The naming convention -/

def withStateError (cfg : ModelConfig) : TritonError :=
  ⟨.invalidArg, "PyTorch model '" ++ cfg.name ++ "' is using sequence batching with state but not all " ++
    "inputs and outputs follow the <name>__<index> naming convention. "⟩

def stateNameError (cfg : ModelConfig) (stateName : String) : TritonError :=
  ⟨.invalidArg, "PyTorch model '" ++ cfg.name ++ "' is using sequence batching with state but state '" ++
    stateName ++ "' does not follow the <name>__<index> naming convention. "⟩

/-- `GetNamingConvention`. Which section it inspects depends on `allowed_ios`. -/
def getNamingConvention (cfg : ModelConfig) (allowedIos : List String) :
    Except TritonError NamingConvention :=
  let output := allowedIos.isEmpty
  let ios := if output then cfg.output else cfg.input
  let convention :=
    if ios.all (followsConvention ·.name) then NamingConvention.namedIndex else .strictConfigOrdering
  match cfg.state? with
  | none => .ok convention
  | some states =>
    if convention ≠ .namedIndex then .error (withStateError cfg)
    else
      let names := states.map fun state => if output then state.outputName else state.inputName
      match names.find? fun name => !followsConvention name with
      | some name => .error (stateNameError cfg name)
      | none => .ok convention

/-! ### Inputs -/

/-- The number of a name: read off it, or its position. -/
def indexByConvention (convention : NamingConvention) (name : String) (index : Nat) : Except Fault Int :=
  match convention with
  | .namedIndex => do
    let suffix ← substr name (startPos name + 2)
    .ok (atoi suffix)
  | .forwardArgument | .strictConfigOrdering => .ok index

/-- `AddInputToMap`. -/
def addInputToMap (convention : NamingConvention) (ioName : String) (index : Nat) (m : IndexMap) :
    Except Refusal IndexMap := do
  let ipIndex ← (indexByConvention convention ioName index).mapError .fault
  .ok ((ioName, ipIndex) :: m)

/-- The check of a data type. The two texts name the kind of input or output. -/
def checkDataType (cfg : ModelConfig) (kind kind' name dataType : String) : Except TritonError ScalarType :=
  let pr := modelConfigDataTypeToTorchType dataType
  if dataType = "TYPE_STRING" then
    .error ⟨.internal, "AOTInductor models do not support string/bytes datatype for " ++ kind ++ " '" ++
      name ++ "' for model '" ++ cfg.name ++ "'"⟩
  else if pr.1 then .ok pr.2
  else
    .error ⟨.internal, "unsupported datatype " ++ dataType ++ " for " ++ kind' ++ " '" ++ name ++
      "' for model '" ++ cfg.name ++ "'"⟩

/-- Names added from number `i` on, each with what the check of its data type returns. -/
def addInputsFrom (convention : NamingConvention) :
    Nat → List (String × Except TritonError ScalarType) → IndexMap → Except Refusal IndexMap
  | _, [], m => .ok m
  | i, (ioName, checked) :: rest, m => do
    let m ← addInputToMap convention ioName i m
    let _ ← checked.mapError .error
    addInputsFrom convention (i + 1) rest m

/-- Target names added from number `i` on. -/
def addTargetsFrom (convention : NamingConvention) :
    Nat → List String → IndexMap → Except Refusal IndexMap
  | _, [], m => .ok m
  | i, inputName :: rest, m => do
    let m ← addInputToMap convention inputName i m
    addTargetsFrom convention (i + 1) rest m

def noConfigInputError : TritonError :=
  ⟨.internal, "model configuration must contain at least one input, none were specified."⟩

/-- `ValidateInputs`: the map it leaves of `m`. -/
def validateInputs (cfg : ModelConfig) (_expectedInputCnt : Nat) (m : IndexMap) :
    Except Refusal IndexMap :=
  if cfg.input.isEmpty then .error (.error noConfigInputError)
  else do
    let convention ← (getNamingConvention cfg []).mapError .error
    let m ← addInputsFrom convention 0
      (cfg.input.map fun io => (io.name, checkDataType cfg "input" "input" io.name io.dataType)) m
    let m ← addInputsFrom convention 0
      (cfg.states.map fun state => (state.inputName,
        checkDataType cfg "input state" "input state" state.inputName state.dataType)) m
    addTargetsFrom convention cfg.input.length cfg.targetNames m

/-! ### Outputs -/

/-- `output_index_map_` and `output_dtype_map_`, the newest entry first. -/
structure OutputMaps where
  indexMap : IndexMap
  dtypeMap : List (String × DataType)
  deriving DecidableEq, Repr

/-- The outputs from position `i` on. -/
def addOutputsFrom (cfg : ModelConfig) (convention : NamingConvention) :
    Nat → List IoConfig → OutputMaps → Except Refusal OutputMaps
  | _, [], maps => .ok maps
  | i, io :: rest, maps => do
    let opIndex ← (indexByConvention convention io.name i).mapError .fault
    let dtype ← (checkDataType cfg "output" "output" io.name io.dataType).mapError .error
    addOutputsFrom cfg convention (i + 1) rest
      ⟨(io.name, opIndex) :: maps.indexMap, (io.name, convertTorchTypeToDataType dtype) :: maps.dtypeMap⟩

/-- The outputs of the sequence states, always numbered by their names. -/
def addOutputStates (cfg : ModelConfig) : List StateConfig → OutputMaps → Except Refusal OutputMaps
  | [], maps => .ok maps
  | state :: rest, maps => do
    let _ ← state.dims.mapError Refusal.error
    let opIndex ← (indexByConvention .namedIndex state.outputName 0).mapError .fault
    let dtype ← (checkDataType cfg "output state" "state" state.outputName state.dataType).mapError .error
    addOutputStates cfg rest
      ⟨(state.outputName, opIndex) :: maps.indexMap,
        (state.outputName, convertTorchTypeToDataType dtype) :: maps.dtypeMap⟩

def noConfigOutputError : TritonError :=
  ⟨.internal, "model configuration must contain at least one output, none were specified."⟩

/-- `ValidateOutputs`. -/
def validateOutputs (cfg : ModelConfig) : Except Refusal OutputMaps :=
  if cfg.output.isEmpty then .error (.error noConfigOutputError)
  else do
    let convention ← (getNamingConvention cfg []).mapError .error
    let maps ← addOutputsFrom cfg convention 0 cfg.output ⟨[], []⟩
    addOutputStates cfg cfg.states maps

/-! ### Sequence controls -/

def controlNameError (tensorName : String) : TritonError :=
  ⟨.internal, "input '" ++ tensorName ++ "' does not follow <name>__<index> naming convention."⟩

def controlTypeError (tensorName tensorDatatype : String) : TritonError :=
  ⟨.internal, "input '" ++ tensorName ++ "' type '" ++ tensorDatatype ++ "' is not supported by PyTorch."⟩

/-- What the two validations below do with the properties of a control: whether the
control is there, and the map. -/
def validateSequenceControl (properties : Except TritonError (String × String)) (typed : Bool)
    (m : IndexMap) : Except TritonError (Bool × IndexMap) := do
  let (tensorName, tensorDatatype) ← properties
  if tensorName.isEmpty then .ok (false, m)
  else if !followsConvention tensorName then .error (controlNameError tensorName)
  else if typed && !(modelConfigDataTypeToTorchType tensorDatatype).1 then
    .error (controlTypeError tensorName tensorDatatype)
  else .ok (true, (tensorName, nameIndex tensorName) :: m)

/-- `ValidateBooleanSequenceControl`. -/
def validateBooleanSequenceControl (batching : SequenceBatching) (controlKind : String) (m : IndexMap) :
    Except TritonError (Bool × IndexMap) :=
  validateSequenceControl (batching.control controlKind) false m

/-- `ValidateTypedSequenceControl`. -/
def validateTypedSequenceControl (batching : SequenceBatching) (controlKind : String) (m : IndexMap) :
    Except TritonError (Bool × IndexMap) :=
  validateSequenceControl (batching.control controlKind) true m

/-- The controls of a sequence model: how many there are, and the map. -/
def sequenceControls (batching : SequenceBatching) : Except TritonError (Nat × IndexMap) := do
  let (haveStart, m) ← validateBooleanSequenceControl batching "CONTROL_SEQUENCE_START" []
  let (haveEnd, m) ← validateBooleanSequenceControl batching "CONTROL_SEQUENCE_END" m
  let (haveReady, m) ← validateBooleanSequenceControl batching "CONTROL_SEQUENCE_READY" m
  let (haveCorrid, m) ← validateTypedSequenceControl batching "CONTROL_SEQUENCE_CORRID" m
  .ok (haveStart.toNat + haveEnd.toNat + haveReady.toNat + haveCorrid.toNat, m)

/-! ### The constructor -/

/-- What the constructor of `ModelInstanceState` has read. -/
structure IoMaps where
  inputIndexMap : IndexMap
  batchInputCount : Nat
  outputs : OutputMaps
  deriving DecidableEq, Repr

/-- The controls, where the model is a sequence model. -/
def ModelConfig.controls (cfg : ModelConfig) : Except TritonError (Nat × IndexMap) :=
  match cfg.sequenceBatching with
  | none => .ok (0, [])
  | some batching => sequenceControls batching

/-- The part of the constructor that reads the model configuration. -/
def constructMaps (cfg : ModelConfig) : Except Refusal IoMaps := do
  let (controls, m) ← cfg.controls.mapError .error
  let expectedInputCnt := cfg.input.length + cfg.batchInput.length + controls + cfg.states.length
  let inputIndexMap ← validateInputs cfg expectedInputCnt m
  let outputs ← validateOutputs cfg
  .ok ⟨inputIndexMap, cfg.batchInput.length, outputs⟩

end TritonAot
