import TritonAot.Instance.Inputs

/-! `ReadOutputTensors`.

The outputs of the configuration are read in name order. Each is checked, handed
to the responder and, where it is a sequence state, its states are updated before
the next output is looked at; the first error is returned. -/
namespace TritonAot

variable {E : Type} [Scalars E]

/-- What the server and torch decide while the outputs are read: responses the
responder fails, the requests it makes a state for, and the errors of their update. -/
structure OutputChance where
  contiguous : String → Option String
  process : String → List (Nat × TritonError)
  processState : String → List (Nat × TritonError)
  states : String → List Nat
  stateUpdate : String → Nat → Option TritonError
  processBatch : String → List (Nat × TritonError)
  finalize : List (Nat × TritonError)

def OutputChance.smooth : OutputChance :=
  ⟨fun _ => none, fun _ => [], fun _ => [], fun _ => [], fun _ _ => none, fun _ => [], []⟩

/-- `TRITONSERVER_DataTypeString`. -/
def dataTypeString : DataType → String
  | .invalid => "<invalid>"
  | .bool => "BOOL"
  | .uint8 => "UINT8"
  | .uint16 => "UINT16"
  | .uint32 => "UINT32"
  | .uint64 => "UINT64"
  | .int8 => "INT8"
  | .int16 => "INT16"
  | .int32 => "INT32"
  | .int64 => "INT64"
  | .fp16 => "FP16"
  | .fp32 => "FP32"
  | .fp64 => "FP64"
  | .bytes => "BYTES"
  | .bf16 => "BF16"

def notFoundError (name what : String) : TritonError :=
  ⟨.internal, "output tensor '" ++ name ++ "' is not found: " ++ what⟩

def datatypeError (name : String) (expected provided : DataType) : TritonError :=
  ⟨.invalidArg, "configuration expects datatype TYPE_" ++ dataTypeString expected ++ " for output '" ++
    name ++ "', model provides TYPE_" ++ dataTypeString provided⟩

def scalarError (name : String) : TritonError :=
  ⟨.invalidArg, "output '" ++ name ++ "' is a scalar which is not supported."⟩

/-- The checks of one output, in the order they are made. -/
def refusal (cfg : Config E) (chance : OutputChance) (name : String) (t : Tensor E) : Option TritonError :=
  match chance.contiguous name with
  | some what => some (notFoundError name what)
  | none =>
    let provided := convertTorchTypeToDataType t.dtype
    if cfg.outputDtypeMap name ≠ provided then
      some (datatypeError name (cfg.outputDtypeMap name) provided)
    else if !cfg.isBatchOutput name && t.shape.isEmpty then some (scalarError name)
    else none

/-- What has been done when the reading stops: the states updated, as output and
request, the responses, and the error returned. -/
structure Reading where
  updates : List (String × Nat)
  responses : Responses
  error : Option TritonError

/-- `TRITONBACKEND_StateUpdate` on the states of one output, up to an error. -/
def updateStates (chance : OutputChance) (name : String) :
    List Nat → List (String × Nat) × Option TritonError
  | [] => ([], none)
  | i :: rest =>
    match chance.stateUpdate name i with
    | some err => ([(name, i)], some err)
    | none =>
      let (updates, error) := updateStates chance name rest
      ((name, i) :: updates, error)

/-- `output_tensors[op_index]`. -/
def outputAt (cfg : Config E) (outputs : List (Tensor E)) (name : String) : Option (Tensor E) :=
  if cfg.outputIndexMap name < 0 then none else outputs[(cfg.outputIndexMap name).toNat]?

/-- The loop body of `ReadOutputTensors`. -/
def readOutput (cfg : Config E) (chance : OutputChance) (outputs : List (Tensor E)) (o : ModelOutput)
    (responses : Responses) : Except Fault Reading :=
  match outputAt cfg outputs o.name with
  | none => .error .undefined
  | some t =>
    match refusal cfg chance o.name t with
    | some err => .ok ⟨[], responses, some err⟩
    | none =>
      if cfg.isBatchOutput o.name then
        .ok ⟨[], failEach (chance.processBatch o.name) responses, none⟩
      else
        let responses :=
          if o.output ≠ -1 then failEach (chance.process o.name) responses else responses
        if o.state ≠ -1 then
          let (updates, error) := updateStates chance o.name (chance.states o.name)
          .ok ⟨updates, failEach (chance.processState o.name) responses, error⟩
        else .ok ⟨[], responses, none⟩

def readFrom (cfg : Config E) (chance : OutputChance) (outputs : List (Tensor E)) :
    List ModelOutput → Responses → Except Fault Reading
  | [], responses => .ok ⟨[], failEach chance.finalize responses, none⟩
  | o :: rest, responses => do
    let read ← readOutput cfg chance outputs o responses
    match read.error with
    | some _ => .ok read
    | none =>
      let later ← readFrom cfg chance outputs rest read.responses
      .ok {later with updates := read.updates ++ later.updates}

def readOutputTensors (cfg : Config E) (chance : OutputChance) (outputs : List (Tensor E))
    (responses : Responses) : Except Fault Reading :=
  readFrom cfg chance outputs cfg.modelOutputs.entries responses

/-- Outputs that are all in the vector are read. -/
theorem readFrom_returns {cfg : Config E} (chance : OutputChance) {outputs : List (Tensor E)}
    {entries : List ModelOutput} (h : ∀ o ∈ entries, ∃ t, outputAt cfg outputs o.name = some t)
    (responses : Responses) : ∃ read, readFrom cfg chance outputs entries responses = .ok read := by
  induction entries generalizing responses with
  | nil => exact ⟨_, rfl⟩
  | cons o rest ih =>
    obtain ⟨t, ht⟩ := h o (List.mem_cons_self ..)
    have hfirst : ∃ first, readOutput cfg chance outputs o responses = .ok first := by
      simp only [readOutput, ht]
      split
      · exact ⟨_, rfl⟩
      · split
        · exact ⟨_, rfl⟩
        · split <;> exact ⟨_, rfl⟩
    obtain ⟨first, hfirst⟩ := hfirst
    obtain ⟨later, hlater⟩ := ih (fun o' ho' => h o' (List.mem_cons_of_mem _ ho')) first.responses
    cases he : first.error with
    | some err => exact ⟨first, bind_ok.mpr ⟨first, hfirst, by rw [he]⟩⟩
    | none => exact ⟨_, bind_ok.mpr ⟨first, hfirst, by rw [he]; exact bind_ok.mpr ⟨later, hlater, rfl⟩⟩⟩

/-! ### State updates behind an error -/

/-- The state updates of an output that is read without an error. -/
def allUpdates (cfg : Config E) (chance : OutputChance) (o : ModelOutput) : List (String × Nat) :=
  if cfg.isBatchOutput o.name ∨ o.state = -1 then [] else (chance.states o.name).map fun i => (o.name, i)

/-- An output at which the reading stops with an error, and the state updates
made for it by then: none where a check refuses it, and those up to the failing
one where an update itself fails. -/
inductive StopsAt (cfg : Config E) (chance : OutputChance) (outputs : List (Tensor E)) (o : ModelOutput)
    (err : TritonError) : List (String × Nat) → Prop where
  | refused {t : Tensor E} (at_ : outputAt cfg outputs o.name = some t)
      (no : refusal cfg chance o.name t = some err) : StopsAt cfg chance outputs o err []
  | update {made : List (String × Nat)} {i : Nat} {rest : List (String × Nat)}
      (split : allUpdates cfg chance o = made ++ (o.name, i) :: rest)
      (fails : chance.stateUpdate o.name i = some err) :
      StopsAt cfg chance outputs o err (made ++ [(o.name, i)])

theorem updateStates_ok {chance : OutputChance} {name : String} {is : List Nat}
    {updates : List (String × Nat)} (h : updateStates chance name is = (updates, none)) :
    updates = is.map fun i => (name, i) := by
  induction is generalizing updates with
  | nil =>
    cases h
    rfl
  | cons i rest ih =>
    rw [updateStates] at h
    cases hu : chance.stateUpdate name i with
    | some err => rw [hu] at h; cases h
    | none =>
      rw [hu] at h
      obtain ⟨hupdates, herror⟩ := Prod.mk.inj h
      have hrest := ih (Prod.ext rfl herror)
      rw [← hupdates, List.map_cons, ← hrest]

theorem updateStates_error {chance : OutputChance} {name : String} {is : List Nat}
    {updates : List (String × Nat)} {err : TritonError}
    (h : updateStates chance name is = (updates, some err)) :
    ∃ made i rest, is.map (fun i => (name, i)) = made ++ (name, i) :: rest ∧
      chance.stateUpdate name i = some err ∧ updates = made ++ [(name, i)] := by
  induction is generalizing updates with
  | nil => cases h
  | cons i rest ih =>
    rw [updateStates] at h
    cases hu : chance.stateUpdate name i with
    | some err' =>
      rw [hu] at h
      cases h
      exact ⟨[], i, rest.map fun i => (name, i), rfl, hu, rfl⟩
    | none =>
      rw [hu] at h
      obtain ⟨hupdates, herror⟩ := Prod.mk.inj h
      obtain ⟨made, j, later, hsplit, hfails, hmade⟩ := ih (Prod.ext rfl herror)
      refine ⟨(name, i) :: made, j, later, ?_, hfails, ?_⟩
      · rw [List.map_cons, hsplit, List.cons_append]
      · rw [← hupdates, List.cons_append, ← hmade]

/-- What reading one output can do. -/
theorem readOutput_cases {cfg : Config E} {chance : OutputChance} {outputs : List (Tensor E)}
    {o : ModelOutput} {responses : Responses} {read : Reading}
    (h : readOutput cfg chance outputs o responses = .ok read) :
    (read.error = none ∧ read.updates = allUpdates cfg chance o) ∨
      ∃ err, read.error = some err ∧ StopsAt cfg chance outputs o err read.updates := by
  rw [readOutput] at h
  cases hat : outputAt cfg outputs o.name with
  | none => rw [hat] at h; cases h
  | some t =>
    rw [hat] at h
    cases hno : refusal cfg chance o.name t with
    | some err =>
      simp only [hno] at h
      cases h
      exact .inr ⟨err, rfl, .refused hat hno⟩
    | none =>
      simp only [hno] at h
      by_cases hbatch : cfg.isBatchOutput o.name = true
      · rw [if_pos hbatch] at h
        cases h
        exact .inl ⟨rfl, (if_pos (Or.inl hbatch)).symm⟩
      · rw [if_neg hbatch] at h
        by_cases hstate : o.state = -1
        · rw [if_neg (not_not.mpr hstate)] at h
          cases h
          exact .inl ⟨rfl, (if_pos (Or.inr hstate)).symm⟩
        · rw [if_pos hstate] at h
          have hall : allUpdates cfg chance o = (chance.states o.name).map fun i => (o.name, i) := by
            rw [allUpdates, if_neg (not_or.mpr ⟨hbatch, hstate⟩)]
          cases h
          cases hupd : updateStates chance o.name (chance.states o.name) with
          | mk updates error =>
            cases error with
            | none => exact .inl ⟨rfl, (updateStates_ok hupd).trans hall.symm⟩
            | some err =>
              obtain ⟨made, i, rest, hsplit, hfails, hmade⟩ := updateStates_error hupd
              refine .inr ⟨err, rfl, ?_⟩
              show StopsAt cfg chance outputs o err updates
              rw [hmade]
              exact .update (hall.trans hsplit) hfails

/-- The outputs read before the one at which the reading stops have all their
states updated. -/
theorem readFrom_error {cfg : Config E} {chance : OutputChance} {outputs : List (Tensor E)}
    {entries : List ModelOutput} {responses : Responses} {read : Reading} {err : TritonError}
    (h : readFrom cfg chance outputs entries responses = .ok read) (he : read.error = some err) :
    ∃ before failing after made, entries = before ++ failing :: after ∧
      StopsAt cfg chance outputs failing err made ∧
      read.updates = before.flatMap (allUpdates cfg chance) ++ made := by
  induction entries generalizing responses read with
  | nil =>
    cases h
    cases he
  | cons o rest ih =>
    obtain ⟨first, ho, h⟩ := bind_ok.mp h
    rcases readOutput_cases ho with ⟨hnone, hall⟩ | ⟨err', hsome, hstop⟩
    · rw [hnone] at h
      obtain ⟨later, hl, h⟩ := bind_ok.mp h
      cases h
      obtain ⟨before, failing, after, made, hsplit, hstop, hmade⟩ := ih hl he
      refine ⟨o :: before, failing, after, made, by rw [hsplit, List.cons_append], hstop, ?_⟩
      show first.updates ++ later.updates = _
      rw [hall, hmade, List.flatMap_cons, List.append_assoc]
    · rw [hsome] at h
      cases h
      rw [hsome] at he
      cases he
      exact ⟨[], o, rest, _, rfl, hstop, rfl⟩

/-- **An error leaves exactly the states of the outputs before it updated**: those
that sort before the failing output, and of that output the updates up to the
failing one where it is an update that fails. -/
theorem readOutputTensors_error {cfg : Config E} {chance : OutputChance} {outputs : List (Tensor E)}
    {responses : Responses} {read : Reading} {err : TritonError}
    (h : readOutputTensors cfg chance outputs responses = .ok read) (he : read.error = some err) :
    ∃ before failing after made, cfg.modelOutputs.entries = before ++ failing :: after ∧
      (∀ o ∈ before, o.name < failing.name) ∧ StopsAt cfg chance outputs failing err made ∧
      read.updates = before.flatMap (allUpdates cfg chance) ++ made := by
  obtain ⟨before, failing, after, made, hsplit, hstop, hmade⟩ := readFrom_error h he
  refine ⟨before, failing, after, made, hsplit, fun o ho => ?_, hstop, hmade⟩
  have hasc := cfg.modelOutputs.ascending
  rw [hsplit] at hasc
  exact (List.pairwise_append.mp hasc).2.2 o ho failing (List.mem_cons_self ..)

/-- A state output that sorts before an output of another type than configured. -/
def stateThenClient : Config Int :=
  {Config.bare Int with
    modelOutputs := ⟨[⟨"OUTPUT_STATE__1", -1, 0⟩, ⟨"SCORES__0", 0, -1⟩], by decide⟩
    outputIndexMap := fun name => if name = "SCORES__0" then 0 else 1
    outputDtypeMap := fun _ => .fp32}

def halfThenFloat : List (Tensor Int) := [Tensor.zeros .half .cuda [1, 2], Tensor.zeros .float .cuda [1, 3]]

/-- The responder makes a state for the one request. -/
def oneState : OutputChance := {OutputChance.smooth with states := fun _ => [0]}

/-- The state was updated and the float output refused. -/
def stoppedReading : Reading :=
  ⟨[("OUTPUT_STATE__1", 0)], ⟨[some 0], []⟩, some (datatypeError "SCORES__0" .fp32 .fp16)⟩

theorem stoppedReading_eq :
    readOutputTensors stateThenClient oneState halfThenFloat ⟨[some 0], []⟩ = .ok stoppedReading := rfl

theorem readOutputTensors_error_after_update :
    ∃ before failing after made,
      stateThenClient.modelOutputs.entries = before ++ failing :: after ∧
      (∀ o ∈ before, o.name < failing.name) ∧
      StopsAt stateThenClient oneState halfThenFloat failing (datatypeError "SCORES__0" .fp32 .fp16) made ∧
      stoppedReading.updates = before.flatMap (allUpdates stateThenClient oneState) ++ made :=
  readOutputTensors_error stoppedReading_eq rfl

/-- An error may come after a state was updated. -/
theorem error_not_before_updates :
    ¬ ∀ (cfg : Config Int) (chance : OutputChance) (outputs : List (Tensor Int)) (responses : Responses)
      (read : Reading), readOutputTensors cfg chance outputs responses = .ok read →
        read.error ≠ none → read.updates = [] := by
  intro h
  have hupdates := h stateThenClient oneState halfThenFloat _ stoppedReading stoppedReading_eq nofun
  cases hupdates

end TritonAot
