import TritonAot.Graph.Attempt
import TritonAot.Graph.Deliveries

/-! What `Execute` issues.

The host decides on types, shapes and keys; what a buffer holds is read when the device
gets there. A captured graph is the forward pass on static inputs of the types and shapes
it was captured with. -/
namespace TritonAot

open Streams

variable {E : Type} [Scalars E]

/-! ### Tensors and buffers -/

/-- What the host knows of a tensor. -/
structure TensorInfo where
  dtype : ScalarType
  device : Device
  shape : List Nat
  deriving DecidableEq

def Tensor.info (t : Tensor E) : TensorInfo := ⟨t.dtype, t.device, t.shape⟩

/-- The tensor on the elements of a buffer. -/
def TensorInfo.on (info : TensorInfo) (d : List E) : Tensor E :=
  if h : d.length = info.shape.prod then .ofValues info.dtype info.device info.shape d h
  else .zeros info.dtype info.device info.shape

/-- What an operation makes of the elements of a buffer. -/
def elementwise (info : TensorInfo) (operation : Tensor E → Except Fault (Tensor E)) (d : List E) : List E :=
  match operation (info.on d) with
  | .ok t => t.data
  | .error _ => []

/-- A captured graph: its key in the cache, and what its static inputs are. -/
abbrev GraphKey := String × List TensorInfo

def CudaGraphEntry.graphKey (e : CudaGraphEntry E) (key : String) : GraphKey :=
  (key, e.staticInputs.map Tensor.info)

/-- An output of the forward pass on the elements of its inputs. -/
def outputOn (forward : List (Tensor E) → List (Tensor E)) (infos : List TensorInfo) (ds : List (List E)) (j : Nat) :
    List E :=
  ((forward (List.zipWith TensorInfo.on infos ds))[j]?.map Tensor.data).getD []

def graphOn (forward : List (Tensor E) → List (Tensor E)) (key : GraphKey) : List (List E) → Nat → List E :=
  outputOn forward key.2

/-- A buffer, and what is seen of it. -/
abbrev Source (E : Type) := Buffer GraphKey × (List E → List E)

/-! ### What is issued -/

/-- Where the tensors of a batch are at a candidate. -/
def placedAt (r : Nat) (cand : Int) (i : Nat) : Buffer GraphKey := if cand = r then .gathered i else .padded i

/-- The loop of `PadRequestsUp`, as far as it gets. -/
def padsFrom (alloc : Int → Nat → Option String) (per r : Nat) (bucket : Int) :
    Nat → List (Tensor E) → List (List E → List E)
  | _, [] => []
  | i, t :: rest =>
    match padTensor alloc per r bucket i t with
    | .error _ => []
    | .ok _ => elementwise t.info (padTensor alloc per r bucket i) :: padsFrom alloc per r bucket (i + 1) rest

def padIssues (alloc : Int → Nat → Option String) (inputs : List (Tensor E)) (r : Nat) (cand : Int) :
    List (Routine GraphKey (List E)) :=
  if cand = r then []
  else
    match inputs[1]? with
    | none => []
    | some multi => [.padRequestsUp (padsFrom alloc (multi.numel / r) r cand 0 inputs)]

/-- The selection. A capture that fails has issued `issued` ops at its bucket. -/
def selectIssues (chance : Chance) (issued : Int → Nat) (inputs : List (Tensor E)) (r : Nat) :
    List Int → GraphState E → List (Routine GraphKey (List E))
  | [], _ => []
  | cand :: rest, s =>
    if bucketKey cand ∈ s.cudaGraphFailed then selectIssues chance issued inputs r rest s
    else
      padIssues chance.alloc inputs r cand ++
        match atCandidate (padRequestsUp chance.alloc inputs r) inputs r cand with
        | .error _ => []
        | .ok candInputs =>
          match s.cudaGraphCache.lookup (bucketKey cand) with
          | some _ => []
          | none =>
            .captureBucket (bucketKey cand, candInputs.map Tensor.info)
              ((List.range candInputs.length).map (placedAt r cand))
              (if chance.capture cand then none else some (issued cand)) ::
              if chance.capture cand then [] else selectIssues chance issued inputs r rest (s.failedAt cand)

/-- `e.static_inputs[i].copy_(src)`. -/
def CudaGraphEntry.copyInto (e : CudaGraphEntry E) (i : Nat) (src : Tensor E) : Except Fault (Tensor E) :=
  match e.staticInputs[i]? with
  | some st => st.copy_ src
  | none => .error .undefined

/-- The copies of a replay into the entry it is made on. -/
def Attempt.copies (a : Attempt E) (e : CudaGraphEntry E) : List (Source E) :=
  (a.copyFrom.getD []).mapIdx fun i src => (placedAt a.r a.bucket i, elementwise src.info (e.copyInto i))

/-- A replay that is launched. -/
def Attempt.issues (a : Attempt E) : List (Routine GraphKey (List E)) :=
  match a.state.cudaGraphCache.lookup a.key with
  | none => []
  | some e => [.replayCudaGraphEntry (e.graphKey a.key) (a.copies e) none]

/-- `ExecuteWithCudaGraph`. -/
def graphIssues (cfg : GraphConfig) (forward : List (Tensor E) → List (Tensor E)) (chance : Chance)
    (issued : Int → Nat) (inputs : List (Tensor E)) (s : GraphState E) : List (Routine GraphKey (List E)) :=
  match inputs with
  | [t0, t1, t2] =>
    match requestCount t0 t1 t2 with
    | .error _ => []
    | .ok r =>
      let s := (checkWarmupWidths cfg t0 t1 r s).1
      (if s.prestagedEntry = none then selectIssues chance issued inputs r (cfg.candidates r) s else []) ++
        (attemptedFrom cfg forward chance inputs r s).elim [] Attempt.issues
  | _ => []

/-- The eager run on the tensors of a batch, wherever they are. -/
def eagerIssues (forward : List (Tensor E) → List (Tensor E)) (chance : Chance) (sources : List (Source E))
    (inputs : List (Tensor E)) : List (Routine GraphKey (List E)) :=
  match chance.eager with
  | some _ => []
  | none => [.run (sources.map Prod.fst) fun ds =>
      outputOn forward (inputs.map Tensor.info) (List.zipWith (fun source d => source.2 d) sources ds)]

/-- A call that returned false. -/
def Ran.fellBack (ran : Ran E Bool) : Bool :=
  match ran.value with
  | .ok false => true
  | _ => false

/-- `Execute`. -/
def executeIssues (cfg : GraphConfig) (forward : List (Tensor E) → List (Tensor E)) (chance : Chance)
    (issued : Int → Nat) (sources : List (Source E)) (inputs : List (Tensor E)) (s : GraphState E) :
    List (Routine GraphKey (List E)) :=
  if cfg.enabledCudaGraph && !cfg.deviceIsCpu then
    graphIssues cfg forward chance issued inputs s ++
      if (executeWithCudaGraph cfg forward chance inputs s []).fellBack then eagerIssues forward chance sources inputs
      else []
  else eagerIssues forward chance sources inputs

/-- Where the outputs of a replay are, in the state it leaves. -/
def Attempt.outputSources (a : Attempt E) (s : GraphState E) : List (Source E) :=
  match s.cudaGraphCache.lookup a.key with
  | none => []
  | some e => e.staticOutputs.mapIdx fun j o =>
      (.staticOutput (e.graphKey a.key) j, elementwise o.info (sliceOutput a.r a.bucket))

def eagerSources (forward : List (Tensor E) → List (Tensor E)) (chance : Chance) (inputs : List (Tensor E)) :
    List (Source E) :=
  match chance.eager with
  | some _ => []
  | none => (forward inputs).mapIdx fun j _ => (.eager j, id)

/-- Where the outputs of `Execute` are. What a replay appended before it threw stays. -/
def outputSources (cfg : GraphConfig) (forward : List (Tensor E) → List (Tensor E)) (chance : Chance)
    (inputs : List (Tensor E)) (s : GraphState E) : List (Source E) :=
  if cfg.enabledCudaGraph && !cfg.deviceIsCpu then
    let ran := executeWithCudaGraph cfg forward chance inputs s []
    ((attempted cfg forward chance inputs s).elim [] (·.outputSources ran.state)).take ran.outputs.length ++
      if ran.fellBack then eagerSources forward chance inputs else []
  else eagerSources forward chance inputs

/-! ### What the elements are -/

@[simp] theorem info_on (t : Tensor E) : t.info.on t.data = t := by
  have hsize : t.data.length = t.info.shape.prod := t.size_eq
  rw [TensorInfo.on, dif_pos hsize]
  exact Tensor.ext rfl rfl rfl t.map_cast_data

/-- On the elements of a tensor it is the operation on the tensor. -/
theorem elementwise_ok {operation : Tensor E → Except Fault (Tensor E)} {t u : Tensor E} (h : operation t = .ok u) :
    elementwise t.info operation t.data = u.data := by
  simp only [elementwise, info_on, h]

theorem outputOn_data (forward : List (Tensor E) → List (Tensor E)) (ts : List (Tensor E)) {j : Nat} {o : Tensor E}
    (h : (forward ts)[j]? = some o) : outputOn forward (ts.map Tensor.info) (ts.map Tensor.data) j = o.data := by
  simp [outputOn, h]

/-! ### What a memory holds -/

/-- The buffers hold the tensors. -/
def OnDevice (m : Memory GraphKey (List E)) (target : Nat → Buffer GraphKey) (ts : List (Tensor E)) : Prop :=
  ∀ i t, ts[i]? = some t → m (target i) = t.data

section OnDevice
variable {m m' : Memory GraphKey (List E)} {target : Nat → Buffer GraphKey} {ts : List (Tensor E)}

theorem OnDevice.frame (h : OnDevice m target ts) (hsame : ∀ i, m' (target i) = m (target i)) : OnDevice m' target ts :=
  fun i t ht => (hsame i).trans (h i t ht)

theorem OnDevice.data (h : OnDevice m target ts) : (List.range ts.length).map (fun i => m (target i)) = ts.map Tensor.data := by
  apply List.ext_getElem?
  intro i
  by_cases hi : i < ts.length
  · simp only [List.getElem?_map, List.getElem?_range hi, List.getElem?_eq_getElem hi, Option.map_some]
    rw [h i ts[i] (List.getElem?_eq_getElem hi)]
  · simp [hi]

/-- Copies of what holds the elements. -/
theorem onDevice_copies (port : Port GraphKey) (hinj : Function.Injective target) {copies : List (Source E)}
    (hsources : ∀ c ∈ copies, ∀ i, c.1 ≠ target i)
    (h : ∀ (i : Nat) (t : Tensor E), ts[i]? = some t → ∃ c : Source E, copies[i]? = some c ∧ c.2 (m c.1) = t.data) :
    OnDevice (runOps (copiesFrom port target 0 copies) m) target ts := by
  intro i t ht
  obtain ⟨c, hc, hdata⟩ := h i t ht
  have hcopied := runOps_copies port hinj 0 m hc (hsources c (List.mem_of_getElem? hc))
  rwa [Nat.zero_add, hdata] at hcopied

end OnDevice

/-! ### Routines played in turn -/

section Played
variable {K D : Type} [DecidableEq K] {arity : Nat} {graph : K → List D → Nat → D} {books : Books K} {m : Memory K D}
  {q q' : List (Routine K D)} {routine : Routine K D} {P Q : Books K → Memory K D → Prop}

/-- What is left does not depend on the events that are recorded. -/
theorem runOps_issue (n n' : Nat) :
    runOps (routine.issue arity graph n) m = runOps (routine.issue arity graph n') m := by
  cases routine with
  | replayCudaGraphEntry key copies thrown =>
    cases thrown with
    | none =>
      simp only [Routine.issue, runOps_append]
      rfl
    | some issued =>
      simp only [Routine.issue, runOps_append]
      rfl
  | _ => rfl

theorem runOps_issueFrom (n n' : Nat) : runOps (issueFrom arity graph n q) m = runOps (issueFrom arity graph n' q) m := by
  induction q generalizing m n n' with
  | nil => rfl
  | cons routine rest ih =>
    rw [issueFrom, issueFrom, runOps_append, runOps_append, runOps_issue n n', ih]

theorem issueFrom_append (replay : Nat) : issueFrom arity graph replay (q ++ q') =
    issueFrom arity graph replay q ++ issueFrom arity graph (replay + q.length) q' := by
  induction q generalizing replay with
  | nil => rfl
  | cons routine rest ih => simp [issueFrom, ih, Nat.add_assoc, Nat.add_comm 1]

theorem mem_issueFrom {op : DeviceOp K D} {replay : Nat} (h : op ∈ issueFrom arity graph replay q) :
    ∃ routine ∈ q, ∃ n, op ∈ routine.issue arity graph n := by
  induction q generalizing replay with
  | nil => cases h
  | cons routine rest ih =>
    rcases List.mem_append.mp h with h | h
    · exact ⟨routine, List.mem_cons_self .., replay, h⟩
    · obtain ⟨later, hlater, n, hop⟩ := ih h
      exact ⟨later, List.mem_cons_of_mem _ hlater, n, hop⟩

/-- The routines keep the discipline, and what they issue, completed in turn, leaves `P`. -/
structure Played (arity : Nat) (graph : K → List D → Nat → D) (books : Books K) (m : Memory K D)
    (q : List (Routine K D)) (P : Books K → Memory K D → Prop) : Prop where
  disciplined : Disciplined arity books q
  leaves : P (booksAfter books q) (runOps (issueFrom arity graph 0 q) m)

theorem Played.nil (h : P books m) : Played arity graph books m [] P := ⟨trivial, h⟩

theorem Played.imp (h : Played arity graph books m q P) (himp : ∀ books m, P books m → Q books m) :
    Played arity graph books m q Q := ⟨h.disciplined, himp _ _ h.leaves⟩

theorem played_cons : Played arity graph books m (routine :: q) P ↔ routine.Allowed arity books ∧
    Played arity graph (routine.after books) (runOps (routine.issue arity graph 0) m) q P := by
  have hleaves : runOps (issueFrom arity graph 0 (routine :: q)) m =
      runOps (issueFrom arity graph 0 q) (runOps (routine.issue arity graph 0) m) := by
    rw [issueFrom, runOps_append, runOps_issueFrom]
  constructor
  · rintro ⟨⟨hallowed, hrest⟩, h⟩
    rw [hleaves] at h
    exact ⟨hallowed, hrest, h⟩
  · rintro ⟨hallowed, hrest, h⟩
    rw [← hleaves] at h
    exact ⟨⟨hallowed, hrest⟩, h⟩

theorem Played.one (hallowed : routine.Allowed arity books)
    (h : P (routine.after books) (runOps (routine.issue arity graph 0) m)) : Played arity graph books m [routine] P :=
  played_cons.mpr ⟨hallowed, .nil h⟩

theorem Played.append (h : Played arity graph books m q P)
    (h' : ∀ books m, P books m → Played arity graph books m q' Q) : Played arity graph books m (q ++ q') Q := by
  induction q generalizing books m with
  | nil => exact h' _ _ h.leaves
  | cons routine rest ih =>
    obtain ⟨hallowed, hrest⟩ := played_cons.mp h
    rw [List.cons_append]
    exact played_cons.mpr ⟨hallowed, ih hrest⟩

/-- `PadRequestsUp` copies what was gathered. -/
theorem issue_pads (pads : List (D → D)) (i : Nat) : (Routine.issue.padsFrom i pads : List (DeviceOp K D)) =
    copiesFrom .own .padded i (pads.mapIdx fun j pad => (.gathered (i + j), pad)) := by
  induction pads generalizing i with
  | nil => rfl
  | cons pad rest ih =>
    rw [Routine.issue.padsFrom, ih, List.mapIdx_cons]
    simp [copiesFrom, Nat.add_assoc, Nat.add_comm 1]

/-- The buffers a routine writes. -/
def Routine.Writes : Routine K D → Buffer K → Prop
  | create _, b => ∃ i, b = .created i
  | collect _ _, b => ∃ i, b = .gathered i
  | prestage key _ _, b => ∃ i, b = .staticInput key i
  | padRequestsUp _, b => ∃ i, b = .padded i
  | captureBucket key _ _, b | replayCudaGraphEntry key _ _, b => b.entryKey = some key
  | run _ _, b => ∃ j, b = .eager j
  | readOutputTensors batch _ _, b => ∃ j, b = .response batch j

theorem issue_writes {n : Nat} {port : Port K} {w : Work (Buffer K) D} (h : .work port w ∈ routine.issue arity graph n) :
    ∀ b ∈ w.writes, routine.Writes b := by
  intro b hb
  cases routine with
  | create tensors =>
    obtain ⟨i, d, heq⟩ := mem_storesFrom h
    cases heq
    exact ⟨i, hb⟩
  | collect fills synced | prestage key fills synced =>
    rcases List.mem_append.mp h with h | h
    · obtain ⟨fill, _, heq⟩ := mem_stores h
      cases heq
      exact ⟨fill.1, hb⟩
    · cases mem_drained h
  | padRequestsUp pads =>
    obtain ⟨i, pad, heq⟩ := mem_padsFrom h
    cases heq
    exact ⟨i, hb⟩
  | captureBucket key sources thrown =>
    rcases entry_captureOps (mem_of_take h) with heq | ⟨_, heq, hwrites⟩
    · cases heq
    · cases heq
      exact hwrites b hb
  | replayCudaGraphEntry key copies thrown =>
    have hcopies : ∀ {copies' : List (Buffer K × (D → D))},
        .work port w ∈ copiesFrom (.graph key) (.staticInput key) 0 copies' → b.entryKey = some key := by
      intro copies' h
      obtain ⟨_, heq, hwrites, _⟩ := entry_copies h
      cases heq
      exact hwrites b hb
    cases thrown with
    | none =>
      simp only [Routine.issue, awaitInputs, launchAndAwait, List.cons_append, List.nil_append, List.mem_cons,
        List.mem_append, reduceCtorEq, false_or, List.not_mem_nil, or_false] at h
      rcases h with h | heq
      · exact hcopies h
      · obtain ⟨_, hw, hwrites, _⟩ := entry_launch arity graph key
        rw [hw] at heq
        cases heq
        exact hwrites b hb
    | some issued =>
      simp only [Routine.issue, awaitInputs, List.cons_append, List.nil_append, List.mem_cons, reduceCtorEq,
        false_or] at h
      exact hcopies h
  | run inputs model =>
    rcases List.mem_cons.mp h with heq | h
    · cases heq
      cases b with
      | eager j => exact ⟨j, rfl⟩
      | _ => cases hb
    · cases List.mem_singleton.mp h
  | readOutputTensors batch outputs synced =>
    rcases List.mem_append.mp h with h | h
    · obtain ⟨j, _, c, _, heq⟩ := mem_copiesFrom h
      cases heq
      exact ⟨j, hb⟩
    · cases mem_drained h

theorem issue_frame {b : Buffer K} (h : ¬ routine.Writes b) (n : Nat) : runOps (routine.issue arity graph n) m b = m b :=
  runOps_frame (fun _ _ hw hmem => h (issue_writes hw b hmem)) m

/-- What no routine of a run writes is left alone. -/
theorem issueFrom_frame {b : Buffer K} (h : ∀ routine ∈ q, ¬ routine.Writes b) (replay : Nat) :
    runOps (issueFrom arity graph replay q) m b = m b := by
  apply runOps_frame
  intro port w hw hmem
  obtain ⟨routine, hroutine, n, hissued⟩ := mem_issueFrom hw
  exact h routine hroutine (issue_writes hissued b hmem)

end Played

end TritonAot
