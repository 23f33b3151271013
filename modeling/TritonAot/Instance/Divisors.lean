import TritonAot.Graph.Fallback
import TritonAot.Instance.Collect
import TritonAot.Instance.Packed
import TritonAot.Instance.Requests

/-! Where the backend divides, and by what.

`SetInputTensors` divides by the prestaged bucket, behind a comparison with the batch
size that keeps it positive; the width check divides by the request count behind a
comparison with zero; `PadRequestsUp` divides by it as it is. So the process ends in a
division by zero exactly where a batch without a row comes to be padded: one with an
empty input, or with a slot that was never set. -/
namespace TritonAot

variable {E : Type} [Scalars E]

/-- The call does not divide by zero. -/
structure Untrapped {α : Type} (x : Except Fault α) : Prop where
  ne : x ≠ .error .sigfpe

theorem untrapped_ok {α : Type} (a : α) : Untrapped (.ok a : Except Fault α) := ⟨nofun⟩

theorem untrapped_thrown {α : Type} (what : String) : Untrapped (.error (.thrown what) : Except Fault α) :=
  ⟨nofun⟩

theorem untrapped_undefined {α : Type} : Untrapped (.error .undefined : Except Fault α) := ⟨nofun⟩

theorem Untrapped.bind {α β : Type} {x : Except Fault α} {f : α → Except Fault β} (hx : Untrapped x)
    (hf : ∀ a, x = .ok a → Untrapped (f a)) : Untrapped (x >>= f) := by
  cases x with
  | error g =>
    exact ⟨fun h => hx.ne (congrArg Except.error (Except.error.inj h))⟩
  | ok a => exact hf a rfl

/-! ### The operations on tensors -/

theorem untrapped_size0 (t : Tensor E) : Untrapped t.size0 := by
  unfold Tensor.size0
  split
  · exact untrapped_thrown _
  · exact untrapped_ok _

theorem untrapped_narrow (t : Tensor E) (start len : Nat) : Untrapped (t.narrow start len) := by
  unfold Tensor.narrow
  split
  · exact untrapped_thrown _
  · split
    · exact untrapped_ok _
    · exact untrapped_thrown _

theorem untrapped_write (t : Tensor E) (start : Nat) (values : List E) : Untrapped (t.write start values) := by
  unfold Tensor.write
  split
  · exact untrapped_ok _
  · exact untrapped_undefined

theorem untrapped_gathered (dtype : ScalarType) (device : Device) (shape : List Nat) (values : List E) :
    Untrapped (gathered dtype device shape values) := by
  unfold gathered Tensor.fromBlob
  split
  · exact untrapped_ok _
  · split
    · exact untrapped_ok _
    · exact untrapped_undefined

theorem untrapped_setSlot (tensors : List (Option (Tensor E))) (index : Int) (t : Tensor E) :
    Untrapped (setSlot tensors index t) := by
  unfold setSlot
  split
  · exact untrapped_undefined
  · exact untrapped_ok _

theorem untrapped_fillStatic (r : Nat) (bucket : Int) (st : Tensor E) (values : List E) :
    Untrapped (fillStatic r bucket st values) := by
  unfold fillStatic
  refine (untrapped_write ..).bind fun written _ => (untrapped_size0 st).bind fun size _ => ?_
  simp only
  split
  · exact untrapped_write ..
  · exact untrapped_ok _

theorem untrapped_prestagedView (r : Nat) (bucket : Int) (st : Tensor E) :
    Untrapped (prestagedView r bucket st) :=
  (untrapped_size0 st).bind fun _ _ => untrapped_narrow ..

/-! ### The prestage checks -/

theorem untrapped_allOk {α : Type} {check : α → Except Fault Bool} {l : List α}
    (h : ∀ a ∈ l, Untrapped (check a)) : Untrapped (allOk check l) := by
  induction l with
  | nil => exact untrapped_ok _
  | cons a rest ih =>
    refine (h a (List.mem_cons_self ..)).bind fun ok _ => ?_
    cases ok with
    | true => exact ih fun b hb => h b (List.mem_cons_of_mem _ hb)
    | false => exact untrapped_ok _

theorem untrapped_lineUp (cfg : Config E) (e : CudaGraphEntry E) {bucket : Int} (hb : bucket ≠ 0) (r : Nat)
    (info : DeclaredInput) : Untrapped (lineUp cfg e bucket r info) := by
  unfold lineUp
  split
  · exact untrapped_ok _
  · split
    · exact untrapped_ok _
    · split
      · exact untrapped_ok _
      · exact (untrapped_size0 _).bind fun _ _ => untrapped_ok _

theorem untrapped_targetLineUp (cfg : Config E) (e : CudaGraphEntry E) {bucket : Int} (hb : bucket ≠ 0)
    (name : String) : Untrapped (targetLineUp cfg e bucket name) := by
  unfold targetLineUp
  split
  · exact untrapped_ok _
  · split
    · exact untrapped_ok _
    · exact (untrapped_size0 _).bind fun _ _ => untrapped_ok _

/-- The bucket is compared with a positive batch size before anything is divided by it. -/
theorem untrapped_viable (cfg : Config E) (declared : List DeclaredInput) (r : Nat) (key : String)
    (bucket : Int) (s : GraphState E) : Untrapped (viable cfg declared r key bucket s) := by
  unfold viable
  split
  · exact untrapped_ok _
  · rename_i hguard
    simp only [Bool.or_eq_true, decide_eq_true_eq, not_or] at hguard
    have hb : bucket ≠ 0 := by omega
    split
    · exact untrapped_undefined
    · split
      · exact untrapped_ok _
      · refine (untrapped_allOk fun info _ => untrapped_lineUp cfg _ hb r info).bind fun ok _ => ?_
        cases ok with
        | true => exact untrapped_allOk fun t _ => untrapped_targetLineUp cfg _ hb t.2
        | false => exact untrapped_ok _

theorem untrapped_decidePrestage (cfg : Config E) (declared : List DeclaredInput) (total : Nat)
    (s : GraphState E) : Untrapped (decidePrestage cfg declared total s) := by
  unfold decidePrestage
  split
  · exact untrapped_ok _
  · refine (untrapped_viable ..).bind fun ok _ => ?_
    cases ok <;> exact untrapped_ok _

/-! ### Pass 2 -/

theorem untrapped_collectPrestaged (cfg : Config E) (chance : InputChance) (requests : List (Request E))
    (r : Nat) (key : String) (info : DeclaredInput) (c : Collecting E) :
    Untrapped (collectPrestaged cfg chance requests r key info c) := by
  unfold collectPrestaged
  split
  · exact untrapped_undefined
  · split
    · exact untrapped_undefined
    · exact (untrapped_fillStatic ..).bind fun _ _ => (untrapped_prestagedView ..).bind fun _ _ =>
        (untrapped_setSlot ..).bind fun _ _ => untrapped_ok _

theorem untrapped_collectFrom (cfg : Config E) (chance : InputChance) (r : Nat) (requests : List (Request E))
    (declared : List DeclaredInput) (c : Collecting E) :
    Untrapped (collectFrom cfg chance r requests declared c) := by
  induction declared generalizing c with
  | nil => exact untrapped_ok _
  | cons info rest ih =>
    rw [collectFrom]
    split
    · exact (untrapped_collectPrestaged ..).bind fun c' _ => ih c'
    · split
      · exact untrapped_ok _
      · refine Untrapped.bind ?_ fun c' _ => ih c'
        exact (untrapped_gathered ..).bind fun _ _ => (untrapped_setSlot ..).bind fun _ _ => untrapped_ok _

theorem untrapped_collectBatchInputs (cfg : Config E) (chance : InputChance) (r : Nat)
    (requests : List (Request E)) (targets : List (BatchInput × String)) (c : Collecting E) :
    Untrapped (collectBatchInputs cfg chance r requests targets c) := by
  induction targets generalizing c with
  | nil => exact untrapped_ok _
  | cons target rest ih =>
    refine Untrapped.bind ?_ fun c' _ => ih c'
    unfold collectBatchInput
    split
    · split
      · exact untrapped_undefined
      · split
        · exact untrapped_undefined
        · exact (untrapped_prestagedView ..).bind fun _ _ => (untrapped_setSlot ..).bind fun _ _ => untrapped_ok _
    · split
      · exact untrapped_undefined
      · exact (untrapped_gathered ..).bind fun _ _ => (untrapped_setSlot ..).bind fun _ _ => untrapped_ok _

theorem untrapped_declareFrom (cfg : Config E) (chance : InputChance) (total : Nat) (requests : List (Request E))
    (i : Nat) (inputs : List (RequestInput E)) : Untrapped (declareFrom cfg chance total requests i inputs) := by
  induction inputs generalizing i with
  | nil => exact untrapped_ok _
  | cons input rest ih =>
    rw [declareFrom]
    split
    · exact untrapped_ok _
    · split
      · exact untrapped_ok _
      · split
        · exact untrapped_undefined
        · exact (ih (i + 1)).bind fun _ _ => untrapped_ok _

/-- **`SetInputTensors` never divides by zero**, whatever bucket is prestaged. -/
theorem untrapped_setInputTensors (cfg : Config E) (chance : InputChance) (total : Nat)
    (requests : List (Request E)) (s : GraphState E) (responses : Responses) :
    Untrapped (setInputTensors cfg chance total requests s responses) := by
  unfold setInputTensors
  split
  · exact untrapped_ok _
  · exact untrapped_undefined
  · refine (untrapped_declareFrom ..).bind fun declared _ => ?_
    cases declared with
    | error err => exact untrapped_ok _
    | ok declared =>
      refine (untrapped_decidePrestage ..).bind fun s' _ => (untrapped_collectFrom ..).bind fun c _ => ?_
      obtain ⟨c, err⟩ := c
      cases err with
      | some err => exact untrapped_ok _
      | none => exact (untrapped_collectBatchInputs ..).bind fun _ _ => untrapped_ok _

/-- Where pass 2 divides by the prestaged bucket, this is positive. -/
theorem setInputTensors_bucket_pos {cfg : Config E} {chance : InputChance} {total : Nat}
    {requests : List (Request E)} {s : GraphState E} {responses : Responses} {c : Collecting E}
    (h : setInputTensors cfg chance total requests s responses = .ok (c, none))
    (hkey : c.state.prestagedEntry ≠ none) : 0 < c.state.prestagedBucket := by
  rcases setInputTensors_ok h with ⟨herr, _⟩ | ⟨s', mid, err, hdecide, hcollect, hend⟩
  · exact absurd rfl herr
  · rcases hend with ⟨_, herr, _⟩ | ⟨_, _, hbatch⟩
    · exact absurd rfl herr
    · rw [collectBatchInputs_state hbatch] at hkey ⊢
      rcases decidePrestage_ok hdecide with ⟨hnone, _⟩ | ⟨rfl, key, b, e, hkey', hb, he, hv⟩
      · rw [collectFrom_slow hnone hcollect] at hkey
        exact absurd hnone hkey
      · obtain ⟨_, _, _, hrest⟩ := collectFrom_prestaged hkey' he hcollect
        have hpos : 0 < b := Nat.lt_of_lt_of_le hv.pos hv.le
        rw [hrest.bucket, hb]
        exact_mod_cast hpos

/-! ### The width check -/

/-- `x / d`, which ends the process where `d` is zero. -/
def divide (x d : Nat) : Except Fault Nat := if d = 0 then .error .sigfpe else .ok (x / d)

/-- The width check, with its division as the machine makes it. -/
def checkWarmupWidthsDivided (cfg : GraphConfig) (t0 t1 : Tensor E) (r : Nat) (s : GraphState E) :
    Except Fault (GraphState E × List (Event E)) :=
  if s.warmupWidthsChecked then .ok (s, [])
  else
    let s := {s with warmupWidthsChecked := true}
    if cfg.cudaGraphWarmupSingleWidth > 0 ∧ cfg.cudaGraphWarmupMultiWidth > 0 ∧ r > 0 ∧
        t0.shape.length ≥ 2 then do
      let realSingle : Int := (t0.shape.getD 1 0 : Nat)
      let realMulti ← divide t1.numel r
      if realSingle ≠ cfg.cudaGraphWarmupSingleWidth ∨ (realMulti : Int) ≠ cfg.cudaGraphWarmupMultiWidth then
        .ok ({s with
          cudaGraphCache := ∅, cudaGraphFailed := ∅, prestagedEntry := none, prestagedBucket := -1},
          [.evict])
      else .ok (s, [])
    else .ok (s, [])

/-- The division is made behind the comparison of the request count with zero. -/
theorem checkWarmupWidthsDivided_eq (cfg : GraphConfig) (t0 t1 : Tensor E) (r : Nat) (s : GraphState E) :
    checkWarmupWidthsDivided cfg t0 t1 r s = .ok (checkWarmupWidths cfg t0 t1 r s) := by
  unfold checkWarmupWidthsDivided checkWarmupWidths
  split
  · rfl
  · simp only
    split
    · rename_i hguard
      have hdivide : divide t1.numel r = .ok (t1.numel / r) := by
        have hr : r ≠ 0 := by omega
        rw [divide, if_neg hr]
      refine bind_ok.mpr ⟨_, hdivide, ?_⟩
      split <;> rfl
    · rfl

/-! ### The whole path -/

/-- Every divisor of a batch's way through the graph path is nonzero: those of the prestage
checks and of pass 2, of the width check, and of `PadRequestsUp`. -/
structure DivisorsNonzero (cfg : Config E) (forward : List (Tensor E) → List (Tensor E)) (chance : InputChance)
    (chance' : Chance) (total : Nat) (requests : List (Request E)) (s : GraphState E) (responses : Responses)
    (c : Collecting E) : Prop where
  checks : Untrapped (setInputTensors cfg chance total requests s responses)
  prefixes : c.state.prestagedEntry ≠ none → 0 < c.state.prestagedBucket
  widths : ∀ t0 t1 t2 r, slotTensors c.tensors = [t0, t1, t2] → requestCount t0 t1 t2 = .ok r →
    Untrapped (checkWarmupWidthsDivided cfg.toGraphConfig t0 t1 r c.state)
  padding : Untrapped (executeSlots cfg forward chance' c.tensors c.state)

theorem untrapped_execute_iff {cfg : GraphConfig} {forward : List (Tensor E) → List (Tensor E)}
    {chance : Chance} {inputs outputs : List (Tensor E)} {s : GraphState E} :
    Untrapped (execute cfg forward chance inputs s outputs) ↔
      ¬ (cfg.enabledCudaGraph = true ∧ cfg.deviceIsCpu = false ∧ DividesByZero cfg chance inputs s) := by
  rw [← executeWithCudaGraph_sigfpe_iff forward outputs]
  unfold execute
  split
  · rename_i hon
    rw [Bool.and_eq_true, Bool.not_eq_true'] at hon
    simp only [hon, true_and]
    split
    · rename_i hvalue
      rw [hvalue]
      exact ⟨fun _ => nofun, fun _ => untrapped_ok _⟩
    · rename_i hvalue
      rw [hvalue]
      exact ⟨fun _ => nofun, fun _ => untrapped_ok _⟩
    · rename_i hvalue
      rw [hvalue]
      exact ⟨fun _ => nofun, fun _ => untrapped_ok _⟩
    · rename_i f _ hvalue
      rw [hvalue]
      exact ⟨fun h he => h.ne (congrArg Except.error (Except.error.inj he)),
        fun h => ⟨fun he => h (congrArg Except.error (Except.error.inj he))⟩⟩
  · rename_i hoff
    refine ⟨fun _ h => hoff ?_, fun _ => untrapped_ok _⟩
    rw [h.1, h.2.1]
    rfl

/-- **When nothing is divided by zero**: exactly where no batch without a row is padded. -/
theorem divisorsNonzero_iff {cfg : Config E} {chance : InputChance} {total : Nat} {requests : List (Request E)}
    {s : GraphState E} {responses : Responses} {c : Collecting E}
    (h : setInputTensors cfg chance total requests s responses = .ok (c, none))
    (forward : List (Tensor E) → List (Tensor E)) (chance' : Chance) :
    DivisorsNonzero cfg forward chance chance' total requests s responses c ↔
      ¬ (cfg.enabledCudaGraph = true ∧ cfg.deviceIsCpu = false ∧
        DividesByZero cfg.toGraphConfig (chance'.onSlots c.tensors) (slotTensors c.tensors) c.state) := by
  refine ⟨fun hall => untrapped_execute_iff.mp hall.padding, fun hno => ⟨untrapped_setInputTensors .., ?_, ?_,
    untrapped_execute_iff.mpr hno⟩⟩
  · exact setInputTensors_bucket_pos h
  · intro t0 t1 t2 r _ _
    rw [checkWarmupWidthsDivided_eq]
    exact untrapped_ok _

/-- One request of one element is divided by one. -/
theorem divisorsNonzero_one : ∃ c,
    setInputTensors (packedConfig (oneBucket 1)) .smooth 1 [packedRequest 1 1 1] (.fresh Int) ⟨[], []⟩ =
      .ok (c, none) ∧
    DivisorsNonzero (packedConfig (oneBucket 1)) id .smooth .smooth 1 [packedRequest 1 1 1] (.fresh Int)
      ⟨[], []⟩ c := by
  have hset : setInputTensors (packedConfig (oneBucket 1)) .smooth 1 [packedRequest 1 1 1] (.fresh Int) ⟨[], []⟩ =
    .ok (_, none) := rfl
  refine ⟨_, hset, (divisorsNonzero_iff hset id .smooth).mpr ?_⟩
  intro hparts
  obtain ⟨_, _, ⟨_, _, _, heq, hzero⟩, _, _⟩ := hparts
  cases heq
  have hone := hzero.symm.trans (rfl : requestCount _ _ _ = .ok 1)
  cases hone

/-- A single request without an element ends the process: it is padded to a bucket of one. -/
theorem processRequests_divides :
    processRequests (packedConfig (oneBucket 1)) id .smooth [some (packedRequest 1 1 0)] (.fresh Int) =
      .error .sigfpe ∧
    ¬ ∀ (cfg : Config Int) (forward : List (Tensor Int) → List (Tensor Int)) (chance : InputChance)
      (chance' : Chance) (total : Nat) (requests : List (Request Int)) (s : GraphState Int)
      (responses : Responses) (c : Collecting Int), 1 ≤ total →
      setInputTensors cfg chance total requests s responses = .ok (c, none) →
      DivisorsNonzero cfg forward chance chance' total requests s responses c := by
  refine ⟨rfl, fun h => ?_⟩
  have hset : setInputTensors (packedConfig (oneBucket 1)) .smooth 1 [packedRequest 1 1 0] (.fresh Int) ⟨[], []⟩ =
    .ok (_, none) := rfl
  have hall := h (packedConfig (oneBucket 1)) id .smooth .smooth 1 _ _ _ _ le_rfl hset
  exact hall.padding.ne rfl

/-- Two of three inputs are mapped to one slot, and a slot is never set. -/
def crowdedConfig : Config Int :=
  {Config.bare Int with
    enabledCudaGraph := true
    cudaGraphBatchSizes := oneBucket 1
    inputIndexMap := fun name => if name = "C__2" then some 2 else some 0}

-- The slot has no rows, so a batch with a row in each of its inputs ends the process too.
example : processRequests crowdedConfig id .smooth
    [some ⟨["A__0", "B__0", "C__2"].map fun name => onesInput name .fp64 [1, 1]⟩] (.fresh Int) = .error .sigfpe := rfl

end TritonAot
