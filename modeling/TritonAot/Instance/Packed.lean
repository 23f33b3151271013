import TritonAot.Graph.Positions
import TritonAot.Instance.Batch

/-! The request-batch layout that the graph path is made for.

Three model inputs: a row for each request, the requests' elements packed one
behind the other, and a batch input that says where each request ends. -/
namespace TritonAot

open Packed

variable {E : Type} [Scalars E]

/-- The element counts of the requests of a batch, for one input. -/
def elementCounts (name : String) (requests : List (Request E)) : List Nat :=
  requests.map (·.elementCount name)

/-- The value the server collects for an accumulated element count: an entry for
each request, the running sum of the counts. -/
def accumulatedElementCount (b : BatchInput) (requests : List (Request E)) : List Nat × List E :=
  ([requests.length], asElements (ends (elementCounts (b.sourceInputs.headD "") requests)))

/-- A model with the inputs of the layout: one row, a ragged input, and the batch
input counting it. -/
structure PackedLayout (cfg : Config E) (single multiple position : String) (b : BatchInput) : Prop where
  batching : cfg.supportsBatching = true
  singleAt : cfg.inputIndexMap single = some 0
  multipleAt : ∀ name, cfg.inputIndexMap name = some 1 ↔ name = multiple
  positionAt : ∀ name, cfg.inputIndexMap name = some 2 ↔ name = position
  ragged : ∀ name, cfg.isInputRagged name = true ↔ name = multiple
  batchInputs : cfg.batchInputs = [b]
  count : cfg.batchInputCount = 1
  source : b.sourceInputs = [multiple]
  target : b.targetNames = [position]
  values : ∀ requests, cfg.batchInputValues b requests = accumulatedElementCount b requests

/-! ### An instance of the layout -/

def endsInput : BatchInput where
  kind := .accumulatedElementCount
  dataType := .int32
  sourceInputs := ["MULTIPLE__1"]
  targetNames := ["ENDS__2"]

/-- Graphs at the given buckets for a model with one row of doubles and any number of
doubles for each request. -/
def packedConfig (sizes : BatchSizes) : Config Int :=
  {Config.bare Int with
    enabledCudaGraph := true
    cudaGraphBatchSizes := sizes
    isInputRagged := fun name => name = "MULTIPLE__1"
    batchInputs := [endsInput]
    batchInputCount := 1
    inputIndexMap := fun name =>
      if name = "SINGLE__0" then some 0
      else if name = "MULTIPLE__1" then some 1
      else if name = "ENDS__2" then some 2
      else none
    batchInputValues := accumulatedElementCount}

/-- The same model with a bucket of two requests captured at load, at widths of one. -/
def warmPackedConfig : Config Int :=
  {packedConfig (oneBucket 2) with cudaGraphWarmupSingleWidth := 1, cudaGraphWarmupMultiWidth := 1}

theorem packedLayout_packedConfig (sizes : BatchSizes) :
    PackedLayout (packedConfig sizes) "SINGLE__0" "MULTIPLE__1" "ENDS__2" endsInput where
  batching := rfl
  singleAt := rfl
  multipleAt := fun name => by
    show (if name = "SINGLE__0" then some 0 else if name = "MULTIPLE__1" then some 1 else
      if name = "ENDS__2" then some 2 else none) = some (1 : Int) ↔ _
    split <;> simp_all
  positionAt := fun name => by
    show (if name = "SINGLE__0" then some 0 else if name = "MULTIPLE__1" then some 1 else
      if name = "ENDS__2" then some 2 else none) = some (2 : Int) ↔ _
    split
    · simp_all
    · split <;> simp_all
  ragged := fun _ => decide_eq_true_iff
  batchInputs := rfl
  count := rfl
  source := rfl
  target := rfl
  values := fun _ => rfl

/-- An input of ones. -/
def onesInput (name : String) (datatype : DataType) (shape : List Nat) : RequestInput Int where
  name := name
  datatype := datatype
  shape := shape
  data := List.replicate shape.prod 1
  size_eq := List.length_replicate
  typed := fun x hx => by rw [List.eq_of_mem_replicate hx]; exact intCast_one _

/-- A request of some rows of the given width and a number of elements. -/
def packedRequest (rows width count : Nat) : Request Int :=
  ⟨[onesInput "SINGLE__0" .fp64 [rows, width], onesInput "MULTIPLE__1" .fp64 [1, count]]⟩

end TritonAot
