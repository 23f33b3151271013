import Mathlib
import TritonAot.Torch

/-! The CUDA-graph state of a model instance.

The members of `ModelInstanceState` that the graph path reads and writes, the
settings of `ModelState` it consults, and what one call may observe of the world
outside (`Chance`): whether a capture succeeds, and where CUDA or torch throw.
The model's forward pass is a function on tensors throughout; a replay runs it on
the static inputs.

Functions of the graph path say what they did in order (`Event`); nothing reads
the events back. -/
namespace TritonAot

/-! ### Settings -/

/-- `std::set<int64_t>`: the buckets of `CUDA_GRAPH_BATCH_SIZES`, in iteration order. -/
structure BatchSizes where
  sizes : List Int
  ascending : sizes.Pairwise (· < ·)

/-- An allowlist of one bucket. -/
def oneBucket (bucket : Int) : BatchSizes := ⟨[bucket], List.pairwise_singleton _ _⟩

theorem pairwise_two_four : ([2, 4] : List Int).Pairwise (· < ·) := by decide

/-- The buckets from `lower_bound(r)` to `end()`. -/
def BatchSizes.lowerBound (b : BatchSizes) (r : Int) : List Int := b.sizes.dropWhile (· < r)

/-- `TRITONSERVER_InstanceGroupKind`. -/
inductive InstanceGroupKind where
  | cpu | gpu | model
  deriving DecidableEq, Repr

structure GraphConfig where
  kind : InstanceGroupKind
  enabledCudaGraph : Bool
  cudaGraphBatchSizes : BatchSizes
  cudaGraphWarmupSingleWidth : Int
  cudaGraphWarmupMultiWidth : Int

/-- `device_.is_cpu()`: only a `KIND_GPU` instance has a CUDA device. -/
def GraphConfig.deviceIsCpu (cfg : GraphConfig) : Bool := cfg.kind != .gpu

/-- Graphs at the given buckets, captured on first use. -/
def graphsAt (sizes : BatchSizes) : GraphConfig := ⟨.gpu, true, sizes, 0, 0⟩

/-- What CUDA and torch decide during one call: whether a capture of a bucket
succeeds, and the text of the exception where a call throws. -/
structure Chance where
  capture : Int → Bool
  /-- Allocating the tensor at an index when a batch is padded to a bucket. -/
  alloc : Int → Nat → Option String
  /-- Setting the graph's stream and ordering it behind the inputs. -/
  stream : Option String
  copy : Nat → Option String
  launch : Option String
  slice : Nat → Option String
  /-- Restoring the caller's stream. -/
  restore : Option String
  eager : Option String

/-- Nothing fails. -/
def Chance.smooth : Chance :=
  ⟨fun _ => true, fun _ _ => none, none, fun _ => none, none, fun _ => none, none, none⟩

/-! ### State -/

/-- `CudaGraphEntry`; the captured graph is the forward pass on the static inputs. -/
structure CudaGraphEntry (E : Type) [Scalars E] where
  staticInputs : List (Tensor E)
  staticOutputs : List (Tensor E)

/-- The counters of `ModelState`; the metrics API is taken to succeed. -/
structure Metrics where
  eagerFallbacks : Nat
  replays : Int → Nat
  padWaste : Int → Int
  captureFailures : Int → Nat

def Metrics.eagerFallback (m : Metrics) : Metrics := {m with eagerFallbacks := m.eagerFallbacks + 1}

def Metrics.replay (m : Metrics) (bucket : Int) : Metrics :=
  {m with replays := Function.update m.replays bucket (m.replays bucket + 1)}

def Metrics.padWasteRows (m : Metrics) (bucket rows : Int) : Metrics :=
  {m with padWaste := Function.update m.padWaste bucket (m.padWaste bucket + rows)}

def Metrics.captureFailure (m : Metrics) (bucket : Int) : Metrics :=
  {m with captureFailures := Function.update m.captureFailures bucket (m.captureFailures bucket + 1)}

abbrev Cache (E : Type) [Scalars E] := AList (fun _ : String => CudaGraphEntry E)

structure GraphState (E : Type) [Scalars E] where
  cudaGraphCache : Cache E
  cudaGraphFailed : Finset String
  warmupWidthsChecked : Bool
  /-- The cache key of the entry `prestaged_entry_` points to. -/
  prestagedEntry : Option String
  prestagedBucket : Int
  metrics : Metrics

/-- `"R=" + std::to_string(bucket)`. -/
def bucketKey (bucket : Int) : String := "R=" ++ toString bucket

/-- A replay: the request count and bucket, the tensors copied into the static
inputs (none when prestaged), the static inputs before and after the copies, and
what `ReplayCudaGraphEntry` returned. -/
structure Replay (E : Type) [Scalars E] where
  r : Nat
  bucket : Int
  copyFrom : Option (List (Tensor E))
  before : List (Tensor E)
  statics : List (Tensor E)
  returned : Bool

inductive Event (E : Type) [Scalars E] where
  | capture (bucket : Int) (inputsAtBucket : List (Tensor E)) (captured : Bool)
  | evict
  /-- The graph was launched. -/
  | replay (launched : Replay E)

/-- What a call on the graph path leaves: its value or the fault it raised, the
state, the caller's output vector, and what it did. -/
structure Ran (E : Type) [Scalars E] (α : Type) where
  value : Except Fault α
  state : GraphState E
  outputs : List (Tensor E)
  events : List (Event E)

/-- What an instance starts with. -/
def GraphState.fresh (E : Type) [Scalars E] : GraphState E :=
  ⟨∅, ∅, false, none, -1, ⟨0, fun _ => 0, fun _ => 0, fun _ => 0⟩⟩

/-! ### Keys and buckets -/

theorem bucketKey_injective : Function.Injective bucketKey := by
  intro a b h
  have hs : toString a = toString b := (String.append_right_inj "R=").mp h
  exact Int.repr_injective hs

@[simp] theorem bucketKey_inj {a b : Int} : bucketKey a = bucketKey b ↔ a = b :=
  bucketKey_injective.eq_iff

theorem mem_dropWhile_lt {sizes : List Int} (h : sizes.Pairwise (· < ·)) (r c : Int) :
    c ∈ sizes.dropWhile (· < r) ↔ c ∈ sizes ∧ r ≤ c := by
  induction sizes with
  | nil => simp
  | cons a rest ih =>
    obtain ⟨ha, hrest⟩ := List.pairwise_cons.mp h
    rw [List.dropWhile_cons]
    by_cases hlt : a < r
    · rw [if_pos (by simpa using hlt), ih hrest, List.mem_cons]
      constructor
      · exact fun ⟨hc, hr⟩ => ⟨.inr hc, hr⟩
      · rintro ⟨rfl | hc, hr⟩
        · exact absurd hlt (not_lt.mpr hr)
        · exact ⟨hc, hr⟩
    · rw [if_neg (by simpa using hlt)]
      refine ⟨fun hc => ⟨hc, ?_⟩, And.left⟩
      rcases List.mem_cons.mp hc with rfl | hc
      · exact not_lt.mp hlt
      · exact (not_lt.mp hlt).trans (ha c hc).le

/-- The candidates for `r` requests are the buckets that hold them. -/
@[simp] theorem BatchSizes.mem_lowerBound (b : BatchSizes) (r c : Int) :
    c ∈ b.lowerBound r ↔ c ∈ b.sizes ∧ r ≤ c := mem_dropWhile_lt b.ascending r c

theorem BatchSizes.ascending_lowerBound (b : BatchSizes) (r : Int) :
    (b.lowerBound r).Pairwise (· < ·) := b.ascending.sublist (List.dropWhile_sublist _)

end TritonAot
