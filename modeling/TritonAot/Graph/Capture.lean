import TritonAot.Graph.Padding

/-! `CaptureBucket` and the load-time warmup.

A capture either stores an entry under `R=<bucket>`, its static inputs copies of
the given tensors, or throws before it has one and puts the key on the negative
cache. What follows the `emplace` in the source restores a stream and logs a line
and is taken not to throw. -/
namespace TritonAot

variable {E : Type} [Scalars E]

/-- `cuda_graph_cache_.emplace`: an entry that is there stays. -/
def emplace (cache : Cache E) (key : String) (entry : CudaGraphEntry E) : Cache E :=
  if key ∈ cache then cache else cache.insert key entry

def captureBucket (forward : List (Tensor E) → List (Tensor E)) (captured : Bool)
    (inputsAtBucket : List (Tensor E)) (bucket : Int) (s : GraphState E) : Bool × GraphState E :=
  if captured then
    let entry : CudaGraphEntry E := ⟨inputsAtBucket, forward inputsAtBucket⟩
    (true, {s with cudaGraphCache := emplace s.cudaGraphCache (bucketKey bucket) entry})
  else
    (false, {s with
      cudaGraphFailed := insert (bucketKey bucket) s.cudaGraphFailed
      metrics := s.metrics.captureFailure bucket})

/-- The three tensors the warmup captures a bucket at; a negative dimension throws, and so does a
range whose end is past the last int64. -/
def warmupInputs (bucket singleWidth multiWidth : Int) : Except Fault (List (Tensor E)) :=
  if bucket < 0 ∨ singleWidth < 0 then .error (.thrown "zeros")
  else if wrapInt64 (bucket * multiWidth) < 0 then .error (.thrown "zeros")
  else if int64Max ≤ bucket then .error (.thrown "arange")
  -- a product that wraps around: the overflow is left undefined
  else if int64Max < bucket * multiWidth then .error .undefined
  else .ok [Tensor.zeros .double .cuda [bucket.toNat, singleWidth.toNat],
    Tensor.zeros .double .cuda [(bucket * multiWidth).toNat],
    Tensor.positions .int .cuda multiWidth.toNat bucket.toNat]

/-- The loop of `WarmupCudaGraphs`. A bucket whose tensors throw, or cannot be allocated (nothing is
captured then, nor does it fail), is skipped. -/
def warmupFrom (forward : List (Tensor E) → List (Tensor E)) (capture : Int → Option Bool)
    (singleWidth multiWidth : Int) : List Int → GraphState E → GraphState E × List (Event E)
  | [], s => (s, [])
  | bucket :: rest, s =>
    match warmupInputs bucket singleWidth multiWidth, capture bucket with
    | .ok inputs, some captured =>
      let (captured, s') := captureBucket forward captured inputs bucket s
      let (s'', events) := warmupFrom forward capture singleWidth multiWidth rest s'
      (s'', .capture bucket inputs captured :: events)
    | _, _ => warmupFrom forward capture singleWidth multiWidth rest s

/-- `WarmupCudaGraphs`, before the instance goes ready. -/
def warmupCudaGraphs (cfg : GraphConfig) (forward : List (Tensor E) → List (Tensor E))
    (capture : Int → Option Bool) (s : GraphState E) : GraphState E × List (Event E) :=
  if cfg.enabledCudaGraph && !cfg.deviceIsCpu && decide (0 < cfg.cudaGraphWarmupSingleWidth) &&
      decide (0 < cfg.cudaGraphWarmupMultiWidth) && !cfg.cudaGraphBatchSizes.sizes.isEmpty then
    warmupFrom forward capture cfg.cudaGraphWarmupSingleWidth cfg.cudaGraphWarmupMultiWidth
      cfg.cudaGraphBatchSizes.sizes s
  else (s, [])

/-! ### What the warmup makes -/

section Warmup
variable {b : Nat} {bucket singleWidth multiWidth : Int} {inputs : List (Tensor E)}

theorem warmupInputs_nonneg (h : warmupInputs bucket singleWidth multiWidth = .ok inputs) : 0 ≤ bucket := by
  unfold warmupInputs at h
  split at h
  · cases h
  · omega

theorem warmupInputs_length (h : warmupInputs bucket singleWidth multiWidth = .ok inputs) : inputs.length = 3 := by
  unfold warmupInputs at h
  repeat' split at h
  all_goals cases h
  rfl

/-- The tensors a bucket is captured at. -/
theorem warmupInputs_ok (hwide : 0 ≤ multiWidth) (h : warmupInputs (b : Int) singleWidth multiWidth = .ok inputs) :
    inputs = [.zeros .double .cuda [b, singleWidth.toNat], .zeros .double .cuda [b * multiWidth.toNat],
      .positions .int .cuda multiWidth.toNat b] := by
  have hsize : ((b : Int) * multiWidth).toNat = b * multiWidth.toNat := by
    rw [Int.toNat_mul (Int.natCast_nonneg b) hwide, Int.toNat_natCast]
  unfold warmupInputs at h
  split at h
  · cases h
  · split at h
    · cases h
    · split at h
      · cases h
      · split at h
        · cases h
        · rw [hsize, Int.toNat_natCast] at h
          exact (Except.ok.inj h).symm

end Warmup

/-! ### What a capture changes -/

theorem lookup_emplace_self {cache : Cache E} {key : String} (h : cache.lookup key = none)
    (entry : CudaGraphEntry E) : (emplace cache key entry).lookup key = some entry := by
  rw [emplace, if_neg (AList.lookup_eq_none.mp h), AList.lookup_insert]

theorem lookup_emplace_ne (cache : Cache E) {key key' : String} (h : key' ≠ key)
    (entry : CudaGraphEntry E) : (emplace cache key entry).lookup key' = cache.lookup key' := by
  unfold emplace
  split
  · rfl
  · exact AList.lookup_insert_ne h

theorem lookup_emplace_some {cache : Cache E} {key key' : String} {entry e : CudaGraphEntry E}
    (h : (emplace cache key entry).lookup key' = some e) : cache.lookup key' = some e ∨ key' = key ∧ e = entry := by
  unfold emplace at h
  split at h
  · exact .inl h
  · by_cases hkey : key' = key
    · rw [hkey, AList.lookup_insert] at h
      exact .inr ⟨hkey, (Option.some.inj h).symm⟩
    · rw [AList.lookup_insert_ne hkey] at h
      exact .inl h

theorem mem_emplace (cache : Cache E) (key key' : String) (entry : CudaGraphEntry E) :
    key' ∈ emplace cache key entry ↔ key' = key ∨ key' ∈ cache := by
  unfold emplace
  split
  · exact ⟨.inr, fun h => h.elim (fun he => he ▸ ‹_›) id⟩
  · exact AList.mem_insert cache

@[simp] theorem captureBucket_fst (forward : List (Tensor E) → List (Tensor E)) (captured : Bool)
    (inputs : List (Tensor E)) (bucket : Int) (s : GraphState E) :
    (captureBucket forward captured inputs bucket s).1 = captured := by
  cases captured <;> rfl

/-- A capture leaves the width flag and the prestaged entry alone. -/
theorem captureBucket_frame (forward : List (Tensor E) → List (Tensor E)) (captured : Bool)
    (inputs : List (Tensor E)) (bucket : Int) (s : GraphState E) :
    let s' := (captureBucket forward captured inputs bucket s).2
    s'.warmupWidthsChecked = s.warmupWidthsChecked ∧ s'.prestagedEntry = s.prestagedEntry ∧
      s'.prestagedBucket = s.prestagedBucket := by
  cases captured <;> exact ⟨rfl, rfl, rfl⟩

end TritonAot
