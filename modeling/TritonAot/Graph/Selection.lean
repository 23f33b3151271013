import TritonAot.Graph.Capture

/-! The two searches for a bucket.

`ExecuteWithCudaGraph` selects the first healthy bucket that holds the batch and
captures where it has to; `FindReadyCudaGraphEntry` looks the bucket up before
the batch is collected and never captures. `Selects` tells the first search candidate
by candidate. -/
namespace TritonAot

variable {E : Type} [Scalars E]

/-- A bucket to replay at, and the tensors to copy into its static inputs. -/
structure Selected (E : Type) [Scalars E] where
  bucket : Int
  inputsAtBucket : List (Tensor E)

/-- The loop over the candidates of the allowlist; `pad` is `PadRequestsUp` of
the batch's tensors. -/
def selectFrom (forward : List (Tensor E) → List (Tensor E)) (capture : Int → Bool)
    (pad : Int → Except Fault (List (Tensor E))) (inputs : List (Tensor E)) (r : Int) :
    List Int → GraphState E → Except Fault (Option (Selected E)) × GraphState E × List (Event E)
  | [], s => (.ok none, s, [])
  | cand :: rest, s =>
    if bucketKey cand ∈ s.cudaGraphFailed then selectFrom forward capture pad inputs r rest s
    else
      match (if cand = r then .ok inputs else pad cand) with
      | .error fault => (.error fault, s, [])
      | .ok candInputs =>
        match s.cudaGraphCache.lookup (bucketKey cand) with
        | some _ => (.ok (some ⟨cand, candInputs⟩), s, [])
        | none =>
          let event : Event E := .capture cand candInputs (capture cand)
          match captureBucket forward (capture cand) candInputs cand s with
          | (true, s') => (.ok (some ⟨cand, candInputs⟩), s', [event])
          | (false, s') =>
            let (selected, s'', events) := selectFrom forward capture pad inputs r rest s'
            (selected, s'', event :: events)

/-- The selection of `ExecuteWithCudaGraph`, after the width check and the fast path. -/
def selectBucket (buckets : BatchSizes) (forward : List (Tensor E) → List (Tensor E))
    (capture : Int → Bool) (pad : Int → Except Fault (List (Tensor E))) (inputs : List (Tensor E))
    (r : Int) (s : GraphState E) :
    Except Fault (Option (Selected E)) × GraphState E × List (Event E) :=
  if buckets.sizes.isEmpty then
    if bucketKey r ∈ s.cudaGraphFailed then (.ok none, s, [])
    else
      match s.cudaGraphCache.lookup (bucketKey r) with
      | some _ => (.ok (some ⟨r, inputs⟩), s, [])
      | none =>
        let event : Event E := .capture r inputs (capture r)
        match captureBucket forward (capture r) inputs r s with
        | (true, s') => (.ok (some ⟨r, inputs⟩), s', [event])
        | (false, s') => (.ok none, s', [event])
  else selectFrom forward capture pad inputs r (buckets.lowerBound r) s

/-- The loop of `FindReadyCudaGraphEntry`. -/
def findReadyFrom (s : GraphState E) : List Int → Option (String × Int)
  | [] => none
  | cand :: rest =>
    if bucketKey cand ∈ s.cudaGraphFailed then findReadyFrom s rest
    else
      match s.cudaGraphCache.lookup (bucketKey cand) with
      | none => none
      | some _ => some (bucketKey cand, cand)

/-- `FindReadyCudaGraphEntry`: the key of the entry it points to, and `*bucket_out`. -/
def findReadyCudaGraphEntry (cfg : GraphConfig) (r : Int) (s : GraphState E) :
    Option (String × Int) :=
  if !cfg.enabledCudaGraph || cfg.deviceIsCpu then none
  else if cfg.cudaGraphBatchSizes.sizes.isEmpty then
    match s.cudaGraphCache.lookup (bucketKey r) with
    | none => none
    | some _ => some (bucketKey r, r)
  else findReadyFrom s (cfg.cudaGraphBatchSizes.lowerBound r)

/-! ### One candidate after the other -/

/-- The buckets that are tried for `r` requests. -/
def GraphConfig.candidates (cfg : GraphConfig) (r : Int) : List Int :=
  if cfg.cudaGraphBatchSizes.sizes.isEmpty then [r] else cfg.cudaGraphBatchSizes.lowerBound r

/-- The batch's tensors at a candidate. -/
def atCandidate (pad : Int → Except Fault (List (Tensor E))) (inputs : List (Tensor E)) (r cand : Int) :
    Except Fault (List (Tensor E)) :=
  if cand = r then .ok inputs else pad cand

/-- The state after a capture that failed. -/
def GraphState.failedAt (s : GraphState E) (cand : Int) : GraphState E :=
  {s with
    cudaGraphFailed := insert (bucketKey cand) s.cudaGraphFailed
    metrics := s.metrics.captureFailure cand}

section Loop
variable {forward : List (Tensor E) → List (Tensor E)} {capture : Int → Bool}
  {pad : Int → Except Fault (List (Tensor E))} {inputs : List (Tensor E)} {r : Int} {cand : Int}
  {rest : List Int} {s : GraphState E}

/-- Without an allowlist the selection is the one from the batch's own size. -/
theorem selectBucket_eq (cfg : GraphConfig) :
    selectBucket cfg.cudaGraphBatchSizes forward capture pad inputs r s =
      selectFrom forward capture pad inputs r (cfg.candidates r) s := by
  unfold selectBucket GraphConfig.candidates
  split
  · rw [selectFrom]
    split
    · rfl
    · simp only [if_true]
      cases s.cudaGraphCache.lookup (bucketKey r) with
      | some e => rfl
      | none => cases capture r <;> rfl
  · rfl

theorem selectFrom_failed (h : bucketKey cand ∈ s.cudaGraphFailed) :
    selectFrom forward capture pad inputs r (cand :: rest) s =
      selectFrom forward capture pad inputs r rest s := by
  rw [selectFrom, if_pos h]

theorem selectFrom_fault {fault : Fault} (h : bucketKey cand ∉ s.cudaGraphFailed)
    (hat : atCandidate pad inputs r cand = .error fault) :
    selectFrom forward capture pad inputs r (cand :: rest) s = (.error fault, s, []) := by
  unfold atCandidate at hat
  rw [selectFrom, if_neg h, hat]

theorem selectFrom_cached {at_ : List (Tensor E)} {e : CudaGraphEntry E}
    (h : bucketKey cand ∉ s.cudaGraphFailed) (hat : atCandidate pad inputs r cand = .ok at_)
    (he : s.cudaGraphCache.lookup (bucketKey cand) = some e) :
    selectFrom forward capture pad inputs r (cand :: rest) s = (.ok (some ⟨cand, at_⟩), s, []) := by
  unfold atCandidate at hat
  rw [selectFrom, if_neg h, hat]
  simp only [he]

theorem selectFrom_captured {at_ : List (Tensor E)} (h : bucketKey cand ∉ s.cudaGraphFailed)
    (hat : atCandidate pad inputs r cand = .ok at_)
    (he : s.cudaGraphCache.lookup (bucketKey cand) = none) (hc : capture cand = true) :
    selectFrom forward capture pad inputs r (cand :: rest) s = (.ok (some ⟨cand, at_⟩),
      {s with cudaGraphCache := emplace s.cudaGraphCache (bucketKey cand) ⟨at_, forward at_⟩},
      [.capture cand at_ true]) := by
  unfold atCandidate at hat
  rw [selectFrom, if_neg h, hat]
  simp only [he, hc]
  rfl

theorem selectFrom_missed {at_ : List (Tensor E)} (h : bucketKey cand ∉ s.cudaGraphFailed)
    (hat : atCandidate pad inputs r cand = .ok at_)
    (he : s.cudaGraphCache.lookup (bucketKey cand) = none) (hc : capture cand = false) :
    selectFrom forward capture pad inputs r (cand :: rest) s =
      let next := selectFrom forward capture pad inputs r rest (s.failedAt cand)
      (next.1, next.2.1, .capture cand at_ false :: next.2.2) := by
  unfold atCandidate at hat
  rw [selectFrom, if_neg h, hat]
  simp only [he, hc]
  rfl

variable (forward capture pad inputs r) in
/-- What the loop does, candidate by candidate: the candidates, the state, what it
returns, the state and the events it leaves. -/
inductive Selects : List Int → GraphState E → Except Fault (Option (Selected E)) → GraphState E →
    List (Event E) → Prop where
  | exhausted (s : GraphState E) : Selects [] s (.ok none) s []
  | failed {cand rest s value s' events} (failed : bucketKey cand ∈ s.cudaGraphFailed)
      (next : Selects rest s value s' events) : Selects (cand :: rest) s value s' events
  | fault {cand rest s f} (healthy : bucketKey cand ∉ s.cudaGraphFailed)
      (at_ : atCandidate pad inputs r cand = .error f) : Selects (cand :: rest) s (.error f) s []
  | cached {cand rest s candInputs e} (healthy : bucketKey cand ∉ s.cudaGraphFailed)
      (at_ : atCandidate pad inputs r cand = .ok candInputs)
      (found : s.cudaGraphCache.lookup (bucketKey cand) = some e) :
      Selects (cand :: rest) s (.ok (some ⟨cand, candInputs⟩)) s []
  | captured {cand rest s candInputs} (healthy : bucketKey cand ∉ s.cudaGraphFailed)
      (at_ : atCandidate pad inputs r cand = .ok candInputs)
      (missing : s.cudaGraphCache.lookup (bucketKey cand) = none) (captures : capture cand = true) :
      Selects (cand :: rest) s (.ok (some ⟨cand, candInputs⟩))
        {s with cudaGraphCache := emplace s.cudaGraphCache (bucketKey cand) ⟨candInputs, forward candInputs⟩}
        [.capture cand candInputs true]
  | missed {cand rest s candInputs value s' events} (healthy : bucketKey cand ∉ s.cudaGraphFailed)
      (at_ : atCandidate pad inputs r cand = .ok candInputs)
      (missing : s.cudaGraphCache.lookup (bucketKey cand) = none) (fails : capture cand = false)
      (next : Selects rest (s.failedAt cand) value s' events) :
      Selects (cand :: rest) s value s' (.capture cand candInputs false :: events)

theorem selects_selectFrom {cands : List Int} {s' : GraphState E}
    {value : Except Fault (Option (Selected E))} {events : List (Event E)}
    (h : selectFrom forward capture pad inputs r cands s = (value, s', events)) :
    Selects forward capture pad inputs r cands s value s' events := by
  induction cands generalizing s value s' events with
  | nil =>
    cases h
    exact .exhausted s
  | cons cand rest ih =>
    by_cases hfailed : bucketKey cand ∈ s.cudaGraphFailed
    · rw [selectFrom_failed hfailed] at h
      exact .failed hfailed (ih h)
    · cases hat : atCandidate pad inputs r cand with
      | error f =>
        rw [selectFrom_fault hfailed hat] at h
        cases h
        exact .fault hfailed hat
      | ok candInputs =>
        cases he : s.cudaGraphCache.lookup (bucketKey cand) with
        | some e =>
          rw [selectFrom_cached hfailed hat he] at h
          cases h
          exact .cached hfailed hat he
        | none =>
          cases hc : capture cand with
          | true =>
            rw [selectFrom_captured hfailed hat he hc] at h
            cases h
            exact .captured hfailed hat he hc
          | false =>
            rw [selectFrom_missed hfailed hat he hc] at h
            cases h
            exact .missed hfailed hat he hc (ih rfl)

theorem selects_selectBucket {cfg : GraphConfig} {s' : GraphState E}
    {value : Except Fault (Option (Selected E))} {events : List (Event E)}
    (h : selectBucket cfg.cudaGraphBatchSizes forward capture pad inputs r s = (value, s', events)) :
    Selects forward capture pad inputs r (cfg.candidates r) s value s' events :=
  selects_selectFrom ((selectBucket_eq cfg).symm.trans h)

end Loop

/-! ### The first healthy candidate -/

/-- The buckets that are not on the negative cache, in order. -/
def GraphState.healthy (s : GraphState E) (cands : List Int) : List Int :=
  cands.filter fun b => bucketKey b ∉ s.cudaGraphFailed

section Healthy
variable {forward : List (Tensor E) → List (Tensor E)} {capture : Int → Bool}
  {pad : Int → Except Fault (List (Tensor E))} {inputs : List (Tensor E)} {r : Int} {cand : Int}
  {rest : List Int} {s : GraphState E}

theorem healthy_failed (h : bucketKey cand ∈ s.cudaGraphFailed) :
    s.healthy (cand :: rest) = s.healthy rest :=
  List.filter_cons_of_neg (by simpa using h)

theorem healthy_cons (h : bucketKey cand ∉ s.cudaGraphFailed) :
    s.healthy (cand :: rest) = cand :: s.healthy rest :=
  List.filter_cons_of_pos (by simpa using h)

theorem mem_healthy {s : GraphState E} {cands : List Int} {b : Int} :
    b ∈ s.healthy cands ↔ b ∈ cands ∧ bucketKey b ∉ s.cudaGraphFailed := by
  rw [GraphState.healthy, List.mem_filter, decide_eq_true_iff]

theorem selectFrom_unhealthy {cands : List Int} (h : s.healthy cands = []) :
    selectFrom forward capture pad inputs r cands s = (.ok none, s, []) := by
  induction cands with
  | nil => rfl
  | cons cand rest ih =>
    by_cases hfailed : bucketKey cand ∈ s.cudaGraphFailed
    · rw [healthy_failed hfailed] at h
      rw [selectFrom_failed hfailed, ih h]
    · rw [healthy_cons hfailed] at h
      cases h

variable (forward capture pad inputs r) in
/-- The selection begins with the first candidate that is healthy. -/
theorem selectFrom_healthy {cands later : List Int} {c : Int} (h : s.healthy cands = c :: later) :
    bucketKey c ∉ s.cudaGraphFailed ∧ ∃ rest, selectFrom forward capture pad inputs r cands s =
      selectFrom forward capture pad inputs r (c :: rest) s := by
  induction cands with
  | nil => cases h
  | cons cand rest ih =>
    by_cases hfailed : bucketKey cand ∈ s.cudaGraphFailed
    · rw [healthy_failed hfailed] at h
      rw [selectFrom_failed hfailed]
      exact ih h
    · rw [healthy_cons hfailed] at h
      cases h
      exact ⟨hfailed, rest, rfl⟩

/-- The lookup finds the first healthy candidate, if that is cached. -/
theorem findReadyFrom_eq (s : GraphState E) (cands : List Int) :
    findReadyFrom s cands = (s.healthy cands).head?.bind fun c =>
      (s.cudaGraphCache.lookup (bucketKey c)).map fun _ => (bucketKey c, c) := by
  induction cands with
  | nil => rfl
  | cons cand rest ih =>
    rw [findReadyFrom]
    by_cases hfailed : bucketKey cand ∈ s.cudaGraphFailed
    · rw [if_pos hfailed, ih, healthy_failed hfailed]
    · rw [if_neg hfailed, healthy_cons hfailed, List.head?_cons, Option.bind_some]
      cases s.cudaGraphCache.lookup (bucketKey cand) <;> rfl

theorem findReadyFrom_found {cands : List Int} {key : String} {b : Int}
    (h : findReadyFrom s cands = some (key, b)) :
    (s.healthy cands).head? = some b ∧ key = bucketKey b ∧ ∃ e, s.cudaGraphCache.lookup key = some e := by
  rw [findReadyFrom_eq] at h
  obtain ⟨c, hc, h⟩ := Option.bind_eq_some_iff.mp h
  obtain ⟨e, he, h⟩ := Option.map_eq_some_iff.mp h
  cases h
  exact ⟨hc, rfl, e, he⟩

/-- The entry that is found is in the cache, at a bucket that holds the batch. -/
theorem findReady_found {cfg : GraphConfig} {key : String} {b : Int}
    (h : findReadyCudaGraphEntry cfg r s = some (key, b)) :
    key = bucketKey b ∧ r ≤ b ∧ ∃ e, s.cudaGraphCache.lookup key = some e := by
  unfold findReadyCudaGraphEntry at h
  split at h
  · cases h
  · split at h
    · cases he : s.cudaGraphCache.lookup (bucketKey r) with
      | none =>
        rw [he] at h
        cases h
      | some e =>
        rw [he] at h
        cases h
        exact ⟨rfl, Int.le_refl r, e, he⟩
    · obtain ⟨hhead, hkey, he⟩ := findReadyFrom_found h
      have hmem := (mem_healthy.mp (List.mem_of_head? hhead)).1
      exact ⟨hkey, ((BatchSizes.mem_lowerBound _ _ _).mp hmem).2, he⟩

end Healthy

/-- A candidate holds the batch. -/
theorem le_of_mem_candidates {cfg : GraphConfig} {r c : Int} (h : c ∈ cfg.candidates r) : r ≤ c := by
  unfold GraphConfig.candidates at h
  split at h
  · exact (List.mem_singleton.mp h).ge
  · exact ((BatchSizes.mem_lowerBound _ _ _).mp h).2

/-- With an allowlist the candidates are on it. -/
theorem mem_sizes_of_mem_candidates {cfg : GraphConfig} (hne : cfg.cudaGraphBatchSizes.sizes ≠ []) {r c : Int}
    (h : c ∈ cfg.candidates r) : c ∈ cfg.cudaGraphBatchSizes.sizes := by
  rw [GraphConfig.candidates, if_neg (by rwa [List.isEmpty_iff])] at h
  exact ((BatchSizes.mem_lowerBound _ _ _).mp h).1

end TritonAot
