import TritonAot.Graph.Attempt

/-! The counters of the graph path.

`ExecuteWithCudaGraph` has six points of return in two functions. A call that returns
`false` has counted one eager fallback; one that returns `true` has counted one replay
at its bucket, with the rows that were padded there; one that does not return has counted
neither (`executeWithCudaGraph_tallied`). Failed captures are counted apart. -/
namespace TritonAot

variable {E : Type} [Scalars E]

/-! ### Sums over replays -/

/-- The replay that returned `true`, where the event is one. -/
def Event.returned? : Event E → Option (Replay E)
  | .replay x => if x.returned then some x else none
  | _ => none

/-- The replays that returned `true`. -/
def returnedReplays (events : List (Event E)) : List (Replay E) := events.filterMap Event.returned?

theorem returnedReplays_append (es fs : List (Event E)) :
    returnedReplays (es ++ fs) = returnedReplays es ++ returnedReplays fs := List.filterMap_append

theorem mem_returnedReplays {events : List (Event E)} {x : Replay E} (h : x ∈ returnedReplays events) :
    .replay x ∈ events := by
  obtain ⟨event, he, hx⟩ := List.mem_filterMap.mp h
  cases event with
  | replay y =>
    change (if y.returned then some y else none) = some x at hx
    split at hx
    · cases hx
      exact he
    · cases hx
  | capture | evict => cases hx

/-- The rows that replays at a bucket padded. -/
def paddedRows (b : Int) (xs : List (Replay E)) : Int :=
  ((xs.filter (·.bucket = b)).map fun x => padWasteRows x.r x.bucket).sum

theorem paddedRows_append (b : Int) (xs ys : List (Replay E)) :
    paddedRows b (xs ++ ys) = paddedRows b xs + paddedRows b ys := by
  rw [paddedRows, List.filter_append, List.map_append, List.sum_append]
  rfl

theorem paddedRows_singleton (x : Replay E) (b : Int) :
    paddedRows b [x] = if x.bucket = b then padWasteRows x.r x.bucket else 0 := by
  by_cases hb : x.bucket = b
  · simp [paddedRows, hb]
  · simp [paddedRows, hb]

theorem count_bucket_singleton (x : Replay E) (b : Int) :
    ([x].map (·.bucket)).count b = if x.bucket = b then 1 else 0 := by
  rw [List.map_singleton, List.count_singleton]
  simp only [beq_iff_eq]

/-- At a bucket that holds the batch, what is padded is the difference. -/
theorem padWasteRows_of_le {r bucket : Int} (h : r ≤ bucket) : padWasteRows r bucket = bucket - r := by
  unfold padWasteRows
  split <;> omega

/-- The counters have moved by `eager` fallbacks and by the replays `xs`. -/
structure Tallies (m : Metrics) (eager : Nat) (xs : List (Replay E)) (m' : Metrics) : Prop where
  eager : m'.eagerFallbacks = m.eagerFallbacks + eager
  replays : ∀ b, m'.replays b = m.replays b + (xs.map (·.bucket)).count b
  waste : ∀ b, m'.padWaste b = m.padWaste b + paddedRows b xs

theorem Tallies.same {m m' : Metrics} (heager : m'.eagerFallbacks = m.eagerFallbacks)
    (hreplays : m'.replays = m.replays) (hwaste : m'.padWaste = m.padWaste) :
    Tallies m 0 ([] : List (Replay E)) m' where
  eager := heager
  replays b := congrFun hreplays b
  waste b := by rw [hwaste]; exact (Int.add_zero _).symm

theorem Tallies.refl (m : Metrics) : Tallies m 0 ([] : List (Replay E)) m := .same rfl rfl rfl

theorem Tallies.append {m m' m'' : Metrics} {n n' : Nat} {xs ys : List (Replay E)} (h : Tallies m n xs m')
    (h' : Tallies m' n' ys m'') : Tallies m (n + n') (xs ++ ys) m'' where
  eager := by rw [h'.eager, h.eager, Nat.add_assoc]
  replays b := by rw [h'.replays, h.replays, List.map_append, List.count_append, Nat.add_assoc]
  waste b := by rw [h'.waste, h.waste, paddedRows_append, Int.add_assoc]

theorem tallies_eagerFallback (m : Metrics) : Tallies m 1 ([] : List (Replay E)) m.eagerFallback where
  eager := rfl
  replays _ := rfl
  waste _ := (Int.add_zero _).symm

theorem tallies_captureFailure (m : Metrics) (bucket : Int) :
    Tallies m 0 ([] : List (Replay E)) (m.captureFailure bucket) := .same rfl rfl rfl

theorem replays_replay (m : Metrics) (bucket b : Int) :
    (m.replay bucket).replays b = m.replays b + if bucket = b then 1 else 0 := by
  show Function.update m.replays bucket (m.replays bucket + 1) b = _
  by_cases hb : bucket = b
  · rw [hb, Function.update_self, if_pos rfl]
  · rw [Function.update_of_ne (Ne.symm hb), if_neg hb, Nat.add_zero]

theorem padWaste_padWasteRows (m : Metrics) (bucket rows b : Int) :
    (m.padWasteRows bucket rows).padWaste b = m.padWaste b + if bucket = b then rows else 0 := by
  show Function.update m.padWaste bucket (m.padWaste bucket + rows) b = _
  by_cases hb : bucket = b
  · rw [hb, Function.update_self, if_pos rfl]
  · rw [Function.update_of_ne (Ne.symm hb), if_neg hb, Int.add_zero]

/-- A replay counts itself, and the rows it padded where there are any. -/
theorem tallies_replayMetrics (m : Metrics) (x : Replay E) : Tallies m 0 [x] (replayMetrics x.r x.bucket m) := by
  unfold replayMetrics
  split
  · refine ⟨rfl, fun b => ?_, fun b => ?_⟩
    · rw [count_bucket_singleton]
      exact replays_replay m x.bucket b
    · rw [paddedRows_singleton, padWaste_padWasteRows]
      rfl
  · rename_i hle
    refine ⟨rfl, fun b => ?_, fun b => ?_⟩
    · rw [count_bucket_singleton]
      exact replays_replay m x.bucket b
    · rw [paddedRows_singleton, padWasteRows, if_neg hle, ite_self, Int.add_zero]
      rfl

/-! ### One call -/

/-- How many fallbacks a call that returns this value has counted. -/
def fallbacks : Except Fault Bool → Nat
  | .ok false => 1
  | _ => 0

/-- And how many replays. -/
def replayed : Except Fault Bool → Nat
  | .ok true => 1
  | _ => 0

/-- A call has counted what its value says. -/
structure Tallied (m : Metrics) (ran : Ran E Bool) : Prop where
  tallies : Tallies m (fallbacks ran.value) (returnedReplays ran.events) ran.state.metrics
  replays : (returnedReplays ran.events).length = replayed ran.value

/-- What was done before, apart from replays and fallbacks. -/
theorem Tallied.after {m m' : Metrics} {ran : Ran E Bool} {events : List (Event E)}
    (h : Tallied m' ran) (hbefore : Tallies m 0 ([] : List (Replay E)) m') (hno : returnedReplays events = []) :
    Tallied m {ran with events := events ++ ran.events} where
  tallies := by
    have htallies := hbefore.append h.tallies
    rw [Nat.zero_add, List.nil_append] at htallies
    rw [returnedReplays_append, hno, List.nil_append]
    exact htallies
  replays := by
    rw [returnedReplays_append, hno, List.nil_append]
    exact h.replays

theorem eagerFallback_tallied (s : GraphState E) (outputs : List (Tensor E)) (events : List (Event E))
    (hno : returnedReplays events = []) : Tallied s.metrics (eagerFallback s outputs events) where
  tallies := by
    show Tallies s.metrics 1 (returnedReplays events) s.metrics.eagerFallback
    rw [hno]
    exact tallies_eagerFallback s.metrics
  replays := congrArg List.length hno

/-- A call that does not return has counted nothing. -/
theorem fault_tallied (f : Fault) (s : GraphState E) (outputs : List (Tensor E)) (events : List (Event E))
    (hno : returnedReplays events = []) : Tallied s.metrics (⟨.error f, s, outputs, events⟩ : Ran E Bool) where
  tallies := by
    show Tallies s.metrics 0 (returnedReplays events) s.metrics
    rw [hno]
    exact .refl s.metrics
  replays := congrArg List.length hno

/-- The handler counts a fallback where it returns. -/
theorem replayCaught_tallied (f : Fault) (s : GraphState E) (outputs : List (Tensor E))
    {events : List (Event E)} (hno : returnedReplays events = []) :
    Tallied s.metrics (replayCaught f s outputs events) := by
  cases f with
  | thrown what => exact eagerFallback_tallied s outputs events hno
  | sigfpe => exact fault_tallied .sigfpe s outputs events hno
  | undefined => exact fault_tallied .undefined s outputs events hno

theorem replay_tallied (forward : List (Tensor E) → List (Tensor E)) (chance : Chance) (key : String)
    (r : Nat) (bucket : Int) (copyFrom : Option (List (Tensor E))) (s : GraphState E)
    (outputs : List (Tensor E)) :
    Tallied s.metrics (replayCudaGraphEntry forward chance key r bucket copyFrom s outputs) := by
  unfold replayCudaGraphEntry
  split
  · exact fault_tallied .undefined s outputs [] rfl
  · rename_i e _
    split
    · exact replayCaught_tallied _ s outputs rfl
    · split
      · rename_i f statics _
        exact replayCaught_tallied f (s.setEntry key {e with staticInputs := statics}) outputs rfl
      · rename_i statics _
        split
        · rename_i f _
          exact replayCaught_tallied f (s.setEntry key {e with staticInputs := statics}) outputs rfl
        · simp only
          -- the graph was launched; the counters move only behind the last thing that can throw
          split
          · exact replayCaught_tallied _ (s.setEntry key ⟨statics, forward statics⟩) _ rfl
          · split
            · exact replayCaught_tallied _ (s.setEntry key ⟨statics, forward statics⟩) _ rfl
            · exact ⟨tallies_replayMetrics s.metrics ⟨r, bucket, copyFrom, e.staticInputs, statics, true⟩, rfl⟩

theorem returnedReplays_of_no_replay {events : List (Event E)} (h : ∀ event ∈ events, ¬ event.IsReplay) :
    returnedReplays events = [] := by
  refine List.filterMap_eq_nil_iff.mpr fun event he => ?_
  cases event with
  | replay x => exact absurd trivial (h _ he)
  | capture | evict => rfl

/-- The selection counts the captures that fail. -/
theorem Selects.tallies {forward : List (Tensor E) → List (Tensor E)} {capture : Int → Bool}
    {pad : Int → Except Fault (List (Tensor E))} {inputs : List (Tensor E)} {r : Int} {cands : List Int}
    {s s' : GraphState E} {value : Except Fault (Option (Selected E))} {events : List (Event E)}
    (h : Selects forward capture pad inputs r cands s value s' events) :
    Tallies s.metrics 0 ([] : List (Replay E)) s'.metrics := by
  induction h with
  | exhausted | fault | cached | captured => exact .refl _
  | failed _ _ ih => exact ih
  | @missed cand _ s _ _ _ _ _ _ _ _ _ ih => exact (tallies_captureFailure s.metrics cand).append ih

theorem executeSlow_tallied (cfg : GraphConfig) (forward : List (Tensor E) → List (Tensor E))
    (chance : Chance) (inputs : List (Tensor E)) (r : Nat) (s : GraphState E) (outputs : List (Tensor E)) :
    Tallied s.metrics (executeSlow cfg forward chance inputs r s outputs) := by
  unfold executeSlow
  split
  · rename_i f s' events hsel
    have hselects := selects_selectBucket hsel
    have hno := returnedReplays_of_no_replay hselects.no_replay
    have hran := (fault_tallied f s' outputs [] rfl).after hselects.tallies hno
    rwa [List.append_nil] at hran
  · rename_i s' events hsel
    have hselects := selects_selectBucket hsel
    have hno := returnedReplays_of_no_replay hselects.no_replay
    have hran := (eagerFallback_tallied s' outputs [] rfl).after hselects.tallies hno
    simpa only [eagerFallback, List.append_nil] using hran
  · rename_i s' events hsel
    have hselects := selects_selectBucket hsel
    exact (replay_tallied ..).after hselects.tallies (returnedReplays_of_no_replay hselects.no_replay)

theorem executeFrom_tallied (cfg : GraphConfig) (forward : List (Tensor E) → List (Tensor E))
    (chance : Chance) (inputs : List (Tensor E)) (r : Nat) (s : GraphState E) (outputs : List (Tensor E)) :
    Tallied s.metrics (executeFrom cfg forward chance inputs r s outputs) := by
  unfold executeFrom
  split
  · exact replay_tallied forward chance _ r _ none {s with prestagedEntry := none, prestagedBucket := -1} outputs
  · exact executeSlow_tallied cfg forward chance inputs r s outputs

/-- **A call counts once where it returns, and not where it does not.** -/
theorem executeWithCudaGraph_tallied (cfg : GraphConfig) (forward : List (Tensor E) → List (Tensor E))
    (chance : Chance) (inputs : List (Tensor E)) (s : GraphState E) (outputs : List (Tensor E)) :
    Tallied s.metrics (executeWithCudaGraph cfg forward chance inputs s outputs) := by
  unfold executeWithCudaGraph
  split
  · rename_i t0 t1 t2
    split
    · exact fault_tallied _ s outputs [] rfl
    · rename_i r _
      have hcheck : (checkWarmupWidths cfg t0 t1 r s).1.metrics = s.metrics := by
        rcases checkWarmupWidths_cases cfg t0 t1 r s with ⟨_, h⟩ | h
        · rw [h]
          rfl
        · rw [h]
      have hno := returnedReplays_of_no_replay (checkWarmupWidths_no_replay cfg t0 t1 r s)
      have hbefore : Tallies s.metrics 0 ([] : List (Replay E)) (checkWarmupWidths cfg t0 t1 r s).1.metrics := by
        rw [hcheck]
        exact .refl s.metrics
      exact (executeFrom_tallied cfg forward chance [t0, t1, t2] r _ outputs).after hbefore hno
  · exact eagerFallback_tallied s outputs [] rfl

end TritonAot
