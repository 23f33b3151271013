import TritonAot.Graph.Keys
import TritonAot.Instance.Collect
import TritonAot.Instance.Requests

/-! The life of an instance: the warmup at load, then one batch after another.

A step is one call of `ProcessRequests` that returns, whatever fails inside it.
Every call changes the keys of the cache as its events say
(`follows_processRequests`), so no key is ever cached and failed at once
(`Reachable.healthy`). -/
namespace TritonAot

open Attempts Steps

variable {E : Type} [Scalars E]

/-! ### Runs -/

/-- One call of `ProcessRequests`: what the world decides, the batch, and what it leaves. -/
structure Call (E : Type) [Scalars E] where
  chance : RequestChance
  requests : List (Option (Request E))
  served : Served E

/-- The instance serves a batch. -/
def Serves (cfg : Config E) (forward : List (Tensor E) → List (Tensor E)) (s : GraphState E) (call : Call E)
    (s' : GraphState E) : Prop :=
  processRequests cfg forward call.chance call.requests s = .ok call.served ∧ s' = call.served.state

/-- The state of an instance that goes ready. -/
def loaded (cfg : Config E) (forward : List (Tensor E) → List (Tensor E)) (capture : Int → Option Bool) :
    GraphState E :=
  (warmupCudaGraphs cfg.toGraphConfig forward capture (.fresh E)).1

/-- The states of an instance between two batches. -/
def Reachable (cfg : Config E) (forward : List (Tensor E) → List (Tensor E)) (s : GraphState E) : Prop :=
  ∃ capture calls, Run (Serves cfg forward) (loaded cfg forward capture) calls s

/-- Batches served one after the other, while the calls return. -/
def serveAll (cfg : Config E) (forward : List (Tensor E) → List (Tensor E)) :
    GraphState E → List (RequestChance × List (Option (Request E))) → Except Fault (List (Call E) × GraphState E)
  | s, [] => .ok ([], s)
  | s, (chance, requests) :: rest => do
    let served ← processRequests cfg forward chance requests s
    let (calls, t) ← serveAll cfg forward served.state rest
    .ok (⟨chance, requests, served⟩ :: calls, t)

theorem serveAll_run {cfg : Config E} {forward : List (Tensor E) → List (Tensor E)} {s t : GraphState E}
    {batches : List (RequestChance × List (Option (Request E)))} {calls : List (Call E)}
    (h : serveAll cfg forward s batches = .ok (calls, t)) : Run (Serves cfg forward) s calls t := by
  induction batches generalizing s calls with
  | nil =>
    cases h
    exact .nil _
  | cons batch rest ih =>
    obtain ⟨served, hserved, h⟩ := bind_ok.mp h
    obtain ⟨⟨calls', t'⟩, hrest, h⟩ := bind_ok.mp h
    cases h
    exact .cons ⟨hserved, rfl⟩ (ih hrest)

/-! ### The keys over a call -/

theorem keysOf_restaged {key : String} {e : CudaGraphEntry E} {statics : List (Tensor E)}
    {s s' : GraphState E} (he : s.cudaGraphCache.lookup key = some e) (h : Restaged key e statics s s') :
    keysOf s' = keysOf s := by
  refine Keys.ext (Finset.ext fun k => ?_) h.failed
  rw [mem_cached_iff_lookup, mem_cached_iff_lookup]
  by_cases hk : k = key
  · rw [hk, h.entry, he]
    exact ⟨fun _ => ⟨_, rfl⟩, fun _ => ⟨_, rfl⟩⟩
  · rw [h.others k hk]

theorem keysOf_setInputTensors {cfg : Config E} {chance : InputChance} {r : Nat}
    {requests : List (Request E)} {s : GraphState E} {responses : Responses} {c : Collecting E}
    {error : Option TritonError}
    (h : setInputTensors cfg chance r requests s responses = .ok (c, error)) :
    keysOf c.state = keysOf s := by
  rcases setInputTensors_staged h with hs | ⟨_, hs | hs⟩ | ⟨_, _, he, _, _, hr⟩
  · rw [hs]
  · rw [hs]
  · rw [hs]
    rfl
  · exact keysOf_restaged he hr

theorem keysOf_prestage (cfg : Config E) (total : Nat) (allFailed : Bool) (s : GraphState E) :
    keysOf (prestage cfg total allFailed s) = keysOf s := by
  unfold prestage
  simp only
  split
  · split <;> rfl
  · rfl

theorem prestage_cache (cfg : Config E) (total : Nat) (allFailed : Bool) (s : GraphState E) :
    (prestage cfg total allFailed s).cudaGraphCache = s.cudaGraphCache := by
  unfold prestage
  simp only
  split
  · split <;> rfl
  · rfl

theorem follows_executeSlots {cfg : Config E} {forward : List (Tensor E) → List (Tensor E)}
    {chance : Chance} {tensors : List (Option (Tensor E))} {s : GraphState E} {x : Executed E}
    (h : executeSlots cfg forward chance tensors s = .ok x) : Follows s x.events x.state :=
  follows_execute h

theorem Reached.follows {cfg : Config E} {forward : List (Tensor E) → List (Tensor E)}
    {chance : RequestChance} {total : Nat} {a : Answering} {requests : List (Request E)}
    {s s' : GraphState E} {events : List (Event E)}
    (h : Reached cfg forward chance total a requests s s' events) :
    Follows s events s' := by
  cases h with
  | skipped => exact .same (keysOf_prestage ..)
  | collected _ hc => exact .same ((keysOf_setInputTensors hc).trans (keysOf_prestage ..))
  | @ran _ c _ _ hc hx =>
    have hcollect : Follows s [] c.state := .same ((keysOf_setInputTensors hc).trans (keysOf_prestage ..))
    exact hcollect.append (follows_executeSlots hx)

/-- **Every call changes the keys of the cache as its events say.** -/
theorem follows_processRequests {cfg : Config E} {forward : List (Tensor E) → List (Tensor E)}
    {chance : RequestChance} {requests : List (Option (Request E))} {s : GraphState E} {served : Served E}
    (h : processRequests cfg forward chance requests s = .ok served) :
    Follows s served.events served.state := by
  rcases processRequests_reached h with ⟨hs, he⟩ | ⟨qs, total, a, _, _, _, hreached⟩
  · rw [hs, he]
    exact .same rfl
  · exact hreached.follows

/-! ### The two sets are disjoint -/

theorem healthy_loaded (cfg : Config E) (forward : List (Tensor E) → List (Tensor E))
    (capture : Int → Option Bool) : (keysOf (loaded cfg forward capture)).Healthy :=
  run_healthy (follows_warmupCudaGraphs cfg.toGraphConfig forward capture) (Finset.disjoint_empty_left _)

/-- No key of a reachable state is cached and failed at once. -/
theorem Reachable.healthy {cfg : Config E} {forward : List (Tensor E) → List (Tensor E)} {s : GraphState E}
    (h : Reachable cfg forward s) : (keysOf s).Healthy := by
  obtain ⟨capture, calls, hrun⟩ := h
  have keep : ∀ t call t', (keysOf t).Healthy → Serves cfg forward t call t' → (keysOf t').Healthy := by
    intro t call t' ht hparts
    obtain ⟨hserved, rfl⟩ := hparts
    exact run_healthy (follows_processRequests hserved) ht
  exact hrun.invariant keep (healthy_loaded cfg forward capture)

/-! ### The lookup and the selection -/

section Agreement
variable {cfg : GraphConfig} {forward : List (Tensor E) → List (Tensor E)} {capture : Int → Bool}
  {pad : Int → Except Fault (List (Tensor E))} {inputs : List (Tensor E)} {r : Int} {s : GraphState E}

/-- Without an allowlist only the selection asks for the failed set, which makes no difference. -/
theorem findReady_eq (hs : (keysOf s).Healthy) :
    findReadyCudaGraphEntry cfg r s =
      if cfg.enabledCudaGraph ∧ cfg.deviceIsCpu = false then findReadyFrom s (cfg.candidates r) else none := by
  unfold findReadyCudaGraphEntry GraphConfig.candidates
  by_cases hon : cfg.enabledCudaGraph = true ∧ cfg.deviceIsCpu = false
  · rw [if_pos hon, if_neg (by simp [hon.1, hon.2])]
    split
    · rw [findReadyFrom]
      cases he : s.cudaGraphCache.lookup (bucketKey r) with
      | none => simp [findReadyFrom]
      | some e =>
        have hfresh : bucketKey r ∉ s.cudaGraphFailed := hs.not_failed (mem_cached_iff_lookup.mpr ⟨e, he⟩)
        rw [if_neg hfresh]
    · rfl
  · have hoff : (!cfg.enabledCudaGraph || cfg.deviceIsCpu) = true := by
      cases hgraph : cfg.enabledCudaGraph <;> cases hcpu : cfg.deviceIsCpu <;> simp_all
    rw [if_neg hon, if_pos hoff]

variable (cfg forward capture pad inputs r s) in
/-- The lookup agrees with the selection: it returns the entry of a bucket exactly when the
selection comes to that entry and captures nothing, and null exactly when the selection
captures or the batch runs eagerly. -/
structure LookupAgrees : Prop where
  found : ∀ key b, findReadyCudaGraphEntry cfg r s = some (key, b) ↔
    (cfg.enabledCudaGraph = true ∧ cfg.deviceIsCpu = false) ∧ key = bucketKey b ∧
      (∃ e, s.cudaGraphCache.lookup key = some e) ∧
      ∃ at_, selectBucket cfg.cudaGraphBatchSizes forward capture pad inputs r s = (.ok (some ⟨b, at_⟩), s, [])
  missing : findReadyCudaGraphEntry cfg r s = none ↔
    ¬ (cfg.enabledCudaGraph = true ∧ cfg.deviceIsCpu = false) ∨
      (∃ c at_ captured, .capture c at_ captured ∈
        (selectBucket cfg.cudaGraphBatchSizes forward capture pad inputs r s).2.2) ∨
      (selectBucket cfg.cudaGraphBatchSizes forward capture pad inputs r s).1 = .ok none

theorem lookupAgrees_off (hoff : ¬ (cfg.enabledCudaGraph = true ∧ cfg.deviceIsCpu = false)) (hs : (keysOf s).Healthy) :
    LookupAgrees cfg forward capture pad inputs r s := by
  have hnone : findReadyCudaGraphEntry cfg r s = none := (findReady_eq hs).trans (if_neg hoff)
  refine ⟨fun key b => ?_, iff_of_true hnone (.inl hoff)⟩
  rw [hnone]
  exact iff_of_false (by simp) fun h => hoff h.1

/-- Where no candidate is healthy, both come to nothing. -/
theorem lookupAgrees_unhealthy (hs : (keysOf s).Healthy) (hnil : s.healthy (cfg.candidates r) = []) :
    LookupAgrees cfg forward capture pad inputs r s := by
  have hnone : findReadyCudaGraphEntry cfg r s = none := by
    rw [findReady_eq hs, findReadyFrom_eq, hnil]
    exact ite_self none
  have hsel : selectBucket cfg.cudaGraphBatchSizes forward capture pad inputs r s = (.ok none, s, []) :=
    (selectBucket_eq cfg).trans (selectFrom_unhealthy hnil)
  refine ⟨fun key b => ?_, iff_of_true hnone (.inr (.inr (by rw [hsel])))⟩
  rw [hnone, hsel]
  refine iff_of_false (by simp) ?_
  rintro ⟨_, _, _, at_, h⟩
  cases h

/-- Where the batch can be brought to the first healthy candidate, the selection replays that
candidate if the lookup finds it, and captures there if it does not. -/
theorem lookupAgrees_brought (hs : (keysOf s).Healthy) (hon : cfg.enabledCudaGraph = true ∧ cfg.deviceIsCpu = false)
    {c : Int} {later : List Int} (hfirst : s.healthy (cfg.candidates r) = c :: later) {at_ : List (Tensor E)}
    (hat : atCandidate pad inputs r c = .ok at_) : LookupAgrees cfg forward capture pad inputs r s := by
  obtain ⟨hfresh, rest, hsel⟩ := selectFrom_healthy forward capture pad inputs r hfirst
  rw [← selectBucket_eq cfg] at hsel
  have hfind : findReadyCudaGraphEntry cfg r s =
      (s.cudaGraphCache.lookup (bucketKey c)).map fun _ => (bucketKey c, c) := by
    rw [findReady_eq hs, if_pos hon, findReadyFrom_eq, hfirst]
    rfl
  cases he : s.cudaGraphCache.lookup (bucketKey c) with
  | some e =>
    rw [he] at hfind
    rw [selectFrom_cached hfresh hat he] at hsel
    constructor
    · intro key b
      rw [hfind, hsel]
      constructor
      · intro h
        cases h
        exact ⟨hon, rfl, ⟨e, he⟩, at_, rfl⟩
      · rintro ⟨_, rfl, _, at', h⟩
        cases h
        rfl
    · rw [hfind, hsel]
      refine iff_of_false (by simp) ?_
      rintro (hoff | ⟨_, _, _, hm⟩ | heager)
      · exact hoff hon
      · cases hm
      · cases heager
  | none =>
    rw [he] at hfind
    have hcaptures : .capture c at_ (capture c) ∈
        (selectBucket cfg.cudaGraphBatchSizes forward capture pad inputs r s).2.2 := by
      rw [hsel]
      cases hc : capture c with
      | true =>
        rw [selectFrom_captured hfresh hat he hc]
        exact List.mem_singleton_self _
      | false =>
        rw [selectFrom_missed hfresh hat he hc]
        exact List.mem_cons_self ..
    refine ⟨fun key b => ?_, iff_of_true hfind (.inr (.inl ⟨c, at_, capture c, hcaptures⟩))⟩
    rw [hfind]
    refine iff_of_false (by simp) ?_
    rintro ⟨_, _, _, at', h⟩
    rw [h] at hcaptures
    cases hcaptures

/-- Where it cannot, the selection raises, and neither captures nor runs anything. -/
theorem not_lookupAgrees_unbrought (hon : cfg.enabledCudaGraph = true ∧ cfg.deviceIsCpu = false)
    {c : Int} {later : List Int}
    (hfirst : s.healthy (cfg.candidates r) = c :: later) {fault : Fault}
    (hat : atCandidate pad inputs r c = .error fault) : ¬ LookupAgrees cfg forward capture pad inputs r s := by
  intro h
  obtain ⟨hfresh, rest, hsel⟩ := selectFrom_healthy forward capture pad inputs r hfirst
  rw [← selectBucket_eq cfg, selectFrom_fault hfresh hat] at hsel
  cases hfind : findReadyCudaGraphEntry cfg r s with
  | some found =>
    obtain ⟨_, _, _, at_, hreplays⟩ := (h.found found.1 found.2).mp hfind
    rw [hsel] at hreplays
    cases hreplays
  | none =>
    rcases h.missing.mp hfind with hoff | ⟨_, _, _, hm⟩ | heager
    · exact hoff hon
    · rw [hsel] at hm
      cases hm
    · rw [hsel] at heager
      cases heager

end Agreement

/-- **When the lookup agrees with the selection**, in every reachable state: exactly where the batch
can be brought to the first candidate that is not on the negative cache. -/
theorem findReady_agrees_iff {cfg : Config E} {forward : List (Tensor E) → List (Tensor E)} {s : GraphState E}
    (hs : Reachable cfg forward s) (capture : Int → Bool) (pad : Int → Except Fault (List (Tensor E)))
    (inputs : List (Tensor E)) (r : Int) :
    LookupAgrees cfg.toGraphConfig forward capture pad inputs r s ↔
      (cfg.enabledCudaGraph = true ∧ cfg.deviceIsCpu = false →
        ∀ c ∈ (s.healthy (cfg.candidates r)).head?, ∃ at_, atCandidate pad inputs r c = .ok at_) := by
  by_cases hon : cfg.enabledCudaGraph = true ∧ cfg.deviceIsCpu = false
  · cases hhealthy : s.healthy (cfg.candidates r) with
    | nil => exact iff_of_true (lookupAgrees_unhealthy hs.healthy hhealthy) fun _ c hc => by cases hc
    | cons c later =>
      cases hat : atCandidate pad inputs r c with
      | ok at_ =>
        refine iff_of_true (lookupAgrees_brought hs.healthy hon hhealthy hat) fun _ c' hc' => ?_
        cases hc'
        exact ⟨at_, hat⟩
      | error fault =>
        refine iff_of_false (not_lookupAgrees_unbrought hon hhealthy hat) fun h => ?_
        obtain ⟨at_, hbrought⟩ := h hon c rfl
        rw [hat] at hbrought
        cases hbrought
  · exact iff_of_true (lookupAgrees_off hon hs.healthy) fun h => absurd h hon

/-- Buckets of two requests, captured at load. -/
def warmConfig : Config Int :=
  {Config.bare Int with
    enabledCudaGraph := true
    cudaGraphBatchSizes := oneBucket 2
    cudaGraphWarmupSingleWidth := 1
    cudaGraphWarmupMultiWidth := 1}

def oneRequest : List (Tensor Int) :=
  [.zeros .double .cuda [1, 1], .zeros .double .cuda [1], .positions .int .cuda 1 1]

/-- One request is brought to the bucket of two, which the lookup finds. -/
theorem findReady_agrees_warm :
    ∃ at_, selectBucket warmConfig.cudaGraphBatchSizes id (fun _ => true)
      (padRequestsUp Chance.smooth.alloc oneRequest 1) oneRequest 1 (loaded warmConfig id fun _ => some true) =
        (.ok (some ⟨2, at_⟩), loaded warmConfig id fun _ => some true, []) := by
  have hagree := (@findReady_agrees_iff Int _ warmConfig id _ ⟨fun _ => some true, [], .nil _⟩ (fun _ => true)
    (padRequestsUp Chance.smooth.alloc oneRequest 1) oneRequest 1).mpr fun _ c hc => by
      cases hc
      exact ⟨_, rfl⟩
  exact ((hagree.found "R=2" 2).mp rfl).2.2.2

/-- Five elements of three requests are looked up at the bucket of four that was captured at load; the
selection, which pads them first, throws. -/
theorem findReady_disagrees : ¬ ∀ (cfg : Config Int) (forward : List (Tensor Int) → List (Tensor Int))
    (s : GraphState Int) (chance : Chance) (t0 t1 t2 : Tensor Int) (r : Nat), Reachable cfg forward s →
    requestCount t0 t1 t2 = .ok r →
      LookupAgrees cfg.toGraphConfig forward chance.capture (padRequestsUp chance.alloc [t0, t1, t2] r) [t0, t1, t2] r s := by
  intro h
  have hagree := h {warmConfig with cudaGraphBatchSizes := oneBucket 4} id _ .smooth (.zeros .double .cuda [3, 1])
    (.zeros .double .cuda [5]) (.zeros .int .cuda [3]) 3 ⟨fun _ => some true, [], .nil _⟩ rfl
  obtain ⟨_, _, _, at_, hselects⟩ := (hagree.found "R=4" 4).mp rfl
  cases hselects

end TritonAot
