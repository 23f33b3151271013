import TritonAot.Graph.Accounting
import TritonAot.Graph.Entries
import TritonAot.Instance.Life

/-! The counters of the graph path over the life of an instance.

A batch that gets to the model on a CUDA device makes one call of `ExecuteWithCudaGraph`
(`graphCall`); nothing else moves its counters. So over a run the fallbacks and the replays
add up to the calls that return, and the padded rows of a bucket to what its replays padded,
none of them negative (`run_accounting`): a selected bucket holds the batch, and that a
prestaged one does is the representation invariant. -/
namespace TritonAot

open Steps

variable {E : Type} [Scalars E]

/-! ### The call that a batch makes -/

/-- A call of `ExecuteWithCudaGraph`: the state it is made in, and what it leaves. -/
structure GraphCall (E : Type) [Scalars E] where
  before : GraphState E
  ran : Ran E Bool

/-- The call that `Execute` makes on the slots of the model inputs. -/
def slotsCall (cfg : Config E) (forward : List (Tensor E) → List (Tensor E)) (chance : Chance)
    (tensors : List (Option (Tensor E))) (s : GraphState E) : Option (GraphCall E) :=
  if cfg.enabledCudaGraph && !cfg.deviceIsCpu then
    some ⟨s, executeWithCudaGraph cfg.toGraphConfig forward (chance.onSlots tensors) (slotTensors tensors) s []⟩
  else none

/-- The call that serving a batch makes, if it gets there. -/
def graphCall (cfg : Config E) (forward : List (Tensor E) → List (Tensor E)) (chance : RequestChance)
    (requests : List (Option (Request E))) (s : GraphState E) : Option (GraphCall E) :=
  match requests.mapM id with
  | none => none
  | some requests =>
    match countFrom cfg chance 0 requests 0 ⟨newResponses chance requests.length, false⟩ with
    | .error _ => none
    | .ok (total, a) =>
      if total = 0 then none
      else
        match serveInputs cfg chance total requests (checkBatchSize cfg total a) s with
        | .error _ => none
        | .ok v => if v.answering.allFailed then none else slotsCall cfg forward chance.graph v.tensors v.state

/-- The calls of a run, from the state `s` on. -/
def graphCalls (cfg : Config E) (forward : List (Tensor E) → List (Tensor E)) :
    GraphState E → List (Call E) → List (GraphCall E)
  | _, [] => []
  | s, call :: rest =>
    (graphCall cfg forward call.chance call.requests s).toList ++ graphCalls cfg forward call.served.state rest

/-- What a batch leaves of the counters, and its events, are what its call leaves. -/
def Leaves (s : GraphState E) (m : Metrics) (events : List (Event E)) : Option (GraphCall E) → Prop
  | none => m = s.metrics ∧ events = []
  | some g => g.before.metrics = s.metrics ∧ m = g.ran.state.metrics ∧ events = g.ran.events

theorem executeSlots_leaves {cfg : Config E} {forward : List (Tensor E) → List (Tensor E)} {chance : Chance}
    {tensors : List (Option (Tensor E))} {s : GraphState E} {x : Executed E}
    (h : executeSlots cfg forward chance tensors s = .ok x) :
    Leaves s x.state.metrics x.events (slotsCall cfg forward chance tensors s) := by
  unfold executeSlots at h
  unfold slotsCall
  cases hon : cfg.enabledCudaGraph && !cfg.deviceIsCpu with
  | false =>
    obtain ⟨hstate, hevents⟩ := execute_off hon h
    exact ⟨congrArg GraphState.metrics hstate, hevents⟩
  | true =>
    obtain ⟨hstate, hevents⟩ := execute_on hon h
    exact ⟨rfl, congrArg GraphState.metrics hstate, hevents⟩

/-! ### What collecting the inputs leaves of the counters -/

theorem prestage_metrics (cfg : Config E) (total : Nat) (allFailed : Bool) (s : GraphState E) :
    (prestage cfg total allFailed s).metrics = s.metrics := by
  unfold prestage
  simp only
  split
  · split <;> rfl
  · rfl

theorem collectFrom_metrics {cfg : Config E} {chance : InputChance} {r : Nat} {requests : List (Request E)}
    {declared : List DeclaredInput} {c c' : Collecting E} {error : Option TritonError}
    (h : collectFrom cfg chance r requests declared c = .ok (c', error)) :
    c'.state.metrics = c.state.metrics := by
  induction declared generalizing c with
  | nil =>
    cases h
    rfl
  | cons info rest ih =>
    cases hkey : c.state.prestagedEntry with
    | none => rw [collectFrom_slow hkey h]
    | some key =>
      rw [collectFrom, hkey] at h
      obtain ⟨mid, hmid, h⟩ := bind_ok.mp h
      rw [ih h]
      cases he : c.state.cudaGraphCache.lookup key with
      | none =>
        rw [collectPrestaged, he] at hmid
        cases hmid
      | some e =>
        obtain ⟨_, _, _, _, _, _, _, _, _, _, hstate⟩ := collectPrestaged_ok he hmid
        rw [hstate]
        rfl

theorem setInputTensors_metrics {cfg : Config E} {chance : InputChance} {r : Nat} {requests : List (Request E)}
    {s : GraphState E} {responses : Responses} {c : Collecting E} {error : Option TritonError}
    (h : setInputTensors cfg chance r requests s responses = .ok (c, error)) :
    c.state.metrics = s.metrics := by
  rcases setInputTensors_ok h with ⟨_, hsame⟩ | ⟨s', mid, err, hdecide, hcollect, hend⟩
  · rw [hsame]
  · have hdecided : s'.metrics = s.metrics := by
      rcases decidePrestage_ok hdecide with ⟨_, rfl | rfl⟩ | ⟨rfl, _⟩ <;> rfl
    have hmid : mid.state.metrics = s.metrics := (collectFrom_metrics hcollect).trans hdecided
    rcases hend with ⟨_, _, rfl⟩ | ⟨_, _, hbatch⟩
    · exact hmid
    · rw [collectBatchInputs_state hbatch]
      exact hmid

theorem Arrived.metrics {cfg : Config E} {chance : RequestChance} {total : Nat} {a : Answering}
    {requests : List (Request E)} {s : GraphState E} {v : Serving E}
    (h : Arrived cfg chance total a requests s v) : v.state.metrics = s.metrics := by
  cases h with
  | skipped _ hs => rw [hs, prestage_metrics]
  | failed _ hc _ hs | collected _ hc _ hs => rw [hs, setInputTensors_metrics hc, prestage_metrics]

/-- **A batch leaves what its call leaves.** -/
theorem processRequests_leaves {cfg : Config E} {forward : List (Tensor E) → List (Tensor E)}
    {chance : RequestChance} {requests : List (Option (Request E))} {s : GraphState E} {served : Served E}
    (h : processRequests cfg forward chance requests s = .ok served) :
    Leaves s served.state.metrics served.events (graphCall cfg forward chance requests s) := by
  unfold processRequests at h
  unfold graphCall
  cases hqs : requests.mapM id with
  | none =>
    rw [hqs] at h
    cases h
    exact ⟨rfl, rfl⟩
  | some qs =>
    rw [hqs] at h
    obtain ⟨⟨total, a⟩, hcount, h⟩ := bind_ok.mp h
    simp only [hcount]
    simp only at h
    split at h
    · rename_i hzero
      cases h
      rw [if_pos hzero]
      exact ⟨rfl, rfl⟩
    · rename_i hpos
      rw [if_neg hpos]
      obtain ⟨last, hserve, h⟩ := bind_ok.mp h
      cases h
      rw [serve_eq] at hserve
      obtain ⟨ran, hmodel, hread⟩ := bind_ok.mp hserve
      obtain ⟨v, hinputs, hrun⟩ := bind_ok.mp hmodel
      obtain ⟨hstate, hevents⟩ := readOutputs_verify_frame hread
      obtain ⟨harrived, hnone⟩ := serveInputs_arrived hinputs
      show Leaves s last.state.metrics last.events _
      rw [hstate, hevents]
      simp only [hinputs]
      rcases runModel_cases hrun with ⟨hall, rfl⟩ | ⟨hgo, x, hx, hxs, hxe⟩
      · rw [if_pos hall]
        exact ⟨harrived.metrics, hnone⟩
      · rw [if_neg (by rw [hgo]; exact Bool.false_ne_true), hxs, hxe, hnone]
        have hleaves := executeSlots_leaves hx
        revert hleaves
        cases slotsCall cfg forward chance.graph v.tensors v.state with
        | none =>
          intro ⟨hm, he⟩
          exact ⟨hm.trans harrived.metrics, he⟩
        | some g =>
          intro ⟨hbefore, hm, he⟩
          exact ⟨hbefore.trans harrived.metrics, hm, he⟩

/-! ### One call of a run -/

/-- The bucket of a replay holds the batch: a selected one is a candidate, and a prestaged one
is that of an entry whose shapes are its bucket's. -/
theorem replay_fits {cfg : Config E} {forward : List (Tensor E) → List (Tensor E)} {chance : InputChance}
    {total : Nat} {requests : List (Request E)} {s : GraphState E} {responses : Responses} {c : Collecting E}
    {outputs : List (Tensor E)} {graph : Chance} {x : Replay E}
    (hs : EntriesAt Bucketed s.cudaGraphCache)
    (hset : setInputTensors cfg chance total requests (prestage cfg total false s) responses = .ok (c, none))
    (hx : .replay x ∈ (executeWithCudaGraph cfg.toGraphConfig forward (graph.onSlots c.tensors)
      (slotTensors c.tensors) c.state outputs).events) : (x.r : Int) ≤ x.bucket := by
  obtain ⟨a, _, ha, _, hr, hbucket, _, _⟩ := executeWithCudaGraph_replay hx
  rw [hr, hbucket]
  cases hat : a.copyFrom with
  | some atBucket =>
    obtain ⟨_, _, _, r, _, _, har, hle, _, _⟩ := attempted_slow ha hat
    rw [har]
    exact hle
  | none =>
    cases attempted_prepared ha with
    | prestaged hentry hprestaged =>
      obtain ⟨t0, t1, t2, hthree, hcount⟩ := attempted_inputs ha
      have hholds := prestaged_holds hset hentry
      rw [← hprestaged]
      cases hinputs : c.tensors.mapM id with
      | some inputs =>
        have hmap := mapM_id_eq_some hinputs
        rw [hmap, slotTensors_map] at hthree
        rwa [prestaged_count hs hset (hmap.trans (congrArg _ hthree)) hcount hentry]
      | none =>
        -- a slot that was never set has no row
        rw [requestCount_unset ((mapM_id_eq_none _).mp hinputs) hthree hcount]
        exact (Int.natCast_nonneg total).trans hholds
    | found hcopy | captured hcopy =>
      rw [hat] at hcopy
      cases hcopy

/-- A call has counted what its value says, at buckets that hold its batch. -/
structure CallCounted (g : GraphCall E) : Prop where
  tallied : Tallied g.before.metrics g.ran
  fits : ∀ x ∈ returnedReplays g.ran.events, (x.r : Int) ≤ x.bucket

theorem graphCall_counted {cfg : Config E} {forward : List (Tensor E) → List (Tensor E)}
    {chance : RequestChance} {requests : List (Option (Request E))} {s : GraphState E} {g : GraphCall E}
    (hs : EntriesAt Bucketed s.cudaGraphCache) (hg : graphCall cfg forward chance requests s = some g) :
    CallCounted g := by
  unfold graphCall at hg
  split at hg
  · cases hg
  · rename_i qs _
    split at hg
    · cases hg
    · rename_i total a _
      split at hg
      · cases hg
      · split at hg
        · cases hg
        · rename_i v hinputs
          split at hg
          · cases hg
          · rename_i hgo
            unfold slotsCall at hg
            split at hg
            · cases hg
              refine ⟨executeWithCudaGraph_tallied .., fun x hx => ?_⟩
              cases (serveInputs_arrived hinputs).1 with
              | skipped hfailed | failed _ _ hfailed => exact absurd hfailed hgo
              | collected _ hset _ hstate htensors =>
                rw [hstate, htensors] at hx
                exact replay_fits hs hset (mem_returnedReplays hx)
            · cases hg

/-- A call that returned `value` has added one to the fallbacks, or one to the replays of a
bucket with the rows that were padded there, and nothing else. -/
inductive CountsOnce (m : Metrics) (events : List (Event E)) (m' : Metrics) : Bool → Prop where
  | fallback (none_ : returnedReplays events = []) (eager : m'.eagerFallbacks = m.eagerFallbacks + 1)
      (replays : m'.replays = m.replays) (waste : m'.padWaste = m.padWaste) : CountsOnce m events m' false
  | replay (x : Replay E) (only : returnedReplays events = [x]) (fits : (x.r : Int) ≤ x.bucket)
      (eager : m'.eagerFallbacks = m.eagerFallbacks)
      (replays : m'.replays = Function.update m.replays x.bucket (m.replays x.bucket + 1))
      (waste : m'.padWaste = Function.update m.padWaste x.bucket (m.padWaste x.bucket + (x.bucket - x.r))) :
      CountsOnce m events m' true

theorem CallCounted.once {g : GraphCall E} (h : CallCounted g) {value : Bool} (hvalue : g.ran.value = .ok value) :
    CountsOnce g.before.metrics g.ran.events g.ran.state.metrics value := by
  have hnumber := h.tallied.replays
  have htallies := h.tallied.tallies
  rw [hvalue] at hnumber htallies
  cases value with
  | false =>
    have hnone : returnedReplays g.ran.events = [] := List.length_eq_zero_iff.mp hnumber
    rw [hnone] at htallies
    refine .fallback hnone htallies.eager (funext fun b => htallies.replays b) (funext fun b => ?_)
    exact (htallies.waste b).trans (Int.add_zero _)
  | true =>
    obtain ⟨x, hx⟩ := List.length_eq_one_iff.mp hnumber
    have hfits := h.fits x (by rw [hx]; exact List.mem_cons_self)
    rw [hx] at htallies
    refine .replay x hx hfits htallies.eager (funext fun b => ?_) (funext fun b => ?_)
    · rw [htallies.replays b, count_bucket_singleton]
      by_cases hb : x.bucket = b
      · rw [if_pos hb, hb, Function.update_self]
      · rw [if_neg hb, Function.update_of_ne (Ne.symm hb), Nat.add_zero]
    · rw [htallies.waste b, paddedRows_singleton, padWasteRows_of_le hfits]
      by_cases hb : x.bucket = b
      · rw [if_pos hb, hb, Function.update_self]
      · rw [if_neg hb, Function.update_of_ne (Ne.symm hb), Int.add_zero]

/-! ### Runs -/

/-- The replays that the calls made and that returned `true`. -/
def replaysOf (made : List (GraphCall E)) : List (Replay E) :=
  made.flatMap fun g => returnedReplays g.ran.events

/-- How many fallbacks the calls have counted. -/
def fallbacksOf (made : List (GraphCall E)) : Nat := (made.map fun g => fallbacks g.ran.value).sum

theorem replaysOf_append (made made' : List (GraphCall E)) :
    replaysOf (made ++ made') = replaysOf made ++ replaysOf made' := List.flatMap_append

theorem fallbacksOf_append (made made' : List (GraphCall E)) :
    fallbacksOf (made ++ made') = fallbacksOf made + fallbacksOf made' := by
  rw [fallbacksOf, List.map_append, List.sum_append]
  rfl

/-- Each call that returns has counted one fallback or made one replay. -/
theorem countP_returns {made : List (GraphCall E)} (h : ∀ g ∈ made, CallCounted g) :
    made.countP (fun g => g.ran.value.isOk) = fallbacksOf made + (replaysOf made).length := by
  induction made with
  | nil => rfl
  | cons g rest ih =>
    have hrest := ih fun g' hg' => h g' (List.mem_cons_of_mem _ hg')
    have hone : fallbacks g.ran.value + (returnedReplays g.ran.events).length =
        if g.ran.value.isOk then 1 else 0 := by
      rw [(h g List.mem_cons_self).tallied.replays]
      match g.ran.value with
      | .ok false | .ok true | .error _ => rfl
    rw [List.countP_cons, hrest, ← hone, fallbacksOf, replaysOf, fallbacksOf, replaysOf, List.map_cons,
      List.sum_cons, List.flatMap_cons, List.length_append]
    omega

section Run
variable {cfg : Config E} {forward : List (Tensor E) → List (Tensor E)}

/-- What a batch adds to the counters is what the call it makes has counted. -/
theorem serves_tallies {s s' : GraphState E} {call : Call E} (hs : Represented cfg.cudaGraphBatchSizes.sizes s)
    (h : Serves cfg forward s call s') :
    let made := (graphCall cfg forward call.chance call.requests s).toList
    (∀ g ∈ made, CallCounted g) ∧ Tallies s.metrics (fallbacksOf made) (replaysOf made) s'.metrics := by
  obtain ⟨hserved, rfl⟩ := h
  have hleaves := processRequests_leaves hserved
  cases hg : graphCall cfg forward call.chance call.requests s with
  | none =>
    rw [hg] at hleaves
    refine ⟨fun _ h => (by cases h), ?_⟩
    rw [hleaves.1]
    exact .refl s.metrics
  | some g =>
    rw [hg] at hleaves
    obtain ⟨hbefore, hafter, _⟩ := hleaves
    have hcounted := graphCall_counted hs.entries hg
    refine ⟨fun g' hg' => ?_, ?_⟩
    · rw [List.mem_singleton.mp hg']
      exact hcounted
    · have htallies := hcounted.tallied.tallies
      rw [hbefore, ← hafter] at htallies
      simpa [fallbacksOf, replaysOf] using htallies

theorem run_tallies {s t : GraphState E} {calls : List (Call E)}
    (hs : Represented cfg.cudaGraphBatchSizes.sizes s) (h : Run (Serves cfg forward) s calls t) :
    let made := graphCalls cfg forward s calls
    (∀ g ∈ made, CallCounted g) ∧ Tallies s.metrics (fallbacksOf made) (replaysOf made) t.metrics := by
  induction h with
  | nil s => exact ⟨fun _ h => (by cases h), .refl s.metrics⟩
  | @cons s call s' rest t hserves _ ih =>
    obtain ⟨hfirst, htally⟩ := serves_tallies hs hserves
    obtain ⟨hrest, htallies⟩ := ih (represented_serves hs hserves)
    rw [hserves.2] at hrest htallies htally
    rw [graphCalls]
    refine ⟨List.forall_mem_append.mpr ⟨hfirst, hrest⟩, ?_⟩
    rw [fallbacksOf_append, replaysOf_append]
    exact htally.append htallies

end Run

/-- The warmup counts no more than the captures that fail. -/
theorem loaded_tallies (cfg : Config E) (forward : List (Tensor E) → List (Tensor E)) (capture : Int → Option Bool) :
    Tallies (GraphState.fresh E).metrics 0 ([] : List (Replay E)) (loaded cfg forward capture).metrics := by
  have hfrom : ∀ (single multi : Int) (buckets : List Int) (s : GraphState E),
      Tallies s.metrics 0 ([] : List (Replay E)) (warmupFrom forward capture single multi buckets s).1.metrics := by
    intro single multi buckets
    induction buckets with
    | nil => intro s; exact .refl s.metrics
    | cons bucket rest ih =>
      intro s
      rw [warmupFrom]
      split
      · rename_i inputs captured _ _
        have hcapture : Tallies s.metrics 0 ([] : List (Replay E))
            (captureBucket forward captured inputs bucket s).2.metrics := by
          cases captured with
          | true => exact .refl s.metrics
          | false => exact tallies_captureFailure s.metrics bucket
        exact hcapture.append (ih _)
      · exact ih s
  unfold loaded warmupCudaGraphs
  split
  · exact hfrom ..
  · exact .refl _

/-- The sum over all buckets counts the list. -/
theorem finsum_count (l : List Int) : (finsum fun b => l.count b) = l.length := by
  have hsupport : Function.support (fun b => l.count b) ⊆ (l.toFinset : Set Int) := by
    intro b hb
    rw [Finset.mem_coe, List.mem_toFinset]
    exact List.count_pos_iff.mp (Nat.pos_of_ne_zero hb)
  rw [finsum_eq_sum_of_support_subset _ hsupport]
  exact List.sum_toFinset_count_eq_length l

/-- **Over a run every call that returns counts exactly once**: fallbacks and replays add up to
the calls, and the padded rows of a bucket to what its replays padded, none less than zero. -/
theorem run_accounting {cfg : Config E} {forward : List (Tensor E) → List (Tensor E)} {capture : Int → Option Bool}
    {calls : List (Call E)} {s : GraphState E}
    (h : Run (Serves cfg forward) (loaded cfg forward capture) calls s) :
    let made := graphCalls cfg forward (loaded cfg forward capture) calls
    (∀ g ∈ made, ∀ value, g.ran.value = .ok value →
        CountsOnce g.before.metrics g.ran.events g.ran.state.metrics value) ∧
      s.metrics.eagerFallbacks + finsum s.metrics.replays = made.countP (fun g => g.ran.value.isOk) ∧
      ∀ b, s.metrics.replays b = ((replaysOf made).map (·.bucket)).count b ∧
        s.metrics.padWaste b = (((replaysOf made).filter (·.bucket = b)).map fun x => b - (x.r : Int)).sum ∧
        ∀ x ∈ replaysOf made, x.bucket = b → 0 ≤ b - (x.r : Int) := by
  intro made
  obtain ⟨hcounted, htallies⟩ := run_tallies (represented_loaded cfg forward capture) h
  have hall := (loaded_tallies cfg forward capture).append htallies
  have hreplays : ∀ b, s.metrics.replays b = ((replaysOf made).map (·.bucket)).count b := by
    intro b
    rw [hall.replays b, List.nil_append]
    exact Nat.zero_add _
  have hfits : ∀ x ∈ replaysOf made, (x.r : Int) ≤ x.bucket := by
    intro x hx
    obtain ⟨g, hg, hx⟩ := List.mem_flatMap.mp hx
    exact (hcounted g hg).fits x hx
  refine ⟨fun g hg value hvalue => (hcounted g hg).once hvalue, ?_, fun b => ⟨hreplays b, ?_, ?_⟩⟩
  · have hsum : finsum s.metrics.replays = (replaysOf made).length := by
      rw [show s.metrics.replays = fun b => ((replaysOf made).map (·.bucket)).count b from funext hreplays,
        finsum_count, List.length_map]
    have heager : s.metrics.eagerFallbacks = fallbacksOf made := by
      rw [hall.eager, Nat.zero_add]
      exact Nat.zero_add _
    rw [hsum, heager, countP_returns hcounted]
  · have hterms : ((replaysOf made).filter (·.bucket = b)).map (fun x => padWasteRows x.r x.bucket) =
        ((replaysOf made).filter (·.bucket = b)).map fun x => b - (x.r : Int) := by
      refine List.map_congr_left fun x hx => ?_
      obtain ⟨hx, hb⟩ := List.mem_filter.mp hx
      rw [padWasteRows_of_le (hfits x hx), of_decide_eq_true hb]
    rw [hall.waste b, List.nil_append, paddedRows, hterms]
    exact Int.zero_add _
  · intro x hx hb
    have := hfits x hx
    omega

/-- A launch that fails. -/
def launchFails : RequestChance := {RequestChance.smooth with graph := {Chance.smooth with launch := some "launch"}}

/-- One request is replayed at the bucket of two, and the next, whose launch fails, falls back. -/
theorem run_accounting_warm : ∃ calls s,
    serveAll warmPackedConfig id (loaded warmPackedConfig id fun _ => some true)
        [(.smooth, [some (packedRequest 1 1 1)]), (launchFails, [some (packedRequest 1 1 1)])] = .ok (calls, s) ∧
      s.metrics.eagerFallbacks + finsum s.metrics.replays = 2 ∧ s.metrics.replays 2 = 1 ∧
      s.metrics.padWaste 2 = 1 := by
  have hrun : serveAll warmPackedConfig id (loaded warmPackedConfig id fun _ => some true)
    [(.smooth, [some (packedRequest 1 1 1)]), (launchFails, [some (packedRequest 1 1 1)])] = .ok (_, _) := rfl
  obtain ⟨_, hsum, hbuckets⟩ := run_accounting (serveAll_run hrun)
  obtain ⟨hreplays, hwaste, _⟩ := hbuckets 2
  exact ⟨_, _, hrun, hsum.trans rfl, hreplays.trans rfl, hwaste.trans rfl⟩

end TritonAot
