import TritonAot.Graph.Captures
import TritonAot.Instance.Lifecycle
import TritonAot.Instance.Packed

/-! No capture storm.

The events of an instance are those of its warmup, of every call that has returned,
and of the graph path of a call that is under way, which may also be one that never
returns. Over all of them the cache is evicted at most once, and a bucket is captured
at most once before and once after that. -/
namespace TritonAot

open Attempts Steps

variable {E : Type} [Scalars E]

theorem setInputTensors_checked {cfg : Config E} {chance : InputChance} {r : Nat}
    {requests : List (Request E)} {s : GraphState E} {responses : Responses} {c : Collecting E}
    {error : Option TritonError}
    (h : setInputTensors cfg chance r requests s responses = .ok (c, error)) :
    c.state.warmupWidthsChecked = s.warmupWidthsChecked := by
  rcases setInputTensors_staged h with hs | ⟨_, hs | hs⟩ | ⟨_, _, _, _, _, hr⟩
  · rw [hs]
  · rw [hs]
  · rw [hs]
  · exact hr.checked

theorem prestage_checked (cfg : Config E) (total : Nat) (allFailed : Bool) (s : GraphState E) :
    (prestage cfg total allFailed s).warmupWidthsChecked = s.warmupWidthsChecked := by
  unfold prestage
  simp only
  split
  · split <;> rfl
  · rfl

theorem once_executeSlots {cfg : Config E} {forward : List (Tensor E) → List (Tensor E)}
    {chance : Chance} {tensors : List (Option (Tensor E))} {s : GraphState E} {x : Executed E}
    (h : executeSlots cfg forward chance tensors s = .ok x) : Once s x.events x.state :=
  once_execute h

theorem once_processRequests {cfg : Config E} {forward : List (Tensor E) → List (Tensor E)}
    {chance : RequestChance} {requests : List (Option (Request E))} {s : GraphState E} {served : Served E}
    (h : processRequests cfg forward chance requests s = .ok served) :
    Once s served.events served.state := by
  rcases processRequests_reached h with ⟨hs, he⟩ | ⟨qs, total, a, _, _, _, hreached⟩
  · rw [hs, he]
    exact .same rfl rfl
  · generalize served.events = events at hreached
    generalize served.state = last at hreached
    cases hreached with
    | skipped => exact .same rfl (prestage_checked ..)
    | collected _ hc => exact .same rfl ((setInputTensors_checked hc).trans (prestage_checked ..))
    | @ran _ c _ _ hc hx =>
      have hcollect : Once s [] c.state :=
        .same rfl ((setInputTensors_checked hc).trans (prestage_checked ..))
      exact hcollect.append (once_executeSlots hx)

/-! ### The events of an instance -/

/-- What a call that is under way has done on the graph path, whether or not it will
return: nothing yet, or what `ExecuteWithCudaGraph` does on some inputs. -/
inductive UnderWay (cfg : Config E) (forward : List (Tensor E) → List (Tensor E)) (s : GraphState E) :
    List (Event E) → Prop where
  | idle : UnderWay cfg forward s []
  | executing {chance : InputChance} {total : Nat} {requests : List (Request E)} {responses : Responses}
      {c : Collecting E}
      (collect : setInputTensors cfg chance total requests (prestage cfg total false s) responses =
        .ok (c, none)) (graph : Chance) (inputs outputs : List (Tensor E)) :
      UnderWay cfg forward s
        (executeWithCudaGraph cfg.toGraphConfig forward graph inputs c.state outputs).events

/-- The events of an instance from its creation on. -/
def instanceEvents (cfg : Config E) (forward : List (Tensor E) → List (Tensor E)) (capture : Int → Option Bool)
    (calls : List (Call E)) (current : List (Event E)) : List (Event E) :=
  (warmupCudaGraphs cfg.toGraphConfig forward capture (.fresh E)).2 ++
    calls.flatMap (·.served.events) ++ current

/-- The events change the keys as they say, and evict at most once. -/
structure Counted (s : GraphState E) (events : List (Event E)) (s' : GraphState E) : Prop where
  follows : Follows s events s'
  once : Once s events s'

theorem Counted.append {s t u : GraphState E} {es fs : List (Event E)} (h : Counted s es t)
    (h' : Counted t fs u) : Counted s (es ++ fs) u :=
  ⟨h.follows.append h'.follows, h.once.append h'.once⟩

theorem counted_run {cfg : Config E} {forward : List (Tensor E) → List (Tensor E)} {s t : GraphState E}
    {calls : List (Call E)} (h : Run (Serves cfg forward) s calls t) :
    Counted s (calls.flatMap (·.served.events)) t := by
  induction h with
  | nil s => exact ⟨.same rfl, .same rfl rfl⟩
  | cons hserves _ ih =>
    obtain ⟨hserved, rfl⟩ := hserves
    have hcall : Counted _ _ _ := ⟨follows_processRequests hserved, once_processRequests hserved⟩
    rw [List.flatMap_cons]
    exact hcall.append ih

theorem UnderWay.counted {cfg : Config E} {forward : List (Tensor E) → List (Tensor E)}
    {s : GraphState E} {current : List (Event E)} (h : UnderWay cfg forward s current) :
    ∃ t, Counted s current t := by
  cases h with
  | idle => exact ⟨s, .same rfl, .same rfl rfl⟩
  | @executing _ _ _ _ c hcollect graph inputs outputs =>
    have hstart : Counted s [] c.state :=
      ⟨.same ((keysOf_setInputTensors hcollect).trans (keysOf_prestage ..)),
        .same rfl ((setInputTensors_checked hcollect).trans (prestage_checked ..))⟩
    exact ⟨_, hstart.append ⟨follows_executeWithCudaGraph .., once_executeWithCudaGraph ..⟩⟩

/-- At most one eviction; at most one capture of a bucket in any stretch of events
without it, and at most two in all. -/
structure NoStorm (events : List (Event E)) : Prop where
  once : evictions events ≤ 1
  stretch : ∀ before stretch after, events = before ++ stretch ++ after → evictions stretch = 0 →
    ∀ bucket, captures bucket stretch ≤ 1
  twice : ∀ bucket, captures bucket events ≤ 2

/-- **No capture storm**, whatever batches come and whatever becomes of them. -/
theorem run_noStorm {cfg : Config E} {forward : List (Tensor E) → List (Tensor E)}
    {capture : Int → Option Bool} {calls : List (Call E)} {s : GraphState E} {current : List (Event E)}
    (h : Run (Serves cfg forward) (loaded cfg forward capture) calls s)
    (hcurrent : UnderWay cfg forward s current) :
    NoStorm (instanceEvents cfg forward capture calls current) := by
  obtain ⟨t, hlast⟩ := hcurrent.counted
  have hwarm : Counted (GraphState.fresh E) _ (loaded cfg forward capture) :=
    ⟨follows_warmupCudaGraphs cfg.toGraphConfig forward capture,
      once_warmupCudaGraphs cfg.toGraphConfig forward capture _⟩
  obtain ⟨hfollows, honce⟩ := (hwarm.append (counted_run h)).append hlast
  have hevict := honce.evictions_le
  refine ⟨hevict, fun before stretch after hsplit hnone bucket => ?_, fun bucket => ?_⟩
  · have hall : instanceEvents cfg forward capture calls current = before ++ stretch ++ after := hsplit
    rw [instanceEvents] at hall
    rw [hall] at hfollows
    have hle := captures_le hfollows bucket
    rwa [hnone] at hle
  · have hwhole : Follows (GraphState.fresh E) ([] ++ instanceEvents cfg forward capture calls current ++ []) t := by
      rw [List.nil_append, List.append_nil]
      exact hfollows
    exact (captures_le hwhole bucket).trans (Nat.succ_le_succ hevict)

/-- A bucket is captured at load, and again when the first batch turns out wider. -/
theorem run_noStorm_evicted : ∃ calls s,
    Run (Serves warmPackedConfig id) (loaded warmPackedConfig id fun _ => some true) calls s ∧
      captures 2 (instanceEvents warmPackedConfig id (fun _ => some true) calls []) = 2 ∧
      NoStorm (instanceEvents warmPackedConfig id (fun _ => some true) calls []) := by
  have hrun : serveAll warmPackedConfig id (loaded warmPackedConfig id fun _ => some true)
    [(.smooth, [some (packedRequest 1 1 4)])] = .ok (_, _) := rfl
  exact ⟨_, _, serveAll_run hrun, rfl, run_noStorm (serveAll_run hrun) .idle⟩

end TritonAot
