import TritonAot.Graph.Representation
import TritonAot.Instance.Lifecycle
import TritonAot.Instance.Slots

/-! The representation invariant over the life of an instance.

Collecting a batch into an entry rewrites elements and no shape; everything else
that changes the cache is on the graph path. -/
namespace TritonAot

open Attempts Steps

variable {E : Type} [Scalars E]

/-- The state between two batches, in the form that a call keeps. -/
structure Represented (sizes : List Int) (s : GraphState E) : Prop where
  healthy : (keysOf s).Healthy
  within : sizes ≠ [] → (keysOf s).Within (keysAt sizes)
  entries : EntriesAt Bucketed s.cudaGraphCache

theorem Represented.of_keys {sizes : List Int} {s s' : GraphState E} (h : Represented sizes s)
    (hkeys : keysOf s' = keysOf s) (hentries : EntriesAt Bucketed s'.cudaGraphCache) :
    Represented sizes s' := by
  refine ⟨?_, ?_, hentries⟩
  · rw [hkeys]
    exact h.healthy
  · rw [hkeys]
    exact h.within

theorem represented_loaded (cfg : Config E) (forward : List (Tensor E) → List (Tensor E))
    (capture : Int → Option Bool) : Represented cfg.cudaGraphBatchSizes.sizes (loaded cfg forward capture) where
  healthy := healthy_loaded cfg forward capture
  within _ := (follows_warmupCudaGraphs cfg.toGraphConfig forward capture).within
    ⟨Finset.empty_subset _, Finset.empty_subset _⟩ (capturesIn_warmup cfg.toGraphConfig forward capture _)
  entries := bucketed_warmup cfg.toGraphConfig forward capture

section Call
variable {cfg : Config E} {forward : List (Tensor E) → List (Tensor E)} {s : GraphState E}

theorem Represented.prestage {sizes : List Int} (h : Represented sizes s) (cfg : Config E) (total : Nat)
    (allFailed : Bool) : Represented sizes (prestage cfg total allFailed s) :=
  h.of_keys (keysOf_prestage ..) (by rw [prestage_cache]; exact h.entries)

theorem Represented.setInputTensors {sizes : List Int} {chance : InputChance} {r : Nat}
    {requests : List (Request E)} {responses : Responses} {c : Collecting E} {error : Option TritonError}
    (h : Represented sizes s)
    (hset : setInputTensors cfg chance r requests s responses = .ok (c, error)) :
    Represented sizes c.state := by
  refine h.of_keys (keysOf_setInputTensors hset) ?_
  rcases setInputTensors_staged hset with hs | ⟨_, hs | hs⟩ | @⟨key, b, e, statics, _, _, he, _, hfill, hr⟩
  · rw [hs]
    exact h.entries
  · rw [hs]
    exact h.entries
  · rw [hs]
    exact h.entries
  · intro n e' he'
    by_cases hk : bucketKey n = key
    · rw [hk, hr.entry] at he'
      cases he'
      exact (h.entries n e (hk ▸ he)).of_shapes ((fillAll_like hfill).imp fun _ _ hlike => hlike.shape)
    · rw [hr.others _ hk] at he'
      exact h.entries n e' he'

/-- A call of `ExecuteWithCudaGraph` on any tensors, whatever its value. -/
theorem Represented.executeWithCudaGraph {cfg : GraphConfig} (h : Represented cfg.cudaGraphBatchSizes.sizes s)
    (chance : Chance) (inputs outputs : List (Tensor E)) :
    Represented cfg.cudaGraphBatchSizes.sizes
      (executeWithCudaGraph cfg forward chance inputs s outputs).state where
  healthy := run_healthy (follows_executeWithCudaGraph ..) h.healthy
  within hne := (follows_executeWithCudaGraph ..).within (h.within hne) (capturesIn_executeWithCudaGraph hne _ _ _ _ _)
  entries := bucketed_executeWithCudaGraph h.entries chance inputs outputs

theorem Represented.executeSlots {chance : Chance} {tensors : List (Option (Tensor E))} {x : Executed E}
    (h : Represented cfg.cudaGraphBatchSizes.sizes s)
    (hx : executeSlots cfg forward chance tensors s = .ok x) :
    Represented cfg.cudaGraphBatchSizes.sizes x.state := by
  rcases execute_leaves hx with ⟨hs, _⟩ | ⟨hs, _⟩
  · rw [hs]
    exact h
  · rw [hs]
    exact h.executeWithCudaGraph (chance.onSlots tensors) (slotTensors tensors) []

theorem represented_serves {s' : GraphState E} {call : Call E}
    (h : Represented cfg.cudaGraphBatchSizes.sizes s) (hserves : Serves cfg forward s call s') :
    Represented cfg.cudaGraphBatchSizes.sizes s' := by
  obtain ⟨hserved, rfl⟩ := hserves
  rcases processRequests_reached hserved with ⟨hs, _⟩ | ⟨qs, total, a, _, _, _, hreached⟩
  · rw [hs]
    exact h
  · generalize call.served.events = events at hreached
    generalize call.served.state = last at hreached
    cases hreached with
    | skipped => exact h.prestage cfg total true
    | collected _ hc => exact (h.prestage cfg total false).setInputTensors hc
    | ran _ hc hx => exact ((h.prestage cfg total false).setInputTensors hc).executeSlots hx

end Call

end TritonAot
