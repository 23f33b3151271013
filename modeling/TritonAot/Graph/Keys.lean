import TritonAot.Graph.Execute
import TritonAot.Lib.Attempts

/-! The cache and the failed set as sets of keys.

Every function of the graph path changes the two sets as its events say
(`follows_*`): a capture attempts a key that is in neither set, an eviction empties
both, and a replay changes nothing. -/
namespace TritonAot

open Attempts Steps

variable {E : Type} [Scalars E]

def keysOf (s : GraphState E) : Keys String := ⟨s.cudaGraphCache.keys.toFinset, s.cudaGraphFailed⟩

/-- What an event does to the keys. -/
def Event.op : Event E → Option (Op String)
  | .capture bucket _ captured => some (.attempt (bucketKey bucket) captured)
  | .evict => some .clear
  | .replay _ => none

/-- The keys change as the events say. -/
def Follows (s : GraphState E) (events : List (Event E)) (s' : GraphState E) : Prop :=
  Run Step (keysOf s) (events.filterMap Event.op) (keysOf s')

theorem Follows.same {s s' : GraphState E} (h : keysOf s' = keysOf s) : Follows s [] s' := by
  rw [Follows, h]
  exact .nil _

theorem Follows.append {s t u : GraphState E} {es fs : List (Event E)} (h : Follows s es t)
    (h' : Follows t fs u) : Follows s (es ++ fs) u := by
  rw [Follows, List.filterMap_append]
  exact Run.append h h'

theorem mem_cached {s : GraphState E} {key : String} :
    key ∈ (keysOf s).cached ↔ key ∈ s.cudaGraphCache := by
  rw [keysOf, List.mem_toFinset, AList.mem_keys]

theorem mem_cached_iff_lookup {s : GraphState E} {key : String} :
    key ∈ (keysOf s).cached ↔ ∃ e, s.cudaGraphCache.lookup key = some e := by
  rw [mem_cached, ← AList.lookup_isSome, Option.isSome_iff_exists]

/-- Keys are all that counts: the tensors, counters and prestage fields do not. -/
theorem keysOf_setEntry {s : GraphState E} {key : String} {e : CudaGraphEntry E}
    (h : s.cudaGraphCache.lookup key = some e) (e' : CudaGraphEntry E) :
    keysOf (s.setEntry key e') = keysOf s := by
  refine Keys.ext (Finset.ext fun k => ?_) rfl
  rw [mem_cached, mem_cached, GraphState.setEntry, AList.mem_insert]
  refine ⟨?_, .inr⟩
  intro hcase
  rcases hcase with rfl | hk
  · exact AList.lookup_isSome.mp (by rw [h]; rfl)
  · exact hk

theorem captureBucket_keys (forward : List (Tensor E) → List (Tensor E)) (captured : Bool)
    (inputs : List (Tensor E)) (bucket : Int) (s : GraphState E) :
    let k := keysOf (captureBucket forward captured inputs bucket s).2
    (∀ key ∈ k.cached, key = bucketKey bucket ∨ key ∈ (keysOf s).cached) ∧
      ∀ key ∈ k.failed, key = bucketKey bucket ∨ key ∈ (keysOf s).failed := by
  cases captured with
  | true =>
    refine ⟨fun key h => ?_, fun key h => .inr h⟩
    rw [mem_cached] at h ⊢
    exact (mem_emplace _ _ _ _).mp h
  | false => exact ⟨fun key h => .inr h, fun key h => Finset.mem_insert.mp h⟩

/-- A capture of a key in neither set. -/
theorem follows_captureBucket (forward : List (Tensor E) → List (Tensor E)) (captured : Bool)
    (inputs : List (Tensor E)) (bucket : Int) {s : GraphState E}
    (hc : s.cudaGraphCache.lookup (bucketKey bucket) = none) (hf : bucketKey bucket ∉ s.cudaGraphFailed) :
    Follows s [.capture bucket inputs captured] (captureBucket forward captured inputs bucket s).2 := by
  have hfresh : bucketKey bucket ∉ (keysOf s).cached ∧ bucketKey bucket ∉ (keysOf s).failed :=
    ⟨fun hm => (by
      obtain ⟨e, he⟩ := mem_cached_iff_lookup.mp hm
      rw [hc] at he
      cases he), hf⟩
  refine .cons ?_ (.nil _)
  cases captured with
  | true =>
    have hkeys : keysOf (captureBucket forward true inputs bucket s).2 =
        ⟨insert (bucketKey bucket) (keysOf s).cached, (keysOf s).failed⟩ := by
      refine Keys.ext (Finset.ext fun k => ?_) rfl
      rw [mem_cached, Finset.mem_insert, mem_cached]
      exact mem_emplace _ _ _ _
    rw [hkeys]
    exact .stored hfresh
  | false => exact .failed hfresh

/-- The selection changes the keys as its captures say. -/
theorem Selects.follows {forward : List (Tensor E) → List (Tensor E)} {capture : Int → Bool}
    {pad : Int → Except Fault (List (Tensor E))} {inputs : List (Tensor E)} {r : Int} {cands : List Int}
    {s s' : GraphState E} {value : Except Fault (Option (Selected E))} {events : List (Event E)}
    (h : Selects forward capture pad inputs r cands s value s' events) : Follows s events s' := by
  induction h with
  | exhausted | fault | cached => exact .same rfl
  | failed _ _ ih => exact ih
  | captured healthy _ missing _ => exact follows_captureBucket forward true _ _ missing healthy
  | missed healthy _ missing _ _ ih =>
    exact (follows_captureBucket forward false _ _ missing healthy).append ih

/-- A replay, whatever becomes of it, changes no key. -/
theorem keys_replayCudaGraphEntry (forward : List (Tensor E) → List (Tensor E)) (chance : Chance)
    (key : String) (r : Nat) (bucket : Int) (copyFrom : Option (List (Tensor E))) (s : GraphState E)
    (outputs : List (Tensor E)) :
    let ran := replayCudaGraphEntry forward chance key r bucket copyFrom s outputs
    keysOf ran.state = keysOf s ∧ ran.events.filterMap Event.op = [] := by
  have hops : ∀ events : List (Event E), (events = [] ∨ ∃ x, events = [.replay x]) →
      events.filterMap Event.op = [] := by
    intro events he
    rcases he with rfl | ⟨x, rfl⟩ <;> rfl
  refine ⟨?_, hops _ (replay_reports forward chance key r bucket copyFrom s outputs)⟩
  obtain ⟨m, hm | ⟨e, outs, he, hm⟩⟩ := replay_leaves forward chance key r bucket copyFrom s outputs
  · rw [hm]
    rfl
  · rw [hm]
    exact keysOf_setEntry he _

theorem follows_replay (forward : List (Tensor E) → List (Tensor E)) (chance : Chance)
    (key : String) (r : Nat) (bucket : Int) (copyFrom : Option (List (Tensor E))) (s : GraphState E)
    (outputs : List (Tensor E)) :
    let ran := replayCudaGraphEntry forward chance key r bucket copyFrom s outputs
    Follows s ran.events ran.state := by
  obtain ⟨hk, he⟩ := keys_replayCudaGraphEntry forward chance key r bucket copyFrom s outputs
  show Run Step _ _ _
  rw [he, hk]
  exact .nil _

theorem follows_checkWarmupWidths (cfg : GraphConfig) (t0 t1 : Tensor E) (r : Nat) (s : GraphState E) :
    Follows s (checkWarmupWidths cfg t0 t1 r s).2 (checkWarmupWidths cfg t0 t1 r s).1 := by
  rcases checkWarmupWidths_cases cfg t0 t1 r s with ⟨_, h⟩ | h
  · rw [h]
    exact .cons .clear (.nil _)
  · rw [h]
    exact .same rfl

theorem composes_follows (cfg : GraphConfig) (forward : List (Tensor E) → List (Tensor E)) (chance : Chance) :
    Composes cfg forward chance Follows where
  idle _ _ _ _ := .same rfl
  append := Follows.append
  widths := follows_checkWarmupWidths cfg
  selects := Selects.follows
  replays := follows_replay forward chance

theorem follows_executeWithCudaGraph (cfg : GraphConfig) (forward : List (Tensor E) → List (Tensor E))
    (chance : Chance) (inputs : List (Tensor E)) (s : GraphState E) (outputs : List (Tensor E)) :
    let ran := executeWithCudaGraph cfg forward chance inputs s outputs
    Follows s ran.events ran.state :=
  (composes_follows cfg forward chance).executeWithCudaGraph inputs s outputs

/-- `Execute` changes the keys as its events say. -/
theorem follows_execute {cfg : GraphConfig} {forward : List (Tensor E) → List (Tensor E)}
    {chance : Chance} {inputs : List (Tensor E)} {s : GraphState E} {outputs : List (Tensor E)}
    {x : Executed E} (h : execute cfg forward chance inputs s outputs = .ok x) :
    Follows s x.events x.state := by
  rcases execute_leaves h with ⟨hstate, hevents⟩ | ⟨hstate, hevents⟩
  · rw [hstate, hevents]
    exact .same rfl
  · rw [hstate, hevents]
    exact follows_executeWithCudaGraph cfg forward chance inputs s outputs

/-- The warmup of ascending buckets attempts each key at most once. -/
theorem follows_warmupFrom {forward : List (Tensor E) → List (Tensor E)} {capture : Int → Option Bool}
    {singleWidth multiWidth : Int} {buckets : List Int} {s : GraphState E}
    (hasc : buckets.Pairwise (· < ·))
    (hfree : ∀ b ∈ buckets, bucketKey b ∉ (keysOf s).cached ∧ bucketKey b ∉ (keysOf s).failed) :
    Follows s (warmupFrom forward capture singleWidth multiWidth buckets s).2
      (warmupFrom forward capture singleWidth multiWidth buckets s).1 := by
  induction buckets generalizing s with
  | nil => exact .same rfl
  | cons b rest ih =>
    obtain ⟨hlt, hrest⟩ := List.pairwise_cons.mp hasc
    rw [warmupFrom]
    split
    · rename_i inputs captured _ _
      obtain ⟨hnc, hnf⟩ := hfree b (List.mem_cons_self ..)
      have hc : s.cudaGraphCache.lookup (bucketKey b) = none :=
        Option.eq_none_iff_forall_not_mem.mpr fun e he => hnc (mem_cached_iff_lookup.mpr ⟨e, he⟩)
      have hcap := follows_captureBucket forward captured inputs b hc hnf
      have hmem := captureBucket_keys forward captured inputs b s
      have hnext := ih (s := (captureBucket forward captured inputs b s).2) hrest fun c hcm => by
        have hne : bucketKey c ≠ bucketKey b := fun he => by
          have := hlt c hcm
          rw [bucketKey_injective he] at this
          exact lt_irrefl _ this
        have hold := hfree c (List.mem_cons_of_mem _ hcm)
        exact ⟨fun h => hold.1 ((hmem.1 _ h).resolve_left hne),
          fun h => hold.2 ((hmem.2 _ h).resolve_left hne)⟩
      cases captured <;> exact hcap.append hnext
    · exact ih hrest fun c hc => hfree c (List.mem_cons_of_mem _ hc)

theorem follows_warmupCudaGraphs (cfg : GraphConfig) (forward : List (Tensor E) → List (Tensor E))
    (capture : Int → Option Bool) :
    Follows (GraphState.fresh E) (warmupCudaGraphs cfg forward capture (.fresh E)).2
      (warmupCudaGraphs cfg forward capture (.fresh E)).1 := by
  unfold warmupCudaGraphs
  split
  · exact follows_warmupFrom cfg.cudaGraphBatchSizes.ascending fun b _ =>
      ⟨Finset.notMem_empty _, Finset.notMem_empty _⟩
  · exact .same rfl

end TritonAot
