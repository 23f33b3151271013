import TritonAot.Graph.Keys

/-! How often a bucket is captured.

A capture is an attempt of the bucket's key, which only an eviction allows again
(`follows_*`), and the flag of the width check lets it evict once (`once_*`). So
whatever is done, a bucket is captured at most twice. -/
namespace TritonAot

open Attempts Steps

variable {E : Type} [Scalars E]

/-! ### Counting events -/

def Event.captures (bucket : Int) : Event E → Nat
  | .capture b _ _ => if b = bucket then 1 else 0
  | _ => 0

def Event.evictions : Event E → Nat
  | .evict => 1
  | _ => 0

/-- The calls of `CaptureBucket` for a bucket, successful or not. -/
def captures (bucket : Int) (events : List (Event E)) : Nat := (events.map (Event.captures bucket)).sum

def evictions (events : List (Event E)) : Nat := (events.map Event.evictions).sum

@[simp] theorem evictions_nil : evictions ([] : List (Event E)) = 0 := rfl

@[simp] theorem evictions_cons (event : Event E) (events : List (Event E)) :
    evictions (event :: events) = event.evictions + evictions events := by
  rw [evictions, List.map_cons, List.sum_cons, evictions]

@[simp] theorem evictions_append (es fs : List (Event E)) :
    evictions (es ++ fs) = evictions es + evictions fs := by
  rw [evictions, List.map_append, List.sum_append, evictions, evictions]

/-- A sum over the operations is one over the events. -/
theorem sum_op (f : Op String → Nat) (events : List (Event E)) :
    ((events.filterMap Event.op).map f).sum = (events.map fun event => (event.op.map f).getD 0).sum := by
  induction events with
  | nil => rfl
  | cons event rest ih =>
    rw [List.filterMap_cons, List.map_cons, List.sum_cons, ← ih]
    cases event.op with
    | none => exact (Nat.zero_add _).symm
    | some op => exact List.sum_cons

theorem op_captures (bucket : Int) (events : List (Event E)) :
    ((events.filterMap Event.op).map (Op.attempts (bucketKey bucket))).sum = captures bucket events := by
  rw [sum_op, captures]
  congr 1
  refine List.map_congr_left fun event _ => ?_
  cases event with
  | capture b inputs captured =>
    show (if bucketKey b = bucketKey bucket then 1 else 0) = if b = bucket then 1 else 0
    simp only [bucketKey_inj]
  | evict => rfl
  | replay x => rfl

theorem op_clears (events : List (Event E)) :
    ((events.filterMap Event.op).map Op.clears).sum = evictions events := by
  rw [sum_op, evictions]
  congr 1
  refine List.map_congr_left fun event _ => ?_
  cases event <;> rfl

/-- A bucket is captured at most once more than the cache is evicted, in any stretch
of the events. -/
theorem captures_le {s s' : GraphState E} {before stretch after : List (Event E)}
    (h : Follows s (before ++ stretch ++ after) s') (bucket : Int) :
    captures bucket stretch ≤ evictions stretch + 1 := by
  rw [Follows, List.filterMap_append, List.filterMap_append] at h
  obtain ⟨k, hfront, _⟩ := h.split
  obtain ⟨k', _, hstretch⟩ := hfront.split
  have hle := run_attempts_le hstretch (bucketKey bucket)
  rwa [op_captures, op_clears] at hle

/-! ### The eviction is made once -/

/-- `warmup_widths_checked_`, as a number. -/
def GraphState.checked (s : GraphState E) : Nat := s.warmupWidthsChecked.toNat

/-- An eviction raises the flag, and nothing lowers it. -/
def Once (s : GraphState E) (events : List (Event E)) (s' : GraphState E) : Prop :=
  evictions events + s.checked ≤ s'.checked

theorem Once.same {s s' : GraphState E} {events : List (Event E)} (he : evictions events = 0)
    (h : s'.warmupWidthsChecked = s.warmupWidthsChecked) : Once s events s' := by
  rw [Once, he, GraphState.checked, GraphState.checked, h]
  omega

theorem Once.append {s t u : GraphState E} {es fs : List (Event E)} (h : Once s es t) (h' : Once t fs u) :
    Once s (es ++ fs) u := by
  rw [Once] at h h' ⊢
  rw [evictions_append]
  omega

theorem Once.evictions_le {s s' : GraphState E} {events : List (Event E)} (h : Once s events s') :
    evictions events ≤ 1 := by
  have hle : s'.checked ≤ 1 := Bool.toNat_le _
  rw [Once] at h
  omega

theorem Selects.checked {forward : List (Tensor E) → List (Tensor E)} {capture : Int → Bool}
    {pad : Int → Except Fault (List (Tensor E))} {inputs : List (Tensor E)} {r : Int} {cands : List Int}
    {s s' : GraphState E} {value : Except Fault (Option (Selected E))} {events : List (Event E)}
    (h : Selects forward capture pad inputs r cands s value s' events) :
    evictions events = 0 ∧ s'.warmupWidthsChecked = s.warmupWidthsChecked := by
  induction h with
  | exhausted | fault | cached | captured => exact ⟨rfl, rfl⟩
  | failed _ _ ih => exact ih
  | missed _ _ _ _ _ ih =>
    refine ⟨?_, ih.2⟩
    rw [evictions_cons, ih.1]
    rfl

theorem replay_checked (forward : List (Tensor E) → List (Tensor E)) (chance : Chance) (key : String)
    (r : Nat) (bucket : Int) (copyFrom : Option (List (Tensor E))) (s : GraphState E)
    (outputs : List (Tensor E)) :
    let ran := replayCudaGraphEntry forward chance key r bucket copyFrom s outputs
    evictions ran.events = 0 ∧ ran.state.warmupWidthsChecked = s.warmupWidthsChecked := by
  have hnone : ∀ events : List (Event E), (events = [] ∨ ∃ x, events = [.replay x]) →
      evictions events = 0 := by
    intro events he
    rcases he with rfl | ⟨x, rfl⟩ <;> rfl
  refine ⟨hnone _ (replay_reports forward chance key r bucket copyFrom s outputs), ?_⟩
  obtain ⟨m, hm | ⟨e, outs, _, hm⟩⟩ := replay_leaves forward chance key r bucket copyFrom s outputs
  · rw [hm]
  · rw [hm]
    rfl

/-- The check evicts only while its flag is down, and raises it. -/
theorem once_checkWarmupWidths (cfg : GraphConfig) (t0 t1 : Tensor E) (r : Nat) (s : GraphState E) :
    Once s (checkWarmupWidths cfg t0 t1 r s).2 (checkWarmupWidths cfg t0 t1 r s).1 := by
  rcases checkWarmupWidths_cases cfg t0 t1 r s with ⟨hdown, h⟩ | h
  · have hs : s.checked = 0 := by
      rw [GraphState.checked, hdown]
      rfl
    rw [h, Once, hs]
    exact Nat.le_refl 1
  · have hs : s.checked ≤ 1 := Bool.toNat_le _
    rw [h, Once, evictions_nil, Nat.zero_add]
    exact hs

theorem composes_once (cfg : GraphConfig) (forward : List (Tensor E) → List (Tensor E)) (chance : Chance) :
    Composes cfg forward chance Once where
  idle _ _ _ _ := .same rfl rfl
  append := Once.append
  widths := once_checkWarmupWidths cfg
  selects h := .same h.checked.1 h.checked.2
  replays key r bucket copyFrom s outputs := by
    obtain ⟨hno, hkept⟩ := replay_checked forward chance key r bucket copyFrom s outputs
    exact .same hno hkept

theorem once_executeWithCudaGraph (cfg : GraphConfig) (forward : List (Tensor E) → List (Tensor E))
    (chance : Chance) (inputs : List (Tensor E)) (s : GraphState E) (outputs : List (Tensor E)) :
    let ran := executeWithCudaGraph cfg forward chance inputs s outputs
    Once s ran.events ran.state :=
  (composes_once cfg forward chance).executeWithCudaGraph inputs s outputs

theorem once_execute {cfg : GraphConfig} {forward : List (Tensor E) → List (Tensor E)} {chance : Chance}
    {inputs : List (Tensor E)} {s : GraphState E} {outputs : List (Tensor E)} {x : Executed E}
    (h : execute cfg forward chance inputs s outputs = .ok x) : Once s x.events x.state := by
  rcases execute_leaves h with ⟨hstate, hevents⟩ | ⟨hstate, hevents⟩
  · rw [hstate, hevents]
    exact .same rfl rfl
  · rw [hstate, hevents]
    exact once_executeWithCudaGraph cfg forward chance inputs s outputs

theorem once_warmupCudaGraphs (cfg : GraphConfig) (forward : List (Tensor E) → List (Tensor E))
    (capture : Int → Option Bool) (s : GraphState E) :
    Once s (warmupCudaGraphs cfg forward capture s).2 (warmupCudaGraphs cfg forward capture s).1 := by
  have hfrom : ∀ (buckets : List Int) (t : GraphState E),
      Once t (warmupFrom forward capture cfg.cudaGraphWarmupSingleWidth cfg.cudaGraphWarmupMultiWidth
        buckets t).2 (warmupFrom forward capture cfg.cudaGraphWarmupSingleWidth
        cfg.cudaGraphWarmupMultiWidth buckets t).1 := by
    intro buckets t
    induction buckets generalizing t with
    | nil => exact .same rfl rfl
    | cons bucket rest ih =>
      rw [warmupFrom]
      split
      · rename_i inputs captured _ _
        have hcapture : Once t [.capture bucket inputs captured] (captureBucket forward captured inputs bucket t).2 :=
          .same rfl (captureBucket_frame forward captured inputs bucket t).1
        cases captured <;> exact hcapture.append (ih _)
      · exact ih t
  unfold warmupCudaGraphs
  split
  · exact hfrom _ s
  · exact .same rfl rfl

end TritonAot
