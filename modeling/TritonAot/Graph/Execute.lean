import TritonAot.Graph.Replay

/-! `ExecuteWithCudaGraph` and `Execute`.

A call is the width check, then the selection of a bucket or the prestaged entry, then
a replay. What composes and holds of each of these holds of the call
(`Composes.executeWithCudaGraph`). -/
namespace TritonAot

variable {E : Type} [Scalars E]

/-- The one-time width self-heal: on the first batch, captures at other widths
than the traffic's are evicted. -/
def checkWarmupWidths (cfg : GraphConfig) (t0 t1 : Tensor E) (r : Nat) (s : GraphState E) :
    GraphState E × List (Event E) :=
  if s.warmupWidthsChecked then (s, [])
  else
    let s := {s with warmupWidthsChecked := true}
    if cfg.cudaGraphWarmupSingleWidth > 0 ∧ cfg.cudaGraphWarmupMultiWidth > 0 ∧ r > 0 ∧
        t0.shape.length ≥ 2 then
      let realSingle : Int := (t0.shape.getD 1 0 : Nat)
      let realMulti : Int := (t1.numel / r : Nat)
      if realSingle ≠ cfg.cudaGraphWarmupSingleWidth ∨ realMulti ≠ cfg.cudaGraphWarmupMultiWidth then
        ({s with
          cudaGraphCache := ∅, cudaGraphFailed := ∅, prestagedEntry := none, prestagedBucket := -1},
          [.evict])
      else (s, [])
    else (s, [])

/-- The one-time check finds buckets captured at other widths than the traffic's. -/
structure Evicts (cfg : GraphConfig) (t0 t1 : Tensor E) (r : Nat) (s : GraphState E) : Prop where
  unchecked : s.warmupWidthsChecked = false
  configured : 0 < cfg.cudaGraphWarmupSingleWidth ∧ 0 < cfg.cudaGraphWarmupMultiWidth
  pos : 0 < r
  axes : 2 ≤ t0.shape.length
  differ : ((t0.shape.getD 1 0 : Nat) : Int) ≠ cfg.cudaGraphWarmupSingleWidth ∨
    ((t1.numel / r : Nat) : Int) ≠ cfg.cudaGraphWarmupMultiWidth

/-- The state without any entry. -/
def GraphState.evicted (s : GraphState E) : GraphState E :=
  {s with
    warmupWidthsChecked := true, cudaGraphCache := ∅, cudaGraphFailed := ∅, prestagedEntry := none,
    prestagedBucket := -1}

theorem checkWarmupWidths_evicts {cfg : GraphConfig} {t0 t1 : Tensor E} {r : Nat} {s : GraphState E}
    (h : Evicts cfg t0 t1 r s) : checkWarmupWidths cfg t0 t1 r s = (s.evicted, [.evict]) := by
  rw [checkWarmupWidths, if_neg (by rw [h.unchecked]; exact Bool.false_ne_true)]
  simp only
  rw [if_pos ⟨h.configured.1, h.configured.2, h.pos, h.axes⟩, if_pos h.differ]
  rfl

theorem checkWarmupWidths_keeps {cfg : GraphConfig} {t0 t1 : Tensor E} {r : Nat} {s : GraphState E}
    (h : ¬ Evicts cfg t0 t1 r s) :
    checkWarmupWidths cfg t0 t1 r s = ({s with warmupWidthsChecked := true}, []) := by
  unfold checkWarmupWidths
  split
  · rename_i hchecked
    rw [← hchecked]
  · rename_i hchecked
    simp only
    split
    · rename_i hguard
      split
      · rename_i hdiffer
        have hunchecked : s.warmupWidthsChecked = false := Bool.eq_false_iff.mpr hchecked
        exact absurd ⟨hunchecked, ⟨hguard.1, hguard.2.1⟩, hguard.2.2.1, hguard.2.2.2, hdiffer⟩ h
      · rfl
    · rfl

/-- The check raises its flag, and empties the cache or does nothing else. -/
theorem checkWarmupWidths_cases (cfg : GraphConfig) (t0 t1 : Tensor E) (r : Nat) (s : GraphState E) :
    (s.warmupWidthsChecked = false ∧ checkWarmupWidths cfg t0 t1 r s = (s.evicted, [.evict])) ∨
      checkWarmupWidths cfg t0 t1 r s = ({s with warmupWidthsChecked := true}, []) := by
  by_cases h : Evicts cfg t0 t1 r s
  · exact .inl ⟨h.unchecked, checkWarmupWidths_evicts h⟩
  · exact .inr (checkWarmupWidths_keeps h)

/-- `r`: the smallest leading dimension. -/
def requestCount (t0 t1 t2 : Tensor E) : Except Fault Nat := do
  let r ← t0.size0
  let n1 ← t1.size0
  let n2 ← t2.size0
  .ok (min (min r n1) n2)

/-- The request count is the smallest leading dimension. -/
theorem requestCount_ok {t0 t1 t2 : Tensor E} {r : Nat} (h : requestCount t0 t1 t2 = .ok r) :
    (∀ t ∈ [t0, t1, t2], ∃ n, Leads t n ∧ r ≤ n) ∧ ∃ t ∈ [t0, t1, t2], Leads t r := by
  obtain ⟨n0, h0, h⟩ := bind_ok.mp h
  obtain ⟨n1, h1, h⟩ := bind_ok.mp h
  obtain ⟨n2, h2, h⟩ := bind_ok.mp h
  cases h
  have hl0 : Leads t0 n0 := size0_ok h0
  have hl1 : Leads t1 n1 := size0_ok h1
  have hl2 : Leads t2 n2 := size0_ok h2
  refine ⟨?_, ?_⟩
  · intro t ht
    rcases List.mem_cons.mp ht with rfl | ht
    · exact ⟨n0, hl0, by omega⟩
    · rcases List.mem_cons.mp ht with rfl | ht
      · exact ⟨n1, hl1, by omega⟩
      · rw [List.mem_singleton.mp ht]
        exact ⟨n2, hl2, by omega⟩
  · rcases Nat.le_total n0 n1 with h01 | h01
    · rcases Nat.le_total n0 n2 with h02 | h02
      · exact ⟨t0, by simp, by rwa [Nat.min_eq_left h01, Nat.min_eq_left h02]⟩
      · exact ⟨t2, by simp, by rwa [Nat.min_eq_left h01, Nat.min_eq_right h02]⟩
    · rcases Nat.le_total n1 n2 with h12 | h12
      · exact ⟨t1, by simp, by rwa [Nat.min_eq_right h01, Nat.min_eq_left h12]⟩
      · exact ⟨t2, by simp, by rwa [Nat.min_eq_right h01, Nat.min_eq_right h12]⟩

/-- Without a graph: one eager fallback is counted. -/
def eagerFallback (s : GraphState E) (outputs : List (Tensor E)) (events : List (Event E)) : Ran E Bool :=
  ⟨.ok false, {s with metrics := s.metrics.eagerFallback}, outputs, events⟩

/-- `ExecuteWithCudaGraph` from the bucket selection on. -/
def executeSlow (cfg : GraphConfig) (forward : List (Tensor E) → List (Tensor E)) (chance : Chance)
    (inputs : List (Tensor E)) (r : Nat) (s : GraphState E) (outputs : List (Tensor E)) : Ran E Bool :=
  match selectBucket cfg.cudaGraphBatchSizes forward chance.capture (padRequestsUp chance.alloc inputs r) inputs r s with
  | (.error f, s', events) => ⟨.error f, s', outputs, events⟩
  | (.ok none, s', events) => eagerFallback s' outputs events
  | (.ok (some selected), s', events) =>
    let ran := replayCudaGraphEntry forward chance (bucketKey selected.bucket) r selected.bucket
      (some selected.inputsAtBucket) s' outputs
    {ran with events := events ++ ran.events}

/-- `ExecuteWithCudaGraph` from the fast path on. -/
def executeFrom (cfg : GraphConfig) (forward : List (Tensor E) → List (Tensor E)) (chance : Chance)
    (inputs : List (Tensor E)) (r : Nat) (s : GraphState E) (outputs : List (Tensor E)) : Ran E Bool :=
  match s.prestagedEntry with
  | some key =>
    replayCudaGraphEntry forward chance key r s.prestagedBucket none
      {s with prestagedEntry := none, prestagedBucket := -1} outputs
  | none => executeSlow cfg forward chance inputs r s outputs

def executeWithCudaGraph (cfg : GraphConfig) (forward : List (Tensor E) → List (Tensor E))
    (chance : Chance) (inputs : List (Tensor E)) (s : GraphState E) (outputs : List (Tensor E)) :
    Ran E Bool :=
  match inputs with
  | [t0, t1, t2] =>
    match requestCount t0 t1 t2 with
    | .error f => ⟨.error f, s, outputs, []⟩
    | .ok r =>
      let (s', events) := checkWarmupWidths cfg t0 t1 r s
      let ran := executeFrom cfg forward chance inputs r s' outputs
      {ran with events := events ++ ran.events}
  | _ => eagerFallback s outputs []

/-- What `Execute` leaves; `failure` is the text of the exception that its
handler answers every response with. -/
structure Executed (E : Type) [Scalars E] where
  state : GraphState E
  outputs : List (Tensor E)
  events : List (Event E)
  failure : Option String

/-- The eager run of `Execute`. -/
def executeEager (forward : List (Tensor E) → List (Tensor E)) (chance : Chance)
    (inputs : List (Tensor E)) (s : GraphState E) (outputs : List (Tensor E)) (events : List (Event E)) :
    Executed E :=
  match chance.eager with
  | some what => ⟨s, outputs, events, some what⟩
  | none => ⟨s, outputs ++ forward inputs, events, none⟩

/-- `Execute`: an exception is answered, any other fault ends the process. -/
def execute (cfg : GraphConfig) (forward : List (Tensor E) → List (Tensor E)) (chance : Chance)
    (inputs : List (Tensor E)) (s : GraphState E) (outputs : List (Tensor E)) :
    Except Fault (Executed E) :=
  if cfg.enabledCudaGraph && !cfg.deviceIsCpu then
    let ran := executeWithCudaGraph cfg forward chance inputs s outputs
    match ran.value with
    | .ok true => .ok ⟨ran.state, ran.outputs, ran.events, none⟩
    | .ok false => .ok (executeEager forward chance inputs ran.state ran.outputs ran.events)
    | .error (.thrown what) => .ok ⟨ran.state, ran.outputs, ran.events, some what⟩
    | .error f => .error f
  else .ok (executeEager forward chance inputs s outputs [])

/-! ### A call, part by part -/

/-- A relation between the state before, the events and the state after that composes,
and holds of every part of a call. -/
structure Composes (cfg : GraphConfig) (forward : List (Tensor E) → List (Tensor E)) (chance : Chance)
    (R : GraphState E → List (Event E) → GraphState E → Prop) : Prop where
  /-- Counting, and letting go of the prestaged entry, are no events. -/
  idle : ∀ (s : GraphState E) (m : Metrics) (entry : Option String) (b : Int),
    R s [] {s with metrics := m, prestagedEntry := entry, prestagedBucket := b}
  append : ∀ {s t u : GraphState E} {es fs : List (Event E)}, R s es t → R t fs u → R s (es ++ fs) u
  widths : ∀ (t0 t1 : Tensor E) (r : Nat) (s : GraphState E),
    R s (checkWarmupWidths cfg t0 t1 r s).2 (checkWarmupWidths cfg t0 t1 r s).1
  selects : ∀ {inputs : List (Tensor E)} {r : Nat} {s s' : GraphState E}
    {value : Except Fault (Option (Selected E))} {events : List (Event E)},
    Selects forward chance.capture (padRequestsUp chance.alloc inputs r) inputs r (cfg.candidates r) s value s' events →
    R s events s'
  replays : ∀ (key : String) (r : Nat) (bucket : Int) (copyFrom : Option (List (Tensor E)))
    (s : GraphState E) (outputs : List (Tensor E)),
    let ran := replayCudaGraphEntry forward chance key r bucket copyFrom s outputs
    R s ran.events ran.state

section Composes
variable {cfg : GraphConfig} {forward : List (Tensor E) → List (Tensor E)} {chance : Chance}
  {R : GraphState E → List (Event E) → GraphState E → Prop}

theorem Composes.executeSlow (h : Composes cfg forward chance R) (inputs : List (Tensor E)) (r : Nat)
    (s : GraphState E) (outputs : List (Tensor E)) :
    let ran := executeSlow cfg forward chance inputs r s outputs
    R s ran.events ran.state := by
  unfold TritonAot.executeSlow
  split
  · rename_i hsel
    exact h.selects (selects_selectBucket hsel)
  · rename_i s' events hsel
    have hall := h.append (h.selects (selects_selectBucket hsel))
      (h.idle s' s'.metrics.eagerFallback s'.prestagedEntry s'.prestagedBucket)
    rwa [List.append_nil] at hall
  · rename_i hsel
    exact h.append (h.selects (selects_selectBucket hsel)) (h.replays ..)

theorem Composes.executeFrom (h : Composes cfg forward chance R) (inputs : List (Tensor E)) (r : Nat)
    (s : GraphState E) (outputs : List (Tensor E)) :
    let ran := executeFrom cfg forward chance inputs r s outputs
    R s ran.events ran.state := by
  unfold TritonAot.executeFrom
  split
  · exact h.append (h.idle s s.metrics none (-1)) (h.replays ..)
  · exact h.executeSlow inputs r s outputs

/-- What composes and holds of the parts holds of the call. -/
theorem Composes.executeWithCudaGraph (h : Composes cfg forward chance R) (inputs : List (Tensor E))
    (s : GraphState E) (outputs : List (Tensor E)) :
    let ran := executeWithCudaGraph cfg forward chance inputs s outputs
    R s ran.events ran.state := by
  unfold TritonAot.executeWithCudaGraph
  split
  · rename_i t0 t1 t2
    split
    · exact h.idle s s.metrics s.prestagedEntry s.prestagedBucket
    · rename_i r _
      exact h.append (h.widths t0 t1 r s) (h.executeFrom [t0, t1, t2] r _ outputs)
  · exact h.idle s s.metrics.eagerFallback s.prestagedEntry s.prestagedBucket

end Composes

theorem executeEager_frame (forward : List (Tensor E) → List (Tensor E)) (chance : Chance)
    (inputs : List (Tensor E)) (s : GraphState E) (outputs : List (Tensor E)) (events : List (Event E)) :
    (executeEager forward chance inputs s outputs events).state = s ∧
      (executeEager forward chance inputs s outputs events).events = events := by
  unfold executeEager
  split <;> exact ⟨rfl, rfl⟩

section Execute
variable {cfg : GraphConfig} {forward : List (Tensor E) → List (Tensor E)} {chance : Chance}
  {inputs outputs : List (Tensor E)} {s : GraphState E} {x : Executed E}

/-- On a CUDA device with graphs, `Execute` leaves what `ExecuteWithCudaGraph` does. -/
theorem execute_on (hon : (cfg.enabledCudaGraph && !cfg.deviceIsCpu) = true)
    (h : execute cfg forward chance inputs s outputs = .ok x) :
    x.state = (executeWithCudaGraph cfg forward chance inputs s outputs).state ∧
      x.events = (executeWithCudaGraph cfg forward chance inputs s outputs).events := by
  unfold execute at h
  rw [if_pos hon] at h
  simp only at h
  split at h
  · cases h
    exact ⟨rfl, rfl⟩
  · cases h
    exact executeEager_frame ..
  · cases h
    exact ⟨rfl, rfl⟩
  · cases h

/-- Elsewhere it only runs the model. -/
theorem execute_off (hoff : (cfg.enabledCudaGraph && !cfg.deviceIsCpu) = false)
    (h : execute cfg forward chance inputs s outputs = .ok x) : x.state = s ∧ x.events = [] := by
  unfold execute at h
  rw [hoff, if_neg Bool.false_ne_true] at h
  cases h
  exact executeEager_frame ..

/-- What `Execute` leaves of the state, and reports, is what `ExecuteWithCudaGraph` did, where it
was called. -/
theorem execute_leaves (h : execute cfg forward chance inputs s outputs = .ok x) :
    (x.state = s ∧ x.events = []) ∨
      (x.state = (executeWithCudaGraph cfg forward chance inputs s outputs).state ∧
        x.events = (executeWithCudaGraph cfg forward chance inputs s outputs).events) := by
  cases hon : cfg.enabledCudaGraph && !cfg.deviceIsCpu with
  | true => exact .inr (execute_on hon h)
  | false => exact .inl (execute_off hon h)

end Execute

end TritonAot
