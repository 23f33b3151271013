import TritonAot.Graph.Selection

/-! `ReplayCudaGraphEntry`.

The static inputs are overwritten one by one, the graph recomputes the static
outputs, and each output is sliced to the request count and appended to the
caller's vector, all in one try block; an exception anywhere in it is answered by
`false`, and what was written or appended before it stays. -/
namespace TritonAot

variable {E : Type} [Scalars E]

/-- `PadWasteRows`. -/
def padWasteRows (r bucket : Int) : Int := if bucket > r then bucket - r else 0

/-- The copies into the static inputs from index `i` on, and the static inputs
as they are when the loop ends or throws. -/
def copyInputs (fault : Nat → Option String) :
    Nat → List (Tensor E) → List (Tensor E) → Except Fault Unit × List (Tensor E)
  | _, statics, [] => (.ok (), statics)
  | _, [], _ :: _ => (.error .undefined, [])
  | i, st :: statics, src :: rest =>
    match (do raise (fault i); st.copy_ src) with
    | .error f => (.error f, st :: statics)
    | .ok st' =>
      let (result, statics') := copyInputs fault (i + 1) statics rest
      (result, st' :: statics')

/-- Without sources nothing is copied. -/
@[simp] theorem copyInputs_nil (fault : Nat → Option String) (i : Nat) (statics : List (Tensor E)) :
    copyInputs fault i statics [] = (.ok (), statics) := by
  cases statics <;> rfl

/-- One output as it is appended: itself at an exact bucket, else its first `r` rows. -/
def sliceOutput (r : Nat) (bucket : Int) (o : Tensor E) : Except Fault (Tensor E) :=
  if (r : Int) = bucket then .ok o else o.narrow 0 r

/-- The loop that appends the outputs, and the vector as it is when the loop
ends or throws. -/
def appendOutputs (fault : Nat → Option String) (r : Nat) (bucket : Int) :
    Nat → List (Tensor E) → List (Tensor E) → Except Fault Unit × List (Tensor E)
  | _, [], outputs => (.ok (), outputs)
  | i, o :: rest, outputs =>
    match (do raise (fault i); sliceOutput r bucket o) with
    | .error f => (.error f, outputs)
    | .ok o' => appendOutputs fault r bucket (i + 1) rest (outputs ++ [o'])

/-- Store an entry's tensors back under its key. -/
def GraphState.setEntry (s : GraphState E) (key : String) (entry : CudaGraphEntry E) : GraphState E :=
  {s with cudaGraphCache := s.cudaGraphCache.insert key entry}

/-- The handler of `ReplayCudaGraphEntry`: a `std::exception` is counted and
answered by `false`; anything else is not an exception. -/
def replayCaught (f : Fault) (s : GraphState E) (outputs : List (Tensor E)) (events : List (Event E)) :
    Ran E Bool :=
  match f with
  | .thrown _ => ⟨.ok false, {s with metrics := s.metrics.eagerFallback}, outputs, events⟩
  | f => ⟨.error f, s, outputs, events⟩

/-- The counters of a replay that succeeded. -/
def replayMetrics (r : Nat) (bucket : Int) (m : Metrics) : Metrics :=
  if bucket > r then (m.replay bucket).padWasteRows bucket (padWasteRows r bucket) else m.replay bucket

/-- `ReplayCudaGraphEntry` on the entry under `key`. -/
def replayCudaGraphEntry (forward : List (Tensor E) → List (Tensor E)) (chance : Chance) (key : String)
    (r : Nat) (bucket : Int) (copyFrom : Option (List (Tensor E))) (s : GraphState E)
    (outputs : List (Tensor E)) : Ran E Bool :=
  match s.cudaGraphCache.lookup key with
  | none => ⟨.error .undefined, s, outputs, []⟩
  | some e =>
    match raise chance.stream with
    | .error f => replayCaught f s outputs []
    | .ok () =>
      match copyInputs chance.copy 0 e.staticInputs (copyFrom.getD []) with
      | (.error f, statics) => replayCaught f (s.setEntry key {e with staticInputs := statics}) outputs []
      | (.ok (), statics) =>
        match raise chance.launch with
        | .error f => replayCaught f (s.setEntry key {e with staticInputs := statics}) outputs []
        | .ok () =>
          let s' := s.setEntry key ⟨statics, forward statics⟩
          let event (returned : Bool) : Event E :=
            .replay ⟨r, bucket, copyFrom, e.staticInputs, statics, returned⟩
          match appendOutputs chance.slice r bucket 0 (forward statics) outputs with
          | (.error f, outputs') => replayCaught f s' outputs' [event false]
          | (.ok (), outputs') =>
            match raise chance.restore with
            | .error f => replayCaught f s' outputs' [event false]
            | .ok () =>
              ⟨.ok true, {s' with metrics := replayMetrics r bucket s'.metrics}, outputs', [event true]⟩

/-! ### What a replay changes -/

@[simp] theorem replayCaught_outputs (f : Fault) (s : GraphState E) (outputs : List (Tensor E))
    (events : List (Event E)) : (replayCaught f s outputs events).outputs = outputs := by
  cases f <;> rfl

@[simp] theorem replayCaught_events (f : Fault) (s : GraphState E) (outputs : List (Tensor E))
    (events : List (Event E)) : (replayCaught f s outputs events).events = events := by
  cases f <;> rfl

theorem replayCaught_value_ne (f : Fault) (s : GraphState E) (outputs : List (Tensor E))
    (events : List (Event E)) : (replayCaught f s outputs events).value ≠ .ok true := by
  cases f <;> exact fun h => (by cases h)

/-- The handler counts, and leaves the state as it is otherwise. -/
theorem replayCaught_state (f : Fault) (s : GraphState E) (outputs : List (Tensor E))
    (events : List (Event E)) : ∃ m, (replayCaught f s outputs events).state = {s with metrics := m} := by
  cases f <;> exact ⟨_, rfl⟩

/-- A replay reports nothing but itself. -/
theorem replay_reports (forward : List (Tensor E) → List (Tensor E)) (chance : Chance) (key : String)
    (r : Nat) (bucket : Int) (copyFrom : Option (List (Tensor E))) (s : GraphState E)
    (outputs : List (Tensor E)) :
    let ran := replayCudaGraphEntry forward chance key r bucket copyFrom s outputs
    ran.events = [] ∨ ∃ x, ran.events = [.replay x] := by
  simp only
  unfold replayCudaGraphEntry
  split
  · exact .inl rfl
  · split
    · exact .inl (replayCaught_events ..)
    · split
      · exact .inl (replayCaught_events ..)
      · split
        · exact .inl (replayCaught_events ..)
        · right
          simp only
          split
          · exact ⟨_, replayCaught_events ..⟩
          · split
            · exact ⟨_, replayCaught_events ..⟩
            · exact ⟨_, rfl⟩

/-- A replay changes the counters and the entry it is made on, into which it copies. -/
theorem replay_leaves (forward : List (Tensor E) → List (Tensor E)) (chance : Chance) (key : String)
    (r : Nat) (bucket : Int) (copyFrom : Option (List (Tensor E))) (s : GraphState E)
    (outputs : List (Tensor E)) :
    let ran := replayCudaGraphEntry forward chance key r bucket copyFrom s outputs
    ∃ m, ran.state = {s with metrics := m} ∨
      ∃ e outs, s.cudaGraphCache.lookup key = some e ∧ ran.state = {s.setEntry key
        ⟨(copyInputs chance.copy 0 e.staticInputs (copyFrom.getD [])).2, outs⟩ with metrics := m} := by
  simp only
  unfold replayCudaGraphEntry
  split
  · exact ⟨s.metrics, .inl rfl⟩
  · rename_i e he
    split
    · obtain ⟨m, hm⟩ := replayCaught_state _ s outputs []
      exact ⟨m, .inl hm⟩
    · split
      · rename_i f statics hc
        obtain ⟨m, hm⟩ := replayCaught_state f
          (s.setEntry key {e with staticInputs := statics}) outputs []
        exact ⟨m, .inr ⟨e, e.staticOutputs, he, by rw [hm, hc]⟩⟩
      · rename_i statics hc
        split
        · rename_i f _
          obtain ⟨m, hm⟩ := replayCaught_state f
            (s.setEntry key {e with staticInputs := statics}) outputs []
          exact ⟨m, .inr ⟨e, e.staticOutputs, he, by rw [hm, hc]⟩⟩
        · simp only
          split
          · rename_i f outputs' _
            obtain ⟨m, hm⟩ := replayCaught_state f (s.setEntry key ⟨statics, forward statics⟩) outputs'
              [.replay ⟨r, bucket, copyFrom, e.staticInputs, statics, false⟩]
            exact ⟨m, .inr ⟨e, forward statics, he, by rw [hm, hc]⟩⟩
          · rename_i outputs' _
            split
            · rename_i f _
              obtain ⟨m, hm⟩ := replayCaught_state f (s.setEntry key ⟨statics, forward statics⟩) outputs'
                [.replay ⟨r, bucket, copyFrom, e.staticInputs, statics, false⟩]
              exact ⟨m, .inr ⟨e, forward statics, he, by rw [hm, hc]⟩⟩
            · exact ⟨_, .inr ⟨e, forward statics, he, by rw [hc]⟩⟩

end TritonAot
