import TritonAot.Graph.Attempt

/-! What `Execute` leaves in the output vector.

Outputs are appended one by one inside the try block whose handler gives the
replay up, and the eager run appends behind them. So the vector is the graph's
outputs or the eager run's, whole, unless an output was appended before the
failure. -/
namespace TritonAot

variable {E : Type} [Scalars E]

/-- The replay that `Execute` comes to, if any. -/
def executeAttempt (cfg : GraphConfig) (forward : List (Tensor E) → List (Tensor E)) (chance : Chance)
    (inputs : List (Tensor E)) (s : GraphState E) : Option (Attempt E) :=
  if cfg.enabledCudaGraph && !cfg.deviceIsCpu then attempted cfg forward chance inputs s else none

/-- The graph's outputs if the replay succeeded, the eager run's if it was given up
and that succeeded, nothing if an error was sent; and a replay that is given up
leaves nothing. -/
structure AllOrNothing (cfg : GraphConfig) (forward : List (Tensor E) → List (Tensor E)) (chance : Chance)
    (inputs : List (Tensor E)) (s : GraphState E) (x : Executed E) : Prop where
  graph : ∀ a, executeAttempt cfg forward chance inputs s = some a →
    (a.replay forward chance []).value = .ok true →
      ∃ e statics, Launched chance a e statics ∧
        List.Forall₂ (fun o o' => sliceOutput a.r a.bucket o = .ok o') (forward statics) x.outputs
  eager : (∀ a, executeAttempt cfg forward chance inputs s = some a →
    (a.replay forward chance []).value ≠ .ok true) → x.failure = none → x.outputs = forward inputs
  failed : x.failure ≠ none → x.outputs = []
  givenUp : ∀ a, executeAttempt cfg forward chance inputs s = some a →
    (a.replay forward chance []).value = .ok false → (a.replay forward chance []).outputs = []

/-- The graph is launched, its first output is appended, and then another output, or
the restoring of the stream, fails. -/
def AppendsThenFails (forward : List (Tensor E) → List (Tensor E)) (chance : Chance) (a : Attempt E) : Prop :=
  ∃ e statics, Launched chance a e statics ∧
    (∃ o ∈ (forward statics).head?, Slices chance a.r a.bucket 0 o) ∧
    ¬ (SlicesAll chance a.r a.bucket 0 (forward statics) ∧ chance.restore = none)

theorem executeEager_cases (forward : List (Tensor E) → List (Tensor E)) (chance : Chance)
    (inputs : List (Tensor E)) (s : GraphState E) (outputs : List (Tensor E)) (events : List (Event E)) :
    let x := executeEager forward chance inputs s outputs events
    (x.failure = none ∧ x.outputs = outputs ++ forward inputs) ∨ (x.failure ≠ none ∧ x.outputs = outputs) := by
  unfold executeEager
  split
  · exact .inr ⟨nofun, rfl⟩
  · exact .inl ⟨rfl, rfl⟩

/-- A call that comes to no replay ends in the eager run, or in an exception before it. -/
theorem execute_unattempted {cfg : GraphConfig} {forward : List (Tensor E) → List (Tensor E)}
    {chance : Chance} {inputs : List (Tensor E)} {s : GraphState E} {outputs : List (Tensor E)}
    {x : Executed E} (h : execute cfg forward chance inputs s outputs = .ok x)
    (ha : executeAttempt cfg forward chance inputs s = none) :
    (x.failure = none ∧ x.outputs = outputs ++ forward inputs) ∨ (x.failure ≠ none ∧ x.outputs = outputs) := by
  unfold execute at h
  unfold executeAttempt at ha
  split at h
  · rw [if_pos ‹_›] at ha
    obtain ⟨hvalue, houtputs, _⟩ := executeWithCudaGraph_none ha outputs
    simp only at h
    split at h
    · exact absurd ‹_› hvalue
    · cases h
      rw [houtputs]
      exact executeEager_cases ..
    · cases h
      exact .inr ⟨nofun, houtputs⟩
    · cases h
  · cases h
    exact executeEager_cases ..

/-- A call that comes to a replay returns its outputs if it succeeds, and goes on
behind what it left if it is given up. -/
theorem execute_attempted {cfg : GraphConfig} {forward : List (Tensor E) → List (Tensor E)}
    {chance : Chance} {inputs : List (Tensor E)} {s : GraphState E} {outputs : List (Tensor E)}
    {x : Executed E} {a : Attempt E} (h : execute cfg forward chance inputs s outputs = .ok x)
    (ha : executeAttempt cfg forward chance inputs s = some a) :
    let ran := a.replay forward chance outputs
    (ran.value = .ok true → x.failure = none ∧ x.outputs = ran.outputs) ∧
      (ran.value ≠ .ok true → (x.failure = none ∧ x.outputs = ran.outputs ++ forward inputs) ∨
        (x.failure ≠ none ∧ x.outputs = ran.outputs)) := by
  unfold execute at h
  unfold executeAttempt at ha
  split at h
  · rw [if_pos ‹_›] at ha
    obtain ⟨before, _, hcall⟩ := executeWithCudaGraph_some ha outputs
    simp only [hcall] at h
    split at h
    · rename_i hvalue
      cases h
      exact ⟨fun _ => ⟨rfl, rfl⟩, fun hno => absurd hvalue hno⟩
    · rename_i hvalue
      cases h
      refine ⟨fun hyes => ?_, fun _ => executeEager_cases ..⟩
      rw [hvalue] at hyes
      cases hyes
    · rename_i hvalue
      cases h
      refine ⟨fun hyes => ?_, fun _ => .inr ⟨nofun, rfl⟩⟩
      rw [hvalue] at hyes
      cases hyes
    · cases h
  · rw [if_neg ‹_›] at ha
    cases ha

/-- What a replay leaves in an empty vector when it is not cut off behind its first output. -/
theorem replay_whole {forward : List (Tensor E) → List (Tensor E)} {chance : Chance} {a : Attempt E}
    (h : ¬ AppendsThenFails forward chance a) :
    ((a.replay forward chance []).value = .ok true → ∃ e statics, Launched chance a e statics ∧
      List.Forall₂ (fun o o' => sliceOutput a.r a.bucket o = .ok o') (forward statics)
        (a.replay forward chance []).outputs) ∧
      ((a.replay forward chance []).value ≠ .ok true → (a.replay forward chance []).outputs = []) := by
  by_cases hl : ∃ e statics, Launched chance a e statics
  · obtain ⟨e, statics, hl⟩ := hl
    by_cases hall : SlicesAll chance a.r a.bucket 0 (forward statics) ∧ chance.restore = none
    · obtain ⟨hvalue, _, sliced, hsliced, houtputs⟩ := hl.replay_all hall.1 hall.2 []
      rw [List.nil_append] at houtputs
      exact ⟨fun _ => ⟨e, statics, hl, houtputs ▸ hsliced⟩, fun hno => absurd hvalue hno⟩
    · obtain ⟨hvalue, _, pre, houtputs, hpre⟩ := hl.replay_not_all hall []
      rw [hvalue, houtputs, List.nil_append]
      exact ⟨nofun, fun _ => hpre.mpr fun o ho hs => h ⟨e, statics, hl, ⟨o, ho, hs⟩, hall⟩⟩
  · obtain ⟨hvalue, houtputs, _⟩ :=
      replay_not_launched forward (fun e statics hl' => hl ⟨e, statics, hl'⟩) []
    exact ⟨fun hyes => absurd hyes hvalue, fun _ => houtputs⟩

/-- **The output vector is all or nothing exactly when no replay is cut off behind
an output it appended.** -/
theorem execute_allOrNothing_iff {cfg : GraphConfig} {forward : List (Tensor E) → List (Tensor E)}
    {chance : Chance} {inputs : List (Tensor E)} {s : GraphState E} {x : Executed E}
    (h : execute cfg forward chance inputs s [] = .ok x) :
    AllOrNothing cfg forward chance inputs s x ↔
      ∀ a, executeAttempt cfg forward chance inputs s = some a → ¬ AppendsThenFails forward chance a := by
  constructor
  · intro hall a ha hcut
    obtain ⟨e, statics, hl, ⟨o, ho, hs⟩, hnot⟩ := hcut
    obtain ⟨hvalue, _, pre, houtputs, hpre⟩ := hl.replay_not_all hnot []
    have hnil := hall.givenUp a ha hvalue
    rw [houtputs, List.nil_append] at hnil
    exact hpre.mp hnil o ho hs
  · intro hwhole
    cases ha : executeAttempt cfg forward chance inputs s with
    | none =>
      have hend := execute_unattempted h ha
      rw [List.nil_append] at hend
      refine ⟨fun a h' => ?_, fun _ hok => ?_, fun hno => ?_, fun a h' => ?_⟩
      · rw [ha] at h'
        cases h'
      · exact hend.elim And.right fun hf => absurd hok hf.1
      · exact hend.elim (fun hok => absurd hok.1 hno) And.right
      · rw [ha] at h'
        cases h'
    | some a =>
      obtain ⟨hgraph, hempty⟩ := replay_whole (hwhole a ha)
      obtain ⟨hyes, hno⟩ := execute_attempted h ha
      refine ⟨fun a' h' hvalue => ?_, fun hnot hok => ?_, fun hf => ?_, fun a' h' hvalue => ?_⟩
      · rw [ha] at h'
        cases h'
        rw [(hyes hvalue).2]
        exact hgraph hvalue
      · have hvalue := hnot a ha
        rcases hno hvalue with ⟨_, hx⟩ | ⟨hfail, _⟩
        · rw [hx, hempty hvalue, List.nil_append]
        · exact absurd hok hfail
      · by_cases hvalue : (a.replay forward chance []).value = .ok true
        · exact absurd (hyes hvalue).1 hf
        · rcases hno hvalue with ⟨hok, _⟩ | ⟨_, hx⟩
          · exact absurd hok hf
          · rw [hx, hempty hvalue]
      · rw [ha] at h'
        cases h'
        exact hempty (by rw [hvalue]; nofun)

/-- A batch of two requests, one element each. -/
def twoRequests : List (Tensor Int) :=
  [.zeros .float .cuda [2, 1], .zeros .float .cuda [2], .positions .long .cuda 1 2]

/-- Scores for each request, and one figure for the whole batch. -/
def scoresAndTotal (inputs : List (Tensor Int)) : List (Tensor Int) :=
  inputs.take 1 ++ [.zeros .float .cuda [1]]

theorem execute_allOrNothing_exact :
    ∃ x, execute (graphsAt (oneBucket 2)) scoresAndTotal .smooth twoRequests (.fresh Int) [] = .ok x ∧
      AllOrNothing (graphsAt (oneBucket 2)) scoresAndTotal .smooth twoRequests (.fresh Int) x :=
  ⟨_, rfl, (execute_allOrNothing_iff rfl).mpr (by
    intro a ha hparts
    obtain ⟨e, statics, _, _, hnot⟩ := hparts
    cases ha
    exact hnot ⟨fun j o _ => ⟨rfl, o, rfl⟩, rfl⟩)⟩

/-- Padded to four, the scores are appended, the figure has no second row, and the
eager outputs follow: three tensors in place of two. -/
theorem execute_not_allOrNothing :
    ¬ ∀ (cfg : GraphConfig) (forward : List (Tensor Int) → List (Tensor Int)) (chance : Chance)
      (inputs : List (Tensor Int)) (s : GraphState Int) (x : Executed Int),
      execute cfg forward chance inputs s [] = .ok x → AllOrNothing cfg forward chance inputs s x := by
  intro h
  have hall := h (graphsAt (oneBucket 4)) scoresAndTotal .smooth twoRequests (.fresh Int) _ rfl
  have houtputs := hall.eager (by rintro a ha; cases ha; exact nofun) rfl
  have hlength := congrArg List.length houtputs
  cases hlength

end TritonAot
