import TritonAot.Graph.Execute

/-! The replay that a call attempts.

`ExecuteWithCudaGraph` ends in at most one call of `ReplayCudaGraphEntry`;
`attempted` says which, and `executeWithCudaGraph_some` that the call returns
what that replay returns. A replay that gets past its copies is `Launched`; what
it appends is then decided by its outputs alone. -/
namespace TritonAot

variable {E : Type} [Scalars E]

/-- The arguments of a call of `ReplayCudaGraphEntry`, and the state it is made in. -/
structure Attempt (E : Type) [Scalars E] where
  key : String
  r : Nat
  bucket : Int
  copyFrom : Option (List (Tensor E))
  state : GraphState E

def Attempt.replay (forward : List (Tensor E) → List (Tensor E)) (chance : Chance) (a : Attempt E)
    (outputs : List (Tensor E)) : Ran E Bool :=
  replayCudaGraphEntry forward chance a.key a.r a.bucket a.copyFrom a.state outputs

/-- The replay attempted from the fast path on. -/
def attemptedFrom (cfg : GraphConfig) (forward : List (Tensor E) → List (Tensor E)) (chance : Chance)
    (inputs : List (Tensor E)) (r : Nat) (s : GraphState E) : Option (Attempt E) :=
  match s.prestagedEntry with
  | some key =>
    some ⟨key, r, s.prestagedBucket, none, {s with prestagedEntry := none, prestagedBucket := -1}⟩
  | none =>
    match selectBucket cfg.cudaGraphBatchSizes forward chance.capture (padRequestsUp chance.alloc inputs r) inputs r s with
    | (.ok (some selected), s', _) =>
      some ⟨bucketKey selected.bucket, r, selected.bucket, some selected.inputsAtBucket, s'⟩
    | _ => none

/-- The replay `ExecuteWithCudaGraph` attempts, if it comes to one. -/
def attempted (cfg : GraphConfig) (forward : List (Tensor E) → List (Tensor E)) (chance : Chance)
    (inputs : List (Tensor E)) (s : GraphState E) : Option (Attempt E) :=
  match inputs with
  | [t0, t1, t2] =>
    match requestCount t0 t1 t2 with
    | .error _ => none
    | .ok r => attemptedFrom cfg forward chance inputs r (checkWarmupWidths cfg t0 t1 r s).1
  | _ => none

/-- A replay is attempted on three tensors, for the smallest leading dimension. -/
theorem attempted_inputs {cfg : GraphConfig} {forward : List (Tensor E) → List (Tensor E)}
    {chance : Chance} {inputs : List (Tensor E)} {s : GraphState E} {a : Attempt E}
    (h : attempted cfg forward chance inputs s = some a) :
    ∃ t0 t1 t2, inputs = [t0, t1, t2] ∧ requestCount t0 t1 t2 = .ok a.r := by
  unfold attempted at h
  split at h
  · rename_i t0 t1 t2
    split at h
    · cases h
    · rename_i r hr
      unfold attemptedFrom at h
      split at h
      · cases h
        exact ⟨t0, t1, t2, rfl, hr⟩
      · split at h
        · cases h
          exact ⟨t0, t1, t2, rfl, hr⟩
        · cases h
  · cases h

/-- An event is a launch of the graph. -/
def Event.IsReplay : Event E → Prop
  | .replay _ => True
  | _ => False

/-- The selection launches nothing. -/
theorem Selects.no_replay {forward : List (Tensor E) → List (Tensor E)} {capture : Int → Bool}
    {pad : Int → Except Fault (List (Tensor E))} {inputs : List (Tensor E)} {r : Int} {cands : List Int}
    {s s' : GraphState E} {value : Except Fault (Option (Selected E))} {events : List (Event E)}
    (h : Selects forward capture pad inputs r cands s value s' events) :
    ∀ event ∈ events, ¬ event.IsReplay := by
  induction h with
  | exhausted | fault | cached => exact fun _ he => absurd he List.not_mem_nil
  | failed _ _ ih => exact ih
  | captured =>
    intro event he
    rw [List.mem_singleton.mp he]
    exact id
  | missed _ _ _ _ _ ih =>
    intro event he
    rcases List.mem_cons.mp he with rfl | he
    · exact id
    · exact ih event he

theorem checkWarmupWidths_no_replay (cfg : GraphConfig) (t0 t1 : Tensor E) (r : Nat) (s : GraphState E) :
    ∀ event ∈ (checkWarmupWidths cfg t0 t1 r s).2, ¬ event.IsReplay := by
  intro event he
  rcases checkWarmupWidths_cases cfg t0 t1 r s with ⟨_, h⟩ | h
  · rw [h] at he
    rw [List.mem_singleton.mp he]
    exact id
  · rw [h] at he
    cases he

/-- A call that comes to a replay returns what the replay returns. -/
theorem executeFrom_some {cfg : GraphConfig} {forward : List (Tensor E) → List (Tensor E)}
    {chance : Chance} {inputs : List (Tensor E)} {r : Nat} {s : GraphState E} {a : Attempt E}
    (h : attemptedFrom cfg forward chance inputs r s = some a) (outputs : List (Tensor E)) :
    ∃ before : List (Event E), (∀ event ∈ before, ¬ event.IsReplay) ∧
      executeFrom cfg forward chance inputs r s outputs =
        {a.replay forward chance outputs with events := before ++ (a.replay forward chance outputs).events} := by
  unfold attemptedFrom at h
  unfold executeFrom
  cases hp : s.prestagedEntry with
  | some key =>
    rw [hp] at h
    cases h
    exact ⟨[], fun _ he => absurd he List.not_mem_nil, rfl⟩
  | none =>
    simp only [hp] at h
    simp only [executeSlow]
    split at h
    · rename_i selected s' events hsel
      rw [hsel]
      cases h
      exact ⟨events, (selects_selectBucket hsel).no_replay, rfl⟩
    · cases h

theorem executeFrom_none {cfg : GraphConfig} {forward : List (Tensor E) → List (Tensor E)}
    {chance : Chance} {inputs : List (Tensor E)} {r : Nat} {s : GraphState E}
    (h : attemptedFrom cfg forward chance inputs r s = none) (outputs : List (Tensor E)) :
    (executeFrom cfg forward chance inputs r s outputs).value ≠ .ok true ∧
      (executeFrom cfg forward chance inputs r s outputs).outputs = outputs ∧
      ∀ event ∈ (executeFrom cfg forward chance inputs r s outputs).events, ¬ event.IsReplay := by
  unfold attemptedFrom at h
  unfold executeFrom
  cases hp : s.prestagedEntry with
  | some key =>
    rw [hp] at h
    cases h
  | none =>
    rw [hp] at h
    simp only [executeSlow]
    split
    · rename_i hsel
      exact ⟨nofun, rfl, (selects_selectBucket hsel).no_replay⟩
    · rename_i hsel
      exact ⟨nofun, rfl, (selects_selectBucket hsel).no_replay⟩
    · rename_i hsel
      rw [hsel] at h
      cases h

/-- Any other number of tensors than three runs eagerly. -/
theorem executeWithCudaGraph_arity (cfg : GraphConfig) (forward : List (Tensor E) → List (Tensor E))
    (chance : Chance) (inputs : List (Tensor E)) (s : GraphState E) (outputs : List (Tensor E)) :
    (∃ t0 t1 t2, inputs = [t0, t1, t2]) ∨
      executeWithCudaGraph cfg forward chance inputs s outputs = eagerFallback s outputs [] := by
  match inputs with
  | [t0, t1, t2] => exact .inl ⟨t0, t1, t2, rfl⟩
  | [] | [_] | [_, _] | _ :: _ :: _ :: _ :: _ => exact .inr rfl

/-- **A call returns what the replay it comes to returns.** -/
theorem executeWithCudaGraph_some {cfg : GraphConfig} {forward : List (Tensor E) → List (Tensor E)}
    {chance : Chance} {inputs : List (Tensor E)} {s : GraphState E} {a : Attempt E}
    (h : attempted cfg forward chance inputs s = some a) (outputs : List (Tensor E)) :
    ∃ before : List (Event E), (∀ event ∈ before, ¬ event.IsReplay) ∧
      executeWithCudaGraph cfg forward chance inputs s outputs =
        {a.replay forward chance outputs with events := before ++ (a.replay forward chance outputs).events} := by
  unfold attempted at h
  unfold executeWithCudaGraph
  split at h
  · rename_i t0 t1 t2
    simp only
    generalize requestCount t0 t1 t2 = count at h ⊢
    cases count with
    | error f => cases h
    | ok r =>
      obtain ⟨before, hno, hexec⟩ := executeFrom_some h outputs
      refine ⟨(checkWarmupWidths cfg t0 t1 r s).2 ++ before, ?_, ?_⟩
      · intro event he
        rcases List.mem_append.mp he with he | he
        · exact checkWarmupWidths_no_replay cfg t0 t1 r s event he
        · exact hno event he
      · simp only [hexec, List.append_assoc]
  · cases h

/-- A call that comes to no replay appends and launches nothing. -/
theorem executeWithCudaGraph_none {cfg : GraphConfig} {forward : List (Tensor E) → List (Tensor E)}
    {chance : Chance} {inputs : List (Tensor E)} {s : GraphState E}
    (h : attempted cfg forward chance inputs s = none) (outputs : List (Tensor E)) :
    (executeWithCudaGraph cfg forward chance inputs s outputs).value ≠ .ok true ∧
      (executeWithCudaGraph cfg forward chance inputs s outputs).outputs = outputs ∧
      ∀ event ∈ (executeWithCudaGraph cfg forward chance inputs s outputs).events, ¬ event.IsReplay := by
  rcases executeWithCudaGraph_arity cfg forward chance inputs s outputs with ⟨t0, t1, t2, rfl⟩ | hother
  · unfold attempted at h
    unfold executeWithCudaGraph
    cases hr : requestCount t0 t1 t2 with
    | error f =>
      simp only [hr]
      exact ⟨nofun, trivial, fun _ he => absurd he List.not_mem_nil⟩
    | ok r =>
      simp only [hr] at h ⊢
      obtain ⟨hvalue, houtputs, hno⟩ := executeFrom_none h outputs
      refine ⟨hvalue, houtputs, fun event he => ?_⟩
      rcases List.mem_append.mp he with he | he
      · exact checkWarmupWidths_no_replay cfg t0 t1 r s event he
      · exact hno event he
  · rw [hother]
    exact ⟨nofun, rfl, fun _ he => absurd he List.not_mem_nil⟩

/-! ### A launched replay -/

/-- The replay gets past its copies: the static inputs of the entry `e` are then `statics`. -/
structure Launched (chance : Chance) (a : Attempt E) (e : CudaGraphEntry E) (statics : List (Tensor E)) :
    Prop where
  entry : a.state.cudaGraphCache.lookup a.key = some e
  stream : chance.stream = none
  copied : copyInputs chance.copy 0 e.staticInputs (a.copyFrom.getD []) = (.ok (), statics)
  launch : chance.launch = none

/-- The output at one index can be appended. -/
def Slices (chance : Chance) (r : Nat) (bucket : Int) (i : Nat) (o : Tensor E) : Prop :=
  chance.slice i = none ∧ ∃ o', sliceOutput r bucket o = .ok o'

/-- Every output from index `i` on can be appended. -/
def SlicesAll (chance : Chance) (r : Nat) (bucket : Int) (i : Nat) (outs : List (Tensor E)) : Prop :=
  ∀ j o, outs[j]? = some o → Slices chance r bucket (i + j) o

theorem slicesAll_cons {chance : Chance} {r : Nat} {bucket : Int} {i : Nat} {o : Tensor E}
    {rest : List (Tensor E)} : SlicesAll chance r bucket i (o :: rest) ↔
      Slices chance r bucket i o ∧ SlicesAll chance r bucket (i + 1) rest := by
  have hshift : ∀ j, i + 1 + j = i + (j + 1) := fun j => by omega
  constructor
  · exact fun h => ⟨h 0 o rfl, fun j o' hj => hshift j ▸ h (j + 1) o' hj⟩
  · rintro ⟨hfirst, hrest⟩ j o' hj
    cases j with
    | zero => cases hj; exact hfirst
    | succ j => exact hshift j ▸ hrest j o' hj

theorem sliceOutput_thrown {r : Nat} {bucket : Int} {o : Tensor E} {f : Fault}
    (h : sliceOutput r bucket o = .error f) : ∃ what, f = .thrown what := by
  unfold sliceOutput at h
  split at h
  · cases h
  · unfold Tensor.narrow at h
    split at h
    · cases h
      exact ⟨_, rfl⟩
    · split at h
      · cases h
      · cases h
        exact ⟨_, rfl⟩

/-- Appending one output either succeeds or throws. -/
theorem appendOne_cases (chance : Chance) (r : Nat) (bucket : Int) (i : Nat) (o : Tensor E) :
    (Slices chance r bucket i o ∧ ∃ o', sliceOutput r bucket o = .ok o' ∧
        (do raise (chance.slice i); sliceOutput r bucket o) = .ok o') ∨
      (¬ Slices chance r bucket i o ∧
        ∃ what, (do raise (chance.slice i); sliceOutput r bucket o) = .error (.thrown what)) := by
  cases hs : chance.slice i with
  | some what => exact .inr ⟨fun h => (by rw [h.1] at hs; cases hs), what, rfl⟩
  | none =>
    cases ho : sliceOutput r bucket o with
    | ok o' => exact .inl ⟨⟨hs, o', ho⟩, o', rfl, rfl⟩
    | error f =>
      obtain ⟨what, rfl⟩ := sliceOutput_thrown ho
      exact .inr ⟨fun h => (by obtain ⟨_, o', h'⟩ := h; rw [ho] at h'; cases h'), what, rfl⟩

theorem appendOutputs_all {chance : Chance} {r : Nat} {bucket : Int} {i : Nat} {outs : List (Tensor E)}
    (h : SlicesAll chance r bucket i outs) (acc : List (Tensor E)) :
    ∃ sliced, List.Forall₂ (fun o o' => sliceOutput r bucket o = .ok o') outs sliced ∧
      appendOutputs chance.slice r bucket i outs acc = (.ok (), acc ++ sliced) := by
  induction outs generalizing i acc with
  | nil => exact ⟨[], .nil, by rw [appendOutputs, List.append_nil]⟩
  | cons o rest ih =>
    obtain ⟨hfirst, hrest⟩ := slicesAll_cons.mp h
    rcases appendOne_cases chance r bucket i o with ⟨_, o', ho, hone⟩ | ⟨hno, _⟩
    · obtain ⟨sliced, hs, happ⟩ := ih hrest (acc ++ [o'])
      refine ⟨o' :: sliced, .cons ho hs, ?_⟩
      rw [appendOutputs, hone]
      simp only
      rw [happ, List.append_assoc, List.singleton_append]
    · exact absurd hfirst hno

/-- A failure leaves what was appended before it: nothing exactly where the first
output fails. -/
theorem appendOutputs_not_all {chance : Chance} {r : Nat} {bucket : Int} {i : Nat}
    {outs : List (Tensor E)} (h : ¬ SlicesAll chance r bucket i outs) (acc : List (Tensor E)) :
    ∃ what pre, appendOutputs chance.slice r bucket i outs acc = (.error (.thrown what), acc ++ pre) ∧
      (pre = [] ↔ ∀ o ∈ outs.head?, ¬ Slices chance r bucket i o) := by
  induction outs generalizing i acc with
  | nil => exact absurd (fun j o hj => by simp at hj) h
  | cons o rest ih =>
    rw [appendOutputs]
    rcases appendOne_cases chance r bucket i o with ⟨hyes, o', _, hone⟩ | ⟨hno, what, hone⟩
    · obtain ⟨what, pre, happ, _⟩ := ih (fun hrest => h (slicesAll_cons.mpr ⟨hyes, hrest⟩)) (acc ++ [o'])
      rw [hone]
      refine ⟨what, o' :: pre, ?_, ?_⟩
      · simp only
        rw [happ, List.append_assoc, List.singleton_append]
      · refine ⟨nofun, fun hfirst => absurd hyes (hfirst o rfl)⟩
    · rw [hone]
      refine ⟨what, [], by rw [List.append_nil], fun _ => ?_, fun _ => rfl⟩
      intro o' ho'
      cases ho'
      exact hno

/-- The event of a launched replay. -/
def Attempt.launch (a : Attempt E) (e : CudaGraphEntry E) (statics : List (Tensor E))
    (returned : Bool) : Event E :=
  .replay ⟨a.r, a.bucket, a.copyFrom, e.staticInputs, statics, returned⟩

/-- A replay that is not launched is no success and appends nothing. -/
theorem replay_not_launched (forward : List (Tensor E) → List (Tensor E)) {chance : Chance}
    {a : Attempt E} (h : ∀ e statics, ¬ Launched chance a e statics) (outputs : List (Tensor E)) :
    (a.replay forward chance outputs).value ≠ .ok true ∧
      (a.replay forward chance outputs).outputs = outputs ∧ (a.replay forward chance outputs).events = [] := by
  have hcaught : ∀ (f : Fault) (t : GraphState E), (replayCaught f t outputs []).value ≠ .ok true ∧
      (replayCaught f t outputs []).outputs = outputs ∧ (replayCaught f t outputs []).events = [] :=
    fun f t => ⟨replayCaught_value_ne f t outputs [], replayCaught_outputs .., replayCaught_events ..⟩
  unfold Attempt.replay replayCudaGraphEntry
  cases he : a.state.cudaGraphCache.lookup a.key with
  | none => exact ⟨nofun, rfl, rfl⟩
  | some e =>
    cases hs : chance.stream with
    | some what => exact hcaught _ _
    | none =>
      simp only [raise]
      cases hc : copyInputs chance.copy 0 e.staticInputs (a.copyFrom.getD []) with
      | mk result statics =>
        cases result with
        | error f => exact hcaught _ _
        | ok done =>
          cases hl : chance.launch with
          | some what => exact hcaught _ _
          | none => exact absurd ⟨he, hs, hc, hl⟩ (h e statics)

/-- A launched replay all of whose outputs can be appended, and whose stream can be
restored, appends them and succeeds. -/
theorem Launched.replay_all {forward : List (Tensor E) → List (Tensor E)} {chance : Chance}
    {a : Attempt E} {e : CudaGraphEntry E} {statics : List (Tensor E)} (h : Launched chance a e statics)
    (hall : SlicesAll chance a.r a.bucket 0 (forward statics)) (hrestore : chance.restore = none)
    (outputs : List (Tensor E)) :
    (a.replay forward chance outputs).value = .ok true ∧
      (a.replay forward chance outputs).events = [a.launch e statics true] ∧
      ∃ sliced, List.Forall₂ (fun o o' => sliceOutput a.r a.bucket o = .ok o') (forward statics) sliced ∧
        (a.replay forward chance outputs).outputs = outputs ++ sliced := by
  obtain ⟨sliced, hsliced, happ⟩ := appendOutputs_all hall outputs
  unfold Attempt.replay replayCudaGraphEntry
  rw [h.entry]
  simp only [h.stream, h.copied, h.launch, raise, happ, hrestore]
  exact ⟨trivial, rfl, sliced, hsliced, rfl⟩

/-- A launched replay that cannot append every output, or restore the stream, is
given up; what it appended before stays, and that is nothing exactly where the
first output cannot be appended. -/
theorem Launched.replay_not_all {forward : List (Tensor E) → List (Tensor E)} {chance : Chance}
    {a : Attempt E} {e : CudaGraphEntry E} {statics : List (Tensor E)} (h : Launched chance a e statics)
    (hnot : ¬ (SlicesAll chance a.r a.bucket 0 (forward statics) ∧ chance.restore = none))
    (outputs : List (Tensor E)) :
    (a.replay forward chance outputs).value = .ok false ∧
      (a.replay forward chance outputs).events = [a.launch e statics false] ∧
      ∃ pre, (a.replay forward chance outputs).outputs = outputs ++ pre ∧
        (pre = [] ↔ ∀ o ∈ (forward statics).head?, ¬ Slices chance a.r a.bucket 0 o) := by
  unfold Attempt.replay replayCudaGraphEntry
  rw [h.entry]
  by_cases hall : SlicesAll chance a.r a.bucket 0 (forward statics)
  · obtain ⟨sliced, hsliced, happ⟩ := appendOutputs_all hall outputs
    obtain ⟨what, hrestore⟩ := Option.ne_none_iff_exists'.mp fun hr => hnot ⟨hall, hr⟩
    simp only [h.stream, h.copied, h.launch, raise, happ, hrestore]
    refine ⟨rfl, rfl, sliced, rfl, ?_⟩
    cases hf : forward statics with
    | nil =>
      rw [hf] at hsliced
      cases hsliced
      exact ⟨fun _ o ho => (by cases ho), fun _ => rfl⟩
    | cons o rest =>
      rw [hf] at hsliced hall
      cases hsliced
      exact ⟨nofun, fun hno => absurd (slicesAll_cons.mp hall).1 (hno o rfl)⟩
  · obtain ⟨what, pre, happ, hpre⟩ := appendOutputs_not_all hall outputs
    simp only [h.stream, h.copied, h.launch, raise, happ]
    exact ⟨rfl, rfl, pre, rfl, hpre⟩

/-- A replay that returns true was launched, and appended every output. -/
theorem replay_true {forward : List (Tensor E) → List (Tensor E)} {chance : Chance} {a : Attempt E}
    {outputs : List (Tensor E)} (h : (a.replay forward chance outputs).value = .ok true) :
    ∃ e statics sliced, Launched chance a e statics ∧
      List.Forall₂ (fun o o' => sliceOutput a.r a.bucket o = .ok o') (forward statics) sliced ∧
      (a.replay forward chance outputs).outputs = outputs ++ sliced ∧
      (a.replay forward chance outputs).events = [a.launch e statics true] := by
  by_cases hl : ∃ e statics, Launched chance a e statics
  · obtain ⟨e, statics, hl⟩ := hl
    by_cases hall : SlicesAll chance a.r a.bucket 0 (forward statics) ∧ chance.restore = none
    · obtain ⟨_, hevents, sliced, hsliced, houtputs⟩ := hl.replay_all hall.1 hall.2 outputs
      exact ⟨e, statics, sliced, hl, hsliced, houtputs, hevents⟩
    · rw [(hl.replay_not_all hall outputs).1] at h
      cases h
  · exact absurd h (replay_not_launched forward (fun e statics hl' => hl ⟨e, statics, hl'⟩) outputs).1

/-- The events of a replay: its launch, if it came to that. -/
theorem replay_events {forward : List (Tensor E) → List (Tensor E)} {chance : Chance} {a : Attempt E}
    {outputs : List (Tensor E)} {x : Replay E} (h : .replay x ∈ (a.replay forward chance outputs).events) :
    ∃ e statics, Launched chance a e statics ∧ x.r = a.r ∧ x.bucket = a.bucket ∧ x.copyFrom = a.copyFrom ∧
      x.before = e.staticInputs ∧ x.statics = statics := by
  by_cases hl : ∃ e statics, Launched chance a e statics
  · obtain ⟨e, statics, hl⟩ := hl
    have hx : ∃ returned, Event.replay x = a.launch e statics returned := by
      by_cases hall : SlicesAll chance a.r a.bucket 0 (forward statics) ∧ chance.restore = none
      · rw [(hl.replay_all hall.1 hall.2 outputs).2.1] at h
        exact ⟨true, List.mem_singleton.mp h⟩
      · rw [(hl.replay_not_all hall outputs).2.1] at h
        exact ⟨false, List.mem_singleton.mp h⟩
    obtain ⟨returned, hx⟩ := hx
    cases hx
    exact ⟨e, statics, hl, rfl, rfl, rfl, rfl, rfl⟩
  · rw [(replay_not_launched forward (fun e statics hl' => hl ⟨e, statics, hl'⟩) outputs).2.2] at h
    cases h

/-- What a call launches is the replay it comes to. -/
theorem executeWithCudaGraph_replay {cfg : GraphConfig} {forward : List (Tensor E) → List (Tensor E)}
    {chance : Chance} {inputs : List (Tensor E)} {s : GraphState E} {outputs : List (Tensor E)} {x : Replay E}
    (hx : .replay x ∈ (executeWithCudaGraph cfg forward chance inputs s outputs).events) :
    ∃ a e, attempted cfg forward chance inputs s = some a ∧ Launched chance a e x.statics ∧ x.r = a.r ∧
      x.bucket = a.bucket ∧ x.copyFrom = a.copyFrom ∧ x.before = e.staticInputs := by
  cases ha : attempted cfg forward chance inputs s with
  | none => exact absurd trivial ((executeWithCudaGraph_none ha outputs).2.2 _ hx)
  | some a =>
    obtain ⟨before, hno, hcall⟩ := executeWithCudaGraph_some ha outputs
    rw [hcall] at hx
    rcases List.mem_append.mp hx with hb | hb
    · exact absurd trivial (hno _ hb)
    · obtain ⟨e, statics, hl, hr, hbucket, hcopy, hbefore, hstatics⟩ := replay_events hb
      exact ⟨a, e, rfl, hstatics ▸ hl, hr, hbucket, hcopy, hbefore⟩

/-- What `Execute` launches is the replay it comes to. -/
theorem execute_replay {cfg : GraphConfig} {forward : List (Tensor E) → List (Tensor E)}
    {chance : Chance} {inputs : List (Tensor E)} {s : GraphState E} {executed : Executed E} {x : Replay E}
    (h : execute cfg forward chance inputs s [] = .ok executed) (hx : .replay x ∈ executed.events) :
    ∃ a e, attempted cfg forward chance inputs s = some a ∧ Launched chance a e x.statics ∧ x.r = a.r ∧
      x.bucket = a.bucket ∧ x.copyFrom = a.copyFrom ∧ x.before = e.staticInputs := by
  rcases execute_leaves h with ⟨_, hevents⟩ | ⟨_, hevents⟩
  · rw [hevents] at hx
    cases hx
  · rw [hevents] at hx
    exact executeWithCudaGraph_replay hx

/-! ### The arguments of a replay that is not prestaged -/

/-- The bucket a batch is replayed at is a candidate, and what is copied is the batch
at it. -/
theorem Selects.selected {forward : List (Tensor E) → List (Tensor E)} {capture : Int → Bool}
    {pad : Int → Except Fault (List (Tensor E))} {inputs : List (Tensor E)} {r : Int} {cands : List Int}
    {s s' : GraphState E} {value : Except Fault (Option (Selected E))} {events : List (Event E)}
    (h : Selects forward capture pad inputs r cands s value s' events) {selected : Selected E}
    (hvalue : value = .ok (some selected)) :
    selected.bucket ∈ cands ∧ atCandidate pad inputs r selected.bucket = .ok selected.inputsAtBucket := by
  induction h with
  | exhausted | fault => cases hvalue
  | failed _ _ ih | missed _ _ _ _ _ ih =>
    obtain ⟨hm, hp⟩ := ih hvalue
    exact ⟨List.mem_cons_of_mem _ hm, hp⟩
  | cached _ hat _ | captured _ hat _ _ =>
    cases hvalue
    exact ⟨List.mem_cons_self .., hat⟩

theorem attempted_slow {cfg : GraphConfig} {forward : List (Tensor E) → List (Tensor E)}
    {chance : Chance} {inputs : List (Tensor E)} {s : GraphState E} {a : Attempt E} {at_ : List (Tensor E)}
    (h : attempted cfg forward chance inputs s = some a) (hat : a.copyFrom = some at_) :
    ∃ t0 t1 t2 r, inputs = [t0, t1, t2] ∧ requestCount t0 t1 t2 = .ok r ∧ a.r = r ∧ (r : Int) ≤ a.bucket ∧
      a.key = bucketKey a.bucket ∧
      (if a.bucket = r then Except.ok inputs else padRequestsUp chance.alloc inputs r a.bucket) = .ok at_ := by
  unfold attempted at h
  split at h
  · rename_i t0 t1 t2
    cases hr : requestCount t0 t1 t2 with
    | error f => rw [hr] at h; cases h
    | ok r =>
      rw [hr] at h
      simp only [attemptedFrom] at h
      split at h
      · cases h
        cases hat
      · split at h
        · rename_i hsel
          cases h
          cases hat
          obtain ⟨hm, hp⟩ := (selects_selectBucket hsel).selected rfl
          exact ⟨t0, t1, t2, r, rfl, hr, rfl, le_of_mem_candidates hm, rfl, hp⟩
        · cases h
  · cases h

/-- None of the copies that all succeed throws. -/
theorem copyInputs_unraised {fault : Nat → Option String} {i : Nat} {statics srcs statics' : List (Tensor E)}
    (h : copyInputs fault i statics srcs = (.ok (), statics')) {j : Nat} (hj : j < srcs.length) :
    fault (i + j) = none := by
  induction srcs generalizing i j statics statics' with
  | nil => exact absurd hj (Nat.not_lt_zero j)
  | cons src rest ih =>
    cases statics with
    | nil => cases h
    | cons st statics =>
      rw [copyInputs] at h
      split at h
      · cases h
      · rename_i st' hst
        obtain ⟨_, hraise, _⟩ := bind_ok.mp hst
        cases hrest : copyInputs fault (i + 1) statics rest with
        | mk result t =>
          rw [hrest] at h
          cases h
          cases j with
          | zero => exact raise_ok hraise
          | succ j =>
            have := ih hrest (Nat.lt_of_succ_lt_succ hj)
            rwa [Nat.add_right_comm] at this

/-- What copies that all succeed leave. -/
theorem copyInputs_ok {fault : Nat → Option String} {i : Nat} {statics srcs statics' : List (Tensor E)}
    (h : copyInputs fault i statics srcs = (.ok (), statics')) :
    statics'.length = statics.length ∧ srcs.length ≤ statics.length ∧
      ∀ (j : Nat) (src : Tensor E), srcs[j]? = some src →
        ∃ st st' : Tensor E, statics[j]? = some st ∧ st.copy_ src = .ok st' ∧ statics'[j]? = some st' := by
  induction srcs generalizing i statics statics' with
  | nil =>
    rw [copyInputs_nil] at h
    cases h
    exact ⟨rfl, Nat.zero_le _, fun j src hj => by simp at hj⟩
  | cons src rest ih =>
    cases statics with
    | nil => cases h
    | cons st statics =>
      rw [copyInputs] at h
      split at h
      · cases h
      · rename_i st' hst
        obtain ⟨_, _, hcopy⟩ := bind_ok.mp hst
        cases hrest : copyInputs fault (i + 1) statics rest with
        | mk result t =>
          rw [hrest] at h
          cases h
          obtain ⟨hlen, hle, hall⟩ := ih hrest
          refine ⟨by simp [hlen], by simpa using hle, fun j src' hj => ?_⟩
          cases j with
          | zero =>
            cases hj
            exact ⟨st, st', rfl, hcopy, rfl⟩
          | succ j => exact hall j src' hj

end TritonAot
