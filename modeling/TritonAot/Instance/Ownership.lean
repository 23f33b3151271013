import TritonAot.Instance.Requests
import TritonAot.Instance.Unheeded

/-! Who answers and who releases.

No step of a batch makes a response or loses one: a step that fails sends what
is there, with its error (`Answers`). So when the batch runs to its end every
response has been sent once and every request released once. The early return for
an empty batch is the one way out that skips the end. -/
namespace TritonAot

open Tokens

variable {E : Type} [Scalars E]

/-! ### Steps send errors -/

/-- Responses are sent, each with an error. -/
abbrev Refuses (responses responses' : Responses) : Prop :=
  responses.Spends (fun note => note.isSome = true) responses'

theorem refuses_failEach (failures : List (Nat × TritonError)) (responses : Responses) :
    Refuses responses (failEach failures responses) := by
  apply spends_spendEach
  intro i hi
  obtain ⟨_, _, rfl⟩ := List.mem_map.mp hi
  rfl

theorem refuses_collectPrestaged {cfg : Config E} {chance : InputChance} {requests : List (Request E)}
    {r : Nat} {key : String} {info : DeclaredInput} {c c' : Collecting E}
    (h : collectPrestaged cfg chance requests r key info c = .ok c') : Refuses c.responses c'.responses := by
  rw [collectPrestaged] at h
  split at h
  · cases h
  · split at h
    · cases h
    · obtain ⟨filled, _, h⟩ := bind_ok.mp h
      obtain ⟨view, _, h⟩ := bind_ok.mp h
      obtain ⟨tensors, _, h⟩ := bind_ok.mp h
      cases h
      exact refuses_failEach _ _

theorem refuses_collectSlow {cfg : Config E} {chance : InputChance} {requests : List (Request E)}
    {info : DeclaredInput} {c c' : Collecting E} (h : collectSlow cfg chance requests info c = .ok c') :
    Refuses c.responses c'.responses := by
  rw [collectSlow] at h
  obtain ⟨t, _, h⟩ := bind_ok.mp h
  obtain ⟨tensors, _, h⟩ := bind_ok.mp h
  cases h
  exact refuses_failEach _ _

theorem refuses_collectFrom {cfg : Config E} {chance : InputChance} {total : Nat}
    {requests : List (Request E)} {declared : List DeclaredInput} {c c' : Collecting E}
    {error : Option TritonError}
    (h : collectFrom cfg chance total requests declared c = .ok (c', error)) : Refuses c.responses c'.responses := by
  induction declared generalizing c with
  | nil =>
    cases h
    exact .refl
  | cons info rest ih =>
    rw [collectFrom] at h
    split at h
    · obtain ⟨mid, hmid, h⟩ := bind_ok.mp h
      exact (refuses_collectPrestaged hmid).trans (ih h)
    · split at h
      · cases h
        exact .refl
      · obtain ⟨mid, hmid, h⟩ := bind_ok.mp h
        exact (refuses_collectSlow hmid).trans (ih h)

/-- `SetInputTensors` answers responses and loses none. -/
theorem refuses_setInputTensors {cfg : Config E} {chance : InputChance} {total : Nat}
    {requests : List (Request E)} {s : GraphState E} {responses : Responses} {c : Collecting E}
    {error : Option TritonError}
    (h : setInputTensors cfg chance total requests s responses = .ok (c, error)) : Refuses responses c.responses := by
  unfold setInputTensors at h
  split at h
  · cases h
    exact .refl
  · cases h
  · obtain ⟨declared, _, h⟩ := bind_ok.mp h
    cases declared with
    | error err =>
      cases h
      exact .refl
    | ok declared =>
      obtain ⟨s', _, h⟩ := bind_ok.mp h
      obtain ⟨⟨mid, err⟩, hmid, h⟩ := bind_ok.mp h
      have hkeep := refuses_collectFrom hmid
      cases err with
      | some err =>
        cases h
        exact hkeep
      | none =>
        obtain ⟨last, hlast, h⟩ := bind_ok.mp h
        cases h
        rw [(collectBatchInputs_keeps hlast).2]
        exact hkeep

theorem refuses_readOutput {cfg : Config E} {chance : OutputChance} {outputs : List (Tensor E)}
    {o : ModelOutput} {responses : Responses} {read : Reading}
    (h : readOutput cfg chance outputs o responses = .ok read) : Refuses responses read.responses := by
  have hprocess : Refuses responses (if o.output ≠ -1 then failEach (chance.process o.name) responses else responses) := by
    split
    · exact refuses_failEach _ _
    · exact .refl
  rw [readOutput] at h
  split at h
  · cases h
  · split at h
    · cases h
      exact .refl
    · split at h
      · cases h
        exact refuses_failEach _ _
      · simp only at h
        split at h
        · cases h
          exact hprocess.trans (refuses_failEach _ _)
        · cases h
          exact hprocess

theorem refuses_readFrom {cfg : Config E} {chance : OutputChance} {outputs : List (Tensor E)}
    {entries : List ModelOutput} {responses : Responses} {read : Reading}
    (h : readFrom cfg chance outputs entries responses = .ok read) : Refuses responses read.responses := by
  induction entries generalizing responses read with
  | nil =>
    cases h
    exact refuses_failEach _ _
  | cons o rest ih =>
    rw [readFrom] at h
    obtain ⟨first, ho, h⟩ := bind_ok.mp h
    split at h
    · cases h
      exact refuses_readOutput ho
    · obtain ⟨later, hl, h⟩ := bind_ok.mp h
      have hrest := ih hl
      cases h
      exact (refuses_readOutput ho).trans hrest

/-! ### The steps of a batch -/

/-- Responses are sent with errors, and where all have failed none is left. -/
structure Answers (a a' : Answering) : Prop where
  refuses : Refuses a.responses a'.responses
  failed : (a.allFailed = true → a.responses.Empty) → a'.allFailed = true → a'.responses.Empty

theorem Answers.refl (a : Answering) : Answers a a := ⟨.refl, id⟩

theorem Answers.trans {a a' a'' : Answering} (h : Answers a a') (h' : Answers a' a'') : Answers a a'' :=
  ⟨h.refuses.trans h'.refuses, fun hfailed => h'.failed (h.failed hfailed)⟩

theorem Refuses.answers {a : Answering} {responses : Responses} (h : Refuses a.responses responses) :
    Answers a ⟨responses, false⟩ := ⟨h, fun _ hfailed => by cases hfailed⟩

theorem answers_check (a : Answering) (error : Option TritonError) : Answers a (a.check error) := by
  cases error with
  | none => exact .refl a
  | some err => exact ⟨.all .refl rfl, fun _ _ => empty_spendAll _ _⟩

theorem answers_countFrom {cfg : Config E} {chance : RequestChance} {i : Nat} {requests : List (Request E)}
    {total total' : Nat} {a a' : Answering}
    (h : countFrom cfg chance i requests total a = .ok (total', a')) : Answers a a' := by
  induction requests generalizing i total a with
  | nil =>
    cases h
    exact .refl _
  | cons q rest ih =>
    rw [countFrom] at h
    obtain ⟨⟨size, error⟩, _, h⟩ := bind_ok.mp h
    exact (answers_check a error).trans (ih h)

theorem answers_checkBatchSize (cfg : Config E) (total : Nat) (a : Answering) :
    Answers a (checkBatchSize cfg total a) := by
  unfold checkBatchSize
  split
  · exact answers_check _ _
  · exact .refl a

theorem answers_collectInputs {cfg : Config E} {chance : RequestChance} {total : Nat}
    {requests : List (Request E)} {v v' : Serving E}
    (h : collectInputs cfg chance total requests v = .ok v') : Answers v.answering v'.answering := by
  rw [collectInputs] at h
  split at h
  · cases h
    exact .refl _
  · obtain ⟨⟨c, error⟩, hc, h⟩ := bind_ok.mp h
    cases h
    exact (Refuses.answers (refuses_setInputTensors hc)).trans (answers_check _ error)

theorem answers_runModel {cfg : Config E} {forward : List (Tensor E) → List (Tensor E)}
    {chance : RequestChance} {v v' : Serving E} (h : runModel cfg forward chance v = .ok v') :
    Answers v.answering v'.answering := by
  rw [runModel] at h
  split at h
  · cases h
    exact .refl _
  · obtain ⟨x, _, h⟩ := bind_ok.mp h
    cases h
    apply Refuses.answers
    cases x.failure with
    | none => exact .refl
    | some what => exact .all .refl rfl

theorem answers_checkOutputIndices (cfg : Config E) (v : Serving E) :
    Answers v.answering (checkOutputIndices cfg v).answering := by
  unfold checkOutputIndices
  split
  · exact .refl _
  · exact answers_check _ _

theorem answers_readOutputs {cfg : Config E} {chance : RequestChance} {v v' : Serving E}
    (h : readOutputs cfg chance v = .ok v') : Answers v.answering v'.answering := by
  rw [readOutputs] at h
  split at h
  · cases h
    exact .refl _
  · obtain ⟨read, hread, h⟩ := bind_ok.mp h
    cases h
    exact (Refuses.answers (refuses_readFrom hread)).trans (answers_check _ _)

/-- A step that is only made where CUDA events are recorded. -/
theorem answers_checkIf (c : Bool) (v : Serving E) (error : Option TritonError) :
    Answers v.answering (if c then v.check error else v).answering := by
  cases c
  · exact .refl _
  · exact answers_check _ _

theorem answers_serve {cfg : Config E} {forward : List (Tensor E) → List (Tensor E)}
    {chance : RequestChance} {total : Nat} {requests : List (Request E)} {a : Answering}
    {s : GraphState E} {v : Serving E} (h : serve cfg forward chance total requests a s = .ok v) :
    Answers a v.answering := by
  rw [serve] at h
  obtain ⟨collected, hcollect, h⟩ := bind_ok.mp h
  obtain ⟨ran, hrun, h⟩ := bind_ok.mp h
  have hstart : Answers a (a.start cfg chance) := by
    unfold Answering.start
    split
    · exact answers_check _ _
    · exact .refl a
  have hread := answers_readOutputs h
  have hindex := answers_checkOutputIndices cfg ran
  exact hstart.trans <| (answers_collectInputs hcollect).trans <| (answers_checkIf _ _ _).trans <|
    (answers_runModel hrun).trans <| hindex.trans <| (answers_checkIf _ _ _).trans hread

/-! ### The whole call -/

theorem held_newResponses (chance : RequestChance) (n : Nat) :
    (newResponses chance n).held = (List.range n).filter chance.responseNew := by
  rw [Tokens.Ledger.held, newResponses, List.map_nil, List.append_nil]
  generalize List.range n = is
  induction is with
  | nil => rfl
  | cons i rest ih =>
    rw [List.map_cons]
    cases hi : chance.responseNew i with
    | true => rw [if_pos rfl, List.reduceOption_cons_of_some, ih, List.filter_cons_of_pos hi]
    | false => rw [if_neg Bool.false_ne_true, List.reduceOption_cons_of_none, ih,
        List.filter_cons_of_neg (by simp [hi])]

/-! ### Which batches are answered -/

/-- The request at index `i` adds to the batch size: the model does not batch, or
the lookup of its first input succeeds and finds a batch size other than zero. -/
def Counts (cfg : Config E) (chance : RequestChance) (i : Nat) (q : Request E) : Prop :=
  cfg.maxBatchSize = 0 ∨ (chance.inputByIndex i = none ∧
    ∃ input rest size dims, q.inputs = input :: rest ∧ input.shape = size :: dims ∧ size ≠ 0)

/-- A null request, no request at all, or one that adds to the batch size. -/
def Answerable (cfg : Config E) (chance : RequestChance) (requests : List (Option (Request E))) : Prop :=
  none ∈ requests ∨ requests = [] ∨ ∃ i q, requests[i]? = some (some q) ∧ Counts cfg chance i q

/-- The responses the call creates; all of them where a null request is answered. -/
def created (chance : RequestChance) (requests : List (Option (Request E))) : List Nat :=
  if requests.any Option.isNone then List.range requests.length
  else (List.range requests.length).filter chance.responseNew

/-- Every request released once, every response created sent once. -/
structure Accounted (chance : RequestChance) (requests : List (Option (Request E))) (served : Served E) :
    Prop where
  released : served.released.Perm (List.range requests.length)
  answered : (served.responses.spent.map Prod.fst).Perm (created chance requests)

theorem countRequest_ne_zero {cfg : Config E} {chance : RequestChance} {i size : Nat} {q : Request E}
    {error : Option TritonError} (h : countRequest cfg chance i q = .ok (size, error)) :
    size ≠ 0 ↔ Counts cfg chance i q := by
  unfold countRequest at h
  by_cases hmax : cfg.maxBatchSize = 0
  · rw [if_pos hmax] at h
    cases h
    exact ⟨fun _ => .inl hmax, fun _ => one_ne_zero⟩
  · rw [if_neg hmax] at h
    split at h
    · rename_i err herr
      cases h
      refine ⟨fun h0 => absurd rfl h0, ?_⟩
      intro hcase
      rcases hcase with hc | ⟨hnone, _⟩
      · exact absurd hc hmax
      · rw [herr] at hnone
        cases hnone
    · rename_i hinputs
      cases h
      refine ⟨fun h0 => absurd rfl h0, ?_⟩
      intro hcase
      rcases hcase with hc | ⟨_, input, rest, _, _, hq, _⟩
      · exact absurd hc hmax
      · rw [hinputs] at hq
        cases hq
    · rename_i input rest hnone hinputs
      split at h
      · rename_i n dims _ hshape
        cases h
        constructor
        · exact fun h0 => .inr ⟨hnone, input, rest, size, dims, hinputs, hshape, h0⟩
        · intro hcase
          rcases hcase with hc | ⟨_, input', rest', size', dims', hq, hs, h0⟩
          · exact absurd hc hmax
          · rw [hinputs] at hq
            cases hq
            rw [hshape] at hs
            cases hs
            exact h0
      · cases h

theorem countFrom_ne_zero {cfg : Config E} {chance : RequestChance} {i : Nat} {requests : List (Request E)}
    {total total' : Nat} {a a' : Answering}
    (h : countFrom cfg chance i requests total a = .ok (total', a')) :
    total' ≠ 0 ↔ total ≠ 0 ∨ ∃ j q, requests[j]? = some q ∧ Counts cfg chance (i + j) q := by
  induction requests generalizing i total a with
  | nil =>
    cases h
    exact ⟨.inl, fun hc => hc.resolve_right (fun ⟨_, _, hq, _⟩ => by simp at hq)⟩
  | cons q rest ih =>
    rw [countFrom] at h
    obtain ⟨⟨size, error⟩, hcount, h⟩ := bind_ok.mp h
    have hsize := countRequest_ne_zero hcount
    have hshift : ∀ j, i + 1 + j = i + (j + 1) := fun j => by omega
    rw [ih h]
    constructor
    · intro hcase
      rcases hcase with hsum | ⟨j, q', hq, hc⟩
      · by_cases ht : total = 0
        · exact .inr ⟨0, q, rfl, hsize.mp (by omega)⟩
        · exact .inl ht
      · exact .inr ⟨j + 1, q', hq, hshift j ▸ hc⟩
    · intro hcase
      rcases hcase with ht | ⟨j, q', hq, hc⟩
      · exact .inl (by omega)
      · cases j with
        | zero =>
          cases hq
          exact .inl (by have := hsize.mpr hc; omega)
        | succ j => exact .inr ⟨j, q', hq, (hshift j).symm ▸ hc⟩

/-! ### Which calls return -/

/-- The first input of the request at index `i`, where it is found, has its properties
and a shape. -/
def HasBatchSize (cfg : Config E) (chance : RequestChance) (i : Nat) (q : Request E) : Prop :=
  cfg.maxBatchSize ≠ 0 → chance.inputByIndex i = none → ∀ input rest, q.inputs = input :: rest →
    chance.inputProperties i = none ∧ input.shape ≠ []

/-- A batch of at least one row whose inputs are going to be collected, with the answers
it has by then. -/
structure Begins (cfg : Config E) (chance : RequestChance) (requests : List (Option (Request E)))
    (qs : List (Request E)) (total : Nat) (a : Answering) : Prop where
  present : requests = qs.map some
  counted : ∃ a', countFrom cfg chance 0 qs 0 ⟨newResponses chance qs.length, false⟩ = .ok (total, a') ∧
    a = (checkBatchSize cfg total a').start cfg chance
  nonempty : total ≠ 0
  accepted : a.allFailed = false

/-- The calls that `ProcessRequests` makes on its way return. The server's failures that are
not heeded do not happen (`sized`, `delivered`); otherwise `SetInputTensors` returns on the
instance as the prestage lookup leaves it, and `Execute` on what is collected. -/
structure CallsReturn (cfg : Config E) (forward : List (Tensor E) → List (Tensor E))
    (chance : RequestChance) (requests : List (Option (Request E))) (s : GraphState E) : Prop where
  sized : ∀ qs : List (Request E), requests = qs.map some → ∀ i q, qs[i]? = some q → HasBatchSize cfg chance i q
  delivered : ∀ qs total a, Begins cfg chance requests qs total a →
    CallsDeliver cfg chance.input total qs (prestage cfg total false s)
  collect : ∀ qs total a, Begins cfg chance requests qs total a →
    ∃ x, setInputTensors cfg chance.input.delivering total qs (prestage cfg total false s) a.responses = .ok x
  run : ∀ qs total a c, Begins cfg chance requests qs total a →
    setInputTensors cfg chance.input.delivering total qs (prestage cfg total false s) a.responses = .ok (c, none) →
      (cfg.recordsEvents = true → chance.inferStart = none) →
        ∃ x, executeSlots cfg forward chance.graph c.tensors c.state = .ok x

theorem countRequest_returns_iff {cfg : Config E} {chance : RequestChance} {i : Nat} {q : Request E} :
    (∃ x, countRequest cfg chance i q = .ok x) ↔ HasBatchSize cfg chance i q := by
  unfold countRequest HasBatchSize
  by_cases hmax : cfg.maxBatchSize = 0
  · rw [if_pos hmax]
    exact ⟨fun _ hno => absurd hmax hno, fun _ => ⟨_, rfl⟩⟩
  · rw [if_neg hmax]
    cases hlookup : chance.inputByIndex i with
    | some err => exact ⟨fun _ _ hnone => (by cases hnone), fun _ => ⟨_, rfl⟩⟩
    | none =>
      cases hinputs : q.inputs with
      | nil => exact ⟨fun _ _ _ input rest h => (by cases h), fun _ => ⟨_, rfl⟩⟩
      | cons input rest =>
        constructor
        · rintro ⟨x, hx⟩ _ _ _ _ h
          cases h
          simp only at hx
          split at hx
          · rename_i hproperties hshape
            exact ⟨hproperties, by rw [hshape]; exact List.cons_ne_nil _ _⟩
          · cases hx
        · intro h
          obtain ⟨hproperties, hshape⟩ := h hmax rfl input rest rfl
          obtain ⟨size, dims, hcons⟩ := List.exists_cons_of_ne_nil hshape
          refine ⟨(size, none), ?_⟩
          simp only [hproperties, hcons]

theorem countFrom_returns_iff {cfg : Config E} {chance : RequestChance} {i : Nat} {requests : List (Request E)}
    (total : Nat) (a : Answering) :
    (∃ x, countFrom cfg chance i requests total a = .ok x) ↔
      ∀ j q, requests[j]? = some q → HasBatchSize cfg chance (i + j) q := by
  induction requests generalizing i total a with
  | nil => exact ⟨fun _ j q h => by simp at h, fun _ => ⟨_, rfl⟩⟩
  | cons q rest ih =>
    have hshift : ∀ j, i + 1 + j = i + (j + 1) := fun j => by omega
    constructor
    · rintro ⟨x, hx⟩ j q' hq'
      obtain ⟨⟨size, error⟩, hsize, hx⟩ := bind_ok.mp hx
      cases j with
      | zero =>
        cases hq'
        exact countRequest_returns_iff.mp ⟨_, hsize⟩
      | succ j => exact hshift j ▸ (ih _ _).mp ⟨x, hx⟩ j q' hq'
    · intro h
      obtain ⟨⟨size, error⟩, hsize⟩ := countRequest_returns_iff.mpr (h 0 q rfl)
      obtain ⟨x, hx⟩ := (ih (total + size) (a.check error)).mpr fun j q' hq' => (hshift j).symm ▸ h (j + 1) q' hq'
      exact ⟨x, bind_ok.mpr ⟨(size, error), hsize, hx⟩⟩

/-- A check that is only made where CUDA events are recorded, passed. -/
theorem checkIf_passes {c : Bool} {v : Serving E} {error : Option TritonError} :
    (if c then v.check error else v).answering.allFailed = false ↔
      v.answering.allFailed = false ∧ (c = true → error = none) := by
  cases c with
  | false => exact ⟨fun h => ⟨h, fun hc => by cases hc⟩, fun h => h.1⟩
  | true =>
    constructor
    · intro h
      obtain ⟨hfailed, herror⟩ := check_allFailed h
      exact ⟨hfailed, fun _ => herror⟩
    · rintro ⟨hfailed, herror⟩
      rw [herror rfl]
      exact hfailed

/-- Behind its inputs, a batch is served where the model returns on them. -/
theorem serve_returns_of {cfg : Config E} {forward : List (Tensor E) → List (Tensor E)} {chance : RequestChance}
    {total : Nat} {requests : List (Request E)} {a : Answering} {s : GraphState E} {v : Serving E}
    (h : serveInputs cfg chance total requests a s = .ok v) :
    (∃ v', serve cfg forward chance total requests a s = .ok v') ↔
      (v.answering.allFailed = false → ∃ x, executeSlots cfg forward chance.graph v.tensors v.state = .ok x) := by
  have hmodel : serveModel cfg forward chance total requests a s = runModel cfg forward chance v := by
    rw [serveModel, h]
    rfl
  rw [serve_eq, hmodel]
  constructor
  · rintro ⟨v', hv'⟩ hgoing
    obtain ⟨ran, hran, _⟩ := bind_ok.mp hv'
    rcases runModel_cases hran with ⟨hfailed, _⟩ | ⟨_, x, hx, _⟩
    · rw [hgoing] at hfailed
      cases hfailed
    · exact ⟨x, hx⟩
  · intro hrun
    obtain ⟨ran, hran⟩ : ∃ ran, runModel cfg forward chance v = .ok ran := by
      unfold runModel
      cases hfailed : v.answering.allFailed with
      | true => exact ⟨_, if_pos rfl⟩
      | false =>
        obtain ⟨x, hx⟩ := hrun hfailed
        exact ⟨_, (if_neg Bool.false_ne_true).trans (bind_ok.mpr ⟨x, hx, rfl⟩)⟩
    obtain ⟨v', hv'⟩ := @readOutputs_returns _ _ cfg chance (ran.verify cfg chance) fun hf => by
      rw [(verify_frame cfg chance ran).1]
      exact invalidIndex_verify hf
    exact ⟨v', bind_ok.mpr ⟨ran, hran, hv'⟩⟩

/-- A batch that is going to be collected is served exactly where `SetInputTensors` returns,
and `Execute` on what it leaves. -/
theorem serve_returns_iff {cfg : Config E} {forward : List (Tensor E) → List (Tensor E)} {chance : RequestChance}
    {total : Nat} {requests : List (Request E)} {a : Answering} {s : GraphState E} :
    (∃ v, serve cfg forward chance total requests a s = .ok v) ↔
      ((a.start cfg chance).allFailed = false →
        (∃ x, setInputTensors cfg chance.input total requests (prestage cfg total false s)
          (a.start cfg chance).responses = .ok x) ∧
        ∀ c, setInputTensors cfg chance.input total requests (prestage cfg total false s)
            (a.start cfg chance).responses = .ok (c, none) →
          (cfg.recordsEvents = true → chance.inferStart = none) →
            ∃ x, executeSlots cfg forward chance.graph c.tensors c.state = .ok x) := by
  -- what `serveInputs` leaves, where the collection returns
  have hleaves : ∀ c error, (a.start cfg chance).allFailed = false →
      setInputTensors cfg chance.input total requests (prestage cfg total false s) (a.start cfg chance).responses =
        .ok (c, error) →
      ∃ v, serveInputs cfg chance total requests a s = .ok v ∧ v.tensors = c.tensors ∧ v.state = c.state ∧
        (v.answering.allFailed = false ↔ error = none ∧ (cfg.recordsEvents = true → chance.inferStart = none)) := by
    intro c error hgoing hc
    let first : Serving E := ⟨a.start cfg chance, prestage cfg total (a.start cfg chance).allFailed s, [], [], [], []⟩
    let mid : Serving E := Serving.check {first with
      answering := ⟨c.responses, false⟩
      state := c.state
      tensors := c.tensors} error
    have hmid : collectInputs cfg chance total requests first = .ok mid := by
      show (if (a.start cfg chance).allFailed then _ else _) = _
      rw [hgoing, if_neg Bool.false_ne_true]
      refine bind_ok.mpr ⟨(c, error), ?_, rfl⟩
      rw [← hc]
      show setInputTensors _ _ _ _ (prestage cfg total (a.start cfg chance).allFailed s) _ = _
      rw [hgoing]
    obtain ⟨htensors, hstate, _⟩ := checkIf_frame cfg.recordsEvents mid chance.inferStart
    refine ⟨_, bind_ok.mpr ⟨mid, hmid, rfl⟩, htensors, hstate, ?_⟩
    rw [checkIf_passes]
    have hchecked : mid.answering.allFailed = false ↔ error = none := by
      cases error with
      | none => exact ⟨fun _ => rfl, fun _ => rfl⟩
      | some err => exact ⟨fun h => (by cases h), fun h => (by cases h)⟩
    rw [hchecked]
  cases hgoing : (a.start cfg chance).allFailed with
  | true =>
    refine ⟨fun _ h => (by cases h), fun _ => ?_⟩
    let first : Serving E := ⟨a.start cfg chance, prestage cfg total (a.start cfg chance).allFailed s, [], [], [], []⟩
    have hmid : collectInputs cfg chance total requests first = .ok first := if_pos hgoing
    refine (serve_returns_of (bind_ok.mpr ⟨first, hmid, rfl⟩)).mpr fun hf => ?_
    have hstill : first.answering.allFailed = false := (checkIf_passes.mp hf).1
    rw [show first.answering.allFailed = true from hgoing] at hstill
    cases hstill
  | false =>
    constructor
    · rintro ⟨v, hv⟩ _
      have hinputs : ∃ v, serveInputs cfg chance total requests a s = .ok v := by
        rw [serve_eq] at hv
        obtain ⟨_, hmodel, _⟩ := bind_ok.mp hv
        obtain ⟨first, hfirst, _⟩ := bind_ok.mp hmodel
        exact ⟨first, hfirst⟩
      obtain ⟨first, hfirst⟩ := hinputs
      obtain ⟨mid, hmid, _⟩ := bind_ok.mp hfirst
      rcases collectInputs_cases hmid with ⟨hfailed, _⟩ | ⟨_, c, error, hc, _⟩
      · change (a.start cfg chance).allFailed = true at hfailed
        rw [hgoing] at hfailed
        cases hfailed
      · change setInputTensors _ _ _ _ (prestage cfg total (a.start cfg chance).allFailed s) _ = _ at hc
        rw [hgoing] at hc
        refine ⟨⟨_, hc⟩, fun c' hc' hstart => ?_⟩
        obtain ⟨v', hv', htensors, hstate, hgoes⟩ := hleaves c' none hgoing hc'
        rw [← htensors, ← hstate]
        exact (serve_returns_of hv').mp ⟨v, hv⟩ (hgoes.mpr ⟨rfl, hstart⟩)
    · intro h
      obtain ⟨⟨⟨c, error⟩, hc⟩, hrun⟩ := h rfl
      obtain ⟨v, hv, htensors, hstate, hgoes⟩ := hleaves c error hgoing hc
      refine (serve_returns_of hv).mpr fun hf => ?_
      obtain ⟨rfl, hstart⟩ := hgoes.mp hf
      rw [htensors, hstate]
      exact hrun c hc hstart

/-- A call returns exactly where the calls it makes on its way do. -/
theorem processRequests_returns_iff {cfg : Config E} {forward : List (Tensor E) → List (Tensor E)}
    {chance : RequestChance} {requests : List (Option (Request E))} {s : GraphState E} :
    (∃ served, processRequests cfg forward chance requests s = .ok served) ↔
      CallsReturn cfg forward chance requests s := by
  unfold processRequests
  cases hm : requests.mapM id with
  | none =>
    have hnull : none ∈ requests := (mapM_id_eq_none requests).mp hm
    have hno : ∀ qs : List (Request E), requests ≠ qs.map some := fun qs heq => by simp [heq] at hnull
    exact ⟨fun _ => ⟨fun qs h => absurd h (hno qs), fun qs _ _ h => absurd h.present (hno qs),
      fun qs _ _ h => absurd h.present (hno qs), fun qs _ _ _ h => absurd h.present (hno qs)⟩, fun _ => ⟨_, rfl⟩⟩
  | some qs =>
    obtain rfl := mapM_id_eq_some hm
    have hsame : ∀ qs' : List (Request E), qs.map some = qs'.map some → qs' = qs := fun qs' heq =>
      (List.map_injective_iff.mpr (Option.some_injective _) heq).symm
    constructor
    · rintro ⟨served, h⟩
      obtain ⟨⟨total, a⟩, hcount, h⟩ := bind_ok.mp h
      have hserve : ∀ qs' total' a', Begins cfg chance (qs.map some) qs' total' a' → qs' = qs ∧
          (∃ x, setInputTensors cfg chance.input total' qs' (prestage cfg total' false s) a'.responses = .ok x) ∧
          ∀ c, setInputTensors cfg chance.input total' qs' (prestage cfg total' false s) a'.responses = .ok (c, none) →
            (cfg.recordsEvents = true → chance.inferStart = none) →
              ∃ x, executeSlots cfg forward chance.graph c.tensors c.state = .ok x := by
        rintro qs' total' a' ⟨hpresent, ⟨a₀, hcount', rfl⟩, htotal, haccepted⟩
        obtain rfl := hsame qs' hpresent
        rw [hcount] at hcount'
        cases hcount'
        simp only [if_neg htotal] at h
        obtain ⟨v, hv, _⟩ := bind_ok.mp h
        exact ⟨rfl, serve_returns_iff.mp ⟨v, hv⟩ haccepted⟩
      refine ⟨fun qs' hqs' j q hq => ?_, fun qs' total' a' hb => ?_, fun qs' total' a' hb => ?_,
        fun qs' total' a' c hb hc => ?_⟩
      · obtain rfl := hsame qs' hqs'
        have := (countFrom_returns_iff 0 ⟨newResponses chance qs'.length, false⟩).mp ⟨_, hcount⟩ j q hq
        rwa [Nat.zero_add] at this
      · obtain ⟨_, ⟨x, hx⟩, _⟩ := hserve qs' total' a' hb
        exact (setInputTensors_returns_iff.mp hx).1
      · obtain ⟨_, ⟨x, hx⟩, _⟩ := hserve qs' total' a' hb
        exact ⟨x, (setInputTensors_returns_iff.mp hx).2⟩
      · obtain ⟨_, ⟨x, hx⟩, hrun⟩ := hserve qs' total' a' hb
        exact hrun c (setInputTensors_returns_iff.mpr ⟨(setInputTensors_returns_iff.mp hx).1, hc⟩)
    · intro h
      obtain ⟨⟨total, a⟩, hcount⟩ := (countFrom_returns_iff 0 ⟨newResponses chance qs.length, false⟩).mpr
        fun j q hq => by
          rw [Nat.zero_add]
          exact h.sized qs rfl j q hq
      by_cases ht : total = 0
      · exact ⟨_, bind_ok.mpr ⟨(total, a), hcount, if_pos ht⟩⟩
      · obtain ⟨v, hv⟩ : ∃ v, serve cfg forward chance total qs (checkBatchSize cfg total a) s = .ok v := by
          refine serve_returns_iff.mpr fun haccepted => ?_
          have hb : Begins cfg chance (qs.map some) qs total ((checkBatchSize cfg total a).start cfg chance) :=
            ⟨rfl, ⟨a, hcount, rfl⟩, ht, haccepted⟩
          have hdelivered := h.delivered _ _ _ hb
          obtain ⟨x, hx⟩ := h.collect _ _ _ hb
          exact ⟨⟨x, setInputTensors_returns_iff.mpr ⟨hdelivered, hx⟩⟩, fun c hc =>
            h.run _ _ _ c hb (setInputTensors_returns_iff.mp hc).2⟩
        exact ⟨_, bind_ok.mpr ⟨(total, a), hcount, (if_neg ht).trans (bind_ok.mpr ⟨v, hv, rfl⟩)⟩⟩

/-- A call that returns accounts for the batch exactly where this is answerable. -/
theorem accounted_iff {cfg : Config E} {forward : List (Tensor E) → List (Tensor E)} {chance : RequestChance}
    {requests : List (Option (Request E))} {s : GraphState E} {served : Served E}
    (h : processRequests cfg forward chance requests s = .ok served) :
    Accounted chance requests served ↔ Answerable cfg chance requests := by
  unfold processRequests at h
  cases hm : requests.mapM id with
  | none =>
    have hnull : none ∈ requests := (mapM_id_eq_none requests).mp hm
    have hany : requests.any Option.isNone = true := List.any_eq_true.mpr ⟨none, hnull, rfl⟩
    rw [hm] at h
    cases h
    refine ⟨fun _ => .inl hnull, fun _ => ⟨.refl _, ?_⟩⟩
    rw [created, if_pos hany, respondWithError, List.map_map]
    exact .of_eq (List.map_id _)
  | some qs =>
    have hqs := mapM_id_eq_some hm
    subst hqs
    have hnull : ¬ none ∈ qs.map some := fun hn => by simp at hn
    have hany : ¬ (qs.map some).any Option.isNone = true := fun hn => by simp at hn
    rw [hm] at h
    obtain ⟨⟨total, a⟩, hcount, h⟩ := bind_ok.mp h
    have htotal : total ≠ 0 ↔ ∃ i q, (qs.map some)[i]? = some (some q) ∧ Counts cfg chance i q := by
      have := countFrom_ne_zero hcount
      simpa using this
    have hheld := (answers_countFrom hcount).refuses.held
    rw [held_newResponses] at hheld
    by_cases ht : total = 0
    · simp only [ht, if_true] at h
      cases h
      have hempty : Answerable cfg chance (qs.map some) ↔ qs = [] := by
        rw [Answerable, ← htotal]
        simp [hnull, ht]
      rw [hempty]
      constructor
      · intro hacc
        have := hacc.released.length_eq
        simpa using this.symm
      · rintro rfl
        refine ⟨.refl _, ?_⟩
        have := hcount
        cases this
        exact .refl _
    · simp only [ht, if_false] at h
      obtain ⟨v, hv, h⟩ := bind_ok.mp h
      cases h
      have hans : Answerable cfg chance (qs.map some) := .inr (.inr (htotal.mp ht))
      refine ⟨fun _ => hans, fun _ => ⟨by rw [List.length_map]; exact .refl _, ?_⟩⟩
      rw [created, if_neg hany, List.length_map]
      exact (Tokens.spent_spendAll none v.answering.responses).trans <|
        (answers_serve hv).refuses.held.trans <| (answers_checkBatchSize cfg total a).refuses.held.trans hheld

/-- **When a batch is accounted for**: each request released once and each response sent
once, exactly where the batch is answerable and the calls on the way return, whatever else
fails; and of a call that returns, exactly where the batch is answerable. -/
theorem processRequests_accounted (cfg : Config E) (forward : List (Tensor E) → List (Tensor E))
    (chance : RequestChance) (requests : List (Option (Request E))) (s : GraphState E) :
    ((∃ served, processRequests cfg forward chance requests s = .ok served ∧ Accounted chance requests served) ↔
      Answerable cfg chance requests ∧ CallsReturn cfg forward chance requests s) ∧
    ∀ served, processRequests cfg forward chance requests s = .ok served →
      (Accounted chance requests served ↔ Answerable cfg chance requests) := by
  refine ⟨⟨fun ⟨served, h, haccounted⟩ => ⟨(accounted_iff h).mp haccounted, processRequests_returns_iff.mp ⟨served, h⟩⟩,
    fun ⟨hanswerable, hcalls⟩ => ?_⟩, fun served h => accounted_iff h⟩
  obtain ⟨served, h⟩ := processRequests_returns_iff.mpr hcalls
  exact ⟨served, h, (accounted_iff h).mpr hanswerable⟩

/-- A request with one input, of `rows` rows of two elements. -/
def rowsRequest (rows : Nat) : Request Int :=
  ⟨[⟨"INPUT__0", .int32, [rows, 2], List.replicate (rows * 2) 0, by simp, by
    intro x hx
    rw [List.eq_of_mem_replicate hx]
    rfl⟩]⟩

/-- A model with that input. -/
def oneInput : Config Int := {Config.bare Int with inputIndexMap := fun _ => some 0}

theorem processRequests_accounted_row :
    ∃ served, processRequests oneInput id .smooth [some (rowsRequest 1)] (.fresh Int) = .ok served ∧
      Accounted .smooth [some (rowsRequest 1)] served :=
  ⟨_, rfl, ((processRequests_accounted oneInput id .smooth [some (rowsRequest 1)] (.fresh Int)).2 _
    rfl).mpr (.inr (.inr ⟨0, rowsRequest 1, rfl, .inr ⟨rfl, _, _, 1, [2], rfl, rfl, by decide⟩⟩))⟩

/-- A request of batch size zero is neither answered nor released. -/
theorem empty_batch_not_accounted :
    ¬ ∀ (cfg : Config Int) (forward : List (Tensor Int) → List (Tensor Int)) (chance : RequestChance)
      (requests : List (Option (Request Int))) (s : GraphState Int) (served : Served Int),
      processRequests cfg forward chance requests s = .ok served → Accounted chance requests served := by
  intro h
  have hacc := h oneInput id .smooth [some (rowsRequest 0)] (.fresh Int) _ rfl
  have hlen := hacc.released.length_eq
  cases hlen

end TritonAot
