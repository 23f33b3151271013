import TritonAot.Instance.Collect

/-! The calls of `SetInputTensors` whose failure is answered but not heeded.

Where a ragged input is not found in a request, or a batch input cannot be collected,
responses are answered and what the call has not set is read all the same. So
`SetInputTensors` returns exactly where it would if those calls delivered, and every one
of them that it comes to does (`setInputTensors_returns_iff`). -/
namespace TritonAot

variable {E : Type} [Scalars E]

/-- The same calls, with none of that kind failing. -/
def InputChance.delivering (chance : InputChance) : InputChance :=
  {chance with
    ragged := fun _ _ => true
    batchInput := fun _ => true}

/-! ### Pass 1 -/

/-- Every ragged input that pass 1 comes to, from the input at index `i` on, is found in
every request. -/
def RaggedFound (cfg : Config E) (chance : InputChance) (requests : List (Request E)) :
    Nat → List (RequestInput E) → Prop
  | _, [] => True
  | i, input :: rest => chance.properties i = none → input.datatype ≠ .bytes →
      (cfg.isInputRagged input.name = true → raggedFound chance requests input.name = true) ∧
        RaggedFound cfg chance requests (i + 1) rest

/-- Pass 1 returns no error, from the input at index `i` on. -/
def Described (chance : InputChance) : Nat → List (RequestInput E) → Prop
  | _, [] => True
  | i, input :: rest =>
    (chance.properties i = none ∧ input.datatype ≠ .bytes) ∧ Described chance (i + 1) rest

theorem raggedFound_delivering {chance : InputChance} {requests : List (Request E)} {name : String}
    (h : raggedFound chance requests name = true) : raggedFound chance.delivering requests name = true := by
  refine List.all_eq_true.mpr fun q hq => ?_
  have hfound := List.all_eq_true.mp h q hq
  rw [Bool.and_eq_true] at hfound ⊢
  exact ⟨hfound.1, rfl⟩

section Pass1
variable {cfg : Config E} {chance : InputChance} {total : Nat} {requests : List (Request E)}

/-- Where every ragged input is found, pass 1 returns what it does if the calls deliver. -/
theorem declareFrom_found (total : Nat) {i : Nat} {inputs : List (RequestInput E)}
    (h : RaggedFound cfg chance requests i inputs) :
    ∃ declared, declareFrom cfg chance total requests i inputs = .ok declared ∧
      declareFrom cfg chance.delivering total requests i inputs = .ok declared := by
  induction inputs generalizing i with
  | nil => exact ⟨_, rfl, rfl⟩
  | cons input rest ih =>
    have hsame : chance.delivering.properties i = chance.properties i := rfl
    rw [declareFrom, declareFrom, hsame]
    cases hproperties : chance.properties i with
    | some err => exact ⟨_, rfl, rfl⟩
    | none =>
      by_cases hbytes : input.datatype = .bytes
      · exact ⟨_, if_pos hbytes, if_pos hbytes⟩
      · obtain ⟨hragged, hrest⟩ := h hproperties hbytes
        obtain ⟨later, hlater, hlater'⟩ := ih hrest
        have hgo : ∀ found : Bool, (cfg.isInputRagged input.name = true → found = true) →
            ¬ (cfg.isInputRagged input.name && !found) = true := by
          intro found hfound hno
          rw [Bool.and_eq_true] at hno
          rw [hfound hno.1] at hno
          cases hno.2
        refine ⟨later.map (declareInput cfg total requests input :: ·), ?_, ?_⟩
        · refine (if_neg hbytes).trans ((if_neg (hgo _ hragged)).trans ?_)
          exact bind_ok.mpr ⟨later, hlater, rfl⟩
        · refine (if_neg hbytes).trans ((if_neg (hgo _ fun hr => raggedFound_delivering (hragged hr))).trans ?_)
          exact bind_ok.mpr ⟨later, hlater', rfl⟩

/-- Pass 1 returns only where every ragged input that it comes to is found. -/
theorem found_of_declareFrom {i : Nat} {inputs : List (RequestInput E)}
    {declared : Except TritonError (List DeclaredInput)}
    (h : declareFrom cfg chance total requests i inputs = .ok declared) :
    RaggedFound cfg chance requests i inputs := by
  induction inputs generalizing i declared with
  | nil => trivial
  | cons input rest ih =>
    intro hproperties hbytes
    rw [declareFrom, hproperties] at h
    simp only [if_neg hbytes] at h
    split at h
    · cases h
    · rename_i hragged
      obtain ⟨later, hlater, _⟩ := bind_ok.mp h
      refine ⟨fun hr => ?_, ih hlater⟩
      rw [hr, Bool.true_and, Bool.not_eq_true'] at hragged
      exact Bool.not_eq_false _ ▸ hragged

theorem declareFrom_described {i : Nat} {inputs : List (RequestInput E)}
    {declared : Except TritonError (List DeclaredInput)}
    (h : declareFrom cfg chance total requests i inputs = .ok declared) :
    (∃ infos, declared = .ok infos) ↔ Described chance i inputs := by
  induction inputs generalizing i declared with
  | nil =>
    cases h
    exact ⟨fun _ => trivial, fun _ => ⟨_, rfl⟩⟩
  | cons input rest ih =>
    rw [declareFrom] at h
    rw [Described]
    cases hproperties : chance.properties i with
    | some err =>
      rw [hproperties] at h
      cases h
      simp
    | none =>
      rw [hproperties] at h
      by_cases hbytes : input.datatype = .bytes
      · simp only [if_pos hbytes] at h
        cases h
        simp [hbytes]
      · simp only [if_neg hbytes] at h
        split at h
        · cases h
        · obtain ⟨later, hlater, h⟩ := bind_ok.mp h
          cases h
          rw [← ih hlater]
          cases later with
          | error err => simp [Except.map]
          | ok infos => simp [Except.map, hbytes]

end Pass1

/-! ### Pass 2 and the batch inputs -/

section Pass2
variable {cfg : Config E} {chance : InputChance} {r : Nat} {requests : List (Request E)}

theorem collectFrom_delivering (cfg : Config E) (chance : InputChance) (r : Nat) (requests : List (Request E))
    (declared : List DeclaredInput) (c : Collecting E) :
    collectFrom cfg chance.delivering r requests declared c = collectFrom cfg chance r requests declared c := by
  induction declared generalizing c with
  | nil => rfl
  | cons info rest ih =>
    rw [collectFrom, collectFrom]
    simp only [ih]
    rfl

/-- Where nothing is prestaged, pass 2 returns no error exactly where the collector does not. -/
theorem collectFrom_error {declared : List DeclaredInput} {c c' : Collecting E} {error : Option TritonError}
    (hkey : c.state.prestagedEntry = none)
    (h : collectFrom cfg chance r requests declared c = .ok (c', error)) :
    error = none ↔ ∀ info ∈ declared, chance.collect info.name = none := by
  induction declared generalizing c with
  | nil =>
    cases h
    exact ⟨fun _ info hinfo => absurd hinfo List.not_mem_nil, fun _ => rfl⟩
  | cons info rest ih =>
    rw [collectFrom, hkey] at h
    simp only at h
    rw [List.forall_mem_cons]
    split at h
    · rename_i err herr
      cases h
      simp [herr]
    · rename_i hnone
      obtain ⟨mid, hmid, h⟩ := bind_ok.mp h
      rw [collectSlow] at hmid
      obtain ⟨t, _, hmid⟩ := bind_ok.mp hmid
      obtain ⟨tensors, _, hmid⟩ := bind_ok.mp hmid
      cases hmid
      rw [ih (c := ⟨c.state, tensors, _⟩) hkey h]
      exact ⟨fun hall => ⟨hnone, hall⟩, fun hall => hall.2⟩

/-- The batch inputs are collected as if the calls delivered exactly where they do. -/
theorem collectBatchInputs_returns_iff {targets : List (BatchInput × String)} {c c' : Collecting E} :
    collectBatchInputs cfg chance r requests targets c = .ok c' ↔
      (c.state.prestagedEntry = none → ∀ target ∈ targets, chance.batchInput target.2 = true) ∧
        collectBatchInputs cfg chance.delivering r requests targets c = .ok c' := by
  induction targets generalizing c with
  | nil => exact ⟨fun h => ⟨fun _ target ht => absurd ht List.not_mem_nil, h⟩, fun h => h.2⟩
  | cons target rest ih =>
    have hone : ∀ mid, collectBatchInput cfg chance r requests target c = .ok mid ↔
        (c.state.prestagedEntry = none → chance.batchInput target.2 = true) ∧
          collectBatchInput cfg chance.delivering r requests target c = .ok mid := by
      intro mid
      rw [collectBatchInput, collectBatchInput]
      cases hkey : c.state.prestagedEntry with
      | some key => exact ⟨fun h => ⟨fun hnone => (by cases hnone), h⟩, fun h => h.2⟩
      | none =>
        cases hbatch : chance.batchInput target.2 with
        | true => exact ⟨fun h => ⟨fun _ => rfl, h⟩, fun h => h.2⟩
        | false =>
          constructor
          · intro h
            cases h
          · intro h
            cases h.1 rfl
    rw [collectBatchInputs, collectBatchInputs, bind_ok, bind_ok]
    constructor
    · rintro ⟨mid, hmid, hrest⟩
      obtain ⟨htarget, hmid'⟩ := (hone mid).mp hmid
      obtain ⟨hall, hrest'⟩ := ih.mp hrest
      rw [(collectBatchInput_keeps hmid).1] at hall
      exact ⟨fun hkey => List.forall_mem_cons.mpr ⟨htarget hkey, hall hkey⟩, mid, hmid', hrest'⟩
    · rintro ⟨hall, mid, hmid, hrest⟩
      refine ⟨mid, (hone mid).mpr ⟨fun hkey => hall hkey target (List.mem_cons_self ..), hmid⟩, ih.mpr ⟨?_, hrest⟩⟩
      rw [(collectBatchInput_keeps hmid).1]
      exact fun hkey t ht => hall hkey t (List.mem_cons_of_mem _ ht)

end Pass2

/-! ### The whole call -/

/-- Every call of `SetInputTensors` whose failure is not heeded delivers, as far as it comes
to them: the ragged inputs of pass 1; and the batch inputs, where both passes return no
error and nothing is prestaged. -/
structure CallsDeliver (cfg : Config E) (chance : InputChance) (total : Nat) (requests : List (Request E))
    (s : GraphState E) : Prop where
  ragged : chance.inputCount = none → ∀ first rest, requests = first :: rest →
    RaggedFound cfg chance requests 0 first.inputs
  batchInputs : chance.inputCount = none → ∀ first rest, requests = first :: rest →
    Described chance 0 first.inputs → ∀ s', decidePrestage cfg (declaredInputs cfg total requests) total s = .ok s' →
      s'.prestagedEntry = none → (∀ input ∈ first.inputs, chance.collect input.name = none) →
        ∀ target ∈ cfg.batchInputTargets, chance.batchInput target.2 = true

section Call
variable {cfg : Config E} {chance : InputChance} {total : Nat} {requests : List (Request E)}

/-- Pass 2 of a batch that is not prestaged, by the inputs of the first request. -/
theorem collectFrom_declared {first : Request E} {rest : List (Request E)} {s : GraphState E}
    {tensors : List (Option (Tensor E))} {responses : Responses} {c : Collecting E} {error : Option TritonError}
    (hkey : s.prestagedEntry = none)
    (h : collectFrom cfg chance total requests (declaredInputs cfg total (first :: rest)) ⟨s, tensors, responses⟩ =
      .ok (c, error)) :
    error = none ↔ ∀ input ∈ first.inputs, chance.collect input.name = none := by
  rw [collectFrom_error hkey h, declaredInputs, List.forall_mem_map]
  simp only [declareInput_name]

/-- What `SetInputTensors` does behind pass 1. -/
def collectDeclared (cfg : Config E) (chance : InputChance) (total : Nat) (requests : List (Request E))
    (tensors : List (Option (Tensor E))) (responses : Responses) (s : GraphState E) :
    Except Fault (Collecting E × Option TritonError) := do
  let s ← decidePrestage cfg (declaredInputs cfg total requests) total s
  let (c, err) ← collectFrom cfg chance total requests (declaredInputs cfg total requests) ⟨s, tensors, responses⟩
  match err with
  | some err => .ok (c, some err)
  | none =>
    let c ← collectBatchInputs cfg chance total requests cfg.batchInputTargets c
    .ok (c, none)

theorem collectDeclared_returns_iff {first : Request E} {rest : List (Request E)}
    {tensors : List (Option (Tensor E))} {responses : Responses} {s : GraphState E}
    {x : Collecting E × Option TritonError} :
    collectDeclared cfg chance total (first :: rest) tensors responses s = .ok x ↔
      (∀ s', decidePrestage cfg (declaredInputs cfg total (first :: rest)) total s = .ok s' →
        s'.prestagedEntry = none → (∀ input ∈ first.inputs, chance.collect input.name = none) →
          ∀ target ∈ cfg.batchInputTargets, chance.batchInput target.2 = true) ∧
        collectDeclared cfg chance.delivering total (first :: rest) tensors responses s = .ok x := by
  unfold collectDeclared
  constructor
  · intro h
    obtain ⟨s', hs', h⟩ := bind_ok.mp h
    obtain ⟨⟨c, error⟩, hc, h⟩ := bind_ok.mp h
    have herror : s'.prestagedEntry = none →
        (error = none ↔ ∀ input ∈ first.inputs, chance.collect input.name = none) :=
      fun hkey => collectFrom_declared hkey hc
    have hc' := (collectFrom_delivering cfg chance ..).trans hc
    cases error with
    | some err =>
      refine ⟨fun s'' hs'' hkey hcollect => ?_, bind_ok.mpr ⟨s', hs', bind_ok.mpr ⟨_, hc', h⟩⟩⟩
      rw [hs'] at hs''
      cases hs''
      cases (herror hkey).mpr hcollect
    | none =>
      obtain ⟨c', hbatch, h⟩ := bind_ok.mp h
      obtain ⟨hall, hbatch'⟩ := collectBatchInputs_returns_iff.mp hbatch
      refine ⟨fun s'' hs'' hkey _ => hall ?_,
        bind_ok.mpr ⟨s', hs', bind_ok.mpr ⟨_, hc', bind_ok.mpr ⟨c', hbatch', h⟩⟩⟩⟩
      rw [hs'] at hs''
      cases hs''
      rw [collectFrom_slow hkey hc]
      exact hkey
  · rintro ⟨hdelivered, h⟩
    obtain ⟨s', hs', h⟩ := bind_ok.mp h
    obtain ⟨⟨c, error⟩, hc, h⟩ := bind_ok.mp h
    rw [collectFrom_delivering] at hc
    refine bind_ok.mpr ⟨s', hs', bind_ok.mpr ⟨(c, error), hc, ?_⟩⟩
    cases error with
    | some err => exact h
    | none =>
      obtain ⟨c', hbatch, h⟩ := bind_ok.mp h
      refine bind_ok.mpr ⟨c', collectBatchInputs_returns_iff.mpr ⟨fun hnone => ?_, hbatch⟩, h⟩
      -- pass 2 leaves a prestaged batch prestaged
      have hkey : s'.prestagedEntry = none := by
        rcases decidePrestage_ok hs' with ⟨hn, _⟩ | ⟨rfl, key, _, _, hkey, _, he, _⟩
        · exact hn
        · obtain ⟨_, _, _, hrest⟩ := collectFrom_prestaged hkey he hc
          rw [hrest.prestaged] at hnone
          exact hnone
      exact hdelivered s' hs' hkey ((collectFrom_declared hkey hc).mp rfl)

/-- Behind pass 1, `SetInputTensors` goes on with the inputs described. -/
theorem setInputTensors_cons (chance : InputChance) (hcount : chance.inputCount = none) (first : Request E)
    (rest : List (Request E)) (s : GraphState E) (responses : Responses) :
    setInputTensors cfg chance total (first :: rest) s responses =
      declareFrom cfg chance total (first :: rest) 0 first.inputs >>= fun declared =>
        match declared with
        | .error err =>
          .ok (⟨s, List.replicate (first.inputs.length + cfg.batchInputCount) none, responses⟩, some err)
        | .ok _ => collectDeclared cfg chance total (first :: rest)
          (List.replicate (first.inputs.length + cfg.batchInputCount) none) responses s := by
  unfold setInputTensors
  rw [hcount]
  simp only
  cases hdecl : declareFrom cfg chance total (first :: rest) 0 first.inputs with
  | error f => rfl
  | ok declared =>
    cases declared with
    | error err => rfl
    | ok declared =>
      obtain rfl : declared = declaredInputs cfg total (first :: rest) := declareFrom_ok hdecl
      rfl

/-- **When `SetInputTensors` returns**: where it would if those calls delivered, and they do. -/
theorem setInputTensors_returns_iff {s : GraphState E} {responses : Responses}
    {x : Collecting E × Option TritonError} :
    setInputTensors cfg chance total requests s responses = .ok x ↔
      CallsDeliver cfg chance total requests s ∧
        setInputTensors cfg chance.delivering total requests s responses = .ok x := by
  cases hcount : chance.inputCount with
  | some err =>
    have hsame : setInputTensors cfg chance.delivering total requests s responses =
        setInputTensors cfg chance total requests s responses := by
      unfold setInputTensors
      rw [hcount, show chance.delivering.inputCount = some err from hcount]
    rw [hsame]
    refine ⟨fun h => ⟨⟨fun hnone => ?_, fun hnone => ?_⟩, h⟩, fun h => h.2⟩
    · rw [hcount] at hnone
      cases hnone
    · rw [hcount] at hnone
      cases hnone
  | none =>
    cases requests with
    | nil =>
      unfold setInputTensors
      rw [hcount, show chance.delivering.inputCount = none from hcount]
      simp
    | cons first rest =>
      rw [setInputTensors_cons chance hcount, setInputTensors_cons chance.delivering hcount, bind_ok, bind_ok]
      constructor
      · rintro ⟨declared, hdecl, h⟩
        have hfound := found_of_declareFrom hdecl
        obtain ⟨_, hdecl', hdelivering⟩ := declareFrom_found total hfound
        rw [hdecl] at hdecl'
        cases hdecl'
        have hragged : ∀ first' rest', first :: rest = first' :: rest' →
            RaggedFound cfg chance (first :: rest) 0 first'.inputs := by
          intro _ _ heq
          cases heq
          exact hfound
        cases declared with
        | error err =>
          refine ⟨⟨fun _ => hragged, fun _ first' rest' heq hgo => ?_⟩, _, hdelivering, h⟩
          cases heq
          obtain ⟨_, hno⟩ := (declareFrom_described hdecl).mpr hgo
          cases hno
        | ok declared =>
          obtain ⟨hbatch, h'⟩ := collectDeclared_returns_iff.mp h
          refine ⟨⟨fun _ => hragged, fun _ first' rest' heq _ => ?_⟩, _, hdelivering, h'⟩
          cases heq
          exact hbatch
      · rintro ⟨hdelivered, declared', hdecl', h⟩
        obtain ⟨declared, hdecl, hdelivering⟩ :=
          declareFrom_found total (hdelivered.ragged hcount first rest rfl)
        obtain rfl := Except.ok.inj (hdelivering.symm.trans hdecl')
        refine ⟨declared, hdecl, ?_⟩
        cases declared with
        | error err => exact h
        | ok declared =>
          have hdescribed := (declareFrom_described hdecl).mp ⟨declared, rfl⟩
          exact collectDeclared_returns_iff.mpr ⟨hdelivered.batchInputs hcount first rest rfl hdescribed, h⟩

end Call

end TritonAot
