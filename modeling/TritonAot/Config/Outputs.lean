import TritonAot.Config.Indices
import TritonAot.Instance.Requests
import TritonAot.Lib.Ordered

/-! The two readings of the output sections.

`ModelState::Create` reads the states and then the outputs into `model_outputs_`;
`ValidateOutputs` reads the outputs and then the states into `output_index_map_` and
`output_dtype_map_`. The names are the same (`modelOutputs_agree`), so that the loops
over `model_outputs_` find every name in the maps, and what the check of the indices
lets through is read inside the vector. -/
namespace TritonAot
open Ordered Overrides

/-! ### `ModelState::Create` -/

/-- `it->second.second = i`. -/
def ModelOutput.setState (i : Nat) (o : ModelOutput) : ModelOutput := {o with state := i}

/-- `it->second.first = i`. -/
def ModelOutput.setOutput (i : Nat) (o : ModelOutput) : ModelOutput := {o with output := i}

theorem ModelOutput.name_setState (i : Nat) (o : ModelOutput) : (o.setState i).name = o.name := rfl

theorem ModelOutput.name_setOutput (i : Nat) (o : ModelOutput) : (o.setOutput i).name = o.name := rfl

/-- The entry of a state: inserted with its position, or its second component set. -/
def addModelState (i : Nat) (outputStateName : String) (entries : List ModelOutput) : List ModelOutput :=
  put ModelOutput.name ⟨outputStateName, -1, i⟩ (ModelOutput.setState i) entries

/-- The entry of an output: inserted with its position, or its first component set. -/
def addModelOutput (i : Nat) (outputName : String) (entries : List ModelOutput) : List ModelOutput :=
  put ModelOutput.name ⟨outputName, i, -1⟩ (ModelOutput.setOutput i) entries

/-- A loop over names, from position `i` on. -/
def addFrom (add : Nat → String → List ModelOutput → List ModelOutput) :
    Nat → List String → List ModelOutput → List ModelOutput
  | _, [], entries => entries
  | i, name :: rest, entries => addFrom add (i + 1) rest (add i name entries)

def ModelConfig.outputNames (cfg : ModelConfig) : List String := cfg.output.map (·.name)

def ModelConfig.stateOutputNames (cfg : ModelConfig) : List String := cfg.states.map (·.outputName)

theorem ascending_addFrom {add : Nat → String → List ModelOutput → List ModelOutput}
    (hadd : ∀ i name entries, Ascending ModelOutput.name entries → Ascending ModelOutput.name (add i name entries))
    {i : Nat} {names : List String} {entries : List ModelOutput} (h : Ascending ModelOutput.name entries) :
    Ascending ModelOutput.name (addFrom add i names entries) := by
  induction names generalizing i entries with
  | nil => exact h
  | cons name rest ih => exact ih (hadd i name entries h)

/-- The part of `ModelState::Create` that fills `model_outputs_`. -/
def createModelOutputs (cfg : ModelConfig) : ModelOutputs where
  entries := addFrom addModelOutput 0 cfg.outputNames (addFrom addModelState 0 cfg.stateOutputNames [])
  ascending := ascending_addFrom (fun i _ _ => ascending_put (ModelOutput.name_setOutput i))
    (ascending_addFrom (fun i _ _ => ascending_put (ModelOutput.name_setState i)) .nil)

/-- A position of a name in a list as `model_outputs_` has it: the last one, or -1. -/
structure Placed (names : List String) (name : String) (v : Int) : Prop where
  last : ∀ i : Nat, LastAt names name i → v = i
  absent : name ∉ names → v = -1

theorem placed_append_self (names : List String) (name : String) :
    Placed (names ++ [name]) name names.length := by
  have hlast : LastAt [name] name 0 := ⟨rfl, fun j hj => by
    have := (List.getElem?_eq_some_iff.mp hj).1
    simpa using this⟩
  exact ⟨fun i hi => by rw [hi.unique hlast.append_right, Nat.add_zero], fun h => absurd (by simp) h⟩

theorem Placed.append_other {names : List String} {name other : String} {v : Int} (h : Placed names name v)
    (hne : name ≠ other) : Placed (names ++ [other]) name v := by
  have hnot : name ∉ [other] := by simpa using hne
  constructor
  · intro i hi
    have hmem : name ∈ names := (List.mem_append.mp hi.mem).resolve_right hnot
    obtain ⟨j, hj⟩ := exists_lastAt hmem
    rw [h.last j hj, (hj.append hnot).unique hi]
  · exact fun habsent => h.absent fun hmem => habsent (List.mem_append_left _ hmem)

/-- Entries that list the names read so far. -/
structure Lists (states outputs : List String) (entries : List ModelOutput) : Prop where
  ascending : Ascending ModelOutput.name entries
  names : ∀ name, (∃ o ∈ entries, o.name = name) ↔ name ∈ states ∨ name ∈ outputs
  output : ∀ o ∈ entries, Placed outputs o.name o.output
  state : ∀ o ∈ entries, Placed states o.name o.state

theorem Lists.addModelState {states outputs : List String} {entries : List ModelOutput}
    (h : Lists states outputs entries) (name : String) :
    Lists (states ++ [name]) outputs (addModelState states.length name entries) where
  ascending := ascending_put (ModelOutput.name_setState _) h.ascending
  names k := by
    refine (exists_put h.ascending (ModelOutput.name_setState _)).trans ?_
    rw [h.names, List.mem_append, List.mem_singleton]
    tauto
  output o ho := by
    rcases mem_put_cases h.ascending (ModelOutput.name_setState _) ho with ⟨_, hold⟩ | ⟨b, hb, _, rfl⟩ | ⟨hnone, rfl⟩
    · exact h.output o hold
    · exact h.output b hb
    · have hnot : name ∉ outputs := by
        intro hmem
        obtain ⟨b, hb, hname⟩ := (h.names name).mpr (.inr hmem)
        exact hnone b hb hname
      exact ⟨fun i hi => absurd hi.mem hnot, fun _ => rfl⟩
  state o ho := by
    rcases mem_put_cases h.ascending (ModelOutput.name_setState _) ho with ⟨hne, hold⟩ | ⟨b, _, hb, rfl⟩ | ⟨_, rfl⟩
    · exact (h.state o hold).append_other hne
    · change b.name = name at hb
      show Placed (states ++ [name]) b.name states.length
      rw [hb]
      exact placed_append_self states name
    · exact placed_append_self states name

theorem Lists.addModelOutput {states outputs : List String} {entries : List ModelOutput}
    (h : Lists states outputs entries) (name : String) :
    Lists states (outputs ++ [name]) (addModelOutput outputs.length name entries) where
  ascending := ascending_put (ModelOutput.name_setOutput _) h.ascending
  names k := by
    refine (exists_put h.ascending (ModelOutput.name_setOutput _)).trans ?_
    rw [h.names, List.mem_append, List.mem_singleton]
    tauto
  output o ho := by
    rcases mem_put_cases h.ascending (ModelOutput.name_setOutput _) ho with ⟨hne, hold⟩ | ⟨b, _, hb, rfl⟩ | ⟨_, rfl⟩
    · exact (h.output o hold).append_other hne
    · change b.name = name at hb
      show Placed (outputs ++ [name]) b.name outputs.length
      rw [hb]
      exact placed_append_self outputs name
    · exact placed_append_self outputs name
  state o ho := by
    rcases mem_put_cases h.ascending (ModelOutput.name_setOutput _) ho with ⟨_, hold⟩ | ⟨b, hb, _, rfl⟩ | ⟨hnone, rfl⟩
    · exact h.state o hold
    · exact h.state b hb
    · have hnot : name ∉ states := by
        intro hmem
        obtain ⟨b, hb, hname⟩ := (h.names name).mpr (.inl hmem)
        exact hnone b hb hname
      exact ⟨fun i hi => absurd hi.mem hnot, fun _ => rfl⟩

theorem Lists.addStates {states : List String} {entries : List ModelOutput} (h : Lists states [] entries)
    (names : List String) :
    Lists (states ++ names) [] (addFrom TritonAot.addModelState states.length names entries) := by
  induction names generalizing states entries with
  | nil => rwa [List.append_nil]
  | cons name rest ih =>
    have hrest := ih (h.addModelState name)
    rwa [List.length_append, List.length_singleton, List.append_assoc] at hrest

theorem Lists.addOutputs {states outputs : List String} {entries : List ModelOutput}
    (h : Lists states outputs entries) (names : List String) :
    Lists states (outputs ++ names) (addFrom TritonAot.addModelOutput outputs.length names entries) := by
  induction names generalizing outputs entries with
  | nil => rwa [List.append_nil]
  | cons name rest ih =>
    have hrest := ih (h.addModelOutput name)
    rwa [List.length_append, List.length_singleton, List.append_assoc] at hrest

/-- What `ModelState::Create` makes of a configuration. -/
theorem lists_createModelOutputs (cfg : ModelConfig) :
    Lists cfg.stateOutputNames cfg.outputNames (createModelOutputs cfg).entries := by
  have hnone : Lists [] [] [] :=
    ⟨.nil, fun name => by simp, fun o ho => by simp at ho, fun o ho => by simp at ho⟩
  have hstates := hnone.addStates cfg.stateOutputNames
  have houtputs := hstates.addOutputs cfg.outputNames
  exact houtputs

/-! ### `ValidateOutputs` -/

variable {cfg : ModelConfig} {maps : OutputMaps}

theorem addOutputsFrom_ok {convention : NamingConvention} {i : Nat} {ios : List IoConfig} {maps' : OutputMaps}
    (h : addOutputsFrom cfg convention i ios maps = .ok maps') :
    maps'.indexMap = assignAll maps.indexMap (numbered convention.indexOf i (ios.map (·.name))) ∧
      maps'.dtypeMap.map Prod.fst = (ios.map (·.name)).reverse ++ maps.dtypeMap.map Prod.fst := by
  induction ios generalizing i maps with
  | nil =>
    cases h
    exact ⟨rfl, rfl⟩
  | cons io rest ih =>
    obtain ⟨opIndex, hindex, h⟩ := bind_ok.mp h
    obtain ⟨dtype, _, h⟩ := bind_ok.mp h
    obtain ⟨hindexMap, hdtypeMap⟩ := ih h
    rw [hindexMap, hdtypeMap, indexByConvention_ok (mapError_ok.mp hindex)]
    simp

theorem addOutputStates_ok {states : List StateConfig} {maps' : OutputMaps} {i : Nat}
    (h : addOutputStates cfg states maps = .ok maps') :
    maps'.indexMap = assignAll maps.indexMap
        (numbered NamingConvention.namedIndex.indexOf i (states.map (·.outputName))) ∧
      maps'.dtypeMap.map Prod.fst = (states.map (·.outputName)).reverse ++ maps.dtypeMap.map Prod.fst := by
  induction states generalizing i maps with
  | nil =>
    cases h
    exact ⟨rfl, rfl⟩
  | cons state rest ih =>
    obtain ⟨_, _, h⟩ := bind_ok.mp h
    obtain ⟨opIndex, hindex, h⟩ := bind_ok.mp h
    obtain ⟨dtype, _, h⟩ := bind_ok.mp h
    obtain ⟨hindexMap, hdtypeMap⟩ := ih (i := i + 1) h
    rw [hindexMap, hdtypeMap, indexByConvention_ok (mapError_ok.mp hindex)]
    simp [NamingConvention.indexOf]

/-- Both maps are written under the same names: the outputs', then the states'. -/
theorem validateOutputs_ok (h : validateOutputs cfg = .ok maps) :
    ∃ convention, getNamingConvention cfg [] = .ok convention ∧
      maps.indexMap = assignAll [] (numbered convention.indexOf 0 cfg.outputNames ++
        numbered NamingConvention.namedIndex.indexOf 0 cfg.stateOutputNames) ∧
      maps.dtypeMap.map Prod.fst = maps.indexMap.map Prod.fst := by
  unfold validateOutputs at h
  split at h
  · cases h
  · obtain ⟨convention, hconvention, h⟩ := bind_ok.mp h
    obtain ⟨maps₁, houtputs, hstates⟩ := bind_ok.mp h
    obtain ⟨hindex, hdtype⟩ := addOutputsFrom_ok houtputs
    obtain ⟨hindex', hdtype'⟩ := addOutputStates_ok (i := 0) hstates
    refine ⟨convention, mapError_ok.mp hconvention, ?_, ?_⟩
    · rw [hindex', hindex, assignAll_append]
      rfl
    · rw [hdtype', hdtype, hindex', hindex, map_fst_assignAll, map_fst_assignAll, map_fst_numbered,
        map_fst_numbered]
      rfl

theorem mem_indexMap_names (h : validateOutputs cfg = .ok maps) (name : String) :
    name ∈ maps.indexMap.map Prod.fst ↔ name ∈ cfg.stateOutputNames ∨ name ∈ cfg.outputNames := by
  obtain ⟨_, _, hindex, _⟩ := validateOutputs_ok h
  rw [hindex, map_fst_assignAll, List.map_append, map_fst_numbered, map_fst_numbered]
  simp [or_comm]

theorem constructMaps_outputs {io : IoMaps} (h : constructMaps cfg = .ok io) :
    validateOutputs cfg = .ok io.outputs := by
  obtain ⟨_, _, h⟩ := bind_ok.mp h
  obtain ⟨_, _, h⟩ := bind_ok.mp h
  obtain ⟨outputs, houtputs, h⟩ := bind_ok.mp h
  cases h
  exact houtputs

/-! ### Reading the outputs of a batch -/

section Reading
variable {E : Type} [Scalars E] {c : Config E}

/-- The instance has read the output sections; `operator[]` of a map makes a zero under a
name that is not there. -/
structure Config.HasReadOutputs (c : Config E) (cfg : ModelConfig) (maps : OutputMaps) : Prop where
  modelOutputs : c.modelOutputs = createModelOutputs cfg
  outputIndexMap : ∀ name, c.outputIndexMap name = (maps.indexMap.lookup name).getD 0
  outputDtypeMap : ∀ name, c.outputDtypeMap name = (maps.dtypeMap.lookup name).getD .invalid

/-- A name is read through indices that the constructor has put into the maps, and
inside the vector. -/
structure ReadInside (c : Config E) (maps : OutputMaps) (outputs : List (Tensor E)) (name : String) : Prop where
  index : ∃ i : Nat, maps.indexMap.lookup name = some (i : Int) ∧ i < outputs.length ∧
    outputAt c outputs name = outputs[i]?
  dtype : ∃ d, maps.dtypeMap.lookup name = some d ∧ c.outputDtypeMap name = d

/-- What the check lets through is read inside the vector. -/
theorem readInside_of_verify (hread : c.HasReadOutputs cfg maps) (h : validateOutputs cfg = .ok maps)
    {chance : RequestChance} {v : Serving E} (hgo : (v.verify c chance).answering.allFailed = false) :
    ∀ o ∈ c.modelOutputs.entries, ReadInside c maps v.outputs o.name := by
  intro o ho
  have hvalid := List.find?_eq_none.mp (invalidIndex_verify hgo) o ho
  simp only [decide_eq_true_eq, not_or, not_lt, not_le] at hvalid
  obtain ⟨hnonneg, hlt⟩ := hvalid
  have hname : o.name ∈ maps.indexMap.map Prod.fst := by
    rw [mem_indexMap_names h, ← (lists_createModelOutputs cfg).names]
    exact ⟨o, hread.modelOutputs ▸ ho, rfl⟩
  obtain ⟨_, _, _, hkeys⟩ := validateOutputs_ok h
  obtain ⟨v', hv⟩ := exists_lookup hname
  obtain ⟨d, hd⟩ := exists_lookup (hkeys ▸ hname)
  have hindex : c.outputIndexMap o.name = v' := by rw [hread.outputIndexMap, hv, Option.getD_some]
  have hdtype : c.outputDtypeMap o.name = d := by rw [hread.outputDtypeMap, hd, Option.getD_some]
  rw [hindex] at hnonneg hlt
  obtain ⟨i, rfl⟩ : ∃ i : Nat, v' = i := ⟨v'.toNat, (Int.toNat_of_nonneg hnonneg).symm⟩
  refine ⟨⟨i, hv, by omega, ?_⟩, d, hd, hdtype⟩
  rw [outputAt, hindex, if_neg (by omega), Int.toNat_natCast]

end Reading

/-- **The two readings of the output sections agree**: the same names, each at its last
place among the outputs and among the states. A batch that gets as far as its outputs
has them read inside the vector, through indices that were read from the configuration. -/
theorem modelOutputs_agree {io : IoMaps} (h : constructMaps cfg = .ok io) :
    (∀ name, ((∃ o ∈ (createModelOutputs cfg).entries, o.name = name) ↔
        name ∈ io.outputs.indexMap.map Prod.fst) ∧
      (name ∈ io.outputs.dtypeMap.map Prod.fst ↔ name ∈ io.outputs.indexMap.map Prod.fst)) ∧
    (∀ o ∈ (createModelOutputs cfg).entries, Placed cfg.outputNames o.name o.output ∧
      Placed cfg.stateOutputNames o.name o.state ∧ ¬ (o.output = -1 ∧ o.state = -1)) ∧
    ∀ (E : Type) [Scalars E] (c : Config E), c.HasReadOutputs cfg io.outputs →
      ∀ (forward : List (Tensor E) → List (Tensor E)) (chance : RequestChance) (total : Nat)
        (requests : List (Request E)) (a : Answering) (s : GraphState E) (v : Serving E),
        serveModel c forward chance total requests a s = .ok v →
        ((v.verify c chance).answering.allFailed = false →
            ∀ o ∈ c.modelOutputs.entries, ReadInside c io.outputs v.outputs o.name) ∧
          ∃ v', serve c forward chance total requests a s = .ok v' := by
  have houtputs := constructMaps_outputs h
  have hlists := lists_createModelOutputs cfg
  obtain ⟨_, _, _, hkeys⟩ := validateOutputs_ok houtputs
  refine ⟨fun name => ⟨?_, by rw [hkeys]⟩, fun o ho => ?_, ?_⟩
  · rw [mem_indexMap_names houtputs, hlists.names]
  · refine ⟨hlists.output o ho, hlists.state o ho, fun ⟨houtput, hstate⟩ => ?_⟩
    -- a name that is listed has a last place in one of the two sections
    rcases (hlists.names o.name).mp ⟨o, ho, rfl⟩ with hmem | hmem
    · obtain ⟨i, hi⟩ := exists_lastAt hmem
      have := (hlists.state o ho).last i hi
      omega
    · obtain ⟨i, hi⟩ := exists_lastAt hmem
      have := (hlists.output o ho).last i hi
      omega
  · intro E _ c hread forward chance total requests a s v hv
    refine ⟨readInside_of_verify hread houtputs, ?_⟩
    obtain ⟨v', hv'⟩ : ∃ v', readOutputs c chance (v.verify c chance) = .ok v' :=
      readOutputs_returns fun hgo => by
        rw [(verify_frame c chance v).1]
        exact invalidIndex_verify hgo
    exact ⟨v', by rw [serve_eq, hv]; exact hv'⟩

/-- An output that is there twice, and a state that is an output too. -/
def sharedNames : ModelConfig where
  name := "model"
  input := [⟨"IN__0", "TYPE_FP32"⟩]
  output := [⟨"OUT__0", "TYPE_FP32"⟩, ⟨"STATE__1", "TYPE_FP32"⟩, ⟨"OUT__0", "TYPE_FP16"⟩]
  sequenceBatching := some ⟨some [⟨"IN__1", "STATE__1", "TYPE_FP32", .ok [1]⟩], fun _ => .ok ("", "")⟩
  batchInput := []

theorem modelOutputs_agree_shared :
    (createModelOutputs sharedNames).entries = [⟨"OUT__0", 2, -1⟩, ⟨"STATE__1", 1, 0⟩] ∧
      Placed ["OUT__0", "STATE__1", "OUT__0"] "OUT__0" 2 ∧ Placed ["STATE__1"] "OUT__0" (-1) := by
  have hconstruct : constructMaps sharedNames = .ok ⟨[("IN__1", 1), ("IN__0", 0)], 0,
    [("STATE__1", 1), ("OUT__0", 0), ("STATE__1", 1), ("OUT__0", 0)],
    [("STATE__1", .fp32), ("OUT__0", .fp16), ("STATE__1", .fp32), ("OUT__0", .fp32)]⟩ := rfl
  have hentries : (createModelOutputs sharedNames).entries = [⟨"OUT__0", 2, -1⟩, ⟨"STATE__1", 1, 0⟩] := by
    decide
  have hplaced := (modelOutputs_agree hconstruct).2.1 ⟨"OUT__0", 2, -1⟩ (by rw [hentries]; exact List.mem_cons_self ..)
  exact ⟨hentries, hplaced.1, hplaced.2.1⟩

end TritonAot
