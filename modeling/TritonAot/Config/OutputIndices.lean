import TritonAot.Config.Outputs

/-! Which tensor an output is served from.

`ValidateOutputs` numbers the outputs by their names or by their places, and
`ProcessRequests` answers a batch with an error where a number is no index of the
model's outputs. Between the name and the check stands `std::atoi`, which keeps 32 bits
of a number: `validateOutputs_serves_iff` says when the names still decide. -/
namespace TritonAot
open Overrides

/-! ### What is left of a number -/

/-- A number as `strtol` bounds it and an `int` keeps it. -/
def kept (n : Nat) : Int := (min 9223372036854775807 (n : Int)).bmod 4294967296

theorem kept_eq_iff (n : Nat) : kept n = n ↔ n ≤ 2147483647 := by
  unfold kept
  constructor
  · intro h
    have hlt := Int.bmod_lt (x := min 9223372036854775807 (n : Int)) (show 0 < 4294967296 by decide)
    omega
  · intro h
    rw [Int.min_eq_right (by omega)]
    exact Int.bmod_eq_of_le_mul_two (by omega) (by omega)

/-- What is read off a name is what is left of its number. -/
theorem nameIndex_kept {name : String} (h : followsConvention name = true) :
    nameIndex name = kept (number (indexStr name)) := by
  have hdigits := followsConvention_digits h
  have hstrtol : strtol (indexStr name) = min 9223372036854775807 (number (indexStr name) : Int) := by
    simp only [strtol, readSign_digits hdigits, Bool.false_eq_true, if_false, readDigits_number hdigits]
  rw [nameIndex, atoi, hstrtol, kept]

/-! ### The index of an output -/

/-- The names an instance serves outputs under: those of the output section and those
of the states. -/
def ModelConfig.servedNames (cfg : ModelConfig) : List String := cfg.outputNames ++ cfg.stateOutputNames

/-- Every name is `<name>__<digits>`. -/
def ModelConfig.OutputsCarryIndex (cfg : ModelConfig) : Prop :=
  ∀ name ∈ cfg.servedNames, carriesIndex name = true

variable {cfg : ModelConfig} {maps : OutputMaps}

theorem outputsFollow_iff : cfg.OutputsFollow ↔ ∀ name ∈ cfg.outputNames, followsConvention name = true := by
  simp [ModelConfig.OutputsFollow, ModelConfig.outputNames]

/-- Where the outputs follow the convention, every index is read off its name. -/
theorem lookup_output_named (h : validateOutputs cfg = .ok maps) (houtputs : cfg.OutputsFollow)
    {name : String} (hname : name ∈ cfg.servedNames) : maps.indexMap.lookup name = some (nameIndex name) := by
  obtain ⟨convention, hconvention, hindex, _⟩ := validateOutputs_ok h
  rcases getNamingConvention_cases hconvention with ⟨rfl, _⟩ | ⟨_, hnot, _⟩
  · rw [hindex]
    refine lookup_function (fun w hw => ?_) ?_
    · rcases List.mem_append.mp hw with hw | hw
      · obtain ⟨_, h⟩ := snd_of_mem_numbered hw
        exact h
      · obtain ⟨_, h⟩ := snd_of_mem_numbered hw
        exact h
    · rw [List.map_append, map_fst_numbered, map_fst_numbered]
      exact hname
  · exact absurd houtputs hnot

/-- Otherwise there are no states, and it is the last place of the name. -/
theorem lookup_output_strict (h : validateOutputs cfg = .ok maps) (houtputs : ¬ cfg.OutputsFollow) :
    cfg.states = [] ∧ ∀ (name : String) (i : Nat), LastAt cfg.outputNames name i →
      maps.indexMap.lookup name = some (i : Int) := by
  obtain ⟨convention, hconvention, hindex, _⟩ := validateOutputs_ok h
  rcases getNamingConvention_cases hconvention with ⟨_, hfollow⟩ | ⟨rfl, _, hstates⟩
  · exact absurd hfollow houtputs
  · refine ⟨hstates, fun name i hi => ?_⟩
    rw [hindex, ModelConfig.stateOutputNames, hstates, List.map_nil, numbered_nil, List.append_nil]
    exact lookup_numbered hi []

/-- A state's output follows the convention where the outputs do. -/
theorem stateOutputs_follow (h : validateOutputs cfg = .ok maps) (houtputs : cfg.OutputsFollow) :
    ∀ name ∈ cfg.servedNames, followsConvention name = true := by
  obtain ⟨convention, hconvention, _, _⟩ := validateOutputs_ok h
  intro name hname
  rcases List.mem_append.mp hname with hname | hname
  · exact outputsFollow_iff.mp houtputs name hname
  · have hfollow : cfg.output.all (followsConvention ·.name) = true := List.all_eq_true.mpr houtputs
    simp only [getNamingConvention, List.isEmpty_nil, if_true, if_pos hfollow] at hconvention
    cases hstate : cfg.state? with
    | none =>
      rw [ModelConfig.stateOutputNames, ModelConfig.states, hstate] at hname
      cases hname
    | some states =>
      rw [hstate] at hconvention
      simp only [ne_eq, not_true_eq_false, if_false] at hconvention
      split at hconvention
      · cases hconvention
      · rename_i hnone
        rw [ModelConfig.stateOutputNames, ModelConfig.states, hstate, Option.getD_some] at hname
        simpa using List.find?_eq_none.mp hnone name hname

/-! ### Whether the names decide -/

/-- There is no tensor at the index, of `k`. -/
def Missed (k : Nat) (index : Int) : Prop := index < 0 ∨ (k : Int) ≤ index

section Instance
variable {E : Type} [Scalars E] {c : Config E} {k : Nat}

/-- A batch that the model returned `k` tensors for is answered with an error. -/
def IndexFails (c : Config E) (k : Nat) : Prop := (invalidIndex c k).isSome

/-- The error is the one of the check, and it is answered where the check is made. -/
theorem checkOutputIndices_fails_iff {v : Serving E} (h : v.answering.allFailed = false) :
    (checkOutputIndices c v).answering.allFailed = true ↔ IndexFails c v.outputs.length := by
  rw [checkOutputIndices, if_neg (by rw [h]; exact Bool.false_ne_true), IndexFails]
  cases invalidIndex c v.outputs.length with
  | none => exact ⟨fun hall => absurd (h.symm.trans hall) Bool.false_ne_true, fun hsome => (by cases hsome)⟩
  | some o => exact ⟨fun _ => rfl, fun _ => rfl⟩

/-- The batch fails exactly where some name's number is no index of a tensor, and
otherwise every name is served from the tensor of its number. -/
structure ServedByNumber (c : Config E) (names : List String) (k : Nat) : Prop where
  fails : IndexFails c k ↔ ∃ name ∈ names, k ≤ number (indexStr name)
  served : ¬ IndexFails c k → ∀ name ∈ names, c.outputIndexMap name = number (indexStr name)

/-- A batch that does not fail has every output served from the tensor at its place. -/
def ServedByPlace (c : Config E) (names : List String) (k : Nat) : Prop :=
  ¬ IndexFails c k → ∀ (i : Nat) (name : String), names[i]? = some name → c.outputIndexMap name = i

theorem indexFails_iff (hread : c.HasReadOutputs cfg maps) :
    IndexFails c k ↔ ∃ name ∈ cfg.servedNames, Missed k (c.outputIndexMap name) := by
  have hnames : ∀ name, (∃ o ∈ c.modelOutputs.entries, o.name = name) ↔ name ∈ cfg.servedNames := by
    intro name
    rw [hread.modelOutputs, (lists_createModelOutputs cfg).names, ModelConfig.servedNames, List.mem_append,
      or_comm]
  rw [IndexFails, invalidIndex, List.find?_isSome]
  simp only [decide_eq_true_eq]
  constructor
  · intro hmissed
    obtain ⟨o, ho, hindex⟩ := hmissed
    exact ⟨o.name, (hnames o.name).mp ⟨o, ho, rfl⟩, hindex⟩
  · intro hmissed
    obtain ⟨name, hname, hindex⟩ := hmissed
    obtain ⟨o, ho, rfl⟩ := (hnames name).mpr hname
    exact ⟨o, ho, hindex⟩

/-- The 32 bits that are kept of the numbers are as good as the numbers. -/
def NumbersKept (names : List String) (k : Nat) : Prop :=
  (∀ name ∈ names, number (indexStr name) < k ∧ FitsInt name) ∨
    (∃ name ∈ names, k ≤ number (indexStr name)) ∧ ∃ name ∈ names, Missed k (kept (number (indexStr name)))

/-- When the names of the outputs decide what they are served from, for `k` tensors. -/
structure IndicesKept (cfg : ModelConfig) (k : Nat) : Prop where
  numbers : cfg.OutputsCarryIndex → NumbersKept cfg.servedNames k
  /-- Names without a digit behind their `__` follow the convention too. -/
  read : ¬ cfg.OutputsCarryIndex → cfg.states = [] → cfg.OutputsFollow →
    (∃ name ∈ cfg.outputNames, Missed k (kept (number (indexStr name)))) ∨
      ∀ (i : Nat) (name : String), cfg.outputNames[i]? = some name → kept (number (indexStr name)) = i
  placed : ¬ cfg.OutputsFollow → k < cfg.outputNames.length ∨ cfg.outputNames.Nodup

theorem outputIndexMap_named (h : validateOutputs cfg = .ok maps) (hread : c.HasReadOutputs cfg maps)
    (houtputs : cfg.OutputsFollow) {name : String} (hname : name ∈ cfg.servedNames) :
    c.outputIndexMap name = kept (number (indexStr name)) := by
  rw [hread.outputIndexMap, lookup_output_named h houtputs hname, Option.getD_some,
    nameIndex_kept (stateOutputs_follow h houtputs name hname)]

theorem indexFails_named_iff (h : validateOutputs cfg = .ok maps) (hread : c.HasReadOutputs cfg maps)
    (houtputs : cfg.OutputsFollow) :
    IndexFails c k ↔ ∃ name ∈ cfg.servedNames, Missed k (kept (number (indexStr name))) := by
  rw [indexFails_iff hread]
  exact exists_congr fun name => and_congr_right fun hname => by
    rw [outputIndexMap_named h hread houtputs hname]

/-- Without a state the output section has all the names that are served. -/
theorem servedNames_of_no_states (hstates : cfg.states = []) : cfg.servedNames = cfg.outputNames := by
  rw [ModelConfig.servedNames, ModelConfig.stateOutputNames, hstates, List.map_nil, List.append_nil]

theorem servedByNumber_iff (h : validateOutputs cfg = .ok maps) (hread : c.HasReadOutputs cfg maps)
    (houtputs : cfg.OutputsFollow) :
    ServedByNumber c cfg.servedNames k ↔ NumbersKept cfg.servedNames k := by
  have hindex : ∀ name ∈ cfg.servedNames, c.outputIndexMap name = kept (number (indexStr name)) :=
    fun name hname => outputIndexMap_named h hread houtputs hname
  have hfails : IndexFails c k ↔ ∃ name ∈ cfg.servedNames, Missed k (kept (number (indexStr name))) :=
    indexFails_named_iff h hread houtputs
  constructor
  · intro hserved
    by_cases hfail : IndexFails c k
    · exact .inr ⟨hserved.fails.mp hfail, hfails.mp hfail⟩
    · refine .inl fun name hname => ⟨?_, ?_⟩
      · by_contra hlarge
        exact hfail (hserved.fails.mpr ⟨name, hname, by omega⟩)
      · have hnumber := hserved.served hfail name hname
        rw [hindex name hname] at hnumber
        exact (kept_eq_iff _).mp hnumber
  · intro hkept
    rcases hkept with hall | ⟨hlarge, hmissed⟩
    · -- every index is the number itself, and there is a tensor for it
      have hsame : ∀ name ∈ cfg.servedNames, kept (number (indexStr name)) = number (indexStr name) :=
        fun name hname => (kept_eq_iff _).mpr (hall name hname).2
      have hpass : ¬ IndexFails c k := by
        intro hfail
        obtain ⟨name, hname, hmissed⟩ := hfails.mp hfail
        rw [hsame name hname] at hmissed
        have := (hall name hname).1
        rcases hmissed with hneg | hle
        · omega
        · omega
      refine ⟨⟨fun hfail => absurd hfail hpass, fun hlarge => ?_⟩, fun _ name hname => ?_⟩
      · obtain ⟨name, hname, hle⟩ := hlarge
        have := (hall name hname).1
        omega
      · rw [hindex name hname, hsame name hname]
    · exact ⟨⟨fun _ => hlarge, fun _ => hfails.mpr hmissed⟩, fun hpass => absurd (hfails.mpr hmissed) hpass⟩

theorem servedByPlace_named_iff (h : validateOutputs cfg = .ok maps) (hread : c.HasReadOutputs cfg maps)
    (houtputs : cfg.OutputsFollow) (hstates : cfg.states = []) :
    ServedByPlace c cfg.outputNames k ↔
      (∃ name ∈ cfg.outputNames, Missed k (kept (number (indexStr name)))) ∨
        ∀ (i : Nat) (name : String), cfg.outputNames[i]? = some name → kept (number (indexStr name)) = i := by
  have hserved := servedNames_of_no_states hstates
  have hindex : ∀ name ∈ cfg.outputNames, c.outputIndexMap name = kept (number (indexStr name)) :=
    fun name hname => outputIndexMap_named h hread houtputs (hserved ▸ hname)
  have hfails : IndexFails c k ↔ ∃ name ∈ cfg.outputNames, Missed k (kept (number (indexStr name))) := by
    rw [indexFails_named_iff h hread houtputs, hserved]
  have hplaces : (∀ (i : Nat) (name : String), cfg.outputNames[i]? = some name → c.outputIndexMap name = i) ↔
      ∀ (i : Nat) (name : String), cfg.outputNames[i]? = some name → kept (number (indexStr name)) = i := by
    refine forall_congr' fun i => forall_congr' fun name => imp_congr_right fun hi => ?_
    rw [hindex name (List.mem_of_getElem? hi)]
  rw [ServedByPlace, hfails, hplaces]
  exact or_iff_not_imp_left.symm

theorem outputIndexMap_strict (h : validateOutputs cfg = .ok maps) (hread : c.HasReadOutputs cfg maps)
    (houtputs : ¬ cfg.OutputsFollow) {name : String} {i : Nat} (hi : LastAt cfg.outputNames name i) :
    c.outputIndexMap name = i := by
  rw [hread.outputIndexMap, (lookup_output_strict h houtputs).2 name i hi, Option.getD_some]

/-- Names that are read by place miss a tensor where there are fewer tensors than names. -/
theorem indexFails_strict_iff (h : validateOutputs cfg = .ok maps) (hread : c.HasReadOutputs cfg maps)
    (houtputs : ¬ cfg.OutputsFollow) : IndexFails c k ↔ k < cfg.outputNames.length := by
  rw [indexFails_iff hread, servedNames_of_no_states (lookup_output_strict h houtputs).1]
  constructor
  · intro hmissed
    obtain ⟨name, hname, hmissed⟩ := hmissed
    obtain ⟨i, hi⟩ := exists_lastAt hname
    have hlt := hi.lt
    rw [outputIndexMap_strict h hread houtputs hi] at hmissed
    rcases hmissed with hneg | hle
    · omega
    · omega
  · -- the last name of the section is at its last place
    intro hlt
    have hlen : cfg.outputNames.length - 1 < cfg.outputNames.length := by omega
    have hlast : LastAt cfg.outputNames (cfg.outputNames[cfg.outputNames.length - 1])
        (cfg.outputNames.length - 1) := by
      refine ⟨List.getElem?_eq_getElem hlen, fun j hj => ?_⟩
      have := (List.getElem?_eq_some_iff.mp hj).1
      omega
    refine ⟨_, hlast.mem, ?_⟩
    rw [outputIndexMap_strict h hread houtputs hlast]
    exact .inr (by omega)

/-- Each of them has its own place where none is repeated. -/
theorem places_strict_iff (h : validateOutputs cfg = .ok maps) (hread : c.HasReadOutputs cfg maps)
    (houtputs : ¬ cfg.OutputsFollow) :
    (∀ (i : Nat) (name : String), cfg.outputNames[i]? = some name → c.outputIndexMap name = i) ↔
      cfg.outputNames.Nodup := by
  have hiff : ∀ (i : Nat) (name : String), cfg.outputNames[i]? = some name →
      (c.outputIndexMap name = i ↔ LastAt cfg.outputNames name i) := by
    intro i name hi
    obtain ⟨j, hj⟩ := exists_lastAt (List.mem_of_getElem? hi)
    refine ⟨fun hsame => ?_, fun hlast => outputIndexMap_strict h hread houtputs hlast⟩
    rw [outputIndexMap_strict h hread houtputs hj, Int.natCast_inj] at hsame
    exact hsame ▸ hj
  have hall : (∀ (i : Nat) (x : String), cfg.outputNames[i]? = some x → LastAt (cfg.outputNames ++ []) x i) ↔
      cfg.outputNames.Nodup ∧ ∀ y ∈ ([] : List String), y ∉ cfg.outputNames := lastAt_all_iff
  simp only [List.append_nil, List.not_mem_nil, false_imp_iff, implies_true, and_true] at hall
  rw [← hall]
  exact forall_congr' fun i => forall_congr' fun name => imp_congr_right fun hi => hiff i name hi

theorem servedByPlace_strict_iff (h : validateOutputs cfg = .ok maps) (hread : c.HasReadOutputs cfg maps)
    (houtputs : ¬ cfg.OutputsFollow) :
    ServedByPlace c cfg.outputNames k ↔ k < cfg.outputNames.length ∨ cfg.outputNames.Nodup := by
  rw [ServedByPlace, indexFails_strict_iff h hread houtputs, places_strict_iff h hread houtputs]
  exact or_iff_not_imp_left.symm

end Instance

/-- **The names of the outputs decide what they are served from exactly where the numbers
survive `atoi` and the places are the names' only ones.** -/
theorem validateOutputs_serves_iff (h : validateOutputs cfg = .ok maps) (k : Nat) {E : Type} [Scalars E]
    {c : Config E} (hread : c.HasReadOutputs cfg maps) :
    (((cfg.OutputsCarryIndex → ServedByNumber c cfg.servedNames k) ∧
        (¬ cfg.OutputsCarryIndex → cfg.states = [] → ServedByPlace c cfg.outputNames k)) ↔ IndicesKept cfg k) ∧
      ∀ v : Serving E, v.answering.allFailed = false →
        ((checkOutputIndices c v).answering.allFailed = true ↔ IndexFails c v.outputs.length) := by
  refine ⟨?_, fun v hv => checkOutputIndices_fails_iff hv⟩
  have hfollow : cfg.OutputsCarryIndex → cfg.OutputsFollow := fun hcarry =>
    outputsFollow_iff.mpr fun name hname => carriesIndex_follows (hcarry name (List.mem_append_left _ hname))
  constructor
  · intro ⟨hnumbers, hplaces⟩
    refine ⟨fun hcarry => (servedByNumber_iff h hread (hfollow hcarry)).mp (hnumbers hcarry),
      fun hnot hstates houtputs => ?_, fun houtputs => ?_⟩
    · exact (servedByPlace_named_iff h hread houtputs hstates).mp (hplaces hnot hstates)
    · have hnot : ¬ cfg.OutputsCarryIndex := fun hcarry => houtputs (hfollow hcarry)
      exact (servedByPlace_strict_iff h hread houtputs).mp (hplaces hnot (lookup_output_strict h houtputs).1)
  · intro hkept
    refine ⟨fun hcarry => (servedByNumber_iff h hread (hfollow hcarry)).mpr (hkept.numbers hcarry),
      fun hnot hstates => ?_⟩
    by_cases houtputs : cfg.OutputsFollow
    · exact (servedByPlace_named_iff h hread houtputs hstates).mpr (hkept.read hnot hstates houtputs)
    · exact (servedByPlace_strict_iff h hread houtputs).mpr (hkept.placed houtputs)

/-- A model with one output. -/
def oneOutput (name : String) : ModelConfig :=
  ⟨"model", [⟨"IN__0", "TYPE_FP32"⟩], [⟨name, "TYPE_FP32"⟩], none, []⟩

/-- An instance that has read it. -/
def servesOne (name : String) (maps : OutputMaps) : Config Int :=
  {Config.bare Int with
    modelOutputs := createModelOutputs (oneOutput name)
    outputIndexMap := fun name => (maps.indexMap.lookup name).getD 0
    outputDtypeMap := fun name => (maps.dtypeMap.lookup name).getD .invalid}

theorem servesOne_hasRead (name : String) (maps : OutputMaps) :
    (servesOne name maps).HasReadOutputs (oneOutput name) maps := ⟨rfl, fun _ => rfl, fun _ => rfl⟩

/-- The number of the first tensor, as its name gives it. -/
theorem validateOutputs_serves_first :
    ServedByNumber (servesOne "OUT__0" ⟨[("OUT__0", 0)], [("OUT__0", .fp32)]⟩) ["OUT__0"] 1 := by
  have h : validateOutputs (oneOutput "OUT__0") = .ok ⟨[("OUT__0", 0)], [("OUT__0", .fp32)]⟩ := rfl
  have hcarry : (oneOutput "OUT__0").OutputsCarryIndex := by
    show ∀ name ∈ ["OUT__0"], carriesIndex name = true
    decide
  have hfollow : (oneOutput "OUT__0").OutputsFollow := by
    show ∀ io ∈ [(⟨"OUT__0", "TYPE_FP32"⟩ : IoConfig)], followsConvention io.name = true
    decide
  refine ((validateOutputs_serves_iff h 1 (servesOne_hasRead "OUT__0" _)).1.mpr
    ⟨fun _ => .inl fun name hname => ?_, fun hn => absurd hcarry hn, fun hn => absurd hfollow hn⟩).1 hcarry
  obtain rfl : name = "OUT__0" := List.mem_singleton.mp hname
  exact ⟨by decide, show number (indexStr "OUT__0") ≤ 2147483647 by decide⟩

/-- A number of 33 bits is served from the first tensor, and the check lets it pass. -/
theorem validateOutputs_wraps :
    validateOutputs (oneOutput "OUT__4294967296") =
        .ok ⟨[("OUT__4294967296", 0)], [("OUT__4294967296", .fp32)]⟩ ∧
      (oneOutput "OUT__4294967296").OutputsCarryIndex ∧
      number (indexStr "OUT__4294967296") = 4294967296 ∧
      let c := servesOne "OUT__4294967296" ⟨[("OUT__4294967296", 0)], [("OUT__4294967296", .fp32)]⟩
      c.outputIndexMap "OUT__4294967296" = 0 ∧ ¬ IndexFails c 1 ∧ ¬ ServedByNumber c ["OUT__4294967296"] 1 := by
  have hnumber : number (indexStr "OUT__4294967296") = 4294967296 := by decide
  have hpass : ¬ IndexFails (servesOne "OUT__4294967296"
      ⟨[("OUT__4294967296", 0)], [("OUT__4294967296", .fp32)]⟩) 1 := Bool.false_ne_true
  refine ⟨rfl, ?_, hnumber, rfl, hpass, fun hserved => ?_⟩
  · show ∀ name ∈ ["OUT__4294967296"], carriesIndex name = true
    decide
  · exact hpass (hserved.fails.mpr ⟨_, List.mem_singleton.mpr rfl, by omega⟩)

end TritonAot
