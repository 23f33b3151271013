import TritonAot.Lib.Pools
import TritonAot.Model.Parameters

/-! `LoadModel`, over all the instances of a model.

Each instance loads the package of its model, or is given a loader that another one has made. Over
any run of loads, some of which fail, two instances hold the same loader exactly where weights are
shared and their device is the same; with CUDA graphs every instance has a single-threaded loader of
its own with one runner, whatever the configuration says about sharing (`run_loaders`). -/
namespace TritonAot

open Steps Pools

/-! ### Loading -/

/-- `torch::Device`. -/
structure TorchDevice where
  isCpu : Bool
  index : Int
  deriving DecidableEq

/-- `AOTIModelPackageLoader`, by the arguments of its constructor. -/
structure Loader where
  modelPath : String
  runSingleThreaded : Bool
  numRunners : Nat
  deviceIndex : Int
  deriving DecidableEq

/-- The key of `aoti_models_`: whether the device is a GPU, and its index. -/
abbrev DevicePair := Bool × Int

def TorchDevice.pair (d : TorchDevice) : DevicePair := (!d.isCpu, d.index)

/-- The loaders of a model: those in `aoti_models_`, and how many were constructed. -/
abbrev Loaders := Pool DevicePair Loader

/-- What an instance asks for, whether the package is there, and what the loader's constructor throws. -/
structure Load where
  artifactName : String
  device : TorchDevice
  fileExists : Except TritonError Bool
  throws : Option String

/-- The name of the model, and the path of a file of its version. -/
structure Repository where
  name : String
  path : String → String

/-- Its code is `TRITONSERVER_ERROR_UNAVAILABLE`, which nothing reads. -/
def unavailableError (repository : Repository) (modelPath : String) : TritonError :=
  ⟨.other, "unable to find '" ++ modelPath ++ "' for model instance '" ++ repository.name ++ "'"⟩

def loadError (repository : Repository) (what : String) : TritonError :=
  ⟨.internal, "failed to load AOTInductor model '" ++ repository.name ++ "': " ++ what⟩

/-- `LoadModel`: a loader with its number, and the loaders behind it. -/
def loadModel (m : ModelSettings) (repository : Repository) (load : Load) (s : Loaders) :
    Except TritonError (Nat × Loader) × Loaders :=
  let ccModelFilename := if load.artifactName.isEmpty then "model.pt2" else load.artifactName
  let modelPath := repository.path ccModelFilename
  match load.fileExists with
  | .error e => (.error e, s)
  | .ok false => (.error (unavailableError repository modelPath), s)
  | .ok true =>
    match if m.enableWeightSharing then s.kept.lookup load.device.pair else none with
    | some loader => (.ok loader, s)
    | none =>
      let deviceIndex := if load.device.isCpu then -1 else load.device.index
      let numRunners := if m.enableWeightSharing then m.totalInstanceCount else 1
      let numRunners := if m.enableCudaGraph then 1 else numRunners
      match load.throws with
      | some what => (.error (loadError repository what), s)
      | none =>
        let loader := (s.made, ⟨modelPath, m.enableCudaGraph, numRunners, deviceIndex⟩)
        -- the pair was not found, so that it is emplaced
        (.ok loader, ⟨if m.enableWeightSharing then s.kept ++ [(load.device.pair, loader)] else s.kept, s.made + 1⟩)

/-- A load of a run, with its result. -/
def Loads (m : ModelSettings) (repository : Repository) (s : Loaders) (l : Load × Except TritonError (Nat × Loader))
    (s' : Loaders) : Prop := loadModel m repository l.1 s = (l.2, s')

/-! ### What a load leaves -/

section Loads
variable {m : ModelSettings} {repository : Repository} {s s' : Loaders} {l : Load × Except TritonError (Nat × Loader)}

theorem pair_inj {d d' : TorchDevice} : d.pair = d'.pair ↔ d = d' := by
  cases d
  cases d'
  simp [TorchDevice.pair]

/-- The loader that is constructed for a device. -/
def newLoader (m : ModelSettings) (modelPath : String) (d : TorchDevice) : Loader :=
  ⟨modelPath, m.enableCudaGraph, if m.enableCudaGraph then 1 else if m.enableWeightSharing then m.totalInstanceCount else 1,
    if d.isCpu then -1 else d.index⟩

/-- A load fails, or gives out a loader that is shared, or constructs one. -/
theorem loads_cases (h : Loads m repository s l s') :
    (∃ e, l.2 = .error e ∧ s' = s) ∨
      (∃ x, l.2 = .ok x ∧ s' = s ∧ m.enableWeightSharing = true ∧ s.kept.lookup l.1.device.pair = some x) ∨
      ∃ modelPath, l.2 = .ok (s.made, newLoader m modelPath l.1.device) ∧
        (m.enableWeightSharing = true → s.kept.lookup l.1.device.pair = none) ∧
        s' = ⟨if m.enableWeightSharing then s.kept ++ [(l.1.device.pair, (s.made, newLoader m modelPath l.1.device))]
          else s.kept, s.made + 1⟩ := by
  obtain ⟨load, result⟩ := l
  unfold Loads loadModel at h
  simp only at h
  split at h
  · cases h
    exact .inl ⟨_, rfl, rfl⟩
  · cases h
    exact .inl ⟨_, rfl, rfl⟩
  · split at h
    · rename_i x hkept
      cases h
      obtain ⟨hshare, hlookup⟩ := Option.ite_none_right_eq_some.mp hkept
      exact .inr (.inl ⟨x, rfl, rfl, hshare, hlookup⟩)
    · rename_i hmissing
      split at h
      · cases h
        exact .inl ⟨_, rfl, rfl⟩
      · cases h
        refine .inr (.inr ⟨_, rfl, ?_, rfl⟩)
        intro hshare
        rwa [if_pos hshare] at hmissing

/-- A load meets one demand for its device. -/
theorem Loads.acquires (h : Loads m repository s l s') :
    Acquires m.enableWeightSharing s (l.1.device.pair, l.2.toOption) s' := by
  rcases loads_cases h with ⟨e, he, rfl⟩ | ⟨x, hx, rfl, hshare, hlookup⟩ | ⟨modelPath, hx, hmissing, rfl⟩
  · rw [he]
    exact .refused _
  · rw [hx]
    obtain ⟨before, after, hkept, _⟩ := List.lookup_eq_some_iff.mp hlookup
    exact .kept hshare (by simp [hkept])
  · rw [hx]
    refine .new ?_ _
    intro hshare x hmem
    have := List.lookup_eq_none_iff.mp (hmissing hshare) _ hmem
    simp at this

/-- A loader is as the settings and the device of its pair say. -/
structure Suits (m : ModelSettings) (pair : DevicePair) (loader : Loader) : Prop where
  threads : loader.runSingleThreaded = m.enableCudaGraph
  runners : loader.numRunners = if m.enableCudaGraph then 1 else if m.enableWeightSharing then m.totalInstanceCount else 1
  device : loader.deviceIndex = if pair.1 then pair.2 else -1

theorem suits_newLoader (m : ModelSettings) (modelPath : String) (d : TorchDevice) :
    Suits m d.pair (newLoader m modelPath d) := by
  refine ⟨rfl, rfl, ?_⟩
  cases hcpu : d.isCpu <;> simp [newLoader, TorchDevice.pair, hcpu]

theorem Loads.suits (h : Loads m repository s l s') (hs : ∀ k ∈ s.kept, Suits m k.1 k.2.2) :
    (∀ x, l.2 = .ok x → Suits m l.1.device.pair x.2) ∧ ∀ k ∈ s'.kept, Suits m k.1 k.2.2 := by
  rcases loads_cases h with ⟨e, he, rfl⟩ | ⟨x, hx, rfl, hshare, hlookup⟩ | ⟨modelPath, hx, _, rfl⟩
  · simp only [he]
    exact ⟨by simp, hs⟩
  · refine ⟨?_, hs⟩
    intro y hy
    rw [hx] at hy
    cases hy
    obtain ⟨before, after, hkept, _⟩ := List.lookup_eq_some_iff.mp hlookup
    exact hs (l.1.device.pair, x) (by simp [hkept])
  · have hnew := suits_newLoader m modelPath l.1.device
    constructor
    · intro y hy
      rw [hx] at hy
      cases hy
      exact hnew
    · intro k hk
      simp only at hk
      split at hk
      · rcases List.mem_append.mp hk with hk | hk
        · exact hs k hk
        · rw [List.mem_singleton.mp hk]
          exact hnew
      · exact hs k hk

end Loads

/-! ### Runs of loads -/

section Run
variable {m : ModelSettings} {repository : Repository} {s s' : Loaders}
  {loads : List (Load × Except TritonError (Nat × Loader))}

theorem run_acquires (h : Run (Loads m repository) s loads s') :
    Run (Acquires m.enableWeightSharing) s (loads.map fun l => (l.1.device.pair, l.2.toOption)) s' := by
  induction h with
  | nil s => exact .nil s
  | cons hload _ ih => exact .cons hload.acquires ih

theorem run_suits (h : Run (Loads m repository) s loads s') (hs : ∀ k ∈ s.kept, Suits m k.1 k.2.2) :
    ∀ l ∈ loads, ∀ x, l.2 = .ok x → Suits m l.1.device.pair x.2 := by
  induction h with
  | nil => simp
  | cons hload _ ih =>
    obtain ⟨hfirst, hkept⟩ := hload.suits hs
    exact List.forall_mem_cons.mpr ⟨hfirst, ih hkept⟩

end Run

/-- **The instances of a model share loaders exactly where the configuration lets them.** Over any run
of loads, two instances that were given a loader hold the same one exactly where weights are shared and
their devices are the same, each loader is for its instance's device, with a runner for every instance
where it is shared; and with CUDA graphs, whatever the configuration says about sharing, every instance
has a single-threaded loader of its own, with one runner. -/
theorem run_loaders {parsers : ValueParsers} {fails : Nat → Option String} {source : ModelSource} {t t' : ThreadCounts}
    {model : Model} (h : createModel parsers fails source t = (.ok model, t')) {repository : Repository}
    {loads : List (Load × Except TritonError (Nat × Loader))} {s : Loaders}
    (hrun : Run (Loads model.settings repository) .fresh loads s) :
    let shares := model.settings.enableWeightSharing
    (loads.Pairwise fun a b => ∀ x y, a.2 = .ok x → b.2 = .ok y →
        (x.1 = y.1 ↔ shares = true ∧ a.1.device = b.1.device)) ∧
      (∀ a ∈ loads, ∀ x, a.2 = .ok x →
        x.2.runSingleThreaded = model.settings.enableCudaGraph ∧
        (x.2.numRunners : Int) = (if shares then instancesOf source.instanceGroups else 1) ∧
        x.2.deviceIndex = if a.1.device.isCpu then -1 else a.1.device.index) ∧
      (model.settings.enableCudaGraph = true → shares = false) := by
  obtain ⟨hunshared, hcount⟩ := createModel_ok h
  refine ⟨?_, ?_, hunshared⟩
  · apply (List.pairwise_map.mp (run_shared ordered_fresh (run_acquires hrun))).imp
    intro a b hshared x y hx hy
    rw [← pair_inj]
    exact hshared x y (by rw [hx]; rfl) (by rw [hy]; rfl)
  · intro a ha x hx
    obtain ⟨hthreads, hrunners, hdevice⟩ := run_suits hrun (by simp [Pool.fresh]) a ha x hx
    refine ⟨hthreads, ?_, ?_⟩
    · rw [hrunners]
      cases hgraph : model.settings.enableCudaGraph with
      | true => simp [hunshared hgraph]
      | false => cases model.settings.enableWeightSharing <;> simp [hcount]
    · rw [hdevice]
      cases hcpu : a.1.device.isCpu <;> simp [TorchDevice.pair, hcpu]

def plainParsers : ValueParsers where
  bool s := if s = "true" then .ok true else if s = "false" then .ok false else .error ⟨.invalidArg, "boolean"⟩
  int s := (stoll s.toList).mapError fun _ => ⟨.internal, "integer"⟩

/-- Two groups, of two instances and of one, that share weights. -/
def sharedSource : ModelSource where
  name := "model"
  instanceGroups := [some 2, none]
  parameters key := if key = "ENABLE_WEIGHT_SHARING" then .value "true" else .absent

def sharedSettings : ModelSettings := {ModelSettings.fresh with enableWeightSharing := true, totalInstanceCount := 3}

/-- An instance on a GPU, whose package loads. -/
def gpuLoad (index : Int) : Load := ⟨"", ⟨false, index⟩, .ok true, none⟩

/-- The loader that it is given, by its number. -/
def gpuLoader (number : Nat) (index : Int) : Nat × Loader := (number, ⟨"model.pt2", false, 3, index⟩)

/-- Two instances on one GPU have one loader, with three runners, and one on another GPU has its own. -/
theorem run_loaders_shared :
    let loads := [(gpuLoad 0, .ok (gpuLoader 0 0)), (gpuLoad 1, .ok (gpuLoader 1 1)), (gpuLoad 0, .ok (gpuLoader 0 0))]
    (∃ model t' s, createModel plainParsers (fun _ => none) sharedSource ⟨none, none⟩ = (.ok model, t') ∧
      Run (Loads model.settings ⟨"model", id⟩) .fresh loads s) ∧
    loads.Pairwise fun a b => ∀ x y, a.2 = .ok x → b.2 = .ok y → (x.1 = y.1 ↔ a.1.device = b.1.device) := by
  intro loads
  have hcreated : createModel plainParsers (fun _ => none) sharedSource ⟨none, none⟩ =
    (.ok ⟨sharedSettings, Host.created (fun _ => none) "model" false⟩, ⟨none, none⟩) := rfl
  have hfirst : Loads sharedSettings ⟨"model", id⟩ .fresh (gpuLoad 0, .ok (gpuLoader 0 0))
    ⟨[((true, 0), gpuLoader 0 0)], 1⟩ := show loadModel _ _ _ _ = _ from rfl
  have hsecond : Loads sharedSettings ⟨"model", id⟩ ⟨[((true, 0), gpuLoader 0 0)], 1⟩ (gpuLoad 1, .ok (gpuLoader 1 1))
    ⟨[((true, 0), gpuLoader 0 0), ((true, 1), gpuLoader 1 1)], 2⟩ := show loadModel _ _ _ _ = _ from rfl
  have hthird : Loads sharedSettings ⟨"model", id⟩ ⟨[((true, 0), gpuLoader 0 0), ((true, 1), gpuLoader 1 1)], 2⟩
    (gpuLoad 0, .ok (gpuLoader 0 0)) ⟨[((true, 0), gpuLoader 0 0), ((true, 1), gpuLoader 1 1)], 2⟩ :=
    show loadModel _ _ _ _ = _ from rfl
  have hrun := Run.cons hfirst (.cons hsecond (.cons hthird (.nil _)))
  refine ⟨⟨_, _, _, hcreated, hrun⟩, ?_⟩
  apply (run_loaders hcreated hrun).1.imp
  intro a b hshared x y hx hy
  exact (hshared x y hx hy).trans (and_iff_right rfl)

end TritonAot
