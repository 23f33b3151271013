import TritonAot.Graph.Mirrors
import TritonAot.Graph.Refinement
import TritonAot.Instance.Slots
import TritonAot.Instance.Unheeded
import TritonAot.Instance.Replays
import TritonAot.Instance.Ends

/-! Instances on a device.

What `ProcessRequests` issues, call after call, and what becomes of it. Where an instance
captures nothing at load and launches whatever it replays, it keeps the discipline: the
first use of a bucket copies over its clones, and only then is it prestaged. So every response
holds the outputs that the state machine hands over, in whichever order any number of instances
issue, and a device completes, their work (`run_delivers`). -/
namespace TritonAot

open Streams Slots Steps

variable {E : Type} [Scalars E]

/-! ### What is issued -/

/-- What the device decides during one call: how many ops a capture that fails has issued, and
whether the collector and the responder queued anything. -/
structure DeviceChance where
  issued : Int → Nat
  collected : Bool
  read : Bool

/-- Pass 2 of a prestaged batch: the static inputs that are filled, and with what. -/
def fillsFrom (cfg : Config E) (requests : List (Request E)) (r : Nat) (bucket : Int) :
    List DeclaredInput → List (Tensor E) → List (Nat × List E)
  | [], _ => []
  | info :: rest, statics =>
    match staticAt ⟨statics, []⟩ (cfg.indexOf info.name) with
    | none => []
    | some st =>
      match fillStatic r bucket st ((payload requests info.name).take info.batchnElements) with
      | .error _ => []
      | .ok filled =>
        ((cfg.indexOf info.name).toNat, filled.data) ::
          fillsFrom cfg requests r bucket rest (statics.set (cfg.indexOf info.name).toNat filled)

/-- The inputs that were gathered; for a slot that was never set there is no element to store. -/
def gatheredFills (inputs : List (Tensor E)) : List (Nat × List E) := inputs.mapIdx fun i t => (i, t.data)

/-- Pass 2 and the batch inputs, which leave `c`. -/
def stagedIssues (cfg : Config E) (total : Nat) (requests : List (Request E)) (declared : List DeclaredInput)
    (s : GraphState E) (c : Collecting E) (synced : Bool) : List (Routine GraphKey (List E)) :=
  match s.prestagedEntry with
  | none => [.collect (gatheredFills (slotTensors c.tensors)) synced]
  | some key =>
    match s.cudaGraphCache.lookup key with
    | none => []
    | some e => [.prestage (e.graphKey key) (fillsFrom cfg requests total s.prestagedBucket declared e.staticInputs) synced]

/-- `SetInputTensors`. -/
def collectIssues (cfg : Config E) (chance : InputChance) (total : Nat) (requests : List (Request E))
    (s : GraphState E) (c : Collecting E) (synced : Bool) : List (Routine GraphKey (List E)) :=
  match chance.inputCount, requests with
  | some _, _ => []
  | none, [] => []
  | none, first :: rest =>
    match declareFrom cfg chance total (first :: rest) 0 first.inputs with
    | .ok (.ok declared) =>
      match decidePrestage cfg declared total s with
      | .error _ => []
      | .ok s => stagedIssues cfg total (first :: rest) declared s c synced
    | _ => []

/-- What the model input in a slot is of the static input at its place. -/
def slotView (total : Nat) (bucket : Int) (tensors : List (Option (Tensor E))) (i : Nat) :
    Tensor E → Except Fault (Tensor E) :=
  match tensors[i]? with
  | some none => fun _ => .ok undefinedTensor
  | _ => prestagedView total bucket

/-- Where the model inputs of a batch are. -/
def batchSources (total : Nat) (tensors : List (Option (Tensor E))) (s : GraphState E) : List (Source E) :=
  match s.prestagedEntry with
  | none => (slotTensors tensors).mapIdx fun i _ => (.gathered i, id)
  | some key =>
    match s.cudaGraphCache.lookup key with
    | none => []
    | some e => e.staticInputs.mapIdx fun i st =>
        (.staticInput (e.graphKey key) i, elementwise st.info (slotView total s.prestagedBucket tensors i))

/-- The place of an output that is handed to the responder. -/
def handedAt (cfg : Config E) (chance : OutputChance) (outputs : List (Tensor E)) (o : ModelOutput) : Option Nat :=
  match outputAt cfg outputs o.name with
  | none => none
  | some t =>
    if refusal cfg chance o.name t = none ∧ (cfg.isBatchOutput o.name = true ∨ o.output ≠ -1) then
      some (cfg.outputIndexMap o.name).toNat
    else none

/-- The loop of `ReadOutputTensors`, up to the output it stops at. Which that is does not
depend on the responses. -/
def handedFrom (cfg : Config E) (chance : OutputChance) (outputs : List (Tensor E)) : List ModelOutput → List Nat
  | [] => []
  | o :: rest =>
    (handedAt cfg chance outputs o).toList ++
      match readOutput cfg chance outputs o ⟨[], []⟩ with
      | .ok ⟨_, _, none⟩ => handedFrom cfg chance outputs rest
      | _ => []

/-- The places of all outputs that are handed to the responder. -/
def handedOutputs (cfg : Config E) (chance : OutputChance) (outputs : List (Tensor E)) : List Nat :=
  handedFrom cfg chance outputs cfg.modelOutputs.entries

/-- The elements at the given places. -/
def pick {α : Type} (places : List Nat) (xs : List α) : List α := places.filterMap fun i => xs[i]?

/-- The outputs that are handed to the responder. -/
def handedTensors (cfg : Config E) (chance : OutputChance) (outputs : List (Tensor E)) : List (Tensor E) :=
  pick (handedOutputs cfg chance outputs) outputs

/-- From the model to the reading of its outputs, where there is a batch to answer. -/
def modelIssues (cfg : Config E) (forward : List (Tensor E) → List (Tensor E)) (chance : RequestChance)
    (device : DeviceChance) (batch total : Nat) (v : Serving E) : List (Routine GraphKey (List E)) :=
  let graph := chance.graph.onSlots v.tensors
  match runModel cfg forward chance v with
  | .error _ => []
  | .ok ran =>
    executeIssues cfg.toGraphConfig forward graph device.issued (batchSources total v.tensors v.state)
        (slotTensors v.tensors) v.state ++
      if (ran.verify cfg chance).answering.allFailed then []
      else [.readOutputTensors batch (pick (handedOutputs cfg chance.output ran.outputs)
        (outputSources cfg.toGraphConfig forward graph (slotTensors v.tensors) v.state)) device.read]

/-- `serve` up to the model. -/
def inputIssues (cfg : Config E) (chance : RequestChance) (device : DeviceChance) (total : Nat)
    (requests : List (Request E)) (a : Answering) (s : GraphState E) : List (Routine GraphKey (List E)) :=
  let a := a.start cfg chance
  let s := prestage cfg total a.allFailed s
  if a.allFailed then []
  else
    match setInputTensors cfg chance.input total requests s a.responses with
    | .error _ => []
    | .ok (c, _) => collectIssues cfg chance.input total requests s c device.collected

/-- `serve`. -/
def serveIssues (cfg : Config E) (forward : List (Tensor E) → List (Tensor E)) (chance : RequestChance)
    (device : DeviceChance) (batch total : Nat) (requests : List (Request E)) (a : Answering) (s : GraphState E) :
    List (Routine GraphKey (List E)) :=
  inputIssues cfg chance device total requests a s ++
    match serveInputs cfg chance total requests a s with
    | .error _ => []
    | .ok v => if v.answering.allFailed then [] else modelIssues cfg forward chance device batch total v

/-- `ProcessRequests`. -/
def requestIssues (cfg : Config E) (forward : List (Tensor E) → List (Tensor E)) (chance : RequestChance)
    (device : DeviceChance) (batch : Nat) (requests : List (Option (Request E))) (s : GraphState E) :
    List (Routine GraphKey (List E)) :=
  match requests.mapM id with
  | none => []
  | some requests =>
    match countFrom cfg chance 0 requests 0 ⟨newResponses chance requests.length, false⟩ with
    | .error _ => []
    | .ok (total, a) =>
      if total = 0 then []
      else serveIssues cfg forward chance device batch total requests (checkBatchSize cfg total a) s

/-- The calls of a run, the first one numbered. -/
def callIssues (cfg : Config E) (forward : List (Tensor E) → List (Tensor E)) (device : Nat → DeviceChance) :
    Nat → GraphState E → List (Call E) → List (Routine GraphKey (List E))
  | _, _, [] => []
  | batch, s, call :: rest =>
    requestIssues cfg forward call.chance (device batch) batch call.requests s ++
      callIssues cfg forward device (batch + 1) call.served.state rest

/-! ### Collecting -/

theorem Tensor.Like.info {s t : Tensor E} (h : Tensor.Like s t) : s.info = t.info := by
  simp [Tensor.info, h.dtype, h.device, h.shape]

theorem AllLike.infos {ss ts : List (Tensor E)} (h : AllLike ss ts) : ss.map Tensor.info = ts.map Tensor.info := by
  induction h with
  | nil => rfl
  | cons hfirst _ ih => rw [List.map_cons, List.map_cons, hfirst.info, ih]

section Collect
variable {cfg : Config E} {chance : InputChance} {requests : List (Request E)} {r : Nat} {bucket : Int}
  {declared : List DeclaredInput} {statics statics' : List (Tensor E)} {m : Memory GraphKey (List E)} {synced : Bool}

/-- What is stored into the static inputs is what they are filled with. -/
theorem onDevice_filled {key : GraphKey} (h : fillAll cfg requests r bucket declared statics = .ok statics')
    (hm : OnDevice m (.staticInput key) statics) :
    OnDevice (runOps (stores .own (.staticInput key) (fillsFrom cfg requests r bucket declared statics)) m)
      (.staticInput key) statics' := by
  induction declared generalizing statics m with
  | nil =>
    cases h
    exact hm
  | cons info rest ih =>
    rw [fillAll] at h
    rw [fillsFrom]
    cases hst : staticAt (⟨statics, []⟩ : CudaGraphEntry E) (cfg.indexOf info.name) with
    | none =>
      rw [hst] at h
      cases h
    | some st =>
      rw [hst] at h
      obtain ⟨filled, hfilled, h⟩ := bind_ok.mp h
      simp only [hfilled]
      apply ih h
      intro i t ht
      show Function.update m (.staticInput key (cfg.indexOf info.name).toNat) filled.data (.staticInput key i) = t.data
      by_cases hi : (cfg.indexOf info.name).toNat = i
      · subst hi
        obtain ⟨_, rfl⟩ := List.getElem?_eq_some_iff.mp ht
        simp
      · rw [List.getElem?_set_ne hi] at ht
        rw [Function.update_of_ne (by simpa using Ne.symm hi), hm i t ht]

/-- Every tensor that is set is the view of a static input. -/
def Views (r : Nat) (bucket : Int) (statics : List (Tensor E)) (tensors : List (Option (Tensor E))) : Prop :=
  ∀ (i : Nat) (t : Tensor E), tensors[i]? = some (some t) →
    ∃ st, statics[i]? = some st ∧ prestagedView r bucket st = .ok t

theorem views_none (n : Nat) : Views r bucket statics (List.replicate n none) := by
  intro i t ht
  have := List.eq_of_mem_replicate (List.mem_of_getElem? ht)
  cases this

theorem Views.set {tensors : List (Option (Tensor E))} {i : Nat} {st filled view : Tensor E}
    (h : Views r bucket statics tensors) (hst : statics[i]? = some st) (hview : prestagedView r bucket filled = .ok view) :
    Views r bucket (statics.set i filled) (tensors.set i (some view)) := by
  intro j t ht
  by_cases hij : i = j
  · subst hij
    obtain ⟨hi, _⟩ := List.getElem?_eq_some_iff.mp hst
    obtain ⟨_, hget⟩ := List.getElem?_eq_some_iff.mp ht
    rw [List.getElem_set_self] at hget
    cases hget
    exact ⟨filled, List.getElem?_set_self hi, hview⟩
  · rw [List.getElem?_set_ne hij] at ht ⊢
    exact h j t ht

theorem views_collectFrom {c c' : Collecting E} {key : String} {e e' : CudaGraphEntry E} {error : Option TritonError}
    (hkey : c.state.prestagedEntry = some key) (he : c.state.cudaGraphCache.lookup key = some e)
    (h : collectFrom cfg chance r requests declared c = .ok (c', error))
    (hviews : Views r c.state.prestagedBucket e.staticInputs c.tensors)
    (he' : c'.state.cudaGraphCache.lookup key = some e') :
    Views r c.state.prestagedBucket e'.staticInputs c'.tensors := by
  induction declared generalizing c e with
  | nil =>
    cases h
    rw [he] at he'
    cases he'
    exact hviews
  | cons info rest ih =>
    rw [collectFrom, hkey] at h
    obtain ⟨mid, hmid, h⟩ := bind_ok.mp h
    obtain ⟨i, st, filled, view, _, hat, _, hview, _, htensors, hstate⟩ := collectPrestaged_ok he hmid
    have hstep := restaged_setEntry c.state key e (e.staticInputs.set i filled)
    rw [← hstate] at hstep
    rw [← hstep.bucket]
    apply ih (hstep.prestaged.trans hkey) hstep.entry h
    rw [hstep.bucket, htensors]
    exact hviews.set hat hview

theorem views_collectBatchInputs {targets : List (BatchInput × String)} {c c' : Collecting E} {key : String}
    {e : CudaGraphEntry E} (hkey : c.state.prestagedEntry = some key) (he : c.state.cudaGraphCache.lookup key = some e)
    (h : collectBatchInputs cfg chance r requests targets c = .ok c')
    (hviews : Views r c.state.prestagedBucket e.staticInputs c.tensors) :
    Views r c.state.prestagedBucket e.staticInputs c'.tensors := by
  obtain ⟨writes, hwrites, hend⟩ := collectBatchInputs_prestaged_writes hkey he h
  rw [hend]
  intro i t ht
  rcases writeAll_cases ht with hm | ⟨hsame, _⟩
  · obtain ⟨target, _, hw⟩ := exists_left_of_mem hwrites hm
    obtain ⟨j, st, t', hj, hst, hview, hsome⟩ := hw.value
    cases hsome
    have hij : j = i := by exact_mod_cast hj.symm.trans hw.index
    subst hij
    exact ⟨st, hst, hview⟩
  · exact hviews i t hsame

/-- The model inputs, each as it is seen of the static input at its place. -/
theorem Views.viewedAs {tensors : List (Option (Tensor E))} (h : Views r bucket statics tensors)
    (hlen : statics.length = tensors.length) :
    ViewedAs (slotView r bucket tensors) statics (slotTensors tensors) where
  length := by rw [slotTensors, List.length_map, hlen]
  each := by
    intro i st t hst ht
    rw [slotTensors, List.getElem?_map] at ht
    unfold slotView
    cases hslot : tensors[i]? with
    | none =>
      rw [hslot] at ht
      cases ht
    | some slot =>
      rw [hslot] at ht
      cases slot with
      | none =>
        cases ht
        rfl
      | some u =>
        cases ht
        obtain ⟨st', hst', hview⟩ := h i u hslot
        rw [hst] at hst'
        cases hst'
        exact hview

/-- Where the stores of a place agree, it holds what they store. -/
theorem filled_at {D : Type} {fills : List (Nat × D)} {held : Nat → D} {i : Nat} {d : D}
    (hagree : ∀ fill ∈ fills, fill.1 = i → fill.2 = d) (h : held i = d ∨ ∃ fill ∈ fills, fill.1 = i) :
    filled fills held i = d := by
  induction fills generalizing held with
  | nil => simpa [filled] using h
  | cons fill rest ih =>
    obtain ⟨hfirst, hrest⟩ := List.forall_mem_cons.mp hagree
    apply ih hrest
    show Function.update held fill.1 fill.2 i = d ∨ _
    by_cases hi : fill.1 = i
    · apply Or.inl
      rw [← hi, Function.update_self, hfirst hi]
    · rw [Function.update_of_ne (Ne.symm hi)]
      simpa [hi] using h

theorem mem_gatheredFills {inputs : List (Tensor E)} {fill : Nat × List E} :
    fill ∈ gatheredFills inputs ↔ ∃ t, inputs[fill.1]? = some t ∧ fill.2 = t.data := by
  rw [gatheredFills, List.mem_mapIdx]
  constructor
  · rintro ⟨i, hi, rfl⟩
    exact ⟨inputs[i], List.getElem?_eq_getElem hi, rfl⟩
  · rintro ⟨t, ht, hdata⟩
    obtain ⟨hi, rfl⟩ := List.getElem?_eq_some_iff.mp ht
    exact ⟨fill.1, hi, by rw [← hdata]⟩

/-- What is gathered is the batch. -/
theorem onDevice_gathered (inputs : List (Tensor E)) :
    OnDevice (runOps (stores .own .gathered (gatheredFills inputs)) m) .gathered inputs := by
  intro i t ht
  have hinj : Function.Injective (Buffer.gathered : Nat → Buffer GraphKey) := fun _ _ h => by cases h; rfl
  rw [congrFun (runOps_fills hinj _ m) i]
  apply filled_at
  · rintro fill hfill rfl
    obtain ⟨t', ht', hdata⟩ := mem_gatheredFills.mp hfill
    rw [ht] at ht'
    cases ht'
    exact hdata
  · exact .inr ⟨(i, t.data), mem_gatheredFills.mpr ⟨t, ht, rfl⟩, rfl⟩

end Collect

/-! ### A batch is collected -/

section Staged
variable {cfg : Config E} {chance : InputChance} {requests : List (Request E)} {r : Nat} {s : GraphState E}
  {responses : Responses} {c : Collecting E} {error : Option TritonError} {synced : Bool} {books : Books GraphKey}
  {m : Memory GraphKey (List E)} {graph : GraphKey → List (List E) → Nat → List E}

/-- What is issued is issued behind pass 1. -/
theorem collectIssues_ok (h : setInputTensors cfg chance r requests s responses = .ok (c, error)) :
    (error ≠ none ∧ c.state = s ∧ collectIssues cfg chance r requests s c synced = []) ∨
      ∃ s' mid err, decidePrestage cfg (declaredInputs cfg r requests) r s = .ok s' ∧
        collectFrom cfg chance r requests (declaredInputs cfg r requests)
          ⟨s', List.replicate ((declaredInputs cfg r requests).length + cfg.batchInputCount) none,
            responses⟩ = .ok (mid, err) ∧
        ((error ≠ none ∧ c = mid) ∨ err = none ∧
          collectBatchInputs cfg chance r requests cfg.batchInputTargets mid = .ok c) ∧
        collectIssues cfg chance r requests s c synced =
          stagedIssues cfg r requests (declaredInputs cfg r requests) s' c synced := by
  unfold collectIssues
  cases hcount : chance.inputCount with
  | some err =>
    unfold setInputTensors at h
    simp only [hcount] at h
    cases h
    exact .inl ⟨nofun, rfl, rfl⟩
  | none =>
    cases requests with
    | nil =>
      unfold setInputTensors at h
      simp [hcount] at h
    | cons first rest =>
      rw [setInputTensors_cons chance hcount] at h
      obtain ⟨declared, hdecl, h⟩ := bind_ok.mp h
      simp only [hdecl]
      cases declared with
      | error err =>
        cases h
        exact .inl ⟨nofun, rfl, rfl⟩
      | ok declared =>
        obtain rfl : declared = declaredInputs cfg r (first :: rest) := declareFrom_ok hdecl
        obtain ⟨s', hs', h⟩ := bind_ok.mp h
        obtain ⟨⟨mid, err⟩, hmid, h⟩ := bind_ok.mp h
        refine .inr ⟨s', mid, err, hs', ?_, ?_, ?_⟩
        · rw [← hmid]
          congr 3
          rw [declaredInputs, List.length_map]
        · cases err with
          | some err =>
            cases h
            exact .inl ⟨nofun, rfl⟩
          | none =>
            obtain ⟨last, hlast, h⟩ := bind_ok.mp h
            cases h
            exact .inr ⟨rfl, hlast⟩
        · simp only [hs']

/-- A prestaged batch is viewed in the static inputs that it fills. -/
theorem staged_views {mid : Collecting E} {declared : List DeclaredInput} {key : String} {b : Nat} {e : CudaGraphEntry E}
    {statics : List (Tensor E)} {err : Option TritonError} (hkey : s.prestagedEntry = some key)
    (hb : s.prestagedBucket = b) (he : s.cudaGraphCache.lookup key = some e) (hv : Viable cfg declared r b e)
    (hcollect : collectFrom cfg chance r requests declared
      ⟨s, List.replicate (declared.length + cfg.batchInputCount) none, responses⟩ = .ok (mid, err))
    (hfilled : fillAll cfg requests r b declared e.staticInputs = .ok statics)
    (hmid : Restaged key e statics s mid.state)
    (hbatch : collectBatchInputs cfg chance r requests cfg.batchInputTargets mid = .ok c) :
    ViewedAs (slotView r b c.tensors) statics (slotTensors c.tensors) := by
  have hviews := views_collectFrom hkey he hcollect (views_none _) hmid.entry
  have hbucket : mid.state.prestagedBucket = b := hmid.bucket.trans hb
  have hmidKey := hmid.prestaged.trans hkey
  obtain ⟨ws, _, hws⟩ := collectFrom_prestaged_writes hkey rfl he (.refl _) hcollect
  obtain ⟨vs, _, hvs⟩ := collectBatchInputs_prestaged_writes hmidKey hmid.entry hbatch
  have hlast := views_collectBatchInputs hmidKey hmid.entry hbatch (by rwa [hbucket, ← hb])
  rw [hbucket] at hlast
  apply hlast.viewedAs
  have hlen : c.tensors.length = (declared.length + cfg.batchInputCount) := by
    rw [hvs, length_writeAll, hws, length_writeAll, List.length_replicate]
  rw [(fillAll_like hfilled).length_eq, hv.arity, hlen]

/-- **What `SetInputTensors` issues leaves the batch where the call says it is.** -/
theorem collect_played (hs : Mirrors none s books m)
    (h : setInputTensors cfg chance r requests s responses = .ok (c, error)) :
    Played 3 graph books m (collectIssues cfg chance r requests s c synced) fun books' m' =>
      Mirrors none c.state books' m' ∧ (∀ batch j, m' (.response batch j) = m (.response batch j)) ∧
        (error = none → Batched c.state m' (slotTensors c.tensors) (batchSources r c.tensors c.state)) := by
  rcases collectIssues_ok h with ⟨herror, hstate, hissues⟩ | ⟨s', mid, err, hdecide, hcollect, hend, hissues⟩
  · rw [hissues, hstate]
    exact .nil ⟨hs, fun _ _ => rfl, fun hnone => absurd hnone herror⟩
  · rw [hissues, stagedIssues]
    have hstate : c.state = mid.state := by
      rcases hend with ⟨_, rfl⟩ | ⟨_, hbatch⟩
      · rfl
      · exact collectBatchInputs_state hbatch
    rcases decidePrestage_ok hdecide with ⟨hnone, hsame⟩ | ⟨rfl, key, b, e, hkey, hb, he, hv⟩
    · have hslow : c.state = s' := hstate.trans (collectFrom_slow hnone hcollect)
      rw [hnone, hslow]
      refine Played.one (show Routine.Allowed 3 books (.collect _ _) from trivial) ⟨?_, ?_, ?_⟩
      · have hframed : Mirrors none s books
            (runOps ((Routine.collect (gatheredFills (slotTensors c.tensors)) synced).issue 3 graph 0) m) :=
          hs.frame fun b key hb => issue_frame (by rintro ⟨i, rfl⟩; cases hb) 0
        rcases hsame with rfl | rfl
        · exact hframed
        · exact hframed.of_same rfl rfl id
      · intro batch j
        exact issue_frame (by rintro ⟨i, hi⟩; cases hi) 0
      · intro _
        rw [batchSources, hnone]
        apply Batched.beside hnone
        rw [Routine.issue, runOps_append, runOps_drained]
        exact onDevice_gathered _
    · obtain ⟨_, statics, hfilled, hrest⟩ := collectFrom_prestaged hkey he hcollect
      rw [hb] at hfilled
      rw [hkey, hstate]
      simp only [he]
      have hprimed := hs.primed he (by simp)
      refine Played.one (show Routine.Allowed 3 books (.prestage _ _ _) from hprimed) ⟨?_, ?_, ?_⟩
      · have hbooks : ({books with primed := insert (e.graphKey key) books.primed} : Books GraphKey) = books := by
          rw [Finset.insert_eq_of_mem hprimed]
        show Mirrors none mid.state books _
        rw [← hbooks]
        apply hs.rewritten (.inl rfl) he hrest.entry hrest.others hrest.failed hrest.checked
        · exact (fillAll_like hfilled).infos
        · intro b' hb'
          exact issue_frame (by rintro ⟨i, rfl⟩; exact hb' rfl) 0
        · rw [Routine.issue, runOps_append, runOps_drained, hb]
          exact onDevice_filled hfilled (hs.statics he)
      · intro batch j
        exact issue_frame (by rintro ⟨i, hi⟩; cases hi) 0
      · intro hnone
        rcases hend with ⟨herror, _⟩ | ⟨_, hbatch⟩
        · exact absurd hnone herror
        · rw [batchSources, hrest.prestaged, hkey]
          simp only [hrest.entry]
          apply Batched.into (hrest.prestaged.trans hkey) hrest.entry
          rw [hrest.bucket, hb]
          exact staged_views hkey hb he hv hcollect hfilled hrest hbatch

end Staged

/-! ### A call -/

/-- Every replay that a collected batch comes to is launched. -/
def LaunchesCall (cfg : Config E) (forward : List (Tensor E) → List (Tensor E)) (s : GraphState E) (call : Call E) :
    Prop :=
  ∀ requests total c, Gathers cfg s call requests total c →
    Launches cfg.toGraphConfig forward (call.chance.graph.onSlots c.tensors) (slotTensors c.tensors) c.state

/-- The call gets to the reading of its outputs. -/
def ReadsOutputs (cfg : Config E) (forward : List (Tensor E) → List (Tensor E)) (s : GraphState E) (call : Call E) :
    Prop :=
  ∃ requests total a ran, call.requests.mapM id = some requests ∧
    countFrom cfg call.chance 0 requests 0 ⟨newResponses call.chance requests.length, false⟩ = .ok (total, a) ∧
    total ≠ 0 ∧ serveModel cfg forward call.chance total requests (checkBatchSize cfg total a) s = .ok ran ∧
    (ran.verify cfg call.chance).answering.allFailed = false

section Serve
variable {cfg : Config E} {forward : List (Tensor E) → List (Tensor E)} {chance : RequestChance} {device : DeviceChance}
  {batch total : Nat} {requests : List (Request E)} {a : Answering} {s : GraphState E} {v ran : Serving E}
  {books : Books GraphKey} {m : Memory GraphKey (List E)}

theorem read_played {graph : GraphKey → List (List E) → Nat → List E} {sources : List (Source E)}
    {outputs : List (Tensor E)} (h : Seen books m sources outputs) (synced : Bool) :
    Played 3 graph books m [.readOutputTensors batch sources synced] fun books' m' => books' = books ∧
      (∀ b, (∀ j, b ≠ .response batch j) → m' b = m b) ∧ OnDevice m' (.response batch) outputs := by
  have hreadable : ∀ c ∈ sources, Readable 3 books c.1 := by
    intro c hc
    obtain ⟨_, _, hread, _⟩ := exists_right_of_mem h hc
    exact hread
  refine Played.one (show Routine.Allowed 3 books (.readOutputTensors batch _ _) from hreadable) ⟨rfl, ?_, ?_⟩
  · intro b hb
    apply issue_frame
    rintro ⟨j, hj⟩
    exact hb j hj
  · rw [Routine.issue, runOps_append, runOps_drained]
    apply onDevice_copies
    · intro i j heq
      cases heq
      rfl
    · intro c hc j heq
      have hread := hreadable c hc
      rw [heq] at hread
      cases hread with
      | batch hbatch => cases hbatch
    · intro j t ht
      obtain ⟨hj, rfl⟩ := List.getElem?_eq_some_iff.mp ht
      have hj' : j < sources.length := h.length_eq ▸ hj
      exact ⟨sources[j], List.getElem?_eq_getElem hj', (List.Forall₂.get h hj' hj).2⟩

/-- What is seen of some of the outputs. -/
theorem Seen.pick {sources : List (Source E)} {outputs : List (Tensor E)} (h : Seen books m sources outputs)
    (places : List Nat) : Seen books m (pick places sources) (pick places outputs) := by
  induction places with
  | nil => exact .nil
  | cons i rest ih =>
    have hlen := h.length_eq
    by_cases hi : i < outputs.length
    · have hi' : i < sources.length := by omega
      have hfirst := List.Forall₂.get h hi' hi
      unfold TritonAot.pick
      rw [List.filterMap_cons_some (List.getElem?_eq_getElem hi'), List.filterMap_cons_some (List.getElem?_eq_getElem hi)]
      exact .cons hfirst ih
    · have hnone : sources[i]? = none := List.getElem?_eq_none (by omega)
      have hnone' : outputs[i]? = none := List.getElem?_eq_none (by omega)
      simpa [TritonAot.pick, hnone, hnone'] using ih

/-- **From the model to the reading of its outputs**, the issued work leaves what the call says. -/
theorem model_played (hs : Mirrors none v.state books m) (hgoing : v.answering.allFailed = false)
    (hbatch : Batched v.state m (slotTensors v.tensors) (batchSources total v.tensors v.state))
    (hlaunch : Launches cfg.toGraphConfig forward (chance.graph.onSlots v.tensors) (slotTensors v.tensors) v.state)
    (h : runModel cfg forward chance v = .ok ran) :
    Played 3 (graphOn forward) books m (modelIssues cfg forward chance device batch total v) fun books' m' =>
      Mirrors none ran.state books' m' ∧ (∀ b, b ≠ batch → ∀ j, m' (.response b j) = m (.response b j)) ∧
        ((ran.verify cfg chance).answering.allFailed = false →
          OnDevice m' (.response batch) (handedTensors cfg chance.output ran.outputs)) := by
  unfold modelIssues
  rw [h]
  rw [runModel, hgoing] at h
  obtain ⟨x, hx, h⟩ := bind_ok.mp h
  unfold executeSlots at hx
  have hstate : ran.state = x.state ∧ ran.outputs = x.outputs := by
    cases h
    exact ⟨rfl, rfl⟩
  simp only
  rw [hstate.1, hstate.2]
  apply (execute_played hs hbatch hlaunch hx).append
  rintro books₁ m₁ ⟨hmirrors, hresponses, hseen⟩
  cases hfailed : (ran.verify cfg chance).answering.allFailed with
  | true =>
    apply Played.nil
    exact ⟨hmirrors, fun b _ j => hresponses b j, by simp⟩
  | false =>
    apply (read_played (hseen.pick _) device.read).imp
    rintro _ m' ⟨rfl, hframe, hholds⟩
    refine ⟨hmirrors.frame fun b key hb => hframe b ?_, ?_, fun _ => hholds⟩
    · rintro j rfl
      cases hb
    · intro b hne j
      rw [hframe _ (by simp [hne]), hresponses]

variable (cfg) in
/-- The lookup before the inputs are collected is not on the device. -/
theorem Mirrors.prestage (hs : Mirrors none s books m) (total : Nat) (allFailed : Bool) :
    Mirrors none (prestage cfg total allFailed s) books m := by
  unfold TritonAot.prestage
  simp only
  split
  · split
    · exact hs.of_same rfl rfl id
    · exact hs.of_same rfl rfl id
  · exact hs.of_same rfl rfl id

theorem verify_failed (h : v.answering.allFailed = true) : (v.verify cfg chance).answering.allFailed = true := by
  apply Bool.eq_true_of_not_eq_false
  intro hgoing
  have hchecked := (verify_frame cfg chance v).2 hgoing
  rw [checkOutputIndices, if_pos h, h] at hchecked
  cases hchecked

theorem readOutputs_outputs {v' : Serving E} (h : readOutputs cfg chance v = .ok v') : v'.outputs = v.outputs := by
  rw [readOutputs] at h
  split at h
  · cases h
    rfl
  · obtain ⟨_, _, h⟩ := bind_ok.mp h
    cases h
    rfl

/-- Up to the model. -/
theorem inputs_played {graph : GraphKey → List (List E) → Nat → List E} (hs : Mirrors none s books m)
    (h : serveInputs cfg chance total requests a s = .ok v) :
    Played 3 graph books m (inputIssues cfg chance device total requests a s) fun books' m' =>
      Mirrors none v.state books' m' ∧ (∀ b j, m' (.response b j) = m (.response b j)) ∧
        (v.answering.allFailed = false →
          Batched v.state m' (slotTensors v.tensors) (batchSources total v.tensors v.state)) := by
  rw [serveInputs] at h
  unfold inputIssues
  simp only at h ⊢
  generalize a.start cfg chance = start at h ⊢
  obtain ⟨collected, hcollect, h⟩ := bind_ok.mp h
  obtain rfl := Except.ok.inj h
  obtain ⟨htensors, hstate, _, _, hfailed⟩ := checkIf_frame cfg.recordsEvents collected chance.inferStart
  generalize (if cfg.recordsEvents then collected.check chance.inferStart else collected) = v
    at htensors hstate hfailed
  rw [htensors, hstate]
  have hprestaged := hs.prestage cfg total start.allFailed
  rcases collectInputs_cases hcollect with ⟨hall, rfl⟩ | ⟨hnone, c, error, hc, hcs, hct, _, herror⟩
  · change start.allFailed = true at hall
    rw [if_pos hall]
    apply Played.nil
    refine ⟨hprestaged, fun _ _ => rfl, fun hgoing => ?_⟩
    have := hfailed hgoing
    rw [hall] at this
    cases this
  · change start.allFailed = false at hnone
    simp only at hc
    rw [if_neg (by simp [hnone]), hc, hcs, hct]
    apply (collect_played hprestaged hc).imp
    rintro books' m' ⟨hmirrors, hresponses, hbatched⟩
    exact ⟨hmirrors, hresponses, fun hgoing => hbatched (herror (hfailed hgoing))⟩

/-- **`serve` leaves on the device what it returns.** -/
theorem serve_played {v' : Serving E} (hs : Mirrors none s books m)
    (hlaunch : ∀ responses c, a.allFailed = false →
      setInputTensors cfg chance.input total requests (prestage cfg total false s) responses = .ok (c, none) →
      Launches cfg.toGraphConfig forward (chance.graph.onSlots c.tensors) (slotTensors c.tensors) c.state)
    (h : serve cfg forward chance total requests a s = .ok v') :
    Played 3 (graphOn forward) books m (serveIssues cfg forward chance device batch total requests a s) fun books' m' =>
      Mirrors none v'.state books' m' ∧ (∀ b, b ≠ batch → ∀ j, m' (.response b j) = m (.response b j)) ∧
        ∀ ran, serveModel cfg forward chance total requests a s = .ok ran →
          (ran.verify cfg chance).answering.allFailed = false →
            OnDevice m' (.response batch) (handedTensors cfg chance.output v'.outputs) := by
  rw [serve_eq] at h
  obtain ⟨ran, hmodel, hread⟩ := bind_ok.mp h
  obtain ⟨v, hinputs, hrun⟩ := bind_ok.mp hmodel
  have houtputs : v'.outputs = ran.outputs := (readOutputs_outputs hread).trans (verify_frame cfg chance ran).1
  rw [(readOutputs_verify_frame hread).1, houtputs, serveIssues, hinputs, hmodel]
  apply (inputs_played hs hinputs).append
  rintro books₁ m₁ ⟨hmirrors, hresponses, hbatched⟩
  cases hfailed : v.answering.allFailed with
  | true =>
    rcases runModel_cases hrun with ⟨_, rfl⟩ | ⟨hgoing, _⟩
    · simp only [hfailed, if_true]
      apply Played.nil
      refine ⟨hmirrors, fun b _ j => hresponses b j, ?_⟩
      rintro _ hran hgoing
      cases hran
      rw [verify_failed hfailed] at hgoing
      cases hgoing
    · rw [hfailed] at hgoing
      cases hgoing
  | false =>
    simp only [hfailed, Bool.false_eq_true, if_false]
    have hlaunches : Launches cfg.toGraphConfig forward (chance.graph.onSlots v.tensors) (slotTensors v.tensors)
        v.state := by
      cases (serveInputs_arrived hinputs).1 with
      | skipped hall | failed _ _ hall =>
        rw [hfailed] at hall
        cases hall
      | collected haccepted hc _ hstate htensors =>
        rw [hstate, htensors]
        exact hlaunch _ _ haccepted hc
    apply (model_played hmirrors hfailed (hbatched hfailed) hlaunches hrun).imp
    rintro books' m' ⟨hleft, hothers, hholds⟩
    refine ⟨hleft, fun b hne j => (hothers b hne j).trans (hresponses b j), ?_⟩
    rintro _ hran hread
    cases hran
    exact hholds hread

end Serve

/-! ### A run -/

section Run
variable {cfg : Config E} {forward : List (Tensor E) → List (Tensor E)} {s s' : GraphState E} {call : Call E}
  {calls : List (Call E)} {books : Books GraphKey} {m : Memory GraphKey (List E)}

/-- **A call leaves on the device what it returns.** -/
theorem call_played (hs : Mirrors none s books m) (hlaunch : LaunchesCall cfg forward s call)
    (h : Serves cfg forward s call s') (device : DeviceChance) (batch : Nat) :
    Played 3 (graphOn forward) books m (requestIssues cfg forward call.chance device batch call.requests s)
      fun books' m' => Mirrors none s' books' m' ∧
        (∀ b, b ≠ batch → ∀ j, m' (.response b j) = m (.response b j)) ∧
        (ReadsOutputs cfg forward s call →
          OnDevice m' (.response batch) (handedTensors cfg call.chance.output call.served.outputs)) := by
  obtain ⟨hserved, rfl⟩ := h
  unfold processRequests at hserved
  unfold requestIssues
  cases hpresent : call.requests.mapM id with
  | none =>
    rw [hpresent] at hserved
    obtain hserved := Except.ok.inj hserved
    apply Played.nil
    refine ⟨?_, fun _ _ _ => rfl, ?_⟩
    · rw [← hserved]
      exact hs
    · rintro ⟨_, _, _, _, hreads, _⟩
      rw [hpresent] at hreads
      cases hreads
  | some requests =>
    rw [hpresent] at hserved
    obtain ⟨⟨total, a⟩, hcount, hserved⟩ := bind_ok.mp hserved
    simp only [hcount]
    by_cases htotal : total = 0
    · simp only [htotal, if_true] at hserved ⊢
      obtain hserved := Except.ok.inj hserved
      apply Played.nil
      refine ⟨?_, fun _ _ _ => rfl, ?_⟩
      · rw [← hserved]
        exact hs
      · rintro ⟨_, total', _, _, hreads, hcount', hne, _⟩
        rw [hpresent] at hreads
        cases hreads
        rw [hcount] at hcount'
        cases hcount'
        exact absurd htotal hne
    · simp only [if_neg htotal] at hserved ⊢
      obtain ⟨v, hv, hserved⟩ := bind_ok.mp hserved
      have hend : call.served.state = v.state ∧ call.served.outputs = v.outputs := by
        rw [← Except.ok.inj hserved]
        exact ⟨rfl, rfl⟩
      rw [hend.1, hend.2]
      apply (serve_played hs _ hv).imp
      · rintro books' m' ⟨hleft, hothers, hholds⟩
        refine ⟨hleft, hothers, ?_⟩
        rintro ⟨_, total', _, ran, hreads, hcount', _, hmodel, hverify⟩
        rw [hpresent] at hreads
        cases hreads
        rw [hcount] at hcount'
        cases hcount'
        exact hholds ran hmodel hverify
      · intro responses c haccepted hcollected
        exact hlaunch requests total c ⟨hpresent, ⟨a, hcount, checkBatchSize_allFailed haccepted⟩, htotal,
          ⟨_, hcollected⟩⟩

/-- Every call that gets to the reading of its outputs has those that are handed to the responder in
its responses, the first call numbered. -/
def InResponses (cfg : Config E) (forward : List (Tensor E) → List (Tensor E)) (m : Memory GraphKey (List E)) :
    Nat → GraphState E → List (Call E) → Prop
  | _, _, [] => True
  | batch, s, call :: rest =>
    (ReadsOutputs cfg forward s call →
        OnDevice m (.response batch) (handedTensors cfg call.chance.output call.served.outputs)) ∧
      InResponses cfg forward m (batch + 1) call.served.state rest

theorem InResponses.frame {m' : Memory GraphKey (List E)} {batch : Nat} (h : InResponses cfg forward m batch s calls)
    (hsame : ∀ b j, m' (.response b j) = m (.response b j)) : InResponses cfg forward m' batch s calls := by
  induction calls generalizing batch s with
  | nil => trivial
  | cons call rest ih => exact ⟨fun hreads => (h.1 hreads).frame fun j => hsame batch j, ih h.2⟩

/-- **A run leaves on the device what it returns.** -/
theorem run_played (h : Run (under (LaunchesCall cfg forward) (Serves cfg forward)) s calls s')
    (hs : Mirrors none s books m) (device : Nat → DeviceChance) (batch : Nat) :
    Played 3 (graphOn forward) books m (callIssues cfg forward device batch s calls) fun books' m' =>
      Mirrors none s' books' m' ∧ (∀ b < batch, ∀ j, m' (.response b j) = m (.response b j)) ∧
        InResponses cfg forward m' batch s calls := by
  induction calls generalizing s books m batch with
  | nil =>
    cases h
    exact .nil ⟨hs, fun _ _ _ => rfl, trivial⟩
  | cons call rest ih =>
    cases h with
    | cons hstep hrest =>
      obtain ⟨hlaunch, hserves⟩ := hstep
      apply (call_played hs hlaunch hserves (device batch) batch).append
      obtain ⟨_, rfl⟩ := hserves
      rintro books₁ m₁ ⟨hmirrors, hothers, hholds⟩
      apply (ih hrest hmirrors (batch + 1)).imp
      rintro books' m' ⟨hlast, hbefore, hdelivered⟩
      refine ⟨hlast, ?_, ?_, hdelivered⟩
      · intro b hb j
        rw [hbefore b (by omega), hothers b (by omega)]
      · intro hreads
        apply (hholds hreads).frame
        intro j
        exact hbefore batch (by omega) j

end Run

/-- An instance without warmup widths captures nothing at load. -/
theorem loaded_cold {cfg : Config E} (h : cfg.cudaGraphWarmupSingleWidth ≤ 0 ∨ cfg.cudaGraphWarmupMultiWidth ≤ 0)
    (forward : List (Tensor E) → List (Tensor E)) (capture : Int → Option Bool) : loaded cfg forward capture = .fresh E := by
  unfold loaded warmupCudaGraphs
  rw [if_neg]
  simp only [Bool.and_eq_true, decide_eq_true_eq]
  rintro ⟨⟨⟨_, hsingle⟩, hmulti⟩, _⟩
  omega

/-- **Any number of instances serve, each its own batches, on one device.** However their host threads
are interleaved, and in whatever order the device completes what they issue, every response of an
instance holds the outputs that its state machine hands over: captured, replayed, prestaged and eager
batches alike, where it captures nothing at load and launches every replay that it comes to. -/
theorem run_delivers {H S : Type} [DecidableEq H] {instance_ : H} {stream : Port GraphKey → S}
    {blocks : H × DeviceOp GraphKey (List E) → H × DeviceOp GraphKey (List E) → Prop}
    (held : ∀ a b, Op.Blocks stream a b → blocks (instance_, a) (instance_, b)) {cfg : Config E}
    {forward : List (Tensor E) → List (Tensor E)} {capture : Int → Option Bool} (fresh : loaded cfg forward capture = .fresh E)
    {calls : List (Call E)} {t : GraphState E} {device : Nat → DeviceChance}
    (hrun : Run (under (LaunchesCall cfg forward) (Serves cfg forward)) (loaded cfg forward capture) calls t)
    {issued : List (H × DeviceOp GraphKey (List E))}
    (hissued : project instance_ issued =
      issueFrom 3 (graphOn forward) 0 (callIssues cfg forward device 0 (loaded cfg forward capture) calls))
    {m m' : H → Memory GraphKey (List E)} (h : Completes blocks (onHost Op.act) issued m m') :
    InResponses cfg forward (m' instance_) 0 (loaded cfg forward capture) calls := by
  have hplayed : Played 3 (graphOn forward) Books.fresh (m instance_)
      (callIssues cfg forward device 0 (loaded cfg forward capture) calls) fun _ m' =>
        InResponses cfg forward m' 0 (loaded cfg forward capture) calls := by
    have hs : Mirrors none (loaded cfg forward capture) Books.fresh (m instance_) := by
      rw [fresh]
      exact mirrors_fresh _
    apply (run_played hrun hs device 0).imp
    rintro _ m' ⟨_, _, hdelivered⟩
    exact hdelivered
  apply hplayed.leaves.frame
  intro b j
  exact completes_delivers held hplayed.disciplined hissued h b j

/-! ### Two instances -/

/-- A prestaged batch is launched, where nothing fails. -/
theorem launches_prestaged {cfg : GraphConfig} {forward : List (Tensor E) → List (Tensor E)} {chance : Chance}
    {inputs : List (Tensor E)} {s : GraphState E} {key : String} {e : CudaGraphEntry E} (hkey : s.prestagedEntry = some key)
    (he : s.cudaGraphCache.lookup key = some e) (hchecked : s.warmupWidthsChecked = true) (hstream : chance.stream = none)
    (hlaunch : chance.launch = none) : Launches cfg forward chance inputs s := by
  intro a ha
  unfold attempted at ha
  split at ha
  · rename_i t0 t1 t2
    split at ha
    · cases ha
    · rename_i r _
      rcases checkWarmupWidths_cases cfg t0 t1 r s with ⟨hunchecked, _⟩ | hkept
      · rw [hchecked] at hunchecked
        cases hunchecked
      · rw [hkept] at ha
        simp only [attemptedFrom, hkey] at ha
        cases ha
        exact ⟨e, e.staticInputs, he, hstream, copyInputs_nil .., hlaunch⟩
  · cases ha

/-- The model with one output, which answers each request with its row. -/
def answeringConfig : Config Int :=
  {pairConfig with
    modelOutputs := ⟨[⟨"ROWS__0", 0, -1⟩], List.pairwise_singleton ..⟩
    outputDtypeMap := fun _ => .int64}

/-- What two requests of two elements get in a state. -/
def servedPair (s : GraphState Int) : Served Int :=
  match processRequests answeringConfig repeatRows .smooth evenPair s with
  | .ok served => served
  | .error _ => respondWithError 0 (nullRequestError answeringConfig) s

/-- The state before the first two requests. -/
def answeringLoaded : GraphState Int := loaded answeringConfig repeatRows fun _ => some true

/-- The first two requests are captured, the next two prestaged. -/
def pairCalls : List (Call Int) :=
  [⟨.smooth, evenPair, servedPair answeringLoaded⟩, ⟨.smooth, evenPair, servedPair (servedPair answeringLoaded).state⟩]

theorem run_pairCalls : Run (under (LaunchesCall answeringConfig repeatRows) (Serves answeringConfig repeatRows))
    answeringLoaded pairCalls (servedPair (servedPair answeringLoaded).state).state := by
  refine .cons ⟨?_, rfl, rfl⟩ (.cons ⟨?_, rfl, rfl⟩ (.nil _))
  · rintro requests total c ⟨hpresent, ⟨_, hcounted, _⟩, _, ⟨_, hcollected⟩⟩ a ha
    cases hpresent
    cases hcounted
    cases hcollected
    cases ha
    exact ⟨_, _, rfl, rfl, rfl, rfl⟩
  · rintro requests total c ⟨hpresent, ⟨_, hcounted, _⟩, _, ⟨_, hcollected⟩⟩
    cases hpresent
    cases hcounted
    cases setInputTensors_slots hcollected with
    | beside hnone =>
      have hdecide : decidePrestage answeringConfig
          (declaredInputs answeringConfig 2 [packedRequest 1 1 2, packedRequest 1 1 2]) 2
          (prestage answeringConfig 2 false (servedPair answeringLoaded).state) = .ok _ := rfl
      rw [setInputTensors_decided hcollected hdecide] at hnone
      cases hnone
    | into hkey _ _ _ _ restaged =>
      exact launches_prestaged (restaged.prestaged.trans hkey) restaged.entry (restaged.checked.trans rfl)
        (Chance.onSlots_stream ..) (Chance.onSlots_launch ..)

/-- What is issued for the four requests. -/
def issuedPair : List (DeviceOp GraphKey (List Int)) :=
  issueFrom 3 (graphOn repeatRows) 0 (callIssues answeringConfig repeatRows (fun _ => ⟨fun _ => 0, true, true⟩) 0
    answeringLoaded pairCalls)

/-- What each of two instances issues. -/
def issuedPairs (h : Bool) : List (Bool × DeviceOp GraphKey (List Int)) := issuedPair.map (h, ·)

/-- One host hands over all of its work, then the other; the device completes the second's first. -/
theorem run_delivers_pairs : ∃ m' : Bool → Memory GraphKey (List Int),
    Completes (fun a b => a.1 = b.1 ∧ Op.Blocks (fun _ : Port GraphKey => ()) a.2 b.2) (onHost Op.act)
      (issuedPairs false ++ issuedPairs true) (fun _ _ => []) m' ∧
    m' false (.response 1 0) = [1, 1] ∧ m' true (.response 1 0) = [1, 1] := by
  obtain ⟨m', hcompletes⟩ : ∃ m', Completes (fun a b => a.1 = b.1 ∧ Op.Blocks (fun _ : Port GraphKey => ()) a.2 b.2)
      (onHost Op.act) (issuedPairs false ++ issuedPairs true) (fun _ _ => []) m' := by
    refine ⟨_, completes_overtaking ?_ _⟩
    rintro a ha b hb ⟨hsame, _⟩
    obtain ⟨_, _, rfl⟩ := List.mem_map.mp ha
    obtain ⟨_, _, rfl⟩ := List.mem_map.mp hb
    cases hsame
  have hfresh : answeringLoaded = .fresh Int := loaded_cold (.inl (by decide)) _ _
  have hreads : ReadsOutputs answeringConfig repeatRows (servedPair answeringLoaded).state
      ⟨.smooth, evenPair, servedPair (servedPair answeringLoaded).state⟩ :=
    ⟨_, 2, _, _, rfl, rfl, by decide, rfl, rfl⟩
  have hdelivers := fun (h : Bool) (hissued : project h (issuedPairs false ++ issuedPairs true) = issuedPair) =>
    @run_delivers Int _ Bool Unit _ h (fun _ => ()) _ (fun _ _ hblocks => ⟨rfl, hblocks⟩) answeringConfig repeatRows _
      hfresh pairCalls _ _ run_pairCalls _ hissued _ _ hcompletes
  exact ⟨m', hcompletes, (hdelivers false rfl).2.1 hreads 0 _ rfl, (hdelivers true rfl).2.1 hreads 0 _ rfl⟩

end TritonAot
