import TritonAot.Model.Metrics

/-! The handles that a model owns.

Whatever calls the server fails, every handle it gives out is given back once, metrics before
their families, nothing is asked for twice, and the model warns once at most (`life_owned`). What
a model holds is what is open (`Owned`); each of its functions keeps it so. -/
namespace TritonAot

open Handles

/-! ### The handles that are open -/

/-- The handles in `o` are open, and older than the next call. -/
structure Live (s : Server) (o : Finset Handle) : Prop where
  disciplined : after Handle.parent ∅ s.uses = some o
  older : ∀ x ∈ o, x.id < s.calls

section Live
variable {fails : Nat → Option String} {s : Server} {o o' : Finset Handle} {x : Handle} {e : ServerError}

theorem live_fresh : Live .fresh ∅ := ⟨rfl, by simp⟩

theorem Live.note (h : Live s o) {l : List (Use Handle)} (hl : after Handle.parent o l = some o') (hsub : o' ⊆ o) :
    Live (s.note l) o' := ⟨after_trans h.disciplined hl, fun x hx => h.older x (hsub hx)⟩

theorem Live.used (h : Live s o) (hx : x ∈ o) : Live (s.note [.used x]) o := h.note (after_used hx) (Finset.Subset.refl o)

theorem Live.closed (h : Live s (insert x o)) (hx : x ∉ o) (last : ∀ c ∈ insert x o, c.parent ≠ some x) :
    Live (s.note [.closed x]) o := by
  apply h.note
  · rw [after_closed (Finset.mem_insert_self ..) last, Finset.erase_insert hx]
  · exact Finset.subset_insert ..

theorem Live.fresh (h : Live s o) (hid : x.id = s.calls) : x ∉ o := by
  intro hx
  have := h.older x hx
  omega

theorem Live.called (h : Live s o) : Live {s with calls := s.calls + 1} o :=
  ⟨h.disciplined, fun x hx => Nat.lt_succ_of_lt (h.older x hx)⟩

theorem Live.opened (h : Live s o) (hid : x.id = s.calls) (ready : ∀ p, x.parent = some p → p ∈ o) :
    Live (Server.note {s with calls := s.calls + 1} [.opened x]) (insert x o) := by
  constructor
  · exact after_trans h.disciplined (after_opened (h.fresh hid) ready)
  · intro y hy
    rcases Finset.mem_insert.mp hy with rfl | hy
    · show y.id < s.calls + 1
      omega
    · exact Nat.lt_succ_of_lt (h.older y hy)

/-- Only families have metrics made of them. -/
theorem parent_ne (c : Handle) (hx : ∀ f, x ≠ .family f) : c.parent ≠ some x := by
  cases c with
  | metric m =>
    intro h
    exact hx m.family (Option.some.inj h).symm
  | _ => simp [Handle.parent]

theorem Live.errorDelete (h : Live s (insert (.error e) o)) (he : .error e ∉ o) : Live (s.errorDelete e) o :=
  h.closed he fun c _ => parent_ne c (by simp)

theorem Live.parameterDelete {p : ServerParameter} (h : Live s (insert (.parameter p) o)) (hp : .parameter p ∉ o) :
    Live (s.parameterDelete p) o :=
  h.closed hp fun c _ => parent_ne c (by simp)

/-- A call returns an error that is open, or does what it is for. -/
theorem Live.attempt (h : Live s o) {done : Server → Server} {e : Option ServerError} {s' : Server}
    (hcall : s.attempt fails done = (e, s')) :
    (∃ err, e = some err ∧ Live s' (insert (.error err) o) ∧ .error err ∉ o ∧ s'.asked = s.asked ∧
      s'.warnings = s.warnings) ∨ e = none ∧ s' = done {s with calls := s.calls + 1} := by
  unfold Server.attempt at hcall
  cases hfails : fails s.calls with
  | some message =>
    simp only [hfails] at hcall
    cases hcall
    exact .inl ⟨_, rfl, h.opened rfl (by simp [Handle.parent]), h.fresh rfl, rfl, rfl⟩
  | none =>
    simp only [hfails] at hcall
    cases hcall
    exact .inr ⟨rfl, rfl⟩

theorem Live.logIfError (h : Live s o) {done : Server → Server} (hdone : Live (done {s with calls := s.calls + 1}) o) :
    Live (Server.logIfError (s.attempt fails done)) o := by
  cases hcall : s.attempt fails done with
  | mk e s' =>
    rcases h.attempt hcall with ⟨err, rfl, hlive, hnot, _⟩ | ⟨rfl, rfl⟩
    · exact (hlive.used (Finset.mem_insert_self ..)).errorDelete hnot
    · exact hdone

theorem Live.delete (h : Live s (insert x o)) (hx : x ∉ o) (last : ∀ c ∈ insert x o, c.parent ≠ some x) :
    Live (Server.logIfError (s.delete fails x)) o := by
  have hclosed := h.closed hx last
  exact hclosed.logIfError hclosed.called

/-- What is given back in order, no handle behind its parent, is given back. -/
theorem Live.foldl_delete {l : List Handle} (h : Live s l.toFinset) (hnodup : l.Nodup)
    (last : l.Pairwise fun x c => c.parent ≠ some x) :
    Live (l.foldl (fun s x => Server.logIfError (s.delete fails x)) s) ∅ := by
  induction l generalizing s with
  | nil => exact h
  | cons x rest ih =>
    obtain ⟨hx, hrest⟩ := List.nodup_cons.mp hnodup
    obtain ⟨hlast, hlater⟩ := List.pairwise_cons.mp last
    rw [List.toFinset_cons] at h
    refine ih (h.delete (by simpa using hx) ?_) hrest hlater
    intro c hc
    rcases Finset.mem_insert.mp hc with rfl | hc
    · cases c <;> simp [Handle.parent]
    · exact hlast c (by simpa using hc)

/-- `MetricFamilyNew` returns a family that is open, or an error. -/
theorem Live.metricFamilyNew (h : Live s o) {name description : String} {r : Except ServerError MetricFamily} {s' : Server}
    (hcall : s.metricFamilyNew fails name description = (r, s')) :
    (s'.asked = s.asked ∧ s'.warnings = s.warnings ∧ s'.increments = s.increments) ∧
      ((∃ e, r = .error e ∧ Live s' (insert (.error e) o) ∧ .error e ∉ o) ∨
        ∃ f, r = .ok f ∧ f.name = name ∧ Live s' (insert (.family f) o) ∧ .family f ∉ o) := by
  unfold Server.metricFamilyNew Server.attempt at hcall
  cases hfails : fails s.calls with
  | some message =>
    simp only [hfails] at hcall
    cases hcall
    exact ⟨⟨rfl, rfl, rfl⟩, .inl ⟨_, rfl, h.opened rfl (by simp [Handle.parent]), h.fresh rfl⟩⟩
  | none =>
    simp only [hfails] at hcall
    cases hcall
    exact ⟨⟨rfl, rfl, rfl⟩, .inr ⟨_, rfl, rfl, h.opened rfl (by simp [Handle.parent]), h.fresh rfl⟩⟩

theorem after_used_all {l : List ServerParameter} (h : ∀ p ∈ l, .parameter p ∈ o) :
    after Handle.parent o (l.map fun p => .used (.parameter p)) = some o := by
  induction l with
  | nil => rfl
  | cons p rest ih =>
    obtain ⟨hp, hrest⟩ := List.forall_mem_cons.mp h
    exact after_trans (after_used hp) (ih hrest)

/-- `MetricNew` returns a metric that is open, or an error. -/
theorem Live.metricNew (h : Live s o) {family : MetricFamily} {labels : List ServerParameter}
    (hfamily : .family family ∈ o) (hlabels : ∀ p ∈ labels, .parameter p ∈ o) {r : Except ServerError Metric}
    {s' : Server} (hcall : s.metricNew fails family labels = (r, s')) :
    (s'.asked = s.asked ++ [(family, labels.map fun l => (l.name, l.value))] ∧ s'.warnings = s.warnings ∧
      s'.increments = s.increments) ∧
      ((∃ e, r = .error e ∧ Live s' (insert (.error e) o) ∧ .error e ∉ o) ∨
        ∃ m, r = .ok m ∧ (m.family = family ∧ m.labels = labels.map fun l => (l.name, l.value)) ∧
          Live s' (insert (.metric m) o) ∧ .metric m ∉ o) := by
  have hasking : Live {s with asked := s.asked ++ [(family, labels.map fun l => (l.name, l.value))]} o :=
    ⟨h.disciplined, h.older⟩
  have hused := hasking.note (l := .used (.family family) :: labels.map fun l => .used (.parameter l))
    (after_trans (after_used hfamily) (after_used_all hlabels)) (Finset.Subset.refl o)
  unfold Server.metricNew Server.attempt at hcall
  cases hfails : fails s.calls with
  | some message =>
    simp only [Server.note, hfails] at hcall
    cases hcall
    exact ⟨⟨rfl, rfl, rfl⟩, .inl ⟨_, rfl, hused.opened rfl (by simp [Handle.parent]), hused.fresh rfl⟩⟩
  | none =>
    simp only [Server.note, hfails] at hcall
    cases hcall
    refine ⟨⟨rfl, rfl, rfl⟩, .inr ⟨_, rfl, ⟨rfl, rfl⟩, hused.opened rfl ?_, hused.fresh rfl⟩⟩
    rintro p hp
    cases hp
    exact hfamily

end Live

/-! ### What a model holds -/

/-- No metric was asked for twice, and none of a bucket whose key is not kept. -/
structure Asked (asked : List (MetricFamily × List (String × String))) (keys : List (MetricFamily × Int)) : Prop where
  known : ∀ q ∈ asked, q.2 = [] ∨ ∃ b : Int, q.2 = [("bucket", toString b)] ∧ (q.1, b) ∈ keys
  once : asked.Nodup

section Asked
variable {asked : List (MetricFamily × List (String × String))} {keys keys' : List (MetricFamily × Int)}

theorem Asked.mono (h : Asked asked keys) (hkeys : keys ⊆ keys') : Asked asked keys' := by
  refine ⟨fun q hq => (h.known q hq).imp_right ?_, h.once⟩
  rintro ⟨b, hb, hmem⟩
  exact ⟨b, hb, hkeys hmem⟩

/-- The metric of a bucket may be asked for once its key is kept, if it was not kept before. -/
theorem Asked.bucket (h : Asked asked keys) {family : MetricFamily} {bucket : Int} (hkey : (family, bucket) ∉ keys) :
    Asked (asked ++ [(family, [("bucket", toString bucket)])]) (keys ++ [(family, bucket)]) := by
  constructor
  · intro q hq
    rcases List.mem_append.mp hq with hq | hq
    · exact (h.mono (List.subset_append_left ..)).known q hq
    · rw [List.mem_singleton.mp hq]
      exact .inr ⟨bucket, rfl, by simp⟩
  · apply h.once.append (List.nodup_singleton _)
    intro q hq hmem
    rw [List.mem_singleton.mp hmem] at hq
    rcases h.known _ hq with hnil | ⟨b, hb, hb'⟩
    · simp at hnil
    · have hsame : bucket = b := by simpa using hb
      rw [← hsame] at hb'
      exact hkey hb'

end Asked

/-- The keys of the metrics of the buckets. -/
def MetricState.bucketKeys (m : MetricState) : List (MetricFamily × Int) := m.cudaGraphBucketMetrics.map Prod.fst

/-- A model holds what is open, each handle once, it has asked for no metric twice, and it has warned
once or not at all. -/
structure Owned (h : Host) : Prop where
  live : Live h.server h.state.handles.toFinset
  nodup : h.state.handles.Nodup
  asked : Asked h.server.asked h.state.bucketKeys
  warned : h.server.warnings.length = if h.state.cudaGraphMetricsWarned then 1 else 0

section Owned
variable {fails : Nat → Option String} {h : Host} {state : MetricState} {server : Server}

/-- What is held stays. -/
theorem Owned.keep (howned : Owned h) (hlive : Live server h.state.handles.toFinset)
    (hhandles : state.handles = h.state.handles) (hasked : Asked server.asked state.bucketKeys)
    (hwarned : server.warnings.length = if state.cudaGraphMetricsWarned then 1 else 0) : Owned ⟨state, server⟩ := by
  refine ⟨?_, ?_, hasked, hwarned⟩
  · show Live server state.handles.toFinset
    rwa [hhandles]
  · show state.handles.Nodup
    rw [hhandles]
    exact howned.nodup

/-- One more handle. -/
theorem Owned.gain (howned : Owned h) {x : Handle} (hlive : Live server (insert x h.state.handles.toFinset))
    (hx : x ∉ h.state.handles.toFinset) (hperm : state.handles.Perm (x :: h.state.handles))
    (hasked : Asked server.asked state.bucketKeys)
    (hwarned : server.warnings.length = if state.cudaGraphMetricsWarned then 1 else 0) : Owned ⟨state, server⟩ := by
  refine ⟨?_, ?_, hasked, hwarned⟩
  · show Live server state.handles.toFinset
    rwa [List.toFinset_eq_of_perm _ _ hperm, List.toFinset_cons]
  · apply hperm.nodup_iff.mpr
    exact List.nodup_cons.mpr ⟨by simpa using hx, howned.nodup⟩

/-- A family that is open, or none: then the model has warned. -/
theorem create_owned (howned : Owned h) {name description : String} {f : Option MetricFamily} {h' : Host}
    (hcall : createCudaGraphMetricFamily fails name description h = (f, h')) :
    h'.server.asked = h.server.asked ∧
      ((f = none ∧ ∃ w, h'.state = {h.state with cudaGraphMetricsWarned := w} ∧ Owned h') ∨
        ∃ family, f = some family ∧ h'.state = h.state ∧ family.name = name ∧ h'.server.warnings = h.server.warnings ∧
          Live h'.server (insert (.family family) h.state.handles.toFinset) ∧
          .family family ∉ h.state.handles.toFinset) := by
  unfold createCudaGraphMetricFamily at hcall
  cases hnew : h.server.metricFamilyNew fails name description with
  | mk r server =>
    obtain ⟨⟨hasked, hwarnings, _⟩, hcases⟩ := howned.live.metricFamilyNew hnew
    rw [hnew] at hcall
    rcases hcases with ⟨e, rfl, hlive, hnot⟩ | ⟨family, rfl, hname, hlive, hnot⟩
    · have hwarned := howned.warned
      rw [← hwarnings] at hwarned
      have hsame : Asked server.asked h.state.bucketKeys := by
        rw [hasked]
        exact howned.asked
      cases hw : h.state.cudaGraphMetricsWarned with
      | true =>
        simp only [hw, if_true] at hcall
        cases hcall
        refine ⟨hasked, .inl ⟨rfl, true, by rw [← hw], ?_⟩⟩
        exact howned.keep (hlive.errorDelete hnot) rfl hsame hwarned
      | false =>
        simp only [hw, Bool.false_eq_true, if_false] at hcall hwarned
        cases hcall
        refine ⟨hasked, .inl ⟨rfl, true, rfl, ?_⟩⟩
        have hread := hlive.used (x := .error e) (Finset.mem_insert_self ..)
        have hdeleted : Live (Server.errorDelete e {server.errorMessage e with
            warnings := server.warnings ++ [familyWarning h.state.name name e.message]}) h.state.handles.toFinset :=
          Live.errorDelete ⟨hread.disciplined, hread.older⟩ hnot
        apply howned.keep hdeleted
        · rfl
        · exact hsame
        · simp [Server.errorDelete, Server.note, hwarned]
    · cases hcall
      exact ⟨hasked, .inr ⟨family, rfl, rfl, hname, hwarnings, hlive, hnot⟩⟩

variable (fails) in
/-- A member that was null holds a family, or stays null. -/
theorem Owned.assignFamily (howned : Owned h) (name description : String)
    (assign : Option MetricFamily → MetricState → MetricState)
    (hnone : ∀ w, (assign none {h.state with cudaGraphMetricsWarned := w}).handles = h.state.handles)
    (hsome : ∀ family, (assign (some family) h.state).handles.Perm (.family family :: h.state.handles))
    (hassign : ∀ f state, (assign f state).cudaGraphBucketMetrics = state.cudaGraphBucketMetrics ∧
      (assign f state).cudaGraphMetricsWarned = state.cudaGraphMetricsWarned) :
    let assigned := assignFamily fails name description assign h
    Owned assigned ∧ assigned.server.asked = h.server.asked ∧
      ∃ f w, assigned.state = assign f {h.state with cudaGraphMetricsWarned := w} := by
  unfold TritonAot.assignFamily
  cases hcall : createCudaGraphMetricFamily fails name description h with
  | mk f h' =>
    obtain ⟨hasked, hcases⟩ := create_owned howned hcall
    rcases hcases with ⟨rfl, w, hstate, howned'⟩ | ⟨family, rfl, hstate, _, hwarnings, hlive, hnot⟩
    · refine ⟨?_, hasked, none, w, by simp only [hstate]⟩
      obtain ⟨hmap, hwarned⟩ := hassign none h'.state
      apply howned'.keep howned'.live
      · simp only [hstate]
        exact hnone w
      · rw [MetricState.bucketKeys, hmap]
        exact howned'.asked
      · rw [hwarned]
        exact howned'.warned
    · refine ⟨?_, hasked, some family, h.state.cudaGraphMetricsWarned, by simp only [hstate]⟩
      obtain ⟨hmap, hwarned⟩ := hassign (some family) h.state
      simp only [hstate]
      apply howned.gain hlive hnot (hsome family)
      · rw [MetricState.bucketKeys, hmap, hasked]
        exact howned.asked
      · rw [hwarned, hwarnings]
        exact howned.warned

variable (fails) in
/-- The eager fallbacks have a metric where they have a family and it can be made. -/
theorem Owned.newEagerFallbacks (howned : Owned h) (hnone : h.state.metricEagerFallbacks = none)
    (hasked : h.server.asked = []) : Owned (newEagerFallbacks fails h) := by
  unfold TritonAot.newEagerFallbacks
  cases hfamily : h.state.metricFamilyEagerFallbacks with
  | none => exact howned
  | some family =>
    have hopen : Handle.family family ∈ h.state.handles.toFinset := by
      simp [MetricState.handles, MetricState.families, hfamily]
    simp only
    cases hnew : h.server.metricNew fails family [] with
    | mk r server =>
      obtain ⟨⟨hnowAsked, hwarnings, _⟩, hcases⟩ := howned.live.metricNew hopen (by simp) hnew
      rw [hasked, List.nil_append, List.map_nil] at hnowAsked
      have hunlabeled : Asked server.asked h.state.bucketKeys := ⟨by simp [hnowAsked], by simp [hnowAsked]⟩
      have hwarned := howned.warned
      rw [← hwarnings] at hwarned
      rcases hcases with ⟨e, rfl, hlive, hnot⟩ | ⟨metric, rfl, _, hlive, hnot⟩
      · have hkept : {h.state with metricEagerFallbacks := none} = h.state := by rw [← hnone]
        rw [hkept]
        exact ⟨hlive.errorDelete hnot, howned.nodup, hunlabeled, hwarned⟩
      · have hgained : ({h.state with metricEagerFallbacks := some metric} : MetricState).handles.Perm
            (.metric metric :: h.state.handles) := by
          simp only [MetricState.handles, MetricState.metrics, MetricState.families, hnone, Option.toList]
          simp
        exact howned.gain hlive hnot hgained hunlabeled hwarned

theorem owned_fresh (name : String) : Owned ⟨.fresh name, .fresh⟩ where
  live := live_fresh
  nodup := List.nodup_nil
  asked := ⟨by simp [Server.fresh], List.nodup_nil⟩
  warned := rfl

variable (fails) in
/-- A new model owns its families and the metric of the eager fallbacks. -/
theorem initCudaGraphMetrics_owned (name : String) : Owned (initCudaGraphMetrics fails ⟨.fresh name, .fresh⟩) := by
  unfold initCudaGraphMetrics
  dsimp only
  obtain ⟨hreplays, askedReplays, replays, w, stateReplays⟩ :=
    (owned_fresh name).assignFamily fails "cudagraph_replays_total" "CUDA-graph replays (per R bucket)"
      (fun family m => {m with metricFamilyReplays := family}) (fun _ => rfl) (fun _ => by rfl) fun _ _ => ⟨rfl, rfl⟩
  generalize assignFamily fails _ _ _ ⟨MetricState.fresh name, Server.fresh⟩ = h at hreplays askedReplays stateReplays ⊢
  simp only [MetricState.fresh] at stateReplays
  obtain ⟨hwaste, askedWaste, waste, w, stateWaste⟩ :=
    hreplays.assignFamily fails "cudagraph_pad_waste_rows_total"
      "Padded (dummy) request rows run through CUDA-graph replay (per R bucket)"
      (fun family m => {m with metricFamilyPadWaste := family})
      (by simp [stateReplays, MetricState.handles, MetricState.families, MetricState.metrics])
      (by simp [stateReplays, MetricState.handles, MetricState.families, MetricState.metrics]) fun _ _ => ⟨rfl, rfl⟩
  generalize assignFamily fails _ _ _ h = h at hwaste askedWaste stateWaste ⊢
  simp only [stateReplays] at stateWaste
  obtain ⟨hfallbacks, askedFallbacks, fallbacks, w, stateFallbacks⟩ :=
    hwaste.assignFamily fails "cudagraph_eager_fallbacks_total"
      "Requests that fell back to eager AOTInductor instead of a CUDA graph"
      (fun family m => {m with metricFamilyEagerFallbacks := family})
      (by simp [stateWaste, MetricState.handles, MetricState.families, MetricState.metrics])
      (by
        intro family
        simp only [stateWaste, MetricState.handles, MetricState.families, MetricState.metrics, List.map_append, List.map_nil,
          Option.toList, List.filterMap_nil, List.nil_append, List.append_nil, List.map_cons]
        exact List.perm_append_singleton ..)
      fun _ _ => ⟨rfl, rfl⟩
  generalize assignFamily fails _ _ _ h = h at hfallbacks askedFallbacks stateFallbacks ⊢
  simp only [stateWaste] at stateFallbacks
  obtain ⟨hfailures, askedFailures, failures, w, stateFailures⟩ :=
    hfallbacks.assignFamily fails "cudagraph_capture_failures_total" "CUDA-graph capture failures (per R bucket)"
      (fun family m => {m with metricFamilyCaptureFailures := family})
      (by simp [stateFallbacks, MetricState.handles, MetricState.families, MetricState.metrics])
      (by
        intro family
        simp only [stateFallbacks, MetricState.handles, MetricState.families, MetricState.metrics, List.map_append,
          List.map_nil, Option.toList, List.filterMap_nil, List.nil_append, List.append_nil, List.map_cons]
        exact List.perm_append_singleton ..)
      fun _ _ => ⟨rfl, rfl⟩
  apply hfailures.newEagerFallbacks fails
  · rw [stateFailures, stateFallbacks]
  · rw [askedFailures, askedFallbacks, askedWaste, askedReplays]
    rfl

theorem created_owned (fails : Nat → Option String) (name : String) (enabledCudaGraph : Bool) :
    Owned (Host.created fails name enabledCudaGraph) := by
  cases enabledCudaGraph with
  | true => exact initCudaGraphMetrics_owned fails name
  | false => exact owned_fresh name

/-- Of the handles that are made on the way to the metric of a bucket, only the metric stays. -/
theorem Live.newBucketMetric {s : Server} {o : Finset Handle} (hlive : Live s o) {family : MetricFamily} {bucket : Int}
    (hfamily : .family family ∈ o) {r : Option Metric} {s' : Server}
    (hcall : newBucketMetric fails family bucket s = (r, s')) :
    (s'.asked = s.asked ∨ s'.asked = s.asked ++ [(family, [("bucket", toString bucket)])]) ∧
      s'.warnings = s.warnings ∧
      (r = none ∧ Live s' o ∨ ∃ m, r = some m ∧ Live s' (insert (.metric m) o) ∧ .metric m ∉ o) := by
  unfold TritonAot.newBucketMetric Server.parameterNew at hcall
  cases hfails : fails s.calls with
  | some message =>
    simp only [hfails] at hcall
    cases hcall
    exact ⟨.inl rfl, rfl, .inl ⟨rfl, hlive.called⟩⟩
  | none =>
    simp only [hfails] at hcall
    let label : ServerParameter := ⟨s.calls, "bucket", toString bucket⟩
    have hlabel : .parameter label ∉ o := hlive.fresh rfl
    have hopened := hlive.opened (x := .parameter label) rfl (by simp [Handle.parent])
    cases hnew : Server.metricNew fails family [label]
        (Server.note {s with calls := s.calls + 1} [.opened (.parameter label)]) with
    | mk made s'' =>
      obtain ⟨⟨hasked, hwarnings, _⟩, hcases⟩ :=
        hopened.metricNew (Finset.mem_insert_of_mem hfamily) (by simp) hnew
      rw [hnew] at hcall
      rcases hcases with ⟨e, rfl, hmade, hnot⟩ | ⟨metric, rfl, _, hmade, hnot⟩
      · cases hcall
        exact ⟨.inr hasked, hwarnings, .inl ⟨rfl, (hmade.errorDelete hnot).parameterDelete hlabel⟩⟩
      · cases hcall
        have hkept : .parameter label ∉ insert (.metric metric) o := by simpa using hlabel
        rw [Finset.insert_comm] at hmade
        exact ⟨.inr hasked, hwarnings, .inr ⟨metric, rfl, hmade.parameterDelete hkept,
          fun hmem => hnot (Finset.mem_insert_of_mem hmem)⟩⟩

/-- The metric of a bucket is held, or null. -/
theorem Owned.getOrCreateBucketMetric (howned : Owned h) {family : Option MetricFamily} {bucket : Int}
    (hfamily : ∀ f ∈ family, f ∈ h.state.families) {r : Option Metric} {h' : Host}
    (hcall : getOrCreateBucketMetric fails family bucket h = (r, h')) :
    Owned h' ∧ ∀ m ∈ r, m ∈ h'.state.metrics := by
  unfold TritonAot.getOrCreateBucketMetric at hcall
  cases family with
  | none =>
    cases hcall
    exact ⟨howned, by simp⟩
  | some family =>
    simp only at hcall
    cases hlookup : h.state.cudaGraphBucketMetrics.lookup (family, bucket) with
    | some metric =>
      simp only [hlookup] at hcall
      cases hcall
      refine ⟨howned, ?_⟩
      rintro m rfl
      obtain ⟨l, l', hl, _⟩ := List.lookup_eq_some_iff.mp hlookup
      simp [MetricState.metrics, hl]
    | none =>
      simp only [hlookup] at hcall
      have hopen : Handle.family family ∈ h.state.handles.toFinset := by
        simp [MetricState.handles, hfamily family rfl]
      have hkey : (family, bucket) ∉ h.state.bucketKeys := by
        intro hmem
        obtain ⟨entry, hentry, hfst⟩ := List.mem_map.mp hmem
        have := List.lookup_eq_none_iff.mp hlookup entry hentry
        simp [hfst] at this
      cases hnew : newBucketMetric fails family bucket h.server with
      | mk made server =>
        rw [hnew] at hcall
        obtain ⟨hasked, hwarnings, hmade⟩ := howned.live.newBucketMetric hopen hnew
        cases hcall
        have hgrown : ∀ entry, Asked server.asked ({h.state with cudaGraphBucketMetrics :=
            h.state.cudaGraphBucketMetrics ++ [((family, bucket), entry)]} : MetricState).bucketKeys := by
          intro entry
          simp only [MetricState.bucketKeys, List.map_append]
          rcases hasked with hasked | hasked
          · rw [hasked]
            exact howned.asked.mono (List.subset_append_left ..)
          · rw [hasked]
            exact howned.asked.bucket hkey
        have hwarned := howned.warned
        rw [← hwarnings] at hwarned
        rcases hmade with ⟨rfl, hlive⟩ | ⟨metric, rfl, hlive, hnot⟩
        · refine ⟨howned.keep hlive ?_ (hgrown none) hwarned, by simp⟩
          simp [MetricState.handles, MetricState.metrics, MetricState.families]
        · refine ⟨howned.gain hlive hnot ?_ (hgrown (some metric)) hwarned, by simp [MetricState.metrics]⟩
          simp [MetricState.handles, MetricState.metrics, MetricState.families]

theorem Owned.increment (howned : Owned h) {metric : Option Metric} (hmetric : ∀ m ∈ metric, m ∈ h.state.metrics)
    (amount : Int) : Owned (increment fails metric amount h) := by
  cases metric with
  | none => exact howned
  | some metric =>
    have hopen : Handle.metric metric ∈ h.state.handles.toFinset := by
      simp [MetricState.handles, hmetric metric rfl]
    have hused := howned.live.used hopen
    unfold TritonAot.increment
    simp only
    cases hcall : h.server.metricIncrement fails metric amount with
    | mk e server =>
      rcases hused.attempt hcall with ⟨err, rfl, hlive, hnot, hasked, hwarnings⟩ | ⟨rfl, rfl⟩
      · apply howned.keep (hlive.errorDelete hnot) rfl
        · show Asked server.asked _
          rw [hasked]
          exact howned.asked
        · show server.warnings.length = _
          rw [hwarnings]
          exact howned.warned
      · exact ⟨⟨hused.disciplined, hused.called.older⟩, howned.nodup, howned.asked, howned.warned⟩

theorem Owned.countAt (howned : Owned h) {family : Option MetricFamily} (hfamily : ∀ f ∈ family, f ∈ h.state.families)
    (bucket amount : Int) : Owned (countAt fails family bucket amount h) := by
  unfold TritonAot.countAt
  cases hcall : TritonAot.getOrCreateBucketMetric fails family bucket h with
  | mk metric h' =>
    obtain ⟨howned', hmetric⟩ := howned.getOrCreateBucketMetric hfamily hcall
    exact howned'.increment hmetric amount

/-- Every call keeps what a model holds in order. -/
theorem Owned.make (howned : Owned h) (call : MetricCall) : Owned (h.make fails call) := by
  cases call with
  | replay bucket =>
    apply howned.countAt
    intro f hf
    simp [MetricState.families, Option.mem_def.mp hf]
  | padWaste bucket rows =>
    apply howned.countAt
    intro f hf
    simp [MetricState.families, Option.mem_def.mp hf]
  | eagerFallback =>
    apply howned.increment
    intro m hm
    simp [MetricState.metrics, Option.mem_def.mp hm]
  | captureFailure bucket =>
    apply howned.countAt
    intro f hf
    simp [MetricState.families, Option.mem_def.mp hf]

variable (fails) in
theorem Owned.run (howned : Owned h) (calls : List MetricCall) : Owned (calls.foldl (Host.make fails) h) := by
  induction calls generalizing h with
  | nil => exact howned
  | cons call rest ih => exact ih (howned.make call)

/-- No metric stands behind its family. -/
theorem handles_ordered (m : MetricState) : m.handles.Pairwise fun x c => c.parent ≠ some x := by
  rw [MetricState.handles, List.pairwise_append]
  refine ⟨?_, ?_, ?_⟩
  · apply List.pairwise_map.mpr
    exact List.pairwise_of_forall fun _ _ => by simp [Handle.parent]
  · apply List.pairwise_map.mpr
    exact List.pairwise_of_forall fun _ _ => by simp [Handle.parent]
  · intro x _ c hc
    obtain ⟨f, _, rfl⟩ := List.mem_map.mp hc
    simp [Handle.parent]

variable (fails) in
/-- A deletion asks for no metric and does not warn. -/
theorem logIfError_delete (s : Server) (x : Handle) :
    (Server.logIfError (s.delete fails x)).asked = s.asked ∧
      (Server.logIfError (s.delete fails x)).warnings = s.warnings := by
  unfold Server.delete Server.attempt
  split <;> exact ⟨rfl, rfl⟩

variable (fails) in
theorem foldl_delete (l : List Handle) (s : Server) :
    (l.foldl (fun s x => Server.logIfError (s.delete fails x)) s).asked = s.asked ∧
      (l.foldl (fun s x => Server.logIfError (s.delete fails x)) s).warnings = s.warnings := by
  induction l generalizing s with
  | nil => exact ⟨rfl, rfl⟩
  | cons x rest ih =>
    obtain ⟨hasked, hwarnings⟩ := logIfError_delete fails s x
    obtain ⟨hasked', hwarnings'⟩ := ih (Server.logIfError (s.delete fails x))
    exact ⟨hasked'.trans hasked, hwarnings'.trans hwarnings⟩

end Owned

/-- **A model gives back every handle once**: whichever calls fail, from its creation to its
destruction a handle is used only while it is open, a family is deleted behind its metrics, nothing
is left open, no metric was asked for twice, and the model warned once at most. -/
theorem life_owned (fails : Nat → Option String) (name : String) (enabledCudaGraph : Bool) (calls : List MetricCall) :
    let gone := destroy fails (calls.foldl (Host.make fails) (Host.created fails name enabledCudaGraph))
    after Handle.parent ∅ gone.uses = some ∅ ∧
      (∀ x, gone.uses.count (.opened x) = gone.uses.count (.closed x)) ∧ gone.asked.Nodup ∧
      gone.warnings.length ≤ 1 := by
  have howned := (created_owned fails name enabledCudaGraph).run fails calls
  generalize calls.foldl (Host.make fails) (Host.created fails name enabledCudaGraph) = h at howned
  obtain ⟨hasked, hwarnings⟩ := foldl_delete fails h.state.handles h.server
  have hlive : Live (destroy fails h) ∅ := howned.live.foldl_delete howned.nodup (handles_ordered h.state)
  refine ⟨hlive.disciplined, ?_, ?_, ?_⟩
  · intro x
    simpa using count_opened hlive.disciplined x
  · rw [destroy, hasked]
    exact howned.asked.once
  · rw [destroy, hwarnings, howned.warned]
    split <;> simp

end TritonAot
