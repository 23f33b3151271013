import TritonAot.Graph.Device
import TritonAot.Graph.Entries

/-! The state of the graph path is on the device.

Where every replay is launched, what a call of `Execute` issues keeps the discipline, and
completed in turn it leaves the entries of the state (`Mirrors`) and the outputs that the
call returns (`execute_played`). -/
namespace TritonAot

open Streams

variable {E : Type} [Scalars E]

/-! ### What a launched replay leaves -/

section Launched
variable {forward : List (Tensor E) → List (Tensor E)} {chance : Chance} {a : Attempt E} {e : CudaGraphEntry E}
  {statics : List (Tensor E)}

/-- What is appended are slices, from the first output on. -/
theorem appendOutputs_slices {fault : Nat → Option String} {r : Nat} {bucket : Int} {i : Nat}
    {outs acc acc' : List (Tensor E)} {result : Except Fault Unit}
    (h : appendOutputs fault r bucket i outs acc = (result, acc')) :
    ∃ pre, acc' = acc ++ pre ∧ ∀ (j : Nat) (o' : Tensor E), pre[j]? = some o' →
      ∃ o, outs[j]? = some o ∧ sliceOutput r bucket o = .ok o' := by
  induction outs generalizing i acc with
  | nil =>
    cases h
    exact ⟨[], (List.append_nil _).symm, fun j o' hj => by cases hj⟩
  | cons o rest ih =>
    rw [appendOutputs] at h
    split at h
    · cases h
      exact ⟨[], (List.append_nil _).symm, fun j o' hj => by cases hj⟩
    · rename_i sliced hsliced
      obtain ⟨_, _, hslice⟩ := bind_ok.mp hsliced
      obtain ⟨pre, rfl, hpre⟩ := ih h
      refine ⟨sliced :: pre, List.append_assoc .., ?_⟩
      intro j o' hj
      cases j with
      | zero =>
        cases hj
        exact ⟨o, rfl, hslice⟩
      | succ j => exact hpre j o' hj

variable (forward) in
theorem Launched.leaves (h : Launched chance a e statics) :
    (∃ metrics, (a.replay forward chance []).state =
        {a.state.setEntry a.key ⟨statics, forward statics⟩ with metrics := metrics}) ∧
      ∀ (j : Nat) (o' : Tensor E), (a.replay forward chance []).outputs[j]? = some o' →
        ∃ o, (forward statics)[j]? = some o ∧ sliceOutput a.r a.bucket o = .ok o' := by
  unfold Attempt.replay replayCudaGraphEntry
  rw [h.entry]
  simp only [h.stream, h.copied, h.launch, raise]
  cases happ : appendOutputs chance.slice a.r a.bucket 0 (forward statics) [] with
  | mk result acc =>
    obtain ⟨pre, rfl, hpre⟩ := appendOutputs_slices happ
    cases result with
    | error f =>
      simp only [replayCaught_outputs]
      exact ⟨replayCaught_state .., hpre⟩
    | ok _ =>
      cases chance.restore with
      | some what =>
        simp only [replayCaught_outputs]
        exact ⟨replayCaught_state .., hpre⟩
      | none => exact ⟨⟨_, rfl⟩, hpre⟩

/-- The copies keep types and shapes. -/
theorem Launched.infos (h : Launched chance a e statics) : statics.map Tensor.info = e.staticInputs.map Tensor.info := by
  obtain ⟨hshapes, heach⟩ := copyInputs_each h.copied
  apply List.ext_getElem?
  intro j
  rw [List.getElem?_map, List.getElem?_map]
  cases hj : e.staticInputs[j]? with
  | none =>
    have hlen := hshapes.length_eq
    rw [List.getElem?_eq_none_iff] at hj
    rw [List.getElem?_eq_none (by omega)]
  | some st =>
    rcases heach j st hj with hsame | ⟨_, u, _, hu, hcopy, _⟩
    · rw [hsame]
    · obtain ⟨_, hdtype, hdevice, hshape, _⟩ := Tensor.copy_ok hcopy
      rw [hu]
      simp [Tensor.info, hdtype, hdevice, hshape]

end Launched

/-! ### The entries on the device -/

section Mirrors
variable {forward : List (Tensor E) → List (Tensor E)} {s s' : GraphState E} {books : Books GraphKey}
  {m m' : Memory GraphKey (List E)} {fresh : Option String}

/-- The entries are on the device, and primed but for a fresh one. -/
structure Mirrors (fresh : Option String) (s : GraphState E) (books : Books GraphKey) (m : Memory GraphKey (List E)) :
    Prop where
  statics : ∀ {key e}, s.cudaGraphCache.lookup key = some e → OnDevice m (.staticInput (e.graphKey key)) e.staticInputs
  arity : ∀ {key e}, s.cudaGraphCache.lookup key = some e → e.staticInputs.length = 3
  captured : ∀ {key e}, s.cudaGraphCache.lookup key = some e → e.graphKey key ∈ books.captured
  primed : ∀ {key e}, s.cudaGraphCache.lookup key = some e → fresh ≠ some key → e.graphKey key ∈ books.primed
  known : ∀ k ∈ books.captured, (∃ e, s.cudaGraphCache.lookup k.1 = some e) ∨ k.1 ∈ s.cudaGraphFailed
  unchecked : s.warmupWidthsChecked = false → s.cudaGraphCache = ∅ ∧ s.cudaGraphFailed = ∅

theorem mirrors_fresh (m : Memory GraphKey (List E)) : Mirrors none (.fresh E) Books.fresh m where
  statics h := by cases h
  arity h := by cases h
  captured h := by cases h
  primed h := by cases h
  known k hk := absurd hk (Finset.notMem_empty k)
  unchecked _ := ⟨rfl, rfl⟩

theorem Mirrors.frame (h : Mirrors fresh s books m) (hsame : ∀ b key, b.entryKey = some key → m' b = m b) :
    Mirrors fresh s books m' := {h with statics := fun he => (h.statics he).frame fun _ => hsame _ _ rfl}

/-- The counters and the prestaged entry are not on the device. -/
theorem Mirrors.of_same (h : Mirrors fresh s books m) (hcache : s'.cudaGraphCache = s.cudaGraphCache)
    (hfailed : s'.cudaGraphFailed = s.cudaGraphFailed)
    (hchecked : s'.warmupWidthsChecked = false → s.warmupWidthsChecked = false) : Mirrors fresh s' books m where
  statics he := h.statics (hcache ▸ he)
  arity he := h.arity (hcache ▸ he)
  captured he := h.captured (hcache ▸ he)
  primed he := h.primed (hcache ▸ he)
  known := by
    rw [hcache, hfailed]
    exact h.known
  unchecked hun := by
    rw [hcache, hfailed]
    exact h.unchecked (hchecked hun)

/-- The width check evicts nothing that is on the device. -/
theorem Mirrors.checkWarmupWidths (h : Mirrors none s books m) (cfg : GraphConfig) (t0 t1 : Tensor E) (r : Nat)
    (hentry : ∀ key, s.prestagedEntry = some key → ∃ e, s.cudaGraphCache.lookup key = some e) :
    let checked := (checkWarmupWidths cfg t0 t1 r s).1
    Mirrors none checked books m ∧ checked.warmupWidthsChecked = true ∧
      checked.cudaGraphCache = s.cudaGraphCache ∧ checked.prestagedEntry = s.prestagedEntry := by
  rcases checkWarmupWidths_cases cfg t0 t1 r s with ⟨hunchecked, heq⟩ | heq
  · obtain ⟨hcache, hfailed⟩ := h.unchecked hunchecked
    rw [heq]
    refine ⟨h.of_same hcache.symm hfailed.symm nofun, rfl, hcache.symm, ?_⟩
    cases hprestaged : s.prestagedEntry with
    | none => rfl
    | some key =>
      obtain ⟨e, he⟩ := hentry key hprestaged
      rw [hcache, AList.lookup_empty] at he
      cases he
  · rw [heq]
    exact ⟨h.of_same rfl rfl nofun, rfl, rfl, rfl⟩

section Capture
variable {key : String} {inputs : List (Tensor E)}

/-- A key that is neither cached nor failed was never captured. -/
theorem Mirrors.uncaptured (h : Mirrors none s books m) (missing : s.cudaGraphCache.lookup key = none)
    (healthy : key ∉ s.cudaGraphFailed) (infos : List TensorInfo) : (key, infos) ∉ books.captured := by
  intro hcaptured
  rcases h.known _ hcaptured with ⟨e, he⟩ | hfailed
  · rw [missing] at he
    cases he
  · exact healthy hfailed

theorem lookup_ne {key' : String} {e : CudaGraphEntry E} (missing : s.cudaGraphCache.lookup key = none)
    (he : s.cudaGraphCache.lookup key' = some e) : key' ≠ key := by
  rintro rfl
  rw [missing] at he
  cases he

theorem Mirrors.emplace (h : Mirrors none s books m) (missing : s.cudaGraphCache.lookup key = none)
    (hchecked : s.warmupWidthsChecked = true) (outs : List (Tensor E)) (hthree : inputs.length = 3)
    (hframe : ∀ b, b.entryKey ≠ some (key, inputs.map Tensor.info) → m' b = m b)
    (hclones : OnDevice m' (.staticInput (key, inputs.map Tensor.info)) inputs) :
    Mirrors (some key) {s with cudaGraphCache := emplace s.cudaGraphCache key ⟨inputs, outs⟩}
      {books with captured := insert (key, inputs.map Tensor.info) books.captured} m' := by
  have hlookup : ∀ {key' e}, (TritonAot.emplace s.cudaGraphCache key ⟨inputs, outs⟩).lookup key' = some e →
      key' = key ∧ e = ⟨inputs, outs⟩ ∨ key' ≠ key ∧ s.cudaGraphCache.lookup key' = some e := by
    intro key' e he
    by_cases hkey : key' = key
    · subst hkey
      rw [lookup_emplace_self missing] at he
      exact .inl ⟨rfl, (Option.some.inj he).symm⟩
    · rw [lookup_emplace_ne _ hkey] at he
      exact .inr ⟨hkey, he⟩
  constructor
  · intro key' e he
    rcases hlookup he with ⟨rfl, rfl⟩ | ⟨hkey, he⟩
    · exact hclones
    · apply (h.statics he).frame
      intro i
      apply hframe
      intro heq
      exact hkey (congrArg Prod.fst (Option.some.inj heq))
  · intro key' e he
    rcases hlookup he with ⟨rfl, rfl⟩ | ⟨_, he⟩
    · exact hthree
    · exact h.arity he
  · intro key' e he
    rcases hlookup he with ⟨rfl, rfl⟩ | ⟨_, he⟩
    · exact Finset.mem_insert_self ..
    · exact Finset.mem_insert_of_mem (h.captured he)
  · intro key' e he hfresh
    rcases hlookup he with ⟨rfl, rfl⟩ | ⟨_, he⟩
    · exact absurd rfl hfresh
    · exact h.primed he nofun
  · intro k hk
    rcases Finset.mem_insert.mp hk with rfl | hk
    · exact .inl ⟨_, lookup_emplace_self missing _⟩
    · refine (h.known k hk).imp_left ?_
      rintro ⟨e, he⟩
      exact ⟨e, (lookup_emplace_ne _ (lookup_ne missing he) _).trans he⟩
  · intro hunchecked
    exact absurd hunchecked (by simp [hchecked])

theorem Mirrors.failedAt {cand : Int} (h : Mirrors none s books m)
    (missing : s.cudaGraphCache.lookup (bucketKey cand) = none) (hchecked : s.warmupWidthsChecked = true)
    {infos : List TensorInfo} (hframe : ∀ b, b.entryKey ≠ some (bucketKey cand, infos) → m' b = m b) :
    Mirrors none (s.failedAt cand) {books with captured := insert (bucketKey cand, infos) books.captured} m' where
  statics he := by
    apply (h.statics he).frame
    intro i
    apply hframe
    intro heq
    exact lookup_ne missing he (congrArg Prod.fst (Option.some.inj heq))
  arity := h.arity
  captured he := Finset.mem_insert_of_mem (h.captured he)
  primed := h.primed
  known k hk := by
    rcases Finset.mem_insert.mp hk with rfl | hk
    · exact .inr (Finset.mem_insert_self ..)
    · exact (h.known k hk).imp_right Finset.mem_insert_of_mem
  unchecked hunchecked := absurd hunchecked (by simp [GraphState.failedAt, hchecked])

end Capture

/-- The static inputs of one entry are rewritten, and it is primed. -/
theorem Mirrors.rewritten {key : String} {e : CudaGraphEntry E} {statics outs : List (Tensor E)}
    (h : Mirrors fresh s books m) (hfresh : fresh = none ∨ fresh = some key)
    (he : s.cudaGraphCache.lookup key = some e) (hentry : s'.cudaGraphCache.lookup key = some ⟨statics, outs⟩)
    (hothers : ∀ k, k ≠ key → s'.cudaGraphCache.lookup k = s.cudaGraphCache.lookup k)
    (hfailed : s'.cudaGraphFailed = s.cudaGraphFailed)
    (hchecked : s'.warmupWidthsChecked = s.warmupWidthsChecked)
    (hinfos : statics.map Tensor.info = e.staticInputs.map Tensor.info)
    (hframe : ∀ b, b.entryKey ≠ some (e.graphKey key) → m' b = m b)
    (hstatics : OnDevice m' (.staticInput (e.graphKey key)) statics) :
    Mirrors none s' {books with primed := insert (e.graphKey key) books.primed} m' := by
  have hkey : (⟨statics, outs⟩ : CudaGraphEntry E).graphKey key = e.graphKey key := by
    simp [CudaGraphEntry.graphKey, hinfos]
  have hlookup : ∀ {key' e'}, s'.cudaGraphCache.lookup key' = some e' →
      key' = key ∧ e' = ⟨statics, outs⟩ ∨ key' ≠ key ∧ s.cudaGraphCache.lookup key' = some e' := by
    intro key' e' he'
    by_cases heq : key' = key
    · subst heq
      rw [hentry] at he'
      exact .inl ⟨rfl, (Option.some.inj he').symm⟩
    · rw [hothers _ heq] at he'
      exact .inr ⟨heq, he'⟩
  constructor
  · intro key' e' he'
    rcases hlookup he' with ⟨rfl, rfl⟩ | ⟨hne, he'⟩
    · rw [hkey]
      exact hstatics
    · apply (h.statics he').frame
      intro i
      apply hframe
      intro heq
      exact hne (congrArg Prod.fst (Option.some.inj heq))
  · intro key' e' he'
    rcases hlookup he' with ⟨rfl, rfl⟩ | ⟨_, he'⟩
    · have hlen := congrArg List.length hinfos
      rw [List.length_map, List.length_map, h.arity he] at hlen
      exact hlen
    · exact h.arity he'
  · intro key' e' he'
    rcases hlookup he' with ⟨rfl, rfl⟩ | ⟨_, he'⟩
    · rw [hkey]
      exact h.captured he
    · exact h.captured he'
  · intro key' e' he' _
    rcases hlookup he' with ⟨rfl, rfl⟩ | ⟨hne, he'⟩
    · rw [hkey]
      exact Finset.mem_insert_self ..
    · apply Finset.mem_insert_of_mem
      apply h.primed he'
      rcases hfresh with rfl | rfl
      · nofun
      · simpa using hne.symm
  · intro k hk
    rw [hfailed]
    refine (h.known k hk).imp_left ?_
    rintro ⟨e', he'⟩
    by_cases heq : k.1 = key
    · rw [heq]
      exact ⟨_, hentry⟩
    · exact ⟨e', (hothers _ heq).trans he'⟩
  · intro hunchecked
    rw [hchecked] at hunchecked
    rw [(h.unchecked hunchecked).1, AList.lookup_empty] at he
    cases he

end Mirrors

/-! ### The parts of a call -/

section Parts
variable {graph : GraphKey → List (List E) → Nat → List E} {forward : List (Tensor E) → List (Tensor E)}
  {s : GraphState E} {books : Books GraphKey} {m : Memory GraphKey (List E)} {inputs : List (Tensor E)} {r : Nat}
  {cand : Int}

theorem padsFrom_ok {alloc : Int → Nat → Option String} {per i : Nat} {out : List (Tensor E)}
    (h : padFrom alloc per r cand i inputs = .ok out) {j : Nat} {u : Tensor E}
    (hu : out[j]? = some u) :
    ∃ t pad, inputs[j]? = some t ∧ (padsFrom alloc per r cand i inputs)[j]? = some pad ∧ pad t.data = u.data := by
  induction inputs generalizing i j out with
  | nil =>
    cases h
    cases hu
  | cons t rest ih =>
    obtain ⟨padded, hpad, h⟩ := bind_ok.mp h
    obtain ⟨out', hout, h⟩ := bind_ok.mp h
    cases h
    simp only [padsFrom, hpad]
    cases j with
    | zero =>
      cases hu
      exact ⟨t, _, rfl, rfl, elementwise_ok hpad⟩
    | succ j => exact ih hout hu

theorem pad_played {alloc : Int → Nat → Option String} (hin : OnDevice m .gathered inputs) :
    Played 3 graph books m (padIssues alloc inputs r cand) fun books' m' => books' = books ∧
      (∀ b, (∀ i, b ≠ .padded i) → m' b = m b) ∧
      ∀ out, atCandidate (padRequestsUp alloc inputs r) inputs r cand = .ok out → OnDevice m' (placedAt r cand) out := by
  unfold padIssues atCandidate
  by_cases hcand : cand = r
  · have hplaced : placedAt r cand = .gathered := by
      funext i
      simp [placedAt, hcand]
    rw [if_pos hcand, if_pos hcand, hplaced]
    apply Played.nil
    refine ⟨rfl, fun _ _ => rfl, ?_⟩
    rintro out hout
    cases hout
    exact hin
  · have hplaced : placedAt r cand = .padded := by
      funext i
      simp [placedAt, hcand]
    rw [if_neg hcand, if_neg hcand, hplaced, padRequestsUp]
    cases inputs[1]? with
    | none =>
      apply Played.nil
      exact ⟨rfl, fun _ _ => rfl, by simp⟩
    | some multi =>
      refine Played.one (show Routine.Allowed 3 books (.padRequestsUp _) from trivial) ⟨rfl, ?_, ?_⟩
      · intro b hb
        apply issue_frame
        rintro ⟨i, hi⟩
        exact hb i hi
      intro out hout
      simp only at hout
      split at hout
      · cases hout
      · rw [Routine.issue, issue_pads]
        apply onDevice_copies
        · intro i j h
          cases h
          rfl
        · intro c hc i
          obtain ⟨j, _, rfl⟩ := List.mem_mapIdx.mp hc
          simp
        · intro i u hu
          obtain ⟨t, pad, ht, hpad, hdata⟩ := padsFrom_ok hout hu
          refine ⟨(.gathered (0 + i), pad), ?_, ?_⟩
          · simp [List.getElem?_mapIdx, hpad]
          · rw [Nat.zero_add, hin i t ht]
            exact hdata

theorem placedAt_ofBatch (r : Nat) (cand : Int) (i : Nat) : OfBatch (placedAt r cand i) := by
  unfold placedAt
  split
  · exact .gathered i
  · exact .padded i

theorem capture_played {key : GraphKey} (hkey : key ∉ books.captured) (hplaced : OnDevice m (placedAt r cand) inputs)
    (thrown : Option Nat) :
    Played 3 graph books m [.captureBucket key ((List.range inputs.length).map (placedAt r cand)) thrown]
      fun books' m' => books' = {books with captured := insert key books.captured} ∧
        (∀ b, b.entryKey ≠ some key → m' b = m b) ∧ (thrown = none → OnDevice m' (.staticInput key) inputs) := by
  refine Played.one (show Routine.Allowed 3 books (.captureBucket key _ _) from hkey) ⟨rfl, ?_, ?_⟩
  · intro b hb
    apply issue_frame
    exact hb
  rintro rfl i t ht
  obtain ⟨hi, _⟩ := List.getElem?_eq_some_iff.mp ht
  have hsource : ((List.range inputs.length).map (placedAt r cand))[i]? = some (placedAt r cand i) := by simp [hi]
  refine (runOps_clones m hsource ?_).trans (hplaced i t ht)
  intro j heq
  have := (placedAt_ofBatch r cand i).entry
  rw [heq] at this
  cases this

theorem Mirrors.loosen (h : Mirrors none s books m) (fresh : Option String) : Mirrors fresh s books m :=
  {h with primed := fun he _ => h.primed he nofun}

/-- The selection leaves the batch at the bucket it returns, whose entry may be fresh. -/
theorem select_played {chance : Chance} {issued : Int → Nat} {cands : List Int} {s' : GraphState E}
    {value : Except Fault (Option (Selected E))} {events : List (Event E)}
    (h : Selects forward chance.capture (padRequestsUp chance.alloc inputs r) inputs r cands s value s' events)
    (hs : Mirrors none s books m) (hin : OnDevice m .gathered inputs) (hchecked : s.warmupWidthsChecked = true)
    (hthree : ∀ cand out, atCandidate (padRequestsUp chance.alloc inputs r) inputs r cand = .ok out → out.length = 3) :
    Played 3 graph books m (selectIssues chance issued inputs r cands s) fun books' m' =>
      (∀ b, b.entryKey = none → (∀ i, b ≠ .padded i) → m' b = m b) ∧
        (∃ fresh, Mirrors fresh s' books' m' ∧ ∀ key, fresh = some key →
          ∃ sel, value = .ok (some sel) ∧ key = bucketKey sel.bucket) ∧
        ∀ sel, value = .ok (some sel) → sel.inputsAtBucket.length = 3 ∧
          OnDevice m' (placedAt r sel.bucket) sel.inputsAtBucket := by
  induction h generalizing books m with
  | exhausted s =>
    apply Played.nil
    exact ⟨fun _ _ _ => rfl, ⟨none, hs, nofun⟩, nofun⟩
  | failed hfailed _ ih =>
    rw [selectIssues, if_pos hfailed]
    exact ih hs hin hchecked
  | fault healthy hat =>
    rw [selectIssues, if_neg healthy, hat]
    simp only [List.append_nil]
    apply (pad_played hin).imp
    rintro _ m' ⟨rfl, hframe, _⟩
    refine ⟨fun b _ hb => hframe b hb, ⟨none, hs.frame fun b key he => hframe b ?_, nofun⟩, nofun⟩
    rintro i rfl
    cases he
  | cached healthy hat found =>
    rw [selectIssues, if_neg healthy, hat]
    simp only [found, List.append_nil]
    apply (pad_played hin).imp
    rintro _ m' ⟨rfl, hframe, hplaced⟩
    refine ⟨fun b _ hb => hframe b hb, ⟨none, hs.frame fun b key he => hframe b ?_, nofun⟩, ?_⟩
    · rintro i rfl
      cases he
    · rintro sel hsel
      cases hsel
      exact ⟨hthree _ _ hat, hplaced _ hat⟩
  | @captured cand rest s candInputs healthy hat missing captures =>
    rw [selectIssues, if_neg healthy, hat]
    simp only [missing, captures, if_true]
    apply (pad_played hin).append
    rintro _ m₁ ⟨rfl, hpad, hplaced⟩
    have hs₁ : Mirrors none s _ m₁ := hs.frame fun b key he => hpad b (by rintro i rfl; cases he)
    apply (capture_played (hs₁.uncaptured missing healthy _) (hplaced _ hat) none).imp
    rintro _ m' ⟨rfl, hframe, hclones⟩
    refine ⟨?_, ⟨some (bucketKey cand), ?_, ?_⟩, ?_⟩
    · intro b hentry hb
      rw [hframe b (by simp [hentry]), hpad b hb]
    · exact hs₁.emplace missing hchecked _ (hthree _ _ hat) hframe (hclones rfl)
    · rintro key hkey
      cases hkey
      exact ⟨_, rfl, rfl⟩
    · rintro sel hsel
      cases hsel
      refine ⟨hthree _ _ hat, (hplaced _ hat).frame fun i => hframe _ ?_⟩
      rw [(placedAt_ofBatch r cand i).entry]
      nofun
  | @missed cand rest s candInputs value s' events healthy hat missing fails _ ih =>
    rw [selectIssues, if_neg healthy, hat]
    simp only [missing, fails, Bool.false_eq_true, if_false]
    apply (pad_played hin).append
    rintro _ m₁ ⟨rfl, hpad, hplaced⟩
    have hs₁ : Mirrors none s _ m₁ := hs.frame fun b key he => hpad b (by rintro i rfl; cases he)
    rw [← List.singleton_append]
    apply (capture_played (hs₁.uncaptured missing healthy _) (hplaced _ hat) (some (issued cand))).append
    rintro _ m₂ ⟨rfl, hframe, _⟩
    have hin₂ : OnDevice m₂ .gathered inputs := by
      apply hin.frame
      intro i
      rw [hframe _ (by simp [Buffer.entryKey]), hpad (.gathered i) (by simp)]
    apply (ih (hs₁.failedAt missing hchecked hframe) hin₂ hchecked).imp
    rintro books' m' ⟨hkept, hfresh, hsel⟩
    refine ⟨?_, hfresh, hsel⟩
    intro b hentry hb
    rw [hkept b hentry hb, hframe b (by simp [hentry]), hpad b hb]

/-- A launched replay leaves the forward pass of the static inputs, and primes its entry. -/
theorem Launched.played {chance : Chance} {a : Attempt E} {e : CudaGraphEntry E} {statics : List (Tensor E)}
    {fresh : Option String} (h : Launched chance a e statics) (hs : Mirrors fresh a.state books m)
    (hcopies : a.copyFrom = none ∧ fresh = none ∨ (fresh = none ∨ fresh = some a.key) ∧ ∃ srcs,
      a.copyFrom = some srcs ∧ srcs.length = 3 ∧ OnDevice m (placedAt a.r a.bucket) srcs) :
    Played 3 (graphOn forward) books m a.issues fun books' m' =>
      Mirrors none (a.replay forward chance []).state books' m' ∧ (∀ b, b.entryKey = none → m' b = m b) ∧
        e.graphKey a.key ∈ books'.primed ∧ OnDevice m' (.staticOutput (e.graphKey a.key)) (forward statics) := by
  have hinfos := h.infos
  have hlen : statics.length = 3 := by
    have := congrArg List.length hinfos
    rwa [List.length_map, List.length_map, hs.arity h.entry] at this
  have hfresh : fresh = none ∨ fresh = some a.key := hcopies.elim (fun hnone => .inl hnone.2) And.left
  have hissues : a.issues = [.replayCudaGraphEntry (e.graphKey a.key) (a.copies e) none] := by
    rw [Attempt.issues, h.entry]
  rw [hissues]
  apply Played.one
  · refine ⟨hs.captured h.entry, ?_, ?_⟩
    · intro c hc
      obtain ⟨i, _, rfl⟩ := List.mem_mapIdx.mp hc
      exact placedAt_ofBatch ..
    · rcases hcopies with ⟨hnone, rfl⟩ | ⟨_, srcs, hsrcs, hthree, _⟩
      · exact .inl ⟨by simp [Attempt.copies, hnone], hs.primed h.entry nofun⟩
      · exact .inr (by simp [Attempt.copies, hsrcs, hthree])
  · let mid := runOps (copiesFrom (.graph (e.graphKey a.key)) (.staticInput (e.graphKey a.key)) 0 (a.copies e)) m
    have hrun : runOps ((Routine.replayCudaGraphEntry (e.graphKey a.key) (a.copies e) none).issue 3 (graphOn forward) 0) m =
        (TritonAot.launch 3 (graphOn forward) (e.graphKey a.key) : DeviceOp GraphKey (List E)).act mid := by
      simp only [Routine.issue, runOps_append]
      rfl
    have hmid : OnDevice mid (.staticInput (e.graphKey a.key)) statics := by
      rcases hcopies with ⟨hnone, rfl⟩ | ⟨_, srcs, hsrcs, hthree, hplaced⟩
      · have hcopied := h.copied
        rw [hnone, Option.getD_none, copyInputs_nil] at hcopied
        cases hcopied
        have hno : a.copies e = [] := by simp [Attempt.copies, hnone]
        show OnDevice (runOps (copiesFrom _ _ 0 (a.copies e)) m) _ _
        rw [hno]
        exact hs.statics h.entry
      · have hcopied := h.copied
        rw [hsrcs] at hcopied
        obtain ⟨_, _, heach⟩ := copyInputs_ok hcopied
        apply onDevice_copies
        · intro i j heq
          cases heq
          rfl
        · intro c hc i heq
          obtain ⟨j, _, rfl⟩ := List.mem_mapIdx.mp hc
          have hnone : (placedAt a.r a.bucket j).entryKey = none := (placedAt_ofBatch a.r a.bucket j).entry
          simp only at heq
          rw [heq] at hnone
          cases hnone
        · intro i t ht
          obtain ⟨hi, _⟩ := List.getElem?_eq_some_iff.mp ht
          have hsrc : srcs[i]? = some srcs[i] := List.getElem?_eq_getElem (by omega)
          obtain ⟨st, st', hst, hcopy, hst'⟩ := heach i _ hsrc
          rw [ht] at hst'
          cases hst'
          have hcopied : e.copyInto i srcs[i] = .ok t := by simp only [CudaGraphEntry.copyInto, hst, hcopy]
          refine ⟨(placedAt a.r a.bucket i, elementwise srcs[i].info (e.copyInto i)), ?_, ?_⟩
          · simp [Attempt.copies, hsrcs, List.getElem?_mapIdx, hsrc]
          · show elementwise srcs[i].info (e.copyInto i) (m (placedAt a.r a.bucket i)) = t.data
            rw [hplaced i _ hsrc, elementwise_ok hcopied]
    have hframe : ∀ b, b.entryKey ≠ some (e.graphKey a.key) →
        runOps ((Routine.replayCudaGraphEntry (e.graphKey a.key) (a.copies e) none).issue 3 (graphOn forward) 0) m b = m b :=
      fun b hb => issue_frame (by exact hb) 0
    obtain ⟨⟨metrics, hstate⟩, _⟩ := h.leaves forward
    rw [hstate]
    refine ⟨?_, fun b hb => hframe b (by simp [hb]), Finset.mem_insert_self .., ?_⟩
    · refine hs.rewritten hfresh h.entry (AList.lookup_insert _) (fun k hk => AList.lookup_insert_ne hk) rfl rfl hinfos
        hframe ?_
      rw [hrun]
      exact hmid
    · rw [hrun]
      intro j o ho
      have hinputs : (staticInputs 3 (e.graphKey a.key)).map mid = statics.map Tensor.data := by
        rw [← hmid.data, hlen, staticInputs, List.map_map]
        rfl
      rw [launch_output, hinputs]
      show outputOn forward (e.staticInputs.map Tensor.info) _ j = _
      rw [← hinfos, outputOn_data forward statics ho]

/-- The tensors are seen at their sources, which may be read. -/
def Seen (books : Books GraphKey) (m : Memory GraphKey (List E)) (sources : List (Source E)) (ts : List (Tensor E)) :
    Prop := List.Forall₂ (fun c t => Readable 3 books c.1 ∧ c.2 (m c.1) = t.data) sources ts

theorem seen_of {sources : List (Source E)} {ts : List (Tensor E)} (hlen : sources.length = ts.length)
    (h : ∀ (i : Nat) c (t : Tensor E), sources[i]? = some c → ts[i]? = some t →
      Readable 3 books c.1 ∧ c.2 (m c.1) = t.data) : Seen books m sources ts := by
  apply List.forall₂_iff_get.mpr
  refine ⟨hlen, fun i hi hi' => h i _ _ ?_ ?_⟩
  · exact List.getElem?_eq_getElem hi
  · exact List.getElem?_eq_getElem hi'

theorem seen_gathered (hin : OnDevice m .gathered inputs) :
    Seen books m (inputs.mapIdx fun i _ => (.gathered i, id)) inputs := by
  apply seen_of
  · simp
  · intro i c t hc ht
    simp only [List.getElem?_mapIdx, ht, Option.map_some] at hc
    cases hc
    exact ⟨.batch (.gathered i), hin i t ht⟩

/-- The tensors are the static inputs, each seen in its own way. -/
structure ViewedAs (view : Nat → Tensor E → Except Fault (Tensor E)) (statics inputs : List (Tensor E)) : Prop where
  length : statics.length = inputs.length
  each : ∀ i st t, statics[i]? = some st → inputs[i]? = some t → view i st = .ok t

/-- The views of an entry that is primed. -/
theorem seen_views {key : GraphKey} {view : Nat → Tensor E → Except Fault (Tensor E)} {statics : List (Tensor E)}
    (hkey : key ∈ books.primed) (hthree : statics.length = 3) (hstatics : OnDevice m (.staticInput key) statics)
    (hviews : ViewedAs view statics inputs) :
    Seen books m (statics.mapIdx fun i st => (.staticInput key i, elementwise st.info (view i))) inputs := by
  apply seen_of
  · simpa using hviews.length
  · intro i c t hc ht
    obtain ⟨hi, _⟩ := List.getElem?_eq_some_iff.mp ht
    have hlen := hviews.length
    have hst : statics[i]? = some statics[i] := List.getElem?_eq_getElem (by omega)
    simp only [List.getElem?_mapIdx, hst, Option.map_some] at hc
    cases hc
    refine ⟨.staticInput hkey (by omega), ?_⟩
    rw [hstatics i _ hst]
    exact elementwise_ok (hviews.each i _ t hst ht)

/-- The slices of what a replay left. -/
theorem seen_slices {a : Attempt E} {key : GraphKey} {outs sliced : List (Tensor E)} (hkey : key ∈ books.primed)
    (houts : OnDevice m (.staticOutput key) outs)
    (hslices : ∀ (j : Nat) (o' : Tensor E), sliced[j]? = some o' →
      ∃ o, outs[j]? = some o ∧ sliceOutput a.r a.bucket o = .ok o') :
    Seen books m ((outs.mapIdx fun j o => (.staticOutput key j, elementwise o.info (sliceOutput a.r a.bucket))).take
      sliced.length) sliced := by
  have hle : sliced.length ≤ outs.length := by
    by_contra hlt
    have hlast : sliced[outs.length]? = some sliced[outs.length] := List.getElem?_eq_getElem (by omega)
    obtain ⟨o, ho, _⟩ := hslices _ _ hlast
    simp at ho
  apply seen_of
  · simpa using hle
  · intro j c o' hc ho'
    obtain ⟨o, ho, hslice⟩ := hslices j o' ho'
    obtain ⟨hj, _⟩ := List.getElem?_eq_some_iff.mp ho'
    rw [List.getElem?_take_of_lt hj] at hc
    simp only [List.getElem?_mapIdx, ho, Option.map_some] at hc
    cases hc
    refine ⟨.staticOutput hkey j, ?_⟩
    rw [houts j o ho]
    exact elementwise_ok hslice

end Parts

/-! ### A call -/

/-- Where a batch is: beside the cache, or in views of the entry that is prestaged. -/
inductive Batched (s : GraphState E) (m : Memory GraphKey (List E)) (inputs : List (Tensor E)) : List (Source E) → Prop
    where
  | beside (slow : s.prestagedEntry = none) (gathered : OnDevice m .gathered inputs) :
      Batched s m inputs (inputs.mapIdx fun i _ => (.gathered i, id))
  | into {key : String} {e : CudaGraphEntry E} {view : Nat → Tensor E → Except Fault (Tensor E)}
      (prestaged : s.prestagedEntry = some key) (entry : s.cudaGraphCache.lookup key = some e)
      (views : ViewedAs view e.staticInputs inputs) :
      Batched s m inputs (e.staticInputs.mapIdx fun i st =>
        (.staticInput (e.graphKey key) i, elementwise st.info (view i)))

/-- Every replay that a call comes to is launched. -/
def Launches (cfg : GraphConfig) (forward : List (Tensor E) → List (Tensor E)) (chance : Chance)
    (inputs : List (Tensor E)) (s : GraphState E) : Prop :=
  ∀ a, attempted cfg forward chance inputs s = some a → ∃ e statics, Launched chance a e statics

section Call
variable {cfg : GraphConfig} {forward : List (Tensor E) → List (Tensor E)} {chance : Chance} {issued : Int → Nat}
  {inputs : List (Tensor E)} {sources : List (Source E)} {s : GraphState E} {books : Books GraphKey}
  {m : Memory GraphKey (List E)}

theorem Batched.entry (h : Batched s m inputs sources) :
    ∀ key, s.prestagedEntry = some key → ∃ e, s.cudaGraphCache.lookup key = some e := by
  intro key hkey
  cases h with
  | beside slow =>
    rw [slow] at hkey
    cases hkey
  | into prestaged entry =>
    rw [prestaged] at hkey
    cases hkey
    exact ⟨_, entry⟩

theorem Batched.seen (h : Batched s m inputs sources) (hs : Mirrors none s books m) : Seen books m sources inputs := by
  cases h with
  | beside _ gathered => exact seen_gathered gathered
  | into _ entry views => exact seen_views (hs.primed entry nofun) (hs.arity entry) (hs.statics entry) views

/-- What a call of `ExecuteWithCudaGraph` leaves, and the replay it came to. -/
structure Called (ran : Ran E Bool) (attempt : Option (Attempt E)) (inputs : List (Tensor E))
    (sources : List (Source E)) (m : Memory GraphKey (List E)) (books : Books GraphKey)
    (m' : Memory GraphKey (List E)) : Prop where
  mirrors : Mirrors none ran.state books m'
  responses : ∀ batch j, m' (.response batch j) = m (.response batch j)
  batch : Seen books m' sources inputs
  outputs : Seen books m' ((attempt.elim [] (·.outputSources ran.state)).take ran.outputs.length) ran.outputs

/-- A call that comes to no replay. -/
theorem Batched.unattempted {ran : Ran E Bool} (h : Batched s m inputs sources) (hs : Mirrors none s books m)
    (hstate : Mirrors none ran.state books m) (houtputs : ran.outputs = []) :
    Called ran none inputs sources m books m where
  mirrors := hstate
  responses _ _ := rfl
  batch := h.seen hs
  outputs := by
    rw [houtputs]
    exact .nil

theorem seen_replayed {a : Attempt E} {e : CudaGraphEntry E} {statics : List (Tensor E)}
    (h : Launched chance a e statics) (hkey : e.graphKey a.key ∈ books.primed)
    (houts : OnDevice m (.staticOutput (e.graphKey a.key)) (forward statics)) :
    Seen books m ((a.outputSources (a.replay forward chance []).state).take (a.replay forward chance []).outputs.length)
      (a.replay forward chance []).outputs := by
  obtain ⟨⟨metrics, hstate⟩, hslices⟩ := h.leaves forward
  have hlookup : (a.replay forward chance []).state.cudaGraphCache.lookup a.key = some ⟨statics, forward statics⟩ := by
    rw [hstate]
    exact AList.lookup_insert _
  have hsame : (⟨statics, forward statics⟩ : CudaGraphEntry E).graphKey a.key = e.graphKey a.key := by
    simp [CudaGraphEntry.graphKey, h.infos]
  rw [Attempt.outputSources, hlookup]
  simp only [hsame]
  exact seen_slices hkey houts hslices

/-- A batch that was collected into the entry is replayed on it. -/
theorem called_prestaged {a : Attempt E} {e : CudaGraphEntry E} {view : Nat → Tensor E → Except Fault (Tensor E)}
    (hs : Mirrors none a.state books m) (hcopy : a.copyFrom = none)
    (he : a.state.cudaGraphCache.lookup a.key = some e) (hlaunch : ∃ e statics, Launched chance a e statics)
    (hviews : ViewedAs view e.staticInputs inputs) :
    Played 3 (graphOn forward) books m a.issues (Called (a.replay forward chance []) (some a) inputs
      (e.staticInputs.mapIdx fun i st => (.staticInput (e.graphKey a.key) i, elementwise st.info (view i))) m) := by
  obtain ⟨e', statics, hl⟩ := hlaunch
  obtain rfl : e = e' := Option.some.inj (he.symm.trans hl.entry)
  apply (hl.played hs (.inl ⟨hcopy, rfl⟩)).imp
  rintro books' m' ⟨hmirrors, hframe, hkey, houts⟩
  obtain ⟨⟨metrics, hstate⟩, _⟩ := hl.leaves forward
  have hsame : statics = e.staticInputs := by
    have hcopied := hl.copied
    rw [hcopy, Option.getD_none, copyInputs_nil] at hcopied
    cases hcopied
    rfl
  have hlookup : (a.replay forward chance []).state.cudaGraphCache.lookup a.key = some ⟨statics, forward statics⟩ := by
    rw [hstate]
    exact AList.lookup_insert _
  have hstatics := hmirrors.statics hlookup
  rw [hsame] at hstatics
  exact ⟨hmirrors, fun _ _ => hframe _ rfl, seen_views hkey (hs.arity he) hstatics hviews, seen_replayed hl hkey houts⟩

/-- A batch beside the cache is copied over the entry of the bucket that is selected. -/
theorem called_slow {r : Nat} {cands : List Int} {s' : GraphState E} {value : Except Fault (Option (Selected E))}
    {events : List (Event E)}
    (h : Selects forward chance.capture (padRequestsUp chance.alloc inputs r) inputs r cands s value s' events)
    (hs : Mirrors none s books m) (hchecked : s.warmupWidthsChecked = true) (hin : OnDevice m .gathered inputs)
    (hthree : inputs.length = 3) {ran : Ran E Bool} {attempt : Option (Attempt E)}
    (hran : (attempt = none ∧ (∀ sel, value ≠ .ok (some sel)) ∧ ran.outputs = [] ∧
        ∃ metrics, ran.state = {s' with metrics := metrics}) ∨
      ∃ sel a, value = .ok (some sel) ∧ attempt = some a ∧
        a = ⟨bucketKey sel.bucket, r, sel.bucket, some sel.inputsAtBucket, s'⟩ ∧
        ran.state = (a.replay forward chance []).state ∧ ran.outputs = (a.replay forward chance []).outputs)
    (hlaunch : ∀ a, attempt = some a → ∃ e statics, Launched chance a e statics) :
    Played 3 (graphOn forward) books m (selectIssues chance issued inputs r cands s ++ attempt.elim [] Attempt.issues)
      (Called ran attempt inputs (inputs.mapIdx fun i _ => (.gathered i, id)) m) := by
  have hpadded : ∀ cand out, atCandidate (padRequestsUp chance.alloc inputs r) inputs r cand = .ok out → out.length = 3 := by
    intro cand out hout
    unfold atCandidate at hout
    split at hout
    · cases hout
      exact hthree
    · obtain ⟨t0, t1, t2, rfl⟩ := List.length_eq_three.mp hthree
      obtain ⟨_, p0, p1, p2, rfl, _⟩ := padRequestsUp_three hout
      rfl
  apply (select_played h hs hin hchecked hpadded).append
  rintro books₁ m₁ ⟨hframe, ⟨fresh, hmirrors, hfresh⟩, hplaced⟩
  have hin₁ : OnDevice m₁ .gathered inputs := hin.frame fun i => hframe _ rfl (by simp)
  rcases hran with ⟨rfl, hnone, houtputs, metrics, hstate⟩ | ⟨sel, a, hvalue, rfl, ha, hstate, houtputs⟩
  · obtain rfl : fresh = none := by
      cases fresh with
      | none => rfl
      | some key =>
        obtain ⟨sel, hsel, _⟩ := hfresh key rfl
        exact absurd hsel (hnone sel)
    apply Played.nil
    refine ⟨?_, fun _ _ => hframe _ rfl (by simp), seen_gathered hin₁, ?_⟩
    · rw [hstate]
      exact hmirrors.of_same rfl rfl id
    · rw [houtputs]
      exact .nil
  · obtain ⟨e, statics, hl⟩ := hlaunch a rfl
    obtain ⟨hlen, hat⟩ := hplaced sel hvalue
    subst ha
    have hcopies : (some sel.inputsAtBucket = none ∧ fresh = none) ∨ (fresh = none ∨ fresh = some (bucketKey sel.bucket)) ∧
        ∃ srcs, some sel.inputsAtBucket = some srcs ∧ srcs.length = 3 ∧ OnDevice m₁ (placedAt r sel.bucket) srcs := by
      refine .inr ⟨?_, _, rfl, hlen, hat⟩
      cases fresh with
      | none => exact .inl rfl
      | some key =>
        obtain ⟨sel', hsel', rfl⟩ := hfresh key rfl
        rw [hvalue] at hsel'
        cases hsel'
        exact .inr rfl
    apply (hl.played hmirrors hcopies).imp
    rintro books' m' ⟨hmirrors', hframe', hkey, houts⟩
    refine ⟨?_, ?_, seen_gathered (hin₁.frame fun i => hframe' _ rfl), ?_⟩
    · rw [hstate]
      exact hmirrors'
    · intro batch j
      rw [hframe' _ rfl, hframe _ rfl (by simp)]
    · rw [hstate, houtputs]
      exact seen_replayed hl hkey houts

/-- **What `ExecuteWithCudaGraph` issues leaves what it returns**, where what it replays is launched. -/
theorem called_graph (hs : Mirrors none s books m) (hbatch : Batched s m inputs sources)
    (hlaunch : Launches cfg forward chance inputs s) :
    Played 3 (graphOn forward) books m (graphIssues cfg forward chance issued inputs s)
      (Called (executeWithCudaGraph cfg forward chance inputs s []) (attempted cfg forward chance inputs s) inputs
        sources m) := by
  by_cases hthree : inputs.length = 3
  · obtain ⟨t0, t1, t2, rfl⟩ := List.length_eq_three.mp hthree
    unfold Launches attempted at hlaunch
    unfold graphIssues executeWithCudaGraph attempted
    cases hr : requestCount t0 t1 t2 with
    | error f =>
      simp only [hr]
      apply Played.nil
      apply hbatch.unattempted hs
      · exact hs
      · rfl
    | ok r =>
      simp only [hr] at hlaunch ⊢
      obtain ⟨hmirrors, hchecked, hcache, hprestaged⟩ := hs.checkWarmupWidths cfg t0 t1 r hbatch.entry
      generalize (checkWarmupWidths cfg t0 t1 r s).1 = mid at hlaunch hmirrors hchecked hcache hprestaged ⊢
      cases hbatch with
      | beside slow gathered =>
        rw [slow] at hprestaged
        simp only [attemptedFrom, executeFrom, hprestaged, if_true, executeSlow] at hlaunch ⊢
        cases hsel : selectBucket cfg.cudaGraphBatchSizes forward chance.capture (padRequestsUp chance.alloc [t0, t1, t2] r)
          [t0, t1, t2] r mid with
        | mk value p =>
          obtain ⟨s', events⟩ := p
          rw [hsel] at hlaunch
          apply called_slow (selects_selectBucket hsel) hmirrors hchecked gathered rfl _ hlaunch
          rcases value with f | ⟨_ | sel⟩
          · exact .inl ⟨rfl, by simp, rfl, s'.metrics, rfl⟩
          · exact .inl ⟨rfl, by simp, rfl, _, rfl⟩
          · exact .inr ⟨sel, _, rfl, rfl, rfl, rfl, rfl⟩
      | @into key e view prestaged entry views =>
        rw [prestaged] at hprestaged
        simp only [attemptedFrom, executeFrom, hprestaged] at hlaunch ⊢
        let a : Attempt E := ⟨key, r, mid.prestagedBucket, none, {mid with prestagedEntry := none, prestagedBucket := -1}⟩
        have hs' : Mirrors none a.state books m := hmirrors.of_same rfl rfl id
        have he : a.state.cudaGraphCache.lookup a.key = some e := hcache ▸ entry
        rw [if_neg (by simp), List.nil_append]
        apply (called_prestaged hs' rfl he (hlaunch a rfl) views).imp
        rintro _ _ ⟨hleft, hresponses, hseen, houtputs⟩
        exact ⟨hleft, hresponses, hseen, houtputs⟩
  · have hnone : attempted cfg forward chance inputs s = none := by
      unfold attempted
      split
      · exact absurd rfl hthree
      · rfl
    have hissues : graphIssues cfg forward chance issued inputs s = [] := by
      unfold graphIssues
      split
      · exact absurd rfl hthree
      · rfl
    have hother : executeWithCudaGraph cfg forward chance inputs s [] = eagerFallback s [] [] := by
      unfold executeWithCudaGraph
      split
      · exact absurd rfl hthree
      · rfl
    rw [hother, hnone, hissues]
    apply Played.nil
    apply hbatch.unattempted hs
    · exact hs.of_same rfl rfl id
    · rfl

/-- What the sources hold are the elements of the batch. -/
theorem Seen.data (h : Seen books m sources inputs) :
    List.zipWith (fun source d => source.2 d) sources ((sources.map Prod.fst).map m) = inputs.map Tensor.data := by
  induction h with
  | nil => rfl
  | cons hfirst _ ih =>
    simp only [List.map_cons, List.zipWith_cons_cons, ih, hfirst.2]

theorem eager_played {graph : GraphKey → List (List E) → Nat → List E} (hseen : Seen books m sources inputs) :
    Played 3 graph books m (eagerIssues forward chance sources inputs) fun books' m' => books' = books ∧
      (∀ b, (∀ j, b ≠ .eager j) → m' b = m b) ∧
      Seen books' m' (eagerSources forward chance inputs) (if chance.eager = none then forward inputs else []) := by
  unfold eagerIssues eagerSources
  cases chance.eager with
  | some what => exact .nil ⟨rfl, fun _ _ => rfl, .nil⟩
  | none =>
    simp only [if_true]
    apply Played.one
    · intro b hb
      obtain ⟨c, hc, rfl⟩ := List.mem_map.mp hb
      obtain ⟨t, _, hread, _⟩ := Slots.exists_right_of_mem hseen hc
      exact hread
    · refine ⟨rfl, ?_, ?_⟩
      · intro b hb
        apply issue_frame
        rintro ⟨j, hj⟩
        exact hb j hj
      · apply seen_of
        · simp
        · intro j c o hc ho
          simp only [List.getElem?_mapIdx, ho, Option.map_some] at hc
          cases hc
          refine ⟨.eager j, ?_⟩
          show outputOn forward (inputs.map Tensor.info)
            (List.zipWith (fun source d => source.2 d) sources ((sources.map Prod.fst).map m)) j = o.data
          rw [hseen.data, outputOn_data forward inputs ho]

theorem executeEager_outputs (outputs : List (Tensor E)) (events : List (Event E)) :
    (executeEager forward chance inputs s outputs events).outputs =
      outputs ++ if chance.eager = none then forward inputs else [] := by
  unfold executeEager
  cases chance.eager <;> simp

theorem Seen.frame {m' : Memory GraphKey (List E)} (h : Seen books m sources inputs)
    (hsame : ∀ c ∈ sources, m' c.1 = m c.1) : Seen books m' sources inputs := by
  induction h with
  | nil => exact .nil
  | cons hfirst _ ih =>
    obtain ⟨hc, hrest⟩ := List.forall_mem_cons.mp hsame
    exact .cons ⟨hfirst.1, by rw [hc, hfirst.2]⟩ (ih hrest)

/-- The outputs of a replay are in its entry. -/
theorem outputSources_entry {a : Attempt E} {c : Source E} (h : c ∈ a.outputSources s) : ∃ key, c.1.entryKey = some key := by
  unfold Attempt.outputSources at h
  split at h
  · cases h
  · obtain ⟨j, _, rfl⟩ := List.mem_mapIdx.mp h
    exact ⟨_, rfl⟩

/-- The eager run behind a call of `ExecuteWithCudaGraph`. -/
theorem Called.eager {ran : Ran E Bool} {attempt : Option (Attempt E)} {m' : Memory GraphKey (List E)}
    (h : Called ran attempt inputs sources m books m') :
    Played 3 (graphOn forward) books m' (eagerIssues forward chance sources inputs) fun books' m'' =>
      Mirrors none ran.state books' m'' ∧ (∀ batch j, m'' (.response batch j) = m (.response batch j)) ∧
        Seen books' m'' ((attempt.elim [] (·.outputSources ran.state)).take ran.outputs.length ++
          eagerSources forward chance inputs)
          (ran.outputs ++ if chance.eager = none then forward inputs else []) := by
  apply (eager_played h.batch).imp
  rintro _ m'' ⟨rfl, hframe, heager⟩
  have hentry : ∀ b key, b.entryKey = some key → m'' b = m' b := by
    intro b key he
    apply hframe
    rintro j rfl
    cases he
  refine ⟨h.mirrors.frame hentry, ?_, ?_⟩
  · intro batch j
    rw [hframe _ (by simp), h.responses]
  · apply List.rel_append _ heager
    apply h.outputs.frame
    intro c hc
    cases attempt with
    | none => simp at hc
    | some a =>
      obtain ⟨key, he⟩ := outputSources_entry (List.mem_of_mem_take hc)
      exact hentry _ key he

/-- **What `Execute` issues leaves the outputs it returns.** -/
theorem execute_played {x : Executed E} (hs : Mirrors none s books m) (hbatch : Batched s m inputs sources)
    (hlaunch : Launches cfg forward chance inputs s) (h : execute cfg forward chance inputs s [] = .ok x) :
    Played 3 (graphOn forward) books m (executeIssues cfg forward chance issued sources inputs s) fun books' m' =>
      Mirrors none x.state books' m' ∧ (∀ batch j, m' (.response batch j) = m (.response batch j)) ∧
        Seen books' m' (outputSources cfg forward chance inputs s) x.outputs := by
  unfold execute at h
  unfold executeIssues outputSources
  by_cases hon : (cfg.enabledCudaGraph && !cfg.deviceIsCpu) = true
  · rw [if_pos hon] at h ⊢
    rw [if_pos hon]
    apply (called_graph hs hbatch hlaunch).append
    intro books₁ m₁ hcalled
    simp only at h ⊢
    generalize executeWithCudaGraph cfg forward chance inputs s [] = ran at h hcalled ⊢
    cases hback : ran.fellBack with
    | true =>
      have hvalue : ran.value = .ok false := by
        unfold Ran.fellBack at hback
        split at hback
        · assumption
        · cases hback
      rw [if_pos rfl]
      simp only [hvalue] at h ⊢
      cases h
      rw [(executeEager_frame ..).1, executeEager_outputs]
      exact hcalled.eager
    | false =>
      have hquiet : x.state = ran.state ∧ x.outputs = ran.outputs := by
        split at h
        · cases h
          exact ⟨rfl, rfl⟩
        · rename_i hvalue
          rw [Ran.fellBack, hvalue] at hback
          cases hback
        · cases h
          exact ⟨rfl, rfl⟩
        · cases h
      rw [if_neg Bool.false_ne_true, hquiet.1, hquiet.2]
      simp only [Bool.false_eq_true, if_false, List.append_nil]
      apply Played.nil
      exact ⟨hcalled.mirrors, hcalled.responses, hcalled.outputs⟩
  · rw [if_neg hon] at h ⊢
    rw [if_neg hon]
    cases h
    rw [(executeEager_frame ..).1, executeEager_outputs, List.nil_append]
    apply (eager_played (hbatch.seen hs)).imp
    rintro _ m' ⟨rfl, hframe, heager⟩
    refine ⟨hs.frame fun b key he => hframe b ?_, fun _ _ => hframe _ (by simp), heager⟩
    rintro j rfl
    cases he

end Call

end TritonAot
