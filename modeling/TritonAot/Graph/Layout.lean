import TritonAot.Graph.Fallback
import TritonAot.Graph.Positions

/-! The layout the graph path is made for, and the batches it turns away.

The path pads and replays request batches (`RequestBatch`), but looks at no more of
the layout than the number of tensors. Three tensors are turned away only where there
is no bucket to try, or where the replay of a bucket that is already captured comes to
nothing before it has changed anything (`Idle`). -/
namespace TritonAot

open Packed Dense

variable {E : Type} [Scalars E]

/-- A row for each request, the requests' elements packed one behind the other, and where
each request ends. -/
def RequestBatch (inputs : List (Tensor E)) : Prop :=
  ∃ t0 t1 t2 width per counts, inputs = [t0, t1, t2] ∧ t0.shape = [counts.length, width] ∧
    t1.shape = [counts.length * per] ∧ counts.sum = counts.length * per ∧ t2.shape = [counts.length] ∧
    t2.data = asElements (ends counts)

/-- The call returns false, having captured nothing and changed neither the caches nor the outputs. -/
structure TurnedAway (s : GraphState E) (outputs : List (Tensor E)) (ran : Ran E Bool) : Prop where
  value : ran.value = .ok false
  captures : ∀ b at_ ok, .capture b at_ ok ∉ ran.events
  cache : ∀ key, ran.state.cudaGraphCache.lookup key = s.cudaGraphCache.lookup key
  failed : ran.state.cudaGraphFailed = s.cudaGraphFailed
  outputs : ran.outputs = outputs

/-! ### A replay that changes nothing -/

/-- The copies from index `i` on change nothing: each buffer already holds what is copied
into it, until they end, or until one throws. -/
def CopiesNothing (fault : Nat → Option String) (throws : Bool) :
    Nat → List (Tensor E) → List (Tensor E) → Prop
  | _, _, [] => throws = false
  | _, [], _ :: _ => False
  | i, st :: statics, src :: rest =>
    throws = true ∧ (fault i ≠ none ∨ ¬ Expands src.shape st.shape) ∨
      fault i = none ∧ st.copy_ src = .ok st ∧ CopiesNothing fault throws (i + 1) statics rest

@[simp] theorem copiesNothing_nil (fault : Nat → Option String) (throws : Bool) (i : Nat)
    (statics : List (Tensor E)) : CopiesNothing fault throws i statics [] ↔ throws = false := by
  cases statics <;> rfl

/-- How copies end. -/
def Ended (throws : Bool) (result : Except Fault Unit) : Prop :=
  if throws then ∃ what, result = .error (.thrown what) else result = .ok ()

theorem copyOne_cases (o : Option String) (st src : Tensor E) :
    ((o ≠ none ∨ ¬ Expands src.shape st.shape) ∧
        ∃ what, (do raise o; st.copy_ src) = .error (.thrown what)) ∨
      o = none ∧ Expands src.shape st.shape ∧ ∃ st', st.copy_ src = .ok st' ∧
        (do raise o; st.copy_ src) = .ok st' := by
  cases o with
  | some what => exact .inl ⟨.inl nofun, what, rfl⟩
  | none =>
    by_cases he : Expands src.shape st.shape
    · obtain ⟨st', hst'⟩ := (Tensor.copy_ok_iff st src).mpr he
      exact .inr ⟨rfl, he, st', hst', hst'⟩
    · refine .inl ⟨.inr he, "copy_", ?_⟩
      show st.copy_ src = _
      rw [Tensor.copy_, dif_neg he]

/-- What copies that change nothing come to. -/
theorem copiesNothing_iff {fault : Nat → Option String} {throws : Bool} {i : Nat}
    {statics srcs : List (Tensor E)} : CopiesNothing fault throws i statics srcs ↔
      ∃ result, copyInputs fault i statics srcs = (result, statics) ∧ Ended throws result := by
  induction srcs generalizing i statics with
  | nil =>
    rw [copyInputs_nil, copiesNothing_nil]
    cases throws with
    | true => exact ⟨nofun, fun ⟨_, heq, what, hthrown⟩ => (by cases heq; cases hthrown)⟩
    | false => exact ⟨fun _ => ⟨_, rfl, rfl⟩, fun _ => rfl⟩
  | cons src rest ih =>
    cases statics with
    | nil =>
      refine ⟨False.elim, fun ⟨result, heq, hended⟩ => ?_⟩
      cases heq
      cases throws with
      | true =>
        obtain ⟨what, hthrown⟩ := hended
        cases hthrown
      | false => cases hended
    | cons st statics =>
      rw [copyInputs, CopiesNothing]
      rcases copyOne_cases (fault i) st src with ⟨hfault, what, hone⟩ | ⟨hnone, he, st', hst', hone⟩
      · rw [hone]
        constructor
        · intro hcase
          rcases hcase with ⟨rfl, _⟩ | ⟨hnone, hcopy, _⟩
          · exact ⟨_, rfl, what, rfl⟩
          · rcases hfault with hsome | hno
            · exact absurd hnone hsome
            · exact absurd (Tensor.copy_ok hcopy).1 hno
        · intro hparts
          obtain ⟨result, heq, hended⟩ := hparts
          cases heq
          cases throws with
          | true => exact .inl ⟨rfl, hfault⟩
          | false => cases hended
      · rw [hone]
        simp only
        cases hrest : copyInputs fault (i + 1) statics rest with
        | mk result statics' =>
          have ih' : CopiesNothing fault throws (i + 1) statics rest ↔ _ := ih
          rw [hrest] at ih'
          constructor
          · intro hcase
            rcases hcase with ⟨_, hfault⟩ | ⟨_, hcopy, hlater⟩
            · rcases hfault with hsome | hno
              · exact absurd hnone hsome
              · exact absurd he hno
            · rw [hst'] at hcopy
              cases hcopy
              obtain ⟨result', heq, hended⟩ := ih'.mp hlater
              cases heq
              exact ⟨_, rfl, hended⟩
          · intro hparts
            obtain ⟨result', heq, hended⟩ := hparts
            cases heq
            exact .inr ⟨hnone, hst', ih'.mpr ⟨_, rfl, hended⟩⟩

/-- A replay of the entry that is given up before it has changed anything. -/
inductive Idle (forward : List (Tensor E) → List (Tensor E)) (chance : Chance) (r : Nat) (bucket : Int)
    (e : CudaGraphEntry E) (srcs : List (Tensor E)) : Prop where
  | unordered (stream : chance.stream ≠ none)
  | uncopied (stream : chance.stream = none) (copies : CopiesNothing chance.copy true 0 e.staticInputs srcs)
  | unlaunched (stream : chance.stream = none) (copies : CopiesNothing chance.copy false 0 e.staticInputs srcs)
      (launch : chance.launch ≠ none)
  | unsliced (stream : chance.stream = none) (copies : CopiesNothing chance.copy false 0 e.staticInputs srcs)
      (launch : chance.launch = none) (same : forward e.staticInputs = e.staticOutputs)
      (first : ∀ o ∈ e.staticOutputs.head?, ¬ Slices chance r bucket 0 o)
      (fails : ¬ (SlicesAll chance r bucket 0 e.staticOutputs ∧ chance.restore = none))

/-- Storing an entry changes nothing where it is the one that is there. -/
theorem setEntry_same_iff {s : GraphState E} {key : String} {e e' : CudaGraphEntry E}
    (he : s.cudaGraphCache.lookup key = some e) :
    (∀ k, (s.setEntry key e').cudaGraphCache.lookup k = s.cudaGraphCache.lookup k) ↔ e' = e := by
  constructor
  · intro h
    have hkey := h key
    rw [GraphState.setEntry, AList.lookup_insert, he] at hkey
    exact Option.some.inj hkey
  · rintro rfl k
    by_cases hk : k = key
    · rw [hk, he]
      exact AList.lookup_insert _
    · exact AList.lookup_insert_ne hk

section Replay
variable {forward : List (Tensor E) → List (Tensor E)} {chance : Chance} {a : Attempt E}
  {e : CudaGraphEntry E} {outputs : List (Tensor E)}

/-- A replay that is caught is turned away where it has left the entry as it was. -/
theorem turnedAway_caught {f : Fault} {s : GraphState E} {key : String} {e' : CudaGraphEntry E}
    {outputs' : List (Tensor E)} {events : List (Event E)} (he : s.cudaGraphCache.lookup key = some e)
    (hno : ∀ b at_ ok, .capture b at_ ok ∉ events) :
    TurnedAway s outputs (replayCaught f (s.setEntry key e') outputs' events) ↔
      (∃ what, f = .thrown what) ∧ e' = e ∧ outputs' = outputs := by
  cases f with
  | thrown what =>
    refine ⟨fun h => ⟨⟨what, rfl⟩, (setEntry_same_iff he).mp h.cache, h.outputs⟩, ?_⟩
    intro hparts
    obtain ⟨_, rfl, rfl⟩ := hparts
    exact ⟨rfl, hno, (setEntry_same_iff he).mpr rfl, rfl, rfl⟩
  | sigfpe => exact ⟨fun h => (by cases h.value), fun ⟨⟨_, hf⟩, _⟩ => (by cases hf)⟩
  | undefined => exact ⟨fun h => (by cases h.value), fun ⟨⟨_, hf⟩, _⟩ => (by cases hf)⟩

/-- Copies that end leave nothing changed where the static inputs are what they were. -/
theorem copiesNothing_ends {fault : Nat → Option String} {statics srcs statics' : List (Tensor E)}
    (h : copyInputs fault 0 statics srcs = (.ok (), statics')) :
    (CopiesNothing fault false 0 statics srcs ↔ statics' = statics) ∧ ¬ CopiesNothing fault true 0 statics srcs := by
  rw [copiesNothing_iff, copiesNothing_iff, h]
  refine ⟨⟨fun ⟨_, heq, _⟩ => (by cases heq; rfl), fun heq => ⟨_, by rw [heq], rfl⟩⟩, ?_⟩
  intro hparts
  obtain ⟨_, heq, what, hthrown⟩ := hparts
  cases heq
  cases hthrown

theorem copiesNothing_throws {fault : Nat → Option String} {f : Fault} {statics srcs statics' : List (Tensor E)}
    (h : copyInputs fault 0 statics srcs = (.error f, statics')) :
    (CopiesNothing fault true 0 statics srcs ↔ (∃ what, f = .thrown what) ∧ statics' = statics) ∧
      ¬ CopiesNothing fault false 0 statics srcs := by
  rw [copiesNothing_iff, copiesNothing_iff, h]
  constructor
  · constructor
    · intro hparts
      obtain ⟨_, heq, what, hthrown⟩ := hparts
      cases heq
      cases hthrown
      exact ⟨⟨what, rfl⟩, rfl⟩
    · intro hparts
      obtain ⟨⟨what, rfl⟩, rfl⟩ := hparts
      exact ⟨_, rfl, what, rfl⟩
  · intro hparts
    obtain ⟨_, heq, hended⟩ := hparts
    cases heq
    cases hended

variable (forward outputs) in
/-- What a launch leaves in the cache, whatever becomes of its outputs. -/
theorem Launched.cache {statics : List (Tensor E)} (h : Launched chance a e statics) :
    (a.replay forward chance outputs).state.cudaGraphCache =
        (a.state.setEntry a.key ⟨statics, forward statics⟩).cudaGraphCache ∧
      (a.replay forward chance outputs).state.cudaGraphFailed = a.state.cudaGraphFailed := by
  have hcaught : ∀ (f : Fault) (t : GraphState E) (outs : List (Tensor E)) (events : List (Event E)),
      (replayCaught f t outs events).state.cudaGraphCache = t.cudaGraphCache ∧
        (replayCaught f t outs events).state.cudaGraphFailed = t.cudaGraphFailed := by
    intro f t outs events
    obtain ⟨m, hm⟩ := replayCaught_state f t outs events
    rw [hm]
    exact ⟨rfl, rfl⟩
  unfold Attempt.replay replayCudaGraphEntry
  rw [h.entry]
  simp only [h.stream, h.copied, h.launch, raise]
  split
  · exact hcaught ..
  · split
    · exact hcaught ..
    · exact ⟨rfl, rfl⟩

/-- A launched replay turns the batch away where it is given up on its first output, and the
entry is as it was. -/
theorem Launched.turnedAway_iff {statics : List (Tensor E)} (h : Launched chance a e statics) :
    TurnedAway a.state outputs (a.replay forward chance outputs) ↔
      ((⟨statics, forward statics⟩ : CudaGraphEntry E) = e ∧
        (∀ o ∈ (forward statics).head?, ¬ Slices chance a.r a.bucket 0 o) ∧
        ¬ (SlicesAll chance a.r a.bucket 0 (forward statics) ∧ chance.restore = none)) := by
  obtain ⟨hcache, hfailed⟩ := h.cache forward outputs
  by_cases hall : SlicesAll chance a.r a.bucket 0 (forward statics) ∧ chance.restore = none
  · refine ⟨fun haway => ?_, fun hidle => absurd hall hidle.2.2⟩
    have hvalue := (h.replay_all hall.1 hall.2 outputs).1
    rw [haway.value] at hvalue
    cases hvalue
  · obtain ⟨hvalue, hevents, pre, houtputs, hpre⟩ := h.replay_not_all hall outputs
    constructor
    · intro haway
      refine ⟨(setEntry_same_iff h.entry).mp fun k => by rw [← hcache]; exact haway.cache k, ?_, hall⟩
      have hsame := haway.outputs
      rw [houtputs] at hsame
      exact hpre.mp (List.append_right_eq_self.mp hsame)
    · intro hparts
      obtain ⟨hentry, hfirst, _⟩ := hparts
      refine ⟨hvalue, fun b at_ ok he => ?_, fun k => ?_, hfailed, ?_⟩
      · rw [hevents] at he
        cases List.mem_singleton.mp he
      · rw [hcache]
        exact (setEntry_same_iff h.entry).mpr hentry k
      · rw [houtputs, hpre.mpr hfirst, List.append_nil]

/-- **A replay turns the batch away exactly where it is idle.** -/
theorem turnedAway_replay_iff (he : a.state.cudaGraphCache.lookup a.key = some e) :
    TurnedAway a.state outputs (a.replay forward chance outputs) ↔
      Idle forward chance a.r a.bucket e (a.copyFrom.getD []) := by
  by_cases hlaunched : ∃ statics, Launched chance a e statics
  · obtain ⟨statics, hl⟩ := hlaunched
    obtain ⟨hends, hnothrow⟩ := copiesNothing_ends hl.copied
    rw [hl.turnedAway_iff]
    constructor
    · intro hparts
      obtain ⟨rfl, hfirst, hfails⟩ := hparts
      exact .unsliced hl.stream (hends.mpr rfl) hl.launch rfl hfirst hfails
    · intro hidle
      cases hidle with
      | unordered hs => exact absurd hl.stream hs
      | uncopied _ hcopies => exact absurd hcopies hnothrow
      | unlaunched _ _ hlaunch => exact absurd hl.launch hlaunch
      | unsliced _ hcopies _ hsame hfirst hfails =>
        obtain rfl := hends.mp hcopies
        rw [hsame]
        exact ⟨rfl, hfirst, hfails⟩
  · have hrun : ∀ {f : Fault} {e' : CudaGraphEntry E},
        TurnedAway a.state outputs (replayCaught f (a.state.setEntry a.key e') outputs []) ↔
          (∃ what, f = .thrown what) ∧ e' = e ∧ outputs = outputs :=
      turnedAway_caught he fun _ _ _ => List.not_mem_nil
    unfold Attempt.replay replayCudaGraphEntry
    rw [he]
    cases hs : chance.stream with
    | some what =>
      refine ⟨fun _ => .unordered (by rw [hs]; exact nofun), fun _ => ?_⟩
      exact ⟨rfl, fun _ _ _ => List.not_mem_nil, fun _ => rfl, rfl, rfl⟩
    | none =>
      simp only [raise]
      cases hc : copyInputs chance.copy 0 e.staticInputs (a.copyFrom.getD []) with
      | mk result statics =>
        cases result with
        | error f =>
          obtain ⟨hthrows, hnoend⟩ := copiesNothing_throws hc
          rw [hrun]
          constructor
          · intro hparts
            obtain ⟨hthrown, hentry, _⟩ := hparts
            exact .uncopied hs (hthrows.mpr ⟨hthrown, congrArg CudaGraphEntry.staticInputs hentry⟩)
          · intro hidle
            cases hidle with
            | unordered hs' => exact absurd hs hs'
            | uncopied _ hcopies =>
              obtain ⟨hthrown, rfl⟩ := hthrows.mp hcopies
              exact ⟨hthrown, rfl, rfl⟩
            | unlaunched _ hcopies => exact absurd hcopies hnoend
            | unsliced _ hcopies => exact absurd hcopies hnoend
        | ok done =>
          obtain ⟨hends, hnothrow⟩ := copiesNothing_ends hc
          cases hl : chance.launch with
          | none => exact absurd ⟨statics, he, hs, hc, hl⟩ hlaunched
          | some what =>
            rw [hrun]
            constructor
            · intro hparts
              obtain ⟨_, hentry, _⟩ := hparts
              exact .unlaunched hs (hends.mpr (congrArg CudaGraphEntry.staticInputs hentry))
                (by rw [hl]; exact nofun)
            · intro hidle
              cases hidle with
              | unordered hs' => exact absurd hs hs'
              | uncopied _ hcopies => exact absurd hcopies hnothrow
              | unlaunched _ hcopies =>
                obtain rfl := hends.mp hcopies
                exact ⟨⟨what, rfl⟩, rfl, rfl⟩
              | unsliced _ _ hlaunch =>
                rw [hl] at hlaunch
                cases hlaunch

end Replay

/-! ### A call that turns the batch away -/

section Call
variable {cfg : GraphConfig} {forward : List (Tensor E) → List (Tensor E)} {chance : Chance}
  {inputs : List (Tensor E)} {t0 t1 t2 : Tensor E} {s : GraphState E} {r : Nat} {outputs : List (Tensor E)}

/-- When three tensors are turned away: there is no bucket to try; or the bucket to try is
captured already, or the batch prestaged, and the replay is idle. -/
inductive Declines (cfg : GraphConfig) (forward : List (Tensor E) → List (Tensor E)) (chance : Chance)
    (t0 t1 t2 : Tensor E) (r : Nat) (s : GraphState E) : Prop where
  | evicted (evicts : Evicts cfg t0 t1 r s) (uncached : ∀ key, s.cudaGraphCache.lookup key = none)
      (unfailed : s.cudaGraphFailed = ∅) (nowhere : cfg.candidates r = [])
  | nowhere (keeps : ¬ Evicts cfg t0 t1 r s) (slow : s.prestagedEntry = none)
      (nowhere : s.healthy (cfg.candidates r) = [])
  | captured {c : Int} {later : List Int} {at_ : List (Tensor E)} {e : CudaGraphEntry E}
      (keeps : ¬ Evicts cfg t0 t1 r s) (slow : s.prestagedEntry = none)
      (first : s.healthy (cfg.candidates r) = c :: later)
      (brought : atCandidate (padRequestsUp chance.alloc [t0, t1, t2] r) [t0, t1, t2] r c = .ok at_)
      (entry : s.cudaGraphCache.lookup (bucketKey c) = some e) (idle : Idle forward chance r c e at_)
  | prestaged {key : String} {e : CudaGraphEntry E} (keeps : ¬ Evicts cfg t0 t1 r s)
      (fast : s.prestagedEntry = some key) (entry : s.cudaGraphCache.lookup key = some e)
      (idle : Idle forward chance r s.prestagedBucket e [])

/-- When a batch is turned away: it has not three tensors, or these are declined. -/
inductive TurnsAway (cfg : GraphConfig) (forward : List (Tensor E) → List (Tensor E)) (chance : Chance)
    (inputs : List (Tensor E)) (s : GraphState E) : Prop where
  | arity (other : inputs.length ≠ 3)
  | three {t0 t1 t2 : Tensor E} {r : Nat} (three : inputs = [t0, t1, t2])
      (count : requestCount t0 t1 t2 = .ok r) (declines : Declines cfg forward chance t0 t1 t2 r s)

/-- What comes before a replay does not matter where it captures nothing and leaves the caches. -/
theorem turnedAway_behind {mid : GraphState E} {ran : Ran E Bool} {before : List (Event E)}
    (hcache : ∀ key, mid.cudaGraphCache.lookup key = s.cudaGraphCache.lookup key)
    (hfailed : mid.cudaGraphFailed = s.cudaGraphFailed) (hbefore : ∀ b at_ ok, .capture b at_ ok ∉ before) :
    TurnedAway s outputs {ran with events := before ++ ran.events} ↔ TurnedAway mid outputs ran := by
  constructor
  · intro hparts
    obtain ⟨hvalue, hcaptures, hsame, hsame', houtputs⟩ := hparts
    exact ⟨hvalue, fun b at_ ok he => hcaptures b at_ ok (List.mem_append_right _ he),
      fun key => (hsame key).trans (hcache key).symm, hsame'.trans hfailed.symm, houtputs⟩
  · intro hparts
    obtain ⟨hvalue, hcaptures, hsame, hsame', houtputs⟩ := hparts
    refine ⟨hvalue, fun b at_ ok he => ?_, fun key => (hsame key).trans (hcache key), hsame'.trans hfailed, houtputs⟩
    rcases List.mem_append.mp he with he | he
    · exact hbefore b at_ ok he
    · exact hcaptures b at_ ok he

/-- A selection that raises or captures turns nothing away. -/
theorem slow_not_turnedAway {value : Except Fault (Option (Selected E))} {s' : GraphState E}
    {events : List (Event E)} (hr : requestCount t0 t1 t2 = .ok r)
    (hnone : (checkWarmupWidths cfg t0 t1 r s).1.prestagedEntry = none)
    (hsel : selectBucket cfg.cudaGraphBatchSizes forward chance.capture (padRequestsUp chance.alloc [t0, t1, t2] r)
      [t0, t1, t2] r (checkWarmupWidths cfg t0 t1 r s).1 = (value, s', events))
    (h : (∃ fault, value = .error fault) ∨ ∃ b at_ ok, .capture b at_ ok ∈ events) :
    ¬ TurnedAway s outputs (executeWithCudaGraph cfg forward chance [t0, t1, t2] s outputs) := by
  intro haway
  cases value with
  | error fault =>
    have hvalue := haway.value
    rw [(slow_error hr hnone hsel outputs).2] at hvalue
    cases hvalue
  | ok selected =>
    obtain ⟨b, at_, ok, he⟩ := h.resolve_left fun ⟨fault, hf⟩ => (by cases hf)
    refine haway.captures b at_ ok ?_
    cases selected with
    | none =>
      rw [(slow_none hr hnone hsel outputs).2]
      exact List.mem_append_right _ he
    | some selected =>
      rw [(slow_some hr hnone hsel outputs).2]
      exact List.mem_append_right _ (List.mem_append_left _ he)

/-- The slow path turns the batch away where there is no candidate, or where the first is
captured already and its replay is idle. -/
theorem turnedAway_slow_iff {mid : GraphState E} (hr : requestCount t0 t1 t2 = .ok r)
    (hmid : (checkWarmupWidths cfg t0 t1 r s).1 = mid) (hslow : mid.prestagedEntry = none) :
    TurnedAway s outputs (executeWithCudaGraph cfg forward chance [t0, t1, t2] s outputs) ↔
      ((∀ key, mid.cudaGraphCache.lookup key = s.cudaGraphCache.lookup key) ∧
          mid.cudaGraphFailed = s.cudaGraphFailed ∧ mid.healthy (cfg.candidates r) = []) ∨
        ∃ c later at_ e, mid.healthy (cfg.candidates r) = c :: later ∧
          atCandidate (padRequestsUp chance.alloc [t0, t1, t2] r) [t0, t1, t2] r c = .ok at_ ∧
          mid.cudaGraphCache.lookup (bucketKey c) = some e ∧
          Idle forward chance r c e at_ := by
  subst hmid
  let mid := (checkWarmupWidths cfg t0 t1 r s).1
  have hnone : mid.prestagedEntry = none := hslow
  have hwidths := checkWarmupWidths_no_capture cfg t0 t1 r s
  have hcases : selectBucket cfg.cudaGraphBatchSizes forward chance.capture (padRequestsUp chance.alloc [t0, t1, t2] r)
      [t0, t1, t2] r mid = selectFrom forward chance.capture (padRequestsUp chance.alloc [t0, t1, t2] r) [t0, t1, t2] r
        (cfg.candidates r) mid := selectBucket_eq cfg
  cases hhealthy : mid.healthy (cfg.candidates r) with
  | nil =>
    rw [selectFrom_unhealthy hhealthy] at hcases
    rw [(slow_none hr hnone hcases outputs).2, List.append_nil]
    constructor
    · exact fun haway => .inl ⟨haway.cache, haway.failed, rfl⟩
    · intro hcase
      rcases hcase with ⟨hcache, hfailed, _⟩ | ⟨c, later, at_, e, hcons, _⟩
      · exact ⟨rfl, hwidths, hcache, hfailed, rfl⟩
      · cases hcons
  | cons c later =>
    obtain ⟨hfresh, rest, hfirst⟩ := selectFrom_healthy forward chance.capture
      (padRequestsUp chance.alloc [t0, t1, t2] r) [t0, t1, t2] r hhealthy
    rw [hfirst] at hcases
    cases hat : atCandidate (padRequestsUp chance.alloc [t0, t1, t2] r) [t0, t1, t2] r c with
    | error fault =>
      rw [selectFrom_fault hfresh hat] at hcases
      refine ⟨fun haway => absurd haway (slow_not_turnedAway hr hnone hcases (.inl ⟨fault, rfl⟩)), ?_⟩
      intro hcase
      rcases hcase with ⟨_, _, hnil⟩ | ⟨c', later', at_, e, hcons, hat', _⟩
      · cases hnil
      · cases hcons
        rw [hat] at hat'
        cases hat'
    | ok at_ =>
      cases he : mid.cudaGraphCache.lookup (bucketKey c) with
      | none =>
        have hcaptures : ¬ TurnedAway s outputs
            (executeWithCudaGraph cfg forward chance [t0, t1, t2] s outputs) := by
          cases hc : chance.capture c with
          | true =>
            rw [selectFrom_captured hfresh hat he hc] at hcases
            exact slow_not_turnedAway hr hnone hcases (.inr ⟨c, at_, true, List.mem_singleton_self _⟩)
          | false =>
            rw [selectFrom_missed hfresh hat he hc] at hcases
            exact slow_not_turnedAway hr hnone hcases (.inr ⟨c, at_, false, List.mem_cons_self ..⟩)
        refine ⟨fun haway => absurd haway hcaptures, ?_⟩
        intro hcase
        rcases hcase with ⟨_, _, hnil⟩ | ⟨c', later', at_', e, hcons, _, he', _⟩
        · cases hnil
        · cases hcons
          rw [he] at he'
          cases he'
      | some e =>
        rw [selectFrom_cached hfresh hat he] at hcases
        have hkeeps : ¬ Evicts cfg t0 t1 r s := fun hevicts => by
          have hmid : mid = s.evicted :=
            congrArg Prod.fst (checkWarmupWidths_evicts hevicts)
          rw [hmid, GraphState.evicted, AList.lookup_empty] at he
          cases he
        have hmid : mid = {s with warmupWidthsChecked := true} :=
          congrArg Prod.fst (checkWarmupWidths_keeps hkeeps)
        have hcache : ∀ key, mid.cudaGraphCache.lookup key = s.cudaGraphCache.lookup key := fun key => by
          rw [hmid]
        have hfailed : mid.cudaGraphFailed = s.cudaGraphFailed := by rw [hmid]
        let a : Attempt E := ⟨bucketKey c, r, c, some at_, mid⟩
        have hreplay : TurnedAway mid outputs (a.replay forward chance outputs) ↔ Idle forward chance r c e at_ :=
          turnedAway_replay_iff (show a.state.cudaGraphCache.lookup a.key = some e from he)
        rw [(slow_some hr hnone hcases outputs).2, List.nil_append,
          turnedAway_behind hcache hfailed hwidths, hreplay]
        constructor
        · exact fun hidle => .inr ⟨c, later, at_, e, rfl, hat, he, hidle⟩
        · intro hcase
          rcases hcase with ⟨_, _, hnil⟩ | ⟨c', later', at_', e', hcons, hat', he', hidle⟩
          · cases hnil
          · cases hcons
            rw [hat] at hat'
            cases hat'
            rw [he] at he'
            cases he'
            exact hidle

/-- The fast path turns the batch away where its replay is idle. -/
theorem turnedAway_fast_iff {key : String} (hr : requestCount t0 t1 t2 = .ok r)
    (hkeeps : ¬ Evicts cfg t0 t1 r s) (hkey : s.prestagedEntry = some key) :
    TurnedAway s outputs (executeWithCudaGraph cfg forward chance [t0, t1, t2] s outputs) ↔
      ∃ e, s.cudaGraphCache.lookup key = some e ∧ Idle forward chance r s.prestagedBucket e [] := by
  have hmid : (checkWarmupWidths cfg t0 t1 r s).1 = {s with warmupWidthsChecked := true} :=
    congrArg Prod.fst (checkWarmupWidths_keeps hkeeps)
  let a : Attempt E := ⟨key, r, s.prestagedBucket, none,
    {s with warmupWidthsChecked := true, prestagedEntry := none, prestagedBucket := -1}⟩
  have hrun : executeWithCudaGraph cfg forward chance [t0, t1, t2] s outputs =
      {a.replay forward chance outputs with
        events := (checkWarmupWidths cfg t0 t1 r s).2 ++ (a.replay forward chance outputs).events} := by
    simp only [executeWithCudaGraph, hr, executeFrom, hmid, hkey]
    rfl
  have hbehind : TurnedAway s outputs (executeWithCudaGraph cfg forward chance [t0, t1, t2] s outputs) ↔
      TurnedAway a.state outputs (a.replay forward chance outputs) := by
    rw [hrun]
    exact turnedAway_behind (fun _ => rfl) rfl (checkWarmupWidths_no_capture cfg t0 t1 r s)
  rw [hbehind]
  cases he : s.cudaGraphCache.lookup key with
  | none =>
    refine ⟨fun haway => ?_, fun hfound => ?_⟩
    · have hvalue := haway.value
      have hlookup : a.state.cudaGraphCache.lookup a.key = none := he
      rw [Attempt.replay, replayCudaGraphEntry, hlookup] at hvalue
      cases hvalue
    · obtain ⟨e, he', _⟩ := hfound
      cases he'
  | some e =>
    rw [turnedAway_replay_iff (a := a) he]
    refine ⟨fun hidle => ⟨e, rfl, hidle⟩, fun hfound => ?_⟩
    obtain ⟨e', he', hidle⟩ := hfound
    cases he'
    exact hidle

/-- Which three tensors are turned away. -/
theorem turnedAway_three_iff (hr : requestCount t0 t1 t2 = .ok r) :
    TurnedAway s outputs (executeWithCudaGraph cfg forward chance [t0, t1, t2] s outputs) ↔
      Declines cfg forward chance t0 t1 t2 r s := by
  by_cases hevicts : Evicts cfg t0 t1 r s
  · have hmid : (checkWarmupWidths cfg t0 t1 r s).1 = s.evicted :=
      congrArg Prod.fst (checkWarmupWidths_evicts hevicts)
    rw [turnedAway_slow_iff hr hmid rfl]
    have hempty : ∀ key, s.evicted.cudaGraphCache.lookup key = none := fun key => AList.lookup_empty key
    have hall : s.evicted.healthy (cfg.candidates r) = cfg.candidates r :=
      List.filter_eq_self.mpr fun b _ => decide_eq_true (Finset.notMem_empty _)
    rw [hall]
    constructor
    · intro hcase
      rcases hcase with ⟨hcache, hfailed, hnil⟩ | ⟨c, _, _, e, _, _, he, _⟩
      · exact .evicted hevicts (fun key => (hcache key).symm.trans (hempty key)) hfailed.symm hnil
      · rw [hempty] at he
        cases he
    · intro hdeclines
      cases hdeclines with
      | evicted _ huncached hunfailed hnil =>
        exact .inl ⟨fun key => (hempty key).trans (huncached key).symm, hunfailed.symm, hnil⟩
      | nowhere hkeeps => exact absurd hevicts hkeeps
      | captured hkeeps => exact absurd hevicts hkeeps
      | prestaged hkeeps => exact absurd hevicts hkeeps
  · cases hkey : s.prestagedEntry with
    | some key =>
      rw [turnedAway_fast_iff hr hevicts hkey]
      constructor
      · exact fun ⟨e, he, hidle⟩ => .prestaged hevicts hkey he hidle
      · intro hdeclines
        cases hdeclines with
        | evicted hyes => exact absurd hyes hevicts
        | nowhere _ hslow =>
          rw [hkey] at hslow
          cases hslow
        | captured _ hslow =>
          rw [hkey] at hslow
          cases hslow
        | prestaged _ hfast he hidle =>
          rw [hkey] at hfast
          cases hfast
          exact ⟨_, he, hidle⟩
    | none =>
      have hmid : (checkWarmupWidths cfg t0 t1 r s).1 = {s with warmupWidthsChecked := true} :=
        congrArg Prod.fst (checkWarmupWidths_keeps hevicts)
      rw [turnedAway_slow_iff hr hmid hkey]
      constructor
      · intro hcase
        rcases hcase with ⟨_, _, hnil⟩ | ⟨c, later, at_, e, hfirst, hat, he, hidle⟩
        · exact .nowhere hevicts hkey hnil
        · exact .captured hevicts hkey hfirst hat he hidle
      · intro hdeclines
        cases hdeclines with
        | evicted hyes => exact absurd hyes hevicts
        | nowhere _ _ hnil => exact .inl ⟨fun _ => rfl, rfl, hnil⟩
        | captured _ _ hfirst hat he hidle => exact .inr ⟨_, _, _, _, hfirst, hat, he, hidle⟩
        | prestaged _ hfast =>
          rw [hkey] at hfast
          cases hfast

/-- Which batches are turned away, of whatever layout. -/
theorem turnedAway_iff :
    TurnedAway s outputs (executeWithCudaGraph cfg forward chance inputs s outputs) ↔
      TurnsAway cfg forward chance inputs s := by
  by_cases hlength : inputs.length = 3
  · obtain ⟨t0, t1, t2, rfl⟩ := List.length_eq_three.mp hlength
    constructor
    · intro haway
      cases hr : requestCount t0 t1 t2 with
      | error f =>
        have hvalue : (executeWithCudaGraph cfg forward chance [t0, t1, t2] s outputs).value = .error f := by
          simp only [executeWithCudaGraph, hr]
        rw [haway.value] at hvalue
        cases hvalue
      | ok r => exact .three rfl hr ((turnedAway_three_iff hr).mp haway)
    · intro hturns
      cases hturns with
      | arity hother => exact absurd rfl hother
      | three hthree hr hdeclines =>
        cases hthree
        exact (turnedAway_three_iff hr).mpr hdeclines
  · have heager : executeWithCudaGraph cfg forward chance inputs s outputs = eagerFallback s outputs [] := by
      refine (executeWithCudaGraph_arity cfg forward chance inputs s outputs).resolve_left fun hthree => ?_
      obtain ⟨t0, t1, t2, rfl⟩ := hthree
      exact hlength rfl
    rw [heager]
    exact ⟨fun _ => .arity hlength, fun _ => ⟨rfl, fun _ _ _ => List.not_mem_nil, fun _ => rfl, rfl, rfl⟩⟩

/-- **When no other layout than request batches is run on the graph path**: exactly where the
tensors are turned away for another reason than their layout. -/
theorem turnedAway_unlaid_iff (cfg : GraphConfig) (forward : List (Tensor E) → List (Tensor E))
    (chance : Chance) (inputs : List (Tensor E)) (s : GraphState E) (outputs : List (Tensor E)) :
    (¬ RequestBatch inputs →
        TurnedAway s outputs (executeWithCudaGraph cfg forward chance inputs s outputs)) ↔
      RequestBatch inputs ∨ TurnsAway cfg forward chance inputs s := by
  rw [turnedAway_iff]
  exact (Classical.or_iff_not_imp_left).symm

end Call

/-- Three tensors of which the last has two axes are captured all the same. -/
theorem executeWithCudaGraph_unlaid : ¬ ∀ (cfg : GraphConfig) (forward : List (Tensor Int) → List (Tensor Int))
    (chance : Chance) (inputs : List (Tensor Int)) (s : GraphState Int) (outputs : List (Tensor Int)),
    ¬ RequestBatch inputs →
      TurnedAway s outputs (executeWithCudaGraph cfg forward chance inputs s outputs) := by
  intro h
  have hunlaid : ¬ RequestBatch [Tensor.zeros .double .cuda [2, 1], .zeros .double .cuda [2],
      (.zeros .double .cuda [2, 3] : Tensor Int)] := by
    intro hparts
    obtain ⟨_, _, t2, _, _, counts, heq, _, _, _, hshape, _⟩ := hparts
    cases heq
    have hlength : 2 = 1 := congrArg List.length hshape
    cases hlength
  have haway := h (graphsAt (oneBucket 2)) id .smooth _ (.fresh Int) [] hunlaid
  have hvalue : (executeWithCudaGraph (graphsAt (oneBucket 2)) id .smooth [.zeros .double .cuda [2, 1],
    .zeros .double .cuda [2], .zeros .double .cuda [2, 3]] (.fresh Int) []).value = .ok true := rfl
  rw [haway.value] at hvalue
  cases hvalue

end TritonAot
