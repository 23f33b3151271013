import TritonAot.Graph.Captures
import TritonAot.Graph.Entries

/-! Which bucket the selection comes to.

Of the candidates that are not on the negative cache the selection takes the first
that is cached or can be captured (`firstFit`); those before it are captured in vain
and put there (`passedOver`). It pads the batch to the candidates it reaches and to
no others, so that it returns exactly where these can be padded to
(`selectFrom_fit`, `selectFrom_unfit`). -/
namespace TritonAot

variable {E : Type} [Scalars E]

/-- The bucket is cached, or its capture succeeds. -/
def GraphState.qualifies (s : GraphState E) (capture : Int → Bool) (b : Int) : Bool :=
  (s.cudaGraphCache.lookup (bucketKey b)).isSome || capture b

def firstFit (s : GraphState E) (capture : Int → Bool) (cands : List Int) : Option Int :=
  (s.healthy cands).find? (s.qualifies capture)

/-- The candidates before the first that qualifies. -/
def passedOver (s : GraphState E) (capture : Int → Bool) (cands : List Int) : List Int :=
  (s.healthy cands).takeWhile fun b => !s.qualifies capture b

/-- The candidates that the batch is padded to. -/
def reached (s : GraphState E) (capture : Int → Bool) (cands : List Int) : List Int :=
  passedOver s capture cands ++ (firstFit s capture cands).toList

/-! ### One candidate -/

section Candidate
variable {s : GraphState E} {capture : Int → Bool} {cand : Int} {rest : List Int}

theorem firstFit_hit (h : bucketKey cand ∉ s.cudaGraphFailed) (hq : s.qualifies capture cand = true) :
    firstFit s capture (cand :: rest) = some cand := by
  rw [firstFit, healthy_cons h, List.find?_cons_of_pos hq]

theorem passedOver_hit (h : bucketKey cand ∉ s.cudaGraphFailed) (hq : s.qualifies capture cand = true) :
    passedOver s capture (cand :: rest) = [] := by
  rw [passedOver, healthy_cons h, List.takeWhile_cons_of_neg (by simp [hq])]

theorem firstFit_miss (h : bucketKey cand ∉ s.cudaGraphFailed) (hq : s.qualifies capture cand = false) :
    firstFit s capture (cand :: rest) = firstFit s capture rest := by
  rw [firstFit, healthy_cons h, List.find?_cons_of_neg (by simp [hq]), firstFit]

theorem passedOver_miss (h : bucketKey cand ∉ s.cudaGraphFailed) (hq : s.qualifies capture cand = false) :
    passedOver s capture (cand :: rest) = cand :: passedOver s capture rest := by
  rw [passedOver, healthy_cons h, List.takeWhile_cons_of_pos (by simp [hq]), passedOver]

/-- A failed capture changes nothing for other candidates. -/
theorem healthy_failedAt (h : cand ∉ rest) : (s.failedAt cand).healthy rest = s.healthy rest := by
  refine List.filter_congr fun b hb => ?_
  have hne : bucketKey b ≠ bucketKey cand := fun he => h (bucketKey_inj.mp he ▸ hb)
  simp [GraphState.failedAt, hne]

theorem firstFit_failedAt (h : cand ∉ rest) :
    firstFit (s.failedAt cand) capture rest = firstFit s capture rest := by
  rw [firstFit, healthy_failedAt h]
  rfl

theorem passedOver_failedAt (h : cand ∉ rest) :
    passedOver (s.failedAt cand) capture rest = passedOver s capture rest := by
  rw [passedOver, healthy_failedAt h]
  rfl

end Candidate

/-! ### The loop -/

section Loop
variable {forward : List (Tensor E) → List (Tensor E)} {capture : Int → Bool}
  {pad : Int → Except Fault (List (Tensor E))} {inputs : List (Tensor E)} {r : Int} {cand : Int}
  {rest : List Int} {s : GraphState E}

theorem qualifies_cached {e : CudaGraphEntry E} (he : s.cudaGraphCache.lookup (bucketKey cand) = some e) :
    s.qualifies capture cand = true := by
  rw [GraphState.qualifies, he]
  rfl

theorem qualifies_fresh (he : s.cudaGraphCache.lookup (bucketKey cand) = none) :
    s.qualifies capture cand = capture cand := by
  rw [GraphState.qualifies, he]
  rfl

/-- What the selection does to the state and which captures it makes: those passed over
are on the negative cache, and the cache has changed for the bucket it takes at most. -/
structure Searched (capture : Int → Bool) (cands : List Int) (s s' : GraphState E) (events : List (Event E)) :
    Prop where
  failed : s'.cudaGraphFailed =
    s.cudaGraphFailed ∪ ((passedOver s capture cands).map bucketKey).toFinset
  others : ∀ key, (∀ c ∈ firstFit s capture cands, key ≠ bucketKey c) →
    s'.cudaGraphCache.lookup key = s.cudaGraphCache.lookup key
  cached : ∀ c ∈ firstFit s capture cands, bucketKey c ∈ s'.cudaGraphCache
  captures : ∀ event ∈ events, ∃ b ∈ reached s capture cands, ∃ at_ ok, event = .capture b at_ ok

/-- A candidate on the negative cache is skipped. -/
theorem Searched.skip {s' : GraphState E} {events : List (Event E)} (h : bucketKey cand ∈ s.cudaGraphFailed)
    (hrest : Searched capture rest s s' events) : Searched capture (cand :: rest) s s' events := by
  have hfit : firstFit s capture (cand :: rest) = firstFit s capture rest := by
    rw [firstFit, healthy_failed h, firstFit]
  have hpassed : passedOver s capture (cand :: rest) = passedOver s capture rest := by
    rw [passedOver, healthy_failed h, passedOver]
  obtain ⟨hfailed, hothers, hcached, hevents⟩ := hrest
  refine ⟨hpassed ▸ hfailed, hfit ▸ hothers, hfit ▸ hcached, fun event he => ?_⟩
  rw [reached, hfit, hpassed]
  exact hevents event he

/-- A candidate that is taken: nothing is passed over. -/
theorem Searched.hit {s' : GraphState E} {events : List (Event E)} (h : bucketKey cand ∉ s.cudaGraphFailed)
    (hq : s.qualifies capture cand = true) (hfailed : s'.cudaGraphFailed = s.cudaGraphFailed)
    (hothers : ∀ key, key ≠ bucketKey cand →
      s'.cudaGraphCache.lookup key = s.cudaGraphCache.lookup key)
    (hcached : bucketKey cand ∈ s'.cudaGraphCache)
    (hevents : ∀ event ∈ events, ∃ at_ ok, event = .capture cand at_ ok) :
    Searched capture (cand :: rest) s s' events := by
  have hfit : firstFit s capture (cand :: rest) = some cand := firstFit_hit h hq
  have hpassed : passedOver s capture (cand :: rest) = [] := passedOver_hit h hq
  refine ⟨?_, fun key hkey => hothers key (hkey cand hfit), fun c hc => ?_, fun event he => ?_⟩
  · rw [hpassed, hfailed]
    exact (Finset.union_empty _).symm
  · rw [hfit] at hc
    cases hc
    exact hcached
  · refine ⟨cand, ?_, hevents event he⟩
    rw [reached, hfit, hpassed]
    exact List.mem_singleton_self cand

/-- A candidate whose capture fails is passed over. -/
theorem Searched.miss {s' : GraphState E} {events : List (Event E)} (h : bucketKey cand ∉ s.cudaGraphFailed)
    (hq : s.qualifies capture cand = false) (hfresh : cand ∉ rest)
    (hrest : Searched capture rest (s.failedAt cand) s' events) (at_ : List (Tensor E)) :
    Searched capture (cand :: rest) s s' (.capture cand at_ false :: events) := by
  have hfit : firstFit s capture (cand :: rest) = firstFit s capture rest := firstFit_miss h hq
  have hpassed : passedOver s capture (cand :: rest) = cand :: passedOver s capture rest := passedOver_miss h hq
  obtain ⟨hfailed, hothers, hcached, hevents⟩ := hrest
  rw [firstFit_failedAt hfresh] at hothers hcached
  rw [passedOver_failedAt hfresh] at hfailed
  refine ⟨?_, ?_, ?_, fun event he => ?_⟩
  · rw [hfailed, hpassed, List.map_cons, List.toFinset_cons, Finset.union_insert]
    exact Finset.insert_union _ _ _
  · rw [hfit]
    exact hothers
  · rw [hfit]
    exact hcached
  · rw [reached, hfit, hpassed, List.cons_append]
    rcases List.mem_cons.mp he with rfl | he
    · exact ⟨cand, List.mem_cons_self .., at_, false, rfl⟩
    · obtain ⟨b, hb, hevent⟩ := hevents event he
      rw [reached, firstFit_failedAt hfresh, passedOver_failedAt hfresh] at hb
      exact ⟨b, List.mem_cons_of_mem _ hb, hevent⟩

theorem mem_reached_head (h : bucketKey cand ∉ s.cudaGraphFailed) : cand ∈ reached s capture (cand :: rest) := by
  cases hq : s.qualifies capture cand with
  | true =>
    rw [reached, firstFit_hit h hq, passedOver_hit h hq]
    exact List.mem_singleton_self cand
  | false =>
    rw [reached, passedOver_miss h hq, List.cons_append]
    exact List.mem_cons_self ..

theorem reached_failed (h : bucketKey cand ∈ s.cudaGraphFailed) :
    reached s capture (cand :: rest) = reached s capture rest := by
  rw [reached, passedOver, firstFit, healthy_failed h]
  rfl

theorem reached_hit (h : bucketKey cand ∉ s.cudaGraphFailed) (hq : s.qualifies capture cand = true) :
    reached s capture (cand :: rest) = [cand] := by
  rw [reached, firstFit_hit h hq, passedOver_hit h hq]
  rfl

theorem reached_miss (h : bucketKey cand ∉ s.cudaGraphFailed) (hq : s.qualifies capture cand = false)
    (hfresh : cand ∉ rest) :
    reached s capture (cand :: rest) = cand :: reached (s.failedAt cand) capture rest := by
  rw [reached, firstFit_miss h hq, passedOver_miss h hq, reached, firstFit_failedAt hfresh,
    passedOver_failedAt hfresh]
  rfl

variable (forward) in
/-- Where the batch can be brought to every candidate it reaches, the selection returns
the first that qualifies. -/
theorem selectFrom_fit {cands : List Int} {s : GraphState E} (hnodup : cands.Nodup)
    (hat : ∀ b ∈ reached s capture cands, ∃ at_, atCandidate pad inputs r b = .ok at_) :
    ∃ selected s' events, selectFrom forward capture pad inputs r cands s = (.ok selected, s', events) ∧
      selected.map Selected.bucket = firstFit s capture cands ∧ Searched capture cands s s' events := by
  induction cands generalizing s with
  | nil =>
    refine ⟨none, s, [], rfl, rfl, ?_, fun _ _ => rfl, fun c hc => ?_, fun _ he => ?_⟩
    · exact (Finset.union_empty _).symm
    · cases hc
    · cases he
  | cons cand rest ih =>
    obtain ⟨hcand, hrest⟩ := List.nodup_cons.mp hnodup
    by_cases hfailed : bucketKey cand ∈ s.cudaGraphFailed
    · rw [reached_failed hfailed] at hat
      obtain ⟨selected, s', events, hsel, hfit, hdone⟩ := ih hrest hat
      refine ⟨selected, s', events, by rw [selectFrom_failed hfailed, hsel], ?_, .skip hfailed hdone⟩
      rw [firstFit, healthy_failed hfailed]
      exact hfit
    · obtain ⟨at_, hcandAt⟩ := hat cand (mem_reached_head hfailed)
      cases he : s.cudaGraphCache.lookup (bucketKey cand) with
      | some e =>
        have hq : s.qualifies capture cand = true := qualifies_cached he
        refine ⟨some ⟨cand, at_⟩, s, [], selectFrom_cached hfailed hcandAt he, (firstFit_hit hfailed hq).symm,
          .hit hfailed hq rfl (fun _ _ => rfl) ?_ fun _ hevent => (by cases hevent)⟩
        exact AList.lookup_isSome.mp (by rw [he]; rfl)
      | none =>
        cases hc : capture cand with
        | true =>
          have hq : s.qualifies capture cand = true := (qualifies_fresh he).trans hc
          refine ⟨some ⟨cand, at_⟩, _, _, selectFrom_captured hfailed hcandAt he hc,
            (firstFit_hit hfailed hq).symm, .hit hfailed hq rfl (fun key hkey => lookup_emplace_ne _ hkey _) ?_ ?_⟩
          · exact (mem_emplace _ _ _ _).mpr (.inl rfl)
          · exact fun event hevent => ⟨at_, true, List.mem_singleton.mp hevent⟩
        | false =>
          have hq : s.qualifies capture cand = false := (qualifies_fresh he).trans hc
          rw [reached_miss hfailed hq hcand] at hat
          obtain ⟨selected, s', events, hsel, hfit, hdone⟩ :=
            ih hrest fun b hb => hat b (List.mem_cons_of_mem _ hb)
          refine ⟨selected, s', .capture cand at_ false :: events, ?_, ?_, .miss hfailed hq hcand hdone at_⟩
          · rw [selectFrom_missed hfailed hcandAt he hc, hsel]
          · rw [hfit, firstFit_failedAt hcand, firstFit_miss hfailed hq]

/-- A search that raises: the batch can be brought to the candidates in `front`, which are captured
in vain, and not to the next one that is reached. -/
structure Stopped (capture : Int → Bool) (pad : Int → Except Fault (List (Tensor E))) (inputs : List (Tensor E))
    (r : Int) (cands : List Int) (s s' : GraphState E) (events : List (Event E)) (front : List Int) (b : Int)
    (fault : Fault) : Prop where
  reached : front ++ [b] <+: reached s capture cands
  brought : ∀ c ∈ front, ∃ at_, atCandidate pad inputs r c = .ok at_
  raises : atCandidate pad inputs r b = .error fault
  failed : s'.cudaGraphFailed = s.cudaGraphFailed ∪ (front.map bucketKey).toFinset
  cache : s'.cudaGraphCache = s.cudaGraphCache
  captures : ∀ event ∈ events, ∃ c ∈ front, ∃ at_, event = .capture c at_ false

/-- Behind a candidate that is captured in vain. -/
theorem Stopped.miss {s' : GraphState E} {events : List (Event E)} {front : List Int} {b : Int} {fault : Fault}
    {at_ : List (Tensor E)} (h : bucketKey cand ∉ s.cudaGraphFailed) (hq : s.qualifies capture cand = false)
    (hfresh : cand ∉ rest) (hat : atCandidate pad inputs r cand = .ok at_)
    (hrest : Stopped capture pad inputs r rest (s.failedAt cand) s' events front b fault) :
    Stopped capture pad inputs r (cand :: rest) s s' (.capture cand at_ false :: events) (cand :: front) b fault := by
  refine ⟨?_, List.forall_mem_cons.mpr ⟨⟨at_, hat⟩, hrest.brought⟩, hrest.raises, ?_, hrest.cache, ?_⟩
  · rw [reached_miss h hq hfresh, List.cons_append]
    exact List.cons_prefix_cons.mpr ⟨rfl, hrest.reached⟩
  · rw [hrest.failed, List.map_cons, List.toFinset_cons, Finset.union_insert]
    exact Finset.insert_union _ _ _
  · intro event he
    rcases List.mem_cons.mp he with rfl | he
    · exact ⟨cand, List.mem_cons_self .., at_, rfl⟩
    · obtain ⟨c, hc, hevent⟩ := hrest.captures event he
      exact ⟨c, List.mem_cons_of_mem _ hc, hevent⟩

variable (forward) in
/-- Where it cannot, the selection raises what bringing it to the first of these raises. -/
theorem selectFrom_unfit {cands : List Int} {s : GraphState E} (hnodup : cands.Nodup)
    (hat : ∃ b ∈ reached s capture cands, ∃ fault, atCandidate pad inputs r b = .error fault) :
    ∃ front b fault s' events, selectFrom forward capture pad inputs r cands s = (.error fault, s', events) ∧
      Stopped capture pad inputs r cands s s' events front b fault := by
  induction cands generalizing s with
  | nil =>
    obtain ⟨b, hb, _⟩ := hat
    cases hb
  | cons cand rest ih =>
    obtain ⟨hcand, hrest⟩ := List.nodup_cons.mp hnodup
    by_cases hfailed : bucketKey cand ∈ s.cudaGraphFailed
    · rw [reached_failed hfailed] at hat
      obtain ⟨front, b, fault, s', events, hsel, hstop⟩ := ih hrest hat
      refine ⟨front, b, fault, s', events, by rw [selectFrom_failed hfailed, hsel], ?_, hstop.brought, hstop.raises,
        hstop.failed, hstop.cache, hstop.captures⟩
      rw [reached_failed hfailed]
      exact hstop.reached
    · cases hcandAt : atCandidate pad inputs r cand with
      | error fault =>
        refine ⟨[], cand, fault, s, [], selectFrom_fault hfailed hcandAt, ?_, by simp, hcandAt, by simp, rfl, by simp⟩
        cases hq : s.qualifies capture cand with
        | true => rw [reached_hit hfailed hq]; exact List.prefix_rfl
        | false =>
          rw [reached_miss hfailed hq hcand]
          exact List.cons_prefix_cons.mpr ⟨rfl, List.nil_prefix⟩
      | ok at_ =>
        obtain ⟨b, hb, fault, hfault⟩ := hat
        have hne : b ≠ cand := fun he => (by rw [he, hcandAt] at hfault; cases hfault)
        cases hq : s.qualifies capture cand with
        | true =>
          rw [reached_hit hfailed hq] at hb
          exact absurd (List.mem_singleton.mp hb) hne
        | false =>
          obtain ⟨he, hc⟩ : s.cudaGraphCache.lookup (bucketKey cand) = none ∧ capture cand = false := by
            rw [GraphState.qualifies, Bool.or_eq_false_iff] at hq
            exact ⟨Option.isSome_eq_false_iff.mp hq.1 |> Option.isNone_iff_eq_none.mp, hq.2⟩
          rw [reached_miss hfailed hq hcand] at hb
          obtain ⟨front, b', fault', s', events, hsel, hstop⟩ :=
            ih hrest ⟨b, (List.mem_cons.mp hb).resolve_left hne, fault, hfault⟩
          refine ⟨cand :: front, b', fault', s', .capture cand at_ false :: events, ?_,
            .miss hfailed hq hcand hcandAt hstop⟩
          rw [selectFrom_missed hfailed hcandAt he hc, hsel]

end Loop

/-! ### The candidates reached -/

/-- What is reached is the front of the candidates that are healthy. -/
theorem reached_front (s : GraphState E) (capture : Int → Bool) (cands : List Int) :
    reached s capture cands <+: s.healthy cands := by
  rw [reached, passedOver, firstFit, List.find?_eq_head?_dropWhile_not, ← List.take_one]
  have hsplit := List.takeWhile_append_dropWhile (p := fun b => !s.qualifies capture b) (l := s.healthy cands)
  nth_rewrite 3 [← hsplit]
  exact (List.prefix_append_right_inj _).mpr (List.take_prefix 1 _)

theorem reached_bounds {s : GraphState E} {capture : Int → Bool} {buckets : BatchSizes} {r b : Int}
    (h : b ∈ reached s capture (buckets.lowerBound r)) :
    r ≤ b ∧ ∀ c ∈ firstFit s capture (buckets.lowerBound r), b ≤ c := by
  have hpre := reached_front s capture (buckets.lowerBound r)
  have hb := (mem_healthy.mp (hpre.subset h)).1
  refine ⟨((BatchSizes.mem_lowerBound _ _ _).mp hb).2, fun c hc => ?_⟩
  have hasc : (reached s capture (buckets.lowerBound r)).Pairwise (· < ·) :=
    ((buckets.ascending_lowerBound r).sublist List.filter_sublist).sublist hpre.sublist
  rw [reached, Option.mem_def.mp hc] at hasc h
  rcases List.mem_append.mp h with hpassed | hlast
  · exact (List.pairwise_append.mp hasc).2.2 b hpassed c (List.mem_singleton_self c) |>.le
  · exact (List.mem_singleton.mp hlast).le

/-! ### The slow path -/

/-- A replay changes the entry it is made on, and no key. -/
theorem replay_frame (forward : List (Tensor E) → List (Tensor E)) (chance : Chance) (a : Attempt E)
    (outputs : List (Tensor E)) :
    let ran := a.replay forward chance outputs
    ran.state.cudaGraphFailed = a.state.cudaGraphFailed ∧
      (∀ key, key ≠ a.key → ran.state.cudaGraphCache.lookup key = a.state.cudaGraphCache.lookup key) ∧
      (∀ key, key ∈ ran.state.cudaGraphCache ↔ key ∈ a.state.cudaGraphCache) ∧
      ∀ b at_ ok, .capture b at_ ok ∉ ran.events := by
  obtain ⟨hkeys, hops⟩ := keys_replayCudaGraphEntry forward chance a.key a.r a.bucket a.copyFrom a.state outputs
  refine ⟨congrArg Attempts.Keys.failed hkeys, fun key hne => ?_, fun key => ?_, fun b at_ ok he => ?_⟩
  · rcases replay_cache forward chance a outputs with hsame | ⟨e, outs, _, hset⟩
    · rw [hsame]
    · rw [hset]
      exact AList.lookup_insert_ne hne
  · have hcached := congrArg (fun k => key ∈ k.cached) hkeys
    simp only [keysOf, List.mem_toFinset, eq_iff_iff] at hcached
    exact hcached
  · have hop : Attempts.Op.attempt (bucketKey b) ok ∈
        (a.replay forward chance outputs).events.filterMap Event.op := List.mem_filterMap.mpr ⟨_, he, rfl⟩
    rw [Attempt.replay, hops] at hop
    cases hop

section Slow
variable {cfg : GraphConfig} {forward : List (Tensor E) → List (Tensor E)} {chance : Chance}
  {t0 t1 t2 : Tensor E} {s s' : GraphState E} {r : Nat} {events : List (Event E)}

/-- A call whose selection comes to a bucket. -/
theorem slow_some {selected : Selected E} (hr : requestCount t0 t1 t2 = .ok r)
    (hnone : (checkWarmupWidths cfg t0 t1 r s).1.prestagedEntry = none)
    (hsel : selectBucket cfg.cudaGraphBatchSizes forward chance.capture (padRequestsUp chance.alloc [t0, t1, t2] r)
      [t0, t1, t2] r (checkWarmupWidths cfg t0 t1 r s).1 = (.ok (some selected), s', events))
    (outputs : List (Tensor E)) :
    let a : Attempt E := ⟨bucketKey selected.bucket, r, selected.bucket, some selected.inputsAtBucket, s'⟩
    attempted cfg forward chance [t0, t1, t2] s = some a ∧
      executeWithCudaGraph cfg forward chance [t0, t1, t2] s outputs = {a.replay forward chance outputs with
        events := (checkWarmupWidths cfg t0 t1 r s).2 ++ (events ++ (a.replay forward chance outputs).events)} := by
  constructor
  · simp only [attempted, hr, attemptedFrom, hnone, hsel]
  · simp only [executeWithCudaGraph, hr, executeFrom, hnone, executeSlow, hsel, Attempt.replay]

/-- A call whose selection comes to none. -/
theorem slow_none (hr : requestCount t0 t1 t2 = .ok r)
    (hnone : (checkWarmupWidths cfg t0 t1 r s).1.prestagedEntry = none)
    (hsel : selectBucket cfg.cudaGraphBatchSizes forward chance.capture (padRequestsUp chance.alloc [t0, t1, t2] r)
      [t0, t1, t2] r (checkWarmupWidths cfg t0 t1 r s).1 = (.ok none, s', events))
    (outputs : List (Tensor E)) :
    attempted cfg forward chance [t0, t1, t2] s = none ∧
      executeWithCudaGraph cfg forward chance [t0, t1, t2] s outputs =
        eagerFallback s' outputs ((checkWarmupWidths cfg t0 t1 r s).2 ++ events) := by
  constructor
  · simp only [attempted, hr, attemptedFrom, hnone, hsel]
  · simp only [executeWithCudaGraph, hr, executeFrom, hnone, executeSlow, hsel, eagerFallback]

/-- A call whose selection raises. -/
theorem slow_error {fault : Fault} (hr : requestCount t0 t1 t2 = .ok r)
    (hnone : (checkWarmupWidths cfg t0 t1 r s).1.prestagedEntry = none)
    (hsel : selectBucket cfg.cudaGraphBatchSizes forward chance.capture (padRequestsUp chance.alloc [t0, t1, t2] r)
      [t0, t1, t2] r (checkWarmupWidths cfg t0 t1 r s).1 = (.error fault, s', events))
    (outputs : List (Tensor E)) :
    attempted cfg forward chance [t0, t1, t2] s = none ∧
      executeWithCudaGraph cfg forward chance [t0, t1, t2] s outputs =
        ⟨.error fault, s', outputs, (checkWarmupWidths cfg t0 t1 r s).2 ++ events⟩ := by
  constructor
  · simp only [attempted, hr, attemptedFrom, hnone, hsel]
  · simp only [executeWithCudaGraph, hr, executeFrom, hnone, executeSlow, hsel]

end Slow

theorem checkWarmupWidths_no_capture (cfg : GraphConfig) (t0 t1 : Tensor E) (r : Nat) (s : GraphState E)
    (b : Int) (at_ : List (Tensor E)) (ok : Bool) : .capture b at_ ok ∉ (checkWarmupWidths cfg t0 t1 r s).2 := by
  rcases checkWarmupWidths_cases cfg t0 t1 r s with ⟨_, h⟩ | h
  · rw [h]
    exact fun hm => (by cases List.mem_singleton.mp hm)
  · rw [h]
    exact List.not_mem_nil

/-- The search leaves alone the buckets that do not hold the batch and those above the one it takes. -/
theorem Searched.untouched {capture : Int → Bool} {buckets : BatchSizes} {r b : Int} {s s' : GraphState E}
    {events : List (Event E)} (h : Searched capture (buckets.lowerBound r) s s' events)
    (hb : b < r ∨ ∃ c ∈ firstFit s capture (buckets.lowerBound r), c < b) :
    (∀ c ∈ firstFit s capture (buckets.lowerBound r), bucketKey b ≠ bucketKey c) ∧
      (bucketKey b ∈ s'.cudaGraphFailed ↔ bucketKey b ∈ s.cudaGraphFailed) ∧
      ∀ at_ ok, .capture b at_ ok ∉ events := by
  have hout : b ∉ reached s capture (buckets.lowerBound r) := fun hmem => by
    obtain ⟨hle, hlast⟩ := reached_bounds hmem
    rcases hb with hlt | ⟨c, hc, hlt⟩
    · exact absurd hle (not_le.mpr hlt)
    · exact absurd (hlast c hc) (not_le.mpr hlt)
  refine ⟨fun c hc he => ?_, ?_, fun at_ ok he => ?_⟩
  · obtain rfl := bucketKey_inj.mp he
    exact hout (List.mem_append_right _ (by rw [Option.mem_def.mp hc]; exact List.mem_singleton_self b))
  · rw [h.failed, Finset.mem_union, List.mem_toFinset, List.mem_map]
    refine ⟨fun hmem => hmem.resolve_right ?_, .inl⟩
    intro hparts
    obtain ⟨b', hb', he⟩ := hparts
    obtain rfl := bucketKey_inj.mp he
    exact hout (List.mem_append_left _ hb')
  · obtain ⟨b', hb', _, _, hevent⟩ := h.captures _ he
    cases hevent
    exact hout hb'

/-- What a call on the slow path selects and changes, from the state `mid` on. -/
structure SelectsFirst (cfg : GraphConfig) (forward : List (Tensor E) → List (Tensor E)) (chance : Chance)
    (inputs : List (Tensor E)) (r : Nat) (s mid : GraphState E) (outputs : List (Tensor E))
    (first : Option Int) (before : List Int) (ran : Ran E Bool) : Prop where
  /-- A replay is attempted at the first bucket, if there is one. -/
  selects : (attempted cfg forward chance inputs s).map Attempt.bucket = first
  /-- The call returns what that replay returns; it copies the batch as it is at this bucket. -/
  replays : ∀ a, attempted cfg forward chance inputs s = some a → a.key = bucketKey a.bucket ∧ a.r = r ∧
    (∃ at_, a.copyFrom = some at_ ∧ atCandidate (padRequestsUp chance.alloc inputs r) inputs r a.bucket = .ok at_) ∧
    ran.value = (a.replay forward chance outputs).value
  eager : first = none → ran.value = .ok false ∧ ran.outputs = outputs ∧
    ∀ event ∈ ran.events, ¬ event.IsReplay
  failed : ran.state.cudaGraphFailed = mid.cudaGraphFailed ∪ (before.map bucketKey).toFinset
  others : ∀ key, (∀ c ∈ first, key ≠ bucketKey c) →
    ran.state.cudaGraphCache.lookup key = mid.cudaGraphCache.lookup key
  cached : ∀ c ∈ first, bucketKey c ∈ ran.state.cudaGraphCache
  untouched : ∀ b : Int, (b < r ∨ ∃ c ∈ first, c < b) →
    ran.state.cudaGraphCache.lookup (bucketKey b) = mid.cudaGraphCache.lookup (bucketKey b) ∧
    (bucketKey b ∈ ran.state.cudaGraphFailed ↔ bucketKey b ∈ mid.cudaGraphFailed) ∧
    ∀ at_ ok, .capture b at_ ok ∉ ran.events

/-- What a call leaves that cannot bring the batch to a candidate it reaches: it raises, those before
are put on the negative cache, and nothing else has changed. -/
structure RaisesAt (chance : Chance) (inputs : List (Tensor E)) (r : Nat) (mid : GraphState E) (cands : List Int)
    (outputs : List (Tensor E)) (front : List Int) (b : Int) (fault : Fault) (ran : Ran E Bool) : Prop where
  reached : front ++ [b] <+: reached mid chance.capture cands
  brought : ∀ c ∈ front, ∃ at_, atCandidate (padRequestsUp chance.alloc inputs r) inputs r c = .ok at_
  raises : atCandidate (padRequestsUp chance.alloc inputs r) inputs r b = .error fault
  value : ran.value = .error fault
  outputs : ran.outputs = outputs
  failed : ran.state.cudaGraphFailed = mid.cudaGraphFailed ∪ (front.map bucketKey).toFinset
  cache : ran.state.cudaGraphCache = mid.cudaGraphCache
  replays : ∀ event ∈ ran.events, ¬ event.IsReplay

/-- A batch can be brought to its own bucket, and to any other that it can be padded to; otherwise
that raises, but divides by nothing. -/
theorem atCandidate_cases {alloc : Int → Nat → Option String} {t0 t1 : Tensor E} (t2 : Tensor E) {r : Nat}
    {b : Int} (hr : 1 ≤ r) (hb : r ≤ b) :
    ((b = r ∨ Pads alloc r b t0 t1) ∧
        ∃ at_, atCandidate (padRequestsUp alloc [t0, t1, t2] r) [t0, t1, t2] r b = .ok at_) ∨
      ¬ (b = r ∨ Pads alloc r b t0 t1) ∧ ∃ fault, fault ≠ .sigfpe ∧
        atCandidate (padRequestsUp alloc [t0, t1, t2] r) [t0, t1, t2] r b = .error fault := by
  obtain ⟨b, rfl⟩ := Int.eq_ofNat_of_zero_le (Int.le_trans (Int.natCast_nonneg r) hb)
  have hne : r ≠ 0 := by omega
  unfold atCandidate
  by_cases hown : (b : Int) = r
  · rw [if_pos hown]
    exact .inl ⟨.inl hown, _, rfl⟩
  · rw [if_neg hown]
    cases hpad : padRequestsUp alloc [t0, t1, t2] r b with
    | ok out => exact .inl ⟨.inr ((padRequestsUp_ok_iff t2 hne).mp ⟨out, hpad⟩), out, rfl⟩
    | error fault =>
      refine .inr ⟨fun h => ?_, fault, padRequestsUp_error hne hpad, rfl⟩
      obtain ⟨out, hout⟩ := (padRequestsUp_ok_iff t2 hne).mpr (h.resolve_left hown)
      rw [hpad] at hout
      cases hout

/-- The rows that a batch is padded to can be counted by an int64, and its tensors allocated. -/
structure RowsFit (alloc : Int → Nat → Option String) (r : Nat) (b : Int) (t0 t1 : Tensor E) : Prop where
  allocates : ∀ i < 3, alloc b i = none
  range : b < int64Max
  rows : ∀ t ∈ [t0, t1], ∃ n, Leads t n ∧ ((n / r : Nat) : Int) * b ≤ int64Max

/-- That is all a batch of whole requests needs. -/
theorem fits_iff {alloc : Int → Nat → Option String} {t0 t1 : Tensor E} {r : Nat} {b : Int}
    (hmultiples : ∀ t ∈ [t0, t1], ∃ n, Leads t n ∧ r ∣ n) (hb : r ≤ b) :
    RowsFit alloc r b t0 t1 ↔ Pads alloc r b t0 t1 := by
  have hroom : ∀ t ∈ [t0, t1], ∀ i, HasRoom alloc r b i t ↔
      alloc b i = none ∧ ∃ n, Leads t n ∧ ((n / r : Nat) : Int) * b ≤ int64Max := by
    intro t ht i
    obtain ⟨n, hn, hdvd⟩ := hmultiples t ht
    constructor
    · rintro ⟨halloc, m, hm, _, hfits⟩
      exact ⟨halloc, m, hm, hfits⟩
    · rintro ⟨halloc, m, hm, hfits⟩
      obtain rfl := hn.unique hm
      exact hasRoom_multiple hn hdvd hb hfits halloc
  constructor
  · intro h
    exact ⟨(hroom t0 (by simp) 0).mpr ⟨h.allocates 0 (by decide), h.rows t0 (by simp)⟩,
      (hroom t1 (by simp) 1).mpr ⟨h.allocates 1 (by decide), h.rows t1 (by simp)⟩,
      ⟨h.allocates 2 (by decide), Int.le_trans (Int.natCast_nonneg r) hb, h.range⟩⟩
  · intro h
    obtain ⟨halloc0, hrows0⟩ := (hroom t0 (by simp) 0).mp h.single
    obtain ⟨halloc1, hrows1⟩ := (hroom t1 (by simp) 1).mp h.multiple
    refine ⟨?_, h.positions.range.2, ?_⟩
    · intro i hi
      have hcases : i = 0 ∨ i = 1 ∨ i = 2 := by omega
      rcases hcases with rfl | rfl | rfl
      · exact halloc0
      · exact halloc1
      · exact h.positions.allocates
    · intro t ht
      rcases List.mem_cons.mp ht with rfl | ht
      · exact hrows0
      · rw [List.mem_singleton.mp ht]
        exact hrows1

section FirstFit
variable {cfg : GraphConfig} {forward : List (Tensor E) → List (Tensor E)} {chance : Chance} {t0 t1 t2 : Tensor E}
  {s : GraphState E} {r : Nat}

/-- A batch that can be brought to the candidates it reaches is taken to the first that qualifies. -/
theorem selectsFirst_of_brought (hsizes : cfg.cudaGraphBatchSizes.sizes ≠ []) (hr : requestCount t0 t1 t2 = .ok r)
    (hnone : (checkWarmupWidths cfg t0 t1 r s).1.prestagedEntry = none)
    (hat : ∀ b ∈ reached (checkWarmupWidths cfg t0 t1 r s).1 chance.capture (cfg.cudaGraphBatchSizes.lowerBound r),
      ∃ at_, atCandidate (padRequestsUp chance.alloc [t0, t1, t2] r) [t0, t1, t2] r b = .ok at_)
    (outputs : List (Tensor E)) :
    let mid := (checkWarmupWidths cfg t0 t1 r s).1
    let cands := cfg.cudaGraphBatchSizes.lowerBound r
    SelectsFirst cfg forward chance [t0, t1, t2] r s mid outputs (firstFit mid chance.capture cands)
      (passedOver mid chance.capture cands) (executeWithCudaGraph cfg forward chance [t0, t1, t2] s outputs) := by
  intro mid cands
  have hnodup : cands.Nodup := (cfg.cudaGraphBatchSizes.ascending_lowerBound r).imp fun h => h.ne
  obtain ⟨selected, s', events, hfrom, hfit, hdone⟩ := selectFrom_fit forward hnodup hat
  have hsel : selectBucket cfg.cudaGraphBatchSizes forward chance.capture (padRequestsUp chance.alloc [t0, t1, t2] r)
      [t0, t1, t2] r mid = (.ok selected, s', events) := by
    rw [selectBucket, if_neg (by simpa using hsizes)]
    exact hfrom
  have hwidths := checkWarmupWidths_no_capture cfg t0 t1 r s
  cases selected with
  | none =>
    obtain ⟨hattempt, hrun⟩ := slow_none hr hnone hsel outputs
    have hno : ∀ event ∈ (executeWithCudaGraph cfg forward chance [t0, t1, t2] s outputs).events,
        ¬ event.IsReplay := (executeWithCudaGraph_none hattempt outputs).2.2
    rw [hrun] at hno ⊢
    refine ⟨by rw [hattempt]; exact hfit, fun a ha => ?_, fun _ => ⟨rfl, rfl, hno⟩, hdone.failed, hdone.others,
      hdone.cached, fun b hb => ?_⟩
    · rw [hattempt] at ha
      cases ha
    · obtain ⟨hkey, hfailed, hevents⟩ := hdone.untouched hb
      refine ⟨hdone.others _ hkey, hfailed, fun at_ ok he => ?_⟩
      rcases List.mem_append.mp he with he | he
      · exact hwidths b at_ ok he
      · exact hevents at_ ok he
  | some selected =>
    obtain ⟨hattempt, hrun⟩ := slow_some hr hnone hsel outputs
    obtain ⟨_, hcopies⟩ := (selects_selectBucket hsel).selected rfl
    have hfirst : firstFit mid chance.capture cands = some selected.bucket := hfit.symm
    obtain ⟨hfailed, hothers, hkeys, hno⟩ := replay_frame forward chance
      ⟨bucketKey selected.bucket, r, selected.bucket, some selected.inputsAtBucket, s'⟩ outputs
    rw [hrun]
    refine ⟨by rw [hattempt]; exact hfit, fun a ha => ?_, fun hnofit => ?_, hfailed.trans hdone.failed,
      fun key hkey => ?_, fun c hc => (hkeys _).mpr (hdone.cached c hc), fun b hb => ?_⟩
    · rw [hattempt] at ha
      cases ha
      exact ⟨rfl, rfl, ⟨_, rfl, hcopies⟩, rfl⟩
    · rw [hfirst] at hnofit
      cases hnofit
    · exact (hothers key (hkey _ hfirst)).trans (hdone.others key hkey)
    · obtain ⟨hkey, hfailed', hevents⟩ := hdone.untouched hb
      refine ⟨(hothers _ (hkey _ hfirst)).trans (hdone.others _ hkey), ?_, fun at_ ok he => ?_⟩
      · rw [hfailed]
        exact hfailed'
      · rcases List.mem_append.mp he with he | he
        · exact hwidths b at_ ok he
        · rcases List.mem_append.mp he with he | he
          · exact hevents at_ ok he
          · exact hno b at_ ok he

/-- One that cannot raises at the first of them. -/
theorem raisesAt_of_unbrought (hsizes : cfg.cudaGraphBatchSizes.sizes ≠ []) (hr : requestCount t0 t1 t2 = .ok r)
    (hnone : (checkWarmupWidths cfg t0 t1 r s).1.prestagedEntry = none)
    (hat : ∃ b ∈ reached (checkWarmupWidths cfg t0 t1 r s).1 chance.capture (cfg.cudaGraphBatchSizes.lowerBound r),
      ∃ fault, atCandidate (padRequestsUp chance.alloc [t0, t1, t2] r) [t0, t1, t2] r b = .error fault)
    (outputs : List (Tensor E)) :
    ∃ front b fault, RaisesAt chance [t0, t1, t2] r (checkWarmupWidths cfg t0 t1 r s).1
      (cfg.cudaGraphBatchSizes.lowerBound r) outputs front b fault
      (executeWithCudaGraph cfg forward chance [t0, t1, t2] s outputs) := by
  have hnodup : (cfg.cudaGraphBatchSizes.lowerBound r).Nodup :=
    (cfg.cudaGraphBatchSizes.ascending_lowerBound r).imp fun h => h.ne
  obtain ⟨front, b, fault, s', events, hfrom, hstop⟩ := selectFrom_unfit forward hnodup hat
  have hsel : selectBucket cfg.cudaGraphBatchSizes forward chance.capture (padRequestsUp chance.alloc [t0, t1, t2] r)
      [t0, t1, t2] r (checkWarmupWidths cfg t0 t1 r s).1 = (.error fault, s', events) := by
    rw [selectBucket, if_neg (by simpa using hsizes)]
    exact hfrom
  obtain ⟨hattempt, hrun⟩ := slow_error hr hnone hsel outputs
  have hno := (executeWithCudaGraph_none hattempt outputs).2.2
  rw [hrun] at hno ⊢
  exact ⟨front, b, fault, hstop.reached, hstop.brought, hstop.raises, rfl, rfl, hstop.failed, hstop.cache, hno⟩

/-- **The slow path selects the first candidate that qualifies**: the first bucket from `r` on
that is not on the negative cache and is cached or can be captured. Those before it are put
on the negative cache, and no other bucket is touched. Where the batch does not fit into one of
these padded, the call raises there, with those before on the negative cache. -/
theorem executeWithCudaGraph_firstFit (hsizes : cfg.cudaGraphBatchSizes.sizes ≠ [])
    (hr : requestCount t0 t1 t2 = .ok r) (hpos : 1 ≤ r) (hmultiples : ∀ t ∈ [t0, t1, t2], ∃ n, Leads t n ∧ r ∣ n)
    (hnone : (checkWarmupWidths cfg t0 t1 r s).1.prestagedEntry = none) (outputs : List (Tensor E)) :
    let mid := (checkWarmupWidths cfg t0 t1 r s).1
    let cands := cfg.cudaGraphBatchSizes.lowerBound r
    let candidates := mid.healthy cands
    let qualifies := mid.qualifies chance.capture
    let ran := executeWithCudaGraph cfg forward chance [t0, t1, t2] s outputs
    let fits := ∀ b ∈ reached mid chance.capture cands, b = r ∨ RowsFit chance.alloc r b t0 t1
    (fits → SelectsFirst cfg forward chance [t0, t1, t2] r s mid outputs (candidates.find? qualifies)
      (candidates.takeWhile fun b => !qualifies b) ran) ∧
    (¬ fits → ∃ front b fault, RaisesAt chance [t0, t1, t2] r mid cands outputs front b fault ran) := by
  intro mid cands candidates qualifies ran fits
  have hbrought : ∀ b ∈ reached mid chance.capture cands, (b = r ∨ RowsFit chance.alloc r b t0 t1) ↔
      ∃ at_, atCandidate (padRequestsUp chance.alloc [t0, t1, t2] r) [t0, t1, t2] r b = .ok at_ := by
    intro b hb
    have hle := (reached_bounds hb).1
    rw [fits_iff (fun t ht => hmultiples t (by rcases List.mem_cons.mp ht with rfl | ht <;> simp_all)) hle]
    rcases atCandidate_cases t2 hpos hle with ⟨hyes, hat⟩ | ⟨hno, fault, _, hat⟩
    · exact iff_of_true hyes hat
    · exact iff_of_false hno fun ⟨at_, h⟩ => (by rw [hat] at h; cases h)
  constructor
  · intro hfits
    exact selectsFirst_of_brought hsizes hr hnone (fun b hb => (hbrought b hb).mp (hfits b hb)) outputs
  · intro hunfit
    obtain ⟨b, hb, hno⟩ : ∃ b ∈ reached mid chance.capture cands, ¬ (b = r ∨ RowsFit chance.alloc r b t0 t1) := by
      by_contra hall
      exact hunfit fun b hb => by_contra fun hno => hall ⟨b, hb, hno⟩
    refine raisesAt_of_unbrought hsizes hr hnone ⟨b, hb, ?_⟩ outputs
    cases hat : atCandidate (padRequestsUp chance.alloc [t0, t1, t2] r) [t0, t1, t2] r b with
    | ok at_ => exact absurd ((hbrought b hb).mpr ⟨at_, hat⟩) hno
    | error fault => exact ⟨fault, rfl⟩

end FirstFit

/-- One request, a bucket of two whose capture fails, and one of four whose capture succeeds. -/
theorem executeWithCudaGraph_firstFit_four :
    let chance : Chance := {Chance.smooth with capture := fun b => b == 4}
    let inputs : List (Tensor Int) := [.zeros .double .cuda [1, 1], .zeros .double .cuda [1], .zeros .int .cuda [1]]
    let ran := executeWithCudaGraph (graphsAt ⟨[2, 4], pairwise_two_four⟩) id chance inputs (.fresh Int) []
    (attempted (graphsAt ⟨[2, 4], pairwise_two_four⟩) id chance inputs (.fresh Int)).map Attempt.bucket = some 4 ∧
      "R=2" ∈ ran.state.cudaGraphFailed ∧ "R=4" ∈ ran.state.cudaGraphCache := by
  intro chance inputs ran
  have hr : requestCount (.zeros .double .cuda [1, 1] : Tensor Int) (.zeros .double .cuda [1])
    (.zeros .int .cuda [1]) = .ok 1 := rfl
  have hnone : (checkWarmupWidths (graphsAt ⟨[2, 4], pairwise_two_four⟩) (.zeros .double .cuda [1, 1])
    (.zeros .double .cuda [1]) 1 (.fresh Int)).1.prestagedEntry = none := rfl
  have hleads : ∀ t ∈ inputs, ∃ n, Leads t n ∧ 1 ∣ n := fun t ht => by
    obtain ⟨n, hn, _⟩ := (requestCount_ok hr).1 t ht
    exact ⟨n, hn, one_dvd n⟩
  have hfits : ∀ b ∈ reached (.fresh Int) chance.capture [2, 4], b = ((1 : Nat) : Int) ∨
      RowsFit chance.alloc 1 b (.zeros .double .cuda [1, 1] : Tensor Int) (.zeros .double .cuda [1]) := by
    intro b hb
    have hlarge : b ≤ 4 := by
      rcases List.mem_cons.mp hb with rfl | hb
      · decide
      · rw [List.mem_singleton.mp hb]
    have hmax : int64Max = 9223372036854775807 := rfl
    refine .inr ⟨fun _ _ => rfl, by omega, fun t ht => ⟨1, ?_, by omega⟩⟩
    rcases List.mem_cons.mp ht with rfl | ht
    · exact ⟨[1], rfl⟩
    · rw [List.mem_singleton.mp ht]
      exact ⟨[], rfl⟩
  have hfirst : SelectsFirst _ _ chance _ _ _ _ _ (some 4) [2] ran :=
    (executeWithCudaGraph_firstFit (List.cons_ne_nil 2 [4]) hr le_rfl hleads hnone []).1 hfits
  refine ⟨hfirst.selects, ?_, hfirst.cached 4 rfl⟩
  rw [hfirst.failed]
  decide

/-- Two requests at a bucket of 2^62: the rows of the first tensor wrap around to a negative size. -/
theorem firstFit_wraps :
    ¬ ∀ (cfg : GraphConfig) (forward : List (Tensor Int) → List (Tensor Int)) (chance : Chance)
      (t0 t1 t2 : Tensor Int) (s : GraphState Int) (r : Nat) (outputs : List (Tensor Int)),
      cfg.cudaGraphBatchSizes.sizes ≠ [] → requestCount t0 t1 t2 = .ok r → 1 ≤ r →
      (∀ t ∈ [t0, t1, t2], ∃ n, Leads t n ∧ r ∣ n) →
      (checkWarmupWidths cfg t0 t1 r s).1.prestagedEntry = none →
      let mid := (checkWarmupWidths cfg t0 t1 r s).1
      let candidates := mid.healthy (cfg.cudaGraphBatchSizes.lowerBound r)
      let qualifies := mid.qualifies chance.capture
      SelectsFirst cfg forward chance [t0, t1, t2] r s mid outputs (candidates.find? qualifies)
        (candidates.takeWhile fun b => !qualifies b)
        (executeWithCudaGraph cfg forward chance [t0, t1, t2] s outputs) := by
  intro h
  have hfirst := h (graphsAt (oneBucket 4611686018427387904)) id .smooth (.zeros .double .cuda [4, 1])
    (.zeros .double .cuda [4]) (.zeros .int .cuda [2]) (.fresh Int) 2 [] (List.cons_ne_nil _ _) rfl (by decide)
    (by
      intro t ht
      rcases List.mem_cons.mp ht with rfl | ht
      · exact ⟨4, ⟨[1], rfl⟩, by decide⟩
      · rcases List.mem_cons.mp ht with rfl | ht
        · exact ⟨4, ⟨[], rfl⟩, by decide⟩
        · rw [List.mem_singleton.mp ht]
          exact ⟨2, ⟨[], rfl⟩, by decide⟩) rfl
  have hselects := hfirst.selects
  have hthrows : attempted (graphsAt (oneBucket 4611686018427387904)) id .smooth [.zeros .double .cuda [4, 1],
    .zeros .double .cuda [4], .zeros .int .cuda [2]] (.fresh Int) = none := rfl
  rw [hthrows] at hselects
  revert hselects
  decide

end TritonAot
