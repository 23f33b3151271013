import TritonAot.Graph.FirstFit

/-! What a call raises, and where it falls back instead.

A replay catches what it throws, so a call raises only what bringing the batch to a
candidate raises (`Unfit`, `executeWithCudaGraph_unfit`, `executeWithCudaGraph_fits`):
outside the handlers of the capture and of the replay `PadRequestsUp` throws where a
padded tensor cannot be made or has no room for the rows it is to hold, and divides by
the request count. -/
namespace TritonAot

variable {E : Type} [Scalars E]

/-! ### A replay raises nothing -/

theorem copyOne_thrown {o : Option String} {st src : Tensor E} {f : Fault}
    (h : (do raise o; st.copy_ src) = .error f) : ∃ what, f = .thrown what := by
  cases o with
  | some what =>
    cases h
    exact ⟨what, rfl⟩
  | none =>
    change st.copy_ src = .error f at h
    unfold Tensor.copy_ at h
    split at h
    · cases h
    · cases h
      exact ⟨_, rfl⟩

/-- The copies throw, or run past the static inputs where these are fewer. -/
theorem copyInputs_fault {fault : Nat → Option String} {i : Nat} {statics srcs statics' : List (Tensor E)}
    {f : Fault} (h : copyInputs fault i statics srcs = (.error f, statics')) :
    (∃ what, f = .thrown what) ∨ f = .undefined ∧ statics.length < srcs.length := by
  induction srcs generalizing i statics statics' with
  | nil =>
    rw [copyInputs_nil] at h
    cases h
  | cons src rest ih =>
    cases statics with
    | nil =>
      cases h
      exact .inr ⟨rfl, Nat.succ_pos _⟩
    | cons st statics =>
      rw [copyInputs] at h
      split at h
      · rename_i hone
        cases h
        exact .inl (copyOne_thrown hone)
      · cases hrest : copyInputs fault (i + 1) statics rest with
        | mk result t =>
          rw [hrest] at h
          cases h
          exact (ih hrest).imp id fun hshort => ⟨hshort.1, Nat.succ_lt_succ hshort.2⟩

/-- A replay returns, unless its entry is gone or has fewer static inputs than are copied. -/
theorem replay_answers (forward : List (Tensor E) → List (Tensor E)) (chance : Chance) (a : Attempt E)
    (outputs : List (Tensor E)) :
    (∃ ok, (a.replay forward chance outputs).value = .ok ok) ∨
      (a.replay forward chance outputs).value = .error .undefined ∧
        ∀ e, a.state.cudaGraphCache.lookup a.key = some e → e.staticInputs.length < (a.copyFrom.getD []).length := by
  by_cases hlaunched : ∃ e statics, Launched chance a e statics
  · obtain ⟨e, statics, hl⟩ := hlaunched
    by_cases hall : SlicesAll chance a.r a.bucket 0 (forward statics) ∧ chance.restore = none
    · exact .inl ⟨true, (hl.replay_all hall.1 hall.2 outputs).1⟩
    · exact .inl ⟨false, (hl.replay_not_all hall outputs).1⟩
  · unfold Attempt.replay replayCudaGraphEntry
    cases he : a.state.cudaGraphCache.lookup a.key with
    | none => exact .inr ⟨rfl, fun e h => (by cases h)⟩
    | some e =>
      cases hs : chance.stream with
      | some what => exact .inl ⟨false, rfl⟩
      | none =>
        simp only [raise]
        cases hc : copyInputs chance.copy 0 e.staticInputs (a.copyFrom.getD []) with
        | mk result statics =>
          cases result with
          | error f =>
            rcases copyInputs_fault hc with ⟨what, rfl⟩ | ⟨rfl, hlt⟩
            · exact .inl ⟨false, rfl⟩
            · refine .inr ⟨rfl, fun e' he' => ?_⟩
              cases he'
              exact hlt
          | ok done =>
            cases hl : chance.launch with
            | some what => exact .inl ⟨false, rfl⟩
            | none => exact absurd ⟨e, statics, he, hs, hc, hl⟩ hlaunched

/-! ### What a call raises -/

section Call
variable {cfg : GraphConfig} {forward : List (Tensor E) → List (Tensor E)} {chance : Chance}
  {t0 t1 t2 : Tensor E} {s : GraphState E} {r : Nat}

/-- The batch cannot be brought to a candidate that the selection reaches. -/
structure Unfit (cfg : GraphConfig) (chance : Chance) (inputs : List (Tensor E)) (r : Nat)
    (s : GraphState E) : Prop where
  slow : s.prestagedEntry = none
  sizes : cfg.cudaGraphBatchSizes.sizes ≠ []
  raises : ∃ b ∈ reached s chance.capture (cfg.cudaGraphBatchSizes.lowerBound r), ∃ fault,
    atCandidate (padRequestsUp chance.alloc inputs r) inputs r b = .error fault

variable (forward) in
/-- A call raises what bringing the batch to a candidate raises. -/
theorem executeWithCudaGraph_unfit (hr : requestCount t0 t1 t2 = .ok r)
    (h : Unfit cfg chance [t0, t1, t2] r (checkWarmupWidths cfg t0 t1 r s).1)
    (outputs : List (Tensor E)) :
    ∃ b ∈ reached (checkWarmupWidths cfg t0 t1 r s).1 chance.capture (cfg.cudaGraphBatchSizes.lowerBound r),
      ∃ fault, atCandidate (padRequestsUp chance.alloc [t0, t1, t2] r) [t0, t1, t2] r b = .error fault ∧
        attempted cfg forward chance [t0, t1, t2] s = none ∧
        (executeWithCudaGraph cfg forward chance [t0, t1, t2] s outputs).value = .error fault := by
  have hnodup : (cfg.cudaGraphBatchSizes.lowerBound r).Nodup :=
    (cfg.cudaGraphBatchSizes.ascending_lowerBound r).imp fun h => h.ne
  obtain ⟨front, b, fault, s', events, hfrom, hstop⟩ := selectFrom_unfit forward hnodup h.raises
  have hsel : selectBucket cfg.cudaGraphBatchSizes forward chance.capture (padRequestsUp chance.alloc [t0, t1, t2] r)
      [t0, t1, t2] r (checkWarmupWidths cfg t0 t1 r s).1 = (.error fault, s', events) := by
    rw [selectBucket, if_neg (by simpa using h.sizes)]
    exact hfrom
  obtain ⟨hattempt, hrun⟩ := slow_error hr h.slow hsel outputs
  exact ⟨b, hstop.reached.subset (by simp), fault, hstop.raises, hattempt, by rw [hrun]⟩

variable (forward) in
theorem selectBucket_fits {inputs : List (Tensor E)} (hnone : s.prestagedEntry = none)
    (h : ¬ Unfit cfg chance inputs r s) :
    ∃ selected s' events, selectBucket cfg.cudaGraphBatchSizes forward chance.capture (padRequestsUp chance.alloc inputs r)
      inputs r s = (.ok selected, s', events) := by
  by_cases hsizes : cfg.cudaGraphBatchSizes.sizes = []
  · rw [selectBucket, if_pos (by simpa using hsizes)]
    split
    · exact ⟨_, _, _, rfl⟩
    · split
      · exact ⟨_, _, _, rfl⟩
      · simp only
        split <;> exact ⟨_, _, _, rfl⟩
  · rw [selectBucket, if_neg (by simpa using hsizes)]
    have hnodup : (cfg.cudaGraphBatchSizes.lowerBound r).Nodup :=
      (cfg.cudaGraphBatchSizes.ascending_lowerBound r).imp fun h => h.ne
    have hat : ∀ b ∈ reached s chance.capture (cfg.cudaGraphBatchSizes.lowerBound r),
        ∃ at_, atCandidate (padRequestsUp chance.alloc inputs r) inputs r b = .ok at_ := fun b hb => by
      cases hat : atCandidate (padRequestsUp chance.alloc inputs r) inputs r b with
      | ok at_ => exact ⟨at_, rfl⟩
      | error fault => exact absurd ⟨hnone, hsizes, b, hb, fault, hat⟩ h
    obtain ⟨selected, s', events, hfrom, _⟩ := selectFrom_fit forward hnodup hat
    exact ⟨selected, s', events, hfrom⟩

variable (forward) in
/-- Any other call falls back, or returns what a replay returns. -/
theorem executeWithCudaGraph_fits (hr : requestCount t0 t1 t2 = .ok r)
    (h : ¬ Unfit cfg chance [t0, t1, t2] r (checkWarmupWidths cfg t0 t1 r s).1)
    (outputs : List (Tensor E)) :
    (executeWithCudaGraph cfg forward chance [t0, t1, t2] s outputs).value = .ok false ∨
      ∃ a, attempted cfg forward chance [t0, t1, t2] s = some a ∧
        (executeWithCudaGraph cfg forward chance [t0, t1, t2] s outputs).value =
          (a.replay forward chance outputs).value := by
  cases hattempt : attempted cfg forward chance [t0, t1, t2] s with
  | some a =>
    obtain ⟨_, _, hrun⟩ := executeWithCudaGraph_some hattempt outputs
    exact .inr ⟨a, rfl, by rw [hrun]⟩
  | none =>
    have hnone : (checkWarmupWidths cfg t0 t1 r s).1.prestagedEntry = none := by
      cases hkey : (checkWarmupWidths cfg t0 t1 r s).1.prestagedEntry with
      | none => rfl
      | some key =>
        simp only [attempted, hr, attemptedFrom, hkey] at hattempt
        cases hattempt
    obtain ⟨selected, s', events, hsel⟩ := selectBucket_fits forward hnone h
    cases selected with
    | none =>
      rw [(slow_none hr hnone hsel outputs).2]
      exact .inl rfl
    | some selected =>
      rw [(slow_some hr hnone hsel outputs).1] at hattempt
      cases hattempt

variable (forward) in
theorem executeWithCudaGraph_caught (hr : requestCount t0 t1 t2 = .ok r)
    (h : ¬ Unfit cfg chance [t0, t1, t2] r (checkWarmupWidths cfg t0 t1 r s).1)
    (outputs : List (Tensor E)) :
    (∃ ok, (executeWithCudaGraph cfg forward chance [t0, t1, t2] s outputs).value = .ok ok) ∨
      (executeWithCudaGraph cfg forward chance [t0, t1, t2] s outputs).value = .error .undefined := by
  rcases executeWithCudaGraph_fits forward hr h outputs with hfalse | ⟨a, _, hvalue⟩
  · exact .inl ⟨false, hfalse⟩
  · rw [hvalue]
    exact (replay_answers forward chance a outputs).imp id And.left

/-- A batch of at least one request can be brought to every candidate that the selection reaches. -/
def Paddable (cfg : GraphConfig) (chance : Chance) (t0 t1 : Tensor E) (r : Nat) (s : GraphState E) : Prop :=
  s.prestagedEntry ≠ none ∨ cfg.cudaGraphBatchSizes.sizes = [] ∨
    ∀ b ∈ reached s chance.capture (cfg.cudaGraphBatchSizes.lowerBound r), b = r ∨ Pads chance.alloc r b t0 t1

theorem paddable_iff (t2 : Tensor E) (hpos : 1 ≤ r) :
    Paddable cfg chance t0 t1 r s ↔ ¬ Unfit cfg chance [t0, t1, t2] r s := by
  constructor
  · intro hpad hunfit
    obtain ⟨b, hb, fault, hat⟩ := hunfit.raises
    rcases hpad with hkey | hempty | hpads
    · exact hkey hunfit.slow
    · exact hunfit.sizes hempty
    · rcases atCandidate_cases t2 hpos (reached_bounds hb).1 with ⟨_, at_, hat'⟩ | ⟨hno, _⟩
      · rw [hat] at hat'
        cases hat'
      · exact hno (hpads b hb)
  · intro hfits
    by_cases hnone : s.prestagedEntry = none
    · by_cases hsizes : cfg.cudaGraphBatchSizes.sizes = []
      · exact .inr (.inl hsizes)
      · refine .inr (.inr fun b hb => ?_)
        rcases atCandidate_cases t2 hpos (reached_bounds hb).1 with ⟨hyes, _⟩ | ⟨_, fault, _, hat⟩
        · exact hyes
        · exact absurd ⟨hnone, hsizes, b, hb, fault, hat⟩ hfits
    · exact .inl hnone

/-- The batch is paddable for the cache and the negative cache as the width check leaves them. -/
structure PaddableChecked (cfg : GraphConfig) (chance : Chance) (t0 t1 : Tensor E) (r : Nat) (s : GraphState E) :
    Prop where
  evicted : Evicts cfg t0 t1 r s → Paddable cfg chance t0 t1 r s.evicted
  kept : ¬ Evicts cfg t0 t1 r s → Paddable cfg chance t0 t1 r s

theorem paddableChecked_iff : PaddableChecked cfg chance t0 t1 r s ↔
    Paddable cfg chance t0 t1 r (checkWarmupWidths cfg t0 t1 r s).1 := by
  by_cases hevicts : Evicts cfg t0 t1 r s
  · rw [checkWarmupWidths_evicts hevicts]
    exact ⟨fun h => h.evicted hevicts, fun h => ⟨fun _ => h, fun hno => absurd hevicts hno⟩⟩
  · rw [checkWarmupWidths_keeps hevicts]
    exact ⟨fun h => h.kept hevicts, fun h => ⟨fun hyes => absurd hyes hevicts, fun _ => h⟩⟩

/-- Every entry has three static inputs, and what is prestaged is cached. -/
structure Triples (s : GraphState E) : Prop where
  statics : ∀ key e, s.cudaGraphCache.lookup key = some e → e.staticInputs.length = 3
  prestaged : ∀ key, s.prestagedEntry = some key → ∃ e, s.cudaGraphCache.lookup key = some e

/-- The tensors copied into an entry are three, as its static inputs are. -/
theorem Triples.attempted (h : Triples s) {a : Attempt E}
    (ha : attempted cfg forward chance [t0, t1, t2] s = some a) :
    ∃ e, a.state.cudaGraphCache.lookup a.key = some e ∧ e.staticInputs.length = 3 ∧
      (a.copyFrom.getD []).length ≤ 3 := by
  have hthree : ∀ at_, a.copyFrom = some at_ → at_.length = 3 := fun at_ hat => by
    obtain ⟨_, _, _, _, heq, _, _, _, _, hcand⟩ := attempted_slow ha hat
    rw [heq] at hcand
    split at hcand
    · cases hcand
      rfl
    · obtain ⟨_, _, _, _, rfl, _⟩ := padRequestsUp_three hcand
      rfl
  cases attempted_prepared ha with
  | prestaged hkey _ hcopy hcache =>
    obtain ⟨e, he⟩ := h.prestaged _ hkey
    rw [hcopy, hcache]
    exact ⟨e, he, h.statics _ e he, Nat.zero_le _⟩
  | found hcopy _ _ hcache he =>
    rw [hcache, hcopy]
    exact ⟨_, he, h.statics _ _ he, (hthree _ hcopy).le⟩
  | captured hcopy _ _ hfresh hcache =>
    rw [hcache, hcopy]
    exact ⟨_, lookup_emplace_self hfresh _, hthree _ hcopy, (hthree _ hcopy).le⟩

/-- **When no exception escapes**: exactly where the batch can be padded to the candidates
that the selection reaches. The call then falls back or comes to a replay, and returns
true or false if the cache is in order. -/
theorem executeWithCudaGraph_returns_iff (hr : requestCount t0 t1 t2 = .ok r) (hpos : 1 ≤ r)
    (outputs : List (Tensor E)) :
    (((executeWithCudaGraph cfg forward chance [t0, t1, t2] s outputs).value = .ok false ∨
          ∃ a, attempted cfg forward chance [t0, t1, t2] s = some a) ↔
        PaddableChecked cfg chance t0 t1 r s) ∧
      (Triples s → ((∃ ok, (executeWithCudaGraph cfg forward chance [t0, t1, t2] s outputs).value = .ok ok) ↔
        PaddableChecked cfg chance t0 t1 r s)) := by
  rw [paddableChecked_iff, paddable_iff t2 hpos]
  by_cases hunfit : Unfit cfg chance [t0, t1, t2] r (checkWarmupWidths cfg t0 t1 r s).1
  · obtain ⟨b, _, fault, _, hattempt, hvalue⟩ := executeWithCudaGraph_unfit forward hr hunfit outputs
    rw [hattempt, hvalue]
    refine ⟨⟨?_, fun h => absurd hunfit h⟩, fun _ => ⟨?_, fun h => absurd hunfit h⟩⟩
    · rintro (h | ⟨a, ha⟩)
      · cases h
      · cases ha
    · rintro ⟨ok, hok⟩
      cases hok
  · have hthen := executeWithCudaGraph_fits forward hr hunfit outputs
    refine ⟨⟨fun _ => hunfit, fun _ => hthen.imp id fun ⟨a, ha, _⟩ => ⟨a, ha⟩⟩,
      fun hs => ⟨fun _ => hunfit, fun _ => ?_⟩⟩
    rcases hthen with hfalse | ⟨a, ha, hvalue⟩
    · exact ⟨false, hfalse⟩
    · rw [hvalue]
      rcases replay_answers forward chance a outputs with hok | ⟨_, hfewer⟩
      · exact hok
      · obtain ⟨e, he, hlen, hle⟩ := hs.attempted ha
        have := hfewer e he
        omega

/-! ### Dividing by the request count -/

/-- The batch has an input without rows, and the selection pads it to a bucket other than zero. -/
structure DividesByZero (cfg : GraphConfig) (chance : Chance) (inputs : List (Tensor E))
    (s : GraphState E) : Prop where
  empty : ∃ t0 t1 t2, inputs = [t0, t1, t2] ∧ requestCount t0 t1 t2 = .ok 0
  slow : s.prestagedEntry = none
  reaches : ∃ b ∈ reached s chance.capture (cfg.cudaGraphBatchSizes.lowerBound 0), b ≠ 0

/-- Without a request the batch is brought to a bucket of zero only. -/
theorem atCandidate_zero (alloc : Int → Nat → Option String) (t0 t1 t2 : Tensor E) (b : Int) :
    (b = 0 ∧ atCandidate (padRequestsUp alloc [t0, t1, t2] 0) [t0, t1, t2] ((0 : Nat) : Int) b = .ok [t0, t1, t2]) ∨
      b ≠ 0 ∧ atCandidate (padRequestsUp alloc [t0, t1, t2] 0) [t0, t1, t2] ((0 : Nat) : Int) b = .error .sigfpe := by
  by_cases hb : b = 0
  · exact .inl ⟨hb, if_pos hb⟩
  · exact .inr ⟨hb, if_neg hb⟩

theorem unfit_zero : Unfit cfg chance [t0, t1, t2] 0 s ↔
    s.prestagedEntry = none ∧ ∃ b ∈ reached s chance.capture (cfg.cudaGraphBatchSizes.lowerBound 0), b ≠ 0 := by
  constructor
  · intro hparts
    obtain ⟨hnone, _, b, hb, fault, hat⟩ := hparts
    refine ⟨hnone, b, hb, ?_⟩
    rcases atCandidate_zero chance.alloc t0 t1 t2 b with ⟨_, hok⟩ | ⟨hne, _⟩
    · rw [hat] at hok
      cases hok
    · exact hne
  · intro hparts
    obtain ⟨hnone, b, hb, hne⟩ := hparts
    refine ⟨hnone, fun hsizes => ?_, b, hb, .sigfpe, if_neg hne⟩
    have hmem := (mem_healthy.mp ((reached_front _ _ _).subset hb)).1
    rw [BatchSizes.mem_lowerBound, hsizes] at hmem
    cases hmem.1

theorem requestCount_error {f : Fault} (h : requestCount t0 t1 t2 = .error f) : f = .thrown "size" := by
  have hsize : ∀ (t : Tensor E) (g : Fault), t.size0 = .error g → g = .thrown "size" := fun t g hg => by
    unfold Tensor.size0 at hg
    split at hg
    · cases hg
      rfl
    · cases hg
  unfold requestCount at h
  cases h0 : t0.size0 with
  | error g =>
    rw [h0] at h
    cases h
    exact hsize t0 _ h0
  | ok n0 =>
    cases h1 : t1.size0 with
    | error g =>
      rw [h0, h1] at h
      cases h
      exact hsize t1 _ h1
    | ok n1 =>
      cases h2 : t2.size0 with
      | error g =>
        rw [h0, h1, h2] at h
        cases h
        exact hsize t2 _ h2
      | ok n2 =>
        rw [h0, h1, h2] at h
        cases h

variable (forward) in
/-- Where there is a request, nothing is divided by zero. -/
theorem executeWithCudaGraph_pos (hr : requestCount t0 t1 t2 = .ok r) (hpos : 1 ≤ r)
    (outputs : List (Tensor E)) :
    (executeWithCudaGraph cfg forward chance [t0, t1, t2] s outputs).value ≠ .error .sigfpe := by
  by_cases hunfit : Unfit cfg chance [t0, t1, t2] r (checkWarmupWidths cfg t0 t1 r s).1
  · obtain ⟨b, hb, fault, hat, _, hvalue⟩ := executeWithCudaGraph_unfit forward hr hunfit outputs
    rw [hvalue]
    rcases atCandidate_cases t2 hpos (reached_bounds hb).1 with ⟨_, _, hok⟩ | ⟨_, fault', hne, hat'⟩
    · rw [hat] at hok
      cases hok
    · rw [hat] at hat'
      cases hat'
      simpa using hne
  · rcases executeWithCudaGraph_caught forward hr hunfit outputs with ⟨ok, hok⟩ | hundefined
    · rw [hok]
      exact nofun
    · rw [hundefined]
      exact nofun

variable (forward) in
/-- Where there is none, whatever the call raises is the division. -/
theorem executeWithCudaGraph_zero (hr : requestCount t0 t1 t2 = .ok 0) (outputs : List (Tensor E)) :
    (executeWithCudaGraph cfg forward chance [t0, t1, t2] s outputs).value = .error .sigfpe ↔
      Unfit cfg chance [t0, t1, t2] 0 (checkWarmupWidths cfg t0 t1 0 s).1 := by
  constructor
  · intro hvalue
    by_contra hfits
    rcases executeWithCudaGraph_caught forward hr hfits outputs with ⟨ok, hok⟩ | hundefined
    · rw [hok] at hvalue
      cases hvalue
    · rw [hundefined] at hvalue
      cases hvalue
  · intro h
    obtain ⟨b, _, fault, hat, _, hvalue⟩ := executeWithCudaGraph_unfit forward hr h outputs
    rw [hvalue]
    rcases atCandidate_zero chance.alloc t0 t1 t2 b with ⟨_, hok⟩ | ⟨_, hsigfpe⟩
    · rw [hat] at hok
      cases hok
    · rw [hat] at hsigfpe
      exact congrArg Except.error (Except.error.inj hsigfpe)

variable (forward) in
/-- **When `ExecuteWithCudaGraph` divides by zero.** -/
theorem executeWithCudaGraph_sigfpe_iff {inputs : List (Tensor E)} (outputs : List (Tensor E)) :
    (executeWithCudaGraph cfg forward chance inputs s outputs).value = .error .sigfpe ↔
      DividesByZero cfg chance inputs s := by
  by_cases hthree : ∃ t0 t1 t2, inputs = [t0, t1, t2]
  · obtain ⟨t0, t1, t2, rfl⟩ := hthree
    have hcount : DividesByZero cfg chance [t0, t1, t2] s → requestCount t0 t1 t2 = .ok 0 := by
      intro hparts
      obtain ⟨⟨_, _, _, heq, hzero⟩, _, _⟩ := hparts
      cases heq
      exact hzero
    cases hr : requestCount t0 t1 t2 with
    | error f =>
      have hvalue : (executeWithCudaGraph cfg forward chance [t0, t1, t2] s outputs).value = .error f := by
        simp only [executeWithCudaGraph, hr]
      rw [hvalue, requestCount_error hr]
      refine ⟨fun h => (by cases h), fun h => ?_⟩
      rw [hcount h] at hr
      cases hr
    | ok r =>
      by_cases hpos : 1 ≤ r
      · refine ⟨fun hvalue => absurd hvalue (executeWithCudaGraph_pos forward hr hpos outputs), fun h => ?_⟩
        rw [hcount h] at hr
        cases hr
        exact absurd hpos (Nat.lt_irrefl 0)
      · obtain rfl : r = 0 := by omega
        have hmid : (checkWarmupWidths cfg t0 t1 0 s).1 = {s with warmupWidthsChecked := true} :=
          congrArg Prod.fst (checkWarmupWidths_keeps fun h => absurd h.pos (Nat.lt_irrefl 0))
        rw [executeWithCudaGraph_zero forward hr, hmid, unfit_zero]
        exact ⟨fun h => ⟨⟨t0, t1, t2, rfl, hr⟩, h.1, h.2⟩, fun h => ⟨h.slow, h.reaches⟩⟩
  · have heager := (executeWithCudaGraph_arity cfg forward chance inputs s outputs).resolve_left hthree
    rw [heager]
    refine ⟨fun h => (by cases h), fun h => absurd ?_ hthree⟩
    obtain ⟨t0, t1, t2, heq, _⟩ := h.empty
    exact ⟨t0, t1, t2, heq⟩

end Call

theorem triples_fresh : Triples (GraphState.fresh E) where
  statics key e he := by
    rw [GraphState.fresh, AList.lookup_empty] at he
    cases he
  prestaged key hkey := by cases hkey

/-- Six elements of three requests have room in a bucket of four. -/
theorem executeWithCudaGraph_returns_six :
    ∃ ok, (executeWithCudaGraph (graphsAt (oneBucket 4)) id .smooth
      [.zeros .double .cuda [3, 1], .zeros .double .cuda [6], .zeros .int .cuda [3]]
      (.fresh Int) []).value = .ok ok := by
  have hr : requestCount (.zeros .double .cuda [3, 1] : Tensor Int) (.zeros .double .cuda [6])
    (.zeros .int .cuda [3]) = .ok 3 := rfl
  refine ((executeWithCudaGraph_returns_iff hr (by decide) []).2 triples_fresh).mpr
    ⟨fun h => absurd h.configured.1 (by decide), fun _ => .inr (.inr fun b hb => .inr ?_)⟩
  obtain rfl : b = 4 := List.mem_singleton.mp hb
  exact ⟨⟨rfl, 3, ⟨[1], rfl⟩, by decide, by decide⟩, ⟨rfl, 6, ⟨[], rfl⟩, by decide, by decide⟩, rfl, by decide⟩

/-- Five do not: padded they would be four. -/
theorem executeWithCudaGraph_throws : ¬ ∀ (cfg : GraphConfig) (forward : List (Tensor Int) → List (Tensor Int))
    (chance : Chance) (t0 t1 t2 : Tensor Int) (s : GraphState Int) (r : Nat) (outputs : List (Tensor Int)),
    requestCount t0 t1 t2 = .ok r → 1 ≤ r → Triples s →
      ∃ ok, (executeWithCudaGraph cfg forward chance [t0, t1, t2] s outputs).value = .ok ok := by
  intro h
  obtain ⟨ok, hok⟩ := h (graphsAt (oneBucket 4)) id .smooth (.zeros .double .cuda [3, 1])
    (.zeros .double .cuda [5]) (.zeros .int .cuda [3]) (.fresh Int) 3 [] rfl (by decide) triples_fresh
  have hthrows : (executeWithCudaGraph (graphsAt (oneBucket 4)) id .smooth [.zeros .double .cuda [3, 1],
    .zeros .double .cuda [5], .zeros .int .cuda [3]] (.fresh Int) []).value = .error (.thrown "narrow") := rfl
  rw [hthrows] at hok
  cases hok

end TritonAot
