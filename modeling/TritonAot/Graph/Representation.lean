import TritonAot.Graph.Entries
import TritonAot.Graph.Keys

/-! What the cache and the failed set hold.

Every entry is a batch of its bucket: three static inputs, the shortest with a row
for each request (`Bucketed`). A capture at the batch's own size has that by the
definition of the request count, a padded one by the arithmetic of `PadRequestsUp`,
the warmup's by its widths, and nothing changes the shape of a static input. With an
allowlist only its buckets are captured (`CapturesIn`), so no other key is ever in
the cache or the failed set. -/
namespace TritonAot

open Attempts Steps

variable {E : Type} [Scalars E]

/-! ### Static inputs of a bucket -/

/-- Three static inputs whose smallest leading dimension is the bucket. -/
structure Bucketed (b : Int) (statics : List (Tensor E)) : Prop where
  three : statics.length = 3
  le : ∀ t ∈ statics, ∃ n : Nat, Leads t n ∧ b ≤ n
  least : ∃ t ∈ statics, ∃ n : Nat, Leads t n ∧ b = n

theorem Leads.of_shape {s t : Tensor E} {n : Nat} (h : Leads t n) (hs : s.shape = t.shape) : Leads s n := by
  obtain ⟨rest, ht⟩ := h
  exact ⟨rest, hs.trans ht⟩

theorem Bucketed.of_shapes {b : Int} {statics statics' : List (Tensor E)} (h : Bucketed b statics)
    (hs : List.Forall₂ (fun u st : Tensor E => u.shape = st.shape) statics' statics) :
    Bucketed b statics' := by
  refine ⟨hs.length_eq.trans h.three, fun u hu => ?_, ?_⟩
  · obtain ⟨i, hi⟩ := List.mem_iff_getElem?.mp hu
    obtain ⟨hlt, rfl⟩ := List.getElem?_eq_some_iff.mp hi
    have hlt' : i < statics.length := hs.length_eq ▸ hlt
    obtain ⟨n, hn, hle⟩ := h.le _ (List.getElem_mem hlt')
    exact ⟨n, hn.of_shape (hs.get hlt hlt'), hle⟩
  · obtain ⟨t, ht, n, hn, hb⟩ := h.least
    obtain ⟨i, hi⟩ := List.mem_iff_getElem?.mp ht
    obtain ⟨hlt, rfl⟩ := List.getElem?_eq_some_iff.mp hi
    have hlt' : i < statics'.length := hs.length_eq ▸ hlt
    exact ⟨_, List.getElem_mem hlt', n, hn.of_shape (hs.get hlt' hlt), hb⟩

/-- A batch at its own size. -/
theorem bucketed_exact {t0 t1 t2 : Tensor E} {r : Nat} (h : requestCount t0 t1 t2 = .ok r) :
    Bucketed r [t0, t1, t2] := by
  obtain ⟨hle, t, ht, hleast⟩ := requestCount_ok h
  refine ⟨rfl, fun t ht => ?_, t, ht, r, hleast, rfl⟩
  obtain ⟨n, hn, hr⟩ := hle t ht
  exact ⟨n, hn, by exact_mod_cast hr⟩

/-- What `PadRequestsUp` makes of a tensor other than input 2 holds the bucket. -/
theorem padTensor_leads {alloc : Int → Nat → Option String} {per r b i n : Nat} {t p : Tensor E} (hi : i ≠ 2)
    (hr : r ≠ 0) (ht : Leads t n)
    (hle : r ≤ n) (h : padTensor alloc per r (b : Int) i t = .ok p) : ∃ m, Leads p m ∧ b ≤ m := by
  obtain ⟨rest, hs⟩ := ht
  obtain ⟨_, rest', _, hp, _⟩ := (padTensor_ok hi hs h).shape
  have hone : 1 ≤ n / r := Nat.div_pos hle (Nat.pos_of_ne_zero hr)
  exact ⟨_, ⟨rest', hp⟩, Nat.le_mul_of_pos_left b hone⟩

/-- A batch padded to a bucket. -/
theorem bucketed_padded {alloc : Int → Nat → Option String} {t0 t1 t2 : Tensor E} {r : Nat} {b : Int}
    {out : List (Tensor E)} (hr : requestCount t0 t1 t2 = .ok r) (hb : 0 ≤ b)
    (h : padRequestsUp alloc [t0, t1, t2] r b = .ok out) :
    Bucketed b out := by
  obtain ⟨n, rfl⟩ := Int.eq_ofNat_of_zero_le hb
  obtain ⟨hr0, p0, p1, p2, rfl, h0, h1, h2⟩ := padRequestsUp_three h
  obtain ⟨hle, _⟩ := requestCount_ok hr
  obtain ⟨n0, hl0, hle0⟩ := hle t0 (by simp)
  obtain ⟨n1, hl1, hle1⟩ := hle t1 (by simp)
  obtain ⟨m0, hm0, hb0⟩ := padTensor_leads (by decide) hr0 hl0 hle0 h0
  obtain ⟨m1, hm1, hb1⟩ := padTensor_leads (by decide) hr0 hl1 hle1 h1
  obtain rfl := padTensor_positions h2
  have hm2 : Leads (Tensor.positions t2.dtype t2.device (t1.numel / r) n : Tensor E) n := ⟨[], rfl⟩
  refine ⟨rfl, fun t ht => ?_, _, by simp, n, hm2, rfl⟩
  rcases List.mem_cons.mp ht with rfl | ht
  · exact ⟨m0, hm0, by exact_mod_cast hb0⟩
  · rcases List.mem_cons.mp ht with rfl | ht
    · exact ⟨m1, hm1, by exact_mod_cast hb1⟩
    · rw [List.mem_singleton.mp ht]
      exact ⟨n, hm2, Int.le_refl _⟩

/-- What the warmup captures a bucket on. -/
theorem bucketed_warmupInputs {b singleWidth multiWidth : Int} {inputs : List (Tensor E)}
    (hm : 0 < multiWidth) (h : warmupInputs b singleWidth multiWidth = .ok inputs) : Bucketed b inputs := by
  obtain ⟨n, rfl⟩ := Int.eq_ofNat_of_zero_le (warmupInputs_nonneg h)
  have hwide : n ≤ n * multiWidth.toNat := Nat.le_mul_of_pos_right n (by omega)
  rw [warmupInputs_ok hm.le h]
  refine ⟨rfl, fun t ht => ?_, _, List.mem_cons_self .., n, ⟨_, rfl⟩, rfl⟩
  rcases List.mem_cons.mp ht with rfl | ht
  · exact ⟨n, ⟨_, rfl⟩, Int.le_refl _⟩
  · rcases List.mem_cons.mp ht with rfl | ht
    · exact ⟨_, ⟨_, rfl⟩, by exact_mod_cast hwide⟩
    · rw [List.mem_singleton.mp ht]
      exact ⟨n, ⟨_, rfl⟩, Int.le_refl _⟩

/-- What is copied at a bucket is a batch of the bucket. -/
theorem bucketed_attempted {cfg : GraphConfig} {forward : List (Tensor E) → List (Tensor E)}
    {chance : Chance} {inputs : List (Tensor E)} {s : GraphState E} {a : Attempt E}
    {atBucket : List (Tensor E)} (h : attempted cfg forward chance inputs s = some a)
    (hat : a.copyFrom = some atBucket) : Bucketed a.bucket atBucket := by
  obtain ⟨t0, t1, t2, r, rfl, hr, _, hle, _, hpad⟩ := attempted_slow h hat
  split at hpad
  · rename_i hown
    rw [hown, ← Except.ok.inj hpad]
    exact bucketed_exact hr
  · exact bucketed_padded hr (by omega) hpad

/-- A call keeps the entries batches of their buckets, whatever tensors it is given. -/
theorem bucketed_executeWithCudaGraph {cfg : GraphConfig} {forward : List (Tensor E) → List (Tensor E)}
    {s : GraphState E} (hs : EntriesAt Bucketed s.cudaGraphCache) (chance : Chance)
    (inputs outputs : List (Tensor E)) :
    EntriesAt Bucketed (executeWithCudaGraph cfg forward chance inputs s outputs).state.cudaGraphCache := by
  refine hs.executeWithCudaGraph (fun a atBucket e ha hat _ hfrom => ?_) outputs
  have hstatics : Bucketed a.bucket e.staticInputs := by
    rcases hfrom with heq | ⟨_, _, hp⟩
    · rw [heq]
      exact bucketed_attempted ha hat
    · exact hp
  cases hc : copyInputs chance.copy 0 e.staticInputs atBucket with
  | mk result statics => exact ⟨hstatics, hstatics.of_shapes (copyInputs_each hc).1⟩

theorem bucketed_warmup (cfg : GraphConfig) (forward : List (Tensor E) → List (Tensor E))
    (capture : Int → Option Bool) :
    EntriesAt Bucketed (warmupCudaGraphs cfg forward capture (.fresh E)).1.cudaGraphCache := by
  unfold warmupCudaGraphs
  split
  · rename_i hon
    simp only [Bool.and_eq_true, decide_eq_true_eq] at hon
    exact (EntriesAt.empty Bucketed).warmupFrom fun b inputs => bucketed_warmupInputs hon.1.2
  · exact .empty _

/-! ### The buckets that are captured -/

/-- Only buckets of the list are captured. -/
def CapturesIn (sizes : List Int) (events : List (Event E)) : Prop :=
  ∀ bucket inputs captured, .capture bucket inputs captured ∈ events → bucket ∈ sizes

theorem CapturesIn.nil (sizes : List Int) : CapturesIn sizes ([] : List (Event E)) :=
  fun _ _ _ h => (by cases h)

theorem CapturesIn.append {sizes : List Int} {es fs : List (Event E)} (h : CapturesIn sizes es)
    (h' : CapturesIn sizes fs) : CapturesIn sizes (es ++ fs) :=
  fun b inputs captured hm => (List.mem_append.mp hm).elim (h b inputs captured) (h' b inputs captured)

theorem CapturesIn.cons {sizes : List Int} {bucket : Int} {inputs : List (Tensor E)} {captured : Bool}
    {es : List (Event E)} (hb : bucket ∈ sizes) (h : CapturesIn sizes es) :
    CapturesIn sizes (.capture bucket inputs captured :: es) := by
  intro b xs c hm
  rcases List.mem_cons.mp hm with he | hm
  · cases he
    exact hb
  · exact h b xs c hm

theorem Selects.capturesIn {sizes : List Int} {forward : List (Tensor E) → List (Tensor E)}
    {capture : Int → Bool} {pad : Int → Except Fault (List (Tensor E))} {inputs : List (Tensor E)} {r : Int}
    {cands : List Int} {s s' : GraphState E} {value : Except Fault (Option (Selected E))}
    {events : List (Event E)} (h : Selects forward capture pad inputs r cands s value s' events)
    (hin : ∀ c ∈ cands, c ∈ sizes) : CapturesIn sizes events := by
  induction h with
  | exhausted | fault | cached => exact .nil _
  | failed _ _ ih => exact ih fun c hc => hin c (List.mem_cons_of_mem _ hc)
  | captured => exact .cons (hin _ (List.mem_cons_self ..)) (.nil _)
  | missed _ _ _ _ _ ih =>
    exact .cons (hin _ (List.mem_cons_self ..)) (ih fun c hc => hin c (List.mem_cons_of_mem _ hc))

theorem capturesIn_replay (sizes : List Int) (forward : List (Tensor E) → List (Tensor E)) (chance : Chance)
    (a : Attempt E) (outputs : List (Tensor E)) :
    CapturesIn sizes (a.replay forward chance outputs).events := by
  rcases replay_reports forward chance a.key a.r a.bucket a.copyFrom a.state outputs with h | ⟨x, h⟩
  · rw [Attempt.replay, h]
    exact .nil _
  · rw [Attempt.replay, h]
    intro b xs c hm
    cases List.mem_singleton.mp hm

theorem capturesIn_checkWarmupWidths (sizes : List Int) (cfg : GraphConfig) (t0 t1 : Tensor E) (r : Nat)
    (s : GraphState E) : CapturesIn sizes (checkWarmupWidths cfg t0 t1 r s).2 := by
  rcases checkWarmupWidths_cases cfg t0 t1 r s with ⟨_, h⟩ | h
  · rw [h]
    intro b xs c hm
    cases List.mem_singleton.mp hm
  · rw [h]
    exact .nil _

theorem composes_capturesIn {cfg : GraphConfig} (hne : cfg.cudaGraphBatchSizes.sizes ≠ [])
    (forward : List (Tensor E) → List (Tensor E)) (chance : Chance) :
    Composes cfg forward chance fun _ events _ => CapturesIn cfg.cudaGraphBatchSizes.sizes events where
  idle _ _ _ _ := .nil _
  append := CapturesIn.append
  widths := capturesIn_checkWarmupWidths _ cfg
  selects h := h.capturesIn fun _ => mem_sizes_of_mem_candidates hne
  replays key r bucket copyFrom s outputs :=
    capturesIn_replay _ forward chance ⟨key, r, bucket, copyFrom, s⟩ outputs

theorem capturesIn_executeWithCudaGraph {cfg : GraphConfig} (hne : cfg.cudaGraphBatchSizes.sizes ≠ [])
    (forward : List (Tensor E) → List (Tensor E)) (chance : Chance) (inputs : List (Tensor E))
    (s : GraphState E) (outputs : List (Tensor E)) :
    CapturesIn cfg.cudaGraphBatchSizes.sizes
      (executeWithCudaGraph cfg forward chance inputs s outputs).events :=
  (composes_capturesIn hne forward chance).executeWithCudaGraph inputs s outputs

theorem capturesIn_warmup (cfg : GraphConfig) (forward : List (Tensor E) → List (Tensor E))
    (capture : Int → Option Bool) (s : GraphState E) :
    CapturesIn cfg.cudaGraphBatchSizes.sizes (warmupCudaGraphs cfg forward capture s).2 := by
  have hfrom : ∀ (buckets : List Int) (t : GraphState E), (∀ b ∈ buckets, b ∈ cfg.cudaGraphBatchSizes.sizes) →
      CapturesIn cfg.cudaGraphBatchSizes.sizes (warmupFrom forward capture cfg.cudaGraphWarmupSingleWidth
        cfg.cudaGraphWarmupMultiWidth buckets t).2 := by
    intro buckets t hin
    induction buckets generalizing t with
    | nil => exact .nil _
    | cons bucket rest ih =>
      have hrest := fun t => ih t fun b hb => hin b (List.mem_cons_of_mem _ hb)
      rw [warmupFrom]
      split
      · exact .cons (hin bucket (List.mem_cons_self ..)) (hrest _)
      · exact hrest t
  unfold warmupCudaGraphs
  split
  · exact hfrom _ s fun _ hb => hb
  · exact .nil _

/-! ### The keys that are held -/

/-- The keys of the buckets of a list. -/
def keysAt (sizes : List Int) : Finset String := (sizes.map bucketKey).toFinset

theorem mem_keysAt {sizes : List Int} {key : String} : key ∈ keysAt sizes ↔ ∃ b ∈ sizes, key = bucketKey b := by
  rw [keysAt, List.mem_toFinset, List.mem_map]
  exact ⟨fun ⟨b, hb, hk⟩ => ⟨b, hb, hk.symm⟩, fun ⟨b, hb, hk⟩ => ⟨b, hb, hk.symm⟩⟩

/-- Where only buckets of the list are captured, no other key comes in. -/
theorem Follows.within {s s' : GraphState E} {events : List (Event E)} {sizes : List Int}
    (h : Follows s events s') (hs : (keysOf s).Within (keysAt sizes)) (hin : CapturesIn sizes events) :
    (keysOf s').Within (keysAt sizes) := by
  refine run_within h hs fun op hop key hkey => ?_
  obtain ⟨event, hevent, hop⟩ := List.mem_filterMap.mp hop
  cases event with
  | capture bucket inputs captured =>
    cases hop
    cases hkey
    exact mem_keysAt.mpr ⟨bucket, hin bucket inputs captured hevent, rfl⟩
  | evict =>
    cases hop
    cases hkey
  | replay x => cases hop

end TritonAot
