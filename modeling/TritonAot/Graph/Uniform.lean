import TritonAot.Graph.Ends
import TritonAot.Graph.Fallback
import TritonAot.Graph.Refinement
import TritonAot.Lib.Slots

/-! Traffic of one width.

Where every request has a row of one width and equally many elements, the static
inputs of a bucket have the types and shapes that a padded batch has (`Sized`),
whichever batch they were captured on and whatever was copied into them since. A batch
that is copied into them, or was collected there, then stands in front of what they
hold (`Fronts`), and a call either appends what the eager run would or appends nothing
and falls back (`executeWithCudaGraph_sized`). -/
namespace TritonAot

open Packed

variable {E : Type} [Scalars E]

/-- The types of the three model inputs, the width of a request's row, and how many
elements of the second a request has. -/
structure Traffic where
  single : ScalarType
  multiple : ScalarType
  position : ScalarType
  width : Nat
  per : Nat

/-- A tensor of the given type and shape. -/
structure Formed (d : ScalarType) (shape : List Nat) (t : Tensor E) : Prop where
  dtype : t.dtype = d
  shape : t.shape = shape

/-- The three tensors of `b` requests. -/
inductive Sized (k : Traffic) (b : Nat) : List (Tensor E) → Prop where
  | mk {t0 t1 t2 : Tensor E} (single : Formed k.single [b, k.width] t0) (multiple : Formed k.multiple [b * k.per] t1)
      (position : Formed k.position [b] t2) (ends : HoldsCounts t2 (evenEnds k.per b)) : Sized k b [t0, t1, t2]

/-- Each tensor of the batch is the front of what a buffer holds. -/
abbrev Fronts (batch buffers : List (Tensor E)) : Prop :=
  List.Forall₂ (fun t u : Tensor E => t.data <+: u.data) batch buffers

theorem Formed.alike {d : ScalarType} {shape : List Nat} {s t : Tensor E} (hs : Formed d shape s)
    (ht : Formed d shape t) : Tensor.Alike s t :=
  ⟨hs.dtype.trans ht.dtype.symm, hs.shape.trans ht.shape.symm⟩

/-- A buffer that is copied over keeps its type and shape, and holds what was copied. -/
theorem Formed.copy {d : ScalarType} {shape : List Nat} {st p u : Tensor E} (hs : Formed d shape st)
    (hp : Formed d shape p) (h : st.copy_ p = .ok u) : Formed d shape u ∧ u.data = p.data := by
  obtain ⟨_, hd, _, hshape, _⟩ := Tensor.copy_ok h
  exact ⟨⟨hd.trans hs.dtype, hshape.trans hs.shape⟩, Tensor.copy_alike h (hp.alike hs)⟩

section Buffers
variable {k : Traffic} {b r : Nat}

theorem Sized.length {ts : List (Tensor E)} (h : Sized k b ts) : ts.length = 3 := by
  cases h
  rfl

theorem Sized.three {ts : List (Tensor E)} (h : Sized k b ts) : ∃ t0 t1 t2, ts = [t0, t1, t2] := by
  cases h
  exact ⟨_, _, _, rfl⟩

/-- A copy that stops early leaves each buffer as it was, or holding what was copied. -/
theorem copied_at {d : ScalarType} {shape : List Nat} {fault : Nat → Option String}
    {statics srcs statics' : List (Tensor E)} {result : Except Fault Unit}
    (h : copyInputs fault 0 statics srcs = (result, statics')) {j : Nat} {st p u : Tensor E}
    (hst : statics[j]? = some st) (hp : srcs[j]? = some p) (hu : statics'[j]? = some u)
    (hs : Formed d shape st) (hsrc : Formed d shape p) :
    Formed d shape u ∧ (u = st ∨ u.data = p.data) := by
  rcases (copyInputs_each h).2 j st hst with hsame | ⟨p', u', hp', hu', hcopy, _⟩
  · rw [hu] at hsame
    cases hsame
    exact ⟨hs, .inl rfl⟩
  · rw [hp] at hp'
    rw [hu] at hu'
    cases hp'
    cases hu'
    obtain ⟨hform, hdata⟩ := hs.copy hsrc hcopy
    exact ⟨hform, .inr hdata⟩

/-- Copies between tensors of `b` requests leave tensors of `b` requests, also where they
stop early. -/
theorem Sized.copied {statics srcs : List (Tensor E)} (hs : Sized k b statics) (hp : Sized k b srcs)
    (fault : Nat → Option String) : Sized k b (copyInputs fault 0 statics srcs).2 := by
  cases hcopy : copyInputs fault 0 statics srcs with
  | mk result statics' =>
    have hlen := (copyInputs_each hcopy).1.length_eq
    rw [hs.length] at hlen
    obtain ⟨u0, u1, u2, rfl⟩ := List.length_eq_three.mp hlen
    obtain ⟨hs0, hs1, hs2, hends⟩ := hs
    obtain ⟨hp0, hp1, hp2, hends'⟩ := hp
    obtain ⟨h0, _⟩ := copied_at hcopy (j := 0) rfl rfl rfl hs0 hp0
    obtain ⟨h1, _⟩ := copied_at hcopy (j := 1) rfl rfl rfl hs1 hp1
    obtain ⟨h2, hdata⟩ := copied_at hcopy (j := 2) rfl rfl rfl hs2 hp2
    refine .mk h0 h1 h2 ?_
    rcases hdata with rfl | hdata
    · exact hends
    · rw [HoldsCounts, hdata, hends', hp2.dtype, h2.dtype]

/-- Copies that all succeed leave what was copied. -/
theorem copied_ok_at {d : ScalarType} {shape : List Nat} {fault : Nat → Option String}
    {statics srcs statics' : List (Tensor E)} (h : copyInputs fault 0 statics srcs = (.ok (), statics'))
    {j : Nat} {st p u : Tensor E} (hst : statics[j]? = some st) (hp : srcs[j]? = some p)
    (hu : statics'[j]? = some u) (hs : Formed d shape st) (hsrc : Formed d shape p) : u.data = p.data := by
  obtain ⟨st', u', hst', hcopy, hu'⟩ := (copyInputs_ok h).2.2 j p hp
  rw [hst] at hst'
  rw [hu] at hu'
  cases hst'
  cases hu'
  exact (hs.copy hsrc hcopy).2

theorem Sized.copied_fronts {statics srcs statics' batch : List (Tensor E)} {fault : Nat → Option String}
    (hs : Sized k b statics) (hp : Sized k b srcs) (hfront : Fronts batch srcs)
    (h : copyInputs fault 0 statics srcs = (.ok (), statics')) : Fronts batch statics' := by
  obtain ⟨u0, u1, u2, rfl⟩ := List.length_eq_three.mp ((copyInputs_ok h).1.trans hs.length)
  obtain ⟨hs0, hs1, hs2, _⟩ := hs
  obtain ⟨hp0, hp1, hp2, _⟩ := hp
  obtain ⟨t0, _, h0, hrest, rfl⟩ := List.forall₂_cons_right_iff.mp hfront
  obtain ⟨t1, _, h1, hlast, rfl⟩ := List.forall₂_cons_right_iff.mp hrest
  obtain ⟨t2, _, h2, hnil, rfl⟩ := List.forall₂_cons_right_iff.mp hlast
  cases hnil
  rw [← copied_ok_at h (j := 0) rfl rfl rfl hs0 hp0] at h0
  rw [← copied_ok_at h (j := 1) rfl rfl rfl hs1 hp1] at h1
  rw [← copied_ok_at h (j := 2) rfl rfl rfl hs2 hp2] at h2
  exact .cons h0 (.cons h1 (.cons h2 .nil))

/-- The tensors of `r` requests are those of a packed batch, where the type of the positions
holds the counts. -/
theorem Sized.packedBatch {t0 t1 t2 : Tensor E} (h : Sized k r [t0, t1, t2]) (hr : 0 < r) (hper : 0 < k.per)
    (hexact : HoldsUpTo E k.position (r * k.per)) :
    PackedBatch (List.replicate r k.per) [k.width] t0 t1 t2 := by
  obtain ⟨h0, h1, h2, hends⟩ := h
  refine ⟨?_, ?_, ?_, ?_, ?_, ?_⟩
  · exact List.ne_nil_of_length_pos (by rwa [List.length_replicate])
  · intro c hc
    rw [List.eq_of_mem_replicate hc]
    exact hper
  · rw [h0.shape, List.length_replicate]
  · rw [h1.shape, List.sum_replicate_nat]
  · rw [h2.shape, List.length_replicate]
  · rw [hends, h2.dtype, ends_replicate]
    exact map_cast_asElements fun n hn => hexact n (le_of_mem_evenEnds hn)

theorem Sized.requestCount {t0 t1 t2 : Tensor E} (h : Sized k r [t0, t1, t2]) (hper : 0 < k.per) :
    requestCount t0 t1 t2 = .ok r := by
  obtain ⟨h0, h1, h2, _⟩ := h
  have hle : r ≤ r * k.per := Nat.le_mul_of_pos_right r hper
  refine bind_ok.mpr ⟨_, Tensor.size0_of_shape h0.shape, bind_ok.mpr ⟨_, Tensor.size0_of_shape h1.shape,
    bind_ok.mpr ⟨_, Tensor.size0_of_shape h2.shape, ?_⟩⟩⟩
  rw [Nat.min_eq_left hle, Nat.min_self]

/-- Padding that succeeds brings a batch to the bucket, and leaves it in front. -/
theorem Sized.atCandidate {alloc : Int → Nat → Option String} {t0 t1 t2 : Tensor E} {srcs : List (Tensor E)}
    (h : Sized k r [t0, t1, t2]) (hr : 0 < r) (hle : r ≤ b)
    (hat : atCandidate (padRequestsUp alloc [t0, t1, t2] r) [t0, t1, t2] (r : Int) (b : Int) = .ok srcs) :
    Sized k b srcs ∧ Fronts [t0, t1, t2] srcs := by
  by_cases hown : b = r
  · subst hown
    rw [TritonAot.atCandidate, if_pos rfl] at hat
    cases hat
    exact ⟨h, List.forall₂_same.mpr fun t _ => List.prefix_rfl⟩
  · obtain ⟨h0, h1, h2, hends⟩ := h
    rw [TritonAot.atCandidate, if_neg (by exact_mod_cast hown)] at hat
    obtain ⟨_, p0, p1, p2, rfl, hp0, hp1, hp2⟩ := padRequestsUp_three hat
    have hg0 := padTensor_ok (by decide) h0.shape hp0
    have hg1 := padTensor_ok (by decide) h1.shape hp1
    have hwidth : t1.numel / r = k.per := by
      rw [Tensor.numel, h1.shape, List.prod_singleton, Nat.mul_div_cancel_left k.per hr]
    obtain rfl := padTensor_positions hp2
    rw [hwidth]
    refine ⟨.mk ⟨hg0.dtype.trans h0.dtype, ?_⟩ ⟨hg1.dtype.trans h1.dtype, ?_⟩ ⟨h2.dtype, rfl⟩
      (holdsCounts_positions _ _ _ _), .cons hg0.front (.cons hg1.front (.cons ?_ .nil))⟩
    · obtain ⟨size, rest, hs, hp, _⟩ := hg0.shape
      rw [h0.shape] at hs
      cases hs
      rw [hp, Nat.div_self hr, Nat.one_mul]
    · obtain ⟨size, rest, hs, hp, _⟩ := hg1.shape
      rw [h1.shape] at hs
      cases hs
      rw [hp, Nat.mul_div_cancel_left k.per hr, Nat.mul_comm]
    · have htake := take_positions (E := E) t2.dtype t2.device (w := k.per) hle
      rw [← hends] at htake
      exact htake ▸ List.take_prefix ..

end Buffers

/-! ### One call -/

/-- A replay that throws behind its launch throws before it has appended anything. -/
structure Undivided (chance : Chance) : Prop where
  slice : ∀ i, 0 < i → chance.slice i = none
  restore : chance.restore = none

/-- Batches of the traffic can be padded to the buckets that are configured: int64s count the rows, and
the padded tensors can be allocated. -/
structure Affords (cfg : GraphConfig) (k : Traffic) (chance : Chance) : Prop where
  allocates : ∀ b ∈ cfg.cudaGraphBatchSizes.sizes, ∀ i < 3, chance.alloc b i = none
  rows : ∀ b ∈ cfg.cudaGraphBatchSizes.sizes, b < int64Max ∧ k.per * b ≤ int64Max

/-- The entry that is prestaged, if one is, holds the batch in front. -/
def StagedHolds (batch : List (Tensor E)) (r : Nat) (s : GraphState E) : Prop :=
  ∀ key, s.prestagedEntry = some key → ∃ (b : Nat) (e : CudaGraphEntry E), s.prestagedBucket = b ∧
    key = bucketKey b ∧ r ≤ b ∧ s.cudaGraphCache.lookup key = some e ∧ Fronts batch e.staticInputs

/-- A replay of `b` requests, on buffers that hold the batch in front or with such tensors
to copy. -/
structure Primed (k : Traffic) (batch : List (Tensor E)) (r b : Nat) (a : Attempt E) (e : CudaGraphEntry E) :
    Prop where
  count : a.r = r
  bucket : a.bucket = b
  le : r ≤ b
  entry : a.state.cudaGraphCache.lookup a.key = some e
  statics : Sized k b e.staticInputs
  batch : (a.copyFrom = none ∧ Fronts batch e.staticInputs) ∨
    ∃ srcs, a.copyFrom = some srcs ∧ Sized k b srcs ∧ Fronts batch srcs

section Call
variable {cfg : GraphConfig} {forward : List (Tensor E) → List (Tensor E)} {chance : Chance} {k : Traffic}
  {r b : Nat} {t0 t1 t2 : Tensor E} {s : GraphState E} {a : Attempt E} {e : CudaGraphEntry E}

/-- What is copied is the batch at the bucket. -/
theorem attempted_srcs (hbatch : Sized k r [t0, t1, t2]) (hr : 0 < r) (hper : 0 < k.per)
    (ha : attempted cfg forward chance [t0, t1, t2] s = some a) {srcs : List (Tensor E)}
    (hcopy : a.copyFrom = some srcs) :
    a.r = r ∧ ∃ b : Nat, a.bucket = b ∧ r ≤ b ∧ a.key = bucketKey b ∧ Sized k b srcs ∧
      Fronts [t0, t1, t2] srcs := by
  obtain ⟨_, _, _, r', hinputs, hcount, har, hle, hkey, hat⟩ := attempted_slow ha hcopy
  cases hinputs
  rw [hbatch.requestCount hper] at hcount
  cases hcount
  obtain ⟨b, hb⟩ := Int.eq_ofNat_of_zero_le (show 0 ≤ a.bucket by omega)
  rw [hb] at hle hkey hat
  have hle' : r ≤ b := by exact_mod_cast hle
  obtain ⟨hsized, hfront⟩ := hbatch.atCandidate hr hle' hat
  exact ⟨har, b, hb, hle', hkey, hsized, hfront⟩

theorem attempted_primed (hbatch : Sized k r [t0, t1, t2]) (hr : 0 < r) (hper : 0 < k.per)
    (hs : Entries (Sized k) s.cudaGraphCache) (hstaged : StagedHolds [t0, t1, t2] r s)
    (ha : attempted cfg forward chance [t0, t1, t2] s = some a) :
    ∃ b e, Primed k [t0, t1, t2] r b a e := by
  cases attempted_prepared ha with
  | prestaged hkey hbucket hcopy hcache =>
    obtain ⟨_, _, _, hinputs, hcount⟩ := attempted_inputs ha
    cases hinputs
    rw [hbatch.requestCount hper] at hcount
    cases hcount
    obtain ⟨b, e, hb, hkey', hle, he, hfront⟩ := hstaged a.key hkey
    exact ⟨b, e, rfl, hbucket.symm.trans hb, hle, hcache ▸ he, hs b e (by omega) (hkey' ▸ he),
      .inl ⟨hcopy, hfront⟩⟩
  | @found atBucket e hcopy _ _ hcache he =>
    obtain ⟨har, b, hb, hle, hkey, hsized, hfront⟩ := attempted_srcs hbatch hr hper ha hcopy
    exact ⟨b, e, har, hb, hle, hcache ▸ he, hs b e (by omega) (hkey ▸ he), .inr ⟨_, hcopy, hsized, hfront⟩⟩
  | @captured atBucket before hcopy _ _ hfresh hcache =>
    obtain ⟨har, b, hb, hle, _, hsized, hfront⟩ := attempted_srcs hbatch hr hper ha hcopy
    refine ⟨b, ⟨atBucket, forward atBucket⟩, har, hb, hle, ?_, hsized, .inr ⟨_, hcopy, hsized, hfront⟩⟩
    rw [hcache]
    exact lookup_emplace_self hfresh _

/-- What a launched replay reads. -/
theorem Primed.launched {batch statics : List (Tensor E)} (h : Primed k batch r b a e)
    (hl : Launched chance a e statics) : Sized k b statics ∧ Fronts batch statics := by
  have hcopied := hl.copied
  rcases h.batch with ⟨hcopy, hfront⟩ | ⟨srcs, hcopy, hsized, hfront⟩
  · rw [hcopy, Option.getD_none, copyInputs_nil] at hcopied
    cases hcopied
    exact ⟨h.statics, hfront⟩
  · rw [hcopy, Option.getD_some] at hcopied
    have hkept := h.statics.copied hsized chance.copy
    rw [hcopied] at hkept
    exact ⟨hkept, h.statics.copied_fronts hsized hfront hcopied⟩

/-- The rows of the graph's outputs that belong to the batch are the eager run's. -/
theorem forward_rows {statics : List (Tensor E)} (hlocal : RequestLocal forward)
    (hpacked : PackedBatch (List.replicate r k.per) [k.width] t0 t1 t2) (hs : Sized k b statics)
    (hfront : Fronts [t0, t1, t2] statics) :
    ∃ same : Nat → Prop, (∀ j < r, same j) ∧
      List.Forall₂ (SameRows b r same) (forward statics) (forward [t0, t1, t2]) := by
  obtain ⟨h0, h1, h2, _⟩ := hs
  obtain ⟨hd0, hrest⟩ := List.forall₂_cons.mp hfront
  obtain ⟨hd1, hlast⟩ := List.forall₂_cons.mp hrest
  obtain ⟨hd2, _⟩ := List.forall₂_cons.mp hlast
  refine ⟨_, fun j hj => hpacked.owns_alike h0.shape hd0 hd1 hd2 hj,
    hlocal b r [k.width] _ _ _ t0 t1 t2 ⟨h0.shape, ⟨_, h1.shape⟩, h2.shape⟩ ⟨?_, ⟨_, hpacked.multiple⟩, ?_⟩⟩
  · rw [hpacked.single, List.length_replicate]
  · rw [hpacked.position, List.length_replicate]

/-- An output with a row for each request of the bucket can be sliced. -/
theorem SameRows.slices {same : Nat → Prop} {o o' : Tensor E} (h : SameRows b r same o o') (hle : r ≤ b) :
    ∃ v, sliceOutput r (b : Int) o = .ok v := by
  obtain ⟨rest, hs, _⟩ := h.rows
  unfold sliceOutput
  split
  · exact ⟨o, rfl⟩
  · exact (Tensor.narrow_ok_iff hs 0 r).mpr (by omega)

/-- A primed replay returns the eager run's outputs, or is given up and appends nothing. -/
theorem Primed.replay (h : Primed k [t0, t1, t2] r b a e) (hlocal : RequestLocal forward)
    (hpacked : PackedBatch (List.replicate r k.per) [k.width] t0 t1 t2) (hchance : Undivided chance) :
    ((a.replay forward chance []).value = .ok true ∧
        (a.replay forward chance []).outputs = forward [t0, t1, t2]) ∨
      (a.replay forward chance []).value ≠ .ok true ∧ (a.replay forward chance []).outputs = [] := by
  by_cases hl : ∃ e' statics, Launched chance a e' statics
  · obtain ⟨e', statics, hl⟩ := hl
    have hentry := hl.entry
    rw [h.entry] at hentry
    cases hentry
    obtain ⟨hsized, hfront⟩ := h.launched hl
    obtain ⟨same, hsame, hrows⟩ := forward_rows hlocal hpacked hsized hfront
    have hslices : ∀ (j : Nat) (o : Tensor E), (forward statics)[j]? = some o → ∃ v, sliceOutput r (b : Int) o = .ok v := by
      intro j o ho
      obtain ⟨o', _, hrow⟩ := Slots.exists_right_of_mem hrows (List.mem_of_getElem? ho)
      exact hrow.slices h.le
    by_cases hall : SlicesAll chance a.r a.bucket 0 (forward statics)
    · obtain ⟨hvalue, _, sliced, hsliced, houtputs⟩ := hl.replay_all hall hchance.restore []
      rw [h.count, h.bucket] at hsliced
      refine .inl ⟨hvalue, houtputs.trans ?_⟩
      rw [List.nil_append, slices_eq h.le hsame hsliced hrows]
    · obtain ⟨hvalue, _, pre, houtputs, hpre⟩ := hl.replay_not_all (fun h' => hall h'.1) []
      refine .inr ⟨by rw [hvalue]; nofun, houtputs.trans ?_⟩
      rw [List.nil_append, hpre]
      -- a later output can be appended, so it is the first that cannot
      intro o ho hfirst
      refine hall fun j o' ho' => ⟨?_, by rw [h.count, h.bucket]; exact hslices j o' ho'⟩
      cases j with
      | zero => exact hfirst.1
      | succ j => exact hchance.slice _ (by omega)
  · obtain ⟨hvalue, houtputs, _⟩ := replay_not_launched forward (fun e' statics hl' => hl ⟨e', statics, hl'⟩) []
    exact .inr ⟨hvalue, houtputs⟩

/-- What a call stores, and what it copies, is of the traffic. -/
theorem sized_execute {x : Executed E} (hbatch : Sized k r [t0, t1, t2]) (hr : 0 < r) (hper : 0 < k.per)
    (hs : Entries (Sized k) s.cudaGraphCache)
    (h : execute cfg forward chance [t0, t1, t2] s [] = .ok x) : Entries (Sized k) x.state.cudaGraphCache := by
  refine hs.execute h fun a srcs e b ha hcopy hb hpos he hfrom => ?_
  obtain ⟨_, b', hb', _, _, hsized, _⟩ := attempted_srcs hbatch hr hper ha hcopy
  rw [hb] at hb'
  obtain rfl : b = b' := by exact_mod_cast hb'
  have hstatics : Sized k b e.staticInputs := by
    rcases hfrom with hsame | ⟨_, _, hsized'⟩
    · rw [hsame]
      exact hsized
    · exact hsized'
  exact ⟨hstatics, hstatics.copied hsized chance.copy⟩

/-- A batch of the traffic can be brought to every bucket that is reached. -/
theorem Sized.not_unfit (hbatch : Sized k r [t0, t1, t2]) (hr : 0 < r) (hroom : Affords cfg k chance) :
    ¬ Unfit cfg chance [t0, t1, t2] r s := by
  rw [← paddable_iff t2 hr]
  obtain ⟨h0, h1, _, _⟩ := hbatch
  refine .inr (.inr fun b hb => .inr ?_)
  have hle := (reached_bounds hb).1
  have hmem := ((BatchSizes.mem_lowerBound ..).mp (mem_healthy.mp ((reached_front _ _ _).subset hb)).1).1
  obtain ⟨hrange, hrows⟩ := hroom.rows b hmem
  have halloc := hroom.allocates b hmem
  refine ⟨hasRoom_multiple ⟨_, h0.shape⟩ (dvd_refl r) hle ?_ (halloc 0 (by decide)),
    hasRoom_multiple ⟨_, h1.shape⟩ (dvd_mul_right r k.per) hle ?_ (halloc 1 (by decide)),
    halloc 2 (by decide), by omega, hrange⟩
  · rw [Nat.div_self hr, Nat.cast_one, Int.one_mul]
    exact hrange.le
  · rw [Nat.mul_div_cancel_left k.per hr]
    exact hrows

/-- A call returns. -/
theorem executeWithCudaGraph_returns (hbatch : Sized k r [t0, t1, t2]) (hr : 0 < r) (hper : 0 < k.per)
    (hroom : Affords cfg k chance) (hs : Entries (Sized k) s.cudaGraphCache) (hstaged : StagedHolds [t0, t1, t2] r s) :
    ∃ ok, (executeWithCudaGraph cfg forward chance [t0, t1, t2] s []).value = .ok ok := by
  rcases executeWithCudaGraph_fits forward (hbatch.requestCount hper) (hbatch.not_unfit hr hroom) [] with
    hfalse | ⟨a, ha, hvalue⟩
  · exact ⟨false, hfalse⟩
  · rw [hvalue]
    obtain ⟨b, e, hprimed⟩ := attempted_primed hbatch hr hper hs hstaged ha
    rcases replay_answers forward chance a [] with hok | ⟨_, hshort⟩
    · exact hok
    · have hlt := hshort e hprimed.entry
      rw [hprimed.statics.length] at hlt
      rcases hprimed.batch with ⟨hcopy, _⟩ | ⟨srcs, hcopy, hsized, _⟩
      · rw [hcopy] at hlt
        exact absurd hlt (Nat.not_lt_zero 3)
      · rw [hcopy, Option.getD_some, hsized.length] at hlt
        exact absurd hlt (Nat.lt_irrefl 3)

/-- A call appends what the eager run does, or nothing. -/
theorem executeWithCudaGraph_sized (hlocal : RequestLocal forward) (hbatch : Sized k r [t0, t1, t2]) (hr : 0 < r)
    (hper : 0 < k.per) (hexact : HoldsUpTo E k.position (r * k.per)) (hs : Entries (Sized k) s.cudaGraphCache)
    (hstaged : StagedHolds [t0, t1, t2] r s) (hchance : Undivided chance) (hroom : Affords cfg k chance) :
    let ran := executeWithCudaGraph cfg forward chance [t0, t1, t2] s []
    (ran.value = .ok true ∧ ran.outputs = forward [t0, t1, t2]) ∨ (ran.value = .ok false ∧ ran.outputs = []) := by
  obtain ⟨ok, hok⟩ := executeWithCudaGraph_returns hbatch hr hper hroom hs hstaged
  have hanswer : ∀ {ran : Ran E Bool}, ran.value = .ok ok → ran.value ≠ .ok true → ran.value = .ok false := by
    intro ran hran hne
    cases ok with
    | true => exact absurd hran hne
    | false => exact hran
  cases ha : attempted cfg forward chance [t0, t1, t2] s with
  | none =>
    obtain ⟨hvalue, houtputs, _⟩ := executeWithCudaGraph_none ha []
    exact .inr ⟨hanswer hok hvalue, houtputs⟩
  | some a =>
    obtain ⟨before, _, hcall⟩ := executeWithCudaGraph_some ha []
    rw [hcall] at hok ⊢
    obtain ⟨b, e, hprimed⟩ := attempted_primed hbatch hr hper hs hstaged ha
    rcases hprimed.replay hlocal (hbatch.packedBatch hr hper hexact) hchance with hyes | ⟨hvalue, houtputs⟩
    · exact .inl hyes
    · exact .inr ⟨hanswer hok hvalue, houtputs⟩

/-- **A call of `Execute` leaves the eager run's outputs** where the buffers of every bucket
are of the batch's traffic. -/
theorem execute_sized (hlocal : RequestLocal forward) (hbatch : Sized k r [t0, t1, t2]) (hr : 0 < r)
    (hper : 0 < k.per) (hexact : HoldsUpTo E k.position (r * k.per)) (hs : Entries (Sized k) s.cudaGraphCache)
    (hstaged : StagedHolds [t0, t1, t2] r s) (hchance : Undivided chance) (hroom : Affords cfg k chance)
    (heager : chance.eager = none) :
    ∃ x, execute cfg forward chance [t0, t1, t2] s [] = .ok x ∧ x.outputs = forward [t0, t1, t2] ∧
      x.failure = none ∧ Entries (Sized k) x.state.cudaGraphCache := by
  have hcall : ∃ x, execute cfg forward chance [t0, t1, t2] s [] = .ok x ∧ x.outputs = forward [t0, t1, t2] ∧
      x.failure = none := by
    unfold execute
    split
    · have hran := executeWithCudaGraph_sized hlocal hbatch hr hper hexact hs hstaged hchance hroom
      rcases hran with ⟨hvalue, houtputs⟩ | ⟨hvalue, houtputs⟩
      · simp only [hvalue]
        exact ⟨_, rfl, houtputs, rfl⟩
      · simp only [hvalue, executeEager, heager, houtputs, List.nil_append]
        exact ⟨_, rfl, rfl, rfl⟩
    · simp only [executeEager, heager, List.nil_append]
      exact ⟨_, rfl, rfl, rfl⟩
  obtain ⟨x, hx, houtputs, hfailure⟩ := hcall
  exact ⟨x, hx, houtputs, hfailure, sized_execute hbatch hr hper hs hx⟩

/-- A call that finds the warmup's widths wrong goes on as from an empty cache. -/
theorem executeWithCudaGraph_evicts (hcount : requestCount t0 t1 t2 = .ok r) (h : Evicts cfg t0 t1 r s)
    (outputs : List (Tensor E)) :
    let ran := executeWithCudaGraph cfg forward chance [t0, t1, t2] s.evicted outputs
    executeWithCudaGraph cfg forward chance [t0, t1, t2] s outputs = {ran with events := .evict :: ran.events} := by
  have hchecked : checkWarmupWidths cfg t0 t1 r s.evicted = (s.evicted, []) := if_pos rfl
  simp only [executeWithCudaGraph, hcount, checkWarmupWidths_evicts h, hchecked]
  rfl

theorem execute_evicts (hon : (cfg.enabledCudaGraph && !cfg.deviceIsCpu) = true)
    (hcount : requestCount t0 t1 t2 = .ok r) (h : Evicts cfg t0 t1 r s) {x : Executed E}
    (hx : execute cfg forward chance [t0, t1, t2] s.evicted [] = .ok x) :
    execute cfg forward chance [t0, t1, t2] s [] = .ok {x with events := .evict :: x.events} := by
  unfold execute at hx ⊢
  rw [if_pos hon] at hx ⊢
  rw [executeWithCudaGraph_evicts hcount h]
  simp only at hx ⊢
  cases hvalue : (executeWithCudaGraph cfg forward chance [t0, t1, t2] s.evicted []).value with
  | ok answer =>
    simp only [hvalue] at hx ⊢
    cases answer with
    | true =>
      cases hx
      rfl
    | false =>
      cases hx
      simp only [executeEager]
      split <;> rfl
  | error f =>
    simp only [hvalue] at hx ⊢
    cases f with
    | thrown what =>
      cases hx
      rfl
    | sigfpe | undefined => cases hx

end Call

/-! ### What an instance is loaded with -/

/-- The traffic's types are the ones the warmup makes, if it captures at the traffic's widths. -/
def Warms (cfg : GraphConfig) (k : Traffic) : Prop :=
  cfg.cudaGraphWarmupSingleWidth = k.width → cfg.cudaGraphWarmupMultiWidth = k.per →
    k.single = .double ∧ k.multiple = .double ∧ k.position = .int

/-- The buffers were captured at load at other widths than the traffic's, and no batch has
come yet. -/
structure Mismatched (cfg : GraphConfig) (k : Traffic) (s : GraphState E) : Prop where
  unchecked : s.warmupWidthsChecked = false
  configured : 0 < cfg.cudaGraphWarmupSingleWidth ∧ 0 < cfg.cudaGraphWarmupMultiWidth
  differ : (k.width : Int) ≠ cfg.cudaGraphWarmupSingleWidth ∨ (k.per : Int) ≠ cfg.cudaGraphWarmupMultiWidth
  entries : Entries (fun b statics => ∃ s0 s1 s2 : Tensor E, statics = [s0, s1, s2] ∧
    s0.shape = [b, cfg.cudaGraphWarmupSingleWidth.toNat] ∧
    s1.shape = [b * cfg.cudaGraphWarmupMultiWidth.toNat] ∧ s2.shape = [b]) s.cudaGraphCache

/-- The states of an instance that serves the traffic. -/
inductive Settled (cfg : GraphConfig) (k : Traffic) (s : GraphState E) : Prop where
  | sized (entries : Entries (Sized k) s.cudaGraphCache)
  | mismatched (h : Mismatched cfg k s)

section Settled
variable {cfg : GraphConfig} {forward : List (Tensor E) → List (Tensor E)} {chance : Chance} {k : Traffic}
  {r : Nat} {t0 t1 t2 : Tensor E} {s : GraphState E}

/-- The first batch of the traffic finds the widths wrong. -/
theorem Mismatched.evicts (h : Mismatched cfg k s) (hbatch : Sized k r [t0, t1, t2]) (hr : 0 < r) :
    Evicts cfg t0 t1 r s := by
  obtain ⟨h0, h1, _, _⟩ := hbatch
  refine ⟨h.unchecked, h.configured, hr, by rw [h0.shape]; exact Nat.le_refl 2, ?_⟩
  rw [Tensor.numel, h0.shape, h1.shape, List.prod_singleton, Nat.mul_div_cancel_left k.per hr]
  exact h.differ

/-- **A call of `Execute` on a settled instance leaves the eager run's outputs**, and the
instance settled. -/
theorem Settled.execute (h : Settled cfg k s) (hlocal : RequestLocal forward) (hbatch : Sized k r [t0, t1, t2])
    (hr : 0 < r) (hper : 0 < k.per) (hexact : HoldsUpTo E k.position (r * k.per))
    (hstaged : StagedHolds [t0, t1, t2] r s) (hchance : Undivided chance) (hroom : Affords cfg k chance)
    (heager : chance.eager = none) :
    ∃ x, execute cfg forward chance [t0, t1, t2] s [] = .ok x ∧ x.outputs = forward [t0, t1, t2] ∧
      x.failure = none ∧ Settled cfg k x.state := by
  cases h with
  | sized hs =>
    obtain ⟨x, hx, houtputs, hfailure, hkept⟩ :=
      execute_sized hlocal hbatch hr hper hexact hs hstaged hchance hroom heager
    exact ⟨x, hx, houtputs, hfailure, .sized hkept⟩
  | mismatched hm =>
    obtain ⟨x, hx, houtputs, hfailure, hkept⟩ := execute_sized (s := s.evicted) hlocal hbatch hr hper
      hexact (.empty _) (fun _ hkey => (by cases hkey)) hchance hroom heager
    by_cases hon : (cfg.enabledCudaGraph && !cfg.deviceIsCpu) = true
    · exact ⟨_, execute_evicts hon (hbatch.requestCount hper) (hm.evicts hbatch hr) hx, houtputs, hfailure,
        .sized hkept⟩
    · unfold TritonAot.execute
      rw [if_neg hon]
      simp only [executeEager, heager, List.nil_append]
      exact ⟨_, rfl, rfl, rfl, .mismatched hm⟩

end Settled

end TritonAot
