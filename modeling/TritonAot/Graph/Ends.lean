import TritonAot.Graph.Entries
import TritonAot.Graph.Positions

/-! What the position buffers of the cache hold.

Copying a batch into an entry rewrites the entry's third buffer, and what it leaves
there is what a prestaged replay of any later batch reads. The warmup and a padded
batch leave the positions of requests of one width, that of the second buffer; a
batch copied at its own size leaves its own. So the buffers stay even
(`EvenEnds`) as long as such a batch is even for them (`EvenInto`). -/
namespace TritonAot

open Packed Dense

variable {E : Type} [Scalars E]

/-- The tensor holds the counts, converted to its type. -/
def HoldsCounts (t : Tensor E) (ks : List Nat) : Prop :=
  t.data = (asElements ks).map (Scalars.cast t.dtype)

/-- A count converted to `d` and then to `d'` is the count converted to `d'`. -/
def Passes (E : Type) [Scalars E] (d d' : ScalarType) : Prop :=
  ∀ n : Nat, Scalars.cast d' (Scalars.cast d (Scalars.ofInt (n : Int) : E)) =
    Scalars.cast d' (Scalars.ofInt (n : Int))

theorem Passes.refl (d : ScalarType) : Passes E d d := fun _ => Scalars.cast_cast d _

/-- Buffers of `b` requests of one width, with the third saying so. -/
structure EvenEnds (d : ScalarType) (b : Nat) (statics : List (Tensor E)) : Prop where
  buffers : ∃ single multiple position width, statics = [single, multiple, position] ∧
    multiple.shape = [b * width] ∧ position.shape = [b] ∧ HoldsCounts position (evenEnds width b) ∧
    Passes E d position.dtype

/-- The second and third model input of a batch whose requests have the given element counts. -/
structure CountedBatch (counts : List Nat) (t1 t2 : Tensor E) : Prop where
  multiple : t1.shape = [counts.sum]
  position : t2.shape = [counts.length]
  ends : HoldsCounts t2 (ends counts)

/-- A batch that can be copied as it is into the buffers of a bucket has a request for
each slot, and each has the width of the second buffer. -/
def EvenInto (counts : List Nat) (b : Nat) (inputs statics : List (Tensor E)) : Prop :=
  List.Forall₂ (fun t st => Expands t.shape st.shape) inputs statics →
    counts.length = b ∧ ∀ multiple, statics[1]? = some multiple → ∀ c ∈ counts, c * b = multiple.numel

/-! ### What is copied -/

/-- The positions that `PadRequestsUp` generates. -/
theorem holdsCounts_positions (d : ScalarType) (dev : Device) (w b : Nat) :
    HoldsCounts (Tensor.positions d dev w b : Tensor E) (evenEnds w b) := by
  have hlen : (Tensor.positions d dev w b : Tensor E).data.length = b := by
    rw [Tensor.size_eq]
    exact List.prod_singleton
  have h := take_positions (E := E) d dev (w := w) (Nat.le_refl b)
  rw [List.take_of_length_le (Nat.le_of_eq hlen)] at h
  exact h

/-- A copy between position buffers of one length. -/
theorem HoldsCounts.copy {dst src u : Tensor E} {ks : List Nat} (h : HoldsCounts src ks)
    (hs : src.shape = dst.shape) (hp : Passes E src.dtype dst.dtype) (hc : dst.copy_ src = .ok u) :
    u.dtype = dst.dtype ∧ u.shape = dst.shape ∧ HoldsCounts u ks := by
  obtain ⟨_, hc', hd, _, hshape, hdata⟩ := Tensor.copy_same hs
  rw [hc] at hc'
  cases hc'
  refine ⟨hd, hshape, ?_⟩
  rw [HoldsCounts, hdata, h, hd, List.map_map, asElements, List.map_map, List.map_map]
  exact List.map_congr_left fun n _ => hp n

/-- The copies keep the buffers even where what reaches the third is even for them. -/
theorem EvenEnds.copied {d : ScalarType} {b : Nat} {statics : List (Tensor E)} {p0 p1 p2 : Tensor E}
    (h : EvenEnds d b statics) (fault : Nat → Option String)
    (hfits : ∀ single multiple position width, statics = [single, multiple, position] →
      multiple.shape = [b * width] → Passes E d position.dtype →
      List.Forall₂ (fun t st => Expands t.shape st.shape) [p0, p1, p2] statics →
      p2.shape = [b] ∧ HoldsCounts p2 (evenEnds width b) ∧ Passes E p2.dtype position.dtype) :
    EvenEnds d b (copyInputs fault 0 statics [p0, p1, p2]).2 := by
  obtain ⟨single, multiple, position, width, rfl, hm, hp, hends, hpass⟩ := h.buffers
  cases hcopy : copyInputs fault 0 [single, multiple, position] [p0, p1, p2] with
  | mk result statics' =>
    obtain ⟨hshapes, hall⟩ := copyInputs_each hcopy
    obtain ⟨u0, _, _, hrest, rfl⟩ := List.forall₂_cons_right_iff.mp hshapes
    obtain ⟨u1, _, hu1, hlast, rfl⟩ := List.forall₂_cons_right_iff.mp hrest
    obtain ⟨u2, _, hu2, hnil, rfl⟩ := List.forall₂_cons_right_iff.mp hlast
    cases hnil
    rcases hall 2 position rfl with hsame | ⟨p, u, hp2, hu, hpu, hbefore⟩
    · cases hsame
      exact ⟨u0, u1, _, width, rfl, hu1.trans hm, hp, hends, hpass⟩
    · cases hp2
      cases hu
      have hexpands : List.Forall₂ (fun t st : Tensor E => Expands t.shape st.shape) [p0, p1, p2]
          [single, multiple, position] :=
        .cons (hbefore 0 p0 single (by omega) rfl rfl) (.cons (hbefore 1 p1 multiple (by omega) rfl rfl)
          (.cons (Tensor.copy_ok hpu).1 .nil))
      obtain ⟨hshape, hcounts, htype⟩ := hfits single multiple position width rfl hm hpass hexpands
      obtain ⟨hd, hs, hheld⟩ := hcounts.copy (hshape.trans hp.symm) htype hpu
      exact ⟨u0, u1, _, width, rfl, hu1.trans hm, hs.trans hp, hheld, hd ▸ hpass⟩

/-! ### A batch at a bucket -/

namespace CountedBatch
variable {alloc : Int → Nat → Option String} {counts : List Nat} {t0 t1 t2 p0 p1 p2 : Tensor E} {r b : Nat}

theorem numel_multiple (h : CountedBatch counts t1 t2) : t1.numel = counts.sum := by
  rw [Tensor.numel, h.multiple, List.prod_singleton]

/-- The padded batch. -/
theorem padded (h : CountedBatch counts t1 t2)
    (hp : padRequestsUp alloc [t0, t1, t2] r (b : Int) = .ok [p0, p1, p2]) :
    p1.shape = [b * (counts.sum / r)] ∧ p2.shape = [b] ∧ p2.dtype = t2.dtype ∧
      HoldsCounts p2 (evenEnds (counts.sum / r) b) := by
  obtain ⟨_, _, _, _, hout, _, hp1, hp2⟩ := padRequestsUp_three hp
  cases hout
  obtain ⟨_, _, hs, hshape, _⟩ := (padTensor_ok (by decide) h.multiple hp1).shape
  rw [h.multiple] at hs
  cases hs
  rw [h.numel_multiple] at hp2
  cases padTensor_positions hp2
  exact ⟨by rw [hshape, Nat.mul_comm], rfl, rfl, holdsCounts_positions _ _ _ _⟩

/-- Requests that all have one width end evenly. -/
theorem ends_of_width {width : Nat} (h : CountedBatch counts t1 t2) (hb : 0 < b)
    (hlen : counts.length = b) (hall : ∀ c ∈ counts, c * b = b * width) :
    HoldsCounts t2 (evenEnds width b) := by
  have hwidth : ∀ c ∈ counts, c = width := fun c hc =>
    Nat.eq_of_mul_eq_mul_left hb ((Nat.mul_comm _ _).trans (hall c hc))
  rw [← hlen, ← ends_eq_evenEnds.mpr hwidth]
  exact h.ends

/-- A batch of one width is even for itself. -/
theorem evenInto_self {width : Nat} (h : CountedBatch counts t1 t2) (hall : ∀ c ∈ counts, c = width) :
    EvenInto counts counts.length [t0, t1, t2] [t0, t1, t2] := by
  refine fun _ => ⟨rfl, fun multiple hmultiple c hc => ?_⟩
  cases hmultiple
  rw [h.numel_multiple, sum_of_all hall, hall c hc, Nat.mul_comm]

/-- Captured at its own size, an even batch leaves even buffers. -/
theorem evenEnds_own {d : ScalarType} (h : CountedBatch counts t1 t2) (hb : 0 < b)
    (hpass : Passes E d t2.dtype) (heven : EvenInto counts b [t0, t1, t2] [t0, t1, t2]) :
    EvenEnds d b [t0, t1, t2] := by
  obtain ⟨hlen, hall⟩ := heven (List.forall₂_same.mpr fun t _ => expands_self t.shape)
  have hall := hall t1 rfl
  rw [h.numel_multiple] at hall
  obtain ⟨width, hwidth⟩ := List.exists_mem_of_length_pos (hlen ▸ hb)
  have hsum : counts.sum = b * width := by rw [← hall width hwidth, Nat.mul_comm]
  rw [hsum] at hall
  exact ⟨t0, t1, t2, width, rfl, by rw [h.multiple, hsum], by rw [h.position, hlen],
    h.ends_of_width hb hlen hall, hpass⟩

/-- Captured padded, any batch does. -/
theorem evenEnds_padded {d : ScalarType} (h : CountedBatch counts t1 t2) (hpass : Passes E d t2.dtype)
    (hp : padRequestsUp alloc [t0, t1, t2] r (b : Int) = .ok [p0, p1, p2]) : EvenEnds d b [p0, p1, p2] := by
  obtain ⟨h1, h2, hd, hends⟩ := h.padded hp
  exact ⟨p0, p1, p2, _, rfl, h1, h2, hends, hd ▸ hpass⟩

end CountedBatch

/-- **A call keeps the position buffers even** where a batch that is copied at its own
size is even for the buffers it is copied into. -/
theorem evenEnds_execute {d : ScalarType} {cfg : GraphConfig} {forward : List (Tensor E) → List (Tensor E)}
    {chance : Chance} {inputs : List (Tensor E)} {s : GraphState E} {x : Executed E}
    (hs : Entries (EvenEnds d) s.cudaGraphCache) (h : execute cfg forward chance inputs s [] = .ok x)
    (hbatch : ∀ a, attempted cfg forward chance inputs s = some a → a.copyFrom ≠ none →
      ∃ counts t0 t1 t2, inputs = [t0, t1, t2] ∧ CountedBatch counts t1 t2 ∧ Passes E d t2.dtype ∧
        (s.prestagedEntry = none → t2.dtype = d) ∧
        ∀ e, a.bucket = a.r → a.state.cudaGraphCache.lookup a.key = some e →
          EvenInto counts a.r inputs e.staticInputs) :
    Entries (EvenEnds d) x.state.cudaGraphCache := by
  refine hs.execute h fun a atBucket e b ha hcopy hab hb he hfrom => ?_
  obtain ⟨counts, t0, t1, t2, rfl, hcounted, hpass, htype, heven⟩ := hbatch a ha (by rw [hcopy]; nofun)
  obtain ⟨_, _, _, r, hinputs, _, har, hle, _, hpad⟩ := attempted_slow ha hcopy
  cases hinputs
  rw [hab] at hle hpad heven
  rw [har] at heven
  by_cases hown : b = r
  · -- copied as it is
    subst hown
    rw [if_pos rfl] at hpad
    cases hpad
    have hinto := heven e rfl he
    have hentry : EvenEnds d b e.staticInputs ∧ (e.staticInputs = [t0, t1, t2] ∨ t2.dtype = d) := by
      rcases hfrom with hsame | ⟨hnone, _, hentry⟩
      · rw [hsame] at hinto ⊢
        exact ⟨hcounted.evenEnds_own hb hpass hinto, .inl rfl⟩
      · exact ⟨hentry, .inr (htype hnone)⟩
    refine ⟨hentry.1, hentry.1.copied _ fun single multiple position width hstatics hm hpos hexpands => ?_⟩
    obtain ⟨hlen, hall⟩ := hinto hexpands
    have hall := hall multiple (by rw [hstatics]; rfl)
    rw [Tensor.numel, hm, List.prod_singleton] at hall
    refine ⟨by rw [hcounted.position, hlen], hcounted.ends_of_width hb hlen hall, ?_⟩
    rcases hentry.2 with hsame | hd
    · rw [hstatics] at hsame
      cases hsame
      exact .refl _
    · rw [hd]
      exact hpos
  · -- padded
    rw [if_neg (by exact_mod_cast hown)] at hpad
    obtain ⟨hr, p0, p1, p2, rfl, _⟩ := padRequestsUp_three hpad
    obtain ⟨hp1, hp2, hpd, hends⟩ := hcounted.padded hpad
    have hentry : EvenEnds d b e.staticInputs ∧ (e.staticInputs = [p0, p1, p2] ∨ t2.dtype = d) := by
      rcases hfrom with hsame | ⟨hnone, _, hentry⟩
      · rw [hsame]
        exact ⟨hcounted.evenEnds_padded hpass hpad, .inl rfl⟩
      · exact ⟨hentry, .inr (htype hnone)⟩
    refine ⟨hentry.1, hentry.1.copied _ fun single multiple position width hstatics hm hpos hexpands => ?_⟩
    -- a bucket of two or more is too long for its buffer to be repeated
    have hwidth : counts.sum / r = width := by
      rw [hstatics] at hexpands
      obtain ⟨_, hexpands⟩ := List.forall₂_cons.mp hexpands
      have h1 := (List.forall₂_cons.mp hexpands).1
      rw [hp1, hm] at h1
      rcases expands_singleton h1 with heq | hone
      · exact Nat.eq_of_mul_eq_mul_left hb heq
      · have := Nat.eq_one_of_mul_eq_one_right hone
        omega
    rw [hwidth] at hends
    refine ⟨hp2, hends, ?_⟩
    rcases hentry.2 with hsame | hd
    · rw [hstatics] at hsame
      cases hsame
      exact .refl _
    · rw [hpd, hd]
      exact hpos

/-- What the warmup captures is even, at its own width. -/
theorem evenEnds_warmup {d : ScalarType} (hd : Passes E d .int) (cfg : GraphConfig)
    (forward : List (Tensor E) → List (Tensor E)) (capture : Int → Option Bool) {s : GraphState E}
    (hs : Entries (EvenEnds d) s.cudaGraphCache) :
    Entries (EvenEnds d) (warmupCudaGraphs cfg forward capture s).1.cudaGraphCache := by
  unfold warmupCudaGraphs
  split
  · rename_i hon
    simp only [Bool.and_eq_true, decide_eq_true_eq] at hon
    have hwide : 0 ≤ cfg.cudaGraphWarmupMultiWidth := hon.1.2.le
    refine hs.warmupFrom fun b inputs hb h => ?_
    rw [warmupInputs_ok hwide h]
    exact ⟨_, _, _, cfg.cudaGraphWarmupMultiWidth.toNat, rfl, rfl, rfl, holdsCounts_positions _ _ _ _, hd⟩
  · exact hs

end TritonAot
