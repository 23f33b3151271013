import TritonAot.Graph.Positions

/-! A padded replay refines the eager run.

A model is request-local when each output has a row for each request, and row `j`
depends on row `j` of the first tensor and on the elements of the second that
request `j` owns. What is in the other rows and behind the batch then does not
matter: padding, stale buffers and the dummy requests are outside what the first
`r` rows read, and the slice drops the rest. -/
namespace TritonAot

open Packed

variable {E : Type} [Scalars E]

/-! ### Models -/

/-- Where the elements of request `j` start. -/
def startOf (position : Tensor E) : Nat → Option E
  | 0 => some Scalars.zero
  | j + 1 => position.data[j]?

/-- What request `j` of a packed batch owns: its row of the first tensor, and its
elements of the second. -/
structure Owns (single multiple position : Tensor E) (j : Nat) (row own : List E) : Prop where
  row : rowAt single.inner single.data j = row
  own : ∃ lo hi : Nat, startOf position j = some (Scalars.ofInt lo) ∧
    position.data[j]? = some (Scalars.ofInt hi) ∧ slice lo hi multiple.data = own

/-- The shapes of the three tensors of `n` requests. -/
structure Requests (n : Nat) (inner : List Nat) (single multiple position : Tensor E) : Prop where
  single : single.shape = n :: inner
  multiple : ∃ size, multiple.shape = [size]
  position : position.shape = [n]

/-- Outputs of `n` and of `m` requests, with equal rows for the requests that `same`
says are equal. -/
structure SameRows (n m : Nat) (same : Nat → Prop) (o o' : Tensor E) : Prop where
  dtype : o.dtype = o'.dtype
  device : o.device = o'.device
  rows : ∃ rest, o.shape = n :: rest ∧ o'.shape = m :: rest ∧
    ∀ j, j < n → j < m → same j → rowAt rest.prod o.data j = rowAt rest.prod o'.data j

/-- One output row for each request, a function of what the request owns. -/
def RequestLocal (forward : List (Tensor E) → List (Tensor E)) : Prop :=
  ∀ (n m : Nat) (inner : List Nat) (t0 t1 t2 u0 u1 u2 : Tensor E),
    Requests n inner t0 t1 t2 → Requests m inner u0 u1 u2 →
      List.Forall₂ (SameRows n m fun j => ∃ row own, Owns t0 t1 t2 j row own ∧ Owns u0 u1 u2 j row own)
        (forward [t0, t1, t2]) (forward [u0, u1, u2])

/-! ### The batch at the bucket -/

/-- A buffer of a shape, whose element type holds the given values as they are. -/
structure Holds (st : Tensor E) (shape : List Nat) (values : List E) : Prop where
  shape : st.shape = shape
  exact : ∀ x ∈ values, Scalars.cast st.dtype x = x

/-- Copying a tensor that starts with the batch's elements leaves them in front. -/
theorem prefix_copy {t p st st' : Tensor E} {shape : List Nat} (hst : Holds st shape t.data)
    (hp : p.shape = shape) (hfront : t.data <+: p.data) (h : st.copy_ p = .ok st') :
    st'.shape = shape ∧ t.data <+: st'.data := by
  obtain ⟨_, hcopy, _, _, hshape, hdata⟩ := Tensor.copy_same (hp.trans hst.shape.symm)
  rw [h] at hcopy
  cases hcopy
  refine ⟨hshape.trans hst.shape, ?_⟩
  have hmap : t.data.map (Scalars.cast st.dtype) = t.data :=
    (List.map_congr_left hst.exact).trans (List.map_id' t.data)
  rw [hdata, ← hmap]
  exact hfront.map _

theorem Grown.front {t p : Tensor E} {lead : Nat} (h : Grown t p lead) : t.data <+: p.data :=
  ⟨_, h.data.symm⟩

theorem ends_replicate (r per : Nat) : ends (List.replicate r per) = evenEnds per r := by
  have h : ends (List.replicate r per) = evenEnds per (List.replicate r per).length :=
    ends_eq_evenEnds.mpr fun _ hc => List.eq_of_mem_replicate hc
  rwa [List.length_replicate] at h

section Batch
variable {alloc : Int → Nat → Option String} {r per b : Nat} {inner : List Nat} {t0 t1 t2 : Tensor E}

/-- Padded or not, the batch at the bucket has the bucket's shapes and starts with
the batch's elements. -/
theorem PackedBatch.atBucket (h : PackedBatch (List.replicate r per) inner t0 t1 t2) (hle : r ≤ b)
    {atBucket : List (Tensor E)}
    (hpad : (if b = r then Except.ok [t0, t1, t2] else padRequestsUp alloc [t0, t1, t2] r b) = .ok atBucket) :
    ∃ p0 p1 p2, atBucket = [p0, p1, p2] ∧
      (p0.shape = b :: inner ∧ t0.data <+: p0.data) ∧
      (p1.shape = [b * per] ∧ t1.data <+: p1.data) ∧
      (p2.shape = [b] ∧ t2.data <+: p2.data) := by
  have h0 : t0.shape = r :: inner := by rw [h.single, List.length_replicate]
  have h1 : t1.shape = [r * per] := by rw [h.multiple, List.sum_replicate_nat]
  have h2 : t2.shape = [r] := by rw [h.position, List.length_replicate]
  split at hpad
  · rename_i heq
    cases hpad
    rw [heq]
    exact ⟨t0, t1, t2, rfl, ⟨h0, List.prefix_rfl⟩, ⟨h1, List.prefix_rfl⟩, h2, List.prefix_rfl⟩
  · obtain ⟨hr, p0, p1, p2, rfl, hp0, hp1, hp2⟩ := padRequestsUp_three hpad
    have hrpos : 0 < r := Nat.pos_of_ne_zero hr
    have hwidth : t1.numel / r = per := by
      rw [Tensor.numel, h1, List.prod_singleton, Nat.mul_div_cancel_left per hrpos]
    have hlead0 : r / r * b = b := by rw [Nat.div_self hrpos, Nat.one_mul]
    have hlead1 : r * per / r * b = b * per := by rw [Nat.mul_div_cancel_left per hrpos, Nat.mul_comm]
    have hg0 := padTensor_ok (by decide) h0 hp0
    have hg1 := padTensor_ok (by decide) h1 hp1
    rw [hwidth] at hp2
    cases padTensor_positions hp2
    refine ⟨p0, p1, _, rfl, ⟨?_, hg0.front⟩, ⟨?_, hg1.front⟩, rfl, ?_⟩
    · obtain ⟨size, rest, hs, hp, _⟩ := hg0.shape
      rw [h0] at hs
      cases hs
      rw [hp, hlead0]
    · obtain ⟨size, rest, hs, hp, _⟩ := hg1.shape
      rw [h1] at hs
      cases hs
      rw [hp, hlead1]
    · have hends : t2.data = asElements (evenEnds per r) := by rw [h.ends, ends_replicate]
      have htake := take_positions (E := E) t2.dtype t2.device (w := per) hle
      rw [map_cast_asElements (cast_of_mem hends), ← hends] at htake
      exact htake ▸ List.take_prefix ..

/-- Buffers that start with the batch's elements hold for each of its requests what
the batch does. -/
theorem PackedBatch.owns_alike (h : PackedBatch (List.replicate r per) inner t0 t1 t2)
    {u0 u1 u2 : Tensor E} (h0 : u0.shape = b :: inner) (hd0 : t0.data <+: u0.data)
    (hd1 : t1.data <+: u1.data) (hd2 : t2.data <+: u2.data) {j : Nat} (hj : j < r) :
    ∃ row own, Owns u0 u1 u2 j row own ∧ Owns t0 t1 t2 j row own := by
  have hinner : u0.inner = t0.inner := by rw [Tensor.inner, Tensor.inner, h0, h.single]; rfl
  obtain ⟨z0, hz0⟩ := hd0
  obtain ⟨z1, hz1⟩ := hd1
  obtain ⟨z2, hz2⟩ := hd2
  have hends : t2.data = asElements (evenEnds per r) := by rw [h.ends, ends_replicate]
  have hat : ∀ i < r, t2.data[i]? = some (Scalars.ofInt ((i + 1) * per : Nat)) := fun i hi => by
    rw [hends, asElements, List.getElem?_map, getElem?_evenEnds hi, Option.map_some]
  have hlen2 : t2.data.length = r := by rw [hends, asElements, List.length_map, length_evenEnds]
  have hat' : ∀ i < r, u2.data[i]? = t2.data[i]? := fun i hi => by
    rw [← hz2, List.getElem?_append_left (by omega)]
  have hstart : startOf t2 j = some (Scalars.ofInt (j * per : Nat)) := by
    cases j with
    | zero => rw [startOf, Nat.zero_mul]; rfl
    | succ j => exact hat j (by omega)
  have hstart' : startOf u2 j = startOf t2 j := by
    cases j with
    | zero => rfl
    | succ j => exact hat' j (by omega)
  have hrow : (j + 1) * t0.inner ≤ t0.data.length := by
    rw [t0.size_eq, h.single, List.prod_cons, List.length_replicate, Tensor.inner, h.single, List.tail_cons]
    exact Nat.mul_le_mul_right _ hj
  have hown : (j + 1) * per ≤ t1.data.length := by
    rw [t1.size_eq, h.multiple, List.prod_singleton, List.sum_replicate_nat]
    exact Nat.mul_le_mul_right _ hj
  refine ⟨rowAt t0.inner t0.data j, slice (j * per) ((j + 1) * per) t1.data, ⟨?_, ?_⟩, ⟨rfl, ?_⟩⟩
  · rw [hinner, ← hz0, rowAt_append hrow]
  · refine ⟨j * per, (j + 1) * per, hstart'.trans hstart, (hat' j hj).trans (hat j hj), ?_⟩
    rw [← hz1, slice_append hown]
  · exact ⟨j * per, (j + 1) * per, hstart, hat j hj, rfl⟩

end Batch

/-! ### The outputs -/

/-- The first rows of an output are the eager output, if they are equal row by row. -/
theorem SameRows.slice {r b : Nat} {same : Nat → Prop} {o o' v : Tensor E} (h : SameRows b r same o o')
    (hle : r ≤ b) (hsame : ∀ j < r, same j) (hv : sliceOutput r b o = .ok v) : v = o' := by
  obtain ⟨rest, hs, hs', hrows⟩ := h.rows
  have hfront : o.data.take (r * rest.prod) = o'.data := by
    rw [take_eq_of_rows fun j hj => hrows j (by omega) hj (hsame j hj)]
    exact List.take_of_length_le (by rw [o'.size_eq, hs', List.prod_cons])
  rw [sliceOutput] at hv
  split at hv
  · rename_i heq
    obtain rfl : r = b := by exact_mod_cast heq
    cases hv
    refine Tensor.ext h.dtype h.device (hs.trans hs'.symm) ?_
    rw [← hfront, List.take_of_length_le (by rw [o.size_eq, hs, List.prod_cons])]
  · obtain ⟨size, rest', hn, _, hd, hdev, hshape, hdata⟩ := Tensor.narrow_ok hv
    rw [hs] at hn
    cases hn
    refine Tensor.ext (hd.trans h.dtype) (hdev.trans h.device) (hshape.trans hs'.symm) ?_
    rw [hdata, Nat.zero_mul, List.drop_zero, hfront]

theorem slices_eq {r b : Nat} {same : Nat → Prop} {outs sliced outs' : List (Tensor E)} (hle : r ≤ b)
    (hsame : ∀ j < r, same j) (hs : List.Forall₂ (fun o v => sliceOutput r (b : Int) o = .ok v) outs sliced)
    (h : List.Forall₂ (SameRows b r same) outs outs') : sliced = outs' := by
  induction hs generalizing outs' with
  | nil =>
    cases h
    rfl
  | cons hv _ ih =>
    cases h with
    | cons ho hrest => rw [ho.slice hle hsame hv, ih hrest]

/-- **A replay that is not prestaged returns the eager run's outputs**, whatever
the buffers held before: for a request-local model and a batch of equally many
elements for each request, where the static inputs of the entry have the bucket's
shapes and types that hold the batch's values. -/
theorem replay_refines_eager {cfg : GraphConfig} {forward : List (Tensor E) → List (Tensor E)}
    {chance : Chance} {r per b : Nat} {inner : List Nat} {t0 t1 t2 s0 s1 s2 : Tensor E} {s : GraphState E}
    {a : Attempt E} {e : CudaGraphEntry E} {outputs : List (Tensor E)} (hlocal : RequestLocal forward)
    (h : PackedBatch (List.replicate r per) inner t0 t1 t2)
    (ha : attempted cfg forward chance [t0, t1, t2] s = some a) (hslow : a.copyFrom ≠ none)
    (hb : a.bucket = b) (he : a.state.cudaGraphCache.lookup a.key = some e)
    (hstatic : e.staticInputs = [s0, s1, s2]) (h0 : Holds s0 (b :: inner) t0.data)
    (h1 : Holds s1 [b * per] t1.data) (h2 : Holds s2 [b] t2.data)
    (hret : (executeWithCudaGraph cfg forward chance [t0, t1, t2] s outputs).value = .ok true) :
    (executeWithCudaGraph cfg forward chance [t0, t1, t2] s outputs).outputs =
      outputs ++ forward [t0, t1, t2] := by
  obtain ⟨atBucket, hat⟩ := Option.ne_none_iff_exists'.mp hslow
  obtain ⟨har, b', hb', _, hle, hpad⟩ := h.attempted_padded ha hat
  rw [hb] at hb'
  obtain rfl : b = b' := by exact_mod_cast hb'
  rw [List.length_replicate] at har hle hpad
  obtain ⟨p0, p1, p2, rfl, ⟨hs0, hd0⟩, ⟨hs1, hd1⟩, hs2, hd2⟩ := h.atBucket hle hpad
  obtain ⟨before, _, hcall⟩ := executeWithCudaGraph_some ha outputs
  rw [hcall] at hret ⊢
  obtain ⟨e', statics, sliced, hl, hsliced, houtputs, _⟩ := replay_true hret
  have hee : some e = some e' := he.symm.trans hl.entry
  cases hee
  have hcopied := hl.copied
  rw [hat, hstatic] at hcopied
  obtain ⟨hlen, _, hcopy⟩ := copyInputs_ok hcopied
  obtain ⟨_, u0, hst0, hc0, hu0⟩ := hcopy 0 p0 rfl
  obtain ⟨_, u1, hst1, hc1, hu1⟩ := hcopy 1 p1 rfl
  obtain ⟨_, u2, hst2, hc2, hu2⟩ := hcopy 2 p2 rfl
  cases hst0
  cases hst1
  cases hst2
  obtain ⟨v0, v1, v2, rfl⟩ := List.length_eq_three.mp hlen
  cases hu0
  cases hu1
  cases hu2
  obtain ⟨hus0, hud0⟩ := prefix_copy h0 hs0 hd0 hc0
  obtain ⟨hus1, hud1⟩ := prefix_copy h1 hs1 hd1 hc1
  obtain ⟨hus2, hud2⟩ := prefix_copy h2 hs2 hd2 hc2
  have hrows := hlocal b r inner u0 u1 u2 t0 t1 t2 ⟨hus0, ⟨_, hus1⟩, hus2⟩
    ⟨by rw [h.single, List.length_replicate], ⟨_, h.multiple⟩, by rw [h.position, List.length_replicate]⟩
  rw [har, hb] at hsliced
  rw [show (_ : List (Tensor E)) = outputs ++ sliced from houtputs,
    slices_eq hle (fun j hj => h.owns_alike hus0 hud0 hud1 hud2 hj) hsliced hrows]

/-- Scores that repeat the rows of the first tensor, as 64-bit integers. -/
def repeatRows (inputs : List (Tensor Int)) : List (Tensor Int) :=
  (inputs.take 1).map fun t => .ofValues .long .cuda t.shape t.data t.size_eq

theorem requestLocal_repeatRows : RequestLocal repeatRows := by
  intro n m inner t0 t1 t2 u0 u1 u2 ht hu
  refine .cons ⟨rfl, rfl, inner, ht.single, hu.single, ?_⟩ .nil
  intro j _ _ hparts
  obtain ⟨row, own, hrow, hrow'⟩ := hparts
  have h0 : t0.inner = inner.prod := by rw [Tensor.inner, ht.single, List.tail_cons]
  have h1 : u0.inner = inner.prod := by rw [Tensor.inner, hu.single, List.tail_cons]
  have hsame : rowAt inner.prod t0.data j = rowAt inner.prod u0.data j := by
    rw [← h0, hrow.row, h0, ← h1, hrow'.row]
  show rowAt _ (t0.data.map _) j = rowAt _ (u0.data.map _) j
  rw [rowAt_map, rowAt_map, hsame]

/-- A bucket of two requests, captured at load on tensors of doubles. -/
def warmedUp : GraphConfig :=
  {graphsAt (oneBucket 2) with cudaGraphWarmupSingleWidth := 1, cudaGraphWarmupMultiWidth := 1}

def warmState : GraphState Int := (warmupCudaGraphs warmedUp repeatRows (fun _ => some true) (.fresh Int)).1

/-- One request with one element in its row, a 64-bit integer. -/
def oneRow (n : Int) (h : intCast .long n = n) : Tensor Int :=
  ⟨.long, .cuda, [1, 1], [n], rfl, fun _ hx => List.mem_singleton.mp hx ▸ h⟩

theorem replay_refines_eager_warm :
    (executeWithCudaGraph warmedUp repeatRows .smooth
      [oneRow 5 rfl, .zeros .double .cuda [1], .positions .int .cuda 1 1] warmState []).outputs =
      repeatRows [oneRow 5 rfl, .zeros .double .cuda [1], .positions .int .cuda 1 1] := by
  have h : PackedBatch (List.replicate 1 1) [1] (oneRow 5 rfl) (.zeros .double .cuda [1])
      (.positions .int .cuda 1 1) := ⟨by decide, by decide, rfl, rfl, rfl, rfl⟩
  exact replay_refines_eager requestLocal_repeatRows h (show attempted warmedUp repeatRows .smooth
      [oneRow 5 rfl, .zeros .double .cuda [1], .positions .int .cuda 1 1] warmState = some _ from rfl)
    nofun rfl rfl rfl ⟨rfl, by decide⟩ ⟨rfl, by decide⟩ ⟨rfl, by decide⟩ rfl

/-- The static inputs of the warmup have the padded shapes, and a double drops the
last bit of a large integer. -/
theorem replay_rounds :
    ¬ ∀ (cfg : GraphConfig) (forward : List (Tensor Int) → List (Tensor Int)) (chance : Chance)
      (r per b : Nat) (inner : List Nat) (t0 t1 t2 s0 s1 s2 : Tensor Int) (s : GraphState Int)
      (a : Attempt Int) (e : CudaGraphEntry Int), RequestLocal forward →
      PackedBatch (List.replicate r per) inner t0 t1 t2 →
      attempted cfg forward chance [t0, t1, t2] s = some a → a.copyFrom ≠ none → a.bucket = b →
      a.state.cudaGraphCache.lookup a.key = some e → e.staticInputs = [s0, s1, s2] →
      s0.shape = b :: inner → s1.shape = [b * per] → s2.shape = [b] →
      (executeWithCudaGraph cfg forward chance [t0, t1, t2] s []).value = .ok true →
      (executeWithCudaGraph cfg forward chance [t0, t1, t2] s []).outputs = forward [t0, t1, t2] := by
  intro h
  have hall := h warmedUp repeatRows .smooth 1 1 2 [1] (oneRow 9007199254740993 rfl)
    (.zeros .double .cuda [1]) (.positions .int .cuda 1 1) _ _ _ warmState _ _ requestLocal_repeatRows
    ⟨by decide, by decide, rfl, rfl, rfl, rfl⟩ rfl nofun rfl rfl rfl rfl rfl rfl rfl
  have hdata := congrArg (List.map Tensor.data) hall
  revert hdata
  decide

end TritonAot
