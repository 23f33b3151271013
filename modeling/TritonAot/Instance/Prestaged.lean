import TritonAot.Instance.Lifecycle
import TritonAot.Instance.Packed
import TritonAot.Instance.Slots

/-! A prestaged buffer against the slow path's.

The slow path collects an input with its batched shape, `PadRequestsUp` grows it
from `r` to `b` requests, and `copy_` fills the static buffer. Prestaging writes the
payload over the buffer and zeroes the rest. Viability compares numbers of elements
only. The two leave the same elements exactly where the grown shape is one that
`copy_` takes and the input is not the one that `PadRequestsUp` regenerates. -/
namespace TritonAot

open Dense Slots

variable {E : Type} [Scalars E]

/-- One tensor of a batch at the bucket. -/
def growTo (alloc : Int → Nat → Option String) (per r b i : Nat) (t : Tensor E) :
    Except Fault (Tensor E) :=
  if b = r then .ok t else padTensor alloc per r (b : Int) i t

/-- What the slow path leaves in the static buffer `st` at the index `i`, for the
width that `PadRequestsUp` has computed. -/
def slowBuffer (cfg : Config E) (alloc : Int → Nat → Option String) (requests : List (Request E))
    (info : DeclaredInput) (per r b i : Nat) (st : Tensor E) : Except Fault (Tensor E) := do
  let t ← gatherInput cfg requests info
  let atBucket ← growTo alloc per r b i t
  st.copy_ atBucket

/-- The shape of a batched input at the bucket, if it has room for its rows and an int64 counts them. -/
def bucketShape (r b : Nat) (shape : List Nat) : Option (List Nat) :=
  if b = r then some shape
  else
    match shape with
    | [] => none
    | size :: rest =>
      if size ≤ size / r * b ∧ ((size / r * b : Nat) : Int) ≤ int64Max then some (size / r * b :: rest)
      else none

/-- The two paths agree on a declared input: the batched shape, grown to the bucket, can be
allocated and copied into the buffer, and the elements are padded with zeros. -/
structure Agrees (alloc : Int → Nat → Option String) (info : DeclaredInput) (r b i : Nat) (st : Tensor E) :
    Prop where
  padded : i ≠ 2 ∨ b = r
  allocates : b = r ∨ alloc b i = none
  shape : ∃ shape, bucketShape r b info.batchnShape = some shape ∧ Expands shape st.shape

/-! ### The collected input -/

theorem declared_elements {cfg : Config E} {r : Nat} {requests : List (Request E)} {info : DeclaredInput}
    (h : info ∈ declaredInputs cfg r requests) : info.batchnElements = getElementCount info.batchnShape := by
  unfold declaredInputs at h
  split at h
  · cases h
  · obtain ⟨input, _, rfl⟩ := List.mem_map.mp h
    unfold declareInput
    split <;> rfl

/-- A batch that lines up is not empty, and its elements are as many as its shape says. -/
theorem LinedUp.shape {r b : Nat} {info : DeclaredInput} {st : Tensor E} (h : LinedUp r b info st)
    (he : info.batchnElements = getElementCount info.batchnShape) :
    ∃ size rest, info.batchnShape = size :: rest ∧ info.batchnElements = size * rest.prod := by
  have hpos := h.pos
  cases hs : info.batchnShape with
  | nil =>
    rw [he, hs] at hpos
    cases hpos
  | cons size rest => exact ⟨size, rest, rfl, by rw [he, hs, getElementCount_cons, List.prod_cons]⟩

/-- The slow path's tensor holds the payload. -/
theorem gatherInput_ok (cfg : Config E) {requests : List (Request E)} {info : DeclaredInput}
    {r b : Nat} {st : Tensor E} (hl : LinedUp r b info st)
    (he : info.batchnElements = getElementCount info.batchnShape)
    (hsize : (payload requests info.name).length = info.batchnElements) :
    ∃ t, gatherInput cfg requests info = .ok t ∧ t.shape = info.batchnShape ∧ t.dtype = st.dtype ∧
      t.data = (payload requests info.name).map (Scalars.cast st.dtype) := by
  obtain ⟨size, rest, hs, hn⟩ := hl.shape he
  have hprod : (payload requests info.name).length = info.batchnShape.prod := by
    rw [hsize, hn, hs, List.prod_cons]
  have hne : (payload requests info.name).isEmpty = false := by
    rw [Bool.eq_false_iff, Ne, List.isEmpty_iff]
    intro hnil
    have := hl.pos
    rw [← hsize, hnil] at this
    cases this
  refine ⟨Tensor.ofValues _ cfg.inputDevice _ _ hprod, ?_, rfl, hl.dtype.symm, by rw [hl.dtype]; rfl⟩
  rw [gatherInput, gathered, hne, if_neg (by simp), Tensor.fromBlob, dif_pos hprod]

/-! ### The padded input -/

/-- A grown shape whose extents divide the buffer's has the buffer's number of elements. -/
theorem grown_numel {size inner r b n : Nat} (hb : b ∣ n) (hn : size * inner = r * (n / b))
    (hpos : 0 < size * inner) (hdvd : size / r * b * inner ∣ n) : size / r * b * inner = n := by
  obtain ⟨m, rfl⟩ := hb
  have hsize : 0 < size := Nat.pos_of_mul_pos_right hpos
  have hinner : 0 < inner := Nat.pos_of_mul_pos_left hpos
  have hb : 0 < b := by
    rcases Nat.eq_zero_or_pos b with rfl | hb
    · rw [Nat.zero_mul, Nat.zero_div, Nat.mul_zero] at hn
      omega
    · exact hb
  rw [Nat.mul_div_cancel_left m hb] at hn
  have hr : 0 < r := Nat.pos_of_mul_pos_right (hn ▸ hpos)
  obtain ⟨k, hk⟩ := hdvd
  have hm : m = size / r * inner * k := by
    refine Nat.eq_of_mul_eq_mul_left hb ?_
    rw [hk]
    ring
  -- the quotient is its own multiple, so the multiple is one
  have hq : size = r * (size / r * k) := by
    refine Nat.eq_of_mul_eq_mul_right hinner ?_
    rw [hn, hm]
    ring
  have hdiv : size / r = size / r * k := by
    conv_lhs => rw [hq]
    exact Nat.mul_div_cancel_left _ hr
  have hqpos : 0 < size / r := by
    rcases Nat.eq_zero_or_pos (size / r) with h0 | h0
    · rw [h0, Nat.zero_mul, Nat.mul_zero] at hq
      omega
    · exact h0
  have hk1 : k = 1 := Nat.eq_of_mul_eq_mul_left hqpos (by rw [← hdiv, Nat.mul_one])
  rw [hk, hk1, Nat.mul_one]

/-- Copying elements that fill the destination exactly moves them as they are. -/
theorem copy_fill {st p slow : Tensor E} (h : st.copy_ p = .ok slow) (hn : p.shape.prod = st.shape.prod)
    (hpos : 0 < p.shape.prod) : slow.data = p.data.map (Scalars.cast st.dtype) := by
  obtain ⟨he, _, _, _, hdata⟩ := Tensor.copy_ok h
  rw [hdata, expand_of_prod_eq he hn hpos p.data p.size_eq]

section Paths
variable {cfg : Config E} {alloc : Int → Nat → Option String} {requests : List (Request E)}
  {info : DeclaredInput} {r b i per : Nat} {st filled : Tensor E}

/-- What prestaging leaves: the payload and zeros. -/
structure Staging (requests : List (Request E)) (info : DeclaredInput) (st filled : Tensor E) : Prop where
  dtype : filled.dtype = st.dtype
  shape : filled.shape = st.shape
  data : filled.data = (payload requests info.name).map (Scalars.cast st.dtype) ++
    List.replicate (st.numel - (payload requests info.name).length) Scalars.zero

theorem agrees_slow (hl : LinedUp r b info st)
    (he : info.batchnElements = getElementCount info.batchnShape)
    (hsize : (payload requests info.name).length = info.batchnElements)
    (hf : Staging requests info st filled) (h : Agrees alloc info r b i st) :
    ∃ slow, slowBuffer cfg alloc requests info per r b i st = .ok slow ∧ slow.data = filled.data := by
  obtain ⟨t, ht, hts, htd, htx⟩ := gatherInput_ok cfg hl he hsize
  obtain ⟨size, rest, hs, hn⟩ := hl.shape he
  obtain ⟨shape, hshape, hexp⟩ := h.shape
  have hpos := hl.pos
  by_cases hbr : b = r
  · unfold bucketShape at hshape
    rw [if_pos hbr] at hshape
    cases hshape
    obtain ⟨slow, hslow⟩ := (Tensor.copy_ok_iff st t).mpr (hts ▸ hexp)
    have hfull : info.batchnElements = st.numel := by
      rw [hl.elements, ← hbr]
      exact Nat.mul_div_cancel' hl.numel
    have hprod : t.shape.prod = info.batchnElements := by rw [hts, hn, hs, List.prod_cons]
    refine ⟨slow, bind_ok.mpr ⟨t, ht, bind_ok.mpr ⟨t, if_pos hbr, hslow⟩⟩, ?_⟩
    rw [copy_fill hslow (by rw [hprod, hfull]; rfl) (by rw [hprod]; exact hpos), hf.data, ← htx, ← htd,
      t.map_cast_data, hsize, hfull, Nat.sub_self, List.replicate_zero, List.append_nil]
  · have hi : i ≠ 2 := h.padded.resolve_right hbr
    unfold bucketShape at hshape
    rw [if_neg hbr, hs] at hshape
    simp only at hshape
    split at hshape
    · rename_i hroom
      cases hshape
      have halloc : HasRoom alloc r (b : Int) i t :=
        (hasRoom_iff ⟨rest, hts.trans hs⟩).mpr ⟨h.allocates.resolve_left hbr, hroom⟩
      obtain ⟨p, hp, hg⟩ := padTensor_grown per hi (hts.trans hs) halloc
      obtain ⟨size', rest', hs', hps, _⟩ := hg.shape
      rw [hts, hs] at hs'
      cases hs'
      obtain ⟨slow, hslow⟩ := (Tensor.copy_ok_iff st p).mpr (hps ▸ hexp)
      have hnumel : size / r * b * rest.prod = st.numel := by
        refine grown_numel hl.numel (hn.symm.trans hl.elements) (hn ▸ hpos) ?_
        have := prod_dvd_of_expands hexp
        rwa [List.prod_cons] at this
      have hprod : p.shape.prod = st.numel := by rw [hps, List.prod_cons, hnumel]
      have hst : 0 < st.numel := by
        refine Nat.pos_of_ne_zero fun h0 => ?_
        have := hl.elements
        rw [h0, Nat.zero_div, Nat.mul_zero] at this
        omega
      have hzero : size / r * b * t.inner - t.data.length =
          st.numel - (payload requests info.name).length := by
        rw [Tensor.inner, hts, hs, List.tail_cons, hnumel, htx, List.length_map]
      refine ⟨slow, bind_ok.mpr ⟨t, ht, bind_ok.mpr ⟨p, (if_neg hbr).trans hp, hslow⟩⟩, ?_⟩
      rw [copy_fill hslow (hprod.trans rfl) (hprod ▸ hst), ← htd, ← hg.dtype, p.map_cast_data, hg.data,
        hzero, hf.data, htx]
    · cases hshape

/-- Where the paths leave the same elements they agree, unless the regenerated
positions can be taken for padding. -/
theorem slow_agrees (hrb : r ≤ b) (hl : LinedUp r b info st)
    (he : info.batchnElements = getElementCount info.batchnShape)
    (hsize : (payload requests info.name).length = info.batchnElements)
    (hf : Staging requests info st filled) (hper : 1 ≤ per) (hexact : HoldsUpTo E st.dtype (b * per))
    (h : ∃ slow, slowBuffer cfg alloc requests info per r b i st = .ok slow ∧ slow.data = filled.data) :
    Agrees alloc info r b i st := by
  obtain ⟨t, ht, hts, htd, htx⟩ := gatherInput_ok cfg hl he hsize
  obtain ⟨size, rest, hs, hn⟩ := hl.shape he
  obtain ⟨slow, hslow, hdata⟩ := h
  obtain ⟨t', ht', hslow⟩ := bind_ok.mp hslow
  rw [ht] at ht'
  cases ht'
  obtain ⟨p, hp, hslow⟩ := bind_ok.mp hslow
  obtain ⟨hexp, _, _, _, hsx⟩ := Tensor.copy_ok hslow
  by_cases hbr : b = r
  · rw [growTo, if_pos hbr] at hp
    cases hp
    exact ⟨.inr hbr, .inl hbr, info.batchnShape, if_pos hbr, hts ▸ hexp⟩
  · rw [growTo, if_neg hbr] at hp
    by_cases hi : i = 2
    · -- the last place is zero in one buffer and a position in the other
      exfalso
      subst hi
      obtain rfl := padTensor_positions hp
      have hlt : (payload requests info.name).length < st.numel := by
        rw [hsize, hl.elements]
        have hm : 0 < st.numel / b := by
          refine Nat.pos_of_ne_zero fun h0 => ?_
          have := hl.elements
          have hpos := hl.pos
          rw [h0, Nat.mul_zero] at this
          omega
        calc r * (st.numel / b) < b * (st.numel / b) :=
              Nat.mul_lt_mul_of_pos_right (by omega) hm
          _ = st.numel := Nat.mul_div_cancel' hl.numel
      have hzero : (Scalars.zero : E) ∈ slow.data := by
        rw [hdata, hf.data]
        exact List.mem_append_right _ (List.mem_replicate.mpr ⟨by omega, rfl⟩)
      rw [hsx] at hzero
      obtain ⟨x, hx, hx0⟩ := List.mem_map.mp hzero
      have hpos := mem_expand _ _ _ x hx
      obtain ⟨y, hy, rfl⟩ := List.mem_map.mp hpos
      obtain ⟨j, hj, rfl⟩ := List.mem_map.mp hy
      have hle : (j + 1) * per ≤ b * per := Nat.mul_le_mul_right per (List.mem_range.mp hj)
      rw [htd, hexact _ hle, hexact _ hle] at hx0
      have hnat : ((j + 1) * per : Nat) = 0 := by exact_mod_cast Scalars.ofInt_injective hx0
      rcases Nat.mul_eq_zero.mp hnat with h0 | h0 <;> omega
    · obtain ⟨halloc, hroom⟩ := (hasRoom_iff ⟨rest, hts.trans hs⟩).mp (padTensor_room hi hp)
      obtain ⟨size', rest', hs', hps, _⟩ := (padTensor_ok hi (hts.trans hs) hp).shape
      rw [hts, hs] at hs'
      cases hs'
      refine ⟨.inl hi, .inr halloc, size / r * b :: rest, ?_, hps ▸ hexp⟩
      unfold bucketShape
      rw [if_neg hbr, hs]
      exact if_pos hroom

end Paths

/-! ### A prestaged batch -/

/-- What a prestaged pass 2 leaves in the buffer of a declared input that is the last
to be written there. -/
theorem fillAll_staging {cfg : Config E} {requests : List (Request E)} {r b : Nat}
    {before after : List DeclaredInput} {info : DeclaredInput} {e : CudaGraphEntry E}
    {statics : List (Tensor E)} (hv : Viable cfg (before ++ info :: after) r b e)
    (h : fillAll cfg requests r b (before ++ info :: after) e.staticInputs = .ok statics)
    (hlast : ∀ other ∈ after, cfg.indexOf other.name ≠ cfg.indexOf info.name)
    (hsize : (payload requests info.name).length = info.batchnElements) :
    ∃ i : Nat, ∃ st filled, cfg.indexOf info.name = i ∧ e.staticInputs[i]? = some st ∧
      statics[i]? = some filled ∧ LinedUp r b info st ∧ Staging requests info st filled := by
  obtain ⟨i, st, hi, hst, hl⟩ := hv.declared info (List.mem_append_right _ (List.mem_cons_self ..))
  have hindex : cfg.indexOf info.name = i := by rw [Config.indexOf, hi, Option.getD_some]
  obtain ⟨writes, hwrites, rfl⟩ := fillAll_writes h
  obtain ⟨vs, w, us, rfl, hw, hus⟩ := forall₂_split hwrites
  obtain ⟨k, filled⟩ := w
  obtain rfl : k = i := by exact_mod_cast hw.index.symm.trans hindex
  obtain ⟨j, st', mid, hj, hst', hmid, hfill⟩ := hw.value
  obtain rfl : j = k := by exact_mod_cast hj.symm.trans hindex
  rw [hst] at hst'
  cases hst'
  rw [← hsize, List.take_length] at hfill
  obtain ⟨filled', hfill', hd, _, hs, hdata⟩ := fillStatic_ok hv.le (hl.of_like hmid) hsize
  rw [hfill] at hfill'
  cases hfill'
  refine ⟨j, st, filled, hindex, hst, writeAll_last (fun w hw' he => ?_) hw.lt, hl, ?_⟩
  · obtain ⟨other, hother, hwrote⟩ := exists_left_of_mem hus hw'
    exact hlast other hother (hwrote.index.trans (by rw [he, hindex]))
  · refine ⟨hd.trans hmid.dtype, hs.trans hmid.shape, ?_⟩
    rw [hdata, hmid.dtype, Tensor.numel, hmid.shape]
    rfl

/-- The slow path leaves the elements that prestaging left. -/
def LeavesSame (cfg : Config E) (alloc : Int → Nat → Option String) (requests : List (Request E))
    (info : DeclaredInput) (per r b i : Nat) (st filled : Tensor E) : Prop :=
  ∃ slow, slowBuffer cfg alloc requests info per r b i st = .ok slow ∧ slow.data = filled.data

/-- **A prestaged buffer is the slow path's exactly where the two agree on the input**:
its shape at the bucket can be made and copied into the buffer, and it is not regenerated. -/
theorem prestaged_leavesSame_iff {cfg : Config E} {chance : InputChance} {r : Nat}
    {requests : List (Request E)} {s : GraphState E} {responses : Responses} {c : Collecting E}
    {key : String} {before after : List DeclaredInput} {info : DeclaredInput}
    (h : setInputTensors cfg chance r requests s responses = .ok (c, none))
    (hkept : c.state.prestagedEntry = some key)
    (hdeclared : declaredInputs cfg r requests = before ++ info :: after)
    (hlast : ∀ other ∈ after, cfg.indexOf other.name ≠ cfg.indexOf info.name)
    (hsize : (payload requests info.name).length = info.batchnElements) :
    ∃ (i b : Nat) (e e' : CudaGraphEntry E) (st filled : Tensor E), cfg.indexOf info.name = i ∧
      s.prestagedBucket = b ∧ s.cudaGraphCache.lookup key = some e ∧ e.staticInputs[i]? = some st ∧
      c.state.cudaGraphCache.lookup key = some e' ∧ e'.staticInputs[i]? = some filled ∧
      ∀ alloc per, (Agrees alloc info r b i st → LeavesSame cfg alloc requests info per r b i st filled) ∧
        (1 ≤ per → HoldsUpTo E st.dtype (b * per) →
          (LeavesSame cfg alloc requests info per r b i st filled ↔ Agrees alloc info r b i st)) := by
  have helements : info.batchnElements = getElementCount info.batchnShape :=
    declared_elements (hdeclared ▸ List.mem_append_right _ (List.mem_cons_self ..))
  cases setInputTensors_slots h with
  | beside hnone =>
    rw [hnone] at hkept
    cases hkept
  | @into key' b e statics hpre hbucket he hviable hfill hrest =>
    rw [hrest.prestaged, hpre] at hkept
    cases hkept
    rw [hdeclared] at hviable hfill
    obtain ⟨i, st, filled, hi, hst, hfilled, hl, hs⟩ := fillAll_staging hviable hfill hlast hsize
    refine ⟨i, b, e, _, st, filled, hi, hbucket, he, hst, hrest.entry, hfilled,
      fun alloc per => ?_⟩
    have hagrees : Agrees alloc info r b i st → LeavesSame cfg alloc requests info per r b i st filled :=
      agrees_slow hl helements hsize hs
    exact ⟨hagrees, fun hper hexact =>
      ⟨slow_agrees hviable.le hl helements hsize hs hper hexact, hagrees⟩⟩

/-- A model with three declared inputs, and a bucket of two requests captured at load. -/
def declaredConfig : Config Int := {warmPackedConfig with batchInputs := [], batchInputCount := 0}

/-- One request that says itself where it ends. -/
def endingRequest : Request Int :=
  ⟨[onesInput "SINGLE__0" .fp64 [1, 1], onesInput "MULTIPLE__1" .fp64 [1, 1],
    onesInput "ENDS__2" .int32 [1]]⟩

/-- The state in which the batch of that request is collected. -/
def endingState : GraphState Int := prestage declaredConfig 1 false (loaded declaredConfig id fun _ => some true)

theorem prestaged_leavesSame_first : ∃ c st filled,
    setInputTensors declaredConfig .smooth 1 [endingRequest] endingState ⟨[], []⟩ = .ok (c, none) ∧
      c.state.prestagedEntry = some "R=2" ∧
      LeavesSame declaredConfig (fun _ _ => none) [endingRequest] ⟨"SINGLE__0", .fp64, [1, 1], 1, true⟩ 1 1 2 0
        st filled := by
  have hset : setInputTensors declaredConfig .smooth 1 [endingRequest] endingState ⟨[], []⟩ =
    .ok (_, none) := rfl
  have hdeclared : declaredInputs declaredConfig 1 [endingRequest] =
    [] ++ ⟨"SINGLE__0", .fp64, [1, 1], 1, true⟩ :: _ := rfl
  obtain ⟨i, b, e, e', st, filled, hi, hb, he, hst, _, _, hall⟩ :=
    prestaged_leavesSame_iff hset (show _ = some "R=2" from rfl) hdeclared (by decide) rfl
  cases hi
  cases hb
  cases he
  cases hst
  exact ⟨_, _, filled, hset, rfl, (hall _ 1).1 ⟨.inl (by decide), .inr rfl, [2, 1], rfl, by decide⟩⟩

/-- Where it ends is zeroed behind the request, and counted on by `PadRequestsUp`. -/
theorem ends_zeroed :
    ¬ ∀ (cfg : Config Int) (alloc : Int → Nat → Option String) (chance : InputChance) (r : Nat) (requests : List (Request Int))
      (s : GraphState Int) (responses : Responses) (c : Collecting Int) (key : String)
      (before after : List DeclaredInput) (info other : DeclaredInput) (i b : Nat)
      (e e' : CudaGraphEntry Int) (st filled : Tensor Int),
      setInputTensors cfg chance r requests s responses = .ok (c, none) →
      c.state.prestagedEntry = some key → declaredInputs cfg r requests = before ++ info :: after →
      (∀ other ∈ after, cfg.indexOf other.name ≠ cfg.indexOf info.name) →
      (payload requests info.name).length = info.batchnElements →
      other ∈ declaredInputs cfg r requests → cfg.indexOf other.name = 1 →
      cfg.indexOf info.name = i → s.prestagedBucket = b → s.cudaGraphCache.lookup key = some e →
      e.staticInputs[i]? = some st → c.state.cudaGraphCache.lookup key = some e' →
      e'.staticInputs[i]? = some filled →
      LeavesSame cfg alloc requests info (other.batchnElements / r) r b i st filled := by
  intro h
  have hset : setInputTensors declaredConfig .smooth 1 [endingRequest] endingState ⟨[], []⟩ =
    .ok (_, none) := rfl
  have hdeclared : declaredInputs declaredConfig 1 [endingRequest] =
    [_, _] ++ ⟨"ENDS__2", .int32, [1], 1, true⟩ :: [] := rfl
  obtain ⟨slow, hslow, hdata⟩ := h _ (fun _ _ => none) _ _ _ _ _ _ "R=2" _ _ _ ⟨"MULTIPLE__1", .fp64, [1], 1, true⟩ 2 2
    _ _ _ _ hset rfl hdeclared (by decide) rfl (List.mem_cons_of_mem _ (List.mem_cons_self ..)) rfl rfl rfl rfl rfl rfl
    rfl
  cases hslow
  revert hdata
  decide

end TritonAot
