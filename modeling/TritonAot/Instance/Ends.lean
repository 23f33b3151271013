import TritonAot.Graph.Ends
import TritonAot.Instance.Counts
import TritonAot.Instance.Replays

/-! The positions a prestaged batch is replayed with.

A prestaged batch is collected into the static inputs of its entry, all but the
batch input's, which is taken to say the same for every batch of the bucket. So it
does as long as every batch copied there at its own size is even (`EvenAtBucket`):
then a prestaged replay ends each request where the batch does, and goes on with the
same width (`EndsOwn`). -/
namespace TritonAot

open Packed Slots Steps

variable {E : Type} [Scalars E]

/-! ### What pass 1 says of the ragged input -/

theorem raggedCounts_from (first : Nat) (uniform : Bool) (total : Nat) (counts : List Nat) :
    raggedCounts first uniform total counts = (uniform && counts.all (· = first), total + counts.sum) := by
  induction counts generalizing uniform total with
  | nil => rw [raggedCounts, List.all_nil, Bool.and_true, List.sum_nil, Nat.add_zero]
  | cons c rest ih =>
    have hsame : decide ((c : Int) = first) = decide (c = first) := decide_eq_decide.mpr Int.natCast_inj
    rw [raggedCounts, if_neg (by omega), ih, List.all_cons, List.sum_cons, hsame, Bool.and_assoc,
      Nat.add_assoc]

/-- The counts are added up, and found uniform where they are all equal. -/
theorem raggedCounts_eq (counts : List Nat) : (raggedCounts (-1) true 0 counts).2 = counts.sum ∧
    ((raggedCounts (-1) true 0 counts).1 = true → Uniform counts) := by
  cases counts with
  | nil => exact ⟨rfl, fun _ c hc => absurd hc List.not_mem_nil⟩
  | cons w rest =>
    rw [raggedCounts, if_pos (by decide), raggedCounts_from]
    refine ⟨by rw [List.sum_cons, Nat.zero_add], fun h => ?_⟩
    have hall : ∀ c ∈ w :: rest, c = w := by
      simpa using h
    exact fun c hc c' hc' => (hall c hc).trans (hall c' hc').symm

theorem declareInput_ragged {cfg : Config E} {total : Nat} {requests : List (Request E)}
    {input : RequestInput E} (h : cfg.isInputRagged input.name = true) :
    let info := declareInput cfg total requests input
    let counts := elementCounts input.name requests
    info.batchnShape = [counts.sum] ∧ info.batchnElements = counts.sum ∧
      (info.raggedUniform = true → Uniform counts) := by
  obtain ⟨hsum, huniform⟩ := raggedCounts_eq (elementCounts input.name requests)
  simp only [declareInput, h, if_true]
  refine ⟨?_, ?_, huniform⟩
  · rw [← hsum]
    rfl
  · rw [getElementCount_singleton, ← hsum]
    rfl

theorem declared_name {cfg : Config E} {total : Nat} {requests : List (Request E)} {info : DeclaredInput}
    (h : info ∈ declaredInputs cfg total requests) :
    ∃ q ∈ requests, ∃ input ∈ q.inputs, info = declareInput cfg total requests input ∧
      info.name = input.name := by
  unfold declaredInputs at h
  split at h
  · cases h
  · rename_i first rest
    obtain ⟨input, hinput, rfl⟩ := List.mem_map.mp h
    exact ⟨first, List.mem_cons_self .., input, hinput, rfl, declareInput_name ..⟩

/-! ### The layout's places -/

theorem indexOf_pos {cfg : Config E} {name : String} {i : Int} (hi : i ≠ 0) (h : cfg.indexOf name = i) :
    cfg.inputIndexMap name = some i := by
  unfold Config.indexOf at h
  cases hm : cfg.inputIndexMap name with
  | none => rw [hm] at h; exact absurd h.symm hi
  | some j => rw [hm] at h; rw [← h]; rfl

namespace PackedLayout
variable {cfg : Config E} {single multiple position : String} {bi : BatchInput}

theorem targets (h : PackedLayout cfg single multiple position bi) :
    cfg.batchInputTargets = [(bi, position)] := by
  rw [Config.batchInputTargets, h.batchInputs, List.flatMap_cons, List.flatMap_nil, h.target]
  rfl

theorem index_position (h : PackedLayout cfg single multiple position bi) : cfg.indexOf position = 2 := by
  rw [Config.indexOf, (h.positionAt position).mpr rfl, Option.getD_some]

/-- The declared input at index one is the ragged one. -/
theorem declared_multiple (h : PackedLayout cfg single multiple position bi) {total : Nat}
    {requests : List (Request E)} {info : DeclaredInput} (hinfo : info ∈ declaredInputs cfg total requests)
    (hindex : cfg.indexOf info.name = 1) :
    let counts := elementCounts multiple requests
    info.batchnShape = [counts.sum] ∧ info.batchnElements = counts.sum ∧
      (info.raggedUniform = true → Uniform counts) := by
  obtain ⟨_, _, input, _, hdecl, hname⟩ := declared_name hinfo
  have hmultiple : input.name = multiple :=
    hname ▸ (h.multipleAt info.name).mp (indexOf_pos (by decide) hindex)
  rw [hdecl, ← hmultiple]
  exact declareInput_ragged ((h.ragged _).mpr hmultiple)

/-- No declared input has the place of the batch input, where none has its name. -/
theorem declared_ne_two (h : PackedLayout cfg single multiple position bi) {total : Nat}
    {requests : List (Request E)} (hnames : ∀ q ∈ requests, ∀ input ∈ q.inputs, input.name ≠ position) :
    ∀ info ∈ declaredInputs cfg total requests, cfg.indexOf info.name ≠ 2 := by
  intro info hinfo hindex
  obtain ⟨q, hq, input, hinput, _, hname⟩ := declared_name hinfo
  exact hnames q hq input hinput
    (hname ▸ (h.positionAt info.name).mp (indexOf_pos (by decide) hindex))

/-- The value of the batch input. -/
theorem gathered_position (h : PackedLayout cfg single multiple position bi) {requests : List (Request E)}
    {t : Tensor E} (ht : gatherBatchInput cfg requests bi = .ok t) :
    t.shape = [(elementCounts multiple requests).length] ∧
      t.dtype = (convertDataTypeToTorchType bi.dataType).2 ∧
      HoldsCounts t (ends (elementCounts multiple requests)) := by
  unfold gatherBatchInput at ht
  rw [h.values, accumulatedElementCount, h.source] at ht
  obtain ⟨hd, hs, hdata⟩ := gathered_ok ht
  have hlen : (elementCounts multiple requests).length = requests.length := List.length_map _
  refine ⟨by rw [hs, hlen], hd, ?_⟩
  rw [HoldsCounts, hd]
  refine hdata ?_
  rw [asElements, List.length_map, length_ends, List.prod_singleton]
  exact hlen

end PackedLayout

/-! ### The model inputs of a batch -/

section Inputs
variable {cfg : Config E} {single multiple position : String} {bi : BatchInput}
  {requests : List (Request E)} {total : Nat} {tensors : List (Option (Tensor E))} {t0 t1 t2 : Tensor E}

/-- A batch that is collected on its own. -/
theorem SlotsBeside.counted (layout : PackedLayout cfg single multiple position bi)
    (hnames : ∀ q ∈ requests, ∀ input ∈ q.inputs, input.name ≠ position)
    (h : SlotsBeside cfg requests (declaredInputs cfg total requests) tensors)
    (htensors : tensors = [t0, t1, t2].map some) :
    CountedBatch (elementCounts multiple requests) t1 t2 ∧
      t2.dtype = (convertDataTypeToTorchType bi.dataType).2 := by
  obtain ⟨ws, vs, hws, hvs, hw⟩ := h.writes
  rw [layout.targets] at hvs
  have h1 : t1.shape = [(elementCounts multiple requests).sum] := by
    rcases slot_written hws hvs (htensors.symm.trans hw) (show [t0, t1, t2][1]? = some t1 from rfl) with
      ⟨info, hinfo, hindex, t, ht, hgather⟩ | ⟨target, htarget, hindex, _⟩
    · cases ht
      exact (gathered_shape hgather).trans (layout.declared_multiple hinfo hindex).1
    · rw [List.mem_singleton.mp htarget, layout.index_position] at hindex
      cases hindex
  rcases slot_written hws hvs (htensors.symm.trans hw) (show [t0, t1, t2][2]? = some t2 from rfl) with
    ⟨info, hinfo, hindex, _⟩ | ⟨target, htarget, _, t, ht, hgather⟩
  · exact absurd hindex (layout.declared_ne_two hnames info hinfo)
  · cases ht
    rw [List.mem_singleton.mp htarget] at hgather
    obtain ⟨hs, hd, hends⟩ := layout.gathered_position hgather
    exact ⟨⟨h1, hs, hends⟩, hd⟩

/-- A lined-up buffer has rows for each request. -/
theorem LinedUp.row_pos {r b size : Nat} {rest : List Nat} {info : DeclaredInput} {st : Tensor E}
    (hl : LinedUp r b info st) (hrb : r ≤ b) (hs : st.shape = size :: rest) : 0 < size / b := by
  have hpos := hl.pos
  rw [← (hl.rows hrb hs).1] at hpos
  exact Nat.pos_of_mul_pos_left (Nat.pos_of_mul_pos_right hpos)

/-- The buffer that a declared input lines up with is the one at its index. -/
theorem Viable.linedUp {declared : List DeclaredInput} {r b i : Nat} {e : CudaGraphEntry E}
    {info : DeclaredInput} {st : Tensor E} (h : Viable cfg declared r b e) (hinfo : info ∈ declared)
    (hi : cfg.indexOf info.name = i) (hst : e.staticInputs[i]? = some st) : LinedUp r b info st := by
  obtain ⟨j, st', hj, hst', hl⟩ := h.declared info hinfo
  have hij : j = i := by
    rw [Config.indexOf, hj, Option.getD_some] at hi
    exact_mod_cast hi
  subst hij
  rw [hst] at hst'
  cases hst'
  exact hl

/-- A model input but the third is a view of the buffer that its declared input lines up with. -/
theorem SlotsInto.view_of_declared {b : Nat} {e : CudaGraphEntry E} {statics : List (Tensor E)}
    (layout : PackedLayout cfg single multiple position bi)
    (hviable : Viable cfg (declaredInputs cfg total requests) total b e)
    (h : SlotsInto cfg total b (declaredInputs cfg total requests) e.staticInputs statics tensors)
    (htensors : tensors = [t0, t1, t2].map some) {i : Nat} {t : Tensor E} (hi : i ≠ 2)
    (ht : [t0, t1, t2][i]? = some t) :
    ∃ info ∈ declaredInputs cfg total requests, cfg.indexOf info.name = i ∧
      ∃ st size rest, e.staticInputs[i]? = some st ∧ LinedUp total b info st ∧ st.shape = size :: rest ∧
        t.shape = total * (size / b) :: rest := by
  obtain ⟨ws, vs, hws, hvs, hw⟩ := h.writes
  rw [layout.targets] at hvs
  rcases slot_written hws hvs (htensors.symm.trans hw) ht with
    ⟨info, hinfo, hindex, j, st, mid, t', hj, hst, hlike, hv, ht'⟩ | ⟨target, htarget, hindex, _⟩
  · cases ht'
    obtain rfl : j = i := by exact_mod_cast hj.symm.trans hindex
    have hl := hviable.linedUp hinfo hj hst
    obtain ⟨size, rest, hs, _⟩ := hl.size
    exact ⟨info, hinfo, hindex, st, size, rest, hst, hl, hs, (prestagedView_some (hlike.shape.trans hs) hv).2.1⟩
  · rw [List.mem_singleton.mp htarget, layout.index_position] at hindex
    exact absurd (by exact_mod_cast hindex.symm) hi

/-- The third is a view of the position buffer. -/
theorem SlotsInto.view_of_position {b : Nat} {e : CudaGraphEntry E} {statics : List (Tensor E)}
    (layout : PackedLayout cfg single multiple position bi)
    (hnames : ∀ q ∈ requests, ∀ input ∈ q.inputs, input.name ≠ position)
    (h : SlotsInto cfg total b (declaredInputs cfg total requests) e.staticInputs statics tensors)
    (htensors : tensors = [t0, t1, t2].map some) :
    ∃ st, statics[2]? = some st ∧ prestagedView total b st = .ok t2 := by
  obtain ⟨ws, vs, hws, hvs, hw⟩ := h.writes
  rw [layout.targets] at hvs
  rcases slot_written hws hvs (htensors.symm.trans hw) (show [t0, t1, t2][2]? = some t2 from rfl) with
    ⟨info, hinfo, hindex, _⟩ | ⟨target, htarget, hindex, i, st, t, hi, hst, hv, ht⟩
  · exact absurd hindex (layout.declared_ne_two hnames info hinfo)
  · cases ht
    obtain rfl : i = 2 := by exact_mod_cast hi.symm.trans hindex
    exact ⟨st, hst, hv⟩

/-- A batch that is collected into even buffers: its requests have the width of the
buffers, and the views say where they end. -/
theorem SlotsInto.counted {d : ScalarType} {b : Nat} {e : CudaGraphEntry E} {statics : List (Tensor E)}
    (layout : PackedLayout cfg single multiple position bi)
    (hnames : ∀ q ∈ requests, ∀ input ∈ q.inputs, input.name ≠ position)
    (hlen : total = requests.length)
    (hviable : Viable cfg (declaredInputs cfg total requests) total b e)
    (heven : EvenEnds d b e.staticInputs) (hkept : statics[2]? = e.staticInputs[2]?)
    (h : SlotsInto cfg total b (declaredInputs cfg total requests) e.staticInputs statics tensors)
    (htensors : tensors = [t0, t1, t2].map some) :
    CountedBatch (elementCounts multiple requests) t1 t2 ∧ Passes E d t2.dtype ∧
      requestCount t0 t1 t2 = .ok total ∧ ∃ buffer width, statics[2]? = some buffer ∧
        HoldsCounts buffer (evenEnds width b) ∧ ∀ c ∈ elementCounts multiple requests, c = width := by
  obtain ⟨front, packed, buffer, width, hstatics, hm, hp, hends, hpass⟩ := heven.buffers
  have hb : 0 < b := Nat.lt_of_lt_of_le hviable.pos hviable.le
  have hcounts : (elementCounts multiple requests).length = total := by
    rw [hlen, elementCounts, List.length_map]
  -- the rows
  obtain ⟨size, rest, hs0, hrows⟩ : ∃ size rest, t0.shape = total * (size / b) :: rest ∧ 0 < size / b := by
    obtain ⟨info, _, _, st, size, rest, _, hl, hs, ht⟩ :=
      h.view_of_declared layout hviable htensors (show 0 ≠ 2 by decide) rfl
    exact ⟨size, rest, ht, hl.row_pos hviable.le hs⟩
  -- the elements
  obtain ⟨hs1, hsum, hwide, huniform⟩ : t1.shape = [total * width] ∧
      (elementCounts multiple requests).sum = total * width ∧ 0 < width ∧
      Uniform (elementCounts multiple requests) := by
    obtain ⟨info, hinfo, hindex, st, n, rest', hst, hl, hs, ht⟩ :=
      h.view_of_declared layout hviable htensors (show 1 ≠ 2 by decide) rfl
    have hwide := hl.row_pos hviable.le hs
    rw [hstatics] at hst
    cases hst
    rw [hm] at hs
    cases hs
    obtain ⟨_, helements, huniform⟩ := layout.declared_multiple hinfo hindex
    have hn := hl.elements
    rw [Tensor.numel, hm, List.prod_singleton, Nat.mul_div_cancel_left _ hb] at hn
    rw [Nat.mul_div_cancel_left _ hb] at ht hwide
    exact ⟨ht, helements.symm.trans hn, hwide, huniform hl.uniform⟩
  have hall : ∀ c ∈ elementCounts multiple requests, c = width := by
    intro c hc
    have hsame := sum_of_all fun c' hc' => huniform c' hc' c hc
    rw [hsum, hcounts] at hsame
    exact (Nat.eq_of_mul_eq_mul_left hviable.pos hsame).symm
  -- the positions
  obtain ⟨hs2, hd2, hends2⟩ : t2.shape = [total] ∧ t2.dtype = buffer.dtype ∧
      HoldsCounts t2 (evenEnds width total) := by
    obtain ⟨st, hst, hv⟩ := h.view_of_position layout hnames htensors
    rw [hkept, hstatics] at hst
    cases hst
    obtain ⟨hd, hs, hdata⟩ := prestagedView_some hp hv
    rw [Nat.div_self hb, Nat.mul_one] at hs hdata
    refine ⟨hs, hd, ?_⟩
    rw [HoldsCounts, hdata, hends, hd, List.prod_nil, Nat.mul_one, ← List.map_take, take_asElements,
      take_evenEnds hviable.le]
  refine ⟨⟨by rw [hs1, hsum], by rw [hs2, hcounts], ?_⟩, hd2 ▸ hpass, ?_, buffer, width, ?_, hends, hall⟩
  · rw [ends_eq_evenEnds.mpr hall, hcounts]
    exact hends2
  · refine bind_ok.mpr ⟨_, Tensor.size0_of_shape hs0, bind_ok.mpr ⟨_, Tensor.size0_of_shape hs1,
      bind_ok.mpr ⟨_, Tensor.size0_of_shape hs2, ?_⟩⟩⟩
    have h0 : total ≤ total * (size / b) := Nat.le_mul_of_pos_right _ hrows
    have h1 : total ≤ total * width := Nat.le_mul_of_pos_right _ hwide
    rw [Nat.min_eq_right (Nat.le_min.mpr ⟨h0, h1⟩)]
  · rw [hkept, hstatics]
    rfl

end Inputs

/-! ### Even buffers over a call -/

/-- A buffer that no declared input is mapped to is left as it is. -/
theorem fillAll_kept {cfg : Config E} {requests : List (Request E)} {r : Nat} {bucket : Int}
    {declared : List DeclaredInput} {statics statics' : List (Tensor E)}
    (h : fillAll cfg requests r bucket declared statics = .ok statics') {i : Nat}
    (hi : ∀ info ∈ declared, cfg.indexOf info.name ≠ i) : statics'[i]? = statics[i]? := by
  obtain ⟨writes, hwrites, rfl⟩ := fillAll_writes h
  refine writeAll_other (fun w hw hwi => ?_) statics
  obtain ⟨info, hinfo, hwrote⟩ := exists_left_of_mem hwrites hw
  exact hi info hinfo (hwi ▸ hwrote.index)

theorem EvenEnds.of_like {d : ScalarType} {b : Nat} {statics statics' : List (Tensor E)}
    (h : EvenEnds d b statics) (hlike : AllLike statics' statics) (hkept : statics'[2]? = statics[2]?) :
    EvenEnds d b statics' := by
  obtain ⟨front, packed, buffer, width, rfl, hm, hp, hends, hpass⟩ := h.buffers
  obtain ⟨u0, _, _, hrest, rfl⟩ := List.forall₂_cons_right_iff.mp hlike
  obtain ⟨u1, _, hu1, hlast, rfl⟩ := List.forall₂_cons_right_iff.mp hrest
  obtain ⟨u2, _, _, hnil, rfl⟩ := List.forall₂_cons_right_iff.mp hlast
  cases hnil
  obtain rfl : u2 = buffer := Option.some.inj hkept
  exact ⟨u0, u1, u2, width, rfl, hu1.shape.trans hm, hp, hends, hpass⟩

/-- Collecting a batch keeps the position buffers: none of its inputs has their place. -/
theorem evenEnds_setInputTensors {d : ScalarType} {cfg : Config E} {chance : InputChance} {total : Nat}
    {requests : List (Request E)} {s : GraphState E} {responses : Responses} {c : Collecting E}
    {error : Option TritonError} (hs : Entries (EvenEnds d) s.cudaGraphCache)
    (hplace : ∀ info ∈ declaredInputs cfg total requests, cfg.indexOf info.name ≠ 2)
    (h : setInputTensors cfg chance total requests s responses = .ok (c, error)) :
    Entries (EvenEnds d) c.state.cudaGraphCache := by
  rcases setInputTensors_staged h with heq | hstaged
  · rw [heq]
    exact hs
  · cases hstaged with
    | beside _ hsame =>
      rcases hsame with heq | heq
      · rw [heq]
        exact hs
      · rw [heq]
        exact hs
    | @into key b e statics _ _ he _ hfill hrest =>
      have hlike := fillAll_like hfill
      have hkept := fillAll_kept hfill hplace
      intro n e' hn he'
      by_cases hk : bucketKey n = key
      · rw [hk, hrest.entry] at he'
        cases he'
        exact (hs n e hn (hk ▸ he)).of_like hlike hkept
      · rw [hrest.others _ hk] at he'
        exact hs n e' hn he'

/-! ### The rule -/

/-- The rule: no request has an input named like the target of the batch input; a
prestaged batch has every model input, and its requests have batch size one; and a batch
that is collected on its own, where it comes to a replay at its own size, is even for the
buffers of the entry. -/
structure EvenAtBucket (cfg : Config E) (forward : List (Tensor E) → List (Tensor E))
    (multiple position : String) (s : GraphState E) (call : Call E) : Prop where
  names : ∀ requests, call.requests.mapM id = some requests → ∀ q ∈ requests, ∀ input ∈ q.inputs,
    input.name ≠ position
  complete : ∀ requests total c, Gathers cfg s call requests total c → c.state.prestagedEntry ≠ none →
    none ∉ c.tensors
  sizes : ∀ requests total c inputs, Collects cfg s call requests total c inputs →
    c.state.prestagedEntry ≠ none → ∀ q ∈ requests, requestBatchSize cfg q = 1
  even : ∀ requests total c inputs a e, Collects cfg s call requests total c inputs →
    c.state.prestagedEntry = none →
    attempted cfg.toGraphConfig forward call.chance.graph inputs c.state = some a → a.bucket = a.r →
    a.state.cudaGraphCache.lookup a.key = some e →
    EvenInto (elementCounts multiple requests) a.r inputs e.staticInputs

/-- A prestaged replay ends each request where the batch does, and the slots behind the
batch go on with the same width. -/
def EndsOwn (counts : List Nat) (x : Replay E) : Prop :=
  x.copyFrom = none → x.r = counts.length ∧ ∃ (b : Nat) (buffer : Tensor E) (width : Nat),
    x.bucket = b ∧ counts.length ≤ b ∧ x.statics[2]? = some buffer ∧ (∀ c ∈ counts, c = width) ∧
    HoldsCounts buffer (ends (counts ++ List.replicate (b - counts.length) width))

section Run
variable {cfg : Config E} {forward : List (Tensor E) → List (Tensor E)} {single multiple position : String}
  {bi : BatchInput} {s s' : GraphState E} {call : Call E} {d : ScalarType}

/-- What a batch that stays prestaged is, over even buffers. -/
theorem Collects.evenCounts (layout : PackedLayout cfg single multiple position bi)
    (hs : Entries (EvenEnds d) s.cudaGraphCache) (hrule : EvenAtBucket cfg forward multiple position s call)
    {requests : List (Request E)} {total : Nat} {c : Collecting E} {t0 t1 t2 : Tensor E} {key : String}
    (hc : Collects cfg s call requests total c [t0, t1, t2]) (hkey : c.state.prestagedEntry = some key) :
    CountedBatch (elementCounts multiple requests) t1 t2 ∧ Passes E d t2.dtype ∧
      requestCount t0 t1 t2 = .ok requests.length ∧
      ∃ (b : Nat) (e : CudaGraphEntry E) (buffer : Tensor E) (width : Nat), c.state.prestagedBucket = b ∧
        requests.length ≤ b ∧ c.state.cudaGraphCache.lookup key = some e ∧
        e.staticInputs[2]? = some buffer ∧ HoldsCounts buffer (evenEnds width b) ∧
        ∀ n ∈ elementCounts multiple requests, n = width := by
  have hnames := hrule.names requests hc.present
  have htotal : total = requests.length := by
    obtain ⟨a, hcount, haccepted⟩ := hc.counted
    obtain ⟨_, hsum⟩ := countFrom_sum hcount haccepted
    have hone := hrule.sizes _ _ _ _ hc (by rw [hkey]; nofun)
    have hall : ∀ n ∈ requests.map (requestBatchSize cfg), n = 1 := fun n hn => by
      obtain ⟨q, hq, rfl⟩ := List.mem_map.mp hn
      exact hone q hq
    rw [hsum, Nat.zero_add, sum_of_all hall, List.length_map, Nat.mul_one]
  obtain ⟨responses, hcollect⟩ := hc.collected
  cases setInputTensors_slots hcollect with
  | beside hnone =>
    rw [hnone] at hkey
    cases hkey
  | @into key' b e statics hpre hb he hviable hfill hrest hslots =>
    rw [hrest.prestaged, hpre] at hkey
    cases hkey
    have hpos : 0 < b := Nat.lt_of_lt_of_le hviable.pos hviable.le
    have hentry : EvenEnds d b e.staticInputs := by
      have hbucket := (findReady_found (prestage_ready hpre)).1
      rw [hb] at hbucket
      rw [prestage_cache, hbucket] at he
      exact hs b e hpos he
    have hkept := fillAll_kept hfill (layout.declared_ne_two hnames)
    obtain ⟨hcounted, hpass, hr, buffer, width, hbuffer, hends, hall⟩ :=
      hslots.counted layout hnames htotal hviable hentry hkept (mapM_id_eq_some hc.complete)
    rw [htotal] at hr
    exact ⟨hcounted, hpass, hr, b, _, buffer, width, hrest.bucket.trans hb, htotal ▸ hviable.le, hrest.entry,
      hbuffer, hends, hall⟩

/-- A call keeps the position buffers even. -/
theorem evenEnds_serves (layout : PackedLayout cfg single multiple position bi)
    (hd : (convertDataTypeToTorchType bi.dataType).2 = d)
    (hs : Entries (EvenEnds d) s.cudaGraphCache) (hrule : EvenAtBucket cfg forward multiple position s call)
    (h : Serves cfg forward s call s') : Entries (EvenEnds d) s'.cudaGraphCache := by
  obtain ⟨hserved, rfl⟩ := h
  rcases processRequests_reached hserved with ⟨heq, _⟩ | ⟨requests, total, a, hpresent, hcount, htotal, hreached⟩
  · rw [heq]
    exact hs
  · have hnames := hrule.names requests hpresent
    have hready : ∀ failed, Entries (EvenEnds d) (prestage cfg total failed s).cudaGraphCache := fun failed => by
      rw [prestage_cache]
      exact hs
    generalize call.served.events = events at hreached
    generalize call.served.state = last at hreached
    cases hreached with
    | skipped => exact hready true
    | collected _ hcollect =>
      exact evenEnds_setInputTensors (hready false) (layout.declared_ne_two hnames) hcollect
    | @ran responses c x haccepted hcollect hrun =>
      have hstate := evenEnds_setInputTensors (hready false) (layout.declared_ne_two hnames) hcollect
      have hgathers : Gathers cfg s call requests total c :=
        ⟨hpresent, ⟨a, hcount, checkBatchSize_allFailed haccepted⟩, htotal, ⟨_, hcollect⟩⟩
      cases hinputs : c.tensors.mapM id with
      | some inputs =>
        have hc : Collects cfg s call requests total c inputs := ⟨hgathers, hinputs⟩
        rw [mapM_id_eq_some hinputs, executeSlots_map] at hrun
        refine evenEnds_execute hstate hrun fun at_ hat hcopy => ?_
        obtain ⟨t0, t1, t2, rfl, hr⟩ := attempted_inputs hat
        cases hkey : c.state.prestagedEntry with
        | none =>
          have hslots : SlotsBeside cfg requests (declaredInputs cfg total requests) c.tensors := by
            cases setInputTensors_slots hcollect with
            | beside _ _ hslots => exact hslots
            | into hpre _ _ _ _ hrest =>
              rw [hrest.prestaged, hpre] at hkey
              cases hkey
          obtain ⟨hcounted, htype⟩ := hslots.counted layout hnames (mapM_id_eq_some hinputs)
          exact ⟨_, t0, t1, t2, rfl, hcounted, (htype.trans hd).symm ▸ .refl d, fun _ => htype.trans hd,
            fun e hown he => hrule.even _ _ _ _ _ _ hc hkey hat hown he⟩
        | some key =>
          -- the cache was emptied after the batch had been collected into it
          obtain ⟨hcounted, hpass, hcount', _, _, _, width, _, _, _, _, _, hall⟩ :=
            hc.evenCounts layout hs hrule hkey
          refine ⟨_, t0, t1, t2, rfl, hcounted, hpass, nofun, fun e hown he => ?_⟩
          have hr' : at_.r = (elementCounts multiple requests).length := by
            rw [elementCounts, List.length_map]
            rw [hcount'] at hr
            exact (Except.ok.inj hr).symm
          rw [attempted_evicted hat hcopy hkey hown he, hr']
          exact hcounted.evenInto_self hall
      | none =>
        -- a batch without a row is brought to no bucket but zero
        refine hstate.execute hrun fun at_ srcs e b hat hcopy hbucket hb _ _ => ?_
        obtain ⟨t0, t1, t2, r, hthree, hr, _, _, _, hpadded⟩ := attempted_slow hat hcopy
        obtain rfl := requestCount_unset ((mapM_id_eq_none _).mp hinputs) hthree hr
        rw [hbucket, if_neg (by omega), hthree] at hpadded
        exact absurd rfl (padRequestsUp_three hpadded).1

/-- What a prestaged replay of the batch reads. -/
theorem endsOwn_serves (layout : PackedLayout cfg single multiple position bi)
    (hs : Entries (EvenEnds d) s.cudaGraphCache) (hrule : EvenAtBucket cfg forward multiple position s call)
    (h : Serves cfg forward s call s') {requests : List (Request E)}
    (hpresent : call.requests.mapM id = some requests) {x : Replay E} (hx : .replay x ∈ call.served.events) :
    EndsOwn (elementCounts multiple requests) x := by
  intro hprestaged
  obtain ⟨requests', total, c, a, e, hgathers, hat, hl, hr, hbucket, hcopy, _⟩ := serves_replay h hx
  have hpresent' := hgathers.present
  rw [hpresent] at hpresent'
  cases hpresent'
  have hlength : (elementCounts multiple requests).length = requests.length := List.length_map _
  rw [hcopy] at hprestaged
  cases attempted_prepared hat with
  | found hsome => rw [hprestaged] at hsome; cases hsome
  | captured hsome => rw [hprestaged] at hsome; cases hsome
  | prestaged hkey hb _ hcache =>
    have hset := hrule.complete _ _ _ hgathers (by rw [hkey]; simp)
    obtain ⟨inputs, hinputs⟩ := Option.ne_none_iff_exists'.mp fun h => hset ((mapM_id_eq_none _).mp h)
    rw [mapM_id_eq_some hinputs, slotTensors_map] at hat
    obtain ⟨t0, t1, t2, rfl, hr'⟩ := attempted_inputs hat
    have hc : Collects cfg s call requests total c [t0, t1, t2] := ⟨hgathers, hinputs⟩
    obtain ⟨_, _, hcount, b, e', buffer, width, hb', hle, he', hbuffer, hends, hall⟩ :=
      hc.evenCounts layout hs hrule hkey
    rw [hcount] at hr'
    have hstatics : x.statics = e'.staticInputs := by
      have hentry := hl.entry
      rw [hcache, he'] at hentry
      cases hentry
      have hcopied := hl.copied
      rw [hprestaged, Option.getD_none, copyInputs_nil] at hcopied
      exact (congrArg Prod.snd hcopied).symm
    refine ⟨by rw [hr, hlength, Except.ok.inj hr'], b, buffer, width, by rw [hbucket, ← hb, hb'], ?_, ?_,
      hall, ?_⟩
    · rw [hlength]
      exact hle
    · rw [hstatics]
      exact hbuffer
    · have hone : ∀ n ∈ elementCounts multiple requests ++
          List.replicate (b - (elementCounts multiple requests).length) width, n = width := by
        intro n hn
        rcases List.mem_append.mp hn with hn | hn
        · exact hall n hn
        · exact List.eq_of_mem_replicate hn
      rw [ends_eq_evenEnds.mpr hone, List.length_append, List.length_replicate, hlength,
        Nat.add_sub_cancel' hle]
      exact hends

end Run

/-- **A prestaged replay reads the batch's own positions** in every run whose batches
are even where they are copied at their own size. -/
theorem run_endsOwn {cfg : Config E} {forward : List (Tensor E) → List (Tensor E)}
    {single multiple position : String} {bi : BatchInput}
    (layout : PackedLayout cfg single multiple position bi)
    (hpass : Passes E (convertDataTypeToTorchType bi.dataType).2 .int) {capture : Int → Option Bool}
    {calls : List (Call E)} {s : GraphState E}
    (h : Run (under (EvenAtBucket cfg forward multiple position) (Serves cfg forward))
      (loaded cfg forward capture) calls s) :
    ∀ call ∈ calls, ∀ requests, call.requests.mapM id = some requests →
      ∀ x, .replay x ∈ call.served.events → EndsOwn (elementCounts multiple requests) x := by
  let d := (convertDataTypeToTorchType bi.dataType).2
  let rule := EvenAtBucket cfg forward multiple position
  have keep : ∀ t call t', Entries (EvenEnds d) t.cudaGraphCache → under rule (Serves cfg forward) t call t' →
      Entries (EvenEnds d) t'.cudaGraphCache :=
    fun t call t' ht ⟨hrule, hserves⟩ => evenEnds_serves layout rfl ht hrule hserves
  have each : ∀ t call t', Entries (EvenEnds d) t.cudaGraphCache → under rule (Serves cfg forward) t call t' →
      ∀ requests, call.requests.mapM id = some requests →
        ∀ x, .replay x ∈ call.served.events → EndsOwn (elementCounts multiple requests) x :=
    fun t call t' ht ⟨hrule, hserves⟩ requests hpresent x hx =>
      endsOwn_serves layout ht hrule hserves hpresent hx
  exact h.always keep each (evenEnds_warmup hpass cfg.toGraphConfig forward capture (.empty _))

/-- The first two requests are captured, the next two prestaged. -/
theorem run_endsOwn_pair : ∃ second, processRequests pairConfig id .smooth evenPair pairServed = .ok second ∧
    ∃ x, .replay x ∈ second.events ∧ x.copyFrom = none ∧ EndsOwn [2, 2] x := by
  obtain ⟨first, hfirst, hstate⟩ : ∃ first, processRequests pairConfig id .smooth evenPair
      (loaded pairConfig id fun _ => some true) = .ok first ∧ pairServed = first.state := ⟨_, rfl, rfl⟩
  obtain ⟨second, hsecond, x, hx, hcopy⟩ : ∃ second, processRequests pairConfig id .smooth evenPair pairServed =
      .ok second ∧ ∃ x, .replay x ∈ second.events ∧ x.copyFrom = none :=
    ⟨_, rfl, _, List.mem_singleton.mpr rfl, rfl⟩
  refine ⟨second, hsecond, x, hx, hcopy, ?_⟩
  have hrule : EvenAtBucket pairConfig id "MULTIPLE__1" "ENDS__2" (loaded pairConfig id fun _ => some true)
      ⟨.smooth, evenPair, first⟩ := by
    refine ⟨?_, ?_, ?_, ?_⟩
    · intro requests hpresent
      cases hpresent
      decide
    · rintro requests total c ⟨hpresent, ⟨_, hcounted, _⟩, _, ⟨_, hcollected⟩⟩ _
      cases hpresent
      cases hcounted
      cases hcollected
      show none ∉ [some _, some _, some _]
      simp
    · intro requests total c inputs hc _
      cases hc.present
      decide
    · intro requests total c inputs a e hc _ ha _ he
      obtain ⟨⟨hpresent, ⟨_, hcounted, _⟩, _, ⟨_, hcollected⟩⟩, hcomplete⟩ := hc
      cases hpresent
      cases hcounted
      cases hcollected
      cases hcomplete
      cases ha
      cases he
      refine fun _ => ⟨rfl, fun multiple hm => ?_⟩
      cases hm
      show ∀ c ∈ [2, 2], c * 2 = 4
      decide
  have hrule' : EvenAtBucket pairConfig id "MULTIPLE__1" "ENDS__2" pairServed ⟨.smooth, evenPair, second⟩ := by
    refine ⟨?_, ?_, ?_, ?_⟩
    · intro requests hpresent
      cases hpresent
      decide
    · rintro requests total c ⟨hpresent, ⟨_, hcounted, _⟩, _, ⟨responses, hcollected⟩⟩ _ hnone
      cases hpresent
      cases hcounted
      obtain ⟨t, ht⟩ := (setInputTensors_slots hcollected).defined (by decide) none hnone
      cases ht
    · intro requests total c inputs hc _
      cases hc.present
      decide
    · intro requests total c inputs a e hc hkey
      obtain ⟨⟨hpresent, ⟨_, hcounted, _⟩, _, ⟨responses, hcollected⟩⟩, _⟩ := hc
      cases hpresent
      cases hcounted
      have hdecide : decidePrestage pairConfig (declaredInputs pairConfig 2
        [packedRequest 1 1 2, packedRequest 1 1 2]) 2 (prestage pairConfig 2 false pairServed) = .ok _ := rfl
      rw [setInputTensors_decided hcollected hdecide] at hkey
      cases hkey
  exact run_endsOwn (packedLayout_packedConfig _) (.refl _)
    (.cons ⟨hrule, hfirst, hstate⟩ (.cons ⟨hrule', hsecond, rfl⟩ (.nil _)))
    _ (List.mem_cons_of_mem _ (List.mem_cons_self ..)) _ rfl x hx

/-- One and three elements are captured at a bucket of two; the next batch, of two and
two, is prestaged, and the first request ends behind its first element. -/
theorem uneven_ends_stay :
    ¬ ∀ (cfg : Config Int) (forward : List (Tensor Int) → List (Tensor Int)) (capture : Int → Option Bool)
      (single multiple position : String) (bi : BatchInput) (calls : List (Call Int)) (s : GraphState Int),
      PackedLayout cfg single multiple position bi →
      Run (Serves cfg forward) (loaded cfg forward capture) calls s →
      ∀ call ∈ calls, ∀ requests, call.requests.mapM id = some requests →
        ∀ x, .replay x ∈ call.served.events → EndsOwn (elementCounts multiple requests) x := by
  intro h
  have hrun : serveAll pairConfig id (loaded pairConfig id fun _ => some true)
      [(.smooth, [some (packedRequest 1 1 1), some (packedRequest 1 1 3)]), (.smooth, evenPair)] = .ok (_, _) := rfl
  obtain ⟨_, b, buffer, width, hb, _, hbuffer, hall, hends⟩ := h _ _ _ _ _ _ _ _ _ (packedLayout_packedConfig _)
    (serveAll_run hrun) _ (List.mem_cons_of_mem _ (List.mem_cons_self ..)) _ rfl _
    (List.mem_singleton.mpr rfl) rfl
  have hb : (2 : Int) = b := hb
  obtain rfl : b = 2 := by exact_mod_cast hb.symm
  obtain rfl : width = 2 := (hall 2 (List.mem_cons_self ..)).symm
  cases hbuffer
  revert hends
  unfold HoldsCounts
  decide

end TritonAot
