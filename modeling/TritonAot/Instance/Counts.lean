import TritonAot.Instance.Lifecycle
import TritonAot.Instance.Packed
import TritonAot.Instance.Slots

/-! The two request counts.

`ProcessRequests` adds up the requests' batch sizes, `ExecuteWithCudaGraph` takes the
smallest leading dimension of the model inputs. No declared input of a viable batch
is shorter than the sum; a batch input has an entry for each request, whatever its
batch size. -/
namespace TritonAot

open Slots

variable {E : Type} [Scalars E]

/-! ### The sum of the batch sizes -/

/-- What a request adds to `total_batch_size`. -/
def requestBatchSize (cfg : Config E) (q : Request E) : Nat :=
  if cfg.maxBatchSize = 0 then 1
  else
    match q.inputs with
    | [] => 0
    | input :: _ => input.shape.headD 0

theorem countRequest_ok {cfg : Config E} {chance : RequestChance} {i size : Nat} {q : Request E}
    (h : countRequest cfg chance i q = .ok (size, none)) : size = requestBatchSize cfg q := by
  unfold countRequest at h
  unfold requestBatchSize
  split at h
  · rw [if_pos ‹_›]
    cases h
    rfl
  · rw [if_neg ‹_›]
    split at h
    · cases h
    · cases h
    · rename_i input rest _ hinputs
      split at h
      · rename_i hshape
        cases h
        rw [hinputs]
        simp only [hshape, List.headD_cons]
      · cases h

/-- Where every lookup succeeds the sum is that of the requests' batch sizes. -/
theorem countFrom_sum {cfg : Config E} {chance : RequestChance} {i : Nat} {requests : List (Request E)}
    {total total' : Nat} {a a' : Answering} (h : countFrom cfg chance i requests total a = .ok (total', a'))
    (hok : a'.allFailed = false) :
    a.allFailed = false ∧ total' = total + (requests.map (requestBatchSize cfg)).sum := by
  induction requests generalizing i total a with
  | nil =>
    cases h
    exact ⟨hok, rfl⟩
  | cons q rest ih =>
    rw [countFrom] at h
    obtain ⟨⟨size, error⟩, hsize, h⟩ := bind_ok.mp h
    obtain ⟨hcheck, hsum⟩ := ih h
    obtain ⟨ha, rfl⟩ := check_allFailed hcheck
    refine ⟨ha, ?_⟩
    rw [hsum, countRequest_ok hsize, List.map_cons, List.sum_cons, Nat.add_assoc]

/-- Without batching every request counts as one. -/
theorem sum_requestBatchSize_of_not_batching {cfg : Config E} (h : cfg.supportsBatching = false)
    (requests : List (Request E)) : (requests.map (requestBatchSize cfg)).sum = requests.length := by
  have hzero : cfg.maxBatchSize = 0 := by
    have := of_decide_eq_false h
    omega
  have hsize : ∀ q : Request E, requestBatchSize cfg q = 1 := fun q => if_pos hzero
  rw [funext hsize, List.map_const', List.sum_replicate_nat, Nat.mul_one]

theorem sum_eq_length_iff {l : List Nat} (h : ∀ n ∈ l, 1 ≤ n) : l.sum = l.length ↔ ∀ n ∈ l, n = 1 := by
  induction l with
  | nil => exact ⟨fun _ n hn => absurd hn List.not_mem_nil, fun _ => rfl⟩
  | cons n rest ih =>
    obtain ⟨hn, hrest⟩ := List.forall_mem_cons.mp h
    have hle : rest.length ≤ rest.sum := List.length_le_sum_of_one_le rest hrest
    rw [List.sum_cons, List.length_cons, List.forall_mem_cons, ← ih hrest]
    omega

/-! ### Leading dimensions -/

/-- What is gathered has the shape, and the values where there are as many as it asks for. -/
theorem gathered_ok {dtype : ScalarType} {device : Device} {shape : List Nat} {values : List E}
    {t : Tensor E} (h : gathered dtype device shape values = .ok t) :
    t.dtype = dtype ∧ t.shape = shape ∧
      (values.length = shape.prod → t.data = values.map (Scalars.cast dtype)) := by
  unfold gathered at h
  split at h
  · rename_i hempty
    cases h
    refine ⟨rfl, rfl, fun hlen => ?_⟩
    rw [List.isEmpty_iff.mp hempty] at hlen ⊢
    show List.replicate shape.prod _ = _
    rw [← hlen]
    rfl
  · unfold Tensor.fromBlob at h
    split at h
    · cases h
      exact ⟨rfl, rfl, fun _ => rfl⟩
    · cases h

theorem gathered_shape {dtype : ScalarType} {device : Device} {shape : List Nat} {values : List E}
    {t : Tensor E} (h : gathered dtype device shape values = .ok t) : t.shape = shape :=
  (gathered_ok h).2.1

/-- No declared input that lines up is shorter than the sum of the batch sizes. -/
theorem declared_leads {cfg : Config E} {total b : Nat} {requests : List (Request E)} {info : DeclaredInput}
    {st : Tensor E} (hinfo : info ∈ declaredInputs cfg total requests) (hl : LinedUp total b info st)
    (hone : cfg.supportsBatching = true ∨ total = 1) :
    ∃ n rest, info.batchnShape = n :: rest ∧ total ≤ n := by
  have helements := hl.elements
  have hpos := hl.pos
  unfold declaredInputs at hinfo
  split at hinfo
  · cases hinfo
  · obtain ⟨input, _, rfl⟩ := List.mem_map.mp hinfo
    unfold declareInput at helements hpos ⊢
    split
    · rename_i hragged
      simp only [hragged, if_pos, getElementCount_singleton] at helements hpos
      refine ⟨_, [], rfl, ?_⟩
      have hw : 0 < st.numel / b := Nat.pos_of_ne_zero fun h0 => by
        rw [h0, Nat.mul_zero] at helements
        omega
      rw [helements]
      exact Nat.le_mul_of_pos_right _ hw
    · rename_i hragged
      simp only [hragged] at hpos
      cases hbatch : cfg.supportsBatching with
      | true =>
        rw [hbatch] at hpos
        simp only [if_true] at hpos ⊢
        cases hs : input.shape with
        | nil =>
          rw [hs] at hpos
          cases hpos
        | cons n rest => exact ⟨total, rest, by rw [List.set_cons_zero], Nat.le_refl _⟩
      | false =>
        rw [hbatch] at hpos hone
        have htotal : total = 1 := hone.resolve_left (by simp)
        cases hs : input.shape with
        | nil =>
          simp [hs, getElementCount] at hpos
        | cons n rest =>
          refine ⟨n, rest, by simp, ?_⟩
          rw [htotal]
          simp only [hs, getElementCount_cons, List.prod_cons] at hpos
          exact Nat.pos_of_mul_pos_right hpos

/-! ### Who wrote the model inputs -/

section Written
variable {cfg : Config E} {requests : List (Request E)} {declared : List DeclaredInput}
  {tensors : List (Option (Tensor E))} {inputs : List (Tensor E)}

theorem mem_of_getElem?_map_some {i : Nat} {t : Tensor E} (h : (inputs.map some)[i]? = some (some t)) :
    t ∈ inputs := by
  rw [List.getElem?_map] at h
  obtain ⟨t', ht', h⟩ := Option.map_eq_some_iff.mp h
  cases h
  exact List.mem_of_getElem? ht'

/-- Every model input is the tensor of a declared input or of a target. -/
theorem SlotsBeside.written (h : SlotsBeside cfg requests declared tensors)
    (hinputs : tensors = inputs.map some) : ∀ t ∈ inputs,
      (∃ info ∈ declared, gatherInput cfg requests info = .ok t) ∨
        ∃ target ∈ cfg.batchInputTargets, gatherBatchInput cfg requests target.1 = .ok t := by
  obtain ⟨ws, vs, hws, hvs, htensors⟩ := h.writes
  intro t ht
  obtain ⟨i, hi⟩ := List.mem_iff_getElem?.mp ht
  refine (slot_written hws hvs (hinputs.symm.trans htensors) hi).imp ?_ ?_
  · intro hparts
    obtain ⟨info, hinfo, _, t', ht', hgather⟩ := hparts
    cases ht'
    exact ⟨info, hinfo, hgather⟩
  · intro hparts
    obtain ⟨target, htarget, _, t', ht', hgather⟩ := hparts
    cases ht'
    exact ⟨target, htarget, hgather⟩

/-- Targets are written last, so one of them is there. -/
theorem SlotsBeside.target_found (h : SlotsBeside cfg requests declared tensors)
    (hinputs : tensors = inputs.map some) (hne : cfg.batchInputTargets ≠ []) :
    ∃ t ∈ inputs, ∃ target ∈ cfg.batchInputTargets, gatherBatchInput cfg requests target.1 = .ok t := by
  obtain ⟨ws, vs, hws, hvs, htensors⟩ := h.writes
  obtain ⟨target, htarget⟩ := List.exists_mem_of_ne_nil _ hne
  obtain ⟨v, hv, hw⟩ := exists_right_of_mem hvs htarget
  rw [writeAll_append] at htensors
  have hfound : ∃ slot, (v.1, slot) ∈ vs ∧ tensors[v.1]? = some slot := by
    rw [htensors]
    exact writeAll_written ⟨v, hv, rfl⟩ (by rw [length_writeAll, List.length_replicate]; exact hw.lt)
  obtain ⟨slot, hm, hslot⟩ := hfound
  obtain ⟨target', htarget', hw'⟩ := exists_left_of_mem hvs hm
  obtain ⟨t, rfl, hgather⟩ := hw'.value
  rw [hinputs] at hslot
  exact ⟨t, mem_of_getElem?_map_some hslot, target', htarget', hgather⟩

/-- Without targets every declared input has a place of its own. -/
theorem SlotsBeside.declared_found (h : SlotsBeside cfg requests declared tensors)
    (hinputs : tensors = inputs.map some) (hnone : cfg.batchInputTargets = []) :
    ∀ info ∈ declared, ∃ t ∈ inputs, gatherInput cfg requests info = .ok t := by
  obtain ⟨ws, vs, hws, hvs, htensors⟩ := h.writes
  rw [hnone] at hvs
  cases hvs
  rw [List.append_nil] at htensors
  have hcover : ∀ i < declared.length + cfg.batchInputCount, i ∈ ws.map Prod.fst := by
    intro i hi
    have hlen : inputs.length = declared.length + cfg.batchInputCount := by
      have := congrArg List.length (hinputs.symm.trans htensors)
      rwa [List.length_map, length_writeAll, List.length_replicate] at this
    have hslot : tensors[i]? = some (some inputs[i]) := by
      rw [hinputs, List.getElem?_map, List.getElem?_eq_getElem (hlen ▸ hi), Option.map_some]
    rw [htensors] at hslot
    rcases writeAll_cases hslot with hm | ⟨hempty, _⟩
    · exact List.mem_map.mpr ⟨_, hm, rfl⟩
    · have := List.eq_of_mem_replicate (List.mem_of_getElem? hempty)
      cases this
  have hnodup := nodup_of_covers hcover
    (by rw [List.length_map, ← hws.length_eq]; exact Nat.le_add_right _ _)
  intro info hinfo
  obtain ⟨⟨i, slot⟩, hm, hw⟩ := exists_right_of_mem hws hinfo
  obtain ⟨t, hslot, hgather⟩ := hw.value
  cases hslot
  have hat : tensors[i]? = some (some t) := by
    rw [htensors]
    exact writeAll_nodup hnodup hm (by rw [List.length_replicate]; exact hw.lt)
  rw [hinputs] at hat
  exact ⟨t, mem_of_getElem?_map_some hat, hgather⟩

end Written

/-! ### The same bucket -/

/-- The bucket that the lookup finds is the one that the selection comes to, where
it comes to one. -/
theorem findReady_selected {cfg : GraphConfig} {forward : List (Tensor E) → List (Tensor E)}
    {capture : Int → Bool} {pad : Int → Except Fault (List (Tensor E))} {inputs : List (Tensor E)}
    {r b : Int} {key : String} {s s' : GraphState E} {selected : Selected E} {events : List (Event E)}
    (h : findReadyCudaGraphEntry cfg r s = some (key, b))
    (hsel : selectBucket cfg.cudaGraphBatchSizes forward capture pad inputs r s =
      (.ok (some selected), s', events)) : selected.bucket = b := by
  unfold findReadyCudaGraphEntry at h
  rw [selectBucket] at hsel
  split at h
  · cases h
  · split at h
    · rw [if_pos ‹_›] at hsel
      split at h
      · cases h
      · rename_i e he
        cases h
        split at hsel
        · cases hsel
        · rw [he] at hsel
          cases hsel
          rfl
    · rw [if_neg ‹_›] at hsel
      obtain ⟨hhead, rfl, e, he⟩ := findReadyFrom_found h
      obtain ⟨later, hhealthy⟩ := List.head?_eq_some_iff.mp hhead
      obtain ⟨hfresh, rest, hfirst⟩ := selectFrom_healthy forward capture pad inputs r hhealthy
      rw [hfirst] at hsel
      cases hat : atCandidate pad inputs r b with
      | error fault =>
        rw [selectFrom_fault hfresh hat] at hsel
        cases hsel
      | ok at_ =>
        rw [selectFrom_cached hfresh hat he] at hsel
        cases hsel
        rfl

/-- What `prestage` leaves is what the lookup found. -/
theorem prestage_ready {cfg : Config E} {total : Nat} {s : GraphState E} {key : String}
    (h : (prestage cfg total false s).prestagedEntry = some key) :
    findReadyCudaGraphEntry cfg.toGraphConfig total
      {s with prestagedEntry := none, prestagedBucket := -1} =
        some (key, (prestage cfg total false s).prestagedBucket) := by
  unfold prestage at h ⊢
  simp only at h ⊢
  split
  · rename_i hon
    rw [if_pos hon] at h
    split
    · rename_i key' b hfind
      rw [hfind] at h ⊢
      cases h
      rfl
    · rename_i hfind
      rw [hfind] at h
      cases h
  · rename_i hoff
    rw [if_neg hoff] at h
    cases h

/-! ### The two counts -/

/-- The count of the slow path, and the bucket it selects, are those of `ProcessRequests`. -/
def CountsAgree (cfg : Config E) (total : Nat) (s : GraphState E) (inputs : List (Tensor E)) (r : Nat) :
    Prop :=
  total = r ∧ ∀ forward (chance : Chance) selected s' events,
    selectBucket cfg.cudaGraphBatchSizes forward chance.capture (padRequestsUp chance.alloc inputs r) inputs r
      {s with prestagedEntry := none, prestagedBucket := -1} = (.ok (some selected), s', events) →
    selected.bucket = (prestage cfg total false s).prestagedBucket

/-! What the slow path counts, where no declared input has fewer rows than `total`. -/

section Slow
variable {cfg : Config E} {requests : List (Request E)} {declared : List DeclaredInput}
  {tensors : List (Option (Tensor E))} {t0 t1 t2 : Tensor E} {total r : Nat}

/-- With a target the count is the number of requests. -/
theorem SlotsBeside.count_of_targets (h : SlotsBeside cfg requests declared tensors)
    (htensors : tensors = [t0, t1, t2].map some) (hr : requestCount t0 t1 t2 = .ok r)
    (hdeclared : ∀ info ∈ declared, ∀ t, gatherInput cfg requests info = .ok t →
      ∃ n, Leads t n ∧ total ≤ n ∧ info.batchnShape.head? = some n)
    (htarget : ∀ target ∈ cfg.batchInputTargets, ∀ t,
      gatherBatchInput cfg requests target.1 = .ok t → Leads t requests.length)
    (hge : requests.length ≤ total) (hne : cfg.batchInputTargets ≠ []) : r = requests.length := by
  obtain ⟨hall, t, ht, hlead⟩ := requestCount_ok hr
  obtain ⟨t', ht', target, hm, hgather⟩ := h.target_found htensors hne
  obtain ⟨n, hn, hle⟩ := hall t' ht'
  have hup : r ≤ requests.length := hn.unique (htarget target hm t' hgather) ▸ hle
  rcases h.written htensors t ht with ⟨info, hinfo, hgather'⟩ | ⟨target', hm', hgather'⟩
  · obtain ⟨k, hk, hge', _⟩ := hdeclared info hinfo t hgather'
    have := hk.unique hlead
    omega
  · exact hlead.unique (htarget target' hm' t hgather')

/-- Without one it is `total` where a declared input has so many rows. -/
theorem SlotsBeside.count_of_declared (h : SlotsBeside cfg requests declared tensors)
    (htensors : tensors = [t0, t1, t2].map some) (hr : requestCount t0 t1 t2 = .ok r)
    (hdeclared : ∀ info ∈ declared, ∀ t, gatherInput cfg requests info = .ok t →
      ∃ n, Leads t n ∧ total ≤ n ∧ info.batchnShape.head? = some n)
    (hnone : cfg.batchInputTargets = []) :
    total = r ↔ ∃ info ∈ declared, info.batchnShape.head? = some total := by
  obtain ⟨hall, t, ht, hlead⟩ := requestCount_ok hr
  -- the tensor that gives the count is that of a declared input
  obtain ⟨info, n, hinfo, hn, hle, hhead⟩ : ∃ info n, info ∈ declared ∧ Leads t n ∧ total ≤ n ∧
      info.batchnShape.head? = some n := by
    rcases h.written htensors t ht with ⟨info, hinfo, hgather⟩ | ⟨target, hm, _⟩
    · obtain ⟨n, hn⟩ := hdeclared info hinfo t hgather
      exact ⟨info, n, hinfo, hn⟩
    · rw [hnone] at hm
      cases hm
  have hnr : n = r := hn.unique hlead
  constructor
  · rintro rfl
    exact ⟨info, hinfo, hnr ▸ hhead⟩
  · intro hparts
    obtain ⟨info', hinfo', hhead'⟩ := hparts
    obtain ⟨t', ht', hgather⟩ := h.declared_found htensors hnone info' hinfo'
    obtain ⟨k, hk, _, hkhead⟩ := hdeclared info' hinfo' t' hgather
    rw [hhead'] at hkhead
    cases hkhead
    obtain ⟨m, hm, hup⟩ := hall t' ht'
    have := hm.unique hk
    omega

end Slow

/-- **The two request counts of a prestaged batch agree exactly** where every request
has batch size one, if there is a batch input, and else where some declared input
has as many rows as the batch sizes add up to. -/
theorem countsAgree_iff {cfg : Config E} {countChance : RequestChance} {chance chance' : InputChance}
    {total : Nat} {requests : List (Request E)} {s : GraphState E} {a a' : Answering}
    {responses responses' : Responses} {c c' : Collecting E} {key : String} {t0 t1 t2 : Tensor E} {r : Nat}
    (hcount : countFrom cfg countChance 0 requests 0 a = .ok (total, a')) (haccepted : a'.allFailed = false)
    (hsizes : ∀ q ∈ requests, 1 ≤ requestBatchSize cfg q)
    (hone : cfg.supportsBatching = true ∨ requests.length = 1)
    (hkinds : ∀ b ∈ cfg.batchInputs, b.kind = .accumulatedElementCount)
    (hentries : ∀ b ∈ cfg.batchInputs, b.kind = .accumulatedElementCount →
      (cfg.batchInputValues b requests).1 = [requests.length])
    (hkept : setInputTensors cfg chance total requests (prestage cfg total false s) responses = .ok (c, none))
    (hkey : c.state.prestagedEntry = some key)
    (hslow : setInputTensors cfg chance' total requests
      {s with prestagedEntry := none, prestagedBucket := -1} responses' = .ok (c', none))
    (hinputs : c'.tensors.mapM id = some [t0, t1, t2]) (hr : requestCount t0 t1 t2 = .ok r) :
    CountsAgree cfg total s [t0, t1, t2] r ↔
      (cfg.batchInputTargets ≠ [] → ∀ q ∈ requests, requestBatchSize cfg q = 1) ∧
        (cfg.batchInputTargets = [] →
          ∃ info ∈ declaredInputs cfg total requests, info.batchnShape.head? = some total) := by
  obtain ⟨_, htotal⟩ := countFrom_sum hcount haccepted
  rw [Nat.zero_add] at htotal
  have hsizes' : ∀ n ∈ requests.map (requestBatchSize cfg), 1 ≤ n := fun n hn => by
    obtain ⟨q, hq, rfl⟩ := List.mem_map.mp hn
    exact hsizes q hq
  have hge : requests.length ≤ total := by
    have := List.length_le_sum_of_one_le _ hsizes'
    rwa [List.length_map, ← htotal] at this
  have hone' : cfg.supportsBatching = true ∨ total = 1 := by
    cases hb : cfg.supportsBatching with
    | true => exact .inl rfl
    | false =>
      have hlen : requests.length = 1 := hone.resolve_left (by rw [hb]; exact Bool.false_ne_true)
      exact .inr (by rw [htotal, sum_requestBatchSize_of_not_batching hb, hlen])
  -- what the prestaged batch says of the declared inputs
  obtain ⟨hready, hlines⟩ : (prestage cfg total false s).prestagedEntry = some key ∧
      ∀ info ∈ declaredInputs cfg total requests, ∃ n rest, info.batchnShape = n :: rest ∧ total ≤ n := by
    cases setInputTensors_slots hkept with
    | beside hnone =>
      rw [hnone] at hkey
      cases hkey
    | into hpre _ _ hviable _ hrest =>
      rw [hrest.prestaged] at hkey
      refine ⟨hkey, fun info hinfo => ?_⟩
      obtain ⟨i, st, _, _, hl⟩ := hviable.declared info hinfo
      exact declared_leads hinfo hl hone'
  have hagree : CountsAgree cfg total s [t0, t1, t2] r ↔ total = r := by
    refine ⟨And.left, fun h => ⟨h, fun forward chance selected s' events hsel => ?_⟩⟩
    subst h
    exact findReady_selected (prestage_ready hready) hsel
  rw [hagree]
  -- what the slow path collects
  have hmap : c'.tensors = [t0, t1, t2].map some := mapM_id_eq_some hinputs
  have hslots : SlotsBeside cfg requests (declaredInputs cfg total requests) c'.tensors := by
    cases setInputTensors_slots hslow with
    | beside _ _ hslots => exact hslots
    | into hpre => cases hpre
  have hdeclared : ∀ info ∈ declaredInputs cfg total requests, ∀ t, gatherInput cfg requests info = .ok t →
      ∃ n, Leads t n ∧ total ≤ n ∧ info.batchnShape.head? = some n := by
    intro info hinfo t ht
    obtain ⟨n, rest, hs, hn⟩ := hlines info hinfo
    exact ⟨n, ⟨rest, (gathered_shape ht).trans hs⟩, hn, by rw [hs, List.head?_cons]⟩
  have htarget : ∀ target ∈ cfg.batchInputTargets, ∀ t,
      gatherBatchInput cfg requests target.1 = .ok t → Leads t requests.length := by
    intro target hm t ht
    obtain ⟨b, hb, hm⟩ := List.mem_flatMap.mp hm
    obtain ⟨name, _, rfl⟩ := List.mem_map.mp hm
    exact ⟨[], (gathered_shape ht).trans (hentries b hb (hkinds b hb))⟩
  by_cases htargets : cfg.batchInputTargets = []
  · rw [hslots.count_of_declared hmap hr hdeclared htargets, htargets]
    simp only [ne_eq, not_true_eq_false, false_implies, true_and, forall_true_left]
  · simp only [ne_eq, htargets, not_false_eq_true, forall_true_left, false_implies, and_true]
    have hsum := sum_eq_length_iff hsizes'
    rw [List.length_map, ← htotal] at hsum
    rw [hslots.count_of_targets hmap hr hdeclared htarget hge htargets, hsum]
    exact List.forall_mem_map

/-- The state an instance with a captured bucket of two requests starts in. -/
def warmPackedState : GraphState Int := loaded warmPackedConfig id fun _ => some true

theorem countsAgree_two : ∃ c inputs, setInputTensors warmPackedConfig .smooth 2
    [packedRequest 1 1 1, packedRequest 1 1 1]
    {warmPackedState with prestagedEntry := none, prestagedBucket := -1} ⟨[], []⟩ = .ok (c, none) ∧
      c.tensors.mapM id = some inputs ∧ CountsAgree warmPackedConfig 2 warmPackedState inputs 2 := by
  have hcount : countFrom warmPackedConfig .smooth 0 [packedRequest 1 1 1, packedRequest 1 1 1] 0
    ⟨⟨[], []⟩, false⟩ = .ok (2, _) := rfl
  have hkept : setInputTensors warmPackedConfig .smooth 2 [packedRequest 1 1 1, packedRequest 1 1 1]
    (prestage warmPackedConfig 2 false warmPackedState) ⟨[], []⟩ = .ok (_, none) := rfl
  have hslow : setInputTensors warmPackedConfig .smooth 2 [packedRequest 1 1 1, packedRequest 1 1 1]
    {warmPackedState with prestagedEntry := none, prestagedBucket := -1} ⟨[], []⟩ = .ok (_, none) := rfl
  refine ⟨_, _, hslow, rfl, ?_⟩
  exact (countsAgree_iff hcount rfl (by decide) (.inl rfl) (by decide) (fun _ _ _ => rfl) hkept
    (show _ = some "R=2" from rfl) hslow rfl rfl).mpr ⟨fun _ => by decide, nofun⟩

/-- One request with a batch size of two is two requests before it is collected and
one after. -/
theorem countsAgree_not :
    ¬ ∀ (cfg : Config Int) (countChance : RequestChance) (chance chance' : InputChance) (total : Nat)
      (requests : List (Request Int)) (s : GraphState Int) (a a' : Answering)
      (responses responses' : Responses) (c c' : Collecting Int) (key : String) (t0 t1 t2 : Tensor Int)
      (r : Nat), countFrom cfg countChance 0 requests 0 a = .ok (total, a') → a'.allFailed = false →
      (∀ q ∈ requests, 1 ≤ requestBatchSize cfg q) →
      (cfg.supportsBatching = true ∨ requests.length = 1) →
      (∀ b ∈ cfg.batchInputs, b.kind = .accumulatedElementCount →
        (cfg.batchInputValues b requests).1 = [requests.length]) →
      setInputTensors cfg chance total requests (prestage cfg total false s) responses = .ok (c, none) →
      c.state.prestagedEntry = some key →
      setInputTensors cfg chance' total requests
        {s with prestagedEntry := none, prestagedBucket := -1} responses' = .ok (c', none) →
      c'.tensors.mapM id = some [t0, t1, t2] → requestCount t0 t1 t2 = .ok r →
      CountsAgree cfg total s [t0, t1, t2] r := by
  intro h
  have hcount : countFrom warmPackedConfig .smooth 0 [packedRequest 2 1 2] 0 ⟨⟨[], []⟩, false⟩ =
    .ok (2, _) := rfl
  have hkept : setInputTensors warmPackedConfig .smooth 2 [packedRequest 2 1 2]
    (prestage warmPackedConfig 2 false warmPackedState) ⟨[], []⟩ = .ok (_, none) := rfl
  have hslow : setInputTensors warmPackedConfig .smooth 2 [packedRequest 2 1 2]
    {warmPackedState with prestagedEntry := none, prestagedBucket := -1} ⟨[], []⟩ = .ok (_, none) := rfl
  have hagree := h _ _ _ _ _ _ _ _ _ _ _ _ _ "R=2" _ _ _ 1 hcount rfl (by decide) (.inl rfl)
    (fun _ _ _ => rfl) hkept rfl hslow rfl rfl
  cases hagree.1

end TritonAot
