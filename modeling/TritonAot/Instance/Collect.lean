import TritonAot.Instance.Inputs

/-! What `SetInputTensors` leaves.

A batch that stays prestaged had every declared input line up with its static
buffer (`Viable`), and collecting it rewrites the static inputs of one entry
(`Restaged`) as the pure `fillAll` says; any other batch leaves the cache alone. -/
namespace TritonAot

variable {E : Type} [Scalars E]

/-! ### Viability -/

/-- A declared input and the static buffer it would be collected into, for `r`
requests at the bucket `b`. -/
structure LinedUp (r b : Nat) (info : DeclaredInput) (st : Tensor E) : Prop where
  device : st.device = .cuda
  dtype : st.dtype = (convertDataTypeToTorchType info.datatype).2
  numel : b ∣ st.numel
  size : ∃ size rest, st.shape = size :: rest ∧ b ∣ size
  elements : info.batchnElements = r * (st.numel / b)
  pos : 0 < info.batchnElements
  uniform : info.raggedUniform = true

/-- A batch that may be collected into the static inputs of an entry. -/
structure Viable (cfg : Config E) (declared : List DeclaredInput) (r b : Nat) (e : CudaGraphEntry E) :
    Prop where
  gpu : cfg.deviceIsCpu = false
  notModel : cfg.kind ≠ .model
  pos : 0 < r
  le : r ≤ b
  arity : e.staticInputs.length = declared.length + cfg.batchInputCount
  declared : ∀ info ∈ declared, ∃ i : Nat, ∃ st, cfg.inputIndexMap info.name = some (i : Int) ∧
    e.staticInputs[i]? = some st ∧ LinedUp r b info st
  targets : ∀ t ∈ cfg.batchInputTargets, ∃ i : Nat, ∃ st size rest,
    cfg.inputIndexMap t.2 = some (i : Int) ∧ e.staticInputs[i]? = some st ∧ st.shape = size :: rest ∧ b ∣ size

theorem staticAt_some {e : CudaGraphEntry E} {index : Int} {st : Tensor E} (h : staticAt e index = some st) :
    ∃ i : Nat, index = i ∧ e.staticInputs[i]? = some st := by
  unfold staticAt at h
  split at h
  · cases h
  · exact ⟨index.toNat, (Int.toNat_of_nonneg (by omega)).symm, h⟩

theorem bind_staticAt_some {cfg : Config E} {e : CudaGraphEntry E} {name : String} {st : Tensor E}
    (h : (cfg.inputIndexMap name).bind (staticAt e) = some st) :
    ∃ i : Nat, cfg.inputIndexMap name = some (i : Int) ∧ e.staticInputs[i]? = some st := by
  obtain ⟨index, hindex, hst⟩ := Option.bind_eq_some_iff.mp h
  obtain ⟨i, rfl, hi⟩ := staticAt_some hst
  exact ⟨i, hindex, hi⟩

theorem allOk_true {α : Type} {check : α → Except Fault Bool} {l : List α} (h : allOk check l = .ok true) :
    ∀ a ∈ l, check a = .ok true := by
  induction l with
  | nil => intro a ha; cases ha
  | cons b rest ih =>
    rw [allOk] at h
    obtain ⟨ok, hb, h⟩ := bind_ok.mp h
    cases ok with
    | false => cases h
    | true =>
      intro a ha
      rcases List.mem_cons.mp ha with rfl | ha
      · exact hb
      · exact ih h a ha

theorem lineUp_ok {cfg : Config E} {e : CudaGraphEntry E} {r b : Nat} (hb : b ≠ 0) {info : DeclaredInput}
    (h : lineUp cfg e b r info = .ok true) :
    ∃ i : Nat, ∃ st, cfg.inputIndexMap info.name = some (i : Int) ∧ e.staticInputs[i]? = some st ∧
      LinedUp r b info st := by
  unfold lineUp at h
  split at h
  · cases h
  · rename_i st hst
    obtain ⟨i, hi, hat⟩ := bind_staticAt_some hst
    split at h
    · cases h
    · rename_i hkind
      obtain ⟨hdev, hdt⟩ := not_or.mp hkind
      rw [if_neg (by exact_mod_cast hb)] at h
      split at h
      · cases h
      · rename_i hnumel
        obtain ⟨size, hsize, h⟩ := bind_ok.mp h
        obtain ⟨rest, hshape⟩ := size0_ok hsize
        have hall := Except.ok.inj h
        rw [Bool.and_eq_true, decide_eq_true_eq] at hall
        obtain ⟨⟨hdvd, helements, hpos⟩, huniform⟩ := hall
        refine ⟨i, st, hi, hat, not_not.mp hdev, not_not.mp hdt, ?_, ⟨size, rest, hshape, ?_⟩, ?_, hpos,
          huniform⟩
        · exact Int.natCast_dvd_natCast.mp (Int.dvd_of_emod_eq_zero (not_not.mp hnumel))
        · exact Int.natCast_dvd_natCast.mp (Int.dvd_of_emod_eq_zero hdvd)
        · exact_mod_cast helements

theorem targetLineUp_ok {cfg : Config E} {e : CudaGraphEntry E} {b : Nat} (hb : b ≠ 0) {name : String}
    (h : targetLineUp cfg e b name = .ok true) :
    ∃ i : Nat, ∃ st size rest, cfg.inputIndexMap name = some (i : Int) ∧ e.staticInputs[i]? = some st ∧
      st.shape = size :: rest ∧ b ∣ size := by
  unfold targetLineUp at h
  split at h
  · cases h
  · rename_i st hst
    obtain ⟨i, hi, hat⟩ := bind_staticAt_some hst
    split at h
    · cases h
    · rw [if_neg (by exact_mod_cast hb)] at h
      obtain ⟨size, hsize, h⟩ := bind_ok.mp h
      obtain ⟨rest, hshape⟩ := size0_ok hsize
      have hdvd := of_decide_eq_true (Except.ok.inj h)
      exact ⟨i, st, size, rest, hi, hat, hshape,
        Int.natCast_dvd_natCast.mp (Int.dvd_of_emod_eq_zero hdvd)⟩

theorem viable_ok {cfg : Config E} {declared : List DeclaredInput} {r : Nat} {key : String} {bucket : Int}
    {s : GraphState E} (h : viable cfg declared r key bucket s = .ok true) :
    ∃ b : Nat, ∃ e, bucket = b ∧ s.cudaGraphCache.lookup key = some e ∧ Viable cfg declared r b e := by
  unfold viable at h
  split at h
  · cases h
  · rename_i hguard
    simp only [Bool.or_eq_true, decide_eq_true_eq, not_or] at hguard
    obtain ⟨⟨⟨hcpu, hr⟩, hmodel⟩, hle⟩ := hguard
    split at h
    · cases h
    · rename_i e he
      split at h
      · cases h
      · rename_i harity
        obtain ⟨b, rfl⟩ : ∃ b : Nat, bucket = b := ⟨bucket.toNat, by omega⟩
        have hb : b ≠ 0 := by omega
        obtain ⟨ok, hdecl, h⟩ := bind_ok.mp h
        cases ok with
        | false => cases h
        | true =>
          exact ⟨b, e, rfl, he, by simpa using hcpu, hmodel, by omega, by omega, not_not.mp harity,
            fun info hi => lineUp_ok hb (allOk_true hdecl info hi),
            fun t ht => targetLineUp_ok hb (allOk_true h t ht)⟩

/-- The batch stays prestaged only where it is viable; otherwise nothing is prestaged. -/
theorem decidePrestage_ok {cfg : Config E} {declared : List DeclaredInput} {r : Nat} {s s' : GraphState E}
    (h : decidePrestage cfg declared r s = .ok s') :
    (s'.prestagedEntry = none ∧ (s' = s ∨ s' = {s with prestagedEntry := none, prestagedBucket := -1})) ∨
      s' = s ∧ ∃ key, ∃ b : Nat, ∃ e, s.prestagedEntry = some key ∧ s.prestagedBucket = b ∧
        s.cudaGraphCache.lookup key = some e ∧ Viable cfg declared r b e := by
  unfold decidePrestage at h
  split at h
  · rename_i hnone
    cases h
    exact .inl ⟨hnone, .inl rfl⟩
  · rename_i key hkey
    obtain ⟨ok, hv, h⟩ := bind_ok.mp h
    cases ok with
    | false =>
      cases h
      exact .inl ⟨rfl, .inr rfl⟩
    | true =>
      cases h
      obtain ⟨b, e, hb, he, hviable⟩ := viable_ok hv
      exact .inr ⟨rfl, key, b, e, hkey, hb, he, hviable⟩

/-! ### Filling the static inputs -/

/-- The rows of a lined-up buffer that are filled: as many elements as are collected,
and no more rows than there are. -/
theorem LinedUp.rows {r b size : Nat} {rest : List Nat} {info : DeclaredInput} {st : Tensor E}
    (hl : LinedUp r b info st) (hrb : r ≤ b) (hs : st.shape = size :: rest) :
    r * (size / b) * rest.prod = info.batchnElements ∧ r * (size / b) ≤ size := by
  obtain ⟨size', rest', hs', hdvd⟩ := hl.size
  rw [hs] at hs'
  cases hs'
  constructor
  · rw [hl.elements, Tensor.numel_eq hs, Nat.mul_comm size, Nat.mul_div_assoc _ hdvd,
      Nat.mul_comm rest.prod, ← Nat.mul_assoc]
  · calc r * (size / b) ≤ b * (size / b) := Nat.mul_le_mul_right _ hrb
      _ = size := Nat.mul_div_cancel' hdvd

/-- What the collector and the zeroing leave in a buffer that lines up: the
payload, then zeros. -/
theorem fillStatic_ok {r b : Nat} {info : DeclaredInput} {st : Tensor E} {values : List E}
    (hrb : r ≤ b) (hl : LinedUp r b info st) (hv : values.length = info.batchnElements) :
    ∃ filled, fillStatic r b st values = .ok filled ∧ filled.dtype = st.dtype ∧
      filled.device = st.device ∧ filled.shape = st.shape ∧
      filled.data = values.map (Scalars.cast st.dtype) ++
        List.replicate (st.numel - values.length) Scalars.zero := by
  obtain ⟨size, rest, hshape, hdvd⟩ := hl.size
  have hnumel : st.numel = size * rest.prod := Tensor.numel_eq hshape
  have hdata : st.data.length = size * rest.prod := by rw [Tensor.length_data, hnumel]
  have hinner : st.inner = rest.prod := by rw [Tensor.inner, hshape, List.tail_cons]
  let front := r * (size / b)
  obtain ⟨helements, hfront⟩ := hl.rows hrb hshape
  have hlen : values.length = front * rest.prod := by rw [hv, helements]
  have hle : values.length ≤ st.data.length := by
    rw [hlen, hdata]
    exact Nat.mul_le_mul_right _ hfront
  obtain ⟨written, hwritten⟩ :=
    Tensor.write_some (show 0 + values.length ≤ st.data.length by omega)
  obtain ⟨_, hwt, hwd, hws, hwx⟩ := Tensor.write_ok hwritten
  have hwn : written.numel = st.numel := congrArg List.prod hws
  have hsize : st.size0 = .ok size := Tensor.size0_of_shape hshape
  have hmap : (values.map (Scalars.cast st.dtype)).length = values.length := List.length_map ..
  by_cases hlt : front < size
  · have hrest : (size - front) * rest.prod = st.numel - values.length := by
      rw [Nat.sub_mul, hnumel, hlen]
    let zeros : List E := List.replicate ((size - front) * rest.prod) Scalars.zero
    have hfits : front * rest.prod + zeros.length ≤ written.data.length := by
      rw [List.length_replicate, hrest, Tensor.length_data, hwn, ← hlen]
      rw [Tensor.length_data] at hle
      omega
    obtain ⟨out, hout⟩ := Tensor.write_some hfits
    obtain ⟨_, hot, hod, hos, hox⟩ := Tensor.write_ok hout
    refine ⟨out, ?_, hot.trans hwt, hod.trans hwd, hos.trans hws, ?_⟩
    · refine bind_ok.mpr ⟨written, hwritten, bind_ok.mpr ⟨size, hsize, ?_⟩⟩
      show (if front < size then _ else _) = _
      rw [if_pos hlt, hinner]
      exact hout
    · rw [hox, List.map_replicate, Scalars.cast_zero, hwx, ← hlen, ← hmap, Dense.overwrite_cover, hmap, hrest]
      rw [hmap, List.length_replicate, hrest, Tensor.length_data]
      rw [Tensor.length_data] at hle
      omega
  · have heq : front = size := by omega
    refine ⟨written, ?_, hwt, hwd, hws, ?_⟩
    · refine bind_ok.mpr ⟨written, hwritten, bind_ok.mpr ⟨size, hsize, ?_⟩⟩
      show (if front < size then _ else _) = _
      rw [if_neg hlt]
    · have hfull : values.length = st.data.length := by rw [hlen, hdata, heq]
      rw [hwx, Dense.overwrite_zero, List.drop_eq_nil_of_le (by rw [hmap, hfull]), hfull,
        Tensor.length_data, Nat.sub_self, List.replicate_zero]

/-- The view of a lined-up buffer holds the payload. -/
theorem prestagedView_ok {r b : Nat} {info : DeclaredInput} {st filled : Tensor E} (hrb : r ≤ b)
    (hl : LinedUp r b info st) (hs : filled.shape = st.shape) :
    ∃ view size rest, st.shape = size :: rest ∧ b ∣ size ∧ prestagedView r b filled = .ok view ∧
      view.shape = r * (size / b) :: rest := by
  obtain ⟨size, rest, hshape, hdvd⟩ := hl.size
  have hle := (hl.rows hrb hshape).2
  obtain ⟨view, hview⟩ := (Tensor.narrow_ok_iff (hs.trans hshape) 0 (r * (size / b))).mpr (by omega)
  obtain ⟨n, rest', hn, _, _, _, hvs, _⟩ := Tensor.narrow_ok hview
  rw [hs, hshape] at hn
  cases hn
  exact ⟨view, size, rest, hshape, hdvd,
    bind_ok.mpr ⟨size, Tensor.size0_of_shape (hs.trans hshape), hview⟩, hvs⟩

/-- The view that stands for `r` requests of a bucket. -/
theorem prestagedView_some {r b n : Nat} {rest : List Nat} {st t : Tensor E} (hs : st.shape = n :: rest)
    (h : prestagedView r b st = .ok t) :
    t.dtype = st.dtype ∧ t.shape = r * (n / b) :: rest ∧ t.data = st.data.take (r * (n / b) * rest.prod) := by
  obtain ⟨size, hsize, h⟩ := bind_ok.mp h
  rw [Tensor.size0_of_shape hs] at hsize
  cases hsize
  obtain ⟨m, rest', hs', _, hd, _, hshape, hdata⟩ := Tensor.narrow_ok h
  rw [hs] at hs'
  cases hs'
  refine ⟨hd, hshape, ?_⟩
  rw [hdata, Nat.zero_mul, List.drop_zero]
  rfl

/-! ### The entry a batch is collected into -/

/-- The state with the static inputs of one entry rewritten. -/
structure Restaged (key : String) (e : CudaGraphEntry E) (statics : List (Tensor E))
    (s s' : GraphState E) : Prop where
  entry : s'.cudaGraphCache.lookup key = some {e with staticInputs := statics}
  others : ∀ k, k ≠ key → s'.cudaGraphCache.lookup k = s.cudaGraphCache.lookup k
  failed : s'.cudaGraphFailed = s.cudaGraphFailed
  checked : s'.warmupWidthsChecked = s.warmupWidthsChecked
  prestaged : s'.prestagedEntry = s.prestagedEntry
  bucket : s'.prestagedBucket = s.prestagedBucket

theorem Restaged.refl {key : String} {e : CudaGraphEntry E} {s : GraphState E}
    (h : s.cudaGraphCache.lookup key = some e) : Restaged key e e.staticInputs s s :=
  ⟨h, fun _ _ => rfl, rfl, rfl, rfl, rfl⟩

theorem Restaged.trans {key : String} {e : CudaGraphEntry E} {statics statics' : List (Tensor E)}
    {s t u : GraphState E} (h : Restaged key e statics s t)
    (h' : Restaged key {e with staticInputs := statics} statics' t u) : Restaged key e statics' s u where
  entry := h'.entry
  others k hk := (h'.others k hk).trans (h.others k hk)
  failed := h'.failed.trans h.failed
  checked := h'.checked.trans h.checked
  prestaged := h'.prestaged.trans h.prestaged
  bucket := h'.bucket.trans h.bucket

theorem restaged_setEntry (s : GraphState E) (key : String) (e : CudaGraphEntry E)
    (statics : List (Tensor E)) : Restaged key e statics s (s.setEntry key {e with staticInputs := statics}) where
  entry := AList.lookup_insert _
  others _ hk := AList.lookup_insert_ne hk
  failed := rfl
  checked := rfl
  prestaged := rfl
  bucket := rfl

/-- Pass 2 of a prestaged batch, as a function on the static inputs. -/
def fillAll (cfg : Config E) (requests : List (Request E)) (r : Nat) (bucket : Int) :
    List DeclaredInput → List (Tensor E) → Except Fault (List (Tensor E))
  | [], statics => .ok statics
  | info :: rest, statics =>
    match staticAt ⟨statics, []⟩ (cfg.indexOf info.name) with
    | none => .error .undefined
    | some st => do
      let filled ← fillStatic r bucket st ((payload requests info.name).take info.batchnElements)
      fillAll cfg requests r bucket rest (statics.set (cfg.indexOf info.name).toNat filled)

theorem setSlot_ok {tensors tensors' : List (Option (Tensor E))} {index : Int} {t : Tensor E}
    (h : setSlot tensors index t = .ok tensors') :
    ∃ i : Nat, index = i ∧ i < tensors.length ∧ tensors' = tensors.set i (some t) := by
  unfold setSlot at h
  split at h
  · cases h
  · rename_i hin
    cases h
    exact ⟨index.toNat, by omega, by omega, rfl⟩

theorem collectPrestaged_ok {cfg : Config E} {chance : InputChance} {requests : List (Request E)} {r : Nat}
    {key : String} {info : DeclaredInput} {c c' : Collecting E} {e : CudaGraphEntry E}
    (he : c.state.cudaGraphCache.lookup key = some e)
    (h : collectPrestaged cfg chance requests r key info c = .ok c') :
    ∃ i : Nat, ∃ st filled view, cfg.indexOf info.name = i ∧ e.staticInputs[i]? = some st ∧
      fillStatic r c.state.prestagedBucket st ((payload requests info.name).take info.batchnElements) =
        .ok filled ∧
      prestagedView r c.state.prestagedBucket filled = .ok view ∧ i < c.tensors.length ∧
      c'.tensors = c.tensors.set i (some view) ∧
      c'.state = c.state.setEntry key {e with staticInputs := e.staticInputs.set i filled} := by
  rw [collectPrestaged, he] at h
  simp only at h
  split at h
  · cases h
  · rename_i st hst
    obtain ⟨i, hi, hat⟩ := staticAt_some hst
    obtain ⟨filled, hfilled, h⟩ := bind_ok.mp h
    obtain ⟨view, hview, h⟩ := bind_ok.mp h
    obtain ⟨tensors, htensors, h⟩ := bind_ok.mp h
    obtain ⟨j, hj, hlt, hset⟩ := setSlot_ok htensors
    cases h
    have hij : j = i := by exact_mod_cast hj.symm.trans hi
    subst hij
    refine ⟨j, st, filled, view, hi, hat, hfilled, hview, hlt, hset, ?_⟩
    rw [hi, Int.toNat_natCast]

/-- A prestaged pass 2 rewrites the static inputs of the entry as `fillAll` does. -/
theorem collectFrom_prestaged {cfg : Config E} {chance : InputChance} {r : Nat} {requests : List (Request E)}
    {declared : List DeclaredInput} {c c' : Collecting E} {error : Option TritonError} {key : String}
    {e : CudaGraphEntry E} (hkey : c.state.prestagedEntry = some key)
    (he : c.state.cudaGraphCache.lookup key = some e)
    (h : collectFrom cfg chance r requests declared c = .ok (c', error)) :
    error = none ∧ ∃ statics, fillAll cfg requests r c.state.prestagedBucket declared e.staticInputs =
      .ok statics ∧ Restaged key e statics c.state c'.state := by
  induction declared generalizing c e with
  | nil =>
    cases h
    exact ⟨rfl, e.staticInputs, rfl, .refl he⟩
  | cons info rest ih =>
    rw [collectFrom, hkey] at h
    obtain ⟨mid, hmid, h⟩ := bind_ok.mp h
    obtain ⟨i, st, filled, view, hi, hat, hfilled, _, _, _, hstate⟩ := collectPrestaged_ok he hmid
    have hstep := restaged_setEntry c.state key e (e.staticInputs.set i filled)
    rw [← hstate] at hstep
    obtain ⟨herror, statics, hfill, hrest⟩ := ih (hstep.prestaged.trans hkey) hstep.entry h
    refine ⟨herror, statics, ?_, hstep.trans hrest⟩
    rw [hstep.bucket] at hfill
    rw [fillAll]
    have hst : staticAt (⟨e.staticInputs, []⟩ : CudaGraphEntry E) (cfg.indexOf info.name) = some st := by
      rw [hi, staticAt, if_neg (by omega), Int.toNat_natCast]
      exact hat
    rw [hst]
    refine bind_ok.mpr ⟨filled, hfilled, ?_⟩
    rw [hi, Int.toNat_natCast]
    exact hfill

/-- Where nothing is prestaged the inputs are collected beside the cache. -/
theorem collectFrom_slow {cfg : Config E} {chance : InputChance} {r : Nat} {requests : List (Request E)}
    {declared : List DeclaredInput} {c c' : Collecting E} {error : Option TritonError}
    (hkey : c.state.prestagedEntry = none)
    (h : collectFrom cfg chance r requests declared c = .ok (c', error)) : c'.state = c.state := by
  induction declared generalizing c with
  | nil =>
    cases h
    rfl
  | cons info rest ih =>
    rw [collectFrom, hkey] at h
    simp only at h
    split at h
    · cases h
      rfl
    · obtain ⟨mid, hmid, h⟩ := bind_ok.mp h
      rw [collectSlow] at hmid
      obtain ⟨t, _, hmid⟩ := bind_ok.mp hmid
      obtain ⟨tensors, _, hmid⟩ := bind_ok.mp hmid
      cases hmid
      exact ih (c := ⟨c.state, tensors, _⟩) hkey h

/-- A batch input is collected beside the cache, and no response is sent for it. -/
theorem collectBatchInput_keeps {cfg : Config E} {chance : InputChance} {r : Nat}
    {requests : List (Request E)} {target : BatchInput × String} {c c' : Collecting E}
    (h : collectBatchInput cfg chance r requests target c = .ok c') :
    c'.state = c.state ∧ c'.responses = c.responses := by
  rw [collectBatchInput] at h
  split at h
  · split at h
    · cases h
    · split at h
      · cases h
      · obtain ⟨view, _, h⟩ := bind_ok.mp h
        obtain ⟨tensors, _, h⟩ := bind_ok.mp h
        cases h
        exact ⟨rfl, rfl⟩
  · split at h
    · cases h
    · obtain ⟨t, _, h⟩ := bind_ok.mp h
      obtain ⟨tensors, _, h⟩ := bind_ok.mp h
      cases h
      exact ⟨rfl, rfl⟩

theorem collectBatchInputs_keeps {cfg : Config E} {chance : InputChance} {r : Nat}
    {requests : List (Request E)} {targets : List (BatchInput × String)} {c c' : Collecting E}
    (h : collectBatchInputs cfg chance r requests targets c = .ok c') :
    c'.state = c.state ∧ c'.responses = c.responses := by
  induction targets generalizing c with
  | nil =>
    cases h
    exact ⟨rfl, rfl⟩
  | cons target rest ih =>
    rw [collectBatchInputs] at h
    obtain ⟨mid, hmid, h⟩ := bind_ok.mp h
    obtain ⟨hstate, hresponses⟩ := collectBatchInput_keeps hmid
    exact ⟨(ih h).1.trans hstate, (ih h).2.trans hresponses⟩

theorem collectBatchInputs_state {cfg : Config E} {chance : InputChance} {r : Nat}
    {requests : List (Request E)} {targets : List (BatchInput × String)} {c c' : Collecting E}
    (h : collectBatchInputs cfg chance r requests targets c = .ok c') : c'.state = c.state :=
  (collectBatchInputs_keeps h).1

/-! ### The whole call -/

/-- What `SetInputTensors` leaves of the state when it returns: nothing is prestaged
and the cache is as it was, or the batch is viable for the prestaged entry and its
static inputs hold the batch. -/
inductive Staged (cfg : Config E) (requests : List (Request E)) (r : Nat) (declared : List DeclaredInput)
    (s s' : GraphState E) : Prop where
  | beside (none_ : s'.prestagedEntry = none)
      (same : s' = s ∨ s' = {s with prestagedEntry := none, prestagedBucket := -1})
  | into {key : String} {b : Nat} {e : CudaGraphEntry E} {statics : List (Tensor E)}
      (prestaged : s.prestagedEntry = some key) (bucket : s.prestagedBucket = b)
      (entry : s.cudaGraphCache.lookup key = some e) (viable : Viable cfg declared r b e)
      (filled : fillAll cfg requests r b declared e.staticInputs = .ok statics)
      (restaged : Restaged key e statics s s')

theorem declareInput_name (cfg : Config E) (total : Nat) (requests : List (Request E)) (input : RequestInput E) :
    (declareInput cfg total requests input).name = input.name := by
  unfold declareInput
  split <;> rfl

theorem declareFrom_ok {cfg : Config E} {chance : InputChance} {r : Nat} {requests : List (Request E)}
    {i : Nat} {inputs : List (RequestInput E)} {declared : List DeclaredInput}
    (h : declareFrom cfg chance r requests i inputs = .ok (.ok declared)) :
    declared = inputs.map (declareInput cfg r requests) := by
  induction inputs generalizing i declared with
  | nil =>
    cases h
    rfl
  | cons input rest ih =>
    rw [declareFrom] at h
    split at h
    · cases h
    · split at h
      · cases h
      · split at h
        · cases h
        · obtain ⟨later, hlater, h⟩ := bind_ok.mp h
          cases later with
          | error err => cases h
          | ok later =>
            cases h
            rw [ih hlater, List.map_cons]

/-- The inputs of a batch as pass 1 describes them. -/
def declaredInputs (cfg : Config E) (r : Nat) (requests : List (Request E)) : List DeclaredInput :=
  match requests with
  | [] => []
  | first :: _ => first.inputs.map (declareInput cfg r requests)

/-- What an error of pass 1 leaves, and the two passes of a call without one. -/
theorem setInputTensors_ok {cfg : Config E} {chance : InputChance} {r : Nat} {requests : List (Request E)}
    {s : GraphState E} {responses : Responses} {c : Collecting E} {error : Option TritonError}
    (h : setInputTensors cfg chance r requests s responses = .ok (c, error)) :
    (error ≠ none ∧ c.state = s) ∨
      ∃ s' mid err, decidePrestage cfg (declaredInputs cfg r requests) r s = .ok s' ∧
        collectFrom cfg chance r requests (declaredInputs cfg r requests)
          ⟨s', List.replicate ((declaredInputs cfg r requests).length + cfg.batchInputCount) none,
            responses⟩ = .ok (mid, err) ∧
        ((err = error ∧ error ≠ none ∧ c = mid) ∨
          err = none ∧ error = none ∧
            collectBatchInputs cfg chance r requests cfg.batchInputTargets mid = .ok c) := by
  unfold setInputTensors at h
  split at h
  · cases h
    exact .inl ⟨nofun, rfl⟩
  · cases h
  · rename_i first rest _
    obtain ⟨declared, hdecl, h⟩ := bind_ok.mp h
    cases declared with
    | error err =>
      cases h
      exact .inl ⟨nofun, rfl⟩
    | ok declared =>
      obtain rfl : declared = declaredInputs cfg r (first :: rest) := declareFrom_ok hdecl
      obtain ⟨s', hs', h⟩ := bind_ok.mp h
      obtain ⟨⟨mid, err⟩, hmid, h⟩ := bind_ok.mp h
      refine .inr ⟨s', mid, err, hs', ?_, ?_⟩
      · rw [← hmid]
        congr 3
        rw [declaredInputs, List.length_map]
      · cases err with
        | some err =>
          cases h
          exact .inl ⟨rfl, nofun, rfl⟩
        | none =>
          obtain ⟨last, hlast, h⟩ := bind_ok.mp h
          cases h
          exact .inr ⟨rfl, rfl, hlast⟩

/-- **`SetInputTensors` rewrites at most the entry it was given**, and only where
the batch is viable for it. -/
theorem setInputTensors_staged {cfg : Config E} {chance : InputChance} {r : Nat}
    {requests : List (Request E)} {s : GraphState E} {responses : Responses} {c : Collecting E}
    {error : Option TritonError}
    (h : setInputTensors cfg chance r requests s responses = .ok (c, error)) :
    c.state = s ∨ Staged cfg requests r (declaredInputs cfg r requests) s c.state := by
  rcases setInputTensors_ok h with ⟨_, hsame⟩ | ⟨s', mid, err, hdecide, hcollect, hend⟩
  · exact .inl hsame
  · have hstate : c.state = mid.state := by
      rcases hend with ⟨_, _, rfl⟩ | ⟨_, _, hbatch⟩
      · rfl
      · exact collectBatchInputs_state hbatch
    rw [hstate]
    refine .inr ?_
    rcases decidePrestage_ok hdecide with ⟨hnone, hsame⟩ | ⟨rfl, key, b, e, hkey, hb, he, hv⟩
    · rw [collectFrom_slow hnone hcollect]
      exact .beside hnone hsame
    · obtain ⟨_, statics, hfill, hrest⟩ := collectFrom_prestaged hkey he hcollect
      rw [hb] at hfill
      exact .into hkey hb he hv hfill hrest

/-- Whether a batch stays prestaged is decided before anything is collected. -/
theorem setInputTensors_decided {cfg : Config E} {chance : InputChance} {r : Nat}
    {requests : List (Request E)} {s s' : GraphState E} {responses : Responses} {c : Collecting E}
    (h : setInputTensors cfg chance r requests s responses = .ok (c, none))
    (hdecide : decidePrestage cfg (declaredInputs cfg r requests) r s = .ok s') :
    c.state.prestagedEntry = s'.prestagedEntry := by
  rcases setInputTensors_ok h with ⟨herr, _⟩ | ⟨_, mid, err, hdecide', hcollect, hend⟩
  · exact absurd rfl herr
  · rw [hdecide] at hdecide'
    cases hdecide'
    rcases hend with ⟨_, herr, _⟩ | ⟨_, _, hbatch⟩
    · exact absurd rfl herr
    · rw [collectBatchInputs_state hbatch]
      rcases decidePrestage_ok hdecide with ⟨hnone, _⟩ | ⟨rfl, key, b, e, hkey, _, he, _⟩
      · rw [collectFrom_slow hnone hcollect]
      · obtain ⟨_, _, _, hrest⟩ := collectFrom_prestaged hkey he hcollect
        exact hrest.prestaged

end TritonAot
