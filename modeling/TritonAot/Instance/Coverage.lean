import TritonAot.Instance.Lifecycle
import TritonAot.Instance.Packed
import TritonAot.Instance.Slots

/-! Collecting a batch into static buffers covers each buffer exactly.

The bytes handed to the collector are counted in elements, the bytes zeroed behind
them in rows. In a buffer that lines up the first range ends where the second begins
and the second ends with the buffer (`Covers`). So nothing of what the buffer held
before is left, and the view that stands for the model input is the payload. -/
namespace TritonAot

variable {E : Type} [Scalars E]

/-! ### The two ranges -/

/-- The bytes of a buffer. -/
def bufferBytes (elementSize : Nat) (st : Tensor E) : Set Nat := Set.Ico 0 (st.numel * elementSize)

/-- The bytes handed to the collector: `batchn_byte_size` from the start of the buffer. -/
def collectedBytes (elementSize : Nat) (info : DeclaredInput) : Set Nat :=
  Set.Ico 0 (info.batchnElements * elementSize)

/-- The bytes of `narrow(0, start, len)`. -/
def rowBytes (elementSize : Nat) (st : Tensor E) (start len : Nat) : Set Nat :=
  Set.Ico (start * st.inner * elementSize) ((start + len) * st.inner * elementSize)

/-- The bytes zeroed afterwards, in a buffer of `size` rows. -/
def zeroedBytes (elementSize r : Nat) (bucket : Int) (st : Tensor E) (size : Nat) : Set Nat :=
  let front := prefixDim0 r bucket size
  if front < size then rowBytes elementSize st front (size - front) else ∅

/-- The two ranges are inside the buffer, disjoint, and together all of it. -/
structure Covers (elementSize r : Nat) (bucket : Int) (info : DeclaredInput) (st : Tensor E) (size : Nat) :
    Prop where
  collected : collectedBytes elementSize info ⊆ bufferBytes elementSize st
  zeroed : zeroedBytes elementSize r bucket st size ⊆ bufferBytes elementSize st
  disjoint : Disjoint (collectedBytes elementSize info) (zeroedBytes elementSize r bucket st size)
  union : collectedBytes elementSize info ∪ zeroedBytes elementSize r bucket st size =
    bufferBytes elementSize st

theorem prefixDim0_natCast (r b size : Nat) : prefixDim0 r b size = r * (size / b) := by
  rw [prefixDim0, Int.toNat_natCast]

/-- What is zeroed begins where the collector ends and ends with the buffer. -/
theorem LinedUp.zeroedBytes_eq {r b size : Nat} {rest : List Nat} {info : DeclaredInput} {st : Tensor E}
    (hl : LinedUp r b info st) (hrb : r ≤ b) (hs : st.shape = size :: rest) (elementSize : Nat) :
    zeroedBytes elementSize r b st size =
      Set.Ico (info.batchnElements * elementSize) (st.numel * elementSize) := by
  obtain ⟨helements, hfront⟩ := hl.rows hrb hs
  have hinner : st.inner = rest.prod := by rw [Tensor.inner, hs, List.tail_cons]
  unfold zeroedBytes rowBytes
  simp only
  split
  · rw [prefixDim0_natCast, hinner, helements, Nat.add_sub_cancel' hfront, Tensor.numel_eq hs]
  · rename_i hlt
    rw [prefixDim0_natCast] at hlt
    have hfull : r * (size / b) = size := by omega
    rw [hfull] at helements
    rw [Tensor.numel_eq hs, helements, Set.Ico_self]

theorem LinedUp.covers {r b size : Nat} {rest : List Nat} {info : DeclaredInput} {st : Tensor E}
    (hl : LinedUp r b info st) (hrb : r ≤ b) (hs : st.shape = size :: rest) (elementSize : Nat) :
    Covers elementSize r b info st size := by
  have hzeroed := hl.zeroedBytes_eq hrb hs elementSize
  have hle : info.batchnElements * elementSize ≤ st.numel * elementSize := by
    obtain ⟨helements, hfront⟩ := hl.rows hrb hs
    refine Nat.mul_le_mul_right _ ?_
    rw [← helements, Tensor.numel_eq hs]
    exact Nat.mul_le_mul_right _ hfront
  refine ⟨Set.Ico_subset_Ico_right hle, ?_, ?_, ?_⟩
  · rw [hzeroed]
    exact Set.Ico_subset_Ico_left (Nat.zero_le _)
  · rw [hzeroed]
    exact Set.Ico_disjoint_Ico_same
  · rw [hzeroed]
    exact Set.Ico_union_Ico_eq_Ico (Nat.zero_le _) hle

/-! ### One declared input -/

/-- Where a prestaged pass 2 stands: the entry has buffers like the first ones, and
there is a slot for each. -/
structure Into (key : String) (b : Nat) (first : List (Tensor E)) (c : Collecting E) (e : CudaGraphEntry E) :
    Prop where
  prestaged : c.state.prestagedEntry = some key
  bucket : c.state.prestagedBucket = b
  entry : c.state.cudaGraphCache.lookup key = some e
  like : AllLike e.staticInputs first
  slots : c.tensors.length = first.length

/-- The collector writes the bytes that were counted, values of the declared type. -/
structure Delivered (requests : List (Request E)) (info : DeclaredInput) : Prop where
  counted : (payload requests info.name).length = info.batchnElements
  typed : ∀ x ∈ payload requests info.name,
    Scalars.cast (convertDataTypeToTorchType info.datatype).2 x = x

/-- A buffer holds the payload and then zeros only, and the view that stands for the
model input the payload. -/
structure Payload (r b : Nat) (info : DeclaredInput) (values : List E) (st filled view : Tensor E) :
    Prop where
  like : Tensor.Like filled st
  buffer : filled.data = values ++ List.replicate (st.numel - info.batchnElements) Scalars.zero
  viewed : prestagedView r b filled = .ok view
  view : view.data = values

section Pass
variable {cfg : Config E} {requests : List (Request E)} {r b : Nat} {key : String}
  {first : List (Tensor E)} {e : CudaGraphEntry E}

/-- The buffer at a place, as it is by then. -/
theorem Into.at_place {i : Nat} {st : Tensor E} {c : Collecting E} (h : Into key b first c e)
    (hst : first[i]? = some st) : ∃ mid, e.staticInputs[i]? = some mid ∧ Tensor.Like mid st := by
  have hlt : i < e.staticInputs.length := h.like.length_eq ▸ (List.getElem?_eq_some_iff.mp hst).1
  obtain ⟨st', hst', hlike⟩ := h.like.get (List.getElem?_eq_getElem hlt)
  rw [hst] at hst'
  cases hst'
  exact ⟨_, List.getElem?_eq_getElem hlt, hlike⟩

theorem indexOf_some {name : String} {i : Nat} (h : cfg.inputIndexMap name = some (i : Int)) :
    cfg.indexOf name = i := by rw [Config.indexOf, h, Option.getD_some]

theorem lt_of_getElem?_some {α : Type} {xs : List α} {i : Nat} {x : α} (h : xs[i]? = some x) :
    i < xs.length := (List.getElem?_eq_some_iff.mp h).1

/-- What is filled is the payload, whatever the buffer held. -/
theorem LinedUp.filled {info : DeclaredInput} {st mid : Tensor E} (hl : LinedUp r b info st)
    (hrb : r ≤ b) (hmid : Tensor.Like mid st) (hdelivered : Delivered requests info) :
    ∃ filled view, fillStatic r b mid (payload requests info.name) = .ok filled ∧
      Payload r b info (payload requests info.name) st filled view := by
  have hv := hdelivered.counted
  obtain ⟨filled, hfill, _, _, hs, hdata⟩ := fillStatic_ok hrb (hl.of_like hmid) hv
  obtain ⟨view, size, rest, hshape, _, hview, _⟩ := prestagedView_ok hrb hl (hs.trans hmid.shape)
  have hmap : (payload requests info.name).map (Scalars.cast mid.dtype) = payload requests info.name := by
    rw [hmid.dtype, hl.dtype]
    exact (List.map_congr_left hdelivered.typed).trans (List.map_id' _)
  have hbuffer : filled.data = payload requests info.name ++
      List.replicate (st.numel - info.batchnElements) Scalars.zero := by
    rw [hdata, hmap, hv, Tensor.numel, hmid.shape]
    rfl
  refine ⟨filled, view, hfill, (fillStatic_like hfill).trans hmid, hbuffer, hview, ?_⟩
  obtain ⟨_, _, hdata'⟩ := prestagedView_some ((hs.trans hmid.shape).trans hshape) hview
  rw [hdata', (hl.rows hrb hshape).1, hbuffer, ← hv, List.take_left]

/-- One declared input that lines up is collected. -/
theorem Into.collect {info : DeclaredInput} {i : Nat} {st : Tensor E} {c : Collecting E}
    (h : Into key b first c e) (hrb : r ≤ b) (hi : cfg.inputIndexMap info.name = some (i : Int))
    (hst : first[i]? = some st) (hl : LinedUp r b info st)
    (hdelivered : Delivered requests info) (chance : InputChance) :
    ∃ c' filled view, collectPrestaged cfg chance requests r key info c = .ok c' ∧
      Payload r b info (payload requests info.name) st filled view ∧
      Into key b first c' {e with staticInputs := e.staticInputs.set i filled} ∧
      c'.tensors = c.tensors.set i (some view) := by
  have hlt : i < first.length := lt_of_getElem?_some hst
  obtain ⟨mid, hmid, hlike⟩ := h.at_place hst
  obtain ⟨filled, view, hfill, hpayload⟩ := hl.filled hrb hlike hdelivered
  have hslot : setSlot c.tensors (cfg.indexOf info.name) view = .ok (c.tensors.set i (some view)) := by
    rw [setSlot, indexOf_some hi, if_neg (by rw [h.slots]; omega), Int.toNat_natCast]
  refine ⟨⟨c.state.setEntry key {e with staticInputs := e.staticInputs.set i filled},
    c.tensors.set i (some view), failEach (chance.collected info.name) c.responses⟩, filled, view, ?_,
    hpayload, ?_, rfl⟩
  · rw [indexOf_some hi] at hslot
    rw [collectPrestaged, h.entry]
    simp only [staticAt, indexOf_some hi, if_neg (Int.not_lt.mpr (Int.natCast_nonneg i)), Int.toNat_natCast,
      hmid]
    rw [h.bucket, ← hdelivered.counted, List.take_length]
    exact bind_ok.mpr ⟨filled, hfill, bind_ok.mpr ⟨view, hpayload.viewed, bind_ok.mpr ⟨_, hslot, rfl⟩⟩⟩
  · have hset := restaged_setEntry c.state key e (e.staticInputs.set i filled)
    refine ⟨hset.prestaged.trans h.prestaged, hset.bucket.trans h.bucket, hset.entry, ?_, ?_⟩
    · exact (allLike_set hmid (hpayload.like.trans hlike.symm)).trans h.like
    · rw [List.length_set, h.slots]

/-! ### Pass 2 -/

/-- The declared inputs that are still to be collected line up, and each is delivered. -/
structure Collectable (cfg : Config E) (requests : List (Request E)) (r b : Nat) (first : List (Tensor E))
    (declared : List DeclaredInput) : Prop where
  lined : ∀ info ∈ declared, ∃ i : Nat, ∃ st, cfg.inputIndexMap info.name = some (i : Int) ∧
    first[i]? = some st ∧ LinedUp r b info st
  delivered : ∀ info ∈ declared, Delivered requests info

theorem Collectable.tail {info : DeclaredInput} {rest : List DeclaredInput}
    (h : Collectable cfg requests r b first (info :: rest)) : Collectable cfg requests r b first rest :=
  ⟨fun i hi => h.lined i (List.mem_cons_of_mem _ hi), fun i hi => h.delivered i (List.mem_cons_of_mem _ hi)⟩

/-- Pass 2 collects them all, and leaves alone what none of them is mapped to. -/
theorem Into.collectFrom {declared : List DeclaredInput} {c : Collecting E} (h : Into key b first c e)
    (hrb : r ≤ b) (hall : Collectable cfg requests r b first declared) (chance : InputChance) :
    ∃ c' e', collectFrom cfg chance r requests declared c = .ok (c', none) ∧ Into key b first c' e' ∧
      ∀ i : Nat, (∀ info ∈ declared, cfg.indexOf info.name ≠ i) →
        e'.staticInputs[i]? = e.staticInputs[i]? ∧ c'.tensors[i]? = c.tensors[i]? := by
  induction declared generalizing c e with
  | nil => exact ⟨c, e, rfl, h, fun _ _ => ⟨rfl, rfl⟩⟩
  | cons info rest ih =>
    obtain ⟨i, st, hi, hst, hl⟩ := hall.lined info (List.mem_cons_self ..)
    obtain ⟨mid, filled, view, hmid, _, hinto, htensors⟩ := h.collect hrb hi hst hl
      (hall.delivered info (List.mem_cons_self ..)) chance
    obtain ⟨c', e', hrest, hlast, hframe⟩ := ih hinto hall.tail
    refine ⟨c', e', ?_, hlast, fun j hj => ?_⟩
    · rw [TritonAot.collectFrom, h.prestaged]
      exact bind_ok.mpr ⟨mid, hmid, hrest⟩
    · have hne : i ≠ j := fun he => hj info (List.mem_cons_self ..) (he ▸ indexOf_some hi)
      obtain ⟨hstatics, hslots⟩ := hframe j fun d hd => hj d (List.mem_cons_of_mem _ hd)
      rw [hstatics, hslots, htensors]
      exact ⟨List.getElem?_set_ne hne, List.getElem?_set_ne hne⟩

/-- What it leaves of an input that is the last to be written to its place. -/
theorem Into.collectFrom_payload {before after : List DeclaredInput} {info : DeclaredInput}
    {c : Collecting E} (h : Into key b first c e) (hrb : r ≤ b)
    (hall : Collectable cfg requests r b first (before ++ info :: after))
    (hlast : ∀ other ∈ after, cfg.indexOf other.name ≠ cfg.indexOf info.name) (chance : InputChance) :
    ∃ c' e', TritonAot.collectFrom cfg chance r requests (before ++ info :: after) c = .ok (c', none) ∧
      Into key b first c' e' ∧ ∃ i : Nat, ∃ st filled view, cfg.inputIndexMap info.name = some (i : Int) ∧
        first[i]? = some st ∧ LinedUp r b info st ∧ e'.staticInputs[i]? = some filled ∧
        c'.tensors[i]? = some (some view) ∧ Payload r b info (payload requests info.name) st filled view := by
  induction before generalizing c e with
  | nil =>
    obtain ⟨i, st, hi, hst, hl⟩ := hall.lined info (List.mem_cons_self ..)
    obtain ⟨mid, filled, view, hmid, hpayload, hinto, htensors⟩ := h.collect hrb hi hst hl
      (hall.delivered info (List.mem_cons_self ..)) chance
    obtain ⟨c', e', hrest, hend, hframe⟩ := hinto.collectFrom hrb hall.tail chance
    obtain ⟨hstatics, hslots⟩ := hframe i fun d hd => (indexOf_some hi) ▸ hlast d hd
    have hlt := lt_of_getElem?_some hst
    refine ⟨c', e', ?_, hend, i, st, filled, view, hi, hst, hl, ?_, ?_, hpayload⟩
    · rw [List.nil_append, TritonAot.collectFrom, h.prestaged]
      exact bind_ok.mpr ⟨mid, hmid, hrest⟩
    · rw [hstatics]
      exact List.getElem?_set_self (h.like.length_eq ▸ hlt)
    · rw [hslots, htensors]
      exact List.getElem?_set_self (h.slots ▸ hlt)
  | cons other rest ih =>
    obtain ⟨i, st, hi, hst, hl⟩ := hall.lined other (List.mem_cons_self ..)
    obtain ⟨mid, filled, view, hmid, _, hinto, _⟩ := h.collect hrb hi hst hl
      (hall.delivered other (List.mem_cons_self ..)) chance
    obtain ⟨c', e', hrest, hend⟩ := ih hinto hall.tail
    refine ⟨c', e', ?_, hend⟩
    rw [List.cons_append, TritonAot.collectFrom, h.prestaged]
    exact bind_ok.mpr ⟨mid, hmid, hrest⟩

/-- The views of the batch inputs leave the buffers alone, and the views of the buffers. -/
theorem Into.collectBatchInputs {targets : List (BatchInput × String)} {c : Collecting E}
    (h : Into key b first c e) (hrb : r ≤ b)
    (htargets : ∀ t ∈ targets, ∃ i : Nat, ∃ st size rest, cfg.inputIndexMap t.2 = some (i : Int) ∧
      first[i]? = some st ∧ st.shape = size :: rest ∧ b ∣ size) (chance : InputChance) :
    ∃ c', collectBatchInputs cfg chance r requests targets c = .ok c' ∧ c'.state = c.state ∧
      ∀ (i : Nat) (st view : Tensor E), e.staticInputs[i]? = some st → prestagedView r b st = .ok view →
        c.tensors[i]? = some (some view) → c'.tensors[i]? = some (some view) := by
  induction targets generalizing c with
  | nil => exact ⟨c, rfl, rfl, fun _ _ _ _ _ hslot => hslot⟩
  | cons target rest ih =>
    obtain ⟨i, st, size, dims, hi, hst, hs, hdvd⟩ := htargets target (List.mem_cons_self ..)
    have hlt : i < first.length := lt_of_getElem?_some hst
    obtain ⟨mid, hmid, hlike⟩ := h.at_place hst
    have hrows : 0 + r * (size / b) ≤ size := by
      rw [Nat.zero_add]
      calc r * (size / b) ≤ b * (size / b) := Nat.mul_le_mul_right _ hrb
        _ = size := Nat.mul_div_cancel' hdvd
    obtain ⟨view, hnarrow⟩ := (Tensor.narrow_ok_iff (hlike.shape.trans hs) 0 _).mpr hrows
    have hview : prestagedView r b mid = .ok view :=
      bind_ok.mpr ⟨size, Tensor.size0_of_shape (hlike.shape.trans hs), hnarrow⟩
    have hslot : setSlot c.tensors i view = .ok (c.tensors.set i (some view)) := by
      rw [setSlot, if_neg (by rw [h.slots]; omega), Int.toNat_natCast]
    have hone : collectBatchInput cfg chance r requests target c =
        .ok {c with tensors := c.tensors.set i (some view)} := by
      rw [collectBatchInput, h.prestaged]
      simp only [h.entry, staticAt, indexOf_some hi, if_neg (Int.not_lt.mpr (Int.natCast_nonneg i)),
        Int.toNat_natCast, hmid]
      rw [h.bucket]
      exact bind_ok.mpr ⟨view, hview, bind_ok.mpr ⟨_, hslot, rfl⟩⟩
    have hinto : Into key b first {c with tensors := c.tensors.set i (some view)} e :=
      ⟨h.prestaged, h.bucket, h.entry, h.like, by rw [List.length_set, h.slots]⟩
    obtain ⟨c', hrest, hstate, hframe⟩ := ih hinto fun t ht => htargets t (List.mem_cons_of_mem _ ht)
    refine ⟨c', bind_ok.mpr ⟨_, hone, hrest⟩, hstate, fun j st' view' hst' hview' hslot' => ?_⟩
    refine hframe j st' view' hst' hview' ?_
    by_cases hij : i = j
    · -- a target at the place of an input: the same view once more
      subst hij
      rw [hmid] at hst'
      cases hst'
      rw [hview] at hview'
      cases hview'
      exact List.getElem?_set_self (h.slots ▸ hlt)
    · rw [← hslot']
      exact List.getElem?_set_ne hij

end Pass

/-! ### The whole call -/

/-- The static buffer of a declared input after a batch, and the model input it became. -/
structure Covered (cfg : Config E) (requests : List (Request E)) (r b : Nat) (info : DeclaredInput)
    (e e' : CudaGraphEntry E) (tensors : List (Option (Tensor E))) : Prop where
  held : ∃ i : Nat, ∃ st filled view, cfg.inputIndexMap info.name = some (i : Int) ∧
    e.staticInputs[i]? = some st ∧ e'.staticInputs[i]? = some filled ∧ tensors[i]? = some (some view) ∧
    Payload r b info (payload requests info.name) st filled view

/-- **A batch that is viable covers each static buffer exactly, and leaves no stale data.**
Every input's two ranges are inside its buffer, disjoint and together all of it, and
whatever the buffer held it then holds the payload and zeros. Of inputs mapped to one
buffer the last is the one that it then holds. -/
theorem setInputTensors_covers {cfg : Config E} {chance : InputChance} {r : Nat} {first : Request E}
    {rest : List (Request E)} {s : GraphState E} (responses : Responses) {key : String}
    {declared : List DeclaredInput} (hcount : chance.inputCount = none)
    (hdeclared : declareFrom cfg chance r (first :: rest) 0 first.inputs = .ok (.ok declared))
    (hkey : s.prestagedEntry = some key)
    (hviable : viable cfg declared r key s.prestagedBucket s = .ok true)
    (hdelivered : ∀ info ∈ declared, Delivered (first :: rest) info) :
    ∃ (b : Nat) (e e' : CudaGraphEntry E) (c : Collecting E), s.prestagedBucket = b ∧
      s.cudaGraphCache.lookup key = some e ∧
      setInputTensors cfg chance r (first :: rest) s responses = .ok (c, none) ∧
      c.state.cudaGraphCache.lookup key = some e' ∧
      (∀ info ∈ declared, ∃ i : Nat, ∃ st size, cfg.inputIndexMap info.name = some (i : Int) ∧
        e.staticInputs[i]? = some st ∧ Leads st size ∧
        ∀ elementSize, Covers elementSize r b info st size) ∧
      ∀ before info after, declared = before ++ info :: after →
        (∀ other ∈ after, cfg.indexOf other.name ≠ cfg.indexOf info.name) →
        Covered cfg (first :: rest) r b info e e' c.tensors := by
  obtain ⟨b, e, hb, he, hv⟩ := viable_ok hviable
  have hlength : declared.length = first.inputs.length := by
    rw [declareFrom_ok hdeclared, List.length_map]
  have hinto : Into key b e.staticInputs
      ⟨s, List.replicate (first.inputs.length + cfg.batchInputCount) none, responses⟩ e :=
    ⟨hkey, hb, he, .refl _, by rw [List.length_replicate, hv.arity, hlength]⟩
  have hall : Collectable cfg (first :: rest) r b e.staticInputs declared := ⟨hv.declared, hdelivered⟩
  obtain ⟨mid, e', hmid, hinto', _⟩ := hinto.collectFrom hv.le hall chance
  obtain ⟨c, hc, hstate, hviews⟩ := hinto'.collectBatchInputs hv.le hv.targets chance
  have hset : setInputTensors cfg chance r (first :: rest) s responses = .ok (c, none) := by
    have hdecide : decidePrestage cfg declared r s = .ok s := by
      rw [decidePrestage, hkey]
      exact bind_ok.mpr ⟨true, hviable, rfl⟩
    unfold setInputTensors
    rw [hcount]
    exact bind_ok.mpr ⟨.ok declared, hdeclared,
      bind_ok.mpr ⟨s, hdecide, bind_ok.mpr ⟨(mid, none), hmid, bind_ok.mpr ⟨c, hc, rfl⟩⟩⟩⟩
  refine ⟨b, e, e', c, hb, he, hset, hstate ▸ hinto'.entry, fun info hi => ?_, fun before info after hd hlast => ?_⟩
  · obtain ⟨i, st, hi, hst, hl⟩ := hv.declared info hi
    obtain ⟨size, dims, hs, _⟩ := hl.size
    exact ⟨i, st, size, hi, hst, ⟨dims, hs⟩, hl.covers hv.le hs⟩
  · subst hd
    obtain ⟨mid', e'', hmid', hinto'', i, st, filled, view, hi, hst, _, hfilled, hslot, hpayload⟩ :=
      hinto.collectFrom_payload hv.le hall hlast chance
    rw [hmid] at hmid'
    cases hmid'
    have he' : e' = e'' := Option.some.inj (hinto'.entry.symm.trans hinto''.entry)
    subst he'
    exact ⟨i, st, filled, view, hi, hst, hfilled, hviews i filled view hfilled hpayload.viewed hslot, hpayload⟩

/-- One request is collected into the bucket of two, its first input in front of a zero. -/
theorem setInputTensors_covers_one : ∃ e e' c,
    setInputTensors warmPackedConfig .smooth 1 [packedRequest 1 1 1]
      (prestage warmPackedConfig 1 false (loaded warmPackedConfig id fun _ => some true)) ⟨[], []⟩ = .ok (c, none) ∧
    Covered warmPackedConfig [packedRequest 1 1 1] 1 2
      (declareInput warmPackedConfig 1 [packedRequest 1 1 1] (onesInput "SINGLE__0" .fp64 [1, 1])) e e'
      c.tensors := by
  have hdeclared : declareFrom warmPackedConfig .smooth 1 [packedRequest 1 1 1] 0 (packedRequest 1 1 1).inputs =
    .ok (.ok _) := rfl
  have hkey : (prestage warmPackedConfig 1 false (loaded warmPackedConfig id fun _ => some true)).prestagedEntry =
    some "R=2" := rfl
  obtain ⟨b, e, e', c, hb, _, hset, _, _, hcovered⟩ := setInputTensors_covers ⟨[], []⟩ rfl hdeclared hkey rfl
    (List.forall_mem_cons.mpr ⟨⟨rfl, by decide⟩, List.forall_mem_cons.mpr ⟨⟨rfl, by decide⟩,
      List.forall_mem_nil _⟩⟩)
  obtain rfl : b = 2 := by exact_mod_cast hb.symm.trans (show _ = (2 : Int) from rfl)
  exact ⟨e, e', c, hset, hcovered [] _ _ rfl (by decide)⟩

end TritonAot
