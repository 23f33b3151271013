import TritonAot.Instance.Collect
import TritonAot.Lib.Slots

/-! What is written where.

Both passes write numbered places in order: the static inputs of the prestaged
entry (`fillAll_writes`), and the model inputs, a tensor for each declared input and
then one for each target of a batch input (`setInputTensors_slots`). -/
namespace TritonAot

open Slots

variable {E : Type} [Scalars E]

/-- A write of the place that a name is mapped to, one of `n`. -/
structure Wrote (cfg : Config E) (n : Nat) {α : Type} (name : String) (is : α → Prop) (w : Nat × α) :
    Prop where
  index : cfg.indexOf name = w.1
  lt : w.1 < n
  value : is w.2

/-! ### The static inputs -/

/-- Tensors that differ in their elements only. -/
structure Tensor.Like (s t : Tensor E) : Prop where
  dtype : s.dtype = t.dtype
  device : s.device = t.device
  shape : s.shape = t.shape

theorem Tensor.Like.refl (t : Tensor E) : Tensor.Like t t := ⟨rfl, rfl, rfl⟩

theorem Tensor.Like.trans {s t u : Tensor E} (h : Tensor.Like s t) (h' : Tensor.Like t u) :
    Tensor.Like s u := ⟨h.dtype.trans h'.dtype, h.device.trans h'.device, h.shape.trans h'.shape⟩

theorem Tensor.Like.symm {s t : Tensor E} (h : Tensor.Like s t) : Tensor.Like t s :=
  ⟨h.dtype.symm, h.device.symm, h.shape.symm⟩

/-- A buffer lines up whatever it holds. -/
theorem LinedUp.of_like {r b : Nat} {info : DeclaredInput} {s t : Tensor E} (h : LinedUp r b info t)
    (hs : Tensor.Like s t) : LinedUp r b info s where
  device := hs.device.trans h.device
  dtype := hs.dtype.trans h.dtype
  numel := by rw [Tensor.numel, hs.shape]; exact h.numel
  size := by rw [hs.shape]; exact h.size
  elements := by rw [Tensor.numel, hs.shape]; exact h.elements
  pos := h.pos
  uniform := h.uniform

/-- Filling a buffer changes its elements only. -/
theorem fillStatic_like {r : Nat} {bucket : Int} {st filled : Tensor E} {values : List E}
    (h : fillStatic r bucket st values = .ok filled) : Tensor.Like filled st := by
  unfold fillStatic at h
  obtain ⟨written, hwritten, h⟩ := bind_ok.mp h
  obtain ⟨size, _, h⟩ := bind_ok.mp h
  obtain ⟨_, hd, hv, hs, _⟩ := Tensor.write_ok hwritten
  simp only at h
  split at h
  · obtain ⟨_, hd', hv', hs', _⟩ := Tensor.write_ok h
    exact ⟨hd'.trans hd, hv'.trans hv, hs'.trans hs⟩
  · cases h
    exact ⟨hd, hv, hs⟩

/-- Buffers that differ in their elements only, one by one. -/
abbrev AllLike (statics statics' : List (Tensor E)) : Prop := List.Forall₂ Tensor.Like statics statics'

theorem AllLike.refl (statics : List (Tensor E)) : AllLike statics statics :=
  List.forall₂_same.mpr fun t _ => Tensor.Like.refl t

theorem AllLike.trans {ss ts us : List (Tensor E)} (h : AllLike ss ts) (h' : AllLike ts us) :
    AllLike ss us := by
  induction h generalizing us with
  | nil => exact h'
  | cons hst _ ih =>
    cases h' with
    | cons htu hrest => exact .cons (hst.trans htu) (ih hrest)

theorem AllLike.get {ss ts : List (Tensor E)} (h : AllLike ss ts) {i : Nat} {s : Tensor E}
    (hs : ss[i]? = some s) : ∃ t, ts[i]? = some t ∧ Tensor.Like s t := by
  obtain ⟨hlt, rfl⟩ := List.getElem?_eq_some_iff.mp hs
  have hlt' : i < ts.length := h.length_eq ▸ hlt
  exact ⟨ts[i], List.getElem?_eq_getElem hlt', List.Forall₂.get h hlt hlt'⟩

theorem allLike_set {statics : List (Tensor E)} {i : Nat} {st filled : Tensor E}
    (hst : statics[i]? = some st) (h : Tensor.Like filled st) : AllLike (statics.set i filled) statics := by
  refine List.forall₂_iff_get.mpr ⟨List.length_set, fun j hj hj' => ?_⟩
  rw [List.get_eq_getElem, List.get_eq_getElem]
  by_cases hij : i = j
  · subst hij
    rw [List.getElem?_eq_getElem hj'] at hst
    cases hst
    rw [List.getElem_set_self]
    exact h
  · rw [List.getElem_set_ne hij]
    exact Tensor.Like.refl _

/-- What is written over a static input for one declared input: the input collected
into a buffer that differs in its elements only. -/
def FilledFor (cfg : Config E) (requests : List (Request E)) (r : Nat) (bucket : Int)
    (statics : List (Tensor E)) (info : DeclaredInput) (filled : Tensor E) : Prop :=
  ∃ i : Nat, ∃ st mid, cfg.indexOf info.name = i ∧ statics[i]? = some st ∧ Tensor.Like mid st ∧
    fillStatic r bucket mid ((payload requests info.name).take info.batchnElements) = .ok filled

/-- Buffers that differ in their elements only are filled alike. -/
theorem FilledFor.of_like {cfg : Config E} {requests : List (Request E)} {r : Nat} {bucket : Int}
    {statics statics' : List (Tensor E)} {info : DeclaredInput} {filled : Tensor E}
    (h : FilledFor cfg requests r bucket statics' info filled)
    (hlike : AllLike statics' statics) : FilledFor cfg requests r bucket statics info filled := by
  obtain ⟨i, st', mid, hi, hst, hmid, hfill⟩ := h
  obtain ⟨st, hst', hpair⟩ := hlike.get hst
  exact ⟨i, st, mid, hi, hst', hmid.trans hpair, hfill⟩

/-- Filling buffers changes their elements only. -/
theorem fillAll_like {cfg : Config E} {requests : List (Request E)} {r : Nat} {bucket : Int}
    {declared : List DeclaredInput} {statics statics' : List (Tensor E)}
    (h : fillAll cfg requests r bucket declared statics = .ok statics') : AllLike statics' statics := by
  induction declared generalizing statics with
  | nil =>
    cases h
    exact .refl _
  | cons info rest ih =>
    rw [fillAll] at h
    split at h
    · cases h
    · rename_i st hst
      obtain ⟨j, hj, hat⟩ := staticAt_some hst
      obtain ⟨filled, hfill, h⟩ := bind_ok.mp h
      rw [hj, Int.toNat_natCast] at h
      exact (ih h).trans (allLike_set hat (fillStatic_like hfill))

/-- A prestaged pass 2 writes one static input for each declared input. -/
theorem fillAll_writes {cfg : Config E} {requests : List (Request E)} {r : Nat} {bucket : Int}
    {declared : List DeclaredInput} {statics statics' : List (Tensor E)}
    (h : fillAll cfg requests r bucket declared statics = .ok statics') :
    ∃ writes, List.Forall₂ (fun info => Wrote cfg statics.length info.name
        (FilledFor cfg requests r bucket statics info)) declared writes ∧
      statics' = writeAll statics writes := by
  induction declared generalizing statics with
  | nil =>
    cases h
    exact ⟨[], .nil, rfl⟩
  | cons info rest ih =>
    rw [fillAll] at h
    split at h
    · cases h
    · rename_i st hst
      obtain ⟨i, hi, hat⟩ := staticAt_some hst
      obtain ⟨filled, hfill, h⟩ := bind_ok.mp h
      rw [hi, Int.toNat_natCast] at h
      obtain ⟨writes, hwrites, hend⟩ := ih h
      obtain ⟨hlt, _⟩ := List.getElem?_eq_some_iff.mp hat
      have hlike := allLike_set hat (fillStatic_like hfill)
      refine ⟨(i, filled) :: writes, .cons ⟨hi, hlt, i, st, st, hi, hat, .refl st, hfill⟩ ?_, hend⟩
      refine hwrites.imp fun info' w hw => ⟨hw.index, ?_, hw.value.of_like hlike⟩
      have := hw.lt
      rwa [List.length_set] at this

/-! ### The model inputs -/

/-- The tensor a model input becomes on its own. -/
abbrev Gathered (cfg : Config E) (requests : List (Request E)) (info : DeclaredInput)
    (slot : Option (Tensor E)) : Prop :=
  ∃ t, slot = some t ∧ gatherInput cfg requests info = .ok t

abbrev GatheredTarget (cfg : Config E) (requests : List (Request E)) (target : BatchInput × String)
    (slot : Option (Tensor E)) : Prop :=
  ∃ t, slot = some t ∧ gatherBatchInput cfg requests target.1 = .ok t

/-- The view of the static buffer at an index, as it is when it is taken. -/
abbrev Viewed (cfg : Config E) (r : Nat) (bucket : Int) (statics : List (Tensor E)) (name : String)
    (slot : Option (Tensor E)) : Prop :=
  ∃ i : Nat, ∃ st mid t, cfg.indexOf name = i ∧ statics[i]? = some st ∧ Tensor.Like mid st ∧
    prestagedView r bucket mid = .ok t ∧ slot = some t

abbrev ViewedTarget (cfg : Config E) (r : Nat) (bucket : Int) (statics : List (Tensor E)) (name : String)
    (slot : Option (Tensor E)) : Prop :=
  ∃ i : Nat, ∃ st t, cfg.indexOf name = i ∧ statics[i]? = some st ∧
    prestagedView r bucket st = .ok t ∧ slot = some t

/-- Pass 2 where nothing is prestaged. -/
theorem collectFrom_slow_writes {cfg : Config E} {chance : InputChance} {r : Nat}
    {requests : List (Request E)} {declared : List DeclaredInput} {c c' : Collecting E}
    (hkey : c.state.prestagedEntry = none)
    (h : collectFrom cfg chance r requests declared c = .ok (c', none)) :
    ∃ writes, List.Forall₂ (fun info => Wrote cfg c.tensors.length info.name (Gathered cfg requests info))
        declared writes ∧ c'.tensors = writeAll c.tensors writes := by
  induction declared generalizing c with
  | nil =>
    cases h
    exact ⟨[], .nil, rfl⟩
  | cons info rest ih =>
    rw [collectFrom, hkey] at h
    simp only at h
    split at h
    · cases h
    · obtain ⟨mid, hmid, h⟩ := bind_ok.mp h
      rw [collectSlow] at hmid
      obtain ⟨t, ht, hmid⟩ := bind_ok.mp hmid
      obtain ⟨tensors, hset, hmid⟩ := bind_ok.mp hmid
      obtain ⟨i, hi, hlt, rfl⟩ := setSlot_ok hset
      cases hmid
      obtain ⟨writes, hwrites, hend⟩ := ih (c := ⟨c.state, c.tensors.set i (some t), _⟩) hkey h
      refine ⟨(i, some t) :: writes, .cons ⟨hi, hlt, t, rfl, ht⟩ ?_, hend⟩
      simpa only [List.length_set] using hwrites

/-- Pass 2 of a prestaged batch. -/
theorem collectFrom_prestaged_writes {cfg : Config E} {chance : InputChance} {r : Nat}
    {requests : List (Request E)} {declared : List DeclaredInput} {c c' : Collecting E} {key : String}
    {e : CudaGraphEntry E} {error : Option TritonError} {bucket : Int} {statics : List (Tensor E)}
    (hkey : c.state.prestagedEntry = some key) (hbucket : c.state.prestagedBucket = bucket)
    (he : c.state.cudaGraphCache.lookup key = some e)
    (hlike : AllLike e.staticInputs statics)
    (h : collectFrom cfg chance r requests declared c = .ok (c', error)) :
    ∃ writes, List.Forall₂ (fun info => Wrote cfg c.tensors.length info.name
        (Viewed cfg r bucket statics info.name)) declared writes ∧ c'.tensors = writeAll c.tensors writes := by
  induction declared generalizing c e with
  | nil =>
    cases h
    exact ⟨[], .nil, rfl⟩
  | cons info rest ih =>
    rw [collectFrom, hkey] at h
    obtain ⟨mid, hmid, h⟩ := bind_ok.mp h
    obtain ⟨i, st, filled, view, hi, hat, hfilled, hview, hlt, htensors, hstate⟩ := collectPrestaged_ok he hmid
    have hstep := restaged_setEntry c.state key e (e.staticInputs.set i filled)
    rw [← hstate] at hstep
    have hset : AllLike (e.staticInputs.set i filled) statics :=
      (allLike_set hat (fillStatic_like hfilled)).trans hlike
    obtain ⟨writes, hwrites, hend⟩ := ih (hstep.prestaged.trans hkey) (hstep.bucket.trans hbucket)
      hstep.entry hset h
    obtain ⟨st', hst', hst⟩ := hlike.get hat
    refine ⟨(i, some view) :: writes, .cons ⟨hi, hlt, i, st', filled, view, hi, hst',
      (fillStatic_like hfilled).trans hst, hbucket ▸ hview, rfl⟩ ?_, by rw [hend, htensors]; rfl⟩
    rw [htensors, List.length_set] at hwrites
    exact hwrites

/-- The targets of the batch inputs where nothing is prestaged. -/
theorem collectBatchInputs_slow_writes {cfg : Config E} {chance : InputChance} {r : Nat}
    {requests : List (Request E)} {targets : List (BatchInput × String)} {c c' : Collecting E}
    (hkey : c.state.prestagedEntry = none)
    (h : collectBatchInputs cfg chance r requests targets c = .ok c') :
    ∃ writes, List.Forall₂ (fun target => Wrote cfg c.tensors.length target.2
        (GatheredTarget cfg requests target)) targets writes ∧ c'.tensors = writeAll c.tensors writes := by
  induction targets generalizing c with
  | nil =>
    cases h
    exact ⟨[], .nil, rfl⟩
  | cons target rest ih =>
    rw [collectBatchInputs] at h
    obtain ⟨mid, hmid, h⟩ := bind_ok.mp h
    rw [collectBatchInput, hkey] at hmid
    simp only at hmid
    split at hmid
    · cases hmid
    · obtain ⟨t, ht, hmid⟩ := bind_ok.mp hmid
      obtain ⟨tensors, hset, hmid⟩ := bind_ok.mp hmid
      obtain ⟨i, hi, hlt, rfl⟩ := setSlot_ok hset
      cases hmid
      obtain ⟨writes, hwrites, hend⟩ := ih (c := ⟨c.state, c.tensors.set i (some t), _⟩) hkey h
      refine ⟨(i, some t) :: writes, .cons ⟨hi, hlt, t, rfl, ht⟩ ?_, hend⟩
      simpa only [List.length_set] using hwrites

/-- The targets of the batch inputs of a prestaged batch: views of buffers whose
content is left as it is. -/
theorem collectBatchInputs_prestaged_writes {cfg : Config E} {chance : InputChance} {r : Nat}
    {requests : List (Request E)} {targets : List (BatchInput × String)} {c c' : Collecting E} {key : String}
    {e : CudaGraphEntry E} (hkey : c.state.prestagedEntry = some key)
    (he : c.state.cudaGraphCache.lookup key = some e)
    (h : collectBatchInputs cfg chance r requests targets c = .ok c') :
    ∃ writes, List.Forall₂ (fun target => Wrote cfg c.tensors.length target.2
        (ViewedTarget cfg r c.state.prestagedBucket e.staticInputs target.2)) targets writes ∧
      c'.tensors = writeAll c.tensors writes := by
  induction targets generalizing c with
  | nil =>
    cases h
    exact ⟨[], .nil, rfl⟩
  | cons target rest ih =>
    rw [collectBatchInputs] at h
    obtain ⟨mid, hmid, h⟩ := bind_ok.mp h
    rw [collectBatchInput, hkey] at hmid
    simp only [he] at hmid
    split at hmid
    · cases hmid
    · rename_i st hst
      obtain ⟨j, hj, hat⟩ := staticAt_some hst
      obtain ⟨t, ht, hmid⟩ := bind_ok.mp hmid
      obtain ⟨tensors, hset, hmid⟩ := bind_ok.mp hmid
      obtain ⟨i, hi, hlt, rfl⟩ := setSlot_ok hset
      cases hmid
      obtain ⟨writes, hwrites, hend⟩ := ih (c := ⟨c.state, c.tensors.set i (some t), c.responses⟩) hkey he h
      refine ⟨(i, some t) :: writes, .cons ⟨hi, hlt, j, st, t, hj, hat, ht, rfl⟩ ?_, hend⟩
      simpa only [List.length_set] using hwrites

/-- The model inputs of a batch that is not prestaged. -/
structure SlotsBeside (cfg : Config E) (requests : List (Request E)) (declared : List DeclaredInput)
    (tensors : List (Option (Tensor E))) : Prop where
  writes : ∃ ws vs,
    List.Forall₂ (fun info => Wrote cfg (declared.length + cfg.batchInputCount) info.name
      (Gathered cfg requests info)) declared ws ∧
    List.Forall₂ (fun target => Wrote cfg (declared.length + cfg.batchInputCount) target.2
      (GatheredTarget cfg requests target)) cfg.batchInputTargets vs ∧
    tensors = writeAll (List.replicate (declared.length + cfg.batchInputCount) none) (ws ++ vs)

/-- A model input is the tensor of a declared input or of a target that is mapped to its place. -/
theorem slot_written {cfg : Config E} {n : Nat} {declared : List DeclaredInput}
    {targets : List (BatchInput × String)} {P : DeclaredInput → Option (Tensor E) → Prop}
    {Q : BatchInput × String → Option (Tensor E) → Prop} {ws vs : List (Nat × Option (Tensor E))}
    {inputs : List (Tensor E)}
    (hws : List.Forall₂ (fun info => Wrote cfg n info.name (P info)) declared ws)
    (hvs : List.Forall₂ (fun target => Wrote cfg n target.2 (Q target)) targets vs)
    (hinputs : inputs.map some = writeAll (List.replicate n none) (ws ++ vs)) {i : Nat} {t : Tensor E}
    (ht : inputs[i]? = some t) :
    (∃ info ∈ declared, cfg.indexOf info.name = i ∧ P info (some t)) ∨
      ∃ target ∈ targets, cfg.indexOf target.2 = i ∧ Q target (some t) := by
  have hslot : (inputs.map some)[i]? = some (some t) := by rw [List.getElem?_map, ht, Option.map_some]
  rw [hinputs] at hslot
  rcases writeAll_cases hslot with hm | ⟨hnone, _⟩
  · rcases List.mem_append.mp hm with hm | hm
    · obtain ⟨info, hinfo, hw⟩ := exists_left_of_mem hws hm
      exact .inl ⟨info, hinfo, hw.index, hw.value⟩
    · obtain ⟨target, htarget, hw⟩ := exists_left_of_mem hvs hm
      exact .inr ⟨target, htarget, hw.index, hw.value⟩
  · have := List.eq_of_mem_replicate (List.mem_of_getElem? hnone)
    cases this

/-- The model inputs of a prestaged batch: `statics` before and `statics'` after pass 2. -/
structure SlotsInto (cfg : Config E) (r b : Nat) (declared : List DeclaredInput)
    (statics statics' : List (Tensor E)) (tensors : List (Option (Tensor E))) : Prop where
  writes : ∃ ws vs,
    List.Forall₂ (fun info => Wrote cfg (declared.length + cfg.batchInputCount) info.name
      (Viewed cfg r b statics info.name)) declared ws ∧
    List.Forall₂ (fun target => Wrote cfg (declared.length + cfg.batchInputCount) target.2
      (ViewedTarget cfg r b statics' target.2)) cfg.batchInputTargets vs ∧
    tensors = writeAll (List.replicate (declared.length + cfg.batchInputCount) none) (ws ++ vs)

/-- What a call that returns no error leaves, with the model inputs. -/
inductive Filed (cfg : Config E) (requests : List (Request E)) (r : Nat) (declared : List DeclaredInput)
    (s : GraphState E) (c : Collecting E) : Prop where
  | beside (none_ : c.state.prestagedEntry = none)
      (same : c.state = s ∨ c.state = {s with prestagedEntry := none, prestagedBucket := -1})
      (slots : SlotsBeside cfg requests declared c.tensors)
  | into {key : String} {b : Nat} {e : CudaGraphEntry E} {statics : List (Tensor E)}
      (prestaged : s.prestagedEntry = some key) (bucket : s.prestagedBucket = b)
      (entry : s.cudaGraphCache.lookup key = some e) (viable : Viable cfg declared r b e)
      (filled : fillAll cfg requests r b declared e.staticInputs = .ok statics)
      (restaged : Restaged key e statics s c.state)
      (slots : SlotsInto cfg r b declared e.staticInputs statics c.tensors)

/-- **The model inputs are written slot by slot**, the declared inputs first. -/
theorem setInputTensors_slots {cfg : Config E} {chance : InputChance} {r : Nat}
    {requests : List (Request E)} {s : GraphState E} {responses : Responses} {c : Collecting E}
    (h : setInputTensors cfg chance r requests s responses = .ok (c, none)) :
    Filed cfg requests r (declaredInputs cfg r requests) s c := by
  rcases setInputTensors_ok h with ⟨herr, _⟩ | ⟨s', mid, err, hdecide, hcollect, hend⟩
  · exact absurd rfl herr
  · rcases hend with ⟨_, herr, _⟩ | ⟨rfl, _, hbatch⟩
    · exact absurd rfl herr
    · have hstate := collectBatchInputs_state hbatch
      rcases decidePrestage_ok hdecide with ⟨hnone, hsame⟩ | ⟨rfl, key, b, e, hkey, hb, he, hv⟩
      · have hslow := collectFrom_slow hnone hcollect
        obtain ⟨ws, hws, hmid⟩ := collectFrom_slow_writes hnone hcollect
        obtain ⟨vs, hvs, hlast⟩ := collectBatchInputs_slow_writes (hslow ▸ hnone) hbatch
        rw [hmid, length_writeAll, List.length_replicate] at hvs
        rw [List.length_replicate] at hws
        refine .beside ?_ ?_ ⟨ws, vs, hws, hvs, ?_⟩
        · rw [hstate, hslow]
          exact hnone
        · rw [hstate, hslow]
          exact hsame
        · rw [hlast, hmid, writeAll_append]
      · obtain ⟨_, statics, hfill, hrest⟩ := collectFrom_prestaged hkey he hcollect
        obtain ⟨ws, hws, hmid⟩ := collectFrom_prestaged_writes hkey hb he (.refl _) hcollect
        obtain ⟨vs, hvs, hlast⟩ :=
          collectBatchInputs_prestaged_writes (hrest.prestaged.trans hkey) hrest.entry hbatch
        rw [hmid, length_writeAll, List.length_replicate, hrest.bucket, hb] at hvs
        rw [List.length_replicate] at hws
        rw [hb] at hfill
        refine .into hkey hb he hv hfill (hstate ▸ hrest) ⟨ws, vs, hws, hvs, ?_⟩
        rw [hlast, hmid, writeAll_append]

/-- Slots that all have a writer all hold a tensor. -/
theorem slots_defined {cfg : Config E} {n : Nat} {declared : List DeclaredInput} {targets : List (BatchInput × String)}
    {P : DeclaredInput → Option (Tensor E) → Prop} {Q : BatchInput × String → Option (Tensor E) → Prop}
    {ws vs : List (Nat × Option (Tensor E))}
    (hws : List.Forall₂ (fun info => Wrote cfg n info.name (P info)) declared ws)
    (hvs : List.Forall₂ (fun target => Wrote cfg n target.2 (Q target)) targets vs)
    (hP : ∀ info slot, P info slot → ∃ t, slot = some t)
    (hQ : ∀ target slot, Q target slot → ∃ t, slot = some t)
    (hcover : ∀ i < n, ∃ name ∈ declared.map (·.name) ++ targets.map Prod.snd, cfg.indexOf name = i) :
    ∀ slot ∈ writeAll (List.replicate n none) (ws ++ vs), ∃ t, slot = some t := by
  intro slot hslot
  obtain ⟨i, hi, rfl⟩ := List.getElem_of_mem hslot
  have hlt : i < n := by rwa [length_writeAll, List.length_replicate] at hi
  have hwritten : ∃ w ∈ ws ++ vs, w.1 = i := by
    obtain ⟨name, hname, hat⟩ := hcover i hlt
    rcases List.mem_append.mp hname with hname | hname
    · obtain ⟨info, hinfo, rfl⟩ := List.mem_map.mp hname
      obtain ⟨w, hw, hwrote⟩ := exists_right_of_mem hws hinfo
      exact ⟨w, List.mem_append_left _ hw, by have := hwrote.index; omega⟩
    · obtain ⟨target, htarget, rfl⟩ := List.mem_map.mp hname
      obtain ⟨w, hw, hwrote⟩ := exists_right_of_mem hvs htarget
      exact ⟨w, List.mem_append_right _ hw, by have := hwrote.index; omega⟩
  have hslots : i < (List.replicate n (none : Option (Tensor E))).length := by rwa [List.length_replicate]
  obtain ⟨a, ha, hat⟩ := writeAll_written hwritten hslots
  rw [List.getElem?_eq_getElem hi, Option.some.injEq] at hat
  rw [hat]
  rcases List.mem_append.mp ha with ha | ha
  · obtain ⟨info, _, hwrote⟩ := exists_left_of_mem hws ha
    exact hP info a hwrote.value
  · obtain ⟨target, _, hwrote⟩ := exists_left_of_mem hvs ha
    exact hQ target a hwrote.value

/-- Where every slot has a declared input or a target, each holds a tensor. -/
theorem Filed.defined {cfg : Config E} {requests : List (Request E)} {r : Nat} {declared : List DeclaredInput}
    {s : GraphState E} {c : Collecting E} (h : Filed cfg requests r declared s c)
    (hcover : ∀ i < declared.length + cfg.batchInputCount,
      ∃ name ∈ declared.map (·.name) ++ cfg.batchInputTargets.map Prod.snd, cfg.indexOf name = i) :
    ∀ slot ∈ c.tensors, ∃ t, slot = some t := by
  rcases h with ⟨_, _, ⟨ws, vs, hws, hvs, htensors⟩⟩ | ⟨_, _, _, _, _, _, ⟨ws, vs, hws, hvs, htensors⟩⟩
  · rw [htensors]
    refine slots_defined hws hvs (fun info slot hvalue => ?_) (fun target slot hvalue => ?_) hcover
    · obtain ⟨t, ht, _⟩ := hvalue
      exact ⟨t, ht⟩
    · obtain ⟨t, ht, _⟩ := hvalue
      exact ⟨t, ht⟩
  · rw [htensors]
    refine slots_defined hws hvs (fun info slot hvalue => ?_) (fun target slot hvalue => ?_) hcover
    · obtain ⟨_, _, _, t, _, _, _, _, ht⟩ := hvalue
      exact ⟨t, ht⟩
    · obtain ⟨_, _, t, _, _, _, ht⟩ := hvalue
      exact ⟨t, ht⟩

end TritonAot
