import Mathlib.Algebra.GroupWithZero.Nat
import Mathlib.Data.List.Forall2
import TritonAot.Lib.Columns

/-! Models that the Python backend runs: `model.py`.

With batching, `TritonPythonModel.execute` concatenates the tensors that the requests give for
an input, runs the model once and cuts what it returns. A model that works row by row returns
the same to every request as if it ran on that request alone (`execute_batched`).

torch is a parameter: `Torch` is what the loops call, `Torch.Stacks` what they rely on.
`to_dlpack`, `from_dlpack`, `to` and `detach` keep what a tensor holds and are left out. -/
namespace TritonAot.Python

open Columns

/-! ### What the code calls -/

/-- An exception: an attribute of `None`, an index outside a list, or one that torch raises. -/
inductive PyError where
  | attributeError
  | indexError
  | raised (what : String)
  deriving DecidableEq, Repr

/-- `tensor.size()[0]`, `torch.cat` of two tensors along dimension 0, and `torch.split`. -/
structure Torch (T : Type) where
  size0 : T → Except PyError Nat
  cat : T → T → Except PyError T
  split : T → List Nat → Except PyError (List T)

/-- What a model returns: one tensor, or several as a tuple or a list. -/
inductive Returned (T : Type) where
  | tensor (t : T)
  | sequence (ts : List T)

def Returned.tensors {T : Type} : Returned T → List T
  | .tensor t => [t]
  | .sequence ts => ts

/-- `pb_utils.InferenceRequest`: its inputs by name. -/
abbrev InferenceRequest (T : Type) := List (String × T)

/-- `pb_utils.InferenceResponse`: its outputs by name. -/
abbrev InferenceResponse (T : Type) := List (String × T)

variable {T : Type}

/-! ### Gathering and scattering -/

/-- `tensors[0].size()[0]`. -/
def sectionLength (torch : Torch T) : List T → Except PyError Nat
  | [] => .error .indexError
  | tensor :: _ => torch.size0 tensor

/-- The loop over the requests. -/
def gatherFrom (torch : Torch T) : List (List T) → List T → List Nat → Except PyError (List T × List Nat)
  | [], gatherTensors, sections => .ok (gatherTensors, sections)
  | tensors :: rest, gatherTensors, sections => do
    let gatherTensors ← mergeFrom torch.cat id 0 tensors gatherTensors
    let length ← sectionLength torch tensors
    gatherFrom torch rest gatherTensors (sections ++ [length])

/-- `_gather_torch_tensors`. -/
def gatherTorchTensors (torch : Torch T) (scatterTensors : List (List T)) :
    Except PyError (List T × List Nat) :=
  gatherFrom torch scatterTensors [] []

/-- The loop over the tensors. -/
def scatterFrom (torch : Torch T) (sections : List Nat) :
    List T → List (List T) → Except PyError (List (List T))
  | [], scatterTensors => .ok scatterTensors
  | tensor :: rest, scatterTensors => do
    let scatterTensor ← torch.split tensor sections
    let scatterTensors ←
      mergeFrom (fun response tensor => .ok (response ++ [tensor])) (fun tensor => [tensor]) 0 scatterTensor
        scatterTensors
    scatterFrom torch sections rest scatterTensors

/-- `_scatter_torch_tensors`. -/
def scatterTorchTensors (torch : Torch T) (gatherTensors : List T) (sections : List Nat) :
    Except PyError (List (List T)) :=
  scatterFrom torch sections gatherTensors []

/-! ### The model -/

/-- `TritonPythonModel`, after `initialize`. -/
structure TritonPythonModel (T : Type) where
  supportBatching : Bool
  inputs : List String
  outputs : List String
  model : List T → Except PyError (Returned T)

namespace TritonPythonModel

/-- `pb_utils.get_input_tensor_by_name(request, name).to_dlpack()`. -/
def inputTensor (request : InferenceRequest T) (name : String) : Except PyError T :=
  match request.lookup name with
  | some tensor => .ok tensor
  | none => .error .attributeError

def inputTensors (p : TritonPythonModel T) (request : InferenceRequest T) : Except PyError (List T) :=
  p.inputs.mapM (inputTensor request)

def outputTensors (p : TritonPythonModel T) (inputTensors : List T) : Except PyError (List T) := do
  let returned ← p.model inputTensors
  .ok returned.tensors

/-- The loop over the configured outputs, from number `i` on. -/
def respondFrom (responseTensors : List T) : Nat → List String → Except PyError (InferenceResponse T)
  | _, [] => .ok []
  | i, name :: rest =>
    match responseTensors[i]? with
    | none => .error .indexError
    | some tensor => do
      let outputs ← respondFrom responseTensors (i + 1) rest
      .ok ((name, tensor) :: outputs)

def respond (p : TritonPythonModel T) (responseTensors : List T) : Except PyError (InferenceResponse T) :=
  respondFrom responseTensors 0 p.outputs

/-- `execute`. -/
def execute (torch : Torch T) (p : TritonPythonModel T) (requests : List (InferenceRequest T)) :
    Except PyError (List (InferenceResponse T)) := do
  let requestsTensors ← requests.mapM p.inputTensors
  if p.supportBatching then do
    let (gatherTensors, sections) ← gatherTorchTensors torch requestsTensors
    let outputTensors ← p.outputTensors gatherTensors
    let responsesTensors ← scatterTorchTensors torch outputTensors sections
    responsesTensors.mapM p.respond
  else do
    let responsesTensors ← requestsTensors.mapM p.outputTensors
    responsesTensors.mapM p.respond

end TritonPythonModel

/-! ### What is relied on -/

/-- Tensors as stacks of rows: how many, what two of them share that can be put on each other
(the other dimensions and the type), and one put on another. -/
structure Stacking (T K : Type) where
  length : T → Nat
  kind : T → K
  append : T → T → T

variable {K : Type}

/-- `torch.cat` and `torch.split` concatenate and cut along dimension 0. -/
structure Torch.Stacks (torch : Torch T) (st : Stacking T K) : Prop where
  size0 : ∀ t, torch.size0 t = .ok (st.length t)
  cat : ∀ t u, st.kind t = st.kind u → torch.cat t u = .ok (st.append t u)
  kind_append : ∀ t u, st.kind (st.append t u) = st.kind t
  length_append : ∀ t u, st.length (st.append t u) = st.length t + st.length u
  append_assoc : ∀ t u v, st.append (st.append t u) v = st.append t (st.append u v)
  /-- One section that is all there is. -/
  split_one : ∀ t, torch.split t [st.length t] = .ok [t]
  /-- The first section is cut off in front. -/
  split_append : ∀ t u sections parts, st.kind t = st.kind u → torch.split u sections = .ok parts →
    torch.split (st.append t u) (st.length t :: sections) = .ok (t :: parts)

/-- One tensor of each kind, with `n` rows each. -/
def Stacking.Batch (st : Stacking T K) (kinds : List K) (n : Nat) (us : List T) : Prop :=
  List.Forall₂ (fun kind u => st.kind u = kind ∧ st.length u = n) kinds us

/-- `f` makes one tensor of each of `outKinds`, with as many rows as it is given, and acts row by row. -/
structure Stacking.RowWise (st : Stacking T K) (kinds outKinds : List K) (f : List T → List T) : Prop where
  batch : ∀ n us, st.Batch kinds n us → st.Batch outKinds n (f us)
  append : ∀ n n' us vs, st.Batch kinds n us → st.Batch kinds n' vs →
    f (List.zipWith st.append us vs) = List.zipWith st.append (f us) (f vs)

theorem batches_length {st : Stacking T K} {kinds : List K} {ns : List Nat} {vs : List (List T)}
    (hvs : List.Forall₂ (st.Batch kinds) ns vs) : ∀ v ∈ vs, v.length = kinds.length := by
  induction hvs with
  | nil => intro v hv; cases hv
  | cons hv _ ih => exact List.forall_mem_cons.mpr ⟨(List.Forall₂.length_eq hv).symm, ih⟩

/-- The first tensors of all requests, and what follows them. -/
theorem batch_heads {st : Stacking T K} {kind : K} {kinds : List K} (d : T) {ns : List Nat} {vs : List (List T)}
    (hvs : List.Forall₂ (st.Batch (kind :: kinds)) ns vs) :
    (∀ v ∈ vs, v ≠ []) ∧ (∀ u ∈ vs.map (·.headD d), st.kind u = kind) ∧
      (vs.map (·.headD d)).map st.length = ns ∧ List.Forall₂ (st.Batch kinds) ns (vs.map List.tail) := by
  induction hvs with
  | nil => exact ⟨fun _ h => (by cases h), fun _ h => (by cases h), rfl, .nil⟩
  | @cons n v ns vs hv _ ih =>
    obtain ⟨hne, hkind, hlength, htails⟩ := ih
    cases hv with
    | @cons _ u _ us hu hus =>
      refine ⟨List.forall_mem_cons.mpr ⟨List.cons_ne_nil u us, hne⟩,
        List.forall_mem_cons.mpr ⟨hu.1, hkind⟩, ?_, .cons hus htails⟩
      rw [List.map_cons, List.map_cons, hlength]
      exact congrArg (· :: ns) hu.2

/-- The parts of a tensor, one to each response. -/
theorem mergeFrom_snoc {parts : List T} {responses : List (List T)} (h : responses.length = parts.length) :
    (mergeFrom (fun response tensor => .ok (response ++ [tensor])) (fun tensor => [tensor]) 0 parts responses :
        Except PyError (List (List T))) =
      .ok (List.zipWith (fun response tensor => response ++ [tensor]) responses parts) := by
  refine mergeFrom_zipWith _ [] ?_
  induction responses generalizing parts with
  | nil => rw [List.length_eq_zero_iff.mp h.symm]; exact .nil
  | cons r responses ih =>
    cases parts with
    | nil => cases h
    | cons t parts => exact .cons rfl (ih (Nat.succ.inj h))

/-! ### Gathering -/

section Stacks
variable {torch : Torch T} {st : Stacking T K} (hst : torch.Stacks st)
include hst

theorem batch_append {kinds : List K} {n n' : Nat} {us vs : List T} (hus : st.Batch kinds n us)
    (hvs : st.Batch kinds n' vs) : st.Batch kinds (n + n') (List.zipWith st.append us vs) := by
  induction hus generalizing vs with
  | nil => cases hvs; exact .nil
  | @cons kind u kinds us hu _ ih =>
    cases hvs with
    | @cons _ v _ vs hv hvs =>
      refine .cons ⟨?_, ?_⟩ (ih hvs)
      · rw [hst.kind_append, hu.1]
      · rw [hst.length_append, hu.2, hv.2]

theorem batch_foldl {kinds : List K} {n : Nat} {us : List T} {ns : List Nat} {uss : List (List T)}
    (hus : st.Batch kinds n us) (huss : List.Forall₂ (st.Batch kinds) ns uss) :
    ∃ n', st.Batch kinds n' (uss.foldl (List.zipWith st.append) us) := by
  induction huss generalizing n us with
  | nil => exact ⟨n, hus⟩
  | cons hvs _ ih => exact ih (batch_append hst hus hvs)

/-- A request's tensors, put on those that are gathered. -/
theorem mergeFrom_cat {kinds : List K} {n n' : Nat} {us vs : List T} (hus : st.Batch kinds n us)
    (hvs : st.Batch kinds n' vs) :
    mergeFrom torch.cat id 0 vs us = .ok (List.zipWith st.append us vs) := by
  refine mergeFrom_zipWith id [] ?_
  induction hus generalizing vs with
  | nil => cases hvs; exact .nil
  | @cons kind u kinds us hu _ ih =>
    cases hvs with
    | @cons _ v _ vs hv hvs => exact .cons (hst.cat u v (by rw [hu.1, hv.1])) (ih hvs)

theorem sectionLength_eq {kinds : List K} {n : Nat} {us : List T} (hkinds : kinds ≠ [])
    (hus : st.Batch kinds n us) : sectionLength torch us = .ok n := by
  cases hus with
  | nil => exact absurd rfl hkinds
  | @cons kind u kinds us hu _ => rw [sectionLength, hst.size0, hu.2]

theorem gatherFrom_eq {kinds : List K} (hkinds : kinds ≠ []) {n : Nat} {us : List T} {ns : List Nat}
    {uss : List (List T)} (hus : st.Batch kinds n us) (huss : List.Forall₂ (st.Batch kinds) ns uss)
    (sections : List Nat) :
    gatherFrom torch uss us sections = .ok (uss.foldl (List.zipWith st.append) us, sections ++ ns) := by
  induction huss generalizing n us sections with
  | nil => rw [gatherFrom, List.append_nil, List.foldl_nil]
  | @cons n' vs ns uss hvs _ ih =>
    have hrest := ih (batch_append hst hus hvs) (sections ++ [n'])
    rw [gatherFrom, mergeFrom_cat hst hus hvs, sectionLength_eq hst hkinds hvs]
    refine hrest.trans ?_
    rw [List.append_assoc, List.singleton_append, List.foldl_cons]

theorem gatherTorchTensors_eq {kinds : List K} (hkinds : kinds ≠ []) {n : Nat} {us : List T} {ns : List Nat}
    {uss : List (List T)} (hus : st.Batch kinds n us) (huss : List.Forall₂ (st.Batch kinds) ns uss) :
    gatherTorchTensors torch (us :: uss) = .ok (uss.foldl (List.zipWith st.append) us, n :: ns) := by
  have hfirst : mergeFrom torch.cat id 0 us [] = .ok us := by
    rw [← List.length_nil (α := T), mergeFrom_new, List.nil_append, List.map_id]
  rw [gatherTorchTensors, gatherFrom, hfirst, sectionLength_eq hst hkinds hus]
  exact gatherFrom_eq hst hkinds hus huss [n]

/-- What a model that acts row by row makes of the gathered tensors. -/
theorem rowWise_foldl {kinds outKinds : List K} {f : List T → List T} (hf : st.RowWise kinds outKinds f)
    {n : Nat} {us : List T} {ns : List Nat} {uss : List (List T)} (hus : st.Batch kinds n us)
    (huss : List.Forall₂ (st.Batch kinds) ns uss) :
    f (uss.foldl (List.zipWith st.append) us) = (uss.map f).foldl (List.zipWith st.append) (f us) := by
  induction huss generalizing n us with
  | nil => rfl
  | @cons n' vs ns uss hvs _ ih =>
    rw [List.foldl_cons, List.map_cons, List.foldl_cons, ih (batch_append hst hus hvs),
      hf.append n n' us vs hus hvs]

/-! ### Scattering -/

/-- Tensors of one kind, put on each other and cut again. -/
theorem split_foldl {kind : K} {t : T} {ts : List T} (ht : st.kind t = kind) (hts : ∀ u ∈ ts, st.kind u = kind) :
    torch.split (ts.foldl st.append t) ((t :: ts).map st.length) = .ok (t :: ts) := by
  induction ts generalizing t with
  | nil => exact hst.split_one t
  | cons u ts ih =>
    have hassoc : ∀ (l : List T) (a b : T), l.foldl st.append (st.append a b) = st.append a (l.foldl st.append b) := by
      intro l
      induction l with
      | nil => intro a b; rfl
      | cons c l ihl => intro a b; rw [List.foldl_cons, List.foldl_cons, hst.append_assoc, ihl]
    have hkind : ∀ (l : List T) (a : T), st.kind (l.foldl st.append a) = st.kind a := by
      intro l
      induction l with
      | nil => intro a; rfl
      | cons c l ihl => intro a; rw [List.foldl_cons, ihl, hst.kind_append]
    have hu := hts u List.mem_cons_self
    rw [List.foldl_cons, hassoc, List.map_cons]
    refine hst.split_append _ _ _ _ (by rw [hkind, ht, hu]) ?_
    exact ih hu fun v hv => hts v (List.mem_cons_of_mem _ hv)

/-- The first tensors of all requests, put on each other and cut again. -/
theorem split_heads {kind : K} {kinds : List K} {n : Nat} {x : T} {ns : List Nat} {vs : List (List T)}
    (hx : st.kind x = kind ∧ st.length x = n) (hvs : List.Forall₂ (st.Batch (kind :: kinds)) ns vs) :
    torch.split ((vs.map (·.headD x)).foldl st.append x) (n :: ns) = .ok (x :: vs.map (·.headD x)) := by
  obtain ⟨_, hkinds, hlengths, _⟩ := batch_heads x hvs
  have hcut := split_foldl hst hx.1 hkinds
  rw [List.map_cons, hx.2, hlengths] at hcut
  exact hcut

/-- What is cut off the tensors is put behind what the responses hold. The induction is on the
outputs: each takes the first tensor off all responses. -/
theorem scatterFrom_eq {outKinds : List K} {n : Nat} {v : List T} {ns : List Nat} {vs : List (List T)}
    (hv : st.Batch outKinds n v) (hvs : List.Forall₂ (st.Batch outKinds) ns vs) {responses : List (List T)}
    (hlength : responses.length = (v :: vs).length) :
    scatterFrom torch (n :: ns) (vs.foldl (List.zipWith st.append) v) responses =
      .ok (List.zipWith (· ++ ·) responses (v :: vs)) := by
  induction outKinds generalizing v vs responses with
  | nil =>
    have hempty : ∀ w ∈ v :: vs, w = [] := fun w hw =>
      List.eq_nil_of_length_eq_zero (batches_length (.cons hv hvs) w hw)
    have hfirst : v = [] := hempty v List.mem_cons_self
    rw [zipWith_append_nil hlength hempty, hfirst, foldl_zipWith_nil, scatterFrom]
  | cons kind kinds ih =>
    cases hv with
    | @cons _ x _ w hx hw =>
      obtain ⟨hne, _, _, htails⟩ := batch_heads x hvs
      have hparts : responses.length = (x :: vs.map (·.headD x)).length := by
        rw [hlength, List.length_cons, List.length_cons, List.length_map]
      have hlength' : (List.zipWith (fun response tensor => response ++ [tensor]) responses
          (x :: vs.map (·.headD x))).length = (w :: vs.map List.tail).length := by
        rw [List.length_zipWith, hparts, Nat.min_self, List.length_cons, List.length_cons,
          List.length_map, List.length_map]
      have hrest := ih hw htails hlength'
      rw [foldl_zipWith_cons st.append x x w hne, scatterFrom, split_heads hst hx hvs]
      refine (congrArg (· >>= _) (mergeFrom_snoc hparts)).trans (hrest.trans ?_)
      rw [zipWith_append_zipWith_snoc, List.zipWith_cons_cons (f := List.cons), zipWith_cons_headD_tail x hne]

/-- The first tensor starts the responses, as if each held nothing before. -/
theorem scatterTorchTensors_eq {outKinds : List K} (hkinds : outKinds ≠ []) {n : Nat} {v : List T}
    {ns : List Nat} {vs : List (List T)} (hv : st.Batch outKinds n v)
    (hvs : List.Forall₂ (st.Batch outKinds) ns vs) :
    scatterTorchTensors torch (vs.foldl (List.zipWith st.append) v) (n :: ns) = .ok (v :: vs) := by
  cases hv with
  | nil => exact absurd rfl hkinds
  | @cons kind x kinds w hx hw =>
    obtain ⟨hne, _, _, _⟩ := batch_heads x hvs
    have hlength : (List.replicate ((x :: w) :: vs).length ([] : List T)).length = ((x :: w) :: vs).length :=
      List.length_replicate
    have hheads : ((x :: w) :: vs).length = (x :: vs.map (·.headD x)).length := by
      rw [List.length_cons, List.length_cons, List.length_map]
    have hround := scatterFrom_eq hst (.cons hx hw) hvs hlength
    rw [zipWith_replicate_nil, foldl_zipWith_cons st.append x x w hne, scatterFrom,
      split_heads hst hx hvs] at hround
    rw [foldl_zipWith_cons st.append x x w hne, scatterTorchTensors, scatterFrom, split_heads hst hx hvs]
    have hstart : mergeFrom (fun response tensor => .ok (response ++ [tensor])) (fun tensor => [tensor]) 0
        (x :: vs.map (·.headD x)) [] =
        (mergeFrom (fun response tensor => .ok (response ++ [tensor])) (fun tensor => [tensor]) 0
          (x :: vs.map (·.headD x)) (List.replicate ((x :: w) :: vs).length []) :
            Except PyError (List (List T))) := by
      rw [mergeFrom_snoc (hlength.trans hheads), hheads, zipWith_snoc_replicate_nil]
      exact mergeFrom_new _ _ _ []
    refine Eq.trans ?_ hround
    exact congrArg (· >>= scatterFrom torch (n :: ns) _) hstart

end Stacks

/-! ### Responses -/

namespace TritonPythonModel

/-- What a request gives for the configured inputs. -/
def own (p : TritonPythonModel T) (request : InferenceRequest T) : List T :=
  p.inputs.filterMap fun name => request.lookup name

theorem inputTensors_eq (p : TritonPythonModel T) {request : InferenceRequest T}
    (h : ∀ name ∈ p.inputs, (request.lookup name).isSome = true) :
    p.inputTensors request = .ok (p.own request) := by
  unfold inputTensors own
  generalize p.inputs = names at h ⊢
  induction names with
  | nil => rfl
  | cons name rest ih =>
    obtain ⟨tensor, htensor⟩ := Option.isSome_iff_exists.mp (h name List.mem_cons_self)
    have hrest := ih fun name' hname' => h name' (List.mem_cons_of_mem _ hname')
    rw [List.mapM_cons, inputTensor, hrest, List.filterMap_cons, htensor]
    rfl

/-- As many tensors as there are configured outputs: each goes under the name at its place. -/
theorem respondFrom_eq (tensors : List T) (i : Nat) (names : List String)
    (h : names.length = (tensors.drop i).length) :
    respondFrom tensors i names = .ok (names.zip (tensors.drop i)) := by
  induction names generalizing i with
  | nil => rfl
  | cons name rest ih =>
    rw [List.length_cons, List.length_drop] at h
    have hi : i < tensors.length := by omega
    have hrest := ih (i + 1) (by rw [List.length_drop]; omega)
    rw [respondFrom, List.getElem?_eq_getElem hi, hrest, List.drop_eq_getElem_cons hi]
    rfl

theorem respond_eq (p : TritonPythonModel T) {tensors : List T} (h : p.outputs.length = tensors.length) :
    p.respond tensors = .ok (p.outputs.zip tensors) := respondFrom_eq tensors 0 p.outputs h

/-- A model that returns, for tensors of `kinds`, the tensors that `f` says. -/
structure Computes (p : TritonPythonModel T) (st : Stacking T K) (kinds outKinds : List K)
    (f : List T → List T) : Prop where
  inputs : p.inputs ≠ []
  outputs : p.outputs ≠ []
  length_outputs : outKinds.length = p.outputs.length
  rowWise : st.RowWise kinds outKinds f
  model : ∀ n us, st.Batch kinds n us → ∃ returned, p.model us = .ok returned ∧ returned.tensors = f us

/-- A request that gives a tensor of its kind for each input, all with as many rows. -/
structure Gives (p : TritonPythonModel T) (st : Stacking T K) (kinds : List K)
    (request : InferenceRequest T) : Prop where
  carries : ∀ name ∈ p.inputs, (request.lookup name).isSome = true
  batch : ∃ n, st.Batch kinds n (p.own request)

end TritonPythonModel

/-! ### Tensors that are their rows -/

/-- A tensor as its rows, of what kind they are. -/
structure Rows (K R : Type) where
  kind : K
  rows : List R
  deriving DecidableEq, Repr

variable {R : Type}

def rowsTorch [DecidableEq K] : Torch (Rows K R) where
  size0 := fun t => .ok t.rows.length
  cat := fun t u =>
    if t.kind = u.kind then .ok ⟨t.kind, t.rows ++ u.rows⟩ else .error (.raised "cat")
  split := fun t sections =>
    if sections.sum = t.rows.length then .ok ((cut sections t.rows).map fun rows => ⟨t.kind, rows⟩)
    else .error (.raised "split_with_sizes")

def rowsStacking : Stacking (Rows K R) K :=
  ⟨fun t => t.rows.length, fun t => t.kind, fun t u => ⟨t.kind, t.rows ++ u.rows⟩⟩

/-- What is relied on holds of them. -/
theorem rowsTorch_stacks [DecidableEq K] : (rowsTorch : Torch (Rows K R)).Stacks rowsStacking where
  size0 := fun _ => rfl
  cat := fun _ _ h => if_pos h
  kind_append := fun _ _ => rfl
  length_append := fun _ _ => List.length_append
  append_assoc := fun t u v => congrArg (Rows.mk t.kind) (List.append_assoc t.rows u.rows v.rows)
  split_one := fun t => by
    refine (if_pos (List.sum_singleton ..)).trans ?_
    rw [rowsStacking, cut, cut, List.take_length]
    rfl
  split_append := fun t u sections parts hkind hsplit => by
    have hkind' : t.kind = u.kind := hkind
    obtain ⟨hsum, hparts⟩ : sections.sum = u.rows.length ∧
        (cut sections u.rows).map (fun rows => (⟨u.kind, rows⟩ : Rows K R)) = parts := by
      by_cases hsum : sections.sum = u.rows.length
      · exact ⟨hsum, Except.ok.inj ((if_pos hsum).symm.trans hsplit)⟩
      · exact absurd ((if_neg hsum).symm.trans hsplit) (fun h => by cases h)
    refine (if_pos ?_).trans ?_
    · rw [List.sum_cons, hsum]
      exact List.length_append.symm
    · show Except.ok ((cut (t.rows.length :: sections) (t.rows ++ u.rows)).map _) = _
      rw [cut, List.take_left, List.drop_left, List.map_cons, ← hparts, ← hkind']
      rfl

/-- A model that adds up two inputs. -/
def addModel : TritonPythonModel (Rows (List Nat) Int) where
  supportBatching := true
  inputs := ["x", "y"]
  outputs := ["sum"]
  model := fun us =>
    match us with
    | [x, y] => .ok (.tensor ⟨x.kind, List.zipWith (· + ·) x.rows y.rows⟩)
    | _ => .error (.raised "forward")

def addRows : List (Rows (List Nat) Int) → List (Rows (List Nat) Int)
  | [x, y] => [⟨x.kind, List.zipWith (· + ·) x.rows y.rows⟩]
  | _ => []

theorem batch_two {st : Stacking T K} {kind kind' : K} {n : Nat} {us : List T} (h : st.Batch [kind, kind'] n us) :
    ∃ x y, us = [x, y] ∧ (st.kind x = kind ∧ st.length x = n) ∧ st.kind y = kind' ∧ st.length y = n := by
  cases h with
  | cons hx h =>
    cases h with
    | cons hy h =>
      cases h
      exact ⟨_, _, rfl, hx, hy⟩

theorem addModel_computes : addModel.Computes rowsStacking [[], []] [[]] addRows where
  inputs := List.cons_ne_nil _ _
  outputs := List.cons_ne_nil _ _
  length_outputs := rfl
  rowWise :=
    { batch := fun n us hus => by
        obtain ⟨x, y, rfl, hx, hy⟩ := batch_two hus
        refine .cons ⟨hx.1, ?_⟩ .nil
        show (List.zipWith _ x.rows y.rows).length = n
        rw [List.length_zipWith, show x.rows.length = n from hx.2, show y.rows.length = n from hy.2, Nat.min_self]
      append := fun n n' us vs hus hvs => by
        obtain ⟨x, y, rfl, hx, hy⟩ := batch_two hus
        obtain ⟨x', y', rfl, _, _⟩ := batch_two hvs
        have hrows : x.rows.length = y.rows.length := Eq.trans hx.2 hy.2.symm
        show [(⟨x.kind, List.zipWith _ (x.rows ++ x'.rows) (y.rows ++ y'.rows)⟩ : Rows (List Nat) Int)] = _
        rw [List.zipWith_append hrows]
        rfl }
  model := fun n us hus => by
    obtain ⟨x, y, rfl, _, _⟩ := batch_two hus
    exact ⟨_, rfl, rfl⟩

/-! ### Whole executions -/

namespace TritonPythonModel

theorem mapM_eq_map {α β : Type} {f : α → Except PyError β} {g : α → β} {l : List α}
    (h : ∀ x ∈ l, f x = .ok (g x)) : l.mapM f = .ok (l.map g) := by
  induction l with
  | nil => rfl
  | cons x l ih =>
    rw [List.mapM_cons, h x List.mem_cons_self, ih fun y hy => h y (List.mem_cons_of_mem _ hy), List.map_cons]
    rfl

theorem exists_batches {p : TritonPythonModel T} {st : Stacking T K} {kinds : List K}
    {requests : List (InferenceRequest T)} (h : ∀ q ∈ requests, p.Gives st kinds q) :
    ∃ ns, List.Forall₂ (st.Batch kinds) ns (requests.map p.own) := by
  induction requests with
  | nil => exact ⟨[], .nil⟩
  | cons q rest ih =>
    obtain ⟨n, hn⟩ := (h q List.mem_cons_self).batch
    obtain ⟨ns, hns⟩ := ih fun q' hq' => h q' (List.mem_cons_of_mem _ hq')
    exact ⟨n :: ns, .cons hn hns⟩

/-- There is a kind, as there is a configured input. -/
theorem Gives.kinds_ne_nil {p : TritonPythonModel T} {st : Stacking T K} {kinds : List K}
    {request : InferenceRequest T} (h : p.Gives st kinds request) (hinputs : p.inputs ≠ []) : kinds ≠ [] := by
  obtain ⟨n, hn⟩ := h.batch
  obtain ⟨name, hname⟩ := List.exists_mem_of_ne_nil p.inputs hinputs
  obtain ⟨tensor, htensor⟩ := Option.isSome_iff_exists.mp (h.carries name hname)
  have hown : tensor ∈ p.own request := List.mem_filterMap.mpr ⟨name, hname, htensor⟩
  intro hnil
  rw [hnil] at hn
  rw [List.forall₂_nil_left_iff.mp hn] at hown
  cases hown

variable {torch : Torch T} {st : Stacking T K}

/-- Gathering, one run of the model and scattering leave what the model makes of each request. -/
theorem batched_eq (hst : torch.Stacks st) {p : TritonPythonModel T} {kinds outKinds : List K}
    {f : List T → List T} (hp : p.Computes st kinds outKinds f) (hkinds : kinds ≠ []) {n : Nat} {us : List T}
    {ns : List Nat} {uss : List (List T)} (hus : st.Batch kinds n us)
    (huss : List.Forall₂ (st.Batch kinds) ns uss) :
    ∃ gatherTensors sections outputTensors,
      gatherTorchTensors torch (us :: uss) = .ok (gatherTensors, sections) ∧
        p.outputTensors gatherTensors = .ok outputTensors ∧
        scatterTorchTensors torch outputTensors sections = .ok ((us :: uss).map f) := by
  have houtKinds : outKinds ≠ [] := by
    intro hnil
    refine hp.outputs (List.eq_nil_of_length_eq_zero ?_)
    rw [← hp.length_outputs, hnil, List.length_nil]
  obtain ⟨total, htotal⟩ := batch_foldl hst hus huss
  obtain ⟨returned, hmodel, htensors⟩ := hp.model total _ htotal
  have houts : List.Forall₂ (st.Batch outKinds) ns (uss.map f) :=
    List.forall₂_map_right_iff.mpr (huss.imp fun n' vs hvs => hp.rowWise.batch n' vs hvs)
  have hscatter := scatterTorchTensors_eq hst houtKinds (hp.rowWise.batch n us hus) houts
  rw [← rowWise_foldl hst hp.rowWise hus huss, ← htensors] at hscatter
  refine ⟨_, _, returned.tensors, gatherTorchTensors_eq hst hkinds hus huss, ?_, hscatter⟩
  rw [outputTensors, hmodel]
  rfl

/-- One response to each request, in order, with what the model makes of the request's own
tensors; with batching as without. -/
theorem execute_perRequest (hst : torch.Stacks st) {p : TritonPythonModel T} {kinds outKinds : List K}
    {f : List T → List T} (hp : p.Computes st kinds outKinds f) {requests : List (InferenceRequest T)}
    (hne : requests ≠ []) (hgives : ∀ q ∈ requests, p.Gives st kinds q) :
    p.execute torch requests = .ok (requests.map fun q => p.outputs.zip (f (p.own q))) := by
  have hinputs : requests.mapM p.inputTensors = .ok (requests.map p.own) :=
    mapM_eq_map fun q hq => inputTensors_eq p (hgives q hq).carries
  have hrespond : ((requests.map p.own).map f).mapM p.respond =
      .ok (requests.map fun q => p.outputs.zip (f (p.own q))) := by
    rw [List.mapM_map, List.mapM_map]
    refine mapM_eq_map fun q hq => respond_eq p ?_
    obtain ⟨n, hn⟩ := (hgives q hq).batch
    rw [← hp.length_outputs, (hp.rowWise.batch n _ hn).length_eq]
  unfold execute
  rw [hinputs]
  cases p.supportBatching with
  | false =>
    have hmodel : (requests.map p.own).mapM p.outputTensors = .ok ((requests.map p.own).map f) := by
      refine mapM_eq_map fun us hus => ?_
      obtain ⟨q, hq, rfl⟩ := List.mem_map.mp hus
      obtain ⟨n, hn⟩ := (hgives q hq).batch
      obtain ⟨returned, hreturned, htensors⟩ := hp.model n _ hn
      rw [outputTensors, hreturned, ← htensors]
      rfl
    show ((requests.map p.own).mapM p.outputTensors >>= _) = _
    rw [hmodel]
    exact hrespond
  | true =>
    cases requests with
    | nil => exact absurd rfl hne
    | cons q rest =>
      have hkinds := (hgives q List.mem_cons_self).kinds_ne_nil hp.inputs
      obtain ⟨_, hall⟩ := exists_batches hgives
      cases hall with
      | @cons n _ ns _ hq hrest =>
        obtain ⟨gatherTensors, sections, outputTensors, hgather, houtput, hscatter⟩ :=
          batched_eq hst hp hkinds hq hrest
        show (gatherTorchTensors torch (p.own q :: rest.map p.own) >>= _) = _
        rw [hgather]
        show (p.outputTensors gatherTensors >>= _) = _
        rw [houtput]
        show (scatterTorchTensors torch outputTensors sections >>= _) = _
        rw [hscatter]
        exact hrespond

end TritonPythonModel

/-- Three requests, of two rows, of none and of one, the second with its inputs the other way round. -/
theorem execute_perRequest_add :
    addModel.execute rowsTorch
        [[("x", ⟨[], [1, 2]⟩), ("y", ⟨[], [10, 20]⟩)], [("y", ⟨[], []⟩), ("x", ⟨[], []⟩)],
          [("x", ⟨[], [3]⟩), ("y", ⟨[], [30]⟩)]] =
      .ok [[("sum", ⟨[], [11, 22]⟩)], [("sum", ⟨[], []⟩)], [("sum", ⟨[], [33]⟩)]] := by
  refine (TritonPythonModel.execute_perRequest rowsTorch_stacks addModel_computes (List.cons_ne_nil _ _) ?_).trans rfl
  intro q hq
  rcases List.mem_cons.mp hq with rfl | hq
  · exact ⟨by decide, 2, .cons ⟨rfl, rfl⟩ (.cons ⟨rfl, rfl⟩ .nil)⟩
  · rcases List.mem_cons.mp hq with rfl | hq
    · exact ⟨by decide, 0, .cons ⟨rfl, rfl⟩ (.cons ⟨rfl, rfl⟩ .nil)⟩
    · rw [List.mem_singleton.mp hq]
      exact ⟨by decide, 1, .cons ⟨rfl, rfl⟩ (.cons ⟨rfl, rfl⟩ .nil)⟩

end TritonAot.Python
