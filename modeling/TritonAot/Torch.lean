import TritonAot.Types
import TritonAot.Lib.Dense

/-! The tensors of the backend and the torch operations it uses on them.

A tensor is contiguous: the backend only makes contiguous ones (`from_blob`,
`zeros`, `clone`) and only narrows along the leading dimension. Its element count
is its shape's and its elements are values of its type, by construction. An
operation that torch refuses throws; the operation's name stands for the text. -/
namespace TritonAot

open Dense

/-- Why a call does not return: an exception derived from `std::exception`, with
its text; an integer division by zero, which ends the process; or what C++ leaves
undefined: an access outside a vector, through a dangling pointer or of a variable
that was not set, or a signed overflow. -/
inductive Fault where
  | thrown (what : String)
  | sigfpe
  | undefined
  deriving DecidableEq, Repr

/-- A call that goes on to another returns when both do. -/
theorem bind_ok {ε α β : Type} {x : Except ε α} {f : α → Except ε β} {b : β} :
    x >>= f = .ok b ↔ ∃ a, x = .ok a ∧ f a = .ok b := by
  cases x with
  | error e => exact ⟨fun h => (by cases h), fun ⟨a, h, _⟩ => (by cases h)⟩
  | ok a => exact ⟨fun h => ⟨a, rfl, h⟩, fun ⟨a', h, hf⟩ => (by cases h; exact hf)⟩

/-- One that does not return is stopped by the first that does not. -/
theorem bind_error {ε α β : Type} {x : Except ε α} {f : α → Except ε β} {e : ε} :
    x >>= f = .error e ↔ x = .error e ∨ ∃ a, x = .ok a ∧ f a = .error e := by
  cases x with
  | error e' =>
    constructor
    · intro h
      cases h
      exact .inl rfl
    · rintro (h | ⟨a, h, _⟩)
      · cases h
        rfl
      · cases h
  | ok a =>
    constructor
    · intro h
      exact .inr ⟨a, rfl, h⟩
    · rintro (h | ⟨a', h, hf⟩)
      · cases h
      · cases h
        exact hf

/-- An exception that a call throws where the world says so. -/
def raise : Option String → Except Fault Unit
  | none => .ok ()
  | some what => .error (.thrown what)

theorem raise_error {o : Option String} {f : Fault} (h : raise o = .error f) : ∃ what, f = .thrown what := by
  cases o with
  | none => cases h
  | some what =>
    cases h
    exact ⟨what, rfl⟩

theorem raise_ok {o : Option String} {u : Unit} (h : raise o = .ok u) : o = none := by
  cases o with
  | none => rfl
  | some what => cases h

inductive Device where
  | cpu | cuda
  deriving DecidableEq, Repr

@[ext] structure Tensor (E : Type) [Scalars E] where
  dtype : ScalarType
  device : Device
  shape : List Nat
  data : List E
  size_eq : data.length = shape.prod
  typed : ∀ x ∈ data, Scalars.cast dtype x = x

namespace Tensor
variable {E : Type} [Scalars E]

def numel (t : Tensor E) : Nat := t.shape.prod

/-- `t.size(0)`. -/
def size0 (t : Tensor E) : Except Fault Nat :=
  match t.shape with
  | [] => .error (.thrown "size")
  | n :: _ => .ok n

/-- Elements to each index of the leading dimension. -/
def inner (t : Tensor E) : Nat := t.shape.tail.prod

/-- A tensor made of values converted to its type. -/
def ofValues (dtype : ScalarType) (device : Device) (shape : List Nat) (values : List E)
    (h : values.length = shape.prod) : Tensor E where
  dtype := dtype
  device := device
  shape := shape
  data := values.map (Scalars.cast dtype)
  size_eq := by rw [List.length_map, h]
  typed := fun x hx => by
    obtain ⟨y, _, rfl⟩ := List.mem_map.mp hx
    exact Scalars.cast_cast dtype y

/-- `torch::from_blob`: the values at an address, as many as the shape has. -/
def fromBlob (dtype : ScalarType) (device : Device) (shape : List Nat) (values : List E) :
    Except Fault (Tensor E) :=
  if h : values.length = shape.prod then .ok (ofValues dtype device shape values h) else .error .undefined

/-- `torch::zeros`. -/
def zeros (dtype : ScalarType) (device : Device) (shape : List Nat) : Tensor E where
  dtype := dtype
  device := device
  shape := shape
  data := List.replicate shape.prod Scalars.zero
  size_eq := List.length_replicate
  typed := fun x hx => by rw [List.eq_of_mem_replicate hx]; exact Scalars.cast_zero dtype

/-- `(torch::arange(1, n + 1) * step).to(dtype)`. -/
def positions (dtype : ScalarType) (device : Device) (step n : Nat) : Tensor E :=
  ofValues dtype device [n] ((List.range n).map fun j => Scalars.ofInt (((j + 1) * step : Nat) : Int))
    (by simp)

/-- `dst.copy_(src)`: broadcast to the destination's shape, convert to its type. -/
def copy_ (dst src : Tensor E) : Except Fault (Tensor E) :=
  if h : Expands src.shape dst.shape then
    .ok (ofValues dst.dtype dst.device dst.shape (expand src.shape dst.shape src.data)
      (length_expand h src.data src.size_eq))
  else .error (.thrown "copy_")

/-- `t.narrow(0, start, len)`, as the values seen through the view. -/
def narrow (t : Tensor E) (start len : Nat) : Except Fault (Tensor E) :=
  match hs : t.shape with
  | [] => .error (.thrown "narrow")
  | n :: rest =>
    if h : start + len ≤ n then
      .ok { t with
        shape := len :: rest
        data := (t.data.drop (start * rest.prod)).take (len * rest.prod)
        size_eq := by
          have hle : start * rest.prod + len * rest.prod ≤ n * rest.prod := by
            rw [← Nat.add_mul]
            exact Nat.mul_le_mul_right _ h
          rw [List.length_take, List.length_drop, t.size_eq, hs, List.prod_cons, List.prod_cons]
          omega
        typed := fun x hx => t.typed x (List.mem_of_mem_drop (List.mem_of_mem_take hx)) }
    else .error (.thrown "narrow")

/-- Values stored from a flat position on, through the tensor's address. -/
def write (t : Tensor E) (start : Nat) (values : List E) : Except Fault (Tensor E) :=
  if h : start + values.length ≤ t.data.length then
    .ok { t with
      data := overwrite start (values.map (Scalars.cast t.dtype)) t.data
      size_eq := by rw [length_overwrite _ _ _ (by rwa [List.length_map]), t.size_eq]
      typed := fun x hx => by
        rcases mem_overwrite _ _ _ x hx with hx | hx
        · obtain ⟨y, _, rfl⟩ := List.mem_map.mp hx
          exact Scalars.cast_cast t.dtype y
        · exact t.typed x hx }
  else .error .undefined

/-- The type and shape of a tensor, without its elements. -/
def Alike (s t : Tensor E) : Prop := s.dtype = t.dtype ∧ s.shape = t.shape

/-! ### What the operations leave -/

theorem length_data (t : Tensor E) : t.data.length = t.numel := t.size_eq

theorem map_cast_data (t : Tensor E) : t.data.map (Scalars.cast t.dtype) = t.data :=
  (List.map_congr_left t.typed).trans (List.map_id' t.data)

theorem numel_eq {t : Tensor E} {n : Nat} {rest : List Nat} (h : t.shape = n :: rest) :
    t.numel = n * rest.prod := by rw [numel, h, List.prod_cons]

theorem size0_of_shape {t : Tensor E} {n : Nat} {rest : List Nat} (h : t.shape = n :: rest) :
    t.size0 = .ok n := by rw [size0, h]

theorem copy_ok_iff (dst src : Tensor E) :
    (∃ t, dst.copy_ src = .ok t) ↔ Expands src.shape dst.shape := by
  constructor
  · intro hparts
    obtain ⟨t, h⟩ := hparts
    unfold copy_ at h
    split at h
    · assumption
    · cases h
  · intro h
    exact ⟨_, by rw [copy_, dif_pos h]⟩

/-- What a copy that succeeds leaves in the destination. -/
theorem copy_ok {dst src t : Tensor E} (h : dst.copy_ src = .ok t) :
    Expands src.shape dst.shape ∧ t.dtype = dst.dtype ∧ t.device = dst.device ∧
      t.shape = dst.shape ∧
      t.data = (expand src.shape dst.shape src.data).map (Scalars.cast dst.dtype) := by
  have he : Expands src.shape dst.shape := (copy_ok_iff dst src).mp ⟨t, h⟩
  rw [copy_, dif_pos he] at h
  cases h
  exact ⟨he, rfl, rfl, rfl, rfl⟩

/-- A copy between tensors of one shape converts element by element. -/
theorem copy_same {dst src : Tensor E} (h : src.shape = dst.shape) :
    ∃ t, dst.copy_ src = .ok t ∧ t.dtype = dst.dtype ∧ t.device = dst.device ∧ t.shape = dst.shape ∧
      t.data = src.data.map (Scalars.cast dst.dtype) := by
  obtain ⟨t, ht⟩ := (copy_ok_iff dst src).mpr (h ▸ expands_self src.shape)
  obtain ⟨_, hd, hv, hs, hx⟩ := copy_ok ht
  refine ⟨t, ht, hd, hv, hs, ?_⟩
  rw [hx, ← h, expand_self _ _ src.size_eq]

/-- A copy that neither converts nor repeats anything: where the source has extent
one the destination has too, and there are no further axes. -/
structure Unstretched (src dst : Tensor E) : Prop where
  dtype : src.dtype = dst.dtype
  axes : List.Forall₂ (fun n m => n = 1 → m = 1) src.shape dst.shape

/-- A copy that succeeds is one between tensors of the same type and shape exactly
when it is unstretched. -/
theorem copy_unstretched_iff {dst src t : Tensor E} (h : dst.copy_ src = .ok t) :
    Unstretched src dst ↔ Alike src dst := by
  constructor
  · exact fun hu => ⟨hu.dtype, eq_of_expands (copy_ok h).1 hu.axes.length_eq hu.axes⟩
  · intro hparts
    obtain ⟨hd, hs⟩ := hparts
    exact ⟨hd, hs ▸ List.forall₂_same.mpr fun _ _ hn => hn⟩

/-- Between tensors of the same type and shape a copy moves the elements as they are. -/
theorem copy_alike {dst src t : Tensor E} (h : dst.copy_ src = .ok t) (ha : Alike src dst) :
    t.data = src.data := by
  obtain ⟨_, h', _, _, _, hdata⟩ := copy_same ha.2
  rw [h] at h'
  cases h'
  rw [hdata, ← ha.1, map_cast_data]

theorem narrow_ok_iff {t : Tensor E} {n : Nat} {rest : List Nat} (hs : t.shape = n :: rest)
    (start len : Nat) : (∃ v, t.narrow start len = .ok v) ↔ start + len ≤ n := by
  constructor
  · intro hparts
    obtain ⟨v, h⟩ := hparts
    unfold narrow at h
    split at h
    · cases h
    · rename_i h'
      rw [hs] at h'
      cases h'
      split at h
      · assumption
      · cases h
  · intro h
    unfold narrow
    split
    · rename_i h'
      rw [hs] at h'
      cases h'
    · rename_i h'
      rw [hs] at h'
      cases h'
      exact ⟨_, by rw [dif_pos h]⟩

theorem narrow_ok {t v : Tensor E} {start len : Nat} (h : t.narrow start len = .ok v) :
    ∃ n rest, t.shape = n :: rest ∧ start + len ≤ n ∧ v.dtype = t.dtype ∧ v.device = t.device ∧
      v.shape = len :: rest ∧
      v.data = (t.data.drop (start * rest.prod)).take (len * rest.prod) := by
  unfold narrow at h
  split at h
  · cases h
  · rename_i n rest hs
    split at h
    · cases h
      exact ⟨n, rest, hs, ‹_›, rfl, rfl, rfl, rfl⟩
    · cases h

theorem copy_error {dst src : Tensor E} {f : Fault} (h : dst.copy_ src = .error f) : f = .thrown "copy_" := by
  unfold copy_ at h
  split at h
  · cases h
  · cases h
    rfl

theorem narrow_error {t : Tensor E} {start len : Nat} {f : Fault} (h : t.narrow start len = .error f) :
    f = .thrown "narrow" := by
  unfold narrow at h
  split at h
  · cases h
    rfl
  · split at h
    · cases h
    · cases h
      rfl

theorem write_error {t : Tensor E} {start : Nat} {values : List E} {f : Fault}
    (h : t.write start values = .error f) : f = .undefined := by
  unfold write at h
  split at h
  · cases h
  · cases h
    rfl

theorem write_ok {t u : Tensor E} {start : Nat} {values : List E} (h : t.write start values = .ok u) :
    start + values.length ≤ t.data.length ∧ u.dtype = t.dtype ∧ u.device = t.device ∧
      u.shape = t.shape ∧ u.data = overwrite start (values.map (Scalars.cast t.dtype)) t.data := by
  unfold write at h
  split at h
  · cases h
    exact ⟨‹_›, rfl, rfl, rfl, rfl⟩
  · cases h

theorem write_some {t : Tensor E} {start : Nat} {values : List E}
    (h : start + values.length ≤ t.data.length) : ∃ u, t.write start values = .ok u :=
  ⟨_, by rw [write, dif_pos h]⟩

end Tensor

/-! ### Leading dimensions -/

section Leading
variable {E : Type} [Scalars E]

/-- The leading dimension of a tensor is `n`. -/
def Leads (t : Tensor E) (n : Nat) : Prop := ∃ rest, t.shape = n :: rest

theorem Leads.unique {t : Tensor E} {n m : Nat} (h : Leads t n) (h' : Leads t m) : n = m := by
  obtain ⟨rest, hs⟩ := h
  obtain ⟨rest', hs'⟩ := h'
  rw [hs] at hs'
  cases hs'
  rfl

theorem size0_ok {t : Tensor E} {n : Nat} (h : t.size0 = .ok n) : ∃ rest, t.shape = n :: rest := by
  unfold Tensor.size0 at h
  split at h
  · cases h
  · rename_i n' rest hs
    cases h
    exact ⟨rest, hs⟩

end Leading

end TritonAot
