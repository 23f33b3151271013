import Mathlib.Algebra.BigOperators.Group.List.Basic
import Mathlib.Algebra.GroupWithZero.Nat

/-! Segments of different lengths packed one behind the other.

`ends` gives the positions at which the segments end; `evenEnds` those of segments
that all have one length. The two agree exactly when all lengths are that one
(`ends_eq_evenEnds`). `slice` reads one segment and `rowAt` one of equal length;
neither sees what is packed behind it. -/
namespace Packed

variable {α : Type*}

/-! ### Where segments end -/

def endsFrom (start : Nat) : List Nat → List Nat
  | [] => []
  | c :: rest => (start + c) :: endsFrom (start + c) rest

/-- The running sums of the lengths. -/
def ends (counts : List Nat) : List Nat := endsFrom 0 counts

/-- Where the first `n` segments of length `w` end. -/
def evenEnds (w n : Nat) : List Nat := (List.range n).map fun j => (j + 1) * w

@[simp] theorem length_endsFrom (start : Nat) (counts : List Nat) :
    (endsFrom start counts).length = counts.length := by
  induction counts generalizing start with
  | nil => rfl
  | cons c rest ih => rw [endsFrom, List.length_cons, ih, List.length_cons]

@[simp] theorem length_ends (counts : List Nat) : (ends counts).length = counts.length :=
  length_endsFrom 0 counts

@[simp] theorem length_evenEnds (w n : Nat) : (evenEnds w n).length = n := by
  rw [evenEnds, List.length_map, List.length_range]

theorem getElem?_evenEnds {w n j : Nat} (h : j < n) : (evenEnds w n)[j]? = some ((j + 1) * w) := by
  rw [evenEnds, List.getElem?_map, List.getElem?_range h, Option.map_some]

theorem take_evenEnds {w m n : Nat} (h : m ≤ n) : (evenEnds w n).take m = evenEnds w m := by
  rw [evenEnds, ← List.map_take, List.take_range, Nat.min_eq_left h, evenEnds]

theorem le_of_mem_evenEnds {w n k : Nat} (h : k ∈ evenEnds w n) : k ≤ n * w := by
  obtain ⟨j, hj, rfl⟩ := List.mem_map.mp h
  exact Nat.mul_le_mul_right w (List.mem_range.mp hj)

theorem endsFrom_eq_iff (start w : Nat) (counts : List Nat) :
    endsFrom start counts = (evenEnds w counts.length).map (start + ·) ↔ ∀ c ∈ counts, c = w := by
  induction counts generalizing start with
  | nil => exact ⟨fun _ c hc => absurd hc List.not_mem_nil, fun _ => rfl⟩
  | cons c rest ih =>
    have hrest : (evenEnds w (rest.length + 1)).map (start + ·) =
        (start + w) :: (evenEnds w rest.length).map (start + w + ·) := by
      rw [evenEnds, List.range_succ_eq_map, List.map_cons, List.map_cons, List.map_map, List.map_map,
        evenEnds, List.map_map]
      refine congrArg₂ _ (by rw [Nat.zero_add, Nat.one_mul]) (List.map_congr_left fun j _ => ?_)
      show start + (j + 1 + 1) * w = start + w + (j + 1) * w
      rw [Nat.succ_mul (j + 1)]
      omega
    rw [endsFrom, List.length_cons, hrest, List.cons.injEq, List.forall_mem_cons]
    constructor
    · intro hparts
      obtain ⟨hc, htail⟩ := hparts
      obtain rfl : c = w := by omega
      exact ⟨rfl, (ih (start + c)).mp htail⟩
    · intro hparts
      obtain ⟨rfl, htail⟩ := hparts
      exact ⟨rfl, (ih (start + c)).mpr htail⟩

/-- The running sums are the multiples of `w` exactly when every length is `w`. -/
theorem ends_eq_evenEnds {w : Nat} {counts : List Nat} :
    ends counts = evenEnds w counts.length ↔ ∀ c ∈ counts, c = w := by
  rw [← endsFrom_eq_iff 0 w counts, ends]
  simp

theorem sum_of_all {w : Nat} {counts : List Nat} (h : ∀ c ∈ counts, c = w) :
    counts.sum = counts.length * w := by
  rw [List.eq_replicate_of_mem h, List.sum_replicate_nat, List.length_replicate]

/-! ### Reading a segment -/

/-- The elements from `lo` up to `hi`. -/
def slice (lo hi : Nat) (data : List α) : List α := (data.drop lo).take (hi - lo)

/-- Row `j` of rows of `w` elements. -/
def rowAt (w : Nat) (data : List α) (j : Nat) : List α := slice (j * w) ((j + 1) * w) data

theorem slice_append {lo hi : Nat} {xs : List α} (h : hi ≤ xs.length) (ys : List α) :
    slice lo hi (xs ++ ys) = slice lo hi xs := by
  rw [slice, slice, List.drop_append]
  by_cases hlo : lo ≤ xs.length
  · rw [List.take_append_of_le_length (by rw [List.length_drop]; omega)]
  · have hzero : hi - lo = 0 := by omega
    rw [hzero, List.take_zero, List.take_zero]

theorem rowAt_append {w j : Nat} {xs : List α} (h : (j + 1) * w ≤ xs.length) (ys : List α) :
    rowAt w (xs ++ ys) j = rowAt w xs j := slice_append h ys

theorem rowAt_map {β : Type*} (f : α → β) (w : Nat) (data : List α) (j : Nat) :
    rowAt w (data.map f) j = (rowAt w data j).map f := by
  rw [rowAt, rowAt, slice, slice, List.map_take, List.map_drop]

theorem take_succ_mul (w n : Nat) (data : List α) :
    data.take ((n + 1) * w) = data.take (n * w) ++ rowAt w data n := by
  rw [rowAt, slice, Nat.succ_mul, Nat.add_sub_cancel_left, List.take_add]

/-- Data that agree row by row agree. -/
theorem take_eq_of_rows {w n : Nat} {xs ys : List α} (h : ∀ j < n, rowAt w xs j = rowAt w ys j) :
    xs.take (n * w) = ys.take (n * w) := by
  induction n with
  | zero => rw [Nat.zero_mul, List.take_zero, List.take_zero]
  | succ n ih =>
    rw [take_succ_mul, take_succ_mul, ih fun j hj => h j (by omega), h n (by omega)]

end Packed
