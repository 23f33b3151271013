import TritonAot.Graph.Attempt
import TritonAot.Lib.Packed

/-! Where the requests of a padded batch end.

A batch of requests with different element counts is packed: the second tensor
holds the elements one request behind the other, the third where each ends.
`PadRequestsUp` regenerates the third from one averaged width, so a replay of a
padded batch sees the batch's own positions only where all counts are that width. -/
namespace TritonAot

open Packed

variable {E : Type} [Scalars E]

/-- Counts as tensor elements. -/
def asElements (ks : List Nat) : List E := ks.map fun k : Nat => Scalars.ofInt (k : Int)

/-- The three tensors of a batch whose requests have the given element counts. -/
structure PackedBatch (counts : List Nat) (inner : List Nat) (t0 t1 t2 : Tensor E) : Prop where
  nonempty : counts ≠ []
  pos : ∀ c ∈ counts, 1 ≤ c
  single : t0.shape = counts.length :: inner
  multiple : t1.shape = [counts.sum]
  position : t2.shape = [counts.length]
  ends : t2.data = asElements (ends counts)

/-- All requests have the same number of elements. -/
def Uniform (counts : List Nat) : Prop := ∀ c ∈ counts, ∀ c' ∈ counts, c = c'

/-- The tensors at the bucket end each request where the batch does. -/
def EndsKept (counts : List Nat) (atBucket : List (Tensor E)) : Prop :=
  ∃ position, atBucket[2]? = some position ∧ position.data.take counts.length = asElements (ends counts)

/-- The element type holds every count up to a total. -/
def HoldsUpTo (E : Type) [Scalars E] (d : ScalarType) (total : Nat) : Prop :=
  ∀ k ≤ total, Scalars.cast d (Scalars.ofInt (k : Int) : E) = Scalars.ofInt (k : Int)

theorem asElements_injective : Function.Injective (asElements (E := E)) :=
  List.map_injective_iff.mpr fun a b h => by exact_mod_cast Scalars.ofInt_injective h

theorem take_asElements (ks : List Nat) (n : Nat) :
    (asElements ks : List E).take n = asElements (ks.take n) := by
  rw [asElements, asElements, List.map_take]

theorem map_cast_asElements {d : ScalarType} {ks : List Nat}
    (h : ∀ k ∈ ks, Scalars.cast d (Scalars.ofInt (k : Int) : E) = Scalars.ofInt (k : Int)) :
    (asElements ks : List E).map (Scalars.cast d) = asElements ks := by
  rw [asElements, List.map_map]
  exact List.map_congr_left h

/-- A tensor that holds counts holds each of them as it is. -/
theorem cast_of_mem {t : Tensor E} {ks : List Nat} (h : t.data = asElements ks) :
    ∀ k ∈ ks, Scalars.cast t.dtype (Scalars.ofInt (k : Int) : E) = Scalars.ofInt (k : Int) :=
  fun _ hk => t.typed _ (h ▸ List.mem_map_of_mem hk)

/-- The first positions that `PadRequestsUp` generates. -/
theorem take_positions (d : ScalarType) (dev : Device) {w r b : Nat} (h : r ≤ b) :
    (Tensor.positions d dev w b : Tensor E).data.take r =
      (asElements (evenEnds w r) : List E).map (Scalars.cast d) := by
  have hdata : (Tensor.positions d dev w b : Tensor E).data =
      (asElements (evenEnds w b) : List E).map (Scalars.cast d) := by
    show (List.map _ (List.range b)).map _ = _
    rw [asElements, evenEnds, List.map_map, List.map_map, List.map_map]
    rfl
  rw [hdata, ← List.map_take, take_asElements, take_evenEnds h]

namespace PackedBatch
variable {counts inner : List Nat} {t0 t1 t2 : Tensor E}

theorem length_pos (h : PackedBatch counts inner t0 t1 t2) : 0 < counts.length :=
  List.length_pos_of_ne_nil h.nonempty

/-- The request count is the number of requests: no request is empty. -/
theorem requestCount_eq (h : PackedBatch counts inner t0 t1 t2) :
    requestCount t0 t1 t2 = .ok counts.length := by
  have hle : counts.length ≤ counts.sum := List.length_le_sum_of_one_le counts h.pos
  refine bind_ok.mpr ⟨_, Tensor.size0_of_shape h.single, bind_ok.mpr
    ⟨_, Tensor.size0_of_shape h.multiple, bind_ok.mpr ⟨_, Tensor.size0_of_shape h.position, ?_⟩⟩⟩
  rw [Nat.min_eq_left hle, Nat.min_self]

theorem numel_multiple (h : PackedBatch counts inner t0 t1 t2) : t1.numel = counts.sum := by
  rw [Tensor.numel, h.multiple, List.prod_singleton]

/-- The tensors that a replay at a larger bucket copies are the padded ones. -/
theorem attempted_padded {cfg : GraphConfig} {forward : List (Tensor E) → List (Tensor E)} {chance : Chance}
    {s : GraphState E} {a : Attempt E} {atBucket : List (Tensor E)} (h : PackedBatch counts inner t0 t1 t2)
    (ha : attempted cfg forward chance [t0, t1, t2] s = some a) (hat : a.copyFrom = some atBucket) :
    a.r = counts.length ∧ ∃ b : Nat, a.bucket = b ∧ a.key = bucketKey b ∧ counts.length ≤ b ∧
      (if b = counts.length then Except.ok [t0, t1, t2]
        else padRequestsUp chance.alloc [t0, t1, t2] counts.length b) = .ok atBucket := by
  obtain ⟨_, _, _, r, hinputs, hr, har, hle, hkey, hpad⟩ := attempted_slow ha hat
  cases hinputs
  rw [h.requestCount_eq] at hr
  cases hr
  obtain ⟨b, hb⟩ := Int.eq_ofNat_of_zero_le (show 0 ≤ a.bucket by omega)
  rw [hb] at hkey hle hpad
  refine ⟨har, b, hb, hkey, by exact_mod_cast hle, ?_⟩
  rw [← hpad]
  by_cases heq : b = counts.length
  · rw [if_pos heq, if_pos (by exact_mod_cast heq)]
  · rw [if_neg heq, if_neg (by exact_mod_cast heq)]

end PackedBatch

/-- **A padded replay keeps the positions exactly where the counts are all equal.**
The element type matters in one direction: a type that rounds the averaged
positions can make unequal counts look kept. -/
theorem endsKept_iff {cfg : GraphConfig} {forward : List (Tensor E) → List (Tensor E)} {chance : Chance}
    {counts inner : List Nat} {t0 t1 t2 : Tensor E} {s : GraphState E} {a : Attempt E}
    {atBucket : List (Tensor E)} (h : PackedBatch counts inner t0 t1 t2)
    (ha : attempted cfg forward chance [t0, t1, t2] s = some a) (hat : a.copyFrom = some atBucket)
    (hlarger : counts.length < a.bucket) :
    (Uniform counts → EndsKept counts atBucket) ∧
      (HoldsUpTo E t2.dtype counts.sum → (EndsKept counts atBucket ↔ Uniform counts)) := by
  obtain ⟨_, b, hb, _, hle, hpad⟩ := h.attempted_padded ha hat
  rw [if_neg (by omega)] at hpad
  obtain ⟨_, p0, p1, p2, rfl, _, _, hp2⟩ := padRequestsUp_three hpad
  rw [h.numel_multiple] at hp2
  cases padTensor_positions hp2
  have hkept : EndsKept counts [p0, p1, Tensor.positions t2.dtype t2.device (counts.sum / counts.length) b] ↔
      (asElements (evenEnds (counts.sum / counts.length) counts.length) : List E).map
        (Scalars.cast t2.dtype) = asElements (ends counts) := by
    rw [← take_positions t2.dtype t2.device hle]
    exact ⟨fun ⟨_, hp, he⟩ => (by cases hp; exact he), fun he => ⟨_, rfl, he⟩⟩
  have hkeeps : Uniform counts → EndsKept counts
      [p0, p1, Tensor.positions t2.dtype t2.device (counts.sum / counts.length) b] := by
    rw [hkept]
    intro hu
    obtain ⟨w, rest, rfl⟩ := List.exists_cons_of_ne_nil h.nonempty
    have hall : ∀ c ∈ w :: rest, c = w := fun c hc => hu c hc w (List.mem_cons_self ..)
    have hwidth : (w :: rest).sum / (w :: rest).length = w := by
      rw [sum_of_all hall]
      exact Nat.mul_div_cancel_left w h.length_pos
    rw [hwidth, ← ends_eq_evenEnds.mpr hall]
    exact map_cast_asElements (cast_of_mem h.ends)
  refine ⟨hkeeps, fun hexact => ⟨fun he => ?_, hkeeps⟩⟩
  rw [hkept] at he
  have hmultiple : ∀ k ∈ evenEnds (counts.sum / counts.length) counts.length, k ≤ counts.sum :=
    fun k hk => (le_of_mem_evenEnds hk).trans (Nat.mul_div_le counts.sum counts.length)
  rw [map_cast_asElements fun k hk => hexact k (hmultiple k hk)] at he
  have hall := ends_eq_evenEnds.mp (asElements_injective he).symm
  exact fun c hc c' hc' => (hall c hc).trans (hall c' hc').symm

theorem packedBatch_oneAndThree : PackedBatch [1, 3] [1] (Tensor.zeros .float .cuda [2, 1] : Tensor Int)
    (.zeros .float .cuda [4]) (.ofValues .int .cuda [2] [1, 4] rfl) :=
  ⟨by decide, by decide, rfl, rfl, rfl, rfl⟩

/-- Two requests of two elements each keep their positions at a bucket of four. -/
theorem endsKept_twoAndTwo : ∃ a atBucket,
    attempted (graphsAt (oneBucket 4)) id .smooth
      [Tensor.zeros .float .cuda [2, 1], .zeros .float .cuda [4], .positions .int .cuda 2 2]
      (.fresh Int) = some a ∧ a.copyFrom = some atBucket ∧ EndsKept [2, 2] atBucket :=
  ⟨_, _, rfl, rfl, by
    have h : PackedBatch [2, 2] [1] (Tensor.zeros .float .cuda [2, 1] : Tensor Int)
        (.zeros .float .cuda [4]) (.positions .int .cuda 2 2) :=
      ⟨by decide, by decide, rfl, rfl, rfl, rfl⟩
    have ha : attempted (graphsAt (oneBucket 4)) id .smooth [Tensor.zeros .float .cuda [2, 1],
        .zeros .float .cuda [4], .positions .int .cuda 2 2] (.fresh Int) = some _ := rfl
    exact (endsKept_iff h ha rfl (by decide)).1 (by unfold Uniform; decide)⟩

/-- One and three elements average to two: replayed at a bucket of four, the first
request ends behind an element of the second. -/
theorem oneAndThree_not_kept :
    ¬ ∀ (cfg : GraphConfig) (forward : List (Tensor Int) → List (Tensor Int)) (chance : Chance)
      (counts inner : List Nat) (t0 t1 t2 : Tensor Int) (s : GraphState Int) (a : Attempt Int)
      (atBucket : List (Tensor Int)), PackedBatch counts inner t0 t1 t2 →
      attempted cfg forward chance [t0, t1, t2] s = some a → a.copyFrom = some atBucket →
      counts.length < a.bucket →
      (executeWithCudaGraph cfg forward chance [t0, t1, t2] s []).value = .ok true →
      EndsKept counts atBucket := by
  intro h
  obtain ⟨p, hp, he⟩ := h (graphsAt (oneBucket 4)) id .smooth [1, 3] [1] _ _ _ (.fresh Int) _ _
    packedBatch_oneAndThree rfl rfl (by decide) rfl
  cases hp
  revert he
  decide

end TritonAot
