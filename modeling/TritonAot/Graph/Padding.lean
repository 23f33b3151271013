import TritonAot.Graph.State

/-! `PadRequestsUp`: a batch of `r` requests grown to `bucket` requests.

Input 2 is regenerated as the multiples of one width, the elements of input 1
over `r`; every other tensor has its leading dimension scaled, `size / r * bucket`,
and keeps its elements in front of zeros. -/
namespace TritonAot

variable {E : Type} [Scalars E]

/-- The loop body of `PadRequestsUp`, for the tensor at index `i`; `alloc` is what allocating
the tensor at an index of a bucket throws. -/
def padTensor (alloc : Int → Nat → Option String) (per r : Nat) (bucket : Int) (i : Nat) (t : Tensor E) :
    Except Fault (Tensor E) :=
  if i = 2 then
    -- the end of the range, `bucket + 1`, is an int64 too
    if bucket < 0 ∨ int64Max ≤ bucket then .error (.thrown "arange")
    else do
      raise (alloc bucket i)
      .ok (Tensor.positions t.dtype t.device per bucket.toNat)
  else
    match t.shape with
    | [] => .error .undefined
    | size :: rest =>
      let product : Int := ((size / r : Nat) : Int) * bucket
      let lead := wrapInt64 product
      if lead < 0 then .error (.thrown "zeros")
      else do
        raise (alloc bucket i)
        let padded : Tensor E := Tensor.zeros t.dtype t.device (lead.toNat :: rest)
        let front ← padded.narrow 0 size
        -- a product that wraps around to room enough: the overflow is left undefined
        if lead ≠ product then .error .undefined
        else do
          let filled ← front.copy_ t
          padded.write 0 filled.data

/-- The loop of `PadRequestsUp` from index `i` on. -/
def padFrom (alloc : Int → Nat → Option String) (per r : Nat) (bucket : Int) :
    Nat → List (Tensor E) → Except Fault (List (Tensor E))
  | _, [] => .ok []
  | i, t :: rest => do
    let padded ← padTensor alloc per r bucket i t
    let out ← padFrom alloc per r bucket (i + 1) rest
    .ok (padded :: out)

def padRequestsUp (alloc : Int → Nat → Option String) (inputs : List (Tensor E)) (r : Nat) (bucket : Int) :
    Except Fault (List (Tensor E)) :=
  match inputs[1]? with
  | none => .error .undefined
  | some multi => if r = 0 then .error .sigfpe else padFrom alloc (multi.numel / r) r bucket 0 inputs

/-! ### What a padded tensor is -/

/-- A tensor other than input 2, grown to `lead` rows: its elements, then zeros. -/
structure Grown (t padded : Tensor E) (lead : Nat) : Prop where
  dtype : padded.dtype = t.dtype
  device : padded.device = t.device
  shape : ∃ size rest, t.shape = size :: rest ∧ padded.shape = lead :: rest ∧ size ≤ lead
  data : padded.data = t.data ++ List.replicate ((lead * t.inner) - t.data.length) Scalars.zero

/-- The padded tensor at an index can be allocated, and has room for the rows of the tensor. -/
structure HasRoom (alloc : Int → Nat → Option String) (r : Nat) (b : Int) (i : Nat) (t : Tensor E) : Prop where
  allocates : alloc b i = none
  rows : ∃ n, Leads t n ∧ (n : Int) ≤ ((n / r : Nat) : Int) * b ∧ ((n / r : Nat) : Int) * b ≤ int64Max

/-- The positions of a bucket can be made. -/
structure HasPositions (alloc : Int → Nat → Option String) (b : Int) : Prop where
  allocates : alloc b 2 = none
  range : 0 ≤ b ∧ b < int64Max

/-- A batch can be padded to a bucket. -/
structure Pads (alloc : Int → Nat → Option String) (r : Nat) (b : Int) (t0 t1 : Tensor E) : Prop where
  single : HasRoom alloc r b 0 t0
  multiple : HasRoom alloc r b 1 t1
  positions : HasPositions alloc b

section Padded
variable {alloc : Int → Nat → Option String} {per r i : Nat} {t padded : Tensor E}

theorem hasRoom_iff {n b : Nat} (h : Leads t n) :
    HasRoom alloc r b i t ↔ alloc b i = none ∧ n ≤ n / r * b ∧ ((n / r * b : Nat) : Int) ≤ int64Max := by
  constructor
  · intro hroom
    obtain ⟨m, hm, hrows, hfits⟩ := hroom.rows
    obtain rfl := h.unique hm
    exact ⟨hroom.allocates, by exact_mod_cast hrows, by exact_mod_cast hfits⟩
  · rintro ⟨halloc, hrows, hfits⟩
    exact ⟨halloc, n, h, by exact_mod_cast hrows, by exact_mod_cast hfits⟩

/-- Multiples of `r` rows have room in any bucket from `r` on that an int64 can count. -/
theorem hasRoom_multiple {n : Nat} {b : Int} (h : Leads t n) (hdvd : r ∣ n) (hb : r ≤ b)
    (hfits : ((n / r : Nat) : Int) * b ≤ int64Max) (halloc : alloc b i = none) : HasRoom alloc r b i t := by
  refine ⟨halloc, n, h, ?_, hfits⟩
  calc (n : Int) = ((n / r : Nat) : Int) * r := by exact_mod_cast (Nat.div_mul_cancel hdvd).symm
    _ ≤ ((n / r : Nat) : Int) * b := Int.mul_le_mul_of_nonneg_left hb (Int.natCast_nonneg _)

/-- Where the product is an int64, a tensor other than input 2 is copied over the front of zeros. -/
theorem padTensor_lead (per : Nat) {b size : Nat} {rest : List Nat} (hi : i ≠ 2) (hs : t.shape = size :: rest)
    (hfits : ((size / r * b : Nat) : Int) ≤ int64Max) :
    padTensor alloc per r (b : Int) i t = (do
      raise (alloc b i)
      let front ← (Tensor.zeros t.dtype t.device ((size / r * b) :: rest) : Tensor E).narrow 0 size
      let filled ← front.copy_ t
      (Tensor.zeros t.dtype t.device ((size / r * b) :: rest) : Tensor E).write 0 filled.data) := by
  have hwrap : wrapInt64 ((size / r * b : Nat) : Int) = ((size / r * b : Nat) : Int) :=
    wrapInt64_of_le (Int.le_trans (by decide) (Int.natCast_nonneg _)) hfits
  have hlead : ¬ ((size / r * b : Nat) : Int) < 0 := Int.not_lt.mpr (Int.natCast_nonneg _)
  simp only [padTensor, if_neg hi, hs, ← Int.natCast_mul, hwrap, if_neg hlead, Int.toNat_natCast, ne_eq,
    not_true_eq_false, if_false]

/-- Room is all a tensor other than input 2 needs. -/
theorem padTensor_grown (per : Nat) {b size : Nat} {rest : List Nat} (hi : i ≠ 2) (hs : t.shape = size :: rest)
    (hroom : HasRoom alloc r b i t) :
    ∃ padded, padTensor alloc per r b i t = .ok padded ∧ Grown t padded (size / r * b) := by
  obtain ⟨halloc, hrows, hfits⟩ := (hasRoom_iff ⟨rest, hs⟩).mp hroom
  have hlen : t.data.length = size * rest.prod := by rw [t.size_eq, hs, List.prod_cons]
  let padded : Tensor E := Tensor.zeros t.dtype t.device ((size / r * b) :: rest)
  have hzero : padded.data = List.replicate (size / r * b * rest.prod) Scalars.zero := by
    show List.replicate (List.prod (_ :: rest)) _ = _
    rw [List.prod_cons]
  obtain ⟨front, hfront⟩ := (Tensor.narrow_ok_iff (t := padded) rfl 0 size).mpr
    (by rw [Nat.zero_add]; exact hrows)
  obtain ⟨n, rest', hpad, _, hfd, _, hfs, _⟩ := Tensor.narrow_ok hfront
  have hrest : rest' = rest := by
    have : (size / r * b) :: rest = n :: rest' := hpad
    cases this
    rfl
  obtain ⟨filled, hfilled, _, _, _, hdata⟩ :=
    Tensor.copy_same (show t.shape = front.shape by rw [hfs, hs, hrest])
  rw [hfd] at hdata
  have hdata' : filled.data = t.data := hdata.trans t.map_cast_data
  have hle : size * rest.prod ≤ size / r * b * rest.prod := Nat.mul_le_mul_right _ hrows
  have hfill : 0 + filled.data.length ≤ padded.data.length := by
    rw [hdata', hzero, List.length_replicate, hlen, Nat.zero_add]
    exact hle
  obtain ⟨out, hout⟩ := Tensor.write_some hfill
  obtain ⟨_, hod, hov, hos, hox⟩ := Tensor.write_ok hout
  refine ⟨out, ?_, hod, hov, ⟨size, rest, hs, hos, hrows⟩, ?_⟩
  · rw [padTensor_lead per hi hs hfits, halloc]
    show (do let front ← padded.narrow 0 size; let filled ← front.copy_ t; padded.write 0 filled.data) = _
    rw [hfront]
    show (do let filled ← front.copy_ t; padded.write 0 filled.data) = _
    rw [hfilled]
    exact hout
  · have hmap : t.data.map (Scalars.cast padded.dtype) = t.data := t.map_cast_data
    rw [hox, hdata', hmap, Dense.overwrite_zero, hzero, List.drop_replicate, Tensor.inner, hs,
      List.tail_cons]

/-- A tensor other than input 2 that pads has room. -/
theorem padTensor_room {b : Int} (hi : i ≠ 2) (h : padTensor alloc per r b i t = .ok padded) :
    HasRoom alloc r b i t := by
  unfold padTensor at h
  rw [if_neg hi] at h
  split at h
  · cases h
  · rename_i size rest hs
    simp only at h
    split at h
    · cases h
    · rename_i hlead
      obtain ⟨_, halloc, h⟩ := bind_ok.mp h
      obtain ⟨front, hfront, h⟩ := bind_ok.mp h
      split at h
      · cases h
      · rename_i hwraps
        have hproduct := not_ne_iff.mp hwraps
        have hrows := (Tensor.narrow_ok_iff rfl 0 size).mp ⟨front, hfront⟩
        refine ⟨raise_ok halloc, size, ⟨rest, hs⟩, ?_, ?_⟩
        · rw [← hproduct]
          omega
        · rw [← hproduct]
          exact wrapInt64_le _

/-- What a tensor other than input 2 that pads has become. -/
theorem padTensor_ok {b size : Nat} {rest : List Nat} (hi : i ≠ 2) (hs : t.shape = size :: rest)
    (h : padTensor alloc per r (b : Int) i t = .ok padded) : Grown t padded (size / r * b) := by
  obtain ⟨padded', h', hgrown⟩ := padTensor_grown per hi hs (padTensor_room hi h)
  rw [h] at h'
  cases h'
  exact hgrown

/-- A tensor other than input 2 pads exactly where it has room. -/
theorem padTensor_ok_iff (per : Nat) {b : Nat} (hi : i ≠ 2) :
    (∃ padded, padTensor alloc per r (b : Int) i t = .ok padded) ↔ HasRoom alloc r b i t := by
  constructor
  · rintro ⟨padded, h⟩
    exact padTensor_room hi h
  · intro hroom
    obtain ⟨_, ⟨rest, hs⟩, _⟩ := hroom.rows
    obtain ⟨padded, h, _⟩ := padTensor_grown per hi hs hroom
    exact ⟨padded, h⟩

/-- Input 2 is regenerated exactly where the positions can be made. -/
theorem padTensor_positions_iff {b : Nat} : padTensor alloc per r (b : Int) 2 t = .ok padded ↔
    HasPositions alloc b ∧ padded = Tensor.positions t.dtype t.device per b := by
  rw [padTensor, if_pos rfl]
  split
  · rename_i hrange
    refine ⟨fun h => (by cases h), fun h => absurd h.1.range ?_⟩
    omega
  · rename_i hrange
    rw [Int.toNat_natCast]
    constructor
    · intro h
      obtain ⟨_, halloc, h⟩ := bind_ok.mp h
      cases h
      exact ⟨⟨raise_ok halloc, by omega⟩, rfl⟩
    · rintro ⟨hpositions, rfl⟩
      rw [hpositions.allocates]
      rfl

/-- Nothing is divided by here: the width is. -/
theorem padTensor_error {b : Int} {f : Fault} (h : padTensor alloc per r b i t = .error f) : f ≠ .sigfpe := by
  unfold padTensor at h
  split at h
  · split at h
    · cases h
      simp
    · rcases bind_error.mp h with h | ⟨_, _, h⟩
      · obtain ⟨what, rfl⟩ := raise_error h
        simp
      · cases h
  · split at h
    · cases h
      simp
    · simp only at h
      split at h
      · cases h
        simp
      · rcases bind_error.mp h with h | ⟨_, _, h⟩
        · obtain ⟨what, rfl⟩ := raise_error h
          simp
        · rcases bind_error.mp h with h | ⟨_, _, h⟩
          · rw [Tensor.narrow_error h]
            simp
          · split at h
            · cases h
              simp
            · rcases bind_error.mp h with h | ⟨_, _, h⟩
              · rw [Tensor.copy_error h]
                simp
              · rw [Tensor.write_error h]
                simp

theorem padFrom_error {b : Int} {f : Fault} {inputs : List (Tensor E)}
    (h : padFrom alloc per r b i inputs = .error f) : f ≠ .sigfpe := by
  induction inputs generalizing i with
  | nil => cases h
  | cons t rest ih =>
    rcases bind_error.mp h with h | ⟨_, _, h⟩
    · exact padTensor_error h
    · rcases bind_error.mp h with h | ⟨_, _, h⟩
      · exact ih h
      · cases h

/-- What input 2 becomes. -/
theorem padTensor_positions {b : Nat} (h : padTensor alloc per r (b : Int) 2 t = .ok padded) :
    padded = Tensor.positions t.dtype t.device per b := (padTensor_positions_iff.mp h).2

end Padded

/-! ### `PadRequestsUp` on three tensors -/

section Three
variable {alloc : Int → Nat → Option String} {t0 t1 t2 : Tensor E} {r : Nat}

theorem padRequestsUp_three {bucket : Int} {out : List (Tensor E)}
    (h : padRequestsUp alloc [t0, t1, t2] r bucket = .ok out) :
    r ≠ 0 ∧ ∃ p0 p1 p2, out = [p0, p1, p2] ∧ padTensor alloc (t1.numel / r) r bucket 0 t0 = .ok p0 ∧
      padTensor alloc (t1.numel / r) r bucket 1 t1 = .ok p1 ∧
      padTensor alloc (t1.numel / r) r bucket 2 t2 = .ok p2 := by
  simp only [padRequestsUp, List.getElem?_cons_succ, List.getElem?_cons_zero] at h
  split at h
  · cases h
  · rename_i hr
    refine ⟨hr, ?_⟩
    simp only [padFrom] at h
    obtain ⟨p0, h0, h⟩ := bind_ok.mp h
    obtain ⟨out1, h1, h⟩ := bind_ok.mp h
    obtain ⟨p1, hp1, h1⟩ := bind_ok.mp h1
    obtain ⟨out2, h2, h1⟩ := bind_ok.mp h1
    obtain ⟨p2, hp2, h2⟩ := bind_ok.mp h2
    obtain ⟨out3, h3, h2⟩ := bind_ok.mp h2
    cases h3
    cases h2
    cases h1
    cases h
    exact ⟨p0, p1, p2, rfl, h0, hp1, hp2⟩

/-- **Where `PadRequestsUp` returns.** -/
theorem padRequestsUp_ok_iff (t2 : Tensor E) {b : Nat} (hr : r ≠ 0) :
    (∃ out, padRequestsUp alloc [t0, t1, t2] r (b : Int) = .ok out) ↔ Pads alloc r b t0 t1 := by
  constructor
  · rintro ⟨out, h⟩
    obtain ⟨_, p0, p1, p2, _, h0, h1, h2⟩ := padRequestsUp_three h
    exact ⟨padTensor_room (by decide) h0, padTensor_room (by decide) h1, (padTensor_positions_iff.mp h2).1⟩
  · intro hpads
    obtain ⟨p0, h0⟩ := (padTensor_ok_iff (t1.numel / r) (by decide)).mpr hpads.single
    obtain ⟨p1, h1⟩ := (padTensor_ok_iff (t1.numel / r) (by decide)).mpr hpads.multiple
    have h2 : padTensor alloc (t1.numel / r) r (b : Int) 2 t2 = .ok _ :=
      padTensor_positions_iff.mpr ⟨hpads.positions, rfl⟩
    have hlast : padFrom alloc (t1.numel / r) r (b : Int) 2 [t2] = .ok [_] :=
      bind_ok.mpr ⟨_, h2, bind_ok.mpr ⟨[], rfl, rfl⟩⟩
    have hrest : padFrom alloc (t1.numel / r) r (b : Int) 1 [t1, t2] = .ok [p1, _] :=
      bind_ok.mpr ⟨p1, h1, bind_ok.mpr ⟨_, hlast, rfl⟩⟩
    have hall : padFrom alloc (t1.numel / r) r (b : Int) 0 [t0, t1, t2] = .ok [p0, p1, _] :=
      bind_ok.mpr ⟨p0, h0, bind_ok.mpr ⟨_, hrest, rfl⟩⟩
    refine ⟨[p0, p1, Tensor.positions t2.dtype t2.device (t1.numel / r) b], ?_⟩
    rw [padRequestsUp]
    simp only [List.getElem?_cons_succ, List.getElem?_cons_zero, if_neg hr]
    exact hall

theorem padRequestsUp_error {b : Int} {f : Fault} (hr : r ≠ 0)
    (h : padRequestsUp alloc [t0, t1, t2] r b = .error f) : f ≠ .sigfpe := by
  simp only [padRequestsUp, List.getElem?_cons_succ, List.getElem?_cons_zero, if_neg hr] at h
  exact padFrom_error h

end Three

end TritonAot
