import Mathlib.Algebra.BigOperators.Group.List.Basic
import Mathlib.Algebra.Order.BigOperators.Group.List
import Mathlib.Data.Nat.Basic

/-! Dense row-major arrays: a shape, and the elements in one flat list.

Two things are done to flat data here. Broadcasting (`expand`) repeats blocks
along axes of extent one until a source has the destination's shape; it is
defined by recursion on the two shapes, so that on equal shapes it is the
identity (`expand_self`). Overwriting (`overwrite`) replaces a stretch of the
flat data. -/
namespace Dense

variable {α : Type*}

/-! ### Broadcasting -/

/-- `f` on each of the first `n` blocks of `size` elements. -/
def blocks (f : List α → List α) (size : Nat) : Nat → List α → List α
  | 0, _ => []
  | n + 1, data => f (data.take size) ++ blocks f size n (data.drop size)

theorem blocks_id (f : List α → List α) (size : Nat) (hf : ∀ l : List α, l.length = size → f l = l)
    (n : Nat) (data : List α) (h : data.length = n * size) : blocks f size n data = data := by
  induction n generalizing data with
  | zero =>
    rw [Nat.zero_mul, List.length_eq_zero_iff] at h
    rw [h, blocks]
  | succ n ih =>
    have hle : size ≤ data.length := by rw [h, Nat.succ_mul]; exact Nat.le_add_left _ _
    rw [blocks, hf _ (by rw [List.length_take, Nat.min_eq_left hle]),
      ih (data.drop size) (by rw [List.length_drop, h, Nat.succ_mul, Nat.add_sub_cancel]),
      List.take_append_drop]

theorem length_blocks (f : List α → List α) (size out : Nat)
    (hf : ∀ l : List α, l.length = size → (f l).length = out) (n : Nat) (data : List α)
    (h : data.length = n * size) : (blocks f size n data).length = n * out := by
  induction n generalizing data with
  | zero => rw [blocks, Nat.zero_mul, List.length_nil]
  | succ n ih =>
    have hle : size ≤ data.length := by rw [h, Nat.succ_mul]; exact Nat.le_add_left _ _
    rw [blocks, List.length_append, hf _ (by rw [List.length_take, Nat.min_eq_left hle]),
      ih (data.drop size) (by rw [List.length_drop, h, Nat.succ_mul, Nat.add_sub_cancel]),
      Nat.succ_mul, Nat.add_comm]

theorem mem_blocks {f : List α → List α} (hf : ∀ l, ∀ x ∈ f l, x ∈ l) (size n : Nat) (data : List α) :
    ∀ x ∈ blocks f size n data, x ∈ data := by
  induction n generalizing data with
  | zero => intro x hx; cases hx
  | succ n ih =>
    intro x hx
    rcases List.mem_append.mp hx with hx | hx
    · exact List.mem_of_mem_take (hf _ x hx)
    · exact List.mem_of_mem_drop (ih _ x hx)

/-- Data of shape `src` spread over a shape of the same rank. -/
def spread : List Nat → List Nat → List α → List α
  | s :: src, d :: dst, data =>
    if s = d then blocks (spread src dst) src.prod d data
    else (List.replicate d (spread src dst data)).flatten
  | _, _, data => data

/-- Axis by axis, the source has the destination's extent or extent one. -/
def Spreads (src dst : List Nat) : Prop := List.Forall₂ (fun s d => s = d ∨ s = 1) src dst

instance (src dst : List Nat) : Decidable (Spreads src dst) :=
  inferInstanceAs (Decidable (List.Forall₂ _ src dst))

theorem spreads_self (shape : List Nat) : Spreads shape shape := by
  induction shape with
  | nil => exact .nil
  | cons s rest ih => exact .cons (.inl rfl) ih

theorem spread_self (shape : List Nat) (data : List α) (h : data.length = shape.prod) :
    spread shape shape data = data := by
  induction shape generalizing data with
  | nil => rfl
  | cons s rest ih =>
    rw [spread, if_pos rfl]
    exact blocks_id _ _ (fun l hl => ih l hl) s data (by rw [h, List.prod_cons])

theorem length_spread {src dst : List Nat} (hs : Spreads src dst) (data : List α)
    (h : data.length = src.prod) : (spread src dst data).length = dst.prod := by
  induction hs generalizing data with
  | nil => exact h
  | @cons s d src dst hsd _ ih =>
    rw [List.prod_cons] at h ⊢
    by_cases he : s = d
    · rw [spread, if_pos he]
      exact length_blocks _ _ _ (fun l hl => ih l hl) d data (by rw [h, he])
    · have h1 : s = 1 := hsd.resolve_left he
      rw [h1, Nat.one_mul] at h
      rw [spread, if_neg he, List.length_flatten, List.map_replicate, List.sum_replicate_nat, ih data h]

theorem mem_spread (src dst : List Nat) (data : List α) : ∀ x ∈ spread src dst data, x ∈ data := by
  induction src generalizing dst data with
  | nil => intro x hx; exact hx
  | cons s src ih =>
    cases dst with
    | nil => intro x hx; exact hx
    | cons d dst =>
      intro x hx
      rw [spread] at hx
      split at hx
      · exact mem_blocks (fun l => ih dst l) _ _ _ x hx
      · obtain ⟨l, hl, hx⟩ := List.mem_flatten.mp hx
        rw [List.eq_of_mem_replicate hl] at hx
        exact ih dst data x hx

/-- A spread onto a shape that holds something makes no fewer elements. -/
theorem prod_le_of_spreads {src dst : List Nat} (hs : Spreads src dst) (hd : 0 < dst.prod) :
    src.prod ≤ dst.prod := by
  induction hs with
  | nil => exact Nat.le_refl _
  | @cons s d src dst hsd _ ih =>
    rw [List.prod_cons] at hd ⊢
    rw [List.prod_cons]
    have hdpos : 0 < d := Nat.pos_of_mul_pos_right hd
    exact Nat.mul_le_mul (by rcases hsd with rfl | rfl <;> omega) (ih (Nat.pos_of_mul_pos_left hd))

/-- A spread makes a multiple of the elements. -/
theorem prod_dvd_of_spreads {src dst : List Nat} (hs : Spreads src dst) : src.prod ∣ dst.prod := by
  induction hs with
  | nil => exact Nat.dvd_refl _
  | @cons s d src dst hsd _ ih =>
    rw [List.prod_cons, List.prod_cons]
    refine Nat.mul_dvd_mul ?_ ih
    rcases hsd with rfl | rfl
    · exact Nat.dvd_refl _
    · exact Nat.one_dvd _

/-- A spread that keeps the number of elements, and has some, keeps the shape. -/
theorem eq_of_spreads {src dst : List Nat} (hs : Spreads src dst) (hp : src.prod = dst.prod)
    (hpos : 0 < src.prod) : src = dst := by
  induction hs with
  | nil => rfl
  | @cons s d src dst hsd hrest ih =>
    rw [List.prod_cons] at hp hpos
    rw [List.prod_cons] at hp
    have hsrc : 0 < src.prod := Nat.pos_of_mul_pos_left hpos
    have hle : src.prod ≤ dst.prod :=
      prod_le_of_spreads hrest (Nat.pos_of_mul_pos_left (hp ▸ hpos))
    rcases hsd with rfl | rfl
    · rw [ih (Nat.eq_of_mul_eq_mul_left (Nat.pos_of_mul_pos_right hpos) hp) hsrc]
    · rw [Nat.one_mul] at hp
      have hd : d = 1 := by
        have hup : d * src.prod ≤ 1 * src.prod := by
          calc d * src.prod ≤ d * dst.prod := Nat.mul_le_mul_left d hle
            _ = 1 * src.prod := by rw [← hp, Nat.one_mul]
        have hd1 : d ≤ 1 := Nat.le_of_mul_le_mul_right hup hsrc
        have hd0 : d ≠ 0 := fun h0 => by rw [h0, Nat.zero_mul] at hp; omega
        omega
      rw [hd, Nat.one_mul] at hp
      rw [hd, ih hp hsrc]

/-- The source shape with leading axes of extent one, up to the destination's rank. -/
def aligned (src dst : List Nat) : List Nat := List.replicate (dst.length - src.length) 1 ++ src

theorem aligned_self (shape : List Nat) : aligned shape shape = shape := by
  rw [aligned, Nat.sub_self, List.replicate_zero, List.nil_append]

@[simp] theorem prod_aligned (src dst : List Nat) : (aligned src dst).prod = src.prod := by
  rw [aligned, List.prod_append, List.prod_replicate, one_pow, one_mul]

/-- Data of shape `src` broadcast to the shape `dst`. -/
def expand (src dst : List Nat) (data : List α) : List α := spread (aligned src dst) dst data

/-- The shape `src` broadcasts to exactly the shape `dst`. -/
def Expands (src dst : List Nat) : Prop := Spreads (aligned src dst) dst

instance (src dst : List Nat) : Decidable (Expands src dst) :=
  inferInstanceAs (Decidable (Spreads _ _))

theorem expands_self (shape : List Nat) : Expands shape shape := by
  rw [Expands, aligned_self]
  exact spreads_self shape

theorem expand_self (shape : List Nat) (data : List α) (h : data.length = shape.prod) :
    expand shape shape data = data := by
  rw [expand, aligned_self]
  exact spread_self shape data h

theorem length_expand {src dst : List Nat} (hs : Expands src dst) (data : List α)
    (h : data.length = src.prod) : (expand src dst data).length = dst.prod :=
  length_spread hs data (by rw [prod_aligned, h])

theorem mem_expand (src dst : List Nat) (data : List α) : ∀ x ∈ expand src dst data, x ∈ data :=
  mem_spread _ _ data

/-- One axis is repeated only from extent one. -/
theorem expands_singleton {m n : Nat} (h : Expands [m] [n]) : m = n ∨ m = 1 := (List.forall₂_cons.mp h).1

theorem prod_dvd_of_expands {src dst : List Nat} (hs : Expands src dst) : src.prod ∣ dst.prod := by
  have h := prod_dvd_of_spreads hs
  rwa [prod_aligned] at h

/-- A broadcast that keeps the number of elements, and has some, moves none of them. -/
theorem expand_of_prod_eq {src dst : List Nat} (hs : Expands src dst) (hp : src.prod = dst.prod)
    (hpos : 0 < src.prod) (data : List α) (h : data.length = src.prod) :
    expand src dst data = data := by
  have he : aligned src dst = dst :=
    eq_of_spreads hs (by rw [prod_aligned, hp]) (by rw [prod_aligned]; exact hpos)
  rw [expand, he]
  exact spread_self dst data (by rw [h, hp])

/-- A broadcast of equal rank that stretches no axis keeps the shape. -/
theorem eq_of_expands {src dst : List Nat} (hs : Expands src dst) (hl : src.length = dst.length)
    (h1 : List.Forall₂ (fun s d => s = 1 → d = 1) src dst) : src = dst := by
  rw [Expands, aligned, hl, Nat.sub_self, List.replicate_zero, List.nil_append] at hs
  clear hl
  induction hs with
  | nil => rfl
  | cons hsd _ ih =>
    obtain ⟨hone, hrest⟩ := List.forall₂_cons.mp h1
    rcases hsd with rfl | rfl
    · rw [ih hrest]
    · rw [hone rfl, ih hrest]

/-! ### Overwriting -/

/-- `xs` written over the data from a position on. -/
def overwrite (start : Nat) (xs data : List α) : List α :=
  data.take start ++ xs ++ data.drop (start + xs.length)

theorem length_overwrite (start : Nat) (xs data : List α) (h : start + xs.length ≤ data.length) :
    (overwrite start xs data).length = data.length := by
  rw [overwrite, List.length_append, List.length_append, List.length_take, List.length_drop]
  omega

theorem mem_overwrite (start : Nat) (xs data : List α) :
    ∀ x ∈ overwrite start xs data, x ∈ xs ∨ x ∈ data := by
  intro x hx
  rw [overwrite] at hx
  rcases List.mem_append.mp hx with hx | hx
  · rcases List.mem_append.mp hx with hx | hx
    · exact .inr (List.mem_of_mem_take hx)
    · exact .inl hx
  · exact .inr (List.mem_of_mem_drop hx)

theorem overwrite_zero (xs data : List α) : overwrite 0 xs data = xs ++ data.drop xs.length := by
  rw [overwrite, List.take_zero, List.nil_append, Nat.zero_add]

theorem overwrite_nil (start : Nat) (data : List α) : overwrite start [] data = data := by
  rw [overwrite, List.append_nil, List.length_nil, Nat.add_zero, List.take_append_drop]

/-- Two stretches next to each other, written one after the other. -/
theorem overwrite_append (start : Nat) (xs ys data : List α) (h : start + xs.length ≤ data.length) :
    overwrite (start + xs.length) ys (overwrite start xs data) = overwrite start (xs ++ ys) data := by
  have hwritten : (data.take start ++ xs).length = start + xs.length := by
    rw [List.length_append, List.length_take, Nat.min_eq_left (by omega)]
  have hdrop : (data.take start ++ xs ++ data.drop (start + xs.length)).drop (start + xs.length + ys.length) =
      data.drop (start + (xs ++ ys).length) := by
    rw [← hwritten, ← List.drop_drop, List.drop_left, hwritten, List.drop_drop, List.length_append,
      Nat.add_assoc]
  rw [overwrite, overwrite, overwrite, hdrop, List.take_append_of_le_length (by rw [hwritten]),
    List.take_of_length_le (by rw [hwritten]), List.append_assoc (data.take start) xs ys]

/-- A prefix and the rest, written one after the other, are all that is left. -/
theorem overwrite_cover (xs ys data : List α) (h : xs.length + ys.length = data.length) :
    overwrite xs.length ys (overwrite 0 xs data) = xs ++ ys := by
  have hboth : overwrite (0 + xs.length) ys (overwrite 0 xs data) = overwrite 0 (xs ++ ys) data :=
    overwrite_append 0 xs ys data (by omega)
  rw [Nat.zero_add] at hboth
  rw [hboth, overwrite_zero, List.drop_eq_nil_of_le (by rw [List.length_append, h]), List.append_nil]

end Dense
