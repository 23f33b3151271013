import Mathlib.Data.List.Induction
import Mathlib.Data.List.Nodup

/-! Maps written one key at a time.

A map is the list of its entries, the newest first: what a key holds is what it was
given last. A list whose members are numbered by their places leaves each member
its last place (`lookup_numbered`). -/
namespace Overrides

variable {K V : Type*}

/-- The map after a sequence of assignments. -/
def assignAll (m writes : List (K × V)) : List (K × V) := writes.reverse ++ m

@[simp] theorem assignAll_nil (m : List (K × V)) : assignAll m [] = m := rfl

@[simp] theorem assignAll_cons (m : List (K × V)) (w : K × V) (writes : List (K × V)) :
    assignAll m (w :: writes) = assignAll (w :: m) writes := by
  simp [assignAll]

theorem assignAll_append (m ws vs : List (K × V)) :
    assignAll m (ws ++ vs) = assignAll (assignAll m ws) vs := by
  simp [assignAll]

/-- A key of the map holds something. -/
theorem exists_lookup [DecidableEq K] {m : List (K × V)} {k : K} (h : k ∈ m.map Prod.fst) :
    ∃ v, m.lookup k = some v := by
  obtain ⟨w, hw, rfl⟩ := List.mem_map.mp h
  exact Option.isSome_iff_exists.mp (List.lookup_isSome_iff.mpr ⟨w, hw, beq_self_eq_true _⟩)

theorem map_fst_assignAll (m writes : List (K × V)) :
    (assignAll m writes).map Prod.fst = (writes.map Prod.fst).reverse ++ m.map Prod.fst := by
  simp [assignAll]

/-- A key that is not assigned keeps what it holds. -/
theorem lookup_other [DecidableEq K] {m writes : List (K × V)} {k : K} (h : ∀ w ∈ writes, w.1 ≠ k) :
    (assignAll m writes).lookup k = m.lookup k := by
  induction writes generalizing m with
  | nil => rfl
  | cons w rest ih =>
    have hne : k ≠ w.1 := fun he => h w (List.mem_cons_self ..) he.symm
    rw [assignAll_cons, ih fun v hv => h v (List.mem_cons_of_mem _ hv), List.lookup_cons,
      beq_false_of_ne hne]

/-- Where the value is a function of the key, the order of assignments is no matter. -/
theorem lookup_function [DecidableEq K] {m writes : List (K × V)} {f : K → V}
    (h : ∀ w ∈ writes, w.2 = f w.1) {k : K} (hk : k ∈ writes.map Prod.fst) :
    (assignAll m writes).lookup k = some (f k) := by
  induction writes generalizing m with
  | nil => simp at hk
  | cons w rest ih =>
    rw [assignAll_cons]
    by_cases hrest : k ∈ rest.map Prod.fst
    · exact ih (fun v hv => h v (List.mem_cons_of_mem _ hv)) hrest
    · -- the head is the last assignment of this key
      have hw : k = w.1 := by simpa [hrest] using hk
      have hother : ∀ v ∈ rest, v.1 ≠ k := fun v hv he => hrest (List.mem_map.mpr ⟨v, hv, he⟩)
      subst hw
      rw [lookup_other hother, List.lookup_cons, beq_self_eq_true, h w (List.mem_cons_self ..)]

/-! ### Last places -/

/-- `i` is the last place of `x` in the list. -/
structure LastAt (xs : List K) (x : K) (i : Nat) : Prop where
  found : xs[i]? = some x
  last : ∀ j, xs[j]? = some x → j ≤ i

theorem LastAt.lt {xs : List K} {x : K} {i : Nat} (h : LastAt xs x i) : i < xs.length :=
  (List.getElem?_eq_some_iff.mp h.found).1

theorem LastAt.mem {xs : List K} {x : K} {i : Nat} (h : LastAt xs x i) : x ∈ xs :=
  List.mem_of_getElem? h.found

theorem LastAt.unique {xs : List K} {x : K} {i j : Nat} (hi : LastAt xs x i) (hj : LastAt xs x j) :
    i = j := Nat.le_antisymm (hj.last i hi.found) (hi.last j hj.found)

/-- What is last in a front of the list and not found behind it is last. -/
theorem LastAt.append {xs ys : List K} {x : K} {i : Nat} (h : LastAt xs x i) (hy : x ∉ ys) :
    LastAt (xs ++ ys) x i := by
  refine ⟨by rw [List.getElem?_append_left h.lt, h.found], fun j hj => ?_⟩
  by_cases hlt : j < xs.length
  · rw [List.getElem?_append_left hlt] at hj
    exact h.last j hj
  · rw [List.getElem?_append_right (by omega)] at hj
    exact absurd (List.mem_of_getElem? hj) hy

/-- What is last in the list behind a front is last. -/
theorem LastAt.append_right {xs ys : List K} {y : K} {i : Nat} (h : LastAt ys y i) :
    LastAt (xs ++ ys) y (xs.length + i) := by
  refine ⟨?_, fun j hj => ?_⟩
  · rw [List.getElem?_append_right (by omega), Nat.add_sub_cancel_left, h.found]
  · by_cases hlt : j < xs.length
    · omega
    · rw [List.getElem?_append_right (by omega)] at hj
      have := h.last _ hj
      omega

theorem exists_lastAt {xs : List K} {x : K} (h : x ∈ xs) : ∃ i, LastAt xs x i := by
  induction xs using List.reverseRecOn with
  | nil => simp at h
  | append_singleton front y ih =>
    by_cases hy : x = y
    · subst hy
      have hlast : LastAt [x] x 0 := ⟨rfl, fun j hj => by
        have := (List.getElem?_eq_some_iff.mp hj).1
        simpa using this⟩
      exact ⟨_, hlast.append_right⟩
    · obtain ⟨i, hi⟩ := ih (by simpa [hy] using h)
      exact ⟨i, hi.append (by simpa using hy)⟩

/-- In a list without repetition every place is a last one. -/
theorem lastAt_of_nodup {xs : List K} (h : xs.Nodup) {x : K} {i : Nat} (hi : xs[i]? = some x) :
    LastAt xs x i := by
  obtain ⟨hlt, hx⟩ := List.getElem?_eq_some_iff.mp hi
  refine ⟨hi, fun j hj => ?_⟩
  obtain ⟨hj, hx'⟩ := List.getElem?_eq_some_iff.mp hj
  exact Nat.le_of_eq ((List.Nodup.getElem_inj_iff h).mp (hx'.trans hx.symm))

/-- All the places of a front are last ones exactly where nothing in it is repeated, nor behind it. -/
theorem lastAt_all_iff {xs ys : List K} :
    (∀ i x, xs[i]? = some x → LastAt (xs ++ ys) x i) ↔ xs.Nodup ∧ ∀ y ∈ ys, y ∉ xs := by
  constructor
  · intro h
    refine ⟨List.nodup_iff_getElem?_ne_getElem?.mpr fun i j hij hj he => ?_, fun y hy hx => ?_⟩
    · have hi := List.getElem?_eq_getElem hj
      have := (h i _ (he.trans hi)).unique (h j _ hi)
      omega
    · obtain ⟨i, hi, rfl⟩ := List.getElem_of_mem hx
      obtain ⟨j, hj⟩ := exists_lastAt hy
      have := (h i _ (List.getElem?_eq_getElem hi)).unique hj.append_right
      omega
  · intro ⟨hnodup, hapart⟩ i x hi
    exact (lastAt_of_nodup hnodup hi).append fun hx => hapart x hx (List.mem_of_getElem? hi)

/-- The members of a list with what they are given at their places, counted from `n` on. -/
def numbered (f : K → Nat → V) (n : Nat) (xs : List K) : List (K × V) :=
  (xs.zipIdx n).map fun p => (p.1, f p.1 p.2)

@[simp] theorem numbered_nil (f : K → Nat → V) (n : Nat) : numbered f n ([] : List K) = [] := rfl

@[simp] theorem numbered_cons (f : K → Nat → V) (n : Nat) (x : K) (xs : List K) :
    numbered f n (x :: xs) = (x, f x n) :: numbered f (n + 1) xs := rfl

theorem numbered_append (f : K → Nat → V) (n : Nat) (xs ys : List K) :
    numbered f n (xs ++ ys) = numbered f n xs ++ numbered f (n + xs.length) ys := by
  simp [numbered, List.zipIdx_append]

@[simp] theorem map_fst_numbered (f : K → Nat → V) (n : Nat) (xs : List K) :
    (numbered f n xs).map Prod.fst = xs := by
  induction xs generalizing n with
  | nil => rfl
  | cons x rest ih => simp [ih]

theorem snd_of_mem_numbered {f : K → Nat → V} {n : Nat} {xs : List K} {w : K × V}
    (h : w ∈ numbered f n xs) : ∃ i, w.2 = f w.1 i := by
  obtain ⟨p, _, rfl⟩ := List.mem_map.mp h
  exact ⟨p.2, rfl⟩

/-- What is left of numbering a list is each member's last place. -/
theorem lookup_numbered [DecidableEq K] {f : K → Nat → V} {xs : List K} {x : K} {i : Nat} (h : LastAt xs x i)
    (m : List (K × V)) : (assignAll m (numbered f 0 xs)).lookup x = some (f x i) := by
  induction xs using List.reverseRecOn with
  | nil => exact absurd h.mem List.not_mem_nil
  | append_singleton front y ih =>
    rw [numbered_append, assignAll_append, Nat.zero_add, numbered_cons, numbered_nil, assignAll_cons,
      assignAll_nil, List.lookup_cons]
    by_cases hy : x = y
    · subst hy
      have hlast : front.length = i := by
        have hle := h.last front.length (by simp)
        have hlt := h.lt
        rw [List.length_append, List.length_singleton] at hlt
        omega
      rw [beq_self_eq_true, hlast]
    · rw [beq_false_of_ne hy]
      have hx : x ∈ front := by simpa [hy] using h.mem
      obtain ⟨j, hj⟩ := exists_lastAt hx
      have hji := (hj.append (by simpa using hy)).unique h
      exact ih (hji ▸ hj)

end Overrides
