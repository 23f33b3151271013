import Mathlib.Data.List.Basic

/-! Rows added up column by column, and columns dealt out to rows.

`mergeFrom` walks along a row with an index and adds each element to the accumulator's at
the same position, or puts a new one at its end. Where all rows are of one length, that is
`List.zipWith` from the second row on (`mergeFrom_zipWith`), and the columns that come out
are the folds of the rows' columns (`foldl_zipWith_cons`). -/
namespace Columns

variable {α β ε : Type*}

/-- The elements of a row from position `j` on, each added to what the accumulator holds there;
behind the accumulator's end a new one is started. -/
def mergeFrom (add : β → α → Except ε β) (new : α → β) : Nat → List α → List β → Except ε (List β)
  | _, [], acc => .ok acc
  | j, a :: row, acc =>
    if h : j < acc.length then do
      let b ← add acc[j] a
      mergeFrom add new (j + 1) row (acc.set j b)
    else mergeFrom add new (j + 1) row (acc ++ [new a])

/-- Behind the end every element starts a new one. -/
theorem mergeFrom_new (add : β → α → Except ε β) (new : α → β) (row : List α) (acc : List β) :
    mergeFrom add new acc.length row acc = .ok (acc ++ row.map new) := by
  induction row generalizing acc with
  | nil => rw [mergeFrom, List.map_nil, List.append_nil]
  | cons a row ih =>
    have hnext := ih (acc ++ [new a])
    rw [List.length_append, List.length_singleton] at hnext
    rw [mergeFrom, dif_neg (Nat.lt_irrefl _), hnext, List.map_cons, List.append_assoc, List.singleton_append]

/-- A row as long as the accumulator is added position by position. What stands in front of the
index stays. -/
theorem mergeFrom_zipWith {add : β → α → Except ε β} {f : β → α → β} (new : α → β) {row : List α}
    {acc : List β} (front : List β) (hadd : List.Forall₂ (fun b a => add b a = .ok (f b a)) acc row) :
    mergeFrom add new front.length row (front ++ acc) = .ok (front ++ List.zipWith f acc row) := by
  induction hadd generalizing front with
  | nil => rfl
  | @cons b a acc row hhead _ ih =>
    have hlt : front.length < (front ++ b :: acc).length := by
      rw [List.length_append, List.length_cons]
      omega
    have hat : (front ++ b :: acc)[front.length] = b := by
      rw [List.getElem_append_right (Nat.le_refl _)]
      simp only [Nat.sub_self, List.getElem_cons_zero]
    have hset : (front ++ b :: acc).set front.length (f b a) = (front ++ [f b a]) ++ acc := by
      rw [List.set_append_right _ _ (Nat.le_refl _), Nat.sub_self, List.set_cons_zero, List.append_assoc,
        List.singleton_append]
    have hnext := ih (front ++ [f b a])
    rw [List.length_append, List.length_singleton] at hnext
    rw [mergeFrom, dif_pos hlt, hat, hhead]
    refine (congrArg (mergeFrom add new (front.length + 1) row) hset).trans (hnext.trans ?_)
    rw [List.zipWith_cons_cons, List.append_assoc, List.singleton_append]

/-- Adding up rows adds up their first elements, and the rest of them. -/
theorem foldl_zipWith_cons (f : α → α → α) (d x : α) (row : List α) {rows : List (List α)}
    (h : ∀ r ∈ rows, r ≠ []) :
    rows.foldl (List.zipWith f) (x :: row) =
      (rows.map (·.headD d)).foldl f x :: (rows.map List.tail).foldl (List.zipWith f) row := by
  induction rows generalizing x row with
  | nil => rfl
  | cons r rows ih =>
    cases r with
    | nil => exact absurd rfl (h [] List.mem_cons_self)
    | cons y ys => exact ih (f x y) (List.zipWith f row ys) fun r' hr' => h r' (List.mem_cons_of_mem _ hr')

theorem foldl_zipWith_nil (f : α → α → α) (rows : List (List α)) : rows.foldl (List.zipWith f) [] = [] := by
  induction rows with
  | nil => rfl
  | cons r rows ih => rw [List.foldl_cons, List.zipWith_nil_left, ih]

/-- Empty rows put behind others. -/
theorem zipWith_append_nil {acc rows : List (List α)} (hlength : acc.length = rows.length)
    (h : ∀ r ∈ rows, r = []) : List.zipWith (· ++ ·) acc rows = acc := by
  induction rows generalizing acc with
  | nil => rw [List.length_eq_zero_iff.mp hlength, List.zipWith_nil_left]
  | cons r rows ih =>
    cases acc with
    | nil => cases hlength
    | cons a acc =>
      rw [List.zipWith_cons_cons, h r List.mem_cons_self, List.append_nil,
        ih (Nat.succ.inj hlength) fun r' hr' => h r' (List.mem_cons_of_mem _ hr')]

theorem zipWith_replicate_nil (rows : List (List α)) :
    List.zipWith (· ++ ·) (List.replicate rows.length []) rows = rows := by
  induction rows with
  | nil => rfl
  | cons r rows ih => rw [List.length_cons, List.replicate_succ, List.zipWith_cons_cons, ih, List.nil_append]

theorem zipWith_snoc_replicate_nil (xs : List α) :
    List.zipWith (fun r x => r ++ [x]) (List.replicate xs.length []) xs = xs.map fun x => [x] := by
  induction xs with
  | nil => rfl
  | cons x xs ih => rw [List.length_cons, List.replicate_succ, List.zipWith_cons_cons, ih, List.nil_append, List.map_cons]

/-- Rows that all have a first element are their first elements in front of the rest. -/
theorem zipWith_cons_headD_tail (d : α) {rows : List (List α)} (h : ∀ r ∈ rows, r ≠ []) :
    List.zipWith List.cons (rows.map (·.headD d)) (rows.map List.tail) = rows := by
  induction rows with
  | nil => rfl
  | cons r rows ih =>
    cases r with
    | nil => exact absurd rfl (h [] List.mem_cons_self)
    | cons y ys =>
      rw [List.map_cons, List.map_cons, List.zipWith_cons_cons, ih fun r' hr' => h r' (List.mem_cons_of_mem _ hr')]
      rfl

/-- One more element to each row, and then the rest of it. -/
theorem zipWith_append_zipWith_snoc (acc : List (List α)) (xs : List α) (rows : List (List α)) :
    List.zipWith (· ++ ·) (List.zipWith (fun r x => r ++ [x]) acc xs) rows =
      List.zipWith (· ++ ·) acc (List.zipWith List.cons xs rows) := by
  induction acc generalizing xs rows with
  | nil => simp only [List.zipWith_nil_left]
  | cons r acc ih =>
    cases xs with
    | nil => simp only [List.zipWith_nil_left, List.zipWith_nil_right]
    | cons x xs =>
      cases rows with
      | nil => simp only [List.zipWith_nil_right]
      | cons row rows =>
        rw [List.zipWith_cons_cons, List.zipWith_cons_cons, List.zipWith_cons_cons, List.zipWith_cons_cons,
          ih, List.append_assoc, List.singleton_append]

/-- A list cut into sections of the given lengths. -/
def cut : List Nat → List α → List (List α)
  | [], _ => []
  | n :: sections, l => l.take n :: cut sections (l.drop n)

end Columns
