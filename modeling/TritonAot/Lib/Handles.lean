import Mathlib.Data.Finset.Basic
import Mathlib.Data.Finset.Insert
import Mathlib.Data.Finset.Erase
import Mathlib.Data.List.Count

/-! Handles that are opened, used and closed.

A list of uses keeps the *discipline* where a handle is opened behind its parent, used while it
is open, and closed behind its children (`after`). Where nothing is open before and behind, every
handle that was opened was closed as often (`count_opened`): none leaks, none is closed twice,
and none is used once it is closed. -/
namespace Handles

/-- What is done with a handle. -/
inductive Use (H : Type*) where
  | opened (h : H)
  | used (h : H)
  | closed (h : H)
  deriving DecidableEq

variable {H : Type*} [DecidableEq H] {parent : H → Option H} {o o' o'' : Finset H} {l l' : List (Use H)} {h p : H}

/-- The handles that are open behind one use, if it keeps the discipline. -/
def step (parent : H → Option H) (o : Finset H) : Use H → Option (Finset H)
  | .opened h => if h ∉ o ∧ (parent h).all (· ∈ o) then some (insert h o) else none
  | .used h => if h ∈ o then some o else none
  | .closed h => if h ∈ o ∧ ∀ c ∈ o, parent c ≠ some h then some (o.erase h) else none

/-- And behind a list of them. -/
def after (parent : H → Option H) (o : Finset H) : List (Use H) → Option (Finset H)
  | [] => some o
  | use :: rest => (step parent o use).bind fun o => after parent o rest

@[simp] theorem after_nil : after parent o [] = some o := rfl

theorem after_append : after parent o (l ++ l') = (after parent o l).bind fun o => after parent o l' := by
  induction l generalizing o with
  | nil => rfl
  | cons use rest ih =>
    simp only [List.cons_append, after, ih]
    cases step parent o use <;> rfl

theorem after_trans (h : after parent o l = some o') (h' : after parent o' l' = some o'') :
    after parent o (l ++ l') = some o'' := by
  rw [after_append, h]
  exact h'

theorem after_opened (fresh : h ∉ o) (ready : ∀ p, parent h = some p → p ∈ o) :
    after parent o [.opened h] = some (insert h o) := by
  have hready : (parent h).all (· ∈ o) = true := by
    cases hp : parent h with
    | none => rfl
    | some p => simpa using ready p hp
  simp [after, step, fresh, hready]

theorem after_used (h : p ∈ o) : after parent o [.used p] = some o := by simp [after, step, h]

theorem after_closed (open_ : h ∈ o) (last : ∀ c ∈ o, parent c ≠ some h) :
    after parent o [.closed h] = some (o.erase h) := by
  have hall : h ∈ o ∧ ∀ c ∈ o, parent c ≠ some h := ⟨open_, last⟩
  simp only [after, step, if_pos hall]
  rfl

/-- **What is opened is closed, or open.** -/
theorem count_opened (hall : after parent o l = some o') (h : H) :
    l.count (.opened h) + (if h ∈ o then 1 else 0) = l.count (.closed h) + if h ∈ o' then 1 else 0 := by
  induction l generalizing o with
  | nil =>
    cases hall
    rfl
  | cons use rest ih =>
    obtain ⟨mid, hstep, hrest⟩ := Option.bind_eq_some_iff.mp hall
    have hih := ih hrest
    cases use with
    | used p =>
      obtain ⟨_, hmid⟩ := Option.ite_none_right_eq_some.mp hstep
      cases hmid
      simpa [List.count_cons] using hih
    | opened p =>
      obtain ⟨⟨hfresh, _⟩, hmid⟩ := Option.ite_none_right_eq_some.mp hstep
      cases hmid
      by_cases hp : p = h
      · subst hp
        simpa [List.count_cons, hfresh] using hih
      · simpa [List.count_cons, hp, Ne.symm hp] using hih
    | closed p =>
      obtain ⟨⟨hopen, _⟩, hmid⟩ := Option.ite_none_right_eq_some.mp hstep
      cases hmid
      by_cases hp : p = h
      · subst hp
        simp only [Finset.mem_erase, ne_eq, not_true_eq_false, false_and, if_false, Nat.add_zero] at hih
        simp [hopen, hih, Nat.add_right_comm]
      · simpa [List.count_cons, hp, Ne.symm hp] using hih

end Handles
