import Mathlib.Data.List.Basic
import Mathlib.Algebra.GroupWithZero.Nat

/-! Labelled steps and the runs they make.

A system is a step relation `step s l s'`: from the state `s`, one call whose
inputs and results are the label `l` leaves the state `s'`. A `Run` is what any
number of calls make, one after the other. What one step keeps, every run keeps
(`Run.invariant`), and what every step from a good state guarantees holds of
every label of a run (`Run.always`). A *rule* restricts the calls that may be
made; a run all of whose steps meet the rule is a run of `under rule step`. -/
namespace Steps

variable {S L : Type*}

/-- Runs: the labels in order, from the first state to the last. -/
inductive Run (step : S → L → S → Prop) : S → List L → S → Prop where
  | nil (s : S) : Run step s [] s
  | cons {s l s' ls s''} : step s l s' → Run step s' ls s'' → Run step s (l :: ls) s''

/-- The steps that meet a rule on the state they start from and the call. -/
def under (rule : S → L → Prop) (step : S → L → S → Prop) : S → L → S → Prop :=
  fun s l s' => rule s l ∧ step s l s'

variable {step : S → L → S → Prop} {rule : S → L → Prop}

theorem Run.append {s t u : S} {ls ms : List L} (h : Run step s ls t) (h' : Run step t ms u) :
    Run step s (ls ++ ms) u := by
  induction h with
  | nil => exact h'
  | cons hs _ ih => exact .cons hs (ih h')

/-- A run over two lists of labels passes through a state between them. -/
theorem Run.split {s u : S} {ls ms : List L} (h : Run step s (ls ++ ms) u) :
    ∃ t, Run step s ls t ∧ Run step t ms u := by
  induction ls generalizing s with
  | nil => exact ⟨s, .nil s, h⟩
  | cons l rest ih =>
    cases h with
    | cons hs hrest =>
      obtain ⟨t, hfirst, hlast⟩ := ih hrest
      exact ⟨t, .cons hs hfirst, hlast⟩

/-- What every step pays for out of a potential and the credit it is given, every
run pays for. -/
theorem Run.potential {cost credit : L → Nat} {level : S → Nat}
    (each : ∀ s l s', step s l s' → cost l + level s ≤ credit l + level s') {s t : S} {ls : List L}
    (h : Run step s ls t) : (ls.map cost).sum + level s ≤ (ls.map credit).sum + level t := by
  induction h with
  | nil => exact Nat.le_refl _
  | cons hs _ ih =>
    have hfirst := each _ _ _ hs
    rw [List.map_cons, List.map_cons, List.sum_cons, List.sum_cons]
    omega

/-- What every step keeps, every run keeps. -/
theorem Run.invariant {Inv : S → Prop} (keep : ∀ s l s', Inv s → step s l s' → Inv s')
    {s t : S} {ls : List L} (h : Run step s ls t) (hi : Inv s) : Inv t := by
  induction h with
  | nil => exact hi
  | cons hs _ ih => exact ih (keep _ _ _ hi hs)

/-- What every step from a state that satisfies the invariant guarantees of its
label holds of every label of the run. -/
theorem Run.always {Inv : S → Prop} {P : L → Prop} (keep : ∀ s l s', Inv s → step s l s' → Inv s')
    (each : ∀ s l s', Inv s → step s l s' → P l) {s t : S} {ls : List L} (h : Run step s ls t)
    (hi : Inv s) : ∀ l ∈ ls, P l := by
  induction h with
  | nil => intro l hl; cases hl
  | cons hs _ ih =>
    intro l hl
    rcases List.mem_cons.mp hl with rfl | hl
    · exact each _ _ _ hi hs
    · exact ih (keep _ _ _ hi hs) l hl

end Steps
