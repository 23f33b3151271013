import Mathlib.Data.Finset.Insert
import Mathlib.Data.Finset.Lattice.Lemmas
import Mathlib.Data.Finset.Disjoint
import TritonAot.Lib.Steps

/-! A cache with a negative cache.

A key is attempted only while it is in neither; the attempt puts it in one of
them, and both are emptied together. So no key is ever in both (`Keys.Healthy`), the
two never hold more keys than may be attempted (`Keys.Within`), and a key is attempted
once more than they are emptied, at most (`run_attempts_le`). -/
namespace Attempts

variable {K : Type*}

/-- The keys an attempt stored something under, and those it failed for. -/
@[ext] structure Keys (K : Type*) where
  cached : Finset K
  failed : Finset K

/-- No key is in both. -/
def Keys.Healthy (k : Keys K) : Prop := Disjoint k.cached k.failed

theorem Keys.Healthy.not_failed {k : Keys K} (hk : k.Healthy) {key : K} (h : key ∈ k.cached) :
    key ∉ k.failed := Finset.disjoint_left.mp hk h

inductive Op (K : Type*) where
  | attempt (key : K) (stored : Bool)
  | clear

variable [DecidableEq K]

/-- What one operation does, and when it may be made. -/
inductive Step : Keys K → Op K → Keys K → Prop where
  | stored {k : Keys K} {key : K} (fresh : key ∉ k.cached ∧ key ∉ k.failed) :
      Step k (.attempt key true) ⟨insert key k.cached, k.failed⟩
  | failed {k : Keys K} {key : K} (fresh : key ∉ k.cached ∧ key ∉ k.failed) :
      Step k (.attempt key false) ⟨k.cached, insert key k.failed⟩
  | clear {k : Keys K} : Step k .clear ⟨∅, ∅⟩

theorem Step.healthy {k k' : Keys K} {op : Op K} (hk : k.Healthy) (h : Step k op k') : k'.Healthy := by
  cases h with
  | stored fresh => exact Finset.disjoint_insert_left.mpr ⟨fresh.2, hk⟩
  | failed fresh => exact Finset.disjoint_insert_right.mpr ⟨fresh.1, hk⟩
  | clear => exact Finset.disjoint_empty_left ∅

theorem run_healthy {k k' : Keys K} {ops : List (Op K)} (h : Steps.Run Step k ops k') (hk : k.Healthy) :
    k'.Healthy :=
  h.invariant (fun _ _ _ hi hs => hs.healthy hi) hk

/-- Every key in either is one of the given ones. -/
structure Keys.Within (k : Keys K) (allowed : Finset K) : Prop where
  cached : k.cached ⊆ allowed
  failed : k.failed ⊆ allowed

/-- The key of an attempt. -/
def Op.key? : Op K → Option K
  | .attempt key _ => some key
  | .clear => none

theorem Step.within {k k' : Keys K} {op : Op K} {allowed : Finset K} (hk : k.Within allowed)
    (hop : ∀ key ∈ op.key?, key ∈ allowed) (h : Step k op k') : k'.Within allowed := by
  cases h with
  | stored => exact ⟨Finset.insert_subset (hop _ rfl) hk.cached, hk.failed⟩
  | failed => exact ⟨hk.cached, Finset.insert_subset (hop _ rfl) hk.failed⟩
  | clear => exact ⟨Finset.empty_subset _, Finset.empty_subset _⟩

/-- The two hold nothing but what was attempted. -/
theorem run_within {k k' : Keys K} {ops : List (Op K)} {allowed : Finset K}
    (h : Steps.Run Step k ops k') (hk : k.Within allowed)
    (hops : ∀ op ∈ ops, ∀ key ∈ op.key?, key ∈ allowed) : k'.Within allowed := by
  induction h with
  | nil => exact hk
  | cons hs _ ih =>
    exact ih (hs.within hk (hops _ (List.mem_cons_self ..)))
      fun op hop => hops op (List.mem_cons_of_mem _ hop)

/-! ### How often a key is attempted -/

/-- Whether the operation attempts the key, as a number. -/
def Op.attempts (key : K) : Op K → Nat
  | .attempt other _ => if other = key then 1 else 0
  | .clear => 0

/-- Whether the operation empties both, as a number. -/
def Op.clears : Op K → Nat
  | .attempt _ _ => 0
  | .clear => 1

/-- Whether the key is in one of them, as a number. -/
def Keys.held (key : K) (k : Keys K) : Nat := if key ∈ k.cached ∨ key ∈ k.failed then 1 else 0

theorem Keys.held_le (key : K) (k : Keys K) : k.held key ≤ 1 := by
  unfold Keys.held
  split <;> omega

/-- An attempt of a key is paid for by the key being held from then on, which only
emptying undoes. -/
theorem Step.attempts_held {k k' : Keys K} {op : Op K} (h : Step k op k') (key : K) :
    op.attempts key + k.held key ≤ op.clears + k'.held key := by
  have hfresh : ∀ other : K, other ∉ k.cached ∧ other ∉ k.failed → other = key → k.held key = 0 := by
    rintro other hf rfl
    exact if_neg (not_or.mpr hf)
  cases h with
  | @stored other fresh =>
    have hheld : Keys.held key ⟨insert other k.cached, k.failed⟩ =
        if other = key then 1 else k.held key := by
      unfold Keys.held
      by_cases ho : other = key
      · simp [ho]
      · simp [ho, Ne.symm ho]
    rw [hheld, Op.attempts, Op.clears]
    split
    · rw [hfresh other fresh ‹_›]
    · exact Nat.le_refl _
  | @failed other fresh =>
    have hheld : Keys.held key ⟨k.cached, insert other k.failed⟩ =
        if other = key then 1 else k.held key := by
      unfold Keys.held
      by_cases ho : other = key
      · simp [ho]
      · simp [ho, Ne.symm ho]
    rw [hheld, Op.attempts, Op.clears]
    split
    · rw [hfresh other fresh ‹_›]
    · exact Nat.le_refl _
  | clear =>
    have := k.held_le key
    rw [Op.attempts, Op.clears]
    omega

/-- A key is attempted at most once more than the two are emptied. -/
theorem run_attempts_le {k k' : Keys K} {ops : List (Op K)} (h : Steps.Run Step k ops k') (key : K) :
    (ops.map (Op.attempts key)).sum ≤ (ops.map Op.clears).sum + 1 := by
  have hpaid := h.potential fun _ _ _ hs => hs.attempts_held key
  have := k'.held_le key
  omega

end Attempts
