import TritonAot.Lib.Steps

/-! Resources that are made on demand and may be shared.

A pool numbers the resources it makes. It makes one for every demand, or, where it shares, one for
every key (`Acquires`); a demand may be refused. Over any run of demands, two that were met hold
the same resource exactly where the pool shares and their keys are the same (`run_shared`). -/
namespace Pools

open Steps

variable {K R : Type*}

/-- The resources that are kept under their keys, and how many were made. -/
structure Pool (K R : Type*) where
  kept : List (K × (Nat × R))
  made : Nat

def Pool.fresh : Pool K R := ⟨[], 0⟩

/-- A demand, and what it was met with: a resource that is kept for its key, or a new one. -/
inductive Acquires (share : Bool) (p : Pool K R) : K × Option (Nat × R) → Pool K R → Prop where
  | refused (k : K) : Acquires share p (k, none) p
  | kept {k : K} {x : Nat × R} (shares : share = true) (found : (k, x) ∈ p.kept) : Acquires share p (k, some x) p
  | new {k : K} (missing : share = true → ∀ x, (k, x) ∉ p.kept) (r : R) : Acquires share p (k, some (p.made, r))
      ⟨if share then p.kept ++ [(k, (p.made, r))] else p.kept, p.made + 1⟩

/-- No key is kept twice, no number under two keys, and every number was given. -/
structure Ordered (p : Pool K R) : Prop where
  keys : ∀ k x y, (k, x) ∈ p.kept → (k, y) ∈ p.kept → x = y
  numbers : ∀ k k' x y, (k, x) ∈ p.kept → (k', y) ∈ p.kept → x.1 = y.1 → k = k'
  old : ∀ k x, (k, x) ∈ p.kept → x.1 < p.made

/-- A resource was given out for a key. -/
structure Given (share : Bool) (p : Pool K R) (k : K) (x : Nat × R) : Prop where
  old : x.1 < p.made
  kept : share = true → (k, x) ∈ p.kept

variable {share : Bool} {k k' : K} {p p' : Pool K R} {x y : Nat × R} {d : K × Option (Nat × R)}

theorem ordered_fresh : Ordered (Pool.fresh : Pool K R) := by constructor <;> simp [Pool.fresh]

theorem Acquires.ordered (h : Acquires share p d p') (hp : Ordered p) : Ordered p' := by
  cases h with
  | refused | kept => exact hp
  | @new k missing r =>
    cases share with
    | false => exact ⟨hp.keys, hp.numbers, fun k x hx => Nat.lt_succ_of_lt (hp.old k x hx)⟩
    | true =>
      have hnone := missing rfl
      have hmem : ∀ {k' y}, (k', y) ∈ p.kept ++ [(k, (p.made, r))] →
          (k', y) ∈ p.kept ∨ k' = k ∧ y = (p.made, r) := by
        simp
      constructor
      · intro k' y z hy hz
        rcases hmem hy with hold | ⟨rfl, rfl⟩ <;> rcases hmem hz with hold' | ⟨hk, rfl⟩
        · exact hp.keys k' y z hold hold'
        · exact absurd (hk ▸ hold) (hnone y)
        · exact absurd hold' (hnone z)
        · rfl
      · intro k' k'' y z hy hz hsame
        rcases hmem hy with hold | ⟨rfl, rfl⟩ <;> rcases hmem hz with hold' | ⟨rfl, rfl⟩
        · exact hp.numbers k' k'' y z hold hold' hsame
        · exact absurd hsame (Nat.ne_of_lt (hp.old k' y hold))
        · exact absurd hsame.symm (Nat.ne_of_lt (hp.old k'' z hold'))
        · rfl
      · intro k' y hy
        rcases hmem hy with hold | ⟨rfl, rfl⟩
        · exact Nat.lt_succ_of_lt (hp.old k' y hold)
        · exact Nat.lt_succ_self _

/-- What was given out stays so. -/
theorem Given.acquires (h : Given share p k x) (hstep : Acquires share p d p') : Given share p' k x := by
  cases hstep with
  | refused | kept => exact h
  | new =>
    refine ⟨Nat.lt_succ_of_lt h.old, ?_⟩
    rintro rfl
    exact List.mem_append_left _ (h.kept rfl)

theorem Acquires.given (h : Acquires share p (k, some x) p') (hp : Ordered p) : Given share p' k x := by
  cases h with
  | kept _ found => exact ⟨hp.old k x found, fun _ => found⟩
  | new =>
    refine ⟨Nat.lt_succ_self _, ?_⟩
    rintro rfl
    simp

/-- A demand is met with what was given out before exactly where its key is the same, and is shared. -/
theorem Given.same_iff (h : Given share p k x) (hp : Ordered p) (hstep : Acquires share p (k', some y) p') :
    x.1 = y.1 ↔ share = true ∧ k = k' := by
  have hold := h.old
  cases hstep with
  | kept shares found =>
    constructor
    · intro hsame
      exact ⟨shares, hp.numbers k k' x y (h.kept shares) found hsame⟩
    · rintro ⟨_, rfl⟩
      rw [hp.keys k x y (h.kept shares) found]
  | new missing =>
    constructor
    · intro hsame
      exact absurd hsame (Nat.ne_of_lt hold)
    · rintro ⟨hshare, rfl⟩
      exact absurd (h.kept hshare) (missing hshare x)

/-- Of the demands that follow, those with the key of what was given out are met with it. -/
theorem Given.run (h : Given share p k x) (hp : Ordered p) {demands : List (K × Option (Nat × R))}
    (hrun : Run (Acquires share) p demands p') :
    ∀ d ∈ demands, ∀ y, d.2 = some y → (x.1 = y.1 ↔ share = true ∧ k = d.1) := by
  induction hrun with
  | nil => simp
  | @cons p d mid rest p' hstep _ ih =>
    intro d' hd' y hy
    rcases List.mem_cons.mp hd' with rfl | hd'
    · obtain ⟨k', result⟩ := d'
      simp only at hy
      subst hy
      exact h.same_iff hp hstep
    · exact ih (h.acquires hstep) (hstep.ordered hp) d' hd' y hy

/-- **Two demands that were met hold the same resource exactly where the pool shares and their keys
are the same.** -/
theorem run_shared (hp : Ordered p) {demands : List (K × Option (Nat × R))} (hrun : Run (Acquires share) p demands p') :
    demands.Pairwise fun d d' => ∀ x y, d.2 = some x → d'.2 = some y → (x.1 = y.1 ↔ share = true ∧ d.1 = d'.1) := by
  induction hrun with
  | nil => exact .nil
  | @cons p d mid rest p' hstep hrest ih =>
    refine List.pairwise_cons.mpr ⟨?_, ih (hstep.ordered hp)⟩
    intro d' hd' x y hx hy
    obtain ⟨k, result⟩ := d
    simp only at hx
    subst hx
    exact (hstep.given hp).run (hstep.ordered hp) hrest d' hd' y hy

end Pools
