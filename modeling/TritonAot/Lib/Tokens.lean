import Mathlib.Data.List.ReduceOption
import Mathlib.Data.List.Perm.Basic

/-! Tokens that are to be spent exactly once.

A slot holds a token or has been emptied; spending a token empties its slot and
records the token with a note. No operation makes a token or loses one: `held`,
the tokens still in slots followed by the spent ones, is the same up to order
after every operation (`held_spend`, `held_spendAll`) and after any number of them
(`Spends.held`), so once every slot is empty the record is a permutation of what there
was at the start. -/
namespace Tokens

variable {α β : Type*}

/-- Slots, and the tokens spent so far, oldest first, each with a note. -/
structure Ledger (α β : Type*) where
  slots : List (Option α)
  spent : List (α × β)

/-- Every token of the ledger, spent or not. -/
def Ledger.held (t : Ledger α β) : List α := t.slots.reduceOption ++ t.spent.map Prod.fst

/-- Spend the token of one slot, if it still has one. -/
def Ledger.spend (i : Nat) (note : β) (t : Ledger α β) : Ledger α β :=
  match t.slots[i]? with
  | some (some a) => ⟨t.slots.set i none, t.spent ++ [(a, note)]⟩
  | _ => t

/-- Spend the tokens of several slots, in order. -/
def Ledger.spendEach (is : List (Nat × β)) (t : Ledger α β) : Ledger α β :=
  is.foldl (fun t i => t.spend i.1 i.2) t

/-- Spend every token still in a slot. -/
def Ledger.spendAll (note : β) (t : Ledger α β) : Ledger α β :=
  ⟨t.slots.map (fun _ => none), t.spent ++ t.slots.reduceOption.map (fun a => (a, note))⟩

theorem reduceOption_set_none (slots : List (Option α)) (i : Nat) (a : α)
    (h : slots[i]? = some (some a)) :
    slots.reduceOption.Perm (a :: (slots.set i none).reduceOption) := by
  induction slots generalizing i with
  | nil => cases h
  | cons o rest ih =>
    cases i with
    | zero =>
      have ho : o = some a := by simpa using h
      rw [ho]
      exact .refl _
    | succ i =>
      have hrest := ih i (by simpa using h)
      cases o with
      | none => exact hrest
      | some b =>
        show (b :: rest.reduceOption).Perm (a :: b :: (rest.set i none).reduceOption)
        exact (hrest.cons b).trans (.swap a b _)

theorem reduceOption_map_none (slots : List (Option α)) :
    (slots.map (fun _ => (none : Option α))).reduceOption = [] := by
  induction slots with
  | nil => rfl
  | cons o rest ih => exact ih

/-- Spending one token neither makes nor loses any. -/
theorem held_spend (i : Nat) (note : β) (t : Ledger α β) : (t.spend i note).held.Perm t.held := by
  unfold Ledger.spend
  split
  · rename_i a h
    have hp := reduceOption_set_none t.slots i a h
    simp only [Ledger.held, List.map_append, List.map_cons, List.map_nil]
    have hmove : ((t.slots.set i none).reduceOption ++ (t.spent.map Prod.fst ++ [a])).Perm
        (a :: ((t.slots.set i none).reduceOption ++ t.spent.map Prod.fst)) := by
      rw [← List.append_assoc]
      exact List.perm_append_singleton a _
    exact hmove.trans (hp.symm.append_right _)
  · exact .refl _

/-- Spending every token neither makes nor loses any. -/
theorem held_spendAll (note : β) (t : Ledger α β) : (t.spendAll note).held.Perm t.held := by
  have hfst : (t.slots.reduceOption.map (fun a => (a, note))).map Prod.fst = t.slots.reduceOption := by
    rw [List.map_map]
    exact List.map_id _
  simp only [Ledger.held, Ledger.spendAll, reduceOption_map_none, List.nil_append, List.map_append,
    hfst]
  exact List.perm_append_comm

/-- After everything was spent, the record is what there was, in some order. -/
theorem spent_spendAll (note : β) (t : Ledger α β) :
    ((t.spendAll note).spent.map Prod.fst).Perm t.held := by
  have h := held_spendAll note t
  simpa only [Ledger.held, Ledger.spendAll, reduceOption_map_none, List.nil_append] using h

/-! ### Notes -/

/-- Tokens are spent, with notes of one kind. -/
inductive Ledger.Spends (P : β → Prop) (t : Ledger α β) : Ledger α β → Prop where
  | refl : Spends P t t
  | one {t' : Ledger α β} (h : Spends P t t') (i : Nat) {note : β} (hnote : P note) : Spends P t (t'.spend i note)
  | all {t' : Ledger α β} (h : Spends P t t') {note : β} (hnote : P note) : Spends P t (t'.spendAll note)

section Spends
variable {P : β → Prop}

theorem Ledger.Spends.trans {t t' t'' : Ledger α β} (h : t.Spends P t') (h' : t'.Spends P t'') : t.Spends P t'' := by
  induction h' with
  | refl => exact h
  | one _ i hnote ih => exact ih.one i hnote
  | all _ hnote ih => exact ih.all hnote

theorem spends_spendEach {is : List (Nat × β)} (his : ∀ i ∈ is, P i.2) (t : Ledger α β) :
    t.Spends P (t.spendEach is) := by
  induction is generalizing t with
  | nil => exact .refl
  | cons i rest ih =>
    obtain ⟨hi, hrest⟩ := List.forall_mem_cons.mp his
    exact (Ledger.Spends.one .refl i.1 hi).trans (ih hrest _)

/-- Spending neither makes nor loses a token. -/
theorem Ledger.Spends.held {t t' : Ledger α β} (h : t.Spends P t') : t'.held.Perm t.held := by
  induction h with
  | refl => exact .refl _
  | one _ i _ ih => exact (held_spend i _ _).trans ih
  | all _ _ ih => exact (held_spendAll _ _).trans ih

theorem Ledger.Spends.length {t t' : Ledger α β} (h : t.Spends P t') : t'.slots.length = t.slots.length := by
  induction h with
  | refl => rfl
  | one _ i _ ih =>
    rw [← ih, Ledger.spend]
    split
    · exact List.length_set
    · rfl
  | all _ _ ih =>
    rw [← ih, Ledger.spendAll]
    exact List.length_map _

/-- A token is the number of its slot, and what was spent has left its slot, with a note of the kind. -/
structure Own (P : β → Prop) (t : Ledger Nat β) : Prop where
  slot : ∀ (i a : Nat), t.slots[i]? = some (some a) → a = i
  spent : ∀ x ∈ t.spent, P x.2 ∧ t.slots[x.1]? ≠ some (some x.1)

theorem Own.spend {t : Ledger Nat β} (h : Own P t) (i : Nat) {note : β} (hnote : P note) : Own P (t.spend i note) := by
  unfold Ledger.spend
  split
  · rename_i a hat
    have hsame := h.slot i a hat
    have hset : ∀ (j b : Nat), (t.slots.set i none)[j]? = some (some b) → t.slots[j]? = some (some b) := by
      intro j b hj
      rw [List.getElem?_set] at hj
      split at hj
      · split at hj <;> cases hj
      · exact hj
    refine ⟨fun j b hj => h.slot j b (hset j b hj), ?_⟩
    intro x hx
    rcases List.mem_append.mp hx with hx | hx
    · exact ⟨(h.spent x hx).1, fun hj => (h.spent x hx).2 (hset _ _ hj)⟩
    · rw [List.mem_singleton.mp hx]
      refine ⟨hnote, ?_⟩
      rw [hsame, List.getElem?_set]
      simp
  · exact h

theorem Own.spendAll {t : Ledger Nat β} (h : Own P t) {note : β} (hnote : P note) : Own P (t.spendAll note) := by
  have hempty : ∀ (i a : Nat), (t.slots.map fun _ => (none : Option Nat))[i]? ≠ some (some a) := by
    intro i a hi
    rw [List.getElem?_map] at hi
    cases hslot : t.slots[i]? <;> simp [hslot] at hi
  refine ⟨fun i a hi => absurd hi (hempty i a), ?_⟩
  intro x hx
  refine ⟨?_, hempty _ _⟩
  rcases List.mem_append.mp hx with hx | hx
  · exact (h.spent x hx).1
  · obtain ⟨a, _, rfl⟩ := List.mem_map.mp hx
    exact hnote

theorem Own.spends {t t' : Ledger Nat β} (h : Own P t) (hs : t.Spends P t') : Own P t' := by
  induction hs with
  | refl => exact h
  | one _ i hnote ih => exact ih.spend i hnote
  | all _ hnote ih => exact ih.spendAll hnote

/-- What is spent at the end, with a note of another kind, is what is still there. -/
theorem Own.mem_spendAll {t : Ledger Nat β} (h : Own P t) {note : β} (hnote : ¬ P note) (a : Nat) :
    (a, note) ∈ (t.spendAll note).spent ↔ t.slots[a]? = some (some a) := by
  rw [Ledger.spendAll, List.mem_append, List.mem_map]
  constructor
  · rintro (hx | ⟨b, hb, heq⟩)
    · exact absurd (h.spent _ hx).1 hnote
    · cases heq
      obtain ⟨i, hi⟩ := List.mem_iff_getElem?.mp (List.reduceOption_mem_iff.mp hb)
      rwa [← h.slot i _ hi] at hi
  · intro ha
    exact .inr ⟨a, List.reduceOption_mem_iff.mpr (List.mem_of_getElem? ha), rfl⟩

/-- Every token has been spent. -/
def Ledger.Empty (t : Ledger α β) : Prop := ∀ slot ∈ t.slots, slot = none

theorem empty_spendAll (t : Ledger α β) (note : β) : (t.spendAll note).Empty := by
  intro slot hslot
  obtain ⟨_, _, rfl⟩ := List.mem_map.mp hslot
  rfl

end Spends

end Tokens
