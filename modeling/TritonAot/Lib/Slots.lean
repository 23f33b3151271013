import Mathlib.Data.List.Forall2
import Mathlib.Data.List.Nodup
import Mathlib.Data.List.Perm.Subperm

/-! Numbered slots written one by one.

The last write of a slot decides what it holds. What is found in a slot was there
before or is one of its writes (`writeAll_cases`); as many writes as there are
slots, that leave none out, write each slot once (`nodup_of_covers`). -/
namespace Slots

variable {α : Type*}

/-- The slots after a sequence of writes. -/
def writeAll (slots : List α) (writes : List (Nat × α)) : List α :=
  writes.foldl (fun slots w => slots.set w.1 w.2) slots

@[simp] theorem writeAll_nil (slots : List α) : writeAll slots [] = slots := rfl

@[simp] theorem writeAll_cons (slots : List α) (w : Nat × α) (writes : List (Nat × α)) :
    writeAll slots (w :: writes) = writeAll (slots.set w.1 w.2) writes := rfl

theorem writeAll_append (slots : List α) (ws vs : List (Nat × α)) :
    writeAll slots (ws ++ vs) = writeAll (writeAll slots ws) vs := List.foldl_append

@[simp] theorem length_writeAll (slots : List α) (writes : List (Nat × α)) :
    (writeAll slots writes).length = slots.length := by
  induction writes generalizing slots with
  | nil => rfl
  | cons w rest ih => rw [writeAll_cons, ih, List.length_set]

/-- A slot that is not written keeps what it holds. -/
theorem writeAll_other {writes : List (Nat × α)} {i : Nat} (h : ∀ w ∈ writes, w.1 ≠ i)
    (slots : List α) : (writeAll slots writes)[i]? = slots[i]? := by
  induction writes generalizing slots with
  | nil => rfl
  | cons w rest ih =>
    rw [writeAll_cons, ih fun v hv => h v (List.mem_cons_of_mem _ hv),
      List.getElem?_set_ne (h w (List.mem_cons_self ..))]

/-- The last write of a slot is what it holds. -/
theorem writeAll_last {before after : List (Nat × α)} {i : Nat} {a : α} (h : ∀ w ∈ after, w.1 ≠ i)
    {slots : List α} (hi : i < slots.length) :
    (writeAll slots (before ++ (i, a) :: after))[i]? = some a := by
  rw [writeAll_append, writeAll_cons, writeAll_other h,
    List.getElem?_set_self (by rwa [length_writeAll])]

theorem writeAll_cases {writes : List (Nat × α)} {slots : List α} {i : Nat} {a : α}
    (h : (writeAll slots writes)[i]? = some a) :
    (i, a) ∈ writes ∨ (slots[i]? = some a ∧ ∀ w ∈ writes, w.1 ≠ i) := by
  induction writes generalizing slots with
  | nil => exact .inr ⟨h, fun w hw => absurd hw List.not_mem_nil⟩
  | cons w rest ih =>
    rcases ih h with hm | ⟨hs, hrest⟩
    · exact .inl (List.mem_cons_of_mem _ hm)
    · by_cases hw : w.1 = i
      · -- the head is the last write of this slot
        subst hw
        refine .inl (List.mem_cons.mpr (.inl ?_))
        rw [List.getElem?_set, if_pos rfl] at hs
        split at hs
        · cases hs
          rfl
        · cases hs
      · rw [List.getElem?_set_ne hw] at hs
        exact .inr ⟨hs, List.forall_mem_cons.mpr ⟨hw, hrest⟩⟩

/-- A slot that is written holds one of its writes. -/
theorem writeAll_written {writes : List (Nat × α)} {slots : List α} {i : Nat}
    (h : ∃ w ∈ writes, w.1 = i) (hi : i < slots.length) :
    ∃ a, (i, a) ∈ writes ∧ (writeAll slots writes)[i]? = some a := by
  have hlt : i < (writeAll slots writes).length := by rwa [length_writeAll]
  have hat := List.getElem?_eq_getElem hlt
  rcases writeAll_cases hat with hm | ⟨_, hno⟩
  · exact ⟨_, hm, hat⟩
  · obtain ⟨w, hw, hwi⟩ := h
    exact absurd hwi (hno w hw)

/-- Where no slot is written twice, every write is found. -/
theorem writeAll_nodup {writes : List (Nat × α)} (h : (writes.map Prod.fst).Nodup) {slots : List α}
    {i : Nat} {a : α} (hm : (i, a) ∈ writes) (hi : i < slots.length) :
    (writeAll slots writes)[i]? = some a := by
  obtain ⟨before, after, rfl⟩ := List.append_of_mem hm
  refine writeAll_last (fun w hw he => ?_) hi
  rw [List.map_append, List.map_cons] at h
  have hafter := (List.nodup_cons.mp (List.Nodup.of_append_right h)).1
  exact hafter (List.mem_map.mpr ⟨w, hw, he⟩)

/-- No more numbers than slots, with none left out, are all different. -/
theorem nodup_of_covers {l : List Nat} {n : Nat} (hcover : ∀ i < n, i ∈ l) (hlen : l.length ≤ n) :
    l.Nodup := by
  have hsub : List.range n ⊆ l := fun i hi => hcover i (List.mem_range.mp hi)
  have hperm : (List.range n).Perm l :=
    (List.subperm_of_subset List.nodup_range hsub).perm_of_length_le (by rwa [List.length_range])
  exact hperm.nodup_iff.mp List.nodup_range

theorem forall₂_split {β : Type*} {R : α → β → Prop} {before after : List α} {a : α} {ws : List β}
    (h : List.Forall₂ R (before ++ a :: after) ws) :
    ∃ vs w us, ws = vs ++ w :: us ∧ R a w ∧ List.Forall₂ R after us := by
  induction before generalizing ws with
  | nil =>
    cases h with
    | cons hw hrest => exact ⟨[], _, _, rfl, hw, hrest⟩
  | cons x rest ih =>
    cases h with
    | cons hx hrest =>
      obtain ⟨vs, w, us, rfl, hw, hus⟩ := ih hrest
      exact ⟨_ :: vs, w, us, rfl, hw, hus⟩

theorem exists_left_of_mem {β : Type*} {R : α → β → Prop} {l : List α} {ws : List β}
    (h : List.Forall₂ R l ws) {w : β} (hw : w ∈ ws) : ∃ a ∈ l, R a w := by
  obtain ⟨i, hi, rfl⟩ := List.getElem_of_mem hw
  have hi' : i < l.length := h.length_eq ▸ hi
  exact ⟨l[i], List.getElem_mem hi', List.Forall₂.get h hi' hi⟩

theorem exists_right_of_mem {β : Type*} {R : α → β → Prop} {l : List α} {ws : List β}
    (h : List.Forall₂ R l ws) {a : α} (ha : a ∈ l) : ∃ w ∈ ws, R a w := by
  obtain ⟨i, hi, rfl⟩ := List.getElem_of_mem ha
  have hi' : i < ws.length := h.length_eq ▸ hi
  exact ⟨ws[i], List.getElem_mem hi', List.Forall₂.get h hi hi'⟩

end Slots
