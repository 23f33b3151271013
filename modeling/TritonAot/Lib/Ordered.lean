import Mathlib.Order.Lattice
import Mathlib.Data.List.Basic

/-! Maps kept in the order of their keys.

A map is the list of its entries, ascending by a key that each entry carries. `put`
updates the entry of a key in place, or inserts a fresh one where its key belongs; a map
stays ascending (`ascending_put`), so that a key has one entry, and every entry of
another key stays as it is (`mem_put_cases`). -/
namespace Ordered

variable {A K : Type*} [LinearOrder K] (key : A → K)

/-- The entries are in the order of their keys, and no key has two. -/
def Ascending (entries : List A) : Prop := entries.Pairwise (key · < key ·)

/-- Update the entry that has the key of `fresh`, or insert `fresh`. -/
def put (fresh : A) (update : A → A) : List A → List A
  | [] => [fresh]
  | a :: rest =>
    if key a < key fresh then a :: put fresh update rest
    else if key fresh < key a then fresh :: a :: rest
    else update a :: rest

variable {key} {fresh : A} {update : A → A}

/-- An entry of another key is where it was. -/
theorem mem_put_other {entries : List A} {a : A} (hfresh : key a ≠ key fresh)
    (hupdate : ∀ b, key (update b) = key b) : a ∈ put key fresh update entries ↔ a ∈ entries := by
  have hne : a ≠ fresh := fun h => hfresh (congrArg key h)
  induction entries with
  | nil => simp [put, hne]
  | cons b rest ih =>
    rw [put]
    split
    · rw [List.mem_cons, List.mem_cons]
      exact or_congr_right ih
    · split
      · simp [hne]
      · rename_i hlt hgt
        have hb : key b = key fresh := le_antisymm (not_lt.mp hgt) (not_lt.mp hlt)
        have hab : a ≠ b := fun h => hfresh (h ▸ hb)
        have hau : a ≠ update b := fun h => hfresh (by rw [h, hupdate, hb])
        simp [hab, hau]

/-- The entry of the key is the one there was, updated, or the fresh one. -/
theorem mem_put_self {entries : List A} (hasc : Ascending key entries) {a : A} (ha : key a = key fresh) :
    a ∈ put key fresh update entries ↔ (∃ b ∈ entries, key b = key fresh ∧ a = update b) ∨
      ((∀ b ∈ entries, key b ≠ key fresh) ∧ a = fresh) := by
  induction entries with
  | nil => simp [put]
  | cons b rest ih =>
    obtain ⟨hb, hrest⟩ := List.pairwise_cons.mp hasc
    rw [put]
    split
    · rename_i hlt
      have hab : a ≠ b := fun h => (h ▸ hlt).ne ha
      rw [List.mem_cons, ih hrest]
      simp [hab, hlt.ne]
    · split
      · -- everything behind the fresh entry has a greater key
        rename_i hgt
        have hbehind : ∀ c ∈ b :: rest, key fresh < key c := by
          intro c hc
          rcases List.mem_cons.mp hc with rfl | hc
          · exact hgt
          · exact hgt.trans (hb c hc)
        have hnone : ∀ c ∈ b :: rest, key c ≠ key fresh := fun c hc => (hbehind c hc).ne'
        constructor
        · intro hmem
          rcases List.mem_cons.mp hmem with rfl | hmem
          · exact .inr ⟨hnone, rfl⟩
          · exact absurd ha (hnone a hmem)
        · intro hcase
          rcases hcase with ⟨c, hc, hkey, _⟩ | ⟨_, rfl⟩
          · exact absurd hkey (hnone c hc)
          · exact List.mem_cons_self ..
      · rename_i hlt hgt
        have hkey : key b = key fresh := le_antisymm (not_lt.mp hgt) (not_lt.mp hlt)
        have hbehind : ∀ c ∈ rest, key c ≠ key fresh := fun c hc => (hkey ▸ hb c hc).ne'
        constructor
        · intro hmem
          rcases List.mem_cons.mp hmem with rfl | hmem
          · exact .inl ⟨b, List.mem_cons_self .., hkey, rfl⟩
          · exact absurd ha (hbehind a hmem)
        · intro hcase
          rcases hcase with ⟨c, hc, hc', rfl⟩ | ⟨hnone, _⟩
          · rcases List.mem_cons.mp hc with rfl | hc
            · exact List.mem_cons_self ..
            · exact absurd hc' (hbehind c hc)
          · exact absurd hkey (hnone b (List.mem_cons_self ..))

/-- What an entry after `put` is. -/
theorem mem_put_cases {entries : List A} (hasc : Ascending key entries)
    (hupdate : ∀ b, key (update b) = key b) {a : A} (h : a ∈ put key fresh update entries) :
    (key a ≠ key fresh ∧ a ∈ entries) ∨ (∃ b ∈ entries, key b = key fresh ∧ a = update b) ∨
      ((∀ b ∈ entries, key b ≠ key fresh) ∧ a = fresh) := by
  by_cases ha : key a = key fresh
  · exact .inr ((mem_put_self hasc ha).mp h)
  · exact .inl ⟨ha, (mem_put_other ha hupdate).mp h⟩

/-- The keys after `put` are those before and that of the fresh entry. -/
theorem exists_put {entries : List A} (hasc : Ascending key entries)
    (hupdate : ∀ b, key (update b) = key b) {k : K} :
    (∃ a ∈ put key fresh update entries, key a = k) ↔ (∃ a ∈ entries, key a = k) ∨ k = key fresh := by
  constructor
  · intro hmem
    obtain ⟨a, ha, rfl⟩ := hmem
    rcases mem_put_cases hasc hupdate ha with ⟨_, hold⟩ | ⟨b, _, hb, rfl⟩ | ⟨_, rfl⟩
    · exact .inl ⟨a, hold, rfl⟩
    · exact .inr ((hupdate b).trans hb)
    · exact .inr rfl
  · intro hcase
    by_cases hk : k = key fresh
    · subst hk
      by_cases hold : ∃ b ∈ entries, key b = key fresh
      · obtain ⟨b, hb, hkey⟩ := hold
        have hsame := (hupdate b).trans hkey
        exact ⟨update b, (mem_put_self hasc hsame).mpr (.inl ⟨b, hb, hkey, rfl⟩), hsame⟩
      · have hnone : ∀ b ∈ entries, key b ≠ key fresh := fun b hb hkey => hold ⟨b, hb, hkey⟩
        exact ⟨fresh, (mem_put_self hasc rfl).mpr (.inr ⟨hnone, rfl⟩), rfl⟩
    · obtain ⟨a, ha, rfl⟩ := hcase.resolve_right hk
      exact ⟨a, (mem_put_other hk hupdate).mpr ha, rfl⟩

theorem ascending_put (hupdate : ∀ b, key (update b) = key b) {entries : List A}
    (hasc : Ascending key entries) : Ascending key (put key fresh update entries) := by
  induction entries with
  | nil => exact List.pairwise_singleton ..
  | cons b rest ih =>
    obtain ⟨hb, hrest⟩ := List.pairwise_cons.mp hasc
    rw [put]
    split
    · rename_i hlt
      refine List.pairwise_cons.mpr ⟨fun c hc => ?_, ih hrest⟩
      by_cases hkey : key c = key fresh
      · exact hkey ▸ hlt
      · exact hb c ((mem_put_other hkey hupdate).mp hc)
    · split
      · rename_i hgt
        refine List.pairwise_cons.mpr ⟨fun c hc => ?_, hasc⟩
        rcases List.mem_cons.mp hc with rfl | hc
        · exact hgt
        · exact hgt.trans (hb c hc)
      · exact List.pairwise_cons.mpr ⟨fun c hc => by rw [hupdate]; exact hb c hc, hrest⟩

end Ordered
