import TritonAot.Lib.Slots
import Mathlib.Algebra.BigOperators.Group.Finset.Piecewise
import Mathlib.Data.Fintype.Basic
import Mathlib.Data.List.Induction
import Mathlib.Data.Set.Lattice
import Mathlib.Logic.Function.Basic
import Mathlib.Order.CompletePartialOrder

/-! Commands on streams, completed in whatever order a device finds.

A host hands commands over in one order; a device completes them in another, held back
only where an earlier command that is still pending *blocks* a later one
(`Completes`). A list is *synchronised* when any two of its commands commute or are linked
by a chain of such blocks, and then every order leaves what the order of issue does
(`Completes.sequential`). Where a command races, what it saw can be put in its place
(`Completes.loosen`), so that the rest can be synchronised without it. Hosts that share no
memory may be interleaved at will (`Completes.project`).

On streams a command blocks the later ones of its stream, a record the waits for its event,
and a host that synchronises everything it issues from then on (`Blocks`). One stream may order
itself with a set of others besides (`BlocksWith`). -/
namespace Streams

/-! ### Orders of completion -/

section Orders
variable {C M : Type*} (blocks : C → C → Prop) (act : C → M → M)

/-- The commands of a list are completed, each once no earlier one that is pending blocks it. -/
inductive Completes : List C → M → M → Prop where
  | done (m : M) : Completes [] m m
  | next {before after : List C} {c : C} {m m' : M} (free : ∀ a ∈ before, ¬ blocks a c)
      (rest : Completes (before ++ after) (act c m) m') : Completes (before ++ c :: after) m m'

/-- A chain of blocks from one command over some of those in between to another. -/
inductive Linked (a : C) : List C → C → Prop where
  | direct {between : List C} {b : C} (h : blocks a b) : Linked a between b
  | through {before after : List C} {c b : C} (first : Linked a before c) (last : blocks c b) :
      Linked a (before ++ c :: after) b

def Commutes (a b : C) : Prop := ∀ m, act b (act a m) = act a (act b m)

/-- The effect of the second does not depend on whether the first is still pending. -/
def Ordered (a : C) (between : List C) (b : C) : Prop := Commutes act a b ∨ Linked blocks a between b

/-- Every command of a list is ordered before one that is issued behind it. -/
def Precedes (l : List C) (b : C) : Prop :=
  ∀ before a between, l = before ++ a :: between → Ordered blocks act a between b

/-- Every command is issued behind a list that precedes it. -/
inductive Synchronised : List C → Prop where
  | nil : Synchronised []
  | concat {l : List C} {b : C} (h : Synchronised l) (last : Precedes blocks act l b) : Synchronised (l ++ [b])

variable {blocks act}

theorem Commutes.symm {a b : C} (h : Commutes act a b) : Commutes act b a := fun m => (h m).symm

/-- The order of issue is one of them. -/
theorem completes_foldl (l : List C) (m : M) : Completes blocks act l m (l.foldl (fun m c => act c m) m) := by
  induction l generalizing m with
  | nil => exact .done m
  | cons c rest ih =>
    have hfirst : Completes blocks act ([] ++ c :: rest) m (rest.foldl (fun m c => act c m) (act c m)) := by
      apply Completes.next
      · simp
      · exact ih (act c m)
    exact hfirst

/-- What nothing before it blocks may overtake it. -/
theorem completes_overtaking {l l' : List C} (h : ∀ a ∈ l, ∀ b ∈ l', ¬ blocks a b) (m : M) :
    Completes blocks act (l ++ l') m (l.foldl (fun m c => act c m) (l'.foldl (fun m c => act c m) m)) := by
  induction l' generalizing m with
  | nil =>
    rw [List.append_nil]
    exact completes_foldl l m
  | cons b rest ih =>
    apply Completes.next
    · intro a ha
      exact h a ha b (List.mem_cons_self ..)
    · apply ih
      intro a ha x hx
      exact h a ha x (List.mem_cons_of_mem _ hx)

/-- Those of a list that the others do not block may go first. -/
theorem Completes.first (early : C → Bool) (kept : List C) {l rest : List C} {m m' : M}
    (free : ∀ a ∈ kept ++ l, early a = false → ∀ b ∈ l, early b = true → ¬ blocks a b)
    (hkept : ∀ a ∈ kept, early a = false)
    (h : Completes blocks act (kept ++ l.filter (!early ·) ++ rest) ((l.filter early).foldl (fun m c => act c m) m) m') :
    Completes blocks act (kept ++ l ++ rest) m m' := by
  induction l generalizing kept m with
  | nil => exact h
  | cons c l ih =>
    cases hc : early c with
    | true =>
      have hrest : Completes blocks act (kept ++ l ++ rest) (act c m) m' := by
        apply ih kept _ hkept
        · simpa [hc] using h
        · intro a ha hlate b hb
          exact free a (by simp at ha ⊢; tauto) hlate b (List.mem_cons_of_mem _ hb)
      rw [List.append_assoc] at hrest ⊢
      apply Completes.next _ hrest
      intro a ha
      exact free a (List.mem_append_left _ ha) (hkept a ha) c (List.mem_cons_self ..) hc
    | false =>
      have hsplit : kept ++ c :: l = kept ++ [c] ++ l := by simp
      rw [hsplit]
      apply ih
      · intro a ha hlate b hb
        exact free a (hsplit ▸ ha) hlate b (List.mem_cons_of_mem _ hb)
      · intro a ha
        rcases List.mem_append.mp ha with ha | ha
        · exact hkept a ha
        · rwa [List.mem_singleton.mp ha]
      · simpa [hc] using h

/-! ### Links -/

theorem Linked.trans {a b c : C} {q q' : List C} (h : Linked blocks a q b) (h' : Linked blocks b q' c) :
    Linked blocks a (q ++ b :: q') c := by
  induction h' with
  | direct hb => exact .through h hb
  | through _ hlast ih =>
    rw [← List.cons_append, ← List.append_assoc]
    exact .through ih hlast

theorem Linked.mono {a b : C} {q q' : List C} (h : Linked blocks a q b) (hq : q.Sublist q') :
    Linked blocks a q' b := by
  induction h generalizing q' with
  | direct hb => exact .direct hb
  | through _ hlast ih =>
    obtain ⟨p, s, rfl, hp, hs⟩ := List.append_sublist_iff.mp hq
    obtain ⟨r, t, rfl, hr, _⟩ := List.cons_sublist_iff.mp hs
    obtain ⟨r₁, r₂, rfl⟩ := List.append_of_mem hr
    rw [List.append_assoc, List.cons_append, ← List.append_assoc]
    apply Linked.through _ hlast
    apply ih
    exact hp.trans (List.sublist_append_left ..)

/-- Nothing is linked to a command that is free. -/
theorem not_linked {a c : C} {q : List C} (free : ∀ x ∈ a :: q, ¬ blocks x c) : ¬ Linked blocks a q c := by
  intro h
  cases h with
  | direct hb => exact free _ (List.mem_cons_self ..) hb
  | through _ hlast => exact free _ (by simp) hlast

/-- No link needs a command that is free. -/
theorem Linked.skip {a b c : C} {q q' : List C} (h : Linked blocks a (q ++ c :: q') b)
    (free : ∀ x ∈ a :: q, ¬ blocks x c) : Linked blocks a (q ++ q') b := by
  generalize hl : q ++ c :: q' = l at h
  induction h generalizing q' with
  | direct hb => exact .direct hb
  | @through before after k b first hlast ih =>
    rcases List.append_eq_append_iff.mp hl with ⟨r, hr, hk⟩ | ⟨r, hr, hk⟩
    · -- The free command is the last link, or before it.
      cases r with
      | nil =>
        rw [List.nil_append] at hk
        cases hk
        rw [List.append_nil] at hr
        exact absurd (hr ▸ first) (not_linked free)
      | cons x r =>
        rw [List.cons_append] at hk
        cases hk
        rw [← List.append_assoc]
        exact .through (ih hr.symm) hlast
    · cases r with
      | nil =>
        rw [List.nil_append] at hk
        cases hk
        rw [List.append_nil] at hr
        exact absurd (hr ▸ first) (not_linked free)
      | cons x r =>
        rw [List.cons_append] at hk
        cases hk
        rw [hr, List.append_assoc, List.cons_append]
        exact .through first hlast

/-! ### Synchronised lists -/

theorem synchronised_concat {l : List C} {b : C} :
    Synchronised blocks act (l ++ [b]) ↔ Synchronised blocks act l ∧ Precedes blocks act l b := by
  constructor
  · intro h
    generalize hx : l ++ [b] = x at h
    cases h with
    | nil => simp at hx
    | concat h last =>
      obtain ⟨rfl, hb⟩ := List.append_inj' hx rfl
      cases hb
      exact ⟨h, last⟩
  · rintro ⟨h, last⟩
    exact .concat h last

/-- What is completed first leaves a synchronised list, and commutes with what was before it. -/
theorem Synchronised.next {before after : List C} {c : C} (h : Synchronised blocks act (before ++ c :: after))
    (free : ∀ a ∈ before, ¬ blocks a c) :
    (∀ a ∈ before, Commutes act a c) ∧ Synchronised blocks act (before ++ after) := by
  induction after using List.reverseRecOn with
  | nil =>
    obtain ⟨hbefore, hlast⟩ := synchronised_concat.mp h
    refine ⟨?_, by rwa [List.append_nil]⟩
    intro a ha
    obtain ⟨p, q, rfl⟩ := List.append_of_mem ha
    apply (hlast p a q rfl).resolve_right
    apply not_linked
    intro x hx
    exact free x (List.mem_append_right _ hx)
  | append_singleton after b ih =>
    rw [← List.cons_append, ← List.append_assoc] at h
    obtain ⟨hfront, hlast⟩ := synchronised_concat.mp h
    obtain ⟨hcommutes, hsync⟩ := ih hfront
    refine ⟨hcommutes, ?_⟩
    rw [← List.append_assoc]
    apply Synchronised.concat hsync
    intro p a q hl
    rcases List.append_eq_append_iff.mp hl with ⟨r, rfl, hafter⟩ | ⟨r, hbefore, ha⟩
    · exact hlast (before ++ c :: r) a q (by simp [hafter])
    · cases r with
      | nil => exact hlast (before ++ [c]) a q (by simpa using ha.symm)
      | cons x r =>
        cases ha
        apply (hlast p a (r ++ c :: after) (by simp [hbefore])).imp_right
        intro hlink
        apply hlink.skip
        intro x hx
        exact free x (hbefore ▸ List.mem_append_right _ hx)

theorem foldl_commutes {c : C} {l : List C} (h : ∀ a ∈ l, Commutes act a c) (m : M) :
    act c (l.foldl (fun m a => act a m) m) = l.foldl (fun m a => act a m) (act c m) := by
  induction l generalizing m with
  | nil => rfl
  | cons a rest ih =>
    simp only [List.foldl_cons]
    rw [ih (fun x hx => h x (List.mem_cons_of_mem _ hx)), h a (List.mem_cons_self ..)]

/-- **Every order in which a synchronised list completes leaves what the order of issue does.** -/
theorem Completes.sequential {l : List C} {m m' : M} (h : Completes blocks act l m m')
    (hl : Synchronised blocks act l) : m' = l.foldl (fun m c => act c m) m := by
  induction h with
  | done m => rfl
  | next free _ ih =>
    obtain ⟨hcommutes, hsync⟩ := hl.next free
    rw [ih hsync, List.foldl_append, List.foldl_append, List.foldl_cons, foldl_commutes hcommutes]

/-! ### Leads -/

section Leads
variable {K B : C → Prop} {l l' : List C}

variable (blocks) in
/-- Every command of one kind in a list is linked to any of another kind that is issued next. -/
def Leads (l : List C) (K B : C → Prop) : Prop :=
  ∀ before a between, l = before ++ a :: between → K a → ∀ b, B b → Linked blocks a between b

theorem leads_of_blocks (h : ∀ a b, K a → B b → blocks a b) : Leads blocks l K B :=
  fun _ a _ _ ha b hb => .direct (h a b ha hb)

theorem Leads.imp {K' B' : C → Prop} (h : Leads blocks l K B) (hK : ∀ a, K' a → K a) (hB : ∀ b, B' b → B b) :
    Leads blocks l K' B' := fun before a between hl ha b hb => h before a between hl (hK a ha) b (hB b hb)

theorem Leads.append (h : Leads blocks l K B) (h' : Leads blocks l' K B) : Leads blocks (l ++ l') K B := by
  intro before a between hl ha b hb
  rcases List.append_eq_append_iff.mp hl with ⟨r, rfl, hr⟩ | ⟨r, rfl, hr⟩
  · exact h' r a between hr ha b hb
  · cases r with
    | nil => exact h' [] a between hr.symm ha b hb
    | cons x r =>
      cases hr
      apply (h before a r rfl ha b hb).mono
      simp

theorem Leads.extend (h : Leads blocks l K B) (hl : ∀ a ∈ l', ¬ K a) : Leads blocks (l ++ l') K B := by
  apply h.append
  intro before a between hl' ha
  exact absurd ha (hl a (by simp [hl']))

/-- Over a command that they lead to, they lead to all it blocks. -/
theorem Leads.concat {c : C} (h : Leads blocks l K (· = c)) (hc : ∀ b, B b → blocks c b) :
    Leads blocks (l ++ [c]) K B := by
  intro before a between hl ha b hb
  rcases List.append_eq_append_iff.mp hl with ⟨r, rfl, hr⟩ | ⟨r, rfl, hr⟩
  · cases r with
    | nil =>
      cases hr
      exact .direct (hc b hb)
    | cons x r => simp at hr
  · cases r with
    | nil =>
      cases hr
      exact .direct (hc b hb)
    | cons x r =>
      cases hr
      exact .through (h before a r rfl ha c rfl) (hc b hb)

theorem precedes_of_leads {b : C} (h : Leads blocks l K (· = b)) (hc : ∀ a ∈ l, ¬ K a → Commutes act a b) :
    Precedes blocks act l b := by
  intro before a between hl
  by_cases ha : K a
  · exact .inr (h before a between hl ha b rfl)
  · exact .inl (hc a (by simp [hl]) ha)

end Leads

/-! ### What a command saw -/

/-- A marked command as it was in some run: what it saw is fixed where it is marked. -/
inductive Version (frozen : C → M → C) : C × Bool → C → Prop where
  | kept (c : C) : Version frozen (c, false) c
  | fixed (c : C) (saw : M) : Version frozen (c, true) (frozen c saw)

theorem forall₂_append_left {K : Type*} {R : K → C → Prop} {ks ks' : List K} {l : List C}
    (h : List.Forall₂ R (ks ++ ks') l) : ∃ p q, List.Forall₂ R ks p ∧ List.Forall₂ R ks' q ∧ l = p ++ q := by
  induction ks generalizing l with
  | nil => exact ⟨[], l, .nil, h, rfl⟩
  | cons k rest ih =>
    obtain ⟨c, tail, hc, htail, rfl⟩ := List.forall₂_cons_left_iff.mp h
    obtain ⟨p, q, hp, hq, rfl⟩ := ih htail
    exact ⟨c :: p, q, .cons hc hp, hq, rfl⟩

/-- **Every completion is one of the commands as they were in it**, where fixing what a command
saw keeps its effect there and adds no block. -/
theorem Completes.loosen {frozen : C → M → C} (same : ∀ c m, act (frozen c m) m = act c m)
    (held : ∀ {a b : C × Bool} {a' b' : C}, Version frozen a a' → Version frozen b b' → blocks a' b' →
      blocks a.1 b.1)
    {marked : List (C × Bool)} {m m' : M} (h : Completes blocks act (marked.map Prod.fst) m m') :
    ∃ l, List.Forall₂ (Version frozen) marked l ∧ Completes blocks act l m m' := by
  generalize hx : marked.map Prod.fst = x at h
  induction h generalizing marked with
  | done m =>
    rw [List.map_eq_nil_iff.mp hx]
    exact ⟨[], .nil, .done m⟩
  | @next before after c m m' free _ ih =>
    obtain ⟨front, back, rfl, rfl, hback⟩ := List.map_eq_append_iff.mp hx
    obtain ⟨⟨c₀, mark⟩, back, rfl, hc, rfl⟩ := List.map_eq_cons_iff.mp hback
    obtain rfl : c = c₀ := hc.symm
    have hrest : (front ++ back).map Prod.fst = front.map Prod.fst ++ back.map Prod.fst := List.map_append
    obtain ⟨l, hl, hrest⟩ := ih hrest
    obtain ⟨p, q, hp, hq, rfl⟩ := forall₂_append_left hl
    have hversion : ∃ c', Version frozen (c, mark) c' ∧ act c' m = act c m := by
      cases mark with
      | false => exact ⟨c, .kept c, rfl⟩
      | true => exact ⟨frozen c m, .fixed c m, same c m⟩
    obtain ⟨c', hc', hact⟩ := hversion
    refine ⟨p ++ c' :: q, List.rel_append hp (.cons hc' hq), ?_⟩
    apply Completes.next
    · intro a' ha' hblocks
      obtain ⟨a, ha, hversion⟩ := Slots.exists_left_of_mem hp ha'
      exact free a.1 (List.mem_map_of_mem ha) (held hversion hc' hblocks)
    · rwa [hact]

end Orders

/-! ### Several hosts -/

section Hosts
variable {H C M : Type*} [DecidableEq H]

/-- The commands of one host. -/
def project (h : H) (l : List (H × C)) : List C := (l.filter (·.1 = h)).map Prod.snd

/-- What the hosts' commands come to is what they come to together. -/
theorem sum_project {A : Type*} [AddCommMonoid A] [Fintype H] (f : C → A) (l : List (H × C)) :
    ∑ h, ((project h l).map f).sum = (l.map fun c => f c.2).sum := by
  induction l with
  | nil => simp [project]
  | cons c rest ih =>
    have hcons : ∀ h, ((project h (c :: rest)).map f).sum =
        (if c.1 = h then f c.2 else 0) + ((project h rest).map f).sum := by
      intro h
      by_cases hc : c.1 = h <;> simp [project, hc]
    simp only [hcons, Finset.sum_add_distrib, Finset.sum_ite_eq, Finset.mem_univ, if_true, ih, List.map_cons, List.sum_cons]

/-- A command of one host on the memories of all. -/
def onHost (act : C → M → M) (c : H × C) (m : H → M) : H → M := Function.update m c.1 (act c.2 (m c.1))

/-- **Whatever order the commands of all hosts complete in, those of each complete in one of its own.** -/
theorem Completes.project {blocks : H × C → H × C → Prop} {within : C → C → Prop} {act : C → M → M} {host : H}
    (held : ∀ a b, within a b → blocks (host, a) (host, b)) {l : List (H × C)} {m m' : H → M}
    (h : Completes blocks (onHost act) l m m') :
    Completes within act (Streams.project host l) (m host) (m' host) := by
  induction h with
  | done m => exact .done _
  | @next before after c m m' free _ ih =>
    obtain ⟨h', c⟩ := c
    have hsplit : Streams.project host (before ++ after) =
        Streams.project host before ++ Streams.project host after := by simp [Streams.project]
    rw [hsplit] at ih
    by_cases hh : h' = host
    · subst hh
      have hown : Streams.project h' (before ++ (h', c) :: after) =
          Streams.project h' before ++ c :: Streams.project h' after := by simp [Streams.project]
      rw [hown]
      apply Completes.next
      · intro a ha hblocks
        obtain ⟨⟨own, _⟩, hown, rfl⟩ := List.mem_map.mp ha
        obtain ⟨hmem, hhost⟩ := List.mem_filter.mp hown
        obtain rfl : own = h' := of_decide_eq_true hhost
        exact free _ hmem (held _ _ hblocks)
      · simpa [onHost] using ih
    · have hother : Streams.project host (before ++ (h', c) :: after) =
          Streams.project host before ++ Streams.project host after := by simp [Streams.project, hh]
      rw [hother]
      simpa [onHost, Function.update_of_ne (Ne.symm hh)] using ih

end Hosts
/-! ### Work on buffers -/

/-- A computation on buffers: what it reads, and what it writes from that. -/
structure Work (L D : Type*) where
  reads : Set L
  writes : Set L
  run : (L → D) → L → D
  frame : ∀ m l, l ∉ writes → run m l = m l
  congr : ∀ m m', Set.EqOn m m' reads → Set.EqOn (run m) (run m') writes

section Buffers
variable {L D : Type*}

/-- Neither writes what the other touches. -/
structure Work.Apart (v w : Work L D) : Prop where
  written : Disjoint v.writes w.writes
  read : Disjoint v.writes w.reads
  reads : Disjoint v.reads w.writes

theorem Work.Apart.symm {v w : Work L D} (h : v.Apart w) : w.Apart v :=
  ⟨h.written.symm, h.reads.symm, h.read.symm⟩

/-- What runs apart on what is written is what runs alone. -/
theorem Work.Apart.run {v w : Work L D} (h : v.Apart w) (m : L → D) : Set.EqOn (w.run (v.run m)) (w.run m) w.writes := by
  apply w.congr
  intro l hl
  exact v.frame m l (Set.disjoint_right.mp h.read hl)

/-- Where memories agree on what is read, they agree on what is written too. -/
theorem Work.agree (w : Work L D) {m m' : L → D} (h : ∀ l ∈ w.reads, m l = m' l) {l : L}
    (hl : m l = m' l ∨ l ∈ w.writes) : w.run m l = w.run m' l := by
  by_cases hw : l ∈ w.writes
  · exact w.congr m m' h hw
  · rw [w.frame m l hw, w.frame m' l hw]
    exact hl.resolve_right hw

theorem Work.Apart.commute {v w : Work L D} (h : v.Apart w) (m : L → D) : w.run (v.run m) = v.run (w.run m) := by
  funext l
  by_cases hw : l ∈ w.writes
  · have hv : l ∉ v.writes := Set.disjoint_right.mp h.written hw
    rw [v.frame _ l hv, h.run m hw]
  · by_cases hv : l ∈ v.writes
    · rw [w.frame _ l hw, h.symm.run m hv]
    · rw [w.frame _ l hw, v.frame _ l hv, v.frame _ l hv, w.frame _ l hw]

section Assign
variable [DecidableEq L]

/-- One buffer becomes a given content. -/
def Work.store (target : L) (d : D) : Work L D where
  reads := ∅
  writes := {target}
  run m := Function.update m target d
  frame := fun m l hl => Function.update_of_ne hl _ _
  congr := by
    rintro m m' - l rfl
    simp

/-- One buffer becomes what is made of another. -/
def Work.copy (source target : L) (f : D → D) : Work L D where
  reads := {source}
  writes := {target}
  run m := Function.update m target (f (m source))
  frame := fun m l hl => Function.update_of_ne hl _ _
  congr := by
    rintro m m' h l rfl
    simp [h rfl]

end Assign

/-- The buffers that have an entry in `targets` become what it makes of the sources. -/
def Work.compute (sources : List L) (targets : L → Option (List D → D)) : Work L D where
  reads := {l | l ∈ sources}
  writes := {l | (targets l).isSome}
  run m l :=
    match targets l with
    | some f => f (sources.map m)
    | none => m l
  frame := by
    intro m l hl
    simp only [Set.mem_ofPred_eq, Bool.not_eq_true, Option.isSome_eq_false_iff, Option.isNone_iff_eq_none] at hl
    simp only [hl]
  congr := by
    intro m m' h l hl
    obtain ⟨f, hf⟩ := Option.isSome_iff_exists.mp hl
    have hsources : sources.map m = sources.map m' := List.map_congr_left fun x hx => h hx
    simp only [hf, hsources]

open Classical in
/-- The same, as it was on what it saw. -/
noncomputable def Work.frozen (w : Work L D) (saw : L → D) : Work L D where
  reads := ∅
  writes := w.writes
  run m l := if l ∈ w.writes then w.run saw l else m l
  frame := fun _ _ hl => if_neg hl
  congr := by
    intro m m' _ l hl
    simp only [if_pos hl]

theorem Work.frozen_run (w : Work L D) (m : L → D) : (w.frozen m).run m = w.run m := by
  funext l
  simp only [frozen]
  split
  · rfl
  · rename_i hl
    rw [w.frame m l hl]

end Buffers

/-! ### Streams -/

/-- What a host hands to a device: work on a port, an event recorded or waited for on one, or
that the host waits for all it has handed to one. -/
inductive Op (P T L D : Type*) where
  | work (port : P) (w : Work L D)
  | record (port : P) (event : T)
  | wait (port : P) (event : T)
  | synchronize (port : P)

namespace Op
variable {P S T L D : Type*}

/-- The port it is handed to. -/
def on : Op P T L D → Option P
  | .work port _ | .record port _ | .wait port _ => some port
  | .synchronize _ => none

/-- The port it names. -/
def port : Op P T L D → P
  | .work port _ | .record port _ | .wait port _ | .synchronize port => port

def act : Op P T L D → (L → D) → L → D
  | .work _ w => w.run
  | _ => id

/-- The op as it was on what it saw. -/
noncomputable def frozen (op : Op P T L D) (saw : L → D) : Op P T L D :=
  match op with
  | .work port w => .work port (w.frozen saw)
  | op => op

/-- Which pending ops hold back a later one, over the streams that the ports are. A wait is for
the one record of its event. -/
inductive Blocks (stream : P → S) : Op P T L D → Op P T L D → Prop where
  | ordered {a b : Op P T L D} {p q : P} (first : a.on = some p) (second : b.on = some q) (same : stream p = stream q) :
      Blocks stream a b
  | awaited {p q : P} {e : T} : Blocks stream (.record p e) (.wait q e)
  | drained {a : Op P T L D} {p q : P} (pending : a.on = some p) (same : stream p = stream q) :
      Blocks stream a (.synchronize q)
  | issued {q : P} {b : Op P T L D} : Blocks stream (.synchronize q) b

/-- Beside that, one stream may order itself with a set of others: what is handed to either waits for
all that the other has been handed. -/
inductive BlocksWith (stream : P → S) (legacy : S) (blocking : Set S) : Op P T L D → Op P T L D → Prop where
  | within {a b : Op P T L D} (h : Blocks stream a b) : BlocksWith stream legacy blocking a b
  | behind {a b : Op P T L D} {p q : P} (first : a.on = some p) (same : stream p = legacy) (second : b.on = some q)
      (h : stream q ∈ blocking) : BlocksWith stream legacy blocking a b
  | ahead {a b : Op P T L D} {p q : P} (first : a.on = some p) (h : stream p ∈ blocking) (second : b.on = some q)
      (same : stream q = legacy) : BlocksWith stream legacy blocking a b

/-- Work holds back only what names a port of its stream. -/
theorem Blocks.port {stream : P → S} {p : P} {w : Work L D} {b : Op P T L D} (h : Blocks stream (.work p w) b) :
    stream p = stream b.port := by
  cases h with
  | ordered first second same =>
    cases first
    cases b <;> cases second <;> exact same
  | drained first same =>
    cases first
    exact same

/-- Work on the one stream holds back nothing on a stream that is neither it nor one of the others. -/
theorem BlocksWith.port {stream : P → S} {legacy : S} {blocking : Set S} {p : P} {w : Work L D} {b : Op P T L D}
    (h : BlocksWith stream legacy blocking (.work p w) b) (hp : stream p = legacy) :
    stream b.port = legacy ∨ stream b.port ∈ blocking := by
  have hon : ∀ q, b.on = some q → b.port = q := by
    intro q hq
    cases b <;> cases hq <;> rfl
  cases h with
  | within h => exact .inl (h.port.symm.trans hp)
  | behind _ _ second hq => exact .inr (hon _ second ▸ hq)
  | ahead _ _ second same => exact .inl (hon _ second ▸ same)

theorem act_frozen (op : Op P T L D) (m : L → D) : (op.frozen m).act m = op.act m := by
  cases op with
  | work port w => exact w.frozen_run m
  | record | wait | synchronize => rfl

@[simp] theorem on_frozen (op : Op P T L D) (saw : L → D) : (op.frozen saw).on = op.on := by
  cases op <;> rfl

/-- A version of an op is work where it is, and else the op. -/
theorem version_cases {a : Op P T L D × Bool} {a' : Op P T L D} (h : Version frozen a a') :
    a.1 = a' ∨ ∃ port w w', a.1 = .work port w ∧ a' = .work port w' ∧ w'.writes = w.writes := by
  cases h with
  | kept => exact .inl rfl
  | fixed c saw =>
    cases c with
    | work port w => exact .inr ⟨port, w, w.frozen saw, rfl, rfl, rfl⟩
    | record | wait | synchronize => exact .inl rfl

/-- What an op saw adds no block. -/
theorem blocks_of_versions {stream : P → S} {a b : Op P T L D × Bool} {a' b' : Op P T L D}
    (ha : Version frozen a a') (hb : Version frozen b b') (h : Blocks stream a' b') : Blocks stream a.1 b.1 := by
  rcases version_cases ha with hfirst | ⟨p, v, v', hfirst, rfl, _⟩
  · rcases version_cases hb with hsecond | ⟨q, w, w', hsecond, rfl, _⟩
    · rwa [hfirst, hsecond]
    · rw [hfirst, hsecond]
      cases h with
      | ordered first second same => exact .ordered first second same
      | issued => exact .issued
  · rcases version_cases hb with hsecond | ⟨q, w, w', hsecond, rfl, _⟩
    · rw [hfirst, hsecond]
      cases h with
      | ordered first second same => exact .ordered first second same
      | drained first same => exact .drained first same
    · rw [hfirst, hsecond]
      cases h with
      | ordered first second same => exact .ordered first second same

/-- Ops other than work leave every buffer, and so commute with all. -/
theorem commutes_left {a : Op P T L D} (h : a.act = id) (b : Op P T L D) : Commutes act a b :=
  fun m => by simp [h]

theorem commutes_work {p q : P} {v w : Work L D} (h : v.Apart w) :
    Commutes act (.work p v : Op P T L D) (.work q w) := fun m => h.commute m

end Op
end Streams
