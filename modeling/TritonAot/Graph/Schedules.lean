import TritonAot.Graph.Streams

/-! Every order of completion delivers what the order of issue does. -/
namespace TritonAot

open Streams

variable {K S D : Type}

/-! ### Footprints -/

/-- The entry a buffer belongs to. -/
def Buffer.entryKey : Buffer K → Option K
  | .staticInput key _ | .staticOutput key _ | .scratch key => some key
  | _ => none

/-- What is touched on each port. -/
inductive Stationed : Port K → Work (Buffer K) D → Prop where
  | loading {w : Work (Buffer K) D} (touched : ∀ b, b ∈ w.reads ∨ b ∈ w.writes → ∃ i, b = .created i) :
      Stationed .loading w
  | own {w : Work (Buffer K) D} (touched : ∀ i, .created i ∉ w.reads ∧ .created i ∉ w.writes) : Stationed .own w
  | graph {key : K} {w : Work (Buffer K) D} (writes : ∀ b ∈ w.writes, b.entryKey = some key)
      (reads : ∀ b ∈ w.reads, b.entryKey = some key ∨ OfBatch b) : Stationed (.graph key) w

/-- Work touches a buffer of the entry. -/
def Meets (key : K) (w : Work (Buffer K) D) : Prop := ∃ b, (b ∈ w.reads ∨ b ∈ w.writes) ∧ b.entryKey = some key

def UsesBatch (w : Work (Buffer K) D) : Prop := ∃ b ∈ w.reads, OfBatch b

theorem OfBatch.entry {b : Buffer K} (h : OfBatch b) : b.entryKey = none := by
  cases h <;> rfl

section Apart
variable {key key' : K} {v w : Work (Buffer K) D}

theorem apart_of {P : Buffer K → Prop} (hv : ∀ b, b ∈ v.reads ∨ b ∈ v.writes → P b)
    (hw : ∀ b, b ∈ w.reads ∨ b ∈ w.writes → ¬ P b) : v.Apart w where
  written := Set.disjoint_left.mpr fun b hb hb' => hw b (.inr hb') (hv b (.inr hb))
  read := Set.disjoint_left.mpr fun b hb hb' => hw b (.inl hb') (hv b (.inr hb))
  reads := Set.disjoint_left.mpr fun b hb hb' => hw b (.inr hb') (hv b (.inl hb))

theorem Stationed.not_created {port : Port K} (h : Stationed port w) (hport : port ≠ .loading) :
    ∀ b, b ∈ w.reads ∨ b ∈ w.writes → ¬ ∃ i, b = .created i := by
  rintro _ hb ⟨i, rfl⟩
  cases h with
  | loading => exact hport rfl
  | own touched => exact hb.elim (touched i).1 (touched i).2
  | graph writes reads =>
    rcases hb with hb | hb
    · rcases reads _ hb with he | hbatch
      · cases he
      · cases hbatch
    · cases writes _ hb

theorem Stationed.apart_loading {port : Port K} (hv : Stationed .loading v) (hw : Stationed port w) (hport : port ≠ .loading) :
    v.Apart w := by
  cases hv with
  | loading touched => exact apart_of touched (hw.not_created hport)

theorem Stationed.apart_graphs (hv : Stationed (.graph key) v) (hw : Stationed (.graph key') w) (hne : key ≠ key') :
    v.Apart w := by
  cases hv with
  | graph writes reads =>
    cases hw with
    | graph writes' reads' =>
      have differ : ∀ {b : Buffer K}, b.entryKey = some key → b.entryKey ≠ some key' := by
        intro b hb hb'
        exact hne (Option.some.inj (hb.symm.trans hb'))
      refine ⟨?_, ?_, ?_⟩ <;> rw [Set.disjoint_left] <;> intro b hb hb'
      · exact differ (writes b hb) (writes' b hb')
      · rcases reads' b hb' with he | hbatch
        · exact differ (writes b hb) he
        · have hnone := writes b hb
          rw [hbatch.entry] at hnone
          cases hnone
      · rcases reads b hb with he | hbatch
        · exact differ he (writes' b hb')
        · have hnone := writes' b hb'
          rw [hbatch.entry] at hnone
          cases hnone

/-- Work on a graph's stream that reads nothing of the batch is apart from what meets none of its buffers. -/
theorem Stationed.apart_unmet (hv : Stationed (.graph key) v) (hbatch : ¬ UsesBatch v) (hw : ¬ Meets key w) : v.Apart w := by
  cases hv with
  | graph writes reads =>
    apply apart_of (P := fun b => b.entryKey = some key)
    · rintro b (hb | hb)
      · exact (reads b hb).resolve_right fun h => hbatch ⟨b, hb, h⟩
      · exact writes b hb
    · intro b hb he
      exact hw ⟨b, hb, he⟩

end Apart

/-! ### What was issued -/

def OnOwn (op : DeviceOp K D) : Prop := op.on = some .own

def OnGraph (key : K) (op : DeviceOp K D) : Prop := ∃ w, op = .work (.graph key) w

/-- A copy from the batch on a graph's stream. -/
def Exact (op : DeviceOp K D) : Prop := ∃ key w, op = .work (.graph key) w ∧ UsesBatch w

/-- What the host may rely on, of all that it has issued. -/
structure Ordering (stream : Port K → S) (books : Books K) (l : List (DeviceOp K D)) : Prop where
  synchronised : Synchronised (Op.Blocks stream) Op.act l
  placed : ∀ port w, .work port w ∈ l → Stationed port w
  fresh : ∀ key ∉ books.captured, ∀ port w, .work port w ∈ l → ¬ Meets key w
  /-- The copies that were launched are seen by the instance's stream. -/
  exact : Leads (Op.Blocks stream) l Exact OnOwn
  primed : ∀ key ∈ books.primed, Leads (Op.Blocks stream) l (OnGraph key) OnOwn
  captured : books.primed ⊆ books.captured

section Precedes
variable {stream : Port K → S} {books : Books K} {l : List (DeviceOp K D)} {key : K} {w : Work (Buffer K) D}

/-- Ops that are no work precede, and are preceded by, whatever there is. -/
theorem precedes_idle {op : DeviceOp K D} (h : op.act = id) : Precedes (Op.Blocks stream) Op.act l op :=
  fun _ a _ _ => .inl (Op.commutes_left h a).symm

theorem Ordering.precedes_own (h : Ordering stream books l) (hw : Stationed .own w)
    (hmeets : ∀ key, Meets key w → key ∈ books.primed) :
    Precedes (Op.Blocks stream) Op.act l (.work .own w) := by
  apply precedes_of_leads (K := fun a => OnOwn a ∨ Exact a ∨ ∃ key ∈ books.primed, OnGraph key a)
  · rintro before a between hl (ha | ha | ⟨key, hkey, ha⟩) b rfl
    · exact .direct (.ordered ha rfl rfl)
    · exact h.exact before a between hl ha _ rfl
    · exact h.primed key hkey before a between hl ha _ rfl
  · intro a ha hnot
    cases a with
    | work port v =>
      apply Op.commutes_work
      have hv := h.placed port v ha
      cases hv with
      | loading touched => exact Stationed.apart_loading (.loading touched) hw nofun
      | own => exact absurd (.inl rfl) hnot
      | @graph key _ writes reads =>
        apply Stationed.apart_unmet (.graph writes reads)
        · intro hbatch
          exact hnot (.inr (.inl ⟨key, v, rfl, hbatch⟩))
        · intro hmeet
          exact hnot (.inr (.inr ⟨key, hmeets key hmeet, v, rfl⟩))
    | record | wait | synchronize => exact Op.commutes_left rfl _

/-- Behind the wait for its inputs, work on a graph's stream is preceded by everything. -/
theorem Ordering.precedes_graph (placed : ∀ port w, .work port w ∈ l → Stationed port w)
    (lead : Leads (Op.Blocks stream) l OnOwn fun b => b.on = some (.graph key)) (hw : Stationed (.graph key) w) :
    Precedes (Op.Blocks stream) Op.act l (.work (.graph key) w) := by
  apply precedes_of_leads (K := fun a => OnOwn a ∨ a.on = some (.graph key))
  · rintro before a between hl (ha | ha) b rfl
    · exact lead before a between hl ha _ rfl
    · exact .direct (.ordered ha rfl rfl)
  · intro a ha hnot
    cases a with
    | work port v =>
      apply Op.commutes_work
      have hv := placed port v ha
      cases hv with
      | loading touched => exact Stationed.apart_loading (.loading touched) hw nofun
      | own => exact absurd (.inl rfl) hnot
      | @graph key' _ writes reads =>
        apply Stationed.apart_graphs (.graph writes reads) hw
        rintro rfl
        exact hnot (.inr rfl)
    | record | wait | synchronize => exact Op.commutes_left rfl _

/-- Work on a graph's stream that touches its own buffers only is preceded by what met none of them
elsewhere. -/
theorem precedes_fresh (fresh : ∀ port v, .work port v ∈ l → port = .graph key ∨ ¬ Meets key v)
    (hw : Stationed (.graph key) w) (hbatch : ¬ UsesBatch w) :
    Precedes (Op.Blocks stream) Op.act l (.work (.graph key) w) := by
  apply precedes_of_leads (K := fun a => a.on = some (.graph key))
  · rintro before a between hl ha b rfl
    exact .direct (.ordered ha rfl rfl)
  · intro a ha hnot
    cases a with
    | work port v =>
      apply Op.commutes_work
      rcases fresh port v ha with rfl | hmeet
      · exact absurd rfl hnot
      · exact (hw.apart_unmet hbatch hmeet).symm
    | record | wait | synchronize => exact Op.commutes_left rfl _

theorem Ordering.precedes_loading (h : Ordering stream books l) (hw : Stationed .loading w) :
    Precedes (Op.Blocks stream) Op.act l (.work .loading w) := by
  apply precedes_of_leads (K := fun a => a.on = some .loading)
  · rintro before a between hl ha b rfl
    exact .direct (.ordered ha rfl rfl)
  · intro a ha hnot
    cases a with
    | work port v =>
      apply Op.commutes_work
      refine (hw.apart_loading (h.placed port v ha) ?_).symm
      rintro rfl
      exact hnot rfl
    | record | wait | synchronize => exact Op.commutes_left rfl _

end Precedes

/-! ### Issuing more -/

section Extend
variable {stream : Port K → S} {books : Books K} {l q : List (DeviceOp K D)} {key : K} {replay : Nat}

/-- Ops that leave what the host relies on. -/
inductive Plain (books : Books K) : DeviceOp K D → Prop where
  | loading {w : Work (Buffer K) D} (hw : Stationed .loading w) : Plain books (.work .loading w)
  | own {w : Work (Buffer K) D} (hw : Stationed .own w) (hmeets : ∀ key, Meets key w → key ∈ books.primed) :
      Plain books (.work .own w)
  | synchronize (port : Port K) : Plain books (.synchronize port)

theorem Stationed.unmet (h : Stationed .loading w) (key : K) : ¬ Meets key (w : Work (Buffer K) D) := by
  cases h with
  | loading touched =>
    rintro ⟨b, hb, he⟩
    obtain ⟨i, rfl⟩ := touched b hb
    cases he

theorem Ordering.plain (h : Ordering stream books l) {op : DeviceOp K D} (hop : Plain books op) :
    Ordering stream books (l ++ [op]) where
  synchronised := by
    apply h.synchronised.concat
    cases hop with
    | loading hw => exact h.precedes_loading hw
    | own hw hmeets => exact h.precedes_own hw hmeets
    | synchronize => exact precedes_idle rfl
  placed := by
    intro port w hw
    rcases List.mem_append.mp hw with hw | hw
    · exact h.placed port w hw
    · cases hop with
      | loading hplaced | own hplaced =>
        cases List.mem_singleton.mp hw
        exact hplaced
      | synchronize => cases List.mem_singleton.mp hw
  fresh := by
    intro key hkey port w hw hmeet
    rcases List.mem_append.mp hw with hw | hw
    · exact h.fresh key hkey port w hw hmeet
    · cases hop with
      | loading hplaced =>
        cases List.mem_singleton.mp hw
        exact hplaced.unmet key hmeet
      | own _ hmeets =>
        cases List.mem_singleton.mp hw
        exact hkey (h.captured (hmeets key hmeet))
      | synchronize => cases List.mem_singleton.mp hw
  exact := by
    apply h.exact.extend
    rintro a ha ⟨key, w, rfl, _⟩
    cases List.mem_singleton.mp ha
    cases hop
  primed := by
    intro key hkey
    apply (h.primed key hkey).extend
    rintro a ha ⟨w, rfl⟩
    cases List.mem_singleton.mp ha
    cases hop
  captured := h.captured

theorem Ordering.plains (h : Ordering stream books l) (hq : ∀ op ∈ q, Plain books op) :
    Ordering stream books (l ++ q) := by
  induction q generalizing l with
  | nil => rwa [List.append_nil]
  | cons op rest ih =>
    obtain ⟨hop, hrest⟩ := List.forall_mem_cons.mp hq
    rw [List.append_cons]
    exact ih (h.plain hop) hrest

/-- Ops of a capture: work on the graph's stream that reads nothing of the batch any more. -/
inductive Loose (key : K) : DeviceOp K D → Prop where
  | work {w : Work (Buffer K) D} (hw : Stationed (.graph key) w) (hbatch : ¬ UsesBatch w) : Loose key (.work (.graph key) w)
  | synchronize (port : Port K) : Loose key (.synchronize port)

theorem Stationed.meets {w : Work (Buffer K) D} (h : Stationed (.graph key) w) {key' : K} (hmeet : Meets key' w) :
    key' = key := by
  cases h with
  | graph writes reads =>
    obtain ⟨b, hb, he⟩ := hmeet
    have hown : b.entryKey = some key := by
      rcases hb with hb | hb
      · apply (reads b hb).resolve_right
        intro hof
        rw [hof.entry] at he
        cases he
      · exact writes b hb
    exact Option.some.inj (he.symm.trans hown)

/-- A capture leaves what the host relies on, where nothing else has met its buffers. -/
theorem Ordering.loose (h : Ordering stream books l) (hkey : key ∈ books.captured) (hprimed : key ∉ books.primed)
    (fresh : ∀ port v, .work port v ∈ l → port = .graph key ∨ ¬ Meets key v) (hq : ∀ op ∈ q, Loose key op) :
    Ordering stream books (l ++ q) := by
  induction q generalizing l with
  | nil => rwa [List.append_nil]
  | cons op rest ih =>
    obtain ⟨hop, hrest⟩ := List.forall_mem_cons.mp hq
    rw [List.append_cons]
    apply ih
    · constructor
      · apply h.synchronised.concat
        cases hop with
        | work hw hbatch => exact precedes_fresh fresh hw hbatch
        | synchronize => exact precedes_idle rfl
      · intro port w hw
        rcases List.mem_append.mp hw with hw | hw
        · exact h.placed port w hw
        · cases hop with
          | work hplaced =>
            cases List.mem_singleton.mp hw
            exact hplaced
          | synchronize => cases List.mem_singleton.mp hw
      · intro key' hkey' port w hw hmeet
        rcases List.mem_append.mp hw with hw | hw
        · exact h.fresh key' hkey' port w hw hmeet
        · cases hop with
          | work hplaced =>
            cases List.mem_singleton.mp hw
            exact hkey' (hplaced.meets hmeet ▸ hkey)
          | synchronize => cases List.mem_singleton.mp hw
      · apply h.exact.extend
        rintro a ha ⟨key', w, rfl, hbatch⟩
        cases List.mem_singleton.mp ha
        cases hop with
        | work _ hloose => exact hloose hbatch
      · intro key' hkey'
        apply (h.primed key' hkey').extend
        rintro a ha ⟨w, rfl⟩
        cases List.mem_singleton.mp ha
        cases hop with
        | work => exact hprimed hkey'
      · exact h.captured
    · intro port v hv
      rcases List.mem_append.mp hv with hv | hv
      · exact fresh port v hv
      · cases hop with
        | work =>
          cases List.mem_singleton.mp hv
          exact .inl rfl
        | synchronize => cases List.mem_singleton.mp hv
    · exact hrest

/-- An entry that is captured for the first time. -/
theorem Ordering.capture [DecidableEq K] (h : Ordering stream books l) (hkey : key ∉ books.captured)
    (hq : ∀ op ∈ q, Loose key op) :
    Ordering stream {books with captured := insert key books.captured} (l ++ q) := by
  have hinserted : Ordering stream {books with captured := insert key books.captured} l := by
    refine ⟨h.synchronised, h.placed, ?_, h.exact, h.primed, h.captured.trans (Finset.subset_insert ..)⟩
    intro key' hkey'
    exact h.fresh key' fun hmem => hkey' (Finset.mem_insert_of_mem hmem)
  apply hinserted.loose (Finset.mem_insert_self ..)
  · exact fun hprimed => hkey (h.captured hprimed)
  · exact fun port v hv => .inr (h.fresh key hkey port v hv)
  · exact hq

/-! ### Replays -/

/-- The graph's stream waits for what is on the instance's. -/
theorem leads_await : Leads (Op.Blocks stream) (l ++ awaitInputs replay key) OnOwn
    fun b : DeviceOp K D => b.on = some (.graph key) := by
  have hrecord : Leads (Op.Blocks stream) l OnOwn (· = (.record .own (.inputs replay) : DeviceOp K D)) := by
    apply leads_of_blocks
    rintro a b ha rfl
    exact .ordered ha rfl rfl
  have hwait : Leads (Op.Blocks stream) (l ++ [.record .own (.inputs replay)]) OnOwn
      (· = (.wait (.graph key) (.inputs replay) : DeviceOp K D)) := by
    apply hrecord.concat
    rintro b rfl
    exact .awaited
  rw [awaitInputs, List.append_cons]
  apply hwait.concat
  intro b hb
  exact .ordered rfl hb rfl

/-- The instance's stream waits for what is on the graph's. -/
theorem leads_launched : Leads (Op.Blocks stream)
    (l ++ [.record (.graph key) (.outputs replay), .wait .own (.outputs replay)]) (OnGraph key)
    (OnOwn : DeviceOp K D → Prop) := by
  have hrecord : Leads (Op.Blocks stream) l (OnGraph key)
      (· = (.record (.graph key) (.outputs replay) : DeviceOp K D)) := by
    apply leads_of_blocks
    rintro _ b ⟨w, rfl⟩ rfl
    exact .ordered rfl rfl rfl
  have hwait : Leads (Op.Blocks stream) (l ++ [.record (.graph key) (.outputs replay)]) (OnGraph key)
      (· = (.wait .own (.outputs replay) : DeviceOp K D)) := by
    apply hrecord.concat
    rintro b rfl
    exact .awaited
  rw [List.append_cons]
  apply hwait.concat
  intro b hb
  exact .ordered rfl hb rfl

/-- Work on a graph's stream behind the wait for its inputs. -/
theorem synchronised_await (h : Synchronised (Op.Blocks stream) Op.act l)
    (placed : ∀ port w, .work port w ∈ l → Stationed port w)
    (hq : ∀ op ∈ q, ∃ w, op = .work (.graph key) w ∧ Stationed (.graph key) w) :
    Synchronised (Op.Blocks stream) Op.act (l ++ awaitInputs replay key ++ q) := by
  induction q using List.reverseRecOn with
  | nil =>
    rw [List.append_nil, awaitInputs, List.append_cons]
    exact (h.concat (precedes_idle rfl)).concat (precedes_idle rfl)
  | append_singleton q op ih =>
    obtain ⟨hfront, hlast⟩ := List.forall_mem_append.mp hq
    obtain ⟨w, rfl, hw⟩ := hlast op (List.mem_singleton.mpr rfl)
    rw [← List.append_assoc]
    apply (ih hfront).concat
    apply Ordering.precedes_graph _ _ hw
    · intro port v hv
      rcases List.mem_append.mp hv with hv | hv
      · rcases List.mem_append.mp hv with hv | hv
        · exact placed port v hv
        · simp [awaitInputs] at hv
      · obtain ⟨_, heq, hplaced⟩ := hfront _ hv
        cases heq
        exact hplaced
    · apply leads_await.extend
      rintro a ha hown
      obtain ⟨_, rfl, _⟩ := hfront a ha
      cases hown

/-- Work on a graph's stream between the wait for its inputs and the wait for its outputs. -/
theorem Ordering.replayed [DecidableEq K] (h : Ordering stream books l) (hkey : key ∈ books.captured)
    (hq : ∀ op ∈ q, ∃ w, op = .work (.graph key) w ∧ Stationed (.graph key) w) :
    Ordering stream {books with primed := insert key books.primed}
      (l ++ (awaitInputs replay key ++ q ++ [.record (.graph key) (.outputs replay), .wait .own (.outputs replay)])) := by
  have hwork : ∀ port w, .work port w ∈ awaitInputs replay key ++ q ++
      [.record (.graph key) (.outputs replay), .wait .own (.outputs replay)] →
      port = .graph key ∧ Stationed (.graph key) w := by
    intro port w hw
    simp only [awaitInputs, List.append_assoc, List.mem_append, List.mem_cons, reduceCtorEq, List.not_mem_nil, or_false,
      false_or] at hw
    obtain ⟨_, heq, hplaced⟩ := hq _ hw
    cases heq
    exact ⟨rfl, hplaced⟩
  constructor
  · have hfront : Synchronised _ _ (l ++ awaitInputs replay key ++ q) := synchronised_await h.synchronised h.placed hq
    rw [← List.append_assoc, ← List.append_assoc, List.append_cons]
    exact (hfront.concat (precedes_idle rfl)).concat (precedes_idle rfl)
  · intro port w hw
    rcases List.mem_append.mp hw with hw | hw
    · exact h.placed port w hw
    · obtain ⟨rfl, hplaced⟩ := hwork port w hw
      exact hplaced
  · intro key' hkey' port w hw hmeet
    rcases List.mem_append.mp hw with hw | hw
    · exact h.fresh key' hkey' port w hw hmeet
    · obtain ⟨rfl, hplaced⟩ := hwork port w hw
      exact hkey' (hplaced.meets hmeet ▸ hkey)
  · apply h.exact.append
    intro before a between hl ha b hb
    have hmem : a ∈ awaitInputs replay key ++ q ++
        [.record (.graph key) (.outputs replay), .wait .own (.outputs replay)] := by simp [hl]
    obtain ⟨key', w, rfl, _⟩ := ha
    obtain ⟨hport, _⟩ := hwork _ _ hmem
    cases hport
    exact leads_launched before _ between hl ⟨w, rfl⟩ b hb
  · intro key' hkey'
    by_cases hsame : key' = key
    · subst hsame
      rw [← List.append_assoc]
      exact leads_launched
    · apply (h.primed key' (Finset.mem_of_mem_insert_of_ne hkey' hsame)).extend
      rintro a ha ⟨w, rfl⟩
      obtain ⟨hport, _⟩ := hwork _ _ ha
      exact hsame (Port.graph.inj hport)
  · exact Finset.insert_subset hkey h.captured

/-- The same without a launch: the entry is not primed from then on, unless nothing was copied. -/
theorem Ordering.thrown [DecidableEq K] (h : Ordering stream books l) (hkey : key ∈ books.captured)
    (hq : ∀ op ∈ q, ∃ w, op = .work (.graph key) w ∧ Stationed (.graph key) w ∧ ¬ UsesBatch w) :
    Ordering stream (if q = [] then books else {books with primed := books.primed.erase key})
      (l ++ (awaitInputs replay key ++ q)) := by
  have hwork : ∀ port w, .work port w ∈ awaitInputs replay key ++ q →
      port = .graph key ∧ Stationed (.graph key) w ∧ ¬ UsesBatch w ∧ q ≠ [] := by
    intro port w hw
    simp only [awaitInputs, List.mem_append, List.mem_cons, reduceCtorEq, List.not_mem_nil, or_false, false_or] at hw
    obtain ⟨_, heq, hplaced, hbatch⟩ := hq _ hw
    cases heq
    exact ⟨rfl, hplaced, hbatch, List.ne_nil_of_mem hw⟩
  have hbooks : (if q = [] then books else {books with primed := books.primed.erase key} : Books K).captured =
      books.captured := by split <;> rfl
  constructor
  · rw [← List.append_assoc]
    apply synchronised_await h.synchronised h.placed
    intro op hop
    obtain ⟨w, rfl, hplaced, _⟩ := hq op hop
    exact ⟨w, rfl, hplaced⟩
  · intro port w hw
    rcases List.mem_append.mp hw with hw | hw
    · exact h.placed port w hw
    · obtain ⟨rfl, hplaced, _⟩ := hwork port w hw
      exact hplaced
  · intro key' hkey' port w hw hmeet
    rw [hbooks] at hkey'
    rcases List.mem_append.mp hw with hw | hw
    · exact h.fresh key' hkey' port w hw hmeet
    · obtain ⟨rfl, hplaced, _⟩ := hwork port w hw
      exact hkey' (hplaced.meets hmeet ▸ hkey)
  · apply h.exact.extend
    rintro a ha ⟨key', w, rfl, hbatch⟩
    obtain ⟨_, _, hloose, _⟩ := hwork _ _ ha
    exact hloose hbatch
  · intro key' hkey'
    have hprimed : key' ∈ books.primed ∧ (q ≠ [] → key' ≠ key) := by
      split at hkey'
      · exact ⟨hkey', fun hne => absurd ‹q = []› hne⟩
      · exact ⟨(Finset.mem_erase.mp hkey').2, fun _ => (Finset.mem_erase.mp hkey').1⟩
    apply (h.primed key' hprimed.1).extend
    rintro a ha ⟨w, rfl⟩
    obtain ⟨hport, _, _, hne⟩ := hwork _ _ ha
    exact hprimed.2 hne (Port.graph.inj hport)
  · rw [hbooks]
    split
    · exact h.captured
    · exact (Finset.erase_subset ..).trans h.captured

end Extend

/-! ### What a routine issues -/

section Members
variable {arity : Nat} {graph : K → List D → Nat → D} {op : DeviceOp K D}

theorem mem_storesFrom [DecidableEq K] {port : Port K} {target : Nat → Buffer K} {ds : List D} {i : Nat}
    (h : op ∈ storesFrom port target i ds) : ∃ j d, op = .work port (.store (target j) d) := by
  induction ds generalizing i with
  | nil => cases h
  | cons d rest ih =>
    rcases List.mem_cons.mp h with rfl | h
    · exact ⟨i, d, rfl⟩
    · exact ih h

theorem mem_stores [DecidableEq K] {port : Port K} {target : Nat → Buffer K} {fills : List (Nat × D)}
    (h : op ∈ stores port target fills) : ∃ fill ∈ fills, op = .work port (.store (target fill.1) fill.2) := by
  obtain ⟨fill, hfill, rfl⟩ := List.mem_map.mp h
  exact ⟨fill, hfill, rfl⟩

theorem mem_copiesFrom [DecidableEq K] {port : Port K} {target : Nat → Buffer K} {copies : List (Buffer K × (D → D))}
    {i : Nat} (h : op ∈ copiesFrom port target i copies) :
    ∃ j ≥ i, ∃ c ∈ copies, op = .work port (.copy c.1 (target j) c.2) := by
  induction copies generalizing i with
  | nil => cases h
  | cons c rest ih =>
    rcases List.mem_cons.mp h with rfl | h
    · exact ⟨i, Nat.le_refl i, c, List.mem_cons_self .., rfl⟩
    · obtain ⟨j, hj, c', hc, hop⟩ := ih h
      exact ⟨j, Nat.le_of_succ_le hj, c', List.mem_cons_of_mem _ hc, hop⟩

theorem length_copiesFrom [DecidableEq K] (port : Port K) (target : Nat → Buffer K) (i : Nat)
    (copies : List (Buffer K × (D → D))) : (copiesFrom port target i copies).length = copies.length := by
  induction copies generalizing i with
  | nil => rfl
  | cons c rest ih => simp [copiesFrom, ih]

theorem mem_padsFrom [DecidableEq K] {pads : List (D → D)} {i : Nat} (h : op ∈ Routine.issue.padsFrom i pads) :
    ∃ j pad, op = .work .own (.copy (.gathered j) (.padded j) pad) := by
  induction pads generalizing i with
  | nil => cases h
  | cons pad rest ih =>
    rcases List.mem_cons.mp h with rfl | h
    · exact ⟨i, pad, rfl⟩
    · exact ih h

theorem mem_drained {synced : Bool} (h : op ∈ (drained synced : List (DeviceOp K D))) : op = .synchronize .own := by
  unfold drained at h
  split at h
  · exact List.mem_singleton.mp h
  · cases h

/-! #### On the instance's stream -/

variable {books : Books K}

theorem placed_own_of {w : Work (Buffer K) D} (hreads : ∀ b ∈ w.reads, Readable arity books b)
    (hwrites : ∀ b ∈ w.writes, ∀ i, b ≠ .created i) : Stationed .own w := by
  constructor
  intro i
  constructor
  · intro hi
    cases hreads _ hi with
    | batch h => cases h
  · exact fun hi => hwrites _ hi i rfl

theorem Readable.primed {b : Buffer K} (h : Readable arity books b) {key : K} (he : b.entryKey = some key) :
    key ∈ books.primed := by
  cases h with
  | batch hof => rw [hof.entry] at he; cases he
  | eager => cases he
  | staticInput hkey =>
    cases he
    exact hkey
  | staticOutput hkey =>
    cases he
    exact hkey

/-- Work of the instance's stream is plain where it reads what may be read, and writes no entry that is
not primed. -/
theorem plain_own {w : Work (Buffer K) D} (hreads : ∀ b ∈ w.reads, Readable arity books b)
    (hwrites : ∀ b ∈ w.writes, (∀ i, b ≠ .created i) ∧ ∀ key, b.entryKey = some key → key ∈ books.primed) :
    Plain books (.work .own w) := by
  apply Plain.own
  · exact placed_own_of hreads fun b hb => (hwrites b hb).1
  · rintro key ⟨b, hb | hb, he⟩
    · exact (hreads b hb).primed he
    · exact (hwrites b hb).2 key he

/-- Where nothing races, what was issued is all there is. -/
theorem versions_kept {ops q : List (DeviceOp K D)} {races : DeviceOp K D → Bool} (hraces : ∀ op ∈ ops, races op = false)
    (h : List.Forall₂ (Version Op.frozen) (ops.map fun op => (op, races op)) q) : q = ops := by
  induction ops generalizing q with
  | nil =>
    cases h
    rfl
  | cons op rest ih =>
    obtain ⟨hop, hrest⟩ := List.forall_mem_cons.mp hraces
    obtain ⟨op', q', hversion, htail, rfl⟩ := List.forall₂_cons_left_iff.mp h
    simp only [hop] at hversion
    cases hversion
    rw [ih hrest htail]

/-- Work on a graph's stream, as it was on what it saw, reads nothing. -/
theorem placed_frozen {key : K} {w : Work (Buffer K) D} (h : ∀ b ∈ w.writes, b.entryKey = some key) (saw : Buffer K → D) :
    Stationed (.graph key) (w.frozen saw) ∧ ¬ UsesBatch (w.frozen saw) := by
  constructor
  · exact .graph h fun b hb => (by cases hb)
  · rintro ⟨b, hb, _⟩
    cases hb

section Routines
variable [DecidableEq K]

theorem plain_store {target : Buffer K} (hcreated : ∀ i, target ≠ .created i)
    (hentry : ∀ key, target.entryKey = some key → key ∈ books.primed) (d : D) :
    Plain books (.work .own (.store target d)) := by
  apply @plain_own K D 0
  · intro b hb
    cases hb
  · rintro b rfl
    exact ⟨hcreated, hentry⟩

theorem plain_copy {source target : Buffer K} (hsource : Readable arity books source)
    (htarget : (∀ i, target ≠ .created i) ∧ target.entryKey = none) (convert : D → D) :
    Plain books (.work .own (.copy source target convert)) := by
  apply @plain_own K D arity
  · rintro b rfl
    exact hsource
  · rintro b rfl
    refine ⟨htarget.1, fun key he => ?_⟩
    rw [htarget.2] at he
    cases he

/-- A routine that neither captures nor replays. -/
def Routine.plain : Routine K D → Bool
  | captureBucket .. | replayCudaGraphEntry .. => false
  | _ => true

theorem plain_issue {routine : Routine K D} (hplain : routine.plain = true) (hallowed : routine.Allowed arity books)
    {replay : Nat} (hop : op ∈ routine.issue arity graph replay) : Plain books op := by
  cases routine with
  | create tensors =>
    obtain ⟨j, d, rfl⟩ := mem_storesFrom hop
    apply Plain.loading
    constructor
    rintro b (hb | rfl)
    · cases hb
    · exact ⟨j, rfl⟩
  | collect fills synced =>
    rcases List.mem_append.mp hop with hop | hop
    · obtain ⟨fill, _, rfl⟩ := mem_stores hop
      exact plain_store (by simp) (by simp [Buffer.entryKey]) fill.2
    · rw [mem_drained hop]
      exact .synchronize _
  | prestage key fills synced =>
    rcases List.mem_append.mp hop with hop | hop
    · obtain ⟨fill, _, rfl⟩ := mem_stores hop
      apply plain_store (by simp)
      intro key' hkey'
      cases hkey'
      exact hallowed
    · rw [mem_drained hop]
      exact .synchronize _
  | padRequestsUp pads =>
    obtain ⟨j, pad, rfl⟩ := mem_padsFrom hop
    exact plain_copy (.batch (.gathered j) : Readable arity books _) ⟨by simp, rfl⟩ pad
  | captureBucket | replayCudaGraphEntry => cases hplain
  | run inputs model =>
    rcases List.mem_cons.mp hop with rfl | hop
    · apply @plain_own K D arity
      · exact hallowed
      · intro b hb
        cases b with
        | eager => exact ⟨by simp, by simp [Buffer.entryKey]⟩
        | _ => cases hb
    · rw [List.mem_singleton.mp hop]
      exact .synchronize _
  | readOutputTensors batch outputs synced =>
    rcases List.mem_append.mp hop with hop | hop
    · obtain ⟨j, _, c, hc, rfl⟩ := mem_copiesFrom hop
      exact plain_copy (hallowed c hc) ⟨by simp, rfl⟩ c.2
    · rw [mem_drained hop]
      exact .synchronize _

/-! #### On a graph's stream -/

variable {key : K}

theorem entry_copies {copies : List (Buffer K × (D → D))} {i : Nat}
    (h : op ∈ copiesFrom (.graph key) (.staticInput key) i copies) :
    ∃ w, op = .work (.graph key) w ∧ (∀ b ∈ w.writes, b.entryKey = some key) ∧
      ∀ b ∈ w.reads, ∃ c ∈ copies, b = c.1 := by
  obtain ⟨j, _, c, hc, rfl⟩ := mem_copiesFrom h
  refine ⟨_, rfl, ?_, ?_⟩
  · rintro b rfl
    rfl
  · rintro b rfl
    exact ⟨c, hc, rfl⟩

variable (arity graph key) in
theorem entry_launch : ∃ w, launch arity graph key = (.work (.graph key) w : DeviceOp K D) ∧
    (∀ b ∈ w.writes, b.entryKey = some key) ∧ ∀ b ∈ w.reads, b.entryKey = some key := by
  refine ⟨_, rfl, ?_, ?_⟩
  · intro b hb
    obtain ⟨f, hf⟩ := Option.isSome_iff_exists.mp hb
    cases b with
    | staticOutput key' j =>
      simp only at hf
      split at hf
      · rename_i hkey
        rw [Buffer.entryKey, hkey]
      · cases hf
    | _ => cases hf
  · intro b hb
    obtain ⟨i, _, rfl⟩ := List.mem_map.mp hb
    rfl

variable (arity graph key) in
theorem entry_warmRun : ∃ w, warmRun arity graph key = (.work (.graph key) w : DeviceOp K D) ∧
    ∀ b ∈ w.writes, b.entryKey = some key := by
  refine ⟨_, rfl, ?_⟩
  intro b hb
  obtain ⟨f, hf⟩ := Option.isSome_iff_exists.mp hb
  cases b with
  | scratch key' =>
    simp only at hf
    split at hf
    · rename_i hkey
      rw [Buffer.entryKey, hkey]
    · cases hf
  | _ => cases hf

/-- What a capture issues writes its own entry. -/
theorem entry_captureOps {sources : List (Buffer K)} (h : op ∈ captureOps arity graph key sources) :
    op = .synchronize (.graph key) ∨ ∃ w, op = .work (.graph key) w ∧ ∀ b ∈ w.writes, b.entryKey = some key := by
  rcases List.mem_append.mp h with h | h
  · obtain ⟨w, rfl, hwrites, _⟩ := entry_copies h
    exact .inr ⟨w, rfl, hwrites⟩
  · simp only [List.mem_cons, List.not_mem_nil, or_false, or_self, or_self_left] at h
    rcases h with rfl | rfl
    · obtain ⟨w, hw, hwrites⟩ := entry_warmRun arity graph key
      exact .inr ⟨w, hw, hwrites⟩
    · exact .inl rfl

/-- The work of a routine that is not ordered behind what it reads. -/
def Routine.races : Routine K D → DeviceOp K D → Bool
  | captureBucket .., .work .. | replayCudaGraphEntry _ _ (some _), .work .. => true
  | _, _ => false

/-- What a routine issues, as it was in some run. -/
def Routine.Versions (arity : Nat) (graph : K → List D → Nat → D) (replay : Nat) (routine : Routine K D)
    (q : List (DeviceOp K D)) : Prop :=
  List.Forall₂ (Version Op.frozen) ((routine.issue arity graph replay).map fun op => (op, routine.races op)) q

theorem mem_of_take {thrown : Option Nat} {sources : List (Buffer K)} {replay : Nat}
    (h : op ∈ (Routine.captureBucket key sources thrown).issue arity graph replay) :
    op ∈ captureOps arity graph key sources := by
  cases thrown with
  | none => exact h
  | some issued => exact List.mem_of_mem_take h

/-- A capture, as it was in some run, reads nothing of the batch. -/
theorem loose_capture {thrown : Option Nat} {sources : List (Buffer K)} {replay : Nat} {q : List (DeviceOp K D)}
    (hq : (Routine.captureBucket key sources thrown).Versions arity graph replay q) : ∀ op ∈ q, Loose key op := by
  intro op hop
  obtain ⟨⟨op₀, mark⟩, hmem, hversion⟩ := Slots.exists_left_of_mem hq hop
  obtain ⟨_, hissued, heq⟩ := List.mem_map.mp hmem
  cases heq
  rcases entry_captureOps (mem_of_take hissued) with rfl | ⟨w, rfl, hwrites⟩
  · cases hversion
    exact .synchronize _
  · cases hversion with
    | fixed _ saw =>
      obtain ⟨hplaced, hbatch⟩ := placed_frozen hwrites saw
      exact .work hplaced hbatch

/-- So do the copies of a replay that throws. -/
theorem loose_thrown {copies : List (Buffer K × (D → D))} {issued replay : Nat} {q : List (DeviceOp K D)}
    (hq : (Routine.replayCudaGraphEntry key copies (some issued)).Versions arity graph replay q) :
    ∃ loose, q = awaitInputs replay key ++ loose ∧ (loose = [] ↔ copies.take issued = []) ∧
      ∀ op ∈ loose, ∃ w, op = .work (.graph key) w ∧ Stationed (.graph key) w ∧ ¬ UsesBatch w := by
  rw [Routine.Versions, Routine.issue, List.map_append] at hq
  obtain ⟨await, loose, hawait, hcopies, rfl⟩ := forall₂_append_left hq
  refine ⟨loose, ?_, ?_, ?_⟩
  · cases hawait with
    | cons hfirst hrest =>
      cases hfirst
      cases hrest with
      | cons hsecond hnil =>
        cases hsecond
        cases hnil
        rfl
  · have hlen := hcopies.length_eq
    rw [List.length_map, length_copiesFrom] at hlen
    rw [← List.length_eq_zero_iff, ← hlen, List.length_eq_zero_iff]
  · intro op hop
    obtain ⟨⟨op₀, mark⟩, hmem, hversion⟩ := Slots.exists_left_of_mem hcopies hop
    obtain ⟨_, hissued, heq⟩ := List.mem_map.mp hmem
    cases heq
    obtain ⟨w, rfl, hwrites, _⟩ := entry_copies hissued
    cases hversion with
    | fixed _ saw => exact ⟨_, rfl, placed_frozen hwrites saw⟩

/-- Nothing races in a replay that is launched. -/
theorem versions_launched {copies : List (Buffer K × (D → D))} {replay : Nat} {q : List (DeviceOp K D)}
    (hq : (Routine.replayCudaGraphEntry key copies none).Versions arity graph replay q) :
    q = awaitInputs replay key ++ (copiesFrom (.graph key) (.staticInput key) 0 copies ++ [launch arity graph key]) ++
      [.record (.graph key) (.outputs replay), .wait .own (.outputs replay)] := by
  have hkept : q = (Routine.replayCudaGraphEntry key copies none).issue arity graph replay :=
    versions_kept (fun op _ => by cases op <;> rfl) hq
  simp [hkept, Routine.issue, launchAndAwait]

theorem versions_plain {routine : Routine K D} (hplain : routine.plain = true) {replay : Nat} {q : List (DeviceOp K D)}
    (hq : routine.Versions arity graph replay q) : q = routine.issue arity graph replay := by
  apply versions_kept _ hq
  intro op _
  cases routine <;> simp_all [Routine.races, Routine.plain]

theorem after_plain {routine : Routine K D} (hplain : routine.plain = true) : routine.after books = books := by
  cases routine <;> simp_all [Routine.after, Routine.plain]

/-- **A routine leaves what the host relies on**, whatever its racing work saw. -/
theorem ordering_routine {stream : Port K → S} {l q : List (DeviceOp K D)} {routine : Routine K D} {replay : Nat}
    (h : Ordering stream books l) (hallowed : routine.Allowed arity books)
    (hq : routine.Versions arity graph replay q) : Ordering stream (routine.after books) (l ++ q) := by
  by_cases hplain : routine.plain = true
  · rw [versions_plain hplain hq, after_plain hplain]
    exact h.plains fun op hop => plain_issue hplain hallowed hop
  · cases routine with
    | captureBucket key sources thrown => exact h.capture hallowed (loose_capture hq)
    | replayCudaGraphEntry key copies thrown =>
      obtain ⟨hkey, hof, _⟩ := hallowed
      cases thrown with
      | none =>
        rw [versions_launched hq]
        apply h.replayed hkey
        intro op hop
        rcases List.mem_append.mp hop with hop | hop
        · obtain ⟨w, rfl, hwrites, hreads⟩ := entry_copies hop
          refine ⟨w, rfl, .graph hwrites fun b hb => ?_⟩
          obtain ⟨c, hc, rfl⟩ := hreads b hb
          exact .inr (hof c hc)
        · obtain ⟨w, hw, hwrites, hreads⟩ := entry_launch arity graph key
          rw [List.mem_singleton.mp hop]
          exact ⟨w, hw, .graph hwrites fun b hb => .inl (hreads b hb)⟩
      | some issued =>
        obtain ⟨loose, rfl, hnil, hloose⟩ := loose_thrown hq
        have hthrown : Ordering stream _ (l ++ (awaitInputs replay key ++ loose)) := h.thrown hkey hloose
        simp only [hnil] at hthrown
        exact hthrown
    | _ => simp [Routine.plain] at hplain

end Routines
end Members

end TritonAot
