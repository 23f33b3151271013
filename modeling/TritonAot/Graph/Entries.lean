import TritonAot.Graph.Attempt

/-! What every entry of the cache satisfies.

An entry is stored by a capture and changed by the copies of a replay, and by
nothing else on the graph path. `Entries P` says that the static inputs of every
bucket satisfy `P`; the lemmas say which tensors a call stores, and where it
copies into which entry (`Prepared`), so that keeping `P` comes to two questions:
whether what is captured satisfies it, and whether the copies keep it. -/
namespace TritonAot

open Dense

variable {E : Type} [Scalars E]

/-- The static inputs of every bucket in the cache satisfy the property. -/
def EntriesAt (P : Int → List (Tensor E) → Prop) (cache : Cache E) : Prop :=
  ∀ (b : Int) (e : CudaGraphEntry E), cache.lookup (bucketKey b) = some e → P b e.staticInputs

namespace EntriesAt
variable {P : Int → List (Tensor E) → Prop} {cache : Cache E}

theorem empty (P : Int → List (Tensor E) → Prop) : EntriesAt P (∅ : Cache E) := by
  intro b e he
  rw [AList.lookup_empty] at he
  cases he

theorem insert (h : EntriesAt P cache) {key : String} {e : CudaGraphEntry E}
    (hnew : ∀ b, key = bucketKey b → P b e.staticInputs) : EntriesAt P (cache.insert key e) := by
  intro b e' he
  by_cases hk : key = bucketKey b
  · rw [hk, AList.lookup_insert] at he
    cases he
    exact hnew b hk
  · rw [AList.lookup_insert_ne (Ne.symm hk)] at he
    exact h b e' he

theorem emplace (h : EntriesAt P cache) {key : String} {e : CudaGraphEntry E}
    (hnew : ∀ b, key = bucketKey b → P b e.staticInputs) : EntriesAt P (TritonAot.emplace cache key e) := by
  unfold TritonAot.emplace
  split
  · exact h
  · exact h.insert hnew

/-- The warmup stores the tensors it makes. -/
theorem warmupFrom {forward : List (Tensor E) → List (Tensor E)} {capture : Int → Option Bool}
    {singleWidth multiWidth : Int} {buckets : List Int} {s : GraphState E}
    (h : EntriesAt P s.cudaGraphCache)
    (hnew : ∀ (b : Int) (inputs : List (Tensor E)), warmupInputs b singleWidth multiWidth = .ok inputs →
      P b inputs) :
    EntriesAt P (TritonAot.warmupFrom forward capture singleWidth multiWidth buckets s).1.cudaGraphCache := by
  induction buckets generalizing s with
  | nil => exact h
  | cons bucket rest ih =>
    rw [TritonAot.warmupFrom]
    split
    · rename_i inputs captured hinputs _
      refine ih ?_
      cases captured with
      | false => exact h
      | true =>
        refine h.emplace fun b hk => ?_
        rw [bucketKey_inj.mp hk] at hinputs
        exact hnew b inputs hinputs
    · exact ih h

end EntriesAt

/-- The static inputs of every positive bucket in the cache satisfy the property. -/
def Entries (P : Nat → List (Tensor E) → Prop) (cache : Cache E) : Prop :=
  ∀ (b : Nat) (e : CudaGraphEntry E), 0 < b → cache.lookup (bucketKey b) = some e → P b e.staticInputs

/-- A property of positive buckets, as one of all buckets. -/
def AtPositive (P : Nat → List (Tensor E) → Prop) (b : Int) (statics : List (Tensor E)) : Prop :=
  ∀ n : Nat, 0 < n → b = n → P n statics

theorem entries_iff {P : Nat → List (Tensor E) → Prop} {cache : Cache E} :
    Entries P cache ↔ EntriesAt (AtPositive P) cache := by
  constructor
  · rintro h b e he n hn rfl
    exact h n e hn he
  · exact fun h n e hn he => h n e he n hn rfl

namespace Entries
variable {P : Nat → List (Tensor E) → Prop}

theorem empty (P : Nat → List (Tensor E) → Prop) : Entries P (∅ : Cache E) :=
  entries_iff.mpr (.empty _)

/-- The warmup stores the tensors it makes. -/
theorem warmupFrom {forward : List (Tensor E) → List (Tensor E)} {capture : Int → Option Bool}
    {singleWidth multiWidth : Int} {buckets : List Int} {s : GraphState E} (h : Entries P s.cudaGraphCache)
    (hnew : ∀ (b : Nat) (inputs : List (Tensor E)), 0 < b →
      warmupInputs b singleWidth multiWidth = .ok inputs → P b inputs) :
    Entries P (TritonAot.warmupFrom forward capture singleWidth multiWidth buckets s).1.cudaGraphCache :=
  entries_iff.mpr ((entries_iff.mp h).warmupFrom fun _ inputs hinputs n hn hb =>
    hnew n inputs hn (hb ▸ hinputs))

end Entries

/-! ### What the selection stores -/

/-- The selection stores at most one entry: the batch at the bucket it selects,
where nothing was cached. -/
theorem Selects.cache {forward : List (Tensor E) → List (Tensor E)} {capture : Int → Bool}
    {pad : Int → Except Fault (List (Tensor E))} {inputs : List (Tensor E)} {r : Int} {cands : List Int}
    {s s' : GraphState E} {value : Except Fault (Option (Selected E))} {events : List (Event E)}
    (h : Selects forward capture pad inputs r cands s value s' events) :
    (s'.cudaGraphCache = s.cudaGraphCache ∧ ∀ sel, value = .ok (some sel) →
        ∃ e, s.cudaGraphCache.lookup (bucketKey sel.bucket) = some e) ∨
      ∃ sel, value = .ok (some sel) ∧ s.cudaGraphCache.lookup (bucketKey sel.bucket) = none ∧
        s'.cudaGraphCache = emplace s.cudaGraphCache (bucketKey sel.bucket)
          ⟨sel.inputsAtBucket, forward sel.inputsAtBucket⟩ := by
  induction h with
  | exhausted | fault => exact .inl ⟨rfl, fun sel hsel => (by cases hsel)⟩
  | failed _ _ ih | missed _ _ _ _ _ ih => exact ih
  | cached _ _ found => exact .inl ⟨rfl, fun sel hsel => (by cases hsel; exact ⟨_, found⟩)⟩
  | captured _ _ missing _ => exact .inr ⟨_, rfl, missing, rfl⟩

/-- The width check keeps the cache, or empties it and drops the prestaged entry. -/
theorem checkWarmupWidths_cache (cfg : GraphConfig) (t0 t1 : Tensor E) (r : Nat) (s : GraphState E) :
    let s' := (checkWarmupWidths cfg t0 t1 r s).1
    (s'.cudaGraphCache = s.cudaGraphCache ∧ s'.prestagedEntry = s.prestagedEntry ∧
        s'.prestagedBucket = s.prestagedBucket) ∨
      s'.cudaGraphCache = ∅ ∧ s'.prestagedEntry = none := by
  rcases checkWarmupWidths_cases cfg t0 t1 r s with ⟨_, h⟩ | h
  · rw [h]
    exact .inr ⟨rfl, rfl⟩
  · rw [h]
    exact .inl ⟨rfl, rfl, rfl⟩

/-! ### The entry of an attempted replay -/

/-- How a call comes to the entry it replays: the batch was collected into it, or
the selection found it, or it was captured on the batch at the bucket, perhaps after
the cache was emptied. -/
inductive Prepared (forward : List (Tensor E) → List (Tensor E)) (s : GraphState E) (a : Attempt E) :
    Prop where
  | prestaged (entry : s.prestagedEntry = some a.key) (bucket : s.prestagedBucket = a.bucket)
      (copyFrom : a.copyFrom = none) (cache : a.state.cudaGraphCache = s.cudaGraphCache)
  | found {atBucket : List (Tensor E)} {e : CudaGraphEntry E} (copyFrom : a.copyFrom = some atBucket)
      (key : a.key = bucketKey a.bucket) (slow : s.prestagedEntry = none)
      (cache : a.state.cudaGraphCache = s.cudaGraphCache) (entry : s.cudaGraphCache.lookup a.key = some e)
  | captured {atBucket : List (Tensor E)} {before : Cache E} (copyFrom : a.copyFrom = some atBucket)
      (key : a.key = bucketKey a.bucket)
      (kept : before = s.cudaGraphCache ∧ s.prestagedEntry = none ∨ before = ∅)
      (fresh : before.lookup a.key = none)
      (cache : a.state.cudaGraphCache = emplace before a.key ⟨atBucket, forward atBucket⟩)

theorem attempted_prepared {cfg : GraphConfig} {forward : List (Tensor E) → List (Tensor E)}
    {chance : Chance} {inputs : List (Tensor E)} {s : GraphState E} {a : Attempt E}
    (h : attempted cfg forward chance inputs s = some a) : Prepared forward s a := by
  unfold attempted at h
  split at h
  · rename_i t0 t1 t2
    split at h
    · cases h
    · rename_i r _
      have hcheck := checkWarmupWidths_cache cfg t0 t1 r s
      generalize (checkWarmupWidths cfg t0 t1 r s).1 = mid at h hcheck
      simp only at hcheck
      unfold attemptedFrom at h
      split at h
      · rename_i key hkey
        cases h
        rcases hcheck with ⟨hcache, hentry, hbucket⟩ | ⟨_, hnone⟩
        · exact .prestaged (hentry ▸ hkey) hbucket.symm rfl hcache
        · rw [hkey] at hnone
          cases hnone
      · rename_i hnone
        split at h
        · rename_i selected s' events hsel
          cases h
          rcases (selects_selectBucket hsel).cache with ⟨hcache, hfound⟩ | ⟨sel, hsel', hfresh, hcache⟩
          · obtain ⟨e, he⟩ := hfound _ rfl
            rcases hcheck with ⟨hkept, hentry, _⟩ | ⟨hempty, _⟩
            · exact .found rfl rfl (hentry ▸ hnone) (hcache.trans hkept) (hkept ▸ he)
            · rw [hempty, AList.lookup_empty] at he
              cases he
          · cases hsel'
            rcases hcheck with ⟨hkept, hentry, _⟩ | ⟨hempty, _⟩
            · exact .captured rfl rfl (.inl ⟨hkept, hentry ▸ hnone⟩) hfresh hcache
            · exact .captured rfl rfl (.inr hempty) hfresh hcache
        · cases h
  · cases h

/-- Where a prestaged batch comes to copies after all, the cache was emptied, and a
bucket of its own size is captured on the batch itself. -/
theorem attempted_evicted {cfg : GraphConfig} {forward : List (Tensor E) → List (Tensor E)}
    {chance : Chance} {inputs : List (Tensor E)} {s : GraphState E} {a : Attempt E} {key : String}
    {e : CudaGraphEntry E} (h : attempted cfg forward chance inputs s = some a) (hcopy : a.copyFrom ≠ none)
    (hkey : s.prestagedEntry = some key) (hown : a.bucket = a.r)
    (he : a.state.cudaGraphCache.lookup a.key = some e) : e.staticInputs = inputs := by
  cases attempted_prepared h with
  | prestaged _ _ hnone => exact absurd hnone hcopy
  | found _ _ hslow =>
    rw [hslow] at hkey
    cases hkey
  | captured hat _ _ hfresh hcache =>
    rw [hcache, lookup_emplace_self hfresh] at he
    cases he
    obtain ⟨_, _, _, r, rfl, _, hr, _, _, hpad⟩ := attempted_slow h hat
    rw [hown, hr, if_pos rfl] at hpad
    exact (Except.ok.inj hpad).symm

/-! ### What a replay stores -/

/-- What the copies leave, also where they stop early: a buffer as it was, or the
tensor copied into it, those before it having been copied. -/
theorem copyInputs_each {fault : Nat → Option String} {i : Nat} {statics srcs statics' : List (Tensor E)}
    {result : Except Fault Unit} (h : copyInputs fault i statics srcs = (result, statics')) :
    List.Forall₂ (fun u st => u.shape = st.shape) statics' statics ∧
      ∀ (j : Nat) (st : Tensor E), statics[j]? = some st → statics'[j]? = some st ∨
        ∃ src u, srcs[j]? = some src ∧ statics'[j]? = some u ∧ st.copy_ src = .ok u ∧
          ∀ (k : Nat) (p s : Tensor E), k < j → srcs[k]? = some p → statics[k]? = some s →
            Expands p.shape s.shape := by
  induction srcs generalizing i statics statics' result with
  | nil =>
    rw [copyInputs_nil] at h
    cases h
    exact ⟨List.forall₂_same.mpr fun _ _ => rfl, fun j st hj => .inl hj⟩
  | cons src rest ih =>
    cases statics with
    | nil =>
      cases h
      exact ⟨.nil, fun j st hj => (by cases hj)⟩
    | cons st statics =>
      rw [copyInputs] at h
      split at h
      · cases h
        exact ⟨List.forall₂_same.mpr fun _ _ => rfl, fun j st hj => .inl hj⟩
      · rename_i st' hst
        obtain ⟨_, _, hcopy⟩ := bind_ok.mp hst
        cases hrest : copyInputs fault (i + 1) statics rest with
        | mk result' t =>
          rw [hrest] at h
          cases h
          obtain ⟨hshapes, hall⟩ := ih hrest
          refine ⟨.cons (Tensor.copy_ok hcopy).2.2.2.1 hshapes, fun j s hj => ?_⟩
          cases j with
          | zero =>
            cases hj
            exact .inr ⟨src, st', rfl, rfl, hcopy, fun k p s hk => (by omega)⟩
          | succ j =>
            refine (hall j s hj).imp id ?_
            intro hparts
            obtain ⟨p, u, hp, hu, hpu, hbefore⟩ := hparts
            refine ⟨p, u, hp, hu, hpu, fun k p' s' hk hp' hs' => ?_⟩
            cases k with
            | zero =>
              cases hp'
              cases hs'
              exact (Tensor.copy_ok hcopy).1
            | succ k => exact hbefore k p' s' (by omega) hp' hs'

/-- A replay copies into the entry it is made on, or comes to nothing. -/
theorem replay_cache (forward : List (Tensor E) → List (Tensor E)) (chance : Chance) (a : Attempt E)
    (outputs : List (Tensor E)) :
    (a.replay forward chance outputs).state.cudaGraphCache = a.state.cudaGraphCache ∨
      ∃ e outs, a.state.cudaGraphCache.lookup a.key = some e ∧
        (a.replay forward chance outputs).state.cudaGraphCache = a.state.cudaGraphCache.insert a.key
          ⟨(copyInputs chance.copy 0 e.staticInputs (a.copyFrom.getD [])).2, outs⟩ := by
  obtain ⟨m, hm | ⟨e, outs, he, hm⟩⟩ := replay_leaves forward chance a.key a.r a.bucket a.copyFrom a.state outputs
  · left
    rw [Attempt.replay, hm]
  · refine .inr ⟨e, outs, he, ?_⟩
    rw [Attempt.replay, hm]
    rfl

/-- What `ExecuteWithCudaGraph` leaves in the cache where it comes to no replay. -/
theorem executeWithCudaGraph_none_cache {cfg : GraphConfig} {forward : List (Tensor E) → List (Tensor E)}
    {chance : Chance} {inputs : List (Tensor E)} {s : GraphState E}
    (h : attempted cfg forward chance inputs s = none) (outputs : List (Tensor E)) :
    let s' := (executeWithCudaGraph cfg forward chance inputs s outputs).state
    s'.cudaGraphCache = s.cudaGraphCache ∨ s'.cudaGraphCache = ∅ := by
  rcases executeWithCudaGraph_arity cfg forward chance inputs s outputs with ⟨t0, t1, t2, rfl⟩ | hother
  · unfold attempted at h
    unfold executeWithCudaGraph
    cases hr : requestCount t0 t1 t2 with
    | error f =>
      simp only [hr]
      exact .inl trivial
    | ok r =>
      simp only [hr] at h ⊢
      have hcheck := checkWarmupWidths_cache cfg t0 t1 r s
      generalize (checkWarmupWidths cfg t0 t1 r s).1 = mid at h hcheck ⊢
      have hmid : mid.cudaGraphCache = s.cudaGraphCache ∨ mid.cudaGraphCache = ∅ :=
        hcheck.imp And.left And.left
      unfold attemptedFrom at h
      unfold executeFrom
      cases hkey : mid.prestagedEntry with
      | some key =>
        rw [hkey] at h
        cases h
      | none =>
        simp only [hkey, executeSlow] at h ⊢
        cases hsel : selectBucket cfg.cudaGraphBatchSizes forward chance.capture (padRequestsUp chance.alloc [t0, t1, t2] r)
          [t0, t1, t2] r mid with
        | mk value p =>
          obtain ⟨s', events⟩ := p
          rw [hsel] at h
          rcases (selects_selectBucket hsel).cache with ⟨hcache, _⟩ | ⟨sel, rfl, _⟩
          · rw [← hcache] at hmid
            rcases value with f | ⟨_ | sel⟩
            · exact hmid
            · exact hmid
            · cases h
          · cases h
  · rw [hother]
    exact .inl rfl

/-- The cache that `ExecuteWithCudaGraph` leaves is that of the replay it comes to, if it does. -/
theorem executeWithCudaGraph_cache (cfg : GraphConfig) (forward : List (Tensor E) → List (Tensor E))
    (chance : Chance) (inputs : List (Tensor E)) (s : GraphState E) (outputs : List (Tensor E)) :
    let s' := (executeWithCudaGraph cfg forward chance inputs s outputs).state
    (s'.cudaGraphCache = s.cudaGraphCache ∨ s'.cudaGraphCache = ∅) ∨
      ∃ a, attempted cfg forward chance inputs s = some a ∧
        s'.cudaGraphCache = (a.replay forward chance outputs).state.cudaGraphCache := by
  cases ha : attempted cfg forward chance inputs s with
  | none => exact .inl (executeWithCudaGraph_none_cache ha outputs)
  | some a =>
    obtain ⟨before, _, hcall⟩ := executeWithCudaGraph_some ha outputs
    exact .inr ⟨a, rfl, by rw [hcall]⟩

/-- **A call keeps what every entry satisfies** where what it captures satisfies it
and the copies into the entry it replays keep it. -/
theorem EntriesAt.executeWithCudaGraph {P : Int → List (Tensor E) → Prop} {cfg : GraphConfig}
    {forward : List (Tensor E) → List (Tensor E)} {chance : Chance} {inputs : List (Tensor E)}
    {s : GraphState E} (hs : EntriesAt P s.cudaGraphCache)
    (hslow : ∀ a atBucket e, attempted cfg forward chance inputs s = some a →
      a.copyFrom = some atBucket → a.state.cudaGraphCache.lookup a.key = some e →
      (e.staticInputs = atBucket ∨ s.prestagedEntry = none ∧ s.cudaGraphCache.lookup a.key = some e ∧
        P a.bucket e.staticInputs) →
      P a.bucket e.staticInputs ∧ P a.bucket (copyInputs chance.copy 0 e.staticInputs atBucket).2)
    (outputs : List (Tensor E)) :
    EntriesAt P (TritonAot.executeWithCudaGraph cfg forward chance inputs s outputs).state.cudaGraphCache := by
  rcases executeWithCudaGraph_cache cfg forward chance inputs s outputs with (hx | hx) | ⟨a, ha, hx⟩
  · rw [hx]
    exact hs
  · rw [hx]
    exact .empty P
  · rw [hx]
    cases attempted_prepared ha with
    | prestaged _ _ hcopy hcache =>
      rcases replay_cache forward chance a outputs with hr | ⟨e, outs, he, hr⟩
      · rw [hr, hcache]
        exact hs
      · rw [hr, hcache, hcopy]
        refine hs.insert fun b hk => ?_
        rw [Option.getD_none, copyInputs_nil]
        exact hs b e (by rw [← hk, ← hcache, he])
    | @found atBucket e hcopy hkey hnone hcache hentry =>
      rcases replay_cache forward chance a outputs with hr | ⟨e', outs, he, hr⟩
      · rw [hr, hcache]
        exact hs
      · rw [hr, hcache, hcopy, Option.getD_some]
        refine hs.insert fun b hk => ?_
        obtain rfl : a.bucket = b := bucketKey_inj.mp (hkey.symm.trans hk)
        rw [hcache, hentry] at he
        cases he
        exact (hslow a atBucket e ha hcopy (hcache ▸ hentry)
          (.inr ⟨hnone, hentry, hs _ e (hk ▸ hentry)⟩)).2
    | @captured atBucket before hcopy hkey hkept hfresh hcache =>
      have hbefore : EntriesAt P before := by
        rcases hkept with ⟨rfl, _⟩ | rfl
        · exact hs
        · exact .empty P
      have hentry : a.state.cudaGraphCache.lookup a.key = some ⟨atBucket, forward atBucket⟩ := by
        rw [hcache]
        exact lookup_emplace_self hfresh _
      have hnew := hslow a atBucket _ ha hcopy hentry (.inl rfl)
      have hat : ∀ b, a.key = bucketKey b → a.bucket = b := fun b hk =>
        bucketKey_inj.mp (hkey.symm.trans hk)
      have ha' : EntriesAt P a.state.cudaGraphCache := by
        rw [hcache]
        refine hbefore.emplace fun b hk => ?_
        rw [← hat b hk]
        exact hnew.1
      rcases replay_cache forward chance a outputs with hr | ⟨e, outs, he, hr⟩
      · rw [hr]
        exact ha'
      · rw [hr, hcopy, Option.getD_some]
        refine ha'.insert fun b hk => ?_
        rw [hentry] at he
        cases he
        rw [← hat b hk]
        exact hnew.2

theorem Entries.execute {P : Nat → List (Tensor E) → Prop} {cfg : GraphConfig}
    {forward : List (Tensor E) → List (Tensor E)} {chance : Chance} {inputs : List (Tensor E)}
    {s : GraphState E} {x : Executed E} (hs : Entries P s.cudaGraphCache)
    (h : TritonAot.execute cfg forward chance inputs s [] = .ok x)
    (hslow : ∀ a atBucket e, ∀ b : Nat, attempted cfg forward chance inputs s = some a →
      a.copyFrom = some atBucket → a.bucket = b → 0 < b → a.state.cudaGraphCache.lookup a.key = some e →
      (e.staticInputs = atBucket ∨
        s.prestagedEntry = none ∧ s.cudaGraphCache.lookup a.key = some e ∧ P b e.staticInputs) →
      P b e.staticInputs ∧ P b (copyInputs chance.copy 0 e.staticInputs atBucket).2) :
    Entries P x.state.cudaGraphCache := by
  rcases execute_leaves h with ⟨hx, _⟩ | ⟨hx, _⟩
  · rw [hx]
    exact hs
  rw [hx]
  refine entries_iff.mpr ((entries_iff.mp hs).executeWithCudaGraph (fun a atBucket e ha hcopy he hfrom => ?_) [])
  have hboth : ∀ n : Nat, 0 < n → a.bucket = n →
      P n e.staticInputs ∧ P n (copyInputs chance.copy 0 e.staticInputs atBucket).2 :=
    fun n hn hb => hslow a atBucket e n ha hcopy hb hn he
      (hfrom.imp id fun ⟨hnone, hentry, hp⟩ => ⟨hnone, hentry, hp n hn hb⟩)
  exact ⟨fun n hn hb => (hboth n hn hb).1, fun n hn hb => (hboth n hn hb).2⟩

end TritonAot
