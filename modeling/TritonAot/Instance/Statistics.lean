import TritonAot.Instance.Ownership

/-! The statistics that a batch reports.

Behind the responses `ProcessRequests` tells the server of every request whether it succeeded, and
of the batch unless all of it failed. Every step of a batch only ever sends errors (`Answers`), so
that a response that is still there at the end is sent without one: a request is reported as a
success exactly where it was answered without an error (`processRequests_statistics`). -/
namespace TritonAot

open Tokens

variable {E : Type} [Scalars E]

/-! ### The answers of a batch -/

/-- A response is in the slot of its request, or was sent with an error; where all have failed, none
is left. -/
structure Sound (n : Nat) (a : Answering) : Prop where
  length : a.responses.slots.length = n
  own : Own (fun note : Option TritonError => note.isSome = true) a.responses
  failed : a.allFailed = true → a.responses.Empty

theorem Sound.answers {n : Nat} {a a' : Answering} (h : Sound n a) (ha : Answers a a') : Sound n a' :=
  ⟨ha.refuses.length.trans h.length, h.own.spends ha.refuses, ha.failed h.failed⟩

theorem sound_newResponses (chance : RequestChance) (n : Nat) : Sound n ⟨newResponses chance n, false⟩ := by
  refine ⟨by simp [newResponses], ⟨?_, by simp [newResponses]⟩, fun hfailed => by cases hfailed⟩
  intro i a hi
  simp only [newResponses, List.getElem?_map] at hi
  cases hat : (List.range n)[i]? with
  | none => simp [hat] at hi
  | some j =>
    obtain ⟨_, hj⟩ := List.getElem?_eq_some_iff.mp hat
    simp only [List.getElem_range] at hj
    subst hj
    cases hnew : chance.responseNew i <;> simp [hat, hnew] at hi
    exact hi.symm

/-! ### What is reported -/

/-- A request whose response is still there is reported as a success. -/
theorem reported_iff {n : Nat} {v : Serving E} (h : Sound n v.answering) (total r : Nat) :
    (r, true) ∈ (reportStatistics n total v).requests ↔ (r, none) ∈ (finish n total v).responses.spent := by
  rw [finish, h.own.mem_spendAll (by simp)]
  simp only [reportStatistics, List.mem_map, List.mem_range, Prod.mk.injEq]
  constructor
  · rintro ⟨i, _, rfl, hsome⟩
    obtain ⟨a, ha⟩ := Option.isSome_iff_exists.mp hsome
    have hat := Option.join_eq_some_iff.mp ha
    rwa [h.own.slot i a hat] at hat
  · intro hslot
    obtain ⟨hr, _⟩ := List.getElem?_eq_some_iff.mp hslot
    rw [h.length] at hr
    exact ⟨r, hr, rfl, by rw [hslot]; rfl⟩

/-- The statistics of a call agree with its answers. -/
structure Truthful (served : Served E) : Prop where
  success : ∀ r, (r, true) ∈ served.statistics.requests ↔ (r, none) ∈ served.responses.spent
  ordered : served.statistics.requests = [] ∨ served.statistics.requests.map Prod.fst = served.released
  batch : served.statistics.batch = none → ∀ r, (r, none) ∉ served.responses.spent

/-- Where nothing is reported, nobody was answered without an error. -/
theorem Truthful.unreported {served : Served E} (h : served.statistics = .none_)
    (hnone : ∀ r, (r, none) ∉ served.responses.spent) : Truthful served where
  success r := by
    rw [h]
    exact ⟨fun hr => (by cases hr), fun hr => absurd hr (hnone r)⟩
  ordered := .inl (by rw [h]; rfl)
  batch := fun _ => hnone

theorem Truthful.finish {n : Nat} {v : Serving E} (h : Sound n v.answering) (total : Nat) :
    Truthful (finish n total v) where
  success := reported_iff h total
  ordered := .inr (by simp [TritonAot.finish, reportStatistics, Function.comp_def])
  batch := by
    intro hbatch r hr
    have hfailed : v.answering.allFailed = true := by
      by_contra hgo
      simp [TritonAot.finish, reportStatistics, hgo] at hbatch
    have hslot := (h.own.mem_spendAll (by simp) r).mp hr
    cases h.failed hfailed _ (List.mem_of_getElem? hslot)

/-- **What is reported is what was answered.** Whatever fails in a call that returns, a request is
reported as a success exactly where it was answered without an error; the requests are reported once
each, in the order in which they are released, or not at all; and where the batch is not reported,
none has succeeded. -/
theorem processRequests_statistics {cfg : Config E} {forward : List (Tensor E) → List (Tensor E)} {chance : RequestChance}
    {requests : List (Option (Request E))} {s : GraphState E} {served : Served E}
    (h : processRequests cfg forward chance requests s = .ok served) : Truthful served := by
  unfold processRequests at h
  cases hpresent : requests.mapM id with
  | none =>
    rw [hpresent] at h
    cases h
    exact .unreported rfl (by simp [respondWithError])
  | some qs =>
    rw [hpresent] at h
    obtain ⟨⟨total, a⟩, hcount, h⟩ := bind_ok.mp h
    have hsound := (sound_newResponses chance qs.length).answers (answers_countFrom hcount)
    simp only at h
    split at h
    · cases h
      refine .unreported rfl fun r hr => ?_
      cases (hsound.own.spent _ hr).1
    · obtain ⟨v, hserve, h⟩ := bind_ok.mp h
      cases h
      exact .finish (hsound.answers ((answers_checkBatchSize cfg total a).trans (answers_serve hserve))) total

/-- Of two requests the second gets no response. -/
theorem processRequests_statistics_pair :
    let chance := {RequestChance.smooth with responseNew := fun i => i = 0}
    let requests := [some (rowsRequest 1), some (rowsRequest 1)]
    ∃ served, processRequests oneInput id chance requests (.fresh Int) = .ok served ∧
      (0, none) ∈ served.responses.spent ∧ (0, true) ∈ served.statistics.requests ∧
        (1, true) ∉ served.statistics.requests := by
  intro chance requests
  have hserved : processRequests oneInput id chance requests (.fresh Int) = .ok _ := rfl
  have htruthful := processRequests_statistics hserved
  refine ⟨_, hserved, List.mem_singleton.mpr rfl, (htruthful.success 0).mpr ?_, fun h => ?_⟩
  · exact List.mem_singleton.mpr rfl
  · cases List.mem_singleton.mp ((htruthful.success 1).mp h)

end TritonAot
