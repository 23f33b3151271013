import TritonAot.Graph.Captures
import TritonAot.Instance.Counts
import TritonAot.Instance.Replays
import TritonAot.Instance.Representation

/-! The life of a prestaged entry.

`ProcessRequests` resolves it, `SetInputTensors` keeps or drops it, the width check
drops it with the cache, and the fast path takes it. Whenever it is taken, it is the
entry that this batch resolved and filled. That the request count is then the sum of
the batch sizes rests on the representation invariant: the views of the batch have a
row for each request exactly where the shortest static input has one for each slot. -/
namespace TritonAot

open Attempts Slots

variable {E : Type} [Scalars E]

/-! ### What the width check leaves of it -/

/-- The model inputs of a prestaged batch have `total` rows for each slot of a buffer. -/
theorem SlotsInto.leads {cfg : Config E} {total b : Nat} {requests : List (Request E)}
    {e : CudaGraphEntry E} {statics inputs : List (Tensor E)} {tensors : List (Option (Tensor E))}
    (hviable : Viable cfg (declaredInputs cfg total requests) total b e)
    (hlike : AllLike statics e.staticInputs)
    (h : SlotsInto cfg total b (declaredInputs cfg total requests) e.staticInputs statics tensors)
    (htensors : tensors = inputs.map some) {i : Nat} {t : Tensor E} (ht : inputs[i]? = some t) :
    ∃ st n, e.staticInputs[i]? = some st ∧ Leads st n ∧ b ∣ n ∧ Leads t (total * (n / b)) := by
  obtain ⟨ws, vs, hws, hvs, hw⟩ := h.writes
  rcases slot_written hws hvs (htensors.symm.trans hw) ht with
    ⟨info, hinfo, hindex, j, st, mid, t', hj, hst, hmid, hview, ht'⟩ |
    ⟨target, htarget, hindex, j, st, t', hj, hst, hview, ht'⟩
  · cases ht'
    obtain rfl : j = i := by exact_mod_cast hj.symm.trans hindex
    obtain ⟨k, st', hk, hst', hl⟩ := hviable.declared info hinfo
    obtain rfl : k = j := by
      rw [Config.indexOf, hk, Option.getD_some] at hj
      exact_mod_cast hj
    rw [hst] at hst'
    cases hst'
    obtain ⟨size, rest, hs, hdvd⟩ := hl.size
    exact ⟨st, size, hst, ⟨rest, hs⟩, hdvd, rest, (prestagedView_some (hmid.shape.trans hs) hview).2.1⟩
  · cases ht'
    obtain rfl : j = i := by exact_mod_cast hj.symm.trans hindex
    obtain ⟨k, st', size, rest, hk, hst', hs, hdvd⟩ := hviable.targets target htarget
    obtain rfl : k = j := by
      rw [Config.indexOf, hk, Option.getD_some] at hj
      exact_mod_cast hj
    obtain ⟨st'', hst'', hsame⟩ := hlike.get hst
    rw [hst'] at hst''
    cases hst''
    exact ⟨st', size, hst', ⟨rest, hs⟩, hdvd, rest, (prestagedView_some (hsame.shape.trans hs) hview).2.1⟩

/-- So the shortest of them has a row for each request. -/
theorem requestCount_prestaged {total b r : Nat} {statics : List (Tensor E)} {t0 t1 t2 : Tensor E}
    (hb : 0 < b) (hbucket : Bucketed b statics)
    (hleads : ∀ (i : Nat) (t : Tensor E), [t0, t1, t2][i]? = some t →
      ∃ st n, statics[i]? = some st ∧ Leads st n ∧ b ∣ n ∧ Leads t (total * (n / b)))
    (hr : requestCount t0 t1 t2 = .ok r) : r = total := by
  obtain ⟨hle, t, ht, hleast⟩ := requestCount_ok hr
  refine Nat.le_antisymm ?_ ?_
  · -- the input over the shortest buffer has no more rows
    obtain ⟨st, hst, n, hn, hnb⟩ := hbucket.least
    obtain ⟨i, hi⟩ := List.mem_iff_getElem?.mp hst
    obtain ⟨hlt, _⟩ := List.getElem?_eq_some_iff.mp hi
    have hlt' : i < [t0, t1, t2].length := by
      rw [hbucket.three] at hlt
      exact hlt
    obtain ⟨st', m, hst', hm, _, hlead⟩ := hleads i _ (List.getElem?_eq_getElem hlt')
    rw [hi] at hst'
    cases hst'
    obtain rfl : m = b := by
      have := hm.unique hn
      omega
    obtain ⟨k, hk, hrk⟩ := hle _ (List.getElem_mem hlt')
    rw [Nat.div_self hb, Nat.mul_one] at hlead
    rwa [hk.unique hlead] at hrk
  · -- and no input has fewer
    obtain ⟨i, hi⟩ := List.mem_iff_getElem?.mp ht
    obtain ⟨st, m, hst, hm, hdvd, hlead⟩ := hleads i t hi
    obtain ⟨k, hk, hbk⟩ := hbucket.le st (List.mem_of_getElem? hst)
    have hbm : b ≤ m := by
      have := hk.unique hm
      omega
    rw [hleast.unique hlead]
    exact Nat.le_mul_of_pos_right _ (Nat.div_pos hbm hb)

/-- The bucket that a batch is collected into holds it. -/
theorem prestaged_holds {cfg : Config E} {chance : InputChance} {total : Nat} {requests : List (Request E)}
    {s : GraphState E} {responses : Responses} {c : Collecting E} {key : String}
    (hset : setInputTensors cfg chance total requests s responses = .ok (c, none))
    (hkey : c.state.prestagedEntry = some key) : (total : Int) ≤ c.state.prestagedBucket := by
  cases setInputTensors_slots hset with
  | beside hnone =>
    rw [hnone] at hkey
    cases hkey
  | into hpre hbucket he hviable hfill hrest hslots =>
    rw [hrest.bucket, hbucket]
    exact_mod_cast hviable.le

/-- A prestaged batch is counted as it is. -/
theorem prestaged_count {cfg : Config E} {chance : InputChance} {total r : Nat} {requests : List (Request E)}
    {s : GraphState E} {responses : Responses} {c : Collecting E} {t0 t1 t2 : Tensor E} {key : String}
    (hs : EntriesAt Bucketed s.cudaGraphCache)
    (hset : setInputTensors cfg chance total requests (prestage cfg total false s) responses = .ok (c, none))
    (hmap : c.tensors = [t0, t1, t2].map some) (hr : requestCount t0 t1 t2 = .ok r)
    (hkey : c.state.prestagedEntry = some key) : r = total := by
  cases setInputTensors_slots hset with
  | beside hnone =>
    rw [hnone] at hkey
    cases hkey
  | @into key' b e statics hpre hbucket he hviable hfill hrest hslots =>
    have hready := prestage_ready hpre
    rw [hbucket] at hready
    rw [prestage_cache] at he
    have hb : 0 < b := Nat.lt_of_lt_of_le hviable.pos hviable.le
    have hentry : Bucketed b e.staticInputs := hs b e ((findReady_found hready).1 ▸ he)
    exact requestCount_prestaged hb hentry
      (fun i t ht => hslots.leads hviable (fillAll_like hfill) hmap ht) hr

/-! ### The entry that the fast path takes -/

end TritonAot
