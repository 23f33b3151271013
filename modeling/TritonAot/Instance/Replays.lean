import TritonAot.Instance.Lifecycle
import TritonAot.Instance.Packed

/-! The replays of a run, and what their static buffers hold.

An entry is found by its bucket alone. Between the batch at the bucket and the
tensors the graph was captured on stands only `copy_`, which throws where the
shapes cannot be broadcast, and otherwise repeats elements along axes of extent
one and converts to the buffer's type. The buffers hold the batch exactly where
it does neither. -/
namespace TritonAot

open Steps

variable {E : Type} [Scalars E]

/-! ### The replays of a call -/

/-- The batch of a call is collected into slots of model inputs. -/
structure Gathers (cfg : Config E) (s : GraphState E) (call : Call E) (requests : List (Request E))
    (total : Nat) (c : Collecting E) : Prop where
  present : call.requests.mapM id = some requests
  counted : ∃ a, countFrom cfg call.chance 0 requests 0 ⟨newResponses call.chance requests.length, false⟩ =
    .ok (total, a) ∧ a.allFailed = false
  nonempty : total ≠ 0
  collected : ∃ responses,
    setInputTensors cfg call.chance.input total requests (prestage cfg total false s) responses = .ok (c, none)

/-- The batch of a call is collected into model inputs, and no slot is left unset. -/
structure Collects (cfg : Config E) (s : GraphState E) (call : Call E) (requests : List (Request E))
    (total : Nat) (c : Collecting E) (inputs : List (Tensor E)) : Prop extends Gathers cfg s call requests total c where
  complete : c.tensors.mapM id = some inputs

/-- A slot that was never set is copied into nothing: a replay that is launched without it is prestaged. -/
theorem launched_unset {cfg : GraphConfig} {forward : List (Tensor E) → List (Tensor E)} {chance : Chance}
    {tensors : List (Option (Tensor E))} {s : GraphState E} {a : Attempt E} {e : CudaGraphEntry E}
    {statics : List (Tensor E)} (hunset : none ∈ tensors)
    (ha : attempted cfg forward (chance.onSlots tensors) (slotTensors tensors) s = some a)
    (hl : Launched (chance.onSlots tensors) a e statics) : a.copyFrom = none := by
  cases hcopy : a.copyFrom with
  | none => rfl
  | some srcs =>
    obtain ⟨t0, t1, t2, r, hthree, _, _, _, _, hat⟩ := attempted_slow ha hcopy
    have hsrcs : srcs.length = tensors.length := by
      have hlength := congrArg List.length hthree
      rw [slotTensors, List.length_map] at hlength
      rw [hlength]
      split at hat
      · rw [hthree] at hat
        cases hat
        rfl
      · rw [hthree] at hat
        obtain ⟨_, _, _, _, rfl, _⟩ := padRequestsUp_three hat
        rfl
    obtain ⟨i, hi, hnone⟩ := List.getElem_of_mem hunset
    have hcopied := hl.copied
    rw [hcopy] at hcopied
    have hraised := copyInputs_unraised hcopied (show i < srcs.length by omega)
    have hany : ¬ tensors.all Option.isSome = true := fun hall => by
      have := List.all_eq_true.mp hall none hunset
      cases this
    rw [Chance.onSlots, if_neg hany, Nat.zero_add] at hraised
    simp only [List.getElem?_eq_getElem hi, hnone] at hraised
    cases hraised

/-- A replay that a call launches is the one its batch comes to. -/
theorem serves_replay {cfg : Config E} {forward : List (Tensor E) → List (Tensor E)} {s s' : GraphState E}
    {call : Call E} {x : Replay E} (h : Serves cfg forward s call s') (hx : .replay x ∈ call.served.events) :
    ∃ requests total c a e, Gathers cfg s call requests total c ∧
      attempted cfg.toGraphConfig forward (call.chance.graph.onSlots c.tensors) (slotTensors c.tensors) c.state =
        some a ∧
      Launched (call.chance.graph.onSlots c.tensors) a e x.statics ∧ x.r = a.r ∧ x.bucket = a.bucket ∧
      x.copyFrom = a.copyFrom ∧ x.before = e.staticInputs := by
  obtain ⟨hserved, _⟩ := h
  rcases processRequests_reached hserved with ⟨_, he⟩ | ⟨qs, total, a, hqs, hcount, htotal, hreached⟩
  · rw [he] at hx
    cases hx
  · generalize call.served.events = events at hx hreached
    generalize call.served.state = last at hreached
    cases hreached with
    | skipped => cases hx
    | collected => cases hx
    | ran haccepted hcollect hrun =>
      obtain ⟨at_, e, hat, hl, hfields⟩ := execute_replay hrun hx
      exact ⟨qs, total, _, at_, e, ⟨hqs, ⟨a, hcount, checkBatchSize_allFailed haccepted⟩, htotal,
        ⟨_, hcollect⟩⟩, hat, hl, hfields⟩

/-- One that copies has every slot set. -/
theorem serves_copies {cfg : Config E} {forward : List (Tensor E) → List (Tensor E)} {s s' : GraphState E}
    {call : Call E} {x : Replay E} {atBucket : List (Tensor E)} (h : Serves cfg forward s call s')
    (hx : .replay x ∈ call.served.events) (hat : x.copyFrom = some atBucket) :
    ∃ requests total c inputs a e, Collects cfg s call requests total c inputs ∧
      attempted cfg.toGraphConfig forward call.chance.graph inputs c.state = some a ∧
      Launched call.chance.graph a e x.statics ∧ a.copyFrom = some atBucket ∧ x.before = e.staticInputs := by
  obtain ⟨requests, total, c, a, e, hc, ha, hl, _, _, hcopy, hbefore⟩ := serves_replay h hx
  rw [hat] at hcopy
  cases hinputs : c.tensors.mapM id with
  | none =>
    rw [launched_unset ((mapM_id_eq_none _).mp hinputs) ha hl] at hcopy
    cases hcopy
  | some inputs =>
    rw [mapM_id_eq_some hinputs, slotTensors_map, Chance.onSlots_map] at ha
    rw [mapM_id_eq_some hinputs, Chance.onSlots_map] at hl
    exact ⟨requests, total, c, inputs, a, e, ⟨hc, hinputs⟩, ha, hl, hcopy.symm, hbefore⟩

/-! ### What a replay's buffers hold -/

/-- Each tensor at the bucket has the type and shape of its static buffer, which then
holds its elements. -/
def HoldsBatch (x : Replay E) : Prop :=
  ∀ atBucket, x.copyFrom = some atBucket → x.returned = true →
    ∀ (i : Nat) (t : Tensor E), atBucket[i]? = some t →
      ∃ st held, x.before[i]? = some st ∧ x.statics[i]? = some held ∧ Tensor.Alike t st ∧ held.data = t.data

/-- No tensor at the bucket is repeated or converted by copying it into its static buffer. -/
def Fits (atBucket statics : List (Tensor E)) : Prop :=
  ∀ (i : Nat) (t st : Tensor E), atBucket[i]? = some t → statics[i]? = some st → Tensor.Unstretched t st

/-- The buffers of a replay hold the batch exactly when the batch fits them. -/
theorem holdsBatch_iff {chance : Chance} {a : Attempt E} {e : CudaGraphEntry E} {x : Replay E}
    {atBucket : List (Tensor E)} (h : Launched chance a e x.statics) (hcopy : x.copyFrom = a.copyFrom)
    (hbefore : x.before = e.staticInputs) (hat : a.copyFrom = some atBucket) (hret : x.returned = true) :
    HoldsBatch x ↔ Fits atBucket e.staticInputs := by
  have hcopied := h.copied
  rw [hat] at hcopied
  obtain ⟨_, _, hall⟩ := copyInputs_ok hcopied
  constructor
  · intro hx i t st ht hst
    obtain ⟨st', _, hst', _, halike, _⟩ := hx atBucket (hcopy.trans hat) hret i t ht
    obtain ⟨st'', _, hst'', hc, _⟩ := hall i t ht
    rw [hbefore, hst] at hst'
    rw [hst] at hst''
    cases hst'
    cases hst''
    exact (Tensor.copy_unstretched_iff hc).mpr halike
  · intro hfits at_ hat' _ i t ht
    have hsame : some at_ = some atBucket := hat'.symm.trans (hcopy.trans hat)
    cases hsame
    obtain ⟨st, held, hst, hc, hheld⟩ := hall i t ht
    have halike := (Tensor.copy_unstretched_iff hc).mp (hfits i t st ht hst)
    exact ⟨st, held, hbefore ▸ hst, hheld, halike, Tensor.copy_alike hc halike⟩

/-- The rule: where a batch comes to a replay that is not prestaged, the batch at
the bucket fits the static inputs of the entry that is there. -/
def FitsBuffers (cfg : Config E) (forward : List (Tensor E) → List (Tensor E)) (s : GraphState E)
    (call : Call E) : Prop :=
  ∀ requests total c inputs a atBucket e, Collects cfg s call requests total c inputs →
    attempted cfg.toGraphConfig forward call.chance.graph inputs c.state = some a →
    a.copyFrom = some atBucket → a.state.cudaGraphCache.lookup a.key = some e →
    Fits atBucket e.staticInputs

/-- **Every replay of a run holds its batch** where every batch fits the buffers it
is copied into. -/
theorem run_holdsBatch {cfg : Config E} {forward : List (Tensor E) → List (Tensor E)}
    {capture : Int → Option Bool} {calls : List (Call E)} {s : GraphState E}
    (h : Run (under (FitsBuffers cfg forward) (Serves cfg forward)) (loaded cfg forward capture) calls s) :
    ∀ call ∈ calls, ∀ x, .replay x ∈ call.served.events → HoldsBatch x := by
  have each : ∀ t call t', True → under (FitsBuffers cfg forward) (Serves cfg forward) t call t' →
      ∀ x, .replay x ∈ call.served.events → HoldsBatch x := by
    intro t call t' _ ⟨hrule, hserves⟩ x hx at_ hat hret
    obtain ⟨qs, total, c, inputs, a, e, hcollects, ha, hl, hcopy, hbefore⟩ := serves_copies hserves hx hat
    have hfits := hrule qs total c inputs a at_ e hcollects ha hcopy hl.entry
    exact (holdsBatch_iff hl (hat.trans hcopy.symm) hbefore hcopy hret).mpr hfits at_ hat hret
  exact h.always (fun _ _ _ _ _ => trivial) each trivial

/-- Tensors of the buffers' types and shapes fit them. -/
theorem fits_alike {ts statics : List (Tensor E)} (h : List.Forall₂ Tensor.Alike ts statics) : Fits ts statics := by
  intro i t st ht hst
  obtain ⟨hi, rfl⟩ := List.getElem?_eq_some_iff.mp ht
  obtain ⟨hi', rfl⟩ := List.getElem?_eq_some_iff.mp hst
  obtain ⟨hdtype, hshape⟩ := List.Forall₂.get h hi hi'
  refine ⟨hdtype, ?_⟩
  rw [List.get_eq_getElem, List.get_eq_getElem] at hshape
  rw [hshape]
  exact List.forall₂_same.mpr fun _ _ hn => hn

/-- Graphs at a bucket of two, captured on first use. -/
def pairConfig : Config Int := packedConfig (oneBucket 2)

/-- Two requests of two elements. -/
def evenPair : List (Option (Request Int)) := [some (packedRequest 1 1 2), some (packedRequest 1 1 2)]

/-- The state of an instance that has served the two. -/
def pairServed : GraphState Int :=
  match processRequests pairConfig id .smooth evenPair (loaded pairConfig id fun _ => some true) with
  | .ok served => served.state
  | .error _ => .fresh Int

def unevenPair : List (Option (Request Int)) := [some (packedRequest 1 1 1), some (packedRequest 1 1 3)]

/-- Two requests of two elements are captured; the next two, of one and three, are copied into their
buffers. -/
theorem run_holdsBatch_second : ∃ second, processRequests pairConfig id .smooth unevenPair pairServed = .ok second ∧
    ∃ x, .replay x ∈ second.events ∧ x.copyFrom ≠ none ∧ x.returned = true ∧ HoldsBatch x := by
  obtain ⟨first, hfirst, hstate⟩ : ∃ first, processRequests pairConfig id .smooth evenPair
      (loaded pairConfig id fun _ => some true) = .ok first ∧ pairServed = first.state := ⟨_, rfl, rfl⟩
  obtain ⟨second, hsecond, x, hx, hcopy, hreturned⟩ : ∃ second,
      processRequests pairConfig id .smooth unevenPair pairServed = .ok second ∧
        ∃ x, .replay x ∈ second.events ∧ x.copyFrom.isSome = true ∧ x.returned = true :=
    ⟨_, rfl, _, List.mem_singleton.mpr rfl, rfl, rfl⟩
  refine ⟨second, hsecond, x, hx, Option.ne_none_iff_isSome.mpr hcopy, hreturned, ?_⟩
  have hrule : FitsBuffers pairConfig id (loaded pairConfig id fun _ => some true) ⟨.smooth, evenPair, first⟩ := by
    intro requests total c inputs a atBucket e hc ha hat he
    obtain ⟨⟨hpresent, ⟨_, hcounted, _⟩, _, ⟨_, hcollected⟩⟩, hcomplete⟩ := hc
    cases hpresent
    cases hcounted
    cases hcollected
    cases hcomplete
    cases ha
    cases hat
    cases he
    exact fits_alike (List.forall₂_same.mpr fun _ _ => ⟨rfl, rfl⟩)
  have hrule' : FitsBuffers pairConfig id pairServed ⟨.smooth, unevenPair, second⟩ := by
    intro requests total c inputs a atBucket e hc ha hat he
    obtain ⟨⟨hpresent, ⟨_, hcounted, _⟩, _, ⟨_, hcollected⟩⟩, hcomplete⟩ := hc
    cases hpresent
    cases hcounted
    cases hcollected
    cases hcomplete
    cases ha
    cases hat
    cases he
    exact fits_alike (.cons ⟨rfl, rfl⟩ (.cons ⟨rfl, rfl⟩ (.cons ⟨Eq.refl ScalarType.int, Eq.refl [2]⟩ .nil)))
  exact run_holdsBatch (.cons ⟨hrule, hfirst, hstate⟩ (.cons ⟨hrule', hsecond, rfl⟩ (.nil _)))
    _ (List.mem_cons_of_mem _ (List.mem_cons_self ..)) x hx

/-- One request of four elements is captured, and the next, of one element, is
repeated four times in its buffer. -/
theorem narrow_batch_stretched :
    ¬ ∀ (cfg : Config Int) (forward : List (Tensor Int) → List (Tensor Int)) (capture : Int → Option Bool)
      (calls : List (Call Int)) (s : GraphState Int),
      Run (Serves cfg forward) (loaded cfg forward capture) calls s →
      ∀ call ∈ calls, ∀ x, .replay x ∈ call.served.events → HoldsBatch x := by
  intro h
  have hrun : serveAll (packedConfig ⟨[], .nil⟩) id (loaded (packedConfig ⟨[], .nil⟩) id fun _ => some true)
      [(.smooth, [some (packedRequest 1 1 4)]), (.smooth, [some (packedRequest 1 1 1)])] = .ok (_, _) := rfl
  have hall := h _ _ _ _ _ (serveAll_run hrun) _ (List.mem_cons_of_mem _ (List.mem_cons_self ..)) _
    (List.mem_singleton.mpr rfl)
  obtain ⟨st, _, hst, _, ⟨_, hshape⟩, _⟩ := hall _ rfl rfl 1 _ rfl
  cases hst
  cases hshape

end TritonAot
