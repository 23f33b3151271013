import TritonAot.Graph.Schedules

/-! What the responses hold. -/
namespace TritonAot

open Streams

variable {K S D : Type} {arity : Nat} {graph : K → List D → Nat → D} {books : Books K}

/-! ### Runs -/

section Runs
variable [DecidableEq K]

/-- What a run issues, with the work that races marked. -/
def markFrom (arity : Nat) (graph : K → List D → Nat → D) : Nat → List (Routine K D) → List (DeviceOp K D × Bool)
  | _, [] => []
  | replay, routine :: rest =>
    (routine.issue arity graph replay).map (fun op => (op, routine.races op)) ++ markFrom arity graph (replay + 1) rest

theorem markFrom_fst (replay : Nat) (routines : List (Routine K D)) :
    (markFrom arity graph replay routines).map Prod.fst = issueFrom arity graph replay routines := by
  induction routines generalizing replay with
  | nil => rfl
  | cons routine rest ih => simp [markFrom, issueFrom, ih, Function.comp_def]

theorem ordering_run {stream : Port K → S} {routines : List (Routine K D)} {l q : List (DeviceOp K D)} {replay : Nat}
    (h : Ordering stream books l) (hrun : Disciplined arity books routines)
    (hq : List.Forall₂ (Version Op.frozen) (markFrom arity graph replay routines) q) :
    Ordering stream (booksAfter books routines) (l ++ q) := by
  induction routines generalizing l q books replay with
  | nil =>
    cases hq
    rwa [List.append_nil]
  | cons routine rest ih =>
    obtain ⟨hallowed, hrest⟩ := hrun
    obtain ⟨q₁, q₂, hfirst, hlast, rfl⟩ := forall₂_append_left hq
    rw [← List.append_assoc]
    exact ih (ordering_routine h hallowed hfirst) hrest hlast

end Runs

/-! ### Agreement -/

/-- The buffers whose content the order of completion leaves no choice. -/
inductive Known (arity : Nat) (books : Books K) : Buffer K → Prop where
  | readable {b : Buffer K} (h : Readable arity books b) : Known arity books b
  | created (i : Nat) : Known arity books (.created i)
  | response (batch j : Nat) : Known arity books (.response batch j)

abbrev Memory (K D : Type) := Buffer K → D

/-- Two memories hold the same where it is known. -/
def Agree (arity : Nat) (books : Books K) (m m' : Memory K D) : Prop := ∀ b, Known arity books b → m b = m' b

def runOps (ops : List (DeviceOp K D)) (m : Memory K D) : Memory K D := ops.foldl (fun m op => op.act m) m

theorem runOps_append (ops ops' : List (DeviceOp K D)) (m : Memory K D) :
    runOps (ops ++ ops') m = runOps ops' (runOps ops m) := List.foldl_append

/-- Ops that read what is known keep the agreement. -/
theorem Agree.runOps {m m' : Memory K D} (h : Agree arity books m m') {ops : List (DeviceOp K D)}
    (hreads : ∀ port w, .work port w ∈ ops → ∀ b ∈ w.reads, Known arity books b) :
    Agree arity books (TritonAot.runOps ops m) (TritonAot.runOps ops m') := by
  induction ops generalizing m m' with
  | nil => exact h
  | cons op rest ih =>
    apply ih
    · intro b hb
      cases op with
      | work port w =>
        apply w.agree
        · intro x hx
          exact h x (hreads port w (List.mem_cons_self ..) x hx)
        · exact .inl (h b hb)
      | record | wait | synchronize => exact h b hb
    · intro port w hw
      exact hreads port w (List.mem_cons_of_mem _ hw)

theorem runOps_frame {ops : List (DeviceOp K D)} {b : Buffer K} (h : ∀ port w, .work port w ∈ ops → b ∉ w.writes)
    (m : Memory K D) : runOps ops m b = m b := by
  induction ops generalizing m with
  | nil => rfl
  | cons op rest ih =>
    rw [runOps, List.foldl_cons]
    refine (ih (fun port w hw => h port w (List.mem_cons_of_mem _ hw)) _).trans ?_
    cases op with
    | work port w => exact w.frame m b (h port w (List.mem_cons_self ..))
    | record | wait | synchronize => rfl

theorem runOps_drained (synced : Bool) (m : Memory K D) : runOps (drained synced) m = m := by
  cases synced <;> rfl

/-- A launch leaves the graph on the static inputs. -/
theorem launch_output [DecidableEq K] (key : K) (m : Memory K D) (j : Nat) :
    (launch arity graph key : DeviceOp K D).act m (.staticOutput key j) = graph key ((staticInputs arity key).map m) j := by
  simp [launch, Op.act, Work.compute]

section Copies
variable [DecidableEq K] {port : Port K} {target : Nat → Buffer K}

variable (port) in
/-- A copy of a buffer that none of them overwrites. -/
theorem runOps_copies (hinj : Function.Injective target) {copies : List (Buffer K × (D → D))} (i : Nat) (m : Memory K D)
    {j : Nat} {c : Buffer K × (D → D)} (hj : copies[j]? = some c) (hsource : ∀ i, c.1 ≠ target i) :
    runOps (copiesFrom port target i copies) m (target (i + j)) = c.2 (m c.1) := by
  induction copies generalizing i j m with
  | nil => cases hj
  | cons first rest ih =>
    cases j with
    | zero =>
      cases hj
      show runOps (copiesFrom port target (i + 1) rest) (Function.update m (target i) (c.2 (m c.1))) (target i) = _
      rw [runOps_frame, Function.update_self]
      intro port w hw hmem
      obtain ⟨j, hj, c, _, heq⟩ := mem_copiesFrom hw
      cases heq
      have := hinj hmem
      omega
    | succ j =>
      have htail := ih (i + 1) (Function.update m (target i) (first.2 (m first.1))) hj
      rw [Function.update_of_ne (hsource i)] at htail
      rw [← htail, Nat.add_right_comm, Nat.add_assoc]
      rfl

/-- A capture clones its sources, and the runs before it leave the clones. -/
theorem runOps_clones {key : K} {sources : List (Buffer K)} (m : Memory K D) {i : Nat} {b : Buffer K}
    (hi : sources[i]? = some b) (hsource : ∀ j, b ≠ .staticInput key j) :
    runOps (captureOps arity graph key sources) m (.staticInput key i) = m b := by
  have hcopy : (sources.map fun source => (source, (id : D → D)))[i]? = some (b, id) := by simp [hi]
  have hinj : Function.Injective (Buffer.staticInput key) := fun i j h => by cases h; rfl
  have hclone := runOps_copies (.graph key) hinj 0 m hcopy hsource
  rw [Nat.zero_add] at hclone
  rw [captureOps, runOps_append]
  refine (runOps_frame ?_ _).trans hclone
  intro port w hw hmem
  simp only [List.mem_cons, List.not_mem_nil, or_false] at hw
  rcases hw with heq | heq | heq | heq | heq <;> cases heq <;> cases hmem

end Copies

/-- What writes nothing that is known leaves it. -/
theorem runOps_unknown {ops : List (DeviceOp K D)}
    (hwrites : ∀ port w, .work port w ∈ ops → ∀ b ∈ w.writes, ¬ Known arity books b) (m : Memory K D) :
    Agree arity books (runOps ops m) m :=
  fun b hb => runOps_frame (fun port w hw hmem => hwrites port w hw b hmem hb) m

theorem Known.primed {b : Buffer K} (h : Known arity books b) {key : K} (he : b.entryKey = some key) :
    key ∈ books.primed := by
  cases h with
  | readable hread => exact hread.primed he
  | created => cases he
  | response => cases he

theorem Known.mono {books' : Books K} {b : Buffer K} (h : Known arity books b) (hsub : books.primed ⊆ books'.primed) :
    Known arity books' b := by
  cases h with
  | readable hread =>
    apply Known.readable
    cases hread with
    | batch hof => exact .batch hof
    | eager j => exact .eager j
    | staticInput hkey hi => exact .staticInput (hsub hkey) hi
    | staticOutput hkey j => exact .staticOutput (hsub hkey) j
  | created i => exact .created i
  | response batch j => exact .response batch j

theorem Known.of_insert [DecidableEq K] {b : Buffer K} {key : K}
    (h : Known arity {books with primed := insert key books.primed} b) (he : b.entryKey ≠ some key) : Known arity books b := by
  have hother : ∀ {key'}, b.entryKey = some key' → key' ∈ insert key books.primed → key' ∈ books.primed := by
    intro key' hkey' hmem
    apply Finset.mem_of_mem_insert_of_ne hmem
    rintro rfl
    exact he hkey'
  cases h with
  | readable hread =>
    apply Known.readable
    cases hread with
    | batch hof => exact .batch hof
    | eager j => exact .eager j
    | staticInput hkey hi => exact .staticInput (hother rfl hkey) hi
    | staticOutput hkey j => exact .staticOutput (hother rfl hkey) j
  | created i => exact .created i
  | response batch j => exact .response batch j

/-- Work on the stream of an entry that is not primed writes nothing that is known. -/
theorem unknown_graph {key : K} (hkey : key ∉ books.primed) {w : Work (Buffer K) D} (hw : Stationed (.graph key) w) :
    ∀ b ∈ w.writes, ¬ Known arity books b := by
  intro b hb hknown
  cases hw with
  | graph writes _ => exact hkey (hknown.primed (writes b hb))

section Routines
variable [DecidableEq K] {routine : Routine K D} {replay : Nat} {key : K}

/-- Outside captures and replays a routine reads what may be read. -/
theorem reads_issue (hplain : routine.plain = true) (hallowed : routine.Allowed arity books) {port : Port K}
    {w : Work (Buffer K) D} (hop : .work port w ∈ routine.issue arity graph replay) :
    ∀ b ∈ w.reads, Readable arity books b := by
  intro b hb
  cases routine with
  | create tensors =>
    obtain ⟨j, d, heq⟩ := mem_storesFrom hop
    cases heq
    cases hb
  | collect fills synced =>
    rcases List.mem_append.mp hop with hop | hop
    · obtain ⟨fill, _, heq⟩ := mem_stores hop
      cases heq
      cases hb
    · cases mem_drained hop
  | prestage key fills synced =>
    rcases List.mem_append.mp hop with hop | hop
    · obtain ⟨fill, _, heq⟩ := mem_stores hop
      cases heq
      cases hb
    · cases mem_drained hop
  | padRequestsUp pads =>
    obtain ⟨j, pad, heq⟩ := mem_padsFrom hop
    cases heq
    cases hb
    exact .batch (.gathered j)
  | captureBucket | replayCudaGraphEntry => cases hplain
  | run inputs model =>
    rcases List.mem_cons.mp hop with heq | hop
    · cases heq
      exact hallowed b hb
    · cases List.mem_singleton.mp hop
  | readOutputTensors batch outputs synced =>
    rcases List.mem_append.mp hop with hop | hop
    · obtain ⟨j, _, c, hc, heq⟩ := mem_copiesFrom hop
      cases heq
      cases hb
      exact hallowed c hc
    · cases mem_drained hop

variable (key) in
/-- The copies of a replay overwrite the static inputs from an index on, and nothing else. -/
theorem agree_copies {copies : List (Buffer K × (D → D))} (hof : ∀ c ∈ copies, OfBatch c.1) {i : Nat}
    {m m' : Memory K D} (hbatch : ∀ b, OfBatch b → m b = m' b) :
    let done := runOps (copiesFrom (.graph key) (.staticInput key) i copies)
    (∀ b, m b = m' b → done m b = done m' b) ∧
      ∀ j, i ≤ j → j < i + copies.length → done m (.staticInput key j) = done m' (.staticInput key j) := by
  induction copies generalizing i m m' with
  | nil => exact ⟨fun _ h => h, fun j hi hj => absurd hj (by simp; omega)⟩
  | cons c rest ih =>
    obtain ⟨hc, hrest⟩ := List.forall_mem_cons.mp hof
    have hsource : m c.1 = m' c.1 := hbatch c.1 hc
    have hkept : ∀ b, m b = m' b ∨ b = .staticInput key i →
        (Work.copy c.1 (.staticInput key i) c.2).run m b = (Work.copy c.1 (.staticInput key i) c.2).run m' b := by
      intro b hb
      apply Work.agree
      · rintro x rfl
        exact hsource
      · exact hb
    obtain ⟨hsame, hover⟩ := ih hrest (i := i + 1) fun b hb => hkept b (.inl (hbatch b hb))
    refine ⟨fun b hb => hsame b (hkept b (.inl hb)), fun j hi hj => ?_⟩
    rcases Nat.eq_or_lt_of_le hi with rfl | hlt
    · exact hsame _ (hkept _ (.inr rfl))
    · apply hover j hlt
      rw [List.length_cons] at hj
      omega

theorem runOps_launched {ops : List (DeviceOp K D)} (m : Memory K D) :
    runOps (awaitInputs replay key ++ (ops ++ [launch arity graph key]) ++
      [.record (.graph key) (.outputs replay), .wait .own (.outputs replay)]) m =
      (launch arity graph key : DeviceOp K D).act (runOps ops m) := by
  simp only [runOps_append]
  rfl

/-- A replay that is launched recomputes the entry's outputs from the same inputs. -/
theorem agree_launched {copies : List (Buffer K × (D → D))} (hof : ∀ c ∈ copies, OfBatch c.1)
    (hcover : copies = [] ∧ key ∈ books.primed ∨ copies.length = arity) {m m' : Memory K D}
    (h : Agree arity books m m') :
    let done m := (launch arity graph key : DeviceOp K D).act
      (runOps (copiesFrom (.graph key) (.staticInput key) 0 copies) m)
    Agree arity {books with primed := insert key books.primed} (done m) (done m') := by
  obtain ⟨hsame, hover⟩ := agree_copies key hof (i := 0) fun b hb => h b (.readable (.batch hb))
  have hinputs : ∀ j < arity, runOps (copiesFrom (.graph key) (.staticInput key) 0 copies) m (.staticInput key j) =
      runOps (copiesFrom (.graph key) (.staticInput key) 0 copies) m' (.staticInput key j) := by
    intro j hj
    rcases hcover with ⟨_, hprimed⟩ | hlen
    · exact hsame _ (h _ (.readable (.staticInput hprimed hj)))
    · exact hover j (Nat.zero_le j) (by omega)
  intro done b hb
  apply Work.agree
  · intro x hx
    obtain ⟨j, hj, rfl⟩ := List.mem_map.mp hx
    exact hinputs j (List.mem_range.mp hj)
  · by_cases hentry : b.entryKey = some key
    · cases b with
      | staticInput key' j =>
        cases hentry
        cases hb with
        | readable hread =>
          cases hread with
          | batch hof => cases hof
          | staticInput _ hj => exact .inl (hinputs j hj)
      | staticOutput key' j =>
        cases hentry
        right
        show Option.isSome (if key = key then some _ else none) = true
        rw [if_pos rfl]
        rfl
      | scratch key' =>
        cases hb with
        | readable hread =>
          cases hread with
          | batch hof => cases hof
      | _ => cases hentry
    · exact .inl (hsame b (h b (hb.of_insert hentry)))

/-- **A routine keeps the agreement**, whatever its racing work saw. -/
theorem agree_routine {q : List (DeviceOp K D)} (hcaptured : books.primed ⊆ books.captured)
    (hallowed : routine.Allowed arity books) (hq : routine.Versions arity graph replay q) {m m' : Memory K D}
    (h : Agree arity books m m') :
    Agree arity (routine.after books) (runOps q m) (runOps (routine.issue arity graph replay) m') := by
  by_cases hplain : routine.plain = true
  · rw [versions_plain hplain hq, after_plain hplain]
    apply h.runOps
    intro port w hop b hb
    exact .readable (reads_issue hplain hallowed hop b hb)
  · cases routine with
    | captureBucket key sources thrown =>
      have hkey : key ∉ books.primed := fun hprimed => hallowed (hcaptured hprimed)
      have hran : Agree arity books (runOps q m) m := by
        apply runOps_unknown
        intro port w hw
        cases loose_capture hq _ hw with
        | work hplaced => exact unknown_graph hkey hplaced
      have hissued : Agree arity books (runOps (Routine.issue arity graph replay (.captureBucket key sources thrown)) m') m' := by
        apply runOps_unknown
        intro port w hw
        rcases entry_captureOps (mem_of_take hw) with heq | ⟨_, heq, hwrites⟩
        · cases heq
        · cases heq
          exact fun b hb hknown => hkey (hknown.primed (hwrites b hb))
      intro b hb
      have hknown : Known arity books b := hb.mono (Finset.Subset.refl _)
      rw [hran b hknown, hissued b hknown]
      exact h b hknown
    | replayCudaGraphEntry key copies thrown =>
      obtain ⟨hkey, hof, hcover⟩ := hallowed
      cases thrown with
      | none =>
        have hissued : (Routine.replayCudaGraphEntry key copies none).issue arity graph replay =
            awaitInputs replay key ++ (copiesFrom (.graph key) (.staticInput key) 0 copies ++ [launch arity graph key]) ++
              [.record (.graph key) (.outputs replay), .wait .own (.outputs replay)] := by
          simp [Routine.issue, launchAndAwait]
        rw [versions_launched hq, hissued, runOps_launched, runOps_launched]
        exact agree_launched hof hcover h
      | some issued =>
        obtain ⟨loose, rfl, hnil, hloose⟩ := loose_thrown hq
        simp only [Routine.issue, runOps_append]
        show Agree arity (if copies.take issued = [] then books else _) (runOps loose m)
          (runOps (copiesFrom (.graph key) (.staticInput key) 0 (copies.take issued)) m')
        by_cases hcopied : copies.take issued = []
        · rw [if_pos hcopied, hnil.mpr hcopied, hcopied]
          exact h
        · rw [if_neg hcopied]
          have hran : Agree arity {books with primed := books.primed.erase key} (runOps loose m) m := by
            apply runOps_unknown
            intro port w hw
            obtain ⟨_, heq, hplaced, _⟩ := hloose _ hw
            cases heq
            exact unknown_graph (Finset.notMem_erase key books.primed) hplaced
          have hissued : Agree arity {books with primed := books.primed.erase key}
              (runOps (copiesFrom (.graph key) (.staticInput key) 0 (copies.take issued)) m') m' := by
            apply runOps_unknown
            intro port w hw b hb hknown
            obtain ⟨_, heq, hwrites, _⟩ := entry_copies hw
            cases heq
            exact absurd (hknown.primed (hwrites b hb)) (Finset.notMem_erase key books.primed)
          intro b hb
          rw [hran b hb, hissued b hb]
          exact h b (hb.mono (Finset.erase_subset ..))
    | _ => simp [Routine.plain] at hplain

theorem after_captured (hsub : books.primed ⊆ books.captured) (hallowed : routine.Allowed arity books) :
    (routine.after books).primed ⊆ (routine.after books).captured := by
  cases routine with
  | captureBucket key _ _ => exact hsub.trans (Finset.subset_insert ..)
  | replayCudaGraphEntry key copies thrown =>
    cases thrown with
    | none => exact Finset.insert_subset hallowed.1 hsub
    | some issued =>
      simp only [Routine.after]
      split
      · exact hsub
      · exact (Finset.erase_subset ..).trans hsub
  | _ => exact hsub

/-- **A run keeps the agreement.** -/
theorem agree_run {routines : List (Routine K D)} {q : List (DeviceOp K D)} (hsub : books.primed ⊆ books.captured)
    (hrun : Disciplined arity books routines)
    (hq : List.Forall₂ (Version Op.frozen) (markFrom arity graph replay routines) q) {m m' : Memory K D}
    (h : Agree arity books m m') :
    Agree arity (booksAfter books routines) (runOps q m) (runOps (issueFrom arity graph replay routines) m') := by
  induction routines generalizing q books replay m m' with
  | nil =>
    cases hq
    exact h
  | cons routine rest ih =>
    obtain ⟨hallowed, hrest⟩ := hrun
    obtain ⟨q₁, q₂, hfirst, hlast, rfl⟩ := forall₂_append_left hq
    rw [issueFrom, runOps_append, runOps_append]
    exact ih (after_captured hsub hallowed) hrest hlast (agree_routine hsub hallowed hfirst h)

end Routines

/-! ### One instance, and several -/

section Deliveries
variable [DecidableEq K]

/-- An instance that has captured nothing. -/
def Books.fresh : Books K := ⟨∅, ∅⟩

/-- **Whatever order the device completes a disciplined run in, what is known is what the order of
issue leaves.** -/
theorem completes_known {stream : Port K → S} {routines : List (Routine K D)}
    (hrun : Disciplined arity Books.fresh routines) {m m' : Memory K D}
    (h : Completes (Op.Blocks stream) Op.act (issueFrom arity graph 0 routines) m m') :
    Agree arity (booksAfter Books.fresh routines) m' (runOps (issueFrom arity graph 0 routines) m) := by
  have hempty : Ordering stream (Books.fresh : Books K) ([] : List (DeviceOp K D)) :=
    ⟨.nil, nofun, nofun, fun _ _ _ h => by simp at h, nofun, Finset.Subset.refl _⟩
  rw [← markFrom_fst] at h
  obtain ⟨q, hq, hcompletes⟩ := h.loosen Op.act_frozen Op.blocks_of_versions
  have hordering := ordering_run hempty hrun hq
  rw [List.nil_append] at hordering
  rw [hcompletes.sequential hordering.synchronised]
  exact agree_run (Finset.Subset.refl _) hrun hq fun _ _ => rfl

/-- **Any number of instances, their host threads interleaved in any way and the device completing
what they issue in any order: every response of an instance that keeps the discipline holds what it
alone delivers in the order of issue.** Streams may be shared, within an instance and across instances. -/
theorem completes_delivers {H : Type} [DecidableEq H] {instance_ : H} {stream : Port K → S}
    {blocks : H × DeviceOp K D → H × DeviceOp K D → Prop}
    (held : ∀ a b, Op.Blocks stream a b → blocks (instance_, a) (instance_, b))
    {routines : List (Routine K D)} (hrun : Disciplined arity Books.fresh routines) {issued : List (H × DeviceOp K D)}
    (hissued : project instance_ issued = issueFrom arity graph 0 routines) {m m' : H → Memory K D}
    (h : Completes blocks (onHost Op.act) issued m m') (batch j : Nat) :
    m' instance_ (.response batch j) =
      runOps (issueFrom arity graph 0 routines) (m instance_) (.response batch j) := by
  have hown := h.project held
  rw [hissued] at hown
  exact completes_known hrun hown _ (.response batch j)

end Deliveries

/-! ### What is prestaged -/

section Fills
variable [DecidableEq K]

/-- What static inputs hold once a batch is prestaged into them. -/
def filled (fills : List (Nat × D)) (held : Nat → D) : Nat → D :=
  fills.foldl (fun held fill => Function.update held fill.1 fill.2) held

theorem filled_congr {fills : List (Nat × D)} {held held' : Nat → D} {i : Nat} (h : held i = held' i) :
    filled fills held i = filled fills held' i := by
  induction fills generalizing held held' with
  | nil => exact h
  | cons fill rest ih =>
    apply ih
    simp [Function.update_apply, h]

theorem runOps_fills {port : Port K} {target : Nat → Buffer K} (hinj : Function.Injective target)
    (fills : List (Nat × D)) (m : Memory K D) :
    (fun i => runOps (stores port target fills) m (target i)) = filled fills fun i => m (target i) := by
  induction fills generalizing m with
  | nil => rfl
  | cons fill rest ih =>
    refine (ih (Function.update m (target fill.1) fill.2)).trans ?_
    show filled rest _ = filled rest _
    congr 1
    funext i
    simp [Function.update_apply, hinj.eq_iff]

end Fills

end TritonAot
