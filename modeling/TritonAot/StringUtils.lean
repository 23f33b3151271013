import TritonAot.Config.Validate
import TritonAot.Lib.Dense

/-! The buffers of an input as one chunk.

`GetContiguousInputContent` counts the buffers that are not null in a first pass, and
then reads as many buffers as it counted, from the front. Where a null buffer stands
before another one, those are not the buffers that it counted:
`getContiguousInputContent_iff` says for which inputs the content is right all the same. -/
namespace TritonAot

open Dense

/-! ### The buffers of an input -/

/-- `TRITONSERVER_MemoryType`. -/
inductive MemoryType where
  | cpu | cpuPinned | gpu
  deriving DecidableEq, Repr

/-- One more than the largest `size_t`. -/
def sizeLimit : Nat := 18446744073709551616

/-- What `TRITONBACKEND_InputBuffer` sets: the bytes behind `src_ptr`, none where it is null,
the size and the type of the memory. -/
structure InputBuffer where
  src : Option (List UInt8)
  byteSize : Nat
  memoryType : MemoryType
  byteSize_lt : byteSize < sizeLimit
  length_src : ∀ bytes ∈ src, bytes.length = byteSize

/-- What the server and CUDA decide during one call: which lookups of the first pass, which
later ones and which copies fail; what the lookup of a buffer there is none of returns; and
the error that `CopyBuffer` returns for a null source with a size, if it does not read it. -/
structure BufferChance where
  scan : Nat → Option TritonError
  access : Nat → Option TritonError
  missing : Nat → TritonError
  copyBuffer : Nat → Option TritonError
  nullSource : Nat → Option TritonError

/-- No call fails. -/
def BufferChance.quiet (missing : Nat → TritonError) : BufferChance where
  scan _ := none
  access _ := none
  missing := missing
  copyBuffer _ := none
  nullSource _ := none

/-- `TRITONBACKEND_InputBuffer`. -/
def inputBuffer (failure : Nat → Option TritonError) (missing : Nat → TritonError) (buffers : List InputBuffer)
    (idx : Nat) : Except Refusal InputBuffer :=
  match failure idx, buffers[idx]? with
  | some err, _ => .error (.error err)
  | none, some b => .ok b
  | none, none => .error (.error (missing idx))

/-! ### The first pass -/

structure Chunks where
  count : Nat
  typeMismatch : Bool
  totalByteSize : Nat

def Chunks.add (c : Chunks) (b : InputBuffer) : Chunks :=
  if b.src.isSome then
    { count := c.count + 1
      typeMismatch := c.typeMismatch || b.memoryType == .gpu
      totalByteSize := (c.totalByteSize + b.byteSize) % sizeLimit }
  else c

/-- The next `n` rounds of the loop over the buffers, from `idx` on. -/
def scanFrom (chance : BufferChance) (buffers : List InputBuffer) : Nat → Nat → Chunks → Except Refusal Chunks
  | 0, _, c => .ok c
  | n + 1, idx, c => do
    let b ← inputBuffer chance.scan chance.missing buffers idx
    scanFrom chance buffers n (idx + 1) (c.add b)

/-! ### The copy -/

/-- The most a `std::vector<char>` holds. -/
def maxSize : Nat := 9223372036854775807

/-- A vector of `n` bytes: what was there up to `n`, zeros behind it. -/
def resized (buffer : List UInt8) (n : Nat) : List UInt8 :=
  buffer.take n ++ List.replicate (n - buffer.length) 0

/-- `contiguous_buffer->resize(n)`. -/
def resize (buffer : List UInt8) (n : Nat) : Except Refusal (List UInt8) :=
  if maxSize < n then .error (.fault (.thrown "resize")) else .ok (resized buffer n)

/-- `contiguous_buffer`, `offset` and `cuda_copy`. -/
structure Copied where
  contiguousBuffer : List UInt8
  offset : Nat
  cudaCopy : Bool

/-- A copy of `byte_size` bytes to `contiguous_buffer->data() + offset`. A null source with a
size is refused, or read. Reading through null and writing behind the vector are undefined; with
size zero nothing is read or written. -/
def copyChunk (nullSource : Option TritonError) (c : Copied) (b : InputBuffer) : Except Refusal Copied :=
  let cudaCopy := c.cudaCopy || b.memoryType == .gpu
  match b.src with
  | none =>
    if b.byteSize = 0 then .ok {c with cudaCopy}
    else
      match nullSource with
      | some err => .error (.error err)
      | none => .error (.fault .undefined)
  | some bytes =>
    if c.offset + b.byteSize ≤ c.contiguousBuffer.length then
      .ok ⟨overwrite c.offset bytes c.contiguousBuffer, c.offset + b.byteSize, cudaCopy⟩
    else .error (.fault .undefined)

/-- `CopyBuffer` to system memory. What comes off a GPU is there once the stream is through. -/
def copyBuffer (failure nullSource : Option TritonError) (c : Copied) (b : InputBuffer) : Except Refusal Copied :=
  match failure with
  | some err => .error (.error err)
  | none => copyChunk nullSource c b

/-- The next `n` rounds of the copying loop, from `i` on. -/
def copyFrom (chance : BufferChance) (buffers : List InputBuffer) :
    Nat → Nat → Copied → Except Refusal Copied
  | 0, _, c => .ok c
  | n + 1, i, c => do
    let b ← inputBuffer chance.access chance.missing buffers i
    let c ← copyBuffer (chance.copyBuffer i) (chance.nullSource i) c b
    copyFrom chance buffers n (i + 1) c

/-- What a call sets; there is no `content` where the pointer is null. -/
structure Contiguous where
  content : Option (List UInt8)
  contentByteSize : Nat
  contiguousBuffer : List UInt8
  cudaCopy : Bool

/-- The only chunk, where it is in system memory. -/
def firstBuffer (chance : BufferChance) (buffers : List InputBuffer) (contiguousBuffer : List UInt8) :
    Except Refusal Contiguous := do
  let b ← inputBuffer chance.access chance.missing buffers 0
  .ok ⟨b.src, b.byteSize, contiguousBuffer, false⟩

/-- The chunks, one behind the other. -/
def copyBuffers (chance : BufferChance) (buffers : List InputBuffer) (chunks : Chunks)
    (contiguousBuffer : List UInt8) : Except Refusal Contiguous := do
  let contiguousBuffer ← resize contiguousBuffer chunks.totalByteSize
  let c ← copyFrom chance buffers chunks.count 0 ⟨contiguousBuffer, 0, false⟩
  .ok ⟨some c.contiguousBuffer, chunks.totalByteSize, c.contiguousBuffer, c.cudaCopy⟩

/-- `GetContiguousInputContent`. -/
def getContiguousInputContent (chance : BufferChance) (buffers : List InputBuffer) (bufferCount : Nat)
    (contiguousBuffer : List UInt8) : Except Refusal Contiguous := do
  let chunks ← scanFrom chance buffers bufferCount 0 ⟨0, false, 0⟩
  if chunks.count = 0 then .ok ⟨none, 0, contiguousBuffer, false⟩
  else if chunks.count = 1 ∧ chunks.typeMismatch = false then firstBuffer chance buffers contiguousBuffer
  else copyBuffers chance buffers chunks contiguousBuffer

/-! ### Calls that fail

A call that fails ends with its error. What else there is to say of a run is said of the
one where no call fails. -/

/-- `x` is `y`, or an error of the server's API came before its end. -/
def Cut {α : Type} (x y : Except Refusal α) : Prop := x = y ∨ ∃ e, x = .error (.error e)

theorem Cut.bind {α β : Type} {x y : Except Refusal α} {f g : α → Except Refusal β} (h : Cut x y)
    (hf : ∀ a, Cut (f a) (g a)) : Cut (x >>= f) (y >>= g) := by
  rcases h with rfl | ⟨e, rfl⟩
  · cases x with
    | error r => exact .inl rfl
    | ok a => exact hf a
  · exact .inr ⟨e, rfl⟩

section Cut
variable (chance : BufferChance) (missing : Nat → TritonError) (buffers : List InputBuffer)

theorem inputBuffer_cut (failure : Nat → Option TritonError) (idx : Nat) :
    Cut (inputBuffer failure chance.missing buffers idx) (inputBuffer (fun _ => none) missing buffers idx) := by
  unfold inputBuffer
  cases failure idx with
  | some err => exact .inr ⟨err, rfl⟩
  | none =>
    cases buffers[idx]? with
    | some b => exact .inl rfl
    | none => exact .inr ⟨_, rfl⟩

theorem copyBuffer_cut (failure nullSource : Option TritonError) (c : Copied) (b : InputBuffer) :
    Cut (copyBuffer failure nullSource c b) (copyBuffer none none c b) := by
  cases failure with
  | some err => exact .inr ⟨err, rfl⟩
  | none =>
    unfold copyBuffer copyChunk
    cases b.src with
    | some bytes => exact .inl rfl
    | none =>
      by_cases hsize : b.byteSize = 0
      · simp only [if_pos hsize]
        exact .inl rfl
      · simp only [if_neg hsize]
        cases nullSource with
        | none => exact .inl rfl
        | some err => exact .inr ⟨err, rfl⟩

theorem scanFrom_cut (n idx : Nat) (c : Chunks) :
    Cut (scanFrom chance buffers n idx c) (scanFrom (.quiet missing) buffers n idx c) := by
  induction n generalizing idx c with
  | zero => exact .inl rfl
  | succ n ih => exact (inputBuffer_cut chance missing buffers chance.scan idx).bind fun b => ih (idx + 1) (c.add b)

theorem copyFrom_cut (n i : Nat) (c : Copied) :
    Cut (copyFrom chance buffers n i c) (copyFrom (.quiet missing) buffers n i c) := by
  induction n generalizing i c with
  | zero => exact .inl rfl
  | succ n ih =>
    refine (inputBuffer_cut chance missing buffers chance.access i).bind fun b => ?_
    exact (copyBuffer_cut (chance.copyBuffer i) (chance.nullSource i) c b).bind fun c' => ih (i + 1) c'

theorem getContiguousInputContent_cut (bufferCount : Nat) (contiguousBuffer : List UInt8) :
    Cut (getContiguousInputContent chance buffers bufferCount contiguousBuffer)
      (getContiguousInputContent (.quiet missing) buffers bufferCount contiguousBuffer) := by
  refine (scanFrom_cut chance missing buffers bufferCount 0 _).bind fun chunks => ?_
  split
  · exact .inl rfl
  · split
    · exact (inputBuffer_cut chance missing buffers chance.access 0).bind fun b => .inl rfl
    · exact Cut.bind (.inl rfl) fun buffer =>
        (copyFrom_cut chance missing buffers chunks.count 0 _).bind fun c => .inl rfl

end Cut

/-! ### What a run without failures reads -/

def InputBuffer.bytes (b : InputBuffer) : List UInt8 := b.src.getD []

/-- The bytes of the buffers that are not null, in order. -/
def bytesOf (buffers : List InputBuffer) : List UInt8 := buffers.flatMap (·.bytes)

/-- How many buffers are not null. -/
def nonNull (buffers : List InputBuffer) : Nat := buffers.countP (·.src.isSome)

/-- Whether one that is not null is on a GPU. -/
def onGpu (buffers : List InputBuffer) : Bool := buffers.any fun b => b.src.isSome && b.memoryType == .gpu

/-- The index loops read a stretch of the list. -/
theorem inputBuffer_quiet (missing : Nat → TritonError) {buffers : List InputBuffer} {idx : Nat}
    (h : idx < buffers.length) : inputBuffer (fun _ => none) missing buffers idx = .ok buffers[idx] := by
  rw [inputBuffer, List.getElem?_eq_getElem h]

theorem stretch_cons {buffers : List InputBuffer} {i n : Nat} (h : i + (n + 1) ≤ buffers.length) :
    (buffers.drop i).take (n + 1) = buffers[i] :: (buffers.drop (i + 1)).take n := by
  rw [List.drop_eq_getElem_cons (by omega), List.take_succ_cons]

theorem scanFrom_quiet (missing : Nat → TritonError) {buffers : List InputBuffer} {n i : Nat}
    (h : i + n ≤ buffers.length) (c : Chunks) :
    scanFrom (.quiet missing) buffers n i c = .ok (((buffers.drop i).take n).foldl Chunks.add c) := by
  induction n generalizing i c with
  | zero => rw [List.take_zero]; rfl
  | succ n ih =>
    rw [scanFrom, BufferChance.quiet, inputBuffer_quiet missing (by omega), stretch_cons h, List.foldl_cons,
      ← ih (by omega)]
    rfl

theorem copyFrom_quiet (missing : Nat → TritonError) {buffers : List InputBuffer} {n i : Nat}
    (h : i + n ≤ buffers.length) (c : Copied) :
    copyFrom (.quiet missing) buffers n i c = ((buffers.drop i).take n).foldlM (copyChunk none) c := by
  induction n generalizing i c with
  | zero => rw [List.take_zero]; rfl
  | succ n ih =>
    rw [copyFrom, BufferChance.quiet, inputBuffer_quiet missing (by omega), stretch_cons h, List.foldlM_cons]
    exact bind_congr fun c' => ih (by omega) c'

theorem bytesOf_cons (b : InputBuffer) (l : List InputBuffer) : bytesOf (b :: l) = b.bytes ++ bytesOf l :=
  List.flatMap_cons

theorem bytesOf_append (l l' : List InputBuffer) : bytesOf (l ++ l') = bytesOf l ++ bytesOf l' :=
  List.flatMap_append

/-- The first pass counts what it should, up to the size of a `uint64_t`. -/
theorem foldl_add (l : List InputBuffer) (count : Nat) (mismatch : Bool) (total : Nat) :
    l.foldl Chunks.add ⟨count, mismatch, total % sizeLimit⟩ =
      ⟨count + nonNull l, mismatch || onGpu l, (total + (bytesOf l).length) % sizeLimit⟩ := by
  induction l generalizing count mismatch total with
  | nil => simp [nonNull, onGpu, bytesOf]
  | cons b l ih =>
    rw [List.foldl_cons, bytesOf_cons]
    cases hsrc : b.src with
    | none =>
      have hadd : Chunks.add ⟨count, mismatch, total % sizeLimit⟩ b = ⟨count, mismatch, total % sizeLimit⟩ := by
        simp only [Chunks.add, hsrc, Option.isSome_none, Bool.false_eq_true, if_false]
      rw [hadd, ih]
      simp [nonNull, onGpu, InputBuffer.bytes, hsrc]
    | some bytes =>
      have hlength : bytes.length = b.byteSize := b.length_src bytes hsrc
      have hadd : Chunks.add ⟨count, mismatch, total % sizeLimit⟩ b =
          ⟨count + 1, mismatch || b.memoryType == .gpu, (total + b.byteSize) % sizeLimit⟩ := by
        simp only [Chunks.add, hsrc, Option.isSome_some, if_true, Nat.mod_add_mod]
      rw [hadd, ih]
      simp [nonNull, onGpu, InputBuffer.bytes, hsrc, hlength, Nat.add_assoc, Nat.add_comm 1, Bool.or_assoc]

/-- A copy that can be made: nothing is read through null, nothing is written behind the vector. -/
def ChunkFits (c : Copied) (b : InputBuffer) : Prop :=
  (b.src = none → b.byteSize = 0) ∧ c.offset + b.bytes.length ≤ c.contiguousBuffer.length

/-- What it leaves. -/
def Copied.write (c : Copied) (b : InputBuffer) : Copied :=
  ⟨overwrite c.offset b.bytes c.contiguousBuffer, c.offset + b.bytes.length,
    c.cudaCopy || b.memoryType == .gpu⟩

theorem copyChunk_of_fits {c : Copied} {b : InputBuffer} (h : ChunkFits c b) :
    copyChunk none c b = .ok (c.write b) := by
  unfold copyChunk Copied.write
  cases hsrc : b.src with
  | none =>
    have hbytes : b.bytes = [] := by rw [InputBuffer.bytes, hsrc]; rfl
    rw [hbytes, overwrite_nil]
    exact if_pos (h.1 hsrc)
  | some bytes =>
    have hbytes : b.bytes = bytes := by rw [InputBuffer.bytes, hsrc]; rfl
    have hroom := h.2
    rw [hbytes, b.length_src bytes hsrc] at hroom ⊢
    exact if_pos hroom

theorem copyChunk_of_not_fits {c : Copied} {b : InputBuffer} (hstart : c.offset ≤ c.contiguousBuffer.length)
    (h : ¬ChunkFits c b) : copyChunk none c b = .error (.fault .undefined) := by
  unfold copyChunk
  cases hsrc : b.src with
  | none =>
    refine if_neg fun hsize => h ⟨fun _ => hsize, ?_⟩
    have hbytes : b.bytes = [] := by rw [InputBuffer.bytes, hsrc]; rfl
    rw [hbytes]
    exact hstart
  | some bytes =>
    refine if_neg fun hroom => h ⟨fun hnone => (by rw [hsrc] at hnone; cases hnone), ?_⟩
    have hbytes : b.bytes = bytes := by rw [InputBuffer.bytes, hsrc]; rfl
    rw [hbytes, b.length_src bytes hsrc]
    exact hroom

theorem Copied.length_write {c : Copied} {b : InputBuffer} (h : ChunkFits c b) :
    (c.write b).contiguousBuffer.length = c.contiguousBuffer.length := length_overwrite _ _ _ h.2

/-- No null buffer that reports a size. -/
def NullsEmpty (l : List InputBuffer) : Prop := ∀ b ∈ l, b.src = none → b.byteSize = 0

/-- Copies that fit write the bytes behind each other. -/
theorem foldlM_copyChunk {l : List InputBuffer} {c : Copied} (hnull : NullsEmpty l)
    (hroom : c.offset + (bytesOf l).length ≤ c.contiguousBuffer.length) :
    l.foldlM (copyChunk none) c =
      .ok ⟨overwrite c.offset (bytesOf l) c.contiguousBuffer, c.offset + (bytesOf l).length,
        c.cudaCopy || l.any (·.memoryType == .gpu)⟩ := by
  induction l generalizing c with
  | nil =>
    rw [bytesOf, List.flatMap_nil, overwrite_nil, List.any_nil, Bool.or_false]
    rfl
  | cons b l ih =>
    rw [bytesOf_cons, List.length_append] at hroom
    have hfits : ChunkFits c b := ⟨hnull b List.mem_cons_self, by omega⟩
    have hrest := ih (c := c.write b) (fun b' hb' => hnull b' (List.mem_cons_of_mem _ hb'))
      (by rw [Copied.length_write hfits, Copied.write, Nat.add_assoc]; exact hroom)
    rw [List.foldlM_cons, copyChunk_of_fits hfits]
    refine hrest.trans ?_
    rw [Copied.write, overwrite_append _ _ _ _ hfits.2, bytesOf_cons, List.length_append, List.any_cons,
      Nat.add_assoc, Bool.or_assoc]

/-- Where not all of them fit, one is undefined. -/
theorem foldlM_copyChunk_undefined {l : List InputBuffer} {c : Copied}
    (hstart : c.offset ≤ c.contiguousBuffer.length)
    (h : ¬(NullsEmpty l ∧ c.offset + (bytesOf l).length ≤ c.contiguousBuffer.length)) :
    l.foldlM (copyChunk none) c = .error (.fault .undefined) := by
  induction l generalizing c with
  | nil => exact absurd ⟨fun b hb => (by cases hb), hstart⟩ h
  | cons b l ih =>
    rw [List.foldlM_cons]
    by_cases hfits : ChunkFits c b
    · rw [copyChunk_of_fits hfits]
      refine ih (by rw [Copied.length_write hfits]; exact hfits.2) fun ⟨hnull, hroom⟩ => h ⟨?_, ?_⟩
      · exact List.forall_mem_cons.mpr ⟨hfits.1, hnull⟩
      · rw [Copied.length_write hfits, Copied.write, Nat.add_assoc] at hroom
        rw [bytesOf_cons, List.length_append]
        exact hroom
    · rw [copyChunk_of_not_fits hstart hfits]
      rfl

/-! ### When the content is right -/

/-- What a call owes: the bytes of the buffers that are not null with their number where it
succeeds, and no access that is undefined. -/
def GivesContent (buffers : List InputBuffer) : Except Refusal Contiguous → Prop
  | .ok c => c.content.getD [] = bytesOf buffers ∧ c.contentByteSize = (bytesOf buffers).length
  | .error (.error _) => True
  | .error (.fault f) => f ≠ .undefined

/-- The first buffer is what there is: it is not null, or it is empty as all the others are. -/
def FirstHolds (buffers : List InputBuffer) : Prop :=
  ∀ b ∈ buffers.head?, b.src = none → b.byteSize = 0 ∧ bytesOf buffers = []

/-- What is copied from the front, one buffer for each that is not null, and what a vector of
the right size holds behind it, are all the bytes; or the size is none a vector can have. -/
def FrontHolds (buffers : List InputBuffer) (contiguousBuffer : List UInt8) : Prop :=
  maxSize < (bytesOf buffers).length % sizeLimit ∨
    (bytesOf buffers).length ≤ maxSize ∧ NullsEmpty (buffers.take (nonNull buffers)) ∧
      (resized contiguousBuffer (bytesOf buffers).length).drop
        (bytesOf (buffers.take (nonNull buffers))).length = bytesOf (buffers.drop (nonNull buffers))

def ContentHolds (buffers : List InputBuffer) (contiguousBuffer : List UInt8) : Prop :=
  if nonNull buffers = 0 then True
  else if nonNull buffers = 1 ∧ onGpu buffers = false then FirstHolds buffers
  else FrontHolds buffers contiguousBuffer

theorem bytesOf_of_nonNull_zero {buffers : List InputBuffer} (h : nonNull buffers = 0) : bytesOf buffers = [] := by
  refine List.flatMap_eq_nil_iff.mpr fun b hb => ?_
  have hnull := List.countP_eq_zero.mp h b hb
  rw [InputBuffer.bytes, Option.not_isSome_iff_eq_none.mp hnull]
  rfl

theorem length_resized (buffer : List UInt8) (n : Nat) : (resized buffer n).length = n := by
  rw [resized, List.length_append, List.length_take, List.length_replicate]
  omega

/-- Null buffers behind all the others are no harm. -/
theorem contentHolds_of_nulls_last {buffers : List InputBuffer} (contiguousBuffer : List UInt8)
    (hfront : ∀ b ∈ buffers.take (nonNull buffers), b.src.isSome = true)
    (hmax : (bytesOf buffers).length ≤ maxSize) : ContentHolds buffers contiguousBuffer := by
  have hcount : nonNull (buffers.take (nonNull buffers)) = nonNull buffers := by
    rw [nonNull, List.countP_eq_length.mpr hfront, List.length_take]
    exact Nat.min_eq_left List.countP_le_length
  have hbehind : nonNull (buffers.drop (nonNull buffers)) = 0 := by
    have hsplit : nonNull (buffers.take (nonNull buffers)) + nonNull (buffers.drop (nonNull buffers)) =
        nonNull buffers := by
      conv_rhs => rw [nonNull, ← List.take_append_drop (nonNull buffers) buffers, List.countP_append]
      rfl
    omega
  have hbytes : bytesOf (buffers.take (nonNull buffers)) = bytesOf buffers := by
    conv_rhs => rw [← List.take_append_drop (nonNull buffers) buffers, bytesOf_append,
      bytesOf_of_nonNull_zero hbehind, List.append_nil]
  have hsome : ∀ b ∈ buffers.take (nonNull buffers), b.src ≠ none := by
    intro b hb hnone
    have hb' := hfront b hb
    rw [hnone] at hb'
    cases hb'
  unfold ContentHolds
  split
  · trivial
  · next hpos =>
    split
    · intro b hb hnone
      refine absurd hnone (hsome b ?_)
      rw [Option.mem_def, List.head?_eq_some_iff] at hb
      obtain ⟨rest, rfl⟩ := hb
      obtain ⟨n, hn⟩ := Nat.exists_eq_succ_of_ne_zero hpos
      rw [hn]
      exact List.mem_cons_self
    · refine .inr ⟨hmax, fun b hb hnone => absurd hnone (hsome b hb), ?_⟩
      rw [hbytes, bytesOf_of_nonNull_zero hbehind]
      exact List.drop_eq_nil_of_le (Nat.le_of_eq (length_resized _ _))

/-- A run without failures counts the chunks, and adds up their sizes. -/
theorem scanFrom_all (missing : Nat → TritonError) (buffers : List InputBuffer) :
    scanFrom (.quiet missing) buffers buffers.length 0 ⟨0, false, 0⟩ =
      .ok ⟨nonNull buffers, onGpu buffers, (bytesOf buffers).length % sizeLimit⟩ := by
  have hfold := foldl_add buffers 0 false 0
  rw [Nat.zero_mod, Nat.zero_add, Nat.zero_add, Bool.false_or] at hfold
  rw [scanFrom_quiet missing (by omega), List.drop_zero, List.take_length, hfold]

/-- The branch without a copy: the first buffer is the answer. -/
theorem firstHolds_iff (missing : Nat → TritonError) {buffers : List InputBuffer} (hone : nonNull buffers = 1)
    (contiguousBuffer : List UInt8) :
    GivesContent buffers (firstBuffer (.quiet missing) buffers contiguousBuffer) ↔ FirstHolds buffers := by
  cases buffers with
  | nil => cases hone
  | cons b rest =>
    have hfirst : FirstHolds (b :: rest) ↔ (b.src = none → b.byteSize = 0 ∧ bytesOf (b :: rest) = []) :=
      ⟨fun h => h b rfl, fun h b' hb' => by cases hb'; exact h⟩
    rw [hfirst]
    show b.src.getD [] = bytesOf (b :: rest) ∧ b.byteSize = (bytesOf (b :: rest)).length ↔ _
    cases hsrc : b.src with
    | none =>
      constructor
      · intro ⟨hbytes, hsize⟩ _
        rw [← hbytes] at hsize ⊢
        exact ⟨hsize, rfl⟩
      · intro h
        obtain ⟨hsize, hbytes⟩ := h rfl
        rw [hbytes]
        exact ⟨rfl, hsize⟩
    | some bytes =>
      -- the one that is not null, so nothing follows
      have hrest : nonNull rest = 0 := by
        rw [nonNull, List.countP_cons_of_pos (by rw [hsrc]; rfl)] at hone
        exact Nat.succ.inj hone
      have hall : bytesOf (b :: rest) = bytes := by
        rw [bytesOf_cons, bytesOf_of_nonNull_zero hrest, List.append_nil, InputBuffer.bytes, hsrc]
        rfl
      rw [hall, b.length_src bytes hsrc]
      exact ⟨fun _ h => (by cases h), fun _ => ⟨rfl, rfl⟩⟩

/-- The branch with a copy. -/
theorem frontHolds_iff (missing : Nat → TritonError) (buffers : List InputBuffer) (mismatch : Bool)
    (contiguousBuffer : List UInt8) :
    GivesContent buffers (copyBuffers (.quiet missing) buffers
        ⟨nonNull buffers, mismatch, (bytesOf buffers).length % sizeLimit⟩ contiguousBuffer) ↔
      FrontHolds buffers contiguousBuffer := by
  have hcount : nonNull buffers ≤ buffers.length := List.countP_le_length
  have hcopy : ∀ c, copyFrom (.quiet missing) buffers (nonNull buffers) 0 c =
      (buffers.take (nonNull buffers)).foldlM (copyChunk none) c := by
    intro c
    rw [copyFrom_quiet missing (by omega), List.drop_zero]
  unfold copyBuffers
  simp only [hcopy]
  set front := buffers.take (nonNull buffers) with hfront
  set total := (bytesOf buffers).length with htotal
  have hparts : bytesOf buffers = bytesOf front ++ bytesOf (buffers.drop (nonNull buffers)) := by
    rw [hfront, ← bytesOf_append, List.take_append_drop]
  have hle : (bytesOf front).length ≤ total := by rw [htotal, hparts, List.length_append]; omega
  unfold FrontHolds
  rw [← hfront, ← htotal]
  by_cases hlarge : maxSize < total % sizeLimit
  · rw [resize, if_pos hlarge]
    exact ⟨fun _ => .inl hlarge, fun _ h => by cases h⟩
  rw [resize, if_neg hlarge]
  show GivesContent buffers ((front.foldlM (copyChunk none) ⟨resized contiguousBuffer (total % sizeLimit), 0, false⟩) >>=
    fun c => .ok ⟨some c.contiguousBuffer, total % sizeLimit, c.contiguousBuffer, c.cudaCopy⟩) ↔ _
  by_cases hfit : NullsEmpty front ∧ (bytesOf front).length ≤ total % sizeLimit
  · rw [foldlM_copyChunk hfit.1 (by rw [Nat.zero_add, length_resized]; exact hfit.2), overwrite_zero]
    show bytesOf front ++ _ = bytesOf buffers ∧ total % sizeLimit = total ↔ _
    rw [hparts, List.append_cancel_left_eq]
    constructor
    · intro ⟨hbehind, hsize⟩
      rw [hsize] at hbehind hlarge
      exact .inr ⟨Nat.le_of_not_lt hlarge, hfit.1, hbehind⟩
    · rintro (h | ⟨hmax, _, hbehind⟩)
      · exact absurd h hlarge
      · have hsize : total % sizeLimit = total := Nat.mod_eq_of_lt (by unfold maxSize at hmax; unfold sizeLimit; omega)
        rw [hsize]
        exact ⟨hbehind, rfl⟩
  · rw [foldlM_copyChunk_undefined (Nat.zero_le _) (by rw [Nat.zero_add, length_resized]; exact hfit)]
    refine iff_of_false (fun h => h rfl) ?_
    rintro (h | ⟨hmax, hnull, _⟩)
    · exact hlarge h
    · refine hfit ⟨hnull, ?_⟩
      rw [Nat.mod_eq_of_lt (by unfold maxSize at hmax; unfold sizeLimit; omega)]
      exact hle

/-- An answer of the server, for the run in which it is not needed. -/
def noBuffer (_ : Nat) : TritonError := ⟨.invalidArg, ""⟩

/-- Every call on the buffers, with whatever fails during it, gives the content if and only if
that holds. -/
theorem getContiguousInputContent_iff (buffers : List InputBuffer) (contiguousBuffer : List UInt8) :
    (∀ chance, GivesContent buffers
      (getContiguousInputContent chance buffers buffers.length contiguousBuffer)) ↔
      ContentHolds buffers contiguousBuffer := by
  let quiet := BufferChance.quiet noBuffer
  have hquiet : (∀ chance, GivesContent buffers
      (getContiguousInputContent chance buffers buffers.length contiguousBuffer)) ↔
      GivesContent buffers (getContiguousInputContent quiet buffers buffers.length contiguousBuffer) := by
    refine ⟨fun h => h quiet, fun h chance => ?_⟩
    rcases getContiguousInputContent_cut chance noBuffer buffers buffers.length contiguousBuffer with heq | ⟨e, heq⟩
    · rw [heq]
      exact h
    · rw [heq]
      trivial
  have hrun : getContiguousInputContent quiet buffers buffers.length contiguousBuffer =
      if nonNull buffers = 0 then .ok ⟨none, 0, contiguousBuffer, false⟩
      else if nonNull buffers = 1 ∧ onGpu buffers = false then firstBuffer quiet buffers contiguousBuffer
      else copyBuffers quiet buffers ⟨nonNull buffers, onGpu buffers, (bytesOf buffers).length % sizeLimit⟩
        contiguousBuffer := by
    rw [getContiguousInputContent, scanFrom_all]
    rfl
  rw [hquiet, hrun, ContentHolds]
  split
  · next hzero =>
    have hnone : GivesContent buffers (.ok ⟨none, 0, contiguousBuffer, false⟩) := by
      rw [GivesContent, bytesOf_of_nonNull_zero hzero]
      exact ⟨rfl, rfl⟩
    exact iff_of_true hnone trivial
  · split
    · next hone => exact firstHolds_iff noBuffer hone.1 contiguousBuffer
    · exact frontHolds_iff noBuffer buffers _ contiguousBuffer

def nullBuffer : InputBuffer := ⟨none, 0, .cpu, by decide, fun _ h => by cases h⟩

def byteBuffer (byte : UInt8) : InputBuffer := ⟨some [byte], 1, .cpu, by decide, fun _ h => by cases h; rfl⟩

/-- A null buffer in front: of one byte nothing is returned, and of two bytes the first, with a
zero behind it. -/
theorem getContiguousInputContent_null_first :
    ¬GivesContent [nullBuffer, byteBuffer 7]
        (getContiguousInputContent (.quiet noBuffer) [nullBuffer, byteBuffer 7] 2 []) ∧
      ¬GivesContent [nullBuffer, byteBuffer 7, byteBuffer 9]
        (getContiguousInputContent (.quiet noBuffer) [nullBuffer, byteBuffer 7, byteBuffer 9] 3 []) :=
  ⟨fun h => absurd h.2 (by decide), fun h => absurd h.1 (by decide)⟩

end TritonAot
