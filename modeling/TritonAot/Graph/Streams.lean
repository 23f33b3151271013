import TritonAot.Lib.Streams
import Mathlib.Data.Finset.Insert
import Mathlib.Data.Finset.Erase

/-! The streams of an instance.

The host thread issues work on the instance's stream, on each graph's own stream and, at
load, on the default one, and goes on. `ReplayCudaGraphEntry` orders the graph's stream behind
the inputs and the instance's stream behind the graph, each by an event; `CaptureBucket` clones its
inputs on the graph's stream behind nothing. So a run is *disciplined* where a bucket is
prestaged only while it is primed: its static inputs were copied over, and that replay was
launched. Then the device may complete what any number of instances issue in any order it
finds, and every response holds what the order of issue delivers (`completes_delivers`). -/
namespace TritonAot

open Streams

variable {K S D : Type} [DecidableEq K]

/-- The buffers of an instance on the device. A batch is gathered and padded where the one
before it was. -/
inductive Buffer (K : Type) where
  /-- The tensors that the warmup creates. -/
  | created (i : Nat)
  | gathered (i : Nat)
  | padded (i : Nat)
  | staticInput (key : K) (i : Nat)
  | staticOutput (key : K) (j : Nat)
  /-- The outputs of the runs before a capture. -/
  | scratch (key : K)
  | eager (j : Nat)
  | response (batch j : Nat)
  deriving DecidableEq

/-- Where work is handed to: the stream that is current at load, the stream of the instance,
and the stream of a captured graph. -/
inductive Port (K : Type) where
  | loading
  | own
  | graph (key : K)
  deriving DecidableEq

/-- The two events of an instance, and the replay that records them. -/
inductive Ready where
  | inputs (replay : Nat)
  | outputs (replay : Nat)
  deriving DecidableEq

abbrev DeviceOp (K D : Type) := Op (Port K) Ready (Buffer K) D

/-- What the host thread of an instance does on the device. A call that throws has issued what
stands before the throw. -/
inductive Routine (K D : Type) where
  /-- The tensors of `WarmupCudaGraphs`. -/
  | create (tensors : List D)
  /-- `SetInputTensors` beside the cache, one for each input that is gathered. -/
  | collect (fills : List (Nat × D)) (synced : Bool)
  /-- `SetInputTensors` into the static inputs of an entry, one for each declared input. -/
  | prestage (key : K) (fills : List (Nat × D)) (synced : Bool)
  | padRequestsUp (pads : List (D → D))
  | captureBucket (key : K) (sources : List (Buffer K)) (thrown : Option Nat)
  /-- `ReplayCudaGraphEntry`, with the tensors to copy and how a copy converts. -/
  | replayCudaGraphEntry (key : K) (copies : List (Buffer K × (D → D))) (thrown : Option Nat)
  /-- The eager run. -/
  | run (inputs : List (Buffer K)) (model : List D → Nat → D)
  | readOutputTensors (batch : Nat) (outputs : List (Buffer K × (D → D))) (synced : Bool)

/-- `cudaStreamSynchronize` on the instance's stream, where something was queued. -/
def drained (synced : Bool) : List (DeviceOp K D) := if synced then [.synchronize .own] else []

section Issue
variable (arity : Nat) (graph : K → List D → Nat → D)

def staticInputs (key : K) : List (Buffer K) := (List.range arity).map (.staticInput key)

/-- What is stored at each index. -/
def stores (port : Port K) (target : Nat → Buffer K) (fills : List (Nat × D)) : List (DeviceOp K D) :=
  fills.map fun fill => .work port (.store (target fill.1) fill.2)

/-- What is stored in turn, from an index on. -/
def storesFrom (port : Port K) (target : Nat → Buffer K) : Nat → List D → List (DeviceOp K D)
  | _, [] => []
  | i, d :: rest => .work port (.store (target i) d) :: storesFrom port target (i + 1) rest

/-- What is copied in turn, from an index on. -/
def copiesFrom (port : Port K) (target : Nat → Buffer K) : Nat → List (Buffer K × (D → D)) → List (DeviceOp K D)
  | _, [] => []
  | i, (source, convert) :: rest => .work port (.copy source (target i) convert) :: copiesFrom port target (i + 1) rest

/-- The graph on its static inputs. -/
def launch (key : K) : DeviceOp K D :=
  .work (.graph key) <| .compute (staticInputs arity key) fun
    | .staticOutput key' j => if key' = key then some fun inputs => graph key inputs j else none
    | _ => none

/-- One of the runs before the capture. -/
def warmRun (key : K) : DeviceOp K D :=
  .work (.graph key) <| .compute (staticInputs arity key) fun
    | .scratch key' => if key' = key then some fun inputs => graph key inputs 0 else none
    | _ => none

def eagerRun (inputs : List (Buffer K)) (model : List D → Nat → D) : DeviceOp K D :=
  .work .own <| .compute inputs fun
    | .eager j => some fun ds => model ds j
    | _ => none

/-- `CaptureBucket`: clones, three runs, and the graph is captured between two waits. -/
def captureOps (key : K) (sources : List (Buffer K)) : List (DeviceOp K D) :=
  copiesFrom (.graph key) (.staticInput key) 0 (sources.map fun source => (source, id)) ++
    [warmRun arity graph key, warmRun arity graph key, warmRun arity graph key,
      .synchronize (.graph key), .synchronize (.graph key)]

/-- `ReplayCudaGraphEntry` up to the copies. -/
def awaitInputs (replay : Nat) (key : K) : List (DeviceOp K D) :=
  [.record .own (.inputs replay), .wait (.graph key) (.inputs replay)]

/-- `ReplayCudaGraphEntry` from the launch on. -/
def launchAndAwait (replay : Nat) (key : K) : List (DeviceOp K D) :=
  [launch arity graph key, .record (.graph key) (.outputs replay), .wait .own (.outputs replay)]

/-- What a routine issues. -/
def Routine.issue (replay : Nat) : Routine K D → List (DeviceOp K D)
  | create tensors => storesFrom .loading .created 0 tensors
  | collect fills synced => stores .own .gathered fills ++ drained synced
  | prestage key fills synced => stores .own (.staticInput key) fills ++ drained synced
  | padRequestsUp pads => padsFrom 0 pads
  | captureBucket key sources thrown =>
    match thrown with
    | none => captureOps arity graph key sources
    | some issued => (captureOps arity graph key sources).take issued
  | replayCudaGraphEntry key copies thrown =>
    match thrown with
    | none => awaitInputs replay key ++ (copiesFrom (.graph key) (.staticInput key) 0 copies ++
        launchAndAwait arity graph replay key)
    | some issued => awaitInputs replay key ++ copiesFrom (.graph key) (.staticInput key) 0 (copies.take issued)
  | run inputs model => [eagerRun inputs model, .synchronize .own]
  | readOutputTensors batch outputs synced => copiesFrom .own (.response batch) 0 outputs ++ drained synced
where
  padsFrom : Nat → List (D → D) → List (DeviceOp K D)
    | _, [] => []
    | i, pad :: rest => .work .own (.copy (.gathered i) (.padded i) pad) :: padsFrom (i + 1) rest

/-- What a run issues, one routine after the other. -/
def issueFrom : Nat → List (Routine K D) → List (DeviceOp K D)
  | _, [] => []
  | replay, routine :: rest => routine.issue arity graph replay ++ issueFrom (replay + 1) rest

end Issue

/-! ### Discipline -/

/-- What the host knows of the entries: those that were captured, and those that are *primed*. -/
structure Books (K : Type) where
  captured : Finset K
  primed : Finset K

/-- A buffer of the batch itself. -/
inductive OfBatch : Buffer K → Prop where
  | gathered (i : Nat) : OfBatch (.gathered i)
  | padded (i : Nat) : OfBatch (.padded i)

/-- What may be read on the instance's stream. -/
inductive Readable (arity : Nat) (books : Books K) : Buffer K → Prop where
  | batch {b : Buffer K} (h : OfBatch b) : Readable arity books b
  | eager (j : Nat) : Readable arity books (.eager j)
  | staticInput {key : K} (h : key ∈ books.primed) {i : Nat} (hi : i < arity) : Readable arity books (.staticInput key i)
  | staticOutput {key : K} (h : key ∈ books.primed) (j : Nat) : Readable arity books (.staticOutput key j)

/-- A graph is captured into buffers of its own, every static input is copied over or none is, and
what is prestaged, or read, is primed. -/
def Routine.Allowed (arity : Nat) (books : Books K) : Routine K D → Prop
  | create _ | collect _ _ | padRequestsUp _ => True
  | prestage key _ _ => key ∈ books.primed
  | captureBucket key _ _ => key ∉ books.captured
  | replayCudaGraphEntry key copies _ =>
    key ∈ books.captured ∧ (∀ c ∈ copies, OfBatch c.1) ∧ (copies = [] ∧ key ∈ books.primed ∨ copies.length = arity)
  | run inputs _ => ∀ b ∈ inputs, Readable arity books b
  | readOutputTensors _ outputs _ => ∀ c ∈ outputs, Readable arity books c.1

/-- A replay that is launched primes its entry; copies that no launch follows leave it unprimed. -/
def Routine.after (books : Books K) : Routine K D → Books K
  | captureBucket key _ _ => {books with captured := insert key books.captured}
  | replayCudaGraphEntry key copies thrown =>
    match thrown with
    | none => {books with primed := insert key books.primed}
    | some issued => if copies.take issued = [] then books else {books with primed := books.primed.erase key}
  | _ => books

def Disciplined (arity : Nat) : Books K → List (Routine K D) → Prop
  | _, [] => True
  | books, routine :: rest => routine.Allowed arity books ∧ Disciplined arity (routine.after books) rest

/-- What the host knows after a run. -/
def booksAfter : Books K → List (Routine K D) → Books K
  | books, [] => books
  | books, routine :: rest => booksAfter (routine.after books) rest

end TritonAot
