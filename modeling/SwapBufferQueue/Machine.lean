/-
The queue as a machine.  Every atomic operation of `queue.rs` and every buffer
operation it calls is one step of one activity; the program counter of an
activity carries the local variables of the call it is in.  A live slice or
iterator is an activity of its own, so a thread that keeps a slice while it
calls the queue again is two activities here, and so is a slice handed to another
thread.  Spinning is left out: `spin_loop` has no effect on the queue.
-/
import SwapBufferQueue.Words
import SwapBufferQueue.Buffer
import SwapBufferQueue.Lib.Runs

namespace SwapBufferQueue

universe u v w x

def spinLimit : Nat := 64

structure Queue (B : Type u) where
  enqueuingCapacity : EnqueuingCapacity
  dequeuingLength : Usize
  buffers : Fin 2 → B
  buffersLength : Fin 2 → Nat
  capacity : Nat

inductive TryEnqueueError (V : Type v) where
  | insufficientCapacity (value : V)
  | closed (value : V)
deriving Repr, DecidableEq

inductive TryDequeueError where
  | empty
  | pending
  | closed
  | conflict
deriving Repr, DecidableEq

/-- What a finished call returned; `done` is the unit of the slice and iterator
operations, of `close` and of `reopen`. -/
inductive Outcome (α : Type v) where
  | enqueued
  | enqueueError (error : TryEnqueueError (List α))
  | dequeueError (error : TryDequeueError)
  | done
deriving Repr, DecidableEq

/-- The checks whose failure unwinds the calling thread. -/
inductive Panic where
  | capacityOverflow
  | indexUnderflow
  | insertOutOfBounds
  | stageOutOfBounds
  | bufferIndexAssert
  | nextCapacityUnderflow
  | enqueuingCapacityAssert
  | lengthUnderflow
  | resizedAssert
  | sliceOutOfBounds
  | clearOutOfBounds
  | lockedAssert
  | removeOutOfBounds
  | rangeUnderflow
  | foreignOwner
deriving Repr, DecidableEq

/-- The arguments of `try_dequeue_and_resize`: the requested capacity and the
values the insert closure yields. -/
structure ResizeArgs (α : Type v) where
  capacity : Option Nat
  insert : List (List α)
deriving Repr, DecidableEq

/-- `NO_RESIZE`. -/
def ResizeArgs.none {α : Type v} : ResizeArgs α := ⟨Option.none, []⟩

/-- The locals of `try_dequeue_internal` once the next buffer is prepared. -/
structure Attempt where
  dequeuing : DequeuingLength
  resized : Bool
  insertedLength : Nat
  nextCapa : Nat
deriving Repr, DecidableEq

/-- The program counter of an activity. -/
inductive Pc (α : Type v) (σ : Type w) where
  | idle (last : Option (Outcome α))
  | enqueueLoad (value : List α)
  | enqueueReserve (value : List α) (enqueuing next : EnqueuingCapacity)
  | enqueueInsert (value : List α) (enqueuing : EnqueuingCapacity)
  | enqueueAcknowledge (value : List α) (enqueuing : EnqueuingCapacity)
  | dequeueLock (resize : ResizeArgs α)
  | dequeueResize (dequeuing : DequeuingLength) (resize : ResizeArgs α)
  | dequeueInsert (dequeuing : DequeuingLength) (resized : Bool)
      (values : List (List α)) (length : Nat)
  | dequeuePublish (attempt : Attempt)
  | dequeueLoad (attempt : Attempt)
  | dequeueSwap (attempt : Attempt) (capacity : Nat)
      (nextEnqueuing enqueuing : EnqueuingCapacity)
  | dequeueLoadCapacity (attempt : Attempt) (capacity : Nat)
      (enqueuing : EnqueuingCapacity)
  | dequeueStoreCapacity (attempt : Attempt) (capacity : Nat)
      (enqueuing : EnqueuingCapacity)
  | dequeueNotify (attempt : Attempt) (capacity : Nat)
      (enqueuing : EnqueuingCapacity)
  | dequeueSpin (bufferIndex : Fin 2) (length spins : Nat)
  | dequeueSlice (bufferIndex : Fin 2) (start stop : Nat)
  | slice (bufferIndex : Fin 2) (start stop : Nat) (slice : σ)
  | iter (bufferIndex : Fin 2) (start stop : Nat)
  | releaseClear (bufferIndex : Fin 2) (start stop : Nat)
  | releaseLength (bufferIndex : Fin 2)
  | storeDequeuing (dequeuing : DequeuingLength) (outcome : Outcome α)
  | panicked (panic : Panic)
deriving Repr, DecidableEq

/-- A call of an activity, or `run`: the next step of the call it is in.  The
flag is the spurious failure a weak compare-exchange may have. -/
inductive Action (α : Type v) where
  | tryEnqueue (value : List α)
  | tryDequeue
  | tryDequeueAndResize (resize : ResizeArgs α)
  | close
  | reopen
  | drop
  | requeue
  | intoIter
  | next
  | intoSlice
  | withOwned (sameQueue : Bool)
  | run (spurious : Bool)
deriving Repr, DecidableEq

def Action.value? {α : Type v} : Action α → Option (List α)
  | .tryEnqueue value => some value
  | _ => none

def Action.resize? {α : Type v} : Action α → Option (ResizeArgs α)
  | .tryDequeueAndResize resize => some resize
  | _ => none

/-- What a step shows: the effects on the content of the queue. -/
inductive Event (α : Type v) where
  | silent
  | reserved (bufferIndex : Fin 2) (value : List α)
  | inserted (bufferIndex : Fin 2) (value : List α)
  | acknowledged (bufferIndex : Fin 2) (value : List α)
  | locked (dequeuing : DequeuingLength)
  | resized (bufferIndex : Fin 2) (capacity : Nat)
  | staged (bufferIndex : Fin 2) (value : List α)
  | published (bufferIndex : Fin 2)
  | foundEmpty (error : TryDequeueError)
  | swapped (bufferIndex : Fin 2)
  | sliced (bufferIndex : Fin 2) (start stop : Nat)
  | consumed (bufferIndex : Fin 2) (values : List α)
  | released (bufferIndex : Fin 2)
  | unlocked (dequeuing : DequeuingLength)
  | closed
  | reopened
deriving Repr, DecidableEq

section Steps

variable {B : Type u} {α : Type v} {σ : Type w} [Buffer B α σ]

def Queue.setBuffer (q : Queue B) (i : Fin 2) (b : B) : Queue B :=
  { q with buffers := Function.update q.buffers i b }

def Queue.setLength (q : Queue B) (i : Fin 2) (length : Nat) : Queue B :=
  { q with buffersLength := Function.update q.buffersLength i length }

/-- `fetch_add` on a `usize` wraps. -/
def Queue.addLength (q : Queue B) (i : Fin 2) (length : Nat) : Queue B :=
  q.setLength i ((q.buffersLength i + length) % 2 ^ 64)

@[simp]
theorem Queue.buffers_setBuffer (q : Queue B) (i j : Fin 2) (b : B) :
    (q.setBuffer i b).buffers j = if j = i then b else q.buffers j := by
  by_cases hj : j = i
  · subst hj
    simp [setBuffer]
  · simp [setBuffer, hj]

@[simp]
theorem Queue.buffersLength_setLength (q : Queue B) (i j : Fin 2) (length : Nat) :
    (q.setLength i length).buffersLength j =
      if j = i then length else q.buffersLength j := by
  by_cases hj : j = i
  · subst hj
    simp [setLength]
  · simp [setLength, hj]

theorem Queue.capacity_setBuffer {q : Queue B} {i : Fin 2} {b : B}
    (hcapacity : Buffer.capacity b = Buffer.capacity (q.buffers i)) (j : Fin 2) :
    Buffer.capacity ((q.setBuffer i b).buffers j) =
      Buffer.capacity (q.buffers j) := by
  rw [buffers_setBuffer]
  split
  · rename_i hj
    rw [hj, hcapacity]
  · rfl

/-- The head of the reservation loop of `try_enqueue`, on the word just read. -/
def enqueueCheck (value : List α) (enqueuing : EnqueuingCapacity) : Pc α σ :=
  if enqueuing.isClosed then
    .idle (some (.enqueueError (.closed value)))
  else
    match enqueuing.tryReserve value.length with
    | none => .idle (some (.enqueueError (.insufficientCapacity value)))
    | some next => .enqueueReserve value enqueuing next

/-- The entry of `try_dequeue_internal`: an ongoing batch goes straight to the
spin loop. -/
def dequeueEntry (dequeuing : DequeuingLength) (resize : ResizeArgs α) : Pc α σ :=
  if dequeuing.bufferLen = 0 then .dequeueResize dequeuing resize
  else .dequeueSpin dequeuing.bufferIndex dequeuing.bufferLen 0

/-- `Queue::requeue`. -/
def requeueRange (i : Fin 2) (start stop : Nat) : Pc α σ :=
  if stop < start then .panicked .rangeUnderflow
  else if start < stop then
    .storeDequeuing (DequeuingLength.new i (stop - start)) .done
  else .releaseClear i start stop

/-- The end of `try_dequeue_internal`, after the enqueuers were notified. -/
def dequeueFinish (attempt : Attempt) (capacity : Nat)
    (enqueuing : EnqueuingCapacity) : Pc α σ :=
  if capacity < enqueuing.remainingCapacity then .panicked .lengthUnderflow
  else if capacity - enqueuing.remainingCapacity ≠ 0 then
    .dequeueSpin enqueuing.bufferIndex
      (capacity - enqueuing.remainingCapacity) 0
  else if 0 < attempt.insertedLength then
    dequeueEntry (DequeuingLength.new enqueuing.bufferIndex 0) .none
  else if attempt.resized then
    .storeDequeuing (DequeuingLength.new enqueuing.bufferIndex 0)
      (.dequeueError .empty)
  else .panicked .resizedAssert

/-- One step of the call an activity is in. -/
def Queue.run (q : Queue B) (spurious : Bool) :
    Pc α σ → Option (Queue B × Pc α σ × Event α)
  | .enqueueLoad value =>
      some (q, enqueueCheck value q.enqueuingCapacity, .silent)
  | .enqueueReserve value enqueuing next =>
      if spurious = false ∧ q.enqueuingCapacity = enqueuing then
        some ({ q with enqueuingCapacity := next }, .enqueueInsert value enqueuing,
          .reserved enqueuing.bufferIndex value)
      else
        some (q, enqueueCheck value q.enqueuingCapacity, .silent)
  | .enqueueInsert value enqueuing =>
      let i := enqueuing.bufferIndex
      let b := q.buffers i
      if Buffer.capacity b < enqueuing.remainingCapacity then
        some (q, .panicked .indexUnderflow, .silent)
      else
        match Buffer.insertInto b (Buffer.capacity b - enqueuing.remainingCapacity)
            value with
        | none => some (q, .panicked .insertOutOfBounds, .silent)
        | some b' => some (q.setBuffer i b', .enqueueAcknowledge value enqueuing,
            .inserted i value)
  | .enqueueAcknowledge value enqueuing =>
      let i := enqueuing.bufferIndex
      some (q.addLength i value.length, .idle (some .enqueued),
        .acknowledged i value)
  | .dequeueLock resize =>
      match DequeuingLength.tryFromAtomic q.dequeuingLength with
      | none => some ({ q with dequeuingLength := dequeuingLocked },
          .idle (some (.dequeueError .conflict)), .silent)
      | some dequeuing => some ({ q with dequeuingLength := dequeuingLocked },
          dequeueEntry dequeuing resize, .locked dequeuing)
  | .dequeueResize dequeuing resize =>
      let i := dequeuing.bufferIndex
      let b := q.buffers i
      match resize.capacity.filter fun capa => capa != Buffer.capacity b with
      | none => some (q, .dequeueInsert dequeuing false resize.insert 0, .silent)
      | some capa =>
          if checkOverflow capa then
            match Buffer.resize b capa with
            | none => none
            | some b' => some (q.setBuffer i b',
                .dequeueInsert dequeuing true resize.insert 0, .resized i capa)
          else some (q, .panicked .capacityOverflow, .silent)
  | .dequeueInsert dequeuing resized values length =>
      let i := dequeuing.bufferIndex
      let b := q.buffers i
      match values with
      | [] => some (q, .dequeuePublish
          ⟨dequeuing, resized, length, Buffer.capacity b⟩, .silent)
      | value :: rest =>
          if value.length = 0 then
            some (q, .dequeueInsert dequeuing resized rest length, .silent)
          else if Buffer.capacity b < value.length then
            some (q, .dequeuePublish
              ⟨dequeuing, resized, length, Buffer.capacity b⟩, .silent)
          else
            match Buffer.insertInto b length value with
            | none => some (q, .panicked .stageOutOfBounds, .silent)
            | some b' => some (q.setBuffer i b', .dequeueInsert dequeuing resized
                rest (length + value.length), .staged i value)
  | .dequeuePublish attempt =>
      let i := attempt.dequeuing.bufferIndex
      if 0 < attempt.insertedLength then
        some (q.addLength i attempt.insertedLength, .dequeueLoad attempt,
          .published i)
      else some (q, .dequeueLoad attempt, .silent)
  | .dequeueLoad attempt =>
      let enqueuing := q.enqueuingCapacity
      let capacity := Buffer.capacity (q.buffers enqueuing.bufferIndex)
      if attempt.dequeuing.bufferIndex = enqueuing.bufferIndex then
        some (q, .panicked .bufferIndexAssert, .silent)
      else if enqueuing.remainingCapacity = capacity ∧ attempt.resized = false ∧
          attempt.insertedLength = 0 then
        let error : TryDequeueError := if enqueuing.isClosed then .closed else .empty
        some (q, .storeDequeuing attempt.dequeuing (.dequeueError error),
          .foundEmpty error)
      else if attempt.nextCapa < attempt.insertedLength then
        some (q, .panicked .nextCapacityUnderflow, .silent)
      else
        match EnqueuingCapacity.new attempt.dequeuing.bufferIndex
            (attempt.nextCapa - attempt.insertedLength) with
        | none => some (q, .panicked .enqueuingCapacityAssert, .silent)
        | some next => some (q, .dequeueSwap attempt capacity next enqueuing, .silent)
  | .dequeueSwap attempt capacity nextEnqueuing enqueuing =>
      if spurious = false ∧ q.enqueuingCapacity = enqueuing then
        some ({ q with enqueuingCapacity := nextEnqueuing.withClosed enqueuing },
          .dequeueLoadCapacity attempt capacity enqueuing,
          .swapped attempt.dequeuing.bufferIndex)
      else
        some (q, .dequeueSwap attempt capacity nextEnqueuing q.enqueuingCapacity,
          .silent)
  | .dequeueLoadCapacity attempt capacity enqueuing =>
      if q.capacity ≠ attempt.nextCapa then
        some (q, .dequeueStoreCapacity attempt capacity enqueuing, .silent)
      else some (q, .dequeueNotify attempt capacity enqueuing, .silent)
  | .dequeueStoreCapacity attempt capacity enqueuing =>
      some ({ q with capacity := attempt.nextCapa },
        .dequeueNotify attempt capacity enqueuing, .silent)
  | .dequeueNotify attempt capacity enqueuing =>
      some (q, dequeueFinish attempt capacity enqueuing, .silent)
  | .dequeueSpin i length spins =>
      if length ≤ q.buffersLength i then
        some (q, .dequeueSlice i (q.buffersLength i - length) (q.buffersLength i),
          .silent)
      else if spins + 1 < spinLimit then
        some (q, .dequeueSpin i length (spins + 1), .silent)
      else
        some (q, .storeDequeuing (DequeuingLength.new i length)
          (.dequeueError .pending), .silent)
  | .dequeueSlice i start stop =>
      match Buffer.slice (q.buffers i) start stop with
      | none => some (q, .panicked .sliceOutOfBounds, .silent)
      | some slice => some (q, .slice i start stop slice, .sliced i start stop)
  | .releaseClear i start stop =>
      match Buffer.clear (q.buffers i) start stop with
      | none => some (q, .panicked .clearOutOfBounds, .silent)
      | some (values, b') =>
          some (q.setBuffer i b', .releaseLength i, .consumed i values)
  | .releaseLength i =>
      some (q.setLength i 0, .storeDequeuing (DequeuingLength.new i 0) .done,
        .released i)
  | .storeDequeuing dequeuing outcome =>
      some ({ q with dequeuingLength := dequeuing.word }, .idle (some outcome),
        .unlocked dequeuing)
  | .idle _ | .slice _ _ _ _ | .iter _ _ _ | .panicked _ => none

/-- What an activity may do: call the queue when it is idle, use the slice or
the iterator it has, or go on with its call. -/
def Queue.act (q : Queue B) (pc : Pc α σ) :
    Action α → Option (Queue B × Pc α σ × Event α)
  | .tryEnqueue value =>
      match pc with
      | .idle _ =>
          if value.length = 0 then some (q, .idle (some .enqueued), .silent)
          else some (q, .enqueueLoad value, .silent)
      | _ => none
  | .tryDequeue =>
      match pc with
      | .idle _ => some (q, .dequeueLock .none, .silent)
      | _ => none
  | .tryDequeueAndResize resize =>
      match pc with
      | .idle _ => some (q, .dequeueLock resize, .silent)
      | _ => none
  | .close =>
      match pc with
      | .idle _ => some ({ q with enqueuingCapacity := q.enqueuingCapacity.close },
          .idle (some .done), .closed)
      | _ => none
  | .reopen =>
      match pc with
      | .idle _ => some ({ q with enqueuingCapacity := q.enqueuingCapacity.reopen },
          .idle (some .done), .reopened)
      | _ => none
  | .drop =>
      match pc with
      | .slice i start stop _ => some (q, .releaseClear i start stop, .silent)
      | .iter i start stop => some (q, requeueRange i start stop, .silent)
      | _ => none
  | .requeue =>
      match pc with
      | .slice i start stop _ => some (q, requeueRange i start stop, .silent)
      | _ => none
  | .intoIter =>
      match pc with
      | .slice i start stop _ => some (q, .iter i start stop, .silent)
      | _ => none
  | .next =>
      match pc with
      | .iter i start stop =>
          if stop ≤ start then some (q, .iter i start stop, .silent)
          else if q.dequeuingLength ≠ dequeuingLocked then
            some (q, .panicked .lockedAssert, .silent)
          else
            match Buffer.remove (q.buffers i) start with
            | none => some (q, .panicked .removeOutOfBounds, .silent)
            | some (value, b') =>
                some (q.setBuffer i b', .iter i (start + 1) stop,
                  .consumed i [value])
      | _ => none
  | .intoSlice =>
      match pc with
      | .iter i start stop => some (q, .dequeueSlice i start stop, .silent)
      | _ => none
  | .withOwned sameQueue =>
      match pc with
      | .iter i start stop =>
          if sameQueue then some (q, .iter i start stop, .silent)
          else some (q, .panicked .foreignOwner, .silent)
      | _ => none
  | .run spurious => q.run spurious pc

/-- `Queue::new`; `none` is the panic of `check_overflow`. -/
def Queue.new : Option (Queue B) :=
  let b : B := Buffer.default
  let capacity := Buffer.capacity b
  if checkOverflow capacity then
    (EnqueuingCapacity.new 0 capacity).map fun enqueuing =>
      ⟨enqueuing, (DequeuingLength.new 1 0).word, fun _ => b, fun _ => 0, capacity⟩
  else none

/-- `Queue::with_capacity`. -/
def Queue.withCapacity (capacity : Nat) : Option (Queue B) :=
  if checkOverflow capacity then
    match Buffer.resize (Buffer.default : B) capacity,
        EnqueuingCapacity.new 0 capacity with
    | some b, some enqueuing => some
        ⟨enqueuing, (DequeuingLength.new 1 0).word, fun _ => b, fun _ => 0, capacity⟩
    | _, _ => none
  else none

end Steps

/-- The queue and the activities around it. -/
structure State (T : Type x) (B : Type u) (α : Type v) (σ : Type w) where
  queue : Queue B
  pcs : T → Pc α σ

section Machine

variable {T : Type x} {B : Type u} {α : Type v} {σ : Type w}
variable [DecidableEq T] [Buffer B α σ]

def step (s : State T B α σ) (label : T × Action α) :
    Option (State T B α σ × Event α) :=
  match s.queue.act (s.pcs label.1) label.2 with
  | none => none
  | some (q, pc, event) => some (⟨q, Function.update s.pcs label.1 pc⟩, event)

theorem step_of_act {s : State T B α σ} {t : T} {action : Action α} {pc : Pc α σ}
    (hpc : s.pcs t = pc) {q' : Queue B} {pc' : Pc α σ} {event : Event α}
    (hact : s.queue.act pc action = some (q', pc', event)) :
    step s (t, action) = some (⟨q', Function.update s.pcs t pc'⟩, event) := by
  simp only [step, hpc, hact]

/-- Every activity is idle and has called nothing yet. -/
def State.ofQueue (q : Queue B) : State T B α σ :=
  ⟨q, fun _ => .idle none⟩

def Initial (s : State T B α σ) : Prop :=
  (s.queue ∈ (Queue.new : Option (Queue B)) ∨
    ∃ capacity, s.queue ∈ (Queue.withCapacity capacity : Option (Queue B))) ∧
  s.pcs = fun _ => .idle none

omit [DecidableEq T] in
theorem initial_withCapacity {capacity : Nat}
    (hsome : (Queue.withCapacity capacity : Option (Queue B)).isSome = true) :
    Initial (State.ofQueue ((Queue.withCapacity capacity).get hsome) :
      State T B α σ) :=
  ⟨Or.inr ⟨capacity, (Option.some_get hsome).symm⟩, rfl⟩

end Machine

end SwapBufferQueue
