/-
`SynchronizedQueue`: the blocking and the asynchronous calls.  `enqueue`, `dequeue` and
their futures try the queue `SPIN_LIMIT` times, register a waker, try once more, and then
park or return `Pending`; a successful `try_enqueue` and `close` wake the dequeuer, a swap
and `close` wake the enqueuers.  The calls of the queue are the steps of the machine, those
of the notifier the steps of `AtomicWaker` and `WakerList`.
-/
import SwapBufferQueue.Closing
import SwapBufferQueue.WakerList

namespace SwapBufferQueue

universe u v w x y

/-- Where a thread or a task is.  `enqueueTrying` and `dequeueTrying` are inside
`try_enqueue` and `try_dequeue`, `enqueueCapacity` is the guard behind a failed one. -/
inductive SyncControl (T : Type x) (K : Type y) (α : Type v) where
  | outside
  | enqueueAttempt (value : List α) (count : Nat)
  | enqueueTrying (value : List α) (count : Nat)
  | enqueueCapacity (value : List α) (count : Nat)
  | enqueueRegister (value : List α) (call : ListCall T K)
  | enqueueWait (value : List α)
  | enqueueNotify (call : AtomicCall T K)
  | dequeueAttempt (count : Nat)
  | dequeueTrying (count : Nat)
  | dequeueNotify (count : Nat) (call : ListCall T K)
  | dequeueRegister (call : AtomicCall T K)
  | dequeueWait
  | closeDequeuer (call : AtomicCall T K)
  | closeEnqueuers (call : ListCall T K)
deriving Repr, DecidableEq

/-- A call, with the waker of its first poll when it is asynchronous; the use of a slice
or an iterator; the return of a park or the next poll of a pending future; the drop of a
pending future; or the next step of the call. -/
inductive SyncAction (K : Type y) (α : Type v) where
  | enqueue (value : List α) (cx : Option K)
  | dequeue (cx : Option K)
  | close
  | reopen
  | use (action : Action α)
  | resume (cx : Option K)
  | cancel
  | run (spurious : Bool)
deriving Repr, DecidableEq

/-- A step of the queue with what it shows there, or none. -/
inductive SyncEvent (α : Type v) where
  | silent
  | called (action : Action α) (event : Event α)
deriving Repr, DecidableEq

/-- The queue with its `SynchronizedNotifier`, and the threads and tasks: `polls` has the
waker of the last poll, `tokens` the tokens of `park` and `unpark`, `woken` whether a
future was woken since its last poll began. -/
structure SyncState (T : Type x) (K : Type y) (B : Type u) (α : Type v) (σ : Type w) where
  base : State T B α σ
  enqueuers : WakerList T K
  dequeuer : AtomicWaker T K
  controls : T → SyncControl T K α
  polls : T → Option K
  tokens : T → Bool
  woken : T → Bool

variable {T : Type x} {K : Type y} {B : Type u} {α : Type v} {σ : Type w}

/-- What follows an attempt that did not succeed: the loop has `SPIN_LIMIT` of them, the
attempt after the registration is the last one before the call waits. -/
def retrySync (count : Nat) (attempt : Nat → SyncControl T K α)
    (register wait : SyncControl T K α) : SyncControl T K α :=
  if count + 1 < spinLimit then attempt (count + 1)
  else if count < spinLimit then register
  else wait

/-- The operations of slices and iterators. -/
def Action.uses : Action α → Bool
  | .drop => true
  | .requeue => true
  | .intoIter => true
  | .next => true
  | .intoSlice => true
  | .withOwned _ => true
  | _ => false

section Steps

variable [DecidableEq T] [DecidableEq K] [Buffer B α σ]

/-- A thread gets its token, a task is scheduled. -/
def SyncState.signal (s : SyncState T K B α σ) : Option (Waker T K) → SyncState T K B α σ
  | none => s
  | some (.sync thread) => { s with tokens := Function.update s.tokens thread true }
  | some (.async waker) =>
      { s with woken := fun t => s.woken t || decide (s.polls t = some waker) }

def SyncState.setControl (s : SyncState T K B α σ) (t : T) (control : SyncControl T K α) :
    SyncState T K B α σ :=
  { s with controls := Function.update s.controls t control }

/-- A step outside of the queue and the notifier. -/
def SyncState.move (s : SyncState T K B α σ) (t : T) (control : SyncControl T K α) :
    Option (SyncState T K B α σ × SyncEvent α) :=
  some (s.setControl t control, .silent)

def SyncState.call (s : SyncState T K B α σ) (t : T) (action : Action α)
    (control : SyncControl T K α) : Option (SyncState T K B α σ × SyncEvent α) :=
  match step s.base (t, action) with
  | none => none
  | some (base, event) =>
      some ({ s with base := base }.setControl t control, .called action event)

def SyncState.atomicStep (s : SyncState T K B α σ) (t : T) (call : AtomicCall T K)
    (control : AtomicCall T K → SyncControl T K α) :
    Option (SyncState T K B α σ × SyncEvent α) :=
  match s.dequeuer.run t call with
  | none => none
  | some (dequeuer, call, woken) =>
      some (({ s with dequeuer := dequeuer }.setControl t (control call)).signal woken,
        .silent)

def SyncState.listStep (s : SyncState T K B α σ) (t : T) (call : ListCall T K)
    (control : ListCall T K → SyncControl T K α) :
    Option (SyncState T K B α σ × SyncEvent α) :=
  match s.enqueuers.run t call with
  | none => none
  | some (enqueuers, call, woken) =>
      some (({ s with enqueuers := enqueuers }.setControl t (control call)).signal woken,
        .silent)

/-- A call begins, or a future is polled: what was woken before does not count. -/
def SyncState.poll (s : SyncState T K B α σ) (t : T) (cx : Option K)
    (control : SyncControl T K α) : Option (SyncState T K B α σ × SyncEvent α) :=
  some ({ s with
    controls := Function.update s.controls t control
    polls := Function.update s.polls t cx
    woken := Function.update s.woken t false }, .silent)

/-- A park returns, with the token or spuriously; a future is polled again. -/
def SyncState.resume (s : SyncState T K B α σ) (t : T) (cx : Option K)
    (control : SyncControl T K α) : Option (SyncState T K B α σ × SyncEvent α) :=
  match s.polls t, cx with
  | none, none =>
      some ({ s with
        controls := Function.update s.controls t control
        tokens := Function.update s.tokens t false }, .silent)
  | some _, some waker => s.poll t (some waker) control
  | _, _ => none

/-- The next step of the call of `t`. -/
def SyncState.run (s : SyncState T K B α σ) (t : T) (spurious : Bool) :
    Option (SyncState T K B α σ × SyncEvent α) :=
  match s.controls t with
  | .outside => s.call t (.run spurious) .outside
  | .enqueueAttempt value count => s.call t (.tryEnqueue value) (.enqueueTrying value count)
  | .enqueueTrying value count =>
      match s.base.pcs t with
      | .enqueueAcknowledge _ _ => s.call t (.run spurious) (.enqueueNotify .wakeStart)
      | .idle (some (.enqueueError (.insufficientCapacity _))) =>
          s.move t (.enqueueCapacity value count)
      | .idle _ => s.move t .outside
      | _ => s.call t (.run spurious) (.enqueueTrying value count)
  | .enqueueCapacity value count =>
      if value.length ≤ s.base.queue.capacity then
        s.move t (retrySync count (.enqueueAttempt value)
          (.enqueueRegister value (.registerLock (s.polls t))) (.enqueueWait value))
      else s.move t .outside
  | .enqueueRegister value .returned => s.move t (.enqueueAttempt value spinLimit)
  | .enqueueRegister value call => s.listStep t call (.enqueueRegister value)
  | .enqueueWait _ => none
  | .enqueueNotify .returned => s.move t .outside
  | .enqueueNotify call => s.atomicStep t call .enqueueNotify
  | .dequeueAttempt count => s.call t .tryDequeue (.dequeueTrying count)
  | .dequeueTrying count =>
      match s.base.pcs t with
      | .dequeueNotify _ _ _ => s.move t (.dequeueNotify count .wakeLoad)
      | .slice _ _ _ _ => s.move t .outside
      | .idle (some (.dequeueError .empty)) =>
          s.move t (retrySync count .dequeueAttempt
            (.dequeueRegister (.registerStart (s.polls t))) .dequeueWait)
      | .idle (some (.dequeueError .pending)) =>
          s.move t (retrySync count .dequeueAttempt
            (.dequeueRegister (.registerStart (s.polls t))) .dequeueWait)
      | .idle _ => s.move t .outside
      | _ => s.call t (.run spurious) (.dequeueTrying count)
  | .dequeueNotify count .returned => s.call t (.run spurious) (.dequeueTrying count)
  | .dequeueNotify count call => s.listStep t call (.dequeueNotify count)
  | .dequeueRegister .returned => s.move t (.dequeueAttempt spinLimit)
  | .dequeueRegister call => s.atomicStep t call .dequeueRegister
  | .dequeueWait => none
  | .closeDequeuer .returned => s.move t (.closeEnqueuers .wakeLoad)
  | .closeDequeuer call => s.atomicStep t call .closeDequeuer
  | .closeEnqueuers .returned => s.move t .outside
  | .closeEnqueuers call => s.listStep t call .closeEnqueuers

/-- One step of the system.  A call begins when the thread is not inside another one. -/
def syncStep (s : SyncState T K B α σ) (label : T × SyncAction K α) :
    Option (SyncState T K B α σ × SyncEvent α) :=
  let t := label.1
  match label.2 with
  | .enqueue value cx =>
      match s.controls t, s.base.pcs t with
      | .outside, .idle _ => s.poll t cx (.enqueueAttempt value 0)
      | _, _ => none
  | .dequeue cx =>
      match s.controls t, s.base.pcs t with
      | .outside, .idle _ => s.poll t cx (.dequeueAttempt 0)
      | _, _ => none
  | .close =>
      match s.controls t with
      | .outside => s.call t .close (.closeDequeuer .wakeStart)
      | _ => none
  | .reopen =>
      match s.controls t with
      | .outside => s.call t .reopen .outside
      | _ => none
  | .use action =>
      match s.controls t with
      | .outside => if action.uses then s.call t action .outside else none
      | _ => none
  | .resume cx =>
      match s.controls t with
      | .enqueueWait value => s.resume t cx (.enqueueAttempt value 0)
      | .dequeueWait => s.resume t cx (.dequeueAttempt 0)
      | _ => none
  | .cancel =>
      match s.controls t, s.polls t with
      | .enqueueWait _, some _ => s.move t .outside
      | .dequeueWait, some _ => s.move t .outside
      | _, _ => none
  | .run spurious => s.run t spurious

end Steps

/-- The control points of `dequeue` and of its future. -/
def SyncControl.dequeues : SyncControl T K α → Bool
  | .dequeueAttempt _ => true
  | .dequeueTrying _ => true
  | .dequeueNotify _ _ => true
  | .dequeueRegister _ => true
  | .dequeueWait => true
  | _ => false

/-- There is one dequeuer: a call of `dequeue` begins when no other one is unfinished.
Owners of iterators belong to the queue. -/
def SyncOk (s : SyncState T K B α σ) (label : T × SyncAction K α) : Prop :=
  match label.2 with
  | .enqueue value _ => value.length < 2 ^ 63
  | .dequeue _ => ∀ t, (s.controls t).dequeues = false
  | .use action => action ≠ .withOwned false
  | _ => True

instance instDecidableSyncOk [Fintype T] [DecidableEq α] (s : SyncState T K B α σ)
    (label : T × SyncAction K α) : Decidable (SyncOk s label) :=
  match label with
  | (_, .enqueue value _) => inferInstanceAs (Decidable (value.length < 2 ^ 63))
  | (_, .dequeue _) =>
      inferInstanceAs (Decidable (∀ t, (s.controls t).dequeues = false))
  | (_, .use action) => inferInstanceAs (Decidable (action ≠ .withOwned false))
  | (_, .close) => isTrue trivial
  | (_, .reopen) => isTrue trivial
  | (_, .resume _) => isTrue trivial
  | (_, .cancel) => isTrue trivial
  | (_, .run _) => isTrue trivial

/-- A created queue that nobody uses; a thread may have a token already. -/
structure SyncInitial [Buffer B α σ] (s : SyncState T K B α σ) : Prop where
  base : Initial s.base
  enqueuers : s.enqueuers = WakerList.default
  dequeuer : s.dequeuer = AtomicWaker.new
  controls : s.controls = fun _ => .outside

/-- A queue that nobody uses, and no thread has a token. -/
def SyncState.ofQueue (q : Queue B) : SyncState T K B α σ :=
  ⟨State.ofQueue q, WakerList.default, AtomicWaker.new, fun _ => .outside, fun _ => none,
    fun _ => false, fun _ => false⟩

theorem syncInitial_withCapacity [Buffer B α σ] {capacity : Nat}
    (hsome : (Queue.withCapacity capacity : Option (Queue B)).isSome = true) :
    SyncInitial (SyncState.ofQueue ((Queue.withCapacity capacity).get hsome) :
      SyncState T K B α σ) :=
  ⟨initial_withCapacity hsome, rfl, rfl, rfl⟩

def syncTrace (trace : List ((T × SyncAction K α) × SyncEvent α)) :
    List ((T × Action α) × Event α) :=
  trace.filterMap fun entry =>
    match entry.2 with
    | .called action event => some ((entry.1.1, action), event)
    | .silent => none

/-- The steps that call the queue. -/
inductive SyncCalls : SyncControl T K α → Pc α σ → Action α → SyncControl T K α → Prop
  | outside (pc : Pc α σ) (spurious : Bool) :
      SyncCalls .outside pc (.run spurious) .outside
  | use (pc : Pc α σ) (action : Action α) (huses : action.uses = true)
      (howner : action ≠ .withOwned false) : SyncCalls .outside pc action .outside
  | close (pc : Pc α σ) : SyncCalls .outside pc .close (.closeDequeuer .wakeStart)
  | reopen (pc : Pc α σ) : SyncCalls .outside pc .reopen .outside
  | tryEnqueue (value : List α) (count : Nat) (pc : Pc α σ) :
      SyncCalls (.enqueueAttempt value count) pc (.tryEnqueue value)
        (.enqueueTrying value count)
  | acknowledge (value : List α) (count : Nat) (value' : List α)
      (enqueuing : EnqueuingCapacity) (spurious : Bool) :
      SyncCalls (.enqueueTrying value count) (.enqueueAcknowledge value' enqueuing)
        (.run spurious) (.enqueueNotify .wakeStart)
  | enqueueTrying (value : List α) (count : Nat) (pc : Pc α σ) (spurious : Bool)
      (hpc : ∀ value' enqueuing, pc ≠ .enqueueAcknowledge value' enqueuing) :
      SyncCalls (.enqueueTrying value count) pc (.run spurious) (.enqueueTrying value count)
  | tryDequeue (count : Nat) (pc : Pc α σ) :
      SyncCalls (.dequeueAttempt count) pc .tryDequeue (.dequeueTrying count)
  | dequeueTrying (count : Nat) (pc : Pc α σ) (spurious : Bool)
      (hpc : ∀ attempt capacity enqueuing, pc ≠ .dequeueNotify attempt capacity enqueuing) :
      SyncCalls (.dequeueTrying count) pc (.run spurious) (.dequeueTrying count)
  | notified (count : Nat) (pc : Pc α σ) (spurious : Bool) :
      SyncCalls (.dequeueNotify count .returned) pc (.run spurious) (.dequeueTrying count)

/-- The outcomes of an attempt to dequeue after which the call goes on. -/
inductive Retries : Outcome α → Prop
  | empty : Retries (.dequeueError .empty)
  | pending : Retries (.dequeueError .pending)

/-- The steps that only move a thread, with the waker of its last poll and the capacity
of the queue. -/
inductive SyncMoves (cx : Option K) (capacity : Nat) :
    SyncControl T K α → Pc α σ → SyncControl T K α → Prop
  | insufficient (value : List α) (count : Nat) (value' : List α) :
      SyncMoves cx capacity (.enqueueTrying value count)
        (.idle (some (.enqueueError (.insufficientCapacity value'))))
        (.enqueueCapacity value count)
  | enqueueReturns (value : List α) (count : Nat) (last : Option (Outcome α)) :
      SyncMoves cx capacity (.enqueueTrying value count) (.idle last) .outside
  | enqueueAgain (value : List α) (count : Nat) (pc : Pc α σ) (hlt : count + 1 < spinLimit) :
      SyncMoves cx capacity (.enqueueCapacity value count) pc
        (.enqueueAttempt value (count + 1))
  | enqueueRegister (value : List α) (count : Nat) (pc : Pc α σ) :
      SyncMoves cx capacity (.enqueueCapacity value count) pc
        (.enqueueRegister value (.registerLock cx))
  | enqueueWait (value : List α) (count : Nat) (pc : Pc α σ) (hle : spinLimit ≤ count)
      (hfits : value.length ≤ capacity) :
      SyncMoves cx capacity (.enqueueCapacity value count) pc (.enqueueWait value)
  | tooLarge (value : List α) (count : Nat) (pc : Pc α σ) :
      SyncMoves cx capacity (.enqueueCapacity value count) pc .outside
  | enqueueRegistered (value : List α) (pc : Pc α σ) :
      SyncMoves cx capacity (.enqueueRegister value .returned) pc
        (.enqueueAttempt value spinLimit)
  | enqueueNotified (pc : Pc α σ) :
      SyncMoves cx capacity (.enqueueNotify .returned) pc .outside
  | notify (count : Nat) (attempt : Attempt) (capa : Nat) (enqueuing : EnqueuingCapacity) :
      SyncMoves cx capacity (.dequeueTrying count) (.dequeueNotify attempt capa enqueuing)
        (.dequeueNotify count .wakeLoad)
  | dequeued (count : Nat) (i : Fin 2) (start stop : Nat) (slice : σ) :
      SyncMoves cx capacity (.dequeueTrying count) (.slice i start stop slice) .outside
  | dequeueAgain (count : Nat) (last : Option (Outcome α)) (hlt : count + 1 < spinLimit) :
      SyncMoves cx capacity (.dequeueTrying count) (.idle last) (.dequeueAttempt (count + 1))
  | dequeueRegister (count : Nat) (last : Option (Outcome α)) :
      SyncMoves cx capacity (.dequeueTrying count) (.idle last)
        (.dequeueRegister (.registerStart cx))
  | dequeueWait (count : Nat) (outcome : Outcome α) (hle : spinLimit ≤ count)
      (hretries : Retries outcome) :
      SyncMoves cx capacity (.dequeueTrying count) (.idle (some outcome)) .dequeueWait
  | dequeueFails (count : Nat) (last : Option (Outcome α)) :
      SyncMoves cx capacity (.dequeueTrying count) (.idle last) .outside
  | dequeueRegistered (pc : Pc α σ) :
      SyncMoves cx capacity (.dequeueRegister .returned) pc (.dequeueAttempt spinLimit)
  | closeEnqueuers (pc : Pc α σ) :
      SyncMoves cx capacity (.closeDequeuer .returned) pc (.closeEnqueuers .wakeLoad)
  | closed (pc : Pc α σ) : SyncMoves cx capacity (.closeEnqueuers .returned) pc .outside
  | cancelEnqueue (value : List α) (pc : Pc α σ) :
      SyncMoves cx capacity (.enqueueWait value) pc .outside
  | cancelDequeue (pc : Pc α σ) : SyncMoves cx capacity .dequeueWait pc .outside

theorem SyncMoves.enqueueRetry {cx : Option K} {capacity : Nat} {value : List α}
    (hfits : value.length ≤ capacity) (count : Nat) (pc : Pc α σ) :
    SyncMoves (T := T) cx capacity (.enqueueCapacity value count) pc
      (retrySync count (.enqueueAttempt value)
        (.enqueueRegister value (.registerLock cx)) (.enqueueWait value)) := by
  unfold retrySync
  split
  · rename_i hlt
    exact .enqueueAgain value count pc hlt
  · split
    · exact .enqueueRegister value count pc
    · rename_i hle
      exact .enqueueWait value count pc (Nat.le_of_not_lt hle) hfits

theorem SyncMoves.dequeueRetry {cx : Option K} {capacity : Nat} {outcome : Outcome α}
    (hretries : Retries outcome) (count : Nat) :
    SyncMoves (T := T) (σ := σ) cx capacity (.dequeueTrying count) (.idle (some outcome))
      (retrySync count .dequeueAttempt (.dequeueRegister (.registerStart cx))
        .dequeueWait) := by
  unfold retrySync
  split
  · rename_i hlt
    exact .dequeueAgain count _ hlt
  · split
    · exact .dequeueRegister count _
    · rename_i hle
      exact .dequeueWait count outcome (Nat.le_of_not_lt hle) hretries

/-- The places where the dequeuer's waker is called. -/
inductive AtomicPlace : (AtomicCall T K → SyncControl T K α) → Prop
  | enqueueNotify : AtomicPlace .enqueueNotify
  | dequeueRegister : AtomicPlace .dequeueRegister
  | closeDequeuer : AtomicPlace .closeDequeuer

/-- The places where the enqueuers' wakers are called. -/
inductive ListPlace : (ListCall T K → SyncControl T K α) → Prop
  | enqueueRegister (value : List α) : ListPlace (.enqueueRegister value)
  | dequeueNotify (count : Nat) : ListPlace (.dequeueNotify count)
  | closeEnqueuers : ListPlace .closeEnqueuers

/-- The beginning of a call, and its next round. -/
inductive SyncBegins (s : SyncState T K B α σ) (t : T) : SyncControl T K α → Prop
  | enqueue (value : List α) (last : Option (Outcome α)) (hcontrol : s.controls t = .outside)
      (hpc : s.base.pcs t = .idle last) (hsize : value.length < 2 ^ 63) :
      SyncBegins s t (.enqueueAttempt value 0)
  | dequeue (last : Option (Outcome α)) (hcontrol : s.controls t = .outside)
      (hpc : s.base.pcs t = .idle last) (hone : ∀ t', (s.controls t').dequeues = false) :
      SyncBegins s t (.dequeueAttempt 0)
  | resumeEnqueue (value : List α) (hcontrol : s.controls t = .enqueueWait value) :
      SyncBegins s t (.enqueueAttempt value 0)
  | resumeDequeue (hcontrol : s.controls t = .dequeueWait) :
      SyncBegins s t (.dequeueAttempt 0)

inductive SyncMove [DecidableEq T] [DecidableEq K] [Buffer B α σ] (s : SyncState T K B α σ)
    (t : T) : SyncState T K B α σ → SyncEvent α → Prop
  | called {action : Action α} {control' : SyncControl T K α} {base : State T B α σ}
      {event : Event α} (hcall : SyncCalls (s.controls t) (s.base.pcs t) action control')
      (hstep : step s.base (t, action) = some (base, event)) :
      SyncMove s t ({ s with base := base }.setControl t control') (.called action event)
  | moved {control' : SyncControl T K α}
      (hmove : SyncMoves (s.polls t) s.base.queue.capacity (s.controls t) (s.base.pcs t)
        control') :
      SyncMove s t (s.setControl t control') .silent
  | atomic {place : AtomicCall T K → SyncControl T K α} {call call' : AtomicCall T K}
      {dequeuer : AtomicWaker T K} {woken : Option (Waker T K)} (hplace : AtomicPlace place)
      (hcontrol : s.controls t = place call)
      (hmove : AtomicMove s.dequeuer t call dequeuer call' woken) :
      SyncMove s t (({ s with dequeuer := dequeuer }.setControl t (place call')).signal
        woken) .silent
  | listed {place : ListCall T K → SyncControl T K α} {call call' : ListCall T K}
      {enqueuers : WakerList T K} {woken : Option (Waker T K)} (hplace : ListPlace place)
      (hcontrol : s.controls t = place call)
      (hmove : ListMove s.enqueuers t call enqueuers call' woken) :
      SyncMove s t (({ s with enqueuers := enqueuers }.setControl t (place call')).signal
        woken) .silent
  | polled {control' : SyncControl T K α} (cx : Option K) (hbegins : SyncBegins s t control') :
      SyncMove s t { s with
        controls := Function.update s.controls t control'
        polls := Function.update s.polls t cx
        woken := Function.update s.woken t false } .silent
  | unparked {control' : SyncControl T K α} (hbegins : SyncBegins s t control') :
      SyncMove s t { s with
        controls := Function.update s.controls t control'
        tokens := Function.update s.tokens t false } .silent

section Cases

variable [DecidableEq T] [DecidableEq K] [Buffer B α σ] {s s' : SyncState T K B α σ} {t : T}
  {event : SyncEvent α}

theorem SyncState.call_cases {action : Action α} {control' : SyncControl T K α}
    (hstep : s.call t action control' = some (s', event))
    (hcall : SyncCalls (s.controls t) (s.base.pcs t) action control') :
    SyncMove s t s' event := by
  unfold SyncState.call at hstep
  split at hstep
  · cases hstep
  · rename_i base shown hbase
    cases hstep
    exact .called hcall hbase

theorem SyncState.move_cases {control' : SyncControl T K α}
    (hstep : s.move t control' = some (s', event))
    (hmove : SyncMoves (s.polls t) s.base.queue.capacity (s.controls t) (s.base.pcs t)
      control') : SyncMove s t s' event := by
  cases hstep
  exact .moved hmove

theorem SyncState.atomicStep_cases {place : AtomicCall T K → SyncControl T K α}
    {call : AtomicCall T K} (hplace : AtomicPlace place) (hcontrol : s.controls t = place call)
    (hstep : s.atomicStep t call place = some (s', event)) : SyncMove s t s' event := by
  unfold SyncState.atomicStep at hstep
  split at hstep
  · cases hstep
  · rename_i dequeuer call' woken hrun
    cases hstep
    exact .atomic hplace hcontrol (AtomicWaker.run_cases hrun)

theorem SyncState.listStep_cases {place : ListCall T K → SyncControl T K α}
    {call : ListCall T K} (hplace : ListPlace place) (hcontrol : s.controls t = place call)
    (hstep : s.listStep t call place = some (s', event)) : SyncMove s t s' event := by
  unfold SyncState.listStep at hstep
  split at hstep
  · cases hstep
  · rename_i enqueuers call' woken hrun
    cases hstep
    exact .listed hplace hcontrol (WakerList.run_cases hrun)

theorem SyncState.poll_cases {cx : Option K} {control' : SyncControl T K α}
    (hstep : s.poll t cx control' = some (s', event)) (hbegins : SyncBegins s t control') :
    SyncMove s t s' event := by
  cases hstep
  exact .polled cx hbegins

theorem SyncState.resume_cases {cx : Option K} {control' : SyncControl T K α}
    (hstep : s.resume t cx control' = some (s', event)) (hbegins : SyncBegins s t control') :
    SyncMove s t s' event := by
  unfold SyncState.resume at hstep
  split at hstep
  · cases hstep
    exact .unparked hbegins
  · exact SyncState.poll_cases hstep hbegins
  · cases hstep

theorem SyncState.run_cases {spurious : Bool} (hstep : s.run t spurious = some (s', event)) :
    SyncMove s t s' event := by
  unfold SyncState.run at hstep
  split at hstep
  · rename_i hcontrol
    exact SyncState.call_cases hstep (hcontrol ▸ .outside _ spurious)
  · rename_i value count hcontrol
    exact SyncState.call_cases hstep (hcontrol ▸ .tryEnqueue value count _)
  · rename_i value count hcontrol
    split at hstep
    · rename_i value' enqueuing hpc
      refine SyncState.call_cases hstep ?_
      rw [hcontrol, hpc]
      exact .acknowledge value count value' enqueuing spurious
    · rename_i value' hpc
      refine SyncState.move_cases hstep ?_
      rw [hcontrol, hpc]
      exact .insufficient value count value'
    · rename_i last _ hpc
      refine SyncState.move_cases hstep ?_
      rw [hcontrol, hpc]
      exact .enqueueReturns value count last
    · rename_i hpc _ _
      exact SyncState.call_cases hstep (hcontrol ▸ .enqueueTrying value count _ spurious hpc)
  · rename_i value count hcontrol
    split at hstep
    · rename_i hfits
      exact SyncState.move_cases hstep (hcontrol ▸ .enqueueRetry hfits count _)
    · exact SyncState.move_cases hstep (hcontrol ▸ .tooLarge value count _)
  · rename_i value hcontrol
    exact SyncState.move_cases hstep (hcontrol ▸ .enqueueRegistered value _)
  · rename_i value call _ hcontrol
    exact SyncState.listStep_cases (.enqueueRegister value) hcontrol hstep
  · cases hstep
  · rename_i hcontrol
    exact SyncState.move_cases hstep (hcontrol ▸ .enqueueNotified _)
  · rename_i call _ hcontrol
    exact SyncState.atomicStep_cases .enqueueNotify hcontrol hstep
  · rename_i count hcontrol
    exact SyncState.call_cases hstep (hcontrol ▸ .tryDequeue count _)
  · rename_i count hcontrol
    split at hstep
    · rename_i attempt capacity enqueuing hpc
      refine SyncState.move_cases hstep ?_
      rw [hcontrol, hpc]
      exact .notify count attempt capacity enqueuing
    · rename_i i start stop slice hpc
      refine SyncState.move_cases hstep ?_
      rw [hcontrol, hpc]
      exact .dequeued count i start stop slice
    · rename_i hpc
      refine SyncState.move_cases hstep ?_
      rw [hcontrol, hpc]
      exact .dequeueRetry .empty count
    · rename_i hpc
      refine SyncState.move_cases hstep ?_
      rw [hcontrol, hpc]
      exact .dequeueRetry .pending count
    · rename_i last _ _ hpc
      refine SyncState.move_cases hstep ?_
      rw [hcontrol, hpc]
      exact .dequeueFails count last
    · rename_i hpc _ _ _ _
      exact SyncState.call_cases hstep (hcontrol ▸ .dequeueTrying count _ spurious hpc)
  · rename_i count hcontrol
    exact SyncState.call_cases hstep (hcontrol ▸ .notified count _ spurious)
  · rename_i count call _ hcontrol
    exact SyncState.listStep_cases (.dequeueNotify count) hcontrol hstep
  · rename_i hcontrol
    exact SyncState.move_cases hstep (hcontrol ▸ .dequeueRegistered _)
  · rename_i call _ hcontrol
    exact SyncState.atomicStep_cases .dequeueRegister hcontrol hstep
  · cases hstep
  · rename_i hcontrol
    exact SyncState.move_cases hstep (hcontrol ▸ .closeEnqueuers _)
  · rename_i call _ hcontrol
    exact SyncState.atomicStep_cases .closeDequeuer hcontrol hstep
  · rename_i hcontrol
    exact SyncState.move_cases hstep (hcontrol ▸ .closed _)
  · rename_i call _ hcontrol
    exact SyncState.listStep_cases .closeEnqueuers hcontrol hstep

theorem syncStep_cases {action : SyncAction K α}
    (hstep : syncStep s (t, action) = some (s', event)) (hok : SyncOk s (t, action)) :
    SyncMove s t s' event := by
  cases action with
  | enqueue value cx =>
      simp only [syncStep] at hstep
      split at hstep
      · rename_i last hcontrol hpc
        exact SyncState.poll_cases hstep (.enqueue value last hcontrol hpc hok)
      · cases hstep
  | dequeue cx =>
      simp only [syncStep] at hstep
      split at hstep
      · rename_i last hcontrol hpc
        exact SyncState.poll_cases hstep (.dequeue last hcontrol hpc hok)
      · cases hstep
  | close =>
      simp only [syncStep] at hstep
      split at hstep
      · rename_i hcontrol
        exact SyncState.call_cases hstep (hcontrol ▸ .close _)
      · cases hstep
  | reopen =>
      simp only [syncStep] at hstep
      split at hstep
      · rename_i hcontrol
        exact SyncState.call_cases hstep (hcontrol ▸ .reopen _)
      · cases hstep
  | use action =>
      simp only [syncStep] at hstep
      split at hstep
      · rename_i hcontrol
        split at hstep
        · rename_i huses
          exact SyncState.call_cases hstep (hcontrol ▸ .use _ action huses hok)
        · cases hstep
      · cases hstep
  | resume cx =>
      simp only [syncStep] at hstep
      split at hstep
      · rename_i value hcontrol
        exact SyncState.resume_cases hstep (.resumeEnqueue value hcontrol)
      · rename_i hcontrol
        exact SyncState.resume_cases hstep (.resumeDequeue hcontrol)
      · cases hstep
  | cancel =>
      simp only [syncStep] at hstep
      split at hstep
      · rename_i value waker hcontrol _
        exact SyncState.move_cases hstep (hcontrol ▸ .cancelEnqueue value _)
      · rename_i waker hcontrol _
        exact SyncState.move_cases hstep (hcontrol ▸ .cancelDequeue _)
      · cases hstep
  | run spurious => exact SyncState.run_cases hstep

end Cases

end SwapBufferQueue
