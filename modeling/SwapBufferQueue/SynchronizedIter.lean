/-
`SynchronizedQueue::iter`: `repeat_with(dequeue)`, `map_while(ok)`, `flatten`.  One
consumer drives successive iterators; the others enqueue and close.  The consumer's
control points are those of `Flatten::next` and of the loop of `dequeue_sync`; its calls
of the queue are the steps of the machine.  A parked consumer may go on at any time, so
nothing here depends on who wakes it.
-/
import SwapBufferQueue.Closing

namespace SwapBufferQueue

universe u v w x

/-- Where the consumer is.  `front` and what follows it are inside `next`. -/
inductive IterControl where
  | absent
  | waiting
  | ended
  | abandoning
  | front
  | clearing
  | attempt (count : Nat)
  | trying (count : Nat)
  | register
  | park
deriving Repr, DecidableEq

inductive DequeueError where
  | closed
  | conflict
deriving Repr, DecidableEq

/-- A step of another activity, a call of the consumer, or the next step of the call it
is in. -/
inductive IterAction (T : Type x) (α : Type v) where
  | other (t : T) (action : Action α)
  | iter
  | next
  | abandon
  | run (spurious : Bool)
deriving Repr, DecidableEq

/-- A step of the queue with what it shows there, the end of a call of `next`, or
neither.  `exhausted` is the `None` of an iterator that has already ended. -/
inductive IterEvent (T : Type x) (α : Type v) where
  | silent
  | called (label : T × Action α) (event : Event α)
  | yielded (event : Event α) (value : α)
  | finished (error : DequeueError)
  | exhausted
deriving Repr, DecidableEq

structure IterState (T : Type x) (B : Type u) (α : Type v) (σ : Type w) where
  base : State T B α σ
  control : IterControl

variable {T : Type x} {B : Type u} {α : Type v} {σ : Type w}

/-- What follows a `try_dequeue` without a batch: the loop has `SPIN_LIMIT` attempts, the
attempt after the registration is the last one before the consumer parks. -/
def retryControl (count : Nat) : IterControl :=
  if count + 1 < spinLimit then .attempt (count + 1)
  else if count < spinLimit then .register
  else .park

section Steps

variable [DecidableEq T] [Buffer B α σ]

/-- A step of the consumer that does not call the queue. -/
def IterState.move (s : IterState T B α σ) (control : IterControl)
    (event : IterEvent T α) : Option (IterState T B α σ × IterEvent T α) :=
  some ({ s with control := control }, event)

/-- A step of the queue made by the consumer. -/
def IterState.call (s : IterState T B α σ) (consumer : T) (action : Action α)
    (control : IterControl) : Option (IterState T B α σ × IterEvent T α) :=
  match step s.base (consumer, action) with
  | none => none
  | some (base, event) => some (⟨base, control⟩, .called (consumer, action) event)

/-- `next` of the inner iterator; when it returns `None` the iterator is dropped. -/
def IterState.frontNext (s : IterState T B α σ) (consumer : T) :
    Option (IterState T B α σ × IterEvent T α) :=
  match step s.base (consumer, .next) with
  | none => none
  | some (base, .consumed i [value]) =>
      some (⟨base, .waiting⟩, .yielded (.consumed i [value]) value)
  | some (base, event) => some (⟨base, .clearing⟩, .called (consumer, .next) event)

def iterStep (consumer : T) (s : IterState T B α σ) (action : IterAction T α) :
    Option (IterState T B α σ × IterEvent T α) :=
  match action with
  | .other t action =>
      match step s.base (t, action) with
      | none => none
      | some (base, event) => some ({ s with base := base }, .called (t, action) event)
  | .iter =>
      match s.control with
      | .absent => s.move .waiting .silent
      | _ => none
  | .next =>
      match s.control with
      | .waiting => s.move .front .silent
      | .ended => s.move .ended .exhausted
      | _ => none
  | .abandon =>
      match s.control with
      | .waiting =>
          match s.base.pcs consumer with
          | .iter _ _ _ => s.call consumer .drop .abandoning
          | _ => s.move .absent .silent
      | .ended => s.move .absent .silent
      | _ => none
  | .run spurious =>
      match s.control with
      | .front =>
          match s.base.pcs consumer with
          | .iter _ _ _ => s.frontNext consumer
          | _ => s.move (.attempt 0) .silent
      | .clearing =>
          match s.base.pcs consumer with
          | .iter _ _ _ => s.call consumer .drop .clearing
          | .idle _ => s.move (.attempt 0) .silent
          | _ => s.call consumer (.run spurious) .clearing
      | .attempt count => s.call consumer .tryDequeue (.trying count)
      | .trying count =>
          match s.base.pcs consumer with
          | .slice _ _ _ _ => s.call consumer .intoIter .front
          | .idle (some (.dequeueError .empty)) => s.move (retryControl count) .silent
          | .idle (some (.dequeueError .pending)) => s.move (retryControl count) .silent
          | .idle (some (.dequeueError .closed)) => s.move .ended (.finished .closed)
          | .idle (some (.dequeueError .conflict)) => s.move .ended (.finished .conflict)
          | _ => s.call consumer (.run spurious) (.trying count)
      | .register => s.move (.attempt spinLimit) .silent
      | .park => s.move (.attempt 0) .silent
      | .abandoning =>
          match s.base.pcs consumer with
          | .idle _ => s.move .absent .silent
          | _ => s.call consumer (.run spurious) .abandoning
      | _ => none

end Steps

/-- What the others do: they enqueue and close.  A blocking `enqueue` is a sequence of
`try_enqueue` calls. -/
def Action.enqueues : Action α → Bool
  | .tryEnqueue value => decide (value.length < 2 ^ 63)
  | .close => true
  | .run _ => true
  | _ => false

/-- There is one consumer. -/
def IterOk (consumer : T) (_ : IterState T B α σ) : IterAction T α → Prop
  | .other t action => t ≠ consumer ∧ action.enqueues = true
  | _ => True

instance instDecidableIterOk [DecidableEq T] (consumer : T) (s : IterState T B α σ)
    (action : IterAction T α) : Decidable (IterOk consumer s action) :=
  match action with
  | .other t action => inferInstanceAs (Decidable (t ≠ consumer ∧ action.enqueues = true))
  | .iter => isTrue trivial
  | .next => isTrue trivial
  | .abandon => isTrue trivial
  | .run _ => isTrue trivial

structure IterInitial [Buffer B α σ] (s : IterState T B α σ) : Prop where
  base : Initial s.base
  control : s.control = .absent

/-- The elements returned by the calls of `next`, over all iterators. -/
def yieldedElements (trace : List (IterAction T α × IterEvent T α)) : List α :=
  trace.filterMap fun entry =>
    match entry.2 with
    | .yielded _ value => some value
    | _ => none

def queueTrace (consumer : T) (trace : List (IterAction T α × IterEvent T α)) :
    List ((T × Action α) × Event α) :=
  trace.filterMap fun entry =>
    match entry.2 with
    | .called label event => some (label, event)
    | .yielded event _ => some ((consumer, .next), event)
    | _ => none

/-- The elements whose reservation succeeded, in the order of the reservations. -/
def acceptedElements (consumer : T) (trace : List (IterAction T α × IterEvent T α)) :
    List α :=
  (reservedValues (queueTrace consumer trace)).flatten

/-- The consumer's steps that call the queue. -/
inductive IterCalls : IterControl → Pc α σ → Action α → IterControl → Prop
  | attempt (count : Nat) (pc : Pc α σ) :
      IterCalls (.attempt count) pc .tryDequeue (.trying count)
  | trying (count : Nat) (pc : Pc α σ) (spurious : Bool) :
      IterCalls (.trying count) pc (.run spurious) (.trying count)
  | intoIter (count : Nat) (i : Fin 2) (start stop : Nat) (slice : σ) :
      IterCalls (.trying count) (.slice i start stop slice) .intoIter .front
  | nextNone (i : Fin 2) (start stop : Nat) :
      IterCalls .front (.iter i start stop) .next .clearing
  | clear (i : Fin 2) (start stop : Nat) :
      IterCalls .clearing (.iter i start stop) .drop .clearing
  | clearing (pc : Pc α σ) (spurious : Bool) :
      IterCalls .clearing pc (.run spurious) .clearing
  | abandon (i : Fin 2) (start stop : Nat) :
      IterCalls .waiting (.iter i start stop) .drop .abandoning
  | abandoning (pc : Pc α σ) (spurious : Bool) :
      IterCalls .abandoning pc (.run spurious) .abandoning

/-- The consumer's steps that do not. -/
inductive IterMoves : IterControl → Pc α σ → IterControl → IterEvent T α → Prop
  | iter (pc : Pc α σ) : IterMoves .absent pc .waiting .silent
  | next (pc : Pc α σ) : IterMoves .waiting pc .front .silent
  | exhausted (pc : Pc α σ) : IterMoves .ended pc .ended .exhausted
  | drop (pc : Pc α σ) (hpc : ∀ i start stop, pc ≠ .iter i start stop) :
      IterMoves .waiting pc .absent .silent
  | dropEnded (pc : Pc α σ) : IterMoves .ended pc .absent .silent
  | dequeue (pc : Pc α σ) (hpc : ∀ i start stop, pc ≠ .iter i start stop) :
      IterMoves .front pc (.attempt 0) .silent
  | cleared (last : Option (Outcome α)) :
      IterMoves .clearing (.idle last) (.attempt 0) .silent
  | retry (count : Nat) (error : TryDequeueError) :
      IterMoves (.trying count) (.idle (some (.dequeueError error))) (retryControl count)
        .silent
  | closed (count : Nat) :
      IterMoves (.trying count) (.idle (some (.dequeueError .closed))) .ended
        (.finished .closed)
  | conflict (count : Nat) :
      IterMoves (.trying count) (.idle (some (.dequeueError .conflict))) .ended
        (.finished .conflict)
  | register (pc : Pc α σ) : IterMoves .register pc (.attempt spinLimit) .silent
  | unpark (pc : Pc α σ) : IterMoves .park pc (.attempt 0) .silent
  | abandoned (last : Option (Outcome α)) :
      IterMoves .abandoning (.idle last) .absent .silent

inductive IterMove [DecidableEq T] [Buffer B α σ] (consumer : T) (s : IterState T B α σ) :
    IterAction T α → IterState T B α σ → IterEvent T α → Prop
  | other {t : T} {action : Action α} {base : State T B α σ} {event : Event α}
      (hstep : step s.base (t, action) = some (base, event)) :
      IterMove consumer s (.other t action) { s with base := base }
        (.called (t, action) event)
  | call {label : IterAction T α} {action : Action α} {control' : IterControl}
      {base : State T B α σ} {event : Event α}
      (hlabel : ∀ t action, label ≠ .other t action)
      (hcall : IterCalls s.control (s.base.pcs consumer) action control')
      (hstep : step s.base (consumer, action) = some (base, event))
      (hnone : action = .next → ∀ i value, event ≠ .consumed i [value]) :
      IterMove consumer s label ⟨base, control'⟩ (.called (consumer, action) event)
  | yields {label : IterAction T α} {base : State T B α σ} {i : Fin 2} {value : α}
      (hlabel : ∀ t action, label ≠ .other t action) (hcontrol : s.control = .front)
      (hstep : step s.base (consumer, .next) = some (base, .consumed i [value])) :
      IterMove consumer s label ⟨base, .waiting⟩ (.yielded (.consumed i [value]) value)
  | move {label : IterAction T α} {control' : IterControl} {event : IterEvent T α}
      (hlabel : ∀ t action, label ≠ .other t action)
      (hmove : IterMoves s.control (s.base.pcs consumer) control' event) :
      IterMove consumer s label { s with control := control' } event

section Cases

variable [DecidableEq T] [Buffer B α σ] {consumer : T} {s s' : IterState T B α σ}
  {event : IterEvent T α}

theorem IterState.call_cases {label : IterAction T α} {action : Action α}
    {control' : IterControl} (hstep : s.call consumer action control' = some (s', event))
    (hcall : IterCalls s.control (s.base.pcs consumer) action control')
    (hlabel : ∀ t action, label ≠ .other t action) (haction : action ≠ .next) :
    IterMove consumer s label s' event := by
  unfold IterState.call at hstep
  split at hstep
  · cases hstep
  · rename_i base shown hbase
    cases hstep
    exact .call hlabel hcall hbase fun h => absurd h haction

theorem IterState.move_cases {label : IterAction T α} {control' : IterControl}
    {shown : IterEvent T α} (hstep : s.move control' shown = some (s', event))
    (hmove : IterMoves s.control (s.base.pcs consumer) control' shown)
    (hlabel : ∀ t action, label ≠ .other t action) :
    IterMove consumer s label s' event := by
  cases hstep
  exact .move hlabel hmove

theorem IterState.frontNext_cases {label : IterAction T α} {i : Fin 2} {start stop : Nat}
    (hlabel : ∀ t action, label ≠ .other t action) (hcontrol : s.control = .front)
    (hpc : s.base.pcs consumer = .iter i start stop)
    (hstep : s.frontNext consumer = some (s', event)) :
    IterMove consumer s label s' event := by
  unfold IterState.frontNext at hstep
  split at hstep
  · cases hstep
  · rename_i base j value hbase
    cases hstep
    exact .yields hlabel hcontrol hbase
  · rename_i base shown hshown hbase
    cases hstep
    refine .call hlabel ?_ hbase fun _ j value => ?_
    · rw [hcontrol, hpc]
      exact .nextNone i start stop
    · rintro rfl
      exact hshown j value rfl

theorem iterStep_cases {label : IterAction T α}
    (hstep : iterStep consumer s label = some (s', event)) :
    IterMove consumer s label s' event := by
  cases label with
  | other t action =>
      simp only [iterStep] at hstep
      split at hstep
      · cases hstep
      · rename_i base shown hbase
        cases hstep
        exact .other hbase
  | iter =>
      simp only [iterStep] at hstep
      split at hstep
      · rename_i hcontrol
        exact IterState.move_cases hstep (hcontrol ▸ .iter _) nofun
      · cases hstep
  | next =>
      simp only [iterStep] at hstep
      split at hstep
      · rename_i hcontrol
        exact IterState.move_cases hstep (hcontrol ▸ .next _) nofun
      · rename_i hcontrol
        exact IterState.move_cases hstep (hcontrol ▸ .exhausted _) nofun
      · cases hstep
  | abandon =>
      simp only [iterStep] at hstep
      split at hstep
      · rename_i hcontrol
        split at hstep
        · rename_i i start stop hpc
          exact IterState.call_cases hstep
            (by rw [hcontrol, hpc]; exact .abandon i start stop) nofun nofun
        · rename_i hpc
          exact IterState.move_cases hstep (hcontrol ▸ .drop _ hpc) nofun
      · rename_i hcontrol
        exact IterState.move_cases hstep (hcontrol ▸ .dropEnded _) nofun
      · cases hstep
  | run spurious =>
      simp only [iterStep] at hstep
      split at hstep
      · rename_i hcontrol
        split at hstep
        · rename_i i start stop hpc
          exact IterState.frontNext_cases nofun hcontrol hpc hstep
        · rename_i hpc
          exact IterState.move_cases hstep (hcontrol ▸ .dequeue _ hpc) nofun
      · rename_i hcontrol
        split at hstep
        · rename_i i start stop hpc
          exact IterState.call_cases hstep
            (by rw [hcontrol, hpc]; exact .clear i start stop) nofun nofun
        · rename_i last hpc
          exact IterState.move_cases hstep (by rw [hcontrol, hpc]; exact .cleared last) nofun
        · exact IterState.call_cases hstep (hcontrol ▸ .clearing _ spurious) nofun nofun
      · rename_i count hcontrol
        exact IterState.call_cases hstep (hcontrol ▸ .attempt count _) nofun nofun
      · rename_i count hcontrol
        split at hstep
        · rename_i i start stop slice hpc
          exact IterState.call_cases hstep
            (by rw [hcontrol, hpc]; exact .intoIter count i start stop slice) nofun nofun
        · rename_i hpc
          exact IterState.move_cases hstep (by rw [hcontrol, hpc]; exact .retry count _) nofun
        · rename_i hpc
          exact IterState.move_cases hstep (by rw [hcontrol, hpc]; exact .retry count _) nofun
        · rename_i hpc
          exact IterState.move_cases hstep (by rw [hcontrol, hpc]; exact .closed count) nofun
        · rename_i hpc
          exact IterState.move_cases hstep (by rw [hcontrol, hpc]; exact .conflict count) nofun
        · exact IterState.call_cases hstep (hcontrol ▸ .trying count _ spurious) nofun nofun
      · rename_i hcontrol
        exact IterState.move_cases hstep (hcontrol ▸ .register _) nofun
      · rename_i hcontrol
        exact IterState.move_cases hstep (hcontrol ▸ .unpark _) nofun
      · rename_i hcontrol
        split at hstep
        · rename_i last hpc
          exact IterState.move_cases hstep (by rw [hcontrol, hpc]; exact .abandoned last) nofun
        · exact IterState.call_cases hstep (hcontrol ▸ .abandoning _ spurious) nofun nofun
      · cases hstep

end Cases

end SwapBufferQueue
