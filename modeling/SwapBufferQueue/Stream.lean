/-
`SynchronizedQueue::stream` and `SynchronizedQueue::iter` over the whole synchronized queue.
One consumer drives them: it polls a stream with the waker of its task, or calls `next` of
an iterator and blocks.  The combinators they are composed of are a parameter; a poll does
what these ask for, until one of them returns.  The others enqueue and close.  The steps of
the queue and of its notifier are those of the synchronized queue; a dropped stream drops
its batch or its pending future.
-/
import SwapBufferQueue.CallSteps
import SwapBufferQueue.Combinators
import SwapBufferQueue.IterDelivery

namespace SwapBufferQueue

universe u v w x y z

/-- Where the consumer is.  `held` is between two polls; `polling` and what follows it are
inside `poll_next` or `next`, with the waker of the poll. -/
inductive StreamControl (K : Type y) where
  | absent
  | held
  | dropping
  | polling (cx : Option K)
  | clearing (cx : Option K)
  | dequeuing (cx : Option K)
deriving Repr, DecidableEq

/-- A step of another thread or task, a call of the consumer, or the next step of the call
it is in.  `next` without a waker blocks; `unpark` is the return of its `park`. -/
inductive StreamAction (T : Type x) (K : Type y) (α : Type v) where
  | other (t : T) (action : SyncAction K α)
  | create
  | next (cx : Option K)
  | drop
  | unpark
  | run (spurious : Bool)
deriving Repr, DecidableEq

/-- The queue with its threads and tasks, and the consumer with its stream. -/
structure StreamState (T : Type x) (K : Type y) (B : Type u) (α : Type v) (σ : Type w)
    (F : Type z) where
  sync : SyncState T K B α σ
  control : StreamControl K
  flat : F

variable {T : Type x} {K : Type y} {B : Type u} {α : Type v} {σ : Type w} {F : Type z}
  {R W M : Type*}

def SyncEvent.iter (t : T) : SyncEvent α → IterEvent T α
  | .silent => .silent
  | .called action event => .called (t, action) event

section Steps

variable [DecidableEq T] [DecidableEq K] [Buffer B α σ]

def StreamState.move (s : StreamState T K B α σ F) (control : StreamControl K)
    (event : IterEvent T α) : Option (StreamState T K B α σ F × IterEvent T α) :=
  some ({ s with control := control }, event)

def StreamState.lift (s : StreamState T K B α σ F) (t : T) (action : SyncAction K α)
    (control : StreamControl K) : Option (StreamState T K B α σ F × IterEvent T α) :=
  match syncStep s.sync (t, action) with
  | none => none
  | some (sync, event) => some ({ s with sync := sync, control := control }, event.iter t)

/-- The combinators have what they asked for. -/
def StreamState.told (s : StreamState T K B α σ (Flat R W M)) (c : Combinators R W M)
    (told : StreamTold) : StreamState T K B α σ (Flat R W M) :=
  { s with flat := c.told s.flat told }

/-- `next` of the batch in front: an item ends the poll. -/
def StreamState.frontNext (c : Combinators R W M) (s : StreamState T K B α σ (Flat R W M))
    (consumer : T) (cx : Option K) :
    Option (StreamState T K B α σ (Flat R W M) × IterEvent T α) :=
  match syncStep s.sync (consumer, .use .next) with
  | none => none
  | some (sync, .called _ (.consumed i [value])) =>
      some (⟨sync, .held, c.told s.flat .item⟩, .yielded (.consumed i [value]) value)
  | some (sync, event) =>
      some (⟨sync, .polling cx, c.told s.flat .exhausted⟩, event.iter consumer)

/-- The next step of `dequeue`, or of the poll of its future; what it returns is the next
batch, an error, or `Pending`, which ends the poll. -/
def StreamState.dequeueNext (c : Combinators R W M) (s : StreamState T K B α σ (Flat R W M))
    (consumer : T) (cx : Option K) (spurious : Bool) :
    Option (StreamState T K B α σ (Flat R W M) × IterEvent T α) :=
  match s.sync.controls consumer, s.sync.base.pcs consumer, cx with
  | .outside, .slice _ _ _ _, _ => (s.told c .batch).lift consumer (.use .intoIter) (.polling cx)
  | .outside, .idle (some (.dequeueError .closed)), _ =>
      (s.told c .error).move (.polling cx) (.finished .closed)
  | .outside, .idle (some (.dequeueError .conflict)), _ =>
      (s.told c .error).move (.polling cx) (.finished .conflict)
  | .dequeueWait, _, some _ => (s.told c .pending).move .held .silent
  | _, _, _ => s.lift consumer (.run spurious) (.dequeuing cx)

/-- The combinators are asked what to do next.  `None` ends the poll. -/
def StreamState.ask (c : Combinators R W M) (s : StreamState T K B α σ (Flat R W M))
    (consumer : T) (cx : Option K) :
    Option (StreamState T K B α σ (Flat R W M) × IterEvent T α) :=
  match c.asks s.flat with
  | .item =>
      match s.sync.base.pcs consumer with
      | .iter _ _ _ => s.frontNext c consumer cx
      | _ => none
  | .clear => s.move (.clearing cx) .silent
  | .dequeue => s.lift consumer (.dequeue cx) (.dequeuing cx)
  | .poll => s.lift consumer (.resume cx) (.dequeuing cx)
  | .finish => (s.told c .finished).move .held .exhausted

def streamStep (c : Combinators R W M) (consumer : T)
    (s : StreamState T K B α σ (Flat R W M)) (action : StreamAction T K α) :
    Option (StreamState T K B α σ (Flat R W M) × IterEvent T α) :=
  match action with
  | .other t action => s.lift t action s.control
  | .create =>
      match s.control with
      | .absent => some (⟨s.sync, .held, c.new⟩, .silent)
      | _ => none
  | .next cx =>
      match s.control with
      | .held => s.move (.polling cx) .silent
      | _ => none
  | .drop =>
      match s.control with
      | .held =>
          match s.sync.controls consumer, s.sync.base.pcs consumer with
          | .dequeueWait, _ => s.lift consumer .cancel .absent
          | _, .iter _ _ _ => s.lift consumer (.use .drop) .dropping
          | _, _ => s.move .absent .silent
      | _ => none
  | .unpark =>
      match s.control with
      | .dequeuing none => s.lift consumer (.resume none) (.dequeuing none)
      | _ => none
  | .run spurious =>
      match s.control with
      | .polling cx => s.ask c consumer cx
      | .clearing cx =>
          match s.sync.base.pcs consumer with
          | .iter _ _ _ => s.lift consumer (.use .drop) (.clearing cx)
          | .idle _ => (s.told c .cleared).move (.polling cx) .silent
          | _ => s.lift consumer (.run spurious) (.clearing cx)
      | .dequeuing cx => s.dequeueNext c consumer cx spurious
      | .dropping =>
          match s.sync.base.pcs consumer with
          | .idle _ => s.move .absent .silent
          | _ => s.lift consumer (.run spurious) .dropping
      | _ => none

end Steps

/-- What the others do: they enqueue and close. -/
def SyncAction.enqueues : SyncAction K α → Bool
  | .enqueue _ _ => true
  | .close => true
  | .resume _ => true
  | .cancel => true
  | .run _ => true
  | _ => false

/-- There is one consumer. -/
def StreamOk (consumer : T) (s : StreamState T K B α σ F) : StreamAction T K α → Prop
  | .other t action => t ≠ consumer ∧ action.enqueues = true ∧ SyncOk s.sync (t, action)
  | _ => True

instance instDecidableStreamOk [Fintype T] [DecidableEq T] [DecidableEq α] (consumer : T)
    (s : StreamState T K B α σ F) (action : StreamAction T K α) :
    Decidable (StreamOk consumer s action) :=
  match action with
  | .other t action =>
      inferInstanceAs (Decidable
        (t ≠ consumer ∧ action.enqueues = true ∧ SyncOk s.sync (t, action)))
  | .create => isTrue trivial
  | .next _ => isTrue trivial
  | .drop => isTrue trivial
  | .unpark => isTrue trivial
  | .run _ => isTrue trivial

structure StreamInitial [Buffer B α σ] (s : StreamState T K B α σ F) : Prop where
  sync : SyncInitial s.sync
  control : s.control = .absent

/-- The element a poll or a call returns. -/
def IterEvent.value? : IterEvent T α → Option α
  | .yielded _ value => some value
  | _ => none

def IterEvent.call? (consumer : T) : IterEvent T α → Option ((T × Action α) × Event α)
  | .called label event => some (label, event)
  | .yielded event _ => some ((consumer, .next), event)
  | _ => none

/-- What an observer of the queue and of the results sees of a step. -/
def IterEvent.seen : IterEvent T α → List (IterEvent T α)
  | .silent => []
  | event => [event]

section Shown

variable {L : Type z}

/-- The elements returned by the polls and calls, over all streams and iterators. -/
def streamYields (trace : List (L × IterEvent T α)) : List α :=
  trace.filterMap fun entry => entry.2.value?

def streamCalls (consumer : T) (trace : List (L × IterEvent T α)) :
    List ((T × Action α) × Event α) :=
  trace.filterMap fun entry => entry.2.call? consumer

/-- The elements whose reservation succeeded, in the order of the reservations. -/
def streamAccepts (consumer : T) (trace : List (L × IterEvent T α)) : List α :=
  (reservedValues (streamCalls consumer trace)).flatten

theorem streamCalls_append_singleton (consumer : T) (trace : List (L × IterEvent T α))
    (entry : L × IterEvent T α) :
    streamCalls consumer (trace ++ [entry]) =
      streamCalls consumer trace ++ (entry.2.call? consumer).toList := by
  rw [streamCalls, List.filterMap_append, ← streamCalls, List.filterMap_cons]
  cases entry.2.call? consumer <;> rfl

/-- What is read off the visible events only. -/
theorem filterMap_seen {γ : Type*} (f : IterEvent T α → Option γ) (hf : f .silent = none)
    (trace : List (L × IterEvent T α)) :
    trace.filterMap (fun entry => f entry.2) =
      (trace.flatMap fun entry => entry.2.seen).filterMap f := by
  induction trace with
  | nil => rfl
  | cons entry rest ih =>
      obtain ⟨label, event⟩ := entry
      rw [List.flatMap_cons, List.filterMap_append, ← ih, ← List.singleton_append,
        List.filterMap_append]
      cases event with
      | silent => simp [IterEvent.seen, hf]
      | _ => rfl

/-- What is seen of a trace are its events, except the silent ones. -/
theorem mem_seen {trace : List (L × IterEvent T α)} {event : IterEvent T α}
    (hevent : event ≠ .silent) :
    event ∈ (trace.flatMap fun entry => entry.2.seen) ↔ ∃ label, (label, event) ∈ trace := by
  rw [List.mem_flatMap]
  constructor
  · rintro ⟨⟨label, shown⟩, hmem, hseen⟩
    cases shown with
    | silent => cases hseen
    | _ =>
        cases List.mem_singleton.mp hseen
        exact ⟨label, hmem⟩
  · rintro ⟨label, hmem⟩
    refine ⟨(label, event), hmem, ?_⟩
    cases event with
    | silent => exact absurd rfl hevent
    | _ => exact List.mem_singleton_self _

theorem exists_of_seen {trace : List (L × IterEvent T α)} {event : IterEvent T α}
    {before after : List (IterEvent T α)}
    (hseen : (trace.flatMap fun entry => entry.2.seen) = before ++ event :: after) :
    ∃ first label rest, trace = first ++ (label, event) :: rest ∧
      (first.flatMap fun entry => entry.2.seen) = before := by
  induction trace generalizing before with
  | nil => cases before <;> cases hseen
  | cons entry tail ih =>
      obtain ⟨label, shown⟩ := entry
      rw [List.flatMap_cons] at hseen
      by_cases hsilent : shown = .silent
      · subst hsilent
        obtain ⟨first, label', rest, rfl, hfirst⟩ := ih hseen
        exact ⟨(label, .silent) :: first, label', rest, rfl, hfirst⟩
      · have hshown : shown.seen = [shown] := by
          cases shown with
          | silent => exact absurd rfl hsilent
          | _ => rfl
        dsimp only at hseen
        rw [hshown, List.singleton_append] at hseen
        cases before with
        | nil =>
            cases hseen
            exact ⟨[], label, tail, rfl, rfl⟩
        | cons head before =>
            obtain ⟨rfl, htail⟩ := List.cons.inj hseen
            obtain ⟨first, label', rest, rfl, hfirst⟩ := ih htail
            refine ⟨(label, shown) :: first, label', rest, rfl, ?_⟩
            rw [List.flatMap_cons, hfirst, hshown]
            rfl

end Shown

section SyncSteps

variable [DecidableEq T] [DecidableEq K] [Buffer B α σ] {s s' : SyncState T K B α σ} {t : T}
  {event : SyncEvent α}

omit [DecidableEq K] in
theorem SyncState.call_eq {action : Action α} {control' : SyncControl T K α}
    (hstep : s.call t action control' = some (s', event)) :
    ∃ shown, s'.controls t = control' ∧ step s.base (t, action) = some (s'.base, shown) ∧
      event = .called action shown := by
  unfold SyncState.call at hstep
  split at hstep
  · cases hstep
  · rename_i base shown hbase
    cases hstep
    exact ⟨shown, Function.update_self .., hbase, rfl⟩

/-- The use of a slice or of an iterator is a step of the queue. -/
theorem syncStep_use {action : Action α} (huses : action.uses = true)
    (hstep : syncStep s (t, .use action) = some (s', event)) :
    ∃ shown, s'.controls t = .outside ∧ step s.base (t, action) = some (s'.base, shown) ∧
      event = .called action shown := by
  simp only [syncStep] at hstep
  split at hstep
  · rw [if_pos huses] at hstep
    exact SyncState.call_eq hstep
  · cases hstep

omit [DecidableEq K] [Buffer B α σ] in
theorem SyncState.resume_eq {cx : Option K} {control' : SyncControl T K α}
    (hstep : s.resume t cx control' = some (s', event)) :
    s'.controls t = control' ∧ s'.base = s.base ∧ event = .silent := by
  unfold SyncState.resume at hstep
  split at hstep
  · cases hstep
    exact ⟨Function.update_self .., rfl, rfl⟩
  · cases hstep
    exact ⟨Function.update_self .., rfl, rfl⟩
  · cases hstep

theorem syncStep_dequeue_idle {cx : Option K}
    (hstep : syncStep s (t, .dequeue cx) = some (s', event)) :
    ∃ last, s.base.pcs t = .idle last := by
  simp only [syncStep] at hstep
  split at hstep
  · rename_i last _ hpc
    exact ⟨last, hpc⟩
  · cases hstep

theorem syncStep_resume {cx : Option K} (hwait : ∀ value, s.controls t ≠ .enqueueWait value)
    (hstep : syncStep s (t, .resume cx) = some (s', event)) :
    s.controls t = .dequeueWait ∧ s'.controls t = .dequeueAttempt 0 ∧ s'.base = s.base ∧
      event = .silent := by
  simp only [syncStep] at hstep
  split at hstep
  · rename_i value hcontrol
    exact absurd hcontrol (hwait value)
  · rename_i hcontrol
    exact ⟨hcontrol, SyncState.resume_eq hstep⟩
  · cases hstep

theorem syncStep_cancel_eq (hstep : syncStep s (t, .cancel) = some (s', event)) :
    s' = s.setControl t .outside ∧ event = .silent := by
  simp only [syncStep] at hstep
  split at hstep
  · cases hstep
    exact ⟨rfl, rfl⟩
  · cases hstep
    exact ⟨rfl, rfl⟩
  · cases hstep

omit [DecidableEq K] [Buffer B α σ] in
theorem SyncState.move_eq {control' : SyncControl T K α}
    (hstep : s.move t control' = some (s', event)) :
    s'.controls t = control' ∧ s'.base = s.base ∧ event = .silent := by
  cases hstep
  exact ⟨Function.update_self .., rfl, rfl⟩

omit [Buffer B α σ] in
theorem SyncState.atomicStep_eq {call : AtomicCall T K}
    {place : AtomicCall T K → SyncControl T K α}
    (hstep : s.atomicStep t call place = some (s', event)) :
    (∃ call', s'.controls t = place call') ∧ s'.base = s.base ∧ event = .silent := by
  unfold SyncState.atomicStep at hstep
  split at hstep
  · cases hstep
  · rename_i dequeuer call' woken hrun
    cases hstep
    refine ⟨⟨call', ?_⟩, SyncState.base_signal _ _, rfl⟩
    rw [SyncState.controls_signal]
    exact Function.update_self ..

omit [Buffer B α σ] in
theorem SyncState.listStep_eq {call : ListCall T K} {place : ListCall T K → SyncControl T K α}
    (hstep : s.listStep t call place = some (s', event)) :
    (∃ call', s'.controls t = place call') ∧ s'.base = s.base ∧ event = .silent := by
  unfold SyncState.listStep at hstep
  split at hstep
  · cases hstep
  · rename_i enqueuers call' woken hrun
    cases hstep
    refine ⟨⟨call', ?_⟩, SyncState.base_signal _ _, rfl⟩
    rw [SyncState.controls_signal]
    exact Function.update_self ..

theorem SyncState.run_notify {count : Nat} {call : ListCall T K} {spurious : Bool}
    (hcontrol : s.controls t = .dequeueNotify count call) (hcall : call ≠ .returned) :
    s.run t spurious = s.listStep t call (.dequeueNotify count) := by
  rw [SyncState.run, hcontrol]
  cases call with
  | returned => exact absurd rfl hcall
  | _ => rfl

theorem SyncState.run_register {call : AtomicCall T K} {spurious : Bool}
    (hcontrol : s.controls t = .dequeueRegister call) (hcall : call ≠ .returned) :
    s.run t spurious = s.atomicStep t call .dequeueRegister := by
  rw [SyncState.run, hcontrol]
  cases call with
  | returned => exact absurd rfl hcall
  | _ => rfl

/-- The step of a thread that does not dequeue: it is silent, or it is a call to enqueue or
to close. -/
def SyncState.Produces (s : SyncState T K B α σ) (t : T) (s' : SyncState T K B α σ)
    (event : SyncEvent α) : Prop :=
  (s'.controls t).dequeues = false ∧
    ((s'.base = s.base ∧ event = .silent) ∨
      ∃ action shown, event = .called action shown ∧ action.enqueues = true ∧
        step s.base (t, action) = some (s'.base, shown))

omit [DecidableEq K] in
theorem SyncState.Produces.of_call {action : Action α} {control' : SyncControl T K α}
    (haction : action.enqueues = true) (hcontrol : control'.dequeues = false)
    (hstep : s.call t action control' = some (s', event)) : s.Produces t s' event := by
  obtain ⟨shown, hnext, hbase, rfl⟩ := SyncState.call_eq hstep
  exact ⟨hnext ▸ hcontrol, Or.inr ⟨action, shown, rfl, haction, hbase⟩⟩

omit [DecidableEq K] in
theorem SyncState.Produces.of_silent {control' : SyncControl T K α}
    (hcontrol : control'.dequeues = false)
    (hstep : s'.controls t = control' ∧ s'.base = s.base ∧ event = .silent) :
    s.Produces t s' event :=
  ⟨hstep.1 ▸ hcontrol, Or.inl hstep.2⟩

theorem SyncState.Produces.of_atomic {call : AtomicCall T K}
    {place : AtomicCall T K → SyncControl T K α}
    (hplace : ∀ call, (place call).dequeues = false)
    (hstep : s.atomicStep t call place = some (s', event)) : s.Produces t s' event := by
  obtain ⟨⟨call', hcontrol⟩, hbase⟩ := SyncState.atomicStep_eq hstep
  exact .of_silent (hplace call') ⟨hcontrol, hbase⟩

theorem SyncState.Produces.of_list {call : ListCall T K}
    {place : ListCall T K → SyncControl T K α}
    (hplace : ∀ call, (place call).dequeues = false)
    (hstep : s.listStep t call place = some (s', event)) : s.Produces t s' event := by
  obtain ⟨⟨call', hcontrol⟩, hbase⟩ := SyncState.listStep_eq hstep
  exact .of_silent (hplace call') ⟨hcontrol, hbase⟩

omit [DecidableEq T] [DecidableEq K] in
theorem dequeues_enqueueRetry (value : List α) (count : Nat) (call : ListCall T K) :
    (retrySync count (.enqueueAttempt value) (.enqueueRegister value call)
      (.enqueueWait value)).dequeues = false := by
  unfold retrySync
  split
  · rfl
  · split <;> rfl

theorem SyncState.run_produces {spurious : Bool} (hdequeues : (s.controls t).dequeues = false)
    (hthread : SyncThread (s.polls t) (s.controls t) (s.base.pcs t))
    (hstep : s.run t spurious = some (s', event)) : s.Produces t s' event := by
  have hnot : ∀ {control : SyncControl T K α}, s.controls t = control →
      control.dequeues = true → s.Produces t s' event := by
    intro control hcontrol htrue
    rw [hcontrol, htrue] at hdequeues
    cases hdequeues
  unfold SyncState.run at hstep
  split at hstep
  · exact .of_call rfl rfl hstep
  · rename_i value count hcontrol
    rw [hcontrol] at hthread
    have hsize : (Action.tryEnqueue value).enqueues = true := decide_eq_true hthread.1
    exact .of_call hsize rfl hstep
  · split at hstep
    · exact .of_call rfl rfl hstep
    · exact .of_silent rfl (SyncState.move_eq hstep)
    · exact .of_silent rfl (SyncState.move_eq hstep)
    · exact .of_call rfl rfl hstep
  · rename_i value count hcontrol
    split at hstep
    · exact .of_silent (dequeues_enqueueRetry value count _) (SyncState.move_eq hstep)
    · exact .of_silent rfl (SyncState.move_eq hstep)
  · exact .of_silent rfl (SyncState.move_eq hstep)
  · exact .of_list (fun _ => rfl) hstep
  · cases hstep
  · exact .of_silent rfl (SyncState.move_eq hstep)
  · exact .of_atomic (fun _ => rfl) hstep
  · rename_i hcontrol
    exact hnot hcontrol rfl
  · rename_i hcontrol
    exact hnot hcontrol rfl
  · rename_i hcontrol
    exact hnot hcontrol rfl
  · rename_i hcontrol
    exact hnot hcontrol rfl
  · rename_i hcontrol
    exact hnot hcontrol rfl
  · rename_i hcontrol
    exact hnot hcontrol rfl
  · cases hstep
  · exact .of_silent rfl (SyncState.move_eq hstep)
  · exact .of_atomic (fun _ => rfl) hstep
  · exact .of_silent rfl (SyncState.move_eq hstep)
  · exact .of_list (fun _ => rfl) hstep

/-- The others call the queue to enqueue and to close, and do not begin to dequeue. -/
theorem syncStep_produces {action : SyncAction K α} (henqueues : action.enqueues = true)
    (hdequeues : (s.controls t).dequeues = false)
    (hthread : SyncThread (s.polls t) (s.controls t) (s.base.pcs t))
    (hstep : syncStep s (t, action) = some (s', event)) : s.Produces t s' event := by
  cases action with
  | enqueue value cx => exact .of_silent rfl (syncStep_enqueue hstep)
  | close =>
      simp only [syncStep] at hstep
      split at hstep
      · exact .of_call rfl rfl hstep
      · cases hstep
  | resume cx =>
      simp only [syncStep] at hstep
      split at hstep
      · exact .of_silent rfl (SyncState.resume_eq hstep)
      · rename_i hcontrol
        rw [hcontrol] at hdequeues
        cases hdequeues
      · cases hstep
  | cancel =>
      obtain ⟨rfl, hevent⟩ := syncStep_cancel_eq hstep
      exact .of_silent rfl ⟨Function.update_self .., rfl, hevent⟩
  | run spurious => exact SyncState.run_produces hdequeues hthread hstep
  | _ => cases henqueues

end SyncSteps

end SwapBufferQueue
