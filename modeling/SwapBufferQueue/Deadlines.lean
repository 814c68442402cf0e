/-
The calls of a synchronized queue with deadlines.  `enqueue_timeout` and `dequeue_timeout`
are the loops of the blocking calls with a deadline, and panic before they begin when it
cannot be represented: `wait_until` reads the clock and parks the thread until the deadline;
once the deadline is behind, the loop ends with one attempt at the queue itself, whose error
is the error of the call.  `try_enqueue` and `try_dequeue`
are such attempts alone.  The steps of the queue and of its notifier are those of the
untimed system.
-/
import SwapBufferQueue.LostWakeup
import SwapBufferQueue.SynchronizedIter

namespace SwapBufferQueue

universe u v w x y

/-- How long a call waits: `forever` without a deadline, `before` a deadline, `parked` in
`park_timeout` until the deadline.  An attempt after the deadline is the last one, an
attempt of `try_enqueue` or `try_dequeue` the only one. -/
inductive Patience where
  | forever
  | before (deadline : Nat)
  | parked (deadline : Nat)
  | expired (deadline : Nat)
  | once
deriving Repr, DecidableEq

/-- A failed attempt ends the call. -/
def Patience.last : Patience → Bool
  | .expired _ => true
  | .once => true
  | _ => false

/-- A step of the untimed system, a call, the reading of the clock in `wait_until`, the
return of `park_timeout`, or the passage of time. -/
inductive TimedAction (K : Type y) (α : Type v) where
  | call (action : SyncAction K α)
  | tryEnqueue (value : List α)
  | tryDequeue
  | enqueueTimeout (value : List α) (timeout : Nat)
  | dequeueTimeout (timeout : Nat)
  | waitUntil
  | unpark
  | tick (elapsed : Nat)
deriving Repr, DecidableEq

/-- What a call returns; the slice is the caller's. -/
inductive CallResult (α : Type v) where
  | enqueued
  | enqueueError (error : TryEnqueueError (List α))
  | dequeued
  | dequeueError (error : TryDequeueError)
  | dequeueFailed (error : DequeueError)
deriving Repr, DecidableEq

/-- A step of the untimed system, the return of a call, or the clock.  A call that returns
nothing has panicked; one that overflows panics in `Instant::now() + timeout`, before it
begins. -/
inductive TimedEvent (α : Type v) where
  | clock
  | overflowed
  | shown (event : SyncEvent α)
  | returned (result : Option (CallResult α))
deriving Repr, DecidableEq

/-- The queue, its threads and tasks, the clock, the last instant that can be represented,
and how long each call waits. -/
structure TimedState (T : Type x) (K : Type y) (B : Type u) (α : Type v) (σ : Type w) where
  sync : SyncState T K B α σ
  clock : Nat
  lastInstant : Nat
  patience : T → Patience

variable {T : Type x} {K : Type y} {B : Type u} {α : Type v} {σ : Type w}

/-- `dequeue_err`, `none` at its `unreachable!`. -/
def dequeueErr : TryDequeueError → Option DequeueError
  | .closed => some .closed
  | .conflict => some .conflict
  | _ => none

/-- What the last attempt of a call leaves to return. -/
def Patience.result (patience : Patience) : Pc α σ → Option (CallResult α)
  | .slice _ _ _ _ => some .dequeued
  | .idle (some .enqueued) => some .enqueued
  | .idle (some (.enqueueError error)) => some (.enqueueError error)
  | .idle (some (.dequeueError error)) =>
      match patience with
      | .forever => (dequeueErr error).map .dequeueFailed
      | _ => some (.dequeueError error)
  | _ => none

/-- A thread is inside a call that returns a result. -/
def SyncControl.calling : SyncControl T K α → Bool
  | .outside => false
  | .closeDequeuer _ => false
  | .closeEnqueuers _ => false
  | _ => true

/-- The next round of a loop after its wait. -/
def SyncControl.again : SyncControl T K α → Option (SyncControl T K α)
  | .enqueueWait value => some (.enqueueAttempt value 0)
  | .dequeueWait => some (.dequeueAttempt 0)
  | _ => none

section Steps

variable [DecidableEq T] [DecidableEq K] [Buffer B α σ]

/-- A step of the untimed system, and how long the call waits from now on. -/
def TimedState.lift (s : TimedState T K B α σ) (t : T) (patience : Patience)
    (moved : Option (SyncState T K B α σ × SyncEvent α)) :
    Option (TimedState T K B α σ × TimedEvent α) :=
  match moved with
  | none => none
  | some (sync, event) =>
      some ({ s with sync := sync, patience := Function.update s.patience t patience },
        .shown event)

/-- A call with a deadline, unless `Instant::now() + timeout` overflows. -/
def TimedState.callBefore (s : TimedState T K B α σ) (t : T) (timeout : Nat)
    (action : SyncAction K α) : Option (TimedState T K B α σ × TimedEvent α) :=
  match syncStep s.sync (t, action) with
  | none => none
  | some moved =>
      if s.clock + timeout ≤ s.lastInstant then
        s.lift t (.before (s.clock + timeout)) (some moved)
      else some (s, .overflowed)

/-- The next step of the loop; a last attempt ends it. -/
def TimedState.advance (s : TimedState T K B α σ) (t : T) (spurious : Bool) :
    Option (SyncState T K B α σ × SyncEvent α) :=
  match (s.patience t).last, s.sync.controls t, s.sync.base.pcs t with
  | true, .enqueueTrying _ _, .idle _ => s.sync.move t .outside
  | true, .dequeueTrying _, .idle _ => s.sync.move t .outside
  | _, _, _ => s.sync.run t spurious

def TimedState.run (s : TimedState T K B α σ) (t : T) (spurious : Bool) :
    Option (TimedState T K B α σ × TimedEvent α) :=
  match s.advance t spurious with
  | none => none
  | some (sync, event) =>
      some ({ s with sync := sync },
        if (s.sync.controls t).calling && !(sync.controls t).calling then
          .returned ((s.patience t).result (s.sync.base.pcs t))
        else .shown event)

/-- `wait_until` with a deadline: the thread parks, or the loop ends with one attempt. -/
def TimedState.waitUntil (s : TimedState T K B α σ) (t : T) (deadline : Nat)
    (control : SyncControl T K α) : Option (TimedState T K B α σ × TimedEvent α) :=
  if s.clock ≤ deadline then
    some ({ s with patience := Function.update s.patience t (.parked deadline) }, .clock)
  else s.lift t (.expired deadline) (s.sync.poll t none control)

def timedStep (s : TimedState T K B α σ) (label : T × TimedAction K α) :
    Option (TimedState T K B α σ × TimedEvent α) :=
  let t := label.1
  match label.2 with
  | .call (.enqueue value cx) => s.lift t .forever (syncStep s.sync (t, .enqueue value cx))
  | .call (.dequeue cx) => s.lift t .forever (syncStep s.sync (t, .dequeue cx))
  | .call (.resume cx) =>
      match s.patience t with
      | .forever => s.lift t .forever (syncStep s.sync (t, .resume cx))
      | _ => none
  | .call (.run spurious) => s.run t spurious
  | .call action => s.lift t (s.patience t) (syncStep s.sync (t, action))
  | .tryEnqueue value => s.lift t .once (syncStep s.sync (t, .enqueue value none))
  | .tryDequeue => s.lift t .once (syncStep s.sync (t, .dequeue none))
  | .enqueueTimeout value timeout => s.callBefore t timeout (.enqueue value none)
  | .dequeueTimeout timeout => s.callBefore t timeout (.dequeue none)
  | .waitUntil =>
      match s.patience t, (s.sync.controls t).again with
      | .before deadline, some control => s.waitUntil t deadline control
      | _, _ => none
  | .unpark =>
      match s.patience t with
      | .parked deadline =>
          s.lift t (.before deadline) (syncStep s.sync (t, .resume none))
      | _ => none
  | .tick elapsed => some ({ s with clock := s.clock + elapsed }, .clock)

end Steps

/-- A queue that nobody uses, at the beginning of time. -/
def TimedState.ofQueue (lastInstant : Nat) (q : Queue B) : TimedState T K B α σ :=
  ⟨SyncState.ofQueue q, 0, lastInstant, fun _ => .forever⟩

/-- The step of the untimed system behind an action. -/
def TimedAction.untimed : TimedAction K α → SyncAction K α
  | .call action => action
  | .tryEnqueue value => .enqueue value none
  | .tryDequeue => .dequeue none
  | .enqueueTimeout value _ => .enqueue value none
  | .dequeueTimeout _ => .dequeue none
  | .waitUntil => .resume none
  | .unpark => .resume none
  | .tick _ => .run false

/-- There is one dequeuer, and no value is larger than half of the address space. -/
def TimedOk (s : TimedState T K B α σ) (label : T × TimedAction K α) : Prop :=
  SyncOk s.sync (label.1, label.2.untimed)

instance instDecidableTimedOk [Fintype T] [DecidableEq α] (s : TimedState T K B α σ)
    (label : T × TimedAction K α) : Decidable (TimedOk s label) :=
  inferInstanceAs (Decidable (SyncOk s.sync (label.1, label.2.untimed)))

def TimedEvent.sync? : TimedEvent α → Option (SyncEvent α)
  | .clock => none
  | .overflowed => none
  | .shown event => some event
  | .returned _ => some .silent

def untimedTrace (trace : List ((T × TimedAction K α) × TimedEvent α)) :
    List ((T × SyncAction K α) × SyncEvent α) :=
  trace.filterMap fun entry =>
    entry.2.sync?.map fun event => ((entry.1.1, entry.1.2.untimed), event)

def timedTrace (trace : List ((T × TimedAction K α) × TimedEvent α)) :
    List ((T × Action α) × Event α) :=
  syncTrace (untimedTrace trace)

theorem untimedTrace_append (first second : List ((T × TimedAction K α) × TimedEvent α)) :
    untimedTrace (first ++ second) = untimedTrace first ++ untimedTrace second :=
  List.filterMap_append

theorem timedTrace_append (first second : List ((T × TimedAction K α) × TimedEvent α)) :
    timedTrace (first ++ second) = timedTrace first ++ timedTrace second := by
  rw [timedTrace, untimedTrace_append]
  exact List.filterMap_append

theorem untimedTrace_singleton (label : T × TimedAction K α) (event : TimedEvent α) :
    untimedTrace [(label, event)] =
      (event.sync?.map fun shown => ((label.1, label.2.untimed), shown)).toList := by
  cases event <;> rfl

section Cases

variable [DecidableEq T] [DecidableEq K] [Buffer B α σ] {s s' : TimedState T K B α σ} {t : T}
  {event : TimedEvent α}

omit [DecidableEq K] [Buffer B α σ] in
theorem TimedState.lift_cases {patience : Patience}
    {moved : Option (SyncState T K B α σ × SyncEvent α)}
    (hstep : s.lift t patience moved = some (s', event)) :
    ∃ shown, moved = some (s'.sync, shown) ∧ event = .shown shown ∧ s'.clock = s.clock ∧
      s'.patience = Function.update s.patience t patience := by
  cases moved with
  | none => cases hstep
  | some result =>
      obtain ⟨sync, shown⟩ := result
      cases hstep
      exact ⟨shown, rfl, rfl, rfl, rfl⟩

/-- A call with a deadline begins, or it panics and leaves everything as it was. -/
theorem TimedState.callBefore_cases {timeout : Nat} {action : SyncAction K α}
    (hstep : s.callBefore t timeout action = some (s', event)) :
    s.clock + timeout ≤ s.lastInstant ∧
        s.lift t (.before (s.clock + timeout)) (syncStep s.sync (t, action)) =
          some (s', event) ∨
      s.lastInstant < s.clock + timeout ∧ s' = s ∧ event = .overflowed := by
  unfold TimedState.callBefore at hstep
  split at hstep
  · cases hstep
  · rename_i moved hmoved
    split at hstep
    · rename_i hfits
      rw [hmoved]
      exact Or.inl ⟨hfits, hstep⟩
    · rename_i hlate
      cases hstep
      exact Or.inr ⟨by omega, rfl, rfl⟩

theorem TimedState.callBefore_begins {timeout : Nat} {action : SyncAction K α}
    (hstep : s.callBefore t timeout action = some (s', event))
    (hfits : ¬ s.lastInstant < s.clock + timeout) :
    s.lift t (.before (s.clock + timeout)) (syncStep s.sync (t, action)) = some (s', event) := by
  rcases callBefore_cases hstep with ⟨-, hbegins⟩ | ⟨hlate, -⟩
  · exact hbegins
  · exact absurd hlate hfits

theorem TimedState.callBefore_overflows {timeout : Nat} {action : SyncAction K α}
    (hstep : s.callBefore t timeout action = some (s', event))
    (hlate : s.lastInstant < s.clock + timeout) : s' = s ∧ event = .overflowed := by
  rcases callBefore_cases hstep with ⟨hfits, -⟩ | ⟨-, hnothing⟩
  · omega
  · exact hnothing

omit [DecidableEq T] [DecidableEq K] [Buffer B α σ] in
theorem SyncControl.begins_again {s : SyncState T K B α σ} {control : SyncControl T K α}
    (hagain : (s.controls t).again = some control) : SyncBegins s t control := by
  cases hcontrol : s.controls t with
  | enqueueWait value =>
      rw [hcontrol] at hagain
      cases hagain
      exact .resumeEnqueue value hcontrol
  | dequeueWait =>
      rw [hcontrol] at hagain
      cases hagain
      exact .resumeDequeue hcontrol
  | _ =>
      rw [hcontrol] at hagain
      cases hagain

theorem TimedState.advance_cases {sync : SyncState T K B α σ} {shown : SyncEvent α}
    {spurious : Bool} (hstep : s.advance t spurious = some (sync, shown)) :
    SyncMove s.sync t sync shown := by
  unfold TimedState.advance at hstep
  split at hstep
  · rename_i value count last _ hcontrol hpc
    refine SyncState.move_cases hstep ?_
    rw [hcontrol, hpc]
    exact .enqueueReturns value count last
  · rename_i count last _ hcontrol hpc
    refine SyncState.move_cases hstep ?_
    rw [hcontrol, hpc]
    exact .dequeueFails count last
  · exact SyncState.run_cases hstep

theorem TimedState.run_cases {spurious : Bool} (hstep : s.run t spurious = some (s', event)) :
    ∃ shown, s.advance t spurious = some (s'.sync, shown) ∧ s'.clock = s.clock ∧
      s'.patience = s.patience ∧
      (event = .shown shown ∨ (s.sync.controls t).calling = true ∧
        (s'.sync.controls t).calling = false ∧
        event = .returned ((s.patience t).result (s.sync.base.pcs t))) := by
  unfold TimedState.run at hstep
  split at hstep
  · cases hstep
  · rename_i sync shown hadvance
    cases hstep
    refine ⟨shown, hadvance, rfl, rfl, ?_⟩
    split
    · rename_i hreturns
      rw [Bool.and_eq_true, Bool.not_eq_true'] at hreturns
      exact Or.inr ⟨hreturns.1, hreturns.2, rfl⟩
    · exact Or.inl rfl

omit [DecidableEq T] [DecidableEq K] [Buffer B α σ] in
/-- A call of the queue is not where a call returns. -/
theorem SyncCalls.calling {control control' : SyncControl T K α} {pc : Pc α σ}
    {action : Action α} (hcall : SyncCalls control pc action control')
    (hcalling : control.calling = true) : control'.calling = true := by
  cases hcall <;> first | rfl | cases hcalling

/-- A call returns without a step of the queue. -/
theorem SyncMove.silent_of_returned {s s' : SyncState T K B α σ} {event : SyncEvent α}
    (hmove : SyncMove s t s' event) (hcalling : (s.controls t).calling = true)
    (hreturned : (s'.controls t).calling = false) : event = .silent := by
  cases hmove with
  | called hcall _ =>
      change (Function.update s.controls t _ t).calling = false at hreturned
      rw [Function.update_self, hcall.calling hcalling] at hreturned
      cases hreturned
  | _ => rfl

/-- What one step can do: the clock moves or is read, a deadline overflows, or the untimed
system moves. -/
theorem timedStep_cases {action : TimedAction K α}
    (hstep : timedStep s (t, action) = some (s', event)) (hok : TimedOk s (t, action)) :
    (event.sync? = none ∧ s'.sync = s.sync) ∨
      ∃ shown, event.sync? = some shown ∧ SyncMove s.sync t s'.sync shown := by
  have hlift : ∀ {patience : Patience} {moved : Option (SyncState T K B α σ × SyncEvent α)},
      s.lift t patience moved = some (s', event) →
        (∀ {sync shown}, moved = some (sync, shown) → SyncMove s.sync t sync shown) →
          ∃ shown, event.sync? = some shown ∧ SyncMove s.sync t s'.sync shown := by
    intro patience moved hlift hmove
    obtain ⟨shown, hmoved, rfl, -, -⟩ := TimedState.lift_cases hlift
    exact ⟨shown, rfl, hmove hmoved⟩
  cases action with
  | call action =>
      refine Or.inr ?_
      cases action with
      | resume cx =>
          simp only [timedStep] at hstep
          split at hstep
          · exact hlift hstep fun h => syncStep_cases h hok
          · cases hstep
      | run spurious =>
          obtain ⟨shown, hadvance, -, -, hevent⟩ := TimedState.run_cases hstep
          have hmove := TimedState.advance_cases hadvance
          rcases hevent with rfl | ⟨hcalling, hreturned, rfl⟩
          · exact ⟨shown, rfl, hmove⟩
          · cases hmove.silent_of_returned hcalling hreturned
            exact ⟨.silent, rfl, hmove⟩
      | _ => exact hlift hstep fun h => syncStep_cases h hok
  | tryEnqueue value => exact Or.inr (hlift hstep fun h => syncStep_cases h hok)
  | tryDequeue => exact Or.inr (hlift hstep fun h => syncStep_cases h hok)
  | enqueueTimeout value timeout =>
      rcases TimedState.callBefore_cases hstep with ⟨-, hbegins⟩ | ⟨-, rfl, rfl⟩
      · exact Or.inr (hlift hbegins fun h => syncStep_cases h hok)
      · exact Or.inl ⟨rfl, rfl⟩
  | dequeueTimeout timeout =>
      rcases TimedState.callBefore_cases hstep with ⟨-, hbegins⟩ | ⟨-, rfl, rfl⟩
      · exact Or.inr (hlift hbegins fun h => syncStep_cases h hok)
      · exact Or.inl ⟨rfl, rfl⟩
  | waitUntil =>
      simp only [timedStep] at hstep
      split at hstep
      · rename_i deadline control _ hagain
        unfold TimedState.waitUntil at hstep
        split at hstep
        · cases hstep
          exact Or.inl ⟨rfl, rfl⟩
        · refine Or.inr (hlift hstep fun h => ?_)
          exact SyncState.poll_cases h (SyncControl.begins_again hagain)
      · cases hstep
  | unpark =>
      simp only [timedStep] at hstep
      split at hstep
      · exact Or.inr (hlift hstep fun h => syncStep_cases h hok)
      · cases hstep
  | tick elapsed =>
      cases hstep
      exact Or.inl ⟨rfl, rfl⟩

end Cases

section Wake

variable [DecidableEq T] [DecidableEq K] [Buffer B α σ] [LawfulBuffer B]
  {start s : TimedState T K B α σ} {trace : List ((T × TimedAction K α) × TimedEvent α)}

theorem WakeInv.step {start s s' : SyncState T K B α σ}
    {trace : List ((T × SyncAction K α) × SyncEvent α)} {t : T} {event : SyncEvent α}
    (hwake : WakeInv start trace s) (hinitial : SyncInitial start)
    (hmove : SyncMove s t s' event) (label : SyncAction K α) :
    WakeInv start (trace ++ [((t, label), event)]) s' := by
  cases hmove with
  | called hcall hbase => exact hwake.called hinitial hcall hbase
  | moved hmove => exact hwake.moved hinitial hmove
  | atomic hplace hcontrol hmove => exact hwake.atomic_step hplace hcontrol hmove
  | listed hplace hcontrol hmove => exact hwake.list_step hplace hcontrol hmove
  | polled cx hbegins =>
      exact hwake.begun hbegins (SyncFrame.of_poll s t cx _) rfl rfl rfl
  | unparked hbegins => exact hwake.begun hbegins (SyncFrame.of_unpark s t _) rfl rfl rfl

theorem wakeInv_of_timedRun (hinitial : SyncInitial start.sync)
    (hrun : Runs.Run timedStep TimedOk start trace s) :
    WakeInv start.sync (untimedTrace trace) s.sync := by
  refine hrun.invariant
    (fun trace (s : TimedState T K B α σ) => WakeInv start.sync (untimedTrace trace) s.sync)
    (WakeInv.of_initial hinitial) ?_
  rintro trace s s' ⟨t, action⟩ event _ hwake hok hstep
  rw [untimedTrace_append, untimedTrace_singleton]
  rcases timedStep_cases hstep hok with ⟨hnone, hsync⟩ | ⟨shown, hshown, hmove⟩
  · rw [hnone, hsync]
    exact (List.append_nil (untimedTrace trace)).symm ▸ hwake
  · rw [hshown]
    exact hwake.step hinitial hmove _

/-- A call that sleeps: nobody has woken it, and it has no deadline or one that has not
passed. -/
def TimedState.Asleep (s : TimedState T K B α σ) (t : T) : Prop :=
  s.sync.Parked t ∧
    match s.patience t with
    | .forever => True
    | .parked deadline => s.clock ≤ deadline
    | _ => False

/-- Nobody is left to run before some deadline passes. -/
def TimedState.Quiescent (s : TimedState T K B α σ) : Prop :=
  ∀ t, s.sync.Finished t ∨ s.Asleep t

omit [DecidableEq T] [DecidableEq K] [Buffer B α σ] [LawfulBuffer B] in
theorem TimedState.Quiescent.sync (hquiescent : s.Quiescent) : s.sync.Quiescent :=
  fun t => (hquiescent t).imp_right And.left

/-- No wake-up is lost by the calls with a deadline or through them.  Whatever blocking,
timed, asynchronous and bare calls run, in any order and however the time passes: when
every unfinished call sleeps before its deadline, a sleeping dequeue sleeps at an open
queue with nothing in it, a sleeping enqueue at an open queue that has less room than its
value needs and could hold it, and they do not both sleep. -/
theorem no_lost_wakeup_before_deadline (hinitial : SyncInitial start.sync)
    (hrun : Runs.Run timedStep TimedOk start trace s) (hquiescent : s.Quiescent) :
    (∀ t, s.sync.controls t = .dequeueWait →
      s.sync.base.queue.enqueuingCapacity.isClosed = false ∧
        Exhausted s.sync.base (timedTrace trace)) ∧
    (∀ t value, s.sync.controls t = .enqueueWait value →
      s.sync.base.queue.enqueuingCapacity.isClosed = false ∧
        s.sync.base.queue.enqueuingCapacity.remainingCapacity < value.length ∧
        value.length ≤ Buffer.capacity
          (s.sync.base.queue.buffers s.sync.base.queue.enqueuingCapacity.bufferIndex)) ∧
    ¬ ((∃ t, s.sync.controls t = .dequeueWait) ∧
      ∃ t value, s.sync.controls t = .enqueueWait value) := by
  have hwake := wakeInv_of_timedRun hinitial hrun
  have hsync := hquiescent.sync
  refine ⟨fun t hcontrol => hwake.parked_dequeue hinitial hsync hcontrol,
    fun t value hcontrol => hwake.parked_enqueue hinitial hsync hcontrol, ?_⟩
  rintro ⟨⟨t, hdequeue⟩, t', value, henqueue⟩
  obtain ⟨-, hempty⟩ := hwake.parked_dequeue hinitial hsync hdequeue
  obtain ⟨-, hlacks, hfits⟩ := hwake.parked_enqueue hinitial hsync henqueue
  rw [hempty.enqueuing] at hlacks
  omega

end Wake

/-- An element is in the only place there is; a call with a deadline sleeps for room. -/
theorem no_lost_wakeup_before_deadline_full :
    ∃ (start s : TimedState Bool Nat (VecBuffer Nat) Nat (List Nat)) (trace : _),
      SyncInitial start.sync ∧ Runs.Run timedStep TimedOk start trace s ∧ s.Quiescent ∧
      s.patience true = .parked 9 ∧ s.clock = 6 ∧
      s.sync.controls true = .enqueueWait [8] ∧
      s.sync.base.queue.enqueuingCapacity.remainingCapacity < 1 := by
  have hinitial := syncInitial_withCapacity (T := Bool) (K := Nat) (B := VecBuffer Nat)
    (show (Queue.withCapacity 1).isSome = true by decide +kernel)
  have hrun := Runs.run_of_isSome timedStep TimedOk
    (TimedState.ofQueue 100 ((Queue.withCapacity 1).get (by decide +kernel)) :
      TimedState Bool Nat (VecBuffer Nat) Nat (List Nat))
    (List.flatten [[(false, .tryEnqueue [7])], List.replicate 9 (false, .call (.run false)),
      [(false, .tick 4), (true, .enqueueTimeout [8] 5)],
      List.replicate 266 (true, .call (.run false)), [(true, .waitUntil), (false, .tick 2)]])
    (by decide +kernel) (by decide +kernel)
  obtain ⟨trace, s, hrun, hfinished, hwait, hnotified, hpatience, hclock⟩ :
      ∃ trace s, Runs.Run timedStep TimedOk _ trace s ∧
        (s.sync.controls false = .outside ∧
          s.sync.base.pcs false = .idle (some .enqueued)) ∧
        s.sync.controls true = .enqueueWait [8] ∧ s.sync.notified true = false ∧
        s.patience true = .parked 9 ∧ s.clock = 6 :=
    ⟨_, _, hrun, by decide +kernel, by decide +kernel, by decide +kernel, by decide +kernel,
      by decide +kernel⟩
  have hquiescent : s.Quiescent := by
    rintro (_ | _)
    · exact Or.inl ⟨hfinished.1, _, hfinished.2⟩
    · refine Or.inr ⟨⟨Or.inr ⟨_, hwait⟩, hnotified⟩, ?_⟩
      rw [hpatience, hclock]
      decide
  exact ⟨_, s, trace, hinitial, hrun, hquiescent, hpatience, hclock, hwait,
    ((no_lost_wakeup_before_deadline hinitial hrun hquiescent).2.1 true [8] hwait).2.1⟩

end SwapBufferQueue
