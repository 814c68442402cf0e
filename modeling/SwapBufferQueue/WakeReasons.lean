/-
Why a call that waits is safe.  A call that has registered its waker and has then failed
once more waits for a reason: nothing to dequeue, or no room.  As long as its waker is in
place, whoever ends the reason still owes a wake; once the waker is taken, the thread that
took it wakes it.
-/
import SwapBufferQueue.SynchronizedInvariant

namespace SwapBufferQueue

universe u v w x y

variable {T : Type x} {K : Type y} {B : Type u} {α : Type v} {σ : Type w}

section Reasons

/-- A dequeue whose registration has returned. -/
def SyncControl.dequeueArmed : SyncControl T K α → Bool
  | .dequeueRegister .returned => true
  | .dequeueAttempt count => decide (spinLimit ≤ count)
  | .dequeueTrying count => decide (spinLimit ≤ count)
  | .dequeueNotify count _ => decide (spinLimit ≤ count)
  | .dequeueWait => true
  | _ => false

/-- The value of an enqueue that has pushed its waker. -/
def SyncControl.enqueueArmed : SyncControl T K α → Option (List α)
  | .enqueueRegister value .registerUnlock => some value
  | .enqueueRegister value .returned => some value
  | .enqueueAttempt value count => if spinLimit ≤ count then some value else none
  | .enqueueTrying value count => if spinLimit ≤ count then some value else none
  | .enqueueCapacity value count => if spinLimit ≤ count then some value else none
  | .enqueueWait value => some value
  | _ => none

/-- A dequeue between its swap and the notification of the enqueuers. -/
def Pc.Swapped : Pc α σ → Prop
  | .dequeueLoadCapacity _ _ _ => True
  | .dequeueStoreCapacity _ _ _ => True
  | .dequeueNotify _ _ _ => True
  | _ => False

/-- Somebody will wake the dequeuer: a reservation is in flight, or its notification or
that of a `close` has not begun. -/
def OwesDequeue (control : SyncControl T K α) (pc : Pc α σ) : Prop :=
  pc.inFlight ≠ none ∨ control = .enqueueNotify .wakeStart ∨
    control = .closeDequeuer .wakeStart

/-- A `wake` of the enqueuers that has not taken the flag. -/
def ListCall.Approaches : ListCall T K → Prop
  | .wakeLoad => True
  | .wakeExchange => True
  | _ => False

/-- Somebody will wake the enqueuers: the buffers were swapped or the queue was closed,
and the notification has not taken the flag. -/
def OwesEnqueue : SyncControl T K α → Pc α σ → Prop
  | .dequeueTrying _, pc => pc.Swapped
  | .dequeueNotify _ call, _ => call.Approaches
  | .closeDequeuer _, _ => True
  | .closeEnqueuers call, _ => call.Approaches
  | _, _ => False

/-- The last attempt before a dequeue waits has failed. -/
def DequeueCommitted (control : SyncControl T K α) (pc : Pc α σ) : Prop :=
  control = .dequeueWait ∨ (∃ count, control = .dequeueTrying count) ∧ pc.Waits

/-- The last attempt before an enqueue waits has failed. -/
def EnqueueCommitted : SyncControl T K α → Pc α σ → Prop
  | .enqueueTrying _ _, pc =>
      ∃ value, pc = .idle (some (.enqueueError (.insufficientCapacity value)))
  | .enqueueCapacity _ _, _ => True
  | .enqueueWait _, _ => True
  | _, _ => False

/-- The waker of a dequeue is in place or taken, and it waits for a reason. -/
def DequeueSafe (s : SyncState T K B α σ) (g : Ledger T α) (t : T) : Prop :=
  s.notified t = true ∨ s.dequeuer.Due s.atomics (s.waker t) ∨
    s.dequeuer.Armed (s.waker t) ∧
      (DequeueCommitted (s.controls t) (s.base.pcs t) →
        g.Vacant ∨ ∃ t', OwesDequeue (s.controls t') (s.base.pcs t'))

/-- The waker of an enqueue is in place or taken, and it waits for a reason. -/
def EnqueueSafe (s : SyncState T K B α σ) (t : T) (value : List α) : Prop :=
  s.notified t = true ∨ s.enqueuers.Due s.lists (s.waker t) ∨
    s.enqueuers.Armed (s.waker t) ∧
      (EnqueueCommitted (s.controls t) (s.base.pcs t) →
        s.base.queue.enqueuingCapacity.Blocks value.length ∨
          ∃ t', OwesEnqueue (s.controls t') (s.base.pcs t'))

end Reasons
variable [DecidableEq T] [Buffer B α σ] {s s' : SyncState T K B α σ} {t : T}
  {control' : SyncControl T K α}

section Commits

variable {q q' : Queue B} {pc pc' : Pc α σ} {action : Action α} {event : Event α}
  {cx : Option K} {control : SyncControl T K α}

omit [DecidableEq T] in
theorem Transition.holds_cases (hmove : Transition q pc action q' pc' event)
    (hargs : ArgsOk q' pc') (hholds : pc'.holds = true) :
    pc.holds = true ∨ ∃ resize, pc = .dequeueLock resize := by
  cases hmove with
  | silent hlocal =>
      cases hlocal with
      | enqueueLoad _ _ =>
          rw [enqueueCheck_holds] at hholds
          cases hholds
      | enqueueRetry _ _ _ _ =>
          rw [enqueueCheck_holds] at hholds
          cases hholds
      | indexUnderflow _ _ _ _ => exact hargs.elim
      | insertOutOfBounds _ _ _ _ => exact hargs.elim
      | _ => first | exact Or.inl rfl | cases hholds
  | lock resize _ _ => exact Or.inr ⟨resize, rfl⟩
  | _ => first | exact Or.inl rfl | cases hholds

omit [DecidableEq T] in
theorem Transition.holds_of_waits {spurious : Bool}
    (hmove : Transition q pc (.run spurious) q' pc' event) (hwaits : pc'.Waits) :
    pc.holds = true := by
  cases hmove with
  | silent hlocal =>
      cases hlocal with
      | enqueueLoad _ _ => exact absurd hwaits (not_waits_enqueueCheck _ _)
      | enqueueRetry _ _ _ _ => exact absurd hwaits (not_waits_enqueueCheck _ _)
      | _ => first | exact rfl | exact hwaits.elim
  | lock _ _ _ => exact absurd hwaits (not_waits_dequeueEntry _ _)
  | _ => first | exact rfl | exact hwaits.elim

/-- The control points at which a thread is in a call of the queue, or has a slice. -/
def SyncControl.inside : SyncControl T K α → Bool
  | .outside => true
  | .enqueueTrying _ _ => true
  | .dequeueTrying _ => true
  | .dequeueNotify _ _ => true
  | _ => false

omit [DecidableEq T] [Buffer B α σ] in
theorem SyncThread.idle (hthread : SyncThread cx control pc) (hcontrol : control.inside = false) :
    ∃ last, pc = .idle last := by
  cases control with
  | enqueueAttempt _ _ => exact hthread.2
  | enqueueCapacity _ _ => exact hthread.2
  | enqueueRegister _ _ => exact hthread.2.2
  | enqueueWait _ => exact hthread.2
  | enqueueNotify _ => exact hthread.2
  | dequeueAttempt _ => exact hthread
  | dequeueRegister _ => exact hthread.2
  | dequeueWait => exact hthread
  | closeDequeuer _ => exact hthread.2
  | closeEnqueuers _ => exact hthread.2
  | _ => cases hcontrol

omit [DecidableEq T] [Buffer B α σ] in
theorem SyncThread.dequeues_of_lock {resize : ResizeArgs α}
    (hthread : SyncThread cx control (.dequeueLock resize : Pc α σ)) :
    control.dequeues = true := by
  cases hcontrol : control.inside with
  | false =>
      obtain ⟨last, hpc⟩ := hthread.idle hcontrol
      cases hpc
  | true =>
      cases control with
      | dequeueTrying _ => rfl
      | dequeueNotify _ _ => rfl
      | outside => exact hthread.elim
      | enqueueTrying _ _ => exact hthread.2.elim
      | _ => cases hcontrol

omit [DecidableEq T] [Buffer B α σ] in
theorem SyncThread.trying_of_inFlight (hthread : SyncThread cx control pc)
    (hflight : pc.inFlight ≠ none) : ∃ value count, control = .enqueueTrying value count := by
  cases hcontrol : control.inside with
  | false =>
      obtain ⟨last, rfl⟩ := hthread.idle hcontrol
      exact absurd rfl hflight
  | true =>
      cases control with
      | enqueueTrying value count => exact ⟨value, count, rfl⟩
      | outside =>
          cases pc with
          | enqueueInsert _ _ => exact hthread.elim
          | enqueueAcknowledge _ _ => exact hthread.elim
          | _ => exact absurd rfl hflight
      | dequeueTrying count =>
          cases pc with
          | enqueueInsert _ _ => exact hthread.elim
          | enqueueAcknowledge _ _ => exact hthread.elim
          | _ => exact absurd rfl hflight
      | dequeueNotify _ _ =>
          obtain ⟨-, attempt, capacity, enqueuing, rfl⟩ := hthread
          exact absurd rfl hflight
      | _ => cases hcontrol

end Commits

section Safe

variable {g g' : Ledger T α} {r : T}

omit [DecidableEq T] [Buffer B α σ] in
theorem DequeueCommitted.dequeues {control : SyncControl T K α} {pc : Pc α σ}
    (hcommitted : DequeueCommitted control pc) : control.dequeues = true := by
  rcases hcommitted with rfl | ⟨⟨count, rfl⟩, -⟩ <;> rfl

omit [Buffer B α σ] in
/-- A thread that begins or ends a call has no duty. -/
theorem AtomicWaker.Due.keep {a : AtomicWaker T K} {calls : T → AtomicCall T K}
    {waker : Waker T K} (hdue : a.Due calls waker) (hcall : (calls t).carries = none)
    (call' : AtomicCall T K) : a.Due (Function.update calls t call') waker := by
  rcases hdue with ⟨t', hcarries⟩ | hcell
  · refine AtomicWaker.Due.other hcarries ?_
    rintro rfl
    rw [hcall] at hcarries
    cases hcarries
  · exact Or.inr hcell

omit [Buffer B α σ] in
theorem WakerList.Due.keep {l : WakerList T K} {calls : T → ListCall T K}
    {waker : Waker T K} (hdue : l.Due calls waker) (hcall : calls t = .returned)
    (call' : ListCall T K) : l.Due (Function.update calls t call') waker := by
  have hne : ∀ {t'}, calls t' ≠ .returned → t' ≠ t := by
    rintro t' h rfl
    exact h hcall
  rcases hdue with ⟨t', hcarries⟩ | ⟨hmem, t', hdrains⟩
  · refine Or.inl ⟨t', ?_⟩
    rw [Function.update_of_ne (hne ?_)]
    · exact hcarries
    · intro h
      rw [h] at hcarries
      cases hcarries
  · refine Or.inr ⟨hmem, t', ?_⟩
    rw [Function.update_of_ne (hne ?_)]
    · exact hdrains
    · intro h
      rw [h] at hdrains
      cases hdrains

omit [DecidableEq T] [Buffer B α σ] in
/-- How a dequeue stays safe: notified once, taken once, in place otherwise. -/
theorem DequeueSafe.step (hsafe : DequeueSafe s g r) (hpoll : s'.polls r = s.polls r)
    (hnotified : s.notified r = true → s'.notified r = true)
    (hdue : s.dequeuer.Due s.atomics (s.waker r) →
      s'.notified r = true ∨ s'.dequeuer.Due s'.atomics (s.waker r))
    (harmed : s.dequeuer.Armed (s.waker r) →
      (DequeueCommitted (s.controls r) (s.base.pcs r) →
        g.Vacant ∨ ∃ t', OwesDequeue (s.controls t') (s.base.pcs t')) →
      s'.dequeuer.Due s'.atomics (s.waker r) ∨ s'.dequeuer.Armed (s.waker r) ∧
        (DequeueCommitted (s'.controls r) (s'.base.pcs r) →
          g'.Vacant ∨ ∃ t', OwesDequeue (s'.controls t') (s'.base.pcs t'))) :
    DequeueSafe s' g' r := by
  have hwaker : s'.waker r = s.waker r := congrArg (Waker.new r) hpoll
  unfold DequeueSafe
  rw [hwaker]
  rcases hsafe with h | h | ⟨h, hreason⟩
  · exact Or.inl (hnotified h)
  · exact (hdue h).imp_right Or.inl
  · exact Or.inr (harmed h hreason)

omit [DecidableEq T] [Buffer B α σ] in
theorem EnqueueSafe.step {value : List α} (hsafe : EnqueueSafe s r value)
    (hpoll : s'.polls r = s.polls r)
    (hnotified : s.notified r = true → s'.notified r = true)
    (hdue : s.enqueuers.Due s.lists (s.waker r) →
      s'.notified r = true ∨ s'.enqueuers.Due s'.lists (s.waker r))
    (harmed : s.enqueuers.Armed (s.waker r) →
      (EnqueueCommitted (s.controls r) (s.base.pcs r) →
        s.base.queue.enqueuingCapacity.Blocks value.length ∨
          ∃ t', OwesEnqueue (s.controls t') (s.base.pcs t')) →
      s'.enqueuers.Due s'.lists (s.waker r) ∨ s'.enqueuers.Armed (s.waker r) ∧
        (EnqueueCommitted (s'.controls r) (s'.base.pcs r) →
          s'.base.queue.enqueuingCapacity.Blocks value.length ∨
            ∃ t', OwesEnqueue (s'.controls t') (s'.base.pcs t'))) :
    EnqueueSafe s' r value := by
  have hwaker : s'.waker r = s.waker r := congrArg (Waker.new r) hpoll
  unfold EnqueueSafe
  rw [hwaker]
  rcases hsafe with h | h | ⟨h, hreason⟩
  · exact Or.inl (hnotified h)
  · exact (hdue h).imp_right Or.inl
  · exact Or.inr (harmed h hreason)

omit [Buffer B α σ] in
/-- Whoever owes a wake before a step outside of the queue owes it afterwards. -/
theorem SyncFrame.owes {P : SyncControl T K α → Pc α σ → Prop}
    (hframe : SyncFrame s s' t control') (hbase : s'.base = s.base)
    (hself : P (s.controls t) (s.base.pcs t) → P control' (s.base.pcs t))
    (howes : ∃ t', P (s.controls t') (s.base.pcs t')) :
    ∃ t', P (s'.controls t') (s'.base.pcs t') := by
  obtain ⟨t', h⟩ := howes
  refine ⟨t', ?_⟩
  rw [hbase]
  by_cases ht' : t' = t
  · rw [ht', hframe.control_self]
    rw [ht'] at h
    exact hself h
  · rw [hframe.control_other ht']
    exact h

omit [Buffer B α σ] in
theorem DequeueSafe.keep (hsafe : DequeueSafe s g r) (hframe : SyncFrame s s' t control')
    (hbase : s'.base = s.base) (hdequeuer : s'.dequeuer = s.dequeuer)
    (hcall : s.atomics t = .returned) (hpoll : s'.polls r = s.polls r)
    (hnotified : s.notified r = true → s'.notified r = true)
    (hcommitted : DequeueCommitted (s'.controls r) (s.base.pcs r) →
      DequeueCommitted (s.controls r) (s.base.pcs r)) : DequeueSafe s' g r := by
  have howes : OwesDequeue (s.controls t) (s.base.pcs t) →
      OwesDequeue control' (s.base.pcs t) := by
    rintro (h | h | h)
    · exact Or.inl h
    · rw [SyncState.atomics, h] at hcall
      cases hcall
    · rw [SyncState.atomics, h] at hcall
      cases hcall
  refine hsafe.step hpoll hnotified (fun hdue => Or.inr ?_) fun harmed hreason => Or.inr ?_
  · rw [hdequeuer, SyncState.atomics_eq hframe.controls]
    exact hdue.keep (by rw [hcall]; rfl) _
  · rw [hdequeuer]
    refine ⟨harmed, fun h => ?_⟩
    rw [hbase] at h
    exact (hreason (hcommitted h)).imp_right (hframe.owes hbase howes)

omit [Buffer B α σ] in
theorem EnqueueSafe.keep {value : List α} (hsafe : EnqueueSafe s r value)
    (hframe : SyncFrame s s' t control') (hbase : s'.base = s.base)
    (henqueuers : s'.enqueuers = s.enqueuers) (hcall : s.lists t = .returned)
    (hpoll : s'.polls r = s.polls r) (hnotified : s.notified r = true → s'.notified r = true)
    (howes : OwesEnqueue (s.controls t) (s.base.pcs t) → OwesEnqueue control' (s.base.pcs t))
    (hcommitted : EnqueueCommitted (s'.controls r) (s.base.pcs r) →
      EnqueueCommitted (s.controls r) (s.base.pcs r)) : EnqueueSafe s' r value := by
  refine hsafe.step hpoll hnotified (fun hdue => Or.inr ?_) fun harmed hreason => Or.inr ?_
  · rw [henqueuers, SyncState.lists_eq hframe.controls]
    exact hdue.keep hcall _
  · rw [henqueuers]
    refine ⟨harmed, fun h => ?_⟩
    rw [hbase] at h
    refine (hreason (hcommitted h)).imp (fun hblocks => ?_) (hframe.owes hbase howes)
    rw [hbase]
    exact hblocks

end Safe

end SwapBufferQueue
