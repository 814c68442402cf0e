/-
The threads and tasks of a synchronized queue.  Each control point says where the thread
is in the queue and in the notifier; one thread dequeues; the queue runs as the machine
does, and `AtomicWaker` and `WakerList` keep their invariants under the calls made here.
-/
import SwapBufferQueue.Synchronized
import SwapBufferQueue.Standstill

namespace SwapBufferQueue

universe u v w x y

variable {T : Type x} {K : Type y} {B : Type u} {α : Type v} {σ : Type w}

section Controls

/-- The call of the dequeuer's waker a thread is in. -/
def SyncControl.atomic : SyncControl T K α → AtomicCall T K
  | .enqueueNotify call => call
  | .dequeueRegister call => call
  | .closeDequeuer call => call
  | _ => .returned

/-- The call of the enqueuers' wakers a thread is in. -/
def SyncControl.list : SyncControl T K α → ListCall T K
  | .enqueueRegister _ call => call
  | .dequeueNotify _ call => call
  | .closeEnqueuers call => call
  | _ => .returned

/-- A thread outside of the calls: idle, or with a slice or an iterator. -/
def Pc.Rests : Pc α σ → Prop
  | .idle _ => True
  | .dequeueSlice _ _ _ => True
  | .slice _ _ _ _ => True
  | .iter _ _ _ => True
  | .releaseClear _ _ _ => True
  | .releaseLength _ => True
  | .storeDequeuing _ .done => True
  | _ => False

/-- A call of `try_dequeue`, in progress or returned. -/
def Pc.TriesDequeue : Pc α σ → Prop
  | .idle (some (.dequeueError _)) => True
  | .storeDequeuing _ (.dequeueError _) => True
  | .idle _ => False
  | .enqueueLoad _ => False
  | .enqueueReserve _ _ _ => False
  | .enqueueInsert _ _ => False
  | .enqueueAcknowledge _ _ => False
  | .iter _ _ _ => False
  | .releaseClear _ _ _ => False
  | .releaseLength _ => False
  | .storeDequeuing _ _ => False
  | .panicked _ => False
  | _ => True

/-- What a control point says about the program counter and the call of the notifier;
`cx` is the waker of the last poll. -/
def SyncThread (cx : Option K) : SyncControl T K α → Pc α σ → Prop
  | .outside, pc => pc.Rests
  | .enqueueAttempt value _, pc => value.length < 2 ^ 63 ∧ ∃ last, pc = .idle last
  | .enqueueTrying value _, pc => value.length < 2 ^ 63 ∧ pc.Enqueues value
  | .enqueueCapacity value _, pc => value.length < 2 ^ 63 ∧ ∃ last, pc = .idle last
  | .enqueueRegister value call, pc =>
      value.length < 2 ^ 63 ∧ call.Registers cx ∧ ∃ last, pc = .idle last
  | .enqueueWait value, pc => value.length < 2 ^ 63 ∧ ∃ last, pc = .idle last
  | .enqueueNotify call, pc => call.Wakes ∧ ∃ last, pc = .idle last
  | .dequeueAttempt _, pc => ∃ last, pc = .idle last
  | .dequeueTrying _, pc => pc.TriesDequeue
  | .dequeueNotify _ call, pc =>
      call.Wakes ∧ ∃ attempt capacity enqueuing, pc = .dequeueNotify attempt capacity enqueuing
  | .dequeueRegister call, pc => call.Registers cx ∧ ∃ last, pc = .idle last
  | .dequeueWait, pc => ∃ last, pc = .idle last
  | .closeDequeuer call, pc => call.Wakes ∧ ∃ last, pc = .idle last
  | .closeEnqueuers call, pc => call.Wakes ∧ ∃ last, pc = .idle last

end Controls

section Threads

variable [Buffer B α σ] {q q' : Queue B} {pc pc' : Pc α σ} {action : Action α}
  {event : Event α} {cx : Option K} {capacity : Nat} {control control' : SyncControl T K α}

theorem rests_requeueRange {i : Fin 2} {start stop : Nat}
    (hargs : ArgsOk q (requeueRange i start stop : Pc α σ)) :
    (requeueRange i start stop : Pc α σ).Rests := by
  revert hargs
  exact requeueRange_elim (P := fun pc : Pc α σ => ArgsOk q pc → pc.Rests)
    (fun _ hargs => hargs.elim) (fun _ _ => trivial) fun _ _ => trivial

/-- The use of a slice or of an iterator goes on. -/
theorem Transition.rests_run {spurious : Bool}
    (hmove : Transition q pc (.run spurious) q' pc' event) (hpc : pc.Rests)
    (hargs : ArgsOk q' pc') : pc'.Rests := by
  cases hmove with
  | silent hlocal =>
      cases hlocal with
      | sliceOutOfBounds _ _ _ _ _ => exact hargs.elim
      | clearOutOfBounds _ _ _ _ _ => exact hargs.elim
      | _ => exact hpc.elim
  | slice _ _ _ _ _ _ => exact trivial
  | clear _ _ _ _ _ _ _ => exact trivial
  | release _ _ => exact trivial
  | unlock _ _ _ => exact trivial
  | _ => exact hpc.elim

theorem Transition.rests_use (hmove : Transition q pc action q' pc' event)
    (huses : action.uses = true) (hargs : ArgsOk q' pc') : pc'.Rests := by
  cases hmove with
  | silent hlocal =>
      cases hlocal with
      | dropSlice _ _ _ _ => exact trivial
      | dropIter _ _ _ => exact rests_requeueRange hargs
      | requeue _ _ _ _ => exact rests_requeueRange hargs
      | intoIter _ _ _ _ => exact trivial
      | nextNone _ _ _ _ => exact trivial
      | lockedAssert _ _ _ _ => exact hargs.elim
      | removeOutOfBounds _ _ _ _ _ => exact hargs.elim
      | intoSlice _ _ _ => exact trivial
      | withOwned _ _ _ => exact trivial
      | foreignOwner _ _ _ => exact hargs.elim
      | _ => cases huses
  | remove _ _ _ _ _ _ _ => exact trivial
  | _ => cases huses

theorem triesDequeue_dequeueEntry (dequeuing : DequeuingLength) (resize : ResizeArgs α) :
    (dequeueEntry dequeuing resize : Pc α σ).TriesDequeue :=
  dequeueEntry_elim (P := Pc.TriesDequeue) (fun _ => trivial) fun _ => trivial

theorem triesDequeue_dequeueFinish {attempt : Attempt} {enqueuing : EnqueuingCapacity}
    (hargs : ArgsOk q (dequeueFinish attempt capacity enqueuing : Pc α σ)) :
    (dequeueFinish attempt capacity enqueuing : Pc α σ).TriesDequeue := by
  revert hargs
  exact dequeueFinish_elim (P := fun pc : Pc α σ => ArgsOk q pc → pc.TriesDequeue)
    (fun _ hargs => hargs.elim) (fun _ _ => trivial)
    (fun _ _ _ => triesDequeue_dequeueEntry _ _) (fun _ _ _ _ => trivial)
    (fun _ _ _ hargs => hargs.elim)

theorem Transition.triesDequeue_run {spurious : Bool}
    (hmove : Transition q pc (.run spurious) q' pc' event) (hpc : pc.TriesDequeue)
    (hargs : ArgsOk q' pc') : pc'.TriesDequeue := by
  cases hmove with
  | silent hlocal =>
      cases hlocal with
      | dequeueNotify _ _ _ _ => exact triesDequeue_dequeueFinish hargs
      | enqueueLoad _ _ => exact hpc.elim
      | enqueueRetry _ _ _ _ => exact hpc.elim
      | _ => first | exact trivial | exact hargs.elim
  | lock _ _ _ => exact triesDequeue_dequeueEntry _ _
  | unlock _ outcome _ =>
      cases outcome with
      | dequeueError error => exact trivial
      | _ => exact hpc.elim
  | _ => first | exact trivial | exact hpc.elim

theorem SyncCalls.thread (hcall : SyncCalls control pc action control')
    (hmove : Transition q pc action q' pc' event) (hthread : SyncThread cx control pc)
    (hargs : ArgsOk q' pc') : SyncThread cx control' pc' := by
  cases hcall with
  | outside _ spurious => exact hmove.rests_run hthread hargs
  | use _ _ huses _ => exact hmove.rests_use huses hargs
  | close _ =>
      cases hmove with
      | close _ => exact ⟨trivial, _, rfl⟩
      | silent hlocal => cases hlocal
  | reopen _ =>
      cases hmove with
      | reopen _ => exact trivial
      | silent hlocal => cases hlocal
  | tryEnqueue value count _ =>
      refine ⟨hthread.1, ?_⟩
      cases hmove with
      | silent hlocal =>
          cases hlocal with
          | enqueueNothing _ => exact trivial
          | tryEnqueue _ _ _ => exact rfl
  | acknowledge value count value' enqueuing spurious =>
      refine ⟨trivial, ?_⟩
      cases hmove with
      | acknowledge _ _ _ => exact ⟨_, rfl⟩
      | silent hlocal => cases hlocal
  | enqueueTrying value count _ spurious _ =>
      exact ⟨hthread.1, hmove.enqueues_run hthread.2 hargs⟩
  | tryDequeue count _ =>
      cases hmove with
      | silent hlocal =>
          cases hlocal with
          | tryDequeue _ => exact trivial
  | dequeueTrying count _ spurious _ => exact hmove.triesDequeue_run hthread hargs
  | notified count _ spurious =>
      obtain ⟨-, attempt, capa, enqueuing, rfl⟩ := hthread
      exact hmove.triesDequeue_run trivial hargs

omit [Buffer B α σ] in
theorem SyncMoves.thread (hmove : SyncMoves cx capacity control pc control')
    (hthread : SyncThread cx control pc) : SyncThread cx control' pc := by
  cases hmove with
  | insufficient _ _ _ => exact ⟨hthread.1, _, rfl⟩
  | enqueueReturns _ _ _ => exact trivial
  | enqueueAgain _ _ _ _ => exact hthread
  | enqueueRegister _ _ _ => exact ⟨hthread.1, rfl, hthread.2⟩
  | enqueueWait _ _ _ _ _ => exact hthread
  | tooLarge _ _ _ =>
      obtain ⟨-, last, rfl⟩ := hthread
      exact trivial
  | enqueueRegistered _ _ => exact ⟨hthread.1, hthread.2.2⟩
  | enqueueNotified _ =>
      obtain ⟨-, last, rfl⟩ := hthread
      exact trivial
  | notify _ _ _ _ => exact ⟨trivial, _, _, _, rfl⟩
  | dequeued _ _ _ _ _ => exact trivial
  | dequeueAgain _ _ _ => exact ⟨_, rfl⟩
  | dequeueRegister _ _ => exact ⟨Or.inr rfl, _, rfl⟩
  | dequeueWait _ _ _ _ => exact ⟨_, rfl⟩
  | dequeueFails _ _ => exact trivial
  | dequeueRegistered _ => exact hthread.2
  | closeEnqueuers _ => exact ⟨trivial, hthread.2⟩
  | closed _ =>
      obtain ⟨-, last, rfl⟩ := hthread
      exact trivial
  | cancelEnqueue _ _ =>
      obtain ⟨-, last, rfl⟩ := hthread
      exact trivial
  | cancelDequeue _ =>
      obtain ⟨last, rfl⟩ := hthread
      exact trivial

omit [Buffer B α σ] in
theorem SyncCalls.dequeues (hcall : SyncCalls control pc action control') :
    control'.dequeues = control.dequeues := by
  cases hcall <;> rfl

omit [Buffer B α σ] in
theorem SyncMoves.dequeues (hmove : SyncMoves cx capacity control pc control')
    (hdequeues : control'.dequeues = true) : control.dequeues = true := by
  cases hmove <;> first | rfl | cases hdequeues

end Threads

section Signals

variable {s : SyncState T K B α σ} {t : T}

def SyncState.atomics (s : SyncState T K B α σ) (t : T) : AtomicCall T K :=
  (s.controls t).atomic

def SyncState.lists (s : SyncState T K B α σ) (t : T) : ListCall T K :=
  (s.controls t).list

def SyncState.waker (s : SyncState T K B α σ) (t : T) : Waker T K :=
  Waker.new t (s.polls t)

/-- The thread has its token, or the future was woken since its last poll began. -/
def SyncState.notified (s : SyncState T K B α σ) (t : T) : Bool :=
  match s.polls t with
  | none => s.tokens t
  | some _ => s.woken t

/-- A finished operation, with no slice or iterator left. -/
def SyncState.Finished (s : SyncState T K B α σ) (t : T) : Prop :=
  s.controls t = .outside ∧ ∃ last, s.base.pcs t = .idle last

/-- A thread that is parked without a token, or a pending future that has not been woken
since its last poll. -/
def SyncState.Parked (s : SyncState T K B α σ) (t : T) : Prop :=
  (s.controls t = .dequeueWait ∨ ∃ value, s.controls t = .enqueueWait value) ∧
    s.notified t = false

/-- Nobody is left to run. -/
def SyncState.Quiescent (s : SyncState T K B α σ) : Prop :=
  ∀ t, s.Finished t ∨ s.Parked t

variable [DecidableEq T] [DecidableEq K]

@[simp]
theorem SyncState.base_signal (s : SyncState T K B α σ) (woken : Option (Waker T K)) :
    (s.signal woken).base = s.base := by
  rcases woken with _ | (_ | _) <;> rfl

@[simp]
theorem SyncState.enqueuers_signal (s : SyncState T K B α σ) (woken : Option (Waker T K)) :
    (s.signal woken).enqueuers = s.enqueuers := by
  rcases woken with _ | (_ | _) <;> rfl

@[simp]
theorem SyncState.dequeuer_signal (s : SyncState T K B α σ) (woken : Option (Waker T K)) :
    (s.signal woken).dequeuer = s.dequeuer := by
  rcases woken with _ | (_ | _) <;> rfl

@[simp]
theorem SyncState.controls_signal (s : SyncState T K B α σ) (woken : Option (Waker T K)) :
    (s.signal woken).controls = s.controls := by
  rcases woken with _ | (_ | _) <;> rfl

@[simp]
theorem SyncState.polls_signal (s : SyncState T K B α σ) (woken : Option (Waker T K)) :
    (s.signal woken).polls = s.polls := by
  rcases woken with _ | (_ | _) <;> rfl

/-- Nobody loses a token to a signal. -/
theorem SyncState.notified_signal (s : SyncState T K B α σ) (woken : Option (Waker T K))
    (hnotified : s.notified t = true) : (s.signal woken).notified t = true := by
  unfold SyncState.notified at hnotified ⊢
  rw [SyncState.polls_signal]
  rcases woken with _ | (waker | thread)
  · exact hnotified
  · cases hpoll : s.polls t with
    | none =>
        rw [hpoll] at hnotified
        exact hnotified
    | some waker' =>
        rw [hpoll] at hnotified
        change (s.woken t || decide (s.polls t = some waker)) = true
        rw [show s.woken t = true from hnotified, Bool.true_or]
  · cases hpoll : s.polls t with
    | none =>
        rw [hpoll] at hnotified
        change Function.update s.tokens thread true t = true
        by_cases ht : t = thread
        · rw [ht, Function.update_self]
        · rw [Function.update_of_ne ht]
          exact hnotified
    | some waker' =>
        rw [hpoll] at hnotified
        exact hnotified

theorem SyncState.notified_signal_waker (s : SyncState T K B α σ) (t : T) :
    (s.signal (some (s.waker t))).notified t = true := by
  unfold SyncState.notified SyncState.waker
  rw [SyncState.polls_signal]
  cases hpoll : s.polls t with
  | none => exact Function.update_self ..
  | some waker =>
      change (s.woken t || decide (s.polls t = some waker)) = true
      rw [hpoll, decide_eq_true rfl, Bool.or_true]

omit [DecidableEq K] in
theorem SyncState.atomics_eq {s s' : SyncState T K B α σ} {control' : SyncControl T K α}
    (hcontrols : s'.controls = Function.update s.controls t control') :
    s'.atomics = Function.update s.atomics t control'.atomic := by
  change SyncControl.atomic ∘ s'.controls = _
  rw [hcontrols, Function.comp_update]
  rfl

omit [DecidableEq K] in
theorem SyncState.lists_eq {s s' : SyncState T K B α σ} {control' : SyncControl T K α}
    (hcontrols : s'.controls = Function.update s.controls t control') :
    s'.lists = Function.update s.lists t control'.list := by
  change SyncControl.list ∘ s'.controls = _
  rw [hcontrols, Function.comp_update]
  rfl

end Signals

section Invariant

variable [DecidableEq T] [Buffer B α σ] {start s s' : SyncState T K B α σ} {t : T}
  {trace : List ((T × SyncAction K α) × SyncEvent α)} {control' : SyncControl T K α}

/-- The queue runs, every thread is where its control point says, one of them dequeues,
and the two parts of the notifier keep their invariants. -/
structure SyncInv (start : SyncState T K B α σ)
    (trace : List ((T × SyncAction K α) × SyncEvent α)) (s : SyncState T K B α σ) : Prop where
  run : Runs.Run step UnresizedOk start.base (syncTrace trace) s.base
  thread (t : T) : SyncThread (s.polls t) (s.controls t) (s.base.pcs t)
  single {t t' : T} : (s.controls t).dequeues = true → (s.controls t').dequeues = true → t = t'
  atomic : AtomicInv s.dequeuer s.atomics
  list : ListInv s.enqueuers s.lists
  fits {t : T} {value : List α} : s.controls t = .enqueueWait value →
    value.length ≤ start.base.queue.capacity

theorem SyncInv.of_initial (hinitial : SyncInitial start) : SyncInv start [] start where
  run := Runs.Run.nil
  thread t := by
    rw [hinitial.controls, hinitial.base.2]
    exact trivial
  single h := by
    rw [hinitial.controls] at h
    cases h
  atomic := by
    have hatomics : start.atomics = fun _ => .returned := by
      funext t
      rw [SyncState.atomics, hinitial.controls]
      rfl
    rw [hinitial.dequeuer, hatomics]
    exact AtomicInv.new
  list := by
    have hlists : start.lists = fun _ => .returned := by
      funext t
      rw [SyncState.lists, hinitial.controls]
      rfl
    rw [hinitial.enqueuers, hlists]
    exact ListInv.default
  fits h := by
    rw [hinitial.controls] at h
    cases h

omit [DecidableEq T] [Buffer B α σ] in
theorem SyncCalls.unresizedOk {state : State T B α σ} {control : SyncControl T K α}
    {pc : Pc α σ} {action : Action α} {cx : Option K}
    (hcall : SyncCalls control pc action control') (hthread : SyncThread cx control pc) :
    UnresizedOk state (t, action) := by
  cases hcall with
  | use _ _ huses howner =>
      cases action with
      | withOwned sameQueue => exact ⟨⟨nofun, nofun, nofun, howner⟩, rfl⟩
      | tryEnqueue _ => cases huses
      | tryDequeueAndResize _ => cases huses
      | _ => exact ⟨⟨nofun, nofun, nofun, nofun⟩, rfl⟩
  | tryEnqueue value count _ =>
      refine ⟨⟨?_, nofun, nofun, nofun⟩, rfl⟩
      intro value' hvalue
      cases hvalue
      exact hthread.1
  | _ => exact ⟨⟨nofun, nofun, nofun, nofun⟩, rfl⟩

omit [DecidableEq T] [Buffer B α σ] in
/-- A step of the queue is outside of the notifier, and leaves at most a `wake` to do. -/
theorem SyncCalls.atomic {control : SyncControl T K α} {pc : Pc α σ} {action : Action α}
    (hcall : SyncCalls control pc action control') :
    control.atomic = .returned ∧
      (control'.atomic = .returned ∨ control'.atomic = .wakeStart) := by
  cases hcall with
  | close _ => exact ⟨rfl, Or.inr rfl⟩
  | acknowledge _ _ _ _ _ => exact ⟨rfl, Or.inr rfl⟩
  | _ => exact ⟨rfl, Or.inl rfl⟩

omit [DecidableEq T] [Buffer B α σ] in
theorem SyncCalls.list {control : SyncControl T K α} {pc : Pc α σ} {action : Action α}
    (hcall : SyncCalls control pc action control') :
    control.list = .returned ∧ control'.list = .returned := by
  cases hcall <;> exact ⟨rfl, rfl⟩

omit [DecidableEq T] [Buffer B α σ] in
theorem SyncMoves.atomic {control : SyncControl T K α} {pc : Pc α σ} {cx : Option K}
    {capacity : Nat} (hmove : SyncMoves cx capacity control pc control') :
    control.atomic = .returned ∧
      (control'.atomic = .returned ∨ control'.atomic = .registerStart cx) := by
  cases hmove with
  | dequeueRegister _ _ => exact ⟨rfl, Or.inr rfl⟩
  | _ => exact ⟨rfl, Or.inl rfl⟩

omit [DecidableEq T] [Buffer B α σ] in
theorem SyncMoves.list {control : SyncControl T K α} {pc : Pc α σ} {cx : Option K}
    {capacity : Nat} (hmove : SyncMoves cx capacity control pc control') :
    control.list = .returned ∧ (control'.list = .returned ∨
      control'.list = .registerLock cx ∨ control'.list = .wakeLoad) := by
  cases hmove with
  | enqueueRegister _ _ _ => exact ⟨rfl, Or.inr (Or.inl rfl)⟩
  | notify _ _ _ _ => exact ⟨rfl, Or.inr (Or.inr rfl)⟩
  | closeEnqueuers _ => exact ⟨rfl, Or.inr (Or.inr rfl)⟩
  | _ => exact ⟨rfl, Or.inl rfl⟩

theorem AtomicInv.begins {a : AtomicWaker T K} {calls : T → AtomicCall T K}
    {call' : AtomicCall T K} (cx : Option K) (hinv : AtomicInv a calls)
    (hcall : calls t = .returned)
    (hcall' : call' = .returned ∨ call' = .wakeStart ∨ call' = .registerStart cx) :
    AtomicInv a (Function.update calls t call') := by
  refine hinv.switch (by rw [hcall]; rfl) ?_ ?_
  · rcases hcall' with rfl | rfl | rfl <;> rfl
  · rcases hcall' with rfl | rfl | rfl <;> trivial

theorem ListInv.begins {l : WakerList T K} {calls : T → ListCall T K}
    {call' : ListCall T K} (cx : Option K) (hinv : ListInv l calls)
    (hcall : calls t = .returned)
    (hcall' : call' = .returned ∨ call' = .registerLock cx ∨ call' = .wakeLoad) :
    ListInv l (Function.update calls t call') := by
  have hself : ∀ cx, call' = .registerMark cx → l.wakers = [] := by
    rintro cx rfl
    simp at hcall'
  refine hinv.switch ?_ ?_ ?_ hself
  · rcases hcall' with rfl | rfl | rfl <;> rw [hcall] <;> rfl
  · rcases hcall' with rfl | rfl | rfl <;> rw [hcall] <;> rfl
  · rcases hcall' with rfl | rfl | rfl <;> rw [hcall] <;> rfl

/-- What a step of `t` changes: its control point, its program counter, its waker. -/
structure SyncFrame (s s' : SyncState T K B α σ) (t : T) (control' : SyncControl T K α) :
    Prop where
  controls : s'.controls = Function.update s.controls t control'
  pcs {t' : T} : t' ≠ t → s'.base.pcs t' = s.base.pcs t'
  polls {t' : T} : t' ≠ t → s'.polls t' = s.polls t'
  notified {t' : T} : t' ≠ t → s.notified t' = true → s'.notified t' = true

omit [Buffer B α σ] in
theorem SyncFrame.control_self (hframe : SyncFrame s s' t control') :
    s'.controls t = control' := by
  rw [hframe.controls, Function.update_self]

omit [Buffer B α σ] in
theorem SyncFrame.control_other (hframe : SyncFrame s s' t control') {t' : T} (ht' : t' ≠ t) :
    s'.controls t' = s.controls t' := by
  rw [hframe.controls, Function.update_of_ne ht']

theorem SyncInv.step_of (hinv : SyncInv start trace s) (hframe : SyncFrame s s' t control')
    {trace' : List ((T × SyncAction K α) × SyncEvent α)}
    (hrun : Runs.Run step UnresizedOk start.base (syncTrace trace') s'.base)
    (hthread : SyncThread (s'.polls t) control' (s'.base.pcs t))
    (hdequeues : control'.dequeues = true → (s.controls t).dequeues = true ∨
      ∀ t', (s.controls t').dequeues = false)
    (hatomic : AtomicInv s'.dequeuer (Function.update s.atomics t control'.atomic))
    (hlist : ListInv s'.enqueuers (Function.update s.lists t control'.list))
    (hfits : ∀ value, control' = .enqueueWait value →
      value.length ≤ start.base.queue.capacity) : SyncInv start trace' s' where
  run := hrun
  thread t' := by
    by_cases ht' : t' = t
    · rw [ht', hframe.control_self]
      exact hthread
    · rw [hframe.control_other ht', hframe.pcs ht', hframe.polls ht']
      exact hinv.thread t'
  single {t₁ t₂} h₁ h₂ := by
    -- Who dequeues after the step is the thread that moves, or did so before.
    have hbefore : ∀ t', (s'.controls t').dequeues = true → t' ≠ t →
        (s.controls t').dequeues = true := by
      intro t' h ht'
      rwa [hframe.control_other ht'] at h
    have hself : ∀ t', (s'.controls t').dequeues = true → t' ≠ t →
        (s'.controls t).dequeues = true → t' = t := by
      intro t' h ht' h'
      rw [hframe.control_self] at h'
      rcases hdequeues h' with hold | hnone
      · exact hinv.single (hbefore t' h ht') hold
      · have hold := hbefore t' h ht'
        rw [hnone t'] at hold
        cases hold
    by_cases ht₁ : t₁ = t
    · by_cases ht₂ : t₂ = t
      · rw [ht₁, ht₂]
      · rw [ht₁]
        rw [ht₁] at h₁
        exact (hself t₂ h₂ ht₂ h₁).symm
    · by_cases ht₂ : t₂ = t
      · rw [ht₂]
        rw [ht₂] at h₂
        exact hself t₁ h₁ ht₁ h₂
      · exact hinv.single (hbefore t₁ h₁ ht₁) (hbefore t₂ h₂ ht₂)
  atomic := by
    rw [SyncState.atomics_eq hframe.controls]
    exact hatomic
  list := by
    rw [SyncState.lists_eq hframe.controls]
    exact hlist
  fits {t' value} h := by
    by_cases ht' : t' = t
    · rw [ht', hframe.control_self] at h
      exact hfits value h
    · rw [hframe.control_other ht'] at h
      exact hinv.fits h

section Steps

variable [DecidableEq K] [LawfulBuffer B]

omit [Buffer B α σ] [LawfulBuffer B] [DecidableEq K] in
theorem SyncFrame.of_control (s : SyncState T K B α σ) (t : T) (control' : SyncControl T K α) :
    SyncFrame s (s.setControl t control') t control' :=
  ⟨rfl, fun _ => rfl, fun _ => rfl, fun _ h => h⟩

omit [LawfulBuffer B] [DecidableEq K] in
theorem SyncFrame.of_step {action : Action α} {base : State T B α σ} {event : Event α}
    (hstep : step s.base (t, action) = some (base, event)) (control' : SyncControl T K α) :
    SyncFrame s ({ s with base := base }.setControl t control') t control' := by
  obtain ⟨q', pc', -, rfl⟩ := step_cases hstep
  exact ⟨rfl, fun ht' => Function.update_of_ne ht' _ _, fun _ => rfl, fun _ h => h⟩

omit [Buffer B α σ] [LawfulBuffer B] in
theorem SyncFrame.signal (hframe : SyncFrame s s' t control') (woken : Option (Waker T K)) :
    SyncFrame s (s'.signal woken) t control' where
  controls := by
    rw [SyncState.controls_signal]
    exact hframe.controls
  pcs ht' := by
    rw [SyncState.base_signal]
    exact hframe.pcs ht'
  polls ht' := by
    rw [SyncState.polls_signal]
    exact hframe.polls ht'
  notified ht' h := SyncState.notified_signal s' woken (hframe.notified ht' h)

omit [Buffer B α σ] [LawfulBuffer B] in
theorem SyncFrame.of_dequeuer (s : SyncState T K B α σ) (t : T) (dequeuer : AtomicWaker T K)
    (control' : SyncControl T K α) (woken : Option (Waker T K)) :
    SyncFrame s (({ s with dequeuer := dequeuer }.setControl t control').signal woken) t
      control' := by
  have hframe : SyncFrame s ({ s with dequeuer := dequeuer }.setControl t control') t control' :=
    ⟨rfl, fun _ => rfl, fun _ => rfl, fun _ h => h⟩
  exact hframe.signal woken

omit [Buffer B α σ] [LawfulBuffer B] in
theorem SyncFrame.of_enqueuers (s : SyncState T K B α σ) (t : T) (enqueuers : WakerList T K)
    (control' : SyncControl T K α) (woken : Option (Waker T K)) :
    SyncFrame s (({ s with enqueuers := enqueuers }.setControl t control').signal woken) t
      control' := by
  have hframe : SyncFrame s ({ s with enqueuers := enqueuers }.setControl t control') t
      control' := ⟨rfl, fun _ => rfl, fun _ => rfl, fun _ h => h⟩
  exact hframe.signal woken

omit [Buffer B α σ] [LawfulBuffer B] [DecidableEq K] in
theorem SyncFrame.of_poll (s : SyncState T K B α σ) (t : T) (cx : Option K)
    (control' : SyncControl T K α) :
    SyncFrame s { s with
      controls := Function.update s.controls t control'
      polls := Function.update s.polls t cx
      woken := Function.update s.woken t false } t control' where
  controls := rfl
  pcs _ := rfl
  polls ht' := Function.update_of_ne ht' _ _
  notified {t'} ht' h := by
    unfold SyncState.notified at h ⊢
    simp only [Function.update_of_ne ht']
    exact h

omit [Buffer B α σ] [LawfulBuffer B] [DecidableEq K] in
theorem SyncFrame.of_unpark (s : SyncState T K B α σ) (t : T)
    (control' : SyncControl T K α) :
    SyncFrame s { s with
      controls := Function.update s.controls t control'
      tokens := Function.update s.tokens t false } t control' where
  controls := rfl
  pcs _ := rfl
  polls _ := rfl
  notified {t'} ht' h := by
    unfold SyncState.notified at h ⊢
    simp only [Function.update_of_ne ht']
    exact h

omit [DecidableEq K] in
theorem SyncInv.argsOk (hinv : SyncInv start trace s) (hinitial : SyncInitial start)
    {action : Action α} {q' : Queue B} {pc' : Pc α σ} {event : Event α}
    (hok : UnresizedOk s.base (t, action))
    (hstep : step s.base (t, action) =
      some (⟨q', Function.update s.base.pcs t pc'⟩, event)) : ArgsOk q' pc' := by
  have hrun := (hinv.run.snoc hok hstep).mono fun _ _ h => h.delivery
  have hargs := argsOk_of_run hinitial.base (fun _ _ h => h)
    (calls_of_delivery hinitial.base hrun) t
  change ArgsOk q' (Function.update s.base.pcs t pc' t) at hargs
  rwa [Function.update_self] at hargs

omit [DecidableEq T] [DecidableEq K] [Buffer B α σ] [LawfulBuffer B] in
theorem syncTrace_called (label : T × SyncAction K α) (action : Action α) (event : Event α) :
    syncTrace (trace ++ [(label, .called action event)]) =
      syncTrace trace ++ [((label.1, action), event)] := by
  simp [syncTrace]

omit [DecidableEq T] [DecidableEq K] [Buffer B α σ] [LawfulBuffer B] in
theorem syncTrace_silent (label : T × SyncAction K α) :
    syncTrace (trace ++ [(label, .silent)]) = syncTrace trace := by
  simp [syncTrace]

omit [DecidableEq K] in
theorem SyncInv.called (hinv : SyncInv start trace s) (hinitial : SyncInitial start)
    {action : Action α} {base : State T B α σ} {event : Event α} {label : SyncAction K α}
    (hcall : SyncCalls (s.controls t) (s.base.pcs t) action control')
    (hstep : step s.base (t, action) = some (base, event)) :
    SyncInv start (trace ++ [((t, label), .called action event)])
      ({ s with base := base }.setControl t control') := by
  have hok : UnresizedOk s.base (t, action) := hcall.unresizedOk (hinv.thread t)
  obtain ⟨hatomic, hatomic'⟩ := hcall.atomic
  obtain ⟨hlist, hlist'⟩ := hcall.list
  refine hinv.step_of (SyncFrame.of_step hstep control') ?_ ?_ ?_ ?_ ?_ ?_
  · rw [syncTrace_called]
    exact hinv.run.snoc hok hstep
  · obtain ⟨q', pc', hmove, rfl⟩ := step_cases hstep
    have hthread := hcall.thread hmove (hinv.thread t) (hinv.argsOk hinitial hok hstep)
    change SyncThread (s.polls t) control' (Function.update s.base.pcs t pc' t)
    rw [Function.update_self]
    exact hthread
  · intro hdequeues
    rw [hcall.dequeues] at hdequeues
    exact Or.inl hdequeues
  · exact hinv.atomic.begins none hatomic
      (hatomic'.imp_right Or.inl)
  · exact hinv.list.begins none hlist (Or.inl hlist')
  · rintro value rfl
    generalize s.controls t = control at hcall
    generalize s.base.pcs t = pc at hcall
    cases hcall

omit [DecidableEq K] in
theorem SyncInv.moved (hinv : SyncInv start trace s) (hinitial : SyncInitial start)
    {label : SyncAction K α}
    (hmove : SyncMoves (s.polls t) s.base.queue.capacity (s.controls t) (s.base.pcs t)
      control') :
    SyncInv start (trace ++ [((t, label), .silent)]) (s.setControl t control') := by
  obtain ⟨hatomic, hatomic'⟩ := hmove.atomic
  obtain ⟨hlist, hlist'⟩ := hmove.list
  refine hinv.step_of (SyncFrame.of_control s t control') ?_ (hmove.thread (hinv.thread t))
    (fun h => Or.inl (hmove.dequeues h)) (hinv.atomic.begins _ hatomic (hatomic'.imp_right Or.inr))
    (hinv.list.begins _ hlist hlist') ?_
  · rw [syncTrace_silent]
    exact hinv.run
  · rintro value rfl
    rw [← (uniform_of_run hinitial.base hinv.run).field]
    generalize s.controls t = control at hmove
    generalize s.base.pcs t = pc at hmove
    cases hmove with
    | enqueueWait _ _ _ _ hfits => exact hfits

omit [LawfulBuffer B] in
theorem SyncInv.atomic_step (hinv : SyncInv start trace s) {label : SyncAction K α}
    {place : AtomicCall T K → SyncControl T K α} {call call' : AtomicCall T K}
    {dequeuer : AtomicWaker T K} {woken : Option (Waker T K)} (hplace : AtomicPlace place)
    (hcontrol : s.controls t = place call)
    (hmove : AtomicMove s.dequeuer t call dequeuer call' woken) :
    SyncInv start (trace ++ [((t, label), .silent)])
      (({ s with dequeuer := dequeuer }.setControl t (place call')).signal woken) := by
  have hthread := hinv.thread t
  rw [hcontrol] at hthread
  have hcall : s.atomics t = call := by
    rw [SyncState.atomics, hcontrol]
    cases hplace <;> rfl
  have hstep := hinv.atomic.step (hcall.symm ▸ hmove)
  have hknows : AtomicKnows dequeuer t call' := by
    have hknows := hstep.knows t
    rwa [Function.update_self] at hknows
  have hsame : (place call').list = s.lists t := by
    rw [SyncState.lists, hcontrol]
    cases hplace <;> rfl
  refine hinv.step_of (SyncFrame.of_dequeuer s t dequeuer (place call') woken) ?_ ?_ ?_ ?_ ?_ ?_
  · rw [syncTrace_silent, SyncState.base_signal]
    exact hinv.run
  · rw [SyncState.base_signal, SyncState.polls_signal]
    change SyncThread (s.polls t) (place call') (s.base.pcs t)
    cases hplace with
    | enqueueNotify => exact ⟨hmove.wakesCall hthread.1 hknows, hthread.2⟩
    | dequeueRegister => exact ⟨hmove.registers hthread.1 hknows, hthread.2⟩
    | closeDequeuer => exact ⟨hmove.wakesCall hthread.1 hknows, hthread.2⟩
  · intro hdequeues
    rw [hcontrol]
    cases hplace with
    | dequeueRegister => exact Or.inl rfl
    | _ => cases hdequeues
  · rw [SyncState.dequeuer_signal]
    have hplaced : (place call').atomic = call' := by cases hplace <;> rfl
    rw [hplaced]
    exact hstep
  · rw [SyncState.enqueuers_signal, hsame, Function.update_eq_self]
    exact hinv.list
  · rintro value h
    cases hplace <;> cases h

omit [LawfulBuffer B] in
theorem SyncInv.list_step (hinv : SyncInv start trace s) {label : SyncAction K α}
    {place : ListCall T K → SyncControl T K α} {call call' : ListCall T K}
    {enqueuers : WakerList T K} {woken : Option (Waker T K)} (hplace : ListPlace place)
    (hcontrol : s.controls t = place call)
    (hmove : ListMove s.enqueuers t call enqueuers call' woken) :
    SyncInv start (trace ++ [((t, label), .silent)])
      (({ s with enqueuers := enqueuers }.setControl t (place call')).signal woken) := by
  have hthread := hinv.thread t
  rw [hcontrol] at hthread
  have hcall : s.lists t = call := by
    rw [SyncState.lists, hcontrol]
    cases hplace <;> rfl
  have hstep := hinv.list.step (hcall.symm ▸ hmove)
  have hsame : (place call').atomic = s.atomics t := by
    rw [SyncState.atomics, hcontrol]
    cases hplace <;> rfl
  refine hinv.step_of (SyncFrame.of_enqueuers s t enqueuers (place call') woken) ?_ ?_ ?_ ?_ ?_ ?_
  · rw [syncTrace_silent, SyncState.base_signal]
    exact hinv.run
  · rw [SyncState.base_signal, SyncState.polls_signal]
    change SyncThread (s.polls t) (place call') (s.base.pcs t)
    cases hplace with
    | enqueueRegister value => exact ⟨hthread.1, hmove.registers hthread.2.1, hthread.2.2⟩
    | dequeueNotify count => exact ⟨hmove.wakesCall hthread.1, hthread.2⟩
    | closeEnqueuers => exact ⟨hmove.wakesCall hthread.1, hthread.2⟩
  · intro hdequeues
    rw [hcontrol]
    cases hplace with
    | dequeueNotify count => exact Or.inl rfl
    | _ => cases hdequeues
  · rw [SyncState.dequeuer_signal, hsame, Function.update_eq_self]
    exact hinv.atomic
  · rw [SyncState.enqueuers_signal]
    have hplaced : (place call').list = call' := by cases hplace <;> rfl
    rw [hplaced]
    exact hstep
  · rintro value h
    cases hplace <;> cases h

omit [Buffer B α σ] [LawfulBuffer B] [DecidableEq T] [DecidableEq K] in
theorem SyncBegins.calls (hbegins : SyncBegins s t control') :
    (s.atomics t = .returned ∧ control'.atomic = .returned) ∧
      s.lists t = .returned ∧ control'.list = .returned := by
  unfold SyncState.atomics SyncState.lists
  cases hbegins with
  | enqueue _ _ hcontrol _ _ =>
      rw [hcontrol]
      exact ⟨⟨rfl, rfl⟩, rfl, rfl⟩
  | dequeue _ hcontrol _ _ =>
      rw [hcontrol]
      exact ⟨⟨rfl, rfl⟩, rfl, rfl⟩
  | resumeEnqueue _ hcontrol =>
      rw [hcontrol]
      exact ⟨⟨rfl, rfl⟩, rfl, rfl⟩
  | resumeDequeue hcontrol =>
      rw [hcontrol]
      exact ⟨⟨rfl, rfl⟩, rfl, rfl⟩

omit [LawfulBuffer B] [DecidableEq K] in
theorem SyncInv.begun (hinv : SyncInv start trace s) {label : SyncAction K α}
    (hbegins : SyncBegins s t control') (hframe : SyncFrame s s' t control')
    (hbase : s'.base = s.base) (hdequeuer : s'.dequeuer = s.dequeuer)
    (henqueuers : s'.enqueuers = s.enqueuers) :
    SyncInv start (trace ++ [((t, label), .silent)]) s' := by
  obtain ⟨⟨hatomic, hatomic'⟩, hlist, hlist'⟩ := hbegins.calls
  have hthread := hinv.thread t
  refine hinv.step_of hframe ?_ ?_ ?_ ?_ ?_ ?_
  · rw [syncTrace_silent, hbase]
    exact hinv.run
  · rw [hbase]
    cases hbegins with
    | enqueue value last _ hpc hsize => exact ⟨hsize, last, hpc⟩
    | dequeue last _ hpc _ => exact ⟨last, hpc⟩
    | resumeEnqueue value hcontrol =>
        rw [hcontrol] at hthread
        exact hthread
    | resumeDequeue hcontrol =>
        rw [hcontrol] at hthread
        exact hthread
  · intro hdequeues
    cases hbegins with
    | dequeue _ _ _ hone => exact Or.inr hone
    | resumeDequeue hcontrol =>
        rw [hcontrol]
        exact Or.inl rfl
    | _ => cases hdequeues
  · rw [hdequeuer]
    exact hinv.atomic.begins none hatomic (Or.inl hatomic')
  · rw [henqueuers]
    exact hinv.list.begins none hlist (Or.inl hlist')
  · rintro value rfl
    cases hbegins

end Steps

end Invariant

end SwapBufferQueue
