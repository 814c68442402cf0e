/-
The iterators of a synchronized queue lose nothing.  The consumer alone takes the
dequeuing lock, so its dequeues never conflict; its iterators are given back or released
between two dequeues, so what the calls of `next` return is what is consumed.
-/
import SwapBufferQueue.SynchronizedIter

namespace SwapBufferQueue

universe u v w x

variable {T : Type x} {B : Type u} {α : Type v} {σ : Type w}

def Pc.enqueues : Pc α σ → Bool
  | .idle _ => true
  | .enqueueLoad _ => true
  | .enqueueReserve _ _ _ => true
  | .enqueueInsert _ _ => true
  | .enqueueAcknowledge _ _ => true
  | _ => false

/-- A dequeue that does not insert, in progress or returned, without a conflict. -/
def Pc.Dequeues : Pc α σ → Prop
  | .idle (some (.dequeueError error)) => error ≠ .conflict
  | .storeDequeuing _ (.dequeueError error) => error ≠ .conflict
  | .idle _ => False
  | .enqueueLoad _ => False
  | .enqueueReserve _ _ _ => False
  | .enqueueInsert _ _ => False
  | .enqueueAcknowledge _ _ => False
  | .iter _ _ _ => False
  | .releaseClear _ _ _ => False
  | .releaseLength _ => False
  | .storeDequeuing _ _ => False
  | .panicked _ => False
  | _ => True

/-- The drop of an iterator, in progress or returned: a released range is exhausted. -/
def Pc.Leaves : Pc α σ → Prop
  | .idle _ => True
  | .releaseClear _ start stop => start = stop
  | .releaseLength _ => True
  | .storeDequeuing _ .done => True
  | _ => False

/-- What the consumer's control point says about its program counter. -/
def IterThread : IterControl → Pc α σ → Prop
  | .waiting, pc => (∃ last, pc = .idle last) ∨ ∃ i start stop, pc = .iter i start stop
  | .front, pc => (∃ last, pc = .idle last) ∨ ∃ i start stop, pc = .iter i start stop
  | .clearing, pc => pc.Leaves ∨ ∃ i start stop, pc = .iter i start stop ∧ stop ≤ start
  | .abandoning, pc => pc.Leaves
  | .trying _, pc => pc.Dequeues
  | _, pc => ∃ last, pc = .idle last

section Threads

variable [Buffer B α σ] {q q' : Queue B} {pc pc' : Pc α σ} {action : Action α}
  {event : Event α}

theorem enqueues_enqueueCheck (value : List α) (enqueuing : EnqueuingCapacity) :
    (enqueueCheck value enqueuing : Pc α σ).enqueues = true :=
  enqueueCheck_elim (P := fun pc => pc.enqueues = true) (fun _ => rfl) (fun _ _ => rfl)
    fun _ _ _ => rfl

theorem Transition.enqueues (hmove : Transition q pc action q' pc' event)
    (hpc : pc.enqueues = true) (haction : action.enqueues = true) (hargs : ArgsOk q' pc') :
    pc'.enqueues = true ∧ ∀ i values, event ≠ .consumed i values := by
  cases hmove with
  | silent hlocal =>
      refine ⟨?_, nofun⟩
      cases hlocal with
      | enqueueNothing _ => rfl
      | tryEnqueue _ _ _ => rfl
      | enqueueLoad _ _ => exact enqueues_enqueueCheck _ _
      | enqueueRetry _ _ _ _ => exact enqueues_enqueueCheck _ _
      | indexUnderflow _ _ _ _ => exact hargs.elim
      | insertOutOfBounds _ _ _ _ => exact hargs.elim
      | tryDequeue _ => cases haction
      | tryDequeueAndResize _ _ => cases haction
      | _ => cases hpc
  | reserve _ _ => exact ⟨rfl, nofun⟩
  | insert _ _ _ _ _ => exact ⟨rfl, nofun⟩
  | acknowledge _ _ _ => exact ⟨rfl, nofun⟩
  | close _ => exact ⟨rfl, nofun⟩
  | reopen _ => cases haction
  | _ => cases hpc

theorem dequeues_dequeueEntry (dequeuing : DequeuingLength) (resize : ResizeArgs α) :
    (dequeueEntry dequeuing resize : Pc α σ).Dequeues :=
  dequeueEntry_elim (P := Pc.Dequeues) (fun _ => trivial) fun _ => trivial

theorem dequeues_dequeueFinish (attempt : Attempt) (capacity : Nat)
    (enqueuing : EnqueuingCapacity)
    (hargs : ArgsOk q (dequeueFinish attempt capacity enqueuing : Pc α σ)) :
    (dequeueFinish attempt capacity enqueuing : Pc α σ).Dequeues := by
  revert hargs
  refine dequeueFinish_elim (P := fun pc : Pc α σ => ArgsOk q pc → pc.Dequeues)
    (fun _ hargs => hargs.elim) (fun _ _ => trivial)
    (fun _ _ _ => dequeues_dequeueEntry _ _) (fun _ _ _ _ => ?_)
    (fun _ _ _ hargs => hargs.elim)
  exact TryDequeueError.noConfusion

theorem leaves_requeueRange {i : Fin 2} {start stop : Nat}
    (hargs : ArgsOk q (requeueRange i start stop : Pc α σ)) :
    (requeueRange i start stop : Pc α σ).Leaves := by
  revert hargs
  exact requeueRange_elim (P := fun pc : Pc α σ => ArgsOk q pc → pc.Leaves)
    (fun _ hargs => hargs.elim) (fun _ _ => trivial) fun heq _ => heq

/-- A dequeue goes on without a conflict when the lock is free. -/
theorem Transition.dequeues {spurious : Bool}
    (hmove : Transition q pc (.run spurious) q' pc' event) (hpc : pc.Dequeues)
    (hargs : ArgsOk q' pc')
    (hfree : pc.holds = false → q.dequeuingLength ≠ dequeuingLocked) :
    pc'.Dequeues ∧ ∀ i values, event ≠ .consumed i values := by
  cases hmove with
  | silent hlocal =>
      refine ⟨?_, nofun⟩
      cases hlocal with
      | dequeueNotify _ _ _ _ => exact dequeues_dequeueFinish _ _ _ hargs
      | spinPending _ _ _ _ _ _ => exact TryDequeueError.noConfusion
      | enqueueLoad _ _ => exact hpc.elim
      | enqueueRetry _ _ _ _ => exact hpc.elim
      | _ => first | exact trivial | exact hargs.elim
  | conflict _ _ hlocked => exact absurd hlocked (hfree rfl)
  | lock _ _ _ => exact ⟨dequeues_dequeueEntry _ _, nofun⟩
  | foundEmpty _ _ _ _ _ _ =>
      refine ⟨?_, nofun⟩
      change (if q.enqueuingCapacity.isClosed then TryDequeueError.closed else .empty) ≠
        .conflict
      split <;> exact TryDequeueError.noConfusion
  | unlock dequeuing outcome _ =>
      refine ⟨?_, nofun⟩
      cases outcome with
      | dequeueError error => exact hpc
      | _ => exact hpc.elim
  | _ => first | exact ⟨trivial, nofun⟩ | exact hpc.elim

/-- The drop of an iterator goes on, and clears an exhausted range at most. -/
theorem Transition.leaves {spurious : Bool}
    (hmove : Transition q pc (.run spurious) q' pc' event) (hpc : pc.Leaves)
    (hargs : ArgsOk q' pc') :
    pc'.Leaves ∧ ∀ i values, event = .consumed i values →
      ∃ start b, pc = .releaseClear i start start ∧
        Buffer.clear (q.buffers i) start start = some (values, b) := by
  cases hmove with
  | silent hlocal =>
      refine ⟨?_, nofun⟩
      cases hlocal with
      | clearOutOfBounds _ _ _ _ _ => exact hargs.elim
      | _ => exact hpc.elim
  | clear i start stop _ values b hclear =>
      refine ⟨trivial, ?_⟩
      rintro j values' heq
      cases heq
      cases hpc
      exact ⟨start, b, rfl, hclear⟩
  | release _ _ => exact ⟨trivial, nofun⟩
  | unlock _ outcome _ => exact ⟨trivial, nofun⟩
  | _ => exact hpc.elim

theorem Transition.reopened (hmove : Transition q pc action q' pc' .reopened) :
    action = .reopen := by
  cases hmove
  rfl

section Moves

variable {control control' : IterControl} {shown : IterEvent T α}

omit [Buffer B α σ] in
theorem IterMoves.thread (hmove : IterMoves control pc control' shown)
    (hthread : IterThread control pc) : IterThread control' pc := by
  cases hmove with
  | iter _ => exact Or.inl hthread
  | drop _ hpc =>
      rcases hthread with hidle | ⟨i, start, stop, rfl⟩
      · exact hidle
      · exact absurd rfl (hpc i start stop)
  | dequeue _ hpc =>
      rcases hthread with hidle | ⟨i, start, stop, rfl⟩
      · exact hidle
      · exact absurd rfl (hpc i start stop)
  | cleared last => exact ⟨last, rfl⟩
  | abandoned last => exact ⟨last, rfl⟩
  | retry count error =>
      unfold retryControl
      split
      · exact ⟨_, rfl⟩
      · split <;> exact ⟨_, rfl⟩
  | closed _ => exact ⟨_, rfl⟩
  | conflict _ => exact absurd rfl hthread
  | _ => exact hthread

omit [Buffer B α σ] in
theorem IterMoves.ended (hmove : IterMoves control pc control' shown)
    (hthread : IterThread control pc) (hended : control' = .ended) :
    control = .ended ∨ shown = .finished .closed := by
  cases hmove with
  | exhausted _ => exact Or.inl rfl
  | closed _ => exact Or.inr rfl
  | conflict _ => exact absurd rfl hthread
  | retry count error =>
      unfold retryControl at hended
      split at hended
      · cases hended
      · split at hended <;> cases hended
  | _ => cases hended

omit [Buffer B α σ] in
theorem IterMoves.traces_eq (hmove : IterMoves control pc control' shown) (consumer : T)
    (trace : List (IterAction T α × IterEvent T α)) (label : IterAction T α) :
    queueTrace consumer (trace ++ [(label, shown)]) = queueTrace consumer trace ∧
      yieldedElements (trace ++ [(label, shown)]) = yieldedElements trace := by
  rw [queueTrace, List.filterMap_append, yieldedElements, List.filterMap_append]
  cases hmove <;> exact ⟨List.append_nil _, List.append_nil _⟩

theorem IterCalls.thread (hcall : IterCalls control pc action control')
    (hmove : Transition q pc action q' pc' event) (hthread : IterThread control pc)
    (hargs : ArgsOk q' pc')
    (hfree : pc.holds = false → q.dequeuingLength ≠ dequeuingLocked)
    (hnone : action = .next → ∀ i value, event ≠ .consumed i [value]) :
    IterThread control' pc' ∧ ∀ i values, event = .consumed i values →
      ∃ start b, pc = .releaseClear i start start ∧
        Buffer.clear (q.buffers i) start start = some (values, b) := by
  cases hcall with
  | attempt count _ =>
      obtain ⟨last, rfl⟩ := hthread
      cases hmove with
      | silent hlocal =>
          cases hlocal with
          | tryDequeue _ => exact ⟨trivial, nofun⟩
  | trying count _ spurious =>
      obtain ⟨hdequeues, hconsumed⟩ := hmove.dequeues hthread hargs hfree
      exact ⟨hdequeues, fun i values h => absurd h (hconsumed i values)⟩
  | intoIter count i start stop slice =>
      cases hmove with
      | silent hlocal =>
          cases hlocal with
          | intoIter _ _ _ _ => exact ⟨Or.inr ⟨i, start, stop, rfl⟩, nofun⟩
  | nextNone i start stop =>
      cases hmove with
      | silent hlocal =>
          cases hlocal with
          | nextNone _ _ _ hle => exact ⟨Or.inr ⟨i, start, stop, rfl, hle⟩, nofun⟩
          | lockedAssert _ _ _ _ => exact hargs.elim
          | removeOutOfBounds _ _ _ _ _ => exact hargs.elim
      | remove _ _ _ value b _ _ => exact absurd rfl (hnone rfl i value)
  | clear i start stop =>
      cases hmove with
      | silent hlocal =>
          cases hlocal with
          | dropIter _ _ _ => exact ⟨Or.inl (leaves_requeueRange hargs), nofun⟩
  | clearing _ spurious =>
      rcases hthread with hleaves | ⟨i, start, stop, rfl, -⟩
      · obtain ⟨hleaves', hconsumed⟩ := hmove.leaves hleaves hargs
        exact ⟨Or.inl hleaves', hconsumed⟩
      · cases hmove with
        | silent hlocal => cases hlocal
  | abandon i start stop =>
      cases hmove with
      | silent hlocal =>
          cases hlocal with
          | dropIter _ _ _ => exact ⟨leaves_requeueRange hargs, nofun⟩
  | abandoning _ spurious => exact hmove.leaves hthread hargs

end Moves

end Threads

section Invariant

variable [DecidableEq T] [Buffer B α σ] {consumer t : T}
  {start s : IterState T B α σ} {trace : List (IterAction T α × IterEvent T α)}

/-- The consumer's control point, the lock that only it takes, and the elements it has
returned. -/
structure IterInv (consumer : T) (start : IterState T B α σ)
    (trace : List (IterAction T α × IterEvent T α)) (s : IterState T B α σ) : Prop where
  run : Runs.Run step DeliveryOk start.base (queueTrace consumer trace) s.base
  others (t : T) : t ≠ consumer → (s.base.pcs t).enqueues = true
  thread : IterThread s.control (s.base.pcs consumer)
  yields : yieldedElements trace = consumedElements (queueTrace consumer trace)
  reports : (s.base.pcs consumer).ReportsClosed →
    (Ledger.ofTrace (queueTrace consumer trace)).Drained
  ended : s.control = .ended → ∃ label, (label, .finished .closed) ∈ trace

theorem IterInv.of_initial (hinitial : IterInitial start) :
    IterInv consumer start [] start where
  run := Runs.Run.nil
  others t _ := by
    rw [hinitial.base.2]
    rfl
  thread := by
    rw [hinitial.control, hinitial.base.2]
    exact ⟨none, rfl⟩
  yields := rfl
  reports hreports := by
    rw [hinitial.base.2] at hreports
    exact hreports.elim
  ended hended := by
    rw [hinitial.control] at hended
    cases hended

omit [DecidableEq T] [Buffer B α σ] in
theorem Action.deliveryOk_of_enqueues {state : State T B α σ} {action : Action α}
    (haction : action.enqueues = true) : DeliveryOk state (t, action) := by
  cases action with
  | tryEnqueue value =>
      refine ⟨?_, nofun, nofun, nofun⟩
      intro value' hvalue
      cases hvalue
      exact of_decide_eq_true haction
  | close => exact ⟨nofun, nofun, nofun, nofun⟩
  | run _ => exact ⟨nofun, nofun, nofun, nofun⟩
  | _ => cases haction

omit [DecidableEq T] [Buffer B α σ] in
theorem IterCalls.deliveryOk {state : State T B α σ} {control control' : IterControl}
    {pc : Pc α σ} {action : Action α} (hcall : IterCalls control pc action control') :
    DeliveryOk state (t, action) := by
  cases hcall <;> exact ⟨nofun, nofun, nofun, nofun⟩

theorem IterCalls.ne_reopen {control control' : IterControl} {pc : Pc α σ}
    {action : Action α} (hcall : IterCalls control pc action control') :
    action ≠ .reopen := by
  cases hcall <;> exact nofun

theorem IterCalls.ne_ended {control control' : IterControl} {pc : Pc α σ}
    {action : Action α} (hcall : IterCalls control pc action control') :
    control' ≠ .ended := by
  cases hcall <;> exact nofun

variable [LawfulBuffer B]

theorem IterInv.drained_step (hinv : IterInv consumer start trace s)
    (hinitial : IterInitial start) {action : Action α} {base : State T B α σ}
    {event : Event α} (hstep : step s.base (t, action) = some (base, event))
    (hopen : action ≠ .reopen)
    (hdrained : (Ledger.ofTrace (queueTrace consumer trace)).Drained) :
    event.Quiescent ∧ (Ledger.ofTrace
      (queueTrace consumer trace ++ [((t, action), event)])).Drained := by
  have hsim := sim_of_run hinitial.base (fun _ _ h => h.size) hinv.run
  have hnothing := insertsNothing_of_run hinitial.base (fun _ _ h => h.nothing) hinv.run t
  obtain ⟨q', pc', hmove, -⟩ := step_cases hstep
  rw [Ledger.ofTrace_append_singleton]
  refine hsim.drained_step hdrained hnothing hmove ?_
  rintro rfl
  exact hopen hmove.reopened

theorem IterInv.reports_step (hinv : IterInv consumer start trace s)
    (hinitial : IterInitial start) {action : Action α} {base : State T B α σ}
    {event : Event α} (hstep : step s.base (t, action) = some (base, event))
    (hopen : action ≠ .reopen) (hreports : (base.pcs consumer).ReportsClosed) :
    (Ledger.ofTrace (queueTrace consumer trace ++ [((t, action), event)])).Drained := by
  refine (hinv.drained_step hinitial hstep hopen ?_).2
  obtain ⟨q', pc', hmove, rfl⟩ := step_cases hstep
  change (Function.update s.base.pcs t pc' consumer).ReportsClosed at hreports
  by_cases ht : consumer = t
  · subst ht
    rw [Function.update_self] at hreports
    rcases hmove.reportsClosed hreports with rfl | ⟨hold, -⟩
    · have hsim := sim_of_run hinitial.base (fun _ _ h => h.size) hinv.run
      exact hsim.drained_of_foundEmpty hmove
    · exact hinv.reports hold
  · rw [Function.update_of_ne ht] at hreports
    exact hinv.reports hreports

theorem IterInv.called (hinv : IterInv consumer start trace s)
    (hinitial : IterInitial start) {action : Action α} {base : State T B α σ}
    {event : Event α} {label : IterAction T α} {shown : IterEvent T α}
    {control' : IterControl} (hok : DeliveryOk s.base (t, action))
    (hstep : step s.base (t, action) = some (base, event)) (hopen : action ≠ .reopen)
    (hqueue : queueTrace consumer (trace ++ [(label, shown)]) =
      queueTrace consumer trace ++ [((t, action), event)])
    (hothers : ∀ t', t' ≠ consumer → (base.pcs t').enqueues = true)
    (hthread : IterThread control' (base.pcs consumer))
    (hyields : yieldedElements (trace ++ [(label, shown)]) =
      yieldedElements trace ++ consumedElements [((t, action), event)])
    (hended : control' = .ended → s.control = .ended) :
    IterInv consumer start (trace ++ [(label, shown)]) ⟨base, control'⟩ where
  run := by
    rw [hqueue]
    exact hinv.run.snoc hok hstep
  others := hothers
  thread := hthread
  yields := by
    rw [hqueue, hyields, consumedElements_append, hinv.yields]
  reports hreports := by
    rw [hqueue]
    exact hinv.reports_step hinitial hstep hopen hreports
  ended h := by
    obtain ⟨finish, hmem⟩ := hinv.ended (hended h)
    exact ⟨finish, List.mem_append_left _ hmem⟩

omit [LawfulBuffer B] in
theorem IterInv.moved (hinv : IterInv consumer start trace s) {label : IterAction T α}
    {shown : IterEvent T α} {control' : IterControl}
    (hmove : IterMoves s.control (s.base.pcs consumer) control' shown) :
    IterInv consumer start (trace ++ [(label, shown)]) { s with control := control' } := by
  obtain ⟨hqueue, hyields⟩ := hmove.traces_eq consumer trace label
  refine ⟨?_, hinv.others, hmove.thread hinv.thread, ?_, ?_, ?_⟩
  · rw [hqueue]
    exact hinv.run
  · rw [hqueue, hyields]
    exact hinv.yields
  · rw [hqueue]
    exact hinv.reports
  · intro hended
    rcases hmove.ended hinv.thread hended with hold | rfl
    · obtain ⟨finish, hmem⟩ := hinv.ended hold
      exact ⟨finish, List.mem_append_left _ hmem⟩
    · exact ⟨label, List.mem_append_right _ List.mem_cons_self⟩

omit [DecidableEq T] [Buffer B α σ] [LawfulBuffer B] in
theorem Pc.holds_of_enqueues {pc : Pc α σ} (hpc : pc.enqueues = true) :
    pc.holds = false := by
  cases pc with
  | idle _ => rfl
  | enqueueLoad _ => rfl
  | enqueueReserve _ _ _ => rfl
  | enqueueInsert _ _ => rfl
  | enqueueAcknowledge _ _ => rfl
  | _ => cases hpc

/-- The lock is free unless the consumer has it. -/
theorem IterInv.unlocked (hinv : IterInv consumer start trace s)
    (hinitial : IterInitial start) (hholds : (s.base.pcs consumer).holds = false) :
    s.base.queue.dequeuingLength ≠ dequeuingLocked := by
  have hsim := sim_of_run hinitial.base (fun _ _ h => h.size) hinv.run
  intro hlocked
  obtain ⟨t, ht⟩ := hsim.locked_iff.mp hlocked
  by_cases heq : t = consumer
  · rw [heq, hholds] at ht
    cases ht
  · rw [Pc.holds_of_enqueues (hinv.others t heq)] at ht
    cases ht

/-- The range of an exhausted iterator is cleared without dropping anything. -/
theorem IterInv.clear_eq_nil (hinv : IterInv consumer start trace s)
    (hinitial : IterInitial start) {i : Fin 2} {first : Nat} {values : List α} {b : B}
    (hpc : s.base.pcs t = .releaseClear i first first)
    (hclear : Buffer.clear (s.base.queue.buffers i) first first = some (values, b)) :
    values = [] := by
  have hsim := sim_of_run hinitial.base (fun _ _ h => h.size) hinv.run
  have hthread := hsim.thread t
  rw [hpc] at hthread
  have hrange : Range s.base.queue (Ledger.ofTrace (queueTrace consumer trace)) i first
    first := hthread
  have hfits := hrange.fits
  have hstop := hrange.stop_eq
  obtain ⟨b', hnothing, -⟩ := LawfulBuffer.clear_spec
    (holds_nil (s.base.queue.buffers i) first) (by rw [List.length_nil]; omega)
  change Buffer.clear (s.base.queue.buffers i) first first = some ([], b') at hnothing
  rw [hclear] at hnothing
  cases hnothing
  rfl

theorem IterInv.argsOk (hinv : IterInv consumer start trace s)
    (hinitial : IterInitial start) {action : Action α} {q' : Queue B} {pc' : Pc α σ}
    {event : Event α} (hok : DeliveryOk s.base (t, action))
    (hstep : step s.base (t, action) =
      some (⟨q', Function.update s.base.pcs t pc'⟩, event)) : ArgsOk q' pc' := by
  have hargs := argsOk_of_run hinitial.base (fun _ _ h => h)
    (calls_of_delivery hinitial.base (hinv.run.snoc hok hstep)) t
  change ArgsOk q' (Function.update s.base.pcs t pc' t) at hargs
  rwa [Function.update_self] at hargs

theorem IterInv.other_step (hinv : IterInv consumer start trace s)
    (hinitial : IterInitial start) {action : Action α} {base : State T B α σ}
    {event : Event α} (hstep : step s.base (t, action) = some (base, event))
    (hok : t ≠ consumer ∧ action.enqueues = true) :
    IterInv consumer start (trace ++ [(.other t action, .called (t, action) event)])
      { s with base := base } := by
  obtain ⟨ht, haction⟩ := hok
  have hdelivery : DeliveryOk s.base (t, action) := Action.deliveryOk_of_enqueues haction
  have hopen : action ≠ .reopen := by
    rintro rfl
    cases haction
  obtain ⟨q', pc', hmove, rfl⟩ := step_cases hstep
  have hargs := hinv.argsOk hinitial hdelivery hstep
  obtain ⟨hpc', hconsumed⟩ := hmove.enqueues (hinv.others t ht) haction hargs
  refine hinv.called hinitial hdelivery hstep hopen (by simp [queueTrace]) ?_ ?_ ?_ id
  · intro t' ht'
    change (Function.update s.base.pcs t pc' t').enqueues = true
    by_cases heq : t' = t
    · rw [heq, Function.update_self]
      exact hpc'
    · rw [Function.update_of_ne heq]
      exact hinv.others t' ht'
  · change IterThread s.control (Function.update s.base.pcs t pc' consumer)
    rw [Function.update_of_ne (Ne.symm ht)]
    exact hinv.thread
  · rw [consumedElements_singleton_eq_nil _ hconsumed]
    simp [yieldedElements]

omit [LawfulBuffer B] in
theorem IterInv.others_update (hinv : IterInv consumer start trace s) (pc' : Pc α σ)
    (t' : T) (ht' : t' ≠ consumer) :
    (Function.update s.base.pcs consumer pc' t').enqueues = true := by
  rw [Function.update_of_ne ht']
  exact hinv.others t' ht'

theorem IterInv.call_step (hinv : IterInv consumer start trace s)
    (hinitial : IterInitial start) {action : Action α} {base : State T B α σ}
    {event : Event α} {label : IterAction T α} {control' : IterControl}
    (hcall : IterCalls s.control (s.base.pcs consumer) action control')
    (hstep : step s.base (consumer, action) = some (base, event))
    (hnone : action = .next → ∀ i value, event ≠ .consumed i [value]) :
    IterInv consumer start (trace ++ [(label, .called (consumer, action) event)])
      ⟨base, control'⟩ := by
  have hdelivery : DeliveryOk s.base (consumer, action) := hcall.deliveryOk
  obtain ⟨q', pc', hmove, rfl⟩ := step_cases hstep
  have hargs := hinv.argsOk hinitial hdelivery hstep
  obtain ⟨hthread, hconsumed⟩ := hcall.thread hmove hinv.thread hargs
    (hinv.unlocked hinitial) hnone
  refine hinv.called hinitial hdelivery hstep hcall.ne_reopen (by simp [queueTrace])
    (hinv.others_update pc') ?_ ?_ fun h => absurd h hcall.ne_ended
  · change IterThread control' (Function.update s.base.pcs consumer pc' consumer)
    rw [Function.update_self]
    exact hthread
  · have hnothing : consumedElements [((consumer, action), event)] = [] := by
      cases event with
      | consumed i values =>
          obtain ⟨first, b, hpc, hclear⟩ := hconsumed i values rfl
          rw [hinv.clear_eq_nil hinitial hpc hclear]
          rfl
      | _ => rfl
    rw [hnothing]
    simp [yieldedElements]

theorem IterInv.yield_step (hinv : IterInv consumer start trace s)
    (hinitial : IterInitial start) {base : State T B α σ} {i : Fin 2} {value : α}
    {label : IterAction T α}
    (hstep : step s.base (consumer, .next) = some (base, .consumed i [value])) :
    IterInv consumer start (trace ++ [(label, .yielded (.consumed i [value]) value)])
      ⟨base, .waiting⟩ := by
  have hdelivery : DeliveryOk s.base (consumer, .next) := ⟨nofun, nofun, nofun, nofun⟩
  obtain ⟨q', pc', hmove, rfl⟩ := step_cases hstep
  refine hinv.called hinitial hdelivery hstep nofun
    (by simp [queueTrace]) (hinv.others_update pc') ?_ ?_ nofun
  · change IterThread .waiting (Function.update s.base.pcs consumer pc' consumer)
    rw [Function.update_self]
    generalize s.base.pcs consumer = pc at hmove
    cases hmove with
    | remove _ start stop _ _ _ _ => exact Or.inr ⟨i, start + 1, stop, rfl⟩
  · simp [yieldedElements, consumedElements]

theorem iterInv_of_run (hinitial : IterInitial start)
    (hrun : Runs.Run (iterStep consumer) (IterOk consumer) start trace s) :
    IterInv consumer start trace s := by
  refine hrun.invariant (IterInv consumer start) (IterInv.of_initial hinitial) ?_
  intro trace s s' label event _ hinv hok hstep
  cases iterStep_cases hstep with
  | other hbase => exact hinv.other_step hinitial hbase hok
  | call _ hcall hbase hnone => exact hinv.call_step hinitial hcall hbase hnone
  | yields _ _ hbase => exact hinv.yield_step hinitial hbase
  | move _ hmove => exact hinv.moved hmove

end Invariant

section Delivery

variable [DecidableEq T] [Buffer B α σ] {consumer : T} {start s : IterState T B α σ}
  {trace : List (IterAction T α × IterEvent T α)}

/-- A step of the system is a step of the queue, or the queue does not see it. -/
theorem IterMove.queueTrace_cases {label : IterAction T α} {s' : IterState T B α σ}
    {event : IterEvent T α} (hmove : IterMove consumer s label s' event)
    (hok : IterOk consumer s label) :
    queueTrace consumer (trace ++ [(label, event)]) = queueTrace consumer trace ∨
    ∃ t action shown, action ≠ .reopen ∧
      step s.base (t, action) = some (s'.base, shown) ∧
      queueTrace consumer (trace ++ [(label, event)]) =
        queueTrace consumer trace ++ [((t, action), shown)] := by
  cases hmove with
  | @other t action base shown hstep =>
      refine Or.inr ⟨t, action, shown, ?_, hstep, by simp [queueTrace]⟩
      rintro rfl
      cases hok.2
  | @call _ action _ base shown _ hcall hstep _ =>
      exact Or.inr ⟨consumer, action, shown, hcall.ne_reopen, hstep, by simp [queueTrace]⟩
  | yields _ _ hstep => exact Or.inr ⟨consumer, .next, _, nofun, hstep, by simp [queueTrace]⟩
  | move _ hmoves => exact Or.inl (hmoves.traces_eq consumer trace label).1

variable [LawfulBuffer B]

/-- What was consumed and what is left in the buffers are the accepted elements. -/
theorem IterInv.order (hinv : IterInv consumer start trace s)
    (hinitial : IterInitial start) :
    yieldedElements trace ++ (Ledger.ofTrace (queueTrace consumer trace)).batch ++
      (Ledger.ofTrace (queueTrace consumer trace)).tail = acceptedElements consumer trace := by
  have hsim := sim_of_run hinitial.base (fun _ _ h => h.size) hinv.run
  have horder := hsim.shared.order
  rw [accepted_eq_reservedValues hinitial.base hinv.run, Ledger.consumed_ofTrace] at horder
  rw [hinv.yields, acceptedElements]
  exact horder

theorem IterInv.yields_all (hinv : IterInv consumer start trace s)
    (hinitial : IterInitial start)
    (hdrained : (Ledger.ofTrace (queueTrace consumer trace)).Drained) :
    yieldedElements trace = acceptedElements consumer trace := by
  rw [← hinv.order hinitial]
  simp [Ledger.batch, Ledger.tail, hdrained.nothing]

theorem accepted_of_drained (hinitial : IterInitial start)
    {first rest : List (IterAction T α × IterEvent T α)} {middle : IterState T B α σ}
    (hfirst : Runs.Run (iterStep consumer) (IterOk consumer) start first middle)
    (hdrained : (Ledger.ofTrace (queueTrace consumer first)).Drained)
    (hrest : Runs.Run (iterStep consumer) (IterOk consumer) middle rest s) :
    acceptedElements consumer (first ++ rest) = acceptedElements consumer first := by
  suffices hboth : (Ledger.ofTrace (queueTrace consumer (first ++ rest))).Drained ∧
      acceptedElements consumer (first ++ rest) = acceptedElements consumer first from
    hboth.2
  refine hrest.invariant (fun rest _ =>
    (Ledger.ofTrace (queueTrace consumer (first ++ rest))).Drained ∧
      acceptedElements consumer (first ++ rest) = acceptedElements consumer first) ?_ ?_
  · rw [List.append_nil]
    exact ⟨hdrained, rfl⟩
  · rintro rest state state' label event hprefix' ⟨hkept, hsame⟩ hok hstep
    have hinv := iterInv_of_run hinitial (hfirst.append hprefix')
    rw [← List.append_assoc, acceptedElements]
    rcases (iterStep_cases hstep).queueTrace_cases hok with hqueue | hqueue
    · rw [hqueue]
      exact ⟨hkept, hsame⟩
    · obtain ⟨t, action, shown, hopen, hbase, hqueue⟩ := hqueue
      obtain ⟨hquiescent, hdrained'⟩ := hinv.drained_step hinitial hbase hopen hkept
      rw [hqueue]
      refine ⟨hdrained', ?_⟩
      rw [← hsame, acceptedElements, reservedValues, List.filterMap_append, ← reservedValues]
      cases shown with
      | reserved i value => exact hquiescent.elim
      | _ => simp

omit [DecidableEq T] in
theorem yieldedElements_append (first second : List (IterAction T α × IterEvent T α)) :
    yieldedElements (first ++ second) = yieldedElements first ++ yieldedElements second :=
  List.filterMap_append

/-- When an iterator ends everything has been returned, and nothing more comes. -/
theorem yields_all_of_finished (hinitial : IterInitial start)
    {first rest : List (IterAction T α × IterEvent T α)} {label : IterAction T α}
    {error : DequeueError}
    (hrun : Runs.Run (iterStep consumer) (IterOk consumer) start
      (first ++ (label, .finished error) :: rest) s) :
    error = .closed ∧ yieldedElements first =
      acceptedElements consumer (first ++ (label, .finished error) :: rest) := by
  obtain ⟨middle, hfirst, hrest⟩ := hrun.split
  have hinv := iterInv_of_run hinitial hfirst
  have hthread := hinv.thread
  have hreports := hinv.reports
  obtain ⟨next, -, hstep, -⟩ := hrest.cons_inv
  have hboth : error = .closed ∧ (middle.base.pcs consumer).ReportsClosed := by
    generalize hevent : IterEvent.finished error = event at hstep
    cases iterStep_cases hstep with
    | other _ => cases hevent
    | call _ _ _ _ => cases hevent
    | yields _ _ _ => cases hevent
    | move _ hmoves =>
        generalize middle.control = control at hmoves hthread
        generalize middle.base.pcs consumer = pc at hmoves hthread
        cases hmoves with
        | closed _ =>
            cases hevent
            exact ⟨rfl, trivial⟩
        | conflict _ => exact absurd rfl hthread
        | _ => cases hevent
  have hdrained := hreports hboth.2
  refine ⟨hboth.1, ?_⟩
  rw [accepted_of_drained hinitial hfirst hdrained hrest]
  exact hinv.yields_all hinitial hdrained

theorem yielded_prefix (hinitial : IterInitial start)
    {first rest : List (IterAction T α × IterEvent T α)}
    (hrun : Runs.Run (iterStep consumer) (IterOk consumer) start (first ++ rest) s) :
    yieldedElements first <+: acceptedElements consumer (first ++ rest) := by
  have horder := (iterInv_of_run hinitial hrun).order hinitial
  rw [yieldedElements_append, List.append_assoc, List.append_assoc] at horder
  exact ⟨_, horder⟩

theorem yields_all_of_exhausted (hinitial : IterInitial start)
    {first rest : List (IterAction T α × IterEvent T α)} {label : IterAction T α}
    (hrun : Runs.Run (iterStep consumer) (IterOk consumer) start
      (first ++ (label, .exhausted) :: rest) s) :
    (∃ finish, (finish, .finished .closed) ∈ first) ∧ yieldedElements first =
      acceptedElements consumer (first ++ (label, .exhausted) :: rest) := by
  obtain ⟨middle, hfirst, hrest⟩ := hrun.split
  have hended : middle.control = .ended := by
    obtain ⟨next, -, hstep, -⟩ := hrest.cons_inv
    generalize hevent : IterEvent.exhausted = event at hstep
    cases iterStep_cases hstep with
    | other _ => cases hevent
    | call _ _ _ _ => cases hevent
    | yields _ _ _ => cases hevent
    | move _ hmoves =>
        generalize middle.control = control at hmoves
        generalize middle.base.pcs consumer = pc at hmoves
        cases hmoves with
        | exhausted _ => rfl
        | _ => cases hevent
  obtain ⟨finish, hmem⟩ := (iterInv_of_run hinitial hfirst).ended hended
  refine ⟨⟨finish, hmem⟩, ?_⟩
  obtain ⟨before, after, rfl⟩ := List.append_of_mem hmem
  have hwhole := yielded_prefix hinitial hrun
  rw [List.append_assoc, List.cons_append] at hrun
  have hbefore := (yields_all_of_finished hinitial hrun).2
  apply hwhole.eq_of_length_le
  rw [List.append_assoc, List.cons_append, ← hbefore, yieldedElements_append,
    List.length_append]
  exact Nat.le_add_right _ _

/-- The iterators of one consumer lose nothing.  Over all of them the calls of `next`
return the accepted elements in the order of the reservations, each one behind those
returned before, also by an abandoned iterator; a call returns `None` when `dequeue`
reports `Closed`, or after it did, and then every element ever accepted has been
returned. -/
theorem iter_loses_nothing (hinitial : IterInitial start)
    (hrun : Runs.Run (iterStep consumer) (IterOk consumer) start trace s) :
    yieldedElements trace <+: acceptedElements consumer trace ∧
    (∀ first rest label event value, trace = first ++ (label, .yielded event value) :: rest →
      (acceptedElements consumer trace)[(yieldedElements first).length]? = some value) ∧
    (∀ first rest label error, trace = first ++ (label, .finished error) :: rest →
      error = .closed ∧ yieldedElements first = acceptedElements consumer trace) ∧
    ∀ first rest label, trace = first ++ (label, .exhausted) :: rest →
      (∃ finish, (finish, .finished .closed) ∈ first) ∧
        yieldedElements first = acceptedElements consumer trace := by
  have hinv := iterInv_of_run hinitial hrun
  have horder := hinv.order hinitial
  rw [List.append_assoc] at horder
  refine ⟨⟨_, horder⟩, ?_, ?_, ?_⟩
  · rintro first rest label event value rfl
    rw [← horder, yieldedElements_append, List.append_assoc,
      List.getElem?_append_right (Nat.le_refl _), Nat.sub_self]
    rfl
  · rintro first rest label error rfl
    exact yields_all_of_finished hinitial hrun
  · rintro first rest label rfl
    exact yields_all_of_exhausted hinitial hrun

end Delivery

/-- Two elements; the first iterator is abandoned after one of them, the second one
returns the other and ends when the queue is closed. -/
theorem iter_loses_nothing_abandoned :
    ∃ (start : IterState Nat (VecBuffer Nat) Nat (List Nat)) (trace : _)
        (s : IterState Nat (VecBuffer Nat) Nat (List Nat)),
      IterInitial start ∧ Runs.Run (iterStep 0) (IterOk 0) start trace s ∧
      yieldedElements trace = [7, 8] ∧ s.control = .ended ∧
      yieldedElements trace <+: acceptedElements 0 trace := by
  have hrun := Runs.run_of_isSome (iterStep 0) (IterOk 0)
    (⟨State.ofQueue ((Queue.withCapacity 2).get (by decide +kernel)), .absent⟩ :
      IterState Nat (VecBuffer Nat) Nat (List Nat))
    (List.flatten [[.other 1 (.tryEnqueue [7, 8])],
      List.replicate 4 (.other 1 (.run false)), [.iter, .next],
      List.replicate 14 (.run false), [.abandon], List.replicate 2 (.run false),
      [.iter, .next], List.replicate 7 (.run false), [.other 1 .close, .next],
      List.replicate 14 (.run false)])
    (by decide +kernel) (by decide +kernel)
  have hbase := initial_withCapacity (T := Nat) (B := VecBuffer Nat)
    (show (Queue.withCapacity 2).isSome = true by decide +kernel)
  exact ⟨_, _, _, ⟨hbase, rfl⟩, hrun, by decide +kernel, by decide +kernel,
    (iter_loses_nothing ⟨hbase, rfl⟩ hrun).1⟩

end SwapBufferQueue
