/-
Every call that waits is safe, in every reachable state of the synchronized queue: the
steps of the queue, of the two kinds of wakers and of the callers keep its reason or leave
somebody who owes it a wake.
-/
import SwapBufferQueue.WakeReasons

namespace SwapBufferQueue

universe u v w x y

variable {T : Type x} {K : Type y} {B : Type u} {α : Type v} {σ : Type w}

variable [DecidableEq T] [Buffer B α σ] {start s s' : SyncState T K B α σ} {t : T}
  {trace : List ((T × SyncAction K α) × SyncEvent α)} {control' : SyncControl T K α}

/-- Nobody else has the lock while a dequeue waits, and every call that has registered its
waker is safe. -/
structure WakeInv (start : SyncState T K B α σ)
    (trace : List ((T × SyncAction K α) × SyncEvent α)) (s : SyncState T K B α σ) : Prop where
  inv : SyncInv start trace s
  alone {t t' : T} : DequeueCommitted (s.controls t) (s.base.pcs t) → t' ≠ t →
    (s.base.pcs t').holds = false
  dequeue {t : T} : (s.controls t).dequeueArmed = true →
    DequeueSafe s (Ledger.ofTrace (syncTrace trace)) t
  enqueue {t : T} {value : List α} : (s.controls t).enqueueArmed = some value →
    EnqueueSafe s t value

section Called

variable {q q' : Queue B} {pc pc' : Pc α σ} {action : Action α} {event : Event α}
  {control : SyncControl T K α} {cx : Option K}

omit [DecidableEq T] in
theorem SyncCalls.run_of_committed (hcall : SyncCalls control pc action control')
    (hmove : Transition q pc action q' pc' event) (hthread : SyncThread cx control pc)
    (hcommitted : DequeueCommitted control' pc') :
    (∃ spurious, action = .run spurious) ∧ pc'.Waits ∧
      (pc.Waits → DequeueCommitted control pc) := by
  rcases hcommitted with rfl | ⟨⟨count, rfl⟩, hwaits⟩
  · cases hcall
  · cases hcall with
    | tryDequeue _ _ =>
        cases hmove with
        | silent hlocal =>
            cases hlocal with
            | tryDequeue _ => exact hwaits.elim
    | dequeueTrying _ _ spurious _ =>
        exact ⟨⟨spurious, rfl⟩, hwaits, fun h => Or.inr ⟨⟨count, rfl⟩, h⟩⟩
    | notified _ _ spurious =>
        obtain ⟨-, attempt, capacity, enqueuing, rfl⟩ := hthread
        exact ⟨⟨spurious, rfl⟩, hwaits, fun h => h.elim⟩

omit [DecidableEq T] in
/-- The step that closes the queue goes on to wake both sides. -/
theorem SyncCalls.control_of_closed (hcall : SyncCalls control pc action control')
    (hmove : Transition q pc action q' pc' .closed) :
    control' = .closeDequeuer .wakeStart := by
  cases hcall with
  | close _ => rfl
  | use _ _ huses _ =>
      cases hmove
      cases huses
  | _ => cases hmove

omit [DecidableEq T] [Buffer B α σ] in
theorem SyncCalls.dequeueArmed (hcall : SyncCalls control pc action control') :
    control'.dequeueArmed = true → control.dequeueArmed = true := by
  intro harmed
  cases hcall with
  | tryDequeue _ _ => exact harmed
  | dequeueTrying _ _ _ _ => exact harmed
  | notified _ _ _ => exact harmed
  | _ => cases harmed

omit [DecidableEq T] in
/-- A reservation in flight is acknowledged with a `wake` to do. -/
theorem SyncCalls.owesDequeue (hcall : SyncCalls control pc action control')
    (hmove : Transition q pc action q' pc' event) (hthread : SyncThread cx control pc)
    (hargs : ArgsOk q' pc') (howes : OwesDequeue control pc) : OwesDequeue control' pc' := by
  have hatomic := hcall.atomic.1
  rcases howes with hflight | rfl | rfl
  · obtain ⟨value, count, rfl⟩ := hthread.trying_of_inFlight hflight
    cases hcall with
    | acknowledge _ _ _ _ _ => exact Or.inr (Or.inl rfl)
    | enqueueTrying _ _ _ _ hpc =>
        refine Or.inl ?_
        cases pc with
        | enqueueInsert value' enqueuing =>
            cases hmove with
            | insert _ _ _ _ _ => exact nofun
            | silent hlocal =>
                cases hlocal with
                | indexUnderflow _ _ _ _ => exact hargs.elim
                | insertOutOfBounds _ _ _ _ => exact hargs.elim
        | enqueueAcknowledge value' enqueuing => exact absurd rfl (hpc value' enqueuing)
        | _ => exact absurd rfl hflight
  · cases hatomic
  · cases hatomic

omit [DecidableEq T] [Buffer B α σ] in
theorem SyncCalls.enqueueArmed {value : List α} (hcall : SyncCalls control pc action control')
    (harmed : control'.enqueueArmed = some value) : control.enqueueArmed = some value := by
  cases hcall with
  | tryEnqueue _ _ _ => exact harmed
  | enqueueTrying _ _ _ _ _ => exact harmed
  | _ => cases harmed

omit [DecidableEq T] in
theorem SyncCalls.owesEnqueue (hcall : SyncCalls control pc action control')
    (hmove : Transition q pc action q' pc' event) (howes : OwesEnqueue control pc) :
    OwesEnqueue control' pc' := by
  cases hcall with
  | dequeueTrying _ _ _ hpc =>
      cases pc with
      | dequeueLoadCapacity _ _ _ =>
          cases hmove with
          | silent hlocal => cases hlocal <;> exact trivial
      | dequeueStoreCapacity _ _ _ =>
          cases hmove with
          | storeCapacity _ _ _ _ => exact trivial
          | silent hlocal => cases hlocal
      | dequeueNotify attempt capacity enqueuing =>
          exact absurd rfl (hpc attempt capacity enqueuing)
      | _ => exact howes.elim
  | _ => exact howes.elim

omit [DecidableEq T] [Buffer B α σ] in
theorem SyncThread.owes_of_swapped {attempt : Attempt} {capacity : Nat}
    {enqueuing : EnqueuingCapacity}
    (hthread : SyncThread cx control
      (.dequeueLoadCapacity attempt capacity enqueuing : Pc α σ)) :
    OwesEnqueue control (.dequeueLoadCapacity attempt capacity enqueuing : Pc α σ) := by
  cases hcontrol : control.inside with
  | false =>
      obtain ⟨last, hpc⟩ := hthread.idle hcontrol
      cases hpc
  | true =>
      cases control with
      | dequeueTrying _ => exact trivial
      | dequeueNotify _ _ =>
          obtain ⟨-, _, _, _, hpc⟩ := hthread
          cases hpc
      | outside => exact hthread.elim
      | enqueueTrying _ _ => exact hthread.2.elim
      | _ => cases hcontrol

omit [DecidableEq T] in
/-- An enqueue commits itself inside a call of `try_enqueue` for its value. -/
theorem SyncCalls.insufficient {value : List α} (hcall : SyncCalls control pc action control')
    (hmove : Transition q pc action q' pc' event) (hthread : SyncThread cx control pc)
    (hthread' : SyncThread cx control' pc') (harmed : control'.enqueueArmed = some value)
    (hcommitted : EnqueueCommitted control' pc') :
    (∃ spurious, action = .run spurious) ∧ pc.Enqueues value ∧
      pc' = .idle (some (.enqueueError (.insufficientCapacity value))) := by
  cases hcall with
  | tryEnqueue value' count _ =>
      obtain ⟨value'', rfl⟩ := hcommitted
      cases hmove with
      | silent hlocal => cases hlocal
  | enqueueTrying value' count _ spurious _ =>
      change (if spinLimit ≤ count then some value' else none) = some value at harmed
      obtain ⟨-, hvalue⟩ := Option.ite_none_right_eq_some.mp harmed
      cases hvalue
      obtain ⟨value', rfl⟩ := hcommitted
      have hvalue : value' = value := hthread'.2
      exact ⟨⟨spurious, rfl⟩, hthread.2, by rw [hvalue]⟩
  | _ => cases harmed

end Called

section CalledStep

variable [LawfulBuffer B] {q' : Queue B} {pc' : Pc α σ} {action : Action α} {event : Event α}
  {r : T}

theorem WakeInv.sim (hwake : WakeInv start trace s) (hinitial : SyncInitial start) :
    Sim s.base (Ledger.ofTrace (syncTrace trace)) :=
  sim_of_run hinitial.base (fun _ _ h => h.delivery.size) hwake.inv.run

/-- Nobody takes the lock while a dequeue waits. -/
theorem WakeInv.alone_called (hwake : WakeInv start trace s) (hinitial : SyncInitial start)
    (hcall : SyncCalls (s.controls t) (s.base.pcs t) action control')
    (hmove : Transition s.base.queue (s.base.pcs t) action q' pc' event)
    (hargs : ArgsOk q' pc')
    (hcommitted : DequeueCommitted (Function.update s.controls t control' r)
      (Function.update s.base.pcs t pc' r)) {t' : T} (ht' : t' ≠ r) :
    (Function.update s.base.pcs t pc' t').holds = false := by
  rw [Bool.eq_false_iff]
  intro hholds
  by_cases hr : r = t
  · subst hr
    rw [Function.update_self, Function.update_self] at hcommitted
    rw [Function.update_of_ne ht'] at hholds
    obtain ⟨⟨spurious, rfl⟩, hwaits, -⟩ :=
      hcall.run_of_committed hmove (hwake.inv.thread r) hcommitted
    exact ht' ((hwake.sim hinitial).exclusive hholds (hmove.holds_of_waits hwaits))
  · rw [Function.update_of_ne hr, Function.update_of_ne hr] at hcommitted
    by_cases heq : t' = t
    · subst heq
      rw [Function.update_self] at hholds
      rcases hmove.holds_cases hargs hholds with hheld | ⟨resize, hpc⟩
      · rw [hwake.alone hcommitted ht'] at hheld
        cases hheld
      · have hthread := hwake.inv.thread t'
        rw [hpc] at hthread
        exact ht' (hwake.inv.single hthread.dequeues_of_lock hcommitted.dequeues)
    · rw [Function.update_of_ne heq, hwake.alone hcommitted ht'] at hholds
      cases hholds

/-- The reason of a dequeue that waits is kept by the steps of the queue. -/
theorem WakeInv.dequeue_reason (hwake : WakeInv start trace s) (hinitial : SyncInitial start)
    (hcall : SyncCalls (s.controls t) (s.base.pcs t) action control')
    (hmove : Transition s.base.queue (s.base.pcs t) action q' pc' event)
    (hargs : ArgsOk q' pc')
    (hcommitted : DequeueCommitted (Function.update s.controls t control' r)
      (Function.update s.base.pcs t pc' r))
    (hreason : DequeueCommitted (s.controls r) (s.base.pcs r) →
      (Ledger.ofTrace (syncTrace trace)).Vacant ∨
        ∃ t', OwesDequeue (s.controls t') (s.base.pcs t')) :
    ((Ledger.ofTrace (syncTrace trace)).next t event).Vacant ∨
      ∃ t', OwesDequeue (Function.update s.controls t control' t')
        (Function.update s.base.pcs t pc' t') := by
  have hsim := hwake.sim hinitial
  have howes : (∃ t', OwesDequeue (s.controls t') (s.base.pcs t')) →
      ∃ t', OwesDequeue (Function.update s.controls t control' t')
        (Function.update s.base.pcs t pc' t') := by
    rintro ⟨t', h⟩
    refine ⟨t', ?_⟩
    by_cases heq : t' = t
    · subst heq
      rw [Function.update_self, Function.update_self]
      exact hcall.owesDequeue hmove (hwake.inv.thread t') hargs h
    · rw [Function.update_of_ne heq, Function.update_of_ne heq]
      exact h
  have hself : OwesDequeue control' pc' →
      ∃ t', OwesDequeue (Function.update s.controls t control' t')
        (Function.update s.base.pcs t pc' t') :=
    fun h => ⟨t, by rw [Function.update_self, Function.update_self]; exact h⟩
  by_cases hr : r = t
  · subst hr
    rw [Function.update_self, Function.update_self] at hcommitted
    obtain ⟨-, hwaits, hbefore⟩ :=
      hcall.run_of_committed hmove (hwake.inv.thread r) hcommitted
    have hunresized := (uniform_of_run hinitial.base hwake.inv.run).unresized r
    obtain ⟨hsame, hcause⟩ := hsim.waits_step hunresized hmove hwaits
    rw [hsame]
    rcases hcause with hold | hvacant | ⟨t', h⟩
    · exact (hreason (hbefore hold)).imp_right howes
    · exact Or.inl hvacant
    · exact Or.inr (howes ⟨t', Or.inl h⟩)
  · rw [Function.update_of_ne hr, Function.update_of_ne hr] at hcommitted
    rcases hreason hcommitted with hvacant | h
    · rcases hsim.vacant_step hvacant (hwake.alone hcommitted (Ne.symm hr)) hmove with
        hkept | hflight | rfl
      · exact Or.inl hkept
      · exact Or.inr (hself (Or.inl hflight))
      · exact Or.inr (hself (Or.inr (Or.inr (hcall.control_of_closed hmove))))
    · exact Or.inr (howes h)

/-- The reason of an enqueue that waits is kept by the steps of the queue. -/
theorem WakeInv.enqueue_reason (hwake : WakeInv start trace s) (hinitial : SyncInitial start)
    {value : List α} (hcall : SyncCalls (s.controls t) (s.base.pcs t) action control')
    (hmove : Transition s.base.queue (s.base.pcs t) action q' pc' event)
    (hthread' : SyncThread (s.polls t) control' pc')
    (harmed : (Function.update s.controls t control' r).enqueueArmed = some value)
    (hcommitted : EnqueueCommitted (Function.update s.controls t control' r)
      (Function.update s.base.pcs t pc' r))
    (hreason : EnqueueCommitted (s.controls r) (s.base.pcs r) →
      s.base.queue.enqueuingCapacity.Blocks value.length ∨
        ∃ t', OwesEnqueue (s.controls t') (s.base.pcs t')) :
    q'.enqueuingCapacity.Blocks value.length ∨
      ∃ t', OwesEnqueue (Function.update s.controls t control' t')
        (Function.update s.base.pcs t pc' t') := by
  have hsim := hwake.sim hinitial
  have hself : OwesEnqueue control' pc' →
      ∃ t', OwesEnqueue (Function.update s.controls t control' t')
        (Function.update s.base.pcs t pc' t') :=
    fun h => ⟨t, by rw [Function.update_self, Function.update_self]; exact h⟩
  by_cases hr : r = t
  · subst hr
    rw [Function.update_self] at harmed hcommitted
    rw [Function.update_self] at hcommitted
    obtain ⟨⟨spurious, rfl⟩, hpc, hpc'⟩ :=
      hcall.insufficient hmove (hwake.inv.thread r) hthread' harmed hcommitted
    exact Or.inl (hsim.blocks_of_insufficient hmove hpc hpc')
  · rw [Function.update_of_ne hr, Function.update_of_ne hr] at hcommitted
    rcases hreason hcommitted with hblocks | ⟨t', h⟩
    · rcases hsim.blocks_step hblocks hmove with hkept | rfl | ⟨attempt, capacity, enqueuing, rfl⟩
      · exact Or.inl hkept
      · have hclosed := hcall.control_of_closed hmove
        subst hclosed
        exact Or.inr (hself trivial)
      · exact Or.inr (hself hthread'.owes_of_swapped)
    · refine Or.inr ?_
      by_cases heq : t' = t
      · subst heq
        exact hself (hcall.owesEnqueue hmove h)
      · refine ⟨t', ?_⟩
        rw [Function.update_of_ne heq, Function.update_of_ne heq]
        exact h

theorem WakeInv.called (hwake : WakeInv start trace s) (hinitial : SyncInitial start)
    {base : State T B α σ} {label : SyncAction K α}
    (hcall : SyncCalls (s.controls t) (s.base.pcs t) action control')
    (hstep : step s.base (t, action) = some (base, event)) :
    WakeInv start (trace ++ [((t, label), .called action event)])
      ({ s with base := base }.setControl t control') := by
  have hinv : SyncInv start (trace ++ [((t, label), .called action event)])
      ({ s with base := base }.setControl t control') :=
    hwake.inv.called hinitial hcall hstep
  have hframe : SyncFrame s ({ s with base := base }.setControl t control') t control' :=
    SyncFrame.of_step hstep control'
  have hatomics := SyncState.atomics_eq hframe.controls
  have hlists := SyncState.lists_eq hframe.controls
  have hok : UnresizedOk s.base (t, action) := hcall.unresizedOk (hwake.inv.thread t)
  obtain ⟨q', pc', hmove, rfl⟩ := step_cases hstep
  have hargs := hwake.inv.argsOk hinitial hok hstep
  have hthread' := hcall.thread hmove (hwake.inv.thread t) hargs
  refine ⟨hinv, ?_, ?_, ?_⟩
  · intro r t' hcommitted ht'
    exact hwake.alone_called hinitial hcall hmove hargs hcommitted ht'
  · intro r harmed
    have hold : (s.controls r).dequeueArmed = true := by
      change (Function.update s.controls t control' r).dequeueArmed = true at harmed
      by_cases hr : r = t
      · rw [hr, Function.update_self] at harmed
        rw [hr]
        exact hcall.dequeueArmed harmed
      · rwa [Function.update_of_ne hr] at harmed
    rw [syncTrace_called, Ledger.ofTrace_append_singleton]
    refine (hwake.dequeue hold).step rfl id (fun hdue => Or.inr ?_)
      fun harmed' hreason => Or.inr ⟨harmed', fun hcommitted => ?_⟩
    · rw [hatomics]
      refine hdue.keep ?_ _
      rw [SyncState.atomics, hcall.atomic.1]
      rfl
    · exact hwake.dequeue_reason hinitial hcall hmove hargs hcommitted hreason
  · intro r value harmed
    have hold : (s.controls r).enqueueArmed = some value := by
      change (Function.update s.controls t control' r).enqueueArmed = some value at harmed
      by_cases hr : r = t
      · rw [hr, Function.update_self] at harmed
        rw [hr]
        exact hcall.enqueueArmed harmed
      · rwa [Function.update_of_ne hr] at harmed
    refine (hwake.enqueue hold).step rfl id (fun hdue => Or.inr ?_)
      fun harmed' hreason => Or.inr ⟨harmed', fun hcommitted => ?_⟩
    · rw [hlists]
      exact hdue.keep hcall.list.1 _
    · exact hwake.enqueue_reason hinitial hcall hmove hthread' harmed hcommitted hreason

end CalledStep

section Moved

variable {pc : Pc α σ} {control : SyncControl T K α} {cx : Option K} {capacity : Nat}

omit [DecidableEq T] [Buffer B α σ] in
theorem Retries.waits {outcome : Outcome α} (hretries : Retries outcome) :
    (.idle (some outcome) : Pc α σ).Waits := by
  cases hretries <;> exact trivial

omit [DecidableEq T] [Buffer B α σ] in
theorem SyncMoves.dequeueCommitted (hmove : SyncMoves cx capacity control pc control')
    (hcommitted : DequeueCommitted control' pc) : DequeueCommitted control pc := by
  rcases hcommitted with rfl | ⟨⟨count, rfl⟩, -⟩
  · cases hmove with
    | dequeueWait count outcome _ hretries => exact Or.inr ⟨⟨count, rfl⟩, hretries.waits⟩
  · cases hmove

omit [DecidableEq T] [Buffer B α σ] in
theorem SyncMoves.dequeueArmed (hmove : SyncMoves cx capacity control pc control')
    (harmed : control'.dequeueArmed = true) : control.dequeueArmed = true := by
  cases hmove with
  | notify _ _ _ _ => exact harmed
  | dequeueAgain count _ hlt =>
      have hle := of_decide_eq_true harmed
      omega
  | dequeueWait _ _ hle _ => exact decide_eq_true hle
  | dequeueRegistered _ => rfl
  | _ => cases harmed

omit [DecidableEq T] [Buffer B α σ] in
theorem SyncMoves.enqueueCommitted (hmove : SyncMoves cx capacity control pc control')
    (hcommitted : EnqueueCommitted control' pc) : EnqueueCommitted control pc := by
  cases hmove with
  | insufficient _ _ value' => exact ⟨value', rfl⟩
  | enqueueWait _ _ _ _ _ => exact trivial
  | _ => exact hcommitted.elim

omit [DecidableEq T] [Buffer B α σ] in
theorem SyncMoves.enqueueArmed {value : List α}
    (hmove : SyncMoves cx capacity control pc control')
    (harmed : control'.enqueueArmed = some value) : control.enqueueArmed = some value := by
  cases hmove with
  | insufficient _ _ _ => exact harmed
  | enqueueAgain _ count _ hlt =>
      change (if spinLimit ≤ count + 1 then _ else none) = some value at harmed
      rw [if_neg (Nat.not_le_of_lt hlt)] at harmed
      cases harmed
  | enqueueWait _ count _ hle _ =>
      change (if spinLimit ≤ count then _ else none) = some value
      rw [if_pos hle]
      exact harmed
  | enqueueRegistered _ _ => exact harmed
  | _ => cases harmed

omit [DecidableEq T] [Buffer B α σ] in
theorem SyncMoves.owesEnqueue (hmove : SyncMoves cx capacity control pc control')
    (howes : OwesEnqueue control pc) : OwesEnqueue control' pc := by
  cases hmove with
  | notify _ _ _ _ => exact trivial
  | closeEnqueuers _ => exact trivial
  | _ => exact howes.elim

theorem WakeInv.moved [LawfulBuffer B] (hwake : WakeInv start trace s)
    (hinitial : SyncInitial start) {label : SyncAction K α}
    (hmove : SyncMoves (s.polls t) s.base.queue.capacity (s.controls t) (s.base.pcs t)
      control') :
    WakeInv start (trace ++ [((t, label), .silent)]) (s.setControl t control') := by
  have hframe : SyncFrame s (s.setControl t control') t control' :=
    SyncFrame.of_control s t control'
  have hcontrol : ∀ {P : SyncControl T K α → Pc α σ → Prop} {r : T},
      (P control' (s.base.pcs t) → P (s.controls t) (s.base.pcs t)) →
      P ((s.setControl t control').controls r) (s.base.pcs r) →
        P (s.controls r) (s.base.pcs r) := by
    intro P r hself h
    by_cases hr : r = t
    · subst hr
      rw [hframe.control_self] at h
      exact hself h
    · rwa [hframe.control_other hr] at h
  refine ⟨hwake.inv.moved hinitial hmove, ?_, ?_, ?_⟩
  · intro r t' hcommitted ht'
    exact hwake.alone (hcontrol (P := DequeueCommitted) hmove.dequeueCommitted hcommitted) ht'
  · intro r harmed
    rw [syncTrace_silent]
    have hold := hcontrol (P := fun control _ => control.dequeueArmed = true)
      hmove.dequeueArmed harmed
    exact (hwake.dequeue hold).keep hframe rfl rfl hmove.atomic.1 rfl id
      (hcontrol (P := DequeueCommitted) hmove.dequeueCommitted)
  · intro r value harmed
    have hold := hcontrol (P := fun control _ => control.enqueueArmed = some value)
      hmove.enqueueArmed harmed
    exact (hwake.enqueue hold).keep hframe rfl rfl hmove.list.1 rfl id hmove.owesEnqueue
      (hcontrol (P := EnqueueCommitted) hmove.enqueueCommitted)

theorem WakeInv.begun (hwake : WakeInv start trace s) {label : SyncAction K α}
    (hbegins : SyncBegins s t control') (hframe : SyncFrame s s' t control')
    (hbase : s'.base = s.base) (hdequeuer : s'.dequeuer = s.dequeuer)
    (henqueuers : s'.enqueuers = s.enqueuers) :
    WakeInv start (trace ++ [((t, label), .silent)]) s' := by
  obtain ⟨⟨hatomic, -⟩, hlist, -⟩ := hbegins.calls
  have hother : ∀ {P : SyncControl T K α → Pc α σ → Prop} {r : T},
      ¬ P control' (s.base.pcs t) → P (s'.controls r) (s.base.pcs r) →
        r ≠ t ∧ P (s.controls r) (s.base.pcs r) := by
    intro P r hself h
    have hr : r ≠ t := by
      rintro rfl
      rw [hframe.control_self] at h
      exact hself h
    rw [hframe.control_other hr] at h
    exact ⟨hr, h⟩
  have howes : OwesEnqueue (s.controls t) (s.base.pcs t) →
      OwesEnqueue control' (s.base.pcs t) := by
    intro h
    cases hbegins with
    | enqueue _ _ hcontrol _ _ =>
        rw [hcontrol] at h
        exact h.elim
    | dequeue _ hcontrol _ _ =>
        rw [hcontrol] at h
        exact h.elim
    | resumeEnqueue _ hcontrol =>
        rw [hcontrol] at h
        exact h.elim
    | resumeDequeue hcontrol =>
        rw [hcontrol] at h
        exact h.elim
  have hdequeue : ¬ DequeueCommitted control' (s.base.pcs t) := by
    rintro (rfl | ⟨⟨count, rfl⟩, -⟩) <;> cases hbegins
  have henqueue : ¬ EnqueueCommitted control' (s.base.pcs t) := by
    cases hbegins <;> exact id
  refine ⟨hwake.inv.begun hbegins hframe hbase hdequeuer henqueuers, ?_, ?_, ?_⟩
  · intro r t' hcommitted ht'
    rw [hbase] at hcommitted ⊢
    exact hwake.alone (hother hdequeue hcommitted).2 ht'
  · intro r harmed
    rw [syncTrace_silent]
    have hnot : ¬ control'.dequeueArmed = true := by
      cases hbegins <;> exact Bool.false_ne_true
    obtain ⟨hr, hold⟩ := hother (P := fun control _ => control.dequeueArmed = true) hnot harmed
    exact (hwake.dequeue hold).keep hframe hbase hdequeuer hatomic (hframe.polls hr)
      (hframe.notified hr) fun h => (hother hdequeue h).2
  · intro r value harmed
    have hnot : ¬ control'.enqueueArmed = some value := by
      cases hbegins <;> exact nofun
    obtain ⟨hr, hold⟩ :=
      hother (P := fun control _ => control.enqueueArmed = some value) hnot harmed
    exact (hwake.enqueue hold).keep hframe hbase henqueuers hlist (hframe.polls hr)
      (hframe.notified hr) howes fun h => (hother henqueue h).2

end Moved

section Notified

variable [DecidableEq K] {r : T} {woken : Option (Waker T K)}

omit [DecidableEq T] [Buffer B α σ] [DecidableEq K] in
theorem SyncThread.dequeues_of_registers {cx : Option K} {control : SyncControl T K α}
    {pc : Pc α σ} (hthread : SyncThread cx control pc)
    (hregisters : control.atomic.registers ≠ none) : control.dequeues = true := by
  cases control with
  | dequeueRegister _ => rfl
  | enqueueNotify _ => exact absurd hthread.1.registers_eq hregisters
  | closeDequeuer _ => exact absurd hthread.1.registers_eq hregisters
  | _ => exact absurd rfl hregisters

omit [DecidableEq T] [Buffer B α σ] [DecidableEq K] in
theorem SyncControl.dequeues_of_armed {control : SyncControl T K α}
    (harmed : control.dequeueArmed = true) : control.dequeues = true := by
  cases control with
  | dequeueAttempt _ => rfl
  | dequeueTrying _ => rfl
  | dequeueNotify _ _ => rfl
  | dequeueRegister _ => rfl
  | dequeueWait => rfl
  | _ => cases harmed

theorem WakeInv.dequeue_registered (hwake : WakeInv start trace s)
    {call : AtomicCall T K} {dequeuer : AtomicWaker T K}
    (hcontrol : s.controls t = .dequeueRegister call)
    (hmove : AtomicMove s.dequeuer t call dequeuer .returned woken) (g : Ledger T α) :
    DequeueSafe (({ s with dequeuer := dequeuer }.setControl t
      (.dequeueRegister .returned)).signal woken) g t := by
  have hcall : s.atomics t = call := by
    rw [SyncState.atomics, hcontrol]
    rfl
  have hthread := hwake.inv.thread t
  rw [hcontrol] at hthread
  have hregisters : (s.atomics t).registers = some (s.polls t) := by
    rw [hcall]
    rcases hthread.1 with rfl | h
    · cases hmove
    · exact h
  rcases hwake.inv.atomic.register_returns (hcall.symm ▸ hmove) hregisters with
    rfl | harmed | ⟨t', ht', hother⟩
  · exact Or.inl (SyncState.notified_signal_waker _ t)
  · refine Or.inr (Or.inr ⟨?_, ?_⟩)
    · rw [SyncState.dequeuer_signal, SyncState.waker, SyncState.polls_signal]
      exact harmed
    · rw [SyncState.controls_signal]
      change DequeueCommitted (Function.update s.controls t _ t) _ → _
      rw [Function.update_self]
      rintro (h | ⟨⟨count, h⟩, -⟩) <;> cases h
  · have hself : (s.controls t).dequeues = true := by
      rw [hcontrol]
      rfl
    exact absurd (hwake.inv.single ((hwake.inv.thread t').dequeues_of_registers hother) hself)
      ht'

theorem WakeInv.atomic_step (hwake : WakeInv start trace s) {label : SyncAction K α}
    {place : AtomicCall T K → SyncControl T K α} {call call' : AtomicCall T K}
    {dequeuer : AtomicWaker T K} (hplace : AtomicPlace place)
    (hcontrol : s.controls t = place call)
    (hmove : AtomicMove s.dequeuer t call dequeuer call' woken) :
    WakeInv start (trace ++ [((t, label), .silent)])
      (({ s with dequeuer := dequeuer }.setControl t (place call')).signal woken) := by
  have hframe := SyncFrame.of_dequeuer s t dequeuer (place call') woken
  have hbase := SyncState.base_signal
    ({ s with dequeuer := dequeuer }.setControl t (place call')) woken
  have hcall : s.atomics t = call := by
    rw [SyncState.atomics, hcontrol]
    cases hplace <;> rfl
  have hplaced : (place call').atomic = call' := by cases hplace <;> rfl
  have hnot : ∀ {r}, DequeueCommitted
      ((({ s with dequeuer := dequeuer }.setControl t (place call')).signal woken).controls r)
      (s.base.pcs r) → r ≠ t := by
    rintro r hcommitted rfl
    rw [hframe.control_self] at hcommitted
    rcases hcommitted with h | ⟨⟨count, h⟩, -⟩ <;> cases hplace <;> cases h
  refine ⟨hwake.inv.atomic_step hplace hcontrol hmove, ?_, ?_, ?_⟩
  · intro r t' hcommitted ht'
    rw [hbase] at hcommitted ⊢
    have hr := hnot hcommitted
    rw [hframe.control_other hr] at hcommitted
    exact hwake.alone hcommitted ht'
  · intro r harmed
    rw [syncTrace_silent]
    by_cases hr : r = t
    · subst hr
      rw [hframe.control_self] at harmed
      cases hplace with
      | dequeueRegister =>
          cases call' with
          | returned => exact hwake.dequeue_registered hcontrol hmove _
          | _ => cases harmed
      | _ => cases harmed
    · rw [hframe.control_other hr] at harmed
      refine (hwake.dequeue harmed).step (hframe.polls hr) (hframe.notified hr) ?_ ?_
      · intro hdue
        rw [SyncState.dequeuer_signal, SyncState.atomics_eq hframe.controls, hplaced]
        refine (hwake.inv.atomic.due_step (hcall.symm ▸ hmove) hdue).imp_left ?_
        rintro rfl
        exact SyncState.notified_signal_waker
          ({ s with dequeuer := dequeuer }.setControl t (place call')) r
      · intro harmed' hreason
        rw [SyncState.dequeuer_signal, SyncState.atomics_eq hframe.controls, hplaced]
        by_cases hstart : call = .wakeStart
        · subst hstart
          exact Or.inl (hmove.due_of_wakeStart harmed')
        · have hregisters : (s.atomics t).registers = none := by
            by_contra hsome
            exact hr (hwake.inv.single (SyncControl.dequeues_of_armed harmed)
              ((hwake.inv.thread t).dequeues_of_registers hsome))
          refine Or.inr ⟨hwake.inv.atomic.armed_step (hcall.symm ▸ hmove) harmed' hregisters
            (by rw [hcall]; exact hstart), fun hcommitted => ?_⟩
          rw [hbase] at hcommitted
          rw [hframe.control_other hr] at hcommitted
          refine (hreason hcommitted).imp_right (hframe.owes hbase ?_)
          rintro (h | h | h)
          · exact Or.inl h
          · rw [SyncState.atomics, h] at hcall
            exact absurd hcall.symm hstart
          · rw [SyncState.atomics, h] at hcall
            exact absurd hcall.symm hstart
  · intro r value harmed
    have hr : r ≠ t := by
      rintro rfl
      rw [hframe.control_self] at harmed
      cases hplace <;> cases harmed
    rw [hframe.control_other hr] at harmed
    refine (hwake.enqueue harmed).keep hframe hbase (SyncState.enqueuers_signal _ _) ?_
      (hframe.polls hr) (hframe.notified hr) ?_ ?_
    · rw [SyncState.lists, hcontrol]
      cases hplace <;> rfl
    · rw [hcontrol]
      cases hplace <;> exact id
    · rw [hframe.control_other hr]
      exact id

theorem WakeInv.enqueue_pushed (hwake : WakeInv start trace s) {value : List α}
    {cx : Option K} {enqueuers : WakerList T K}
    (hcontrol : s.controls t = .enqueueRegister value (.registerPush cx))
    (hmove : ListMove s.enqueuers t (.registerPush cx) enqueuers .registerUnlock woken) :
    EnqueueSafe (({ s with enqueuers := enqueuers }.setControl t
      (.enqueueRegister value .registerUnlock)).signal woken) t value := by
  have hframe := SyncFrame.of_enqueuers s t enqueuers
    (.enqueueRegister value .registerUnlock) woken
  have hcall : s.lists t = .registerPush cx := by
    rw [SyncState.lists, hcontrol]
    rfl
  have hthread := hwake.inv.thread t
  rw [hcontrol] at hthread
  have hcx : cx = s.polls t := hthread.2.1
  unfold EnqueueSafe
  rw [SyncState.enqueuers_signal, SyncState.lists_eq hframe.controls, SyncState.waker,
    SyncState.polls_signal]
  rcases hwake.inv.list.armed_of_push hcall (hcall.symm ▸ hmove) with harmed | hdue
  · rw [hcx] at harmed
    refine Or.inr (Or.inr ⟨harmed, ?_⟩)
    rw [hframe.control_self]
    exact fun h => h.elim
  · rw [hcx] at hdue
    exact Or.inr (Or.inl hdue)

theorem WakeInv.enqueue_kept (hwake : WakeInv start trace s) {value : List α}
    {place : ListCall T K → SyncControl T K α} {call call' : ListCall T K}
    {enqueuers : WakerList T K} (hplace : ListPlace place)
    (hcontrol : s.controls t = place call)
    (hmove : ListMove s.enqueuers t call enqueuers call' woken)
    (harmed : (s.controls r).enqueueArmed = some value)
    (hcommitted : EnqueueCommitted (Function.update s.controls t (place call') r)
      (s.base.pcs r) → EnqueueCommitted (s.controls r) (s.base.pcs r)) :
    EnqueueSafe (({ s with enqueuers := enqueuers }.setControl t (place call')).signal woken)
      r value := by
  have hframe := SyncFrame.of_enqueuers s t enqueuers (place call') woken
  have hbase := SyncState.base_signal
    ({ s with enqueuers := enqueuers }.setControl t (place call')) woken
  have hcall : s.lists t = call := by
    rw [SyncState.lists, hcontrol]
    cases hplace <;> rfl
  have hplaced : (place call').list = call' := by cases hplace <;> rfl
  refine (hwake.enqueue harmed).step (by rw [SyncState.polls_signal]; rfl)
    (fun h => SyncState.notified_signal _ woken h) ?_ ?_
  · intro hdue
    rw [SyncState.enqueuers_signal, SyncState.lists_eq hframe.controls, hplaced]
    refine (ListMove.due_step (hcall.symm ▸ hmove) hdue).imp_left ?_
    rintro rfl
    exact SyncState.notified_signal_waker
      ({ s with enqueuers := enqueuers }.setControl t (place call')) r
  · intro harmed' hreason
    rw [SyncState.enqueuers_signal, SyncState.lists_eq hframe.controls, hplaced]
    by_cases hexchange : call = .wakeExchange
    · subst hexchange
      exact Or.inl (hmove.due_of_exchange harmed')
    · rcases ListMove.armed_step (hcall.symm ▸ hmove) harmed' with hkept | hdue
      · refine Or.inr ⟨hkept, fun h => ?_⟩
        rw [hbase, hframe.controls] at h
        refine (hreason (hcommitted h)).imp (fun hblocks => ?_) (hframe.owes hbase ?_)
        · rw [hbase]
          exact hblocks
        · rw [hcontrol]
          have hload : call.Approaches → call'.Approaches := by
            intro h
            cases call with
            | wakeLoad =>
                rw [hmove.exchange_of_load harmed']
                exact trivial
            | wakeExchange => exact absurd rfl hexchange
            | _ => exact h.elim
          cases hplace with
          | enqueueRegister _ => exact id
          | dequeueNotify _ => exact hload
          | closeEnqueuers => exact hload
      · exact Or.inl hdue

theorem WakeInv.list_step (hwake : WakeInv start trace s) {label : SyncAction K α}
    {place : ListCall T K → SyncControl T K α} {call call' : ListCall T K}
    {enqueuers : WakerList T K} (hplace : ListPlace place)
    (hcontrol : s.controls t = place call)
    (hmove : ListMove s.enqueuers t call enqueuers call' woken) :
    WakeInv start (trace ++ [((t, label), .silent)])
      (({ s with enqueuers := enqueuers }.setControl t (place call')).signal woken) := by
  have hframe := SyncFrame.of_enqueuers s t enqueuers (place call') woken
  have hbase := SyncState.base_signal
    ({ s with enqueuers := enqueuers }.setControl t (place call')) woken
  have hdequeue : ∀ {r}, DequeueCommitted
      ((({ s with enqueuers := enqueuers }.setControl t (place call')).signal woken).controls r)
      (s.base.pcs r) → DequeueCommitted (s.controls r) (s.base.pcs r) := by
    intro r hcommitted
    by_cases hr : r = t
    · rw [hr, hframe.control_self] at hcommitted
      rcases hcommitted with h | ⟨⟨count, h⟩, -⟩ <;> cases hplace <;> cases h
    · rwa [hframe.control_other hr] at hcommitted
  refine ⟨hwake.inv.list_step hplace hcontrol hmove, ?_, ?_, ?_⟩
  · intro r t' hcommitted ht'
    rw [hbase] at hcommitted ⊢
    exact hwake.alone (hdequeue hcommitted) ht'
  · intro r harmed
    rw [syncTrace_silent]
    have hold : (s.controls r).dequeueArmed = true := by
      by_cases hr : r = t
      · rw [hr, hframe.control_self] at harmed
        rw [hr, hcontrol]
        cases hplace with
        | dequeueNotify _ => exact harmed
        | _ => cases harmed
      · rwa [hframe.control_other hr] at harmed
    refine (hwake.dequeue hold).keep hframe hbase (SyncState.dequeuer_signal _ _) ?_
      (by rw [SyncState.polls_signal]; rfl) (fun h => SyncState.notified_signal _ woken h) hdequeue
    rw [SyncState.atomics, hcontrol]
    cases hplace <;> rfl
  · intro r value harmed
    by_cases hr : r = t
    · subst hr
      rw [hframe.control_self] at harmed
      cases hplace with
      | enqueueRegister value' =>
          have hcommitted : EnqueueCommitted
              (Function.update s.controls r (.enqueueRegister value' call') r) (s.base.pcs r) →
              EnqueueCommitted (s.controls r) (s.base.pcs r) := by
            rw [Function.update_self]
            exact fun h => h.elim
          cases hmove with
          | push cx =>
              cases harmed
              exact hwake.enqueue_pushed hcontrol (.push cx)
          | unlock =>
              refine hwake.enqueue_kept (.enqueueRegister value') hcontrol .unlock ?_ hcommitted
              rw [hcontrol]
              exact harmed
          | loadNothing hflag =>
              have hthread := hwake.inv.thread r
              rw [hcontrol] at hthread
              exact hthread.2.1.elim
          | exchangeNothing hflag =>
              have hthread := hwake.inv.thread r
              rw [hcontrol] at hthread
              exact hthread.2.1.elim
          | finish =>
              have hthread := hwake.inv.thread r
              rw [hcontrol] at hthread
              exact hthread.2.1.elim
          | _ => cases harmed
      | _ => cases harmed
    · rw [hframe.control_other hr] at harmed
      refine hwake.enqueue_kept hplace hcontrol hmove harmed ?_
      rw [Function.update_of_ne hr]
      exact id

end Notified

omit [DecidableEq T] in
theorem not_dequeueCommitted_outside (pc : Pc α σ) :
    ¬ DequeueCommitted (.outside : SyncControl T K α) pc := by
  rintro (h | ⟨⟨count, h⟩, -⟩) <;> cases h

theorem WakeInv.of_initial (hinitial : SyncInitial start) : WakeInv start [] start where
  inv := SyncInv.of_initial hinitial
  alone hcommitted := by
    rw [hinitial.controls] at hcommitted
    exact absurd hcommitted (not_dequeueCommitted_outside _)
  dequeue harmed := by
    rw [hinitial.controls] at harmed
    cases harmed
  enqueue harmed := by
    rw [hinitial.controls] at harmed
    cases harmed

variable [DecidableEq K] [LawfulBuffer B]

theorem wakeInv_of_run (hinitial : SyncInitial start)
    (hrun : Runs.Run syncStep SyncOk start trace s) : WakeInv start trace s := by
  refine hrun.invariant (WakeInv start) (WakeInv.of_initial hinitial) ?_
  rintro trace s s' ⟨t, action⟩ event _ hwake hok hstep
  cases syncStep_cases hstep hok with
  | called hcall hbase => exact hwake.called hinitial hcall hbase
  | moved hmove => exact hwake.moved hinitial hmove
  | atomic hplace hcontrol hmove => exact hwake.atomic_step hplace hcontrol hmove
  | listed hplace hcontrol hmove => exact hwake.list_step hplace hcontrol hmove
  | polled cx hbegins =>
      exact hwake.begun hbegins (SyncFrame.of_poll s t cx _) rfl rfl rfl
  | unparked hbegins => exact hwake.begun hbegins (SyncFrame.of_unpark s t _) rfl rfl rfl

end SwapBufferQueue
