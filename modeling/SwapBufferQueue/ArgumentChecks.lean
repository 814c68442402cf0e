/-
The argument checks that run with the lock held.  `try_dequeue_and_resize` checks its
capacity after `lock_dequeuing`, and `with_owned` its owner after the iterator is in a
`ManuallyDrop`; nothing gives the lock back when they fail.  The queue is usable for ever
exactly when no such check ever fails and what is inserted while resizing fits.
-/
import SwapBufferQueue.Retrieval

namespace SwapBufferQueue

universe u v w x

open Tiling

variable {T : Type x} {B : Type u} {α : Type v} {σ : Type w} [Buffer B α σ]

/-- What the types of the arguments promise: a value is smaller than 2^63, half of what a
`usize` counts, and only a `Resize` buffer is asked for another capacity. -/
structure TypesOk (s : State T B α σ) (label : T × Action α) : Prop where
  size : SizeOk s label
  resizes : ∀ resize ∈ label.2.resize?, resize.capacity = none ∨
    ∀ (b : B) capa, (Buffer.resize b capa).isSome = true

/-- The step that takes the lock, with the arguments of its call. -/
def lockingStep : Pc α σ → Action α → Option (ResizeArgs α)
  | .dequeueLock resize, .run _ => some resize
  | _, _ => none

/-- The capacity is accepted and the values taken by the insertion loop fit in the
buffer of that capacity. -/
def Queue.Accepts (q : Queue B) (dequeuing : DequeuingLength) (resize : ResizeArgs α) :
    Prop :=
  (∀ capa ∈ resize.capacity, checkOverflow capa = true) ∧
    (takenElements (q.capacityAfter dequeuing resize) resize.insert).length ≤
      q.capacityAfter dequeuing resize

/-- No check fails with the lock held: the new owner of an iterator references its
queue, and a call that takes the lock of a queue without a pending batch has arguments
that are accepted. -/
structure ChecksOk (s : State T B α σ) (label : T × Action α) : Prop where
  owner : OwnerOk s label
  accepted : ∀ resize ∈ lockingStep (s.pcs label.1) label.2,
    s.queue.dequeuingLength ≠ dequeuingLocked →
      (DequeuingLength.mk s.queue.dequeuingLength).bufferLen = 0 →
        s.queue.Accepts ⟨s.queue.dequeuingLength⟩ resize

instance instDecidableAccepts (q : Queue B) (dequeuing : DequeuingLength)
    (resize : ResizeArgs α) : Decidable (q.Accepts dequeuing resize) :=
  inferInstanceAs (Decidable (_ ∧ _))

instance instDecidableChecksOk [DecidableEq α] (s : State T B α σ)
    (label : T × Action α) : Decidable (ChecksOk s label) :=
  have : Decidable (OwnerOk s label) :=
    inferInstanceAs (Decidable (label.2 ≠ .withOwned false))
  decidable_of_iff (OwnerOk s label ∧
      ∀ resize ∈ lockingStep (s.pcs label.1) label.2,
        s.queue.dequeuingLength ≠ dequeuingLocked →
          (DequeuingLength.mk s.queue.dequeuingLength).bufferLen = 0 →
            s.queue.Accepts ⟨s.queue.dequeuingLength⟩ resize)
    ⟨fun ⟨owner, accepted⟩ => ⟨owner, accepted⟩,
      fun ⟨owner, accepted⟩ => ⟨owner, accepted⟩⟩

/-- The lock is taken only while a dequeue or a release is in progress or a slice or an
iterator is live, and what was accepted has been consumed, once and in order, or can
still be taken out. -/
structure Recoverable [DecidableEq T] (trace : List ((T × Action α) × Event α))
    (s : State T B α σ) : Prop where
  held : s.queue.dequeuingLength = dequeuingLocked → ∃ t, (s.pcs t).live = true
  rest : ∃ rest,
    consumedElements trace ++ rest = (Ledger.ofTrace trace).accepted.flatten ∧
      ∀ t, (s.pcs t).available = true → Retrievable s rest

/-- The program counters that end in a panic with the lock held, whatever happens. -/
def Doomed (q : Queue B) : Pc α σ → Prop
  | .dequeueResize dequeuing resize => ¬ q.Accepts dequeuing resize
  | .dequeueInsert dequeuing _ values length =>
      Buffer.capacity (q.buffers dequeuing.bufferIndex) < length +
        (takenElements (Buffer.capacity (q.buffers dequeuing.bufferIndex)) values).length
  | .dequeuePublish attempt => attempt.nextCapa < attempt.insertedLength
  | .dequeueLoad attempt => attempt.nextCapa < attempt.insertedLength
  | .panicked _ => True
  | _ => False

section Steps

variable {q q' : Queue B} {pc pc' : Pc α σ} {action : Action α} {event : Event α}

theorem Doomed.holds (hdoomed : Doomed q pc) : pc.holds = true := by
  cases pc with
  | idle _ => exact hdoomed.elim
  | enqueueLoad _ => exact hdoomed.elim
  | enqueueReserve _ _ _ => exact hdoomed.elim
  | enqueueInsert _ _ => exact hdoomed.elim
  | enqueueAcknowledge _ _ => exact hdoomed.elim
  | dequeueLock _ => exact hdoomed.elim
  | _ => rfl

theorem Queue.accepts_congr {dequeuing : DequeuingLength} {resize : ResizeArgs α}
    (hcapacity : ∀ i, Buffer.capacity (q'.buffers i) = Buffer.capacity (q.buffers i)) :
    q'.Accepts dequeuing resize ↔ q.Accepts dequeuing resize := by
  rw [Queue.Accepts, Queue.Accepts, Queue.capacityAfter, Queue.capacityAfter, hcapacity]

/-- Whether a call is doomed depends on the capacities alone. -/
theorem doomed_congr (pc : Pc α σ)
    (hcapacity : ∀ i, Buffer.capacity (q'.buffers i) = Buffer.capacity (q.buffers i)) :
    Doomed q' pc ↔ Doomed q pc := by
  cases pc with
  | dequeueResize dequeuing resize => exact not_congr (Queue.accepts_congr hcapacity)
  | dequeueInsert dequeuing resized values length =>
      simp only [Doomed, hcapacity]
  | _ => exact Iff.rfl

theorem exists_stagingOk (hholds : pc.holds = true) (hnot : ¬ Doomed q pc) :
    ∃ capacity, StagingOk capacity q pc := by
  cases pc with
  | dequeueResize dequeuing resize =>
      obtain ⟨haccept, hfits⟩ := not_not.mp hnot
      exact ⟨_, haccept, Or.inr ⟨rfl, hfits⟩⟩
  | dequeueInsert dequeuing resized values length =>
      have hfits := Nat.le_of_not_lt hnot
      exact ⟨_, Nat.le_trans (Nat.le_add_right _ _) hfits, Or.inr ⟨rfl, hfits⟩⟩
  | dequeuePublish attempt => exact ⟨0, Nat.le_of_not_lt hnot⟩
  | dequeueLoad attempt => exact ⟨0, Nat.le_of_not_lt hnot⟩
  | panicked _ => exact absurd trivial hnot
  | dequeueLock _ => cases hholds
  | _ => exact ⟨0, trivial⟩

theorem StagingOk.not_doomed {capacity : Nat} (hok : StagingOk capacity q pc) :
    ¬ Doomed q pc := by
  cases pc with
  | dequeueResize dequeuing resize =>
      refine not_not.mpr ⟨hok.1, ?_⟩
      rcases hok.2 with hnil | ⟨hcapacity, hfits⟩
      · rw [hnil]
        exact Nat.zero_le _
      · rw [hcapacity]
        exact hfits
  | dequeueInsert dequeuing resized values length =>
      refine Nat.not_lt_of_le ?_
      rcases hok.2 with hnil | ⟨hcapacity, hfits⟩
      · rw [hnil]
        exact hok.1
      · rw [hcapacity]
        exact hfits
  | dequeuePublish attempt => exact Nat.not_lt_of_le hok
  | dequeueLoad attempt => exact Nat.not_lt_of_le hok
  | panicked _ => exact hok.elim
  | _ => exact not_false

theorem Doomed.of_resize {dequeuing : DequeuingLength} {resize : ResizeArgs α}
    (hdoomed : Doomed q (.dequeueResize dequeuing resize : Pc α σ)) (resized : Bool)
    (haccept : ∀ capa ∈ resize.capacity, checkOverflow capa = true)
    (hcapacity : Buffer.capacity (q'.buffers dequeuing.bufferIndex) =
      q.capacityAfter dequeuing resize) :
    Doomed q' (.dequeueInsert dequeuing resized resize.insert 0 : Pc α σ) := by
  change Buffer.capacity _ < 0 + List.length (takenElements (Buffer.capacity _) _)
  rw [hcapacity, Nat.zero_add]
  exact Nat.lt_of_not_le fun hfits => hdoomed ⟨haccept, hfits⟩

theorem not_doomed_enqueueCheck (value : List α) (enqueuing : EnqueuingCapacity) :
    ¬ Doomed q (enqueueCheck value enqueuing : Pc α σ) :=
  enqueueCheck_elim (P := fun pc => ¬ Doomed q pc) (fun _ => not_false)
    (fun _ _ => not_false) fun _ _ _ => not_false

theorem doomed_dequeueEntry_iff (dequeuing : DequeuingLength) (resize : ResizeArgs α) :
    Doomed q (dequeueEntry dequeuing resize : Pc α σ) ↔
      dequeuing.bufferLen = 0 ∧ ¬ q.Accepts dequeuing resize := by
  refine dequeueEntry_elim (P := fun pc => Doomed q pc ↔
    dequeuing.bufferLen = 0 ∧ ¬ q.Accepts dequeuing resize) ?_ ?_
  · intro hvacant
    exact ⟨fun hdoomed => ⟨hvacant, hdoomed⟩, fun hboth => hboth.2⟩
  · intro hpos
    exact ⟨fun hdoomed => hdoomed.elim, fun hboth => absurd hboth.1 (Nat.ne_of_gt hpos)⟩

variable [LawfulBuffer B]

theorem Transition.doomed (hmove : Transition q pc action q' pc' event)
    (hcapacity : ∀ i, Buffer.capacity (q.buffers i) < 2 ^ 62 - 1)
    (hdoomed : Doomed q pc) : Doomed q' pc' := by
  cases hmove with
  | silent hlocal =>
      cases hlocal with
      | keepCapacity dequeuing resize spurious hkeep =>
          refine hdoomed.of_resize false ?_ ?_
          · intro capa hcapa
            rw [hkeep capa hcapa, checkOverflow_iff]
            exact hcapacity _
          · rw [Queue.capacityAfter]
            cases hcapa : resize.capacity with
            | none => rfl
            | some capa => exact (hkeep capa hcapa).symm
      | skipEmpty dequeuing resized rest length spurious =>
          change _ < length + _ at hdoomed
          rwa [takenElements_cons (Nat.zero_le _), List.nil_append] at hdoomed
      | stageEnd dequeuing resized values length spurious hvalues =>
          cases values with
          | nil => exact hdoomed
          | cons value rest =>
              change _ < length + _ at hdoomed
              rwa [takenElements_cons_of_lt (hvalues value rfl)] at hdoomed
      | publishNothing _ _ _ => exact hdoomed
      | dequeueLoad attempt _ _ _ _ hle _ => exact absurd hle (Nat.not_le_of_lt hdoomed)
      | _ => first | exact trivial | exact hdoomed.elim
  | resize dequeuing resize spurious capa b hcapa hne hcheck hresize =>
      refine hdoomed.of_resize true ?_ ?_
      · intro capa' hcapa'
        rw [hcapa] at hcapa'
        cases hcapa'
        exact hcheck
      · rw [Queue.buffers_setBuffer, if_pos rfl, LawfulBuffer.capacity_resize hresize,
          Queue.capacityAfter, hcapa]
        rfl
  | stage dequeuing resized value rest length spurious b hvalue hle hinsert =>
      change _ < length + _ at hdoomed
      rw [takenElements_cons hle, List.length_append] at hdoomed
      change Buffer.capacity _ < length + value.length +
        List.length (takenElements (Buffer.capacity _) _)
      rw [Queue.capacity_setBuffer (LawfulBuffer.capacity_insertInto hinsert)]
      omega
  | publish _ _ _ => exact hdoomed
  | foundEmpty attempt _ _ _ _ hinserted =>
      change attempt.nextCapa < attempt.insertedLength at hdoomed
      omega
  | _ => exact hdoomed.elim

variable {s : State T B α σ} {g : Ledger T α} {t : T}

theorem not_doomed_requeueRange {i : Fin 2} {start stop : Nat}
    (hself : ThreadInv q g t (requeueRange i start stop : Pc α σ)) :
    ¬ Doomed q (requeueRange i start stop : Pc α σ) := by
  obtain ⟨-, ⟨capacity, hok⟩, -⟩ := canFinish_requeueRange hself
  exact hok.not_doomed

/-- A step of an activity that is not in a call to the dequeuing side, or of a slice or
an iterator, dooms nothing when its checks pass. -/
theorem Local.not_doomed (hmove : Local q pc action pc') (hself : ThreadInv q g t pc')
    (howner : action ≠ .withOwned false) (hpc : pc.dequeuing = false) :
    ¬ Doomed q pc' := by
  cases hmove with
  | enqueueLoad _ _ => exact not_doomed_enqueueCheck _ _
  | enqueueRetry _ _ _ _ => exact not_doomed_enqueueCheck _ _
  | indexUnderflow _ _ _ _ => cases hself.cause
  | insertOutOfBounds _ _ _ _ => cases hself.cause
  | dropIter _ _ _ => exact not_doomed_requeueRange hself
  | requeue _ _ _ _ => exact not_doomed_requeueRange hself
  | lockedAssert _ _ _ _ => cases hself.cause
  | removeOutOfBounds _ _ _ _ _ => cases hself.cause
  | foreignOwner _ _ _ => exact absurd rfl howner
  | _ => first | exact not_false | cases hpc

variable [DecidableEq T] {s' : State T B α σ}

/-- A call whose checks pass is not doomed by its next step. -/
theorem Sim.not_doomed_self (hsim' : Sim s' g) (hnot : ¬ Doomed s.queue (s.pcs t))
    (hstep : SwapBufferQueue.step s (t, action) = some (s', event))
    (hchecks : ChecksOk s (t, action)) : ¬ Doomed s'.queue (s'.pcs t) := by
  by_cases hdequeuing : (s.pcs t).dequeuing = true
  · obtain ⟨spurious, rfl⟩ : ∃ spurious, action = .run spurious := by
      obtain ⟨q', pc', hmove, -⟩ := step_cases hstep
      generalize s.pcs t = pc at hmove hdequeuing
      cases hmove with
      | silent hlocal =>
          cases hlocal <;> first | exact ⟨_, rfl⟩ | cases hdequeuing
      | _ => first | exact ⟨_, rfl⟩ | cases hdequeuing
    obtain ⟨q', pc', hrun, rfl⟩ := run_of_step hstep
    have hself := hsim'.self
    simp only [Function.update_self]
    by_cases hholds : (s.pcs t).holds = true
    · obtain ⟨capacity, hok⟩ := exists_stagingOk hholds hnot
      exact (Transition.stagingOk hrun hself hok).not_doomed
    · have hmove := Queue.run_cases hrun
      have haccepted := hchecks.accepted
      generalize s.pcs t = pc at hmove hdequeuing hholds haccepted
      cases pc with
      | dequeueLock resize =>
          cases hmove with
          | conflict _ _ _ => exact not_false
          | lock _ _ hopen =>
              rw [doomed_dequeueEntry_iff]
              rintro ⟨hvacant, hrefused⟩
              exact hrefused (haccepted resize rfl hopen hvacant)
          | silent hlocal => cases hlocal
      | idle _ => cases hdequeuing
      | enqueueLoad _ => cases hdequeuing
      | enqueueReserve _ _ _ => cases hdequeuing
      | enqueueInsert _ _ => cases hdequeuing
      | enqueueAcknowledge _ _ => cases hdequeuing
      | _ => exact absurd rfl hholds
  · obtain ⟨q', pc', hmove, rfl⟩ := step_cases hstep
    have hself := hsim'.self
    have hother := Bool.eq_false_iff.mpr hdequeuing
    simp only [Function.update_self]
    generalize s.pcs t = pc at hmove hother
    cases hmove with
    | silent hlocal => exact hlocal.not_doomed hself hchecks.owner hother
    | _ => first | exact not_false | cases hother

omit [LawfulBuffer B] in
theorem checksOk_of_not_doomed
    (hstep : SwapBufferQueue.step s (t, action) = some (s', event))
    (hnot : ¬ Doomed s'.queue (s'.pcs t)) : ChecksOk s (t, action) := by
  obtain ⟨q', pc', hmove, rfl⟩ := step_cases hstep
  simp only [Function.update_self] at hnot
  constructor
  · rintro rfl
    generalize s.pcs t = pc at hmove
    cases hmove with
    | silent hlocal =>
        cases hlocal with
        | foreignOwner _ _ _ => exact hnot trivial
  · intro resize hresize hopen hvacant
    generalize s.pcs t = pc at hmove hresize
    cases pc with
    | dequeueLock resize' =>
        cases action with
        | run spurious =>
            cases hresize
            by_contra hrefused
            cases hmove with
            | conflict _ _ hlocked => exact hopen hlocked
            | lock _ _ _ =>
                exact hnot ((doomed_dequeueEntry_iff _ _).mpr ⟨hvacant, hrefused⟩)
            | silent hlocal => cases hlocal
        | _ => cases hresize
    | _ => cases hresize

/-- Nobody is doomed after a step exactly when nobody was before it and its checks
pass. -/
theorem Sim.doomed_step (hsim : Sim s g) (hsize : SizeOk s (t, action))
    (hstep : SwapBufferQueue.step s (t, action) = some (s', event)) :
    (∀ t', ¬ Doomed s'.queue (s'.pcs t')) ↔
      (∀ t', ¬ Doomed s.queue (s.pcs t')) ∧ ChecksOk s (t, action) := by
  have hsim' := hsim.step hsize hstep
  obtain ⟨q', pc', hmove, hstate⟩ := step_cases hstep
  have hothers : ∀ t', t' ≠ t →
      (Doomed s'.queue (s'.pcs t') ↔ Doomed s.queue (s.pcs t')) := by
    intro t' hne
    have hpc : s'.pcs t' = s.pcs t' := by
      rw [hstate]
      exact Function.update_of_ne hne _ _
    rw [hpc]
    by_cases hholds : (s.pcs t').holds = true
    · rw [hstate]
      apply doomed_congr
      apply hmove.capacity_eq
      exact Bool.eq_false_iff.mpr fun hmine => hne (hsim.exclusive hholds hmine)
    · exact ⟨fun hdoomed => absurd hdoomed.holds hholds,
        fun hdoomed => absurd hdoomed.holds hholds⟩
  constructor
  · intro hall
    refine ⟨?_, checksOk_of_not_doomed hstep (hall t)⟩
    intro t' hdoomed
    by_cases ht' : t' = t
    · subst ht'
      apply hall t'
      rw [hstate]
      simp only [Function.update_self]
      exact hmove.doomed hsim.shared.capacity_lt hdoomed
    · exact hall t' ((hothers t' ht').mpr hdoomed)
  · rintro ⟨hall, hchecks⟩ t'
    by_cases ht' : t' = t
    · subst ht'
      exact hsim'.not_doomed_self (hall t') hstep hchecks
    · rw [hothers t' ht']
      exact hall t'

end Steps

section Runs

variable [DecidableEq T] [LawfulBuffer B] {start s s' : State T B α σ} {g : Ledger T α}
  {t : T} {trace more : List ((T × Action α) × Event α)}

omit [DecidableEq T] [LawfulBuffer B] in
/-- Only a call on a resizable buffer asks for a capacity. -/
theorem Transition.canResize_of_types {q q' : Queue B} {pc pc' : Pc α σ}
    {action : Action α} {event : Event α} (hmove : Transition q pc action q' pc' event)
    (htypes : TypesOk s (t, action)) (hpc : pc.CanResize B) : pc'.CanResize B := by
  cases hmove with
  | silent hlocal =>
      cases hlocal with
      | enqueueLoad _ _ =>
          exact enqueueCheck_elim (P := Pc.CanResize B) (fun _ => trivial)
            (fun _ _ => trivial) fun _ _ _ => trivial
      | enqueueRetry _ _ _ _ =>
          exact enqueueCheck_elim (P := Pc.CanResize B) (fun _ => trivial)
            (fun _ _ => trivial) fun _ _ _ => trivial
      | tryDequeue _ => exact Or.inl rfl
      | tryDequeueAndResize _ resize => exact htypes.resizes resize rfl
      | dequeueNotify _ _ _ _ => exact canResize_dequeueFinish _ _ _
      | dropIter _ _ _ =>
          exact requeueRange_elim (P := Pc.CanResize B) (fun _ => trivial)
            (fun _ => trivial) fun _ => trivial
      | requeue _ _ _ _ =>
          exact requeueRange_elim (P := Pc.CanResize B) (fun _ => trivial)
            (fun _ => trivial) fun _ => trivial
      | _ => exact trivial
  | lock _ _ _ => exact canResize_dequeueEntry _ hpc
  | _ => exact trivial

omit [LawfulBuffer B] in
theorem canResize_of_run (hinitial : Initial start)
    (hrun : Runs.Run SwapBufferQueue.step TypesOk start trace s) (t : T) :
    (s.pcs t).CanResize B :=
  pcs_of_run (P := Pc.CanResize B) trivial
    (fun htypes hmove hpc => hmove.canResize_of_types htypes hpc) hinitial hrun t

/-- A doomed call never gives the lock back. -/
theorem Sim.locked_of_doomed (hsim : Sim s g) (hdoomed : ∃ t, Doomed s.queue (s.pcs t))
    (hrun : Runs.Run SwapBufferQueue.step Serving s more s') :
    s'.queue.dequeuingLength = dequeuingLocked := by
  have hinv : Sim s' (g.after more) ∧ ∃ t, Doomed s'.queue (s'.pcs t) := by
    refine hrun.invariant (fun more s' => Sim s' (g.after more) ∧
      ∃ t, Doomed s'.queue (s'.pcs t)) ⟨hsim, hdoomed⟩ ?_
    rintro more state state' ⟨t, action⟩ event - ⟨hstate, hdoomed⟩ hserving hstep
    rw [Ledger.after_append]
    refine ⟨hstate.step hserving.sizeOk hstep, ?_⟩
    by_contra hnone
    rw [not_exists, hstate.doomed_step hserving.sizeOk hstep] at hnone
    obtain ⟨t', hdoomed⟩ := hdoomed
    exact hnone.1 t' hdoomed
  obtain ⟨hsim', t, hdoomed'⟩ := hinv
  exact hsim'.locked_of_holds hdoomed'.holds

/-- The queue is recoverable exactly when no call is doomed. -/
theorem Sim.recoverable_iff (hsim : Sim s (Ledger.ofTrace trace))
    (hresizes : ∀ t, (s.pcs t).CanResize B) :
    Recoverable trace s ↔ ∀ t, ¬ Doomed s.queue (s.pcs t) := by
  constructor
  · intro hrecoverable t hdoomed
    obtain ⟨t', hlive⟩ := hrecoverable.held (hsim.locked_of_holds hdoomed.holds)
    have havailable : (s.pcs t').available = true := by
      generalize s.pcs t' = pc at hlive
      cases pc with
      | idle _ => rfl
      | _ => exact hlive
    obtain ⟨rest, -, hretrievable⟩ := hrecoverable.rest
    obtain ⟨more, s', hrun, hopen, -⟩ := hretrievable t' havailable
    exact hopen (hsim.locked_of_doomed ⟨t, hdoomed⟩ hrun)
  · intro hnone
    constructor
    · intro hlocked
      obtain ⟨t, hholds⟩ := hsim.locked_iff.mp hlocked
      refine ⟨t, ?_⟩
      have hnot := hnone t
      generalize s.pcs t = pc at hholds hnot
      cases pc with
      | panicked _ => exact absurd trivial hnot
      | _ => exact hholds
    · have horder := hsim.shared.order
      rw [Ledger.consumed_ofTrace, List.append_assoc] at horder
      refine ⟨_, horder, fun t havailable => hsim.retrievable havailable ?_⟩
      exact fun t' hholds => ⟨exists_stagingOk hholds (hnone t'), hresizes t'⟩

/-- The argument checks and the lock.  In every run, after its last step the lock is
taken only by a call in progress or by a live slice or iterator, and every accepted
element has been consumed once or can still be dequeued, exactly when no call of the
run fails a check with the lock held. -/
theorem recoverable_iff_checks_pass (hinitial : Initial start)
    (hrun : Runs.Run SwapBufferQueue.step TypesOk start trace s) :
    Recoverable trace s ↔
      Runs.Run SwapBufferQueue.step
        (fun state label => TypesOk state label ∧ ChecksOk state label) start trace s := by
  have hsim := sim_of_run hinitial (fun _ _ htypes => htypes.size) hrun
  rw [hsim.recoverable_iff (canResize_of_run hinitial hrun)]
  refine Runs.Run.finish_iff (P := fun state => ∀ t, ¬ Doomed state.queue (state.pcs t))
    ?_ ?_ hrun
  · intro t
    rw [hinitial.2]
    exact not_false
  · rintro trace state state' ⟨t, action⟩ event hearlier htypes hstep
    exact (sim_of_run hinitial (fun _ _ htypes => htypes.size) hearlier).doomed_step
      htypes.size hstep

end Runs

/-- A call that resizes and inserts, with the slice it returned still live. -/
theorem recoverable_iff_checks_pass_resized :
    ∃ (start : State Unit (VecBuffer Nat) Nat (List Nat)) (trace : _)
        (s : State Unit (VecBuffer Nat) Nat (List Nat)) (i : Fin 2),
      Initial start ∧ Runs.Run SwapBufferQueue.step TypesOk start trace s ∧
      s.pcs () = .slice i 0 1 [7] ∧ s.queue.capacity = 2 ∧ Recoverable trace s := by
  have hrun := Runs.run_of_isSome SwapBufferQueue.step
    (fun state label => SizeOk state label ∧ ChecksOk state label)
    (State.ofQueue ((Queue.withCapacity 1).get (by decide +kernel)) :
      State Unit (VecBuffer Nat) Nat (List Nat))
    (List.flatten [[((), .tryEnqueue [7])], List.replicate 4 ((), .run false),
      [((), .tryDequeueAndResize ⟨some 2, [[8]]⟩)], List.replicate 12 ((), .run false)])
    (by decide +kernel) (by decide +kernel)
  have hinitial := initial_withCapacity (T := Unit) (B := VecBuffer Nat)
    (show (Queue.withCapacity 1).isSome = true by decide +kernel)
  have hchecked : Runs.Run SwapBufferQueue.step (fun state label =>
      TypesOk state label ∧ ChecksOk state label) _ _ _ :=
    hrun.mono fun _ _ hboth => ⟨⟨hboth.1, fun _ _ => Or.inr fun _ _ => rfl⟩, hboth.2⟩
  have htyped := hchecked.mono fun _ _ hboth => hboth.1
  exact ⟨_, _, _, 0, hinitial, htyped, by decide +kernel, by decide +kernel,
    (recoverable_iff_checks_pass hinitial htyped).mpr hchecked⟩

/-- The first element of the queue is lost for ever: the iterator it belongs to is given
an owner of another queue, or a capacity that `check_overflow` refuses is asked for.
The lock stays taken, nobody is left to give it back, and other calls get a conflict. -/
theorem failed_check_locks_for_ever :
    (∃ (start : State Bool (VecBuffer Nat) Nat (List Nat)) (trace : _)
        (s : State Bool (VecBuffer Nat) Nat (List Nat)),
      Initial start ∧ Runs.Run SwapBufferQueue.step TypesOk start trace s ∧
      s.pcs false = .panicked .foreignOwner ∧
      s.pcs true = .idle (some (.dequeueError .conflict)) ∧
      s.queue.dequeuingLength = dequeuingLocked ∧
      (Ledger.ofTrace trace).accepted = [[7]] ∧ consumedElements trace = [] ∧
      ¬ Recoverable trace s) ∧
    ∃ (start : State Bool (VecBuffer Nat) Nat (List Nat)) (trace : _)
        (s : State Bool (VecBuffer Nat) Nat (List Nat)),
      Initial start ∧ Runs.Run SwapBufferQueue.step TypesOk start trace s ∧
      s.pcs false = .panicked .capacityOverflow ∧
      s.pcs true = .idle (some (.dequeueError .conflict)) ∧
      s.queue.dequeuingLength = dequeuingLocked ∧
      (Ledger.ofTrace trace).accepted = [[7]] ∧ consumedElements trace = [] ∧
      ¬ Recoverable trace s := by
  have hinitial := initial_withCapacity (T := Bool) (B := VecBuffer Nat)
    (show (Queue.withCapacity 1).isSome = true by decide +kernel)
  constructor
  · have hrun := Runs.run_of_isSome SwapBufferQueue.step SizeOk
      (State.ofQueue ((Queue.withCapacity 1).get (by decide +kernel)) :
        State Bool (VecBuffer Nat) Nat (List Nat))
      (List.flatten [[(false, .tryEnqueue [7])], List.replicate 4 (false, .run false),
        [(false, .tryDequeue)], List.replicate 10 (false, .run false),
        [(false, .intoIter), (false, .withOwned false), (true, .tryDequeue),
          (true, .run false)]])
      (by decide +kernel) (by decide +kernel)
    refine ⟨_, _, _, hinitial, hrun.mono fun _ _ hsize =>
      ⟨hsize, fun _ _ => Or.inr fun _ _ => rfl⟩, by decide +kernel, by decide +kernel,
      by decide +kernel, by decide +kernel, by decide +kernel, ?_⟩
    intro hrecoverable
    exact absurd (hrecoverable.held (by decide +kernel)) (by decide +kernel)
  · have hrun := Runs.run_of_isSome SwapBufferQueue.step SizeOk
      (State.ofQueue ((Queue.withCapacity 1).get (by decide +kernel)) :
        State Bool (VecBuffer Nat) Nat (List Nat))
      (List.flatten [[(false, .tryEnqueue [7])], List.replicate 4 (false, .run false),
        [(false, .tryDequeueAndResize ⟨some (2 ^ 62), []⟩)],
        List.replicate 2 (false, .run false), [(true, .tryDequeue), (true, .run false)]])
      (by decide +kernel) (by decide +kernel)
    refine ⟨_, _, _, hinitial, hrun.mono fun _ _ hsize =>
      ⟨hsize, fun _ _ => Or.inr fun _ _ => rfl⟩, by decide +kernel, by decide +kernel,
      by decide +kernel, by decide +kernel, by decide +kernel, ?_⟩
    intro hrecoverable
    exact absurd (hrecoverable.held (by decide +kernel)) (by decide +kernel)

end SwapBufferQueue
