/-
What an attempt that did not succeed has seen, and what makes it untrue.  A dequeue that
reports `Empty` or `Pending` leaves an open queue with nothing in it or a reservation in
flight; an enqueue that reports `InsufficientCapacity` leaves an open queue with less
room than it needs.  The capacity does not change, as nobody resizes.
-/
import SwapBufferQueue.TryDequeue
import SwapBufferQueue.CapacityField
import SwapBufferQueue.Closing

namespace SwapBufferQueue

universe u v w x

open Tiling

variable {T : Type x} {B : Type u} {α : Type v} {σ : Type w} [Buffer B α σ]

section Unresized

/-- A program counter that does not resize. -/
def Pc.Unresized : Pc α σ → Prop
  | .dequeueLock resize => resize.capacity = none
  | .dequeueResize _ resize => resize.capacity = none
  | .dequeueInsert _ resized _ _ => resized = false
  | .dequeuePublish attempt => attempt.resized = false
  | .dequeueLoad attempt => attempt.resized = false
  | .dequeueSwap attempt _ _ _ => attempt.resized = false
  | .dequeueLoadCapacity attempt _ _ => attempt.resized = false
  | .dequeueStoreCapacity attempt _ _ => attempt.resized = false
  | .dequeueNotify attempt _ _ => attempt.resized = false
  | _ => True

theorem unresized_enqueueCheck (value : List α) (enqueuing : EnqueuingCapacity) :
    (enqueueCheck value enqueuing : Pc α σ).Unresized :=
  enqueueCheck_elim (P := Pc.Unresized) (fun _ => trivial) (fun _ _ => trivial)
    fun _ _ _ => trivial

theorem unresized_dequeueEntry (dequeuing : DequeuingLength) {resize : ResizeArgs α}
    (hresize : resize.capacity = none) :
    (dequeueEntry dequeuing resize : Pc α σ).Unresized :=
  dequeueEntry_elim (P := Pc.Unresized) (fun _ => hresize) fun _ => trivial

theorem unresized_dequeueFinish (attempt : Attempt) (capacity : Nat)
    (enqueuing : EnqueuingCapacity) :
    (dequeueFinish attempt capacity enqueuing : Pc α σ).Unresized :=
  dequeueFinish_elim (P := Pc.Unresized) (fun _ => trivial) (fun _ => trivial)
    (fun _ _ => unresized_dequeueEntry _ rfl) (fun _ _ _ => trivial) fun _ _ _ => trivial

theorem unresized_requeueRange (i : Fin 2) (start stop : Nat) :
    (requeueRange i start stop : Pc α σ).Unresized :=
  requeueRange_elim (P := Pc.Unresized) (fun _ => trivial) (fun _ => trivial)
    fun _ => trivial

variable {q q' : Queue B} {pc pc' : Pc α σ} {action : Action α} {event : Event α}

theorem Local.unresized (hmove : Local q pc action pc') (hpc : pc.Unresized)
    (haction : action.resize? = none) : pc'.Unresized := by
  cases hmove with
  | enqueueLoad _ _ => exact unresized_enqueueCheck _ _
  | enqueueRetry _ _ _ _ => exact unresized_enqueueCheck _ _
  | tryDequeue _ => exact rfl
  | tryDequeueAndResize _ _ => cases haction
  | keepCapacity _ _ _ _ => exact rfl
  | skipEmpty _ _ _ _ _ => exact hpc
  | stageEnd _ _ _ _ _ _ => exact hpc
  | publishNothing _ _ _ => exact hpc
  | dequeueLoad _ _ _ _ _ _ _ => exact hpc
  | swapRetry _ _ _ _ _ => exact hpc
  | capacityDiffers _ _ _ _ _ => exact hpc
  | capacitySame _ _ _ _ _ => exact hpc
  | dequeueNotify _ _ _ _ => exact unresized_dequeueFinish _ _ _
  | dropIter _ _ _ => exact unresized_requeueRange _ _ _
  | requeue _ _ _ _ => exact unresized_requeueRange _ _ _
  | _ => exact trivial

theorem Transition.unresized (hmove : Transition q pc action q' pc' event)
    (hpc : pc.Unresized) (haction : action.resize? = none) : pc'.Unresized := by
  cases hmove with
  | silent hlocal => exact hlocal.unresized hpc haction
  | lock _ _ _ => exact unresized_dequeueEntry _ hpc
  | resize _ resize _ _ _ hcapa _ _ _ =>
      rw [show resize.capacity = none from hpc] at hcapa
      cases hcapa
  | stage _ _ _ _ _ _ _ _ _ _ => exact hpc
  | publish _ _ _ => exact hpc
  | swap _ _ _ => exact hpc
  | storeCapacity _ _ _ _ => exact hpc
  | _ => exact trivial

variable [LawfulBuffer B] {s : State T B α σ} {g : Ledger T α} {t : T}

theorem Sim.capacities_eq (hsim : Sim s g) (hpc : (s.pcs t).Unresized)
    (hmove : Transition s.queue (s.pcs t) action q' pc' event) (i : Fin 2) :
    Buffer.capacity (q'.buffers i) = Buffer.capacity (s.queue.buffers i) := by
  have hthread := hsim.thread t
  generalize s.pcs t = pc at hmove hpc hthread
  cases hmove with
  | insert _ _ _ _ hinsert =>
      exact Queue.capacity_setBuffer (LawfulBuffer.capacity_insertInto hinsert) i
  | stage _ _ _ _ _ _ _ _ _ hinsert =>
      exact Queue.capacity_setBuffer (LawfulBuffer.capacity_insertInto hinsert) i
  | resize _ resize _ _ _ hcapa _ _ _ =>
      rw [show resize.capacity = none from hpc] at hcapa
      cases hcapa
  | remove j start stop value b hlt hremove =>
      have hrange : Range s.queue g j start stop := hthread
      have hfits := hrange.fits
      have hstop := hrange.stop_eq
      obtain ⟨value', hcell, -⟩ := hrange.exists_head hsim.shared hlt
      obtain ⟨b', hsome, hcapacity, -⟩ := LawfulBuffer.remove_spec hcell (by omega)
      cases hremove.symm.trans hsome
      exact Queue.capacity_setBuffer hcapacity i
  | clear j start stop _ values b hclear =>
      have hrange : Range s.queue g j start stop := hthread
      have hstop := hrange.length_drop
      obtain ⟨b', hsome, hcapacity⟩ := LawfulBuffer.clear_spec
        (hrange.holds_contents hsim.shared)
        (by rw [hstop, hrange.stop_eq]; exact hrange.fits)
      rw [hstop, hclear] at hsome
      cases hsome
      exact Queue.capacity_setBuffer hcapacity i
  | _ => rfl

end Unresized

/-- Calls that deliver exactly once and do not resize. -/
structure UnresizedOk (s : State T B α σ) (label : T × Action α) : Prop where
  delivery : DeliveryOk s label
  unresized : label.2.resize? = none

/-- The field and both buffers have one capacity. -/
structure Uniform (capacity : Nat) (s : State T B α σ) : Prop where
  field : s.queue.capacity = capacity
  buffers (i : Fin 2) : Buffer.capacity (s.queue.buffers i) = capacity
  unresized (t : T) : (s.pcs t).Unresized

section Runs

variable [DecidableEq T] [LawfulBuffer B] {start s : State T B α σ}
  {trace : List ((T × Action α) × Event α)}

theorem uniform_of_run (hinitial : Initial start)
    (hrun : Runs.Run SwapBufferQueue.step UnresizedOk start trace s) :
    Uniform start.queue.capacity s := by
  refine hrun.invariant (fun _ s => Uniform start.queue.capacity s) ?_ ?_
  · obtain ⟨capacity, hcreated⟩ := Created.of_initial hinitial
    refine ⟨rfl, fun i => ?_, fun t => ?_⟩
    · rw [hcreated.buffers_capacity, hcreated.capacity_eq]
    · rw [hinitial.2]
      exact trivial
  · rintro trace state state' ⟨t, action⟩ event hprefix ⟨hfield, hbuffers, hpcs⟩ hok hstep
    have hsize := hprefix.mono fun _ _ h => h.delivery.size
    have hsim := sim_of_run hinitial (fun _ _ h => h.delivery.size) hprefix
    have hupdate := (capacityInv_of_run hinitial hsize).update t
    obtain ⟨q', pc', hmove, rfl⟩ := step_cases hstep
    refine ⟨?_, fun i => ?_, fun t' => ?_⟩
    · generalize state.pcs t = pc at hmove hupdate
      cases hmove with
      | storeCapacity attempt _ _ _ => exact (hupdate attempt rfl).trans (hbuffers _)
      | _ => exact hfield
    · exact (hsim.capacities_eq (hpcs t) hmove i).trans (hbuffers i)
    · change (Function.update state.pcs t pc' t').Unresized
      by_cases ht' : t' = t
      · rw [ht', Function.update_self]
        exact hmove.unresized (hpcs t) hok.unresized
      · rw [Function.update_of_ne ht']
        exact hpcs t'

end Runs

section Dequeue

/-- Open, and nothing in either buffer. -/
structure Ledger.Vacant (g : Ledger T α) : Prop where
  opened : g.closed = false
  nothing (i : Fin 2) : g.tiles i = []

/-- A dequeue that has found nothing or an unfinished batch, also while it gives the lock
back. -/
def Pc.Waits : Pc α σ → Prop
  | .storeDequeuing _ (.dequeueError .empty) => True
  | .storeDequeuing _ (.dequeueError .pending) => True
  | .idle (some (.dequeueError .empty)) => True
  | .idle (some (.dequeueError .pending)) => True
  | _ => False

theorem not_waits_enqueueCheck (value : List α) (enqueuing : EnqueuingCapacity) :
    ¬ (enqueueCheck value enqueuing : Pc α σ).Waits :=
  enqueueCheck_elim (P := fun pc : Pc α σ => ¬ pc.Waits) (fun _ => id) (fun _ _ => id)
    fun _ _ _ => id

theorem not_waits_dequeueEntry (dequeuing : DequeuingLength) (resize : ResizeArgs α) :
    ¬ (dequeueEntry dequeuing resize : Pc α σ).Waits :=
  dequeueEntry_elim (P := fun pc : Pc α σ => ¬ pc.Waits) (fun _ => id) fun _ => id

theorem not_waits_dequeueFinish {attempt : Attempt} (hresized : attempt.resized = false)
    (capacity : Nat) (enqueuing : EnqueuingCapacity) :
    ¬ (dequeueFinish attempt capacity enqueuing : Pc α σ).Waits := by
  refine dequeueFinish_elim (P := fun pc : Pc α σ => ¬ pc.Waits) (fun _ => id) (fun _ => id)
    (fun _ _ => not_waits_dequeueEntry _ _) (fun _ _ hresized' => ?_) fun _ _ _ => id
  rw [hresized] at hresized'
  cases hresized'

theorem not_waits_requeueRange (i : Fin 2) (start stop : Nat) :
    ¬ (requeueRange i start stop : Pc α σ).Waits :=
  requeueRange_elim (P := fun pc : Pc α σ => ¬ pc.Waits) (fun _ => id) (fun _ => id)
    fun _ => id

variable [LawfulBuffer B] {s : State T B α σ} {g : Ledger T α} {t : T} {q' : Queue B}
  {pc' : Pc α σ} {action : Action α} {event : Event α}

/-- A batch is unfinished because of a reservation in flight. -/
theorem Sim.inFlight_of_lags (hsim : Sim s g) {i : Fin 2} {length : Nat}
    (hbatch : Batch s.queue g i length) (hlt : s.queue.buffersLength i < length) :
    ∃ t', (s.pcs t').inFlight ≠ none := by
  have hadd := hbatch.length_add
  obtain ⟨t', value, enqueuing, hflight, -⟩ :=
    (hsim.lags_iff hbatch.visible hbatch.fits).mp (by omega)
  exact ⟨t', by rw [hflight]; exact nofun⟩

variable [DecidableEq T]

/-- A dequeue stops because the queue is open and empty, or because a reservation is in
flight. -/
theorem Sim.waits_step (hsim : Sim s g) (hpc : (s.pcs t).Unresized)
    (hmove : Transition s.queue (s.pcs t) action q' pc' event) (hwaits : pc'.Waits) :
    g.next t event = g ∧
      ((s.pcs t).Waits ∨ g.Vacant ∨ ∃ t', (s.pcs t').inFlight ≠ none) := by
  have hthread := hsim.thread t
  have hnothing : ∀ error,
      Transition s.queue (s.pcs t) action q' pc' (.foundEmpty error) → ∀ i, g.tiles i = [] :=
    fun _ hfound => hsim.tiles_of_foundEmpty hfound
  generalize s.pcs t = pc at hmove hpc hthread hnothing
  cases hmove with
  | silent hlocal =>
      cases hlocal with
      | enqueueLoad _ _ => exact absurd hwaits (not_waits_enqueueCheck _ _)
      | enqueueRetry _ _ _ _ => exact absurd hwaits (not_waits_enqueueCheck _ _)
      | dequeueNotify _ _ _ _ => exact absurd hwaits (not_waits_dequeueFinish hpc _ _)
      | dropIter _ _ _ => exact absurd hwaits (not_waits_requeueRange _ _ _)
      | requeue _ _ _ _ => exact absurd hwaits (not_waits_requeueRange _ _ _)
      | spinPending _ _ _ _ hlt _ =>
          exact ⟨rfl, Or.inr (Or.inr (hsim.inFlight_of_lags hthread.1 hlt))⟩
      | _ => exact hwaits.elim
  | lock _ _ _ => exact absurd hwaits (not_waits_dequeueEntry _ _)
  | foundEmpty _ _ _ _ _ _ =>
      refine ⟨rfl, Or.inr (Or.inl ⟨?_, fun i => ?_⟩)⟩
      · rw [hsim.shared.closed, Bool.eq_false_iff]
        intro hclosed
        rw [if_pos hclosed] at hwaits
        exact hwaits
      · exact hnothing _ (.foundEmpty _ _ ‹_› ‹_› ‹_› ‹_›) i
  | unlock _ outcome _ =>
      refine ⟨rfl, Or.inl ?_⟩
      cases outcome with
      | dequeueError error =>
          cases error with
          | empty => trivial
          | pending => trivial
          | _ => exact hwaits.elim
      | _ => exact hwaits.elim
  | _ => exact hwaits.elim

/-- The queue stays open and empty until something is reserved or it is closed. -/
theorem Sim.vacant_step (hsim : Sim s g) (hvacant : g.Vacant)
    (hfree : (s.pcs t).holds = false)
    (hmove : Transition s.queue (s.pcs t) action q' pc' event) :
    (g.next t event).Vacant ∨ pc'.inFlight ≠ none ∨ event = .closed := by
  have hthread := hsim.thread t
  generalize s.pcs t = pc at hmove hthread hfree
  have hnone : ∀ {enqueuing : EnqueuingCapacity} {tile : Tile (Status T) α},
      ¬ InFlight s.queue g enqueuing tile := by
    intro enqueuing tile hflight
    have hat := hflight.at_index
    rw [hvacant.nothing] at hat
    exact not_at_nil hat
  cases hmove with
  | silent _ => exact Or.inl hvacant
  | reserve _ _ => exact Or.inr (Or.inl nofun)
  | insert _ _ _ _ _ => exact (hnone hthread).elim
  | acknowledge _ _ _ => exact (hnone hthread).elim
  | conflict _ _ _ => exact Or.inl hvacant
  | lock _ _ _ => exact Or.inl hvacant
  | close _ => exact Or.inr (Or.inr rfl)
  | reopen _ => exact Or.inl ⟨rfl, hvacant.nothing⟩
  | _ => cases hfree

end Dequeue

section Enqueue

/-- An open queue without room for so many elements. -/
structure EnqueuingCapacity.Blocks (enqueuing : EnqueuingCapacity) (size : Nat) : Prop where
  opened : enqueuing.isClosed = false
  lacks : enqueuing.remainingCapacity < size

/-- A call of `try_enqueue` for the value, in progress or returned. -/
def Pc.Enqueues (value : List α) : Pc α σ → Prop
  | .enqueueLoad value' => value' = value
  | .enqueueReserve value' _ _ => value' = value
  | .enqueueInsert value' _ => value' = value
  | .enqueueAcknowledge value' _ => value' = value
  | .idle (some .enqueued) => True
  | .idle (some (.enqueueError (.insufficientCapacity value'))) => value' = value
  | .idle (some (.enqueueError (.closed value'))) => value' = value
  | _ => False

theorem enqueues_check (value : List α) (enqueuing : EnqueuingCapacity) :
    (enqueueCheck value enqueuing : Pc α σ).Enqueues value :=
  enqueueCheck_elim (P := Pc.Enqueues value) (fun _ => rfl) (fun _ _ => rfl)
    fun _ _ _ => rfl

/-- The head of the loop gives up when there is no room. -/
theorem blocks_of_check {value : List α} {enqueuing : EnqueuingCapacity}
    (hsize : value.length < 2 ^ 63)
    (hcheck : (enqueueCheck value enqueuing : Pc α σ) =
      .idle (some (.enqueueError (.insufficientCapacity value)))) :
    enqueuing.Blocks value.length := by
  revert hcheck
  refine enqueueCheck_elim (P := fun pc : Pc α σ =>
    pc = .idle (some (.enqueueError (.insufficientCapacity value))) →
      enqueuing.Blocks value.length) nofun (fun hopen hnone _ => ?_) nofun
  exact ⟨hopen, (EnqueuingCapacity.tryReserve_eq_none_iff hopen hsize).mp hnone⟩

variable [LawfulBuffer B] {s : State T B α σ} {g : Ledger T α} {t : T} {q' : Queue B}
  {pc' : Pc α σ} {action : Action α} {event : Event α} {value : List α}

omit [LawfulBuffer B] in
theorem Transition.enqueues_run {q : Queue B} {pc : Pc α σ} {spurious : Bool}
    (hmove : Transition q pc (.run spurious) q' pc' event) (hpc : pc.Enqueues value)
    (hargs : ArgsOk q' pc') : pc'.Enqueues value := by
  cases hmove with
  | silent hlocal =>
      cases hlocal with
      | enqueueLoad _ _ =>
          cases hpc
          exact enqueues_check _ _
      | enqueueRetry _ _ _ _ =>
          cases hpc
          exact enqueues_check _ _
      | indexUnderflow _ _ _ _ => exact hargs.elim
      | insertOutOfBounds _ _ _ _ => exact hargs.elim
      | _ => exact hpc.elim
  | reserve _ _ => exact hpc
  | insert _ _ _ _ _ => exact hpc
  | acknowledge _ _ _ => exact trivial
  | _ => exact hpc.elim

theorem Sim.blocks_of_insufficient (hsim : Sim s g) {spurious : Bool}
    (hmove : Transition s.queue (s.pcs t) (.run spurious) q' pc' event)
    (hpc : (s.pcs t).Enqueues value)
    (hinsufficient : pc' = .idle (some (.enqueueError (.insufficientCapacity value)))) :
    q'.enqueuingCapacity.Blocks value.length := by
  have hthread := hsim.thread t
  generalize s.pcs t = pc at hmove hpc hthread
  cases hmove with
  | silent hlocal =>
      cases hlocal with
      | enqueueLoad _ _ =>
          cases hpc
          exact blocks_of_check hthread.2 hinsufficient
      | enqueueRetry _ _ _ _ =>
          cases hpc
          exact blocks_of_check hthread.2.1 hinsufficient
      | indexUnderflow _ _ _ _ => cases hinsufficient
      | insertOutOfBounds _ _ _ _ => cases hinsufficient
      | _ => exact hpc.elim
  | reserve _ _ => cases hinsufficient
  | insert _ _ _ _ _ => cases hinsufficient
  | acknowledge _ _ _ => cases hinsufficient
  | _ => exact hpc.elim

/-- There is no room until the buffers are swapped, or the queue is closed. -/
theorem Sim.blocks_step (hsim : Sim s g) {size : Nat}
    (hblocks : s.queue.enqueuingCapacity.Blocks size)
    (hmove : Transition s.queue (s.pcs t) action q' pc' event) :
    q'.enqueuingCapacity.Blocks size ∨ event = .closed ∨
      ∃ attempt capacity enqueuing, pc' = .dequeueLoadCapacity attempt capacity enqueuing := by
  have hthread := hsim.thread t
  generalize s.pcs t = pc at hmove hthread
  cases hmove with
  | reserve value next =>
      obtain ⟨-, hsize, hopen, hreserve⟩ := hthread
      obtain ⟨-, -, hremaining, hopen'⟩ :=
        (EnqueuingCapacity.tryReserve_eq_some_iff hopen hsize).mp hreserve
      have hlacks := hblocks.lacks
      refine Or.inl ⟨hopen', ?_⟩
      change next.remainingCapacity < size
      omega
  | swap attempt capacity nextEnqueuing =>
      exact Or.inr (Or.inr ⟨attempt, capacity, _, rfl⟩)
  | close _ => exact Or.inr (Or.inl rfl)
  | reopen _ =>
      obtain ⟨-, hremaining, hopen⟩ := EnqueuingCapacity.reopen_spec s.queue.enqueuingCapacity
      exact Or.inl ⟨hopen, by rw [hremaining]; exact hblocks.lacks⟩
  | _ => exact Or.inl hblocks

end Enqueue

end SwapBufferQueue
