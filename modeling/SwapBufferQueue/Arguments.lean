/-
What the callers promise.  A call may still panic on its own arguments: a capacity
that `check_overflow` refuses, insertions that do not fit in the target buffer, an
owner of another queue.  When no call does, no activity panics at all.
-/
import SwapBufferQueue.Reachable

namespace SwapBufferQueue

universe u v w x

open Tiling

variable {T : Type x} {B : Type u} {α : Type v} {σ : Type w} [Buffer B α σ]

/-- The requested capacities are accepted by `check_overflow`. -/
def CapacityOk (_ : State T B α σ) (label : T × Action α) : Prop :=
  ∀ resize ∈ label.2.resize?, ∀ capa ∈ resize.capacity, checkOverflow capa = true

/-- The step that calls the insert closure, with the word it works on. -/
def stagingStep : Pc α σ → Action α → Option (DequeuingLength × ResizeArgs α)
  | .dequeueResize dequeuing resize, .run _ => some (dequeuing, resize)
  | _, _ => none

/-- The values a call inserts fit together in the buffer they are inserted in,
resized or not. -/
def FitsOk (s : State T B α σ) (label : T × Action α) : Prop :=
  ∀ staging ∈ stagingStep (s.pcs label.1) label.2,
    staging.2.insert.flatten.length ≤ staging.2.capacity.getD
      (Buffer.capacity (s.queue.buffers staging.1.bufferIndex))

/-- The new owner of an iterator references the queue of the iterator. -/
def OwnerOk (_ : State T B α σ) (label : T × Action α) : Prop :=
  label.2 ≠ .withOwned false

structure CallsOk (s : State T B α σ) (label : T × Action α) : Prop where
  size : SizeOk s label
  capacity : CapacityOk s label
  fits : FitsOk s label
  owner : OwnerOk s label

instance instDecidableCallsOk [DecidableEq α] (s : State T B α σ)
    (label : T × Action α) : Decidable (CallsOk s label) :=
  have : Decidable (CapacityOk s label) := inferInstanceAs (Decidable
    (∀ resize ∈ label.2.resize?, ∀ capa ∈ resize.capacity, checkOverflow capa = true))
  have : Decidable (FitsOk s label) := inferInstanceAs (Decidable
    (∀ staging ∈ stagingStep (s.pcs label.1) label.2,
      staging.2.insert.flatten.length ≤ staging.2.capacity.getD
        (Buffer.capacity (s.queue.buffers staging.1.bufferIndex))))
  have : Decidable (OwnerOk s label) :=
    inferInstanceAs (Decidable (label.2 ≠ .withOwned false))
  decidable_of_iff (SizeOk s label ∧ CapacityOk s label ∧ FitsOk s label ∧
      OwnerOk s label)
    ⟨fun ⟨size, capacity, fits, owner⟩ => ⟨size, capacity, fits, owner⟩,
      fun ⟨size, capacity, fits, owner⟩ => ⟨size, capacity, fits, owner⟩⟩

/-- What a program counter keeps of the promises of its call. -/
def ArgsOk (q : Queue B) : Pc α σ → Prop
  | .dequeueLock resize => ∀ capa ∈ resize.capacity, checkOverflow capa = true
  | .dequeueResize _ resize => ∀ capa ∈ resize.capacity, checkOverflow capa = true
  | .dequeueInsert dequeuing _ values length =>
      length + values.flatten.length ≤
        Buffer.capacity (q.buffers dequeuing.bufferIndex)
  | .dequeuePublish attempt => attempt.insertedLength ≤ attempt.nextCapa
  | .dequeueLoad attempt => attempt.insertedLength ≤ attempt.nextCapa
  | .panicked _ => False
  | _ => True

section Facts

variable {q q' : Queue B} {pc pc' : Pc α σ} {action : Action α} {event : Event α}

theorem argsOk_of_not_holds (hpc : pc.holds = false) (hargs : ArgsOk q pc) :
    ArgsOk q' pc := by
  cases pc with
  | idle _ => exact hargs
  | enqueueLoad _ => exact hargs
  | enqueueReserve _ _ _ => exact hargs
  | enqueueInsert _ _ => exact hargs
  | enqueueAcknowledge _ _ => exact hargs
  | dequeueLock _ => exact hargs
  | _ => cases hpc

theorem argsOk_of_capacity
    (hcapacity : ∀ i, Buffer.capacity (q'.buffers i) = Buffer.capacity (q.buffers i))
    (hargs : ArgsOk q pc) : ArgsOk q' pc := by
  cases pc with
  | dequeueInsert dequeuing resized values length =>
      change length + values.flatten.length ≤ _
      rw [hcapacity]
      exact hargs
  | _ => exact hargs

theorem argsOk_enqueueCheck (value : List α) (enqueuing : EnqueuingCapacity) :
    ArgsOk q (enqueueCheck value enqueuing : Pc α σ) :=
  enqueueCheck_elim (P := ArgsOk q) (fun _ => trivial) (fun _ _ => trivial)
    fun _ _ _ => trivial

theorem argsOk_dequeueEntry (dequeuing : DequeuingLength) {resize : ResizeArgs α}
    (hresize : ∀ capa ∈ resize.capacity, checkOverflow capa = true) :
    ArgsOk q (dequeueEntry dequeuing resize : Pc α σ) :=
  dequeueEntry_elim (P := ArgsOk q) (fun _ => hresize) fun _ => trivial

variable [LawfulBuffer B]

/-- A step of an activity without the lock changes no capacity. -/
theorem Transition.capacity_eq (hmove : Transition q pc action q' pc' event)
    (hpc : pc.holds = false) (i : Fin 2) :
    Buffer.capacity (q'.buffers i) = Buffer.capacity (q.buffers i) := by
  cases hmove with
  | silent _ => rfl
  | reserve _ _ => rfl
  | insert value enqueuing spurious b hinsert =>
      exact Queue.capacity_setBuffer (LawfulBuffer.capacity_insertInto hinsert) i
  | acknowledge _ _ _ => rfl
  | conflict _ _ _ => rfl
  | lock _ _ _ => rfl
  | close _ => rfl
  | reopen _ => rfl
  | _ => cases hpc

variable {g : Ledger T α} {t : T} {s : State T B α σ}

theorem argsOk_dequeueFinish {attempt : Attempt}
    {capacity : Nat} {enqueuing : EnqueuingCapacity}
    (hself : ThreadInv q g t (dequeueFinish attempt capacity enqueuing)) :
    ArgsOk q (dequeueFinish attempt capacity enqueuing : Pc α σ) := by
  revert hself
  apply dequeueFinish_elim (P := fun pc => ThreadInv q g t pc → ArgsOk q pc)
  · intro _ hself
    cases hself.cause
  · exact fun _ _ => trivial
  · intro _ _ _
    apply argsOk_dequeueEntry
    intro capa hcapa
    cases hcapa
  · exact fun _ _ _ _ => trivial
  · intro _ _ _ hself
    cases hself.cause

theorem argsOk_requeueRange {i : Fin 2} {start stop : Nat}
    (hself : ThreadInv q g t (requeueRange i start stop)) :
    ArgsOk q (requeueRange i start stop : Pc α σ) := by
  revert hself
  apply requeueRange_elim (P := fun pc => ThreadInv q g t pc → ArgsOk q pc)
  · intro _ hself
    cases hself.cause
  · exact fun _ _ => trivial
  · exact fun _ _ => trivial

theorem Local.argsOk (hmove : Local q pc action pc') (hself : ThreadInv q g t pc')
    (hargs : ArgsOk q pc) (hstate : s.queue = q) (hpc : s.pcs t = pc)
    (hcalls : CallsOk s (t, action)) : ArgsOk q pc' := by
  cases hmove with
  | enqueueLoad _ _ => exact argsOk_enqueueCheck _ _
  | enqueueRetry _ _ _ _ => exact argsOk_enqueueCheck _ _
  | indexUnderflow _ _ _ _ => cases hself.cause
  | insertOutOfBounds _ _ _ _ => cases hself.cause
  | tryDequeue _ =>
      intro capa hcapa
      cases hcapa
  | tryDequeueAndResize _ resize => exact hcalls.capacity resize rfl
  | keepCapacity dequeuing resize spurious hkeep =>
      have hfits := hcalls.fits (dequeuing, resize) (by rw [hpc]; rfl)
      change 0 + resize.insert.flatten.length ≤ _
      rw [Nat.zero_add, ← hstate]
      cases hcapa : resize.capacity with
      | none =>
          rw [hcapa] at hfits
          exact hfits
      | some capa =>
          rw [hcapa] at hfits
          rw [hstate, ← hkeep capa hcapa]
          exact hfits
  | capacityOverflow _ resize _ capa hcapa hcheck =>
      rw [hargs capa hcapa] at hcheck
      cases hcheck
  | skipEmpty _ _ _ _ _ => exact hargs
  | stageEnd dequeuing resized values length spurious hvalues =>
      exact Nat.le_trans (Nat.le_add_right _ _) hargs
  | stageOutOfBounds dequeuing resized value rest length spurious hnone =>
      have hfit : length + value.length ≤
          Buffer.capacity (q.buffers dequeuing.bufferIndex) := by
        refine Nat.le_trans (Nat.add_le_add_left ?_ _) hargs
        rw [List.flatten_cons, List.length_append]
        exact Nat.le_add_right _ _
      obtain ⟨b, hsome, -⟩ := LawfulBuffer.insertInto_spec hfit
      rw [hnone] at hsome
      cases hsome
  | publishNothing _ _ _ => exact hargs
  | bufferIndexAssert _ _ _ => cases hself.cause
  | nextCapacityUnderflow attempt _ hlt => exact absurd hargs (Nat.not_le_of_lt hlt)
  | enqueuingCapacityAssert _ _ _ _ => cases hself.cause
  | dequeueNotify _ _ _ _ => exact argsOk_dequeueFinish hself
  | sliceOutOfBounds _ _ _ _ _ => cases hself.cause
  | clearOutOfBounds _ _ _ _ _ => cases hself.cause
  | dropIter _ _ _ => exact argsOk_requeueRange hself
  | requeue _ _ _ _ => exact argsOk_requeueRange hself
  | lockedAssert _ _ _ _ => cases hself.cause
  | removeOutOfBounds _ _ _ _ _ => cases hself.cause
  | foreignOwner _ _ _ => exact absurd rfl hcalls.owner
  | _ => exact trivial

theorem Transition.argsOk (hmove : Transition s.queue (s.pcs t) action q' pc' event)
    (hself : ThreadInv q' g t pc') (hargs : ArgsOk s.queue (s.pcs t))
    (hcalls : CallsOk s (t, action)) : ArgsOk q' pc' := by
  generalize hpc : s.pcs t = pc at hmove hargs
  cases hmove with
  | silent hlocal => exact hlocal.argsOk hself hargs rfl hpc hcalls
  | lock resize _ _ => exact argsOk_dequeueEntry _ hargs
  | resize dequeuing resize spurious capa b hcapa hne hcheck hresize =>
      have hfits := hcalls.fits (dequeuing, resize) (by rw [hpc]; rfl)
      change 0 + resize.insert.flatten.length ≤ Buffer.capacity
        ((s.queue.setBuffer dequeuing.bufferIndex b).buffers dequeuing.bufferIndex)
      rw [hcapa] at hfits
      rw [Nat.zero_add, Queue.buffers_setBuffer, if_pos rfl,
        LawfulBuffer.capacity_resize hresize]
      exact hfits
  | stage dequeuing resized value rest length spurious b hvalue hle hinsert =>
      change length + value.length + rest.flatten.length ≤ Buffer.capacity
        ((s.queue.setBuffer dequeuing.bufferIndex b).buffers dequeuing.bufferIndex)
      rw [Queue.capacity_setBuffer (LawfulBuffer.capacity_insertInto hinsert),
        Nat.add_assoc, ← List.length_append]
      exact hargs
  | publish _ _ _ => exact hargs
  | _ => exact trivial

end Facts

variable [DecidableEq T] [LawfulBuffer B]

theorem argsOk_of_run {start s : State T B α σ} (hinitial : Initial start)
    {ok : State T B α σ → T × Action α → Prop}
    (hok : ∀ state label, ok state label → CallsOk state label)
    {trace : List ((T × Action α) × Event α)}
    (hrun : Runs.Run SwapBufferQueue.step ok start trace s) (t : T) :
    ArgsOk s.queue (s.pcs t) := by
  revert t
  refine hrun.invariant (fun _ s => ∀ t, ArgsOk s.queue (s.pcs t)) ?_ ?_
  · intro t
    rw [hinitial.2]
    exact trivial
  · intro trace state state' label event hprefix hargs hlabel hstep t'
    obtain ⟨t, action⟩ := label
    have hsim := sim_of_run hinitial (fun state label h => (hok state label h).size) hprefix
    have hsim' := hsim.step (hok state _ hlabel).size hstep
    obtain ⟨q', pc', hmove, rfl⟩ := step_cases hstep
    change ArgsOk q' (Function.update state.pcs t pc' t')
    by_cases ht' : t' = t
    · subst ht'
      rw [Function.update_self]
      exact hmove.argsOk hsim'.self (hargs t') (hok state _ hlabel)
    · rw [Function.update_of_ne ht']
      by_cases hholds : (state.pcs t').holds = true
      · apply argsOk_of_capacity (hmove.capacity_eq _) (hargs t')
        exact Bool.eq_false_iff.mpr fun hmine => ht' (hsim.exclusive hholds hmine)
      · exact argsOk_of_not_holds (Bool.eq_false_iff.mpr hholds) (hargs t')

end SwapBufferQueue
