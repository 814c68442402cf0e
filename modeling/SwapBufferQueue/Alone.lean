/-
A call that runs alone.  Every step of a dequeue that is not disturbed lowers its rank,
so it returns; what it returns is read off the queue it was called on.
-/
import SwapBufferQueue.Delivery
import SwapBufferQueue.Exclusion

namespace SwapBufferQueue

universe u v w x

open Tiling

variable {T : Type x} {B : Type u} {α : Type v} {σ : Type w}

/-- Only the given activity moves, and only to go on with its call. -/
def Alone (t : T) (_ : State T B α σ) (label : T × Action α) : Prop :=
  label.1 = t ∧ ∃ spurious, label.2 = .run spurious

theorem Alone.sizeOk {t : T} {s : State T B α σ} {label : T × Action α}
    (halone : Alone t s label) : SizeOk s label := by
  obtain ⟨-, spurious, haction⟩ := halone
  apply sizeOk_of_value_eq_none
  rw [haction]
  rfl

/-- The program counters of a dequeue or a release in progress. -/
def Pc.dequeuing : Pc α σ → Bool
  | .idle _ => false
  | .enqueueLoad _ => false
  | .enqueueReserve _ _ _ => false
  | .enqueueInsert _ _ => false
  | .enqueueAcknowledge _ _ => false
  | .slice _ _ _ _ => false
  | .iter _ _ _ => false
  | .panicked _ => false
  | _ => true

/-- The program counters a dequeue ends with. -/
def Pc.returned : Pc α σ → Bool
  | .idle _ => true
  | .slice _ _ _ _ => true
  | .panicked _ => true
  | _ => false

section Rank

/-- What is left after the swap: the spin loop, or a second attempt. -/
def Attempt.rank (attempt : Attempt) : Nat :=
  if attempt.insertedLength = 0 then spinLimit + 4 else spinLimit + 20

/-- What is left of the insertion, and after it. -/
def stagingRank (values : List (List α)) (length : Nat) : Nat :=
  if values.isEmpty = true ∧ length = 0 then spinLimit + 12
  else values.length + spinLimit + 28

/-- How many more steps an undisturbed dequeue makes at most. -/
def Queue.rank (q : Queue B) : Pc α σ → Nat
  | .dequeueLock resize => stagingRank resize.insert 0 + 2
  | .dequeueResize _ resize => stagingRank resize.insert 0 + 1
  | .dequeueInsert _ _ values length => stagingRank values length
  | .dequeuePublish attempt => attempt.rank + 7
  | .dequeueLoad attempt => attempt.rank + 6
  | .dequeueSwap attempt _ _ enqueuing =>
      attempt.rank + if q.enqueuingCapacity = enqueuing then 4 else 5
  | .dequeueLoadCapacity attempt _ _ => attempt.rank + 3
  | .dequeueStoreCapacity attempt _ _ => attempt.rank + 2
  | .dequeueNotify attempt _ _ => attempt.rank + 1
  | .dequeueSpin _ _ spins => spinLimit - spins + 3
  | .dequeueSlice _ _ _ => 1
  | .releaseClear _ _ _ => 3
  | .releaseLength _ => 2
  | .storeDequeuing _ _ => 1
  | _ => 0

theorem Attempt.le_rank (attempt : Attempt) : spinLimit + 4 ≤ attempt.rank := by
  unfold rank
  split <;> omega

theorem stagingRank_cons_lt (value : List α) (rest : List (List α)) (length : Nat)
    (length' : Nat) : stagingRank rest length' < stagingRank (value :: rest) length := by
  have hcons : stagingRank (value :: rest) length = rest.length + 1 + spinLimit + 28 :=
    if_neg (by simp)
  rw [hcons, stagingRank]
  split <;> omega

theorem Attempt.rank_lt_stagingRank (attempt : Attempt) (values : List (List α)) :
    attempt.rank + 7 < stagingRank values attempt.insertedLength := by
  unfold rank stagingRank
  by_cases hzero : attempt.insertedLength = 0
  · rw [if_pos hzero]
    split <;> omega
  · rw [if_neg hzero, if_neg fun hboth => hzero hboth.2]
    omega

variable {q q' : Queue B} {pc pc' : Pc α σ}

theorem rank_dequeueEntry_lt (dequeuing : DequeuingLength) (resize : ResizeArgs α) :
    q.rank (dequeueEntry dequeuing resize : Pc α σ) < stagingRank resize.insert 0 + 2 := by
  refine dequeueEntry_elim (P := fun pc => q.rank pc < stagingRank resize.insert 0 + 2)
    (fun _ => Nat.lt_succ_self _) fun _ => ?_
  have hle : spinLimit + 12 ≤ stagingRank resize.insert 0 := by
    unfold stagingRank
    split <;> omega
  simp only [Queue.rank]
  omega

theorem rank_dequeueFinish_lt (attempt : Attempt) (capacity : Nat)
    (enqueuing : EnqueuingCapacity) :
    q.rank (dequeueFinish attempt capacity enqueuing : Pc α σ) < attempt.rank + 1 := by
  have hle := attempt.le_rank
  refine dequeueFinish_elim (P := fun pc => q.rank pc < attempt.rank + 1)
    (fun _ => ?_) (fun _ => ?_) (fun _ hpos => ?_) (fun _ _ _ => ?_) fun _ _ _ => ?_
  · simp only [Queue.rank]
    omega
  · simp only [Queue.rank]
    omega
  · refine Nat.lt_of_lt_of_le (rank_dequeueEntry_lt _ _) ?_
    rw [Attempt.rank, if_neg (Nat.ne_of_gt hpos)]
    exact Nat.le_of_ble_eq_true rfl
  · simp only [Queue.rank]
    omega
  · simp only [Queue.rank]
    omega

variable [Buffer B α σ]

theorem Queue.rank_run_lt {event : Event α} (hpc : pc.dequeuing = true)
    (hrun : q.run false pc = some (q', pc', event)) : q'.rank pc' < q.rank pc := by
  generalize hspurious : false = spurious at hrun
  generalize haction : (Action.run spurious : Action α) = action
  have hmove := Queue.run_cases hrun
  rw [haction] at hmove
  cases hmove with
  | silent hlocal =>
      cases hlocal with
      | swapRetry attempt capacity nextEnqueuing enqueuing _ =>
          cases haction
          cases hspurious
          simp only [Queue.run] at hrun
          split at hrun
          · simp only [Option.some.injEq, Prod.mk.injEq] at hrun
            cases hrun.2.2
          · rename_i hfailed
            have hne : q.enqueuingCapacity ≠ enqueuing := fun heq =>
              hfailed ⟨trivial, heq⟩
            change attempt.rank + (if q.enqueuingCapacity = q.enqueuingCapacity then 4 else 5) <
              attempt.rank + if q.enqueuingCapacity = enqueuing then 4 else 5
            rw [if_pos rfl, if_neg hne]
            omega
      | keepCapacity _ resize _ _ => exact Nat.lt_succ_self _
      | capacityOverflow _ _ _ _ _ _ => exact Nat.succ_pos _
      | skipEmpty _ _ rest length _ => exact stagingRank_cons_lt _ _ _ _
      | stageEnd _ _ values length _ _ => exact Attempt.rank_lt_stagingRank _ values
      | stageOutOfBounds _ _ value rest length _ _ =>
          exact Nat.zero_lt_of_lt (stagingRank_cons_lt value rest length 0)
      | publishNothing _ _ _ => exact Nat.lt_succ_self _
      | bufferIndexAssert _ _ _ => exact Nat.succ_pos _
      | nextCapacityUnderflow _ _ _ => exact Nat.succ_pos _
      | enqueuingCapacityAssert _ _ _ _ => exact Nat.succ_pos _
      | dequeueLoad attempt _ _ _ _ _ _ =>
          change attempt.rank + (if q.enqueuingCapacity = q.enqueuingCapacity then 4 else 5) <
            attempt.rank + 6
          rw [if_pos rfl]
          omega
      | capacityDiffers _ _ _ _ _ => exact Nat.lt_succ_self _
      | capacitySame attempt _ _ _ _ =>
          change attempt.rank + 1 < attempt.rank + 3
          omega
      | dequeueNotify _ _ _ _ => exact rank_dequeueFinish_lt _ _ _
      | spinDone i length spins _ _ =>
          change 1 < spinLimit - spins + 3
          omega
      | spinAgain i length spins _ _ hspins =>
          change spinLimit - (spins + 1) + 3 < spinLimit - spins + 3
          omega
      | spinPending i length spins _ _ _ =>
          change 1 < spinLimit - spins + 3
          omega
      | sliceOutOfBounds _ _ _ _ _ => exact Nat.one_pos
      | clearOutOfBounds _ _ _ _ _ => exact Nat.succ_pos _
      | _ => cases hpc
  | conflict resize _ _ => exact Nat.succ_pos _
  | lock resize _ _ => exact rank_dequeueEntry_lt _ _
  | resize _ _ _ _ _ _ _ _ _ => exact Nat.lt_succ_self _
  | stage _ _ _ _ _ _ _ _ _ _ => exact stagingRank_cons_lt _ _ _ _
  | publish _ _ _ => exact Nat.lt_succ_self _
  | foundEmpty attempt _ _ _ _ _ =>
      change 1 < attempt.rank + 6
      omega
  | swap attempt _ _ =>
      change attempt.rank + 3 <
        attempt.rank + if q.enqueuingCapacity = q.enqueuingCapacity then 4 else 5
      rw [if_pos rfl]
      omega
  | storeCapacity _ _ _ _ => exact Nat.lt_succ_self _
  | slice _ _ _ _ _ _ => exact Nat.one_pos
  | clear _ _ _ _ _ _ _ => exact Nat.lt_succ_self _
  | release _ _ => exact Nat.lt_succ_self _
  | unlock _ _ _ => exact Nat.one_pos
  | _ => cases hpc

end Rank

section Completion

theorem dequeuing_dequeueEntry (dequeuing : DequeuingLength) (resize : ResizeArgs α) :
    (dequeueEntry dequeuing resize : Pc α σ).dequeuing = true :=
  dequeueEntry_elim (P := fun pc => pc.dequeuing = true) (fun _ => rfl) fun _ => rfl

theorem ongoing_dequeueFinish (attempt : Attempt) (capacity : Nat)
    (enqueuing : EnqueuingCapacity) :
    (dequeueFinish attempt capacity enqueuing : Pc α σ).dequeuing = true ∨
      (dequeueFinish attempt capacity enqueuing : Pc α σ).returned = true :=
  dequeueFinish_elim (P := fun pc => pc.dequeuing = true ∨ pc.returned = true)
    (fun _ => Or.inr rfl) (fun _ => Or.inl rfl)
    (fun _ _ => Or.inl (dequeuing_dequeueEntry _ _)) (fun _ _ _ => Or.inl rfl)
    fun _ _ _ => Or.inr rfl

variable [Buffer B α σ] {q q' : Queue B} {pc pc' : Pc α σ}

theorem Transition.dequeuing {spurious : Bool} {event : Event α}
    (hmove : Transition q pc (.run spurious) q' pc' event)
    (hpc : pc.dequeuing = true) : pc'.dequeuing = true ∨ pc'.returned = true := by
  generalize haction : (Action.run spurious : Action α) = action at hmove
  cases hmove with
  | silent hlocal =>
      cases hlocal with
      | dequeueNotify _ _ _ _ => exact ongoing_dequeueFinish _ _ _
      | _ => first | exact Or.inl rfl | exact Or.inr rfl | cases hpc
  | lock _ _ _ => exact Or.inl (dequeuing_dequeueEntry _ _)
  | _ => first | exact Or.inl rfl | exact Or.inr rfl | cases hpc

/-- A call that resizes does so on a resizable buffer. -/
def Pc.CanResize (B : Type u) [Buffer B α σ] : Pc α σ → Prop
  | .dequeueLock resize =>
      resize.capacity = none ∨ ∀ (b : B) capa, (Buffer.resize b capa).isSome = true
  | .dequeueResize _ resize =>
      resize.capacity = none ∨ ∀ (b : B) capa, (Buffer.resize b capa).isSome = true
  | _ => True

theorem canResize_dequeueEntry (dequeuing : DequeuingLength) {resize : ResizeArgs α}
    (hresize : resize.capacity = none ∨
      ∀ (b : B) capa, (Buffer.resize b capa).isSome = true) :
    (dequeueEntry dequeuing resize : Pc α σ).CanResize B :=
  dequeueEntry_elim (P := Pc.CanResize B) (fun _ => hresize) fun _ => trivial

theorem canResize_dequeueFinish (attempt : Attempt) (capacity : Nat)
    (enqueuing : EnqueuingCapacity) :
    (dequeueFinish attempt capacity enqueuing : Pc α σ).CanResize B :=
  dequeueFinish_elim (P := Pc.CanResize B) (fun _ => trivial) (fun _ => trivial)
    (fun _ _ => canResize_dequeueEntry _ (Or.inl rfl)) (fun _ _ _ => trivial)
    fun _ _ _ => trivial

theorem Transition.canResize {spurious : Bool} {event : Event α}
    (hmove : Transition q pc (.run spurious) q' pc' event)
    (hpc : pc.dequeuing = true) (hresize : pc.CanResize B) : pc'.CanResize B := by
  generalize haction : (Action.run spurious : Action α) = action at hmove
  cases hmove with
  | silent hlocal =>
      cases hlocal with
      | dequeueNotify _ _ _ _ => exact canResize_dequeueFinish _ _ _
      | _ => first | exact trivial | cases hpc
  | lock _ _ _ => exact canResize_dequeueEntry _ hresize
  | _ => exact trivial

theorem Queue.exists_run (hpc : pc.dequeuing = true) (hresize : pc.CanResize B)
    (spurious : Bool) : ∃ q' pc' event, q.run spurious pc = some (q', pc', event) := by
  suffices hsome : (q.run spurious pc).isSome = true by
    obtain ⟨⟨q', pc', event⟩, hrun⟩ := Option.isSome_iff_exists.mp hsome
    exact ⟨q', pc', event, hrun⟩
  cases pc with
  | dequeueResize dequeuing resize =>
      simp only [Queue.run]
      split
      · rfl
      · rename_i capa hcapa
        rw [Option.filter_eq_some_iff] at hcapa
        split
        · rcases hresize with hnone | hall
          · rw [hnone] at hcapa
            cases hcapa.1
          · obtain ⟨b, hb⟩ := Option.isSome_iff_exists.mp
              (hall (q.buffers dequeuing.bufferIndex) capa)
            rw [hb]
            rfl
        · rfl
  | dequeueInsert dequeuing resized values length =>
      cases values with
      | nil => rfl
      | cons value rest =>
          simp only [Queue.run]
          repeat' split
          all_goals rfl
  | idle _ => cases hpc
  | enqueueLoad _ => cases hpc
  | enqueueReserve _ _ _ => cases hpc
  | enqueueInsert _ _ => cases hpc
  | enqueueAcknowledge _ _ => cases hpc
  | slice _ _ _ _ => cases hpc
  | iter _ _ _ => cases hpc
  | panicked _ => cases hpc
  | _ =>
      simp only [Queue.run]
      repeat' split
      all_goals rfl

variable [DecidableEq T] {s : State T B α σ} {t : T}

theorem exists_completion (hpc : (s.pcs t).dequeuing = true)
    (hresize : (s.pcs t).CanResize B) :
    ∃ trace s', Runs.Run SwapBufferQueue.step (Alone t) s trace s' ∧
      (s'.pcs t).returned = true := by
  have hstep : ∀ state : State T B α σ,
      ((state.pcs t).dequeuing = true ∨ (state.pcs t).returned = true) ∧
        (state.pcs t).CanResize B → ¬ (state.pcs t).returned = true →
      ∃ label state' event, Alone t state label ∧
        SwapBufferQueue.step state label = some (state', event) ∧
        (((state'.pcs t).dequeuing = true ∨ (state'.pcs t).returned = true) ∧
          (state'.pcs t).CanResize B) ∧
        state'.queue.rank (state'.pcs t) < state.queue.rank (state.pcs t) := by
    rintro state ⟨hongoing, hresizes⟩ hrunning
    have hdequeuing := hongoing.resolve_right hrunning
    obtain ⟨q', pc', event, hrun⟩ :=
      Queue.exists_run (q := state.queue) hdequeuing hresizes false
    have hmove := Queue.run_cases hrun
    refine ⟨(t, .run false), ⟨q', Function.update state.pcs t pc'⟩, event,
      ⟨rfl, false, rfl⟩, ?_, ?_, ?_⟩
    · simp only [step, Queue.act, hrun]
    · simp only [Function.update_self]
      exact ⟨hmove.dequeuing hdequeuing, hmove.canResize hdequeuing hresizes⟩
    · simp only [Function.update_self]
      exact Queue.rank_run_lt hdequeuing hrun
  obtain ⟨trace, s', hrun, -, hreturned⟩ := Runs.exists_run_of_rank
    (fun state : State T B α σ => state.queue.rank (state.pcs t)) hstep
    ⟨Or.inl hpc, hresize⟩
  exact ⟨trace, s', hrun, hreturned⟩

theorem exists_completion_of_call {args : ResizeArgs α}
    (hpc : s.pcs t = .dequeueLock args)
    (hresize : args.capacity = none ∨
      ∀ (b : B) capa, (Buffer.resize b capa).isSome = true) :
    ∃ trace s', Runs.Run SwapBufferQueue.step (Alone t) s trace s' ∧
      (s'.pcs t).returned = true := by
  apply exists_completion
  · rw [hpc]
    rfl
  · rw [hpc]
    exact hresize

end Completion

section Calls

variable [Buffer B α σ]

/-- The buffer and the length that the next dequeue is about: a batch that is pending
or requeued, else what the enqueuing buffer holds. -/
def Queue.concerned (q : Queue B) : Option (Fin 2 × Nat) :=
  let dequeuing : DequeuingLength := ⟨q.dequeuingLength⟩
  let enqueuing := q.enqueuingCapacity
  let capacity := Buffer.capacity (q.buffers enqueuing.bufferIndex)
  if dequeuing.bufferLen ≠ 0 then some (dequeuing.bufferIndex, dequeuing.bufferLen)
  else if enqueuing.remainingCapacity ≠ capacity then
    some (enqueuing.bufferIndex, capacity - enqueuing.remainingCapacity)
  else none

/-- The elements that the next dequeue is about. -/
def View.concerned (view : View α) (q : Queue B) : List α :=
  if (DequeuingLength.mk q.dequeuingLength).bufferLen ≠ 0 then view.batch else view.tail

def Queue.locked (q : Queue B) : Queue B :=
  { q with dequeuingLength := dequeuingLocked }

/-- The requested capacity is another one than that of the dequeuing buffer. -/
def ResizeArgs.Changes (args : ResizeArgs α) (q : Queue B) : Prop :=
  ∃ capa ∈ args.capacity, capa ≠
    Buffer.capacity (q.buffers (DequeuingLength.mk q.dequeuingLength).bufferIndex)

/-- The queue of a call without insertion, before the swap. -/
structure Prepared (args : ResizeArgs α) (q₀ q : Queue B) (dequeuing : DequeuingLength)
    (resized : Bool) : Prop where
  unlocked : q₀.dequeuingLength ≠ dequeuingLocked
  word : dequeuing = ⟨q₀.dequeuingLength⟩
  vacant : dequeuing.bufferLen = 0
  kept : resized = false → q = q₀.locked
  changes : resized = true ↔ args.Changes q₀
  enqueuing : q.enqueuingCapacity = q₀.enqueuingCapacity
  length : q.buffersLength = q₀.buffersLength
  buffer : q.buffers q₀.enqueuingCapacity.bufferIndex =
    q₀.buffers q₀.enqueuingCapacity.bufferIndex

/-- The words of a call without insertion, from the load of the enqueuing word on. -/
structure Exchanging (args : ResizeArgs α) (q₀ : Queue B) (attempt : Attempt)
    (capacity : Nat) (enqueuing : EnqueuingCapacity) : Prop where
  unlocked : q₀.dequeuingLength ≠ dequeuingLocked
  vacant : (DequeuingLength.mk q₀.dequeuingLength).bufferLen = 0
  changes : attempt.resized = true ↔ args.Changes q₀
  inserted : attempt.insertedLength = 0
  enqueuing_eq : enqueuing = q₀.enqueuingCapacity
  capacity_eq : capacity =
    Buffer.capacity (q₀.buffers q₀.enqueuingCapacity.bufferIndex)

structure Taking (q₀ : Queue B) (g₀ : Ledger T α) (q : Queue B) (g : Ledger T α)
    (i : Fin 2) (length : Nat) : Prop where
  unlocked : q₀.dequeuingLength ≠ dequeuingLocked
  concerned : q₀.concerned = some (i, length)
  buffer : q.buffers i = q₀.buffers i
  length_eq : q.buffersLength i = q₀.buffersLength i
  batch : g.batch = g₀.view.concerned q₀

/-- How a call without insertion ends with an error, with the lock given back. -/
inductive Ends (args : ResizeArgs α) (q₀ : Queue B) (g₀ : Ledger T α) (q : Queue B)
    (g : Ledger T α) : Outcome α → Prop
  | conflict (hlocked : q₀.dequeuingLength = dequeuingLocked) (hsame : q = q₀) :
      Ends args q₀ g₀ q g (.dequeueError .conflict)
  | nothing (hopen : q₀.dequeuingLength ≠ dequeuingLocked)
      (hnone : q₀.concerned = none) (hkeep : ¬ args.Changes q₀) (hsame : q = q₀) :
      Ends args q₀ g₀ q g (.dequeueError
        (if q₀.enqueuingCapacity.isClosed then .closed else .empty))
  | resized (hopen : q₀.dequeuingLength ≠ dequeuingLocked)
      (hnone : q₀.concerned = none) (hchanges : args.Changes q₀) :
      Ends args q₀ g₀ q g (.dequeueError .empty)
  | pending (i : Fin 2) (length : Nat) (htaking : Taking q₀ g₀ q g i length)
      (hlt : q₀.buffersLength i < length)
      (hword : q.dequeuingLength = (DequeuingLength.new i length).word) :
      Ends args q₀ g₀ q g (.dequeueError .pending)

/-- What a call without insertion that runs alone knows of the queue it was called
on. -/
def AloneInv (args : ResizeArgs α) (q₀ : Queue B) (g₀ : Ledger T α) (q : Queue B)
    (g : Ledger T α) : Pc α σ → Prop
  | .dequeueLock resize => resize = args ∧ q = q₀ ∧ g = g₀
  | .dequeueResize dequeuing resize =>
      resize = args ∧ q₀.dequeuingLength ≠ dequeuingLocked ∧
        dequeuing = ⟨q₀.dequeuingLength⟩ ∧ dequeuing.bufferLen = 0 ∧ q = q₀.locked ∧
        g = g₀
  | .dequeueInsert dequeuing resized values length =>
      values = [] ∧ length = 0 ∧ Prepared args q₀ q dequeuing resized ∧ g = g₀
  | .dequeuePublish attempt =>
      attempt.insertedLength = 0 ∧
        Prepared args q₀ q attempt.dequeuing attempt.resized ∧ g = g₀
  | .dequeueLoad attempt =>
      attempt.insertedLength = 0 ∧
        Prepared args q₀ q attempt.dequeuing attempt.resized ∧ g = g₀
  | .dequeueSwap attempt capacity _ enqueuing =>
      Prepared args q₀ q attempt.dequeuing attempt.resized ∧
        Exchanging args q₀ attempt capacity enqueuing ∧ g = g₀
  | .dequeueLoadCapacity attempt capacity enqueuing =>
      Exchanging args q₀ attempt capacity enqueuing ∧
        q.buffers enqueuing.bufferIndex = q₀.buffers enqueuing.bufferIndex ∧
        q.buffersLength = q₀.buffersLength ∧ g.batch = g₀.tail
  | .dequeueStoreCapacity attempt capacity enqueuing =>
      Exchanging args q₀ attempt capacity enqueuing ∧
        q.buffers enqueuing.bufferIndex = q₀.buffers enqueuing.bufferIndex ∧
        q.buffersLength = q₀.buffersLength ∧ g.batch = g₀.tail
  | .dequeueNotify attempt capacity enqueuing =>
      Exchanging args q₀ attempt capacity enqueuing ∧
        q.buffers enqueuing.bufferIndex = q₀.buffers enqueuing.bufferIndex ∧
        q.buffersLength = q₀.buffersLength ∧ g.batch = g₀.tail
  | .dequeueSpin i length _ => Taking q₀ g₀ q g i length
  | .dequeueSlice i start stop =>
      Taking q₀ g₀ q g i (stop - start) ∧ start ≤ stop ∧ stop = q₀.buffersLength i
  | .slice i start stop slice =>
      Taking q₀ g₀ q g i (stop - start) ∧ start ≤ stop ∧ stop = q₀.buffersLength i ∧
        Buffer.slice (q₀.buffers i) start stop = some slice
  | .storeDequeuing dequeuing outcome =>
      Ends args q₀ g₀ { q with dequeuingLength := dequeuing.word } g outcome
  | .idle (some outcome) => Ends args q₀ g₀ q g outcome
  | _ => False

variable {args : ResizeArgs α} {q₀ q : Queue B} {g₀ g : Ledger T α} {t : T}

theorem concerned_of_vacant (g₀ : Ledger T α)
    (hvacant : (DequeuingLength.mk q₀.dequeuingLength).bufferLen = 0) :
    q₀.concerned =
        (if q₀.enqueuingCapacity.remainingCapacity ≠
            Buffer.capacity (q₀.buffers q₀.enqueuingCapacity.bufferIndex) then
          some (q₀.enqueuingCapacity.bufferIndex,
            Buffer.capacity (q₀.buffers q₀.enqueuingCapacity.bufferIndex) -
              q₀.enqueuingCapacity.remainingCapacity)
        else none) ∧
      g₀.view.concerned q₀ = g₀.tail := by
  constructor
  · rw [Queue.concerned, if_neg (not_not.mpr hvacant)]
  · rw [View.concerned, if_neg (not_not.mpr hvacant)]
    rfl

theorem aloneInv_dequeueEntry
    (hopen : q₀.dequeuingLength ≠ dequeuingLocked) :
    AloneInv args q₀ g₀ q₀.locked g₀ (dequeueEntry ⟨q₀.dequeuingLength⟩ args : Pc α σ) := by
  refine dequeueEntry_elim (P := AloneInv args q₀ g₀ q₀.locked g₀)
    (fun hvacant => ⟨rfl, hopen, rfl, hvacant, rfl, rfl⟩) fun hpos => ?_
  have hne := Nat.ne_of_gt hpos
  refine ⟨hopen, ?_, rfl, rfl, ?_⟩
  · rw [Queue.concerned, if_pos hne]
  · rw [View.concerned, if_pos hne]
    rfl

variable [LawfulBuffer B]

theorem aloneInv_dequeueFinish {attempt : Attempt} {capacity : Nat}
    {enqueuing : EnqueuingCapacity}
    (hexchange : Exchanging args q₀ attempt capacity enqueuing)
    (hbuffer : q.buffers enqueuing.bufferIndex = q₀.buffers enqueuing.bufferIndex)
    (hlength : q.buffersLength = q₀.buffersLength) (hbatch : g.batch = g₀.tail)
    (hself : ThreadInv q g t (dequeueFinish attempt capacity enqueuing)) :
    AloneInv args q₀ g₀ q g (dequeueFinish attempt capacity enqueuing : Pc α σ) := by
  obtain ⟨hconcerned, helements⟩ := concerned_of_vacant g₀ hexchange.vacant
  rw [← hexchange.capacity_eq, ← hexchange.enqueuing_eq] at hconcerned
  revert hself
  apply dequeueFinish_elim
    (P := fun pc => ThreadInv q g t pc → AloneInv args q₀ g₀ q g pc)
  · intro _ hself
    cases hself.cause
  · intro hlt _
    rw [if_pos (Nat.ne_of_lt hlt)] at hconcerned
    exact ⟨hexchange.unlocked, hconcerned, hbuffer, by rw [hlength],
      hbatch.trans helements.symm⟩
  · intro _ hpos
    rw [hexchange.inserted] at hpos
    cases hpos
  · intro hfull _ hresized _
    rw [if_neg (not_not.mpr hfull.symm)] at hconcerned
    exact .resized hexchange.unlocked hconcerned (hexchange.changes.mp hresized)
  · intro _ _ _ hself
    cases hself.cause

theorem Local.aloneInv {pc pc' : Pc α σ} {spurious : Bool}
    (hmove : Local q pc (.run spurious) pc') (hself : ThreadInv q g t pc')
    (haccept : ∀ capa ∈ args.capacity, checkOverflow capa = true)
    (hinsert : args.insert = []) (halone : AloneInv args q₀ g₀ q g pc) :
    AloneInv args q₀ g₀ q g pc' := by
  generalize haction : (Action.run spurious : Action α) = action at hmove
  cases hmove with
  | enqueueLoad _ _ => exact halone.elim
  | enqueueRetry _ _ _ _ => exact halone.elim
  | indexUnderflow _ _ _ _ => exact halone.elim
  | insertOutOfBounds _ _ _ _ => exact halone.elim
  | keepCapacity dequeuing resize _ hkeep =>
      obtain ⟨rfl, hopen, rfl, hvacant, rfl, rfl⟩ := halone
      refine ⟨hinsert, rfl, ⟨hopen, rfl, hvacant, fun _ => rfl, ?_, rfl, rfl, rfl⟩, rfl⟩
      refine ⟨fun hfalse => (by cases hfalse), ?_⟩
      rintro ⟨capa, hcapa, hne⟩
      exact absurd (hkeep capa hcapa) hne
  | capacityOverflow _ resize _ capa hcapa hcheck =>
      obtain ⟨rfl, -⟩ := halone
      rw [haccept capa hcapa] at hcheck
      cases hcheck
  | skipEmpty _ _ _ _ _ => cases halone.1
  | stageEnd dequeuing resized values length _ _ => exact halone.2
  | stageOutOfBounds _ _ _ _ _ _ _ => cases halone.1
  | publishNothing attempt _ _ => exact halone
  | bufferIndexAssert _ _ _ => cases hself.cause
  | nextCapacityUnderflow attempt _ hlt =>
      rw [halone.1] at hlt
      cases hlt
  | enqueuingCapacityAssert _ _ _ _ => cases hself.cause
  | dequeueLoad attempt nextEnqueuing _ hindex hwork hle hnext =>
      obtain ⟨hinserted, hprepared, hledger⟩ := halone
      refine ⟨hprepared, ⟨hprepared.unlocked, ?_, hprepared.changes, hinserted,
        hprepared.enqueuing, ?_⟩, hledger⟩
      · rw [← hprepared.word]
        exact hprepared.vacant
      · rw [hprepared.enqueuing, hprepared.buffer]
  | swapRetry attempt capacity nextEnqueuing enqueuing _ =>
      obtain ⟨hprepared, hexchange, hledger⟩ := halone
      exact ⟨hprepared, ⟨hexchange.unlocked, hexchange.vacant, hexchange.changes,
        hexchange.inserted, hprepared.enqueuing, hexchange.capacity_eq⟩, hledger⟩
  | capacityDiffers _ _ _ _ _ => exact halone
  | capacitySame _ _ _ _ _ => exact halone
  | dequeueNotify attempt capacity enqueuing _ =>
      exact aloneInv_dequeueFinish halone.1 halone.2.1 halone.2.2.1 halone.2.2.2 hself
  | spinDone i length spins _ hle =>
      have htaking : Taking q₀ g₀ q g i length := halone
      have hsub : q.buffersLength i - (q.buffersLength i - length) = length := by omega
      refine ⟨?_, Nat.sub_le _ _, htaking.length_eq⟩
      rw [hsub]
      exact htaking
  | spinAgain _ _ _ _ _ _ => exact halone
  | spinPending i length spins _ hlt _ =>
      have htaking : Taking q₀ g₀ q g i length := halone
      refine .pending i length ⟨htaking.unlocked, htaking.concerned, htaking.buffer,
        htaking.length_eq, htaking.batch⟩ ?_ rfl
      rw [← htaking.length_eq]
      exact hlt
  | sliceOutOfBounds _ _ _ _ _ => cases hself.cause
  | clearOutOfBounds _ _ _ _ _ => exact halone.elim
  | _ => cases haction

variable {s : State T B α σ}

/-- What a call without insertion that runs alone knows is kept by its steps. -/
theorem Sim.aloneInv_step [DecidableEq T] (hsim : Sim s g) {spurious : Bool}
    {q' : Queue B} {pc' : Pc α σ} {event : Event α}
    (hmove : Transition s.queue (s.pcs t) (.run spurious) q' pc' event)
    (hself : ThreadInv q' (g.next t event) t pc')
    (haccept : ∀ capa ∈ args.capacity, checkOverflow capa = true)
    (hinsert : args.insert = []) (halone : AloneInv args q₀ g₀ s.queue g (s.pcs t)) :
    AloneInv args q₀ g₀ q' (g.next t event) pc' := by
  have hbatch := congrArg View.batch (hsim.view_step hmove)
  change (g.next t event).batch = _ at hbatch
  have hthread := hsim.thread t
  generalize s.pcs t = pc at hmove halone hthread
  generalize haction : (Action.run spurious : Action α) = action at hmove
  cases hmove with
  | silent hlocal =>
      cases haction
      exact hlocal.aloneInv hself haccept hinsert halone
  | conflict resize _ hlocked =>
      obtain ⟨rfl, hqueue, rfl⟩ := halone
      rw [hqueue] at hlocked
      exact .conflict hlocked hqueue
  | lock resize _ hopen =>
      obtain ⟨rfl, rfl, rfl⟩ := halone
      exact aloneInv_dequeueEntry hopen
  | resize dequeuing resize _ capa b hcapa hne hcheck hresize =>
      have hhidden : Hidden s.queue g dequeuing .staged 0 := hthread
      obtain ⟨rfl, hopen, rfl, hvacant, hqueue, rfl⟩ := halone
      have hother : q₀.enqueuingCapacity.bufferIndex ≠
          (DequeuingLength.mk q₀.dequeuingLength).bufferIndex := by
        have henqueuing := hsim.shared.enqueuing
        rw [hqueue] at henqueuing
        change g.enqueuing = q₀.enqueuingCapacity.bufferIndex at henqueuing
        rw [← henqueuing]
        exact hhidden.other.symm
      rw [hqueue] at hne ⊢
      refine ⟨hinsert, rfl, ⟨hopen, rfl, hvacant, fun hfalse => (by cases hfalse), ?_, rfl,
        rfl, ?_⟩, rfl⟩
      · exact ⟨fun _ => ⟨capa, hcapa, hne⟩, fun _ => rfl⟩
      · rw [Queue.buffers_setBuffer, if_neg hother]
        rfl
  | stage _ _ _ _ _ _ _ _ _ _ => cases halone.1
  | publish attempt _ hpos =>
      rw [halone.1] at hpos
      cases hpos
  | foundEmpty attempt _ hindex hempty hresized hinserted =>
      obtain ⟨-, hprepared, rfl⟩ := halone
      have hvacant : (DequeuingLength.mk q₀.dequeuingLength).bufferLen = 0 := by
        rw [← hprepared.word]
        exact hprepared.vacant
      have hconcerned := (concerned_of_vacant g hvacant).1
      rw [hprepared.enqueuing, hprepared.buffer] at hempty
      rw [if_neg (not_not.mpr hempty)] at hconcerned
      have hkeep : ¬ args.Changes q₀ := by
        intro hchanges
        rw [hprepared.changes.mpr hchanges] at hresized
        cases hresized
      rw [hprepared.enqueuing]
      refine .nothing hprepared.unlocked hconcerned hkeep ?_
      rw [hprepared.kept hresized, hprepared.word]
      rfl
  | swap attempt capacity nextEnqueuing =>
      obtain ⟨hprepared, hexchange, rfl⟩ := halone
      refine ⟨hexchange, ?_, hprepared.length, hbatch⟩
      rw [hexchange.enqueuing_eq]
      exact hprepared.buffer
  | storeCapacity _ _ _ _ => exact halone
  | slice i start stop _ slice hslice =>
      obtain ⟨htaking, hle, hstop⟩ := halone
      refine ⟨htaking, hle, hstop, ?_⟩
      rw [← htaking.buffer]
      exact hslice
  | clear _ _ _ _ _ _ _ => exact halone.elim
  | release _ _ => exact halone.elim
  | unlock dequeuing outcome _ => exact halone
  | reserve _ _ => exact halone.elim
  | insert _ _ _ _ _ => exact halone.elim
  | acknowledge _ _ _ => exact halone.elim
  | _ => cases haction

/-- A call without insertion that runs alone, from the state it starts in. -/
theorem aloneInv_of_run [DecidableEq T] (hsim : Sim s g) (hpc : s.pcs t = .dequeueLock args)
    (haccept : ∀ capa ∈ args.capacity, checkOverflow capa = true)
    (hinsert : args.insert = []) {trace : List ((T × Action α) × Event α)}
    {s' : State T B α σ} (hrun : Runs.Run SwapBufferQueue.step (Alone t) s trace s') :
    Sim s' (g.after trace) ∧
      AloneInv args s.queue g s'.queue (g.after trace) (s'.pcs t) := by
  refine ⟨hsim.of_run (fun _ _ => Alone.sizeOk) hrun, ?_⟩
  refine hrun.invariant (fun trace s' =>
    AloneInv args s.queue g s'.queue (g.after trace) (s'.pcs t)) ?_ ?_
  · rw [hpc]
    exact ⟨rfl, rfl, rfl⟩
  · rintro trace state state' ⟨t', action⟩ event hearlier halone hlabel hstep
    have hstate := hsim.of_run (fun _ _ => Alone.sizeOk) hearlier
    have hstate' := hstate.step hlabel.sizeOk hstep
    obtain ⟨rfl, spurious, rfl⟩ := hlabel
    obtain ⟨q', pc', hmove, rfl⟩ := step_cases hstep
    rw [Ledger.after_append]
    change AloneInv args s.queue g q' _ (Function.update state.pcs t' pc' t')
    rw [Function.update_self]
    exact hstate.aloneInv_step hmove hstate'.self haccept hinsert halone

end Calls

end SwapBufferQueue
