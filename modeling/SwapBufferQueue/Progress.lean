/-
How many steps a call makes, whatever the others do.  The others delay a dequeue only
while it tries to swap: each of their reservations takes room that is gone for good, so
the delay is bounded by the room the dequeue has found.  An enqueue goes round once more
only when another call has taken effect.
-/
import SwapBufferQueue.DequeueAndResize
import SwapBufferQueue.RecipeInvariant
import SwapBufferQueue.Alone

namespace SwapBufferQueue

universe u v w x

variable {T : Type x} {B : Type u} {α : Type v} {σ : Type w}

section Counting

/-- A weak compare-exchange that fails without a reason. -/
def Action.spurious : Action α → Bool
  | .run spurious => spurious
  | _ => false

/-- The events that set or clear the closed flag. -/
def Event.changesFlag : Event α → Bool
  | .closed => true
  | .reopened => true
  | _ => false

/-- The events that change the enqueuing word: a call takes effect there. -/
def Event.changesWord : Event α → Bool
  | .reserved _ _ => true
  | .swapped _ => true
  | .closed => true
  | .reopened => true
  | _ => false

variable [DecidableEq T]

def ownSteps (t : T) (trace : List ((T × Action α) × Event α)) : Nat :=
  (trace.map fun entry => (decide (entry.1.1 = t)).toNat).sum

/-- The number of steps of an activity that failed spuriously. -/
def spuriousSteps (t : T) (trace : List ((T × Action α) × Event α)) : Nat :=
  (trace.map fun entry => (decide (entry.1.1 = t) && entry.1.2.spurious).toNat).sum

/-- The number of times the queue was closed or reopened. -/
def flagChanges (trace : List ((T × Action α) × Event α)) : Nat :=
  (trace.map fun entry => entry.2.changesFlag.toNat).sum

/-- The number of times another activity has changed the enqueuing word. -/
def wordChanges (t : T) (trace : List ((T × Action α) × Event α)) : Nat :=
  (trace.map fun entry => (!decide (entry.1.1 = t) && entry.2.changesWord).toNat).sum

end Counting

section Budget

/-- The room a second attempt may find in the buffer the first one has swapped in. -/
def Attempt.room (attempt : Attempt) : Nat :=
  if attempt.insertedLength = 0 then 0 else attempt.nextCapa

/-- The same before the insertion: without values there is no second attempt. -/
def stagingRoom (capacity : Nat) (values : List (List α)) (length : Nat) : Nat :=
  if values.isEmpty = true ∧ length = 0 then 0 else capacity

theorem stagingRoom_le (capacity : Nat) (values : List (List α)) (length : Nat) :
    stagingRoom capacity values length ≤ capacity := by
  unfold stagingRoom
  split
  · exact Nat.zero_le _
  · exact le_rfl

theorem stagingRoom_cons (capacity : Nat) (value : List α) (rest : List (List α))
    (length : Nat) : stagingRoom capacity (value :: rest) length = capacity :=
  if_neg (by simp)

theorem Attempt.room_le_stagingRoom (attempt : Attempt) (values : List (List α)) :
    attempt.room ≤ stagingRoom attempt.nextCapa values attempt.insertedLength := by
  unfold room stagingRoom
  split
  · exact Nat.zero_le _
  · rename_i hinserted
    rw [if_neg fun hboth => hinserted hboth.2]

variable [Buffer B α σ]

/-- How often the others can make a dequeue try its swap again: each time they take room. -/
def Queue.contention (q : Queue B) : Pc α σ → Nat
  | .dequeueResize dequeuing resize =>
      q.enqueuingCapacity.remainingCapacity +
        stagingRoom (resize.capacity.getD
          (Buffer.capacity (q.buffers dequeuing.bufferIndex))) resize.insert 0
  | .dequeueInsert dequeuing _ values length =>
      q.enqueuingCapacity.remainingCapacity +
        stagingRoom (Buffer.capacity (q.buffers dequeuing.bufferIndex)) values length
  | .dequeuePublish attempt => q.enqueuingCapacity.remainingCapacity + attempt.room
  | .dequeueLoad attempt => q.enqueuingCapacity.remainingCapacity + attempt.room
  | .dequeueSwap attempt _ _ _ => q.enqueuingCapacity.remainingCapacity + attempt.room
  | .dequeueLoadCapacity attempt _ _ =>
      if attempt.insertedLength = 0 then 0 else q.enqueuingCapacity.remainingCapacity
  | .dequeueStoreCapacity attempt _ _ =>
      if attempt.insertedLength = 0 then 0 else q.enqueuingCapacity.remainingCapacity
  | .dequeueNotify attempt _ _ =>
      if attempt.insertedLength = 0 then 0 else q.enqueuingCapacity.remainingCapacity
  | _ => 0

theorem contention_dequeueEntry_none (q : Queue B) (dequeuing : DequeuingLength) :
    q.contention (dequeueEntry dequeuing .none : Pc α σ) ≤
      q.enqueuingCapacity.remainingCapacity :=
  dequeueEntry_elim
    (P := fun pc => q.contention pc ≤ q.enqueuingCapacity.remainingCapacity)
    (fun _ => le_rfl) fun _ => Nat.zero_le _

theorem contention_dequeueFinish_le (q : Queue B) (attempt : Attempt) (capacity : Nat)
    (enqueuing : EnqueuingCapacity) :
    q.contention (dequeueFinish attempt capacity enqueuing : Pc α σ) ≤
      q.contention (.dequeueNotify attempt capacity enqueuing : Pc α σ) := by
  refine dequeueFinish_elim (P := fun pc => q.contention pc ≤ _) (fun _ => Nat.zero_le _)
    (fun _ => Nat.zero_le _) (fun _ hpos => ?_) (fun _ _ _ => Nat.zero_le _)
    fun _ _ _ => Nat.zero_le _
  refine Nat.le_trans (contention_dequeueEntry_none q _) ?_
  change _ ≤ if attempt.insertedLength = 0 then 0 else _
  rw [if_neg (Nat.ne_of_gt hpos)]

variable [LawfulBuffer B] {s : State T B α σ} {g : Ledger T α} {t : T}

/-- The steps of a dequeue leave the others no more room to take. -/
theorem Sim.contention_run_le (hsim : Sim s g) {spurious : Bool} {q' : Queue B}
    {pc' : Pc α σ} {event : Event α} (hpc : (s.pcs t).dequeuing = true)
    (hholds : (s.pcs t).holds = true)
    (hmove : Transition s.queue (s.pcs t) (.run spurious) q' pc' event) :
    q'.contention pc' ≤ s.queue.contention (s.pcs t) := by
  have hthread := hsim.thread t
  generalize haction : (Action.run spurious : Action α) = action at hmove
  generalize s.pcs t = pc at hmove hthread hpc hholds
  cases hmove with
  | silent hlocal =>
      cases hlocal with
      | keepCapacity dequeuing resize _ hcapacity =>
          have hgetD : resize.capacity.getD
              (Buffer.capacity (s.queue.buffers dequeuing.bufferIndex)) =
              Buffer.capacity (s.queue.buffers dequeuing.bufferIndex) := by
            cases hcapa : resize.capacity with
            | none => rfl
            | some capa => exact hcapacity capa hcapa
          simp only [Queue.contention, hgetD]
          exact le_rfl
      | skipEmpty dequeuing resized rest length _ =>
          simp only [Queue.contention, stagingRoom_cons]
          exact Nat.add_le_add_left (stagingRoom_le _ _ _) _
      | stageEnd dequeuing resized values length _ _ =>
          exact Nat.add_le_add_left (Attempt.room_le_stagingRoom _ values) _
      | publishNothing _ _ _ => exact le_rfl
      | dequeueLoad _ _ _ _ _ _ _ => exact le_rfl
      | swapRetry _ _ _ _ _ => exact le_rfl
      | capacityDiffers _ _ _ _ _ => exact le_rfl
      | capacitySame _ _ _ _ _ => exact le_rfl
      | dequeueNotify attempt capacity enqueuing _ =>
          exact contention_dequeueFinish_le s.queue attempt capacity enqueuing
      | _ => first | exact Nat.zero_le _ | cases hpc
  | resize dequeuing resize _ capa b hcapa _ _ hresize =>
      simp only [Queue.contention, Queue.buffers_setBuffer, if_true, hcapa, Option.getD_some,
        LawfulBuffer.capacity_resize hresize]
      exact le_rfl
  | stage dequeuing resized value rest length _ b _ _ hinsert =>
      simp only [Queue.contention, Queue.buffers_setBuffer, if_true, stagingRoom_cons,
        LawfulBuffer.capacity_insertInto hinsert]
      exact Nat.add_le_add_left (stagingRoom_le _ _ _) _
  | publish _ _ _ => exact le_rfl
  | swap attempt capacity nextEnqueuing =>
      have hswap : Swapping s.queue g attempt capacity nextEnqueuing _ := hthread
      have hspec := EnqueuingCapacity.withClosed_spec hswap.next_open
        s.queue.enqueuingCapacity
      simp only [Queue.contention, Attempt.room]
      split
      · exact Nat.zero_le _
      · rw [hspec.2.1, hswap.next_remaining]
        omega
  | storeCapacity _ _ _ _ => exact le_rfl
  | lock _ _ _ => cases hholds
  | _ => exact Nat.zero_le _

/-- What a dequeue may still cost: its own steps, and one more for each time the others
can take room from it. -/
def Queue.budget (q : Queue B) (pc : Pc α σ) : Nat :=
  q.rank pc + q.contention pc

omit [Buffer B α σ] [LawfulBuffer B] in
theorem rank_swap_le (q : Queue B) (attempt : Attempt) (capacity : Nat)
    (next enqueuing : EnqueuingCapacity) :
    q.rank (.dequeueSwap attempt capacity next q.enqueuingCapacity : Pc α σ) ≤
      q.rank (.dequeueSwap attempt capacity next enqueuing : Pc α σ) := by
  simp only [Queue.rank, if_true]
  split
  · exact le_rfl
  · omega

omit [LawfulBuffer B] in
/-- A step pays for itself unless it failed spuriously. -/
theorem Queue.rank_run_le {q q' : Queue B} {pc pc' : Pc α σ} {event : Event α}
    (spurious : Bool) (hpc : pc.dequeuing = true)
    (hrun : q.run spurious pc = some (q', pc', event)) :
    q'.rank pc' + 1 ≤ q.rank pc + spurious.toNat := by
  cases spurious with
  | false => exact Queue.rank_run_lt hpc hrun
  | true =>
      cases pc with
      | dequeueSwap attempt capacity next enqueuing =>
          simp only [Queue.run, Bool.true_eq_false, false_and, if_false] at hrun
          cases hrun
          exact Nat.add_le_add_right (rank_swap_le _ attempt capacity next enqueuing) 1
      | _ =>
          -- The flag is read by the two compare-exchanges only.
          first
            | exact Nat.le_succ_of_le (Queue.rank_run_lt hpc hrun)
            | cases hpc

theorem Sim.budget_run (hsim : Sim s g) {spurious : Bool} {q' : Queue B} {pc' : Pc α σ}
    {event : Event α} (hpc : (s.pcs t).dequeuing = true) (hholds : (s.pcs t).holds = true)
    (hrun : s.queue.run spurious (s.pcs t) = some (q', pc', event)) :
    q'.budget pc' + 1 ≤ s.queue.budget (s.pcs t) + spurious.toNat := by
  have hrank := Queue.rank_run_le spurious hpc hrun
  have hcontention := hsim.contention_run_le hpc hholds (Queue.run_cases hrun)
  unfold Queue.budget
  omega

theorem Transition.capacity_of_not_holds {q q' : Queue B} {pc pc' : Pc α σ}
    {action : Action α} {event : Event α} (hmove : Transition q pc action q' pc' event)
    (hfree : pc.holds = false) (i : Fin 2) :
    Buffer.capacity (q'.buffers i) = Buffer.capacity (q.buffers i) := by
  cases hmove with
  | insert _ _ _ _ hinsert =>
      exact Queue.capacity_setBuffer (LawfulBuffer.capacity_insertInto hinsert) i
  | resize _ _ _ _ _ _ _ _ _ => cases hfree
  | stage _ _ _ _ _ _ _ _ _ _ => cases hfree
  | remove _ _ _ _ _ _ _ => cases hfree
  | clear _ _ _ _ _ _ _ => cases hfree
  | _ => rfl

/-- Without the lock the enqueuing word changes only when room is taken or the flag is
set or cleared. -/
theorem Transition.word_of_not_holds {q q' : Queue B} {pc pc' : Pc α σ}
    {action : Action α} {event : Event α} (hmove : Transition q pc action q' pc' event)
    (hthread : ThreadInv q g t pc) (hfree : pc.holds = false) :
    q'.enqueuingCapacity = q.enqueuingCapacity ∨
      q'.enqueuingCapacity.remainingCapacity < q.enqueuingCapacity.remainingCapacity ∨
      event.changesFlag = true := by
  cases hmove with
  | reserve value next =>
      obtain ⟨hne, hsize, hopen, hnext⟩ := hthread
      have hspec := (EnqueuingCapacity.tryReserve_eq_some_iff hopen hsize).mp hnext
      have hpos := List.length_pos_iff.mpr hne
      refine Or.inr (Or.inl ?_)
      change next.remainingCapacity < _
      rw [hspec.2.2.1]
      omega
  | close _ => exact Or.inr (Or.inr rfl)
  | reopen _ => exact Or.inr (Or.inr rfl)
  | swap _ _ _ => cases hfree
  | _ => exact Or.inl rfl

omit [LawfulBuffer B] in
theorem Queue.budget_le {q q' : Queue B} {pc : Pc α σ}
    (hcapacity : ∀ i, Buffer.capacity (q'.buffers i) = Buffer.capacity (q.buffers i))
    (hremaining : q'.enqueuingCapacity.remainingCapacity ≤
      q.enqueuingCapacity.remainingCapacity) {flag : Bool}
    (hword : q'.enqueuingCapacity = q.enqueuingCapacity ∨
      q'.enqueuingCapacity.remainingCapacity < q.enqueuingCapacity.remainingCapacity ∨
      flag = true) :
    q'.budget pc ≤ q.budget pc + flag.toNat := by
  cases pc with
  | dequeueSwap attempt capacity next enqueuing =>
      simp only [Queue.budget, Queue.rank, Queue.contention]
      rcases hword with hsame | hless | rfl
      · rw [hsame]
        omega
      · split <;> split <;> omega
      · simp only [Bool.toNat_true]
        split <;> split <;> omega
  | dequeueResize dequeuing resize =>
      simp only [Queue.budget, Queue.rank, Queue.contention, hcapacity]
      omega
  | dequeueInsert dequeuing resized values length =>
      simp only [Queue.budget, Queue.rank, Queue.contention, hcapacity]
      omega
  | _ =>
      simp only [Queue.budget, Queue.rank, Queue.contention]
      first | omega | (split <;> omega)

/-- A step of another activity costs a dequeue nothing that it had not set aside, except
when the flag changes. -/
theorem Sim.budget_other (hsim : Sim s g) {t' : T} (ht' : t' ≠ t)
    (hholds : (s.pcs t).holds = true) {action : Action α} {q' : Queue B} {pc' : Pc α σ}
    {event : Event α} (hmove : Transition s.queue (s.pcs t') action q' pc' event) :
    q'.budget (s.pcs t) ≤ s.queue.budget (s.pcs t) + event.changesFlag.toNat := by
  have hfree : (s.pcs t').holds = false :=
    Bool.eq_false_iff.mpr fun hother => ht' (hsim.exclusive hother hholds)
  have hthread := hsim.thread t'
  have hswap : ∀ i, event ≠ .swapped i := by
    rintro i rfl
    generalize s.pcs t' = pc at hmove hfree
    cases hmove with
    | swap _ _ _ => cases hfree
  exact Queue.budget_le (hmove.capacity_of_not_holds hfree)
    (hmove.remaining_le hthread hswap) (hmove.word_of_not_holds hthread hfree)

end Budget

section Dequeue

variable [DecidableEq T] [Buffer B α σ]

/-- The others' steps are left to them, the activity only goes on with its call. -/
def GoesOn (t : T) (label : T × Action α) : Prop :=
  label.1 = t → ∃ spurious, label.2 = .run spurious

/-- A dequeue that holds the lock, or has returned. -/
structure Dequeues (B : Type u) [Buffer B α σ] (pc : Pc α σ) : Prop where
  ongoing : (pc.dequeuing = true ∧ pc.holds = true) ∨ pc.returned = true
  canResize : pc.CanResize B

omit [Buffer B α σ] in
theorem holds_of_dequeuing {pc : Pc α σ} (hpc : pc.dequeuing = true)
    (hlock : ∀ resize, pc ≠ .dequeueLock resize) : pc.holds = true := by
  cases pc with
  | dequeueLock resize => exact absurd rfl (hlock resize)
  | _ => first | rfl | cases hpc

theorem Transition.ne_dequeueLock {q q' : Queue B} {pc pc' : Pc α σ} {spurious : Bool}
    {event : Event α} (hmove : Transition q pc (.run spurious) q' pc' event)
    (hpc : pc.dequeuing = true) (resize : ResizeArgs α) : pc' ≠ .dequeueLock resize := by
  generalize haction : (Action.run spurious : Action α) = action at hmove
  cases hmove with
  | silent hlocal =>
      cases hlocal with
      | dequeueNotify attempt capacity enqueuing _ =>
          refine dequeueFinish_elim (P := fun pc => pc ≠ .dequeueLock resize) nofun nofun
            (fun _ _ => ?_) nofun nofun
          exact dequeueEntry_elim (P := fun pc => pc ≠ .dequeueLock resize) nofun nofun
      | tryDequeue _ => cases haction
      | tryDequeueAndResize _ _ => cases haction
      | _ => first | exact absurd hpc Bool.false_ne_true | nofun
  | lock _ _ _ => exact dequeueEntry_elim (P := fun pc => pc ≠ .dequeueLock resize) nofun nofun
  | _ => nofun

omit [DecidableEq T] in
/-- A dequeue keeps the lock until it returns. -/
theorem Dequeues.run {q q' : Queue B} {pc pc' : Pc α σ} {spurious : Bool}
    {event : Event α} (hcall : Dequeues B pc)
    (hmove : Transition q pc (.run spurious) q' pc' event) (hpc : pc.dequeuing = true) :
    Dequeues B pc' := by
  refine ⟨?_, hmove.canResize hpc hcall.canResize⟩
  rcases hmove.dequeuing hpc with hdequeuing | hreturned
  · exact Or.inl ⟨hdequeuing, holds_of_dequeuing hdequeuing (hmove.ne_dequeueLock hpc)⟩
  · exact Or.inr hreturned

variable {s s' : State T B α σ} {t : T} {during : List ((T × Action α) × Event α)}

theorem not_run_of_returned {spurious : Bool} {event : Event α} {pc : Pc α σ}
    (hpc : pc.returned = true) {q q' : Queue B} {pc' : Pc α σ} :
    q.run spurious pc ≠ some (q', pc', event) := by
  cases pc with
  | idle _ => simp [Queue.run]
  | slice _ _ _ _ => simp [Queue.run]
  | panicked _ => simp [Queue.run]
  | _ => cases hpc

/-- While its steps only go on with it, a dequeue that has the lock works on or has
returned. -/
theorem dequeues_of_run {ok : State T B α σ → T × Action α → Prop}
    (hcall : Dequeues B (s.pcs t))
    (hrun : Runs.Run SwapBufferQueue.step (fun state label => ok state label ∧ GoesOn t label)
      s during s') : Dequeues B (s'.pcs t) := by
  refine hrun.invariant (fun _ state => Dequeues B (state.pcs t)) hcall ?_
  rintro trace state state' ⟨t', action⟩ event - hstate ⟨-, hgoes⟩ hstep
  by_cases ht' : t' = t
  · subst ht'
    obtain ⟨spurious, haction⟩ := hgoes rfl
    cases haction
    obtain ⟨q', pc', hrun', rfl⟩ := run_of_step hstep
    change Dequeues B (Function.update state.pcs t' pc' t')
    rw [Function.update_self]
    rcases hstate.ongoing with hongoing | hreturned
    · exact hstate.run (Queue.run_cases hrun') hongoing.1
    · exact absurd hrun' (not_run_of_returned hreturned)
  · obtain ⟨q', pc', -, rfl⟩ := step_cases hstep
    change Dequeues B (Function.update state.pcs t' pc' t)
    rw [Function.update_of_ne (Ne.symm ht')]
    exact hstate

variable [LawfulBuffer B] {start : State T B α σ}
  {before : List ((T × Action α) × Event α)}

/-- Each step of a run is paid out of the budget of the dequeue, by a spurious failure or
by a change of the flag. -/
theorem ownSteps_le_budget (hinitial : Initial start)
    (hbefore : Runs.Run SwapBufferQueue.step SizeOk start before s)
    (hcall : Dequeues B (s.pcs t))
    (hrun : Runs.Run SwapBufferQueue.step
      (fun state label => SizeOk state label ∧ GoesOn t label) s during s') :
    s'.queue.budget (s'.pcs t) + ownSteps t during ≤
      s.queue.budget (s.pcs t) + (spuriousSteps t during + flagChanges during) := by
  have hpaid := hrun.amortized (fun state => state.queue.budget (state.pcs t))
    (fun entry => (decide (entry.1.1 = t)).toNat)
    (fun entry => (decide (entry.1.1 = t) && entry.1.2.spurious).toNat +
      entry.2.changesFlag.toNat) ?_
  · simpa [ownSteps, spuriousSteps, flagChanges, List.sum_map_add] using hpaid
  · rintro trace state state' ⟨t', action⟩ event hearlier ⟨hsize, hgoes⟩ hstep
    have hstate := dequeues_of_run hcall hearlier
    have hsim := sim_of_run hinitial (fun _ _ h => h)
      (hbefore.append (hearlier.mono fun _ _ h => h.1))
    by_cases ht' : t' = t
    · subst ht'
      obtain ⟨spurious, haction⟩ := hgoes rfl
      cases haction
      obtain ⟨q', pc', hrun', rfl⟩ := run_of_step hstep
      rcases hstate.ongoing with hongoing | hreturned
      · have hown := hsim.budget_run hongoing.1 hongoing.2 hrun'
        simp only [Function.update_self, decide_true, Bool.toNat_true, Bool.true_and,
          Action.spurious]
        omega
      · exact absurd hrun' (not_run_of_returned hreturned)
    · obtain ⟨q', pc', hmove, rfl⟩ := step_cases hstep
      simp only [Function.update_of_ne (Ne.symm ht'), ht', decide_false, Bool.toNat_false,
        Bool.false_and]
      rcases hstate.ongoing with hongoing | hreturned
      · have hother := hsim.budget_other ht' hongoing.2 hmove
        omega
      · have hzero : ∀ q : Queue B, q.budget (state.pcs t) = 0 := by
          intro q
          generalize state.pcs t = pc at hreturned
          cases pc <;> first | rfl | cases hreturned
        rw [hzero]
        exact Nat.zero_le _

/-- What the values of a call add to its steps: their insertion, and a second attempt that
swaps the buffer they were inserted in. -/
def ResizeArgs.staging (args : ResizeArgs α) (capacity : Nat) : Nat :=
  if args.insert.isEmpty = true then 0
  else args.insert.length + 16 + args.capacity.getD capacity

omit [DecidableEq T] [LawfulBuffer B] in
theorem budget_dequeueEntry_le (q : Queue B) (dequeuing : DequeuingLength)
    (args : ResizeArgs α) :
    q.budget (dequeueEntry dequeuing args : Pc α σ) ≤
      spinLimit + 13 + q.enqueuingCapacity.remainingCapacity +
        args.staging (Buffer.capacity (q.buffers dequeuing.bufferIndex)) := by
  refine dequeueEntry_elim (P := fun pc => q.budget pc ≤ _) (fun _ => ?_) fun _ => ?_
  · simp only [Queue.budget, Queue.rank, Queue.contention, stagingRank, stagingRoom,
      ResizeArgs.staging, and_true]
    split <;> omega
  · simp only [Queue.budget, Queue.rank, Queue.contention]
    omega

/-- Dequeuing is wait-free.  Whatever the others do, a `try_dequeue` or
`try_dequeue_and_resize` makes a number of steps that is bounded by the room and the
arguments it starts with, besides the compare-exchanges that fail spuriously and one for
each call of `close` and `reopen`; until it returns it always has a next step. -/
theorem dequeue_wait_free (hinitial : Initial start)
    (hbefore : Runs.Run SwapBufferQueue.step SizeOk start before s) {args : ResizeArgs α}
    (hpc : s.pcs t = .dequeueLock args)
    (hresize : (.dequeueLock args : Pc α σ).CanResize B) {spurious : Bool}
    {s₁ : State T B α σ} {event : Event α}
    (hlock : SwapBufferQueue.step s (t, .run spurious) = some (s₁, event))
    (hduring : Runs.Run SwapBufferQueue.step SizeOk s₁ during s') (hcall : OneCall t during) :
    ownSteps t during ≤
        spinLimit + 13 + s.queue.enqueuingCapacity.remainingCapacity +
          args.staging (Buffer.capacity (s.queue.buffers
            (DequeuingLength.mk s.queue.dequeuingLength).bufferIndex)) +
          (spuriousSteps t during + flagChanges during) ∧
      ((s'.pcs t).returned = true ∨ ∀ spurious, ∃ s'' event,
        SwapBufferQueue.step s' (t, .run spurious) = some (s'', event)) := by
  have hlocked := hbefore.snoc (sizeOk_of_value_eq_none rfl) hlock
  obtain ⟨q', pc', hmove, rfl⟩ := step_cases hlock
  rw [hpc] at hmove
  have hself : (⟨q', Function.update s.pcs t pc'⟩ : State T B α σ).pcs t = pc' :=
    Function.update_self _ _ _
  have hbudget : q'.budget pc' ≤ spinLimit + 13 +
      s.queue.enqueuingCapacity.remainingCapacity + args.staging (Buffer.capacity
        (s.queue.buffers (DequeuingLength.mk s.queue.dequeuingLength).bufferIndex)) := by
    cases hmove with
    | conflict _ _ _ => exact Nat.zero_le _
    | lock _ _ _ =>
        exact budget_dequeueEntry_le { s.queue with dequeuingLength := dequeuingLocked }
          ⟨s.queue.dequeuingLength⟩ args
    | silent hlocal => cases hlocal
  have hdequeues : Dequeues B pc' := by
    refine ⟨?_, hmove.canResize rfl hresize⟩
    rcases hmove.dequeuing rfl with hdequeuing | hreturned
    · exact Or.inl ⟨hdequeuing, holds_of_dequeuing hdequeuing (hmove.ne_dequeueLock rfl)⟩
    · exact Or.inr hreturned
  have hgoes := hduring.restrict (P := GoesOn t) hcall
  rw [← hself] at hbudget hdequeues
  constructor
  · calc ownSteps t during
        ≤ s'.queue.budget (s'.pcs t) + ownSteps t during := Nat.le_add_left _ _
      _ ≤ _ := ownSteps_le_budget hinitial hlocked hdequeues hgoes
      _ ≤ _ := Nat.add_le_add_right hbudget _
  · have hend := dequeues_of_run hdequeues hgoes
    rcases hend.ongoing with hongoing | hreturned
    · refine Or.inr fun spurious => ?_
      obtain ⟨q'', pc'', event', hrun⟩ :=
        Queue.exists_run (q := s'.queue) hongoing.1 hend.canResize spurious
      exact ⟨_, _, step_of_act rfl hrun⟩
    · exact Or.inl hreturned

end Dequeue

/-- A dequeue loses its first swap to a reservation, and takes both values. -/
theorem dequeue_wait_free_reserved :
    ∃ (start s s₁ s' : State Nat (VecBuffer Nat) Nat (List Nat)) (before : _) (event : _)
        (during : _),
      Initial start ∧ Runs.Run SwapBufferQueue.step SizeOk start before s ∧
      SwapBufferQueue.step s (1, .run false) = some (s₁, event) ∧
      Runs.Run SwapBufferQueue.step SizeOk s₁ during s' ∧ OneCall 1 during ∧
      (s'.pcs 1).returned = true ∧ ownSteps 1 during = 10 ∧
      ownSteps 1 during ≤ spinLimit + 13 + 1 + 0 +
        (spuriousSteps 1 during + flagChanges during) := by
  have hinitial := initial_withCapacity (T := Nat) (B := VecBuffer Nat)
    (show (Queue.withCapacity 2).isSome = true by decide +kernel)
  have hbefore := Runs.run_of_isSome SwapBufferQueue.step SizeOk
    (State.ofQueue ((Queue.withCapacity 2).get (by decide +kernel)) :
      State Nat (VecBuffer Nat) Nat (List Nat))
    (List.flatten [[(0, .tryEnqueue [7])], List.replicate 4 (0, .run false),
      [(1, .tryDequeue), (0, .tryEnqueue [8]), (0, .run false)]])
    (by decide +kernel) (by decide +kernel)
  obtain ⟨before, s, hbefore, hpc, hremaining, s₁, event, hlock, during, s', hduring,
      hcall, hreturned, hsteps⟩ :
      ∃ before s, Runs.Run SwapBufferQueue.step SizeOk _ before s ∧
        s.pcs 1 = .dequeueLock .none ∧
        s.queue.enqueuingCapacity.remainingCapacity = 1 ∧
        ∃ s₁ event, SwapBufferQueue.step s (1, .run false) = some (s₁, event) ∧
          ∃ during s', Runs.Run SwapBufferQueue.step SizeOk s₁ during s' ∧
            OneCall 1 during ∧ (s'.pcs 1).returned = true ∧ ownSteps 1 during = 10 :=
    ⟨_, _, hbefore, by decide +kernel, by decide +kernel, _, _,
      (Option.some_get (by decide +kernel)).symm, _, _,
      Runs.run_of_isSome SwapBufferQueue.step SizeOk _
        (List.flatten [List.replicate 4 (1, .run false), List.replicate 3 (0, .run false),
          List.replicate 6 (1, .run false)])
        (by decide +kernel) (by decide +kernel),
      by decide +kernel, by decide +kernel, by decide +kernel⟩
  have hbound := (dequeue_wait_free hinitial hbefore hpc (Or.inl rfl) hlock hduring hcall).1
  rw [hremaining] at hbound
  exact ⟨_, s, s₁, s', before, event, during, hinitial, hbefore, hlock, hduring, hcall,
    hreturned, hsteps, hbound⟩

section Enqueue

/-- How many more steps an undisturbed enqueue makes at most. -/
def Queue.enqueueRank (q : Queue B) : Pc α σ → Nat
  | .enqueueLoad _ => 4
  | .enqueueReserve _ enqueuing _ => if q.enqueuingCapacity = enqueuing then 3 else 4
  | .enqueueInsert _ _ => 2
  | .enqueueAcknowledge _ _ => 1
  | _ => 0

theorem enqueueRank_check_le (q : Queue B) (value : List α) :
    q.enqueueRank (enqueueCheck value q.enqueuingCapacity : Pc α σ) ≤ 3 :=
  enqueueCheck_elim (P := fun pc => q.enqueueRank pc ≤ 3) (fun _ => Nat.zero_le _)
    (fun _ _ => Nat.zero_le _) fun _ _ _ => by simp [Queue.enqueueRank]

theorem enqueueRank_check (q : Queue B) (value : List α) (enqueuing : EnqueuingCapacity) :
    0 < q.enqueueRank (enqueueCheck value enqueuing : Pc α σ) ∨
      (enqueueCheck value enqueuing : Pc α σ).returned = true := by
  refine enqueueCheck_elim (P := fun pc => 0 < q.enqueueRank pc ∨ pc.returned = true)
    (fun _ => Or.inr rfl) (fun _ _ => Or.inr rfl) fun next _ _ => Or.inl ?_
  simp only [Queue.enqueueRank]
  split <;> omega

variable [Buffer B α σ] {q q' : Queue B} {pc pc' : Pc α σ}

theorem Transition.enqueueRank_run {spurious : Bool} {event : Event α}
    (hmove : Transition q pc (.run spurious) q' pc' event) (hpc : 0 < q.enqueueRank pc) :
    0 < q'.enqueueRank pc' ∨ pc'.returned = true := by
  cases hmove with
  | silent hlocal =>
      cases hlocal with
      | enqueueLoad value _ => exact enqueueRank_check q value _
      | enqueueRetry value _ _ _ => exact enqueueRank_check q value _
      | indexUnderflow _ _ _ _ => exact Or.inr rfl
      | insertOutOfBounds _ _ _ _ => exact Or.inr rfl
      | _ => exact absurd hpc (Nat.lt_irrefl 0)
  | reserve _ _ => exact Or.inl Nat.two_pos
  | insert _ _ _ _ _ => exact Or.inl Nat.one_pos
  | acknowledge _ _ _ => exact Or.inr rfl
  | _ => exact absurd hpc (Nat.lt_irrefl 0)

/-- A step of an enqueue pays for itself, unless its compare-exchange failed spuriously. -/
theorem Queue.enqueueRank_run_le {spurious : Bool} {event : Event α}
    (hpc : 0 < q.enqueueRank pc) (hrun : q.run spurious pc = some (q', pc', event)) :
    q'.enqueueRank pc' + 1 ≤ q.enqueueRank pc + spurious.toNat := by
  cases pc with
  | enqueueLoad value =>
      cases hrun
      have hle := enqueueRank_check_le (σ := σ) q value
      change _ + 1 ≤ 4 + _
      omega
  | enqueueReserve value enqueuing next =>
      simp only [Queue.run] at hrun
      split at hrun
      · rename_i hsame
        cases hrun
        simp only [Queue.enqueueRank, hsame.2, if_true]
        omega
      · rename_i hfailed
        cases hrun
        have hle := enqueueRank_check_le (σ := σ) q value
        cases spurious with
        | false =>
            have hne : q.enqueuingCapacity ≠ enqueuing := fun hsame => hfailed ⟨rfl, hsame⟩
            have hfour : q.enqueueRank (.enqueueReserve value enqueuing next : Pc α σ) = 4 :=
              if_neg hne
            rw [hfour]
            exact Nat.succ_le_succ hle
        | true =>
            have hge : 3 ≤ q.enqueueRank (.enqueueReserve value enqueuing next : Pc α σ) := by
              simp only [Queue.enqueueRank]
              split <;> omega
            simp only [Bool.toNat_true]
            omega
  | enqueueInsert value enqueuing =>
      simp only [Queue.run] at hrun
      split at hrun
      · cases hrun
        exact Nat.le_add_right_of_le (Nat.le_succ 1)
      · split at hrun <;> cases hrun
        · exact Nat.le_add_right_of_le (Nat.le_succ 1)
        · exact Nat.le_add_right 2 _
  | enqueueAcknowledge value enqueuing =>
      cases hrun
      exact Nat.le_add_right 1 _
  | _ => exact absurd hpc (Nat.lt_irrefl 0)

theorem Queue.exists_enqueue_run (hpc : 0 < q.enqueueRank pc) (spurious : Bool) :
    ∃ q' pc' event, q.run spurious pc = some (q', pc', event) := by
  suffices hsome : (q.run spurious pc).isSome = true by
    obtain ⟨⟨q', pc', event⟩, hrun⟩ := Option.isSome_iff_exists.mp hsome
    exact ⟨q', pc', event, hrun⟩
  cases pc with
  | enqueueLoad value => rfl
  | enqueueReserve value enqueuing next =>
      simp only [Queue.run]
      split <;> rfl
  | enqueueInsert value enqueuing =>
      simp only [Queue.run]
      split
      · rfl
      · split <;> rfl
  | enqueueAcknowledge value enqueuing => rfl
  | _ => exact absurd hpc (Nat.lt_irrefl 0)

/-- The steps that change the enqueuing word show it. -/
theorem Transition.word_eq {action : Action α} {event : Event α}
    (hmove : Transition q pc action q' pc' event) (hevent : event.changesWord = false) :
    q'.enqueuingCapacity = q.enqueuingCapacity := by
  cases hmove <;> first | rfl | cases hevent

theorem Transition.enqueueRank_other {action : Action α} {event : Event α}
    (hmove : Transition q pc action q' pc' event) (other : Pc α σ) :
    q'.enqueueRank other ≤ q.enqueueRank other + event.changesWord.toNat := by
  cases hchanges : event.changesWord with
  | false =>
      cases other <;> simp only [Queue.enqueueRank, hmove.word_eq hchanges] <;> omega
  | true =>
      simp only [Bool.toNat_true]
      cases other <;> simp only [Queue.enqueueRank] <;> first | omega | (split <;> split <;> omega)

variable [DecidableEq T] {s s' : State T B α σ} {t : T}
  {during : List ((T × Action α) × Event α)} {ok : State T B α σ → T × Action α → Prop}

theorem enqueues_of_run
    (hcall : 0 < s.queue.enqueueRank (s.pcs t) ∨ (s.pcs t).returned = true)
    (hrun : Runs.Run SwapBufferQueue.step (fun state label => ok state label ∧ GoesOn t label)
      s during s') :
    0 < s'.queue.enqueueRank (s'.pcs t) ∨ (s'.pcs t).returned = true := by
  refine hrun.invariant (fun _ state =>
    0 < state.queue.enqueueRank (state.pcs t) ∨ (state.pcs t).returned = true) hcall ?_
  rintro trace state state' ⟨t', action⟩ event - hstate ⟨-, hgoes⟩ hstep
  by_cases ht' : t' = t
  · subst ht'
    obtain ⟨spurious, haction⟩ := hgoes rfl
    cases haction
    obtain ⟨q', pc', hrun', rfl⟩ := run_of_step hstep
    simp only [Function.update_self]
    rcases hstate with hrank | hreturned
    · exact (Queue.run_cases hrun').enqueueRank_run hrank
    · exact absurd hrun' (not_run_of_returned hreturned)
  · obtain ⟨q', pc', -, rfl⟩ := step_cases hstep
    simp only [Function.update_of_ne (Ne.symm ht')]
    refine hstate.imp (fun hrank => ?_) id
    generalize state.pcs t = pc at hrank
    cases pc with
    | enqueueReserve _ _ _ =>
        simp only [Queue.enqueueRank]
        split <;> omega
    | _ => exact hrank

/-- Enqueuing is lock-free.  A `try_enqueue` makes at most four steps, besides the
compare-exchanges that fail spuriously and one more for each time another call has taken
effect on the enqueuing word: a reservation, a swap, a `close` or a `reopen`.  Until it
returns it always has a next step. -/
theorem enqueue_lock_free {value : List α} (hpc : s.pcs t = .enqueueLoad value)
    (hrun : Runs.Run SwapBufferQueue.step ok s during s') (hcall : OneCall t during) :
    ownSteps t during ≤ 4 + (spuriousSteps t during + wordChanges t during) ∧
      ((s'.pcs t).returned = true ∨ ∀ spurious, ∃ s'' event,
        SwapBufferQueue.step s' (t, .run spurious) = some (s'', event)) := by
  have hgoes := hrun.restrict (P := GoesOn t) hcall
  have hstart : s.queue.enqueueRank (s.pcs t) = 4 := by
    rw [hpc]
    rfl
  have hcalls : 0 < s.queue.enqueueRank (s.pcs t) ∨ (s.pcs t).returned = true :=
    Or.inl (by omega)
  constructor
  · have hpaid := hgoes.amortized (fun state => state.queue.enqueueRank (state.pcs t))
      (fun entry => (decide (entry.1.1 = t)).toNat)
      (fun entry => (decide (entry.1.1 = t) && entry.1.2.spurious).toNat +
        (!decide (entry.1.1 = t) && entry.2.changesWord).toNat) ?_
    · rw [hstart, List.sum_map_add] at hpaid
      exact Nat.le_trans (Nat.le_add_left _ _) hpaid
    · rintro trace state state' ⟨t', action⟩ event hprefix ⟨-, hlabel⟩ hstep
      by_cases ht' : t' = t
      · subst ht'
        obtain ⟨spurious, haction⟩ := hlabel rfl
        cases haction
        obtain ⟨q', pc', hrun', rfl⟩ := run_of_step hstep
        simp only [Function.update_self, decide_true, Bool.toNat_true, Bool.true_and,
          Bool.not_true, Bool.false_and, Bool.toNat_false, Nat.add_zero, Action.spurious]
        rcases enqueues_of_run hcalls hprefix with hrank | hreturned
        · exact Queue.enqueueRank_run_le hrank hrun'
        · exact absurd hrun' (not_run_of_returned hreturned)
      · obtain ⟨q', pc', hmove, rfl⟩ := step_cases hstep
        simp only [Function.update_of_ne (Ne.symm ht'), ht', decide_false, Bool.toNat_false,
          Bool.false_and, Bool.not_false, Bool.true_and, Nat.add_zero, Nat.zero_add]
        exact hmove.enqueueRank_other (state.pcs t)
  · rcases enqueues_of_run hcalls hgoes with hrank | hreturned
    · refine Or.inr fun spurious => ?_
      obtain ⟨q', pc', event, hrun'⟩ := Queue.exists_enqueue_run hrank spurious
      exact ⟨_, _, step_of_act rfl hrun'⟩
    · exact Or.inl hreturned

end Enqueue

/-- An enqueue loses its first compare-exchange to another one. -/
theorem enqueue_lock_free_contended :
    ∃ (s s' : State Nat (VecBuffer Nat) Nat (List Nat)) (during : _),
      s.pcs 0 = .enqueueLoad [7] ∧
      Runs.Run SwapBufferQueue.step SizeOk s during s' ∧ OneCall 0 during ∧
      (s'.pcs 0).returned = true ∧ ownSteps 0 during = 5 ∧ wordChanges 0 during = 1 ∧
      ownSteps 0 during ≤ 4 + (spuriousSteps 0 during + wordChanges 0 during) := by
  have hbefore := Runs.run_of_isSome SwapBufferQueue.step SizeOk
    (State.ofQueue ((Queue.withCapacity 2).get (by decide +kernel)) :
      State Nat (VecBuffer Nat) Nat (List Nat))
    [(0, .tryEnqueue [7])] (by decide +kernel) (by decide +kernel)
  obtain ⟨before, s, hbefore, hpc, during, s', hduring, hcall, hreturned, hsteps, hwords⟩ :
      ∃ before s, Runs.Run SwapBufferQueue.step SizeOk _ before s ∧
        s.pcs 0 = .enqueueLoad [7] ∧
        ∃ during s', Runs.Run SwapBufferQueue.step SizeOk s during s' ∧
          OneCall 0 during ∧ (s'.pcs 0).returned = true ∧ ownSteps 0 during = 5 ∧
          wordChanges 0 during = 1 :=
    ⟨_, _, hbefore, by decide +kernel, _, _,
      Runs.run_of_isSome SwapBufferQueue.step SizeOk _
        (List.flatten [[(0, .run false), (1, .tryEnqueue [8])],
          List.replicate 2 (1, .run false), List.replicate 4 (0, .run false)])
        (by decide +kernel) (by decide +kernel),
      by decide +kernel, by decide +kernel, by decide +kernel, by decide +kernel⟩
  exact ⟨s, s', during, hpc, hduring, hcall, hreturned, hsteps, hwords,
    (enqueue_lock_free hpc hduring hcall).1⟩

end SwapBufferQueue
