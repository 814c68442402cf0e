/-
The two packed words along a run: the fields they carry are those of the queue,
no operation lets one field spill into another, and no assertion or subtraction
that relies on them fails.  What the fields count is what was accepted and not yet
consumed.
-/
import SwapBufferQueue.BatchIdentity

namespace SwapBufferQueue

universe u v w x

open Tiling

variable {T : Type x} {B : Type u} {α : Type v} {σ : Type w} [Buffer B α σ]

/-- What the two words of a queue say about its buffers and about the values in them: the
room left behind the tail, and while the queue is not locked the length of the batch. -/
structure WordsOk (q : Queue B) (view : View α) : Prop where
  enqueuing : q.enqueuingCapacity.word.toNat =
    q.enqueuingCapacity.bufferIndex.val +
      2 * (Buffer.capacity (q.buffers q.enqueuingCapacity.bufferIndex) - view.tail.length) +
      2 ^ 63 * q.enqueuingCapacity.isClosed.toNat
  remaining_add : q.enqueuingCapacity.remainingCapacity + view.tail.length =
    Buffer.capacity (q.buffers q.enqueuingCapacity.bufferIndex)
  dequeuing : q.dequeuingLength ≠ dequeuingLocked →
    q.dequeuingLength.toNat =
      (other q.enqueuingCapacity.bufferIndex).val + 2 * view.batch.length
  index_ne : q.dequeuingLength ≠ dequeuingLocked →
    (DequeuingLength.mk q.dequeuingLength).bufferIndex ≠
      q.enqueuingCapacity.bufferIndex
  length_eq : q.dequeuingLength ≠ dequeuingLocked →
    (DequeuingLength.mk q.dequeuingLength).bufferLen = view.batch.length
  length_le : q.dequeuingLength ≠ dequeuingLocked →
    (DequeuingLength.mk q.dequeuingLength).bufferLen ≤
      Buffer.capacity (q.buffers (DequeuingLength.mk q.dequeuingLength).bufferIndex)

/-- What a step does to the fields of the enqueuing word.  A swap leaves the room that the
values inserted before it have left, which the length of the buffer counts. -/
def FieldUpdate (q q' : Queue B) : Event α → Prop
  | .reserved i value =>
      i = q.enqueuingCapacity.bufferIndex ∧
        q'.enqueuingCapacity.bufferIndex = q.enqueuingCapacity.bufferIndex ∧
        q'.enqueuingCapacity.remainingCapacity + value.length =
          q.enqueuingCapacity.remainingCapacity ∧
        q'.enqueuingCapacity.isClosed = q.enqueuingCapacity.isClosed
  | .swapped i =>
      i ≠ q.enqueuingCapacity.bufferIndex ∧
        q'.enqueuingCapacity.bufferIndex = i ∧
        q'.enqueuingCapacity.remainingCapacity + q.buffersLength i =
          Buffer.capacity (q'.buffers i) ∧
        q'.enqueuingCapacity.isClosed = q.enqueuingCapacity.isClosed
  | .closed =>
      q'.enqueuingCapacity.bufferIndex = q.enqueuingCapacity.bufferIndex ∧
        q'.enqueuingCapacity.remainingCapacity =
          q.enqueuingCapacity.remainingCapacity ∧
        q'.enqueuingCapacity.isClosed = true
  | .reopened =>
      q'.enqueuingCapacity.bufferIndex = q.enqueuingCapacity.bufferIndex ∧
        q'.enqueuingCapacity.remainingCapacity =
          q.enqueuingCapacity.remainingCapacity ∧
        q'.enqueuingCapacity.isClosed = false
  | _ => q'.enqueuingCapacity = q.enqueuingCapacity

variable [LawfulBuffer B] {s : State T B α σ} {g : Ledger T α} {t : T}

theorem Sim.wordsOk (hsim : Sim s g) : WordsOk s.queue g.view := by
  have hindex := hsim.shared.enqueuing
  have hadd : g.view.tail.length + s.queue.enqueuingCapacity.remainingCapacity =
      Buffer.capacity (s.queue.buffers s.queue.enqueuingCapacity.bufferIndex) := by
    rw [← hindex]
    exact hsim.shared.extent_add
  have hword := EnqueuingCapacity.toNat_word s.queue.enqueuingCapacity
  refine ⟨?_, by omega, fun hopen => ?_, fun hopen => ?_, fun hopen => ?_, fun hopen => ?_⟩
  · rw [hword]
    omega
  · have hbatch := (hsim.stored hopen).batch
    have hlength : g.view.batch.length = _ := hbatch.length_batch
    rw [hlength, ← hindex, ← eq_other_of_ne hbatch.other]
    exact DequeuingLength.toNat_word ⟨s.queue.dequeuingLength⟩
  · rw [← hindex]
    exact (hsim.stored hopen).batch.other
  · exact (hsim.stored hopen).batch.length_batch.symm
  · have hbatch := (hsim.stored hopen).batch
    exact Nat.le_trans (Nat.le.intro hbatch.length_add) hbatch.fits

/-- Before the swap the length of the hidden buffer counts what was inserted there. -/
theorem Sim.buffersLength_hidden (hsim : Sim s g) {dequeuing : DequeuingLength} {length : Nat}
    (hhidden : Hidden s.queue g dequeuing .published length)
    (hfits : length ≤ Buffer.capacity (s.queue.buffers dequeuing.bufferIndex)) :
    s.queue.buffersLength dequeuing.bufferIndex = length := by
  have hcapacity := hsim.shared.capacity_lt dequeuing.bufferIndex
  have hcounted : weight Status.counted (g.tiles dequeuing.bufferIndex) = length := by
    rw [← hhidden.length_eq]
    refine weight_eq_extent_of_all fun tile hmem => ?_
    rw [hhidden.tags tile hmem]
    rfl
  rw [hsim.shared.length, hcounted]
  exact Nat.mod_eq_of_lt (by omega)

theorem Sim.fieldUpdate (hsim : Sim s g) {action : Action α} {q' : Queue B}
    {pc' : Pc α σ} {event : Event α}
    (hmove : Transition s.queue (s.pcs t) action q' pc' event) :
    FieldUpdate s.queue q' event := by
  have hthread := hsim.thread t
  generalize s.pcs t = pc at hmove hthread
  cases hmove with
  | reserve value next =>
      obtain ⟨-, hsize, hopen, hreserve⟩ := hthread
      obtain ⟨hfit, hindex, hremaining, hnextOpen⟩ :=
        (EnqueuingCapacity.tryReserve_eq_some_iff hopen hsize).mp hreserve
      refine ⟨rfl, hindex, ?_, hnextOpen.trans hopen.symm⟩
      change next.remainingCapacity + value.length = _
      rw [hremaining]
      exact Nat.sub_add_cancel hfit
  | swap attempt capacity nextEnqueuing =>
      obtain ⟨hindex, hremaining, hclosed⟩ :=
        EnqueuingCapacity.withClosed_spec hthread.next_open s.queue.enqueuingCapacity
      have hinserted := hthread.inserted_le
      rw [hthread.nextCapa_eq] at hinserted
      refine ⟨?_, hindex.trans hthread.next_index, ?_, hclosed⟩
      · rw [hthread.index_eq]
        exact hthread.hidden.other
      · rw [hremaining, hthread.next_remaining, hthread.nextCapa_eq,
          hsim.buffersLength_hidden hthread.hidden hinserted]
        exact Nat.sub_add_cancel hinserted
  | close _ => exact EnqueuingCapacity.close_spec _
  | reopen _ => exact EnqueuingCapacity.reopen_spec _
  | _ => exact rfl

variable [DecidableEq T]

/-- The packed words carry the abstract state along every run whose calls keep
their promises: their fields are in range, count what is in the buffers and are updated
one by one, the word stored back is never taken for the lock, and no subtraction or
assertion fails. -/
theorem packed_words_faithful {start s : State T B α σ} (hinitial : Initial start)
    {trace : List ((T × Action α) × Event α)}
    (hrun : Runs.Run SwapBufferQueue.step CallsOk start trace s) :
    WordsOk s.queue (View.ofTrace trace) ∧
      (∀ t dequeuing outcome, s.pcs t = .storeDequeuing dequeuing outcome →
        dequeuing.word ≠ dequeuingLocked) ∧
      (∀ t panic, s.pcs t ≠ .panicked panic) ∧
      ∀ label s' event, CallsOk s label →
        SwapBufferQueue.step s label = some (s', event) →
          FieldUpdate s.queue s'.queue event ∧
            WordsOk s'.queue (View.ofTrace (trace ++ [(label, event)])) := by
  have hsized : Runs.Run SwapBufferQueue.step SizeOk start trace s :=
    hrun.mono fun _ _ hcalls => hcalls.size
  have hsim := sim_of_run hinitial (fun _ _ hcalls => hcalls.size) hrun
  refine ⟨view_of_run hinitial hsized ▸ hsim.wordsOk, ?_, ?_, ?_⟩
  · intro t dequeuing outcome hpc
    have hstored := hsim.thread t
    rw [hpc] at hstored
    exact Stored.word_ne_locked hsim.shared hstored
  · intro t panic hpc
    have hargs := argsOk_of_run hinitial (fun _ _ hcalls => hcalls) hrun t
    rw [hpc] at hargs
    exact hargs
  · rintro ⟨t, action⟩ s' event hcalls hstep
    have hafter := hsized.snoc hcalls.size hstep
    have hsim' := sim_of_run hinitial (fun _ _ h => h) hafter
    refine ⟨?_, view_of_run hinitial hafter ▸ hsim'.wordsOk⟩
    obtain ⟨q', pc', hmove, rfl⟩ := step_cases hstep
    exact hsim.fieldUpdate hmove

/-- An enqueue that races with a call that resizes and inserts: the swap leaves one of three
places behind the two that were inserted, and the next step is its own. -/
theorem packed_words_faithful_resize_and_insert :
    ∃ (start : State Nat (VecBuffer Nat) Nat (List Nat)) (trace : _)
        (s : State Nat (VecBuffer Nat) Nat (List Nat)),
      Initial start ∧ Runs.Run SwapBufferQueue.step CallsOk start trace s ∧
      ((1, .run false), .staged ⟨1, Nat.one_lt_two⟩ [8, 9]) ∈ trace ∧
      ((1, .run false), .swapped ⟨1, Nat.one_lt_two⟩) ∈ trace ∧
      s.queue.enqueuingCapacity.word.toNat = 1 + 2 * (3 - 2) ∧
      WordsOk s.queue (View.ofTrace trace) := by
  have hrun := Runs.run_of_isSome SwapBufferQueue.step CallsOk
    (State.ofQueue ((Queue.withCapacity 1).get (by decide +kernel)) :
      State Nat (VecBuffer Nat) Nat (List Nat))
    [(0, .tryEnqueue [7]), (0, .run false), (0, .run false), (0, .run false),
      (1, .tryDequeueAndResize ⟨some 3, [[8, 9]]⟩), (1, .run false), (1, .run false),
      (1, .run false), (1, .run false), (1, .run false), (0, .run false),
      (1, .run false), (1, .run false), (1, .run false)]
    (by decide +kernel) (by decide +kernel)
  have hinitial := initial_withCapacity (T := Nat) (B := VecBuffer Nat)
    (show (Queue.withCapacity 1).isSome = true by decide +kernel)
  refine ⟨_, _, _, hinitial, hrun, by decide +kernel, by decide +kernel, by decide +kernel, ?_⟩
  exact (packed_words_faithful hinitial hrun).1

end SwapBufferQueue
