/-
The streams and iterators of a synchronized queue lose nothing and never stall.  What a
stream delivers is what the iterators deliver, and a stream that nobody wakes has delivered
everything.
-/
import SwapBufferQueue.StreamSimulation

namespace SwapBufferQueue

universe u v w x y

variable {T : Type x} {K : Type y} {B : Type u} {α : Type v} {σ : Type w}
  {R W M : Type*}

section Delivery

variable [DecidableEq T] [DecidableEq K] [Buffer B α σ] [LawfulBuffer B]
  {c : Combinators R W M} {consumer : T} {start s : StreamState T K B α σ (Flat R W M)}
  {trace : List (StreamAction T K α × IterEvent T α)}

/-- What a stream returns and what the queue accepts is so for some consumer of iterators. -/
theorem exists_iterRun (hdocumented : c.Documented) (hinitial : StreamInitial start)
    (hrun : Runs.Run (streamStep c consumer) (StreamOk consumer) start trace s) :
    ∃ trace' a, IterInitial (⟨start.sync.base, .absent⟩ : IterState T B α σ) ∧
      Runs.Run (iterStep consumer) (IterOk consumer) ⟨start.sync.base, .absent⟩ trace' a ∧
      StreamSim c consumer start trace s a ∧
      (trace'.flatMap fun entry => entry.2.seen) = (trace.flatMap fun entry => entry.2.seen) ∧
      yieldedElements trace' = streamYields trace ∧
      queueTrace consumer trace' = streamCalls consumer trace := by
  obtain ⟨trace', a, hrun', hsim, hseen⟩ :=
    (StreamSim.of_initial hinitial).simulate hdocumented hinitial hrun
  refine ⟨trace', a, ⟨hinitial.sync.base, rfl⟩, hrun', hsim, hseen, ?_, ?_⟩
  · rw [streamYields, filterMap_seen _ rfl, ← hseen]
    exact filterMap_seen IterEvent.value? rfl trace'
  · rw [streamCalls, filterMap_seen (IterEvent.call? consumer) rfl, ← hseen]
    exact filterMap_seen (IterEvent.call? consumer) rfl trace'

/-- Streams and iterators lose nothing.  Whatever the others enqueue and close, and
whenever a stream is polled, woken, dropped (with a batch in front or with a future that is
pending) and replaced by the next one: what they return is always a beginning of the
accepted elements, in the order of the reservations, and the next one of them; the only
error a stream meets is that the queue was found closed, and a poll returns `None` only after
that, when everything that was ever accepted has been returned. -/
theorem stream_loses_nothing (hdocumented : c.Documented) (hinitial : StreamInitial start)
    (hrun : Runs.Run (streamStep c consumer) (StreamOk consumer) start trace s) :
    streamYields trace <+: streamAccepts consumer trace ∧
    (∀ first rest label event value, trace = first ++ (label, .yielded event value) :: rest →
      (streamAccepts consumer trace)[(streamYields first).length]? = some value) ∧
    (∀ first rest label error, trace = first ++ (label, .finished error) :: rest →
      error = .closed ∧ streamYields first = streamAccepts consumer trace) ∧
    ∀ first rest label, trace = first ++ (label, .exhausted) :: rest →
      (∃ finish, (finish, .finished .closed) ∈ first) ∧
        streamYields first = streamAccepts consumer trace := by
  obtain ⟨trace', a, hinitial', hrun', -, hseen, hyields, hcalls⟩ :=
    exists_iterRun hdocumented hinitial hrun
  have horder := (iterInv_of_run hinitial' hrun').order hinitial'
  have haccepts : acceptedElements consumer trace' = streamAccepts consumer trace := by
    rw [acceptedElements, hcalls, streamAccepts]
  rw [hyields, haccepts, List.append_assoc] at horder
  refine ⟨⟨_, horder⟩, ?_, ?_, ?_⟩
  · rintro first rest label event value rfl
    rw [← horder, streamYields, List.filterMap_append, ← streamYields, List.append_assoc,
      List.getElem?_append_right (Nat.le_refl _), Nat.sub_self]
    rfl
  · rintro first rest label error rfl
    rw [List.flatMap_append, List.flatMap_cons] at hseen
    obtain ⟨first', label', rest', rfl, hfirst⟩ := exists_of_seen hseen
    obtain ⟨herror, hall⟩ := yields_all_of_finished hinitial' hrun'
    refine ⟨herror, ?_⟩
    rw [← haccepts, ← hall, streamYields, filterMap_seen _ rfl, ← hfirst]
    exact (filterMap_seen IterEvent.value? rfl first').symm
  · rintro first rest label rfl
    rw [List.flatMap_append, List.flatMap_cons] at hseen
    obtain ⟨first', label', rest', rfl, hfirst⟩ := exists_of_seen hseen
    obtain ⟨hfinished, hall⟩ := yields_all_of_exhausted hinitial' hrun'
    have hvisible : (IterEvent.finished .closed : IterEvent T α) ≠ .silent := by
      intro hsilent
      cases hsilent
    refine ⟨?_, ?_⟩
    · rw [← mem_seen hvisible, ← hfirst]
      exact (mem_seen hvisible).mpr hfinished
    · rw [← haccepts, ← hall, streamYields, filterMap_seen _ rfl, ← hfirst]
      exact (filterMap_seen IterEvent.value? rfl first').symm

/-- Streams and iterators do not stall.  When the consumer waits for a batch and nobody has
woken it, in `park` or as a task whose stream is pending, and everybody else has finished
or sleeps as well, then the queue is open, every element that was ever accepted has been
returned, and nobody else sleeps. -/
theorem stream_never_stalls (hdocumented : c.Documented) (hinitial : StreamInitial start)
    (hrun : Runs.Run (streamStep c consumer) (StreamOk consumer) start trace s)
    (hparked : s.sync.Parked consumer)
    (hothers : ∀ t, t ≠ consumer → s.sync.Finished t ∨ s.sync.Parked t) :
    s.sync.base.queue.enqueuingCapacity.isClosed = false ∧
      streamYields trace = streamAccepts consumer trace ∧
      ∀ t, t ≠ consumer → s.sync.Finished t := by
  obtain ⟨trace', a, hinitial', hrun', hsim, -, hyields, hcalls⟩ :=
    exists_iterRun hdocumented hinitial hrun
  obtain ⟨synced, hwake, hsynced⟩ := hsim.wake
  have hquiescent : s.sync.Quiescent := by
    intro t
    by_cases ht : t = consumer
    · rw [ht]
      exact Or.inr hparked
    · exact hothers t ht
  have hwait : s.sync.controls consumer = .dequeueWait := by
    rcases hparked.1 with hwait | ⟨value, hvalue⟩
    · exact hwait
    · exact absurd hvalue (hsim.follows.enqueues value)
  obtain ⟨hopen, hempty⟩ := hwake.parked_dequeue hinitial.sync hquiescent hwait
  refine ⟨hopen, ?_, fun t ht => ?_⟩
  · rw [← hyields, (iterInv_of_run hinitial' hrun').yields, hcalls, ← hsynced,
      hempty.delivered, hsynced, streamAccepts]
  · rcases hothers t ht with hfinished | ⟨hcontrol | ⟨value, hcontrol⟩, -⟩
    · exact hfinished
    · have hdequeues := hsim.others t ht
      rw [hcontrol] at hdequeues
      cases hdequeues
    · obtain ⟨-, hlacks, hfits⟩ := hwake.parked_enqueue hinitial.sync hquiescent hcontrol
      have hroom := hempty.enqueuing
      omega

end Delivery

/-- Two elements; the first stream is dropped after one of them, the second one returns the
other, and its polls return `None` when the queue is closed. -/
theorem stream_loses_nothing_dropped :
    ∃ (start s : StreamState Bool Nat (VecBuffer Nat) Nat (List Nat)
        (Flat RepeatAsk TakeWhileAsk FlatMapAsk)) (trace : _),
      StreamInitial start ∧
      Runs.Run (streamStep .reference false) (StreamOk false) start trace s ∧
      streamYields trace = [7, 8] ∧ (.drop, .called (false, .drop) .silent) ∈ trace ∧
      (.run false, .exhausted) ∈ trace ∧
      streamYields trace <+: streamAccepts false trace := by
  have hinitial : StreamInitial
      (⟨SyncState.ofQueue ((Queue.withCapacity 2).get (by decide +kernel)), .absent,
        Combinators.reference.new⟩ : StreamState Bool Nat (VecBuffer Nat) Nat (List Nat) _) :=
    ⟨syncInitial_withCapacity (by decide +kernel), rfl⟩
  have hrun := Runs.run_of_isSome (streamStep .reference false) (StreamOk false)
    (⟨SyncState.ofQueue ((Queue.withCapacity 2).get (by decide +kernel)), .absent,
      Combinators.reference.new⟩ : StreamState Bool Nat (VecBuffer Nat) Nat (List Nat) _)
    (List.flatten [[.other true (.enqueue [7, 8] none)],
      List.replicate 9 (.other true (.run false)), [.create, .next (some 5)],
      List.replicate 17 (.run false), [.drop], List.replicate 2 (.run false),
      [.create, .next (some 5)], List.replicate 8 (.run false), [.other true .close],
      List.replicate 6 (.other true (.run false)), [.next (some 5)],
      List.replicate 18 (.run false)])
    (by decide +kernel) (by decide +kernel)
  exact ⟨_, _, _, hinitial, hrun, by decide +kernel, by decide +kernel, by decide +kernel,
    (stream_loses_nothing Combinators.reference_documented hinitial hrun).1⟩

/-- A stream has returned the only element; its next poll is pending, and nobody is left to
wake it. -/
theorem stream_never_stalls_pending :
    ∃ (start s : StreamState Bool Nat (VecBuffer Nat) Nat (List Nat)
        (Flat RepeatAsk TakeWhileAsk FlatMapAsk)) (trace : _),
      StreamInitial start ∧
      Runs.Run (streamStep .reference false) (StreamOk false) start trace s ∧
      s.control = .held ∧ s.sync.Parked false ∧ streamYields trace = [7] ∧
      streamYields trace = streamAccepts false trace := by
  have hinitial : StreamInitial
      (⟨SyncState.ofQueue ((Queue.withCapacity 1).get (by decide +kernel)), .absent,
        Combinators.reference.new⟩ : StreamState Bool Nat (VecBuffer Nat) Nat (List Nat) _) :=
    ⟨syncInitial_withCapacity (by decide +kernel), rfl⟩
  have hrun := Runs.run_of_isSome (streamStep .reference false) (StreamOk false)
    (⟨SyncState.ofQueue ((Queue.withCapacity 1).get (by decide +kernel)), .absent,
      Combinators.reference.new⟩ : StreamState Bool Nat (VecBuffer Nat) Nat (List Nat) _)
    (List.flatten [[.other true (.enqueue [7] none)],
      List.replicate 9 (.other true (.run false)), [.create, .next (some 5)],
      List.replicate 17 (.run false), [.next (some 5)], List.replicate 533 (.run false)])
    (by decide +kernel) (by decide +kernel)
  obtain ⟨trace, s, hrun, hcontrol, hyields, hwait, hnotified, hfinished⟩ :
      ∃ trace s, Runs.Run (streamStep .reference false) (StreamOk false) _ trace s ∧
        s.control = .held ∧ streamYields trace = [7] ∧
        s.sync.controls false = .dequeueWait ∧ s.sync.notified false = false ∧
        s.sync.controls true = .outside ∧
          s.sync.base.pcs true = .idle (some .enqueued) :=
    ⟨_, _, hrun, by decide +kernel, by decide +kernel, by decide +kernel, by decide +kernel,
      by decide +kernel⟩
  have hparked : s.sync.Parked false := ⟨Or.inl hwait, hnotified⟩
  have hothers : ∀ t, t ≠ false → s.sync.Finished t ∨ s.sync.Parked t := by
    intro t ht
    cases t with
    | false => exact absurd rfl ht
    | true => exact Or.inl ⟨hfinished.1, _, hfinished.2⟩
  exact ⟨_, s, trace, hinitial, hrun, hcontrol, hparked, hyields,
    (stream_never_stalls Combinators.reference_documented hinitial hrun hparked hothers).2.1⟩

end SwapBufferQueue
