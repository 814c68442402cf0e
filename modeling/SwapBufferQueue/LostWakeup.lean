/-
No wake-up of a synchronized queue is lost.  A call that waits has a reason to, or somebody
owes it a wake; when nobody is left to run, the reason itself is left.
-/
import SwapBufferQueue.WakeInvariant

namespace SwapBufferQueue

universe u v w x y

variable {T : Type x} {K : Type y} {B : Type u} {α : Type v} {σ : Type w}

section Quiescence

variable {s : SyncState T K B α σ}

theorem SyncState.Quiescent.controls (hquiescent : s.Quiescent) (t : T) :
    s.controls t = .outside ∨ s.controls t = .dequeueWait ∨
      ∃ value, s.controls t = .enqueueWait value := by
  rcases hquiescent t with hfinished | hparked
  · exact Or.inl hfinished.1
  · exact Or.inr hparked.1

theorem SyncState.Quiescent.notified (hquiescent : s.Quiescent) {t : T}
    (hcontrol : s.controls t ≠ .outside) : s.notified t = false := by
  rcases hquiescent t with hfinished | hparked
  · exact absurd hfinished.1 hcontrol
  · exact hparked.2

theorem SyncState.Quiescent.atomics (hquiescent : s.Quiescent) (t : T) :
    s.atomics t = .returned := by
  unfold SyncState.atomics
  rcases hquiescent.controls t with h | h | ⟨value, h⟩ <;> rw [h] <;> rfl

theorem SyncState.Quiescent.lists (hquiescent : s.Quiescent) (t : T) :
    s.lists t = .returned := by
  unfold SyncState.lists
  rcases hquiescent.controls t with h | h | ⟨value, h⟩ <;> rw [h] <;> rfl

theorem SyncState.Quiescent.not_dequeuer_due (hquiescent : s.Quiescent)
    (hinv : AtomicInv s.dequeuer s.atomics) {waker : Waker T K} :
    ¬ s.dequeuer.Due s.atomics waker := by
  rintro (⟨t, hcarries⟩ | ⟨-, hstate⟩)
  · rw [hquiescent.atomics t] at hcarries
    cases hcarries
  · obtain ⟨t, howns⟩ := hinv.owned (by rw [hstate]; decide)
    rw [hquiescent.atomics t] at howns
    cases howns

theorem SyncState.Quiescent.not_enqueuers_due (hquiescent : s.Quiescent)
    {waker : Waker T K} : ¬ s.enqueuers.Due s.lists waker := by
  rintro (⟨t, hcarries⟩ | ⟨-, t, hdrains⟩)
  · rw [hquiescent.lists t] at hcarries
    cases hcarries
  · rw [hquiescent.lists t] at hdrains
    cases hdrains

theorem SyncState.Quiescent.not_owesEnqueue (hquiescent : s.Quiescent) (t : T) :
    ¬ OwesEnqueue (s.controls t) (s.base.pcs t) := by
  rcases hquiescent.controls t with h | h | ⟨value, h⟩ <;> rw [h] <;> exact id

variable [DecidableEq T] [Buffer B α σ] {start : SyncState T K B α σ}
  {trace : List ((T × SyncAction K α) × SyncEvent α)}

theorem SyncState.Quiescent.idle (hquiescent : s.Quiescent) (hinv : SyncInv start trace s)
    (t : T) : ∃ last, s.base.pcs t = .idle last := by
  rcases hquiescent t with hfinished | ⟨hcontrol | ⟨value, hcontrol⟩, -⟩
  · exact hfinished.2
  · have hthread := hinv.thread t
    rw [hcontrol] at hthread
    exact hthread
  · have hthread := hinv.thread t
    rw [hcontrol] at hthread
    exact hthread.2

theorem SyncState.Quiescent.inFlight_eq (hquiescent : s.Quiescent)
    (hinv : SyncInv start trace s) (t : T) : (s.base.pcs t).inFlight = none := by
  obtain ⟨last, hpc⟩ := hquiescent.idle hinv t
  rw [hpc]
  rfl

theorem SyncState.Quiescent.not_owesDequeue (hquiescent : s.Quiescent)
    (hinv : SyncInv start trace s) (t : T) :
    ¬ OwesDequeue (s.controls t) (s.base.pcs t) := by
  rintro (h | h | h)
  · exact h (hquiescent.inFlight_eq hinv t)
  · rcases hquiescent.controls t with h' | h' | ⟨value, h'⟩ <;> rw [h] at h' <;> cases h'
  · rcases hquiescent.controls t with h' | h' | ⟨value, h'⟩ <;> rw [h] at h' <;> cases h'

end Quiescence

/-- Nothing is left in the queue: every reserved element was delivered, both words say that
their buffer is empty, and no reservation is in flight. -/
structure Exhausted [Buffer B α σ] (s : State T B α σ)
    (trace : List ((T × Action α) × Event α)) : Prop where
  delivered : consumedElements trace = (reservedValues trace).flatten
  enqueuing : s.queue.enqueuingCapacity.remainingCapacity =
    Buffer.capacity (s.queue.buffers s.queue.enqueuingCapacity.bufferIndex)
  dequeuing : (DequeuingLength.mk s.queue.dequeuingLength).bufferLen = 0
  inFlight (t : T) : (s.pcs t).inFlight = none

section Claim

variable [DecidableEq T] [DecidableEq K] [Buffer B α σ] [LawfulBuffer B]
  {start s : SyncState T K B α σ} {trace : List ((T × SyncAction K α) × SyncEvent α)}

omit [DecidableEq K] in
theorem WakeInv.exhausted (hwake : WakeInv start trace s) (hinitial : SyncInitial start)
    (hquiescent : s.Quiescent) (hvacant : (Ledger.ofTrace (syncTrace trace)).Vacant) :
    Exhausted s.base (syncTrace trace) := by
  have hsim := hwake.sim hinitial
  have hdelivery := hwake.inv.run.mono fun _ _ h => h.delivery
  refine ⟨?_, ?_, ?_, hquiescent.inFlight_eq hwake.inv⟩
  · have horder := hsim.shared.order
    rw [accepted_eq_reservedValues hinitial.base hdelivery, Ledger.consumed_ofTrace] at horder
    rw [← horder]
    simp [Ledger.batch, Ledger.tail, hvacant.nothing]
  · exact hsim.shared.enqueuing_eq_nil_iff.mp (hvacant.nothing _)
  · have hunlocked : s.base.queue.dequeuingLength ≠ dequeuingLocked := by
      intro hlocked
      obtain ⟨t, hholds⟩ := hsim.locked_iff.mp hlocked
      obtain ⟨last, hpc⟩ := hquiescent.idle hwake.inv t
      rw [hpc] at hholds
      cases hholds
    have hadd := (hsim.stored hunlocked).batch.length_add
    rw [hvacant.nothing] at hadd
    simp only [Tiling.extent_nil] at hadd
    omega

omit [DecidableEq K] in
/-- When nobody runs, a parked dequeue has nothing to take from an open queue. -/
theorem WakeInv.parked_dequeue (hwake : WakeInv start trace s) (hinitial : SyncInitial start)
    (hquiescent : s.Quiescent) {t : T} (hcontrol : s.controls t = .dequeueWait) :
    s.base.queue.enqueuingCapacity.isClosed = false ∧
      Exhausted s.base (syncTrace trace) := by
  have hsafe := hwake.dequeue (show (s.controls t).dequeueArmed = true by rw [hcontrol]; rfl)
  have hnotified := hquiescent.notified (show s.controls t ≠ .outside by rw [hcontrol]; nofun)
  rcases hsafe with h | h | ⟨-, hreason⟩
  · rw [hnotified] at h
    cases h
  · exact absurd h (hquiescent.not_dequeuer_due hwake.inv.atomic)
  · rcases hreason (Or.inl hcontrol) with hvacant | ⟨t', howes⟩
    · refine ⟨?_, hwake.exhausted hinitial hquiescent hvacant⟩
      rw [← (hwake.sim hinitial).shared.closed]
      exact hvacant.opened
    · exact absurd howes (hquiescent.not_owesDequeue hwake.inv t')

omit [DecidableEq K] in
/-- When nobody runs, a parked enqueue has no room in an open queue that it could fit. -/
theorem WakeInv.parked_enqueue (hwake : WakeInv start trace s) (hinitial : SyncInitial start)
    (hquiescent : s.Quiescent) {t : T} {value : List α}
    (hcontrol : s.controls t = .enqueueWait value) :
    s.base.queue.enqueuingCapacity.isClosed = false ∧
      s.base.queue.enqueuingCapacity.remainingCapacity < value.length ∧
      value.length ≤
        Buffer.capacity (s.base.queue.buffers s.base.queue.enqueuingCapacity.bufferIndex) := by
  have hsafe : EnqueueSafe s t value := hwake.enqueue (by rw [hcontrol]; rfl)
  have hnotified := hquiescent.notified (show s.controls t ≠ .outside by rw [hcontrol]; nofun)
  rcases hsafe with h | h | ⟨-, hreason⟩
  · rw [hnotified] at h
    cases h
  · exact absurd h hquiescent.not_enqueuers_due
  · rcases hreason (by rw [hcontrol]; exact trivial) with hblocks | ⟨t', howes⟩
    · refine ⟨hblocks.opened, hblocks.lacks, ?_⟩
      rw [(uniform_of_run hinitial.base hwake.inv.run).buffers]
      exact hwake.inv.fits hcontrol
    · exact absurd howes (hquiescent.not_owesEnqueue t')

/-- No wake-up is lost.  With one dequeuer and any number of enqueuers and closers, in any
interleaving: when every unfinished operation is parked without a token, or is a pending
future that has not been woken since its last poll, a waiting dequeuer waits at an open
queue with nothing in it, a waiting enqueuer at an open queue that has less room than its
value needs and could hold it, and they do not both wait. -/
theorem no_lost_wakeup (hinitial : SyncInitial start)
    (hrun : Runs.Run syncStep SyncOk start trace s) (hquiescent : s.Quiescent) :
    (∀ t, s.controls t = .dequeueWait →
      s.base.queue.enqueuingCapacity.isClosed = false ∧
        Exhausted s.base (syncTrace trace)) ∧
    (∀ t value, s.controls t = .enqueueWait value →
      s.base.queue.enqueuingCapacity.isClosed = false ∧
        s.base.queue.enqueuingCapacity.remainingCapacity < value.length ∧
        value.length ≤ Buffer.capacity
          (s.base.queue.buffers s.base.queue.enqueuingCapacity.bufferIndex)) ∧
    ¬ ((∃ t, s.controls t = .dequeueWait) ∧
      ∃ t value, s.controls t = .enqueueWait value) := by
  have hwake := wakeInv_of_run hinitial hrun
  refine ⟨fun t hcontrol => hwake.parked_dequeue hinitial hquiescent hcontrol,
    fun t value hcontrol => hwake.parked_enqueue hinitial hquiescent hcontrol, ?_⟩
  rintro ⟨⟨t, hdequeue⟩, t', value, henqueue⟩
  obtain ⟨-, hempty⟩ := hwake.parked_dequeue hinitial hquiescent hdequeue
  obtain ⟨-, hlacks, hfits⟩ := hwake.parked_enqueue hinitial hquiescent henqueue
  rw [hempty.enqueuing] at hlacks
  omega

end Claim

/-- A future waits for room behind one element; a dequeuer waits that has taken it. -/
theorem no_lost_wakeup_parked :
    (∃ (start : SyncState Bool Nat (VecBuffer Nat) Nat (List Nat)) (trace : _)
        (s : SyncState Bool Nat (VecBuffer Nat) Nat (List Nat)),
      SyncInitial start ∧ Runs.Run syncStep SyncOk start trace s ∧ s.Quiescent ∧
      s.controls true = .enqueueWait [8] ∧
      s.base.queue.enqueuingCapacity.remainingCapacity < 1) ∧
    ∃ (start : SyncState Bool Nat (VecBuffer Nat) Nat (List Nat)) (trace : _)
        (s : SyncState Bool Nat (VecBuffer Nat) Nat (List Nat)),
      SyncInitial start ∧ Runs.Run syncStep SyncOk start trace s ∧ s.Quiescent ∧
      s.controls true = .dequeueWait ∧ consumedElements (syncTrace trace) = [7] ∧
      Exhausted s.base (syncTrace trace) := by
  have hinitial := syncInitial_withCapacity (T := Bool) (K := Nat) (B := VecBuffer Nat)
    (show (Queue.withCapacity 1).isSome = true by decide +kernel)
  have hquiescent : ∀ {s : SyncState Bool Nat (VecBuffer Nat) Nat (List Nat)} {last : _},
      s.controls false = .outside ∧ s.base.pcs false = .idle last → s.Parked true →
        s.Quiescent := by
    rintro s last ⟨hcontrol, hpc⟩ hparked (_ | _)
    · exact Or.inl ⟨hcontrol, last, hpc⟩
    · exact Or.inr hparked
  constructor
  · have hrun := Runs.run_of_isSome syncStep SyncOk
      (SyncState.ofQueue ((Queue.withCapacity 1).get (by decide +kernel)) :
        SyncState Bool Nat (VecBuffer Nat) Nat (List Nat))
      (List.flatten [[(false, .enqueue [7] none)], List.replicate 9 (false, .run false),
        [(true, .enqueue [8] (some 5))], List.replicate 266 (true, .run false)])
      (by decide +kernel) (by decide +kernel)
    obtain ⟨trace, s, hrun, hfinished, hwait, hnotified⟩ :
        ∃ trace s, Runs.Run syncStep SyncOk _ trace s ∧
          (s.controls false = .outside ∧ s.base.pcs false = .idle (some .enqueued)) ∧
          s.controls true = .enqueueWait [8] ∧ s.notified true = false :=
      ⟨_, _, hrun, by decide +kernel, by decide +kernel, by decide +kernel⟩
    have hparked := hquiescent hfinished ⟨Or.inr ⟨_, hwait⟩, hnotified⟩
    exact ⟨_, trace, s, hinitial, hrun, hparked, hwait,
      ((no_lost_wakeup hinitial hrun hparked).2.1 true [8] hwait).2.1⟩
  · have hrun := Runs.run_of_isSome syncStep SyncOk
      (SyncState.ofQueue ((Queue.withCapacity 1).get (by decide +kernel)) :
        SyncState Bool Nat (VecBuffer Nat) Nat (List Nat))
      (List.flatten [[(false, .enqueue [7] none)], List.replicate 9 (false, .run false),
        [(true, .dequeue none)], List.replicate 14 (true, .run false),
        [(true, .use .drop)], List.replicate 3 (true, .run false),
        [(true, .dequeue none)], List.replicate 524 (true, .run false)])
      (by decide +kernel) (by decide +kernel)
    obtain ⟨trace, s, hrun, hfinished, hwait, hnotified, hconsumed⟩ :
        ∃ trace s, Runs.Run syncStep SyncOk _ trace s ∧
          (s.controls false = .outside ∧ s.base.pcs false = .idle (some .enqueued)) ∧
          s.controls true = .dequeueWait ∧ s.notified true = false ∧
          consumedElements (syncTrace trace) = [7] :=
      ⟨_, _, hrun, by decide +kernel, by decide +kernel, by decide +kernel, by decide +kernel⟩
    have hparked := hquiescent hfinished ⟨Or.inl hwait, hnotified⟩
    exact ⟨_, trace, s, hinitial, hrun, hparked, hwait, hconsumed,
      ((no_lost_wakeup hinitial hrun hparked).1 true hwait).2⟩

end SwapBufferQueue
