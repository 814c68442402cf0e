/-
Dropping a queue after insertions that have not come to their end.  The cells of an
abandoned room may be uninitialized, and `Drop for Queue` is an ordinary dequeue: it has to
stop at such a batch, and it does, at the price of leaking what is left.  When the insertion
was one of a closure, the lock was never given back, and the drop stops there.
-/
import SwapBufferQueue.AbortedInsertion
import SwapBufferQueue.Drop

namespace SwapBufferQueue

universe u v w x

open Tiling

variable {T : Type x} {B : Type u} {α : Type v} {σ : Type w} [Buffer B α σ]

section Alone

variable {q : Queue B} {i : Fin 2} {length : Nat}

/-- A dequeue that is alone spins to its limit at a batch with a reservation in flight, and
gives the batch back. -/
theorem Queue.runAlone_pending (fuel : Nat) (dropped : List α)
    (hlags : q.buffersLength i < length) (spins left : Nat)
    (hleft : spins + left + 1 = spinLimit) :
    Queue.runAlone (fuel + left + 3) q (.dequeueSpin i length spins : Pc α σ) dropped =
      some ({ q with dequeuingLength := (DequeuingLength.new i length).word }, dropped) := by
  have hshort : ¬ length ≤ q.buffersLength i := Nat.not_le.mpr hlags
  induction left generalizing spins with
  | zero =>
      have hlast : q.run false (.dequeueSpin i length spins : Pc α σ) =
          some (q, .storeDequeuing (DequeuingLength.new i length)
            (.dequeueError .pending), .silent) := by
        rw [Queue.run, if_neg hshort, if_neg (by omega)]
      rw [Queue.runAlone_run hlast, Queue.runAlone_run rfl, Queue.runAlone_idle]
      simp [Event.elements]
  | succ left ih =>
      have hturn : q.run false (.dequeueSpin i length spins : Pc α σ) =
          some (q, .dequeueSpin i length (spins + 1), .silent) := by
        rw [Queue.run, if_neg hshort, if_pos (by omega)]
      rw [show fuel + (left + 1) + 3 = fuel + left + 3 + 1 by omega,
        Queue.runAlone_run hturn]
      simp only [Event.elements, List.append_nil]
      exact ih _ (by omega)

/-- The drop of a queue whose lock was never given back. -/
theorem Queue.drop_locked (hlocked : q.dequeuingLength = dequeuingLocked) :
    q.drop = some (q, ([] : List α)) := by
  have hlock : q.run false (.dequeueLock .none : Pc α σ) =
      some (q, .idle (some (.dequeueError .conflict)), .silent) := by
    simp only [Queue.run, DequeuingLength.tryFromAtomic]
    rw [if_neg (not_not.mpr hlocked), ← hlocked]
  rw [Queue.drop, Queue.runAlone_run hlock, Queue.runAlone_idle]
  rfl

end Alone

section Drop

variable [LawfulBuffer B] {s : State T B α σ} {g : Ledger T α}

/-- The drop of a queue with a batch in front: it is dropped when all of it has been
acknowledged, and left alone otherwise. -/
theorem Sim.drop_batch (hsim : Sim s g)
    (hopen : s.queue.dequeuingLength ≠ dequeuingLocked)
    (hbatch : (DequeuingLength.mk s.queue.dequeuingLength).bufferLen ≠ 0) :
    ∃ (q' : Queue B) (dropped : List α), s.queue.drop = some (q', dropped) ∧
      q'.buffers s.queue.enqueuingCapacity.bufferIndex =
        s.queue.buffers s.queue.enqueuingCapacity.bufferIndex ∧
      (¬ Unacknowledged s (DequeuingLength.mk s.queue.dequeuingLength).bufferIndex →
        dropped = g.batch) ∧
      (Unacknowledged s (DequeuingLength.mk s.queue.dequeuingLength).bufferIndex →
        dropped = [] ∧ q'.buffers = s.queue.buffers) := by
  have hstored := hsim.stored hopen
  have helements : g.view.concerned s.queue = g.batch := by
    rw [View.concerned, if_pos hbatch]
    rfl
  have hconcerns := hstored.batch.concerns hsim (Nat.pos_of_ne_zero hbatch) helements
  have hlength := hconcerns.length_eq
  rw [helements] at hlength
  have hlock : s.queue.run false (.dequeueLock .none : Pc α σ) =
      some (s.queue.locked,
        .dequeueSpin (DequeuingLength.mk s.queue.dequeuingLength).bufferIndex g.batch.length 0,
        .locked ⟨s.queue.dequeuingLength⟩) := by
    simp only [Queue.run, DequeuingLength.tryFromAtomic]
    rw [if_pos hopen]
    simp only [dequeueEntry]
    rw [if_neg hbatch, hlength]
    rfl
  by_cases hlags : Unacknowledged s (DequeuingLength.mk s.queue.dequeuingLength).bufferIndex
  · have hlt := hconcerns.lags_iff.mpr hlags
    rw [← hlength] at hlt
    have hspin := Queue.runAlone_pending (σ := σ) (q := s.queue.locked) 17 [] hlt
      0 63 rfl
    exact ⟨_, [], (Queue.runAlone_run hlock).trans hspin, rfl, fun h => absurd hlags h,
      fun _ => ⟨rfl, rfl⟩⟩
  · obtain ⟨hfits, hholds⟩ := hconcerns.holds hlags
    rw [helements, ← hlength] at hholds
    have hle := Nat.le_of_not_lt fun hlt => hlags (hconcerns.lags_iff.mp hlt)
    obtain ⟨b, -, hspin⟩ := Queue.runAlone_spin (σ := σ) (q := s.queue.locked) 76 []
      (hlength ▸ hle) hfits (List.ne_nil_of_length_pos (by omega)) hholds
    refine ⟨_, g.batch, (Queue.runAlone_run hlock).trans hspin, ?_, fun _ => rfl,
      fun h => absurd h hlags⟩
    change (Queue.setBuffer _ _ b).buffers _ = _
    rw [Queue.buffers_setBuffer, if_neg]
    · rfl
    · rw [← hsim.shared.enqueuing]
      exact hstored.batch.other.symm

/-- The drop of a queue without a batch in front, and with a reservation in flight. -/
theorem Sim.drop_tail_pending (hsim : Sim s g)
    (hopen : s.queue.dequeuingLength ≠ dequeuingLocked)
    (hvacant : (DequeuingLength.mk s.queue.dequeuingLength).bufferLen = 0)
    (hlags : Unacknowledged s s.queue.enqueuingCapacity.bufferIndex) :
    ∃ q' : Queue B, s.queue.drop = some (q', ([] : List α)) ∧ q'.buffers = s.queue.buffers := by
  have hindex : (DequeuingLength.mk s.queue.dequeuingLength).bufferIndex ≠
      s.queue.enqueuingCapacity.bufferIndex := by
    rw [← hsim.shared.enqueuing]
    exact (hsim.stored hopen).batch.other
  have hextent := hsim.shared.extent_add
  have hvisible := hsim.shared.visible
  rw [hsim.shared.enqueuing] at hextent hvisible
  have hlt := (hsim.lags_iff hvisible (by omega)).mpr hlags
  have htail : contents (g.tiles s.queue.enqueuingCapacity.bufferIndex) ≠ [] := by
    apply List.ne_nil_of_length_pos
    rw [← extent]
    omega
  have hlock : s.queue.run false (.dequeueLock .none : Pc α σ) =
      some (s.queue.locked, .dequeueResize ⟨s.queue.dequeuingLength⟩ .none,
        .locked ⟨s.queue.dequeuingLength⟩) := by
    simp only [Queue.run, DequeuingLength.tryFromAtomic]
    rw [if_pos hopen]
    simp only [dequeueEntry]
    rw [if_pos hvacant]
    rfl
  obtain ⟨q', hbuffers, hlengths, extra, hload⟩ := Queue.runAlone_load (σ := σ)
    (q := s.queue.locked) 75 [] htail hindex hextent (hsim.shared.capacity_lt _)
  have hlags' : q'.buffersLength s.queue.enqueuingCapacity.bufferIndex <
      (contents (g.tiles s.queue.enqueuingCapacity.bufferIndex)).length := by
    rw [hlengths]
    exact hlt
  have hspin := Queue.runAlone_pending (σ := σ) (9 + extra) [] hlags' 0 63 rfl
  rw [show 9 + extra + 63 + 3 = 75 + extra by omega] at hspin
  refine ⟨_, Eq.trans ?_ hspin, hbuffers⟩
  rw [Queue.drop, spinLimit, Queue.runAlone_run hlock, Queue.runAlone_run rfl,
    Queue.runAlone_run rfl, Queue.runAlone_run rfl]
  exact hload

end Drop

section Runs

variable [DecidableEq T] [LawfulBuffer B] {start s : AbortState T B α σ} {t : T}
  {trace : List ((T × AbortAction α) × AbortEvent α)}

/-- A place inside of an insertion. -/
def Pc.inserting : Pc α σ → Bool
  | .enqueueInsert _ _ => true
  | .dequeueInsert _ _ _ _ => true
  | _ => false

omit [LawfulBuffer B] in
/-- What has unwound was in an insertion and stays there. -/
theorem inserting_of_aborted (hfresh : ∀ t, start.aborted t = false)
    (hrun : Runs.Run abortStep AbortOk start trace s) (haborted : s.aborted t = true) :
    (s.base.pcs t).inserting = true := by
  have hinserting : ∀ t, s.aborted t = true → (s.base.pcs t).inserting = true := by
    refine hrun.invariant (fun _ (s : AbortState T B α σ) => ∀ t, s.aborted t = true →
      (s.base.pcs t).inserting = true) ?_ ?_
    · intro t ht
      rw [hfresh t] at ht
      cases ht
    · rintro trace s s' ⟨t', action⟩ event - hinv - hstep t ht
      obtain ⟨hrunning, hmove⟩ := abortStep_cases hstep
      have hstays : (s.base.pcs t').inserting = true →
          Function.update s.aborted t' true t = true → (s.base.pcs t).inserting = true := by
        intro hself ht
        by_cases hne : t = t'
        · rw [hne]
          exact hself
        · exact hinv t ((Function.update_of_ne hne ..).symm.trans ht)
      cases hmove with
      | queue hmove hbase =>
          have hne : t ≠ t' := by
            rintro rfl
            exact absurd ht (Bool.eq_false_iff.mp hrunning)
          change (Function.update s.base.pcs t' _ t).inserting = true
          rw [Function.update_of_ne hne]
          exact hinv t ht
      | abort hpc _ _ => exact hstays (by rw [hpc]; rfl) ht
      | abortStaged hpc _ _ => exact hstays (by rw [hpc]; rfl) ht
  exact hinserting t haborted

/-- Nothing is in progress but what has unwound out of an insertion. -/
def OnlyAborted (s : AbortState T B α σ) : Prop :=
  ∀ t, s.aborted t = true ∨ ∃ last, s.base.pcs t = .idle last

/-- An insertion of a closure has unwound, and with it the call that had the lock. -/
def AbortState.LockKept (s : AbortState T B α σ) : Prop :=
  ∃ t, s.aborted t = true ∧ (s.base.pcs t).holds = true

/-- A queue in which an insertion has unwound is dropped safely.  The drop returns.  Where a
closure has unwound it drops nothing.  Else it drops the batch in front of the abandoned
rooms, or nothing when such a room is in it; and a buffer with an abandoned room is left as
it is, so that no uninitialized cell is read. -/
theorem drop_after_aborted_insertion (hinitial : Initial start.base)
    (hfresh : ∀ t, start.aborted t = false)
    (hrun : Runs.Run abortStep AbortOk start trace s) (haborted : s.aborted t = true)
    (hover : OnlyAborted s) {front : Fin 2}
    (hfront : front = other s.base.queue.enqueuingCapacity.bufferIndex) :
    ∃ (q' : Queue B) (dropped : List α), s.base.queue.drop = some (q', dropped) ∧
      (s.LockKept → dropped = [] ∧ q'.buffers = s.base.queue.buffers) ∧
      (∀ i, Unacknowledged s.base i → q'.buffers i = s.base.queue.buffers i) ∧
      (¬ s.LockKept → ¬ Unacknowledged s.base front →
        dropped = (View.ofTrace (abortTrace trace)).batch) ∧
      (Unacknowledged s.base front → dropped = []) := by
  obtain ⟨hsim, hview⟩ := sim_of_abortRun hinitial hrun
  by_cases hkept : s.LockKept
  · have ⟨t', _, hholds⟩ := hkept
    have hdrop := Queue.drop_locked (α := α) (hsim.locked_iff.mpr ⟨t', hholds⟩)
    exact ⟨_, [], hdrop, fun _ => ⟨rfl, rfl⟩, fun _ _ => rfl,
      fun hnot => absurd hkept hnot, fun _ => rfl⟩
  have hinserting : ∀ t, s.aborted t = true →
      ∃ value enqueuing, s.base.pcs t = .enqueueInsert value enqueuing := by
    intro t haborted
    have hinserting := inserting_of_aborted hfresh hrun haborted
    have hfree : (s.base.pcs t).holds ≠ true := fun hholds => hkept ⟨t, haborted, hholds⟩
    generalize s.base.pcs t = pc at hinserting hfree
    cases pc with
    | enqueueInsert value enqueuing => exact ⟨value, enqueuing, rfl⟩
    | dequeueInsert _ _ _ _ => exact absurd rfl hfree
    | _ => cases hinserting
  have hfree : ∀ t, (s.base.pcs t).holds = false := by
    intro t
    rcases hover t with haborted | ⟨last, hidle⟩
    · obtain ⟨value, enqueuing, hpc⟩ := hinserting t haborted
      rw [hpc]
      rfl
    · rw [hidle]
      rfl
  have hopen := hsim.unlocked_of_free hfree
  have hbatch := (hsim.stored hopen).batch
  have hindex : (DequeuingLength.mk s.base.queue.dequeuingLength).bufferIndex = front := by
    rw [hfront, ← hsim.shared.enqueuing]
    exact eq_other_of_ne hbatch.other
  rw [← hview]
  by_cases hvacant : (DequeuingLength.mk s.base.queue.dequeuingLength).bufferLen = 0
  · -- Nothing is in front, so that the abandoned room is in the enqueuing buffer.
    have hnone : ¬ Unacknowledged s.base front := by
      rw [← hindex]
      intro hlags
      have hlt := (hsim.lags_iff hbatch.visible hbatch.fits).mpr hlags
      have hadd := hbatch.length_add
      rcases hbatch.settled with htaken | hsettled
      · omega
      · exact (hsim.settled_iff hbatch.visible).mp hsettled hlags
    have hlags : Unacknowledged s.base s.base.queue.enqueuingCapacity.bufferIndex := by
      obtain ⟨value, enqueuing, hpc⟩ := hinserting t haborted
      refine ⟨t, value, enqueuing, by rw [hpc]; rfl, ?_⟩
      by_contra hother
      exact hnone ⟨t, value, enqueuing, by rw [hpc]; rfl,
        (eq_other_of_ne hother).trans hfront.symm⟩
    obtain ⟨q', hdrop, hbuffers⟩ := hsim.drop_tail_pending hopen hvacant hlags
    refine ⟨q', [], hdrop, fun h => absurd h hkept, fun i _ => by rw [hbuffers], fun _ _ => ?_,
      fun _ => rfl⟩
    have hlength := hbatch.length_batch
    rw [hvacant] at hlength
    exact (List.eq_nil_of_length_eq_zero hlength).symm
  · obtain ⟨q', dropped, hdrop, hsame, hsettled, hlags⟩ := hsim.drop_batch hopen hvacant
    rw [hindex] at hsettled hlags
    refine ⟨q', dropped, hdrop, fun h => absurd h hkept, fun i hi => ?_, fun _ => hsettled,
      fun h => (hlags h).1⟩
    by_cases hother : i = s.base.queue.enqueuingCapacity.bufferIndex
    · rw [hother]
      exact hsame
    · rw [eq_other_of_ne hother, ← hfront] at hi
      rw [(hlags hi).2]

end Runs

/-- A batch of one element waits in front of a room whose iterator has ended at once: the
batch is dropped, and the element behind the room is leaked. -/
theorem drop_after_aborted_insertion_leaked :
    ∃ (start s : AbortState Bool (VecBuffer Nat) Nat (List Nat)) (trace : _)
      (q' : Queue (VecBuffer Nat)), Initial start.base ∧
      Runs.Run abortStep AbortOk start trace s ∧ s.aborted true = true ∧ OnlyAborted s ∧
      s.base.queue.storedElements = [6, 8] ∧ s.base.queue.drop = some (q', [6]) := by
  have hinitial := initial_withCapacity (T := Bool) (B := VecBuffer Nat)
    (show (Queue.withCapacity 2).isSome = true by decide +kernel)
  obtain ⟨trace, s, hrun, haborted, hover, hstored, hbatch, hunlocked, hfront⟩ :
      ∃ trace s, Runs.Run abortStep AbortOk _ trace s ∧ s.aborted true = true ∧
        (∀ t, s.aborted t = true ∨ s.base.pcs t = .idle (some .enqueued)) ∧
        s.base.queue.storedElements = [6, 8] ∧ (View.ofTrace (abortTrace trace)).batch = [6] ∧
        (∀ t, (s.base.pcs t).holds = false) ∧
        ∀ t, (s.base.pcs t).inFlight.all (fun room => room.2.bufferIndex !=
          other s.base.queue.enqueuingCapacity.bufferIndex) = true :=
    ⟨_, _, Runs.run_of_isSome abortStep AbortOk
      (⟨State.ofQueue ((Queue.withCapacity 2).get (by decide +kernel)), fun _ => false⟩ :
        AbortState Bool (VecBuffer Nat) Nat (List Nat))
      (List.flatten [[(false, .queue (.tryEnqueue [6]))],
        List.replicate 4 (false, .queue (.run false)), [(false, .queue .tryDequeue)],
        List.replicate 10 (false, .queue (.run false)),
        [(false, .queue .requeue), (false, .queue (.run false)),
          (true, .queue (.tryEnqueue [7])), (true, .queue (.run false)),
          (true, .queue (.run false)), (true, .abort []), (false, .queue (.tryEnqueue [8]))],
        List.replicate 4 (false, .queue (.run false))])
      (by decide +kernel) (by decide +kernel), by decide +kernel, by decide +kernel,
      by decide +kernel, by decide +kernel, by decide +kernel, by decide +kernel⟩
  have honly : OnlyAborted s := fun t => (hover t).imp id fun hidle => ⟨_, hidle⟩
  obtain ⟨q', dropped, hdrop, -, -, hdropped, -⟩ :=
    drop_after_aborted_insertion hinitial (fun _ => rfl) hrun haborted honly rfl
  refine ⟨_, s, trace, q', hinitial, hrun, haborted, honly, hstored, ?_⟩
  have hreturned : ¬ s.LockKept := by
    rintro ⟨t, -, hholds⟩
    rw [hunlocked t] at hholds
    cases hholds
  rw [hdrop, hdropped hreturned, hbatch]
  rintro ⟨t, value, room, hflight, hroom⟩
  have hother := hfront t
  rw [hflight] at hother
  exact bne_iff_ne.mp hother hroom

end SwapBufferQueue
