/-
A closed and drained queue that is resized.  Emptiness is found before the swap, where
the closed bit decides between the two errors, or after a swap that was only made
because of a resize, where it does not.
-/
import SwapBufferQueue.TryDequeue
import SwapBufferQueue.Drop

namespace SwapBufferQueue

universe u v w x

variable {T : Type x} {B : Type u} {α : Type v} {σ : Type w} [Buffer B α σ]

/-- Nothing is in progress, the queue is closed and holds no element. -/
structure ClosedAndDrained (s : State T B α σ) : Prop where
  quiescent : Quiescent s
  closed : s.queue.enqueuingCapacity.isClosed = true
  vacant : (DequeuingLength.mk s.queue.dequeuingLength).bufferLen = 0
  empty : s.queue.enqueuingCapacity.remainingCapacity =
    Buffer.capacity (s.queue.buffers s.queue.enqueuingCapacity.bufferIndex)

variable [DecidableEq T]

/-- The call, run alone, returns, and always with the given outcome. -/
def ReturnsAlone (s : State T B α σ) (t : T) (action : Action α) (outcome : Outcome α) :
    Prop :=
  ∃ called, SwapBufferQueue.step s (t, action) = some (called, .silent) ∧
    (∃ trace s', Runs.Run SwapBufferQueue.step (Alone t) called trace s' ∧
      (s'.pcs t).returned = true) ∧
    ∀ trace s', Runs.Run SwapBufferQueue.step (Alone t) called trace s' →
      (s'.pcs t).returned = true → s'.pcs t = .idle (some outcome)

/-- A call that returns alone with an outcome returns with no other. -/
theorem ReturnsAlone.unique {s : State T B α σ} {t : T} {action : Action α}
    {outcome outcome' : Outcome α} (hreturns : ReturnsAlone s t action outcome)
    (hreturns' : ReturnsAlone s t action outcome') : outcome = outcome' := by
  obtain ⟨called, hcall, ⟨trace, s', hrun, hreturned⟩, hall⟩ := hreturns
  obtain ⟨called', hcall', -, hall'⟩ := hreturns'
  rw [hcall] at hcall'
  cases hcall'
  have hpc := (hall trace s' hrun hreturned).symm.trans (hall' trace s' hrun hreturned)
  cases hpc
  rfl

variable [LawfulBuffer B] {s : State T B α σ} {g : Ledger T α} {t : T}

/-- What a call without insertion returns on a closed and drained queue. -/
theorem Sim.returnsAlone_closed (hsim : Sim s g) (hdrained : ClosedAndDrained s)
    (args : ResizeArgs α) {action : Action α} {called : State T B α σ}
    (hcall : SwapBufferQueue.step s (t, action) = some (called, .silent))
    (hqueue : called.queue = s.queue) (hpc : called.pcs t = .dequeueLock args)
    (hsize : SizeOk s (t, action))
    (haccept : ∀ capa ∈ args.capacity, checkOverflow capa = true)
    (hinsert : args.insert = [])
    (hresize : args.capacity = none ∨
      ∀ (b : B) capa, (Buffer.resize b capa).isSome = true) :
    (¬ args.Changes s.queue → ReturnsAlone s t action (.dequeueError .closed)) ∧
      (args.Changes s.queue → ReturnsAlone s t action (.dequeueError .empty)) := by
  have hsim' : Sim called g := hsim.step hsize hcall
  have hopen : s.queue.dequeuingLength ≠ dequeuingLocked :=
    hsim.unlocked_of_quiescent hdrained.quiescent
  have hnone : s.queue.concerned = none := by
    rw [(concerned_of_vacant g hdrained.vacant).1,
      if_neg (not_not.mpr hdrained.empty)]
  have hreturn := exists_completion_of_call hpc hresize
  -- With nothing concerned, every end but two is out of the question.
  have hends : ∀ trace s', Runs.Run SwapBufferQueue.step (Alone t) called trace s' →
      (s'.pcs t).returned = true →
        (¬ args.Changes s.queue ∧ s'.pcs t = .idle (some (.dequeueError .closed))) ∨
          (args.Changes s.queue ∧ s'.pcs t = .idle (some (.dequeueError .empty))) := by
    intro trace s' hrun hreturned
    obtain ⟨-, halone⟩ := aloneInv_of_run hsim' hpc haccept hinsert hrun
    rw [hqueue] at halone
    generalize s'.pcs t = pc at halone hreturned
    cases pc with
    | idle last =>
        cases last with
        | none => exact halone.elim
        | some outcome =>
            cases halone with
            | conflict hlocked _ => exact absurd hlocked hopen
            | nothing _ _ hkeep _ =>
                rw [hdrained.closed]
                exact Or.inl ⟨hkeep, rfl⟩
            | resized _ _ hchanges => exact Or.inr ⟨hchanges, rfl⟩
            | pending i length htaking _ _ =>
                rw [htaking.concerned] at hnone
                cases hnone
    | slice i first last slice =>
        rw [halone.1.concerned] at hnone
        cases hnone
    | panicked _ => exact halone.elim
    | _ => cases hreturned
  constructor
  · intro hkeep
    refine ⟨called, hcall, hreturn, fun trace s' hrun hreturned => ?_⟩
    rcases hends trace s' hrun hreturned with ⟨-, hclosed⟩ | ⟨hchanges, -⟩
    · exact hclosed
    · exact absurd hchanges hkeep
  · intro hchanges
    refine ⟨called, hcall, hreturn, fun trace s' hrun hreturned => ?_⟩
    rcases hends trace s' hrun hreturned with ⟨hkeep, -⟩ | ⟨-, hempty⟩
    · exact absurd hchanges hkeep
    · exact hempty

variable {start : State T B α σ} {before : List ((T × Action α) × Event α)}

/-- On a closed and drained queue `try_dequeue` reports `Closed`;
`try_dequeue_and_resize` does exactly when it has nothing to resize. -/
theorem resize_reports_closed_iff (hinitial : Initial start)
    (hbefore : Runs.Run SwapBufferQueue.step SizeOk start before s)
    (hdrained : ClosedAndDrained s) (t : T) (capacity : Option Nat)
    (haccept : ∀ capa ∈ capacity, checkOverflow capa = true)
    (hresize : ∀ (b : B) capa, (Buffer.resize b capa).isSome = true) :
    ReturnsAlone s t .tryDequeue (.dequeueError .closed) ∧
      (ReturnsAlone s t (.tryDequeueAndResize ⟨capacity, []⟩) (.dequeueError .closed) ↔
        ∀ capa ∈ capacity, capa = Buffer.capacity (s.queue.buffers
          (DequeuingLength.mk s.queue.dequeuingLength).bufferIndex)) := by
  have hsim := sim_of_run hinitial (fun _ _ h => h) hbefore
  obtain ⟨last, hidle⟩ := hdrained.quiescent t
  constructor
  · refine (hsim.returnsAlone_closed hdrained .none
      (step_of_act hidle rfl) rfl (Function.update_self _ _ _)
      (sizeOk_of_value_eq_none rfl) ?_ rfl (Or.inl rfl)).1 ?_
    · intro capa hcapa
      cases hcapa
    · rintro ⟨capa, hcapa, -⟩
      cases hcapa
  · have hcall : SwapBufferQueue.step s (t, .tryDequeueAndResize ⟨capacity, []⟩) =
        some (⟨s.queue, Function.update s.pcs t (.dequeueLock ⟨capacity, []⟩)⟩, .silent) :=
      step_of_act hidle rfl
    obtain ⟨hkeeps, hchanges⟩ := hsim.returnsAlone_closed hdrained ⟨capacity, []⟩ hcall rfl
      (Function.update_self _ _ _) (sizeOk_of_value_eq_none rfl) haccept rfl
      (Or.inr hresize)
    constructor
    · intro hclosed capa hcapa
      by_contra hne
      cases hclosed.unique (hchanges ⟨capa, hcapa, hne⟩)
    · intro hsame
      apply hkeeps
      rintro ⟨capa, hcapa, hne⟩
      exact hne (hsame capa hcapa)

/-- Asking for the capacity the buffer has. -/
theorem resize_reports_closed_iff_same_capacity :
    ∃ (start : State Unit (VecBuffer Nat) Nat (List Nat)) (before : _)
        (s : State Unit (VecBuffer Nat) Nat (List Nat)),
      Initial start ∧ Runs.Run SwapBufferQueue.step SizeOk start before s ∧
      ClosedAndDrained s ∧
      ReturnsAlone s () (.tryDequeueAndResize ⟨some 1, []⟩) (.dequeueError .closed) := by
  have hbefore := Runs.run_of_isSome SwapBufferQueue.step SizeOk
    (State.ofQueue ((Queue.withCapacity 1).get (by decide +kernel)) :
      State Unit (VecBuffer Nat) Nat (List Nat))
    [((), .close)] (by decide +kernel) (by decide +kernel)
  have hinitial := initial_withCapacity (T := Unit) (B := VecBuffer Nat)
    (show (Queue.withCapacity 1).isSome = true by decide +kernel)
  have hiff := (resize_reports_closed_iff hinitial hbefore
    ⟨fun t => ⟨some .done, by revert t; decide +kernel⟩, by decide +kernel,
      by decide +kernel, by decide +kernel⟩ () (some 1) (by decide +kernel)
    fun _ _ => rfl).2
  exact ⟨_, _, _, hinitial, hbefore,
    ⟨fun t => ⟨some .done, by revert t; decide +kernel⟩, by decide +kernel,
      by decide +kernel, by decide +kernel⟩, hiff.mpr (by decide +kernel)⟩

/-- Asking a closed and drained queue for another capacity returns `Empty`. -/
theorem closed_queue_reports_empty_when_resized :
    ∃ (start : State Unit (VecBuffer Nat) Nat (List Nat)) (before : _)
        (s : State Unit (VecBuffer Nat) Nat (List Nat)) (trace : _)
        (s' : State Unit (VecBuffer Nat) Nat (List Nat)),
      Initial start ∧ Runs.Run SwapBufferQueue.step SizeOk start before s ∧
      ClosedAndDrained s ∧ checkOverflow 2 = true ∧
      Runs.execute SwapBufferQueue.step s
        (((), .tryDequeueAndResize ⟨some 2, []⟩) :: List.replicate 10 ((), .run false)) =
          some (trace, s') ∧
      s'.queue.enqueuingCapacity.isClosed = true ∧
      s'.pcs () = .idle (some (.dequeueError .empty)) := by
  have hbefore := Runs.run_of_isSome SwapBufferQueue.step SizeOk
    (State.ofQueue ((Queue.withCapacity 1).get (by decide +kernel)) :
      State Unit (VecBuffer Nat) Nat (List Nat))
    [((), .close)] (by decide +kernel) (by decide +kernel)
  have hinitial := initial_withCapacity (T := Unit) (B := VecBuffer Nat)
    (show (Queue.withCapacity 1).isSome = true by decide +kernel)
  exact ⟨_, _, _, _, _, hinitial, hbefore,
    ⟨fun t => ⟨some .done, by revert t; decide +kernel⟩, by decide +kernel,
      by decide +kernel, by decide +kernel⟩, by decide +kernel,
    (Option.some_get (by decide +kernel)).symm, by decide +kernel, by decide +kernel⟩

end SwapBufferQueue
