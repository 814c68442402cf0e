/-
`capacity()` and `len()`.  The capacity field is a copy that the dequeuer updates after
its swap; outside that window it is the capacity of the enqueuing buffer, and `len`
counts what was reserved or inserted in that buffer.
-/
import SwapBufferQueue.DequeueAndResize

namespace SwapBufferQueue

universe u v w x

variable {T : Type x} {B : Type u} {α : Type v} {σ : Type w}

/-- `Queue::len`; the subtraction saturates. -/
def Queue.len (q : Queue B) : Nat :=
  q.capacity - q.enqueuingCapacity.remainingCapacity

/-- `Queue::is_empty`. -/
def Queue.isEmpty (q : Queue B) : Bool :=
  q.len == 0

/-- The attempt of a dequeue between its swap and its capacity update. -/
def Pc.updatesCapacity : Pc α σ → Option Attempt
  | .dequeueLoadCapacity attempt _ _ => some attempt
  | .dequeueStoreCapacity attempt _ _ => some attempt
  | _ => none

/-- How much was put in the enqueuing buffer since it became that, and how much is
staged in the other one for the next swap. -/
structure EnqueuedSizes where
  enqueued : Nat
  staged : Nat
deriving Repr, DecidableEq

/-- A swap makes the enqueuing buffer of the one with the staged values. -/
def EnqueuedSizes.next (sizes : EnqueuedSizes) : Event α → EnqueuedSizes
  | .reserved _ value => { sizes with enqueued := sizes.enqueued + value.length }
  | .staged _ value => { sizes with staged := sizes.staged + value.length }
  | .swapped _ => ⟨sizes.staged, 0⟩
  | _ => sizes

def enqueuedSizes (trace : List ((T × Action α) × Event α)) : EnqueuedSizes :=
  trace.foldl (fun sizes entry => sizes.next entry.2) ⟨0, 0⟩

theorem enqueuedSizes_append_singleton (trace : List ((T × Action α) × Event α))
    (label : T × Action α) (event : Event α) :
    enqueuedSizes (trace ++ [(label, event)]) = (enqueuedSizes trace).next event := by
  simp [enqueuedSizes]

theorem not_updatesCapacity_of_free {pc : Pc α σ} (hfree : pc.holds = false) :
    pc.updatesCapacity = none := by
  cases pc with
  | dequeueLoadCapacity _ _ _ => cases hfree
  | dequeueStoreCapacity _ _ _ => cases hfree
  | _ => rfl

theorem updatesCapacity_enqueueCheck (value : List α) (enqueuing : EnqueuingCapacity) :
    (enqueueCheck value enqueuing : Pc α σ).updatesCapacity = none :=
  not_updatesCapacity_of_free (enqueueCheck_holds value enqueuing)

theorem updatesCapacity_dequeueEntry (dequeuing : DequeuingLength)
    (resize : ResizeArgs α) :
    (dequeueEntry dequeuing resize : Pc α σ).updatesCapacity = none :=
  dequeueEntry_elim (P := fun pc => pc.updatesCapacity = none) (fun _ => rfl)
    fun _ => rfl

theorem updatesCapacity_dequeueFinish (attempt : Attempt) (capacity : Nat)
    (enqueuing : EnqueuingCapacity) :
    (dequeueFinish attempt capacity enqueuing : Pc α σ).updatesCapacity = none :=
  dequeueFinish_elim (P := fun pc => pc.updatesCapacity = none) (fun _ => rfl)
    (fun _ => rfl) (fun _ _ => updatesCapacity_dequeueEntry _ _) (fun _ _ _ => rfl)
    fun _ _ _ => rfl

theorem updatesCapacity_requeueRange (i : Fin 2) (start stop : Nat) :
    (requeueRange i start stop : Pc α σ).updatesCapacity = none :=
  requeueRange_elim (P := fun pc => pc.updatesCapacity = none) (fun _ => rfl)
    (fun _ => rfl) fun _ => rfl

variable [Buffer B α σ]

def Queue.enqueuingBufferCapacity (q : Queue B) : Nat :=
  Buffer.capacity (q.buffers q.enqueuingCapacity.bufferIndex)

/-- What a step does to the window and to the field. -/
inductive CapacityMove (q : Queue B) (pc : Pc α σ) (q' : Queue B) (pc' : Pc α σ)
    (event : Event α) : Prop
  | outside (hpc : pc.updatesCapacity = none) (hpc' : pc'.updatesCapacity = none)
      (hfield : q'.capacity = q.capacity) (hevent : ∀ i, event ≠ .swapped i)
  | opens (attempt : Attempt) (hpc' : pc'.updatesCapacity = some attempt)
      (hholds : pc.holds = true)
      (hcapacity : attempt.nextCapa = q'.enqueuingBufferCapacity)
  | inside (attempt : Attempt) (hpc : pc.updatesCapacity = some attempt)
      (hpc' : pc'.updatesCapacity = some attempt) (hevent : ∀ i, event ≠ .swapped i)
  | closes (attempt : Attempt) (hpc : pc.updatesCapacity = some attempt)
      (hpc' : pc'.updatesCapacity = none) (hfield : q'.capacity = attempt.nextCapa)
      (hevent : ∀ i, event ≠ .swapped i)

theorem Local.capacityMove {q : Queue B} {pc pc' : Pc α σ} {action : Action α}
    (hmove : Local q pc action pc') : CapacityMove q pc q pc' .silent := by
  have hsilent : ∀ i, (Event.silent : Event α) ≠ .swapped i := by simp
  cases hmove with
  | enqueueLoad _ _ =>
      exact .outside rfl (updatesCapacity_enqueueCheck _ _) rfl hsilent
  | enqueueRetry _ _ _ _ =>
      exact .outside rfl (updatesCapacity_enqueueCheck _ _) rfl hsilent
  | capacityDiffers attempt _ _ _ _ => exact .inside attempt rfl rfl hsilent
  | capacitySame attempt _ _ _ heq => exact .closes attempt rfl rfl heq hsilent
  | dequeueNotify _ _ _ _ =>
      exact .outside rfl (updatesCapacity_dequeueFinish _ _ _) rfl hsilent
  | dropIter _ _ _ => exact .outside rfl (updatesCapacity_requeueRange _ _ _) rfl hsilent
  | requeue _ _ _ _ =>
      exact .outside rfl (updatesCapacity_requeueRange _ _ _) rfl hsilent
  | _ => exact .outside rfl rfl rfl hsilent

variable [LawfulBuffer B] {s : State T B α σ} {g : Ledger T α} {t : T}

/-- Every step is outside the window, inside it, or at one of its ends. -/
theorem Sim.capacityMove (hsim : Sim s g) {action : Action α} {q' : Queue B}
    {pc' : Pc α σ} {event : Event α}
    (hmove : Transition s.queue (s.pcs t) action q' pc' event) :
    CapacityMove s.queue (s.pcs t) q' pc' event := by
  have hthread := hsim.thread t
  generalize s.pcs t = pc at hmove hthread
  cases hmove with
  | silent hlocal => exact hlocal.capacityMove
  | lock _ _ _ =>
      exact .outside rfl (updatesCapacity_dequeueEntry _ _) rfl (by simp)
  | swap attempt capacity nextEnqueuing =>
      have hswap : Swapping s.queue g attempt capacity nextEnqueuing _ := hthread
      refine .opens attempt rfl rfl ?_
      have hindex := (EnqueuingCapacity.withClosed_spec hswap.next_open
        s.queue.enqueuingCapacity).1
      rw [hswap.nextCapa_eq, Queue.enqueuingBufferCapacity]
      change _ = Buffer.capacity (s.queue.buffers
        (nextEnqueuing.withClosed s.queue.enqueuingCapacity).bufferIndex)
      rw [hindex, hswap.next_index]
  | storeCapacity attempt _ _ _ => exact .closes attempt rfl rfl rfl (by simp)
  | _ => exact .outside rfl rfl rfl (by simp)

theorem Sim.enqueuingBufferCapacity_eq [DecidableEq T] (hsim : Sim s g)
    {action : Action α} {q' : Queue B} {pc' : Pc α σ} {event : Event α}
    (hmove : Transition s.queue (s.pcs t) action q' pc' event)
    (hsim' : Sim (⟨q', Function.update s.pcs t pc'⟩ : State T B α σ) (g.next t event))
    (hevent : ∀ i, event ≠ .swapped i) :
    q'.enqueuingBufferCapacity = s.queue.enqueuingBufferCapacity := by
  have hindex : (g.next t event).enqueuing = g.enqueuing := by
    cases event with
    | swapped i => exact absurd rfl (hevent i)
    | _ => rfl
  rw [Queue.enqueuingBufferCapacity, Queue.enqueuingBufferCapacity,
    ← hsim'.shared.enqueuing, ← hsim.shared.enqueuing, hindex]
  exact hsim.capacity_enqueuing hmove

/-- The field is right outside the window, and a dequeue in it has the right value to
store. -/
structure CapacityInv (s : State T B α σ) : Prop where
  field : (∀ t, (s.pcs t).updatesCapacity = none) →
    s.queue.capacity = s.queue.enqueuingBufferCapacity
  update (t : T) (attempt : Attempt) : (s.pcs t).updatesCapacity = some attempt →
    attempt.nextCapa = s.queue.enqueuingBufferCapacity

omit [LawfulBuffer B] in
theorem holds_of_updatesCapacity {pc : Pc α σ} {attempt : Attempt}
    (hpc : pc.updatesCapacity = some attempt) : pc.holds = true := by
  by_contra hfree
  rw [not_updatesCapacity_of_free (Bool.eq_false_iff.mpr hfree)] at hpc
  cases hpc

variable [DecidableEq T]

theorem Sim.capacityInv_step (hsim : Sim s g) (hinv : CapacityInv s)
    {action : Action α} {q' : Queue B} {pc' : Pc α σ} {event : Event α}
    (hmove : Transition s.queue (s.pcs t) action q' pc' event)
    (hsim' : Sim (⟨q', Function.update s.pcs t pc'⟩ : State T B α σ)
      (g.next t event)) :
    CapacityInv (⟨q', Function.update s.pcs t pc'⟩ : State T B α σ) := by
  have hkeep := hsim.enqueuingBufferCapacity_eq hmove hsim'
  have hothers : ∀ {t'}, t' ≠ t →
      Function.update s.pcs t pc' t' = s.pcs t' :=
    fun ht' => Function.update_of_ne ht' _ _
  -- Whoever is in the window holds the lock, so the others are outside it.
  have halone : (s.pcs t).holds = true → ∀ t', t' ≠ t →
      (s.pcs t').updatesCapacity = none := by
    intro hholds t' ht'
    by_contra hsome
    obtain ⟨attempt, hattempt⟩ := Option.ne_none_iff_exists'.mp hsome
    exact ht' (hsim.exclusive (holds_of_updatesCapacity hattempt) hholds)
  constructor
  · intro hnone
    have hself := hnone t
    change (Function.update s.pcs t pc' t).updatesCapacity = none at hself
    rw [Function.update_self] at hself
    change q'.capacity = q'.enqueuingBufferCapacity
    cases hsim.capacityMove hmove with
    | outside hpc _ hfield hevent =>
        rw [hfield, hkeep hevent]
        apply hinv.field
        intro t'
        by_cases ht' : t' = t
        · rw [ht', hpc]
        · rw [← hothers ht']
          exact hnone t'
    | opens attempt hpc' _ _ =>
        rw [hpc'] at hself
        cases hself
    | inside attempt _ hpc' _ =>
        rw [hpc'] at hself
        cases hself
    | closes attempt hpc _ hfield hevent =>
        rw [hfield, hkeep hevent]
        exact hinv.update t attempt hpc
  · intro t' attempt hattempt
    change (Function.update s.pcs t pc' t').updatesCapacity = some attempt at hattempt
    change attempt.nextCapa = q'.enqueuingBufferCapacity
    by_cases ht' : t' = t
    · rw [ht', Function.update_self] at hattempt
      cases hsim.capacityMove hmove with
      | outside _ hpc' _ _ =>
          rw [hpc'] at hattempt
          cases hattempt
      | opens started hpc' _ hcapacity =>
          rw [hpc'] at hattempt
          cases hattempt
          exact hcapacity
      | inside started hpc hpc' hevent =>
          rw [hpc'] at hattempt
          cases hattempt
          rw [hkeep hevent]
          exact hinv.update t _ hpc
      | closes _ _ hpc' _ _ =>
          rw [hpc'] at hattempt
          cases hattempt
    · rw [hothers ht'] at hattempt
      cases hsim.capacityMove hmove with
      | outside _ _ _ hevent =>
          rw [hkeep hevent]
          exact hinv.update t' attempt hattempt
      | opens _ _ hholds _ =>
          rw [halone hholds t' ht'] at hattempt
          cases hattempt
      | inside started hpc _ _ =>
          rw [halone (holds_of_updatesCapacity hpc) t' ht'] at hattempt
          cases hattempt
      | closes started hpc _ _ _ =>
          rw [halone (holds_of_updatesCapacity hpc) t' ht'] at hattempt
          cases hattempt

variable {start : State T B α σ} {trace : List ((T × Action α) × Event α)}

theorem capacityInv_of_run (hinitial : Initial start)
    (hrun : Runs.Run SwapBufferQueue.step SizeOk start trace s) : CapacityInv s := by
  refine hrun.invariant (fun _ s => CapacityInv s) ?_ ?_
  · obtain ⟨capacity, hcreated⟩ := Created.of_initial hinitial
    refine ⟨fun _ => ?_, fun t attempt hattempt => ?_⟩
    · rw [hcreated.capacity_eq, Queue.enqueuingBufferCapacity, hcreated.buffers_capacity]
    · rw [hinitial.2] at hattempt
      cases hattempt
  · rintro trace state state' ⟨t, action⟩ event hprefix hinv hlabel hstep
    have hsim := sim_of_run hinitial (fun _ _ h => h) hprefix
    have hsim' := hsim.step hlabel hstep
    obtain ⟨q', pc', hmove, rfl⟩ := step_cases hstep
    exact hsim.capacityInv_step hinv hmove hsim'

theorem enqueuedSizes_of_run (hinitial : Initial start)
    (hrun : Runs.Run SwapBufferQueue.step SizeOk start trace s) :
    enqueuedSizes trace = ⟨(Ledger.ofTrace trace).tail.length,
      (Ledger.ofTrace trace).staged.length⟩ := by
  refine hrun.invariant (fun trace _ => enqueuedSizes trace =
    ⟨(Ledger.ofTrace trace).tail.length, (Ledger.ofTrace trace).staged.length⟩) rfl ?_
  rintro trace state state' ⟨t, action⟩ event hprefix hsizes hlabel hstep
  have hsim := sim_of_run hinitial (fun _ _ h => h) hprefix
  obtain ⟨q', pc', hmove, -⟩ := step_cases hstep
  have hview := hsim.view_step hmove
  have htail := congrArg View.tail hview
  have hstaged := congrArg View.staged hview
  change ((Ledger.ofTrace trace).next t event).tail = _ at htail
  change ((Ledger.ofTrace trace).next t event).staged = _ at hstaged
  rw [enqueuedSizes_append_singleton, Ledger.ofTrace_append_singleton, hsizes, htail,
    hstaged]
  cases event with
  | reserved _ value => simp [EnqueuedSizes.next, View.next, Ledger.view]
  | staged _ value => simp [EnqueuedSizes.next, View.next, Ledger.view]
  | _ => rfl

/-- `capacity()` and `len()` describe the enqueuing buffer in every reachable state in
which no dequeue is between its swap and its capacity update. -/
theorem capacity_and_len_exact (hinitial : Initial start)
    (hrun : Runs.Run SwapBufferQueue.step SizeOk start trace s)
    (hupdated : ∀ t, (s.pcs t).updatesCapacity = none) :
    s.queue.capacity =
        Buffer.capacity (s.queue.buffers s.queue.enqueuingCapacity.bufferIndex) ∧
      s.queue.len = (enqueuedSizes trace).enqueued ∧
      (s.queue.isEmpty = true ↔ (enqueuedSizes trace).enqueued = 0) := by
  have hsim := sim_of_run hinitial (fun _ _ h => h) hrun
  have hfield := (capacityInv_of_run hinitial hrun).field hupdated
  have hlen : s.queue.len = (enqueuedSizes trace).enqueued := by
    have hadd := hsim.shared.extent_add
    rw [hsim.shared.enqueuing] at hadd
    rw [enqueuedSizes_of_run hinitial hrun, Queue.len, hfield,
      Queue.enqueuingBufferCapacity, ← hadd, Nat.add_sub_cancel, Ledger.tail,
      hsim.shared.enqueuing]
    rfl
  refine ⟨hfield, hlen, ?_⟩
  rw [Queue.isEmpty, hlen, beq_iff_eq]

/-- A resizing dequeue of an empty queue inserts two values and swaps twice, so the
enqueuing buffer is the small one again. -/
theorem capacity_and_len_exact_swapped_twice :
    ∃ (start : State Bool (VecBuffer Nat) Nat (List Nat)) (trace : _)
        (s : State Bool (VecBuffer Nat) Nat (List Nat)),
      Initial start ∧ Runs.Run SwapBufferQueue.step SizeOk start trace s ∧
      List.Sublist [((false, .run false), .swapped ⟨1, Nat.one_lt_two⟩),
        ((false, .run false), .swapped ⟨0, Nat.zero_lt_two⟩)] trace ∧
      (∀ t, (s.pcs t).updatesCapacity = none) ∧ s.queue.capacity = 1 ∧
      s.queue.len = 1 ∧ s.queue.len = (enqueuedSizes trace).enqueued := by
  have hrun := Runs.run_of_isSome SwapBufferQueue.step SizeOk
    (State.ofQueue ((Queue.withCapacity 1).get (by decide +kernel)) :
      State Bool (VecBuffer Nat) Nat (List Nat))
    (List.flatten [[(false, .tryDequeueAndResize ⟨some 3, [[1], [2]]⟩)],
      List.replicate 21 (false, .run false),
      [(true, .tryEnqueue [9]), (true, .run false), (true, .run false)]])
    (by decide +kernel) (by decide +kernel)
  have hinitial := initial_withCapacity (T := Bool) (B := VecBuffer Nat)
    (show (Queue.withCapacity 1).isSome = true by decide +kernel)
  have hexact := capacity_and_len_exact hinitial hrun (by decide +kernel)
  exact ⟨_, _, _, hinitial, hrun, by decide +kernel, by decide +kernel, by decide +kernel,
    by decide +kernel, hexact.2.1⟩

end SwapBufferQueue
