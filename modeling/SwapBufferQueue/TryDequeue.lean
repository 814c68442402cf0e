/-
The outcomes of `try_dequeue`.  A call that runs alone, with enqueuers suspended
anywhere, returns what the two words, the acknowledged length and the reservations in
flight say, and its errors leave nothing behind.
-/
import SwapBufferQueue.Alone
import SwapBufferQueue.BatchIdentity

namespace SwapBufferQueue

universe u v w x

open Tiling

variable {T : Type x} {B : Type u} {α : Type v} {σ : Type w} [Buffer B α σ]

/-- A reservation in the buffer is not acknowledged yet. -/
def Unacknowledged (s : State T B α σ) (i : Fin 2) : Prop :=
  ∃ t value enqueuing, (s.pcs t).inFlight = some (value, enqueuing) ∧
    enqueuing.bufferIndex = i

variable [LawfulBuffer B] {s : State T B α σ} {g : Ledger T α} {t : T}

/-- A buffer is settled when no reservation in it is in flight. -/
theorem Sim.settled_iff (hsim : Sim s g) {i : Fin 2}
    (hvisible : ∀ tile ∈ g.tiles i, tile.tag.hidden = false) :
    (∀ tile ∈ g.tiles i, tile.tag = .acknowledged) ↔ ¬ Unacknowledged s i := by
  constructor
  · rintro hsettled ⟨t, value, enqueuing, hpc, rfl⟩
    have hthread := hsim.thread t
    generalize s.pcs t = pc at hpc hthread
    cases pc with
    | enqueueInsert _ _ =>
        cases hpc
        cases hsettled _ hthread.at_index.mem
    | enqueueAcknowledge _ _ =>
        cases hpc
        cases hsettled _ hthread.at_index.mem
    | _ => cases hpc
  · intro hnone tile htile
    by_contra htag
    obtain ⟨position, hat⟩ := exists_at_of_mem htile
    obtain ⟨t, hown⟩ : ∃ t, tile.tag.owner = some t := by
      have hhidden := hvisible tile htile
      cases hstatus : tile.tag with
      | reserved t => exact ⟨t, rfl⟩
      | written t => exact ⟨t, rfl⟩
      | acknowledged => exact absurd hstatus htag
      | _ =>
          rw [hstatus] at hhidden
          cases hhidden
    obtain ⟨enqueuing, hindex, -, ⟨-, hpc⟩ | ⟨-, hpc⟩⟩ := hsim.owned hat hown
    · exact hnone ⟨t, _, enqueuing, by rw [hpc]; rfl, hindex⟩
    · exact hnone ⟨t, _, enqueuing, by rw [hpc]; rfl, hindex⟩

/-- The acknowledged length lags behind exactly while a reservation is in flight. -/
theorem Sim.lags_iff (hsim : Sim s g) {i : Fin 2}
    (hvisible : ∀ tile ∈ g.tiles i, tile.tag.hidden = false)
    (hfits : extent (g.tiles i) ≤ Buffer.capacity (s.queue.buffers i)) :
    s.queue.buffersLength i < extent (g.tiles i) ↔ Unacknowledged s i := by
  have hcapacity := hsim.shared.capacity_lt i
  constructor
  · intro hlt
    by_contra hnone
    have hlength := hsim.shared.length_of_settled
      ((hsim.settled_iff hvisible).mpr hnone) hfits
    omega
  · intro hflight
    by_contra hle
    have hlength := hsim.shared.length i
    have hweight := weight_le_extent Status.counted (g.tiles i)
    rw [Nat.mod_eq_of_lt (by omega)] at hlength
    have hcounted := all_of_extent_le_weight (hsim.shared.nonempty i)
      (P := Status.counted) (by omega)
    refine (hsim.settled_iff hvisible).mp (fun tile htile => ?_) hflight
    exact Status.eq_acknowledged (hcounted tile htile) (hvisible tile htile)

/-- The elements the next dequeue is about, where they are and how many they are. -/
structure Concerns (s : State T B α σ) (g : Ledger T α) (i : Fin 2) (length : Nat) :
    Prop where
  length_eq : (g.view.concerned s.queue).length = length
  length_lt : length < 2 ^ 62
  pos : 0 < length
  lags_iff : s.queue.buffersLength i < length ↔ Unacknowledged s i
  holds : ¬ Unacknowledged s i →
    s.queue.buffersLength i ≤ Buffer.capacity (s.queue.buffers i) ∧
    Holds (s.queue.buffers i) (s.queue.buffersLength i - length)
      (g.view.concerned s.queue)

theorem Batch.concerns (hsim : Sim s g) {i : Fin 2} {length : Nat}
    (hbatch : Batch s.queue g i length) (hpos : 0 < length)
    (helements : g.view.concerned s.queue = g.batch) : Concerns s g i length := by
  have hadd := hbatch.length_add
  have hfits := hbatch.fits
  have hcapacity := hsim.shared.capacity_lt i
  have hlags := hsim.lags_iff hbatch.visible hfits
  have hsettled := hsim.settled_iff hbatch.visible
  refine ⟨?_, by omega, hpos, ?_, ?_⟩
  · rw [helements]
    exact hbatch.length_batch
  · constructor
    · exact fun hlt => hlags.mp (by omega)
    · intro hflight
      have htaken : g.taken = 0 := by
        rcases hbatch.settled with htaken | hall
        · exact htaken
        · exact absurd hflight (hsettled.mp hall)
      have hlt := hlags.mpr hflight
      omega
  · intro hnone
    have hall := hsettled.mpr hnone
    have hlength := hsim.shared.length_of_settled hall hfits
    refine ⟨by omega, ?_⟩
    have hholds := hsim.shared.holds_of_settled hall hfits
    rw [Ledger.lower, if_neg hbatch.other] at hholds
    rw [helements, hbatch.batch_eq, hbatch.start_eq hsim.shared]
    exact hholds

theorem Sim.concerns_tail (hsim : Sim s g)
    (hne : s.queue.enqueuingCapacity.remainingCapacity ≠
      Buffer.capacity (s.queue.buffers s.queue.enqueuingCapacity.bufferIndex))
    (helements : g.view.concerned s.queue = g.tail) :
    Concerns s g s.queue.enqueuingCapacity.bufferIndex
      (Buffer.capacity (s.queue.buffers s.queue.enqueuingCapacity.bufferIndex) -
        s.queue.enqueuingCapacity.remainingCapacity) := by
  have hadd := hsim.shared.extent_add
  have hvisible := hsim.shared.visible
  have hcapacity := hsim.shared.capacity_lt g.enqueuing
  rw [← hsim.shared.enqueuing] at hne ⊢
  have hextent : Buffer.capacity (s.queue.buffers g.enqueuing) -
      s.queue.enqueuingCapacity.remainingCapacity = extent (g.tiles g.enqueuing) := by
    omega
  rw [hextent]
  have hfits : extent (g.tiles g.enqueuing) ≤
      Buffer.capacity (s.queue.buffers g.enqueuing) := by omega
  refine ⟨?_, by omega, by omega, hsim.lags_iff hvisible hfits, ?_⟩
  · rw [helements]
    rfl
  · intro hnone
    have hall := (hsim.settled_iff hvisible).mpr hnone
    have hlength := hsim.shared.length_of_settled hall hfits
    have hholds := hsim.shared.holds_of_settled hall hfits
    rw [Ledger.lower, if_pos rfl, List.drop_zero] at hholds
    refine ⟨by omega, ?_⟩
    rw [helements, hlength, Nat.sub_self]
    exact hholds

theorem Sim.concerns (hsim : Sim s g) (hopen : s.queue.dequeuingLength ≠ dequeuingLocked)
    {i : Fin 2} {length : Nat} (hconcerned : s.queue.concerned = some (i, length)) :
    Concerns s g i length := by
  have hstored := hsim.stored hopen
  by_cases hvacant : (DequeuingLength.mk s.queue.dequeuingLength).bufferLen = 0
  · obtain ⟨hqueue, helements⟩ := concerned_of_vacant g hvacant
    rw [hqueue] at hconcerned
    by_cases hne : s.queue.enqueuingCapacity.remainingCapacity ≠
        Buffer.capacity (s.queue.buffers s.queue.enqueuingCapacity.bufferIndex)
    · rw [if_pos hne] at hconcerned
      cases hconcerned
      exact hsim.concerns_tail hne helements
    · rw [if_neg hne] at hconcerned
      cases hconcerned
  · rw [Queue.concerned, if_pos hvacant] at hconcerned
    cases hconcerned
    refine hstored.batch.concerns hsim (Nat.pos_of_ne_zero hvacant) ?_
    rw [View.concerned, if_pos hvacant]
    rfl

/-- What `try_dequeue` returns and leaves behind.  The four cases exclude each other and
one of them applies, so each outcome is returned exactly in its own case.  The lock is
held by a slice, an iterator, a dequeue or a release in progress. -/
structure TryDequeueSpec (t : T) (s : State T B α σ) (view : View α)
    (s' : State T B α σ) (view' : View α) : Prop where
  conflict : (∃ t', (s.pcs t').holds = true) →
    s'.pcs t = .idle (some (.dequeueError .conflict)) ∧ s'.queue = s.queue
  nothing : (∀ t', (s.pcs t').holds = false) → s.queue.concerned = none →
    s'.pcs t = .idle (some (.dequeueError
      (if s.queue.enqueuingCapacity.isClosed then .closed else .empty))) ∧
    s'.queue = s.queue
  pending (i : Fin 2) (length : Nat) : (∀ t', (s.pcs t').holds = false) →
    s.queue.concerned = some (i, length) → Unacknowledged s i →
      s'.pcs t = .idle (some (.dequeueError .pending)) ∧
      s'.queue.dequeuingLength ≠ dequeuingLocked ∧
      s'.queue.concerned = some (i, length) ∧
      view'.concerned s'.queue = view.concerned s.queue
  slice (i : Fin 2) (length : Nat) : (∀ t', (s.pcs t').holds = false) →
    s.queue.concerned = some (i, length) → ¬ Unacknowledged s i →
      (view.concerned s.queue).length = length ∧
      ∃ slice, s'.pcs t = .slice i (s.queue.buffersLength i - length)
          (s.queue.buffersLength i) slice ∧
        LawfulBuffer.Shows B slice (view.concerned s.queue)

theorem Sim.unlocked_of_free (hsim : Sim s g) (hfree : ∀ t', (s.pcs t').holds = false) :
    s.queue.dequeuingLength ≠ dequeuingLocked := by
  intro hlocked
  obtain ⟨t', hholds⟩ := hsim.locked_iff.mp hlocked
  rw [hfree t'] at hholds
  cases hholds

/-- A pending word stands for the batch it was stored for. -/
theorem Concerns.of_pending {q' : Queue B} {g' : Ledger T α} {i : Fin 2} {length : Nat}
    (hconcerns : Concerns s g i length)
    (hword : q'.dequeuingLength = (DequeuingLength.new i length).word)
    (hbatch : g'.batch = g.view.concerned s.queue) :
    q'.dequeuingLength ≠ dequeuingLocked ∧ q'.concerned = some (i, length) ∧
      g'.view.concerned q' = g.view.concerned s.queue := by
  obtain ⟨hindex, hlength, hopen⟩ := DequeuingLength.new_spec i hconcerns.length_lt
  have hnew : (DequeuingLength.mk q'.dequeuingLength) = DequeuingLength.new i length := by
    rw [hword]
  have hne : (DequeuingLength.mk q'.dequeuingLength).bufferLen ≠ 0 := by
    rw [hnew, hlength]
    exact Nat.ne_of_gt hconcerns.pos
  refine ⟨hword ▸ hopen, ?_, ?_⟩
  · rw [Queue.concerned, if_pos hne, hnew, hindex, hlength]
  · rw [View.concerned, if_pos hne]
    exact hbatch

theorem AloneInv.spec {args : ResizeArgs α} {s' : State T B α σ} {g' : Ledger T α}
    (hsim : Sim s g) (hkeep : ¬ args.Changes s.queue)
    (halone : AloneInv args s.queue g s'.queue g' (s'.pcs t))
    (hreturned : (s'.pcs t).returned = true) :
    TryDequeueSpec t s g.view s' g'.view := by
  generalize hpc : s'.pcs t = pc at halone hreturned
  cases pc with
  | idle last =>
      cases last with
      | none => exact halone.elim
      | some outcome =>
          cases halone with
          | conflict hlocked hsame =>
              have hunlocked := fun hfree => hsim.unlocked_of_free hfree
              exact ⟨fun _ => ⟨hpc, hsame⟩, fun hfree => absurd hlocked (hunlocked hfree),
                fun _ _ hfree => absurd hlocked (hunlocked hfree),
                fun _ _ hfree => absurd hlocked (hunlocked hfree)⟩
          | nothing hopen hnone _ hsame =>
              refine ⟨fun hheld => absurd (hsim.locked_iff.mpr hheld) hopen,
                fun _ _ => ⟨hpc, hsame⟩, ?_, ?_⟩
              · intro i length _ hconcerned
                rw [hnone] at hconcerned
                cases hconcerned
              · intro i length _ hconcerned
                rw [hnone] at hconcerned
                cases hconcerned
          | resized _ _ hchanges => exact absurd hchanges hkeep
          | pending i length htaking hlt hword =>
              have hconcerns := hsim.concerns htaking.unlocked htaking.concerned
              refine ⟨fun hheld => absurd (hsim.locked_iff.mpr hheld) htaking.unlocked,
                ?_, ?_, ?_⟩
              · intro _ hnone
                rw [htaking.concerned] at hnone
                cases hnone
              · intro j length' _ hconcerned _
                rw [htaking.concerned] at hconcerned
                cases hconcerned
                exact ⟨hpc, hconcerns.of_pending hword htaking.batch⟩
              · intro j length' _ hconcerned hnone
                rw [htaking.concerned] at hconcerned
                cases hconcerned
                exact absurd (hconcerns.lags_iff.mp hlt) hnone
  | slice i first last slice =>
      obtain ⟨htaking, hle, hlast, hslice⟩ := halone
      have hconcerns := hsim.concerns htaking.unlocked htaking.concerned
      have hpos := hconcerns.pos
      have hdone : ¬ Unacknowledged s i := by
        intro hflight
        have hlt := hconcerns.lags_iff.mpr hflight
        omega
      refine ⟨fun hheld => absurd (hsim.locked_iff.mpr hheld) htaking.unlocked,
        ?_, ?_, ?_⟩
      · intro _ hnone
        rw [htaking.concerned] at hnone
        cases hnone
      · intro j length' _ hconcerned hflight
        rw [htaking.concerned] at hconcerned
        cases hconcerned
        exact absurd hflight hdone
      · intro j length' _ hconcerned _
        rw [htaking.concerned] at hconcerned
        cases hconcerned
        obtain ⟨hfits, hholds⟩ := hconcerns.holds hdone
        have hlength := hconcerns.length_eq
        have hfirst : s.queue.buffersLength i - (last - first) = first := by omega
        have hstop : first + (g.view.concerned s.queue).length = last := by omega
        rw [hfirst] at hholds
        obtain ⟨shown, hshown, hshows⟩ :=
          LawfulBuffer.slice_spec hholds (by omega) (by omega)
        rw [hstop, hslice] at hshown
        cases hshown
        refine ⟨hlength, slice, ?_, hshows⟩
        rw [hpc, hfirst, hlast]
  | panicked _ => exact halone.elim
  | _ => cases hreturned

variable [DecidableEq T] {start : State T B α σ}
  {before : List ((T × Action α) × Event α)}

/-- A call of `try_dequeue` that runs alone returns, and what it returns is the outcome
of its case. -/
theorem Sim.tryDequeue_alone (hsim : Sim s g) {last : Option (Outcome α)}
    (hidle : s.pcs t = .idle last) :
    ∃ called, SwapBufferQueue.step s (t, .tryDequeue) = some (called, .silent) ∧
      called.pcs t = .dequeueLock .none ∧ (∀ t', t' ≠ t → called.pcs t' = s.pcs t') ∧
      (∃ trace s', Runs.Run SwapBufferQueue.step (Alone t) called trace s' ∧
        (s'.pcs t).returned = true) ∧
      ∀ trace s', Runs.Run SwapBufferQueue.step (Alone t) called trace s' →
        (s'.pcs t).returned = true →
          AloneInv .none s.queue g s'.queue (g.after trace) (s'.pcs t) ∧
            TryDequeueSpec t s g.view s' (g.after trace).view := by
  have hcall : SwapBufferQueue.step s (t, .tryDequeue) = some (⟨s.queue,
      Function.update s.pcs t (.dequeueLock .none)⟩, .silent) :=
    step_of_act hidle rfl
  have hpc : Function.update s.pcs t (.dequeueLock .none) t = .dequeueLock .none :=
    Function.update_self _ _ _
  refine ⟨_, hcall, hpc, fun t' hne => Function.update_of_ne hne _ _,
    exists_completion_of_call hpc (Or.inl rfl), ?_⟩
  intro trace s' hrun hreturned
  obtain ⟨-, halone⟩ := aloneInv_of_run (hsim.step (sizeOk_of_value_eq_none rfl) hcall) hpc
    (by intro capa hcapa; cases hcapa) rfl hrun
  refine ⟨halone, AloneInv.spec hsim ?_ halone hreturned⟩
  rintro ⟨capa, hcapa, -⟩
  cases hcapa

/-- The outcomes of `try_dequeue` are exact.  In every reachable state, whatever the
other activities are doing, a call that runs alone returns, and every way it can run
alone to its end has the outcome of its case. -/
theorem try_dequeue_exact (hinitial : Initial start)
    (hbefore : Runs.Run SwapBufferQueue.step SizeOk start before s)
    {last : Option (Outcome α)} (hidle : s.pcs t = .idle last) :
    ∃ called, SwapBufferQueue.step s (t, .tryDequeue) = some (called, .silent) ∧
      (∃ trace s', Runs.Run SwapBufferQueue.step (Alone t) called trace s' ∧
        (s'.pcs t).returned = true) ∧
      ∀ trace s', Runs.Run SwapBufferQueue.step (Alone t) called trace s' →
        (s'.pcs t).returned = true →
          TryDequeueSpec t s (View.ofTrace before) s'
            (View.ofTrace (before ++ ((t, .tryDequeue), .silent) :: trace)) := by
  obtain ⟨called, hcall, -, -, hreturns, hspec⟩ :=
    (sim_of_run hinitial (fun _ _ h => h) hbefore).tryDequeue_alone hidle
  refine ⟨called, hcall, hreturns, ?_⟩
  intro trace s' hrun hreturned
  have hcalled := hbefore.snoc (sizeOk_of_value_eq_none rfl) hcall
  have hwhole := hcalled.append (hrun.mono fun _ _ => Alone.sizeOk)
  have hview := view_of_run hinitial hwhole
  rw [Ledger.ofTrace_append, Ledger.ofTrace_append_singleton, ← List.append_cons] at hview
  rw [← hview, ← view_of_run hinitial hbefore]
  exact (hspec trace s' hrun hreturned).2

/-- With an enqueuer suspended after its reservation the outcome is `Pending`. -/
theorem try_dequeue_exact_suspended_enqueuer :
    ∃ (start : State Bool (VecBuffer Nat) Nat (List Nat)) (before : _)
        (s called : State Bool (VecBuffer Nat) Nat (List Nat)) (trace : _)
        (s' : State Bool (VecBuffer Nat) Nat (List Nat)) (i : Fin 2),
      Initial start ∧ Runs.Run SwapBufferQueue.step SizeOk start before s ∧
      s.pcs true = .idle none ∧ Unacknowledged s i ∧
      SwapBufferQueue.step s (true, .tryDequeue) = some (called, .silent) ∧
      Runs.Run SwapBufferQueue.step (Alone true) called trace s' ∧
      s'.pcs true = .idle (some (.dequeueError .pending)) ∧
      s'.queue.concerned = some (i, 1) := by
  have hbefore := Runs.run_of_isSome SwapBufferQueue.step SizeOk
    (State.ofQueue ((Queue.withCapacity 1).get (by decide +kernel)) :
      State Bool (VecBuffer Nat) Nat (List Nat))
    [(false, .tryEnqueue [7]), (false, .run false), (false, .run false)]
    (by decide +kernel) (by decide +kernel)
  have hinitial := initial_withCapacity (T := Bool) (B := VecBuffer Nat)
    (show (Queue.withCapacity 1).isSome = true by decide +kernel)
  obtain ⟨called, hcall, ⟨trace, s', hrun, hreturned⟩, hspec⟩ :=
    try_dequeue_exact hinitial hbefore
      (show State.pcs _ true = .idle none by decide +kernel)
  obtain ⟨hpending, -, hconcerned, -⟩ := (hspec trace s' hrun hreturned).pending
    ⟨0, Nat.zero_lt_two⟩ 1 (by decide +kernel) (by decide +kernel)
    ⟨false, [7], ⟨2⟩, by decide +kernel, by decide +kernel⟩
  exact ⟨_, _, _, called, trace, s', ⟨0, Nat.zero_lt_two⟩, hinitial, hbefore,
    by decide +kernel, ⟨false, [7], ⟨2⟩, by decide +kernel, by decide +kernel⟩, hcall, hrun,
    hpending, hconcerned⟩

end SwapBufferQueue
