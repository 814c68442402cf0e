/-
Closing the queue.  The closed bit is what the last `close` or `reopen` made it, no
reservation goes through while it is set, and a dequeue that reports `Closed` has
seen the end of the stream.
-/
import SwapBufferQueue.Delivery
import SwapBufferQueue.Exclusion

namespace SwapBufferQueue

universe u v w x

open Tiling

variable {T : Type x} {B : Type u} {α : Type v} {σ : Type w}

/-- What the last `close` or `reopen` of a trace left. -/
def lastClose (trace : List ((T × Action α) × Event α)) : Bool :=
  trace.foldl (fun closed entry =>
    match entry.2 with
    | .closed => true
    | .reopened => false
    | _ => closed) false

theorem Ledger.closed_ofTrace [DecidableEq T]
    (trace : List ((T × Action α) × Event α)) :
    (Ledger.ofTrace trace).closed = lastClose trace := by
  induction trace using List.reverseRecOn with
  | nil => rfl
  | append_singleton trace entry ih =>
      obtain ⟨label, event⟩ := entry
      rw [Ledger.ofTrace_append_singleton, lastClose, List.foldl_append]
      rw [lastClose] at ih
      cases event <;> first | rfl | exact ih

/-- Closed, and nothing is left in either buffer. -/
structure Ledger.Drained (g : Ledger T α) : Prop where
  closed : g.closed = true
  nothing (i : Fin 2) : g.tiles i = []

/-- What a drained queue does not show any more. -/
def Event.Quiescent : Event α → Prop
  | .reserved _ _ => False
  | .acknowledged _ _ => False
  | .sliced _ _ _ => False
  | _ => True

variable [Buffer B α σ] [LawfulBuffer B] {s : State T B α σ} {g : Ledger T α} {t : T}

omit [LawfulBuffer B] in
theorem Ledger.Drained.not_range (hdrained : g.Drained) {q : Queue B} {i : Fin 2}
    {start stop : Nat} : ¬ Range q g i start stop := by
  intro hrange
  have hpos := hrange.pos
  rw [hrange.stop_eq, hdrained.nothing] at hpos
  cases hpos

omit [LawfulBuffer B] in
theorem Ledger.Drained.not_inFlight (hdrained : g.Drained) {q : Queue B}
    {enqueuing : EnqueuingCapacity} {tile : Tile (Status T) α} :
    ¬ InFlight q g enqueuing tile := by
  intro hflight
  have hat := hflight.at_index
  rw [hdrained.nothing] at hat
  exact not_at_nil hat

theorem Sim.drained_of_foundEmpty (hsim : Sim s g) {action : Action α} {q' : Queue B}
    {pc' : Pc α σ}
    (hmove : Transition s.queue (s.pcs t) action q' pc' (.foundEmpty .closed)) :
    g.Drained := by
  refine ⟨?_, hsim.tiles_of_foundEmpty hmove⟩
  rw [hsim.shared.closed]
  generalize hevent : Event.foundEmpty TryDequeueError.closed = event at hmove
  generalize s.pcs t = pc at hmove
  cases hmove with
  | foundEmpty _ _ _ _ _ _ =>
      by_contra hopen
      rw [if_neg hopen] at hevent
      cases hevent
  | _ => cases hevent

variable [DecidableEq T]

theorem Sim.drained_step (hsim : Sim s g) (hdrained : g.Drained)
    (hnothing : (s.pcs t).InsertsNothing) {action : Action α} {q' : Queue B}
    {pc' : Pc α σ} {event : Event α}
    (hmove : Transition s.queue (s.pcs t) action q' pc' event)
    (hopen : event ≠ .reopened) :
    event.Quiescent ∧ (g.next t event).Drained := by
  have hthread := hsim.thread t
  generalize s.pcs t = pc at hmove hnothing hthread
  have hsame : ∀ {closed accepted consumed enqueuing taken}, closed = true →
      (⟨g.tiles, enqueuing, taken, closed, accepted, consumed⟩ : Ledger T α).Drained :=
    fun hclosed => ⟨hclosed, hdrained.nothing⟩
  have hretag : ∀ (i : Fin 2) (f : Status T → Status T) (j : Fin 2),
      (g.setTiles i (retag f (g.tiles i))).tiles j = [] := by
    intro i f j
    rw [Ledger.tiles_setTiles, hdrained.nothing, hdrained.nothing]
    exact ite_self _
  cases hmove with
  | silent _ => exact ⟨trivial, hdrained⟩
  | reserve value next =>
      have hclosed := hsim.shared.closed
      rw [hdrained.closed, hthread.2.2.1] at hclosed
      cases hclosed
  | insert _ _ _ _ _ => exact (hdrained.not_inFlight hthread).elim
  | acknowledge _ _ _ => exact (hdrained.not_inFlight hthread).elim
  | conflict _ _ _ => exact ⟨trivial, hdrained⟩
  | lock _ _ _ => exact ⟨trivial, hdrained⟩
  | resize _ _ _ _ _ _ _ _ _ => exact ⟨trivial, hdrained⟩
  | stage _ _ _ _ _ _ _ _ _ _ => cases hnothing.1
  | publish attempt _ _ =>
      exact ⟨trivial, hdrained.closed, hretag attempt.dequeuing.bufferIndex _⟩
  | foundEmpty _ _ _ _ _ _ => exact ⟨trivial, hdrained⟩
  | swap attempt _ _ =>
      exact ⟨trivial, hdrained.closed, hretag attempt.dequeuing.bufferIndex _⟩
  | storeCapacity _ _ _ _ => exact ⟨trivial, hdrained⟩
  | slice _ _ _ _ _ _ => exact (hdrained.not_range hthread).elim
  | remove _ _ _ _ _ _ _ => exact ⟨trivial, hsame hdrained.closed⟩
  | clear _ _ _ _ _ _ _ => exact ⟨trivial, hsame hdrained.closed⟩
  | release i _ =>
      refine ⟨trivial, hdrained.closed, fun j => ?_⟩
      rw [Ledger.tiles_released, hdrained.nothing]
      exact ite_self _
  | unlock _ _ _ => exact ⟨trivial, hdrained⟩
  | close _ => exact ⟨trivial, hsame rfl⟩
  | reopen _ => exact absurd rfl hopen

section Reports

/-- A dequeue that has returned `Closed`, or is about to. -/
def Pc.ReportsClosed : Pc α σ → Prop
  | .storeDequeuing _ (.dequeueError .closed) => True
  | .idle (some (.dequeueError .closed)) => True
  | _ => False

omit [DecidableEq T] [Buffer B α σ] [LawfulBuffer B] in
theorem not_reportsClosed_enqueueCheck (value : List α)
    (enqueuing : EnqueuingCapacity) :
    ¬ (enqueueCheck value enqueuing : Pc α σ).ReportsClosed :=
  enqueueCheck_elim (P := fun pc => ¬ pc.ReportsClosed) (fun _ => not_false)
    (fun _ _ => not_false) fun _ _ _ => not_false

omit [DecidableEq T] [Buffer B α σ] [LawfulBuffer B] in
theorem not_reportsClosed_dequeueEntry (dequeuing : DequeuingLength)
    (resize : ResizeArgs α) :
    ¬ (dequeueEntry dequeuing resize : Pc α σ).ReportsClosed :=
  dequeueEntry_elim (P := fun pc => ¬ pc.ReportsClosed) (fun _ => not_false)
    fun _ => not_false

omit [DecidableEq T] [Buffer B α σ] [LawfulBuffer B] in
theorem not_reportsClosed_dequeueFinish (attempt : Attempt) (capacity : Nat)
    (enqueuing : EnqueuingCapacity) :
    ¬ (dequeueFinish attempt capacity enqueuing : Pc α σ).ReportsClosed :=
  dequeueFinish_elim (P := fun pc => ¬ pc.ReportsClosed) (fun _ => not_false)
    (fun _ => not_false) (fun _ _ => not_reportsClosed_dequeueEntry _ _)
    (fun _ _ _ => not_false) fun _ _ _ => not_false

omit [DecidableEq T] [Buffer B α σ] [LawfulBuffer B] in
theorem not_reportsClosed_requeueRange (i : Fin 2) (start stop : Nat) :
    ¬ (requeueRange i start stop : Pc α σ).ReportsClosed :=
  requeueRange_elim (P := fun pc => ¬ pc.ReportsClosed) (fun _ => not_false)
    (fun _ => not_false) fun _ => not_false

omit [DecidableEq T] [LawfulBuffer B] in
/-- Only the load of the enqueuing word makes a call report `Closed`. -/
theorem Transition.reportsClosed {q q' : Queue B} {pc pc' : Pc α σ}
    {action : Action α} {event : Event α}
    (hmove : Transition q pc action q' pc' event) (hreports : pc'.ReportsClosed) :
    event = .foundEmpty .closed ∨
      (pc.ReportsClosed ∧ ∃ spurious, action = .run spurious) := by
  cases hmove with
  | silent hlocal =>
      cases hlocal with
      | enqueueLoad _ _ => exact (not_reportsClosed_enqueueCheck _ _ hreports).elim
      | enqueueRetry _ _ _ _ => exact (not_reportsClosed_enqueueCheck _ _ hreports).elim
      | dequeueNotify _ _ _ _ =>
          exact (not_reportsClosed_dequeueFinish _ _ _ hreports).elim
      | dropIter _ _ _ => exact (not_reportsClosed_requeueRange _ _ _ hreports).elim
      | requeue _ _ _ _ => exact (not_reportsClosed_requeueRange _ _ _ hreports).elim
      | _ => exact hreports.elim
  | lock _ _ _ => exact (not_reportsClosed_dequeueEntry _ _ hreports).elim
  | foundEmpty attempt spurious hindex hempty hresized hinserted =>
      left
      cases hclosed : q.enqueuingCapacity.isClosed with
      | true => rfl
      | false =>
          rw [hclosed] at hreports
          exact hreports.elim
  | unlock dequeuing outcome spurious =>
      right
      refine ⟨?_, spurious, rfl⟩
      cases outcome with
      | dequeueError error =>
          cases error with
          | closed => exact trivial
          | _ => exact hreports
      | _ => exact hreports
  | _ => exact hreports.elim

/-- The load by which the current call of an activity found the queue closed. -/
def FoundClosed (trace : List ((T × Action α) × Event α)) (t : T) : Prop :=
  ∃ before after action, trace = before ++ ((t, action), .foundEmpty .closed) :: after ∧
    ∀ entry ∈ after, entry.1.1 = t → ∃ spurious, entry.1.2 = .run spurious

omit [LawfulBuffer B] in
theorem foundClosed_of_run {start s : State T B α σ} (hinitial : Initial start)
    {ok : State T B α σ → T × Action α → Prop}
    {trace : List ((T × Action α) × Event α)}
    (hrun : Runs.Run SwapBufferQueue.step ok start trace s) (t : T)
    (hreports : (s.pcs t).ReportsClosed) : FoundClosed trace t := by
  revert t
  refine hrun.invariant
    (fun trace s => ∀ t, (s.pcs t).ReportsClosed → FoundClosed trace t) ?_ ?_
  · intro t hreports
    rw [hinitial.2] at hreports
    exact hreports.elim
  · rintro trace state state' ⟨t, action⟩ event _ hall _ hstep t' hreports
    obtain ⟨q', pc', hmove, rfl⟩ := step_cases hstep
    change (Function.update state.pcs t pc' t').ReportsClosed at hreports
    have hextend : ∀ {t'}, FoundClosed trace t' →
        (t = t' → ∃ spurious, action = .run spurious) →
          FoundClosed (trace ++ [((t, action), event)]) t' := by
      rintro t' ⟨before, after, found, rfl, hafter⟩ hown
      refine ⟨before, after ++ [((t, action), event)], found, by simp, ?_⟩
      intro entry hentry
      rcases List.mem_append.mp hentry with hold | hnew
      · exact hafter entry hold
      · rw [List.mem_singleton.mp hnew]
        exact hown
    by_cases ht' : t' = t
    · subst ht'
      rw [Function.update_self] at hreports
      rcases hmove.reportsClosed hreports with rfl | ⟨hold, hrun⟩
      · exact ⟨trace, [], action, rfl, by simp⟩
      · exact hextend (hall t' hold) fun _ => hrun
    · rw [Function.update_of_ne ht'] at hreports
      exact hextend (hall t' hreports) fun h => absurd h.symm ht'

end Reports

section Stream

variable {start : State T B α σ} {trace : List ((T × Action α) × Event α)}

/-- Along a run from a drained state that is not reopened nothing is accepted or
delivered. -/
theorem quiescent_of_drained (hinitial : Initial start)
    (hrun : Runs.Run SwapBufferQueue.step DeliveryOk start trace s)
    (hdrained : (Ledger.ofTrace trace).Drained)
    {after : List ((T × Action α) × Event α)} {s' : State T B α σ}
    (hafter : Runs.Run SwapBufferQueue.step DeliveryOk s after s')
    (hopen : ∀ entry ∈ after, entry.2 ≠ .reopened) :
    ∀ entry ∈ after, entry.2.Quiescent := by
  suffices hboth : (∀ entry ∈ after, entry.2.Quiescent) ∧
      (Ledger.ofTrace (trace ++ after)).Drained from hboth.1
  revert hopen
  refine hafter.invariant (fun after _ => (∀ entry ∈ after, entry.2 ≠ .reopened) →
    (∀ entry ∈ after, entry.2.Quiescent) ∧
      (Ledger.ofTrace (trace ++ after)).Drained) ?_ ?_
  · intro _
    rw [List.append_nil]
    exact ⟨by simp, hdrained⟩
  · rintro after state state' ⟨t, action⟩ event hprefix ih hlabel hstep hopen
    obtain ⟨hquiet, hold⟩ :=
      ih fun entry hentry => hopen entry (List.mem_append_left _ hentry)
    have hwhole := hrun.append hprefix
    have hsim := sim_of_run hinitial (fun _ _ h => h.size) hwhole
    have hnothing := insertsNothing_of_run hinitial (fun _ _ h => h.nothing) hwhole t
    obtain ⟨q', pc', hmove, -⟩ := step_cases hstep
    obtain ⟨hevent, hnext⟩ := hsim.drained_step hold hnothing hmove
      (hopen ((t, action), event) (by simp))
    constructor
    · intro entry hentry
      rcases List.mem_append.mp hentry with hold | hnew
      · exact hquiet entry hold
      · rw [List.mem_singleton.mp hnew]
        exact hevent
    · rw [← List.append_assoc, Ledger.ofTrace_append_singleton]
      exact hnext

/-- Close is a clean end of stream.  The closed bit is the last `close` or `reopen`;
no reservation goes through while it is set; a call that reports `Closed` loaded the
word when every accepted element had been consumed and nothing was in flight, and
from that load to the next `reopen` nothing is reserved, acknowledged or sliced. -/
theorem close_ends_stream (hinitial : Initial start)
    (hrun : Runs.Run SwapBufferQueue.step DeliveryOk start trace s) :
    s.queue.enqueuingCapacity.isClosed = lastClose trace ∧
    (∀ before after label i value,
      trace = before ++ (label, .reserved i value) :: after →
        lastClose before = false) ∧
    (∀ t, (s.pcs t).ReportsClosed → FoundClosed trace t) ∧
    ∀ before after label, trace = before ++ (label, .foundEmpty .closed) :: after →
      consumedElements before = (reservedValues before).flatten ∧
      (∃ loaded, Runs.Run SwapBufferQueue.step DeliveryOk start before loaded ∧
        ∀ t, (loaded.pcs t).inFlight = none) ∧
      ((∀ entry ∈ after, entry.2 ≠ .reopened) →
        ∀ entry ∈ after, (∀ i first last, entry.2 ≠ .sliced i first last) ∧
          (∀ i value, entry.2 ≠ .reserved i value) ∧
          ∀ i value, entry.2 ≠ .acknowledged i value) := by
  have hsize : ∀ (state : State T B α σ) label, DeliveryOk state label →
      SizeOk state label := fun _ _ h => h.size
  refine ⟨?_, ?_, foundClosed_of_run hinitial hrun, ?_⟩
  · rw [← Ledger.closed_ofTrace]
    exact (sim_of_run hinitial hsize hrun).shared.closed.symm
  · rintro before after ⟨t, action⟩ i value rfl
    obtain ⟨loaded, hbefore, hrest⟩ := hrun.split
    obtain ⟨next, -, hstep, -⟩ := hrest.cons_inv
    have hsim := sim_of_run hinitial hsize hbefore
    obtain ⟨q', pc', hmove, -⟩ := step_cases hstep
    rw [← Ledger.closed_ofTrace, hsim.shared.closed]
    have hthread := hsim.thread t
    generalize loaded.pcs t = pc at hmove hthread
    cases hmove with
    | reserve _ _ => exact hthread.2.2.1
  · rintro before after ⟨t, action⟩ rfl
    obtain ⟨loaded, hbefore, hrest⟩ := hrun.split
    obtain ⟨next, hlabel, hstep, hafter⟩ := hrest.cons_inv
    have hsim := sim_of_run hinitial hsize hbefore
    obtain ⟨q', pc', hmove, -⟩ := step_cases hstep
    have hdrained := hsim.drained_of_foundEmpty hmove
    refine ⟨?_, ⟨loaded, hbefore, ?_⟩, ?_⟩
    · have horder := hsim.shared.order
      rw [accepted_eq_reservedValues hinitial hbefore, Ledger.consumed_ofTrace] at horder
      simpa [Ledger.batch, Ledger.tail, hdrained.nothing] using horder
    · intro t'
      have hthread := hsim.thread t'
      generalize loaded.pcs t' = pc at hthread
      cases pc with
      | enqueueInsert _ _ => exact (hdrained.not_inFlight hthread).elim
      | enqueueAcknowledge _ _ => exact (hdrained.not_inFlight hthread).elim
      | _ => rfl
    · intro hopen entry hentry
      have hload := hbefore.snoc hlabel hstep
      have hnext : (Ledger.ofTrace
          (before ++ [((t, action), .foundEmpty .closed)])).Drained := by
        rw [Ledger.ofTrace_append_singleton]
        exact hdrained
      have hquiet := quiescent_of_drained hinitial hload hnext hafter hopen entry hentry
      refine ⟨?_, ?_, ?_⟩
      · intro i first last hevent
        rw [hevent] at hquiet
        exact hquiet
      · intro i value hevent
        rw [hevent] at hquiet
        exact hquiet
      · intro i value hevent
        rw [hevent] at hquiet
        exact hquiet

/-- A value enqueued before the close is delivered, then the stream ends. -/
theorem close_ends_stream_after_last_value :
    ∃ (start : State Nat (VecBuffer Nat) Nat (List Nat)) (trace : _)
        (s : State Nat (VecBuffer Nat) Nat (List Nat)),
      Initial start ∧ Runs.Run SwapBufferQueue.step DeliveryOk start trace s ∧
      s.pcs 1 = .idle (some (.dequeueError .closed)) ∧ consumedElements trace = [7] ∧
      s.queue.enqueuingCapacity.isClosed = lastClose trace ∧ FoundClosed trace 1 := by
  have hrun := Runs.run_of_isSome SwapBufferQueue.step DeliveryOk
    (State.ofQueue ((Queue.withCapacity 1).get (by decide +kernel)) :
      State Nat (VecBuffer Nat) Nat (List Nat))
    (List.flatten [[(0, .tryEnqueue [7])], List.replicate 4 (0, .run false),
      [(0, .close), (1, .tryDequeue)],
      List.replicate 10 (1, .run false),
      [(1, .drop), (1, .run false), (1, .run false), (1, .run false), (1, .tryDequeue)],
      List.replicate 6 (1, .run false)])
    (by decide +kernel) (by decide +kernel)
  have hinitial := initial_withCapacity (T := Nat) (B := VecBuffer Nat)
    (show (Queue.withCapacity 1).isSome = true by decide +kernel)
  have hclosed := close_ends_stream hinitial hrun
  refine ⟨_, _, _, hinitial, hrun, by decide +kernel, by decide +kernel, hclosed.1, ?_⟩
  refine hclosed.2.2.1 1 ?_
  have hpc : ∀ pc : Pc Nat (List Nat), pc = .idle (some (.dequeueError .closed)) →
      pc.ReportsClosed := by
    rintro pc rfl
    exact trivial
  exact hpc _ (by decide +kernel)

end Stream

end SwapBufferQueue
