/-
Insertions that do not come to their end.  `insert_into` runs the caller's code between
the reservation of the room and its acknowledgment: an iterator may yield fewer elements
than its `len` has promised, and `next` or a writer of bytes may panic.  The call unwinds,
the room stays reserved and is never acknowledged.  The closure of `try_dequeue_and_resize`
runs it with the lock taken, and then keeps the lock.  Here the machine may abort any
insertion, with whatever was written until then left in its room.
-/
import SwapBufferQueue.BatchIdentity
import SwapBufferQueue.ClosedResize

namespace SwapBufferQueue

universe u v w x

open Tiling

/-- A step of the queue, or the panic of an insertion that has written some elements. -/
inductive AbortAction (α : Type v) where
  | queue (action : Action α)
  | abort (written : List α)
deriving Repr, DecidableEq

inductive AbortEvent (α : Type v) where
  | shown (event : Event α)
  | aborted
deriving Repr, DecidableEq

/-- The queue, and the activities that have unwound out of their insertion. -/
structure AbortState (T : Type x) (B : Type u) (α : Type v) (σ : Type w) where
  base : State T B α σ
  aborted : T → Bool

variable {T : Type x} {B : Type u} {α : Type v} {σ : Type w}

section Steps

variable [DecidableEq T] [Buffer B α σ]

/-- The value that the loop of `try_dequeue_and_resize` inserts next, if it inserts one. -/
def stagedNext (b : B) : List (List α) → List α
  | [] => []
  | value :: _ => if Buffer.capacity b < value.length then [] else value

/-- An insertion of `t` unwinds: what it has written stays, and nothing else happens. -/
def AbortState.unwind (s : AbortState T B α σ) (t : T) (i : Fin 2) (index : Nat)
    (written : List α) : Option (AbortState T B α σ × AbortEvent α) :=
  match Buffer.insertInto (s.base.queue.buffers i) index written with
  | none => none
  | some b => some (⟨⟨s.base.queue.setBuffer i b, s.base.pcs⟩,
      Function.update s.aborted t true⟩, .aborted)

/-- The insertion of a call of `try_enqueue`, or of the closure of
`try_dequeue_and_resize`. -/
def AbortState.abort (s : AbortState T B α σ) (t : T) (written : List α) :
    Option (AbortState T B α σ × AbortEvent α) :=
  match s.base.pcs t with
  | .enqueueInsert value enqueuing =>
      let i := enqueuing.bufferIndex
      let b := s.base.queue.buffers i
      if enqueuing.remainingCapacity ≤ Buffer.capacity b ∧ written.length ≤ value.length then
        s.unwind t i (Buffer.capacity b - enqueuing.remainingCapacity) written
      else none
  | .dequeueInsert dequeuing _ values length =>
      let i := dequeuing.bufferIndex
      let b := s.base.queue.buffers i
      if length + written.length ≤ Buffer.capacity b ∧
          written.length ≤ (stagedNext b values).length then
        s.unwind t i length written
      else none
  | _ => none

/-- One step.  An activity that has unwound makes no more of them. -/
def abortStep (s : AbortState T B α σ) (label : T × AbortAction α) :
    Option (AbortState T B α σ × AbortEvent α) :=
  if s.aborted label.1 then none
  else
    match label.2 with
    | .queue action =>
        match step s.base (label.1, action) with
        | none => none
        | some (base, event) => some ({ s with base := base }, .shown event)
    | .abort written => s.abort label.1 written

end Steps

/-- The values have sizes that can be reserved. -/
def AbortOk (s : AbortState T B α σ) (label : T × AbortAction α) : Prop :=
  match label.2 with
  | .queue action => SizeOk s.base (label.1, action)
  | .abort _ => True

instance instDecidableAbortOk (s : AbortState T B α σ) (label : T × AbortAction α) :
    Decidable (AbortOk s label) :=
  match label with
  | (t, .queue action) => inferInstanceAs (Decidable (SizeOk s.base (t, action)))
  | (_, .abort _) => isTrue trivial

def abortTrace (trace : List ((T × AbortAction α) × AbortEvent α)) :
    List ((T × Action α) × Event α) :=
  trace.filterMap fun entry =>
    match entry.1.2, entry.2 with
    | .queue action, .shown event => some ((entry.1.1, action), event)
    | _, _ => none

theorem abortTrace_append (first second : List ((T × AbortAction α) × AbortEvent α)) :
    abortTrace (first ++ second) = abortTrace first ++ abortTrace second :=
  List.filterMap_append

inductive AbortMove [DecidableEq T] [Buffer B α σ] (s : AbortState T B α σ) (t : T) :
    AbortAction α → AbortState T B α σ → AbortEvent α → Prop
  | queue {action : Action α} {q' : Queue B} {pc' : Pc α σ} {event : Event α}
      (hmove : Transition s.base.queue (s.base.pcs t) action q' pc' event)
      (hstep : step s.base (t, action) =
        some (⟨q', Function.update s.base.pcs t pc'⟩, event)) :
      AbortMove s t (.queue action)
        ⟨⟨q', Function.update s.base.pcs t pc'⟩, s.aborted⟩ (.shown event)
  | abort {value written : List α} {enqueuing : EnqueuingCapacity} {b : B}
      (hpc : s.base.pcs t = .enqueueInsert value enqueuing)
      (hlength : written.length ≤ value.length)
      (hinsert : Buffer.insertInto (s.base.queue.buffers enqueuing.bufferIndex)
        (Buffer.capacity (s.base.queue.buffers enqueuing.bufferIndex) -
          enqueuing.remainingCapacity) written = some b) :
      AbortMove s t (.abort written)
        ⟨⟨s.base.queue.setBuffer enqueuing.bufferIndex b, s.base.pcs⟩,
          Function.update s.aborted t true⟩ .aborted
  | abortStaged {dequeuing : DequeuingLength} {resized : Bool} {values : List (List α)}
      {length : Nat} {written : List α} {b : B}
      (hpc : s.base.pcs t = .dequeueInsert dequeuing resized values length)
      (hroom : length + written.length ≤
        Buffer.capacity (s.base.queue.buffers dequeuing.bufferIndex))
      (hinsert : Buffer.insertInto (s.base.queue.buffers dequeuing.bufferIndex) length
        written = some b) :
      AbortMove s t (.abort written)
        ⟨⟨s.base.queue.setBuffer dequeuing.bufferIndex b, s.base.pcs⟩,
          Function.update s.aborted t true⟩ .aborted

section Cases

variable [DecidableEq T] [Buffer B α σ] {s s' : AbortState T B α σ} {t : T}
  {action : AbortAction α} {event : AbortEvent α}

theorem AbortState.unwind_cases {i : Fin 2} {index : Nat} {written : List α}
    (hstep : s.unwind t i index written = some (s', event)) :
    ∃ b, Buffer.insertInto (s.base.queue.buffers i) index written = some b ∧
      s' = ⟨⟨s.base.queue.setBuffer i b, s.base.pcs⟩, Function.update s.aborted t true⟩ ∧
      event = .aborted := by
  unfold AbortState.unwind at hstep
  split at hstep
  · cases hstep
  · rename_i b hinsert
    cases hstep
    exact ⟨b, hinsert, rfl, rfl⟩

theorem abortStep_cases (hstep : abortStep s (t, action) = some (s', event)) :
    s.aborted t = false ∧ AbortMove s t action s' event := by
  unfold abortStep at hstep
  split at hstep
  · cases hstep
  · rename_i hrunning
    refine ⟨Bool.eq_false_iff.mpr hrunning, ?_⟩
    cases action with
    | queue action =>
        simp only at hstep
        split at hstep
        · cases hstep
        · rename_i base shown hbase
          cases hstep
          obtain ⟨q', pc', hmove, rfl⟩ := step_cases hbase
          exact .queue hmove hbase
    | abort written =>
        simp only [AbortState.abort] at hstep
        split at hstep
        · rename_i value enqueuing hpc
          split at hstep
          · rename_i hguard
            obtain ⟨b, hinsert, rfl, rfl⟩ := AbortState.unwind_cases hstep
            exact .abort hpc hguard.2 hinsert
          · cases hstep
        · rename_i dequeuing resized values length hpc
          split at hstep
          · rename_i hguard
            obtain ⟨b, hinsert, rfl, rfl⟩ := AbortState.unwind_cases hstep
            exact .abortStaged hpc hguard.1 hinsert
          · cases hstep
        · cases hstep

end Cases

section Sim

variable [DecidableEq T] [Buffer B α σ] [LawfulBuffer B] {s : State T B α σ}
  {g : Ledger T α} {t : T}

/-- An aborted insertion writes inside its own tile, which stays unwritten. -/
theorem Sim.abort (hsim : Sim s g) {value written : List α} {enqueuing : EnqueuingCapacity}
    {b : B} (hpc : s.pcs t = .enqueueInsert value enqueuing)
    (hlength : written.length ≤ value.length)
    (hinsert : Buffer.insertInto (s.queue.buffers enqueuing.bufferIndex)
      (Buffer.capacity (s.queue.buffers enqueuing.bufferIndex) -
        enqueuing.remainingCapacity) written = some b) :
    Sim (⟨s.queue.setBuffer enqueuing.bufferIndex b, s.pcs⟩ : State T B α σ) g := by
  have hflight : InFlight s.queue g enqueuing ⟨.reserved t, value⟩ := by
    have hthread := hsim.thread t
    rwa [hpc] at hthread
  have hremaining := hflight.remaining_le
  have hfits : value.length ≤ enqueuing.remainingCapacity := hflight.fits
  have hbound : Buffer.capacity (s.queue.buffers enqueuing.bufferIndex) -
      enqueuing.remainingCapacity + written.length ≤
        Buffer.capacity (s.queue.buffers enqueuing.bufferIndex) := by omega
  have hcapacity := Queue.capacity_setBuffer (q := s.queue)
    (LawfulBuffer.capacity_insertInto hinsert)
  have hquiet : Quiet s.queue g (s.queue.setBuffer enqueuing.bufferIndex b) g :=
    ⟨rfl, rfl, hcapacity, fun _ => rfl, fun _ _ h => h, id⟩
  have hafter : Sim (⟨s.queue.setBuffer enqueuing.bufferIndex b,
      Function.update s.pcs t (s.pcs t)⟩ : State T B α σ) g := by
    refine hsim.step_of ?_ ?_ ?_ ?_ (.free (by rw [hpc]; rfl) (by rw [hpc]; rfl) rfl hquiet)
    · refine ⟨hsim.shared.enqueuing, hsim.shared.closed, ?_, ?_, hsim.shared.visible,
        hsim.shared.nonempty, hsim.shared.length, ?_, hsim.shared.order⟩
      · intro i
        rw [hcapacity]
        exact hsim.shared.capacity_lt i
      · rw [hcapacity]
        exact hsim.shared.extent_add
      · intro i position tile hat hwritten hextent k hk hlower
        rw [hcapacity] at hextent
        have hcell := hsim.shared.cells hat hwritten hextent k hk hlower
        rw [Queue.buffers_setBuffer]
        split
        · rename_i hi
          subst hi
          rw [cell_insertInto_of_not_mem hbound hinsert, hcell]
          rintro ⟨hle, hlt⟩
          rcases hat.separate hflight.at_index with ⟨-, heq⟩ | hsep | hsep
          · rw [heq] at hwritten
            cases hwritten
          · omega
          · simp only at hsep
            omega
        · exact hcell
    · exact (hsim.thread t).quiet hquiet hsim.shared.nonempty fun _ hother =>
        hother.keep (hcapacity _) id
    · exact fun _ _ _ _ _ => ⟨Iff.rfl, fun _ => hcapacity _⟩
    · exact fun hat hown => (hsim.owned hat hown).keep (hcapacity _)
  rwa [Function.update_eq_self] at hafter

/-- An aborted insertion of the holder writes behind what it has staged. -/
theorem Sim.abortStaged (hsim : Sim s g) {dequeuing : DequeuingLength} {resized : Bool}
    {values : List (List α)} {length : Nat} {written : List α} {b : B}
    (hpc : s.pcs t = .dequeueInsert dequeuing resized values length)
    (hroom : length + written.length ≤ Buffer.capacity (s.queue.buffers dequeuing.bufferIndex))
    (hinsert : Buffer.insertInto (s.queue.buffers dequeuing.bufferIndex) length written =
      some b) :
    Sim (⟨s.queue.setBuffer dequeuing.bufferIndex b, s.pcs⟩ : State T B α σ) g := by
  have hhidden : Hidden s.queue g dequeuing .staged length := by
    have hthread := hsim.thread t
    rwa [hpc] at hthread
  have hholds : (s.pcs t).holds = true := by
    rw [hpc]
    rfl
  have hcapacity := Queue.capacity_setBuffer (q := s.queue)
    (LawfulBuffer.capacity_insertInto hinsert)
  have hafter : Sim (⟨s.queue.setBuffer dequeuing.bufferIndex b,
      Function.update s.pcs t (s.pcs t)⟩ : State T B α σ) g := by
    refine hsim.held_step hholds hholds ?_ ?_ rfl (fun _ => Iff.rfl) fun _ _ => hcapacity _
    · refine ⟨hsim.shared.enqueuing, hsim.shared.closed, ?_, ?_, hsim.shared.visible,
        hsim.shared.nonempty, hsim.shared.length, ?_, hsim.shared.order⟩
      · intro i
        rw [hcapacity]
        exact hsim.shared.capacity_lt i
      · rw [hcapacity]
        exact hsim.shared.extent_add
      · intro i position tile hat hwritten hextent k hk hlower
        rw [hcapacity] at hextent
        have hcell := hsim.shared.cells hat hwritten hextent k hk hlower
        rw [Queue.buffers_setBuffer]
        split
        · rename_i hi
          subst hi
          have hend := hat.le_extent
          rw [hhidden.length_eq] at hend
          rw [cell_insertInto_of_not_mem hroom hinsert (by omega), hcell]
        · exact hcell
    · rw [hpc]
      exact ⟨hhidden.other, hhidden.vacant, hhidden.taken, hhidden.tags, hhidden.length_eq⟩
  rwa [Function.update_eq_self] at hafter

end Sim

section Blocked

variable [Buffer B α σ] [LawfulBuffer B] {s : State T B α σ} {g : Ledger T α} {t : T}
  {value : List α} {enqueuing : EnqueuingCapacity}

theorem Sim.exists_unacknowledged (hsim : Sim s g)
    (hflight : (s.pcs t).inFlight = some (value, enqueuing)) :
    ∃ tile ∈ g.tiles enqueuing.bufferIndex, tile.tag.owner = some t := by
  have hthread := hsim.thread t
  generalize s.pcs t = pc at hflight hthread
  cases pc with
  | enqueueInsert _ _ =>
      cases hflight
      exact ⟨_, hthread.at_index.mem, rfl⟩
  | enqueueAcknowledge _ _ =>
      cases hflight
      exact ⟨_, hthread.at_index.mem, rfl⟩
  | _ => cases hflight

/-- A buffer with a reservation in flight is not a range that is being consumed. -/
theorem Sim.not_range_of_inFlight (hsim : Sim s g)
    (hflight : (s.pcs t).inFlight = some (value, enqueuing))
    (hother : enqueuing.bufferIndex ≠ g.enqueuing) {i : Fin 2} {start stop : Nat} :
    ¬ Range s.queue g i start stop := by
  intro hrange
  obtain ⟨tile, hmem, hown⟩ := hsim.exists_unacknowledged hflight
  rw [eq_other_of_ne hother, ← eq_other_of_ne hrange.other] at hmem
  rw [hrange.settled tile hmem] at hown
  cases hown

/-- What the queue can deliver past a reservation that stays in flight: it waits behind the
batch, or it is in the batch and nothing of that is delivered. -/
def Blocked (bound : List α) (enqueuing : EnqueuingCapacity) (g : Ledger T α) : Prop :=
  (enqueuing.bufferIndex = g.enqueuing ∧ g.consumed ++ g.batch = bound) ∨
    (enqueuing.bufferIndex ≠ g.enqueuing ∧ g.consumed = bound)

omit [Buffer B α σ] [LawfulBuffer B] in
theorem Blocked.consumed_prefix {bound : List α} (hblocked : Blocked bound enqueuing g) :
    g.consumed <+: bound := by
  rcases hblocked with ⟨-, rfl⟩ | ⟨-, rfl⟩
  · exact List.prefix_append _ _
  · exact List.prefix_rfl

variable [DecidableEq T]

/-- A step of another activity leaves the batch of the reservation alone. -/
theorem Blocked.step {bound : List α} (hblocked : Blocked bound enqueuing g)
    (hsim : Sim s g) (hflight : (s.pcs t).inFlight = some (value, enqueuing)) {t' : T}
    {action : Action α} {q' : Queue B} {pc' : Pc α σ} {event : Event α}
    (hmove : Transition s.queue (s.pcs t') action q' pc' event)
    (hshared' : Shared q' (g.next t' event)) : Blocked bound enqueuing (g.next t' event) := by
  have hbatch := hsim.batchMove hmove hshared'
  have hthread := hsim.thread t'
  have hunread : ∀ {i start stop}, enqueuing.bufferIndex ≠ g.enqueuing →
      ¬ Range s.queue g i start stop := fun hother => hsim.not_range_of_inFlight hflight hother
  obtain ⟨tile, hmem, hown⟩ := hsim.exists_unacknowledged hflight
  generalize s.pcs t' = pc at hmove hthread
  cases hmove with
  | swap attempt capacity nextEnqueuing =>
      have hswap : Swapping s.queue g attempt capacity nextEnqueuing _ := hthread
      rcases hblocked with ⟨hindex, hbound⟩ | ⟨hother, hbound⟩
      · refine Or.inr ⟨?_, ?_⟩
        · rw [hindex]
          exact hswap.hidden.other.symm
        · rw [hswap.hidden.batch_eq_nil rfl, List.append_nil] at hbound
          exact hbound
      · rw [eq_other_of_ne hother, ← eq_other_of_ne hswap.hidden.other] at hmem
        rw [hswap.hidden.tags tile hmem] at hown
        cases hown
  | remove i start stop value b hlt hremove =>
      rcases hblocked with ⟨hindex, hbound⟩ | ⟨hother, -⟩
      · cases hbatch with
        | keeps _ hconsume _ _ _ => exact absurd rfl (hconsume i [value])
        | consumes _ _ hfront _ _ =>
            refine Or.inl ⟨hindex, ?_⟩
            rw [← hbound, hfront, ← List.append_assoc]
            rfl
      · exact absurd hthread (hunread hother)
  | clear i start stop _ values b hclear =>
      rcases hblocked with ⟨hindex, hbound⟩ | ⟨hother, -⟩
      · cases hbatch with
        | keeps _ hconsume _ _ _ => exact absurd rfl (hconsume i values)
        | consumes _ _ hfront _ _ =>
            refine Or.inl ⟨hindex, ?_⟩
            rw [← hbound, hfront, ← List.append_assoc]
            rfl
      · exact absurd hthread (hunread hother)
  | release i _ =>
      rcases hblocked with ⟨hindex, hbound⟩ | ⟨hother, -⟩
      · cases hbatch with
        | keeps _ _ hsame _ _ => exact Or.inl ⟨hindex, by rw [hsame]; exact hbound⟩
        | releases _ hnil hnil' =>
            refine Or.inl ⟨hindex, ?_⟩
            rw [hnil', ← hbound, hnil]
            rfl
      · exact absurd hthread (hunread hother)
  | _ =>
      cases hbatch with
      | keeps _ _ hsame _ _ =>
          refine hblocked.imp (fun ⟨hindex, hbound⟩ => ⟨hindex, ?_⟩) id
          rw [hsame]
          exact hbound

/-- A dequeue that comes to a reservation that stays in flight reports it as pending. -/
theorem Sim.pending_alone (hsim : Sim s g)
    (hflight : (s.pcs t).inFlight = some (value, enqueuing))
    (hnext : enqueuing.bufferIndex = g.enqueuing → g.batch = [])
    (hfree : ∀ t', (s.pcs t').holds = false) {t' : T} {last : Option (Outcome α)}
    (hidle : s.pcs t' = .idle last) :
    ReturnsAlone s t' .tryDequeue (.dequeueError .pending) := by
  have hopen := hsim.unlocked_of_free hfree
  have hstored := hsim.stored hopen
  have hadd := hstored.batch.length_add
  obtain ⟨tile, hmem, hown⟩ := hsim.exists_unacknowledged hflight
  have hunacknowledged : Unacknowledged s enqueuing.bufferIndex :=
    ⟨t, value, enqueuing, hflight, rfl⟩
  have hpos : extent (g.tiles enqueuing.bufferIndex) ≠ 0 := by
    intro hzero
    rw [hsim.shared.tiles_eq_nil hzero] at hmem
    cases hmem
  obtain ⟨length, hconcerned⟩ :
      ∃ length, s.queue.concerned = some (enqueuing.bufferIndex, length) := by
    by_cases hindex : enqueuing.bufferIndex = g.enqueuing
    · -- The batch is gone, and the enqueuing buffer is next.
      have hvacant : (DequeuingLength.mk s.queue.dequeuingLength).bufferLen = 0 := by
        rw [← hstored.batch.length_batch, hnext hindex]
        rfl
      have hextent := hsim.shared.extent_add
      rw [← hindex] at hextent
      have hword := hindex.trans hsim.shared.enqueuing
      refine ⟨Buffer.capacity (s.queue.buffers enqueuing.bufferIndex) -
        s.queue.enqueuingCapacity.remainingCapacity, ?_⟩
      rw [Queue.concerned, if_neg (not_not.mpr hvacant), ← hword, if_pos (by omega)]
    · -- The reservation is in the batch, of which nothing was taken.
      have hsame : (DequeuingLength.mk s.queue.dequeuingLength).bufferIndex =
          enqueuing.bufferIndex := by
        rw [eq_other_of_ne hstored.batch.other, eq_other_of_ne hindex]
      have htaken : g.taken = 0 := by
        rcases hstored.batch.settled with htaken | hsettled
        · exact htaken
        · rw [hsame] at hsettled
          rw [hsettled tile hmem] at hown
          cases hown
      rw [hsame, htaken] at hadd
      refine ⟨(DequeuingLength.mk s.queue.dequeuingLength).bufferLen, ?_⟩
      rw [Queue.concerned, if_pos (by omega), hsame]
  obtain ⟨called, hcall, -, -, hreturns, hspec⟩ := hsim.tryDequeue_alone hidle
  refine ⟨called, hcall, hreturns, fun trace s' hrun hreturned => ?_⟩
  exact ((hspec trace s' hrun hreturned).2.pending _ length hfree hconcerned
    hunacknowledged).1

end Blocked

section Runs

variable [DecidableEq T] [Buffer B α σ] [LawfulBuffer B]
  {start m m' s : AbortState T B α σ} {t : T}
  {before after trace : List ((T × AbortAction α) × AbortEvent α)}

omit [DecidableEq T] [Buffer B α σ] [LawfulBuffer B] in
theorem abortTrace_queue (action : Action α) (event : Event α) :
    abortTrace (trace ++ [((t, .queue action), .shown event)]) =
      abortTrace trace ++ [((t, action), event)] := by
  rw [abortTrace_append]
  rfl

omit [DecidableEq T] [Buffer B α σ] [LawfulBuffer B] in
theorem abortTrace_abort (written : List α) :
    abortTrace (trace ++ [((t, .abort written), .aborted)]) = abortTrace trace := by
  rw [abortTrace_append]
  exact List.append_nil _

theorem sim_of_abortRun (hinitial : Initial start.base)
    (hrun : Runs.Run abortStep AbortOk start trace s) :
    Sim s.base (Ledger.ofTrace (abortTrace trace)) ∧
      (Ledger.ofTrace (abortTrace trace)).view = View.ofTrace (abortTrace trace) := by
  refine hrun.invariant (fun trace (s : AbortState T B α σ) =>
    Sim s.base (Ledger.ofTrace (abortTrace trace)) ∧
      (Ledger.ofTrace (abortTrace trace)).view = View.ofTrace (abortTrace trace))
    ⟨Sim.of_initial hinitial, rfl⟩ ?_
  rintro trace s s' ⟨t, action⟩ event _ ⟨hsim, hview⟩ hok hstep
  obtain ⟨-, hmove⟩ := abortStep_cases hstep
  cases hmove with
  | queue hmove hbase =>
      rw [abortTrace_queue, Ledger.ofTrace_append_singleton, View.ofTrace_append_singleton,
        ← hview]
      exact ⟨hsim.step hok hbase, hsim.view_step hmove⟩
  | abort hpc hlength hinsert =>
      rw [abortTrace_abort]
      exact ⟨hsim.abort hpc hlength hinsert, hview⟩
  | abortStaged hpc hroom hinsert =>
      rw [abortTrace_abort]
      exact ⟨hsim.abortStaged hpc hroom hinsert, hview⟩

theorem blocked_of_abortRun (hinitial : Initial start.base)
    (hbefore : Runs.Run abortStep AbortOk start before m) {value : List α}
    {enqueuing : EnqueuingCapacity} (haborted : m.aborted t = true)
    (hflight : (m.base.pcs t).inFlight = some (value, enqueuing)) {bound : List α}
    (hblocked : Blocked bound enqueuing (Ledger.ofTrace (abortTrace before)))
    (hafter : Runs.Run abortStep AbortOk m after s) :
    s.aborted t = true ∧ (s.base.pcs t).inFlight = some (value, enqueuing) ∧
      Blocked bound enqueuing (Ledger.ofTrace (abortTrace (before ++ after))) := by
  refine hafter.invariant (fun after (s : AbortState T B α σ) => s.aborted t = true ∧
    (s.base.pcs t).inFlight = some (value, enqueuing) ∧
      Blocked bound enqueuing (Ledger.ofTrace (abortTrace (before ++ after))))
    ⟨haborted, hflight, by rw [List.append_nil]; exact hblocked⟩ ?_
  rintro after s s' ⟨t', action⟩ event hsofar ⟨haborted, hflight, hblocked⟩ hok hstep
  obtain ⟨hsim, -⟩ := sim_of_abortRun hinitial (hbefore.append hsofar)
  obtain ⟨hrunning, hmove⟩ := abortStep_cases hstep
  have ht' : t ≠ t' := by
    rintro rfl
    rw [haborted] at hrunning
    cases hrunning
  rw [← List.append_assoc]
  have hstays : Function.update s.aborted t' true t = true := by
    rw [Function.update_of_ne ht']
    exact haborted
  cases hmove with
  | queue hmove hbase =>
      rw [abortTrace_queue, Ledger.ofTrace_append_singleton]
      refine ⟨haborted, ?_, ?_⟩
      · change (Function.update s.base.pcs t' _ t).inFlight = _
        rw [Function.update_of_ne ht']
        exact hflight
      · exact hblocked.step hsim hflight hmove (hsim.step hok hbase).shared
  | abort _ _ _ =>
      rw [abortTrace_abort]
      exact ⟨hstays, hflight, hblocked⟩
  | abortStaged _ _ _ =>
      rw [abortTrace_abort]
      exact ⟨hstays, hflight, hblocked⟩

/-- What is delivered at most past a reservation that stays in flight: the batch in front of
it, and nothing when it is in the batch itself. -/
def deliverable (q : Queue B) (trace : List ((T × Action α) × Event α))
    (enqueuing : EnqueuingCapacity) : List α :=
  consumedElements trace ++
    if enqueuing.bufferIndex = q.enqueuingCapacity.bufferIndex then (View.ofTrace trace).batch
    else []

theorem Sim.blocked_deliverable {s : State T B α σ}
    {trace : List ((T × Action α) × Event α)} (hsim : Sim s (Ledger.ofTrace trace))
    (hview : (Ledger.ofTrace trace).view = View.ofTrace trace) (enqueuing : EnqueuingCapacity) :
    Blocked (deliverable s.queue trace enqueuing) enqueuing (Ledger.ofTrace trace) := by
  have hindex := hsim.shared.enqueuing
  have hbatch : (View.ofTrace trace).batch = (Ledger.ofTrace trace).batch := by
    rw [← hview]
    rfl
  by_cases hsame : enqueuing.bufferIndex = s.queue.enqueuingCapacity.bufferIndex
  · refine Or.inl ⟨hsame.trans hindex.symm, ?_⟩
    rw [deliverable, if_pos hsame, hbatch, Ledger.consumed_ofTrace]
  · refine Or.inr ⟨fun h => hsame (h.trans hindex), ?_⟩
    rw [deliverable, if_neg hsame, List.append_nil, Ledger.consumed_ofTrace]

/-- An insertion of `try_enqueue` that unwinds does no harm beyond its own batch.  Whatever
it has written, whatever else aborts, and whatever runs afterwards: every element is still
delivered at most once and in order, no check fails but those of a caller's own arguments,
and of all that was enqueued only the batch in front of the abandoned room is still
delivered.  Once that is done and nobody has the lock, every dequeue returns `Pending`. -/
theorem aborted_insertion_contained (hinitial : Initial start.base)
    (hbefore : Runs.Run abortStep AbortOk start before m) {value written : List α}
    {enqueuing : EnqueuingCapacity} (hpc : m.base.pcs t = .enqueueInsert value enqueuing)
    (habort : abortStep m (t, .abort written) = some (m', .aborted))
    (hafter : Runs.Run abortStep AbortOk m' after s) {trace : List ((T × Action α) × Event α)}
    (htrace : trace = abortTrace (before ++ ((t, .abort written), .aborted) :: after)) :
    (consumedElements trace ++ (View.ofTrace trace).batch ++ (View.ofTrace trace).tail =
      (Ledger.ofTrace trace).accepted.flatten) ∧
    (∀ t' panic, s.base.pcs t' = .panicked panic → panic.fromArguments = true) ∧
    consumedElements trace <+: deliverable m.base.queue (abortTrace before) enqueuing ∧
    (consumedElements trace = deliverable m.base.queue (abortTrace before) enqueuing →
      (∀ t', (s.base.pcs t').holds = false) → ∀ t' last, s.base.pcs t' = .idle last →
        ReturnsAlone s.base t' .tryDequeue (.dequeueError .pending)) := by
  have hcalled := hbefore.snoc (show AbortOk m (t, .abort written) from trivial) habort
  rw [List.append_cons] at htrace
  obtain ⟨hsim, hview⟩ := sim_of_abortRun hinitial (hcalled.append hafter)
  obtain ⟨hsim₀, hview₀⟩ := sim_of_abortRun hinitial hbefore
  obtain ⟨-, hmove⟩ := abortStep_cases habort
  cases hmove with
  | abortStaged hstaged _ _ =>
      rw [hpc] at hstaged
      cases hstaged
  | abort hpc' hlength hinsert =>
      have hblocked := hsim₀.blocked_deliverable hview₀ enqueuing
      rw [← abortTrace_abort (t := t) written] at hblocked
      obtain ⟨-, hflight, hblocked⟩ := blocked_of_abortRun hinitial hcalled
        (Function.update_self ..) (by rw [hpc]; rfl) hblocked hafter
      rw [← htrace, abortTrace_abort] at hblocked
      rw [← htrace] at hsim hview
      have hconsumed := Ledger.consumed_ofTrace trace
      refine ⟨?_, ?_, ?_, ?_⟩
      · rw [← hsim.shared.order, ← hview, ← hconsumed]
        rfl
      · intro t' panic hpanicked
        have hthread := hsim.thread t'
        rw [hpanicked] at hthread
        exact hthread.cause
      · rw [← hconsumed]
        exact hblocked.consumed_prefix
      · intro hall hfree t' last hidle
        refine hsim.pending_alone hflight (fun hsame => ?_) hfree hidle
        rcases hblocked with ⟨-, hbound⟩ | ⟨hother, -⟩
        · rw [hconsumed, ← hall] at hbound
          exact List.append_right_eq_self.mp hbound
        · exact absurd hsame hother

end Runs

/-- An iterator ends before its first element; the element behind it is never delivered. -/
theorem aborted_insertion_contained_exhausted :
    ∃ (start m m' s : AbortState Bool (VecBuffer Nat) Nat (List Nat)) (before after : _),
      Initial start.base ∧ Runs.Run abortStep AbortOk start before m ∧
      abortStep m (true, .abort []) = some (m', .aborted) ∧
      Runs.Run abortStep AbortOk m' after s ∧
      ((false, .run false), .acknowledged ⟨0, Nat.zero_lt_two⟩ [8]) ∈ abortTrace after ∧
      ReturnsAlone s.base false .tryDequeue (.dequeueError .pending) := by
  have hinitial := initial_withCapacity (T := Bool) (B := VecBuffer Nat)
    (show (Queue.withCapacity 2).isSome = true by decide +kernel)
  have hbefore := Runs.run_of_isSome abortStep AbortOk
    (⟨State.ofQueue ((Queue.withCapacity 2).get (by decide +kernel)), fun _ => false⟩ :
      AbortState Bool (VecBuffer Nat) Nat (List Nat))
    [(true, .queue (.tryEnqueue [7])), (true, .queue (.run false)),
      (true, .queue (.run false))] (by decide +kernel) (by decide +kernel)
  obtain ⟨before, m, hbefore, hnothing, hbatch, hunlocked, m', habort, after, s, hafter,
      hconsumed, hback, hidle, hfree⟩ :
      ∃ before m, Runs.Run abortStep AbortOk _ before m ∧
        consumedElements (abortTrace before) = [] ∧ (View.ofTrace (abortTrace before)).batch = [] ∧
        (m.base.pcs true).holds = false ∧
        ∃ m', abortStep m (true, .abort []) = some (m', .aborted) ∧
        ∃ after s, Runs.Run abortStep AbortOk m' after s ∧
          consumedElements (abortTrace (before ++ ((true, .abort []), .aborted) :: after)) = [] ∧
          ((false, .run false), .acknowledged ⟨0, Nat.zero_lt_two⟩ [8]) ∈ abortTrace after ∧
          s.base.pcs false = .idle (some .enqueued) ∧ ∀ t, (s.base.pcs t).holds = false :=
    ⟨_, _, hbefore, by decide +kernel, by decide +kernel, by decide +kernel, _, rfl, _, _,
      Runs.run_of_isSome abortStep AbortOk _
        ((false, .queue (.tryEnqueue [8])) :: List.replicate 4 (false, .queue (.run false)))
        (by decide +kernel) (by decide +kernel), by decide +kernel, by decide +kernel,
      by decide +kernel, by decide +kernel⟩
  obtain ⟨-, hmove⟩ := abortStep_cases habort
  cases hmove with
  | abortStaged hstaged _ _ =>
      rw [hstaged] at hunlocked
      cases hunlocked
  | abort hpc _ _ =>
      obtain ⟨-, -, -, hpending⟩ :=
        aborted_insertion_contained hinitial hbefore hpc habort hafter rfl
      refine ⟨_, m, _, s, before, after, hinitial, hbefore, habort, hafter, hback,
        hpending ?_ hfree false _ hidle⟩
      rw [hconsumed, deliverable, hnothing, hbatch, ite_self, List.append_nil]

end SwapBufferQueue
