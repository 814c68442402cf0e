/-
No element is lost inside the queue.  Every element that was written into a cell is
still in one or has been consumed, once: no cell is written over, no buffer is resized
with an element in it, and no cell is emptied twice.
-/
import SwapBufferQueue.Drop

namespace SwapBufferQueue

universe u v w x

open Tiling

variable {T : Type x} {B : Type u} {α : Type v} {σ : Type w}

/-- The elements an event writes into cells. -/
def Event.written : Event α → List α
  | .inserted _ value => value
  | .staged _ value => value
  | _ => []

/-- The elements written into cells, by enqueuers and by the insertions of dequeues. -/
def writtenElements (trace : List ((T × Action α) × Event α)) : List α :=
  trace.flatMap fun entry => entry.2.written

theorem writtenElements_append_singleton (trace : List ((T × Action α) × Event α))
    (label : T × Action α) (event : Event α) :
    writtenElements (trace ++ [(label, event)]) = writtenElements trace ++ event.written := by
  simp [writtenElements]

theorem consumedElements_append_singleton (trace : List ((T × Action α) × Event α))
    (label : T × Action α) (event : Event α) :
    consumedElements (trace ++ [(label, event)]) =
      consumedElements trace ++ event.elements := by
  rw [consumedElements_append]
  cases event <;> simp [consumedElements, Event.elements]

variable [Buffer B α σ] [LawfulBuffer B]

section Cells

variable {b b' : B} {first : Nat} {values : List α}

/-- Two buffers that differ by what one of them has in a range that is vacant in the
other. -/
structure Filled (b : B) (first : Nat) (values : List α) (b' : B) : Prop where
  capacity : Buffer.capacity b' = Buffer.capacity b
  fits : first + values.length ≤ Buffer.capacity b
  vacant (j : Nat) : first ≤ j → j < first + values.length → LawfulBuffer.cell b j = none
  holds : Holds b' first values
  same (j : Nat) : ¬ (first ≤ j ∧ j < first + values.length) →
    LawfulBuffer.cell b' j = LawfulBuffer.cell b j

theorem Filled.elementsIn_perm (hfilled : Filled b first values b') :
    (elementsIn b').Perm (values ++ elementsIn b) := by
  obtain ⟨rest, hrest⟩ := Nat.exists_eq_add_of_le hfilled.fits
  have hbefore : (List.range first).filterMap (LawfulBuffer.cell b') =
      (List.range first).filterMap (LawfulBuffer.cell b) := by
    apply List.filterMap_congr
    intro j hj
    rw [List.mem_range] at hj
    exact hfilled.same j (by omega)
  have hafter : ((List.range rest).map (first + values.length + ·)).filterMap
      (LawfulBuffer.cell b') = ((List.range rest).map (first + values.length + ·)).filterMap
        (LawfulBuffer.cell b) := by
    apply List.filterMap_congr
    intro j hj
    obtain ⟨k, -, rfl⟩ := List.mem_map.mp hj
    exact hfilled.same _ (by omega)
  have hmiddle : ((List.range values.length).map (first + ·)).filterMap
      (LawfulBuffer.cell b') = values := by
    rw [List.filterMap_map]
    calc (List.range values.length).filterMap (LawfulBuffer.cell b' ∘ (first + ·))
        = (List.range values.length).filterMap (fun k => values[k]?) := by
          apply List.filterMap_congr
          intro k hk
          exact hfilled.holds k (List.mem_range.mp hk)
      _ = values := filterMap_range_getElem? values
  have hvacant : ((List.range values.length).map (first + ·)).filterMap
      (LawfulBuffer.cell b) = [] := by
    rw [List.filterMap_eq_nil_iff]
    intro j hj
    obtain ⟨k, hk, rfl⟩ := List.mem_map.mp hj
    rw [List.mem_range] at hk
    exact hfilled.vacant _ (Nat.le_add_right _ _) (by omega)
  rw [elementsIn, elementsIn, hfilled.capacity, hrest, List.range_add, List.range_add]
  simp only [List.filterMap_append]
  rw [hbefore, hmiddle, hafter, hvacant, List.append_nil, ← List.append_assoc]
  exact List.perm_append_comm.append_right _

theorem elementsIn_eq_nil (hnone : ∀ j, LawfulBuffer.cell b j = none) :
    elementsIn b = [] := by
  rw [elementsIn, List.filterMap_eq_nil_iff]
  exact fun j _ => hnone j

theorem Queue.storedElements_perm (q : Queue B) (i : Fin 2) :
    q.storedElements.Perm (elementsIn (q.buffers i) ++ elementsIn (q.buffers (other i))) := by
  by_cases hi : i = q.enqueuingCapacity.bufferIndex
  · rw [Queue.storedElements, ← hi]
    exact List.perm_append_comm
  · rw [Queue.storedElements, ← eq_other_of_ne hi, ← eq_other_of_ne (Ne.symm hi)]

theorem Queue.storedElements_of_buffers {q q' : Queue B} (hbuffers : q'.buffers = q.buffers) :
    q.storedElements.Perm q'.storedElements := by
  have hsame := q'.storedElements_perm q.enqueuingCapacity.bufferIndex
  rw [hbuffers] at hsame
  exact (q.storedElements_perm _).trans hsame.symm

theorem Queue.storedElements_setBuffer (q : Queue B) (i : Fin 2) (b : B) :
    (q.setBuffer i b).storedElements.Perm
      (elementsIn b ++ elementsIn (q.buffers (other i))) := by
  have hperm := (q.setBuffer i b).storedElements_perm i
  rwa [Queue.buffers_setBuffer, Queue.buffers_setBuffer, if_pos rfl, if_neg (other_ne i)]
    at hperm

theorem Filled.storedElements_perm {q : Queue B} {i : Fin 2}
    (hfilled : Filled (q.buffers i) first values b) :
    (q.setBuffer i b).storedElements.Perm (values ++ q.storedElements) := by
  refine (q.storedElements_setBuffer i b).trans ?_
  refine (hfilled.elementsIn_perm.append_right _).trans ?_
  rw [List.append_assoc]
  exact (q.storedElements_perm i).symm.append_left values

theorem Filled.storedElements_perm_of_emptied {q : Queue B} {i : Fin 2}
    (hfilled : Filled b first values (q.buffers i)) :
    q.storedElements.Perm (values ++ (q.setBuffer i b).storedElements) := by
  refine (q.storedElements_perm i).trans ?_
  refine (hfilled.elementsIn_perm.append_right _).trans ?_
  rw [List.append_assoc]
  exact (q.storedElements_setBuffer i b).symm.append_left values

end Cells

section Step

variable {s : State T B α σ} {g : Ledger T α} {t : T}

theorem filled_insertInto {b b' : B} {index : Nat} {value : List α}
    (hfits : index + value.length ≤ Buffer.capacity b)
    (hvacant : ∀ j, index ≤ j → j < index + value.length → LawfulBuffer.cell b j = none)
    (hinsert : Buffer.insertInto b index value = some b') : Filled b index value b' where
  capacity := LawfulBuffer.capacity_insertInto hinsert
  fits := hfits
  vacant := hvacant
  holds := holds_insertInto hfits hinsert
  same _ hout := cell_insertInto_of_not_mem hfits hinsert hout

variable [LawfulDrain B]

/-- What is removed from a range was in it, and is in it no more. -/
theorem Range.filled_remove {q : Queue B} (hshared : Shared q g) {i : Fin 2}
    {first last : Nat} (hrange : Range q g i first last) (hlt : first < last) {value : α}
    {b : B} (hremove : Buffer.remove (q.buffers i) first = some (value, b)) :
    Filled b first [value] (q.buffers i) := by
  obtain ⟨value', hcell, -⟩ := hrange.exists_head hshared hlt
  have hfits := hrange.fits
  have hstop := hrange.stop_eq
  obtain ⟨b', hsome, hcapacity, -⟩ := LawfulBuffer.remove_spec hcell (by omega)
  cases hremove.symm.trans hsome
  have hcells := LawfulDrain.cell_remove hremove
  refine ⟨hcapacity.symm, ?_, ?_, ?_, ?_⟩
  · rw [hcapacity, List.length_singleton]
    omega
  · intro j hle hend
    rw [List.length_singleton] at hend
    rw [hcells, if_pos (by omega)]
  · intro k hk
    rw [List.length_singleton, Nat.lt_one_iff] at hk
    subst hk
    exact hcell
  · intro j hout
    rw [List.length_singleton] at hout
    rw [hcells, if_neg (by omega)]

/-- What is cleared in a range was in it, and is in it no more. -/
theorem Range.filled_clear {q : Queue B} (hshared : Shared q g) {i : Fin 2}
    {first last : Nat} (hrange : Range q g i first last) {values : List α} {b : B}
    (hclear : Buffer.clear (q.buffers i) first last = some (values, b)) :
    Filled b first values (q.buffers i) := by
  have hlast := hrange.length_drop
  have hfits : first + ((contents (g.tiles i)).drop first).length ≤
      Buffer.capacity (q.buffers i) := by
    rw [hlast, hrange.stop_eq]
    exact hrange.fits
  have hholds := hrange.holds_contents hshared
  obtain ⟨b', hsome, hcapacity⟩ := LawfulBuffer.clear_spec hholds hfits
  rw [hlast, hclear] at hsome
  cases hsome
  have hcells := LawfulDrain.cell_clear hclear
  refine ⟨hcapacity.symm, hcapacity ▸ hfits, ?_, hholds, ?_⟩
  · intro j hle hend
    rw [hcells, if_pos ⟨hle, by omega⟩]
  · intro j hout
    rw [hcells, if_neg (by omega)]

/-- A step takes what it consumes out of the cells and puts what it writes in. -/
theorem Sim.elements_step (hsim : Sim s g) (hexact : Exact s.queue g) {action : Action α}
    {q' : Queue B} {pc' : Pc α σ} {event : Event α}
    (hmove : Transition s.queue (s.pcs t) action q' pc' event) :
    (event.written ++ s.queue.storedElements).Perm
      (event.elements ++ q'.storedElements) := by
  have hthread := hsim.thread t
  generalize s.pcs t = pc at hmove hthread
  cases hmove with
  | insert value enqueuing _ b hinsert =>
      have hflight : InFlight s.queue g enqueuing ⟨.reserved t, value⟩ := hthread
      have hle := hflight.remaining_le
      have hfits : value.length ≤ enqueuing.remainingCapacity := hflight.fits
      refine (filled_insertInto (by omega) ?_ hinsert).storedElements_perm.symm
      intro j hfirst hlast
      exact hexact.cell_reserved hflight.at_index rfl hfirst hlast
  | stage dequeuing _ value _ length _ b hvalue _ hinsert =>
      have hhidden : Hidden s.queue g dequeuing .staged length := hthread
      have hfits := LawfulDrain.insertInto_fits hvalue hinsert
      refine (filled_insertInto hfits ?_ hinsert).storedElements_perm.symm
      intro j hfirst _
      apply hexact.noneOutside dequeuing.bufferIndex
      rw [hhidden.length_eq]
      omega
  | resize dequeuing _ _ _ b _ _ _ hresize =>
      have hhidden : Hidden s.queue g dequeuing .staged 0 := hthread
      have hvacant : elementsIn (s.queue.buffers dequeuing.bufferIndex) = [] := by
        apply elementsIn_eq_nil
        intro j
        apply hexact.noneOutside dequeuing.bufferIndex
        rw [hhidden.length_eq]
        omega
      have hbefore := s.queue.storedElements_perm dequeuing.bufferIndex
      have hafter := s.queue.storedElements_setBuffer dequeuing.bufferIndex b
      rw [hvacant] at hbefore
      rw [elementsIn_eq_nil (LawfulDrain.cell_resize hresize)] at hafter
      exact hbefore.trans hafter.symm
  | remove i first last value b hlt hremove =>
      have hrange : Range s.queue g i first last := hthread
      exact (hrange.filled_remove hsim.shared hlt hremove).storedElements_perm_of_emptied
  | clear i first last _ values b hclear =>
      have hrange : Range s.queue g i first last := hthread
      exact (hrange.filled_clear hsim.shared hclear).storedElements_perm_of_emptied
  | _ => exact Queue.storedElements_of_buffers rfl

variable [DecidableEq T]

/-- Nothing leaks while a queue is in use.  In every reachable state the elements written
into cells so far are those that were consumed and those that are still stored, each as
often as it was written. -/
theorem written_elements_accounted {start : State T B α σ} (hinitial : Initial start)
    {trace : List ((T × Action α) × Event α)}
    (hrun : Runs.Run SwapBufferQueue.step SizeOk start trace s) :
    (writtenElements trace).Perm (consumedElements trace ++ s.queue.storedElements) := by
  refine hrun.invariant (fun trace s => (writtenElements trace).Perm
    (consumedElements trace ++ s.queue.storedElements)) ?_ ?_
  · rw [Queue.storedElements, elementsIn_eq_nil (hinitial.cell_eq_none _),
      elementsIn_eq_nil (hinitial.cell_eq_none _)]
    exact List.Perm.nil
  · rintro trace state state' ⟨t, action⟩ event hprefix hperm - hstep
    have hsim := sim_of_run hinitial (fun _ _ h => h) hprefix
    have hexact := exact_of_run hinitial (fun _ _ h => h) hprefix
    obtain ⟨q', pc', hmove, rfl⟩ := step_cases hstep
    rw [writtenElements_append_singleton, consumedElements_append_singleton]
    have hbefore : (writtenElements trace ++ event.written).Perm
        (consumedElements trace ++ (event.written ++ state.queue.storedElements)) := by
      refine (hperm.append_right _).trans ?_
      rw [List.append_assoc]
      exact List.perm_append_comm.append_left _
    rw [List.append_assoc]
    exact hbefore.trans ((hsim.elements_step hexact hmove).append_left _)

end Step

/-- A batch is requeued after its first element was consumed, with a value behind it. -/
theorem written_elements_accounted_partial_drain :
    ∃ (start s : State Nat (VecBuffer Nat) Nat (List Nat)) (trace : _),
      Initial start ∧ Runs.Run SwapBufferQueue.step SizeOk start trace s ∧
      writtenElements trace = [7, 8, 9] ∧ consumedElements trace = [7] ∧
      s.queue.storedElements = [8, 9] ∧
      (writtenElements trace).Perm (consumedElements trace ++ s.queue.storedElements) := by
  have hinitial := initial_withCapacity (T := Nat) (B := VecBuffer Nat)
    (show (Queue.withCapacity 2).isSome = true by decide +kernel)
  obtain ⟨trace, s, hrun, hwritten, hconsumed, hstored⟩ :
      ∃ trace s, Runs.Run SwapBufferQueue.step SizeOk _ trace s ∧
        writtenElements trace = [7, 8, 9] ∧ consumedElements trace = [7] ∧
        s.queue.storedElements = [8, 9] :=
    ⟨_, _, Runs.run_of_isSome SwapBufferQueue.step SizeOk
      (State.ofQueue ((Queue.withCapacity 2).get (by decide +kernel)) :
        State Nat (VecBuffer Nat) Nat (List Nat))
      (List.flatten [[(0, .tryEnqueue [7, 8])], List.replicate 4 (0, .run false),
        [(1, .tryDequeue)], List.replicate 10 (1, .run false), [(1, .intoIter), (1, .next)],
        [(0, .tryEnqueue [9])], List.replicate 4 (0, .run false), [(1, .drop), (1, .run false)]])
      (by decide +kernel) (by decide +kernel), by decide +kernel, by decide +kernel,
      by decide +kernel⟩
  exact ⟨_, s, trace, hinitial, hrun, hwritten, hconsumed, hstored,
    written_elements_accounted hinitial hrun⟩

end SwapBufferQueue
