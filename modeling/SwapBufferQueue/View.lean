/-
The queue as four lists: what was consumed, the batch being dequeued, the values
behind it, and those staged in the hidden buffer.  Every step of the machine has the
effect of its event on these lists and no other.
-/
import SwapBufferQueue.Simulation

namespace SwapBufferQueue

universe u v w x

open Tiling

/-- What the queue holds, in the order it is delivered, and what is staged. -/
structure View (α : Type v) where
  consumed : List α
  batch : List α
  tail : List α
  staged : List α

/-- The effect of an event.  A swap makes a batch of the tail and shows what was
staged. -/
def View.next {α : Type v} (view : View α) : Event α → View α
  | .reserved _ value => { view with tail := view.tail ++ value }
  | .staged _ value => { view with staged := view.staged ++ value }
  | .swapped _ => ⟨view.consumed, view.tail, view.staged, []⟩
  | .consumed _ values =>
      { view with
        consumed := view.consumed ++ values
        batch := view.batch.drop values.length }
  | _ => view

/-- The elements an event adds to the queue. -/
def Event.added {α : Type v} : Event α → List α
  | .reserved _ value => value
  | _ => []

variable {T : Type x} {B : Type u} {α : Type v} {σ : Type w}

/-- Without the lock nothing happens to the view but reservations. -/
theorem Transition.view_of_not_holds [Buffer B α σ] {q q' : Queue B} {pc pc' : Pc α σ}
    {action : Action α} {event : Event α} (hmove : Transition q pc action q' pc' event)
    (hfree : pc.holds = false) (view : View α) :
    view.next event = { view with tail := view.tail ++ event.added } := by
  have hsame : view = { view with tail := view.tail ++ [] } := by
    rw [List.append_nil]
  cases hmove with
  | silent _ => exact hsame
  | reserve _ _ => rfl
  | insert _ _ _ _ _ => exact hsame
  | acknowledge _ _ _ => exact hsame
  | conflict _ _ _ => exact hsame
  | lock _ _ _ => exact hsame
  | close _ => exact hsame
  | reopen _ => exact hsame
  | _ => cases hfree

/-- The elements staged in the hidden buffer. -/
def Ledger.staged (g : Ledger T α) : List α :=
  contents ((g.tiles (other g.enqueuing)).filter fun tile => tile.tag.hidden)

def Ledger.view (g : Ledger T α) : View α :=
  ⟨g.consumed, g.batch, g.tail, g.staged⟩

section Ledger

variable {g : Ledger T α}

theorem Ledger.staged_eq_of_hidden {i : Fin 2} (hother : i ≠ g.enqueuing)
    (hhidden : ∀ tile ∈ g.tiles i, tile.tag.hidden = true) :
    g.staged = contents (g.tiles i) := by
  rw [staged, ← eq_other_of_ne hother, List.filter_eq_self.mpr hhidden]

theorem Ledger.staged_eq_nil_of_visible {i : Fin 2} (hother : i ≠ g.enqueuing)
    (hvisible : ∀ tile ∈ g.tiles i, tile.tag.hidden = false) : g.staged = [] := by
  rw [staged, ← eq_other_of_ne hother, List.filter_eq_nil_iff.mpr, contents_nil]
  intro tile htile
  simp [hvisible tile htile]

/-- A value laid last in a buffer, seen through a filter of the tags. -/
theorem Ledger.contents_filter_append (P : Status T → Bool) (i j : Fin 2)
    (tile : Tile (Status T) α) :
    contents (((g.setTiles i (g.tiles i ++ [tile])).tiles j).filter
        fun tile => P tile.tag) =
      contents ((g.tiles j).filter fun tile => P tile.tag) ++
        if j = i ∧ P tile.tag = true then tile.elems else [] := by
  rw [Ledger.tiles_setTiles]
  by_cases hj : j = i
  · subst hj
    rw [if_pos rfl, List.filter_append, contents_append]
    by_cases htag : P tile.tag = true
    · simp [htag]
    · simp [htag]
  · rw [if_neg hj, if_neg fun hboth => hj hboth.1, List.append_nil]

theorem Ledger.view_retag (i : Fin 2) {f : Status T → Status T}
    (hhidden : ∀ tag, (f tag).hidden = tag.hidden) :
    (g.setTiles i (Tiling.retag f (g.tiles i))).view = g.view := by
  have hstaged : (g.setTiles i (Tiling.retag f (g.tiles i))).staged = g.staged := by
    change contents (((g.setTiles i (Tiling.retag f (g.tiles i))).tiles
      (other g.enqueuing)).filter _) = _
    rw [Ledger.tiles_setTiles]
    split
    · rename_i hi
      rw [contents_filter_retag (P := fun tag : Status T => tag.hidden) hhidden, ← hi]
      rfl
    · rfl
  rw [view, view, batch_retag i hhidden, hstaged]
  change View.mk g.consumed g.batch
    (contents ((g.setTiles i (Tiling.retag f (g.tiles i))).tiles g.enqueuing)) g.staged = _
  rw [contents_retag_tiles]
  rfl

end Ledger

section Facts

variable [Buffer B α σ] {q : Queue B} {g : Ledger T α}

theorem Batch.batch_eq {i : Fin 2} {length : Nat} (hbatch : Batch q g i length) :
    g.batch = (contents (g.tiles i)).drop g.taken :=
  Ledger.batch_eq_of_visible hbatch.other hbatch.visible

theorem Batch.length_batch {i : Fin 2} {length : Nat} (hbatch : Batch q g i length) :
    g.batch.length = length := by
  have hadd := hbatch.length_add
  rw [hbatch.batch_eq, List.length_drop, ← extent]
  omega

theorem Batch.batch_ne_nil {i : Fin 2} {length : Nat} (hbatch : Batch q g i length)
    (hpos : 0 < length) : g.batch ≠ [] :=
  List.ne_nil_of_length_pos (hbatch.length_batch ▸ hpos)

theorem Range.batch_eq {i : Fin 2} {start stop : Nat} (hrange : Range q g i start stop) :
    g.batch = (contents (g.tiles i)).drop start := by
  rw [Ledger.batch_eq_of_visible hrange.other hrange.visible, hrange.start_eq]

theorem Hidden.batch_eq_nil {dequeuing : DequeuingLength} {tag : Status T}
    {length : Nat} (hhidden : Hidden q g dequeuing tag length)
    (htag : tag.hidden = true) : g.batch = [] := by
  apply Ledger.batch_eq_nil_of_hidden hhidden.other
  intro tile htile
  rw [hhidden.tags tile htile, htag]

theorem Hidden.staged_eq {dequeuing : DequeuingLength} {tag : Status T} {length : Nat}
    (hhidden : Hidden q g dequeuing tag length) (htag : tag.hidden = true) :
    g.staged = contents (g.tiles dequeuing.bufferIndex) := by
  apply Ledger.staged_eq_of_hidden hhidden.other
  intro tile htile
  rw [hhidden.tags tile htile, htag]

theorem Hidden.length_staged {dequeuing : DequeuingLength} {tag : Status T}
    {length : Nat} (hhidden : Hidden q g dequeuing tag length)
    (htag : tag.hidden = true) : g.staged.length = length := by
  rw [hhidden.staged_eq htag, ← extent, hhidden.length_eq]

theorem Swapped.batch_eq {attempt : Attempt} {capacity : Nat}
    {enqueuing : EnqueuingCapacity} (hswapped : Swapped q g attempt capacity enqueuing) :
    g.batch = contents (g.tiles enqueuing.bufferIndex) := by
  rw [Ledger.batch_eq_of_visible hswapped.other hswapped.visible, hswapped.taken,
    List.drop_zero]

theorem Swapped.length_batch {attempt : Attempt} {capacity : Nat}
    {enqueuing : EnqueuingCapacity} (hswapped : Swapped q g attempt capacity enqueuing) :
    g.batch.length + enqueuing.remainingCapacity = capacity := by
  rw [hswapped.batch_eq, ← extent]
  exact hswapped.extent_add

end Facts

section Step

variable [DecidableEq T] [Buffer B α σ] [LawfulBuffer B]
variable {s : State T B α σ} {g : Ledger T α} {t : T}

theorem Shared.view_reserved {q : Queue B} (hshared : Shared q g) (value : List α) :
    (g.next t (.reserved q.enqueuingCapacity.bufferIndex value)).view =
      g.view.next (.reserved q.enqueuingCapacity.bufferIndex value) := by
  have hfilter := fun (P : Status T → Bool) => Ledger.contents_filter_append (g := g) P
    g.enqueuing (other g.enqueuing) ⟨.reserved t, value⟩
  simp only [other_ne, false_and, if_false, List.append_nil] at hfilter
  have hbatch : (g.next t (.reserved g.enqueuing value)).batch = g.batch :=
    congrArg (List.drop g.taken) (hfilter fun tag => !tag.hidden)
  have hstaged : (g.next t (.reserved g.enqueuing value)).staged = g.staged :=
    hfilter fun tag => tag.hidden
  have htail : (g.next t (.reserved g.enqueuing value)).tail = g.tail ++ value := by
    change contents ((g.next t (.reserved g.enqueuing value)).tiles g.enqueuing) = _
    rw [Ledger.tiles_reserved, if_pos rfl, contents_append, contents_cons,
      contents_nil, List.append_nil]
    rfl
  rw [← hshared.enqueuing, Ledger.view, hbatch, htail, hstaged]
  rfl

omit [LawfulBuffer B] in
theorem Hidden.view_staged {q : Queue B} {dequeuing : DequeuingLength} {length : Nat}
    (hhidden : Hidden q g dequeuing .staged length) (value : List α) :
    (g.next t (.staged dequeuing.bufferIndex value)).view =
      g.view.next (.staged dequeuing.bufferIndex value) := by
  have hindex := eq_other_of_ne hhidden.other
  have hfilter := fun (P : Status T → Bool) => Ledger.contents_filter_append (g := g) P
    dequeuing.bufferIndex (SwapBufferQueue.other g.enqueuing) ⟨.staged, value⟩
  have hbatch : (g.next t (.staged dequeuing.bufferIndex value)).batch = g.batch := by
    have hsame := hfilter fun tag => !tag.hidden
    rw [if_neg (by simp [Status.hidden]), List.append_nil] at hsame
    exact congrArg (List.drop g.taken) hsame
  have hstaged : (g.next t (.staged dequeuing.bufferIndex value)).staged =
      g.staged ++ value := by
    have hmore := hfilter fun tag => tag.hidden
    rw [if_pos ⟨hindex.symm, rfl⟩] at hmore
    exact hmore
  have htail : (g.next t (.staged dequeuing.bufferIndex value)).tail = g.tail := by
    change contents ((g.next t (.staged dequeuing.bufferIndex value)).tiles
      g.enqueuing) = _
    rw [Ledger.tiles_staged, if_neg hhidden.other.symm]
    rfl
  rw [Ledger.view, hbatch, htail, hstaged]
  rfl

theorem Swapping.view_swapped {q : Queue B} (hshared : Shared q g) {attempt : Attempt}
    {capacity : Nat} {nextEnqueuing enqueuing : EnqueuingCapacity}
    (hswap : Swapping q g attempt capacity nextEnqueuing enqueuing) :
    (g.next t (.swapped attempt.dequeuing.bufferIndex)).view =
      g.view.next (.swapped attempt.dequeuing.bufferIndex) := by
  have hother := hswap.hidden.other
  have hold : (g.next t (.swapped attempt.dequeuing.bufferIndex)).tiles g.enqueuing =
      g.tiles g.enqueuing := by
    rw [Ledger.tiles_swapped, if_neg hother.symm]
  have hvisible : ∀ tile ∈ (g.next t (.swapped attempt.dequeuing.bufferIndex)).tiles
      g.enqueuing, tile.tag.hidden = false := by
    rw [hold]
    exact hshared.visible
  have hbatch : (g.next t (.swapped attempt.dequeuing.bufferIndex)).batch = g.tail := by
    rw [Ledger.batch_eq_of_visible
      (g := g.next t (.swapped attempt.dequeuing.bufferIndex)) hother.symm hvisible, hold]
    change (contents (g.tiles g.enqueuing)).drop g.taken = _
    rw [hswap.hidden.taken, List.drop_zero]
    rfl
  have hstaged : (g.next t (.swapped attempt.dequeuing.bufferIndex)).staged = [] :=
    Ledger.staged_eq_nil_of_visible
      (g := g.next t (.swapped attempt.dequeuing.bufferIndex)) hother.symm hvisible
  have htail : (g.next t (.swapped attempt.dequeuing.bufferIndex)).tail = g.staged := by
    rw [hswap.hidden.staged_eq rfl]
    change contents ((g.next t (.swapped attempt.dequeuing.bufferIndex)).tiles
      attempt.dequeuing.bufferIndex) = _
    rw [Ledger.tiles_swapped, if_pos rfl, contents_retag]
  rw [Ledger.view, hbatch, htail, hstaged]
  rfl

omit [LawfulBuffer B] in
theorem Range.view_released {q : Queue B} {i : Fin 2}
    (hrange : Range q g i (extent (g.tiles i)) (extent (g.tiles i))) :
    (g.next t (.released i)).view = g.view := by
  have hnil : (g.next t (.released i)).tiles i = [] := by
    rw [Ledger.tiles_released, if_pos rfl]
  have hvisible : ∀ tile ∈ (g.next t (.released i)).tiles i, tile.tag.hidden = false := by
    rw [hnil]
    simp
  have hbefore : g.batch = [] := by
    rw [hrange.batch_eq, extent, List.drop_length]
  have hafter : (g.next t (.released i)).batch = [] := by
    rw [Ledger.batch_eq_of_visible (g := g.next t (.released i)) hrange.other hvisible,
      hnil]
    rfl
  have hstaged : g.staged = [] :=
    Ledger.staged_eq_nil_of_visible hrange.other hrange.visible
  have hstaged' : (g.next t (.released i)).staged = [] :=
    Ledger.staged_eq_nil_of_visible (g := g.next t (.released i)) hrange.other hvisible
  have htail : (g.next t (.released i)).tail = g.tail := by
    change contents ((g.next t (.released i)).tiles g.enqueuing) = _
    rw [Ledger.tiles_released, if_neg hrange.other.symm]
    rfl
  rw [Ledger.view, Ledger.view, hbefore, hafter, hstaged, hstaged', htail]
  rfl

/-- Every step has the effect of its event on the view. -/
theorem Sim.view_step (hsim : Sim s g) {action : Action α} {q' : Queue B}
    {pc' : Pc α σ} {event : Event α}
    (hmove : Transition s.queue (s.pcs t) action q' pc' event) :
    (g.next t event).view = g.view.next event := by
  have hthread := hsim.thread t
  generalize s.pcs t = pc at hmove hthread
  have hconsumed : ∀ (i : Fin 2) (values : List α),
      (g.next t (.consumed i values)).view = g.view.next (.consumed i values) := by
    intro i values
    have hbatch : (g.next t (.consumed i values)).batch =
        g.batch.drop values.length := by
      rw [Ledger.batch, Ledger.batch, List.drop_drop]
      rfl
    rw [Ledger.view, hbatch]
    rfl
  cases hmove with
  | reserve value next => exact hsim.shared.view_reserved value
  | insert value enqueuing _ _ _ => exact Ledger.view_retag _ (Status.hidden_write t)
  | acknowledge value enqueuing _ =>
      exact Ledger.view_retag _ (Status.hidden_acknowledge t)
  | stage _ _ value _ _ _ _ _ _ _ => exact hthread.view_staged value
  | publish _ _ _ => exact Ledger.view_retag _ Status.hidden_publish
  | swap _ _ _ => exact hthread.view_swapped hsim.shared
  | remove i _ _ value _ _ _ => exact hconsumed i [value]
  | clear i _ _ _ values _ _ => exact hconsumed i values
  | release i _ => exact hthread.view_released
  | _ => rfl

end Step

end SwapBufferQueue
