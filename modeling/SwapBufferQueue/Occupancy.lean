/-
Which cells hold a value.  For a buffer that its elements leave when they are taken,
a cell holds a value only as long as it belongs to a written value that is not
consumed yet: nothing is left behind in a cell, and no cell is written twice.
-/
import SwapBufferQueue.Reachable

namespace SwapBufferQueue

universe u v w x

open Tiling

variable {T : Type x} {B : Type u} {α : Type v} {σ : Type w} [Buffer B α σ]

/-- The cell belongs to a written value and has not been consumed. -/
def Live (g : Ledger T α) (i : Fin 2) (j : Nat) : Prop :=
  ∃ position tile, At (g.tiles i) position tile ∧ tile.tag.unwritten = false ∧
    position ≤ j ∧ j < position + tile.elems.length ∧ g.lower i ≤ j

theorem Live.le_extent {g : Ledger T α} {i : Fin 2} {j : Nat} (hlive : Live g i j) :
    g.lower i ≤ j ∧ j < extent (g.tiles i) := by
  obtain ⟨position, tile, hat, -, -, hlt, hlower⟩ := hlive
  exact ⟨hlower, Nat.lt_of_lt_of_le hlt hat.le_extent⟩

/-- A retagging that unwrites nothing keeps the live cells. -/
theorem Live.retag {g : Ledger T α} {i : Fin 2} {j : Nat} (hlive : Live g i j)
    (i' : Fin 2) {f : Status T → Status T}
    (hwritten : ∀ tag, tag.unwritten = false → (f tag).unwritten = false) :
    Live (g.setTiles i' (Tiling.retag f (g.tiles i'))) i j := by
  obtain ⟨position, tile, hat, htag, hle, hlt, hlower⟩ := hlive
  refine ⟨position, _, Ledger.at_retag_tiles_iff.mpr ⟨tile, hat, rfl⟩, ?_, hle, hlt,
    hlower⟩
  simp only
  split
  · exact hwritten tile.tag htag
  · exact htag

theorem Live.append {g : Ledger T α} {i : Fin 2} {j : Nat} (hlive : Live g i j)
    (i' : Fin 2) (tile : Tile (Status T) α) :
    Live (g.setTiles i' (g.tiles i' ++ [tile])) i j := by
  obtain ⟨position, old, hat, htag, hle, hlt, hlower⟩ := hlive
  exact ⟨position, old, Ledger.at_append_tile_iff.mpr (Or.inl hat), htag, hle, hlt,
    hlower⟩

variable [LawfulBuffer B]

/-- Every cell that holds a value is live. -/
def Exact (q : Queue B) (g : Ledger T α) : Prop :=
  ∀ i j, LawfulBuffer.cell (q.buffers i) j ≠ none → Live g i j

/-- Nothing is stored outside the range. -/
def NoneOutside (b : B) (first last : Nat) : Prop :=
  ∀ j, ¬ (first ≤ j ∧ j < last) → LawfulBuffer.cell b j = none

section Exact

variable {q : Queue B} {g : Ledger T α} {i : Fin 2}

/-- Nothing is stored but what is laid in the buffer and not consumed. -/
theorem Exact.noneOutside (hexact : Exact q g) (i : Fin 2) :
    NoneOutside (q.buffers i) (g.lower i) (extent (g.tiles i)) := by
  intro j hout
  by_contra hcell
  exact hout (hexact i j hcell).le_extent

theorem Exact.noneOutside_range (hexact : Exact q g) {start stop : Nat}
    (hrange : Range q g i start stop) : NoneOutside (q.buffers i) start stop := by
  have hnone := hexact.noneOutside i
  rwa [Ledger.lower, if_neg hrange.other, ← hrange.start_eq, ← hrange.stop_eq] at hnone

theorem Exact.cell_reserved (hexact : Exact q g) {position : Nat}
    {tile : Tile (Status T) α} (hat : At (g.tiles i) position tile)
    (hunwritten : tile.tag.unwritten = true) {j : Nat} (hfirst : position ≤ j)
    (hlast : j < position + tile.elems.length) :
    LawfulBuffer.cell (q.buffers i) j = none := by
  by_contra hcell
  obtain ⟨position', tile', hat', htag, hle, hlt, -⟩ := hexact i j hcell
  rcases hat.separate hat' with ⟨-, rfl⟩ | hlt' | hlt'
  · rw [hunwritten] at htag
    cases htag
  · omega
  · omega

end Exact

variable {s : State T B α σ} {g : Ledger T α} {t : T}

/-- A batch from which something was taken has nothing in flight. -/
theorem Sim.taken_or_settled (hsim : Sim s g) {i : Fin 2}
    (hother : i ≠ g.enqueuing) :
    g.taken = 0 ∨ ∀ tile ∈ g.tiles i, tile.tag = .acknowledged := by
  have hsame : ∀ {i'}, i' ≠ g.enqueuing → i' = i := by
    intro i' hother'
    rw [eq_other_of_ne hother', eq_other_of_ne hother]
  by_cases hlocked : s.queue.dequeuingLength = dequeuingLocked
  · obtain ⟨t, hholds⟩ := hsim.locked_iff.mp hlocked
    have hthread := hsim.thread t
    generalize s.pcs t = pc at hholds hthread
    cases pc with
    | dequeueResize _ _ => exact Or.inl hthread.taken
    | dequeueInsert _ _ _ _ => exact Or.inl hthread.taken
    | dequeuePublish _ => exact Or.inl hthread.1.taken
    | dequeueLoad _ => exact Or.inl hthread.1.taken
    | dequeueSwap _ _ _ _ => exact Or.inl hthread.hidden.taken
    | dequeueLoadCapacity _ _ _ => exact Or.inl hthread.taken
    | dequeueStoreCapacity _ _ _ => exact Or.inl hthread.taken
    | dequeueNotify _ _ _ => exact Or.inl hthread.taken
    | dequeueSpin _ _ _ => exact hsame hthread.1.other ▸ hthread.1.settled
    | dequeueSlice _ _ _ => exact Or.inr (hsame hthread.other ▸ hthread.settled)
    | slice _ _ _ _ => exact Or.inr (hsame hthread.1.other ▸ hthread.1.settled)
    | iter _ _ _ => exact Or.inr (hsame hthread.other ▸ hthread.settled)
    | releaseClear _ _ _ => exact Or.inr (hsame hthread.other ▸ hthread.settled)
    | releaseLength _ => exact Or.inr (hsame hthread.other ▸ hthread.settled)
    | storeDequeuing _ _ =>
        exact hsame hthread.batch.other ▸ hthread.batch.settled
    | panicked panic =>
        rw [eq_other_of_ne hother]
        exact hthread.settled
    | _ => cases hholds
  · have hbatch := (hsim.stored hlocked).batch
    exact hsame hbatch.other ▸ hbatch.settled

/-- The cells written by an insertion become live, the others stay as they were. -/
theorem exact_insertInto {q : Queue B} {g' : Ledger T α} {i : Fin 2}
    {position : Nat} {value : List α} {b : B} (hexact : Exact q g)
    (hfit : position + value.length ≤ Buffer.capacity (q.buffers i))
    (hinsert : Buffer.insertInto (q.buffers i) position value = some b)
    (hkeep : ∀ {i' j}, Live g i' j → Live g' i' j)
    (hnew : ∀ j, position ≤ j → j < position + value.length → Live g' i j) :
    Exact (q.setBuffer i b) g' := by
  intro i' j hcell
  rw [Queue.buffers_setBuffer] at hcell
  split at hcell
  · rename_i hi
    subst hi
    by_cases hin : position ≤ j ∧ j < position + value.length
    · exact hnew j hin.1 hin.2
    · rw [cell_insertInto_of_not_mem hfit hinsert hin] at hcell
      exact hkeep (hexact i' j hcell)
  · exact hkeep (hexact i' j hcell)

variable [DecidableEq T]

omit [LawfulBuffer B] in
/-- Nothing happens to the enqueuing buffer when a range of the other one is consumed. -/
theorem Live.consume_other {q : Queue B} {i i' : Fin 2} {start stop j : Nat}
    (hlive : Live g i' j) (hrange : Range q g i start stop) (hi : i' ≠ i)
    (values : List α) : Live (g.next t (.consumed i values)) i' j := by
  obtain ⟨position, tile, hat, htag, hle, hend, -⟩ := hlive
  refine ⟨position, tile, hat, htag, hle, hend, ?_⟩
  have henqueuing : i' = g.enqueuing := by
    rw [eq_other_of_ne hi, eq_other_of_ne hrange.other, other_other]
  change (if i' = g.enqueuing then 0 else g.taken + values.length) ≤ j
  rw [if_pos henqueuing]
  exact Nat.zero_le j

omit [DecidableEq T] in
/-- A batch with a reservation in flight has not been consumed from. -/
theorem Sim.lower_eq_zero (hsim : Sim s g) {enqueuing : EnqueuingCapacity}
    {value : List α} (hflight : InFlight s.queue g enqueuing ⟨.reserved t, value⟩) :
    g.lower enqueuing.bufferIndex = 0 := by
  rw [Ledger.lower]
  split
  · rfl
  · rename_i hother
    rcases hsim.taken_or_settled hother with htaken | hsettled
    · exact htaken
    · cases hsettled _ hflight.at_index.mem

variable [LawfulDrain B]

theorem Exact.remove {q : Queue B} (hexact : Exact q g) {i : Fin 2} {start stop : Nat}
    {value : α} {b : B} (hrange : Range q g i start stop)
    (hremove : Buffer.remove (q.buffers i) start = some (value, b)) :
    Exact (q.setBuffer i b) (g.next t (.consumed i [value])) := by
  intro i' j hcell
  rw [Queue.buffers_setBuffer] at hcell
  split at hcell
  · rename_i hi
    subst hi
    rw [LawfulDrain.cell_remove hremove] at hcell
    split at hcell
    · exact absurd rfl hcell
    · rename_i hj
      obtain ⟨position, tile, hat, htag, hle, hend, hlower⟩ := hexact i' j hcell
      refine ⟨position, tile, hat, htag, hle, hend, ?_⟩
      rw [Ledger.lower, if_neg hrange.other, ← hrange.start_eq] at hlower
      change (if i' = g.enqueuing then 0 else g.taken + 1) ≤ j
      rw [if_neg hrange.other, ← hrange.start_eq]
      omega
  · rename_i hi
    exact (hexact i' j hcell).consume_other hrange hi [value]

/-- The cells of a cleared range are vacant, and nothing else was live there. -/
theorem Exact.clear {q : Queue B} (hexact : Exact q g) {i : Fin 2} {start stop : Nat}
    {values : List α} {b : B} (hrange : Range q g i start stop)
    (hclear : Buffer.clear (q.buffers i) start stop = some (values, b)) :
    Exact (q.setBuffer i b) (g.next t (.consumed i values)) := by
  intro i' j hcell
  rw [Queue.buffers_setBuffer] at hcell
  split at hcell
  · rename_i hi
    subst hi
    rw [LawfulDrain.cell_clear hclear] at hcell
    split at hcell
    · exact absurd rfl hcell
    · rename_i hout
      obtain ⟨hlower, hend⟩ := (hexact i' j hcell).le_extent
      rw [Ledger.lower, if_neg hrange.other, ← hrange.start_eq] at hlower
      rw [← hrange.stop_eq] at hend
      exact absurd ⟨hlower, hend⟩ hout
  · rename_i hi
    exact (hexact i' j hcell).consume_other hrange hi values

/-- Every step keeps the cells exact. -/
theorem Sim.exact_step (hsim : Sim s g) (hexact : Exact s.queue g) {action : Action α}
    {q' : Queue B} {pc' : Pc α σ} {event : Event α}
    (hmove : Transition s.queue (s.pcs t) action q' pc' event) :
    Exact q' (g.next t event) := by
  have hthread := hsim.thread t
  generalize s.pcs t = pc at hmove hthread
  cases hmove with
  | reserve value next =>
      intro i j hcell
      exact (hexact i j hcell).append s.queue.enqueuingCapacity.bufferIndex _
  | insert value enqueuing spurious b hinsert =>
      have hflight : InFlight s.queue g enqueuing ⟨.reserved t, value⟩ := hthread
      have hle := hflight.remaining_le
      have hfits : value.length ≤ enqueuing.remainingCapacity := hflight.fits
      have hlower := hsim.lower_eq_zero hflight
      refine exact_insertInto hexact (by omega) hinsert ?_ ?_
      · intro i' j hlive
        apply hlive.retag
        intro tag htag
        unfold Status.write
        split
        · rfl
        · exact htag
      · intro j hfirst hlast
        refine ⟨_, _, Ledger.at_retag_tiles_iff.mpr ⟨_, hflight.at_index, rfl⟩, ?_,
          hfirst, hlast, ?_⟩
        · simp [Status.write, Status.unwritten]
        · change g.lower _ ≤ j
          rw [hlower]
          exact Nat.zero_le j
  | acknowledge value enqueuing spurious =>
      intro i j hcell
      refine (hexact i j hcell).retag enqueuing.bufferIndex fun tag htag => ?_
      rw [Status.unwritten_acknowledge, htag]
  | resize dequeuing resize spurious capa b hcapa hne hcheck hresize =>
      intro i j hcell
      rw [Queue.buffers_setBuffer] at hcell
      split at hcell
      · exact absurd (LawfulDrain.cell_resize hresize j) hcell
      · exact hexact i j hcell
  | stage dequeuing resized value rest length spurious b hvalue hle hinsert =>
      have hfit := LawfulDrain.insertInto_fits hvalue hinsert
      have hhidden : Hidden s.queue g dequeuing .staged length := hthread
      refine exact_insertInto hexact hfit hinsert ?_ ?_
      · intro i' j hlive
        exact hlive.append _ _
      · intro j hfirst hlast
        refine ⟨length, ⟨.staged, value⟩, Ledger.at_append_tile_iff.mpr
          (Or.inr ⟨rfl, hhidden.length_eq.symm, rfl⟩), rfl, hfirst, hlast, ?_⟩
        change (if dequeuing.bufferIndex = g.enqueuing then 0 else g.taken) ≤ j
        rw [if_neg hhidden.other, hhidden.taken]
        exact Nat.zero_le j
  | publish attempt _ _ =>
      intro i j hcell
      refine (hexact i j hcell).retag attempt.dequeuing.bufferIndex fun tag htag => ?_
      rw [Status.unwritten_publish, htag]
  | swap attempt capacity nextEnqueuing =>
      intro i j hcell
      have hlive := (hexact i j hcell).retag attempt.dequeuing.bufferIndex
        (f := Status.expose) fun tag htag => by rw [Status.unwritten_expose, htag]
      obtain ⟨position, tile, hat, htag, hle, hlt, -⟩ := hlive
      refine ⟨position, tile, hat, htag, hle, hlt, ?_⟩
      change (if i = attempt.dequeuing.bufferIndex then 0 else g.taken) ≤ j
      rw [hthread.hidden.taken, ite_self]
      exact Nat.zero_le j
  | remove i start stop value b hlt hremove => exact hexact.remove hthread hremove
  | clear i start stop spurious values b hclear => exact hexact.clear hthread hclear
  | release i spurious =>
      have hrange : Range s.queue g i _ _ := hthread
      intro i' j hcell
      by_cases hi : i' = i
      · subst hi
        obtain ⟨hlower, hend⟩ := (hexact i' j hcell).le_extent
        rw [Ledger.lower, if_neg hrange.other, ← hrange.start_eq] at hlower
        omega
      · obtain ⟨position, tile, hat, htag, hle, hend, -⟩ := hexact i' j hcell
        refine ⟨position, tile, ?_, htag, hle, hend, ?_⟩
        · rw [Ledger.tiles_released, if_neg hi]
          exact hat
        · change (if i' = g.enqueuing then 0 else 0) ≤ j
          rw [ite_self]
          exact Nat.zero_le j
  | _ => exact hexact

omit [DecidableEq T] in
theorem Initial.cell_eq_none (hinitial : Initial s) (i : Fin 2) (j : Nat) :
    LawfulBuffer.cell (s.queue.buffers i) j = none := by
  rcases hinitial.buffers i with hdefault | ⟨capacity, hresize⟩
  · rw [hdefault]
    exact LawfulDrain.cell_default j
  · exact LawfulDrain.cell_resize hresize j

/-- Along every run the cells are exact. -/
theorem exact_of_run {start : State T B α σ} (hinitial : Initial start)
    {ok : State T B α σ → T × Action α → Prop}
    (hok : ∀ state label, ok state label → SizeOk state label)
    {trace : List ((T × Action α) × Event α)}
    (hrun : Runs.Run SwapBufferQueue.step ok start trace s) :
    Exact s.queue (Ledger.ofTrace trace) := by
  refine hrun.invariant (fun trace s => Exact s.queue (Ledger.ofTrace trace))
    (fun i j hcell => absurd (hinitial.cell_eq_none i j) hcell) ?_
  rintro trace state state' ⟨t, action⟩ event hprefix hexact hlabel hstep
  have hsim := sim_of_run hinitial hok hprefix
  obtain ⟨q', pc', hmove, rfl⟩ := step_cases hstep
  rw [Ledger.ofTrace_append_singleton]
  exact hsim.exact_step hexact hmove

end SwapBufferQueue
