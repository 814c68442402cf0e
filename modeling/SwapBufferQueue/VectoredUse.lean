/-
The vectored buffers in use.  Values are inserted one by one, removed and cleared in
any order the queue can ask for; the io-slices of removed values stay where they are,
and a slice is a window over the io-slices alone.
-/
import SwapBufferQueue.WriteVectored
import SwapBufferQueue.Lib.Runs

namespace SwapBufferQueue

universe v

variable {α : Type v} {N : Option Nat} [AsRef α]

/-- The operations the queue performs on one of its buffers. -/
inductive BufferOp (α : Type v) where
  | insert (index : Nat) (value : α)
  | remove (index : Nat)
  | clear (start stop : Nat)
  | resize (capacity : Nat)
  | slice (start stop : Nat)
deriving Repr, DecidableEq

/-- A buffer with the values that were inserted and not removed since. -/
structure VectoredUse (α : Type v) (N : Option Nat) where
  buffer : WriteVectoredBuffer α N
  stored : Nat → Option α

def VectoredUse.new : VectoredUse α N :=
  ⟨Buffer.default, fun _ => none⟩

/-- What an operation does to the stored values. -/
def storedAfter (stored : Nat → Option α) : BufferOp α → Nat → Option α
  | .insert index value => fun j => if j = index then some value else stored j
  | .remove index => fun j => if j = index then none else stored j
  | .clear start stop => fun j => if start ≤ j ∧ j < stop then none else stored j
  | .resize _ => stored
  | .slice _ _ => stored

/-- The operation on the buffer; `none` is a panic, or a `resize` of an array. -/
def applyOp (b : WriteVectoredBuffer α N) : BufferOp α → Option (WriteVectoredBuffer α N)
  | .insert index value => CellBuffer.insert b index value
  | .remove index => (Buffer.remove b index).map Prod.snd
  | .clear start stop => (Buffer.clear b start stop).map Prod.snd
  | .resize capacity => Buffer.resize b capacity
  | .slice start stop => (Buffer.slice b start stop).map fun _ => b

def useStep (use : VectoredUse α N) (op : BufferOp α) :
    Option (VectoredUse α N × Unit) :=
  (applyOp use.buffer op).map fun b => (⟨b, storedAfter use.stored op⟩, ())

/-- The use the queue makes of a buffer: inserts at fresh indices below the capacity,
removes, clears and non-empty slices of what is stored, resizes of an empty buffer. -/
def UseOk (use : VectoredUse α N) : BufferOp α → Prop
  | .insert index _ => index < Buffer.capacity use.buffer ∧ use.stored index = none
  | .remove index => use.stored index ≠ none
  | .clear start stop => start ≤ stop ∧ ∀ j, start ≤ j → j < stop → use.stored j ≠ none
  | .resize _ => N = none ∧ ∀ j, use.stored j = none
  | .slice start stop => start < stop ∧ ∀ j, start ≤ j → j < stop → use.stored j ≠ none

/-- What is stored is in its cell, with its own io-slice one slot further. -/
def Tracks (use : VectoredUse α N) : Prop :=
  ∀ j value, use.stored j = some value → use.buffer.cell j = some value

variable {use : VectoredUse α N}

theorem Tracks.lt_capacity (htracks : Tracks use) {j : Nat}
    (hstored : use.stored j ≠ none) : j < use.buffer.owned.length := by
  obtain ⟨value, hvalue⟩ := Option.ne_none_iff_exists'.mp hstored
  obtain ⟨howned, -⟩ := WriteVectoredBuffer.cell_eq_some_iff.mp (htracks j value hvalue)
  exact (List.getElem?_eq_some_iff.mp howned).1

theorem Tracks.exists_values (htracks : Tracks use) {start stop : Nat} (hle : start ≤ stop)
    (hstored : ∀ j, start ≤ j → j < stop → use.stored j ≠ none) :
    ∃ values : List α, start + values.length = stop ∧
      (∀ k, k < values.length → use.buffer.cell (start + k) = values[k]?) ∧
      (start < stop → stop ≤ use.buffer.owned.length) := by
  have hvalues : ∀ k : Fin (stop - start), ∃ value, use.stored (start + k) = some value :=
    fun k => Option.ne_none_iff_exists'.mp (hstored _ (by omega) (by omega))
  choose value hvalue using hvalues
  refine ⟨List.ofFn value, by rw [List.length_ofFn]; omega, ?_, ?_⟩
  · intro k hk
    rw [List.length_ofFn] at hk
    rw [htracks _ _ (hvalue ⟨k, hk⟩), List.getElem?_ofFn, dif_pos hk]
  · intro hlt
    have hlast := htracks.lt_capacity (hstored (stop - 1) (by omega) (by omega))
    omega

/-- An operation on a range of stored values finds them in their cells. -/
theorem Tracks.isSome_applyOp (htracks : Tracks use) {op : BufferOp α} (hok : UseOk use op) :
    (applyOp use.buffer op).isSome = true := by
  cases op with
  | insert index value =>
      obtain ⟨b, hinsert, -⟩ := LawfulCellBuffer.insert_spec (b := use.buffer) value hok.1
      change (CellBuffer.insert use.buffer index value).isSome = true
      rw [hinsert]
      rfl
  | remove index =>
      obtain ⟨value, hvalue⟩ := Option.ne_none_iff_exists'.mp hok
      obtain ⟨b, hremove, -⟩ := LawfulBuffer.remove_spec (B := WriteVectoredBuffer α N)
        (htracks index value hvalue) (htracks.lt_capacity hok)
      rw [applyOp, hremove]
      rfl
  | clear start stop =>
      obtain ⟨values, rfl, hcells, hfits⟩ := htracks.exists_values hok.1 hok.2
      rcases Nat.eq_zero_or_pos values.length with hzero | hpos
      · have hclear : Buffer.clear use.buffer start (start + values.length) =
            some ([], use.buffer.resetTotalSize) := by
          rw [WriteVectoredBuffer.fromCells.clear, hzero, Nat.add_zero, Nat.sub_self]
          rfl
        rw [applyOp, hclear]
        rfl
      · obtain ⟨b, hclear, -⟩ := LawfulBuffer.clear_spec (B := WriteVectoredBuffer α N)
          hcells (hfits (by omega))
        rw [applyOp, hclear]
        rfl
  | resize capacity =>
      obtain ⟨rfl, -⟩ := hok
      rfl
  | slice start stop =>
      obtain ⟨values, rfl, hcells, hfits⟩ := htracks.exists_values hok.1.le hok.2
      have hle := hfits hok.1
      have hlt := hok.1
      obtain ⟨slice, hslice, -⟩ := WriteVectoredBuffer.slice_spec hcells hle (by omega)
      change ((use.buffer.slice start (start + values.length)).map _).isSome = true
      rw [hslice]
      rfl

theorem Tracks.applyOp (htracks : Tracks use) {op : BufferOp α} (hok : UseOk use op)
    {b : WriteVectoredBuffer α N} (happly : SwapBufferQueue.applyOp use.buffer op = some b) :
    Tracks ⟨b, storedAfter use.stored op⟩ := by
  intro j value hstored
  cases op with
  | insert index inserted =>
      obtain ⟨b', hinsert, hcell⟩ :=
        LawfulCellBuffer.insert_spec (b := use.buffer) inserted hok.1
      cases hinsert.symm.trans happly
      have hcell := hcell j
      change (if j = index then some inserted else use.stored j) = some value at hstored
      change b.cell j = _ at hcell
      rw [hcell]
      split at hstored
      · rename_i hj
        rw [if_pos hj, hstored]
      · rename_i hj
        rw [if_neg hj]
        exact htracks j value hstored
  | remove index =>
      obtain ⟨⟨removed, b'⟩, hremove, rfl⟩ := Option.map_eq_some_iff.mp happly
      have hcell := LawfulDrain.cell_remove hremove j
      change (if j = index then none else use.stored j) = some value at hstored
      change b'.cell j = _ at hcell
      rw [hcell]
      split at hstored
      · cases hstored
      · rename_i hj
        rw [if_neg hj]
        exact htracks j value hstored
  | clear start stop =>
      obtain ⟨⟨cleared, b'⟩, hclear, rfl⟩ := Option.map_eq_some_iff.mp happly
      have hcell := LawfulDrain.cell_clear hclear j
      change (if start ≤ j ∧ j < stop then none else use.stored j) = some value at hstored
      change b'.cell j = _ at hcell
      rw [hcell]
      split at hstored
      · cases hstored
      · rename_i hj
        rw [if_neg hj]
        exact htracks j value hstored
  | resize capacity =>
      change use.stored j = some value at hstored
      rw [hok.2 j] at hstored
      cases hstored
  | slice start stop =>
      obtain ⟨slice, -, rfl⟩ := Option.map_eq_some_iff.mp happly
      exact htracks j value hstored

variable {trace : List (BufferOp α × Unit)}

theorem tracks_of_run (hrun : Runs.Run useStep UseOk VectoredUse.new trace use) :
    Tracks use := by
  refine hrun.invariant (fun _ use => Tracks use) ?_ ?_
  · intro j value hstored
    cases hstored
  · intro trace use use' op event _ htracks hok hstep
    obtain ⟨b, happly, heq⟩ := Option.map_eq_some_iff.mp hstep
    cases heq
    exact htracks.applyOp hok happly

/-- No operation panics, and the slice of a non-empty stored range is in bounds and
shows the bytes of the values stored there, whatever was removed, cleared or used
before. -/
theorem vectored_slice_shows_stored
    (hrun : Runs.Run useStep UseOk VectoredUse.new trace use) :
    (∀ op, UseOk use op → (useStep use op).isSome = true) ∧
      ∀ start (values : List α), values ≠ [] →
        (∀ k, k < values.length → use.stored (start + k) = values[k]?) →
          start + values.length + 2 ≤ use.buffer.slices.length ∧
            ∃ slice, Buffer.slice use.buffer start (start + values.length) = some slice ∧
              slice.deref = values.map AsRef.asRef := by
  have htracks := tracks_of_run hrun
  constructor
  · intro op hok
    rw [useStep, Option.isSome_map]
    exact htracks.isSome_applyOp hok
  · intro start values hne hstored
    have hpos := List.length_pos_iff.mpr hne
    have hcells : ∀ k, k < values.length → use.buffer.cell (start + k) = values[k]? := by
      intro k hk
      have hvalue := hstored k hk
      rw [List.getElem?_eq_getElem hk] at hvalue ⊢
      exact htracks _ _ hvalue
    have hlast : start + (values.length - 1) < use.buffer.owned.length := by
      apply htracks.lt_capacity
      rw [hstored _ (by omega), List.getElem?_eq_getElem (by omega)]
      exact Option.some_ne_none _
    have hlength := use.buffer.slices_length (List.ne_nil_of_length_pos (by omega))
    obtain ⟨slice, hslice, -, -, hderef⟩ :=
      WriteVectoredBuffer.slice_spec hcells (by omega) (by omega)
    exact ⟨by omega, slice, hslice, hderef⟩

/-- A buffer of two cells whose first value was removed: the window of the second one
begins at the io-slice that was left behind. -/
theorem vectored_slice_shows_stored_after_remove :
    ∃ (trace : List (BufferOp (List UInt8) × Unit)) (use : VectoredUse (List UInt8) none),
      Runs.Run useStep UseOk VectoredUse.new trace use ∧
      use.buffer.slices = [[], [4], [5], []] ∧
      (∀ k, k < [[(5 : UInt8)]].length → use.stored (1 + k) = [[5]][k]?) ∧
      ∃ slice, Buffer.slice use.buffer 1 2 = some slice ∧ slice.deref = [[5]] := by
  have hadmits : Runs.Admits useStep UseOk
      (VectoredUse.new : VectoredUse (List UInt8) none)
      [.resize 2, .insert 1 [5], .insert 0 [4], .remove 0] :=
    ⟨⟨rfl, fun _ => rfl⟩, ⟨by decide, rfl⟩, ⟨by decide, rfl⟩, Option.some_ne_none [4], trivial⟩
  have hrun := Runs.run_of_isSome useStep UseOk _ _ hadmits (by decide)
  obtain ⟨-, hshows⟩ := vectored_slice_shows_stored hrun
  have hstored : ∀ k, k < [[(5 : UInt8)]].length →
      storedAfter (storedAfter (storedAfter (storedAfter (fun _ => none) (.resize 2))
        (.insert 1 [5])) (.insert 0 [4])) (.remove 0) (1 + k) = [[(5 : UInt8)]][k]? := by
    decide
  obtain ⟨-, slice, hslice, hderef⟩ := hshows 1 [[5]] (by decide) hstored
  exact ⟨_, _, hrun, by decide, hstored, slice, hslice, hderef⟩

end SwapBufferQueue
