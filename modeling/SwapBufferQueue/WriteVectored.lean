/-
The vectored buffers and their slices.  A value of `T: AsRef<[u8]>` is kept with
the io-slice of its bytes; the io-slices lie one slot further than their owners,
so that a slice of the buffer has a free slot on both sides for a header and a
trailer.
-/
import SwapBufferQueue.CellBuffer
import SwapBufferQueue.Words

namespace SwapBufferQueue

universe v

/-- The bytes an `IoSlice` points to. -/
abbrev IoSlice := List UInt8

class AsRef (α : Type v) where
  asRef : α → List UInt8

/-- `Vec<u8>`. -/
instance instAsRefBytes : AsRef (List UInt8) := ⟨id⟩

/-- The slots of a vectored slice, the two reserved ones included. -/
structure VectoredSlice where
  slices : List IoSlice
  totalSize : Usize
deriving Repr, DecidableEq

/-- `self.slices[1..self.slices.len() - 1]`. -/
def VectoredSlice.deref (slice : VectoredSlice) : List IoSlice :=
  (slice.slices.take (slice.slices.length - 1)).drop 1

inductive Bound where
  | included (n : Nat)
  | excluded (n : Nat)
  | unbounded
deriving Repr, DecidableEq

/-- A framed part of a vectored slice, with the place of its first slot and the
io-slices its header and trailer stand for. -/
structure VectoredFrame where
  start : Nat
  slices : List IoSlice
  header : Option IoSlice
  trailer : Option IoSlice
deriving Repr, DecidableEq

/-- `mem::replace(&mut slots[index], slot)`. -/
def replaceSlot (slots : List IoSlice) (index : Nat) (slot : IoSlice) :
    Option (IoSlice × List IoSlice) :=
  match slots[index]? with
  | none => none
  | some old => some (old, slots.set index slot)

def frameStart : Bound → Nat
  | .included n => n
  | .excluded n => n + 1
  | .unbounded => 0

def frameEnd (length : Nat) : Bound → Nat
  | .included n => n + 2
  | .excluded n => n + 1
  | .unbounded => length

/-- Put the header in the slot before the range, or leave that slot out. -/
def frameHeader (slots : List IoSlice) (start : Nat) :
    Option IoSlice → Option (Option IoSlice × List IoSlice × Nat)
  | none => some (none, slots, start + 1)
  | some header =>
      (replaceSlot slots start header).map fun replaced =>
        (some replaced.1, replaced.2, start)

/-- Put the trailer in the last slot of the range, or leave that slot out. -/
def frameTrailer (slots : List IoSlice) (stop : Nat) :
    Option IoSlice → Option (Option IoSlice × List IoSlice × Nat)
  | none => if stop = 0 then none else some (none, slots, stop - 1)
  | some trailer =>
      if stop = 0 then none
      else (replaceSlot slots (stop - 1) trailer).map fun replaced =>
        (some replaced.1, replaced.2, stop)

/-- `VectoredSlice::frame`: the slots it leaves, and the frame, or `none` when an
index is out of bounds. -/
def VectoredSlice.frame (slice : VectoredSlice) (startBound endBound : Bound)
    (header trailer : Option IoSlice) : List IoSlice × Option VectoredFrame :=
  match frameHeader slice.slices (frameStart startBound) header with
  | none => (slice.slices, none)
  | some (oldHeader, slots, start) =>
      match frameTrailer slots (frameEnd slice.slices.length endBound) trailer with
      | none => (slots, none)
      | some (oldTrailer, slots, stop) =>
          if start ≤ stop ∧ stop ≤ slots.length then
            (slots, some ⟨start, (slots.take stop).drop start, oldHeader, oldTrailer⟩)
          else (slots, none)

/-- `WriteVectoredVecBuffer` and `WriteVectoredArrayBuffer`: the same operations, on
boxed slices that can be resized or on arrays of a given length. -/
structure WriteVectoredBuffer (α : Type v) (N : Option Nat) where
  owned : List (Option α)
  slices : List IoSlice
  totalSize : Usize
  slices_length : owned ≠ [] → slices.length = owned.length + 2
  owned_length : ∀ n ∈ N, owned.length = n

abbrev WriteVectoredVecBuffer (α : Type v) := WriteVectoredBuffer α none

abbrev WriteVectoredArrayBuffer (α : Type v) (N : Nat) := WriteVectoredBuffer α (some N)

namespace WriteVectoredBuffer

variable {α : Type v} {N : Option Nat}

theorem set_ne_nil {cells : List (Option α)} {index : Nat} {cell : Option α}
    (hne : cells.set index cell ≠ []) : cells ≠ [] := by
  rintro rfl
  exact hne rfl

variable [AsRef α]

/-- `insert` sets the io-slice and the owner and adds to the total size. -/
def insert (b : WriteVectoredBuffer α N) (index : Nat) (value : α) :
    Option (WriteVectoredBuffer α N) :=
  if index + 1 < b.slices.length ∧ index < b.owned.length then
    some
      { owned := b.owned.set index (some value)
        slices := b.slices.set (index + 1) (AsRef.asRef value)
        totalSize := b.totalSize + BitVec.ofNat 64 (AsRef.asRef value).length
        slices_length := by
          intro hne
          rw [List.length_set, List.length_set]
          exact b.slices_length (set_ne_nil hne)
        owned_length := by
          intro n hn
          rw [List.length_set]
          exact b.owned_length n hn }
  else none

/-- `remove` takes the owner out and subtracts from the total size; the io-slice
stays where it is. -/
def remove (b : WriteVectoredBuffer α N) (index : Nat) :
    Option (α × WriteVectoredBuffer α N) :=
  match takeCell b.owned index with
  | none => none
  | some (value, _) => some (value,
      { owned := b.owned.set index none
        slices := b.slices
        totalSize := b.totalSize - BitVec.ofNat 64 (AsRef.asRef value).length
        slices_length := by
          intro hne
          rw [List.length_set]
          exact b.slices_length (set_ne_nil hne)
        owned_length := by
          intro n hn
          rw [List.length_set]
          exact b.owned_length n hn })

instance instCellBuffer : CellBuffer (WriteVectoredBuffer α N) α where
  capacity b := b.owned.length
  insert := insert
  remove := remove

/-- The boxed slices of a default buffer are empty, the arrays are not. -/
def default : WriteVectoredBuffer α N :=
  match N with
  | none =>
      { owned := []
        slices := []
        totalSize := 0
        slices_length := fun hne => absurd rfl hne
        owned_length := fun _ hn => by cases hn }
  | some n =>
      { owned := List.replicate n none
        slices := List.replicate (n + 2) []
        totalSize := 0
        slices_length := fun _ => by simp
        owned_length := fun m hm => by
          cases hm
          exact List.length_replicate }

/-- `self.slices[start..stop + 2]`, with the total size of the whole buffer. -/
def slice (b : WriteVectoredBuffer α N) (start stop : Nat) : Option VectoredSlice :=
  if start ≤ stop + 2 ∧ stop + 2 ≤ b.slices.length then
    some ⟨(b.slices.take (stop + 2)).drop start, b.totalSize⟩
  else none

/-- The first statement of `clear`. -/
def resetTotalSize (b : WriteVectoredBuffer α N) : WriteVectoredBuffer α N :=
  { b with totalSize := 0 }

/-- `resize` makes new boxed slices and leaves the total size alone. -/
def resize (b : WriteVectoredBuffer α N) (capacity : Nat) :
    Option (WriteVectoredBuffer α N) :=
  match N with
  | none => some
      { owned := List.replicate capacity none
        slices := List.replicate (capacity + 2) []
        totalSize := b.totalSize
        slices_length := fun _ => by simp
        owned_length := fun _ hn => by cases hn }
  | some _ => none

instance instBuffer : Buffer (WriteVectoredBuffer α N) α VectoredSlice where
  default := default
  capacity b := b.owned.length
  insertInto := insertAll
  slice := slice
  clear b start stop := removeAll b.resetTotalSize start (stop - start)
  remove := remove
  resize := resize

/-- The value of a cell, as long as its io-slice is the one of its owner. -/
def cell (b : WriteVectoredBuffer α N) (j : Nat) : Option α :=
  (b.owned[j]?).join.filter fun value =>
    decide (b.slices[j + 1]? = some (AsRef.asRef value))

theorem cell_eq_some_iff {b : WriteVectoredBuffer α N} {j : Nat} {value : α} :
    b.cell j = some value ↔ b.owned[j]? = some (some value) ∧
      b.slices[j + 1]? = some (AsRef.asRef value) := by
  rw [cell, Option.filter_eq_some_iff, Option.join_eq_some_iff, decide_eq_true_iff]

theorem remove_eq_some {b b' : WriteVectoredBuffer α N} {index : Nat} {value : α}
    (hremove : b.remove index = some (value, b')) :
    b.owned[index]? = some (some value) ∧ b'.owned = b.owned.set index none ∧
      b'.slices = b.slices ∧
      b'.totalSize = b.totalSize - BitVec.ofNat 64 (AsRef.asRef value).length := by
  rw [remove] at hremove
  split at hremove
  · cases hremove
  · rename_i value' cells htake
    cases hremove
    exact ⟨(takeCell_eq_some_iff.mp htake).1, rfl, rfl, rfl⟩

instance instLawfulCellBuffer : LawfulCellBuffer (WriteVectoredBuffer α N) where
  cell := cell
  capacity_insert {b b' index value} hinsert := by
    simp only [CellBuffer.insert, insert] at hinsert
    split at hinsert
    · cases hinsert
      exact List.length_set
    · cases hinsert
  insert_fits {b b' index value} hinsert := by
    simp only [CellBuffer.insert, insert] at hinsert
    split at hinsert
    · rename_i hbound
      exact hbound.2
    · cases hinsert
  insert_spec {b index} value hindex := by
    have howned : b.owned ≠ [] := List.ne_nil_of_length_pos (Nat.zero_lt_of_lt hindex)
    have hlength := b.slices_length howned
    have hslot : index + 1 < b.slices.length := by
      rw [hlength]
      exact Nat.add_lt_add_right (Nat.lt_succ_of_lt hindex) 1
    refine ⟨_, if_pos ⟨hslot, hindex⟩, fun j => ?_⟩
    simp only [cell]
    rw [join_set_some value hindex]
    by_cases hj : j = index
    · subst hj
      rw [if_pos rfl, if_pos rfl, List.getElem?_set_self hslot]
      simp
    · rw [if_neg hj, if_neg hj, List.getElem?_set_ne (by omega)]
  remove_spec {b index value} hcell := by
    obtain ⟨howned, -⟩ := cell_eq_some_iff.mp hcell
    have htake := takeCell_eq_some_iff.mpr ⟨howned, rfl⟩
    simp only [CellBuffer.remove, remove, htake]
    exact ⟨_, rfl⟩
  capacity_remove {b b' index value} hremove := by
    obtain ⟨-, howned, -⟩ := remove_eq_some hremove
    change b'.owned.length = b.owned.length
    rw [howned, List.length_set]
  cell_remove {b b' index value} hremove j := by
    obtain ⟨-, howned, hslices, -⟩ := remove_eq_some hremove
    rw [cell, howned, hslices, join_set_none]
    split
    · rfl
    · rfl

theorem fromCells : FromCells (WriteVectoredBuffer α N) resetTotalSize :=
  ⟨fun _ => rfl, fun _ _ _ => rfl, fun _ _ _ => rfl, fun _ _ => rfl, fun _ => rfl,
    fun _ _ => rfl⟩

/-- A slice of inserted cells is in bounds and shows the bytes of their owners. -/
theorem slice_spec {b : WriteVectoredBuffer α N} {start : Nat} {value : List α}
    (hcells : ∀ k, k < value.length → b.cell (start + k) = value[k]?)
    (hfit : start + value.length ≤ b.owned.length) (hpos : 0 < b.owned.length) :
    ∃ slice, b.slice start (start + value.length) = some slice ∧
      slice.slices.length = value.length + 2 ∧ slice.totalSize = b.totalSize ∧
      slice.deref = value.map AsRef.asRef := by
  have hlength := b.slices_length (List.ne_nil_of_length_pos hpos)
  have hbound : start ≤ start + value.length + 2 ∧
      start + value.length + 2 ≤ b.slices.length := by omega
  have hslots : ((b.slices.take (start + value.length + 2)).drop start).length =
      value.length + 2 := by
    rw [List.length_drop, List.length_take]
    omega
  refine ⟨_, if_pos hbound, hslots, rfl, ?_⟩
  rw [VectoredSlice.deref, hslots]
  apply List.ext_getElem?
  intro k
  rw [List.getElem?_drop, List.getElem?_map]
  by_cases hk : k < value.length
  · have hcell := hcells k hk
    rw [List.getElem?_eq_getElem hk] at hcell
    obtain ⟨-, hslice⟩ := cell_eq_some_iff.mp hcell
    rw [List.getElem?_take_of_lt (by omega), List.getElem?_drop,
      List.getElem?_take_of_lt (by omega), List.getElem?_eq_getElem hk,
      Option.map_some, ← hslice]
    congr 1
    omega
  · rw [List.getElem?_eq_none (Nat.le_of_not_lt hk), Option.map_none,
      List.getElem?_eq_none]
    rw [List.length_take, hslots]
    omega

instance instLawfulBuffer : LawfulBuffer (WriteVectoredBuffer α N) :=
  LawfulBuffer.ofCells fromCells
    (fun slice value => slice.deref = value.map AsRef.asRef)
    (fun hcells hfit hpos => by
      obtain ⟨slice, hslice, -, -, hderef⟩ := slice_spec hcells hfit hpos
      exact ⟨slice, hslice, hderef⟩)
    (fun {b b' capacity} hresize => by
      cases N with
      | none =>
          cases hresize
          exact List.length_replicate
      | some n => cases hresize)

instance instLawfulDrain : LawfulDrain (WriteVectoredBuffer α N) where
  cell_default j := by
    change (default : WriteVectoredBuffer α N).cell j = none
    cases N with
    | none => rfl
    | some n =>
        rw [cell, default, join_replicate_none]
        rfl
  insertInto_fits := fromCells.insertInto_fits
  cell_remove hremove :=
    LawfulCellBuffer.cell_remove (B := WriteVectoredBuffer α N) hremove
  cell_clear := fromCells.cell_clear
  cell_resize {b b' capacity} hresize j := by
    cases N with
    | none =>
        cases hresize
        change cell _ j = none
        rw [cell, join_replicate_none]
        rfl
    | some n => cases hresize

end WriteVectoredBuffer

end SwapBufferQueue
