/-
Buffers as the queue sees them.  `Buffer` gathers the operations of the traits
`Buffer`, `InsertIntoBuffer`, `Resize` and `Drain`; `LawfulBuffer` states what
their safety sections promise, in terms of the logical content of each cell.
-/
import Mathlib.Tactic

namespace SwapBufferQueue

universe u v w

/-- The buffer operations called by the queue.  A value is the list of the
elements it inserts, so its `size()` is the length of that list.  The result
`none` is a panic (an index out of bounds) or a read of an uninitialized cell,
except for `resize`, where it means that the buffer type is not resizable. -/
class Buffer (B : Type u) (α : outParam (Type v)) (σ : outParam (Type w)) where
  default : B
  capacity : B → Nat
  insertInto : B → Nat → List α → Option B
  slice : B → Nat → Nat → Option σ
  /-- `Buffer::clear` of a range, with the elements it drops. -/
  clear : B → Nat → Nat → Option (List α × B)
  remove : B → Nat → Option (α × B)
  resize : B → Nat → Option B

/-- The contract of a buffer.  Nothing is promised outside the capacity, about
slices of a buffer without cells, or about the cells a value has been taken from. -/
class LawfulBuffer (B : Type u) {α : outParam (Type v)} {σ : outParam (Type w)}
    [Buffer B α σ] where
  /-- The value logically stored in a cell. -/
  cell : B → Nat → Option α
  /-- The slice dereferences to these elements. -/
  Shows : σ → List α → Prop
  capacity_insertInto {b b' : B} {index : Nat} {value : List α} :
    Buffer.insertInto b index value = some b' →
      Buffer.capacity b' = Buffer.capacity b
  insertInto_spec {b : B} {index : Nat} {value : List α} :
    index + value.length ≤ Buffer.capacity b →
      ∃ b', Buffer.insertInto b index value = some b' ∧
        ∀ j, cell b' j = if index ≤ j ∧ j < index + value.length
          then value[j - index]? else cell b j
  slice_spec {b : B} {start : Nat} {value : List α} :
    (∀ k, k < value.length → cell b (start + k) = value[k]?) →
      start + value.length ≤ Buffer.capacity b → 0 < Buffer.capacity b →
        ∃ slice, Buffer.slice b start (start + value.length) = some slice ∧
          Shows slice value
  clear_spec {b : B} {start : Nat} {value : List α} :
    (∀ k, k < value.length → cell b (start + k) = value[k]?) →
      start + value.length ≤ Buffer.capacity b →
        ∃ b', Buffer.clear b start (start + value.length) = some (value, b') ∧
          Buffer.capacity b' = Buffer.capacity b
  remove_spec {b : B} {index : Nat} {value : α} :
    cell b index = some value → index < Buffer.capacity b →
      ∃ b', Buffer.remove b index = some (value, b') ∧
        Buffer.capacity b' = Buffer.capacity b ∧
        ∀ j, j ≠ index → cell b' j = cell b j
  capacity_resize {b b' : B} {capacity : Nat} :
    Buffer.resize b capacity = some b' → Buffer.capacity b' = capacity

/-- A buffer that checks its indices and whose elements leave it when they are
removed or cleared, and which is created without any. -/
class LawfulDrain (B : Type u) {α : outParam (Type v)} {σ : outParam (Type w)}
    [Buffer B α σ] [LawfulBuffer B] : Prop where
  cell_default (j : Nat) : LawfulBuffer.cell (Buffer.default : B) j = none
  insertInto_fits {b b' : B} {index : Nat} {value : List α} : value ≠ [] →
    Buffer.insertInto b index value = some b' →
      index + value.length ≤ Buffer.capacity b
  cell_remove {b b' : B} {index : Nat} {value : α} :
    Buffer.remove b index = some (value, b') →
      ∀ j, LawfulBuffer.cell b' j =
        if j = index then none else LawfulBuffer.cell b j
  cell_clear {b b' : B} {start stop : Nat} {value : List α} :
    Buffer.clear b start stop = some (value, b') →
      ∀ j, LawfulBuffer.cell b' j =
        if start ≤ j ∧ j < stop then none else LawfulBuffer.cell b j
  cell_resize {b b' : B} {capacity : Nat} :
    Buffer.resize b capacity = some b' →
      ∀ j, LawfulBuffer.cell b' j = none

section Holds

variable {B : Type u} {α : Type v} {σ : Type w} [Buffer B α σ] [LawfulBuffer B]

/-- The buffer holds the list from the given index on. -/
def Holds (b : B) (start : Nat) (value : List α) : Prop :=
  ∀ k, k < value.length → LawfulBuffer.cell b (start + k) = value[k]?

theorem holds_nil (b : B) (start : Nat) : Holds b start ([] : List α) := by
  intro k hk
  simp at hk

theorem holds_insertInto {b b' : B} {index : Nat} {value : List α}
    (hfit : index + value.length ≤ Buffer.capacity b)
    (hinsert : Buffer.insertInto b index value = some b') :
    Holds b' index value := by
  obtain ⟨b'', hspec, hcell⟩ := LawfulBuffer.insertInto_spec hfit
  cases hinsert.symm.trans hspec
  intro k hk
  rw [hcell, if_pos ⟨by omega, by omega⟩]
  congr 1
  omega

theorem cell_insertInto_of_not_mem {b b' : B} {index : Nat} {value : List α}
    (hfit : index + value.length ≤ Buffer.capacity b)
    (hinsert : Buffer.insertInto b index value = some b')
    {j : Nat} (hj : ¬ (index ≤ j ∧ j < index + value.length)) :
    LawfulBuffer.cell b' j = LawfulBuffer.cell b j := by
  obtain ⟨b'', hspec, hcell⟩ := LawfulBuffer.insertInto_spec hfit
  cases hinsert.symm.trans hspec
  rw [hcell, if_neg hj]

end Holds

end SwapBufferQueue
