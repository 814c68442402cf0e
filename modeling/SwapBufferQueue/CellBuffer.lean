/-
Buffers whose values are inserted cell by cell: `VecBuffer`, `ArrayBuffer`, and
later the vectored ones.  A cell is an option, `none` standing for uninitialized
memory.  The loops of `insert_into` and `clear` are proved once for all of them.
-/
import SwapBufferQueue.Buffer

namespace SwapBufferQueue

universe u v w

/-- The one-cell operations of a buffer: `CellBuffer::insert` and
`Drain::remove`. -/
class CellBuffer (B : Type u) (α : outParam (Type v)) where
  capacity : B → Nat
  insert : B → Nat → α → Option B
  remove : B → Nat → Option (α × B)

/-- What one insert and one remove do to the cells. -/
class LawfulCellBuffer (B : Type u) {α : outParam (Type v)} [CellBuffer B α] where
  cell : B → Nat → Option α
  capacity_insert {b b' : B} {index : Nat} {value : α} :
    CellBuffer.insert b index value = some b' →
      CellBuffer.capacity b' = CellBuffer.capacity b
  insert_fits {b b' : B} {index : Nat} {value : α} :
    CellBuffer.insert b index value = some b' → index < CellBuffer.capacity b
  insert_spec {b : B} {index : Nat} (value : α) :
    index < CellBuffer.capacity b →
      ∃ b', CellBuffer.insert b index value = some b' ∧
        ∀ j, cell b' j = if j = index then some value else cell b j
  remove_spec {b : B} {index : Nat} {value : α} :
    cell b index = some value → ∃ b', CellBuffer.remove b index = some (value, b')
  capacity_remove {b b' : B} {index : Nat} {value : α} :
    CellBuffer.remove b index = some (value, b') →
      CellBuffer.capacity b' = CellBuffer.capacity b
  cell_remove {b b' : B} {index : Nat} {value : α} :
    CellBuffer.remove b index = some (value, b') →
      ∀ j, cell b' j = if j = index then none else cell b j

section Loops

variable {B : Type u} {α : Type v} [CellBuffer B α]

/-- `insert_into`: the elements are inserted one after another. -/
def insertAll : B → Nat → List α → Option B
  | b, _, [] => some b
  | b, index, value :: rest =>
      match CellBuffer.insert b index value with
      | none => none
      | some b' => insertAll b' (index + 1) rest

/-- The removes of the cells from an index on, with the values taken. -/
def removeAll : B → Nat → Nat → Option (List α × B)
  | b, _, 0 => some ([], b)
  | b, index, count + 1 =>
      match CellBuffer.remove b index with
      | none => none
      | some (value, b') =>
          match removeAll b' (index + 1) count with
          | none => none
          | some (values, b'') => some (value :: values, b'')

variable [LawfulCellBuffer B]

theorem capacity_insertAll {values : List α} {b b' : B} {index : Nat}
    (hinsert : insertAll b index values = some b') :
    CellBuffer.capacity b' = CellBuffer.capacity b := by
  induction values generalizing b index with
  | nil =>
      cases hinsert
      rfl
  | cons value rest ih =>
      rw [insertAll] at hinsert
      split at hinsert
      · cases hinsert
      · rename_i b'' hone
        rw [ih hinsert]
        exact LawfulCellBuffer.capacity_insert hone

theorem insertAll_fits {values : List α} (hne : values ≠ []) {b b' : B} {index : Nat}
    (hinsert : insertAll b index values = some b') :
    index + values.length ≤ CellBuffer.capacity b := by
  induction values generalizing b index with
  | nil => exact absurd rfl hne
  | cons value rest ih =>
      rw [insertAll] at hinsert
      split at hinsert
      · cases hinsert
      · rename_i b₁ hone
        have hfirst := LawfulCellBuffer.insert_fits hone
        rw [List.length_cons]
        by_cases hrest : rest = []
        · rw [hrest]
          exact hfirst
        · have hle := ih hrest hinsert
          rw [LawfulCellBuffer.capacity_insert hone] at hle
          omega

theorem insertAll_spec (values : List α) {b : B} {index : Nat}
    (hfit : index + values.length ≤ CellBuffer.capacity b) :
    ∃ b', insertAll b index values = some b' ∧
      ∀ j, LawfulCellBuffer.cell b' j =
        if index ≤ j ∧ j < index + values.length then values[j - index]?
        else LawfulCellBuffer.cell b j := by
  induction values generalizing b index with
  | nil =>
      refine ⟨b, rfl, fun j => ?_⟩
      rw [if_neg (by simp)]
  | cons value rest ih =>
      rw [List.length_cons] at hfit
      obtain ⟨b₁, hone, hcell⟩ := LawfulCellBuffer.insert_spec value
        (show index < CellBuffer.capacity b by omega)
      have hcapacity := LawfulCellBuffer.capacity_insert hone
      obtain ⟨b₂, hrest, hcells⟩ :=
        ih (show index + 1 + rest.length ≤ CellBuffer.capacity b₁ by omega)
      refine ⟨b₂, ?_, fun j => ?_⟩
      · rw [insertAll, hone]
        exact hrest
      · rw [hcells, hcell]
        rcases Nat.lt_trichotomy j index with hlt | rfl | hgt
        · rw [if_neg (by omega), if_neg (by omega), if_neg (by omega)]
        · rw [if_neg (by omega), if_pos rfl, if_pos ⟨le_rfl, by simp⟩, Nat.sub_self,
            List.getElem?_cons_zero]
        · obtain ⟨k, rfl⟩ : ∃ k, j = index + 1 + k := ⟨j - (index + 1), by omega⟩
          have hk : index + 1 + k - index = k + 1 := by omega
          rw [if_neg (show ¬ index + 1 + k = index by omega), hk,
            List.getElem?_cons_succ, Nat.add_sub_cancel_left, List.length_cons]
          by_cases hin : k < rest.length
          · rw [if_pos ⟨by omega, by omega⟩, if_pos ⟨by omega, by omega⟩]
          · rw [if_neg (by omega), if_neg (by omega)]

omit [LawfulCellBuffer B] in
theorem removeAll_succ_inv {count : Nat} {b b' : B} {index : Nat} {values : List α}
    (hremove : removeAll b index (count + 1) = some (values, b')) :
    ∃ value b₁ rest, CellBuffer.remove b index = some (value, b₁) ∧
      removeAll b₁ (index + 1) count = some (rest, b') ∧ values = value :: rest := by
  rw [removeAll] at hremove
  split at hremove
  · cases hremove
  · rename_i value b₁ hone
    split at hremove
    · cases hremove
    · rename_i rest b₂ hrest
      cases hremove
      exact ⟨value, b₁, rest, hone, hrest, rfl⟩

theorem capacity_removeAll {count : Nat} {b b' : B} {index : Nat} {values : List α}
    (hremove : removeAll b index count = some (values, b')) :
    CellBuffer.capacity b' = CellBuffer.capacity b := by
  induction count generalizing b index values with
  | zero =>
      cases hremove
      rfl
  | succ count ih =>
      obtain ⟨value, b₁, rest, hone, hrest, -⟩ := removeAll_succ_inv hremove
      rw [ih hrest]
      exact LawfulCellBuffer.capacity_remove hone

theorem cell_removeAll {count : Nat} {b b' : B} {index : Nat} {values : List α}
    (hremove : removeAll b index count = some (values, b')) (j : Nat) :
    LawfulCellBuffer.cell b' j =
      if index ≤ j ∧ j < index + count then none else LawfulCellBuffer.cell b j := by
  induction count generalizing b index values with
  | zero =>
      cases hremove
      rw [if_neg (by omega)]
  | succ count ih =>
      obtain ⟨value, b₁, rest, hone, hrest, -⟩ := removeAll_succ_inv hremove
      rw [ih hrest, LawfulCellBuffer.cell_remove hone]
      rcases Nat.lt_trichotomy j index with hlt | rfl | hgt
      · rw [if_neg (by omega), if_neg (by omega), if_neg (by omega)]
      · rw [if_neg (by omega), if_pos rfl, if_pos ⟨le_rfl, by omega⟩]
      · by_cases hin : j < index + 1 + count
        · rw [if_pos ⟨hgt, hin⟩, if_pos ⟨by omega, by omega⟩]
        · rw [if_neg (by omega), if_neg (by omega), if_neg (by omega)]

theorem removeAll_spec (values : List α) {b : B} {index : Nat}
    (hcells : ∀ k, k < values.length →
      LawfulCellBuffer.cell b (index + k) = values[k]?) :
    ∃ b', removeAll b index values.length = some (values, b') := by
  induction values generalizing b index with
  | nil => exact ⟨b, rfl⟩
  | cons value rest ih =>
      have hfirst := hcells 0 (by simp)
      rw [Nat.add_zero, List.getElem?_cons_zero] at hfirst
      obtain ⟨b₁, hone⟩ := LawfulCellBuffer.remove_spec hfirst
      have hnext : ∀ k, k < rest.length →
          LawfulCellBuffer.cell b₁ (index + 1 + k) = rest[k]? := by
        intro k hk
        have hcell := hcells (k + 1) (by simpa using hk)
        rw [LawfulCellBuffer.cell_remove hone, if_neg (by omega)]
        rwa [List.getElem?_cons_succ, ← Nat.add_assoc, Nat.add_right_comm] at hcell
      obtain ⟨b₂, hrest⟩ := ih hnext
      refine ⟨b₂, ?_⟩
      rw [List.length_cons, removeAll, hone]
      simp only [hrest]

end Loops

section Cells

variable {α : Type v}

/-- `cells[index].set(value)`: nothing is dropped, the index is checked. -/
def setCell (cells : List (Option α)) (index : Nat) (value : α) :
    Option (List (Option α)) :=
  if index < cells.length then some (cells.set index (some value)) else none

/-- The value moved out of a cell, which must be initialized. -/
def takeCell (cells : List (Option α)) (index : Nat) :
    Option (α × List (Option α)) :=
  match cells[index]? with
  | some (some value) => some (value, cells.set index none)
  | _ => none

/-- `&mut cells[start..stop]` read as initialized memory. -/
def readCells (cells : List (Option α)) (start stop : Nat) : Option (List α) :=
  if start ≤ stop ∧ stop ≤ cells.length then
    ((cells.take stop).drop start).mapM id
  else none

theorem setCell_spec {cells : List (Option α)} {index : Nat} (value : α)
    (hindex : index < cells.length) :
    setCell cells index value = some (cells.set index (some value)) := by
  rw [setCell, if_pos hindex]

theorem setCell_fits {cells cells' : List (Option α)} {index : Nat} {value : α}
    (hset : setCell cells index value = some cells') : index < cells.length := by
  rw [setCell] at hset
  split at hset
  · assumption
  · cases hset

theorem length_setCell {cells cells' : List (Option α)} {index : Nat} {value : α}
    (hset : setCell cells index value = some cells') :
    cells'.length = cells.length := by
  rw [setCell] at hset
  split at hset
  · cases hset
    simp
  · cases hset

theorem takeCell_eq_some_iff {cells cells' : List (Option α)} {index : Nat} {value : α} :
    takeCell cells index = some (value, cells') ↔
      cells[index]? = some (some value) ∧ cells' = cells.set index none := by
  unfold takeCell
  split
  · rename_i first hfirst
    rw [hfirst]
    constructor
    · intro hsome
      cases hsome
      exact ⟨rfl, rfl⟩
    · rintro ⟨hvalue, rfl⟩
      cases hvalue
      rfl
  · rename_i hnone
    constructor
    · intro hsome
      cases hsome
    · rintro ⟨hvalue, -⟩
      exact absurd hvalue (hnone value)

theorem join_set_some {cells : List (Option α)} {index : Nat} (value : α)
    (hindex : index < cells.length) (j : Nat) :
    ((cells.set index (some value))[j]?).join =
      if j = index then some value else (cells[j]?).join := by
  by_cases hj : j = index
  · subst hj
    rw [List.getElem?_set_self hindex, if_pos rfl, Option.join_some]
  · rw [List.getElem?_set_ne (Ne.symm hj), if_neg hj]

theorem join_set_none (cells : List (Option α)) (index j : Nat) :
    ((cells.set index none)[j]?).join =
      if j = index then none else (cells[j]?).join := by
  by_cases hj : j = index
  · subst hj
    rw [if_pos rfl, List.getElem?_set]
    split
    · split <;> rfl
    · rename_i hne
      exact absurd rfl hne
  · rw [List.getElem?_set_ne (Ne.symm hj), if_neg hj]

theorem join_replicate_none (n j : Nat) :
    ((List.replicate n (none : Option α))[j]?).join = none := by
  rw [List.getElem?_replicate]
  split <;> rfl

theorem readCells_spec {cells : List (Option α)} {start : Nat} {values : List α}
    (hcells : ∀ k, k < values.length → (cells[start + k]?).join = values[k]?)
    (hfit : start + values.length ≤ cells.length) :
    readCells cells start (start + values.length) = some values := by
  have hrange : (cells.take (start + values.length)).drop start =
      values.map some := by
    apply List.ext_getElem?
    intro k
    rw [List.getElem?_drop, List.getElem?_map]
    by_cases hk : k < values.length
    · have hcell := hcells k hk
      have hlt : start + k < cells.length := by omega
      rw [List.getElem?_take_of_lt (by omega), List.getElem?_eq_getElem hk,
        List.getElem?_eq_getElem hlt]
      rw [List.getElem?_eq_getElem hk, List.getElem?_eq_getElem hlt,
        Option.join_some] at hcell
      rw [hcell]
      rfl
    · rw [List.getElem?_eq_none (Nat.le_of_not_lt hk), List.getElem?_eq_none]
      · rfl
      · rw [List.length_take]
        omega
  rw [readCells, if_pos ⟨Nat.le_add_right _ _, hfit⟩, hrange]
  clear hcells hfit hrange
  induction values with
  | nil => rfl
  | cons value rest ih =>
      rw [List.map_cons, List.mapM_cons, ih]
      rfl

end Cells

section OfCells

variable {B : Type u} {α : Type v} {σ : Type w} [CellBuffer B α] [Buffer B α σ]

/-- The buffer operations are loops of the cell operations, up to what `clear`
resets before its loop. -/
structure FromCells (B : Type u) {α : Type v} {σ : Type w} [CellBuffer B α]
    [Buffer B α σ] [LawfulCellBuffer B] (reset : B → B) : Prop where
  capacity (b : B) : Buffer.capacity b = CellBuffer.capacity b
  insertInto (b : B) (index : Nat) (value : List α) :
    Buffer.insertInto b index value = insertAll b index value
  clear (b : B) (start stop : Nat) :
    Buffer.clear b start stop = removeAll (reset b) start (stop - start)
  remove (b : B) (index : Nat) : Buffer.remove b index = CellBuffer.remove b index
  capacity_reset (b : B) : CellBuffer.capacity (reset b) = CellBuffer.capacity b
  cell_reset (b : B) (j : Nat) :
    LawfulCellBuffer.cell (reset b) j = LawfulCellBuffer.cell b j

variable [LawfulCellBuffer B] {reset : B → B}

/-- The laws of a buffer, from those of its cells. -/
@[reducible]
def LawfulBuffer.ofCells (hcells : FromCells B reset) (Shows : σ → List α → Prop)
    (hslice : ∀ {b : B} {start : Nat} {value : List α},
      (∀ k, k < value.length →
        LawfulCellBuffer.cell b (start + k) = value[k]?) →
        start + value.length ≤ CellBuffer.capacity b → 0 < CellBuffer.capacity b →
          ∃ slice, Buffer.slice b start (start + value.length) = some slice ∧
            Shows slice value)
    (hresize : ∀ {b b' : B} {capacity : Nat}, Buffer.resize b capacity = some b' →
      CellBuffer.capacity b' = capacity) : LawfulBuffer B where
  cell := LawfulCellBuffer.cell
  Shows := Shows
  capacity_insertInto {b b' index value} hinsert := by
    rw [hcells.insertInto] at hinsert
    rw [hcells.capacity, hcells.capacity]
    exact capacity_insertAll hinsert
  insertInto_spec {b index value} hfit := by
    rw [hcells.capacity] at hfit
    rw [hcells.insertInto]
    exact insertAll_spec value hfit
  slice_spec {b start value} hvalue hfit hpos := by
    rw [hcells.capacity] at hfit hpos
    exact hslice hvalue hfit hpos
  clear_spec {b start value} hvalue _ := by
    have hreset : ∀ k, k < value.length →
        LawfulCellBuffer.cell (reset b) (start + k) = value[k]? := by
      intro k hk
      rw [hcells.cell_reset]
      exact hvalue k hk
    obtain ⟨b', hremove⟩ := removeAll_spec value hreset
    refine ⟨b', ?_, ?_⟩
    · rw [hcells.clear, Nat.add_sub_cancel_left]
      exact hremove
    · rw [hcells.capacity, hcells.capacity, ← hcells.capacity_reset b]
      exact capacity_removeAll hremove
  remove_spec {b index value} hcell _ := by
    obtain ⟨b', hremove⟩ := LawfulCellBuffer.remove_spec hcell
    refine ⟨b', (hcells.remove b index).trans hremove, ?_, fun j hj => ?_⟩
    · rw [hcells.capacity, hcells.capacity]
      exact LawfulCellBuffer.capacity_remove hremove
    · rw [LawfulCellBuffer.cell_remove hremove, if_neg hj]
  capacity_resize {b b' capacity} hsome := by
    rw [hcells.capacity]
    exact hresize hsome

theorem FromCells.insertInto_fits (hcells : FromCells B reset) {b b' : B} {index : Nat}
    {value : List α} (hne : value ≠ [])
    (hinsert : Buffer.insertInto b index value = some b') :
    index + value.length ≤ Buffer.capacity b := by
  rw [hcells.insertInto] at hinsert
  rw [hcells.capacity]
  exact insertAll_fits hne hinsert

theorem FromCells.cell_clear (hcells : FromCells B reset) {b b' : B}
    {start stop : Nat} {value : List α}
    (hclear : Buffer.clear b start stop = some (value, b')) (j : Nat) :
    LawfulCellBuffer.cell b' j =
      if start ≤ j ∧ j < stop then none else LawfulCellBuffer.cell b j := by
  rw [hcells.clear] at hclear
  rw [cell_removeAll hclear, hcells.cell_reset]
  by_cases hin : start ≤ j ∧ j < stop
  · rw [if_pos ⟨hin.1, by omega⟩, if_pos hin]
  · rw [if_neg (by omega), if_neg hin]

end OfCells

section VecBuffer

structure VecBuffer (α : Type v) where
  cells : List (Option α)
deriving Repr, DecidableEq

variable {α : Type v}

namespace VecBuffer

/-- `assume_init_read` moves the value out, so that the cell has to be taken as
uninitialized afterwards. -/
instance instCellBuffer : CellBuffer (VecBuffer α) α where
  capacity b := b.cells.length
  insert b index value := (setCell b.cells index value).map mk
  remove b index := (takeCell b.cells index).map fun taken => (taken.1, ⟨taken.2⟩)

instance instBuffer : Buffer (VecBuffer α) α (List α) where
  default := ⟨[]⟩
  capacity b := b.cells.length
  insertInto := insertAll
  slice b := readCells b.cells
  clear b start stop := removeAll b start (stop - start)
  remove := CellBuffer.remove
  resize _ capacity := some ⟨List.replicate capacity none⟩

instance instLawfulCellBuffer : LawfulCellBuffer (VecBuffer α) where
  cell b j := (b.cells[j]?).join
  capacity_insert hinsert := by
    obtain ⟨cells, hset, rfl⟩ := Option.map_eq_some_iff.mp hinsert
    exact length_setCell hset
  insert_fits hinsert := by
    obtain ⟨cells, hset, rfl⟩ := Option.map_eq_some_iff.mp hinsert
    exact setCell_fits hset
  insert_spec {b index} value hindex := by
    refine ⟨⟨b.cells.set _ (some value)⟩, ?_, join_set_some value hindex⟩
    exact Option.map_eq_some_iff.mpr ⟨_, setCell_spec value hindex, rfl⟩
  remove_spec hcell := by
    refine ⟨_, Option.map_eq_some_iff.mpr ⟨_, takeCell_eq_some_iff.mpr ⟨?_, rfl⟩, rfl⟩⟩
    exact Option.join_eq_some_iff.mp hcell
  capacity_remove hremove := by
    obtain ⟨taken, htake, heq⟩ := Option.map_eq_some_iff.mp hremove
    cases heq
    obtain ⟨-, hcells⟩ := takeCell_eq_some_iff.mp htake
    change taken.2.length = _
    rw [hcells, List.length_set]
    rfl
  cell_remove hremove j := by
    obtain ⟨taken, htake, heq⟩ := Option.map_eq_some_iff.mp hremove
    cases heq
    obtain ⟨-, hcells⟩ := takeCell_eq_some_iff.mp htake
    simp only [hcells]
    exact join_set_none _ _ j

theorem fromCells : FromCells (VecBuffer α) id :=
  ⟨fun _ => rfl, fun _ _ _ => rfl, fun _ _ _ => rfl, fun _ _ => rfl, fun _ => rfl,
    fun _ _ => rfl⟩

instance instLawfulBuffer : LawfulBuffer (VecBuffer α) :=
  LawfulBuffer.ofCells fromCells (fun slice value => slice = value)
    (fun hcells hfit _ => ⟨_, readCells_spec hcells hfit, rfl⟩)
    (fun hresize => by
      cases hresize
      exact List.length_replicate)

instance instLawfulDrain : LawfulDrain (VecBuffer α) where
  cell_default _ := rfl
  cell_remove := LawfulCellBuffer.cell_remove
  insertInto_fits := fromCells.insertInto_fits
  cell_clear := fromCells.cell_clear
  cell_resize hresize j := by
    cases hresize
    exact join_replicate_none _ j

end VecBuffer

end VecBuffer

section ArrayBuffer

structure ArrayBuffer (α : Type v) (N : Nat) where
  cells : List (Option α)
  length_eq : cells.length = N
deriving Repr, DecidableEq

variable {α : Type v} {N : Nat}

namespace ArrayBuffer

theorem eq_of_cells {b b' : ArrayBuffer α N} (hcells : b.cells = b'.cells) : b = b' := by
  cases b
  cases b'
  cases hcells
  rfl

instance instCellBuffer : CellBuffer (ArrayBuffer α N) α where
  capacity b := b.cells.length
  insert b index value :=
    match hset : setCell b.cells index value with
    | none => none
    | some cells => some ⟨cells, (length_setCell hset).trans b.length_eq⟩
  remove b index :=
    match htake : takeCell b.cells index with
    | none => none
    | some (value, cells) => some (value, ⟨cells, by
        rw [(takeCell_eq_some_iff.mp htake).2, List.length_set, b.length_eq]⟩)

/-- Arrays are not resizable. -/
instance instBuffer : Buffer (ArrayBuffer α N) α (List α) where
  default := ⟨List.replicate N none, List.length_replicate⟩
  capacity b := b.cells.length
  insertInto := insertAll
  slice b := readCells b.cells
  clear b start stop := removeAll b start (stop - start)
  remove := CellBuffer.remove
  resize _ _ := none

theorem insert_eq_some_iff {b b' : ArrayBuffer α N} {index : Nat} {value : α} :
    CellBuffer.insert b index value = some b' ↔
      setCell b.cells index value = some b'.cells := by
  simp only [CellBuffer.insert]
  split
  · rename_i hnone
    simp [hnone]
  · rename_i cells hsome
    constructor
    · intro heq
      cases heq
      exact hsome
    · intro heq
      rw [Option.some.injEq]
      exact eq_of_cells (Option.some.inj (hsome.symm.trans heq))

theorem remove_eq_some_iff {b b' : ArrayBuffer α N} {index : Nat} {value : α} :
    CellBuffer.remove b index = some (value, b') ↔
      b.cells[index]? = some (some value) ∧ b'.cells = b.cells.set index none := by
  rw [← takeCell_eq_some_iff]
  simp only [CellBuffer.remove]
  split
  · rename_i hnone
    simp [hnone]
  · rename_i value' cells hsome
    constructor
    · intro heq
      cases heq
      exact hsome
    · intro heq
      have hpair := Option.some.inj (hsome.symm.trans heq)
      cases hpair
      rfl

instance instLawfulCellBuffer : LawfulCellBuffer (ArrayBuffer α N) where
  cell b j := (b.cells[j]?).join
  capacity_insert hinsert := length_setCell (insert_eq_some_iff.mp hinsert)
  insert_fits hinsert := setCell_fits (insert_eq_some_iff.mp hinsert)
  insert_spec {b index} value hindex := by
    refine ⟨⟨b.cells.set index (some value), ?_⟩, insert_eq_some_iff.mpr
      (setCell_spec value hindex), join_set_some value hindex⟩
    rw [List.length_set, b.length_eq]
  remove_spec {b index value} hcell := by
    refine ⟨⟨b.cells.set index none, ?_⟩, remove_eq_some_iff.mpr ⟨?_, rfl⟩⟩
    · rw [List.length_set, b.length_eq]
    · exact Option.join_eq_some_iff.mp hcell
  capacity_remove {b b' index value} _ := by
    change b'.cells.length = b.cells.length
    rw [b'.length_eq, b.length_eq]
  cell_remove {b b' index value} hremove j := by
    rw [(remove_eq_some_iff.mp hremove).2]
    exact join_set_none _ _ j

theorem fromCells : FromCells (ArrayBuffer α N) id :=
  ⟨fun _ => rfl, fun _ _ _ => rfl, fun _ _ _ => rfl, fun _ _ => rfl, fun _ => rfl,
    fun _ _ => rfl⟩

instance instLawfulBuffer : LawfulBuffer (ArrayBuffer α N) :=
  LawfulBuffer.ofCells fromCells (fun slice value => slice = value)
    (fun hcells hfit _ => ⟨_, readCells_spec hcells hfit, rfl⟩)
    (fun hresize => by cases hresize)

instance instLawfulDrain : LawfulDrain (ArrayBuffer α N) where
  cell_default j := join_replicate_none N j
  cell_remove := LawfulCellBuffer.cell_remove
  insertInto_fits := fromCells.insertInto_fits
  cell_clear := fromCells.cell_clear
  cell_resize hresize := by cases hresize

end ArrayBuffer

end ArrayBuffer

end SwapBufferQueue
