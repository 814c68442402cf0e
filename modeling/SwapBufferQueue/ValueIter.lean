/-
`ValueIter`: an iterator is inserted by asking `next` as often as its `len` says.  The room
is reserved with one answer of `len`, and the loop goes by a second one; a safe iterator
promises nothing about the two, nor about what `next` yields.  When the insertion keeps to
the contract of `insert_into` all the same, whatever the buffer.
-/
import SwapBufferQueue.CellBuffer

namespace SwapBufferQueue

universe u v

/-- An iterator as `ValueIter` uses it: what `len` says when the room is reserved, what it
says inside of `insert_into`, and what `next` yields.  `len` is a `usize`. -/
structure ValueIter (α : Type v) where
  size : Nat
  len : Nat
  items : List α
  len_lt : len < 2 ^ 64

/-- How an insertion ends: it returns, the `expect` fails, an index is out of bounds, or the
end of the range overflows. -/
inductive Insertion (B : Type u) where
  | returned (b : B)
  | exhausted (b : B)
  | outOfBounds (b : B)
  | overflowed (b : B)

variable {B : Type u} {α : Type v} [CellBuffer B α]

/-- The loop of `ValueIter::insert_into`. -/
def insertIter : B → Nat → Nat → List α → Insertion B
  | b, _, 0, _ => .returned b
  | b, _, _ + 1, [] => .exhausted b
  | b, index, count + 1, item :: rest =>
      match CellBuffer.insert b index item with
      | none => .outOfBounds b
      | some b' => insertIter b' (index + 1) count rest

/-- `ValueIter::insert_into`, over `index..index + len`.  The sum is one of `usize`: it
panics in a build with overflow checks, and wraps to the end of an empty range without. -/
def ValueIter.insertInto (checked : Bool) (iter : ValueIter α) (b : B) (index : Nat) :
    Insertion B :=
  if index + iter.len < 2 ^ 64 then insertIter b index iter.len iter.items
  else if checked then .overflowed b
  else insertIter b index ((index + iter.len) % 2 ^ 64 - index) iter.items

section Loop

variable [LawfulCellBuffer B] {len : Nat} {items : List α} {b : B} {index : Nat}

/-- The loop inserts what the iterator yields, up to the length it goes by. -/
theorem insertIter_eq (hfits : index + (items.take len).length ≤ CellBuffer.capacity b) :
    ∃ b', insertAll b index (items.take len) = some b' ∧
      insertIter b index len items =
        if len ≤ items.length then .returned b' else .exhausted b' := by
  induction len generalizing b index items with
  | zero => exact ⟨b, rfl, rfl⟩
  | succ len ih =>
      cases items with
      | nil => exact ⟨b, rfl, rfl⟩
      | cons item rest =>
          rw [List.take_succ_cons, List.length_cons] at hfits
          obtain ⟨b₁, hone, -⟩ := LawfulCellBuffer.insert_spec item
            (show index < CellBuffer.capacity b by omega)
          have hcapacity := LawfulCellBuffer.capacity_insert hone
          obtain ⟨b', hall, hloop⟩ := ih (show index + 1 + (rest.take len).length ≤
            CellBuffer.capacity b₁ by omega)
          refine ⟨b', ?_, ?_⟩
          · rw [List.take_succ_cons, insertAll, hone]
            exact hall
          · rw [insertIter, hone]
            simp only [List.length_cons, Nat.succ_le_succ_iff]
            exact hloop

/-- A loop that fits in the buffer writes its range and nothing else. -/
theorem insertIter_spec (hfits : index + (items.take len).length ≤ CellBuffer.capacity b) :
    ∃ b', (∀ j, LawfulCellBuffer.cell b' j =
        if index ≤ j ∧ j < index + (items.take len).length then (items.take len)[j - index]?
        else LawfulCellBuffer.cell b j) ∧
      insertIter b index len items =
        if len ≤ items.length then .returned b' else .exhausted b' := by
  obtain ⟨b', hall, hloop⟩ := insertIter_eq hfits
  obtain ⟨b'', hall', hcells⟩ := insertAll_spec _ hfits
  cases hall.symm.trans hall'
  exact ⟨b', hcells, hloop⟩

/-- A loop that does not fit fills the buffer up to its end, and panics there. -/
theorem insertIter_overruns (hle : index ≤ CellBuffer.capacity b)
    (hlt : CellBuffer.capacity b < index + (items.take len).length) :
    ∃ b', (∀ j, LawfulCellBuffer.cell b' j =
        if index ≤ j ∧ j < CellBuffer.capacity b then items[j - index]?
        else LawfulCellBuffer.cell b j) ∧
      insertIter b index len items = .outOfBounds b' := by
  induction len generalizing b index items with
  | zero =>
      rw [List.take_zero, List.length_nil] at hlt
      omega
  | succ len ih =>
      cases items with
      | nil =>
          rw [List.take_nil, List.length_nil] at hlt
          omega
      | cons item rest =>
          rw [List.take_succ_cons, List.length_cons] at hlt
          by_cases hend : index = CellBuffer.capacity b
          · refine ⟨b, fun j => ?_, ?_⟩
            · rw [if_neg (by omega)]
            · rw [insertIter]
              split
              · rfl
              · rename_i b₁ hone
                have hinside := LawfulCellBuffer.insert_fits hone
                omega
          · obtain ⟨b₁, hone, hcell⟩ := LawfulCellBuffer.insert_spec item
              (show index < CellBuffer.capacity b by omega)
            have hcapacity := LawfulCellBuffer.capacity_insert hone
            obtain ⟨b', hcells, hloop⟩ := ih (show index + 1 ≤ CellBuffer.capacity b₁ by omega)
              (show CellBuffer.capacity b₁ < index + 1 + (rest.take len).length by omega)
            refine ⟨b', fun j => ?_, ?_⟩
            · rw [hcells, hcapacity, hcell]
              rcases Nat.lt_trichotomy j index with hj | rfl | hj
              · rw [if_neg (by omega), if_neg (by omega), if_neg (by omega)]
              · rw [if_neg (by omega), if_pos rfl, if_pos (by omega), Nat.sub_self,
                  List.getElem?_cons_zero]
              · obtain ⟨k, rfl⟩ : ∃ k, j = index + 1 + k := ⟨j - (index + 1), by omega⟩
                rw [if_neg (show ¬ index + 1 + k = index by omega), Nat.add_sub_cancel_left,
                  show index + 1 + k - index = k + 1 by omega, List.getElem?_cons_succ]
                by_cases hin : index + 1 + k < CellBuffer.capacity b
                · rw [if_pos (by omega), if_pos (by omega)]
                · rw [if_neg (by omega), if_neg (by omega)]
            · rw [insertIter, hone]
              exact hloop

end Loop

/-- The contract of `insert_into`: a returned insertion has filled the reserved cells with
the first elements of the iterator, and no insertion touches another cell. -/
def ValueIter.Confined [LawfulCellBuffer B] (checked : Bool) (iter : ValueIter α) (b : B)
    (index : Nat) : Prop :=
  let outside (b' : B) := ∀ j, ¬ (index ≤ j ∧ j < index + iter.size) →
    LawfulCellBuffer.cell b' j = LawfulCellBuffer.cell b j
  match iter.insertInto checked b index with
  | .returned b' => outside b' ∧ iter.size ≤ iter.items.length ∧
      ∀ k, k < iter.size → LawfulCellBuffer.cell b' (index + k) = iter.items[k]?
  | .exhausted b' => outside b'
  | .outOfBounds b' => outside b'
  | .overflowed b' => outside b'

/-- The loop does not write more elements than the room has cells, or the room ends the
buffer; if the iterator does not end first, the loop fills the room.  An overflow is caught,
or there is nothing to fill. -/
def ValueIter.Keeps (checked : Bool) (iter : ValueIter α) (capacity index : Nat) : Prop :=
  if index + iter.len < 2 ^ 64 then
    (min iter.len iter.items.length ≤ iter.size ∨ index + iter.size = capacity) ∧
      (iter.len ≤ iter.items.length → iter.size ≤ iter.len)
  else checked = true ∨ iter.size = 0

instance ValueIter.instDecidableKeeps (checked : Bool) (iter : ValueIter α)
    (capacity index : Nat) : Decidable (iter.Keeps checked capacity index) :=
  inferInstanceAs (Decidable (ite _ _ _))

section Contract

variable [LawfulCellBuffer B] {checked : Bool} {iter : ValueIter α} {b : B} {index : Nat}

omit [LawfulCellBuffer B] in
/-- A range whose end has wrapped is empty. -/
theorem ValueIter.insertInto_wrapped (hoverflow : ¬ index + iter.len < 2 ^ 64)
    (hindex : index < 2 ^ 64) :
    iter.insertInto false b index = .returned b := by
  have hlen := iter.len_lt
  rw [ValueIter.insertInto, if_neg hoverflow, if_neg (by decide),
    show (index + iter.len) % 2 ^ 64 - index = 0 by omega, insertIter]

/-- What an insertion of an iterator does when its range does not overflow. -/
theorem ValueIter.insertInto_spec (checked : Bool) (hsum : index + iter.len < 2 ^ 64)
    (hle : index ≤ CellBuffer.capacity b) :
    ∃ b', (∀ j, LawfulCellBuffer.cell b' j =
        if index ≤ j ∧ j < index + min (min iter.len iter.items.length)
          (CellBuffer.capacity b - index) then iter.items[j - index]?
        else LawfulCellBuffer.cell b j) ∧
      iter.insertInto checked b index =
        if CellBuffer.capacity b < index + min iter.len iter.items.length then .outOfBounds b'
        else if iter.len ≤ iter.items.length then .returned b' else .exhausted b' := by
  have hlength : (iter.items.take iter.len).length = min iter.len iter.items.length :=
    List.length_take
  rw [ValueIter.insertInto, if_pos hsum]
  by_cases hlt : CellBuffer.capacity b < index + min iter.len iter.items.length
  · obtain ⟨b', hcells, hloop⟩ := insertIter_overruns hle (hlength.symm ▸ hlt)
    refine ⟨b', fun j => ?_, by rw [if_pos hlt, hloop]⟩
    rw [hcells, show index + min (min iter.len iter.items.length)
      (CellBuffer.capacity b - index) = CellBuffer.capacity b by omega]
  · obtain ⟨b', hcells, hloop⟩ := insertIter_spec
      (show index + (iter.items.take iter.len).length ≤ CellBuffer.capacity b by omega)
    refine ⟨b', fun j => ?_, by rw [if_neg hlt, hloop]⟩
    rw [hcells, hlength, show min (min iter.len iter.items.length)
      (CellBuffer.capacity b - index) = min iter.len iter.items.length by omega]
    split
    · rw [List.getElem?_take, if_pos (by omega)]
    · rfl

/-- An iterator that keeps to its room keeps to the contract, whatever is in the buffer. -/
theorem ValueIter.confined_of_keeps (hfits : index + iter.size ≤ CellBuffer.capacity b)
    (husize : CellBuffer.capacity b < 2 ^ 64)
    (hkeeps : iter.Keeps checked (CellBuffer.capacity b) index) :
    iter.Confined checked b index := by
  unfold ValueIter.Keeps at hkeeps
  split at hkeeps
  · rename_i hsum
    obtain ⟨hroom, hfills⟩ := hkeeps
    obtain ⟨b', hcells, hinsert⟩ := iter.insertInto_spec checked hsum
      (show index ≤ CellBuffer.capacity b by omega)
    have houtside : ∀ j, ¬ (index ≤ j ∧ j < index + iter.size) →
        LawfulCellBuffer.cell b' j = LawfulCellBuffer.cell b j := by
      intro j hj
      rw [hcells, if_neg (by omega)]
    rw [ValueIter.Confined, hinsert]
    by_cases hlt : CellBuffer.capacity b < index + min iter.len iter.items.length
    · rw [if_pos hlt]
      exact houtside
    · rw [if_neg hlt]
      by_cases hlen : iter.len ≤ iter.items.length
      · rw [if_pos hlen]
        have hsize := hfills hlen
        refine ⟨houtside, by omega, fun k hk => ?_⟩
        rw [hcells, if_pos (by omega), Nat.add_sub_cancel_left]
      · rw [if_neg hlen]
        exact houtside
  · rename_i hoverflow
    cases checked with
    | true =>
        rw [ValueIter.Confined, ValueIter.insertInto, if_neg hoverflow, if_pos rfl]
        exact fun _ _ => rfl
    | false =>
        have hzero : iter.size = 0 := hkeeps.resolve_left (by decide)
        rw [ValueIter.Confined, iter.insertInto_wrapped hoverflow (by omega)]
        exact ⟨fun _ _ => rfl, by omega, fun k hk => absurd hk (by omega)⟩

/-- Where nothing has been inserted behind the start of the room, an iterator that keeps to
the contract keeps to its room. -/
theorem ValueIter.keeps_of_confined (hfits : index + iter.size ≤ CellBuffer.capacity b)
    (husize : CellBuffer.capacity b < 2 ^ 64)
    (hempty : ∀ j, index ≤ j → LawfulCellBuffer.cell b j = none)
    (hconfined : iter.Confined checked b index) :
    iter.Keeps checked (CellBuffer.capacity b) index := by
  unfold ValueIter.Keeps
  split
  · rename_i hsum
    obtain ⟨b', hcells, hinsert⟩ := iter.insertInto_spec checked hsum
      (show index ≤ CellBuffer.capacity b by omega)
    -- The cell behind the room is written as soon as the loop gets there.
    have hinside : (∀ j, ¬ (index ≤ j ∧ j < index + iter.size) →
        LawfulCellBuffer.cell b' j = LawfulCellBuffer.cell b j) →
        min iter.len iter.items.length ≤ iter.size ∨
          index + iter.size = CellBuffer.capacity b := by
      intro houtside
      by_contra hnot
      obtain ⟨hmore, hbehind⟩ := not_or.mp hnot
      have hcell := houtside (index + iter.size) (by omega)
      rw [hempty _ (by omega), hcells, if_pos (by omega), Nat.add_sub_cancel_left,
        List.getElem?_eq_none_iff] at hcell
      omega
    rw [ValueIter.Confined, hinsert] at hconfined
    split at hconfined
    · rename_i b₁ hreturned
      have hlen : iter.len ≤ iter.items.length := by
        by_contra hlen
        rw [if_neg hlen] at hreturned
        split at hreturned <;> cases hreturned
      have hlt : ¬ CellBuffer.capacity b < index + min iter.len iter.items.length := by
        intro hlt
        rw [if_pos hlt] at hreturned
        cases hreturned
      rw [if_neg hlt, if_pos hlen] at hreturned
      cases hreturned
      obtain ⟨houtside, hitems, hfilled⟩ := hconfined
      refine ⟨hinside houtside, fun _ => Nat.le_of_not_lt fun hshort => ?_⟩
      have hmissing := hfilled iter.len hshort
      rw [hcells, if_neg (by omega), hempty _ (by omega)] at hmissing
      have hend := List.getElem?_eq_none_iff.mp hmissing.symm
      omega
    · rename_i b₁ hexhausted
      have hlt : ¬ CellBuffer.capacity b < index + min iter.len iter.items.length := by
        intro hlt
        rw [if_pos hlt] at hexhausted
        cases hexhausted
      rw [if_neg hlt] at hexhausted
      split at hexhausted
      · cases hexhausted
      · rename_i hlen
        cases hexhausted
        exact ⟨hinside hconfined, fun h => absurd h hlen⟩
    · rename_i b₁ houts
      have hlt : CellBuffer.capacity b < index + min iter.len iter.items.length := by
        by_contra hlt
        rw [if_neg hlt] at houts
        split at houts <;> cases houts
      rw [if_pos hlt] at houts
      cases houts
      exact ⟨hinside hconfined, fun h => by omega⟩
    · rename_i b₁ hoverflowed
      split at hoverflowed
      · cases hoverflowed
      · split at hoverflowed <;> cases hoverflowed
  · rename_i hoverflow
    cases checked with
    | true => exact Or.inl rfl
    | false =>
        refine Or.inr (Nat.eq_zero_of_not_pos fun hpos => ?_)
        rw [ValueIter.Confined, iter.insertInto_wrapped hoverflow (by omega)] at hconfined
        obtain ⟨-, hitems, hfilled⟩ := hconfined
        have hmissing := hfilled 0 hpos
        rw [hempty _ (by omega)] at hmissing
        have hend := List.getElem?_eq_none_iff.mp hmissing.symm
        omega

end Contract

/-- When exactly inserting an iterator keeps to the contract of `insert_into`, in any buffer
of cells, at any room in it, and in a build with or without overflow checks: whatever the
buffer holds it does if the loop writes no more than the room or is stopped by the end of
the buffer, and fills the room unless the iterator ends first, and if an overflow of its
range panics; and where nothing is inserted yet from the room on it does only then. -/
theorem value_iter_confined_iff [LawfulCellBuffer B] (checked : Bool) (iter : ValueIter α)
    {b : B} {index : Nat} (hfits : index + iter.size ≤ CellBuffer.capacity b)
    (husize : CellBuffer.capacity b < 2 ^ 64) :
    (iter.Keeps checked (CellBuffer.capacity b) index → iter.Confined checked b index) ∧
      ((∀ j, index ≤ j → LawfulCellBuffer.cell b j = none) →
        iter.Confined checked b index → iter.Keeps checked (CellBuffer.capacity b) index) :=
  ⟨ValueIter.confined_of_keeps hfits husize, ValueIter.keeps_of_confined hfits husize⟩

/-- An iterator whose `len` was 2 when its room was reserved and is 1 inside of the
insertion leaves a reserved cell uninitialized; one that has grown is stopped by the end of
the buffer. -/
theorem value_iter_confined_iff_shrinking :
    (¬ (⟨2, 1, [7, 8], by decide⟩ : ValueIter Nat).Confined true
      (⟨List.replicate 2 none⟩ : VecBuffer Nat) 0) ∧
      (⟨1, 2, [7, 8], by decide⟩ : ValueIter Nat).Confined true
        (⟨List.replicate 2 none⟩ : VecBuffer Nat) 1 := by
  have hempty : ∀ j, 0 ≤ j →
      LawfulCellBuffer.cell (⟨List.replicate 2 none⟩ : VecBuffer Nat) j = none :=
    fun j _ => join_replicate_none _ j
  constructor
  · intro hconfined
    have hkeeps := (value_iter_confined_iff true ⟨2, 1, [7, 8], by decide⟩
      (show 0 + 2 ≤ CellBuffer.capacity (⟨List.replicate 2 none⟩ : VecBuffer Nat) by decide)
      (by decide)).2 hempty hconfined
    exact absurd hkeeps (by decide)
  · exact (value_iter_confined_iff true ⟨1, 2, [7, 8], by decide⟩
      (show 1 + 1 ≤ CellBuffer.capacity (⟨List.replicate 2 none⟩ : VecBuffer Nat) by decide)
      (by decide)).1 (by decide)

end SwapBufferQueue
