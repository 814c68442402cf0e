/-
Writes of segments of a list, in place.  A writer changes a segment of its own size and
nothing else; writers of segments laid one after another can run in any order.
-/
import Mathlib.Tactic

namespace Segments

universe u

variable {α : Type u}

/-- A writer gets a segment of its size and changes it in place. -/
structure Writer (α : Type u) where
  size : Nat
  write : List α → List α
  length_write (content : List α) : (write content).length = content.length

/-- The given number of elements from an index on. -/
def segment (list : List α) (start size : Nat) : List α :=
  (list.drop start).take size

/-- A writer applied to the segment at an index; `none` when that is out of bounds. -/
def writeAt (list : List α) (start : Nat) (writer : Writer α) : Option (List α) :=
  if start + writer.size ≤ list.length then
    some (list.take start ++ writer.write (segment list start writer.size) ++
      list.drop (start + writer.size))
  else none

/-- The writers laid one after another from an index on. -/
def place : Nat → List (Writer α) → List (Nat × Writer α)
  | _, [] => []
  | start, writer :: rest => (start, writer) :: place (start + writer.size) rest

def totalSize (writers : List (Writer α)) : Nat :=
  (writers.map Writer.size).sum

/-- What the writers make of the content they find. -/
def written (list : List α) : Nat → List (Writer α) → List α
  | _, [] => []
  | start, writer :: rest =>
      writer.write (segment list start writer.size) ++
        written list (start + writer.size) rest

/-- The writes in the given order. -/
def writeAll (list : List α) (order : List (Nat × Writer α)) : Option (List α) :=
  order.foldl (fun result placed => result.bind fun list => writeAt list placed.1 placed.2)
    (some list)

section WriteAt

variable {list list' : List α} {start : Nat} {writer : Writer α}

theorem length_segment (hfits : start + writer.size ≤ list.length) :
    (segment list start writer.size).length = writer.size := by
  rw [segment, List.length_take, List.length_drop]
  omega

theorem writeAt_eq_some_iff : writeAt list start writer = some list' ↔
    start + writer.size ≤ list.length ∧
      list' = list.take start ++ writer.write (segment list start writer.size) ++
        list.drop (start + writer.size) := by
  unfold writeAt
  split
  · rename_i hfits
    simp [hfits, eq_comm]
  · rename_i hfits
    simp [hfits]

theorem getElem?_writeAt (hwrite : writeAt list start writer = some list') (j : Nat) :
    list'[j]? = if start ≤ j ∧ j < start + writer.size then
      (writer.write (segment list start writer.size))[j - start]? else list[j]? := by
  obtain ⟨hfits, rfl⟩ := writeAt_eq_some_iff.mp hwrite
  have hlength : (writer.write (segment list start writer.size)).length = writer.size := by
    rw [writer.length_write, length_segment hfits]
  have htake : (list.take start).length = start := by
    rw [List.length_take]
    omega
  by_cases hbefore : j < start
  · rw [if_neg (by omega), List.append_assoc, List.getElem?_append_left (by omega),
      List.getElem?_take_of_lt hbefore]
  · by_cases hinside : j < start + writer.size
    · rw [if_pos ⟨by omega, hinside⟩, List.getElem?_append_left (by
          rw [List.length_append]; omega), List.getElem?_append_right (by omega), htake]
    · rw [if_neg (by omega), List.getElem?_append_right (by
          rw [List.length_append]; omega), List.length_append, htake, hlength,
        List.getElem?_drop]
      congr 1
      omega

theorem length_writeAt (hwrite : writeAt list start writer = some list') :
    list'.length = list.length := by
  obtain ⟨hfits, rfl⟩ := writeAt_eq_some_iff.mp hwrite
  have hsegment := length_segment hfits
  simp only [List.length_append, List.length_take, List.length_drop, writer.length_write]
  omega

/-- A write leaves the elements before and behind it alone. -/
theorem take_writeAt (hwrite : writeAt list start writer = some list') {lo : Nat}
    (hlo : lo ≤ start) : list'.take lo = list.take lo := by
  apply List.ext_getElem?
  intro j
  rw [List.getElem?_take, List.getElem?_take]
  split
  · rw [getElem?_writeAt hwrite, if_neg (by omega)]
  · rfl

theorem drop_writeAt (hwrite : writeAt list start writer = some list') {hi : Nat}
    (hhi : start + writer.size ≤ hi) : list'.drop hi = list.drop hi := by
  apply List.ext_getElem?
  intro j
  rw [List.getElem?_drop, List.getElem?_drop, getElem?_writeAt hwrite, if_neg (by omega)]

theorem segment_writeAt (hwrite : writeAt list start writer = some list')
    {start' size : Nat}
    (hapart : start + writer.size ≤ start' ∨ start' + size ≤ start) :
    segment list' start' size = segment list start' size := by
  apply List.ext_getElem?
  intro j
  rw [segment, segment, List.getElem?_take, List.getElem?_take]
  split
  · rw [List.getElem?_drop, List.getElem?_drop, getElem?_writeAt hwrite, if_neg (by omega)]
  · rfl

end WriteAt

/-- Writes of separate segments commute. -/
theorem writeAt_comm {start start' : Nat} {writer writer' : Writer α}
    (hapart : start + writer.size ≤ start' ∨ start' + writer'.size ≤ start)
    (list : List α) :
    (writeAt list start writer).bind (fun list => writeAt list start' writer') =
      (writeAt list start' writer').bind fun list => writeAt list start writer := by
  cases hfirst : writeAt list start writer with
  | none =>
      cases hsecond : writeAt list start' writer' with
      | none => rfl
      | some second =>
          have hlength := length_writeAt hsecond
          unfold writeAt at hfirst
          split at hfirst
          · cases hfirst
          · rename_i hfits
            change none = writeAt second start writer
            rw [writeAt, if_neg (by omega)]
  | some first =>
      have hlength := length_writeAt hfirst
      cases hsecond : writeAt list start' writer' with
      | none =>
          unfold writeAt at hsecond
          split at hsecond
          · cases hsecond
          · rename_i hfits
            change writeAt first start' writer' = none
            rw [writeAt, if_neg (by omega)]
      | some second =>
          have hlength' := length_writeAt hsecond
          have hfits := (writeAt_eq_some_iff.mp hfirst).1
          have hfits' := (writeAt_eq_some_iff.mp hsecond).1
          obtain ⟨both, hboth⟩ : ∃ both, writeAt first start' writer' = some both :=
            ⟨_, if_pos (by omega)⟩
          obtain ⟨both', hboth'⟩ : ∃ both', writeAt second start writer = some both' :=
            ⟨_, if_pos (by omega)⟩
          change writeAt first start' writer' = writeAt second start writer
          rw [hboth, hboth', Option.some.injEq]
          apply List.ext_getElem?
          intro j
          rw [getElem?_writeAt hboth, getElem?_writeAt hboth', getElem?_writeAt hfirst,
            getElem?_writeAt hsecond, segment_writeAt hfirst hapart,
            segment_writeAt hsecond hapart.symm]
          split
          · rw [if_neg (by omega)]
          · rfl

/-- A placed writer lies between the start and the end of all of them. -/
theorem mem_place_bounds {writers : List (Writer α)} {start : Nat}
    {placed : Nat × Writer α} (hmem : placed ∈ place start writers) :
    start ≤ placed.1 ∧ placed.1 + placed.2.size ≤ start + totalSize writers := by
  induction writers generalizing start with
  | nil => cases hmem
  | cons writer rest ih =>
      have htotal : totalSize (writer :: rest) = writer.size + totalSize rest := rfl
      rcases List.mem_cons.mp hmem with rfl | hrest
      · simp only
        omega
      · have hbounds := ih hrest
        omega

/-- Two placed writers are the same or lie apart. -/
theorem place_apart {writers : List (Writer α)} {start : Nat}
    {first second : Nat × Writer α} (hfirst : first ∈ place start writers)
    (hsecond : second ∈ place start writers) :
    first = second ∨ first.1 + first.2.size ≤ second.1 ∨
      second.1 + second.2.size ≤ first.1 := by
  induction writers generalizing start with
  | nil => cases hfirst
  | cons writer rest ih =>
      rcases List.mem_cons.mp hfirst with rfl | hfirst'
      · rcases List.mem_cons.mp hsecond with rfl | hsecond'
        · exact Or.inl rfl
        · exact Or.inr (Or.inl (mem_place_bounds hsecond').1)
      · rcases List.mem_cons.mp hsecond with rfl | hsecond'
        · exact Or.inr (Or.inr (mem_place_bounds hfirst').1)
        · exact ih hfirst' hsecond'

theorem writeAll_cons (list : List α) (placed : Nat × Writer α)
    (order : List (Nat × Writer α)) :
    writeAll list (placed :: order) =
      (writeAt list placed.1 placed.2).bind fun list => writeAll list order := by
  rw [writeAll, List.foldl_cons, Option.bind_some]
  cases writeAt list placed.1 placed.2 with
  | none =>
      induction order with
      | nil => rfl
      | cons next order ih => exact ih
  | some list' => rfl

/-- Writers laid one after another can run in any order. -/
theorem writeAll_perm {writers : List (Writer α)} {start : Nat}
    {order : List (Nat × Writer α)} (hperm : order.Perm (place start writers))
    (list : List α) : writeAll list order = writeAll list (place start writers) := by
  apply hperm.foldl_eq'
  intro first hfirst second hsecond result
  cases result with
  | none => rfl
  | some list =>
      rcases place_apart (hperm.mem_iff.mp hfirst) (hperm.mem_iff.mp hsecond) with
        rfl | hapart
      · rfl
      · exact writeAt_comm hapart list

/-- What is written only depends on the content of the segments. -/
theorem written_congr {list list' : List α} (writers : List (Writer α)) {start : Nat}
    (hsame : list'.drop start = list.drop start) :
    written list' start writers = written list start writers := by
  induction writers generalizing start with
  | nil => rfl
  | cons writer rest ih =>
      have hrest : list'.drop (start + writer.size) = list.drop (start + writer.size) := by
        rw [← List.drop_drop, ← List.drop_drop, hsame]
      rw [written, written, segment, segment, hsame, ih hrest]

theorem length_written (writers : List (Writer α)) {list : List α} {start : Nat}
    (hfits : start + totalSize writers ≤ list.length) :
    (written list start writers).length = totalSize writers := by
  induction writers generalizing start with
  | nil => rfl
  | cons writer rest ih =>
      have htotal : totalSize (writer :: rest) = writer.size + totalSize rest := rfl
      rw [written, List.length_append, writer.length_write, length_segment (by omega),
        ih (by omega), htotal]

/-- Writers laid one after another, run in their order. -/
theorem writeAll_place (writers : List (Writer α)) {list : List α} {start : Nat}
    (hfits : start + totalSize writers ≤ list.length) :
    writeAll list (place start writers) = some (list.take start ++
      written list start writers ++ list.drop (start + totalSize writers)) := by
  induction writers generalizing list start with
  | nil => simp [writeAll, place, written, totalSize]
  | cons writer rest ih =>
      have htotal : totalSize (writer :: rest) = writer.size + totalSize rest := rfl
      obtain ⟨list', hwrite⟩ : ∃ list', writeAt list start writer = some list' :=
        ⟨_, if_pos (by omega)⟩
      have hlength := length_writeAt hwrite
      have hafter := drop_writeAt hwrite (Nat.le_refl _)
      have hend := drop_writeAt hwrite (show start + writer.size ≤
        start + totalSize (writer :: rest) by omega)
      have hsegment : (list.take start ++
          writer.write (segment list start writer.size)).length = start + writer.size := by
        rw [List.length_append, writer.length_write, length_segment (by omega),
          List.length_take]
        omega
      rw [place, writeAll_cons, hwrite, Option.bind_some, ih (by omega),
        written_congr rest hafter, Nat.add_assoc, ← htotal, hend]
      obtain ⟨-, rfl⟩ := writeAt_eq_some_iff.mp hwrite
      rw [← hsegment, List.take_left, hsegment, written]
      simp only [List.append_assoc]

/-- Writes inside a range succeed and leave everything outside it alone. -/
theorem writeAll_inside {lo hi : Nat} (order : List (Nat × Writer α)) {list : List α}
    (hinside : ∀ placed ∈ order, lo ≤ placed.1 ∧ placed.1 + placed.2.size ≤ hi)
    (hfits : hi ≤ list.length) :
    ∃ list', writeAll list order = some list' ∧ list'.length = list.length ∧
      list'.take lo = list.take lo ∧ list'.drop hi = list.drop hi := by
  induction order generalizing list with
  | nil => exact ⟨list, rfl, rfl, rfl, rfl⟩
  | cons placed order ih =>
      obtain ⟨hlo, hhi⟩ := hinside placed List.mem_cons_self
      obtain ⟨middle, hwrite⟩ : ∃ middle, writeAt list placed.1 placed.2 = some middle :=
        ⟨_, if_pos (by omega)⟩
      have hlength := length_writeAt hwrite
      have hfits' : hi ≤ middle.length := by omega
      obtain ⟨list', hrest, hlength', htake, hdrop⟩ :=
        ih (fun other hother => hinside other (List.mem_cons_of_mem _ hother)) hfits'
      refine ⟨list', ?_, by omega, ?_, ?_⟩
      · rw [writeAll_cons, hwrite]
        exact hrest
      · rw [htake, take_writeAt hwrite hlo]
      · rw [hdrop, drop_writeAt hwrite hhi]

end Segments
