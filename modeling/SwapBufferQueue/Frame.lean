/-
The frame of a vectored slice.  The io-slice of element `k` is in slot `k + 1`; a
range of elements is translated to a range of slots that has one more slot on both
sides for the header and the trailer.
-/
import SwapBufferQueue.WriteVectored

namespace SwapBufferQueue

/-- The start bound of a range that begins with element `a`. -/
def Bound.Starts (a : Nat) : Bound → Prop
  | .included n => n = a
  | .excluded n => n + 1 = a
  | .unbounded => a = 0

/-- The end bound of a range, out of `n` elements, that ends before element `b`. -/
def Bound.Ends (n b : Nat) : Bound → Prop
  | .included m => m + 1 = b
  | .excluded m => m = b
  | .unbounded => b = n

theorem frameStart_eq {bound : Bound} {a : Nat} (hstarts : bound.Starts a) :
    frameStart bound = a := by
  cases bound with
  | included n => exact hstarts
  | excluded n => exact hstarts
  | unbounded => exact hstarts.symm

/-- A bounded end is one slot short of the end of the range. -/
theorem frameEnd_eq_of_bounded {bound : Bound} {length n b : Nat}
    (hends : bound.Ends n b) (hbounded : bound ≠ .unbounded) :
    frameEnd length bound = b + 1 := by
  cases bound with
  | included m =>
      cases hends
      rfl
  | excluded m =>
      cases hends
      rfl
  | unbounded => exact absurd rfl hbounded

section Slots

variable {slots : List IoSlice}

theorem replaceSlot_of_lt {index : Nat} (slot : IoSlice)
    (hindex : index < slots.length) :
    replaceSlot slots index slot = some (slots[index], slots.set index slot) := by
  rw [replaceSlot, List.getElem?_eq_getElem hindex]

theorem replaceSlot_eq_some {index : Nat} {slot old : IoSlice} {slots' : List IoSlice}
    (hreplace : replaceSlot slots index slot = some (old, slots')) :
    index < slots.length ∧ slots' = slots.set index slot := by
  rw [replaceSlot] at hreplace
  split at hreplace
  · cases hreplace
  · rename_i first hfirst
    cases hreplace
    exact ⟨(List.getElem?_eq_some_iff.mp hfirst).1, rfl⟩

theorem frameHeader_eq_some {start start' : Nat} {header old : Option IoSlice}
    {slots' : List IoSlice}
    (hheader : frameHeader slots start header = some (old, slots', start')) :
    slots'.length = slots.length ∧ start' + header.toList.length = start + 1 := by
  cases header with
  | none =>
      cases hheader
      exact ⟨rfl, rfl⟩
  | some header =>
      obtain ⟨⟨replaced, rest⟩, hreplace, heq⟩ := Option.map_eq_some_iff.mp hheader
      cases heq
      rw [(replaceSlot_eq_some hreplace).2]
      exact ⟨List.length_set, rfl⟩

theorem frameTrailer_eq_some {stop stop' : Nat} {trailer old : Option IoSlice}
    {slots' : List IoSlice}
    (htrailer : frameTrailer slots stop trailer = some (old, slots', stop')) :
    slots'.length = slots.length ∧ stop' + 1 = stop + trailer.toList.length := by
  cases trailer with
  | none =>
      rw [frameTrailer] at htrailer
      split at htrailer
      · cases htrailer
      · rename_i hpos
        cases htrailer
        exact ⟨rfl, Nat.sub_add_cancel (Nat.pos_of_ne_zero hpos)⟩
  | some trailer =>
      rw [frameTrailer] at htrailer
      split at htrailer
      · cases htrailer
      · obtain ⟨⟨replaced, rest⟩, hreplace, heq⟩ := Option.map_eq_some_iff.mp htrailer
        cases heq
        rw [(replaceSlot_eq_some hreplace).2]
        exact ⟨List.length_set, rfl⟩

/-- A header put in the slot before a range becomes its first slot. -/
theorem drop_take_set_first {start stop : Nat} (header : IoSlice) (hlt : start < stop)
    (hstop : stop ≤ slots.length) :
    ((slots.set start header).take stop).drop start =
      header :: (slots.take stop).drop (start + 1) := by
  have hlength : start < ((slots.set start header).take stop).length := by
    rw [List.length_take, List.length_set]
    omega
  rw [List.drop_eq_getElem_cons hlength, List.getElem_take, List.getElem_set_self,
    List.take_set, List.drop_set_of_lt (Nat.lt_succ_self start)]

theorem drop_take_set_last {start stop : Nat} (trailer : IoSlice) (hle : start ≤ stop)
    (hstop : stop < slots.length) :
    ((slots.set stop trailer).take (stop + 1)).drop start =
      (slots.take stop).drop start ++ [trailer] := by
  have hlength : stop < (slots.set stop trailer).length := by
    rw [List.length_set]
    exact hstop
  rw [List.take_succ_eq_append_getElem hlength, List.getElem_set_self,
    List.take_set_of_le (le_refl stop), List.drop_append_of_le_length]
  rw [List.length_take]
  omega

end Slots

variable {slice : VectoredSlice} {startBound endBound : Bound}
  {header trailer : Option IoSlice}

theorem VectoredSlice.frame_length {frame : VectoredFrame}
    (hframe : (slice.frame startBound endBound header trailer).2 = some frame) :
    frame.slices.length + (frameStart startBound + 2) =
      frameEnd slice.slices.length endBound + header.toList.length +
        trailer.toList.length := by
  rw [VectoredSlice.frame] at hframe
  split at hframe
  · cases hframe
  · rename_i oldHeader slots start hheader
    obtain ⟨-, hstart⟩ := frameHeader_eq_some hheader
    split at hframe
    · cases hframe
    · rename_i oldTrailer slots' stop htrailer
      obtain ⟨-, hstop⟩ := frameTrailer_eq_some htrailer
      split at hframe
      · rename_i hbound
        cases hframe
        rw [List.length_drop, List.length_take]
        omega
      · cases hframe

theorem VectoredSlice.length_deref {n : Nat} (hlength : slice.slices.length = n + 2) :
    slice.deref.length = n := by
  rw [deref, List.length_drop, List.length_take]
  omega

/-- A frame whose range has no upper bound selects what it should. -/
theorem VectoredSlice.frame_unbounded {n a : Nat}
    (hlength : slice.slices.length = n + 2) (hstarts : startBound.Starts a)
    (ha : a ≤ n) :
    (slice.frame startBound .unbounded header trailer).2.map VectoredFrame.slices =
      some (header.toList ++ slice.deref.drop a ++ trailer.toList) := by
  have hderef : slice.deref.drop a = (slice.slices.take (n + 1)).drop (a + 1) := by
    rw [deref, hlength, List.drop_drop, Nat.add_comm 1 a]
    rfl
  rw [VectoredSlice.frame, frameStart_eq hstarts, hderef]
  cases header with
  | none =>
      cases trailer with
      | none =>
          simp only [frameHeader, frameTrailer, frameEnd, hlength]
          rw [if_neg (Nat.succ_ne_zero _)]
          simp only [hlength]
          rw [if_pos ⟨by omega, by omega⟩]
          simp
      | some trailer =>
          simp only [frameHeader, frameTrailer, frameEnd, hlength]
          rw [if_neg (Nat.succ_ne_zero _), replaceSlot_of_lt trailer (by omega)]
          simp only [Option.map_some, List.length_set, hlength]
          rw [if_pos ⟨by omega, le_rfl⟩]
          simp only [Option.map_some, Option.toList_none, Option.toList_some,
            List.nil_append]
          exact congrArg some (drop_take_set_last trailer (by omega) (by omega))
  | some header =>
      have hfirst := replaceSlot_of_lt header (show a < slice.slices.length by omega)
      cases trailer with
      | none =>
          simp only [frameHeader, frameTrailer, frameEnd, hfirst, Option.map_some,
            hlength]
          rw [if_neg (Nat.succ_ne_zero _)]
          simp only [List.length_set, hlength]
          rw [if_pos ⟨by omega, by omega⟩]
          simp only [Option.map_some, Option.toList_none, Option.toList_some,
            List.append_nil]
          exact congrArg some (drop_take_set_first header (by omega) (by omega))
      | some trailer =>
          simp only [frameHeader, frameTrailer, frameEnd, hfirst, Option.map_some,
            hlength]
          rw [if_neg (Nat.succ_ne_zero _),
            replaceSlot_of_lt trailer (by rw [List.length_set]; omega)]
          simp only [Option.map_some, List.length_set, hlength]
          rw [if_pos ⟨by omega, le_rfl⟩]
          simp only [Option.map_some, Option.toList_some]
          have hlast := drop_take_set_last trailer (show a ≤ n + 1 by omega)
            (show n + 1 < (slice.slices.set a header).length by
              rw [List.length_set]
              omega)
          rw [drop_take_set_first header (by omega) (by omega)] at hlast
          exact congrArg some hlast

/-- `frame` selects the requested range exactly when its end is unbounded: a
bounded end always leaves out the last slot. -/
theorem frame_selects_iff (slice : VectoredSlice) (n a b : Nat)
    (hlength : slice.slices.length = n + 2) (startBound endBound : Bound)
    (hstarts : startBound.Starts a) (hends : endBound.Ends n b) (hab : a ≤ b)
    (hbn : b ≤ n) (header trailer : Option IoSlice) :
    (slice.frame startBound endBound header trailer).2.map VectoredFrame.slices =
        some (header.toList ++ (slice.deref.take b).drop a ++ trailer.toList) ↔
      endBound = .unbounded := by
  have hderef := VectoredSlice.length_deref hlength
  constructor
  · intro hselects
    by_contra hbounded
    obtain ⟨frame, hframe, hslices⟩ := Option.map_eq_some_iff.mp hselects
    have hcount := VectoredSlice.frame_length hframe
    rw [frameStart_eq hstarts, frameEnd_eq_of_bounded hends hbounded, hslices,
      List.length_append, List.length_append, List.length_drop, List.length_take,
      hderef] at hcount
    omega
  · rintro rfl
    cases hends
    rw [VectoredSlice.frame_unbounded hlength hstarts hab,
      List.take_of_length_le (le_of_eq hderef)]

theorem frame_selects_iff_full_range :
    (VectoredSlice.frame ⟨[[], [1], [2, 3], []], 3⟩ .unbounded .unbounded (some [0])
      none).2.map VectoredFrame.slices = some [[0], [1], [2, 3]] :=
  (frame_selects_iff ⟨[[], [1], [2, 3], []], 3⟩ 2 0 2 rfl .unbounded .unbounded rfl rfl
    (by decide) (by decide) (some [0]) none).mpr rfl

/-- The full range of a slice of one element, given as `0..1` and as `0..=0`: both
frames are empty. -/
theorem frame_bounded_leaves_out_last :
    Bound.Starts 0 (.included 0) ∧ Bound.Ends 1 1 (.excluded 1) ∧
      Bound.Ends 1 1 (.included 0) ∧
      (VectoredSlice.deref ⟨[[], [1], []], 1⟩) = [[1]] ∧
      (VectoredSlice.frame ⟨[[], [1], []], 1⟩ (.included 0) (.excluded 1) none
        none).2.map VectoredFrame.slices = some [] ∧
      (VectoredSlice.frame ⟨[[], [1], []], 1⟩ (.included 0) (.included 0) none
        none).2.map VectoredFrame.slices = some [] ∧
      ¬ (∀ (slice : VectoredSlice) (n a b : Nat), slice.slices.length = n + 2 →
        ∀ (startBound endBound : Bound), startBound.Starts a → endBound.Ends n b →
          a ≤ b → b ≤ n → ∀ header trailer : Option IoSlice,
            (slice.frame startBound endBound header trailer).2.map
              VectoredFrame.slices =
                some (header.toList ++ (slice.deref.take b).drop a ++
                  trailer.toList)) := by
  refine ⟨rfl, rfl, rfl, by decide, by decide, by decide, ?_⟩
  intro hall
  have hone := hall ⟨[[], [1], []], 1⟩ 1 0 1 rfl (.included 0) (.excluded 1) rfl rfl
    (by decide) (by decide) none none
  revert hone
  decide

end SwapBufferQueue
