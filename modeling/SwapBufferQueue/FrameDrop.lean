/-
What a frame leaves behind.  `frame` puts the header and the trailer over two slots of
the vectored slice and keeps what was there; `Drop for VectoredFrame` puts it back, the
header first, by the places the two slots have in the frame.
-/
import SwapBufferQueue.Frame

namespace SwapBufferQueue

/-- The bound arithmetic of `frame` passes the range of a `usize`, which panics before
any slot is touched. -/
def frameOverflows (startBound endBound : Bound) (header : Option IoSlice) : Prop :=
  2 ^ 64 ≤ frameStart startBound ∨ 2 ^ 64 ≤ frameEnd 0 endBound ∨
    (header = none ∧ 2 ^ 64 ≤ frameStart startBound + 1)

instance instDecidableFrameOverflows (startBound endBound : Bound)
    (header : Option IoSlice) : Decidable (frameOverflows startBound endBound header) :=
  inferInstanceAs (Decidable (_ ∨ _ ∨ _))

/-- `VectoredSlice::frame` with the overflow checks of its bounds. -/
def VectoredSlice.frameChecked (slice : VectoredSlice) (startBound endBound : Bound)
    (header trailer : Option IoSlice) : List IoSlice × Option VectoredFrame :=
  if frameOverflows startBound endBound header then (slice.slices, none)
  else slice.frame startBound endBound header trailer

/-- `self.slices[index] = slot` for the frame, whose slots begin at `start`. -/
def VectoredFrame.restore (frame : VectoredFrame) (slots : List IoSlice) (index : Nat) :
    Option IoSlice → Option (List IoSlice)
  | none => some slots
  | some slot =>
      if index < frame.slices.length then some (slots.set (frame.start + index) slot)
      else none

/-- `Drop for VectoredFrame`, on the slots of the slice; `none` is a panic. -/
def VectoredFrame.drop (frame : VectoredFrame) (slots : List IoSlice) :
    Option (List IoSlice) :=
  match frame.restore slots 0 frame.header with
  | none => none
  | some slots => frame.restore slots (frame.slices.length - 1) frame.trailer

/-- Dropping the frame puts every slot back; a panic of `frame` leaves the slots of the
elements alone. -/
def FrameUndone (slice : VectoredSlice) (startBound endBound : Bound)
    (header trailer : Option IoSlice) : Prop :=
  match slice.frameChecked startBound endBound header trailer with
  | (slots, some frame) => frame.drop slots = some slice.slices
  | (slots, none) =>
      ∀ k, 0 < k → k + 1 < slice.slices.length → slots[k]? = slice.slices[k]?

def framedStart (startBound : Bound) (header : Option IoSlice) : Nat :=
  frameStart startBound + if header.isSome then 0 else 1

def framedEnd (length : Nat) (endBound : Bound) (trailer : Option IoSlice) : Nat :=
  frameEnd length endBound - if trailer.isSome then 0 else 1

/-- The indices and the range that `frame` uses are in bounds. -/
def FrameInBounds (length : Nat) (startBound endBound : Bound)
    (header trailer : Option IoSlice) : Prop :=
  (header.isSome = true → frameStart startBound < length) ∧
    (trailer.isSome = true → frameEnd length endBound ≤ length) ∧
    framedStart startBound header ≤ framedEnd length endBound trailer ∧
    framedEnd length endBound trailer ≤ length

/-- The slot is not the one of an element, or has these bytes already. -/
def Spares (slots : List IoSlice) (k : Nat) (bytes : IoSlice) : Prop :=
  0 < k → k + 1 < slots.length → slots[k]? = some bytes

/-- The frames that are undone.  An overflow panics before anything is written, in a build
with overflow checks.  In bounds, a header or a trailer needs a slot in the frame, and the
two together need two, unless the header says what it replaces; out of bounds, what was put
in before the panic has to spare the elements. -/
def FrameSafe (slots : List IoSlice) (startBound endBound : Bound)
    (header trailer : Option IoSlice) : Prop :=
  frameOverflows startBound endBound header ∨
    (FrameInBounds slots.length startBound endBound header trailer ∧
      ((header = none ∧ trailer = none) ∨
        (framedStart startBound header < framedEnd slots.length endBound trailer ∧
          ∀ bytes ∈ header, trailer.isSome = true →
            frameStart startBound + 1 < frameEnd slots.length endBound ∨
              slots[frameStart startBound]? = some bytes))) ∨
    (¬ FrameInBounds slots.length startBound endBound header trailer ∧
      (∀ bytes ∈ header, Spares slots (frameStart startBound) bytes) ∧
      ∀ bytes ∈ trailer,
        (header.isSome = true → frameStart startBound < slots.length) →
          Spares slots (frameEnd slots.length endBound - 1) bytes)

theorem frameEnd_pos {length : Nat} (hlength : 0 < length) (endBound : Bound) :
    0 < frameEnd length endBound := by
  cases endBound with
  | included n => exact Nat.succ_pos _
  | excluded n => exact Nat.succ_pos _
  | unbounded => exact hlength

/-- The slots with a header or a trailer put over one of them. -/
def putSlot (slots : List IoSlice) (k : Nat) (slot : Option IoSlice) : List IoSlice :=
  slot.elim slots (slots.set k)

@[simp]
theorem putSlot_none (slots : List IoSlice) (k : Nat) : putSlot slots k none = slots := rfl

@[simp]
theorem putSlot_some (slots : List IoSlice) (k : Nat) (slot : IoSlice) :
    putSlot slots k (some slot) = slots.set k slot := rfl

section Frame

variable {slice : VectoredSlice} {startBound endBound : Bound}
  {header trailer : Option IoSlice}

theorem length_putSlot (slots : List IoSlice) (k : Nat) (slot : Option IoSlice) :
    (putSlot slots k slot).length = slots.length := by
  cases slot with
  | none => rfl
  | some bytes => exact List.length_set

theorem frameHeader_eq (slots : List IoSlice) (start : Nat)
    (hstart : header.isSome = true → start < slots.length) :
    frameHeader slots start header =
      some (header.bind fun _ => slots[start]?, putSlot slots start header,
        start + if header.isSome then 0 else 1) := by
  cases header with
  | none => rfl
  | some bytes =>
      rw [frameHeader, replaceSlot_of_lt bytes (hstart rfl)]
      simp [putSlot, List.getElem?_eq_getElem (hstart rfl)]

theorem frameTrailer_eq (slots : List IoSlice) {stop : Nat} (hpos : 0 < stop)
    (hstop : trailer.isSome = true → stop ≤ slots.length) :
    frameTrailer slots stop trailer =
      some (trailer.bind fun _ => slots[stop - 1]?, putSlot slots (stop - 1) trailer,
        stop - if trailer.isSome then 0 else 1) := by
  have hne : stop ≠ 0 := Nat.pos_iff_ne_zero.mp hpos
  cases trailer with
  | none =>
      rw [frameTrailer, if_neg hne]
      rfl
  | some bytes =>
      have hlt : stop - 1 < slots.length := by
        have hle := hstop rfl
        omega
      rw [frameTrailer, if_neg hne, replaceSlot_of_lt bytes hlt]
      simp [putSlot, List.getElem?_eq_getElem hlt]

theorem VectoredSlice.frame_of_inBounds (hlength : 0 < slice.slices.length)
    (hbounds : FrameInBounds slice.slices.length startBound endBound header trailer) :
    ∃ frame, slice.frame startBound endBound header trailer =
        (putSlot (putSlot slice.slices (frameStart startBound) header)
          (frameEnd slice.slices.length endBound - 1) trailer, some frame) ∧
      frame.start = framedStart startBound header ∧
      frame.slices.length = framedEnd slice.slices.length endBound trailer -
        framedStart startBound header ∧
      frame.header = (header.bind fun _ => slice.slices[frameStart startBound]?) ∧
      frame.trailer = trailer.bind fun _ =>
        (putSlot slice.slices (frameStart startBound) header)[
          frameEnd slice.slices.length endBound - 1]? := by
  obtain ⟨hstart, hstop, hle, hend⟩ := hbounds
  rw [VectoredSlice.frame, frameHeader_eq _ _ hstart]
  simp only
  rw [frameTrailer_eq _ (frameEnd_pos hlength endBound)
    (by rw [length_putSlot]; exact hstop)]
  simp only [length_putSlot]
  rw [if_pos ⟨hle, hend⟩]
  refine ⟨_, rfl, rfl, ?_, rfl, rfl⟩
  rw [List.length_drop, List.length_take, length_putSlot, length_putSlot]
  exact congrArg (· - _) (Nat.min_eq_left hend)

/-- A frame out of bounds panics, with what it had put in before. -/
theorem VectoredSlice.frame_of_not_inBounds (hlength : 0 < slice.slices.length)
    (hbounds : ¬ FrameInBounds slice.slices.length startBound endBound header trailer) :
    slice.frame startBound endBound header trailer =
      (if header.isSome = true ∧ slice.slices.length ≤ frameStart startBound then
          slice.slices
        else putSlot (putSlot slice.slices (frameStart startBound) header)
          (frameEnd slice.slices.length endBound - 1) trailer, none) := by
  have hnone : ∀ {slots : List IoSlice} {k : Nat} (bytes : IoSlice), slots.length ≤ k →
      replaceSlot slots k bytes = none := by
    intro slots k bytes hle
    rw [replaceSlot, List.getElem?_eq_none hle]
  by_cases hstart : header.isSome = true → frameStart startBound < slice.slices.length
  · have hwritten : ¬ (header.isSome = true ∧
        slice.slices.length ≤ frameStart startBound) :=
      fun hboth => absurd (hstart hboth.1) (Nat.not_lt_of_le hboth.2)
    rw [if_neg hwritten, VectoredSlice.frame, frameHeader_eq _ _ hstart]
    simp only
    by_cases hstop : trailer.isSome = true →
        frameEnd slice.slices.length endBound ≤ slice.slices.length
    · rw [frameTrailer_eq _ (frameEnd_pos hlength endBound)
        (by rw [length_putSlot]; exact hstop)]
      simp only [length_putSlot]
      exact if_neg fun hboth => hbounds ⟨hstart, hstop, hboth⟩
    · cases trailer with
      | none => exact absurd (fun hsome => by cases hsome) hstop
      | some bytes =>
          -- The trailer is out of bounds: nothing is put over a slot.
          have hle : (putSlot slice.slices (frameStart startBound) header).length ≤
              frameEnd slice.slices.length endBound - 1 := by
            rw [length_putSlot]
            have hlt := not_le.mp fun hle => hstop fun _ => hle
            omega
          rw [frameTrailer, if_neg (Nat.pos_iff_ne_zero.mp (frameEnd_pos hlength endBound)),
            hnone bytes hle]
          simp only [Option.map_none]
          rw [putSlot_some, List.set_eq_of_length_le hle]
  · cases header with
    | none => exact absurd (fun hsome => by cases hsome) hstart
    | some bytes =>
        have hle := not_lt.mp fun hlt => hstart fun _ => hlt
        rw [if_pos ⟨rfl, hle⟩, VectoredSlice.frame, frameHeader, hnone bytes hle]
        rfl

theorem set_set_restore {slots : List IoSlice} {first last : Nat} (hne : first ≠ last)
    (hfirst : first < slots.length) (hlast : last < slots.length) (header trailer : IoSlice) :
    ((((slots.set first header).set last trailer).set first slots[first]).set last
      slots[last]) = slots := by
  rw [List.set_comm _ _ hne, List.set_set, List.set_comm _ _ hne.symm, List.set_set,
    List.set_getElem_self, List.set_getElem_self]

section Drop

variable {frame : VectoredFrame} {slots : List IoSlice} {first last : Nat}

theorem VectoredFrame.drop_header_iff (hfirst : first < slots.length) (bytes : IoSlice)
    (hstart : frame.start = first) (hheader : frame.header = some slots[first])
    (htrailer : frame.trailer = none) :
    frame.drop (slots.set first bytes) = some slots ↔ 0 < frame.slices.length := by
  simp only [drop, restore, hheader, htrailer, hstart, Nat.add_zero]
  by_cases hpos : 0 < frame.slices.length
  · rw [if_pos hpos]
    simp only
    rw [List.set_set, List.set_getElem_self]
    exact iff_of_true rfl hpos
  · rw [if_neg hpos]
    exact iff_of_false (by simp) hpos

theorem VectoredFrame.drop_trailer_iff (hlast : last < slots.length) (bytes : IoSlice)
    (hstop : 0 < frame.slices.length → frame.start + frame.slices.length = last + 1)
    (hheader : frame.header = none) (htrailer : frame.trailer = some slots[last]) :
    frame.drop (slots.set last bytes) = some slots ↔ 0 < frame.slices.length := by
  simp only [drop, restore, hheader, htrailer]
  by_cases hpos : 0 < frame.slices.length
  · have hslot : frame.start + (frame.slices.length - 1) = last := by
      have hend := hstop hpos
      omega
    rw [if_pos (by omega), hslot, List.set_set, List.set_getElem_self]
    exact iff_of_true rfl hpos
  · rw [if_neg (by omega)]
    exact iff_of_false (by simp) hpos

/-- A frame with both.  When they share a slot, the header is what comes back last. -/
theorem VectoredFrame.drop_both_iff (hfirst : first < slots.length)
    (hlast : last < slots.length) (bytes bytes' : IoSlice) (hstart : frame.start = first)
    (hstop : 0 < frame.slices.length → first + frame.slices.length = last + 1)
    (hheader : frame.header = some slots[first])
    (htrailer : frame.trailer = (slots.set first bytes)[last]?) :
    frame.drop ((slots.set first bytes).set last bytes') = some slots ↔
      0 < frame.slices.length ∧ (first < last ∨ slots[first] = bytes) := by
  rw [List.getElem?_eq_getElem (by rw [List.length_set]; exact hlast)] at htrailer
  simp only [drop, restore, hheader, htrailer, hstart, Nat.add_zero]
  by_cases hpos : 0 < frame.slices.length
  · have hend := hstop hpos
    have hslot : first + (frame.slices.length - 1) = last := by omega
    rw [if_pos hpos]
    simp only
    rw [if_pos (by omega), hslot]
    by_cases hsame : first = last
    · subst hsame
      rw [List.getElem_set_self, List.set_set, List.set_set, List.set_set,
        Option.some.injEq]
      constructor
      · intro hslots
        refine ⟨hpos, Or.inr ?_⟩
        have hsome := congrArg (fun slots : List IoSlice => slots[first]?) hslots
        simp only [List.getElem?_set_self hfirst, List.getElem?_eq_getElem hfirst,
          Option.some.injEq] at hsome
        exact hsome.symm
      · rintro ⟨-, hlt | hbytes⟩
        · exact absurd hlt (lt_irrefl first)
        · rw [← hbytes, List.set_getElem_self]
    · rw [List.getElem_set_ne hsame, set_set_restore hsame hfirst hlast]
      exact iff_of_true rfl ⟨hpos, Or.inl (by omega)⟩
  · rw [if_neg hpos]
    exact iff_of_false (by simp) fun hboth => hpos hboth.1

end Drop

theorem VectoredSlice.drop_frame_iff (hlength : 0 < slice.slices.length)
    (hbounds : FrameInBounds slice.slices.length startBound endBound header trailer)
    {frame : VectoredFrame} {slots : List IoSlice}
    (hframe : slice.frame startBound endBound header trailer = (slots, some frame)) :
    frame.drop slots = some slice.slices ↔
      (header = none ∧ trailer = none) ∨
        (framedStart startBound header <
            framedEnd slice.slices.length endBound trailer ∧
          ∀ bytes ∈ header, trailer.isSome = true →
            frameStart startBound + 1 < frameEnd slice.slices.length endBound ∨
              slice.slices[frameStart startBound]? = some bytes) := by
  obtain ⟨frame', hframe', hstart, hcount, hheader, htrailer⟩ :=
    VectoredSlice.frame_of_inBounds hlength hbounds
  rw [hframe] at hframe'
  cases hframe'
  obtain ⟨hfirst, hlast, hle, hend⟩ := hbounds
  have hpos := frameEnd_pos hlength endBound
  have hcut : framedStart startBound header <
      framedEnd slice.slices.length endBound trailer ↔ 0 < frame.slices.length := by omega
  rw [hcut]
  cases header with
  | none =>
      cases trailer with
      | none => simp [VectoredFrame.drop, VectoredFrame.restore, hheader, htrailer]
      | some bytes =>
          have hslot : frameEnd slice.slices.length endBound - 1 < slice.slices.length := by
            have hle := hlast rfl
            omega
          have hstop : 0 < frame.slices.length → frame.start + frame.slices.length =
              frameEnd slice.slices.length endBound - 1 + 1 := by
            simp only [framedEnd, Option.isSome_some, if_true] at hcount
            omega
          have hdrop := frame.drop_trailer_iff hslot bytes hstop hheader
            (htrailer.trans (List.getElem?_eq_getElem hslot))
          simpa using hdrop
  | some bytes =>
      have hslot : frameStart startBound < slice.slices.length := hfirst rfl
      have hold : frame.header = some slice.slices[frameStart startBound] :=
        hheader.trans (List.getElem?_eq_getElem hslot)
      cases trailer with
      | none =>
          have hdrop := frame.drop_header_iff hslot bytes hstart hold htrailer
          simpa using hdrop
      | some bytes' =>
          have hslot' : frameEnd slice.slices.length endBound - 1 < slice.slices.length := by
            have hle := hlast rfl
            omega
          have hstop : 0 < frame.slices.length → frameStart startBound +
              frame.slices.length = frameEnd slice.slices.length endBound - 1 + 1 := by
            simp only [framedStart, framedEnd, Option.isSome_some, if_true] at hcount
            omega
          have hdrop := frame.drop_both_iff hslot hslot' bytes bytes' hstart hstop hold
            htrailer
          have hgap : frameStart startBound + 1 < frameEnd slice.slices.length endBound ↔
              frameStart startBound < frameEnd slice.slices.length endBound - 1 := by omega
          simpa [List.getElem?_eq_getElem hslot, hgap] using hdrop

/-- The slot that a header or a trailer was put over, seen from the elements. -/
theorem putSlot_spares_iff (slots : List IoSlice) (k : Nat) (slot : Option IoSlice) :
    (∀ j, 0 < j → j + 1 < slots.length → (putSlot slots k slot)[j]? = slots[j]?) ↔
      ∀ bytes ∈ slot, Spares slots k bytes := by
  cases slot with
  | none => simp
  | some bytes =>
      simp only [putSlot_some, Option.mem_some_iff, forall_eq']
      constructor
      · intro hall hpos hlt
        have hsame := hall k hpos hlt
        rwa [List.getElem?_set_self (by omega), eq_comm] at hsame
      · intro hspares j hpos hlt
        by_cases hj : k = j
        · subst hj
          rw [List.getElem?_set_self (by omega), hspares hpos hlt]
        · rw [List.getElem?_set_ne hj]

/-- The header and the trailer of a frame out of bounds are put over two slots, so that
each of them has to spare the elements. -/
theorem putSlot_putSlot_spares_iff {slots : List IoSlice} {first last : Nat}
    (hne : header.isSome = true → trailer.isSome = true → first ≠ last) :
    (∀ j, 0 < j → j + 1 < slots.length →
        (putSlot (putSlot slots first header) last trailer)[j]? = slots[j]?) ↔
      (∀ bytes ∈ header, Spares slots first bytes) ∧
        ∀ bytes ∈ trailer, Spares slots last bytes := by
  rw [← putSlot_spares_iff, ← putSlot_spares_iff]
  cases header with
  | none => simp
  | some bytes =>
      cases trailer with
      | none => simp
      | some bytes' =>
          have hslots := hne rfl rfl
          simp only [putSlot_some]
          constructor
          · intro hall
            constructor
            · intro j hpos hlt
              by_cases hj : last = j
              · rw [List.getElem?_set_ne (by omega)]
              · rw [← hall j hpos hlt, List.getElem?_set_ne hj]
            · intro j hpos hlt
              by_cases hj : first = j
              · rw [List.getElem?_set_ne (by omega)]
              · rw [← hall j hpos hlt, List.set_comm _ _ hslots, List.getElem?_set_ne hj]
          · rintro ⟨hheader, htrailer⟩ j hpos hlt
            by_cases hj : last = j
            · rw [← htrailer j hpos hlt, List.set_comm _ _ hslots,
                List.getElem?_set_ne (by omega)]
            · rw [List.getElem?_set_ne hj]
              exact hheader j hpos hlt

/-- Dropping a frame undoes it, and a panic of `frame` spares the elements, exactly for
the safe frames. -/
theorem frame_undone_iff (slice : VectoredSlice) (hlength : 2 ≤ slice.slices.length)
    (startBound endBound : Bound) (header trailer : Option IoSlice) :
    FrameUndone slice startBound endBound header trailer ↔
      FrameSafe slice.slices startBound endBound header trailer := by
  have hpos : 0 < slice.slices.length := by omega
  rw [FrameUndone, FrameSafe, VectoredSlice.frameChecked]
  by_cases hoverflow : frameOverflows startBound endBound header
  · rw [if_pos hoverflow]
    exact iff_of_true (fun _ _ _ => rfl) (Or.inl hoverflow)
  · rw [if_neg hoverflow]
    by_cases hbounds : FrameInBounds slice.slices.length startBound endBound header trailer
    · obtain ⟨frame, hframe, -⟩ := VectoredSlice.frame_of_inBounds hpos hbounds
      rw [hframe]
      simp only [hoverflow, hbounds, not_true_eq_false, false_and, or_false, false_or,
        true_and]
      exact VectoredSlice.drop_frame_iff hpos hbounds hframe
    · rw [VectoredSlice.frame_of_not_inBounds hpos hbounds]
      simp only [hoverflow, hbounds, not_false_eq_true, false_and, false_or, true_and]
      by_cases hwritten : header.isSome = true ∧
          slice.slices.length ≤ frameStart startBound
      · rw [if_pos hwritten]
        refine iff_of_true (fun _ _ _ => rfl) ⟨?_, ?_⟩
        · intro bytes _ _ hlt
          omega
        · intro bytes _ hstart
          exact absurd (hstart hwritten.1) (Nat.not_lt_of_le hwritten.2)
      · rw [if_neg hwritten]
        have hstart : header.isSome = true →
            frameStart startBound < slice.slices.length :=
          fun hsome => Nat.lt_of_not_le fun hle => hwritten ⟨hsome, hle⟩
        have hend := frameEnd_pos hpos endBound
        rw [putSlot_putSlot_spares_iff]
        · exact and_congr_right fun _ => ⟨fun htrailer bytes hbytes _ => htrailer bytes hbytes,
            fun htrailer bytes hbytes => htrailer bytes hbytes hstart⟩
        · -- A header and a trailer in one slot are in bounds.
          intro hheader htrailer hsame
          have hlt := hstart hheader
          refine hbounds ⟨hstart, fun _ => by omega, ?_, ?_⟩
          · rw [framedStart, framedEnd, if_pos hheader, if_pos htrailer]
            omega
          · rw [framedEnd, if_pos htrailer]
            omega

end Frame

/-- A frame over both elements with a header and a trailer. -/
theorem frame_undone_iff_both_elements :
    FrameUndone ⟨[[], [1], [2], []], 2⟩ .unbounded .unbounded (some [0]) (some [9]) :=
  (frame_undone_iff ⟨[[], [1], [2], []], 2⟩ (by decide) .unbounded .unbounded (some [0])
    (some [9])).mpr
      (Or.inr (Or.inl ⟨⟨fun _ => by decide, fun _ => by decide, by decide, by decide⟩,
        Or.inr ⟨by decide, fun _ _ _ => Or.inl (by decide)⟩⟩))

/-- The empty range `1..1` of two elements: the header is left in the slot of the first
one.  The range `1..9` is out of bounds: `frame` panics with the header in that slot. -/
theorem frame_leaves_header_behind :
    (VectoredSlice.frameChecked ⟨[[], [1], [2], []], 2⟩ (.included 1) (.excluded 1)
        (some [0]) (some [9])).2.isSome = true ∧
      ¬ FrameUndone ⟨[[], [1], [2], []], 2⟩ (.included 1) (.excluded 1) (some [0])
        (some [9]) ∧
      VectoredSlice.frameChecked ⟨[[], [1], [2], []], 2⟩ (.included 1) (.excluded 9)
        (some [0]) none = ([[], [0], [2], []], none) ∧
      ¬ FrameUndone ⟨[[], [1], [2], []], 2⟩ (.included 1) (.excluded 9) (some [0]) none := by
  refine ⟨by decide, ?_, by decide, ?_⟩
  · intro hundone
    have hdrop : VectoredFrame.drop ⟨1, [[9]], some [1], some [0]⟩ [[], [9], [2], []] =
      some [[], [1], [2], []] := hundone
    revert hdrop
    decide
  · intro hundone
    have hslot := hundone 1 (by decide) (by decide)
    revert hslot
    decide

end SwapBufferQueue
