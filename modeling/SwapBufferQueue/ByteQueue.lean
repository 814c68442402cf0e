/-
Queues of bytes.  Bytes are neither dropped nor drained, so that `clear` of a byte buffer
does nothing and shows nothing.  To follow the bytes through the queue, the same buffers
are taken once more with the bytes of a cleared range in view; the steps of the two
machines are the same.
-/
import SwapBufferQueue.WriteBytes
import SwapBufferQueue.BatchIdentity
import SwapBufferQueue.Delivery

namespace SwapBufferQueue

universe x

open Segments Tiling

/-- What the queue relies on of a byte buffer. -/
class LawfulFramedBuffer (B : Type) {headerSize trailerSize : outParam Nat}
    [Buffer B UInt8 (BytesSlice headerSize trailerSize)] [FramedBuffer B] : Prop where
  insertInto_eq (b : B) (index : Nat) (value : List UInt8) :
    Buffer.insertInto b index value =
      FramedBuffer.insertWriter b index (WriteBytesSlice.ofBytes value)
  capacity_congr {b b' : B} :
    (FramedBuffer.bytes b).length = (FramedBuffer.bytes b').length →
      Buffer.capacity b = Buffer.capacity b'
  clear_eq (b : B) (start stop : Nat) : Buffer.clear b start stop = some ([], b)
  capacity_resize {b b' : B} {capacity : Nat} :
    Buffer.resize b capacity = some b' → Buffer.capacity b' = capacity

instance (headerSize trailerSize : Nat) :
    LawfulFramedBuffer (WriteVecBuffer headerSize trailerSize) where
  insertInto_eq _ _ _ := rfl
  capacity_congr hlength := congrArg (· - (headerSize + trailerSize)) hlength
  clear_eq _ _ _ := rfl
  capacity_resize hresize := by
    cases hresize
    exact WriteVecBuffer.capacity_resize _ _

instance (n headerSize trailerSize : Nat) :
    LawfulFramedBuffer (WriteArrayBuffer n headerSize trailerSize) where
  insertInto_eq _ _ _ := rfl
  capacity_congr _ := rfl
  clear_eq _ _ _ := rfl
  capacity_resize hresize := by cases hresize

/-- A byte buffer, seen with the bytes it gives up. -/
structure Traced (B : Type) where
  buffer : B

namespace Traced

variable {B : Type} {headerSize trailerSize : Nat}
variable [Buffer B UInt8 (BytesSlice headerSize trailerSize)] [FramedBuffer B]

def bytes (b : Traced B) : List UInt8 := FramedBuffer.bytes b.buffer

/-- The byte of a cell, behind the header. -/
def cell (b : Traced B) (j : Nat) : Option UInt8 :=
  if j < Buffer.capacity b.buffer then (bytes b)[headerSize + j]? else none

/-- The queue inserts no empty value, and there are no iterators over bytes. -/
instance instBuffer : Buffer (Traced B) UInt8 (BytesSlice headerSize trailerSize) where
  default := ⟨Buffer.default⟩
  capacity b := Buffer.capacity b.buffer
  insertInto b index value :=
    if value = [] then some b else (Buffer.insertInto b.buffer index value).map mk
  slice b := Buffer.slice b.buffer
  clear b start stop :=
    some (Segments.segment (bytes b) (headerSize + start) (stop - start), b)
  remove b index := (cell b index).map fun byte => (byte, b)
  resize b capacity := (Buffer.resize b.buffer capacity).map mk

theorem capacity_mk (b : B) : Buffer.capacity (mk b) = Buffer.capacity b := rfl

theorem slice_mk (b : B) (start stop : Nat) :
    (Buffer.slice (mk b) start stop : Option (BytesSlice headerSize trailerSize)) =
      Buffer.slice b start stop := rfl

theorem insertInto_mk (b : B) (index : Nat) {value : List UInt8} (hvalue : value ≠ []) :
    Buffer.insertInto (mk b) index value = (Buffer.insertInto b index value).map mk :=
  if_neg hvalue

theorem resize_mk (b : B) (capacity : Nat) :
    Buffer.resize (mk b) capacity = (Buffer.resize b capacity).map mk := rfl

theorem length_bytes {b : Traced B} (hpos : 0 < Buffer.capacity b) :
    (bytes b).length = headerSize + Buffer.capacity b + trailerSize :=
  FramedBuffer.length_bytes hpos

/-- Cells that are all there are a segment of the bytes. -/
theorem segment_eq {b : Traced B} {start : Nat} {value : List UInt8}
    (hcells : ∀ k, k < value.length → cell b (start + k) = value[k]?) :
    Segments.segment (bytes b) (headerSize + start) value.length = value := by
  apply List.ext_getElem?
  intro k
  rw [Segments.segment, List.getElem?_take]
  split
  · rename_i hk
    have hcell := hcells k hk
    rw [cell] at hcell
    split at hcell
    · rw [List.getElem?_drop, Nat.add_assoc, hcell]
    · rw [List.getElem?_eq_getElem hk] at hcell
      cases hcell
  · rename_i hk
    exact (List.getElem?_eq_none (Nat.le_of_not_lt hk)).symm

variable [LawfulFramedBuffer B]

theorem insertInto_eq (b : Traced B) (index : Nat) {value : List UInt8}
    (hvalue : value ≠ []) :
    (Buffer.insertInto b index value).map bytes =
      insertBytes headerSize (bytes b) index (WriteBytesSlice.ofBytes value) := by
  change (if value = [] then some b else _).map bytes = _
  rw [if_neg hvalue, Option.map_map, LawfulFramedBuffer.insertInto_eq]
  exact FramedBuffer.bytes_insertWriter b.buffer index _

theorem capacity_insertInto {b b' : Traced B} {index : Nat} {value : List UInt8}
    (hinsert : Buffer.insertInto b index value = some b') :
    Buffer.capacity b' = Buffer.capacity b := by
  by_cases hvalue : value = []
  · subst hvalue
    cases hinsert
    rfl
  · have hbytes := insertInto_eq b index hvalue
    rw [hinsert] at hbytes
    exact LawfulFramedBuffer.capacity_congr (B := B) (length_writeAt hbytes.symm)

theorem exists_insertInto {b : Traced B} {index : Nat} {value : List UInt8}
    (hfits : index + value.length ≤ Buffer.capacity b) :
    ∃ b', Buffer.insertInto b index value = some b' ∧
      ∀ j, cell b' j = if index ≤ j ∧ j < index + value.length then value[j - index]?
        else cell b j := by
  by_cases hvalue : value = []
  · subst hvalue
    refine ⟨b, rfl, fun j => ?_⟩
    rw [if_neg (by simp)]
  · have hpos := List.length_pos_iff.mpr hvalue
    have hlength := length_bytes (b := b) (by omega)
    have hwrite : insertBytes headerSize (bytes b) index (WriteBytesSlice.ofBytes value) =
        some _ := if_pos (show headerSize + index + value.length ≤ (bytes b).length by omega)
    have hbytes := insertInto_eq b index hvalue
    rw [hwrite] at hbytes
    obtain ⟨b', hinsert, hcontent⟩ := Option.map_eq_some_iff.mp hbytes
    refine ⟨b', hinsert, fun j => ?_⟩
    have hcapacity : Buffer.capacity b'.buffer = Buffer.capacity b.buffer :=
      capacity_insertInto hinsert
    rw [← hcontent] at hwrite
    have hwritten : (WriteBytesSlice.ofBytes value).write
        (Segments.segment (bytes b) (headerSize + index) value.length) = value := by
      have hlen : (Segments.segment (bytes b) (headerSize + index)
          (WriteBytesSlice.ofBytes value).size).length = (WriteBytesSlice.ofBytes value).size :=
        length_segment (show headerSize + index + value.length ≤ (bytes b).length by omega)
      exact if_pos hlen
    rw [cell, cell, hcapacity, getElem?_writeAt hwrite,
      show (WriteBytesSlice.ofBytes value).size = value.length from rfl, hwritten]
    by_cases hin : index ≤ j ∧ j < index + value.length
    · rw [if_pos (show j < Buffer.capacity b.buffer from Nat.lt_of_lt_of_le hin.2 hfits),
        if_pos (by omega), if_pos hin, Nat.add_sub_add_left]
    · rw [if_neg hin, if_neg (show ¬ (headerSize + index ≤ headerSize + j ∧
        headerSize + j < headerSize + index + value.length) by omega)]

omit [LawfulFramedBuffer B] in
theorem exists_slice {b : Traced B} {start : Nat} {value : List UInt8}
    (hcells : ∀ k, k < value.length → cell b (start + k) = value[k]?)
    (hfits : start + value.length ≤ Buffer.capacity b) (hpos : 0 < Buffer.capacity b) :
    ∃ slice : BytesSlice headerSize trailerSize,
      Buffer.slice b start (start + value.length) = some slice ∧
        ∃ header trailer, slice.Shows header value trailer := by
  have hlength := length_bytes hpos
  have hsegment := segment_eq hcells
  have hparts : ((bytes b).take (headerSize + (start + value.length) + trailerSize)).drop start =
      Segments.segment (bytes b) start headerSize ++ value ++
        Segments.segment (bytes b) (headerSize + (start + value.length)) trailerSize := by
    have hstop : headerSize + (start + value.length) + trailerSize - start =
        headerSize + value.length + trailerSize := by omega
    rw [List.drop_take, hstop, List.take_add, List.take_add, List.drop_drop, List.drop_drop,
      Nat.add_comm start headerSize]
    rw [Segments.segment] at hsegment
    rw [hsegment, Segments.segment, Segments.segment,
      show start + (headerSize + value.length) = headerSize + (start + value.length) by omega]
  refine ⟨_, (FramedBuffer.slice_eq b.buffer _ _).trans (if_pos ⟨by omega, ?_⟩),
    Segments.segment (bytes b) start headerSize,
    Segments.segment (bytes b) (headerSize + (start + value.length)) trailerSize, ?_⟩
  · change _ ≤ (bytes b).length
    omega
  · change (BytesSlice.mk (((bytes b).take _).drop start)).Shows _ value _
    rw [hparts]
    apply BytesSlice.shows_of_append
    · rw [Segments.segment, List.length_take, List.length_drop]
      omega
    · rw [Segments.segment, List.length_take, List.length_drop]
      omega

instance instLawfulBuffer : LawfulBuffer (Traced B) where
  cell := cell
  Shows slice value := ∃ header trailer, slice.Shows header value trailer
  capacity_insertInto := capacity_insertInto
  insertInto_spec := exists_insertInto
  slice_spec := exists_slice
  clear_spec {b start value} hcells hfits := by
    refine ⟨b, ?_, rfl⟩
    change some (Segments.segment (bytes b) (headerSize + start)
      (start + value.length - start), b) = _
    rw [Nat.add_sub_cancel_left, segment_eq hcells]
  remove_spec {b index value} hcell hindex := by
    refine ⟨b, ?_, rfl, fun _ _ => rfl⟩
    change (cell b index).map (fun byte => (byte, b)) = _
    rw [hcell]
    rfl
  capacity_resize {b b' capacity} hresize := by
    obtain ⟨buffer, hbuffer, rfl⟩ := Option.map_eq_some_iff.mp hresize
    exact LawfulFramedBuffer.capacity_resize (B := B) hbuffer

end Traced

section Machine

variable {T : Type x} {B : Type} {headerSize trailerSize : Nat}
variable [Buffer B UInt8 (BytesSlice headerSize trailerSize)] [FramedBuffer B]

def Queue.traced (q : Queue B) : Queue (Traced B) :=
  ⟨q.enqueuingCapacity, q.dequeuingLength, fun i => ⟨q.buffers i⟩, q.buffersLength, q.capacity⟩

def State.traced (s : State T B UInt8 (BytesSlice headerSize trailerSize)) :
    State T (Traced B) UInt8 (BytesSlice headerSize trailerSize) :=
  ⟨s.queue.traced, s.pcs⟩

omit [Buffer B UInt8 (BytesSlice headerSize trailerSize)] [FramedBuffer B] in
theorem Queue.traced_buffers (q : Queue B) (i : Fin 2) :
    q.traced.buffers i = ⟨q.buffers i⟩ := rfl

omit [Buffer B UInt8 (BytesSlice headerSize trailerSize)] [FramedBuffer B] in
theorem Queue.traced_enqueuingCapacity (q : Queue B) :
    q.traced.enqueuingCapacity = q.enqueuingCapacity := rfl

omit [FramedBuffer B] in
theorem Queue.traced_setBuffer (q : Queue B) (i : Fin 2) (b : B) :
    (q.setBuffer i b).traced = q.traced.setBuffer i ⟨b⟩ := by
  have hbuffers : (fun j => Traced.mk (Function.update q.buffers i b j)) =
      Function.update (fun j => Traced.mk (q.buffers j)) i ⟨b⟩ := by
    funext j
    by_cases hj : j = i
    · subst hj
      rw [Function.update_self, Function.update_self]
    · rw [Function.update_of_ne hj, Function.update_of_ne hj]
  exact congrArg (fun buffers => Queue.mk q.enqueuingCapacity q.dequeuingLength buffers
    q.buffersLength q.capacity) hbuffers

variable [LawfulFramedBuffer B] {q q' : Queue B}
  {pc pc' : Pc UInt8 (BytesSlice headerSize trailerSize)} {event : Event UInt8}

/-- The same event, with the bytes that are given up. -/
def Event.Traces (event event' : Event UInt8) : Prop :=
  event' = event ∨ ∃ i values, event = .consumed i [] ∧ event' = .consumed i values

theorem Queue.run_traced {spurious : Bool}
    (hvalue : ∀ value enqueuing, pc = .enqueueInsert value enqueuing → value ≠ [])
    (hrun : q.run spurious pc = some (q', pc', event)) :
    ∃ event', q.traced.run spurious pc = some (q'.traced, pc', event') ∧
      event.Traces event' := by
  cases pc with
  | idle _ => cases hrun
  | slice _ _ _ _ => cases hrun
  | iter _ _ _ => cases hrun
  | panicked _ => cases hrun
  | enqueueLoad value =>
      cases hrun
      exact ⟨_, rfl, Or.inl rfl⟩
  | enqueueReserve value enqueuing next =>
      simp only [Queue.run] at hrun
      split at hrun
      · rename_i hsame
        cases hrun
        exact ⟨_, if_pos hsame, Or.inl rfl⟩
      · rename_i hother
        cases hrun
        exact ⟨_, if_neg hother, Or.inl rfl⟩
  | enqueueInsert value enqueuing =>
      refine ⟨event, ?_, Or.inl rfl⟩
      simp only [Queue.run] at hrun ⊢
      rw [Queue.traced_buffers, Traced.insertInto_mk _ _ (hvalue value enqueuing rfl),
        Traced.capacity_mk]
      split at hrun
      · rename_i hlt
        cases hrun
        rw [if_pos hlt]
      · rename_i hle
        rw [if_neg hle]
        split at hrun
        · rename_i hnone
          cases hrun
          rw [hnone]
          rfl
        · rename_i b hsome
          cases hrun
          rw [hsome, Queue.traced_setBuffer]
          rfl
  | enqueueAcknowledge value enqueuing =>
      cases hrun
      exact ⟨_, rfl, Or.inl rfl⟩
  | dequeueLock resize =>
      simp only [Queue.run] at hrun
      split at hrun
      · rename_i hnone
        cases hrun
        refine ⟨_, ?_, Or.inl rfl⟩
        simp only [Queue.run]
        rw [show q.traced.dequeuingLength = q.dequeuingLength from rfl, hnone]
        rfl
      · rename_i dequeuing hsome
        cases hrun
        refine ⟨_, ?_, Or.inl rfl⟩
        simp only [Queue.run]
        rw [show q.traced.dequeuingLength = q.dequeuingLength from rfl, hsome]
        rfl
  | dequeueResize dequeuing resize =>
      refine ⟨event, ?_, Or.inl rfl⟩
      simp only [Queue.run] at hrun ⊢
      rw [Queue.traced_buffers, Traced.capacity_mk]
      split at hrun
      · cases hrun
        rfl
      · split at hrun
        · rename_i hcheck
          rw [if_pos hcheck, Traced.resize_mk]
          split at hrun
          · cases hrun
          · rename_i b hresize
            cases hrun
            rw [hresize, Queue.traced_setBuffer]
            rfl
        · rename_i hcheck
          cases hrun
          rw [if_neg hcheck]
  | dequeueInsert dequeuing resized values length =>
      refine ⟨event, ?_, Or.inl rfl⟩
      simp only [Queue.run] at hrun ⊢
      rw [Queue.traced_buffers, Traced.capacity_mk]
      split at hrun
      · cases hrun
        rfl
      · rename_i value rest
        split at hrun
        · rename_i hempty
          cases hrun
          rw [if_pos hempty]
        · rename_i hempty
          have hne : value ≠ [] := fun hnil => hempty (by rw [hnil]; rfl)
          rw [if_neg hempty, Traced.insertInto_mk _ _ hne]
          split at hrun
          · rename_i hlt
            cases hrun
            rw [if_pos hlt]
          · rename_i hle
            rw [if_neg hle]
            split at hrun
            · rename_i hnone
              cases hrun
              rw [hnone]
              rfl
            · rename_i b hsome
              cases hrun
              rw [hsome, Queue.traced_setBuffer]
              rfl
  | dequeuePublish attempt =>
      simp only [Queue.run] at hrun
      split at hrun
      · rename_i hpos
        cases hrun
        exact ⟨_, if_pos hpos, Or.inl rfl⟩
      · rename_i hzero
        cases hrun
        exact ⟨_, if_neg hzero, Or.inl rfl⟩
  | dequeueLoad attempt =>
      refine ⟨event, ?_, Or.inl rfl⟩
      simp only [Queue.run] at hrun ⊢
      rw [Queue.traced_buffers, Traced.capacity_mk, Queue.traced_enqueuingCapacity]
      split at hrun
      · rename_i hindex
        cases hrun
        rw [if_pos hindex]
      · rename_i hindex
        rw [if_neg hindex]
        split at hrun
        · rename_i hempty
          cases hrun
          rw [if_pos hempty]
        · rename_i hwork
          rw [if_neg hwork]
          split at hrun
          · rename_i hlt
            cases hrun
            rw [if_pos hlt]
          · rename_i hle
            rw [if_neg hle]
            split at hrun
            · cases hrun
              rfl
            · cases hrun
              rfl
  | dequeueSwap attempt capacity nextEnqueuing enqueuing =>
      simp only [Queue.run] at hrun
      split at hrun
      · rename_i hsame
        cases hrun
        exact ⟨_, if_pos hsame, Or.inl rfl⟩
      · rename_i hother
        cases hrun
        exact ⟨_, if_neg hother, Or.inl rfl⟩
  | dequeueLoadCapacity attempt capacity enqueuing =>
      simp only [Queue.run] at hrun
      split at hrun
      · rename_i hne
        cases hrun
        exact ⟨_, if_pos hne, Or.inl rfl⟩
      · rename_i heq
        cases hrun
        exact ⟨_, if_neg heq, Or.inl rfl⟩
  | dequeueStoreCapacity attempt capacity enqueuing =>
      cases hrun
      exact ⟨_, rfl, Or.inl rfl⟩
  | dequeueNotify attempt capacity enqueuing =>
      cases hrun
      exact ⟨_, rfl, Or.inl rfl⟩
  | dequeueSpin i length spins =>
      simp only [Queue.run] at hrun
      split at hrun
      · rename_i hle
        cases hrun
        exact ⟨_, if_pos hle, Or.inl rfl⟩
      · rename_i hlt
        split at hrun
        · rename_i hspins
          cases hrun
          exact ⟨_, (if_neg hlt).trans (if_pos hspins), Or.inl rfl⟩
        · rename_i hspins
          cases hrun
          exact ⟨_, (if_neg hlt).trans (if_neg hspins), Or.inl rfl⟩
  | dequeueSlice i start stop =>
      refine ⟨event, ?_, Or.inl rfl⟩
      simp only [Queue.run] at hrun ⊢
      rw [Queue.traced_buffers, Traced.slice_mk]
      split at hrun
      · cases hrun
        rfl
      · cases hrun
        rfl
  | releaseClear i start stop =>
      simp only [Queue.run, LawfulFramedBuffer.clear_eq] at hrun
      cases hrun
      refine ⟨.consumed i (Segments.segment (FramedBuffer.bytes (q.buffers i))
        (headerSize + start) (stop - start)), ?_, Or.inr ⟨i, _, rfl, rfl⟩⟩
      rw [Queue.traced_setBuffer]
      rfl
  | releaseLength i =>
      cases hrun
      exact ⟨_, rfl, Or.inl rfl⟩
  | storeDequeuing dequeuing outcome =>
      cases hrun
      exact ⟨_, rfl, Or.inl rfl⟩

theorem Queue.act_traced {action : Action UInt8}
    (hvalue : ∀ value enqueuing, pc = .enqueueInsert value enqueuing → value ≠ [])
    (hiter : ∀ i start stop, pc ≠ .iter i start stop)
    (hact : q.act pc action = some (q', pc', event)) :
    ∃ event', q.traced.act pc action = some (q'.traced, pc', event') ∧
      event.Traces event' := by
  cases action with
  | run spurious => exact Queue.run_traced hvalue hact
  | tryEnqueue value =>
      cases pc with
      | idle _ =>
          simp only [Queue.act] at hact
          split at hact
          · rename_i hempty
            cases hact
            exact ⟨_, if_pos hempty, Or.inl rfl⟩
          · rename_i hvalue
            cases hact
            exact ⟨_, if_neg hvalue, Or.inl rfl⟩
      | _ => cases hact
  | _ =>
      cases pc with
      | iter i start stop => exact absurd rfl (hiter i start stop)
      | idle _ =>
          cases hact
          all_goals exact ⟨_, rfl, Or.inl rfl⟩
      | slice _ _ _ _ =>
          cases hact
          all_goals exact ⟨_, rfl, Or.inl rfl⟩
      | _ => cases hact

variable [DecidableEq T]

theorem step_traced {s s' : State T B UInt8 (BytesSlice headerSize trailerSize)} {t : T}
    {action : Action UInt8}
    (hvalue : ∀ value enqueuing, s.pcs t = .enqueueInsert value enqueuing → value ≠ [])
    (hiter : ∀ i start stop, s.pcs t ≠ .iter i start stop)
    (hstep : step s (t, action) = some (s', event)) :
    ∃ event', step s.traced (t, action) = some (s'.traced, event') ∧ event.Traces event' := by
  unfold step at hstep
  split at hstep
  · cases hstep
  · rename_i q' pc' shown hact
    cases hstep
    obtain ⟨event', htraced, htraces⟩ := Queue.act_traced hvalue hiter hact
    exact ⟨event', step_of_act rfl htraced, htraces⟩

omit [LawfulFramedBuffer B] in
theorem Queue.new_traced (hnew : q ∈ (Queue.new : Option (Queue B))) :
    q.traced ∈ (Queue.new : Option (Queue (Traced B))) := by
  unfold Queue.new at hnew ⊢
  simp only at hnew ⊢
  split at hnew
  · rename_i hcheck
    obtain ⟨enqueuing, hword, rfl⟩ := Option.map_eq_some_iff.mp hnew
    exact (if_pos hcheck).trans (Option.map_eq_some_iff.mpr ⟨enqueuing, hword, rfl⟩)
  · cases hnew

omit [LawfulFramedBuffer B] in
theorem Queue.withCapacity_traced {capacity : Nat}
    (hcreated : q ∈ (Queue.withCapacity capacity : Option (Queue B))) :
    q.traced ∈ (Queue.withCapacity capacity : Option (Queue (Traced B))) := by
  have hdefault : (Buffer.default : Traced B) = ⟨Buffer.default⟩ := rfl
  unfold Queue.withCapacity at hcreated ⊢
  rw [hdefault, Traced.resize_mk]
  split at hcreated
  · rename_i hcheck
    rw [if_pos hcheck]
    split at hcreated
    · rename_i b enqueuing hresize hword
      cases hcreated
      rw [hresize, hword]
      rfl
    · cases hcreated
  · cases hcreated

omit [LawfulFramedBuffer B] [DecidableEq T] in
theorem initial_traced {s : State T B UInt8 (BytesSlice headerSize trailerSize)}
    (hinitial : Initial s) : Initial s.traced := by
  refine ⟨?_, hinitial.2⟩
  rcases hinitial.1 with hnew | ⟨capacity, hcreated⟩
  · exact Or.inl (Queue.new_traced hnew)
  · exact Or.inr ⟨capacity, Queue.withCapacity_traced hcreated⟩

end Machine

section Overwrite

universe u v w

variable {T : Type x} {B : Type u} {α : Type v} {σ : Type w} [DecidableEq T] [Buffer B α σ]
  [LawfulBuffer B] {s : State T B α σ} {g : Ledger T α} {t : T}

omit [Buffer B α σ] [LawfulBuffer B] in
theorem Ledger.next_consumed_nil (g : Ledger T α) (t : T) (i : Fin 2) :
    g.next t (.consumed i []) = g := by
  simp only [Ledger.next, List.length_nil, Nat.add_zero, List.append_nil]

/-- The holder of a slice may write around the cells of its range. -/
theorem Sim.overwrite (hsim : Sim s g) {i : Fin 2} {start stop : Nat} {slice slice' : σ}
    (hpc : s.pcs t = .slice i start stop slice) {b : B}
    (hcapacity : Buffer.capacity b = Buffer.capacity (s.queue.buffers i))
    (hcells : ∀ j, start ≤ j → j < stop →
      LawfulBuffer.cell b j = LawfulBuffer.cell (s.queue.buffers i) j)
    (hshows : LawfulBuffer.Shows B slice' ((contents (g.tiles i)).drop start)) :
    Sim (⟨s.queue.setBuffer i b, Function.update s.pcs t (.slice i start stop slice')⟩ :
      State T B α σ) g := by
  have hrange : Range s.queue g i start stop := by
    have hthread := hsim.thread t
    rw [hpc] at hthread
    exact hthread.1
  have hshared : Shared (s.queue.setBuffer i b) (g.next t (.consumed i [])) :=
    hsim.shared.consume hrange rfl hcapacity hcells
  have hrange' : Range (s.queue.setBuffer i b) (g.next t (.consumed i [])) i start stop :=
    hrange.consume [] hrange.le hcapacity
  rw [Ledger.next_consumed_nil] at hshared hrange'
  exact hsim.held_step (by rw [hpc]; rfl) rfl hshared ⟨hrange', hshows⟩ rfl
    (fun _ => Iff.rfl) fun _ _ => Queue.capacity_setBuffer hcapacity _

end Overwrite

section Restore

variable {B : Type} {headerSize trailerSize : Nat}
variable [Buffer B UInt8 (BytesSlice headerSize trailerSize)] [FramedBuffer B]
variable {b : B} {start : Nat} {slice : BytesSlice headerSize trailerSize}
  {header payload trailer : List UInt8}

/-- The bytes of a buffer after a slice was written over. -/
theorem bytes_restore_of_shows (hshows : slice.Shows header payload trailer)
    (hpos : 0 < Buffer.capacity b) (hfits : start + payload.length ≤ Buffer.capacity b) :
    FramedBuffer.bytes (FramedBuffer.restore b start slice) =
      restoreBytes (FramedBuffer.bytes b) start slice ∧
    (restoreBytes (FramedBuffer.bytes b) start slice).length =
      (FramedBuffer.bytes b).length := by
  have hlength := FramedBuffer.length_bytes hpos
  have hbytes := hshows.length_bytes
  have hinside : start + slice.bytes.length ≤ (FramedBuffer.bytes b).length := by omega
  exact ⟨FramedBuffer.bytes_restore hinside, length_restoreBytes hinside⟩

theorem Traced.cell_restore (hshows : slice.Shows header payload trailer)
    (hcapacity : Buffer.capacity (FramedBuffer.restore b start slice) = Buffer.capacity b)
    (hpos : 0 < Buffer.capacity b) (hfits : start + payload.length ≤ Buffer.capacity b)
    {j : Nat} (hstart : start ≤ j) (hstop : j < start + payload.length) :
    Traced.cell ⟨FramedBuffer.restore b start slice⟩ j = payload[j - start]? := by
  obtain ⟨hbytes, -⟩ := bytes_restore_of_shows hshows hpos hfits
  have hlength := FramedBuffer.length_bytes hpos
  have hframe : slice.bytes = header ++ payload ++ trailer := hshows.frame_eq
  have hheader := hshows.length_header
  have htake : ((FramedBuffer.bytes b).take start).length = start := by
    rw [List.length_take]
    omega
  rw [Traced.cell, if_pos (by rw [hcapacity]; omega), Traced.bytes, hbytes, restoreBytes,
    List.append_assoc, List.getElem?_append_right (by omega), htake, hframe,
    List.getElem?_append_left (by simp only [List.length_append]; omega),
    List.getElem?_append_left (by rw [List.length_append]; omega),
    List.getElem?_append_right (by omega), hheader]
  congr 1
  omega

end Restore

end SwapBufferQueue
