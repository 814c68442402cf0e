/-
The total size of the vectored buffers.  `insert` and `remove` keep the difference
between the counter and the bytes stored in the cells, and so does `resize` of a
vacant buffer; `clear` resets the counter before it removes the elements, so it leaves
the counter short of what it removed.
-/
import SwapBufferQueue.WriteVectored
import SwapBufferQueue.Occupancy

namespace SwapBufferQueue

universe v x

open Tiling

namespace WriteVectoredBuffer

variable {α : Type v} {N : Option Nat} [AsRef α]

def cellBytes : Option α → Nat
  | none => 0
  | some value => (AsRef.asRef value).length

/-- The bytes stored in the cells of a range. -/
def bytesBetween (b : WriteVectoredBuffer α N) (first last : Nat) : Nat :=
  ∑ j ∈ Finset.Ico first last, cellBytes (b.cell j)

/-- The bytes of the elements inserted and not yet removed. -/
def storedBytes (b : WriteVectoredBuffer α N) : Nat :=
  b.bytesBetween 0 b.owned.length

/-- How far the counter is from what it counts. -/
def imbalance (b : WriteVectoredBuffer α N) : Usize :=
  b.totalSize - BitVec.ofNat 64 b.storedBytes

theorem imbalance_eq_zero_iff {b : WriteVectoredBuffer α N} :
    b.imbalance = 0 ↔ b.totalSize = BitVec.ofNat 64 b.storedBytes :=
  sub_eq_zero

def byteLength (values : List α) : Nat :=
  (values.map fun value => (AsRef.asRef value).length).sum

theorem sum_cellBytes_getElem? (values : List α) :
    ∑ k ∈ Finset.range values.length, cellBytes values[k]? = byteLength values := by
  induction values with
  | nil => rfl
  | cons value rest ih =>
      rw [List.length_cons, Finset.sum_range_succ']
      simp only [List.getElem?_cons_succ, List.getElem?_cons_zero]
      rw [ih, cellBytes, byteLength, byteLength, List.map_cons, List.sum_cons,
        Nat.add_comm]

theorem bytesBetween_of_holds {b : WriteVectoredBuffer α N} {first : Nat}
    {values : List α} (hholds : Holds b first values) :
    b.bytesBetween first (first + values.length) = byteLength values := by
  rw [bytesBetween, Finset.sum_Ico_eq_sum_range, Nat.add_sub_cancel_left,
    ← sum_cellBytes_getElem?]
  apply Finset.sum_congr rfl
  intro k hk
  rw [← hholds k (Finset.mem_range.mp hk)]
  rfl

theorem storedBytes_eq_bytesBetween {b : WriteVectoredBuffer α N} {first last : Nat}
    (hle : last ≤ b.owned.length) (hnone : NoneOutside b first last) :
    b.storedBytes = b.bytesBetween first last := by
  rw [storedBytes, bytesBetween, bytesBetween]
  symm
  apply Finset.sum_subset
  · intro j hj
    rw [Finset.mem_Ico] at hj ⊢
    omega
  · intro j _ hj
    rw [Finset.mem_Ico] at hj
    have hcell : b.cell j = none := hnone j hj
    rw [hcell, cellBytes]

theorem storedBytes_eq_zero {b : WriteVectoredBuffer α N}
    (hnone : ∀ j, b.cell j = none) : b.storedBytes = 0 := by
  rw [storedBytes, bytesBetween]
  apply Finset.sum_eq_zero
  intro j _
  rw [hnone j, cellBytes]

theorem storedBytes_set {b b' : WriteVectoredBuffer α N} {index : Nat}
    {content : Option α} (hlength : b'.owned.length = b.owned.length)
    (hindex : index < b.owned.length)
    (hcell : ∀ j, b'.cell j = if j = index then content else b.cell j) :
    b'.storedBytes + cellBytes (b.cell index) = b.storedBytes + cellBytes content := by
  have hmem : index ∈ Finset.Ico 0 b.owned.length :=
    Finset.mem_Ico.mpr ⟨Nat.zero_le _, hindex⟩
  have hothers : ∑ j ∈ (Finset.Ico 0 b.owned.length).erase index, cellBytes (b'.cell j) =
      ∑ j ∈ (Finset.Ico 0 b.owned.length).erase index, cellBytes (b.cell j) := by
    apply Finset.sum_congr rfl
    intro j hj
    rw [hcell, if_neg (Finset.ne_of_mem_erase hj)]
  have hcontent : b'.cell index = content := by rw [hcell, if_pos rfl]
  rw [storedBytes, storedBytes, bytesBetween, bytesBetween, hlength,
    ← Finset.add_sum_erase _ _ hmem, hothers, hcontent, ← Finset.add_sum_erase _ _ hmem]
  omega

theorem imbalance_insert {b b' : WriteVectoredBuffer α N} {index : Nat} {value : α}
    (hvacant : b.cell index = none) (hinsert : b.insert index value = some b') :
    b'.imbalance = b.imbalance := by
  have hindex : index < b.owned.length :=
    LawfulCellBuffer.insert_fits (B := WriteVectoredBuffer α N) hinsert
  obtain ⟨b'', hspec, hcell⟩ :=
    LawfulCellBuffer.insert_spec (B := WriteVectoredBuffer α N) value hindex
  cases hinsert.symm.trans hspec
  have hset := storedBytes_set
    (LawfulCellBuffer.capacity_insert (B := WriteVectoredBuffer α N) hinsert) hindex hcell
  rw [hvacant, cellBytes, cellBytes, Nat.add_zero] at hset
  have htotal : b'.totalSize =
      b.totalSize + BitVec.ofNat 64 (AsRef.asRef value).length := by
    rw [insert] at hinsert
    split at hinsert
    · cases hinsert
      rfl
    · cases hinsert
  rw [imbalance, hset, htotal, BitVec.ofNat_add, imbalance]
  ring

theorem imbalance_insertAll {values : List α} {b b' : WriteVectoredBuffer α N}
    {index : Nat}
    (hvacant : ∀ j, index ≤ j → j < index + values.length → b.cell j = none)
    (hinsert : insertAll b index values = some b') : b'.imbalance = b.imbalance := by
  induction values generalizing b index with
  | nil =>
      cases hinsert
      rfl
  | cons value rest ih =>
      rw [List.length_cons] at hvacant
      rw [insertAll] at hinsert
      split at hinsert
      · cases hinsert
      · rename_i b₁ hone
        have hindex := LawfulCellBuffer.insert_fits hone
        obtain ⟨b₂, hspec, hcell⟩ := LawfulCellBuffer.insert_spec value hindex
        cases hone.symm.trans hspec
        rw [ih ?_ hinsert]
        · exact imbalance_insert (hvacant index (by omega) (by omega)) hone
        · intro j hfirst hlast
          have hkept := hcell j
          rw [if_neg (by omega)] at hkept
          exact hkept.trans (hvacant j (by omega) (by omega))

theorem imbalance_remove {b b' : WriteVectoredBuffer α N} {index : Nat} {value : α}
    (hcell : b.cell index = some value) (hremove : b.remove index = some (value, b')) :
    b'.imbalance = b.imbalance := by
  obtain ⟨howned, -, -, htotal⟩ := remove_eq_some hremove
  have hset := storedBytes_set
    (LawfulCellBuffer.capacity_remove (B := WriteVectoredBuffer α N) hremove)
    (List.getElem?_eq_some_iff.mp howned).1
    (LawfulCellBuffer.cell_remove (B := WriteVectoredBuffer α N) hremove)
  rw [hcell, cellBytes, cellBytes, Nat.add_zero] at hset
  rw [imbalance, htotal, imbalance, ← hset, BitVec.ofNat_add]
  ring

theorem imbalance_removeAll {values values' : List α} {b b' : WriteVectoredBuffer α N}
    {index : Nat} (hholds : Holds b index values)
    (hremove : removeAll b index values.length = some (values', b')) :
    b'.imbalance = b.imbalance := by
  induction values generalizing b index values' with
  | nil =>
      cases hremove
      rfl
  | cons value rest ih =>
      have hcell := hholds 0 (by simp)
      rw [Nat.add_zero, List.getElem?_cons_zero] at hcell
      rw [List.length_cons, removeAll] at hremove
      split at hremove
      · cases hremove
      · rename_i first b₁ hone
        split at hremove
        · cases hremove
        · rename_i others b₂ hrest
          cases hremove
          obtain ⟨b₃, hspec⟩ := LawfulCellBuffer.remove_spec hcell
          cases hone.symm.trans hspec
          rw [ih ?_ hrest]
          · exact imbalance_remove hcell hone
          · intro k hk
            have hnext := hholds (k + 1) (by simpa using hk)
            rw [List.getElem?_cons_succ, ← Nat.add_assoc, Nat.add_right_comm] at hnext
            have hkept := LawfulCellBuffer.cell_remove hone (index + 1 + k)
            rw [if_neg (by omega)] at hkept
            exact hkept.trans hnext

/-- `clear` leaves the counter short of the bytes it drops. -/
theorem imbalance_clear {b b' : WriteVectoredBuffer α N} {start : Nat}
    {values values' : List α} (hholds : Holds b start values)
    (hclear : Buffer.clear b start (start + values.length) = some (values', b')) :
    b'.imbalance = - BitVec.ofNat 64 b.storedBytes := by
  change removeAll b.resetTotalSize start (start + values.length - start) = _ at hclear
  rw [Nat.add_sub_cancel_left] at hclear
  have hkeep : b'.imbalance = b.resetTotalSize.imbalance :=
    imbalance_removeAll hholds hclear
  rw [hkeep]
  exact zero_sub _

theorem imbalance_resize {b b' : WriteVectoredBuffer α N} {capacity : Nat}
    (hvacant : ∀ j, b.cell j = none) (hresize : Buffer.resize b capacity = some b') :
    b'.imbalance = b.imbalance := by
  have hvacant' : ∀ j, b'.cell j = none := LawfulDrain.cell_resize hresize
  have htotal : b'.totalSize = b.totalSize := by
    cases N with
    | none =>
        cases hresize
        rfl
    | some n => cases hresize
  rw [imbalance, imbalance, storedBytes_eq_zero hvacant, storedBytes_eq_zero hvacant',
    htotal]

/-- The slice of the range that holds everything stored in the buffer. -/
theorem totalSize_slice {b : WriteVectoredBuffer α N} {start : Nat} {values : List α}
    {slice : VectoredSlice} (hholds : Holds b start values)
    (hfit : start + values.length ≤ b.owned.length) (hpos : 0 < b.owned.length)
    (hnone : NoneOutside b start (start + values.length)) (hbalance : b.imbalance = 0)
    (hslice : b.slice start (start + values.length) = some slice) :
    slice.totalSize = BitVec.ofNat 64 (slice.deref.map List.length).sum := by
  obtain ⟨slice', hspec, -, htotal, hderef⟩ := slice_spec hholds hfit hpos
  cases hslice.symm.trans hspec
  rw [htotal, imbalance_eq_zero_iff.mp hbalance, storedBytes_eq_bytesBetween hfit hnone,
    bytesBetween_of_holds hholds, hderef, List.map_map]
  rfl

end WriteVectoredBuffer

section Queue

variable {T : Type x} {α : Type v} {N : Option Nat} [AsRef α]

theorem ofNat_eq_zero_iff {n : Nat} : (BitVec.ofNat 64 n : Usize) = 0 ↔ n % 2 ^ 64 = 0 := by
  rw [← BitVec.toNat_inj, BitVec.toNat_ofNat]
  rfl

def Pc.slice? : Pc α VectoredSlice → Option VectoredSlice
  | .slice _ _ _ shown => some shown
  | _ => none

/-- The counters of both buffers and of every slice agree with what they count; a
buffer that was just cleared counts nothing. -/
structure SizesAgree (s : State T (WriteVectoredBuffer α N) α VectoredSlice) : Prop where
  buffers (i : Fin 2) : (s.queue.buffers i).totalSize =
    BitVec.ofNat 64 (s.queue.buffers i).storedBytes
  slices {t : T} {slice : VectoredSlice} : (s.pcs t).slice? = some slice →
    slice.totalSize = BitVec.ofNat 64 (slice.deref.map List.length).sum
  cleared {t : T} {i : Fin 2} :
    s.pcs t = .releaseLength i → (s.queue.buffers i).totalSize = 0

theorem not_sizesAgree {s : State T (WriteVectoredBuffer α N) α VectoredSlice} {t : T}
    {slice : VectoredSlice} (hslice : (s.pcs t).slice? = some slice)
    (hne : slice.totalSize ≠ BitVec.ofNat 64 (slice.deref.map List.length).sum) :
    ¬ SizesAgree s :=
  fun hagree => hne (hagree.slices hslice)

/-- The range that a step drops. -/
def Pc.clears : Pc α VectoredSlice → Option (Fin 2 × Nat × Nat)
  | .releaseClear i start stop => some (i, start, stop)
  | _ => none

/-- A slice that is dropped shows no bytes, up to the size of the counter. -/
def ClearOk (s : State T (WriteVectoredBuffer α N) α VectoredSlice)
    (label : T × Action α) : Prop :=
  ∀ range ∈ (s.pcs label.1).clears,
    (s.queue.buffers range.1).bytesBetween range.2.1 range.2.2 % 2 ^ 64 = 0

instance instDecidableClearOk (s : State T (WriteVectoredBuffer α N) α VectoredSlice)
    (label : T × Action α) : Decidable (ClearOk s label) :=
  inferInstanceAs (Decidable (∀ range ∈ (s.pcs label.1).clears, _))

variable {s : State T (WriteVectoredBuffer α N) α VectoredSlice} {g : Ledger T α} {t : T}

theorem Exact.storedBytes_released (hexact : Exact s.queue g) {i : Fin 2} {stop : Nat}
    (hrange : Range s.queue g i stop stop) : (s.queue.buffers i).storedBytes = 0 := by
  apply WriteVectoredBuffer.storedBytes_eq_zero
  intro j
  exact hexact.noneOutside_range hrange j (by omega)

theorem Sim.imbalance_step (hsim : Sim s g) (hexact : Exact s.queue g)
    {action : Action α} {q' : Queue (WriteVectoredBuffer α N)}
    {pc' : Pc α VectoredSlice} {event : Event α}
    (hmove : Transition s.queue (s.pcs t) action q' pc' event)
    (hclears : (s.pcs t).clears = none) (i : Fin 2) :
    (q'.buffers i).imbalance = (s.queue.buffers i).imbalance := by
  have hset : ∀ {i' : Fin 2} {b : WriteVectoredBuffer α N},
      b.imbalance = (s.queue.buffers i').imbalance →
        ((s.queue.setBuffer i' b).buffers i).imbalance =
          (s.queue.buffers i).imbalance := by
    intro i' b hb
    rw [Queue.buffers_setBuffer]
    split
    · rename_i hi
      rw [hi, hb]
    · rfl
  have hthread := hsim.thread t
  generalize s.pcs t = pc at hmove hthread hclears
  cases hmove with
  | insert value enqueuing spurious b hinsert =>
      have hflight : InFlight s.queue g enqueuing ⟨.reserved t, value⟩ := hthread
      refine hset (WriteVectoredBuffer.imbalance_insertAll ?_ hinsert)
      intro j hfirst hlast
      exact hexact.cell_reserved hflight.at_index rfl hfirst hlast
  | resize dequeuing resize spurious capa b hcapa hne hcheck hresize =>
      have hhidden : Hidden s.queue g dequeuing .staged 0 := hthread
      refine hset (WriteVectoredBuffer.imbalance_resize ?_ hresize)
      intro j
      apply hexact.noneOutside dequeuing.bufferIndex
      rw [hhidden.length_eq]
      omega
  | stage dequeuing resized value rest length spurious b hvalue hle hinsert =>
      have hhidden : Hidden s.queue g dequeuing .staged length := hthread
      refine hset (WriteVectoredBuffer.imbalance_insertAll ?_ hinsert)
      intro j hfirst _
      apply hexact.noneOutside dequeuing.bufferIndex
      rw [hhidden.length_eq]
      omega
  | remove i' start stop value b hlt hremove =>
      have hrange : Range s.queue g i' start stop := hthread
      obtain ⟨first, hcell, -⟩ := hrange.exists_head hsim.shared hlt
      obtain ⟨b', hspec⟩ :=
        LawfulCellBuffer.remove_spec (B := WriteVectoredBuffer α N) hcell
      cases hremove.symm.trans hspec
      exact hset (WriteVectoredBuffer.imbalance_remove hcell hremove)
  | clear _ _ _ _ _ _ _ => cases hclears
  | _ => rfl

/-- A slice that is dropped leaves the counter short of its bytes. -/
theorem Sim.imbalance_clear (hsim : Sim s g) (hexact : Exact s.queue g) {i : Fin 2}
    {start stop : Nat} (hrange : Range s.queue g i start stop) {values : List α}
    {b : WriteVectoredBuffer α N}
    (hclear : Buffer.clear (s.queue.buffers i) start stop = some (values, b)) :
    b.imbalance =
      - BitVec.ofNat 64 ((s.queue.buffers i).bytesBetween start stop) := by
  have hlength := hrange.length_drop
  have hfits : stop ≤ (s.queue.buffers i).owned.length :=
    hrange.stop_eq ▸ hrange.fits
  rw [← WriteVectoredBuffer.storedBytes_eq_bytesBetween hfits
    (hexact.noneOutside_range hrange)]
  rw [← hlength] at hclear
  exact WriteVectoredBuffer.imbalance_clear (hrange.holds_contents hsim.shared) hclear

omit [AsRef α] in
theorem enqueueCheck_slice? (value : List α) (enqueuing : EnqueuingCapacity) :
    (enqueueCheck value enqueuing : Pc α VectoredSlice).slice? = none :=
  enqueueCheck_elim (P := fun pc => pc.slice? = none) (fun _ => rfl) (fun _ _ => rfl)
    fun _ _ _ => rfl

omit [AsRef α] in
theorem dequeueEntry_slice? (dequeuing : DequeuingLength) (resize : ResizeArgs α) :
    (dequeueEntry dequeuing resize : Pc α VectoredSlice).slice? = none :=
  dequeueEntry_elim (P := fun pc => pc.slice? = none) (fun _ => rfl) fun _ => rfl

omit [AsRef α] in
theorem dequeueFinish_slice? (attempt : Attempt) (capacity : Nat)
    (enqueuing : EnqueuingCapacity) :
    (dequeueFinish attempt capacity enqueuing : Pc α VectoredSlice).slice? = none :=
  dequeueFinish_elim (P := fun pc => pc.slice? = none) (fun _ => rfl) (fun _ => rfl)
    (fun _ _ => dequeueEntry_slice? _ _) (fun _ _ _ => rfl) fun _ _ _ => rfl

omit [AsRef α] in
theorem requeueRange_slice? (i : Fin 2) (start stop : Nat) :
    (requeueRange i start stop : Pc α VectoredSlice).slice? = none :=
  requeueRange_elim (P := fun pc => pc.slice? = none) (fun _ => rfl) (fun _ => rfl)
    fun _ => rfl

theorem Local.slice? {q : Queue (WriteVectoredBuffer α N)} {pc pc' : Pc α VectoredSlice}
    {action : Action α} (hmove : Local q pc action pc') : pc'.slice? = none := by
  cases hmove with
  | enqueueLoad _ _ => exact enqueueCheck_slice? _ _
  | enqueueRetry _ _ _ _ => exact enqueueCheck_slice? _ _
  | dequeueNotify _ _ _ _ => exact dequeueFinish_slice? _ _ _
  | dropIter _ _ _ => exact requeueRange_slice? _ _ _
  | requeue _ _ _ _ => exact requeueRange_slice? _ _ _
  | _ => rfl

/-- A slice made of a balanced buffer has the size of what it shows. -/
theorem Sim.totalSize_step (hsim : Sim s g) (hexact : Exact s.queue g)
    (hbalance : ∀ i, (s.queue.buffers i).imbalance = 0) {action : Action α}
    {q' : Queue (WriteVectoredBuffer α N)} {pc' : Pc α VectoredSlice} {event : Event α}
    (hmove : Transition s.queue (s.pcs t) action q' pc' event) {slice : VectoredSlice}
    (hslice : pc'.slice? = some slice) :
    slice.totalSize = BitVec.ofNat 64 (slice.deref.map List.length).sum := by
  have hthread := hsim.thread t
  generalize s.pcs t = pc at hmove hthread
  cases hmove with
  | silent hlocal =>
      rw [hlocal.slice?] at hslice
      cases hslice
  | lock resize _ _ =>
      rw [dequeueEntry_slice?] at hslice
      cases hslice
  | slice i start stop spurious slice' hmade =>
      cases hslice
      have hrange : Range s.queue g i start stop := hthread
      have hlength := hrange.length_drop
      refine WriteVectoredBuffer.totalSize_slice (hrange.holds_contents hsim.shared) ?_
        hrange.capacity_pos ?_ (hbalance i) ?_
      · rw [hlength, hrange.stop_eq]
        exact hrange.fits
      · rw [hlength]
        exact hexact.noneOutside_range hrange
      · rw [hlength]
        exact hmade
  | _ => cases hslice

variable [DecidableEq T]

/-- The sizes agree after a step when the counters are balanced and the slice of the
activity that moved is right. -/
theorem Sim.sizesAgree {pcs : T → Pc α VectoredSlice}
    {q' : Queue (WriteVectoredBuffer α N)} {pc' : Pc α VectoredSlice}
    (hsim : Sim ⟨q', Function.update pcs t pc'⟩ g) (hexact : Exact q' g)
    (hbuffers : ∀ i, (q'.buffers i).imbalance = 0)
    (hslices : ∀ {t' slice}, (pcs t').slice? = some slice →
      slice.totalSize = BitVec.ofNat 64 (slice.deref.map List.length).sum)
    (hslice : ∀ {slice}, pc'.slice? = some slice →
      slice.totalSize = BitVec.ofNat 64 (slice.deref.map List.length).sum) :
    SizesAgree (⟨q', Function.update pcs t pc'⟩ :
      State T (WriteVectoredBuffer α N) α VectoredSlice) := by
  refine ⟨fun i => WriteVectoredBuffer.imbalance_eq_zero_iff.mp (hbuffers i), ?_, ?_⟩
  · intro t' slice hpc
    change (Function.update pcs t pc' t').slice? = _ at hpc
    by_cases ht' : t' = t
    · subst ht'
      rw [Function.update_self] at hpc
      exact hslice hpc
    · rw [Function.update_of_ne ht'] at hpc
      exact hslices hpc
  · intro t' i hpc
    have hrange := hsim.thread t'
    rw [hpc] at hrange
    rw [WriteVectoredBuffer.imbalance_eq_zero_iff.mp (hbuffers i)]
    rw [hexact.storedBytes_released hrange]
    rfl

/-- A step keeps the counters balanced unless it drops bytes with a slice. -/
theorem Sim.sizesAgree_step_iff (hsim : Sim s g) (hexact : Exact s.queue g)
    (hagree : SizesAgree s) {action : Action α}
    {q' : Queue (WriteVectoredBuffer α N)} {pc' : Pc α VectoredSlice} {event : Event α}
    (hmove : Transition s.queue (s.pcs t) action q' pc' event)
    (hsim' : Sim ⟨q', Function.update s.pcs t pc'⟩ (g.next t event)) :
    SizesAgree (⟨q', Function.update s.pcs t pc'⟩ :
      State T (WriteVectoredBuffer α N) α VectoredSlice) ↔ ClearOk s (t, action) := by
  have hbalance : ∀ i, (s.queue.buffers i).imbalance = 0 :=
    fun i => WriteVectoredBuffer.imbalance_eq_zero_iff.mpr (hagree.buffers i)
  have hexact' := hsim.exact_step hexact hmove
  cases hclears : (s.pcs t).clears with
  | none =>
      refine iff_of_true (hsim'.sizesAgree hexact' ?_ hagree.slices ?_) ?_
      · intro i
        rw [hsim.imbalance_step hexact hmove hclears, hbalance]
      · exact hsim.totalSize_step hexact hbalance hmove
      · intro range hrange
        change range ∈ (s.pcs t).clears at hrange
        rw [hclears] at hrange
        cases hrange
  | some range =>
      obtain ⟨i, start, stop⟩ := range
      have hpc : s.pcs t = .releaseClear i start stop := by
        generalize s.pcs t = pc at hclears
        cases pc <;> cases hclears
        rfl
      have hrange : Range s.queue g i start stop := by
        have hthread := hsim.thread t
        rwa [hpc] at hthread
      have hself := hsim'.self
      rw [hpc] at hmove
      cases hmove with
      | silent hlocal =>
          cases hlocal with
          | clearOutOfBounds _ _ _ _ _ => cases hself.cause
      | clear _ _ _ spurious values b hclear =>
          have hbytes := hsim.imbalance_clear hexact hrange hclear
          have hok : ClearOk s (t, .run spurious) ↔ b.imbalance = 0 := by
            rw [hbytes, neg_eq_zero, ofNat_eq_zero_iff, ClearOk, hpc]
            simp [Pc.clears]
          rw [hok]
          constructor
          · intro hagree'
            have hbuffer := hagree'.buffers i
            rw [← WriteVectoredBuffer.imbalance_eq_zero_iff] at hbuffer
            change ((s.queue.setBuffer i b).buffers i).imbalance = 0 at hbuffer
            rwa [Queue.buffers_setBuffer, if_pos rfl] at hbuffer
          · intro hzero
            refine hsim'.sizesAgree hexact' ?_ hagree.slices (fun hslice => by cases hslice)
            intro i'
            rw [Queue.buffers_setBuffer]
            split
            · exact hzero
            · exact hbalance i'

omit [DecidableEq T] in
theorem SizesAgree.of_initial (hinitial : Initial s) : SizesAgree s := by
  have htotal : ∀ i, (s.queue.buffers i).totalSize = 0 := by
    intro i
    rcases hinitial.buffers i with hdefault | ⟨capacity, hresize⟩
    · rw [hdefault]
      cases N with
      | none => rfl
      | some n => rfl
    · cases N with
      | none =>
          rw [← Option.some.inj hresize]
          rfl
      | some n => cases hresize
  refine ⟨fun i => ?_, ?_, fun _ => htotal _⟩
  · rw [htotal, WriteVectoredBuffer.storedBytes_eq_zero (hinitial.cell_eq_none i)]
    rfl
  · intro t slice hslice
    rw [hinitial.2] at hslice
    cases hslice

/-- Along a run the total sizes are right in every state exactly as long as no slice
that shows bytes is dropped. -/
theorem sizes_agree_everywhere_iff
    {start : State T (WriteVectoredBuffer α N) α VectoredSlice}
    (hinitial : Initial start) {trace : List ((T × Action α) × Event α)}
    (hrun : Runs.Run SwapBufferQueue.step SizeOk start trace s) :
    (∀ first rest state, first ++ rest = trace →
        Runs.Run SwapBufferQueue.step SizeOk start first state → SizesAgree state) ↔
      Runs.Run SwapBufferQueue.step
        (fun state label => SizeOk state label ∧ ClearOk state label) start trace s := by
  apply Runs.Run.everywhere_iff (SizesAgree.of_initial hinitial) ?_ hrun
  rintro trace state state' ⟨t, action⟩ event hprefix hagree hsize hstep
  have hsim := sim_of_run hinitial (fun _ _ h => h) hprefix
  have hexact := exact_of_run hinitial (fun _ _ h => h) hprefix
  have hsim' := hsim.step hsize hstep
  obtain ⟨q', pc', hmove, rfl⟩ := step_cases hstep
  exact hsim.sizesAgree_step_iff hexact hagree hmove hsim'

end Queue

/-- The calls of one thread that enqueues one byte and dequeues it. -/
def byteLabels : List (Unit × Action (List UInt8)) :=
  [((), .tryEnqueue [[5]])] ++ List.replicate 4 ((), .run false) ++
    [((), .tryDequeue)] ++ List.replicate 10 ((), .run false)

/-- A buffer that was drained by an iterator is used again. -/
theorem sizes_agree_everywhere_iff_drained :
    ∃ (start : State Unit (WriteVectoredVecBuffer (List UInt8)) (List UInt8)
          VectoredSlice) (trace : _)
        (s : State Unit (WriteVectoredVecBuffer (List UInt8)) (List UInt8)
          VectoredSlice),
      Initial start ∧ Runs.Run SwapBufferQueue.step SizeOk start trace s ∧
      (s.pcs ()).slice? = some ⟨[[], [5], []], 1⟩ ∧
      (∀ first rest state, first ++ rest = trace →
        Runs.Run SwapBufferQueue.step SizeOk start first state → SizesAgree state) := by
  have hrun := Runs.run_of_isSome SwapBufferQueue.step
    (fun state label => SizeOk state label ∧ ClearOk state label)
    (State.ofQueue ((Queue.withCapacity 1).get (by decide +kernel)) :
      State Unit (WriteVectoredVecBuffer (List UInt8)) (List UInt8) VectoredSlice)
    (List.flatten [byteLabels, [((), .intoIter), ((), .next), ((), .drop)],
      List.replicate 3 ((), .run false), byteLabels,
      [((), .intoIter), ((), .next), ((), .drop)], List.replicate 3 ((), .run false),
      byteLabels])
    (by decide +kernel) (by decide +kernel)
  have hinitial := initial_withCapacity (T := Unit)
    (B := WriteVectoredVecBuffer (List UInt8))
    (show (Queue.withCapacity 1).isSome = true by decide +kernel)
  have hsized := hrun.mono fun _ _ hboth => hboth.1
  exact ⟨_, _, _, hinitial, hsized, by decide +kernel,
    (sizes_agree_everywhere_iff hinitial hsized).mpr hrun⟩

/-- A buffer whose slice was dropped is used again: its slice of one byte has total
size zero. -/
theorem total_size_wrong_after_slice_drop :
    ∃ (start : State Unit (WriteVectoredVecBuffer (List UInt8)) (List UInt8)
          VectoredSlice) (trace : _)
        (s : State Unit (WriteVectoredVecBuffer (List UInt8)) (List UInt8)
          VectoredSlice) (slice : VectoredSlice),
      Initial start ∧ Runs.Run SwapBufferQueue.step SizeOk start trace s ∧
      (s.pcs ()).slice? = some slice ∧ slice.totalSize = 0 ∧ slice.deref = [[5]] ∧
      ¬ SizesAgree s := by
  have hrun := Runs.run_of_isSome SwapBufferQueue.step SizeOk
    (State.ofQueue ((Queue.withCapacity 1).get (by decide +kernel)) :
      State Unit (WriteVectoredVecBuffer (List UInt8)) (List UInt8) VectoredSlice)
    (List.flatten [byteLabels, [((), .drop)], List.replicate 3 ((), .run false), byteLabels,
      [((), .drop)], List.replicate 3 ((), .run false), byteLabels])
    (by decide +kernel) (by decide +kernel)
  have hinitial := initial_withCapacity (T := Unit)
    (B := WriteVectoredVecBuffer (List UInt8))
    (show (Queue.withCapacity 1).isSome = true by decide +kernel)
  refine ⟨_, _, _, ⟨[[], [5], []], 0⟩, hinitial, hrun, ?shown, rfl, rfl,
    not_sizesAgree ?shown (by decide)⟩
  decide +kernel

end SwapBufferQueue
