/-
Dropping a queue.  `Drop for Queue` is one dequeue of an activity that is alone, whose
slice is dropped at once.
-/
import SwapBufferQueue.Occupancy
import SwapBufferQueue.CellBuffer

namespace SwapBufferQueue

universe u v w x

open Tiling

variable {T : Type x} {B : Type u} {α : Type v} {σ : Type w} [Buffer B α σ]

/-- The elements an event drops or hands out. -/
def Event.elements : Event α → List α
  | .consumed _ values => values
  | _ => []

/-- An activity that is alone goes on until it is idle; a slice is dropped as soon as
it is there.  The result is the queue and the elements dropped. -/
def Queue.runAlone : Nat → Queue B → Pc α σ → List α → Option (Queue B × List α)
  | 0, _, _, _ => none
  | fuel + 1, q, pc, dropped =>
      match pc with
      | .idle _ => some (q, dropped)
      | .slice i start stop slice =>
          match q.act (.slice i start stop slice) .drop with
          | none => none
          | some (q', pc', event) =>
              Queue.runAlone fuel q' pc' (dropped ++ event.elements)
      | pc =>
          match q.run false pc with
          | none => none
          | some (q', pc', event) =>
              Queue.runAlone fuel q' pc' (dropped ++ event.elements)

/-- `Drop for Queue`: lock, dequeue without resizing, drop the slice.  A call that is
alone makes at most one step for each turn of its spin loop and fewer than 20
others. -/
def Queue.drop (q : Queue B) : Option (Queue B × List α) :=
  Queue.runAlone (spinLimit + 20) q (.dequeueLock .none : Pc α σ) []

/-- Nothing is in progress and no slice or iterator is live. -/
def Quiescent (s : State T B α σ) : Prop :=
  ∀ t, ∃ last, s.pcs t = .idle last

section Alone

variable {q q' : Queue B} {fuel : Nat} {dropped : List α}

theorem Queue.runAlone_idle (last : Option (Outcome α)) :
    Queue.runAlone (fuel + 1) q (.idle last : Pc α σ) dropped = some (q, dropped) := by
  rfl

theorem Queue.runAlone_drop {i : Fin 2} {start stop : Nat} {slice : σ} :
    Queue.runAlone (fuel + 1) q (.slice i start stop slice) dropped =
      Queue.runAlone fuel q (.releaseClear i start stop : Pc α σ) dropped := by
  simp [Queue.runAlone, Queue.act, Event.elements]

theorem Queue.runAlone_run {pc pc' : Pc α σ} {event : Event α}
    (hrun : q.run false pc = some (q', pc', event)) :
    Queue.runAlone (fuel + 1) q pc dropped =
      Queue.runAlone fuel q' pc' (dropped ++ event.elements) := by
  cases pc with
  | idle _ => cases hrun
  | slice _ _ _ _ => cases hrun
  | iter _ _ _ => cases hrun
  | panicked _ => cases hrun
  | _ =>
      simp only [Queue.runAlone]
      rw [hrun]

end Alone

variable [LawfulBuffer B]

/-- The elements stored in the cells of a buffer. -/
def elementsIn (b : B) : List α :=
  (List.range (Buffer.capacity b)).filterMap (LawfulBuffer.cell b)

/-- The elements stored in a queue, those of the dequeuing buffer first. -/
def Queue.storedElements (q : Queue B) : List α :=
  elementsIn (q.buffers (other q.enqueuingCapacity.bufferIndex)) ++
    elementsIn (q.buffers q.enqueuingCapacity.bufferIndex)

theorem filterMap_range_getElem? (elements : List α) :
    (List.range elements.length).filterMap (fun k => elements[k]?) = elements := by
  induction elements with
  | nil => rfl
  | cons element rest ih =>
      rw [List.length_cons, List.range_succ_eq_map, List.filterMap_cons]
      simp only [List.getElem?_cons_zero, List.filterMap_map, Function.comp_def,
        List.getElem?_cons_succ]
      rw [ih]

theorem elementsIn_eq {b : B} {first : Nat} {elements : List α}
    (hholds : Holds b first elements)
    (hfit : first + elements.length ≤ Buffer.capacity b)
    (hnone : NoneOutside b first (first + elements.length)) :
    elementsIn b = elements := by
  obtain ⟨rest, hrest⟩ := Nat.exists_eq_add_of_le hfit
  have hbefore : (List.range first).filterMap (LawfulBuffer.cell b) = [] := by
    rw [List.filterMap_eq_nil_iff]
    intro j hj
    apply hnone
    rw [List.mem_range] at hj
    omega
  have hafter : ((List.range rest).map (first + elements.length + ·)).filterMap
      (LawfulBuffer.cell b) = [] := by
    rw [List.filterMap_eq_nil_iff]
    intro j hj
    apply hnone
    obtain ⟨k, -, rfl⟩ := List.mem_map.mp hj
    omega
  have hmiddle : ((List.range elements.length).map (first + ·)).filterMap
      (LawfulBuffer.cell b) = elements := by
    rw [List.filterMap_map]
    calc (List.range elements.length).filterMap (LawfulBuffer.cell b ∘ (first + ·))
        = (List.range elements.length).filterMap (fun k => elements[k]?) := by
          apply List.filterMap_congr
          intro k hk
          exact hholds k (List.mem_range.mp hk)
      _ = elements := filterMap_range_getElem? elements
  rw [elementsIn, hrest, List.range_add, List.range_add, List.filterMap_append,
    List.filterMap_append, hbefore, hmiddle, hafter, List.append_nil, List.nil_append]

/-- A queue with nothing in flight: what its two words say is what its buffers
hold. -/
structure AtRest (q : Queue B) (batch tail : List α) : Prop where
  unlocked : q.dequeuingLength ≠ dequeuingLocked
  index_ne : (DequeuingLength.mk q.dequeuingLength).bufferIndex ≠
    q.enqueuingCapacity.bufferIndex
  bufferLen : (DequeuingLength.mk q.dequeuingLength).bufferLen = batch.length
  batch_le : batch.length ≤
    q.buffersLength (DequeuingLength.mk q.dequeuingLength).bufferIndex
  batch_fits : q.buffersLength (DequeuingLength.mk q.dequeuingLength).bufferIndex ≤
    Buffer.capacity (q.buffers (DequeuingLength.mk q.dequeuingLength).bufferIndex)
  batch_holds :
    Holds (q.buffers (DequeuingLength.mk q.dequeuingLength).bufferIndex)
      (q.buffersLength (DequeuingLength.mk q.dequeuingLength).bufferIndex -
        batch.length) batch
  batch_only :
    NoneOutside (q.buffers (DequeuingLength.mk q.dequeuingLength).bufferIndex)
      (q.buffersLength (DequeuingLength.mk q.dequeuingLength).bufferIndex -
        batch.length)
      (q.buffersLength (DequeuingLength.mk q.dequeuingLength).bufferIndex)
  tail_length : tail.length + q.enqueuingCapacity.remainingCapacity =
    Buffer.capacity (q.buffers q.enqueuingCapacity.bufferIndex)
  tail_settled : q.buffersLength q.enqueuingCapacity.bufferIndex = tail.length
  tail_holds : Holds (q.buffers q.enqueuingCapacity.bufferIndex) 0 tail
  tail_only : NoneOutside (q.buffers q.enqueuingCapacity.bufferIndex) 0 tail.length
  capacity_lt (i : Fin 2) : Buffer.capacity (q.buffers i) < 2 ^ 62 - 1

section Release

variable {q : Queue B} {i : Fin 2} {elements : List α}

/-- The end of a dequeue that is alone: the batch is complete, it is sliced and
cleared. -/
theorem Queue.runAlone_spin (fuel : Nat) (dropped : List α)
    (hle : elements.length ≤ q.buffersLength i)
    (hfits : q.buffersLength i ≤ Buffer.capacity (q.buffers i))
    (hpos : elements ≠ [])
    (hholds : Holds (q.buffers i) (q.buffersLength i - elements.length) elements) :
    ∃ b, Buffer.clear (q.buffers i) (q.buffersLength i - elements.length)
        (q.buffersLength i) = some (elements, b) ∧
      Queue.runAlone (fuel + 7) q
          (.dequeueSpin i elements.length 0 : Pc α σ) dropped =
        some ({ (q.setBuffer i b).setLength i 0 with
          dequeuingLength := (DequeuingLength.new i 0).word },
          dropped ++ elements) := by
  have hlength := List.length_pos_iff.mpr hpos
  have hstop : q.buffersLength i - elements.length + elements.length =
      q.buffersLength i := Nat.sub_add_cancel hle
  obtain ⟨slice, hslice, -⟩ := LawfulBuffer.slice_spec hholds (by omega) (by omega)
  obtain ⟨b, hclear, -⟩ := LawfulBuffer.clear_spec hholds (by omega)
  rw [hstop] at hslice hclear
  refine ⟨b, hclear, ?_⟩
  have hspin : q.run false (.dequeueSpin i elements.length 0 : Pc α σ) =
      some (q, .dequeueSlice i (q.buffersLength i - elements.length)
        (q.buffersLength i), .silent) := by
    rw [Queue.run, if_pos hle]
  have hsliced : q.run false (.dequeueSlice i
      (q.buffersLength i - elements.length) (q.buffersLength i) : Pc α σ) =
      some (q, .slice i (q.buffersLength i - elements.length) (q.buffersLength i)
        slice, .sliced i (q.buffersLength i - elements.length)
          (q.buffersLength i)) := by
    rw [Queue.run, hslice]
  have hcleared : q.run false (.releaseClear i
      (q.buffersLength i - elements.length) (q.buffersLength i) : Pc α σ) =
      some (q.setBuffer i b, .releaseLength i, .consumed i elements) := by
    rw [Queue.run, hclear]
  rw [Queue.runAlone_run hspin, Queue.runAlone_run hsliced, Queue.runAlone_drop,
    Queue.runAlone_run hcleared, Queue.runAlone_run rfl, Queue.runAlone_run rfl,
    Queue.runAlone_idle]
  simp [Event.elements]

end Release

section Drop

variable {q : Queue B} {batch tail : List α}

omit [LawfulBuffer B] in
/-- The swap of a dequeue that is alone and finds values in the enqueuing buffer. -/
theorem Queue.runAlone_load (fuel : Nat) (dropped : List α)
    {dequeuing : DequeuingLength} (htail : tail ≠ [])
    (hindex : dequeuing.bufferIndex ≠ q.enqueuingCapacity.bufferIndex)
    (hlength : tail.length + q.enqueuingCapacity.remainingCapacity =
      Buffer.capacity (q.buffers q.enqueuingCapacity.bufferIndex))
    (hcapacity : Buffer.capacity (q.buffers dequeuing.bufferIndex) < 2 ^ 62 - 1) :
    ∃ q' : Queue B, q'.buffers = q.buffers ∧ q'.buffersLength = q.buffersLength ∧
      ∃ extra, Queue.runAlone (fuel + 5) q (.dequeueLoad ⟨dequeuing, false, 0,
          Buffer.capacity (q.buffers dequeuing.bufferIndex)⟩ : Pc α σ) dropped =
        Queue.runAlone (fuel + extra) q' (.dequeueSpin q.enqueuingCapacity.bufferIndex
          tail.length 0 : Pc α σ) dropped := by
  have hpos := List.length_pos_iff.mpr htail
  obtain ⟨next, hnext, -⟩ := EnqueuingCapacity.new_spec dequeuing.bufferIndex
    (Nat.lt_of_lt_of_le hcapacity (by decide))
  have hload : q.run false (.dequeueLoad ⟨dequeuing, false, 0,
      Buffer.capacity (q.buffers dequeuing.bufferIndex)⟩ : Pc α σ) =
      some (q, .dequeueSwap ⟨dequeuing, false, 0,
        Buffer.capacity (q.buffers dequeuing.bufferIndex)⟩
        (Buffer.capacity (q.buffers q.enqueuingCapacity.bufferIndex)) next
        q.enqueuingCapacity, .silent) := by
    simp only [Queue.run]
    rw [if_neg hindex, if_neg (by omega), if_neg (Nat.not_lt_zero _), Nat.sub_zero, hnext]
  have hswap : ∀ attempt capacity, q.run false (.dequeueSwap attempt capacity next
      q.enqueuingCapacity : Pc α σ) =
      some ({ q with enqueuingCapacity := next.withClosed q.enqueuingCapacity },
        .dequeueLoadCapacity attempt capacity q.enqueuingCapacity,
        .swapped attempt.dequeuing.bufferIndex) := by
    intro attempt capacity
    simp only [Queue.run, and_self, if_true]
  have hfinish : ∀ nextCapa, (dequeueFinish ⟨dequeuing, false, 0, nextCapa⟩
      (Buffer.capacity (q.buffers q.enqueuingCapacity.bufferIndex))
      q.enqueuingCapacity : Pc α σ) =
      .dequeueSpin q.enqueuingCapacity.bufferIndex tail.length 0 := by
    intro nextCapa
    have hspin : Buffer.capacity (q.buffers q.enqueuingCapacity.bufferIndex) -
        q.enqueuingCapacity.remainingCapacity = tail.length := by omega
    rw [dequeueFinish, if_neg (by omega), if_pos (by omega), hspin]
  have hcompare : ∀ (q₁ : Queue B) attempt capacity enqueuing,
      q₁.run false (.dequeueLoadCapacity attempt capacity enqueuing : Pc α σ) =
        some (q₁, if q₁.capacity ≠ attempt.nextCapa
          then .dequeueStoreCapacity attempt capacity enqueuing
          else .dequeueNotify attempt capacity enqueuing, .silent) := by
    intro q₁ attempt capacity enqueuing
    simp only [Queue.run]
    split <;> rfl
  by_cases hsame : q.capacity = Buffer.capacity (q.buffers dequeuing.bufferIndex)
  · refine ⟨{ q with enqueuingCapacity := next.withClosed q.enqueuingCapacity }, rfl, rfl,
      1, ?_⟩
    rw [Queue.runAlone_run hload, Queue.runAlone_run (hswap _ _),
      Queue.runAlone_run (hcompare _ _ _ _), if_neg (not_not.mpr hsame),
      Queue.runAlone_run rfl, hfinish]
    simp [Event.elements]
  · refine ⟨{ q with
      enqueuingCapacity := next.withClosed q.enqueuingCapacity
      capacity := Buffer.capacity (q.buffers dequeuing.bufferIndex) }, rfl, rfl, 0, ?_⟩
    rw [Queue.runAlone_run hload, Queue.runAlone_run (hswap _ _),
      Queue.runAlone_run (hcompare _ _ _ _), if_pos hsame, Queue.runAlone_run rfl,
      Queue.runAlone_run rfl, hfinish]
    simp [Event.elements]

theorem AtRest.storedElements_eq (hrest : AtRest q batch tail) :
    q.storedElements = batch ++ tail := by
  have hle := hrest.batch_le
  have hfits := hrest.batch_fits
  have hstop : q.buffersLength (DequeuingLength.mk q.dequeuingLength).bufferIndex -
      batch.length + batch.length =
        q.buffersLength (DequeuingLength.mk q.dequeuingLength).bufferIndex :=
    Nat.sub_add_cancel hle
  have hbatch := elementsIn_eq hrest.batch_holds (by omega)
    (by rw [hstop]; exact hrest.batch_only)
  have htail := elementsIn_eq hrest.tail_holds
    (by rw [Nat.zero_add]; exact Nat.le.intro hrest.tail_length)
    (by rw [Nat.zero_add]; exact hrest.tail_only)
  rw [Queue.storedElements, ← eq_other_of_ne hrest.index_ne, hbatch, htail]

variable [LawfulDrain B]

/-- What `clear` leaves in a buffer that only holds the cleared range. -/
theorem cell_eq_none_of_clear {b b' : B} {first last : Nat} {values : List α}
    (hclear : Buffer.clear b first last = some (values, b'))
    (hnone : NoneOutside b first last) (j : Nat) : LawfulBuffer.cell b' j = none := by
  rw [LawfulDrain.cell_clear hclear]
  split
  · rfl
  · rename_i hout
    exact hnone j hout

theorem AtRest.drop_batch (hrest : AtRest q batch tail) (hbatch : batch ≠ []) :
    ∃ q' : Queue B, q.drop = some (q', batch) ∧
      q'.buffers q.enqueuingCapacity.bufferIndex =
        q.buffers q.enqueuingCapacity.bufferIndex ∧
      ∀ j, LawfulBuffer.cell
        (q'.buffers (DequeuingLength.mk q.dequeuingLength).bufferIndex) j = none := by
  have hlock : q.run false (.dequeueLock .none : Pc α σ) =
      some ({ q with dequeuingLength := dequeuingLocked },
        .dequeueSpin (DequeuingLength.mk q.dequeuingLength).bufferIndex batch.length 0,
        .locked ⟨q.dequeuingLength⟩) := by
    simp only [Queue.run, DequeuingLength.tryFromAtomic]
    rw [if_pos hrest.unlocked]
    simp only [dequeueEntry]
    rw [hrest.bufferLen, if_neg (by simpa using hbatch)]
  obtain ⟨b, hclear, hspin⟩ := Queue.runAlone_spin (σ := σ) 76 []
    (q := { q with dequeuingLength := dequeuingLocked }) hrest.batch_le
    hrest.batch_fits hbatch hrest.batch_holds
  refine ⟨_, (Queue.runAlone_run hlock).trans hspin, ?_, ?_⟩
  · change (Queue.setBuffer _ _ b).buffers _ = _
    rw [Queue.buffers_setBuffer, if_neg hrest.index_ne.symm]
  · intro j
    change LawfulBuffer.cell ((Queue.setBuffer _ _ b).buffers _) j = none
    rw [Queue.buffers_setBuffer, if_pos rfl]
    exact cell_eq_none_of_clear hclear hrest.batch_only j

/-- A queue at rest without an ongoing batch drops the content of its enqueuing
buffer. -/
theorem AtRest.drop_tail (hrest : AtRest q [] tail) :
    ∃ q' : Queue B, q.drop = some (q', tail) ∧
      ∀ i j, LawfulBuffer.cell (q'.buffers i) j = none := by
  have hvacant : ∀ j, LawfulBuffer.cell
      (q.buffers (DequeuingLength.mk q.dequeuingLength).bufferIndex) j = none := by
    intro j
    apply hrest.batch_only
    rw [List.length_nil]
    omega
  have hindex : ∀ {i}, i ≠ q.enqueuingCapacity.bufferIndex →
      i = (DequeuingLength.mk q.dequeuingLength).bufferIndex := by
    intro i hi
    rw [eq_other_of_ne hi, eq_other_of_ne hrest.index_ne]
  have hlock : q.run false (.dequeueLock .none : Pc α σ) =
      some ({ q with dequeuingLength := dequeuingLocked },
        .dequeueResize ⟨q.dequeuingLength⟩ .none, .locked ⟨q.dequeuingLength⟩) := by
    simp only [Queue.run, DequeuingLength.tryFromAtomic]
    rw [if_pos hrest.unlocked]
    simp only [dequeueEntry]
    rw [hrest.bufferLen, if_pos List.length_nil]
  have hlength := hrest.tail_length
  by_cases htail : tail = []
  · subst htail
    rw [List.length_nil, Nat.zero_add] at hlength
    obtain ⟨error, hempty⟩ : ∃ error, Queue.run
        { q with dequeuingLength := dequeuingLocked } false
        (.dequeueLoad ⟨⟨q.dequeuingLength⟩, false, 0, Buffer.capacity
          (q.buffers (DequeuingLength.mk q.dequeuingLength).bufferIndex)⟩ : Pc α σ) =
        some ({ q with dequeuingLength := dequeuingLocked }, .storeDequeuing
          ⟨q.dequeuingLength⟩ (.dequeueError error), .foundEmpty error) := by
      simp only [Queue.run]
      rw [if_neg hrest.index_ne, if_pos ⟨hlength, trivial, trivial⟩]
      exact ⟨_, rfl⟩
    refine ⟨q, ?_, ?_⟩
    · rw [Queue.drop, spinLimit, Queue.runAlone_run hlock, Queue.runAlone_run rfl,
        Queue.runAlone_run rfl, Queue.runAlone_run rfl, Queue.runAlone_run hempty,
        Queue.runAlone_run rfl, Queue.runAlone_idle]
      rfl
    · intro i j
      by_cases hi : i = q.enqueuingCapacity.bufferIndex
      · rw [hi]
        apply hrest.tail_only
        rw [List.length_nil]
        omega
      · rw [hindex hi]
        exact hvacant j
  · obtain ⟨q₁, hbuffers, hlengths, extra, hload⟩ := Queue.runAlone_load (σ := σ)
      (q := { q with dequeuingLength := dequeuingLocked }) 75 [] htail hrest.index_ne
      hlength (hrest.capacity_lt _)
    have hsettled : q₁.buffersLength q.enqueuingCapacity.bufferIndex = tail.length := by
      rw [hlengths]
      exact hrest.tail_settled
    obtain ⟨b, hclear, hspin⟩ := Queue.runAlone_spin (σ := σ) (q := q₁)
      (i := q.enqueuingCapacity.bufferIndex) (68 + extra) [] (le_of_eq hsettled.symm)
      (by rw [hsettled, hbuffers]; exact Nat.le.intro hlength) htail
      (by rw [hsettled, Nat.sub_self, hbuffers]; exact hrest.tail_holds)
    rw [hsettled, Nat.sub_self, hbuffers] at hclear
    rw [Nat.add_right_comm 68 extra 7] at hspin
    refine ⟨_, Eq.trans ?_ hspin, ?_⟩
    · rw [Queue.drop, spinLimit, Queue.runAlone_run hlock, Queue.runAlone_run rfl,
        Queue.runAlone_run rfl, Queue.runAlone_run rfl]
      exact hload
    · intro i j
      change LawfulBuffer.cell ((q₁.setBuffer _ b).buffers i) j = none
      rw [Queue.buffers_setBuffer, hbuffers]
      split
      · exact cell_eq_none_of_clear hclear hrest.tail_only j
      · rename_i hi
        rw [hindex hi]
        exact hvacant j

end Drop

section Quiescent

variable {s : State T B α σ} {g : Ledger T α}

theorem Sim.unlocked_of_quiescent (hsim : Sim s g) (hquiescent : Quiescent s) :
    s.queue.dequeuingLength ≠ dequeuingLocked := by
  intro hlocked
  obtain ⟨t, hholds⟩ := hsim.locked_iff.mp hlocked
  obtain ⟨last, hidle⟩ := hquiescent t
  rw [hidle] at hholds
  cases hholds

/-- Every value laid in a quiescent queue is acknowledged. -/
theorem Sim.settled_of_quiescent (hsim : Sim s g) (hquiescent : Quiescent s) (i : Fin 2) :
    ∀ tile ∈ g.tiles i, tile.tag = .acknowledged := by
  have hbatch := (hsim.stored (hsim.unlocked_of_quiescent hquiescent)).batch
  have hvisible : ∀ tile ∈ g.tiles i, tile.tag.hidden = false := by
    by_cases hi : i = g.enqueuing
    · rw [hi]
      exact hsim.shared.visible
    · rw [eq_other_of_ne hi, ← eq_other_of_ne hbatch.other]
      exact hbatch.visible
  intro tile htile
  obtain ⟨position, hat⟩ := exists_at_of_mem htile
  have hfree : ∀ t, tile.tag.owner ≠ some t := by
    intro t
    obtain ⟨last, hidle⟩ := hquiescent t
    exact hsim.not_owned (by simp [hidle]) (by simp [hidle]) hat
  have htag := hvisible tile htile
  generalize tile.tag = tag at htag hfree
  cases tag with
  | reserved t => exact absurd rfl (hfree t)
  | written t => exact absurd rfl (hfree t)
  | staged => cases htag
  | published => cases htag
  | acknowledged => rfl

/-- A quiescent state of an exact queue is at rest. -/
theorem Sim.atRest (hsim : Sim s g) (hexact : Exact s.queue g)
    (hquiescent : Quiescent s) : AtRest s.queue g.batch g.tail := by
  have hunlocked := hsim.unlocked_of_quiescent hquiescent
  have hbatch := (hsim.stored hunlocked).batch
  have hsettled := hsim.settled_of_quiescent hquiescent
  have hadd := hbatch.length_add
  have hlower : g.lower (DequeuingLength.mk s.queue.dequeuingLength).bufferIndex =
      g.taken := by
    rw [Ledger.lower, if_neg hbatch.other]
  have hlower' : g.lower g.enqueuing = 0 := by rw [Ledger.lower, if_pos rfl]
  have hlength := hsim.shared.length_of_settled (hsettled _) hbatch.fits
  have hfits := Nat.le.intro hsim.shared.extent_add
  have hholds := hsim.shared.holds_of_settled (hsettled _) hbatch.fits
  have hholds' := hsim.shared.holds_of_settled (hsettled _) hfits
  rw [hlower, ← Ledger.batch_eq_of_visible hbatch.other hbatch.visible] at hholds
  rw [hlower', List.drop_zero, hsim.shared.enqueuing] at hholds'
  have hcount : g.batch.length =
      (DequeuingLength.mk s.queue.dequeuingLength).bufferLen := by
    rw [Ledger.batch_eq_of_visible hbatch.other hbatch.visible, List.length_drop, ← extent]
    omega
  have htaken : s.queue.buffersLength
      (DequeuingLength.mk s.queue.dequeuingLength).bufferIndex - g.batch.length =
        g.taken := by
    rw [hlength, hcount]
    omega
  refine ⟨hunlocked, hsim.shared.enqueuing ▸ hbatch.other, hcount.symm, ?_, ?_, ?_, ?_,
    ?_, ?_, ?_, ?_, hsim.shared.capacity_lt⟩
  · rw [hlength, hcount]
    omega
  · rw [hlength]
    exact hbatch.fits
  · rw [htaken]
    exact hholds
  · rw [htaken, hlength]
    exact hlower ▸ hexact.noneOutside _
  · rw [← hsim.shared.enqueuing]
    exact hsim.shared.extent_add
  · rw [← hsim.shared.enqueuing]
    exact hsim.shared.length_of_settled (hsettled _) hfits
  · rw [Ledger.tail, hsim.shared.enqueuing]
    exact hholds'
  · rw [← hsim.shared.enqueuing]
    exact hlower' ▸ hexact.noneOutside _

end Quiescent

/-- What dropping a queue is for: every element stored in either buffer is dropped,
once, and nothing is left in a cell. -/
def Queue.DropsEverything (q : Queue B) : Prop :=
  ∃ q' : Queue B, q.drop = some (q', q.storedElements) ∧
    ∀ i j, LawfulBuffer.cell (q'.buffers i) j = none

theorem Queue.not_dropsEverything {q : Queue B}
    (hdrop : q.drop.map Prod.snd ≠ some q.storedElements) : ¬ q.DropsEverything := by
  rintro ⟨q', hall, -⟩
  apply hdrop
  rw [hall, Option.map_some]

variable [DecidableEq T] [LawfulDrain B]

/-- A queue dropped with nothing in progress drops everything exactly when it has no
ongoing batch or nothing behind it. -/
theorem drop_everything_iff {start s : State T B α σ} (hinitial : Initial start)
    {trace : List ((T × Action α) × Event α)}
    (hrun : Runs.Run SwapBufferQueue.step SizeOk start trace s)
    (hquiescent : Quiescent s) :
    s.queue.DropsEverything ↔
      (DequeuingLength.mk s.queue.dequeuingLength).bufferLen = 0 ∨
        s.queue.enqueuingCapacity.remainingCapacity =
          Buffer.capacity (s.queue.buffers s.queue.enqueuingCapacity.bufferIndex) := by
  have hsim := sim_of_run hinitial (fun _ _ h => h) hrun
  have hexact := exact_of_run hinitial (fun _ _ h => h) hrun
  have hrest := hsim.atRest hexact hquiescent
  generalize (Ledger.ofTrace trace).batch = batch at hrest
  generalize (Ledger.ofTrace trace).tail = tail at hrest
  have hlength := hrest.tail_length
  rw [Queue.DropsEverything, hrest.storedElements_eq, hrest.bufferLen]
  by_cases hbatch : batch = []
  · subst hbatch
    obtain ⟨q', hdrop, hcells⟩ := hrest.drop_tail
    exact ⟨fun _ => Or.inl rfl, fun _ => ⟨q', hdrop, hcells⟩⟩
  · obtain ⟨q', hdrop, hkept, hcells⟩ := hrest.drop_batch hbatch
    constructor
    · rintro ⟨q'', hdrop', -⟩
      have hsame : batch ++ tail = batch := by
        rw [hdrop] at hdrop'
        exact (congrArg Prod.snd (Option.some.inj hdrop')).symm
      rw [List.append_right_eq_self.mp hsame, List.length_nil, Nat.zero_add] at hlength
      exact Or.inr hlength
    · rintro (hzero | hfull)
      · exact absurd (List.length_eq_zero_iff.mp hzero) hbatch
      · have htail : tail = [] := List.length_eq_zero_iff.mp (by omega)
        subst htail
        rw [List.append_nil]
        refine ⟨q', hdrop, ?_⟩
        intro i j
        by_cases hi : i = s.queue.enqueuingCapacity.bufferIndex
        · rw [hi, hkept]
          apply hrest.tail_only
          rw [List.length_nil]
          omega
        · rw [eq_other_of_ne hi, ← eq_other_of_ne hrest.index_ne]
          exact hcells j

/-- The calls of one thread that enqueues an element, dequeues it and puts it back. -/
def requeueLabels (element : Nat) : List (Unit × Action Nat) :=
  [((), .tryEnqueue [element])] ++ List.replicate 4 ((), .run false) ++
    [((), .tryDequeue)] ++ List.replicate 10 ((), .run false) ++
    [((), .requeue), ((), .run false)]

/-- A requeued batch with nothing behind it is dropped. -/
theorem drop_everything_iff_requeued :
    ∃ (start : State Unit (VecBuffer Nat) Nat (List Nat)) (trace : _)
        (s : State Unit (VecBuffer Nat) Nat (List Nat)),
      Initial start ∧ Runs.Run SwapBufferQueue.step SizeOk start trace s ∧
      Quiescent s ∧ s.queue.storedElements = [7] ∧ s.queue.DropsEverything := by
  have hrun := Runs.run_of_isSome SwapBufferQueue.step SizeOk
    (State.ofQueue ((Queue.withCapacity 1).get (by decide +kernel)) :
      State Unit (VecBuffer Nat) Nat (List Nat))
    (requeueLabels 7) (by decide +kernel) (by decide +kernel)
  have hinitial := initial_withCapacity (T := Unit) (B := VecBuffer Nat)
    (show (Queue.withCapacity 1).isSome = true by decide +kernel)
  refine ⟨_, _, _, hinitial, hrun, ?quiescent, by decide +kernel,
    (drop_everything_iff hinitial hrun ?quiescent).mpr (Or.inr (by decide +kernel))⟩
  rintro ⟨⟩
  exact ⟨some .done, by decide +kernel⟩

/-- A requeued batch with a value behind it: the value is never dropped. -/
theorem drop_leaves_tail_behind_requeued_batch :
    ∃ (start : State Unit (VecBuffer Nat) Nat (List Nat)) (trace : _)
        (s : State Unit (VecBuffer Nat) Nat (List Nat)),
      Initial start ∧ Runs.Run SwapBufferQueue.step SizeOk start trace s ∧
      Quiescent s ∧ s.queue.storedElements = [7, 8] ∧
      s.queue.drop.map Prod.snd = some [7] ∧ ¬ s.queue.DropsEverything := by
  have hrun := Runs.run_of_isSome SwapBufferQueue.step SizeOk
    (State.ofQueue ((Queue.withCapacity 1).get (by decide +kernel)) :
      State Unit (VecBuffer Nat) Nat (List Nat))
    (List.flatten [requeueLabels 7, [((), .tryEnqueue [8])],
      List.replicate 4 ((), .run false)])
    (by decide +kernel) (by decide +kernel)
  have hinitial := initial_withCapacity (T := Unit) (B := VecBuffer Nat)
    (show (Queue.withCapacity 1).isSome = true by decide +kernel)
  refine ⟨_, _, _, hinitial, hrun, ?_, by decide +kernel, by decide +kernel,
    Queue.not_dropsEverything (by decide +kernel)⟩
  rintro ⟨⟩
  exact ⟨some .enqueued, by decide +kernel⟩

end SwapBufferQueue
