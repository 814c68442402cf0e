/-
What one step of the machine can do, said once.  `Local` lists the steps that
only move the program counter of the activity; `Transition` adds the steps that
change the queue or show an event.  Every invariant is proved by cases on these
two relations and never unfolds the machine.
-/
import SwapBufferQueue.Machine

namespace SwapBufferQueue

universe u v w x

variable {B : Type u} {α : Type v} {σ : Type w} [Buffer B α σ]

section Ends

variable {P : Pc α σ → Prop}

/-- The three ways out of the head of the reservation loop. -/
theorem enqueueCheck_elim {value : List α} {enqueuing : EnqueuingCapacity}
    (hclosed : enqueuing.isClosed = true →
      P (.idle (some (.enqueueError (.closed value)))))
    (hnone : enqueuing.isClosed = false → enqueuing.tryReserve value.length = none →
      P (.idle (some (.enqueueError (.insufficientCapacity value)))))
    (hsome : ∀ next, enqueuing.isClosed = false →
      enqueuing.tryReserve value.length = some next →
        P (.enqueueReserve value enqueuing next)) :
    P (enqueueCheck value enqueuing) := by
  unfold enqueueCheck
  split
  · rename_i hflag
    exact hclosed hflag
  · rename_i hflag
    have hopen := Bool.eq_false_iff.mpr hflag
    split
    · rename_i hreserve
      exact hnone hopen hreserve
    · rename_i next hreserve
      exact hsome next hopen hreserve

/-- A dequeue goes on with its batch, or prepares the hidden buffer. -/
theorem dequeueEntry_elim {dequeuing : DequeuingLength} {resize : ResizeArgs α}
    (hvacant : dequeuing.bufferLen = 0 → P (.dequeueResize dequeuing resize))
    (hongoing : 0 < dequeuing.bufferLen →
      P (.dequeueSpin dequeuing.bufferIndex dequeuing.bufferLen 0)) :
    P (dequeueEntry dequeuing resize) := by
  unfold dequeueEntry
  split
  · rename_i hzero
    exact hvacant hzero
  · rename_i hzero
    exact hongoing (Nat.pos_of_ne_zero hzero)

/-- What follows the notification: the batch, a second attempt for what was
inserted, or an empty queue that was resized. -/
theorem dequeueFinish_elim {attempt : Attempt} {capacity : Nat}
    {enqueuing : EnqueuingCapacity}
    (hunderflow : capacity < enqueuing.remainingCapacity → P (.panicked .lengthUnderflow))
    (hbatch : enqueuing.remainingCapacity < capacity →
      P (.dequeueSpin enqueuing.bufferIndex
        (capacity - enqueuing.remainingCapacity) 0))
    (hagain : capacity = enqueuing.remainingCapacity → 0 < attempt.insertedLength →
      P (dequeueEntry (DequeuingLength.new enqueuing.bufferIndex 0) .none))
    (hempty : capacity = enqueuing.remainingCapacity → attempt.insertedLength = 0 →
      attempt.resized = true → P (.storeDequeuing
        (DequeuingLength.new enqueuing.bufferIndex 0) (.dequeueError .empty)))
    (hassert : capacity = enqueuing.remainingCapacity → attempt.insertedLength = 0 →
      attempt.resized = false → P (.panicked .resizedAssert)) :
    P (dequeueFinish attempt capacity enqueuing) := by
  unfold dequeueFinish
  split
  · rename_i hlt
    exact hunderflow hlt
  · rename_i hlt
    split
    · exact hbatch (by omega)
    · have hfull : capacity = enqueuing.remainingCapacity := by omega
      split
      · rename_i hpos
        exact hagain hfull hpos
      · rename_i hpos
        have hzero := Nat.eq_zero_of_not_pos hpos
        split
        · rename_i hresized
          exact hempty hfull hzero hresized
        · rename_i hresized
          exact hassert hfull hzero (Bool.eq_false_iff.mpr hresized)

/-- A requeued range is stored, or released when it is empty. -/
theorem requeueRange_elim {i : Fin 2} {start stop : Nat}
    (hunderflow : stop < start → P (.panicked .rangeUnderflow))
    (hstore : start < stop →
      P (.storeDequeuing (DequeuingLength.new i (stop - start)) .done))
    (hrelease : start = stop → P (.releaseClear i start stop)) :
    P (requeueRange i start stop) := by
  unfold requeueRange
  split
  · rename_i hlt
    exact hunderflow hlt
  · split
    · rename_i hlt
      exact hstore hlt
    · exact hrelease (by omega)

end Ends

/-- The steps that leave the queue alone and show nothing. -/
inductive Local (q : Queue B) : Pc α σ → Action α → Pc α σ → Prop
  | enqueueNothing (last : Option (Outcome α)) :
      Local q (.idle last) (.tryEnqueue []) (.idle (some .enqueued))
  | tryEnqueue (last : Option (Outcome α)) (value : List α) (hvalue : value ≠ []) :
      Local q (.idle last) (.tryEnqueue value) (.enqueueLoad value)
  | enqueueLoad (value : List α) (spurious : Bool) :
      Local q (.enqueueLoad value) (.run spurious)
        (enqueueCheck value q.enqueuingCapacity)
  | enqueueRetry (value : List α) (enqueuing next : EnqueuingCapacity)
      (spurious : Bool) :
      Local q (.enqueueReserve value enqueuing next) (.run spurious)
        (enqueueCheck value q.enqueuingCapacity)
  | indexUnderflow (value : List α) (enqueuing : EnqueuingCapacity) (spurious : Bool)
      (hlt : Buffer.capacity (q.buffers enqueuing.bufferIndex) <
        enqueuing.remainingCapacity) :
      Local q (.enqueueInsert value enqueuing) (.run spurious)
        (.panicked .indexUnderflow)
  | insertOutOfBounds (value : List α) (enqueuing : EnqueuingCapacity)
      (spurious : Bool)
      (hnone : Buffer.insertInto (q.buffers enqueuing.bufferIndex)
        (Buffer.capacity (q.buffers enqueuing.bufferIndex) -
          enqueuing.remainingCapacity) value = none) :
      Local q (.enqueueInsert value enqueuing) (.run spurious)
        (.panicked .insertOutOfBounds)
  | tryDequeue (last : Option (Outcome α)) :
      Local q (.idle last) .tryDequeue (.dequeueLock .none)
  | tryDequeueAndResize (last : Option (Outcome α)) (resize : ResizeArgs α) :
      Local q (.idle last) (.tryDequeueAndResize resize) (.dequeueLock resize)
  | keepCapacity (dequeuing : DequeuingLength) (resize : ResizeArgs α)
      (spurious : Bool)
      (hcapacity : ∀ capa ∈ resize.capacity,
        capa = Buffer.capacity (q.buffers dequeuing.bufferIndex)) :
      Local q (.dequeueResize dequeuing resize) (.run spurious)
        (.dequeueInsert dequeuing false resize.insert 0)
  | capacityOverflow (dequeuing : DequeuingLength) (resize : ResizeArgs α)
      (spurious : Bool) (capa : Nat) (hcapa : capa ∈ resize.capacity)
      (hcheck : checkOverflow capa = false) :
      Local q (.dequeueResize dequeuing resize) (.run spurious)
        (.panicked .capacityOverflow)
  | skipEmpty (dequeuing : DequeuingLength) (resized : Bool)
      (rest : List (List α)) (length : Nat) (spurious : Bool) :
      Local q (.dequeueInsert dequeuing resized ([] :: rest) length) (.run spurious)
        (.dequeueInsert dequeuing resized rest length)
  | stageEnd (dequeuing : DequeuingLength) (resized : Bool)
      (values : List (List α)) (length : Nat) (spurious : Bool)
      (hvalues : ∀ value ∈ values.head?,
        Buffer.capacity (q.buffers dequeuing.bufferIndex) < value.length) :
      Local q (.dequeueInsert dequeuing resized values length) (.run spurious)
        (.dequeuePublish ⟨dequeuing, resized, length,
          Buffer.capacity (q.buffers dequeuing.bufferIndex)⟩)
  | stageOutOfBounds (dequeuing : DequeuingLength) (resized : Bool)
      (value : List α) (rest : List (List α)) (length : Nat) (spurious : Bool)
      (hnone : Buffer.insertInto (q.buffers dequeuing.bufferIndex) length value =
        none) :
      Local q (.dequeueInsert dequeuing resized (value :: rest) length)
        (.run spurious) (.panicked .stageOutOfBounds)
  | publishNothing (attempt : Attempt) (spurious : Bool)
      (hzero : attempt.insertedLength = 0) :
      Local q (.dequeuePublish attempt) (.run spurious) (.dequeueLoad attempt)
  | bufferIndexAssert (attempt : Attempt) (spurious : Bool)
      (hindex : attempt.dequeuing.bufferIndex = q.enqueuingCapacity.bufferIndex) :
      Local q (.dequeueLoad attempt) (.run spurious) (.panicked .bufferIndexAssert)
  | nextCapacityUnderflow (attempt : Attempt) (spurious : Bool)
      (hlt : attempt.nextCapa < attempt.insertedLength) :
      Local q (.dequeueLoad attempt) (.run spurious)
        (.panicked .nextCapacityUnderflow)
  | enqueuingCapacityAssert (attempt : Attempt) (spurious : Bool)
      (hle : attempt.insertedLength ≤ attempt.nextCapa)
      (hnone : EnqueuingCapacity.new attempt.dequeuing.bufferIndex
        (attempt.nextCapa - attempt.insertedLength) = none) :
      Local q (.dequeueLoad attempt) (.run spurious)
        (.panicked .enqueuingCapacityAssert)
  | dequeueLoad (attempt : Attempt) (nextEnqueuing : EnqueuingCapacity)
      (spurious : Bool)
      (hindex : attempt.dequeuing.bufferIndex ≠ q.enqueuingCapacity.bufferIndex)
      (hwork : q.enqueuingCapacity.remainingCapacity ≠
          Buffer.capacity (q.buffers q.enqueuingCapacity.bufferIndex) ∨
        attempt.resized = true ∨ 0 < attempt.insertedLength)
      (hle : attempt.insertedLength ≤ attempt.nextCapa)
      (hnext : EnqueuingCapacity.new attempt.dequeuing.bufferIndex
        (attempt.nextCapa - attempt.insertedLength) = some nextEnqueuing) :
      Local q (.dequeueLoad attempt) (.run spurious)
        (.dequeueSwap attempt
          (Buffer.capacity (q.buffers q.enqueuingCapacity.bufferIndex))
          nextEnqueuing q.enqueuingCapacity)
  | swapRetry (attempt : Attempt) (capacity : Nat)
      (nextEnqueuing enqueuing : EnqueuingCapacity) (spurious : Bool) :
      Local q (.dequeueSwap attempt capacity nextEnqueuing enqueuing) (.run spurious)
        (.dequeueSwap attempt capacity nextEnqueuing q.enqueuingCapacity)
  | capacityDiffers (attempt : Attempt) (capacity : Nat)
      (enqueuing : EnqueuingCapacity) (spurious : Bool)
      (hne : q.capacity ≠ attempt.nextCapa) :
      Local q (.dequeueLoadCapacity attempt capacity enqueuing) (.run spurious)
        (.dequeueStoreCapacity attempt capacity enqueuing)
  | capacitySame (attempt : Attempt) (capacity : Nat)
      (enqueuing : EnqueuingCapacity) (spurious : Bool)
      (heq : q.capacity = attempt.nextCapa) :
      Local q (.dequeueLoadCapacity attempt capacity enqueuing) (.run spurious)
        (.dequeueNotify attempt capacity enqueuing)
  | dequeueNotify (attempt : Attempt) (capacity : Nat)
      (enqueuing : EnqueuingCapacity) (spurious : Bool) :
      Local q (.dequeueNotify attempt capacity enqueuing) (.run spurious)
        (dequeueFinish attempt capacity enqueuing)
  | spinDone (i : Fin 2) (length spins : Nat) (spurious : Bool)
      (hle : length ≤ q.buffersLength i) :
      Local q (.dequeueSpin i length spins) (.run spurious)
        (.dequeueSlice i (q.buffersLength i - length) (q.buffersLength i))
  | spinAgain (i : Fin 2) (length spins : Nat) (spurious : Bool)
      (hlt : q.buffersLength i < length) (hspins : spins + 1 < spinLimit) :
      Local q (.dequeueSpin i length spins) (.run spurious)
        (.dequeueSpin i length (spins + 1))
  | spinPending (i : Fin 2) (length spins : Nat) (spurious : Bool)
      (hlt : q.buffersLength i < length) (hspins : spinLimit ≤ spins + 1) :
      Local q (.dequeueSpin i length spins) (.run spurious)
        (.storeDequeuing (DequeuingLength.new i length) (.dequeueError .pending))
  | sliceOutOfBounds (i : Fin 2) (start stop : Nat) (spurious : Bool)
      (hnone : (Buffer.slice (q.buffers i) start stop : Option σ) = none) :
      Local q (.dequeueSlice i start stop) (.run spurious)
        (.panicked .sliceOutOfBounds)
  | clearOutOfBounds (i : Fin 2) (start stop : Nat) (spurious : Bool)
      (hnone : Buffer.clear (q.buffers i) start stop = none) :
      Local q (.releaseClear i start stop) (.run spurious)
        (.panicked .clearOutOfBounds)
  | dropSlice (i : Fin 2) (start stop : Nat) (slice : σ) :
      Local q (.slice i start stop slice) .drop (.releaseClear i start stop)
  | dropIter (i : Fin 2) (start stop : Nat) :
      Local q (.iter i start stop) .drop (requeueRange i start stop)
  | requeue (i : Fin 2) (start stop : Nat) (slice : σ) :
      Local q (.slice i start stop slice) .requeue (requeueRange i start stop)
  | intoIter (i : Fin 2) (start stop : Nat) (slice : σ) :
      Local q (.slice i start stop slice) .intoIter (.iter i start stop)
  | nextNone (i : Fin 2) (start stop : Nat) (hle : stop ≤ start) :
      Local q (.iter i start stop) .next (.iter i start stop)
  | lockedAssert (i : Fin 2) (start stop : Nat)
      (hlock : q.dequeuingLength ≠ dequeuingLocked) :
      Local q (.iter i start stop) .next (.panicked .lockedAssert)
  | removeOutOfBounds (i : Fin 2) (start stop : Nat) (hlt : start < stop)
      (hnone : Buffer.remove (q.buffers i) start = none) :
      Local q (.iter i start stop) .next (.panicked .removeOutOfBounds)
  | intoSlice (i : Fin 2) (start stop : Nat) :
      Local q (.iter i start stop) .intoSlice (.dequeueSlice i start stop)
  | withOwned (i : Fin 2) (start stop : Nat) :
      Local q (.iter i start stop) (.withOwned true) (.iter i start stop)
  | foreignOwner (i : Fin 2) (start stop : Nat) :
      Local q (.iter i start stop) (.withOwned false) (.panicked .foreignOwner)

inductive Transition (q : Queue B) :
    Pc α σ → Action α → Queue B → Pc α σ → Event α → Prop
  | silent {pc pc' : Pc α σ} {action : Action α} (move : Local q pc action pc') :
      Transition q pc action q pc' .silent
  | reserve (value : List α) (next : EnqueuingCapacity) :
      Transition q (.enqueueReserve value q.enqueuingCapacity next) (.run false)
        { q with enqueuingCapacity := next }
        (.enqueueInsert value q.enqueuingCapacity)
        (.reserved q.enqueuingCapacity.bufferIndex value)
  | insert (value : List α) (enqueuing : EnqueuingCapacity) (spurious : Bool) (b : B)
      (hinsert : Buffer.insertInto (q.buffers enqueuing.bufferIndex)
        (Buffer.capacity (q.buffers enqueuing.bufferIndex) -
          enqueuing.remainingCapacity) value = some b) :
      Transition q (.enqueueInsert value enqueuing) (.run spurious)
        (q.setBuffer enqueuing.bufferIndex b) (.enqueueAcknowledge value enqueuing)
        (.inserted enqueuing.bufferIndex value)
  | acknowledge (value : List α) (enqueuing : EnqueuingCapacity) (spurious : Bool) :
      Transition q (.enqueueAcknowledge value enqueuing) (.run spurious)
        (q.addLength enqueuing.bufferIndex value.length) (.idle (some .enqueued))
        (.acknowledged enqueuing.bufferIndex value)
  | conflict (resize : ResizeArgs α) (spurious : Bool)
      (hlock : q.dequeuingLength = dequeuingLocked) :
      Transition q (.dequeueLock resize) (.run spurious) q
        (.idle (some (.dequeueError .conflict))) .silent
  | lock (resize : ResizeArgs α) (spurious : Bool)
      (hlock : q.dequeuingLength ≠ dequeuingLocked) :
      Transition q (.dequeueLock resize) (.run spurious)
        { q with dequeuingLength := dequeuingLocked }
        (dequeueEntry ⟨q.dequeuingLength⟩ resize) (.locked ⟨q.dequeuingLength⟩)
  | resize (dequeuing : DequeuingLength) (resize : ResizeArgs α) (spurious : Bool)
      (capa : Nat) (b : B) (hcapa : resize.capacity = some capa)
      (hne : capa ≠ Buffer.capacity (q.buffers dequeuing.bufferIndex))
      (hcheck : checkOverflow capa = true)
      (hresize : Buffer.resize (q.buffers dequeuing.bufferIndex) capa = some b) :
      Transition q (.dequeueResize dequeuing resize) (.run spurious)
        (q.setBuffer dequeuing.bufferIndex b)
        (.dequeueInsert dequeuing true resize.insert 0)
        (.resized dequeuing.bufferIndex capa)
  | stage (dequeuing : DequeuingLength) (resized : Bool) (value : List α)
      (rest : List (List α)) (length : Nat) (spurious : Bool) (b : B)
      (hvalue : value ≠ [])
      (hle : value.length ≤ Buffer.capacity (q.buffers dequeuing.bufferIndex))
      (hinsert : Buffer.insertInto (q.buffers dequeuing.bufferIndex) length value =
        some b) :
      Transition q (.dequeueInsert dequeuing resized (value :: rest) length)
        (.run spurious) (q.setBuffer dequeuing.bufferIndex b)
        (.dequeueInsert dequeuing resized rest (length + value.length))
        (.staged dequeuing.bufferIndex value)
  | publish (attempt : Attempt) (spurious : Bool)
      (hpos : 0 < attempt.insertedLength) :
      Transition q (.dequeuePublish attempt) (.run spurious)
        (q.addLength attempt.dequeuing.bufferIndex attempt.insertedLength)
        (.dequeueLoad attempt) (.published attempt.dequeuing.bufferIndex)
  | foundEmpty (attempt : Attempt) (spurious : Bool)
      (hindex : attempt.dequeuing.bufferIndex ≠ q.enqueuingCapacity.bufferIndex)
      (hempty : q.enqueuingCapacity.remainingCapacity =
        Buffer.capacity (q.buffers q.enqueuingCapacity.bufferIndex))
      (hresized : attempt.resized = false) (hinserted : attempt.insertedLength = 0) :
      Transition q (.dequeueLoad attempt) (.run spurious) q
        (.storeDequeuing attempt.dequeuing
          (.dequeueError (if q.enqueuingCapacity.isClosed then .closed else .empty)))
        (.foundEmpty (if q.enqueuingCapacity.isClosed then .closed else .empty))
  | swap (attempt : Attempt) (capacity : Nat) (nextEnqueuing : EnqueuingCapacity) :
      Transition q
        (.dequeueSwap attempt capacity nextEnqueuing q.enqueuingCapacity) (.run false)
        { q with enqueuingCapacity := nextEnqueuing.withClosed q.enqueuingCapacity }
        (.dequeueLoadCapacity attempt capacity q.enqueuingCapacity)
        (.swapped attempt.dequeuing.bufferIndex)
  | storeCapacity (attempt : Attempt) (capacity : Nat)
      (enqueuing : EnqueuingCapacity) (spurious : Bool) :
      Transition q (.dequeueStoreCapacity attempt capacity enqueuing) (.run spurious)
        { q with capacity := attempt.nextCapa }
        (.dequeueNotify attempt capacity enqueuing) .silent
  | slice (i : Fin 2) (start stop : Nat) (spurious : Bool) (slice : σ)
      (hslice : Buffer.slice (q.buffers i) start stop = some slice) :
      Transition q (.dequeueSlice i start stop) (.run spurious) q
        (.slice i start stop slice) (.sliced i start stop)
  | remove (i : Fin 2) (start stop : Nat) (value : α) (b : B) (hlt : start < stop)
      (hremove : Buffer.remove (q.buffers i) start = some (value, b)) :
      Transition q (.iter i start stop) .next (q.setBuffer i b)
        (.iter i (start + 1) stop) (.consumed i [value])
  | clear (i : Fin 2) (start stop : Nat) (spurious : Bool) (values : List α) (b : B)
      (hclear : Buffer.clear (q.buffers i) start stop = some (values, b)) :
      Transition q (.releaseClear i start stop) (.run spurious) (q.setBuffer i b)
        (.releaseLength i) (.consumed i values)
  | release (i : Fin 2) (spurious : Bool) :
      Transition q (.releaseLength i) (.run spurious) (q.setLength i 0)
        (.storeDequeuing (DequeuingLength.new i 0) .done) (.released i)
  | unlock (dequeuing : DequeuingLength) (outcome : Outcome α) (spurious : Bool) :
      Transition q (.storeDequeuing dequeuing outcome) (.run spurious)
        { q with dequeuingLength := dequeuing.word } (.idle (some outcome))
        (.unlocked dequeuing)
  | close (last : Option (Outcome α)) :
      Transition q (.idle last) .close
        { q with enqueuingCapacity := q.enqueuingCapacity.close }
        (.idle (some .done)) .closed
  | reopen (last : Option (Outcome α)) :
      Transition q (.idle last) .reopen
        { q with enqueuingCapacity := q.enqueuingCapacity.reopen }
        (.idle (some .done)) .reopened

theorem Queue.run_cases {q q' : Queue B} {pc pc' : Pc α σ} {spurious : Bool}
    {event : Event α} (hrun : q.run spurious pc = some (q', pc', event)) :
    Transition q pc (.run spurious) q' pc' event := by
  cases pc with
  | idle last => simp [Queue.run] at hrun
  | enqueueLoad value =>
      cases hrun
      exact .silent (.enqueueLoad value spurious)
  | enqueueReserve value enqueuing next =>
      simp only [Queue.run] at hrun
      split at hrun
      · rename_i hsame
        obtain ⟨rfl, rfl⟩ := hsame
        cases hrun
        exact .reserve value next
      · cases hrun
        exact .silent (.enqueueRetry value enqueuing next spurious)
  | enqueueInsert value enqueuing =>
      simp only [Queue.run] at hrun
      split at hrun
      · rename_i hlt
        cases hrun
        exact .silent (.indexUnderflow value enqueuing spurious hlt)
      · split at hrun
        · rename_i hnone
          cases hrun
          exact .silent (.insertOutOfBounds value enqueuing spurious hnone)
        · rename_i b hsome
          cases hrun
          exact .insert value enqueuing spurious b hsome
  | enqueueAcknowledge value enqueuing =>
      cases hrun
      exact .acknowledge value enqueuing spurious
  | dequeueLock resize =>
      simp only [Queue.run] at hrun
      split at hrun
      · rename_i hnone
        have hlock : q.dequeuingLength = dequeuingLocked := by
          simpa [DequeuingLength.tryFromAtomic] using hnone
        cases hrun
        rw [← hlock]
        exact .conflict resize spurious hlock
      · rename_i dequeuing hsome
        obtain ⟨hlock, hword⟩ := DequeuingLength.tryFromAtomic_eq_some_iff.mp hsome
        cases hrun
        cases dequeuing
        cases hword
        exact .lock resize spurious hlock
  | dequeueResize dequeuing resize =>
      simp only [Queue.run] at hrun
      split at hrun
      · rename_i hnone
        cases hrun
        refine .silent (.keepCapacity dequeuing resize spurious ?_)
        simpa [Option.filter_eq_none_iff] using hnone
      · rename_i capa hsome
        rw [Option.filter_eq_some_iff] at hsome
        split at hrun
        · rename_i hcheck
          split at hrun
          · cases hrun
          · rename_i b hresize
            cases hrun
            exact .resize dequeuing resize spurious capa b hsome.1
              (by simpa using hsome.2) hcheck hresize
        · rename_i hcheck
          cases hrun
          exact .silent (.capacityOverflow dequeuing resize spurious capa hsome.1
            (by simpa using hcheck))
  | dequeueInsert dequeuing resized values length =>
      cases values with
      | nil =>
          cases hrun
          exact .silent (.stageEnd dequeuing resized [] length spurious (by simp))
      | cons value rest =>
          simp only [Queue.run] at hrun
          split at hrun
          · rename_i hzero
            cases hrun
            rw [List.length_eq_zero_iff.mp hzero]
            exact .silent (.skipEmpty dequeuing resized rest length spurious)
          · rename_i hpos
            split at hrun
            · rename_i hlt
              cases hrun
              exact .silent (.stageEnd dequeuing resized (value :: rest) length
                spurious (by simpa using hlt))
            · rename_i hle
              split at hrun
              · rename_i hnone
                cases hrun
                exact .silent (.stageOutOfBounds dequeuing resized value rest length
                  spurious hnone)
              · rename_i b hsome
                cases hrun
                exact .stage dequeuing resized value rest length spurious b
                  (by simpa using hpos) (Nat.le_of_not_lt hle) hsome
  | dequeuePublish attempt =>
      simp only [Queue.run] at hrun
      split at hrun
      · rename_i hpos
        cases hrun
        exact .publish attempt spurious hpos
      · rename_i hzero
        cases hrun
        exact .silent (.publishNothing attempt spurious
          (Nat.eq_zero_of_not_pos hzero))
  | dequeueLoad attempt =>
      simp only [Queue.run] at hrun
      split at hrun
      · rename_i hindex
        cases hrun
        exact .silent (.bufferIndexAssert attempt spurious hindex)
      · rename_i hindex
        split at hrun
        · rename_i hempty
          cases hrun
          exact .foundEmpty attempt spurious hindex hempty.1 hempty.2.1 hempty.2.2
        · rename_i hwork
          split at hrun
          · rename_i hlt
            cases hrun
            exact .silent (.nextCapacityUnderflow attempt spurious hlt)
          · rename_i hle
            have hle' := Nat.le_of_not_lt hle
            split at hrun
            · rename_i hnone
              cases hrun
              exact .silent (.enqueuingCapacityAssert attempt spurious hle' hnone)
            · rename_i next hsome
              cases hrun
              refine .silent (.dequeueLoad attempt next spurious hindex ?_ hle' hsome)
              by_cases hfull : q.enqueuingCapacity.remainingCapacity =
                  Buffer.capacity (q.buffers q.enqueuingCapacity.bufferIndex)
              · cases hresized : attempt.resized
                · exact Or.inr (Or.inr (Nat.pos_of_ne_zero fun hzero =>
                    hwork ⟨hfull, hresized, hzero⟩))
                · exact Or.inr (Or.inl rfl)
              · exact Or.inl hfull
  | dequeueSwap attempt capacity nextEnqueuing enqueuing =>
      simp only [Queue.run] at hrun
      split at hrun
      · rename_i hsame
        obtain ⟨rfl, rfl⟩ := hsame
        cases hrun
        exact .swap attempt capacity nextEnqueuing
      · cases hrun
        exact .silent (.swapRetry attempt capacity nextEnqueuing enqueuing spurious)
  | dequeueLoadCapacity attempt capacity enqueuing =>
      simp only [Queue.run] at hrun
      split at hrun
      · rename_i hne
        cases hrun
        exact .silent (.capacityDiffers attempt capacity enqueuing spurious hne)
      · rename_i heq
        cases hrun
        exact .silent (.capacitySame attempt capacity enqueuing spurious
          (not_not.mp heq))
  | dequeueStoreCapacity attempt capacity enqueuing =>
      cases hrun
      exact .storeCapacity attempt capacity enqueuing spurious
  | dequeueNotify attempt capacity enqueuing =>
      cases hrun
      exact .silent (.dequeueNotify attempt capacity enqueuing spurious)
  | dequeueSpin i length spins =>
      simp only [Queue.run] at hrun
      split at hrun
      · rename_i hle
        cases hrun
        exact .silent (.spinDone i length spins spurious hle)
      · rename_i hlt
        split at hrun
        · rename_i hspins
          cases hrun
          exact .silent (.spinAgain i length spins spurious
            (Nat.lt_of_not_le hlt) hspins)
        · rename_i hspins
          cases hrun
          exact .silent (.spinPending i length spins spurious
            (Nat.lt_of_not_le hlt) (Nat.le_of_not_lt hspins))
  | dequeueSlice i start stop =>
      simp only [Queue.run] at hrun
      split at hrun
      · rename_i hnone
        cases hrun
        exact .silent (.sliceOutOfBounds i start stop spurious hnone)
      · rename_i slice hsome
        cases hrun
        exact .slice i start stop spurious slice hsome
  | slice i start stop slice => simp [Queue.run] at hrun
  | iter i start stop => simp [Queue.run] at hrun
  | releaseClear i start stop =>
      simp only [Queue.run] at hrun
      split at hrun
      · rename_i hnone
        cases hrun
        exact .silent (.clearOutOfBounds i start stop spurious hnone)
      · rename_i values b hsome
        cases hrun
        exact .clear i start stop spurious values b hsome
  | releaseLength i =>
      cases hrun
      exact .release i spurious
  | storeDequeuing dequeuing outcome =>
      cases hrun
      exact .unlock dequeuing outcome spurious
  | panicked panic => simp [Queue.run] at hrun

theorem Queue.act_cases {q q' : Queue B} {pc pc' : Pc α σ} {action : Action α}
    {event : Event α} (hact : q.act pc action = some (q', pc', event)) :
    Transition q pc action q' pc' event := by
  cases action with
  | run spurious => exact Queue.run_cases hact
  | tryEnqueue value =>
      cases pc <;> simp only [Queue.act, reduceCtorEq] at hact
      rename_i last
      split at hact
      · rename_i hzero
        cases hact
        rw [List.length_eq_zero_iff.mp hzero]
        exact .silent (.enqueueNothing last)
      · rename_i hpos
        cases hact
        exact .silent (.tryEnqueue last value (by simpa using hpos))
  | tryDequeue =>
      cases pc <;> cases hact
      exact .silent (.tryDequeue _)
  | tryDequeueAndResize resize =>
      cases pc <;> cases hact
      exact .silent (.tryDequeueAndResize _ resize)
  | close =>
      cases pc <;> cases hact
      exact .close _
  | reopen =>
      cases pc <;> cases hact
      exact .reopen _
  | drop =>
      cases pc <;> cases hact
      · exact .silent (.dropSlice _ _ _ _)
      · exact .silent (.dropIter _ _ _)
  | requeue =>
      cases pc <;> cases hact
      exact .silent (.requeue _ _ _ _)
  | intoIter =>
      cases pc <;> cases hact
      exact .silent (.intoIter _ _ _ _)
  | next =>
      cases pc <;> simp only [Queue.act, reduceCtorEq] at hact
      rename_i i start stop
      split at hact
      · rename_i hle
        cases hact
        exact .silent (.nextNone i start stop hle)
      · rename_i hlt
        split at hact
        · rename_i hlock
          cases hact
          exact .silent (.lockedAssert i start stop hlock)
        · split at hact
          · rename_i hnone
            cases hact
            exact .silent (.removeOutOfBounds i start stop
              (Nat.lt_of_not_le hlt) hnone)
          · rename_i value b hsome
            cases hact
            exact .remove i start stop value b (Nat.lt_of_not_le hlt) hsome
  | intoSlice =>
      cases pc <;> cases hact
      exact .silent (.intoSlice _ _ _)
  | withOwned sameQueue =>
      cases pc <;> simp only [Queue.act, reduceCtorEq] at hact
      rename_i i start stop
      cases sameQueue
      · cases hact
        exact .silent (.foreignOwner i start stop)
      · cases hact
        exact .silent (.withOwned i start stop)

section Machine

variable {T : Type x} [DecidableEq T]

/-- A step of the machine is a transition of the activity that moves; the others
keep their program counters. -/
theorem step_cases {s s' : State T B α σ} {t : T} {action : Action α}
    {event : Event α} (hstep : step s (t, action) = some (s', event)) :
    ∃ q pc, Transition s.queue (s.pcs t) action q pc event ∧
      s' = ⟨q, Function.update s.pcs t pc⟩ := by
  simp only [step] at hstep
  split at hstep
  · cases hstep
  · rename_i q pc event' hact
    cases hstep
    exact ⟨q, pc, Queue.act_cases hact, rfl⟩

theorem run_of_step {s s' : State T B α σ} {t : T} {spurious : Bool} {event : Event α}
    (hstep : step s (t, .run spurious) = some (s', event)) :
    ∃ q pc, s.queue.run spurious (s.pcs t) = some (q, pc, event) ∧
      s' = ⟨q, Function.update s.pcs t pc⟩ := by
  simp only [step, Queue.act] at hstep
  split at hstep
  · cases hstep
  · rename_i q pc event' hrun
    cases hstep
    exact ⟨q, pc, hrun, rfl⟩

/-- What every transition keeps of a program counter holds of all of them along every
run. -/
theorem pcs_of_run {P : Pc α σ → Prop} (hidle : P (.idle none))
    {ok : State T B α σ → T × Action α → Prop}
    (hmove : ∀ {state : State T B α σ} {t action q pc event}, ok state (t, action) →
      Transition state.queue (state.pcs t) action q pc event → P (state.pcs t) → P pc)
    {start s : State T B α σ} (hinitial : Initial start)
    {trace : List ((T × Action α) × Event α)} (hrun : Runs.Run step ok start trace s)
    (t : T) : P (s.pcs t) := by
  revert t
  refine hrun.invariant (fun _ s => ∀ t, P (s.pcs t)) ?_ ?_
  · intro t
    rw [hinitial.2]
    exact hidle
  · rintro trace state state' ⟨t, action⟩ event - hall hlabel hstep t'
    obtain ⟨q, pc, htransition, rfl⟩ := step_cases hstep
    change P (Function.update state.pcs t pc t')
    by_cases ht' : t' = t
    · subst ht'
      rw [Function.update_self]
      exact hmove hlabel htransition (hall t')
    · rw [Function.update_of_ne ht']
      exact hall t'

end Machine

end SwapBufferQueue
