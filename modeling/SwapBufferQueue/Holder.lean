/-
The steps of the activity that holds the dequeuing lock keep the simulation.  The
values in flight belong to other activities: the holder leaves them where they are.
-/
import SwapBufferQueue.Preservation

namespace SwapBufferQueue

universe u v w x

open Tiling

variable {T : Type x} {B : Type u} {α : Type v} {σ : Type w}
variable [DecidableEq T] [Buffer B α σ] [LawfulBuffer B]
variable {s : State T B α σ} {q : Queue B} {g : Ledger T α} {t : T}

/-- A step from one place that holds the lock to another. -/
theorem Sim.held_step (hsim : Sim s g) (hholds : (s.pcs t).holds = true)
    {q' : Queue B} {g' : Ledger T α} {pc' : Pc α σ} (hpc' : pc'.holds = true)
    (hshared : Shared q' g') (hself : ThreadInv q' g' t pc')
    (hword : q'.dequeuingLength = s.queue.dequeuingLength)
    (htiles : ∀ {t' i position tile}, tile.tag.owner = some t' →
      (At (g'.tiles i) position tile ↔ At (g.tiles i) position tile))
    (hcapacity : ∀ {t' i position tile}, tile.tag.owner = some t' →
      At (g.tiles i) position tile →
        Buffer.capacity (q'.buffers i) = Buffer.capacity (s.queue.buffers i)) :
    Sim (⟨q', Function.update s.pcs t pc'⟩ : State T B α σ) g' := by
  refine hsim.step_of hshared hself ?_ ?_ (.held hholds hpc' hword)
  · intro t' _ i position tile hown
    exact ⟨htiles hown, hcapacity hown⟩
  · intro i position tile hat hown
    exact (hsim.not_owned_of_holds hholds ((htiles hown).mp hat) hown).elim

theorem Sim.conflict (hsim : Sim s g) {resize : ResizeArgs α}
    (hpc : s.pcs t = .dequeueLock resize) :
    Sim (⟨s.queue, Function.update s.pcs t
      (.idle (some (.dequeueError .conflict)))⟩ : State T B α σ) g := by
  refine hsim.step_of hsim.shared trivial (fun _ _ _ _ _ => ⟨Iff.rfl, fun _ => rfl⟩)
    (fun hat hown => (hsim.not_owned ?_ ?_ hat hown).elim)
    (.free (by rw [hpc]; rfl) rfl rfl (Quiet.refl _ _))
  · simp [hpc]
  · simp [hpc]

theorem Sim.lock (hsim : Sim s g) {resize : ResizeArgs α}
    (hpc : s.pcs t = .dequeueLock resize)
    (hopen : s.queue.dequeuingLength ≠ dequeuingLocked) :
    Sim (⟨{ s.queue with dequeuingLength := dequeuingLocked }, Function.update s.pcs t
      (dequeueEntry ⟨s.queue.dequeuingLength⟩ resize)⟩ : State T B α σ) g := by
  have hshared : Shared { s.queue with dequeuingLength := dequeuingLocked } g :=
    hsim.shared.congr rfl rfl rfl
  have hstored := (hsim.stored hopen).quiet
    (Quiet.of_buffers s.queue { s.queue with dequeuingLength := dequeuingLocked } rfl)
  refine hsim.step_of hshared (threadInv_dequeueEntry hshared hstored resize)
    (fun _ _ _ _ _ => ⟨Iff.rfl, fun _ => rfl⟩)
    (fun hat hown => (hsim.not_owned ?_ ?_ hat hown).elim)
    (.lock (by rw [hpc]; rfl) (dequeueEntry_holds _ _) hopen rfl)
  · simp [hpc]
  · simp [hpc]

theorem Sim.unlock (hsim : Sim s g) {dequeuing : DequeuingLength}
    {outcome : Outcome α} (hpc : s.pcs t = .storeDequeuing dequeuing outcome) :
    Sim (⟨{ s.queue with dequeuingLength := dequeuing.word },
      Function.update s.pcs t (.idle (some outcome))⟩ : State T B α σ) g := by
  have hholds : (s.pcs t).holds = true := by
    rw [hpc]
    rfl
  have hstored : Stored s.queue g dequeuing := by
    have hthread := hsim.thread t
    rwa [hpc] at hthread
  refine hsim.step_of (hsim.shared.congr rfl rfl rfl) trivial
    (fun _ _ _ _ _ => ⟨Iff.rfl, fun _ => rfl⟩)
    (fun hat hown => (hsim.not_owned_of_holds hholds hat hown).elim)
    (.unlock hholds rfl (hstored.word_ne_locked hsim.shared) ?_)
  exact hstored.quiet
    (Quiet.of_buffers s.queue { s.queue with dequeuingLength := dequeuing.word } rfl)

theorem Sim.resize (hsim : Sim s g) {dequeuing : DequeuingLength}
    {resize : ResizeArgs α} {capa : Nat} {b : B}
    (hpc : s.pcs t = .dequeueResize dequeuing resize)
    (hcheck : checkOverflow capa = true)
    (hresize : Buffer.resize (s.queue.buffers dequeuing.bufferIndex) capa = some b) :
    Sim (⟨s.queue.setBuffer dequeuing.bufferIndex b, Function.update s.pcs t
      (.dequeueInsert dequeuing true resize.insert 0)⟩ : State T B α σ) g := by
  have hhidden : Hidden s.queue g dequeuing .staged 0 := by
    have hthread := hsim.thread t
    rwa [hpc] at hthread
  have hshared := hsim.shared
  have hnil : g.tiles dequeuing.bufferIndex = [] :=
    hshared.tiles_eq_nil hhidden.length_eq
  have hvacant : ∀ {i position tile}, At (g.tiles i) position tile →
      i ≠ dequeuing.bufferIndex := by
    rintro i position tile hat rfl
    rw [hnil] at hat
    exact not_at_nil hat
  have hkeep : ∀ {i}, i ≠ dequeuing.bufferIndex →
      (s.queue.setBuffer dequeuing.bufferIndex b).buffers i = s.queue.buffers i := by
    intro i hi
    rw [Queue.buffers_setBuffer, if_neg hi]
  refine hsim.held_step (by rw [hpc]; rfl) rfl ?_ ?_ rfl (fun _ => Iff.rfl) ?_
  · refine ⟨hshared.enqueuing, hshared.closed, ?_, ?_, hshared.visible,
      hshared.nonempty, hshared.length, ?_, hshared.order⟩
    · intro i
      rw [Queue.buffers_setBuffer]
      split
      · rw [LawfulBuffer.capacity_resize hresize]
        exact (checkOverflow_iff capa).mp hcheck
      · exact hshared.capacity_lt i
    · rw [hkeep hhidden.other.symm]
      exact hshared.extent_add
    · intro i position tile hat
      rw [hkeep (hvacant hat)]
      exact hshared.cells hat
  · exact ⟨hhidden.other, hhidden.vacant, hhidden.taken, hhidden.tags,
      hhidden.length_eq⟩
  · intro t' i position tile _ hat
    rw [hkeep (hvacant hat)]

/-- A value staged in the hidden buffer by the insert closure. -/
theorem Sim.stage (hsim : Sim s g) {dequeuing : DequeuingLength} {resized : Bool}
    {value : List α} {rest : List (List α)} {length : Nat} {b : B}
    (hpc : s.pcs t = .dequeueInsert dequeuing resized (value :: rest) length)
    (hvalue : value ≠ [])
    (hinsert : Buffer.insertInto (s.queue.buffers dequeuing.bufferIndex) length value =
      some b) :
    Sim (⟨s.queue.setBuffer dequeuing.bufferIndex b, Function.update s.pcs t
        (.dequeueInsert dequeuing resized rest (length + value.length))⟩ :
        State T B α σ)
      (g.next t (.staged dequeuing.bufferIndex value)) := by
  have hhidden : Hidden s.queue g dequeuing .staged length := by
    have hthread := hsim.thread t
    rwa [hpc] at hthread
  have hshared := hsim.shared
  have hcapacity := Queue.capacity_setBuffer (q := s.queue)
    (LawfulBuffer.capacity_insertInto hinsert)
  have hother := hhidden.other
  have htags : ∀ tile ∈ (g.next t (.staged dequeuing.bufferIndex value)).tiles
      dequeuing.bufferIndex, tile.tag = .staged := by
    rw [Ledger.tiles_staged, if_pos rfl]
    intro tile htile
    rcases List.mem_append.mp htile with hold | hnew
    · exact hhidden.tags tile hold
    · rw [List.mem_singleton.mp hnew]
  have hextent : extent ((g.next t (.staged dequeuing.bufferIndex value)).tiles
      dequeuing.bufferIndex) = length + value.length := by
    rw [Ledger.tiles_staged, if_pos rfl, extent_append, hhidden.length_eq]
    simp
  refine hsim.held_step (by rw [hpc]; rfl) rfl ?_ ?_ rfl ?_ fun _ _ => hcapacity _
  · refine ⟨hshared.enqueuing, hshared.closed, ?_, ?_, ?_, ?_, ?_, ?_, ?_⟩
    · intro i
      rw [hcapacity]
      exact hshared.capacity_lt i
    · change extent ((g.next t (.staged dequeuing.bufferIndex value)).tiles
        g.enqueuing) + _ = _
      rw [Ledger.tiles_staged, if_neg hother.symm, hcapacity]
      exact hshared.extent_add
    · change ∀ tile ∈ (g.next t (.staged dequeuing.bufferIndex value)).tiles
        g.enqueuing, _
      rw [Ledger.tiles_staged, if_neg hother.symm]
      exact hshared.visible
    · intro i tile htile
      obtain ⟨position, hat⟩ := exists_at_of_mem htile
      rcases Ledger.at_append_tile_iff.mp hat with hold | ⟨-, -, rfl⟩
      · exact hshared.nonempty i tile hold.mem
      · exact hvalue
    · intro i
      change s.queue.buffersLength i = _
      rw [hshared.length, Ledger.tiles_staged]
      split
      · rename_i hi
        rw [weight_append, weight_cons, weight_nil, ← hi]
        rfl
      · rfl
    · intro i position tile hat hwritten hfits k hk hlower
      rw [Queue.buffers_setBuffer]
      rw [hcapacity] at hfits
      rcases Ledger.at_append_tile_iff.mp hat with hold | ⟨rfl, rfl, rfl⟩
      · split
        · rename_i hi
          subst hi
          rw [hextent] at hfits
          have hend := hold.le_extent
          rw [hhidden.length_eq] at hend
          rw [cell_insertInto_of_not_mem hfits hinsert (by omega)]
          apply hshared.cells hold hwritten _ k hk hlower
          rw [hhidden.length_eq]
          omega
        · rename_i hi
          rw [Ledger.tiles_staged, if_neg hi] at hfits
          exact hshared.cells hold hwritten hfits k hk hlower
      · rw [if_pos rfl, hhidden.length_eq]
        rw [hextent] at hfits
        exact holds_insertInto hfits hinsert k hk
    · have hhide : (g.next t (.staged dequeuing.bufferIndex value)).batch = g.batch := by
        have hold : g.batch = [] := by
          apply Ledger.batch_eq_nil_of_hidden hother
          intro tile htile
          rw [hhidden.tags tile htile]
          rfl
        rw [hold]
        apply Ledger.batch_eq_nil_of_hidden
          (g := g.next t (.staged dequeuing.bufferIndex value)) hother
        intro tile htile
        rw [htags tile htile]
        rfl
      have htail : (g.next t (.staged dequeuing.bufferIndex value)).tail = g.tail := by
        change contents ((g.next t (.staged dequeuing.bufferIndex value)).tiles
          g.enqueuing) = _
        rw [Ledger.tiles_staged, if_neg hother.symm]
        rfl
      rw [hhide, htail]
      exact hshared.order
  · exact ⟨hother, hhidden.vacant, hhidden.taken, htags, hextent⟩
  · intro t' i position tile hown
    refine Ledger.at_append_tile_iff.trans ⟨?_, Or.inl⟩
    rintro (hold | ⟨-, -, rfl⟩)
    · exact hold
    · cases hown

/-- The staged values are counted before they become visible. -/
theorem Sim.publish (hsim : Sim s g) {attempt : Attempt}
    (hpc : s.pcs t = .dequeuePublish attempt) :
    Sim (⟨s.queue.addLength attempt.dequeuing.bufferIndex attempt.insertedLength,
        Function.update s.pcs t (.dequeueLoad attempt)⟩ : State T B α σ)
      (g.next t (.published attempt.dequeuing.bufferIndex)) := by
  have hthread : Hidden s.queue g attempt.dequeuing .staged attempt.insertedLength ∧
      attempt.nextCapa =
        Buffer.capacity (s.queue.buffers attempt.dequeuing.bufferIndex) := by
    have hthread := hsim.thread t
    rwa [hpc] at hthread
  obtain ⟨hhidden, hcapa⟩ := hthread
  have hshared := hsim.shared
  have htags : ∀ tile ∈ (g.next t (.published attempt.dequeuing.bufferIndex)).tiles
      attempt.dequeuing.bufferIndex, tile.tag = .published := by
    rw [Ledger.tiles_published, if_pos rfl]
    intro tile htile
    obtain ⟨old, hold, rfl⟩ := mem_retag_iff.mp htile
    rw [hhidden.tags old hold]
    rfl
  have hextent : extent ((g.next t (.published attempt.dequeuing.bufferIndex)).tiles
      attempt.dequeuing.bufferIndex) = attempt.insertedLength := by
    rw [Ledger.tiles_published, if_pos rfl, extent_retag, hhidden.length_eq]
  refine hsim.held_step (by rw [hpc]; rfl) rfl ?_ ?_ rfl ?_ fun _ _ => rfl
  · refine hshared.retag Status.hidden_publish rfl (fun _ => rfl) ?_ ?_
    · intro j
      rw [Queue.addLength, Queue.buffersLength_setLength]
      split
      · rename_i hj
        subst hj
        have hbefore : weight Status.counted
            (g.tiles attempt.dequeuing.bufferIndex) = 0 := by
          rw [weight, List.filter_eq_nil_iff.mpr, extent_nil]
          intro tile htile
          rw [hhidden.tags tile htile]
          exact Bool.false_ne_true
        have hafter : weight Status.counted
            ((g.next t (.published attempt.dequeuing.bufferIndex)).tiles
              attempt.dequeuing.bufferIndex) = attempt.insertedLength := by
          rw [weight_eq_extent_of_all, hextent]
          intro tile htile
          rw [htags tile htile]
          rfl
        change _ = weight Status.counted
          ((g.next t (.published attempt.dequeuing.bufferIndex)).tiles
            attempt.dequeuing.bufferIndex) % 2 ^ 64
        rw [hafter, hshared.length, hbefore, Nat.zero_mod, Nat.zero_add]
      · rename_i hj
        rw [Ledger.tiles_setTiles, if_neg hj]
        exact hshared.length j
    · intro j position old hat hwritten hfits k hk hlower
      apply hshared.cells hat _ hfits k hk hlower
      split at hwritten
      · rwa [Status.unwritten_publish] at hwritten
      · exact hwritten
  · exact ⟨⟨hhidden.other, hhidden.vacant, hhidden.taken, htags, hextent⟩, hcapa⟩
  · intro t' i position tile hown
    rw [Ledger.tiles_published]
    split
    · rename_i hi
      rw [hi]
      exact (Status.fixes_publish t').at_retag_iff hown
    · exact Iff.rfl

theorem Sim.foundEmpty (hsim : Sim s g) {attempt : Attempt} {outcome : Outcome α}
    (hpc : s.pcs t = .dequeueLoad attempt) (hinserted : attempt.insertedLength = 0) :
    Sim (⟨s.queue, Function.update s.pcs t
      (.storeDequeuing attempt.dequeuing outcome)⟩ : State T B α σ) g := by
  have hhidden : Hidden s.queue g attempt.dequeuing .published
      attempt.insertedLength := by
    have hthread := hsim.thread t
    rw [hpc] at hthread
    exact hthread.1
  have hextent := hhidden.length_eq.trans hinserted
  refine hsim.held_step (by rw [hpc]; rfl) rfl hsim.shared ?_ rfl (fun _ => Iff.rfl)
    fun _ _ => rfl
  refine ⟨⟨hhidden.other, ?_, ?_, ?_, Or.inl hhidden.taken⟩, fun _ => hhidden.taken⟩
  · rw [hsim.shared.tiles_eq_nil hextent]
    simp
  · rw [hhidden.vacant, hhidden.taken, hextent]
  · rw [hextent]
    exact Nat.zero_le _

/-- The shared part after the swap: the batch closed off is what was reserved in
the old enqueuing buffer, and the staged values come first in the new one. -/
theorem Shared.swap (hshared : Shared q g) {attempt : Attempt} {capacity : Nat}
    {nextEnqueuing : EnqueuingCapacity}
    (hswap : Swapping q g attempt capacity nextEnqueuing q.enqueuingCapacity) :
    Shared
      { q with enqueuingCapacity := nextEnqueuing.withClosed q.enqueuingCapacity }
      (g.next t (.swapped attempt.dequeuing.bufferIndex)) := by
  obtain ⟨hindex, hremaining, hclosed⟩ :=
    EnqueuingCapacity.withClosed_spec hswap.next_open q.enqueuingCapacity
  have hother := hswap.hidden.other
  have htiles : (g.next t (.swapped attempt.dequeuing.bufferIndex)).tiles
      attempt.dequeuing.bufferIndex =
        Tiling.retag Status.expose (g.tiles attempt.dequeuing.bufferIndex) := by
    rw [Ledger.tiles_swapped, if_pos rfl]
  have hlower : ∀ j, (g.next t (.swapped attempt.dequeuing.bufferIndex)).lower j =
      g.lower j := by
    intro j
    change (if j = attempt.dequeuing.bufferIndex then 0 else g.taken) =
      if j = g.enqueuing then 0 else g.taken
    rw [hswap.hidden.taken, ite_self, ite_self]
  refine ⟨?_, ?_, hshared.capacity_lt, ?_, ?_, ?_, ?_, ?_, ?_⟩
  · rw [hindex, hswap.next_index]
    rfl
  · rw [hclosed]
    exact hshared.closed
  · change extent ((g.next t (.swapped attempt.dequeuing.bufferIndex)).tiles
      attempt.dequeuing.bufferIndex) + _ = _
    have hle := hswap.inserted_le
    rw [htiles, extent_retag, hswap.hidden.length_eq, hremaining, hswap.next_remaining]
    change _ = Buffer.capacity (q.buffers attempt.dequeuing.bufferIndex)
    rw [← hswap.nextCapa_eq]
    omega
  · change ∀ tile ∈ (g.next t (.swapped attempt.dequeuing.bufferIndex)).tiles
      attempt.dequeuing.bufferIndex, _
    rw [htiles]
    intro tile htile
    obtain ⟨old, hold, rfl⟩ := mem_retag_iff.mp htile
    rw [hswap.hidden.tags old hold]
    rfl
  · intro i tile htile
    obtain ⟨position, hat⟩ := exists_at_of_mem htile
    obtain ⟨old, hold, rfl⟩ := Ledger.at_retag_tiles_iff.mp hat
    exact hshared.nonempty i old hold.mem
  · intro i
    rw [Ledger.tiles_swapped]
    split
    · rename_i hi
      have hcount : weight (fun tag : Status T => tag.expose.counted) (g.tiles i) =
          weight Status.counted (g.tiles i) :=
        weight_congr fun tile _ => Status.counted_expose tile.tag
      rw [weight_retag, ← hi, hcount]
      exact hshared.length i
    · exact hshared.length i
  · intro i position tile hat hwritten hfits k hk hle
    obtain ⟨old, hold, rfl⟩ := Ledger.at_retag_tiles_iff.mp hat
    rw [hlower] at hle
    apply hshared.cells hold _ _ k hk hle
    · simp only at hwritten
      split at hwritten
      · rwa [Status.unwritten_expose] at hwritten
      · exact hwritten
    · have hextent := Ledger.extent_retag_tiles g attempt.dequeuing.bufferIndex i
        Status.expose
      exact hextent ▸ hfits
  · have hview := hswap.view_swapped (t := t) hshared
    have hbefore := hswap.hidden.batch_eq_nil rfl
    have hafter := congrArg View.batch hview
    have htail := congrArg View.tail hview
    change (g.next t (.swapped attempt.dequeuing.bufferIndex)).batch = g.tail at hafter
    change (g.next t (.swapped attempt.dequeuing.bufferIndex)).tail = g.staged at htail
    rw [hswap.hidden.staged_eq rfl] at htail
    have horder := hshared.order
    rw [hbefore, List.append_nil] at horder
    rw [hafter, htail]
    change g.consumed ++ g.tail ++ _ =
      (g.accepted ++ (g.tiles attempt.dequeuing.bufferIndex).map Tile.elems).flatten
    rw [horder, List.flatten_append]
    rfl

theorem Sim.swap (hsim : Sim s g) {attempt : Attempt} {capacity : Nat}
    {nextEnqueuing : EnqueuingCapacity}
    (hpc : s.pcs t =
      .dequeueSwap attempt capacity nextEnqueuing s.queue.enqueuingCapacity) :
    Sim (⟨{ s.queue with enqueuingCapacity :=
            nextEnqueuing.withClosed s.queue.enqueuingCapacity },
          Function.update s.pcs t (.dequeueLoadCapacity attempt capacity
            s.queue.enqueuingCapacity)⟩ : State T B α σ)
      (g.next t (.swapped attempt.dequeuing.bufferIndex)) := by
  have hswap : Swapping s.queue g attempt capacity nextEnqueuing
      s.queue.enqueuingCapacity := by
    have hthread := hsim.thread t
    rwa [hpc] at hthread
  have hother := hswap.hidden.other
  have hold : (g.next t (.swapped attempt.dequeuing.bufferIndex)).tiles
      g.enqueuing = g.tiles g.enqueuing := by
    rw [Ledger.tiles_swapped, if_neg hother.symm]
  have hindex := hswap.index_eq
  refine hsim.held_step (by rw [hpc]; rfl) rfl (hsim.shared.swap hswap) ?_ rfl ?_
    fun _ _ => rfl
  · constructor
    · rw [hindex]
      exact hother.symm
    · rw [hindex, hold]
      exact hsim.shared.visible
    · exact hswap.hidden.taken
    · rw [hindex]
      exact hswap.capacity_eq
    · rw [hindex, hold, hsim.shared.extent_add]
      exact hswap.capacity_eq.symm
    · rw [hindex, hold]
      exact hswap.work
  · intro t' i position tile hown
    rw [Ledger.tiles_swapped]
    split
    · rename_i hi
      rw [hi]
      exact (Status.fixes_expose t').at_retag_iff hown
    · exact Iff.rfl

theorem Sim.storeCapacity (hsim : Sim s g) {attempt : Attempt} {capacity : Nat}
    {enqueuing : EnqueuingCapacity}
    (hpc : s.pcs t = .dequeueStoreCapacity attempt capacity enqueuing) :
    Sim (⟨{ s.queue with capacity := attempt.nextCapa }, Function.update s.pcs t
      (.dequeueNotify attempt capacity enqueuing)⟩ : State T B α σ) g := by
  have hswapped : Swapped s.queue g attempt capacity enqueuing := by
    have hthread := hsim.thread t
    rwa [hpc] at hthread
  refine hsim.held_step (by rw [hpc]; rfl) rfl (hsim.shared.congr rfl rfl rfl) ?_ rfl
    (fun _ => Iff.rfl) fun _ _ => rfl
  exact hswapped.quiet (Quiet.of_buffers s.queue
    { s.queue with capacity := attempt.nextCapa } rfl) hsim.shared.nonempty

theorem Sim.slice (hsim : Sim s g) {i : Fin 2} {start stop : Nat} {slice : σ}
    (hpc : s.pcs t = .dequeueSlice i start stop)
    (hslice : Buffer.slice (s.queue.buffers i) start stop = some slice) :
    Sim (⟨s.queue, Function.update s.pcs t (.slice i start stop slice)⟩ :
      State T B α σ) g := by
  have hrange : Range s.queue g i start stop := by
    have hthread := hsim.thread t
    rwa [hpc] at hthread
  have hstop := hrange.length_drop
  obtain ⟨slice', hsome, helems⟩ := LawfulBuffer.slice_spec
    (hrange.holds_contents hsim.shared)
    (by rw [hstop, hrange.stop_eq]; exact hrange.fits) hrange.capacity_pos
  rw [hstop, hslice] at hsome
  cases hsome
  exact hsim.held_step (by rw [hpc]; rfl) rfl hsim.shared ⟨hrange, helems⟩ rfl
    (fun _ => Iff.rfl) fun _ _ => rfl

/-- The shared part after the first elements of the batch were taken out. -/
theorem Shared.consume (hshared : Shared q g) {i : Fin 2} {start stop : Nat}
    (hrange : Range q g i start stop) {values : List α} {b : B}
    (hvalues : (contents (g.tiles i)).drop start =
      values ++ (contents (g.tiles i)).drop (start + values.length))
    (hcapacity : Buffer.capacity b = Buffer.capacity (q.buffers i))
    (hcells : ∀ j, start + values.length ≤ j → j < stop →
      LawfulBuffer.cell b j = LawfulBuffer.cell (q.buffers i) j) :
    Shared (q.setBuffer i b) (g.next t (.consumed i values)) := by
  have hkeep := Queue.capacity_setBuffer hcapacity
  have hstart := hrange.start_eq
  refine ⟨hshared.enqueuing, hshared.closed, ?_, ?_, hshared.visible, hshared.nonempty,
    hshared.length, ?_, ?_⟩
  · intro j
    rw [hkeep]
    exact hshared.capacity_lt j
  · rw [hkeep]
    exact hshared.extent_add
  · intro j position tile hat hwritten hfits k hk hlower
    rw [hkeep] at hfits
    have hlower' : g.lower j ≤ position + k := by
      refine Nat.le_trans ?_ hlower
      change (if j = g.enqueuing then 0 else g.taken) ≤
        if j = g.enqueuing then 0 else g.taken + values.length
      split <;> omega
    have hcell := hshared.cells hat hwritten hfits k hk hlower'
    rw [Queue.buffers_setBuffer]
    split
    · rename_i hj
      subst hj
      have hend : position + tile.elems.length ≤ stop := by
        rw [hrange.stop_eq]
        exact hat.le_extent
      change (if j = g.enqueuing then 0 else g.taken + values.length) ≤ _ at hlower
      rw [if_neg hrange.other, ← hstart] at hlower
      rw [hcells _ hlower (by omega), hcell]
    · exact hcell
  · have hbefore := Ledger.batch_eq_of_visible hrange.other hrange.visible
    have hafter := Ledger.batch_eq_of_visible (g := g.next t (.consumed i values))
      hrange.other hrange.visible
    have horder := hshared.order
    rw [hbefore, ← hstart, hvalues] at horder
    rw [hafter]
    change g.consumed ++ values ++ (contents (g.tiles i)).drop (g.taken + _) ++
      g.tail = g.accepted.flatten
    rw [← horder, ← hstart]
    simp only [List.append_assoc]

omit [LawfulBuffer B] in
/-- The range left after the first elements of it were taken out. -/
theorem Range.consume {i : Fin 2} {start stop : Nat}
    (hrange : Range q g i start stop) (values : List α) {b : B}
    (hle : start + values.length ≤ stop)
    (hcapacity : Buffer.capacity b = Buffer.capacity (q.buffers i)) :
    Range (q.setBuffer i b) (g.next t (.consumed i values)) i
      (start + values.length) stop := by
  refine ⟨hrange.other, hrange.settled, ?_, hrange.stop_eq, hle, hrange.pos, ?_⟩
  · rw [hrange.start_eq]
    rfl
  · rw [Queue.capacity_setBuffer hcapacity]
    exact hrange.fits

theorem Sim.remove (hsim : Sim s g) {i : Fin 2} {start stop : Nat} {value : α} {b : B}
    (hpc : s.pcs t = .iter i start stop) (hlt : start < stop)
    (hremove : Buffer.remove (s.queue.buffers i) start = some (value, b)) :
    Sim (⟨s.queue.setBuffer i b, Function.update s.pcs t (.iter i (start + 1) stop)⟩ :
      State T B α σ) (g.next t (.consumed i [value])) := by
  have hrange : Range s.queue g i start stop := by
    have hthread := hsim.thread t
    rwa [hpc] at hthread
  have hfits := hrange.fits
  have hstop := hrange.stop_eq
  obtain ⟨value', hcell, hdrop⟩ := hrange.exists_head hsim.shared hlt
  obtain ⟨b', hsome, hcapacity, hcells⟩ := LawfulBuffer.remove_spec hcell (by omega)
  cases hremove.symm.trans hsome
  refine hsim.held_step (by rw [hpc]; rfl) rfl (hsim.shared.consume hrange hdrop
    hcapacity fun j hle _ => hcells j (Nat.ne_of_gt hle)) ?_ rfl (fun _ => Iff.rfl)
    fun _ _ => Queue.capacity_setBuffer hcapacity _
  exact hrange.consume [value] hlt hcapacity

theorem Sim.clear (hsim : Sim s g) {i : Fin 2} {start stop : Nat} {values : List α}
    {b : B} (hpc : s.pcs t = .releaseClear i start stop)
    (hclear : Buffer.clear (s.queue.buffers i) start stop = some (values, b)) :
    Sim (⟨s.queue.setBuffer i b, Function.update s.pcs t (.releaseLength i)⟩ :
      State T B α σ) (g.next t (.consumed i values)) := by
  have hrange : Range s.queue g i start stop := by
    have hthread := hsim.thread t
    rwa [hpc] at hthread
  have hstop := hrange.length_drop
  obtain ⟨b', hsome, hcapacity⟩ := LawfulBuffer.clear_spec
    (hrange.holds_contents hsim.shared)
    (by rw [hstop, hrange.stop_eq]; exact hrange.fits)
  rw [hstop, hclear] at hsome
  cases hsome
  have hdrop : (contents (g.tiles i)).drop start = (contents (g.tiles i)).drop start ++
      (contents (g.tiles i)).drop
        (start + ((contents (g.tiles i)).drop start).length) := by
    rw [hstop, hrange.stop_eq, extent, List.drop_length, List.append_nil]
  refine hsim.held_step (by rw [hpc]; rfl) rfl (hsim.shared.consume hrange hdrop
    hcapacity fun j hle hlt => absurd hlt (by omega)) ?_ rfl (fun _ => Iff.rfl)
    fun _ _ => Queue.capacity_setBuffer hcapacity _
  have hleft := hrange.consume (t := t) _ (le_of_eq hstop) hcapacity
  rw [hstop, hrange.stop_eq] at hleft
  exact hleft

theorem Sim.release (hsim : Sim s g) {i : Fin 2} (hpc : s.pcs t = .releaseLength i) :
    Sim (⟨s.queue.setLength i 0, Function.update s.pcs t
        (.storeDequeuing (DequeuingLength.new i 0) .done)⟩ : State T B α σ)
      (g.next t (.released i)) := by
  have hrange : Range s.queue g i (extent (g.tiles i)) (extent (g.tiles i)) := by
    have hthread := hsim.thread t
    rwa [hpc] at hthread
  have hshared := hsim.shared
  have hother := hrange.other
  have hsame : ∀ {j}, j ≠ i → (g.next t (.released i)).tiles j = g.tiles j := by
    intro j hj
    rw [Ledger.tiles_released, if_neg hj]
  have hnil : (g.next t (.released i)).tiles i = [] := by
    rw [Ledger.tiles_released, if_pos rfl]
  have hshared' : Shared (s.queue.setLength i 0) (g.next t (.released i)) := by
    refine ⟨hshared.enqueuing, hshared.closed, hshared.capacity_lt, ?_, ?_, ?_, ?_, ?_,
      ?_⟩
    · change extent ((g.next t (.released i)).tiles g.enqueuing) + _ = _
      rw [hsame hother.symm]
      exact hshared.extent_add
    · change ∀ tile ∈ (g.next t (.released i)).tiles g.enqueuing, _
      rw [hsame hother.symm]
      exact hshared.visible
    · intro j tile htile
      by_cases hj : j = i
      · subst hj
        rw [hnil] at htile
        cases htile
      · rw [hsame hj] at htile
        exact hshared.nonempty j tile htile
    · intro j
      rw [Queue.buffersLength_setLength]
      split
      · rename_i hj
        rw [hj, hnil, weight_nil, Nat.zero_mod]
      · rename_i hj
        rw [hsame hj]
        exact hshared.length j
    · intro j position tile hat hwritten hfits k hk _
      by_cases hj : j = i
      · subst hj
        rw [hnil] at hat
        exact absurd hat not_at_nil
      · rw [hsame hj] at hat hfits
        apply hshared.cells hat hwritten hfits k hk
        have henqueuing : j = g.enqueuing := by
          have hj' := eq_other_of_ne hj
          rw [hj', eq_other_of_ne hother, other_other]
        rw [Ledger.lower, if_pos henqueuing]
        exact Nat.zero_le _
    · have hview := hrange.view_released (t := t)
      have hbatch := congrArg View.batch hview
      have htail := congrArg View.tail hview
      change (g.next t (.released i)).batch = g.batch at hbatch
      change (g.next t (.released i)).tail = g.tail at htail
      rw [hbatch, htail]
      exact hshared.order
  have hbatch : Batch (s.queue.setLength i 0) (g.next t (.released i)) i 0 := by
    refine ⟨hother, ?_, ?_, ?_, Or.inl rfl⟩
    · rw [hnil]
      simp
    · rw [hnil]
      rfl
    · rw [hnil]
      exact Nat.zero_le _
  refine hsim.held_step (by rw [hpc]; rfl) rfl hshared'
    (hbatch.stored hshared' fun _ => rfl) rfl ?_ fun _ _ => rfl
  intro t' j position tile hown
  by_cases hj : j = i
  · subst hj
    rw [hnil]
    refine ⟨fun hat => absurd hat not_at_nil, fun hat => ?_⟩
    rw [hrange.settled tile hat.mem] at hown
    cases hown
  · rw [hsame hj]

end SwapBufferQueue
