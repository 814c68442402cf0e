/-
Every step keeps the simulation.  There is one lemma for each kind of transition;
they are assembled at the end into the invariant of all runs.
-/
import SwapBufferQueue.View

namespace SwapBufferQueue

universe u v w x

open Tiling

variable {T : Type x} {B : Type u} {α : Type v} {σ : Type w}
variable [Buffer B α σ] [LawfulBuffer B]

section Facts

variable {q q' : Queue B} {g : Ledger T α} {s : State T B α σ}

/-- The shared part does not read the lock word or the cached capacity. -/
theorem Shared.congr (hshared : Shared q g)
    (hword : q'.enqueuingCapacity = q.enqueuingCapacity)
    (hbuffers : q'.buffers = q.buffers)
    (hlength : q'.buffersLength = q.buffersLength) : Shared q' g where
  enqueuing := hword ▸ hshared.enqueuing
  closed := hword ▸ hshared.closed
  capacity_lt := hbuffers ▸ hshared.capacity_lt
  extent_add := by
    rw [hword, hbuffers]
    exact hshared.extent_add
  visible := hshared.visible
  nonempty := hshared.nonempty
  length := hlength ▸ hshared.length
  cells := by
    rw [hbuffers]
    exact hshared.cells
  order := hshared.order

theorem Shared.tiles_eq_nil (hshared : Shared q g) {i : Fin 2}
    (hzero : extent (g.tiles i) = 0) : g.tiles i = [] :=
  (extent_eq_zero_iff (hshared.nonempty i)).mp hzero

theorem Shared.enqueuing_eq_nil_iff (hshared : Shared q g) :
    g.tiles g.enqueuing = [] ↔ q.enqueuingCapacity.remainingCapacity =
      Buffer.capacity (q.buffers q.enqueuingCapacity.bufferIndex) := by
  have hadd := hshared.extent_add
  rw [hshared.enqueuing] at hadd ⊢
  constructor
  · intro hnil
    rwa [hnil, extent_nil, Nat.zero_add] at hadd
  · intro hfull
    apply hshared.tiles_eq_nil
    omega

/-- The cells of a buffer with nothing in flight hold what is not consumed yet. -/
theorem Shared.holds_of_settled (hshared : Shared q g) {i : Fin 2}
    (hsettled : ∀ tile ∈ g.tiles i, tile.tag = .acknowledged)
    (hfits : extent (g.tiles i) ≤ Buffer.capacity (q.buffers i)) :
    Holds (q.buffers i) (g.lower i) ((contents (g.tiles i)).drop (g.lower i)) := by
  intro k hk
  rw [List.length_drop] at hk
  have hlt : g.lower i + k < extent (g.tiles i) := by
    rw [extent]
    omega
  obtain ⟨position, tile, hat, hle, hlt'⟩ := exists_at_of_lt_extent hlt
  have hoffset : g.lower i + k = position + (g.lower i + k - position) := by omega
  have hcell := hshared.cells hat (by rw [hsettled tile hat.mem]; rfl)
    hfits (g.lower i + k - position) (by omega) (by omega)
  rw [List.getElem?_drop, hoffset, hcell, hat.contents_getElem? (by omega)]

theorem Shared.length_of_settled (hshared : Shared q g) {i : Fin 2}
    (hsettled : ∀ tile ∈ g.tiles i, tile.tag = .acknowledged)
    (hfits : extent (g.tiles i) ≤ Buffer.capacity (q.buffers i)) :
    q.buffersLength i = extent (g.tiles i) := by
  have hcapacity := hshared.capacity_lt i
  have hcounted : weight Status.counted (g.tiles i) = extent (g.tiles i) := by
    apply weight_eq_extent_of_all
    intro tile htile
    rw [hsettled tile htile]
    rfl
  rw [hshared.length i, hcounted, Nat.mod_eq_of_lt (by omega)]

/-- The cells of a sliced range hold the rest of the batch. -/
theorem Range.holds_contents (hshared : Shared q g) {i : Fin 2} {start stop : Nat}
    (hrange : Range q g i start stop) :
    Holds (q.buffers i) start ((contents (g.tiles i)).drop start) := by
  have hholds := hshared.holds_of_settled hrange.settled hrange.fits
  rwa [Ledger.lower, if_neg hrange.other, ← hrange.start_eq] at hholds

/-- The first element of a sliced range that is not empty. -/
theorem Range.exists_head (hshared : Shared q g) {i : Fin 2} {start stop : Nat}
    (hrange : Range q g i start stop) (hlt : start < stop) :
    ∃ value, LawfulBuffer.cell (q.buffers i) start = some value ∧
      (contents (g.tiles i)).drop start =
        value :: (contents (g.tiles i)).drop (start + 1) := by
  have hlength : start < (contents (g.tiles i)).length := by
    rw [← extent, ← hrange.stop_eq]
    exact hlt
  refine ⟨(contents (g.tiles i))[start], ?_, List.drop_eq_getElem_cons hlength⟩
  have hcell := hrange.holds_contents hshared 0 (by rw [List.length_drop]; omega)
  rw [List.getElem?_drop, Nat.add_zero] at hcell
  rw [hcell, List.getElem?_eq_getElem hlength]

/-- Everything reserved in a batch is acknowledged once the acknowledged length
has caught up with it. -/
theorem Batch.range (hshared : Shared q g) {i : Fin 2} {length : Nat}
    (hbatch : Batch q g i length) (hle : length ≤ q.buffersLength i)
    (hpos : 0 < length) :
    Range q g i (q.buffersLength i - length) (q.buffersLength i) := by
  have hadd := hbatch.length_add
  have hfits := hbatch.fits
  have hcapacity := hshared.capacity_lt i
  have hweight := weight_le_extent Status.counted (g.tiles i)
  have hlength := hshared.length i
  rw [Nat.mod_eq_of_lt (by omega)] at hlength
  have hsettled : ∀ tile ∈ g.tiles i, tile.tag = .acknowledged := by
    rcases hbatch.settled with htaken | hsettled
    · have hfull : extent (g.tiles i) ≤ weight Status.counted (g.tiles i) := by omega
      have hcounted := all_of_extent_le_weight (hshared.nonempty i) hfull
      intro tile htile
      exact Status.eq_acknowledged (hcounted tile htile) (hbatch.visible tile htile)
    · exact hsettled
  have hfull := hshared.length_of_settled hsettled hfits
  exact ⟨hbatch.other, hsettled, by omega, hfull, by omega, by omega, hfits⟩

theorem Stored.word_ne_locked (hshared : Shared q g) {dequeuing : DequeuingLength}
    (hstored : Stored q g dequeuing) : dequeuing.word ≠ dequeuingLocked := by
  intro hlocked
  have hlength := hstored.batch.length_add
  have hfits := hstored.batch.fits
  have hcapacity := hshared.capacity_lt dequeuing.bufferIndex
  have htop : dequeuing.bufferLen = 2 ^ 63 - 1 := by
    rw [DequeuingLength.bufferLen, hlocked]
    decide
  omega

/-- An activity that has no value in flight owns no tile. -/
theorem Sim.not_owned (hsim : Sim s g) {t : T}
    (hinsert : ∀ value enqueuing, s.pcs t ≠ .enqueueInsert value enqueuing)
    (hack : ∀ value enqueuing, s.pcs t ≠ .enqueueAcknowledge value enqueuing)
    {i : Fin 2} {position : Nat} {tile : Tile (Status T) α}
    (hat : At (g.tiles i) position tile) : tile.tag.owner ≠ some t := by
  intro hown
  obtain ⟨enqueuing, -, -, ⟨-, hpc⟩ | ⟨-, hpc⟩⟩ := hsim.owned hat hown
  · exact hinsert _ _ hpc
  · exact hack _ _ hpc

/-- The tile of an activity in flight is the only one it owns. -/
theorem Sim.at_of_owner (hsim : Sim s g) {t : T} {value : List α}
    {enqueuing : EnqueuingCapacity}
    (hpc : s.pcs t = .enqueueInsert value enqueuing ∨
      s.pcs t = .enqueueAcknowledge value enqueuing)
    {i : Fin 2} {position : Nat} {tile : Tile (Status T) α}
    (hat : At (g.tiles i) position tile) (hown : tile.tag.owner = some t) :
    i = enqueuing.bufferIndex ∧
      position = Buffer.capacity (s.queue.buffers enqueuing.bufferIndex) -
        enqueuing.remainingCapacity ∧
      tile.elems = value := by
  obtain ⟨word, rfl, hposition, ⟨-, howner⟩ | ⟨-, howner⟩⟩ := hsim.owned hat hown
  · rcases hpc with hpc | hpc
    · rw [hpc] at howner
      cases howner
      exact ⟨rfl, by omega, rfl⟩
    · rw [hpc] at howner
      cases howner
  · rcases hpc with hpc | hpc
    · rw [hpc] at howner
      cases howner
    · rw [hpc] at howner
      cases howner
      exact ⟨rfl, by omega, rfl⟩

end Facts

section Local

variable {q : Queue B} {g : Ledger T α} {t : T}

theorem threadInv_enqueueCheck {value : List α} (hne : value ≠ [])
    (hsize : value.length < 2 ^ 63) (enqueuing : EnqueuingCapacity) :
    ThreadInv q g t (enqueueCheck value enqueuing) :=
  enqueueCheck_elim (P := ThreadInv q g t) (fun _ => trivial) (fun _ _ => trivial)
    fun _ hopen hnext => ⟨hne, hsize, hopen, hnext⟩

/-- An unlocked word of length zero leaves the dequeuing buffer vacant. -/
theorem Stored.hidden (hshared : Shared q g) {dequeuing : DequeuingLength}
    (hstored : Stored q g dequeuing) (hzero : dequeuing.bufferLen = 0) :
    Hidden q g dequeuing .staged 0 := by
  have htaken := hstored.vacant hzero
  have hextent : extent (g.tiles dequeuing.bufferIndex) = 0 := by
    rw [← hstored.batch.length_add, hzero, htaken]
  refine ⟨hstored.batch.other, hzero, htaken, ?_, hextent⟩
  rw [hshared.tiles_eq_nil hextent]
  simp

theorem threadInv_dequeueEntry (hshared : Shared q g) {dequeuing : DequeuingLength}
    (hstored : Stored q g dequeuing) (resize : ResizeArgs α) :
    ThreadInv q g t (dequeueEntry dequeuing resize) :=
  dequeueEntry_elim (P := ThreadInv q g t)
    (fun hzero => hstored.hidden hshared hzero) fun hpos => ⟨hstored.batch, hpos⟩

/-- A batch that may be stored with its remaining length. -/
theorem Batch.stored (hshared : Shared q g) {i : Fin 2} {length : Nat}
    (hbatch : Batch q g i length) (hvacant : length = 0 → g.taken = 0) :
    Stored q g (DequeuingLength.new i length) := by
  have hlength := hbatch.length_add
  have hfits := hbatch.fits
  have hcapacity := hshared.capacity_lt i
  have hlt : length < 2 ^ 62 := by omega
  obtain ⟨hindex, hlen, -⟩ := DequeuingLength.new_spec i hlt
  constructor
  · rwa [hindex, hlen]
  · rwa [hlen]

theorem threadInv_dequeueFinish (hshared : Shared q g) {attempt : Attempt}
    {capacity : Nat} {enqueuing : EnqueuingCapacity}
    (hswapped : Swapped q g attempt capacity enqueuing) :
    ThreadInv q g t (dequeueFinish attempt capacity enqueuing) := by
  have hadd := hswapped.extent_add
  have hbatch : Batch q g enqueuing.bufferIndex
      (capacity - enqueuing.remainingCapacity) := by
    refine ⟨hswapped.other, hswapped.visible, ?_, ?_, Or.inl hswapped.taken⟩
    · rw [hswapped.taken]
      omega
    · rw [← hswapped.capacity_eq]
      omega
  have hstored : capacity = enqueuing.remainingCapacity →
      Stored q g (DequeuingLength.new enqueuing.bufferIndex 0) := by
    intro hfull
    rw [hfull, Nat.sub_self] at hbatch
    exact hbatch.stored hshared fun _ => hswapped.taken
  apply dequeueFinish_elim
  · intro hlt
    omega
  · intro hlt
    exact ⟨hbatch, Nat.sub_pos_of_lt hlt⟩
  · intro hfull _
    exact threadInv_dequeueEntry hshared (hstored hfull) _
  · intro hfull _ _
    exact hstored hfull
  · intro hfull hinserted hresized
    -- The assertion on `resized`: nothing else makes an attempt swap an empty buffer.
    rcases hswapped.work with hne | hres | hpos
    · exact absurd (hshared.tiles_eq_nil (by omega)) hne
    · rw [hresized] at hres
      cases hres
    · omega

theorem threadInv_requeueRange (hshared : Shared q g) {i : Fin 2} {start stop : Nat}
    (hrange : Range q g i start stop) :
    ThreadInv q g t (requeueRange i start stop) := by
  have hle := hrange.le
  apply requeueRange_elim
  · intro hlt
    omega
  · intro hlt
    have hbatch : Batch q g i (stop - start) := by
      refine ⟨hrange.other, hrange.visible, ?_, hrange.fits, Or.inr hrange.settled⟩
      rw [← hrange.start_eq, ← hrange.stop_eq]
      omega
    exact hbatch.stored hshared fun hzero => by omega
  · exact fun _ => hrange

theorem Local.threadInv (hshared : Shared q g) {pc pc' : Pc α σ} {action : Action α}
    (hmove : Local q pc action pc') (hpc : ThreadInv q g t pc)
    (hlock : pc.holds = true → q.dequeuingLength = dequeuingLocked)
    (hsize : ∀ value, action = .tryEnqueue value → value.length < 2 ^ 63) :
    ThreadInv q g t pc' := by
  cases hmove with
  | enqueueNothing _ => exact trivial
  | tryEnqueue _ value hvalue => exact ⟨hvalue, hsize value rfl⟩
  | enqueueLoad value _ => exact threadInv_enqueueCheck hpc.1 hpc.2 _
  | enqueueRetry value _ _ _ => exact threadInv_enqueueCheck hpc.1 hpc.2.1 _
  | indexUnderflow value enqueuing _ hlt =>
      exact absurd hpc.remaining_le (Nat.not_le_of_lt hlt)
  | insertOutOfBounds value enqueuing _ hnone =>
      have hle := hpc.remaining_le
      have hfits : value.length ≤ enqueuing.remainingCapacity := hpc.fits
      have hbound : Buffer.capacity (q.buffers enqueuing.bufferIndex) -
          enqueuing.remainingCapacity + value.length ≤
            Buffer.capacity (q.buffers enqueuing.bufferIndex) := by omega
      obtain ⟨b, hsome, -⟩ := LawfulBuffer.insertInto_spec hbound
      rw [hnone] at hsome
      cases hsome
  | tryDequeue _ => exact trivial
  | tryDequeueAndResize _ _ => exact trivial
  | keepCapacity _ _ _ _ => exact hpc
  | capacityOverflow _ _ _ _ _ _ => exact ⟨rfl, Or.inl hpc.taken⟩
  | skipEmpty _ _ _ _ _ => exact hpc
  | stageEnd _ _ _ _ _ _ => exact ⟨hpc, rfl⟩
  | stageOutOfBounds _ _ _ _ _ _ _ => exact ⟨rfl, Or.inl hpc.taken⟩
  | publishNothing attempt _ hzero =>
      obtain ⟨hhidden, hcapa⟩ := hpc
      refine ⟨⟨hhidden.other, hhidden.vacant, hhidden.taken, ?_, hhidden.length_eq⟩,
        hcapa⟩
      rw [hshared.tiles_eq_nil (hhidden.length_eq.trans hzero)]
      simp
  | bufferIndexAssert attempt _ hindex =>
      exact absurd (hindex.trans hshared.enqueuing.symm) hpc.1.other
  | nextCapacityUnderflow _ _ _ => exact ⟨rfl, Or.inl hpc.1.taken⟩
  | enqueuingCapacityAssert attempt _ hle hnone =>
      have hlt := hshared.capacity_lt attempt.dequeuing.bufferIndex
      rw [← hpc.2] at hlt
      have hbound : attempt.nextCapa - attempt.insertedLength < 2 ^ 62 := by omega
      obtain ⟨next, hsome, -⟩ := EnqueuingCapacity.new_spec
        attempt.dequeuing.bufferIndex hbound
      rw [hnone] at hsome
      cases hsome
  | dequeueLoad attempt nextEnqueuing _ hindex hwork hle hnext =>
      obtain ⟨hhidden, hcapa⟩ := hpc
      have hlt := hshared.capacity_lt attempt.dequeuing.bufferIndex
      rw [← hcapa] at hlt
      have hbound : attempt.nextCapa - attempt.insertedLength < 2 ^ 62 := by omega
      obtain ⟨next, hsome, hfields⟩ := EnqueuingCapacity.new_spec
        attempt.dequeuing.bufferIndex hbound
      cases hnext.symm.trans hsome
      refine ⟨hhidden, hcapa, hle, hfields.1, hfields.2.1, hfields.2.2,
        by rw [hshared.enqueuing], hshared.enqueuing.symm, ?_⟩
      exact hwork.imp (fun hne hnil => hne (hshared.enqueuing_eq_nil_iff.mp hnil)) id
  | swapRetry _ _ _ _ _ => exact { hpc with index_eq := hshared.enqueuing.symm }
  | capacityDiffers _ _ _ _ _ => exact hpc
  | capacitySame _ _ _ _ _ => exact hpc
  | dequeueNotify _ _ _ _ => exact threadInv_dequeueFinish hshared hpc
  | spinDone _ _ _ _ hle => exact hpc.1.range hshared hle hpc.2
  | spinAgain _ _ _ _ _ _ => exact hpc
  | spinPending i length _ _ _ _ =>
      exact hpc.1.stored hshared fun hzero => absurd hpc.2 (by omega)
  | sliceOutOfBounds i start stop _ hnone =>
      have hrange : Range q g i start stop := hpc
      have hstop := hrange.length_drop
      obtain ⟨slice, hsome, -⟩ := LawfulBuffer.slice_spec
        (hrange.holds_contents hshared)
        (by rw [hstop, hrange.stop_eq]; exact hrange.fits) hrange.capacity_pos
      rw [hstop, hnone] at hsome
      cases hsome
  | clearOutOfBounds i start stop _ hnone =>
      have hrange : Range q g i start stop := hpc
      have hstop := hrange.length_drop
      obtain ⟨b, hsome, -⟩ := LawfulBuffer.clear_spec
        (hrange.holds_contents hshared)
        (by rw [hstop, hrange.stop_eq]; exact hrange.fits)
      rw [hstop, hnone] at hsome
      cases hsome
  | dropSlice _ _ _ _ => exact hpc.1
  | dropIter _ _ _ => exact threadInv_requeueRange hshared hpc
  | requeue _ _ _ _ => exact threadInv_requeueRange hshared hpc.1
  | intoIter _ _ _ _ => exact hpc.1
  | nextNone _ _ _ _ => exact hpc
  | lockedAssert _ _ _ hopen => exact absurd (hlock rfl) hopen
  | removeOutOfBounds i start stop hlt hnone =>
      have hrange : Range q g i start stop := hpc
      have hfits := hrange.fits
      have hstop := hrange.stop_eq
      obtain ⟨value, hcell, -⟩ := hrange.exists_head hshared hlt
      have hbound : start < Buffer.capacity (q.buffers i) := by omega
      obtain ⟨b, hsome, -⟩ := LawfulBuffer.remove_spec hcell hbound
      rw [hnone] at hsome
      cases hsome
  | intoSlice _ _ _ => exact hpc
  | withOwned _ _ _ => exact hpc
  | foreignOwner i start stop =>
      have hrange : Range q g i start stop := hpc
      exact ⟨rfl, Or.inr (eq_other_of_ne hrange.other ▸ hrange.settled)⟩

end Local

section Moves

variable {s : State T B α σ} {q : Queue B} {g : Ledger T α} {t : T}

theorem Sim.locked_of_holds (hsim : Sim s g) (hholds : (s.pcs t).holds = true) :
    s.queue.dequeuingLength = dequeuingLocked :=
  hsim.locked_iff.mpr ⟨t, hholds⟩

theorem Local.holds_eq {pc pc' : Pc α σ} {action : Action α}
    (hmove : Local q pc action pc') (hpc' : ThreadInv q g t pc') :
    pc'.holds = pc.holds := by
  cases hmove with
  | enqueueLoad _ _ => exact enqueueCheck_holds _ _
  | enqueueRetry _ _ _ _ => exact enqueueCheck_holds _ _
  | indexUnderflow _ _ _ _ => cases hpc'.cause
  | insertOutOfBounds _ _ _ _ => cases hpc'.cause
  | dequeueNotify _ _ _ _ => exact dequeueFinish_holds _ _ _
  | dropIter _ _ _ => exact requeueRange_holds _ _ _
  | requeue _ _ _ _ => exact requeueRange_holds _ _ _
  | _ => rfl

theorem Local.not_inFlight {pc pc' : Pc α σ} {action : Action α}
    (hmove : Local q pc action pc') (hpc' : ThreadInv q g t pc') :
    (∀ value enqueuing, pc ≠ .enqueueInsert value enqueuing) ∧
      ∀ value enqueuing, pc ≠ .enqueueAcknowledge value enqueuing := by
  cases hmove with
  | indexUnderflow _ _ _ _ => cases hpc'.cause
  | insertOutOfBounds _ _ _ _ => cases hpc'.cause
  | _ => exact ⟨fun _ _ => by simp, fun _ _ => by simp⟩

/-- An activity that holds the lock has no value in flight. -/
theorem Sim.not_owned_of_holds (hsim : Sim s g) (hholds : (s.pcs t).holds = true)
    {i : Fin 2} {position : Nat} {tile : Tile (Status T) α}
    (hat : At (g.tiles i) position tile) : tile.tag.owner ≠ some t := by
  refine hsim.not_owned ?_ ?_ hat
  · intro value enqueuing hpc
    rw [hpc] at hholds
    cases hholds
  · intro value enqueuing hpc
    rw [hpc] at hholds
    cases hholds

/-- The shared part after a retagging that hides and shows nothing. -/
theorem Shared.retag (hshared : Shared q g) {q' : Queue B} {i : Fin 2}
    {f : Status T → Status T} (hhidden : ∀ tag, (f tag).hidden = tag.hidden)
    (hword : q'.enqueuingCapacity = q.enqueuingCapacity)
    (hcapacity : ∀ j, Buffer.capacity (q'.buffers j) = Buffer.capacity (q.buffers j))
    (hlength : ∀ j, q'.buffersLength j = weight Status.counted
      ((g.setTiles i (retag f (g.tiles i))).tiles j) % 2 ^ 64)
    (hcells : ∀ {j position old}, At (g.tiles j) position old →
      (if j = i then f old.tag else old.tag).unwritten = false →
        extent (g.tiles j) ≤ Buffer.capacity (q.buffers j) →
          ∀ k, k < old.elems.length → g.lower j ≤ position + k →
            LawfulBuffer.cell (q'.buffers j) (position + k) = old.elems[k]?) :
    Shared q' (g.setTiles i (Tiling.retag f (g.tiles i))) := by
  refine ⟨hword ▸ hshared.enqueuing, hword ▸ hshared.closed, ?_, ?_, ?_, ?_, hlength,
    ?_, ?_⟩
  · intro j
    rw [hcapacity]
    exact hshared.capacity_lt j
  · rw [Ledger.extent_retag_tiles, hword, hcapacity]
    exact hshared.extent_add
  · intro tile htile
    obtain ⟨position, hat⟩ := exists_at_of_mem htile
    obtain ⟨old, hold, rfl⟩ := Ledger.at_retag_tiles_iff.mp hat
    have hvisible := hshared.visible old hold.mem
    simp only
    split
    · rw [hhidden, hvisible]
    · exact hvisible
  · intro j tile htile
    obtain ⟨position, hat⟩ := exists_at_of_mem htile
    obtain ⟨old, hold, rfl⟩ := Ledger.at_retag_tiles_iff.mp hat
    exact hshared.nonempty j old hold.mem
  · intro j position tile hat hwritten hfits k hk hlower
    obtain ⟨old, hold, rfl⟩ := Ledger.at_retag_tiles_iff.mp hat
    rw [Ledger.extent_retag_tiles, hcapacity] at hfits
    exact hcells hold hwritten hfits k hk hlower
  · rw [Ledger.batch_retag i hhidden]
    change g.consumed ++ g.batch ++
      contents ((g.setTiles i (Tiling.retag f (g.tiles i))).tiles g.enqueuing) = _
    rw [Ledger.contents_retag_tiles]
    exact hshared.order

end Moves

section Enqueuers

variable [DecidableEq T] {s : State T B α σ} {q : Queue B} {g : Ledger T α} {t : T}

theorem Sim.local_step (hsim : Sim s g) {action : Action α} {pc' : Pc α σ}
    (hmove : Local s.queue (s.pcs t) action pc')
    (hsize : ∀ value, action = .tryEnqueue value → value.length < 2 ^ 63) :
    Sim (⟨s.queue, Function.update s.pcs t pc'⟩ : State T B α σ) g := by
  have hself := hmove.threadInv hsim.shared (hsim.thread t) hsim.locked_of_holds hsize
  have hholds := hmove.holds_eq hself
  have hnone := hmove.not_inFlight hself
  refine hsim.step_of hsim.shared hself (fun _ _ _ _ _ => ⟨Iff.rfl, fun _ => rfl⟩)
    (fun hat hown => (hsim.not_owned hnone.1 hnone.2 hat hown).elim) ?_
  by_cases hpc : (s.pcs t).holds = true
  · exact .held hpc (hholds.trans hpc) rfl
  · have hpc' := Bool.eq_false_iff.mpr hpc
    exact .free hpc' (hholds.trans hpc') rfl (Quiet.refl _ _)

theorem Shared.reserve (hshared : Shared q g) {value : List α} (hne : value ≠ [])
    {next : EnqueuingCapacity} (hopen : q.enqueuingCapacity.isClosed = false)
    (hfit : value.length ≤ q.enqueuingCapacity.remainingCapacity)
    (hindex : next.bufferIndex = q.enqueuingCapacity.bufferIndex)
    (hremaining : next.remainingCapacity =
      q.enqueuingCapacity.remainingCapacity - value.length)
    (hnextOpen : next.isClosed = false) :
    Shared { q with enqueuingCapacity := next }
      (g.next t (.reserved g.enqueuing value)) := by
  have hadd := hshared.extent_add
  refine ⟨hindex ▸ hshared.enqueuing, ?_, hshared.capacity_lt, ?_, ?_, ?_, ?_, ?_, ?_⟩
  · change g.closed = next.isClosed
    rw [hnextOpen, hshared.closed, hopen]
  · change extent ((g.next t (.reserved g.enqueuing value)).tiles g.enqueuing) +
      next.remainingCapacity = Buffer.capacity (q.buffers g.enqueuing)
    rw [Ledger.tiles_reserved, if_pos rfl, extent_append, extent_cons, extent_nil,
      hremaining]
    simp only
    omega
  · change ∀ tile ∈ (g.next t (.reserved g.enqueuing value)).tiles g.enqueuing, _
    rw [Ledger.tiles_reserved, if_pos rfl]
    intro tile htile
    rcases List.mem_append.mp htile with hold | hnew
    · exact hshared.visible tile hold
    · rw [List.mem_singleton.mp hnew]
      rfl
  · intro i tile htile
    obtain ⟨position, hat⟩ := exists_at_of_mem htile
    rcases Ledger.at_append_tile_iff.mp hat with hold | ⟨-, -, rfl⟩
    · exact hshared.nonempty i tile hold.mem
    · exact hne
  · intro i
    change q.buffersLength i = _
    rw [hshared.length, Ledger.tiles_reserved]
    split
    · rename_i hi
      rw [weight_append, weight_cons, weight_nil, ← hi]
      rfl
    · rfl
  · intro i position tile hat hwritten hfits k hk hlower
    rcases Ledger.at_append_tile_iff.mp hat with hold | ⟨-, -, rfl⟩
    · apply hshared.cells hold hwritten _ k hk hlower
      refine Nat.le_trans ?_ hfits
      rw [Ledger.tiles_reserved]
      split
      · rename_i hi
        rw [extent_append, hi]
        exact Nat.le_add_right _ _
      · exact Nat.le_refl _
    · cases hwritten
  · have hview := hshared.view_reserved (t := t) value
    rw [← hshared.enqueuing] at hview
    have hbatch := congrArg View.batch hview
    have htail := congrArg View.tail hview
    change (g.next t (.reserved g.enqueuing value)).batch = g.batch at hbatch
    change (g.next t (.reserved g.enqueuing value)).tail = g.tail ++ value at htail
    rw [hbatch, htail]
    change g.consumed ++ g.batch ++ (g.tail ++ value) = (g.accepted ++ [value]).flatten
    rw [List.flatten_append, ← hshared.order]
    simp

/-- The reservation: the value is laid at the end of the enqueuing buffer. -/
theorem Sim.reserve (hsim : Sim s g) {value : List α} {next : EnqueuingCapacity}
    (hpc : s.pcs t = .enqueueReserve value s.queue.enqueuingCapacity next) :
    Sim (⟨{ s.queue with enqueuingCapacity := next }, Function.update s.pcs t
        (.enqueueInsert value s.queue.enqueuingCapacity)⟩ : State T B α σ)
      (g.next t (.reserved s.queue.enqueuingCapacity.bufferIndex value)) := by
  have hthread := hsim.thread t
  rw [hpc] at hthread
  obtain ⟨hne, hsize, hopen, hreserve⟩ := hthread
  obtain ⟨hfit, hindex, hremaining, hnextOpen⟩ :=
    (EnqueuingCapacity.tryReserve_eq_some_iff hopen hsize).mp hreserve
  have hshared := hsim.shared
  have hadd := hshared.extent_add
  have henqueuing := hshared.enqueuing
  rw [← henqueuing]
  refine hsim.step_of
    (hshared.reserve hne hopen hfit hindex hremaining hnextOpen) ?_ ?_ ?_
    (.free (by rw [hpc]; rfl) rfl rfl ?_)
  · refine ⟨?_, hfit, ?_⟩
    · change s.queue.enqueuingCapacity.remainingCapacity ≤
        Buffer.capacity (s.queue.buffers s.queue.enqueuingCapacity.bufferIndex)
      rw [← henqueuing]
      omega
    · refine Ledger.at_append_tile_iff.mpr (Or.inr ⟨henqueuing.symm, ?_, rfl⟩)
      change Buffer.capacity (s.queue.buffers s.queue.enqueuingCapacity.bufferIndex) -
        s.queue.enqueuingCapacity.remainingCapacity = _
      rw [← henqueuing]
      omega
  · intro t' ht' i position tile hown
    refine ⟨Ledger.at_append_tile_iff.trans ⟨?_, Or.inl⟩, fun _ => rfl⟩
    rintro (hold | ⟨-, -, rfl⟩)
    · exact hold
    · cases hown
      exact (ht' rfl).elim
  · intro i position tile hat hown
    rcases Ledger.at_append_tile_iff.mp hat with hold | ⟨rfl, rfl, rfl⟩
    · exact (hsim.not_owned (by simp [hpc]) (by simp [hpc]) hold hown).elim
    · exact ⟨_, henqueuing.symm, hadd, Or.inl ⟨rfl, rfl⟩⟩
  · refine ⟨rfl, rfl, fun _ => rfl, ?_, ?_, ?_⟩
    · intro i hi
      rw [Ledger.tiles_reserved, if_neg hi]
    · intro i P hi _ hP
      rw [Ledger.tiles_reserved, if_neg hi]
      exact hP
    · intro _
      rw [Ledger.tiles_reserved, if_pos rfl]
      simp

theorem Status.Stable.write {P : Status T → Prop} (hP : Status.Stable P) (t : T)
    (tag : Status T) (htag : P tag) : P (tag.write t) := by
  unfold Status.write
  split
  · rename_i heq
    subst heq
    exact (hP t).1 htag
  · exact htag

theorem Status.Stable.acknowledge {P : Status T → Prop} (hP : Status.Stable P) (t : T)
    (tag : Status T) (htag : P tag) : P (tag.acknowledge t) := by
  unfold Status.acknowledge
  split
  · rename_i heq
    subst heq
    exact (hP t).2 htag
  · exact htag

/-- Writing the value: only the cells of its own tile change. -/
theorem Sim.insert (hsim : Sim s g) {value : List α} {enqueuing : EnqueuingCapacity}
    {b : B} (hpc : s.pcs t = .enqueueInsert value enqueuing)
    (hinsert : Buffer.insertInto (s.queue.buffers enqueuing.bufferIndex)
      (Buffer.capacity (s.queue.buffers enqueuing.bufferIndex) -
        enqueuing.remainingCapacity) value = some b) :
    Sim (⟨s.queue.setBuffer enqueuing.bufferIndex b, Function.update s.pcs t
        (.enqueueAcknowledge value enqueuing)⟩ : State T B α σ)
      (g.next t (.inserted enqueuing.bufferIndex value)) := by
  have hflight : InFlight s.queue g enqueuing ⟨.reserved t, value⟩ := by
    have hthread := hsim.thread t
    rwa [hpc] at hthread
  have hremaining := hflight.remaining_le
  have hfits : value.length ≤ enqueuing.remainingCapacity := hflight.fits
  have hbound : Buffer.capacity (s.queue.buffers enqueuing.bufferIndex) -
      enqueuing.remainingCapacity + value.length ≤
        Buffer.capacity (s.queue.buffers enqueuing.bufferIndex) := by omega
  have hcapacity := Queue.capacity_setBuffer (q := s.queue)
    (LawfulBuffer.capacity_insertInto hinsert)
  have hmine : ∀ {i position tile}, At (g.tiles i) position tile →
      tile.tag.owner = some t → i = enqueuing.bufferIndex ∧
        position = Buffer.capacity (s.queue.buffers enqueuing.bufferIndex) -
          enqueuing.remainingCapacity ∧ tile.elems = value :=
    fun hat hown => hsim.at_of_owner (Or.inl hpc) hat hown
  refine hsim.step_of ?_ ?_ ?_ ?_ (.free (by rw [hpc]; rfl) rfl rfl
    (quiet_retag (fun hP => hP.write t) hcapacity))
  · refine hsim.shared.retag (Status.hidden_write t) rfl hcapacity ?_ ?_
    · intro j
      change s.queue.buffersLength j = _
      rw [hsim.shared.length, Ledger.tiles_setTiles]
      split
      · rename_i hj
        rw [weight_retag, hj]
        congr 1
        apply weight_congr
        intro tile _
        exact (Status.counted_write t tile.tag).symm
      · rfl
    · intro j position old hat hwritten hextent k hk hlower
      rw [Queue.buffers_setBuffer]
      split
      · rename_i hj
        rw [if_pos hj] at hwritten
        subst hj
        by_cases htag : old.tag = .reserved t
        · -- The tile just written is the one of this activity.
          obtain ⟨-, rfl, rfl⟩ := hmine hat (by rw [htag]; rfl)
          exact holds_insertInto hbound hinsert k hk
        · have hkeep : old.tag.write t = old.tag := if_neg htag
          rw [hkeep] at hwritten
          have hcell := hsim.shared.cells hat hwritten hextent k hk hlower
          rw [cell_insertInto_of_not_mem hbound hinsert, hcell]
          rintro ⟨hle, hlt⟩
          rcases hat.separate hflight.at_index with ⟨-, heq⟩ | hsep | hsep
          · exact htag (by rw [heq])
          · omega
          · simp only at hsep
            omega
      · rename_i hj
        rw [if_neg hj] at hwritten
        exact hsim.shared.cells hat hwritten hextent k hk hlower
  · refine ⟨?_, hfits, ?_⟩
    · rw [hcapacity]
      exact hremaining
    · rw [hcapacity]
      refine Ledger.at_retag_tiles_iff.mpr ⟨_, hflight.at_index, ?_⟩
      simp [Status.write]
  · intro t' ht' i position tile hown
    refine ⟨?_, fun _ => hcapacity i⟩
    rw [Ledger.tiles_inserted]
    split
    · rename_i hi
      rw [hi]
      exact (Status.fixes_write ht').at_retag_iff hown
    · exact Iff.rfl
  · intro i position tile hat hown
    obtain ⟨old, hold, rfl⟩ := Ledger.at_retag_tiles_iff.mp hat
    have holdOwn : old.tag.owner = some t := by
      simp only at hown
      split at hown
      · unfold Status.write at hown
        split at hown
        · rename_i heq
          rw [heq]
          rfl
        · exact hown
      · exact hown
    obtain ⟨rfl, rfl, rfl⟩ := hmine hold holdOwn
    have htag : old.tag = .reserved t := by
      obtain ⟨word, -, -, ⟨htag, -⟩ | ⟨-, hack⟩⟩ := hsim.owned hold holdOwn
      · exact htag
      · rw [hpc] at hack
        cases hack
    refine ⟨enqueuing, rfl, ?_, Or.inr ⟨?_, rfl⟩⟩
    · rw [hcapacity]
      omega
    · simp [htag, Status.write]

/-- The acknowledgement: the tile is settled and its length is counted. -/
theorem Sim.acknowledge (hsim : Sim s g) {value : List α}
    {enqueuing : EnqueuingCapacity}
    (hpc : s.pcs t = .enqueueAcknowledge value enqueuing) :
    Sim (⟨s.queue.addLength enqueuing.bufferIndex value.length,
        Function.update s.pcs t (.idle (some .enqueued))⟩ : State T B α σ)
      (g.next t (.acknowledged enqueuing.bufferIndex value)) := by
  have hflight : InFlight s.queue g enqueuing ⟨.written t, value⟩ := by
    have hthread := hsim.thread t
    rwa [hpc] at hthread
  have hmine : ∀ {i position tile}, At (g.tiles i) position tile →
      tile.tag.owner = some t → i = enqueuing.bufferIndex ∧
        position = Buffer.capacity (s.queue.buffers enqueuing.bufferIndex) -
          enqueuing.remainingCapacity ∧ tile.elems = value :=
    fun hat hown => hsim.at_of_owner (Or.inr hpc) hat hown
  have hwritten : ∀ {i position tile}, At (g.tiles i) position tile →
      tile.tag.owner = some t → tile.tag = .written t := by
    intro i position tile hat hown
    obtain ⟨word, -, -, ⟨-, hins⟩ | ⟨htag, -⟩⟩ := hsim.owned hat hown
    · rw [hpc] at hins
      cases hins
    · exact htag
  refine hsim.step_of ?_ trivial ?_ ?_ (.free (by rw [hpc]; rfl) rfl rfl
    (quiet_retag (fun hP => hP.acknowledge t) fun _ => rfl))
  · refine hsim.shared.retag (Status.hidden_acknowledge t) rfl (fun _ => rfl) ?_ ?_
    · intro j
      have hlength := hsim.shared.length j
      rw [Queue.addLength, Queue.buffersLength_setLength, Ledger.tiles_setTiles]
      split
      · rename_i hj
        subst hj
        have hweight : weight Status.counted
            (retag (Status.acknowledge t) (g.tiles enqueuing.bufferIndex)) =
              weight Status.counted (g.tiles enqueuing.bufferIndex) + value.length := by
          have hcount : ∀ tag : Status T, (tag.acknowledge t).counted =
              (tag.counted || decide (tag = .written t)) :=
            Status.counted_acknowledge t
          have hunique := hflight.at_index.weight_eq
            (fun position' tile' hat' htag =>
              (hmine hat' (by rw [htag]; rfl)).2.1)
            (hsim.shared.nonempty _)
          have hsplit : weight (fun tag : Status T => (tag.acknowledge t).counted)
              (g.tiles enqueuing.bufferIndex) =
                weight (fun tag => tag.counted || decide (tag = .written t))
                  (g.tiles enqueuing.bufferIndex) :=
            weight_congr fun tile _ => hcount tile.tag
          rw [weight_retag, hsplit, weight_or_eq rfl, hunique]
        rw [hweight, hlength, Nat.mod_add_mod]
      · exact hlength
    · intro j position old hat hunwritten hextent k hk hlower
      apply hsim.shared.cells hat _ hextent k hk hlower
      split at hunwritten
      · rwa [Status.unwritten_acknowledge] at hunwritten
      · exact hunwritten
  · intro t' ht' i position tile hown
    refine ⟨?_, fun _ => rfl⟩
    rw [Ledger.tiles_acknowledged]
    split
    · rename_i hi
      rw [hi]
      exact (Status.fixes_acknowledge ht').at_retag_iff hown
    · exact Iff.rfl
  · intro i position tile hat hown
    obtain ⟨old, hold, rfl⟩ := Ledger.at_retag_tiles_iff.mp hat
    have holdOwn : old.tag.owner = some t := by
      simp only at hown
      split at hown
      · unfold Status.acknowledge at hown
        split at hown
        · cases hown
        · exact hown
      · exact hown
    obtain ⟨rfl, -, -⟩ := hmine hold holdOwn
    simp [hwritten hold holdOwn, Status.acknowledge, Status.owner] at hown

/-- `close` and `reopen` change the flag of the word and nothing else. -/
theorem Sim.setClosed (hsim : Sim s g) {word : EnqueuingCapacity} {closed : Bool}
    (hidle : (s.pcs t).holds = false)
    (hinsert : ∀ value enqueuing, s.pcs t ≠ .enqueueInsert value enqueuing)
    (hack : ∀ value enqueuing, s.pcs t ≠ .enqueueAcknowledge value enqueuing)
    (hfields : word.bufferIndex = s.queue.enqueuingCapacity.bufferIndex ∧
      word.remainingCapacity = s.queue.enqueuingCapacity.remainingCapacity ∧
      word.isClosed = closed) :
    Sim (⟨{ s.queue with enqueuingCapacity := word }, Function.update s.pcs t
      (.idle (some .done))⟩ : State T B α σ) { g with closed := closed } := by
  have hshared := hsim.shared
  refine hsim.step_of ?_ trivial (fun _ _ _ _ _ => ⟨Iff.rfl, fun _ => rfl⟩)
    (fun hat hown => (hsim.not_owned hinsert hack hat hown).elim)
    (.free hidle rfl rfl ⟨rfl, rfl, fun _ => rfl, fun _ => rfl, fun _ _ h => h, id⟩)
  refine ⟨hfields.1 ▸ hshared.enqueuing, hfields.2.2.symm, hshared.capacity_lt, ?_,
    hshared.visible, hshared.nonempty, hshared.length, hshared.cells, hshared.order⟩
  change extent (g.tiles g.enqueuing) + word.remainingCapacity = _
  rw [hfields.2.1]
  exact hshared.extent_add

end Enqueuers

end SwapBufferQueue
