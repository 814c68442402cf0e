/-
Exactly-once delivery in order.  The elements consumed, then the cells of the batch
being dequeued, then the cells of the enqueuing buffer spell the values accepted so
far; the cells that are not written yet are those of reservations in flight.
-/
import SwapBufferQueue.Arguments
import SwapBufferQueue.CellBuffer

namespace SwapBufferQueue

universe u v w x

open Tiling

variable {T : Type x} {B : Type u} {α : Type v} {σ : Type w} [Buffer B α σ]

section Inserts

/-- The resizing calls insert nothing. -/
def InsertsNothing (_ : State T B α σ) (label : T × Action α) : Prop :=
  ∀ resize ∈ label.2.resize?, resize.insert = []

/-- A program counter with nothing to insert. -/
def Pc.InsertsNothing : Pc α σ → Prop
  | .dequeueLock resize => resize.insert = []
  | .dequeueResize _ resize => resize.insert = []
  | .dequeueInsert _ _ values length => values = [] ∧ length = 0
  | .dequeuePublish attempt => attempt.insertedLength = 0
  | .dequeueLoad attempt => attempt.insertedLength = 0
  | .dequeueSwap attempt _ _ _ => attempt.insertedLength = 0
  | _ => True

theorem insertsNothing_enqueueCheck (value : List α) (enqueuing : EnqueuingCapacity) :
    (enqueueCheck value enqueuing : Pc α σ).InsertsNothing :=
  enqueueCheck_elim (P := Pc.InsertsNothing) (fun _ => trivial) (fun _ _ => trivial)
    fun _ _ _ => trivial

theorem insertsNothing_dequeueEntry (dequeuing : DequeuingLength)
    {resize : ResizeArgs α} (hresize : resize.insert = []) :
    (dequeueEntry dequeuing resize : Pc α σ).InsertsNothing :=
  dequeueEntry_elim (P := Pc.InsertsNothing) (fun _ => hresize) fun _ => trivial

theorem insertsNothing_dequeueFinish (attempt : Attempt) (capacity : Nat)
    (enqueuing : EnqueuingCapacity) :
    (dequeueFinish attempt capacity enqueuing : Pc α σ).InsertsNothing :=
  dequeueFinish_elim (P := Pc.InsertsNothing) (fun _ => trivial) (fun _ => trivial)
    (fun _ _ => insertsNothing_dequeueEntry _ rfl) (fun _ _ _ => trivial)
    fun _ _ _ => trivial

theorem insertsNothing_requeueRange (i : Fin 2) (start stop : Nat) :
    (requeueRange i start stop : Pc α σ).InsertsNothing :=
  requeueRange_elim (P := Pc.InsertsNothing) (fun _ => trivial) (fun _ => trivial)
    fun _ => trivial

variable {q q' : Queue B} {pc pc' : Pc α σ} {action : Action α} {event : Event α}

theorem Local.insertsNothing (hmove : Local q pc action pc')
    (hpc : pc.InsertsNothing)
    (hlabel : ∀ resize ∈ action.resize?, resize.insert = []) : pc'.InsertsNothing := by
  cases hmove with
  | enqueueLoad _ _ => exact insertsNothing_enqueueCheck _ _
  | enqueueRetry _ _ _ _ => exact insertsNothing_enqueueCheck _ _
  | tryDequeue _ => exact rfl
  | tryDequeueAndResize _ resize => exact hlabel resize rfl
  | keepCapacity _ _ _ _ => exact ⟨hpc, rfl⟩
  | skipEmpty _ _ _ _ _ => cases hpc.1
  | stageEnd _ _ _ _ _ _ => exact hpc.2
  | publishNothing _ _ _ => exact hpc
  | dequeueLoad _ _ _ _ _ _ _ => exact hpc
  | swapRetry _ _ _ _ _ => exact hpc
  | dequeueNotify _ _ _ _ => exact insertsNothing_dequeueFinish _ _ _
  | dropIter _ _ _ => exact insertsNothing_requeueRange _ _ _
  | requeue _ _ _ _ => exact insertsNothing_requeueRange _ _ _
  | _ => exact trivial

theorem Transition.insertsNothing (hmove : Transition q pc action q' pc' event)
    (hpc : pc.InsertsNothing)
    (hlabel : ∀ resize ∈ action.resize?, resize.insert = []) : pc'.InsertsNothing := by
  cases hmove with
  | silent hlocal => exact hlocal.insertsNothing hpc hlabel
  | lock _ _ _ => exact insertsNothing_dequeueEntry _ hpc
  | resize _ _ _ _ _ _ _ _ _ => exact ⟨hpc, rfl⟩
  | stage _ _ _ _ _ _ _ _ _ _ => cases hpc.1
  | publish _ _ _ => exact hpc
  | _ => exact trivial

variable [DecidableEq T]

theorem insertsNothing_of_run {start s : State T B α σ} (hinitial : Initial start)
    {ok : State T B α σ → T × Action α → Prop}
    (hok : ∀ state label, ok state label → InsertsNothing state label)
    {trace : List ((T × Action α) × Event α)}
    (hrun : Runs.Run SwapBufferQueue.step ok start trace s) (t : T) :
    (s.pcs t).InsertsNothing :=
  pcs_of_run (P := Pc.InsertsNothing) trivial
    (fun hlabel hmove hpc => hmove.insertsNothing hpc (hok _ _ hlabel)) hinitial hrun t

end Inserts

/-- The calls of the delivery theorem: sizes below `2 ^ 63`, accepted capacities, no
insertion while resizing, and no owner of another queue. -/
structure DeliveryOk (s : State T B α σ) (label : T × Action α) : Prop where
  size : SizeOk s label
  capacity : CapacityOk s label
  nothing : InsertsNothing s label
  owner : OwnerOk s label

instance instDecidableDeliveryOk [DecidableEq α] (s : State T B α σ)
    (label : T × Action α) : Decidable (DeliveryOk s label) :=
  have : Decidable (CapacityOk s label) := inferInstanceAs (Decidable
    (∀ resize ∈ label.2.resize?, ∀ capa ∈ resize.capacity, checkOverflow capa = true))
  have : Decidable (InsertsNothing s label) := inferInstanceAs (Decidable
    (∀ resize ∈ label.2.resize?, resize.insert = []))
  have : Decidable (OwnerOk s label) :=
    inferInstanceAs (Decidable (label.2 ≠ .withOwned false))
  decidable_of_iff (SizeOk s label ∧ CapacityOk s label ∧ InsertsNothing s label ∧
      OwnerOk s label)
    ⟨fun ⟨size, capacity, nothing, owner⟩ => ⟨size, capacity, nothing, owner⟩,
      fun ⟨size, capacity, nothing, owner⟩ => ⟨size, capacity, nothing, owner⟩⟩

section Ranges

/-- The range of cells an unlocked dequeuing word stands for.  A batch that is not
acknowledged yet starts at the first cell. -/
def Queue.storedRange (q : Queue B) (dequeuing : DequeuingLength) : Fin 2 × Nat × Nat :=
  let start := q.buffersLength dequeuing.bufferIndex - dequeuing.bufferLen
  (dequeuing.bufferIndex, start, start + dequeuing.bufferLen)

/-- The buffer and the range of cells that the holder of the lock has still to
deliver. -/
def Pc.batchRange (q : Queue B) : Pc α σ → Option (Fin 2 × Nat × Nat)
  | .dequeueResize dequeuing _ => some (dequeuing.bufferIndex, 0, 0)
  | .dequeueInsert dequeuing _ _ _ => some (dequeuing.bufferIndex, 0, 0)
  | .dequeuePublish attempt => some (attempt.dequeuing.bufferIndex, 0, 0)
  | .dequeueLoad attempt => some (attempt.dequeuing.bufferIndex, 0, 0)
  | .dequeueSwap attempt _ _ _ => some (attempt.dequeuing.bufferIndex, 0, 0)
  | .dequeueLoadCapacity _ capacity enqueuing =>
      some (enqueuing.bufferIndex, 0, capacity - enqueuing.remainingCapacity)
  | .dequeueStoreCapacity _ capacity enqueuing =>
      some (enqueuing.bufferIndex, 0, capacity - enqueuing.remainingCapacity)
  | .dequeueNotify _ capacity enqueuing =>
      some (enqueuing.bufferIndex, 0, capacity - enqueuing.remainingCapacity)
  | .dequeueSpin i length _ =>
      some (i, q.buffersLength i - length, q.buffersLength i - length + length)
  | .dequeueSlice i start stop => some (i, start, stop)
  | .slice i start stop _ => some (i, start, stop)
  | .iter i start stop => some (i, start, stop)
  | .releaseClear i start stop => some (i, start, stop)
  | .releaseLength i => some (i, 0, 0)
  | .storeDequeuing dequeuing _ => some (q.storedRange dequeuing)
  | _ => none

/-- The not yet consumed range of the dequeuing buffer, whether live in a slice or
an iterator, being dequeued, pending or requeued. -/
def Undelivered (s : State T B α σ) (range : Fin 2 × Nat × Nat) : Prop :=
  (s.queue.dequeuingLength ≠ dequeuingLocked ∧
      range = s.queue.storedRange ⟨s.queue.dequeuingLength⟩) ∨
    ∃ t, (s.pcs t).batchRange s.queue = some range

/-- The cell belongs to a reservation whose value is not inserted yet, and will hold
the given element of it. -/
def AwaitsInsert (s : State T B α σ) (i : Fin 2) (j : Nat) (element : Option α) :
    Prop :=
  ∃ t value enqueuing k, s.pcs t = .enqueueInsert value enqueuing ∧
    enqueuing.bufferIndex = i ∧ k < value.length ∧
    j = Buffer.capacity (s.queue.buffers i) - enqueuing.remainingCapacity + k ∧
    element = value[k]?

variable [LawfulBuffer B]

/-- The cells from `start` on spell the list, up to the values in flight. -/
def Spells (s : State T B α σ) (i : Fin 2) (start : Nat) (elements : List α) : Prop :=
  ∀ k, k < elements.length →
    LawfulBuffer.cell (s.queue.buffers i) (start + k) = elements[k]? ∨
      AwaitsInsert s i (start + k) elements[k]?

variable {s : State T B α σ} {g : Ledger T α}

theorem spells_nil (s : State T B α σ) (i : Fin 2) (start : Nat) :
    Spells s i start ([] : List α) := by
  intro k hk
  cases hk

/-- The live cells of a buffer spell the values laid in it. -/
theorem Sim.spells (hsim : Sim s g) {i : Fin 2}
    (hfits : extent (g.tiles i) ≤ Buffer.capacity (s.queue.buffers i)) {start : Nat}
    (hlower : g.lower i ≤ start) :
    Spells s i start ((contents (g.tiles i)).drop start) := by
  intro k hk
  rw [List.length_drop] at hk
  have hlt : start + k < extent (g.tiles i) := by
    rw [extent]
    omega
  obtain ⟨position, tile, hat, hle, hend⟩ := exists_at_of_lt_extent hlt
  obtain ⟨offset, hoffset⟩ : ∃ offset, start + k = position + offset :=
    ⟨start + k - position, by omega⟩
  have hoffset_lt : offset < tile.elems.length := by omega
  rw [List.getElem?_drop, hoffset, hat.contents_getElem? hoffset_lt]
  by_cases hwritten : tile.tag.unwritten = false
  · exact Or.inl (hsim.shared.cells hat hwritten hfits offset hoffset_lt (by omega))
  · -- A tile that is not written belongs to an activity about to insert it.
    right
    obtain ⟨t, htag⟩ : ∃ t, tile.tag = .reserved t := by
      cases htag : tile.tag with
      | reserved t => exact ⟨t, rfl⟩
      | _ =>
          rw [htag] at hwritten
          exact absurd rfl hwritten
    obtain ⟨enqueuing, hindex, hposition, ⟨-, hpc⟩ | ⟨hother, -⟩⟩ :=
      hsim.owned hat (t := t) (by rw [htag]; rfl)
    · exact ⟨t, tile.elems, enqueuing, offset, hpc, hindex, hoffset_lt, by omega, rfl⟩
    · rw [htag] at hother
      cases hother

/-- A batch starts where its word and the acknowledged length say. -/
theorem Batch.start_eq {q : Queue B} (hshared : Shared q g) {i : Fin 2} {length : Nat}
    (hbatch : Batch q g i length) : q.buffersLength i - length = g.taken := by
  have hadd := hbatch.length_add
  have hfits := hbatch.fits
  have hcapacity := hshared.capacity_lt i
  have hweight := weight_le_extent Status.counted (g.tiles i)
  have hlength := hshared.length i
  rw [Nat.mod_eq_of_lt (by omega)] at hlength
  rcases hbatch.settled with htaken | hsettled
  · omega
  · have hfull : weight Status.counted (g.tiles i) = extent (g.tiles i) := by
      apply weight_eq_extent_of_all
      intro tile htile
      rw [hsettled tile htile]
      rfl
    omega

/-- The batch of the ledger lies in a range of cells. -/
structure Lies (s : State T B α σ) (g : Ledger T α) (range : Fin 2 × Nat × Nat) :
    Prop where
  other : range.1 ≠ g.enqueuing
  length : range.2.1 + g.batch.length = range.2.2
  spells : Spells s range.1 range.2.1 g.batch

theorem Lies.of_visible (hsim : Sim s g) {i : Fin 2} (hother : i ≠ g.enqueuing)
    (hvisible : ∀ tile ∈ g.tiles i, tile.tag.hidden = false)
    (hfits : extent (g.tiles i) ≤ Buffer.capacity (s.queue.buffers i))
    {start stop : Nat} (hstart : start = g.taken)
    (hstop : stop = extent (g.tiles i)) (hle : start ≤ stop) :
    Lies s g (i, start, stop) := by
  have hbatch := Ledger.batch_eq_of_visible hother hvisible
  refine ⟨hother, ?_, ?_⟩
  · change start + g.batch.length = stop
    rw [hbatch, List.length_drop, ← extent, ← hstart, ← hstop]
    exact Nat.add_sub_of_le hle
  · rw [hbatch, ← hstart]
    apply hsim.spells hfits
    rw [Ledger.lower, if_neg hother]
    exact le_of_eq hstart.symm

theorem Lies.of_nil {i : Fin 2} (hother : i ≠ g.enqueuing) (hbatch : g.batch = []) :
    Lies s g (i, 0, 0) := by
  refine ⟨hother, ?_, ?_⟩
  · rw [hbatch]
    rfl
  · rw [hbatch]
    exact spells_nil _ _ _

theorem Batch.lies (hsim : Sim s g) {i : Fin 2} {length : Nat}
    (hbatch : Batch s.queue g i length) : Lies s g
      (i, s.queue.buffersLength i - length,
        s.queue.buffersLength i - length + length) := by
  have hstart := hbatch.start_eq hsim.shared
  have hadd := hbatch.length_add
  refine Lies.of_visible hsim hbatch.other hbatch.visible hbatch.fits hstart ?_
    (Nat.le_add_right _ _)
  rw [hstart]
  omega

theorem Range.lies (hsim : Sim s g) {i : Fin 2} {start stop : Nat}
    (hrange : Range s.queue g i start stop) : Lies s g (i, start, stop) :=
  Lies.of_visible hsim hrange.other hrange.visible hrange.fits hrange.start_eq
    hrange.stop_eq hrange.le

theorem Swapped.lies (hsim : Sim s g) {attempt : Attempt} {capacity : Nat}
    {enqueuing : EnqueuingCapacity}
    (hswapped : Swapped s.queue g attempt capacity enqueuing) : Lies s g
      (enqueuing.bufferIndex, 0, capacity - enqueuing.remainingCapacity) := by
  have hadd := hswapped.extent_add
  have hcapacity := hswapped.capacity_eq
  refine Lies.of_visible hsim hswapped.other hswapped.visible (by omega)
    hswapped.taken.symm ?_ (Nat.zero_le _)
  omega

/-- The range of the holder's program counter is where the batch lies. -/
theorem Sim.lies_batchRange (hsim : Sim s g) {t : T} {range : Fin 2 × Nat × Nat}
    (hrange : (s.pcs t).batchRange s.queue = some range) : Lies s g range := by
  have hthread := hsim.thread t
  generalize s.pcs t = pc at hrange hthread
  cases pc with
  | dequeueResize _ _ =>
      cases hrange
      exact Lies.of_nil hthread.other (hthread.batch_eq_nil rfl)
  | dequeueInsert _ _ _ _ =>
      cases hrange
      exact Lies.of_nil hthread.other (hthread.batch_eq_nil rfl)
  | dequeuePublish _ =>
      cases hrange
      exact Lies.of_nil hthread.1.other (hthread.1.batch_eq_nil rfl)
  | dequeueLoad _ =>
      cases hrange
      exact Lies.of_nil hthread.1.other (hthread.1.batch_eq_nil rfl)
  | dequeueSwap _ _ _ _ =>
      cases hrange
      exact Lies.of_nil hthread.hidden.other (hthread.hidden.batch_eq_nil rfl)
  | dequeueLoadCapacity _ _ _ =>
      cases hrange
      exact hthread.lies hsim
  | dequeueStoreCapacity _ _ _ =>
      cases hrange
      exact hthread.lies hsim
  | dequeueNotify _ _ _ =>
      cases hrange
      exact hthread.lies hsim
  | dequeueSpin _ _ _ =>
      cases hrange
      exact hthread.1.lies hsim
  | dequeueSlice _ _ _ =>
      cases hrange
      exact hthread.lies hsim
  | slice _ _ _ _ =>
      cases hrange
      exact hthread.1.lies hsim
  | iter _ _ _ =>
      cases hrange
      exact hthread.lies hsim
  | releaseClear _ _ _ =>
      cases hrange
      exact hthread.lies hsim
  | releaseLength i =>
      cases hrange
      apply Lies.of_nil hthread.other
      rw [Ledger.batch_eq_of_visible hthread.other hthread.visible, ← hthread.start_eq,
        extent, List.drop_length]
  | storeDequeuing _ _ =>
      cases hrange
      exact hthread.batch.lies hsim
  | _ => cases hrange

theorem Sim.lies_of_undelivered (hsim : Sim s g) {range : Fin 2 × Nat × Nat}
    (hrange : Undelivered s range) : Lies s g range := by
  rcases hrange with ⟨hopen, rfl⟩ | ⟨t, hrange⟩
  · exact (hsim.stored hopen).batch.lies hsim
  · exact hsim.lies_batchRange hrange

theorem Sim.exists_undelivered (hsim : Sim s g)
    (hargs : ∀ t, ArgsOk s.queue (s.pcs t)) : ∃ range, Undelivered s range := by
  by_cases hlocked : s.queue.dequeuingLength = dequeuingLocked
  · obtain ⟨t, hholds⟩ := hsim.locked_iff.mp hlocked
    have hpc := hargs t
    suffices hsome : ∃ range, (s.pcs t).batchRange s.queue = some range by
      obtain ⟨range, hrange⟩ := hsome
      exact ⟨range, Or.inr ⟨t, hrange⟩⟩
    generalize s.pcs t = pc at hholds hpc
    cases pc with
    | panicked _ => exact hpc.elim
    | _ => first | exact ⟨_, rfl⟩ | cases hholds
  · exact ⟨_, Or.inl ⟨hlocked, rfl⟩⟩

/-- Where the batch and the values behind it lie. -/
structure Located (s : State T B α σ) (batch tail : List α) : Prop where
  range : ∃ range, Undelivered s range
  spells_batch (i : Fin 2) (first last : Nat) : Undelivered s (i, first, last) →
    i ≠ s.queue.enqueuingCapacity.bufferIndex ∧ first + batch.length = last ∧
      Spells s i first batch
  length_tail : tail.length + s.queue.enqueuingCapacity.remainingCapacity =
    Buffer.capacity (s.queue.buffers s.queue.enqueuingCapacity.bufferIndex)
  spells_tail : Spells s s.queue.enqueuingCapacity.bufferIndex 0 tail
  shows (t : T) (i : Fin 2) (first last : Nat) (slice : σ) :
    s.pcs t = .slice i first last slice → LawfulBuffer.Shows B slice batch

/-- The batch and the tail of the ledger are in the buffers. -/
theorem Sim.located (hsim : Sim s g) (hargs : ∀ t, ArgsOk s.queue (s.pcs t)) :
    Located s g.batch g.tail := by
  have hadd := hsim.shared.extent_add
  have hindex := hsim.shared.enqueuing
  refine ⟨hsim.exists_undelivered hargs, ?_, ?_, ?_, ?_⟩
  · intro i first last hundelivered
    have hlies := hsim.lies_of_undelivered hundelivered
    exact ⟨hindex ▸ hlies.other, hlies.length, hlies.spells⟩
  · rw [← hindex]
    exact hadd
  · rw [← hindex]
    have hspells := hsim.spells (Nat.le.intro hadd)
      (le_of_eq (show g.lower g.enqueuing = 0 from if_pos rfl))
    rwa [List.drop_zero] at hspells
  · intro t i first last slice hpc
    have hthread := hsim.thread t
    rw [hpc] at hthread
    obtain ⟨hrange, hshows⟩ := hthread
    rw [Ledger.batch_eq_of_visible hrange.other hrange.visible, ← hrange.start_eq]
    exact hshows

/-- A dequeue that finds the queue empty finds both buffers empty. -/
theorem Sim.tiles_of_foundEmpty (hsim : Sim s g) {t : T} {action : Action α}
    {q' : Queue B} {pc' : Pc α σ} {error : TryDequeueError}
    (hmove : Transition s.queue (s.pcs t) action q' pc' (.foundEmpty error)) (i : Fin 2) :
    g.tiles i = [] := by
  have hthread := hsim.thread t
  generalize s.pcs t = pc at hmove hthread
  cases hmove with
  | foundEmpty attempt spurious hindex hempty hresized hinserted =>
      by_cases hi : i = g.enqueuing
      · rw [hi]
        exact hsim.shared.enqueuing_eq_nil_iff.mpr hempty
      · have hi' : i = attempt.dequeuing.bufferIndex := by
          rw [eq_other_of_ne hi, eq_other_of_ne hthread.1.other]
        apply hsim.shared.tiles_eq_nil
        rw [hi', hthread.1.length_eq, hinserted]

end Ranges

variable [DecidableEq T] [LawfulBuffer B] {start s : State T B α σ}
  {trace : List ((T × Action α) × Event α)}

omit [LawfulBuffer B] in
theorem calls_of_delivery (hinitial : Initial start)
    (hrun : Runs.Run SwapBufferQueue.step DeliveryOk start trace s) :
    Runs.Run SwapBufferQueue.step CallsOk start trace s := by
  refine hrun.refine
    (fun hprefix => insertsNothing_of_run hinitial (fun _ _ h => h.nothing) hprefix) ?_
  rintro state ⟨t, action⟩ hnothing hlabel
  refine ⟨hlabel.size, hlabel.capacity, ?_, hlabel.owner⟩
  rintro ⟨dequeuing, resize⟩ hstaging
  have hinsert : resize.insert = [] := by
    have hpc := hnothing t
    change stagingStep (state.pcs t) action = some (dequeuing, resize) at hstaging
    generalize state.pcs t = pc at hpc hstaging
    cases pc with
    | dequeueResize _ _ =>
        cases action with
        | run _ =>
            cases hstaging
            exact hpc
        | _ => cases hstaging
    | _ => cases hstaging
  change resize.insert.flatten.length ≤ _
  rw [hinsert]
  exact Nat.zero_le _

theorem accepted_eq_reservedValues (hinitial : Initial start)
    (hrun : Runs.Run SwapBufferQueue.step DeliveryOk start trace s) :
    (Ledger.ofTrace trace).accepted = reservedValues trace := by
  refine hrun.invariant
    (fun trace _ => (Ledger.ofTrace trace).accepted = reservedValues trace) rfl ?_
  rintro trace state state' ⟨t, action⟩ event hprefix haccepted hlabel hstep
  have hsim := sim_of_run hinitial (fun _ _ h => h.size) hprefix
  have hnothing := insertsNothing_of_run hinitial (fun _ _ h => h.nothing) hprefix t
  rw [Ledger.ofTrace_append_singleton, reservedValues, List.filterMap_append]
  rw [reservedValues] at haccepted
  obtain ⟨q', pc', hmove, -⟩ := step_cases hstep
  have hthread := hsim.thread t
  generalize state.pcs t = pc at hmove hnothing hthread
  cases hmove with
  | swap attempt _ _ =>
      have hnil : (Ledger.ofTrace trace).tiles attempt.dequeuing.bufferIndex = [] :=
        hsim.shared.tiles_eq_nil (hthread.hidden.length_eq.trans hnothing)
      change (Ledger.ofTrace trace).accepted ++
        ((Ledger.ofTrace trace).tiles _).map Tile.elems = _
      rw [hnil, haccepted]
      rfl
  | reserve value next =>
      change (Ledger.ofTrace trace).accepted ++ [value] = _
      rw [haccepted]
      rfl
  | _ =>
      rw [← haccepted]
      exact (List.append_nil _).symm

/-- Exactly-once delivery in order.  The elements consumed so far, the undelivered
range of the dequeuing buffer and the cells below the reserved part of the enqueuing
buffer spell the values reserved so far, in the order of the reservations; a live
slice shows the undelivered elements. -/
theorem exactly_once_in_order (hinitial : Initial start)
    (hrun : Runs.Run SwapBufferQueue.step DeliveryOk start trace s) :
    ∃ batch tail : List α,
      consumedElements trace ++ batch ++ tail = (reservedValues trace).flatten ∧
      (∃ range, Undelivered s range) ∧
      (∀ i first last, Undelivered s (i, first, last) →
        i ≠ s.queue.enqueuingCapacity.bufferIndex ∧ first + batch.length = last ∧
          Spells s i first batch) ∧
      tail.length + s.queue.enqueuingCapacity.remainingCapacity =
        Buffer.capacity (s.queue.buffers s.queue.enqueuingCapacity.bufferIndex) ∧
      Spells s s.queue.enqueuingCapacity.bufferIndex 0 tail ∧
      ∀ t i first last slice, s.pcs t = .slice i first last slice →
        LawfulBuffer.Shows B slice batch := by
  have hsim := sim_of_run hinitial (fun _ _ h => h.size) hrun
  have hargs := argsOk_of_run hinitial (fun _ _ h => h) (calls_of_delivery hinitial hrun)
  have hlocated := hsim.located hargs
  refine ⟨(Ledger.ofTrace trace).batch, (Ledger.ofTrace trace).tail, ?_, hlocated.range,
    hlocated.spells_batch, hlocated.length_tail, hlocated.spells_tail, hlocated.shows⟩
  rw [← Ledger.consumed_ofTrace, ← accepted_eq_reservedValues hinitial hrun]
  exact hsim.shared.order

/-- Two enqueuers and an iterator that is dropped after its first element. -/
theorem exactly_once_in_order_partial_drain :
    ∃ (start : State Nat (VecBuffer Nat) Nat (List Nat)) (trace : _)
        (s : State Nat (VecBuffer Nat) Nat (List Nat)),
      Initial start ∧ Runs.Run SwapBufferQueue.step DeliveryOk start trace s ∧
      consumedElements trace = [7] ∧ reservedValues trace = [[7, 8], [9]] ∧
      ∃ batch tail : List Nat,
        consumedElements trace ++ batch ++ tail = (reservedValues trace).flatten ∧
        ∀ i first last, Undelivered s (i, first, last) → Spells s i first batch := by
  have hrun := Runs.run_of_isSome SwapBufferQueue.step DeliveryOk
    (State.ofQueue ((Queue.withCapacity 2).get (by decide +kernel)) :
      State Nat (VecBuffer Nat) Nat (List Nat))
    (List.flatten [[(0, .tryEnqueue [7, 8])], List.replicate 4 (0, .run false),
      [(2, .tryDequeue)], List.replicate 10 (2, .run false),
      [(1, .tryEnqueue [9]), (1, .run false), (1, .run false), (2, .intoIter),
        (2, .next), (2, .drop), (2, .run false)]])
    (by decide +kernel) (by decide +kernel)
  have hinitial := initial_withCapacity (T := Nat) (B := VecBuffer Nat)
    (show (Queue.withCapacity 2).isSome = true by decide +kernel)
  refine ⟨_, _, _, hinitial, hrun, by decide +kernel, by decide +kernel, ?_⟩
  obtain ⟨batch, tail, horder, -, hranges, -⟩ := exactly_once_in_order hinitial hrun
  exact ⟨batch, tail, horder, fun i first last h => (hranges i first last h).2.2⟩

end SwapBufferQueue
