/-
The relation between the machine and the ledger.  `Shared` ties the two packed
words, the two lengths and the cells of the two buffers to the tiles; `ThreadInv`
says what each program counter knows; `Sim` adds that the lock word is taken
exactly when one activity holds it.
-/
import SwapBufferQueue.Transitions
import SwapBufferQueue.Ledger

namespace SwapBufferQueue

universe u v w x

open Tiling

/-- The panics that an activity holding the dequeuing lock may cause with its
own arguments.  The simulation excludes every other one. -/
def Panic.fromArguments : Panic → Bool
  | .capacityOverflow => true
  | .stageOutOfBounds => true
  | .nextCapacityUnderflow => true
  | .foreignOwner => true
  | _ => false

/-- The activities that hold the dequeuing lock. -/
def Pc.holds {α : Type v} {σ : Type w} : Pc α σ → Bool
  | .idle _ => false
  | .enqueueLoad _ => false
  | .enqueueReserve _ _ _ => false
  | .enqueueInsert _ _ => false
  | .enqueueAcknowledge _ _ => false
  | .dequeueLock _ => false
  | _ => true

variable {T : Type x} {B : Type u} {α : Type v} {σ : Type w}

theorem enqueueCheck_holds (value : List α) (enqueuing : EnqueuingCapacity) :
    (enqueueCheck value enqueuing : Pc α σ).holds = false :=
  enqueueCheck_elim (P := fun pc => pc.holds = false) (fun _ => rfl) (fun _ _ => rfl)
    fun _ _ _ => rfl

theorem dequeueEntry_holds (dequeuing : DequeuingLength) (resize : ResizeArgs α) :
    (dequeueEntry dequeuing resize : Pc α σ).holds = true :=
  dequeueEntry_elim (P := fun pc => pc.holds = true) (fun _ => rfl) fun _ => rfl

theorem dequeueFinish_holds (attempt : Attempt) (capacity : Nat)
    (enqueuing : EnqueuingCapacity) :
    (dequeueFinish attempt capacity enqueuing : Pc α σ).holds = true :=
  dequeueFinish_elim (P := fun pc => pc.holds = true) (fun _ => rfl) (fun _ => rfl)
    (fun _ _ => dequeueEntry_holds _ _) (fun _ _ _ => rfl) fun _ _ _ => rfl

theorem requeueRange_holds (i : Fin 2) (start stop : Nat) :
    (requeueRange i start stop : Pc α σ).holds = true :=
  requeueRange_elim (P := fun pc => pc.holds = true) (fun _ => rfl) (fun _ => rfl)
    fun _ => rfl

variable [Buffer B α σ]

/-- A batch of the given remaining length, whose values may still be unacknowledged
as long as nothing was taken from it. -/
structure Batch (q : Queue B) (g : Ledger T α) (i : Fin 2) (length : Nat) : Prop where
  other : i ≠ g.enqueuing
  visible : ∀ tile ∈ g.tiles i, tile.tag.hidden = false
  length_add : length + g.taken = extent (g.tiles i)
  fits : extent (g.tiles i) ≤ Buffer.capacity (q.buffers i)
  settled : g.taken = 0 ∨ ∀ tile ∈ g.tiles i, tile.tag = .acknowledged

/-- A range of a batch that belongs to a slice or an iterator. -/
structure Range (q : Queue B) (g : Ledger T α) (i : Fin 2) (start stop : Nat) :
    Prop where
  other : i ≠ g.enqueuing
  settled : ∀ tile ∈ g.tiles i, tile.tag = .acknowledged
  start_eq : start = g.taken
  stop_eq : stop = extent (g.tiles i)
  le : start ≤ stop
  pos : 0 < stop
  fits : extent (g.tiles i) ≤ Buffer.capacity (q.buffers i)

/-- What an unlocked dequeuing word says. -/
structure Stored (q : Queue B) (g : Ledger T α) (dequeuing : DequeuingLength) :
    Prop where
  batch : Batch q g dequeuing.bufferIndex dequeuing.bufferLen
  vacant : dequeuing.bufferLen = 0 → g.taken = 0

/-- The hidden buffer of a locked queue, with the values staged in it. -/
structure Hidden (q : Queue B) (g : Ledger T α) (dequeuing : DequeuingLength)
    (tag : Status T) (length : Nat) : Prop where
  other : dequeuing.bufferIndex ≠ g.enqueuing
  vacant : dequeuing.bufferLen = 0
  taken : g.taken = 0
  tags : ∀ tile ∈ g.tiles dequeuing.bufferIndex, tile.tag = tag
  length_eq : extent (g.tiles dequeuing.bufferIndex) = length

/-- The words of an attempt that is about to swap. -/
structure Swapping (q : Queue B) (g : Ledger T α) (attempt : Attempt)
    (capacity : Nat) (nextEnqueuing enqueuing : EnqueuingCapacity) : Prop where
  hidden : Hidden q g attempt.dequeuing .published attempt.insertedLength
  nextCapa_eq : attempt.nextCapa =
    Buffer.capacity (q.buffers attempt.dequeuing.bufferIndex)
  inserted_le : attempt.insertedLength ≤ attempt.nextCapa
  next_index : nextEnqueuing.bufferIndex = attempt.dequeuing.bufferIndex
  next_remaining : nextEnqueuing.remainingCapacity =
    attempt.nextCapa - attempt.insertedLength
  next_open : nextEnqueuing.isClosed = false
  capacity_eq : capacity = Buffer.capacity (q.buffers g.enqueuing)
  index_eq : enqueuing.bufferIndex = g.enqueuing
  work : g.tiles g.enqueuing ≠ [] ∨ attempt.resized = true ∨
    0 < attempt.insertedLength

/-- What is known between the swap and the end of the attempt. -/
structure Swapped (q : Queue B) (g : Ledger T α) (attempt : Attempt)
    (capacity : Nat) (enqueuing : EnqueuingCapacity) : Prop where
  other : enqueuing.bufferIndex ≠ g.enqueuing
  visible : ∀ tile ∈ g.tiles enqueuing.bufferIndex, tile.tag.hidden = false
  taken : g.taken = 0
  capacity_eq : capacity = Buffer.capacity (q.buffers enqueuing.bufferIndex)
  extent_add : extent (g.tiles enqueuing.bufferIndex) +
    enqueuing.remainingCapacity = capacity
  work : g.tiles enqueuing.bufferIndex ≠ [] ∨ attempt.resized = true ∨
    0 < attempt.insertedLength

/-- What an activity leaves behind when it panics with the lock held. -/
structure Abandoned (g : Ledger T α) (panic : Panic) : Prop where
  cause : panic.fromArguments = true
  settled : g.taken = 0 ∨ ∀ tile ∈ g.tiles (other g.enqueuing), tile.tag = .acknowledged

/-- A reservation in flight: its value lies where the reserved word says. -/
structure InFlight (q : Queue B) (g : Ledger T α) (enqueuing : EnqueuingCapacity)
    (tile : Tile (Status T) α) : Prop where
  remaining_le : enqueuing.remainingCapacity ≤
    Buffer.capacity (q.buffers enqueuing.bufferIndex)
  fits : tile.elems.length ≤ enqueuing.remainingCapacity
  at_index : At (g.tiles enqueuing.bufferIndex)
    (Buffer.capacity (q.buffers enqueuing.bufferIndex) -
      enqueuing.remainingCapacity) tile

/-- The program counter of the owner of a tile. -/
def Owns (q : Queue B) (pc : Pc α σ) (i : Fin 2) (position : Nat) (t : T)
    (tile : Tile (Status T) α) : Prop :=
  ∃ enqueuing : EnqueuingCapacity, enqueuing.bufferIndex = i ∧
    position + enqueuing.remainingCapacity = Buffer.capacity (q.buffers i) ∧
    ((tile.tag = .reserved t ∧ pc = .enqueueInsert tile.elems enqueuing) ∨
      (tile.tag = .written t ∧ pc = .enqueueAcknowledge tile.elems enqueuing))

/-- The properties of a tag that progress of its value cannot break. -/
def Status.Stable (P : Status T → Prop) : Prop :=
  ∀ t, (P (.reserved t) → P (.written t)) ∧ (P (.written t) → P .acknowledged)

/-- A step seen from the dequeuing side: reservations arrive in the enqueuing
buffer and values make progress, but no batch changes its extent. -/
structure Quiet (q : Queue B) (g : Ledger T α) (q' : Queue B) (g' : Ledger T α) :
    Prop where
  enqueuing : g'.enqueuing = g.enqueuing
  taken : g'.taken = g.taken
  capacity (i : Fin 2) :
    Buffer.capacity (q'.buffers i) = Buffer.capacity (q.buffers i)
  contents_eq {i : Fin 2} : i ≠ g.enqueuing →
    contents (g'.tiles i) = contents (g.tiles i)
  tags {i : Fin 2} {P : Status T → Prop} : i ≠ g.enqueuing → Status.Stable P →
    (∀ tile ∈ g.tiles i, P tile.tag) → ∀ tile ∈ g'.tiles i, P tile.tag
  grows : g.tiles g.enqueuing ≠ [] → g'.tiles g.enqueuing ≠ []

section Quiet

variable {q q' : Queue B} {g g' : Ledger T α}

theorem stable_visible : Status.Stable fun tag : Status T => tag.hidden = false :=
  fun _ => ⟨fun _ => rfl, fun _ => rfl⟩

theorem stable_eq_acknowledged : Status.Stable fun tag : Status T => tag = .acknowledged :=
  fun _ => ⟨by simp, by simp⟩

theorem stable_eq_of_hidden {hidden : Status T} (hhidden : hidden.hidden = true) :
    Status.Stable fun tag => tag = hidden := by
  intro t
  constructor <;> rintro rfl <;> cases hhidden

theorem Quiet.extent_eq (hquiet : Quiet q g q' g') {i : Fin 2}
    (hne : i ≠ g.enqueuing) : extent (g'.tiles i) = extent (g.tiles i) := by
  rw [extent, hquiet.contents_eq hne, extent]

theorem Quiet.tiles_ne_nil (hquiet : Quiet q g q' g') {i : Fin 2}
    (hne : i ≠ g.enqueuing) (hpos : extent (g.tiles i) ≠ 0) : g'.tiles i ≠ [] := by
  intro hnil
  apply hpos
  rw [← hquiet.extent_eq hne, hnil, extent_nil]

theorem Quiet.refl (q : Queue B) (g : Ledger T α) : Quiet q g q g :=
  ⟨rfl, rfl, fun _ => rfl, fun _ => rfl, fun _ _ h => h, id⟩

/-- Progress of a value in flight is quiet. -/
theorem quiet_retag {i : Fin 2} {f : Status T → Status T}
    (hstable : ∀ {P : Status T → Prop}, Status.Stable P → ∀ tag, P tag → P (f tag))
    (hcapacity : ∀ j, Buffer.capacity (q'.buffers j) = Buffer.capacity (q.buffers j)) :
    Quiet q g q' (g.setTiles i (retag f (g.tiles i))) := by
  refine ⟨rfl, rfl, hcapacity, fun _ => Ledger.contents_retag_tiles g i _ f, ?_, ?_⟩
  · intro j P _ hP hall tile htile
    obtain ⟨position, hat⟩ := exists_at_of_mem htile
    obtain ⟨old, hold, rfl⟩ := Ledger.at_retag_tiles_iff.mp hat
    have hold := hall old hold.mem
    simp only
    split
    · exact hstable hP _ hold
    · exact hold
  · intro hne hnil
    apply hne
    rw [Ledger.tiles_setTiles] at hnil
    split at hnil
    · rename_i hi
      rw [hi]
      simpa [Tiling.retag] using hnil
    · exact hnil

theorem Quiet.of_buffers (q q' : Queue B) (hbuffers : q'.buffers = q.buffers) :
    Quiet q g q' g :=
  ⟨rfl, rfl, fun _ => by rw [hbuffers], fun _ => rfl, fun _ _ h => h, id⟩

theorem Range.visible {i : Fin 2} {start stop : Nat} (hrange : Range q g i start stop) :
    ∀ tile ∈ g.tiles i, tile.tag.hidden = false := by
  intro tile htile
  rw [hrange.settled tile htile]
  rfl

theorem Range.length_drop {i : Fin 2} {start stop : Nat}
    (hrange : Range q g i start stop) :
    start + ((contents (g.tiles i)).drop start).length = stop := by
  have hle := hrange.le
  rw [List.length_drop, ← extent, ← hrange.stop_eq]
  omega

theorem Range.capacity_pos {i : Fin 2} {start stop : Nat}
    (hrange : Range q g i start stop) : 0 < Buffer.capacity (q.buffers i) :=
  Nat.lt_of_lt_of_le hrange.pos (hrange.stop_eq ▸ hrange.fits)

theorem Batch.quiet (hquiet : Quiet q g q' g') {i : Fin 2} {length : Nat}
    (hbatch : Batch q g i length) : Batch q' g' i length where
  other := hquiet.enqueuing ▸ hbatch.other
  visible := hquiet.tags hbatch.other stable_visible hbatch.visible
  length_add := by
    rw [hquiet.taken, hquiet.extent_eq hbatch.other]
    exact hbatch.length_add
  fits := by
    rw [hquiet.capacity, hquiet.extent_eq hbatch.other]
    exact hbatch.fits
  settled := by
    rw [hquiet.taken]
    exact hbatch.settled.imp id
      (hquiet.tags hbatch.other stable_eq_acknowledged)

theorem Range.quiet (hquiet : Quiet q g q' g') {i : Fin 2} {start stop : Nat}
    (hrange : Range q g i start stop) : Range q' g' i start stop where
  other := hquiet.enqueuing ▸ hrange.other
  settled := hquiet.tags hrange.other stable_eq_acknowledged hrange.settled
  start_eq := hquiet.taken ▸ hrange.start_eq
  stop_eq := by
    rw [hquiet.extent_eq hrange.other]
    exact hrange.stop_eq
  le := hrange.le
  pos := hrange.pos
  fits := by
    rw [hquiet.capacity, hquiet.extent_eq hrange.other]
    exact hrange.fits

theorem Stored.quiet (hquiet : Quiet q g q' g') {dequeuing : DequeuingLength}
    (hstored : Stored q g dequeuing) : Stored q' g' dequeuing where
  batch := hstored.batch.quiet hquiet
  vacant := hquiet.taken ▸ hstored.vacant

theorem Hidden.quiet (hquiet : Quiet q g q' g') {dequeuing : DequeuingLength}
    {tag : Status T} (htag : tag.hidden = true) {length : Nat}
    (hhidden : Hidden q g dequeuing tag length) :
    Hidden q' g' dequeuing tag length where
  other := hquiet.enqueuing ▸ hhidden.other
  vacant := hhidden.vacant
  taken := hquiet.taken ▸ hhidden.taken
  tags := hquiet.tags hhidden.other (stable_eq_of_hidden htag) hhidden.tags
  length_eq := by
    rw [hquiet.extent_eq hhidden.other]
    exact hhidden.length_eq

theorem Swapping.quiet (hquiet : Quiet q g q' g') {attempt : Attempt}
    {capacity : Nat} {nextEnqueuing enqueuing : EnqueuingCapacity}
    (hswap : Swapping q g attempt capacity nextEnqueuing enqueuing) :
    Swapping q' g' attempt capacity nextEnqueuing enqueuing where
  hidden := hswap.hidden.quiet hquiet rfl
  nextCapa_eq := by
    rw [hquiet.capacity]
    exact hswap.nextCapa_eq
  inserted_le := hswap.inserted_le
  next_index := hswap.next_index
  next_remaining := hswap.next_remaining
  next_open := hswap.next_open
  capacity_eq := by
    rw [hquiet.capacity, hquiet.enqueuing]
    exact hswap.capacity_eq
  index_eq := by
    rw [hquiet.enqueuing]
    exact hswap.index_eq
  work := by
    rw [hquiet.enqueuing]
    exact hswap.work.imp hquiet.grows id

theorem Swapped.quiet (hquiet : Quiet q g q' g')
    (hnonempty : ∀ i, ∀ tile ∈ g.tiles i, tile.elems ≠ []) {attempt : Attempt}
    {capacity : Nat} {enqueuing : EnqueuingCapacity}
    (hswapped : Swapped q g attempt capacity enqueuing) :
    Swapped q' g' attempt capacity enqueuing where
  other := hquiet.enqueuing ▸ hswapped.other
  visible := hquiet.tags hswapped.other stable_visible hswapped.visible
  taken := hquiet.taken ▸ hswapped.taken
  capacity_eq := by
    rw [hquiet.capacity]
    exact hswapped.capacity_eq
  extent_add := by
    rw [hquiet.extent_eq hswapped.other]
    exact hswapped.extent_add
  work := by
    refine hswapped.work.imp (fun hne => ?_) id
    apply hquiet.tiles_ne_nil hswapped.other
    rwa [ne_eq, extent_eq_zero_iff (hnonempty _)]

theorem Abandoned.quiet (hquiet : Quiet q g q' g') {panic : Panic}
    (hleft : Abandoned g panic) : Abandoned g' panic where
  cause := hleft.cause
  settled := by
    rw [hquiet.taken, hquiet.enqueuing]
    exact hleft.settled.imp id (hquiet.tags (other_ne _) stable_eq_acknowledged)

theorem InFlight.keep {enqueuing : EnqueuingCapacity} {tile : Tile (Status T) α}
    (hflight : InFlight q g enqueuing tile)
    (hcapacity : Buffer.capacity (q'.buffers enqueuing.bufferIndex) =
      Buffer.capacity (q.buffers enqueuing.bufferIndex))
    (hat : ∀ {position}, At (g.tiles enqueuing.bufferIndex) position tile →
      At (g'.tiles enqueuing.bufferIndex) position tile) :
    InFlight q' g' enqueuing tile where
  remaining_le := by
    rw [hcapacity]
    exact hflight.remaining_le
  fits := hflight.fits
  at_index := by
    rw [hcapacity]
    exact hat hflight.at_index

theorem Owns.keep {pc : Pc α σ} {i : Fin 2} {position : Nat} {t : T}
    {tile : Tile (Status T) α} (howns : Owns q pc i position t tile)
    (hcapacity : Buffer.capacity (q'.buffers i) = Buffer.capacity (q.buffers i)) :
    Owns q' pc i position t tile := by
  obtain ⟨enqueuing, hindex, hposition, hpc⟩ := howns
  exact ⟨enqueuing, hindex, hcapacity ▸ hposition, hpc⟩

end Quiet

variable [LawfulBuffer B]

/-- What the queue and the ledger agree on. -/
structure Shared (q : Queue B) (g : Ledger T α) : Prop where
  enqueuing : g.enqueuing = q.enqueuingCapacity.bufferIndex
  closed : g.closed = q.enqueuingCapacity.isClosed
  capacity_lt (i : Fin 2) : Buffer.capacity (q.buffers i) < 2 ^ 62 - 1
  extent_add : extent (g.tiles g.enqueuing) + q.enqueuingCapacity.remainingCapacity =
    Buffer.capacity (q.buffers g.enqueuing)
  visible : ∀ tile ∈ g.tiles g.enqueuing, tile.tag.hidden = false
  nonempty (i : Fin 2) : ∀ tile ∈ g.tiles i, tile.elems ≠ []
  length (i : Fin 2) :
    q.buffersLength i = weight Status.counted (g.tiles i) % 2 ^ 64
  cells {i : Fin 2} {position : Nat} {tile : Tile (Status T) α} :
    At (g.tiles i) position tile → tile.tag.unwritten = false →
      extent (g.tiles i) ≤ Buffer.capacity (q.buffers i) →
        ∀ k, k < tile.elems.length → g.lower i ≤ position + k →
          LawfulBuffer.cell (q.buffers i) (position + k) = tile.elems[k]?
  order : g.consumed ++ g.batch ++ g.tail = g.accepted.flatten

/-- What a program counter knows about the queue. -/
def ThreadInv (q : Queue B) (g : Ledger T α) (t : T) : Pc α σ → Prop
  | .idle _ => True
  | .enqueueLoad value => value ≠ [] ∧ value.length < 2 ^ 63
  | .enqueueReserve value enqueuing next =>
      value ≠ [] ∧ value.length < 2 ^ 63 ∧ enqueuing.isClosed = false ∧
        enqueuing.tryReserve value.length = some next
  | .enqueueInsert value enqueuing => InFlight q g enqueuing ⟨.reserved t, value⟩
  | .enqueueAcknowledge value enqueuing => InFlight q g enqueuing ⟨.written t, value⟩
  | .dequeueLock _ => True
  | .dequeueResize dequeuing _ => Hidden q g dequeuing .staged 0
  | .dequeueInsert dequeuing _ _ length => Hidden q g dequeuing .staged length
  | .dequeuePublish attempt =>
      Hidden q g attempt.dequeuing .staged attempt.insertedLength ∧
        attempt.nextCapa = Buffer.capacity (q.buffers attempt.dequeuing.bufferIndex)
  | .dequeueLoad attempt =>
      Hidden q g attempt.dequeuing .published attempt.insertedLength ∧
        attempt.nextCapa = Buffer.capacity (q.buffers attempt.dequeuing.bufferIndex)
  | .dequeueSwap attempt capacity nextEnqueuing enqueuing =>
      Swapping q g attempt capacity nextEnqueuing enqueuing
  | .dequeueLoadCapacity attempt capacity enqueuing =>
      Swapped q g attempt capacity enqueuing
  | .dequeueStoreCapacity attempt capacity enqueuing =>
      Swapped q g attempt capacity enqueuing
  | .dequeueNotify attempt capacity enqueuing =>
      Swapped q g attempt capacity enqueuing
  | .dequeueSpin i length _ => Batch q g i length ∧ 0 < length
  | .dequeueSlice i start stop => Range q g i start stop
  | .slice i start stop slice =>
      Range q g i start stop ∧
        LawfulBuffer.Shows B slice ((contents (g.tiles i)).drop start)
  | .iter i start stop => Range q g i start stop
  | .releaseClear i start stop => Range q g i start stop
  | .releaseLength i => Range q g i (extent (g.tiles i)) (extent (g.tiles i))
  | .storeDequeuing dequeuing _ => Stored q g dequeuing
  | .panicked panic => Abandoned g panic

/-- The machine state and the ledger describe the same queue. -/
structure Sim (s : State T B α σ) (g : Ledger T α) : Prop where
  shared : Shared s.queue g
  thread (t : T) : ThreadInv s.queue g t (s.pcs t)
  owned {i : Fin 2} {position : Nat} {tile : Tile (Status T) α} {t : T} :
    At (g.tiles i) position tile → tile.tag.owner = some t →
      Owns s.queue (s.pcs t) i position t tile
  exclusive {t t' : T} :
    (s.pcs t).holds = true → (s.pcs t').holds = true → t = t'
  locked_iff : s.queue.dequeuingLength = dequeuingLocked ↔
    ∃ t, (s.pcs t).holds = true
  stored : s.queue.dequeuingLength ≠ dequeuingLocked →
    Stored s.queue g ⟨s.queue.dequeuingLength⟩

section Thread

variable {q q' : Queue B} {g g' : Ledger T α}

/-- A quiet step keeps what every other program counter knows, as long as the
tiles in flight of that activity stay where they are. -/
theorem ThreadInv.quiet (hquiet : Quiet q g q' g')
    (hnonempty : ∀ i, ∀ tile ∈ g.tiles i, tile.elems ≠ []) {t : T}
    (hflight : ∀ {enqueuing tile}, tile.tag.owner = some t →
      InFlight q g enqueuing tile → InFlight q' g' enqueuing tile)
    {pc : Pc α σ} (hpc : ThreadInv q g t pc) : ThreadInv q' g' t pc := by
  cases pc with
  | idle _ => exact hpc
  | enqueueLoad _ => exact hpc
  | enqueueReserve _ _ _ => exact hpc
  | enqueueInsert _ _ => exact hflight rfl hpc
  | enqueueAcknowledge _ _ => exact hflight rfl hpc
  | dequeueLock _ => exact hpc
  | dequeueResize _ _ => exact Hidden.quiet hquiet rfl hpc
  | dequeueInsert _ _ _ _ => exact Hidden.quiet hquiet rfl hpc
  | dequeuePublish _ =>
      exact ⟨hpc.1.quiet hquiet rfl, by rw [hquiet.capacity]; exact hpc.2⟩
  | dequeueLoad _ =>
      exact ⟨hpc.1.quiet hquiet rfl, by rw [hquiet.capacity]; exact hpc.2⟩
  | dequeueSwap _ _ _ _ => exact Swapping.quiet hquiet hpc
  | dequeueLoadCapacity _ _ _ => exact Swapped.quiet hquiet hnonempty hpc
  | dequeueStoreCapacity _ _ _ => exact Swapped.quiet hquiet hnonempty hpc
  | dequeueNotify _ _ _ => exact Swapped.quiet hquiet hnonempty hpc
  | dequeueSpin _ _ _ => exact ⟨hpc.1.quiet hquiet, hpc.2⟩
  | dequeueSlice _ _ _ => exact Range.quiet hquiet hpc
  | slice i _ _ _ =>
      exact ⟨hpc.1.quiet hquiet, by rw [hquiet.contents_eq hpc.1.other]; exact hpc.2⟩
  | iter _ _ _ => exact Range.quiet hquiet hpc
  | releaseClear _ _ _ => exact Range.quiet hquiet hpc
  | releaseLength i =>
      change Range q' g' i _ _
      rw [hquiet.extent_eq (Range.other hpc)]
      exact Range.quiet hquiet hpc
  | storeDequeuing _ _ => exact Stored.quiet hquiet hpc
  | panicked _ => exact Abandoned.quiet hquiet hpc

/-- An activity that does not hold the lock only knows about its own tile. -/
theorem ThreadInv.of_not_holds {t : T}
    (hflight : ∀ {enqueuing tile}, tile.tag.owner = some t →
      InFlight q g enqueuing tile → InFlight q' g' enqueuing tile)
    {pc : Pc α σ} (hholds : pc.holds = false) (hpc : ThreadInv q g t pc) :
    ThreadInv q' g' t pc := by
  cases pc with
  | idle _ => exact hpc
  | enqueueLoad _ => exact hpc
  | enqueueReserve _ _ _ => exact hpc
  | enqueueInsert _ _ => exact hflight rfl hpc
  | enqueueAcknowledge _ _ => exact hflight rfl hpc
  | dequeueLock _ => exact hpc
  | _ => cases hholds

end Thread

/-- How a step treats the lock: an activity without it makes a quiet step, the
holder keeps it, or it is taken or given back. -/
inductive LockMove (q : Queue B) (g : Ledger T α) (q' : Queue B) (g' : Ledger T α)
    (pc pc' : Pc α σ) : Prop
  | free (hpc : pc.holds = false) (hpc' : pc'.holds = false)
      (hword : q'.dequeuingLength = q.dequeuingLength) (hquiet : Quiet q g q' g')
  | held (hpc : pc.holds = true) (hpc' : pc'.holds = true)
      (hword : q'.dequeuingLength = q.dequeuingLength)
  | lock (hpc : pc.holds = false) (hpc' : pc'.holds = true)
      (hopen : q.dequeuingLength ≠ dequeuingLocked)
      (hword : q'.dequeuingLength = dequeuingLocked)
  | unlock (hpc : pc.holds = true) (hpc' : pc'.holds = false)
      (hword : q'.dequeuingLength ≠ dequeuingLocked)
      (hstored : Stored q' g' ⟨q'.dequeuingLength⟩)

section Frame

variable [DecidableEq T]

/-- Who holds the lock after a step: those who held it before, the activity that moved,
or nobody. -/
theorem LockMove.holders {s : State T B α σ} {g : Ledger T α} (hsim : Sim s g) {t : T}
    {q' : Queue B} {g' : Ledger T α} {pc' : Pc α σ}
    (hlock : LockMove s.queue g q' g' (s.pcs t) pc') :
    (q'.dequeuingLength = s.queue.dequeuingLength ∧
        ∀ t', (Function.update s.pcs t pc' t').holds = (s.pcs t').holds) ∨
      (q'.dequeuingLength = dequeuingLocked ∧
        ∀ t', (Function.update s.pcs t pc' t').holds = true ↔ t' = t) ∨
      (q'.dequeuingLength ≠ dequeuingLocked ∧
        ∀ t', (Function.update s.pcs t pc' t').holds = false) := by
  have hmine : (Function.update s.pcs t pc' t).holds = pc'.holds := by
    rw [Function.update_self]
  have hother : ∀ t', t' ≠ t →
      (Function.update s.pcs t pc' t').holds = (s.pcs t').holds := fun t' ht' => by
    rw [Function.update_of_ne ht']
  cases hlock with
  | free hpc hpc' hword _ =>
      refine Or.inl ⟨hword, fun t' => ?_⟩
      by_cases ht' : t' = t
      · rw [ht', hmine, hpc, hpc']
      · exact hother t' ht'
  | held hpc hpc' hword =>
      refine Or.inr (Or.inl ⟨?_, fun t' => ⟨fun hholds => ?_, fun ht' => ?_⟩⟩)
      · rw [hword, hsim.locked_iff]
        exact ⟨t, hpc⟩
      · by_contra ht'
        rw [hother t' ht'] at hholds
        exact ht' (hsim.exclusive hholds hpc)
      · rw [ht', hmine, hpc']
  | lock hpc hpc' hopen hword =>
      refine Or.inr (Or.inl ⟨hword, fun t' => ⟨fun hholds => ?_, fun ht' => ?_⟩⟩)
      · by_contra ht'
        rw [hother t' ht'] at hholds
        exact hopen (hsim.locked_iff.mpr ⟨t', hholds⟩)
      · rw [ht', hmine, hpc']
  | unlock hpc hpc' hword _ =>
      refine Or.inr (Or.inr ⟨hword, fun t' => ?_⟩)
      by_cases ht' : t' = t
      · rw [ht', hmine, hpc']
      · rw [hother t' ht']
        exact Bool.eq_false_iff.mpr fun hholds => ht' (hsim.exclusive hholds hpc)

/-- The simulation after a step of `t`, from what the step did to the queue, to
the tiles of `t` and to the lock.  The tiles of the others must not move. -/
theorem Sim.step_of {s : State T B α σ} {g : Ledger T α} (hsim : Sim s g) {t : T}
    {q' : Queue B} {g' : Ledger T α} {pc' : Pc α σ}
    (hshared : Shared q' g') (hself : ThreadInv q' g' t pc')
    (hothers : ∀ {t'}, t' ≠ t → ∀ {i position tile}, tile.tag.owner = some t' →
      ((At (g'.tiles i) position tile ↔ At (g.tiles i) position tile) ∧
        (At (g.tiles i) position tile →
          Buffer.capacity (q'.buffers i) = Buffer.capacity (s.queue.buffers i))))
    (hmine : ∀ {i position tile}, At (g'.tiles i) position tile →
      tile.tag.owner = some t → Owns q' pc' i position t tile)
    (hlock : LockMove s.queue g q' g' (s.pcs t) pc') :
    Sim (⟨q', Function.update s.pcs t pc'⟩ : State T B α σ) g' := by
  have hflight : ∀ {t'}, t' ≠ t → ∀ {enqueuing tile}, tile.tag.owner = some t' →
      InFlight s.queue g enqueuing tile → InFlight q' g' enqueuing tile := by
    intro t' ht' enqueuing tile hown hflight
    exact hflight.keep ((hothers ht' hown).2 hflight.at_index)
      fun hat => (hothers ht' hown).1.mpr hat
  have hother : ∀ {t'}, t' ≠ t →
      Function.update s.pcs t pc' t' = s.pcs t' :=
    fun ht' => Function.update_of_ne ht' _ _
  refine ⟨hshared, ?_, ?_, ?_, ?_, ?_⟩
  · intro t'
    by_cases ht' : t' = t
    · subst ht'
      simpa using hself
    · change ThreadInv q' g' t' (Function.update s.pcs t pc' t')
      rw [hother ht']
      cases hlock with
      | free _ _ _ hquiet =>
          exact (hsim.thread t').quiet hquiet hsim.shared.nonempty (hflight ht')
      | held hpc _ _ =>
          apply (hsim.thread t').of_not_holds (hflight ht')
          exact Bool.eq_false_iff.mpr fun hholds => ht' (hsim.exclusive hholds hpc)
      | lock _ _ hopen _ =>
          apply (hsim.thread t').of_not_holds (hflight ht')
          exact Bool.eq_false_iff.mpr fun hholds =>
            hopen (hsim.locked_iff.mpr ⟨t', hholds⟩)
      | unlock hpc _ _ _ =>
          apply (hsim.thread t').of_not_holds (hflight ht')
          exact Bool.eq_false_iff.mpr fun hholds => ht' (hsim.exclusive hholds hpc)
  · intro i position tile t' hat hown
    change Owns q' (Function.update s.pcs t pc' t') i position t' tile
    by_cases ht' : t' = t
    · subst ht'
      rw [Function.update_self]
      exact hmine hat hown
    · rw [hother ht']
      have hold := (hothers ht' hown).1.mp hat
      exact (hsim.owned hold hown).keep ((hothers ht' hown).2 hold)
  · intro t₁ t₂ h₁ h₂
    change (Function.update s.pcs t pc' t₁).holds = true at h₁
    change (Function.update s.pcs t pc' t₂).holds = true at h₂
    rcases hlock.holders hsim with ⟨-, hsame⟩ | ⟨-, hmover⟩ | ⟨-, hnobody⟩
    · rw [hsame] at h₁ h₂
      exact hsim.exclusive h₁ h₂
    · exact ((hmover t₁).mp h₁).trans ((hmover t₂).mp h₂).symm
    · rw [hnobody] at h₁
      cases h₁
  · change q'.dequeuingLength = dequeuingLocked ↔
      ∃ t', (Function.update s.pcs t pc' t').holds = true
    rcases hlock.holders hsim with ⟨hword, hsame⟩ | ⟨hword, hmover⟩ | ⟨hword, hnobody⟩
    · simp only [hsame, hword]
      exact hsim.locked_iff
    · exact ⟨fun _ => ⟨t, (hmover t).mpr rfl⟩, fun _ => hword⟩
    · simp only [hnobody, hword, Bool.false_eq_true, exists_false]
  · intro hopen
    change q'.dequeuingLength ≠ dequeuingLocked at hopen
    change Stored q' g' ⟨q'.dequeuingLength⟩
    cases hlock with
    | free _ _ hword hquiet =>
        rw [hword] at hopen ⊢
        exact (hsim.stored hopen).quiet hquiet
    | held hpc _ hword =>
        rw [hword] at hopen
        exact (hopen (hsim.locked_iff.mpr ⟨t, hpc⟩)).elim
    | lock _ _ _ hword => exact (hopen hword).elim
    | unlock _ _ _ hstored => exact hstored

end Frame

end SwapBufferQueue
