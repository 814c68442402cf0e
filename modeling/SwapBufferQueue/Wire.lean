/-
The byte recipe of the `write` module.  A consumer puts the length of a dequeued slice into
its two-byte header, writes the frame, and drops the slice; when the write fails it requeues
the slice instead.  What a reader of the stream gets are the bytes that were enqueued, in
order and cut into the batches.
-/
import SwapBufferQueue.ByteQueue
import SwapBufferQueue.Lib.Framing

namespace SwapBufferQueue

universe x

open Tiling

/-- `(slice.len() as u16).to_be_bytes()`, and how it is read. -/
def u16Header : Framing.Header UInt8 where
  size := 2
  pos := Nat.zero_lt_two
  put length := [UInt8.ofNat (length % 2 ^ 16 / 2 ^ 8), UInt8.ofNat (length % 2 ^ 8)]
  get
    | [high, low] => high.toNat * 2 ^ 8 + low.toNat
    | _ => 0
  length_put _ := rfl

/-- A two-byte header tells the lengths below `2 ^ 16`. -/
theorem u16Header_tells_iff (length : Nat) : u16Header.Tells length ↔ length < 2 ^ 16 := by
  have hget : u16Header.get (u16Header.put length) = length % 2 ^ 16 := by
    change (UInt8.ofNat (length % 2 ^ 16 / 2 ^ 8)).toNat * 2 ^ 8 +
      (UInt8.ofNat (length % 2 ^ 8)).toNat = _
    rw [UInt8.toNat_ofNat', UInt8.toNat_ofNat']
    omega
  rw [Framing.Header.Tells, hget]
  omega

/-- The consumer writes into its header, or flushes the slice: length, frame and drop. -/
inductive WireAction where
  | queue (action : Action UInt8)
  | writeHeader (header : List UInt8)
  | flush
deriving Repr, DecidableEq

inductive WireEvent where
  | shown (event : Event UInt8)
  | headerWritten
  | flushed (frame : List UInt8)
deriving Repr, DecidableEq

section Steps

variable {T : Type x} {B : Type} [DecidableEq T] [Buffer B UInt8 (BytesSlice 2 0)]
  [FramedBuffer B]

/-- The slice borrows the bytes of its buffer. -/
def State.writeSlice (s : State T B UInt8 (BytesSlice 2 0)) (t : T) (i : Fin 2) (start : Nat)
    (slice : BytesSlice 2 0) (pc : Pc UInt8 (BytesSlice 2 0)) :
    State T B UInt8 (BytesSlice 2 0) :=
  ⟨s.queue.setBuffer i (FramedBuffer.restore (s.queue.buffers i) start slice),
    Function.update s.pcs t pc⟩

theorem traced_writeSlice (s : State T B UInt8 (BytesSlice 2 0)) (t : T) (i : Fin 2)
    (start : Nat) (slice : BytesSlice 2 0) (pc : Pc UInt8 (BytesSlice 2 0)) :
    (s.writeSlice t i start slice pc).traced =
      ⟨s.traced.queue.setBuffer i ⟨FramedBuffer.restore (s.queue.buffers i) start slice⟩,
        Function.update s.traced.pcs t pc⟩ := by
  rw [State.traced, State.writeSlice, Queue.traced_setBuffer]
  rfl

def wireStep (s : State T B UInt8 (BytesSlice 2 0)) (label : T × WireAction) :
    Option (State T B UInt8 (BytesSlice 2 0) × WireEvent) :=
  match label.2 with
  | .queue action =>
      match step s (label.1, action) with
      | none => none
      | some (s', event) => some (s', .shown event)
  | .writeHeader header =>
      match s.pcs label.1 with
      | .slice i start stop slice =>
          match slice.writeHeader header with
          | none => none
          | some slice' => some (s.writeSlice label.1 i start slice'
              (.slice i start stop slice'), .headerWritten)
      | _ => none
  | .flush =>
      match s.pcs label.1 with
      | .slice i start stop slice =>
          match slice.deref with
          | none => none
          | some payload =>
              match slice.writeHeader (u16Header.put payload.length) with
              | none => none
              | some slice' => some (s.writeSlice label.1 i start slice'
                  (.releaseClear i start stop), .flushed slice'.frame)
      | _ => none

inductive WireMove (s : State T B UInt8 (BytesSlice 2 0)) (t : T) :
    WireAction → State T B UInt8 (BytesSlice 2 0) → WireEvent → Prop
  | queue {action : Action UInt8} {s' : State T B UInt8 (BytesSlice 2 0)}
      {event : Event UInt8} (hstep : step s (t, action) = some (s', event)) :
      WireMove s t (.queue action) s' (.shown event)
  | writeHeader {header : List UInt8} {i : Fin 2} {start stop : Nat}
      {slice slice' : BytesSlice 2 0} (hpc : s.pcs t = .slice i start stop slice)
      (hwrite : slice.writeHeader header = some slice') :
      WireMove s t (.writeHeader header)
        (s.writeSlice t i start slice' (.slice i start stop slice')) .headerWritten
  | flush {i : Fin 2} {start stop : Nat} {slice slice' : BytesSlice 2 0}
      {payload : List UInt8} (hpc : s.pcs t = .slice i start stop slice)
      (hderef : slice.deref = some payload)
      (hwrite : slice.writeHeader (u16Header.put payload.length) = some slice') :
      WireMove s t .flush (s.writeSlice t i start slice' (.releaseClear i start stop))
        (.flushed slice'.frame)

theorem wireStep_cases {s s' : State T B UInt8 (BytesSlice 2 0)} {t : T}
    {action : WireAction} {event : WireEvent}
    (hstep : wireStep s (t, action) = some (s', event)) : WireMove s t action s' event := by
  cases action with
  | queue action =>
      simp only [wireStep] at hstep
      split at hstep
      · cases hstep
      · rename_i hbase
        cases hstep
        exact .queue hbase
  | writeHeader header =>
      simp only [wireStep] at hstep
      split at hstep
      · rename_i hpc
        split at hstep
        · cases hstep
        · rename_i hwrite
          cases hstep
          exact .writeHeader hpc hwrite
      · cases hstep
  | flush =>
      simp only [wireStep] at hstep
      split at hstep
      · rename_i hpc
        split at hstep
        · cases hstep
        · rename_i hderef
          split at hstep
          · cases hstep
          · rename_i hwrite
            cases hstep
            exact .flush hpc hderef hwrite
      · cases hstep

end Steps

section Traces

variable {T : Type x}

def byteTrace (trace : List ((T × WireAction) × WireEvent)) :
    List ((T × Action UInt8) × Event UInt8) :=
  trace.filterMap fun entry =>
    match entry.1.2, entry.2 with
    | .queue action, .shown event => some ((entry.1.1, action), event)
    | _, _ => none

def flushedFrames (trace : List ((T × WireAction) × WireEvent)) : List (List UInt8) :=
  trace.filterMap fun entry =>
    match entry.2 with
    | .flushed frame => some frame
    | _ => none

def flushedPayloads (trace : List ((T × WireAction) × WireEvent)) : List (List UInt8) :=
  (flushedFrames trace).map (List.drop 2)

def wire (trace : List ((T × WireAction) × WireEvent)) : List UInt8 :=
  (flushedFrames trace).flatten

/-- What one more entry adds to the frames. -/
def WireEvent.frames : WireEvent → List (List UInt8)
  | .flushed frame => [frame]
  | _ => []

theorem flushedFrames_append (trace : List ((T × WireAction) × WireEvent))
    (label : T × WireAction) (event : WireEvent) :
    flushedFrames (trace ++ [(label, event)]) = flushedFrames trace ++ event.frames := by
  rw [flushedFrames, List.filterMap_append]
  cases event with
  | _ => rfl

theorem flushedPayloads_append (trace : List ((T × WireAction) × WireEvent))
    (label : T × WireAction) (event : WireEvent) :
    flushedPayloads (trace ++ [(label, event)]) =
      flushedPayloads trace ++ event.frames.map (List.drop 2) := by
  rw [flushedPayloads, flushedFrames_append, List.map_append]
  rfl

theorem flushed_append_of_quiet (trace : List ((T × WireAction) × WireEvent))
    (label : T × WireAction) {event : WireEvent} (hquiet : event.frames = []) :
    flushedFrames (trace ++ [(label, event)]) = flushedFrames trace ∧
      flushedPayloads (trace ++ [(label, event)]) = flushedPayloads trace := by
  constructor
  · rw [flushedFrames_append, hquiet, List.append_nil]
  · rw [flushedPayloads_append, hquiet, List.map_nil, List.append_nil]

/-- A slice of bytes is flushed or requeued, and a resizing call inserts nothing and does
not pass the limit. -/
structure BytesOk {B : Type} (limit : Nat) (s : State T B UInt8 (BytesSlice 2 0))
    (label : T × Action UInt8) : Prop where
  delivery : DeliveryOk s label
  no_drop : label.2 ≠ .drop
  no_iter : label.2 ≠ .intoIter
  resize_le : ∀ resize ∈ label.2.resize?, ∀ capa ∈ resize.capacity, capa ≤ limit

def WireOk {B : Type} (limit : Nat) (s : State T B UInt8 (BytesSlice 2 0))
    (label : T × WireAction) : Prop :=
  match label.2 with
  | .queue action => BytesOk limit s (label.1, action)
  | _ => True

instance instDecidableBytesOk {B : Type} (limit : Nat)
    (s : State T B UInt8 (BytesSlice 2 0)) (label : T × Action UInt8) :
    Decidable (BytesOk limit s label) :=
  decidable_of_iff (DeliveryOk s label ∧ label.2 ≠ .drop ∧ label.2 ≠ .intoIter ∧
      ∀ resize ∈ label.2.resize?, ∀ capa ∈ resize.capacity, capa ≤ limit)
    ⟨fun ⟨delivery, no_drop, no_iter, resize_le⟩ => ⟨delivery, no_drop, no_iter, resize_le⟩,
      fun ⟨delivery, no_drop, no_iter, resize_le⟩ => ⟨delivery, no_drop, no_iter, resize_le⟩⟩

instance instDecidableWireOk {B : Type} (limit : Nat)
    (s : State T B UInt8 (BytesSlice 2 0)) (label : T × WireAction) :
    Decidable (WireOk limit s label) :=
  match label with
  | (t, .queue action) => inferInstanceAs (Decidable (BytesOk limit s (t, action)))
  | (_, .writeHeader _) => isTrue trivial
  | (_, .flush) => isTrue trivial

end Traces

section Plain

variable {limit : Nat}

/-- Bytes are not drained, and what is asked for is within the limit. -/
def Pc.Plain (limit : Nat) : Pc UInt8 (BytesSlice 2 0) → Prop
  | .dequeueLock resize => ∀ capa ∈ resize.capacity, capa ≤ limit
  | .dequeueResize _ resize => ∀ capa ∈ resize.capacity, capa ≤ limit
  | .iter _ _ _ => False
  | _ => True

theorem plain_enqueueCheck (value : List UInt8) (enqueuing : EnqueuingCapacity) :
    (enqueueCheck value enqueuing : Pc UInt8 (BytesSlice 2 0)).Plain limit :=
  enqueueCheck_elim (P := Pc.Plain limit) (fun _ => trivial) (fun _ _ => trivial)
    fun _ _ _ => trivial

theorem plain_dequeueEntry (dequeuing : DequeuingLength) {resize : ResizeArgs UInt8}
    (hresize : ∀ capa ∈ resize.capacity, capa ≤ limit) :
    (dequeueEntry dequeuing resize : Pc UInt8 (BytesSlice 2 0)).Plain limit :=
  dequeueEntry_elim (P := Pc.Plain limit) (fun _ => hresize) fun _ => trivial

theorem plain_dequeueFinish (attempt : Attempt) (capacity : Nat)
    (enqueuing : EnqueuingCapacity) :
    (dequeueFinish attempt capacity enqueuing : Pc UInt8 (BytesSlice 2 0)).Plain limit :=
  dequeueFinish_elim (P := Pc.Plain limit) (fun _ => trivial) (fun _ => trivial)
    (fun _ _ => plain_dequeueEntry _ (by rintro _ ⟨⟩)) (fun _ _ _ => trivial)
    fun _ _ _ => trivial

theorem plain_requeueRange (i : Fin 2) (start stop : Nat) :
    (requeueRange i start stop : Pc UInt8 (BytesSlice 2 0)).Plain limit :=
  requeueRange_elim (P := Pc.Plain limit) (fun _ => trivial) (fun _ => trivial)
    fun _ => trivial

variable {B : Type} [Buffer B UInt8 (BytesSlice 2 0)] {q q' : Queue B}
  {pc pc' : Pc UInt8 (BytesSlice 2 0)} {action : Action UInt8} {event : Event UInt8}

theorem Local.plain (hmove : Local q pc action pc') (hpc : pc.Plain limit)
    (hiter : action ≠ .intoIter)
    (hlabel : ∀ resize ∈ action.resize?, ∀ capa ∈ resize.capacity, capa ≤ limit) :
    pc'.Plain limit := by
  cases hmove with
  | enqueueLoad _ _ => exact plain_enqueueCheck _ _
  | enqueueRetry _ _ _ _ => exact plain_enqueueCheck _ _
  | tryDequeue _ =>
      rintro _ ⟨⟩
  | tryDequeueAndResize _ resize => exact hlabel resize rfl
  | dequeueNotify _ _ _ _ => exact plain_dequeueFinish _ _ _
  | dropIter _ _ _ => exact hpc.elim
  | requeue _ _ _ _ => exact plain_requeueRange _ _ _
  | intoIter _ _ _ _ => exact absurd rfl hiter
  | nextNone _ _ _ _ => exact hpc.elim
  | withOwned _ _ _ => exact hpc.elim
  | _ => exact trivial

theorem Transition.plain (hmove : Transition q pc action q' pc' event)
    (hpc : pc.Plain limit) (hiter : action ≠ .intoIter)
    (hlabel : ∀ resize ∈ action.resize?, ∀ capa ∈ resize.capacity, capa ≤ limit) :
    pc'.Plain limit := by
  cases hmove with
  | silent hlocal => exact hlocal.plain hpc hiter hlabel
  | lock _ _ _ => exact plain_dequeueEntry _ hpc
  | remove _ _ _ _ _ _ _ => exact hpc.elim
  | _ => exact trivial

variable [FramedBuffer B] [LawfulFramedBuffer B]

theorem Transition.capacity_le {q q' : Queue (Traced B)}
    (hmove : Transition q pc action q' pc' event) (hpc : pc.Plain limit)
    (hcapacity : ∀ i, Buffer.capacity (q.buffers i) ≤ limit) (i : Fin 2) :
    Buffer.capacity (q'.buffers i) ≤ limit := by
  have hset : ∀ {j : Fin 2} {b : Traced B}, Buffer.capacity b ≤ limit →
      Buffer.capacity ((q.setBuffer j b).buffers i) ≤ limit := by
    intro j b hb
    rw [Queue.buffers_setBuffer]
    split
    · exact hb
    · exact hcapacity i
  cases hmove with
  | insert _ _ _ b hinsert =>
      exact hset (LawfulBuffer.capacity_insertInto hinsert ▸ hcapacity _)
  | resize _ resize _ capa b hcapa _ _ hresize =>
      exact hset ((LawfulBuffer.capacity_resize hresize).trans_le (hpc capa hcapa))
  | stage _ _ _ _ _ _ b _ _ hinsert =>
      exact hset (LawfulBuffer.capacity_insertInto hinsert ▸ hcapacity _)
  | remove _ _ _ _ _ _ _ => exact hpc.elim
  | clear _ _ _ _ _ b hclear =>
      cases hclear
      exact hset (hcapacity _)
  | _ => exact hcapacity i

end Plain

section Delivered

universe u v w

variable {T : Type x} {B : Type u} {α : Type v} {σ : Type w} [Buffer B α σ]

def Pc.clearing : Pc α σ → Bool
  | .releaseClear _ _ _ => true
  | _ => false

theorem Pc.holds_of_clearing {pc : Pc α σ} (hclearing : pc.clearing = true) :
    pc.holds = true := by
  cases pc with
  | releaseClear _ _ _ => rfl
  | _ => cases hclearing

theorem clearing_enqueueCheck (value : List α) (enqueuing : EnqueuingCapacity) :
    (enqueueCheck value enqueuing : Pc α σ).clearing = false :=
  enqueueCheck_elim (P := fun pc => pc.clearing = false) (fun _ => rfl) (fun _ _ => rfl)
    fun _ _ _ => rfl

theorem clearing_dequeueEntry (dequeuing : DequeuingLength) (resize : ResizeArgs α) :
    (dequeueEntry dequeuing resize : Pc α σ).clearing = false :=
  dequeueEntry_elim (P := fun pc => pc.clearing = false) (fun _ => rfl) fun _ => rfl

theorem clearing_dequeueFinish (attempt : Attempt) (capacity : Nat)
    (enqueuing : EnqueuingCapacity) :
    (dequeueFinish attempt capacity enqueuing : Pc α σ).clearing = false :=
  dequeueFinish_elim (P := fun pc => pc.clearing = false) (fun _ => rfl) (fun _ => rfl)
    (fun _ _ => clearing_dequeueEntry _ _) (fun _ _ _ => rfl) fun _ _ _ => rfl

variable {q q' : Queue B} {pc pc' : Pc α σ} {action : Action α} {event : Event α}

/-- How a step that is no drop comes to clear a range: a slice is requeued, and there is
nothing in it. -/
theorem Transition.clearing_cases (hmove : Transition q pc action q' pc' event)
    (hdrop : action ≠ .drop) (hclearing : pc'.clearing = true) :
    ∃ i start stop slice, pc = .slice i start stop slice ∧ event = .silent ∧
      stop ≤ start := by
  cases hmove with
  | silent hlocal =>
      cases hlocal with
      | dropSlice _ _ _ _ => exact absurd rfl hdrop
      | dropIter _ _ _ => exact absurd rfl hdrop
      | requeue i start stop slice =>
          refine ⟨i, start, stop, slice, rfl, rfl, Nat.le_of_not_lt fun hlt => ?_⟩
          rw [requeueRange, if_neg (by omega), if_pos hlt] at hclearing
          cases hclearing
      | enqueueLoad _ _ =>
          rw [clearing_enqueueCheck] at hclearing
          cases hclearing
      | enqueueRetry _ _ _ _ =>
          rw [clearing_enqueueCheck] at hclearing
          cases hclearing
      | dequeueNotify _ _ _ _ =>
          rw [clearing_dequeueFinish] at hclearing
          cases hclearing
      | _ => cases hclearing
  | lock _ _ _ =>
      rw [clearing_dequeueEntry] at hclearing
      cases hclearing
  | _ => cases hclearing

theorem Event.Traces.added_eq {event event' : Event UInt8} (htraces : event.Traces event') :
    event'.added = event.added := by
  rcases htraces with rfl | ⟨i, values, rfl, rfl⟩
  · rfl
  · rfl

/-- What was written when its cells are given up afterwards: the elements consumed, and the
batch as long as it is about to be cleared. -/
structure Delivered (s : State T B α σ) (g : Ledger T α) (elements : List α) : Prop where
  clearing : ∀ t, (s.pcs t).clearing = true → elements = g.consumed ++ g.batch
  settled : (∀ t, (s.pcs t).clearing = false) → elements = g.consumed

variable [LawfulBuffer B] [DecidableEq T] {s : State T B α σ} {g : Ledger T α} {t : T}
  {elements : List α}

omit [Buffer B α σ] [LawfulBuffer B] in
theorem update_clearing (q : Queue B) (pcs : T → Pc α σ) (t t' : T) (pc : Pc α σ) :
    ((⟨q, Function.update pcs t pc⟩ : State T B α σ).pcs t').clearing =
      if t' = t then pc.clearing else (pcs t').clearing := by
  change (Function.update pcs t pc t').clearing = _
  by_cases ht' : t' = t
  · rw [if_pos ht', ht', Function.update_self]
  · rw [if_neg ht', Function.update_of_ne ht']

theorem Sim.accepted_step (hsim : Sim s g) (hnothing : (s.pcs t).InsertsNothing)
    (hmove : Transition s.queue (s.pcs t) action q' pc' event) :
    (g.next t event).accepted.flatten = g.accepted.flatten ++ event.added := by
  have hthread := hsim.thread t
  generalize s.pcs t = pc at hmove hnothing hthread
  cases hmove with
  | swap attempt _ _ =>
      have hnil : g.tiles attempt.dequeuing.bufferIndex = [] :=
        hsim.shared.tiles_eq_nil (hthread.hidden.length_eq.trans hnothing)
      change (g.accepted ++ (g.tiles _).map Tile.elems).flatten = _
      rw [hnil, List.map_nil, List.append_nil]
      exact (List.append_nil _).symm
  | reserve value _ =>
      change (g.accepted ++ [value]).flatten = _
      rw [List.flatten_append]
      exact congrArg (g.accepted.flatten ++ ·) (List.append_nil _)
  | _ => exact (List.append_nil _).symm

theorem Delivered.step (hdelivered : Delivered s g elements) (hsim : Sim s g)
    (hmove : Transition s.queue (s.pcs t) action q' pc' event)
    (hsim' : Sim (⟨q', Function.update s.pcs t pc'⟩ : State T B α σ) (g.next t event))
    (hdrop : action ≠ .drop) (hiter : ∀ i start stop, s.pcs t ≠ .iter i start stop) :
    Delivered (⟨q', Function.update s.pcs t pc'⟩ : State T B α σ) (g.next t event)
      elements := by
  have hbatch := hsim.batchMove hmove hsim'.shared
  -- While the activity has the lock, no other one clears.
  have halone : (s.pcs t).holds = true → ∀ t', t' ≠ t → (s.pcs t').clearing = false := by
    intro hholds t' ht'
    by_contra hclearing
    exact ht' (hsim.exclusive (Pc.holds_of_clearing (Bool.not_eq_false _ ▸ hclearing)) hholds)
  have hself := hsim'.self
  by_cases hpc : (s.pcs t).clearing = true
  · -- The batch is cleared.
    have hwritten := hdelivered.clearing t hpc
    have hothers := halone (Pc.holds_of_clearing hpc)
    generalize s.pcs t = pc at hmove hpc
    cases hmove with
    | silent hlocal =>
        cases hlocal with
        | clearOutOfBounds _ _ _ _ _ => cases hself.cause
        | _ => cases hpc
    | clear i start stop spurious values b hclear =>
        have hrange : Range (s.queue.setBuffer i b) (g.next t (.consumed i values)) i
          (extent (g.tiles i)) (extent (g.tiles i)) := hself
        have hnil : (g.next t (.consumed i values)).batch = [] := by
          rw [hrange.batch_eq]
          exact List.drop_length
        cases hbatch with
        | keeps _ hconsume _ _ _ => exact absurd rfl (hconsume i values)
        | consumes _ _ hfront _ _ =>
            refine ⟨fun t' ht' => ?_, fun _ => ?_⟩
            · rw [update_clearing] at ht'
              split at ht'
              · cases ht'
              · rename_i hne
                rw [hothers t' hne] at ht'
                cases ht'
            · rw [hwritten, hfront, hnil, List.append_nil]
              rfl
    | _ => cases hpc
  · have hidle := Bool.eq_false_iff.mpr hpc
    by_cases hpc' : pc'.clearing = true
    · -- An empty range is requeued.
      obtain ⟨i, start, stop, slice, hslice, rfl, hle⟩ := hmove.clearing_cases hdrop hpc'
      have hrange : Range s.queue g i start stop := by
        have hthread := hsim.thread t
        rw [hslice] at hthread
        exact hthread.1
      have hnil : g.batch = [] := by
        have hstop := hrange.stop_eq
        rw [extent] at hstop
        rw [hrange.batch_eq]
        exact List.drop_of_length_le (by omega)
      have hothers := halone (by rw [hslice]; rfl)
      have hwritten : elements = g.consumed := by
        refine hdelivered.settled fun t' => ?_
        by_cases ht' : t' = t
        · rw [ht']
          exact hidle
        · exact hothers t' ht'
      refine ⟨fun _ _ => ?_, fun _ => hwritten⟩
      change elements = g.consumed ++ g.batch
      rw [hnil, List.append_nil]
      exact hwritten
    · have hidle' := Bool.eq_false_iff.mpr hpc'
      have hquiet : ∀ i values, event ≠ .consumed i values := by
        rintro i values rfl
        generalize s.pcs t = pc at hmove hpc hiter
        cases hmove with
        | remove _ _ _ _ _ _ _ => exact hiter _ _ _ rfl
        | clear _ _ _ _ _ _ _ => exact hpc rfl
      have hconsumed : (g.next t event).consumed = g.consumed := by
        cases event with
        | consumed i values => exact absurd rfl (hquiet i values)
        | _ => rfl
      refine ⟨fun t' ht' => ?_, fun hnone => ?_⟩
      · rw [update_clearing] at ht'
        split at ht'
        · exact absurd ht' hpc'
        · rename_i hne
          have hsame : (g.next t event).batch = g.batch := by
            cases hbatch with
            | keeps _ _ hsame _ _ => exact hsame
            | consumes i values _ _ _ => exact absurd rfl (hquiet i values)
            | swaps i _ _ _ =>
                have hholds : (s.pcs t).holds = true := by
                  generalize s.pcs t = pc at hmove
                  cases hmove
                  rfl
                rw [halone hholds t' hne] at ht'
                cases ht'
            | releases _ hnil hnil' => rw [hnil, hnil']
          rw [hconsumed, hsame]
          exact hdelivered.clearing t' ht'
      · rw [hconsumed]
        refine hdelivered.settled fun t' => ?_
        by_cases ht' : t' = t
        · rw [ht']
          exact hidle
        · have hother := hnone t'
          rw [update_clearing, if_neg ht'] at hother
          exact hother

omit [DecidableEq T] in
theorem Delivered.of_slice (hdelivered : Delivered s g elements) (hsim : Sim s g)
    {i : Fin 2} {start stop : Nat} {slice : σ} (hpc : s.pcs t = .slice i start stop slice) :
    elements = g.consumed := by
  refine hdelivered.settled fun t' => ?_
  by_contra hclearing
  have hclearing' : (s.pcs t').clearing = true := (Bool.not_eq_false _).mp hclearing
  have hsame := hsim.exclusive (Pc.holds_of_clearing hclearing')
    (show (s.pcs t).holds = true by rw [hpc]; rfl)
  rw [hsame, hpc] at hclearing'
  cases hclearing'

omit [DecidableEq T] in
theorem Delivered.held (hsim : Sim s g) {i : Fin 2} {start stop : Nat} {slice : σ}
    (hpc : s.pcs t = .slice i start stop slice) (hconsumed : elements = g.consumed) :
    Delivered s g elements := by
  refine ⟨fun t' hclearing => ?_, fun _ => hconsumed⟩
  have hsame := hsim.exclusive (Pc.holds_of_clearing hclearing)
    (show (s.pcs t).holds = true by rw [hpc]; rfl)
  rw [hsame, hpc] at hclearing
  cases hclearing

omit [Buffer B α σ] [LawfulBuffer B] [DecidableEq T] in
theorem Delivered.clears {i : Fin 2} {start stop : Nat}
    (hpc : s.pcs t = .releaseClear i start stop)
    (hwritten : elements = g.consumed ++ g.batch) : Delivered s g elements := by
  refine ⟨fun _ _ => hwritten, fun hnone => ?_⟩
  have hclearing := hnone t
  rw [hpc] at hclearing
  cases hclearing

end Delivered

section Wired

variable {T : Type x} {B : Type} [DecidableEq T] [Buffer B UInt8 (BytesSlice 2 0)]
  [FramedBuffer B] [LawfulFramedBuffer B]

/-- What holds along the runs of the recipe. -/
structure Wired (limit : Nat) (trace : List ((T × WireAction) × WireEvent))
    (s : State T B UInt8 (BytesSlice 2 0)) (g : Ledger T UInt8) : Prop where
  sim : Sim s.traced g
  accepted : g.accepted.flatten = (reservedValues (byteTrace trace)).flatten
  nothing : ∀ t, (s.pcs t).InsertsNothing
  plain : ∀ t, (s.pcs t).Plain limit
  capacity : ∀ i, Buffer.capacity (s.queue.buffers i) ≤ limit
  delivered : Delivered s.traced g (flushedPayloads trace).flatten
  frames : flushedFrames trace = (flushedPayloads trace).map u16Header.encode
  length_le : ∀ payload ∈ flushedPayloads trace, payload.length ≤ limit

variable {limit : Nat} {trace : List ((T × WireAction) × WireEvent)}
  {s s' : State T B UInt8 (BytesSlice 2 0)} {g : Ledger T UInt8} {t : T}

theorem BytesSlice.Shows.writeHeader {headerSize trailerSize : Nat}
    {slice slice' : BytesSlice headerSize trailerSize}
    {header header' payload trailer : List UInt8} (hshows : slice.Shows header payload trailer)
    (hwrite : slice.writeHeader header' = some slice') :
    slice'.Shows header' payload trailer := by
  unfold BytesSlice.writeHeader at hwrite
  split at hwrite
  · rename_i hfits
    have hframe : slice.bytes = header ++ payload ++ trailer := hshows.frame_eq
    have hdrop : slice.bytes.drop headerSize = payload ++ trailer := by
      rw [hframe, List.append_assoc, ← hshows.length_header, List.drop_left]
    cases hwrite
    rw [hdrop, ← List.append_assoc]
    exact BytesSlice.shows_of_append hfits.2 hshows.length_trailer
  · cases hwrite

/-- A live slice is in the cells of its batch, whatever is written into its header. -/
theorem Wired.writeSlice (hwired : Wired limit trace s g) {i : Fin 2} {start stop : Nat}
    {slice slice' : BytesSlice 2 0} (hpc : s.pcs t = .slice i start stop slice)
    {header : List UInt8} (hwrite : slice.writeHeader header = some slice') :
    slice.deref = some g.batch ∧ slice'.Shows header g.batch [] ∧ g.batch.length ≤ limit ∧
      Range s.traced.queue g i start stop ∧
      (∀ j, Buffer.capacity ((s.queue.setBuffer i (FramedBuffer.restore (s.queue.buffers i)
        start slice')).buffers j) = Buffer.capacity (s.queue.buffers j)) ∧
      Sim (s.writeSlice t i start slice' (.slice i start stop slice')).traced g := by
  have hthread := hwired.sim.thread t
  rw [show s.traced.pcs t = .slice i start stop slice from hpc] at hthread
  obtain ⟨hrange, header₀, trailer, hshows⟩ := hthread
  rw [← hrange.batch_eq] at hshows
  have htrailer : trailer = [] := List.eq_nil_of_length_eq_zero hshows.length_trailer
  subst htrailer
  have hshows' := hshows.writeHeader hwrite
  have hlength : start + g.batch.length = stop := by
    rw [hrange.batch_eq]
    exact hrange.length_drop
  have hfits : stop ≤ Buffer.capacity (s.queue.buffers i) := by
    rw [hrange.stop_eq]
    exact hrange.fits
  have hlimit := hwired.capacity i
  have hpos : 0 < Buffer.capacity (s.queue.buffers i) := hrange.capacity_pos
  have hinside : start + g.batch.length ≤ Buffer.capacity (s.queue.buffers i) := by omega
  obtain ⟨hbytes, hsame⟩ := bytes_restore_of_shows hshows' hpos hinside
  have hcapacity : Buffer.capacity (FramedBuffer.restore (s.queue.buffers i) start slice') =
      Buffer.capacity (s.queue.buffers i) :=
    LawfulFramedBuffer.capacity_congr (by rw [hbytes, hsame])
  refine ⟨hshows.deref_eq, hshows', by omega, hrange, Queue.capacity_setBuffer hcapacity, ?_⟩
  have hholds := hrange.holds_contents hwired.sim.shared
  rw [← hrange.batch_eq] at hholds
  rw [traced_writeSlice]
  refine hwired.sim.overwrite hpc hcapacity (fun j hle hlt => ?_) ?_
  · obtain ⟨k, rfl⟩ := Nat.exists_eq_add_of_le hle
    have hk : k < g.batch.length := by omega
    rw [show s.traced.queue.buffers i = ⟨s.queue.buffers i⟩ from rfl] at hholds
    exact (Traced.cell_restore hshows' hcapacity hpos hinside hle (by omega)).trans
      (by rw [Nat.add_sub_cancel_left]; exact (hholds k hk).symm)
  · rw [← hrange.batch_eq]
    exact ⟨header, [], hshows'⟩

theorem Wired.pcs (hwired : Wired limit trace s g) (i : Fin 2) (start : Nat)
    (slice : BytesSlice 2 0) {pc : Pc UInt8 (BytesSlice 2 0)} (hnothing : pc.InsertsNothing)
    (hplain : pc.Plain limit) (t' : T) :
    ((s.writeSlice t i start slice pc).pcs t').InsertsNothing ∧
      ((s.writeSlice t i start slice pc).pcs t').Plain limit := by
  change (Function.update s.pcs t pc t').InsertsNothing ∧
    (Function.update s.pcs t pc t').Plain limit
  by_cases ht' : t' = t
  · rw [ht', Function.update_self]
    exact ⟨hnothing, hplain⟩
  · rw [Function.update_of_ne ht']
    exact ⟨hwired.nothing t', hwired.plain t'⟩

theorem Wired.writeHeader (hwired : Wired limit trace s g) {i : Fin 2} {start stop : Nat}
    {slice slice' : BytesSlice 2 0} (hpc : s.pcs t = .slice i start stop slice)
    {header : List UInt8} (hwrite : slice.writeHeader header = some slice') :
    Wired limit (trace ++ [((t, .writeHeader header), .headerWritten)])
      (s.writeSlice t i start slice' (.slice i start stop slice')) g := by
  obtain ⟨-, -, -, -, hcapacity, hsim⟩ := hwired.writeSlice hpc hwrite
  have hpcs := hwired.pcs (t := t) i start slice'
    (show (Pc.slice i start stop slice').InsertsNothing from trivial) trivial
  obtain ⟨hframes, hpayloads⟩ := flushed_append_of_quiet trace (t, .writeHeader header)
    (show WireEvent.headerWritten.frames = [] from rfl)
  refine ⟨hsim, ?_, fun t' => (hpcs t').1, fun t' => (hpcs t').2, fun j => ?_, ?_, ?_, ?_⟩
  · rw [hwired.accepted, byteTrace, byteTrace, List.filterMap_append]
    exact congrArg (fun trace => (reservedValues trace).flatten) (List.append_nil _).symm
  · exact (hcapacity j).trans_le (hwired.capacity j)
  · rw [hpayloads]
    exact .held hsim (Function.update_self ..)
      (hwired.delivered.of_slice hwired.sim (t := t) hpc)
  · rw [hframes, hpayloads]
    exact hwired.frames
  · rw [hpayloads]
    exact hwired.length_le

theorem Wired.flush (hwired : Wired limit trace s g) {i : Fin 2} {start stop : Nat}
    {slice slice' : BytesSlice 2 0} (hpc : s.pcs t = .slice i start stop slice)
    {payload : List UInt8} (hderef : slice.deref = some payload)
    (hwrite : slice.writeHeader (u16Header.put payload.length) = some slice') :
    Wired limit (trace ++ [((t, .flush), .flushed slice'.frame)])
      (s.writeSlice t i start slice' (.releaseClear i start stop)) g := by
  obtain ⟨hbatch, hshows, hlength, -, hcapacity, hsim⟩ := hwired.writeSlice hpc hwrite
  cases hderef.symm.trans hbatch
  have hpcs := hwired.pcs (t := t) i start slice'
    (show (Pc.releaseClear i start stop : Pc UInt8 (BytesSlice 2 0)).InsertsNothing from
      trivial) trivial
  have hencode : slice'.frame = u16Header.encode g.batch := by
    rw [hshows.frame_eq, List.append_nil]
    rfl
  have hframes := flushedFrames_append trace (t, .flush) (.flushed slice'.frame)
  have hpayloads := flushedPayloads_append trace (t, .flush) (.flushed slice'.frame)
  rw [WireEvent.frames, hencode] at hframes
  rw [WireEvent.frames, hencode, List.map_singleton,
    show (u16Header.encode g.batch).drop 2 = g.batch from rfl] at hpayloads
  rw [hencode]
  have hsim' : Sim (s.writeSlice t i start slice' (.releaseClear i start stop)).traced g := by
    have hlocal : Local (s.writeSlice t i start slice' (.slice i start stop slice')).traced.queue
        ((s.writeSlice t i start slice' (.slice i start stop slice')).traced.pcs t) .drop
        (.releaseClear i start stop) := by
      rw [show (s.writeSlice t i start slice' (.slice i start stop slice')).traced.pcs t =
        .slice i start stop slice' from Function.update_self ..]
      exact .dropSlice i start stop slice'
    have hdropped := hsim.local_step hlocal (by rintro _ ⟨⟩)
    rw [traced_writeSlice] at hdropped ⊢
    rwa [Function.update_idem] at hdropped
  refine ⟨hsim', ?_, fun t' => (hpcs t').1, fun t' => (hpcs t').2, fun j => ?_, ?_, ?_, ?_⟩
  · rw [hwired.accepted, byteTrace, byteTrace, List.filterMap_append]
    exact congrArg (fun trace => (reservedValues trace).flatten) (List.append_nil _).symm
  · exact (hcapacity j).trans_le (hwired.capacity j)
  · refine .clears (Function.update_self ..) ?_
    rw [hpayloads, List.flatten_append, hwired.delivered.of_slice hwired.sim (t := t) hpc]
    exact congrArg (g.consumed ++ ·) (List.append_nil _)
  · rw [hframes, hpayloads, List.map_append, hwired.frames]
    rfl
  · rw [hpayloads]
    intro payload hpayload
    rcases List.mem_append.mp hpayload with hold | hnew
    · exact hwired.length_le payload hold
    · rw [List.mem_singleton.mp hnew]
      exact hlength

theorem Wired.queue (hwired : Wired limit trace s g) {action : Action UInt8}
    {event : Event UInt8} (hok : BytesOk limit s (t, action))
    (hstep : step s (t, action) = some (s', event)) :
    ∃ g', Wired limit (trace ++ [((t, .queue action), .shown event)]) s' g' := by
  have hsim := hwired.sim
  have hiter : ∀ i start stop, s.pcs t ≠ .iter i start stop := by
    intro i start stop hpc
    have hplain := hwired.plain t
    rw [hpc] at hplain
    exact hplain
  have hvalue : ∀ value enqueuing, s.pcs t = .enqueueInsert value enqueuing → value ≠ [] := by
    intro value enqueuing hpc
    have hthread := hsim.thread t
    rw [show s.traced.pcs t = .enqueueInsert value enqueuing from hpc] at hthread
    exact hsim.shared.nonempty _ _ hthread.at_index.mem
  obtain ⟨event', htraced, htraces⟩ := step_traced hvalue hiter hstep
  have hdelivery := hok.delivery
  have hsim' := hsim.step hdelivery.size htraced
  obtain ⟨q', pc', hmove, hs'⟩ := step_cases htraced
  obtain ⟨hframes, hpayloads⟩ := flushed_append_of_quiet trace (t, .queue action)
    (show (WireEvent.shown event).frames = [] from rfl)
  have hpcs : ∀ t', s'.pcs t' = Function.update s.pcs t pc' t' :=
    fun t' => congrFun (congrArg State.pcs hs') t'
  refine ⟨g.next t event', hsim', ?_, ?_, ?_, ?_, ?_, ?_, ?_⟩
  · have htrace : byteTrace (trace ++ [((t, .queue action), .shown event)]) =
        byteTrace trace ++ [((t, action), event)] := List.filterMap_append
    rw [hsim.accepted_step (hwired.nothing t) hmove, hwired.accepted, htrace,
      reservedValues_append_singleton, htraces.added_eq]
  · intro t'
    rw [hpcs]
    by_cases ht' : t' = t
    · rw [ht', Function.update_self]
      exact hmove.insertsNothing (hwired.nothing t) hdelivery.nothing
    · rw [Function.update_of_ne ht']
      exact hwired.nothing t'
  · intro t'
    rw [hpcs]
    by_cases ht' : t' = t
    · rw [ht', Function.update_self]
      exact hmove.plain (hwired.plain t) hok.no_iter hok.resize_le
    · rw [Function.update_of_ne ht']
      exact hwired.plain t'
  · intro i
    have hbuffers : s'.traced.queue.buffers i = q'.buffers i :=
      congrArg (fun state => state.queue.buffers i) hs'
    change Buffer.capacity (s'.traced.queue.buffers i) ≤ limit
    rw [hbuffers]
    exact hmove.capacity_le (hwired.plain t) hwired.capacity i
  · rw [hpayloads, hs']
    rw [hs'] at hsim'
    exact hwired.delivered.step hsim hmove hsim' hok.no_drop hiter
  · rw [hframes, hpayloads]
    exact hwired.frames
  · rw [hpayloads]
    exact hwired.length_le

omit [DecidableEq T] in
theorem Wired.of_initial (hinitial : Initial s)
    (hcapacity : ∀ i, Buffer.capacity (s.queue.buffers i) ≤ limit) :
    Wired limit [] s (Ledger.empty : Ledger T UInt8) := by
  have hidle : ∀ t, s.pcs t = .idle none := fun t => by rw [hinitial.2]
  refine ⟨Sim.of_initial (initial_traced hinitial), rfl, fun t => ?_, fun t => ?_, hcapacity,
    ⟨fun t hclearing => ?_, fun _ => rfl⟩, rfl, by rintro _ ⟨⟩⟩
  · rw [hidle]
    trivial
  · rw [hidle]
    trivial
  · rw [show s.traced.pcs t = .idle none from hidle t] at hclearing
    cases hclearing

variable {start : State T B UInt8 (BytesSlice 2 0)}

/-- The recipe keeps the bytes of the queue and of the stream together. -/
theorem wired_of_run (hinitial : Initial start)
    (hcapacity : ∀ i, Buffer.capacity (start.queue.buffers i) ≤ limit)
    (hrun : Runs.Run wireStep (WireOk limit) start trace s) : ∃ g, Wired limit trace s g := by
  refine hrun.invariant (fun trace (s : State T B UInt8 (BytesSlice 2 0)) =>
    ∃ g, Wired limit trace s g) ⟨_, .of_initial hinitial hcapacity⟩ ?_
  rintro trace s s' ⟨t, action⟩ event - ⟨g, hwired⟩ hok hstep
  cases wireStep_cases hstep with
  | queue hbase => exact hwired.queue hok hbase
  | writeHeader hpc hwrite => exact ⟨g, hwired.writeHeader hpc hwrite⟩
  | flush hpc hderef hwrite => exact ⟨g, hwired.flush hpc hderef hwrite⟩

/-- The byte recipe is a faithful stream.  In any interleaving the payloads written to the
stream are the bytes enqueued, in the order of the reservations and none twice, and all of
them once the queue is found empty; a reader who takes the lengths from the headers gets
exactly the payloads if and only if each is shorter than `2 ^ 16`, as it is when no buffer
is larger. -/
theorem byte_stream_round_trip (hinitial : Initial start)
    (hcapacity : ∀ i, Buffer.capacity (start.queue.buffers i) ≤ limit)
    (hrun : Runs.Run wireStep (WireOk limit) start trace s) :
    (flushedPayloads trace).flatten <+: (reservedValues (byteTrace trace)).flatten ∧
    (s.queue.dequeuingLength ≠ dequeuingLocked →
      (DequeuingLength.mk s.queue.dequeuingLength).bufferLen = 0 →
      s.queue.enqueuingCapacity.remainingCapacity =
        Buffer.capacity (s.queue.buffers s.queue.enqueuingCapacity.bufferIndex) →
      (flushedPayloads trace).flatten = (reservedValues (byteTrace trace)).flatten) ∧
    (u16Header.decode (wire trace) = some (flushedPayloads trace) ↔
      ∀ payload ∈ flushedPayloads trace, payload.length < 2 ^ 16) ∧
    (limit < 2 ^ 16 → u16Header.decode (wire trace) = some (flushedPayloads trace)) := by
  obtain ⟨g, hwired⟩ := wired_of_run hinitial hcapacity hrun
  have horder := hwired.sim.shared.order
  rw [hwired.accepted] at horder
  have hwire : wire trace = (flushedPayloads trace).flatMap u16Header.encode := by
    rw [wire, hwired.frames, List.flatMap_def]
  have hdecode : u16Header.decode (wire trace) = some (flushedPayloads trace) ↔
      ∀ payload ∈ flushedPayloads trace, payload.length < 2 ^ 16 := by
    rw [hwire, Framing.Header.decode_flatMap_encode_iff]
    simp only [u16Header_tells_iff]
  refine ⟨?_, ?_, hdecode, fun hlimit => hdecode.mpr fun payload hpayload =>
    Nat.lt_of_le_of_lt (hwired.length_le payload hpayload) hlimit⟩
  · rw [← horder]
    by_cases hclearing : ∃ t, (s.pcs t).clearing = true
    · obtain ⟨t, hclearing⟩ := hclearing
      rw [hwired.delivered.clearing t hclearing]
      exact List.prefix_append _ _
    · rw [hwired.delivered.settled fun t =>
        Bool.eq_false_iff.mpr fun h => hclearing ⟨t, h⟩, List.append_assoc]
      exact List.prefix_append _ _
  · intro hopen hvacant hempty
    have hsettled : (flushedPayloads trace).flatten = g.consumed := by
      refine hwired.delivered.settled fun t => Bool.eq_false_iff.mpr fun hclearing => hopen ?_
      exact hwired.sim.locked_of_holds (Pc.holds_of_clearing hclearing)
    have hbatch := (hwired.sim.stored hopen).batch.length_batch
    have hextent := hwired.sim.shared.extent_add
    rw [hwired.sim.shared.enqueuing] at hextent
    have htail : g.tail.length = 0 := by
      have hindex := hwired.sim.shared.enqueuing
      change extent (g.tiles g.enqueuing) = 0
      rw [hindex]
      change _ + s.queue.enqueuingCapacity.remainingCapacity =
        Buffer.capacity (s.queue.buffers s.queue.enqueuingCapacity.bufferIndex) at hextent
      omega
    rw [← horder, hsettled, List.eq_nil_of_length_eq_zero (hbatch.trans hvacant),
      List.eq_nil_of_length_eq_zero htail, List.append_nil, List.append_nil]

end Wired

/-- Two values in one frame, and a third one behind a requeue in the next. -/
theorem byte_stream_round_trip_two_frames :
    ∃ (start s : State Unit (WriteVecBuffer 2 0) UInt8 (BytesSlice 2 0)) (trace : _),
      Initial start ∧ Runs.Run wireStep (WireOk 4) start trace s ∧
      wire trace = [0, 3, 7, 8, 9, 0, 1, 5] ∧
      u16Header.decode (wire trace) = some [[7, 8, 9], [5]] := by
  have hinitial := initial_withCapacity (T := Unit) (B := WriteVecBuffer 2 0)
    (show (Queue.withCapacity 4).isSome = true by decide +kernel)
  have hrun := Runs.run_of_isSome wireStep (WireOk 4)
    (State.ofQueue ((Queue.withCapacity 4).get (by decide +kernel)) :
      State Unit (WriteVecBuffer 2 0) UInt8 (BytesSlice 2 0))
    (List.flatten [[((), .queue (.tryEnqueue [7, 8]))],
      List.replicate 4 ((), .queue (.run false)), [((), .queue (.tryEnqueue [9]))],
      List.replicate 4 ((), .queue (.run false)), [((), .queue .tryDequeue)],
      List.replicate 10 ((), .queue (.run false)), [((), .flush)],
      List.replicate 3 ((), .queue (.run false)), [((), .queue (.tryEnqueue [5]))],
      List.replicate 4 ((), .queue (.run false)), [((), .queue .tryDequeue)],
      List.replicate 10 ((), .queue (.run false)),
      [((), .writeHeader [1, 1]), ((), .queue .requeue), ((), .queue (.run false)),
        ((), .queue .tryDequeue)],
      List.replicate 3 ((), .queue (.run false)), [((), .flush)]])
    (by decide +kernel) (by decide +kernel)
  have hcapacity : ∀ i, Buffer.capacity (((Queue.withCapacity 4).get (by decide +kernel) :
      Queue (WriteVecBuffer 2 0)).buffers i) ≤ 4 := by decide +kernel
  obtain ⟨trace, s, hrun, hwire, hpayloads⟩ :
      ∃ trace s, Runs.Run wireStep (WireOk 4) _ trace s ∧
        wire trace = [0, 3, 7, 8, 9, 0, 1, 5] ∧ flushedPayloads trace = [[7, 8, 9], [5]] :=
    ⟨_, _, hrun, by decide +kernel, by decide +kernel⟩
  obtain ⟨-, -, -, hdecoded⟩ := byte_stream_round_trip hinitial hcapacity hrun
  refine ⟨_, s, trace, hinitial, hrun, hwire, ?_⟩
  rw [hdecoded (by decide), hpayloads]

end SwapBufferQueue
