/-
How the recipe grows its buffers.  A dequeue asks for the capacity of the enqueuing
buffer and the values of the overflow together, and a value waits in the overflow only
behind a full buffer, so what it asks for is held by the queue.  Starting from one cell
or more the buffers only grow; starting from none the buffer of the enqueuers never gets
any room.
-/
import SwapBufferQueue.Unbounded
import SwapBufferQueue.CapacityField

namespace SwapBufferQueue

universe u v w x

open Tiling

variable {T : Type x} {B : Type u} {α : Type v} {σ : Type w}

def Event.resizes : Event α → Nat
  | .resized _ _ => 1
  | _ => 0

structure Capacities where
  enqueuing : Nat
  hidden : Nat
deriving Repr, DecidableEq

def Capacities.next (capacities : Capacities) : Event α → Capacities
  | .resized _ capa => { capacities with hidden := capa }
  | .swapped _ => ⟨capacities.hidden, capacities.enqueuing⟩
  | _ => capacities

section Capacities

variable [Buffer B α σ]

def Queue.capacities (q : Queue B) : Capacities :=
  ⟨q.enqueuingBufferCapacity,
    Buffer.capacity (q.buffers (other q.enqueuingCapacity.bufferIndex))⟩

variable [LawfulBuffer B] {s : State T B α σ} {g : Ledger T α} {t : T}
variable {action : Action α} {q' : Queue B} {pc' : Pc α σ} {event : Event α}

theorem Sim.capacity_buffers (hsim : Sim s g)
    (hmove : Transition s.queue (s.pcs t) action q' pc' event)
    (hevent : event.resizes = 0) (i : Fin 2) :
    Buffer.capacity (q'.buffers i) = Buffer.capacity (s.queue.buffers i) := by
  have hthread := hsim.thread t
  generalize s.pcs t = pc at hmove hthread
  cases hmove with
  | insert _ _ _ _ hinsert =>
      exact Queue.capacity_setBuffer (LawfulBuffer.capacity_insertInto hinsert) i
  | resize _ _ _ _ _ _ _ _ _ => cases hevent
  | stage _ _ _ _ _ _ _ _ _ hinsert =>
      exact Queue.capacity_setBuffer (LawfulBuffer.capacity_insertInto hinsert) i
  | remove j first last value b hlt hremove =>
      have hrange : Range s.queue g j first last := hthread
      obtain ⟨value', hcell, -⟩ := hrange.exists_head hsim.shared hlt
      have hfits := hrange.fits
      have hstop := hrange.stop_eq
      obtain ⟨b', hsome, hcapacity, -⟩ := LawfulBuffer.remove_spec hcell (by omega)
      cases hremove.symm.trans hsome
      exact Queue.capacity_setBuffer hcapacity i
  | clear j first last _ values b hclear =>
      have hrange : Range s.queue g j first last := hthread
      have hlast := hrange.length_drop
      obtain ⟨b', hsome, hcapacity⟩ := LawfulBuffer.clear_spec
        (hrange.holds_contents hsim.shared)
        (by rw [hlast, hrange.stop_eq]; exact hrange.fits)
      rw [hlast, hclear] at hsome
      cases hsome
      exact Queue.capacity_setBuffer hcapacity i
  | _ => rfl

variable [DecidableEq T]

theorem Sim.capacities_step (hsim : Sim s g)
    (hmove : Transition s.queue (s.pcs t) action q' pc' event)
    (hsim' : Sim (⟨q', Function.update s.pcs t pc'⟩ : State T B α σ) (g.next t event)) :
    q'.capacities = s.queue.capacities.next event := by
  have hindex := hsim.shared.enqueuing
  have hindex' : (g.next t event).enqueuing = q'.enqueuingCapacity.bufferIndex :=
    hsim'.shared.enqueuing
  rw [Queue.capacities, Queue.capacities, Queue.enqueuingBufferCapacity,
    Queue.enqueuingBufferCapacity, ← hindex, ← hindex']
  have hkeep := hsim.capacity_buffers hmove
  have hthread := hsim.thread t
  generalize s.pcs t = pc at hmove hthread
  cases hmove with
  | resize dequeuing _ _ capa b _ _ _ hresize =>
      have hhidden : Hidden s.queue g dequeuing .staged 0 := hthread
      change Capacities.mk (Buffer.capacity ((s.queue.setBuffer _ b).buffers g.enqueuing))
        (Buffer.capacity ((s.queue.setBuffer _ b).buffers (other g.enqueuing))) = ⟨_, capa⟩
      rw [Queue.buffers_setBuffer, Queue.buffers_setBuffer, if_neg hhidden.other.symm,
        if_pos (eq_other_of_ne hhidden.other).symm, LawfulBuffer.capacity_resize hresize]
  | swap attempt capacity nextEnqueuing =>
      have hswap : Swapping s.queue g attempt capacity nextEnqueuing
        s.queue.enqueuingCapacity := hthread
      change Capacities.mk
        (Buffer.capacity (s.queue.buffers attempt.dequeuing.bufferIndex))
        (Buffer.capacity (s.queue.buffers (other attempt.dequeuing.bufferIndex))) =
          ⟨Buffer.capacity (s.queue.buffers (other g.enqueuing)), _⟩
      rw [eq_other_of_ne hswap.hidden.other, other_other]
  | _ =>
      rw [hkeep rfl, hkeep rfl]
      rfl

end Capacities

section Growth

/-- The hidden buffer has its new capacity and is not swapped yet. -/
def Pc.prepared : Pc α σ → Bool
  | .dequeueInsert _ _ _ _ => true
  | .dequeuePublish _ => true
  | .dequeueLoad _ => true
  | .dequeueSwap _ _ _ _ => true
  | _ => false

/-- A request that neither shrinks the enqueuing buffer nor passes the bound. -/
def Grows (bound : Nat) (capacities : Capacities) (resize : ResizeArgs α) : Prop :=
  ∃ capa ∈ resize.capacity, capacities.enqueuing ≤ capa ∧ capa ≤ bound

/-- The hidden buffer has become the larger one only if it was resized. -/
def Capacities.Grown (capacities : Capacities) (resized : Bool) : Prop :=
  capacities.enqueuing ≤ capacities.hidden ∧
    (resized = false → capacities.hidden ≤ capacities.enqueuing)

/-- What a dequeue of the recipe knows of the capacities.  It has a batch to return
whenever it has inserted something, so it never swaps back. -/
def GrowthThread (bound : Nat) (capacities : Capacities) : Pc α σ → Prop
  | .dequeueLock resize => Grows bound capacities resize
  | .dequeueResize _ resize => Grows bound capacities resize
  | .dequeueInsert _ resized _ _ => capacities.Grown resized
  | .dequeuePublish attempt => capacities.Grown attempt.resized
  | .dequeueLoad attempt => capacities.Grown attempt.resized
  | .dequeueSwap attempt _ _ _ => capacities.Grown attempt.resized
  | .dequeueLoadCapacity attempt capacity enqueuing =>
      0 < attempt.insertedLength → enqueuing.remainingCapacity < capacity
  | .dequeueStoreCapacity attempt capacity enqueuing =>
      0 < attempt.insertedLength → enqueuing.remainingCapacity < capacity
  | .dequeueNotify attempt capacity enqueuing =>
      0 < attempt.insertedLength → enqueuing.remainingCapacity < capacity
  | _ => True

theorem growthThread_enqueueCheck (bound : Nat) (capacities : Capacities) (value : List α)
    (enqueuing : EnqueuingCapacity) :
    GrowthThread bound capacities (enqueueCheck value enqueuing : Pc α σ) :=
  enqueueCheck_elim (P := GrowthThread bound capacities) (fun _ => trivial)
    (fun _ _ => trivial) fun _ _ _ => trivial

theorem growthThread_requeueRange (bound : Nat) (capacities : Capacities) (i : Fin 2)
    (first last : Nat) :
    GrowthThread bound capacities (requeueRange i first last : Pc α σ) :=
  requeueRange_elim (P := GrowthThread bound capacities) (fun _ => trivial)
    (fun _ => trivial) fun _ => trivial

theorem growthThread_dequeueEntry {bound : Nat} {capacities : Capacities}
    (dequeuing : DequeuingLength) {resize : ResizeArgs α}
    (hgrows : Grows bound capacities resize) :
    GrowthThread bound capacities (dequeueEntry dequeuing resize : Pc α σ) :=
  dequeueEntry_elim (P := GrowthThread bound capacities) (fun _ => hgrows)
    fun _ => trivial

theorem growthThread_dequeueFinish {bound : Nat} {capacities : Capacities}
    {attempt : Attempt} {capacity : Nat} {enqueuing : EnqueuingCapacity}
    (hbatch : 0 < attempt.insertedLength → enqueuing.remainingCapacity < capacity) :
    GrowthThread bound capacities
      (dequeueFinish attempt capacity enqueuing : Pc α σ) := by
  refine dequeueFinish_elim (P := GrowthThread bound capacities) (fun _ => trivial)
    (fun _ => trivial) ?_ (fun _ _ _ => trivial) fun _ _ _ => trivial
  intro hfull hinserted
  exact absurd hfull (Nat.ne_of_gt (hbatch hinserted))

variable [Buffer B α σ]

/-- The capacities of a recipe that started with `floor` cells in each buffer. -/
structure GrowthInv (floor bound : Nat) (s : State T B α σ) : Prop where
  enqueuing_ge : floor ≤ s.queue.capacities.enqueuing
  enqueuing_le : s.queue.capacities.enqueuing ≤ bound
  hidden_le : s.queue.capacities.hidden ≤ bound
  thread (t : T) : GrowthThread bound s.queue.capacities (s.pcs t)
  rest : (∀ t, (s.pcs t).prepared = false) →
    s.queue.capacities.hidden ≤ s.queue.capacities.enqueuing

theorem holds_of_prepared {pc : Pc α σ} (hprepared : pc.prepared = true) :
    pc.holds = true := by
  cases pc with
  | dequeueInsert _ _ _ _ => rfl
  | dequeuePublish _ => rfl
  | dequeueLoad _ => rfl
  | dequeueSwap _ _ _ _ => rfl
  | _ => cases hprepared

/-- What the recipe makes sure of when it moves the queue. -/
structure GrowthMove (bound : Nat) (s : State T B α σ) (t : T) (action : Action α)
    (event : Event α) : Prop where
  call : ∀ resize ∈ action.resize?, Grows bound s.queue.capacities resize
  resizes : action ≠ .tryDequeue
  full (attempt : Attempt) (capacity : Nat) (next : EnqueuingCapacity) :
    s.pcs t = .dequeueSwap attempt capacity next s.queue.enqueuingCapacity →
      0 < attempt.insertedLength → s.queue.enqueuingCapacity.remainingCapacity = 0
  alone : s.queue.capacities.next event ≠ s.queue.capacities →
    ∀ t' resize, s.pcs t' ≠ .dequeueLock resize

section Step

variable [LawfulBuffer B] {floor bound : Nat} {s : State T B α σ} {g : Ledger T α} {t : T}
variable {action : Action α} {q' : Queue B} {pc' : Pc α σ} {event : Event α}

omit [LawfulBuffer B] in
theorem Transition.holds_of_capacities {q : Queue B} {pc : Pc α σ}
    (hmove : Transition q pc action q' pc' event) {capacities : Capacities}
    (hchanged : capacities.next event ≠ capacities) : pc.holds = true := by
  cases hmove with
  | resize _ _ _ _ _ _ _ _ _ => rfl
  | swap _ _ _ => rfl
  | _ => exact absurd rfl hchanged

omit [LawfulBuffer B] in
/-- How a dequeue leaves the preparation of the hidden buffer: with a swap, or because
there is nothing to do. -/
theorem Transition.prepared_cases {q : Queue B} {pc : Pc α σ}
    (hmove : Transition q pc action q' pc' event) (hpanic : ∀ panic, pc' ≠ .panicked panic)
    (hdone : pc'.prepared = false) (capacities : Capacities) :
    (pc.prepared = false ∧ capacities.next event = capacities) ∨
      (∃ attempt, pc = .dequeueLoad attempt ∧ attempt.resized = false ∧
        capacities.next event = capacities) ∨
      ∃ attempt capacity next enqueuing i,
        pc = .dequeueSwap attempt capacity next enqueuing ∧ event = .swapped i := by
  cases hmove with
  | silent hlocal =>
      cases hlocal with
      | skipEmpty _ _ _ _ _ => cases hdone
      | stageEnd _ _ _ _ _ _ => cases hdone
      | publishNothing _ _ _ => cases hdone
      | dequeueLoad _ _ _ _ _ _ _ => cases hdone
      | swapRetry _ _ _ _ _ => cases hdone
      | stageOutOfBounds _ _ _ _ _ _ _ => exact absurd rfl (hpanic _)
      | bufferIndexAssert _ _ _ => exact absurd rfl (hpanic _)
      | nextCapacityUnderflow _ _ _ => exact absurd rfl (hpanic _)
      | enqueuingCapacityAssert _ _ _ _ => exact absurd rfl (hpanic _)
      | _ => exact Or.inl ⟨rfl, rfl⟩
  | resize _ _ _ _ _ _ _ _ _ => cases hdone
  | stage _ _ _ _ _ _ _ _ _ _ => cases hdone
  | publish _ _ _ => cases hdone
  | foundEmpty attempt _ _ _ hresized _ => exact Or.inr (Or.inl ⟨attempt, rfl, hresized, rfl⟩)
  | swap attempt capacity next =>
      exact Or.inr (Or.inr ⟨attempt, capacity, next, _, _, rfl, rfl⟩)
  | _ => exact Or.inl ⟨rfl, rfl⟩

/-- Before the hidden buffer is touched it is not the larger one. -/
theorem GrowthInv.hidden_le_enqueuing (hinv : GrowthInv floor bound s) (hsim : Sim s g)
    (hholds : (s.pcs t).holds = true) (hprepared : (s.pcs t).prepared = false) :
    s.queue.capacities.hidden ≤ s.queue.capacities.enqueuing := by
  apply hinv.rest
  intro t'
  by_cases ht' : t' = t
  · rw [ht', hprepared]
  · exact Bool.eq_false_iff.mpr fun hother =>
      ht' (hsim.exclusive (holds_of_prepared hother) hholds)

omit [LawfulBuffer B] in
theorem Hidden.capacity_eq {q : Queue B} {dequeuing : DequeuingLength} {tag : Status T}
    {length : Nat} (hhidden : Hidden q g dequeuing tag length)
    (hindex : g.enqueuing = q.enqueuingCapacity.bufferIndex) :
    Buffer.capacity (q.buffers dequeuing.bufferIndex) = q.capacities.hidden := by
  rw [eq_other_of_ne hhidden.other, hindex]
  rfl

theorem GrowthInv.self (hinv : GrowthInv floor bound s) (hfloor : 0 < floor)
    (hsim : Sim s g) (hmove : Transition s.queue (s.pcs t) action q' pc' event)
    (hgrowth : GrowthMove bound s t action event) :
    GrowthThread bound (s.queue.capacities.next event) pc' := by
  have hself := hinv.thread t
  have hthread := hsim.thread t
  have hindex := hsim.shared.enqueuing
  have hsmall := hinv.hidden_le_enqueuing hsim (t := t)
  have hfull := hgrowth.full
  generalize s.pcs t = pc at hmove hself hthread hsmall hfull
  cases hmove with
  | silent hlocal =>
      cases hlocal with
      | enqueueLoad _ _ => exact growthThread_enqueueCheck _ _ _ _
      | enqueueRetry _ _ _ _ => exact growthThread_enqueueCheck _ _ _ _
      | tryDequeue _ => exact absurd rfl hgrowth.resizes
      | tryDequeueAndResize _ resize => exact hgrowth.call resize rfl
      | keepCapacity dequeuing resize _ hkeep =>
          have hhidden : Hidden s.queue g dequeuing .staged 0 := hthread
          obtain ⟨capa, hcapa, hle, -⟩ := hself
          rw [hkeep capa hcapa, hhidden.capacity_eq hindex] at hle
          exact ⟨hle, fun _ => hsmall rfl rfl⟩
      | dequeueNotify _ _ _ _ => exact growthThread_dequeueFinish hself
      | dropIter _ _ _ => exact growthThread_requeueRange _ _ _ _ _
      | requeue _ _ _ _ => exact growthThread_requeueRange _ _ _ _ _
      | skipEmpty _ _ _ _ _ => exact hself
      | stageEnd _ _ _ _ _ _ => exact hself
      | publishNothing _ _ _ => exact hself
      | dequeueLoad _ _ _ _ _ _ _ => exact hself
      | swapRetry _ _ _ _ _ => exact hself
      | capacityDiffers _ _ _ _ _ => exact hself
      | capacitySame _ _ _ _ _ => exact hself
      | _ => exact trivial
  | lock resize _ _ => exact growthThread_dequeueEntry _ hself
  | resize dequeuing resize _ capa _ hcapa _ _ _ =>
      obtain ⟨capa', hcapa', hle, -⟩ := hself
      cases hcapa.symm.trans hcapa'
      exact ⟨hle, fun hresized => absurd hresized.symm Bool.false_ne_true⟩
  | stage _ _ _ _ _ _ _ _ _ _ => exact hself
  | publish _ _ _ => exact hself
  | swap attempt capacity nextEnqueuing =>
      have hswap : Swapping s.queue g attempt capacity nextEnqueuing
        s.queue.enqueuingCapacity := hthread
      intro hinserted
      rw [hfull _ _ _ rfl hinserted, hswap.capacity_eq, hindex]
      exact Nat.lt_of_lt_of_le hfloor hinv.enqueuing_ge
  | storeCapacity _ _ _ _ => exact hself
  | _ => exact trivial

/-- A step of the recipe keeps the capacities in their order, and a resize adds a cell at
least. -/
theorem GrowthInv.step [DecidableEq T] (hinv : GrowthInv floor bound s) (hfloor : 0 < floor)
    (hsim : Sim s g) (hmove : Transition s.queue (s.pcs t) action q' pc' event)
    (hsim' : Sim (⟨q', Function.update s.pcs t pc'⟩ : State T B α σ) (g.next t event))
    (hpanic : ∀ panic, pc' ≠ .panicked panic)
    (hgrowth : GrowthMove bound s t action event) :
    GrowthInv floor bound (⟨q', Function.update s.pcs t pc'⟩ : State T B α σ) ∧
      event.resizes + (s.queue.capacities.enqueuing + s.queue.capacities.hidden) ≤
        q'.capacities.enqueuing + q'.capacities.hidden := by
  have hself := hinv.self hfloor hsim hmove hgrowth
  have hcapacities := hsim.capacities_step hmove hsim'
  have hge := hinv.enqueuing_ge
  have hle := hinv.enqueuing_le
  have hhidden := hinv.hidden_le
  have hbefore := hinv.thread t
  have hsmall := hinv.hidden_le_enqueuing hsim (t := t)
  have hbounds : floor ≤ q'.capacities.enqueuing ∧ q'.capacities.enqueuing ≤ bound ∧
      q'.capacities.hidden ≤ bound ∧
      event.resizes + (s.queue.capacities.enqueuing + s.queue.capacities.hidden) ≤
        q'.capacities.enqueuing + q'.capacities.hidden := by
    have hthread := hsim.thread t
    have hindex := hsim.shared.enqueuing
    rw [hcapacities]
    generalize s.pcs t = pc at hmove hbefore hsmall hthread
    cases hmove with
    | resize dequeuing resize _ capa _ hcapa hne _ _ =>
        have hvacant : Hidden s.queue g dequeuing .staged 0 := hthread
        obtain ⟨capa', hcapa', hgrows, hbound⟩ := hbefore
        cases hcapa.symm.trans hcapa'
        rw [hvacant.capacity_eq hindex] at hne
        have hsmaller := hsmall rfl rfl
        refine ⟨hge, hle, hbound, ?_⟩
        change 1 + (_ + _) ≤ s.queue.capacities.enqueuing + capa
        omega
    | swap _ _ _ =>
        have hgrown : s.queue.capacities.enqueuing ≤ s.queue.capacities.hidden := hbefore.1
        refine ⟨Nat.le_trans hge hgrown, hhidden, hle, ?_⟩
        change 0 + (_ + _) ≤ s.queue.capacities.hidden + s.queue.capacities.enqueuing
        omega
    | _ => exact ⟨hge, hle, hhidden, le_of_eq (Nat.zero_add _)⟩
  refine ⟨⟨hbounds.1, hbounds.2.1, hbounds.2.2.1, ?_, ?_⟩, hbounds.2.2.2⟩
  · intro t'
    change GrowthThread bound q'.capacities (Function.update s.pcs t pc' t')
    rw [hcapacities]
    by_cases ht' : t' = t
    · rw [ht', Function.update_self]
      exact hself
    · rw [Function.update_of_ne ht']
      by_cases hsame : s.queue.capacities.next event = s.queue.capacities
      · rw [hsame]
        exact hinv.thread t'
      · have hfree : (s.pcs t').holds = false := Bool.eq_false_iff.mpr fun hholds =>
          ht' (hsim.exclusive hholds (hmove.holds_of_capacities hsame))
        have hlock := hgrowth.alone hsame t'
        generalize s.pcs t' = pc at hfree hlock
        cases pc with
        | idle _ => exact trivial
        | enqueueLoad _ => exact trivial
        | enqueueReserve _ _ _ => exact trivial
        | enqueueInsert _ _ => exact trivial
        | enqueueAcknowledge _ _ => exact trivial
        | dequeueLock resize => exact absurd rfl (hlock resize)
        | _ => cases hfree
  · intro hnone
    change q'.capacities.hidden ≤ q'.capacities.enqueuing
    have hnot : pc'.prepared = false := by
      have hlast := hnone t
      change (Function.update s.pcs t pc' t).prepared = false at hlast
      rwa [Function.update_self] at hlast
    rw [hcapacities]
    rcases hmove.prepared_cases hpanic hnot s.queue.capacities with
      ⟨hpc, hsame⟩ | ⟨attempt, hpc, hresized, hsame⟩ | ⟨_, _, _, _, _, hpc, rfl⟩
    · rw [hsame]
      refine hinv.rest fun t' => ?_
      by_cases ht' : t' = t
      · rw [ht', hpc]
      · have hother := hnone t'
        change (Function.update s.pcs t pc' t').prepared = false at hother
        rwa [Function.update_of_ne ht'] at hother
    · rw [hpc] at hbefore
      rw [hsame]
      exact hbefore.2 hresized
    · rw [hpc] at hbefore
      exact hbefore.1

end Step

end Growth

section Recipe

variable {s : Recipe T α} {g : Ledger T α} {t : T}

theorem RecipeInv.eq_of_dequeuing (hinv : RecipeInv s g)
    (hlocked : (s.controls t).locked = true) {t' : T}
    (hrest : (s.base.pcs t').resting = false)
    (htrying : ∀ value, ¬ Trying value (s.base.pcs t')) : t' = t := by
  have hcontrol := (hinv.thread t').dequeuing hrest htrying
  exact hinv.exclusive (by rw [hcontrol]; rfl) hlocked

/-- A dequeue about to start reads the capacity of the enqueuing buffer. -/
theorem RecipeInv.capacity_eq (hinv : RecipeInv s g) (hcapacity : CapacityInv s.base)
    (hcontrol : s.controls t = .dequeue) :
    s.base.queue.capacity = s.base.queue.capacities.enqueuing := by
  have hidle := hinv.thread t
  rw [hcontrol] at hidle
  obtain ⟨last, hidle⟩ := hidle
  apply hcapacity.field
  intro t'
  by_contra hsome
  obtain ⟨attempt, hattempt⟩ := Option.ne_none_iff_exists'.mp hsome
  have hsame : t' = t := by
    apply hinv.eq_of_dequeuing (by rw [hcontrol]; rfl)
    · generalize s.base.pcs t' = pc at hattempt
      cases pc with
      | dequeueLoadCapacity _ _ _ => rfl
      | dequeueStoreCapacity _ _ _ => rfl
      | _ => cases hattempt
    · intro value
      generalize s.base.pcs t' = pc at hattempt
      cases pc with
      | dequeueLoadCapacity _ _ _ => exact id
      | dequeueStoreCapacity _ _ _ => exact id
      | _ => cases hattempt
  rw [hsame, hidle] at hattempt
  cases hattempt

theorem RecipeInv.length_overflow (hinv : RecipeInv s g) :
    s.overflow.flatten.length = s.overflow.length := by
  rw [List.length_flatten, List.sum_eq_card_nsmul _ 1]
  · simp
  · intro length hlength
    obtain ⟨value, hvalue, rfl⟩ := List.mem_map.mp hlength
    exact hinv.single value hvalue

/-- The overflow is behind a full buffer, so the queue holds what a dequeue asks for. -/
theorem RecipeInv.requested_le (hinv : RecipeInv s g) (hsim : Sim s.base g)
    (hcapacity : CapacityInv s.base) (hcontrol : s.controls t = .dequeue) {bound : Nat}
    (hle : s.base.queue.capacities.enqueuing ≤ bound)
    (hbacklog : g.tail.length + (s.held g).length ≤ bound) :
    s.base.queue.capacity + s.overflow.length ≤ bound := by
  rw [hinv.capacity_eq hcapacity hcontrol]
  by_cases hempty : s.overflow = []
  · rw [hempty]
    exact hle
  · have hpos : 0 < s.overflow.length := List.length_pos_iff.mpr hempty
    have hlength := hinv.length_overflow
    have hheld : (s.held g).length =
        (g.staged ++ s.moving).length + s.overflow.flatten.length := by
      rw [Recipe.held, List.length_append]
    have hfull := hinv.full (List.ne_nil_of_length_pos (by omega))
    have hextent := hsim.shared.extent_add
    have htail : extent (g.tiles g.enqueuing) = g.tail.length := rfl
    have hroom : s.base.queue.capacities.enqueuing = g.tail.length := by
      change Buffer.capacity (s.base.queue.buffers
        s.base.queue.enqueuingCapacity.bufferIndex) = _
      rw [← hsim.shared.enqueuing]
      omega
    omega

variable {control' : Control α} {action : Action α} {overflow : List (List α)}

theorem Calls.ne_tryDequeue {control : Control α}
    (hcall : Calls s t control action control' overflow) : action ≠ .tryDequeue := by
  rintro rfl
  cases hcall with
  | slice _ haction => cases haction

/-- Nobody waits for the lock while the owner of the mutex changes the capacities. -/
theorem RecipeInv.not_dequeueLock (hinv : RecipeInv s g) {q' : Queue (VecBuffer α)}
    {pc' : Pc α (List α)} {event : Event α}
    (hmove : Transition s.base.queue (s.base.pcs t) action q' pc' event)
    {capacities : Capacities} (hchanged : capacities.next event ≠ capacities) (t' : T)
    (resize : ResizeArgs α) : s.base.pcs t' ≠ .dequeueLock resize := by
  intro hlock
  have hthread := hinv.thread t
  have hdequeuing : s.controls t = .dequeuing ∧
      ∀ resize, s.base.pcs t ≠ .dequeueLock resize := by
    generalize s.base.pcs t = pc at hmove hthread
    cases hmove with
    | resize _ _ _ _ _ _ _ _ _ => exact ⟨hthread.dequeuing rfl fun _ => id, by simp⟩
    | swap _ _ _ => exact ⟨hthread.dequeuing rfl fun _ => id, by simp⟩
    | _ => exact absurd rfl hchanged
  have hsame : t' = t := by
    apply hinv.eq_of_dequeuing (by rw [hdequeuing.1]; rfl)
    · rw [hlock]
      rfl
    · rw [hlock]
      exact fun _ => id
  rw [hsame] at hlock
  exact hdequeuing.2 resize hlock

theorem RecipeInv.growthMove (hinv : RecipeInv s g) (hsim : Sim s.base g)
    (hcapacity : CapacityInv s.base) {bound : Nat}
    (hle : s.base.queue.capacities.enqueuing ≤ bound)
    (hbacklog : g.tail.length + (s.held g).length ≤ bound)
    (hcall : Calls s t (s.controls t) action control' overflow)
    {q' : Queue (VecBuffer α)} {pc' : Pc α (List α)} {event : Event α}
    (hmove : Transition s.base.queue (s.base.pcs t) action q' pc' event) :
    GrowthMove bound s.base t action event where
  call := by
    intro resize hresize
    obtain ⟨hcontrol, hrequest⟩ := hcall.resize_eq resize hresize
    refine ⟨_, hrequest, ?_, hinv.requested_le hsim hcapacity hcontrol hle hbacklog⟩
    rw [hinv.capacity_eq hcapacity hcontrol]
    exact Nat.le_add_right _ _
  resizes := hcall.ne_tryDequeue
  full := by
    intro attempt capacity next hpc hinserted
    have hthread := hsim.thread t
    rw [hpc] at hthread
    have hstaged := hthread.hidden.length_staged rfl
    apply hinv.full
    rw [Recipe.held, List.append_assoc]
    exact List.append_ne_nil_of_left_ne_nil
      (List.ne_nil_of_length_pos (hstaged ▸ hinserted)) _
  alone := hinv.not_dequeueLock hmove

variable [DecidableEq T] {start : Recipe T α}
variable {trace : List ((T × RecipeAction α) × RecipeEvent α)} {floor bound : Nat}

def resizeCount (trace : List ((T × Action α) × Event α)) : Nat :=
  (trace.map fun entry => entry.2.resizes).sum

/-- The values accepted and not consumed yet are never more than the bound. -/
def BacklogBounded (bound : Nat) (trace : List ((T × RecipeAction α) × RecipeEvent α)) :
    Prop :=
  ∀ first rest, first ++ rest = trace → (acceptedValues first).length ≤
    (consumedElements (baseTrace first)).length + bound

omit [DecidableEq T] in
theorem BacklogBounded.of_append {entry : (T × RecipeAction α) × RecipeEvent α}
    (hbacklog : BacklogBounded bound (trace ++ [entry])) : BacklogBounded bound trace := by
  rintro first rest rfl
  exact hbacklog first (rest ++ [entry]) (List.append_assoc _ _ _).symm

/-- What the queue holds behind its batch is part of the backlog. -/
theorem Recorded.tail_held_le (hrecorded : Recorded start trace s)
    (hsim : Sim s.base (Ledger.ofTrace (baseTrace trace)))
    (hbacklog : BacklogBounded bound trace) :
    (Ledger.ofTrace (baseTrace trace)).tail.length +
      (s.held (Ledger.ofTrace (baseTrace trace))).length ≤ bound := by
  have horder := congrArg List.length hrecorded.order
  rw [← hsim.shared.order, Ledger.consumed_ofTrace] at horder
  simp only [List.length_append, List.length_map] at horder
  have hle := hbacklog trace [] (List.append_nil _)
  omega

/-- The state of a run whose backlog is bounded. -/
structure Growing (start : Recipe T α) (floor bound : Nat)
    (trace : List ((T × RecipeAction α) × RecipeEvent α)) (s : Recipe T α) : Prop where
  run : Runs.Run recipeStep RecipeOk start trace s
  growth : GrowthInv floor bound s.base
  resizes : resizeCount (baseTrace trace) + 2 * floor ≤
    s.base.queue.capacities.enqueuing + s.base.queue.capacities.hidden

theorem Growing.moved (hgrowing : Growing start floor bound trace s) {s' : Recipe T α}
    {label : T × RecipeAction α} {event : RecipeEvent α}
    (hrun : Runs.Run recipeStep RecipeOk start (trace ++ [(label, event)]) s')
    (hevent : ∀ action shown, event ≠ .called action shown) (hbase : s'.base = s.base) :
    Growing start floor bound (trace ++ [(label, event)]) s' := by
  refine ⟨hrun, ?_, ?_⟩
  · rw [hbase]
    exact hgrowing.growth
  · rw [baseTrace_append_of_not_called _ _ hevent, hbase]
    exact hgrowing.resizes

theorem Recorded.called (hinitial : Initial start.base) {label : RecipeAction α}
    {event : Event α} {overflow : List (List α)} {mutex : Option T}
    {controls : T → Control α} {base : State T (VecBuffer α) α (List α)}
    (hrecorded : Recorded start (trace ++ [((t, label), .called action event)])
      ⟨base, mutex, overflow, controls⟩)
    (hstep : step s.base (t, action) = some (base, event)) :
    ∃ q' pc', Transition s.base.queue (s.base.pcs t) action q' pc' event ∧
      base = ⟨q', Function.update s.base.pcs t pc'⟩ ∧
      Sim (⟨q', Function.update s.base.pcs t pc'⟩ : State T (VecBuffer α) α (List α))
        ((Ledger.ofTrace (baseTrace trace)).next t event) ∧
      ∀ panic, pc' ≠ .panicked panic := by
  have hbase := hrecorded.base
  rw [baseTrace_append_called] at hbase
  have hargs := argsOk_of_run hinitial (fun _ _ h => h) hbase t
  have hsim := sim_of_run hinitial (fun _ _ h => h.size) hbase
  rw [Ledger.ofTrace_append_singleton] at hsim
  obtain ⟨q', pc', hmove, rfl⟩ := step_cases hstep
  refine ⟨q', pc', hmove, rfl, hsim, ?_⟩
  rintro panic rfl
  simp only [Function.update_self] at hargs
  exact hargs

/-- Every step of a run whose backlog stays bounded is one that `check_overflow` lets
pass. -/
theorem Growing.step (hinitial : RecipeInitial start) (hfloor : 0 < floor)
    (hlimit : checkOverflow bound = true) (hgrowing : Growing start floor bound trace s)
    {label : T × RecipeAction α} {event : RecipeEvent α} {s' : Recipe T α}
    (hstep : recipeStep s label = some (s', event))
    (hbacklog : BacklogBounded bound trace) :
    Growing start floor bound (trace ++ [(label, event)]) s' := by
  obtain ⟨t, action⟩ := label
  have hrecorded := recorded_of_run hinitial hgrowing.run
  have hinv := hrecorded.inv
  have hsim := sim_of_run hinitial.base (fun _ _ h => h.size) hrecorded.base
  have hcapacity := capacityInv_of_run hinitial.base
    (hrecorded.base.mono fun _ _ h => h.size)
  have hheld := hrecorded.tail_held_le hsim hbacklog
  have hok : RecipeOk s (t, action) := by
    intro hcontrol
    have hrequested := hinv.requested_le hsim hcapacity hcontrol
      hgrowing.growth.enqueuing_le hheld
    rw [checkOverflow_iff] at hlimit ⊢
    omega
  have hrun := hgrowing.run.snoc hok hstep
  have hrecorded' := recorded_of_run hinitial hrun
  cases recipeStep_cases hstep with
  | call hcontrol hlabel hcall hbase =>
      subst hcontrol
      obtain ⟨q', pc', hmove, rfl, hsim', hpanic⟩ := hrecorded'.called hinitial.base hbase
      obtain ⟨hgrowth, hsum⟩ := hgrowing.growth.step hfloor hsim hmove hsim' hpanic
        (hinv.growthMove hsim hcapacity hgrowing.growth.enqueuing_le hheld hcall hmove)
      refine ⟨hrun, hgrowth, ?_⟩
      rw [baseTrace_append_called, resizeCount, List.map_append, List.sum_append,
        List.map_singleton, List.sum_singleton]
      have hresizes := hgrowing.resizes
      rw [resizeCount] at hresizes
      change _ ≤ q'.capacities.enqueuing + q'.capacities.hidden
      simp only
      omega
  | move _ _ _ => exact hgrowing.moved hrun (by simp) rfl
  | acquire _ _ _ => exact hgrowing.moved hrun (by simp) rfl
  | push _ _ => exact hgrowing.moved hrun (by simp) rfl
  | unlock _ => exact hgrowing.moved hrun (by simp) rfl

theorem Growing.of_initial (hinitial : RecipeInitial start)
    (hbound : start.base.queue.capacity ≤ bound) :
    Growing start start.base.queue.capacity bound [] start := by
  obtain ⟨capacity, hcreated⟩ := Created.of_initial hinitial.base
  have hcapacities : start.base.queue.capacities =
      ⟨start.base.queue.capacity, start.base.queue.capacity⟩ := by
    rw [Queue.capacities, Queue.enqueuingBufferCapacity, hcreated.buffers_capacity,
      hcreated.buffers_capacity, hcreated.capacity_eq]
  refine ⟨.nil, ⟨?_, ?_, ?_, ?_, ?_⟩, ?_⟩
  · rw [hcapacities]
  · rw [hcapacities]
    exact hbound
  · rw [hcapacities]
    exact hbound
  · intro t
    rw [hinitial.base.2]
    exact trivial
  · rw [hcapacities]
    exact fun _ => le_rfl
  · rw [hcapacities]
    exact le_of_eq (by simp [resizeCount, baseTrace, Nat.two_mul])

/-- The recipe is amortized, when it starts with one cell or more.  As long as the backlog
stays within a bound that `check_overflow` accepts, no call panics, the buffers stay
within the bound, and the number of resizes is bounded however long the run is. -/
theorem unbounded_recipe_amortized (hinitial : RecipeInitial start)
    (hfloor : 0 < start.base.queue.capacity) (hbound : start.base.queue.capacity ≤ bound)
    (hlimit : checkOverflow bound = true)
    (hrun : Runs.Run recipeStep (fun _ _ => True) start trace s)
    (hbacklog : BacklogBounded bound trace) :
    Runs.Run recipeStep RecipeOk start trace s ∧
    (∀ t panic, s.base.pcs t ≠ .panicked panic) ∧
    (∀ i, Buffer.capacity (s.base.queue.buffers i) ≤ bound) ∧
    start.base.queue.capacity ≤ s.base.queue.enqueuingBufferCapacity ∧
    resizeCount (baseTrace trace) ≤ 2 * (bound - start.base.queue.capacity) := by
  have hgrowing : Growing start start.base.queue.capacity bound trace s := by
    revert hbacklog
    refine hrun.invariant (fun trace s => BacklogBounded bound trace →
      Growing start start.base.queue.capacity bound trace s) ?_ ?_
    · exact fun _ => Growing.of_initial hinitial hbound
    · intro trace state state' label event _ hstate _ hstep hbacklog
      exact (hstate hbacklog.of_append).step hinitial hfloor hlimit hstep hbacklog.of_append
  have hgrowth := hgrowing.growth
  have hargs := argsOk_of_run hinitial.base (fun _ _ h => h)
    (recorded_of_run hinitial hgrowing.run).base
  refine ⟨hgrowing.run, ?_, ?_, hgrowth.enqueuing_ge, ?_⟩
  · intro t panic hpanic
    have hpc := hargs t
    rw [hpanic] at hpc
    exact hpc
  · intro i
    by_cases hi : i = s.base.queue.enqueuingCapacity.bufferIndex
    · rw [hi]
      exact hgrowth.enqueuing_le
    · rw [eq_other_of_ne hi]
      exact hgrowth.hidden_le
  · have hresizes := hgrowing.resizes
    have hle := hgrowth.enqueuing_le
    have hle' := hgrowth.hidden_le
    omega

omit [DecidableEq T] in
theorem backlogBounded_of_take
    (htake : ∀ n ≤ trace.length, (acceptedValues (trace.take n)).length ≤
      (consumedElements (baseTrace (trace.take n))).length + bound) :
    BacklogBounded bound trace := by
  rintro first rest rfl
  have hfirst := htake first.length (by simp)
  rwa [List.take_left] at hfirst

end Recipe

/-- A value finds no room in a queue of one cell, and the dequeue makes it. -/
theorem unbounded_recipe_amortized_second_value :
    ∃ (start s : Recipe Nat Nat) (trace : _),
      RecipeInitial start ∧ 0 < start.base.queue.capacity ∧
      Runs.Run recipeStep (fun _ _ => True) start trace s ∧ BacklogBounded 2 trace ∧
      acceptedValues trace = [(0, 7), (0, 8)] ∧ s.base.queue.capacity = 2 ∧
      resizeCount (baseTrace trace) = 1 ∧
      resizeCount (baseTrace trace) ≤ 2 * (2 - start.base.queue.capacity) := by
  have hinitial : RecipeInitial (⟨State.ofQueue ((Queue.withCapacity 1).get
      (by decide +kernel)), none, [], fun _ => .outside⟩ : Recipe Nat Nat) :=
    ⟨initial_withCapacity (by decide +kernel), rfl, rfl, rfl⟩
  have hrun := Runs.run_of_isSome recipeStep (fun _ _ => True)
    (⟨State.ofQueue ((Queue.withCapacity 1).get (by decide +kernel)), none, [],
      fun _ => .outside⟩ : Recipe Nat Nat)
    (List.flatten [[(0, .enqueueUnbounded 7)], List.replicate 5 (0, .run false),
      [(0, .enqueueUnbounded 8)], List.replicate 8 (0, .run false),
      [(2, .tryDequeueUnbounded)], List.replicate 16 (2, .run false), [(2, .drop)],
      List.replicate 3 (2, .run false)])
    (by decide +kernel) (by decide +kernel)
  obtain ⟨trace, s, hrun, hbacklog, haccepted, hcapacity, hcount⟩ :
      ∃ trace s, Runs.Run recipeStep (fun _ _ => True) _ trace s ∧
        BacklogBounded 2 trace ∧ acceptedValues trace = [(0, 7), (0, 8)] ∧
        s.base.queue.capacity = 2 ∧ resizeCount (baseTrace trace) = 1 :=
    ⟨_, _, hrun, backlogBounded_of_take (by decide +kernel), by decide +kernel,
      by decide +kernel, by decide +kernel⟩
  obtain ⟨-, -, -, -, hresizes⟩ := unbounded_recipe_amortized hinitial (by decide +kernel)
    (by decide +kernel) (by decide +kernel) hrun hbacklog
  exact ⟨_, s, trace, hinitial, by decide +kernel, hrun, hbacklog, haccepted, hcapacity,
    hcount, hresizes⟩

end SwapBufferQueue
