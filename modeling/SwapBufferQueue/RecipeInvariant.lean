/-
What holds in every state of the amortized unbounded recipe: a value waits in the
overflow, or on its way to the hidden buffer, only while the enqueuing buffer is
full.  Only a swap makes room, and a swap happens under the mutex after the overflow
was drained.
-/
import SwapBufferQueue.Recipe
import SwapBufferQueue.Delivery

namespace SwapBufferQueue

universe u v w x

variable {T : Type x} {α : Type v}

section Threads

/-- The mutex is held while a thread is there. -/
def Control.locked : Control α → Bool
  | .retry _ => true
  | .secondTry _ => true
  | .push _ => true
  | .unlock => true
  | .dequeue => true
  | .dequeuing => true
  | _ => false

/-- The values drained from the overflow that are not staged yet. -/
def Pc.unstaged {σ : Type w} : Pc α σ → List α
  | .dequeueInsert _ _ values _ => values.flatten
  | _ => []

/-- The value an event stages in the hidden buffer. -/
def Event.stagedValue : Event α → List α
  | .staged _ value => value
  | _ => []

/-- A thread between two calls: idle, or with a slice or an iterator. -/
def Pc.resting {σ : Type w} : Pc α σ → Bool
  | .idle _ => true
  | .dequeueSlice _ _ _ => true
  | .slice _ _ _ _ => true
  | .iter _ _ _ => true
  | .releaseClear _ _ _ => true
  | .releaseLength _ => true
  | .storeDequeuing _ _ => true
  | _ => false

/-- A `try_enqueue` that was refused the value. -/
def Refused (value : α) (pc : Pc α (List α)) : Prop :=
  pc = .idle (some (.enqueueError (.insufficientCapacity [value])))

/-- A thread inside `try_enqueue`. -/
def Trying (value : α) (pc : Pc α (List α)) : Prop :=
  match pc with
  | .enqueueLoad values => values = [value]
  | .enqueueReserve values _ _ => values = [value]
  | .enqueueInsert values _ => values = [value]
  | .enqueueAcknowledge values _ => values = [value]
  | .idle last => last = some .enqueued ∨ Refused value (.idle last)
  | _ => False

/-- The arguments of `try_dequeue_unbounded` yield the overflow, which fits. -/
def Yields (resize : ResizeArgs α) (overflow : List (List α)) : Prop :=
  resize.insert = overflow ∧
    ∃ capacity ∈ resize.capacity, overflow.length ≤ capacity

/-- A thread inside `try_dequeue_and_resize`.  The overflow is drained once the hidden
buffer is being prepared. -/
def Draining (overflow : List (List α)) : Pc α (List α) → Prop
  | .idle _ => True
  | .dequeueLock resize => Yields resize overflow
  | .dequeueResize _ resize =>
      Yields resize overflow ∨ (resize = .none ∧ overflow = [])
  | .dequeueInsert _ _ _ _ => overflow = []
  | .dequeuePublish _ => overflow = []
  | .dequeueLoad _ => overflow = []
  | .dequeueSwap _ _ _ _ => overflow = []
  | .dequeueLoadCapacity _ _ _ => overflow = []
  | .dequeueStoreCapacity _ _ _ => overflow = []
  | .dequeueNotify _ _ _ => overflow = []
  | .dequeueSpin _ _ _ => True
  | .dequeueSlice _ _ _ => True
  | .slice _ _ _ _ => True
  | .storeDequeuing _ _ => True
  | _ => False

/-- What a thread knows at each place of the two functions.  Under the mutex a refused
value means a full buffer. -/
def RecipeThread (remaining : Nat) (overflow : List (List α)) (control : Control α)
    (pc : Pc α (List α)) : Prop :=
  match control with
  | .outside => pc.resting = true
  | .firstTry value => Trying value pc
  | .secondTry value => Trying value pc ∧ (Refused value pc → remaining = 0)
  | .push _ => pc.resting = true ∧ remaining = 0
  | .unlock => pc.resting = true
  | .dequeuing => Draining overflow pc
  | .lockOverflow _ => ∃ last, pc = .idle last
  | .retry _ => ∃ last, pc = .idle last
  | .lockDequeue => ∃ last, pc = .idle last
  | .dequeue => ∃ last, pc = .idle last

theorem RecipeThread.frame {remaining remaining' : Nat} {overflow overflow' : List (List α)}
    {control : Control α} {pc : Pc α (List α)}
    (hthread : RecipeThread remaining overflow control pc)
    (hremaining : control.locked = true → remaining = 0 → remaining' = 0)
    (hoverflow : control.locked = true → overflow' = overflow) :
    RecipeThread remaining' overflow' control pc := by
  cases control with
  | secondTry value =>
      exact ⟨hthread.1, fun hrefused => hremaining rfl (hthread.2 hrefused)⟩
  | push value => exact ⟨hthread.1, hremaining rfl hthread.2⟩
  | dequeuing =>
      rw [hoverflow rfl]
      exact hthread
  | _ => exact hthread

/-- Whatever else the queue does for a thread happens in `try_dequeue_and_resize`. -/
theorem RecipeThread.dequeuing {remaining : Nat} {overflow : List (List α)}
    {control : Control α} {pc : Pc α (List α)}
    (hthread : RecipeThread remaining overflow control pc)
    (hrest : pc.resting = false) (htrying : ∀ value, ¬ Trying value pc) :
    control = .dequeuing := by
  have hidle : ¬ ∃ last, pc = .idle last := by
    rintro ⟨last, rfl⟩
    cases hrest
  have hbusy : ¬ pc.resting = true := by simp [hrest]
  cases control with
  | outside => exact absurd hthread hbusy
  | firstTry value => exact absurd hthread (htrying value)
  | secondTry value => exact absurd hthread.1 (htrying value)
  | push _ => exact absurd hthread.1 hbusy
  | unlock => exact absurd hthread hbusy
  | dequeuing => rfl
  | _ => exact absurd hthread hidle

/-- Outside the mutex there is nothing between the overflow and the hidden buffer. -/
theorem RecipeThread.unstaged {remaining : Nat} {overflow : List (List α)}
    {control : Control α} {pc : Pc α (List α)}
    (hthread : RecipeThread remaining overflow control pc)
    (hcontrol : control ≠ .dequeuing) : pc.unstaged = [] := by
  cases pc with
  | dequeueInsert _ _ _ _ => exact absurd (hthread.dequeuing rfl fun _ => id) hcontrol
  | _ => rfl

end Threads

section Queue

variable {B : Type u} {σ : Type w} [Buffer B α σ]
variable {q q' : Queue B} {pc pc' : Pc α σ} {action : Action α} {event : Event α}

/-- Nothing but the operations of slices and iterators leads from rest to rest. -/
theorem Transition.resting (hmove : Transition q pc action q' pc' event)
    (hrest : pc.resting = true)
    (haction : action.onSlice = true ∨ ∃ spurious, action = .run spurious)
    (hargs : ArgsOk q' pc') : pc'.resting = true := by
  have hrequeue : ∀ i start stop, ArgsOk q' (requeueRange i start stop : Pc α σ) →
      (requeueRange i start stop : Pc α σ).resting = true := fun i start stop =>
    requeueRange_elim (P := fun pc => ArgsOk q' pc → pc.resting = true)
      (fun _ hargs => hargs.elim) (fun _ _ => rfl) fun _ _ => rfl
  cases hmove with
  | silent move =>
      cases move with
      | dropSlice _ _ _ _ => rfl
      | dropIter _ _ _ => exact hrequeue _ _ _ hargs
      | requeue _ _ _ _ => exact hrequeue _ _ _ hargs
      | intoIter _ _ _ _ => rfl
      | nextNone _ _ _ _ => rfl
      | intoSlice _ _ _ => rfl
      | withOwned _ _ _ => rfl
      | foreignOwner _ _ _ => exact hargs.elim
      | lockedAssert _ _ _ _ => exact hargs.elim
      | removeOutOfBounds _ _ _ _ _ => exact hargs.elim
      | sliceOutOfBounds _ _ _ _ _ => exact hargs.elim
      | clearOutOfBounds _ _ _ _ _ => exact hargs.elim
      | enqueueNothing _ => rfl
      | tryEnqueue _ _ _ => simp [Action.onSlice] at haction
      | tryDequeue _ => simp [Action.onSlice] at haction
      | tryDequeueAndResize _ _ => simp [Action.onSlice] at haction
      | _ => cases hrest
  | slice _ _ _ _ _ _ => rfl
  | remove _ _ _ _ _ _ _ => rfl
  | clear _ _ _ _ _ _ _ => rfl
  | release _ _ => rfl
  | unlock _ _ _ => rfl
  | close _ => rfl
  | reopen _ => rfl
  | _ => cases hrest

theorem unstaged_enqueueCheck (value : List α) (enqueuing : EnqueuingCapacity) :
    (enqueueCheck value enqueuing : Pc α σ).unstaged = [] :=
  enqueueCheck_elim (P := fun pc => pc.unstaged = []) (fun _ => rfl) (fun _ _ => rfl)
    fun _ _ _ => rfl

theorem unstaged_dequeueEntry (dequeuing : DequeuingLength) (resize : ResizeArgs α) :
    (dequeueEntry dequeuing resize : Pc α σ).unstaged = [] :=
  dequeueEntry_elim (P := fun pc => pc.unstaged = []) (fun _ => rfl) fun _ => rfl

theorem unstaged_dequeueFinish (attempt : Attempt) (capacity : Nat)
    (enqueuing : EnqueuingCapacity) :
    (dequeueFinish attempt capacity enqueuing : Pc α σ).unstaged = [] :=
  dequeueFinish_elim (P := fun pc => pc.unstaged = []) (fun _ => rfl) (fun _ => rfl)
    (fun _ _ => unstaged_dequeueEntry _ _) (fun _ _ _ => rfl) fun _ _ _ => rfl

theorem unstaged_requeueRange (i : Fin 2) (start stop : Nat) :
    (requeueRange i start stop : Pc α σ).unstaged = [] :=
  requeueRange_elim (P := fun pc => pc.unstaged = []) (fun _ => rfl) (fun _ => rfl)
    fun _ => rfl

/-- An unstaged value stays so or is staged, as long as what is to be staged fits. -/
theorem Transition.unstaged_eq (hmove : Transition q pc action q' pc' event)
    (hargs : ArgsOk q pc) (hargs' : ArgsOk q' pc')
    (hpc : ∀ dequeuing resize, pc = .dequeueResize dequeuing resize → resize.insert = []) :
    pc.unstaged = event.stagedValue ++ pc'.unstaged := by
  cases hmove with
  | silent move =>
      cases move with
      | enqueueLoad _ _ => exact (unstaged_enqueueCheck _ _).symm
      | enqueueRetry _ _ _ _ => exact (unstaged_enqueueCheck _ _).symm
      | keepCapacity dequeuing resize _ _ =>
          change [] = resize.insert.flatten
          rw [hpc dequeuing resize rfl]
          rfl
      | skipEmpty _ _ _ _ _ => rfl
      | stageEnd dequeuing resized values length spurious hvalues =>
          -- Nothing is left: a value that is too long would not fit.
          cases values with
          | nil => rfl
          | cons value rest =>
              have hlong := hvalues value rfl
              have hfits : length + (value :: rest).flatten.length ≤ _ := hargs
              rw [List.flatten_cons, List.length_append] at hfits
              omega
      | stageOutOfBounds _ _ _ _ _ _ _ => exact hargs'.elim
      | dequeueNotify _ _ _ _ => exact (unstaged_dequeueFinish _ _ _).symm
      | dropIter _ _ _ => exact (unstaged_requeueRange _ _ _).symm
      | requeue _ _ _ _ => exact (unstaged_requeueRange _ _ _).symm
      | _ => rfl
  | lock _ _ _ => exact (unstaged_dequeueEntry _ _).symm
  | resize dequeuing resize _ _ _ _ _ _ _ =>
      change [] = resize.insert.flatten
      rw [hpc dequeuing resize rfl]
      rfl
  | stage _ _ _ _ _ _ _ _ _ _ => exact List.flatten_cons
  | _ => rfl

end Queue

section Vectors

variable {q q' : Queue (VecBuffer α)} {pc pc' : Pc α (List α)} {event : Event α}
  {spurious : Bool}

/-- What the head of the reservation loop leads to while the queue is open. -/
theorem trying_enqueueCheck (value : α) {enqueuing : EnqueuingCapacity}
    (hopen : enqueuing.isClosed = false) :
    Trying value (enqueueCheck [value] enqueuing) ∧
      (Refused value (enqueueCheck [value] enqueuing) →
        enqueuing.remainingCapacity = 0) := by
  refine enqueueCheck_elim (P := fun pc => Trying value pc ∧
    (Refused value pc → enqueuing.remainingCapacity = 0)) ?_ ?_ ?_
  · intro hclosed
    rw [hopen] at hclosed
    cases hclosed
  · intro _ hnone
    refine ⟨Or.inr rfl, fun _ => ?_⟩
    have hlt := (EnqueuingCapacity.tryReserve_eq_none_iff hopen (by simp)).mp hnone
    exact Nat.lt_one_iff.mp hlt
  · intro next _ _
    refine ⟨rfl, fun hrefused => ?_⟩
    cases hrefused

theorem Transition.trying {value : α}
    (hmove : Transition q pc (.run spurious) q' pc' event) (htrying : Trying value pc)
    (hopen : q.enqueuingCapacity.isClosed = false) (hargs : ArgsOk q' pc') :
    Trying value pc' ∧
      (Refused value pc' → q'.enqueuingCapacity.remainingCapacity = 0) := by
  cases hmove with
  | silent move =>
      cases move with
      | enqueueLoad values _ =>
          rw [show values = [value] from htrying]
          exact trying_enqueueCheck value hopen
      | enqueueRetry values _ _ _ =>
          rw [show values = [value] from htrying]
          exact trying_enqueueCheck value hopen
      | indexUnderflow _ _ _ _ => exact hargs.elim
      | insertOutOfBounds _ _ _ _ => exact hargs.elim
      | _ => cases htrying
  | reserve _ _ => exact ⟨htrying, fun hrefused => by cases hrefused⟩
  | insert _ _ _ _ _ => exact ⟨htrying, fun hrefused => by cases hrefused⟩
  | acknowledge _ _ _ => exact ⟨Or.inl rfl, fun hrefused => by cases hrefused⟩
  | _ => cases htrying

theorem draining_dequeueEntry {overflow : List (List α)} (dequeuing : DequeuingLength)
    {resize : ResizeArgs α}
    (hresize : Yields resize overflow ∨ (resize = .none ∧ overflow = [])) :
    Draining overflow (dequeueEntry dequeuing resize) :=
  dequeueEntry_elim (P := Draining overflow) (fun _ => hresize) fun _ => trivial

theorem Transition.draining {overflow : List (List α)}
    (hmove : Transition q pc (.run spurious) q' pc' event)
    (hdraining : Draining overflow pc)
    (hkeep : ∀ dequeuing resize, pc = .dequeueResize dequeuing resize → overflow = [])
    (hargs : ArgsOk q' pc') : Draining overflow pc' := by
  cases hmove with
  | silent move =>
      cases move with
      | keepCapacity dequeuing resize _ _ => exact hkeep dequeuing resize rfl
      | capacityOverflow _ _ _ _ _ _ => exact hargs.elim
      | skipEmpty _ _ _ _ _ => exact hdraining
      | stageEnd _ _ _ _ _ _ => exact hdraining
      | stageOutOfBounds _ _ _ _ _ _ _ => exact hargs.elim
      | publishNothing _ _ _ => exact hdraining
      | bufferIndexAssert _ _ _ => exact hargs.elim
      | nextCapacityUnderflow _ _ _ => exact hargs.elim
      | enqueuingCapacityAssert _ _ _ _ => exact hargs.elim
      | dequeueLoad _ _ _ _ _ _ _ => exact hdraining
      | swapRetry _ _ _ _ _ => exact hdraining
      | capacityDiffers _ _ _ _ _ => exact hdraining
      | capacitySame _ _ _ _ _ => exact hdraining
      | dequeueNotify attempt capacity enqueuing _ =>
          refine dequeueFinish_elim (P := fun pc => ArgsOk q pc → Draining overflow pc)
            (fun _ hargs => hargs.elim) (fun _ _ => trivial) ?_ (fun _ _ _ _ => trivial)
            (fun _ _ _ hargs => hargs.elim) hargs
          intro _ _ _
          exact draining_dequeueEntry _ (Or.inr ⟨rfl, hdraining⟩)
      | spinDone _ _ _ _ _ => exact trivial
      | spinAgain _ _ _ _ _ _ => exact trivial
      | spinPending _ _ _ _ _ _ => exact trivial
      | sliceOutOfBounds _ _ _ _ _ => exact hargs.elim
      | _ => cases hdraining
  | conflict _ _ _ => exact trivial
  | lock resize _ _ => exact draining_dequeueEntry _ (Or.inl hdraining)
  | resize dequeuing resize _ _ _ _ _ _ _ => exact hkeep dequeuing resize rfl
  | stage _ _ _ _ _ _ _ _ _ _ => exact hdraining
  | publish _ _ _ => exact hdraining
  | foundEmpty _ _ _ _ _ _ => exact trivial
  | swap _ _ _ => exact hdraining
  | storeCapacity _ _ _ _ => exact hdraining
  | slice _ _ _ _ _ _ => exact trivial
  | unlock _ _ _ => exact trivial
  | _ => cases hdraining

theorem Transition.draining_drain {dequeuing : DequeuingLength} {resize : ResizeArgs α}
    (hmove : Transition q (.dequeueResize dequeuing resize) (.run spurious) q' pc' event)
    (hargs : ArgsOk q' pc') :
    Draining [] pc' ∧ pc'.unstaged = resize.insert.flatten := by
  cases hmove with
  | silent move =>
      cases move with
      | keepCapacity _ _ _ _ => exact ⟨rfl, rfl⟩
      | capacityOverflow _ _ _ _ _ _ => exact hargs.elim
  | resize _ _ _ _ _ _ _ _ _ => exact ⟨rfl, rfl⟩

end Vectors

section Invariant

/-- What is between the overflow and the hidden buffer. -/
def Recipe.moving (s : Recipe T α) : List α :=
  match s.mutex with
  | none => []
  | some t => (s.base.pcs t).unstaged

/-- The values that wait for the next swap: staged, moving, in the overflow. -/
def Recipe.held (s : Recipe T α) (g : Ledger T α) : List α :=
  g.staged ++ s.moving ++ s.overflow.flatten

/-- A value waits only behind a full buffer. -/
structure RecipeInv (s : Recipe T α) (g : Ledger T α) : Prop where
  thread (t : T) : RecipeThread s.base.queue.enqueuingCapacity.remainingCapacity
    s.overflow (s.controls t) (s.base.pcs t)
  mutex (t : T) : s.mutex = some t ↔ (s.controls t).locked = true
  single : ∀ value ∈ s.overflow, value.length = 1
  isOpen : s.base.queue.enqueuingCapacity.isClosed = false
  full : s.held g ≠ [] → s.base.queue.enqueuingCapacity.remainingCapacity = 0

variable {s : Recipe T α} {g : Ledger T α} {t : T}

theorem RecipeInv.unstaged (hinv : RecipeInv s g)
    (hlocked : (s.controls t).locked = false) : (s.base.pcs t).unstaged = [] := by
  apply (hinv.thread t).unstaged
  intro hcontrol
  rw [hcontrol] at hlocked
  cases hlocked

theorem RecipeInv.moving_of_locked (hinv : RecipeInv s g)
    (hlocked : (s.controls t).locked = true) :
    s.moving = (s.base.pcs t).unstaged := by
  rw [Recipe.moving, (hinv.mutex t).mpr hlocked]

theorem RecipeInv.exclusive (hinv : RecipeInv s g) {t' : T}
    (hlocked : (s.controls t).locked = true) (hlocked' : (s.controls t').locked = true) :
    t = t' :=
  Option.some.inj (((hinv.mutex t).mpr hlocked).symm.trans ((hinv.mutex t').mpr hlocked'))

/-- Only the owner of the mutex swaps. -/
theorem RecipeInv.dequeuing_of_swapped (hinv : RecipeInv s g) {action : Action α}
    {q' : Queue (VecBuffer α)} {pc' : Pc α (List α)} {i : Fin 2}
    (hmove : Transition s.base.queue (s.base.pcs t) action q' pc' (.swapped i)) :
    s.controls t = .dequeuing ∧ s.overflow = [] ∧ s.moving = [] := by
  have hthread := hinv.thread t
  have hmoving := hinv.moving_of_locked (t := t)
  generalize s.base.pcs t = pc at hmove hthread hmoving
  cases hmove with
  | swap _ _ _ =>
      have hcontrol := hthread.dequeuing rfl fun _ => id
      rw [hcontrol] at hthread hmoving
      exact ⟨hcontrol, hthread, hmoving rfl⟩

end Invariant

section Call

variable {s : Recipe T α} {g : Ledger T α} {t : T} {control control' : Control α}
  {action : Action α} {overflow : List (List α)}

theorem Calls.locked (hcall : Calls s t control action control' overflow) :
    control'.locked = control.locked := by
  cases hcall <;> rfl

theorem Calls.ne_close (hcall : Calls s t control action control' overflow) :
    action ≠ .close := by
  rintro rfl
  cases hcall with
  | slice _ haction => cases haction

theorem Calls.length_value (hcall : Calls s t control action control' overflow) :
    ∀ value ∈ action.value?, value.length = 1 := by
  intro value hvalue
  cases hcall with
  | enqueue _ =>
      cases hvalue
      rfl
  | retry _ =>
      cases hvalue
      rfl
  | slice action haction =>
      cases action with
      | tryEnqueue _ => cases haction
      | _ => cases hvalue
  | _ => cases hvalue

theorem Calls.resize_eq (hcall : Calls s t control action control' overflow) :
    ∀ resize ∈ action.resize?, control = .dequeue ∧
      resize.capacity = some (s.base.queue.capacity + s.overflow.length) := by
  intro resize hresize
  cases hcall with
  | dequeue =>
      cases hresize
      exact ⟨rfl, rfl⟩
  | slice action haction =>
      cases action with
      | tryDequeueAndResize _ => cases haction
      | _ => cases hresize
  | _ => cases hresize

/-- A call drains the overflow, or leaves it alone and has nothing to insert. -/
theorem RecipeInv.drains (hinv : RecipeInv s g)
    (hcall : Calls s t (s.controls t) action control' overflow) :
    (overflow = s.overflow ∧ ∀ dequeuing resize,
        s.base.pcs t = .dequeueResize dequeuing resize →
          resize.insert = [] ∧ s.overflow = []) ∨
      (overflow = [] ∧ s.controls t = .dequeuing ∧ (∃ spurious, action = .run spurious) ∧
        ∃ dequeuing resize, s.base.pcs t = .dequeueResize dequeuing resize ∧
          Yields resize s.overflow) := by
  have hthread := hinv.thread t
  by_cases hcontrol : s.controls t = .dequeuing
  · rw [hcontrol] at hcall hthread
    cases hcall with
    | drain spurious dequeuing resize hpc hsome =>
        refine Or.inr ⟨rfl, hcontrol, ⟨spurious, rfl⟩, dequeuing, resize, hpc, ?_⟩
        rw [hpc] at hthread
        rcases hthread with hyields | ⟨rfl, -⟩
        · exact hyields
        · cases hsome
    | dequeuing spurious hpc =>
        refine Or.inl ⟨rfl, ?_⟩
        intro dequeuing resize hresize
        rw [hresize] at hthread
        rcases hthread with ⟨-, capacity, hcapacity, -⟩ | ⟨rfl, hnil⟩
        · rw [hpc dequeuing resize hresize] at hcapacity
          cases hcapacity
        · exact ⟨rfl, hnil⟩
  · refine Or.inl ⟨?_, ?_⟩
    · generalize s.controls t = control at hcall hcontrol
      cases hcall with
      | drain _ _ _ _ _ => exact absurd rfl hcontrol
      | _ => rfl
    · intro dequeuing resize hpc
      rw [hpc] at hthread
      exact absurd (hthread.dequeuing rfl fun _ => id) hcontrol

variable {q' : Queue (VecBuffer α)} {pc' : Pc α (List α)} {event : Event α}

theorem RecipeInv.thread_call (hinv : RecipeInv s g)
    (hcall : Calls s t (s.controls t) action control' overflow)
    (hmove : Transition s.base.queue (s.base.pcs t) action q' pc' event)
    (hargs : ArgsOk q' pc') :
    RecipeThread q'.enqueuingCapacity.remainingCapacity overflow control' pc' := by
  have hthread := hinv.thread t
  have hdrains := hinv.drains hcall
  generalize s.controls t = control at hcall hthread hdrains
  cases hcall with
  | enqueue value =>
      generalize s.base.pcs t = pc at hmove
      cases hmove with
      | silent move =>
          cases move with
          | tryEnqueue _ _ _ => exact rfl
  | slice action haction => exact hmove.resting hthread (Or.inl haction) hargs
  | release spurious => exact hmove.resting hthread (Or.inr ⟨spurious, rfl⟩) hargs
  | firstTry value spurious => exact (hmove.trying hthread hinv.isOpen hargs).1
  | retry value =>
      generalize s.base.pcs t = pc at hmove
      cases hmove with
      | silent move =>
          cases move with
          | tryEnqueue _ _ _ => exact ⟨rfl, fun hrefused => by cases hrefused⟩
  | secondTry value spurious => exact hmove.trying hthread.1 hinv.isOpen hargs
  | dequeue =>
      generalize s.base.pcs t = pc at hmove
      cases hmove with
      | silent move =>
          cases move with
          | tryDequeueAndResize _ _ => exact ⟨rfl, _, rfl, Nat.le_add_left _ _⟩
  | drain spurious dequeuing resize hpc hsome =>
      rw [hpc] at hmove
      exact (hmove.draining_drain hargs).1
  | dequeuing spurious hpc =>
      refine hmove.draining hthread ?_ hargs
      rcases hdrains with ⟨-, hkeep⟩ | ⟨hnil, -⟩
      · exact fun dequeuing resize h => (hkeep dequeuing resize h).2
      · exact fun _ _ _ => hnil

theorem Transition.remaining_le {B : Type u} {σ : Type w} [Buffer B α σ] [LawfulBuffer B]
    {q q' : Queue B} {pc pc' : Pc α σ}
    (hmove : Transition q pc action q' pc' event) (hthread : ThreadInv q g t pc)
    (hswap : ∀ i, event ≠ .swapped i) :
    q'.enqueuingCapacity.remainingCapacity ≤ q.enqueuingCapacity.remainingCapacity := by
  cases hmove with
  | reserve value next =>
      obtain ⟨-, hsize, hopen, hnext⟩ := hthread
      have hspec := (EnqueuingCapacity.tryReserve_eq_some_iff hopen hsize).mp hnext
      change next.remainingCapacity ≤ _
      rw [hspec.2.2.1]
      exact Nat.sub_le _ _
  | swap attempt _ _ => exact absurd rfl (hswap attempt.dequeuing.bufferIndex)
  | close _ => exact le_of_eq (EnqueuingCapacity.close_spec _).2.1
  | reopen _ => exact le_of_eq (EnqueuingCapacity.reopen_spec _).2.1
  | _ => exact le_rfl

theorem Transition.remaining_pos {B : Type u} {σ : Type w} [Buffer B α σ]
    [LawfulBuffer B] {q q' : Queue B} {pc pc' : Pc α σ} {i : Fin 2} {value : List α}
    (hmove : Transition q pc action q' pc' (.reserved i value))
    (hthread : ThreadInv q g t pc) : 0 < q.enqueuingCapacity.remainingCapacity := by
  cases hmove with
  | reserve _ next =>
      obtain ⟨hne, hsize, hopen, hnext⟩ := hthread
      have hspec := (EnqueuingCapacity.tryReserve_eq_some_iff hopen hsize).mp hnext
      exact Nat.lt_of_lt_of_le (List.length_pos_iff.mpr hne) hspec.1

section Effect

variable [DecidableEq T]

def Recipe.called (s : Recipe T α) (t : T) (control' : Control α)
    (overflow : List (List α)) (q' : Queue (VecBuffer α)) (pc' : Pc α (List α)) :
    Recipe T α :=
  { s with
    base := ⟨q', Function.update s.base.pcs t pc'⟩
    overflow := overflow
    controls := Function.update s.controls t control' }

theorem Recipe.moving_called (hmutex : s.mutex = some t) :
    (s.called t control' overflow q' pc').moving = pc'.unstaged := by
  simp [Recipe.moving, Recipe.called, hmutex]

/-- A call that does not swap only moves values on their way to the swap. -/
theorem RecipeInv.held_call (hinv : RecipeInv s g) (hsim : Sim s.base g)
    (hcall : Calls s t (s.controls t) action control' overflow)
    (hmove : Transition s.base.queue (s.base.pcs t) action q' pc' event)
    (hargs : ArgsOk s.base.queue (s.base.pcs t)) (hargs' : ArgsOk q' pc')
    (hswap : ∀ i, event ≠ .swapped i) :
    (s.called t control' overflow q' pc').held (g.next t event) = s.held g := by
  have hstaged : (g.next t event).staged = g.staged ++ event.stagedValue := by
    have hview := congrArg View.staged (hsim.view_step hmove)
    refine hview.trans ?_
    cases event with
    | staged _ _ => rfl
    | swapped i => exact absurd rfl (hswap i)
    | _ => exact (List.append_nil _).symm
  suffices hrest : s.moving ++ s.overflow.flatten = event.stagedValue ++
      ((s.called t control' overflow q' pc').moving ++ overflow.flatten) by
    rw [Recipe.held, Recipe.held, hstaged, List.append_assoc g.staged s.moving, hrest]
    simp only [List.append_assoc]
    rfl
  have hunstaged := hmove.unstaged_eq hargs hargs'
  rcases hinv.drains hcall with ⟨rfl, hkeep⟩ | ⟨rfl, hcontrol, ⟨spurious, rfl⟩, hdrain⟩
  · have hpc := hunstaged fun dequeuing resize h => (hkeep dequeuing resize h).1
    suffices hmoving : s.moving = event.stagedValue ++
        (s.called t control' s.overflow q' pc').moving by
      rw [hmoving, List.append_assoc]
    cases hlocked : (s.controls t).locked with
    | true =>
        have hmutex := (hinv.mutex t).mpr hlocked
        rw [hinv.moving_of_locked hlocked, hpc, Recipe.moving_called hmutex]
    | false =>
        rw [hinv.unstaged hlocked] at hpc
        obtain ⟨hnone, -⟩ := List.append_eq_nil_iff.mp hpc.symm
        rw [hnone, List.nil_append]
        cases hmutex : s.mutex with
        | none => simp [Recipe.moving, Recipe.called, hmutex]
        | some owner =>
            have hne : owner ≠ t := by
              rintro rfl
              rw [(hinv.mutex owner).mp hmutex] at hlocked
              cases hlocked
            simp [Recipe.moving, Recipe.called, hmutex, hne]
  · obtain ⟨dequeuing, resize, hpc, hyields, -⟩ := hdrain
    have hlocked : (s.controls t).locked = true := by
      rw [hcontrol]
      rfl
    have hmutex := (hinv.mutex t).mpr hlocked
    rw [hinv.moving_of_locked hlocked]
    rw [hpc] at hmove ⊢
    obtain ⟨-, hmoved⟩ := hmove.draining_drain hargs'
    have hvalue : event.stagedValue = [] := by
      cases hmove with
      | silent _ => rfl
      | resize _ _ _ _ _ _ _ _ _ => rfl
    rw [Recipe.moving_called hmutex, hmoved, hyields, hvalue]
    exact (List.append_nil _).symm

/-- A swap leaves nothing behind. -/
theorem RecipeInv.held_swapped (hinv : RecipeInv s g) (hsim : Sim s.base g) {i : Fin 2}
    (hcall : Calls s t (s.controls t) action control' overflow)
    (hmove : Transition s.base.queue (s.base.pcs t) action q' pc' (.swapped i)) :
    s.held g = g.staged ∧
      (s.called t control' overflow q' pc').held (g.next t (.swapped i)) = [] := by
  obtain ⟨hcontrol, hoverflow, hmoving⟩ := hinv.dequeuing_of_swapped hmove
  have hmutex : s.mutex = some t := by
    rw [hinv.mutex, hcontrol]
    rfl
  have hstaged : (g.next t (.swapped i)).staged = [] :=
    congrArg View.staged (hsim.view_step hmove)
  have hmoved : pc'.unstaged = [] := by
    generalize s.base.pcs t = pc at hmove
    cases hmove with
    | swap _ _ _ => rfl
  have hnil : overflow = [] := by
    rcases hinv.drains hcall with ⟨hkeep, -⟩ | ⟨hnil, -⟩
    · rw [hkeep, hoverflow]
    · exact hnil
  constructor
  · simp [Recipe.held, hoverflow, hmoving]
  · simp only [Recipe.held, hstaged, Recipe.moving_called hmutex, hmoved]
    simp [Recipe.called, hnil]

theorem RecipeInv.call (hinv : RecipeInv s g) (hsim : Sim s.base g)
    (hcall : Calls s t (s.controls t) action control' overflow)
    (hmove : Transition s.base.queue (s.base.pcs t) action q' pc' event)
    (hsim' : Sim (s.called t control' overflow q' pc').base (g.next t event))
    (hargs : ArgsOk s.base.queue (s.base.pcs t)) (hargs' : ArgsOk q' pc') :
    RecipeInv (s.called t control' overflow q' pc') (g.next t event) := by
  -- A swap and a drain are made by the owner of the mutex.
  have hothers : ∀ t', t' ≠ t → (s.controls t').locked = true →
      overflow = s.overflow ∧ ∀ i, event ≠ .swapped i := by
    intro t' hne hlocked
    have hdequeuing : ¬ s.controls t = .dequeuing := by
      intro hcontrol
      exact hne (hinv.exclusive hlocked (by rw [hcontrol]; rfl))
    constructor
    · rcases hinv.drains hcall with ⟨hkeep, -⟩ | ⟨-, hcontrol, -⟩
      · exact hkeep
      · exact absurd hcontrol hdequeuing
    · rintro i rfl
      exact hdequeuing (hinv.dequeuing_of_swapped hmove).1
  have hremaining := hmove.remaining_le (hsim.thread t)
  constructor
  · intro t'
    change RecipeThread q'.enqueuingCapacity.remainingCapacity overflow
      (Function.update s.controls t control' t') (Function.update s.base.pcs t pc' t')
    by_cases ht' : t' = t
    · subst ht'
      rw [Function.update_self, Function.update_self]
      exact hinv.thread_call hcall hmove hargs'
    · rw [Function.update_of_ne ht', Function.update_of_ne ht']
      refine (hinv.thread t').frame ?_ fun hlocked => (hothers t' ht' hlocked).1
      intro hlocked hzero
      have hle := hremaining (hothers t' ht' hlocked).2
      omega
  · intro t'
    change s.mutex = some t' ↔ (Function.update s.controls t control' t').locked = true
    rw [hinv.mutex t']
    by_cases ht' : t' = t
    · subst ht'
      rw [Function.update_self, hcall.locked]
    · rw [Function.update_of_ne ht']
  · intro value hvalue
    change value ∈ overflow at hvalue
    rcases hinv.drains hcall with ⟨hkeep, -⟩ | ⟨hnil, -⟩
    · rw [hkeep] at hvalue
      exact hinv.single value hvalue
    · rw [hnil] at hvalue
      cases hvalue
  · rw [← hsim'.shared.closed]
    have hclosed : g.closed = false := hsim.shared.closed.trans hinv.isOpen
    cases event with
    | closed =>
        generalize s.base.pcs t = pc at hmove
        cases hmove with
        | close _ => exact absurd rfl hcall.ne_close
    | reopened => rfl
    | _ => exact hclosed
  · intro hheld
    change q'.enqueuingCapacity.remainingCapacity = 0
    by_cases hswap : ∃ i, event = .swapped i
    · obtain ⟨i, rfl⟩ := hswap
      exact absurd (hinv.held_swapped hsim hcall hmove).2 hheld
    · rw [not_exists] at hswap
      rw [hinv.held_call hsim hcall hmove hargs hargs' hswap] at hheld
      have hzero := hinv.full hheld
      have hle := hremaining hswap
      omega

end Effect

end Call

section Moves

variable [DecidableEq T] {s : Recipe T α} {g : Ledger T α} {t : T}

/-- A thread that only moves keeps the invariant when its new place asks for no more
than is known. -/
theorem RecipeInv.moved (hinv : RecipeInv s g) {control' : Control α}
    {mutex' : Option T} {overflow' : List (List α)}
    (hthread : RecipeThread s.base.queue.enqueuingCapacity.remainingCapacity overflow'
      control' (s.base.pcs t))
    (hmutex : ∀ t', mutex' = some t' ↔
      (Function.update s.controls t control' t').locked = true)
    (hothers : ∀ t', t' ≠ t → (s.controls t').locked = true → overflow' = s.overflow)
    (hsingle : ∀ value ∈ overflow', value.length = 1)
    (hfull : Recipe.held ⟨s.base, mutex', overflow', s.controls⟩ g ≠ [] →
      s.base.queue.enqueuingCapacity.remainingCapacity = 0) :
    RecipeInv ⟨s.base, mutex', overflow', Function.update s.controls t control'⟩ g := by
  refine ⟨?_, hmutex, hsingle, hinv.isOpen, hfull⟩
  intro t'
  change RecipeThread _ overflow' (Function.update s.controls t control' t') _
  by_cases ht' : t' = t
  · subst ht'
    rw [Function.update_self]
    exact hthread
  · rw [Function.update_of_ne ht']
    exact (hinv.thread t').frame (fun _ hzero => hzero) (hothers t' ht')

/-- The mutex stays with its owner when a thread moves to a place that needs it as
much as the one before. -/
theorem RecipeInv.mutex_of_locked_eq (hinv : RecipeInv s g) {control' : Control α}
    (hlocked : control'.locked = (s.controls t).locked) (t' : T) :
    s.mutex = some t' ↔ (Function.update s.controls t control' t').locked = true := by
  rw [hinv.mutex t']
  by_cases ht' : t' = t
  · subst ht'
    rw [Function.update_self, hlocked]
  · rw [Function.update_of_ne ht']

theorem Returns.locked {pc : Pc α (List α)} {control control' : Control α}
    (hreturns : Returns pc control control') : control'.locked = control.locked := by
  cases hreturns <;> rfl

theorem Returns.thread {remaining : Nat} {overflow : List (List α)}
    {pc : Pc α (List α)} {control control' : Control α}
    (hreturns : Returns pc control control')
    (hthread : RecipeThread remaining overflow control pc) :
    RecipeThread remaining overflow control' pc := by
  cases hreturns with
  | lockDequeue last hpc => exact ⟨last, hpc⟩
  | refused value values hpc => exact ⟨_, hpc⟩
  | returned value last hpc _ =>
      rw [hpc]
      rfl
  | refusedAgain value values hpc =>
      subst hpc
      obtain ⟨htrying, hzero⟩ := hthread
      refine ⟨rfl, hzero ?_⟩
      rcases htrying with hcontra | hrefused
      · cases hcontra
      · exact hrefused
  | returnedAgain value last hpc _ =>
      rw [hpc]
      rfl
  | dequeued hpc =>
      obtain ⟨last, rfl⟩ | ⟨i, start, stop, slice, rfl⟩ := hpc
      · rfl
      · rfl

theorem RecipeInv.move (hinv : RecipeInv s g) {control' : Control α}
    (hreturns : Returns (s.base.pcs t) (s.controls t) control') :
    RecipeInv { s with controls := Function.update s.controls t control' } g :=
  hinv.moved (hreturns.thread (hinv.thread t)) (hinv.mutex_of_locked_eq hreturns.locked)
    (fun _ _ _ => rfl) hinv.single hinv.full

theorem RecipeInv.acquire (hinv : RecipeInv s g) {control' : Control α}
    (hfree : s.mutex = none) (hlocks : Locks (s.controls t) control') :
    RecipeInv { s with
      mutex := some t
      controls := Function.update s.controls t control' } g ∧
    Recipe.moving { s with mutex := some t } = s.moving := by
  have hunlocked : ∀ t', (s.controls t').locked = false := by
    intro t'
    refine Bool.eq_false_iff.mpr fun hlocked => ?_
    rw [← hinv.mutex t', hfree] at hlocked
    cases hlocked
  have hidle : RecipeThread s.base.queue.enqueuingCapacity.remainingCapacity s.overflow
      control' (s.base.pcs t) ∧ control'.locked = true := by
    have hthread := hinv.thread t
    generalize s.controls t = control at hlocks hthread
    cases hlocks with
    | enqueue value => exact ⟨hthread, rfl⟩
    | dequeue => exact ⟨hthread, rfl⟩
  have hmoving : Recipe.moving { s with mutex := some t } = s.moving := by
    change (s.base.pcs t).unstaged = s.moving
    rw [hinv.unstaged (hunlocked t), Recipe.moving, hfree]
  refine ⟨hinv.moved hidle.1 ?_ (fun _ _ _ => rfl) hinv.single ?_, hmoving⟩
  · intro t'
    by_cases ht' : t' = t
    · subst ht'
      simp [hidle.2]
    · rw [Function.update_of_ne ht', hunlocked t']
      simp [Ne.symm ht']
  · intro hheld
    apply hinv.full
    rwa [Recipe.held, ← hmoving]

theorem RecipeInv.push (hinv : RecipeInv s g) {value : α}
    (hcontrol : s.controls t = .push value) :
    RecipeInv { s with
      overflow := s.overflow ++ [[value]]
      controls := Function.update s.controls t .unlock } g := by
  have hthread := hinv.thread t
  rw [hcontrol] at hthread
  have hlocked : (s.controls t).locked = true := by
    rw [hcontrol]
    rfl
  refine hinv.moved hthread.1 (hinv.mutex_of_locked_eq hlocked.symm) ?_ ?_ fun _ => hthread.2
  · intro t' ht' hlocked'
    exact absurd (hinv.exclusive hlocked' hlocked) ht'
  · intro entry hentry
    rw [List.mem_append, List.mem_singleton] at hentry
    rcases hentry with hentry | rfl
    · exact hinv.single entry hentry
    · rfl

theorem RecipeInv.unlock (hinv : RecipeInv s g) (hcontrol : s.controls t = .unlock) :
    RecipeInv { s with
      mutex := none
      controls := Function.update s.controls t .outside } g ∧ s.moving = [] := by
  have hthread := hinv.thread t
  have hlocked : (s.controls t).locked = true := by
    rw [hcontrol]
    rfl
  have hmoving : s.moving = [] := by
    rw [hinv.moving_of_locked hlocked]
    apply hthread.unstaged
    simp [hcontrol]
  rw [hcontrol] at hthread
  refine ⟨hinv.moved hthread ?_ (fun _ _ _ => rfl) hinv.single ?_, hmoving⟩
  · intro t'
    by_cases ht' : t' = t
    · subst ht'
      simp [Control.locked]
    · rw [Function.update_of_ne ht', ← hinv.mutex t', (hinv.mutex t).mpr hlocked]
      simp [Ne.symm ht']
  · intro hheld
    apply hinv.full
    rwa [Recipe.held, hmoving]

end Moves

end SwapBufferQueue
