/-
The amortized unbounded recipe of the documentation: `enqueue_unbounded` and
`try_dequeue_unbounded` over a `Queue<VecBuffer<T>>` and an overflow vector behind a
mutex.  Taking the mutex, pushing and giving it back are steps of their own; the calls
of the queue are the steps of the machine.
-/
import SwapBufferQueue.Transitions
import SwapBufferQueue.CellBuffer

namespace SwapBufferQueue

universe v x

/-- Where a thread is in `enqueue_unbounded` or `try_dequeue_unbounded`. -/
inductive Control (α : Type v) where
  | outside
  | firstTry (value : α)
  | lockOverflow (value : α)
  | retry (value : α)
  | secondTry (value : α)
  | push (value : α)
  | unlock
  | lockDequeue
  | dequeue
  | dequeuing
deriving Repr, DecidableEq

/-- A call of one of the two functions, of an operation of a slice or an iterator, or
the next step of the call a thread is in. -/
inductive RecipeAction (α : Type v) where
  | enqueueUnbounded (value : α)
  | tryDequeueUnbounded
  | drop
  | requeue
  | intoIter
  | next
  | intoSlice
  | run (spurious : Bool)
deriving Repr, DecidableEq

/-- A step of the queue with what it shows there, a push on the overflow, or neither. -/
inductive RecipeEvent (α : Type v) where
  | called (action : Action α) (event : Event α)
  | pushed (value : α)
  | silent
deriving Repr, DecidableEq

/-- The queue, the overflow with its mutex, and the threads. -/
structure Recipe (T : Type x) (α : Type v) where
  base : State T (VecBuffer α) α (List α)
  mutex : Option T
  overflow : List (List α)
  controls : T → Control α

variable {T : Type x} {α : Type v}

section Steps

variable [DecidableEq T]

def Recipe.move (s : Recipe T α) (t : T) (control : Control α) :
    Option (Recipe T α × RecipeEvent α) :=
  some ({ s with controls := Function.update s.controls t control }, .silent)

/-- `overflow.lock()`: the thread waits until the mutex is free. -/
def Recipe.acquire (s : Recipe T α) (t : T) (control : Control α) :
    Option (Recipe T α × RecipeEvent α) :=
  match s.mutex with
  | none => some ({ s with
      mutex := some t
      controls := Function.update s.controls t control }, .silent)
  | some _ => none

def Recipe.call (s : Recipe T α) (t : T) (action : Action α) (control : Control α)
    (overflow : List (List α)) : Option (Recipe T α × RecipeEvent α) :=
  match step s.base (t, action) with
  | none => none
  | some (base, event) =>
      some ({ s with
        base := base
        overflow := overflow
        controls := Function.update s.controls t control }, .called action event)

/-- A thread inside `try_enqueue` goes on; a refused value is kept for what follows. -/
def Recipe.tryEnqueue (s : Recipe T α) (t : T) (spurious : Bool)
    (control refused returned : Control α) : Option (Recipe T α × RecipeEvent α) :=
  match s.base.pcs t with
  | .idle (some (.enqueueError (.insufficientCapacity _))) => s.move t refused
  | .idle _ => s.move t returned
  | _ => s.call t (.run spurious) control s.overflow

/-- A thread inside `try_dequeue_and_resize` goes on.  The insert closure drains the
overflow when it is called, which the second attempt of a call does not do. -/
def Recipe.tryDequeueAndResize (s : Recipe T α) (t : T) (spurious : Bool) :
    Option (Recipe T α × RecipeEvent α) :=
  match s.base.pcs t with
  | .idle _ => s.move t .unlock
  | .slice _ _ _ _ => s.move t .unlock
  | .dequeueResize _ resize =>
      s.call t (.run spurious) .dequeuing
        (if resize.capacity.isSome then [] else s.overflow)
  | _ => s.call t (.run spurious) .dequeuing s.overflow

def recipeStep (s : Recipe T α) (label : T × RecipeAction α) :
    Option (Recipe T α × RecipeEvent α) :=
  let t := label.1
  match label.2, s.controls t with
  | .enqueueUnbounded value, .outside =>
      s.call t (.tryEnqueue [value]) (.firstTry value) s.overflow
  | .tryDequeueUnbounded, .outside =>
      match s.base.pcs t with
      | .idle _ => s.move t .lockDequeue
      | _ => none
  | .drop, .outside => s.call t .drop .outside s.overflow
  | .requeue, .outside => s.call t .requeue .outside s.overflow
  | .intoIter, .outside => s.call t .intoIter .outside s.overflow
  | .next, .outside => s.call t .next .outside s.overflow
  | .intoSlice, .outside => s.call t .intoSlice .outside s.overflow
  | .run spurious, .outside => s.call t (.run spurious) .outside s.overflow
  | .run spurious, .firstTry value =>
      s.tryEnqueue t spurious (.firstTry value) (.lockOverflow value) .outside
  | .run _, .lockOverflow value => s.acquire t (.retry value)
  | .run _, .retry value => s.call t (.tryEnqueue [value]) (.secondTry value) s.overflow
  | .run spurious, .secondTry value =>
      s.tryEnqueue t spurious (.secondTry value) (.push value) .unlock
  | .run _, .push value =>
      some ({ s with
        overflow := s.overflow ++ [[value]]
        controls := Function.update s.controls t .unlock }, .pushed value)
  | .run _, .unlock =>
      some ({ s with
        mutex := none
        controls := Function.update s.controls t .outside }, .silent)
  | .run _, .lockDequeue => s.acquire t .dequeue
  | .run _, .dequeue =>
      s.call t (.tryDequeueAndResize
        ⟨some (s.base.queue.capacity + s.overflow.length), s.overflow⟩) .dequeuing
        s.overflow
  | .run spurious, .dequeuing => s.tryDequeueAndResize t spurious
  | _, _ => none

/-- The capacity of the queue and the overflow together stay below the limit of
`check_overflow`. -/
def RecipeOk (s : Recipe T α) (label : T × RecipeAction α) : Prop :=
  s.controls label.1 = .dequeue →
    checkOverflow (s.base.queue.capacity + s.overflow.length) = true

instance instDecidableRecipeOk [DecidableEq α] (s : Recipe T α)
    (label : T × RecipeAction α) : Decidable (RecipeOk s label) :=
  inferInstanceAs (Decidable (s.controls label.1 = .dequeue → _))

/-- A created queue, an empty overflow, and no thread in one of the functions. -/
structure RecipeInitial (s : Recipe T α) : Prop where
  base : Initial s.base
  mutex : s.mutex = none
  overflow : s.overflow = []
  controls : s.controls = fun _ => .outside

end Steps

/-- The operations of slices and iterators. -/
def Action.onSlice : Action α → Bool
  | .drop => true
  | .requeue => true
  | .intoIter => true
  | .next => true
  | .intoSlice => true
  | _ => false

/-- The moves of the recipe that call the queue. -/
inductive Calls (s : Recipe T α) (t : T) :
    Control α → Action α → Control α → List (List α) → Prop
  | enqueue (value : α) :
      Calls s t .outside (.tryEnqueue [value]) (.firstTry value) s.overflow
  | slice (action : Action α) (haction : action.onSlice = true) :
      Calls s t .outside action .outside s.overflow
  | release (spurious : Bool) :
      Calls s t .outside (.run spurious) .outside s.overflow
  | firstTry (value : α) (spurious : Bool) :
      Calls s t (.firstTry value) (.run spurious) (.firstTry value) s.overflow
  | retry (value : α) :
      Calls s t (.retry value) (.tryEnqueue [value]) (.secondTry value) s.overflow
  | secondTry (value : α) (spurious : Bool) :
      Calls s t (.secondTry value) (.run spurious) (.secondTry value) s.overflow
  | dequeue :
      Calls s t .dequeue (.tryDequeueAndResize
        ⟨some (s.base.queue.capacity + s.overflow.length), s.overflow⟩) .dequeuing
        s.overflow
  | drain (spurious : Bool) (dequeuing : DequeuingLength) (resize : ResizeArgs α)
      (hpc : s.base.pcs t = .dequeueResize dequeuing resize)
      (hsome : resize.capacity.isSome = true) :
      Calls s t .dequeuing (.run spurious) .dequeuing []
  | dequeuing (spurious : Bool)
      (hpc : ∀ dequeuing resize, s.base.pcs t = .dequeueResize dequeuing resize →
        resize.capacity = none) :
      Calls s t .dequeuing (.run spurious) .dequeuing s.overflow

inductive Returns (pc : Pc α (List α)) : Control α → Control α → Prop
  | lockDequeue (last : Option (Outcome α)) (hpc : pc = .idle last) :
      Returns pc .outside .lockDequeue
  | refused (value : α) (refused : List α)
      (hpc : pc = .idle (some (.enqueueError (.insufficientCapacity refused)))) :
      Returns pc (.firstTry value) (.lockOverflow value)
  | returned (value : α) (last : Option (Outcome α)) (hpc : pc = .idle last)
      (hlast : ∀ refused,
        last ≠ some (.enqueueError (.insufficientCapacity refused))) :
      Returns pc (.firstTry value) .outside
  | refusedAgain (value : α) (refused : List α)
      (hpc : pc = .idle (some (.enqueueError (.insufficientCapacity refused)))) :
      Returns pc (.secondTry value) (.push value)
  | returnedAgain (value : α) (last : Option (Outcome α)) (hpc : pc = .idle last)
      (hlast : ∀ refused,
        last ≠ some (.enqueueError (.insufficientCapacity refused))) :
      Returns pc (.secondTry value) .unlock
  | dequeued (hpc : (∃ last, pc = .idle last) ∨
      ∃ i start stop slice, pc = .slice i start stop slice) :
      Returns pc .dequeuing .unlock

/-- The two places where the mutex is taken. -/
inductive Locks : Control α → Control α → Prop
  | enqueue (value : α) : Locks (.lockOverflow value) (.retry value)
  | dequeue : Locks .lockDequeue .dequeue

inductive RecipeMove [DecidableEq T] (s : Recipe T α) (t : T) :
    RecipeAction α → Recipe T α → RecipeEvent α → Prop
  | call {label : RecipeAction α} {control control' : Control α} {action : Action α}
      {overflow : List (List α)} {base : State T (VecBuffer α) α (List α)}
      {event : Event α} (hcontrol : s.controls t = control)
      (hlabel : ∀ value, label = .enqueueUnbounded value ↔
        control = .outside ∧ action = .tryEnqueue [value])
      (hcall : Calls s t control action control' overflow)
      (hstep : step s.base (t, action) = some (base, event)) :
      RecipeMove s t label
        { s with
          base := base
          overflow := overflow
          controls := Function.update s.controls t control' } (.called action event)
  | move {label : RecipeAction α} {control control' : Control α}
      (hcontrol : s.controls t = control)
      (hlabel : ∀ value, label ≠ .enqueueUnbounded value)
      (hreturns : Returns (s.base.pcs t) control control') :
      RecipeMove s t label
        { s with controls := Function.update s.controls t control' } .silent
  | acquire {spurious : Bool} {control control' : Control α}
      (hcontrol : s.controls t = control) (hfree : s.mutex = none)
      (hlocks : Locks control control') :
      RecipeMove s t (.run spurious)
        { s with
          mutex := some t
          controls := Function.update s.controls t control' } .silent
  | push {spurious : Bool} (value : α) (hcontrol : s.controls t = .push value) :
      RecipeMove s t (.run spurious)
        { s with
          overflow := s.overflow ++ [[value]]
          controls := Function.update s.controls t .unlock } (.pushed value)
  | unlock {spurious : Bool} (hcontrol : s.controls t = .unlock) :
      RecipeMove s t (.run spurious)
        { s with
          mutex := none
          controls := Function.update s.controls t .outside } .silent

section Cases

variable [DecidableEq T] {s s' : Recipe T α} {t : T} {event : RecipeEvent α}

theorem Recipe.call_cases {label : RecipeAction α} {control control' : Control α}
    {action : Action α} {overflow : List (List α)}
    (hcontrol : s.controls t = control)
    (hlabel : ∀ value, label = .enqueueUnbounded value ↔
      control = .outside ∧ action = .tryEnqueue [value])
    (hcall : Calls s t control action control' overflow)
    (hstep : s.call t action control' overflow = some (s', event)) :
    RecipeMove s t label s' event := by
  rw [Recipe.call] at hstep
  split at hstep
  · cases hstep
  · rename_i base event' hbase
    cases hstep
    exact .call hcontrol hlabel hcall hbase

theorem Recipe.acquire_cases {spurious : Bool} {control control' : Control α}
    (hcontrol : s.controls t = control) (hlocks : Locks control control')
    (hstep : s.acquire t control' = some (s', event)) :
    RecipeMove s t (.run spurious) s' event := by
  rw [Recipe.acquire] at hstep
  split at hstep
  · rename_i hfree
    cases hstep
    exact .acquire hcontrol hfree hlocks
  · cases hstep

theorem Recipe.tryEnqueue_cases {spurious : Bool} {control refused returned : Control α}
    (hcontrol : s.controls t = control)
    (hrefused : ∀ value,
      s.base.pcs t = .idle (some (.enqueueError (.insufficientCapacity value))) →
        Returns (s.base.pcs t) control refused)
    (hreturned : ∀ last, s.base.pcs t = .idle last →
      (∀ value, last ≠ some (.enqueueError (.insufficientCapacity value))) →
        Returns (s.base.pcs t) control returned)
    (hcall : Calls s t control (.run spurious) control s.overflow)
    (hstep : s.tryEnqueue t spurious control refused returned = some (s', event)) :
    RecipeMove s t (.run spurious) s' event := by
  rw [Recipe.tryEnqueue] at hstep
  split at hstep
  · rename_i value hpc
    cases hstep
    exact .move hcontrol (by simp) (hrefused value hpc)
  · rename_i last hlast hpc
    cases hstep
    refine .move hcontrol (by simp) (hreturned _ hpc ?_)
    rintro value rfl
    exact hlast value rfl
  · exact Recipe.call_cases hcontrol (by simp) hcall hstep

theorem Recipe.tryDequeueAndResize_cases {spurious : Bool}
    (hcontrol : s.controls t = .dequeuing)
    (hstep : s.tryDequeueAndResize t spurious = some (s', event)) :
    RecipeMove s t (.run spurious) s' event := by
  rw [Recipe.tryDequeueAndResize] at hstep
  split at hstep
  · rename_i last hpc
    cases hstep
    exact .move hcontrol (by simp) (.dequeued (Or.inl ⟨last, hpc⟩))
  · rename_i i start stop slice hpc
    cases hstep
    exact .move hcontrol (by simp) (.dequeued (Or.inr ⟨i, start, stop, slice, hpc⟩))
  · rename_i dequeuing resize hpc
    split at hstep
    · rename_i hsome
      exact Recipe.call_cases hcontrol (by simp) (.drain spurious _ _ hpc hsome) hstep
    · rename_i hnone
      refine Recipe.call_cases hcontrol (by simp) (.dequeuing spurious ?_) hstep
      intro dequeuing' resize' hpc'
      cases hpc.symm.trans hpc'
      simpa using hnone
  · rename_i hidle hslice hresize
    refine Recipe.call_cases hcontrol (by simp) (.dequeuing spurious ?_) hstep
    intro dequeuing resize hpc
    exact absurd hpc (hresize dequeuing resize)

theorem recipeStep_cases {action : RecipeAction α}
    (hstep : recipeStep s (t, action) = some (s', event)) :
    RecipeMove s t action s' event := by
  simp only [recipeStep] at hstep
  cases hcontrol : s.controls t with
  | outside =>
      rw [hcontrol] at hstep
      cases action with
      | enqueueUnbounded value =>
          exact Recipe.call_cases hcontrol (by simp) (.enqueue value) hstep
      | tryDequeueUnbounded =>
          simp only at hstep
          split at hstep
          · rename_i last hpc
            cases hstep
            exact .move hcontrol (by simp) (.lockDequeue last hpc)
          · cases hstep
      | run spurious => exact Recipe.call_cases hcontrol (by simp) (.release spurious) hstep
      | _ => exact Recipe.call_cases hcontrol (by simp) (.slice _ rfl) hstep
  | firstTry value =>
      rw [hcontrol] at hstep
      cases action with
      | run spurious =>
          exact Recipe.tryEnqueue_cases hcontrol (fun v h => .refused value v h)
            (fun last h hlast => .returned value last h hlast) (.firstTry value spurious)
            hstep
      | _ => cases hstep
  | lockOverflow value =>
      rw [hcontrol] at hstep
      cases action with
      | run spurious => exact Recipe.acquire_cases hcontrol (.enqueue value) hstep
      | _ => cases hstep
  | retry value =>
      rw [hcontrol] at hstep
      cases action with
      | run spurious => exact Recipe.call_cases hcontrol (by simp) (.retry value) hstep
      | _ => cases hstep
  | secondTry value =>
      rw [hcontrol] at hstep
      cases action with
      | run spurious =>
          exact Recipe.tryEnqueue_cases hcontrol
            (fun v h => .refusedAgain value v h)
            (fun last h hlast => .returnedAgain value last h hlast)
            (.secondTry value spurious) hstep
      | _ => cases hstep
  | push value =>
      rw [hcontrol] at hstep
      cases action with
      | run spurious =>
          cases hstep
          exact .push value hcontrol
      | _ => cases hstep
  | unlock =>
      rw [hcontrol] at hstep
      cases action with
      | run spurious =>
          cases hstep
          exact .unlock hcontrol
      | _ => cases hstep
  | lockDequeue =>
      rw [hcontrol] at hstep
      cases action with
      | run spurious => exact Recipe.acquire_cases hcontrol .dequeue hstep
      | _ => cases hstep
  | dequeue =>
      rw [hcontrol] at hstep
      cases action with
      | run spurious => exact Recipe.call_cases hcontrol (by simp) .dequeue hstep
      | _ => cases hstep
  | dequeuing =>
      rw [hcontrol] at hstep
      cases action with
      | run spurious => exact Recipe.tryDequeueAndResize_cases hcontrol hstep
      | _ => cases hstep

end Cases

end SwapBufferQueue
