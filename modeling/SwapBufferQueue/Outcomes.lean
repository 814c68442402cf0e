/-
What a call returns was right at an instant of the call, in any interleaving.  The words
a call reads are old by the time it returns, so an outcome says nothing about the queue
then; it does say what the queue was like at some instant since the call.
-/
import SwapBufferQueue.Progress
import SwapBufferQueue.TryDequeue

namespace SwapBufferQueue

universe u v w x

open Tiling

variable {T : Type x} {B : Type u} {α : Type v} {σ : Type w}

/-- The value an event reserves room for. -/
def Event.reservation? : Event α → Option (List α)
  | .reserved _ value => some value
  | _ => none

section Definitions

variable [DecidableEq T]

def reservationsOf (t : T) (trace : List ((T × Action α) × Event α)) : List (List α) :=
  trace.filterMap fun entry => if entry.1.1 = t then entry.2.reservation? else none

theorem reservationsOf_append (t : T) (first second : List ((T × Action α) × Event α)) :
    reservationsOf t (first ++ second) = reservationsOf t first ++ reservationsOf t second :=
  List.filterMap_append

theorem reservationsOf_singleton_of_ne {t t' : T} (ht' : t' ≠ t) (action : Action α)
    (event : Event α) : reservationsOf t [((t', action), event)] = [] := by
  rw [reservationsOf, List.filterMap_cons, if_neg ht', List.filterMap_nil]

theorem reservationsOf_singleton (t : T) (action : Action α) (event : Event α) :
    reservationsOf t [((t, action), event)] = event.reservation?.toList := by
  cases event <;> simp [reservationsOf, Event.reservation?]

variable [Buffer B α σ]

/-- Whether a value fits behind what is reserved in the enqueuing buffer. -/
def Queue.Fits (q : Queue B) (view : View α) (value : List α) : Prop :=
  view.tail.length + value.length ≤
    Buffer.capacity (q.buffers q.enqueuingCapacity.bufferIndex)

/-- Everything that was accepted has been consumed. -/
def View.Drained (view : View α) : Prop :=
  view.batch = [] ∧ view.tail = []

variable (t : T) (before : List ((T × Action α) × Event α)) (s : State T B α σ)
  (during : List ((T × Action α) × Event α))

/-- At some instant since the call was made the queue and what it held were like that. -/
def Sometime (P : Queue B → View α → Prop) : Prop :=
  Runs.Sometime SwapBufferQueue.step SizeOk s
    (fun first state => P state.queue (View.ofTrace (before ++ first))) during

/-- The call has reserved room for its value, once, in an open queue with that room. -/
def Accepted (value : List α) : Prop :=
  reservationsOf t during = [value] ∧
  ∃ first rest i state, first ++ ((t, .run false), .reserved i value) :: rest = during ∧
    Runs.Run SwapBufferQueue.step SizeOk s first state ∧
    state.queue.enqueuingCapacity.isClosed = false ∧
    state.queue.Fits (View.ofTrace (before ++ first)) value

/-- When an outcome of `try_enqueue` is right.  An accepted value has been written and
acknowledged; a refused value is given back and was never reserved. -/
def EnqueueRight (value : List α) : Outcome α → Prop
  | .enqueued =>
      Accepted t before s during value ∧
      ∃ i spurious, ((t, .run spurious), .acknowledged i value) ∈ during
  | .enqueueError (.closed value') =>
      value' = value ∧ reservationsOf t during = [] ∧
      Sometime before s during fun q _ => q.enqueuingCapacity.isClosed = true
  | .enqueueError (.insufficientCapacity value') =>
      value' = value ∧ reservationsOf t during = [] ∧
      Sometime before s during fun q view =>
        q.enqueuingCapacity.isClosed = false ∧ ¬ q.Fits view value
  | _ => False

/-- A call of `try_enqueue` and how far it has got. -/
def EnqueueInv (value : List α) : Pc α σ → Prop
  | .enqueueLoad value' => value' = value ∧ reservationsOf t during = []
  | .enqueueReserve value' _ _ => value' = value ∧ reservationsOf t during = []
  | .enqueueInsert value' _ => value' = value ∧ Accepted t before s during value
  | .enqueueAcknowledge value' _ => value' = value ∧ Accepted t before s during value
  | .idle (some outcome) => EnqueueRight t before s during value outcome
  | _ => False

/-- The call was asked for a capacity and has resized a buffer to it. -/
def Resized (args : ResizeArgs α) : Prop :=
  args.capacity.isSome = true ∧
    ∃ i capa spurious, ((t, .run spurious), .resized i capa) ∈ during

/-- When an error of a dequeue is right.  A queue that the call has resized may be found
empty although it is closed. -/
def DequeueRight (args : ResizeArgs α) : Outcome α → Prop
  | .dequeueError .conflict =>
      Runs.Sometime SwapBufferQueue.step SizeOk s
        (fun _ state => ∃ t' ≠ t, (state.pcs t').holds = true) during
  | .dequeueError .empty => Sometime before s during fun q view =>
      view.Drained ∧ (q.enqueuingCapacity.isClosed = false ∨ Resized t during args)
  | .dequeueError .closed => Sometime before s during fun q view =>
      view.Drained ∧ q.enqueuingCapacity.isClosed = true
  | .dequeueError .pending =>
      Runs.Sometime SwapBufferQueue.step SizeOk s
        (fun first state => (View.ofTrace (before ++ first)).batch ≠ [] ∧
          Unacknowledged state (other state.queue.enqueuingCapacity.bufferIndex)) during
  | _ => False

/-- What a dequeue knows after its swap. -/
def FoundWhenSwapped (args : ResizeArgs α) (attempt : Attempt) (capacity : Nat)
    (enqueuing : EnqueuingCapacity) : Prop :=
  (attempt.resized = true → Resized t during args) ∧
  (capacity = enqueuing.remainingCapacity →
    Sometime before s during fun _ view => view.Drained)

/-- A dequeue and how far it has got: what it has found so far was so at an instant. -/
def DequeueInv (args : ResizeArgs α) : Pc α σ → Prop
  | .dequeueLock resize => resize = args
  | .dequeueResize _ resize => resize.capacity.isSome = true → args.capacity.isSome = true
  | .dequeueInsert _ resized _ _ => resized = true → Resized t during args
  | .dequeuePublish attempt => attempt.resized = true → Resized t during args
  | .dequeueLoad attempt => attempt.resized = true → Resized t during args
  | .dequeueSwap attempt _ _ _ => attempt.resized = true → Resized t during args
  | .dequeueLoadCapacity attempt capacity enqueuing =>
      FoundWhenSwapped t before s during args attempt capacity enqueuing
  | .dequeueStoreCapacity attempt capacity enqueuing =>
      FoundWhenSwapped t before s during args attempt capacity enqueuing
  | .dequeueNotify attempt capacity enqueuing =>
      FoundWhenSwapped t before s during args attempt capacity enqueuing
  | .dequeueSpin _ _ _ => True
  | .dequeueSlice _ first last => first < last
  | .slice _ first last _ => first < last
  | .storeDequeuing _ outcome => DequeueRight t before s during args outcome
  | .idle (some outcome) => DequeueRight t before s during args outcome
  | .panicked _ => True
  | _ => False

end Definitions

section Call

variable [DecidableEq T] [Buffer B α σ] [LawfulBuffer B]
variable {start s state : State T B α σ} {t : T}
variable {before during : List ((T × Action α) × Event α)}

/-- What the steps of a call keep, and the steps of the others do not break, holds as long
as the call goes on. -/
theorem invariant_of_call {P : List ((T × Action α) × Event α) → Pc α σ → Prop}
    (hinitial : Initial start)
    (hbefore : Runs.Run SwapBufferQueue.step SizeOk start before s)
    (hcalled : P [] (s.pcs t))
    (hown : ∀ {during m spurious q' pc' event},
      Runs.Run SwapBufferQueue.step SizeOk s during m →
        Sim m (Ledger.ofTrace (before ++ during)) →
          Transition m.queue (m.pcs t) (.run spurious) q' pc' event →
            ThreadInv q' ((Ledger.ofTrace (before ++ during)).next t event) t pc' →
              P during (m.pcs t) → P (during ++ [((t, .run spurious), event)]) pc')
    (hothers : ∀ {during t' action event pc}, t' ≠ t → P during pc →
      P (during ++ [((t', action), event)]) pc)
    (hduring : Runs.Run SwapBufferQueue.step SizeOk s during state)
    (hcall : OneCall t during) : P during (state.pcs t) := by
  refine (hduring.restrict (P := GoesOn t) hcall).invariant
    (fun during state => P during (state.pcs t)) hcalled ?_
  rintro trace m m' ⟨t', action⟩ event hprefix hinv ⟨hsize, hlabel⟩ hstep
  have hrun := hprefix.mono fun _ _ hok => hok.1
  have hsim := sim_of_run hinitial (fun _ _ h => h) (hbefore.append hrun)
  have hafter := hsim.step hsize hstep
  obtain ⟨q', pc', hmove, rfl⟩ := step_cases hstep
  by_cases ht' : t' = t
  · subst ht'
    obtain ⟨spurious, rfl⟩ := hlabel rfl
    simp only [Function.update_self]
    exact hown hrun hsim hmove hafter.self hinv
  · simp only [Function.update_of_ne (Ne.symm ht')]
    exact hothers ht' hinv

end Call

section Enqueue

variable [DecidableEq T] [Buffer B α σ] [LawfulBuffer B]
variable {start s state state' : State T B α σ} {t : T}
variable {before during : List ((T × Action α) × Event α)} {value : List α}

omit [LawfulBuffer B] in
theorem Accepted.append (haccepted : Accepted t before s during value)
    {entry : (T × Action α) × Event α} (hnone : reservationsOf t [entry] = []) :
    Accepted t before s (during ++ [entry]) value := by
  obtain ⟨honce, first, rest, i, m, rfl, hrun, hopen, hfits⟩ := haccepted
  refine ⟨?_, first, rest ++ [entry], i, m, ?_, hrun, hopen, hfits⟩
  · rw [reservationsOf_append, hnone, honce, List.append_nil]
  · rw [List.append_assoc, List.cons_append]

omit [LawfulBuffer B] in
/-- What is right of an outcome stays right while the others go on. -/
theorem EnqueueRight.append {outcome : Outcome α}
    (hright : EnqueueRight t before s during value outcome)
    {entry : (T × Action α) × Event α} (hnone : reservationsOf t [entry] = []) :
    EnqueueRight t before s (during ++ [entry]) value outcome := by
  have hsame : reservationsOf t (during ++ [entry]) = reservationsOf t during := by
    rw [reservationsOf_append, hnone, List.append_nil]
  cases outcome with
  | enqueued =>
      obtain ⟨haccepted, i, spurious, hmem⟩ := hright
      exact ⟨haccepted.append hnone, i, spurious, List.mem_append_left _ hmem⟩
  | enqueueError error =>
      cases error with
      | closed _ => exact ⟨hright.1, hsame.trans hright.2.1, hright.2.2.append _⟩
      | insufficientCapacity _ =>
          exact ⟨hright.1, hsame.trans hright.2.1, hright.2.2.append _⟩
  | _ => exact hright.elim

omit [DecidableEq T] in
/-- The room that is left is what the reserved values leave. -/
theorem Sim.fits_iff {g : Ledger T α} (hsim : Sim s g) {view : View α}
    (hview : g.view = view) (value : List α) :
    s.queue.Fits view value ↔
      value.length ≤ s.queue.enqueuingCapacity.remainingCapacity := by
  have hadd := hsim.shared.extent_add
  have htail : view.tail.length = extent (g.tiles g.enqueuing) := by
    rw [← hview]
    rfl
  rw [Queue.Fits, htail, ← hsim.shared.enqueuing]
  omega

omit [LawfulBuffer B] in
theorem EnqueueInv.append {pc : Pc α σ} (hinv : EnqueueInv t before s during value pc)
    {entry : (T × Action α) × Event α} (hnone : reservationsOf t [entry] = []) :
    EnqueueInv t before s (during ++ [entry]) value pc := by
  have hsame : reservationsOf t (during ++ [entry]) = reservationsOf t during := by
    rw [reservationsOf_append, hnone, List.append_nil]
  cases pc with
  | enqueueLoad _ => exact ⟨hinv.1, hsame.trans hinv.2⟩
  | enqueueReserve _ _ _ => exact ⟨hinv.1, hsame.trans hinv.2⟩
  | enqueueInsert _ _ => exact ⟨hinv.1, hinv.2.append hnone⟩
  | enqueueAcknowledge _ _ => exact ⟨hinv.1, hinv.2.append hnone⟩
  | idle last =>
      cases last with
      | none => exact hinv.elim
      | some _ => exact EnqueueRight.append hinv hnone
  | _ => exact hinv.elim

/-- The word a call has read decides at the instant it was read. -/
theorem enqueueInv_check {g : Ledger T α} (hsim : Sim state g)
    (hview : g.view = View.ofTrace (before ++ during)) (hsize : value.length < 2 ^ 63)
    (hrun : Runs.Run SwapBufferQueue.step SizeOk s during state)
    (hnone : reservationsOf t during = []) :
    EnqueueInv t before s during value
      (enqueueCheck value state.queue.enqueuingCapacity : Pc α σ) := by
  refine enqueueCheck_elim (P := fun pc => EnqueueInv t before s during value pc) ?_ ?_ ?_
  · intro hclosed
    exact ⟨rfl, hnone, hrun.sometime hclosed⟩
  · intro hopen hreserve
    refine ⟨rfl, hnone, hrun.sometime ⟨hopen, ?_⟩⟩
    rw [hsim.fits_iff hview]
    exact Nat.not_le_of_lt ((EnqueuingCapacity.tryReserve_eq_none_iff hopen hsize).mp hreserve)
  · intro next _ _
    exact ⟨rfl, hnone⟩

theorem EnqueueInv.step {g : Ledger T α} (hsim : Sim state g)
    (hview : g.view = View.ofTrace (before ++ during))
    (hrun : Runs.Run SwapBufferQueue.step SizeOk s during state) {spurious : Bool}
    {q' : Queue B} {pc' : Pc α σ} {event : Event α}
    (hmove : Transition state.queue (state.pcs t) (.run spurious) q' pc' event)
    (hself : ThreadInv q' (g.next t event) t pc')
    (hinv : EnqueueInv t before s during value (state.pcs t)) :
    EnqueueInv t before s (during ++ [((t, .run spurious), event)]) value pc' := by
  have hthread := hsim.thread t
  have hquiet : ∀ {event : Event α}, event.reservation? = none →
      reservationsOf t [((t, .run spurious), event)] = [] := by
    intro event hnone
    rw [reservationsOf_singleton, hnone, Option.toList_none]
  generalize state.pcs t = pc at hmove hthread hinv
  cases hmove with
  | silent hlocal =>
      cases hlocal with
      | enqueueLoad _ _ =>
          obtain ⟨rfl, hnone⟩ := hinv
          exact (enqueueInv_check hsim hview hthread.2 hrun hnone).append (hquiet rfl)
      | enqueueRetry _ _ _ _ =>
          obtain ⟨rfl, hnone⟩ := hinv
          exact (enqueueInv_check hsim hview hthread.2.1 hrun hnone).append (hquiet rfl)
      | indexUnderflow _ _ _ _ => exact absurd hself.cause Bool.false_ne_true
      | insertOutOfBounds _ _ _ _ => exact absurd hself.cause Bool.false_ne_true
      | _ => exact hinv.elim
  | reserve _ next =>
      obtain ⟨rfl, hnone⟩ := hinv
      obtain ⟨-, hsize, hopen, hreserve⟩ := hthread
      refine ⟨rfl, ?_, during, [], _, state, rfl, hrun, hopen, ?_⟩
      · rw [reservationsOf_append, hnone, reservationsOf_singleton]
        rfl
      · rw [hsim.fits_iff hview]
        exact ((EnqueuingCapacity.tryReserve_eq_some_iff hopen hsize).mp hreserve).1
  | insert _ _ _ _ _ =>
      obtain ⟨rfl, haccepted⟩ := hinv
      exact ⟨rfl, haccepted.append (hquiet rfl)⟩
  | acknowledge _ enqueuing _ =>
      obtain ⟨rfl, haccepted⟩ := hinv
      exact ⟨haccepted.append (hquiet rfl), enqueuing.bufferIndex, spurious,
        List.mem_append_right _ (List.mem_singleton_self _)⟩
  | _ => exact hinv.elim

/-- The outcomes of `try_enqueue` are right in any interleaving. -/
theorem try_enqueue_justified (hinitial : Initial start)
    (hbefore : Runs.Run SwapBufferQueue.step SizeOk start before s)
    (hpc : s.pcs t = .enqueueLoad value)
    (hduring : Runs.Run SwapBufferQueue.step SizeOk s during state)
    (hcall : OneCall t during) {outcome : Outcome α}
    (hreturned : state.pcs t = .idle (some outcome)) :
    EnqueueRight t before s during value outcome := by
  have hinv := invariant_of_call (P := fun during pc => EnqueueInv t before s during value pc)
    hinitial hbefore ?_ ?_ ?_ hduring hcall
  · rw [hreturned] at hinv
    exact hinv
  · rw [hpc]
    exact ⟨rfl, rfl⟩
  · intro during m spurious q' pc' event hrun hsim hmove hself hinv
    exact hinv.step hsim (view_of_run hinitial (hbefore.append hrun)) hrun hmove hself
  · intro during t' action event pc ht' hinv
    exact hinv.append (reservationsOf_singleton_of_ne ht' action event)

end Enqueue

/-- A value that fits when it is enqueued is refused when the room is gone. -/
theorem try_enqueue_justified_refused :
    ∃ (start s state : State Nat (VecBuffer Nat) Nat (List Nat)) (before during : _),
      Initial start ∧ Runs.Run SwapBufferQueue.step SizeOk start before s ∧
      s.pcs 0 = .enqueueLoad [7] ∧ s.queue.Fits (View.ofTrace before) [7] ∧
      Runs.Run SwapBufferQueue.step SizeOk s during state ∧ OneCall 0 during ∧
      EnqueueRight 0 before s during [7] (.enqueueError (.insufficientCapacity [7])) := by
  have hinitial := initial_withCapacity (T := Nat) (B := VecBuffer Nat)
    (show (Queue.withCapacity 1).isSome = true by decide +kernel)
  have hbefore := Runs.run_of_isSome SwapBufferQueue.step SizeOk
    (State.ofQueue ((Queue.withCapacity 1).get (by decide +kernel)) :
      State Nat (VecBuffer Nat) Nat (List Nat))
    [(0, .tryEnqueue [7])] (by decide +kernel) (by decide +kernel)
  obtain ⟨before, s, hbefore, hpc, hfits, during, state, hduring, hcall, hreturned⟩ :
      ∃ before s, Runs.Run SwapBufferQueue.step SizeOk _ before s ∧
        s.pcs 0 = .enqueueLoad [7] ∧ s.queue.Fits (View.ofTrace before) [7] ∧
        ∃ during state, Runs.Run SwapBufferQueue.step SizeOk s during state ∧
          OneCall 0 during ∧
          state.pcs 0 = .idle (some (.enqueueError (.insufficientCapacity [7]))) :=
    ⟨_, _, hbefore, by decide +kernel, by unfold Queue.Fits; decide +kernel, _, _,
      Runs.run_of_isSome SwapBufferQueue.step SizeOk _
        (List.flatten [[(0, .run false), (1, .tryEnqueue [8])],
          List.replicate 2 (1, .run false), [(0, .run false)]])
        (by decide +kernel) (by decide +kernel), by decide +kernel, by decide +kernel⟩
  exact ⟨_, s, state, before, during, hinitial, hbefore, hpc, hfits, hduring, hcall,
    try_enqueue_justified hinitial hbefore hpc hduring hcall hreturned⟩

section Dequeue

variable [DecidableEq T] [Buffer B α σ]
variable {start s state state' : State T B α σ} {t : T} {args : ResizeArgs α}
variable {before during : List ((T × Action α) × Event α)}

omit [DecidableEq T] [Buffer B α σ] in
theorem Resized.append (hresized : Resized t during args)
    (entry : (T × Action α) × Event α) : Resized t (during ++ [entry]) args := by
  obtain ⟨hasked, i, capa, spurious, hmem⟩ := hresized
  exact ⟨hasked, i, capa, spurious, List.mem_append_left _ hmem⟩

theorem DequeueRight.append {outcome : Outcome α}
    (hright : DequeueRight t before s during args outcome)
    (entry : (T × Action α) × Event α) :
    DequeueRight t before s (during ++ [entry]) args outcome := by
  cases outcome with
  | dequeueError error =>
      cases error with
      | conflict => exact Runs.Sometime.append hright _
      | empty =>
          refine (Runs.Sometime.append hright _).imp (fun _ _ h => h) ?_
          exact fun _ _ hempty => ⟨hempty.1, hempty.2.imp_right fun h => h.append _⟩
      | closed => exact Runs.Sometime.append hright _
      | pending => exact Runs.Sometime.append hright _
  | _ => exact hright.elim

theorem FoundWhenSwapped.append {attempt : Attempt} {capacity : Nat}
    {enqueuing : EnqueuingCapacity}
    (hfound : FoundWhenSwapped t before s during args attempt capacity enqueuing)
    (entry : (T × Action α) × Event α) :
    FoundWhenSwapped t before s (during ++ [entry]) args attempt capacity enqueuing :=
  ⟨fun hresized => (hfound.1 hresized).append _, fun hfull => (hfound.2 hfull).append _⟩

theorem DequeueInv.append {pc : Pc α σ} (hinv : DequeueInv t before s during args pc)
    (entry : (T × Action α) × Event α) :
    DequeueInv t before s (during ++ [entry]) args pc := by
  cases pc with
  | dequeueInsert _ _ _ _ => exact fun hresized => (hinv hresized).append entry
  | dequeuePublish _ => exact fun hresized => (hinv hresized).append entry
  | dequeueLoad _ => exact fun hresized => (hinv hresized).append entry
  | dequeueSwap _ _ _ _ => exact fun hresized => (hinv hresized).append entry
  | dequeueLoadCapacity _ _ _ => exact FoundWhenSwapped.append hinv entry
  | dequeueStoreCapacity _ _ _ => exact FoundWhenSwapped.append hinv entry
  | dequeueNotify _ _ _ => exact FoundWhenSwapped.append hinv entry
  | storeDequeuing _ _ => exact DequeueRight.append hinv entry
  | idle last =>
      cases last with
      | none => exact hinv.elim
      | some _ => exact DequeueRight.append hinv entry
  | _ => exact hinv

theorem dequeueInv_dequeueEntry {dequeuing : DequeuingLength} {resize : ResizeArgs α}
    (hresize : resize.capacity.isSome = true → args.capacity.isSome = true) :
    DequeueInv t before s during args (dequeueEntry dequeuing resize : Pc α σ) :=
  dequeueEntry_elim (P := fun pc => DequeueInv t before s during args pc)
    (fun _ => hresize) fun _ => trivial

theorem FoundWhenSwapped.dequeueFinish {attempt : Attempt} {capacity : Nat}
    {enqueuing : EnqueuingCapacity}
    (hfound : FoundWhenSwapped t before s during args attempt capacity enqueuing) :
    DequeueInv t before s during args
      (dequeueFinish attempt capacity enqueuing : Pc α σ) := by
  refine dequeueFinish_elim (P := fun pc => DequeueInv t before s during args pc)
    (fun _ => trivial) (fun _ => trivial) ?_ ?_ fun _ _ _ => trivial
  · exact fun _ _ => dequeueInv_dequeueEntry fun hnone => absurd hnone Bool.false_ne_true
  · intro hfull _ hresized
    exact (hfound.2 hfull).imp (fun _ _ h => h)
      fun _ _ hdrained => ⟨hdrained, Or.inr (hfound.1 hresized)⟩

variable [LawfulBuffer B]

omit [DecidableEq T] in
/-- A full room is an empty buffer, and the hidden buffer holds no batch. -/
theorem Sim.drained {g : Ledger T α} (hsim : Sim s g) {dequeuing : DequeuingLength}
    {length : Nat} (hhidden : Hidden s.queue g dequeuing .published length)
    (hempty : s.queue.enqueuingCapacity.remainingCapacity =
      Buffer.capacity (s.queue.buffers s.queue.enqueuingCapacity.bufferIndex))
    {view : View α} (hview : g.view = view) : view.Drained := by
  rw [← hview]
  refine ⟨hhidden.batch_eq_nil rfl, ?_⟩
  change contents (g.tiles g.enqueuing) = []
  rw [hsim.shared.enqueuing_eq_nil_iff.mpr hempty, contents_nil]

theorem DequeueInv.step {g : Ledger T α} (hsim : Sim state g)
    (hview : g.view = View.ofTrace (before ++ during))
    (hrun : Runs.Run SwapBufferQueue.step SizeOk s during state) {spurious : Bool}
    {q' : Queue B} {pc' : Pc α σ} {event : Event α}
    (hmove : Transition state.queue (state.pcs t) (.run spurious) q' pc' event)
    (hinv : DequeueInv t before s during args (state.pcs t)) :
    DequeueInv t before s (during ++ [((t, .run spurious), event)]) args pc' := by
  have hthread := hsim.thread t
  generalize hpc : state.pcs t = pc at hmove hthread hinv
  cases hmove with
  | silent hlocal =>
      apply DequeueInv.append
      cases hlocal with
      | enqueueLoad _ _ => exact hinv.elim
      | enqueueRetry _ _ _ _ => exact hinv.elim
      | keepCapacity _ _ _ _ => exact fun hresized => absurd hresized Bool.false_ne_true
      | dequeueNotify _ _ _ _ => exact hinv.dequeueFinish
      | spinDone i length _ _ hle =>
          have hpos : 0 < length := hthread.2
          change state.queue.buffersLength i - length < state.queue.buffersLength i
          omega
      | spinPending i length _ _ hlt _ =>
          obtain ⟨hbatch, hpos⟩ := hthread
          have hadd := hbatch.length_add
          refine hrun.sometime ⟨?_, ?_⟩
          · rw [← hview]
            exact hbatch.batch_ne_nil hpos
          · rw [← hsim.shared.enqueuing, ← eq_other_of_ne hbatch.other]
            exact (hsim.lags_iff hbatch.visible hbatch.fits).mp (by omega)
      | spinAgain _ _ _ _ _ _ => exact trivial
      | skipEmpty _ _ _ _ _ => exact hinv
      | stageEnd _ _ _ _ _ _ => exact hinv
      | publishNothing _ _ _ => exact hinv
      | dequeueLoad _ _ _ _ _ _ _ => exact hinv
      | swapRetry _ _ _ _ _ => exact hinv
      | capacityDiffers _ _ _ _ _ => exact hinv
      | capacitySame _ _ _ _ _ => exact hinv
      | _ => exact trivial
  | reserve _ _ => exact hinv.elim
  | insert _ _ _ _ _ => exact hinv.elim
  | acknowledge _ _ _ => exact hinv.elim
  | conflict _ _ hlock =>
      apply DequeueInv.append
      obtain ⟨t', hholds⟩ := hsim.locked_iff.mp hlock
      refine hrun.sometime ⟨t', ?_, hholds⟩
      rintro rfl
      rw [hpc] at hholds
      cases hholds
  | lock resize _ _ =>
      obtain rfl : resize = args := hinv
      exact (dequeueInv_dequeueEntry id).append _
  | resize _ resize _ capa _ hcapa _ _ _ =>
      refine fun _ => ⟨hinv ?_, _, _, _, List.mem_append_right _ List.mem_cons_self⟩
      rw [hcapa]
      rfl
  | stage _ _ _ _ _ _ _ _ _ _ => exact DequeueInv.append hinv _
  | publish _ _ _ => exact DequeueInv.append hinv _
  | foundEmpty attempt _ _ hempty _ _ =>
      apply DequeueInv.append
      have hdrained := hsim.drained hthread.1 hempty hview
      cases hclosed : state.queue.enqueuingCapacity.isClosed with
      | false => exact hrun.sometime ⟨hdrained, Or.inl hclosed⟩
      | true => exact hrun.sometime ⟨hdrained, hclosed⟩
  | swap attempt capacity nextEnqueuing =>
      apply DequeueInv.append
      have hswap : Swapping state.queue g attempt capacity nextEnqueuing
        state.queue.enqueuingCapacity := hthread
      refine ⟨hinv, fun hfull => hrun.sometime (hsim.drained hswap.hidden ?_ hview)⟩
      rw [← hfull, hswap.capacity_eq, hsim.shared.enqueuing]
  | storeCapacity _ _ _ _ => exact DequeueInv.append hinv _
  | slice _ _ _ _ _ _ => exact hinv
  | unlock _ _ _ => exact DequeueInv.append hinv _
  | _ => exact hinv.elim

/-- The outcomes of `try_dequeue` and `try_dequeue_and_resize` are right in any
interleaving: an error was right at an instant of the call, and a slice shows the whole
batch, all of it acknowledged. -/
theorem try_dequeue_justified (hinitial : Initial start)
    (hbefore : Runs.Run SwapBufferQueue.step SizeOk start before s)
    (hpc : s.pcs t = .dequeueLock args)
    (hduring : Runs.Run SwapBufferQueue.step SizeOk s during state)
    (hcall : OneCall t during) :
    (∀ outcome, state.pcs t = .idle (some outcome) →
      DequeueRight t before s during args outcome) ∧
    (∀ i first last slice, state.pcs t = .slice i first last slice →
      first < last ∧ first + (View.ofTrace (before ++ during)).batch.length = last ∧
      LawfulBuffer.Shows B slice (View.ofTrace (before ++ during)).batch ∧
      ¬ Unacknowledged state i) := by
  have hinv := invariant_of_call (P := fun during pc => DequeueInv t before s during args pc)
    hinitial hbefore ?_ ?_ ?_ hduring hcall
  · have hwhole := hbefore.append hduring
    have hsim := sim_of_run hinitial (fun _ _ h => h) hwhole
    have hthread := hsim.thread t
    refine ⟨fun outcome hidle => ?_, fun i first last slice hslice => ?_⟩
    · rw [hidle] at hinv
      exact hinv
    · rw [hslice] at hinv hthread
      obtain ⟨hrange, hshows⟩ := hthread
      have hbatch := hrange.batch_eq
      rw [← view_of_run hinitial hwhole]
      change first < last ∧ first + (Ledger.ofTrace (before ++ during)).batch.length = last ∧
        LawfulBuffer.Shows B slice (Ledger.ofTrace (before ++ during)).batch ∧ _
      rw [hbatch]
      exact ⟨hinv, hrange.length_drop, hshows,
        (hsim.settled_iff hrange.visible).mp hrange.settled⟩
  · rw [hpc]
    rfl
  · intro during m spurious q' pc' event hrun hsim hmove _ hinv
    exact hinv.step hsim (view_of_run hinitial (hbefore.append hrun)) hrun hmove
  · intro during t' action event pc _ hinv
    exact hinv.append _

end Dequeue

/-- A queue is found empty by a dequeue that returns after the next value was enqueued. -/
theorem try_dequeue_justified_empty :
    ∃ (start s state : State Nat (VecBuffer Nat) Nat (List Nat)) (before during : _),
      Initial start ∧ Runs.Run SwapBufferQueue.step SizeOk start before s ∧
      s.pcs 1 = .dequeueLock .none ∧
      Runs.Run SwapBufferQueue.step SizeOk s during state ∧ OneCall 1 during ∧
      (View.ofTrace (before ++ during)).tail = [7] ∧
      DequeueRight 1 before s during .none (.dequeueError .empty) := by
  have hinitial := initial_withCapacity (T := Nat) (B := VecBuffer Nat)
    (show (Queue.withCapacity 1).isSome = true by decide +kernel)
  have hbefore := Runs.run_of_isSome SwapBufferQueue.step SizeOk
    (State.ofQueue ((Queue.withCapacity 1).get (by decide +kernel)) :
      State Nat (VecBuffer Nat) Nat (List Nat))
    [(1, .tryDequeue)] (by decide +kernel) (by decide +kernel)
  obtain ⟨before, s, hbefore, hpc, during, state, hduring, hcall, htail, hreturned⟩ :
      ∃ before s, Runs.Run SwapBufferQueue.step SizeOk _ before s ∧
        s.pcs 1 = .dequeueLock .none ∧
        ∃ during state, Runs.Run SwapBufferQueue.step SizeOk s during state ∧
          OneCall 1 during ∧ (View.ofTrace (before ++ during)).tail = [7] ∧
          state.pcs 1 = .idle (some (.dequeueError .empty)) :=
    ⟨_, _, hbefore, by decide +kernel, _, _,
      Runs.run_of_isSome SwapBufferQueue.step SizeOk _
        (List.flatten [List.replicate 5 (1, .run false), [(0, .tryEnqueue [7])],
          List.replicate 4 (0, .run false), [(1, .run false)]])
        (by decide +kernel) (by decide +kernel), by decide +kernel, by decide +kernel,
      by decide +kernel⟩
  exact ⟨_, s, state, before, during, hinitial, hbefore, hpc, hduring, hcall, htail,
    (try_dequeue_justified hinitial hbefore hpc hduring hcall).1 _ hreturned⟩

end SwapBufferQueue
