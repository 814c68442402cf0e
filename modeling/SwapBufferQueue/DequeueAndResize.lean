/-
`try_dequeue_and_resize` as an atomic exchange.  A call goes through the phases below;
`CallStep` says which event it may show in each of them, and the effect of the event is
the one of the view.  Everything happens at the swaps: the first one closes off the
enqueuing buffer as the batch and shows the inserted values, the second one is made
only when that batch is empty and something was inserted.
-/
import SwapBufferQueue.Arguments
import SwapBufferQueue.View
import SwapBufferQueue.CellBuffer

namespace SwapBufferQueue

universe u v w x

open Tiling

/-- How far a call of `try_dequeue_and_resize` has got. -/
inductive Phase where
  | called
  | ongoing
  | preparing (dequeuing : DequeuingLength) (resized : Bool)
  | empty (dequeuing : DequeuingLength)
  | swapped
  | retried
  | returned
deriving Repr, DecidableEq

variable {T : Type x} {B : Type u} {α : Type v} {σ : Type w}

/-- The phase after an event of the call. -/
def Phase.next (phase : Phase) : Event α → Phase
  | .locked dequeuing =>
      if dequeuing.bufferLen = 0 then .preparing dequeuing false else .ongoing
  | .resized _ _ =>
      match phase with
      | .preparing dequeuing _ => .preparing dequeuing true
      | _ => phase
  | .foundEmpty _ =>
      match phase with
      | .preparing dequeuing _ => .empty dequeuing
      | _ => phase
  | .swapped _ =>
      match phase with
      | .preparing _ _ => .swapped
      | _ => .retried
  | .sliced _ _ _ => .returned
  | .unlocked _ => .returned
  | _ => phase

/-- The phase of the last call of an activity, from what happened since. -/
def callPhase [DecidableEq T] (t : T) (during : List ((T × Action α) × Event α)) :
    Phase :=
  during.foldl
    (fun phase entry => if entry.1.1 = t then phase.next entry.2 else phase) .called

/-- What a call may show.  With a batch there, only that batch is concerned; without
one the next buffer is resized and filled, and the call either finds nothing to do or
swaps, once more if it swapped an empty buffer for the inserted values. -/
inductive CallStep (args : ResizeArgs α) (view : View α) :
    Phase → Event α → Phase → Prop
  | silent (phase : Phase) : CallStep args view phase .silent phase
  | lockBatch (dequeuing : DequeuingLength) (hbatch : view.batch ≠ [])
      (hlength : dequeuing.bufferLen = view.batch.length) :
      CallStep args view .called (.locked dequeuing) .ongoing
  | lock (dequeuing : DequeuingLength) (hbatch : view.batch = [])
      (hstaged : view.staged = []) (hlength : dequeuing.bufferLen = 0) :
      CallStep args view .called (.locked dequeuing) (.preparing dequeuing false)
  | resize (dequeuing : DequeuingLength) (capa : Nat)
      (hcapa : args.capacity = some capa) :
      CallStep args view (.preparing dequeuing false)
        (.resized dequeuing.bufferIndex capa) (.preparing dequeuing true)
  | stage (dequeuing : DequeuingLength) (resized : Bool) (value : List α)
      (hvalue : value ∈ args.insert) (hne : value ≠ []) :
      CallStep args view (.preparing dequeuing resized)
        (.staged dequeuing.bufferIndex value) (.preparing dequeuing resized)
  | publish (dequeuing : DequeuingLength) (resized : Bool)
      (hstaged : view.staged = args.insert.flatten) :
      CallStep args view (.preparing dequeuing resized)
        (.published dequeuing.bufferIndex) (.preparing dequeuing resized)
  | foundEmpty (dequeuing : DequeuingLength) (error : TryDequeueError)
      (hbatch : view.batch = []) (htail : view.tail = []) (hstaged : view.staged = [])
      (hinsert : args.insert.flatten = []) :
      CallStep args view (.preparing dequeuing false) (.foundEmpty error)
        (.empty dequeuing)
  | swap (dequeuing : DequeuingLength) (resized : Bool) (hbatch : view.batch = [])
      (hstaged : view.staged = args.insert.flatten)
      (hwork : view.tail ≠ [] ∨ resized = true ∨ args.insert.flatten ≠ []) :
      CallStep args view (.preparing dequeuing resized)
        (.swapped dequeuing.bufferIndex) .swapped
  | retry (i : Fin 2) (hbatch : view.batch = []) (hstaged : view.staged = [])
      (hinsert : args.insert.flatten ≠ []) (hfirst : args.insert.flatten <+: view.tail) :
      CallStep args view .swapped (.swapped i) .retried
  | slice (i : Fin 2) (start stop : Nat) (phase : Phase)
      (hphase : phase = .ongoing ∨ phase = .swapped ∨ phase = .retried)
      (hbatch : view.batch ≠ []) (hlength : start + view.batch.length = stop) :
      CallStep args view phase (.sliced i start stop) .returned
  | pending (dequeuing : DequeuingLength) (phase : Phase)
      (hphase : phase = .ongoing ∨ phase = .swapped ∨ phase = .retried)
      (hbatch : view.batch ≠ []) (hlength : dequeuing.bufferLen = view.batch.length) :
      CallStep args view phase (.unlocked dequeuing) .returned
  | unchanged (dequeuing : DequeuingLength) :
      CallStep args view (.empty dequeuing) (.unlocked dequeuing) .returned
  | resized (dequeuing : DequeuingLength) (hbatch : view.batch = [])
      (hlength : dequeuing.bufferLen = 0) (hinsert : args.insert.flatten = []) :
      CallStep args view .swapped (.unlocked dequeuing) .returned

section Invariant

variable [Buffer B α σ]

/-- The hidden buffer of a call that has not swapped yet. -/
structure Preparing (args : ResizeArgs α) (q : Queue B) (g : Ledger T α) (i : Fin 2)
    (rest : List (List α)) : Prop where
  staged_append : g.staged ++ rest.flatten = args.insert.flatten
  rest_subset : ∀ value ∈ rest, value ∈ args.insert
  target : ∀ capa ∈ args.capacity, Buffer.capacity (q.buffers i) = capa

/-- The enqueuing buffer of a call that swapped an empty one for it. -/
structure Retrying (args : ResizeArgs α) (g : Ledger T α) : Prop where
  inserted : args.insert.flatten ≠ []
  first : args.insert.flatten <+: g.tail

/-- An attempt before its swap, the first or the second one. -/
def Attempting (args : ResizeArgs α) (q : Queue B) (g : Ledger T α) (phase : Phase)
    (attempt : Attempt) : Prop :=
  (phase = .preparing attempt.dequeuing attempt.resized ∧
      Preparing args q g attempt.dequeuing.bufferIndex []) ∨
    (phase = .swapped ∧ attempt.resized = false ∧ attempt.insertedLength = 0 ∧
      Retrying args g)

/-- An attempt after its swap. -/
def Finishing (args : ResizeArgs α) (g : Ledger T α) (phase : Phase)
    (attempt : Attempt) : Prop :=
  (phase = .swapped ∧ attempt.insertedLength = args.insert.flatten.length ∧
      args.insert.flatten <+: g.tail) ∨
    (phase = .retried ∧ attempt.insertedLength = 0 ∧ g.batch ≠ [])

/-- A call that has a batch to wait for. -/
def Waiting (phase : Phase) : Prop :=
  phase = .ongoing ∨ phase = .swapped ∨ phase = .retried

/-- The program counter of a call in each of its phases. -/
def CallInv (args : ResizeArgs α) (q : Queue B) (g : Ledger T α) (phase : Phase) :
    Pc α σ → Prop
  | .dequeueLock resize => phase = .called ∧ resize = args
  | .dequeueResize dequeuing resize =>
      (phase = .preparing dequeuing false ∧ resize = args) ∨
        (phase = .swapped ∧ resize = .none ∧ Retrying args g)
  | .dequeueInsert dequeuing resized values length =>
      (phase = .preparing dequeuing resized ∧
          Preparing args q g dequeuing.bufferIndex values) ∨
        (phase = .swapped ∧ resized = false ∧ values = [] ∧ length = 0 ∧
          Retrying args g)
  | .dequeuePublish attempt => Attempting args q g phase attempt
  | .dequeueLoad attempt => Attempting args q g phase attempt
  | .dequeueSwap attempt _ _ _ => Attempting args q g phase attempt
  | .dequeueLoadCapacity attempt _ _ => Finishing args g phase attempt
  | .dequeueStoreCapacity attempt _ _ => Finishing args g phase attempt
  | .dequeueNotify attempt _ _ => Finishing args g phase attempt
  | .dequeueSpin _ _ _ => Waiting phase
  | .dequeueSlice _ _ _ => Waiting phase ∧ g.batch ≠ []
  | .storeDequeuing dequeuing outcome =>
      (outcome = .dequeueError .pending ∧ Waiting phase ∧ g.batch ≠ []) ∨
        ((∃ error, outcome = .dequeueError error ∧ error ≠ .pending) ∧
          g.batch = [] ∧
          (phase = .empty dequeuing ∨
            (phase = .swapped ∧ args.insert.flatten = [])))
  | .slice _ _ _ _ => True
  | .idle _ => True
  | _ => False

variable {args : ResizeArgs α} {q q' : Queue B} {g g' : Ledger T α} {phase : Phase}

/-- Nothing a call knows is changed by reservations. -/
theorem CallInv.mono {pc : Pc α σ} (hinv : CallInv args q g phase pc)
    (hbatch : g'.batch = g.batch) (hstaged : g'.staged = g.staged)
    (htail : g.tail <+: g'.tail)
    (hcapacity : ∀ i, Buffer.capacity (q'.buffers i) = Buffer.capacity (q.buffers i)) :
    CallInv args q' g' phase pc := by
  have hpreparing : ∀ {i rest}, Preparing args q g i rest →
      Preparing args q' g' i rest := by
    intro i rest hprep
    refine ⟨hstaged ▸ hprep.staged_append, hprep.rest_subset, ?_⟩
    intro capa hcapa
    rw [hcapacity]
    exact hprep.target capa hcapa
  have hretrying : Retrying args g → Retrying args g' :=
    fun hretry => ⟨hretry.inserted, hretry.first.trans htail⟩
  have hattempting : ∀ {attempt}, Attempting args q g phase attempt →
      Attempting args q' g' phase attempt := by
    intro attempt hattempt
    exact hattempt.imp (fun h => ⟨h.1, hpreparing h.2⟩)
      fun h => ⟨h.1, h.2.1, h.2.2.1, hretrying h.2.2.2⟩
  have hfinishing : ∀ {attempt}, Finishing args g phase attempt →
      Finishing args g' phase attempt := by
    intro attempt hfinish
    exact hfinish.imp (fun h => ⟨h.1, h.2.1, h.2.2.trans htail⟩)
      fun h => ⟨h.1, h.2.1, hbatch ▸ h.2.2⟩
  cases pc with
  | dequeueResize _ _ => exact hinv.imp id fun h => ⟨h.1, h.2.1, hretrying h.2.2⟩
  | dequeueInsert _ _ _ _ =>
      exact hinv.imp (fun h => ⟨h.1, hpreparing h.2⟩)
        fun h => ⟨h.1, h.2.1, h.2.2.1, h.2.2.2.1, hretrying h.2.2.2.2⟩
  | dequeuePublish _ => exact hattempting hinv
  | dequeueLoad _ => exact hattempting hinv
  | dequeueSwap _ _ _ _ => exact hattempting hinv
  | dequeueLoadCapacity _ _ _ => exact hfinishing hinv
  | dequeueStoreCapacity _ _ _ => exact hfinishing hinv
  | dequeueNotify _ _ _ => exact hfinishing hinv
  | dequeueSlice _ _ _ => exact ⟨hinv.1, hbatch ▸ hinv.2⟩
  | storeDequeuing _ _ =>
      change (_ ∧ _ ∧ g'.batch ≠ []) ∨ (_ ∧ g'.batch = [] ∧ _)
      rw [hbatch]
      exact hinv
  | _ => exact hinv

theorem Finishing.waiting {attempt : Attempt} (hfinish : Finishing args g phase attempt) :
    Waiting phase :=
  hfinish.elim (fun h => Or.inr (Or.inl h.1)) fun h => Or.inr (Or.inr h.1)

/-- The end of an attempt: the batch is waited for, the attempt is made again, or the
resized queue is empty. -/
theorem callInv_dequeueFinish {attempt : Attempt} {capacity : Nat}
    {enqueuing : EnqueuingCapacity} (hswapped : Swapped q g attempt capacity enqueuing)
    (hfinish : Finishing args g phase attempt)
    (hargs : ArgsOk q (dequeueFinish attempt capacity enqueuing : Pc α σ)) :
    CallInv args q g phase (dequeueFinish attempt capacity enqueuing : Pc α σ) := by
  have hlength := hswapped.length_batch
  unfold dequeueFinish at hargs ⊢
  rw [if_neg (show ¬ capacity < enqueuing.remainingCapacity by omega)] at hargs ⊢
  by_cases hpos : capacity - enqueuing.remainingCapacity ≠ 0
  · rw [if_pos hpos]
    exact hfinish.waiting
  · rw [if_neg hpos] at hargs ⊢
    have hbatch : g.batch = [] := List.length_eq_zero_iff.mp (by omega)
    obtain ⟨rfl, hinserted, hfirst⟩ | ⟨-, -, hne⟩ := hfinish
    · by_cases hvalues : 0 < attempt.insertedLength
      · rw [if_pos hvalues]
        have hvacant : (DequeuingLength.new enqueuing.bufferIndex 0).bufferLen = 0 :=
          (DequeuingLength.new_spec enqueuing.bufferIndex (by decide)).2.1
        rw [dequeueEntry, if_pos hvacant]
        refine Or.inr ⟨rfl, rfl, ?_, hfirst⟩
        exact List.ne_nil_of_length_pos (hinserted ▸ hvalues)
      · rw [if_neg hvalues] at hargs ⊢
        have hnothing : args.insert.flatten = [] :=
          List.length_eq_zero_iff.mp (by omega)
        split
        · exact Or.inr ⟨⟨_, rfl, by decide⟩, hbatch, Or.inr ⟨rfl, hnothing⟩⟩
        · rename_i hresized
          rw [if_neg hresized] at hargs
          exact hargs.elim
    · exact absurd hbatch hne

end Invariant

section Step

variable [DecidableEq T] [Buffer B α σ] [LawfulBuffer B]
variable {args : ResizeArgs α} {s : State T B α σ} {g : Ledger T α} {t : T}
variable {phase : Phase} {q' : Queue B} {pc' : Pc α σ} {event : Event α}
variable {spurious : Bool}

omit [DecidableEq T] in
theorem Sim.call_local (hsim : Sim s g)
    (hmove : Local s.queue (s.pcs t) (.run spurious) pc')
    (hargs : ArgsOk s.queue (s.pcs t)) (hargs' : ArgsOk s.queue pc')
    (hinv : CallInv args s.queue g phase (s.pcs t)) :
    CallInv args s.queue g phase pc' := by
  have hthread := hsim.thread t
  generalize s.pcs t = pc at hmove hthread hargs hinv
  cases hmove with
  | enqueueLoad _ _ => exact hinv.elim
  | enqueueRetry _ _ _ _ => exact hinv.elim
  | keepCapacity dequeuing resize _ hkeep =>
      have hhidden : Hidden s.queue g dequeuing .staged 0 := hthread
      have hstaged := List.length_eq_zero_iff.mp (hhidden.length_staged rfl)
      obtain ⟨rfl, rfl⟩ | ⟨rfl, rfl, hretry⟩ := hinv
      · refine Or.inl ⟨rfl, ?_, fun _ h => h, fun capa hcapa => (hkeep capa hcapa).symm⟩
        rw [hstaged, List.nil_append]
      · exact Or.inr ⟨rfl, rfl, rfl, rfl, hretry⟩
  | skipEmpty dequeuing resized rest length _ =>
      obtain ⟨rfl, hprep⟩ | ⟨-, -, hnil, -⟩ := hinv
      · exact Or.inl ⟨rfl, hprep.staged_append,
          fun value hvalue => hprep.rest_subset value (List.mem_cons_of_mem _ hvalue),
          hprep.target⟩
      · cases hnil
  | stageEnd dequeuing resized values length _ hvalues =>
      have hnil : values = [] := by
        cases values with
        | nil => rfl
        | cons value rest =>
            have hlt := hvalues value rfl
            have hle : length + (value :: rest).flatten.length ≤
              Buffer.capacity (s.queue.buffers dequeuing.bufferIndex) := hargs
            rw [List.flatten_cons, List.length_append] at hle
            omega
      subst hnil
      obtain ⟨rfl, hprep⟩ | ⟨rfl, hresized, -, hlength, hretry⟩ := hinv
      · exact Or.inl ⟨rfl, hprep⟩
      · exact Or.inr ⟨rfl, hresized, hlength, hretry⟩
  | publishNothing _ _ _ => exact hinv
  | dequeueLoad _ _ _ _ _ _ _ => exact hinv
  | swapRetry _ _ _ _ _ => exact hinv
  | capacityDiffers _ _ _ _ _ => exact hinv
  | capacitySame _ _ _ _ _ => exact hinv
  | dequeueNotify _ _ _ _ => exact callInv_dequeueFinish hthread hinv hargs'
  | spinDone _ _ _ _ _ => exact ⟨hinv, hthread.1.batch_ne_nil hthread.2⟩
  | spinAgain _ _ _ _ _ _ => exact hinv
  | spinPending _ _ _ _ _ _ =>
      exact Or.inl ⟨rfl, hinv, hthread.1.batch_ne_nil hthread.2⟩
  | _ => exact hargs'.elim

omit [DecidableEq T] in
theorem Sim.call_foundEmpty (hsim : Sim s g) {attempt : Attempt} {error : TryDequeueError}
    (hhidden : Hidden s.queue g attempt.dequeuing .published attempt.insertedLength)
    (hempty : s.queue.enqueuingCapacity.remainingCapacity =
      Buffer.capacity (s.queue.buffers s.queue.enqueuingCapacity.bufferIndex))
    (herror : error = if s.queue.enqueuingCapacity.isClosed then .closed else .empty)
    (hresized : attempt.resized = false) (hinserted : attempt.insertedLength = 0)
    (hinv : CallInv args s.queue g phase (.dequeueLoad attempt : Pc α σ)) :
    CallStep args g.view phase (.foundEmpty error) (phase.next (.foundEmpty error : Event α)) ∧
      CallInv args s.queue g (phase.next (.foundEmpty error : Event α))
        (.storeDequeuing attempt.dequeuing (.dequeueError error) : Pc α σ) := by
  have htail : g.tail = [] := by
    rw [Ledger.tail, hsim.shared.enqueuing_eq_nil_iff.mpr hempty, contents_nil]
  have hbatch := hhidden.batch_eq_nil rfl
  have hstaged : g.staged = [] :=
    List.length_eq_zero_iff.mp ((hhidden.length_staged rfl).trans hinserted)
  obtain ⟨rfl, hprep⟩ | ⟨-, -, -, hretry⟩ := hinv
  · have hnothing := hprep.staged_append
    rw [hstaged] at hnothing
    rw [hresized]
    refine ⟨.foundEmpty _ _ hbatch htail hstaged hnothing.symm, Or.inr ⟨?_, hbatch,
      Or.inl rfl⟩⟩
    refine ⟨error, rfl, ?_⟩
    rw [herror]
    split
    · decide
    · decide
  · have hfirst := hretry.first
    rw [htail] at hfirst
    exact absurd (List.prefix_nil.mp hfirst) hretry.inserted

/-- The first swap shows what was staged; the second one is made for it. -/
theorem Sim.call_swap (hsim : Sim s g) {attempt : Attempt} {capacity : Nat}
    {nextEnqueuing : EnqueuingCapacity}
    (hswap : Swapping s.queue g attempt capacity nextEnqueuing s.queue.enqueuingCapacity)
    (hview : (g.next t (.swapped attempt.dequeuing.bufferIndex)).view =
      g.view.next (.swapped attempt.dequeuing.bufferIndex))
    (hinv : CallInv args s.queue g phase (.dequeueSwap attempt capacity nextEnqueuing
      s.queue.enqueuingCapacity : Pc α σ)) :
    CallStep args g.view phase (.swapped attempt.dequeuing.bufferIndex)
        (phase.next (.swapped attempt.dequeuing.bufferIndex : Event α)) ∧
      CallInv args { s.queue with enqueuingCapacity :=
            nextEnqueuing.withClosed s.queue.enqueuingCapacity }
        (g.next t (.swapped attempt.dequeuing.bufferIndex))
        (phase.next (.swapped attempt.dequeuing.bufferIndex : Event α))
        (.dequeueLoadCapacity attempt capacity s.queue.enqueuingCapacity : Pc α σ) := by
  have hbatch := hswap.hidden.batch_eq_nil rfl
  have hlength := hswap.hidden.length_staged rfl
  have hbatch' : (g.next t (.swapped attempt.dequeuing.bufferIndex)).batch = g.tail :=
    congrArg View.batch hview
  have htail' : (g.next t (.swapped attempt.dequeuing.bufferIndex)).tail = g.staged :=
    congrArg View.tail hview
  obtain ⟨rfl, hprep⟩ | ⟨rfl, -, hzero, hretry⟩ := hinv
  · have hstaged := hprep.staged_append
    rw [List.flatten_nil, List.append_nil] at hstaged
    refine ⟨.swap _ _ hbatch hstaged ?_, Or.inl ⟨rfl, ?_, ?_⟩⟩
    · obtain hne | hresized | hpos := hswap.work
      · left
        intro htail
        exact hne (hsim.shared.tiles_eq_nil (List.length_eq_zero_iff.mpr htail))
      · exact Or.inr (Or.inl hresized)
      · right; right
        rw [← hstaged]
        exact List.ne_nil_of_length_pos (hlength ▸ hpos)
    · rw [← hstaged, hlength]
    · rw [htail', hstaged]
  · have hstaged : g.staged = [] :=
      List.length_eq_zero_iff.mp (hlength.trans hzero)
    refine ⟨.retry _ hbatch hstaged hretry.inserted hretry.first,
      Or.inr ⟨rfl, hzero, ?_⟩⟩
    rw [hbatch']
    intro hnil
    have hfirst := hretry.first
    rw [hnil] at hfirst
    exact hretry.inserted (List.prefix_nil.mp hfirst)

/-- Every step of a call is one its phase allows, and leads to the next phase. -/
theorem Sim.call_step (hsim : Sim s g)
    (hmove : Transition s.queue (s.pcs t) (.run spurious) q' pc' event)
    (hargs : ArgsOk s.queue (s.pcs t)) (hargs' : ArgsOk q' pc')
    (hinv : CallInv args s.queue g phase (s.pcs t)) :
    CallStep args g.view phase event (phase.next event) ∧
      CallInv args q' (g.next t event) (phase.next event) pc' := by
  have hview := hsim.view_step hmove
  have hthread := hsim.thread t
  generalize hpc : s.pcs t = pc at hmove hthread hargs hinv
  cases hmove with
  | silent hlocal =>
      rw [← hpc] at hlocal hargs hinv
      exact ⟨.silent phase, hsim.call_local hlocal hargs hargs' hinv⟩
  | reserve _ _ => exact hinv.elim
  | insert _ _ _ _ _ => exact hinv.elim
  | acknowledge _ _ _ => exact hinv.elim
  | conflict _ _ _ => exact ⟨.silent phase, trivial⟩
  | lock resize _ hopen =>
      obtain ⟨rfl, rfl⟩ := hinv
      have hstored := hsim.stored hopen
      have hlength := hstored.batch.length_batch
      by_cases hvacant : (DequeuingLength.mk s.queue.dequeuingLength).bufferLen = 0
      · rw [Phase.next, if_pos hvacant, dequeueEntry, if_pos hvacant]
        refine ⟨.lock _ ?_ ?_ hvacant, Or.inl ⟨rfl, rfl⟩⟩
        · exact List.length_eq_zero_iff.mp (hlength.trans hvacant)
        · exact Ledger.staged_eq_nil_of_visible hstored.batch.other
            hstored.batch.visible
      · rw [Phase.next, if_neg hvacant, dequeueEntry, if_neg hvacant]
        exact ⟨.lockBatch _ (hstored.batch.batch_ne_nil (Nat.pos_of_ne_zero hvacant))
          hlength.symm, Or.inl rfl⟩
  | resize dequeuing resize _ capa b hcapa hne hcheck hresize =>
      have hhidden : Hidden s.queue g dequeuing .staged 0 := hthread
      have hstaged := List.length_eq_zero_iff.mp (hhidden.length_staged rfl)
      obtain ⟨rfl, rfl⟩ | ⟨-, rfl, -⟩ := hinv
      · refine ⟨.resize _ capa hcapa, Or.inl ⟨rfl, ?_, fun _ h => h, ?_⟩⟩
        · change g.staged ++ _ = _
          rw [hstaged, List.nil_append]
        · intro capa' hcapa'
          rw [Queue.buffers_setBuffer, if_pos rfl, LawfulBuffer.capacity_resize hresize]
          exact Option.some.inj (hcapa.symm.trans hcapa')
      · cases hcapa
  | stage dequeuing resized value rest length _ b hvalue hle hinsert =>
      obtain ⟨rfl, hprep⟩ | ⟨-, -, hnil, -⟩ := hinv
      · refine ⟨.stage _ _ _ (hprep.rest_subset value List.mem_cons_self) hvalue,
          Or.inl ⟨rfl, ?_, ?_, ?_⟩⟩
        · have hstaged := congrArg View.staged hview
          change (g.next t _).staged = g.staged ++ value at hstaged
          rw [hstaged, List.append_assoc, ← List.flatten_cons]
          exact hprep.staged_append
        · intro value' hvalue'
          exact hprep.rest_subset value' (List.mem_cons_of_mem _ hvalue')
        · intro capa hcapa
          rw [Queue.capacity_setBuffer (LawfulBuffer.capacity_insertInto hinsert)]
          exact hprep.target capa hcapa
      · cases hnil
  | publish attempt _ hpos =>
      have htail : g.tail <+: (g.next t (.published attempt.dequeuing.bufferIndex)).tail :=
        ⟨[], (List.append_nil _).trans (congrArg View.tail hview).symm⟩
      have hkeep : CallInv args (s.queue.addLength attempt.dequeuing.bufferIndex
          attempt.insertedLength) (g.next t (.published attempt.dequeuing.bufferIndex))
          phase (.dequeueLoad attempt : Pc α σ) :=
        CallInv.mono (show CallInv args s.queue g phase (.dequeueLoad attempt) from hinv)
          (congrArg View.batch hview) (congrArg View.staged hview) htail fun _ => rfl
      obtain ⟨rfl, hprep⟩ | ⟨-, -, hzero, -⟩ := hinv
      · refine ⟨.publish _ _ ?_, hkeep⟩
        have hstaged := hprep.staged_append
        rwa [List.flatten_nil, List.append_nil] at hstaged
      · omega
  | foundEmpty attempt _ hindex hempty hresized hinserted =>
      exact hsim.call_foundEmpty hthread.1 hempty rfl hresized hinserted hinv
  | swap attempt capacity nextEnqueuing => exact hsim.call_swap hthread hview hinv
  | storeCapacity _ _ _ _ => exact ⟨.silent phase, hinv⟩
  | slice i start stop _ slice hslice =>
      have hrange : Range s.queue g i start stop := hthread
      have hlength : start + g.batch.length = stop := by
        rw [hrange.batch_eq]
        exact hrange.length_drop
      exact ⟨.slice _ _ _ _ hinv.1 hinv.2 hlength, trivial⟩
  | clear _ _ _ _ _ _ _ => exact hinv.elim
  | release _ _ => exact hinv.elim
  | unlock dequeuing outcome _ =>
      have hlength := hthread.batch.length_batch
      obtain ⟨-, hwaiting, hbatch⟩ | ⟨-, hbatch, rfl | ⟨rfl, hnothing⟩⟩ := hinv
      · exact ⟨.pending _ _ hwaiting hbatch hlength.symm, trivial⟩
      · exact ⟨.unchanged _, trivial⟩
      · refine ⟨.resized _ hbatch ?_ hnothing, trivial⟩
        rw [← hlength, hbatch, List.length_nil]

theorem Sim.callInv_other (hsim : Sim s g) {t' : T} (ht' : t ≠ t') {action : Action α}
    (hmove : Transition s.queue (s.pcs t') action q' pc' event)
    (hinv : CallInv args s.queue g phase (s.pcs t)) :
    CallInv args q' (g.next t' event) phase (s.pcs t) := by
  by_cases hholds : (s.pcs t).holds = true
  · have hfree : (s.pcs t').holds = false :=
      Bool.eq_false_iff.mpr fun hother => ht' (hsim.exclusive hholds hother)
    have hview := (hsim.view_step hmove).trans (hmove.view_of_not_holds hfree g.view)
    exact hinv.mono (congrArg View.batch hview) (congrArg View.staged hview)
      ⟨event.added, (congrArg View.tail hview).symm⟩ (hmove.capacity_eq hfree)
  · generalize s.pcs t = pc at hinv hholds
    cases pc with
    | idle _ => exact trivial
    | dequeueLock _ => exact hinv
    | enqueueLoad _ => exact hinv.elim
    | enqueueReserve _ _ _ => exact hinv.elim
    | enqueueInsert _ _ => exact hinv.elim
    | enqueueAcknowledge _ _ => exact hinv.elim
    | _ => exact absurd rfl hholds

end Step

section Run

variable [DecidableEq T] [Buffer B α σ] [LawfulBuffer B]
variable {args : ResizeArgs α} {start s : State T B α σ} {t : T}
variable {before during : List ((T × Action α) × Event α)}

/-- A trace with a call of `try_dequeue_and_resize`, and what happened since. -/
def callTrace (t : T) (args : ResizeArgs α)
    (before during : List ((T × Action α) × Event α)) :
    List ((T × Action α) × Event α) :=
  before ++ ((t, .tryDequeueAndResize args), .silent) :: during

/-- The activity made no other call. -/
def OneCall (t : T) (during : List ((T × Action α) × Event α)) : Prop :=
  ∀ entry ∈ during, entry.1.1 = t → ∃ spurious, entry.1.2 = .run spurious

omit [DecidableEq T] in
theorem callTrace_append_singleton (entry : (T × Action α) × Event α) :
    callTrace t args before (during ++ [entry]) =
      callTrace t args before during ++ [entry] := by
  simp [callTrace]

theorem callPhase_append_singleton (label : T × Action α) (event : Event α) :
    callPhase t (during ++ [(label, event)]) =
      if label.1 = t then (callPhase t during).next event else callPhase t during := by
  simp [callPhase]

theorem callInv_of_run (hinitial : Initial start)
    (hrun : Runs.Run SwapBufferQueue.step CallsOk start (callTrace t args before during) s)
    (hcall : OneCall t during) :
    CallInv args s.queue (Ledger.ofTrace (callTrace t args before during))
      (callPhase t during) (s.pcs t) := by
  induction during using List.reverseRecOn generalizing s with
  | nil =>
      obtain ⟨state, -, -, hstep⟩ := hrun.snoc_inv
      obtain ⟨q', pc', hmove, rfl⟩ := step_cases hstep
      generalize state.pcs t = pc at hmove
      change CallInv args q' _ _ (Function.update state.pcs t pc' t)
      rw [Function.update_self]
      cases hmove with
      | silent hlocal =>
          cases hlocal with
          | tryDequeueAndResize _ _ => exact ⟨rfl, rfl⟩
  | append_singleton during entry ih =>
      obtain ⟨⟨t', action⟩, event⟩ := entry
      rw [callTrace_append_singleton] at hrun ⊢
      rw [callPhase_append_singleton, Ledger.ofTrace_append_singleton]
      have hargs' := argsOk_of_run hinitial (fun _ _ h => h) hrun t
      obtain ⟨state, hprefix, hok, hstep⟩ := hrun.snoc_inv
      have hsim := sim_of_run hinitial (fun _ _ h => h.size) hprefix
      have hargs := argsOk_of_run hinitial (fun _ _ h => h) hprefix t
      have hinv := ih hprefix fun entry hentry => hcall entry (List.mem_append_left _ hentry)
      obtain ⟨q', pc', hmove, rfl⟩ := step_cases hstep
      change ArgsOk q' (Function.update state.pcs t' pc' t) at hargs'
      change CallInv args q' _ _ (Function.update state.pcs t' pc' t)
      by_cases ht : t' = t
      · subst ht
        obtain ⟨spurious, hrun'⟩ := hcall ((t', action), event) (by simp) rfl
        obtain rfl : action = .run spurious := hrun'
        rw [Function.update_self] at hargs' ⊢
        rw [if_pos rfl]
        exact (hsim.call_step hmove hargs hargs' hinv).2
      · rw [Function.update_of_ne (Ne.symm ht)]
        rw [if_neg ht]
        exact hsim.callInv_other (Ne.symm ht) hmove hinv

def NoSwap (rest : List ((T × Action α) × Event α)) : Prop :=
  ∀ entry ∈ rest, ∀ i, entry.2 ≠ .swapped i

omit [DecidableEq T] in
theorem reservedValues_append_singleton (rest : List ((T × Action α) × Event α))
    (label : T × Action α) (event : Event α) :
    (reservedValues (rest ++ [(label, event)])).flatten =
      (reservedValues rest).flatten ++ event.added := by
  rw [reservedValues, reservedValues, List.filterMap_append, List.flatten_append]
  cases event <;> simp [Event.added]

omit [DecidableEq T] in
theorem Sim.capacity_enqueuing {g : Ledger T α} (hsim : Sim s g) {action : Action α}
    {q' : Queue B} {pc' : Pc α σ} {event : Event α}
    (hmove : Transition s.queue (s.pcs t) action q' pc' event) :
    Buffer.capacity (q'.buffers g.enqueuing) =
      Buffer.capacity (s.queue.buffers g.enqueuing) := by
  have hthread := hsim.thread t
  generalize s.pcs t = pc at hmove hthread
  cases hmove with
  | insert _ _ _ _ hinsert =>
      exact Queue.capacity_setBuffer (LawfulBuffer.capacity_insertInto hinsert) _
  | resize dequeuing _ _ _ _ _ _ _ hresize =>
      have hhidden : Hidden s.queue g dequeuing .staged 0 := hthread
      rw [Queue.buffers_setBuffer, if_neg hhidden.other.symm]
  | stage _ _ _ _ _ _ _ _ _ hinsert =>
      exact Queue.capacity_setBuffer (LawfulBuffer.capacity_insertInto hinsert) _
  | remove i start stop _ _ _ _ =>
      have hrange : Range s.queue g i start stop := hthread
      rw [Queue.buffers_setBuffer, if_neg hrange.other.symm]
  | clear i start stop _ _ _ _ =>
      have hrange : Range s.queue g i start stop := hthread
      rw [Queue.buffers_setBuffer, if_neg hrange.other.symm]
  | _ => rfl

/-- Until the next swap the tail grows by the reservations and the enqueuing buffer
keeps its capacity. -/
theorem tail_since_swap (hinitial : Initial start)
    (hbefore : Runs.Run SwapBufferQueue.step CallsOk start before s)
    {rest : List ((T × Action α) × Event α)} {s' : State T B α σ}
    (hrest : Runs.Run SwapBufferQueue.step CallsOk s rest s') (hswap : NoSwap rest) :
    (Ledger.ofTrace (before ++ rest)).tail =
        (Ledger.ofTrace before).tail ++ (reservedValues rest).flatten ∧
      (Ledger.ofTrace (before ++ rest)).enqueuing = (Ledger.ofTrace before).enqueuing ∧
      Buffer.capacity (s'.queue.buffers (Ledger.ofTrace before).enqueuing) =
        Buffer.capacity (s.queue.buffers (Ledger.ofTrace before).enqueuing) := by
  induction hrest with
  | nil => simp [reservedValues]
  | @snoc rest state state' label event hprefix hok hstep ih =>
      obtain ⟨t', action⟩ := label
      obtain ⟨htail, hindex, hcapacity⟩ :=
        ih fun entry hentry => hswap entry (List.mem_append_left _ hentry)
      have hsim := sim_of_run hinitial (fun _ _ h => h.size) (hbefore.append hprefix)
      obtain ⟨q', pc', hmove, rfl⟩ := step_cases hstep
      have hview := congrArg View.tail (hsim.view_step hmove)
      have hkeep := hsim.capacity_enqueuing hmove
      have hnone := hswap ((t', action), event) (by simp)
      rw [← List.append_assoc, Ledger.ofTrace_append_singleton,
        reservedValues_append_singleton, ← List.append_assoc, ← htail]
      rw [hindex] at hkeep
      refine ⟨?_, ?_, hkeep.trans hcapacity⟩
      · refine hview.trans ?_
        cases event with
        | swapped i => exact absurd rfl (hnone i)
        | reserved _ _ => rfl
        | _ => exact (List.append_nil _).symm
      · rw [← hindex]
        cases event with
        | swapped i => exact absurd rfl (hnone i)
        | _ => rfl

/-- The events that leave both buffers, their lengths and the enqueuing word alone. -/
def Event.Untouched : Event α → Prop
  | .silent => True
  | .locked _ => True
  | .foundEmpty _ => True
  | .sliced _ _ _ => True
  | .unlocked _ => True
  | _ => False

/-- One step of a call, seen from the queue: it is allowed in its phase, its event
says all that changes, and what it returns is the batch, or the reason why there is
none to return. -/
structure Exchange (args : ResizeArgs α) (t : T) (g : Ledger T α) (phase : Phase)
    (s s' : State T B α σ) (event : Event α) : Prop where
  allowed : CallStep args g.view phase event (phase.next event)
  noPanic (panic : Panic) : s'.pcs t ≠ .panicked panic
  /-- The insert closure is called after the resize, which an ongoing batch skips. -/
  notCalled : phase = .ongoing → ∀ dequeuing resize,
    s.pcs t ≠ .dequeueResize dequeuing resize
  locked {dequeuing : DequeuingLength} : event = .locked dequeuing →
    s.queue.dequeuingLength = dequeuing.word
  effect : (g.next t event).view = g.view.next event
  untouched : event.Untouched → s'.queue.buffers = s.queue.buffers ∧
    s'.queue.buffersLength = s.queue.buffersLength ∧
    s'.queue.enqueuingCapacity = s.queue.enqueuingCapacity
  capacity : phase ≠ .swapped → phase ≠ .retried → s'.queue.capacity = s.queue.capacity
  sliced {i : Fin 2} {start stop : Nat} : event = .sliced i start stop →
    ∃ slice, s'.pcs t = .slice i start stop slice ∧ LawfulBuffer.Shows B slice g.batch
  unlocked {dequeuing : DequeuingLength} : event = .unlocked dequeuing →
    s'.queue.dequeuingLength = dequeuing.word ∧
      ∃ error, s'.pcs t = .idle (some (.dequeueError error)) ∧
        (error = .pending ↔ g.batch ≠ [])

/-- Every step of a call is a step of the exchange. -/
theorem Sim.exchange {g : Ledger T α} (hsim : Sim s g) {phase : Phase} {q' : Queue B}
    {pc' : Pc α σ} {event : Event α} {spurious : Bool}
    (hmove : Transition s.queue (s.pcs t) (.run spurious) q' pc' event)
    (hargs : ArgsOk s.queue (s.pcs t)) (hargs' : ArgsOk q' pc')
    (hinv : CallInv args s.queue g phase (s.pcs t))
    (hsim' : Sim ⟨q', Function.update s.pcs t pc'⟩ (g.next t event)) :
    Exchange args t g phase s (⟨q', Function.update s.pcs t pc'⟩ : State T B α σ)
      event := by
  have hself := hsim'.self
  have hpcs : (⟨q', Function.update s.pcs t pc'⟩ : State T B α σ).pcs t = pc' :=
    Function.update_self t pc' s.pcs
  refine ⟨(hsim.call_step hmove hargs hargs' hinv).1, ?_, ?_, ?_, hsim.view_step hmove,
    ?_, ?_, ?_, ?_⟩
  · intro panic hpanic
    rw [hpcs] at hpanic
    rw [hpanic] at hargs'
    exact hargs'
  · rintro rfl dequeuing resize hpc
    rw [hpc] at hinv
    obtain ⟨hphase, -⟩ | ⟨hphase, -⟩ := hinv
    · cases hphase
    · cases hphase
  · intro dequeuing hevent
    generalize s.pcs t = pc at hmove
    cases hmove with
    | lock _ _ _ =>
        cases hevent
        rfl
    | _ => cases hevent
  · intro hevent
    generalize s.pcs t = pc at hmove
    cases hmove <;> first | exact ⟨rfl, rfl, rfl⟩ | exact hevent.elim
  · intro hswapped hretried
    generalize s.pcs t = pc at hmove hinv
    cases hmove with
    | storeCapacity attempt _ _ _ =>
        obtain ⟨hphase, -⟩ | ⟨hphase, -⟩ := hinv
        · exact absurd hphase hswapped
        · exact absurd hphase hretried
    | _ => rfl
  · intro i start stop hevent
    generalize s.pcs t = pc at hmove
    cases hmove with
    | slice _ _ _ _ slice _ =>
        cases hevent
        have hbatch : g.batch = _ := hself.1.batch_eq
        refine ⟨slice, hpcs, ?_⟩
        rw [hbatch]
        exact hself.2
    | _ => cases hevent
  · intro dequeuing hevent
    generalize s.pcs t = pc at hmove hinv
    cases hmove with
    | unlock _ outcome _ =>
        cases hevent
        obtain ⟨rfl, -, hbatch⟩ | ⟨⟨error, rfl, herror⟩, hbatch, -⟩ := hinv
        · exact ⟨rfl, _, hpcs, iff_of_true rfl hbatch⟩
        · exact ⟨rfl, error, hpcs, iff_of_false herror (not_not.mpr hbatch)⟩
    | _ => cases hevent

theorem Sim.first_swap {g : Ledger T α} (hsim : Sim s g) {i : Fin 2}
    {dequeuing : DequeuingLength} {resized : Bool} {q' : Queue B} {pc' : Pc α σ}
    {action : Action α}
    (hmove : Transition s.queue (s.pcs t) action q' pc' (.swapped i))
    (hinv : CallInv args s.queue g (.preparing dequeuing resized) (s.pcs t)) :
    (g.next t (.swapped i)).tail = args.insert.flatten ∧
      ∀ capa ∈ args.capacity,
        Buffer.capacity (q'.buffers (g.next t (.swapped i)).enqueuing) = capa := by
  have htail := congrArg View.tail (hsim.view_step hmove)
  generalize hevent : (Event.swapped i : Event α) = event at hmove
  generalize s.pcs t = pc at hmove hinv
  cases hmove with
  | swap attempt _ _ =>
      cases hevent
      obtain ⟨hphase, hprep⟩ | ⟨hphase, -⟩ := hinv
      · have hstaged := hprep.staged_append
        rw [List.flatten_nil, List.append_nil] at hstaged
        exact ⟨htail.trans hstaged, hprep.target⟩
      · cases hphase
  | _ => cases hevent

/-- `try_dequeue_and_resize` is atomic: every step of a call is one of the exchange,
the others only append to the tail while it goes on, and from its first swap on the
inserted values come before every later reservation, in a buffer of the requested
capacity. -/
theorem dequeue_and_resize_atomic (hinitial : Initial start)
    (hrun : Runs.Run SwapBufferQueue.step CallsOk start (callTrace t args before during) s)
    (hcall : OneCall t during) {label : T × Action α} {s' : State T B α σ}
    {event : Event α} (hok : CallsOk s label)
    (hstep : SwapBufferQueue.step s label = some (s', event)) :
    (label.1 = t → (∃ spurious, label.2 = .run spurious) →
        Exchange args t (Ledger.ofTrace (callTrace t args before during))
          (callPhase t during) s s' event) ∧
      (label.1 ≠ t → (s.pcs t).holds = true →
        ((Ledger.ofTrace (callTrace t args before during)).next label.1 event).view =
          { (Ledger.ofTrace (callTrace t args before during)).view with
            tail := (Ledger.ofTrace (callTrace t args before during)).tail ++
              event.added }) ∧
      (∀ i dequeuing resized, label.1 = t → event = .swapped i →
        callPhase t during = .preparing dequeuing resized →
          ∀ rest s'', Runs.Run SwapBufferQueue.step CallsOk s' rest s'' → NoSwap rest →
            (Ledger.ofTrace (callTrace t args before during ++
              (label, event) :: rest)).tail =
                args.insert.flatten ++ (reservedValues rest).flatten ∧
            s''.queue.enqueuingCapacity.remainingCapacity + args.insert.flatten.length +
              (reservedValues rest).flatten.length =
                Buffer.capacity (s''.queue.buffers
                  s''.queue.enqueuingCapacity.bufferIndex) ∧
            ∀ capa ∈ args.capacity, Buffer.capacity (s''.queue.buffers
              s''.queue.enqueuingCapacity.bufferIndex) = capa) := by
  obtain ⟨t', action⟩ := label
  have hsim := sim_of_run hinitial (fun _ _ h => h.size) hrun
  have hwhole := hrun.snoc hok hstep
  have hsim' := hsim.step hok.size hstep
  have hinv := callInv_of_run hinitial hrun hcall
  have hargs := argsOk_of_run hinitial (fun _ _ h => h) hrun t
  have hargs' := argsOk_of_run hinitial (fun _ _ h => h) hwhole t
  obtain ⟨q', pc', hmove, rfl⟩ := step_cases hstep
  refine ⟨?_, ?_, ?_⟩
  · rintro rfl ⟨spurious, rfl⟩
    change ArgsOk q' (Function.update s.pcs t' pc' t') at hargs'
    rw [Function.update_self] at hargs'
    exact hsim.exchange hmove hargs hargs' hinv hsim'
  · intro ht' hholds
    have hfree : (s.pcs t').holds = false :=
      Bool.eq_false_iff.mpr fun hother => ht' (hsim.exclusive hother hholds)
    exact (hsim.view_step hmove).trans (hmove.view_of_not_holds hfree _)
  · rintro i dequeuing resized rfl rfl hphase rest s'' hrest hno
    rw [hphase] at hinv
    obtain ⟨hfirst, htarget⟩ := hsim.first_swap hmove hinv
    obtain ⟨htail, hindex, hcapacity⟩ := tail_since_swap hinitial hwhole hrest hno
    have hsim'' := sim_of_run hinitial (fun _ _ h => h.size) (hwhole.append hrest)
    have hadd := hsim''.shared.extent_add
    rw [Ledger.ofTrace_append_singleton] at htail hindex hcapacity
    rw [← hsim''.shared.enqueuing, ← List.singleton_append, ← List.append_assoc]
    rw [hfirst] at htail
    refine ⟨htail, ?_, ?_⟩
    · rw [extent, ← Ledger.tail, htail, List.length_append] at hadd
      omega
    · intro capa hcapa
      rw [hindex, hcapacity]
      exact htarget capa hcapa

end Run

section Witness

theorem run_callTrace [DecidableEq T] [Buffer B α σ]
    {ok : State T B α σ → T × Action α → Prop} {start s : State T B α σ}
    {whole : List ((T × Action α) × Event α)}
    (hrun : Runs.Run SwapBufferQueue.step ok start whole s) (n : Nat) (t : T)
    (args : ResizeArgs α)
    (hentry : whole[n]? = some ((t, .tryDequeueAndResize args), .silent)) :
    Runs.Run SwapBufferQueue.step ok start
      (callTrace t args (whole.take n) (whole.drop (n + 1))) s := by
  obtain ⟨hlt, hget⟩ := List.getElem?_eq_some_iff.mp hentry
  rwa [callTrace, ← hget, List.getElem_cons_drop, List.take_append_drop]

instance instDecidableOneCall [DecidableEq T] [DecidableEq α] (t : T)
    (during : List ((T × Action α) × Event α)) : Decidable (OneCall t during) :=
  inferInstanceAs (Decidable (∀ entry ∈ during, entry.1.1 = t →
    ∃ spurious, entry.1.2 = .run spurious))

/-- A value is enqueued, then a call resizes the other buffer, inserts two values and
swaps. -/
theorem dequeue_and_resize_atomic_first_swap :
    ∃ (start : State Nat (VecBuffer Nat) Nat (List Nat)) (before : _) (during : _)
        (s s' : State Nat (VecBuffer Nat) Nat (List Nat)) (event : Event Nat),
      Initial start ∧
      Runs.Run SwapBufferQueue.step CallsOk start
        (callTrace 1 ⟨some 3, [[8], [9]]⟩ before during) s ∧
      OneCall 1 during ∧ CallsOk s (1, .run false) ∧
      SwapBufferQueue.step s (1, .run false) = some (s', event) ∧
      (∃ i, event = .swapped i) ∧
      s'.queue.enqueuingCapacity.remainingCapacity = 1 ∧
      Exchange ⟨some 3, [[8], [9]]⟩ 1
        (Ledger.ofTrace (callTrace 1 ⟨some 3, [[8], [9]]⟩ before during))
        (callPhase 1 during) s s' event := by
  have hrun := Runs.run_of_isSome SwapBufferQueue.step CallsOk
    (State.ofQueue ((Queue.withCapacity 1).get (by decide +kernel)) :
      State Nat (VecBuffer Nat) Nat (List Nat))
    (List.flatten [[(0, .tryEnqueue [7])], List.replicate 4 (0, .run false),
      [(1, .tryDequeueAndResize ⟨some 3, [[8], [9]]⟩)], List.replicate 7 (1, .run false)])
    (by decide +kernel) (by decide +kernel)
  have hinitial := initial_withCapacity (T := Nat) (B := VecBuffer Nat)
    (show (Queue.withCapacity 1).isSome = true by decide +kernel)
  have hcalled := run_callTrace hrun 5 1 ⟨some 3, [[8], [9]]⟩ (by decide +kernel)
  refine ⟨_, _, _, _, _, _, hinitial, hcalled, ?hcall, ?hok,
    (Option.some_get ?hsome).symm, ⟨⟨1, Nat.one_lt_two⟩, ?_⟩, ?_,
    (dequeue_and_resize_atomic hinitial hcalled ?hcall ?hok
      (Option.some_get ?hsome).symm).1 rfl ⟨false, rfl⟩⟩
  all_goals decide +kernel

end Witness

end SwapBufferQueue
