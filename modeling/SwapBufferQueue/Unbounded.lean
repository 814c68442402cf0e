/-
The amortized unbounded recipe is an unbounded queue.  A value is accepted when its
reservation succeeds or when it is pushed on the overflow; the values are delivered
in the order in which they were accepted, and the values of one thread are accepted
in the order in which it sent them.
-/
import SwapBufferQueue.RecipeInvariant

namespace SwapBufferQueue

universe u v w x

open Tiling

variable {T : Type x} {α : Type v}

section Traces

/-- The calls of the queue along a run of the recipe. -/
def baseTrace (trace : List ((T × RecipeAction α) × RecipeEvent α)) :
    List ((T × Action α) × Event α) :=
  trace.filterMap fun entry =>
    match entry.2 with
    | .called action event => some ((entry.1.1, action), event)
    | _ => none

theorem baseTrace_append_called (trace : List ((T × RecipeAction α) × RecipeEvent α))
    (t : T) (label : RecipeAction α) (action : Action α) (event : Event α) :
    baseTrace (trace ++ [((t, label), .called action event)]) =
      baseTrace trace ++ [((t, action), event)] := by
  simp [baseTrace]

theorem baseTrace_append_of_not_called
    (trace : List ((T × RecipeAction α) × RecipeEvent α)) (label : T × RecipeAction α)
    {event : RecipeEvent α} (hevent : ∀ action shown, event ≠ .called action shown) :
    baseTrace (trace ++ [(label, event)]) = baseTrace trace := by
  cases event with
  | called action shown => exact absurd rfl (hevent action shown)
  | _ => simp [baseTrace]

/-- The value accepted by a step: its reservation succeeded, or it was pushed. -/
def RecipeEvent.accepted : RecipeEvent α → List α
  | .called _ event => event.added
  | .pushed value => [value]
  | .silent => []

/-- The value sent by a call of `enqueue_unbounded`. -/
def RecipeAction.sent : RecipeAction α → List α
  | .enqueueUnbounded value => [value]
  | _ => []

/-- The values accepted, with the threads that sent them, in the order of the
accepting steps. -/
def acceptedValues (trace : List ((T × RecipeAction α) × RecipeEvent α)) :
    List (T × α) :=
  trace.flatMap fun entry => entry.2.accepted.map fun value => (entry.1.1, value)

variable [DecidableEq T]

/-- The values of a list that come from a thread. -/
def valuesOf (t : T) (values : List (T × α)) : List α :=
  (values.filter fun entry => entry.1 = t).map Prod.snd

/-- The values a thread sent, in the order of its calls. -/
def sentBy (t : T) (trace : List ((T × RecipeAction α) × RecipeEvent α)) : List α :=
  valuesOf t (trace.flatMap fun entry =>
    entry.1.2.sent.map fun value => (entry.1.1, value))

variable (trace : List ((T × RecipeAction α) × RecipeEvent α)) (t : T)
  (action : RecipeAction α) (event : RecipeEvent α)

omit [DecidableEq T] in
theorem acceptedValues_append_singleton :
    acceptedValues (trace ++ [((t, action), event)]) =
      acceptedValues trace ++ event.accepted.map fun value => (t, value) := by
  simp [acceptedValues]

theorem valuesOf_append_map (values : List (T × α)) (added : List α) (t' : T) :
    valuesOf t' (values ++ added.map fun value => (t, value)) =
      valuesOf t' values ++ if t = t' then added else [] := by
  rw [valuesOf, List.filter_append, List.map_append, List.filter_map]
  by_cases ht : t = t'
  · subst ht
    simp [valuesOf, Function.comp_def]
  · simp [valuesOf, Function.comp_def, ht]

theorem sentBy_append_singleton (t' : T) :
    sentBy t' (trace ++ [((t, action), event)]) =
      sentBy t' trace ++ if t = t' then action.sent else [] := by
  rw [sentBy, List.flatMap_append, List.flatMap_singleton, valuesOf_append_map, sentBy]

end Traces

section Sent

/-- The value of a `try_enqueue` that is not accepted yet. -/
def Pc.unaccepted {σ : Type w} : Pc α σ → List α
  | .enqueueLoad value => value
  | .enqueueReserve value _ _ => value
  | .idle (some (.enqueueError (.insufficientCapacity value))) => value
  | _ => []

/-- The value of an `enqueue_unbounded` that is not accepted yet. -/
def Control.unaccepted (pc : Pc α (List α)) : Control α → List α
  | .firstTry _ => pc.unaccepted
  | .lockOverflow value => [value]
  | .retry value => [value]
  | .secondTry _ => pc.unaccepted
  | .push value => [value]
  | _ => []

variable {q q' : Queue (VecBuffer α)} {pc pc' : Pc α (List α)} {action : Action α}
  {event : Event α}

theorem Transition.added_eq_nil (hmove : Transition q pc action q' pc' event)
    (hpc : ∀ value enqueuing next, pc ≠ .enqueueReserve value enqueuing next) :
    event.added = [] := by
  cases hmove with
  | reserve value next => exact absurd rfl (hpc value _ next)
  | _ => rfl

theorem unaccepted_enqueueCheck (value : List α) {enqueuing : EnqueuingCapacity}
    (hopen : enqueuing.isClosed = false) :
    (enqueueCheck value enqueuing : Pc α (List α)).unaccepted = value :=
  enqueueCheck_elim (P := fun pc => pc.unaccepted = value)
    (fun hclosed => by rw [hopen] at hclosed; cases hclosed) (fun _ _ => rfl)
    fun _ _ _ => rfl

/-- Inside `try_enqueue` the value is accepted once. -/
theorem Transition.unaccepted_eq {spurious : Bool} {value : α}
    (hmove : Transition q pc (.run spurious) q' pc' event) (htrying : Trying value pc)
    (hopen : q.enqueuingCapacity.isClosed = false) :
    pc.unaccepted = event.added ++ pc'.unaccepted := by
  cases hmove with
  | silent move =>
      cases move with
      | enqueueLoad values _ => exact (unaccepted_enqueueCheck values hopen).symm
      | enqueueRetry values _ _ _ => exact (unaccepted_enqueueCheck values hopen).symm
      | indexUnderflow _ _ _ _ => rfl
      | insertOutOfBounds _ _ _ _ => rfl
      | _ => cases htrying
  | reserve values _ => exact (List.append_nil values).symm
  | insert _ _ _ _ _ => rfl
  | acknowledge _ _ _ => rfl
  | _ => cases htrying

end Sent

section Steps

variable {s s' : Recipe T α} {g : Ledger T α} {t : T}

theorem RecipeInv.fitsOk (hinv : RecipeInv s g) (action : Action α) :
    FitsOk s.base (t, action) := by
  have hthread := hinv.thread t
  rintro ⟨dequeuing, resize⟩ hstaging
  change (dequeuing, resize) ∈ stagingStep (s.base.pcs t) action at hstaging
  change resize.insert.flatten.length ≤ _
  generalize s.base.pcs t = pc at hthread hstaging
  cases pc with
  | dequeueResize dequeuing' resize' =>
      obtain rfl : resize' = resize := by
        cases action with
        | run _ =>
            cases hstaging
            rfl
        | _ => cases hstaging
      rw [hthread.dequeuing rfl fun _ => id] at hthread
      obtain ⟨hinsert, capacity, hcapacity, hle⟩ | ⟨rfl, -⟩ := hthread
      · have hlength : s.overflow.flatten.length = s.overflow.length := by
          rw [List.length_flatten, List.sum_eq_card_nsmul _ 1]
          · simp
          · intro length hlength
            obtain ⟨value, hvalue, rfl⟩ := List.mem_map.mp hlength
            exact hinv.single value hvalue
        rw [hinsert, hlength, hcapacity]
        exact hle
      · exact Nat.zero_le _
  | _ => cases hstaging

theorem RecipeInv.callsOk (hinv : RecipeInv s g) {label : RecipeAction α}
    {action : Action α} {control' : Control α} {overflow : List (List α)}
    (hok : RecipeOk s (t, label))
    (hcall : Calls s t (s.controls t) action control' overflow) :
    CallsOk s.base (t, action) := by
  refine ⟨?_, ?_, hinv.fitsOk action, ?_⟩
  · intro value hvalue
    rw [hcall.length_value value hvalue]
    decide
  · intro resize hresize capa hcapa
    obtain ⟨hcontrol, hcapacity⟩ := hcall.resize_eq resize hresize
    rw [hcapacity] at hcapa
    cases hcapa
    exact hok hcontrol
  · rintro rfl
    generalize s.controls t = control at hcall
    cases hcall with
    | slice _ haction => cases haction

variable [DecidableEq T] {action : Action α} {control' : Control α}
  {overflow : List (List α)} {q' : Queue (VecBuffer α)} {pc' : Pc α (List α)}
  {event : Event α}

/-- What a call adds to the accepted values, and to those that wait for a swap. -/
theorem RecipeInv.order_call (hinv : RecipeInv s g) (hsim : Sim s.base g)
    (hcall : Calls s t (s.controls t) action control' overflow)
    (hmove : Transition s.base.queue (s.base.pcs t) action q' pc' event)
    (hargs : ArgsOk s.base.queue (s.base.pcs t)) (hargs' : ArgsOk q' pc') :
    (g.next t event).accepted.flatten ++
        (s.called t control' overflow q' pc').held (g.next t event) =
      g.accepted.flatten ++ s.held g ++ event.added := by
  have hheld := hinv.held_call hsim hcall hmove hargs hargs'
  cases event with
  | reserved i value =>
      -- A reservation finds room, so no value waits.
      have hnone : s.held g = [] := by
        by_contra hne
        have hzero := hinv.full hne
        have hpos := hmove.remaining_pos (hsim.thread t)
        omega
      rw [hheld (by simp), hnone, List.append_nil, List.append_nil]
      change (g.accepted ++ [value]).flatten = _
      rw [List.flatten_append, List.flatten_singleton]
      rfl
  | swapped i =>
      obtain ⟨hstaged, hnone⟩ := hinv.held_swapped hsim hcall hmove
      have hthread := hsim.thread t
      have hcontents : contents (g.tiles i) = g.staged := by
        generalize s.base.pcs t = pc at hmove hthread
        cases hmove with
        | swap _ _ _ => exact (hthread.hidden.staged_eq rfl).symm
      rw [hnone, hstaged, ← hcontents]
      change (g.accepted ++ (g.tiles i).map Tile.elems).flatten ++ [] = _
      rw [List.flatten_append]
      rfl
  | _ =>
      rw [hheld (by simp)]
      exact (List.append_nil _).symm

omit [DecidableEq T] in
theorem RecipeInv.unaccepted_call (hinv : RecipeInv s g)
    (hcall : Calls s t (s.controls t) action control' overflow)
    (hmove : Transition s.base.queue (s.base.pcs t) action q' pc' event)
    {label : RecipeAction α}
    (hlabel : ∀ value, label = .enqueueUnbounded value ↔
      s.controls t = .outside ∧ action = .tryEnqueue [value]) :
    (s.controls t).unaccepted (s.base.pcs t) ++ label.sent =
      event.added ++ control'.unaccepted pc' := by
  have hthread := hinv.thread t
  have hnone : (∀ value, ¬ (s.controls t = .outside ∧ action = .tryEnqueue [value])) →
      label.sent = [] := by
    intro hnot
    cases label with
    | enqueueUnbounded value => exact absurd ((hlabel value).mp rfl) (hnot value)
    | _ => rfl
  have hpc : (∀ value enqueuing next,
      s.base.pcs t ≠ .enqueueReserve value enqueuing next) → event.added = [] :=
    hmove.added_eq_nil
  generalize s.controls t = control at hcall hthread hlabel hnone
  generalize s.base.pcs t = pc at hmove hthread hpc
  cases hcall with
  | enqueue value =>
      rw [(hlabel value).mpr ⟨rfl, rfl⟩]
      cases hmove with
      | silent move =>
          cases move with
          | tryEnqueue _ _ _ => rfl
  | slice action haction =>
      rw [hnone (by rintro value ⟨-, rfl⟩; cases haction),
        hpc (by rintro value enqueuing next rfl; cases hthread)]
      rfl
  | release spurious =>
      rw [hnone (by rintro value ⟨-, h⟩; cases h),
        hpc (by rintro value enqueuing next rfl; cases hthread)]
      rfl
  | firstTry value spurious =>
      rw [hnone (by rintro value ⟨h, -⟩; cases h), List.append_nil]
      exact hmove.unaccepted_eq hthread hinv.isOpen
  | retry value =>
      rw [hnone (by rintro value ⟨h, -⟩; cases h)]
      cases hmove with
      | silent move =>
          cases move with
          | tryEnqueue _ _ _ => rfl
  | secondTry value spurious =>
      rw [hnone (by rintro value ⟨h, -⟩; cases h), List.append_nil]
      exact hmove.unaccepted_eq hthread.1 hinv.isOpen
  | dequeue =>
      rw [hnone (by rintro value ⟨h, -⟩; cases h), hpc]
      · rfl
      · rintro value enqueuing next rfl
        obtain ⟨last, hidle⟩ := hthread
        cases hidle
  | drain spurious _ _ _ _ =>
      rw [hnone (by rintro value ⟨h, -⟩; cases h),
        hpc (by rintro value enqueuing next rfl; cases hthread)]
      rfl
  | dequeuing spurious _ =>
      rw [hnone (by rintro value ⟨h, -⟩; cases h),
        hpc (by rintro value enqueuing next rfl; cases hthread)]
      rfl

end Steps

section Staged

variable {B : Type u} {σ : Type w} [Buffer B α σ] [LawfulBuffer B]
  {s : State T B α σ} {g : Ledger T α}

/-- The steps between the first insertion and the swap. -/
def Pc.staging : Pc α σ → Option DequeuingLength
  | .dequeueInsert dequeuing _ _ _ => some dequeuing
  | .dequeuePublish attempt => some attempt.dequeuing
  | .dequeueLoad attempt => some attempt.dequeuing
  | .dequeueSwap attempt _ _ _ => some attempt.dequeuing
  | _ => none

theorem Hidden.spells_staged (hsim : Sim s g) {dequeuing : DequeuingLength}
    {tag : Status T} {length : Nat} (hhidden : Hidden s.queue g dequeuing tag length)
    (htag : tag.hidden = true)
    (hle : length ≤ Buffer.capacity (s.queue.buffers dequeuing.bufferIndex)) :
    Spells s (SwapBufferQueue.other g.enqueuing) 0 g.staged := by
  have hlower : g.lower dequeuing.bufferIndex = 0 := by
    rw [Ledger.lower, if_neg hhidden.other, hhidden.taken]
  have hspells := hsim.spells (i := dequeuing.bufferIndex)
    (by rw [hhidden.length_eq]; exact hle) (le_of_eq hlower)
  rw [List.drop_zero, ← hhidden.staged_eq htag] at hspells
  rwa [← eq_other_of_ne hhidden.other]

/-- Staged values are in the hidden buffer, and the holder of the lock is on its way
to the swap. -/
theorem Sim.staged_cases (hsim : Sim s g) (hargs : ∀ t, ArgsOk s.queue (s.pcs t)) :
    Spells s (other g.enqueuing) 0 g.staged ∧
      (g.staged = [] ∨ ∃ t, (s.pcs t).staging.isSome = true) := by
  have hvisible : ∀ {i : Fin 2}, i ≠ g.enqueuing →
      (∀ tile ∈ g.tiles i, tile.tag.hidden = false) →
        Spells s (other g.enqueuing) 0 g.staged ∧ g.staged = [] := by
    intro i hother hvisible
    rw [Ledger.staged_eq_nil_of_visible hother hvisible]
    exact ⟨spells_nil _ _ _, rfl⟩
  by_cases hlocked : s.queue.dequeuingLength = dequeuingLocked
  · obtain ⟨t, hholds⟩ := hsim.locked_iff.mp hlocked
    have hthread := hsim.thread t
    have hpc := hargs t
    have hstaging : (s.pcs t).staging.isSome = true →
        ∃ t, (s.pcs t).staging.isSome = true := fun h => ⟨t, h⟩
    generalize s.pcs t = pc at hholds hthread hpc hstaging
    cases pc with
    | dequeueResize dequeuing _ =>
        refine ⟨hthread.spells_staged hsim rfl (Nat.zero_le _), Or.inl ?_⟩
        exact List.length_eq_zero_iff.mp (hthread.length_staged rfl)
    | dequeueInsert dequeuing _ values length =>
        exact ⟨hthread.spells_staged hsim rfl (Nat.le_trans (Nat.le_add_right _ _) hpc),
          Or.inr (hstaging rfl)⟩
    | dequeuePublish attempt =>
        exact ⟨hthread.1.spells_staged hsim rfl (hthread.2 ▸ hpc), Or.inr (hstaging rfl)⟩
    | dequeueLoad attempt =>
        exact ⟨hthread.1.spells_staged hsim rfl (hthread.2 ▸ hpc), Or.inr (hstaging rfl)⟩
    | dequeueSwap attempt _ _ _ =>
        exact ⟨hthread.hidden.spells_staged hsim rfl
          (hthread.nextCapa_eq ▸ hthread.inserted_le), Or.inr (hstaging rfl)⟩
    | dequeueLoadCapacity _ _ _ =>
        exact (hvisible hthread.other hthread.visible).imp_right Or.inl
    | dequeueStoreCapacity _ _ _ =>
        exact (hvisible hthread.other hthread.visible).imp_right Or.inl
    | dequeueNotify _ _ _ =>
        exact (hvisible hthread.other hthread.visible).imp_right Or.inl
    | dequeueSpin _ _ _ =>
        exact (hvisible hthread.1.other hthread.1.visible).imp_right Or.inl
    | dequeueSlice _ _ _ =>
        exact (hvisible hthread.other hthread.visible).imp_right Or.inl
    | slice _ _ _ _ =>
        exact (hvisible hthread.1.other hthread.1.visible).imp_right Or.inl
    | iter _ _ _ => exact (hvisible hthread.other hthread.visible).imp_right Or.inl
    | releaseClear _ _ _ =>
        exact (hvisible hthread.other hthread.visible).imp_right Or.inl
    | releaseLength _ =>
        exact (hvisible hthread.other hthread.visible).imp_right Or.inl
    | storeDequeuing _ _ =>
        exact (hvisible hthread.batch.other hthread.batch.visible).imp_right Or.inl
    | panicked _ => exact hpc.elim
    | _ => cases hholds
  · have hbatch := (hsim.stored hlocked).batch
    exact (hvisible hbatch.other hbatch.visible).imp_right Or.inl

theorem RecipeThread.dequeuing_of_staging {remaining : Nat} {overflow : List (List α)}
    {control : Control α} {pc : Pc α (List α)}
    (hthread : RecipeThread remaining overflow control pc)
    (hstaging : pc.staging.isSome = true) : control = .dequeuing := by
  cases pc with
  | dequeueInsert _ _ _ _ => exact hthread.dequeuing rfl fun _ => id
  | dequeuePublish _ => exact hthread.dequeuing rfl fun _ => id
  | dequeueLoad _ => exact hthread.dequeuing rfl fun _ => id
  | dequeueSwap _ _ _ _ => exact hthread.dequeuing rfl fun _ => id
  | _ => cases hstaging

end Staged

section Runs

variable [DecidableEq T] {start s s' : Recipe T α}
  {trace : List ((T × RecipeAction α) × RecipeEvent α)} {t : T}

/-- What a run of the recipe has done. -/
structure Recorded (start : Recipe T α)
    (trace : List ((T × RecipeAction α) × RecipeEvent α)) (s : Recipe T α) : Prop where
  base : Runs.Run step CallsOk start.base (baseTrace trace) s.base
  inv : RecipeInv s (Ledger.ofTrace (baseTrace trace))
  order : (Ledger.ofTrace (baseTrace trace)).accepted.flatten ++
    s.held (Ledger.ofTrace (baseTrace trace)) = (acceptedValues trace).map Prod.snd
  sent (t : T) : sentBy t trace = valuesOf t (acceptedValues trace) ++
    (s.controls t).unaccepted (s.base.pcs t)

theorem Recorded.of_initial (hinitial : RecipeInitial start) : Recorded start [] start := by
  have hbase := hinitial.base
  have hopen : start.base.queue.enqueuingCapacity.isClosed = false :=
    (Sim.of_initial hbase).shared.closed.symm
  have hheld : start.held (Ledger.ofTrace (baseTrace [])) = [] := by
    simp [Recipe.held, Recipe.moving, hinitial.mutex, hinitial.overflow, Ledger.staged,
      baseTrace, Ledger.empty]
  refine ⟨.nil, ⟨?_, ?_, ?_, hopen, fun hne => absurd hheld hne⟩, ?_, ?_⟩
  · intro t
    rw [hinitial.controls, hbase.2]
    rfl
  · intro t
    rw [hinitial.controls, hinitial.mutex]
    simp [Control.locked]
  · rw [hinitial.overflow]
    simp
  · rw [hheld]
    rfl
  · intro t
    rw [hinitial.controls]
    rfl

/-- A step that accepts or keeps the value of its thread, and leaves the other threads
alone, keeps the record of what was sent. -/
theorem Recorded.sent_step (hrecorded : Recorded start trace s) {label : RecipeAction α}
    {event : RecipeEvent α} {s' : Recipe T α}
    (hself : (s.controls t).unaccepted (s.base.pcs t) ++ label.sent =
      event.accepted ++ (s'.controls t).unaccepted (s'.base.pcs t))
    (hothers : ∀ t', t' ≠ t → s'.controls t' = s.controls t' ∧
      s'.base.pcs t' = s.base.pcs t') (t' : T) :
    sentBy t' (trace ++ [((t, label), event)]) =
      valuesOf t' (acceptedValues (trace ++ [((t, label), event)])) ++
        (s'.controls t').unaccepted (s'.base.pcs t') := by
  rw [sentBy_append_singleton, acceptedValues_append_singleton, valuesOf_append_map,
    hrecorded.sent t']
  by_cases ht' : t = t'
  · subst ht'
    rw [if_pos rfl, if_pos rfl, List.append_assoc, hself, List.append_assoc]
  · obtain ⟨hcontrol, hpc⟩ := hothers t' (Ne.symm ht')
    rw [if_neg ht', if_neg ht', hcontrol, hpc, List.append_nil, List.append_nil]

theorem Recorded.call (hrecorded : Recorded start trace s)
    (hinitial : Initial start.base) {label : RecipeAction α} {control' : Control α}
    {action : Action α} {overflow : List (List α)}
    {base : State T (VecBuffer α) α (List α)} {event : Event α}
    (hok : RecipeOk s (t, label))
    (hlabel : ∀ value, label = .enqueueUnbounded value ↔
      s.controls t = .outside ∧ action = .tryEnqueue [value])
    (hcall : Calls s t (s.controls t) action control' overflow)
    (hstep : step s.base (t, action) = some (base, event)) :
    Recorded start (trace ++ [((t, label), .called action event)])
      { s with
        base := base
        overflow := overflow
        controls := Function.update s.controls t control' } := by
  have hinv := hrecorded.inv
  have hrun := hrecorded.base.snoc (hinv.callsOk hok hcall) hstep
  have hsim := sim_of_run hinitial (fun _ _ h => h.size) hrecorded.base
  have hsim' := sim_of_run hinitial (fun _ _ h => h.size) hrun
  have hargs := argsOk_of_run hinitial (fun _ _ h => h) hrecorded.base t
  have hargs' := argsOk_of_run hinitial (fun _ _ h => h) hrun t
  obtain ⟨q', pc', hmove, rfl⟩ := step_cases hstep
  rw [Ledger.ofTrace_append_singleton] at hsim'
  change ArgsOk q' (Function.update s.base.pcs t pc' t) at hargs'
  rw [Function.update_self] at hargs'
  refine ⟨?_, ?_, ?_, ?_⟩
  · rw [baseTrace_append_called]
    exact hrun
  · rw [baseTrace_append_called, Ledger.ofTrace_append_singleton]
    exact hinv.call hsim hcall hmove hsim' hargs hargs'
  · rw [baseTrace_append_called, Ledger.ofTrace_append_singleton,
      acceptedValues_append_singleton, List.map_append, ← hrecorded.order]
    refine (hinv.order_call hsim hcall hmove hargs hargs').trans ?_
    simp [RecipeEvent.accepted]
  · refine hrecorded.sent_step ?_ ?_
    · refine (hinv.unaccepted_call hcall hmove hlabel).trans ?_
      simp [RecipeEvent.accepted]
    · intro t' ht'
      simp [ht']

theorem Recorded.moved (hrecorded : Recorded start trace s) {label : RecipeAction α}
    {event : RecipeEvent α} (hevent : ∀ action shown, event ≠ .called action shown)
    (hbase : s'.base = s.base)
    (hinv : RecipeInv s' (Ledger.ofTrace (baseTrace trace)))
    (hheld : s'.held (Ledger.ofTrace (baseTrace trace)) =
      s.held (Ledger.ofTrace (baseTrace trace)) ++ event.accepted)
    (hself : (s.controls t).unaccepted (s.base.pcs t) ++ label.sent =
      event.accepted ++ (s'.controls t).unaccepted (s.base.pcs t))
    (hothers : ∀ t', t' ≠ t → s'.controls t' = s.controls t') :
    Recorded start (trace ++ [((t, label), event)]) s' := by
  refine ⟨?_, ?_, ?_, hrecorded.sent_step ?_ ?_⟩
  · rw [baseTrace_append_of_not_called _ _ hevent, hbase]
    exact hrecorded.base
  · rwa [baseTrace_append_of_not_called _ _ hevent]
  · rw [baseTrace_append_of_not_called _ _ hevent, hheld, ← List.append_assoc,
      hrecorded.order, acceptedValues_append_singleton, List.map_append]
    simp
  · rw [hbase]
    exact hself
  · intro t' ht'
    exact ⟨hothers t' ht', by rw [hbase]⟩

theorem RecipeAction.sent_eq_nil {label : RecipeAction α}
    (hlabel : ∀ value, label ≠ .enqueueUnbounded value) : label.sent = [] := by
  cases label with
  | enqueueUnbounded value => exact absurd rfl (hlabel value)
  | _ => rfl

theorem Trying.value_refused {value : α} {values : List α}
    (htrying : Trying value (.idle (some (.enqueueError (.insufficientCapacity values))))) :
    [value] = values := by
  rcases htrying with hcontra | hrefused
  · cases hcontra
  · cases hrefused
    rfl

theorem Trying.unaccepted_returned {value : α} {last : Option (Outcome α)}
    (htrying : Trying value (.idle last))
    (hlast : ∀ refused, last ≠ some (.enqueueError (.insufficientCapacity refused))) :
    (Pc.idle last : Pc α (List α)).unaccepted = [] := by
  rcases htrying with rfl | hrefused
  · rfl
  · cases hrefused
    exact absurd rfl (hlast _)

/-- A thread that goes on without a call keeps its value. -/
theorem Returns.unaccepted_eq {remaining : Nat} {overflow : List (List α)}
    {pc : Pc α (List α)} {control control' : Control α}
    (hreturns : Returns pc control control')
    (hthread : RecipeThread remaining overflow control pc) :
    control'.unaccepted pc = control.unaccepted pc := by
  cases hreturns with
  | lockDequeue _ _ => rfl
  | refused value values hpc =>
      subst hpc
      exact Trying.value_refused hthread
  | returned value last hpc hlast =>
      subst hpc
      exact (Trying.unaccepted_returned hthread hlast).symm
  | refusedAgain value values hpc =>
      subst hpc
      exact hthread.1.value_refused
  | returnedAgain value last hpc hlast =>
      subst hpc
      exact (hthread.1.unaccepted_returned hlast).symm
  | dequeued _ => rfl

theorem recorded_of_run (hinitial : RecipeInitial start)
    (hrun : Runs.Run recipeStep RecipeOk start trace s) : Recorded start trace s := by
  refine hrun.invariant (Recorded start) (Recorded.of_initial hinitial) ?_
  rintro trace s s' ⟨t, label⟩ event - hrecorded hok hstep
  have hinv := hrecorded.inv
  have hupdate : ∀ {control' : Control α} (t' : T), t' ≠ t →
      Function.update s.controls t control' t' = s.controls t' :=
    fun t' ht' => Function.update_of_ne ht' _ _
  cases recipeStep_cases hstep with
  | call hcontrol hlabel hcall hbase =>
      subst hcontrol
      exact hrecorded.call hinitial.base hok hlabel hcall hbase
  | move hcontrol hlabel hreturns =>
      subst hcontrol
      refine hrecorded.moved (by simp) rfl (hinv.move hreturns)
        (List.append_nil _).symm ?_ hupdate
      rw [RecipeAction.sent_eq_nil hlabel, List.append_nil]
      simp only [Function.update_self]
      exact (hreturns.unaccepted_eq (hinv.thread t)).symm
  | acquire hcontrol hfree hlocks =>
      subst hcontrol
      obtain ⟨hinv', hmoving⟩ := hinv.acquire hfree hlocks
      refine hrecorded.moved (by simp) rfl hinv' ?_ ?_ hupdate
      · rw [Recipe.held, Recipe.held, ← hmoving]
        exact (List.append_nil _).symm
      · simp only [Function.update_self]
        generalize s.controls t = control at hlocks
        cases hlocks with
        | enqueue value => rfl
        | dequeue => rfl
  | push value hcontrol =>
      refine hrecorded.moved (by simp) rfl (hinv.push hcontrol) ?_ ?_ hupdate
      · simp [Recipe.held, Recipe.moving, RecipeEvent.accepted]
      · rw [hcontrol]
        simp only [Function.update_self]
        rfl
  | unlock hcontrol =>
      obtain ⟨hinv', hmoving⟩ := hinv.unlock hcontrol
      refine hrecorded.moved (by simp) rfl hinv' ?_ ?_ hupdate
      · rw [Recipe.held, Recipe.held, hmoving]
        exact (List.append_nil _).symm
      · rw [hcontrol]
        simp only [Function.update_self]
        rfl

/-- A dequeue that finds the queue empty finds the overflow drained and everything
delivered. -/
theorem Recorded.delivered_of_foundEmpty (hrecorded : Recorded start trace s)
    (hinitial : Initial start.base) {action : Action α} {q' : Queue (VecBuffer α)}
    {pc' : Pc α (List α)} {error : TryDequeueError}
    (hmove : Transition s.base.queue (s.base.pcs t) action q' pc' (.foundEmpty error)) :
    consumedElements (baseTrace trace) = (acceptedValues trace).map Prod.snd := by
  have hinv := hrecorded.inv
  have hsim := sim_of_run hinitial (fun _ _ h => h.size) hrecorded.base
  have htiles := hsim.tiles_of_foundEmpty hmove
  have hempty : s.overflow = [] ∧ s.moving = [] := by
    have hthread := hinv.thread t
    have hmoving := hinv.moving_of_locked (t := t)
    generalize s.base.pcs t = pc at hmove hthread hmoving
    cases hmove with
    | foundEmpty _ _ _ _ _ _ =>
        have hcontrol := hthread.dequeuing rfl fun _ => id
        rw [hcontrol] at hthread hmoving
        exact ⟨hthread, hmoving rfl⟩
  have horder := hsim.shared.order
  simp only [Ledger.batch, Ledger.tail, htiles, List.filter_nil, contents_nil,
    List.drop_nil, List.append_nil] at horder
  rw [← hrecorded.order, ← horder, Ledger.consumed_ofTrace]
  simp [Recipe.held, Ledger.staged, htiles, hempty]

/-- The recipe is an unbounded queue.  The elements consumed, the undelivered range of
the dequeuing buffer, the cells of the enqueuing buffer, the values staged behind them
and the overflow spell the values accepted so far, in the order in which they were
accepted; the values of each thread are accepted in the order in which it sent them.
The calls keep the promises of the queue, an insertion that fits among them, so that no
thread panics, and a dequeue that finds nothing has seen everything delivered. -/
theorem unbounded_fifo (hinitial : RecipeInitial start)
    (hrun : Runs.Run recipeStep RecipeOk start trace s) :
    (∃ batch tail staged : List α,
      consumedElements (baseTrace trace) ++ batch ++ tail ++ staged ++ s.moving ++
        s.overflow.flatten = (acceptedValues trace).map Prod.snd ∧
      Located s.base batch tail ∧
      Spells s.base (other s.base.queue.enqueuingCapacity.bufferIndex) 0 staged ∧
      ((∀ t, s.controls t ≠ .dequeuing) → staged = [] ∧ s.moving = [])) ∧
    (∀ t, valuesOf t (acceptedValues trace) ++
      (s.controls t).unaccepted (s.base.pcs t) = sentBy t trace) ∧
    Runs.Run step CallsOk start.base (baseTrace trace) s.base ∧
    (∀ t panic, s.base.pcs t ≠ .panicked panic) ∧
    ∀ earlier label action error,
      trace = earlier ++ [(label, .called action (.foundEmpty error))] →
        consumedElements (baseTrace trace) = (acceptedValues trace).map Prod.snd := by
  have hrecorded := recorded_of_run hinitial hrun
  have hinv := hrecorded.inv
  have hsim := sim_of_run hinitial.base (fun _ _ h => h.size) hrecorded.base
  have hargs := argsOk_of_run hinitial.base (fun _ _ h => h) hrecorded.base
  obtain ⟨hspells, hstaged⟩ := hsim.staged_cases hargs
  refine ⟨⟨_, _, _, ?_, hsim.located hargs, hsim.shared.enqueuing ▸ hspells, ?_⟩,
    fun t => (hrecorded.sent t).symm, hrecorded.base, ?_, ?_⟩
  · rw [← hrecorded.order, ← hsim.shared.order, Ledger.consumed_ofTrace, Recipe.held]
    simp only [List.append_assoc]
  · intro hnone
    constructor
    · rcases hstaged with hnil | ⟨t, hstaging⟩
      · exact hnil
      · exact absurd ((hinv.thread t).dequeuing_of_staging hstaging) (hnone t)
    · rw [Recipe.moving]
      split
      · rfl
      · rename_i t hmutex
        exact (hinv.thread t).unstaged (hnone t)
  · intro t panic hpanic
    have hpc := hargs t
    rw [hpanic] at hpc
    exact hpc
  · rintro earlier ⟨t, label⟩ action error rfl
    obtain ⟨before, hprefix, -, hstep⟩ := hrun.snoc_inv
    have hearlier := recorded_of_run hinitial hprefix
    have hdelivered : consumedElements (baseTrace earlier) =
        (acceptedValues earlier).map Prod.snd := by
      cases recipeStep_cases hstep with
      | call _ _ _ hbase =>
          obtain ⟨q', pc', hmove, -⟩ := step_cases hbase
          exact hearlier.delivered_of_foundEmpty hinitial.base hmove
    rw [baseTrace_append_called, acceptedValues_append_singleton, consumedElements,
      List.flatMap_append]
    rw [consumedElements] at hdelivered
    simp [hdelivered, RecipeEvent.accepted, Event.added]

end Runs

/-- Two threads find no room in a queue of capacity zero, and the dequeue delivers what
they pushed on the overflow. -/
theorem unbounded_fifo_zero_capacity :
    ∃ (start : Recipe Nat Nat) (trace : _) (s : Recipe Nat Nat),
      RecipeInitial start ∧ Runs.Run recipeStep RecipeOk start trace s ∧
      consumedElements (baseTrace trace) = [7, 8] ∧ acceptedValues trace = [(0, 7), (1, 8)] ∧
      ∃ batch tail staged : List Nat,
        consumedElements (baseTrace trace) ++ batch ++ tail ++ staged ++ s.moving ++
          s.overflow.flatten = (acceptedValues trace).map Prod.snd := by
  have hrun := Runs.run_of_isSome recipeStep RecipeOk
    (⟨State.ofQueue ((Queue.withCapacity 0).get (by decide +kernel)), none, [],
      fun _ => .outside⟩ : Recipe Nat Nat)
    (List.flatten [[(0, .enqueueUnbounded 7)], List.replicate 8 (0, .run false),
      [(1, .enqueueUnbounded 8)], List.replicate 8 (1, .run false),
      [(2, .tryDequeueUnbounded)], List.replicate 25 (2, .run false), [(2, .drop)],
      List.replicate 3 (2, .run false)])
    (by decide +kernel) (by decide +kernel)
  have hinitial : RecipeInitial (⟨State.ofQueue ((Queue.withCapacity 0).get
      (by decide +kernel)), none, [], fun _ => .outside⟩ : Recipe Nat Nat) :=
    ⟨initial_withCapacity (by decide +kernel), rfl, rfl, rfl⟩
  refine ⟨_, _, _, hinitial, hrun, by decide +kernel, by decide +kernel, ?_⟩
  obtain ⟨⟨batch, tail, staged, horder, -⟩, -⟩ := unbounded_fifo hinitial hrun
  exact ⟨batch, tail, staged, horder⟩

end SwapBufferQueue
