/-
A stream over the whole synchronized queue is a consumer of iterators, whatever its
combinators are, as long as they are what is documented of them.  Every step of a stream is
matched by a run of the consumer of the iterators, which knows neither wakers nor futures: a
dropped pending stream and the first poll of the next one are one parked call of `next`
there.
-/
import SwapBufferQueue.Stream

namespace SwapBufferQueue

universe u v w x y

variable {T : Type x} {K : Type y} {B : Type u} {α : Type v} {σ : Type w}
  {R W M : Type*}

/-- Where the consumer of the iterators is while a stream is used: what the stream is in,
what its combinators ask for, and where the call of the synchronized queue is. -/
inductive StreamFollows (c : Combinators R W M) :
    StreamControl K → Flat R W M → SyncControl T K α → Pc α σ → IterControl → Prop
  | absent (flat : Flat R W M) (pc : Pc α σ) :
      StreamFollows c .absent flat .outside pc .absent
  -- a pending stream was dropped: the iterator is still inside its parked `next`
  | absentParked (flat : Flat R W M) (last : Option (Outcome α)) :
      StreamFollows c .absent flat .outside (.idle last) .park
  | heldItem {flat : Flat R W M} (hstands : c.Stands flat .item) (pc : Pc α σ) :
      StreamFollows c .held flat .outside pc .waiting
  | heldDequeue {flat : Flat R W M} (hstands : c.Stands flat .dequeue) (pc : Pc α σ) :
      StreamFollows c .held flat .outside pc .waiting
  | heldParked {flat : Flat R W M} (hstands : c.Stands flat .dequeue) (last : Option (Outcome α)) :
      StreamFollows c .held flat .outside (.idle last) .park
  | heldPoll {flat : Flat R W M} (hstands : c.Stands flat .poll) (pc : Pc α σ) :
      StreamFollows c .held flat .dequeueWait pc .park
  | heldFinish {flat : Flat R W M} (hstands : c.Stands flat .finish) (last : Option (Outcome α)) :
      StreamFollows c .held flat .outside (.idle last) .ended
  | dropping (flat : Flat R W M) (pc : Pc α σ) :
      StreamFollows c .dropping flat .outside pc .abandoning
  | item (cx : Option K) {flat : Flat R W M} (hstands : c.Stands flat .item) (pc : Pc α σ) :
      StreamFollows c (.polling cx) flat .outside pc .front
  | clear (cx : Option K) {flat : Flat R W M} (hstands : c.Stands flat .clear) (pc : Pc α σ) :
      StreamFollows c (.polling cx) flat .outside pc .clearing
  | dequeue (cx : Option K) {flat : Flat R W M} (hstands : c.Stands flat .dequeue) (pc : Pc α σ) :
      StreamFollows c (.polling cx) flat .outside pc .front
  | dequeueParked (cx : Option K) {flat : Flat R W M} (hstands : c.Stands flat .dequeue)
      (last : Option (Outcome α)) :
      StreamFollows c (.polling cx) flat .outside (.idle last) .park
  -- the batch in front is gone, and the iterator has not gone on yet
  | dequeueCleared (cx : Option K) {flat : Flat R W M} (hstands : c.Stands flat .dequeue)
      (last : Option (Outcome α)) :
      StreamFollows c (.polling cx) flat .outside (.idle last) .clearing
  | poll (cx : Option K) {flat : Flat R W M} (hstands : c.Stands flat .poll) (pc : Pc α σ) :
      StreamFollows c (.polling cx) flat .dequeueWait pc .park
  | finish (cx : Option K) {flat : Flat R W M} (hstands : c.Stands flat .finish)
      (last : Option (Outcome α)) :
      StreamFollows c (.polling cx) flat .outside (.idle last) .ended
  | clearing (cx : Option K) {flat : Flat R W M} (hstands : c.Stands flat .clear) (pc : Pc α σ) :
      StreamFollows c (.clearing cx) flat .outside pc .clearing
  | attempt (cx : Option K) {flat : Flat R W M} (hawaits : c.Awaits flat) (count : Nat)
      (pc : Pc α σ) :
      StreamFollows c (.dequeuing cx) flat (.dequeueAttempt count) pc (.attempt count)
  | trying (cx : Option K) {flat : Flat R W M} (hawaits : c.Awaits flat) (count : Nat)
      (pc : Pc α σ) :
      StreamFollows c (.dequeuing cx) flat (.dequeueTrying count) pc (.trying count)
  | notify (cx : Option K) {flat : Flat R W M} (hawaits : c.Awaits flat) (count : Nat)
      (call : ListCall T K) (pc : Pc α σ) :
      StreamFollows c (.dequeuing cx) flat (.dequeueNotify count call) pc (.trying count)
  | register (cx : Option K) {flat : Flat R W M} (hawaits : c.Awaits flat) (call : AtomicCall T K)
      (pc : Pc α σ) :
      StreamFollows c (.dequeuing cx) flat (.dequeueRegister call) pc .register
  | wait (cx : Option K) {flat : Flat R W M} (hawaits : c.Awaits flat) (pc : Pc α σ) :
      StreamFollows c (.dequeuing cx) flat .dequeueWait pc .park
  | sliced (cx : Option K) {flat : Flat R W M} (hawaits : c.Awaits flat) (count : Nat) (i : Fin 2)
      (start stop : Nat) (slice : σ) :
      StreamFollows c (.dequeuing cx) flat .outside (.slice i start stop slice)
        (.trying count)
  | failed (cx : Option K) {flat : Flat R W M} (hawaits : c.Awaits flat) (count : Nat)
      (error : TryDequeueError) (hempty : error ≠ .empty) (hpending : error ≠ .pending) :
      StreamFollows c (.dequeuing cx) flat .outside (.idle (some (.dequeueError error)))
        (.trying count)

variable {c : Combinators R W M} {flat : Flat R W M}

/-- The loops of `dequeue` agree on what follows an attempt without a batch. -/
theorem StreamFollows.retry (cx : Option K) (hawaits : c.Awaits flat) (count : Nat)
    (pc : Pc α σ) (waker : Option K) :
    StreamFollows (T := T) c (.dequeuing cx) flat
      (retrySync count .dequeueAttempt (.dequeueRegister (.registerStart waker)) .dequeueWait)
      pc (retryControl count) := by
  unfold retrySync retryControl
  split
  · exact .attempt cx hawaits (count + 1) pc
  · split
    · exact .register cx hawaits _ pc
    · exact .wait cx hawaits pc

theorem StreamFollows.enqueues {control : StreamControl K} {sync : SyncControl T K α}
    {pc : Pc α σ} {control' : IterControl}
    (hfollows : StreamFollows c control flat sync pc control') (value : List α) :
    sync ≠ .enqueueWait value := by
  rintro rfl
  cases hfollows

section Simulation

variable [DecidableEq T] [DecidableEq K] [Buffer B α σ] {consumer : T}
  {start s s' : StreamState T K B α σ (Flat R W M)} {a : IterState T B α σ}
  {trace : List (StreamAction T K α × IterEvent T α)} {label : StreamAction T K α}
  {event : IterEvent T α}

/-- A state of the stream and a state of the iterators: the synchronized queue keeps its
invariant, only the consumer dequeues, and both consumers are at the same place of the same
queue. -/
structure StreamSim (c : Combinators R W M) (consumer : T)
    (start : StreamState T K B α σ (Flat R W M))
    (trace : List (StreamAction T K α × IterEvent T α))
    (s : StreamState T K B α σ (Flat R W M)) (a : IterState T B α σ) : Prop where
  wake : ∃ synced, WakeInv start.sync synced s.sync ∧
    syncTrace synced = streamCalls consumer trace
  others (t : T) : t ≠ consumer → (s.sync.controls t).dequeues = false
  base : a.base = s.sync.base
  follows : StreamFollows c s.control s.flat (s.sync.controls consumer)
    (s.sync.base.pcs consumer) a.control

/-- The iterators go on to a state that belongs to the one of the stream, and show what the
step of the stream shows. -/
def Matches (c : Combinators R W M) (consumer : T)
    (start : StreamState T K B α σ (Flat R W M))
    (trace : List (StreamAction T K α × IterEvent T α))
    (s' : StreamState T K B α σ (Flat R W M)) (a : IterState T B α σ)
    (event : IterEvent T α) : Prop :=
  ∃ matching a', Runs.Run (iterStep consumer) (IterOk consumer) a matching a' ∧
    StreamSim c consumer start trace s' a' ∧
    (matching.flatMap fun entry => entry.2.seen) = event.seen

omit [DecidableEq K] in
theorem StreamSim.of_initial (hinitial : StreamInitial start) :
    StreamSim c consumer start [] start ⟨start.sync.base, .absent⟩ where
  wake := ⟨[], WakeInv.of_initial hinitial.sync, rfl⟩
  others t _ := by
    rw [hinitial.sync.controls]
    rfl
  base := rfl
  follows := by
    rw [hinitial.control, hinitial.sync.controls]
    exact .absent _ _

omit [DecidableEq K] in
theorem StreamSim.thread (hsim : StreamSim c consumer start trace s a) (t : T) :
    SyncThread (s.sync.polls t) (s.sync.controls t) (s.sync.base.pcs t) := by
  obtain ⟨synced, hwake, -⟩ := hsim.wake
  exact hwake.inv.thread t

theorem StreamState.lift_cases {t : T} {action : SyncAction K α} {control : StreamControl K}
    (hstep : s.lift t action control = some (s', event)) :
    ∃ shown, syncStep s.sync (t, action) = some (s'.sync, shown) ∧ s'.control = control ∧
      s'.flat = s.flat ∧ event = shown.iter t := by
  unfold StreamState.lift at hstep
  split at hstep
  · cases hstep
  · rename_i sync shown hsync
    cases hstep
    exact ⟨shown, hsync, rfl, rfl, rfl⟩

omit [DecidableEq K] in
theorem StreamSim.move (hsim : StreamSim c consumer start trace s a)
    (hevent : event.call? consumer = none) {control : StreamControl K}
    {flat : Flat R W M} {control' : IterControl}
    (hfollows : StreamFollows c control flat (s.sync.controls consumer)
      (s.sync.base.pcs consumer) control') :
    StreamSim c consumer start (trace ++ [(label, event)]) ⟨s.sync, control, flat⟩
      ⟨s.sync.base, control'⟩ where
  wake := by
    obtain ⟨synced, hwake, hcalls⟩ := hsim.wake
    refine ⟨synced, hwake, ?_⟩
    rw [streamCalls_append_singleton, hevent, hcalls]
    exact (List.append_nil _).symm
  others := hsim.others
  base := rfl
  follows := hfollows

variable [LawfulBuffer B]

theorem StreamSim.sync_step (hsim : StreamSim c consumer start trace s a)
    (hinitial : StreamInitial start) {t : T} {shown : SyncEvent α}
    (hmove : SyncMove s.sync t s'.sync shown)
    (hothers : t ≠ consumer → (s'.sync.controls t).dequeues = false)
    (hevent : event.call? consumer = (shown.iter t).call? consumer) {control' : IterControl}
    (hfollows : StreamFollows c s'.control s'.flat (s'.sync.controls consumer)
      (s'.sync.base.pcs consumer) control') :
    StreamSim c consumer start (trace ++ [(label, event)]) s' ⟨s'.sync.base, control'⟩ where
  wake := by
    obtain ⟨synced, hwake, hcalls⟩ := hsim.wake
    refine ⟨synced ++ [((t, .run false), shown)], hwake.step hinitial.sync hmove _, ?_⟩
    rw [streamCalls_append_singleton, hevent, ← hcalls]
    cases shown with
    | silent =>
        rw [syncTrace_silent]
        exact (List.append_nil _).symm
    | called action event' =>
        rw [syncTrace_called]
        rfl
  others t' ht' := by
    obtain ⟨control, hframe⟩ := hmove.frame
    by_cases heq : t' = t
    · subst heq
      exact hothers ht'
    · rw [hframe.control_other heq]
      exact hsim.others t' ht'
  base := rfl
  follows := hfollows

omit [LawfulBuffer B] [DecidableEq K] in
theorem Matches.of_none {control : IterControl}
    (hsim : StreamSim c consumer start trace s' ⟨s'.sync.base, control⟩)
    (hbase : s'.sync.base = s.sync.base) :
    Matches c consumer start trace s' ⟨s.sync.base, control⟩ .silent := by
  rw [← hbase]
  exact ⟨[], _, Runs.Run.nil, hsim, rfl⟩

omit [LawfulBuffer B] [DecidableEq K] in
theorem Matches.of_step {action : IterAction T α} {a' : IterState T B α σ}
    {event' : IterEvent T α} (hsim : StreamSim c consumer start trace s' a')
    (hok : IterOk consumer a action) (hstep : iterStep consumer a action = some (a', event'))
    (hseen : event'.seen = event.seen) : Matches c consumer start trace s' a event := by
  refine ⟨[] ++ [(action, event')], a', Runs.Run.nil.snoc hok hstep, hsim, ?_⟩
  simpa using hseen

theorem StreamSim.call_step {control control' : IterControl}
    (hsim : StreamSim c consumer start trace s ⟨s.sync.base, control⟩)
    (hinitial : StreamInitial start) (matching : IterAction T α)
    {called : SyncAction K α} {action : Action α} {shown : Event α}
    (hok : SyncOk s.sync (consumer, called))
    (hsync : syncStep s.sync (consumer, called) = some (s'.sync, .called action shown))
    (hbase : step s.sync.base (consumer, action) = some (s'.sync.base, shown))
    (hadmitted : IterOk consumer (⟨s.sync.base, control⟩ : IterState T B α σ) matching)
    (hiter : iterStep consumer ⟨s.sync.base, control⟩ matching =
      IterState.call ⟨s.sync.base, control⟩ consumer action control')
    (hfollows : StreamFollows c s'.control s'.flat (s'.sync.controls consumer)
      (s'.sync.base.pcs consumer) control') :
    Matches c consumer start (trace ++ [(label, .called (consumer, action) shown)]) s'
      ⟨s.sync.base, control⟩ (.called (consumer, action) shown) := by
  refine .of_step (hsim.sync_step hinitial (syncStep_cases hsync hok) (fun h => absurd rfl h)
    rfl hfollows) hadmitted ?_ rfl
  rw [hiter, IterState.call, hbase]

theorem StreamSim.quiet_step {control : IterControl}
    (hsim : StreamSim c consumer start trace s ⟨s.sync.base, control⟩)
    (hinitial : StreamInitial start) {called : SyncAction K α}
    (hok : SyncOk s.sync (consumer, called))
    (hsync : syncStep s.sync (consumer, called) = some (s'.sync, .silent))
    (hbase : s'.sync.base = s.sync.base)
    (hfollows : StreamFollows c s'.control s'.flat (s'.sync.controls consumer)
      (s'.sync.base.pcs consumer) control) :
    Matches c consumer start (trace ++ [(label, .silent)]) s' ⟨s.sync.base, control⟩
      .silent :=
  .of_none (hsim.sync_step hinitial (syncStep_cases hsync hok) (fun h => absurd rfl h) rfl
    hfollows) hbase

theorem StreamSim.silent_step {control control' : IterControl}
    (hsim : StreamSim c consumer start trace s ⟨s.sync.base, control⟩)
    (hinitial : StreamInitial start) (matching : IterAction T α) {called : SyncAction K α}
    (hok : SyncOk s.sync (consumer, called))
    (hsync : syncStep s.sync (consumer, called) = some (s'.sync, .silent))
    (hbase : s'.sync.base = s.sync.base)
    (hadmitted : IterOk consumer (⟨s.sync.base, control⟩ : IterState T B α σ) matching)
    (hiter : iterStep consumer ⟨s.sync.base, control⟩ matching =
      IterState.move ⟨s.sync.base, control⟩ control' .silent)
    (hfollows : StreamFollows c s'.control s'.flat (s'.sync.controls consumer)
      (s'.sync.base.pcs consumer) control') :
    Matches c consumer start (trace ++ [(label, .silent)]) s' ⟨s.sync.base, control⟩
      .silent := by
  refine .of_step (hsim.sync_step hinitial (syncStep_cases hsync hok) (fun h => absurd rfl h)
    rfl hfollows) hadmitted ?_ rfl
  rw [hiter, IterState.move, hbase]

omit [LawfulBuffer B] [DecidableEq K] in
theorem StreamSim.move_step {control control' : IterControl} {next : StreamControl K}
    {flat : Flat R W M}
    (hsim : StreamSim c consumer start trace s ⟨s.sync.base, control⟩)
    (matching : IterAction T α) (hevent : event.call? consumer = none)
    (hadmitted : IterOk consumer (⟨s.sync.base, control⟩ : IterState T B α σ) matching)
    (hiter : iterStep consumer ⟨s.sync.base, control⟩ matching =
      IterState.move ⟨s.sync.base, control⟩ control' event)
    (hfollows : StreamFollows c next flat (s.sync.controls consumer)
      (s.sync.base.pcs consumer) control') :
    Matches c consumer start (trace ++ [(label, event)]) ⟨s.sync, next, flat⟩
      ⟨s.sync.base, control⟩ event :=
  .of_step (hsim.move hevent hfollows) hadmitted hiter rfl

theorem StreamSim.other_step {control : IterControl}
    (hsim : StreamSim c consumer start trace s ⟨s.sync.base, control⟩)
    (hinitial : StreamInitial start) {t : T} {action : SyncAction K α}
    (hok : StreamOk consumer s (.other t action))
    (hstep : streamStep c consumer s (.other t action) = some (s', event)) :
    Matches c consumer start (trace ++ [(.other t action, event)]) s' ⟨s.sync.base, control⟩
      event := by
  obtain ⟨ht, henqueues, hsync⟩ := hok
  obtain ⟨shown, hlifted, hcontrol, hflat, rfl⟩ := StreamState.lift_cases hstep
  obtain ⟨hdequeues, hproduces⟩ :=
    syncStep_produces henqueues (hsim.others t ht) (hsim.thread t) hlifted
  have hmove := syncStep_cases hlifted hsync
  obtain ⟨control', hframe⟩ := hmove.frame
  have hother : s'.sync.controls consumer = s.sync.controls consumer :=
    hframe.control_other (Ne.symm ht)
  rcases hproduces with ⟨hbase, rfl⟩ | ⟨called, event', rfl, hcalled, hbase⟩
  · refine .of_none (hsim.sync_step hinitial hmove (fun _ => hdequeues) rfl ?_) hbase
    rw [hcontrol, hflat, hother, hbase]
    exact hsim.follows
  · have hpcs : s'.sync.base.pcs consumer = s.sync.base.pcs consumer := by
      obtain ⟨q', pc', -, hbase'⟩ := step_cases hbase
      rw [hbase']
      exact Function.update_of_ne (Ne.symm ht) ..
    have hfollows : StreamFollows c s'.control s'.flat (s'.sync.controls consumer)
        (s'.sync.base.pcs consumer) control := by
      rw [hcontrol, hflat, hother, hpcs]
      exact hsim.follows
    have hiter : iterStep consumer ⟨s.sync.base, control⟩ (.other t called) =
        some (⟨s'.sync.base, control⟩, .called (t, called) event') := by
      simp only [iterStep, hbase]
    have hadmitted : IterOk consumer (⟨s.sync.base, control⟩ : IterState T B α σ)
        (.other t called) := ⟨ht, hcalled⟩
    exact .of_step (hsim.sync_step hinitial hmove (fun _ => hdequeues) rfl hfollows)
      hadmitted hiter rfl

omit [LawfulBuffer B] [DecidableEq K] in
theorem iterStep_trying {base : State T B α σ} {count : Nat} {spurious : Bool}
    (hslice : ∀ i start stop slice, base.pcs consumer ≠ .slice i start stop slice)
    (hidle : ∀ last, base.pcs consumer ≠ .idle last) :
    iterStep consumer ⟨base, .trying count⟩ (.run spurious) =
      IterState.call ⟨base, .trying count⟩ consumer (.run spurious) (.trying count) := by
  simp only [iterStep]
  split
  · rename_i hpc
    exact absurd hpc (hslice _ _ _ _)
  · rename_i hpc
    exact absurd hpc (hidle _)
  · rename_i hpc
    exact absurd hpc (hidle _)
  · rename_i hpc
    exact absurd hpc (hidle _)
  · rename_i hpc
    exact absurd hpc (hidle _)
  · rfl

theorem StreamSim.trying_step {count : Nat} {cx : Option K} {spurious : Bool}
    (hsim : StreamSim c consumer start trace s ⟨s.sync.base, .trying count⟩)
    (hinitial : StreamInitial start) (hsync : s.sync.controls consumer = .dequeueTrying count)
    (hcontrol : s'.control = .dequeuing cx) (hflat : s'.flat = s.flat)
    (hawaits : c.Awaits s.flat) {shown : SyncEvent α}
    (hstep : syncStep s.sync (consumer, .run spurious) = some (s'.sync, shown)) :
    Matches c consumer start (trace ++ [(label, shown.iter consumer)]) s'
      ⟨s.sync.base, .trying count⟩ (shown.iter consumer) := by
  have hthread := hsim.thread consumer
  rw [hsync] at hthread
  have hok : SyncOk s.sync (consumer, (.run spurious : SyncAction K α)) := trivial
  have hrun : s.sync.run consumer spurious = some (s'.sync, shown) := hstep
  have hretry : ∀ {error : TryDequeueError},
      s.sync.base.pcs consumer = .idle (some (.dequeueError error)) →
      (error = .empty ∨ error = .pending) →
      iterStep consumer ⟨s.sync.base, .trying count⟩ (.run spurious) =
        IterState.move ⟨s.sync.base, .trying count⟩ (retryControl count) .silent := by
    rintro error hpc (rfl | rfl) <;> simp only [iterStep, hpc]
  rw [SyncState.run, hsync] at hrun
  dsimp only at hrun
  split at hrun
  · rename_i attempt capacity enqueuing hpc
    obtain ⟨hnext, hbase, rfl⟩ := SyncState.move_eq hrun
    refine hsim.quiet_step hinitial hok hstep hbase ?_
    rw [hcontrol, hflat, hnext]
    exact .notify cx hawaits count _ _
  · rename_i i first stop slice hpc
    obtain ⟨hnext, hbase, rfl⟩ := SyncState.move_eq hrun
    refine hsim.quiet_step hinitial hok hstep hbase ?_
    rw [hcontrol, hflat, hnext, hbase, hpc]
    exact .sliced cx hawaits count i first stop slice
  · rename_i hpc
    obtain ⟨hnext, hbase, rfl⟩ := SyncState.move_eq hrun
    refine hsim.silent_step hinitial (.run spurious) hok hstep hbase trivial
      (hretry hpc (Or.inl rfl)) ?_
    rw [hcontrol, hflat, hnext]
    exact .retry cx hawaits count _ _
  · rename_i hpc
    obtain ⟨hnext, hbase, rfl⟩ := SyncState.move_eq hrun
    refine hsim.silent_step hinitial (.run spurious) hok hstep hbase trivial
      (hretry hpc (Or.inr rfl)) ?_
    rw [hcontrol, hflat, hnext]
    exact .retry cx hawaits count _ _
  · rename_i last hempty hpending hpc
    obtain ⟨hnext, hbase, rfl⟩ := SyncState.move_eq hrun
    refine hsim.quiet_step hinitial hok hstep hbase ?_
    rw [hcontrol, hflat, hnext, hbase, hpc]
    rw [hpc] at hthread
    obtain ⟨error, rfl⟩ : ∃ error, last = some (.dequeueError error) := by
      cases last with
      | none => exact False.elim hthread
      | some outcome =>
          cases outcome with
          | dequeueError error => exact ⟨error, rfl⟩
          | _ => exact False.elim hthread
    refine .failed cx hawaits count error ?_ ?_
    · rintro rfl
      exact hempty rfl
    · rintro rfl
      exact hpending rfl
  · rename_i hnotify hslice hempty hpending hidle
    obtain ⟨event', hnext, hbase, rfl⟩ := SyncState.call_eq hrun
    refine hsim.call_step hinitial (.run spurious) hok hstep hbase trivial
      (iterStep_trying hslice hidle) ?_
    rw [hcontrol, hflat, hnext]
    exact .trying cx hawaits count _

theorem StreamSim.use_step {control control' : IterControl} {next : StreamControl K}
    {flat : Flat R W M} (hsim : StreamSim c consumer start trace s ⟨s.sync.base, control⟩)
    (hinitial : StreamInitial start) (matching : IterAction T α) (action : Action α)
    (haction : action = .drop ∨ action = .intoIter)
    (hadmitted : IterOk consumer (⟨s.sync.base, control⟩ : IterState T B α σ) matching)
    (hiter : iterStep consumer ⟨s.sync.base, control⟩ matching =
      IterState.call ⟨s.sync.base, control⟩ consumer action control')
    (hfollows : ∀ pc : Pc α σ, StreamFollows (T := T) c next flat .outside pc control')
    (hstep : StreamState.lift { s with flat := flat } consumer (.use action) next =
      some (s', event)) :
    Matches c consumer start (trace ++ [(label, event)]) s' ⟨s.sync.base, control⟩ event := by
  obtain ⟨shown, hlifted, hnext, hflat, rfl⟩ := StreamState.lift_cases hstep
  have huses : action.uses = true := by rcases haction with rfl | rfl <;> rfl
  have hok : SyncOk s.sync (consumer, .use action) := by
    intro howner
    rcases haction with rfl | rfl <;> cases howner
  obtain ⟨event', hsync', hbase, rfl⟩ := syncStep_use huses hlifted
  refine hsim.call_step hinitial matching hok hlifted hbase hadmitted hiter ?_
  rw [hnext, hflat, hsync']
  exact hfollows _

/-- The steps of `dequeue`, or of the poll of its future. -/
theorem StreamSim.dequeuing_step {control : IterControl} {cx : Option K} {spurious : Bool}
    (hsim : StreamSim c consumer start trace s ⟨s.sync.base, control⟩)
    (hdocumented : c.Documented) (hinitial : StreamInitial start)
    (hcontrol : s.control = .dequeuing cx)
    (hstep : s.dequeueNext c consumer cx spurious = some (s', event)) :
    Matches c consumer start (trace ++ [(label, event)]) s' ⟨s.sync.base, control⟩ event := by
  have hfollows := hsim.follows
  have hok : SyncOk s.sync (consumer, (.run spurious : SyncAction K α)) := trivial
  have hthread := hsim.thread consumer
  unfold StreamState.dequeueNext at hstep
  rw [hcontrol] at hfollows
  generalize hsync : s.sync.controls consumer = sync at hfollows hstep hthread
  generalize hpc : s.sync.base.pcs consumer = pc at hfollows hstep hthread
  dsimp only at hfollows
  cases hfollows with
  | attempt _ hawaits count _ =>
      obtain ⟨shown, hlifted, hnext, hflat, rfl⟩ := StreamState.lift_cases hstep
      have hrun : s.sync.run consumer spurious = some (s'.sync, shown) := hlifted
      rw [SyncState.run, hsync] at hrun
      obtain ⟨event', hsync', hbase, rfl⟩ := SyncState.call_eq hrun
      refine hsim.call_step hinitial (.run spurious) hok hlifted hbase trivial rfl ?_
      rw [hnext, hflat, hsync']
      exact .trying cx hawaits count _
  | trying _ hawaits count _ =>
      obtain ⟨shown, hlifted, hnext, hflat, rfl⟩ := StreamState.lift_cases hstep
      exact hsim.trying_step hinitial hsync hnext hflat hawaits hlifted
  | notify _ hawaits count call _ =>
      obtain ⟨shown, hlifted, hnext, hflat, rfl⟩ := StreamState.lift_cases hstep
      have hrun : s.sync.run consumer spurious = some (s'.sync, shown) := hlifted
      obtain ⟨-, attempt, capacity, enqueuing, rfl⟩ := hthread
      by_cases hcall : call = .returned
      · subst hcall
        rw [SyncState.run, hsync] at hrun
        obtain ⟨event', hsync', hbase, rfl⟩ := SyncState.call_eq hrun
        refine hsim.call_step hinitial (.run spurious) hok hlifted hbase trivial
          (iterStep_trying (fun _ _ _ _ hslice => ?_) fun _ hidle => ?_) ?_
        · cases hpc.symm.trans hslice
        · cases hpc.symm.trans hidle
        · rw [hnext, hflat, hsync']
          exact .trying cx hawaits count _
      · rw [SyncState.run_notify hsync hcall] at hrun
        obtain ⟨⟨call', hsync'⟩, hbase, rfl⟩ := SyncState.listStep_eq hrun
        refine hsim.quiet_step hinitial hok hlifted hbase ?_
        rw [hnext, hflat, hsync']
        exact .notify cx hawaits count call' _
  | register _ hawaits call _ =>
      obtain ⟨shown, hlifted, hnext, hflat, rfl⟩ := StreamState.lift_cases hstep
      have hrun : s.sync.run consumer spurious = some (s'.sync, shown) := hlifted
      by_cases hcall : call = .returned
      · subst hcall
        rw [SyncState.run, hsync] at hrun
        obtain ⟨hsync', hbase, rfl⟩ := SyncState.move_eq hrun
        refine hsim.silent_step hinitial (.run spurious) hok hlifted hbase trivial rfl ?_
        rw [hnext, hflat, hsync']
        exact .attempt cx hawaits spinLimit _
      · rw [SyncState.run_register hsync hcall] at hrun
        obtain ⟨⟨call', hsync'⟩, hbase, rfl⟩ := SyncState.atomicStep_eq hrun
        refine hsim.quiet_step hinitial hok hlifted hbase ?_
        rw [hnext, hflat, hsync']
        exact .register cx hawaits call' _
  | wait _ hawaits _ =>
      cases cx with
      | none =>
          obtain ⟨shown, hlifted, -⟩ := StreamState.lift_cases hstep
          have hrun : s.sync.run consumer spurious = some (s'.sync, shown) := hlifted
          rw [SyncState.run, hsync] at hrun
          cases hrun
      | some waker =>
          cases hstep
          refine .of_none (hsim.move rfl ?_) rfl
          rw [hsync]
          exact .heldPoll (hdocumented.stands_pending hawaits) _
  | sliced _ hawaits count i first stop slice =>
      have hiter : iterStep consumer ⟨s.sync.base, .trying count⟩ (.run spurious) =
          IterState.call ⟨s.sync.base, .trying count⟩ consumer .intoIter .front := by
        simp only [iterStep, hpc]
      exact hsim.use_step hinitial (.run spurious) .intoIter (Or.inr rfl) trivial hiter
        (.item cx (hdocumented.stands_batch hawaits)) hstep
  | failed _ hawaits count error hempty hpending =>
      have hend : ∀ {error : DequeueError},
          iterStep consumer ⟨s.sync.base, .trying count⟩ (.run spurious) =
            IterState.move ⟨s.sync.base, .trying count⟩ .ended (.finished error) →
          Matches c consumer start (trace ++ [(label, .finished error)])
            ⟨s.sync, .polling cx, c.told s.flat .error⟩ ⟨s.sync.base, .trying count⟩
            (.finished error) := by
        intro error hiter
        refine hsim.move_step (.run spurious) rfl trivial hiter ?_
        rw [hsync, hpc]
        exact .finish cx (hdocumented.stands_error hawaits) _
      cases error with
      | empty => exact absurd rfl hempty
      | pending => exact absurd rfl hpending
      | closed =>
          cases hstep
          exact hend (by simp only [iterStep, hpc])
      | conflict =>
          cases hstep
          exact hend (by simp only [iterStep, hpc])

omit [DecidableEq K] [LawfulBuffer B] in
theorem StreamSim.dequeueOk {cx : Option K} {a : IterState T B α σ}
    (hsim : StreamSim c consumer start trace s a)
    (hsync : s.sync.controls consumer = .outside) :
    SyncOk s.sync (consumer, (.dequeue cx : SyncAction K α)) := by
  intro t
  by_cases ht : t = consumer
  · rw [ht, hsync]
    rfl
  · exact hsim.others t ht

theorem StreamSim.dequeue_step {control : IterControl} {cx : Option K}
    (hsim : StreamSim c consumer start trace s ⟨s.sync.base, control⟩)
    (hinitial : StreamInitial start) (hstands : c.Stands s.flat .dequeue)
    (hsync : s.sync.controls consumer = .outside)
    (hiter : iterStep consumer ⟨s.sync.base, control⟩ (.run false) =
      IterState.move ⟨s.sync.base, control⟩ (.attempt 0) .silent)
    (hstep : s.lift consumer (.dequeue cx) (.dequeuing cx) = some (s', event)) :
    Matches c consumer start (trace ++ [(label, event)]) s' ⟨s.sync.base, control⟩ event := by
  obtain ⟨shown, hlifted, hnext, hflat, rfl⟩ := StreamState.lift_cases hstep
  obtain ⟨hsync', hbase, rfl⟩ := syncStep_dequeue hlifted
  refine hsim.silent_step hinitial (.run false) (hsim.dequeueOk hsync) hlifted hbase trivial
    hiter ?_
  rw [hnext, hflat, hsync']
  exact .attempt cx (Or.inl hstands) 0 _

theorem StreamSim.outside_step {control : IterControl} {next : StreamControl K}
    {spurious : Bool} (hsim : StreamSim c consumer start trace s ⟨s.sync.base, control⟩)
    (hinitial : StreamInitial start) (hsync : s.sync.controls consumer = .outside)
    (hiter : iterStep consumer ⟨s.sync.base, control⟩ (.run spurious) =
      IterState.call ⟨s.sync.base, control⟩ consumer (.run spurious) control)
    (hfollows : ∀ pc : Pc α σ, StreamFollows (T := T) c next s.flat .outside pc control)
    (hstep : s.lift consumer (.run spurious) next = some (s', event)) :
    Matches c consumer start (trace ++ [(label, event)]) s' ⟨s.sync.base, control⟩ event := by
  obtain ⟨shown, hlifted, hnext, hflat, rfl⟩ := StreamState.lift_cases hstep
  have hrun : s.sync.run consumer spurious = some (s'.sync, shown) := hlifted
  rw [SyncState.run, hsync] at hrun
  obtain ⟨event', hsync', hbase, rfl⟩ := SyncState.call_eq hrun
  have hok : SyncOk s.sync (consumer, (.run spurious : SyncAction K α)) := trivial
  refine hsim.call_step hinitial (.run spurious) hok hlifted hbase trivial hiter ?_
  rw [hnext, hflat, hsync']
  exact hfollows _

theorem StreamSim.frontNext_step {cx : Option K} {i : Fin 2} {first stop : Nat}
    (hsim : StreamSim c consumer start trace s ⟨s.sync.base, .front⟩)
    (hdocumented : c.Documented) (hinitial : StreamInitial start)
    (hstands : c.Stands s.flat .item) (hpc : s.sync.base.pcs consumer = .iter i first stop)
    (hstep : s.frontNext c consumer cx = some (s', event)) :
    Matches c consumer start (trace ++ [(label, event)]) s' ⟨s.sync.base, .front⟩ event := by
  have huse : SyncOk s.sync (consumer, (.use .next : SyncAction K α)) := by
    intro howner
    cases howner
  have hiter : iterStep consumer ⟨s.sync.base, .front⟩ (.run false) =
      IterState.frontNext ⟨s.sync.base, .front⟩ consumer := by
    simp only [iterStep, hpc]
  have hadmitted : IterOk consumer (⟨s.sync.base, .front⟩ : IterState T B α σ)
      (.run false) := trivial
  unfold StreamState.frontNext at hstep
  split at hstep
  · cases hstep
  · rename_i sync action j value hlifted
    cases hstep
    obtain ⟨event', hsync', hbase, hshown⟩ := syncStep_use rfl hlifted
    cases hshown
    have hsim' : StreamSim c consumer start
        (trace ++ [(label, .yielded (.consumed j [value]) value)])
        ⟨sync, .held, c.told s.flat .item⟩ ⟨sync.base, .waiting⟩ := by
      have hmove : SyncMove s.sync consumer
          (StreamState.mk sync .held (c.told s.flat .item)).sync _ :=
        syncStep_cases hlifted huse
      have hevent : (.yielded (.consumed j [value]) value : IterEvent T α).call? consumer =
          (SyncEvent.iter consumer (.called .next (.consumed j [value]))).call? consumer := rfl
      refine hsim.sync_step hinitial hmove (fun h => absurd rfl h) hevent ?_
      rw [hsync']
      exact .heldItem (hdocumented.stands_item hstands) _
    refine .of_step hsim' hadmitted ?_ rfl
    rw [hiter, IterState.frontNext, hbase]
  · rename_i sync shown hnone hlifted
    cases hstep
    obtain ⟨event', hsync', hbase, rfl⟩ := syncStep_use rfl hlifted
    have hsim' : StreamSim c consumer start (trace ++ [(label, .called (consumer, .next) event')])
        ⟨sync, .polling cx, c.told s.flat .exhausted⟩ ⟨sync.base, .clearing⟩ := by
      have hmove : SyncMove s.sync consumer
          (StreamState.mk sync (.polling cx) (c.told s.flat .exhausted)).sync _ :=
        syncStep_cases hlifted huse
      refine hsim.sync_step hinitial hmove (fun h => absurd rfl h) rfl ?_
      rw [hsync']
      exact .clear cx (hdocumented.stands_exhausted hstands) _
    refine .of_step hsim' hadmitted ?_ rfl
    rw [hiter, IterState.frontNext, hbase]
    split
    · rename_i hbase'
      cases hbase'
    · rename_i base j value hbase'
      cases hbase'
      exact (hnone .next j value rfl).elim
    · rename_i base shown _ hbase'
      cases hbase'
      rfl

omit [DecidableEq K] [LawfulBuffer B] in
theorem StreamSim.stay {control : IterControl} {next : StreamControl K} {flat : Flat R W M}
    (hsim : StreamSim c consumer start trace s ⟨s.sync.base, control⟩)
    (hfollows : StreamFollows c next flat (s.sync.controls consumer)
      (s.sync.base.pcs consumer) control) :
    Matches c consumer start (trace ++ [(label, .silent)]) ⟨s.sync, next, flat⟩
      ⟨s.sync.base, control⟩ .silent :=
  .of_none (hsim.move rfl hfollows) rfl

theorem StreamSim.resume_step {control : IterControl} {cx : Option K}
    (hsim : StreamSim c consumer start trace s ⟨s.sync.base, control⟩)
    (hinitial : StreamInitial start)
    (hpark : s.sync.controls consumer = .dequeueWait → control = .park ∧ c.Awaits s.flat)
    (hstep : s.lift consumer (.resume cx) (.dequeuing cx) = some (s', event)) :
    Matches c consumer start (trace ++ [(label, event)]) s' ⟨s.sync.base, control⟩ event := by
  obtain ⟨shown, hlifted, hnext, hflat, rfl⟩ := StreamState.lift_cases hstep
  obtain ⟨hwait, hsync', hbase, rfl⟩ := syncStep_resume hsim.follows.enqueues hlifted
  obtain ⟨rfl, hawaits⟩ := hpark hwait
  have hok : SyncOk s.sync (consumer, (.resume cx : SyncAction K α)) := trivial
  refine hsim.silent_step hinitial (.run false) hok hlifted hbase trivial rfl ?_
  rw [hnext, hflat, hsync']
  exact .attempt cx hawaits 0 _

theorem StreamSim.ask_step {control : IterControl} {cx : Option K}
    (hsim : StreamSim c consumer start trace s ⟨s.sync.base, control⟩)
    (hdocumented : c.Documented) (hinitial : StreamInitial start)
    (hcontrol : s.control = .polling cx) (hstep : s.ask c consumer cx = some (s', event)) :
    Matches c consumer start (trace ++ [(label, event)]) s' ⟨s.sync.base, control⟩ event := by
  have hfollows := hsim.follows
  unfold StreamState.ask at hstep
  rw [hcontrol] at hfollows
  generalize hsync : s.sync.controls consumer = sync at hfollows
  generalize hpc : s.sync.base.pcs consumer = pc at hfollows hstep
  dsimp only at hfollows
  cases hfollows with
  | item _ hstands _ =>
      rw [hstands.asks_eq] at hstep
      dsimp only at hstep
      split at hstep
      · exact hsim.frontNext_step hdocumented hinitial hstands hpc hstep
      · cases hstep
  | clear _ hstands _ =>
      rw [hstands.asks_eq] at hstep
      cases hstep
      refine hsim.stay ?_
      rw [hsync]
      exact .clearing cx hstands _
  | dequeue _ hstands _ =>
      rw [hstands.asks_eq] at hstep
      refine hsim.dequeue_step hinitial hstands hsync ?_ hstep
      obtain ⟨shown, hlifted, -⟩ := StreamState.lift_cases hstep
      obtain ⟨last, hidle⟩ := syncStep_dequeue_idle hlifted
      simp only [iterStep, hidle]
  | dequeueParked _ hstands last =>
      rw [hstands.asks_eq] at hstep
      exact hsim.dequeue_step hinitial hstands hsync rfl hstep
  | dequeueCleared _ hstands last =>
      rw [hstands.asks_eq] at hstep
      refine hsim.dequeue_step hinitial hstands hsync ?_ hstep
      simp only [iterStep, hpc]
  | poll _ hstands _ =>
      rw [hstands.asks_eq] at hstep
      exact hsim.resume_step hinitial (fun _ => ⟨rfl, Or.inr hstands⟩) hstep
  | finish _ hstands last =>
      rw [hstands.asks_eq] at hstep
      cases hstep
      refine hsim.move_step .next rfl trivial rfl ?_
      rw [hsync, hpc]
      exact .heldFinish (hdocumented.stands_finished hstands) last

theorem StreamSim.clearing_step {control : IterControl} {cx : Option K} {spurious : Bool}
    (hsim : StreamSim c consumer start trace s ⟨s.sync.base, control⟩)
    (hdocumented : c.Documented) (hinitial : StreamInitial start)
    (hcontrol : s.control = .clearing cx)
    (hstep : streamStep c consumer s (.run spurious) = some (s', event)) :
    Matches c consumer start (trace ++ [(label, event)]) s' ⟨s.sync.base, control⟩ event := by
  have hfollows := hsim.follows
  simp only [streamStep, hcontrol] at hstep
  rw [hcontrol] at hfollows
  generalize hsync : s.sync.controls consumer = sync at hfollows
  generalize hpc : s.sync.base.pcs consumer = pc at hfollows hstep
  cases hfollows with
  | clearing _ hstands _ =>
      split at hstep
      · rename_i i first stop
        have hiter : iterStep consumer ⟨s.sync.base, .clearing⟩ (.run spurious) =
            IterState.call ⟨s.sync.base, .clearing⟩ consumer .drop .clearing := by
          simp only [iterStep, hpc]
        exact hsim.use_step hinitial (.run spurious) .drop (Or.inl rfl) trivial hiter
          (.clearing cx hstands) hstep
      · rename_i last
        cases hstep
        refine hsim.stay ?_
        rw [hsync, hpc]
        exact .dequeueCleared cx (hdocumented.stands_cleared hstands) last
      · rename_i hiter hidle
        refine hsim.outside_step hinitial hsync ?_ (.clearing cx hstands) hstep
        simp only [iterStep]
        split
        · rename_i hpc'
          exact absurd (hpc.symm.trans hpc') (hiter _ _ _)
        · rename_i hpc'
          exact absurd (hpc.symm.trans hpc') (hidle _)
        · rfl

theorem StreamSim.dropping_step {control : IterControl} {spurious : Bool}
    (hsim : StreamSim c consumer start trace s ⟨s.sync.base, control⟩)
    (hinitial : StreamInitial start) (hcontrol : s.control = .dropping)
    (hstep : streamStep c consumer s (.run spurious) = some (s', event)) :
    Matches c consumer start (trace ++ [(label, event)]) s' ⟨s.sync.base, control⟩ event := by
  have hfollows := hsim.follows
  simp only [streamStep, hcontrol] at hstep
  rw [hcontrol] at hfollows
  generalize hsync : s.sync.controls consumer = sync at hfollows
  generalize hpc : s.sync.base.pcs consumer = pc at hfollows hstep
  dsimp only at hfollows
  generalize hflat : s.flat = flat at hfollows
  cases hfollows with
  | dropping _ _ =>
      split at hstep
      · rename_i last
        cases hstep
        have hiter : iterStep consumer ⟨s.sync.base, .abandoning⟩ (.run spurious) =
            IterState.move ⟨s.sync.base, .abandoning⟩ .absent .silent := by
          simp only [iterStep, hpc]
        refine hsim.move_step (.run spurious) rfl trivial hiter ?_
        rw [hsync]
        exact .absent _ _
      · rename_i hidle
        refine hsim.outside_step hinitial hsync ?_ (.dropping _) hstep
        simp only [iterStep]
        split
        · rename_i hpc'
          exact absurd (hpc.symm.trans hpc') (hidle _)
        · rfl

theorem StreamSim.run_step {control : IterControl} {spurious : Bool}
    (hsim : StreamSim c consumer start trace s ⟨s.sync.base, control⟩)
    (hdocumented : c.Documented) (hinitial : StreamInitial start)
    (hstep : streamStep c consumer s (.run spurious) = some (s', event)) :
    Matches c consumer start (trace ++ [(label, event)]) s' ⟨s.sync.base, control⟩ event := by
  cases hcontrol : s.control with
  | polling cx =>
      simp only [streamStep, hcontrol] at hstep
      exact hsim.ask_step hdocumented hinitial hcontrol hstep
  | clearing cx => exact hsim.clearing_step hdocumented hinitial hcontrol hstep
  | dequeuing cx =>
      simp only [streamStep, hcontrol] at hstep
      exact hsim.dequeuing_step hdocumented hinitial hcontrol hstep
  | dropping => exact hsim.dropping_step hinitial hcontrol hstep
  | absent =>
      simp only [streamStep, hcontrol] at hstep
      cases hstep
  | held =>
      simp only [streamStep, hcontrol] at hstep
      cases hstep

omit [LawfulBuffer B] in
theorem StreamSim.create_step {control : IterControl}
    (hsim : StreamSim c consumer start trace s ⟨s.sync.base, control⟩)
    (hdocumented : c.Documented)
    (hstep : streamStep c consumer s .create = some (s', event)) :
    Matches c consumer start (trace ++ [(label, event)]) s' ⟨s.sync.base, control⟩ event := by
  have hfollows := hsim.follows
  simp only [streamStep] at hstep
  generalize hsync : s.sync.controls consumer = sync at hfollows
  generalize hpc : s.sync.base.pcs consumer = pc at hfollows
  split at hstep
  · rename_i hcontrol
    rw [hcontrol] at hfollows
    dsimp only at hfollows
    generalize hflat : s.flat = flat at hfollows
    cases hstep
    cases hfollows with
    | absent _ _ =>
        refine hsim.move_step .iter rfl trivial rfl ?_
        rw [hsync]
        exact .heldDequeue hdocumented.stands_new _
    | absentParked _ last =>
        refine hsim.stay ?_
        rw [hsync, hpc]
        exact .heldParked hdocumented.stands_new last
  · cases hstep

omit [LawfulBuffer B] in
theorem StreamSim.next_step {control : IterControl} {cx : Option K}
    (hsim : StreamSim c consumer start trace s ⟨s.sync.base, control⟩)
    (hstep : streamStep c consumer s (.next cx) = some (s', event)) :
    Matches c consumer start (trace ++ [(label, event)]) s' ⟨s.sync.base, control⟩ event := by
  have hfollows := hsim.follows
  simp only [streamStep] at hstep
  generalize hsync : s.sync.controls consumer = sync at hfollows
  generalize hpc : s.sync.base.pcs consumer = pc at hfollows
  split at hstep
  · rename_i hcontrol
    rw [hcontrol] at hfollows
    cases hstep
    cases hfollows with
    | heldItem hstands _ =>
        refine hsim.move_step .next rfl trivial rfl ?_
        rw [hsync]
        exact .item cx hstands _
    | heldDequeue hstands _ =>
        refine hsim.move_step .next rfl trivial rfl ?_
        rw [hsync]
        exact .dequeue cx hstands _
    | heldParked hstands last =>
        refine hsim.stay ?_
        rw [hsync, hpc]
        exact .dequeueParked cx hstands last
    | heldPoll hstands _ =>
        refine hsim.stay ?_
        rw [hsync]
        exact .poll cx hstands _
    | heldFinish hstands last =>
        refine hsim.stay ?_
        rw [hsync, hpc]
        exact .finish cx hstands last
  · cases hstep

/-- A stream without a pending future is dropped, with or without a batch in front. -/
theorem StreamSim.drop_waiting
    (hsim : StreamSim c consumer start trace s ⟨s.sync.base, .waiting⟩)
    (hinitial : StreamInitial start) (hcontrol : s.control = .held)
    (hsync : s.sync.controls consumer = .outside)
    (hstep : streamStep c consumer s .drop = some (s', event)) :
    Matches c consumer start (trace ++ [(label, event)]) s' ⟨s.sync.base, .waiting⟩
      event := by
  simp only [streamStep, hcontrol, hsync] at hstep
  split at hstep
  · rename_i hwait
    cases hwait
  · rename_i i first stop hpc _
    have hiter : iterStep consumer ⟨s.sync.base, .waiting⟩ .abandon =
        IterState.call ⟨s.sync.base, .waiting⟩ consumer .drop .abandoning := by
      simp only [iterStep, hpc]
    exact hsim.use_step hinitial .abandon .drop (Or.inl rfl) trivial hiter (.dropping _) hstep
  · rename_i hpc
    cases hstep
    have hiter : iterStep consumer ⟨s.sync.base, .waiting⟩ .abandon =
        IterState.move ⟨s.sync.base, .waiting⟩ .absent .silent := by
      simp only [iterStep]
    refine hsim.move_step .abandon rfl trivial hiter ?_
    rw [hsync]
    exact .absent _ _

theorem StreamSim.drop_step {control : IterControl}
    (hsim : StreamSim c consumer start trace s ⟨s.sync.base, control⟩)
    (hinitial : StreamInitial start)
    (hstep : streamStep c consumer s .drop = some (s', event)) :
    Matches c consumer start (trace ++ [(label, event)]) s' ⟨s.sync.base, control⟩ event := by
  have hfollows := hsim.follows
  have hthread := hsim.thread consumer
  have hheld : s.control = .held := by
    simp only [streamStep] at hstep
    split at hstep
    · assumption
    · cases hstep
  rw [hheld] at hfollows
  generalize hsync : s.sync.controls consumer = sync at hfollows hthread
  generalize hpc : s.sync.base.pcs consumer = pc at hfollows hthread
  cases hfollows with
  | heldItem _ _ => exact hsim.drop_waiting hinitial hheld hsync hstep
  | heldDequeue _ _ => exact hsim.drop_waiting hinitial hheld hsync hstep
  | heldParked _ last =>
      simp only [streamStep, hheld, hsync, hpc] at hstep
      cases hstep
      refine hsim.stay ?_
      rw [hsync, hpc]
      exact .absentParked _ last
  | heldPoll _ _ =>
      simp only [streamStep, hheld, hsync] at hstep
      obtain ⟨last, rfl⟩ := hthread
      obtain ⟨shown, hlifted, hnext, -, rfl⟩ := StreamState.lift_cases hstep
      obtain ⟨hcancelled, rfl⟩ := syncStep_cancel_eq hlifted
      have hok : SyncOk s.sync (consumer, (.cancel : SyncAction K α)) := trivial
      have hbase : s'.sync.base = s.sync.base := by
        rw [hcancelled]
        rfl
      have hsync' : s'.sync.controls consumer = .outside := by
        rw [hcancelled]
        exact Function.update_self ..
      refine hsim.quiet_step hinitial hok hlifted hbase ?_
      rw [hnext, hsync', hbase, hpc]
      exact .absentParked _ last
  | heldFinish _ last =>
      simp only [streamStep, hheld, hsync, hpc] at hstep
      cases hstep
      refine hsim.move_step .abandon rfl trivial rfl ?_
      rw [hsync]
      exact .absent _ _

/-- Every step of a stream is matched by the iterators. -/
theorem StreamSim.step (hsim : StreamSim c consumer start trace s a)
    (hdocumented : c.Documented) (hinitial : StreamInitial start)
    (hok : StreamOk consumer s label)
    (hstep : streamStep c consumer s label = some (s', event)) :
    Matches c consumer start (trace ++ [(label, event)]) s' a event := by
  obtain ⟨base, control⟩ := a
  cases hsim.base
  cases label with
  | other t action => exact hsim.other_step hinitial hok hstep
  | create => exact hsim.create_step hdocumented hstep
  | next cx => exact hsim.next_step hstep
  | drop => exact hsim.drop_step hinitial hstep
  | unpark =>
      have hfollows := hsim.follows
      simp only [streamStep] at hstep
      split at hstep
      · rename_i hcontrol
        refine hsim.resume_step hinitial (fun hwait => ?_) hstep
        rw [hwait, hcontrol] at hfollows
        cases hfollows with
        | wait _ hawaits _ => exact ⟨rfl, hawaits⟩
      · cases hstep
  | run spurious => exact hsim.run_step hdocumented hinitial hstep

/-- A run over the stream is matched by a run over the iterators, from any two states that
belong together. -/
theorem StreamSim.simulate {before : List (StreamAction T K α × IterEvent T α)}
    {middle : StreamState T K B α σ (Flat R W M)}
    (hsim : StreamSim c consumer start before middle a) (hdocumented : c.Documented)
    (hinitial : StreamInitial start)
    (hrun : Runs.Run (streamStep c consumer) (StreamOk consumer) middle trace s) :
    ∃ trace' a', Runs.Run (iterStep consumer) (IterOk consumer) a trace' a' ∧
      StreamSim c consumer start (before ++ trace) s a' ∧
      (trace'.flatMap fun entry => entry.2.seen) = trace.flatMap fun entry => entry.2.seen :=
  Runs.Run.simulate (fun h hok hstep => h.step hdocumented hinitial hok hstep) hsim hrun

end Simulation

end SwapBufferQueue
