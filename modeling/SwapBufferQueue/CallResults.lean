/-
What the calls of a synchronized queue return: the blocking calls, the calls with a
deadline, the futures and the bare attempts.  Whatever a call has waited for and however
often it has tried, its result was right at an instant of the call, a value is reserved
once or not at all, and only a call whose deadline has passed, or a bare attempt, gives up
what it could still wait for.
-/
import SwapBufferQueue.CallSteps
import SwapBufferQueue.Outcomes

namespace SwapBufferQueue

universe u v w x y

variable {T : Type x} {K : Type y} {B : Type u} {α : Type v} {σ : Type w}

section Enqueue

variable [DecidableEq T] [Buffer B α σ]

section Definitions

variable (t : T) (before : List ((T × Action α) × Event α)) (s : State T B α σ)
  (value : List α) (during : List ((T × Action α) × Event α))

/-- A call that enqueues and how far it has got: it has reserved nothing as long as it may
still wait. -/
def EnqueueCall : SyncControl T K α → Pc α σ → Prop
  | .outside, _ => True
  | .enqueueAttempt value' _, _ => value' = value ∧ reservationsOf t during = []
  | .enqueueTrying value' _, pc => value' = value ∧
      (EnqueueInv t before s during value pc ∨
        value = [] ∧ pc = .idle (some .enqueued) ∧ reservationsOf t during = [])
  | .enqueueCapacity value' _, pc => value' = value ∧
      ∃ outcome, pc = .idle (some (.enqueueError (.insufficientCapacity outcome))) ∧
        EnqueueRight t before s during value
          (.enqueueError (.insufficientCapacity outcome))
  | .enqueueRegister value' _, _ => value' = value ∧ reservationsOf t during = []
  | .enqueueWait value', _ => value' = value ∧ reservationsOf t during = []
  | .enqueueNotify _, pc => pc = .idle (some .enqueued) ∧
      EnqueueRight t before s during value .enqueued
  | _, _ => False

/-- When the result of a call that enqueues is right: the outcome of its last attempt is,
and a value that the queue could hold is given back for lack of room only when the call
gives up. -/
def EnqueueResult (capacity : Nat) (givesUp : Prop) : Option (CallResult α) → Prop
  | some .enqueued => EnqueueRight t before s during value .enqueued ∨
      value = [] ∧ reservationsOf t during = []
  | some (.enqueueError (.closed value')) =>
      EnqueueRight t before s during value (.enqueueError (.closed value'))
  | some (.enqueueError (.insufficientCapacity value')) =>
      EnqueueRight t before s during value (.enqueueError (.insufficientCapacity value')) ∧
        (capacity < value.length ∨ givesUp)
  | _ => False

end Definitions

variable {t : T} {before during : List ((T × Action α) × Event α)} {s : State T B α σ}
  {value : List α} {control control' : SyncControl T K α} {pc : Pc α σ}

theorem EnqueueCall.append (hcall : EnqueueCall t before s value during control pc)
    {entry : (T × Action α) × Event α} (hnone : reservationsOf t [entry] = []) :
    EnqueueCall t before s value (during ++ [entry]) control pc := by
  have hsame : reservationsOf t (during ++ [entry]) = reservationsOf t during := by
    rw [reservationsOf_append, hnone, List.append_nil]
  cases control with
  | outside => trivial
  | enqueueAttempt _ _ => exact ⟨hcall.1, hsame.trans hcall.2⟩
  | enqueueTrying _ _ =>
      refine ⟨hcall.1, hcall.2.imp (fun h => h.append hnone) ?_⟩
      exact fun ⟨hvalue, hpc, hnothing⟩ => ⟨hvalue, hpc, hsame.trans hnothing⟩
  | enqueueCapacity _ _ =>
      obtain ⟨hvalue, outcome, hpc, hright⟩ := hcall
      exact ⟨hvalue, outcome, hpc, hright.append hnone⟩
  | enqueueRegister _ _ => exact ⟨hcall.1, hsame.trans hcall.2⟩
  | enqueueWait _ => exact ⟨hcall.1, hsame.trans hcall.2⟩
  | enqueueNotify _ => exact ⟨hcall.1, hcall.2.append hnone⟩
  | _ => exact hcall.elim

theorem EnqueueCall.moved (hcall : EnqueueCall t before s value during control pc)
    {cx : Option K} {capacity : Nat} (hmove : SyncMoves cx capacity control pc control')
    (hcalling : control.calling = true) :
    EnqueueCall t before s value during control' pc := by
  cases hmove with
  | insufficient _ _ outcome =>
      obtain ⟨hvalue, hinv | ⟨-, hpc, -⟩⟩ := hcall
      · exact ⟨hvalue, outcome, rfl, hinv⟩
      · cases hpc
  | enqueueReturns _ _ _ => trivial
  | enqueueAgain _ _ _ _ =>
      obtain ⟨hvalue, outcome, -, hright⟩ := hcall
      exact ⟨hvalue, hright.2.1⟩
  | enqueueRegister _ _ _ =>
      obtain ⟨hvalue, outcome, -, hright⟩ := hcall
      exact ⟨hvalue, hright.2.1⟩
  | enqueueWait _ _ _ _ _ =>
      obtain ⟨hvalue, outcome, -, hright⟩ := hcall
      exact ⟨hvalue, hright.2.1⟩
  | tooLarge _ _ _ => trivial
  | enqueueRegistered _ _ => exact hcall
  | enqueueNotified _ => trivial
  | cancelEnqueue _ _ => trivial
  | closeEnqueuers _ => cases hcalling
  | closed _ => cases hcalling
  | _ => exact hcall.elim

variable [LawfulBuffer B]

theorem EnqueueCall.called {state : State T B α σ} {action : Action α} {q' : Queue B}
    {pc' : Pc α σ} {event : Event α}
    (hduring : Runs.Run SwapBufferQueue.step SizeOk s during state)
    (hsim : Sim state (Ledger.ofTrace (before ++ during)))
    (hview : (Ledger.ofTrace (before ++ during)).view = View.ofTrace (before ++ during))
    (hcalls : SyncCalls control (state.pcs t) action control')
    (hcalling : control.calling = true)
    (hmove : Transition state.queue (state.pcs t) action q' pc' event)
    (hself : ThreadInv q' ((Ledger.ofTrace (before ++ during)).next t event) t pc')
    (hcall : EnqueueCall t before s value during control (state.pcs t)) :
    EnqueueCall t before s value (during ++ [((t, action), event)]) control' pc' := by
  have hstep : ∀ {spurious : Bool} {event : Event α},
      Transition state.queue (state.pcs t) (.run spurious) q' pc' event →
        ThreadInv q' ((Ledger.ofTrace (before ++ during)).next t event) t pc' →
          EnqueueInv t before s during value (state.pcs t) →
            EnqueueInv t before s (during ++ [((t, .run spurious), event)]) value pc' :=
    fun hmove hself hinv => hinv.step hsim hview hduring hmove hself
  generalize state.pcs t = pc at hcalls hmove hcall hstep
  cases hcalls with
  | tryEnqueue _ count _ =>
      obtain ⟨rfl, hnone⟩ := hcall
      have hnone' : ∀ {action : Action α},
          reservationsOf t (during ++ [((t, action), .silent)]) = [] := by
        intro action
        rw [reservationsOf_append, hnone, reservationsOf_singleton]
        rfl
      refine ⟨rfl, ?_⟩
      cases hmove with
      | silent hlocal =>
          cases hlocal with
          | enqueueNothing _ => exact Or.inr ⟨rfl, rfl, hnone'⟩
          | tryEnqueue _ _ _ => exact Or.inl ⟨rfl, hnone'⟩
  | acknowledge _ count _ enqueuing spurious =>
      obtain ⟨-, hinv | ⟨-, hpc, -⟩⟩ := hcall
      · have hinv' := hstep hmove hself hinv
        cases hmove with
        | acknowledge _ _ _ => exact ⟨rfl, hinv'⟩
        | silent hlocal => cases hlocal
      · cases hpc
  | enqueueTrying _ count _ spurious _ =>
      obtain ⟨hvalue, hinv | ⟨-, rfl, -⟩⟩ := hcall
      · exact ⟨hvalue, Or.inl (hstep hmove hself hinv)⟩
      · cases hmove with
        | silent hlocal => cases hlocal
  | tryDequeue _ _ => exact hcall.elim
  | dequeueTrying _ _ _ _ => exact hcall.elim
  | notified _ _ _ => exact hcall.elim
  | _ => cases hcalling

theorem enqueueCall_steps (t : T) (before : List ((T × Action α) × Event α))
    (s : State T B α σ) (value : List α) :
    CallSteps (K := K) t before s (EnqueueCall t before s value) where
  outside _ _ := trivial
  others {_ entry _ _} ht' hcall := by
    obtain ⟨⟨t', action⟩, event⟩ := entry
    exact hcall.append (reservationsOf_singleton_of_ne ht' action event)
  called hduring hsim hview hcalls hcalling hmove hself hcall :=
    hcall.called hduring hsim hview hcalls hcalling hmove hself
  moved hmove hcalling hcall := hcall.moved hmove hcalling
  atomic hplace hcall := by
    cases hplace with
    | enqueueNotify => exact hcall
    | dequeueRegister => exact hcall.elim
    | closeDequeuer => exact hcall.elim
  listed hplace hcall := by
    cases hplace with
    | enqueueRegister _ => exact hcall
    | dequeueNotify _ => exact hcall.elim
    | closeEnqueuers => exact hcall.elim
  again {_ control _ _} hagain hcall := by
    cases control with
    | enqueueWait _ =>
        cases hagain
        exact hcall
    | dequeueWait => exact hcall.elim
    | _ => cases hagain

omit [LawfulBuffer B] in
theorem EnqueueCall.result {value' : List α} {count : Nat} {last : Option (Outcome α)}
    (hcall : EnqueueCall t before s value during
      (.enqueueTrying value' count : SyncControl T K α) (.idle last : Pc α σ))
    {capacity : Nat} {givesUp : Prop} (patience : Patience)
    (hlast : ∀ value', last = some (.enqueueError (.insufficientCapacity value')) →
      capacity < value.length ∨ givesUp) :
    EnqueueResult t before s value during capacity givesUp
      (patience.result (.idle last : Pc α σ)) := by
  obtain ⟨-, hinv | ⟨hvalue, hpc, hnone⟩⟩ := hcall
  · cases last with
    | none => exact hinv.elim
    | some outcome =>
        cases outcome with
        | enqueued => exact Or.inl hinv
        | enqueueError error =>
            cases error with
            | closed _ => exact hinv
            | insufficientCapacity value'' => exact ⟨hinv, hlast value'' rfl⟩
        | _ => exact hinv.elim
  · cases hpc
    exact Or.inr ⟨hvalue, hnone⟩

end Enqueue

section Dequeue

variable [DecidableEq T] [Buffer B α σ]

section Definitions

variable (t : T) (before : List ((T × Action α) × Event α)) (s : State T B α σ)
  (during : List ((T × Action α) × Event α))

/-- A call that dequeues and how far it has got. -/
def DequeueCall : SyncControl T K α → Pc α σ → Prop
  | .outside, _ => True
  | .dequeueAttempt _, _ => True
  | .dequeueTrying _, pc => DequeueInv t before s during .none pc
  | .dequeueNotify _ _, pc => DequeueInv t before s during .none pc
  | .dequeueRegister _, _ => True
  | .dequeueWait, _ => True
  | _, _ => False

/-- When the result of a call that dequeues is right: a batch is never empty, an error was
right at an instant of the call, and only a call that gives up reports that it could have
waited. -/
def DequeueResult (givesUp : Prop) (pc : Pc α σ) : Option (CallResult α) → Prop
  | some .dequeued => ∃ i first last slice, pc = .slice i first last slice ∧ first < last
  | some (.dequeueError error) =>
      DequeueRight t before s during .none (.dequeueError error) ∧
        (Retries (.dequeueError error : Outcome α) → givesUp)
  | some (.dequeueFailed .closed) =>
      DequeueRight t before s during .none (.dequeueError .closed)
  | some (.dequeueFailed .conflict) =>
      DequeueRight t before s during .none (.dequeueError .conflict)
  | _ => False

end Definitions

variable {t : T} {before during : List ((T × Action α) × Event α)} {s : State T B α σ}
  {control control' : SyncControl T K α} {pc : Pc α σ}

theorem DequeueCall.append (hcall : DequeueCall t before s during control pc)
    (entry : (T × Action α) × Event α) :
    DequeueCall t before s (during ++ [entry]) control pc := by
  cases control with
  | dequeueTrying _ => exact DequeueInv.append hcall entry
  | dequeueNotify _ _ => exact DequeueInv.append hcall entry
  | _ => exact hcall

theorem DequeueCall.moved (hcall : DequeueCall t before s during control pc)
    {cx : Option K} {capacity : Nat} (hmove : SyncMoves cx capacity control pc control')
    (hcalling : control.calling = true) : DequeueCall t before s during control' pc := by
  cases hmove with
  | notify _ _ _ _ => exact hcall
  | dequeued _ _ _ _ _ => trivial
  | dequeueAgain _ _ _ => trivial
  | dequeueRegister _ _ => trivial
  | dequeueWait _ _ _ _ => trivial
  | dequeueFails _ _ => trivial
  | dequeueRegistered _ => trivial
  | cancelDequeue _ => trivial
  | closeEnqueuers _ => cases hcalling
  | closed _ => cases hcalling
  | _ => exact hcall.elim

theorem DequeueCall.result {count : Nat} {last : Option (Outcome α)}
    (hcall : DequeueCall t before s during
      (.dequeueTrying count : SyncControl T K α) (.idle last : Pc α σ))
    {givesUp : Prop} {patience : Patience}
    (hretries : ∀ outcome, last = some outcome → Retries outcome →
      patience.last = true ∧ givesUp) :
    DequeueResult t before s during givesUp (.idle last : Pc α σ)
      (patience.result (.idle last : Pc α σ)) := by
  cases last with
  | none => exact hcall.elim
  | some outcome =>
      cases outcome with
      | dequeueError error =>
          cases patience with
          | forever =>
              cases error with
              | closed => exact hcall
              | conflict => exact hcall
              | empty => cases (hretries _ rfl .empty).1
              | pending => cases (hretries _ rfl .pending).1
          | _ => exact ⟨hcall, fun h => (hretries _ rfl h).2⟩
      | _ => exact hcall.elim

variable [LawfulBuffer B]

theorem DequeueCall.called {state : State T B α σ} {action : Action α} {q' : Queue B}
    {pc' : Pc α σ} {event : Event α}
    (hduring : Runs.Run SwapBufferQueue.step SizeOk s during state)
    (hsim : Sim state (Ledger.ofTrace (before ++ during)))
    (hview : (Ledger.ofTrace (before ++ during)).view = View.ofTrace (before ++ during))
    (hcalls : SyncCalls control (state.pcs t) action control')
    (hcalling : control.calling = true)
    (hmove : Transition state.queue (state.pcs t) action q' pc' event)
    (hcall : DequeueCall t before s during control (state.pcs t)) :
    DequeueCall t before s (during ++ [((t, action), event)]) control' pc' := by
  have hstep : ∀ {spurious : Bool},
      Transition state.queue (state.pcs t) (.run spurious) q' pc' event →
        DequeueInv t before s during .none (state.pcs t) →
          DequeueInv t before s (during ++ [((t, .run spurious), event)]) .none pc' :=
    fun hmove hinv => hinv.step hsim hview hduring hmove
  generalize state.pcs t = pc at hcalls hmove hcall hstep
  cases hcalls with
  | tryDequeue count _ =>
      cases hmove with
      | silent hlocal =>
          cases hlocal with
          | tryDequeue _ => exact rfl
  | dequeueTrying _ _ _ _ => exact hstep hmove hcall
  | notified _ _ _ => exact hstep hmove hcall
  | tryEnqueue _ _ _ => exact hcall.elim
  | acknowledge _ _ _ _ _ => exact hcall.elim
  | enqueueTrying _ _ _ _ _ => exact hcall.elim
  | _ => cases hcalling

theorem dequeueCall_steps (t : T) (before : List ((T × Action α) × Event α))
    (s : State T B α σ) : CallSteps (K := K) t before s (DequeueCall t before s) where
  outside _ _ := trivial
  others _ hcall := hcall.append _
  called hduring hsim hview hcalls hcalling hmove _ hcall :=
    hcall.called hduring hsim hview hcalls hcalling hmove
  moved hmove hcalling hcall := hcall.moved hmove hcalling
  atomic hplace hcall := by
    cases hplace with
    | dequeueRegister => trivial
    | enqueueNotify => exact hcall.elim
    | closeDequeuer => exact hcall.elim
  listed hplace hcall := by
    cases hplace with
    | dequeueNotify _ => exact hcall
    | enqueueRegister _ => exact hcall.elim
    | closeEnqueuers => exact hcall.elim
  again {_ control _ _} hagain hcall := by
    cases control with
    | dequeueWait =>
        cases hagain
        trivial
    | enqueueWait _ => exact hcall.elim
    | _ => cases hagain

end Dequeue

section EnqueueResults

variable [DecidableEq T] [DecidableEq K] [Buffer B α σ] [LawfulBuffer B]
  {start m m' s : TimedState T K B α σ} {t : T} {call : TimedAction K α}
  {shown : TimedEvent α} {before during : List ((T × TimedAction K α) × TimedEvent α)}

/-- Every call that enqueues is right, whatever it waits for: `enqueue`, `enqueue_async`,
`enqueue_timeout` and `try_enqueue`.  Its value has been reserved exactly once if it
returns `Ok` and not at all if it returns an error or is dropped; the error was right at an
instant of the call; and a value that the queue could hold is given back for lack of room
only by `try_enqueue`, or by a call whose deadline has passed.  A call whose deadline cannot
be represented panics before it begins, and leaves everything as it was. -/
theorem enqueue_calls_right (hinitial : SyncInitial start.sync)
    (hbefore : Runs.Run timedStep TimedOk start before m) {value : List α}
    (hvalue : call.value? = some value) (hok : TimedOk m (t, call))
    (hcall : timedStep m (t, call) = some (m', shown))
    (hduring : Runs.Run timedStep TimedOk m' during s)
    (hgoes : ∀ entry ∈ during, entry.1.1 = t → entry.1.2.goesOn = true) :
    (call.Overflows m.clock m.lastInstant → m' = m ∧ shown = .overflowed) ∧
    (¬ call.Overflows m.clock m.lastInstant →
      (∀ spurious s' result,
        timedStep s (t, .call (.run spurious)) = some (s', .returned result) →
          EnqueueResult t (timedTrace before) m.sync.base value (timedTrace during)
            start.sync.base.queue.capacity (call.GivesUp m.clock s.clock) result) ∧
      ∀ s' event, timedStep s (t, .call .cancel) = some (s', event) →
        reservationsOf t (timedTrace during) = []) := by
  refine ⟨timedStep_overflows hcall, fun hbegins => ?_⟩
  obtain ⟨hcontrol, hbase, rfl⟩ := timedStep_enqueues hvalue hcall hbegins
  have hmade : timedTrace (before ++ [((t, call), .shown .silent)]) = timedTrace before := by
    rw [timedTrace_append, timedTrace_silent rfl, List.append_nil]
  have hsteps := enqueueCall_steps (K := K) t
    (timedTrace (before ++ [((t, call), .shown .silent)])) m'.sync.base value
  obtain ⟨-, -, hinv⟩ := hsteps.run hinitial (hbefore.snoc hok hcall)
    (by rw [hcontrol]; rfl) (by rw [hcontrol]; exact ⟨rfl, rfl⟩) hduring hgoes
  rw [hmade, hbase] at hinv
  have hfollows := follows_of_run hcall (Or.inl (by rw [hvalue]; rfl)) hbegins hduring hgoes
  have hwake := wakeInv_of_timedRun hinitial ((hbefore.snoc hok hcall).append hduring)
  have hcapacity := (uniform_of_run hinitial.base hwake.inv.run).field
  constructor
  · intro spurious s' result hreturn
    obtain ⟨shown', hadvance, -, -, hevent | ⟨hcalling, hreturned, hevent⟩⟩ :=
      TimedState.run_cases hreturn
    · cases hevent
    · cases hevent
      have hreturns := TimedState.advance_returns hadvance hcalling hreturned
      rw [hcapacity] at hreturns
      generalize s.sync.controls t = control at hinv hreturns
      generalize s.sync.base.pcs t = pc at hinv hreturns
      rcases hreturns with hloop | ⟨hlast, ⟨last, rfl⟩, ⟨value', count, rfl⟩ | ⟨count, rfl⟩⟩
      · cases hloop with
        | enqueue _ _ last hlast =>
            exact hinv.result _ fun value' hsome => absurd hsome (hlast value')
        | tooLarge _ _ _ hlt =>
            obtain ⟨rfl, outcome, rfl, hright⟩ := hinv
            exact ⟨hright, Or.inl hlt⟩
        | notified _ =>
            obtain ⟨rfl, hright⟩ := hinv
            exact Or.inl hright
        | dequeued _ _ _ _ _ => exact hinv.elim
        | dequeue _ _ _ => exact hinv.elim
      · exact hinv.result _ fun _ _ => Or.inr (hfollows.givesUp hlast)
      · exact hinv.elim
  · intro s' event hcancel
    obtain ⟨event', hmoved, -, -, -⟩ := TimedState.lift_cases hcancel
    rcases syncStep_cancel hmoved with ⟨value', hwait⟩ | hwait
    · rw [hwait] at hinv
      exact hinv.2
    · rw [hwait] at hinv
      exact hinv.elim

end EnqueueResults

/-- A call with a deadline finds no room before it and none after it. -/
theorem enqueue_calls_right_timed_out :
    ∃ (start m m' s : TimedState Bool Nat (VecBuffer Nat) Nat (List Nat))
        (before during : _) (shown : _),
      SyncInitial start.sync ∧ Runs.Run timedStep TimedOk start before m ∧
      timedStep m (true, .enqueueTimeout [8] 5) = some (m', shown) ∧
      Runs.Run timedStep TimedOk m' during s ∧
      EnqueueResult true (timedTrace before) m.sync.base [8] (timedTrace during) 1
        (m.clock + 5 < s.clock) (some (.enqueueError (.insufficientCapacity [8]))) := by
  have hinitial := syncInitial_withCapacity (T := Bool) (K := Nat) (B := VecBuffer Nat)
    (show (Queue.withCapacity 1).isSome = true by decide +kernel)
  have hbefore := Runs.run_of_isSome timedStep TimedOk
    (TimedState.ofQueue 100 ((Queue.withCapacity 1).get (by decide +kernel)) :
      TimedState Bool Nat (VecBuffer Nat) Nat (List Nat))
    (List.flatten [[(false, .tryEnqueue [7])], List.replicate 9 (false, .call (.run false))])
    (by decide +kernel) (by decide +kernel)
  obtain ⟨before, m, hbefore, hfits, m', shown, hcall, during, s, hduring, hgoes, hreturn⟩ :
      ∃ before m, Runs.Run timedStep TimedOk _ before m ∧
        m.clock + 5 ≤ m.lastInstant ∧
        ∃ m' shown, timedStep m (true, .enqueueTimeout [8] 5) = some (m', shown) ∧
        ∃ during s, Runs.Run timedStep TimedOk m' during s ∧
          (∀ entry ∈ during, entry.1.1 = true → entry.1.2.goesOn = true) ∧
          (timedStep s (true, .call (.run false))).map Prod.snd =
            some (.returned (some (.enqueueError (.insufficientCapacity [8])))) :=
    ⟨_, _, hbefore, by decide +kernel, _, _, (Option.some_get (by decide +kernel)).symm, _, _,
      Runs.run_of_isSome timedStep TimedOk _
        (List.flatten [List.replicate 266 (true, .call (.run false)),
          [(false, .tick 9), (true, .waitUntil)],
          List.replicate 2 (true, .call (.run false))])
        (by decide +kernel) (by decide +kernel), by decide +kernel, by decide +kernel⟩
  obtain ⟨⟨s', event⟩, hreturn, rfl⟩ := Option.map_eq_some_iff.mp hreturn
  have hok : TimedOk m (true, .enqueueTimeout [8] 5) := show [8].length < 2 ^ 63 by decide
  exact ⟨_, m, m', s, before, during, shown, hinitial, hbefore, hcall, hduring,
    ((enqueue_calls_right hinitial hbefore rfl hok hcall hduring hgoes).2
      (Nat.not_lt.mpr hfits)).1 _ _ _ hreturn⟩

section DequeueResults

variable [DecidableEq T] [DecidableEq K] [Buffer B α σ] [LawfulBuffer B]
  {start m m' s : TimedState T K B α σ} {t : T} {call : TimedAction K α}
  {shown : TimedEvent α} {before during : List ((T × TimedAction K α) × TimedEvent α)}

/-- Every call that dequeues is right, whatever it waits for: `dequeue`, `dequeue_async`,
`dequeue_timeout` and `try_dequeue`.  It returns a batch that is not empty, or an error
that was right at an instant of the call; that the queue is empty or the batch unfinished
is reported only by `try_dequeue`, or by a call whose deadline has passed, so that
`dequeue_err` never meets an error it has no case for.  A call whose deadline cannot be
represented panics before it begins, and leaves everything as it was. -/
theorem dequeue_calls_right (hinitial : SyncInitial start.sync)
    (hbefore : Runs.Run timedStep TimedOk start before m) (hdequeues : call.dequeues = true)
    (hok : TimedOk m (t, call)) (hcall : timedStep m (t, call) = some (m', shown))
    (hduring : Runs.Run timedStep TimedOk m' during s)
    (hgoes : ∀ entry ∈ during, entry.1.1 = t → entry.1.2.goesOn = true) :
    (call.Overflows m.clock m.lastInstant → m' = m ∧ shown = .overflowed) ∧
    (¬ call.Overflows m.clock m.lastInstant → ∀ spurious s' result,
      timedStep s (t, .call (.run spurious)) = some (s', .returned result) →
        DequeueResult t (timedTrace before) m.sync.base (timedTrace during)
          (call.GivesUp m.clock s.clock) (s.sync.base.pcs t) result) := by
  refine ⟨timedStep_overflows hcall, fun hbegins spurious s' result hreturn => ?_⟩
  obtain ⟨hcontrol, hbase, rfl⟩ := timedStep_dequeues hdequeues hcall hbegins
  have hmade : timedTrace (before ++ [((t, call), .shown .silent)]) = timedTrace before := by
    rw [timedTrace_append, timedTrace_silent rfl, List.append_nil]
  have hsteps := dequeueCall_steps (K := K) t
    (timedTrace (before ++ [((t, call), .shown .silent)])) m'.sync.base
  obtain ⟨-, -, hinv⟩ := hsteps.run hinitial (hbefore.snoc hok hcall)
    (by rw [hcontrol]; rfl) (by rw [hcontrol]; trivial) hduring hgoes
  rw [hmade, hbase] at hinv
  have hfollows := follows_of_run hcall (Or.inr hdequeues) hbegins hduring hgoes
  obtain ⟨shown', hadvance, -, -, hevent | ⟨hcalling, hreturned, hevent⟩⟩ :=
    TimedState.run_cases hreturn
  · cases hevent
  · cases hevent
    have hreturns := TimedState.advance_returns hadvance hcalling hreturned
    generalize s.sync.controls t = control at hinv hreturns
    generalize s.sync.base.pcs t = pc at hinv hreturns
    rcases hreturns with hloop | ⟨hlast, ⟨last, rfl⟩, ⟨value', count, rfl⟩ | ⟨count, rfl⟩⟩
    · cases hloop with
      | dequeued _ i first last slice => exact ⟨i, first, last, slice, rfl, hinv⟩
      | dequeue _ last hlast =>
          exact hinv.result fun outcome hsome hretries => absurd hretries (hlast outcome hsome)
      | enqueue _ _ _ _ => exact hinv.elim
      | tooLarge _ _ _ _ => exact hinv.elim
      | notified _ => exact hinv.elim
    · exact hinv.elim
    · exact hinv.result fun _ _ _ => ⟨hlast, hfollows.givesUp hlast⟩

end DequeueResults

/-- A call with a deadline finds nothing before it and nothing after it. -/
theorem dequeue_calls_right_timed_out :
    ∃ (start m m' s : TimedState Bool Nat (VecBuffer Nat) Nat (List Nat))
        (before during : _) (shown : _),
      SyncInitial start.sync ∧ Runs.Run timedStep TimedOk start before m ∧
      timedStep m (true, .dequeueTimeout 5) = some (m', shown) ∧
      Runs.Run timedStep TimedOk m' during s ∧
      DequeueResult true (timedTrace before) m.sync.base (timedTrace during)
        (m.clock + 5 < s.clock) (s.sync.base.pcs true) (some (.dequeueError .empty)) := by
  have hinitial := syncInitial_withCapacity (T := Bool) (K := Nat) (B := VecBuffer Nat)
    (show (Queue.withCapacity 1).isSome = true by decide +kernel)
  have hbefore := Runs.run_of_isSome timedStep TimedOk
    (TimedState.ofQueue 100 ((Queue.withCapacity 1).get (by decide +kernel)) :
      TimedState Bool Nat (VecBuffer Nat) Nat (List Nat))
    [(false, .tick 3)] (by decide +kernel) (by decide +kernel)
  obtain ⟨before, m, hbefore, hok, hfits, m', shown, hcall, during, s, hduring, hgoes, hreturn⟩ :
      ∃ before m, Runs.Run timedStep TimedOk _ before m ∧
        TimedOk m (true, .dequeueTimeout 5) ∧ m.clock + 5 ≤ m.lastInstant ∧
        ∃ m' shown, timedStep m (true, .dequeueTimeout 5) = some (m', shown) ∧
        ∃ during s, Runs.Run timedStep TimedOk m' during s ∧
          (∀ entry ∈ during, entry.1.1 = true → entry.1.2.goesOn = true) ∧
          (timedStep s (true, .call (.run false))).map Prod.snd =
            some (.returned (some (.dequeueError .empty))) :=
    ⟨_, _, hbefore, by decide +kernel, by decide +kernel, _, _,
      (Option.some_get (by decide +kernel)).symm, _, _,
      Runs.run_of_isSome timedStep TimedOk _
        (List.flatten [List.replicate 524 (true, .call (.run false)),
          [(false, .tick 9), (true, .waitUntil)],
          List.replicate 7 (true, .call (.run false))])
        (by decide +kernel) (by decide +kernel), by decide +kernel, by decide +kernel⟩
  obtain ⟨⟨s', event⟩, hreturn, rfl⟩ := Option.map_eq_some_iff.mp hreturn
  exact ⟨_, m, m', s, before, during, shown, hinitial, hbefore, hcall, hduring,
    (dequeue_calls_right hinitial hbefore rfl hok hcall hduring hgoes).2
      (Nat.not_lt.mpr hfits) _ _ _ hreturn⟩

end SwapBufferQueue
