/-
The calls of a synchronized queue step by step.  A call keeps the deadline it was made
with; it returns where its loop does or at the end of its last attempt; and what each of
its steps keeps, whatever the others do, holds as long as the call goes on.
-/
import SwapBufferQueue.Deadlines
import SwapBufferQueue.BatchIdentity

namespace SwapBufferQueue

universe u v w x y

variable {T : Type x} {K : Type y} {B : Type u} {α : Type v} {σ : Type w}

section Calls

def TimedAction.value? : TimedAction K α → Option (List α)
  | .call (.enqueue value _) => some value
  | .tryEnqueue value => some value
  | .enqueueTimeout value _ => some value
  | _ => none

def TimedAction.dequeues : TimedAction K α → Bool
  | .call (.dequeue _) => true
  | .tryDequeue => true
  | .dequeueTimeout _ => true
  | _ => false

def TimedAction.goesOn : TimedAction K α → Bool
  | .call (.run _) => true
  | .call (.resume _) => true
  | .waitUntil => true
  | .unpark => true
  | .tick _ => true
  | _ => false

def TimedAction.patience (clock : Nat) : TimedAction K α → Patience
  | .tryEnqueue _ => .once
  | .tryDequeue => .once
  | .enqueueTimeout _ timeout => .before (clock + timeout)
  | .dequeueTimeout timeout => .before (clock + timeout)
  | _ => .forever

/-- A call that was made at one time gives up at another: it does not wait at all, or its
deadline has passed. -/
def TimedAction.GivesUp (called now : Nat) : TimedAction K α → Prop
  | .tryEnqueue _ => True
  | .tryDequeue => True
  | .enqueueTimeout _ timeout => called + timeout < now
  | .dequeueTimeout timeout => called + timeout < now
  | _ => False

/-- The deadline of a call cannot be represented. -/
def TimedAction.Overflows (clock lastInstant : Nat) : TimedAction K α → Prop
  | .enqueueTimeout _ timeout => lastInstant < clock + timeout
  | .dequeueTimeout timeout => lastInstant < clock + timeout
  | _ => False

/-- How long a call still waits. -/
def Patience.Follows (first : Patience) (clock : Nat) (now : Patience) : Prop :=
  now = first ∨ ∃ deadline, first = .before deadline ∧
    (now = .parked deadline ∨ now = .expired deadline ∧ deadline < clock)

theorem TimedAction.patience_ne_parked (call : TimedAction K α) (clock deadline : Nat) :
    call.patience clock ≠ .parked deadline := by
  cases call <;> exact nofun

theorem Patience.Follows.mono {first now : Patience} {clock clock' : Nat}
    (hfollows : first.Follows clock now) (hle : clock ≤ clock') : first.Follows clock' now := by
  rcases hfollows with rfl | ⟨deadline, rfl, rfl | ⟨rfl, hlt⟩⟩
  · exact Or.inl rfl
  · exact Or.inr ⟨deadline, rfl, Or.inl rfl⟩
  · exact Or.inr ⟨deadline, rfl, Or.inr ⟨rfl, by omega⟩⟩

theorem Patience.Follows.givesUp {call : TimedAction K α} {called clock : Nat} {now : Patience}
    (hfollows : (call.patience called).Follows clock now) (hlast : now.last = true) :
    call.GivesUp called clock := by
  rcases hfollows with rfl | ⟨deadline, hfirst, rfl | ⟨rfl, hlt⟩⟩
  · cases call with
    | tryEnqueue _ => trivial
    | tryDequeue => trivial
    | _ => cases hlast
  · cases hlast
  · cases call with
    | enqueueTimeout _ timeout =>
        cases hfirst
        exact hlt
    | dequeueTimeout timeout =>
        cases hfirst
        exact hlt
    | _ => cases hfirst

variable [DecidableEq T] [DecidableEq K] [Buffer B α σ] {s s' : TimedState T K B α σ}
  {t : T} {action : TimedAction K α} {event : TimedEvent α}

/-- The clock does not go back, and a step is of no concern to the patience of the others. -/
theorem timedStep_others (hstep : timedStep s (t, action) = some (s', event)) :
    s.clock ≤ s'.clock ∧ ∀ t', t' ≠ t → s'.patience t' = s.patience t' := by
  have hlift : ∀ {patience : Patience} {moved : Option (SyncState T K B α σ × SyncEvent α)},
      s.lift t patience moved = some (s', event) →
        s.clock ≤ s'.clock ∧ ∀ t', t' ≠ t → s'.patience t' = s.patience t' := by
    intro patience moved hlift
    obtain ⟨-, -, -, hclock, hpatience⟩ := TimedState.lift_cases hlift
    refine ⟨hclock.ge, fun t' ht' => ?_⟩
    rw [hpatience, Function.update_of_ne ht']
  cases action with
  | call action =>
      cases action with
      | resume cx =>
          simp only [timedStep] at hstep
          split at hstep
          · exact hlift hstep
          · cases hstep
      | run spurious =>
          obtain ⟨-, -, hclock, hpatience, -⟩ := TimedState.run_cases hstep
          exact ⟨hclock.ge, fun t' _ => by rw [hpatience]⟩
      | _ => exact hlift hstep
  | waitUntil =>
      simp only [timedStep] at hstep
      split at hstep
      · unfold TimedState.waitUntil at hstep
        split at hstep
        · cases hstep
          exact ⟨Nat.le_refl _, fun t' ht' => Function.update_of_ne ht' _ _⟩
        · exact hlift hstep
      · cases hstep
  | unpark =>
      simp only [timedStep] at hstep
      split at hstep
      · exact hlift hstep
      · cases hstep
  | tick elapsed =>
      cases hstep
      exact ⟨Nat.le_add_right _ _, fun _ _ => rfl⟩
  | enqueueTimeout _ _ =>
      rcases TimedState.callBefore_cases hstep with ⟨-, hbegins⟩ | ⟨-, rfl, -⟩
      · exact hlift hbegins
      · exact ⟨Nat.le_refl _, fun _ _ => rfl⟩
  | dequeueTimeout _ =>
      rcases TimedState.callBefore_cases hstep with ⟨-, hbegins⟩ | ⟨-, rfl, -⟩
      · exact hlift hbegins
      · exact ⟨Nat.le_refl _, fun _ _ => rfl⟩
  | _ => exact hlift hstep

theorem timedStep_patience (hstep : timedStep s (t, action) = some (s', event))
    (hcall : action.value?.isSome = true ∨ action.dequeues = true)
    (hbegins : ¬ action.Overflows s.clock s.lastInstant) :
    s'.patience t = action.patience s.clock ∧ s'.clock = s.clock := by
  have hlift : ∀ {patience : Patience} {moved : Option (SyncState T K B α σ × SyncEvent α)},
      s.lift t patience moved = some (s', event) →
        s'.patience t = patience ∧ s'.clock = s.clock := by
    intro patience moved hlift
    obtain ⟨-, -, -, hclock, hpatience⟩ := TimedState.lift_cases hlift
    refine ⟨?_, hclock⟩
    rw [hpatience, Function.update_self]
  cases action with
  | call action =>
      cases action with
      | enqueue _ _ => exact hlift hstep
      | dequeue _ => exact hlift hstep
      | _ => rcases hcall with hcall | hcall <;> cases hcall
  | tryEnqueue _ => exact hlift hstep
  | tryDequeue => exact hlift hstep
  | enqueueTimeout _ _ =>
      exact hlift (TimedState.callBefore_begins hstep hbegins)
  | dequeueTimeout _ =>
      exact hlift (TimedState.callBefore_begins hstep hbegins)
  | _ => rcases hcall with hcall | hcall <;> cases hcall

theorem Patience.Follows.step {call : TimedAction K α} {called : Nat}
    (hfollows : (call.patience called).Follows s.clock (s.patience t))
    (hstep : timedStep s (t, action) = some (s', event)) (hgoes : action.goesOn = true) :
    (call.patience called).Follows s'.clock (s'.patience t) := by
  have hmono : s.clock ≤ s'.clock →
      (call.patience called).Follows s'.clock (s.patience t) := hfollows.mono
  cases action with
  | call action =>
      cases action with
      | resume cx =>
          simp only [timedStep] at hstep
          split at hstep
          · rename_i hforever
            obtain ⟨-, -, -, hclock, hpatience⟩ := TimedState.lift_cases hstep
            rw [hpatience, Function.update_self, ← hforever]
            exact hmono hclock.ge
          · cases hstep
      | run spurious =>
          obtain ⟨-, -, hclock, hpatience, -⟩ := TimedState.run_cases hstep
          rw [hpatience]
          exact hmono hclock.ge
      | _ => cases hgoes
  | waitUntil =>
      simp only [timedStep] at hstep
      split at hstep
      · rename_i deadline control hbefore _
        have hfirst : call.patience called = .before deadline := by
          rw [hbefore] at hfollows
          rcases hfollows with hsame | ⟨_, -, hsame | ⟨hsame, -⟩⟩
          · exact hsame.symm
          · cases hsame
          · cases hsame
        unfold TimedState.waitUntil at hstep
        split at hstep
        · cases hstep
          refine Or.inr ⟨deadline, hfirst, Or.inl ?_⟩
          exact Function.update_self ..
        · rename_i hlate
          obtain ⟨-, -, -, hclock, hpatience⟩ := TimedState.lift_cases hstep
          refine Or.inr ⟨deadline, hfirst, Or.inr ⟨?_, by omega⟩⟩
          rw [hpatience, Function.update_self]
      · cases hstep
  | unpark =>
      simp only [timedStep] at hstep
      split at hstep
      · rename_i deadline hparked
        obtain ⟨-, -, -, hclock, hpatience⟩ := TimedState.lift_cases hstep
        rw [hparked] at hfollows
        rw [hpatience, Function.update_self]
        refine Or.inl ?_
        rcases hfollows with hsame | ⟨_, hfirst, hsame | ⟨hsame, -⟩⟩
        · exact absurd hsame.symm (call.patience_ne_parked called deadline)
        · cases hsame
          exact hfirst.symm
        · cases hsame
      · cases hstep
  | tick elapsed =>
      cases hstep
      exact hmono (Nat.le_add_right _ _)
  | _ => cases hgoes

end Calls

section Returns

/-- Where a loop of the untimed system returns. -/
inductive LoopReturns (capacity : Nat) : SyncControl T K α → Pc α σ → Prop
  | enqueue (value : List α) (count : Nat) (last : Option (Outcome α))
      (hlast : ∀ value', last ≠ some (.enqueueError (.insufficientCapacity value'))) :
      LoopReturns capacity (.enqueueTrying value count) (.idle last)
  | tooLarge (value : List α) (count : Nat) (pc : Pc α σ) (hlt : capacity < value.length) :
      LoopReturns capacity (.enqueueCapacity value count) pc
  | notified (pc : Pc α σ) : LoopReturns capacity (.enqueueNotify .returned) pc
  | dequeued (count : Nat) (i : Fin 2) (start stop : Nat) (slice : σ) :
      LoopReturns capacity (.dequeueTrying count) (.slice i start stop slice)
  | dequeue (count : Nat) (last : Option (Outcome α))
      (hlast : ∀ outcome, last = some outcome → ¬ Retries outcome) :
      LoopReturns capacity (.dequeueTrying count) (.idle last)

theorem calling_retrySync (count : Nat) {attempt : Nat → SyncControl T K α}
    {register wait : SyncControl T K α} (hattempt : ∀ count, (attempt count).calling = true)
    (hregister : register.calling = true) (hwait : wait.calling = true) :
    (retrySync count attempt register wait).calling = true := by
  unfold retrySync
  split
  · exact hattempt _
  · split
    · exact hregister
    · exact hwait

variable [DecidableEq T] [DecidableEq K] [Buffer B α σ] {t : T} {spurious : Bool}

section Untimed

variable {s s' : SyncState T K B α σ} {event : SyncEvent α}

omit [DecidableEq K] [Buffer B α σ] in
theorem SyncState.controls_move {control' : SyncControl T K α}
    (hstep : s.move t control' = some (s', event)) : s'.controls t = control' := by
  cases hstep
  exact Function.update_self ..

omit [DecidableEq K] in
theorem SyncState.controls_call {action : Action α} {control' : SyncControl T K α}
    (hstep : s.call t action control' = some (s', event)) : s'.controls t = control' := by
  unfold SyncState.call at hstep
  split at hstep
  · cases hstep
  · cases hstep
    exact Function.update_self ..

omit [Buffer B α σ] in
theorem SyncState.calling_atomicStep {call : AtomicCall T K}
    {place : AtomicCall T K → SyncControl T K α}
    (hstep : s.atomicStep t call place = some (s', event))
    (hplace : ∀ call, (place call).calling = true) : (s'.controls t).calling = true := by
  unfold SyncState.atomicStep at hstep
  split at hstep
  · cases hstep
  · rename_i dequeuer call' woken _
    cases hstep
    rw [SyncState.controls_signal]
    change (Function.update s.controls t (place call') t).calling = true
    rw [Function.update_self]
    exact hplace call'

omit [Buffer B α σ] in
theorem SyncState.calling_listStep {call : ListCall T K}
    {place : ListCall T K → SyncControl T K α}
    (hstep : s.listStep t call place = some (s', event))
    (hplace : ∀ call, (place call).calling = true) : (s'.controls t).calling = true := by
  unfold SyncState.listStep at hstep
  split at hstep
  · cases hstep
  · rename_i enqueuers call' woken _
    cases hstep
    rw [SyncState.controls_signal]
    change (Function.update s.controls t (place call') t).calling = true
    rw [Function.update_self]
    exact hplace call'

theorem SyncState.run_returns (hstep : s.run t spurious = some (s', event))
    (hcalling : (s.controls t).calling = true) (hreturned : (s'.controls t).calling = false) :
    LoopReturns s.base.queue.capacity (s.controls t) (s.base.pcs t) := by
  have hnever : ∀ {P : Prop}, (s'.controls t).calling = true → P := by
    intro P h
    rw [hreturned] at h
    cases h
  unfold SyncState.run at hstep
  split at hstep
  · rename_i hcontrol
    rw [hcontrol] at hcalling
    cases hcalling
  · exact hnever (congrArg _ (SyncState.controls_call hstep))
  · rename_i value count hcontrol
    rw [hcontrol]
    split at hstep
    · exact hnever (congrArg _ (SyncState.controls_call hstep))
    · exact hnever (congrArg _ (SyncState.controls_move hstep))
    · rename_i last hlast hpc
      rw [hpc]
      exact .enqueue value count last fun value' h => hlast value' h
    · exact hnever (congrArg _ (SyncState.controls_call hstep))
  · rename_i value count hcontrol
    rw [hcontrol]
    split at hstep
    · refine hnever ((congrArg _ (SyncState.controls_move hstep)).trans ?_)
      exact calling_retrySync count (fun _ => rfl) rfl rfl
    · rename_i hlarge
      exact .tooLarge value count _ (Nat.lt_of_not_le hlarge)
  · exact hnever (congrArg _ (SyncState.controls_move hstep))
  · exact hnever (SyncState.calling_listStep hstep fun _ => rfl)
  · cases hstep
  · rename_i hcontrol
    rw [hcontrol]
    exact .notified _
  · exact hnever (SyncState.calling_atomicStep hstep fun _ => rfl)
  · exact hnever (congrArg _ (SyncState.controls_call hstep))
  · rename_i count hcontrol
    rw [hcontrol]
    have hretry : ∀ {control' : SyncControl T K α}, control' =
        retrySync count .dequeueAttempt (.dequeueRegister (.registerStart (s.polls t)))
          .dequeueWait → s.move t control' = some (s', event) →
        (s'.controls t).calling = true := by
      rintro control' rfl hmove
      exact (congrArg _ (SyncState.controls_move hmove)).trans
        (calling_retrySync count (fun _ => rfl) rfl rfl)
    split at hstep
    · exact hnever (congrArg _ (SyncState.controls_move hstep))
    · rename_i i start stop slice hpc
      rw [hpc]
      exact .dequeued count i start stop slice
    · exact hnever (hretry rfl hstep)
    · exact hnever (hretry rfl hstep)
    · rename_i last hempty hpending hpc
      rw [hpc]
      refine .dequeue count last fun outcome hsome hretries => ?_
      cases hretries with
      | empty => exact hempty hsome
      | pending => exact hpending hsome
    · exact hnever (congrArg _ (SyncState.controls_call hstep))
  · exact hnever (congrArg _ (SyncState.controls_call hstep))
  · exact hnever (SyncState.calling_listStep hstep fun _ => rfl)
  · exact hnever (congrArg _ (SyncState.controls_move hstep))
  · exact hnever (SyncState.calling_atomicStep hstep fun _ => rfl)
  · cases hstep
  · rename_i hcontrol
    rw [hcontrol] at hcalling
    cases hcalling
  · rename_i hcontrol
    rw [hcontrol] at hcalling
    cases hcalling
  · rename_i hcontrol
    rw [hcontrol] at hcalling
    cases hcalling
  · rename_i hcontrol
    rw [hcontrol] at hcalling
    cases hcalling

end Untimed

/-- The steps at which a call returns: where its loop does, or at the end of its last
attempt. -/
theorem TimedState.advance_returns {s : TimedState T K B α σ} {sync : SyncState T K B α σ}
    {shown : SyncEvent α} (hstep : s.advance t spurious = some (sync, shown))
    (hcalling : (s.sync.controls t).calling = true)
    (hreturned : (sync.controls t).calling = false) :
    LoopReturns s.sync.base.queue.capacity (s.sync.controls t) (s.sync.base.pcs t) ∨
      (s.patience t).last = true ∧ (∃ last, s.sync.base.pcs t = .idle last) ∧
        ((∃ value count, s.sync.controls t = .enqueueTrying value count) ∨
          ∃ count, s.sync.controls t = .dequeueTrying count) := by
  unfold TimedState.advance at hstep
  split at hstep
  · rename_i value count last hlast hcontrol hpc
    exact Or.inr ⟨hlast, ⟨last, hpc⟩, Or.inl ⟨value, count, hcontrol⟩⟩
  · rename_i count last hlast hcontrol hpc
    exact Or.inr ⟨hlast, ⟨last, hpc⟩, Or.inr ⟨count, hcontrol⟩⟩
  · exact Or.inl (SyncState.run_returns hstep hcalling hreturned)

end Returns

section Steps

variable [DecidableEq T] [Buffer B α σ] [LawfulBuffer B]

/-- What the steps of a call keep and those of the others do not break.  `during` are the
steps of the queue since the call was made. -/
structure CallSteps (t : T) (before : List ((T × Action α) × Event α)) (s : State T B α σ)
    (P : List ((T × Action α) × Event α) → SyncControl T K α → Pc α σ → Prop) : Prop where
  outside (during : _) (pc : Pc α σ) : P during .outside pc
  others {during : _} {entry : (T × Action α) × Event α} {control : SyncControl T K α}
    {pc : Pc α σ} : entry.1.1 ≠ t → P during control pc → P (during ++ [entry]) control pc
  called {during : _} {state : State T B α σ} {control control' : SyncControl T K α}
    {action : Action α} {q' : Queue B} {pc' : Pc α σ} {event : Event α} :
    Runs.Run SwapBufferQueue.step SizeOk s during state →
      Sim state (Ledger.ofTrace (before ++ during)) →
        (Ledger.ofTrace (before ++ during)).view = View.ofTrace (before ++ during) →
          SyncCalls control (state.pcs t) action control' → control.calling = true →
            Transition state.queue (state.pcs t) action q' pc' event →
              ThreadInv q' ((Ledger.ofTrace (before ++ during)).next t event) t pc' →
                P during control (state.pcs t) → P (during ++ [((t, action), event)]) control' pc'
  moved {during : _} {control control' : SyncControl T K α} {pc : Pc α σ} {cx : Option K}
    {capacity : Nat} : SyncMoves cx capacity control pc control' → control.calling = true →
      P during control pc → P during control' pc
  atomic {during : _} {place : AtomicCall T K → SyncControl T K α} {call call' : AtomicCall T K}
    {pc : Pc α σ} : AtomicPlace place → P during (place call) pc → P during (place call') pc
  listed {during : _} {place : ListCall T K → SyncControl T K α} {call call' : ListCall T K}
    {pc : Pc α σ} : ListPlace place → P during (place call) pc → P during (place call') pc
  again {during : _} {control control' : SyncControl T K α} {pc : Pc α σ} :
    control.again = some control' → P during control pc → P during control' pc

section Shown

variable {label : T × TimedAction K α} {event : TimedEvent α}

omit [DecidableEq T] [Buffer B α σ] [LawfulBuffer B] in
theorem timedTrace_none (hshown : event.sync? = none) : timedTrace [(label, event)] = [] := by
  rw [timedTrace, untimedTrace_singleton, hshown]
  rfl

omit [DecidableEq T] [Buffer B α σ] [LawfulBuffer B] in
theorem timedTrace_silent (hshown : event.sync? = some .silent) :
    timedTrace [(label, event)] = [] := by
  rw [timedTrace, untimedTrace_singleton, hshown]
  rfl

omit [DecidableEq T] [Buffer B α σ] [LawfulBuffer B] in
theorem timedTrace_called {action : Action α} {shown : Event α}
    (hshown : event.sync? = some (.called action shown)) :
    timedTrace [(label, event)] = [((label.1, action), shown)] := by
  rw [timedTrace, untimedTrace_singleton, hshown]
  rfl

end Shown

omit [DecidableEq T] [Buffer B α σ] [LawfulBuffer B] in
theorem SyncMoves.calling {cx : Option K} {capacity : Nat} {control control' : SyncControl T K α}
    {pc : Pc α σ} (hmove : SyncMoves cx capacity control pc control')
    (hcalling : control.calling = true) : control' = .outside ∨ control'.calling = true := by
  cases hmove with
  | closeEnqueuers _ => cases hcalling
  | closed _ => cases hcalling
  | enqueueReturns _ _ _ => exact Or.inl rfl
  | tooLarge _ _ _ => exact Or.inl rfl
  | enqueueNotified _ => exact Or.inl rfl
  | dequeued _ _ _ _ _ => exact Or.inl rfl
  | dequeueFails _ _ => exact Or.inl rfl
  | cancelEnqueue _ _ => exact Or.inl rfl
  | cancelDequeue _ => exact Or.inl rfl
  | _ => exact Or.inr rfl

variable [DecidableEq K] {t : T}

omit [LawfulBuffer B] in
/-- A thread stays outside of the calls until it makes one. -/
theorem timedStep_outside {s s' : TimedState T K B α σ} {action : TimedAction K α}
    {event : TimedEvent α} (hstep : timedStep s (t, action) = some (s', event))
    (hgoes : action.goesOn = true) (hcontrol : s.sync.controls t = .outside) :
    s'.sync.controls t = .outside := by
  cases action with
  | call action =>
      cases action with
      | resume cx =>
          simp only [timedStep, syncStep, hcontrol] at hstep
          split at hstep <;> cases hstep
      | run spurious =>
          obtain ⟨shown, hadvance, -, -, -⟩ := TimedState.run_cases hstep
          unfold TimedState.advance at hadvance
          split at hadvance
          · exact SyncState.controls_move hadvance
          · exact SyncState.controls_move hadvance
          · rw [SyncState.run, hcontrol] at hadvance
            exact SyncState.controls_call hadvance
      | _ => cases hgoes
  | waitUntil =>
      simp only [timedStep, hcontrol, SyncControl.again] at hstep
      split at hstep
      · rename_i hagain
        cases hagain
      · cases hstep
  | unpark =>
      simp only [timedStep, syncStep, hcontrol] at hstep
      split at hstep <;> cases hstep
  | tick elapsed =>
      cases hstep
      exact hcontrol
  | _ => cases hgoes

variable {start m s : TimedState T K B α σ}
  {before during : List ((T × TimedAction K α) × TimedEvent α)}
  {P : List ((T × Action α) × Event α) → SyncControl T K α → Pc α σ → Prop}

omit [LawfulBuffer B] in
theorem SyncMove.frame {s s' : SyncState T K B α σ} {shown : SyncEvent α}
    (hmove : SyncMove s t s' shown) : ∃ control', SyncFrame s s' t control' := by
  cases hmove with
  | called _ hbase => exact ⟨_, SyncFrame.of_step hbase _⟩
  | moved _ => exact ⟨_, SyncFrame.of_control s t _⟩
  | atomic _ _ _ => exact ⟨_, SyncFrame.of_dequeuer s t _ _ _⟩
  | listed _ _ _ => exact ⟨_, SyncFrame.of_enqueuers s t _ _ _⟩
  | polled cx _ => exact ⟨_, SyncFrame.of_poll s t cx _⟩
  | unparked _ => exact ⟨_, SyncFrame.of_unpark s t _⟩

omit [LawfulBuffer B] in
/-- A step of the system is a step of the queue, or none. -/
theorem SyncMove.run {s s' : SyncState T K B α σ} {shown : SyncEvent α}
    (hmove : SyncMove s t s' shown) {event : TimedEvent α} {label : TimedAction K α}
    (hshown : event.sync? = some shown)
    (hthread : SyncThread (s.polls t) (s.controls t) (s.base.pcs t)) {s₀ : State T B α σ}
    {during : List ((T × Action α) × Event α)}
    (hduring : Runs.Run SwapBufferQueue.step SizeOk s₀ during s.base) :
    Runs.Run SwapBufferQueue.step SizeOk s₀
      (during ++ timedTrace [((t, label), event)]) s'.base := by
  cases hmove with
  | called hcall hbase =>
      rw [timedTrace_called hshown]
      exact hduring.snoc (hcall.unresizedOk hthread).delivery.size hbase
  | atomic _ _ _ =>
      rw [timedTrace_silent hshown, List.append_nil, SyncState.base_signal]
      exact hduring
  | listed _ _ _ =>
      rw [timedTrace_silent hshown, List.append_nil, SyncState.base_signal]
      exact hduring
  | _ =>
      rw [timedTrace_silent hshown, List.append_nil]
      exact hduring

theorem CallSteps.step {before : List ((T × Action α) × Event α)} {s₀ : State T B α σ}
    (hsteps : CallSteps t before s₀ P) {during : List ((T × Action α) × Event α)}
    {s s' : SyncState T K B α σ} {shown : SyncEvent α} {event : TimedEvent α}
    {label : TimedAction K α} (hmove : SyncMove s t s' shown)
    (hshown : event.sync? = some shown) (hcalling : (s.controls t).calling = true)
    (hduring : Runs.Run SwapBufferQueue.step SizeOk s₀ during s.base)
    (hthread : SyncThread (s.polls t) (s.controls t) (s.base.pcs t))
    (hsim : Sim s.base (Ledger.ofTrace (before ++ during)))
    (hview : (Ledger.ofTrace (before ++ during)).view = View.ofTrace (before ++ during))
    (hinv : P during (s.controls t) (s.base.pcs t)) :
    (s'.controls t = .outside ∨ (s'.controls t).calling = true) ∧
      P (during ++ timedTrace [((t, label), event)]) (s'.controls t) (s'.base.pcs t) := by
  have hbegun : ∀ {control' : SyncControl T K α}, SyncBegins s t control' →
      control'.calling = true ∧ P during control' (s.base.pcs t) := by
    intro control' hbegins
    cases hbegins with
    | enqueue _ _ hcontrol _ _ =>
        rw [hcontrol] at hcalling
        cases hcalling
    | dequeue _ hcontrol _ _ =>
        rw [hcontrol] at hcalling
        cases hcalling
    | resumeEnqueue value hcontrol =>
        rw [hcontrol] at hinv
        exact ⟨rfl, hsteps.again rfl hinv⟩
    | resumeDequeue hcontrol =>
        rw [hcontrol] at hinv
        exact ⟨rfl, hsteps.again rfl hinv⟩
  cases hmove with
  | called hcall hbase =>
      have hok : UnresizedOk s.base (t, _) := hcall.unresizedOk hthread
      have hsize := hok.delivery.size
      have hafter := hsim.step hsize hbase
      obtain ⟨q', pc', htransition, rfl⟩ := step_cases hbase
      have hcalled := hsteps.called hduring hsim hview hcall hcalling htransition hafter.self hinv
      rw [timedTrace_called hshown]
      simp only [SyncState.setControl, Function.update_self]
      exact ⟨Or.inr (hcall.calling hcalling), hcalled⟩
  | moved hmoves =>
      rw [timedTrace_silent hshown, List.append_nil]
      simp only [SyncState.setControl, Function.update_self]
      exact ⟨hmoves.calling hcalling, hsteps.moved hmoves hcalling hinv⟩
  | atomic hplace hcontrol hatomic =>
      rw [timedTrace_silent hshown, List.append_nil]
      rw [hcontrol] at hinv hcalling
      simp only [SyncState.controls_signal, SyncState.base_signal, SyncState.setControl,
        Function.update_self]
      refine ⟨Or.inr ?_, hsteps.atomic hplace hinv⟩
      cases hplace <;> first | rfl | cases hcalling
  | listed hplace hcontrol hlist =>
      rw [timedTrace_silent hshown, List.append_nil]
      rw [hcontrol] at hinv hcalling
      simp only [SyncState.controls_signal, SyncState.base_signal, SyncState.setControl,
        Function.update_self]
      refine ⟨Or.inr ?_, hsteps.listed hplace hinv⟩
      cases hplace <;> first | rfl | cases hcalling
  | polled cx hbegins =>
      rw [timedTrace_silent hshown, List.append_nil]
      simp only [Function.update_self]
      exact ⟨Or.inr (hbegun hbegins).1, (hbegun hbegins).2⟩
  | unparked hbegins =>
      rw [timedTrace_silent hshown, List.append_nil]
      simp only [Function.update_self]
      exact ⟨Or.inr (hbegun hbegins).1, (hbegun hbegins).2⟩

/-- What the steps of a call keep holds as long as the call goes on, and the steps of the
queue since the call was made are a run. -/
theorem CallSteps.run (hinitial : SyncInitial start.sync)
    (hbefore : Runs.Run timedStep TimedOk start before m)
    (hsteps : CallSteps t (timedTrace before) m.sync.base P)
    (hcalling : (m.sync.controls t).calling = true)
    (hcalled : P [] (m.sync.controls t) (m.sync.base.pcs t))
    (hduring : Runs.Run timedStep TimedOk m during s)
    (hcall : ∀ entry ∈ during, entry.1.1 = t → entry.1.2.goesOn = true) :
    Runs.Run SwapBufferQueue.step SizeOk m.sync.base (timedTrace during) s.sync.base ∧
      (s.sync.controls t = .outside ∨ (s.sync.controls t).calling = true) ∧
      P (timedTrace during) (s.sync.controls t) (s.sync.base.pcs t) := by
  refine (hduring.restrict
    (P := fun label : T × TimedAction K α => label.1 = t → label.2.goesOn = true)
    hcall).invariant (fun during (s : TimedState T K B α σ) =>
      Runs.Run SwapBufferQueue.step SizeOk m.sync.base (timedTrace during) s.sync.base ∧
      (s.sync.controls t = .outside ∨ (s.sync.controls t).calling = true) ∧
      P (timedTrace during) (s.sync.controls t) (s.sync.base.pcs t))
    ⟨Runs.Run.nil, Or.inr hcalling, hcalled⟩ ?_
  rintro during s s' ⟨t', action⟩ event hsofar ⟨hrun, hplace, hinv⟩ ⟨hok, hgoes⟩ hstep
  have hwake := wakeInv_of_timedRun hinitial (hbefore.append (hsofar.mono fun _ _ h => h.1))
  rw [timedTrace_append]
  rcases timedStep_cases hstep hok with ⟨hnone, hsync⟩ | ⟨shown, hshown, hmove⟩
  · rw [timedTrace_none hnone, List.append_nil, hsync]
    exact ⟨hrun, hplace, hinv⟩
  · refine ⟨hmove.run hshown (hwake.inv.thread t') hrun, ?_⟩
    by_cases ht' : t' = t
    · subst ht'
      rcases hplace with hcontrol | hcalling
      · rw [timedStep_outside hstep (hgoes rfl) hcontrol]
        exact ⟨Or.inl rfl, hsteps.outside _ _⟩
      · have hfirst := (wakeInv_of_timedRun hinitial hbefore).inv.run.mono
          fun _ _ h => h.delivery.size
        refine hsteps.step hmove hshown hcalling hrun (hwake.inv.thread t')
          (sim_of_run hinitial.base (fun _ _ h => h) (hfirst.append hrun))
          (view_of_run hinitial.base (hfirst.append hrun)) hinv
    · obtain ⟨control', hframe⟩ := hmove.frame
      rw [hframe.control_other (Ne.symm ht'), hframe.pcs (Ne.symm ht')]
      refine ⟨hplace, ?_⟩
      cases shown with
      | called _ _ =>
          rw [timedTrace_called hshown]
          exact hsteps.others ht' hinv
      | silent =>
          rw [timedTrace_silent hshown, List.append_nil]
          exact hinv

end Steps

section Made

variable [DecidableEq T] [DecidableEq K] [Buffer B α σ] {t : T}

theorem syncStep_enqueue {s s' : SyncState T K B α σ} {event : SyncEvent α} {value : List α}
    {cx : Option K} (hstep : syncStep s (t, .enqueue value cx) = some (s', event)) :
    s'.controls t = .enqueueAttempt value 0 ∧ s'.base = s.base ∧ event = .silent := by
  simp only [syncStep] at hstep
  split at hstep
  · cases hstep
    exact ⟨Function.update_self .., rfl, rfl⟩
  · cases hstep

theorem syncStep_dequeue {s s' : SyncState T K B α σ} {event : SyncEvent α} {cx : Option K}
    (hstep : syncStep s (t, .dequeue cx) = some (s', event)) :
    s'.controls t = .dequeueAttempt 0 ∧ s'.base = s.base ∧ event = .silent := by
  simp only [syncStep] at hstep
  split at hstep
  · cases hstep
    exact ⟨Function.update_self .., rfl, rfl⟩
  · cases hstep

theorem syncStep_cancel {s s' : SyncState T K B α σ} {event : SyncEvent α}
    (hstep : syncStep s (t, .cancel) = some (s', event)) :
    (∃ value, s.controls t = .enqueueWait value) ∨ s.controls t = .dequeueWait := by
  simp only [syncStep] at hstep
  split at hstep
  · rename_i value _ hcontrol _
    exact Or.inl ⟨value, hcontrol⟩
  · rename_i hcontrol _
    exact Or.inr hcontrol
  · cases hstep

variable {start m m' s : TimedState T K B α σ} {call : TimedAction K α} {shown : TimedEvent α}
  {before during : List ((T × TimedAction K α) × TimedEvent α)}

/-- A call whose deadline cannot be represented panics, and leaves everything as it was. -/
theorem timedStep_overflows (hcall : timedStep m (t, call) = some (m', shown))
    (hoverflows : call.Overflows m.clock m.lastInstant) : m' = m ∧ shown = .overflowed := by
  cases call with
  | enqueueTimeout _ _ => exact TimedState.callBefore_overflows hcall hoverflows
  | dequeueTimeout _ => exact TimedState.callBefore_overflows hcall hoverflows
  | _ => exact hoverflows.elim

theorem timedStep_enqueues {value : List α} (hvalue : call.value? = some value)
    (hcall : timedStep m (t, call) = some (m', shown))
    (hbegins : ¬ call.Overflows m.clock m.lastInstant) :
    m'.sync.controls t = .enqueueAttempt value 0 ∧ m'.sync.base = m.sync.base ∧
      shown = .shown .silent := by
  have hlift : ∀ {patience : Patience} {cx : Option K},
      m.lift t patience (syncStep m.sync (t, .enqueue value cx)) = some (m', shown) →
        m'.sync.controls t = .enqueueAttempt value 0 ∧ m'.sync.base = m.sync.base ∧
          shown = .shown .silent := by
    intro patience cx hlift
    obtain ⟨event, hmoved, rfl, -, -⟩ := TimedState.lift_cases hlift
    obtain ⟨hcontrol, hbase, rfl⟩ := syncStep_enqueue hmoved
    exact ⟨hcontrol, hbase, rfl⟩
  cases call with
  | call action =>
      cases action with
      | enqueue _ _ =>
          cases hvalue
          exact hlift hcall
      | _ => cases hvalue
  | tryEnqueue _ =>
      cases hvalue
      exact hlift hcall
  | enqueueTimeout _ _ =>
      cases hvalue
      exact hlift (TimedState.callBefore_begins hcall hbegins)
  | _ => cases hvalue

theorem timedStep_dequeues (hdequeues : call.dequeues = true)
    (hcall : timedStep m (t, call) = some (m', shown))
    (hbegins : ¬ call.Overflows m.clock m.lastInstant) :
    m'.sync.controls t = .dequeueAttempt 0 ∧ m'.sync.base = m.sync.base ∧
      shown = .shown .silent := by
  have hlift : ∀ {patience : Patience} {cx : Option K},
      m.lift t patience (syncStep m.sync (t, .dequeue cx)) = some (m', shown) →
        m'.sync.controls t = .dequeueAttempt 0 ∧ m'.sync.base = m.sync.base ∧
          shown = .shown .silent := by
    intro patience cx hlift
    obtain ⟨event, hmoved, rfl, -, -⟩ := TimedState.lift_cases hlift
    obtain ⟨hcontrol, hbase, rfl⟩ := syncStep_dequeue hmoved
    exact ⟨hcontrol, hbase, rfl⟩
  cases call with
  | call action =>
      cases action with
      | dequeue _ => exact hlift hcall
      | _ => cases hdequeues
  | tryDequeue => exact hlift hcall
  | dequeueTimeout _ =>
      exact hlift (TimedState.callBefore_begins hcall hbegins)
  | _ => cases hdequeues

/-- A call keeps its deadline as long as it goes on. -/
theorem follows_of_run (hcall : timedStep m (t, call) = some (m', shown))
    (hcalls : call.value?.isSome = true ∨ call.dequeues = true)
    (hbegins : ¬ call.Overflows m.clock m.lastInstant)
    (hduring : Runs.Run timedStep TimedOk m' during s)
    (hgoes : ∀ entry ∈ during, entry.1.1 = t → entry.1.2.goesOn = true) :
    (call.patience m.clock).Follows s.clock (s.patience t) := by
  refine (hduring.restrict
    (P := fun label : T × TimedAction K α => label.1 = t → label.2.goesOn = true)
    hgoes).invariant (fun _ (s : TimedState T K B α σ) =>
      (call.patience m.clock).Follows s.clock (s.patience t)) ?_ ?_
  · exact Or.inl (timedStep_patience hcall hcalls hbegins).1
  · rintro _ s s' ⟨t', action⟩ event _ hfollows ⟨-, hlabel⟩ hstep
    by_cases ht' : t' = t
    · subst ht'
      exact hfollows.step hstep (hlabel rfl)
    · obtain ⟨hclock, hpatience⟩ := timedStep_others hstep
      rw [hpatience t (Ne.symm ht')]
      exact hfollows.mono hclock

end Made

end SwapBufferQueue
