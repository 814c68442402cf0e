/-
Insertion while resizing.  The loop of `try_dequeue_and_resize` compares each value with
the capacity of the buffer, not with what is left of it; the writes stay inside the
buffer exactly when the values it takes fit together.
-/
import SwapBufferQueue.Alone
import SwapBufferQueue.BatchIdentity

namespace SwapBufferQueue

universe u v w x

variable {T : Type x} {B : Type u} {α : Type v} {σ : Type w}

/-- The elements the insertion loop takes from what the closure yields: it stops at the
first value that alone is larger than the buffer. -/
def takenElements (capacity : Nat) (values : List (List α)) : List α :=
  (values.takeWhile fun value => decide (value.length ≤ capacity)).flatten

theorem takenElements_cons {capacity : Nat} {value : List α}
    (hle : value.length ≤ capacity) (rest : List (List α)) :
    takenElements capacity (value :: rest) = value ++ takenElements capacity rest := by
  rw [takenElements, List.takeWhile_cons_of_pos (by simpa using hle), List.flatten_cons,
    takenElements]

theorem takenElements_cons_of_lt {capacity : Nat} {value : List α}
    (hlt : capacity < value.length) (rest : List (List α)) :
    takenElements capacity (value :: rest) = [] := by
  rw [takenElements, List.takeWhile_cons_of_neg (by simpa using hlt), List.flatten_nil]

/-- The activity only goes on with its call; the others do what they like. -/
def Continues (t : T) (s : State T B α σ) (label : T × Action α) : Prop :=
  SizeOk s label ∧ (label.1 = t → ∃ spurious, label.2 = .run spurious)

theorem continues_of_run {t : T} (state : State T B α σ) (spurious : Bool) :
    Continues t state (t, .run spurious) :=
  ⟨sizeOk_of_value_eq_none rfl, fun _ => ⟨spurious, rfl⟩⟩

theorem Alone.continues {t : T} {s : State T B α σ} {label : T × Action α}
    (halone : Alone t s label) : Continues t s label :=
  ⟨halone.sizeOk, fun _ => halone.2⟩

variable [Buffer B α σ]

/-- The capacity of the dequeuing buffer once a call has resized it. -/
def Queue.capacityAfter (q : Queue B) (dequeuing : DequeuingLength)
    (args : ResizeArgs α) : Nat :=
  args.capacity.getD (Buffer.capacity (q.buffers dequeuing.bufferIndex))

/-- The insertion of a call stays inside the buffer.  Each value about to be written
goes right behind the ones written before, within the given capacity; what is inserted
is never more than the capacity of the buffer; and the call does not panic and ends,
wherever it is let run alone. -/
structure InsertsWithin [DecidableEq T] (before : List ((T × Action α) × Event α))
    (s : State T B α σ) (t : T) (capacity : Nat) : Prop where
  inside (during : List ((T × Action α) × Event α)) (s' : State T B α σ)
    (dequeuing : DequeuingLength) (resized : Bool) (value : List α)
    (rest : List (List α)) (length : Nat) :
    Runs.Run SwapBufferQueue.step (Continues t) s during s' →
      s'.pcs t = .dequeueInsert dequeuing resized (value :: rest) length → value ≠ [] →
        value.length ≤ Buffer.capacity (s'.queue.buffers dequeuing.bufferIndex) →
          Buffer.capacity (s'.queue.buffers dequeuing.bufferIndex) = capacity ∧
          length = (View.ofTrace (before ++ during)).staged.length ∧
          length + value.length ≤ capacity
  inserted (during : List ((T × Action α) × Event α)) (s' : State T B α σ)
    (attempt : Attempt) :
    Runs.Run SwapBufferQueue.step (Continues t) s during s' →
      s'.pcs t = .dequeuePublish attempt ∨ s'.pcs t = .dequeueLoad attempt →
        attempt.insertedLength ≤ attempt.nextCapa
  ends (during : List ((T × Action α) × Event α)) (s' : State T B α σ) :
    Runs.Run SwapBufferQueue.step (Continues t) s during s' →
      (∀ panic, s'.pcs t ≠ .panicked panic) ∧
      ∃ trace s'', Runs.Run SwapBufferQueue.step (Alone t) s' trace s'' ∧
        (s''.pcs t).returned = true

/-- What a call whose insertion fits knows. -/
def StagingOk (capacity : Nat) (q : Queue B) : Pc α σ → Prop
  | .dequeueLock _ => False
  | .dequeueResize dequeuing resize =>
      (∀ capa ∈ resize.capacity, checkOverflow capa = true) ∧
        (resize.insert = [] ∨ (q.capacityAfter dequeuing resize = capacity ∧
          (takenElements capacity resize.insert).length ≤ capacity))
  | .dequeueInsert dequeuing _ values length =>
      length ≤ Buffer.capacity (q.buffers dequeuing.bufferIndex) ∧
        (values = [] ∨
          (Buffer.capacity (q.buffers dequeuing.bufferIndex) = capacity ∧
            length + (takenElements capacity values).length ≤ capacity))
  | .dequeuePublish attempt => attempt.insertedLength ≤ attempt.nextCapa
  | .dequeueLoad attempt => attempt.insertedLength ≤ attempt.nextCapa
  | .panicked _ => False
  | _ => True

section Steps

variable {q q' : Queue B} {pc pc' : Pc α σ} {capacity : Nat}

theorem StagingOk.congr (hok : StagingOk capacity q pc)
    (hcapacity : ∀ i, Buffer.capacity (q'.buffers i) = Buffer.capacity (q.buffers i)) :
    StagingOk capacity q' pc := by
  cases pc with
  | dequeueResize dequeuing resize =>
      change _ ∧ (_ ∨ (resize.capacity.getD _ = _ ∧ _))
      rw [hcapacity]
      exact hok
  | dequeueInsert dequeuing resized values length =>
      change length ≤ _ ∧ (_ ∨ (_ ∧ _))
      rw [hcapacity]
      exact hok
  | _ => exact hok

theorem stagingOk_dequeueEntry_none (dequeuing : DequeuingLength) :
    StagingOk capacity q (dequeueEntry dequeuing .none : Pc α σ) :=
  dequeueEntry_elim (P := StagingOk capacity q)
    (fun _ => ⟨fun _ hcapa => (by cases hcapa), Or.inl rfl⟩) fun _ => trivial

variable [LawfulBuffer B] {g : Ledger T α} {t : T}

theorem stagingOk_dequeueFinish {attempt : Attempt} {capa : Nat}
    {enqueuing : EnqueuingCapacity}
    (hself : ThreadInv q g t (dequeueFinish attempt capa enqueuing)) :
    StagingOk capacity q (dequeueFinish attempt capa enqueuing : Pc α σ) := by
  revert hself
  apply dequeueFinish_elim (P := fun pc => ThreadInv q g t pc → StagingOk capacity q pc)
  · intro _ hself
    cases hself.cause
  · exact fun _ _ => trivial
  · exact fun _ _ _ => stagingOk_dequeueEntry_none _
  · exact fun _ _ _ _ => trivial
  · intro _ _ _ hself
    cases hself.cause

/-- A write of a value the loop takes does not fail. -/
theorem not_stageOutOfBounds {dequeuing : DequeuingLength} {resized : Bool}
    {value : List α} {rest : List (List α)} {length : Nat} {spurious : Bool}
    (hok : StagingOk capacity q
      (.dequeueInsert dequeuing resized (value :: rest) length : Pc α σ)) :
    q.run spurious (.dequeueInsert dequeuing resized (value :: rest) length) ≠
      some (q, (.panicked .stageOutOfBounds : Pc α σ), .silent) := by
  obtain ⟨hcapacity, hfits⟩ := hok.2.resolve_left (by simp)
  simp only [Queue.run]
  split
  · simp
  · split
    · simp
    · rename_i hle
      rw [takenElements_cons (by omega), List.length_append] at hfits
      have hinside : length + value.length ≤
          Buffer.capacity (q.buffers dequeuing.bufferIndex) := by omega
      obtain ⟨b, hinsert, -⟩ := LawfulBuffer.insertInto_spec hinside
      rw [hinsert]
      simp

theorem Local.stagingOk {spurious : Bool}
    (hrun : q.run spurious pc = some (q, pc', .silent))
    (hmove : Local q pc (.run spurious) pc') (hself : ThreadInv q g t pc')
    (hok : StagingOk capacity q pc) : StagingOk capacity q pc' := by
  generalize haction : (Action.run spurious : Action α) = action at hmove
  cases hmove with
  | enqueueLoad _ _ =>
      exact enqueueCheck_elim (P := StagingOk capacity q) (fun _ => trivial)
        (fun _ _ => trivial) fun _ _ _ => trivial
  | enqueueRetry _ _ _ _ =>
      exact enqueueCheck_elim (P := StagingOk capacity q) (fun _ => trivial)
        (fun _ _ => trivial) fun _ _ _ => trivial
  | indexUnderflow _ _ _ _ => cases hself.cause
  | insertOutOfBounds _ _ _ _ => cases hself.cause
  | keepCapacity dequeuing resize _ hkeep =>
      refine ⟨Nat.zero_le _, hok.2.imp id ?_⟩
      rintro ⟨hcapacity, hfits⟩
      refine ⟨?_, by omega⟩
      rw [← hcapacity, Queue.capacityAfter]
      cases hcapa : resize.capacity with
      | none => rfl
      | some capa => exact (hkeep capa hcapa).symm
  | capacityOverflow _ resize _ capa hcapa hcheck =>
      rw [hok.1 capa hcapa] at hcheck
      cases hcheck
  | skipEmpty dequeuing resized rest length _ =>
      obtain ⟨hcapacity, hfits⟩ := hok.2.resolve_left (by simp)
      rw [takenElements_cons (Nat.zero_le _)] at hfits
      exact ⟨hok.1, Or.inr ⟨hcapacity, hfits⟩⟩
  | stageEnd dequeuing resized values length _ _ => exact hok.1
  | stageOutOfBounds dequeuing resized value rest length _ _ =>
      exact absurd hrun (not_stageOutOfBounds hok)
  | publishNothing _ _ _ => exact hok
  | bufferIndexAssert _ _ _ => cases hself.cause
  | nextCapacityUnderflow attempt _ hlt => exact absurd hok (Nat.not_le_of_lt hlt)
  | enqueuingCapacityAssert _ _ _ _ => cases hself.cause
  | dequeueNotify _ _ _ _ => exact stagingOk_dequeueFinish hself
  | sliceOutOfBounds _ _ _ _ _ => cases hself.cause
  | clearOutOfBounds _ _ _ _ _ => cases hself.cause
  | _ => first | exact trivial | cases haction

theorem Transition.stagingOk {spurious : Bool} {event : Event α}
    (hrun : q.run spurious pc = some (q', pc', event))
    (hself : ThreadInv q' g t pc') (hok : StagingOk capacity q pc) :
    StagingOk capacity q' pc' := by
  have hmove := Queue.run_cases hrun
  generalize haction : (Action.run spurious : Action α) = action at hmove
  cases hmove with
  | silent hlocal =>
      cases haction
      exact hlocal.stagingOk hrun hself hok
  | lock _ _ _ => exact hok.elim
  | resize dequeuing resize _ capa b hcapa hne hcheck hresize =>
      refine ⟨Nat.zero_le _, hok.2.imp id ?_⟩
      rintro ⟨hcapacity, hfits⟩
      refine ⟨?_, by omega⟩
      rw [Queue.buffers_setBuffer, if_pos rfl, LawfulBuffer.capacity_resize hresize,
        ← hcapacity, Queue.capacityAfter, hcapa]
      rfl
  | stage dequeuing resized value rest length _ b hvalue hle hinsert =>
      obtain ⟨hcapacity, hfits⟩ := hok.2.resolve_left (by simp)
      rw [takenElements_cons (by omega), List.length_append] at hfits
      change length + value.length ≤ _ ∧ (_ ∨ (_ ∧ length + value.length + _ ≤ _))
      rw [Queue.capacity_setBuffer (LawfulBuffer.capacity_insertInto hinsert)]
      exact ⟨by omega, Or.inr ⟨hcapacity, by omega⟩⟩
  | publish _ _ _ => exact hok
  | _ => exact trivial

end Steps

section Runs

variable [DecidableEq T] [LawfulBuffer B] {start s s' : State T B α σ} {t : T}
  {before during : List ((T × Action α) × Event α)} {capacity : Nat}

/-- A call in progress whose insertion fits, or that has returned. -/
structure Staging (B : Type u) [Buffer B α σ] (capacity : Nat) (q : Queue B)
    (pc : Pc α σ) : Prop where
  ok : StagingOk capacity q pc
  ongoing : pc.dequeuing = true ∨ pc.returned = true
  resizes : pc.CanResize B

/-- Whatever the others do, a call whose insertion fits goes on so. -/
theorem Sim.staging_of_run {g : Ledger T α} (hsim : Sim s g)
    (hstaging : Staging B capacity s.queue (s.pcs t))
    (hduring : Runs.Run SwapBufferQueue.step (Continues t) s during s') :
    Staging B capacity s'.queue (s'.pcs t) := by
  refine hduring.invariant (fun _ s' => Staging B capacity s'.queue (s'.pcs t)) hstaging ?_
  rintro during state state' ⟨t', action⟩ event hearlier hinv ⟨hsize, hown⟩ hstep
  have hstate := hsim.of_run (fun _ _ h => h.1) hearlier
  have hstate' := hstate.step hsize hstep
  by_cases ht' : t' = t
  · subst ht'
    obtain ⟨spurious, rfl⟩ := hown rfl
    obtain ⟨q', pc', hrun, rfl⟩ := run_of_step hstep
    have hmove := Queue.run_cases hrun
    have hdequeuing : (state.pcs t').dequeuing = true := by
      refine hinv.ongoing.resolve_right fun hreturned => ?_
      generalize state.pcs t' = pc at hreturned hrun
      cases pc with
      | idle _ => cases hrun
      | slice _ _ _ _ => cases hrun
      | panicked _ => cases hrun
      | _ => cases hreturned
    have hself := hstate'.self
    simp only [Function.update_self]
    exact ⟨Transition.stagingOk hrun hself hinv.ok, hmove.dequeuing hdequeuing,
      hmove.canResize hdequeuing hinv.resizes⟩
  · obtain ⟨q', pc', hmove, rfl⟩ := step_cases hstep
    change Staging B capacity q' (Function.update state.pcs t' pc' t)
    rw [Function.update_of_ne (Ne.symm ht')]
    refine ⟨?_, hinv.ongoing, hinv.resizes⟩
    by_cases hholds : (state.pcs t).holds = true
    · apply hinv.ok.congr
      apply hmove.capacity_eq
      exact Bool.eq_false_iff.mpr fun hmine => ht' (hstate.exclusive hmine hholds)
    · have hok := hinv.ok
      generalize state.pcs t = pc at hholds hok
      cases pc with
      | idle _ => exact trivial
      | enqueueLoad _ => exact trivial
      | enqueueReserve _ _ _ => exact trivial
      | enqueueInsert _ _ => exact trivial
      | enqueueAcknowledge _ _ => exact trivial
      | dequeueLock _ => exact hok
      | _ => exact absurd rfl hholds

theorem insertsWithin_of_fits (hinitial : Initial start)
    (hbefore : Runs.Run SwapBufferQueue.step SizeOk start before s)
    (hstaging : Staging B capacity s.queue (s.pcs t)) :
    InsertsWithin before s t capacity := by
  have hsim := sim_of_run hinitial (fun _ _ h => h) hbefore
  constructor
  · intro during s' dequeuing resized value rest length hduring hpc hvalue hle
    have hstaged := (hsim.staging_of_run hstaging hduring).ok
    have hsizes : Runs.Run SwapBufferQueue.step SizeOk s during s' :=
      hduring.mono fun _ _ h => h.1
    have hwhole := hbefore.append hsizes
    have hsim := sim_of_run hinitial (fun _ _ h => h) hwhole
    have hthread := hsim.thread t
    rw [hpc] at hstaged hthread
    have hhidden : Hidden s'.queue _ dequeuing .staged length := hthread
    obtain ⟨hcapacity, hfits⟩ := hstaged.2.resolve_left (by simp)
    rw [takenElements_cons (by omega), List.length_append] at hfits
    refine ⟨hcapacity, ?_, by omega⟩
    rw [← view_of_run hinitial hwhole]
    exact (hhidden.length_staged rfl).symm
  · intro during s' attempt hduring hpc
    have hstaged := (hsim.staging_of_run hstaging hduring).ok
    rcases hpc with hpc | hpc
    · rw [hpc] at hstaged
      exact hstaged
    · rw [hpc] at hstaged
      exact hstaged
  · intro during s' hduring
    have hstaged := hsim.staging_of_run hstaging hduring
    constructor
    · intro panic hpc
      have hok := hstaged.ok
      rw [hpc] at hok
      exact hok
    · rcases hstaged.ongoing with hdequeuing | hreturned
      · exact exists_completion hdequeuing hstaged.resizes
      · exact ⟨[], s', Runs.Run.nil, hreturned⟩

/-- When the values the loop takes do not fit together, one of the writes is not
inside the buffer. -/
theorem exists_write_outside (values : List (List α)) :
    ∀ {s : State T B α σ} {dequeuing : DequeuingLength} {resized : Bool} {length : Nat},
    s.pcs t = .dequeueInsert dequeuing resized values length →
    Buffer.capacity (s.queue.buffers dequeuing.bufferIndex) = capacity →
    length ≤ capacity → capacity < length + (takenElements capacity values).length →
    ∃ during s' value rest length',
      Runs.Run SwapBufferQueue.step (Continues t) s during s' ∧
      s'.pcs t = .dequeueInsert dequeuing resized (value :: rest) length' ∧
      value ≠ [] ∧ Buffer.capacity (s'.queue.buffers dequeuing.bufferIndex) = capacity ∧
      value.length ≤ capacity ∧ capacity < length' + value.length := by
  induction values with
  | nil =>
      intro s dequeuing resized length _ _ hle hlt
      change capacity < length + 0 at hlt
      omega
  | cons value rest ih =>
      intro s dequeuing resized length hpc hcapacity hle hlt
      have hextend : ∀ {q' : Queue B} {event : Event α} {length' : Nat},
          s.queue.run false (.dequeueInsert dequeuing resized (value :: rest) length) =
            some (q', (.dequeueInsert dequeuing resized rest length' : Pc α σ), event) →
          Buffer.capacity (q'.buffers dequeuing.bufferIndex) = capacity →
          length' ≤ capacity →
          capacity < length' + (takenElements capacity rest).length →
          ∃ during s' value rest length',
            Runs.Run SwapBufferQueue.step (Continues t) s during s' ∧
            s'.pcs t = .dequeueInsert dequeuing resized (value :: rest) length' ∧
            value ≠ [] ∧
            Buffer.capacity (s'.queue.buffers dequeuing.bufferIndex) = capacity ∧
            value.length ≤ capacity ∧ capacity < length' + value.length := by
        intro q' event length' hrun hcapacity' hle' hlt'
        have hstep : SwapBufferQueue.step s (t, .run false) =
          some (⟨q', Function.update s.pcs t _⟩, event) := step_of_act hpc hrun
        obtain ⟨during, s', value', rest', length'', hduring, hrest⟩ :=
          ih (s := ⟨q', Function.update s.pcs t _⟩) (Function.update_self _ _ _)
            hcapacity' hle' hlt'
        exact ⟨_, s', value', rest', length'', (Runs.Run.nil.snoc
          (continues_of_run s false) hstep).append hduring, hrest⟩
      by_cases hvalue : value = []
      · subst hvalue
        rw [takenElements_cons (Nat.zero_le _)] at hlt
        exact hextend rfl hcapacity hle hlt
      · by_cases hfits : value.length ≤ capacity
        · rw [takenElements_cons hfits, List.length_append] at hlt
          by_cases hinside : length + value.length ≤ capacity
          · rw [← hcapacity] at hinside
            obtain ⟨b, hinsert, -⟩ := LawfulBuffer.insertInto_spec hinside
            have hrun : s.queue.run false
                (.dequeueInsert dequeuing resized (value :: rest) length) =
                some (s.queue.setBuffer dequeuing.bufferIndex b,
                  (.dequeueInsert dequeuing resized rest (length + value.length) :
                    Pc α σ), .staged dequeuing.bufferIndex value) := by
              simp only [Queue.run]
              rw [if_neg (by simpa using hvalue), if_neg (by omega), hinsert]
            refine hextend hrun ?_ (by omega) (by omega)
            · rw [Queue.capacity_setBuffer (LawfulBuffer.capacity_insertInto hinsert)]
              exact hcapacity
          · exact ⟨[], s, value, rest, length, Runs.Run.nil, hpc, hvalue, hcapacity,
              hfits, by omega⟩
        · rw [takenElements_cons_of_lt (by omega)] at hlt
          change capacity < length + 0 at hlt
          omega

/-- Insertion while resizing stays inside the buffer exactly when the values it takes
fit together in the resized buffer. -/
theorem inserts_within_iff (hinitial : Initial start)
    (hbefore : Runs.Run SwapBufferQueue.step SizeOk start before s)
    {dequeuing : DequeuingLength} {args : ResizeArgs α}
    (hpc : s.pcs t = .dequeueResize dequeuing args)
    (haccept : ∀ capa ∈ args.capacity, checkOverflow capa = true)
    (hresize : ∀ (b : B) capa, (Buffer.resize b capa).isSome = true) :
    InsertsWithin before s t (s.queue.capacityAfter dequeuing args) ↔
      (takenElements (s.queue.capacityAfter dequeuing args) args.insert).length ≤
        s.queue.capacityAfter dequeuing args := by
  constructor
  · intro hwithin
    by_contra hlt
    -- The first step resizes the buffer or keeps it, and starts the loop.
    obtain ⟨q', resized, event, hrun, hcapacity⟩ : ∃ q' resized event,
        s.queue.run false (.dequeueResize dequeuing args) =
          some (q', (.dequeueInsert dequeuing resized args.insert 0 : Pc α σ), event) ∧
        Buffer.capacity (q'.buffers dequeuing.bufferIndex) =
          s.queue.capacityAfter dequeuing args := by
      simp only [Queue.run]
      split
      · rename_i hnone
        have hkeep : ∀ capa ∈ args.capacity,
            capa = Buffer.capacity (s.queue.buffers dequeuing.bufferIndex) := by
          simpa [Option.filter_eq_none_iff] using hnone
        refine ⟨_, _, _, rfl, ?_⟩
        rw [Queue.capacityAfter]
        cases hcapa : args.capacity with
        | none => rfl
        | some capa => exact (hkeep capa hcapa).symm
      · rename_i capa hsome
        rw [Option.filter_eq_some_iff] at hsome
        rw [if_pos (haccept capa hsome.1)]
        obtain ⟨b, hb⟩ := Option.isSome_iff_exists.mp
          (hresize (s.queue.buffers dequeuing.bufferIndex) capa)
        rw [hb]
        refine ⟨_, _, _, rfl, ?_⟩
        rw [Queue.buffers_setBuffer, if_pos rfl, LawfulBuffer.capacity_resize hb,
          Queue.capacityAfter, hsome.1]
        rfl
    have hstep : SwapBufferQueue.step s (t, .run false) =
      some (⟨q', Function.update s.pcs t _⟩, event) := step_of_act hpc hrun
    obtain ⟨during, s', value, rest, length, hduring, hpc', hvalue, hcapacity', hfits,
      houtside⟩ := exists_write_outside (t := t)
        (s := ⟨q', Function.update s.pcs t _⟩) args.insert (Function.update_self _ _ _)
        hcapacity (Nat.zero_le _) (by omega)
    obtain ⟨-, -, hinside⟩ := hwithin.inside _ s' dequeuing resized value rest length
      ((Runs.Run.nil.snoc (continues_of_run s false) hstep).append hduring) hpc' hvalue
      (by omega)
    omega
  · intro hfits
    apply insertsWithin_of_fits hinitial hbefore
    rw [hpc]
    exact ⟨⟨haccept, Or.inr ⟨rfl, hfits⟩⟩, Or.inl rfl, Or.inr hresize⟩

end Runs

/-- Two values that fill the buffer they are inserted in. -/
theorem inserts_within_iff_two_values :
    ∃ (start : State Unit (VecBuffer Nat) Nat (List Nat)) (before : _)
        (s : State Unit (VecBuffer Nat) Nat (List Nat)) (dequeuing : DequeuingLength),
      Initial start ∧ Runs.Run SwapBufferQueue.step SizeOk start before s ∧
      s.pcs () = .dequeueResize dequeuing ⟨some 2, [[1], [2]]⟩ ∧
      InsertsWithin before s () 2 := by
  have hbefore := Runs.run_of_isSome SwapBufferQueue.step SizeOk
    (State.ofQueue ((Queue.withCapacity 1).get (by decide +kernel)) :
      State Unit (VecBuffer Nat) Nat (List Nat))
    [((), .tryDequeueAndResize ⟨some 2, [[1], [2]]⟩), ((), .run false)]
    (by decide +kernel) (by decide +kernel)
  have hinitial := initial_withCapacity (T := Unit) (B := VecBuffer Nat)
    (show (Queue.withCapacity 1).isSome = true by decide +kernel)
  have hiff := inserts_within_iff hinitial hbefore
    (show State.pcs _ () = .dequeueResize ⟨1⟩ ⟨some 2, [[1], [2]]⟩ by decide +kernel)
    (by decide +kernel) fun _ _ => rfl
  exact ⟨_, _, _, ⟨1⟩, hinitial, hbefore, by decide +kernel, hiff.mpr (by decide)⟩

/-- Two values of size one in a buffer of capacity one: the second write is outside, the
call panics and leaves the queue locked. -/
theorem second_value_written_outside :
    ∃ (start : State Unit (VecBuffer Nat) Nat (List Nat)) (before : _)
        (s : State Unit (VecBuffer Nat) Nat (List Nat)) (dequeuing : DequeuingLength)
        (during : _) (s' : State Unit (VecBuffer Nat) Nat (List Nat)),
      Initial start ∧ Runs.Run SwapBufferQueue.step SizeOk start before s ∧
      s.pcs () = .dequeueResize dequeuing ⟨none, [[1], [2]]⟩ ∧
      Runs.execute SwapBufferQueue.step s (List.replicate 3 ((), .run false)) =
        some (during, s') ∧
      s'.pcs () = .panicked .stageOutOfBounds ∧
      s'.queue.dequeuingLength = dequeuingLocked := by
  have hbefore := Runs.run_of_isSome SwapBufferQueue.step SizeOk
    (State.ofQueue ((Queue.withCapacity 1).get (by decide +kernel)) :
      State Unit (VecBuffer Nat) Nat (List Nat))
    [((), .tryDequeueAndResize ⟨none, [[1], [2]]⟩), ((), .run false)]
    (by decide +kernel) (by decide +kernel)
  have hinitial := initial_withCapacity (T := Unit) (B := VecBuffer Nat)
    (show (Queue.withCapacity 1).isSome = true by decide +kernel)
  exact ⟨_, _, _, ⟨1⟩, _, _, hinitial, hbefore, by decide +kernel,
    (Option.some_get (by decide +kernel)).symm, by decide +kernel, by decide +kernel⟩

end SwapBufferQueue
