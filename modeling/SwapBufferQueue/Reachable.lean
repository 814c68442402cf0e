/-
Every step keeps the simulation, and every run from a created queue satisfies it.
-/
import SwapBufferQueue.Holder

namespace SwapBufferQueue

universe u v w x

open Tiling

variable {T : Type x} {B : Type u} {α : Type v} {σ : Type w}
variable [DecidableEq T] [Buffer B α σ] [LawfulBuffer B]
variable {s : State T B α σ} {g : Ledger T α} {t : T}

/-- What the simulation asks of a call: its value is counted by a `usize` whose
shift loses nothing. -/
def SizeOk (_ : State T B α σ) (label : T × Action α) : Prop :=
  ∀ value ∈ label.2.value?, value.length < 2 ^ 63

instance instDecidableSizeOk (s : State T B α σ) (label : T × Action α) :
    Decidable (SizeOk s label) :=
  inferInstanceAs (Decidable (∀ value ∈ label.2.value?, value.length < 2 ^ 63))

omit [DecidableEq T] [Buffer B α σ] [LawfulBuffer B] in
theorem sizeOk_of_value_eq_none {label : T × Action α} (hnone : label.2.value? = none) :
    SizeOk s label := by
  intro value hvalue
  rw [hnone] at hvalue
  cases hvalue

/-- Every step keeps the simulation. -/
theorem Sim.step (hsim : Sim s g) {s' : State T B α σ} {action : Action α}
    {event : Event α} (hsize : SizeOk s (t, action))
    (hstep : SwapBufferQueue.step s (t, action) = some (s', event)) :
    Sim s' (g.next t event) := by
  obtain ⟨q', pc', htransition, rfl⟩ := step_cases hstep
  generalize hpc : s.pcs t = pc at htransition
  cases htransition with
  | silent hmove =>
      refine hsim.local_step (hpc ▸ hmove) ?_
      rintro value rfl
      exact hsize value rfl
  | reserve value next => exact hsim.reserve hpc
  | insert value enqueuing _ b hinsert => exact hsim.insert hpc hinsert
  | acknowledge value enqueuing _ => exact hsim.acknowledge hpc
  | conflict _ _ _ => exact hsim.conflict hpc
  | lock _ _ hopen => exact hsim.lock hpc hopen
  | resize _ _ _ _ _ _ _ hcheck hresize => exact hsim.resize hpc hcheck hresize
  | stage _ _ _ _ _ _ _ hvalue _ hinsert => exact hsim.stage hpc hvalue hinsert
  | publish _ _ _ => exact hsim.publish hpc
  | foundEmpty _ _ _ _ _ hinserted => exact hsim.foundEmpty hpc hinserted
  | swap _ _ _ => exact hsim.swap hpc
  | storeCapacity _ _ _ _ => exact hsim.storeCapacity hpc
  | slice _ _ _ _ _ hslice => exact hsim.slice hpc hslice
  | remove _ _ _ _ _ hlt hremove => exact hsim.remove hpc hlt hremove
  | clear _ _ _ _ _ _ hclear => exact hsim.clear hpc hclear
  | release _ _ => exact hsim.release hpc
  | unlock _ _ _ => exact hsim.unlock hpc
  | close _ =>
      exact hsim.setClosed (by rw [hpc]; rfl) (by simp [hpc]) (by simp [hpc])
        (EnqueuingCapacity.close_spec _)
  | reopen _ =>
      exact hsim.setClosed (by rw [hpc]; rfl) (by simp [hpc]) (by simp [hpc])
        (EnqueuingCapacity.reopen_spec _)

theorem Sim.self {pcs : T → Pc α σ} {q' : Queue B} {pc' : Pc α σ}
    (hsim : Sim (⟨q', Function.update pcs t pc'⟩ : State T B α σ) g) :
    ThreadInv q' g t pc' := by
  have hthread := hsim.thread t
  change ThreadInv q' g t (Function.update pcs t pc' t) at hthread
  rwa [Function.update_self] at hthread

/-- What `Queue::new` and `Queue::with_capacity` build: two vacant buffers of one
capacity that `check_overflow` accepts. -/
structure Created (q : Queue B) (capacity : Nat) : Prop where
  capacity_lt : capacity < 2 ^ 62 - 1
  buffers_capacity (i : Fin 2) : Buffer.capacity (q.buffers i) = capacity
  buffers_eq (i j : Fin 2) : q.buffers i = q.buffers j
  length (i : Fin 2) : q.buffersLength i = 0
  capacity_eq : q.capacity = capacity
  index : q.enqueuingCapacity.bufferIndex = 0
  remaining : q.enqueuingCapacity.remainingCapacity = capacity
  isOpen : q.enqueuingCapacity.isClosed = false
  dequeuing : q.dequeuingLength = (DequeuingLength.new 1 0).word

omit [DecidableEq T] in
theorem Created.of_initial (hinitial : Initial s) :
    ∃ capacity, Created s.queue capacity := by
  rcases hinitial.1 with hnew | ⟨capacity, hnew⟩
  · simp only [Queue.new, Option.mem_def] at hnew
    split at hnew
    · rename_i hcheck
      have hlt := (checkOverflow_iff _).mp hcheck
      obtain ⟨enqueuing, hword, hindex, hremaining, hopen⟩ :=
        EnqueuingCapacity.new_spec 0 (Nat.lt_of_lt_of_le hlt (by decide))
      rw [hword] at hnew
      rw [← Option.some.inj hnew]
      exact ⟨_, hlt, fun _ => rfl, fun _ _ => rfl, fun _ => rfl, rfl, hindex,
        hremaining, hopen, rfl⟩
    · cases hnew
  · simp only [Queue.withCapacity, Option.mem_def] at hnew
    split at hnew
    · rename_i hcheck
      have hlt := (checkOverflow_iff _).mp hcheck
      obtain ⟨enqueuing, hword, hindex, hremaining, hopen⟩ :=
        EnqueuingCapacity.new_spec 0 (Nat.lt_of_lt_of_le hlt (by decide))
      rw [hword] at hnew
      split at hnew
      · rename_i b word hresize hsome
        cases hsome
        rw [← Option.some.inj hnew]
        exact ⟨capacity, hlt, fun _ => LawfulBuffer.capacity_resize hresize,
          fun _ _ => rfl, fun _ => rfl, rfl, hindex, hremaining, hopen, rfl⟩
      · cases hnew
    · cases hnew

omit [DecidableEq T] [LawfulBuffer B] in
theorem Initial.buffers (hinitial : Initial s) (i : Fin 2) :
    s.queue.buffers i = Buffer.default ∨ ∃ capacity,
      Buffer.resize Buffer.default capacity = some (s.queue.buffers i) := by
  rcases hinitial.1 with hnew | ⟨capacity, hnew⟩
  · simp only [Queue.new, Option.mem_def] at hnew
    split at hnew
    · obtain ⟨enqueuing, -, hqueue⟩ := Option.map_eq_some_iff.mp hnew
      rw [← hqueue]
      exact Or.inl rfl
    · cases hnew
  · simp only [Queue.withCapacity, Option.mem_def] at hnew
    split at hnew
    · split at hnew
      · rename_i b enqueuing hresize hword
        rw [← Option.some.inj hnew]
        exact Or.inr ⟨capacity, hresize⟩
      · cases hnew
    · cases hnew

omit [DecidableEq T] in
theorem Sim.of_initial (hinitial : Initial s) : Sim s (Ledger.empty : Ledger T α) := by
  obtain ⟨capacity, hcreated⟩ := Created.of_initial hinitial
  have hidle : ∀ t, s.pcs t = .idle none := fun t => by rw [hinitial.2]
  have hlt := hcreated.capacity_lt
  have hshared : Shared s.queue (Ledger.empty : Ledger T α) := by
    refine ⟨hcreated.index.symm, hcreated.isOpen.symm, ?_, ?_, by simp [Ledger.empty],
      by simp [Ledger.empty], fun i => hcreated.length i, ?_, rfl⟩
    · intro i
      rw [hcreated.buffers_capacity]
      exact hlt
    · rw [hcreated.buffers_capacity, hcreated.remaining]
      exact Nat.zero_add _
    · intro i position tile hat
      exact absurd hat not_at_nil
  have hword : (DequeuingLength.mk s.queue.dequeuingLength) = DequeuingLength.new 1 0 := by
    rw [hcreated.dequeuing]
  refine ⟨hshared, ?_, ?_, ?_, ?_, ?_⟩
  · intro t
    rw [hidle]
    exact trivial
  · intro i position tile t hat
    exact absurd hat not_at_nil
  · intro t t' hholds
    rw [hidle] at hholds
    cases hholds
  · constructor
    · intro hlocked
      rw [hcreated.dequeuing] at hlocked
      exact absurd hlocked (DequeuingLength.new_spec 1 (by decide)).2.2
    · rintro ⟨t, hholds⟩
      rw [hidle] at hholds
      cases hholds
  · intro _
    rw [hword]
    have hbatch : Batch s.queue (Ledger.empty : Ledger T α) 1 0 :=
      ⟨Fin.zero_ne_one.symm, by simp [Ledger.empty], rfl, Nat.zero_le _, Or.inl rfl⟩
    exact hbatch.stored hshared fun _ => rfl

theorem Sim.of_run (hsim : Sim s g) {s' : State T B α σ}
    {ok : State T B α σ → T × Action α → Prop}
    (hok : ∀ state label, ok state label → SizeOk state label)
    {more : List ((T × Action α) × Event α)}
    (hrun : Runs.Run SwapBufferQueue.step ok s more s') : Sim s' (g.after more) := by
  refine hrun.invariant (fun more s' => Sim s' (g.after more)) hsim ?_
  intro more state state' label event _ hstate hlabel hstep
  rw [Ledger.after_append]
  exact hstate.step (hok state label hlabel) hstep

/-- The simulation holds along every run. -/
theorem sim_of_run {start : State T B α σ} (hinitial : Initial start)
    {ok : State T B α σ → T × Action α → Prop}
    (hok : ∀ state label, ok state label → SizeOk state label)
    {trace : List ((T × Action α) × Event α)}
    (hrun : Runs.Run SwapBufferQueue.step ok start trace s) :
    Sim s (Ledger.ofTrace trace) :=
  (Sim.of_initial hinitial).of_run hok hrun

end SwapBufferQueue
