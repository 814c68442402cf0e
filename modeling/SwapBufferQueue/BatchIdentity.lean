/-
A batch keeps its identity.  Only its remaining length is stored while it waits, and
its range is computed again from the acknowledged length at the next dequeue; whatever
happens meanwhile, every later slice shows what is left of the same batch.
-/
import SwapBufferQueue.Delivery
import SwapBufferQueue.DequeueAndResize

namespace SwapBufferQueue

universe u v w x

open Tiling

variable {T : Type x} {B : Type u} {α : Type v} {σ : Type w}

/-- The view after a trace: a function of the events alone. -/
def View.ofTrace (trace : List ((T × Action α) × Event α)) : View α :=
  trace.foldl (fun view entry => view.next entry.2) ⟨[], [], [], []⟩

theorem View.ofTrace_append_singleton (trace : List ((T × Action α) × Event α))
    (label : T × Action α) (event : Event α) :
    View.ofTrace (trace ++ [(label, event)]) = (View.ofTrace trace).next event := by
  simp [View.ofTrace]

/-- The words and the lengths after the release of a buffer. -/
structure Released (q : Queue B) (i : Fin 2) (q' : Queue B) : Prop where
  enqueuing : q'.enqueuingCapacity = q.enqueuingCapacity
  dequeuing : q'.dequeuingLength = (DequeuingLength.new i 0).word
  length : q'.buffersLength = Function.update q.buffersLength i 0
  capacity : q'.capacity = q.capacity

variable [Buffer B α σ]

/-- The last step of the trace is the store of a dequeue that returns `Pending`. -/
def ReturnedPending (trace : List ((T × Action α) × Event α)) (s : State T B α σ) :
    Prop :=
  ∃ earlier t spurious dequeuing,
    trace = earlier ++ [((t, .run spurious), .unlocked dequeuing)] ∧
    s.pcs t = .idle (some (.dequeueError .pending))

/-- The calls that drop a slice, and those that drain it first. -/
def dropLabels (t : T) : List (T × Action α) :=
  [(t, .drop), (t, .run false), (t, .run false), (t, .run false)]

def drainLabels (t : T) (count : Nat) : List (T × Action α) :=
  (t, .intoIter) :: (List.replicate count (t, .next) ++ dropLabels t)

variable [LawfulBuffer B] {s : State T B α σ} {g : Ledger T α} {t : T}

section Range

/-- A range that is not empty starts at the first element that was not consumed. -/
theorem Sim.start_of_undelivered (hsim : Sim s g) {i : Fin 2} {lo hi : Nat}
    (hrange : Undelivered s (i, lo, hi)) (hlt : lo < hi) : lo = g.taken := by
  rcases hrange with ⟨hopen, hstored⟩ | ⟨t, hbatch⟩
  · have hbatch := (hsim.stored hopen).batch
    cases hstored
    exact hbatch.start_eq hsim.shared
  · have hthread := hsim.thread t
    generalize s.pcs t = pc at hbatch hthread
    cases pc with
    | dequeueLoadCapacity _ _ _ =>
        cases hbatch
        exact hthread.taken.symm
    | dequeueStoreCapacity _ _ _ =>
        cases hbatch
        exact hthread.taken.symm
    | dequeueNotify _ _ _ =>
        cases hbatch
        exact hthread.taken.symm
    | dequeueSpin _ _ _ =>
        cases hbatch
        exact hthread.1.start_eq hsim.shared
    | dequeueSlice _ _ _ =>
        cases hbatch
        exact hthread.start_eq
    | slice _ _ _ _ =>
        cases hbatch
        exact hthread.1.start_eq
    | iter _ _ _ =>
        cases hbatch
        exact hthread.start_eq
    | releaseClear _ _ _ =>
        cases hbatch
        exact hthread.start_eq
    | storeDequeuing _ _ =>
        cases hbatch
        exact hthread.batch.start_eq hsim.shared
    | _ =>
        cases hbatch <;> cases hlt

/-- The range of what is left is determined by what was taken. -/
theorem Sim.range_of_undelivered (hsim : Sim s g) {i : Fin 2} {lo hi : Nat}
    (hrange : Undelivered s (i, lo, hi)) (hlt : lo < hi) :
    i = other g.enqueuing ∧ lo = g.taken ∧ hi = g.taken + g.batch.length := by
  have hlies := hsim.lies_of_undelivered hrange
  have hstart := hsim.start_of_undelivered hrange hlt
  refine ⟨eq_other_of_ne hlies.other, hstart, ?_⟩
  rw [← hstart]
  exact hlies.length.symm

end Range

section Steps

variable [DecidableEq T]

/-- What an event does to the batch of the ledger. -/
inductive BatchMove (g g' : Ledger T α) : Event α → Prop
  | keeps {event : Event α} (hswap : ∀ i, event ≠ .swapped i)
      (hconsume : ∀ i values, event ≠ .consumed i values) (hbatch : g'.batch = g.batch)
      (htaken : g'.taken = g.taken) (hindex : g'.enqueuing = g.enqueuing) :
      BatchMove g g' event
  | consumes (i : Fin 2) (values : List α) (hbatch : g.batch = values ++ g'.batch)
      (htaken : g'.taken = g.taken + values.length)
      (hindex : g'.enqueuing = g.enqueuing) : BatchMove g g' (.consumed i values)
  | swaps (i : Fin 2) (hnil : g.batch = []) (hbatch : g'.batch = g.tail)
      (htaken : g'.taken = 0) : BatchMove g g' (.swapped i)
  | releases (i : Fin 2) (hnil : g.batch = []) (hbatch : g'.batch = []) :
      BatchMove g g' (.released i)

omit [DecidableEq T] in
/-- Consumed elements come from the front of the batch. -/
theorem Shared.batch_eq_append {q q' : Queue B} {g' : Ledger T α} (hshared : Shared q g)
    (hshared' : Shared q' g') {values : List α}
    (hconsumed : g'.consumed = g.consumed ++ values) (htail : g'.tail = g.tail)
    (haccepted : g'.accepted = g.accepted) : g.batch = values ++ g'.batch := by
  have hboth := hshared'.order.trans (haccepted ▸ hshared.order.symm)
  rw [hconsumed, htail, List.append_left_inj, List.append_assoc,
    List.append_right_inj] at hboth
  exact hboth.symm

theorem Sim.batchMove (hsim : Sim s g) {action : Action α} {q' : Queue B}
    {pc' : Pc α σ} {event : Event α}
    (hmove : Transition s.queue (s.pcs t) action q' pc' event)
    (hshared' : Shared q' (g.next t event)) : BatchMove g (g.next t event) event := by
  have hbatch := congrArg View.batch (hsim.view_step hmove)
  have htail := congrArg View.tail (hsim.view_step hmove)
  change (g.next t event).batch = _ at hbatch
  change (g.next t event).tail = _ at htail
  have hthread := hsim.thread t
  generalize s.pcs t = pc at hmove hthread
  cases hmove with
  | swap attempt capacity nextEnqueuing =>
      have hswap : Swapping s.queue g attempt capacity nextEnqueuing _ := hthread
      exact .swaps _ (hswap.hidden.batch_eq_nil rfl) hbatch hswap.hidden.taken
  | remove i start stop value b hlt hremove =>
      exact .consumes _ _ (hsim.shared.batch_eq_append hshared' rfl htail rfl) rfl rfl
  | clear i start stop spurious values b hclear =>
      exact .consumes _ _ (hsim.shared.batch_eq_append hshared' rfl htail rfl) rfl rfl
  | release i spurious =>
      have hrange : Range s.queue g i (extent (g.tiles i)) (extent (g.tiles i)) := hthread
      have hnil : g.batch = [] := by
        rw [hrange.batch_eq, extent, List.drop_length]
      exact .releases i hnil (hbatch.trans hnil)
  | _ => exact .keeps (by simp) (by simp) hbatch rfl rfl

variable {start s' : State T B α σ} {before after : List ((T × Action α) × Event α)}

theorem view_of_run (hinitial : Initial start)
    (hrun : Runs.Run SwapBufferQueue.step SizeOk start before s) :
    (Ledger.ofTrace before).view = View.ofTrace before := by
  refine hrun.invariant (fun trace _ => (Ledger.ofTrace trace).view = View.ofTrace trace)
    rfl ?_
  rintro trace state state' ⟨t, action⟩ event hprefix hview _ hstep
  have hsim := sim_of_run hinitial (fun _ _ h => h) hprefix
  obtain ⟨q', pc', hmove, -⟩ := step_cases hstep
  rw [Ledger.ofTrace_append_singleton, View.ofTrace_append_singleton, ← hview]
  exact hsim.view_step hmove

omit [DecidableEq T] in
theorem noSwap_append_singleton {trace : List ((T × Action α) × Event α)}
    (hnoswap : NoSwap trace) {label : T × Action α} {event : Event α}
    (hevent : ∀ i, event ≠ .swapped i) : NoSwap (trace ++ [(label, event)]) := by
  intro entry hentry
  rcases List.mem_append.mp hentry with hold | hnew
  · exact hnoswap entry hold
  · rw [List.mem_singleton.mp hnew]
    exact hevent

/-- The batch after the first trace is still the one after both: the elements consumed
since are the front of it. -/
structure SameBatch (before after : List ((T × Action α) × Event α)) : Prop where
  noSwap : NoSwap after
  batch : (Ledger.ofTrace before).batch =
    consumedElements after ++ (Ledger.ofTrace (before ++ after)).batch
  taken : (Ledger.ofTrace (before ++ after)).taken =
    (Ledger.ofTrace before).taken + (consumedElements after).length
  enqueuing : (Ledger.ofTrace (before ++ after)).enqueuing =
    (Ledger.ofTrace before).enqueuing

theorem sameBatch_of_run (hinitial : Initial start)
    (hbefore : Runs.Run SwapBufferQueue.step SizeOk start before s)
    (hafter : Runs.Run SwapBufferQueue.step SizeOk s after s')
    (hleft : (consumedElements after).length < (Ledger.ofTrace before).batch.length) :
    SameBatch before after := by
  revert hleft
  refine hafter.invariant (fun after _ => (consumedElements after).length <
    (Ledger.ofTrace before).batch.length → SameBatch before after) ?_ ?_
  · intro _
    exact ⟨by simp [NoSwap], by simp [consumedElements], by simp [consumedElements],
      by simp⟩
  · rintro after state state' ⟨t, action⟩ event hprefix ih hlabel hstep hleft
    have hwhole := hbefore.append hprefix
    have hsim := sim_of_run hinitial (fun _ _ h => h) hwhole
    have hsim' := hsim.step hlabel hstep
    obtain ⟨q', pc', hmove, rfl⟩ := step_cases hstep
    rw [consumedElements_append, List.length_append] at hleft
    obtain ⟨hnoswap, hbatch, htaken, hindex⟩ := ih (by omega)
    have hwhole' : Ledger.ofTrace (before ++ (after ++ [((t, action), event)])) =
        (Ledger.ofTrace (before ++ after)).next t event := by
      rw [← List.append_assoc, Ledger.ofTrace_append_singleton]
    have hremaining : (Ledger.ofTrace (before ++ after)).batch ≠ [] := by
      intro hnil
      rw [hbatch, hnil, List.append_nil] at hleft
      omega
    cases hsim.batchMove hmove hsim'.shared with
    | keeps hswap hconsume hkeep htaken' hindex' =>
        have hnone := consumedElements_singleton_eq_nil (t, action) hconsume
        refine ⟨noSwap_append_singleton hnoswap hswap, ?_, ?_, ?_⟩
        · rw [consumedElements_append, hnone, List.append_nil, hwhole', hkeep]
          exact hbatch
        · rw [consumedElements_append, hnone, List.append_nil, hwhole', htaken']
          exact htaken
        · rw [hwhole', hindex']
          exact hindex
    | consumes i values hfront htaken' hindex' =>
        have hvalues : consumedElements [((t, action), Event.consumed i values)] =
            values := by
          simp [consumedElements]
        refine ⟨noSwap_append_singleton hnoswap (by simp), ?_, ?_, ?_⟩
        · rw [consumedElements_append, hvalues, List.append_assoc, hwhole', ← hfront]
          exact hbatch
        · rw [consumedElements_append, hvalues, hwhole', htaken', htaken,
            List.length_append, Nat.add_assoc]
        · rw [hwhole', hindex']
          exact hindex
    | swaps i hnil _ _ => exact absurd hnil hremaining
    | releases i hnil _ => exact absurd hnil hremaining

/-- A batch that is not empty comes from the last swap: it is what the enqueuing
buffer held then, without the elements consumed since. -/
theorem fromSwap_of_run (hinitial : Initial start)
    (hrun : Runs.Run SwapBufferQueue.step SizeOk start before s)
    (hne : (Ledger.ofTrace before).batch ≠ []) :
    ∃ earlier label i later, before = earlier ++ (label, .swapped i) :: later ∧
      NoSwap later ∧
      (View.ofTrace earlier).tail =
        consumedElements later ++ (Ledger.ofTrace before).batch ∧
      (Ledger.ofTrace before).taken = (consumedElements later).length := by
  revert hne
  refine hrun.invariant (fun trace _ => (Ledger.ofTrace trace).batch ≠ [] →
    ∃ earlier label i later, trace = earlier ++ (label, .swapped i) :: later ∧
      NoSwap later ∧
      (View.ofTrace earlier).tail =
        consumedElements later ++ (Ledger.ofTrace trace).batch ∧
      (Ledger.ofTrace trace).taken = (consumedElements later).length) ?_ ?_
  · intro hne
    exact absurd rfl hne
  · rintro trace state state' ⟨t, action⟩ event hprefix ih hlabel hstep hne
    have hsim := sim_of_run hinitial (fun _ _ h => h) hprefix
    have hsim' := hsim.step hlabel hstep
    obtain ⟨q', pc', hmove, rfl⟩ := step_cases hstep
    rw [Ledger.ofTrace_append_singleton] at hne ⊢
    cases hsim.batchMove hmove hsim'.shared with
    | keeps hswap hconsume hkeep htaken' _ =>
        rw [hkeep] at hne
        obtain ⟨earlier, label, i, later, rfl, hnoswap, htail, htaken⟩ := ih hne
        have hnone := consumedElements_singleton_eq_nil (t, action) hconsume
        refine ⟨earlier, label, i, later ++ [((t, action), event)], by simp, ?_, ?_, ?_⟩
        · exact noSwap_append_singleton hnoswap hswap
        · rw [consumedElements_append, hnone, List.append_nil, hkeep]
          exact htail
        · rw [consumedElements_append, hnone, List.append_nil, htaken']
          exact htaken
    | consumes j values hfront htaken' _ =>
        obtain ⟨earlier, label, i, later, rfl, hnoswap, htail, htaken⟩ :=
          ih fun hnil => hne (List.append_eq_nil_iff.mp (hfront.symm.trans hnil)).2
        have hvalues : consumedElements [((t, action), Event.consumed j values)] =
            values := by
          simp [consumedElements]
        refine ⟨earlier, label, i, later ++ [((t, action), .consumed j values)], by simp,
          noSwap_append_singleton hnoswap (by simp), ?_, ?_⟩
        · rw [consumedElements_append, hvalues, List.append_assoc, ← hfront]
          exact htail
        · rw [consumedElements_append, hvalues, htaken', htaken, List.length_append]
    | swaps i _ hbatch htaken =>
        refine ⟨trace, (t, action), i, [], rfl, by simp [NoSwap], ?_, htaken⟩
        rw [hbatch, ← view_of_run hinitial hprefix]
        rfl
    | releases i _ hnil => exact absurd hnil hne

end Steps

section Pending

/-- A dequeue about to return `Pending`. -/
def Pc.storesPending : Pc α σ → Bool
  | .storeDequeuing _ (.dequeueError .pending) => true
  | _ => false

theorem storesPending_enqueueCheck (value : List α) (enqueuing : EnqueuingCapacity) :
    (enqueueCheck value enqueuing : Pc α σ).storesPending = false :=
  enqueueCheck_elim (P := fun pc => pc.storesPending = false) (fun _ => rfl)
    (fun _ _ => rfl) fun _ _ _ => rfl

theorem storesPending_dequeueEntry (dequeuing : DequeuingLength)
    (resize : ResizeArgs α) :
    (dequeueEntry dequeuing resize : Pc α σ).storesPending = false :=
  dequeueEntry_elim (P := fun pc => pc.storesPending = false) (fun _ => rfl)
    fun _ => rfl

theorem storesPending_dequeueFinish (attempt : Attempt) (capacity : Nat)
    (enqueuing : EnqueuingCapacity) :
    (dequeueFinish attempt capacity enqueuing : Pc α σ).storesPending = false :=
  dequeueFinish_elim (P := fun pc => pc.storesPending = false) (fun _ => rfl)
    (fun _ => rfl) (fun _ _ => storesPending_dequeueEntry _ _) (fun _ _ _ => rfl)
    fun _ _ _ => rfl

theorem storesPending_requeueRange (i : Fin 2) (start stop : Nat) :
    (requeueRange i start stop : Pc α σ).storesPending = false :=
  requeueRange_elim (P := fun pc => pc.storesPending = false) (fun _ => rfl)
    (fun _ => rfl) fun _ => rfl

theorem Batch.taken_eq_zero {q : Queue B} (hshared : Shared q g) {i : Fin 2}
    {length : Nat} (hbatch : Batch q g i length) (hlt : q.buffersLength i < length) :
    g.taken = 0 := by
  rcases hbatch.settled with htaken | hsettled
  · exact htaken
  · have hadd := hbatch.length_add
    have hlength := hshared.length_of_settled hsettled hbatch.fits
    omega

/-- Only the spin loop gives up with `Pending`, on a batch nothing was taken from. -/
theorem Sim.pending_step (hsim : Sim s g) {action : Action α} {q' : Queue B}
    {pc' : Pc α σ} {event : Event α}
    (hmove : Transition s.queue (s.pcs t) action q' pc' event)
    (hpending : pc'.storesPending = true) :
    event = .silent ∧ g.taken = 0 ∧ g.batch ≠ [] := by
  have hthread := hsim.thread t
  generalize s.pcs t = pc at hmove hthread
  cases hmove with
  | silent hlocal =>
      cases hlocal with
      | enqueueLoad value _ =>
          rw [storesPending_enqueueCheck] at hpending
          cases hpending
      | enqueueRetry value _ _ _ =>
          rw [storesPending_enqueueCheck] at hpending
          cases hpending
      | dequeueNotify _ _ _ _ =>
          rw [storesPending_dequeueFinish] at hpending
          cases hpending
      | spinPending i length spins spurious hlt hspins =>
          exact ⟨rfl, hthread.1.taken_eq_zero hsim.shared hlt,
            hthread.1.batch_ne_nil hthread.2⟩
      | dropIter _ _ _ =>
          rw [storesPending_requeueRange] at hpending
          cases hpending
      | requeue _ _ _ _ =>
          rw [storesPending_requeueRange] at hpending
          cases hpending
      | _ => cases hpending
  | lock _ _ _ =>
      rw [storesPending_dequeueEntry] at hpending
      cases hpending
  | foundEmpty _ _ _ _ _ _ =>
      cases hclosed : s.queue.enqueuingCapacity.isClosed <;>
        rw [hclosed] at hpending <;> cases hpending
  | _ => cases hpending

variable [DecidableEq T] {start : State T B α σ}
  {before : List ((T × Action α) × Event α)}

theorem pending_of_run (hinitial : Initial start)
    (hrun : Runs.Run SwapBufferQueue.step SizeOk start before s) (t : T)
    (hpending : (s.pcs t).storesPending = true) :
    (Ledger.ofTrace before).taken = 0 ∧ (Ledger.ofTrace before).batch ≠ [] := by
  revert t
  refine hrun.invariant (fun trace s => ∀ t, (s.pcs t).storesPending = true →
    (Ledger.ofTrace trace).taken = 0 ∧ (Ledger.ofTrace trace).batch ≠ []) ?_ ?_
  · intro t hpending
    rw [hinitial.2] at hpending
    cases hpending
  · rintro trace state state' ⟨t, action⟩ event hprefix ih hlabel hstep t' hpending
    have hsim := sim_of_run hinitial (fun _ _ h => h) hprefix
    have hsim' := hsim.step hlabel hstep
    obtain ⟨q', pc', hmove, rfl⟩ := step_cases hstep
    rw [Ledger.ofTrace_append_singleton]
    change (Function.update state.pcs t pc' t').storesPending = true at hpending
    by_cases ht' : t' = t
    · rw [ht', Function.update_self] at hpending
      obtain ⟨rfl, htaken, hbatch⟩ := hsim.pending_step hmove hpending
      exact ⟨htaken, hbatch⟩
    · -- The dequeue that gives up holds the lock, so this step is not a consumer's.
      rw [Function.update_of_ne ht'] at hpending
      obtain ⟨htaken, hbatch⟩ := ih t' hpending
      have hholds : (state.pcs t').holds = true := by
        generalize state.pcs t' = pc at hpending
        cases pc with
        | storeDequeuing _ _ => rfl
        | _ => cases hpending
      have hfree : (state.pcs t).holds = false :=
        Bool.eq_false_iff.mpr fun hmine => ht' (hsim.exclusive hholds hmine)
      cases hsim.batchMove hmove hsim'.shared with
      | keeps _ _ hkeep htaken' _ => exact ⟨htaken'.trans htaken, hkeep ▸ hbatch⟩
      | consumes i values _ _ _ =>
          generalize state.pcs t = pc at hmove hfree
          cases hmove <;> cases hfree
      | swaps _ hnil _ _ => exact absurd hnil hbatch
      | releases _ hnil _ => exact absurd hnil hbatch

end Pending

section Drain

variable [DecidableEq T]

/-- `next` of an iterator that is not exhausted removes its first element. -/
theorem Sim.step_next (hsim : Sim s g) {i : Fin 2} {lo hi : Nat}
    (hpc : s.pcs t = .iter i lo hi) (hlt : lo < hi) :
    ∃ value b, SwapBufferQueue.step s (t, .next) =
      some (⟨s.queue.setBuffer i b, Function.update s.pcs t (.iter i (lo + 1) hi)⟩,
        .consumed i [value]) := by
  have hrange : Range s.queue g i lo hi := by
    have hthread := hsim.thread t
    rwa [hpc] at hthread
  have hfits := hrange.fits
  have hstop := hrange.stop_eq
  obtain ⟨value, hcell, -⟩ := hrange.exists_head hsim.shared hlt
  obtain ⟨b, hremove, -⟩ := LawfulBuffer.remove_spec hcell (by omega)
  have hlocked := hsim.locked_of_holds (t := t) (by rw [hpc]; rfl)
  refine ⟨value, b, step_of_act hpc ?_⟩
  simp only [Queue.act]
  rw [if_neg (Nat.not_le_of_lt hlt), if_neg (not_not.mpr hlocked), hremove]

/-- An iterator can be drained to its end; no word and no length changes. -/
theorem execute_nexts (count : Nat) : ∀ {s : State T B α σ} {g : Ledger T α}
    {i : Fin 2} (lo : Nat), Sim s g → s.pcs t = .iter i lo (lo + count) →
    ∃ trace s' g', Runs.execute SwapBufferQueue.step s
        (List.replicate count (t, .next)) = some (trace, s') ∧
      Sim s' g' ∧ s'.pcs t = .iter i (lo + count) (lo + count) ∧
      s'.queue.enqueuingCapacity = s.queue.enqueuingCapacity ∧
      s'.queue.buffersLength = s.queue.buffersLength ∧
      s'.queue.capacity = s.queue.capacity := by
  induction count with
  | zero =>
      intro s g i lo hsim hpc
      exact ⟨[], s, g, rfl, hsim, hpc, rfl, rfl, rfl⟩
  | succ count ih =>
      intro s g i lo hsim hpc
      obtain ⟨value, b, hstep⟩ := hsim.step_next hpc (by omega)
      have hsim' := hsim.step (sizeOk_of_value_eq_none rfl) hstep
      obtain ⟨trace, s', g', hrest, hend, hpc', henqueuing, hlength, hcapacity⟩ :=
        ih (lo + 1) hsim' (by
          change Function.update s.pcs t _ t = _
          rw [Function.update_self, show lo + 1 + count = lo + (count + 1) by omega])
      rw [List.replicate_succ]
      refine ⟨_, s', g', Runs.execute_cons hstep hrest, hend, ?_, henqueuing, hlength,
        hcapacity⟩
      rw [hpc', show lo + 1 + count = lo + (count + 1) by omega]

omit [DecidableEq T] in
/-- The clear of a released range takes out what is left of the batch. -/
theorem Range.run_clear {q : Queue B} (hshared : Shared q g) {i : Fin 2} {lo hi : Nat}
    (hrange : Range q g i lo hi) :
    ∃ b, q.run false (.releaseClear i lo hi : Pc α σ) = some (q.setBuffer i b,
      .releaseLength i, .consumed i ((contents (g.tiles i)).drop lo)) := by
  have hstop := hrange.length_drop
  obtain ⟨b, hclear, -⟩ := LawfulBuffer.clear_spec (hrange.holds_contents hshared)
    (by rw [hstop, hrange.stop_eq]; exact hrange.fits)
  rw [hstop] at hclear
  refine ⟨b, ?_⟩
  rw [Queue.run, hclear]

theorem Sim.execute_release (hsim : Sim s g) {i : Fin 2} {lo hi : Nat}
    (hpc : s.pcs t = .releaseClear i lo hi) :
    ∃ trace s', Runs.execute SwapBufferQueue.step s
        [(t, .run false), (t, .run false), (t, .run false)] = some (trace, s') ∧
      Released s.queue i s'.queue := by
  have hrange : Range s.queue g i lo hi := by
    have hthread := hsim.thread t
    rwa [hpc] at hthread
  obtain ⟨b, hcleared⟩ := hrange.run_clear hsim.shared
  refine ⟨_, _, Runs.execute_cons (step_of_act hpc hcleared)
    (Runs.execute_cons (step_of_act (Function.update_self _ _ _) rfl)
      (Runs.execute_cons (step_of_act (Function.update_self _ _ _) rfl) rfl)), ?_⟩
  exact ⟨rfl, rfl, rfl, rfl⟩

/-- Dropping a slice and draining it before the drop release the buffer alike. -/
theorem Sim.execute_drop (hsim : Sim s g) {i : Fin 2} {lo hi : Nat} {slice : σ}
    (hpc : s.pcs t = .slice i lo hi slice) :
    (∃ trace s', Runs.execute SwapBufferQueue.step s (dropLabels t) = some (trace, s') ∧
      Released s.queue i s'.queue) ∧
    ∃ trace s', Runs.execute SwapBufferQueue.step s (drainLabels t (hi - lo)) =
        some (trace, s') ∧ Released s.queue i s'.queue := by
  have hle : lo ≤ hi := by
    have hthread := hsim.thread t
    rw [hpc] at hthread
    exact hthread.1.le
  constructor
  · have hdrop : SwapBufferQueue.step s (t, .drop) = some (⟨s.queue,
        Function.update s.pcs t (.releaseClear i lo hi)⟩, .silent) :=
      step_of_act hpc rfl
    obtain ⟨trace, s', hrest, hreleased⟩ :=
      (hsim.step (sizeOk_of_value_eq_none rfl) hdrop).execute_release (Function.update_self _ _ _)
    exact ⟨_, s', Runs.execute_cons hdrop hrest, hreleased⟩
  · have hinto : SwapBufferQueue.step s (t, .intoIter) = some (⟨s.queue,
        Function.update s.pcs t (.iter i lo hi)⟩, .silent) :=
      step_of_act hpc rfl
    obtain ⟨drained, middle, g', hnexts, hmiddle, hpc', henqueuing, hlength, hcapacity⟩ :=
      execute_nexts (t := t) (i := i) (hi - lo) lo
        (hsim.step (sizeOk_of_value_eq_none rfl) hinto) (by
          change Function.update s.pcs t _ t = _
          rw [Function.update_self, Nat.add_sub_of_le hle])
    rw [Nat.add_sub_of_le hle] at hpc'
    have hdrop : SwapBufferQueue.step middle (t, .drop) = some (⟨middle.queue,
        Function.update middle.pcs t (.releaseClear i hi hi)⟩, .silent) := by
      apply step_of_act hpc'
      simp [Queue.act, requeueRange]
    obtain ⟨trace, s', hrest, hreleased⟩ := (hmiddle.step
      (sizeOk_of_value_eq_none rfl) hdrop).execute_release (Function.update_self _ _ _)
    refine ⟨_, s', Runs.execute_cons hinto (Runs.execute_append hnexts
      (Runs.execute_cons hdrop hrest)), ?_⟩
    refine ⟨hreleased.enqueuing.trans henqueuing, hreleased.dequeuing, ?_,
      hreleased.capacity.trans hcapacity⟩
    rw [hreleased.length]
    change Function.update middle.queue.buffersLength i 0 = _
    rw [hlength]

end Drain

section Identity

variable [DecidableEq T] {start s' : State T B α σ}
  {before after : List ((T × Action α) × Event α)}

/-- What a dequeue that returned `Pending` left: a whole batch, the content of the
enqueuing buffer at the last swap. -/
theorem wholeBatch_of_pending (hinitial : Initial start)
    (hbefore : Runs.Run SwapBufferQueue.step SizeOk start before s)
    (hpending : ReturnedPending before s) :
    ∃ i hi earlier label j later, 0 < hi ∧ Undelivered s (i, 0, hi) ∧
      before = earlier ++ (label, .swapped j) :: later ∧ NoSwap later ∧
      (View.ofTrace before).batch = (View.ofTrace earlier).tail := by
  have hsim := sim_of_run hinitial (fun _ _ h => h) hbefore
  have hview := view_of_run hinitial hbefore
  obtain ⟨previous, t, spurious, dequeuing, rfl, hpc⟩ := hpending
  obtain ⟨state, hprefix, hlabel, hstep⟩ := hbefore.snoc_inv
  have hstored : (state.pcs t).storesPending = true ∧
      s.queue.dequeuingLength ≠ dequeuingLocked := by
    have hsim₀ := sim_of_run hinitial (fun _ _ h => h) hprefix
    have hthread := hsim₀.thread t
    obtain ⟨q', pc', hmove, rfl⟩ := step_cases hstep
    change Function.update state.pcs t pc' t = _ at hpc
    rw [Function.update_self] at hpc
    generalize state.pcs t = pc at hmove hthread
    cases hmove with
    | unlock _ outcome _ =>
        cases hpc
        exact ⟨rfl, hthread.word_ne_locked hsim₀.shared⟩
  obtain ⟨htaken, hne⟩ := pending_of_run hinitial hprefix t hstored.1
  have hledger : Ledger.ofTrace (previous ++ [((t, .run spurious), .unlocked dequeuing)]) =
      Ledger.ofTrace previous := by
    rw [Ledger.ofTrace_append_singleton]
    rfl
  rw [← hledger] at htaken hne
  obtain ⟨earlier, label, j, later, htrace, hnoswap, htail, hcount⟩ :=
    fromSwap_of_run hinitial hbefore hne
  rw [htaken] at hcount
  rw [List.length_eq_zero_iff.mp hcount.symm, List.nil_append] at htail
  obtain ⟨⟨i, lo, hi⟩, hrange⟩ : ∃ range, Undelivered s range :=
    ⟨_, Or.inl ⟨hstored.2, rfl⟩⟩
  have hlength : lo + _ = hi := (hsim.lies_of_undelivered hrange).length
  have hpos := List.length_pos_iff.mpr hne
  obtain ⟨-, hstart, -⟩ := hsim.range_of_undelivered hrange (by omega)
  rw [htaken] at hstart
  subst hstart
  refine ⟨i, hi, earlier, label, j, later, by omega, hrange, htrace, hnoswap, ?_⟩
  rw [htail, ← hview]
  rfl

/-- A batch keeps its identity.  A dequeue that returned `Pending` leaves everything
that was reserved before the swap; and wherever a batch is, stored, live in a slice or
an iterator, or being dequeued, as long as not all of it is consumed no other swap is
made, what is consumed is the front of it, and a slice has the range that is left of it
and shows just that.  A slice that is drained to its end before it is dropped leaves
the words and lengths it would have left undrained. -/
theorem batch_keeps_identity (hinitial : Initial start)
    (hbefore : Runs.Run SwapBufferQueue.step SizeOk start before s) :
    (ReturnedPending before s →
      ∃ i hi earlier label j later, 0 < hi ∧ Undelivered s (i, 0, hi) ∧
        before = earlier ++ (label, .swapped j) :: later ∧ NoSwap later ∧
        (View.ofTrace before).batch = (View.ofTrace earlier).tail) ∧
    (∀ i lo hi, Undelivered s (i, lo, hi) → lo < hi →
      (View.ofTrace before).batch.length = hi - lo ∧
      ∀ after s', Runs.Run SwapBufferQueue.step SizeOk s after s' →
        (consumedElements after).length < hi - lo →
          NoSwap after ∧
          consumedElements after =
            (View.ofTrace before).batch.take (consumedElements after).length ∧
          ∀ t j first last slice, s'.pcs t = .slice j first last slice →
            j = i ∧ first = lo + (consumedElements after).length ∧ last = hi ∧
              LawfulBuffer.Shows B slice
                ((View.ofTrace before).batch.drop (consumedElements after).length)) ∧
    ∀ t i lo hi slice, s.pcs t = .slice i lo hi slice →
      (∃ trace s', Runs.execute SwapBufferQueue.step s (dropLabels t) =
          some (trace, s') ∧ Released s.queue i s'.queue) ∧
      ∃ trace s', Runs.execute SwapBufferQueue.step s (drainLabels t (hi - lo)) =
          some (trace, s') ∧ Released s.queue i s'.queue := by
  have hsim := sim_of_run hinitial (fun _ _ h => h) hbefore
  have hview : (Ledger.ofTrace before).batch = (View.ofTrace before).batch :=
    congrArg View.batch (view_of_run hinitial hbefore)
  refine ⟨wholeBatch_of_pending hinitial hbefore, ?_, ?_⟩
  · intro i lo hi hrange hlt
    obtain ⟨hindex, hstart, hstop⟩ := hsim.range_of_undelivered hrange hlt
    rw [← hview]
    refine ⟨by omega, ?_⟩
    intro after s' hafter hleft
    have hsame := sameBatch_of_run hinitial hbefore hafter (by omega)
    have hsim' := sim_of_run hinitial (fun _ _ h => h) (hbefore.append hafter)
    have hlength := congrArg List.length hsame.batch
    rw [List.length_append] at hlength
    have hdrop : (Ledger.ofTrace (before ++ after)).batch =
        (Ledger.ofTrace before).batch.drop (consumedElements after).length := by
      rw [hsame.batch, List.drop_left]
    refine ⟨hsame.noSwap, ?_, ?_⟩
    · rw [hsame.batch, List.take_left]
    · intro t j first last slice hpc
      have hthread := hsim'.thread t
      rw [hpc] at hthread
      obtain ⟨hslice, hshows⟩ := hthread
      have hlies := hslice.lies hsim'
      have hlast : first + _ = last := hlies.length
      have hfirst := hslice.start_eq
      rw [hsame.taken] at hfirst
      refine ⟨?_, by omega, by omega, ?_⟩
      · rw [eq_other_of_ne hslice.other, hsame.enqueuing, hindex]
      · rw [← hdrop, hslice.batch_eq]
        exact hshows
  · intro t i lo hi slice hpc
    exact hsim.execute_drop hpc

/-- A value of three elements is enqueued and dequeued. -/
def dequeuedLabels : List (Nat × Action Nat) :=
  [(0, .tryEnqueue [7, 8, 9])] ++ List.replicate 4 (0, .run false) ++
    [(1, .tryDequeue)] ++ List.replicate 10 (1, .run false)

/-- An iterator dropped after one of three elements; the rest is dequeued again behind
a value enqueued meanwhile. -/
theorem batch_keeps_identity_after_one_next :
    ∃ (start : State Nat (VecBuffer Nat) Nat (List Nat)) (before : _)
        (s : State Nat (VecBuffer Nat) Nat (List Nat)) (after : _)
        (s' : State Nat (VecBuffer Nat) Nat (List Nat)) (i : Fin 2),
      Initial start ∧ Runs.Run SwapBufferQueue.step SizeOk start before s ∧
      Runs.Run SwapBufferQueue.step SizeOk s after s' ∧
      s.pcs 1 = .slice i 0 3 [7, 8, 9] ∧ s'.pcs 1 = .slice i 1 3 [8, 9] ∧
      consumedElements after = (View.ofTrace before).batch.take 1 := by
  have hbefore := Runs.run_of_isSome SwapBufferQueue.step SizeOk
    (State.ofQueue ((Queue.withCapacity 3).get (by decide +kernel)) :
      State Nat (VecBuffer Nat) Nat (List Nat))
    dequeuedLabels (by decide +kernel) (by decide +kernel)
  have hafter := Runs.run_of_isSome SwapBufferQueue.step SizeOk
    ((Runs.execute SwapBufferQueue.step
      (State.ofQueue ((Queue.withCapacity 3).get (by decide +kernel)) :
        State Nat (VecBuffer Nat) Nat (List Nat)) dequeuedLabels).get
      (by decide +kernel)).2
    (List.flatten [
      [(1, .intoIter), (1, .next), (1, .drop), (1, .run false), (0, .tryEnqueue [4])],
      List.replicate 4 (0, .run false), [(1, .tryDequeue)],
      List.replicate 3 (1, .run false)])
    (by decide +kernel) (by decide +kernel)
  have hinitial := initial_withCapacity (T := Nat) (B := VecBuffer Nat)
    (show (Queue.withCapacity 3).isSome = true by decide +kernel)
  have hidentity := (batch_keeps_identity hinitial hbefore).2.1 ⟨0, Nat.zero_lt_two⟩ 0 3
    (Or.inr ⟨1, by decide +kernel⟩) (by decide)
  obtain ⟨-, hconsumed, -⟩ := hidentity.2 _ _ hafter (by decide +kernel)
  exact ⟨_, _, _, _, _, ⟨0, Nat.zero_lt_two⟩, hinitial, hbefore, hafter,
    by decide +kernel, by decide +kernel, hconsumed⟩

end Identity

end SwapBufferQueue
