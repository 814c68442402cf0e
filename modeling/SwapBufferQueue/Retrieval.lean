/-
What is left in the queue can be taken out of it.  The reservations in flight are
acknowledged, whoever holds the lock gives it back, and an idle activity dequeues batch
after batch.  All it takes is a holder that can go on with its call.
-/
import SwapBufferQueue.TryDequeue
import SwapBufferQueue.StagedInsertion

namespace SwapBufferQueue

universe u v w x

open Tiling

variable {T : Type x} {B : Type u} {α : Type v} {σ : Type w}

/-- The steps that only serve what is there: `try_dequeue`, the drop of a slice or of
an iterator, and the calls in progress going on. -/
def Serving (_ : State T B α σ) (label : T × Action α) : Prop :=
  label.2 = .tryDequeue ∨ label.2 = .drop ∨ ∃ spurious, label.2 = .run spurious

theorem Serving.sizeOk {s : State T B α σ} {label : T × Action α}
    (hserving : Serving s label) : SizeOk s label := by
  apply sizeOk_of_value_eq_none
  rcases hserving with haction | haction | ⟨spurious, haction⟩
  · rw [haction]
    rfl
  · rw [haction]
    rfl
  · rw [haction]
    rfl

theorem Alone.serving {t : T} {s : State T B α σ} {label : T × Action α}
    (halone : Alone t s label) : Serving s label :=
  Or.inr (Or.inr halone.2)

section Served

variable [DecidableEq T] [Buffer B α σ]

/-- Serving steps lead from the one state to the other, and from the one ledger to the
other. -/
def Served (s : State T B α σ) (g : Ledger T α) (s' : State T B α σ)
    (g' : Ledger T α) : Prop :=
  ∃ more, Runs.Run SwapBufferQueue.step Serving s more s' ∧ g' = g.after more

variable {s s' s'' : State T B α σ} {g g' g'' : Ledger T α} {t : T}

theorem Served.refl (s : State T B α σ) (g : Ledger T α) : Served s g s g :=
  ⟨[], Runs.Run.nil, rfl⟩

theorem Served.trans (hfirst : Served s g s' g') (hsecond : Served s' g' s'' g'') :
    Served s g s'' g'' := by
  obtain ⟨first, hrun, rfl⟩ := hfirst
  obtain ⟨second, hrun', rfl⟩ := hsecond
  exact ⟨first ++ second, hrun.append hrun', (g.after_append first second).symm⟩

theorem Served.of_step {action : Action α} {event : Event α}
    (hserving : Serving s (t, action))
    (hstep : SwapBufferQueue.step s (t, action) = some (s', event)) :
    Served s g s' (g.next t event) :=
  ⟨[((t, action), event)], Runs.Run.nil.snoc hserving hstep, rfl⟩

theorem Served.of_run {spurious : Bool} {event : Event α}
    (hstep : SwapBufferQueue.step s (t, .run spurious) = some (s', event)) :
    Served s g s' (g.next t event) :=
  Served.of_step (Or.inr (Or.inr ⟨spurious, rfl⟩)) hstep

theorem Served.of_act {pc pc' : Pc α σ} {q' : Queue B} {event : Event α}
    (hpc : s.pcs t = pc) (hrun : s.queue.run false pc = some (q', pc', event)) :
    Served s g ⟨q', Function.update s.pcs t pc'⟩ (g.next t event) :=
  Served.of_run (step_of_act hpc hrun)

theorem Served.of_alone {more : List ((T × Action α) × Event α)}
    (hrun : Runs.Run SwapBufferQueue.step (Alone t) s more s') :
    Served s g s' (g.after more) :=
  ⟨more, hrun.mono fun _ _ => Alone.serving, rfl⟩

omit [DecidableEq T] [Buffer B α σ] in
/-- What holds of the others holds of all when it holds of the one that moved. -/
theorem forall_pcs {P : Pc α σ → Prop} (hothers : ∀ t', t' ≠ t → s'.pcs t' = s.pcs t')
    (hself : P (s'.pcs t)) (hall : ∀ t', t' ≠ t → P (s.pcs t')) (t' : T) :
    P (s'.pcs t') := by
  by_cases ht' : t' = t
  · rw [ht']
    exact hself
  · rw [hothers t' ht']
    exact hall t' ht'

theorem pcs_of_alone {more : List ((T × Action α) × Event α)}
    (hrun : Runs.Run SwapBufferQueue.step (Alone t) s more s') {t' : T} (hne : t' ≠ t) :
    s'.pcs t' = s.pcs t' := by
  refine hrun.invariant (fun _ s' => s'.pcs t' = s.pcs t') rfl ?_
  rintro more state state' ⟨t₁, action⟩ event - hsame ⟨rfl, -⟩ hstep
  obtain ⟨q', pc', -, rfl⟩ := step_cases hstep
  change Function.update state.pcs t₁ pc' t' = _
  rw [Function.update_of_ne hne, hsame]

variable [LawfulBuffer B]

theorem Served.sim (hserved : Served s g s' g') (hsim : Sim s g) : Sim s' g' := by
  obtain ⟨more, hrun, rfl⟩ := hserved
  exact hsim.of_run (fun _ _ => Serving.sizeOk) hrun

end Served

section Settle

/-- How many steps the owner of a value has still to make for it. -/
def Status.rank : Status T → Nat
  | .reserved _ => 2
  | .written _ => 1
  | _ => 0

/-- How many steps are missing for all reservations to be acknowledged. -/
def Ledger.unsettled (g : Ledger T α) : Nat :=
  ∑ i, ((g.tiles i).map fun tile => tile.tag.rank).sum

variable {g : Ledger T α}

theorem Ledger.unsettled_retag_lt {i : Fin 2} {f : Status T → Status T}
    (hle : ∀ status, (f status).rank ≤ status.rank) {tile : Tile (Status T) α}
    (htile : tile ∈ g.tiles i) (hlt : (f tile.tag).rank < tile.tag.rank) :
    (g.setTiles i (retag f (g.tiles i))).unsettled < g.unsettled := by
  have hmap : ∀ tiles : List (Tile (Status T) α),
      ((retag f tiles).map fun tile => tile.tag.rank).sum =
        (tiles.map fun tile => (f tile.tag).rank).sum := by
    intro tiles
    rw [retag, List.map_map]
    rfl
  refine Finset.sum_lt_sum (fun j _ => ?_) ⟨i, Finset.mem_univ i, ?_⟩
  · rw [Ledger.tiles_setTiles]
    split
    · rename_i hj
      subst hj
      rw [hmap]
      exact List.sum_le_sum fun tile _ => hle tile.tag
    · exact Nat.le_refl _
  · rw [Ledger.tiles_setTiles, if_pos rfl, hmap]
    exact List.sum_lt_sum _ _ (fun tile _ => hle tile.tag) ⟨tile, htile, hlt⟩

theorem Status.rank_write_le [DecidableEq T] (t : T) (status : Status T) :
    (status.write t).rank ≤ status.rank := by
  unfold write
  split
  · rename_i hstatus
    rw [hstatus]
    exact Nat.le_succ 1
  · exact Nat.le_refl _

theorem Status.rank_acknowledge_le [DecidableEq T] (t : T) (status : Status T) :
    (status.acknowledge t).rank ≤ status.rank := by
  unfold acknowledge
  split
  · exact Nat.zero_le _
  · exact Nat.le_refl _

variable [DecidableEq T] [Buffer B α σ] [LawfulBuffer B] {s : State T B α σ} {t : T}

theorem Sim.step_owner (hsim : Sim s g) {i : Fin 2} {tile : Tile (Status T) α}
    (htile : tile ∈ g.tiles i) (hown : tile.tag.owner = some t) :
    ∃ q' pc' event, Transition s.queue (s.pcs t) (.run false) q' pc' event ∧
      SwapBufferQueue.step s (t, .run false) =
        some (⟨q', Function.update s.pcs t pc'⟩, event) ∧
      (s.pcs t).inFlight ≠ none ∧ pc'.holds = false ∧
      (g.next t event).unsettled < g.unsettled := by
  obtain ⟨position, hat⟩ := exists_at_of_mem htile
  have hthread := hsim.thread t
  obtain ⟨enqueuing, rfl, hposition, ⟨htag, hpc⟩ | ⟨htag, hpc⟩⟩ := hsim.owned hat hown
  · rw [hpc] at hthread
    have hle := hthread.remaining_le
    have hfits : tile.elems.length ≤ enqueuing.remainingCapacity := hthread.fits
    have hinside : Buffer.capacity (s.queue.buffers enqueuing.bufferIndex) -
        enqueuing.remainingCapacity + tile.elems.length ≤
          Buffer.capacity (s.queue.buffers enqueuing.bufferIndex) := by omega
    obtain ⟨b, hinsert, -⟩ := LawfulBuffer.insertInto_spec hinside
    have hrun : s.queue.run false (.enqueueInsert tile.elems enqueuing : Pc α σ) =
        some (s.queue.setBuffer enqueuing.bufferIndex b,
          .enqueueAcknowledge tile.elems enqueuing,
          .inserted enqueuing.bufferIndex tile.elems) := by
      simp only [Queue.run]
      rw [if_neg (Nat.not_lt_of_le hle), hinsert]
    rw [hpc]
    refine ⟨_, _, _, Queue.run_cases hrun, step_of_act hpc hrun, by simp [Pc.inFlight],
      rfl, Ledger.unsettled_retag_lt (Status.rank_write_le t) htile ?_⟩
    rw [htag, Status.write, if_pos rfl]
    exact Nat.lt_succ_self 1
  · rw [hpc]
    refine ⟨_, _, _, Queue.run_cases rfl, step_of_act hpc rfl, by simp [Pc.inFlight],
      rfl, Ledger.unsettled_retag_lt (Status.rank_acknowledge_le t) htile ?_⟩
    rw [htag, Status.acknowledge, if_pos rfl]
    exact Nat.one_pos

theorem Sim.exists_settled (hsim : Sim s g) :
    ∃ s' g', Served s g s' g' ∧ (∀ t, (s'.pcs t).inFlight = none) ∧
      (∀ t, s'.pcs t = s.pcs t ∨
        (s.pcs t).inFlight ≠ none ∧ (s'.pcs t).holds = false) ∧
      ∀ i, Buffer.capacity (s'.queue.buffers i) =
        Buffer.capacity (s.queue.buffers i) := by
  induction hrank : g.unsettled using Nat.strong_induction_on generalizing s g with
  | h n ih =>
      by_cases howned : ∃ i, ∃ tile ∈ g.tiles i, ∃ t, tile.tag.owner = some t
      · obtain ⟨i, tile, htile, t, hown⟩ := howned
        obtain ⟨q', pc', event, hmove, hstep, hflight, hfree, hlt⟩ :=
          hsim.step_owner htile hown
        have hserved : Served s g _ _ := Served.of_run hstep
        obtain ⟨s', g', hrest, hnone, hpcs, hcapacity⟩ :=
          ih _ (hrank ▸ hlt) (hserved.sim hsim) rfl
        refine ⟨s', g', hserved.trans hrest, hnone, ?_, ?_⟩
        · intro t'
          by_cases ht' : t' = t
          · subst ht'
            refine Or.inr ⟨hflight, ?_⟩
            rcases hpcs t' with hsame | ⟨-, hfree'⟩
            · rw [hsame]
              change (Function.update s.pcs t' pc' t').holds = false
              rw [Function.update_self]
              exact hfree
            · exact hfree'
          · have hother := hpcs t'
            rwa [show State.pcs (⟨q', Function.update s.pcs t pc'⟩ : State T B α σ) t' =
              s.pcs t' from Function.update_of_ne ht' _ _] at hother
        · intro j
          have hholds : (s.pcs t).holds = false := by
            generalize s.pcs t = pc at hflight
            cases pc with
            | enqueueInsert _ _ => rfl
            | enqueueAcknowledge _ _ => rfl
            | _ => exact absurd rfl hflight
          exact (hcapacity j).trans (hmove.capacity_eq hholds j)
      · refine ⟨s, g, Served.refl s g, ?_, fun _ => Or.inl rfl, fun _ => rfl⟩
        intro t
        have hthread := hsim.thread t
        generalize s.pcs t = pc at hthread
        cases pc with
        | enqueueInsert value enqueuing =>
            exact absurd ⟨_, _, hthread.at_index.mem, t, rfl⟩ howned
        | enqueueAcknowledge value enqueuing =>
            exact absurd ⟨_, _, hthread.at_index.mem, t, rfl⟩ howned
        | _ => rfl

end Settle

section Holder

variable [DecidableEq T] [Buffer B α σ] {s s' : State T B α σ} {t : T}

/-- The holder of the lock is in a call, has a slice or an iterator, or has
panicked. -/
theorem Pc.holds_cases {pc : Pc α σ} (hholds : pc.holds = true) :
    pc.dequeuing = true ∨ (∃ i start stop slice, pc = .slice i start stop slice) ∨
      (∃ i start stop, pc = .iter i start stop) ∨ ∃ panic, pc = .panicked panic := by
  cases pc with
  | idle _ => cases hholds
  | enqueueLoad _ => cases hholds
  | enqueueReserve _ _ _ => cases hholds
  | enqueueInsert _ _ => cases hholds
  | enqueueAcknowledge _ _ => cases hholds
  | slice i start stop slice => exact Or.inr (Or.inl ⟨i, start, stop, slice, rfl⟩)
  | iter i start stop => exact Or.inr (Or.inr (Or.inl ⟨i, start, stop, rfl⟩))
  | panicked panic => exact Or.inr (Or.inr (Or.inr ⟨panic, rfl⟩))
  | _ => exact Or.inl rfl

/-- The holder of the lock can go on: no argument of its call will make it panic, and
its buffer can be resized if it asks for it. -/
structure CanFinish (q : Queue B) (pc : Pc α σ) : Prop where
  staging : ∃ capacity, StagingOk capacity q pc
  resizes : pc.CanResize B

variable [LawfulBuffer B] {g : Ledger T α}

theorem Sim.exists_returned (hsim : Sim s g) (hdequeuing : (s.pcs t).dequeuing = true)
    (hfinish : CanFinish s.queue (s.pcs t)) :
    ∃ s' g', Served s g s' g' ∧ (∀ t', t' ≠ t → s'.pcs t' = s.pcs t') ∧
      ((∃ last, s'.pcs t = .idle last) ∨
        ∃ i start stop slice, s'.pcs t = .slice i start stop slice) := by
  obtain ⟨capacity, hstaging⟩ := hfinish.staging
  obtain ⟨more, s', hrun, hreturned⟩ := exists_completion hdequeuing hfinish.resizes
  have hstaged := hsim.staging_of_run ⟨hstaging, Or.inl hdequeuing, hfinish.resizes⟩
    (hrun.mono fun _ _ => Alone.continues)
  refine ⟨s', g.after more, Served.of_alone hrun, fun t' hne => pcs_of_alone hrun hne, ?_⟩
  have hok := hstaged.ok
  generalize s'.pcs t = pc at hreturned hok
  cases pc with
  | idle last => exact Or.inl ⟨last, rfl⟩
  | slice i start stop slice => exact Or.inr ⟨i, start, stop, slice, rfl⟩
  | panicked _ => exact hok.elim
  | _ => cases hreturned

theorem Sim.exists_dropped (hsim : Sim s g) {i : Fin 2} {lo hi : Nat} {slice : σ}
    (hpc : s.pcs t = .slice i lo hi slice) :
    ∃ s' g', Served s g s' g' ∧ (∀ t', t' ≠ t → s'.pcs t' = s.pcs t') ∧
      s'.pcs t = .idle (some .done) ∧ g'.batch = [] ∧ g'.tail = g.tail := by
  have hrange : Range s.queue g i lo hi := by
    have hthread := hsim.thread t
    rw [hpc] at hthread
    exact hthread.1
  obtain ⟨b, hcleared⟩ := hrange.run_clear hsim.shared
  have hdrop : SwapBufferQueue.step s (t, .drop) = some (⟨s.queue,
      Function.update s.pcs t (.releaseClear i lo hi)⟩, .silent) :=
    step_of_act hpc rfl
  have hserved : Served s g _ _ := (Served.of_step (Or.inr (Or.inl rfl)) hdrop).trans
    (Served.of_act (Function.update_self _ _ _) hcleared)
  have hreleased := hserved.trans (Served.of_act (Function.update_self _ _ _) rfl)
  have hrange' := (hserved.sim hsim).self
  have hview := congrArg View.batch (Range.view_released (t := t) hrange')
  have hview' := congrArg View.tail (Range.view_released (t := t) hrange')
  refine ⟨_, _, hreleased.trans (Served.of_act (Function.update_self _ _ _) rfl), ?_,
    Function.update_self _ _ _, ?_, ?_⟩
  · intro t' hne
    simp only [Function.update_of_ne hne]
  · refine Eq.trans hview ?_
    change Ledger.batch _ = []
    rw [Range.batch_eq hrange', extent, List.drop_length]
  · exact hview'

theorem Sim.exists_idle_of_dequeuing (hsim : Sim s g)
    (hdequeuing : (s.pcs t).dequeuing = true) (hfinish : CanFinish s.queue (s.pcs t)) :
    ∃ s' g', Served s g s' g' ∧ (∀ t', t' ≠ t → s'.pcs t' = s.pcs t') ∧
      ∃ last, s'.pcs t = .idle last := by
  obtain ⟨s', g', hserved, hothers, hidle | ⟨i, start, stop, slice, hpc⟩⟩ :=
    hsim.exists_returned hdequeuing hfinish
  · exact ⟨s', g', hserved, hothers, hidle⟩
  · obtain ⟨s'', g'', hdropped, hothers', hidle, -⟩ :=
      (hserved.sim hsim).exists_dropped hpc
    exact ⟨s'', g'', hserved.trans hdropped,
      fun t' hne => (hothers' t' hne).trans (hothers t' hne), _, hidle⟩

omit [DecidableEq T] in
theorem canFinish_requeueRange {q : Queue B} {i : Fin 2} {start stop : Nat}
    (hself : ThreadInv q g t (requeueRange i start stop : Pc α σ)) :
    (requeueRange i start stop : Pc α σ).dequeuing = true ∧
      CanFinish q (requeueRange i start stop : Pc α σ) := by
  revert hself
  apply requeueRange_elim (P := fun pc => ThreadInv q g t pc →
    pc.dequeuing = true ∧ CanFinish q pc)
  · intro _ hself
    cases hself.cause
  · exact fun _ _ => ⟨rfl, ⟨0, trivial⟩, trivial⟩
  · exact fun _ _ => ⟨rfl, ⟨0, trivial⟩, trivial⟩

theorem Sim.exists_idle (hsim : Sim s g) (hholds : (s.pcs t).holds = true)
    (hfinish : CanFinish s.queue (s.pcs t)) :
    ∃ s' g', Served s g s' g' ∧ (∀ t', t' ≠ t → s'.pcs t' = s.pcs t') ∧
      ∃ last, s'.pcs t = .idle last := by
  rcases Pc.holds_cases hholds with hdequeuing | ⟨i, start, stop, slice, hpc⟩ |
    ⟨i, start, stop, hpc⟩ | ⟨panic, hpc⟩
  · exact hsim.exists_idle_of_dequeuing hdequeuing hfinish
  · obtain ⟨s', g', hserved, hothers, hidle, -⟩ := hsim.exists_dropped hpc
    exact ⟨s', g', hserved, hothers, _, hidle⟩
  · have hdrop : SwapBufferQueue.step s (t, .drop) = some (⟨s.queue,
        Function.update s.pcs t (requeueRange i start stop)⟩, .silent) :=
      step_of_act hpc rfl
    have hserved : Served s g _ _ := Served.of_step (Or.inr (Or.inl rfl)) hdrop
    have hsim' := hserved.sim hsim
    obtain ⟨hdequeuing, hrequeue⟩ := canFinish_requeueRange hsim'.self
    obtain ⟨s', g', hrest, hothers, hidle⟩ := hsim'.exists_idle_of_dequeuing (t := t)
      (by simp only [Function.update_self]; exact hdequeuing)
      (by simp only [Function.update_self]; exact hrequeue)
    refine ⟨s', g', hserved.trans hrest, fun t' hne => (hothers t' hne).trans ?_, hidle⟩
    exact Function.update_of_ne hne _ _
  · obtain ⟨capacity, hstaging⟩ := hfinish.staging
    rw [hpc] at hstaging
    exact hstaging.elim

end Holder

section Drain

/-- How many elements a view holds besides the consumed ones. -/
def View.size (view : View α) : Nat :=
  view.batch.length + view.tail.length + view.staged.length

variable [Buffer B α σ]

theorem Transition.size_le {q q' : Queue B} {pc pc' : Pc α σ} {spurious : Bool}
    {event : Event α} (hmove : Transition q pc (.run spurious) q' pc' event)
    {args : ResizeArgs α} {q₀ : Queue B} {g₀ g : Ledger T α}
    (halone : AloneInv args q₀ g₀ q g pc) (view : View α) :
    (view.next event).size ≤ view.size := by
  generalize haction : (Action.run spurious : Action α) = action at hmove
  cases hmove with
  | reserve _ _ => exact halone.elim
  | insert _ _ _ _ _ => exact halone.elim
  | acknowledge _ _ _ => exact halone.elim
  | stage _ _ _ _ _ _ _ _ _ _ => cases halone.1
  | swap _ _ _ =>
      change view.tail.length + view.staged.length + 0 ≤ view.size
      rw [View.size]
      omega
  | clear _ _ _ _ _ _ _ => exact halone.elim
  | release _ _ => exact halone.elim
  | remove _ _ _ _ _ _ _ => cases haction
  | _ => exact Nat.le_refl _

variable [DecidableEq T] [LawfulBuffer B] {s s' : State T B α σ} {g : Ledger T α} {t : T}

theorem Sim.size_le_of_alone (hsim : Sim s g) (hpc : s.pcs t = .dequeueLock .none)
    {more : List ((T × Action α) × Event α)}
    (hrun : Runs.Run SwapBufferQueue.step (Alone t) s more s') :
    (g.after more).view.size ≤ g.view.size := by
  refine hrun.invariant (fun more _ => (g.after more).view.size ≤ g.view.size)
    (Nat.le_refl _) ?_
  rintro more state state' ⟨t', action⟩ event hearlier hle ⟨rfl, spurious, rfl⟩ hstep
  obtain ⟨hstate, halone⟩ := aloneInv_of_run hsim hpc (by intro capa hcapa; cases hcapa)
    rfl hearlier
  obtain ⟨q', pc', hmove, -⟩ := step_cases hstep
  rw [Ledger.after_append]
  change ((g.after more).next t' event).view.size ≤ _
  rw [hstate.view_step hmove]
  exact Nat.le_trans (hmove.size_le halone _) hle

omit [DecidableEq T] in
theorem Sim.nil_of_concerned_eq_none (hsim : Sim s g)
    (hopen : s.queue.dequeuingLength ≠ dequeuingLocked) (hnone : s.queue.concerned = none) :
    g.batch = [] ∧ g.tail = [] := by
  have hlength := (hsim.stored hopen).batch.length_batch
  rw [Queue.concerned] at hnone
  split at hnone
  · cases hnone
  · rename_i hvacant
    split at hnone
    · cases hnone
    · rename_i hfull
      constructor
      · rw [← List.length_eq_zero_iff, hlength]
        exact not_not.mp hvacant
      · rw [Ledger.tail, hsim.shared.enqueuing_eq_nil_iff.mpr (not_not.mp hfull),
          contents_nil]

/-- One call of `try_dequeue`, when nobody is in its way, and the drop of the slice it
returns. -/
theorem Sim.exists_fewer (hsim : Sim s g) (hfree : ∀ t', (s.pcs t').holds = false)
    (hsettled : ∀ t', (s.pcs t').inFlight = none) {last : Option (Outcome α)}
    (hidle : s.pcs t = .idle last) {i : Fin 2} {length : Nat}
    (hconcerned : s.queue.concerned = some (i, length)) :
    ∃ s' g', Served s g s' g' ∧ (∀ t', t' ≠ t → s'.pcs t' = s.pcs t') ∧
      s'.pcs t = .idle (some .done) ∧
      g'.batch.length + g'.tail.length < g.batch.length + g.tail.length := by
  have hopen := hsim.unlocked_of_free hfree
  have hdone : ¬ Unacknowledged s i := by
    rintro ⟨t', value, enqueuing, hflight, -⟩
    rw [hsettled t'] at hflight
    cases hflight
  -- The call returns a slice of what is concerned.
  obtain ⟨called, hcall, hpc, hothers, ⟨more, s₁, hrun, hreturned⟩, hspec⟩ :=
    hsim.tryDequeue_alone hidle
  have hserved : Served s g called g := Served.of_step (Or.inl rfl) hcall
  have hcalled := hserved.sim hsim
  obtain ⟨halone, houtcome⟩ := hspec more s₁ hrun hreturned
  obtain ⟨hlength, slice, hslice, -⟩ := houtcome.slice i length hfree hconcerned hdone
  rw [hslice] at halone
  have hbatch := halone.1.batch
  have hpos := (hsim.concerns hopen hconcerned).pos
  have hsize := hcalled.size_le_of_alone hpc hrun
  have hstored := (hsim.stored hopen).batch
  have hstaged : g.staged = [] :=
    Ledger.staged_eq_nil_of_visible hstored.other hstored.visible
  -- Dropping it leaves the tail.
  have hreturn := hserved.trans (Served.of_alone hrun)
  obtain ⟨s₂, g₂, hdropped, hothers₂, hidle₂, hbatch₂, htail₂⟩ :=
    (hreturn.sim hsim).exists_dropped hslice
  refine ⟨s₂, g₂, hreturn.trans hdropped, ?_, hidle₂, ?_⟩
  · intro t' hne
    rw [hothers₂ t' hne, pcs_of_alone hrun hne, hothers t' hne]
  · change (g.after more).batch.length + (g.after more).tail.length +
      (g.after more).staged.length ≤ g.batch.length + g.tail.length + g.staged.length
      at hsize
    rw [hbatch, hlength, hstaged, List.length_nil] at hsize
    rw [hbatch₂, htail₂, List.length_nil]
    omega

theorem Sim.exists_emptied (hsim : Sim s g) (hfree : ∀ t', (s.pcs t').holds = false)
    (hsettled : ∀ t', (s.pcs t').inFlight = none) {last : Option (Outcome α)}
    (hidle : s.pcs t = .idle last) :
    ∃ s' g', Served s g s' g' ∧ s'.queue.dequeuingLength ≠ dequeuingLocked ∧
      g'.batch = [] ∧ g'.tail = [] := by
  induction hsize : g.batch.length + g.tail.length using Nat.strong_induction_on
    generalizing s g last with
  | h n ih =>
      cases hconcerned : s.queue.concerned with
      | none =>
          have hopen := hsim.unlocked_of_free hfree
          exact ⟨s, g, Served.refl s g, hopen,
            hsim.nil_of_concerned_eq_none hopen hconcerned⟩
      | some concerned =>
          obtain ⟨s₁, g₁, hserved, hothers, hidle₁, hlt⟩ :=
            hsim.exists_fewer hfree hsettled hidle hconcerned
          have hfree₁ := forall_pcs (P := fun pc => pc.holds = false) hothers
            (by rw [hidle₁]; rfl) fun t' _ => hfree t'
          have hsettled₁ := forall_pcs (P := fun pc => pc.inFlight = none) hothers
            (by rw [hidle₁]; rfl) fun t' _ => hsettled t'
          obtain ⟨s', g', hrest, hempty⟩ :=
            ih _ (hsize ▸ hlt) (hserved.sim hsim) hfree₁ hsettled₁ hidle₁ rfl
          exact ⟨s', g', hserved.trans hrest, hempty⟩

end Drain

section Retrieval

/-- A dequeue or a release in progress, a live slice or a live iterator. -/
def Pc.live : Pc α σ → Bool
  | .panicked _ => false
  | pc => pc.holds

/-- The activity can call the queue, at once or when it is done with the lock. -/
def Pc.available : Pc α σ → Bool
  | .idle _ => true
  | pc => pc.live

theorem Pc.holds_of_live {pc : Pc α σ} (hlive : pc.live = true) : pc.holds = true := by
  cases pc with
  | panicked _ => rfl
  | _ => exact hlive

theorem Pc.available_cases {pc : Pc α σ} (havailable : pc.available = true) :
    (∃ last, pc = .idle last) ∨ pc.live = true := by
  cases pc with
  | idle last => exact Or.inl ⟨last, rfl⟩
  | _ => exact Or.inr havailable

theorem Pc.inFlight_eq_none_of_available {pc : Pc α σ} (havailable : pc.available = true) :
    pc.inFlight = none := by
  cases pc with
  | enqueueInsert _ _ => cases havailable
  | enqueueAcknowledge _ _ => cases havailable
  | _ => rfl

variable [DecidableEq T] [Buffer B α σ]

/-- Serving steps can take the elements out, in order, and leave the queue unlocked. -/
def Retrievable (s : State T B α σ) (rest : List α) : Prop :=
  ∃ more s', Runs.Run SwapBufferQueue.step Serving s more s' ∧
    s'.queue.dequeuingLength ≠ dequeuingLocked ∧ rest <+: consumedElements more

theorem Ledger.accepted_prefix_after (more : List ((T × Action α) × Event α)) :
    ∀ g : Ledger T α, g.accepted <+: (g.after more).accepted := by
  induction more with
  | nil => exact fun g => List.prefix_refl _
  | cons entry more ih =>
      intro g
      refine List.IsPrefix.trans ?_ (ih (g.next entry.1.1 entry.2))
      cases entry.2 with
      | reserved _ _ => exact List.prefix_append _ _
      | swapped _ => exact List.prefix_append _ _
      | _ => exact List.prefix_refl _

variable [LawfulBuffer B] {s : State T B α σ} {g : Ledger T α} {t : T}

/-- Everything can be taken out as soon as one activity can call the queue and the
holder of the lock, if there is one, can go on. -/
theorem Sim.exists_taken_out (hsim : Sim s g) (havailable : (s.pcs t).available = true)
    (hfinish : ∀ t', (s.pcs t').holds = true → CanFinish s.queue (s.pcs t')) :
    ∃ s' g', Served s g s' g' ∧ s'.queue.dequeuingLength ≠ dequeuingLocked ∧
      g'.batch = [] ∧ g'.tail = [] := by
  obtain ⟨s₁, g₁, hserved, hsettled, hpcs, hcapacity⟩ := hsim.exists_settled
  have hsim₁ := hserved.sim hsim
  have hsame : s₁.pcs t = s.pcs t := by
    rcases hpcs t with hsame | ⟨hflight, -⟩
    · exact hsame
    · exact absurd (Pc.inFlight_eq_none_of_available havailable) hflight
  by_cases hlocked : ∃ t', (s₁.pcs t').holds = true
  · obtain ⟨t', hholds⟩ := hlocked
    have hsame' : s₁.pcs t' = s.pcs t' := by
      rcases hpcs t' with hsame' | ⟨-, hfree⟩
      · exact hsame'
      · rw [hfree] at hholds
        cases hholds
    have hfinish₁ : CanFinish s₁.queue (s₁.pcs t') := by
      rw [hsame'] at hholds ⊢
      obtain ⟨⟨capacity, hstaging⟩, hresizes⟩ := hfinish t' hholds
      exact ⟨⟨capacity, hstaging.congr hcapacity⟩, hresizes⟩
    obtain ⟨s₂, g₂, hreleased, hothers, last, hidle⟩ :=
      hsim₁.exists_idle hholds hfinish₁
    have hfree := forall_pcs (P := fun pc => pc.holds = false) hothers
      (by rw [hidle]; rfl) fun t'' hne =>
        Bool.eq_false_iff.mpr fun hother => hne (hsim₁.exclusive hother hholds)
    have hsettled₂ := forall_pcs (P := fun pc => pc.inFlight = none) hothers
      (by rw [hidle]; rfl) fun t'' _ => hsettled t''
    obtain ⟨s', g', hrest, hempty⟩ := (hreleased.sim hsim₁).exists_emptied hfree hsettled₂
      hidle
    exact ⟨s', g', (hserved.trans hreleased).trans hrest, hempty⟩
  · have hfree : ∀ t', (s₁.pcs t').holds = false := fun t' =>
      Bool.eq_false_iff.mpr fun hholds => hlocked ⟨t', hholds⟩
    rw [← hsame] at havailable
    rcases Pc.available_cases havailable with ⟨last, hidle⟩ | hlive
    · obtain ⟨s', g', hrest, hempty⟩ := hsim₁.exists_emptied hfree hsettled hidle
      exact ⟨s', g', hserved.trans hrest, hempty⟩
    · exact absurd ⟨t, Pc.holds_of_live hlive⟩ hlocked

/-- What was accepted and not consumed is retrievable. -/
theorem Sim.retrievable {trace : List ((T × Action α) × Event α)}
    (hsim : Sim s (Ledger.ofTrace trace)) (havailable : (s.pcs t).available = true)
    (hfinish : ∀ t', (s.pcs t').holds = true → CanFinish s.queue (s.pcs t')) :
    Retrievable s ((Ledger.ofTrace trace).batch ++ (Ledger.ofTrace trace).tail) := by
  obtain ⟨s', g', hserved, hopen, hbatch, htail⟩ :=
    hsim.exists_taken_out havailable hfinish
  have hsim' := hserved.sim hsim
  obtain ⟨more, hrun, rfl⟩ := hserved
  refine ⟨more, s', hrun, hopen, ?_⟩
  have horder := hsim.shared.order
  have horder' := hsim'.shared.order
  rw [hbatch, htail, List.append_nil, List.append_nil, ← Ledger.ofTrace_append,
    Ledger.consumed_ofTrace, consumedElements_append, Ledger.ofTrace_append] at horder'
  rw [Ledger.consumed_ofTrace, List.append_assoc] at horder
  have hprefix := (Ledger.accepted_prefix_after more (Ledger.ofTrace trace)).flatten
  rw [← horder, ← horder'] at hprefix
  exact (List.prefix_append_right_inj _).mp hprefix

end Retrieval

end SwapBufferQueue
