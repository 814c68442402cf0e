/-
The recipe over a queue of capacity zero.  A dequeue asks for as many cells as there are
values in the overflow and fills them all, finds the buffer of the enqueuers empty, and
swaps back to it; the enqueuers never see a free cell, and every value goes through the
mutex.
-/
import SwapBufferQueue.Growth

namespace SwapBufferQueue

universe u v w x

variable {T : Type x} {B : Type u} {α : Type v} {σ : Type w}

/-- Between the resize and the last swap the enqueuing buffer may be the filled one. -/
def Pc.exposed : Pc α σ → Bool
  | .dequeueResize _ _ => true
  | .dequeueInsert _ _ _ _ => true
  | .dequeuePublish _ => true
  | .dequeueLoad _ => true
  | .dequeueSwap _ _ _ _ => true
  | .dequeueLoadCapacity _ _ _ => true
  | .dequeueStoreCapacity _ _ _ => true
  | .dequeueNotify _ _ _ => true
  | _ => false

/-- A request for exactly the values that are inserted. -/
def AsksForOverflow (capacities : Capacities) (resize : ResizeArgs α) : Prop :=
  resize.capacity = some resize.insert.flatten.length ∧ capacities.enqueuing = 0

/-- The hidden buffer is filled, one of the two buffers has no cells. -/
def Capacities.Filled (capacities : Capacities) (length : Nat) : Prop :=
  capacities.hidden = length ∧ (capacities.enqueuing = 0 ∨ capacities.hidden = 0)

/-- After a swap the filled buffer is the enqueuing one only if it has to be swapped
back. -/
def Capacities.SwapsBack (capacities : Capacities) (attempt : Attempt) : Prop :=
  (0 < attempt.insertedLength → capacities.hidden = 0) ∧
    (attempt.insertedLength = 0 → capacities.enqueuing = 0)

def ZeroThread (capacities : Capacities) : Pc α σ → Prop
  | .dequeueLock resize => AsksForOverflow capacities resize
  | .dequeueResize _ resize => AsksForOverflow capacities resize ∨
      (resize = .none ∧ capacities.hidden = 0)
  | .dequeueInsert _ _ values length => capacities.Filled (length + values.flatten.length)
  | .dequeuePublish attempt => capacities.Filled attempt.insertedLength
  | .dequeueLoad attempt => capacities.Filled attempt.insertedLength
  | .dequeueSwap attempt _ _ _ => capacities.Filled attempt.insertedLength
  | .dequeueLoadCapacity attempt _ _ => capacities.SwapsBack attempt
  | .dequeueStoreCapacity attempt _ _ => capacities.SwapsBack attempt
  | .dequeueNotify attempt _ _ => capacities.SwapsBack attempt
  | _ => True

theorem zeroThread_enqueueCheck (capacities : Capacities) (value : List α)
    (enqueuing : EnqueuingCapacity) :
    ZeroThread capacities (enqueueCheck value enqueuing : Pc α σ) :=
  enqueueCheck_elim (P := ZeroThread capacities) (fun _ => trivial) (fun _ _ => trivial)
    fun _ _ _ => trivial

theorem zeroThread_requeueRange (capacities : Capacities) (i : Fin 2) (first last : Nat) :
    ZeroThread capacities (requeueRange i first last : Pc α σ) :=
  requeueRange_elim (P := ZeroThread capacities) (fun _ => trivial) (fun _ => trivial)
    fun _ => trivial

variable [Buffer B α σ]

/-- The queue of a recipe that started without cells. -/
structure ZeroInv (s : State T B α σ) : Prop where
  full : s.queue.enqueuingCapacity.remainingCapacity = 0
  thread (t : T) : ZeroThread s.queue.capacities (s.pcs t)
  rest : (∀ t, (s.pcs t).exposed = false) → s.queue.capacities.enqueuing = 0

section Step

variable [LawfulBuffer B] {s : State T B α σ} {g : Ledger T α} {t : T}
variable {action : Action α} {q' : Queue B} {pc' : Pc α σ} {event : Event α}

omit [LawfulBuffer B] in
/-- The end of an attempt: an inserted batch is swapped back, otherwise the enqueuing
buffer has no cells. -/
theorem Capacities.SwapsBack.dequeueFinish {attempt : Attempt} {capacity : Nat}
    {enqueuing : EnqueuingCapacity} {q : Queue B}
    (hback : q.capacities.SwapsBack attempt)
    (hswapped : Swapped q g attempt capacity enqueuing)
    (hindex : g.enqueuing = q.enqueuingCapacity.bufferIndex) :
    ZeroThread q.capacities (dequeueFinish attempt capacity enqueuing : Pc α σ) ∧
      ((dequeueFinish attempt capacity enqueuing : Pc α σ).exposed = false →
        q.capacities.enqueuing = 0) := by
  have hcapacity : capacity = q.capacities.hidden := by
    rw [hswapped.capacity_eq, eq_other_of_ne hswapped.other, hindex]
    rfl
  refine dequeueFinish_elim (P := fun pc => ZeroThread q.capacities pc ∧
    (pc.exposed = false → q.capacities.enqueuing = 0)) ?_ ?_ ?_ ?_ ?_
  · intro hlt
    have hadd := hswapped.extent_add
    omega
  · intro hlt
    refine ⟨trivial, fun _ => hback.2 ?_⟩
    by_contra hinserted
    have hnone := hback.1 (Nat.pos_of_ne_zero hinserted)
    omega
  · intro _ hinserted
    have hvacant : (DequeuingLength.new enqueuing.bufferIndex 0).bufferLen = 0 :=
      (DequeuingLength.new_spec enqueuing.bufferIndex (by decide)).2.1
    rw [dequeueEntry, if_pos hvacant]
    exact ⟨Or.inr ⟨rfl, hback.1 hinserted⟩, fun hnot => absurd hnot.symm Bool.false_ne_true⟩
  · exact fun _ hinserted _ => ⟨trivial, fun _ => hback.2 hinserted⟩
  · exact fun _ hinserted _ => ⟨trivial, fun _ => hback.2 hinserted⟩

/-- What the activity that moved knows, and what it leaves behind. -/
theorem ZeroInv.self (hinv : ZeroInv s) (hsim : Sim s g)
    (hmove : Transition s.queue (s.pcs t) action q' pc' event)
    (hpanic : ∀ panic, pc' ≠ .panicked panic)
    (hcall : ∀ resize ∈ action.resize?, AsksForOverflow s.queue.capacities resize)
    (hresizes : action ≠ .tryDequeue) :
    ZeroThread (s.queue.capacities.next event) pc' ∧
      ((s.pcs t).exposed = true → pc'.exposed = false →
        (s.queue.capacities.next event).enqueuing = 0) := by
  have hself := hinv.thread t
  have hthread := hsim.thread t
  have hindex := hsim.shared.enqueuing
  have hfull := hinv.full
  have hstays : pc'.exposed = true → pc'.exposed = false →
      (s.queue.capacities.next event).enqueuing = 0 :=
    fun hexposed hnot => absurd (hnot.symm.trans hexposed) Bool.false_ne_true
  generalize s.pcs t = pc at hmove hself hthread
  cases hmove with
  | silent hlocal =>
      cases hlocal with
      | enqueueLoad _ _ => exact ⟨zeroThread_enqueueCheck _ _ _, fun hnot => nomatch hnot⟩
      | enqueueRetry _ _ _ _ =>
          exact ⟨zeroThread_enqueueCheck _ _ _, fun hnot => nomatch hnot⟩
      | tryDequeue _ => exact absurd rfl hresizes
      | tryDequeueAndResize _ resize => exact ⟨hcall resize rfl, fun hnot => nomatch hnot⟩
      | keepCapacity dequeuing resize _ hkeep =>
          have hhidden : Hidden s.queue g dequeuing .staged 0 := hthread
          rw [hhidden.capacity_eq hindex] at hkeep
          refine ⟨?_, fun _ => hstays rfl⟩
          obtain ⟨hrequest, hzero⟩ | ⟨rfl, hzero⟩ := hself
          · refine ⟨?_, Or.inl hzero⟩
            rw [Nat.zero_add]
            exact (hkeep _ hrequest).symm
          · exact ⟨hzero, Or.inr hzero⟩
      | capacityOverflow _ _ _ _ _ _ => exact absurd rfl (hpanic _)
      | skipEmpty _ _ _ _ _ => exact ⟨hself, fun _ => hstays rfl⟩
      | stageEnd dequeuing _ values length _ hvalues =>
          have hhidden : Hidden s.queue g dequeuing .staged length := hthread
          rw [hhidden.capacity_eq hindex] at hvalues
          refine ⟨?_, fun _ => hstays rfl⟩
          have hnil : values.flatten.length = 0 := by
            cases values with
            | nil => rfl
            | cons value rest =>
                have hlt := hvalues value rfl
                have hlength : s.queue.capacities.hidden =
                  length + (value :: rest).flatten.length := hself.1
                rw [List.flatten_cons, List.length_append] at hlength
                omega
          have hlength := hself.1
          rw [hnil] at hlength
          exact ⟨hlength, hself.2⟩
      | publishNothing _ _ _ => exact ⟨hself, fun _ => hstays rfl⟩
      | dequeueLoad _ _ _ _ _ _ _ => exact ⟨hself, fun _ => hstays rfl⟩
      | swapRetry _ _ _ _ _ => exact ⟨hself, fun _ => hstays rfl⟩
      | capacityDiffers _ _ _ _ _ => exact ⟨hself, fun _ => hstays rfl⟩
      | capacitySame _ _ _ _ _ => exact ⟨hself, fun _ => hstays rfl⟩
      | dequeueNotify _ _ _ _ =>
          obtain ⟨hfinish, hleft⟩ := hself.dequeueFinish (σ := σ) hthread hindex
          exact ⟨hfinish, fun _ => hleft⟩
      | dropIter _ _ _ => exact ⟨zeroThread_requeueRange _ _ _ _, fun hnot => nomatch hnot⟩
      | requeue _ _ _ _ => exact ⟨zeroThread_requeueRange _ _ _ _, fun hnot => nomatch hnot⟩
      | stageOutOfBounds _ _ _ _ _ _ _ => exact absurd rfl (hpanic _)
      | bufferIndexAssert _ _ _ => exact absurd rfl (hpanic _)
      | nextCapacityUnderflow _ _ _ => exact absurd rfl (hpanic _)
      | enqueuingCapacityAssert _ _ _ _ => exact absurd rfl (hpanic _)
      | _ => exact ⟨trivial, fun hnot => nomatch hnot⟩
  | lock resize _ _ =>
      refine ⟨?_, fun hnot => nomatch hnot⟩
      exact dequeueEntry_elim (P := ZeroThread s.queue.capacities) (fun _ => Or.inl hself)
        fun _ => trivial
  | resize dequeuing resize _ capa _ hcapa _ _ _ =>
      refine ⟨?_, fun _ => hstays rfl⟩
      obtain ⟨hrequest, hzero⟩ | ⟨rfl, -⟩ := hself
      · cases hcapa.symm.trans hrequest
        exact ⟨(Nat.zero_add _).symm, Or.inl hzero⟩
      · cases hcapa
  | stage _ _ value rest length _ _ _ _ _ =>
      refine ⟨⟨?_, hself.2⟩, fun _ => hstays rfl⟩
      have hlength : s.queue.capacities.hidden =
        length + (value :: rest).flatten.length := hself.1
      rw [List.flatten_cons, List.length_append, ← Nat.add_assoc] at hlength
      exact hlength
  | publish _ _ _ => exact ⟨hself, fun _ => hstays rfl⟩
  | foundEmpty _ _ _ hempty _ _ => exact ⟨trivial, fun _ _ => hempty.symm.trans hfull⟩
  | swap attempt _ _ =>
      obtain ⟨hlength, hzero⟩ := hself
      refine ⟨⟨fun hinserted => ?_, fun hinserted => ?_⟩, fun _ => hstays rfl⟩
      · change s.queue.capacities.enqueuing = 0
        omega
      · change s.queue.capacities.hidden = 0
        omega
  | storeCapacity _ _ _ _ => exact ⟨hself, fun _ => hstays rfl⟩
  | _ => exact ⟨trivial, fun hnot => nomatch hnot⟩

/-- A swap shows the enqueuers a buffer without room. -/
theorem ZeroInv.full_step (hinv : ZeroInv s) (hsim : Sim s g)
    (hmove : Transition s.queue (s.pcs t) action q' pc' event) :
    q'.enqueuingCapacity.remainingCapacity = 0 := by
  by_cases hswapped : ∃ i, event = .swapped i
  · obtain ⟨i, rfl⟩ := hswapped
    have hthread := hsim.thread t
    have hself := hinv.thread t
    generalize s.pcs t = pc at hmove hthread hself
    cases hmove with
    | swap attempt capacity nextEnqueuing =>
        have hswap : Swapping s.queue g attempt capacity nextEnqueuing
          s.queue.enqueuingCapacity := hthread
        have hlength : s.queue.capacities.hidden = attempt.insertedLength := hself.1
        have hnext := hswap.nextCapa_eq
        rw [hswap.hidden.capacity_eq hsim.shared.enqueuing] at hnext
        have hclosed := EnqueuingCapacity.withClosed_spec hswap.next_open
          s.queue.enqueuingCapacity
        change (nextEnqueuing.withClosed s.queue.enqueuingCapacity).remainingCapacity = 0
        rw [hclosed.2.1, hswap.next_remaining]
        omega
  · have hle := hmove.remaining_le (hsim.thread t) fun i hi => hswapped ⟨i, hi⟩
    have hfull := hinv.full
    omega

/-- A step of the recipe lets nobody reserve. -/
theorem ZeroInv.step [DecidableEq T] (hinv : ZeroInv s) (hsim : Sim s g)
    (hmove : Transition s.queue (s.pcs t) action q' pc' event)
    (hsim' : Sim (⟨q', Function.update s.pcs t pc'⟩ : State T B α σ) (g.next t event))
    (hpanic : ∀ panic, pc' ≠ .panicked panic)
    (hcall : ∀ resize ∈ action.resize?, AsksForOverflow s.queue.capacities resize)
    (hresizes : action ≠ .tryDequeue)
    (halone : s.queue.capacities.next event ≠ s.queue.capacities →
      ∀ t' resize, s.pcs t' ≠ .dequeueLock resize) :
    ZeroInv (⟨q', Function.update s.pcs t pc'⟩ : State T B α σ) ∧
      ∀ i value, event ≠ .reserved i value := by
  obtain ⟨hself, hleft⟩ := hinv.self hsim hmove hpanic hcall hresizes
  have hcapacities := hsim.capacities_step hmove hsim'
  refine ⟨⟨hinv.full_step hsim hmove, ?_, ?_⟩, ?_⟩
  · intro t'
    change ZeroThread q'.capacities (Function.update s.pcs t pc' t')
    rw [hcapacities]
    by_cases ht' : t' = t
    · rw [ht', Function.update_self]
      exact hself
    · rw [Function.update_of_ne ht']
      by_cases hsame : s.queue.capacities.next event = s.queue.capacities
      · rw [hsame]
        exact hinv.thread t'
      · have hfree : (s.pcs t').holds = false := Bool.eq_false_iff.mpr fun hholds =>
          ht' (hsim.exclusive hholds (hmove.holds_of_capacities hsame))
        have hlock := halone hsame t'
        generalize s.pcs t' = pc at hfree hlock
        cases pc with
        | idle _ => exact trivial
        | enqueueLoad _ => exact trivial
        | enqueueReserve _ _ _ => exact trivial
        | enqueueInsert _ _ => exact trivial
        | enqueueAcknowledge _ _ => exact trivial
        | dequeueLock resize => exact absurd rfl (hlock resize)
        | _ => cases hfree
  · intro hnone
    change q'.capacities.enqueuing = 0
    have hnot : pc'.exposed = false := by
      have hlast := hnone t
      change (Function.update s.pcs t pc' t).exposed = false at hlast
      rwa [Function.update_self] at hlast
    rw [hcapacities]
    cases hexposed : (s.pcs t).exposed with
    | true => exact hleft hexposed hnot
    | false =>
        have hsame : s.queue.capacities.next event = s.queue.capacities := by
          generalize s.pcs t = pc at hmove hexposed
          cases hmove with
          | resize _ _ _ _ _ _ _ _ _ => cases hexposed
          | swap _ _ _ => cases hexposed
          | _ => rfl
        rw [hsame]
        refine hinv.rest fun t' => ?_
        by_cases ht' : t' = t
        · rw [ht', hexposed]
        · have hother := hnone t'
          change (Function.update s.pcs t pc' t').exposed = false at hother
          rwa [Function.update_of_ne ht'] at hother
  · rintro i value rfl
    have hpos := hmove.remaining_pos (hsim.thread t)
    have hfull := hinv.full
    omega

end Step

section Recipe

variable {s : Recipe T α} {g : Ledger T α} {t : T}

/-- A dequeue that starts asks for the cells of the overflow and no others. -/
theorem RecipeInv.asksForOverflow (hinv : RecipeInv s g) (hcapacity : CapacityInv s.base)
    (hzero : ZeroInv s.base) {action : Action α} {control' : Control α}
    {overflow : List (List α)}
    (hcall : Calls s t (s.controls t) action control' overflow) :
    ∀ resize ∈ action.resize?, AsksForOverflow s.base.queue.capacities resize := by
  intro resize hresize
  obtain ⟨hcontrol, hrequest⟩ := hcall.resize_eq resize hresize
  have hinsert : resize.insert = s.overflow := by
    rw [hcontrol] at hcall
    cases hcall with
    | dequeue =>
        cases hresize
        rfl
  have hidle := hinv.thread t
  rw [hcontrol] at hidle
  obtain ⟨last, hidle⟩ := hidle
  have hnone : s.base.queue.capacities.enqueuing = 0 := by
    apply hzero.rest
    intro t'
    by_contra hexposed
    rw [Bool.not_eq_false] at hexposed
    have hsame : t' = t := by
      apply hinv.eq_of_dequeuing (by rw [hcontrol]; rfl)
      · generalize s.base.pcs t' = pc at hexposed
        cases pc <;> first | rfl | cases hexposed
      · intro value
        generalize s.base.pcs t' = pc at hexposed
        cases pc <;> first | exact id | cases hexposed
    rw [hsame, hidle] at hexposed
    cases hexposed
  refine ⟨?_, hnone⟩
  rw [hrequest, hinv.capacity_eq hcapacity hcontrol, hnone, hinsert, hinv.length_overflow,
    Nat.zero_add]

variable {start : Recipe T α} {trace : List ((T × RecipeAction α) × RecipeEvent α)}

theorem ZeroInv.of_initial (hinitial : Initial start.base)
    (hzero : start.base.queue.capacity = 0) : ZeroInv start.base := by
  obtain ⟨capacity, hcreated⟩ := Created.of_initial hinitial
  have hnone : capacity = 0 := hcreated.capacity_eq.symm.trans hzero
  refine ⟨hcreated.remaining.trans hnone, ?_, fun _ => ?_⟩
  · intro t
    rw [hinitial.2]
    exact trivial
  · change Buffer.capacity _ = 0
    rw [hcreated.buffers_capacity, hnone]

theorem reservedValues_singleton_eq_nil (label : T × Action α) {event : Event α}
    (hreserved : ∀ i value, event ≠ .reserved i value) :
    reservedValues [(label, event)] = [] := by
  cases event with
  | reserved i value => exact absurd rfl (hreserved i value)
  | _ => rfl

variable [DecidableEq T]

theorem zeroInv_of_run (hinitial : RecipeInitial start)
    (hzero : start.base.queue.capacity = 0)
    (hrun : Runs.Run recipeStep RecipeOk start trace s) :
    ZeroInv s.base ∧ reservedValues (baseTrace trace) = [] := by
  refine hrun.invariant (fun trace s => ZeroInv s.base ∧
    reservedValues (baseTrace trace) = []) ?_ ?_
  · exact ⟨ZeroInv.of_initial hinitial.base hzero, rfl⟩
  · rintro trace state state' ⟨t, label⟩ event hearlier ⟨hinv, hnone⟩ hok hstep
    have hrecorded := recorded_of_run hinitial hearlier
    have hrecorded' := recorded_of_run hinitial (hearlier.snoc hok hstep)
    have hsim := sim_of_run hinitial.base (fun _ _ h => h.size) hrecorded.base
    have hcapacity := capacityInv_of_run hinitial.base
      (hrecorded.base.mono fun _ _ h => h.size)
    have hsilent : ∀ {event : RecipeEvent α},
        (∀ action shown, event ≠ .called action shown) →
          reservedValues (baseTrace (trace ++ [((t, label), event)])) = [] := by
      intro event hevent
      rw [baseTrace_append_of_not_called _ _ hevent, hnone]
    cases recipeStep_cases hstep with
    | call hcontrol hlabel hcall hbase =>
        subst hcontrol
        obtain ⟨q', pc', hmove, rfl, hsim', hpanic⟩ :=
          hrecorded'.called hinitial.base hbase
        obtain ⟨hinv', hreserved⟩ := hinv.step hsim hmove hsim' hpanic
          (hrecorded.inv.asksForOverflow hcapacity hinv hcall) hcall.ne_tryDequeue
          (hrecorded.inv.not_dequeueLock hmove)
        refine ⟨hinv', ?_⟩
        rw [baseTrace_append_called, reservedValues, List.filterMap_append]
        exact List.append_eq_nil_iff.mpr
          ⟨hnone, reservedValues_singleton_eq_nil _ hreserved⟩
    | move _ _ _ => exact ⟨hinv, hsilent (by simp)⟩
    | acquire _ _ _ => exact ⟨hinv, hsilent (by simp)⟩
    | push _ _ => exact ⟨hinv, hsilent (by simp)⟩
    | unlock _ => exact ⟨hinv, hsilent (by simp)⟩

/-- A recipe over a queue of capacity zero never gets out of its overflow.  In every
reachable state there is no room for an enqueuer, no value was ever let straight into the
queue, and as long as nobody dequeues the capacity of the queue is zero again. -/
theorem unbounded_recipe_zero_capacity (hinitial : RecipeInitial start)
    (hzero : start.base.queue.capacity = 0)
    (hrun : Runs.Run recipeStep RecipeOk start trace s) :
    s.base.queue.enqueuingCapacity.remainingCapacity = 0 ∧
    reservedValues (baseTrace trace) = [] ∧
    ((∀ t, s.controls t ≠ .dequeuing) → s.base.queue.capacity = 0) := by
  obtain ⟨hinv, hnone⟩ := zeroInv_of_run hinitial hzero hrun
  have hrecorded := recorded_of_run hinitial hrun
  have hcapacity := capacityInv_of_run hinitial.base
    (hrecorded.base.mono fun _ _ h => h.size)
  refine ⟨hinv.full, hnone, fun hfree => ?_⟩
  have hexposed : ∀ t, (s.base.pcs t).exposed = false := by
    intro t
    by_contra hexposed
    rw [Bool.not_eq_false] at hexposed
    have hthread := hrecorded.inv.thread t
    apply hfree t
    generalize s.base.pcs t = pc at hexposed hthread
    apply hthread.dequeuing
    · cases pc <;> first | rfl | cases hexposed
    · intro value
      cases pc <;> first | exact id | cases hexposed
  rw [hcapacity.field]
  · exact hinv.rest hexposed
  · intro t
    have hnot := hexposed t
    generalize s.base.pcs t = pc at hnot
    cases pc with
    | dequeueLoadCapacity _ _ _ => cases hnot
    | dequeueStoreCapacity _ _ _ => cases hnot
    | _ => rfl

end Recipe

/-- The second value goes to the overflow although the first one has been delivered. -/
theorem unbounded_recipe_zero_capacity_second_value :
    ∃ (start s : Recipe Nat Nat) (trace : _),
      RecipeInitial start ∧ start.base.queue.capacity = 0 ∧
      Runs.Run recipeStep RecipeOk start trace s ∧
      consumedElements (baseTrace trace) = [7] ∧ acceptedValues trace = [(0, 7), (1, 8)] ∧
      s.overflow = [[8]] ∧ reservedValues (baseTrace trace) = [] := by
  have hinitial : RecipeInitial (⟨State.ofQueue ((Queue.withCapacity 0).get
      (by decide +kernel)), none, [], fun _ => .outside⟩ : Recipe Nat Nat) :=
    ⟨initial_withCapacity (by decide +kernel), rfl, rfl, rfl⟩
  have hrun := Runs.run_of_isSome recipeStep RecipeOk
    (⟨State.ofQueue ((Queue.withCapacity 0).get (by decide +kernel)), none, [],
      fun _ => .outside⟩ : Recipe Nat Nat)
    (List.flatten [[(0, .enqueueUnbounded 7)], List.replicate 8 (0, .run false),
      [(2, .tryDequeueUnbounded)], List.replicate 24 (2, .run false), [(2, .drop)],
      List.replicate 3 (2, .run false),
      [(1, .enqueueUnbounded 8)], List.replicate 8 (1, .run false)])
    (by decide +kernel) (by decide +kernel)
  exact ⟨_, _, _, hinitial, by decide +kernel, hrun, by decide +kernel, by decide +kernel,
    by decide +kernel, (unbounded_recipe_zero_capacity hinitial (by decide +kernel) hrun).2.1⟩

end SwapBufferQueue
