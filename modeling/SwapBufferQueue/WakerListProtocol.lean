/-
The protocol of `WakerList`: any number of threads that call `register` and `wake`, in any
interleaving.  The vector, what a `wake` has drained from it and what was woken are the
registered wakers in order, so each is woken at most once; while the mutex is free the flag
or one `wake` that has cleared it stands for a vector that is not empty.
-/
import SwapBufferQueue.WakerList
import SwapBufferQueue.Lib.Calls

namespace SwapBufferQueue

universe x y

variable {T : Type x} {K : Type y}

def ListCall.begins : ListCall T K → Bool
  | .registerLock _ => true
  | .wakeLoad => true
  | _ => false

def ListCall.isReturned : ListCall T K → Bool
  | .returned => true
  | _ => false

def ListCall.InWake (call : ListCall T K) : Prop :=
  call.Wakes ∧ call ≠ .returned

def WakerList.code : Calls.Code (WakerList T K) T (ListCall T K) (Waker T K) :=
  ⟨ListCall.begins, ListCall.isReturned, WakerList.run⟩

abbrev ListSystem (T : Type x) (K : Type y) : Type (max x y) :=
  Calls.System (WakerList T K) T (ListCall T K)

def ListSystem.new : ListSystem T K := ⟨WakerList.default, fun _ => .returned⟩

/-- The waker an entry of a trace registers. -/
def pushed (entry : (T × Calls.Action (ListCall T K)) × Calls.Event (ListCall T K) (Waker T K)) :
    Option (Waker T K) :=
  match entry.2.source with
  | .registerPush cx => some (Waker.new entry.1.1 cx)
  | _ => none

/-- The registered wakers, in the order they came into the vector. -/
def registered (trace : Calls.Trace T (ListCall T K) (Waker T K)) : List (Waker T K) :=
  trace.filterMap pushed

/-- What the thread with the mutex has drained and not woken yet. -/
def ListSystem.drained (s : ListSystem T K) : List (Waker T K) :=
  match s.object.mutex with
  | some t => (s.calls t).carries
  | none => []

open WakerList

section Steps

variable {s s' : ListSystem T K} {t t' : T} {action : Calls.Action (ListCall T K)}
  {event : Calls.Event (ListCall T K) (Waker T K)} {n : Nat}
  {trace : Calls.Trace T (ListCall T K) (Waker T K)}

theorem registered_append (first second : Calls.Trace T (ListCall T K) (Waker T K)) :
    registered (first ++ second) = registered first ++ registered second :=
  List.filterMap_append

theorem registered_snoc
    (entry : (T × Calls.Action (ListCall T K)) × Calls.Event (ListCall T K) (Waker T K)) :
    registered (trace ++ [entry]) = registered trace ++ (pushed entry).toList := by
  rw [registered_append]
  cases hpushed : pushed entry with
  | none => simp [registered, hpushed]
  | some waker => simp [registered, hpushed]

/-- What a thread with the mutex has drained is what has been drained. -/
theorem ListInv.drained_eq (hinv : ListInv s.object s.calls) (hlocks : (s.calls t).locks = true) :
    s.drained = (s.calls t).carries := by
  rw [ListSystem.drained, (hinv.locked t).mp hlocks]

variable [DecidableEq T]

theorem ListInv.move (hinv : ListInv s.object s.calls) (hmove : code.Move s t action s' event) :
    ListInv s'.object s'.calls := by
  cases hmove with
  | start call hreturned hentry =>
      generalize hcall : s.calls t = old at hreturned
      cases old with
      | returned =>
          cases call with
          | registerLock _ =>
              exact hinv.switch (by rw [hcall]; rfl) (by rw [hcall]; rfl) (by rw [hcall]; rfl) nofun
          | wakeLoad =>
              exact hinv.switch (by rw [hcall]; rfl) (by rw [hcall]; rfl) (by rw [hcall]; rfl) nofun
          | _ => cases hentry
      | _ => cases hreturned
  | run hrun => exact hinv.step (WakerList.run_cases hrun)

theorem listInv_of_run {ok : ListSystem T K → T × Calls.Action (ListCall T K) → Prop}
    (hrun : Runs.Run code.step ok ListSystem.new trace s) : ListInv s.object s.calls := by
  refine hrun.invariant (fun _ s => ListInv s.object s.calls) ListInv.default ?_
  rintro trace state state' ⟨t, action⟩ event - hinv - hstep
  exact hinv.move (Calls.Code.step_cases hstep)

/-- A step of a thread that has not got the mutex leaves what has been drained. -/
theorem ListInv.drained_of_not_locks (hinv : ListInv s.object s.calls)
    (hlocks : (s.calls t).locks = false) (object : WakerList T K) (call' : ListCall T K)
    (hmutex : object.mutex = s.object.mutex) :
    ListSystem.drained ⟨object, Function.update s.calls t call'⟩ = s.drained := by
  rw [ListSystem.drained, ListSystem.drained]
  change (match object.mutex with
    | some t' => (Function.update s.calls t call' t').carries
    | none => []) = _
  rw [hmutex]
  cases howner : s.object.mutex with
  | none => rfl
  | some t' =>
      have hne : t' ≠ t := by
        rintro rfl
        rw [(hinv.locked t').mpr howner] at hlocks
        cases hlocks
      change (Function.update s.calls t call' t').carries = _
      rw [Function.update_of_ne hne]

/-- What was woken, what has been drained and what is in the vector are the registered
wakers, in order. -/
def ListSystem.Ordered (trace : Calls.Trace T (ListCall T K) (Waker T K))
    (s : ListSystem T K) : Prop :=
  Calls.shown trace ++ s.drained ++ s.object.wakers = registered trace

theorem ListSystem.Ordered.step (hordered : s.Ordered trace)
    (hinv : ListInv s.object s.calls) (hmove : code.Move s t action s' event) :
    ListSystem.Ordered (trace ++ [((t, action), event)]) s' := by
  have hinv' := hinv.move hmove
  have hself := hmove.calls_self
  unfold ListSystem.Ordered at hordered ⊢
  rw [Calls.shown_snoc, registered_snoc, ← hordered]
  cases hmove with
  | start call hreturned _ =>
      generalize hcall : s.calls t = old at hreturned
      cases old with
      | returned =>
          rw [hinv.drained_of_not_locks (by rw [hcall]; rfl) s.object call rfl]
          simp [pushed]
      | _ => cases hreturned
  | @run object call' shown hrun =>
      have hrun := WakerList.run_cases hrun
      have hdrained := fun h => hinv.drained_eq (t := t) h
      have hdrained' := fun h => hinv'.drained_eq (t := t) h
      have hkeep := fun h => hinv.drained_of_not_locks (t := t) h object call'
      rw [hself] at hdrained'
      generalize hcall : s.calls t = call at hrun hdrained hkeep
      cases hrun with
      | lock _ hmutex =>
          rw [hdrained' rfl, ListSystem.drained, hmutex]
          simp [pushed, ListCall.carries]
      | wakeLock hmutex =>
          rw [hdrained' rfl, ListSystem.drained, hmutex]
          simp [pushed, ListCall.carries]
      | empty _ _ =>
          rw [hdrained rfl, hdrained' rfl]
          simp [pushed, ListCall.carries]
      | occupied _ _ =>
          rw [hdrained rfl, hdrained' rfl]
          simp [pushed, ListCall.carries]
      | mark _ =>
          rw [hdrained rfl, hdrained' rfl]
          simp [pushed, ListCall.carries]
      | push _ =>
          rw [hdrained rfl, hdrained' rfl]
          simp [pushed, ListCall.carries]
      | unlock =>
          rw [hdrained rfl]
          simp [pushed, ListCall.carries, ListSystem.drained]
      | load _ =>
          rw [hkeep rfl rfl]
          simp [pushed]
      | loadNothing _ =>
          rw [hkeep rfl rfl]
          simp [pushed]
      | exchange _ =>
          rw [hkeep rfl rfl]
          simp [pushed]
      | exchangeNothing _ =>
          rw [hkeep rfl rfl]
          simp [pushed]
      | drain =>
          rw [hdrained rfl, hdrained' rfl]
          simp [pushed, ListCall.carries]
      | wakes _ _ =>
          rw [hdrained rfl, hdrained' rfl]
          simp [pushed, ListCall.carries]
      | finish =>
          rw [hdrained rfl]
          simp [pushed, ListCall.carries, ListSystem.drained]

theorem ordered_of_run {ok : ListSystem T K → T × Calls.Action (ListCall T K) → Prop}
    (hrun : Runs.Run code.step ok ListSystem.new trace s) : s.Ordered trace := by
  refine hrun.invariant (fun trace s => ListSystem.Ordered trace s) ?_ ?_
  · rfl
  · rintro trace state state' ⟨t, action⟩ event hprefix hordered - hstep
    exact hordered.step (listInv_of_run hprefix) (Calls.Code.step_cases hstep)

/-- A `wake` in progress has drained the registration with this number, or it has cleared
the flag and will drain it. -/
def ListSystem.Owes (trace : Calls.Trace T (ListCall T K) (Waker T K)) (s : ListSystem T K)
    (n : Nat) (t : T) : Prop :=
  (s.calls t).drains = true ∧ n < (registered trace).length ∨
    n < (Calls.shown trace).length + (s.calls t).carries.length

omit [DecidableEq T] in
theorem ListSystem.Ordered.length_eq (hordered : s.Ordered trace) :
    (Calls.shown trace).length + s.drained.length + s.object.wakers.length =
      (registered trace).length := by
  rw [← hordered, List.length_append, List.length_append]

omit [DecidableEq T] in
theorem length_shown_snoc (trace : Calls.Trace T (ListCall T K) (Waker T K))
    (label : T × Calls.Action (ListCall T K)) (event : Calls.Event (ListCall T K) (Waker T K)) :
    (Calls.shown trace).length ≤ (Calls.shown (trace ++ [(label, event)])).length := by
  rw [Calls.shown_append, List.length_append]
  exact Nat.le_add_right _ _

omit [DecidableEq T] in
theorem length_registered_snoc (trace : Calls.Trace T (ListCall T K) (Waker T K))
    (label : T × Calls.Action (ListCall T K)) (event : Calls.Event (ListCall T K) (Waker T K)) :
    (registered trace).length ≤ (registered (trace ++ [(label, event)])).length := by
  rw [registered_append, List.length_append]
  exact Nat.le_add_right _ _

/-- A duty ends when the waker is woken, and no sooner. -/
theorem ListSystem.Owes.step (howes : s.Owes trace n t') (hordered : s.Ordered trace)
    (hinv : ListInv s.object s.calls) (hmove : code.Move s t action s' event) :
    n < (Calls.shown (trace ++ [((t, action), event)])).length ∨
      ListSystem.Owes (trace ++ [((t, action), event)]) s' n t' ∧
        ¬ (t = t' ∧ code.returned event.target = true) := by
  have hshown := length_shown_snoc trace (t, action) event
  have hregistered := length_registered_snoc trace (t, action) event
  by_cases ht : t = t'
  · subst ht
    have hself := hmove.calls_self
    rcases howes with ⟨hdrains, hlt⟩ | hlt
    · have hlength := hordered.length_eq
      generalize hcall : s.calls t = call at hdrains
      cases hmove with
      | start _ hreturned _ =>
          rw [hcall] at hreturned
          cases call with
          | wakeLock => cases hreturned
          | wakeDrain => cases hreturned
          | _ => cases hdrains
      | run hrun =>
          have hrun := WakerList.run_cases hrun
          have hdrained := hinv.drained_eq (t := t)
          rw [hcall] at hrun hdrained
          refine Or.inr ?_
          rw [ListSystem.Owes, hself]
          cases hrun with
          | wakeLock _ => exact ⟨Or.inl ⟨rfl, by omega⟩, nofun⟩
          | drain =>
              refine ⟨Or.inr ?_, nofun⟩
              rw [hdrained rfl] at hlength
              change n < _ + s.object.wakers.length
              change _ + 0 + s.object.wakers.length = _ at hlength
              omega
          | _ => cases hdrains
    · generalize hcall : s.calls t = call at hlt
      cases hmove with
      | start _ hreturned _ =>
          rw [hcall] at hreturned
          cases call with
          | returned => exact Or.inl (Nat.lt_of_lt_of_le hlt hshown)
          | _ => cases hreturned
      | run hrun =>
          have hrun := WakerList.run_cases hrun
          rw [hcall] at hrun
          cases hrun with
          | wakes waker rest =>
              refine Or.inr ⟨Or.inr ?_, nofun⟩
              rw [hself, Calls.shown_snoc, List.length_append]
              change n < _ + (rest.length + 1) at hlt
              change n < _ + 1 + rest.length
              omega
          | _ => exact Or.inl (Nat.lt_of_lt_of_le hlt hshown)
  · refine Or.inr ⟨?_, fun h => ht h.1⟩
    rw [ListSystem.Owes, hmove.calls_of_ne (Ne.symm ht)]
    rcases howes with ⟨hdrains, hlt⟩ | hlt
    · exact Or.inl ⟨hdrains, Nat.lt_of_lt_of_le hlt hregistered⟩
    · exact Or.inr (by omega)

omit [DecidableEq T] in
/-- A registered waker was woken, or somebody owes it, or it is in the vector and the flag
is set. -/
theorem ListInv.owes_or_flag (hinv : ListInv s.object s.calls) (hordered : s.Ordered trace)
    (hlt : n < (registered trace).length) :
    n < (Calls.shown trace).length ∨ (∃ t, s.Owes trace n t) ∨ s.object.nonEmpty = true := by
  have hlength := hordered.length_eq
  by_cases hshown : n < (Calls.shown trace).length
  · exact Or.inl hshown
  · refine Or.inr ?_
    by_cases hdrained : n < (Calls.shown trace).length + s.drained.length
    · cases hmutex : s.object.mutex with
      | none =>
          rw [ListSystem.drained, hmutex] at hdrained
          exact absurd hdrained hshown
      | some t =>
          rw [ListSystem.drained, hmutex] at hdrained
          exact Or.inl ⟨t, Or.inr hdrained⟩
    · have hwakers : s.object.wakers ≠ [] := List.ne_nil_of_length_pos (by omega)
      rcases hinv.flag.flagged.mp (Or.inl hwakers) with hflag | ⟨t, hdrains⟩
      · exact Or.inr hflag
      · exact Or.inl ⟨t, Or.inl ⟨hdrains, hlt⟩⟩

/-- A `wake` that has not returned yet meets the flag, or it is of no use any more. -/
inductive ListSystem.Met (trace : Calls.Trace T (ListCall T K) (Waker T K))
    (s : ListSystem T K) (n : Nat) (x : T) : Prop
  | woken (hwoken : n < (Calls.shown trace).length)
  | owed (t : T) (howes : s.Owes trace n t)
  | flagged (hflag : s.object.nonEmpty = true)
      (hcall : s.calls x = .wakeLoad ∨ s.calls x = .wakeExchange)

omit [DecidableEq T] in
theorem ListMove.flag_or_drains {l l' : WakerList T K} {call call' : ListCall T K}
    {woken : Option (Waker T K)} (hmove : ListMove l t call l' call' woken)
    (hflag : l.nonEmpty = true) : l'.nonEmpty = true ∨ call'.drains = true := by
  cases hmove with
  | mark _ => exact Or.inl rfl
  | exchange _ => exact Or.inr rfl
  | _ => exact Or.inl hflag

theorem ListSystem.Met.step {x : T} (hmet : s.Met trace n x)
    (hlt : n < (registered trace).length) (hordered : s.Ordered trace)
    (hinv : ListInv s.object s.calls) (hmove : code.Move s t action s' event) :
    ListSystem.Met (trace ++ [((t, action), event)]) s' n x := by
  have hlt' := Nat.lt_of_lt_of_le hlt (length_registered_snoc trace (t, action) event)
  cases hmet with
  | woken hwoken => exact .woken (Nat.lt_of_lt_of_le hwoken (length_shown_snoc trace _ _))
  | owed t' howes =>
      rcases howes.step hordered hinv hmove with hwoken | ⟨howes', -⟩
      · exact .woken hwoken
      · exact .owed t' howes'
  | flagged hflag hcall =>
      have hself := hmove.calls_self
      have hothers : ∀ {t'}, t' ≠ t → s'.calls t' = s.calls t' := hmove.calls_of_ne
      cases hmove with
      | start call hreturned _ =>
          have hne : x ≠ t := by
            rintro rfl
            rcases hcall with h | h <;> rw [h] at hreturned <;> cases hreturned
          exact .flagged hflag (by rw [hothers hne]; exact hcall)
      | run hrun =>
          have hrun := WakerList.run_cases hrun
          by_cases ht : x = t
          · subst ht
            rcases hcall with hcall | hcall
            · rw [hcall] at hrun
              cases hrun with
              | load _ => exact .flagged hflag (Or.inr hself)
              | loadNothing h =>
                  rw [hflag] at h
                  cases h
            · rw [hcall] at hrun
              cases hrun with
              | exchange _ => exact .owed x (Or.inl ⟨by rw [hself]; rfl, hlt'⟩)
              | exchangeNothing h =>
                  rw [hflag] at h
                  cases h
          · rcases hrun.flag_or_drains hflag with hflag' | hdrains
            · exact .flagged hflag' (by rw [hothers ht]; exact hcall)
            · exact .owed t (Or.inl ⟨by rw [hself]; exact hdrains, hlt'⟩)

omit [DecidableEq T] in
/-- Who owes a waker that was not woken is in a `wake`. -/
theorem ListSystem.Owes.inWake (howes : s.Owes trace n t)
    (hnot : ¬ n < (Calls.shown trace).length) : (s.calls t).InWake := by
  rcases howes with ⟨hdrains, -⟩ | hlt
  · generalize s.calls t = call at hdrains
    cases call with
    | wakeLock => exact ⟨trivial, nofun⟩
    | wakeDrain => exact ⟨trivial, nofun⟩
    | _ => cases hdrains
  · generalize s.calls t = call at hlt
    cases call with
    | wakeAll _ => exact ⟨trivial, nofun⟩
    | _ => exact absurd hlt hnot

omit [DecidableEq T] in
theorem ListMove.inWake {l l' : WakerList T K} {call call' : ListCall T K}
    {woken : Option (Waker T K)} (hmove : ListMove l t call l' call' woken)
    (hwake : call'.InWake) : call.InWake := by
  cases hmove with
  | unlock => exact absurd rfl hwake.2
  | loadNothing _ => exact ⟨trivial, nofun⟩
  | exchangeNothing _ => exact ⟨trivial, nofun⟩
  | finish => exact ⟨trivial, nofun⟩
  | load _ => exact ⟨trivial, nofun⟩
  | exchange _ => exact ⟨trivial, nofun⟩
  | wakeLock _ => exact ⟨trivial, nofun⟩
  | drain => exact ⟨trivial, nofun⟩
  | wakes _ _ => exact ⟨trivial, nofun⟩
  | _ => exact hwake.1.elim

end Steps

section Claim

variable [DecidableEq T] {s : ListSystem T K}
  {trace before upto rest : Calls.Trace T (ListCall T K) (Waker T K)} {t x : T}
  {cx : Option K} {n : Nat}

/-- A `register` of `t` has put its waker into the vector and returned; after that a `wake`
of `x` has begun and returned. -/
def WakesAfter (before upto : Calls.Trace T (ListCall T K) (Waker T K)) (t : T)
    (cx : Option K) (x : T) : Prop :=
  ∃ between between' during event returned,
    upto = before ++ ((t, .run), ⟨.registerPush cx, .registerUnlock, none⟩) :: between ++
      ((t, .run), ⟨.registerUnlock, .returned, none⟩) :: between' ++
      ((x, .start .wakeLoad), event) :: during ++ [((x, .run), returned)] ∧
    returned.target = .returned

/-- Every `wake` that began in the first part of a trace has returned. -/
def WakesReturned (trace upto : Calls.Trace T (ListCall T K) (Waker T K)) : Prop :=
  ∀ t before event after, trace = before ++ ((t, .start .wakeLoad), event) :: after →
    before.length < upto.length → code.Returns t after

section Along

variable {ok : ListSystem T K → T × Calls.Action (ListCall T K) → Prop} {s₀ : ListSystem T K}
  {more : Calls.Trace T (ListCall T K) (Waker T K)}

omit [DecidableEq T] in
theorem length_registered_le (first second : Calls.Trace T (ListCall T K) (Waker T K)) :
    (registered first).length ≤ (registered (first ++ second)).length := by
  rw [registered_append, List.length_append]
  exact Nat.le_add_right _ _

theorem ListSystem.Met.along (hmet : s₀.Met before n x)
    (hbefore : Runs.Run code.step ok ListSystem.new before s₀)
    (hlt : n < (registered before).length) (hmore : Runs.Run code.step ok s₀ more s) :
    s.Met (before ++ more) n x := by
  refine hmore.invariant (fun more s => ListSystem.Met (before ++ more) s n x) ?_ ?_
  · rw [List.append_nil]
    exact hmet
  · rintro more state state' ⟨t, action⟩ event hprefix hmet - hstep
    have hrun := hbefore.append hprefix
    rw [← List.append_assoc]
    exact hmet.step (Nat.lt_of_lt_of_le hlt (length_registered_le before more))
      (ordered_of_run hrun) (listInv_of_run hrun) (Calls.Code.step_cases hstep)

/-- Who owes a waker has woken it when it returns. -/
theorem ListSystem.Owes.along (howes : s₀.Owes before n t)
    (hbefore : Runs.Run code.step ok ListSystem.new before s₀)
    (hmore : Runs.Run code.step ok s₀ more s) (hreturns : code.Returns t more) :
    n < (Calls.shown (before ++ more)).length := by
  have hall := hmore.invariant (fun more s => n < (Calls.shown (before ++ more)).length ∨
    ListSystem.Owes (before ++ more) s n t ∧ ¬ code.Returns t more) ?_ ?_
  · exact hall.resolve_right fun h => h.2 hreturns
  · rw [List.append_nil]
    exact Or.inr ⟨howes, fun ⟨_, hmem, _⟩ => by cases hmem⟩
  · rintro more state state' ⟨t', action⟩ event hprefix hduty - hstep
    have hrun := hbefore.append hprefix
    rw [← List.append_assoc]
    rcases hduty with hwoken | ⟨howes', hnot⟩
    · exact Or.inl (Nat.lt_of_lt_of_le hwoken (length_shown_snoc _ _ _))
    · rcases howes'.step (ordered_of_run hrun) (listInv_of_run hrun)
        (Calls.Code.step_cases hstep) with hwoken | ⟨howes'', hgoes⟩
      · exact Or.inl hwoken
      · refine Or.inr ⟨howes'', ?_⟩
        rw [Calls.Code.returns_append, Calls.Code.returns_singleton]
        exact not_or.mpr ⟨hnot, hgoes⟩

/-- A `wake` in progress has begun, and has not returned since. -/
theorem wake_begun (hrun : Runs.Run code.step ok ListSystem.new trace s)
    (hwake : (s.calls t).InWake) :
    ∃ before event after, trace = before ++ ((t, .start .wakeLoad), event) :: after ∧
      ¬ code.Returns t after := by
  have hreturned : ∀ {call : ListCall T K}, call.isReturned = true → ¬ call.InWake := by
    intro call hreturned hwake
    cases call with
    | returned => exact hwake.2 rfl
    | _ => cases hreturned
  obtain ⟨before, call, event, after, htrace, hkind, hentry, hnone⟩ :=
    Calls.begun_of_run (P := ListCall.InWake)
      (fun hrun => (WakerList.run_cases hrun).inWake) hreturned (fun _ h => h.2 rfl) hrun hwake
  cases call with
  | wakeLoad => exact ⟨before, event, after, htrace, hnone⟩
  | registerLock _ => exact hkind.1.elim
  | _ => cases hentry

end Along

theorem owes_of_wakesAfter
    (hrun : Runs.Run code.step (fun _ _ => True) ListSystem.new upto s)
    (hwakes : WakesAfter before upto t cx x) :
    (registered before).length < (Calls.shown upto).length ∨
      ∃ t', s.Owes upto (registered before).length t' := by
  obtain ⟨between, between', during, event, returned, rfl, hreturned⟩ := hwakes
  have hpushed : (registered before).length < (registered (before ++ ((t, .run),
      ⟨.registerPush cx, .registerUnlock, none⟩) :: between ++ ((t, .run),
      ⟨.registerUnlock, .returned, none⟩) :: between')).length := by
    rw [List.append_assoc, registered_append, List.length_append]
    exact Nat.lt_add_of_pos_right (Nat.succ_pos _)
  revert hrun hpushed
  generalize before ++ ((t, .run), ⟨.registerPush cx, .registerUnlock, none⟩) :: between ++
    ((t, .run), ⟨.registerUnlock, .returned, none⟩) :: between' = opening
  intro hrun hpushed
  obtain ⟨s₁, hfirst, -, hlast⟩ := hrun.snoc_inv
  rw [List.append_cons opening] at hfirst ⊢
  obtain ⟨s₀, hbegun, hduring⟩ := hfirst.split
  have hlt := Nat.lt_of_lt_of_le hpushed
    (length_registered_le opening [((x, .start .wakeLoad), event)])
  have hmet : ListSystem.Met (opening ++ [((x, .start .wakeLoad), event)]) s₀
      (registered before).length x := by
    rcases (listInv_of_run hbegun).owes_or_flag (ordered_of_run hbegun) hlt with
      hwoken | ⟨t', howes⟩ | hflag
    · exact .woken hwoken
    · exact .owed t' howes
    · refine .flagged hflag (Or.inl ?_)
      obtain ⟨s₂, -, -, hbegin⟩ := hbegun.snoc_inv
      have hmove := Calls.Code.step_cases hbegin
      rw [hmove.calls_self]
      cases hmove with
      | start _ _ _ => rfl
  have hmove := Calls.Code.step_cases hlast
  have hend := (hmet.along hbegun hlt hduring).step
    (Nat.lt_of_lt_of_le hlt (length_registered_le _ _)) (ordered_of_run hfirst)
    (listInv_of_run hfirst) hmove
  cases hend with
  | woken hwoken => exact Or.inl hwoken
  | owed t' howes => exact Or.inr ⟨t', howes⟩
  | flagged _ hcall =>
      rw [hmove.calls_self, hreturned] at hcall
      rcases hcall with h | h <;> cases h

/-- `WakerList` strands no waker.  Any number of threads register and wake, in any
interleaving.  While the mutex is free, the vector is not empty exactly when the flag is
set or one `wake` has cleared it and not drained the vector yet, and never both.  The
wakers are woken in the order of their registrations, each for one of them; and once a
`wake` that began after a `register` returned has returned itself, with every `wake` that
began before that, the waker of this registration was woken. -/
theorem waker_list_strands_nothing
    (hrun : Runs.Run code.step (fun _ _ => True) ListSystem.new trace s) :
    (s.object.mutex = none →
      (s.object.wakers ≠ [] ↔
        s.object.nonEmpty = true ∨ ∃! t, (s.calls t).drains = true) ∧
      ¬ (s.object.nonEmpty = true ∧ ∃ t, (s.calls t).drains = true) ∧
      ∀ t t', (s.calls t).drains = true → (s.calls t').drains = true → t = t') ∧
    Calls.shown trace <+: registered trace ∧
    ∀ before upto rest t cx x, trace = upto ++ rest → WakesAfter before upto t cx x →
      WakesReturned trace upto →
        (Calls.shown trace)[(registered before).length]? = some (Waker.new t cx) := by
  have hinv := listInv_of_run hrun
  have hordered := ordered_of_run hrun
  have hprefix : Calls.shown trace <+: registered trace :=
    ⟨_, (List.append_assoc _ _ _).symm.trans hordered⟩
  refine ⟨?_, hprefix, ?_⟩
  · intro hmutex
    have hunlocked : ∀ t, (s.calls t).pushes ≠ true := by
      intro t hpushes
      have hlocked := (hinv.locked t).mp (ListCall.locks_of_pushes hpushes)
      rw [hmutex] at hlocked
      cases hlocked
    refine ⟨⟨?_, ?_⟩, ?_, fun _ _ => hinv.flag.exclusive⟩
    · intro hwakers
      refine (hinv.flag.flagged.mp (Or.inl hwakers)).imp id ?_
      rintro ⟨t, hdrains⟩
      exact ⟨t, hdrains, fun t' hdrains' => hinv.flag.exclusive hdrains' hdrains⟩
    · intro hflag
      have hstocked : s.object.Stocked s.calls :=
        hinv.flag.flagged.mpr (hflag.imp id fun h => h.exists)
      exact hstocked.resolve_right fun ⟨t, hpushes⟩ => hunlocked t hpushes
    · rintro ⟨hflag, t, hdrains⟩
      rw [hinv.flag.cleared hdrains] at hflag
      cases hflag
  · rintro before upto rest t cx x rfl hwakes hreturned
    obtain ⟨s₁, hupto, hrest⟩ := hrun.split
    have hlt : (registered before).length < (Calls.shown (upto ++ rest)).length := by
      by_cases hnot : (registered before).length < (Calls.shown upto).length
      · rw [Calls.shown_append, List.length_append]
        exact Nat.lt_of_lt_of_le hnot (Nat.le_add_right _ _)
      · obtain ⟨t', howes⟩ := (owes_of_wakesAfter hupto hwakes).resolve_left hnot
        obtain ⟨before', event, after', hsplit, hnone⟩ :=
          wake_begun hupto (howes.inWake hnot)
        subst hsplit
        have hreturns := hreturned t' before' event (after' ++ rest)
          (by rw [List.append_assoc, List.cons_append])
          (by rw [List.length_append, List.length_cons]; omega)
        exact howes.along hupto hrest
          ((Calls.Code.returns_append.mp hreturns).resolve_left hnone)
    obtain ⟨between, between', during, event, returned, rfl, -⟩ := hwakes
    obtain ⟨more, hmore⟩ := hprefix
    rw [← List.getElem?_append_left hlt, hmore]
    simp only [List.append_assoc, List.cons_append, registered_append]
    rw [List.getElem?_append_right (Nat.le_refl _), Nat.sub_self]
    rfl

end Claim

/-- A thread registers and another one wakes it. -/
theorem waker_list_strands_nothing_one_wake :
    ∃ (trace : _) (s : ListSystem Bool Nat),
      Runs.Run code.step (fun _ _ => True) ListSystem.new trace s ∧
      s.calls true = .returned ∧ s.calls false = .returned ∧
      registered trace = [.async 5] ∧ (Calls.shown trace)[0]? = some (.async 5) := by
  have hrun := Runs.run_of_isSome code.step (fun _ _ => True)
    (ListSystem.new : ListSystem Bool Nat)
    (List.flatten [[(true, .start (.registerLock (some 5)))], List.replicate 5 (true, .run),
      [(false, .start .wakeLoad)], List.replicate 6 (false, .run)])
    (by decide +kernel) (by decide +kernel)
  obtain ⟨whole, s, hrun, hregistrar, hwake, hregistered, hall, hbefore, hupto⟩ :
      ∃ whole s, Runs.Run code.step (fun _ _ => True) ListSystem.new whole s ∧
        s.calls true = .returned ∧ s.calls false = .returned ∧
        registered whole = [.async 5] ∧
        (∀ k < whole.length, ∀ entry ∈ whole[k]?, entry.1.2 = .start .wakeLoad →
          ∃ entry' ∈ whole.drop (k + 1),
            entry'.1.1 = entry.1.1 ∧ entry'.2.target.isReturned = true) ∧
        registered (whole.take 4) = [] ∧
        whole = whole.take 4 ++
          ((true, .run), ⟨.registerPush (some 5), .registerUnlock, none⟩) :: [] ++
          ((true, .run), ⟨.registerUnlock, .returned, none⟩) :: [] ++
          ((false, .start .wakeLoad), ⟨.returned, .wakeLoad, none⟩) ::
            (whole.drop 7).take 5 ++ [((false, .run), ⟨.wakeAll [], .returned, none⟩)] :=
    ⟨_, _, hrun, by decide +kernel, by decide +kernel, by decide +kernel, by decide +kernel,
      by decide +kernel, by decide +kernel⟩
  have hreturned : WakesReturned whole whole := by
    intro t before event after htrace hlt
    have hentry : whole[before.length]? = some ((t, .start .wakeLoad), event) := by
      rw [htrace]
      simp
    obtain ⟨entry', hmem, hsame⟩ := hall before.length hlt _ hentry rfl
    refine ⟨entry', ?_, hsame⟩
    rw [htrace] at hmem
    simpa using hmem
  have hwoken := (waker_list_strands_nothing hrun).2.2 (whole.take 4) whole [] true (some 5)
    false (List.append_nil _).symm ⟨[], [], _, _, _, hupto, rfl⟩ hreturned
  rw [hbefore] at hwoken
  exact ⟨whole, s, hrun, hregistrar, hwake, hregistered, hwoken⟩

end SwapBufferQueue
