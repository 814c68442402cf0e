/-
The protocol of `AtomicWaker`: any number of threads that call `register` and `wake`, in any
interleaving.  Whatever they do, the cell has one user at a time and no assertion fails; with
one registrar at a time no registered waker is forgotten.  The duty to wake it goes from the
registrar to the cell, and from there to the `wake` that finds it.
-/
import SwapBufferQueue.AtomicWaker
import SwapBufferQueue.Lib.Calls

namespace SwapBufferQueue

universe x y

variable {T : Type x} {K : Type y}

open AtomicWaker

def AtomicCall.begins : AtomicCall T K → Bool
  | .registerStart _ => true
  | .wakeStart => true
  | _ => false

def AtomicCall.isReturned : AtomicCall T K → Bool
  | .returned => true
  | _ => false

/-- The calls that are inside an access to the cell. -/
def AtomicCall.accesses : AtomicCall T K → Bool
  | .registerStore _ => true
  | .registerTake _ => true
  | .wakeTake => true
  | _ => false

def AtomicWaker.code [DecidableEq K] :
    Calls.Code (AtomicWaker T K) T (AtomicCall T K) (Waker T K) :=
  ⟨AtomicCall.begins, AtomicCall.isReturned, AtomicWaker.run⟩

abbrev AtomicSystem (T : Type x) (K : Type y) : Type (max x y) :=
  Calls.System (AtomicWaker T K) T (AtomicCall T K)

def AtomicSystem.new : AtomicSystem T K := ⟨AtomicWaker.new, fun _ => .returned⟩

/-- A call of `register` begins when no other one is in progress. -/
def OneRegistrar (s : AtomicSystem T K) (label : T × Calls.Action (AtomicCall T K)) : Prop :=
  ∀ call ∈ label.2.call?, call.registers.isSome = true → ∀ t, (s.calls t).registers = none

instance instDecidableOneRegistrar [Fintype T] [DecidableEq K] (s : AtomicSystem T K)
    (label : T × Calls.Action (AtomicCall T K)) : Decidable (OneRegistrar s label) :=
  inferInstanceAs (Decidable (∀ call ∈ label.2.call?, call.registers.isSome = true →
    ∀ t, (s.calls t).registers = none))

/-- The calls that are about to take the waker out of the cell. -/
def AtomicCall.takes : AtomicCall T K → Bool
  | .registerTake _ => true
  | .wakeTake => true
  | _ => false

def NoWake (trace : Calls.Trace T (AtomicCall T K) (Waker T K)) : Prop :=
  ∀ entry ∈ trace, entry.2.source ≠ .wakeStart

/-- Nobody has taken a waker out of the cell. -/
def NoTake (trace : Calls.Trace T (AtomicCall T K) (Waker T K)) : Prop :=
  ∀ entry ∈ trace, entry.2.source.takes = false

/-- A `register` has stored another waker over this one: it found it in the cell, and nobody
had taken it since `before`. -/
def Replaced [DecidableEq T] [DecidableEq K]
    (before after : Calls.Trace T (AtomicCall T K) (Waker T K)) (waker : Waker T K) : Prop :=
  ∃ between t cx rest s,
    after = between ++ ((t, .run), ⟨.registerStore cx, .registerFinish cx, none⟩) :: rest ∧
    NoTake between ∧
    Runs.Run AtomicWaker.code.step (fun _ _ => True) AtomicSystem.new (before ++ between) s ∧
    s.object.waker = some waker ∧ Waker.new t cx ≠ waker

/-- A `register` in progress is about to store another waker over this one. -/
def AtomicSystem.Replaces (s : AtomicSystem T K) (t : T) (waker : Waker T K) : Prop :=
  s.object.waker = some waker ∧ ∃ cx, s.calls t = .registerStore cx ∧ Waker.new t cx ≠ waker

/-- A `wake` in progress has taken the waker, or is about to take it. -/
def AtomicSystem.Takes (s : AtomicSystem T K) (t : T) (waker : Waker T K) : Prop :=
  s.calls t = .wakeTake ∧ s.object.waker = some waker ∨ s.calls t = .wakeClear (some waker) ∨
    s.calls t = .wakeWake waker

/-- A `register` in progress, which a `wake` has met, keeps the waker or has taken it back. -/
inductive AtomicSystem.TakesBack (s : AtomicSystem T K) (t : T) (waker : Waker T K) : Prop
  | store (cx : Option K) (hcall : s.calls t = .registerStore cx)
      (hwaker : Waker.new t cx = waker) (hstate : s.object.state = registering ||| waking)
  | finish (cx : Option K) (hcall : s.calls t = .registerFinish cx)
      (hwaker : s.object.waker = some waker) (hstate : s.object.state = registering ||| waking)
  | take (cx : Option K) (hcall : s.calls t = .registerTake cx)
      (hwaker : s.object.waker = some waker)
  | swap (cx : Option K) (hcall : s.calls t = .registerSwap cx waker)
  | wake (cx : Option K) (hcall : s.calls t = .registerWake cx waker)

section Steps

variable [DecidableEq T] [DecidableEq K] {s s' : AtomicSystem T K} {t t' : T} {cx : Option K}
  {action : Calls.Action (AtomicCall T K)} {event : Calls.Event (AtomicCall T K) (Waker T K)}
  {waker : Waker T K} {trace before after : Calls.Trace T (AtomicCall T K) (Waker T K)}

/-- A call in progress will wake the waker, a `wake` that takes it or a `register` that takes
it back: it does so before it returns, whatever the others do, and it can always go on. -/
structure AtomicSystem.Owes (s : AtomicSystem T K) (t : T) (waker : Waker T K) : Prop where
  takes : s.Takes t waker ∨ s.TakesBack t waker
  wakes {more : Calls.Trace T (AtomicCall T K) (Waker T K)} {s' : AtomicSystem T K} :
    Runs.Run code.step (fun _ _ => True) s more s' → code.Returns t more →
      ∃ entry ∈ more, entry.1.1 = t ∧ entry.2.shown = some waker
  returns : code.ReturnsAlone s t

theorem AtomicInv.move (hinv : AtomicInv s.object s.calls)
    (hmove : code.Move s t action s' event) : AtomicInv s'.object s'.calls := by
  cases hmove with
  | start call hreturned hentry =>
      generalize hcall : s.calls t = old at hreturned
      have hfree : (s.calls t).owns = false := by
        rw [hcall]
        cases old with
        | returned => rfl
        | _ => cases hreturned
      cases call with
      | registerStart _ => exact hinv.switch hfree rfl trivial
      | wakeStart => exact hinv.switch hfree rfl trivial
      | _ => cases hentry
  | run hrun => exact hinv.step (AtomicWaker.run_cases hrun)

theorem atomicInv_of_run {ok : AtomicSystem T K → T × Calls.Action (AtomicCall T K) → Prop}
    (hrun : Runs.Run code.step ok AtomicSystem.new trace s) :
    AtomicInv s.object s.calls := by
  refine hrun.invariant (fun _ s => AtomicInv s.object s.calls) AtomicInv.new ?_
  rintro trace state state' ⟨t, action⟩ event - hinv - hstep
  exact hinv.move (Calls.Code.step_cases hstep)

omit [DecidableEq T] in
theorem AtomicMove.registers_ne {a a' : AtomicWaker T K} {call call' : AtomicCall T K}
    {woken : Option (Waker T K)} (hmove : AtomicMove a t call a' call' woken)
    (hregisters : call'.registers ≠ none) : call.registers ≠ none := by
  cases hmove with
  | wake _ => exact hregisters
  | take => exact hregisters
  | clear _ => exact hregisters
  | leave _ => exact hregisters
  | wakeAssert _ _ _ _ => exact hregisters
  | clearNothing => exact hregisters
  | wakes _ => exact hregisters
  | _ => nofun

theorem registrar_unique (hrun : Runs.Run code.step OneRegistrar AtomicSystem.new trace s) :
    ∀ {t t'}, (s.calls t).registers ≠ none → (s.calls t').registers ≠ none → t = t' := by
  refine hrun.invariant (fun _ s => ∀ {t t'}, (s.calls t).registers ≠ none →
    (s.calls t').registers ≠ none → t = t') (fun h => absurd rfl h) ?_
  rintro trace state state' ⟨t, action⟩ event - hunique hok hstep t₁ t₂ h₁ h₂
  have hmove := Calls.Code.step_cases hstep
  -- A thread that registers did so before, or it has just begun and nobody else did.
  have hbefore : ∀ {t'}, (state'.calls t').registers ≠ none →
      (state.calls t').registers ≠ none ∨
        t' = t ∧ ∀ t'', (state.calls t'').registers = none := by
    intro t' ht'
    by_cases heq : t' = t
    · subst heq
      rw [hmove.calls_self] at ht'
      cases hmove with
      | start call _ hentry =>
          cases call with
          | registerStart _ => exact Or.inr ⟨rfl, hok _ rfl rfl⟩
          | wakeStart => exact absurd rfl ht'
          | _ => cases hentry
      | run hrun => exact Or.inl ((AtomicWaker.run_cases hrun).registers_ne ht')
    · rw [hmove.calls_of_ne heq] at ht'
      exact Or.inl ht'
  rcases hbefore h₁ with h₁ | ⟨rfl, hnone⟩
  · rcases hbefore h₂ with h₂ | ⟨rfl, hnone⟩
    · exact hunique h₁ h₂
    · exact absurd (hnone t₁) h₁
  · rcases hbefore h₂ with h₂ | ⟨rfl, -⟩
    · exact absurd (hnone t₂) h₂
    · rfl

omit [DecidableEq T] in
/-- A step of another thread, as a call that has the cell sees it. -/
theorem AtomicInv.other_step {a a' : AtomicWaker T K} {calls : T → AtomicCall T K}
    {call' : AtomicCall T K} {woken : Option (Waker T K)} (hinv : AtomicInv a calls)
    (howns : (calls t').owns = true) (ht : t' ≠ t)
    (hmove : AtomicMove a t (calls t) a' call' woken) :
    a'.waker = a.waker ∧
      (a'.state = a.state ∧ calls t ≠ .wakeStart ∨ a'.state = a.state ||| waking) := by
  have hstate := (hinv.knows t').state_ne howns
  have hfree := hinv.others howns t (Ne.symm ht)
  generalize calls t = call at hmove hfree
  cases hmove with
  | register _ h => exact absurd h hstate
  | wake h => exact absurd h hstate
  | meetsWake _ _ => exact ⟨rfl, Or.inl ⟨rfl, nofun⟩⟩
  | meetsRegister _ _ => exact ⟨rfl, Or.inl ⟨rfl, nofun⟩⟩
  | registerAssert _ _ _ _ _ => exact ⟨rfl, Or.inl ⟨rfl, nofun⟩⟩
  | registerWake _ _ => exact ⟨rfl, Or.inl ⟨rfl, nofun⟩⟩
  | wakeSelf _ => exact ⟨rfl, Or.inl ⟨rfl, nofun⟩⟩
  | wakes _ => exact ⟨rfl, Or.inl ⟨rfl, nofun⟩⟩
  | leave _ => exact ⟨rfl, Or.inr rfl⟩
  | wakeAssert _ _ _ _ => exact ⟨rfl, Or.inr rfl⟩
  | _ => cases hfree

/-- A `wake` that has a waker, or is about to have it, goes on and wakes it. -/
theorem AtomicSystem.Takes.step (htakes : s.Takes t' waker)
    (hinv : AtomicInv s.object s.calls) (hmove : code.Move s t action s' event) :
    t = t' ∧ event.shown = some waker ∨
      s'.Takes t' waker ∧ ¬ (t = t' ∧ code.returned event.target = true) := by
  by_cases ht : t = t'
  · subst ht
    have hcall := hmove.calls_self
    cases hmove with
    | start _ hreturned _ =>
        rcases htakes with ⟨h, -⟩ | h | h <;> rw [h] at hreturned <;> cases hreturned
    | @run object call shown hrun =>
        have hrun := AtomicWaker.run_cases hrun
        rcases htakes with ⟨h, hwaker⟩ | h | h
        · rw [h] at hrun
          cases hrun with
          | take =>
              rw [hwaker] at hcall ⊢
              exact Or.inr ⟨Or.inr (Or.inl hcall), nofun⟩
        · rw [h] at hrun
          cases hrun with
          | clear _ => exact Or.inr ⟨Or.inr (Or.inr hcall), nofun⟩
        · rw [h] at hrun
          cases hrun with
          | wakes _ => exact Or.inl ⟨rfl, rfl⟩
  · refine Or.inr ⟨?_, fun h => ht h.1⟩
    have hsame := hmove.calls_of_ne (Ne.symm ht)
    rw [Takes, hsame]
    rcases htakes with ⟨h, hwaker⟩ | h
    · refine Or.inl ⟨h, ?_⟩
      have howns : (s.calls t').owns = true := by rw [h]; rfl
      cases hmove with
      | start _ _ _ => exact hwaker
      | run hrun =>
          rw [← hwaker]
          exact (hinv.other_step howns (Ne.symm ht) (AtomicWaker.run_cases hrun)).1
    · exact Or.inr h

/-- At most three steps are left: the take, the `fetch_and` and the wake. -/
theorem AtomicSystem.Takes.returnsAlone (htakes : s.Takes t waker) :
    code.ReturnsAlone s t := by
  have hwake : ∀ s : AtomicSystem T K, s.calls t = .wakeWake waker →
      code.ReturnsAlone s t := by
    intro s h
    have hstep : code.step s (t, .run) = some (⟨s.object, Function.update s.calls t .returned⟩,
        ⟨s.calls t, .returned, some waker⟩) := by
      simp only [Calls.Code.step, code, h, AtomicWaker.run]
    exact .of_last hstep rfl
  have hclear : ∀ s : AtomicSystem T K, s.calls t = .wakeClear (some waker) →
      code.ReturnsAlone s t := by
    intro s h
    have hstep : code.step s (t, .run) = some (⟨{ s.object with
        state := s.object.state &&& ~~~waking }, Function.update s.calls t (.wakeWake waker)⟩,
        ⟨s.calls t, .wakeWake waker, none⟩) := by
      simp only [Calls.Code.step, code, h, AtomicWaker.run]
    refine .of_step hstep (hwake _ ?_)
    exact Function.update_self _ _ _
  rcases htakes with ⟨h, hwaker⟩ | h | h
  · have hstep : code.step s (t, .run) = some (⟨{ s.object with waker := none },
        Function.update s.calls t (.wakeClear (some waker))⟩,
        ⟨s.calls t, .wakeClear (some waker), none⟩) := by
      simp only [Calls.Code.step, code, h, AtomicWaker.run, hwaker]
    refine .of_step hstep (hclear _ ?_)
    exact Function.update_self _ _ _
  · exact hclear s h
  · exact hwake s h

/-- A `register` that a `wake` has met goes on and wakes its waker. -/
theorem AtomicSystem.TakesBack.step (htakes : s.TakesBack t' waker)
    (hinv : AtomicInv s.object s.calls) (hmove : code.Move s t action s' event) :
    t = t' ∧ event.shown = some waker ∨
      s'.TakesBack t' waker ∧ ¬ (t = t' ∧ code.returned event.target = true) := by
  by_cases ht : t = t'
  · subst ht
    have hcall := hmove.calls_self
    cases hmove with
    | start _ hreturned _ =>
        cases htakes with
        | store _ h _ _ => rw [h] at hreturned; cases hreturned
        | finish _ h _ _ => rw [h] at hreturned; cases hreturned
        | take _ h _ => rw [h] at hreturned; cases hreturned
        | swap _ h => rw [h] at hreturned; cases hreturned
        | wake _ h => rw [h] at hreturned; cases hreturned
    | @run object call shown hrun =>
        have hrun := AtomicWaker.run_cases hrun
        cases htakes with
        | store cx h hwaker hstate =>
            rw [h] at hrun
            cases hrun with
            | store _ =>
                have hstored := (s.object.stored_eq t cx).trans hwaker
                exact Or.inr ⟨.finish cx hcall (congrArg some hstored) hstate, nofun⟩
        | finish cx h hwaker hstate =>
            rw [h] at hrun
            cases hrun with
            | finish _ h =>
                rw [hstate] at h
                cases h
            | takeBack _ _ => exact Or.inr ⟨.take cx hcall hwaker, nofun⟩
            | finishAssert _ _ h => exact absurd hstate h
        | take cx h hwaker =>
            rw [h] at hrun
            cases hrun with
            | registerUnwrap _ hnone =>
                rw [hwaker] at hnone
                cases hnone
            | registerTake _ _ hsome =>
                rw [hwaker] at hsome
                cases hsome
                exact Or.inr ⟨.swap cx hcall, nofun⟩
        | swap cx h =>
            rw [h] at hrun
            cases hrun with
            | swap _ _ => exact Or.inr ⟨.wake cx hcall, nofun⟩
        | wake cx h =>
            rw [h] at hrun
            cases hrun with
            | registerWake _ _ => exact Or.inl ⟨rfl, rfl⟩
  · refine Or.inr ⟨?_, fun h => ht h.1⟩
    have hsame := hmove.calls_of_ne (Ne.symm ht)
    have hcell : (s.calls t').owns = true → s'.object.waker = s.object.waker ∧
        (s.object.state = registering ||| waking →
          s'.object.state = registering ||| waking) := by
      intro howns
      cases hmove with
      | start _ _ _ => exact ⟨rfl, id⟩
      | run hrun =>
          obtain ⟨hwaker, hstate⟩ :=
            hinv.other_step howns (Ne.symm ht) (AtomicWaker.run_cases hrun)
          refine ⟨hwaker, fun h => ?_⟩
          rcases hstate with ⟨hstate, -⟩ | hstate
          · exact hstate.trans h
          · rw [hstate, h]
            decide
    cases htakes with
    | store cx h hwaker hstate =>
        have hcell := hcell (by rw [h]; rfl)
        exact .store cx (hsame.trans h) hwaker (hcell.2 hstate)
    | finish cx h hwaker hstate =>
        have hcell := hcell (by rw [h]; rfl)
        exact .finish cx (hsame.trans h) (hcell.1.trans hwaker) (hcell.2 hstate)
    | take cx h hwaker =>
        have hcell := hcell (by rw [h]; rfl)
        exact .take cx (hsame.trans h) (hcell.1.trans hwaker)
    | swap cx h => exact .swap cx (hsame.trans h)
    | wake cx h => exact .wake cx (hsame.trans h)

/-- At most five steps are left: the store, the failed `compare_exchange`, the take, the swap
and the wake. -/
theorem AtomicSystem.TakesBack.returnsAlone (htakes : s.TakesBack t waker) :
    code.ReturnsAlone s t := by
  have hwake : ∀ (s : AtomicSystem T K) (cx : Option K),
      s.calls t = .registerWake cx waker → code.ReturnsAlone s t := by
    intro s cx h
    have hstep : code.step s (t, .run) = some (⟨s.object, Function.update s.calls t .returned⟩,
        ⟨s.calls t, .returned, some waker⟩) := by
      simp only [Calls.Code.step, code, h, AtomicWaker.run]
    exact .of_last hstep rfl
  have hswap : ∀ (s : AtomicSystem T K) (cx : Option K),
      s.calls t = .registerSwap cx waker → code.ReturnsAlone s t := by
    intro s cx h
    have hstep : code.step s (t, .run) = some (⟨{ s.object with state := waiting },
        Function.update s.calls t (.registerWake cx waker)⟩,
        ⟨s.calls t, .registerWake cx waker, none⟩) := by
      simp only [Calls.Code.step, code, h, AtomicWaker.run]
    refine .of_step hstep (hwake _ cx ?_)
    exact Function.update_self _ _ _
  have htake : ∀ (s : AtomicSystem T K) (cx : Option K), s.calls t = .registerTake cx →
      s.object.waker = some waker → code.ReturnsAlone s t := by
    intro s cx h hwaker
    have hstep : code.step s (t, .run) = some (⟨{ s.object with waker := none },
        Function.update s.calls t (.registerSwap cx waker)⟩,
        ⟨s.calls t, .registerSwap cx waker, none⟩) := by
      simp only [Calls.Code.step, code, h, AtomicWaker.run, hwaker]
    refine .of_step hstep (hswap _ cx ?_)
    exact Function.update_self _ _ _
  have hfinish : ∀ (s : AtomicSystem T K) (cx : Option K), s.calls t = .registerFinish cx →
      s.object.waker = some waker → s.object.state = registering ||| waking →
      code.ReturnsAlone s t := by
    intro s cx h hwaker hstate
    have hstep : code.step s (t, .run) = some (⟨s.object,
        Function.update s.calls t (.registerTake cx)⟩,
        ⟨s.calls t, .registerTake cx, none⟩) := by
      have hne : s.object.state ≠ registering := by
        rw [hstate]
        decide
      simp only [Calls.Code.step, code, h, AtomicWaker.run, if_neg hne, if_pos hstate]
    refine .of_step hstep (htake _ cx ?_ hwaker)
    exact Function.update_self _ _ _
  cases htakes with
  | store cx h hwaker hstate =>
      have hstep : code.step s (t, .run) = some (⟨{ s.object with
          waker := some (s.object.stored t cx) },
          Function.update s.calls t (.registerFinish cx)⟩,
          ⟨s.calls t, .registerFinish cx, none⟩) := by
        simp only [Calls.Code.step, code, h, AtomicWaker.run]
      refine .of_step hstep (hfinish _ cx ?_ ?_ hstate)
      · exact Function.update_self _ _ _
      · exact congrArg some ((s.object.stored_eq t cx).trans hwaker)
  | finish cx h hwaker hstate => exact hfinish s cx h hwaker hstate
  | take cx h hwaker => exact htake s cx h hwaker
  | swap cx h => exact hswap s cx h
  | wake cx h => exact hwake s cx h

/-- The waker of a call in progress goes on with it until it is woken. -/
theorem AtomicSystem.takes_step (htakes : s.Takes t' waker ∨ s.TakesBack t' waker)
    (hinv : AtomicInv s.object s.calls) (hmove : code.Move s t action s' event) :
    t = t' ∧ event.shown = some waker ∨
      (s'.Takes t' waker ∨ s'.TakesBack t' waker) ∧
        ¬ (t = t' ∧ code.returned event.target = true) := by
  rcases htakes with htakes | htakes
  · exact (htakes.step hinv hmove).imp_right (And.imp_left Or.inl)
  · exact (htakes.step hinv hmove).imp_right (And.imp_left Or.inr)

theorem AtomicInv.owes (hinv : AtomicInv s.object s.calls)
    (htakes : s.Takes t waker ∨ s.TakesBack t waker) : s.Owes t waker where
  takes := htakes
  wakes {more s'} hrun hreturns := by
    have hall := hrun.invariant (fun more s' => AtomicInv s'.object s'.calls ∧
      ((∃ entry ∈ more, entry.1.1 = t ∧ entry.2.shown = some waker) ∨
        (AtomicSystem.Takes s' t waker ∨ AtomicSystem.TakesBack s' t waker) ∧
          ¬ code.Returns t more))
      ⟨hinv, Or.inr ⟨htakes, fun ⟨_, hmem, _⟩ => by cases hmem⟩⟩ ?_
    · exact hall.2.resolve_right fun h => h.2 hreturns
    · rintro more state state' ⟨t', action⟩ event - ⟨hstate, hduty⟩ - hstep
      have hmove := Calls.Code.step_cases hstep
      refine ⟨hstate.move hmove, ?_⟩
      rcases hduty with ⟨entry, hmem, hentry⟩ | ⟨htakes', hnot⟩
      · exact Or.inl ⟨entry, List.mem_append_left _ hmem, hentry⟩
      · rcases AtomicSystem.takes_step htakes' hstate hmove with hshown | ⟨htakes'', hgoes⟩
        · exact Or.inl ⟨_, List.mem_append_right _ List.mem_cons_self, hshown⟩
        · refine Or.inr ⟨htakes'', ?_⟩
          rw [Calls.Code.returns_append, Calls.Code.returns_singleton]
          exact not_or.mpr ⟨hnot, hgoes⟩
  returns := htakes.elim AtomicSystem.Takes.returnsAlone AtomicSystem.TakesBack.returnsAlone

/-- Since `after` began nobody has taken a waker out of the cell, and while the state is
`REGISTERING` no `wake` has come. -/
def AtomicSystem.Quiet (s : AtomicSystem T K)
    (after : Calls.Trace T (AtomicCall T K) (Waker T K)) : Prop :=
  NoTake after ∧ (s.object.state = registering → NoWake after)

/-- The call of `register` is in progress. -/
def AtomicSystem.Registering (s : AtomicSystem T K)
    (after : Calls.Trace T (AtomicCall T K) (Waker T K)) (cx : Option K) :
    AtomicCall T K → Prop
  | .registerStore cx' => cx' = cx ∧ s.Quiet after
  | .registerFinish cx' => cx' = cx ∧ s.Quiet after
  | .registerTake cx' => cx' = cx
  | .registerSwap cx' _ => cx' = cx
  | .registerWake cx' _ => cx' = cx
  | .registerWakeSelf cx' => cx' = cx
  | _ => False

/-- The waker is in the cell, and nobody has come for it.  A later `register` may have the
cell. -/
structure AtomicSystem.Held (s : AtomicSystem T K)
    (after : Calls.Trace T (AtomicCall T K) (Waker T K)) (waker : Waker T K) : Prop where
  waker_eq : s.object.waker = some waker
  state_eq : s.object.state = waiting ∨ s.object.state = registering
  noTake : NoTake after
  noWake : NoWake after

/-- Where the duty to wake the waker of a `register` is, with what happened since its
initial `compare_exchange`, the last step of `before`. -/
inductive AtomicSystem.Tracked (s : AtomicSystem T K)
    (before after : Calls.Trace T (AtomicCall T K) (Waker T K)) (t : T) (cx : Option K) : Prop
  | woken (hwoken : Waker.new t cx ∈ Calls.shown after)
  | replaced (hreplaced : Replaced before after (Waker.new t cx))
  | registering (hregistering : s.Registering after cx (s.calls t))
      (hnot : ¬ code.Returns t after)
  | held (hheld : s.Held after (Waker.new t cx))
  | replaces (t' : T) (hreplaces : s.Replaces t' (Waker.new t cx)) (hnot : NoTake after)
  | taken (t' : T) (htakes : s.Takes t' (Waker.new t cx) ∨ s.TakesBack t' (Waker.new t cx))

omit [DecidableEq T] [DecidableEq K] in
theorem NoWake.snoc (hnot : NoWake after) {label : T × Calls.Action (AtomicCall T K)}
    (hsource : event.source ≠ .wakeStart) : NoWake (after ++ [(label, event)]) :=
  List.forall_mem_append.mpr ⟨hnot, (List.forall_mem_singleton).mpr hsource⟩

omit [DecidableEq T] [DecidableEq K] in
theorem NoTake.snoc (hnot : NoTake after) {label : T × Calls.Action (AtomicCall T K)}
    (hsource : event.source.takes = false) : NoTake (after ++ [(label, event)]) :=
  List.forall_mem_append.mpr ⟨hnot, (List.forall_mem_singleton).mpr hsource⟩

omit [DecidableEq T] [DecidableEq K] in
theorem mem_shown_snoc {label : T × Calls.Action (AtomicCall T K)}
    (hshown : event.shown = some waker) : waker ∈ Calls.shown (after ++ [(label, event)]) :=
  Calls.mem_shown.mpr ⟨_, List.mem_append_right _ List.mem_cons_self, hshown⟩

omit [DecidableEq T] [DecidableEq K] in
theorem AtomicCall.takes_of_not_owns {call : AtomicCall T K} (howns : call.owns = false) :
    call.takes = false := by
  cases call with
  | registerTake _ => cases howns
  | wakeTake => cases howns
  | _ => rfl

theorem Replaced.snoc (hreplaced : Replaced before after waker)
    (entry : (T × Calls.Action (AtomicCall T K)) × Calls.Event (AtomicCall T K) (Waker T K)) :
    Replaced before (after ++ [entry]) waker := by
  obtain ⟨between, t, cx, rest, s, rfl, hreplaced⟩ := hreplaced
  exact ⟨between, t, cx, rest ++ [entry], s, by rw [List.append_assoc, List.cons_append],
    hreplaced⟩

theorem AtomicSystem.Registering.self_step (hinv : AtomicInv s.object s.calls)
    (hregistering : s.Registering after cx (s.calls t)) (hnot : ¬ code.Returns t after)
    (hmove : code.Move s t action s' event) :
    AtomicSystem.Tracked s' before (after ++ [((t, action), event)]) t cx := by
  have hinv' := (hinv.move hmove).knows t
  have hself := hmove.calls_self
  have hsource := hmove.source_eq
  have hknows := hinv.knows t
  have hreturns : ¬ code.returned event.target = true →
      ¬ code.Returns t (after ++ [((t, action), event)]) := by
    intro htarget
    rw [Calls.Code.returns_append, Calls.Code.returns_singleton]
    exact not_or.mpr ⟨hnot, fun h => htarget h.2⟩
  generalize hcall : s.calls t = call at hregistering hknows hsource
  cases hmove with
  | start _ hreturned _ =>
      rw [hcall] at hreturned
      cases call with
      | returned => exact hregistering.elim
      | _ => cases hreturned
  | @run object call' shown hrun =>
      have hrun := AtomicWaker.run_cases hrun
      rw [hcall] at hrun
      rw [hself] at hinv'
      have hgoes : ∀ {state' : AtomicSystem T K}, state'.calls t = call' →
          state'.Registering (after ++ [((t, .run), ⟨s.calls t, call', shown⟩)]) cx call' →
          ¬ code.returned call' = true →
          AtomicSystem.Tracked state' before
            (after ++ [((t, .run), ⟨s.calls t, call', shown⟩)]) t cx :=
        fun heq hregistering' htarget => .registering (heq ▸ hregistering') (hreturns htarget)
      cases hrun with
      | store _ =>
          obtain ⟨heq, htake, hwake⟩ := hregistering
          exact hgoes hself ⟨heq, htake.snoc (congrArg AtomicCall.takes hcall),
            fun h => (hwake h).snoc (hsource ▸ nofun)⟩ nofun
      | finish _ hstate =>
          obtain ⟨rfl, htake, hwake⟩ := hregistering
          exact .held ⟨hknows.2, Or.inl rfl, htake.snoc (congrArg AtomicCall.takes hcall),
            (hwake hstate).snoc (hsource ▸ nofun)⟩
      | takeBack _ _ => exact hgoes hself hregistering.1 nofun
      | registerTake _ _ _ => exact hgoes hself hregistering nofun
      | swap _ _ => exact hgoes hself hregistering nofun
      | registerWake _ waker =>
          cases hregistering
          exact .woken (mem_shown_snoc (congrArg some hknows))
      | wakeSelf _ =>
          cases hregistering
          exact .woken (mem_shown_snoc rfl)
      | finishAssert _ _ _ => exact hinv'.elim
      | registerUnwrap _ _ => exact hinv'.elim
      | _ => exact hregistering.elim

omit [DecidableEq T] [DecidableEq K] in
/-- Nobody but the registrar takes the mark of a `wake` back. -/
theorem AtomicKnows.state_or_ne {a : AtomicWaker T K} {call : AtomicCall T K}
    (hknows : AtomicKnows a t call) (howns : call.owns = true) :
    a.state ||| waking ≠ registering := by
  rcases hknows.state howns with ⟨-, h | h⟩ | ⟨-, h⟩ <;> rw [h] <;> decide

theorem AtomicSystem.Registering.other_step (hinv : AtomicInv s.object s.calls)
    (hregistering : s.Registering after cx (s.calls t)) (ht : t ≠ t')
    (hmove : code.Move s t' action s' event) :
    AtomicSystem.Registering s' (after ++ [((t', action), event)]) cx (s'.calls t) := by
  rw [hmove.calls_of_ne ht]
  -- The state is `REGISTERING` only when it was, and then this is no `fetch_or`.
  have hkeep : (s.calls t).owns = true → s.Quiet after →
      AtomicSystem.Quiet s' (after ++ [((t', action), event)]) := by
    intro howns ⟨htake, hnot⟩
    have hothers := AtomicCall.takes_of_not_owns (hinv.others howns t' (Ne.symm ht))
    refine ⟨htake.snoc (hmove.source_eq ▸ hothers), fun hstate => ?_⟩
    cases hmove with
    | start _ hreturned _ =>
        refine (hnot hstate).snoc fun hsource : s.calls t' = .wakeStart => ?_
        rw [hsource] at hreturned
        cases hreturned
    | run hrun =>
        obtain ⟨-, ⟨hsame, hsource⟩ | hor⟩ :=
          hinv.other_step howns ht (AtomicWaker.run_cases hrun)
        · exact (hnot (hsame.symm.trans hstate)).snoc hsource
        · exact absurd (hor.symm.trans hstate) ((hinv.knows t).state_or_ne howns)
  generalize s.calls t = call at hregistering hkeep
  cases call with
  | registerStore _ => exact ⟨hregistering.1, hkeep rfl hregistering.2⟩
  | registerFinish _ => exact ⟨hregistering.1, hkeep rfl hregistering.2⟩
  | registerTake _ => exact hregistering
  | registerSwap _ _ => exact hregistering
  | registerWake _ _ => exact hregistering
  | registerWakeSelf _ => exact hregistering
  | _ => exact hregistering.elim

omit [DecidableEq T] [DecidableEq K] in
theorem AtomicSystem.Held.state_ne (hheld : s.Held after waker) :
    s.object.state ≠ waking ∧ s.object.state ≠ registering ||| waking := by
  rcases hheld.state_eq with h | h <;> rw [h] <;> decide

/-- A `wake` meets a later `register` that has the cell: that `register` keeps the waker and
wakes it, or it is about to store another one over it. -/
theorem AtomicSystem.Held.leave (hheld : s.Held after (Waker.new t cx))
    (hinv : AtomicInv s.object s.calls) (hcall : s.calls t' = .wakeStart)
    (hstate : s.object.state = registering) {after' : Calls.Trace T (AtomicCall T K) (Waker T K)}
    (hnot : NoTake after') :
    AtomicSystem.Tracked ⟨{ s.object with state := s.object.state ||| waking },
      Function.update s.calls t' .returned⟩ before after' t cx := by
  obtain ⟨t₁, howns⟩ := hinv.owned (by rw [hstate]; decide)
  have hne : t₁ ≠ t' := by
    rintro rfl
    rw [hcall] at howns
    cases howns
  have hsame : Function.update s.calls t' .returned t₁ = s.calls t₁ :=
    Function.update_of_ne hne _ _
  have hboth : s.object.state ||| waking = registering ||| waking := by rw [hstate]
  have hknows := hinv.knows t₁
  generalize hcall₁ : s.calls t₁ = call at howns hknows hsame
  cases call with
  | registerStore cx₁ =>
      by_cases heq : Waker.new t₁ cx₁ = Waker.new t cx
      · exact .taken t₁ (Or.inr (.store cx₁ hsame heq hboth))
      · exact .replaces t₁ ⟨hheld.waker_eq, cx₁, hsame, heq⟩ hnot
  | registerFinish cx₁ => exact .taken t₁ (Or.inr (.finish cx₁ hsame hheld.waker_eq hboth))
  | registerTake _ => exact absurd hknows.1 hheld.state_ne.2
  | registerSwap _ _ => exact absurd hknows.1 hheld.state_ne.2
  | wakeTake => exact absurd hknows hheld.state_ne.1
  | wakeClear _ => exact absurd hknows.1 hheld.state_ne.1
  | _ => cases howns

/-- A waker stays in the cell until a `wake` comes, or a `register` stores another one. -/
theorem AtomicSystem.Held.step (hheld : s.Held after (Waker.new t cx))
    (hinv : AtomicInv s.object s.calls)
    (hrun : Runs.Run code.step (fun _ _ => True) AtomicSystem.new (before ++ after) s)
    (hmove : code.Move s t' action s' event) :
    AtomicSystem.Tracked s' before (after ++ [((t', action), event)]) t cx := by
  have hself := hmove.calls_self
  obtain ⟨hwaking, hboth⟩ := hheld.state_ne
  cases hmove with
  | start _ hreturned _ =>
      generalize s.calls t' = call at hreturned
      cases call with
      | returned =>
          exact .held ⟨hheld.waker_eq, hheld.state_eq, hheld.noTake.snoc rfl,
            hheld.noWake.snoc nofun⟩
      | _ => cases hreturned
  | @run object call' shown hstep =>
      have hstep := AtomicWaker.run_cases hstep
      have hknows := hinv.knows t'
      have hknows' := (hinv.step hstep).knows t'
      rw [Function.update_self] at hknows'
      generalize hcall : s.calls t' = call at hstep hknows
      have hstays : call ≠ .wakeStart → call.takes = false →
          object.waker = some (Waker.new t cx) →
          object.state = waiting ∨ object.state = registering → AtomicSystem.Tracked
          ⟨object, Function.update s.calls t' call'⟩ before
          (after ++ [((t', .run), ⟨call, call', shown⟩)]) t cx :=
        fun hne htakes hwaker hstate =>
          .held ⟨hwaker, hstate, hheld.noTake.snoc htakes, hheld.noWake.snoc hne⟩
      cases hstep with
      | register _ _ => exact hstays nofun rfl hheld.waker_eq (Or.inr rfl)
      | meetsWake _ hstate => exact absurd hstate hwaking
      | meetsRegister _ _ => exact hstays nofun rfl hheld.waker_eq hheld.state_eq
      | store cx' =>
          have hstored := s.object.stored_eq t' cx'
          by_cases heq : Waker.new t' cx' = Waker.new t cx
          · exact hstays nofun rfl (congrArg some (hstored.trans heq)) hheld.state_eq
          · exact .replaced ⟨after, t', cx', [], s, rfl, hheld.noTake, hrun, hheld.waker_eq, heq⟩
      | finish _ _ => exact hstays nofun rfl hheld.waker_eq (Or.inl rfl)
      | takeBack _ hstate => exact absurd hstate hboth
      | registerTake _ _ _ => exact absurd hknows.1 hboth
      | swap _ _ => exact absurd hknows.1 hboth
      | registerWake _ _ => exact hstays nofun rfl hheld.waker_eq hheld.state_eq
      | wakeSelf _ => exact hstays nofun rfl hheld.waker_eq hheld.state_eq
      | wake _ => exact .taken t' (Or.inl (Or.inl ⟨hself, hheld.waker_eq⟩))
      | leave hstate =>
          rcases hstate with hstate | hstate | hstate
          · exact hheld.leave hinv hcall hstate (hheld.noTake.snoc rfl)
          · exact absurd hstate hboth
          · exact absurd hstate hwaking
      | take => exact absurd hknows hwaking
      | clearNothing => exact absurd hknows.1 hwaking
      | clear _ => exact absurd hknows.1 hwaking
      | wakes _ => exact hstays nofun rfl hheld.waker_eq hheld.state_eq
      | registerAssert _ _ _ _ _ => exact hknows'.elim
      | finishAssert _ _ _ => exact hknows'.elim
      | registerUnwrap _ _ => exact hknows'.elim
      | wakeAssert _ _ _ _ => exact hknows'.elim

/-- A `register` that is about to store another waker does so next. -/
theorem AtomicSystem.Replaces.step {t₁ : T} (hreplaces : s.Replaces t₁ (Waker.new t cx))
    (hnot : NoTake after) (hinv : AtomicInv s.object s.calls)
    (hrun : Runs.Run code.step (fun _ _ => True) AtomicSystem.new (before ++ after) s)
    (hmove : code.Move s t' action s' event) :
    AtomicSystem.Tracked s' before (after ++ [((t', action), event)]) t cx := by
  obtain ⟨hwaker, cx₁, hcall, hne⟩ := hreplaces
  have howns : (s.calls t₁).owns = true := by
    rw [hcall]
    rfl
  by_cases ht : t' = t₁
  · subst ht
    cases hmove with
    | start _ hreturned _ =>
        rw [hcall] at hreturned
        cases hreturned
    | run hstep =>
        have hstep := AtomicWaker.run_cases hstep
        rw [hcall] at hstep ⊢
        cases hstep with
        | store _ => exact .replaced ⟨after, t', cx₁, [], s, rfl, hnot, hrun, hwaker, hne⟩
  · have hothers := AtomicCall.takes_of_not_owns (hinv.others howns t' ht)
    have hsame : s'.object.waker = s.object.waker := by
      cases hmove with
      | start _ _ _ => rfl
      | run hstep => exact (hinv.other_step howns (Ne.symm ht) (AtomicWaker.run_cases hstep)).1
    exact .replaces t₁
      ⟨hsame.trans hwaker, cx₁, (hmove.calls_of_ne (Ne.symm ht)).trans hcall, hne⟩
      (hnot.snoc (hmove.source_eq ▸ hothers))

/-- Whatever step is made, the duty is somewhere. -/
theorem AtomicSystem.Tracked.step (htracked : s.Tracked before after t cx)
    (hinv : AtomicInv s.object s.calls)
    (hrun : Runs.Run code.step (fun _ _ => True) AtomicSystem.new (before ++ after) s)
    (hmove : code.Move s t' action s' event) :
    AtomicSystem.Tracked s' before (after ++ [((t', action), event)]) t cx := by
  cases htracked with
  | woken hwoken =>
      refine .woken ?_
      rw [Calls.shown_append]
      exact List.mem_append_left _ hwoken
  | replaced hreplaced => exact .replaced (hreplaced.snoc _)
  | registering hregistering hnot =>
      by_cases ht : t = t'
      · subst ht
        exact hregistering.self_step hinv hnot hmove
      · refine .registering (hregistering.other_step hinv ht hmove) ?_
        rw [Calls.Code.returns_append, Calls.Code.returns_singleton]
        exact not_or.mpr ⟨hnot, fun h => ht h.1.symm⟩
  | held hheld => exact hheld.step hinv hrun hmove
  | replaces t₁ hreplaces hnot => exact hreplaces.step hnot hinv hrun hmove
  | taken t₁ htakes =>
      rcases AtomicSystem.takes_step htakes hinv hmove with ⟨-, hshown⟩ | ⟨htakes', -⟩
      · exact .woken (mem_shown_snoc hshown)
      · exact .taken t₁ htakes'

theorem AtomicInv.tracked_of_register (hinv : AtomicInv s.object s.calls)
    (hunique : ∀ {t t'}, (s.calls t).registers ≠ none → (s.calls t').registers ≠ none → t = t')
    (hcall : s.calls t = .registerStart cx) (hmove : code.Move s t .run s' event) :
    event.target ≠ .returned ∧ AtomicSystem.Tracked s' before [] t cx := by
  have hself := hmove.calls_self
  have hinv' := (hinv.move hmove).knows t
  have hnot : ¬ code.Returns t ([] : Calls.Trace T (AtomicCall T K) (Waker T K)) :=
    fun ⟨_, hmem, _⟩ => by cases hmem
  cases hmove with
  | @run object call' shown hrun =>
      have hrun := AtomicWaker.run_cases hrun
      rw [hself] at hinv'
      rw [hcall] at hrun
      cases hrun with
      | register _ _ =>
          refine ⟨nofun, .registering ?_ hnot⟩
          rw [hself]
          exact ⟨rfl, (fun _ hmem => by cases hmem), fun _ _ hmem => by cases hmem⟩
      | meetsWake _ _ =>
          refine ⟨nofun, .registering ?_ hnot⟩
          rw [hself]
          exact rfl
      | meetsRegister _ hstate =>
          obtain ⟨t', howns⟩ := hinv.owned (by rcases hstate with h | h <;> rw [h] <;> decide)
          rcases (hinv.knows t').state howns with ⟨hregisters, -⟩ | ⟨-, hwaking⟩
          · have heq := hunique hregisters (show (s.calls t).registers ≠ none by rw [hcall]; nofun)
            rw [heq, hcall] at howns
            cases howns
          · rw [hwaking] at hstate
            rcases hstate with h | h <;> cases h
      | registerAssert _ _ _ _ _ => exact hinv'.elim

end Steps

section Claim

variable [DecidableEq T] [DecidableEq K] {s : AtomicSystem T K}
  {trace : Calls.Trace T (AtomicCall T K) (Waker T K)}

omit [DecidableEq T] [DecidableEq K] in
theorem AtomicCall.owns_of_accesses {call : AtomicCall T K} (haccesses : call.accesses = true) :
    call.owns = true := by
  cases call with
  | registerStore _ => rfl
  | registerTake _ => rfl
  | wakeTake => rfl
  | _ => cases haccesses

theorem tracked_of_run (hrun : Runs.Run code.step OneRegistrar AtomicSystem.new trace s)
    {before after : Calls.Trace T (AtomicCall T K) (Waker T K)} {t : T} {cx : Option K}
    {call : AtomicCall T K}
    (htrace : trace = before ++ ((t, .run), ⟨.registerStart cx, call, none⟩) :: after) :
    call ≠ .returned ∧
      s.Tracked (before ++ [((t, .run), ⟨.registerStart cx, call, none⟩)]) after t cx := by
  subst htrace
  rw [List.append_cons] at hrun
  obtain ⟨s₁, hregister, hafter⟩ := hrun.split
  obtain ⟨s₀, hbefore, -, hstep⟩ := hregister.snoc_inv
  have hinv := atomicInv_of_run hbefore
  have hmove := Calls.Code.step_cases hstep
  obtain ⟨hne, htracked⟩ := hinv.tracked_of_register (registrar_unique hbefore)
    hmove.source_eq.symm hmove
  refine ⟨hne, ?_⟩
  have hinv₁ := hinv.move hmove
  refine (hafter.invariant (fun after s => AtomicInv s.object s.calls ∧ AtomicSystem.Tracked s
    (before ++ [((t, .run), ⟨.registerStart cx, call, none⟩)]) after t cx)
    ⟨hinv₁, htracked⟩ ?_).2
  rintro after state state' ⟨t', action⟩ event hsofar ⟨hstate, htracked⟩ - hstep
  have hmove := Calls.Code.step_cases hstep
  have hall := (hregister.append hsofar).mono fun _ _ _ => trivial
  exact ⟨hstate.move hmove, htracked.step hstate hall hmove⟩

/-- The protocol of the waker.  Any number of threads register and wake, in any
interleaving: one at a time accesses the cell, the state has one of four values, and no
assertion and no `unwrap` fails.  With one registrar at a time, when a `register` has
returned and so has a `wake` whose `fetch_or` came after its first `compare_exchange`, the
waker was woken since, or a `wake` in progress takes it or a later `register` in progress
takes it back, and will wake it; or a later `register` is about to store another waker over
it, or has done so. -/
theorem atomic_waker_protocol
    (hrun : Runs.Run code.step (fun _ _ => True) AtomicSystem.new trace s) :
    (∀ t t', (s.calls t).accesses = true → (s.calls t').accesses = true → t = t') ∧
    (s.object.state = waiting ∨ s.object.state = registering ∨ s.object.state = waking ∨
      s.object.state = registering ||| waking) ∧
    (∀ t, s.calls t ≠ .panicked) ∧
    (Runs.Run code.step OneRegistrar AtomicSystem.new trace s →
      ∀ before after t cx call,
        trace = before ++ ((t, .run), ⟨.registerStart cx, call, none⟩) :: after →
        call = .returned ∨ code.Returns t after →
        ∀ before' after' t' call',
          after = before' ++ ((t', .run), ⟨.wakeStart, call', none⟩) :: after' →
          call' = .returned ∨ code.Returns t' after' →
          Waker.new t cx ∈ Calls.shown after ∨ (∃ t'', s.Owes t'' (Waker.new t cx)) ∨
            (∃ t'', s.Replaces t'' (Waker.new t cx)) ∨
            Replaced (before ++ [((t, .run), ⟨.registerStart cx, call, none⟩)]) after
              (Waker.new t cx)) := by
  have hinv := atomicInv_of_run hrun
  refine ⟨?_, hinv.state_cases, ?_, ?_⟩
  · intro t t' haccesses haccesses'
    exact hinv.exclusive (AtomicCall.owns_of_accesses haccesses)
      (AtomicCall.owns_of_accesses haccesses')
  · intro t hpanicked
    have hknows := hinv.knows t
    rw [hpanicked] at hknows
    exact hknows
  · intro hone before after t cx call htrace hreturned before' after' t' call' hafter _
    obtain ⟨hne, htracked⟩ := tracked_of_run hone htrace
    cases htracked with
    | woken hwoken => exact Or.inl hwoken
    | taken t'' htakes => exact Or.inr (Or.inl ⟨t'', hinv.owes htakes⟩)
    | replaces t'' hreplaces _ => exact Or.inr (Or.inr (Or.inl ⟨t'', hreplaces⟩))
    | replaced hreplaced => exact Or.inr (Or.inr (Or.inr hreplaced))
    | registering _ hnot => exact absurd (hreturned.resolve_left hne) hnot
    | held hheld =>
        subst hafter
        exact absurd rfl (hheld.noWake _ (List.mem_append_right _ List.mem_cons_self))

end Claim

/-- A `register` has returned, the same waker is registered again, and a `wake` that met this
second `register` before its store has returned. -/
def registeredAgain : Calls.Trace (Option Bool) (AtomicCall (Option Bool) Nat)
    (Waker (Option Bool) Nat) :=
  [((none, .run), ⟨.registerStore (some 5), .registerFinish (some 5), none⟩),
    ((none, .run), ⟨.registerFinish (some 5), .returned, none⟩),
    ((none, .start (.registerStart (some 5))), ⟨.returned, .registerStart (some 5), none⟩),
    ((none, .run), ⟨.registerStart (some 5), .registerStore (some 5), none⟩),
    ((some true, .start .wakeStart), ⟨.returned, .wakeStart, none⟩),
    ((some true, .run), ⟨.wakeStart, .returned, none⟩)]

theorem run_registeredAgain :
    ∃ s : AtomicSystem (Option Bool) Nat,
      Runs.Run code.step OneRegistrar AtomicSystem.new
        ([((none, .start (.registerStart (some 5))), ⟨.returned, .registerStart (some 5), none⟩)]
          ++ ((none, .run), ⟨.registerStart (some 5), .registerStore (some 5), none⟩) ::
          registeredAgain) s ∧
      s.object.waker = some (.async 5) ∧ s.calls none = .registerStore (some 5) ∧
      ∀ t, t ≠ none → s.calls t = .returned := by
  have hrun := Runs.run_of_isSome code.step OneRegistrar
    (AtomicSystem.new : AtomicSystem (Option Bool) Nat)
    (List.flatten [[(none, .start (.registerStart (some 5)))], List.replicate 3 (none, .run),
      [(none, .start (.registerStart (some 5))), (none, .run),
        (some true, .start .wakeStart), (some true, .run)]])
    (by decide +kernel) (by decide +kernel)
  obtain ⟨trace, s, hrun, rfl, hstate⟩ : ∃ trace s,
      Runs.Run code.step OneRegistrar (AtomicSystem.new : AtomicSystem (Option Bool) Nat) trace s ∧
      trace = [((none, .start (.registerStart (some 5))),
          ⟨.returned, .registerStart (some 5), none⟩)] ++
        ((none, .run), ⟨.registerStart (some 5), .registerStore (some 5), none⟩) ::
        registeredAgain ∧
      s.object.waker = some (.async 5) ∧ s.calls none = .registerStore (some 5) ∧
      ∀ t, t ≠ none → s.calls t = .returned :=
    ⟨_, _, hrun, by decide +kernel, by decide +kernel, by decide +kernel, by decide +kernel⟩
  exact ⟨s, hrun, hstate⟩

theorem not_replaced_registeredAgain
    (before : Calls.Trace (Option Bool) (AtomicCall (Option Bool) Nat) (Waker (Option Bool) Nat)) :
    ¬ Replaced before registeredAgain (.async 5) := by
  rintro ⟨between, t, cx, rest, s, hafter, -, -, -, hne⟩
  have hmem : ((t, .run), ⟨.registerStore cx, .registerFinish cx, none⟩) ∈ registeredAgain := by
    rw [hafter]
    exact List.mem_append_right _ List.mem_cons_self
  simp only [registeredAgain, List.mem_cons, List.not_mem_nil, or_false] at hmem
  rcases hmem with h | h | h | h | h | h <;> cases h
  exact hne rfl

/-- The `register` in progress has the waker again, and nobody else is there to wake it: no
`wake` is in progress, and the waker is still in the cell. -/
theorem atomic_waker_registered_again :
    ∃ (before after : Calls.Trace (Option Bool) (AtomicCall (Option Bool) Nat)
        (Waker (Option Bool) Nat)) (s : AtomicSystem (Option Bool) Nat),
      Runs.Run code.step OneRegistrar AtomicSystem.new
        (before ++ ((none, .run), ⟨.registerStart (some 5), .registerStore (some 5), none⟩) ::
          after) s ∧
      code.Returns none after ∧
      (∃ before' after',
        after = before' ++ ((some true, .run), ⟨.wakeStart, .returned, none⟩) :: after') ∧
      Calls.shown after = [] ∧ (∀ t, ¬ s.Takes t (.async 5)) ∧
      s.object.waker = some (.async 5) ∧
      ¬ Replaced (before ++
        [((none, .run), ⟨.registerStart (some 5), .registerStore (some 5), none⟩)]) after
        (.async 5) := by
  obtain ⟨s, hrun, hwaker, hregister, hothers⟩ := run_registeredAgain
  refine ⟨_, registeredAgain, s, hrun, ⟨_, .tail _ (.head _), rfl, rfl⟩,
    ⟨[_, _, _, _, _], [], rfl⟩, rfl, ?_,
    hwaker, not_replaced_registeredAgain _⟩
  intro t htakes
  have hcalls : s.calls t = .registerStore (some 5) ∨ s.calls t = .returned := by
    by_cases ht : t = none
    · rw [ht]
      exact Or.inl hregister
    · exact Or.inr (hothers t ht)
  rcases htakes with ⟨h, -⟩ | h | h <;> rw [h] at hcalls <;> rcases hcalls with h | h <;> cases h

/-- There the `register` in progress owes the waker. -/
theorem atomic_waker_protocol_registered_again :
    ∃ s : AtomicSystem (Option Bool) Nat,
      Runs.Run code.step (fun _ _ => True) AtomicSystem.new
        ([((none, .start (.registerStart (some 5))), ⟨.returned, .registerStart (some 5), none⟩)]
          ++ ((none, .run), ⟨.registerStart (some 5), .registerStore (some 5), none⟩) ::
          registeredAgain) s ∧
      s.calls none = .registerStore (some 5) ∧ ∃ t, s.Owes t (.async 5) := by
  obtain ⟨s, hrun, hwaker, hregister, hothers⟩ := run_registeredAgain
  have hall := hrun.mono fun _ _ _ => trivial
  refine ⟨s, hall, hregister, ?_⟩
  rcases (atomic_waker_protocol hall).2.2.2 hrun _ _ none (some 5) _ rfl
      (Or.inr ⟨_, .tail _ (.head _), rfl, rfl⟩) [_, _, _, _, _] [] (some true) _ rfl
      (Or.inl rfl) with hwoken | howes | ⟨t, -, cx, hcall, hne⟩ | hreplaced
  · cases hwoken
  · exact howes
  · by_cases ht : t = none
    · subst ht
      rw [hregister] at hcall
      cases hcall
      exact absurd rfl hne
    · rw [hothers t ht] at hcall
      cases hcall
  · exact absurd hreplaced (not_replaced_registeredAgain _)

end SwapBufferQueue
