/-
Runs of partial deterministic machines.  A machine takes a label (who moves, and
every choice the move makes) and either refuses it or returns a new state and
the event an observer sees.  Nondeterminism is the choice of the labels, so a
property of all runs is a property of all interleavings.
-/
import Mathlib.Tactic

namespace Runs

universe u v w

variable {S : Type u} {L : Type v} {E : Type w}

/-- The runs of `step` from `start` in which every label is admitted by `ok`
in the state it is taken in, with the labels and events they show. -/
inductive Run (step : S → L → Option (S × E)) (ok : S → L → Prop) (start : S) :
    List (L × E) → S → Prop
  | nil : Run step ok start [] start
  | snoc {trace : List (L × E)} {state state' : S} {label : L} {event : E}
      (run : Run step ok start trace state) (admitted : ok state label)
      (step_eq : step state label = some (state', event)) :
      Run step ok start (trace ++ [(label, event)]) state'

variable {step : S → L → Option (S × E)} {ok : S → L → Prop} {start : S}

/-- A property of trace and state that holds initially and is kept by every
admitted step holds along every run. -/
theorem Run.invariant (Inv : List (L × E) → S → Prop)
    (hstart : Inv [] start)
    (hstep : ∀ {trace state state' label event},
      Run step ok start trace state → Inv trace state → ok state label →
        step state label = some (state', event) →
          Inv (trace ++ [(label, event)]) state')
    {trace : List (L × E)} {state : S} (hrun : Run step ok start trace state) :
    Inv trace state := by
  induction hrun with
  | nil => exact hstart
  | snoc run admitted step_eq ih => exact hstep run ih admitted step_eq

/-- If every step pays its cost out of a potential and of what the step brings in, a
whole run costs at most the potential it starts with and all that its steps brought in. -/
theorem Run.amortized (potential : S → Nat) (cost credit : L × E → Nat)
    (hstep : ∀ {trace state state' label event},
      Run step ok start trace state → ok state label →
        step state label = some (state', event) →
          potential state' + cost (label, event) ≤ potential state + credit (label, event))
    {trace : List (L × E)} {state : S} (hrun : Run step ok start trace state) :
    potential state + (trace.map cost).sum ≤
      potential start + (trace.map credit).sum := by
  induction hrun with
  | nil => simp
  | snoc run admitted step_eq ih =>
      have hpaid := hstep run admitted step_eq
      simp only [List.map_append, List.map_cons, List.map_nil, List.sum_append,
        List.sum_cons, List.sum_nil]
      omega

theorem Run.append {first second : List (L × E)} {middle finish : S}
    (hfirst : Run step ok start first middle)
    (hsecond : Run step ok middle second finish) :
    Run step ok start (first ++ second) finish := by
  induction hsecond with
  | nil => simpa using hfirst
  | snoc run admitted step_eq ih =>
      rw [← List.append_assoc]
      exact Run.snoc ih admitted step_eq

theorem Run.nil_inv {finish : S} (hrun : Run step ok start [] finish) :
    finish = start := by
  generalize htrace : ([] : List (L × E)) = trace at hrun
  cases hrun with
  | nil => rfl
  | snoc _ _ _ => simp at htrace

/-- The last step of a run that shows something. -/
theorem Run.snoc_inv {trace : List (L × E)} {label : L} {event : E} {finish : S}
    (hrun : Run step ok start (trace ++ [(label, event)]) finish) :
    ∃ state, Run step ok start trace state ∧ ok state label ∧
      step state label = some (finish, event) := by
  generalize htrace : trace ++ [(label, event)] = whole at hrun
  cases hrun with
  | nil => simp at htrace
  | snoc run admitted step_eq =>
      obtain ⟨rfl, hentry⟩ := List.append_inj' htrace rfl
      cases hentry
      exact ⟨_, run, admitted, step_eq⟩

/-- A run can be cut at any point of its trace. -/
theorem Run.split {first second : List (L × E)} {finish : S}
    (hrun : Run step ok start (first ++ second) finish) :
    ∃ middle, Run step ok start first middle ∧ Run step ok middle second finish := by
  induction second using List.reverseRecOn generalizing finish with
  | nil => exact ⟨finish, by simpa using hrun, Run.nil⟩
  | append_singleton second entry ih =>
      rw [← List.append_assoc] at hrun
      obtain ⟨state, hprefix, hadmitted, hstep⟩ := hrun.snoc_inv
      obtain ⟨middle, hfirst, hsecond⟩ := ih hprefix
      exact ⟨middle, hfirst, Run.snoc hsecond hadmitted hstep⟩

/-- The first step of a run that shows something. -/
theorem Run.cons_inv {label : L} {event : E} {rest : List (L × E)} {finish : S}
    (hrun : Run step ok start ((label, event) :: rest) finish) :
    ∃ next, ok start label ∧ step start label = some (next, event) ∧
      Run step ok next rest finish := by
  rw [← List.singleton_append] at hrun
  obtain ⟨next, hfirst, hrest⟩ := hrun.split
  rw [← List.nil_append [(label, event)]] at hfirst
  obtain ⟨state, hnil, hadmitted, hstep⟩ := hfirst.snoc_inv
  cases hnil.nil_inv
  exact ⟨next, hadmitted, hstep, hrest⟩

/-- Weakening of what is admitted. -/
theorem Run.mono {ok' : S → L → Prop}
    (himp : ∀ state label, ok state label → ok' state label)
    {trace : List (L × E)} {state : S} (hrun : Run step ok start trace state) :
    Run step ok' start trace state := by
  induction hrun with
  | nil => exact Run.nil
  | snoc run admitted step_eq ih => exact Run.snoc ih (himp _ _ admitted) step_eq

/-- What every label of the trace satisfies may be asked of the labels. -/
theorem Run.restrict {P : L → Prop} {trace : List (L × E)} {state : S}
    (hrun : Run step ok start trace state) (hall : ∀ entry ∈ trace, P entry.1) :
    Run step (fun state label => ok state label ∧ P label) start trace state := by
  induction hrun with
  | nil => exact Run.nil
  | snoc run admitted step_eq ih =>
      refine Run.snoc (ih fun entry hentry => ?_) ⟨admitted, ?_⟩ step_eq
      · exact hall entry (List.mem_append_left _ hentry)
      · exact hall _ (List.mem_append_right _ (List.mem_singleton_self _))

/-- A weak simulation.  If every step of a machine is matched by a run of another one, an
empty one or a longer one, with the same observations, then so are the runs. -/
theorem Run.simulate {S' L' E' O : Type*} {step' : S' → L' → Option (S' × E')}
    {ok' : S' → L' → Prop} {R : List (L × E) → S → S' → Prop} {observe : L × E → List O}
    {observe' : L' × E' → List O}
    (hstep : ∀ {trace state state' label event abstract}, R trace state abstract →
      ok state label → step state label = some (state', event) →
        ∃ matching abstract', Run step' ok' abstract matching abstract' ∧
          R (trace ++ [(label, event)]) state' abstract' ∧
          matching.flatMap observe' = observe (label, event))
    {before trace : List (L × E)} {state : S} {abstract : S'}
    (hrelated : R before start abstract) (hrun : Run step ok start trace state) :
    ∃ trace' abstract', Run step' ok' abstract trace' abstract' ∧
      R (before ++ trace) state abstract' ∧
      trace'.flatMap observe' = trace.flatMap observe := by
  induction hrun with
  | nil =>
      refine ⟨[], abstract, Run.nil, ?_, rfl⟩
      rw [List.append_nil]
      exact hrelated
  | snoc run admitted step_eq ih =>
      obtain ⟨trace', middle, hrun', hmiddle, hseen⟩ := ih
      obtain ⟨matching, abstract', hmatching, hrelated', hsame⟩ :=
        hstep hmiddle admitted step_eq
      refine ⟨trace' ++ matching, abstract', hrun'.append hmatching, ?_, ?_⟩
      · rw [← List.append_assoc]
        exact hrelated'
      · rw [List.flatMap_append, List.flatMap_append, hseen, hsame]
        simp

/-- Weakening of what is admitted, where an invariant of the runs may be used. -/
theorem Run.refine {ok' : S → L → Prop} {Inv : S → Prop}
    (hinv : ∀ {trace state}, Run step ok start trace state → Inv state)
    (himp : ∀ state label, Inv state → ok state label → ok' state label)
    {trace : List (L × E)} {state : S} (hrun : Run step ok start trace state) :
    Run step ok' start trace state := by
  induction hrun with
  | nil => exact Run.nil
  | snoc run admitted step_eq ih =>
      exact Run.snoc ih (himp _ _ (hinv run) admitted) step_eq

/-- A trace leads to one state. -/
theorem Run.unique {ok' : S → L → Prop} {trace : List (L × E)} {finish finish' : S}
    (hrun : Run step ok start trace finish) (hrun' : Run step ok' start trace finish') :
    finish = finish' := by
  induction hrun generalizing finish' with
  | nil => exact hrun'.nil_inv.symm
  | snoc run admitted step_eq ih =>
      obtain ⟨state, hprefix, -, hstep⟩ := hrun'.snoc_inv
      cases ih hprefix
      rw [step_eq] at hstep
      exact congrArg Prod.fst (Option.some.inj hstep)

/-- At some instant of the run that shows the trace, its ends included, the property
held. -/
def Sometime (step : S → L → Option (S × E)) (ok : S → L → Prop) (start : S)
    (P : List (L × E) → S → Prop) (trace : List (L × E)) : Prop :=
  ∃ first rest state, first ++ rest = trace ∧ Run step ok start first state ∧
    P first state

theorem Run.sometime {P : List (L × E) → S → Prop} {trace : List (L × E)} {state : S}
    (hrun : Run step ok start trace state) (hnow : P trace state) :
    Sometime step ok start P trace :=
  ⟨trace, [], state, List.append_nil _, hrun, hnow⟩

theorem Sometime.append {P : List (L × E) → S → Prop} {trace : List (L × E)}
    (hsometime : Sometime step ok start P trace) (more : List (L × E)) :
    Sometime step ok start P (trace ++ more) := by
  obtain ⟨first, rest, state, rfl, hrun, hP⟩ := hsometime
  exact ⟨first, rest ++ more, state, (List.append_assoc _ _ _).symm, hrun, hP⟩

theorem Sometime.imp {ok' : S → L → Prop} {P Q : List (L × E) → S → Prop}
    (hok : ∀ state label, ok state label → ok' state label)
    (himp : ∀ first state, P first state → Q first state) {trace : List (L × E)}
    (hsometime : Sometime step ok start P trace) : Sometime step ok' start Q trace := by
  obtain ⟨first, rest, state, htrace, hrun, hP⟩ := hsometime
  exact ⟨first, rest, state, htrace, hrun.mono hok, himp first state hP⟩

/-- A property that each step keeps exactly under a condition holds everywhere along
a run exactly when each of its steps meets the condition. -/
theorem Run.everywhere_iff {P : S → Prop} {Cond : S → L → Prop} (hstart : P start)
    (hstep : ∀ {trace state state' label event},
      Run step ok start trace state → P state → ok state label →
        step state label = some (state', event) → (P state' ↔ Cond state label))
    {trace : List (L × E)} {finish : S} (hrun : Run step ok start trace finish) :
    (∀ first rest state, first ++ rest = trace → Run step ok start first state →
        P state) ↔
      Run step (fun state label => ok state label ∧ Cond state label) start trace
        finish := by
  induction hrun with
  | nil =>
      constructor
      · intro _
        exact Run.nil
      · intro _ first rest state htrace hfirst
        rw [(List.append_eq_nil_iff.mp htrace).1] at hfirst
        rw [hfirst.nil_inv]
        exact hstart
  | @snoc trace state state' label event run admitted step_eq ih =>
      constructor
      · intro heverywhere
        have hbefore := heverywhere trace [(label, event)] state rfl run
        have hafter := heverywhere _ [] state' (List.append_nil _)
          (Run.snoc run admitted step_eq)
        refine Run.snoc (ih.mp ?_) ⟨admitted, ?_⟩ step_eq
        · intro first rest middle htrace
          exact heverywhere first (rest ++ [(label, event)]) middle
            (by rw [← List.append_assoc, htrace])
        · exact (hstep run hbefore admitted step_eq).mp hafter
      · intro hwhole first rest middle htrace hfirst
        obtain ⟨state₁, hprefix, ⟨-, hcond⟩, -⟩ := hwhole.snoc_inv
        cases run.unique hprefix
        have hearlier := ih.mpr hprefix
        rcases List.eq_nil_or_concat rest with rfl | ⟨rest', entry, rfl⟩
        · rw [List.append_nil] at htrace
          subst htrace
          cases hfirst.unique (Run.snoc run admitted step_eq)
          exact (hstep run (hearlier trace [] state (List.append_nil _) run) admitted
            step_eq).mpr hcond
        · rw [List.concat_eq_append, ← List.append_assoc] at htrace
          exact hearlier first rest' middle (List.append_inj' htrace rfl).1 hfirst

/-- A property that is kept exactly by the steps that meet a condition, and never
regained, holds at the end of a run exactly when each of its steps meets the
condition. -/
theorem Run.finish_iff {P : S → Prop} {Cond : S → L → Prop} (hstart : P start)
    (hstep : ∀ {trace state state' label event},
      Run step ok start trace state → ok state label →
        step state label = some (state', event) →
          (P state' ↔ P state ∧ Cond state label))
    {trace : List (L × E)} {finish : S} (hrun : Run step ok start trace finish) :
    P finish ↔
      Run step (fun state label => ok state label ∧ Cond state label) start trace
        finish := by
  induction hrun with
  | nil => exact ⟨fun _ => Run.nil, fun _ => hstart⟩
  | @snoc trace state state' label event run admitted step_eq ih =>
      rw [hstep run admitted step_eq]
      constructor
      · rintro ⟨hstate, hcond⟩
        exact Run.snoc (ih.mp hstate) ⟨admitted, hcond⟩ step_eq
      · intro hwhole
        obtain ⟨state₁, hprefix, ⟨-, hcond⟩, -⟩ := hwhole.snoc_inv
        cases run.unique hprefix
        exact ⟨ih.mpr hprefix, hcond⟩

/-- A machine that can always make a step towards its goal reaches it. -/
theorem exists_run_of_rank {Inv Done : S → Prop} (rank : S → Nat)
    (hprogress : ∀ state, Inv state → ¬ Done state → ∃ label state' event,
      ok state label ∧ step state label = some (state', event) ∧ Inv state' ∧
        rank state' < rank state)
    {start : S} (hstart : Inv start) :
    ∃ trace finish, Run step ok start trace finish ∧ Inv finish ∧ Done finish := by
  induction hrank : rank start using Nat.strong_induction_on generalizing start with
  | h n ih =>
      by_cases hdone : Done start
      · exact ⟨[], start, Run.nil, hstart, hdone⟩
      · obtain ⟨label, state', event, hok, hstep, hinv, hlt⟩ :=
          hprogress start hstart hdone
        obtain ⟨trace, finish, hrest, hend, hfinish⟩ := ih _ (hrank ▸ hlt) hinv rfl
        have hone : Run step ok start [(label, event)] state' :=
          Run.snoc Run.nil hok hstep
        exact ⟨_, finish, hone.append hrest, hend, hfinish⟩

/-- Execute a list of labels. -/
def execute (step : S → L → Option (S × E)) : S → List L → Option (List (L × E) × S)
  | state, [] => some ([], state)
  | state, label :: rest =>
      match step state label with
      | none => none
      | some (state', event) =>
          match execute step state' rest with
          | none => none
          | some (trace, finish) => some ((label, event) :: trace, finish)

theorem execute_cons {label : L} {rest : List L} {trace : List (L × E)}
    {state state' finish : S} {event : E}
    (hstep : step state label = some (state', event))
    (hrest : execute step state' rest = some (trace, finish)) :
    execute step state (label :: rest) = some ((label, event) :: trace, finish) := by
  simp only [execute, hstep, hrest]

theorem execute_append {first second : List L} {trace trace' : List (L × E)}
    {state state' finish : S} (hfirst : execute step state first = some (trace, state'))
    (hsecond : execute step state' second = some (trace', finish)) :
    execute step state (first ++ second) = some (trace ++ trace', finish) := by
  induction first generalizing state trace with
  | nil =>
      cases hfirst
      exact hsecond
  | cons label rest ih =>
      cases hstep : step state label with
      | none => simp [execute, hstep] at hfirst
      | some result =>
          obtain ⟨next, event⟩ := result
          cases hrest : execute step next rest with
          | none => simp [execute, hstep, hrest] at hfirst
          | some result =>
              obtain ⟨trace₁, middle⟩ := result
              simp only [execute, hstep, hrest, Option.some.injEq,
                Prod.mk.injEq] at hfirst
              obtain ⟨rfl, rfl⟩ := hfirst
              exact execute_cons hstep (ih hrest)

/-- Every label of the list is admitted in the state it is executed in. -/
def Admits (step : S → L → Option (S × E)) (ok : S → L → Prop) : S → List L → Prop
  | _, [] => True
  | state, label :: rest =>
      ok state label ∧
        match step state label with
        | none => True
        | some (state', _) => Admits step ok state' rest

instance decidableAdmits (step : S → L → Option (S × E)) (ok : S → L → Prop)
    [∀ state label, Decidable (ok state label)] :
    ∀ (state : S) (labels : List L), Decidable (Admits step ok state labels)
  | _, [] => inferInstanceAs (Decidable True)
  | state, label :: rest =>
      match hstep : step state label with
      | none => decidable_of_iff (ok state label) (by simp [Admits, hstep])
      | some (state', event) =>
          have := decidableAdmits step ok state' rest
          decidable_of_iff (ok state label ∧ Admits step ok state' rest)
            (by simp [Admits, hstep])

/-- An execution is a run. -/
theorem run_of_execute {labels : List L} {trace : List (L × E)} {start finish : S}
    (hadmits : Admits step ok start labels)
    (hexecute : execute step start labels = some (trace, finish)) :
    Run step ok start trace finish := by
  induction labels generalizing start trace with
  | nil =>
      cases hexecute
      exact Run.nil
  | cons label rest ih =>
      cases hstep : step start label with
      | none => simp [execute, hstep] at hexecute
      | some result =>
          obtain ⟨state', event⟩ := result
          cases hrest : execute step state' rest with
          | none => simp [execute, hstep, hrest] at hexecute
          | some result =>
              obtain ⟨trace', finish'⟩ := result
              simp only [execute, hstep, hrest, Option.some.injEq,
                Prod.mk.injEq] at hexecute
              obtain ⟨rfl, rfl⟩ := hexecute
              simp only [Admits, hstep] at hadmits
              have hone : Run step ok start [(label, event)] state' :=
                Run.snoc Run.nil hadmits.1 hstep
              exact hone.append (ih hadmits.2 hrest)

/-- A list of labels that executes gives a run. -/
theorem run_of_isSome (step : S → L → Option (S × E)) (ok : S → L → Prop) (start : S)
    (labels : List L) (hadmits : Admits step ok start labels)
    (hsome : (execute step start labels).isSome = true) :
    Run step ok start ((execute step start labels).get hsome).1
      ((execute step start labels).get hsome).2 :=
  run_of_execute hadmits (Option.some_get hsome).symm

end Runs
