/-
Threads that call one shared object.  A thread is in one call at a time; every step of a
call acts on the object at once and may show something.  What is proved of the steps of
the code holds of any number of threads in any interleaving.
-/
import SwapBufferQueue.Lib.Runs

namespace Calls

universe u v w x

variable {O : Type u} {T : Type v} {C : Type w} {W : Type x}

/-- The code of an object: the places where calls begin, those where they have returned,
and what one step of a call of a thread does. -/
structure Code (O : Type u) (T : Type v) (C : Type w) (W : Type x) where
  entry : C → Bool
  returned : C → Bool
  run : O → T → C → Option (O × C × Option W)

/-- The object, and where the call of each thread is. -/
structure System (O : Type u) (T : Type v) (C : Type w) where
  object : O
  calls : T → C

/-- A thread begins a call, or makes the next step of the one it is in. -/
inductive Action (C : Type w) where
  | start (call : C)
  | run
deriving Repr, DecidableEq

/-- The call that begins. -/
def Action.call? : Action C → Option C
  | .start call => some call
  | .run => none

/-- Where a step found the call, where it left it, and what it showed. -/
structure Event (C : Type w) (W : Type x) where
  source : C
  target : C
  shown : Option W
deriving Repr, DecidableEq

/-- What happened, in order. -/
abbrev Trace (T : Type v) (C : Type w) (W : Type x) : Type (max v w x) :=
  List ((T × Action C) × Event C W)

/-- What was shown, in order. -/
def shown (trace : Trace T C W) : List W :=
  trace.filterMap fun entry => entry.2.shown

theorem shown_append (first second : Trace T C W) :
    shown (first ++ second) = shown first ++ shown second :=
  List.filterMap_append

theorem shown_snoc (trace : Trace T C W) (label : T × Action C) (event : Event C W) :
    shown (trace ++ [(label, event)]) = shown trace ++ event.shown.toList := by
  obtain ⟨source, target, value⟩ := event
  rw [shown_append]
  cases value with
  | none => rfl
  | some value => rfl

theorem mem_shown {value : W} {trace : Trace T C W} :
    value ∈ shown trace ↔ ∃ entry ∈ trace, entry.2.shown = some value :=
  List.mem_filterMap

variable [DecidableEq T] (code : Code O T C W)

/-- One step of one thread. -/
def Code.step (s : System O T C) (label : T × Action C) :
    Option (System O T C × Event C W) :=
  let t := label.1
  match label.2 with
  | .start call =>
      if code.returned (s.calls t) = true ∧ code.entry call = true then
        some (⟨s.object, Function.update s.calls t call⟩, ⟨s.calls t, call, none⟩)
      else none
  | .run =>
      match code.run s.object t (s.calls t) with
      | none => none
      | some (object, call, shown) =>
          some (⟨object, Function.update s.calls t call⟩, ⟨s.calls t, call, shown⟩)

/-- A call of the thread has returned. -/
def Code.Returns (t : T) (trace : Trace T C W) : Prop :=
  ∃ entry ∈ trace, entry.1.1 = t ∧ code.returned entry.2.target = true

/-- What one step can do. -/
inductive Code.Move (s : System O T C) (t : T) :
    Action C → System O T C → Event C W → Prop
  | start (call : C) (hreturned : code.returned (s.calls t) = true)
      (hentry : code.entry call = true) :
      Code.Move s t (.start call) ⟨s.object, Function.update s.calls t call⟩
        ⟨s.calls t, call, none⟩
  | run {object : O} {call : C} {shown : Option W}
      (hrun : code.run s.object t (s.calls t) = some (object, call, shown)) :
      Code.Move s t .run ⟨object, Function.update s.calls t call⟩ ⟨s.calls t, call, shown⟩

variable {code} {s s' : System O T C} {t : T} {action : Action C} {event : Event C W}

theorem Code.step_cases (hstep : code.step s (t, action) = some (s', event)) :
    code.Move s t action s' event := by
  cases action with
  | start call =>
      simp only [Code.step] at hstep
      split at hstep
      · rename_i hstart
        cases hstep
        exact .start call hstart.1 hstart.2
      · cases hstep
  | run =>
      simp only [Code.step] at hstep
      split at hstep
      · cases hstep
      · rename_i object call shown hrun
        cases hstep
        exact .run hrun

theorem Code.Move.source_eq (hmove : code.Move s t action s' event) :
    event.source = s.calls t := by
  cases hmove with
  | start _ _ _ => rfl
  | run _ => rfl

theorem Code.Move.calls_self (hmove : code.Move s t action s' event) :
    s'.calls t = event.target := by
  cases hmove with
  | start _ _ _ => exact Function.update_self _ _ _
  | run _ => exact Function.update_self _ _ _

theorem Code.Move.calls_of_ne (hmove : code.Move s t action s' event) {t' : T}
    (ht' : t' ≠ t) : s'.calls t' = s.calls t' := by
  cases hmove with
  | start _ _ _ => exact Function.update_of_ne ht' _ _
  | run _ => exact Function.update_of_ne ht' _ _

omit [DecidableEq T] in
theorem Code.returns_append {first second : Trace T C W} :
    code.Returns t (first ++ second) ↔ code.Returns t first ∨ code.Returns t second := by
  simp only [Code.Returns, List.mem_append, or_and_right, exists_or]

omit [DecidableEq T] in
theorem Code.returns_singleton {label : T × Action C} :
    code.Returns t [(label, event)] ↔ label.1 = t ∧ code.returned event.target = true := by
  simp only [Code.Returns, List.mem_singleton, exists_eq_left]

/-- The thread can go on alone until its call has returned. -/
def Code.ReturnsAlone (code : Code O T C W) (s : System O T C) (t : T) : Prop :=
  ∃ more s', Runs.Run code.step (fun _ label => label = (t, .run)) s more s' ∧
    code.Returns t more

theorem Code.ReturnsAlone.of_last (hstep : code.step s (t, .run) = some (s', event))
    (hreturned : code.returned event.target = true) : code.ReturnsAlone s t :=
  ⟨_, _, Runs.Run.nil.snoc rfl hstep, Code.returns_singleton.mpr ⟨rfl, hreturned⟩⟩

theorem Code.ReturnsAlone.of_step (hstep : code.step s (t, .run) = some (s', event))
    (hrest : code.ReturnsAlone s' t) : code.ReturnsAlone s t := by
  obtain ⟨more, s'', hrun, hreturns⟩ := hrest
  have hone : Runs.Run code.step (fun _ label => label = (t, .run)) s
      [((t, .run), event)] s' := Runs.Run.nil.snoc rfl hstep
  exact ⟨_, s'', hone.append hrun, Code.returns_append.mpr (Or.inr hreturns)⟩

/-- A thread in the middle of a call has begun it, and has not returned since.  A place
that is reached from a place of the same kind only is that of a call of this kind. -/
theorem begun_of_run {ok : System O T C → T × Action C → Prop} {start : System O T C}
    {P : C → Prop}
    (hkind : ∀ {object t call object' call' shown},
      code.run object t call = some (object', call', shown) → P call' → P call)
    (hreturned : ∀ {call}, code.returned call = true → ¬ P call)
    (hstart : ∀ t, ¬ P (start.calls t))
    {trace : Trace T C W} (hrun : Runs.Run code.step ok start trace s)
    (hcall : P (s.calls t)) :
    ∃ before call event after, trace = before ++ ((t, .start call), event) :: after ∧
      P call ∧ code.entry call = true ∧ ¬ code.Returns t after := by
  induction hrun with
  | nil => exact absurd hcall (hstart t)
  | @snoc trace state state' label event run admitted step_eq ih =>
      obtain ⟨t', action⟩ := label
      have hmove := Code.step_cases step_eq
      have hsnoc : P (state.calls t) →
          ¬ (t' = t ∧ code.returned event.target = true) →
          ∃ before call event' after, trace ++ [((t', action), event)] =
              before ++ ((t, .start call), event') :: after ∧
            P call ∧ code.entry call = true ∧ ¬ code.Returns t after := by
        intro hbefore hnot
        obtain ⟨before, call, event', after, rfl, hcall', hentry, hafter⟩ := ih hbefore
        refine ⟨before, call, event', after ++ [((t', action), event)],
          by rw [List.append_assoc, List.cons_append], hcall', hentry, ?_⟩
        rw [Code.returns_append, Code.returns_singleton]
        exact not_or.mpr ⟨hafter, hnot⟩
      by_cases ht : t' = t
      · subst ht
        rw [hmove.calls_self] at hcall
        have hgoes : ¬ (t' = t' ∧ code.returned event.target = true) :=
          fun h => hreturned h.2 hcall
        cases hmove with
        | start call _ hentry =>
            exact ⟨trace, call, _, [], rfl, hcall, hentry, fun ⟨_, hmem, _⟩ => by cases hmem⟩
        | run hrun => exact hsnoc (hkind hrun hcall) hgoes
      · rw [hmove.calls_of_ne (Ne.symm ht)] at hcall
        exact hsnoc hcall fun h => ht h.1

end Calls
