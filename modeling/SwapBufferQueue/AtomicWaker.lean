/-
`AtomicWaker`, the waker of the dequeuer.  Its state word is the lock of the cell: who
moves it away from `WAITING` has the cell until it gives the word back, and a `wake` that
meets a registration leaves its duty to the registrar.  Every atomic operation and every
access to the cell is one step of one call.
-/
import SwapBufferQueue.Words
import Mathlib.Tactic

namespace SwapBufferQueue

universe x y

variable {T : Type x} {K : Type y}

/-- The waker of a task, or a thread to unpark. -/
inductive Waker (T : Type x) (K : Type y) where
  | async (waker : K)
  | sync (thread : T)
deriving Repr, DecidableEq

/-- `Waker::new`, called by the thread `t`. -/
def Waker.new (t : T) : Option K → Waker T K
  | some waker => .async waker
  | none => .sync t

/-- `Waker::will_wake`.  Two task wakers are equal when they wake the same task. -/
def Waker.willWake [DecidableEq K] : Waker T K → Option K → Bool
  | .async waker, some waker' => decide (waker = waker')
  | _, _ => false

theorem Waker.eq_new_of_willWake [DecidableEq K] {waker : Waker T K} {cx : Option K} (t : T)
    (hwake : waker.willWake cx = true) : waker = Waker.new t cx := by
  cases waker with
  | sync thread => cases hwake
  | async waker =>
      cases cx with
      | none => cases hwake
      | some waker' => exact congrArg _ (of_decide_eq_true hwake)

structure AtomicWaker (T : Type x) (K : Type y) where
  state : Usize
  waker : Option (Waker T K)
deriving Repr, DecidableEq

namespace AtomicWaker

def waiting : Usize := 0
def registering : Usize := 0b01
def waking : Usize := 0b10

def new : AtomicWaker T K := ⟨waiting, none⟩

end AtomicWaker

open AtomicWaker

/-- Where a call of `register` or of `wake` is.  `panicked` is a failed assertion or
`unwrap`. -/
inductive AtomicCall (T : Type x) (K : Type y) where
  | returned
  | registerStart (cx : Option K)
  | registerStore (cx : Option K)
  | registerFinish (cx : Option K)
  | registerTake (cx : Option K)
  | registerSwap (cx : Option K) (waker : Waker T K)
  | registerWake (cx : Option K) (waker : Waker T K)
  | registerWakeSelf (cx : Option K)
  | wakeStart
  | wakeTake
  | wakeClear (waker : Option (Waker T K))
  | wakeWake (waker : Waker T K)
  | panicked
deriving Repr, DecidableEq

section Steps

variable [DecidableEq K]

/-- The cell after the store of `register`: a waker that wakes the same task is kept. -/
def AtomicWaker.stored (a : AtomicWaker T K) (t : T) (cx : Option K) : Waker T K :=
  match a.waker with
  | some old => if old.willWake cx then old else Waker.new t cx
  | none => Waker.new t cx

/-- One step of a call of the thread `t`, with the waker it wakes. -/
def AtomicWaker.run (a : AtomicWaker T K) (t : T) :
    AtomicCall T K → Option (AtomicWaker T K × AtomicCall T K × Option (Waker T K))
  | .registerStart cx =>
      if a.state = waiting then
        some ({ a with state := registering }, .registerStore cx, none)
      else if a.state = waking then some (a, .registerWakeSelf cx, none)
      else if a.state = registering ∨ a.state = registering ||| waking then
        some (a, .returned, none)
      else some (a, .panicked, none)
  | .registerStore cx =>
      some ({ a with waker := some (a.stored t cx) }, .registerFinish cx, none)
  | .registerFinish cx =>
      if a.state = registering then some ({ a with state := waiting }, .returned, none)
      else if a.state = registering ||| waking then some (a, .registerTake cx, none)
      else some (a, .panicked, none)
  | .registerTake cx =>
      match a.waker with
      | none => some (a, .panicked, none)
      | some waker => some ({ a with waker := none }, .registerSwap cx waker, none)
  | .registerSwap cx waker =>
      some ({ a with state := waiting }, .registerWake cx waker, none)
  | .registerWake _ waker => some (a, .returned, some waker)
  | .registerWakeSelf cx => some (a, .returned, some (Waker.new t cx))
  | .wakeStart =>
      if a.state = waiting then
        some ({ a with state := a.state ||| waking }, .wakeTake, none)
      else if a.state = registering ∨ a.state = registering ||| waking ∨
          a.state = waking then
        some ({ a with state := a.state ||| waking }, .returned, none)
      else some ({ a with state := a.state ||| waking }, .panicked, none)
  | .wakeTake => some ({ a with waker := none }, .wakeClear a.waker, none)
  | .wakeClear none =>
      some ({ a with state := a.state &&& ~~~waking }, .returned, none)
  | .wakeClear (some waker) =>
      some ({ a with state := a.state &&& ~~~waking }, .wakeWake waker, none)
  | .wakeWake waker => some (a, .returned, some waker)
  | .returned | .panicked => none

inductive AtomicMove (a : AtomicWaker T K) (t : T) :
    AtomicCall T K → AtomicWaker T K → AtomicCall T K → Option (Waker T K) → Prop
  | register (cx : Option K) (hstate : a.state = waiting) :
      AtomicMove a t (.registerStart cx) { a with state := registering }
        (.registerStore cx) none
  | meetsWake (cx : Option K) (hstate : a.state = waking) :
      AtomicMove a t (.registerStart cx) a (.registerWakeSelf cx) none
  | meetsRegister (cx : Option K)
      (hstate : a.state = registering ∨ a.state = registering ||| waking) :
      AtomicMove a t (.registerStart cx) a .returned none
  | registerAssert (cx : Option K) (hwaiting : a.state ≠ waiting)
      (hwaking : a.state ≠ waking) (hregistering : a.state ≠ registering)
      (hboth : a.state ≠ registering ||| waking) :
      AtomicMove a t (.registerStart cx) a .panicked none
  | store (cx : Option K) :
      AtomicMove a t (.registerStore cx) { a with waker := some (a.stored t cx) }
        (.registerFinish cx) none
  | finish (cx : Option K) (hstate : a.state = registering) :
      AtomicMove a t (.registerFinish cx) { a with state := waiting } .returned none
  | takeBack (cx : Option K) (hstate : a.state = registering ||| waking) :
      AtomicMove a t (.registerFinish cx) a (.registerTake cx) none
  | finishAssert (cx : Option K) (hregistering : a.state ≠ registering)
      (hboth : a.state ≠ registering ||| waking) :
      AtomicMove a t (.registerFinish cx) a .panicked none
  | registerUnwrap (cx : Option K) (hwaker : a.waker = none) :
      AtomicMove a t (.registerTake cx) a .panicked none
  | registerTake (cx : Option K) (waker : Waker T K) (hwaker : a.waker = some waker) :
      AtomicMove a t (.registerTake cx) { a with waker := none } (.registerSwap cx waker)
        none
  | swap (cx : Option K) (waker : Waker T K) :
      AtomicMove a t (.registerSwap cx waker) { a with state := waiting }
        (.registerWake cx waker) none
  | registerWake (cx : Option K) (waker : Waker T K) :
      AtomicMove a t (.registerWake cx waker) a .returned (some waker)
  | wakeSelf (cx : Option K) :
      AtomicMove a t (.registerWakeSelf cx) a .returned (some (Waker.new t cx))
  | wake (hstate : a.state = waiting) :
      AtomicMove a t .wakeStart { a with state := a.state ||| waking } .wakeTake none
  | leave (hstate : a.state = registering ∨ a.state = registering ||| waking ∨
        a.state = waking) :
      AtomicMove a t .wakeStart { a with state := a.state ||| waking } .returned none
  | wakeAssert (hwaiting : a.state ≠ waiting) (hregistering : a.state ≠ registering)
      (hboth : a.state ≠ registering ||| waking) (hwaking : a.state ≠ waking) :
      AtomicMove a t .wakeStart { a with state := a.state ||| waking } .panicked none
  | take : AtomicMove a t .wakeTake { a with waker := none } (.wakeClear a.waker) none
  | clearNothing :
      AtomicMove a t (.wakeClear none) { a with state := a.state &&& ~~~waking } .returned
        none
  | clear (waker : Waker T K) :
      AtomicMove a t (.wakeClear (some waker)) { a with state := a.state &&& ~~~waking }
        (.wakeWake waker) none
  | wakes (waker : Waker T K) :
      AtomicMove a t (.wakeWake waker) a .returned (some waker)

theorem AtomicWaker.run_cases {a a' : AtomicWaker T K} {t : T} {call call' : AtomicCall T K}
    {woken : Option (Waker T K)} (hrun : a.run t call = some (a', call', woken)) :
    AtomicMove a t call a' call' woken := by
  cases call with
  | registerStart cx =>
      simp only [AtomicWaker.run] at hrun
      split at hrun
      · rename_i hwaiting
        cases hrun
        exact .register cx hwaiting
      · rename_i hwaiting
        split at hrun
        · rename_i hwaking
          cases hrun
          exact .meetsWake cx hwaking
        · rename_i hwaking
          split at hrun
          · rename_i hregister
            cases hrun
            exact .meetsRegister cx hregister
          · rename_i hregister
            cases hrun
            obtain ⟨hregistering, hboth⟩ := not_or.mp hregister
            exact .registerAssert cx hwaiting hwaking hregistering hboth
  | registerFinish cx =>
      simp only [AtomicWaker.run] at hrun
      split at hrun
      · rename_i hstate
        cases hrun
        exact .finish cx hstate
      · rename_i hregistering
        split at hrun
        · rename_i hstate
          cases hrun
          exact .takeBack cx hstate
        · rename_i hboth
          cases hrun
          exact .finishAssert cx hregistering hboth
  | registerTake cx =>
      simp only [AtomicWaker.run] at hrun
      split at hrun
      · rename_i hwaker
        cases hrun
        exact .registerUnwrap cx hwaker
      · rename_i waker hwaker
        cases hrun
        exact .registerTake cx waker hwaker
  | wakeStart =>
      simp only [AtomicWaker.run] at hrun
      split at hrun
      · rename_i hwaiting
        cases hrun
        exact .wake hwaiting
      · rename_i hwaiting
        split at hrun
        · rename_i hstate
          cases hrun
          exact .leave hstate
        · rename_i hstate
          cases hrun
          obtain ⟨hregistering, hboth, hwaking⟩ : _ ∧ _ ∧ _ := by
            rwa [not_or, not_or] at hstate
          exact .wakeAssert hwaiting hregistering hboth hwaking
  | wakeClear waker =>
      cases waker with
      | none =>
          cases hrun
          exact .clearNothing
      | some waker =>
          cases hrun
          exact .clear waker
  | registerStore cx =>
      cases hrun
      exact .store cx
  | registerSwap cx waker =>
      cases hrun
      exact .swap cx waker
  | registerWake cx waker =>
      cases hrun
      exact .registerWake cx waker
  | registerWakeSelf cx =>
      cases hrun
      exact .wakeSelf cx
  | wakeTake =>
      cases hrun
      exact .take
  | wakeWake waker =>
      cases hrun
      exact .wakes waker
  | returned => cases hrun
  | panicked => cases hrun

theorem AtomicWaker.stored_eq (a : AtomicWaker T K) (t : T) (cx : Option K) :
    a.stored t cx = Waker.new t cx := by
  unfold AtomicWaker.stored
  split
  · split
    · rename_i hwake
      exact Waker.eq_new_of_willWake t hwake
    · rfl
  · rfl

end Steps

section Calls

/-- The calls that have the cell. -/
def AtomicCall.owns : AtomicCall T K → Bool
  | .registerStore _ => true
  | .registerFinish _ => true
  | .registerTake _ => true
  | .registerSwap _ _ => true
  | .wakeTake => true
  | .wakeClear _ => true
  | _ => false

/-- The waker a call of `register` is for. -/
def AtomicCall.registers : AtomicCall T K → Option (Option K)
  | .registerStart cx => some cx
  | .registerStore cx => some cx
  | .registerFinish cx => some cx
  | .registerTake cx => some cx
  | .registerSwap cx _ => some cx
  | .registerWake cx _ => some cx
  | .registerWakeSelf cx => some cx
  | _ => none

/-- A call of `register`, in progress or returned. -/
def AtomicCall.Registers (cx : Option K) (call : AtomicCall T K) : Prop :=
  call = .returned ∨ call.registers = some cx

/-- A call of `wake`, in progress or returned. -/
def AtomicCall.Wakes : AtomicCall T K → Prop
  | .returned => True
  | .wakeStart => True
  | .wakeTake => True
  | .wakeClear _ => True
  | .wakeWake _ => True
  | _ => False

/-- The waker a call has taken out of the cell. -/
def AtomicCall.carries : AtomicCall T K → Option (Waker T K)
  | .registerSwap _ waker => some waker
  | .registerWake _ waker => some waker
  | .wakeClear waker => waker
  | .wakeWake waker => some waker
  | _ => none

/-- What a call knows about the state word and the cell. -/
def AtomicKnows (a : AtomicWaker T K) (t : T) : AtomicCall T K → Prop
  | .registerStore _ => a.state = registering ∨ a.state = registering ||| waking
  | .registerFinish cx =>
      (a.state = registering ∨ a.state = registering ||| waking) ∧
        a.waker = some (Waker.new t cx)
  | .registerTake cx =>
      a.state = registering ||| waking ∧ a.waker = some (Waker.new t cx)
  | .registerSwap cx waker =>
      a.state = registering ||| waking ∧ waker = Waker.new t cx
  | .registerWake cx waker => waker = Waker.new t cx
  | .wakeTake => a.state = waking
  | .wakeClear _ => a.state = waking ∧ a.waker = none
  | .panicked => False
  | _ => True

/-- The state word is the lock of the cell. -/
structure AtomicInv (a : AtomicWaker T K) (calls : T → AtomicCall T K) : Prop where
  knows (t : T) : AtomicKnows a t (calls t)
  exclusive {t t' : T} : (calls t).owns = true → (calls t').owns = true → t = t'
  owned : a.state ≠ waiting → ∃ t, (calls t).owns = true

variable {a a' : AtomicWaker T K} {t : T} {call call' : AtomicCall T K}
  {calls : T → AtomicCall T K} {woken : Option (Waker T K)} {waker : Waker T K}

theorem AtomicCall.Wakes.registers_eq (hcall : call.Wakes) : call.registers = none := by
  cases call with
  | returned => rfl
  | wakeStart => rfl
  | wakeTake => rfl
  | wakeClear _ => rfl
  | wakeWake _ => rfl
  | _ => exact hcall.elim

theorem AtomicInv.new : AtomicInv (AtomicWaker.new : AtomicWaker T K) fun _ => .returned :=
  ⟨fun _ => trivial, nofun, fun h => absurd rfl h⟩

theorem AtomicKnows.of_not_owns (hknows : AtomicKnows a t call) (howns : call.owns = false)
    (a' : AtomicWaker T K) : AtomicKnows a' t call := by
  cases call with
  | registerWake _ _ => exact hknows
  | panicked => exact hknows
  | returned => trivial
  | registerStart _ => trivial
  | registerWakeSelf _ => trivial
  | wakeStart => trivial
  | wakeWake _ => trivial
  | _ => cases howns

theorem AtomicKnows.state (hknows : AtomicKnows a t call) (howns : call.owns = true) :
    call.registers ≠ none ∧ (a.state = registering ∨ a.state = registering ||| waking) ∨
      call.registers = none ∧ a.state = waking := by
  cases call with
  | registerStore _ => exact Or.inl ⟨nofun, hknows⟩
  | registerFinish _ => exact Or.inl ⟨nofun, hknows.1⟩
  | registerTake _ => exact Or.inl ⟨nofun, Or.inr hknows.1⟩
  | registerSwap _ _ => exact Or.inl ⟨nofun, Or.inr hknows.1⟩
  | wakeTake => exact Or.inr ⟨rfl, hknows⟩
  | wakeClear _ => exact Or.inr ⟨rfl, hknows.1⟩
  | _ => cases howns

theorem AtomicKnows.state_ne (hknows : AtomicKnows a t call) (howns : call.owns = true) :
    a.state ≠ waiting := by
  rcases hknows.state howns with ⟨-, hstate | hstate⟩ | ⟨-, hstate⟩ <;> rw [hstate] <;> decide

/-- While the state is `WAITING` nobody has the cell. -/
theorem AtomicInv.free (hinv : AtomicInv a calls) (hstate : a.state = waiting) (t : T) :
    (calls t).owns = false := by
  rw [Bool.eq_false_iff]
  intro howns
  exact (hinv.knows t).state_ne howns hstate

theorem AtomicInv.others (hinv : AtomicInv a calls) (howns : (calls t).owns = true) (t' : T)
    (ht' : t' ≠ t) : (calls t').owns = false := by
  rw [Bool.eq_false_iff]
  exact fun howns' => ht' (hinv.exclusive howns' howns)

theorem AtomicInv.state_cases (hinv : AtomicInv a calls) :
    a.state = waiting ∨ a.state = registering ∨ a.state = waking ∨
      a.state = registering ||| waking := by
  by_cases hstate : a.state = waiting
  · exact Or.inl hstate
  · obtain ⟨t, howns⟩ := hinv.owned hstate
    rcases (hinv.knows t).state howns with ⟨-, h | h⟩ | ⟨-, h⟩
    · exact Or.inr (Or.inl h)
    · exact Or.inr (Or.inr (Or.inr h))
    · exact Or.inr (Or.inr (Or.inl h))

variable [DecidableEq T]

theorem AtomicInv.switch (hinv : AtomicInv a calls) (hfree : (calls t).owns = false)
    (hfree' : call'.owns = false) (hknows : AtomicKnows a t call') :
    AtomicInv a (Function.update calls t call') where
  knows t' := by
    by_cases ht : t' = t
    · rw [ht, Function.update_self]
      exact hknows
    · rw [Function.update_of_ne ht]
      exact hinv.knows t'
  exclusive {t₁ t₂} h₁ h₂ := by
    have hne : ∀ t', (Function.update calls t call' t').owns = true → t' ≠ t := by
      rintro t' howns rfl
      rw [Function.update_self, hfree'] at howns
      cases howns
    rw [Function.update_of_ne (hne t₁ h₁)] at h₁
    rw [Function.update_of_ne (hne t₂ h₂)] at h₂
    exact hinv.exclusive h₁ h₂
  owned hstate := by
    obtain ⟨t', howns⟩ := hinv.owned hstate
    refine ⟨t', ?_⟩
    rw [Function.update_of_ne]
    · exact howns
    · rintro rfl
      rw [hfree] at howns
      cases howns

/-- The step of a call that has the cell, or gets it while it is free. -/
theorem AtomicInv.own (hinv : AtomicInv a calls)
    (hothers : ∀ t', t' ≠ t → (calls t').owns = false) (hknows : AtomicKnows a' t call')
    (howned : a'.state ≠ waiting → call'.owns = true) :
    AtomicInv a' (Function.update calls t call') where
  knows t' := by
    by_cases ht : t' = t
    · rw [ht, Function.update_self]
      exact hknows
    · rw [Function.update_of_ne ht]
      exact (hinv.knows t').of_not_owns (hothers t' ht) a'
  exclusive {t₁ t₂} h₁ h₂ := by
    have heq : ∀ t', (Function.update calls t call' t').owns = true → t' = t := by
      intro t' howns
      by_contra ht
      rw [Function.update_of_ne ht, hothers t' ht] at howns
      cases howns
    rw [heq t₁ h₁, heq t₂ h₂]
  owned hstate := ⟨t, by rw [Function.update_self]; exact howned hstate⟩

/-- A `wake` that meets a call with the cell leaves a mark for a registrar. -/
theorem AtomicInv.leave (hinv : AtomicInv a calls) (hcall : calls t = .wakeStart)
    (hstate : a.state = registering ∨ a.state = registering ||| waking ∨ a.state = waking) :
    AtomicInv { a with state := a.state ||| waking } (Function.update calls t .returned) := by
  have hfree : (calls t).owns = false := by
    rw [hcall]
    rfl
  by_cases hregistering : a.state = registering
  · rw [hregistering]
    obtain ⟨t', howns⟩ := hinv.owned (by rw [hregistering]; decide)
    have hne : t' ≠ t := by
      rintro rfl
      rw [hfree] at howns
      cases howns
    have hswitch : AtomicInv a (Function.update calls t .returned) :=
      hinv.switch hfree rfl trivial
    refine ⟨fun t₁ => ?_, hswitch.exclusive, fun _ => ⟨t', ?_⟩⟩
    · have hknows := hswitch.knows t₁
      generalize Function.update calls t .returned t₁ = call at hknows
      cases call with
      | registerStore _ => exact Or.inr rfl
      | registerFinish _ => exact ⟨Or.inr rfl, hknows.2⟩
      | registerTake _ => exact ⟨rfl, hknows.2⟩
      | registerSwap _ _ => exact ⟨rfl, hknows.2⟩
      | registerWake _ _ => exact hknows
      | wakeTake =>
          rw [show a.state = waking from hknows] at hregistering
          cases hregistering
      | wakeClear _ =>
          rw [hknows.1] at hregistering
          cases hregistering
      | panicked => exact hknows
      | _ => trivial
    · rw [Function.update_of_ne hne]
      exact howns
  · have hsame : a.state ||| waking = a.state := by
      rcases hstate with h | h | h
      · exact absurd h hregistering
      · rw [h]
        decide
      · rw [h]
        decide
    rw [hsame]
    exact hinv.switch hfree rfl trivial

variable [DecidableEq K]

theorem AtomicInv.step (hinv : AtomicInv a calls)
    (hmove : AtomicMove a t (calls t) a' call' woken) :
    AtomicInv a' (Function.update calls t call') := by
  have hknows := hinv.knows t
  have hothers := hinv.others (t := t)
  generalize hcall : calls t = call at hmove hknows hothers
  have hfree : call.owns = false → (calls t).owns = false := fun h => by rw [hcall, h]
  cases hmove with
  | register cx hstate =>
      exact hinv.own (fun t' _ => hinv.free hstate t') (Or.inl rfl) fun _ => rfl
  | meetsWake cx _ => exact hinv.switch (hfree rfl) rfl trivial
  | meetsRegister cx _ => exact hinv.switch (hfree rfl) rfl trivial
  | registerAssert cx hwaiting hwaking hregistering hboth =>
      rcases hinv.state_cases with h | h | h | h
      · exact absurd h hwaiting
      · exact absurd h hregistering
      · exact absurd h hwaking
      · exact absurd h hboth
  | store cx =>
      exact hinv.own (hothers rfl) ⟨hknows, congrArg some (a.stored_eq t cx)⟩ fun _ => rfl
  | finish cx _ => exact hinv.own (hothers rfl) trivial fun h => absurd rfl h
  | takeBack cx hstate => exact hinv.own (hothers rfl) ⟨hstate, hknows.2⟩ fun _ => rfl
  | finishAssert cx hregistering hboth =>
      rcases hknows.1 with h | h
      · exact absurd h hregistering
      · exact absurd h hboth
  | registerUnwrap cx hwaker =>
      rw [hknows.2] at hwaker
      cases hwaker
  | registerTake cx waker hwaker =>
      rw [hknows.2] at hwaker
      cases hwaker
      exact hinv.own (hothers rfl) ⟨hknows.1, rfl⟩ fun _ => rfl
  | swap cx waker => exact hinv.own (hothers rfl) hknows.2 fun h => absurd rfl h
  | registerWake cx waker => exact hinv.switch (hfree rfl) rfl trivial
  | wakeSelf cx => exact hinv.switch (hfree rfl) rfl trivial
  | wake hstate =>
      refine hinv.own (fun t' _ => hinv.free hstate t') ?_ fun _ => rfl
      change a.state ||| waking = waking
      rw [hstate]
      decide
  | leave hstate => exact hinv.leave hcall hstate
  | wakeAssert hwaiting hregistering hboth hwaking =>
      rcases hinv.state_cases with h | h | h | h
      · exact absurd h hwaiting
      · exact absurd h hregistering
      · exact absurd h hwaking
      · exact absurd h hboth
  | take => exact hinv.own (hothers rfl) ⟨hknows, rfl⟩ fun _ => rfl
  | clearNothing =>
      refine hinv.own (hothers rfl) trivial fun h => absurd ?_ h
      change a.state &&& ~~~waking = waiting
      rw [hknows.1]
      decide
  | clear waker =>
      refine hinv.own (hothers rfl) trivial fun h => absurd ?_ h
      change a.state &&& ~~~waking = waiting
      rw [hknows.1]
      decide
  | wakes waker => exact hinv.switch (hfree rfl) rfl trivial

/-- A waker is registered and the next `wake` takes it. -/
structure AtomicWaker.Armed (a : AtomicWaker T K) (waker : Waker T K) : Prop where
  waker_eq : a.waker = some waker
  state_eq : a.state = waiting

/-- A call in progress has taken a waker, or is about to take it. -/
def AtomicWaker.Due (a : AtomicWaker T K) (calls : T → AtomicCall T K)
    (waker : Waker T K) : Prop :=
  (∃ t, (calls t).carries = some waker) ∨ a.waker = some waker ∧ a.state = waking

omit [DecidableEq K] in
theorem AtomicWaker.Due.self (hcarries : call'.carries = some waker) :
    a.Due (Function.update calls t call') waker :=
  Or.inl ⟨t, by rw [Function.update_self]; exact hcarries⟩

omit [DecidableEq K] in
theorem AtomicWaker.Due.other {t' : T} (hcarries : (calls t').carries = some waker)
    (ht' : t' ≠ t) : a.Due (Function.update calls t call') waker :=
  Or.inl ⟨t', by rw [Function.update_of_ne ht']; exact hcarries⟩

omit [DecidableEq T] in
theorem AtomicMove.registers {cx : Option K} (hmove : AtomicMove a t call a' call' woken)
    (hcall : call.Registers cx) (hknows : AtomicKnows a' t call') : call'.Registers cx := by
  rcases hcall with rfl | hcall
  · cases hmove
  · cases hmove with
    | meetsRegister _ _ => exact Or.inl rfl
    | finish _ _ => exact Or.inl rfl
    | registerWake _ _ => exact Or.inl rfl
    | wakeSelf _ => exact Or.inl rfl
    | registerAssert _ _ _ _ _ => exact hknows.elim
    | finishAssert _ _ _ => exact hknows.elim
    | registerUnwrap _ _ => exact hknows.elim
    | _ => exact Or.inr hcall

omit [DecidableEq T] in
theorem AtomicMove.wakesCall (hmove : AtomicMove a t call a' call' woken) (hcall : call.Wakes)
    (hknows : AtomicKnows a' t call') : call'.Wakes := by
  cases hmove with
  | wakeAssert _ _ _ _ => exact hknows.elim
  | _ => first | exact trivial | exact hcall.elim

omit [DecidableEq T] in
/-- What a call carries, it wakes. -/
theorem AtomicMove.carries (hmove : AtomicMove a t call a' call' woken)
    (hcarries : call.carries = some waker) :
    woken = some waker ∨ call'.carries = some waker := by
  cases hmove with
  | swap _ _ => exact Or.inr hcarries
  | registerWake _ _ => exact Or.inl hcarries
  | clear _ => exact Or.inr hcarries
  | wakes _ => exact Or.inl hcarries
  | _ => cases hcarries

theorem AtomicInv.due_step (hinv : AtomicInv a calls)
    (hmove : AtomicMove a t (calls t) a' call' woken) (hdue : a.Due calls waker) :
    woken = some waker ∨ a'.Due (Function.update calls t call') waker := by
  rcases hdue with ⟨t', hcarries⟩ | ⟨hwaker, hstate⟩
  · by_cases ht : t' = t
    · subst ht
      exact (hmove.carries hcarries).imp id AtomicWaker.Due.self
    · exact Or.inr (AtomicWaker.Due.other hcarries ht)
  · refine Or.inr ?_
    have hknows := hinv.knows t
    have hregister : (calls t).owns = true → (calls t).registers = none := by
      intro howns
      rcases hknows.state howns with ⟨-, h | h⟩ | ⟨h, -⟩
      · rw [hstate] at h
        cases h
      · rw [hstate] at h
        cases h
      · exact h
    have hmarked : a.state ||| waking = waking := by
      rw [hstate]
      decide
    generalize calls t = call at hmove hknows hregister
    cases hmove with
    | register _ h =>
        rw [hstate] at h
        cases h
    | wake h =>
        rw [hstate] at h
        cases h
    | leave _ => exact Or.inr ⟨hwaker, hmarked⟩
    | wakeAssert _ _ _ _ => exact Or.inr ⟨hwaker, hmarked⟩
    | take => exact AtomicWaker.Due.self hwaker
    | clearNothing =>
        rw [hknows.2] at hwaker
        cases hwaker
    | clear _ =>
        rw [hknows.2] at hwaker
        cases hwaker
    | store _ => cases hregister rfl
    | finish _ _ => cases hregister rfl
    | takeBack _ _ => cases hregister rfl
    | finishAssert _ _ _ => cases hregister rfl
    | registerUnwrap _ _ => cases hregister rfl
    | registerTake _ _ _ => cases hregister rfl
    | swap _ _ => cases hregister rfl
    | _ => exact Or.inr ⟨hwaker, hstate⟩

omit [DecidableEq T] in
theorem AtomicMove.due_of_wakeStart (hmove : AtomicMove a t .wakeStart a' call' woken)
    (harmed : a.Armed waker) : a'.Due calls waker := by
  have hmarked : a.state ||| waking = waking := by
    rw [harmed.state_eq]
    decide
  cases hmove with
  | wake _ => exact Or.inr ⟨harmed.waker_eq, hmarked⟩
  | leave _ => exact Or.inr ⟨harmed.waker_eq, hmarked⟩
  | wakeAssert _ _ _ _ => exact Or.inr ⟨harmed.waker_eq, hmarked⟩

omit [DecidableEq T] in
/-- A registered waker stays until a `wake` or a `register` comes. -/
theorem AtomicInv.armed_step (hinv : AtomicInv a calls)
    (hmove : AtomicMove a t (calls t) a' call' woken) (harmed : a.Armed waker)
    (hregister : (calls t).registers = none) (hwake : calls t ≠ .wakeStart) :
    a'.Armed waker := by
  have hfree := hinv.free harmed.state_eq t
  generalize calls t = call at hmove hregister hwake hfree
  cases hmove with
  | wake _ => exact absurd rfl hwake
  | leave _ => exact absurd rfl hwake
  | wakeAssert _ _ _ _ => exact absurd rfl hwake
  | wakes _ => exact harmed
  | take => cases hfree
  | clearNothing => cases hfree
  | clear _ => cases hfree
  | _ => cases hregister

omit [DecidableEq T] in
/-- When a call of `register` returns, its waker is registered, or it was woken, or
another call of `register` is in progress. -/
theorem AtomicInv.register_returns (hinv : AtomicInv a calls) {cx : Option K}
    (hmove : AtomicMove a t (calls t) a' .returned woken)
    (hregisters : (calls t).registers = some cx) :
    woken = some (Waker.new t cx) ∨ a'.Armed (Waker.new t cx) ∨
      ∃ t', t' ≠ t ∧ (calls t').registers ≠ none := by
  have hknows := hinv.knows t
  generalize hcall : calls t = call at hmove hregisters hknows
  generalize hreturned : AtomicCall.returned = call' at hmove
  cases hmove with
  | meetsRegister _ hstate =>
      obtain ⟨t', howns⟩ := hinv.owned (by rcases hstate with h | h <;> rw [h] <;> decide)
      refine Or.inr (Or.inr ⟨t', ?_, ?_⟩)
      · rintro rfl
        rw [hcall] at howns
        cases howns
      · rcases (hinv.knows t').state howns with ⟨hsome, -⟩ | ⟨-, hwaking⟩
        · exact hsome
        · rw [hwaking] at hstate
          rcases hstate with h | h <;> cases h
  | finish _ _ =>
      cases hregisters
      exact Or.inr (Or.inl ⟨hknows.2, rfl⟩)
  | registerWake _ _ =>
      cases hregisters
      exact Or.inl (congrArg some hknows)
  | wakeSelf _ =>
      cases hregisters
      exact Or.inl rfl
  | leave _ => cases hregisters
  | clearNothing => cases hregisters
  | wakes _ => cases hregisters
  | _ => cases hreturned

end Calls

end SwapBufferQueue
