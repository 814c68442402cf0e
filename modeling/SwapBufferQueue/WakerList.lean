/-
`WakerList`, the wakers of the enqueuers: a vector behind a mutex, and a flag that is set
under the mutex and cleared outside of it.  A `wake` that has cleared the flag has the
duty to drain the vector; until it has the mutex, registrations go on.  `wake_all` keeps
the mutex while it wakes what it has drained.
-/
import SwapBufferQueue.AtomicWaker

namespace SwapBufferQueue

universe x y

variable {T : Type x} {K : Type y}

structure WakerList (T : Type x) (K : Type y) where
  wakers : List (Waker T K)
  nonEmpty : Bool
  mutex : Option T
deriving Repr, DecidableEq

def WakerList.default : WakerList T K := ⟨[], false, none⟩

/-- Where a call of `register` or of `wake` is. -/
inductive ListCall (T : Type x) (K : Type y) where
  | returned
  | registerLock (cx : Option K)
  | registerCheck (cx : Option K)
  | registerMark (cx : Option K)
  | registerPush (cx : Option K)
  | registerUnlock
  | wakeLoad
  | wakeExchange
  | wakeLock
  | wakeDrain
  | wakeAll (wakers : List (Waker T K))
deriving Repr, DecidableEq

/-- One step of a call of the thread `t`, with the waker it wakes. -/
def WakerList.run (l : WakerList T K) (t : T) :
    ListCall T K → Option (WakerList T K × ListCall T K × Option (Waker T K))
  | .registerLock cx =>
      match l.mutex with
      | some _ => none
      | none => some ({ l with mutex := some t }, .registerCheck cx, none)
  | .registerCheck cx =>
      if l.wakers = [] then some (l, .registerMark cx, none)
      else some (l, .registerPush cx, none)
  | .registerMark cx => some ({ l with nonEmpty := true }, .registerPush cx, none)
  | .registerPush cx =>
      some ({ l with wakers := l.wakers ++ [Waker.new t cx] }, .registerUnlock, none)
  | .registerUnlock => some ({ l with mutex := none }, .returned, none)
  | .wakeLoad =>
      if l.nonEmpty then some (l, .wakeExchange, none) else some (l, .returned, none)
  | .wakeExchange =>
      if l.nonEmpty then some ({ l with nonEmpty := false }, .wakeLock, none)
      else some (l, .returned, none)
  | .wakeLock =>
      match l.mutex with
      | some _ => none
      | none => some ({ l with mutex := some t }, .wakeDrain, none)
  | .wakeDrain => some ({ l with wakers := [] }, .wakeAll l.wakers, none)
  | .wakeAll (waker :: rest) => some (l, .wakeAll rest, some waker)
  | .wakeAll [] => some ({ l with mutex := none }, .returned, none)
  | .returned => none

inductive ListMove (l : WakerList T K) (t : T) :
    ListCall T K → WakerList T K → ListCall T K → Option (Waker T K) → Prop
  | lock (cx : Option K) (hmutex : l.mutex = none) :
      ListMove l t (.registerLock cx) { l with mutex := some t } (.registerCheck cx) none
  | empty (cx : Option K) (hwakers : l.wakers = []) :
      ListMove l t (.registerCheck cx) l (.registerMark cx) none
  | occupied (cx : Option K) (hwakers : l.wakers ≠ []) :
      ListMove l t (.registerCheck cx) l (.registerPush cx) none
  | mark (cx : Option K) :
      ListMove l t (.registerMark cx) { l with nonEmpty := true } (.registerPush cx) none
  | push (cx : Option K) :
      ListMove l t (.registerPush cx) { l with wakers := l.wakers ++ [Waker.new t cx] }
        .registerUnlock none
  | unlock : ListMove l t .registerUnlock { l with mutex := none } .returned none
  | load (hflag : l.nonEmpty = true) : ListMove l t .wakeLoad l .wakeExchange none
  | loadNothing (hflag : l.nonEmpty = false) : ListMove l t .wakeLoad l .returned none
  | exchange (hflag : l.nonEmpty = true) :
      ListMove l t .wakeExchange { l with nonEmpty := false } .wakeLock none
  | exchangeNothing (hflag : l.nonEmpty = false) :
      ListMove l t .wakeExchange l .returned none
  | wakeLock (hmutex : l.mutex = none) :
      ListMove l t .wakeLock { l with mutex := some t } .wakeDrain none
  | drain : ListMove l t .wakeDrain { l with wakers := [] } (.wakeAll l.wakers) none
  | wakes (waker : Waker T K) (rest : List (Waker T K)) :
      ListMove l t (.wakeAll (waker :: rest)) l (.wakeAll rest) (some waker)
  | finish : ListMove l t (.wakeAll []) { l with mutex := none } .returned none

theorem WakerList.run_cases {l l' : WakerList T K} {t : T} {call call' : ListCall T K}
    {woken : Option (Waker T K)} (hrun : l.run t call = some (l', call', woken)) :
    ListMove l t call l' call' woken := by
  cases call with
  | returned => cases hrun
  | registerLock cx =>
      simp only [WakerList.run] at hrun
      split at hrun
      · cases hrun
      · rename_i hmutex
        cases hrun
        exact .lock cx hmutex
  | registerCheck cx =>
      simp only [WakerList.run] at hrun
      split at hrun
      · rename_i hwakers
        cases hrun
        exact .empty cx hwakers
      · rename_i hwakers
        cases hrun
        exact .occupied cx hwakers
  | registerMark cx =>
      cases hrun
      exact .mark cx
  | registerPush cx =>
      cases hrun
      exact .push cx
  | registerUnlock =>
      cases hrun
      exact .unlock
  | wakeLoad =>
      simp only [WakerList.run] at hrun
      split at hrun
      · rename_i hflag
        cases hrun
        exact .load hflag
      · rename_i hflag
        cases hrun
        exact .loadNothing (Bool.eq_false_iff.mpr hflag)
  | wakeExchange =>
      simp only [WakerList.run] at hrun
      split at hrun
      · rename_i hflag
        cases hrun
        exact .exchange hflag
      · rename_i hflag
        cases hrun
        exact .exchangeNothing (Bool.eq_false_iff.mpr hflag)
  | wakeLock =>
      simp only [WakerList.run] at hrun
      split at hrun
      · cases hrun
      · rename_i hmutex
        cases hrun
        exact .wakeLock hmutex
  | wakeDrain =>
      cases hrun
      exact .drain
  | wakeAll wakers =>
      cases wakers with
      | nil =>
          cases hrun
          exact .finish
      | cons waker rest =>
          cases hrun
          exact .wakes waker rest

section Calls

/-- The calls that have the mutex. -/
def ListCall.locks : ListCall T K → Bool
  | .registerCheck _ => true
  | .registerMark _ => true
  | .registerPush _ => true
  | .registerUnlock => true
  | .wakeDrain => true
  | .wakeAll _ => true
  | _ => false

/-- The calls that have cleared the flag and not drained the vector yet. -/
def ListCall.drains : ListCall T K → Bool
  | .wakeLock => true
  | .wakeDrain => true
  | _ => false

/-- The calls that are about to push, with the flag taken care of. -/
def ListCall.pushes : ListCall T K → Bool
  | .registerPush _ => true
  | _ => false

/-- A call of `register`, in progress or returned. -/
def ListCall.Registers (cx : Option K) : ListCall T K → Prop
  | .returned => True
  | .registerLock cx' => cx' = cx
  | .registerCheck cx' => cx' = cx
  | .registerMark cx' => cx' = cx
  | .registerPush cx' => cx' = cx
  | .registerUnlock => True
  | _ => False

/-- A call of `wake`, in progress or returned. -/
def ListCall.Wakes : ListCall T K → Prop
  | .returned => True
  | .wakeLoad => True
  | .wakeExchange => True
  | .wakeLock => True
  | .wakeDrain => True
  | .wakeAll _ => True
  | _ => False

/-- There is something to drain, or it comes before the mutex is given back. -/
def WakerList.Stocked (l : WakerList T K) (calls : T → ListCall T K) : Prop :=
  l.wakers ≠ [] ∨ ∃ t, (calls t).pushes = true

/-- A stock has its flag set or one thread that drains it, and not both. -/
structure FlagInv (stocked : Prop) (flag : Bool) (drains : T → Bool) : Prop where
  flagged : stocked ↔ flag = true ∨ ∃ t, drains t = true
  cleared {t : T} : drains t = true → flag = false
  exclusive {t t' : T} : drains t = true → drains t' = true → t = t'

/-- The mutex has one owner, and the flag and the drainers say whether there is
something to drain. -/
structure ListInv (l : WakerList T K) (calls : T → ListCall T K) : Prop where
  locked (t : T) : (calls t).locks = true ↔ l.mutex = some t
  marks {t : T} {cx : Option K} : calls t = .registerMark cx → l.wakers = []
  flag : FlagInv (l.Stocked calls) l.nonEmpty fun t => (calls t).drains

section Flag

variable {stocked stocked' : Prop} {flag : Bool} {drains drains' : T → Bool} {t : T}

theorem FlagInv.congr (hflag : FlagInv stocked flag drains) (hstocked : stocked' ↔ stocked)
    (hdrains : drains' = drains) : FlagInv stocked' flag drains' := by
  subst hdrains
  exact ⟨hstocked.trans hflag.flagged, hflag.cleared, hflag.exclusive⟩

theorem FlagInv.set (hflag : FlagInv stocked flag drains) (hnot : ¬ stocked)
    (hstocked : stocked') (hdrains : drains' = drains) : FlagInv stocked' true drains' := by
  subst hdrains
  have hnone : ∀ {t}, drains' t ≠ true :=
    fun h => hnot (hflag.flagged.mpr (Or.inr ⟨_, h⟩))
  exact ⟨⟨fun _ => Or.inl rfl, fun _ => hstocked⟩, fun h => absurd h hnone,
    fun h => absurd h hnone⟩

variable [DecidableEq T]

/-- A thread clears the flag and takes the duty to drain. -/
theorem FlagInv.clear (hflag : FlagInv stocked true drains) (hstocked : stocked' ↔ stocked)
    (hdrains : drains' = Function.update drains t true) :
    FlagInv stocked' false drains' := by
  subst hdrains
  have hself : ∀ {t'}, Function.update drains t true t' = true → t' = t := by
    intro t' ht'
    by_contra hne
    rw [Function.update_of_ne hne] at ht'
    cases hflag.cleared ht'
  refine ⟨⟨fun _ => Or.inr ⟨t, Function.update_self ..⟩, fun _ => ?_⟩, fun _ => rfl, ?_⟩
  · exact hstocked.mpr (hflag.flagged.mpr (Or.inl rfl))
  · intro t₁ t₂ h₁ h₂
    rw [hself h₁, hself h₂]

theorem FlagInv.drain (hflag : FlagInv stocked flag drains) (ht : drains t = true)
    (hstocked : ¬ stocked') (hdrains : drains' = Function.update drains t false) :
    FlagInv stocked' flag drains' := by
  subst hdrains
  have hnone : ∀ t', Function.update drains t false t' ≠ true := by
    intro t' ht'
    by_cases heq : t' = t
    · rw [heq, Function.update_self] at ht'
      cases ht'
    · rw [Function.update_of_ne heq] at ht'
      exact heq (hflag.exclusive ht' ht)
  refine ⟨⟨fun h => absurd h hstocked, ?_⟩, fun h => absurd h (hnone _),
    fun h => absurd h (hnone _)⟩
  rintro (h | ⟨t', h⟩)
  · rw [hflag.cleared ht] at h
    cases h
  · exact absurd h (hnone t')

end Flag

variable {l l' : WakerList T K} {t : T} {call call' : ListCall T K}
  {calls : T → ListCall T K} {woken : Option (Waker T K)} {waker : Waker T K}

theorem ListMove.registers {cx : Option K} (hmove : ListMove l t call l' call' woken)
    (hcall : call.Registers cx) : call'.Registers cx := by
  cases hmove with
  | push _ => exact trivial
  | unlock => exact trivial
  | _ => first | exact hcall | exact hcall.elim

theorem ListMove.wakesCall (hmove : ListMove l t call l' call' woken) (hcall : call.Wakes) :
    call'.Wakes := by
  cases hmove with
  | _ => first | exact trivial | exact hcall.elim

theorem ListInv.default :
    ListInv (WakerList.default : WakerList T K) fun _ => .returned where
  locked _ := ⟨nofun, nofun⟩
  marks := nofun
  flag := by
    refine ⟨⟨?_, ?_⟩, nofun, nofun⟩
    · rintro (h | ⟨_, h⟩)
      · exact absurd rfl h
      · cases h
    · rintro (h | ⟨_, h⟩) <;> cases h

theorem ListCall.locks_of_pushes (hpushes : call.pushes = true) : call.locks = true := by
  cases call with
  | registerPush _ => rfl
  | _ => cases hpushes

/-- Nobody else is between taking the mutex and giving it back. -/
theorem ListInv.not_locks (hinv : ListInv l calls) (hlocks : (calls t).locks = true) {t' : T}
    (ht' : t' ≠ t) : (calls t').locks = false := by
  rw [Bool.eq_false_iff]
  intro hlocks'
  have hmutex := (hinv.locked t).mp hlocks
  rw [(hinv.locked t').mp hlocks', Option.some.injEq] at hmutex
  exact ht' hmutex

theorem ListInv.not_pushes (hinv : ListInv l calls) (hlocks : (calls t).locks = true) {t' : T}
    (ht' : t' ≠ t) : (calls t').pushes = false := by
  rw [Bool.eq_false_iff]
  intro hpushes
  have hnot := hinv.not_locks hlocks ht'
  rw [ListCall.locks_of_pushes hpushes] at hnot
  cases hnot

variable [DecidableEq T]

theorem drains_update (calls : T → ListCall T K) (t : T) (call' : ListCall T K) :
    (fun t' => (Function.update calls t call' t').drains) =
      Function.update (fun t' => (calls t').drains) t call'.drains :=
  Function.comp_update ListCall.drains calls t call'

theorem drains_update_same (hdrains : call'.drains = (calls t).drains) :
    (fun t' => (Function.update calls t call' t').drains) = fun t' => (calls t').drains := by
  rw [drains_update, hdrains]
  exact Function.update_eq_self t _

theorem WakerList.stocked_update (hwakers : l'.wakers = l.wakers)
    (hpushes : call'.pushes = (calls t).pushes) :
    l'.Stocked (Function.update calls t call') ↔ l.Stocked calls := by
  have hsame : (fun t' => (Function.update calls t call' t').pushes) =
      fun t' => (calls t').pushes := by
    change ListCall.pushes ∘ Function.update calls t call' = ListCall.pushes ∘ calls
    rw [Function.comp_update, hpushes]
    exact Function.update_eq_self t _
  have hsame' : ∀ t', (Function.update calls t call' t').pushes = (calls t').pushes :=
    fun t' => congrFun hsame t'
  simp only [WakerList.Stocked, hwakers, hsame']

section Locks

variable (hinv : ListInv l calls)

include hinv

theorem ListInv.locked_keep (hlocks : call'.locks = (calls t).locks) (t' : T) :
    (Function.update calls t call' t').locks = true ↔ l.mutex = some t' := by
  rw [← hinv.locked t']
  by_cases ht : t' = t
  · rw [ht, Function.update_self, hlocks]
  · rw [Function.update_of_ne ht]

theorem ListInv.locked_lock (hmutex : l.mutex = none) (hlocks : call'.locks = true) (t' : T) :
    (Function.update calls t call' t').locks = true ↔ some t = some t' := by
  rw [Option.some.injEq]
  by_cases ht : t' = t
  · rw [ht, Function.update_self]
    exact ⟨fun _ => rfl, fun _ => hlocks⟩
  · rw [Function.update_of_ne ht, hinv.locked t', hmutex]
    exact ⟨nofun, fun h => absurd h.symm ht⟩

theorem ListInv.locked_unlock (hlocks : (calls t).locks = true) (hlocks' : call'.locks = false)
    (t' : T) : (Function.update calls t call' t').locks = true ↔ none = some t' := by
  by_cases ht : t' = t
  · rw [ht, Function.update_self, hlocks']
    exact ⟨nofun, nofun⟩
  · rw [Function.update_of_ne ht, hinv.not_locks hlocks ht]
    exact ⟨nofun, nofun⟩

/-- Who is about to set the flag knows that the vector is empty. -/
theorem ListInv.marks_keep (call' : ListCall T K)
    (hwakers : (calls t).locks = false → l'.wakers = l.wakers)
    (hself : ∀ cx, call' = .registerMark cx → l'.wakers = []) {t' : T} {cx : Option K}
    (ht' : Function.update calls t call' t' = .registerMark cx) : l'.wakers = [] := by
  by_cases ht : t' = t
  · rw [ht, Function.update_self] at ht'
    exact hself cx ht'
  · rw [Function.update_of_ne ht] at ht'
    have hlocks' : (calls t').locks = true := by rw [ht']; rfl
    have hlocks : (calls t).locks = false := hinv.not_locks hlocks' (Ne.symm ht)
    rw [hwakers hlocks]
    exact hinv.marks ht'

theorem ListInv.switch (hlocks : call'.locks = (calls t).locks)
    (hdrains : call'.drains = (calls t).drains) (hpushes : call'.pushes = (calls t).pushes)
    (hself : ∀ cx, call' = .registerMark cx → l.wakers = []) :
    ListInv l (Function.update calls t call') where
  locked := hinv.locked_keep hlocks
  marks := hinv.marks_keep call' (fun _ => rfl) hself
  flag := hinv.flag.congr (WakerList.stocked_update rfl hpushes) (drains_update_same hdrains)

end Locks

theorem ListInv.step (hinv : ListInv l calls) (hmove : ListMove l t (calls t) l' call' woken) :
    ListInv l' (Function.update calls t call') := by
  have hmarks : ∀ {cx}, calls t = .registerMark cx → l.wakers = [] := hinv.marks
  have hnot : (calls t).locks = true → ∀ {t'}, t' ≠ t → (calls t').pushes = false :=
    hinv.not_pushes
  generalize hcall : calls t = call at hmove hmarks hnot
  have hlocks : (calls t).locks = call.locks := by rw [hcall]
  have hdrains : (calls t).drains = call.drains := by rw [hcall]
  have hpushes : (calls t).pushes = call.pushes := by rw [hcall]
  have hsame : ∀ {l₁ : WakerList T K} {call₁ : ListCall T K}, l₁.wakers = l.wakers →
      call₁.pushes = call.pushes →
        (l₁.Stocked (Function.update calls t call₁) ↔ l.Stocked calls) :=
    fun hwakers h => WakerList.stocked_update hwakers (h.trans hpushes.symm)
  have hkeep : ∀ {call₁ : ListCall T K}, call₁.drains = call.drains →
      (fun t' => (Function.update calls t call₁ t').drains) = fun t' => (calls t').drains :=
    fun h => drains_update_same (h.trans hdrains.symm)
  cases hmove with
  | lock cx hmutex =>
      exact ⟨hinv.locked_lock hmutex rfl, hinv.marks_keep (.registerCheck cx) (fun _ => rfl) nofun,
        hinv.flag.congr (hsame rfl rfl) (hkeep rfl)⟩
  | empty cx hwakers =>
      exact hinv.switch hlocks.symm hdrains.symm hpushes.symm fun _ _ => hwakers
  | occupied cx hwakers =>
      refine ⟨hinv.locked_keep hlocks.symm, hinv.marks_keep (.registerPush cx) (fun _ => rfl) nofun,
        hinv.flag.congr ?_ (hkeep rfl)⟩
      exact ⟨fun _ => Or.inl hwakers, fun _ => Or.inl hwakers⟩
  | mark cx =>
      refine ⟨hinv.locked_keep hlocks.symm, hinv.marks_keep (.registerPush cx) (fun _ => rfl) nofun,
        hinv.flag.set ?_ ?_ (hkeep rfl)⟩
      · rintro (hwakers | ⟨t', ht'⟩)
        · exact hwakers (hmarks rfl)
        · by_cases heq : t' = t
          · rw [heq, hpushes] at ht'
            cases ht'
          · rw [hnot rfl heq] at ht'
            cases ht'
      · exact Or.inr ⟨t, by rw [Function.update_self]; rfl⟩
  | push cx =>
      refine ⟨hinv.locked_keep hlocks.symm, hinv.marks_keep .registerUnlock ?_ nofun,
        hinv.flag.congr ?_ (hkeep rfl)⟩
      · intro h
        rw [hlocks] at h
        cases h
      · exact ⟨fun _ => Or.inr ⟨t, hpushes⟩, fun _ => Or.inl (by simp)⟩
  | unlock =>
      exact ⟨hinv.locked_unlock hlocks rfl, hinv.marks_keep .returned (fun _ => rfl) nofun,
        hinv.flag.congr (hsame rfl rfl) (hkeep rfl)⟩
  | load _ => exact hinv.switch hlocks.symm hdrains.symm hpushes.symm nofun
  | loadNothing _ => exact hinv.switch hlocks.symm hdrains.symm hpushes.symm nofun
  | exchange hflag =>
      refine ⟨hinv.locked_keep hlocks.symm, hinv.marks_keep .wakeLock (fun _ => rfl) nofun, ?_⟩
      have hset := hinv.flag
      rw [hflag] at hset
      exact hset.clear (hsame rfl rfl) (drains_update calls t .wakeLock)
  | exchangeNothing _ => exact hinv.switch hlocks.symm hdrains.symm hpushes.symm nofun
  | wakeLock hmutex =>
      exact ⟨hinv.locked_lock hmutex rfl, hinv.marks_keep .wakeDrain (fun _ => rfl) nofun,
        hinv.flag.congr (hsame rfl rfl) (hkeep rfl)⟩
  | drain =>
      refine ⟨hinv.locked_keep hlocks.symm, hinv.marks_keep (.wakeAll l.wakers) (fun h => ?_) nofun,
        hinv.flag.drain (t := t) hdrains ?_ (drains_update calls t _)⟩
      · rw [hlocks] at h
        cases h
      · rintro (hwakers | ⟨t', ht'⟩)
        · exact hwakers rfl
        · by_cases heq : t' = t
          · rw [heq, Function.update_self] at ht'
            cases ht'
          · rw [Function.update_of_ne heq, hnot rfl heq] at ht'
            cases ht'
  | wakes waker rest => exact hinv.switch hlocks.symm hdrains.symm hpushes.symm nofun
  | finish =>
      exact ⟨hinv.locked_unlock hlocks rfl, hinv.marks_keep .returned (fun _ => rfl) nofun,
        hinv.flag.congr (hsame rfl rfl) (hkeep rfl)⟩

/-- A waker is in the vector and the next `wake` drains it. -/
structure WakerList.Armed (l : WakerList T K) (waker : Waker T K) : Prop where
  mem : waker ∈ l.wakers
  flag : l.nonEmpty = true

def ListCall.carries : ListCall T K → List (Waker T K)
  | .wakeAll wakers => wakers
  | _ => []

/-- A call in progress has drained a waker, or is about to drain it. -/
def WakerList.Due (l : WakerList T K) (calls : T → ListCall T K) (waker : Waker T K) :
    Prop :=
  (∃ t, waker ∈ (calls t).carries) ∨
    waker ∈ l.wakers ∧ ∃ t, (calls t).drains = true

theorem WakerList.Due.self (hcarries : waker ∈ call'.carries) :
    l.Due (Function.update calls t call') waker :=
  Or.inl ⟨t, by rw [Function.update_self]; exact hcarries⟩

omit [DecidableEq T] in
theorem ListMove.wakers (hmove : ListMove l t call l' call' woken) (hmem : waker ∈ l.wakers) :
    waker ∈ l'.wakers ∨ waker ∈ call'.carries := by
  cases hmove with
  | push _ => exact Or.inl (List.mem_append_left _ hmem)
  | drain => exact Or.inr hmem
  | _ => exact Or.inl hmem

omit [DecidableEq T] in
theorem ListMove.drains (hmove : ListMove l t call l' call' woken)
    (hdrains : call.drains = true) (hmem : waker ∈ l.wakers) :
    waker ∈ l'.wakers ∧ call'.drains = true ∨ waker ∈ call'.carries := by
  cases hmove with
  | wakeLock _ => exact Or.inl ⟨hmem, rfl⟩
  | drain => exact Or.inr hmem
  | _ => cases hdrains

omit [DecidableEq T] in
/-- What a call has drained, it wakes. -/
theorem ListMove.carries (hmove : ListMove l t call l' call' woken)
    (hcarries : waker ∈ call.carries) : woken = some waker ∨ waker ∈ call'.carries := by
  cases hmove with
  | wakes head rest =>
      rcases List.mem_cons.mp hcarries with heq | hrest
      · exact Or.inl (congrArg some heq.symm)
      · exact Or.inr hrest
  | _ => cases hcarries

theorem ListMove.due_step (hmove : ListMove l t (calls t) l' call' woken)
    (hdue : l.Due calls waker) :
    woken = some waker ∨ l'.Due (Function.update calls t call') waker := by
  rcases hdue with ⟨t', hcarries⟩ | ⟨hmem, t', hdrains⟩
  · by_cases ht : t' = t
    · subst ht
      exact (hmove.carries hcarries).imp id WakerList.Due.self
    · exact Or.inr (Or.inl ⟨t', by rw [Function.update_of_ne ht]; exact hcarries⟩)
  · refine Or.inr ?_
    by_cases ht : t' = t
    · subst ht
      rcases hmove.drains hdrains hmem with ⟨hmem', hdrains'⟩ | hcarries
      · exact Or.inr ⟨hmem', t', by rw [Function.update_self]; exact hdrains'⟩
      · exact WakerList.Due.self hcarries
    · rcases hmove.wakers hmem with hmem' | hcarries
      · exact Or.inr ⟨hmem', t', by rw [Function.update_of_ne ht]; exact hdrains⟩
      · exact WakerList.Due.self hcarries

/-- A waker in the vector stays there until a `wake` takes the duty for it. -/
theorem ListMove.armed_step (hmove : ListMove l t (calls t) l' call' woken)
    (harmed : l.Armed waker) :
    l'.Armed waker ∨ l'.Due (Function.update calls t call') waker := by
  obtain ⟨hmem, hflag⟩ := harmed
  generalize calls t = call at hmove
  cases hmove with
  | mark _ => exact Or.inl ⟨hmem, rfl⟩
  | push _ => exact Or.inl ⟨List.mem_append_left _ hmem, hflag⟩
  | exchange _ => exact Or.inr (Or.inr ⟨hmem, t, by rw [Function.update_self]; rfl⟩)
  | drain => exact Or.inr (WakerList.Due.self hmem)
  | _ => exact Or.inl ⟨hmem, hflag⟩

omit [DecidableEq T] in
/-- A `wake` that meets a registered waker goes on to the exchange. -/
theorem ListMove.exchange_of_load (hmove : ListMove l t .wakeLoad l' call' woken)
    (harmed : l.Armed waker) : call' = .wakeExchange := by
  cases hmove with
  | load _ => rfl
  | loadNothing hflag =>
      rw [harmed.flag] at hflag
      cases hflag

theorem ListMove.due_of_exchange (hmove : ListMove l t .wakeExchange l' call' woken)
    (harmed : l.Armed waker) : l'.Due (Function.update calls t call') waker := by
  cases hmove with
  | exchange _ => exact Or.inr ⟨harmed.mem, t, by rw [Function.update_self]; rfl⟩
  | exchangeNothing hflag =>
      rw [harmed.flag] at hflag
      cases hflag

/-- A pushed waker is there for the next `wake`, or for one in progress. -/
theorem ListInv.armed_of_push (hinv : ListInv l calls) {cx : Option K}
    (hcall : calls t = .registerPush cx)
    (hmove : ListMove l t (calls t) l' call' woken) :
    l'.Armed (Waker.new t cx) ∨ l'.Due (Function.update calls t call') (Waker.new t cx) := by
  have hinv' := hinv.step hmove
  rw [hcall] at hmove
  cases hmove with
  | push _ =>
      have hmem : Waker.new t cx ∈ l.wakers ++ [Waker.new t cx] :=
        List.mem_append_right _ List.mem_cons_self
      rcases hinv'.flag.flagged.mp (Or.inl (List.ne_nil_of_mem hmem)) with hflag | hdrains
      · exact Or.inl ⟨hmem, hflag⟩
      · exact Or.inr (Or.inr ⟨hmem, hdrains⟩)

end Calls

end SwapBufferQueue
