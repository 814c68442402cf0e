/-
Reservations of every size.  The size is shifted into the place of the remaining
capacity before it is subtracted, and the shift drops its top bit: a size of `2^63` or
more is taken for its rest modulo `2^63`.
-/
import SwapBufferQueue.CellBuffer
import SwapBufferQueue.Machine

namespace SwapBufferQueue

universe u v w

namespace EnqueuingCapacity

variable {enqueuing : EnqueuingCapacity}

/-- Only the lower bits of a size are subtracted. -/
theorem tryReserve_mod (enqueuing : EnqueuingCapacity) (size : Nat) :
    enqueuing.tryReserve (size % 2 ^ 63) = enqueuing.tryReserve size := by
  have hshift : BitVec.ofNat 64 (size % 2 ^ 63) <<< 1 = BitVec.ofNat 64 size <<< 1 := by
    apply BitVec.eq_of_toNat_eq
    rw [toNat_shiftLeft_one (Nat.mod_lt _ (by decide)), BitVec.toNat_shiftLeft,
      BitVec.toNat_ofNat, Nat.shiftLeft_eq]
    omega
  rw [tryReserve, tryReserve, hshift]

/-- The reservation that was asked for is made, and no other. -/
structure ReservesExactly (enqueuing : EnqueuingCapacity) (size : Nat) : Prop where
  isSome_iff : (enqueuing.tryReserve size).isSome = true ↔
    size ≤ enqueuing.remainingCapacity
  decodes (next : EnqueuingCapacity) : enqueuing.tryReserve size = some next →
    next.bufferIndex = enqueuing.bufferIndex ∧
      next.remainingCapacity = enqueuing.remainingCapacity - size ∧
      next.isClosed = false

/-- A size is taken for another that fits. -/
def Truncates (enqueuing : EnqueuingCapacity) (size : Nat) : Prop :=
  2 ^ 63 ≤ size ∧ size % 2 ^ 63 ≤ enqueuing.remainingCapacity

theorem tryReserve_isSome_iff (hopen : enqueuing.isClosed = false) (size : Nat) :
    (enqueuing.tryReserve size).isSome = true ↔
      size % 2 ^ 63 ≤ enqueuing.remainingCapacity := by
  rw [← tryReserve_mod, Option.isSome_iff_ne_none, ne_eq,
    tryReserve_eq_none_iff hopen (Nat.mod_lt _ (by decide)), not_lt]

theorem reservesExactly_iff (hopen : enqueuing.isClosed = false) (size : Nat) :
    enqueuing.ReservesExactly size ↔ ¬ enqueuing.Truncates size := by
  have hsome := tryReserve_isSome_iff hopen size
  have hremaining := remainingCapacity_lt enqueuing
  constructor
  · rintro hexact ⟨hlarge, hfits⟩
    have hle := hexact.isSome_iff.mp (hsome.mpr hfits)
    omega
  · intro htruncates
    have hsmall : ∀ {next}, enqueuing.tryReserve size = some next → size < 2 ^ 63 := by
      intro next hnext
      by_contra hlarge
      have hfits := hsome.mp (hnext ▸ rfl)
      exact htruncates ⟨Nat.not_lt.mp hlarge, hfits⟩
    refine ⟨?_, ?_⟩
    · constructor
      · intro hreserved
        obtain ⟨next, hnext⟩ := Option.isSome_iff_exists.mp hreserved
        rw [← Nat.mod_eq_of_lt (hsmall hnext)]
        exact hsome.mp hreserved
      · intro hle
        rw [hsome, Nat.mod_eq_of_lt (by omega)]
        exact hle
    · intro next hnext
      exact ((tryReserve_eq_some_iff hopen (hsmall hnext)).mp hnext).2

end EnqueuingCapacity

variable {B : Type u} {α : Type v} {σ : Type w} [Buffer B α σ] [LawfulBuffer B]

/-- What `try_enqueue` of a value should do on an open queue.  A value that does not fit
is refused, whether the word was just loaded or the compare-exchange failed; a value
that is reserved is written in the units between the two remaining capacities. -/
structure EnqueuesExactly (q : Queue B) (value : List α) : Prop where
  reserves : q.enqueuingCapacity.ReservesExactly value.length
  refuses (last : Option (Outcome α)) (spurious : Bool) :
    q.enqueuingCapacity.remainingCapacity < value.length →
      ((q.act (.idle last : Pc α σ) (.tryEnqueue value)).bind fun result =>
          result.1.run spurious result.2.1) =
        some (q, .idle (some (.enqueueError (.insufficientCapacity value))), .silent)
  refusesAgain (enqueuing next : EnqueuingCapacity) (spurious : Bool) :
    q.enqueuingCapacity.remainingCapacity < value.length →
      spurious = true ∨ q.enqueuingCapacity ≠ enqueuing →
        q.run spurious (.enqueueReserve value enqueuing next : Pc α σ) =
          some (q, .idle (some (.enqueueError (.insufficientCapacity value))), .silent)
  writesInside (next : EnqueuingCapacity) (q₁ q₂ : Queue B) (spurious : Bool)
      (pc : Pc α σ) (event : Event α) :
    q.enqueuingCapacity.tryReserve value.length = some next →
      q₁.run spurious (.enqueueInsert value q.enqueuingCapacity) =
        some (q₂, pc, event) →
      ∀ i j, LawfulBuffer.cell (q₂.buffers i) j = LawfulBuffer.cell (q₁.buffers i) j ∨
        (i = q.enqueuingCapacity.bufferIndex ∧
          Buffer.capacity (q₁.buffers i) ≤
            j + q.enqueuingCapacity.remainingCapacity ∧
          j + next.remainingCapacity < Buffer.capacity (q₁.buffers i))

omit [Buffer B α σ] [LawfulBuffer B] in
theorem enqueueCheck_eq_insufficient {enqueuing : EnqueuingCapacity} {value : List α}
    (hopen : enqueuing.isClosed = false)
    (hnone : enqueuing.tryReserve value.length = none) :
    (enqueueCheck value enqueuing : Pc α σ) =
      .idle (some (.enqueueError (.insufficientCapacity value))) := by
  rw [enqueueCheck, if_neg (by simp [hopen]), hnone]

/-- The insertion of a value that fits in the remaining capacity. -/
theorem cell_enqueueInsert {value : List α} {enqueuing : EnqueuingCapacity}
    (hle : value.length ≤ enqueuing.remainingCapacity) {q₁ q₂ : Queue B}
    {spurious : Bool} {pc : Pc α σ} {event : Event α}
    (hrun : q₁.run spurious (.enqueueInsert value enqueuing) = some (q₂, pc, event))
    (i : Fin 2) (j : Nat) :
    LawfulBuffer.cell (q₂.buffers i) j = LawfulBuffer.cell (q₁.buffers i) j ∨
      (i = enqueuing.bufferIndex ∧
        Buffer.capacity (q₁.buffers i) ≤ j + enqueuing.remainingCapacity ∧
        j + (enqueuing.remainingCapacity - value.length) <
          Buffer.capacity (q₁.buffers i)) := by
  simp only [Queue.run] at hrun
  split at hrun
  · cases hrun
    exact Or.inl rfl
  · rename_i hcapacity
    split at hrun
    · cases hrun
      exact Or.inl rfl
    · rename_i b hinsert
      cases hrun
      rw [Queue.buffers_setBuffer]
      by_cases hi : i = enqueuing.bufferIndex
      · subst hi
        rw [if_pos rfl]
        by_cases hj : Buffer.capacity (q₁.buffers enqueuing.bufferIndex) -
              enqueuing.remainingCapacity ≤ j ∧
            j < Buffer.capacity (q₁.buffers enqueuing.bufferIndex) -
              enqueuing.remainingCapacity + value.length
        · exact Or.inr ⟨rfl, by omega, by omega⟩
        · exact Or.inl (cell_insertInto_of_not_mem (by omega) hinsert hj)
      · rw [if_neg hi]
        exact Or.inl rfl

/-- An open queue enqueues exactly unless the size of the value is taken for another
that fits. -/
theorem enqueues_exactly_iff (q : Queue B) (value : List α)
    (hopen : q.enqueuingCapacity.isClosed = false) (hvalue : value ≠ []) :
    EnqueuesExactly q value ↔ ¬ q.enqueuingCapacity.Truncates value.length := by
  rw [← EnqueuingCapacity.reservesExactly_iff hopen]
  constructor
  · exact fun hexact => hexact.reserves
  · intro hreserves
    have hnone : q.enqueuingCapacity.remainingCapacity < value.length →
        q.enqueuingCapacity.tryReserve value.length = none := by
      intro hlt
      rw [← Option.not_isSome_iff_eq_none, hreserves.isSome_iff]
      exact Nat.not_le_of_lt hlt
    refine ⟨hreserves, ?_, ?_, ?_⟩
    · intro last spurious hlt
      have hpos : value.length ≠ 0 := by simpa using hvalue
      simp only [Queue.act, if_neg hpos, Option.bind_some, Queue.run,
        enqueueCheck_eq_insufficient hopen (hnone hlt)]
    · intro enqueuing next spurious hlt hfails
      have hcompare : ¬ (spurious = false ∧ q.enqueuingCapacity = enqueuing) := by
        rintro ⟨hspurious, hword⟩
        rcases hfails with htrue | hne
        · rw [hspurious] at htrue
          cases htrue
        · exact hne hword
      simp only [Queue.run, if_neg hcompare,
        enqueueCheck_eq_insufficient hopen (hnone hlt)]
    · intro next q₁ q₂ spurious pc event hnext hrun i j
      have hle := hreserves.isSome_iff.mp (hnext ▸ rfl)
      rw [(hreserves.decodes next hnext).2.1]
      exact cell_enqueueInsert hle hrun i j

/-- A value of two elements where one unit is left. -/
theorem enqueues_exactly_iff_one_left :
    ∃ q : Queue (VecBuffer Nat), q ∈ (Queue.withCapacity 1 : Option (Queue (VecBuffer Nat))) ∧
      q.enqueuingCapacity.isClosed = false ∧ EnqueuesExactly q [7, 8] := by
  refine ⟨(Queue.withCapacity 1).get (by decide +kernel), Option.get_mem _,
    by decide +kernel, ?_⟩
  refine (enqueues_exactly_iff _ [7, 8] (by decide +kernel) (by decide)).mpr ?_
  exact fun htruncates => absurd htruncates.1 (by decide)

/-- A size of `2^63` on a word with one unit left: nothing is subtracted. -/
theorem oversized_reservation_succeeds :
    ∃ enqueuing : EnqueuingCapacity,
      EnqueuingCapacity.new ⟨0, Nat.zero_lt_two⟩ 1 = some enqueuing ∧
        enqueuing.isClosed = false ∧ enqueuing.remainingCapacity = 1 ∧
        enqueuing.tryReserve (2 ^ 63) = some enqueuing ∧
        ¬ enqueuing.ReservesExactly (2 ^ 63) := by
  refine ⟨⟨2#64⟩, by decide +kernel, by decide +kernel, by decide +kernel,
    by decide +kernel, ?_⟩
  rw [EnqueuingCapacity.reservesExactly_iff (by decide +kernel)]
  exact fun hnot => hnot ⟨by decide, by decide +kernel⟩

end SwapBufferQueue
