/-
The two packed atomic words of the queue.  `EnqueuingCapacity` holds the closed
flag, the remaining capacity and the index of the enqueuing buffer;
`DequeuingLength` holds the length and the index of the dequeuing buffer.  Every
operation is the bit operation of the source, and its effect on the fields is
stated once here, so that no later proof looks at a bit again.
-/
import Mathlib.Data.Nat.Bitwise
import Mathlib.Data.BitVec

namespace SwapBufferQueue

/-- The machine word of a 64-bit target. -/
abbrev Usize := BitVec 64

def usizeMax : Usize := BitVec.allOnes 64

def closedFlag : Usize := (usizeMax >>> 1) + 1

def dequeuingLocked : Usize := usizeMax

/-- `EnqueuingCapacity::check_overflow`: the capacities the queue accepts. -/
def checkOverflow (capacity : Nat) : Bool :=
  decide (capacity < (usizeMax >>> 2).toNat)

theorem checkOverflow_iff (capacity : Nat) :
    checkOverflow capacity = true ↔ capacity < 2 ^ 62 - 1 := by
  simp [checkOverflow, usizeMax]

structure EnqueuingCapacity where
  word : Usize
deriving Repr, DecidableEq

namespace EnqueuingCapacity

/-- `EnqueuingCapacity::new`; `none` is the failure of its assertion. -/
def new (bufferIndex : Fin 2) (capacity : Nat) : Option EnqueuingCapacity :=
  if BitVec.ofNat 64 capacity <<< 1 < closedFlag then
    some ⟨BitVec.ofNat 64 bufferIndex.val ||| (BitVec.ofNat 64 capacity <<< 1)⟩
  else
    none

theorem and_one_lt_two (word : Usize) : (word &&& 1).toNat < 2 := by
  rw [BitVec.toNat_and]
  exact Nat.lt_of_le_of_lt Nat.and_le_right (by decide)

def bufferIndex (enqueuing : EnqueuingCapacity) : Fin 2 :=
  ⟨(enqueuing.word &&& 1).toNat, and_one_lt_two enqueuing.word⟩

def remainingCapacity (enqueuing : EnqueuingCapacity) : Nat :=
  ((enqueuing.word &&& ~~~closedFlag) >>> 1).toNat

def isClosed (enqueuing : EnqueuingCapacity) : Bool :=
  enqueuing.word &&& closedFlag != 0

/-- `checked_sub` of the shifted size.  The shift drops the top bit of the
size, as `<<` does on a `usize`. -/
def tryReserve (enqueuing : EnqueuingCapacity) (size : Nat) :
    Option EnqueuingCapacity :=
  if BitVec.ofNat 64 size <<< 1 ≤ enqueuing.word then
    some ⟨enqueuing.word - BitVec.ofNat 64 size <<< 1⟩
  else
    none

def withClosed (next enqueuing : EnqueuingCapacity) : EnqueuingCapacity :=
  ⟨next.word ||| (enqueuing.word &&& closedFlag)⟩

/-- The word `close` leaves: `fetch_or` of the closed flag. -/
def close (enqueuing : EnqueuingCapacity) : EnqueuingCapacity :=
  ⟨enqueuing.word ||| closedFlag⟩

/-- The word `reopen` leaves: `fetch_and` of the complement of the flag. -/
def reopen (enqueuing : EnqueuingCapacity) : EnqueuingCapacity :=
  ⟨enqueuing.word &&& ~~~closedFlag⟩

variable (enqueuing : EnqueuingCapacity)

theorem bufferIndex_val :
    enqueuing.bufferIndex.val = enqueuing.word.toNat % 2 := by
  simp [bufferIndex, Nat.and_one_is_mod]

theorem toNat_and_not_closedFlag (word : Usize) :
    (word &&& ~~~closedFlag).toNat = word.toNat % 2 ^ 63 := by
  have hmask : (~~~closedFlag).toNat = 2 ^ 63 - 1 := by decide
  rw [BitVec.toNat_and, hmask, Nat.and_two_pow_sub_one_eq_mod]

theorem remainingCapacity_eq :
    enqueuing.remainingCapacity = enqueuing.word.toNat % 2 ^ 63 / 2 := by
  rw [remainingCapacity, BitVec.toNat_ushiftRight, toNat_and_not_closedFlag,
    Nat.shiftRight_eq_div_pow, pow_one]

theorem toNat_and_closedFlag (word : Usize) :
    (word &&& closedFlag).toNat = if 2 ^ 63 ≤ word.toNat then 2 ^ 63 else 0 := by
  have hflag : closedFlag = BitVec.twoPow 64 63 := by decide
  have hbit : word.getLsbD 63 = decide (2 ^ 63 ≤ word.toNat) := by
    have hmsb := BitVec.msb_eq_decide word
    rwa [BitVec.msb_eq_getLsbD_last] at hmsb
  rw [hflag, BitVec.and_twoPow, hbit]
  by_cases hle : 2 ^ 63 ≤ word.toNat
  · rw [decide_eq_true hle, if_pos rfl, if_pos hle]
    decide
  · rw [decide_eq_false hle, if_neg Bool.false_ne_true, if_neg hle]
    decide

theorem isClosed_iff : enqueuing.isClosed = true ↔ 2 ^ 63 ≤ enqueuing.word.toNat := by
  have hand := toNat_and_closedFlag enqueuing.word
  rw [isClosed, bne_iff_ne, ne_eq, ← BitVec.toNat_inj, hand]
  split <;> simp_all

/-- The three fields are a partition of the word. -/
theorem toNat_word : enqueuing.word.toNat =
    enqueuing.bufferIndex.val + 2 * enqueuing.remainingCapacity +
      2 ^ 63 * enqueuing.isClosed.toNat := by
  have hlt := enqueuing.word.isLt
  have hclosed := isClosed_iff enqueuing
  rw [bufferIndex_val, remainingCapacity_eq]
  cases hflag : enqueuing.isClosed
  · rw [hflag] at hclosed
    simp only [Bool.toNat_false, Bool.false_eq_true, false_iff, not_le] at hclosed ⊢
    omega
  · rw [hflag] at hclosed
    simp only [Bool.toNat_true, true_iff] at hclosed ⊢
    omega

theorem remainingCapacity_lt : enqueuing.remainingCapacity < 2 ^ 62 := by
  rw [remainingCapacity_eq]
  omega

theorem isClosed_eq_false_iff :
    enqueuing.isClosed = false ↔ enqueuing.word.toNat < 2 ^ 63 := by
  rw [← not_iff_not, Bool.not_eq_false, isClosed_iff, not_lt]

/-- Fields determine the word, so they are read off from any arithmetic form
of it. -/
theorem fields_of_toNat (index remaining : Nat) (closed : Bool)
    (hindex : index < 2) (hremaining : remaining < 2 ^ 62)
    (hword : enqueuing.word.toNat =
      index + 2 * remaining + 2 ^ 63 * closed.toNat) :
    enqueuing.bufferIndex.val = index ∧
      enqueuing.remainingCapacity = remaining ∧ enqueuing.isClosed = closed := by
  have hclosed := isClosed_iff enqueuing
  rw [bufferIndex_val, remainingCapacity_eq, hword]
  cases closed
  · simp only [Bool.toNat_false] at hword ⊢
    refine ⟨by omega, by omega, ?_⟩
    rw [isClosed_eq_false_iff]
    omega
  · simp only [Bool.toNat_true] at hword ⊢
    refine ⟨by omega, by omega, ?_⟩
    rw [hclosed]
    omega

theorem toNat_shiftLeft_one {size : Nat} (hsize : size < 2 ^ 63) :
    (BitVec.ofNat 64 size <<< 1).toNat = 2 * size := by
  rw [BitVec.toNat_shiftLeft, BitVec.toNat_ofNat, Nat.shiftLeft_eq]
  omega

/-- Index and shifted field do not overlap, so `|` adds them. -/
theorem toNat_or_shiftLeft (bufferIndex : Fin 2) {field : Nat}
    (hfield : field < 2 ^ 63) :
    (BitVec.ofNat 64 bufferIndex.val ||| (BitVec.ofNat 64 field <<< 1)).toNat =
      bufferIndex.val + 2 * field := by
  have hindex : bufferIndex.val < 2 ^ 1 := bufferIndex.isLt
  rw [BitVec.toNat_or, toNat_shiftLeft_one hfield, BitVec.toNat_ofNat,
    Nat.mod_eq_of_lt (by omega), Nat.lor_comm]
  have hor := Nat.two_pow_add_eq_or_of_lt hindex field
  rw [pow_one] at hor
  omega

theorem new_spec (bufferIndex : Fin 2) {capacity : Nat}
    (hcapacity : capacity < 2 ^ 62) :
    ∃ enqueuing, new bufferIndex capacity = some enqueuing ∧
      enqueuing.bufferIndex = bufferIndex ∧
      enqueuing.remainingCapacity = capacity ∧ enqueuing.isClosed = false := by
  have hassert : BitVec.ofNat 64 capacity <<< 1 < closedFlag := by
    have hflag : closedFlag.toNat = 2 ^ 63 := by decide
    rw [BitVec.lt_def, toNat_shiftLeft_one (by omega), hflag]
    omega
  refine ⟨_, if_pos hassert, ?_⟩
  have hfields := fields_of_toNat
    ⟨BitVec.ofNat 64 bufferIndex.val ||| (BitVec.ofNat 64 capacity <<< 1)⟩
    _ _ false bufferIndex.isLt hcapacity
    (by simpa using toNat_or_shiftLeft bufferIndex (by omega))
  exact ⟨Fin.ext hfields.1, hfields.2⟩

variable {enqueuing}

theorem reserve_guard_iff {size : Nat}
    (hopen : enqueuing.isClosed = false) (hsize : size < 2 ^ 63) :
    BitVec.ofNat 64 size <<< 1 ≤ enqueuing.word ↔
      size ≤ enqueuing.remainingCapacity := by
  have hword := toNat_word enqueuing
  have hindex := enqueuing.bufferIndex.isLt
  rw [hopen, Bool.toNat_false] at hword
  rw [BitVec.le_def, toNat_shiftLeft_one hsize]
  omega

/-- The subtraction succeeds exactly when the size fits, and it neither borrows
from the closed flag nor touches the index. -/
theorem tryReserve_eq_some_iff {size : Nat} {next : EnqueuingCapacity}
    (hopen : enqueuing.isClosed = false) (hsize : size < 2 ^ 63) :
    enqueuing.tryReserve size = some next ↔
      size ≤ enqueuing.remainingCapacity ∧
        next.bufferIndex = enqueuing.bufferIndex ∧
        next.remainingCapacity = enqueuing.remainingCapacity - size ∧
        next.isClosed = false := by
  have hshift := toNat_shiftLeft_one hsize
  have hword := toNat_word enqueuing
  have hindex := enqueuing.bufferIndex.isLt
  have hremaining := remainingCapacity_lt enqueuing
  rw [hopen, Bool.toNat_false] at hword
  have hguard := reserve_guard_iff hopen hsize
  rw [tryReserve]
  constructor
  · intro hsome
    split at hsome
    · rename_i hle
      cases hsome
      have hfit := hguard.mp hle
      have hsub : (enqueuing.word - BitVec.ofNat 64 size <<< 1).toNat =
          enqueuing.bufferIndex.val + 2 * (enqueuing.remainingCapacity - size) := by
        rw [BitVec.toNat_sub, hshift]
        omega
      have hfields := fields_of_toNat
        ⟨enqueuing.word - BitVec.ofNat 64 size <<< 1⟩
        _ (enqueuing.remainingCapacity - size) false hindex
        (by omega) (by simpa using hsub)
      exact ⟨hfit, Fin.ext hfields.1, hfields.2⟩
    · cases hsome
  · rintro ⟨hfit, hnextIndex, hnextRemaining, hnextOpen⟩
    rw [if_pos (hguard.mpr hfit)]
    have hnext := toNat_word next
    rw [hnextIndex, hnextRemaining, hnextOpen, Bool.toNat_false] at hnext
    have hsub : (enqueuing.word - BitVec.ofNat 64 size <<< 1).toNat =
        next.word.toNat := by
      rw [BitVec.toNat_sub, hshift]
      omega
    have heq := BitVec.eq_of_toNat_eq hsub
    cases next
    exact congrArg some (congrArg EnqueuingCapacity.mk heq)

theorem tryReserve_eq_none_iff {size : Nat}
    (hopen : enqueuing.isClosed = false) (hsize : size < 2 ^ 63) :
    enqueuing.tryReserve size = none ↔ enqueuing.remainingCapacity < size := by
  rw [tryReserve, ite_eq_right_iff, imp_iff_not (by simp),
    reserve_guard_iff hopen hsize, not_le]

/-- The swap word takes index and capacity from the new word and the closed
flag from the word it replaces. -/
theorem withClosed_spec {next : EnqueuingCapacity} (hnext : next.isClosed = false)
    (enqueuing : EnqueuingCapacity) :
    (next.withClosed enqueuing).bufferIndex = next.bufferIndex ∧
      (next.withClosed enqueuing).remainingCapacity = next.remainingCapacity ∧
      (next.withClosed enqueuing).isClosed = enqueuing.isClosed := by
  have hlt := (isClosed_eq_false_iff next).mp hnext
  have hflag := toNat_and_closedFlag enqueuing.word
  have hword : (next.withClosed enqueuing).word.toNat =
      next.bufferIndex.val + 2 * next.remainingCapacity +
        2 ^ 63 * enqueuing.isClosed.toNat := by
    have hfields := toNat_word next
    rw [hnext, Bool.toNat_false] at hfields
    rw [withClosed, BitVec.toNat_or, hflag]
    cases hclosed : enqueuing.isClosed
    · rw [isClosed_eq_false_iff] at hclosed
      rw [if_neg (by omega), Nat.or_zero, Bool.toNat_false, hfields]
    · rw [isClosed_iff] at hclosed
      rw [if_pos hclosed, Nat.lor_comm, Bool.toNat_true]
      have hor := Nat.two_pow_add_eq_or_of_lt hlt 1
      rw [Nat.mul_one] at hor
      omega
  have hfields := fields_of_toNat _ _ _ _ next.bufferIndex.isLt
    (remainingCapacity_lt next) hword
  exact ⟨Fin.ext hfields.1, hfields.2⟩

theorem reopen_spec (enqueuing : EnqueuingCapacity) :
    enqueuing.reopen.bufferIndex = enqueuing.bufferIndex ∧
      enqueuing.reopen.remainingCapacity = enqueuing.remainingCapacity ∧
      enqueuing.reopen.isClosed = false := by
  have hword : enqueuing.reopen.word.toNat =
      enqueuing.bufferIndex.val + 2 * enqueuing.remainingCapacity +
        2 ^ 63 * false.toNat := by
    have hfields := toNat_word enqueuing
    have hindex := enqueuing.bufferIndex.isLt
    have hremaining := remainingCapacity_lt enqueuing
    rw [reopen, toNat_and_not_closedFlag, Bool.toNat_false]
    cases hvalue : enqueuing.isClosed <;>
      rw [hvalue] at hfields <;> simp at hfields <;> omega
  have hfields := fields_of_toNat _ _ _ _ enqueuing.bufferIndex.isLt
    (remainingCapacity_lt enqueuing) hword
  exact ⟨Fin.ext hfields.1, hfields.2⟩

/-- Closing is what a swap onto a closed word would do to the reopened one. -/
theorem close_eq_withClosed (enqueuing : EnqueuingCapacity) :
    enqueuing.close = enqueuing.reopen.withClosed ⟨closedFlag⟩ := by
  rw [close, reopen, withClosed, mk.injEq]
  ext bit hbit
  simp only [BitVec.getElem_or, BitVec.getElem_and, BitVec.getElem_not]
  cases enqueuing.word[bit] <;> cases closedFlag[bit] <;> rfl

theorem close_spec (enqueuing : EnqueuingCapacity) :
    enqueuing.close.bufferIndex = enqueuing.bufferIndex ∧
      enqueuing.close.remainingCapacity = enqueuing.remainingCapacity ∧
      enqueuing.close.isClosed = true := by
  obtain ⟨hindex, hremaining, hopen⟩ := reopen_spec enqueuing
  have hclosed : (EnqueuingCapacity.mk closedFlag).isClosed = true := by decide
  rw [close_eq_withClosed, ← hindex, ← hremaining, ← hclosed]
  exact withClosed_spec hopen _

end EnqueuingCapacity

structure DequeuingLength where
  word : Usize
deriving Repr, DecidableEq

namespace DequeuingLength

def new (bufferIndex : Fin 2) (length : Nat) : DequeuingLength :=
  ⟨BitVec.ofNat 64 bufferIndex.val ||| (BitVec.ofNat 64 length <<< 1)⟩

def bufferIndex (dequeuing : DequeuingLength) : Fin 2 :=
  ⟨(dequeuing.word &&& 1).toNat, EnqueuingCapacity.and_one_lt_two dequeuing.word⟩

def bufferLen (dequeuing : DequeuingLength) : Nat :=
  (dequeuing.word >>> 1).toNat

/-- `none` is the `Conflict` error. -/
def tryFromAtomic (atomic : Usize) : Option DequeuingLength :=
  if atomic ≠ dequeuingLocked then some ⟨atomic⟩ else none

theorem bufferIndex_val (dequeuing : DequeuingLength) :
    dequeuing.bufferIndex.val = dequeuing.word.toNat % 2 := by
  simp [bufferIndex, Nat.and_one_is_mod]

theorem tryFromAtomic_eq_some_iff {atomic : Usize} {dequeuing : DequeuingLength} :
    tryFromAtomic atomic = some dequeuing ↔
      atomic ≠ dequeuingLocked ∧ dequeuing.word = atomic := by
  rw [tryFromAtomic]
  split
  · cases dequeuing
    simp_all [eq_comm]
  · simp_all

theorem toNat_word (dequeuing : DequeuingLength) : dequeuing.word.toNat =
    dequeuing.bufferIndex.val + 2 * dequeuing.bufferLen := by
  have hindex := bufferIndex_val dequeuing
  have hlength : dequeuing.bufferLen = dequeuing.word.toNat / 2 := by
    rw [bufferLen, BitVec.toNat_ushiftRight, Nat.shiftRight_eq_div_pow, pow_one]
  omega

/-- The stored word keeps its two fields and cannot be taken for the lock. -/
theorem new_spec (bufferIndex : Fin 2) {length : Nat} (hlength : length < 2 ^ 62) :
    (new bufferIndex length).bufferIndex = bufferIndex ∧
      (new bufferIndex length).bufferLen = length ∧
      (new bufferIndex length).word ≠ dequeuingLocked := by
  have hindex := bufferIndex.isLt
  have hfield : length < 2 ^ 63 := by omega
  have hword := EnqueuingCapacity.toNat_or_shiftLeft bufferIndex hfield
  refine ⟨Fin.ext ?_, ?_, ?_⟩
  · calc (new bufferIndex length).bufferIndex.val
        = (new bufferIndex length).word.toNat % 2 := bufferIndex_val _
      _ = bufferIndex.val := by rw [new, hword]; omega
  · rw [bufferLen, new, BitVec.toNat_ushiftRight, hword,
      Nat.shiftRight_eq_div_pow]
    omega
  · intro hlocked
    have htop : dequeuingLocked.toNat = 2 ^ 64 - 1 := by decide
    rw [← hlocked, new, hword] at htop
    omega

end DequeuingLength

end SwapBufferQueue
